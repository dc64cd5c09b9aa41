import Ria.Backend.IssueQueueMem
import Ria.Backend.LoadStorePipe

/-!
# The load/store pipeline

The memory issue queue, the IS~RF and RF~EX registers of its way and `pipe_3`,
beside the memory uops issued, those that have reached the pipe and those that
the pipe has shown.  While the data cache answers every load at once, each
uop is shown once, in issue order.  A load that waits is shown without its
data, and the uop behind it is lost: the queue issues without regard to
`ex_busy`.
-/

namespace Ria

open Hdl

/-- What the queue, the register file and the data cache answer. -/
structure PipelineInput where
  reset : Bool
  clear : Bool
  loadEn : Bool
  isMemUopIn : Fin 4 → MicroOp
  busy : BusyPorts 16
  rs1Data : Word
  rs2Data : Word
  dcacheData : BitVec 64
  dcacheDataValid : Bool

/-- The memory uops since the last reset or clear: `issued` by the queue,
`reached` the pipe with their requests, and `presented` on `uop_out`, once for
each cycle, with the request on the port. -/
structure PipelineLog where
  issued : List MicroOp
  reached : List (MicroOp × DcachePort)
  presented : List (MicroOp × DcachePort)

/-- `rfUopIn` is way 3 of `rf_int_uop_in`; the `ex` fields are `ex_mem_*`. -/
structure MemPipeline where
  iqMem : IssueQueueMem
  rfUopIn : MicroOp
  exUopIn : MicroOp
  exRs1DataIn : Word
  exRs2DataIn : Word
  pipe3 : Pipe3
  log : PipelineLog

namespace MemPipeline

/-- The memory uops of a list. -/
def memoryUops (uops : List MicroOp) : List MicroOp :=
  uops.filter Pipe3.inputValid

def emptyLog : PipelineLog :=
  { issued := [], reached := [], presented := [] }

section Cycle

variable (system : MemPipeline) (input : PipelineInput)

/-- The memory uop that reaches the pipe, with its request. -/
def reaching : List (MicroOp × DcachePort) :=
  (memoryUops [system.exUopIn]).map fun uop =>
    (uop, uop.request system.exRs1DataIn system.exRs2DataIn)

/-- What the pipe shows. -/
def shown : List (MicroOp × DcachePort) :=
  if system.pipe3.uopOut.valid then
    [(system.pipe3.uopOut, system.pipe3.port)]
  else []

def nextLog : PipelineLog :=
  if input.reset || input.clear then emptyLog
  else
    { issued := system.log.issued ++
        memoryUops [system.iqMem.uopOut input.busy]
      reached := system.log.reached ++ system.reaching
      presented := system.log.presented ++ system.shown }

def next : MemPipeline :=
  let flush := input.reset || input.clear
  { iqMem := system.iqMem.next input.busy input.isMemUopIn input.reset
      input.clear input.loadEn
    rfUopIn := if flush then 0 else system.iqMem.uopOut input.busy
    exUopIn := if flush then 0 else system.rfUopIn
    exRs1DataIn := if flush then 0 else input.rs1Data
    exRs2DataIn := if flush then 0 else input.rs2Data
    pipe3 := system.pipe3.next input.reset input.clear system.exUopIn
      system.exRs1DataIn system.exRs2DataIn input.dcacheDataValid
    log := system.nextLog input }

end Cycle

/-- An idle pipe behind empty registers. -/
structure Start (system : MemPipeline) : Prop where
  iqMem : system.iqMem = .resetState
  rfUopIn : system.rfUopIn = 0
  exUopIn : system.exUopIn = 0
  busy : system.pipe3.busyReg = false
  idle : system.pipe3.uopReg = 0
  log : system.log = emptyLog

/-- Every memory uop issued has been presented once, with its own request, or
is on its way, in issue order. -/
structure Conserved (system : MemPipeline) : Prop where
  issued : system.log.issued = system.log.reached.map Prod.fst ++
    memoryUops [system.exUopIn, system.rfUopIn]
  reached : system.log.reached = system.log.presented ++ system.shown

/-- A load is shown with its data, and no uop is lost in the cycle. -/
structure CycleOk (system : MemPipeline) (input : PipelineInput) :
    Prop where
  loads : system.pipe3.uopOut.valid = true →
    system.pipe3.uopOut.memType ≠ .st →
    input.dcacheDataValid = true ∧
      system.pipe3.out input.dcacheData input.dcacheDataValid =
        system.pipe3.uopOut.loaded input.dcacheData
  conserved : Conserved (system.next input)

/-- The data cache answers the load that the pipe holds, if any. -/
def Answered (system : MemPipeline) (input : PipelineInput) : Prop :=
  system.pipe3.uopReg.valid = true → system.pipe3.uopReg.memType ≠ .st →
    input.dcacheDataValid = true

/-- A cycle that squashes nothing, in which the cache answers. -/
structure Flows (system : MemPipeline) (input : PipelineInput) : Prop where
  unflushed : (input.reset || input.clear) = false
  answered : Answered system input

/-! ## A cycle -/

/-- The pipe is idle or holds a memory uop that it has taken. -/
inductive Serving : Pipe3 → Prop where
  | idle {pipe : Pipe3} (busy : pipe.busyReg = false)
      (uop : pipe.uopReg = 0) : Serving pipe
  | holding {uop : MicroOp} (in1 in2 : Word)
      (taken : Pipe3.inputValid uop = true) :
      Serving (Pipe3.holding uop in1 in2)

theorem valid_of_inputValid {uop : MicroOp}
    (taken : Pipe3.inputValid uop = true) : uop.valid = true := by
  rw [Pipe3.inputValid, Bool.and_eq_true] at taken
  exact taken.1

namespace Serving

variable {pipe : Pipe3}

theorem free (serving : Serving pipe) {dataValid : Bool}
    (answered : pipe.uopReg.valid = true → pipe.uopReg.memType ≠ .st →
      dataValid = true) :
    pipe.busyReg = true → pipe.complete dataValid = true := by
  cases serving with
  | idle busy =>
      intro holds
      exact absurd (busy.symm.trans holds) Bool.false_ne_true
  | @holding uop in1 in2 taken =>
      intro _
      have answers : uop.memType ≠ .st → dataValid = true :=
        answered (valid_of_inputValid taken)
      unfold Pipe3.complete Pipe3.holding
      cases kind : uop.memType with
      | ld | ldu => simp [answers (by rw [kind]; exact nofun)]
      | st => simp

theorem empty (serving : Serving pipe) (busy : pipe.busyReg = false) :
    pipe.uopReg = 0 := by
  cases serving with
  | idle _ nothing => exact nothing
  | holding => cases busy

theorem loads (serving : Serving pipe) (data : BitVec 64)
    (valid : pipe.uopOut.valid = true) (load : pipe.uopOut.memType ≠ .st) :
    pipe.out data true = pipe.uopOut.loaded data := by
  cases serving with
  | idle _ nothing =>
      rw [Pipe3.uopOut, nothing] at valid
      cases valid
  | holding in1 in2 => exact Pipe3.holding_loads load in1 in2 data

end Serving

structure Invariant (system : MemPipeline) : Prop where
  conserved : Conserved system
  serving : Serving system.pipe3

theorem memoryUops_pair (older younger : MicroOp) :
    memoryUops [older, younger] =
      memoryUops [older] ++ memoryUops [younger] :=
  List.filter_append [older] [younger]

section Steps

variable {system : MemPipeline} {input : PipelineInput}

theorem Invariant.of_flush (flush : (input.reset || input.clear) = true) :
    Invariant (system.next input) := by
  have log : (system.next input).log = emptyLog := if_pos flush
  have rf : (system.next input).rfUopIn = 0 := if_pos flush
  have ex : (system.next input).exUopIn = 0 := if_pos flush
  have busy : (system.next input).pipe3.busyReg = false := if_pos flush
  have idle : (system.next input).pipe3.uopReg = 0 := if_pos flush
  refine ⟨⟨?_, ?_⟩, .idle busy idle⟩
  · rw [log, rf, ex]
    rfl
  · rw [log, shown, Pipe3.uopOut, idle]
    rfl

theorem reaching_fst :
    system.reaching.map Prod.fst = memoryUops [system.exUopIn] := by
  simp [reaching, Function.comp_def]

theorem log_next (flush : (input.reset || input.clear) = false) :
    (system.next input).log =
      { issued := system.log.issued ++
          memoryUops [system.iqMem.uopOut input.busy]
        reached := system.log.reached ++ system.reaching
        presented := system.log.presented ++ system.shown } := by
  change system.nextLog input = _
  rw [nextLog, flush]
  rfl

theorem exUopIn_next (flush : (input.reset || input.clear) = false) :
    (system.next input).exUopIn = system.rfUopIn := by
  change (if input.reset || input.clear then 0 else _) = _
  rw [flush]
  rfl

/-- A cycle in which the cache answers passes on what the pipe shows and
takes what reaches it. -/
theorem Invariant.pipe_next (serving : Serving system.pipe3)
    (answered : Answered system input)
    (flush : (input.reset || input.clear) = false) :
    Serving (system.next input).pipe3 ∧
      (system.next input).shown = system.reaching := by
  obtain ⟨reset, clear⟩ := Bool.or_eq_false_iff.mp flush
  have pipe : (system.next input).pipe3 = system.pipe3.next false false
      system.exUopIn system.exRs1DataIn system.exRs2DataIn
      input.dcacheDataValid := by
    rw [next, reset, clear]
  unfold shown reaching
  rw [pipe]
  have free := serving.free answered
  cases arrives : Pipe3.inputValid system.exUopIn with
  | true =>
      rw [Pipe3.next_take _ _ free arrives]
      refine ⟨.holding _ _ arrives, ?_⟩
      simp [memoryUops, arrives, Pipe3.holding, Pipe3.uopOut,
        valid_of_inputValid arrives]
  | false =>
      obtain ⟨busy, idle⟩ := Pipe3.next_idle system.exRs1DataIn
        system.exRs2DataIn free serving.empty arrives
      refine ⟨.idle busy idle, ?_⟩
      rw [Pipe3.uopOut, idle]
      simp [memoryUops, arrives]

theorem Invariant.next (holds : Invariant system)
    (answered : Answered system input) : Invariant (system.next input) := by
  cases flush : input.reset || input.clear with
  | true => exact .of_flush flush
  | false =>
      obtain ⟨serving, shows⟩ := pipe_next holds.serving answered flush
      have rf : (system.next input).rfUopIn =
          system.iqMem.uopOut input.busy := by
        simp [MemPipeline.next, flush]
      refine ⟨⟨?_, ?_⟩, serving⟩
      · rw [log_next flush, rf, exUopIn_next flush, holds.conserved.issued]
        simp only [List.map_append, reaching_fst, memoryUops_pair,
          List.append_assoc]
      · rw [log_next flush, shows, holds.conserved.reached]

/-- A uop on its way is presented within three cycles. -/
theorem Invariant.presented {first second third : PipelineInput}
    (holds : Invariant system) (one : Flows system first)
    (two : Flows (system.next first) second)
    (three : Flows ((system.next first).next second) third) :
    (((system.next first).next second).next third).log.presented.map
        Prod.fst =
      system.log.issued := by
  have later := holds.next one.answered
  have shows := (pipe_next holds.serving one.answered one.unflushed).2
  have showsLater := (pipe_next later.serving two.answered two.unflushed).2
  rw [log_next three.unflushed, log_next two.unflushed,
    log_next one.unflushed, shows, showsLater]
  simp only [List.map_append, reaching_fst, exUopIn_next one.unflushed]
  rw [holds.conserved.issued, holds.conserved.reached, memoryUops_pair]
  simp only [List.map_append, List.append_assoc]

end Steps

/-! ## Runs -/

theorem invariant_of_run {system : MemPipeline}
    (run : Run Start next Answered system) : Invariant system := by
  refine run.invariant Invariant ?_ ?_
  · intro system start
    refine ⟨⟨?_, ?_⟩, .idle start.busy start.idle⟩
    · rw [start.log, start.rfUopIn, start.exUopIn]
      rfl
    · rw [start.log, shown, Pipe3.uopOut, start.idle]
      rfl
  · intro system input holds answered
    exact holds.next answered

/-- In a run in which the data cache answers each load in the cycle in which
the pipe holds it, every memory uop issued is presented once, in order and
within three cycles, and a further cycle is right exactly when the cache
answers in it too. -/
theorem presented_once_in_order {system : MemPipeline}
    (run : Run Start next Answered system) :
    Conserved system ∧
      (∀ first second third, Flows system first →
        Flows (system.next first) second →
        Flows ((system.next first).next second) third →
        (((system.next first).next second).next third).log.presented.map
            Prod.fst =
          system.log.issued) ∧
      ∀ input, CycleOk system input ↔ Answered system input := by
  have holds := invariant_of_run run
  refine ⟨holds.conserved,
    fun _ _ _ one two three => holds.presented one two three, ?_⟩
  intro input
  constructor
  · intro ok valid load
    exact (ok.loads valid load).1
  · intro answered
    refine ⟨?_, (holds.next answered).conserved⟩
    intro valid load
    have answers := answered valid load
    refine ⟨answers, ?_⟩
    rw [answers]
    exact holds.serving.loads input.dcacheData valid load

/-! ## Two loads -/

/-- A word load at `pc`. -/
def loadAt (pc : Word) : MicroOp :=
  { (0 : MicroOp) with
    valid := true, pc := pc, fuCode := .mem, memType := .ld
    memSize := .word }

/-- The queue receives two loads, or nothing, and all operands are ready. -/
def twoLoads (present dataValid : Bool) : PipelineInput :=
  { reset := false, clear := false, loadEn := true
    isMemUopIn :=
      if present then packed [loadAt 0, loadAt 4] else noUops
    busy := { rs1Busy := fun _ => false, rs2Busy := fun _ => false }
    rs1Data := 0, rs2Data := 0, dcacheData := 0
    dcacheDataValid := dataValid }

/-- After two loads have entered the queue in the first cycle; `dataValid`
says when the data cache answers. -/
def afterLoads (dataValid : Nat → Bool) : Nat → MemPipeline
  | 0 =>
      { iqMem := .resetState, rfUopIn := 0, exUopIn := 0, exRs1DataIn := 0
        exRs2DataIn := 0
        pipe3 :=
          { isLd := false, isLdu := false, isSt := false, busyReg := false
            uopReg := 0, port := Pipe3.idlePort }
        log := emptyLog }
  | cycles + 1 =>
      next (afterLoads dataValid cycles)
        (twoLoads (cycles == 0) (dataValid cycles))

theorem afterLoads_run {allowed : MemPipeline → PipelineInput → Prop}
    (dataValid : Nat → Bool)
    (permitted : ∀ cycles, allowed (afterLoads dataValid cycles)
      (twoLoads (cycles == 0) (dataValid cycles)))
    (cycles : Nat) : Run Start next allowed (afterLoads dataValid cycles) := by
  induction cycles with
  | zero => exact .start ⟨rfl, rfl, rfl, rfl, rfl, rfl⟩
  | succ cycles induction => exact .step _ induction (permitted cycles)

theorem presented_once_in_order_loads :
    Conserved (afterLoads (fun _ => true) 6) :=
  (presented_once_in_order
    (afterLoads_run (fun _ => true) (fun _ _ _ => rfl) 6)).1

/-- A cache that is silent in the cycle after the first load has reached the
pipe: the load is shown again in the next cycle, and the second is lost. -/
theorem second_load_is_lost :
    ∃ system, Run Start next (fun _ _ => True) system ∧
      system.log.issued.map MicroOp.pc = [0, 4] ∧
      system.log.presented.map (fun shown => shown.1.pc) = [0, 0] ∧
      system.rfUopIn.valid = false ∧ system.exUopIn.valid = false ∧
      system.pipe3.uopOut.valid = false ∧ ¬ Conserved system := by
  have issued : (afterLoads (fun cycle => cycle != 5) 7).log.issued.map
      MicroOp.pc = [0, 4] := by decide +kernel
  have presented : (afterLoads (fun cycle => cycle != 5)
      7).log.presented.map (fun shown => shown.1.pc) = [0, 0] := by
    decide +kernel
  have rf : (afterLoads (fun cycle => cycle != 5) 7).rfUopIn.valid =
      false := by decide +kernel
  have ex : (afterLoads (fun cycle => cycle != 5) 7).exUopIn.valid =
      false := by decide +kernel
  have idle : (afterLoads (fun cycle => cycle != 5) 7).pipe3.uopOut.valid =
      false := by decide +kernel
  have run : Run Start next (fun _ _ => True)
      (afterLoads (fun cycle => cycle != 5) 7) :=
    afterLoads_run _ (fun _ => trivial) 7
  generalize afterLoads (fun cycle => cycle != 5) 7 = system at *
  refine ⟨system, run, issued, presented, rf, ex, idle, ?_⟩
  intro conserved
  have order := congrArg (List.map MicroOp.pc) conserved.issued
  have nothing : memoryUops [system.exUopIn, system.rfUopIn] = [] := by
    simp [memoryUops, Pipe3.inputValid, ex, rf]
  have silent : system.shown = [] := by
    simp [shown, idle]
  rw [conserved.reached, silent, nothing, issued, List.append_nil,
    List.append_nil, List.map_map] at order
  exact absurd (order.trans presented) (by decide)

end MemPipeline

end Ria
