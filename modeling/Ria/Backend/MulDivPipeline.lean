import Ria.Backend.IssueQueueInt
import Ria.Backend.MulDivPipe

/-!
# The multiply/divide pipeline

The integer issue queue, the IS~RF and RF~EX registers of its third way and
`pipe_2`, beside the uops issued on that way, those that have reached the pipe
and those that the pipe has shown, once for each cycle.  The queue issues
without regard to `ex_busy` and the pipe does not clear its register: a uop
that arrives while the pipe is busy is lost, and one that has been shown is
shown again until the next one arrives.
-/

namespace Ria

open Hdl

/-- What dispatch, the scoreboard and the register file answer. -/
structure MulDivInput where
  reset : Bool
  clear : Bool
  loadEn : Bool
  uopIn : Fin 4 → MicroOp
  busy : BusyPorts 32
  rs1Data : Word
  rs2Data : Word

def MulDivInput.flush (input : MulDivInput) : Bool :=
  input.reset || input.clear

/-- The uops since the last reset or clear. -/
structure MulDivLog where
  issued : List MicroOp
  reached : List MicroOp
  presented : List MicroOp

/-- `rfUopIn` is way 2 of `rf_int_uop_in`; the `ex` fields are way 2 of
`ex_int_*`. -/
structure MulDivPipeline where
  iqInt : IssueQueueInt
  rfUopIn : MicroOp
  exUopIn : MicroOp
  exRs1DataIn : Word
  exRs2DataIn : Word
  pipe2 : Pipe2
  log : MulDivLog

/-- The uop, if it is valid. -/
def MicroOp.present (uop : MicroOp) : List MicroOp :=
  if uop.valid then [uop] else []

theorem MicroOp.length_present (uop : MicroOp) :
    uop.present.length = if uop.valid then 1 else 0 := by
  unfold present
  split
  · rfl
  · rfl

theorem MicroOp.present_zero : (0 : MicroOp).present = [] := rfl

namespace MulDivPipeline

def emptyLog : MulDivLog := { issued := [], reached := [], presented := [] }

section Cycle

variable (system : MulDivPipeline) (input : MulDivInput)

/-- The inputs of the pipe. -/
def pipeInput : Pipe2Input :=
  { reset := input.reset, clear := input.clear, uop := system.exUopIn
    in1 := system.exRs1DataIn, in2 := system.exRs2DataIn }

def nextLog : MulDivLog :=
  if input.flush then emptyLog
  else
    { issued := system.log.issued ++
        (system.iqInt.uopOut input.busy 2).present
      reached := system.log.reached ++ system.exUopIn.present
      presented := system.log.presented ++ system.pipe2.uopOut.present }

def next : MulDivPipeline :=
  { iqInt := system.iqInt.next input.uopIn input.loadEn input.busy input.reset
      input.clear
    rfUopIn :=
      if input.flush then 0 else system.iqInt.uopOut input.busy 2
    exUopIn := if input.flush then 0 else system.rfUopIn
    exRs1DataIn := if input.flush then 0 else input.rs1Data
    exRs2DataIn := if input.flush then 0 else input.rs2Data
    pipe2 := system.pipe2.cycle (system.pipeInput input)
    log := system.nextLog input }

end Cycle

/-- A free pipe behind empty registers. -/
structure Start (system : MulDivPipeline) : Prop where
  iqInt : system.iqInt = .resetState
  rfUopIn : system.rfUopIn = 0
  exUopIn : system.exUopIn = 0
  free : system.pipe2.busy = false
  uopReg : system.pipe2.uopReg = 0
  log : system.log = emptyLog

/-- Each uop issued is on its way, or has been presented once, in issue
order. -/
structure Conserved (system : MulDivPipeline) : Prop where
  issued : system.log.issued = system.log.reached ++
    (system.exUopIn.present ++ system.rfUopIn.present)
  reached : system.log.reached =
    system.log.presented ++ system.pipe2.uopReg.present

/-- The cycle squashes everything; or nothing arrives at a busy pipe, and
something arrives at one that shows a uop. -/
def Spaced (system : MulDivPipeline) (input : MulDivInput) : Prop :=
  input.flush = true ∨
    (system.pipe2.busy = true → system.exUopIn.valid = false) ∧
      (system.pipe2.busy = false → system.pipe2.uopReg.valid = true →
        system.exUopIn.valid = true)

section Steps

variable {system : MulDivPipeline} {input : MulDivInput}

theorem conserved_of_flush (flush : input.flush = true) :
    Conserved (system.next input) := by
  have reg : (system.next input).pipe2.uopReg = 0 := if_pos flush
  constructor
  · simp only [next, nextLog, if_pos flush]
    rfl
  · rw [reg]
    simp only [next, nextLog, if_pos flush]
    rfl

theorem log_next (running : input.flush = false) :
    (system.next input).log =
      { issued := system.log.issued ++
          (system.iqInt.uopOut input.busy 2).present
        reached := system.log.reached ++ system.exUopIn.present
        presented := system.log.presented ++
          system.pipe2.uopOut.present } := by
  change system.nextLog input = _
  rw [nextLog, running]
  rfl

theorem stages_next (running : input.flush = false) :
    (system.next input).rfUopIn = system.iqInt.uopOut input.busy 2 ∧
      (system.next input).exUopIn = system.rfUopIn := by
  unfold next
  rw [running]
  exact ⟨rfl, rfl⟩

theorem uopReg_next (running : input.flush = false) :
    (system.next input).pipe2.uopReg =
      if !system.pipe2.busy && system.exUopIn.valid then system.exUopIn
      else system.pipe2.uopReg := by
  obtain ⟨reset, clear⟩ := Bool.or_eq_false_iff.mp running
  exact Pipe2.uopReg_cycle system.pipe2 reset clear

theorem Conserved.issued_next (holds : Conserved system)
    (running : input.flush = false) :
    (system.next input).log.issued = (system.next input).log.reached ++
      ((system.next input).exUopIn.present ++
        (system.next input).rfUopIn.present) := by
  obtain ⟨rf, ex⟩ : (system.next input).rfUopIn = _ ∧
      (system.next input).exUopIn = _ := stages_next running
  rw [log_next running, rf, ex, holds.issued]
  simp only [List.append_assoc]

/-- The pipe passes on what it shows and takes what arrives exactly when the
cycle is spaced. -/
theorem Conserved.reached_next_iff (holds : Conserved system)
    (running : input.flush = false) :
    (system.next input).log.reached = (system.next input).log.presented ++
        (system.next input).pipe2.uopReg.present ↔
      Spaced system input := by
  have spaced : Spaced system input ↔
      (system.pipe2.busy = true → system.exUopIn.valid = false) ∧
        (system.pipe2.busy = false → system.pipe2.uopReg.valid = true →
          system.exUopIn.valid = true) := by
    unfold Spaced
    rw [running]
    exact or_iff_right Bool.false_ne_true
  rw [spaced, log_next running, uopReg_next running, holds.reached]
  cases busy : system.pipe2.busy with
  | true =>
      rw [Pipe2.uopOut_of_busy busy, MicroOp.present_zero]
      simp [MicroOp.present]
  | false =>
      rw [Pipe2.uopOut_of_free busy]
      cases arrives : system.exUopIn.valid with
      | true => simp
      | false => simp [MicroOp.present, arrives]

/-- A further cycle conserves the uops exactly when it is spaced. -/
theorem Conserved.next_iff (holds : Conserved system) :
    Conserved (system.next input) ↔ Spaced system input := by
  cases flush : input.flush with
  | true => exact iff_of_true (conserved_of_flush flush) (.inl flush)
  | false =>
      constructor
      · intro next
        exact (holds.reached_next_iff flush).mp next.reached
      · intro spaced
        exact ⟨holds.issued_next flush,
          (holds.reached_next_iff flush).mpr spaced⟩

theorem presented_next (running : input.flush = false) :
    system.log.presented <+: (system.next input).log.presented := by
  rw [log_next running]
  exact List.prefix_append _ _

end Steps

/-! ## Runs -/

section Runs

/-- A cycle that squashes nothing and is spaced. -/
def Flows (system : MulDivPipeline) (input : MulDivInput) : Prop :=
  input.flush = false ∧ Spaced system input

theorem Flows.idle {system : MulDivPipeline} {input : MulDivInput}
    (flows : Flows system input) (busy : system.pipe2.busy = true) :
    system.exUopIn.valid = false := by
  obtain ⟨running, flush | ⟨none, -⟩⟩ := flows
  · rw [running] at flush
    exact absurd flush Bool.false_ne_true
  · exact none busy

theorem presented_grows {system : MulDivPipeline}
    {future : Nat → MulDivInput} {first last : Nat} (ordered : first ≤ last)
    (flows : ∀ time, time < last →
      Flows (states next system future time) (future time)) :
    (states next system future first).log.presented <+:
      (states next system future last).log.presented := by
  induction last, ordered using Nat.le_induction with
  | base => exact List.prefix_rfl
  | succ last later induction =>
      apply (induction fun time below =>
        flows time (Nat.lt_succ_of_lt below)).trans
      exact presented_next (flows last (Nat.lt_succ_self last)).1

theorem Conserved.shown {system : MulDivPipeline} (holds : Conserved system)
    (future : Nat → MulDivInput) (left : Nat)
    (remaining : system.pipe2.left = left)
    (flows : ∀ time, time < left + 1 →
      Flows (states next system future time) (future time)) :
    system.log.reached <+:
      (states next system future (left + 1)).log.presented := by
  induction left generalizing system future with
  | zero =>
      have free : system.pipe2.busy = false := by
        refine Bool.eq_false_iff.mpr fun busy => ?_
        rw [Pipe2.busy_iff_left, remaining] at busy
        exact Nat.lt_irrefl 0 busy
      have first := flows 0 (Nat.zero_lt_succ 0)
      have shown : (system.next (future 0)).log.presented =
          system.log.reached := by
        rw [log_next first.1, Pipe2.uopOut_of_free free, holds.reached]
      change _ <+: (system.next (future 0)).log.presented
      exact shown ▸ List.prefix_refl _
  | succ left induction =>
      have busy : system.pipe2.busy = true := by
        rw [Pipe2.busy_iff_left, remaining]
        exact Nat.zero_lt_succ left
      have first := flows 0 (Nat.zero_lt_succ _)
      have silent : system.exUopIn.valid = false := Flows.idle first busy
      obtain ⟨reset, clear⟩ := Bool.or_eq_false_iff.mp first.1
      have fewer : (system.next (future 0)).pipe2.left = left := by
        have counted := Pipe2.left_cycle system.pipe2
          (system.pipeInput (future 0)) reset silent
        rw [remaining, Nat.add_sub_cancel] at counted
        exact counted
      have same : (system.next (future 0)).log.reached =
          system.log.reached := by
        rw [log_next first.1]
        simp [MicroOp.present, silent]
      have later := induction (holds.next_iff.mpr first.2)
        (fun time => future (time + 1)) fewer
        (fun time below => by
          have flow := flows (time + 1) (Nat.succ_lt_succ below)
          rwa [states_succ] at flow)
      rw [same] at later
      rw [states_succ]
      exact later

theorem Conserved.reached_two {system : MulDivPipeline}
    (holds : Conserved system) {first second : MulDivInput}
    (one : first.flush = false) (two : second.flush = false) :
    ((system.next first).next second).log.reached = system.log.issued := by
  rw [log_next two, log_next one, (stages_next one).2, holds.issued]
  exact List.append_assoc _ _ _

theorem Conserved.presented {system : MulDivPipeline}
    (holds : Conserved system) {future : Nat → MulDivInput}
    (flows : ∀ time, time < 35 →
      Flows (states next system future time) (future time)) :
    system.log.issued <+:
      (states next system future 35).log.presented := by
  have one := flows 0 (by decide)
  have two := flows 1 (by decide)
  have conserved : Conserved (states next system future 2) :=
    ((holds.next_iff.mpr one.2).next_iff).mpr two.2
  have reached : (states next system future 2).log.reached =
      system.log.issued := holds.reached_two one.1 two.1
  have bound := (states next system future 2).pipe2.left_le
  have apart : ∀ time, states next (states next system future 2)
      (fun later => future (later + 2)) time =
        states next system future (time + 2) := by
    intro time
    rw [states_succ next system future (time + 1),
      states_succ next _ _ time]
    rfl
  have shown := conserved.shown (fun later => future (later + 2)) _ rfl
    (fun time below => by
      rw [apart]
      exact flows (time + 2) (by omega))
  rw [reached, apart] at shown
  exact shown.trans (presented_grows (by omega) flows)

theorem conserved_of_run {system : MulDivPipeline}
    (run : Run Start next Spaced system) : Conserved system := by
  refine run.invariant Conserved ?_ ?_
  · intro system start
    constructor
    · rw [start.log, start.exUopIn, start.rfUopIn]
      rfl
    · rw [start.log, start.uopReg]
      rfl
  · intro system input holds spaced
    exact holds.next_iff.mpr spaced

/-- In a run whose cycles are spaced each uop issued is presented once, in
order, and within 35 cycles unless it is squashed; a further cycle conserves
the uops exactly when it is spaced too. -/
theorem issued_presented_once {system : MulDivPipeline}
    (run : Run Start next Spaced system) :
    Conserved system ∧
      (∀ future : Nat → MulDivInput,
        (∀ time, time < 35 →
          Flows (states next system future time) (future time)) →
        system.log.issued <+:
          (states next system future 35).log.presented) ∧
      ∀ input, Conserved (system.next input) ↔ Spaced system input := by
  have holds := conserved_of_run run
  exact ⟨holds, fun _ flows => holds.presented flows,
    fun _ => holds.next_iff⟩

/-! ## Multiplications -/

instance (system : MulDivPipeline) (input : MulDivInput) :
    Decidable (Spaced system input) :=
  inferInstanceAs (Decidable (_ ∨ (_ → _) ∧ (_ → _ → _)))

/-- A multiplication at `pc`. -/
def imulAt (pc : Word) : MicroOp :=
  { (0 : MicroOp) with valid := true, pc := pc, fuCode := .imul }

/-- A cycle in which dispatch offers the uop and all operands are ready. -/
def offers (uop : MicroOp) : MulDivInput :=
  { reset := false, clear := false, loadEn := true
    uopIn := fun lane => if lane.val = 0 then uop else 0
    busy := { rs1Busy := fun _ => false, rs2Busy := fun _ => false }
    rs1Data := 0, rs2Data := 0 }

/-- An empty pipeline. -/
def emptyPipeline : MulDivPipeline :=
  { iqInt := .resetState, rfUopIn := 0, exUopIn := 0, exRs1DataIn := 0
    exRs2DataIn := 0, pipe2 := Pipe2.freePipe, log := emptyLog }

theorem emptyPipeline_start : Start emptyPipeline :=
  ⟨rfl, rfl, rfl, rfl, rfl, rfl⟩

/-- The pipeline to which multiplications are offered in the given cycles. -/
def offered (arrives : Nat → Bool) : Nat → MulDivPipeline :=
  states next emptyPipeline fun time =>
    offers (if arrives time then imulAt (BitVec.ofNat 32 time) else 0)

theorem offered_run {allowed : MulDivPipeline → MulDivInput → Prop}
    (arrives : Nat → Bool) (cycles : Nat)
    (permitted : ∀ time, time < cycles → allowed (offered arrives time)
      (offers (if arrives time then imulAt (BitVec.ofNat 32 time) else 0))) :
    Run Start next allowed (offered arrives cycles) := by
  induction cycles with
  | zero => exact .start emptyPipeline_start
  | succ cycles induction =>
      apply Run.step
      · exact induction fun time below =>
          permitted time (Nat.lt_succ_of_lt below)
      · exact permitted cycles (Nat.lt_succ_self cycles)

/-- Two multiplications at the distance of the latency. -/
theorem issued_presented_once_five_apart :
    Conserved (offered (fun time => time % 5 == 0) 9) := by
  have spaced : ∀ time, time < 9 →
      Spaced (offered (fun time => time % 5 == 0) time)
        (offers (if time % 5 == 0 then imulAt (BitVec.ofNat 32 time)
          else 0)) := by
    decide +kernel
  exact (issued_presented_once (offered_run _ 9 spaced)).1

/-- A single multiplication is shown in every cycle after its result; of two
in a row the second is lost. -/
theorem multiplication_is_presented_again :
    (∃ system, Run Start next (fun _ _ => True) system ∧
      system.log.issued.map MicroOp.pc = [0] ∧
      system.log.presented.map MicroOp.pc = [0, 0] ∧ ¬ Conserved system) ∧
    ∃ system, Run Start next (fun _ _ => True) system ∧
      system.log.issued.map MicroOp.pc = [0, 1] ∧
      system.log.reached.map MicroOp.pc = [0, 1] ∧
      system.pipe2.uopReg.pc = 0 ∧ ¬ Conserved system := by
  constructor
  · have issued : (offered (fun time => time == 0) 10).log.issued.map
        MicroOp.pc = [0] := by decide +kernel
    have presented : (offered (fun time => time == 0) 10).log.presented.map
        MicroOp.pc = [0, 0] := by decide +kernel
    refine ⟨_, offered_run _ 10 fun _ _ => trivial, issued, presented, ?_⟩
    generalize offered (fun time => time == 0) 10 = system at *
    intro conserved
    have one := congrArg List.length issued
    have two := congrArg List.length presented
    rw [List.length_map] at one two
    have counted := congrArg List.length conserved.issued
    rw [conserved.reached, List.length_append, List.length_append, one, two]
      at counted
    exact absurd counted (by simp only [List.length_cons]; omega)
  · have issued : (offered (fun time => decide (time < 2)) 5).log.issued.map
        MicroOp.pc = [0, 1] := by decide +kernel
    have reached : (offered (fun time => decide (time < 2)) 5).log.reached.map
        MicroOp.pc = [0, 1] := by decide +kernel
    have presented : (offered (fun time => decide (time < 2))
        5).log.presented = [] := by
      apply List.eq_nil_of_length_eq_zero
      decide +kernel
    have held : (offered (fun time => decide (time < 2))
        5).pipe2.uopReg.pc = 0 := by decide +kernel
    refine ⟨_, offered_run _ 5 fun _ _ => trivial, issued, reached, held, ?_⟩
    generalize offered (fun time => decide (time < 2)) 5 = system at *
    intro conserved
    have two := congrArg List.length reached
    rw [List.length_map, conserved.reached, presented, List.nil_append,
      MicroOp.length_present] at two
    revert two
    split
    · decide
    · decide

end Runs

end MulDivPipeline

end Ria
