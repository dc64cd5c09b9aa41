import Ria.Backend.MemQueueList
import Ria.Library.ReorderQueue

/-!
# Memory order

`MemSystem` runs dispatch, the DP~IS registers and the memory issue queue
beside the memory uops dispatched since the last clear.  The queue loads them
in program order, and a store keeps its place among them until it is issued.
-/

namespace Ria

open Hdl IssueQueueMem DpIs

/-- What dispatch and the memory queue see in a cycle. -/
structure MemInput where
  reset : Bool
  clear : Bool
  dpUopsIn : Fin 4 → MicroOp
  iqIntFull : Bool
  busy : BusyPorts 16

/-- The memory uops since the last reset or clear, in program order; `queue`
numbers those that the issue queue has loaded, and `issued` are the uops put
out for them. -/
structure MemLog where
  dispatched : List MicroOp
  queue : ReorderQueue
  issued : List MicroOp

namespace MemLog

/-- The uop with a number. -/
def uop (log : MemLog) (number : Nat) : MicroOp :=
  log.dispatched.getD number 0

/-- Two memory uops may be exchanged if both are loads. -/
def mayPass (log : MemLog) (older younger : Nat) : Prop :=
  (log.uop older).memType ≠ .st ∧ (log.uop younger).memType ≠ .st

/-- The uops that the queue has loaded and not issued. -/
def waiting (log : MemLog) : List MicroOp :=
  log.queue.waiting.map log.uop

end MemLog

structure MemSystem where
  dpIs : DpIs
  iqFullReg : Bool
  iqMem : IssueQueueMem
  log : MemLog

namespace MemSystem

def emptyLog : MemLog :=
  { dispatched := [], queue := .empty, issued := [] }

def iqFull (system : MemSystem) (input : MemInput) : Bool :=
  system.iqMem.iqMemFull input.busy system.dpIs.out.2 || input.iqIntFull

def nextLog (system : MemSystem) (input : MemInput) : MemLog :=
  if input.reset || input.clear then emptyLog
  else
    { dispatched := system.log.dispatched ++ dispatched .mem input.dpUopsIn
      queue :=
        (system.log.queue.issue
          ((system.iqMem.outputSel input.busy).map Fin.val)).arrive
          (validUops system.dpIs.out.2).length
      issued := system.log.issued ++
        if (system.iqMem.outputSel input.busy).isSome then
          [system.iqMem.uopOut input.busy]
        else [] }

def next (system : MemSystem) (input : MemInput) : MemSystem :=
  { dpIs := system.dpIs.next input.reset input.clear (system.iqFull input)
      input.dpUopsIn
    iqFullReg := if input.reset then false else system.iqFull input
    iqMem := system.iqMem.next input.busy system.dpIs.out.2 input.reset
      input.clear (!system.iqFullReg)
    log := system.nextLog input }

def start (system : MemSystem) : Prop :=
  system =
    { dpIs := .resetState, iqFullReg := false
      iqMem := IssueQueueMem.resetState, log := emptyLog }

/-- No group arrives in the cycle after a full stall. -/
def Allowed (system : MemSystem) (input : MemInput) : Prop :=
  system.dpIs.stallPrev = true → validUops input.dpUopsIn = []

/-- The state agrees with the program order. -/
structure MemoryOrdered (system : MemSystem) : Prop where
  /-- The slots below the tail hold the waiting uops in program order, and the
  others are empty. -/
  slots : ∀ k : Fin 16, (system.iqMem.slots k).uop =
    system.log.waiting.getD k.val 0
  tail : system.iqMem.tailReg.toNat = system.log.waiting.length
  full : system.iqMem.tailReg.toNat + system.iqMem.freeCountReg.toNat = 16
  /-- What is dispatched and not yet loaded is in the DP~IS registers. -/
  loaded : system.log.queue.arrived ≤ system.log.dispatched.length
  coming : system.log.dispatched.drop system.log.queue.arrived =
    system.dpIs.held memUops
  /-- Every uop loaded waits or is issued, once; a store is not exchanged with
  any other uop. -/
  order : system.log.queue.Ordered system.log.mayPass
  issued : system.log.issued = system.log.queue.issued.map system.log.uop

end MemSystem

/-! ## Numbered uops -/

namespace MemLog

variable {log log' : MemLog} {more : List MicroOp}

theorem uop_of_arrived (grown : log'.dispatched = log.dispatched ++ more)
    (loaded : log.queue.arrived ≤ log.dispatched.length) {number : Nat}
    (arrived : number < log.queue.arrived) :
    log'.uop number = log.uop number := by
  rw [uop, uop, grown, List.getD_append _ _ _ _ (by omega)]

theorem mayPass_iff (grown : log'.dispatched = log.dispatched ++ more)
    (loaded : log.queue.arrived ≤ log.dispatched.length)
    {older younger : Nat} (lower : older < younger)
    (arrived : younger < log.queue.arrived) :
    log.mayPass older younger ↔ log'.mayPass older younger := by
  rw [mayPass, mayPass, uop_of_arrived grown loaded arrived,
    uop_of_arrived grown loaded (lower.trans arrived)]

theorem map_uop_range' (count : Nat)
    (enough : log.queue.arrived + count ≤ log.dispatched.length) :
    (List.range' log.queue.arrived count).map log.uop =
      (log.dispatched.drop log.queue.arrived).take count := by
  apply List.ext_getElem
  · simp
    omega
  · intro i low high
    have inside : i < count := by simpa using low
    rw [List.getElem_map, List.getElem_range', List.getElem_take,
      List.getElem_drop, uop, List.getD_eq_getElem _ _ (by omega)]
    simp

end MemLog

namespace MemSystem

/-- What a cycle relies on. -/
structure Invariant (system : MemSystem) : Prop where
  ordered : MemoryOrdered system
  fed : MemFed system.dpIs system.iqFullReg system.iqMem system.log.waiting
  settled : system.dpIs.Settled memUops

section Cycle

variable {system : MemSystem} {input : MemInput}

theorem Invariant.number_lt (holds : Invariant system) {number : Nat}
    (member : number ∈ system.log.queue.waiting) :
    number < system.log.queue.arrived :=
  holds.ordered.order.arrived_of_waiting member

theorem waiting_getD {position : Nat}
    (inside : position < system.log.waiting.length) :
    system.log.waiting.getD position 0 =
      system.log.uop (system.log.queue.waiting.getD position 0) := by
  have inQueue : position < system.log.queue.waiting.length := by
    simpa [MemLog.waiting] using inside
  rw [List.getD_eq_getElem _ _ inside, List.getD_eq_getElem _ _ inQueue]
  exact List.getElem_map _

theorem Invariant.sel_lt (holds : Invariant system) {sel : Fin 16}
    (chosen : system.iqMem.outputSel input.busy = some sel) :
    sel.val < system.log.queue.waiting.length := by
  simpa [MemLog.waiting] using holds.fed.holds.sel_lt chosen

section Unflushed

variable (reset : input.reset = false) (clear : input.clear = false)

include reset clear

theorem nextLog_eq (system : MemSystem) :
    (system.next input).log =
      { dispatched := system.log.dispatched ++ dispatched .mem input.dpUopsIn
        queue :=
          (system.log.queue.issue
            ((system.iqMem.outputSel input.busy).map Fin.val)).arrive
            (memUops system.dpIs.out).length
        issued := system.log.issued ++
          if (system.iqMem.outputSel input.busy).isSome then
            [system.iqMem.uopOut input.busy]
          else [] } := by
  change system.nextLog input = _
  rw [nextLog, reset, clear]
  rfl

theorem dispatched_next (system : MemSystem) :
    (system.next input).log.dispatched =
      system.log.dispatched ++ dispatched .mem input.dpUopsIn := by
  rw [nextLog_eq reset clear]

theorem queue_next (system : MemSystem) :
    (system.next input).log.queue =
      (system.log.queue.issue
        ((system.iqMem.outputSel input.busy).map Fin.val)).arrive
        (memUops system.dpIs.out).length := by
  rw [nextLog_eq reset clear]

theorem Invariant.grown (holds : Invariant system) {number : Nat}
    (arrived : number < system.log.queue.arrived) :
    (system.next input).log.uop number = system.log.uop number := by
  have grown := dispatched_next reset clear system
  exact MemLog.uop_of_arrived grown holds.ordered.loaded arrived

theorem Invariant.waiting_next (holds : Invariant system) :
    (system.next input).log.waiting =
      removed system.log.waiting (system.iqMem.outputSel input.busy) ++
        memUops system.dpIs.out := by
  have queue := queue_next reset clear system
  have old : ∀ numbers : List Nat,
      (∀ number ∈ numbers, number ∈ system.log.queue.waiting) →
      numbers.map (system.next input).log.uop =
        numbers.map system.log.uop := by
    intro numbers members
    refine List.map_congr_left ?_
    intro number member
    exact holds.grown reset clear (holds.number_lt (members number member))
  have coming := holds.ordered.coming
  have length := congrArg List.length coming
  rw [List.length_drop, SkidBuffer.held, List.length_append] at length
  have new : (List.range' system.log.queue.arrived
      (memUops system.dpIs.out).length).map (system.next input).log.uop =
        memUops system.dpIs.out := by
    have loaded := holds.ordered.loaded
    have same : (List.range' system.log.queue.arrived
        (memUops system.dpIs.out).length).map (system.next input).log.uop =
          (List.range' system.log.queue.arrived
            (memUops system.dpIs.out).length).map system.log.uop := by
      refine List.map_congr_left ?_
      intro number member
      obtain ⟨-, below⟩ := List.mem_range'_1.mp member
      rw [MemLog.uop, MemLog.uop, dispatched_next reset clear,
        List.getD_append _ _ _ _ (by omega)]
    rw [same, MemLog.map_uop_range' _ (by omega), coming, SkidBuffer.held,
      List.take_left']
    rfl
  rw [MemLog.waiting, queue]
  cases chosen : system.iqMem.outputSel input.busy with
  | none =>
      rw [Option.map_none, ReorderQueue.arrive, ReorderQueue.issue,
        List.map_append, new, old _ (fun _ member => member)]
      rfl
  | some sel =>
      rw [Option.map_some, ReorderQueue.arrive, ReorderQueue.issue,
        List.map_append, new,
        old _ (fun _ member => List.mem_of_mem_eraseIdx member)]
      simp only [removed, MemLog.waiting, List.eraseIdx_map]

theorem Invariant.slot_uop (holds : Invariant system) {i : Fin 16}
    (inside : i.val < system.log.queue.waiting.length) :
    (system.iqMem.slots i).uop =
      (system.next input).log.uop
        (system.log.queue.waiting.getD i.val 0) := by
  have member : system.log.queue.waiting.getD i.val 0 ∈
      system.log.queue.waiting := by
    rw [List.getD_eq_getElem _ _ inside]
    exact List.getElem_mem inside
  rw [holds.grown reset clear (holds.number_lt member), holds.fed.holds.slots]
  exact waiting_getD (by simpa [MemLog.waiting] using inside)

/-- The selected uop may pass those before it. -/
theorem Invariant.passes (holds : Invariant system) {sel : Fin 16}
    (chosen : system.iqMem.outputSel input.busy = some sel) :
    ∀ earlier < sel.val,
      (system.next input).log.mayPass
        (system.log.queue.waiting.getD earlier 0)
        (system.log.queue.waiting.getD sel.val 0) := by
  intro earlier before
  have inside := holds.sel_lt chosen
  have slotBound := sel.isLt
  obtain ⟨-, rfl | noStore⟩ := outputSel_facts chosen
  · exact absurd before (Nat.not_lt_zero _)
  · have first := noStore ⟨earlier, by omega⟩ (Nat.le_of_lt before)
    have second := noStore sel (le_refl sel)
    rw [holds.slot_uop reset clear (by simp only; omega)] at first
    rw [holds.slot_uop reset clear inside] at second
    exact ⟨first, second⟩

theorem Invariant.order_next (holds : Invariant system) :
    (system.next input).log.queue.Ordered
      (system.next input).log.mayPass := by
  have grown := dispatched_next reset clear system
  have same : system.log.queue.Ordered (system.next input).log.mayPass := by
    refine holds.ordered.order.congr ?_
    intro older younger lower arrived
    exact MemLog.mayPass_iff grown holds.ordered.loaded lower arrived
  rw [queue_next reset clear]
  cases chosen : system.iqMem.outputSel input.busy with
  | none => exact same.arrive _
  | some sel =>
      have passes := holds.passes reset clear chosen
      exact (same.issue (holds.sel_lt chosen) passes).arrive _

theorem Invariant.issued_next (holds : Invariant system) :
    (system.next input).log.issued =
      (system.next input).log.queue.issued.map
        (system.next input).log.uop := by
  have old : system.log.queue.issued.map (system.next input).log.uop =
      system.log.issued := by
    rw [holds.ordered.issued]
    refine List.map_congr_left ?_
    intro number member
    exact holds.grown reset clear
      (holds.ordered.order.arrived_of_issued member)
  have issued : (system.next input).log.issued = system.log.issued ++
      if (system.iqMem.outputSel input.busy).isSome then
        [system.iqMem.uopOut input.busy]
      else [] := by
    rw [nextLog_eq reset clear]
  rw [issued, queue_next reset clear]
  cases chosen : system.iqMem.outputSel input.busy with
  | none =>
      change system.log.issued ++ [] = system.log.queue.issued.map _
      rw [old, List.append_nil]
  | some sel =>
      have inside := holds.sel_lt chosen
      have output : system.iqMem.uopOut input.busy =
          (system.next input).log.uop
            (system.log.queue.waiting.getD sel.val 0) := by
        rw [← holds.slot_uop reset clear inside, holds.fed.holds.uopOut_eq,
          chosen, holds.fed.holds.slots]
      change system.log.issued ++ [system.iqMem.uopOut input.busy] =
        (system.log.queue.issued ++ [_]).map _
      rw [List.map_append, old, output]
      rfl

theorem next_dpIs (system : MemSystem) :
    (system.next input).dpIs =
      system.dpIs.next false false (system.iqFull input) input.dpUopsIn := by
  change DpIs.next system.dpIs input.reset input.clear _ _ = _
  rw [reset, clear]

theorem Invariant.fed_next (holds : Invariant system) :
    MemFed (system.next input).dpIs (system.next input).iqFullReg
      (system.next input).iqMem (system.next input).log.waiting := by
  have full : (system.next input).iqFullReg = system.iqFull input := by
    change (if input.reset then false else system.iqFull input) = _
    rw [reset]
    rfl
  have iqMem : (system.next input).iqMem =
      system.iqMem.next input.busy system.dpIs.out.2 false false
        (!system.iqFullReg) := by
    change system.iqMem.next input.busy system.dpIs.out.2 input.reset
      input.clear (!system.iqFullReg) = _
    rw [reset, clear]
  rw [holds.waiting_next reset clear, full, iqMem, next_dpIs reset clear]
  exact holds.fed.next input.busy input.iqIntFull input.dpUopsIn rfl

theorem Invariant.coming_next (holds : Invariant system)
    (allowed : Allowed system input) :
    (system.next input).log.queue.arrived ≤
        (system.next input).log.dispatched.length ∧
      (system.next input).log.dispatched.drop
          (system.next input).log.queue.arrived =
        (system.next input).dpIs.held memUops := by
  have coming := holds.ordered.coming
  have loaded := holds.ordered.loaded
  have length := congrArg List.length coming
  rw [List.length_drop, SkidBuffer.held, List.length_append] at length
  have arrived : (system.next input).log.queue.arrived =
      system.log.queue.arrived + (memUops system.dpIs.out).length := by
    rw [queue_next reset clear]
    cases (system.iqMem.outputSel input.busy) <;> rfl
  have entering :
      memUops (uopToInt input.dpUopsIn, uopToMem input.dpUopsIn) =
        dispatched .mem input.dpUopsIn :=
    validUops_dispatchTo .mem input.dpUopsIn
  have held : (system.next input).dpIs.held memUops =
      memUops system.dpIs.tmp ++ dispatched .mem input.dpUopsIn := by
    rw [next_dpIs reset clear, ← entering]
    refine holds.settled.held_next memUops_empty ?_
    intro stalled
    rw [entering, dispatched, allowed stalled]
    rfl
  rw [arrived, dispatched_next reset clear, held, List.length_append]
  refine ⟨by omega, ?_⟩
  rw [← List.drop_drop, List.drop_append_of_le_length loaded, coming,
    SkidBuffer.held, List.append_assoc, List.drop_left]

end Unflushed

theorem next_of_flush (system : MemSystem)
    (flush : (input.reset || input.clear) = true) :
    (system.next input).log = emptyLog ∧
      (system.next input).iqMem = IssueQueueMem.resetState ∧
        (system.next input).dpIs = DpIs.resetState :=
  ⟨if_pos flush, IssueQueueMem.next_of_flush _ _ _ _ flush, if_pos flush⟩

theorem memoryOrdered_reset (iqFullReg : Bool) :
    MemoryOrdered
      { dpIs := DpIs.resetState, iqFullReg := iqFullReg
        iqMem := IssueQueueMem.resetState, log := emptyLog } := by
  have nothing : DpIs.resetState.held memUops = [] :=
    SkidBuffer.held_resetState memUops_empty
  exact ⟨fun _ => rfl, rfl, rfl, Nat.le_refl 0, nothing.symm,
    ReorderQueue.ordered_empty, rfl⟩

theorem invariant_reset (iqFullReg : Bool) :
    Invariant
      { dpIs := DpIs.resetState, iqFullReg := iqFullReg
        iqMem := IssueQueueMem.resetState, log := emptyLog } := by
  exact ⟨memoryOrdered_reset iqFullReg, MemFed.reset iqFullReg,
    SkidBuffer.settled_resetState memUops_empty⟩

theorem Invariant.next (holds : Invariant system)
    (allowed : Allowed system input) : Invariant (system.next input) := by
  by_cases flush : (input.reset || input.clear) = true
  · obtain ⟨log, iqMem, dpIs⟩ := next_of_flush system flush
    have whole : system.next input =
        { dpIs := DpIs.resetState
          iqFullReg := (system.next input).iqFullReg
          iqMem := IssueQueueMem.resetState, log := emptyLog } := by
      rw [← log, ← iqMem, ← dpIs]
    rw [whole]
    exact invariant_reset _
  · obtain ⟨reset, clear⟩ : input.reset = false ∧ input.clear = false := by
      simpa using flush
    have fedNext := holds.fed_next reset clear
    obtain ⟨loaded, coming⟩ := holds.coming_next reset clear allowed
    refine ⟨⟨fedNext.holds.slots, fedNext.holds.tail, ?_, loaded, coming,
      holds.order_next reset clear, holds.issued_next reset clear⟩,
      fedNext, ?_⟩
    · have free := fedNext.holds.free
      have tail := fedNext.holds.tail
      omega
    · rw [next_dpIs reset clear]
      exact holds.settled.next memUops_empty false

end Cycle

/-! ## Runs -/

/-- In every run the memory issue queue keeps memory order. -/
theorem issue_queue_mem_keeps_order {system : MemSystem}
    (run : Run start next Allowed system) : MemoryOrdered system := by
  have holds := run.invariant Invariant
    (by rintro _ rfl; exact invariant_reset false)
    (fun _ _ holds allowed => holds.next allowed)
  exact holds.ordered

/-- A cycle that dispatches a store and, after a gap, a load; no register is
busy. -/
def storeThenLoad : MemInput :=
  { reset := false, clear := false, iqIntFull := false
    dpUopsIn := fun i =>
      if i = 0 then
        { (0 : MicroOp) with valid := true, iqCode := .mem, memType := .st }
      else if i = 2 then
        { (0 : MicroOp) with valid := true, iqCode := .mem }
      else 0
    busy := { rs1Busy := fun _ => false, rs2Busy := fun _ => false } }

/-- After `cycles` such cycles. -/
def fed : Nat → MemSystem
  | 0 =>
      { dpIs := .resetState, iqFullReg := false
        iqMem := IssueQueueMem.resetState, log := emptyLog }
  | cycles + 1 => (fed cycles).next storeThenLoad

/-- Both uops of the first group have been issued in the fourth cycle. -/
theorem issue_queue_mem_keeps_order_fed :
    (fed 5).log.queue.issued = [0, 1] ∧ MemoryOrdered (fed 5) := by
  have allowed : ∀ cycles ≤ 4, Allowed (fed cycles) storeThenLoad := by
    intro cycles few stalled
    have never : ∀ cycles ≤ 4, (fed cycles).dpIs.stallPrev = false := by
      decide
    rw [never cycles few] at stalled
    cases stalled
  refine ⟨by decide, issue_queue_mem_keeps_order ?_⟩
  exact .step _ (.step _ (.step _ (.step _ (.step _ (.start rfl)
    (allowed 0 (by omega))) (allowed 1 (by omega))) (allowed 2 (by omega)))
    (allowed 3 (by omega))) (allowed 4 (by omega))

end MemSystem

end Ria
