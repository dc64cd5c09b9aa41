import Ria.Backend.QueueMoves

/-!
# From dispatch to issue

`dispatch`, the DP~IS registers and both issue queues, beside the uops of each
class since the last clear.  Every uop dispatched is in the registers, has
come to its queue and is in a slot, or has been issued, and the counters of
the queues are the numbers of their free slots.
-/

namespace Ria

open Hdl

structure QueueInput where
  reset : Bool
  clear : Bool
  dpUopsIn : Fin 4 → MicroOp
  intBusy : BusyPorts 32
  memBusy : BusyPorts 16

/-- The uops of one class since the last reset or clear: dispatched, arrived
at `uop_in` of their queue, and put out by it. -/
structure QueueLog where
  dispatched : Multiset MicroOp
  arrived : Multiset MicroOp
  issued : Multiset MicroOp

namespace QueueLog

def empty : QueueLog :=
  { dispatched := 0, arrived := 0, issued := 0 }

def next (log : QueueLog) (flush : Bool)
    (dispatched arrived issued : Multiset MicroOp) : QueueLog :=
  if flush then empty
  else
    { dispatched := log.dispatched + dispatched
      arrived := log.arrived + arrived
      issued := log.issued + issued }

end QueueLog

structure QueueSystem where
  dpIs : DpIs
  iqFullReg : Bool
  iqInt : IssueQueueInt
  iqMem : IssueQueueMem
  intLog : QueueLog
  memLog : QueueLog

/-- The uops of a class: each is in the registers before the queue, in one of
its slots or issued. -/
structure Accounted {size : Nat} (log : QueueLog)
    (held : Multiset MicroOp) (slots : Fin size → MicroOp)
    (freeCountReg : Nat) : Prop where
  dispatched : log.dispatched = log.arrived + held
  arrived : log.arrived = log.issued + uopsOf slots
  free : freeCountReg = freeSlots slots

theorem accounted_empty {size freeCountReg : Nat}
    {slots : Fin size → MicroOp} (nothing : ∀ slot, slots slot = 0)
    (all : freeCountReg = size) :
    Accounted QueueLog.empty 0 slots freeCountReg := by
  have none : uopsOf slots = 0 := by
    rw [funext nothing]
    exact uopsOf_noUops
  have count := freeSlots_add slots
  rw [none, Multiset.card_zero] at count
  refine ⟨rfl, ?_, by omega⟩
  rw [none]
  rfl

/-- A cycle moves what the registers put out into the queue. -/
theorem Accounted.next {size freeCountReg freeCountNext : Nat}
    {log : QueueLog} {out tmp held heldNext entering issued :
      Multiset MicroOp}
    {slots slotsNext : Fin size → MicroOp}
    (accounted : Accounted log held slots freeCountReg)
    (before : held = out + tmp) (after : heldNext = tmp + entering)
    (balance : uopsOf slots + out = uopsOf slotsNext + issued)
    (free : freeCountNext = freeSlots slotsNext) :
    Accounted (log.next false entering out issued) heldNext slotsNext
      freeCountNext := by
  refine ⟨?_, ?_, free⟩
  · change log.dispatched + entering = log.arrived + out + heldNext
    rw [accounted.dispatched, before, after]
    ac_rfl
  · change log.arrived + out = log.issued + issued + uopsOf slotsNext
    rw [accounted.arrived, Multiset.add_assoc, balance]
    ac_rfl

/-- The integer uops of a value of the DP~IS registers. -/
def DpIs.intUops (bundles : (Fin 4 → MicroOp) × (Fin 4 → MicroOp)) :
    List MicroOp :=
  validUops bundles.1

theorem DpIs.intUops_empty : DpIs.intUops DpIs.empty = [] :=
  validUops_noUops

namespace QueueSystem

open DpIs

section Cycle

variable (system : QueueSystem) (input : QueueInput)

def iqFull : Bool :=
  system.iqMem.iqMemFull input.memBusy system.dpIs.out.2 ||
    system.iqInt.iqIntFull system.dpIs.out.1 input.intBusy

def next : QueueSystem :=
  { dpIs := system.dpIs.next input.reset input.clear (system.iqFull input)
      input.dpUopsIn
    iqFullReg := if input.reset then false else system.iqFull input
    iqInt := system.iqInt.next system.dpIs.out.1 (!system.iqFullReg)
      input.intBusy input.reset input.clear
    iqMem := system.iqMem.next input.memBusy system.dpIs.out.2 input.reset
      input.clear (!system.iqFullReg)
    intLog := system.intLog.next (input.reset || input.clear)
      (dispatched .int input.dpUopsIn) (intUops system.dpIs.out)
      (uopsOf (system.iqInt.uopOut input.intBusy))
    memLog := system.memLog.next (input.reset || input.clear)
      (dispatched .mem input.dpUopsIn) (memUops system.dpIs.out)
      (uopsOf fun _ : Fin 1 => system.iqMem.uopOut input.memBusy) }

/-- In a cycle every uop that comes to a queue gets a slot of its own, and
every uop in a slot keeps one or is put out; after a cycle that does not
stall, nothing dispatched stays behind. -/
structure CycleOk : Prop where
  int : ∃ move, Moves (fun slot slot' => slot' = slot) system.iqInt.slots
    system.dpIs.out.1 (system.next input).iqInt.slots
    (system.iqInt.uopOut input.intBusy) move
  mem : ∃ move,
    Moves (fun slot slot' => slot' = slot ∨ slot'.val + 1 = slot.val)
      (fun slot => (system.iqMem.slots slot).uop) system.dpIs.out.2
      (fun slot => ((system.next input).iqMem.slots slot).uop)
      (fun _ : Fin 1 => system.iqMem.uopOut input.memBusy) move
  prompt : system.iqFull input = false →
    ∀ later : QueueInput, (later.reset || later.clear) = false →
      ((system.next input).next later).intLog.arrived =
          (system.next input).intLog.dispatched ∧
        ((system.next input).next later).memLog.arrived =
          (system.next input).memLog.dispatched

end Cycle

def start (system : QueueSystem) : Prop :=
  system =
    { dpIs := .resetState, iqFullReg := false
      iqInt := IssueQueueInt.resetState, iqMem := IssueQueueMem.resetState
      intLog := .empty, memLog := .empty }

/-- No group arrives in the cycle after a full stall. -/
def Allowed (system : QueueSystem) (input : QueueInput) : Prop :=
  system.dpIs.stallPrev = true → validUops input.dpUopsIn = []

/-- What a cycle relies on. -/
structure Invariant (system : QueueSystem) : Prop where
  int : Accounted system.intLog (system.dpIs.held intUops)
    system.iqInt.slots system.iqInt.freeCountReg.toNat
  mem : Accounted system.memLog (system.dpIs.held memUops)
    (fun slot => (system.iqMem.slots slot).uop)
    system.iqMem.freeCountReg.toNat
  fed : ∃ uops,
    MemFed system.dpIs system.iqFullReg system.iqMem uops
  opened : system.iqFullReg = false → 4 ≤ system.iqInt.freeCountReg.toNat
  silent : system.iqFullReg = true → intUops system.dpIs.out = []
  intSettled : system.dpIs.Settled intUops
  memSettled : system.dpIs.Settled memUops

/-! ## A cycle -/

section Steps

variable {system : QueueSystem} {input : QueueInput}

theorem invariant_empty {system : QueueSystem}
    (dpIs : system.dpIs = DpIs.resetState)
    (iqInt : system.iqInt = IssueQueueInt.resetState)
    (iqMem : system.iqMem = IssueQueueMem.resetState)
    (intLog : system.intLog = .empty) (memLog : system.memLog = .empty) :
    Invariant system := by
  have fed := MemFed.reset system.iqFullReg
  have int : (DpIs.resetState.held intUops : Multiset MicroOp) = 0 := by
    rw [DpIs.resetState, SkidBuffer.held_resetState intUops_empty]
    rfl
  have mem : (DpIs.resetState.held memUops : Multiset MicroOp) = 0 := by
    rw [DpIs.resetState, SkidBuffer.held_resetState memUops_empty]
    rfl
  refine ⟨?_, ?_, ?_, ?_, ?_, ?_, ?_⟩
  · rw [dpIs, iqInt, intLog, int]
    exact accounted_empty (fun _ => rfl) rfl
  · rw [dpIs, iqMem, memLog, mem]
    exact accounted_empty (fun _ => rfl) rfl
  · rw [dpIs, iqMem]
    exact ⟨[], fed⟩
  · intro _
    rw [iqInt]
    change 4 ≤ (32 : BitVec 6).toNat
    decide
  · intro _
    rw [dpIs]
    exact intUops_empty
  · rw [dpIs]
    exact SkidBuffer.settled_resetState intUops_empty
  · rw [dpIs]
    exact SkidBuffer.settled_resetState memUops_empty

theorem invariant_of_flush (system : QueueSystem)
    (flush : (input.reset || input.clear) = true) :
    Invariant (system.next input) := by
  exact invariant_empty (if_pos flush)
    (IssueQueueInt.next_of_flush _ _ _ _ flush)
    (IssueQueueMem.next_of_flush _ _ _ _ flush) (if_pos flush) (if_pos flush)

section Unflushed

variable (flush : (input.reset || input.clear) = false)

include flush

theorem next_dpIs (system : QueueSystem) :
    (system.next input).dpIs =
      system.dpIs.next false false (system.iqFull input) input.dpUopsIn := by
  obtain ⟨reset, clear⟩ := Bool.or_eq_false_iff.mp flush
  change DpIs.next system.dpIs input.reset input.clear _ _ = _
  rw [reset, clear]

theorem next_iqInt (system : QueueSystem) :
    (system.next input).iqInt =
      system.iqInt.next system.dpIs.out.1 (!system.iqFullReg) input.intBusy
        false false := by
  obtain ⟨reset, clear⟩ := Bool.or_eq_false_iff.mp flush
  change IssueQueueInt.next _ _ _ _ input.reset input.clear = _
  rw [reset, clear]

theorem next_iqMem (system : QueueSystem) :
    (system.next input).iqMem =
      system.iqMem.next input.memBusy system.dpIs.out.2 false false
        (!system.iqFullReg) := by
  obtain ⟨reset, clear⟩ := Bool.or_eq_false_iff.mp flush
  change IssueQueueMem.next _ _ _ input.reset input.clear _ = _
  rw [reset, clear]

theorem next_iqFullReg (system : QueueSystem) :
    (system.next input).iqFullReg = system.iqFull input := by
  change (if input.reset then false else _) = _
  rw [(Bool.or_eq_false_iff.mp flush).1]
  rfl

theorem Invariant.int_moves (holds : Invariant system) :
    Moves (fun slot slot' => slot' = slot) system.iqInt.slots
      system.dpIs.out.1 (system.next input).iqInt.slots
      (system.iqInt.uopOut input.intBusy)
      (system.iqInt.move input.intBusy) := by
  rw [next_iqInt flush]
  refine IssueQueueInt.moves ?_
  intro lane valid
  cases full : system.iqFullReg with
  | true =>
      have nothing := validUops_eq_nil.mp (holds.silent full) lane
      exact absurd (nothing.symm.trans valid) Bool.false_ne_true
  | false =>
      rw [← holds.int.free]
      exact ⟨rfl, holds.opened full⟩

theorem Invariant.mem_moves (holds : Invariant system) :
    Moves (fun slot slot' => slot' = slot ∨ slot'.val + 1 = slot.val)
      (fun slot => (system.iqMem.slots slot).uop) system.dpIs.out.2
      (fun slot => ((system.next input).iqMem.slots slot).uop)
      (fun _ : Fin 1 => system.iqMem.uopOut input.memBusy)
      (system.iqMem.move input.memBusy) := by
  obtain ⟨uops, fed⟩ := holds.fed
  rw [next_iqMem flush, fed.outPacked]
  refine fed.holds.moves ?_ (length_validUops_le _) fed.room ?_
  · intro uop member
    exact (mem_validUops.mp member).choose_spec.2
  · intro disabled
    exact fed.silent (by simpa using disabled)

theorem held_next (contents :
      (Fin 4 → MicroOp) × (Fin 4 → MicroOp) → List MicroOp)
    (nothing : contents DpIs.empty = [])
    (settled : system.dpIs.Settled contents)
    (quiet : validUops input.dpUopsIn = [] →
      contents (uopToInt input.dpUopsIn, uopToMem input.dpUopsIn) = [])
    (allowed : Allowed system input) :
    (system.next input).dpIs.held contents =
      contents system.dpIs.tmp ++
        contents (uopToInt input.dpUopsIn, uopToMem input.dpUopsIn) := by
  rw [next_dpIs flush]
  exact settled.held_next nothing fun stalled => quiet (allowed stalled)

end Unflushed

theorem dispatched_of_silent (code : IqCode)
    (nothing : validUops input.dpUopsIn = []) :
    dispatched code input.dpUopsIn = [] := by
  rw [dispatched, nothing]
  rfl

theorem intUops_dispatch (group : Fin 4 → MicroOp) :
    intUops (uopToInt group, uopToMem group) = dispatched .int group :=
  validUops_dispatchTo .int group

theorem memUops_dispatch (group : Fin 4 → MicroOp) :
    memUops (uopToInt group, uopToMem group) = dispatched .mem group :=
  validUops_dispatchTo .mem group

theorem Invariant.int_next (holds : Invariant system)
    (flush : (input.reset || input.clear) = false)
    (allowed : Allowed system input) :
    Accounted (system.next input).intLog
      ((system.next input).dpIs.held intUops) (system.next input).iqInt.slots
      (system.next input).iqInt.freeCountReg.toNat := by
  have moved := (holds.int_moves flush).balance
  have held := held_next flush intUops intUops_empty holds.intSettled
    (fun nothing => by rw [intUops_dispatch, dispatched_of_silent _ nothing])
    allowed
  rw [intUops_dispatch] at held
  have log : (system.next input).intLog = system.intLog.next false
      (dispatched .int input.dpUopsIn) (intUops system.dpIs.out)
      (uopsOf (system.iqInt.uopOut input.intBusy)) := by
    rw [← flush]
    rfl
  rw [log]
  refine holds.int.next (Multiset.coe_add _ _).symm ?_ moved ?_
  · rw [held]
    exact (Multiset.coe_add _ _).symm
  · rw [next_iqInt flush] at moved ⊢
    refine IssueQueueInt.freeCount_next moved holds.int.free ?_
    cases full : system.iqFullReg with
    | true =>
        have nothing : uopsOf system.dpIs.out.1 = 0 :=
          congrArg Multiset.ofList (holds.silent full)
        rw [nothing]
        exact Nat.zero_le _
    | false =>
        rw [← holds.int.free]
        exact (length_validUops_le _).trans (holds.opened full)

theorem Invariant.mem_next (holds : Invariant system)
    (flush : (input.reset || input.clear) = false)
    (allowed : Allowed system input)
    (fedNext : ∃ uops, MemFed (system.next input).dpIs
      (system.next input).iqFullReg (system.next input).iqMem uops) :
    Accounted (system.next input).memLog
      ((system.next input).dpIs.held memUops)
      (fun slot => ((system.next input).iqMem.slots slot).uop)
      (system.next input).iqMem.freeCountReg.toNat := by
  have moved := (holds.mem_moves flush).balance
  have held := held_next flush memUops memUops_empty holds.memSettled
    (fun nothing => by rw [memUops_dispatch, dispatched_of_silent _ nothing])
    allowed
  rw [memUops_dispatch] at held
  have log : (system.next input).memLog = system.memLog.next false
      (dispatched .mem input.dpUopsIn) (memUops system.dpIs.out)
      (uopsOf fun _ : Fin 1 => system.iqMem.uopOut input.memBusy) := by
    rw [← flush]
    rfl
  rw [log]
  refine holds.mem.next (Multiset.coe_add _ _).symm ?_ moved ?_
  · rw [held]
    exact (Multiset.coe_add _ _).symm
  · obtain ⟨uops, fed⟩ := fedNext
    have slots : uopsOf (fun slot =>
        ((system.next input).iqMem.slots slot).uop) = uops :=
      fed.holds.slotUops_eq
    have count := freeSlots_add fun slot =>
      ((system.next input).iqMem.slots slot).uop
    rw [slots, Multiset.coe_card] at count
    have free := fed.holds.free
    omega

theorem Invariant.next (holds : Invariant system)
    (allowed : Allowed system input) : Invariant (system.next input) := by
  cases flush : input.reset || input.clear with
  | true => exact invariant_of_flush system flush
  | false =>
      have fedNext : ∃ uops, MemFed (system.next input).dpIs
          (system.next input).iqFullReg (system.next input).iqMem uops := by
        obtain ⟨uops, fed⟩ := holds.fed
        rw [next_dpIs flush, next_iqFullReg flush, next_iqMem flush]
        exact ⟨_, fed.next input.memBusy
          (system.iqInt.iqIntFull system.dpIs.out.1 input.intBusy)
          input.dpUopsIn rfl⟩
      refine ⟨holds.int_next flush allowed,
        holds.mem_next flush allowed fedNext, fedNext, ?_, ?_, ?_, ?_⟩
      · intro opened
        rw [next_iqFullReg flush, iqFull, Bool.or_eq_false_iff] at opened
        have enough := of_decide_eq_false opened.2
        rw [BitVec.lt_def] at enough
        rw [next_iqInt flush]
        change 4 ≤ (system.iqInt.freeCount _ _).toNat
        simpa using enough
      · intro full
        rw [next_iqFullReg flush] at full
        rw [next_dpIs flush, full]
        change intUops (SkidBuffer.next _ _ false true _).out = []
        rw [SkidBuffer.next_out_of_full]
        exact intUops_empty
      · rw [next_dpIs flush]
        exact holds.intSettled.next intUops_empty false
      · rw [next_dpIs flush]
        exact holds.memSettled.next memUops_empty false

theorem held_of_moving {contents :
      (Fin 4 → MicroOp) × (Fin 4 → MicroOp) → List MicroOp}
    (nothing : contents DpIs.empty = [])
    (settled : system.dpIs.Settled contents)
    (flush : (input.reset || input.clear) = false)
    (moving : system.iqFull input = false) :
    (system.next input).dpIs.held contents =
      contents (system.next input).dpIs.out := by
  have kept : contents (system.next input).dpIs.tmp = [] := by
    rw [next_dpIs flush, moving]
    exact settled.tmp_next nothing
  rw [SkidBuffer.held, kept, List.append_nil]

theorem Invariant.cycleOk (holds : Invariant system)
    (allowed : Allowed system input)
    (flush : (input.reset || input.clear) = false) :
    CycleOk system input := by
  refine ⟨⟨_, holds.int_moves flush⟩, ⟨_, holds.mem_moves flush⟩, ?_⟩
  intro moving later unflushed
  have next := holds.next allowed
  have int := next.int.dispatched
  have mem := next.mem.dispatched
  rw [held_of_moving intUops_empty holds.intSettled flush moving] at int
  rw [held_of_moving memUops_empty holds.memSettled flush moving] at mem
  rw [int, mem]
  constructor
  · change (QueueLog.next _ (later.reset || later.clear) _ _ _).arrived = _
    rw [unflushed]
    rfl
  · change (QueueLog.next _ (later.reset || later.clear) _ _ _).arrived = _
    rw [unflushed]
    rfl

end Steps

/-! ## Runs -/

/-- In every run nothing is lost or duplicated between dispatch and issue. -/
theorem queues_lose_nothing {system : QueueSystem}
    (run : Run start next Allowed system) :
    Accounted system.intLog (system.dpIs.held intUops) system.iqInt.slots
        system.iqInt.freeCountReg.toNat ∧
      Accounted system.memLog (system.dpIs.held memUops)
        (fun slot => (system.iqMem.slots slot).uop)
        system.iqMem.freeCountReg.toNat ∧
      ∀ input, Allowed system input →
        (input.reset || input.clear) = false → CycleOk system input := by
  have holds : Invariant system := by
    refine run.invariant Invariant ?_ ?_
    · rintro _ rfl
      exact invariant_empty rfl rfl rfl rfl rfl
    · intro system input holds allowed
      exact holds.next allowed
  exact ⟨holds.int, holds.mem,
    fun input allowed flush => holds.cycleOk allowed flush⟩

/-- A cycle that dispatches an ALU uop and a load, with no register busy. -/
def mixedGroup : QueueInput :=
  { reset := false, clear := false
    dpUopsIn := fun i =>
      if i = 0 then
        { (0 : MicroOp) with valid := true, iqCode := .int, fuCode := .alu }
      else if i = 2 then
        { (0 : MicroOp) with valid := true, iqCode := .mem, fuCode := .mem }
      else 0
    intBusy := { rs1Busy := fun _ => false, rs2Busy := fun _ => false }
    memBusy := { rs1Busy := fun _ => false, rs2Busy := fun _ => false } }

/-- After `cycles` such cycles. -/
def fedMixed : Nat → QueueSystem
  | 0 =>
      { dpIs := .resetState, iqFullReg := false
        iqInt := IssueQueueInt.resetState, iqMem := IssueQueueMem.resetState
        intLog := .empty, memLog := .empty }
  | cycles + 1 => (fedMixed cycles).next mixedGroup

/-- The second cycle moves both uops into their queues. -/
theorem queues_lose_nothing_mixed :
    Accounted (fedMixed 2).intLog ((fedMixed 2).dpIs.held intUops)
        (fedMixed 2).iqInt.slots (fedMixed 2).iqInt.freeCountReg.toNat ∧
      CycleOk (fedMixed 2) mixedGroup := by
  have moving : ∀ cycles ≤ 2, (fedMixed cycles).dpIs.stallPrev = false := by
    decide
  have allowed : ∀ cycles ≤ 2, Allowed (fedMixed cycles) mixedGroup := by
    intro cycles few stalled
    rw [moving cycles few] at stalled
    cases stalled
  obtain ⟨int, -, cycle⟩ := queues_lose_nothing
    (.step mixedGroup (.step mixedGroup (.start rfl)
      (allowed 0 (by omega))) (allowed 1 (by omega)))
  exact ⟨int, cycle mixedGroup (allowed 2 (by omega)) rfl⟩

end QueueSystem

end Ria
