import Ria.Frontend.FrontEnd
import Ria.Frontend.RobFifo

/-!
# Groups at the reorder buffer

The reorder buffer behind the RR~DP register.  `allocatable` reaches the
register after the group has been offered, and the register keeps only what
arrives behind it.  A group that does not fit between the tail and the end of
the array is stored in part, and the rest of it is lost.
-/

namespace Ria

open Hdl

namespace Rob

section Leaving

variable (rob : Rob) (uopComplete : Fin 6 → MicroOp)

/-- The entry is complete after the completions of the cycle. -/
def finished (index : Nat) : Bool :=
  decide (index < 64 ∧
    ((rob.opList (BitVec.ofNat 6 index)).complete = true ∨
      ∃ lane, (uopComplete lane).valid = true ∧
        (uopComplete lane).robIndex = BitVec.ofNat 6 index))

/-- The finished entries from `first` on, up to one that is not. -/
def finishedFrom : Nat → Nat → Nat
  | 0, _ => 0
  | lanes + 1, first =>
      if rob.finished uopComplete first then
        finishedFrom lanes (first + 1) + 1
      else 0

/-- The lanes that may retire, each bounded by the size that is left. -/
def retireWidth : Nat := min 6 ((rob.robSize.toNat + 1) / 2)

/-- The uops that leave in a cycle without a misprediction. -/
def leaving : Nat :=
  rob.finishedFrom uopComplete rob.retireWidth rob.robHead.toNat

end Leaving

section Retired

variable {rob : Rob} {uopComplete : Fin 6 → MicroOp}

theorem complete_complete (opList : RobIndex → MicroOp) (index : RobIndex) :
    (complete opList uopComplete index).complete = true ↔
      (opList index).complete = true ∨
        ∃ lane, (uopComplete lane).valid = true ∧
          (uopComplete lane).robIndex = index := by
  rcases complete_cases opList uopComplete index with
    ⟨lane, named, same⟩ | ⟨never, same⟩
  · rw [same]
    exact ⟨fun _ => .inr ⟨lane, named⟩, fun _ => rfl⟩
  · rw [same]
    constructor
    · exact .inl
    · rintro (done | ⟨lane, named⟩)
      · exact done
      · exact absurd named (never lane)

theorem entry_complete (index : Nat) :
    (entry (complete rob.opList uopComplete) index).complete =
      rob.finished uopComplete index := by
  rw [Bool.eq_iff_iff, finished, decide_eq_true_iff, entry]
  by_cases inside : index < 64
  · rw [if_pos inside, complete_complete]
    simp [inside]
  · rw [if_neg inside]
    simp only [inside, false_and, iff_false]
    exact Bool.false_ne_true

/-- The loop at a lane: it has retired the first `count` of the uops that
leave. -/
structure Leaves (rob : Rob) (uopComplete : Fin 6 → MicroOp) (count : Nat)
    (state : Retirement) : Prop where
  leaving : rob.leaving uopComplete = count +
    rob.finishedFrom uopComplete (rob.retireWidth - count)
      (rob.robHead.toNat + count)
  within : count ≤ rob.retireWidth
  head : state.robHeadNext = BitVec.ofNat 6 (rob.robHead.toNat + count)
  size : state.robSizeNext.toNat = rob.robSize.toNat - count

theorem Leaves.waits {i : Fin 6} {state : Retirement}
    (leaves : Leaves rob uopComplete i.val state)
    (waits : state.robSizeNext.toNat ≤ i.val ∨
      rob.finished uopComplete (rob.robHead.toNat + i.val) = false) :
    rob.leaving uopComplete = i.val := by
  have within := leaves.within
  have size := leaves.size
  rw [leaves.leaving]
  rcases waits with exhausted | unfinished
  · have last : rob.retireWidth - i.val = 0 := by
      unfold retireWidth
      omega
    rw [last]
    rfl
  · cases rob.retireWidth - i.val with
    | zero => rfl
    | succ lanes =>
        rw [finishedFrom, unfinished, if_neg Bool.false_ne_true]
        rfl

theorem Leaves.retiring {i : Fin 6} {state : Retirement} {uop : MicroOp}
    (leaves : Leaves rob uopComplete i.val state)
    (left : i.val < state.robSizeNext.toNat)
    (finish : rob.finished uopComplete (rob.robHead.toNat + i.val) = true) :
    Leaves rob uopComplete (i.val + 1) (state.retiring i uop) := by
  have within := leaves.within
  have size := leaves.size
  have lane := i.isLt
  have more : rob.retireWidth - i.val =
      rob.retireWidth - (i.val + 1) + 1 := by
    unfold retireWidth at within ⊢
    omega
  refine ⟨?_, ?_, Retirement.retiring_head leaves.head, ?_⟩
  · rw [leaves.leaving, more, finishedFrom, if_pos finish,
      Nat.add_assoc rob.robHead.toNat]
    omega
  · omega
  · rw [Retirement.retiring_size (by omega), size]
    omega

/-- Without a misprediction the head and the size move by the uops that
leave. -/
theorem retired_of_runs (runs : (rob.retired uopComplete).recover = false) :
    (rob.retired uopComplete).robHeadNext =
        BitVec.ofNat 6 (rob.robHead.toNat + rob.leaving uopComplete) ∧
      (rob.retired uopComplete).robSizeNext.toNat =
        rob.robSize.toNat - rob.leaving uopComplete := by
  revert runs
  refine retire_rule (Leaves rob uopComplete)
    (fun state => state.recover = false →
      state.robHeadNext =
          BitVec.ofNat 6 (rob.robHead.toNat + rob.leaving uopComplete) ∧
        state.robSizeNext.toNat =
          rob.robSize.toNat - rob.leaving uopComplete) ?_ ?_ ?_ ?_
  · refine ⟨?_, Nat.zero_le _, ?_, rfl⟩
    · rw [Nat.zero_add, Nat.sub_zero, Nat.add_zero]
      rfl
    · rw [Nat.add_zero, BitVec.ofNat_toNat, BitVec.setWidth_eq]
  · intro i state leaves waits _
    rw [entry_complete] at waits
    rw [leaves.waits waits]
    exact ⟨leaves.head, leaves.size⟩
  · intro i state uop leaves left known done
    refine ⟨fun _ runs => Bool.noConfusion runs, fun _ => ?_⟩
    apply leaves.retiring left
    rw [← entry_complete, known, done]
  · intro state leaves _
    have all : rob.leaving uopComplete = 6 := by
      have last : rob.retireWidth - 6 = 0 := by
        unfold retireWidth
        omega
      rw [leaves.leaving, last]
      rfl
    rw [all]
    exact ⟨leaves.head, leaves.size⟩

end Retired

end Rob

/-! ## The system -/

structure GroupInput where
  reset : Bool
  iqFull : Bool
  uopComplete : Fin 6 → MicroOp
  rrUopsOut : Fin 4 → MicroOp

/-- `rob` and the RR~DP register. -/
structure GroupSystem where
  cm : Rob
  rrDp : SkidBuffer (Fin 4 → MicroOp)

namespace GroupSystem

section Signals

variable (system : GroupSystem) (input : GroupInput)

def outputs : Rob.Outputs :=
  system.cm.outputs input.uopComplete system.rrDp.out

def cmFull : Bool :=
  input.iqFull || !(system.outputs input).allocatable

def next : GroupSystem :=
  { cm := system.cm.next input.reset input.uopComplete system.rrDp.out
    rrDp := system.rrDp.next noUops
      (input.reset || (system.outputs input).recover) (system.cmFull input)
      input.rrUopsOut }

/-- Each valid uop of the group is stored in an entry of its own and handed
on with the number of the entry. -/
def Taken : Prop :=
  ∃ place : Fin 4 → RobIndex,
    (∀ i, (system.rrDp.out i).valid = true →
      (system.next input).cm.opList (place i) =
          { system.rrDp.out i with robIndex := place i } ∧
        (system.outputs input).uopOut i =
          { system.rrDp.out i with robIndex := place i }) ∧
    ∀ i j, (system.rrDp.out i).valid = true →
      (system.rrDp.out j).valid = true → place i = place j → i = j

/-- The register still holds the group, beside what it held back and what
arrives. -/
def Kept : Prop :=
  ((system.next input).rrDp.held validUops).Perm
    (validUops system.rrDp.out ++ validUops system.rrDp.tmp ++
      validUops input.rrUopsOut)

/-- The valid uops of the group fit between the tail, once the uops of the
cycle have left, and the end of the array. -/
def Fits : Prop :=
  (system.cm.robHead.toNat + system.cm.leaving input.uopComplete) % 64 +
      (system.cm.robSize.toNat - system.cm.leaving input.uopComplete) +
      (validUops system.rrDp.out).length ≤ 64

end Signals

instance decidableFits (system : GroupSystem) (input : GroupInput) :
    Decidable (Fits system input) :=
  inferInstanceAs (Decidable (_ ≤ _))

def start (system : GroupSystem) : Prop :=
  system = { cm := .resetState, rrDp := .resetState noUops }

section Cycle

variable {system : GroupSystem} {input : GroupInput}

theorem not_kept (settled : system.rrDp.Settled validUops)
    (reset : input.reset = false)
    (runs : (system.outputs input).recover = false)
    (offered : validUops system.rrDp.out ≠ []) : ¬ Kept system input := by
  intro kept
  have moving : system.rrDp.stallPrev = true →
      validUops input.rrUopsOut = [] := by
    intro stalled
    exact absurd (settled.silent stalled) offered
  have held : (system.next input).rrDp.held validUops =
      validUops system.rrDp.tmp ++ validUops input.rrUopsOut := by
    rw [next, reset, runs]
    exact settled.held_next validUops_noUops moving
  have lengths := kept.length_eq
  rw [held, List.length_append, List.length_append, List.length_append]
    at lengths
  have none : (validUops system.rrDp.out).length = 0 := by omega
  exact offered (List.length_eq_zero_iff.mp none)

theorem taken_iff (reset : input.reset = false)
    (runs : (system.outputs input).recover = false)
    (offered : validUops system.rrDp.out ≠ []) :
    Taken system input ↔ Fits system input := by
  obtain ⟨head, size⟩ := Rob.retired_of_runs runs
  let group : RobInput :=
    { uopComplete := input.uopComplete, uopIn := system.rrDp.out }
  have stored := insert_insertedUpTo group
    (Rob.complete system.cm.opList input.uopComplete) runs
  rw [head, size, BitVec.toNat_ofNat] at stored
  have count := validBefore_lanes system.rrDp.out
  unfold Fits
  generalize (system.cm.robHead.toNat +
      system.cm.leaving input.uopComplete) % 64 = headNext at stored ⊢
  generalize system.cm.robSize.toNat -
      system.cm.leaving input.uopComplete = sizeNext at stored ⊢
  constructor
  · rintro ⟨place, taken, -⟩
    have some : 0 < (validUops system.rrDp.out).length :=
      List.length_pos_iff.mpr offered
    obtain ⟨i, -, valid, last⟩ := lane_of_ahead group
      ((validUops system.rrDp.out).length - 1) 4
      (by rw [count]; omega) (Nat.le_refl 4)
    have handed : (system.outputs input).uopOut i =
        { system.rrDp.out i with robIndex := place i } := (taken i valid).2
    by_cases inside : Stores group (64 - sizeNext) i ∧
        headNext + sizeNext + validBefore group.uopIn i.val < 64
    · have below := inside.2
      omega
    · -- the lane finds no room or stores outside the array
      have silent : (system.outputs input).uopOut i = 0 :=
        (stored.out i).trans (if_neg fun shown => inside shown.2)
      rw [silent] at handed
      have invalid := congrArg MicroOp.valid handed
      exact absurd (invalid.trans valid) Bool.false_ne_true
  · intro fits
    have inside : ∀ i, (system.rrDp.out i).valid = true →
        Stores group (64 - sizeNext) i ∧
          headNext + sizeNext + validBefore system.rrDp.out i.val < 64 := by
      intro i valid
      have before := validBefore_lt i.isLt valid
      change (_ ∧ validBefore system.rrDp.out i.val < _) ∧ _
      refine ⟨⟨valid, ?_⟩, ?_⟩ <;> omega
    refine ⟨fun i => BitVec.ofNat 6 (headNext + sizeNext +
      validBefore system.rrDp.out i.val), ?_, ?_⟩
    · intro i valid
      obtain ⟨stores, below⟩ := inside i valid
      constructor
      · rw [next, Rob.next, reset]
        exact stored.stored i i.isLt stores below
      · exact (stored.out i).trans (if_pos ⟨i.isLt, stores, below⟩)
    · intro i j valid other same
      have positions := congrArg BitVec.toNat same
      have below := (inside i valid).2
      have otherBelow := (inside j other).2
      simp only [BitVec.toNat_ofNat] at positions
      apply validBefore_inj valid other
      omega

end Cycle

/-! ## Runs -/

theorem settled_of_run {system : GroupSystem}
    (run : Run start next (fun _ _ => True) system) :
    system.rrDp.Settled validUops := by
  refine run.invariant (fun system => system.rrDp.Settled validUops) ?_ ?_
  · rintro _ rfl
    exact SkidBuffer.settled_resetState validUops_noUops
  · intro system input settled _
    exact settled.next validUops_noUops _

/-- In every run a group that is offered is stored and handed on, or kept,
exactly when it fits before the end of the array. -/
theorem group_taken_iff {system : GroupSystem} {input : GroupInput}
    (run : Run start next (fun _ _ => True) system)
    (reset : input.reset = false)
    (runs : (system.outputs input).recover = false)
    (offered : validUops system.rrDp.out ≠ []) :
    Taken system input ∨ Kept system input ↔ Fits system input := by
  rw [taken_iff reset runs offered]
  constructor
  · rintro (fits | kept)
    · exact fits
    · exact absurd kept (not_kept (settled_of_run run) reset runs offered)
  · exact .inl

/-- A cycle in which `count` valid uops arrive and none completes. -/
def arrival (count : Nat) : GroupInput :=
  { reset := false, iqFull := false, uopComplete := noUops
    rrUopsOut := fun i =>
      { (0 : MicroOp) with valid := decide (i.val < count) } }

/-- After the given number of cycles, in each of which four uops arrive but
`last` in the sixteenth. -/
def filled (last : Nat) : Nat → GroupSystem
  | 0 => { cm := .resetState, rrDp := .resetState noUops }
  | cycles + 1 =>
      next (filled last cycles) (arrival (if cycles = 15 then last else 4))

theorem filled_run (last cycles : Nat) :
    Run start next (fun _ _ => True) (filled last cycles) := by
  induction cycles with
  | zero => exact .start rfl
  | succ cycles induction => exact .step _ induction trivial

/-- Sixty uops are stored, and the last four places are filled. -/
theorem group_taken_nearly_full :
    (filled 4 16).cm.robSize.toNat = 60 ∧
      (validUops (filled 4 16).rrDp.out).length = 4 ∧
      (Taken (filled 4 16) (arrival 4) ∨ Kept (filled 4 16) (arrival 4)) := by
  have size : (filled 4 16).cm.robSize.toNat = 60 := by decide +kernel
  have group : (validUops (filled 4 16).rrDp.out).length = 4 := by
    decide +kernel
  have first : (filled 4 16).cm.robHead.toNat = 0 := by decide +kernel
  have runs : ((filled 4 16).outputs (arrival 4)).recover = false := by
    decide +kernel
  have offered : validUops (filled 4 16).rrDp.out ≠ [] :=
    List.ne_nil_of_length_pos (by omega)
  refine ⟨size, group,
    (group_taken_iff (filled_run 4 16) rfl runs offered).mpr ?_⟩
  have stays : (filled 4 16).cm.leaving (arrival 4).uopComplete = 0 := by
    decide +kernel
  unfold Fits
  omega

/-- With 63 uops in flight, one of the four that are offered is stored. -/
theorem refused_uops_are_lost :
    ∃ system input, Run start next (fun _ _ => True) system ∧
      input.reset = false ∧ (system.outputs input).recover = false ∧
      validUops system.rrDp.out ≠ [] ∧
      (system.outputs input).allocatable = false ∧
      ¬ (Taken system input ∨ Kept system input) := by
  have runs : ((filled 3 17).outputs (arrival 4)).recover = false := by
    decide +kernel
  have offered : validUops (filled 3 17).rrDp.out ≠ [] := by
    decide +kernel
  have full : ((filled 3 17).outputs (arrival 4)).allocatable = false := by
    decide +kernel
  have tooMany : ¬ Fits (filled 3 17) (arrival 4) := by
    have size : (filled 3 17).cm.robSize.toNat = 63 := by decide +kernel
    have group : (validUops (filled 3 17).rrDp.out).length = 4 := by
      decide +kernel
    have stays : (filled 3 17).cm.leaving (arrival 4).uopComplete = 0 := by
      decide +kernel
    unfold Fits
    rw [size, group, stays]
    omega
  refine ⟨filled 3 17, arrival 4, filled_run 3 17, rfl, runs, offered, full, ?_⟩
  rintro (taken | kept)
  · exact tooMany ((taken_iff rfl runs offered).mp taken)
  · exact not_kept (settled_of_run (filled_run 3 17)) rfl runs offered kept

end GroupSystem

end Ria
