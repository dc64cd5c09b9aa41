import Ria.Frontend.BranchPred

/-!
# The counter that training moves

A prediction looks the counter up with the history of its branch, and the
outcome is shifted into that history when the branch retires.  Training
shifts first, so that it moves the counter of the history that already holds
the outcome, and the counter that was consulted only when the two coincide or
have nothing to learn.
-/

namespace Ria

open Hdl

namespace BranchPred

/-- A history with one more outcome. -/
def shiftHistory (history : BitVec 7) (taken : Bool) : BitVec 7 :=
  (history <<< 1) ||| (BitVec.ofBool taken).setWidth 7

/-- The value at which a counter saturates. -/
def saturated (taken : Bool) : BitVec 2 := if taken then 3 else 0

/-- One step towards an outcome. -/
def stepCounter (counter : BitVec 2) (taken : Bool) : BitVec 2 :=
  if counter = saturated taken then counter
  else if taken then counter + 1 else counter - 1

/-- The history with which a prediction of the uop is looked up. -/
def consulted (tables : BranchPred) (uop : MicroOp) : BitVec 7 :=
  tables.bht (bhtEntry uop.pc)

/-- `BHT_next[BHT_entry[i]]` as it indexes `PHT_next`. -/
def trainedCounter (tables : BranchPred) (uop : MicroOp) : BitVec 7 :=
  shiftHistory (tables.consulted uop) uop.brTaken

/-- The counter consulted for the uop moves one step towards its outcome, the
outcome enters the history, and nothing else of the two tables changes. -/
def TrainsConsulted (tables trained : BranchPred) (uop : MicroOp) : Prop :=
  trained.pht =
      Function.update tables.pht (tables.consulted uop)
        (stepCounter (tables.pht (tables.consulted uop)) uop.brTaken) ∧
    trained.bht =
      Function.update tables.bht (bhtEntry uop.pc)
        (shiftHistory (tables.consulted uop) uop.brTaken)

/-- The history holds this outcome only, or both the counter consulted and
the one behind the shifted history are saturated towards it. -/
def NothingToLearn (tables : BranchPred) (uop : MicroOp) : Prop :=
  tables.consulted uop = (if uop.brTaken then BitVec.allOnes 7 else 0) ∨
    (tables.pht (tables.consulted uop) = saturated uop.brTaken ∧
      tables.pht (tables.trainedCounter uop) = saturated uop.brTaken)

theorem shiftHistory_eq_self (history : BitVec 7) (taken : Bool) :
    shiftHistory history taken = history ↔
      history = if taken then BitVec.allOnes 7 else 0 := by
  revert history taken
  decide

theorem stepCounter_eq_self (counter : BitVec 2) (taken : Bool) :
    stepCounter counter taken = counter ↔ counter = saturated taken := by
  revert counter taken
  decide

theorem stepCounter_eq (counter : BitVec 2) (taken : Bool) :
    (if taken then if counter < 3 then counter + 1 else counter
      else if counter > 0 then counter - 1 else counter) =
      stepCounter counter taken := by
  revert counter taken
  decide

theorem trainHistory_tables (tables : BranchPred) (uop : MicroOp) :
    (trainHistory tables uop).pht =
        Function.update tables.pht (tables.trainedCounter uop)
          (stepCounter (tables.pht (tables.trainedCounter uop))
            uop.brTaken) ∧
      (trainHistory tables uop).bht =
        Function.update tables.bht (bhtEntry uop.pc)
          (tables.trainedCounter uop) := by
  constructor
  · rw [← stepCounter_eq]
    rfl
  · rfl

/-- Two point updates are one function when the points and values are, or
when neither changes anything. -/
private theorem update_eq_update {α β : Type} [DecidableEq α] {f : α → β}
    {left right : α} {x y : β} (different : left ≠ right) :
    Function.update f left x = Function.update f right y ↔
      x = f left ∧ y = f right := by
  constructor
  · intro same
    have atLeft := congrFun same left
    have atRight := congrFun same right
    rw [Function.update_self, Function.update_of_ne different] at atLeft
    rw [Function.update_self, Function.update_of_ne different.symm] at atRight
    exact ⟨atLeft, atRight.symm⟩
  · rintro ⟨rfl, rfl⟩
    rw [Function.update_eq_self, Function.update_eq_self]

/-- Training moves the counter consulted exactly when there is nothing to
learn. -/
theorem trainHistory_consulted (tables : BranchPred) (uop : MicroOp) :
    TrainsConsulted tables (trainHistory tables uop) uop ↔
      tables.NothingToLearn uop := by
  obtain ⟨counters, histories⟩ := trainHistory_tables tables uop
  unfold TrainsConsulted NothingToLearn
  rw [counters, histories]
  by_cases same : tables.trainedCounter uop = tables.consulted uop
  · have uniform := (shiftHistory_eq_self _ _).mp same
    constructor
    · intro _
      exact .inl uniform
    · intro _
      rw [same]
      exact ⟨rfl, congrArg _ same.symm⟩
  · have mixed : tables.consulted uop ≠
        if uop.brTaken then BitVec.allOnes 7 else 0 := fun uniform =>
      same ((shiftHistory_eq_self _ _).mpr uniform)
    rw [update_eq_update same, stepCounter_eq_self, stepCounter_eq_self]
    constructor
    · rintro ⟨⟨shifted, plain⟩, -⟩
      exact .inr ⟨plain, shifted⟩
    · rintro (uniform | ⟨plain, shifted⟩)
      · exact absurd uniform mixed
      · exact ⟨⟨shifted, plain⟩, rfl⟩

/-! ## A branch that retires alone -/

/-- The tables after a cycle in which one uop retires. -/
def retireAlone (tables : BranchPred) (uop : MicroOp) : BranchPred :=
  (train tables 0 fun lane => if lane.val = 0 then uop else 0).tables

/-- `branch` with the outcome of its occurrence number `time`. -/
def occurrence (branch : MicroOp) (outcome : Nat → Bool) (time : Nat) :
    MicroOp :=
  { branch with brTaken := outcome time }

/-- The tables before occurrence number `time`. -/
def alone (tables : BranchPred) (branch : MicroOp) (outcome : Nat → Bool) :
    Nat → BranchPred
  | 0 => tables
  | time + 1 =>
      retireAlone (alone tables branch outcome time)
        (occurrence branch outcome time)

theorem retireAlone_eq (tables : BranchPred) (uop : MicroOp) :
    retireAlone tables uop =
      (trainLane uop
        { tables := tables, lru := 3, mispredict := false
          nextPc := 0 + 16 }).reached.tables := by
  unfold retireAlone train
  apply congrArg Training.tables
  apply forLoop_first
  intro index later state
  have empty : index.val ≠ 0 := fun first => later (Fin.ext first)
  simp only [if_neg empty]
  rfl

/-- The next lookup uses the counter that was trained last. -/
theorem consulted_retireAlone (tables : BranchPred) {uop : MicroOp}
    (trains : Trains uop) :
    (retireAlone tables uop).consulted uop = tables.trainedCounter uop := by
  rw [consulted, retireAlone_eq, (trainLane_processed _ trains).1]
  exact (congrFun (trainHistory_tables tables uop).2 _).trans
    (Function.update_self _ _ _)

/-- The counter consulted at a history, once the branch has filled it, is
trained only with the outcome that follows that history. -/
def TrainedWithFollowing (tables : BranchPred) (branch : MicroOp)
    (outcome : Nat → Bool) : Prop :=
  ∀ time later, 7 ≤ time → 7 ≤ later →
    (alone tables branch outcome time).trainedCounter
        (occurrence branch outcome time) =
      (alone tables branch outcome later).consulted
        (occurrence branch outcome later) →
    outcome time = outcome later

theorem trainedWithFollowing_iff (tables : BranchPred) {branch : MicroOp}
    (trains : Trains branch) {outcome : Nat → Bool} {period : Nat}
    (positive : 0 < period)
    (repeats : ∀ time, outcome (time + period) = outcome time) :
    TrainedWithFollowing tables branch outcome ↔
      ∀ time, outcome time = outcome 0 := by
  constructor
  · intro following
    have settled : ∀ time, 7 ≤ time → outcome time = outcome (time + 1) := by
      intro time filled
      have next : Trains (occurrence branch outcome time) := trains
      apply following time (time + 1) filled (Nat.le_succ_of_le filled)
      exact (consulted_retireAlone (alone tables branch outcome time)
        next).symm
    have shifted : ∀ count time,
        outcome (time + count * period) = outcome time := by
      intro count
      induction count with
      | zero =>
          intro time
          rw [Nat.zero_mul, Nat.add_zero]
      | succ count induction =>
          intro time
          rw [Nat.succ_mul, ← Nat.add_assoc, repeats, induction]
    have far : 7 ≤ 7 * period := Nat.le_mul_of_pos_right 7 positive
    intro time
    induction time with
    | zero => rfl
    | succ time induction =>
        calc outcome (time + 1)
            = outcome (time + 1 + 7 * period) := (shifted 7 (time + 1)).symm
          _ = outcome (time + 7 * period + 1) := by
              rw [Nat.add_right_comm]
          _ = outcome (time + 7 * period) :=
              (settled _ (far.trans (Nat.le_add_left _ _))).symm
          _ = outcome time := shifted 7 time
          _ = outcome 0 := induction
  · intro constant time later _ _ _
    rw [constant time, constant later]

/-- Processing a retired branch-type uop trains the counter that its
prediction consults exactly when there is nothing to learn; and with a
repeating pattern of outcomes the counters are trained with the outcomes that
follow their histories exactly when the outcome never changes. -/
theorem trains_consulted_counter_iff (state : Training) (uop : MicroOp)
    (trains : Trains uop) :
    (TrainsConsulted state.tables (trainLane uop state).reached.tables uop ↔
        state.tables.NothingToLearn uop) ∧
      ∀ (outcome : Nat → Bool) (period : Nat), 0 < period → period ≤ 7 →
        (∀ time, outcome (time + period) = outcome time) →
        (TrainedWithFollowing state.tables uop outcome ↔
          ∀ time, outcome time = outcome 0) := by
  constructor
  · rw [(trainLane_processed state trains).1]
    exact trainHistory_consulted state.tables uop
  · intro outcome period positive _ repeats
    exact trainedWithFollowing_iff state.tables trains positive repeats

/-- A conditional branch that was not taken. -/
def untakenBranch : MicroOp :=
  { (0 : MicroOp) with valid := true, brType := .eq }

theorem trains_consulted_counter_iff_untaken :
    TrainsConsulted resetState
        (trainLane untakenBranch
          { tables := resetState, lru := 3, mispredict := false
            nextPc := 16 }).reached.tables untakenBranch ∧
      TrainedWithFollowing resetState untakenBranch fun _ => false := by
  have learned := trains_consulted_counter_iff
    { tables := resetState, lru := 3, mispredict := false, nextPc := 16 }
    untakenBranch (by decide)
  constructor
  · exact learned.1.mpr (.inl (by decide))
  · exact (learned.2 (fun _ => false) 1 (by decide) (by decide)
      fun _ => rfl).mpr fun _ => rfl

/-- A conditional branch that was taken. -/
def takenBranch : MicroOp :=
  { (0 : MicroOp) with valid := true, brType := .eq, brTaken := true }

/-- The first taken branch after a reset trains the counter of the history
that holds its own outcome. -/
theorem first_branch_trains_other_counter :
    let tables := retireAlone resetState takenBranch
    Trains takenBranch ∧ resetState.consulted takenBranch = 0 ∧
      tables.pht 0 = resetState.pht 0 ∧
      tables.pht 1 = resetState.pht 1 + 1 ∧
      ¬ TrainsConsulted resetState tables takenBranch := by
  refine ⟨?_, ?_, ?_, ?_, ?_⟩
  · decide
  · decide
  · decide +kernel
  · decide +kernel
  · rintro ⟨counters, -⟩
    have atZero := congrFun counters 0
    revert atZero
    decide +kernel

end BranchPred

end Ria
