import Ria.Frontend.BranchPred

/-!
# The lane that is predicted taken

Unless the bundle retired holds a misprediction, the prediction loop stops at
the first lane that passes its tests, on the tables the bundle leaves.
-/

namespace Ria

open Hdl

namespace BranchPred

/-- The tests of the prediction loop: the counter of the lane predicts taken,
fetch has marked the lane, and a way of its set holds the tag of the group. -/
def PassesTests (tables : BranchPred) (pc : Word)
    (isBranch isValid : Fin 4 → Bool) (lane : Fin 4) : Prop :=
  (tables.pht (tables.bht (bhtEntry pc + BitVec.ofNat 7 lane.val))).getLsbD 1 =
      true ∧
    isBranch lane = true ∧ isValid lane = true ∧
    (hitWay tables pc lane).isSome = true

instance (tables : BranchPred) (pc : Word) (isBranch isValid : Fin 4 → Bool)
    (lane : Fin 4) : Decidable (tables.PassesTests pc isBranch isValid lane) :=
  inferInstanceAs (Decidable (_ ∧ _))

/-- The first lane that passes them. -/
def StopsAt (tables : BranchPred) (pc : Word)
    (isBranch isValid : Fin 4 → Bool) (lane : Fin 4) : Prop :=
  tables.PassesTests pc isBranch isValid lane ∧
    ∀ before < lane, ¬ tables.PassesTests pc isBranch isValid before

instance (tables : BranchPred) (pc : Word) (isBranch isValid : Fin 4 → Bool)
    (lane : Fin 4) : Decidable (tables.StopsAt pc isBranch isValid lane) :=
  inferInstanceAs (Decidable (_ ∧ _))

section Loop

variable {tables : BranchPred} {pc : Word} {isBranch isValid : Fin 4 → Bool}

theorem predictLane_passes {lane way : Fin 4}
    (passes : tables.PassesTests pc isBranch isValid lane)
    (hit : hitWay tables pc lane = some way) (state : Prediction) :
    predictLane tables pc isBranch isValid lane state =
      .stop
        { nextPc :=
            (tables.btb (btbEntry pc + BitVec.ofNat 5 lane.val) way).target
          branch := true
          predictions := Function.update state.predictions lane true } := by
  obtain ⟨counter, branch, valid, -⟩ := passes
  unfold predictLane
  simp only [counter, branch, valid, hit, Bool.and_self, if_true]

theorem predictLane_fails {lane : Fin 4}
    (fails : ¬ tables.PassesTests pc isBranch isValid lane)
    {state : Prediction} (none : state.branch = false) :
    predictLane tables pc isBranch isValid lane state = .step state := by
  unfold predictLane
  by_cases asked : ((tables.pht (tables.bht (bhtEntry pc +
      BitVec.ofNat 7 lane.val))).getLsbD 1 && isBranch lane &&
        isValid lane) = true
  · simp only [if_pos asked]
    simp only [Bool.and_eq_true] at asked
    obtain ⟨⟨counter, branch⟩, valid⟩ := asked
    cases hit : hitWay tables pc lane with
    | none => simp only [none, Bool.false_eq_true, if_false]
    | some way =>
        exact absurd ⟨counter, branch, valid, by rw [hit]; rfl⟩ fails
  · simp only [if_neg asked]

variable (tables pc isBranch isValid)

/-- The loop stops at the first lane that passes, if there is one. -/
theorem predictLoop_cases {start : Prediction} (none : start.branch = false) :
    (∃ lane way, tables.StopsAt pc isBranch isValid lane ∧
      hitWay tables pc lane = some way ∧
      forLoop 4 (predictLane tables pc isBranch isValid) start =
        { nextPc :=
            (tables.btb (btbEntry pc + BitVec.ofNat 5 lane.val) way).target
          branch := true
          predictions := Function.update start.predictions lane true }) ∨
      ((∀ lane, ¬ tables.PassesTests pc isBranch isValid lane) ∧
        forLoop 4 (predictLane tables pc isBranch isValid) start = start) := by
  refine forLoop_rule
    (fun count state => state = start ∧ ∀ lane : Fin 4, lane.val < count →
      ¬ tables.PassesTests pc isBranch isValid lane)
    (fun last =>
      (∃ lane way, tables.StopsAt pc isBranch isValid lane ∧
        hitWay tables pc lane = some way ∧
        last =
          { nextPc :=
              (tables.btb (btbEntry pc + BitVec.ofNat 5 lane.val) way).target
            branch := true
            predictions := Function.update start.predictions lane true }) ∨
        ((∀ lane, ¬ tables.PassesTests pc isBranch isValid lane) ∧
          last = start))
    ⟨rfl, fun _ below => absurd below (Nat.not_lt_zero _)⟩ ?_ ?_
  · rintro lane state ⟨rfl, failed⟩
    by_cases passes : tables.PassesTests pc isBranch isValid lane
    · obtain ⟨way, hit⟩ := Option.isSome_iff_exists.mp passes.2.2.2
      simp only [predictLane_passes passes hit]
      exact .inl ⟨lane, way, ⟨passes, fun before => failed before⟩, hit, rfl⟩
    · rw [predictLane_fails passes none]
      refine ⟨rfl, fun other below => ?_⟩
      rcases Nat.lt_succ_iff_lt_or_eq.mp below with before | same
      · exact failed other before
      · rw [Fin.ext same]
        exact passes
  · rintro state ⟨rfl, failed⟩
    exact .inr ⟨fun lane => failed lane lane.isLt, rfl⟩

end Loop

section Outputs

variable {tables : BranchPred} {pc : Word} {isBranch isValid : Fin 4 → Bool}
  {uopRetire : Fin 6 → MicroOp} {lane : Fin 4}

/-- A lane predicted taken is the only one, and its target is that of the
first way that holds the tag. -/
structure PredictedTaken (trained : BranchPred) (pc : Word)
    (isBranch isValid : Fin 4 → Bool) (lane : Fin 4) (out : Outputs) :
    Prop where
  stops : trained.StopsAt pc isBranch isValid lane
  target : ∃ way, hitWay trained pc lane = some way ∧
    out.nextPc =
      (trained.btb (btbEntry pc + BitVec.ofNat 5 lane.val) way).target
  alone : out.predictions = Function.update (fun _ => false) lane true

theorem StopsAt.unique {other : Fin 4}
    (stops : tables.StopsAt pc isBranch isValid lane)
    (again : tables.StopsAt pc isBranch isValid other) : lane = other := by
  rcases lt_trichotomy lane other with below | same | above
  · exact absurd stops.1 (again.2 lane below)
  · exact same
  · exact absurd again.1 (stops.2 other above)

variable (tables pc isBranch isValid uopRetire)

theorem comb_cases :
    (train tables pc uopRetire).mispredict = false ∧
        (∃ lane, PredictedTaken (train tables pc uopRetire).tables pc isBranch
          isValid lane (tables.comb pc isBranch isValid uopRetire)) ∨
      ((train tables pc uopRetire).mispredict = false →
        ∀ lane, ¬ (train tables pc uopRetire).tables.PassesTests pc isBranch
          isValid lane) ∧
        (tables.comb pc isBranch isValid uopRetire).predictions =
          (fun _ => false) ∧
        (tables.comb pc isBranch isValid uopRetire).nextPc =
          (train tables pc uopRetire).nextPc := by
  cases quiet : (train tables pc uopRetire).mispredict with
  | true =>
      right
      refine ⟨fun never => Bool.noConfusion never, ?_⟩
      simp only [comb, quiet, if_true, and_self]
  | false =>
      have loop : ∀ last, forLoop 4
          (predictLane (train tables pc uopRetire).tables pc isBranch isValid)
            { nextPc := (train tables pc uopRetire).nextPc, branch := false
              predictions := fun _ => false } = last →
          (tables.comb pc isBranch isValid uopRetire).predictions =
              last.predictions ∧
            (tables.comb pc isBranch isValid uopRetire).nextPc =
              last.nextPc := by
        rintro last rfl
        simp only [comb, quiet, Bool.false_eq_true, if_false, and_self]
      have start : Prediction.branch
          { nextPc := (train tables pc uopRetire).nextPc, branch := false
            predictions := fun _ => false } = false := rfl
      rcases predictLoop_cases (train tables pc uopRetire).tables pc isBranch
          isValid start with
        ⟨lane, way, stops, hit, result⟩ | ⟨none, result⟩
      · left
        obtain ⟨predictions, target⟩ := loop _ result
        exact ⟨rfl, lane, stops, ⟨way, hit, target⟩, predictions⟩
      · right
        exact ⟨fun _ => none, loop _ result⟩

variable {tables pc isBranch isValid uopRetire}

theorem predicted_iff :
    (tables.comb pc isBranch isValid uopRetire).predictions lane = true ↔
      (train tables pc uopRetire).mispredict = false ∧
        (train tables pc uopRetire).tables.StopsAt pc isBranch isValid
          lane := by
  rcases comb_cases tables pc isBranch isValid uopRetire with
    ⟨quiet, other, taken⟩ | ⟨none, silent, -⟩
  · rw [taken.alone]
    constructor
    · intro here
      have same : lane = other := by
        by_contra different
        rw [Function.update_of_ne different] at here
        cases here
      rw [same]
      exact ⟨quiet, taken.stops⟩
    · rintro ⟨-, stops⟩
      rw [stops.unique taken.stops, Function.update_self]
  · rw [silent]
    constructor
    · intro never
      cases never
    · rintro ⟨quiet, stops⟩
      exact absurd stops.1 (none quiet lane)

theorem comb_predicted
    (predicted : (tables.comb pc isBranch isValid uopRetire).predictions lane =
      true) :
    PredictedTaken (train tables pc uopRetire).tables pc isBranch isValid lane
      (tables.comb pc isBranch isValid uopRetire) := by
  have stops := (predicted_iff.mp predicted).2
  rcases comb_cases tables pc isBranch isValid uopRetire with
    ⟨-, other, taken⟩ | ⟨-, silent, -⟩
  · rw [stops.unique taken.stops]
    exact taken
  · rw [silent] at predicted
    cases predicted

end Outputs

end BranchPred

end Ria
