import Ria.Frontend.BranchPred
import Ria.Library.RecencyList

/-!
# The sets of the target buffer as most-recently-used lists

The ways of a set are meant to be kept in the order of their last use.  The
loop that moves the ways up copies the new entry into every way up to `LRU`,
and `LRU` is carried from one lane to the next.  A lane that finds its tag in
way 0, or that misses a set whose way 0 is empty with `LRU` at 0, leaves the
list it should.
-/

namespace Ria

open Hdl Recency

/-- A tag and a target. -/
abbrev BtbEntry := BitVec 23 × Word

/-- The entry in a way. -/
def BtbWay.held (way : BtbWay) : List BtbEntry :=
  if way.valid then [(way.pcTag, way.target)] else []

/-- The way is valid and holds the tag. -/
def BtbWay.Hits (way : BtbWay) (pcTag : BitVec 23) : Prop :=
  way.valid = true ∧ way.pcTag = pcTag

instance (way : BtbWay) (pcTag : BitVec 23) : Decidable (way.Hits pcTag) :=
  inferInstanceAs (Decidable (_ ∧ _))

namespace BtbWay

variable {way : BtbWay}

theorem held_of_valid (valid : way.valid = true) :
    way.held = [(way.pcTag, way.target)] := if_pos valid

theorem held_of_invalid (invalid : way.valid = false) :
    way.held = [] := if_neg (Bool.eq_false_iff.mp invalid)

theorem length_held_le (way : BtbWay) : way.held.length ≤ 1 := by
  cases valid : way.valid with
  | true => rw [held_of_valid valid]; exact Nat.le_refl 1
  | false => rw [held_of_invalid valid]; exact Nat.zero_le 1

theorem mem_held {entry : BtbEntry} (member : entry ∈ way.held) :
    way.Hits entry.1 := by
  cases valid : way.valid with
  | true =>
      rw [held_of_valid valid, List.mem_singleton] at member
      rw [member]
      exact ⟨valid, rfl⟩
  | false =>
      rw [held_of_invalid valid] at member
      exact absurd member List.not_mem_nil

end BtbWay

namespace BranchPred

/-- The entries of a set from way 0 on. -/
def entries (ways : Fin 4 → BtbWay) : List BtbEntry :=
  (ways 0).held ++ ((ways 1).held ++ ((ways 2).held ++ (ways 3).held))

/-- The entry that a uop puts in front. -/
def entryOf (uop : MicroOp) : BtbEntry := (btbTag uop.pc, uop.brAddr)

/-- The uop's entry is in way 0 of its set, the other entries keep their
order behind it up to the four ways, and the other sets stay. -/
structure UsedLast (before after : BranchPred) (uop : MicroOp) : Prop where
  front : after.btb (btbEntry uop.pc) 0 =
    { valid := true, pcTag := btbTag uop.pc, target := uop.brAddr }
  list : entries (after.btb (btbEntry uop.pc)) =
    touch 4 (entryOf uop) (entries (before.btb (btbEntry uop.pc)))
  others : ∀ set, set ≠ btbEntry uop.pc → after.btb set = before.btb set

/-- The tag is in way 0, or it is nowhere in the set, way 0 is empty and
`LRU` is 0. -/
def InFront (state : Training) (uop : MicroOp) : Prop :=
  let ways := state.tables.btb (btbEntry uop.pc)
  (ways 0).Hits (btbTag uop.pc) ∨
    ((∀ j, ¬ (ways j).Hits (btbTag uop.pc)) ∧ (ways 0).valid = false ∧
      state.lru = 0)

instance (state : Training) (uop : MicroOp) : Decidable (InFront state uop) :=
  inferInstanceAs (Decidable (_ ∨ _ ∧ _ ∧ _))

section Ways

variable {ways : Fin 4 → BtbWay} {way : BtbWay} {pcTag : BitVec 23}
  {lru : BitVec 2}

theorem mem_entries {entry : BtbEntry} (member : entry ∈ entries ways) :
    ∃ j, (ways j).Hits entry.1 := by
  unfold entries at member
  simp only [List.mem_append] at member
  rcases member with first | second | third | fourth
  · exact ⟨0, BtbWay.mem_held first⟩
  · exact ⟨1, BtbWay.mem_held second⟩
  · exact ⟨2, BtbWay.mem_held third⟩
  · exact ⟨3, BtbWay.mem_held fourth⟩

/-- The entries behind way 0. -/
def behind (ways : Fin 4 → BtbWay) : List BtbEntry :=
  (ways 1).held ++ ((ways 2).held ++ (ways 3).held)

theorem entries_eq (ways : Fin 4 → BtbWay) :
    entries ways = (ways 0).held ++ behind ways := rfl

theorem length_behind_le (ways : Fin 4 → BtbWay) :
    (behind ways).length ≤ 3 := by
  have second := (ways 1).length_held_le
  have third := (ways 2).length_held_le
  have fourth := (ways 3).length_held_le
  simp only [behind, List.length_append]
  omega

theorem length_entries_le (ways : Fin 4 → BtbWay) :
    (entries ways).length ≤ 4 := by
  have first := (ways 0).length_held_le
  have rest := length_behind_le ways
  rw [entries_eq, List.length_append]
  omega

theorem findLru_cases (ways : Fin 4 → BtbWay) (pcTag : BitVec 23)
    (lru : BitVec 2) :
    (∃ j, (ways j).Hits pcTag ∧ (∀ i < j, ¬ (ways i).Hits pcTag) ∧
      findLru ways pcTag lru = BitVec.ofNat 2 j.val) ∨
    ((∀ j, ¬ (ways j).Hits pcTag) ∧ findLru ways pcTag lru = lru) := by
  refine forLoop_rule
    (fun count current => current = lru ∧
      ∀ j : Fin 4, j.val < count → ¬ (ways j).Hits pcTag)
    (fun last =>
      (∃ j, (ways j).Hits pcTag ∧ (∀ i < j, ¬ (ways i).Hits pcTag) ∧
        last = BitVec.ofNat 2 j.val) ∨
      ((∀ j, ¬ (ways j).Hits pcTag) ∧ last = lru)) ?_ ?_ ?_
  · exact ⟨rfl, fun _ below => absurd below (Nat.not_lt_zero _)⟩
  · rintro j current ⟨same, missed⟩
    by_cases hits : (ways j).valid = true ∧ (ways j).pcTag = pcTag
    · simp only [if_pos hits]
      exact .inl ⟨j, hits, fun i before => missed i before, rfl⟩
    · simp only [if_neg hits]
      refine ⟨same, fun i below => ?_⟩
      rcases Nat.lt_succ_iff_lt_or_eq.mp below with before | equal
      · exact missed i before
      · rw [Fin.ext equal]
        exact hits
  · rintro current ⟨same, missed⟩
    exact .inr ⟨fun j => missed j j.isLt, same⟩

/-- The loop that moves the ways up copies the new entry. -/
theorem pushWay_apply (ways : Fin 4 → BtbWay) (way : BtbWay)
    (lru : BitVec 2) (j : Fin 4) :
    pushWay ways way lru j = if j.val ≤ lru.toNat then way else ways j := by
  have reached : ∀ j : Fin 4, pushWay ways way lru j =
      if j.val ≤ min lru.toNat 3 then way else ways j := by
    refine forEach_rule
      (fun count (current : Fin 4 → BtbWay) => ∀ j, current j =
        if j.val ≤ min lru.toNat count then way else ways j) ?_ ?_
    · intro j
      by_cases first : j = 0
      · subst first
        exact (Function.update_self _ _ _).trans
          (if_pos (Nat.zero_le _)).symm
      · rw [Function.update_of_ne first, if_neg]
        have later : j.val ≠ 0 := fun zero => first (Fin.ext zero)
        omega
    · intro i current sofar j
      by_cases moves : i.val + 1 < lru.toNat + 1
      · rw [if_pos moves]
        by_cases here : j = i.succ
        · subst here
          rw [Function.update_self, sofar, if_pos, if_pos]
          · rw [Fin.val_succ]
            omega
          · rw [Fin.val_castSucc]
            omega
        · have other : j.val ≠ i.val + 1 := fun same => here (Fin.ext same)
          rw [Function.update_of_ne here, sofar]
          congr 1
          rw [eq_iff_iff]
          omega
      · rw [if_neg moves, sofar]
        congr 1
        rw [eq_iff_iff]
        omega
  have bound := lru.isLt
  have last := j.isLt
  rw [reached]
  congr 1
  rw [eq_iff_iff]
  omega

/-- With `LRU` at 0 only way 0 is written. -/
theorem entries_pushWay_zero (valid : way.valid = true) :
    entries (pushWay ways way 0) = (way.pcTag, way.target) :: behind ways := by
  have first : pushWay ways way 0 0 = way := pushWay_apply ways way 0 0
  have rest : behind (pushWay ways way 0) = behind ways := by
    unfold behind
    rw [pushWay_apply, pushWay_apply, pushWay_apply]
    rfl
  rw [entries_eq, first, rest, BtbWay.held_of_valid valid]
  rfl

/-- Otherwise the new entry is in way 1 as well. -/
theorem entries_pushWay_twice (valid : way.valid = true) (later : lru ≠ 0) :
    ¬ ((entries (pushWay ways way lru)).map Prod.fst).Nodup := by
  have positive : 0 < lru.toNat := by
    apply Nat.pos_of_ne_zero
    intro zero
    exact later (BitVec.eq_of_toNat_eq zero)
  have first : pushWay ways way lru 0 = way :=
    (pushWay_apply ways way lru 0).trans (if_pos (Nat.zero_le _))
  have second : pushWay ways way lru 1 = way :=
    (pushWay_apply ways way lru 1).trans (if_pos positive)
  intro distinct
  rw [entries, first, second, BtbWay.held_of_valid valid] at distinct
  exact (List.nodup_cons.mp distinct).1 List.mem_cons_self

theorem pushWay_ne_touch (distinct : ((entries ways).map Prod.fst).Nodup)
    (valid : way.valid = true) (later : lru ≠ 0) :
    entries (pushWay ways way lru) ≠
      touch 4 (way.pcTag, way.target) (entries ways) := by
  intro same
  apply entries_pushWay_twice valid later
  rw [same]
  exact nodup_touch distinct

theorem touch_hit (distinct : ((entries ways).map Prod.fst).Nodup)
    (hits : (ways 0).Hits pcTag) (target : Word) :
    touch 4 (pcTag, target) (entries ways) =
      (pcTag, target) :: behind ways := by
  have front : entries ways = (pcTag, (ways 0).target) :: behind ways := by
    rw [entries_eq, BtbWay.held_of_valid hits.1, hits.2]
    rfl
  have others : ∀ other ∈ behind ways, other.1 ≠ pcTag := by
    intro other member same
    rw [front] at distinct
    apply (List.nodup_cons.mp distinct).1
    exact List.mem_map.mpr ⟨other, member, same⟩
  rw [front]
  exact touch_front others (Nat.lt_succ_of_le (length_behind_le ways))

theorem fresh_of_missed (missed : ∀ j, ¬ (ways j).Hits pcTag) :
    ∀ other ∈ entries ways, other.1 ≠ pcTag := by
  intro other member same
  obtain ⟨j, hits⟩ := mem_entries member
  exact missed j (same ▸ hits)

/-- A new tag goes in front of what is behind way 0 exactly when way 0 is
empty: otherwise the entry of way 0 is lost. -/
theorem touch_missed_iff (distinct : ((entries ways).map Prod.fst).Nodup)
    (missed : ∀ j, ¬ (ways j).Hits pcTag) (target : Word) :
    touch 4 (pcTag, target) (entries ways) =
        (pcTag, target) :: behind ways ↔
      (ways 0).valid = false := by
  have fresh := fresh_of_missed missed
  cases full : (ways 0).valid with
  | false =>
      have same : entries ways = behind ways := by
        rw [entries_eq, BtbWay.held_of_invalid full]
        rfl
      rw [same] at fresh ⊢
      exact iff_of_true
        (touch_new fresh (Nat.lt_succ_of_le (length_behind_le ways))) rfl
  | true =>
      have front : entries ways =
          ((ways 0).pcTag, (ways 0).target) :: behind ways := by
        rw [entries_eq, BtbWay.held_of_valid full]
        rfl
      rw [front] at distinct fresh ⊢
      exact iff_of_false (touch_new_ne distinct fresh (by decide))
        Bool.true_eq_false.mp

/-- A set of distinct tags is updated as it should be exactly when the search
ends at way 0 for one of the two reasons. -/
theorem pushWay_touch_iff (distinct : ((entries ways).map Prod.fst).Nodup)
    (way : BtbWay) (valid : way.valid = true) (lru : BitVec 2) :
    entries (pushWay ways way (findLru ways way.pcTag lru)) =
        touch 4 (way.pcTag, way.target) (entries ways) ↔
      (ways 0).Hits way.pcTag ∨
        ((∀ j, ¬ (ways j).Hits way.pcTag) ∧ (ways 0).valid = false ∧
          lru = 0) := by
  rcases findLru_cases ways way.pcTag lru with
    ⟨j, hits, earlier, found⟩ | ⟨missed, carried⟩
  · rw [found]
    by_cases first : j = 0
    · subst first
      rw [touch_hit distinct hits]
      exact iff_of_true (entries_pushWay_zero valid) (.inl hits)
    · have later : BitVec.ofNat 2 j.val ≠ 0 := by
        intro zero
        have bound := j.isLt
        have position := congrArg BitVec.toNat zero
        rw [BitVec.toNat_ofNat, Nat.mod_eq_of_lt bound] at position
        exact first (Fin.ext position)
      apply iff_of_false (pushWay_ne_touch distinct valid later)
      rintro (front | ⟨missed, -⟩)
      · exact earlier 0 (Fin.pos_iff_ne_zero.mpr first) front
      · exact missed j hits
  · rw [carried]
    by_cases zero : lru = 0
    · subst zero
      rw [entries_pushWay_zero valid, eq_comm,
        touch_missed_iff distinct missed]
      constructor
      · intro empty
        exact .inr ⟨missed, empty, rfl⟩
      · rintro (front | ⟨-, empty, -⟩)
        · exact absurd front (missed 0)
        · exact empty
    · apply iff_of_false (pushWay_ne_touch distinct valid zero)
      rintro (front | ⟨-, -, none⟩)
      · exact missed 0 front
      · exact zero none

end Ways

/-! ## Bundles -/

/-- The inputs of a cycle of `branch_pred`. -/
structure PredictorInput where
  reset : Bool
  pc : Word
  isBranch : Fin 4 → Bool
  isValid : Fin 4 → Bool
  uopRetire : Fin 6 → MicroOp

/-- The iterations of the training loop, each with the state before it. -/
def processed (tables : BranchPred) (input : PredictorInput) :
    List (Fin 6 × Training) :=
  visits 6 (fun i state => trainLane (input.uopRetire i) state)
    { tables := tables, lru := 3, mispredict := false
      nextPc := input.pc + 16 }

/-- Each uop that is processed is made the last used one of its set. -/
def UsedInTurn (tables : BranchPred) (input : PredictorInput) : Prop :=
  ∀ visit ∈ tables.processed input, Trains (input.uopRetire visit.1) →
    UsedLast visit.2.tables
      (trainLane (input.uopRetire visit.1) visit.2).reached.tables
      (input.uopRetire visit.1)

/-- Each uop that is processed finds its set as `InFront` says. -/
def AllInFront (tables : BranchPred) (input : PredictorInput) : Prop :=
  ∀ visit ∈ tables.processed input, Trains (input.uopRetire visit.1) →
    InFront visit.2 (input.uopRetire visit.1)

instance (tables : BranchPred) (input : PredictorInput) :
    Decidable (tables.AllInFront input) :=
  inferInstanceAs (Decidable (∀ visit ∈ tables.processed input, _ → _))

/-- The tags of each set are pairwise different. -/
def Distinct (tables : BranchPred) : Prop :=
  ∀ set, ((entries (tables.btb set)).map Prod.fst).Nodup

section Bundle

variable {tables : BranchPred} {input : PredictorInput}

theorem usedLast_iff {state : Training} {uop : MicroOp}
    (distinct : state.tables.Distinct) (trains : Trains uop) :
    UsedLast state.tables (trainLane uop state).reached.tables uop ↔
      InFront state uop := by
  have updated := (trainLane_processed state trains).1
  have list := pushWay_touch_iff (distinct (btbEntry uop.pc))
    { valid := true, pcTag := btbTag uop.pc, target := uop.brAddr } rfl
    state.lru
  rw [updated]
  constructor
  · intro used
    have same := used.list
    simp only [Function.update_self] at same
    exact list.mp same
  · intro front
    constructor
    · simp only [Function.update_self]
      rw [pushWay_apply]
      exact if_pos (Nat.zero_le _)
    · simp only [Function.update_self]
      exact list.mpr front
    · intro set other
      simp only [Function.update_of_ne other]
      rfl

theorem UsedLast.entries {before after : BranchPred} {uop : MicroOp}
    (used : UsedLast before after uop) (set : BitVec 5) :
    BranchPred.entries (after.btb set) =
      if set = btbEntry uop.pc then
        touch 4 (entryOf uop) (BranchPred.entries (before.btb set))
      else BranchPred.entries (before.btb set) := by
  by_cases here : set = btbEntry uop.pc
  · rw [if_pos here, here, used.list]
  · rw [if_neg here, used.others set here]

theorem UsedLast.distinct {before after : BranchPred} {uop : MicroOp}
    (used : UsedLast before after uop) (distinct : before.Distinct) :
    after.Distinct := by
  intro set
  rw [used.entries]
  split
  · exact nodup_touch (distinct set)
  · exact distinct set

/-- A bundle uses its entries in turn exactly when each finds its set so. -/
theorem usedInTurn_iff (distinct : tables.Distinct) :
    tables.UsedInTurn input ↔ tables.AllInFront input := by
  apply visits_iff (fun state : Training => state.tables.Distinct)
    (fun i state => Trains (input.uopRetire i) →
      UsedLast state.tables
        (trainLane (input.uopRetire i) state).reached.tables
        (input.uopRetire i))
    (fun i state => Trains (input.uopRetire i) →
      InFront state (input.uopRetire i))
    distinct
  · intro i state distinct
    exact forall_congr' fun trains => usedLast_iff distinct trains
  · intro i state distinct used
    by_cases trains : Trains (input.uopRetire i)
    · exact (used trains).distinct distinct
    · rw [trainLane_skipped state trains]
      exact distinct

theorem distinct_resetState : resetState.Distinct := fun _ => List.nodup_nil

/-- After a reset no branch-type uop can be used in turn. -/
theorem usedInTurn_resetState (input : PredictorInput) :
    resetState.UsedInTurn input ↔
      ∀ visit ∈ resetState.processed input,
        ¬ Trains (input.uopRetire visit.1) := by
  rw [usedInTurn_iff distinct_resetState]
  apply visits_iff
    (fun state : Training => state.tables = resetState ∧ state.lru = 3)
    (fun i state => Trains (input.uopRetire i) →
      InFront state (input.uopRetire i))
    (fun i _ => ¬ Trains (input.uopRetire i))
    ⟨rfl, rfl⟩
  · rintro i state ⟨empty, last⟩
    have behind : ¬ InFront state (input.uopRetire i) := by
      unfold InFront
      rw [empty, last]
      rintro (front | ⟨-, -, zero⟩)
      · exact absurd front.1 Bool.false_ne_true
      · exact absurd zero (by decide)
    constructor
    · intro front trains
      exact behind (front trains)
    · intro never trains
      exact absurd trains never
  · rintro i state ⟨empty, last⟩ front
    by_cases trains : Trains (input.uopRetire i)
    · have found := front trains
      unfold InFront at found
      rw [empty, last] at found
      rcases found with front | ⟨-, -, zero⟩
      · exact absurd front.1 Bool.false_ne_true
      · exact absurd zero (by decide)
    · rw [trainLane_skipped state trains]
      exact ⟨empty, last⟩

end Bundle

end BranchPred

/-! ## Runs -/

/-- `branch_pred` beside the entries that were put in front of each set. -/
structure PredictorSystem where
  tables : BranchPred
  used : BitVec 5 → List BtbEntry

namespace PredictorSystem

open BranchPred

/-- A uop that is processed is noted at its set. -/
def record (input : PredictorInput) (visit : Fin 6 × Training)
    (used : BitVec 5 → List BtbEntry) : BitVec 5 → List BtbEntry :=
  let uop := input.uopRetire visit.1
  if Trains uop then
    Function.update used (btbEntry uop.pc)
      (used (btbEntry uop.pc) ++ [entryOf uop])
  else used

def next (system : PredictorSystem) (input : PredictorInput) :
    PredictorSystem :=
  { tables := system.tables.next input.reset input.pc input.isBranch
      input.isValid input.uopRetire
    used :=
      if input.reset then fun _ => []
      else (system.tables.processed input).foldl
        (fun used visit => record input visit used) system.used }

/-- Tables with distinct tags; the entries that are there count as put in
front in turn. -/
def start (system : PredictorSystem) : Prop :=
  system.tables.Distinct ∧
    ∀ set, system.used set = (entries (system.tables.btb set)).reverse

/-- The cycle resets, or its branches are in front. -/
def Allowed (system : PredictorSystem) (input : PredictorInput) : Prop :=
  input.reset = true ∨ system.tables.AllInFront input

/-- Each set is the list of the entries used last. -/
def Kept (tables : BranchPred) (used : BitVec 5 → List BtbEntry) : Prop :=
  ∀ set, entries (tables.btb set) = touchAll 4 [] (used set)

theorem Kept.distinct {tables : BranchPred}
    {used : BitVec 5 → List BtbEntry} (kept : Kept tables used) :
    tables.Distinct := by
  intro set
  have none : (([] : List BtbEntry).map Prod.fst).Nodup := List.nodup_nil
  rw [kept set]
  exact nodup_touchAll none _

theorem kept_start {system : PredictorSystem} (started : system.start) :
    Kept system.tables system.used := by
  intro set
  rw [started.2, touchAll_reverse (started.1 set)]
  exact length_entries_le _

theorem Kept.record {input : PredictorInput} {i : Fin 6} {state : Training}
    {used : BitVec 5 → List BtbEntry}
    (ordered : Trains (input.uopRetire i) →
      UsedLast state.tables
        (trainLane (input.uopRetire i) state).reached.tables
        (input.uopRetire i))
    (kept : Kept state.tables used) :
    Kept (trainLane (input.uopRetire i) state).reached.tables
      (PredictorSystem.record input (i, state) used) := by
  unfold PredictorSystem.record
  by_cases trains : Trains (input.uopRetire i)
  · intro set
    rw [(ordered trains).entries, if_pos trains]
    by_cases here : set = btbEntry (input.uopRetire i).pc
    · rw [if_pos here, here, Function.update_self, touchAll_concat, kept]
    · rw [if_neg here, Function.update_of_ne here]
      exact kept set
  · rw [trainLane_skipped state trains, if_neg trains]
    exact kept

theorem Kept.next {system : PredictorSystem} {input : PredictorInput}
    (kept : Kept system.tables system.used)
    (allowed : system.Allowed input) :
    Kept (system.next input).tables (system.next input).used := by
  unfold PredictorSystem.next BranchPred.next
  cases resets : input.reset with
  | true =>
      intro set
      rfl
  | false =>
      have ordered : system.tables.UsedInTurn input := by
        rcases allowed with reset | front
        · rw [resets] at reset
          exact absurd reset Bool.false_ne_true
        · exact (usedInTurn_iff kept.distinct).mpr front
      exact visits_record
        (fun (state : Training) used => Kept state.tables used)
        (PredictorSystem.record input) kept
        (fun _ _ _ used related => related.record used) ordered

theorem kept_of_run {system : PredictorSystem}
    (run : Run start PredictorSystem.next Allowed system) :
    Kept system.tables system.used :=
  run.invariant (fun system => Kept system.tables system.used)
    (fun _ => kept_start) fun _ _ kept allowed => kept.next allowed

/-- As long as the branches that retire are in front of their sets, each set
lists the entries used last, its tags are distinct and an entry stays until
four others of its set have been used after it; a further bundle uses its
entries in turn exactly when they are in front, which after a reset no branch
is. -/
theorem sets_list_last_used {system : PredictorSystem}
    (run : Run start next Allowed system) :
    (∀ set, entries (system.tables.btb set) = touchAll 4 [] (system.used set)) ∧
      system.tables.Distinct ∧
      (∀ set before entry later,
        system.used set = before ++ entry :: later →
        (∀ other ∈ later, other.1 ≠ entry.1) → later.length < 4 →
        entry ∈ entries (system.tables.btb set)) ∧
      (∀ input, system.tables.UsedInTurn input ↔
        system.tables.AllInFront input) ∧
      ∀ input, resetState.UsedInTurn input ↔
        ∀ visit ∈ resetState.processed input,
          ¬ Trains (input.uopRetire visit.1) := by
  have kept := kept_of_run run
  refine ⟨kept, kept.distinct, ?_, ?_, usedInTurn_resetState⟩
  · intro set before entry later split others few
    rw [kept set, split, touchAll_append]
    exact mem_touchAll others few
  · intro input
    exact usedInTurn_iff kept.distinct

/-- A cycle in which the branch at address 0 is taken to address 8. -/
def branchAtZero : PredictorInput :=
  { reset := false, pc := 0, isBranch := fun _ => false
    isValid := fun _ => false
    uopRetire := fun lane =>
      { (0 : MicroOp) with
        valid := decide (lane.val = 0), brType := .eq, brTaken := true
        brAddr := 8 } }

/-- The branch at address 0 is in way 0 of its set. -/
def oneEntry : PredictorSystem :=
  { tables :=
      { bht := resetState.bht, pht := resetState.pht
        btb := Function.update resetState.btb 0
          (Function.update (resetState.btb 0) 0
            { valid := true, pcTag := 0, target := 4 }) }
    used := Function.update (fun _ => []) 0 [(0, 4)] }

theorem oneEntry_start : oneEntry.start := by
  have elsewhere : ∀ set ≠ 0, entries (oneEntry.tables.btb set) = [] := by
    intro set other
    simp only [oneEntry, Function.update_of_ne other]
    rfl
  constructor
  · intro set
    by_cases here : set = 0
    · subst here
      decide
    · rw [elsewhere set here]
      exact List.nodup_nil
  · intro set
    by_cases here : set = 0
    · subst here
      decide
    · rw [elsewhere set here]
      simp only [oneEntry, Function.update_of_ne here]
      rfl

theorem sets_list_last_used_again :
    entries ((oneEntry.next branchAtZero).tables.btb 0) =
        touchAll 4 [] ((oneEntry.next branchAtZero).used 0) ∧
      (oneEntry.next branchAtZero).tables.Distinct := by
  have listed := sets_list_last_used
    (.step branchAtZero (.start oneEntry_start) (.inr (by decide +kernel)))
  exact ⟨listed.1 0, listed.2.1⟩

/-- The first branch after a reset is in two ways of its set. -/
theorem first_branch_fills_its_set :
    let system := next { tables := resetState, used := fun _ => [] }
      branchAtZero
    ¬ resetState.UsedInTurn branchAtZero ∧ ¬ system.tables.Distinct ∧
      system.tables.btb 0 1 = system.tables.btb 0 0 ∧
      (system.tables.btb 0 1).valid = true := by
  refine ⟨?_, ?_, ?_, ?_⟩
  · rw [usedInTurn_iff distinct_resetState]
    decide +kernel
  · intro distinct
    have tags := distinct 0
    revert tags
    decide +kernel
  · rfl
  · rfl

end PredictorSystem

end Ria
