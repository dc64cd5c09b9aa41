import Mathlib.Data.List.Find
import Mathlib.Order.WellFounded
import Ria.Frontend.BtbSets
import Ria.Frontend.PredictedLane

/-!
# Where a predicted target was learned

A way of the target buffer is found by `pc[6:2]` and `pc[31:9]`, and holds the
target of whatever branch-type uop has last been trained with these bits,
taken or not.  Older copies of a tag stay behind when fewer ways than they
fill are overwritten.
-/

namespace Ria

open Hdl

namespace BranchPred

/-! ## The first way that holds a tag -/

def FirstHit (ways : Fin 4 → BtbWay) (pcTag : BitVec 23) (j : Fin 4) : Prop :=
  (ways j).Hits pcTag ∧ ∀ i < j, ¬ (ways i).Hits pcTag

instance (ways : Fin 4 → BtbWay) (pcTag : BitVec 23) (j : Fin 4) :
    Decidable (FirstHit ways pcTag j) :=
  inferInstanceAs (Decidable (_ ∧ _))

/-- The first one among the ways that are not overwritten. -/
def FirstBehind (ways : Fin 4 → BtbWay) (lru : BitVec 2) (pcTag : BitVec 23)
    (j : Fin 4) : Prop :=
  lru.toNat < j.val ∧ (ways j).Hits pcTag ∧
    ∀ i < j, lru.toNat < i.val → ¬ (ways i).Hits pcTag

instance (ways : Fin 4 → BtbWay) (lru : BitVec 2) (pcTag : BitVec 23)
    (j : Fin 4) : Decidable (FirstBehind ways lru pcTag j) :=
  inferInstanceAs (Decidable (_ ∧ _))

/-- Where the first copy of another tag is overwritten, no copy with another
target stays behind. -/
def NoneStale (ways : Fin 4 → BtbWay) (pcTag : BitVec 23) (lru : BitVec 2) :
    Prop :=
  ∀ front behind : Fin 4, front.val ≤ lru.toNat →
    (ways behind).pcTag ≠ pcTag →
    FirstHit ways (ways behind).pcTag front →
    FirstBehind ways lru (ways behind).pcTag behind →
    (ways front).target = (ways behind).target

instance (ways : Fin 4 → BtbWay) (pcTag : BitVec 23) (lru : BitVec 2) :
    Decidable (NoneStale ways pcTag lru) :=
  inferInstanceAs (Decidable (∀ _ _ : Fin 4, _ → _ → _ → _ → _))

section Ways

variable {ways : Fin 4 → BtbWay} {way : BtbWay} {pcTag : BitVec 23}
  {lru : BitVec 2}

theorem exists_firstHit {j : Fin 4} (hits : (ways j).Hits pcTag) :
    ∃ i ≤ j, FirstHit ways pcTag i := by
  obtain ⟨i, here, least⟩ :=
    wellFounded_lt.has_min {i | (ways i).Hits pcTag} ⟨j, hits⟩
  exact ⟨i, not_lt.mp (least j hits), here,
    fun before below hit => least before hit below⟩

theorem hitWay_eq_some {tables : BranchPred} {pc : Word} {lane j : Fin 4}
    (found : hitWay tables pc lane = some j) :
    FirstHit (tables.btb (btbEntry pc + BitVec.ofNat 5 lane.val)) (btbTag pc)
      j := by
  revert found
  unfold hitWay
  refine forLoop_rule
    (fun count (found : Option (Fin 4)) => found = none ∧
      ∀ i : Fin 4, i.val < count →
        ¬ (tables.btb (btbEntry pc + BitVec.ofNat 5 lane.val) i).Hits
          (btbTag pc))
    (fun found => found = some j →
      FirstHit (tables.btb (btbEntry pc + BitVec.ofNat 5 lane.val))
        (btbTag pc) j)
    ⟨rfl, fun _ below => absurd below (Nat.not_lt_zero _)⟩ ?_ ?_
  · rintro i found ⟨none, missed⟩
    by_cases hits : (tables.btb (btbEntry pc + BitVec.ofNat 5 lane.val)
        i).valid = true ∧
        (tables.btb (btbEntry pc + BitVec.ofNat 5 lane.val) i).pcTag =
          btbTag pc
    · simp only [if_pos hits]
      intro same
      obtain rfl := Option.some.inj same
      exact ⟨hits, fun before => missed before⟩
    · simp only [if_neg hits]
      refine ⟨none, fun other below => ?_⟩
      rcases Nat.lt_succ_iff_lt_or_eq.mp below with before | equal
      · exact missed other before
      · rw [Fin.ext equal]
        exact hits
  · rintro found ⟨none, -⟩ same
    rw [none] at same
    cases same

theorem firstHit_pushWay {g : BitVec 23} {j : Fin 4} (valid : way.valid = true)
    (hit : FirstHit (pushWay ways way lru) g j) :
    g = way.pcTag ∧ (pushWay ways way lru j) = way ∨
      g ≠ way.pcTag ∧ FirstBehind ways lru g j ∧
        pushWay ways way lru j = ways j := by
  have pushed := pushWay_apply ways way lru
  have written : pushWay ways way lru 0 = way :=
    (pushed 0).trans (if_pos (Nat.zero_le _))
  by_cases same : g = way.pcTag
  · left
    have front : (pushWay ways way lru 0).Hits g := by
      rw [written]
      exact ⟨valid, same.symm⟩
    have first : j = 0 := by
      by_contra later
      exact hit.2 0 (Fin.pos_iff_ne_zero.mpr later) front
    rw [first]
    exact ⟨same, written⟩
  · right
    have kept : lru.toNat < j.val := by
      by_contra within
      have here := hit.1
      rw [pushed, if_pos (not_lt.mp within)] at here
      exact same here.2.symm
    have here : pushWay ways way lru j = ways j := by
      rw [pushed, if_neg (not_le.mpr kept)]
    refine ⟨same, ⟨kept, here ▸ hit.1, ?_⟩, here⟩
    intro i before behind hits
    apply hit.2 i before
    rw [pushed, if_neg (not_le.mpr behind)]
    exact hits

theorem NoneStale.kept {g : BitVec 23} {j : Fin 4}
    (clean : NoneStale ways pcTag lru) (other : g ≠ pcTag)
    (behind : FirstBehind ways lru g j) :
    ∃ front, FirstHit ways g front ∧
      (ways front).target = (ways j).target := by
  obtain ⟨front, ordered, first⟩ := exists_firstHit behind.2.1
  refine ⟨front, first, ?_⟩
  obtain rfl := behind.2.1.2
  rcases Nat.lt_or_ge lru.toNat front.val with kept | overwritten
  · rcases lt_or_eq_of_le ordered with before | rfl
    · exact absurd first.1 (behind.2.2 front before kept)
    · rfl
  · exact clean front j overwritten other first behind

end Ways

/-! ## What the buffer was trained with -/

/-- The target of the last uop in a log, newest first, whose pc has these
bits. -/
def lastSharing (log : List MicroOp) (set : BitVec 5) (pcTag : BitVec 23) :
    Option Word :=
  (log.find? fun uop => btbEntry uop.pc == set && btbTag uop.pc == pcTag).map
    MicroOp.brAddr

/-- The target of the last taken one at an address. -/
def lastTaken (log : List MicroOp) (pc : Word) : Option Word :=
  (log.find? fun uop => uop.brTaken && uop.pc == pc).map MicroOp.brAddr

/-- Each tag is found with the target it was last trained with. -/
def Fresh (tables : BranchPred) (trained : List MicroOp) : Prop :=
  ∀ set pcTag j, FirstHit (tables.btb set) pcTag j →
    lastSharing trained set pcTag = some (tables.btb set j).target

/-- A uop that is processed goes into the log. -/
def recordTrained (input : PredictorInput) (visit : Fin 6 × Training)
    (trained : List MicroOp) : List MicroOp :=
  if Trains (input.uopRetire visit.1) then
    input.uopRetire visit.1 :: trained
  else trained

/-- The uop leaves no stale copy behind. -/
def LeavesNoneStale (state : Training) (uop : MicroOp) : Prop :=
  NoneStale (state.tables.btb (btbEntry uop.pc)) (btbTag uop.pc)
    (findLru (state.tables.btb (btbEntry uop.pc)) (btbTag uop.pc) state.lru)

instance (state : Training) (uop : MicroOp) :
    Decidable (LeavesNoneStale state uop) :=
  inferInstanceAs (Decidable (NoneStale _ _ _))

section Trained

variable {trained : List MicroOp} {uop : MicroOp} {set : BitVec 5}
  {pcTag : BitVec 23}

theorem lastSharing_same :
    lastSharing (uop :: trained) (btbEntry uop.pc) (btbTag uop.pc) =
      some uop.brAddr := by
  simp [lastSharing]

theorem lastSharing_other
    (other : ¬ (btbEntry uop.pc = set ∧ btbTag uop.pc = pcTag)) :
    lastSharing (uop :: trained) set pcTag =
      lastSharing trained set pcTag := by
  unfold lastSharing
  rw [List.find?_cons_of_neg]
  simpa using other

theorem fresh_resetState : Fresh resetState [] := by
  intro set pcTag j hit
  exact absurd hit.1.1 Bool.false_ne_true

theorem Fresh.trainLane {state : Training} (fresh : Fresh state.tables trained)
    (trains : Trains uop) (clean : LeavesNoneStale state uop) :
    Fresh (trainLane uop state).reached.tables (uop :: trained) := by
  have updated := (trainLane_processed state trains).1
  intro set pcTag j hit
  rw [updated] at hit ⊢
  by_cases here : set = btbEntry uop.pc
  · subst here
    simp only [Function.update_self] at hit ⊢
    rcases firstHit_pushWay rfl hit with ⟨rfl, same⟩ | ⟨other, behind, same⟩
    · rw [same]
      exact lastSharing_same
    · rw [same, lastSharing_other fun both => other both.2.symm]
      obtain ⟨front, first, target⟩ := clean.kept other behind
      exact (fresh _ _ front first).trans (congrArg some target)
  · simp only [Function.update_of_ne here] at hit ⊢
    rw [lastSharing_other fun both => here both.1.symm]
    exact fresh set pcTag j hit

end Trained

/-- The branch-type uops of the bundle, the last lane first. -/
def PredictorInput.branches (input : PredictorInput) : List MicroOp :=
  ((List.ofFn input.uopRetire).filter fun uop => Trains uop).reverse

/-- The pc of a lane. -/
def PredictorInput.lanePc (input : PredictorInput) (lane : Fin 4) : Word :=
  input.pc + BitVec.ofNat 32 (4 * lane.val)

end BranchPred

/-! ## Runs -/

open BranchPred

/-- `branch_pred` beside the branch-type uops retired since the last reset,
newest first, and those of them that it was trained with. -/
structure LearningSystem where
  tables : BranchPred
  retired : List MicroOp
  trained : List MicroOp

namespace LearningSystem

def start : LearningSystem :=
  { tables := resetState, retired := [], trained := [] }

section Cycle

variable (system : LearningSystem) (input : PredictorInput)

/-- The bundle of a cycle counts before its prediction is made. -/
def retire : LearningSystem :=
  { tables := (train system.tables input.pc input.uopRetire).tables
    retired := input.branches ++ system.retired
    trained := (system.tables.processed input).foldl
      (fun trained visit => recordTrained input visit trained)
      system.trained }

def next : LearningSystem :=
  if input.reset then start else system.retire input

def outputs : BranchPred.Outputs :=
  system.tables.comb input.pc input.isBranch input.isValid input.uopRetire

/-- The target of a lane predicted taken is that of the last taken branch-type
uop retired at its very pc. -/
def Learned : Prop :=
  ∀ lane, (system.outputs input).predictions lane = true →
    lastTaken (system.retire input).retired (input.lanePc lane) =
      some (system.outputs input).nextPc

/-- No uop that is processed leaves a stale copy behind. -/
def Clean : Prop :=
  ∀ visit ∈ system.tables.processed input, Trains (input.uopRetire visit.1) →
    LeavesNoneStale visit.2 (input.uopRetire visit.1)

/-- At the lane where the prediction loop stops, the uop last trained with its
index and the tag of the group has the target of the last taken one at its
pc. -/
def Unaliased : Prop :=
  (train system.tables input.pc input.uopRetire).mispredict = false →
    ∀ lane, (system.retire input).tables.StopsAt input.pc input.isBranch
        input.isValid lane →
      lastSharing (system.retire input).trained
          (btbEntry input.pc + BitVec.ofNat 5 lane.val) (btbTag input.pc) =
        lastTaken (system.retire input).retired (input.lanePc lane)

instance : Decidable (system.Learned input) :=
  inferInstanceAs (Decidable (∀ _ : Fin 4, _ → _))

instance : Decidable (system.Clean input) :=
  inferInstanceAs (Decidable (∀ visit ∈ system.tables.processed input, _ → _))

instance : Decidable (system.Unaliased input) :=
  inferInstanceAs (Decidable (_ → ∀ _ : Fin 4, _ → _))

end Cycle

section Step

variable {system : LearningSystem} {input : PredictorInput}

theorem fresh_retire (fresh : Fresh system.tables system.trained)
    (clean : system.Clean input) :
    Fresh (system.retire input).tables (system.retire input).trained := by
  have keeps : ∀ (i : Fin 6) (state : Training) trained,
      (Trains (input.uopRetire i) →
        LeavesNoneStale state (input.uopRetire i)) →
      Fresh state.tables trained →
      Fresh (trainLane (input.uopRetire i) state).reached.tables
        (recordTrained input (i, state) trained) := by
    intro i state trained clean fresh
    unfold recordTrained
    by_cases trains : Trains (input.uopRetire i)
    · rw [if_pos trains]
      exact fresh.trainLane trains (clean trains)
    · rw [if_neg trains, trainLane_skipped state trains]
      exact fresh
  exact visits_record (fun (state : Training) trained =>
    Fresh state.tables trained) (recordTrained input) fresh keeps clean

theorem fresh_next (fresh : Fresh system.tables system.trained)
    (clean : system.Clean input) :
    Fresh (system.next input).tables (system.next input).trained := by
  rw [next]
  split
  · exact fresh_resetState
  · exact fresh_retire fresh clean

/-- A lane that is predicted taken gets the target last trained. -/
theorem lastSharing_of_predicted
    (fresh : Fresh (system.retire input).tables (system.retire input).trained)
    {lane : Fin 4}
    (predicted : (system.outputs input).predictions lane = true) :
    lastSharing (system.retire input).trained
        (btbEntry input.pc + BitVec.ofNat 5 lane.val) (btbTag input.pc) =
      some (system.outputs input).nextPc := by
  obtain ⟨way, hit, target⟩ := (comb_predicted predicted).target
  exact (fresh _ _ way (hitWay_eq_some hit)).trans
    (congrArg some target.symm)

theorem learned_iff
    (fresh : Fresh (system.retire input).tables
      (system.retire input).trained) :
    system.Learned input ↔ system.Unaliased input := by
  constructor
  · intro learned quiet lane stops
    have predicted : (system.outputs input).predictions lane = true :=
      predicted_iff.mpr ⟨quiet, stops⟩
    rw [learned lane predicted]
    exact lastSharing_of_predicted fresh predicted
  · intro unaliased lane predicted
    obtain ⟨quiet, stops⟩ := predicted_iff.mp predicted
    rw [← unaliased quiet lane stops]
    exact lastSharing_of_predicted fresh predicted

end Step

/-! ### The kind of inputs -/

/-- The bits of a pc by which its entry is found. -/
def entryMask : Word := 0xfffffe7c

theorem entryMask_bit : ∀ i < 32, entryMask.getLsbD i = true ↔
    2 ≤ i ∧ i < 7 ∨ 9 ≤ i := by
  decide

/-- Two addresses have one entry exactly if they agree on these bits. -/
theorem same_entry_iff (one other : Word) :
    btbEntry one = btbEntry other ∧ btbTag one = btbTag other ↔
      one &&& entryMask = other &&& entryMask := by
  constructor
  · rintro ⟨entry, tag⟩
    apply BitVec.eq_of_getLsbD_eq
    intro i within
    rw [BitVec.getLsbD_and, BitVec.getLsbD_and]
    cases kept : entryMask.getLsbD i with
    | false => rw [Bool.and_false, Bool.and_false]
    | true =>
        rw [Bool.and_true, Bool.and_true]
        rcases (entryMask_bit i within).mp kept with ⟨low, high⟩ | low
        · have bit := congrArg (fun bits => bits.getLsbD (i - 2)) entry
          have inside : i - 2 < 5 := by omega
          have back : 2 + (i - 2) = i := by omega
          simpa [btbEntry, BitVec.getLsbD_extractLsb', inside, back] using bit
        · have bit := congrArg (fun bits => bits.getLsbD (i - 9)) tag
          have inside : i - 9 < 23 := by omega
          have back : 9 + (i - 9) = i := by omega
          simpa [btbTag, BitVec.getLsbD_extractLsb', inside, back] using bit
  · intro same
    have agree : ∀ i < 32, (2 ≤ i ∧ i < 7 ∨ 9 ≤ i) →
        one.getLsbD i = other.getLsbD i := by
      intro i within listed
      have bit := congrArg (fun bits => bits.getLsbD i) same
      simp only [BitVec.getLsbD_and, (entryMask_bit i within).mpr listed,
        Bool.and_true] at bit
      exact bit
    constructor
    · apply BitVec.eq_of_getLsbD_eq
      intro i within
      simp only [btbEntry, BitVec.getLsbD_extractLsb']
      rw [agree (2 + i) (by omega) (by omega)]
    · apply BitVec.eq_of_getLsbD_eq
      intro i within
      simp only [btbTag, BitVec.getLsbD_extractLsb']
      rw [agree (9 + i) (by omega) (by omega)]

theorem btbEntry_lanePc (input : PredictorInput) (lane : Fin 4) :
    btbEntry (input.lanePc lane) =
      btbEntry input.pc + BitVec.ofNat 5 lane.val := by
  have bound := lane.isLt
  apply BitVec.eq_of_toNat_eq
  simp only [btbEntry, PredictorInput.lanePc, BitVec.extractLsb'_toNat,
    BitVec.toNat_add, BitVec.toNat_ofNat, Nat.shiftRight_eq_div_pow]
  omega

/-- Nothing is aliased in a group within 512 bytes, if all that retired was
trained and whatever shares the entry of a lane is a taken branch at its
pc. -/
theorem unaliased_of_own {system : LearningSystem} {input : PredictorInput}
    (within : ∀ lane, btbTag (input.lanePc lane) = btbTag input.pc)
    (trained : (system.retire input).trained = (system.retire input).retired)
    (own : ∀ lane, ∀ uop ∈ (system.retire input).retired,
      uop.pc &&& entryMask = input.lanePc lane &&& entryMask →
        uop.brTaken = true ∧ uop.pc = input.lanePc lane) :
    system.Unaliased input := by
  intro _ lane _
  rw [trained, lastSharing, lastTaken, ← btbEntry_lanePc, ← within lane]
  apply congrArg (Option.map MicroOp.brAddr)
  apply List.find?_congr
  intro uop member
  rw [Bool.eq_iff_iff]
  simp only [Bool.and_eq_true, beq_iff_eq]
  constructor
  · intro shares
    exact own lane uop member ((same_entry_iff _ _).mp shares)
  · rintro ⟨-, same⟩
    rw [same]
    exact ⟨rfl, rfl⟩

/-- The system before each cycle of a run from reset. -/
def before (input : Nat → PredictorInput) (time : Nat) : LearningSystem :=
  states next start input time

theorem fresh_before (input : Nat → PredictorInput) (time : Nat)
    (clean : ∀ earlier < time, (before input earlier).Clean (input earlier)) :
    Fresh (before input time).tables (before input time).trained := by
  induction time with
  | zero => exact fresh_resetState
  | succ time induction =>
      have sofar := induction fun earlier below =>
        clean earlier (Nat.lt_succ_of_lt below)
      exact fresh_next sofar (clean time (Nat.lt_succ_self time))

/-- In a run whose bundles leave no stale copy behind, what a cycle predicts
was learned from that very branch exactly if the lane's entry was. -/
theorem learned_iff_unaliased (input : Nat → PredictorInput) (last : Nat)
    (clean : ∀ time ≤ last, (before input time).Clean (input time)) :
    ∀ time ≤ last,
      ((before input time).Learned (input time) ↔
        (before input time).Unaliased (input time)) := by
  intro time within
  have fresh := fresh_before input time fun earlier below =>
    clean earlier (le_trans (le_of_lt below) within)
  exact learned_iff (fresh_retire fresh (clean time within))

/-- A branch-type uop that retires with this outcome, predicted so. -/
def branchAt (pc : Word) (taken : Bool) (target : Word) : MicroOp :=
  { (0 : MicroOp) with
    pc := pc, valid := true, brType := .eq, brTaken := taken, brAddr := target
    predTaken := taken, predAddr := target }

/-- A cycle that retires these uops and predicts the group at `pc`, every word
of it a branch. -/
def retiring (uops : List MicroOp) (pc : Word) : PredictorInput :=
  { reset := false, pc := pc, isBranch := fun _ => true
    isValid := fun _ => true, uopRetire := fun lane => uops.getD lane.val 0 }

/-- A taken branch that retires twice is predicted by its own target. -/
theorem learned_iff_unaliased_twice :
    (before (fun _ => retiring [branchAt 0x1000 true 0x2000] 0x1000) 1).Learned
      (retiring [branchAt 0x1000 true 0x2000] 0x1000) := by
  refine (learned_iff_unaliased
    (fun _ => retiring [branchAt 0x1000 true 0x2000] 0x1000) 1 ?_ 1
    (Nat.le_refl 1)).mpr (by decide +kernel)
  intro time within
  rcases Nat.le_one_iff_eq_zero_or_eq_one.mp within with rfl | rfl
  · decide +kernel
  · decide +kernel

/-- After a reset: two branches that agree on `pc[31:9]` and `pc[6:2]`; a lane
behind the end of 512 bytes; a branch not taken; and a target that changes
before a miss in the same bundle. -/
theorem targets_not_learned :
    ¬ start.Learned (retiring
        [branchAt 0x1000 true 0x2000, branchAt 0x1080 true 0x3000] 0x1000) ∧
      ¬ start.Learned (retiring [branchAt 0x1000 true 0x2000] 0x11fc) ∧
      ¬ start.Learned (retiring
        [branchAt 0x1000 true 0x2000, branchAt 0x1080 false 0x1084]
        0x1000) ∧
      ¬ start.Learned (retiring
        [branchAt 0x1000 true 0x2000, branchAt 0x1000 true 0x2004,
          branchAt 0x1200 true 0x3000] 0x1000) := by
  refine ⟨?_, ?_, ?_, ?_⟩
  · decide +kernel
  · decide +kernel
  · decide +kernel
  · decide +kernel

end LearningSystem

end Ria
