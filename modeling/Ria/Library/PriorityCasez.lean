import Mathlib.Data.Nat.Count
import Ria.Library.PrioritySelect

/-!
# Selectors written as a chain of `casez` tables

An item of a `casez` matches when the bits it does not write as `?` are as
written.  A table whose items are `?..?1`, `?..?10`, `?..?100` and so on picks
the lowest set bit.  A chain of such selectors clears the bit picked by one
before the next looks; its outputs are the set bits in ascending order.
-/

namespace Hdl

/-- One item of a `casez`: the bits written out, their values, and what the
branch assigns. -/
structure CasezItem (width : Nat) (α : Type) where
  care : BitVec width
  value : BitVec width
  assigned : α

variable {width index : Nat} {α : Type}

def CasezItem.accepts (item : CasezItem width α) (bits : BitVec width) :
    Bool :=
  bits &&& item.care == item.value

/-- What the first matching item assigns; without one the default applies. -/
def casez (items : List (CasezItem width α)) (bits : BitVec width) : Option α :=
  (items.find? fun item => item.accepts bits).map CasezItem.assigned

/-! ## Priority tables -/

/-- The item `?..?10..0` with `i` zeros. -/
def priorityItem (assigned : Fin width → α) (i : Fin width) :
    CasezItem width α :=
  { care := BitVec.ofNat width (2 ^ (i.val + 1) - 1)
    value := BitVec.ofNat width (2 ^ i.val)
    assigned := assigned i }

/-- The items of a priority table, in order. -/
def priorityTable (assigned : Fin width → α) : List (CasezItem width α) :=
  (List.finRange width).map (priorityItem assigned)

theorem priorityItem_accepts {assigned : Fin width → α} {i : Fin width}
    {bits : BitVec width} :
    (priorityItem assigned i).accepts bits = true ↔
      bits.getLsb i = true ∧ ∀ j < i, bits.getLsb j = false := by
  have care : ∀ j < width,
      (BitVec.ofNat width (2 ^ (i.val + 1) - 1)).getLsbD j =
        decide (j ≤ i.val) := by
    intro j within
    rw [BitVec.getLsbD_ofNat, Nat.testBit_two_pow_sub_one]
    rw [decide_eq_true within, Bool.true_and]
    exact decide_eq_decide.mpr Nat.lt_succ_iff
  have value : ∀ j < width,
      (BitVec.ofNat width (2 ^ i.val)).getLsbD j = decide (i.val = j) := by
    intro j within
    rw [BitVec.getLsbD_ofNat, Nat.testBit_two_pow]
    simp [within]
  have pointwise : (priorityItem assigned i).accepts bits = true ↔
      ∀ j : Fin width, (bits.getLsb j && decide (j ≤ i)) = decide (i = j) := by
    rw [CasezItem.accepts, beq_iff_eq, priorityItem]
    constructor
    · intro same j
      have bit := congrArg (fun word => word.getLsbD j.val) same
      rw [BitVec.getLsbD_and, care j.val j.isLt, value j.val j.isLt] at bit
      simpa [Fin.ext_iff] using bit
    · intro same
      apply BitVec.eq_of_getLsbD_eq
      intro j within
      rw [BitVec.getLsbD_and, care j within, value j within]
      simpa [within, Fin.ext_iff, Fin.le_def] using same ⟨j, within⟩
  rw [pointwise]
  constructor
  · intro same
    constructor
    · simpa using same i
    · intro j below
      simpa [below.le, below.ne'] using same j
  · rintro ⟨set, clear⟩ j
    rcases lt_trichotomy j i with below | rfl | above
    · rw [clear j below, Bool.false_and]
      simpa using below.ne'
    · rw [set]
      simp
    · simp [above.ne, above.not_ge]

/-- A priority table picks the lowest set bit. -/
theorem casez_priorityTable (assigned : Fin width → α) (bits : BitVec width) :
    casez (priorityTable assigned) bits =
      (lowest bits.getLsb).map assigned := by
  have picked : (List.finRange width).find?
      (fun i => (priorityItem assigned i).accepts bits) =
        lowest bits.getLsb := by
    cases first : lowest bits.getLsb with
    | none =>
        apply List.find?_eq_none.mpr
        intro i _ accepted
        have set := (priorityItem_accepts.mp accepted).1
        rw [lowest_eq_none.mp first i] at set
        contradiction
    | some i =>
        have lowestFacts := lowest_eq_some first
        obtain ⟨-, before, after, split, clear⟩ :=
          List.find?_eq_some_iff_append.mp first
        apply List.find?_eq_some_iff_append.mpr
        refine ⟨priorityItem_accepts.mpr lowestFacts, before, after, split, ?_⟩
        intro j member
        have unset := clear j member
        by_contra accepted
        have set := (priorityItem_accepts.mp (by simpa using accepted)).1
        rw [set] at unset
        contradiction
  rw [casez, priorityTable, List.find?_map, Option.map_map]
  exact congrArg (Option.map assigned) picked

/-! ## Chains -/

/-- An output of a selector: the index picked, and whether one is. -/
structure Grant (index : Nat) where
  sel : BitVec index
  selValid : Bool

/-- The `casez` with the default that grants nothing. -/
def grant (items : List (CasezItem width (BitVec index)))
    (readys : BitVec width) : Grant index :=
  match casez items readys with
  | some sel => { sel := sel, selValid := true }
  | none => { sel := 0, selValid := false }

/-- The valid bit shifted to the index, at the width of the requests. -/
def Grant.bit (out : Grant index) (width : Nat) : BitVec width :=
  (BitVec.ofBool out.selValid).setWidth width <<< out.sel

/-- The requests less those granted before. -/
def readysChain (items : List (CasezItem width (BitVec index)))
    (ready : BitVec width) : Nat → BitVec width
  | 0 => ready
  | i + 1 => readysChain items ready i &&&
      ~~~(grant items (readysChain items ready i)).bit width

/-- The output with number `i`. -/
def grantOf (items : List (CasezItem width (BitVec index)))
    (ready : BitVec width) (i : Nat) : Grant index :=
  grant items (readysChain items ready i)

/-- What a selector with that pick puts out. -/
def Grant.of : Option (Fin width) → Grant index
  | some i => { sel := BitVec.ofNat index i.val, selValid := true }
  | none => { sel := 0, selValid := false }

theorem Grant.selValid_of (picked : Option (Fin width)) :
    (Grant.of picked : Grant index).selValid = picked.isSome := by
  cases picked with
  | none => rfl
  | some i => rfl

theorem Grant.toNat_sel_of (wide : width ≤ 2 ^ index)
    (i : Fin width) :
    (Grant.of (some i) : Grant index).sel.toNat = i.val := by
  rw [Grant.of, BitVec.toNat_ofNat]
  exact Nat.mod_eq_of_lt (lt_of_lt_of_le i.isLt wide)

section Chain

variable {items : List (CasezItem width (BitVec index))}

theorem grant_eq
    (table : items = priorityTable fun i => BitVec.ofNat index i.val)
    (bits : BitVec width) : grant items bits = .of (lowest bits.getLsb) := by
  rw [grant, table, casez_priorityTable]
  cases lowest bits.getLsb with
  | none => rfl
  | some i => rfl

theorem getLsb_bit (wide : width ≤ 2 ^ index) (picked : Option (Fin width))
    (i : Fin width) :
    ((Grant.of picked : Grant index).bit width).getLsb i =
      (picked == some i) := by
  cases picked with
  | none => simp [Grant.bit, Grant.of]
  | some k =>
      have short : k.val < 2 ^ index := lt_of_lt_of_le k.isLt wide
      have lone : ((Grant.of (some k) : Grant index).bit width).getLsb i =
          decide (i.val = k.val) := by
        have within := i.isLt
        simp only [Grant.bit, Grant.of, BitVec.shiftLeft_eq',
          BitVec.toNat_ofNat, Nat.mod_eq_of_lt short, BitVec.getLsb_eq_getElem]
        grind
      rw [lone]
      by_cases same : k = i
      · simp [same]
      · have other : i.val ≠ k.val := fun eq => same (Fin.ext eq.symm)
        simp [same, other]

/-- The chain leaves to each output the requests `Hdl.readys` leaves. -/
theorem getLsb_readysChain
    (table : items = priorityTable fun i => BitVec.ofNat index i.val)
    (wide : width ≤ 2 ^ index) (ready : BitVec width) (i : Nat) :
    (readysChain items ready i).getLsb = readys ready.getLsb i := by
  induction i with
  | zero => rfl
  | succ i induction =>
      funext k
      rw [readysChain, readys, grant_eq table, induction, without,
        ← getLsb_bit wide, ← induction]
      simp

theorem grantOf_eq
    (table : items = priorityTable fun i => BitVec.ofNat index i.val)
    (wide : width ≤ 2 ^ index) (ready : BitVec width) (i : Nat) :
    grantOf items ready i = .of (select ready.getLsb i) := by
  rw [grantOf, grant_eq table, getLsb_readysChain table wide, select]

end Chain

/-! ## The set bits, counted -/

/-- The number of set bits below a position. -/
def setBelow (bits : BitVec width) (position : Nat) : Nat :=
  Nat.count (fun k => bits.getLsbD k = true) position

theorem exists_of_lt_count {p : Nat → Prop} [DecidablePred p] {count : Nat} :
    ∀ {bound : Nat}, count < Nat.count p bound →
      ∃ k < bound, p k ∧ Nat.count p k = count
  | 0, short => by simp at short
  | bound + 1, short => by
      by_cases reached : count < Nat.count p bound
      · obtain ⟨k, below, holds, counted⟩ := exists_of_lt_count reached
        exact ⟨k, by omega, holds, counted⟩
      · rw [Nat.count_succ] at short
        by_cases last : p bound
        · rw [if_pos last] at short
          exact ⟨bound, by omega, last, by omega⟩
        · rw [if_neg last] at short
          omega

theorem setBelow_of_lowest {bits : BitVec width} {count : Nat}
    {left : Fin width → Bool}
    (leftIff : ∀ i, left i = true ↔
      bits.getLsb i = true ∧ count ≤ setBelow bits i.val)
    {i : Fin width} (picked : lowest left = some i) :
    setBelow bits i.val = count := by
  obtain ⟨here, before⟩ := lowest_eq_some picked
  obtain ⟨-, least⟩ := (leftIff i).mp here
  by_contra other
  obtain ⟨j, below, set, counted⟩ :=
    exists_of_lt_count (lt_of_le_of_ne least (Ne.symm other))
  have within : j < width := lt_trans below i.isLt
  have gone := before ⟨j, within⟩ below
  have still := (leftIff ⟨j, within⟩).mpr ⟨set, counted.ge⟩
  simp [gone] at still

/-- What is left after `count` picks: the set bits with that many below. -/
theorem readys_iff (bits : BitVec width) (count : Nat) (i : Fin width) :
    readys bits.getLsb count i = true ↔
      bits.getLsb i = true ∧ count ≤ setBelow bits i.val := by
  induction count generalizing i with
  | zero => simp [readys]
  | succ count induction =>
      rw [readys, without, Bool.and_eq_true, induction]
      cases picked : lowest (readys bits.getLsb count) with
      | none =>
          have none := (induction i).not.mp
            (by simp [lowest_eq_none.mp picked i])
          constructor
          · intro left
            exact absurd left.1 none
          · rintro ⟨set, counted⟩
            exact absurd ⟨set, by omega⟩ none
      | some k =>
          have set := ((induction k).mp (lowest_eq_some picked).1).1
          have exactly : setBelow bits k.val = count :=
            setBelow_of_lowest induction picked
          constructor
          · rintro ⟨⟨iSet, enough⟩, other⟩
            refine ⟨iSet, lt_of_le_of_ne enough ?_⟩
            intro equal
            have same : k.val = i.val := Nat.count_injective set iSet
              (exactly.trans equal)
            simp [Fin.ext same] at other
          · rintro ⟨iSet, more⟩
            refine ⟨⟨iSet, by omega⟩, ?_⟩
            have other : k ≠ i := by
              rintro rfl
              omega
            simpa using other

theorem setBelow_of_select {bits : BitVec width} {count : Nat} {i : Fin width}
    (picked : select bits.getLsb count = some i) :
    setBelow bits i.val = count :=
  setBelow_of_lowest (readys_iff bits count) picked

theorem isSome_select_iff (bits : BitVec width) (count : Nat) :
    (select bits.getLsb count).isSome = true ↔ count < setBelow bits width := by
  cases picked : select bits.getLsb count with
  | none =>
      have left := lowest_eq_none.mp picked
      suffices ¬ count < setBelow bits width by simpa using this
      intro more
      obtain ⟨j, within, set, counted⟩ := exists_of_lt_count more
      have still := (readys_iff bits count ⟨j, within⟩).mpr ⟨set, counted.ge⟩
      simp [left] at still
  | some i =>
      have set := ready_of_select picked
      have counted := setBelow_of_select picked
      have more : setBelow bits i.val < setBelow bits width :=
        Nat.count_strict_mono set i.isLt
      simpa using counted ▸ more

end Hdl
