import Ria.Frontend.FreeList

/-!
# The free registers of a bit map

`freeRegisters` lists the zero bits of a bit map in ascending order.  The
free list's search finds a prefix of this list, and setting or clearing a bit
removes or adds one element.
-/

namespace Ria

open Hdl

namespace FreeList

/-- The free registers with a number below `bound`. -/
def freeBelow (busy : PrfIndex → Bool) (bound : Nat) : List PrfIndex :=
  ((List.range bound).map (BitVec.ofNat 6)).filter (fun prf => !busy prf)

def freeRegisters (busy : PrfIndex → Bool) : List PrfIndex :=
  freeBelow busy 64

theorem mem_freeRegisters {busy : PrfIndex → Bool} {prf : PrfIndex} :
    prf ∈ freeRegisters busy ↔ busy prf = false := by
  have listed : prf ∈ (List.range 64).map (BitVec.ofNat 6) :=
    List.mem_map.mpr
      ⟨prf.toNat, List.mem_range.mpr prf.isLt, BitVec.ofNat_toNat 6 prf⟩
  simp [freeRegisters, freeBelow, List.mem_filter, listed]

theorem freeRegisters_nodup (busy : PrfIndex → Bool) :
    (freeRegisters busy).Nodup := by
  refine List.Nodup.filter _ ?_
  decide

theorem freeBelow_succ (busy : PrfIndex → Bool) (bound : Nat) :
    freeBelow busy (bound + 1) =
      freeBelow busy bound ++
        if busy (BitVec.ofNat 6 bound) = false then [BitVec.ofNat 6 bound]
        else [] := by
  rw [freeBelow, List.range_succ, List.map_append, List.filter_append]
  cases free : busy (BitVec.ofNat 6 bound) <;> simp [freeBelow, free]

theorem freeBelow_initial (busy : PrfIndex → Bool) {bound : Nat}
    (within : bound ≤ 64) : freeBelow busy bound <+: freeRegisters busy := by
  have start : List.range bound = (List.range 64).take bound := by
    rw [List.take_range, Nat.min_eq_left within]
  rw [freeBelow, start]
  exact ((List.take_prefix bound _).map _).filter _

/-! ## Setting and clearing bits -/

section Update

variable {busy : PrfIndex → Bool} {prf : PrfIndex}

theorem freeRegisters_set :
    freeRegisters (Function.update busy prf true) =
      (freeRegisters busy).erase prf := by
  rw [(freeRegisters_nodup busy).erase_eq_filter, freeRegisters,
    freeRegisters, freeBelow, freeBelow, List.filter_filter]
  refine List.filter_congr ?_
  intro other _
  by_cases same : other = prf
  · simp [same]
  · simp [same]

theorem length_freeRegisters_set (free : busy prf = false) :
    (freeRegisters (Function.update busy prf true)).length + 1 =
      (freeRegisters busy).length := by
  have member := mem_freeRegisters.mpr free
  have nonempty := List.length_pos_of_mem member
  rw [freeRegisters_set, List.length_erase_of_mem member]
  omega

theorem length_freeRegisters_clear (taken : busy prf = true) :
    (freeRegisters (Function.update busy prf false)).length =
      (freeRegisters busy).length + 1 := by
  have restored : Function.update (Function.update busy prf false) prf true =
      busy := by
    rw [Function.update_idem, ← taken, Function.update_eq_self]
  have free : Function.update busy prf false prf = false :=
    Function.update_self prf false busy
  have counted := length_freeRegisters_set free
  rw [restored] at counted
  omega

/-- Register 0 is never free, so at most 63 registers are. -/
theorem length_freeRegisters_le (zero : busy 0 = true) :
    (freeRegisters busy).length ≤ 63 := by
  have fewer := length_freeRegisters_clear zero
  have most : (freeRegisters (Function.update busy 0 false)).length ≤ 64 := by
    refine (List.length_filter_le _ _).trans ?_
    simp
  omega

theorem count_set {count : BitVec 6}
    (counted : count.toNat = (freeRegisters busy).length)
    (free : busy prf = false) :
    (count - 1).toNat =
      (freeRegisters (Function.update busy prf true)).length := by
  have fewer := length_freeRegisters_set free
  have bound := count.isLt
  rw [BitVec.toNat_sub]
  simp only [BitVec.ofNat_eq_ofNat, BitVec.toNat_ofNat]
  omega

/-- Counting one register more stays exact when one other than register 0 is
given back: the counter does not wrap. -/
theorem count_clear {count : BitVec 6}
    (counted : count.toNat = (freeRegisters busy).length)
    (zero : busy 0 = true) (nonzero : prf ≠ 0) (taken : busy prf = true) :
    (count + 1).toNat =
      (freeRegisters (Function.update busy prf false)).length := by
  have more := length_freeRegisters_clear taken
  have bound : (freeRegisters (Function.update busy prf false)).length ≤
      63 := by
    apply length_freeRegisters_le
    rw [Function.update_of_ne nonzero.symm]
    exact zero
  rw [BitVec.toNat_add]
  simp only [BitVec.ofNat_eq_ofNat, BitVec.toNat_ofNat]
  omega

end Update

/-! ## The search -/

/-- The search has found the free registers below `bound`; the slots it has
not filled are 0. -/
structure FoundBelow (busy : PrfIndex → Bool) (bound : Nat)
    (found : Search) : Prop where
  within : bound ≤ 64
  counted : found.reqIdx.toNat = (freeBelow busy bound).length
  slots : ∀ slot : Fin 4, found.prfOutNext slot =
    ((freeBelow busy bound)[slot.val]?).getD 0

theorem FoundBelow.searchLane {busy : PrfIndex → Bool} {bound : Nat}
    {found : Search} (below : FoundBelow busy bound found)
    (more : bound < 64) (room : found.reqIdx.toNat < 4) :
    FoundBelow busy (bound + 1)
      (searchLane busy (BitVec.ofNat 6 bound) found) := by
  unfold FreeList.searchLane
  by_cases free : busy (BitVec.ofNat 6 bound) = false
  · have next : (found.reqIdx + 1).toNat = found.reqIdx.toNat + 1 := by
      rw [BitVec.toNat_add]
      exact Nat.mod_eq_of_lt (by simp; omega)
    rw [if_pos free]
    refine ⟨more, ?_, ?_⟩
    · rw [freeBelow_succ, if_pos free, List.length_append, ← below.counted]
      exact next
    · intro slot
      simp only [freeBelow_succ, if_pos free, below.counted]
      rcases Nat.lt_trichotomy slot.val (freeBelow busy bound).length with
        earlier | last | later
      · rw [if_neg (by omega), below.slots, List.getElem?_append_left earlier]
      · rw [if_pos last, last]
        simp
      · rw [if_neg (by omega), below.slots,
          List.getElem?_eq_none (by omega), List.getElem?_eq_none]
        rw [List.length_append, List.length_singleton]
        omega
  · rw [if_neg free]
    refine ⟨more, ?_, ?_⟩
    · rw [freeBelow_succ, if_neg free, List.append_nil]
      exact below.counted
    · rw [freeBelow_succ, if_neg free, List.append_nil]
      exact below.slots

/-- The search has found `count` registers, the lowest free ones, or all the
free registers there are. -/
def FoundAll (busy : PrfIndex → Bool) (count : BitVec 4) (found : Search) :
    Prop :=
  ∃ bound, FoundBelow busy bound found ∧
    (found.reqIdx.toNat = count.toNat ∨ bound = 64)

theorem search_foundAll (busy : PrfIndex → Bool) {count : BitVec 4}
    (some : 0 < count.toNat) (few : count.toNat ≤ 4) :
    FoundAll busy count (search busy count) := by
  unfold search
  refine forLoop_rule
    (fun bound found =>
      found.reqIdx.toNat < count.toNat ∧ FoundBelow busy bound found)
    (FoundAll busy count) ?_ ?_ ?_
  · exact ⟨some, Nat.zero_le 64, rfl, fun _ => rfl⟩
  · rintro i found ⟨fewer, below⟩
    have extended := below.searchLane i.isLt (by omega)
    have growth : (freeBelow busy (i.val + 1)).length ≤
        (freeBelow busy i.val).length + 1 := by
      rw [freeBelow_succ, List.length_append]
      cases busy (BitVec.ofNat 6 i.val) <;> simp
    have oneMore := extended.counted
    have before := below.counted
    by_cases full : (FreeList.searchLane busy (BitVec.ofNat 6 i.val)
        found).reqIdx ≥ count
    · simp only [if_pos full]
      have reached := BitVec.le_def.mp full
      exact ⟨i.val + 1, extended, .inl (by omega)⟩
    · simp only [if_neg full]
      have short := BitVec.lt_def.mp (BitVec.not_le.mp full)
      exact ⟨short, extended⟩
  · rintro found ⟨fewer, below⟩
    exact ⟨64, below, .inr rfl⟩

/-- The `k`-th slot asked for is the `k`-th free register, or 0 where there
are not as many. -/
theorem search_slot (busy : PrfIndex → Bool) {count : BitVec 4}
    (few : count.toNat ≤ 4) {index : BitVec 4}
    (within : index.toNat < count.toNat) :
    (search busy count).slot index =
      ((freeRegisters busy)[index.toNat]?).getD 0 := by
  obtain ⟨bound, below, complete⟩ := search_foundAll busy (by omega) few
  have slot : index.toNat < 4 := by omega
  rw [Search.slot, dif_pos slot, below.slots]
  rcases complete with all | whole
  · have inside : index.toNat < (freeBelow busy bound).length := by
      rw [← below.counted]
      omega
    rw [List.getElem?_eq_getElem inside]
    exact congrArg (·.getD 0) (List.prefix_iff_getElem?.mp
      (freeBelow_initial busy below.within) _ inside).symm
  · rw [whole]
    rfl

end FreeList

end Ria
