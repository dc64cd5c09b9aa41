import Mathlib.Data.List.FinRange

/-!
# Priority selection

A priority `casez` over a bit vector picks its lowest set bit; a chain of them,
each without the bits picked before, picks the set bits one after the other.
-/

namespace Hdl

variable {width : Nat}

/-- The set bits, from the lowest up. -/
def setBits (bits : Fin width → Bool) : List (Fin width) :=
  (List.finRange width).filter bits

/-- The lowest set bit. -/
def lowest (bits : Fin width → Bool) : Option (Fin width) :=
  (List.finRange width).find? bits

/-- The bits without the one picked. -/
def without (bits : Fin width → Bool) (picked : Option (Fin width)) :
    Fin width → Bool :=
  fun i => bits i && !(picked == some i)

/-- The bits left to the selector with number `count`. -/
def readys (ready : Fin width → Bool) : Nat → Fin width → Bool
  | 0 => ready
  | count + 1 => without (readys ready count) (lowest (readys ready count))

/-- What the selector with number `count` picks. -/
def select (ready : Fin width → Bool) (count : Nat) : Option (Fin width) :=
  lowest (readys ready count)

theorem lowest_eq_head? (bits : Fin width → Bool) :
    lowest bits = (setBits bits).head? :=
  List.head?_filter.symm

theorem mem_setBits {bits : Fin width → Bool} {i : Fin width} :
    i ∈ setBits bits ↔ bits i = true := by
  simp [setBits]

theorem nodup_setBits (bits : Fin width → Bool) : (setBits bits).Nodup :=
  (List.nodup_finRange width).filter bits

theorem lowest_eq_none {bits : Fin width → Bool} :
    lowest bits = none ↔ ∀ i, bits i = false := by
  simp [lowest]

theorem lowest_eq_some {bits : Fin width → Bool} {i : Fin width}
    (picked : lowest bits = some i) :
    bits i = true ∧ ∀ j < i, bits j = false := by
  obtain ⟨set, before, after, split, clear⟩ :=
    List.find?_eq_some_iff_append.mp picked
  refine ⟨set, fun j below => ?_⟩
  have sorted := List.pairwise_lt_finRange width
  rw [split, List.pairwise_append] at sorted
  have member : j ∈ before ++ i :: after := by
    rw [← split]
    exact List.mem_finRange j
  rcases List.mem_append.mp member with early | late
  · simpa using clear j early
  · rcases List.mem_cons.mp late with rfl | late
    · exact absurd below (lt_irrefl _)
    · have above := (List.pairwise_cons.mp sorted.2.1).1 j late
      exact absurd below (lt_asymm above)

theorem setBits_without (bits : Fin width → Bool) :
    setBits (without bits (lowest bits)) = (setBits bits).tail := by
  have split : setBits (without bits (lowest bits)) =
      (setBits bits).filter (fun i => !(lowest bits == some i)) := by
    rw [setBits, setBits, List.filter_filter]
    congr 1
    funext i
    exact Bool.and_comm _ _
  rw [split, lowest_eq_head?]
  have distinct := nodup_setBits bits
  cases picked : setBits bits with
  | nil => rfl
  | cons first rest =>
      rw [picked, List.nodup_cons] at distinct
      rw [List.head?_cons, List.tail_cons, List.filter_cons_of_neg (by simp)]
      refine List.filter_eq_self.mpr ?_
      intro i member
      have other : first ≠ i := by
        rintro rfl
        exact distinct.1 member
      simpa using other

theorem setBits_readys (ready : Fin width → Bool) (count : Nat) :
    setBits (readys ready count) = (setBits ready).drop count := by
  induction count with
  | zero => rfl
  | succ count induction =>
      rw [readys, setBits_without, induction, List.tail_drop]

/-- The selector with number `count` picks the set bit of that number. -/
theorem select_eq (ready : Fin width → Bool) (count : Nat) :
    select ready count = (setBits ready)[count]? := by
  rw [select, lowest_eq_head?, setBits_readys, List.head?_drop]

theorem ready_of_select {ready : Fin width → Bool} {count : Nat}
    {i : Fin width} (picked : select ready count = some i) :
    ready i = true := by
  rw [select_eq] at picked
  exact mem_setBits.mp (List.mem_of_getElem? picked)

theorem select_injective {ready : Fin width → Bool} {one other : Nat}
    {i : Fin width} (first : select ready one = some i)
    (second : select ready other = some i) : one = other := by
  rw [select_eq] at first second
  obtain ⟨oneInside, here⟩ := List.getElem?_eq_some_iff.mp first
  obtain ⟨otherInside, there⟩ := List.getElem?_eq_some_iff.mp second
  exact (nodup_setBits ready).getElem_inj_iff.mp (here.trans there.symm)

end Hdl
