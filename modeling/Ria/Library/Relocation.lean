import Mathlib.Algebra.BigOperators.Group.Finset.Basic
import Mathlib.Data.Fintype.BigOperators

/-!
# Relocation

A step that moves the items of some places to other places.  No item is lost,
two items never meet, and nothing appears that was not there.
-/

namespace Hdl

universe u v w x

/-- Every item that is `present` before is after the step at the place to
which `move` takes its own, and each place holds an item of one place only. -/
structure Relocates {α : Type u} {ι : Type v} {κ : Type w}
    (present : α → Prop) (before : ι → α) (after : κ → α) (move : ι → κ) :
    Prop where
  carried : ∀ place, present (before place) →
    after (move place) = before place
  apart : ∀ one other, present (before one) → present (before other) →
    move one = move other → one = other
  accounted : ∀ place, present (after place) →
    ∃ source, present (before source) ∧ move source = place

/-- What the items are worth together does not change. -/
theorem Relocates.sum_eq {α : Type u} {ι : Type v} {κ : Type w} [Fintype ι]
    [Fintype κ] {present : α → Prop} {before : ι → α} {after : κ → α}
    {move : ι → κ} (relocates : Relocates present before after move)
    {M : Type x} [AddCommMonoid M] (worth : α → M)
    (nothing : ∀ item, ¬ present item → worth item = 0) :
    ∑ place, worth (before place) = ∑ place, worth (after place) := by
  classical
  have relevant : ∑ place ∈ Finset.univ.filter
      (fun place => present (before place)), worth (before place) =
        ∑ place, worth (before place) := by
    refine Finset.sum_filter_of_ne ?_
    intro place _ worthy
    by_contra absent
    exact worthy (nothing _ absent)
  rw [← relevant]
  refine Finset.sum_of_injOn move ?_ ?_ ?_ ?_
  · intro one oneThere other otherThere same
    exact relocates.apart one other (Finset.mem_filter.mp oneThere).2
      (Finset.mem_filter.mp otherThere).2 same
  · intro place _
    exact Finset.mem_coe.mpr (Finset.mem_univ _)
  · intro place _ unreached
    refine nothing _ ?_
    intro there
    obtain ⟨source, stood, same⟩ := relocates.accounted place there
    exact unreached ⟨source, Finset.mem_coe.mpr
      (Finset.mem_filter.mpr ⟨Finset.mem_univ _, stood⟩), same⟩
  · intro place there
    rw [relocates.carried place (Finset.mem_filter.mp there).2]

end Hdl
