import Mathlib.Data.List.Chain

/-!
# Walks

A list of items, each of which leads from its source to its target, is a walk
if every item starts where the one before it ends.
-/

namespace Hdl

universe u v w

variable {α : Type u} {β : Type v} (source target : α → β)

/-- The items lead from `first` to `last`. -/
def Walk (first : β) : List α → β → Prop
  | [], last => first = last
  | item :: rest, last => source item = first ∧ Walk (target item) rest last

variable {source target}

theorem Walk.append {first middle last : β} {items others : List α}
    (here : Walk source target first items middle)
    (there : Walk source target middle others last) :
    Walk source target first (items ++ others) last := by
  induction items generalizing first with
  | nil =>
      cases here
      exact there
  | cons item rest induction => exact ⟨here.1, induction here.2⟩

theorem Walk.split {first last : β} {items others : List α}
    (walk : Walk source target first (items ++ others) last) :
    ∃ middle, Walk source target first items middle ∧
      Walk source target middle others last := by
  induction items generalizing first with
  | nil => exact ⟨first, rfl, walk⟩
  | cons item rest induction =>
      rcases induction walk.2 with ⟨middle, here, there⟩
      exact ⟨middle, ⟨walk.1, here⟩, there⟩

/-- Other items with the same sources and targets walk the same way. -/
theorem Walk.map_iff {γ : Type w} {source' target' : γ → β} {first last : β}
    {items : List α} (change : α → γ)
    (same : ∀ item ∈ items, source' (change item) = source item ∧
      target' (change item) = target item) :
    Walk source' target' first (items.map change) last ↔
      Walk source target first items last := by
  induction items generalizing first with
  | nil => exact Iff.rfl
  | cons item rest induction =>
      rcases same item (.head _) with ⟨here, there⟩
      have later : ∀ first, Walk source' target' first (rest.map change) last ↔
          Walk source target first rest last :=
        fun _ => induction fun later member => same later (.tail item member)
      constructor
      · rintro ⟨starts, walk⟩
        rw [there] at walk
        exact ⟨here.symm.trans starts, (later _).mp walk⟩
      · rintro ⟨starts, walk⟩
        refine ⟨here.trans starts, ?_⟩
        rw [there]
        exact (later _).mpr walk

theorem Walk.isChain {first last : β} {items : List α}
    (walk : Walk source target first items last) :
    items.IsChain (fun one next => source next = target one) := by
  induction items generalizing first with
  | nil => exact .nil
  | cons item rest induction =>
      refine (induction walk.2).cons ?_
      intro next head
      cases rest with
      | nil => cases head
      | cons other rest =>
          cases head
          exact walk.2.1

theorem Walk.head {first last : β} {items : List α} {item : α}
    (walk : Walk source target first items last)
    (found : items[0]? = some item) : source item = first := by
  cases items with
  | nil => cases found
  | cons one rest =>
      obtain rfl : one = item := Option.some.inj found
      exact walk.1

theorem Walk.getElem? {first last : β} {items : List α} {number : Nat}
    {one next : α} (walk : Walk source target first items last)
    (here : items[number]? = some one)
    (after : items[number + 1]? = some next) : source next = target one := by
  rcases List.getElem?_eq_some_iff.mp here with ⟨-, rfl⟩
  rcases List.getElem?_eq_some_iff.mp after with ⟨inside, rfl⟩
  exact List.isChain_iff_getElem.mp walk.isChain number inside

theorem Walk.target_getLast {first last : β} {items : List α}
    (walk : Walk source target first items last) :
    ∀ item ∈ items.getLast?, target item = last := by
  induction items generalizing first with
  | nil =>
      intro item none
      cases none
  | cons item rest induction =>
      intro final member
      cases rest with
      | nil =>
          cases member
          exact walk.2
      | cons other rest =>
          rw [List.getLast?_cons_cons] at member
          exact induction walk.2 final member

end Hdl
