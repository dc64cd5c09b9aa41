import Mathlib.Data.List.Nodup

/-!
# Bounded most-recently-used lists

A list of keys and values of bounded length.  To touch a key puts it in front
with its new value, drops the old item of that key and then whatever exceeds
the capacity.  Keys stay distinct, and an item stays until as many other keys
as the capacity have been touched after it.
-/

namespace Recency

universe u v

variable {α : Type u} {β : Type v} [DecidableEq α]

/-- `item` becomes the most recent one. -/
def touch (capacity : Nat) (item : α × β) (items : List (α × β)) :
    List (α × β) :=
  (item :: items.filter fun other => other.1 ≠ item.1).take capacity

/-- Touch several items, the last one last. -/
def touchAll (capacity : Nat) (items touches : List (α × β)) :
    List (α × β) :=
  touches.foldl (fun items item => touch capacity item items) items

section Touch

variable {capacity : Nat} {item : α × β} {items : List (α × β)}

theorem nodup_touch (distinct : (items.map Prod.fst).Nodup) :
    ((touch capacity item items).map Prod.fst).Nodup := by
  rw [touch, List.map_take]
  apply List.Nodup.sublist (List.take_sublist _ _)
  rw [List.map_cons, List.nodup_cons]
  constructor
  · intro again
    obtain ⟨other, member, same⟩ := List.mem_map.mp again
    exact of_decide_eq_true (List.mem_filter.mp member).2 same
  · exact distinct.sublist (List.filter_sublist.map _)

theorem touch_of_new (new : ∀ other ∈ items, other.1 ≠ item.1) :
    touch capacity item items = (item :: items).take capacity := by
  have kept : (items.filter fun other => other.1 ≠ item.1) = items :=
    List.filter_eq_self.mpr fun other member =>
      decide_eq_true (new other member)
  rw [touch, kept]

theorem touch_new (new : ∀ other ∈ items, other.1 ≠ item.1)
    (room : items.length < capacity) :
    touch capacity item items = item :: items := by
  rw [touch_of_new new]
  exact List.take_of_length_le room

theorem touch_front {value : β} (others : ∀ other ∈ items, other.1 ≠ item.1)
    (room : items.length < capacity) :
    touch capacity item ((item.1, value) :: items) = item :: items := by
  have dropped : touch capacity item ((item.1, value) :: items) =
      touch capacity item items := by
    rw [touch, touch, List.filter_cons_of_neg]
    exact fun differs => of_decide_eq_true differs rfl
  rw [dropped, touch_new others room]

theorem touch_new_ne {first : α × β}
    (distinct : ((first :: items).map Prod.fst).Nodup)
    (new : ∀ other ∈ first :: items, other.1 ≠ item.1)
    (room : 1 < capacity) :
    touch capacity item (first :: items) ≠ item :: items := by
  intro same
  obtain ⟨more, rfl⟩ := Nat.exists_eq_add_of_le' room
  rw [touch_of_new new, List.take_succ_cons, List.take_succ_cons] at same
  have again : first ∈ items := by
    rw [← (List.cons.inj same).2]
    exact List.mem_cons_self
  exact (List.nodup_cons.mp distinct).1 (List.mem_map_of_mem again)

end Touch

section TouchAll

variable {capacity : Nat}

theorem touchAll_append (items first second : List (α × β)) :
    touchAll capacity items (first ++ second) =
      touchAll capacity (touchAll capacity items first) second :=
  List.foldl_append

theorem touchAll_concat (items touches : List (α × β)) (item : α × β) :
    touchAll capacity items (touches ++ [item]) =
      touch capacity item (touchAll capacity items touches) :=
  touchAll_append items touches [item]

theorem nodup_touchAll {items : List (α × β)}
    (distinct : (items.map Prod.fst).Nodup) (touches : List (α × β)) :
    ((touchAll capacity items touches).map Prod.fst).Nodup := by
  induction touches generalizing items with
  | nil => exact distinct
  | cons item rest induction => exact induction (nodup_touch distinct)

/-- A list of distinct keys is what touching them from the last one on
gives. -/
theorem touchAll_reverse {items : List (α × β)}
    (distinct : (items.map Prod.fst).Nodup)
    (fits : items.length ≤ capacity) :
    touchAll capacity [] items.reverse = items := by
  induction items with
  | nil => rfl
  | cons item rest induction =>
      rw [List.map_cons, List.nodup_cons] at distinct
      rw [List.reverse_cons, touchAll_concat,
        induction distinct.2 (Nat.le_of_succ_le fits)]
      apply touch_new
      · intro other member same
        exact distinct.1 (List.mem_map.mpr ⟨other, member, same⟩)
      · exact fits

end TouchAll

section Survival

variable {capacity : Nat} {item : α × β}

omit [DecidableEq α] in
private theorem mem_take_filter {kept : α × β → Bool} (keeps : kept item)
    {items : List (α × β)} {depth : Nat} (near : item ∈ items.take depth) :
    item ∈ (items.filter kept).take depth := by
  induction items generalizing depth with
  | nil => simp at near
  | cons other rest induction =>
      cases depth with
      | zero => simp at near
      | succ depth =>
          rw [List.take_succ_cons, List.mem_cons] at near
          rw [List.filter_cons]
          rcases near with rfl | near
          · rw [if_pos keeps, List.take_succ_cons]
            exact List.mem_cons_self
          · by_cases stays : kept other = true
            · rw [if_pos stays, List.take_succ_cons]
              exact List.mem_cons_of_mem _ (induction near)
            · rw [if_neg stays]
              have deeper := induction near
              exact (List.take_subset_take_left _ (Nat.le_succ depth)) deeper

/-- Another key moves an item back by one place at most. -/
theorem touch_moves {other : α × β} (differs : other.1 ≠ item.1)
    {items : List (α × β)} {depth : Nat} (room : depth < capacity)
    (near : item ∈ items.take depth) :
    item ∈ (touch capacity other items).take (depth + 1) := by
  rw [touch, List.take_take, Nat.min_eq_left room, List.take_succ_cons]
  apply List.mem_cons_of_mem
  apply mem_take_filter _ near
  exact decide_eq_true (Ne.symm differs)

/-- An item is there until as many others as the capacity follow it. -/
theorem mem_touchAll {items later : List (α × β)}
    (others : ∀ other ∈ later, other.1 ≠ item.1)
    (few : later.length < capacity) :
    item ∈ touchAll capacity (touch capacity item items) later := by
  have deep : ∀ (later items : List (α × β)) (depth : Nat),
      (∀ other ∈ later, other.1 ≠ item.1) →
      depth + later.length ≤ capacity → item ∈ items.take depth →
      item ∈ touchAll capacity items later := by
    intro later
    induction later with
    | nil =>
        intro items depth _ _ near
        exact List.mem_of_mem_take near
    | cons other rest induction =>
        intro items depth others room near
        rw [List.length_cons] at room
        apply induction (touch capacity other items) (depth + 1)
        · intro following member
          exact others following (List.mem_cons_of_mem _ member)
        · omega
        · apply touch_moves (others other List.mem_cons_self) _ near
          omega
  apply deep later _ 1 others (by omega)
  have some : 0 < capacity := Nat.zero_lt_of_lt few
  rw [touch, List.take_take, Nat.min_eq_left some, List.take_succ_cons]
  exact List.mem_cons_self

end Survival

end Recency
