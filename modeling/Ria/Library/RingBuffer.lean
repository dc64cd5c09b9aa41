import Mathlib.Algebra.Group.Nat.Defs
import Mathlib.Logic.Function.Basic

/-!
# Items at consecutive addresses of a ring

Cells indexed by bit vectors form a ring.  `Holds cells start items` says
that the items lie one behind the other from `start` on; an item is pushed
behind the last one and popped at the start.
-/

namespace RingBuffer

universe u

variable {width : Nat} {α : Type u}

/-- The items lie in the cells from `start` on. -/
def Holds (cells : BitVec width → α) (start : BitVec width)
    (items : List α) : Prop :=
  ∀ (index : Nat) (within : index < items.length),
    cells (start + BitVec.ofNat width index) = items[index]

theorem holds_nil (cells : BitVec width → α) (start : BitVec width) :
    Holds cells start [] :=
  fun _ within => absurd within (Nat.not_lt_zero _)

/-- Two distances along the ring reach one cell only if they are equal. -/
theorem offset_inj (start : BitVec width) {left right : Nat}
    (leftBound : left < 2 ^ width) (rightBound : right < 2 ^ width) :
    start + BitVec.ofNat width left = start + BitVec.ofNat width right ↔
      left = right := by
  rw [BitVec.add_right_inj, ← BitVec.toNat_inj, BitVec.toNat_ofNat,
    BitVec.toNat_ofNat, Nat.mod_eq_of_lt leftBound,
    Nat.mod_eq_of_lt rightBound]

theorem offset_turn (start : BitVec width) :
    start + BitVec.ofNat width (2 ^ width) = start := by
  have turn : BitVec.ofNat width (2 ^ width) = BitVec.ofNat width 0 := by
    apply BitVec.eq_of_toNat_eq
    rw [BitVec.toNat_ofNat, Nat.mod_self, BitVec.toNat_ofNat, Nat.zero_mod]
  rw [turn, BitVec.add_zero]

section Holds

variable {cells : BitVec width → α} {start : BitVec width} {items : List α}

theorem Holds.head {item : α} (holds : Holds cells start (item :: items)) :
    cells start = item := by
  have first : cells (start + BitVec.ofNat width 0) = item :=
    holds 0 (Nat.zero_lt_succ _)
  rwa [BitVec.add_zero] at first

theorem Holds.pop {item : α} (holds : Holds cells start (item :: items)) :
    Holds cells (start + 1) items := by
  intro index within
  have later := holds (index + 1) (Nat.succ_lt_succ within)
  rw [List.getElem_cons_succ] at later
  rw [← later, BitVec.add_assoc, Nat.add_comm index, BitVec.ofNat_add]
  rfl

theorem Holds.push (holds : Holds cells start items)
    (room : items.length < 2 ^ width) (item : α) :
    Holds
      (Function.update cells (start + BitVec.ofNat width items.length) item)
      start (items ++ [item]) := by
  intro index within
  rw [List.length_append, List.length_singleton] at within
  rcases Nat.lt_succ_iff_lt_or_eq.mp within with before | rfl
  · have other : start + BitVec.ofNat width index ≠
        start + BitVec.ofNat width items.length := by
      intro same
      have equal := (offset_inj start (Nat.lt_trans before room) room).mp same
      exact Nat.lt_irrefl _ (equal ▸ before)
    rw [Function.update_of_ne other, List.getElem_append_left before]
    exact holds index before
  · rw [Function.update_self, List.getElem_append_right (Nat.le_refl _)]
    simp

end Holds

end RingBuffer
