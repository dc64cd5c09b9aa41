import Mathlib.Algebra.Order.Ring.Nat
import Ria.Library.ByteMemory

/-!
# Little-endian numbers

`ofBytes` is the number a list of bytes stands for, the least significant byte
first, and `toBytes` writes a number with a given count of bytes.
-/

namespace ByteMemory

/-- The number whose bytes these are. -/
def ofBytes : List Byte → Nat
  | [] => 0
  | byte :: rest => byte.toNat + 2 ^ 8 * ofBytes rest

/-- The lowest `count` bytes of a number. -/
def toBytes : Nat → Nat → List Byte
  | 0, _ => []
  | count + 1, value => BitVec.ofNat 8 value :: toBytes count (value / 2 ^ 8)

@[simp] theorem length_toBytes (count value : Nat) :
    (toBytes count value).length = count := by
  induction count generalizing value with
  | zero => rfl
  | succ count induction => rw [toBytes, List.length_cons, induction]

theorem ofBytes_toBytes (count value : Nat) :
    ofBytes (toBytes count value) = value % 2 ^ (8 * count) := by
  induction count generalizing value with
  | zero => rw [toBytes, ofBytes, Nat.mul_zero, Nat.pow_zero, Nat.mod_one]
  | succ count induction =>
      rw [toBytes, ofBytes, induction, BitVec.toNat_ofNat, Nat.mul_succ,
        Nat.add_comm (8 * count), Nat.pow_add, Nat.mod_mul]

theorem toBytes_ofBytes (bytes : List Byte) :
    toBytes bytes.length (ofBytes bytes) = bytes := by
  induction bytes with
  | nil => rfl
  | cons byte rest induction =>
      have bound := byte.isLt
      have low : BitVec.ofNat 8 (ofBytes (byte :: rest)) = byte := by
        apply BitVec.eq_of_toNat_eq
        rw [BitVec.toNat_ofNat, ofBytes, Nat.add_mul_mod_self_left,
          Nat.mod_eq_of_lt bound]
      have high : ofBytes (byte :: rest) / 2 ^ 8 = ofBytes rest := by
        rw [ofBytes, Nat.add_mul_div_left _ _ (by decide),
          Nat.div_eq_of_lt bound, Nat.zero_add]
      rw [List.length_cons, toBytes, low, high, induction]

theorem ofBytes_append (low high : List Byte) :
    ofBytes (low ++ high) =
      ofBytes low + 2 ^ (8 * low.length) * ofBytes high := by
  induction low with
  | nil => simp [ofBytes]
  | cons byte rest induction =>
      rw [List.cons_append, ofBytes, ofBytes, induction, List.length_cons,
        Nat.mul_succ, Nat.add_comm (8 * rest.length) 8, Nat.pow_add,
        Nat.mul_add, Nat.mul_assoc, Nat.add_assoc]

theorem toBytes_add (low high value : Nat) :
    toBytes (low + high) value =
      toBytes low value ++ toBytes high (value / 2 ^ (8 * low)) := by
  induction low generalizing value with
  | zero => simp [toBytes]
  | succ low induction =>
      rw [Nat.succ_add, toBytes, toBytes, induction, List.cons_append,
        Nat.div_div_eq_div_mul, ← Nat.pow_add, Nat.mul_succ,
        Nat.add_comm (8 * low) 8]

theorem ofBytes_lt (bytes : List Byte) :
    ofBytes bytes < 2 ^ (8 * bytes.length) := by
  have same := ofBytes_toBytes bytes.length (ofBytes bytes)
  rw [toBytes_ofBytes] at same
  rw [same]
  exact Nat.mod_lt _ (Nat.two_pow_pos _)

theorem toBytes_mod (count value : Nat) :
    toBytes count (value % 2 ^ (8 * count)) = toBytes count value := by
  have same := toBytes_ofBytes (toBytes count value)
  rwa [length_toBytes, ofBytes_toBytes] at same

theorem getElem_toBytes (count value index : Nat)
    (inside : index < (toBytes count value).length) :
    (toBytes count value)[index] =
      BitVec.ofNat 8 (value / 2 ^ (8 * index)) := by
  induction count generalizing value index with
  | zero => exact absurd inside (Nat.not_lt_zero index)
  | succ count induction =>
      cases index with
      | zero => simp [toBytes]
      | succ index =>
          rw [length_toBytes] at inside
          have rest := induction (value / 2 ^ 8) index
            (by rw [length_toBytes]; omega)
          rw [Nat.div_div_eq_div_mul, ← Nat.pow_add] at rest
          simp only [toBytes, List.getElem_cons_succ, rest]
          rw [Nat.mul_succ, Nat.add_comm 8]

theorem toBytes_zero (count : Nat) :
    toBytes count 0 = List.replicate count 0 := by
  induction count with
  | zero => rfl
  | succ count induction =>
      rw [toBytes, Nat.zero_div, induction]
      rfl

end ByteMemory
