import Mathlib.Algebra.Group.Nat.Defs
import Mathlib.Tactic.Ring

/-!
# Restoring division

A divider keeps two registers of `digits + 1` bits.  `work` is the remainder
so far; `result` holds the digits of the dividend that are still to come and
below them the quotient so far.  A step shifts the pair, subtracts the
denominator when it can and records whether it did.
-/

namespace RestoringDivision

/-- The registers of the divider. -/
structure State where
  work : Nat
  result : Nat

/-- The remainder with the next digit of the dividend. -/
def State.shifted (digits : Nat) (state : State) : Nat :=
  2 * state.work + state.result / 2 ^ digits

/-- One step. -/
def step (digits denom : Nat) (state : State) : State :=
  let shifted := state.shifted digits
  let low := 2 * state.result % 2 ^ (digits + 1)
  if shifted < denom then { work := shifted, result := low }
  else { work := shifted - denom, result := low + 1 }

/-- After `done` steps of a division with `left` more to go: the digits
consumed make `work` and a quotient, `rest` are the digits to come. -/
structure Digits (dividend denom done left : Nat) (state : State)
    (rest quotient : Nat) : Prop where
  value : dividend = (state.work + quotient * denom) * 2 ^ left + rest
  restBound : rest < 2 ^ left
  register : state.result = rest * 2 ^ done + quotient
  quotientBound : quotient < 2 ^ done
  reduced : 0 < denom → state.work < denom
  filled : denom = 0 → quotient + 1 = 2 ^ done

variable {dividend denom done left rest quotient digits : Nat}
  {state : State}

theorem Digits.start (within : dividend < 2 ^ left) :
    Digits dividend denom 0 left { work := 0, result := dividend } dividend
      0 where
  value := by rw [Nat.zero_mul, Nat.add_zero, Nat.zero_mul, Nat.zero_add]
  restBound := within
  register := by rw [Nat.pow_zero, Nat.mul_one, Nat.add_zero]
  quotientBound := Nat.one_pos
  reduced := id
  filled := fun _ => rfl

/-- The remainder has no more digits than steps have been done. -/
theorem Digits.work_lt
    (holds : Digits dividend denom done left state rest quotient)
    (within : dividend < 2 ^ (done + left)) : state.work < 2 ^ done := by
  have small : state.work * 2 ^ left < 2 ^ done * 2 ^ left := by
    calc state.work * 2 ^ left
        ≤ (state.work + quotient * denom) * 2 ^ left :=
          Nat.mul_le_mul_right _ (Nat.le_add_right _ _)
      _ ≤ dividend := by
          rw [holds.value]
          exact Nat.le_add_right _ _
      _ < 2 ^ done * 2 ^ left := by rwa [← Nat.pow_add]
  exact Nat.lt_of_mul_lt_mul_right small

theorem Digits.shifted
    (holds : Digits dividend denom done (left + 1) state rest quotient)
    (sized : done + left = digits) :
    state.shifted digits = 2 * state.work + rest / 2 ^ left := by
  have positive : 0 < 2 ^ done := Nat.two_pow_pos done
  rw [State.shifted, holds.register, ← sized, Nat.pow_add,
    ← Nat.div_div_eq_div_mul, Nat.add_comm (rest * 2 ^ done),
    Nat.add_mul_div_right _ _ positive, Nat.div_eq_of_lt holds.quotientBound,
    Nat.zero_add]

theorem Digits.low
    (holds : Digits dividend denom done (left + 1) state rest quotient)
    (sized : done + left = digits) :
    2 * state.result % 2 ^ (digits + 1) =
      rest % 2 ^ left * 2 ^ (done + 1) + 2 * quotient := by
  have below : rest % 2 ^ left * 2 ^ (done + 1) + 2 * quotient <
      2 ^ (digits + 1) := by
    have restLow : rest % 2 ^ left + 1 ≤ 2 ^ left :=
      Nat.mod_lt _ (Nat.two_pow_pos left)
    calc rest % 2 ^ left * 2 ^ (done + 1) + 2 * quotient
        < rest % 2 ^ left * 2 ^ (done + 1) + 2 ^ (done + 1) := by
          have := holds.quotientBound
          rw [Nat.pow_succ 2 done]
          omega
      _ = (rest % 2 ^ left + 1) * 2 ^ (done + 1) := by ring
      _ ≤ 2 ^ left * 2 ^ (done + 1) := Nat.mul_le_mul_right _ restLow
      _ = 2 ^ (digits + 1) := by
          rw [← sized]
          ring
  have split : 2 * state.result =
      rest % 2 ^ left * 2 ^ (done + 1) + 2 * quotient +
        2 ^ (digits + 1) * (rest / 2 ^ left) := by
    calc 2 * state.result
        = 2 * ((rest % 2 ^ left + 2 ^ left * (rest / 2 ^ left)) * 2 ^ done +
            quotient) := by rw [Nat.mod_add_div, holds.register]
      _ = rest % 2 ^ left * 2 ^ (done + 1) + 2 * quotient +
            2 ^ (done + left + 1) * (rest / 2 ^ left) := by ring
      _ = _ := by rw [sized]
  rw [split, Nat.add_mul_mod_self_left, Nat.mod_eq_of_lt below]

theorem Digits.value_shifted
    (holds : Digits dividend denom done (left + 1) state rest quotient)
    (sized : done + left = digits) :
    dividend = (state.shifted digits + 2 * quotient * denom) * 2 ^ left +
      rest % 2 ^ left := by
  calc dividend
      = (state.work + quotient * denom) * 2 ^ (left + 1) +
          (rest % 2 ^ left + 2 ^ left * (rest / 2 ^ left)) := by
        rw [Nat.mod_add_div]
        exact holds.value
    _ = (2 * state.work + rest / 2 ^ left + 2 * quotient * denom) *
          2 ^ left + rest % 2 ^ left := by ring
    _ = _ := by rw [holds.shifted sized]

/-- A step moves one digit into the remainder and one into the quotient. -/
theorem Digits.step
    (holds : Digits dividend denom done (left + 1) state rest quotient)
    (sized : done + left = digits) :
    ∃ digit, Digits dividend denom (done + 1) left
      (RestoringDivision.step digits denom state)
      (rest % 2 ^ left) (2 * quotient + digit) := by
  have shifted := holds.shifted sized
  have low := holds.low sized
  have bound := holds.quotientBound
  have restLow : rest % 2 ^ left < 2 ^ left :=
    Nat.mod_lt _ (Nat.two_pow_pos left)
  have digitBound : rest / 2 ^ left < 2 := by
    apply Nat.div_lt_of_lt_mul
    rw [← Nat.pow_succ]
    exact holds.restBound
  have value := holds.value_shifted sized
  have doubled : 2 ^ (done + 1) = 2 * 2 ^ done := Nat.pow_succ'
  unfold RestoringDivision.step
  by_cases less : state.shifted digits < denom
  · refine ⟨0, ?_⟩
    rw [if_pos less]
    constructor
    · exact value
    · exact restLow
    · exact low
    · omega
    · exact fun _ => less
    · intro zero
      rw [zero] at less
      exact absurd less (Nat.not_lt_zero _)
  · refine ⟨1, ?_⟩
    rw [if_neg less]
    have enough : denom ≤ state.shifted digits := Nat.le_of_not_lt less
    constructor
    · rw [value]
      congr 2
      change _ = state.shifted digits - denom + (2 * quotient + 1) * denom
      rw [Nat.add_mul, Nat.one_mul]
      omega
    · exact restLow
    · change 2 * state.result % 2 ^ (digits + 1) + 1 = _
      rw [low, Nat.add_assoc]
    · omega
    · intro positive
      have before := holds.reduced positive
      change state.shifted digits - denom < denom
      omega
    · intro zero
      have before := holds.filled zero
      omega

/-- After the last step the registers hold the quotient and the remainder. -/
theorem Digits.divided
    (holds : Digits dividend denom done 0 state rest quotient)
    (positive : 0 < denom) :
    state.result = dividend / denom ∧ state.work = dividend % denom := by
  have none : rest = 0 := Nat.lt_one_iff.mp holds.restBound
  have value : state.work + denom * quotient = dividend := by
    have := holds.value
    rw [none, Nat.pow_zero, Nat.mul_one, Nat.add_zero, Nat.mul_comm] at this
    exact this.symm
  have register : state.result = quotient := by
    rw [holds.register, none, Nat.zero_mul, Nat.zero_add]
  have unique := (Nat.div_mod_unique positive).mpr
    ⟨value, holds.reduced positive⟩
  rw [register]
  exact ⟨unique.1.symm, unique.2.symm⟩

/-- Division by zero leaves the dividend and a quotient of ones. -/
theorem Digits.divided_by_zero
    (holds : Digits dividend denom done 0 state rest quotient)
    (zero : denom = 0) :
    state.result + 1 = 2 ^ done ∧ state.work = dividend := by
  have none : rest = 0 := Nat.lt_one_iff.mp holds.restBound
  have value := holds.value
  rw [none, zero, Nat.mul_zero, Nat.pow_zero, Nat.mul_one, Nat.add_zero]
    at value
  rw [holds.register, none, Nat.zero_mul, Nat.zero_add]
  exact ⟨holds.filled zero, value.symm⟩

end RestoringDivision
