import Ria.Backend.MulDivPipe
import Ria.Library.RestoringDivision

/-!
# Divisions

The divider as a restoring division of 32 digits, and a division that goes
through the pipe.  The partial remainder has as many bits as steps have been
done, so that the bit shifted out of `work` is always zero.
-/

namespace Ria

open Hdl RestoringDivision

namespace Divider

variable {unit : Divider}

/-- The registers of the division. -/
def registers (unit : Divider) : State :=
  { work := unit.work.toNat, result := unit.result.toNat }

private theorem toNat_append_bit {width : Nat} (high : BitVec width)
    (low : BitVec 1) : (high ++ low).toNat = 2 * high.toNat + low.toNat := by
  rw [BitVec.toNat_append, ← Nat.shiftLeft_add_eq_or_of_lt low.isLt,
    Nat.shiftLeft_eq]
  omega

theorem toNat_shifted (unit : Divider) (small : unit.work.toNat < 2 ^ 31) :
    unit.shifted.toNat = unit.registers.shifted 31 := by
  have bound := unit.result.isLt
  rw [Divider.shifted, toNat_append_bit, BitVec.extractLsb'_toNat,
    BitVec.extractLsb'_toNat, Nat.shiftRight_zero,
    Nat.shiftRight_eq_div_pow, Nat.mod_eq_of_lt small]
  simp only [State.shifted, registers]
  omega

private theorem toNat_sub_wide (left right : Word) :
    (left.setWidth 33 - right.setWidth 33).toNat =
      if left.toNat < right.toNat then
        2 ^ 33 - (right.toNat - left.toNat)
      else left.toNat - right.toNat := by
  have leftBound := left.isLt
  have rightBound := right.isLt
  rw [BitVec.toNat_sub, BitVec.toNat_setWidth, BitVec.toNat_setWidth]
  split
  · omega
  · omega

/-- The top bit of the difference is the borrow. -/
theorem borrow_iff (unit : Divider) :
    unit.sub.getLsbD 32 = true ↔
      unit.shifted.toNat < unit.denom.toNat := by
  have leftBound := unit.shifted.isLt
  have rightBound := unit.denom.isLt
  have value := toNat_sub_wide unit.shifted unit.denom
  rw [BitVec.getLsbD, Nat.testBit_eq_decide_div_mod_eq, decide_eq_true_iff]
  unfold Divider.sub
  rw [value]
  split
  · omega
  · omega

theorem registers_next (running : unit.active = true)
    (small : unit.work.toNat < 2 ^ 31) (a b : Word) :
    (unit.next false false a b).registers =
      step 31 unit.denom.toNat unit.registers := by
  have shifted := unit.toNat_shifted small
  have value := toNat_sub_wide unit.shifted unit.denom
  have bound := unit.shifted.isLt
  have low : (unit.result.extractLsb' 0 31).toNat =
      unit.result.toNat % 2 ^ 31 := by
    rw [BitVec.extractLsb'_toNat, Nat.shiftRight_zero]
  unfold Divider.next step
  rw [if_neg Bool.false_ne_true, if_neg Bool.false_ne_true, if_pos running,
    ← shifted]
  by_cases borrow : unit.sub.getLsbD 32 = true
  · have less := unit.borrow_iff.mp borrow
    simp only [registers, if_pos borrow, if_pos less, toNat_append_bit, low,
      State.mk.injEq, true_and]
    rw [BitVec.toNat_ofNat]
    omega
  · have less : ¬ unit.shifted.toNat < unit.denom.toNat := fun less =>
      borrow (unit.borrow_iff.mpr less)
    rw [if_neg less] at value
    simp only [registers, if_neg borrow, if_neg less, toNat_append_bit, low,
      State.mk.injEq, BitVec.toNat_setWidth]
    constructor
    · unfold Divider.sub
      rw [value]
      omega
    · rw [BitVec.toNat_ofNat]
      omega

/-- The divider after `done` steps of the division of `a` by `b`. -/
structure Dividing (unit : Divider) (a b : Word) (done : Nat) : Prop where
  within : done ≤ 32
  denom : unit.denom = b
  active : unit.active = decide (done < 32)
  cycle : done < 32 → unit.cycle.toNat = 31 - done
  digits : ∃ rest quotient, Digits a.toNat b.toNat done (32 - done)
    unit.registers rest quotient

theorem dividing_start (unit : Divider) (a b : Word) :
    (unit.next false true a b).Dividing a b 0 where
  within := Nat.zero_le 32
  denom := rfl
  active := rfl
  cycle := fun _ => rfl
  digits := ⟨a.toNat, 0, Digits.start a.isLt⟩

theorem Dividing.work_lt {a b : Word} {done : Nat}
    (dividing : unit.Dividing a b done) : unit.work.toNat < 2 ^ done := by
  obtain ⟨rest, quotient, holds⟩ := dividing.digits
  apply holds.work_lt
  rw [Nat.add_sub_cancel' dividing.within]
  exact a.isLt

/-- While steps are left the bit that the shift drops is zero. -/
theorem Dividing.small {a b : Word} {done : Nat}
    (dividing : unit.Dividing a b done) (more : done < 32) :
    unit.work.toNat < 2 ^ 31 := by
  have bits : 2 ^ done ≤ 2 ^ 31 :=
    Nat.pow_le_pow_right (by decide) (Nat.le_of_lt_succ more)
  exact Nat.lt_of_lt_of_le dividing.work_lt bits

theorem Dividing.next {a b : Word} {done : Nat}
    (dividing : unit.Dividing a b done) (more : done < 32) (x y : Word) :
    (unit.next false false x y).Dividing a b (done + 1) := by
  have running : unit.active = true := by
    rw [dividing.active, decide_eq_true more]
  have count := dividing.cycle more
  obtain ⟨rest, quotient, holds⟩ := dividing.digits
  have left : 32 - done = 32 - (done + 1) + 1 := by omega
  rw [left] at holds
  have all : done + (32 - (done + 1)) = 31 := by omega
  obtain ⟨digit, stepped⟩ := holds.step all
  have same := registers_next running (dividing.small more) x y
  constructor
  · exact more
  · unfold Divider.next
    rw [if_neg Bool.false_ne_true, if_neg Bool.false_ne_true, if_pos running]
    exact dividing.denom
  · unfold Divider.next
    rw [if_neg Bool.false_ne_true, if_neg Bool.false_ne_true, if_pos running]
    rw [Bool.eq_iff_iff, bne_iff_ne, decide_eq_true_iff, ne_eq,
      ← BitVec.toNat_inj, count]
    simp only [BitVec.ofNat_eq_ofNat, BitVec.toNat_ofNat]
    omega
  · intro further
    unfold Divider.next
    rw [if_neg Bool.false_ne_true, if_neg Bool.false_ne_true, if_pos running]
    change (unit.cycle - 1).toNat = _
    rw [BitVec.toNat_sub, count]
    simp only [BitVec.ofNat_eq_ofNat, BitVec.toNat_ofNat]
    omega
  · rw [same, dividing.denom]
    exact ⟨_, _, stepped⟩

theorem Dividing.divided {a b : Word} (dividing : unit.Dividing a b 32) :
    unit.result = (if b = 0 then BitVec.ofNat 32 (2 ^ 32 - 1) else a / b) ∧
      unit.work = if b = 0 then a else a % b := by
  obtain ⟨rest, quotient, holds⟩ := dividing.digits
  by_cases zero : b = 0
  · obtain ⟨ones, whole⟩ := holds.divided_by_zero (congrArg _ zero)
    rw [if_pos zero, if_pos zero]
    constructor
    · apply BitVec.eq_of_toNat_eq
      exact Nat.eq_sub_of_add_eq ones
    · exact BitVec.eq_of_toNat_eq whole
  · have positive : 0 < b.toNat := by
      apply Nat.pos_of_ne_zero
      intro none
      exact zero (BitVec.eq_of_toNat_eq none)
    obtain ⟨divided, remains⟩ := holds.divided positive
    rw [if_neg zero, if_neg zero]
    constructor
    · apply BitVec.eq_of_toNat_eq
      rw [BitVec.toNat_udiv]
      exact divided
    · apply BitVec.eq_of_toNat_eq
      rw [BitVec.toNat_umod]
      exact remains

end Divider

namespace Pipe2

section Cycle

variable {pipe : Pipe2} {input : Pipe2Input}

theorem imul_free_cycle (running : input.reset = false)
    (none : input.multiplies = false) (free : pipe.imul.busy = false) :
    (pipe.cycle input).imul.busy = false := by
  rw [imul_cycle pipe running]
  exact Imul.not_busy_next free none input.in1 input.in2

theorem busy_of_dividing {a b : Word} {done : Nat}
    (dividing : pipe.idiv.Dividing a b done) (more : done < 32) :
    pipe.busy = true := by
  rw [busy, Divider.ok, dividing.active, decide_eq_true more]
  exact Bool.or_true _

theorem free_of_divided {a b : Word}
    (dividing : pipe.idiv.Dividing a b 32) (free : pipe.imul.busy = false) :
    pipe.busy = false :=
  (not_busy_iff pipe).mpr ⟨free, dividing.active⟩

end Cycle

section Run

variable {pipe : Pipe2} {input : Nat → Pipe2Input}

theorem during_dividing (idle : pipe.busy = false)
    (accepted : (input 0).divides = true)
    (running : ∀ time, time ≤ 32 → (input time).reset = false)
    (alone : ∀ time, 0 < time → time ≤ 32 →
      (input time).uop.valid = false)
    (done : Nat) (within : done ≤ 32) :
    (pipe.during input (done + 1)).idiv.Dividing (input 0).in1 (input 0).in2
        done ∧
      (pipe.during input (done + 1)).imul.busy = false := by
  induction done with
  | zero =>
      have noMultiply : (input 0).multiplies = false := by
        have divides := (Pipe2Input.divides_iff _).mp accepted
        rw [Pipe2Input.multiplies, divides.2]
        exact Bool.and_false _
      have start := running 0 (Nat.zero_le 32)
      constructor
      · change (pipe.cycle (input 0)).idiv.Dividing _ _ 0
        rw [idiv_cycle pipe start, accepted]
        exact pipe.idiv.dividing_start _ _
      · exact imul_free_cycle start noMultiply ((not_busy_iff pipe).mp idle).1
  | succ done induction =>
      obtain ⟨dividing, free⟩ := induction (Nat.le_of_succ_le within)
      have later := running (done + 1) within
      have silent := alone (done + 1) (Nat.succ_pos done) within
      constructor
      · change ((pipe.during input (done + 1)).cycle _).idiv.Dividing _ _ _
        rw [idiv_cycle _ later, Pipe2Input.divides_of_invalid silent]
        exact dividing.next within _ _
      · exact imul_free_cycle later
          (Pipe2Input.multiplies_of_invalid silent) free

theorem during_uopReg (idle : pipe.busy = false)
    (accepted : (input 0).uop.valid = true)
    (running : ∀ time, time ≤ 32 → (input time).reset = false)
    (kept : ∀ time, time ≤ 32 → (input time).clear = false)
    (alone : ∀ time, 0 < time → time ≤ 32 →
      (input time).uop.valid = false)
    (done : Nat) (within : done ≤ 32) :
    (pipe.during input (done + 1)).uopReg = (input 0).uop := by
  induction done with
  | zero =>
      have start := uopReg_cycle pipe (running 0 within) (kept 0 within)
      rw [idle, accepted] at start
      exact start
  | succ done induction =>
      have later := uopReg_cycle (pipe.during input (done + 1))
        (running (done + 1) within) (kept (done + 1) within)
      rw [alone (done + 1) (Nat.succ_pos done) within, Bool.and_false]
        at later
      exact later.trans (induction (Nat.le_of_succ_le within))

/-- A division that a free pipe accepts, followed by no other uop: the pipe
is busy and shows nothing for 32 cycles, in which the top bit of the partial
remainder is zero, and then holds the quotient and the remainder; the uop is
shown with the quotient unless it has been squashed. -/
theorem division_is_exact (pipe : Pipe2) (input : Nat → Pipe2Input)
    (idle : pipe.busy = false)
    (accepted : (input 0).uop.valid = true ∧ (input 0).uop.fuCode = .idiv)
    (running : ∀ time, time ≤ 32 → (input time).reset = false)
    (alone : ∀ time, 0 < time → time ≤ 32 →
      (input time).uop.valid = false) :
    let state := pipe.during input
    let a := (input 0).in1
    let b := (input 0).in2
    (∀ time, 0 < time → time ≤ 32 → (state time).busy = true ∧
        (state time).uopOut = 0 ∧ (state time).idiv.work.msb = false) ∧
      (state 33).busy = false ∧
      (state 33).idiv.result =
        (if b = 0 then BitVec.ofNat 32 (2 ^ 32 - 1) else a / b) ∧
      (state 33).idiv.work = (if b = 0 then a else a % b) ∧
      ((∀ time, time ≤ 32 → (input time).clear = false) →
        (state 33).uopOut = (input 0).uop ∧
          (state 33).out =
            if b = 0 then BitVec.ofNat 32 (2 ^ 32 - 1) else a / b) := by
  intro state a b
  have divides := (Pipe2Input.divides_iff (input 0)).mpr accepted
  have progress := during_dividing idle divides running alone
  obtain ⟨dividing, free⟩ := progress 32 (Nat.le_refl 32)
  obtain ⟨quotient, remainder⟩ := dividing.divided
  have stopped := free_of_divided dividing free
  refine ⟨?_, stopped, quotient, remainder, ?_⟩
  · intro time started within
    obtain ⟨done, rfl⟩ := Nat.exists_eq_add_one_of_ne_zero
      (Nat.pos_iff_ne_zero.mp started)
    obtain ⟨dividing, free⟩ := progress done (Nat.le_of_succ_le within)
    have busy := busy_of_dividing dividing within
    refine ⟨busy, uopOut_of_busy busy, ?_⟩
    rw [BitVec.msb_eq_false_iff_two_mul_lt]
    have small : (state (done + 1)).idiv.work.toNat < 2 ^ 31 :=
      dividing.small within
    omega
  · intro kept
    have shown : (state 33).uopOut = (input 0).uop :=
      (uopOut_of_free stopped).trans
        (during_uopReg idle accepted.1 running kept alone 32 (Nat.le_refl 32))
    refine ⟨shown, ?_⟩
    rw [out, shown, accepted.2, mask32_and, mask32_and]
    exact BitVec.zero_or.trans quotient

/-- The division of 7 by 2 in cycle 0. -/
def sevenByTwo (time : Nat) : Pipe2Input :=
  { reset := false, clear := false
    uop :=
      { (0 : MicroOp) with
        valid := decide (time = 0), fuCode := .idiv, idivType := .divu }
    in1 := 7, in2 := 2 }

theorem division_is_exact_sevenByTwo :
    (freePipe.during sevenByTwo 33).uopOut = (sevenByTwo 0).uop ∧
      (freePipe.during sevenByTwo 33).out = 3 ∧
      (freePipe.during sevenByTwo 33).idiv.work = 1 := by
  have divided := division_is_exact freePipe sevenByTwo rfl ⟨rfl, rfl⟩
    (fun _ _ => rfl)
    (fun _ later _ => decide_eq_false (Nat.pos_iff_ne_zero.mp later))
  obtain ⟨-, -, -, remainder, shown⟩ := divided
  have out := shown fun _ _ => rfl
  exact ⟨out.1, out.2, remainder⟩

end Run

end Pipe2

end Ria
