import Ria.Backend.ExecutionUnit
import Ria.Library.Loop

/-!
# The multiply/divide pipe over time

`Pipe2` with its inputs of a cycle in one record.  The pipe is free when no
multiplication is in the first stages and the divider has stopped; the uop it
has accepted stays in its register until the next one is.
-/

namespace Ria

open Hdl

/-- The inputs of `pipe_2`. -/
structure Pipe2Input where
  reset : Bool
  clear : Bool
  uop : MicroOp
  in1 : Word
  in2 : Word

/-- A multiplication arrives. -/
def Pipe2Input.multiplies (input : Pipe2Input) : Bool :=
  input.uop.valid && input.uop.fuCode == .imul

/-- A division arrives. -/
def Pipe2Input.divides (input : Pipe2Input) : Bool :=
  input.uop.valid && input.uop.fuCode == .idiv

theorem Pipe2Input.divides_iff (input : Pipe2Input) :
    input.divides = true ↔
      input.uop.valid = true ∧ input.uop.fuCode = .idiv := by
  rw [divides, Bool.and_eq_true, beq_iff_eq]

theorem Pipe2Input.multiplies_iff (input : Pipe2Input) :
    input.multiplies = true ↔
      input.uop.valid = true ∧ input.uop.fuCode = .imul := by
  rw [multiplies, Bool.and_eq_true, beq_iff_eq]

theorem Pipe2Input.divides_of_invalid {input : Pipe2Input}
    (invalid : input.uop.valid = false) : input.divides = false := by
  rw [divides, invalid, Bool.false_and]

theorem Pipe2Input.multiplies_of_invalid {input : Pipe2Input}
    (invalid : input.uop.valid = false) : input.multiplies = false := by
  rw [multiplies, invalid, Bool.false_and]

/-- What is in the first stage of a shift register is in stage `count` after
as many cycles. -/
theorem shiftIn_delays {α : Type} {n : Nat} (line : Nat → Fin n → α)
    (first count : Nat) (within : count < n)
    (shifts : ∀ time, first ≤ time → time < first + count →
      ∃ head, line (time + 1) = shiftIn head (line time)) :
    line (first + count) ⟨count, within⟩ =
      line first ⟨0, Nat.zero_lt_of_lt within⟩ := by
  induction count with
  | zero => rfl
  | succ count induction =>
      obtain ⟨head, shifted⟩ := shifts (first + count)
        (Nat.le_add_right _ _) (Nat.lt_succ_self _)
      have before := induction (Nat.lt_of_succ_lt within)
        fun time later below => shifts time later (Nat.lt_succ_of_lt below)
      rw [← Nat.add_assoc, shifted, ← before]
      exact if_neg (Nat.succ_ne_zero count)

theorem Imul.busy_next (unit : Imul) (uop : MicroOp) (in1 in2 : Word) :
    (unit.next false uop in1 in2).busy =
      (uop.valid && uop.fuCode == .imul || unit.valid 0 || unit.valid 1 ||
        unit.valid 2) := rfl

theorem Imul.not_busy_next {unit : Imul} (idle : unit.busy = false)
    {uop : MicroOp} (none : (uop.valid && uop.fuCode == .imul) = false)
    (in1 in2 : Word) : (unit.next false uop in1 in2).busy = false := by
  simp only [Imul.busy, Bool.or_eq_false_iff] at idle
  rw [busy_next, none, idle.1.1.1, idle.1.1.2, idle.1.2]
  rfl

namespace Pipe2

/-- A pipe that holds nothing. -/
def freePipe : Pipe2 :=
  { uopReg := 0
    imul :=
      { range := fun _ => false, signReg := fun _ => 0, valid := fun _ => false
        intMult := { rA := 0, rB := 0, m := fun _ => 0 } }
    idiv := { active := false, cycle := 0, result := 0, denom := 0, work := 0 } }

def cycle (pipe : Pipe2) (input : Pipe2Input) : Pipe2 :=
  pipe.next input.reset input.clear input.uop input.in1 input.in2

/-- The pipe before each cycle. -/
def during (pipe : Pipe2) (input : Nat → Pipe2Input) : Nat → Pipe2 :=
  states cycle pipe input

theorem during_succ (pipe : Pipe2) (input : Nat → Pipe2Input) (time : Nat) :
    pipe.during input (time + 1) =
      (pipe.during input time).cycle (input time) := rfl

variable {pipe : Pipe2} {input : Pipe2Input}

theorem imul_cycle (pipe : Pipe2) (running : input.reset = false) :
    (pipe.cycle input).imul =
      pipe.imul.next false input.uop input.in1 input.in2 := by
  unfold cycle next
  rw [running]

theorem idiv_cycle (pipe : Pipe2) (running : input.reset = false) :
    (pipe.cycle input).idiv =
      pipe.idiv.next false input.divides input.in1 input.in2 := by
  unfold cycle next
  rw [running]
  rfl

/-- The multiplier core knows no reset. -/
theorem intMult_cycle (pipe : Pipe2) (input : Pipe2Input) :
    (pipe.cycle input).imul.intMult =
      pipe.imul.intMult.next input.in1 input.in2 := by
  unfold cycle next Imul.next
  cases input.reset with
  | true => rfl
  | false => rfl

theorem not_busy_iff (pipe : Pipe2) :
    pipe.busy = false ↔ pipe.imul.busy = false ∧ pipe.idiv.active = false := by
  rw [busy, Bool.or_eq_false_iff, Divider.ok, Bool.not_not]

theorem uopOut_of_busy (busy : pipe.busy = true) : pipe.uopOut = 0 :=
  if_pos busy

theorem uopOut_of_free (free : pipe.busy = false) :
    pipe.uopOut = pipe.uopReg :=
  if_neg (Bool.eq_false_iff.mp free)

theorem uopReg_cycle (pipe : Pipe2) (running : input.reset = false)
    (kept : input.clear = false) :
    (pipe.cycle input).uopReg =
      if !pipe.busy && input.uop.valid then input.uop else pipe.uopReg := by
  unfold cycle next
  rw [running, kept]
  rfl

end Pipe2

/-! ## The cycles that are left -/

/-- The cycles for which the multiplier stays busy. -/
def Imul.left (unit : Imul) : Nat :=
  if unit.valid 0 then 4
  else if unit.valid 1 then 3
  else if unit.valid 2 then 2
  else if unit.valid 3 then 1
  else 0

/-- The cycles for which the divider runs. -/
def Divider.left (unit : Divider) : Nat :=
  if unit.active then unit.cycle.toNat + 1 else 0

def Pipe2.left (pipe : Pipe2) : Nat := max pipe.imul.left pipe.idiv.left

theorem Imul.busy_iff_left (unit : Imul) :
    unit.busy = true ↔ 0 < unit.left := by
  unfold busy left
  cases unit.valid 0 <;> cases unit.valid 1 <;> cases unit.valid 2 <;>
    cases unit.valid 3 <;> decide

theorem Imul.left_le (unit : Imul) : unit.left ≤ 4 := by
  unfold left
  repeat' split
  all_goals decide

theorem Imul.left_next (unit : Imul) {uop : MicroOp}
    (none : (uop.valid && uop.fuCode == .imul) = false) (in1 in2 : Word) :
    (unit.next false uop in1 in2).left = unit.left - 1 := by
  have first : (unit.next false uop in1 in2).valid 0 = false := none
  have second : (unit.next false uop in1 in2).valid 1 = unit.valid 0 := rfl
  have third : (unit.next false uop in1 in2).valid 2 = unit.valid 1 := rfl
  have fourth : (unit.next false uop in1 in2).valid 3 = unit.valid 2 := rfl
  unfold left
  rw [first, second, third, fourth]
  cases unit.valid 0 <;> cases unit.valid 1 <;> cases unit.valid 2 <;>
    cases unit.valid 3 <;> decide

theorem Divider.left_le (unit : Divider) : unit.left ≤ 32 := by
  unfold left
  have bound := unit.cycle.isLt
  split
  · omega
  · exact Nat.zero_le _

theorem Divider.left_next (unit : Divider) (a b : Word) :
    (unit.next false false a b).left = unit.left - 1 := by
  cases running : unit.active with
  | true =>
      have active : (unit.next false false a b).active =
          (unit.cycle != 0) := by
        simp [Divider.next, running]
      have cycle : (unit.next false false a b).cycle = unit.cycle - 1 := by
        simp [Divider.next, running]
      have bound := unit.cycle.isLt
      unfold left
      rw [active, cycle, running, if_pos rfl, Nat.add_sub_cancel]
      by_cases last : unit.cycle = 0
      · rw [last]
        rfl
      · have more : unit.cycle.toNat ≠ 0 := fun zero =>
          last (BitVec.eq_of_toNat_eq zero)
        rw [if_pos (bne_iff_ne.mpr last), BitVec.toNat_sub]
        simp only [BitVec.ofNat_eq_ofNat, BitVec.toNat_ofNat]
        omega
  | false =>
      have stays : unit.next false false a b = unit := by
        simp [Divider.next, running]
      rw [stays, left, running]
      rfl

namespace Pipe2

theorem busy_iff_left (pipe : Pipe2) : pipe.busy = true ↔ 0 < pipe.left := by
  have divides : (!pipe.idiv.ok) = true ↔ 0 < pipe.idiv.left := by
    unfold Divider.ok Divider.left
    cases pipe.idiv.active with
    | true => simp
    | false => simp
  rw [busy, Bool.or_eq_true, Imul.busy_iff_left, divides, left]
  omega

theorem left_le (pipe : Pipe2) : pipe.left ≤ 32 :=
  Nat.max_le.mpr
    ⟨pipe.imul.left_le.trans (by decide), pipe.idiv.left_le⟩

theorem left_cycle (pipe : Pipe2) (input : Pipe2Input)
    (running : input.reset = false) (none : input.uop.valid = false) :
    (pipe.cycle input).left = pipe.left - 1 := by
  have divides := Pipe2Input.divides_of_invalid none
  have multiplies := Pipe2Input.multiplies_of_invalid none
  rw [left, imul_cycle pipe running, idiv_cycle pipe running, divides,
    Divider.left_next, Imul.left_next _ multiplies, left]
  omega

end Pipe2

end Ria
