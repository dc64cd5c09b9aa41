import Ria.Backend.MulDivPipe

/-!
# Multiplications

The control bits of `imul` go through five stages and the operands through
seven, so that a uop comes out with the product of the operands that arrived
two cycles before it.  `range` is set for every type but `IMUL_MULHU`, and it
selects the high half.
-/

namespace Ria

open Hdl

/-- The half of the 64-bit product that a type asks for. -/
def productHalf (high : Bool) (product : BitVec 64) : Word :=
  if high then product.extractLsb' 32 32 else product.extractLsb' 0 32

/-- `in1 * in2` in 64 bits. -/
def wideProduct (in1 in2 : Word) : BitVec 64 :=
  in1.setWidth 64 * in2.setWidth 64

namespace Pipe2

variable {pipe : Pipe2} {input : Nat → Pipe2Input}

/-- The product in the first stage of the multiplier in cycle `time`: that of
the operands two cycles earlier. -/
def arrived (pipe : Pipe2) (input : Nat → Pipe2Input) : Nat → BitVec 64
  | 0 => pipe.imul.intMult.m 0
  | 1 => wideProduct pipe.imul.intMult.rA pipe.imul.intMult.rB
  | time + 2 => wideProduct (input time).in1 (input time).in2

theorem during_arrived (pipe : Pipe2) (input : Nat → Pipe2Input)
    (time : Nat) :
    (pipe.during input time).imul.intMult.m 0 = arrived pipe input time := by
  match time with
  | 0 => rfl
  | 1 => exact congrArg (ImulUnsigned.m · 0) (intMult_cycle pipe (input 0))
  | time + 2 =>
      rw [during_succ, intMult_cycle]
      change wideProduct (pipe.during input (time + 1)).imul.intMult.rA
        (pipe.during input (time + 1)).imul.intMult.rB = _
      rw [during_succ, intMult_cycle]
      rfl

theorem during_product (pipe : Pipe2) (input : Nat → Pipe2Input)
    (time : Nat) :
    (pipe.during input (time + 5)).imul.finalProduct =
      arrived pipe input time := by
  have product : ∀ unit : Imul, unit.finalProduct = unit.intMult.m 5 := by
    intro unit
    unfold Imul.finalProduct
    split
    · rfl
    · split
      · rfl
      · rfl
  rw [product, ← during_arrived]
  refine shiftIn_delays (fun time => (pipe.during input time).imul.intMult.m)
    time 5 (by decide) ?_
  intro time _ _
  refine ⟨wideProduct (pipe.during input time).imul.intMult.rA
    (pipe.during input time).imul.intMult.rB, ?_⟩
  rw [during_succ, intMult_cycle]
  rfl

/-- The half that is selected was decided five cycles earlier. -/
theorem during_range (time : Nat)
    (running : ∀ later, time ≤ later → later < time + 5 →
      (input later).reset = false) :
    (pipe.during input (time + 5)).imul.range 4 =
      ((input time).uop.imulType != .mulhu) := by
  have start := running time (Nat.le_refl _)
    (Nat.lt_add_of_pos_right (by decide))
  have first : (pipe.during input (time + 1)).imul.range 0 =
      ((input time).uop.imulType != .mulhu) := by
    rw [during_succ, imul_cycle _ start]
    rfl
  rw [← first]
  refine shiftIn_delays (fun time => (pipe.during input time).imul.range)
    (time + 1) 4 (by decide) ?_
  intro later above below
  refine ⟨((input later).uop.imulType != .mulhu), ?_⟩
  rw [during_succ,
    imul_cycle _ (running later (Nat.le_of_succ_le above) (by omega))]
  rfl

/-- A multiplication keeps the pipe busy for the cycles 1 to 4 after it. -/
theorem during_busy (multiplies : (input 0).multiplies = true) {time : Nat}
    (started : 0 < time) (within : time ≤ 4)
    (running : ∀ earlier, earlier < time → (input earlier).reset = false) :
    (pipe.during input time).busy = true := by
  have first : (pipe.during input 1).imul.valid 0 = true := by
    rw [during_succ, imul_cycle _ (running 0 started)]
    exact multiplies
  obtain ⟨count, rfl⟩ := Nat.exists_eq_add_one_of_ne_zero
    (Nat.pos_iff_ne_zero.mp started)
  have stage := shiftIn_delays
    (fun time => (pipe.during input time).imul.valid) 1 count (by omega)
    (by
      intro time above below
      refine ⟨(input time).multiplies, ?_⟩
      rw [during_succ, imul_cycle _ (running time (by omega))]
      rfl)
  rw [Nat.add_comm 1 count] at stage
  have set := stage.trans first
  have stages : count = 0 ∨ count = 1 ∨ count = 2 ∨ count = 3 := by omega
  rw [busy, Imul.busy]
  rcases stages with rfl | rfl | rfl | rfl
  · simp [show (pipe.during input (0 + 1)).imul.valid 0 = true from set]
  · simp [show (pipe.during input (1 + 1)).imul.valid 1 = true from set]
  · simp [show (pipe.during input (2 + 1)).imul.valid 2 = true from set]
  · simp [show (pipe.during input (3 + 1)).imul.valid 3 = true from set]

theorem during_held (idle : pipe.busy = false)
    (accepted : (input 0).uop.valid = true) {time : Nat}
    (started : 0 < time)
    (busy : ∀ earlier, 0 < earlier → earlier < time →
      (pipe.during input earlier).busy = true)
    (running : ∀ earlier, earlier < time → (input earlier).reset = false)
    (kept : ∀ earlier, earlier < time → (input earlier).clear = false) :
    (pipe.during input time).uopReg = (input 0).uop := by
  induction time with
  | zero => exact absurd started (Nat.lt_irrefl 0)
  | succ time induction =>
      have held := uopReg_cycle (pipe.during input time)
        (running time (Nat.lt_succ_self _)) (kept time (Nat.lt_succ_self _))
      rcases Nat.eq_zero_or_pos time with rfl | later
      · have start : (pipe.during input 0).busy = false := idle
        rw [start, accepted] at held
        exact held
      · rw [busy time later (Nat.lt_succ_self _)] at held
        apply held.trans
        apply induction later
        · intro earlier above below
          exact busy earlier above (Nat.lt_succ_of_lt below)
        · intro earlier below
          exact running earlier (Nat.lt_succ_of_lt below)
        · intro earlier below
          exact kept earlier (Nat.lt_succ_of_lt below)

/-- A multiplication that a free pipe accepts is shown in the first later
cycle in which the pipe is free, with the half of the product it asks for
exactly when the half opposite to the type five cycles before, of the product
of the operands that arrived seven cycles before, has the same value. -/
theorem multiplication_iff (pipe : Pipe2) (input : Nat → Pipe2Input)
    (idle : pipe.busy = false)
    (accepted : (input 0).uop.valid = true ∧ (input 0).uop.fuCode = .imul)
    (time : Nat) (started : 0 < time)
    (busy : ∀ earlier, 0 < earlier → earlier < time →
      (pipe.during input earlier).busy = true)
    (free : (pipe.during input time).busy = false)
    (running : ∀ earlier, earlier < time → (input earlier).reset = false)
    (kept : ∀ earlier, earlier < time → (input earlier).clear = false) :
    5 ≤ time ∧ (pipe.during input time).uopOut = (input 0).uop ∧
      ((pipe.during input time).out =
          productHalf ((input 0).uop.imulType == .mulhu)
            (wideProduct (input 0).in1 (input 0).in2) ↔
        productHalf ((input (time - 5)).uop.imulType != .mulhu)
            (arrived pipe input (time - 5)) =
          productHalf ((input 0).uop.imulType == .mulhu)
            (wideProduct (input 0).in1 (input 0).in2)) := by
  have multiplies := (Pipe2Input.multiplies_iff (input 0)).mpr accepted
  have late : 5 ≤ time := by
    apply Nat.le_of_not_lt
    intro early
    have still : (pipe.during input time).busy = true :=
      during_busy multiplies started (Nat.le_of_lt_succ early) running
    rw [free] at still
    exact absurd still Bool.false_ne_true
  have shown : (pipe.during input time).uopOut = (input 0).uop :=
    (uopOut_of_free free).trans
      (during_held idle accepted.1 started busy running kept)
  refine ⟨late, shown, ?_⟩
  obtain ⟨since, rfl⟩ := Nat.exists_eq_add_of_le' late
  have range : (pipe.during input (since + 5)).imul.range 4 = _ :=
    during_range since fun later _ below => running later below
  rw [Nat.add_sub_cancel, out, shown, accepted.2, mask32_and, mask32_and]
  change (_ ||| 0#32) = _ ↔ _
  rw [BitVec.or_zero, if_pos (by rfl), Imul.out, range,
    during_product pipe input since]
  rfl

/-- 3 and 5 are on the operand inputs; a multiplication arrives in cycle
`start`. -/
def threeByFive (kind : ImulType) (start time : Nat) : Pipe2Input :=
  { reset := false, clear := false
    uop :=
      { (0 : MicroOp) with
        valid := decide (time = start), fuCode := .imul, imulType := kind }
    in1 := 3, in2 := 5 }

theorem multiplication_iff_threeByFive :
    (freePipe.during (threeByFive .mul 0) 5).uopOut = (threeByFive .mul 0 0).uop ∧
      ((freePipe.during (threeByFive .mul 0) 5).out = 15 ↔ (0 : Word) = 15) := by
  have shown := multiplication_iff freePipe (threeByFive .mul 0) rfl
    ⟨rfl, rfl⟩ 5 (by decide)
    (fun _ started within =>
      during_busy rfl started (Nat.le_of_lt_succ within) fun _ _ => rfl)
    (by decide +kernel) (fun _ _ => rfl) (fun _ _ => rfl)
  exact shown.2

/-- With the operands held on the inputs since before the multiplication, the
first cycle that shows the uop has the other half of the product. -/
theorem held_operands_give_other_half :
    let pipe := freePipe.during (threeByFive .mul 2) 2
    let multiplies := pipe.during (threeByFive .mul 0)
    let multipliesHigh := pipe.during (threeByFive .mulhu 0)
    pipe.busy = false ∧
      (∀ time, 0 < time → time ≤ 4 → (multiplies time).busy = true ∧
        (multipliesHigh time).busy = true) ∧
      (multiplies 5).uopOut = (threeByFive .mul 0 0).uop ∧
      (multiplies 5).out = 0 ∧
      (multiplies 5).out ≠ productHalf false (wideProduct 3 5) ∧
      (multipliesHigh 5).uopOut = (threeByFive .mulhu 0 0).uop ∧
      (multipliesHigh 5).out = 15 ∧
      (multipliesHigh 5).out ≠ productHalf true (wideProduct 3 5) := by
  refine ⟨?_, ?_, rfl, ?_, ?_, rfl, ?_, ?_⟩
  · decide +kernel
  · intro time started within
    constructor
    · exact during_busy rfl started within fun _ _ => rfl
    · exact during_busy rfl started within fun _ _ => rfl
  · decide +kernel
  · decide +kernel
  · decide +kernel
  · decide +kernel

end Pipe2

end Ria
