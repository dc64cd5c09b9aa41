import Ria.Core.InFlight

/-!
# What a uop does

The value that a uop writes, its outcome and its request are a function of
the registers and of the answer of the data cache.  A pipe that is given the
operands of a uop shows this effect in the cycle of the write-back.
-/

namespace Ria

open Hdl

/-- The value for the register, the outcome of a branch, and the request of a
load or store -/
structure Effect where
  data : Word
  outcome : Option (Bool × Word)
  access : Option DcachePort

namespace MicroOp

def outcome (uop : MicroOp) : Option (Bool × Word) :=
  if uop.fuCode = .br then some (uop.brTaken, uop.brAddr) else none

/-- An operand of the uop when the registers are as given -/
def operand (uop : MicroOp) (source : RsSource) (arf : ArfIndex)
    (registers : ArfIndex → Word) : Word :=
  prfIntSelect source (if arf = 0 then 0 else registers arf) uop.imm uop.pc
    uop.npc

def operand1 (uop : MicroOp) (registers : ArfIndex → Word) : Word :=
  uop.operand uop.rs1Source uop.rs1ArfIntIndex registers

def operand2 (uop : MicroOp) (registers : ArfIndex → Word) : Word :=
  uop.operand uop.rs2Source uop.rs2ArfIntIndex registers

/-- What the uop does when the data cache answers `answer`. -/
def perform (uop : MicroOp) (answer : BitVec 64)
    (registers : ArfIndex → Word) : Effect :=
  let in1 := uop.operand1 registers
  let in2 := uop.operand2 registers
  match uop.fuCode with
  | .alu =>
      { data := aluResult uop in1 in2, outcome := none, access := none }
  | .br =>
      { data := branchOut uop
        outcome := some (branchResult uop in1 in2, branchAddr uop in1 in2)
        access := none }
  | .mem =>
      { data := if uop.memType = .st then 0 else uop.loaded answer
        outcome := none, access := some (uop.request in1 in2) }
  | _ => { data := 0, outcome := none, access := none }

def ReadsArf (uop : MicroOp) (arf : ArfIndex) : Prop :=
  arf ≠ 0 ∧ (uop.rs1Source = .fromRf ∧ uop.rs1ArfIntIndex = arf ∨
    uop.rs2Source = .fromRf ∧ uop.rs2ArfIntIndex = arf)

variable {uop other : MicroOp} {registers registers' : ArfIndex → Word}

theorem operand_congr {source : RsSource} {arf : ArfIndex}
    (same : source = .fromRf → arf ≠ 0 → registers arf = registers' arf) :
    uop.operand source arf registers = uop.operand source arf registers' := by
  unfold operand
  by_cases hardwired : arf = 0
  · rw [if_pos hardwired, if_pos hardwired]
  · cases source with
    | fromRf => rw [same rfl hardwired]
    | _ => rfl

theorem operand1_congr
    (same : ∀ arf, uop.ReadsArf arf → registers arf = registers' arf) :
    uop.operand1 registers = uop.operand1 registers' :=
  operand_congr fun source nonzero => same _ ⟨nonzero, .inl ⟨source, rfl⟩⟩

theorem operand2_congr
    (same : ∀ arf, uop.ReadsArf arf → registers arf = registers' arf) :
    uop.operand2 registers = uop.operand2 registers' :=
  operand_congr fun source nonzero => same _ ⟨nonzero, .inr ⟨source, rfl⟩⟩

theorem perform_congr (answer : BitVec 64)
    (same : ∀ arf, uop.ReadsArf arf → registers arf = registers' arf) :
    uop.perform answer registers = uop.perform answer registers' := by
  unfold perform
  rw [operand1_congr same, operand2_congr same]

end MicroOp

/-- What a uop did, and what the data cache answered in that cycle -/
structure Performed where
  answer : BitVec 64
  effect : Effect

/-- What the way shows in the cycle of the write-back. -/
def BackEnd.performed (backEnd : BackEnd) (input : BackEndInput)
    (way : Fin 4) : Performed :=
  { answer := input.dcacheData
    effect :=
      { data := backEnd.exRdDataOut input way
        outcome := (backEnd.exUopOut way).outcome
        access := if way = 3 then some backEnd.pipe3.port else none } }

/-- A way other than that of the memory pipe -/
def Integer (uops : Fin 4 → MicroOp) : Prop :=
  ∀ way, way ≠ 3 → (uops way).valid = true →
    (uops way).fuCode = .alu ∨ (uops way).fuCode = .br

/-! ## The pipes -/

theorem Pipe3.holding_effect {uop : MicroOp} (kind : uop.fuCode = .mem)
    (answer : BitVec 64) (registers : ArfIndex → Word) :
    let pipe := holding uop (uop.operand1 registers) (uop.operand2 registers)
    { data := pipe.out answer true, outcome := pipe.uopOut.outcome
      access := some pipe.port } = uop.perform answer registers := by
  have data : (holding uop (uop.operand1 registers)
      (uop.operand2 registers)).out answer true =
        if uop.memType = .st then 0 else uop.loaded answer := by
    by_cases store : uop.memType = .st
    · rw [if_pos store, holding_stores store]
    · rw [if_neg store, holding_loads store]
  have none : uop.outcome = none := if_neg (by rw [kind]; decide)
  have port : (holding uop (uop.operand1 registers)
      (uop.operand2 registers)).port =
        uop.request (uop.operand1 registers) (uop.operand2 registers) := rfl
  have held : (holding uop (uop.operand1 registers)
      (uop.operand2 registers)).uopOut = uop := rfl
  simp only [MicroOp.perform, kind, data, none, port, held]

theorem Pipe01.effect_next {uop : MicroOp}
    (kind : uop.fuCode = .alu ∨ uop.fuCode = .br) (answer : BitVec 64)
    (registers : ArfIndex → Word) :
    let pipe := Pipe01.next false false uop (uop.operand1 registers)
      (uop.operand2 registers)
    { data := pipe.out, outcome := pipe.uopOut.outcome, access := none } =
      uop.perform answer registers := by
  rcases kind with alu | br
  · have kept : Pipe01.uopNext uop (uop.operand1 registers)
        (uop.operand2 registers) = uop := if_neg (by rw [alu]; decide)
    simp [Pipe01.next, Pipe01.out, kept, MicroOp.perform, alu, mask32_and,
      MicroOp.outcome]
  · have decided : Pipe01.uopNext uop (uop.operand1 registers)
        (uop.operand2 registers) = branchUop uop (uop.operand1 registers)
          (uop.operand2 registers) := if_pos br
    simp [Pipe01.next, Pipe01.out, decided, MicroOp.perform, br, mask32_and,
      MicroOp.outcome, branchUop, MicroOp.withOutcome]

namespace BackEnd

variable {backEnd : BackEnd} {input : BackEndInput}

/-- What is issued to the integer pipes is for the ALU or the branch unit. -/
theorem integer_isUopOut
    (emitted : ∀ k, (backEnd.iqInt.slots k).Emitted) :
    Integer (backEnd.isUopOut input) := by
  have aluBr : ∀ way : Fin 3, way ≠ 2 →
      (backEnd.iqInt.uopOut (backEnd.intBusy input) way).valid = true →
      (backEnd.iqInt.uopOut (backEnd.intBusy input) way).fuCode = .alu ∨
        (backEnd.iqInt.uopOut (backEnd.intBusy input) way).fuCode = .br := by
    intro way first valid
    unfold IssueQueueInt.uopOut at valid ⊢
    cases chosen : backEnd.iqInt.outputSel (backEnd.intBusy input) way with
    | none =>
        rw [chosen] at valid
        cases valid
    | some k =>
        rcases IssueQueueInt.outputSel_aluBr first chosen with
          ⟨count, -, picked⟩
        have kind := (Bool.and_eq_true_iff.mp (ready_of_select picked)).2
        rw [Bool.or_eq_true, beq_iff_eq, beq_iff_eq] at kind
        exact kind
  intro way integer valid
  match way with
  | 0 => exact aluBr 0 (by decide) valid
  | 1 => exact aluBr 1 (by decide) valid
  | 2 =>
      rw [isUopOut_way2_of_emitted emitted] at valid
      cases valid
  | 3 => exact absurd rfl integer

/-- The pipes do what the program does with their operands. -/
theorem Flowing.performed_next (flowing : Flowing backEnd)
    (reset : input.reset = false) (clear : input.clear = false)
    (dataValid : input.dcacheDataValid = true)
    (integer : Integer backEnd.exUopIn) {way : Fin 4}
    (valid : ((backEnd.next input).exUopOut way).valid = true)
    {registers : ArfIndex → Word}
    (rs1 : backEnd.exRs1DataIn way = (backEnd.exUopIn way).operand1 registers)
    (rs2 : backEnd.exRs2DataIn way = (backEnd.exUopIn way).operand2 registers)
    {cycle : BackEndInput} (answers : cycle.dcacheDataValid = true) :
    ((backEnd.next input).performed cycle way).effect =
      (backEnd.exUopIn way).perform cycle.dcacheData registers := by
  have before := (executed_next flowing reset clear dataValid valid).1
  match way with
  | 0 =>
      have kind := integer 0 (by decide) before
      have effect := Pipe01.effect_next kind cycle.dcacheData registers
      rw [← rs1, ← rs2] at effect
      have pipe0 : (backEnd.next input).pipe0 = Pipe01.next false false
          (backEnd.exUopIn 0) (backEnd.exRs1DataIn 0)
            (backEnd.exRs2DataIn 0) := by
        change Pipe01.next input.reset input.clear _ _ _ = _
        rw [reset, clear]
      rw [← effect, ← pipe0]
      rfl
  | 1 =>
      have kind := integer 1 (by decide) before
      have effect := Pipe01.effect_next kind cycle.dcacheData registers
      rw [← rs1, ← rs2] at effect
      have pipe1 : (backEnd.next input).pipe1 = Pipe01.next false false
          (backEnd.exUopIn 1) (backEnd.exRs1DataIn 1)
            (backEnd.exRs2DataIn 1) := by
        change Pipe01.next input.reset input.clear _ _ _ = _
        rw [reset, clear]
      rw [← effect, ← pipe1]
      rfl
  | 2 =>
      rw [flowing.exWay2] at before
      cases before
  | 3 =>
      have arrives : Pipe3.inputValid (backEnd.exUopIn 3) = true := by
        have uopReg : (backEnd.pipe3.next false false (backEnd.exUopIn 3)
            (backEnd.exRs1DataIn 3) (backEnd.exRs2DataIn 3) true).uopReg =
              if Pipe3.inputValid (backEnd.exUopIn 3) then backEnd.exUopIn 3
              else 0 := flowing.pipe3.uopReg_next
        change (Pipe3.next _ input.reset input.clear _ _ _
          input.dcacheDataValid).uopReg.valid = true at valid
        rw [reset, clear, dataValid, uopReg] at valid
        by_contra refused
        rw [if_neg refused] at valid
        cases valid
      have kind : (backEnd.exUopIn 3).fuCode = .mem :=
        eq_of_beq (Bool.and_eq_true_iff.mp arrives).2
      have effect := Pipe3.holding_effect kind cycle.dcacheData registers
      rw [← rs1, ← rs2] at effect
      have pipe3 : (backEnd.next input).pipe3 = Pipe3.holding
          (backEnd.exUopIn 3) (backEnd.exRs1DataIn 3)
            (backEnd.exRs2DataIn 3) := by
        change Pipe3.next _ input.reset input.clear _ _ _
          input.dcacheDataValid = _
        rw [reset, clear, dataValid]
        exact Pipe3.next_take _ _ flowing.pipe3.busy arrives
      rw [← effect, ← pipe3, ← answers]
      rfl

end BackEnd

end Ria
