import Ria.Backend.IntegerExecution

/-!
# Control transfer against RV32I

The jumps and branches take the same path as the integer instructions, and
`pipe_0_1` shows their outcome on its uop.  The outcome is that of the ISA
except for a JALR whose sum is odd: `branch` keeps bit 0 of the target.
-/

namespace Ria

open Hdl Rv32i

/-- The uop of `instr` after decode and renaming. -/
def renamedControl (entry : FbEntry) (instr : ControlInstr)
    (rs1 rs2 : PrfIndex) : MicroOp :=
  (decode (entry.withInst instr.encode) true).renameSources rs1 rs2

/-- Decode, operand selection and the pipe agree with the ISA on `instr`:
whether control is transferred, the next address, and the link. -/
structure ControlAgrees (entry : FbEntry) (instr : ControlInstr)
    (rs1 rs2 : PrfIndex) (rf : PrfIntData) (ports : RdPorts) (way : Fin 4) :
    Prop where
  taken : (Pipe01.execute rf ports way
    (renamedControl entry instr rs1 rs2)).uopOut.brTaken =
      instr.taken (rf.read ports way rs1) (rf.read ports way rs2)
  address : (Pipe01.execute rf ports way
    (renamedControl entry instr rs1 rs2)).uopOut.brAddr =
      instr.nextPc entry.pc (rf.read ports way rs1) (rf.read ports way rs2)
  link : ∀ reg, instr.rd = some reg →
    (Pipe01.execute rf ports way
        (renamedControl entry instr rs1 rs2)).out = entry.pc + 4 ∧
      (Pipe01.execute rf ports way
        (renamedControl entry instr rs1 rs2)).uopOut.rdArfIntIndex = reg

section Pipe

variable (rf : PrfIntData) (ports : RdPorts) (way : Fin 4) {uop : MicroOp}

theorem execute_uopOut_br (unit : uop.fuCode = .br) :
    (Pipe01.execute rf ports way uop).uopOut =
      branchUop uop (prfIntRs1Data rf ports way uop)
        (prfIntRs2Data rf ports way uop) := by
  simp [Pipe01.execute, Pipe01.next, Pipe01.uopNext, unit]

theorem execute_out_br (unit : uop.fuCode = .br) :
    (Pipe01.execute rf ports way uop).out = branchOut uop := by
  simp [Pipe01.execute, Pipe01.next, Pipe01.out, Pipe01.uopNext, branchUop,
    MicroOp.withOutcome, unit, mask32_and]

end Pipe

/-! ## The branch unit as a selection -/

/-- The one condition that `branchResult` lets through. -/
def branchCondition (x y : Word) : BrType → Bool
  | .x => false
  | .eq => x == y
  | .ne => x != y
  | .lt => x.slt y
  | .ge => !x.slt y
  | .ltu => x.ult y
  | .geu => !x.ult y
  | .jal => true
  | .jalr => true

theorem branchResult_eq (uop : MicroOp) (x y : Word) :
    branchResult uop x y = branchCondition x y uop.brType := by
  unfold branchResult
  cases uop.brType <;> simp [branchCondition, beq_eq_decide]

theorem branchCondition_branch (kind : BranchOp) (x y : Word) :
    branchCondition x y (branchBrType kind) = kind.holds x y := by
  cases kind <;> rfl

/-- Clearing bit 0 changes a word exactly when the bit is set. -/
theorem clear_bit0_iff (x : Word) :
    x = x &&& ~~~1#32 ↔ x.getLsbD 0 = false := by
  constructor
  · intro same
    have bit := congrArg (fun word => word.getLsbD 0) same
    simpa using bit
  · intro even
    ext index within
    by_cases zero : index = 0
    · subst zero
      simpa using even
    · rw [BitVec.getElem_and, BitVec.getElem_not, BitVec.getElem_one]
      simp [zero]

section Agreement

variable (entry : FbEntry) (instr : ControlInstr) (rs1 rs2 : PrfIndex)
  (rf : PrfIntData) (ports : RdPorts) (way : Fin 4)

theorem renamedControl_eq :
    renamedControl entry instr rs1 rs2 =
      ((controlBranch instr instr.encode
        (decodeBase (entry.withInst instr.encode) true)).dropZeroRd
        ).renameSources rs1 rs2 := by
  rw [renamedControl, decode_control, decodedControl]

theorem renamedControl_fuCode :
    (renamedControl entry instr rs1 rs2).fuCode = .br := by
  rw [renamedControl_eq, MicroOp.dropZeroRd_eq]
  cases instr <;> rfl

theorem taken_correct :
    (Pipe01.execute rf ports way
        (renamedControl entry instr rs1 rs2)).uopOut.brTaken =
      instr.taken (rf.read ports way rs1) (rf.read ports way rs2) := by
  rw [execute_uopOut_br rf ports way
    (renamedControl_fuCode entry instr rs1 rs2)]
  simp only [branchUop, MicroOp.withOutcome, branchResult_eq]
  rw [renamedControl_eq, MicroOp.dropZeroRd_eq]
  cases instr with
  | jal rd offset => rfl
  | jalr rd reg imm => rfl
  | branch kind reg1 reg2 offset =>
      rw [prfIntRs1Data_fromRf rf ports way rfl,
        prfIntRs2Data_fromRf rf ports way rfl]
      exact branchCondition_branch kind _ _

theorem brAddr_eq :
    (Pipe01.execute rf ports way
        (renamedControl entry instr rs1 rs2)).uopOut.brAddr =
      match instr with
      | .jal _ offset => entry.pc + (offset ++ 0#1).signExtend 32
      | .jalr _ _ imm => rf.read ports way rs1 + imm.signExtend 32
      | .branch kind _ _ offset =>
          if kind.holds (rf.read ports way rs1) (rf.read ports way rs2) then
            entry.pc + (offset ++ 0#1).signExtend 32
          else entry.pc + 4 := by
  rw [execute_uopOut_br rf ports way
    (renamedControl_fuCode entry instr rs1 rs2)]
  simp only [branchUop, MicroOp.withOutcome, branchAddr, branchResult_eq]
  rw [renamedControl_eq, MicroOp.dropZeroRd_eq]
  cases instr with
  | jal rd offset =>
      have immediate : rv32SignextJImm (ControlInstr.jal rd offset).encode =
          (offset ++ 0#1).signExtend 32 :=
        rv32SignextJImm_jType 0b1101111 rd offset
      simp [controlBranch, decodeJal, MicroOp.renameSources, decodeBase,
        FbEntry.withInst, branchCondition, immediate]
  | jalr rd reg imm =>
      have immediate :
          rv32SignextIImm (ControlInstr.jalr rd reg imm).encode =
            imm.signExtend 32 :=
        rv32SignextIImm_iType 0b1100111 0b000 reg rd imm
      rw [prfIntRs1Data_fromRf rf ports way rfl]
      simp [controlBranch, decodeJalr, MicroOp.renameSources, immediate]
  | branch kind reg1 reg2 offset =>
      have immediate :
          rv32SignextBImm (ControlInstr.branch kind reg1 reg2 offset).encode =
            (offset ++ 0#1).signExtend 32 :=
        rv32SignextBImm_bType 0b1100011 kind.funct3 reg1 reg2 offset
      have conditional : branchBrType kind ≠ .jalr := by
        cases kind <;> decide
      rw [prfIntRs1Data_fromRf rf ports way rfl,
        prfIntRs2Data_fromRf rf ports way rfl]
      simp [controlBranch, decodeBranch, MicroOp.renameSources, decodeBase,
        FbEntry.withInst, branchCondition_branch, immediate, conditional]

theorem address_iff :
    (Pipe01.execute rf ports way
        (renamedControl entry instr rs1 rs2)).uopOut.brAddr =
      instr.nextPc entry.pc (rf.read ports way rs1) (rf.read ports way rs2) ↔
      instr.dropsBit (rf.read ports way rs1) = false := by
  rw [brAddr_eq]
  cases instr with
  | jal rd offset => simp [ControlInstr.nextPc, ControlInstr.dropsBit]
  | jalr rd reg imm => exact clear_bit0_iff _
  | branch kind reg1 reg2 offset =>
      simp [ControlInstr.nextPc, ControlInstr.dropsBit]

theorem link_correct (reg : Reg) (linked : instr.rd = some reg) :
    (Pipe01.execute rf ports way
        (renamedControl entry instr rs1 rs2)).out = entry.pc + 4 ∧
      (Pipe01.execute rf ports way
        (renamedControl entry instr rs1 rs2)).uopOut.rdArfIntIndex = reg := by
  have unit := renamedControl_fuCode entry instr rs1 rs2
  rw [execute_out_br rf ports way unit, execute_uopOut_br rf ports way unit,
    renamedControl_eq, MicroOp.dropZeroRd_eq, ← rv32RD_control linked]
  cases instr with
  | jal rd offset => exact ⟨rfl, rfl⟩
  | jalr rd reg imm => exact ⟨rfl, rfl⟩
  | branch kind reg1 reg2 offset => cases linked

end Agreement

end Ria
