import Ria.Frontend.DecodedUop
import Ria.Library.Rv32i

/-!
# Decoding encoded instructions

The field extractors and immediate macros read an encoded instruction back,
and the `casez` takes the branch of the instruction encoded.
-/

namespace Ria

open Rv32i

section Formats

variable (funct7 opcode : BitVec 7) (funct3 : BitVec 3) (rs1 rs2 rd : Reg)
  (imm : BitVec 12) (upper : BitVec 20)

theorem fields_rType :
    rv32Opcode (rType funct7 rs2 rs1 funct3 rd opcode) = opcode ∧
      rv32Funct3 (rType funct7 rs2 rs1 funct3 rd opcode) = funct3 ∧
      rv32Funct7 (rType funct7 rs2 rs1 funct3 rd opcode) = funct7 ∧
      rv32RD (rType funct7 rs2 rs1 funct3 rd opcode) = rd ∧
      rv32RS1 (rType funct7 rs2 rs1 funct3 rd opcode) = rs1 ∧
      rv32RS2 (rType funct7 rs2 rs1 funct3 rd opcode) = rs2 := by
  refine ⟨?_, ?_, ?_, ?_, ?_, ?_⟩ <;>
    simp (disch := decide) only [rv32Opcode, rv32Funct3, rv32Funct7, rv32RD,
      rv32RS1, rv32RS2, rType, Nat.reduceSub,
      BitVec.extractLsb'_append_eq_of_le,
      BitVec.extractLsb'_append_eq_of_add_le, BitVec.extractLsb'_eq_self]

theorem fields_iType :
    rv32Opcode (iType imm rs1 funct3 rd opcode) = opcode ∧
      rv32Funct3 (iType imm rs1 funct3 rd opcode) = funct3 ∧
      rv32RD (iType imm rs1 funct3 rd opcode) = rd ∧
      rv32RS1 (iType imm rs1 funct3 rd opcode) = rs1 := by
  refine ⟨?_, ?_, ?_, ?_⟩ <;>
    simp (disch := decide) only [rv32Opcode, rv32Funct3, rv32RD, rv32RS1,
      iType, Nat.reduceSub, BitVec.extractLsb'_append_eq_of_le,
      BitVec.extractLsb'_append_eq_of_add_le, BitVec.extractLsb'_eq_self]

theorem fields_bType :
    rv32Opcode (bType imm rs2 rs1 funct3 opcode) = opcode ∧
      rv32Funct3 (bType imm rs2 rs1 funct3 opcode) = funct3 ∧
      rv32RS1 (bType imm rs2 rs1 funct3 opcode) = rs1 ∧
      rv32RS2 (bType imm rs2 rs1 funct3 opcode) = rs2 := by
  refine ⟨?_, ?_, ?_, ?_⟩ <;>
    simp (disch := decide) only [rv32Opcode, rv32Funct3, rv32RS1, rv32RS2,
      bType, Nat.reduceSub, BitVec.extractLsb'_append_eq_of_le,
      BitVec.extractLsb'_append_eq_of_add_le, BitVec.extractLsb'_eq_self]

theorem fields_uType :
    rv32Opcode (uType upper rd opcode) = opcode ∧
      rv32RD (uType upper rd opcode) = rd ∧
      rv32SignextUImm (uType upper rd opcode) = upper ++ 0#12 := by
  refine ⟨?_, ?_, ?_⟩ <;>
    simp (disch := decide) only [rv32Opcode, rv32RD, rv32SignextUImm, uType,
      Nat.reduceSub, BitVec.extractLsb'_append_eq_of_le,
      BitVec.extractLsb'_append_eq_of_add_le, BitVec.extractLsb'_eq_self]

theorem fields_jType :
    rv32Opcode (jType upper rd opcode) = opcode ∧
      rv32RD (jType upper rd opcode) = rd := by
  refine ⟨?_, ?_⟩ <;>
    simp (disch := decide) only [rv32Opcode, rv32RD, jType, Nat.reduceSub,
      BitVec.extractLsb'_append_eq_of_le,
      BitVec.extractLsb'_append_eq_of_add_le, BitVec.extractLsb'_eq_self]

/-- Sign extension as the immediate macros write it. -/
theorem signExtend_eq_append {width : Nat} (extra : Nat)
    (x : BitVec (width + 1)) :
    (if x.getLsbD width then BitVec.allOnes extra else 0) ++
        x.extractLsb' 0 width =
      x.signExtend (extra + width) := by
  ext index within
  rw [BitVec.getElem_append, BitVec.getElem_signExtend]
  by_cases low : index < width
  · have lower : index < width + 1 := by omega
    simp [low, lower, BitVec.getLsbD_eq_getElem]
  · by_cases top : index = width
    · subst top
      cases sign : x.getLsbD index <;> simp_all
    · have higher : ¬ index < width + 1 := by omega
      simp only [low, higher, BitVec.msb_eq_getLsbD_last, dif_neg,
        not_false_eq_true, Nat.add_sub_cancel]
      cases sign : x.getLsbD width <;> simp

theorem append_zero_low {width kept : Nat} (x : BitVec width) :
    x.extractLsb' 0 kept ++ 0#1 = (x ++ 0#1).extractLsb' 0 (kept + 1) := by
  rw [← BitVec.extractLsb'_append_extractLsb'_eq_extractLsb'
      (show 1 = 0 + 1 from rfl),
    BitVec.extractLsb'_append_eq_of_le (Nat.le_refl 1),
    BitVec.extractLsb'_append_eq_of_add_le (Nat.le_refl 1),
    BitVec.extractLsb'_eq_self]

/-- The replicated sign bit, read through the top bit of the immediate. -/
theorem rv32Sign_of_top {width extra : Nat} {inst : Word}
    {x : BitVec (width + 1)}
    (top : inst.extractLsb' 31 1 = x.extractLsb' width 1) :
    rv32Sign extra inst =
      if x.getLsbD width then BitVec.allOnes extra else 0 := by
  have bit := congrArg (fun field => field.getLsbD 0) top
  simp only [BitVec.getLsbD_extractLsb'] at bit
  have sign : inst.getLsbD 31 = x.getLsbD width := by simpa using bit
  rw [rv32Sign, sign]

theorem rv32ShamtImm_rType :
    rv32ShamtImm (rType funct7 rs2 rs1 funct3 rd opcode) = 0#27 ++ rs2 := by
  have field := (fields_rType funct7 opcode funct3 rs1 rs2 rd).2.2.2.2.2
  rw [rv32RS2] at field
  rw [rv32ShamtImm, field]

theorem rv32SignextIImm_iType :
    rv32SignextIImm (iType imm rs1 funct3 rd opcode) = imm.signExtend 32 := by
  have top : (iType imm rs1 funct3 rd opcode).extractLsb' 31 1 =
      imm.extractLsb' 11 1 := by
    simp (disch := decide) only [iType, Nat.reduceSub,
      BitVec.extractLsb'_append_eq_of_le]
  have low : (iType imm rs1 funct3 rd opcode).extractLsb' 20 11 =
      imm.extractLsb' 0 11 := by
    simp (disch := decide) only [iType, Nat.reduceSub,
      BitVec.extractLsb'_append_eq_of_le]
  rw [rv32SignextIImm, rv32Sign_of_top top, low]
  exact signExtend_eq_append 21 imm

theorem rv32SignextBImm_bType :
    rv32SignextBImm (bType imm rs2 rs1 funct3 opcode) =
      (imm ++ 0#1).signExtend 32 := by
  have top : (bType imm rs2 rs1 funct3 opcode).extractLsb' 31 1 =
      (imm ++ 0#1).extractLsb' 12 1 := by
    simp (disch := decide) only [bType, Nat.reduceSub,
      BitVec.extractLsb'_append_eq_of_le, BitVec.extractLsb'_eq_self]
  have unscrambled : imm.extractLsb' 10 1 ++ imm.extractLsb' 4 6 ++
      imm.extractLsb' 0 4 ++ 0#1 = (imm ++ 0#1).extractLsb' 0 12 := by
    rw [BitVec.extractLsb'_append_extractLsb'_eq_extractLsb'
        (show 10 = 4 + 6 from rfl),
      BitVec.extractLsb'_append_extractLsb'_eq_extractLsb'
        (show 4 = 0 + 4 from rfl)]
    exact append_zero_low imm
  have fields :
      (bType imm rs2 rs1 funct3 opcode).extractLsb' 7 1 =
          imm.extractLsb' 10 1 ∧
        (bType imm rs2 rs1 funct3 opcode).extractLsb' 25 6 =
          imm.extractLsb' 4 6 ∧
        (bType imm rs2 rs1 funct3 opcode).extractLsb' 8 4 =
          imm.extractLsb' 0 4 := by
    refine ⟨?_, ?_, ?_⟩ <;>
      simp (disch := decide) only [bType, Nat.reduceSub,
        BitVec.extractLsb'_append_eq_of_le,
        BitVec.extractLsb'_append_eq_of_add_le, BitVec.extractLsb'_eq_self]
  rw [← signExtend_eq_append 20 (imm ++ 0#1), ← unscrambled,
    ← rv32Sign_of_top top, rv32SignextBImm, fields.1, fields.2.1, fields.2.2]
  simp only [BitVec.append_assoc, BitVec.cast_eq]

theorem rv32SignextJImm_jType :
    rv32SignextJImm (jType upper rd opcode) =
      (upper ++ 0#1).signExtend 32 := by
  have top : (jType upper rd opcode).extractLsb' 31 1 =
      (upper ++ 0#1).extractLsb' 20 1 := by
    simp (disch := decide) only [jType, Nat.reduceSub,
      BitVec.extractLsb'_append_eq_of_le, BitVec.extractLsb'_eq_self]
  have unscrambled : upper.extractLsb' 11 8 ++ upper.extractLsb' 10 1 ++
      upper.extractLsb' 0 10 ++ 0#1 = (upper ++ 0#1).extractLsb' 0 20 := by
    rw [BitVec.extractLsb'_append_extractLsb'_eq_extractLsb'
        (show 11 = 10 + 1 from rfl),
      BitVec.extractLsb'_append_extractLsb'_eq_extractLsb'
        (show 10 = 0 + 10 from rfl)]
    exact append_zero_low upper
  have fields :
      (jType upper rd opcode).extractLsb' 12 8 = upper.extractLsb' 11 8 ∧
        (jType upper rd opcode).extractLsb' 20 1 = upper.extractLsb' 10 1 ∧
        (jType upper rd opcode).extractLsb' 21 10 =
          upper.extractLsb' 0 10 := by
    refine ⟨?_, ?_, ?_⟩ <;>
      simp (disch := decide) only [jType, Nat.reduceSub,
        BitVec.extractLsb'_append_eq_of_le,
        BitVec.extractLsb'_append_eq_of_add_le, BitVec.extractLsb'_eq_self]
  rw [← signExtend_eq_append 12 (upper ++ 0#1), ← unscrambled,
    ← rv32Sign_of_top top, rv32SignextJImm, fields.1, fields.2.1, fields.2.2]
  simp only [BitVec.append_assoc, BitVec.cast_eq]

end Formats

/-! ## The branch taken -/

def immAluType : ImmOp → AluType
  | .addi => .add
  | .slti => .slt
  | .sltiu => .sltu
  | .xori => .xor
  | .ori => .or
  | .andi => .and

def shiftAluType : ShiftOp → AluType
  | .slli => .sll
  | .srli => .srl
  | .srai => .sra

def regAluType : RegOp → AluType
  | .add => .add
  | .sub => .sub
  | .sll => .sll
  | .slt => .slt
  | .sltu => .sltu
  | .xor => .xor
  | .srl => .srl
  | .sra => .sra
  | .or => .or
  | .and => .and

def branchBrType : BranchOp → BrType
  | .beq => .eq
  | .bne => .ne
  | .blt => .lt
  | .bge => .ge
  | .bltu => .ltu
  | .bgeu => .geu

/-- The `casez` branch meant for an integer-computational instruction. -/
def intBranch : IntInstr → DecodeBranch
  | .lui _ _ => decodeUpper .fromZero
  | .auipc _ _ => decodeUpper .fromPc
  | .opImm kind _ _ _ => decodeOpImm (immAluType kind)
  | .shiftImm kind _ _ _ => decodeShiftImm (shiftAluType kind)
  | .op kind _ _ _ => decodeOp (regAluType kind)

/-- The `casez` branch meant for a control-transfer instruction. -/
def controlBranch : ControlInstr → DecodeBranch
  | .jal _ _ => decodeJal
  | .jalr _ _ _ => decodeJalr
  | .branch kind _ _ _ => decodeBranch (branchBrType kind)

section Casez

variable {inst : Word} (uop : MicroOp)

private theorem casez_opImm (kind : ImmOp)
    (opcode : rv32Opcode inst = 0b0010011)
    (funct3 : rv32Funct3 inst = kind.funct3) :
    decodeCasez inst uop = decodeOpImm (immAluType kind) inst uop := by
  cases kind <;>
    simp [decodeCasez, decodeTableInt, rv32U, rv32I, opcode, funct3,
      rv32OpLui, rv32OpAuipc, rv32OpJal, rv32OpJalr, rv32OpBranch,
      rv32OpLoad, rv32OpStore, rv32OpImm, ImmOp.funct3, immAluType]

private theorem casez_shiftImm (kind : ShiftOp)
    (opcode : rv32Opcode inst = 0b0010011)
    (funct3 : rv32Funct3 inst = kind.funct3)
    (funct7 : rv32Funct7 inst = kind.funct7) :
    decodeCasez inst uop = decodeShiftImm (shiftAluType kind) inst uop := by
  cases kind <;>
    simp [decodeCasez, decodeTableInt, rv32U, rv32I, rv32R, opcode, funct3,
      funct7, rv32OpLui, rv32OpAuipc, rv32OpJal, rv32OpJalr, rv32OpBranch,
      rv32OpLoad, rv32OpStore, rv32OpImm, ShiftOp.funct3, ShiftOp.funct7,
      shiftAluType]

private theorem casez_op (kind : RegOp)
    (opcode : rv32Opcode inst = 0b0110011)
    (funct3 : rv32Funct3 inst = kind.funct3)
    (funct7 : rv32Funct7 inst = kind.funct7) :
    decodeCasez inst uop = decodeOp (regAluType kind) inst uop := by
  cases kind <;>
    simp [decodeCasez, decodeTableInt, rv32U, rv32I, rv32R, opcode, funct3,
      funct7, rv32OpLui, rv32OpAuipc, rv32OpJal, rv32OpJalr, rv32OpBranch,
      rv32OpLoad, rv32OpStore, rv32OpImm, rv32Op, RegOp.funct3, RegOp.funct7,
      regAluType]

private theorem casez_branch (kind : BranchOp)
    (opcode : rv32Opcode inst = 0b1100011)
    (funct3 : rv32Funct3 inst = kind.funct3) :
    decodeCasez inst uop = decodeBranch (branchBrType kind) inst uop := by
  cases kind <;>
    simp [decodeCasez, decodeTableInt, rv32U, rv32I, opcode, funct3,
      rv32OpLui, rv32OpAuipc, rv32OpJal, rv32OpJalr, rv32OpBranch,
      BranchOp.funct3, branchBrType]

private theorem casez_lui (opcode : rv32Opcode inst = 0b0110111) :
    decodeCasez inst uop = decodeUpper .fromZero inst uop := by
  simp [decodeCasez, decodeTableInt, rv32U, opcode, rv32OpLui]

private theorem casez_auipc (opcode : rv32Opcode inst = 0b0010111) :
    decodeCasez inst uop = decodeUpper .fromPc inst uop := by
  simp [decodeCasez, decodeTableInt, rv32U, opcode, rv32OpLui, rv32OpAuipc]

private theorem casez_jal (opcode : rv32Opcode inst = 0b1101111) :
    decodeCasez inst uop = decodeJal inst uop := by
  simp [decodeCasez, decodeTableInt, rv32U, opcode, rv32OpLui, rv32OpAuipc,
    rv32OpJal]

private theorem casez_jalr (opcode : rv32Opcode inst = 0b1100111)
    (funct3 : rv32Funct3 inst = 0b000) :
    decodeCasez inst uop = decodeJalr inst uop := by
  simp [decodeCasez, decodeTableInt, rv32U, rv32I, opcode, funct3, rv32OpLui,
    rv32OpAuipc, rv32OpJal, rv32OpJalr]

theorem decodeCasez_int (instr : IntInstr) :
    decodeCasez instr.encode uop = intBranch instr instr.encode uop := by
  cases instr with
  | lui rd imm =>
      obtain ⟨opcode, -, -⟩ := fields_uType 0b0110111 rd imm
      exact casez_lui uop opcode
  | auipc rd imm =>
      obtain ⟨opcode, -, -⟩ := fields_uType 0b0010111 rd imm
      exact casez_auipc uop opcode
  | opImm kind rd rs1 imm =>
      obtain ⟨opcode, funct3, -, -⟩ :=
        fields_iType 0b0010011 kind.funct3 rs1 rd imm
      exact casez_opImm uop kind opcode funct3
  | shiftImm kind rd rs1 shamt =>
      obtain ⟨opcode, funct3, funct7, -, -, -⟩ :=
        fields_rType kind.funct7 0b0010011 kind.funct3 rs1 shamt rd
      exact casez_shiftImm uop kind opcode funct3 funct7
  | op kind rd rs1 rs2 =>
      obtain ⟨opcode, funct3, funct7, -, -, -⟩ :=
        fields_rType kind.funct7 0b0110011 kind.funct3 rs1 rs2 rd
      exact casez_op uop kind opcode funct3 funct7

theorem decodeCasez_control (instr : ControlInstr) :
    decodeCasez instr.encode uop = controlBranch instr instr.encode uop := by
  cases instr with
  | jal rd offset =>
      obtain ⟨opcode, -⟩ := fields_jType 0b1101111 rd offset
      exact casez_jal uop opcode
  | jalr rd rs1 imm =>
      obtain ⟨opcode, funct3, -, -⟩ :=
        fields_iType 0b1100111 0b000 rs1 rd imm
      exact casez_jalr uop opcode funct3
  | branch kind rs1 rs2 offset =>
      obtain ⟨opcode, funct3, -, -⟩ :=
        fields_bType 0b1100011 kind.funct3 rs1 rs2 offset
      exact casez_branch uop kind opcode funct3

end Casez

/-! ## The register fields -/

theorem rv32RD_int (instr : IntInstr) : rv32RD instr.encode = instr.rd := by
  cases instr with
  | lui rd imm => exact (fields_uType 0b0110111 rd imm).2.1
  | auipc rd imm => exact (fields_uType 0b0010111 rd imm).2.1
  | opImm kind rd rs1 imm =>
      exact (fields_iType 0b0010011 kind.funct3 rs1 rd imm).2.2.1
  | shiftImm kind rd rs1 shamt =>
      exact (fields_rType kind.funct7 0b0010011 kind.funct3 rs1 shamt rd).2.2.2.1
  | op kind rd rs1 rs2 =>
      exact (fields_rType kind.funct7 0b0110011 kind.funct3 rs1 rs2 rd).2.2.2.1

theorem rv32RS1_int {instr : IntInstr} {reg : Reg}
    (source : instr.rs1 = some reg) : rv32RS1 instr.encode = reg := by
  cases instr with
  | lui rd imm => cases source
  | auipc rd imm => cases source
  | opImm kind rd rs1 imm =>
      cases source
      exact (fields_iType 0b0010011 kind.funct3 reg rd imm).2.2.2
  | shiftImm kind rd rs1 shamt =>
      cases source
      exact (fields_rType kind.funct7 0b0010011 kind.funct3 reg shamt
        rd).2.2.2.2.1
  | op kind rd rs1 rs2 =>
      cases source
      exact (fields_rType kind.funct7 0b0110011 kind.funct3 reg rs2
        rd).2.2.2.2.1

theorem rv32RS2_int {instr : IntInstr} {reg : Reg}
    (source : instr.rs2 = some reg) : rv32RS2 instr.encode = reg := by
  cases instr with
  | op kind rd rs1 rs2 =>
      cases source
      exact (fields_rType kind.funct7 0b0110011 kind.funct3 rs1 reg
        rd).2.2.2.2.2
  | _ => cases source

theorem rv32RD_control {instr : ControlInstr} {reg : Reg}
    (link : instr.rd = some reg) : rv32RD instr.encode = reg := by
  cases instr with
  | jal rd offset =>
      cases link
      exact (fields_jType 0b1101111 reg offset).2
  | jalr rd rs1 imm =>
      cases link
      exact (fields_iType 0b1100111 0b000 rs1 reg imm).2.2.1
  | branch kind rs1 rs2 offset => cases link

/-! ## The decoded uop -/

/-- The bundle entry `entry` with `inst` as its instruction word. -/
def FbEntry.withInst (entry : FbEntry) (inst : Word) : FbEntry :=
  { entry with inst := inst }

/-- What `decode` makes of a valid entry holding an integer instruction. -/
def decodedInt (entry : FbEntry) (instr : IntInstr) : MicroOp :=
  (intBranch instr instr.encode
    (decodeBase (entry.withInst instr.encode) true)).dropZeroRd

/-- What `decode` makes of a valid entry holding a control transfer. -/
def decodedControl (entry : FbEntry) (instr : ControlInstr) : MicroOp :=
  (controlBranch instr instr.encode
    (decodeBase (entry.withInst instr.encode) true)).dropZeroRd

theorem decode_int (entry : FbEntry) (instr : IntInstr) :
    decode (entry.withInst instr.encode) true = decodedInt entry instr := by
  have valid : (decodedInt entry instr).valid = true := by
    rw [decodedInt, MicroOp.dropZeroRd_eq]
    cases instr <;> rfl
  have decoded : decode (entry.withInst instr.encode) true =
      if (decodedInt entry instr).valid then decodedInt entry instr
      else 0 := by
    rw [decodedInt, ← decodeCasez_int]
    rfl
  rw [decoded, if_pos valid]

theorem decode_control (entry : FbEntry) (instr : ControlInstr) :
    decode (entry.withInst instr.encode) true =
      decodedControl entry instr := by
  have valid : (decodedControl entry instr).valid = true := by
    rw [decodedControl, MicroOp.dropZeroRd_eq]
    cases instr <;> rfl
  have decoded : decode (entry.withInst instr.encode) true =
      if (decodedControl entry instr).valid then decodedControl entry instr
      else 0 := by
    rw [decodedControl, ← decodeCasez_control]
    rfl
  rw [decoded, if_pos valid]

end Ria
