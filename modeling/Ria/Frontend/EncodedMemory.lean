import Ria.Frontend.EncodedInst
import Ria.Library.Rv32iMemory

/-!
# Decoding encoded loads and stores

The counterpart of the integer and control-transfer instructions: the fields
of an encoded load or store, the `casez` branch it takes and the uop that
decode makes of it.
-/

namespace Ria

open Rv32i

section Formats

variable (opcode : BitVec 7) (funct3 : BitVec 3) (rs1 rs2 : Reg)
  (imm : BitVec 12)

theorem fields_sType :
    rv32Opcode (sType imm rs2 rs1 funct3 opcode) = opcode ∧
      rv32Funct3 (sType imm rs2 rs1 funct3 opcode) = funct3 ∧
      rv32RS1 (sType imm rs2 rs1 funct3 opcode) = rs1 ∧
      rv32RS2 (sType imm rs2 rs1 funct3 opcode) = rs2 := by
  refine ⟨?_, ?_, ?_, ?_⟩ <;>
    simp (disch := decide) only [rv32Opcode, rv32Funct3, rv32RS1, rv32RS2,
      sType, Nat.reduceSub, BitVec.extractLsb'_append_eq_of_le,
      BitVec.extractLsb'_append_eq_of_add_le, BitVec.extractLsb'_eq_self]

theorem rv32SignextSImm_sType :
    rv32SignextSImm (sType imm rs2 rs1 funct3 opcode) = imm.signExtend 32 := by
  have top : (sType imm rs2 rs1 funct3 opcode).extractLsb' 31 1 =
      imm.extractLsb' 11 1 := by
    simp (disch := decide) only [sType, Nat.reduceSub,
      BitVec.extractLsb'_append_eq_of_le]
    ext index within
    simp
    grind
  have fields :
      (sType imm rs2 rs1 funct3 opcode).extractLsb' 25 6 =
          imm.extractLsb' 5 6 ∧
        (sType imm rs2 rs1 funct3 opcode).extractLsb' 7 5 =
          imm.extractLsb' 0 5 := by
    refine ⟨?_, ?_⟩ <;>
      simp (disch := decide) only [sType, Nat.reduceSub,
        BitVec.extractLsb'_append_eq_of_le,
        BitVec.extractLsb'_append_eq_of_add_le, BitVec.extractLsb'_eq_self]
    ext index within
    simp
    grind
  have joined : imm.extractLsb' 5 6 ++ imm.extractLsb' 0 5 =
      imm.extractLsb' 0 11 := by
    ext index within
    simp
    grind
  rw [← signExtend_eq_append 21 imm, ← joined, ← rv32Sign_of_top top,
    rv32SignextSImm, fields.1, fields.2]
  simp only [BitVec.append_assoc, BitVec.cast_eq]

end Formats

/-! ## The branch taken -/

def loadMemType : LoadOp → MemType
  | .lb | .lh | .lw => .ld
  | .lbu | .lhu => .ldu

def loadMemSize : LoadOp → MemSize
  | .lb | .lbu => .byte
  | .lh | .lhu => .half
  | .lw => .word

def storeMemSize : StoreOp → MemSize
  | .sb => .byte
  | .sh => .half
  | .sw => .word

/-- The `casez` branch meant for a load. -/
def loadBranch (instr : LoadInstr) : DecodeBranch :=
  decodeLoad (loadMemType instr.kind) (loadMemSize instr.kind)

/-- The `casez` branch meant for a store. -/
def storeBranch (instr : StoreInstr) : DecodeBranch :=
  decodeStore (storeMemSize instr.kind)

section Casez

variable {inst : Word} (uop : MicroOp)

private theorem casez_load (kind : LoadOp)
    (opcode : rv32Opcode inst = 0b0000011)
    (funct3 : rv32Funct3 inst = kind.funct3) :
    decodeCasez inst uop =
      decodeLoad (loadMemType kind) (loadMemSize kind) inst uop := by
  cases kind <;>
    simp [decodeCasez, decodeTableInt, rv32U, rv32I, opcode, funct3,
      rv32OpLui, rv32OpAuipc, rv32OpJal, rv32OpJalr, rv32OpBranch,
      rv32OpLoad, LoadOp.funct3, loadMemType, loadMemSize]

private theorem casez_store (kind : StoreOp)
    (opcode : rv32Opcode inst = 0b0100011)
    (funct3 : rv32Funct3 inst = kind.funct3) :
    decodeCasez inst uop = decodeStore (storeMemSize kind) inst uop := by
  cases kind <;>
    simp [decodeCasez, decodeTableInt, rv32U, rv32I, opcode, funct3,
      rv32OpLui, rv32OpAuipc, rv32OpJal, rv32OpJalr, rv32OpBranch,
      rv32OpLoad, rv32OpStore, StoreOp.funct3, storeMemSize]

theorem decodeCasez_load (instr : LoadInstr) :
    decodeCasez instr.encode uop = loadBranch instr instr.encode uop := by
  obtain ⟨opcode, funct3, -, -⟩ :=
    fields_iType 0b0000011 instr.kind.funct3 instr.rs1 instr.rd instr.imm
  exact casez_load uop instr.kind opcode funct3

theorem decodeCasez_store (instr : StoreInstr) :
    decodeCasez instr.encode uop = storeBranch instr instr.encode uop := by
  obtain ⟨opcode, funct3, -, -⟩ :=
    fields_sType 0b0100011 instr.kind.funct3 instr.rs1 instr.rs2 instr.imm
  exact casez_store uop instr.kind opcode funct3

end Casez

/-! ## The decoded uop -/

/-- What `decode` makes of a valid entry holding a load. -/
def decodedLoad (entry : FbEntry) (instr : LoadInstr) : MicroOp :=
  { decodeBase (entry.withInst instr.encode) true with
    iqCode := .mem, fuCode := .mem
    memType := loadMemType instr.kind, memSize := loadMemSize instr.kind
    imm := instr.imm.signExtend 32
    rs1Source := .fromRf, rs1ArfIntIndex := instr.rs1
    rs2Source := .fromImm
    rdArfIntIndex := instr.rd, rdValid := instr.rd != 0 }

/-- What `decode` makes of a valid entry holding a store. -/
def decodedStore (entry : FbEntry) (instr : StoreInstr) : MicroOp :=
  { decodeBase (entry.withInst instr.encode) true with
    iqCode := .mem, fuCode := .mem
    memType := .st, memSize := storeMemSize instr.kind
    imm := instr.imm.signExtend 32
    rs1Source := .fromRf, rs1ArfIntIndex := instr.rs1
    rs2Source := .fromRf, rs2ArfIntIndex := instr.rs2 }

theorem loadBranch_encode (uop : MicroOp) (instr : LoadInstr) :
    loadBranch instr instr.encode uop =
      { uop with
        iqCode := .mem, fuCode := .mem
        memType := loadMemType instr.kind, memSize := loadMemSize instr.kind
        imm := instr.imm.signExtend 32
        rs1Source := .fromRf, rs1ArfIntIndex := instr.rs1
        rs2Source := .fromImm
        rdArfIntIndex := instr.rd, rdValid := true } := by
  obtain ⟨-, -, rd, rs1⟩ :=
    fields_iType 0b0000011 instr.kind.funct3 instr.rs1 instr.rd instr.imm
  have imm := rv32SignextIImm_iType 0b0000011 instr.kind.funct3 instr.rs1
    instr.rd instr.imm
  simp only [loadBranch, decodeLoad, LoadInstr.encode, rd, rs1, imm]

theorem storeBranch_encode (uop : MicroOp) (instr : StoreInstr) :
    storeBranch instr instr.encode uop =
      { uop with
        iqCode := .mem, fuCode := .mem
        memType := .st, memSize := storeMemSize instr.kind
        imm := instr.imm.signExtend 32
        rs1Source := .fromRf, rs1ArfIntIndex := instr.rs1
        rs2Source := .fromRf, rs2ArfIntIndex := instr.rs2 } := by
  obtain ⟨-, -, rs1, rs2⟩ :=
    fields_sType 0b0100011 instr.kind.funct3 instr.rs1 instr.rs2 instr.imm
  have imm := rv32SignextSImm_sType 0b0100011 instr.kind.funct3 instr.rs1
    instr.rs2 instr.imm
  simp only [storeBranch, decodeStore, StoreInstr.encode, rs1, rs2, imm]

theorem decode_load (entry : FbEntry) (instr : LoadInstr) :
    decode (entry.withInst instr.encode) true = decodedLoad entry instr := by
  unfold decode
  simp only [FbEntry.withInst, decodeCasez_load, loadBranch_encode,
    MicroOp.dropZeroRd_eq]
  rfl

theorem decode_store (entry : FbEntry) (instr : StoreInstr) :
    decode (entry.withInst instr.encode) true = decodedStore entry instr := by
  unfold decode
  simp only [FbEntry.withInst, decodeCasez_store, storeBranch_encode,
    MicroOp.dropZeroRd_eq]
  rfl

end Ria
