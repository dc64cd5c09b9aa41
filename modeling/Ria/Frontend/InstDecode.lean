import Ria.Common.Isa

/-!
# Instruction decode

`decode` is one `casez` over the instruction word.  Each item of the table
pairs a pattern with the assignments of its branch; branches that differ only
in an enumerator share one definition with that enumerator as a parameter.
The table is in the source's order and the first matching item is taken.
-/

namespace Ria

/-- What one `casez` branch assigns, over the fields set before the `casez`. -/
abbrev DecodeBranch := Word → MicroOp → MicroOp

/-- LUI, AUIPC -/
def decodeUpper (rs1Source : RsSource) : DecodeBranch := fun inst uop =>
  { uop with
    iqCode := .int, fuCode := .alu, aluType := .add
    imm := rv32SignextUImm inst
    rs1Source := rs1Source, rs2Source := .fromImm
    rdArfIntIndex := rv32RD inst, rdValid := true }

def decodeJal : DecodeBranch := fun inst uop =>
  { uop with
    iqCode := .int, fuCode := .br, brType := .jal
    imm := rv32SignextJImm inst
    rs1Source := .fromPc, rs2Source := .fromImm
    rdArfIntIndex := rv32RD inst, rdValid := true }

def decodeJalr : DecodeBranch := fun inst uop =>
  { uop with
    iqCode := .int, fuCode := .br, brType := .jalr
    imm := rv32SignextIImm inst
    rs1Source := .fromRf, rs1ArfIntIndex := rv32RS1 inst
    rs2Source := .fromImm
    rdArfIntIndex := rv32RD inst, rdValid := true }

/-- BEQ, BNE, BLT, BGE, BLTU, BGEU -/
def decodeBranch (brType : BrType) : DecodeBranch := fun inst uop =>
  { uop with
    iqCode := .int, fuCode := .br, brType := brType
    imm := rv32SignextBImm inst
    rs1Source := .fromRf, rs1ArfIntIndex := rv32RS1 inst
    rs2Source := .fromRf, rs2ArfIntIndex := rv32RS2 inst }

/-- LB, LH, LW, LBU, LHU, FLW -/
def decodeLoad (memType : MemType) (memSize : MemSize) : DecodeBranch :=
  fun inst uop =>
  { uop with
    iqCode := .mem, fuCode := .mem, memType := memType, memSize := memSize
    imm := rv32SignextIImm inst
    rs1Source := .fromRf, rs1ArfIntIndex := rv32RS1 inst
    rs2Source := .fromImm
    rdArfIntIndex := rv32RD inst, rdValid := true }

/-- SB, SH, SW, FSW -/
def decodeStore (memSize : MemSize) : DecodeBranch := fun inst uop =>
  { uop with
    iqCode := .mem, fuCode := .mem, memType := .st, memSize := memSize
    imm := rv32SignextSImm inst
    rs1Source := .fromRf, rs1ArfIntIndex := rv32RS1 inst
    rs2Source := .fromRf, rs2ArfIntIndex := rv32RS2 inst }

/-- ADDI, SLTI, SLTIU, ANDI, ORI, XORI -/
def decodeOpImm (aluType : AluType) : DecodeBranch := fun inst uop =>
  { uop with
    iqCode := .int, fuCode := .alu, aluType := aluType
    imm := rv32SignextIImm inst
    rs1Source := .fromRf, rs1ArfIntIndex := rv32RS1 inst
    rs2Source := .fromImm
    rdArfIntIndex := rv32RD inst, rdValid := true }

/-- SLLI, SRLI, SRAI -/
def decodeShiftImm (aluType : AluType) : DecodeBranch := fun inst uop =>
  { uop with
    iqCode := .int, fuCode := .alu, aluType := aluType
    imm := rv32ShamtImm inst
    rs1Source := .fromRf, rs1ArfIntIndex := rv32RS1 inst
    rs2Source := .fromImm
    rdArfIntIndex := rv32RD inst, rdValid := true }

/-- ADD, SUB, SLL, SLT, SLTU, XOR, SRL, SRA, OR, AND -/
def decodeOp (aluType : AluType) : DecodeBranch := fun inst uop =>
  { uop with
    iqCode := .int, fuCode := .alu, aluType := aluType
    rs1Source := .fromRf, rs1ArfIntIndex := rv32RS1 inst
    rs2Source := .fromRf, rs2ArfIntIndex := rv32RS2 inst
    rdArfIntIndex := rv32RD inst, rdValid := true }

/-- FMADD.S, FMSUB.S, FNMSUB.S, FNMADD.S -/
def decodeFpMulAdd (fpuType : FpuType) : DecodeBranch := fun inst uop =>
  { uop with
    iqCode := .fp, fuCode := .fpu, fpType := .f, fpuType := fpuType
    rmType := rv32RM inst
    rs1Source := .fromRf, rs1ArfIntIndex := rv32RS1 inst
    rs2Source := .fromRf, rs2ArfIntIndex := rv32RS2 inst
    rs3Source := .fromRf, rs3ArfIntIndex := rv32RS3 inst
    rdArfIntIndex := rv32RD inst, rdValid := true }

/-- FADD.S, FSUB.S, FMUL.S, FDIV.S; the last two set no `fpu_type` -/
def decodeFpBinary (fuCode : FuCode) (fpuType : FpuType) : DecodeBranch :=
  fun inst uop =>
  { uop with
    iqCode := .fp, fuCode := fuCode, fpType := .f, fpuType := fpuType
    rmType := rv32RM inst
    rs1Source := .fromRf, rs1ArfIntIndex := rv32RS1 inst
    rs2Source := .fromRf, rs2ArfIntIndex := rv32RS2 inst
    rdArfIntIndex := rv32RD inst, rdValid := true }

/-- FSQRT.S and every later floating-point item: one register source -/
def decodeFpUnary (fpuType : FpuType) : DecodeBranch := fun inst uop =>
  { uop with
    iqCode := .fp, fuCode := .fpu, fpType := .f, fpuType := fpuType
    rmType := rv32RM inst
    rs1Source := .fromRf, rs1ArfIntIndex := rv32RS1 inst
    rs2Source := .invalid
    rdArfIntIndex := rv32RD inst, rdValid := true }

/-- FENCE, ECALL, EBREAK: nothing beyond the common fields -/
def decodeSystem : DecodeBranch := fun _ uop => uop

/-- The integer part of the `casez`. -/
def decodeTableInt : List (Pattern × DecodeBranch) :=
  [ (rv32U rv32OpLui, decodeUpper .fromZero)
  , (rv32U rv32OpAuipc, decodeUpper .fromPc)
  , (rv32U rv32OpJal, decodeJal)
  , (rv32I rv32OpJalr 0b000, decodeJalr)
  , (rv32I rv32OpBranch 0b000, decodeBranch .eq)
  , (rv32I rv32OpBranch 0b001, decodeBranch .ne)
  , (rv32I rv32OpBranch 0b100, decodeBranch .lt)
  , (rv32I rv32OpBranch 0b101, decodeBranch .ge)
  , (rv32I rv32OpBranch 0b110, decodeBranch .ltu)
  , (rv32I rv32OpBranch 0b111, decodeBranch .geu)
  , (rv32I rv32OpLoad 0b000, decodeLoad .ld .byte)
  , (rv32I rv32OpLoad 0b001, decodeLoad .ld .half)
  , (rv32I rv32OpLoad 0b010, decodeLoad .ld .word)
  , (rv32I rv32OpLoad 0b100, decodeLoad .ldu .byte)
  , (rv32I rv32OpLoad 0b101, decodeLoad .ldu .half)
  , (rv32I rv32OpStore 0b000, decodeStore .byte)
  , (rv32I rv32OpStore 0b001, decodeStore .half)
  , (rv32I rv32OpStore 0b010, decodeStore .word)
  , (rv32I rv32OpImm 0b000, decodeOpImm .add)
  , (rv32I rv32OpImm 0b010, decodeOpImm .slt)
  , (rv32I rv32OpImm 0b011, decodeOpImm .sltu)
  , (rv32I rv32OpImm 0b111, decodeOpImm .and)
  , (rv32I rv32OpImm 0b110, decodeOpImm .or)
  , (rv32I rv32OpImm 0b100, decodeOpImm .xor)
  , (rv32R rv32OpImm 0b001 0b0000000, decodeShiftImm .sll)
  , (rv32R rv32OpImm 0b101 0b0000000, decodeShiftImm .srl)
  , (rv32R rv32OpImm 0b101 0b0100000, decodeShiftImm .sra)
  , (rv32R rv32Op 0b000 0b0000000, decodeOp .add)
  , (rv32R rv32Op 0b000 0b0100000, decodeOp .sub)
  , (rv32R rv32Op 0b001 0b0000000, decodeOp .sll)
  , (rv32R rv32Op 0b010 0b0000000, decodeOp .slt)
  , (rv32R rv32Op 0b011 0b0000000, decodeOp .sltu)
  , (rv32R rv32Op 0b100 0b0000000, decodeOp .xor)
  , (rv32R rv32Op 0b101 0b0000000, decodeOp .srl)
  , (rv32R rv32Op 0b101 0b0100000, decodeOp .sra)
  , (rv32R rv32Op 0b110 0b0000000, decodeOp .or)
  , (rv32R rv32Op 0b111 0b0000000, decodeOp .and) ]

/-- The floating-point and system part of the `casez`. -/
def decodeTableFp : List (Pattern × DecodeBranch) :=
  [ (rv32I rv32OpLoadFp 0b010, decodeLoad .ld .word)
  , (rv32I rv32OpStoreFp 0b010, decodeStore .word)
  , (rv32R4 rv32OpFmadd 0b00, decodeFpMulAdd .madd)
  , (rv32R4 rv32OpFmsub 0b00, decodeFpMulAdd .msub)
  , (rv32R4 rv32OpFnmsub 0b00, decodeFpMulAdd .nmsub)
  , (rv32R4 rv32OpFnmadd 0b00, decodeFpMulAdd .nmadd)
  , (rv32F rv32OpFp none none 0b0000000, decodeFpBinary .fpu .add)
  , (rv32F rv32OpFp none none 0b0000100, decodeFpBinary .fpu .sub)
  , (rv32F rv32OpFp none none 0b0001000, decodeFpBinary .fmul .x)
  , (rv32F rv32OpFp none none 0b0001100, decodeFpBinary .fdiv .x)
  , (rv32F rv32OpFp none (some 0b00000) 0b0101100, decodeFpUnary .sqrt)
  , (rv32F rv32OpFp (some 0b000) none 0b0010000, decodeFpUnary .sgnj)
  , (rv32F rv32OpFp (some 0b001) none 0b0010000, decodeFpUnary .sgnjn)
  , (rv32F rv32OpFp (some 0b010) none 0b0010000, decodeFpUnary .sgnjx)
  , (rv32F rv32OpFp (some 0b000) none 0b0010100, decodeFpUnary .min)
  , (rv32F rv32OpFp (some 0b001) none 0b0010100, decodeFpUnary .max)
  , (rv32F rv32OpFp none (some 0b00000) 0b1100000, decodeFpUnary .cvtw)
  , (rv32F rv32OpFp none (some 0b00001) 0b1100000, decodeFpUnary .cvtwu)
  , (rv32F rv32OpFp (some 0b000) (some 0b00000) 0b1110000, decodeFpUnary .mvx)
  , (rv32F rv32OpFp (some 0b010) none 0b1010000, decodeFpUnary .eq)
  , (rv32F rv32OpFp (some 0b001) none 0b1010000, decodeFpUnary .lt)
  , (rv32F rv32OpFp (some 0b000) none 0b1010000, decodeFpUnary .le)
  , (rv32F rv32OpFp (some 0b001) (some 0b00000) 0b1110000,
      decodeFpUnary .class_)
  , (rv32F rv32OpFp none (some 0b00000) 0b1101000, decodeFpUnary .cvts)
  , (rv32F rv32OpFp none (some 0b00001) 0b1101000, decodeFpUnary .cvtsu)
  , (rv32F rv32OpFp (some 0b000) (some 0b00000) 0b1111000, decodeFpUnary .mvw)
  , (rv32I rv32OpFence 0b000, decodeSystem)
  , (fun inst => inst == 0#25 ++ rv32OpSystem, decodeSystem)
  , (fun inst => inst == 0#11 ++ 1#1 ++ 0#13 ++ rv32OpSystem, decodeSystem) ]

/-- The `casez` with its default branch. -/
def decodeCasez (inst : Word) (uop : MicroOp) : MicroOp :=
  match (decodeTableInt ++ decodeTableFp).find? (fun item => item.1 inst) with
  | some item => item.2 inst uop
  | none => 0

/-- The fields `decode` sets before the `casez`. -/
def decodeBase (fbEntry : FbEntry) (valid : Bool) : MicroOp :=
  { (0 : MicroOp) with
    pc := fbEntry.pc, npc := fbEntry.pc + 4, inst := fbEntry.inst
    valid := valid
    predTaken := fbEntry.predTaken
    predAddr := if fbEntry.predTaken then fbEntry.predAddr else fbEntry.pc + 4
    tag := fbEntry.tag }

/-- `if (uop.rd_arf_int_index == 0) uop.rd_valid = 0;` -/
def MicroOp.dropZeroRd (uop : MicroOp) : MicroOp :=
  if uop.rdArfIntIndex = 0 then { uop with rdValid := false } else uop

def decode (fbEntry : FbEntry) (valid : Bool) : MicroOp :=
  let uop := decodeCasez fbEntry.inst (decodeBase fbEntry valid)
  let uop := uop.dropZeroRd
  if uop.valid then uop else 0

/-- `inst_decode`: one decoder a lane. -/
def instDecode (insts : Fin 4 → FbEntry) (instsValid : Fin 4 → Bool) :
    Fin 4 → MicroOp :=
  fun lane => decode (insts lane) (instsValid lane)

end Ria
