/-!
# The RV32I instructions without memory access

The integer-computational and control-transfer instructions of the base ISA:
their encoding into 32-bit words, the value each assigns to `rd`, and the
address of the instruction that follows it.
-/

namespace Rv32i

abbrev Word := BitVec 32

abbrev Reg := BitVec 5

/-! ## Instruction formats -/

def rType (funct7 : BitVec 7) (rs2 rs1 : Reg) (funct3 : BitVec 3) (rd : Reg)
    (opcode : BitVec 7) : Word :=
  funct7 ++ rs2 ++ rs1 ++ funct3 ++ rd ++ opcode

def iType (imm : BitVec 12) (rs1 : Reg) (funct3 : BitVec 3) (rd : Reg)
    (opcode : BitVec 7) : Word :=
  imm ++ rs1 ++ funct3 ++ rd ++ opcode

/-- `offset` is the immediate without its always-zero bit 0. -/
def bType (offset : BitVec 12) (rs2 rs1 : Reg) (funct3 : BitVec 3)
    (opcode : BitVec 7) : Word :=
  offset.extractLsb' 11 1 ++ offset.extractLsb' 4 6 ++ rs2 ++ rs1 ++ funct3 ++
    offset.extractLsb' 0 4 ++ offset.extractLsb' 10 1 ++ opcode

def uType (imm : BitVec 20) (rd : Reg) (opcode : BitVec 7) : Word :=
  imm ++ rd ++ opcode

/-- `offset` is the immediate without its always-zero bit 0. -/
def jType (offset : BitVec 20) (rd : Reg) (opcode : BitVec 7) : Word :=
  offset.extractLsb' 19 1 ++ offset.extractLsb' 0 10 ++
    offset.extractLsb' 10 1 ++ offset.extractLsb' 11 8 ++ rd ++ opcode

/-! ## Integer computation -/

inductive ImmOp where
  | addi | slti | sltiu | xori | ori | andi
  deriving DecidableEq

inductive ShiftOp where
  | slli | srli | srai
  deriving DecidableEq

inductive RegOp where
  | add | sub | sll | slt | sltu | xor | srl | sra | or | and
  deriving DecidableEq

inductive IntInstr where
  | lui (rd : Reg) (imm : BitVec 20)
  | auipc (rd : Reg) (imm : BitVec 20)
  | opImm (kind : ImmOp) (rd rs1 : Reg) (imm : BitVec 12)
  | shiftImm (kind : ShiftOp) (rd rs1 : Reg) (shamt : BitVec 5)
  | op (kind : RegOp) (rd rs1 rs2 : Reg)

def ImmOp.funct3 : ImmOp → BitVec 3
  | .addi => 0b000
  | .slti => 0b010
  | .sltiu => 0b011
  | .xori => 0b100
  | .ori => 0b110
  | .andi => 0b111

def ShiftOp.funct3 : ShiftOp → BitVec 3
  | .slli => 0b001
  | .srli => 0b101
  | .srai => 0b101

def ShiftOp.funct7 : ShiftOp → BitVec 7
  | .srai => 0b0100000
  | _ => 0b0000000

def RegOp.funct3 : RegOp → BitVec 3
  | .add => 0b000
  | .sub => 0b000
  | .sll => 0b001
  | .slt => 0b010
  | .sltu => 0b011
  | .xor => 0b100
  | .srl => 0b101
  | .sra => 0b101
  | .or => 0b110
  | .and => 0b111

def RegOp.funct7 : RegOp → BitVec 7
  | .sub => 0b0100000
  | .sra => 0b0100000
  | _ => 0b0000000

/-- A Boolean as a register value. -/
def flag (bit : Bool) : Word := if bit then 1 else 0

def RegOp.value (x y : Word) : RegOp → Word
  | .add => x + y
  | .sub => x - y
  | .sll => x <<< (y.extractLsb' 0 5).toNat
  | .slt => flag (x.slt y)
  | .sltu => flag (x.ult y)
  | .xor => x ^^^ y
  | .srl => x >>> (y.extractLsb' 0 5).toNat
  | .sra => x.sshiftRight (y.extractLsb' 0 5).toNat
  | .or => x ||| y
  | .and => x &&& y

def ImmOp.value (x y : Word) : ImmOp → Word
  | .addi => x + y
  | .slti => flag (x.slt y)
  | .sltiu => flag (x.ult y)
  | .xori => x ^^^ y
  | .ori => x ||| y
  | .andi => x &&& y

def ShiftOp.value (x : Word) (shamt : BitVec 5) : ShiftOp → Word
  | .slli => x <<< shamt.toNat
  | .srli => x >>> shamt.toNat
  | .srai => x.sshiftRight shamt.toNat

namespace IntInstr

def encode : IntInstr → Word
  | .lui rd imm => uType imm rd 0b0110111
  | .auipc rd imm => uType imm rd 0b0010111
  | .opImm kind rd rs1 imm => iType imm rs1 kind.funct3 rd 0b0010011
  | .shiftImm kind rd rs1 shamt =>
      rType kind.funct7 shamt rs1 kind.funct3 rd 0b0010011
  | .op kind rd rs1 rs2 => rType kind.funct7 rs2 rs1 kind.funct3 rd 0b0110011

def rd : IntInstr → Reg
  | .lui rd _ => rd
  | .auipc rd _ => rd
  | .opImm _ rd _ _ => rd
  | .shiftImm _ rd _ _ => rd
  | .op _ rd _ _ => rd

/-- The first source register, for the instructions that have one. -/
def rs1 : IntInstr → Option Reg
  | .opImm _ _ rs1 _ => some rs1
  | .shiftImm _ _ rs1 _ => some rs1
  | .op _ _ rs1 _ => some rs1
  | _ => none

/-- The second source register, for the instructions that have one. -/
def rs2 : IntInstr → Option Reg
  | .op _ _ _ rs2 => some rs2
  | _ => none

/-- What the instruction at `pc` assigns to `rd` when its source registers
hold `x` and `y`. -/
def value (pc x y : Word) : IntInstr → Word
  | .lui _ imm => imm ++ 0#12
  | .auipc _ imm => pc + (imm ++ 0#12)
  | .opImm kind _ _ imm => kind.value x (imm.signExtend 32)
  | .shiftImm kind _ _ shamt => kind.value x shamt
  | .op kind _ _ _ => kind.value x y

/-- The set-less-than instructions, when their comparison holds. -/
def setsLess (x y : Word) : IntInstr → Bool
  | .opImm .slti _ _ imm => x.slt (imm.signExtend 32)
  | .opImm .sltiu _ _ imm => x.ult (imm.signExtend 32)
  | .op .slt _ _ _ => x.slt y
  | .op .sltu _ _ _ => x.ult y
  | _ => false

end IntInstr

/-! ## Control transfer -/

inductive BranchOp where
  | beq | bne | blt | bge | bltu | bgeu
  deriving DecidableEq

inductive ControlInstr where
  | jal (rd : Reg) (offset : BitVec 20)
  | jalr (rd rs1 : Reg) (imm : BitVec 12)
  | branch (kind : BranchOp) (rs1 rs2 : Reg) (offset : BitVec 12)

def BranchOp.funct3 : BranchOp → BitVec 3
  | .beq => 0b000
  | .bne => 0b001
  | .blt => 0b100
  | .bge => 0b101
  | .bltu => 0b110
  | .bgeu => 0b111

def BranchOp.holds (x y : Word) : BranchOp → Bool
  | .beq => x == y
  | .bne => x != y
  | .blt => x.slt y
  | .bge => !x.slt y
  | .bltu => x.ult y
  | .bgeu => !x.ult y

namespace ControlInstr

def encode : ControlInstr → Word
  | .jal rd offset => jType offset rd 0b1101111
  | .jalr rd rs1 imm => iType imm rs1 0b000 rd 0b1100111
  | .branch kind rs1 rs2 offset => bType offset rs2 rs1 kind.funct3 0b1100011

/-- The link register, for the instructions that have one. -/
def rd : ControlInstr → Option Reg
  | .jal rd _ => some rd
  | .jalr rd _ _ => some rd
  | .branch _ _ _ _ => none

def rs1 : ControlInstr → Option Reg
  | .jal _ _ => none
  | .jalr _ rs1 _ => some rs1
  | .branch _ rs1 _ _ => some rs1

def rs2 : ControlInstr → Option Reg
  | .branch _ _ rs2 _ => some rs2
  | _ => none

def taken (x y : Word) : ControlInstr → Bool
  | .jal _ _ => true
  | .jalr _ _ _ => true
  | .branch kind _ _ _ => kind.holds x y

/-- `(x + imm) & ~1` -/
def jalrTarget (x : Word) (imm : BitVec 12) : Word :=
  (x + imm.signExtend 32) &&& ~~~1#32

/-- The address of the next instruction when the instruction at `pc` finds
`x` and `y` in its source registers. -/
def nextPc (pc x y : Word) : ControlInstr → Word
  | .jal _ offset => pc + (offset ++ 0#1).signExtend 32
  | .jalr _ _ imm => jalrTarget x imm
  | .branch kind _ _ offset =>
      if kind.holds x y then pc + (offset ++ 0#1).signExtend 32 else pc + 4

/-- A JALR whose target sum is odd. -/
def dropsBit (x : Word) : ControlInstr → Bool
  | .jalr _ _ imm => (x + imm.signExtend 32).getLsbD 0
  | _ => false

end ControlInstr

end Rv32i
