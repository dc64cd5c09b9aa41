import Ria.Library.ByteMemory
import Ria.Library.Rv32i

/-!
# The RV32I loads and stores

Their encoding, and their effect on a byte memory of 32-bit addresses.  A
value of several bytes has its least significant byte at the lowest address,
and addresses wrap around.
-/

namespace Rv32i

open ByteMemory

inductive LoadOp where
  | lb | lh | lw | lbu | lhu
  deriving DecidableEq

inductive StoreOp where
  | sb | sh | sw
  deriving DecidableEq

structure LoadInstr where
  kind : LoadOp
  rd : Reg
  rs1 : Reg
  imm : BitVec 12

structure StoreInstr where
  kind : StoreOp
  rs1 : Reg
  rs2 : Reg
  imm : BitVec 12

def LoadOp.funct3 : LoadOp → BitVec 3
  | .lb => 0b000
  | .lh => 0b001
  | .lw => 0b010
  | .lbu => 0b100
  | .lhu => 0b101

def StoreOp.funct3 : StoreOp → BitVec 3
  | .sb => 0b000
  | .sh => 0b001
  | .sw => 0b010

def sType (imm : BitVec 12) (rs2 rs1 : Reg) (funct3 : BitVec 3)
    (opcode : BitVec 7) : Word :=
  imm.extractLsb' 5 7 ++ rs2 ++ rs1 ++ funct3 ++ imm.extractLsb' 0 5 ++ opcode

def LoadInstr.encode (instr : LoadInstr) : Word :=
  iType instr.imm instr.rs1 instr.kind.funct3 instr.rd 0b0000011

def StoreInstr.encode (instr : StoreInstr) : Word :=
  sType instr.imm instr.rs2 instr.rs1 instr.kind.funct3 0b0100011

/-- The address of the first byte, when `rs1` holds `x`. -/
def effectiveAddress (x : Word) (imm : BitVec 12) : Word :=
  x + imm.signExtend 32

/-- What a load from `address` assigns to `rd`. -/
def LoadOp.value (memory : Memory 32) (address : Word) : LoadOp → Word
  | .lb => (memory address).signExtend 32
  | .lh => (memory (address + 1) ++ memory address).signExtend 32
  | .lw =>
      memory (address + 3) ++ memory (address + 2) ++ memory (address + 1) ++
        memory address
  | .lbu => (memory address).setWidth 32
  | .lhu => (memory (address + 1) ++ memory address).setWidth 32

/-- The bytes that a store of `y` writes, in the order of their addresses. -/
def StoreOp.bytes (y : Word) : StoreOp → List Byte
  | .sb => [y.extractLsb' 0 8]
  | .sh => [y.extractLsb' 0 8, y.extractLsb' 8 8]
  | .sw =>
      [y.extractLsb' 0 8, y.extractLsb' 8 8, y.extractLsb' 16 8,
        y.extractLsb' 24 8]

/-- The memory after a store of `y` to `address`. -/
def StoreOp.apply (memory : Memory 32) (address y : Word) (kind : StoreOp) :
    Memory 32 :=
  write memory address (kind.bytes y)

end Rv32i
