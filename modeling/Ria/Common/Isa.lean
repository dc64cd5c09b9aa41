import Ria.Common.MicroOp

/-!
# Instruction encodings

The field extractors, the immediate macros and the `casez` patterns of
`isa.svh`.  A pattern fixes some fields of the word and leaves the others
open; it is the test of the fixed fields.
-/

namespace Ria

def rv32Opcode (inst : Word) : BitVec 7 := inst.extractLsb' 0 7
def rv32Funct3 (inst : Word) : BitVec 3 := inst.extractLsb' 12 3
def rv32Funct7 (inst : Word) : BitVec 7 := inst.extractLsb' 25 7
def rv32Funct2 (inst : Word) : BitVec 2 := inst.extractLsb' 25 2
def rv32RS3 (inst : Word) : BitVec 5 := inst.extractLsb' 27 5
def rv32RS2 (inst : Word) : BitVec 5 := inst.extractLsb' 20 5
def rv32RS1 (inst : Word) : BitVec 5 := inst.extractLsb' 15 5
def rv32RM (inst : Word) : BitVec 3 := inst.extractLsb' 12 3
def rv32RD (inst : Word) : BitVec 5 := inst.extractLsb' 7 5

/-- `{n{inst[31]}}` -/
def rv32Sign (n : Nat) (inst : Word) : BitVec n :=
  if inst.getLsbD 31 then BitVec.allOnes n else 0

def rv32ShamtImm (inst : Word) : Word :=
  0#27 ++ inst.extractLsb' 20 5

def rv32SignextIImm (inst : Word) : Word :=
  rv32Sign 21 inst ++ inst.extractLsb' 20 11

def rv32SignextSImm (inst : Word) : Word :=
  rv32Sign 21 inst ++ inst.extractLsb' 25 6 ++ inst.extractLsb' 7 5

def rv32SignextBImm (inst : Word) : Word :=
  rv32Sign 20 inst ++ inst.extractLsb' 7 1 ++ inst.extractLsb' 25 6 ++
    inst.extractLsb' 8 4 ++ 0#1

def rv32SignextUImm (inst : Word) : Word :=
  inst.extractLsb' 12 20 ++ 0#12

def rv32SignextJImm (inst : Word) : Word :=
  rv32Sign 12 inst ++ inst.extractLsb' 12 8 ++ inst.extractLsb' 20 1 ++
    inst.extractLsb' 21 10 ++ 0#1

def rv32OpLui : BitVec 7 := 0b0110111#7
def rv32OpAuipc : BitVec 7 := 0b0010111#7
def rv32OpJal : BitVec 7 := 0b1101111#7
def rv32OpJalr : BitVec 7 := 0b1100111#7
def rv32OpBranch : BitVec 7 := 0b1100011#7
def rv32OpLoad : BitVec 7 := 0b0000011#7
def rv32OpStore : BitVec 7 := 0b0100011#7
def rv32OpImm : BitVec 7 := 0b0010011#7
def rv32Op : BitVec 7 := 0b0110011#7
def rv32OpFence : BitVec 7 := 0b0001111#7
def rv32OpSystem : BitVec 7 := 0b1110011#7
def rv32OpLoadFp : BitVec 7 := 0b0000111#7
def rv32OpStoreFp : BitVec 7 := 0b0100111#7
def rv32OpFmadd : BitVec 7 := 0b1000011#7
def rv32OpFmsub : BitVec 7 := 0b1000111#7
def rv32OpFnmsub : BitVec 7 := 0b1001011#7
def rv32OpFnmadd : BitVec 7 := 0b1001111#7
def rv32OpFp : BitVec 7 := 0b1010011#7

/-- A `casez` item. -/
abbrev Pattern := Word → Bool

/-- `RV32_U_t` (`RV32_J_t` is the same pattern) -/
def rv32U (op : BitVec 7) : Pattern := fun inst =>
  rv32Opcode inst == op

/-- `RV32_I_t` (`RV32_S_t` and `RV32_B_t` are the same pattern) -/
def rv32I (op : BitVec 7) (funct3 : BitVec 3) : Pattern := fun inst =>
  rv32Opcode inst == op && rv32Funct3 inst == funct3

/-- `RV32_R_t` -/
def rv32R (op : BitVec 7) (funct3 : BitVec 3) (funct7 : BitVec 7) :
    Pattern := fun inst =>
  rv32Opcode inst == op && rv32Funct3 inst == funct3 &&
    rv32Funct7 inst == funct7

/-- `RV32_R4_t` with `3'b???` for `funct3`, its only use -/
def rv32R4 (op : BitVec 7) (funct2 : BitVec 2) : Pattern := fun inst =>
  rv32Opcode inst == op && rv32Funct2 inst == funct2

/-- `RV32_F_t`; `none` stands for a field of `?` -/
def rv32F (op : BitVec 7) (funct3 : Option (BitVec 3))
    (funct5 : Option (BitVec 5)) (funct7 : BitVec 7) : Pattern := fun inst =>
  rv32Opcode inst == op && funct3.all (rv32Funct3 inst == ·) &&
    funct5.all (rv32RS2 inst == ·) && rv32Funct7 inst == funct7

end Ria
