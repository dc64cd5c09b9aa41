import Ria.Library.Rv32iMemory
import Mathlib.Logic.Function.Basic

/-!
# RV32I harts

A hart executes the instructions above one after the other on a pc, the
registers and a byte memory.  Register 0 reads as zero.
-/

namespace Rv32i

open ByteMemory

inductive Instr where
  | int (instr : IntInstr)
  | control (instr : ControlInstr)
  | load (instr : LoadInstr)
  | store (instr : StoreInstr)

def Instr.encode : Instr → Word
  | .int instr => instr.encode
  | .control instr => instr.encode
  | .load instr => instr.encode
  | .store instr => instr.encode

structure Hart where
  pc : Word
  registers : Reg → Word
  memory : Memory 32

namespace Hart

section State

variable (hart : Hart)

def read (reg : Reg) : Word := if reg = 0 then 0 else hart.registers reg

/-- A source register, or nothing -/
def operand (source : Option Reg) : Word := (source.map hart.read).getD 0

def write (reg : Reg) (value : Word) : Reg → Word :=
  if reg = 0 then hart.registers
  else Function.update hart.registers reg value

/-- The address of the next instruction goes to the link register. -/
def link : Option Reg → Reg → Word
  | some rd => hart.write rd (hart.pc + 4)
  | none => hart.registers

/-- The address of a load or store -/
def address (base : Reg) (imm : BitVec 12) : Word :=
  effectiveAddress (hart.read base) imm

def execute : Instr → Hart
  | .int instr =>
      { hart with
        pc := hart.pc + 4
        registers := hart.write instr.rd
          (instr.value hart.pc (hart.operand instr.rs1)
            (hart.operand instr.rs2)) }
  | .control instr =>
      { hart with
        pc := instr.nextPc hart.pc (hart.operand instr.rs1)
          (hart.operand instr.rs2)
        registers := hart.link instr.rd }
  | .load instr =>
      { hart with
        pc := hart.pc + 4
        registers := hart.write instr.rd
          (instr.kind.value hart.memory (hart.address instr.rs1 instr.imm)) }
  | .store instr =>
      { hart with
        pc := hart.pc + 4
        memory := instr.kind.apply hart.memory
          (hart.address instr.rs1 instr.imm) (hart.read instr.rs2) }

end State

/-- One instruction of the code -/
def step (code : Word → Instr) (hart : Hart) : Hart :=
  hart.execute (code hart.pc)

/-- The hart after some instructions -/
def after (code : Word → Instr) (start : Hart) : Nat → Hart
  | 0 => start
  | count + 1 => (after code start count).step code

end Hart

end Rv32i
