import Ria.Common.MicroOp

/-!
# Function units

The ALU, the branch unit, the pipelined multiplier with its `imul_unsigned`
core, and the restoring divider.  Each unit has a record of its registers and
a `next` function giving their values after a clock edge.
-/

namespace Ria

/-- `{32{bit}}` -/
def mask32 (bit : Bool) : Word := if bit then BitVec.allOnes 32 else 0

theorem mask32_and (bit : Bool) (x : Word) :
    mask32 bit &&& x = if bit then x else 0 := by
  cases bit with
  | false => simp [mask32]
  | true => rw [mask32, if_pos rfl, if_pos rfl, BitVec.allOnes_and]

/-- The combinational `result` of `alu`. -/
def aluResult (uop : MicroOp) (in1 in2 : Word) : Word :=
  let shamt := (in2.extractLsb' 0 5).toNat
  let add := in1 + in2
  let sub := in1 - in2
  let slt := mask32 (in1.slt in2)
  let sltu := mask32 (in1.ult in2)
  let lxor := in1 ^^^ in2
  let lor := in1 ||| in2
  let land := in1 &&& in2
  let sll := in1 <<< shamt
  let srl := in1 >>> shamt
  let sra := in1.sshiftRight shamt
  let fn := uop.aluType
  (mask32 (fn == .add) &&& add) ||| (mask32 (fn == .sub) &&& sub) |||
    (mask32 (fn == .slt) &&& slt) ||| (mask32 (fn == .sltu) &&& sltu) |||
    (mask32 (fn == .xor) &&& lxor) ||| (mask32 (fn == .or) &&& lor) |||
    (mask32 (fn == .and) &&& land) ||| (mask32 (fn == .sll) &&& sll) |||
    (mask32 (fn == .srl) &&& srl) ||| (mask32 (fn == .sra) &&& sra)

/-- The combinational `result` of `branch`: whether control is transferred. -/
def branchResult (uop : MicroOp) (in1 in2 : Word) : Bool :=
  let eq := in1 == in2
  let ne := in1 != in2
  let lt := in1.slt in2
  let ge := !(in1.slt in2)
  let ltu := in1.ult in2
  let geu := !(in1.ult in2)
  (uop.brType == .eq && eq) || (uop.brType == .ne && ne) ||
    (uop.brType == .lt && lt) || (uop.brType == .ge && ge) ||
    (uop.brType == .ltu && ltu) || (uop.brType == .geu && geu) ||
    uop.brType == .jal || uop.brType == .jalr

/-- `br_uop.br_addr` -/
def branchAddr (uop : MicroOp) (in1 in2 : Word) : Word :=
  if uop.brType = .jalr then in1 + uop.imm
  else if branchResult uop in1 in2 then uop.pc + uop.imm else uop.npc

/-- Overwrite the outcome fields of a branch-type uop. -/
def MicroOp.withOutcome (uop : MicroOp) (brTaken : Bool) (brAddr : Word) :
    MicroOp :=
  { uop with brTaken := brTaken, brAddr := brAddr }

/-- `br_uop` -/
def branchUop (uop : MicroOp) (in1 in2 : Word) : MicroOp :=
  uop.withOutcome (branchResult uop in1 in2) (branchAddr uop in1 in2)

/-- `br_out_result`: the link value. -/
def branchOut (uop : MicroOp) : Word :=
  if uop.brType = .jal ∨ uop.brType = .jalr then uop.npc else 0

/-- One clock edge of a shift register that takes `head` in at index 0. -/
def shiftIn {n : Nat} (head : α) (register : Fin n → α) : Fin n → α :=
  fun index =>
    if index.val = 0 then head
    else register ⟨index.val - 1, by have := index.isLt; omega⟩

/-- The registers of `imul_unsigned`. -/
structure ImulUnsigned where
  rA : Word
  rB : Word
  m : Fin 6 → BitVec 64

namespace ImulUnsigned

def next (unit : ImulUnsigned) (a b : Word) : ImulUnsigned :=
  { rA := a, rB := b
    m := shiftIn (unit.rA.setWidth 64 * unit.rB.setWidth 64) unit.m }

def res (unit : ImulUnsigned) : BitVec 64 := unit.m 5

end ImulUnsigned

/-- The registers of `imul`. -/
structure Imul where
  range : Fin 5 → Bool
  signReg : Fin 5 → BitVec 2
  valid : Fin 5 → Bool
  intMult : ImulUnsigned

namespace Imul

def sign (uop : MicroOp) : BitVec 2 :=
  match uop.imulType with
  | .mulhu => 0b00
  | .mulhsu => 0b01
  | _ => 0b11

def product0 (unit : Imul) : BitVec 64 := unit.intMult.res

def product1 (unit : Imul) : BitVec 64 := unit.product0

def product2 (unit : Imul) : BitVec 64 := unit.product0

def finalProduct (unit : Imul) : BitVec 64 :=
  if unit.signReg 4 = 0b00 then unit.product0
  else if unit.signReg 4 = 0b01 then unit.product1
  else unit.product2

def out (unit : Imul) : Word :=
  if unit.range 4 then unit.finalProduct.extractLsb' 32 32
  else unit.finalProduct.extractLsb' 0 32

/-- `valid[`IMUL_LATENCY-2:0] != 0` -/
def busy (unit : Imul) : Bool :=
  unit.valid 0 || unit.valid 1 || unit.valid 2 || unit.valid 3

def next (unit : Imul) (reset : Bool) (uop : MicroOp) (in1 in2 : Word) :
    Imul :=
  if reset then
    { range := fun _ => false, signReg := fun _ => 0, valid := fun _ => false
      intMult := unit.intMult.next in1 in2 }
  else
    { range := shiftIn (uop.imulType != .mulhu) unit.range
      signReg := shiftIn (sign uop) unit.signReg
      valid := shiftIn (uop.valid && uop.fuCode == .imul) unit.valid
      intMult := unit.intMult.next in1 in2 }

end Imul

/-- The registers of `divider`. -/
structure Divider where
  active : Bool
  cycle : BitVec 5
  result : Word
  denom : Word
  work : Word

namespace Divider

/-- `{ work[30:0], result[31] }` -/
def shifted (unit : Divider) : Word :=
  unit.work.extractLsb' 0 31 ++ unit.result.extractLsb' 31 1

/-- The 33-bit difference whose top bit is the borrow. -/
def sub (unit : Divider) : BitVec 33 :=
  unit.shifted.setWidth 33 - unit.denom.setWidth 33

def ok (unit : Divider) : Bool := !unit.active

def next (unit : Divider) (reset start : Bool) (a b : Word) : Divider :=
  if reset then
    { active := false, cycle := 0, result := 0, denom := 0, work := 0 }
  else if start then
    { active := true, cycle := 31, result := a, denom := b, work := 0 }
  else if unit.active then
    { active := unit.cycle != 0
      cycle := unit.cycle - 1
      result := unit.result.extractLsb' 0 31 ++
        (if unit.sub.getLsbD 32 then 0#1 else 1#1)
      denom := unit.denom
      work := if unit.sub.getLsbD 32 then unit.shifted
        else unit.sub.setWidth 32 }
  else unit

end Divider

end Ria
