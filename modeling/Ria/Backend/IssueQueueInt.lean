import Ria.Backend.IssueQueueMem

/-!
# Integer issue queue

Thirty-two slots without an order.  Incoming uops take the lowest free slots;
a cycle issues up to two ready ALU or branch uops and one ready multiplication
or division, the lowest slots first.
-/

namespace Ria

open Hdl

/-- The registers of `issue_queue_int`; a slot holds its uop. -/
structure IssueQueueInt where
  slots : Fin 32 → MicroOp
  freeCountReg : BitVec 6

namespace IssueQueueInt

def resetState : IssueQueueInt :=
  { slots := fun _ => 0, freeCountReg := 32 }

/-- `uop_to_slot` and `load`. -/
structure SlotInputs where
  uopToSlot : Fin 32 → MicroOp
  load : Fin 32 → Bool

section Signals

variable (queue : IssueQueueInt) (uopIn : Fin 4 → MicroOp) (loadEn : Bool)
  (busy : BusyPorts 32)

def free : Fin 32 → Bool := fun k => !(queue.slots k).valid

/-- `input_select` with `input_select_valid`. -/
def inputSelect (i : Fin 4) : Option (Fin 32) := select queue.free i.val

def slotInputs : SlotInputs :=
  forEach 4
    (fun i inputs =>
      forEach 32
        (fun j inputs =>
          if queue.inputSelect i = some j ∧ (uopIn i).valid = true then
            { uopToSlot := Function.update inputs.uopToSlot j (uopIn i)
              load := Function.update inputs.load j true }
          else inputs)
        inputs)
    { uopToSlot := fun _ => 0, load := fun _ => false }

/-- A slot takes over its input. -/
def loads (k : Fin 32) : Bool :=
  ((queue.slotInputs uopIn).load k && loadEn) &&
    ((queue.slotInputs uopIn).uopToSlot k).valid

/-- `rs1_index` of a slot, for the incoming uop if it is loaded. -/
def rs1Index (k : Fin 32) : PrfIndex :=
  let uop := if queue.loads uopIn loadEn k then
    (queue.slotInputs uopIn).uopToSlot k else queue.slots k
  if uop.rs1Source = .fromRf then uop.rs1PrfIntIndex else 0

/-- `rs2_index` of a slot. -/
def rs2Index (k : Fin 32) : PrfIndex :=
  let uop := if queue.loads uopIn loadEn k then
    (queue.slotInputs uopIn).uopToSlot k else queue.slots k
  if uop.rs2Source = .fromRf then uop.rs2PrfIntIndex else 0

def ready : Fin 32 → Bool :=
  fun k => (!busy.rs1Busy k && !busy.rs2Busy k) && (queue.slots k).valid

def readyAluBr : Fin 32 → Bool :=
  fun k => queue.ready busy k &&
    ((queue.slots k).fuCode == .alu || (queue.slots k).fuCode == .br)

def readyImulIdiv : Fin 32 → Bool :=
  fun k => queue.ready busy k &&
    ((queue.slots k).fuCode == .imul || (queue.slots k).fuCode == .idiv)

/-- `clear_alu_br` and `clear_imul_idiv` with their valid bits, by output. -/
def outputSel : Fin 3 → Option (Fin 32)
  | 0 => select (queue.readyAluBr busy) 0
  | 1 => select (queue.readyAluBr busy) 1
  | 2 => select (queue.readyImulIdiv busy) 0

def uopOut : Fin 3 → MicroOp :=
  fun i =>
    match queue.outputSel busy i with
    | some k => queue.slots k
    | none => 0

def clear : Fin 32 → Bool :=
  forEach 3
    (fun i clear =>
      match queue.outputSel busy i with
      | some k => Function.update clear k true
      | none => clear)
    (fun _ => false)

def uopInCount : BitVec 6 :=
  forEach 4 (fun i count => if (uopIn i).valid then count + 1 else count) 0

def uopOutCount : BitVec 6 :=
  forEach 32 (fun k count => if queue.clear busy k then count + 1 else count) 0

def freeCount : BitVec 6 :=
  queue.freeCountReg - uopInCount uopIn + queue.uopOutCount busy

def iqIntFull : Bool := queue.freeCount uopIn busy < 4

def next (reset clearEn : Bool) : IssueQueueInt :=
  { slots := fun k =>
      if reset || (queue.clear busy k || clearEn) then 0
      else if queue.loads uopIn loadEn k then
        (queue.slotInputs uopIn).uopToSlot k
      else queue.slots k
    freeCountReg :=
      if reset || clearEn then 32 else queue.freeCount uopIn busy }

end Signals

end IssueQueueInt

end Ria
