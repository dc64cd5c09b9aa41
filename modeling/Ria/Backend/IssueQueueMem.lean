import Ria.Common.Bundle
import Ria.Backend.PrfInt
import Ria.Library.PrioritySelect

/-!
# Memory issue queue

Sixteen slots in program order from slot 0 on.  A cycle issues at most one
uop, moves the slots above it down by one, and loads the incoming uops from
the tail on.  The packed array `uop_to_issue` reads as the empty uop past its
last slot.
-/

namespace Ria

open Hdl

/-- The registers of `issue_slot_mem`. -/
structure IssueSlotMem where
  uop : MicroOp
  isNew : Bool
  rs1Index : PrfIndex
  rs2Index : PrfIndex

namespace IssueSlotMem

def resetState : IssueSlotMem :=
  { uop := 0, isNew := false, rs1Index := 0, rs2Index := 0 }

def ready (slot : IssueSlotMem) (rs1Busy rs2Busy : Bool) : Bool :=
  (!rs1Busy && !slot.isNew) && (!rs2Busy && !slot.isNew) && slot.uop.valid

/-- A slot that takes over a uop, with the indices it inquires about. -/
def holding (uop : MicroOp) (isNew : Bool) : IssueSlotMem :=
  { uop := uop
    isNew := isNew
    rs1Index := if uop.rs1Source = .fromRf then uop.rs1PrfIntIndex else 0
    rs2Index := if uop.rs2Source = .fromRf then uop.rs2PrfIntIndex else 0 }

def next (reset clear load : Bool) (uopIn uopNew : MicroOp) : IssueSlotMem :=
  if reset || clear then resetState
  else if load && uopIn.valid then holding uopIn true
  else holding uopNew false

end IssueSlotMem

/-- `store_mask`: the slots from the first store on, a store in slot 0 itself
excepted. -/
def storeMask (isStore : Fin 16 → Bool) : Fin 16 → Bool :=
  match lowest isStore with
  | none => fun _ => false
  | some first => if first = 0 then fun i => i != 0 else fun i => first ≤ i

/-- The registers of `issue_queue_mem`. -/
structure IssueQueueMem where
  slots : Fin 16 → IssueSlotMem
  freeCountReg : BitVec 5
  tailReg : BitVec 5

/-- The answers of the scoreboard to the slots of a queue. -/
structure BusyPorts (size : Nat) where
  rs1Busy : Fin size → Bool
  rs2Busy : Fin size → Bool

namespace IssueQueueMem

def resetState : IssueQueueMem :=
  { slots := fun _ => .resetState, freeCountReg := 16, tailReg := 0 }

section Signals

variable (queue : IssueQueueMem) (busy : BusyPorts 16)
  (uopIn : Fin 4 → MicroOp)

/-- `uop_to_issue[index]` -/
def uopToIssue (index : Nat) : MicroOp :=
  if within : index < 16 then (queue.slots ⟨index, within⟩).uop else 0

def ready : Fin 16 → Bool :=
  fun i => (queue.slots i).ready (busy.rs1Busy i) (busy.rs2Busy i)

def isStore : Fin 16 → Bool :=
  fun i => (queue.slots i).uop.memType == .st

/-- `output_sel` with `output_sel_valid`. -/
def outputSel : Option (Fin 16) :=
  select (fun i => queue.ready busy i && !storeMask queue.isStore i) 0

def clear : Fin 16 → Bool :=
  Function.update (fun _ => false) ((queue.outputSel busy).getD 0)
    (queue.outputSel busy).isSome

/-- `uop_out` and `uop_out_count`. -/
def issue : MicroOp × BitVec 5 :=
  forEach 16
    (fun j issued =>
      if queue.clear busy j then (queue.uopToIssue j.val, issued.2 + 1)
      else issued)
    (0, 0)

def uopOut : MicroOp := (queue.issue busy).1

def uopOutCount : BitVec 5 := (queue.issue busy).2

def compressOffset (i : Fin 16) : Nat :=
  match queue.outputSel busy with
  | some sel => if i < sel then 0 else 1
  | none => 0

def uopInCount : BitVec 5 :=
  forEach 4 (fun i count => if (uopIn i).valid then count + 1 else count) 0

/-- `uop_to_slot` and `load`. -/
structure SlotInputs where
  uopToSlot : Fin 16 → MicroOp
  load : Fin 16 → Bool

/-- `i + tail_reg - uop_out_count`, at 32 bits. -/
def slotIndex (i : Fin 4) : BitVec 32 :=
  BitVec.ofNat 32 i.val + queue.tailReg.setWidth 32 -
    (queue.uopOutCount busy).setWidth 32

def slotInputs : SlotInputs :=
  forEach 4
    (fun i inputs =>
      let index := (queue.slotIndex busy i).toNat
      if within : index < 16 then
        { uopToSlot :=
            Function.update inputs.uopToSlot ⟨index, within⟩ (uopIn i)
          load := Function.update inputs.load ⟨index, within⟩ true }
      else inputs)
    { uopToSlot := fun _ => 0, load := fun _ => false }

def freeCount : BitVec 5 :=
  queue.freeCountReg - uopInCount uopIn + queue.uopOutCount busy

def iqMemFull : Bool := queue.freeCount busy uopIn < 4

def tail : BitVec 5 :=
  queue.tailReg + uopInCount uopIn - queue.uopOutCount busy

def next (reset clearEn loadEn : Bool) : IssueQueueMem :=
  { slots := fun k =>
      IssueSlotMem.next reset clearEn
        ((queue.slotInputs busy uopIn).load k && loadEn)
        ((queue.slotInputs busy uopIn).uopToSlot k)
        (queue.uopToIssue (k.val + queue.compressOffset busy k))
    freeCountReg :=
      if reset || clearEn then 16 else queue.freeCount busy uopIn
    tailReg := if reset || clearEn then 0 else queue.tail busy uopIn }

end Signals

end IssueQueueMem

end Ria
