import Ria.Backend.ExecutionUnit

/-!
# The load/store pipe

While the data cache answers at once, `pipe_3` takes every memory uop that
arrives and holds it for one cycle.
-/

namespace Ria

def MemSize.bits : MemSize → Nat
  | .byte => 8
  | .half => 16
  | .word => 32
  | .dword => 64

/-- What a load takes from the data of its request. -/
def MicroOp.loaded (uop : MicroOp) (data : BitVec 64) : Word :=
  let taken := data.extractLsb' 0 uop.memSize.bits
  if uop.memType = .ld then taken.signExtend 32 else taken.setWidth 32

/-- The request of a memory uop with the given operands. -/
def MicroOp.request (uop : MicroOp) (in1 in2 : Word) : DcachePort :=
  { addr := in1 + uop.imm, data := in2.setWidth 64
    dataWe := uop.memType == .st, dataSize := uop.memSize }

namespace Pipe3

/-- The uop in the pipe, if any, makes an access that completes at once. -/
structure Completing (pipe : Pipe3) : Prop where
  busy : pipe.busyReg = true → pipe.complete true = true
  idle : pipe.busyReg = false → pipe.uopReg = 0

namespace Completing

variable {pipe : Pipe3} {uop : MicroOp} {in1 in2 : Word}

theorem busyReg_next (completing : Completing pipe) :
    (pipe.next false false uop in1 in2 true).busyReg = inputValid uop := by
  unfold Pipe3.next
  cases inputValid uop <;> cases busy : pipe.busyReg <;>
    simp [completing.busy, busy]

theorem uopReg_next (completing : Completing pipe) :
    (pipe.next false false uop in1 in2 true).uopReg =
      if inputValid uop then uop else 0 := by
  unfold Pipe3.next
  cases inputValid uop <;> cases busy : pipe.busyReg <;>
    simp [completing.busy, completing.idle, busy]

theorem next (completing : Completing pipe) :
    Completing (pipe.next false false uop in1 in2 true) := by
  constructor
  · rw [completing.busyReg_next]
    intro accept
    simp only [complete, Pipe3.next, accept]
    cases uop.memType <;> rfl
  · rw [completing.busyReg_next, completing.uopReg_next]
    intro refuse
    simp [refuse]

end Completing

/-- The registers once the pipe has taken a memory uop. -/
def holding (uop : MicroOp) (in1 in2 : Word) : Pipe3 :=
  { isLd := uop.memType == .ld
    isLdu := uop.memType == .ldu
    isSt := uop.memType == .st
    busyReg := true
    uopReg := uop
    port := uop.request in1 in2 }

theorem extractLsb'_signExtend {width : Nat} (x : BitVec width) :
    (x.signExtend 64).extractLsb' 0 32 = x.signExtend 32 := by
  ext index within
  have wide : index < 64 := by omega
  rw [BitVec.getElem_extractLsb', BitVec.getElem_signExtend, Nat.zero_add,
    BitVec.getLsbD_signExtend]
  simp [wide, BitVec.getLsbD_eq_getElem?_getD]
  grind

theorem extractLsb'_setWidth {width : Nat} (x : BitVec width) :
    (x.setWidth 64).extractLsb' 0 32 = x.setWidth 32 := by
  ext index within
  simp
  intros
  omega

theorem extendSigned_low (size : MemSize) (data : BitVec 64) :
    (extendSigned size data).extractLsb' 0 32 =
      (data.extractLsb' 0 size.bits).signExtend 32 := by
  cases size with
  | byte | half | word => exact extractLsb'_signExtend _
  | dword =>
      change data.extractLsb' 0 32 = (data.extractLsb' 0 64).signExtend 32
      rw [BitVec.extractLsb'_eq_self,
        BitVec.signExtend_eq_setWidth_of_le data (by decide),
        BitVec.setWidth_eq_extractLsb' (by decide)]

theorem extendUnsigned_low (size : MemSize) (data : BitVec 64) :
    (extendUnsigned size data).extractLsb' 0 32 =
      (data.extractLsb' 0 size.bits).setWidth 32 := by
  cases size with
  | byte | half | word => exact extractLsb'_setWidth _
  | dword =>
      change data.extractLsb' 0 32 = (data.extractLsb' 0 64).setWidth 32
      rw [BitVec.extractLsb'_eq_self,
        BitVec.setWidth_eq_extractLsb' (by decide)]

theorem holding_loads {uop : MicroOp} (load : uop.memType ≠ .st)
    (in1 in2 : Word) (data : BitVec 64) :
    (holding uop in1 in2).out data true = uop.loaded data := by
  unfold out dataOut MicroOp.loaded
  cases kind : uop.memType with
  | ld => simp [holding, kind, extendSigned_low]
  | ldu => simp [holding, kind, extendUnsigned_low]
  | st => exact absurd kind load

theorem holding_stores {uop : MicroOp} (store : uop.memType = .st)
    (in1 in2 : Word) (data : BitVec 64) :
    (holding uop in1 in2).out data true = 0 := by
  simp [out, dataOut, holding, store]

theorem next_take {pipe : Pipe3} {uop : MicroOp} {dataValid : Bool}
    (in1 in2 : Word)
    (free : pipe.busyReg = true → pipe.complete dataValid = true)
    (arrives : inputValid uop = true) :
    pipe.next false false uop in1 in2 dataValid = holding uop in1 in2 := by
  unfold Pipe3.next
  cases busy : pipe.busyReg with
  | false => simp [arrives, holding, MicroOp.request]
  | true => simp [arrives, free busy, holding, MicroOp.request]

theorem next_idle {pipe : Pipe3} {uop : MicroOp} {dataValid : Bool}
    (in1 in2 : Word)
    (free : pipe.busyReg = true → pipe.complete dataValid = true)
    (idle : pipe.busyReg = false → pipe.uopReg = 0)
    (nothing : inputValid uop = false) :
    (pipe.next false false uop in1 in2 dataValid).busyReg = false ∧
      (pipe.next false false uop in1 in2 dataValid).uopReg = 0 := by
  unfold Pipe3.next
  cases busy : pipe.busyReg with
  | false => simp [nothing, idle busy]
  | true => simp [nothing, free busy]

theorem completing_of_flush {pipe : Pipe3} {reset clear : Bool}
    {uop : MicroOp} {in1 in2 : Word} {dataValid : Bool}
    (flush : (reset || clear) = true) :
    Completing (pipe.next reset clear uop in1 in2 dataValid) := by
  have idle : (pipe.next reset clear uop in1 in2 dataValid).busyReg = false :=
    if_pos flush
  constructor
  · intro busy
    rw [idle] at busy
    cases busy
  · exact fun _ => if_pos flush

/-- The pipe in a run from a reset, with `dcache2core_data_valid` held at 1. -/
inductive ValidRun : Pipe3 → Prop where
  | reset (pipe : Pipe3) (clear : Bool) (uop : MicroOp) (in1 in2 : Word)
      (dataValid : Bool) :
      ValidRun (pipe.next true clear uop in1 in2 dataValid)
  | next {pipe : Pipe3} (run : ValidRun pipe) (clear : Bool) (uop : MicroOp)
      (in1 in2 : Word) : ValidRun (pipe.next false clear uop in1 in2 true)

theorem ValidRun.completing {pipe : Pipe3} (run : ValidRun pipe) :
    Completing pipe := by
  induction run with
  | reset pipe clear uop in1 in2 dataValid => exact completing_of_flush rfl
  | next run clear uop in1 in2 induction =>
      cases clear with
      | true => exact completing_of_flush rfl
      | false => exact induction.next

end Pipe3

end Ria
