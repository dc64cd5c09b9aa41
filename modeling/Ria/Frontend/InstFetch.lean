import Ria.Common.Isa
import Ria.Frontend.BranchPred

/-!
# Instruction fetch

A group of four words at `pc`.  `is_valid`, which `inst_fetch` declares and
nothing drives, is an input here.  The ghost field `tag` of lane `i` is
`first + i`.
-/

namespace Ria

structure InstFetchInput where
  reset : Bool
  stall : Bool
  isValid : Fin 4 → Bool
  uopRetire : Fin 6 → MicroOp
  icacheData : BitVec 128
  icacheDataValid : Bool

/-- The registers of `inst_fetch`. -/
structure InstFetch where
  pc : Word
  brPred : BranchPred

namespace InstFetch

def resetState : InstFetch :=
  { pc := 0x1000, brPred := .resetState }

section Signals

variable (fetch : InstFetch) (input : InstFetchInput)

/-- The word of a lane. -/
def inst (i : Fin 4) : Word := input.icacheData.extractLsb' (i.val * 32) 32

def pcEnable : Bool := !input.reset && !input.stall

/-- `mispredict` does not depend on the group. -/
def mispredict : Bool :=
  (fetch.brPred.train fetch.pc input.uopRetire).mispredict

def instsOutValid : Bool :=
  (pcEnable input || fetch.mispredict input) && input.icacheDataValid

def isBranch (i : Fin 4) : Bool :=
  fetch.instsOutValid input && pcEnable input &&
    (rv32Opcode (inst input i) == rv32OpBranch ||
      rv32Opcode (inst input i) == rv32OpJalr ||
      rv32Opcode (inst input i) == rv32OpJal)

def prediction : BranchPred.Outputs :=
  fetch.brPred.comb fetch.pc (fetch.isBranch input) input.isValid
    input.uopRetire

/-- `insts_out[i].valid` -/
def laneValid : Nat → Bool
  | 0 => fetch.instsOutValid input
  | i + 1 =>
      fetch.instsOutValid input && laneValid i &&
        !(if within : i < 4 then
            (fetch.prediction input).predictions ⟨i, within⟩
          else false)

def instsOut (first : Nat) : Fin 4 → FbEntry :=
  fun i =>
    { pc := fetch.pc + BitVec.ofNat 32 (i.val * 4)
      inst := inst input i
      valid := fetch.laneValid input i.val
      predTaken := (fetch.prediction input).predictions i
      predAddr :=
        if (fetch.prediction input).predictions i then
          (fetch.prediction input).nextPc
        else 0
      tag := first + i.val }

def next : InstFetch :=
  { pc :=
      if input.reset then 0x1000
      else if fetch.instsOutValid input then (fetch.prediction input).nextPc
      else fetch.pc
    brPred := fetch.brPred.next input.reset fetch.pc (fetch.isBranch input)
      input.isValid input.uopRetire }

end Signals

end InstFetch

end Ria
