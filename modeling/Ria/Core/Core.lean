import Ria.Backend.BackEnd
import Ria.Frontend.FrontEnd
import Ria.Frontend.InstFetch
import Ria.Frontend.Rob

/-!
# The core

The wiring of fetch, the front end, the reorder buffer and the back end.
`clear` is the reorder buffer's `recover` of the same cycle; rename and the
ports of the core see it one cycle later, through the CM~Recover registers.
-/

namespace Ria

/-- `isValid` is the mask that `inst_fetch` leaves undriven. -/
structure CoreInput where
  reset : Bool
  isValid : Fin 4 → Bool
  icache2coreData : BitVec 128
  icache2coreDataValid : Bool
  dcache2coreData : BitVec 64
  dcache2coreDataValid : Bool

/-- The registers of `core`.  The ghost field `cycles` counts the cycles; the
entries fetched in a cycle are tagged from four times its number on. -/
structure Core where
  if0 : InstFetch
  frontEnd : FrontEnd
  cm : Rob
  backEnd : BackEnd
  cmUopsComplete : Fin 6 → MicroOp
  recover : Bool
  uopRecover : MicroOp
  uopRetire : Fin 6 → MicroOp
  storeRetire : Fin 6 → Bool
  cycles : Nat

namespace Core

section Signals

variable (core : Core) (input : CoreInput)

/-- `rob_uops_in` -/
def robUopsIn : Fin 4 → MicroOp := core.frontEnd.rrDp.out

/-- The outputs of the reorder buffer. -/
def cmOutputs : Rob.Outputs :=
  core.cm.outputs core.cmUopsComplete core.robUopsIn

def cmRecover : Bool := core.cmOutputs.recover

def cmUopRetire : Fin 6 → MicroOp := core.cmOutputs.uopRetire

def cmStoreRetire : Fin 6 → Bool :=
  fun i => (core.cmUopRetire i).memType == .st

def clear : Bool := core.cmRecover

def dpUopsIn : Fin 4 → MicroOp := core.cmOutputs.uopOut

def backEndInput : BackEndInput :=
  { reset := input.reset
    clear := core.clear
    dpUopsIn := core.dpUopsIn
    dcacheData := input.dcache2coreData
    dcacheDataValid := input.dcache2coreDataValid }

def iqFull : Bool := core.backEnd.iqFull (core.backEndInput input)

/-- `rr_full`, which is also `if_stall`. -/
def rrFull : Bool :=
  (core.iqFull input || !core.cmOutputs.allocatable) ||
    !core.frontEnd.rr.allocatable core.uopRetire core.frontEnd.idRr.out

def fetchInput : InstFetchInput :=
  { reset := input.reset
    stall := core.rrFull input
    isValid := input.isValid
    uopRetire := core.cmUopRetire
    icacheData := input.icache2coreData
    icacheDataValid := input.icache2coreDataValid }

def ifInstsOut : Fin 4 → FbEntry :=
  core.if0.instsOut (core.fetchInput input) (4 * core.cycles)

def frontEndInput : FrontEndInput :=
  { reset := input.reset
    clear := core.clear
    iqFull := core.iqFull input
    cmAllocatable := core.cmOutputs.allocatable
    uopRetire := core.uopRetire
    ifInstsOut := core.ifInstsOut input
    ifInstsOutValid := core.if0.instsOutValid (core.fetchInput input) }

/-- The registers after a cycle. -/
def next : Core :=
  { if0 := core.if0.next (core.fetchInput input)
    frontEnd := core.frontEnd.next core.recover (core.frontEndInput input)
    cm := core.cm.next input.reset core.cmUopsComplete core.robUopsIn
    backEnd := core.backEnd.next (core.backEndInput input)
    cmUopsComplete :=
      if input.reset || core.clear then noUops
      else core.backEnd.wbUops
    recover := if input.reset then false else core.cmRecover
    uopRecover := if input.reset then 0 else core.cmOutputs.uopRecover
    uopRetire := if input.reset then noUops else core.cmUopRetire
    storeRetire :=
      if input.reset then fun _ => false else core.cmStoreRetire
    cycles := core.cycles + 1 }

end Signals

/-- The state after a cycle in reset. -/
def Start (core : Core) : Prop :=
  ∃ before input, input.reset = true ∧ core = Core.next before input

theorem flush_of_reset {core : Core} {input : CoreInput}
    (reset : input.reset = true) : (input.reset || core.clear) = true := by
  rw [reset, Bool.true_or]

theorem flush_of_clear {core : Core} (clear : core.clear = true)
    (input : CoreInput) : (input.reset || core.clear) = true := by
  rw [clear, Bool.or_true]

/-- A flush keeps the group that is being fetched from decode. -/
theorem idInsts_of_flush {core : Core} {input : CoreInput}
    (flush : (input.reset || core.clear) = true) :
    (core.next input).frontEnd.idInstsInValid = fun _ => false := by
  have hold : ((input.reset || core.clear) ||
      core.frontEnd.rrFull (core.frontEndInput input)) = true := by
    rw [flush, Bool.true_or]
  exact if_pos hold

end Core

end Ria
