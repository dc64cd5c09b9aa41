import Ria.Common.Bundle
import Ria.Frontend.InstDecode
import Ria.Frontend.Rat
import Ria.Library.SkidBuffer

/-!
# From fetch to the reorder buffer

The IF~ID, ID~RR and RR~DP registers of `core` with decode and rename between
them.  A full commit stage (`cm_full`) or a refused rename (`rr_full`) holds
the stages behind it; ID~RR and RR~DP each have a skid buffer for what arrives
in the first stalled cycle.
-/

namespace Ria

open Hdl

/-- What the front end sees of the rest of `core` in a cycle, apart from the
registered `recover`. -/
structure FrontEndInput where
  reset : Bool
  clear : Bool
  iqFull : Bool
  cmAllocatable : Bool
  uopRetire : Fin 6 → MicroOp
  ifInstsOut : Fin 4 → FbEntry
  ifInstsOutValid : Bool

/-- `idRr` is `rr_uops_in`, `id_uops_out_tmp` and `rr_stall_prev`; `rrDp` is
`rob_uops_in`, `rr_uops_out_tmp` and `dp_stall_prev`. -/
structure FrontEnd where
  idInstsIn : Fin 4 → FbEntry
  idInstsInValid : Fin 4 → Bool
  idRr : SkidBuffer (Fin 4 → MicroOp)
  rr : Rat
  rrDp : SkidBuffer (Fin 4 → MicroOp)

namespace FrontEnd

def resetState : FrontEnd :=
  { idInstsIn := fun _ => 0
    idInstsInValid := fun _ => false
    idRr := .resetState noUops
    rr := MappingTable.resetState
    rrDp := .resetState noUops }

def cmFull (input : FrontEndInput) : Bool :=
  input.iqFull || !input.cmAllocatable

section Signals

variable (frontEnd : FrontEnd) (recover : Bool) (input : FrontEndInput)

def rrAllocatable : Bool :=
  frontEnd.rr.allocatable input.uopRetire frontEnd.idRr.out

def rrFull : Bool :=
  cmFull input || !frontEnd.rrAllocatable input

def idUopsOut : Fin 4 → MicroOp :=
  instDecode frontEnd.idInstsIn frontEnd.idInstsInValid

def rrUopsOut : Fin 4 → MicroOp :=
  frontEnd.rr.uopOut recover input.uopRetire frontEnd.idRr.out

/-- The registers after a cycle. -/
def next : FrontEnd :=
  let flush := input.reset || input.clear
  let hold := flush || frontEnd.rrFull input
  { idInstsIn := if hold then fun _ => 0 else input.ifInstsOut
    idInstsInValid :=
      if hold then fun _ => false
      else fun i => input.ifInstsOutValid && (input.ifInstsOut i).valid
    idRr := frontEnd.idRr.next noUops flush (frontEnd.rrFull input)
      frontEnd.idUopsOut
    rr := frontEnd.rr.next input.reset recover input.uopRetire
      frontEnd.idRr.out
    rrDp := frontEnd.rrDp.next noUops flush (cmFull input)
      (frontEnd.rrUopsOut recover input) }

end Signals

end FrontEnd

end Ria
