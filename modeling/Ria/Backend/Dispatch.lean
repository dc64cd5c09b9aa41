import Ria.Common.Bundle
import Ria.Library.PrioritySelect
import Ria.Library.SkidBuffer

/-!
# Dispatch

`dispatch` sorts the lanes of a group by the issue queue they go to.  Each of
its outputs holds the uops of its class without gaps, in lane order.
-/

namespace Ria

open Hdl

/-- `uop_to_int_valid`, `uop_to_mem_valid` and `uop_to_fp_valid`. -/
def dispatchValid (code : IqCode) (uopIn : Fin 4 → MicroOp) : Fin 4 → Bool :=
  fun i => (uopIn i).valid && (uopIn i).iqCode == code

/-- One output of `dispatch`. -/
def dispatchTo (code : IqCode) (uopIn : Fin 4 → MicroOp) : Fin 4 → MicroOp :=
  fun i =>
    match select (dispatchValid code uopIn) i.val with
    | some lane => uopIn lane
    | none => 0

def uopToInt (uopIn : Fin 4 → MicroOp) : Fin 4 → MicroOp :=
  dispatchTo .int uopIn

def uopToMem (uopIn : Fin 4 → MicroOp) : Fin 4 → MicroOp :=
  dispatchTo .mem uopIn

def uopToFp (uopIn : Fin 4 → MicroOp) : Fin 4 → MicroOp :=
  dispatchTo .fp uopIn

/-- The valid uops of a group that go to one of the queues. -/
def dispatched (code : IqCode) (uopIn : Fin 4 → MicroOp) : List MicroOp :=
  (validUops uopIn).filter (fun uop => uop.iqCode == code)

theorem dispatchTo_eq_packed (code : IqCode) (uopIn : Fin 4 → MicroOp) :
    dispatchTo code uopIn = packed (dispatched code uopIn) := by
  have chosen : dispatched code uopIn =
      (setBits (dispatchValid code uopIn)).map uopIn := by
    rw [dispatched, validUops, List.ofFn_eq_map, List.filter_filter,
      List.filter_map, setBits]
    congr 2
    funext i
    exact Bool.and_comm _ _
  funext i
  rw [dispatchTo, packed, chosen, select_eq, List.getD_eq_getElem?_getD,
    List.getElem?_map]
  cases (setBits (dispatchValid code uopIn))[i.val]? <;> rfl

theorem valid_of_dispatched {code : IqCode} {uopIn : Fin 4 → MicroOp}
    {uop : MicroOp} (member : uop ∈ dispatched code uopIn) :
    uop.valid = true :=
  (mem_validUops.mp (List.mem_of_mem_filter member)).choose_spec.2

theorem length_dispatched_le (code : IqCode) (uopIn : Fin 4 → MicroOp) :
    (dispatched code uopIn).length ≤ 4 :=
  (List.length_filter_le _ _).trans (length_validUops_le uopIn)

theorem validUops_dispatchTo (code : IqCode) (uopIn : Fin 4 → MicroOp) :
    validUops (dispatchTo code uopIn) = dispatched code uopIn := by
  rw [dispatchTo_eq_packed]
  exact validUops_packed (length_dispatched_le code uopIn)
    (fun _ member => valid_of_dispatched member)

/-! ## DP~IS registers -/

/-- `is_int_uop_in` and `is_mem_uop_in`, with `dp_uop_to_int_tmp`,
`dp_uop_to_mem_tmp` and `is_stall_prev`. -/
abbrev DpIs := SkidBuffer ((Fin 4 → MicroOp) × (Fin 4 → MicroOp))

namespace DpIs

def empty : (Fin 4 → MicroOp) × (Fin 4 → MicroOp) := (noUops, noUops)

def resetState : DpIs := SkidBuffer.resetState empty

/-- The memory uops of a value of the registers. -/
def memUops (bundles : (Fin 4 → MicroOp) × (Fin 4 → MicroOp)) :
    List MicroOp :=
  validUops bundles.2

theorem memUops_empty : memUops empty = [] := validUops_noUops

def next (dpIs : DpIs) (reset clear iqFull : Bool)
    (dpUopsIn : Fin 4 → MicroOp) : DpIs :=
  SkidBuffer.next empty dpIs (reset || clear) iqFull
    (uopToInt dpUopsIn, uopToMem dpUopsIn)

end DpIs

end Ria
