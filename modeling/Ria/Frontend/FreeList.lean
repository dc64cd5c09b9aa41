import Ria.Common.MicroOp
import Ria.Library.Loop
import Mathlib.Logic.Function.Basic

/-!
# Free list

`freeList` and `prfRecover` mark busy physical registers with 1; the second is
the list as it would be with every uncommitted rename undone.  The block
`always_comb` first returns and commits the registers of the retiring uops,
then looks for as many free registers as the group requests.
-/

namespace Ria

open Hdl

/-- One lane of the retirement ports. -/
structure RetirePort where
  prePrfValid : Bool
  prePrf : PrfIndex
  retireValid : Bool
  retirePrf : PrfIndex
  retireArf : ArfIndex

/-- The registers of `free_list`. -/
structure FreeList where
  freeList : PrfIndex → Bool
  freeNum : BitVec 6
  prfRecover : PrfIndex → Bool
  prfRecoverNum : BitVec 6

namespace FreeList

/-- The values on reset. -/
def resetState : FreeList :=
  { freeList := fun prf => prf == 0
    freeNum := 63
    prfRecover := fun prf => prf == 0
    prfRecoverNum := 63 }

/-- The body of the retirement loop. -/
def retireLane (list : FreeList) (port : RetirePort) : FreeList :=
  let list :=
    if port.prePrfValid then
      { freeNum := list.freeNum + 1
        freeList := Function.update list.freeList port.prePrf false
        prfRecoverNum := list.prfRecoverNum + 1
        prfRecover := Function.update list.prfRecover port.prePrf false }
    else list
  if port.retireValid then
    { list with
      prfRecoverNum := list.prfRecoverNum - 1
      prfRecover := Function.update list.prfRecover port.retirePrf true }
  else list

def retireLanes (list : FreeList) (ports : Fin 6 → RetirePort) : FreeList :=
  forEach 6 (fun i list => list.retireLane (ports i)) list

/-- `req_count` -/
def reqCount (prfReq : Fin 4 → Bool) : BitVec 4 :=
  forEach 4 (fun i count => if prfReq i then count + 1 else count) 0

/-- `prf_out_next` and `req_idx`. -/
structure Search where
  prfOutNext : Fin 4 → PrfIndex
  reqIdx : BitVec 4

/-- The body of the search before its `break`. -/
def searchLane (busy : PrfIndex → Bool) (prf : PrfIndex) (found : Search) :
    Search :=
  if busy prf = false then
    { prfOutNext := fun slot =>
        if slot.val = found.reqIdx.toNat then prf else found.prfOutNext slot
      reqIdx := found.reqIdx + 1 }
  else found

/-- The search for free registers, which breaks at the last one needed. -/
def search (busy : PrfIndex → Bool) (count : BitVec 4) : Search :=
  forLoop 64
    (fun i found =>
      let found := searchLane busy (BitVec.ofNat 6 i.val) found
      if found.reqIdx ≥ count then .stop found else .step found)
    { prfOutNext := fun _ => 0, reqIdx := 0 }

/-- `prf_out`, `free_list_next` and `req_idx_next`. -/
structure Assignment where
  prfOut : Fin 4 → PrfIndex
  freeList : PrfIndex → Bool
  reqIdxNext : BitVec 4

/-- `prf_out_next[req_idx_next]` -/
def Search.slot (found : Search) (reqIdxNext : BitVec 4) : PrfIndex :=
  if within : reqIdxNext.toNat < 4 then found.prfOutNext ⟨_, within⟩ else 0

/-- The body of the loop that hands out the registers found. -/
def assignLane (found : Search) (prfReq : Fin 4 → Bool) (i : Fin 4)
    (given : Assignment) : Assignment :=
  if prfReq i then
    { prfOut := Function.update given.prfOut i (found.slot given.reqIdxNext)
      freeList := Function.update given.freeList
        (found.slot given.reqIdxNext) true
      reqIdxNext := given.reqIdxNext + 1 }
  else given

def assign (busy : PrfIndex → Bool) (prfReq : Fin 4 → Bool) : Assignment :=
  forEach 4 (assignLane (search busy (reqCount prfReq)) prfReq)
    { prfOut := fun _ => 0, freeList := busy, reqIdxNext := 0 }

/-- The outcome of the `always_comb` block: the `*_next` values and the
outputs. -/
structure Comb where
  next : FreeList
  prfOut : Fin 4 → PrfIndex
  allocatable : Bool

def comb (list : FreeList) (ports : Fin 6 → RetirePort)
    (prfReq : Fin 4 → Bool) : Comb :=
  let list := list.retireLanes ports
  if (reqCount prfReq).setWidth 6 ≤ list.freeNum then
    let given := assign list.freeList prfReq
    { next :=
        { list with
          freeList := given.freeList
          freeNum := list.freeNum - (reqCount prfReq).setWidth 6 }
      prfOut := given.prfOut
      allocatable := true }
  else
    { next := list, prfOut := fun _ => 0, allocatable := false }

theorem comb_allocatable (list : FreeList) (ports : Fin 6 → RetirePort)
    (prfReq : Fin 4 → Bool) :
    (list.comb ports prfReq).allocatable = true ↔
      (reqCount prfReq).setWidth 6 ≤ (list.retireLanes ports).freeNum := by
  unfold comb
  by_cases fits : (reqCount prfReq).setWidth 6 ≤
      (list.retireLanes ports).freeNum
  · simp [fits]
  · simp [fits]

/-- The values after `recover`. -/
def recovered (list : FreeList) : FreeList :=
  { list with freeList := list.prfRecover, freeNum := list.prfRecoverNum }

end FreeList

end Ria
