import Ria.Frontend.MappingTable

/-!
# Register renaming

`rat` feeds the mapping table from the uops and writes its answers into the
group it puts out.  It has no registers of its own.
-/

namespace Ria

/-- The retirement ports of a retiring uop. -/
def MicroOp.retirePort (uop : MicroOp) : RetirePort :=
  if uop.valid then
    { prePrfValid := uop.rdPrfIntIndexPrevValid
      prePrf := uop.rdPrfIntIndexPrev
      retireValid := uop.rdValid
      retirePrf := uop.rdPrfIntIndex
      retireArf := uop.rdArfIntIndex }
  else
    { prePrfValid := false, prePrf := 0, retireValid := false
      retirePrf := 0, retireArf := 0 }

/-- The rename ports of an incoming uop. -/
def MicroOp.renamePort (uop : MicroOp) : RenamePort :=
  if uop.valid then
    { rdValid := uop.rdValid, rs1 := uop.rs1ArfIntIndex
      rs2 := uop.rs2ArfIntIndex, rd := uop.rdArfIntIndex }
  else { rdValid := false, rs1 := 0, rs2 := 0, rd := 0 }

/-- Write one lane of rename outputs into a uop. -/
def MicroOp.withRenamed (uop : MicroOp) (renamed : Renamed) : MicroOp :=
  { uop with
    rs1PrfIntIndex := renamed.prs1
    rs2PrfIntIndex := renamed.prs2
    rdPrfIntIndex := renamed.prd
    rdPrfIntIndexPrev := renamed.prevRd
    rdPrfIntIndexPrevValid := renamed.prevRdValid }

/-- The only state of `rat` is its mapping table. -/
abbrev Rat := MappingTable

namespace Rat

def comb (rat : Rat) (uopRetire : Fin 6 → MicroOp)
    (uopIn : Fin 4 → MicroOp) : MappingTable.Comb :=
  MappingTable.comb rat (fun i => (uopRetire i).retirePort)
    (fun i => (uopIn i).renamePort)

def allocatable (rat : Rat) (uopRetire : Fin 6 → MicroOp)
    (uopIn : Fin 4 → MicroOp) : Bool :=
  (rat.comb uopRetire uopIn).allocatable

def uopOut (rat : Rat) (recover : Bool) (uopRetire : Fin 6 → MicroOp)
    (uopIn : Fin 4 → MicroOp) : Fin 4 → MicroOp :=
  if recover then fun _ => 0
  else if rat.allocatable uopRetire uopIn then
    fun i => (uopIn i).withRenamed ((rat.comb uopRetire uopIn).renamed i)
  else fun _ => 0

def next (rat : Rat) (reset recover : Bool) (uopRetire : Fin 6 → MicroOp)
    (uopIn : Fin 4 → MicroOp) : Rat :=
  MappingTable.next rat reset recover (fun i => (uopRetire i).retirePort)
    (fun i => (uopIn i).renamePort)

end Rat

end Ria
