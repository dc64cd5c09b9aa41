import Ria.Frontend.FreeList

/-!
# Mapping table

`mpTb` maps architectural to physical registers as of the youngest rename,
`rRat` as of the youngest retirement; `arfValid` and `arfRecover` say which
entries have been written.  The free list is a submodule.
-/

namespace Ria

open Hdl

/-- One lane of the rename ports. -/
structure RenamePort where
  rdValid : Bool
  rs1 : ArfIndex
  rs2 : ArfIndex
  rd : ArfIndex

/-- One lane of the rename outputs. -/
structure Renamed where
  prs1 : PrfIndex
  prs2 : PrfIndex
  prd : PrfIndex
  prevRd : PrfIndex
  prevRdValid : Bool

/-- The registers of `mapping_table` and of its free list. -/
structure MappingTable where
  mpTb : ArfIndex → PrfIndex
  rRat : ArfIndex → PrfIndex
  arfValid : ArfIndex → Bool
  arfRecover : ArfIndex → Bool
  freeList : FreeList

namespace MappingTable

/-- The values on reset. -/
def resetState : MappingTable :=
  { mpTb := fun _ => 0
    rRat := fun _ => 0
    arfValid := fun arf => arf == 0
    arfRecover := fun arf => arf == 0
    freeList := .resetState }

/-- `r_rat_next` and `arf_recover_next` after one lane of the retirement
loop. -/
def retireMaps (maps : (ArfIndex → PrfIndex) × (ArfIndex → Bool))
    (port : RetirePort) : (ArfIndex → PrfIndex) × (ArfIndex → Bool) :=
  if port.retireValid then
    (Function.update maps.1 port.retireArf port.retirePrf,
      Function.update maps.2 port.retireArf true)
  else maps

/-- The variables of the rename loop. -/
structure Renaming where
  mpTb : ArfIndex → PrfIndex
  arfValid : ArfIndex → Bool
  renamed : Fin 4 → Renamed

/-- The body of the rename loop. -/
def renameLane (prfOut : Fin 4 → PrfIndex) (ports : Fin 4 → RenamePort)
    (i : Fin 4) (state : Renaming) : Renaming :=
  let port := ports i
  let prs1 := if port.rs1 = 0 then 0 else state.mpTb port.rs1
  let prs2 := if port.rs2 = 0 then 0 else state.mpTb port.rs2
  if port.rdValid then
    { mpTb := Function.update state.mpTb port.rd (prfOut i)
      arfValid := Function.update state.arfValid port.rd true
      renamed := Function.update state.renamed i
        { prs1 := prs1, prs2 := prs2, prd := prfOut i
          prevRd := state.mpTb port.rd
          prevRdValid := state.arfValid port.rd } }
  else
    { state with
      renamed := Function.update state.renamed i
        { prs1 := prs1, prs2 := prs2, prd := 0, prevRd := 0
          prevRdValid := false } }

/-- The outputs when nothing is renamed. -/
def noRename : Renamed :=
  { prs1 := 0, prs2 := 0, prd := 0, prevRd := 0, prevRdValid := false }

/-- The outcome of the `always_comb` block: the `*_next` values and the
outputs. -/
structure Comb where
  next : MappingTable
  renamed : Fin 4 → Renamed
  allocatable : Bool

def comb (table : MappingTable) (retire : Fin 6 → RetirePort)
    (ports : Fin 4 → RenamePort) : Comb :=
  let list := table.freeList.comb retire (fun i => (ports i).rdValid)
  let maps := forEach 6 (fun i maps => retireMaps maps (retire i))
    (table.rRat, table.arfRecover)
  let start : Renaming :=
    { mpTb := table.mpTb, arfValid := table.arfValid
      renamed := fun _ => noRename }
  let lanes :=
    if list.allocatable then forEach 4 (renameLane list.prfOut ports) start
    else start
  { next :=
      { mpTb := lanes.mpTb, rRat := maps.1
        arfValid := lanes.arfValid, arfRecover := maps.2
        freeList := list.next }
    renamed := lanes.renamed
    allocatable := list.allocatable }

/-- The values after `recover`. -/
def recovered (table : MappingTable) : MappingTable :=
  { table with
    mpTb := table.rRat
    arfValid := table.arfRecover
    freeList := table.freeList.recovered }

def next (table : MappingTable) (reset recover : Bool)
    (retire : Fin 6 → RetirePort) (ports : Fin 4 → RenamePort) :
    MappingTable :=
  if reset then resetState
  else if recover then (table.comb retire ports).next.recovered
  else (table.comb retire ports).next

end MappingTable

end Ria
