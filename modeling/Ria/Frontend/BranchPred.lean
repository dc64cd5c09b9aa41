import Ria.Common.MicroOp
import Ria.Library.Loop
import Mathlib.Logic.Function.Basic

/-!
# Branch predictor

A two-level predictor: `bht` holds the history of a branch and `pht` the
counter of a history.  `btb` is a set-associative target buffer.  The block
`always_comb` first trains on the retiring uops and then predicts the group at
`pc` with the trained tables.
-/

namespace Ria

open Hdl

/-- One way of `BTB_valid`, `BTB_PC_tag` and `BTB_target`. -/
structure BtbWay where
  valid : Bool
  pcTag : BitVec 23
  target : Word

/-- The registers of `branch_pred`. -/
structure BranchPred where
  bht : BitVec 7 → BitVec 7
  pht : BitVec 7 → BitVec 2
  btb : BitVec 5 → Fin 4 → BtbWay

namespace BranchPred

def resetState : BranchPred :=
  { bht := fun _ => 0
    pht := fun _ => 1
    btb := fun _ _ => { valid := false, pcTag := 0, target := 0 } }

/-- `pc[8:2]` -/
def bhtEntry (pc : Word) : BitVec 7 := pc.extractLsb' 2 7

/-- `pc[6:2]` -/
def btbEntry (pc : Word) : BitVec 5 := pc.extractLsb' 2 5

/-- `pc[31:32-BTB_TAG_SIZE]` -/
def btbTag (pc : Word) : BitVec 23 := pc.extractLsb' 9 23

/-- The variables of the training loop. -/
structure Training where
  tables : BranchPred
  lru : BitVec 2
  mispredict : Bool
  nextPc : Word

/-- The history and the counter of one branch. -/
def trainHistory (tables : BranchPred) (uop : MicroOp) : BranchPred :=
  let entry := bhtEntry uop.pc
  let history := (tables.bht entry <<< 1) |||
    (BitVec.ofBool uop.brTaken).setWidth 7
  let counter := tables.pht history
  let stepped :=
    if uop.brTaken then if counter < 3 then counter + 1 else counter
    else if counter > 0 then counter - 1 else counter
  { tables with
    bht := Function.update tables.bht entry history
    pht := Function.update tables.pht history stepped }

/-- The loop that looks for the way to replace. -/
def findLru (ways : Fin 4 → BtbWay) (pcTag : BitVec 23) (lru : BitVec 2) :
    BitVec 2 :=
  forLoop 4
    (fun j lru =>
      if (ways j).valid = true ∧ (ways j).pcTag = pcTag then
        .stop (BitVec.ofNat 2 j.val)
      else .step lru)
    lru

/-- The assignments to way 0 and the loop that moves the ways up. -/
def pushWay (ways : Fin 4 → BtbWay) (way : BtbWay) (lru : BitVec 2) :
    Fin 4 → BtbWay :=
  forEach 3
    (fun j ways =>
      if j.val + 1 < lru.toNat + 1 then
        Function.update ways j.succ (ways j.castSucc)
      else ways)
    (Function.update ways 0 way)

/-- The two tests that set `mispredict`. -/
def mispredicted (uop : MicroOp) : Bool :=
  uop.predTaken != uop.brTaken || uop.brAddr != uop.predAddr

/-- The body of the training loop. -/
def trainLane (uop : MicroOp) (state : Training) : Flow Training :=
  if uop.valid = true ∧ uop.brType ≠ .x then
    let tables := trainHistory state.tables uop
    let entry := btbEntry uop.pc
    let lru := findLru (tables.btb entry) (btbTag uop.pc) state.lru
    let way : BtbWay :=
      { valid := true, pcTag := btbTag uop.pc, target := uop.brAddr }
    let state : Training :=
      { state with
        tables :=
          { tables with
            btb := Function.update tables.btb entry
              (pushWay (tables.btb entry) way lru) }
        lru := lru }
    if mispredicted uop && !state.mispredict then
      .stop { state with mispredict := true, nextPc := uop.brAddr }
    else .step state
  else .step state

/-- The uops that the training loop processes. -/
def Trains (uop : MicroOp) : Prop := uop.valid = true ∧ uop.brType ≠ .x

instance (uop : MicroOp) : Decidable (Trains uop) :=
  inferInstanceAs (Decidable (_ ∧ _))

theorem trainLane_processed (state : Training) {uop : MicroOp}
    (trains : Trains uop) :
    let tables := trainHistory state.tables uop
    let entry := btbEntry uop.pc
    let lru := findLru (tables.btb entry) (btbTag uop.pc) state.lru
    (trainLane uop state).reached.tables =
        { tables with
          btb := Function.update tables.btb entry
            (pushWay (tables.btb entry)
              { valid := true, pcTag := btbTag uop.pc, target := uop.brAddr }
              lru) } ∧
      (trainLane uop state).reached.lru = lru := by
  have processed : uop.valid = true ∧ uop.brType ≠ .x := trains
  unfold trainLane
  rw [if_pos processed]
  dsimp only
  split
  · exact ⟨rfl, rfl⟩
  · exact ⟨rfl, rfl⟩

theorem trainLane_skipped (state : Training) {uop : MicroOp}
    (skipped : ¬ Trains uop) : trainLane uop state = .step state :=
  if_neg skipped

def train (tables : BranchPred) (pc : Word) (uopRetire : Fin 6 → MicroOp) :
    Training :=
  forLoop 6 (fun i state => trainLane (uopRetire i) state)
    { tables := tables, lru := 3, mispredict := false, nextPc := pc + 16 }

/-- The variables of the prediction loop. -/
structure Prediction where
  nextPc : Word
  branch : Bool
  predictions : Fin 4 → Bool

/-- The way that predicts lane `i`, searched from way 0. -/
def hitWay (tables : BranchPred) (pc : Word) (i : Fin 4) : Option (Fin 4) :=
  forLoop 4
    (fun j found =>
      let way := tables.btb (btbEntry pc + BitVec.ofNat 5 i.val) j
      if way.valid = true ∧ way.pcTag = btbTag pc then .stop (some j)
      else .step found)
    none

/-- The body of the prediction loop. -/
def predictLane (tables : BranchPred) (pc : Word)
    (isBranch isValid : Fin 4 → Bool) (i : Fin 4) (state : Prediction) :
    Flow Prediction :=
  let counter :=
    tables.pht (tables.bht (bhtEntry pc + BitVec.ofNat 7 i.val))
  if (counter.getLsbD 1 && isBranch i && isValid i) = true then
    match hitWay tables pc i with
    | some j =>
        .stop
          { nextPc := (tables.btb (btbEntry pc + BitVec.ofNat 5 i.val) j).target
            branch := true
            predictions := Function.update state.predictions i true }
    | none => if state.branch then .stop state else .step state
  else .step state

/-- The outputs of `branch_pred`, and the values its registers take. -/
structure Outputs where
  next : BranchPred
  mispredict : Bool
  nextPc : Word
  predictions : Fin 4 → Bool

def comb (tables : BranchPred) (pc : Word) (isBranch isValid : Fin 4 → Bool)
    (uopRetire : Fin 6 → MicroOp) : Outputs :=
  let trained := train tables pc uopRetire
  let start : Prediction :=
    { nextPc := trained.nextPc, branch := false
      predictions := fun _ => false }
  let predicted :=
    if trained.mispredict then start
    else forLoop 4 (predictLane trained.tables pc isBranch isValid) start
  { next := trained.tables
    mispredict := trained.mispredict
    nextPc := predicted.nextPc
    predictions := predicted.predictions }

def next (tables : BranchPred) (reset : Bool) (pc : Word)
    (isBranch isValid : Fin 4 → Bool) (uopRetire : Fin 6 → MicroOp) :
    BranchPred :=
  if reset then resetState
  else (tables.comb pc isBranch isValid uopRetire).next

end BranchPred

end Ria
