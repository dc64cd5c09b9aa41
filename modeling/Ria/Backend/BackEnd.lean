import Ria.Backend.Dispatch
import Ria.Backend.ExecutionUnit
import Ria.Backend.IssueQueueInt
import Ria.Backend.ScoreboardInt
import Mathlib.Data.Fin.VecNotation

/-!
# The back end

The registers of `core` from dispatch to write-back.  The four ways of the
register file are the three integer pipes and the memory pipe, in that order.
-/

namespace Ria

open Hdl

/-- What the back end sees of the rest of `core` in a cycle. -/
structure BackEndInput where
  reset : Bool
  clear : Bool
  dpUopsIn : Fin 4 → MicroOp
  dcacheData : BitVec 64
  dcacheDataValid : Bool

/-- Ways 0 to 2 of the `ex` fields are `ex_int_*`, way 3 is `ex_mem_*`. -/
structure BackEnd where
  dpIs : DpIs
  iqFullReg : Bool
  sbInt : ScoreboardInt
  iqInt : IssueQueueInt
  iqMem : IssueQueueMem
  rfIntUopIn : Fin 4 → MicroOp
  rfInt : PrfIntData
  exUopIn : Fin 4 → MicroOp
  exRs1DataIn : Fin 4 → Word
  exRs2DataIn : Fin 4 → Word
  pipe0 : Pipe01
  pipe1 : Pipe01
  pipe2 : Pipe2
  pipe3 : Pipe3

namespace BackEnd

/-- Every register at 0. -/
def zeros : BackEnd :=
  { dpIs := .resetState, iqFullReg := false, sbInt := fun _ => false
    iqInt := .resetState, iqMem := .resetState, rfIntUopIn := noUops
    rfInt := fun _ _ => 0, exUopIn := noUops, exRs1DataIn := fun _ => 0
    exRs2DataIn := fun _ => 0
    pipe0 := { aluOut := 0, brTaken := false, brOut := 0, uopOut := 0 }
    pipe1 := { aluOut := 0, brTaken := false, brOut := 0, uopOut := 0 }
    pipe2 :=
      { uopReg := 0
        imul :=
          { range := fun _ => false, signReg := fun _ => 0
            valid := fun _ => false
            intMult := { rA := 0, rB := 0, m := fun _ => 0 } }
        idiv :=
          { active := false, cycle := 0, result := 0, denom := 0, work := 0 } }
    pipe3 :=
      { isLd := false, isLdu := false, isSt := false, busyReg := false
        uopReg := 0, port := Pipe3.idlePort } }

section Signals

variable (backEnd : BackEnd) (input : BackEndInput)

/-- `ex_int_uop_out` and `ex_mem_uop_out`. -/
def exUopOut : Fin 4 → MicroOp :=
  ![backEnd.pipe0.uopOut, backEnd.pipe1.uopOut, backEnd.pipe2.uopOut,
    backEnd.pipe3.uopOut]

/-- `ex_int_rd_data_out` and `ex_mem_rd_data_out`. -/
def exRdDataOut : Fin 4 → Word :=
  ![backEnd.pipe0.out, backEnd.pipe1.out, backEnd.pipe2.out,
    backEnd.pipe3.out input.dcacheData input.dcacheDataValid]

/-- The write-back ports. -/
def rdPorts : RdPorts :=
  { rdIndex := fun i => (backEnd.exUopOut i).rdPrfIntIndex
    rdData := backEnd.exRdDataOut input
    rdEn := fun i => (backEnd.exUopOut i).rdValid }

def wbUops : Fin 6 → MicroOp :=
  fun i => if way : i.val < 4 then backEnd.exUopOut ⟨i.val, way⟩ else 0

/-- `load_en` of both queues. -/
def loadEn : Bool := !backEnd.iqFullReg

def intBusy : BusyPorts 32 :=
  { rs1Busy := fun k => backEnd.sbInt.busy (backEnd.rdPorts input)
      (backEnd.iqInt.rs1Index backEnd.dpIs.out.1 backEnd.loadEn k)
    rs2Busy := fun k => backEnd.sbInt.busy (backEnd.rdPorts input)
      (backEnd.iqInt.rs2Index backEnd.dpIs.out.1 backEnd.loadEn k) }

def memBusy : BusyPorts 16 :=
  { rs1Busy := fun k => backEnd.sbInt.busy (backEnd.rdPorts input)
      (backEnd.iqMem.slots k).rs1Index
    rs2Busy := fun k => backEnd.sbInt.busy (backEnd.rdPorts input)
      (backEnd.iqMem.slots k).rs2Index }

def iqFull : Bool :=
  backEnd.iqMem.iqMemFull (backEnd.memBusy input) backEnd.dpIs.out.2 ||
    backEnd.iqInt.iqIntFull backEnd.dpIs.out.1 (backEnd.intBusy input)

/-- `is_int_uop_out` and `is_mem_uop_out`. -/
def isUopOut : Fin 4 → MicroOp :=
  ![backEnd.iqInt.uopOut (backEnd.intBusy input) 0,
    backEnd.iqInt.uopOut (backEnd.intBusy input) 1,
    backEnd.iqInt.uopOut (backEnd.intBusy input) 2,
    backEnd.iqMem.uopOut (backEnd.memBusy input)]

def rfRs1DataOut : Fin 4 → Word :=
  fun i => prfIntRs1Data backEnd.rfInt (backEnd.rdPorts input) i
    (backEnd.rfIntUopIn i)

def rfRs2DataOut : Fin 4 → Word :=
  fun i => prfIntRs2Data backEnd.rfInt (backEnd.rdPorts input) i
    (backEnd.rfIntUopIn i)

/-- The registers after a cycle. -/
def next : BackEnd :=
  let flush := input.reset || input.clear
  { dpIs := backEnd.dpIs.next input.reset input.clear (backEnd.iqFull input)
      input.dpUopsIn
    iqFullReg := if input.reset then false else backEnd.iqFull input
    sbInt := backEnd.sbInt.next input.reset input.clear input.dpUopsIn
      (backEnd.rdPorts input)
    iqInt := backEnd.iqInt.next backEnd.dpIs.out.1 backEnd.loadEn
      (backEnd.intBusy input) input.reset input.clear
    iqMem := backEnd.iqMem.next (backEnd.memBusy input) backEnd.dpIs.out.2
      input.reset input.clear backEnd.loadEn
    rfIntUopIn := if flush then noUops else backEnd.isUopOut input
    rfInt := backEnd.rfInt.next input.reset (backEnd.rdPorts input)
    exUopIn := if flush then noUops else backEnd.rfIntUopIn
    exRs1DataIn := if flush then fun _ => 0 else backEnd.rfRs1DataOut input
    exRs2DataIn := if flush then fun _ => 0 else backEnd.rfRs2DataOut input
    pipe0 := Pipe01.next input.reset input.clear (backEnd.exUopIn 0)
      (backEnd.exRs1DataIn 0) (backEnd.exRs2DataIn 0)
    pipe1 := Pipe01.next input.reset input.clear (backEnd.exUopIn 1)
      (backEnd.exRs1DataIn 1) (backEnd.exRs2DataIn 1)
    pipe2 := backEnd.pipe2.next input.reset input.clear (backEnd.exUopIn 2)
      (backEnd.exRs1DataIn 2) (backEnd.exRs2DataIn 2)
    pipe3 := backEnd.pipe3.next input.reset input.clear (backEnd.exUopIn 3)
      (backEnd.exRs1DataIn 3) (backEnd.exRs2DataIn 3) input.dcacheDataValid }

end Signals

end BackEnd

end Ria
