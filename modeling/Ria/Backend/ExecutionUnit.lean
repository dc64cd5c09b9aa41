import Ria.Backend.FunctionUnit

/-!
# Execution pipes

Pipes 0 and 1 hold an ALU and a branch unit, pipe 2 the multiplier and the
divider, and pipe 3 is the two-state load/store machine.  Every pipe shows
its uop on `uopOut` in the cycle its result is written back.
-/

namespace Ria

/-- The registers of `pipe_0_1` and of its two function units. -/
structure Pipe01 where
  aluOut : Word
  brTaken : Bool
  brOut : Word
  uopOut : MicroOp

namespace Pipe01

/-- `uop_next` -/
def uopNext (uop : MicroOp) (in1 in2 : Word) : MicroOp :=
  if uop.fuCode = .br then branchUop uop in1 in2 else uop

def next (reset clear : Bool) (uop : MicroOp) (in1 in2 : Word) : Pipe01 :=
  { aluOut := if reset then 0 else aluResult uop in1 in2
    brTaken := if reset then false else branchResult uop in1 in2
    brOut := if reset then 0 else branchOut uop
    uopOut := if reset || clear then 0 else uopNext uop in1 in2 }

def out (pipe : Pipe01) : Word :=
  (mask32 (pipe.uopOut.fuCode == .alu) &&& pipe.aluOut) |||
    (mask32 (pipe.uopOut.fuCode == .br) &&& pipe.brOut)

end Pipe01

/-- The registers of `pipe_2` and of its two function units. -/
structure Pipe2 where
  uopReg : MicroOp
  imul : Imul
  idiv : Divider

namespace Pipe2

def busy (pipe : Pipe2) : Bool := pipe.imul.busy || !pipe.idiv.ok

def uopOut (pipe : Pipe2) : MicroOp := if pipe.busy then 0 else pipe.uopReg

def out (pipe : Pipe2) : Word :=
  (mask32 (pipe.uopOut.fuCode == .imul) &&& pipe.imul.out) |||
    (mask32 (pipe.uopOut.fuCode == .idiv) &&& pipe.idiv.result)

def next (pipe : Pipe2) (reset clear : Bool) (uop : MicroOp)
    (in1 in2 : Word) : Pipe2 :=
  { uopReg :=
      if reset || clear then 0
      else if !pipe.busy && uop.valid then uop
      else pipe.uopReg
    imul := pipe.imul.next reset uop in1 in2
    idiv := pipe.idiv.next reset (uop.valid && uop.fuCode == .idiv) in1 in2 }

end Pipe2

/-- The data port of the core, registered in `pipe_3`. -/
structure DcachePort where
  addr : Word
  data : BitVec 64
  dataWe : Bool
  dataSize : MemSize

/-- The registers of `pipe_3`. -/
structure Pipe3 where
  isLd : Bool
  isLdu : Bool
  isSt : Bool
  busyReg : Bool
  uopReg : MicroOp
  port : DcachePort

namespace Pipe3

def idlePort : DcachePort :=
  { addr := 0, data := 0, dataWe := false, dataSize := .byte }

def inputValid (uop : MicroOp) : Bool := uop.valid && uop.fuCode == .mem

def complete (pipe : Pipe3) (dataValid : Bool) : Bool :=
  ((pipe.isLd || pipe.isLdu) && dataValid) || pipe.isSt

/-- The sign-extending `case` of `data_out`. -/
def extendSigned (size : MemSize) (data : BitVec 64) : BitVec 64 :=
  match size with
  | .byte => (data.extractLsb' 0 8).signExtend 64
  | .half => (data.extractLsb' 0 16).signExtend 64
  | .word => (data.extractLsb' 0 32).signExtend 64
  | .dword => data

/-- The zero-extending `case` of `data_out`. -/
def extendUnsigned (size : MemSize) (data : BitVec 64) : BitVec 64 :=
  match size with
  | .byte => (data.extractLsb' 0 8).setWidth 64
  | .half => (data.extractLsb' 0 16).setWidth 64
  | .word => (data.extractLsb' 0 32).setWidth 64
  | .dword => data

def dataOut (pipe : Pipe3) (data : BitVec 64) (dataValid : Bool) :
    BitVec 64 :=
  if pipe.busyReg && dataValid then
    let signed := if pipe.isLd then
      extendSigned pipe.uopReg.memSize data else 0
    if pipe.isLdu then extendUnsigned pipe.uopReg.memSize data else signed
  else 0

def out (pipe : Pipe3) (data : BitVec 64) (dataValid : Bool) : Word :=
  (pipe.dataOut data dataValid).extractLsb' 0 32

def uopOut (pipe : Pipe3) : MicroOp := pipe.uopReg

def busy (pipe : Pipe3) : Bool := pipe.busyReg

def next (pipe : Pipe3) (reset clear : Bool) (uop : MicroOp)
    (in1 in2 : Word) (dataValid : Bool) : Pipe3 :=
  let accept := inputValid uop
  let complete := pipe.complete dataValid
  { isLd := if reset then false
      else if accept then uop.memType == .ld else pipe.isLd
    isLdu := if reset then false
      else if accept then uop.memType == .ldu else pipe.isLdu
    isSt := if reset then false
      else if accept then uop.memType == .st else pipe.isSt
    busyReg :=
      if reset || clear then false
      else if (!pipe.busyReg || (pipe.busyReg && complete)) && accept then true
      else if pipe.busyReg && complete && !accept then false
      else pipe.busyReg
    uopReg :=
      if reset || clear then 0
      else if (!pipe.busyReg || (pipe.busyReg && complete)) && accept then uop
      else if pipe.busyReg && complete && !accept then 0
      else pipe.uopReg
    port :=
      if reset || clear then idlePort
      else if (!pipe.busyReg || (pipe.busyReg && complete)) && accept then
        { addr := in1 + uop.imm, data := in2.setWidth 64
          dataWe := uop.memType == .st, dataSize := uop.memSize }
      else if pipe.busyReg && complete && !accept then idlePort
      else pipe.port }

end Pipe3

end Ria
