import Ria.Backend.ControlTransfer
import Ria.Core.Program
import Ria.Library.Rv32iHart
import Ria.Sim.MemoryInstructions

/-!
# Programs of RV32I instructions

A program that encodes RV32I instructions runs on the core as on a hart, as
long as the data cache answers every load with what the stores before it
leave in memory, and no instruction meets one of the two cases in which the
datapath departs from the ISA.
-/

namespace Ria

open Hdl ByteMemory Rv32i

/-! ## A register file with the registers of the hart -/

def architectural (registers : Reg → Word) : PrfIntData :=
  fun _ prf => registers (prf.setWidth 5)

def idlePorts : RdPorts :=
  { rdIndex := fun _ => 0, rdData := fun _ => 0, rdEn := fun _ => false }

def sourcePrf (source : Option Reg) : PrfIndex := (source.getD 0).setWidth 6

/-- The pc and the registers of a hart -/
def programState (hart : Hart) : ProgramState :=
  { pc := hart.pc, registers := hart.registers }

section Operands

variable {hart : Hart} {uop : MicroOp} {rs1 rs2 : Option Reg}

theorem architectural_read (hart : Hart) (source : Option Reg) :
    (architectural hart.registers).read idlePorts 0 (sourcePrf source) =
      hart.operand source := by
  have idle : (architectural hart.registers).read idlePorts 0
      (sourcePrf source) = if sourcePrf source ≠ 0 then
        architectural hart.registers 0 (sourcePrf source) else 0 :=
    forEach_idle _ fun _ _ => if_neg fun writes => by cases writes.1
  rw [idle]
  cases source with
  | none => rfl
  | some reg =>
      have low : (sourcePrf (some reg)).setWidth 5 = reg :=
        (BitVec.setWidth_setWidth_of_le reg (by decide)).trans
          (BitVec.setWidth_eq reg)
      by_cases zero : reg = 0
      · subst zero
        rfl
      · have nonzero : sourcePrf (some reg) ≠ 0 := by
          intro none
          apply zero
          rw [← low, none]
          rfl
        rw [if_pos nonzero, architectural, low]
        exact (if_neg zero).symm

/-- The registers that a uop reads -/
structure Operands (uop : MicroOp) (rs1 rs2 : Option Reg) : Prop where
  rs1 : uop.rs1Source = .fromRf → rs1 = some uop.rs1ArfIntIndex
  rs2 : uop.rs2Source = .fromRf → rs2 = some uop.rs2ArfIntIndex

theorem select_operand {source : RsSource} {arf : ArfIndex}
    {origin : Option Reg} (reads : source = .fromRf → origin = some arf) :
    prfIntSelect source ((architectural hart.registers).read idlePorts 0
        (prfIntIndex source (sourcePrf origin))) uop.imm uop.pc uop.npc =
      uop.operand source arf hart.registers := by
  cases source with
  | fromRf =>
      rw [reads rfl]
      exact architectural_read hart (some arf)
  | _ => rfl

/-- The uop of an instruction, renamed to read the registers of the hart -/
def MicroOp.placed (uop : MicroOp) (rs1 rs2 : Option Reg) : MicroOp :=
  uop.renameSources (sourcePrf rs1) (sourcePrf rs2)

theorem Operands.rs1Data (operands : Operands uop rs1 rs2) :
    prfIntRs1Data (architectural hart.registers) idlePorts 0
      (uop.placed rs1 rs2) = uop.operand1 hart.registers :=
  select_operand operands.rs1

theorem Operands.rs2Data (operands : Operands uop rs1 rs2) :
    prfIntRs2Data (architectural hart.registers) idlePorts 0
      (uop.placed rs1 rs2) = uop.operand2 hart.registers :=
  select_operand operands.rs2

/-- What the pipe shows of the uop is what the uop does. -/
theorem Operands.effect (operands : Operands uop rs1 rs2)
    (kind : uop.fuCode = .alu ∨ uop.fuCode = .br) (answer : BitVec 64) :
    let pipe := Pipe01.execute (architectural hart.registers) idlePorts 0
      (uop.placed rs1 rs2)
    { data := pipe.out, outcome := pipe.uopOut.outcome, access := none } =
      uop.perform answer hart.registers := by
  have placed : (uop.placed rs1 rs2).fuCode = .alu ∨
      (uop.placed rs1 rs2).fuCode = .br := kind
  have effect := Pipe01.effect_next placed answer hart.registers
  have first : (uop.placed rs1 rs2).operand1 hart.registers =
      uop.operand1 hart.registers := rfl
  have second : (uop.placed rs1 rs2).operand2 hart.registers =
      uop.operand2 hart.registers := rfl
  rw [first, second, ← operands.rs1Data, ← operands.rs2Data] at effect
  exact effect

end Operands

/-! ## One instruction -/

section Instructions

variable {hart : Hart} (answer : BitVec 64)

/-- The bundle entry at the pc -/
def entryAt (hart : Hart) : FbEntry := { (0 : FbEntry) with pc := hart.pc }

theorem execute_registers {uop : MicroOp} {rd : Reg} {value : Word}
    (valid : uop.rdValid = (rd != 0)) (index : uop.rdArfIntIndex = rd)
    (data : (uop.perform answer hart.registers).data = value) :
    ((programState hart).execute uop answer).registers =
      hart.write rd value := by
  by_cases zero : rd = 0
  · have target : uop.target = none := by
      rw [MicroOp.target, valid, zero]
      rfl
    rw [ProgramState.execute, target, Hart.write, if_pos zero]
    rfl
  · have target : uop.target = some rd := by
      rw [MicroOp.target, valid, index, if_pos (bne_iff_ne.mpr zero)]
    rw [ProgramState.execute, target, Hart.write, if_neg zero, ← data]
    rfl

theorem execute_kept {uop : MicroOp} (target : uop.target = none) :
    ((programState hart).execute uop answer).registers = hart.registers := by
  rw [ProgramState.execute, target]
  rfl

theorem int_unit (entry : FbEntry) (instr : IntInstr) :
    (decodedInt entry instr).fuCode = .alu := by
  rw [decodedInt, MicroOp.dropZeroRd_eq]
  cases instr <;> rfl

theorem control_unit (entry : FbEntry) (instr : ControlInstr) :
    (decodedControl entry instr).fuCode = .br := by
  rw [decodedControl, MicroOp.dropZeroRd_eq]
  cases instr <;> rfl

theorem int_operands (entry : FbEntry) (instr : IntInstr) :
    Operands (decodedInt entry instr) instr.rs1 instr.rs2 := by
  rw [decodedInt, MicroOp.dropZeroRd_eq]
  constructor
  · intro source
    cases instr with
    | lui rd imm => cases source
    | auipc rd imm => cases source
    | _ => exact congrArg some (rv32RS1_int rfl).symm
  · intro source
    cases instr with
    | op kind rd rs1 rs2 => exact congrArg some (rv32RS2_int rfl).symm
    | _ => cases source

theorem int_destination (entry : FbEntry) (instr : IntInstr) :
    (decodedInt entry instr).rdArfIntIndex = instr.rd ∧
      (decodedInt entry instr).rdValid = (instr.rd != 0) := by
  rw [decodedInt, MicroOp.dropZeroRd_eq, ← rv32RD_int]
  cases instr <;> exact ⟨rfl, rfl⟩

/-- The uop of an integer instruction writes what the ISA says. -/
theorem perform_int (instr : IntInstr)
    (regular : instr.setsLess (hart.operand instr.rs1)
      (hart.operand instr.rs2) = false) :
    ((decodedInt (entryAt hart) instr).perform answer hart.registers).data =
      instr.value hart.pc (hart.operand instr.rs1)
        (hart.operand instr.rs2) := by
  have decoded : (decodedInt (entryAt hart) instr).placed instr.rs1 instr.rs2 =
      renamedInt (entryAt hart) instr (sourcePrf instr.rs1)
        (sourcePrf instr.rs2) := by
    rw [renamedInt, decode_int]
    rfl
  have unit := int_unit (entryAt hart) instr
  have value := (value_iff (entryAt hart) instr (sourcePrf instr.rs1)
    (sourcePrf instr.rs2) (architectural hart.registers) idlePorts 0).mpr
  rw [architectural_read, architectural_read] at value
  rw [← (int_operands (entryAt hart) instr).effect (.inl unit) answer, decoded]
  exact value regular

theorem runs_int (instr : IntInstr)
    (regular : instr.setsLess (hart.operand instr.rs1)
      (hart.operand instr.rs2) = false) :
    (programState hart).execute (decodedInt (entryAt hart) instr) answer =
      programState (hart.execute (.int instr)) := by
  have plain : (decodedInt (entryAt hart) instr).brType = .x := by
    rw [decodedInt, MicroOp.dropZeroRd_eq]
    cases instr <;> rfl
  rcases int_destination (entryAt hart) instr with ⟨index, valid⟩
  exact congrArg₂ ProgramState.mk (if_pos plain)
    (execute_registers answer valid index (perform_int answer instr regular))

theorem control_operands (entry : FbEntry) (instr : ControlInstr) :
    Operands (decodedControl entry instr) instr.rs1 instr.rs2 := by
  rw [decodedControl, MicroOp.dropZeroRd_eq]
  constructor
  · intro source
    cases instr with
    | jal rd offset => cases source
    | jalr rd rs1 imm =>
        have field : rv32RS1 (ControlInstr.jalr rd rs1 imm).encode = rs1 :=
          (fields_iType 0b1100111 0b000 rs1 rd imm).2.2.2
        exact congrArg some field.symm
    | branch kind rs1 rs2 offset =>
        have field : rv32RS1 (ControlInstr.branch kind rs1 rs2 offset).encode =
            rs1 := (fields_bType 0b1100011 kind.funct3 rs1 rs2 offset).2.2.1
        exact congrArg some field.symm
  · intro source
    cases instr with
    | jal rd offset => cases source
    | jalr rd rs1 imm => cases source
    | branch kind rs1 rs2 offset =>
        have field : rv32RS2 (ControlInstr.branch kind rs1 rs2 offset).encode =
            rs2 := (fields_bType 0b1100011 kind.funct3 rs1 rs2 offset).2.2.2
        exact congrArg some field.symm

theorem control_destination (entry : FbEntry) {instr : ControlInstr}
    {rd : Reg} (links : instr.rd = some rd) :
    (decodedControl entry instr).rdArfIntIndex = rd ∧
      (decodedControl entry instr).rdValid = (rd != 0) := by
  rw [decodedControl, MicroOp.dropZeroRd_eq, ← rv32RD_control links]
  cases instr with
  | branch kind rs1 rs2 offset => cases links
  | _ => exact ⟨rfl, rfl⟩

theorem placed_control (instr : ControlInstr) :
    (decodedControl (entryAt hart) instr).placed instr.rs1 instr.rs2 =
      renamedControl (entryAt hart) instr (sourcePrf instr.rs1)
        (sourcePrf instr.rs2) := by
  rw [renamedControl, decode_control]
  rfl

/-- A control transfer leads where the ISA says. -/
theorem address_control (instr : ControlInstr)
    (even : instr.dropsBit (hart.operand instr.rs1) = false) :
    branchAddr (decodedControl (entryAt hart) instr)
        ((decodedControl (entryAt hart) instr).operand1 hart.registers)
        ((decodedControl (entryAt hart) instr).operand2 hart.registers) =
      instr.nextPc hart.pc (hart.operand instr.rs1)
        (hart.operand instr.rs2) := by
  have operands := control_operands (entryAt hart) instr
  have address := (address_iff (entryAt hart) instr (sourcePrf instr.rs1)
    (sourcePrf instr.rs2) (architectural hart.registers) idlePorts 0).mpr
  have unit := renamedControl_fuCode (entryAt hart) instr
    (sourcePrf instr.rs1) (sourcePrf instr.rs2)
  rw [architectural_read, architectural_read,
    execute_uopOut_br (architectural hart.registers) idlePorts 0 unit,
    ← placed_control, operands.rs1Data, operands.rs2Data] at address
  exact address even

theorem link_control (instr : ControlInstr) {rd : Reg}
    (links : instr.rd = some rd) :
    ((decodedControl (entryAt hart) instr).perform answer
        hart.registers).data = hart.pc + 4 := by
  have operands := control_operands (entryAt hart) instr
  have unit := control_unit (entryAt hart) instr
  have link := (link_correct (entryAt hart) instr (sourcePrf instr.rs1)
    (sourcePrf instr.rs2) (architectural hart.registers) idlePorts 0 rd
    links).1
  rw [← operands.effect (.inr unit) answer, placed_control]
  exact link

theorem runs_control (instr : ControlInstr)
    (even : instr.dropsBit (hart.operand instr.rs1) = false) :
    (programState hart).execute (decodedControl (entryAt hart) instr)
        answer =
      programState (hart.execute (.control instr)) := by
  have branch : (decodedControl (entryAt hart) instr).brType ≠ .x := by
    rw [decodedControl, MicroOp.dropZeroRd_eq]
    intro plain
    cases instr with
    | branch kind => cases kind <;> cases plain
    | _ => cases plain
  have pc : ((programState hart).execute
      (decodedControl (entryAt hart) instr) answer).pc =
        (hart.execute (.control instr)).pc :=
    (if_neg branch).trans (address_control instr even)
  refine congrArg₂ ProgramState.mk pc ?_
  change ((programState hart).execute (decodedControl (entryAt hart) instr)
    answer).registers = hart.link instr.rd
  cases links : instr.rd with
  | none =>
      apply execute_kept
      rw [decodedControl, MicroOp.dropZeroRd_eq]
      cases instr with
      | branch kind rs1 rs2 offset => rfl
      | _ => cases links
  | some rd =>
      rcases control_destination (entryAt hart) links with ⟨index, valid⟩
      exact execute_registers answer valid index
        (link_control answer instr links)

theorem runs_load (instr : LoadInstr)
    (answered : answer = windowData (StoreBuffer.window hart.memory
      (hart.address instr.rs1 instr.imm))) :
    (programState hart).execute (decodedLoad (entryAt hart) instr) answer =
      programState (hart.execute (.load instr)) := by
  have load : (decodedLoad (entryAt hart) instr).memType ≠ .st := by
    change loadMemType instr.kind ≠ .st
    intro store
    cases kind : instr.kind <;> rw [kind] at store <;> cases store
  have data : ((decodedLoad (entryAt hart) instr).perform answer
      hart.registers).data =
        instr.kind.value hart.memory (hart.address instr.rs1 instr.imm) := by
    have taken := holding_out (decodedLoad (entryAt hart) instr) 0 0
      instr.kind rfl rfl hart.memory (hart.address instr.rs1 instr.imm)
    rw [Pipe3.holding_loads load, ← answered] at taken
    exact (if_neg load).trans taken
  exact congrArg₂ ProgramState.mk (if_pos rfl)
    (execute_registers answer rfl rfl data)

theorem runs_store (instr : StoreInstr) :
    (programState hart).execute (decodedStore (entryAt hart) instr) answer =
      programState (hart.execute (.store instr)) :=
  congrArg₂ ProgramState.mk (if_pos rfl) rfl

/-- What decode makes of an instruction -/
def decodedInstr (entry : FbEntry) : Instr → MicroOp
  | .int instr => decodedInt entry instr
  | .control instr => decodedControl entry instr
  | .load instr => decodedLoad entry instr
  | .store instr => decodedStore entry instr

theorem decode_instr (entry : FbEntry) (instr : Instr) :
    decode (entry.withInst instr.encode) true = decodedInstr entry instr := by
  cases instr with
  | int instr => exact decode_int entry instr
  | control instr => exact decode_control entry instr
  | load instr => exact decode_load entry instr
  | store instr => exact decode_store entry instr

/-- Neither a set-less-than whose comparison holds nor a JALR with an odd
sum -/
def Regular (hart : Hart) : Instr → Prop
  | .int instr =>
      instr.setsLess (hart.operand instr.rs1) (hart.operand instr.rs2) = false
  | .control instr => instr.dropsBit (hart.operand instr.rs1) = false
  | .load _ => True
  | .store _ => True

instance (hart : Hart) (instr : Instr) : Decidable (Regular hart instr) :=
  match instr with
  | .int instr =>
      inferInstanceAs (Decidable (instr.setsLess (hart.operand instr.rs1)
        (hart.operand instr.rs2) = false))
  | .control instr =>
      inferInstanceAs (Decidable
        (instr.dropsBit (hart.operand instr.rs1) = false))
  | .load _ => .isTrue trivial
  | .store _ => .isTrue trivial

/-- A load is answered with the bytes from its address on. -/
def Answered (hart : Hart) (answer : BitVec 64) : Instr → Prop
  | .load instr =>
      answer = windowData (StoreBuffer.window hart.memory
        (hart.address instr.rs1 instr.imm))
  | _ => True

instance (hart : Hart) (answer : BitVec 64) (instr : Instr) :
    Decidable (Answered hart answer instr) :=
  match instr with
  | .load instr =>
      inferInstanceAs (Decidable (answer = windowData
        (StoreBuffer.window hart.memory (hart.address instr.rs1 instr.imm))))
  | .int _ => .isTrue trivial
  | .control _ => .isTrue trivial
  | .store _ => .isTrue trivial

/-- The request to the data cache is that of the instruction. -/
def Requests (hart : Hart) (effect : Effect) : Instr → Prop
  | .load instr => ∃ port, effect.access = some port ∧
      port.dataWe = false ∧ port.addr = hart.address instr.rs1 instr.imm
  | .store instr => ∃ port, effect.access = some port ∧
      port.dataWe = true ∧ ∀ memory, port.request.write memory =
        instr.kind.apply memory (hart.address instr.rs1 instr.imm)
          (hart.read instr.rs2)
  | _ => effect.access = none

theorem runs_instr (instr : Instr) (regular : Regular hart instr)
    (answered : Answered hart answer instr) :
    (programState hart).execute (decodedInstr (entryAt hart) instr) answer =
      programState (hart.execute instr) := by
  cases instr with
  | int instr => exact runs_int answer instr regular
  | control instr => exact runs_control answer instr regular
  | load instr => exact runs_load answer instr answered
  | store instr => exact runs_store answer instr

theorem requests_instr (instr : Instr) :
    Requests hart ((decodedInstr (entryAt hart) instr).perform answer
      hart.registers) instr := by
  cases instr with
  | int instr =>
      change Effect.access (MicroOp.perform (decodedInt _ _) _ _) = none
      rw [MicroOp.perform, int_unit]
  | control instr =>
      change Effect.access (MicroOp.perform (decodedControl _ _) _ _) = none
      rw [MicroOp.perform, control_unit]
  | load instr =>
      refine ⟨_, rfl, ?_, rfl⟩
      change (loadMemType instr.kind == .st) = false
      cases instr.kind <;> rfl
  | store instr =>
      refine ⟨_, rfl, rfl, fun memory => ?_⟩
      rw [StoreOp.apply, ← take_dataBytes]
      rfl

end Instructions

/-! ## Runs -/

def encoded (code : Word → Instr) (pc : Word) : Word := (code pc).encode

def resetHart (memory : Memory 32) : Hart :=
  { pc := 0x1000, registers := fun _ => 0, memory := memory }

namespace ExecutionSystem

variable {code : Word → Instr} {memory : Memory 32}
  {system : ExecutionSystem}

/-- The hart before the instruction with the given number -/
def hartAt (code : Word → Instr) (memory : Memory 32) : Nat → Hart :=
  Hart.after code (resetHart memory)

theorem decodeAt_encoded (hart : Hart) :
    decodeAt (encoded code) hart.pc =
      decodedInstr (entryAt hart) (code hart.pc) :=
  decode_instr (entryAt hart) (code hart.pc)

theorem next_encoded {hart : Hart} {answer : BitVec 64}
    (regular : Regular hart (code hart.pc))
    (answered : Answered hart answer (code hart.pc)) :
    (programState hart).next (encoded code) answer =
      programState (hart.step code) := by
  have executed := runs_instr answer (code hart.pc) regular answered
  rw [← decodeAt_encoded] at executed
  exact executed

/-- The instructions that retired meet neither departure from the ISA, and
their loads find the memory of the hart. -/
structure Conforms (code : Word → Instr) (memory : Memory 32)
    (system : ExecutionSystem) : Prop where
  regular : ∀ number < system.history.retired.length,
    Regular (hartAt code memory number) (code (hartAt code memory number).pc)
  answered : ∀ number < system.history.retired.length,
    Answered (hartAt code memory number) (system.answer number)
      (code (hartAt code memory number).pc)

theorem Conforms.machine_eq (conforms : Conforms code memory system)
    (number : Nat) (inside : number ≤ system.history.retired.length) :
    system.machine (encoded code) number =
      programState (hartAt code memory number) := by
  induction number with
  | zero => rfl
  | succ number induction =>
      have reached := induction (Nat.le_of_succ_le inside)
      have stepped := next_encoded (conforms.regular number inside)
        (conforms.answered number inside)
      rw [← reached] at stepped
      exact stepped

/-- The core retires the instructions of the hart with their requests, and
its committed registers are those of the hart. -/
theorem core_implements_rv32i
    (run : Run Start next (Fetches (encoded code)) system)
    (conforms : Conforms code memory system) :
    (∀ number uop, system.history.retired[number]? = some uop →
      uop.pc = (hartAt code memory number).pc ∧
      ∃ performed, system.performed number = some performed ∧
        Requests (hartAt code memory number) performed.effect
          (code uop.pc)) ∧
      ∀ way arf, system.history.core.backEnd.rfInt way
          (system.history.core.frontEnd.rr.rRat arf) =
        (hartAt code memory system.history.committed.length).registers arf := by
  have executing := executing_of_run (orderly_run run)
  have following := HistorySystem.following_of_run
    (history_run (orderly_run run))
  have onPath := onPath_of_run run
  refine ⟨fun number uop found => ?_, fun way arf => ?_⟩
  · have inside := (List.getElem?_eq_some_iff.mp found).1
    have meets := meets_of_run run number inside.le
    have machine := conforms.machine_eq number inside.le
    have pc : uop.pc = (hartAt code memory number).pc :=
      (meets.pc uop found).trans (congrArg ProgramState.pc machine)
    have perform := (genuine_of_retired onPath following found).agree
      MicroOp.perform (fun _ => rfl) fun _ => rfl
    rcases executing.retired_performed following found with
      ⟨performed, known, -, effect⟩
    refine ⟨pc, performed, known, ?_⟩
    rw [effect, perform, meets.registers, machine, pc, decodeAt_encoded]
    exact requests_instr performed.answer _
  · have inside := system.history.committed_le
    have meets := meets_of_run run _ inside
    rw [executing.committed_eq following, meets.registers,
      conforms.machine_eq _ inside]
    rfl

def jumpCode (pc : Word) : Instr :=
  if pc = 0x1000 then .int (.opImm .addi 1 0 5)
  else if pc = 0x1004 then .load { kind := .lw, rd := 2, rs1 := 1, imm := 4 }
  else if pc = 0x1008 then .int (.op .add 3 2 1)
  else if pc = 0x100c then .control (.jal 0 4)
  else if pc = 0x1014 then .int (.opImm .addi 4 3 1)
  else .int (.opImm .addi 0 0 0)

example : encoded jumpCode = loadProgram := by
  funext pc
  simp only [encoded, jumpCode, loadProgram, apply_ite Instr.encode]
  rfl

def jumpMemory : Memory 32 := fun address => if address = 9 then 40 else 0

theorem core_implements_rv32i_jump :
    (∃ performed, (jumps.foldl next afterReset).performed 1 =
        some performed ∧
      ∃ port, performed.effect.access = some port ∧ port.dataWe = false ∧
        port.addr = 9) ∧
      ∀ way, (jumps.foldl next afterReset).history.core.backEnd.rfInt way
        ((jumps.foldl next afterReset).history.core.frontEnd.rr.rRat 4) =
          46 := by
  have reset : Run Start next (Fetches (encoded jumpCode)) afterReset :=
    .start ⟨⟨⟨_, _, rfl, rfl⟩, rfl, rfl⟩, rfl⟩
  have run := reset.through
    (by decide +kernel :
      Permitted next (Fetches (encoded jumpCode)) afterReset jumps)
  have computed : (jumps.foldl next afterReset).history.committed.length = 6 ∧
      (∀ number < (jumps.foldl next afterReset).history.retired.length,
        Regular (hartAt jumpCode jumpMemory number)
          (jumpCode (hartAt jumpCode jumpMemory number).pc)) ∧
      ∀ number < (jumps.foldl next afterReset).history.retired.length,
        Answered (hartAt jumpCode jumpMemory number)
          ((jumps.foldl next afterReset).answer number)
          (jumpCode (hartAt jumpCode jumpMemory number).pc) := by
    decide +kernel
  rcases computed with ⟨six, regular, answered⟩
  rcases core_implements_rv32i run ⟨regular, answered⟩ with ⟨each, registers⟩
  have inside : 1 < (jumps.foldl next afterReset).history.retired.length :=
    Nat.lt_of_lt_of_le (by rw [six]; decide)
      (jumps.foldl next afterReset).history.committed_le
  rcases each 1 _ (List.getElem?_eq_getElem inside) with ⟨pc, loads⟩
  have second : (hartAt jumpCode jumpMemory 1).pc = 0x1004 := rfl
  rw [pc, second] at loads
  rw [six] at registers
  exact ⟨loads, fun way => registers way 4⟩

end ExecutionSystem

end Ria
