import Ria.Core.InOrder
import Ria.Core.ProgramPath

/-!
# Programs

A program gives every address its word.  The machine of the program decodes
the word at its pc, executes it on its registers and goes on where it leads;
what its loads get is what the data cache answered.  The core retires the
instructions of this machine, with their effects.
-/

namespace Ria

open Hdl

/-! ## The word decides -/

/-- The uop without its prediction and its tag -/
def MicroOp.unpredicted (uop : MicroOp) : MicroOp :=
  { uop with predTaken := false, predAddr := 0, tag := 0 }

theorem decodeTable_unpredicted :
    ∀ item ∈ decodeTableInt ++ decodeTableFp, ∀ inst (uop : MicroOp),
      (item.2 inst uop).unpredicted = item.2 inst uop.unpredicted :=
  forall_decodeTable
    (fun branch => ∀ inst (uop : MicroOp),
      (branch inst uop).unpredicted = branch inst uop.unpredicted)
    (fun _ _ _ => rfl) (fun _ _ => rfl) (fun _ _ => rfl) (fun _ _ _ => rfl)
    (fun _ _ _ _ => rfl) (fun _ _ _ => rfl) (fun _ _ _ => rfl)
    (fun _ _ _ => rfl) (fun _ _ _ => rfl) (fun _ _ _ => rfl)
    (fun _ _ _ _ _ => rfl) (fun _ _ _ => rfl) (fun _ _ => rfl)

theorem decodeCasez_unpredicted (inst : Word) (uop : MicroOp) :
    (decodeCasez inst uop).unpredicted =
      decodeCasez inst uop.unpredicted := by
  unfold decodeCasez
  cases found : (decodeTableInt ++ decodeTableFp).find?
      (fun item => item.1 inst) with
  | none => rfl
  | some item =>
      exact decodeTable_unpredicted item (List.mem_of_find?_eq_some found)
        inst uop

/-- What follows the `casez` -/
def MicroOp.passed (uop : MicroOp) : MicroOp :=
  if uop.dropZeroRd.valid then uop.dropZeroRd else 0

theorem MicroOp.passed_unpredicted (uop : MicroOp) :
    uop.passed.unpredicted = uop.unpredicted.passed := by
  have drops : uop.unpredicted.dropZeroRd = uop.dropZeroRd.unpredicted := by
    rw [dropZeroRd_eq, dropZeroRd_eq]
    rfl
  rw [passed, passed, apply_ite MicroOp.unpredicted, drops]
  rfl

theorem decode_unpredicted (entry : FbEntry) (valid : Bool) :
    (decode entry valid).unpredicted =
      (decodeCasez entry.inst (decodeBase entry valid).unpredicted).passed := by
  rw [← decodeCasez_unpredicted, ← MicroOp.passed_unpredicted]
  rfl

/-- The instruction at an address of the program -/
def decodeAt (program : Word → Word) (pc : Word) : MicroOp :=
  decode { (0 : FbEntry) with pc := pc, inst := program pc } true

namespace Core.Genuine

variable {program : Word → Word} {uop : MicroOp}

/-- All but the prediction is that of the instruction at the address. -/
theorem agree (genuine : Genuine program uop.instruction) {α : Type}
    (key : MicroOp → α)
    (instruction : ∀ uop : MicroOp, key uop.instruction = key uop)
    (unpredicted : ∀ uop : MicroOp, key uop.unpredicted = key uop) :
    key uop = key (decodeAt program uop.pc) := by
  rcases genuine.decoded with ⟨entry, word, valid, same⟩
  have pc : uop.pc = entry.pc :=
    (congrArg MicroOp.pc same).trans (decode_fields valid).1
  have words : (decode entry true).unpredicted =
      (decodeAt program entry.pc).unpredicted := by
    have base : (decodeBase entry true).unpredicted =
        (decodeBase { (0 : FbEntry) with
          pc := entry.pc, inst := program entry.pc } true).unpredicted := by
      unfold decodeBase MicroOp.unpredicted
      rw [word]
    rw [decodeAt, decode_unpredicted, decode_unpredicted, base, word]
  rw [pc, ← instruction uop, same, instruction, ← unpredicted, words,
    unpredicted]

theorem unit (genuine : Genuine program uop.instruction)
    (branch : uop.brType ≠ .x) : uop.fuCode = .br := by
  rcases genuine.decoded with ⟨entry, -, -, same⟩
  have brType : uop.brType = (decode entry true).brType :=
    congrArg (fun uop => uop.brType) same
  have fuCode : uop.fuCode = (decode entry true).fuCode :=
    congrArg (fun uop => uop.fuCode) same
  rw [brType] at branch
  rw [fuCode]
  exact (decode_predicted entry true).unit branch

end Core.Genuine

/-! ## The machine -/

instance Core.decidableFetches (program : Word → Word) (core : Core)
    (input : CoreInput) : Decidable (core.Fetches program input) :=
  decidable_of_iff (core.Orderly input ∧
      (core.cmRecover = false →
        core.frontEnd.rrAllocatable (core.frontEndInput input) = true) ∧
      (core.cmRecover = true → input.icache2coreDataValid = true) ∧
      (input.icache2coreDataValid = true → ∀ lane,
        (core.ifInstsOut input lane).inst =
          program (core.ifInstsOut input lane).pc) ∧
      ∀ lane, (core.ifInstsOut input lane).valid = true →
        (decode (core.ifInstsOut input lane) true).valid = true)
    ⟨fun ⟨orderly, served, answered, words, decodes⟩ =>
        ⟨orderly, served, answered, words, decodes⟩,
      fun ⟨orderly, served, answered, words, decodes⟩ =>
        ⟨orderly, served, answered, words, decodes⟩⟩

structure ProgramState where
  pc : Word
  registers : ArfIndex → Word

namespace ProgramState

def reset : ProgramState :=
  { pc := 0x1000, registers := fun _ => 0 }

/-- One instruction, when the data cache answers `answer` -/
def execute (state : ProgramState) (uop : MicroOp) (answer : BitVec 64) :
    ProgramState :=
  { pc :=
      if uop.brType = .x then state.pc + 4
      else branchAddr uop (uop.operand1 state.registers)
        (uop.operand2 state.registers)
    registers :=
      match uop.target with
      | some arf =>
          Function.update state.registers arf
            (uop.perform answer state.registers).data
      | none => state.registers }

def next (program : Word → Word) (state : ProgramState)
    (answer : BitVec 64) : ProgramState :=
  state.execute (decodeAt program state.pc) answer

end ProgramState

namespace ExecutionSystem

/-- The machine before the instruction with the given number -/
def machine (program : Word → Word) (system : ExecutionSystem) :
    Nat → ProgramState :=
  states (ProgramState.next program) .reset system.answer

def Fetches (program : Word → Word) (system : ExecutionSystem)
    (input : CoreInput) : Prop :=
  system.history.core.Fetches program input

section Program

variable {program : Word → Word} {system : ExecutionSystem}

theorem orderly_run (run : Run Start next (Fetches program) system) :
    Run Start next Orderly system :=
  run.mono fun _ _ fetches => fetches.orderly

theorem onPath_of_run (run : Run Start next (Fetches program) system) :
    system.history.OnPath program := by
  have history : Run HistorySystem.Start HistorySystem.next
      (fun system input => system.core.Fetches program input)
      system.history := by
    induction run with
    | start started => exact .start started.1
    | step input _ fetches induction => exact .step input induction fetches
  exact HistorySystem.onPath_of_run history

/-- A uop that has retired went where the machine goes. -/
theorem Executing.nextPc_eq (executing : Executing system)
    (following : system.history.Following) {number : Nat} {uop : MicroOp}
    (genuine : Core.Genuine program uop.instruction)
    (found : system.history.retired[number]? = some uop)
    {state : ProgramState} (pc : uop.pc = state.pc)
    (registers : system.inOrder number = state.registers)
    (answer : BitVec 64) : uop.nextPc = (state.execute uop answer).pc := by
  rw [MicroOp.nextPc, ProgramState.execute, ← registers, ← pc]
  by_cases plain : uop.brType = .x
  · rw [if_pos plain, if_pos plain]
  · rcases executing.retired_performed following found with
      ⟨performed, -, outcome, effect⟩
    have br := genuine.unit plain
    have outcomes : uop.outcome = some (uop.brTaken, uop.brAddr) := if_pos br
    rw [effect, outcomes, MicroOp.perform, br] at outcome
    have address := congrArg Prod.snd (Option.some.inj outcome)
    rw [if_neg plain, if_neg plain]
    exact address.symm

theorem genuine_of_retired (onPath : system.history.OnPath program)
    (following : system.history.Following) {number : Nat} {uop : MicroOp}
    (found : system.history.retired[number]? = some uop) :
    Core.Genuine program uop.instruction := by
  refine onPath.genuine _ ?_
  rw [HistorySystem.instructions_retired following.returning]
  exact List.mem_append_left _
    (List.mem_map_of_mem (List.mem_of_getElem? found))

/-- The machine at the uop with the given number -/
structure Meets (program : Word → Word) (system : ExecutionSystem)
    (number : Nat) : Prop where
  pc : ∀ uop, system.history.retired[number]? = some uop →
    uop.pc = (system.machine program number).pc
  registers : system.inOrder number = (system.machine program number).registers

theorem Meets.next (executing : Executing system)
    (following : system.history.Following)
    (onPath : system.history.OnPath program) {number : Nat}
    (meets : Meets program system number)
    (inside : number < system.history.retired.length) :
    Meets program system (number + 1) := by
  have found := List.getElem?_eq_getElem inside
  generalize system.history.retired[number] = uop at found
  have genuine := genuine_of_retired onPath following found
  have pc := meets.pc uop found
  have execute : system.machine program (number + 1) =
      (system.machine program number).execute uop (system.answer number) := by
    have same := genuine.agree
      (fun uop => (system.machine program number).execute uop
        (system.answer number)) (fun _ => rfl) fun _ => rfl
    rw [pc] at same
    exact same.symm
  constructor
  · intro later after
    rcases onPath.path with ⟨here, path, -⟩
    have goes := executing.nextPc_eq following genuine found pc
      meets.registers (system.answer number)
    rw [execute, ← goes]
    exact path.getElem? found after
  · have before : system.inOrder (number + 1) =
        RegisterMachine.step MicroOp.target system.result number uop
          (system.inOrder number) := by
      rw [inOrder, RegisterMachine.before, found]
      rfl
    rw [before, execute, meets.registers, RegisterMachine.step,
      ProgramState.execute]
    cases uop.target with
    | none => rfl
    | some arf => rfl

theorem meets_of_run (run : Run Start next (Fetches program) system)
    (number : Nat) (inside : number ≤ system.history.retired.length) :
    Meets program system number := by
  have executing := executing_of_run (orderly_run run)
  have following := HistorySystem.following_of_run
    (history_run (orderly_run run))
  have onPath := onPath_of_run run
  induction number with
  | zero =>
      refine ⟨fun uop found => ?_, rfl⟩
      rcases onPath.path with ⟨here, path, -⟩
      exact path.head found
  | succ number induction =>
      exact (induction (Nat.le_of_succ_le inside)).next executing following
        onPath inside

/-- The core retires the instructions of the program, in the order of its
machine and with their effects, and its committed registers are those of the
machine. -/
theorem core_runs_program (run : Run Start next (Fetches program) system) :
    (∀ number uop, system.history.retired[number]? = some uop →
      uop.pc = (system.machine program number).pc ∧
      ∃ performed, system.performed number = some performed ∧
        performed.effect = (decodeAt program uop.pc).perform performed.answer
          (system.machine program number).registers) ∧
      ∀ way arf, system.history.core.backEnd.rfInt way
          (system.history.core.frontEnd.rr.rRat arf) =
        (system.machine program system.history.committed.length).registers
          arf := by
  have executing := executing_of_run (orderly_run run)
  have following := HistorySystem.following_of_run
    (history_run (orderly_run run))
  have onPath := onPath_of_run run
  refine ⟨fun number uop found => ?_, fun way arf => ?_⟩
  · have inside := (List.getElem?_eq_some_iff.mp found).1
    have meets := meets_of_run run number inside.le
    have perform := (genuine_of_retired onPath following found).agree
      MicroOp.perform (fun _ => rfl) fun _ => rfl
    rcases executing.retired_performed following found with
      ⟨performed, known, -, effect⟩
    refine ⟨meets.pc uop found, performed, known, ?_⟩
    rw [effect, perform, meets.registers]
  · have meets := meets_of_run run _ system.history.committed_le
    rw [executing.committed_eq following, meets.registers]

end Program

instance (program : Word → Word) (system : ExecutionSystem)
    (input : CoreInput) : Decidable (Fetches program system input) :=
  Core.decidableFetches program system.history.core input

/-- The four instructions of `fetchLoad` and `addi x4, x3, 1` where the `jal`
leads, with `addi x0, x0, 0` everywhere else -/
def loadProgram (pc : Word) : Word :=
  if pc = 0x1000 then 0x00500093
  else if pc = 0x1004 then 0x0040a103
  else if pc = 0x1008 then 0x001101b3
  else if pc = 0x100c then 0x0080006f
  else if pc = 0x1014 then 0x00118213
  else 0x00000013

/-- The wrong path is fetched in the cycle of the recovery, and the target of
the `jal` two cycles later. -/
def jumps : List CoreInput :=
  let waits := { Core.fetchLoad with icache2coreDataValid := false }
  Core.fetchLoad :: List.replicate 15 waits ++
    [{ Core.fetchLoad with
        icache2coreData := 0x00000013000000130011821300000013 }, waits,
      { Core.fetchLoad with
        icache2coreData := 0x00000013000000130000001300118213 }] ++
    List.replicate 10 waits

theorem core_runs_program_jump :
    ((jumps.foldl next afterReset).history.retired.getD 4 0).pc = 0x1014 ∧
      ∀ way, (jumps.foldl next afterReset).history.core.backEnd.rfInt way
        ((jumps.foldl next afterReset).history.core.frontEnd.rr.rRat 4) =
          46 := by
  have reset : Run Start next (Fetches loadProgram) afterReset :=
    .start ⟨⟨⟨_, _, rfl, rfl⟩, rfl, rfl⟩, rfl⟩
  have run := reset.through
    (by decide +kernel : Permitted next (Fetches loadProgram) afterReset jumps)
  have computed : (jumps.foldl next afterReset).history.committed.length = 6 ∧
      ((jumps.foldl next afterReset).machine loadProgram 4).pc = 0x1014 ∧
        ((jumps.foldl next afterReset).machine loadProgram 6).registers 4 =
          46 := by
    decide +kernel
  rcases computed with ⟨six, fifth, sum⟩
  rcases core_runs_program run with ⟨each, registers⟩
  have inside : 4 < (jumps.foldl next afterReset).history.retired.length :=
    Nat.lt_of_lt_of_le (by rw [six]; decide)
      (jumps.foldl next afterReset).history.committed_le
  rw [six] at registers
  refine ⟨?_, fun way => (registers way 4).trans sum⟩
  rw [List.getD_eq_getElem _ _ inside]
  exact (each 4 _ (List.getElem?_eq_getElem inside)).1.trans fifth

end ExecutionSystem

end Ria
