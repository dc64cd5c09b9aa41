import Ria.Core.Execution

/-!
# Execution in program order

A uop is issued when its producers have written back, reads their results,
and does with them what it does in a program that executes the history in
order.
-/

namespace Ria

open Hdl

instance Core.decidableOrderly (core : Core) (input : CoreInput) :
    Decidable (core.Orderly input) :=
  decidable_of_iff (input.reset = false ∧ input.dcache2coreDataValid = true ∧
      (core.cmRecover = false →
        core.groupSystem.Fits (core.groupInput input)))
    ⟨fun ⟨running, dataValid, fits⟩ => ⟨running, dataValid, fits⟩,
      fun ⟨running, dataValid, fits⟩ => ⟨running, dataValid, fits⟩⟩

/-- A cycle that fetches `addi x1, x0, 5`, `lw x2, 4(x1)`, `add x3, x2, x1`
and `jal x0, 8`; the data cache answers 40. -/
def Core.fetchLoad : CoreInput :=
  { fetchJal false with
    icache2coreData := 0x0080006f001101b30040a10300500093
    dcache2coreData := 40 }

namespace ExecutionSystem

/-- What the uop with the given number has written -/
def value (system : ExecutionSystem) (number : Nat) : Word :=
  match system.performed number with
  | some performed => performed.effect.data
  | none => 0

/-- The registers that the uop with the given number sees -/
def registers (system : ExecutionSystem) (number : Nat) : ArfIndex → Word :=
  RegisterMachine.source MicroOp.target system.history.trace (fun _ => 0)
    system.value number

/-- The producers of what the uop reads have been performed. -/
def Supplied (system : ExecutionSystem) (number : Nat) (uop : MicroOp) :
    Prop :=
  ∀ arf, uop.ReadsArf arf → ∀ writer,
    producer system.history.trace number arf = some writer →
      ∃ performed, system.performed writer = some performed

/-- The operands of the uop are those of the program. -/
structure Fed (system : ExecutionSystem) (uop : MicroOp) (in1 in2 : Word) :
    Prop where
  supplied : system.Supplied (system.history.number uop) uop
  rs1 : in1 = uop.operand1 (system.registers (system.history.number uop))
  rs2 : in2 = uop.operand2 (system.registers (system.history.number uop))

/-- The uop with the given number does what the program does. -/
structure Obeys (system : ExecutionSystem) (number : Nat) (uop : MicroOp)
    (performed : Performed) : Prop where
  supplied : system.Supplied number uop
  effect : performed.effect =
    uop.perform performed.answer (system.registers number)

structure Executing (system : ExecutionSystem) : Prop where
  recording : Recording system
  sourced : Sourced system.history.trace
  scoreboard : ∀ number uop, system.history.trace[number]? = some uop →
    number < system.history.entered → uop.rdValid = true →
    system.performed number = none →
    system.history.core.backEnd.sbInt uop.rdPrfIntIndex = true
  zero : ∀ way, system.history.core.backEnd.rfInt way 0 = 0
  contents : ∀ number uop performed, system.history.Live number →
    system.history.trace[number]? = some uop → uop.rdValid = true →
    system.performed number = some performed → ∀ way,
      system.history.core.backEnd.rfInt way uop.rdPrfIntIndex =
        performed.effect.data
  rfInteger : Integer system.history.core.backEnd.rfIntUopIn
  exInteger : Integer system.history.core.backEnd.exUopIn
  supplied : ∀ way,
    (system.history.core.backEnd.rfIntUopIn way).valid = true →
    system.Supplied
      (system.history.number (system.history.core.backEnd.rfIntUopIn way))
      (system.history.core.backEnd.rfIntUopIn way)
  fed : ∀ way, (system.history.core.backEnd.exUopIn way).valid = true →
    system.Fed (system.history.core.backEnd.exUopIn way)
      (system.history.core.backEnd.exRs1DataIn way)
      (system.history.core.backEnd.exRs2DataIn way)
  obeying : ∀ way, (system.history.core.backEnd.exUopOut way).valid = true →
    ∀ cycle : BackEndInput, cycle.dcacheDataValid = true →
      system.Obeys
        (system.history.number (system.history.core.backEnd.exUopOut way))
        (system.history.core.backEnd.exUopOut way)
        (system.history.core.backEnd.performed cycle way)
  obeyed : ∀ number performed, system.performed number = some performed →
    ∃ uop, system.history.trace[number]? = some uop ∧
      system.Obeys number uop performed

section Cycle

variable {system : ExecutionSystem} {input : CoreInput} {number : Nat}
  {uop : MicroOp}

/-! ### What is known stays -/

theorem producer_next (running : system.history.Running input)
    (inside : number ≤ (system.history.next input).entered) (arf : ArfIndex) :
    producer (system.next input).history.trace number arf =
      producer system.history.trace number arf :=
  RegisterMachine.producer_congr fun _ below =>
    running.agrees (below.trans_le inside)

theorem Supplied.next (supplied : system.Supplied number uop)
    (recording : Recording system) (running : system.history.Running input)
    (inside : number ≤ (system.history.next input).entered) :
    (system.next input).Supplied number uop := by
  intro arf reads writer found
  rw [producer_next running inside] at found
  rcases supplied arf reads writer found with ⟨performed, known⟩
  have before := (RegisterMachine.producer_eq_some.mp found).1
  exact ⟨performed, recording.performed_next known (before.trans_le inside)⟩

theorem value_of_performed {performed : Performed}
    (known : system.performed number = some performed) :
    system.value number = performed.effect.data := by
  rw [value, known]

theorem Supplied.registers (supplied : system.Supplied number uop)
    (recording : Recording system) (running : system.history.Running input)
    (inside : number ≤ (system.history.next input).entered) (arf : ArfIndex)
    (reads : uop.ReadsArf arf) :
    system.registers number arf = (system.next input).registers number arf := by
  have same : RegisterMachine.producer MicroOp.target
      (system.next input).history.trace number arf =
        RegisterMachine.producer MicroOp.target system.history.trace number
          arf := producer_next running inside arf
  unfold ExecutionSystem.registers RegisterMachine.source
  rw [same]
  cases found : RegisterMachine.producer MicroOp.target system.history.trace
      number arf with
  | none => rfl
  | some writer =>
      rcases supplied arf reads writer found with ⟨performed, known⟩
      have before := (RegisterMachine.producer_eq_some.mp found).1
      have stays := recording.performed_next known (before.trans_le inside)
      exact (value_of_performed known).trans (value_of_performed stays).symm

theorem Obeys.next {performed : Performed}
    (obeys : system.Obeys number uop performed)
    (recording : Recording system) (running : system.history.Running input)
    (inside : number ≤ (system.history.next input).entered) :
    (system.next input).Obeys number uop performed := by
  refine ⟨obeys.supplied.next recording running inside, ?_⟩
  rw [obeys.effect]
  exact MicroOp.perform_congr _
    (obeys.supplied.registers recording running inside)

theorem Obeys.of_agree {other : MicroOp} {performed : Performed}
    (obeys : system.Obeys number uop performed)
    (perform : other.perform = uop.perform)
    (reads : ∀ arf, other.ReadsArf arf → uop.ReadsArf arf) :
    system.Obeys number other performed := by
  refine ⟨fun arf takes => obeys.supplied arf (reads arf takes), ?_⟩
  rw [perform]
  exact obeys.effect

/-! ### Operands -/

theorem sourceOf_producer {uops : List MicroOp} {arf : ArfIndex}
    {writer : Nat} {writing : MicroOp} (nonzero : arf ≠ 0)
    (found : producer uops number arf = some writer)
    (here : uops[writer]? = some writing) :
    RenameSystem.sourceOf ((uops.take number).map MicroOp.allocation) arf =
      writing.rdPrfIntIndex := by
  rw [RenameSystem.sourceOf, if_neg nonzero, mapping_take, found,
    Option.map_some, Option.getD_some, List.getD_eq_getElem?_getD, here,
    Option.getD_some]

/-- The producer of an operand writes a register. -/
theorem writes_of_producer {uops : List MicroOp} {arf : ArfIndex}
    {writer : Nat} (found : producer uops number arf = some writer) :
    writer < number ∧ ∃ writing, uops[writer]? = some writing ∧
      writing.rdValid = true := by
  rcases RegisterMachine.producer_eq_some.mp found with ⟨before, writes, -⟩
  rcases RegisterMachine.writes_iff.mp writes with ⟨writing, here, target⟩
  exact ⟨before, writing, here, (MicroOp.target_eq_some.mp target).1⟩

theorem reads_sourceOf {uops : List MicroOp} (sourced : Sourced uops)
    (found : uops[number]? = some uop.identity) {arf : ArfIndex}
    (reads : uop.ReadsArf arf) :
    uop.Reads (RenameSystem.sourceOf
      ((uops.take number).map MicroOp.allocation) arf) := by
  have renamed := sourced number _ found
  rcases reads with ⟨-, ⟨source, rfl⟩ | ⟨source, rfl⟩⟩
  · exact .inl ⟨source, renamed.1⟩
  · exact .inr ⟨source, renamed.2⟩

namespace Executing

variable (executing : Executing system)
  (following : system.history.Following)

include executing following

/-- Nobody writes the register of a uop that has been performed. -/
theorem idle_of_performed {performed : Performed}
    (live : system.history.Live number)
    (found : system.history.trace[number]? = some uop)
    (valid : uop.rdValid = true)
    (known : system.performed number = some performed)
    (cycle : BackEndInput) (way : Fin 4) :
    ¬ (system.history.core.backEnd.rdPorts cycle).Writes way
      uop.rdPrfIntIndex := by
  intro writes
  rcases following.writes_back live found valid writes with ⟨active, same⟩
  have missing := executing.recording.unperformed _
    (HistorySystem.mem_inFlight_of_wb active)
  rw [← same, known] at missing
  cases missing

/-- The register file gives a supplied uop the results of its producers. -/
theorem read_eq {reader : MicroOp} (held : system.history.Held reader)
    (supplied : system.Supplied (system.history.number reader) reader)
    {arf : ArfIndex} (reads : reader.ReadsArf arf) (cycle : BackEndInput)
    (way : Fin 4) :
    system.history.core.backEnd.rfInt.read
        (system.history.core.backEnd.rdPorts cycle) way
        (RenameSystem.sourceOf ((system.history.trace.take
          (system.history.number reader)).map MicroOp.allocation) arf) =
      system.registers (system.history.number reader) arf := by
  cases found : producer system.history.trace
      (system.history.number reader) arf with
  | none =>
      have nobody : RegisterMachine.producer MicroOp.target
        system.history.trace (system.history.number reader) arf = none := found
      rw [registers, RegisterMachine.source, nobody, RenameSystem.sourceOf,
        if_neg reads.1, mapping_take, found]
      exact PrfIntData.read_zero _ _ _
  | some writer =>
      have last : RegisterMachine.producer MicroOp.target
        system.history.trace (system.history.number reader) arf =
          some writer := found
      rcases writes_of_producer found with ⟨-, uop, here, valid⟩
      have live := HistorySystem.live_of_producer held.waits found
      rcases supplied arf reads writer found with ⟨performed, known⟩
      have nonzero := following.nonzero live here valid held.waits held.found
      have idle := executing.idle_of_performed following live here valid
        known cycle
      rw [registers, RegisterMachine.source, last,
        sourceOf_producer reads.1 found here,
        PrfIntData.read_of_idle way idle, if_pos nonzero,
        executing.contents writer uop performed live here valid known way]
      exact (value_of_performed known).symm

theorem select_eq {reader : MicroOp} (held : system.history.Held reader)
    (supplied : system.Supplied (system.history.number reader) reader)
    {source : RsSource} {arf : ArfIndex} {prf : PrfIndex}
    (reads : source = .fromRf → arf ≠ 0 → reader.ReadsArf arf)
    (renamed : prf = RenameSystem.sourceOf ((system.history.trace.take
      (system.history.number reader)).map MicroOp.allocation) arf)
    (cycle : BackEndInput) (way : Fin 4) :
    prfIntSelect source
        (system.history.core.backEnd.rfInt.read
          (system.history.core.backEnd.rdPorts cycle) way
          (prfIntIndex source prf))
        reader.imm reader.pc reader.npc =
      reader.operand source arf
        (system.registers (system.history.number reader)) := by
  unfold MicroOp.operand
  cases kind : source with
  | fromRf =>
      rw [renamed]
      by_cases hardwired : arf = 0
      · rw [if_pos hardwired, RenameSystem.sourceOf, if_pos hardwired]
        exact PrfIntData.read_zero _ _ _
      · rw [if_neg hardwired]
        exact executing.read_eq following held supplied
          (reads kind hardwired) cycle way
  | _ => rfl

end Executing

/-! ### Registers -/

namespace Executing

variable (executing : Executing system)
  (running : system.history.Running input)

include executing running

theorem scoreboard_next (runs : system.history.core.cmRecover = false)
    (found : (system.history.next input).trace[number]? = some uop)
    (inside : number < (system.history.next input).entered)
    (valid : uop.rdValid = true)
    (missing : (system.next input).performed number = none) :
    (system.history.next input).core.backEnd.sbInt uop.rdPrfIntIndex =
      true := by
  have following := running.following
  have before := (running.agrees inside).symm.trans found
  have sbInt : (system.history.next input).core.backEnd.sbInt =
      system.history.core.backEnd.sbInt.next false false
        system.history.core.dpUopsIn
        (system.history.core.backEnd.rdPorts
          (system.history.core.backEndInput input)) := by
    have clear : system.history.core.clear = false := runs
    change ScoreboardInt.next _ input.reset system.history.core.clear _ _ = _
    rw [running.orderly.running, clear]
    rfl
  rw [performed_of_runs runs] at missing
  have unwritten : system.writing number = none := by
    unfold recorded at missing
    split at missing
    · cases missing
    · assumption
  have unknown : system.performed number = none := by
    rw [recorded, unwritten] at missing
    exact missing
  have waits : system.history.retired.length ≤ number := by
    by_contra retired
    rcases executing.recording.retired number _
      (List.getElem?_eq_getElem (Nat.lt_of_not_le retired)) with
      ⟨performed, known, -⟩
    rw [unknown] at known
    cases known
  rw [sbInt]
  refine ScoreboardInt.next_iff.mpr ⟨?_, fun way writes => ?_⟩
  · by_cases old : number < system.history.entered
    · exact .inl (executing.scoreboard number uop before old valid unknown)
    · rcases running.dispatched runs (Nat.le_of_not_lt old) inside found with
        ⟨i, rfl⟩
      exact .inr ⟨i, valid, rfl⟩
  · rcases following.writes_back (HistorySystem.live_of_waits waits) before
      valid writes with ⟨active, rfl⟩
    rw [writing_of_valid following active] at unwritten
    cases unwritten

omit executing running in
theorem performed_next_cases {performed : Performed}
    (inside : number < (system.history.next input).entered)
    (known : (system.next input).performed number = some performed) :
    system.performed number = some performed ∨
      ∃ way, system.writing number = some way ∧
        system.history.core.backEnd.performed
          (system.history.core.backEndInput input) way = performed := by
  cases recovers : system.history.core.cmRecover with
  | true =>
      rw [performed_of_recover recovers, if_pos inside] at known
      exact .inl known
  | false =>
      rw [performed_of_runs recovers, recorded] at known
      cases written : system.writing number with
      | none =>
          rw [written] at known
          exact .inl known
      | some way =>
          rw [written] at known
          exact .inr ⟨way, rfl, Option.some.inj known⟩

theorem inside_of_performed {performed : Performed}
    (known : (system.next input).performed number = some performed) :
    number < (system.history.next input).entered := by
  by_contra past
  have missing := (executing.recording.next running).beyond number
    (Nat.le_of_not_lt past)
  rw [missing] at known
  cases known

theorem contents_next {performed : Performed}
    (live : (system.history.next input).Live number)
    (found : (system.history.next input).trace[number]? = some uop)
    (valid : uop.rdValid = true)
    (known : (system.next input).performed number = some performed)
    (way : Fin 4) :
    (system.history.next input).core.backEnd.rfInt way uop.rdPrfIntIndex =
      performed.effect.data := by
  have following := running.following
  have inside := executing.inside_of_performed running known
  have before := (running.agrees inside).symm.trans found
  have lived : system.history.Live number :=
    live.before (fun _ => running.agrees)
      (HistorySystem.retired_le _ running.after.returning)
      running.orderly.running inside
  have rfInt : (system.history.next input).core.backEnd.rfInt =
      system.history.core.backEnd.rfInt.next false
        (system.history.core.backEnd.rdPorts
          (system.history.core.backEndInput input)) := by
    change PrfIntData.next _ input.reset _ = _
    rw [running.orderly.running]
  rw [rfInt]
  rcases performed_next_cases inside known with
    old | ⟨writer, written, rfl⟩
  · rw [PrfIntData.next_of_idle way (executing.idle_of_performed following
      lived before valid old (system.history.core.backEndInput input))]
    exact executing.contents number uop performed lived before valid old way
  · rcases writing_eq_some written with ⟨active, rfl⟩
    have held := following.inFlight
      (HistorySystem.mem_inFlight_of_wb active)
    obtain rfl := Option.some.inj (held.found.symm.trans before)
    refine PrfIntData.next_of_write way
      (following.nonzero lived before valid held.waits held.found) ?_
      (⟨valid, rfl⟩ : RdPorts.Writes _ writer _)
    intro other writes
    rcases following.writes_back lived before valid writes with
      ⟨writing, same⟩
    rw [following.way_of_number active writing same]
    rfl

theorem zero_next (way : Fin 4) :
    (system.history.next input).core.backEnd.rfInt way 0 = 0 := by
  change PrfIntData.next _ input.reset _ way 0 = 0
  rw [running.orderly.running, PrfIntData.next_zero, executing.zero]

theorem obeyed_next {performed : Performed}
    (known : (system.next input).performed number = some performed) :
    ∃ uop, (system.history.next input).trace[number]? = some uop ∧
      (system.next input).Obeys number uop performed := by
  have inside := executing.inside_of_performed running known
  have later := Nat.le_of_lt inside
  rw [running.agrees inside]
  rcases performed_next_cases inside known with
    old | ⟨writer, written, rfl⟩
  · rcases executing.obeyed number performed old with ⟨uop, found, obeys⟩
    exact ⟨uop, found, obeys.next executing.recording running later⟩
  · rcases writing_eq_some written with ⟨active, rfl⟩
    have held := running.following.inFlight
      (HistorySystem.mem_inFlight_of_wb active)
    have obeys := executing.obeying writer active
      (system.history.core.backEndInput input) running.orderly.dataValid
    exact ⟨_, held.found, (obeys.next executing.recording running
      later).of_agree (MicroOp.perform_identity _) fun _ reads => reads⟩

/-! ### Stages -/

variable (runs : system.history.core.cmRecover = false)

include runs

omit executing in
theorem stages : (system.history.next input).core.backEnd.rfIntUopIn =
      system.history.core.backEnd.isUopOut
        (system.history.core.backEndInput input) ∧
    (system.history.next input).core.backEnd.exUopIn =
      system.history.core.backEnd.rfIntUopIn := by
  have flush : ¬ (input.reset || system.history.core.clear) = true := by
    have clear : system.history.core.clear = false := runs
    rw [running.orderly.running, clear]
    exact Bool.false_ne_true
  exact ⟨if_neg flush, if_neg flush⟩

theorem supplied_next {way : Fin 4}
    (valid : ((system.history.next input).core.backEnd.rfIntUopIn way).valid =
      true) :
    (system.next input).Supplied
      ((system.history.next input).number
        ((system.history.next input).core.backEnd.rfIntUopIn way))
      ((system.history.next input).core.backEnd.rfIntUopIn way) := by
  have following := running.following
  rw [(stages running runs).1] at valid ⊢
  rcases following.returning.flowing.selected valid with ⟨waits, released⟩
  have member : system.history.core.backEnd.isUopOut
      (system.history.core.backEndInput input) way ∈
        system.history.core.backEnd.inFlight := by
    refine HistorySystem.mem_inFlight_of_unexecuted ?_
    exact Multiset.mem_add.mpr (.inl (Multiset.mem_add.mpr (.inl waits)))
  have held := following.inFlight member
  have more := running.entered runs
  have inside : system.history.number (system.history.core.backEnd.isUopOut
      (system.history.core.backEndInput input) way) ≤
        (system.history.next input).entered := by
    have within := held.inside
    omega
  rw [running.number runs member]
  intro arf reads writer found
  rw [producer_next running inside] at found
  rcases writes_of_producer found with ⟨before, writing, here, written⟩
  cases known : system.performed writer with
  | some performed =>
      exact ⟨performed, executing.recording.performed_next known
        (before.trans_le inside)⟩
  | none =>
      have live := HistorySystem.live_of_producer held.waits found
      have nonzero := following.nonzero live here written held.waits held.found
      have busy := executing.scoreboard writer writing here
        (before.trans held.inside) written known
      have asked := released _
        (reads_sourceOf executing.sourced held.found reads)
      rw [sourceOf_producer reads.1 found here] at asked
      rcases ScoreboardInt.ready_of_busy nonzero asked with
        ready | ⟨other, writes⟩
      · have clash := busy.symm.trans ready
        cases clash
      · rcases following.writes_back live here written writes with
          ⟨active, rfl⟩
        refine ⟨system.history.core.backEnd.performed
          (system.history.core.backEndInput input) other, ?_⟩
        rw [performed_of_runs runs, recorded,
          writing_of_valid following active]

theorem fed_next {way : Fin 4}
    (valid : ((system.history.next input).core.backEnd.exUopIn way).valid =
      true) :
    (system.next input).Fed
      ((system.history.next input).core.backEnd.exUopIn way)
      ((system.history.next input).core.backEnd.exRs1DataIn way)
      ((system.history.next input).core.backEnd.exRs2DataIn way) := by
  have following := running.following
  have ex := (stages running runs).2
  have flush : ¬ (input.reset || system.history.core.clear) = true := by
    have clear : system.history.core.clear = false := runs
    rw [running.orderly.running, clear]
    exact Bool.false_ne_true
  have rs1 : (system.history.next input).core.backEnd.exRs1DataIn =
      system.history.core.backEnd.rfRs1DataOut
        (system.history.core.backEndInput input) := if_neg flush
  have rs2 : (system.history.next input).core.backEnd.exRs2DataIn =
      system.history.core.backEnd.rfRs2DataOut
        (system.history.core.backEndInput input) := if_neg flush
  rw [ex] at valid
  rw [ex, rs1, rs2]
  have member : system.history.core.backEnd.rfIntUopIn way ∈
      system.history.core.backEnd.inFlight :=
    HistorySystem.mem_inFlight_of_unexecuted (Multiset.mem_add.mpr
      (.inl (Multiset.mem_add.mpr
        (.inr (mem_uopsOf.mpr ⟨way, rfl, valid⟩)))))
  have held := following.inFlight member
  have supplied := executing.supplied way valid
  have renamed := executing.sourced _ _ held.found
  have number : (system.next input).history.number
      (system.history.core.backEnd.rfIntUopIn way) =
        system.history.number (system.history.core.backEnd.rfIntUopIn way) :=
    running.number runs member
  have inside : system.history.number
      (system.history.core.backEnd.rfIntUopIn way) ≤
        (system.history.next input).entered := by
    have more := running.entered runs
    have within := held.inside
    omega
  have same := supplied.registers executing.recording running inside
  refine ⟨?_, ?_, ?_⟩
  · rw [number]
    exact supplied.next executing.recording running inside
  · rw [number, ← MicroOp.operand1_congr same]
    exact executing.select_eq following held supplied
      (fun source nonzero => ⟨nonzero, .inl ⟨source, rfl⟩⟩) renamed.1 _ way
  · rw [number, ← MicroOp.operand2_congr same]
    exact executing.select_eq following held supplied
      (fun source nonzero => ⟨nonzero, .inr ⟨source, rfl⟩⟩) renamed.2 _ way

theorem obeying_next {way : Fin 4}
    (valid : ((system.history.next input).core.backEnd.exUopOut way).valid =
      true) {cycle : BackEndInput} (answers : cycle.dcacheDataValid = true) :
    (system.next input).Obeys
      ((system.history.next input).number
        ((system.history.next input).core.backEnd.exUopOut way))
      ((system.history.next input).core.backEnd.exUopOut way)
      ((system.history.next input).core.backEnd.performed cycle way) := by
  have flowing := running.following.returning.flowing
  rcases BackEnd.executed_next flowing running.orderly.running runs
    running.orderly.dataValid valid with ⟨before, same⟩
  have member : system.history.core.backEnd.exUopIn way ∈
      system.history.core.backEnd.inFlight :=
    HistorySystem.mem_inFlight_of_unexecuted (Multiset.mem_add.mpr
      (.inr (mem_uopsOf.mpr ⟨way, rfl, before⟩)))
  have held := running.following.inFlight member
  have fed := executing.fed way before
  have effect := flowing.performed_next running.orderly.running runs
    running.orderly.dataValid executing.exInteger valid fed.rs1 fed.rs2 answers
  have obeys : system.Obeys
      (system.history.number (system.history.core.backEnd.exUopIn way))
      (system.history.core.backEnd.exUopIn way)
      ((system.history.next input).core.backEnd.performed cycle way) :=
    ⟨fed.supplied, effect⟩
  have inside : system.history.number
      (system.history.core.backEnd.exUopIn way) ≤
        (system.history.next input).entered := by
    have more := running.entered runs
    have within := held.inside
    omega
  have number : (system.history.next input).number
      ((system.history.next input).core.backEnd.exUopOut way) =
        system.history.number (system.history.core.backEnd.exUopIn way) :=
    (HistorySystem.number_congr same).trans (running.number runs member)
  rw [number]
  refine (obeys.next executing.recording running inside).of_agree
    (MicroOp.agree same MicroOp.perform fun _ => rfl) fun arf reads => ?_
  have agree := MicroOp.agree same (MicroOp.ReadsArf · arf) fun _ => rfl
  exact agree ▸ reads

end Executing

theorem Executing.next (executing : Executing system)
    (running : system.history.Running input) :
    Executing (system.next input) := by
  have recording := executing.recording.next running
  have sourced := running.sourced executing.sourced
  cases recovers : system.history.core.cmRecover with
  | false =>
      have rf := (stages running recovers).1
      have ex := (stages running recovers).2
      exact
        { recording := recording, sourced := sourced
          scoreboard := fun number uop =>
            executing.scoreboard_next running recovers
          zero := executing.zero_next running
          contents := fun number uop performed =>
            executing.contents_next running
          rfInteger := by
            change Integer (system.history.next input).core.backEnd.rfIntUopIn
            rw [rf]
            exact BackEnd.integer_isUopOut
              running.sound.emitted.backEnd.iqInt
          exInteger := by
            change Integer (system.history.next input).core.backEnd.exUopIn
            rw [ex]
            exact executing.rfInteger
          supplied := fun way => executing.supplied_next running recovers
          fed := fun way => executing.fed_next running recovers
          obeying := fun way valid cycle =>
            executing.obeying_next running recovers valid
          obeyed := fun number performed => executing.obeyed_next running }
  | true =>
      have flush := Core.flush_of_clear recovers input
      have rf : (system.history.next input).core.backEnd.rfIntUopIn = noUops :=
        if_pos flush
      have ex : (system.history.next input).core.backEnd.exUopIn = noUops :=
        if_pos flush
      have wb : (system.history.next input).core.backEnd.exUopOut = noUops :=
        BackEnd.exUopOut_of_flush flush
      have idle : ∀ uops : Fin 4 → MicroOp, uops = noUops → ∀ way,
          (uops way).valid ≠ true := by
        rintro _ rfl way never
        cases never
      exact
        { recording := recording, sourced := sourced
          scoreboard := fun number uop found inside valid missing => by
            have entered : (system.next input).history.entered = _ :=
              HistorySystem.entered_of_recover recovers
            rw [entered] at inside
            rcases recording.retired number _
              (List.getElem?_eq_getElem inside) with ⟨performed, known, -⟩
            rw [missing] at known
            cases known
          zero := executing.zero_next running
          contents := fun number uop performed =>
            executing.contents_next running
          rfInteger := fun way _ valid => absurd valid (idle _ rf way)
          exInteger := fun way _ valid => absurd valid (idle _ ex way)
          supplied := fun way valid => absurd valid (idle _ rf way)
          fed := fun way valid => absurd valid (idle _ ex way)
          obeying := fun way valid => absurd valid (idle _ wb way)
          obeyed := fun number performed => executing.obeyed_next running }

theorem executing_of_start (start : Start system) : Executing system := by
  have recording := recording_of_start start
  rcases start with ⟨⟨⟨before, input, reset, core⟩, log, earlier⟩, performed⟩
  have flush : (input.reset || before.clear) = true :=
    Core.flush_of_reset reset
  have rf : system.history.core.backEnd.rfIntUopIn = noUops := by
    rw [core]
    exact if_pos flush
  have ex : system.history.core.backEnd.exUopIn = noUops := by
    rw [core]
    exact if_pos flush
  have wb : system.history.core.backEnd.exUopOut = noUops := by
    rw [core]
    exact BackEnd.exUopOut_of_flush flush
  have rrDp : system.history.core.frontEnd.rrDp = .resetState noUops := by
    rw [core]
    exact (before.flushed_next input flush).rrDp
  have rfInt : system.history.core.backEnd.rfInt = fun _ _ => 0 := by
    rw [core]
    exact if_pos reset
  have trace : system.history.trace = [] := by
    rw [HistorySystem.trace, HistorySystem.arriving, log, earlier, rrDp,
      SkidBuffer.held_resetState validUops_noUops]
    rfl
  have idle : ∀ uops : Fin 4 → MicroOp, uops = noUops → ∀ way,
      (uops way).valid ≠ true := by
    rintro _ rfl way never
    cases never
  have unknown : ∀ number (found : Performed),
      system.performed number ≠ some found := by
    intro number found known
    rw [performed] at known
    cases known
  exact
    { recording := recording
      sourced := fun number uop found => by
        rw [trace] at found
        cases found
      scoreboard := fun number uop found => by
        rw [trace] at found
        cases found
      zero := fun way => by rw [rfInt]
      contents := fun number uop found _ _ _ known =>
        absurd known (unknown number found)
      rfInteger := fun way _ valid => absurd valid (idle _ rf way)
      exInteger := fun way _ valid => absurd valid (idle _ ex way)
      supplied := fun way valid => absurd valid (idle _ rf way)
      fed := fun way valid => absurd valid (idle _ ex way)
      obeying := fun way valid => absurd valid (idle _ wb way)
      obeyed := fun number found known =>
        absurd known (unknown number found) }

end Cycle

/-! ## Runs -/

theorem executing_of_run {system : ExecutionSystem}
    (run : Run Start next Orderly system) : Executing system := by
  induction run with
  | start started => exact executing_of_start started
  | step input run orderly induction =>
      exact induction.next
        (HistorySystem.running_of_run (history_run run) orderly)

/-- What the data cache answered to the uop with the given number -/
def answer (system : ExecutionSystem) (number : Nat) : BitVec 64 :=
  match system.performed number with
  | some performed => performed.answer
  | none => 0

/-- The value that the uop with the given number gives its register -/
def result (system : ExecutionSystem) (number : Nat) (uop : MicroOp)
    (registers : ArfIndex → Word) : Word :=
  (uop.perform (system.answer number) registers).data

/-- The registers after the first `count` uops that retired, executed one
after the other -/
def inOrder (system : ExecutionSystem) (count : Nat) : ArfIndex → Word :=
  RegisterMachine.before MicroOp.target system.result (fun _ => 0)
    system.history.retired count

section Program

variable {system : ExecutionSystem}

theorem answer_of_performed {number : Nat} {performed : Performed}
    (known : system.performed number = some performed) :
    system.answer number = performed.answer := by
  rw [answer, known]

theorem getElem?_trace_of_retired (following : system.history.Following)
    {number : Nat} (inside : number < system.history.retired.length) :
    system.history.trace[number]? =
      (system.history.retired.map MicroOp.identity)[number]? := by
  rw [HistorySystem.trace_eq following.returning, List.map_append,
    List.map_append, List.append_assoc, List.getElem?_append_left]
  rwa [List.length_map]

/-- A uop that has retired wrote what the program writes. -/
theorem Executing.value_eq (executing : Executing system) {number : Nat}
    {uop : MicroOp} (inside : number < system.history.retired.length)
    (found : system.history.trace[number]? = some uop) :
    system.value number = system.result number uop
      (system.registers number) := by
  rcases executing.recording.retired number _
    (List.getElem?_eq_getElem inside) with ⟨performed, known, -⟩
  rcases executing.obeyed number performed known with ⟨other, here, obeys⟩
  obtain rfl := Option.some.inj (here.symm.trans found)
  rw [value_of_performed known, result, answer_of_performed known,
    obeys.effect]

theorem Executing.registers_eq (executing : Executing system)
    (following : system.history.Following) {number : Nat}
    (inside : number ≤ system.history.retired.length) :
    system.registers number = system.inOrder number := by
  have obeys : system.registers number =
      RegisterMachine.before MicroOp.target system.result (fun _ => 0)
        system.history.trace number :=
    RegisterMachine.source_eq_before
      (fun _ _ _ below found _ => executing.value_eq below found) number inside
  have plain : RegisterMachine.before MicroOp.target system.result
      (fun _ => 0) (system.history.retired.map MicroOp.identity) number =
        system.inOrder number :=
    RegisterMachine.before_map MicroOp.identity (fun _ => rfl)
      (fun _ _ => rfl) number
  rw [obeys, ← plain]
  exact RegisterMachine.before_congr fun _ below =>
    getElem?_trace_of_retired following (below.trans_le inside)

theorem take_committed (following : system.history.Following) :
    (system.history.trace.take system.history.committed.length).map
        MicroOp.allocation =
      system.history.committed.map MicroOp.allocation := by
  have first : system.history.committed <+: system.history.retired :=
    List.take_prefix _ _
  have short := first.length_le
  rw [HistorySystem.trace_eq following.returning, List.map_append,
    List.map_append, List.append_assoc,
    List.take_append_of_le_length (by rwa [List.length_map]),
    ← List.map_take, ← List.prefix_iff_eq_take.mp first,
    HistorySystem.map_allocation]

/-- The committed registers are those of the program. -/
theorem Executing.committed_eq (executing : Executing system)
    (following : system.history.Following) (way : Fin 4) (arf : ArfIndex) :
    system.history.core.backEnd.rfInt way
        (system.history.core.frontEnd.rr.rRat arf) =
      system.inOrder system.history.committed.length arf := by
  have short := system.history.committed_le
  have rRat : system.history.core.frontEnd.rr.rRat arf =
      (mapping ((system.history.trace.take
        system.history.committed.length).map MicroOp.allocation)
          arf).getD 0 := by
    rcases following.renames with ⟨committed, queue, renames⟩
    rw [take_committed following, renames.committed_eq]
    exact renames.rename.agree.rRat arf
  rw [← executing.registers_eq following short, rRat, mapping_take,
    registers, RegisterMachine.source]
  cases found : producer system.history.trace
      system.history.committed.length arf with
  | none =>
      have nobody : RegisterMachine.producer MicroOp.target
        system.history.trace system.history.committed.length arf = none :=
          found
      rw [nobody]
      exact executing.zero way
  | some writer =>
      have known : RegisterMachine.producer MicroOp.target
        system.history.trace system.history.committed.length arf =
          some writer := found
      rcases RegisterMachine.producer_eq_some.mp known with
        ⟨before, writes, last⟩
      rcases RegisterMachine.writes_iff.mp writes with ⟨uop, here, target⟩
      have live : system.history.Live writer := by
        intro other register there also
        obtain rfl := Option.some.inj (here.symm.trans there)
        obtain rfl := Option.some.inj (target.symm.trans also)
        exact last
      rcases executing.recording.retired writer _
        (List.getElem?_eq_getElem (before.trans_le short)) with
        ⟨performed, done, -⟩
      rw [known, Option.map_some, Option.getD_some,
        List.getD_eq_getElem?_getD, here, Option.getD_some,
        executing.contents writer uop performed live here
          (MicroOp.target_eq_some.mp target).1 done way]
      exact (value_of_performed done).symm

/-- A uop that has retired did what the program does. -/
theorem Executing.retired_performed (executing : Executing system)
    (following : system.history.Following) {number : Nat} {uop : MicroOp}
    (found : system.history.retired[number]? = some uop) :
    ∃ performed, system.performed number = some performed ∧
      performed.effect.outcome = uop.outcome ∧
      performed.effect =
        uop.perform performed.answer (system.inOrder number) := by
  have inside := (List.getElem?_eq_some_iff.mp found).1
  rcases executing.recording.retired number uop found with
    ⟨performed, known, outcome⟩
  rcases executing.obeyed number performed known with ⟨other, here, obeys⟩
  rw [getElem?_trace_of_retired following inside, List.getElem?_map, found]
    at here
  obtain rfl := Option.some.inj here
  refine ⟨performed, known, outcome, ?_⟩
  rw [obeys.effect, executing.registers_eq following inside.le,
    MicroOp.perform_identity]

/-- What retires has been performed as in a program that executes the uops
one after the other, in the order of rename: every value, outcome and request
is that of the registers before it, and so are the committed registers. -/
theorem core_executes_in_order (run : Run Start next Orderly system) :
    (∀ number uop, system.history.retired[number]? = some uop →
      ∃ performed, system.performed number = some performed ∧
        performed.effect.outcome = uop.outcome ∧
        performed.effect =
          uop.perform performed.answer (system.inOrder number)) ∧
      ∀ way arf, system.history.core.backEnd.rfInt way
          (system.history.core.frontEnd.rr.rRat arf) =
        system.inOrder system.history.committed.length arf := by
  have executing := executing_of_run run
  have following := HistorySystem.following_of_run (history_run run)
  exact ⟨fun _ _ => executing.retired_performed following,
    executing.committed_eq following⟩

end Program

def afterReset : ExecutionSystem :=
  { history := { core := Core.fetched 0, log := .empty, earlier := [] }
    performed := fun _ => none }

instance (system : ExecutionSystem) (input : CoreInput) :
    Decidable (Orderly system input) :=
  Core.decidableOrderly system.history.core input

/-- One group, and then no instruction until its `jal` is found mispredicted
and rename has recovered. -/
def loads : List CoreInput :=
  Core.fetchLoad :: List.replicate 17
    { Core.fetchLoad with icache2coreDataValid := false }

theorem core_executes_in_order_load :
    (∃ performed, (loads.foldl next afterReset).performed 1 =
        some performed ∧
      performed.effect =
        ((loads.foldl next afterReset).history.retired.getD 1 0).perform
          performed.answer ((loads.foldl next afterReset).inOrder 1)) ∧
      (loads.foldl next afterReset).history.committed.length = 4 ∧
      ∀ way, (loads.foldl next afterReset).history.core.backEnd.rfInt way
        ((loads.foldl next afterReset).history.core.frontEnd.rr.rRat 3) =
          45 := by
  have reset : Run Start next Orderly afterReset :=
    .start ⟨⟨⟨_, _, rfl, rfl⟩, rfl, rfl⟩, rfl⟩
  have run := reset.through
    (by decide +kernel : Permitted next Orderly afterReset loads)
  have four : (loads.foldl next afterReset).history.committed.length = 4 := by
    decide +kernel
  have sum : (loads.foldl next afterReset).inOrder 4 3 = 45 := by
    decide +kernel
  rcases core_executes_in_order run with ⟨each, registers⟩
  have inside : 1 < (loads.foldl next afterReset).history.retired.length :=
    Nat.lt_of_lt_of_le (by rw [four]; decide)
      (loads.foldl next afterReset).history.committed_le
  rcases each 1 _ (List.getElem?_eq_getElem inside) with
    ⟨performed, known, -, effect⟩
  rw [four] at registers
  refine ⟨⟨performed, known, ?_⟩, four, fun way => ?_⟩
  · rw [List.getD_eq_getElem _ _ inside]
    exact effect
  · exact (registers way 3).trans sum

end ExecutionSystem

end Ria
