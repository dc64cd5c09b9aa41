import Ria.Backend.UopTracking

/-!
# Operand delivery

When the environment of the back end keeps the promises of the RAT and of the
ROB, every uop that an issue queue selects finds in the register file, one
cycle later, what the last writer of its operand has written back.
-/

namespace Ria

open Hdl

namespace DeliverySystem

section Signals

variable (system : DeliverySystem) (input : DeliveryInput)

/-- What the RAT and the ROB guarantee about a group.  The destination is not
that of a uop in flight, and every older reader of it has been issued; the
last writer of an operand, earlier lanes included, is not a squashed uop. -/
structure Renamed : Prop where
  oneCycle : ∀ i, (system.group input i).valid = true →
    (system.group input i).OneCycle
  distinct : ∀ i prf, (system.group input i).writesPrf prf = true →
    (∀ number, ¬ system.log.Pending number prf) ∧
      ∀ j < i, (system.group input j).writesPrf prf = false
  released : ∀ i prf, (system.group input i).writesPrf prf = true →
    ∀ uop ∈ (system.next input).backEnd.unissued,
      uop.tag < (system.group input i).tag → ¬ uop.Reads prf
  sources : ∀ i prf, (system.group input i).valid = true →
    (system.group input i).Reads prf → prf ≠ 0 → ∀ producer,
      latest ((system.log.dispatch (system.group input)).writes prf)
          (system.group input i).tag = some producer →
        system.log.squashed producer = false

/-- The cycles of a run after its reset.  A uop that a recovery keeps has
been written back. -/
structure Allowed : Prop where
  running : input.reset = false
  dataValid : input.dcacheDataValid = true
  renamed : input.clear = false → system.Renamed input
  recovered : input.clear = true → ∀ number prf,
    (system.writeBack input).Pending number prf → input.squashFrom ≤ number

end Signals

theorem Allowed.steady {system : DeliverySystem} {input : DeliveryInput}
    (allowed : system.Allowed input) : system.Steady input :=
  ⟨allowed.running, allowed.dataValid,
    fun clear => (allowed.renamed clear).oneCycle⟩

/-! ## The invariant -/

/-- Until a reader is issued, its register is given to no other uop. -/
structure Waiting (log : OperandLog) (reader : Nat) (prf : PrfIndex) :
    Prop where
  later : ∀ number, reader < number → log.writes prf number = false
  producer : ∀ number, latest (log.writes prf) reader = some number →
    log.squashed number = false

/-- While a reader is in the RF stage, its producer has written and no later
writer does. -/
structure Reading (log : OperandLog) (wbUops : Fin 4 → MicroOp)
    (reader : Nat) (prf : PrfIndex) : Prop where
  later : ∀ number, reader < number → log.writes prf number = true →
    log.value number = none ∧
      ∀ way, (wbUops way).valid = true → (wbUops way).tag ≠ number
  producer : ∀ number, latest (log.writes prf) reader = some number →
    log.squashed number = false ∧ log.value number ≠ none

structure Delivering (system : DeliverySystem) : Prop where
  flowing : system.backEnd.Flowing
  isOpen : ∀ uop ∈ system.inFlight, Open system.log uop
  nodup : (system.inFlight.map MicroOp.tag).Nodup
  oneCycle : ∀ number, (system.log.uop number).valid = true →
    (system.log.uop number).OneCycle
  scoreboard : ∀ number prf, system.log.Pending number prf →
    system.backEnd.sbInt prf = true
  last : ∀ number prf, system.log.Pending number prf →
    ∀ later, number < later → system.log.writes prf later = false
  waiting : ∀ uop ∈ system.backEnd.unissued, ∀ prf, uop.Reads prf →
    prf ≠ 0 → Waiting system.log uop.tag prf
  reading : ∀ uop ∈ uopsOf system.backEnd.rfIntUopIn, ∀ prf,
    uop.Reads prf → prf ≠ 0 →
    Reading system.log system.backEnd.exUopOut uop.tag prf
  registers : ∀ way prf, prf ≠ 0 →
    system.backEnd.rfInt way prf = system.log.content prf
  fresh : ∀ number, system.log.count ≤ number →
    system.log.value number = none ∧ system.log.squashed number = false

/-! ## A cycle -/

section Cycle

variable {system : DeliverySystem} {input : DeliveryInput}

theorem of_flush (backEnd : BackEnd) (input : BackEndInput)
    (flush : (input.reset || input.clear) = true)
    (emptied : system.backEnd = backEnd.next input)
    (tracked : Tracked system)
    (settled : ∀ number prf, ¬ system.log.Pending number prf)
    (registers : ∀ way prf, prf ≠ 0 →
      system.backEnd.rfInt way prf = system.log.content prf) :
    Delivering system := by
  have rf : (backEnd.next input).rfIntUopIn = noUops := if_pos flush
  have unissued : (backEnd.next input).unissued = 0 :=
    BackEnd.unissued_of_flush flush
  refine
    { flowing := tracked.flowing, isOpen := tracked.isOpen
      nodup := tracked.nodup, oneCycle := tracked.oneCycle
      scoreboard := ?_, last := ?_, waiting := ?_, reading := ?_
      registers := registers, fresh := tracked.fresh }
  · exact fun number prf pending => absurd pending (settled number prf)
  · exact fun number prf pending => absurd pending (settled number prf)
  · rw [emptied, unissued]
    exact fun uop member => absurd member (Multiset.notMem_zero uop)
  · rw [emptied, rf, uopsOf_noUops]
    exact fun uop member => absurd member (Multiset.notMem_zero uop)

namespace Delivering

variable (delivering : Delivering system)

include delivering

theorem tracked : Tracked system :=
  { flowing := delivering.flowing, isOpen := delivering.isOpen
    nodup := delivering.nodup, oneCycle := delivering.oneCycle
    fresh := delivering.fresh }

/-- Two uops that are to write one register are the same. -/
theorem pending_unique {prf : PrfIndex} {one other : Nat}
    (onePending : system.log.Pending one prf)
    (otherPending : system.log.Pending other prf) : one = other := by
  rcases Nat.lt_trichotomy one other with before | same | after
  · have silent := delivering.last _ _ onePending _ before
    rw [otherPending.writes] at silent
    cases silent
  · exact same
  · have silent := delivering.last _ _ otherPending _ after
    rw [onePending.writes] at silent
    cases silent

theorem pending_of_ports {cycle : BackEndInput} {prf : PrfIndex}
    {way : Fin 4}
    (writes : (system.backEnd.rdPorts cycle).Writes way prf) :
    (system.backEnd.exUopOut way).valid = true ∧
      system.log.Pending (system.backEnd.exUopOut way).tag prf := by
  obtain ⟨valid, isOpen, logged⟩ := delivering.tracked.of_ports writes
  exact ⟨valid, logged, isOpen.unwritten, isOpen.kept⟩

/-! ### The write-back of a cycle -/

/-- A uop still pending after the cycle was so before it, and no way writes
its register. -/
theorem pending_writeBack {number : Nat} {prf : PrfIndex}
    (pending : (system.writeBack input).Pending number prf) :
    system.log.Pending number prf ∧ ∀ way,
      ¬ (system.backEnd.rdPorts (system.backEndInput input)).Writes way prf := by
  have before :=
    OperandLog.pending_of_writeBack delivering.tracked.wb_apart pending
  refine ⟨before, ?_⟩
  intro way writes
  obtain ⟨valid, same⟩ := delivering.pending_of_ports writes
  obtain rfl := delivering.pending_unique before same
  have written : (system.writeBack input).value _ = some _ :=
    delivering.tracked.value_of_wb valid
  rw [pending.unwritten] at written
  cases written

theorem registers_next {way : Fin 4} {prf : PrfIndex} (nonzero : prf ≠ 0)
    (running : input.reset = false) :
    (system.next input).backEnd.rfInt way prf =
      (system.writeBack input).content prf := by
  change PrfIntData.next _ input.reset _ way prf = _
  rw [running]
  by_cases written : ∃ i,
      (system.backEnd.rdPorts (system.backEndInput input)).Writes i prf
  · obtain ⟨i, writes⟩ := written
    obtain ⟨valid, pending⟩ := delivering.pending_of_ports writes
    have content : (system.writeBack input).content prf =
        system.backEnd.exRdDataOut (system.backEndInput input) i :=
      OperandLog.content_of_last pending.writes
        (delivering.tracked.value_of_wb valid) (delivering.last _ _ pending)
    rw [content]
    refine PrfIntData.next_of_write way nonzero ?_ writes
    intro j other
    obtain ⟨otherValid, otherPending⟩ := delivering.pending_of_ports other
    have same := delivering.pending_unique otherPending pending
    rw [delivering.tracked.wb_apart j i otherValid valid same]
    rfl
  · have idle := not_exists.mp written
    rw [PrfIntData.next_of_idle way idle, delivering.registers way prf nonzero]
    symm
    refine OperandLog.content_congr rfl (fun _ => rfl) ?_
    intro number writes
    refine OperandLog.value_writeBack_of_idle fun i valid same => ?_
    subst same
    have isOpen := delivering.isOpen _ (mem_inFlight_of_wb valid)
    obtain ⟨-, rdValid, index⟩ := MicroOp.writesPrf_iff.mp writes
    obtain ⟨sameValid, sameIndex⟩ := isOpen.destination
    exact idle i ⟨sameValid.symm.trans rdValid, sameIndex.symm.trans index⟩

/-! ### The uops selected -/

/-- A uop is issued when its producer has written. -/
theorem producer_written {uop : MicroOp} {prf : PrfIndex}
    (member : uop ∈ system.backEnd.unissued) (reads : uop.Reads prf)
    (nonzero : prf ≠ 0)
    (released : system.backEnd.Released (system.backEndInput input) uop)
    {producer : Nat}
    (found : latest (system.log.writes prf) uop.tag = some producer) :
    (system.writeBack input).squashed producer = false ∧
      (system.writeBack input).value producer ≠ none := by
  have kept := (delivering.waiting uop member prf reads nonzero).producer
    producer found
  refine ⟨kept, fun unwritten => ?_⟩
  have pending : (system.writeBack input).Pending producer prf :=
    ⟨(latest_eq_some.mp found).2.1, unwritten, kept⟩
  obtain ⟨before, idle⟩ := delivering.pending_writeBack pending
  have busy := delivering.scoreboard producer prf before
  rcases ScoreboardInt.ready_of_busy nonzero (released prf reads) with
    ready | ⟨way, writes⟩
  · rw [busy] at ready
    cases ready
  · exact idle way writes

/-! ### A cycle without recovery -/

section Dispatch

variable (allowed : system.Allowed input) (clear : input.clear = false)

include allowed clear

omit delivering allowed in
theorem pending_next {number : Nat} {prf : PrfIndex}
    (pending : (system.next input).log.Pending number prf) :
    (system.writeBack input).Pending number prf ∨
      ∃ i : Fin 4, number = system.log.count + i.val ∧
        (system.group input i).writesPrf prf = true := by
  rw [next_log clear] at pending
  rcases OperandLog.writes_dispatch_cases pending.writes with
    ⟨-, writes⟩ | new
  · exact .inl ⟨writes, pending.unwritten, pending.kept⟩
  · exact .inr new

omit delivering allowed in
theorem writes_next {number : Nat} {prf : PrfIndex}
    (writes : (system.next input).log.writes prf number = true) :
    number < system.log.count ∧ system.log.writes prf number = true ∨
      ∃ i : Fin 4, number = system.log.count + i.val ∧
        (system.group input i).writesPrf prf = true := by
  rw [next_log clear] at writes
  exact OperandLog.writes_dispatch_cases writes

theorem scoreboard_next {number : Nat} {prf : PrfIndex}
    (pending : (system.next input).log.Pending number prf) :
    (system.next input).backEnd.sbInt prf = true := by
  refine (sbInt_next allowed.steady clear).mpr ?_
  rcases pending_next clear pending with old | ⟨i, -, writes⟩
  · obtain ⟨before, quiet⟩ := delivering.pending_writeBack old
    exact ⟨.inl (delivering.scoreboard number prf before), quiet⟩
  · refine ⟨.inr ⟨i, (MicroOp.writesPrf_iff.mp writes).2⟩, ?_⟩
    intro way other
    obtain ⟨-, before⟩ := delivering.pending_of_ports other
    exact ((allowed.renamed clear).distinct i prf writes).1 _ before

theorem last_next {number later : Nat} {prf : PrfIndex}
    (pending : (system.next input).log.Pending number prf)
    (after : number < later) :
    (system.next input).log.writes prf later = false := by
  refine Bool.eq_false_iff.mpr fun writes => ?_
  rcases writes_next clear writes with ⟨-, old⟩ | ⟨j, rfl, other⟩
  · rcases pending_next clear pending with pending | ⟨i, rfl, -⟩
    · have silent := delivering.last number prf
        (delivering.pending_writeBack pending).1 later after
      rw [old] at silent
      cases silent
    · have within := OperandLog.lt_of_writes old
      omega
  · have distinct := (allowed.renamed clear).distinct j prf other
    rcases pending_next clear pending with pending | ⟨i, rfl, writes⟩
    · exact distinct.1 number (delivering.pending_writeBack pending).1
    · have silent := distinct.2 i (by omega)
      rw [writes] at silent
      cases silent

omit delivering allowed in
theorem producer_next {reader producer : Nat} {prf : PrfIndex}
    (old : reader ≤ system.log.count)
    (found : latest ((system.next input).log.writes prf) reader =
      some producer) :
    latest (system.log.writes prf) reader = some producer := by
  rw [next_log clear] at found
  exact (OperandLog.latest_dispatch old).symm.trans found

theorem waiting_next {uop : MicroOp} {prf : PrfIndex}
    (member : uop ∈ (system.next input).backEnd.unissued)
    (reads : uop.Reads prf) (nonzero : prf ≠ 0) :
    Waiting (system.next input).log uop.tag prf := by
  have renamed := allowed.renamed clear
  have entered : uop ∈ system.backEnd.unissued ∨
      ∃ i, system.group input i = uop ∧ uop.valid = true := by
    have flow := delivering.tracked.flow allowed.steady clear
    have before := Multiset.mem_of_le flow (Multiset.mem_add.mpr (.inl member))
    rcases Multiset.mem_add.mp before with old | new
    · exact .inl old
    · exact .inr (mem_uopsOf.mp new)
  constructor
  · intro later after
    refine Bool.eq_false_iff.mpr fun writes => ?_
    rcases writes_next clear writes with ⟨within, old⟩ | ⟨j, rfl, new⟩
    · rcases entered with waiting | ⟨i, rfl, -⟩
      · have silent :=
          (delivering.waiting uop waiting prf reads nonzero).later later after
        rw [old] at silent
        cases silent
      · rw [group_tag] at after
        omega
    · exact renamed.released j prf new uop member after reads
  · intro producer found
    rw [next_log clear]
    change system.log.squashed producer = false
    rcases entered with waiting | ⟨i, rfl, valid⟩
    · have old : uop.tag ≤ system.log.count :=
        le_of_lt (delivering.isOpen uop (by simp [inFlight, waiting])).tag_lt
      exact (delivering.waiting uop waiting prf reads nonzero).producer
        producer (producer_next clear old found)
    · rw [next_log clear] at found
      exact renamed.sources i prf valid reads nonzero producer found

theorem reading_next {uop : MicroOp} {prf : PrfIndex}
    (member : uop ∈ uopsOf (system.selected input))
    (reads : uop.Reads prf) (nonzero : prf ≠ 0) :
    Reading (system.next input).log (system.next input).backEnd.exUopOut
      uop.tag prf := by
  obtain ⟨way, rfl, valid⟩ := mem_uopsOf.mp member
  obtain ⟨unissued, released⟩ := delivering.flowing.selected valid
  constructor
  · intro later after writes
    rcases writes_next clear writes with ⟨-, old⟩ | ⟨j, rfl, -⟩
    · have silent :=
        (delivering.waiting _ unissued prf reads nonzero).later later after
      rw [old] at silent
      cases silent
    · have fresh :=
        delivering.tracked.fresh_next clear (Nat.le_add_right _ j.val)
      refine ⟨fresh.1, ?_⟩
      intro other writing same
      obtain ⟨before, unresolved⟩ :=
        delivering.tracked.wb_next allowed.steady clear writing
      have tag := MicroOp.agree unresolved MicroOp.tag fun _ => rfl
      have within := (delivering.isOpen (system.backEnd.exUopIn other)
        (by simp [inFlight, mem_uopsOf.mpr ⟨other, rfl, before⟩])).tag_lt
      omega
  · intro producer found
    have old : (system.selected input way).tag ≤ system.log.count :=
      le_of_lt (delivering.isOpen _ (by
        simp only [inFlight, Multiset.mem_add]
        exact .inl (.inl (.inl unissued)))).tag_lt
    rw [next_log clear]
    exact delivering.producer_written unissued reads nonzero released
      (producer_next clear old found)

theorem next_of_dispatch : Delivering (system.next input) := by
  have tracked := delivering.tracked.next allowed.steady
  have rf := (next_stages allowed.steady clear).1
  refine
    { flowing := tracked.flowing, isOpen := tracked.isOpen
      nodup := tracked.nodup, oneCycle := tracked.oneCycle
      scoreboard := ?_, last := ?_, waiting := ?_, reading := ?_
      registers := ?_, fresh := tracked.fresh }
  · exact fun _ _ => delivering.scoreboard_next allowed clear
  · exact fun _ _ pending _ => delivering.last_next allowed clear pending
  · exact fun _ member _ => delivering.waiting_next allowed clear member
  · intro uop member prf
    rw [rf] at member
    exact delivering.reading_next allowed clear member
  · intro way prf nonzero
    rw [delivering.registers_next nonzero allowed.running, next_log clear,
      OperandLog.content_dispatch]
    intro number new
    have fresh := (delivering.tracked.fresh_next clear new).1
    rwa [next_log clear] at fresh

end Dispatch

/-! ### A recovery -/

theorem next_of_recovery (allowed : system.Allowed input)
    (clear : input.clear = true) : Delivering (system.next input) := by
  have cleared : (system.backEndInput input).clear = true := clear
  have log : (system.next input).log =
      (system.writeBack input).squash input.squashFrom := if_pos clear
  refine of_flush system.backEnd (system.backEndInput input)
    (by rw [cleared, Bool.or_true]) rfl
    (delivering.tracked.next allowed.steady) ?_ ?_
  · intro number prf pending
    rw [log] at pending
    have kept := pending.kept
    simp only [OperandLog.squash, Bool.or_eq_false_iff,
      decide_eq_false_iff_not] at kept
    have older := allowed.recovered clear number prf
      ⟨pending.writes, pending.unwritten, kept.1⟩
    exact kept.2 ⟨older, OperandLog.lt_of_writes pending.writes⟩
  · intro way prf nonzero
    rw [delivering.registers_next nonzero allowed.running, log]
    rfl

end Delivering

end Cycle

/-! ## Runs -/

theorem Start.delivering {system : DeliverySystem} (start : Start system) :
    Delivering system := by
  have tracked := start.tracked
  obtain ⟨backEnd, input, reset, rfl⟩ := start
  refine of_flush backEnd input (by rw [reset, Bool.true_or]) rfl tracked
    ?_ ?_
  · intro number prf pending
    have within := OperandLog.lt_of_writes pending.writes
    cases within
  · intro way prf nonzero
    change PrfIntData.next _ input.reset _ way prf = 0
    rw [reset]
    rfl

theorem delivering_of_run {system : DeliverySystem}
    (run : Run Start next Allowed system) : Delivering system := by
  refine run.invariant Delivering (fun _ start => start.delivering) ?_
  intro system input delivering allowed
  cases clear : input.clear with
  | false => exact delivering.next_of_dispatch allowed clear
  | true => exact delivering.next_of_recovery allowed clear

theorem Delivering.read_eq {system : DeliverySystem}
    (delivering : Delivering system) {way : Fin 4} {prf : PrfIndex}
    (valid : (system.backEnd.rfIntUopIn way).valid = true)
    (reads : (system.backEnd.rfIntUopIn way).Reads prf)
    (later : BackEndInput) :
    system.log.expected (system.backEnd.rfIntUopIn way).tag prf =
      some (system.backEnd.rfInt.read (system.backEnd.rdPorts later) way
        prf) := by
  have member : system.backEnd.rfIntUopIn way ∈
      uopsOf system.backEnd.rfIntUopIn := mem_uopsOf.mpr ⟨way, rfl, valid⟩
  have isOpen := delivering.isOpen _ (by
    simp only [inFlight, Multiset.mem_add]
    exact .inl (.inl (.inr member)))
  by_cases zero : prf = 0
  · rw [zero, PrfIntData.read_zero]
    rfl
  · have reading := delivering.reading _ member prf reads zero
    have idle : ∀ j, ¬ (system.backEnd.rdPorts later).Writes j prf := by
      intro j writes
      obtain ⟨writing, pending⟩ := delivering.pending_of_ports writes
      rcases Nat.lt_trichotomy (system.backEnd.exUopOut j).tag
          (system.backEnd.rfIntUopIn way).tag with before | same | after
      · have found := latest_eq_some.mpr ⟨before, pending.writes,
          fun number above _ => delivering.last _ _ pending number above⟩
        exact (reading.producer _ found).2 pending.unwritten
      · refine delivering.tracked.wb_other ?_ writing same
        exact Multiset.mem_add.mpr (.inl (Multiset.mem_add.mpr (.inr member)))
      · exact (reading.later _ after pending.writes).2 j writing rfl
    rw [PrfIntData.read_of_idle way idle, if_pos zero,
      delivering.registers way prf zero]
    refine OperandLog.expected_eq_content zero (le_of_lt isOpen.tag_lt) ?_
      reading.producer
    intro number from_ writes
    rcases Nat.lt_or_eq_of_le from_ with after | same
    · exact (reading.later number after writes).1
    · exact same ▸ isOpen.unwritten

/-- Every uop that is selected reads, one cycle later, what the last writer of
its operand before it has written back by then. -/
theorem issued_uops_read_producers {system : DeliverySystem}
    (run : Run Start next Allowed system) {input : DeliveryInput}
    (allowed : system.Allowed input) {way : Fin 4}
    (issued : (system.selected input way).valid = true) :
    let uop := system.selected input way
    let log := system.writeBack input
    (log.uop uop.tag).unresolved = uop.unresolved ∧
      (∀ prf, uop.Reads prf → (log.expected uop.tag prf).isSome = true) ∧
      (input.clear = false →
        (system.next input).backEnd.rfIntUopIn way = uop ∧
          ∀ later, (uop.rs1Source = .fromRf →
              log.expected uop.tag uop.rs1PrfIntIndex =
                some ((system.next input).backEnd.rfRs1DataOut later way)) ∧
            (uop.rs2Source = .fromRf →
              log.expected uop.tag uop.rs2PrfIntIndex =
                some ((system.next input).backEnd.rfRs2DataOut later way))) := by
  have delivering := delivering_of_run run
  obtain ⟨unissued, released⟩ := delivering.flowing.selected issued
  have isOpen := delivering.isOpen (system.selected input way) (by
    simp only [inFlight, Multiset.mem_add]
    exact .inl (.inl (.inl unissued)))
  intro uop log
  refine ⟨isOpen.same, ?_, ?_⟩
  · intro prf reads
    refine OperandLog.expected_isSome fun nonzero producer found => ?_
    exact delivering.producer_written unissued reads nonzero released found
  · intro clear
    have rf : (system.next input).backEnd.rfIntUopIn way = uop :=
      congrFun (next_stages allowed.steady clear).1 way
    have after := delivering.next_of_dispatch allowed clear
    have within : uop.tag ≤ log.count := le_of_lt isOpen.tag_lt
    have reading : ∀ prf, uop.Reads prf → ∀ later,
        log.expected uop.tag prf =
          some ((system.next input).backEnd.rfInt.read
            ((system.next input).backEnd.rdPorts later) way prf) := by
      intro prf reads later
      have delivered := after.read_eq (rf ▸ issued) (rf ▸ reads) later
      rw [rf, next_log clear,
        OperandLog.expected_dispatch within] at delivered
      exact delivered
    refine ⟨rf, fun later => ⟨?_, ?_⟩⟩
    · intro source
      rw [reading _ (.inl ⟨source, rfl⟩) later, BackEnd.rfRs1DataOut, rf,
        prfIntRs1Data, source]
      rfl
    · intro source
      rw [reading _ (.inr ⟨source, rfl⟩) later, BackEnd.rfRs2DataOut, rf,
        prfIntRs2Data, source]
      rfl

/-- `addi` from one physical register into another. -/
def addi (rs rd : PrfIndex) (imm : Word) : MicroOp :=
  { (0 : MicroOp) with
    iqCode := .int, fuCode := .alu, aluType := .add, imm := imm
    rs1Source := .fromRf, rs1PrfIntIndex := rs, rs2Source := .fromImm
    rdArfIntIndex := 1, rdPrfIntIndex := rd, rdValid := true, valid := true }

/-- A cycle that dispatches `p1 := p0 + 5`, or nothing. -/
def dispatchAddi (present : Bool) : DeliveryInput :=
  { reset := false, clear := false, squashFrom := 0
    dcacheData := 0, dcacheDataValid := true
    dpUopsIn := fun i => if present = true ∧ i = 0 then addi 0 1 5 else 0 }

/-- A cycle that dispatches `p1 := p0 + 7` and `p2 := p1 + 1`. -/
def dispatchChain : DeliveryInput :=
  { dispatchAddi false with
    dpUopsIn := fun i =>
      if i = 0 then addi 0 1 7 else if i = 1 then addi 1 2 1 else 0 }

/-- A recovery that squashes whatever was dispatched. -/
def recoverAll : DeliveryInput :=
  { dispatchAddi false with clear := true }

def idleFor : Nat → DeliverySystem → DeliverySystem
  | 0, system => system
  | cycles + 1, system => (idleFor cycles system).next (dispatchAddi false)

def addiStart : DeliverySystem :=
  { backEnd := BackEnd.zeros.next { dispatchAddi false with reset := true }
    log := .empty }

/-- The state after a recovery.  The squashed `addi` has left 5 in `p1`. -/
def addiSquashed : DeliverySystem :=
  (idleFor 5 (addiStart.next (dispatchAddi true))).next recoverAll

theorem allowed_idle (system : DeliverySystem) :
    system.Allowed (dispatchAddi false) := by
  refine ⟨rfl, rfl, fun _ => ?_, fun never => by cases never⟩
  refine ⟨?_, ?_, ?_, ?_⟩
  · intro i valid
    cases valid
  · intro i prf writes
    cases writes
  · intro i prf writes
    cases writes
  · intro i prf valid
    cases valid

theorem run_idleFor {system : DeliverySystem}
    (run : Run Start next Allowed system) (cycles : Nat) :
    Run Start next Allowed (idleFor cycles system) := by
  induction cycles with
  | zero => exact run
  | succ cycles induction => exact .step _ induction (allowed_idle _)

theorem allowed_addi : addiStart.Allowed (dispatchAddi true) := by
  refine ⟨rfl, rfl, fun _ => ?_, fun never => by cases never⟩
  have lane : ∀ i, ((dispatchAddi true).dpUopsIn i).valid = true → i = 0 := by
    decide
  refine ⟨?_, ?_, ?_, ?_⟩
  · intro i valid
    obtain rfl := lane i valid
    exact .inl rfl
  · intro i prf writes
    obtain rfl := lane i (MicroOp.writesPrf_iff.mp writes).1
    refine ⟨fun number pending => ?_, fun j earlier => absurd earlier
      (Fin.not_lt_zero j)⟩
    exact absurd (OperandLog.lt_of_writes pending.writes) (Nat.not_lt_zero _)
  · intro i prf writes uop _ earlier
    obtain rfl := lane i (MicroOp.writesPrf_iff.mp writes).1
    exact absurd earlier (Nat.not_lt_zero _)
  · intro i prf valid reads nonzero
    obtain rfl := lane i valid
    rcases reads with ⟨-, same⟩ | ⟨source, -⟩
    · exact absurd same.symm nonzero
    · cases source

theorem squashed_recoverAll {system : DeliverySystem} {number : Nat}
    (within : number < (system.next recoverAll).log.count) :
    (system.next recoverAll).log.squashed number = true := by
  have chosen : recoverAll.squashFrom ≤ number ∧
      number < (system.writeBack recoverAll).count := ⟨Nat.zero_le _, within⟩
  change (_ || decide _) = true
  rw [decide_eq_true chosen, Bool.or_true]

theorem allowed_recoverAll (system : DeliverySystem) :
    system.Allowed recoverAll :=
  { running := rfl
    dataValid := rfl
    renamed := fun never => nomatch never
    recovered := fun _ _ _ _ => Nat.zero_le _ }

/-- The second lane reads what the first writes, whoever wrote `p1` before the
recovery. -/
theorem allowed_chain {system : DeliverySystem}
    (run : Run Start next Allowed system) :
    (system.next recoverAll).Allowed dispatchChain := by
  have before := delivering_of_run run
  have delivering := before.next_of_recovery (allowed_recoverAll system) rfl
  have settled : ∀ number prf,
      ¬ (system.next recoverAll).log.Pending number prf := by
    intro number prf pending
    have within := OperandLog.lt_of_writes pending.writes
    have kept := pending.kept
    rw [squashed_recoverAll within] at kept
    cases kept
  have empty : (system.next recoverAll).backEnd.unissued = 0 :=
    BackEnd.unissued_of_flush rfl
  have lane : ∀ i, (dispatchChain.dpUopsIn i).valid = true → i = 0 ∨ i = 1 := by
    decide
  have oneCycle : ∀ i,
      ((system.next recoverAll).group dispatchChain i).valid = true →
        ((system.next recoverAll).group dispatchChain i).OneCycle := by
    intro i valid
    rcases lane i valid with rfl | rfl
    · exact .inl rfl
    · exact .inl rfl
  -- Only the second lane has an operand in the register file, `p1` by name.
  have operand : ∀ i prf, (dispatchChain.dpUopsIn i).valid = true →
      (dispatchChain.dpUopsIn i).Reads prf → prf ≠ 0 → i = 1 ∧ prf = 1 := by
    intro i prf valid reads nonzero
    rcases lane i valid with rfl | rfl
    · rcases reads with ⟨-, same⟩ | ⟨source, -⟩
      · exact absurd same.symm nonzero
      · cases source
    · rcases reads with ⟨-, same⟩ | ⟨source, -⟩
      · exact ⟨rfl, same.symm⟩
      · cases source
  refine ⟨rfl, rfl, fun _ => ⟨oneCycle, ?_, ?_, ?_⟩, fun never => nomatch never⟩
  · intro i prf writes
    refine ⟨fun number => settled number prf, fun j earlier => ?_⟩
    obtain ⟨valid, -, index⟩ := MicroOp.writesPrf_iff.mp writes
    rcases lane i valid with rfl | rfl
    · exact absurd earlier (Fin.not_lt_zero j)
    · obtain rfl : j = 0 := by omega
      obtain rfl : 2 = prf := index
      rfl
  · intro i prf writes uop member earlier reads
    have steady : (system.next recoverAll).Steady dispatchChain :=
      ⟨rfl, rfl, fun _ => oneCycle⟩
    have queued := Multiset.mem_of_le (delivering.tracked.flow steady rfl)
      (Multiset.mem_add.mpr (.inl member))
    rw [empty, zero_add] at queued
    obtain ⟨j, rfl, valid⟩ := mem_uopsOf.mp queued
    obtain ⟨later, -, index⟩ := MicroOp.writesPrf_iff.mp writes
    have nonzero : prf ≠ 0 := by
      rcases lane i later with rfl | rfl
      · exact index ▸ (by decide : (1 : PrfIndex) ≠ 0)
      · exact index ▸ (by decide : (2 : PrfIndex) ≠ 0)
    obtain ⟨rfl, -⟩ := operand j prf valid reads nonzero
    rw [group_tag, group_tag] at earlier
    rcases lane i later with rfl | rfl <;> omega
  · intro i prf valid reads nonzero producer found
    obtain ⟨rfl, rfl⟩ := operand i prf valid reads nonzero
    have first : latest
        (((system.next recoverAll).log.dispatch
          ((system.next recoverAll).group dispatchChain)).writes 1)
        ((system.next recoverAll).group dispatchChain 1).tag =
          some (system.next recoverAll).log.count := by
      refine latest_eq_some.mpr ⟨Nat.lt_succ_self _, ?_, ?_⟩
      · exact congrArg (MicroOp.writesPrf · 1) (OperandLog.uop_dispatch_new 0)
      · intro later above below
        rw [group_tag] at below
        omega
    obtain rfl := Option.some.inj (first.symm.trans found)
    exact (delivering.fresh _ (Nat.le_refl _)).2

theorem issued_uops_read_producers_addi :
    let system := idleFor 4 (addiSquashed.next dispatchChain)
    let uop := system.selected (dispatchAddi false) 0
    uop.rs1PrfIntIndex = 1 ∧
      (system.writeBack (dispatchAddi false)).expected uop.tag 1 = some 7 ∧
      (system.writeBack (dispatchAddi false)).expected uop.tag
          uop.rs1PrfIntIndex =
        some ((system.next (dispatchAddi false)).backEnd.rfRs1DataOut
          (dispatchAddi false).toBackEndInput 0) := by
  intro system uop
  have squashed : Run Start next Allowed
      (idleFor 5 (addiStart.next (dispatchAddi true))) :=
    run_idleFor (.step _ (.start ⟨_, _, rfl, rfl⟩) allowed_addi) 5
  have recovered : Run Start next Allowed addiSquashed :=
    .step _ squashed (allowed_recoverAll _)
  have run : Run Start next Allowed system :=
    run_idleFor (.step _ recovered (allowed_chain squashed)) 4
  refine ⟨by decide +kernel, by decide +kernel, ?_⟩
  have issued : (system.selected (dispatchAddi false) 0).valid = true := by
    decide +kernel
  have source : uop.rs1Source = .fromRf := by
    decide +kernel
  exact ((issued_uops_read_producers run (allowed_idle _) issued).2.2 rfl).2
    (dispatchAddi false).toBackEndInput |>.1 source

end DeliverySystem

end Ria
