import Ria.Backend.OperandDelivery

/-!
# The scoreboard is exact

A bit of the scoreboard is set exactly while a uop that was dispatched owes
the register its value.  A bit left set would hang the readers of the
register, a bit cleared early would let them read an old value.
-/

namespace Ria

open Hdl

/-- The uop has `rd_valid` and the destination `prf`. -/
def MicroOp.Produces (uop : MicroOp) (prf : PrfIndex) : Prop :=
  uop.rdValid = true ∧ uop.rdPrfIntIndex = prf

namespace OperandLog

/-- The uop was dispatched with the destination `prf` and has neither been
squashed nor written back. -/
structure Outstanding (log : OperandLog) (number : Nat) (prf : PrfIndex) :
    Prop where
  produces : (log.uop number).Produces prf
  unwritten : log.value number = none
  kept : log.squashed number = false

variable {log : OperandLog} {prf : PrfIndex} {number : Nat}

theorem lt_of_produces (produces : (log.uop number).Produces prf) :
    number < log.count := by
  by_contra beyond
  rw [uop_of_le (by omega)] at produces
  cases produces.1

theorem outstanding_dispatch {group : Fin 4 → MicroOp}
    (fresh : ∀ number, log.count ≤ number →
      log.value number = none ∧ log.squashed number = false) :
    (log.dispatch group).Outstanding number prf ↔
      log.Outstanding number prf ∨
        ∃ i : Fin 4, number = log.count + i.val ∧ (group i).Produces prf := by
  constructor
  · intro outstanding
    have produces := outstanding.produces
    rcases lane_of_lt (lt_of_produces produces) with old | ⟨i, rfl⟩
    · rw [uop_dispatch_old old] at produces
      exact .inl ⟨produces, outstanding.unwritten, outstanding.kept⟩
    · rw [uop_dispatch_new] at produces
      exact .inr ⟨i, rfl, produces⟩
  · rintro (old | ⟨i, rfl, produces⟩)
    · have within := lt_of_produces old.produces
      refine ⟨?_, old.unwritten, old.kept⟩
      rw [uop_dispatch_old within]
      exact old.produces
    · obtain ⟨unwritten, kept⟩ := fresh _ (Nat.le_add_right _ i.val)
      refine ⟨?_, unwritten, kept⟩
      rw [uop_dispatch_new]
      exact produces

end OperandLog

namespace DeliverySystem

/-- A recovery squashes every uop dispatched so far. -/
def flushing (input : BackEndInput) : DeliveryInput :=
  { input with squashFrom := 0 }

/-- One clock cycle. -/
def cycle (system : DeliverySystem) (input : BackEndInput) : DeliverySystem :=
  system.next (flushing input)

/-- The cycles of a run after its reset.  The registers given to a group are
those of no uop in flight and of no other uop of the group. -/
structure Producing (system : DeliverySystem) (input : BackEndInput) :
    Prop where
  steady : system.Steady (flushing input)
  distinct : input.clear = false → ∀ i prf,
    (system.group (flushing input) i).Produces prf →
      (∀ number, ¬ system.log.Outstanding number prf) ∧
        ∀ j < i, ¬ (system.group (flushing input) j).Produces prf

/-- The answer that a slot is to get about `index`: the bit of the register,
less what is written back in the cycle.  It says whether after the cycle a
uop still owes the register its value. -/
structure Answered (system : DeliverySystem) (input : BackEndInput)
    (index : PrfIndex) (busy : Bool) : Prop where
  bit : busy = true ↔
    index ≠ 0 ∧ system.backEnd.sbInt index = true ∧
      ∀ way, (system.backEnd.exUopOut way).writesPrf index = false
  producer : busy = true ↔
    index ≠ 0 ∧ ∃ number,
      (system.writeBack (flushing input)).Outstanding number index

/-! ## The invariant -/

structure Exact (system : DeliverySystem) : Prop where
  tracked : Tracked system
  scoreboard : ∀ prf, system.backEnd.sbInt prf = true ↔
    ∃ number, system.log.Outstanding number prf
  unique : ∀ prf one other, system.log.Outstanding one prf →
    system.log.Outstanding other prf → one = other

section Cycle

variable {system : DeliverySystem} {input : BackEndInput}

theorem exact_of_flush (backEnd : BackEnd) (input : BackEndInput)
    (flush : (input.reset || input.clear) = true)
    (emptied : system.backEnd = backEnd.next input)
    (tracked : Tracked system)
    (settled : ∀ number prf, ¬ system.log.Outstanding number prf) :
    Exact system := by
  have sbInt : system.backEnd.sbInt = fun _ => false := by
    rw [emptied]
    exact if_pos flush
  refine ⟨tracked, ?_, ?_⟩
  · intro prf
    rw [sbInt]
    constructor
    · intro never
      cases never
    · rintro ⟨number, outstanding⟩
      exact absurd outstanding (settled number prf)
  · exact fun prf one other outstanding =>
      absurd outstanding (settled one prf)

/-- The ports that write a register are those of the uops written back to
it. -/
theorem Tracked.port_iff (tracked : Tracked system) {prf : PrfIndex}
    {way : Fin 4} :
    (system.backEnd.rdPorts input).Writes way prf ↔
      (system.backEnd.exUopOut way).writesPrf prf = true := by
  rw [MicroOp.writesPrf_iff]
  constructor
  · exact fun writes => ⟨(tracked.of_ports writes).1, writes⟩
  · exact fun ⟨_, writes⟩ => writes

namespace Exact

variable (exact : Exact system)

include exact

theorem outstanding_of_port {prf : PrfIndex} {way : Fin 4}
    (writes : (system.backEnd.rdPorts input).Writes way prf) :
    (system.backEnd.exUopOut way).valid = true ∧
      system.log.Outstanding (system.backEnd.exUopOut way).tag prf := by
  obtain ⟨valid, isOpen, logged⟩ := exact.tracked.of_ports writes
  exact ⟨valid, (MicroOp.writesPrf_iff.mp logged).2, isOpen.unwritten,
    isOpen.kept⟩

theorem outstanding_writeBack {number : Nat} {prf : PrfIndex}
    {cycle : DeliveryInput} :
    (system.writeBack cycle).Outstanding number prf ↔
      system.log.Outstanding number prf ∧ ∀ way,
        ¬ (system.backEnd.rdPorts (system.backEndInput cycle)).Writes
          way prf := by
  constructor
  · intro outstanding
    have idle := OperandLog.idle_of_unwritten exact.tracked.wb_apart
      outstanding.unwritten
    have before : system.log.Outstanding number prf :=
      ⟨outstanding.produces,
        (OperandLog.value_writeBack_of_idle idle).symm.trans
          outstanding.unwritten, outstanding.kept⟩
    refine ⟨before, fun way writes => ?_⟩
    obtain ⟨valid, other⟩ := exact.outstanding_of_port writes
    exact idle way valid (exact.unique prf _ _ other before)
  · rintro ⟨before, quiet⟩
    refine ⟨before.produces, ?_, before.kept⟩
    refine (OperandLog.value_writeBack_of_idle ?_).trans before.unwritten
    rintro way valid rfl
    have isOpen := exact.tracked.isOpen _ (mem_inFlight_of_wb valid)
    obtain ⟨rdValid, index⟩ := before.produces
    obtain ⟨sameValid, sameIndex⟩ := isOpen.destination
    exact quiet way
      ⟨sameValid.symm.trans rdValid, sameIndex.symm.trans index⟩

/-- A register is owed a value after the write-backs of a cycle when its bit
is set and none of them is for it. -/
theorem owed_iff {prf : PrfIndex} {cycle : DeliveryInput} :
    (∃ number, (system.writeBack cycle).Outstanding number prf) ↔
      system.backEnd.sbInt prf = true ∧ ∀ way,
        ¬ (system.backEnd.rdPorts (system.backEndInput cycle)).Writes
          way prf := by
  rw [exact.scoreboard prf]
  constructor
  · rintro ⟨number, outstanding⟩
    obtain ⟨before, quiet⟩ := exact.outstanding_writeBack.mp outstanding
    exact ⟨⟨number, before⟩, quiet⟩
  · rintro ⟨⟨number, before⟩, quiet⟩
    exact ⟨number, exact.outstanding_writeBack.mpr ⟨before, quiet⟩⟩

theorem answered (index : PrfIndex) :
    system.Answered input index (system.backEnd.sbInt.busy
      (system.backEnd.rdPorts (system.backEndInput (flushing input)))
      index) := by
  constructor
  · rw [ScoreboardInt.busy_iff]
    simp only [exact.tracked.port_iff, Bool.not_eq_true]
  · rw [ScoreboardInt.busy_iff, exact.owed_iff]

/-! ### A cycle without recovery -/

section Dispatch

variable (producing : system.Producing input) (clear : input.clear = false)

include producing clear

omit producing in
theorem outstanding_next {number : Nat} {prf : PrfIndex} :
    (system.cycle input).log.Outstanding number prf ↔
      (system.writeBack (flushing input)).Outstanding number prf ∨
        ∃ i : Fin 4, number = system.log.count + i.val ∧
          (system.group (flushing input) i).Produces prf := by
  have log : (system.cycle input).log =
      (system.writeBack (flushing input)).dispatch
        (system.group (flushing input)) := next_log clear
  rw [log]
  exact OperandLog.outstanding_dispatch
    fun number new => exact.tracked.fresh_writeBack new

theorem scoreboard_next (prf : PrfIndex) :
    (system.cycle input).backEnd.sbInt prf = true ↔
      ∃ number, (system.cycle input).log.Outstanding number prf := by
  refine (sbInt_next producing.steady clear).trans ?_
  constructor
  · rintro ⟨old | ⟨i, produces⟩, quiet⟩
    · obtain ⟨number, outstanding⟩ := exact.owed_iff.mpr ⟨old, quiet⟩
      exact ⟨number, (exact.outstanding_next clear).mpr (.inl outstanding)⟩
    · exact ⟨_, (exact.outstanding_next clear).mpr
        (.inr ⟨i, rfl, produces⟩)⟩
  · rintro ⟨number, outstanding⟩
    rcases (exact.outstanding_next clear).mp outstanding with
      old | ⟨i, -, produces⟩
    · obtain ⟨set, quiet⟩ := exact.owed_iff.mp ⟨number, old⟩
      exact ⟨.inl set, quiet⟩
    · refine ⟨.inr ⟨i, produces⟩, fun way writes => ?_⟩
      -- a bit that is set and cleared at once would stay clear
      obtain ⟨-, other⟩ := exact.outstanding_of_port writes
      exact (producing.distinct clear i prf produces).1 _ other

theorem unique_next {prf : PrfIndex} {one other : Nat}
    (first : (system.cycle input).log.Outstanding one prf)
    (second : (system.cycle input).log.Outstanding other prf) :
    one = other := by
  have apart : ∀ {number : Nat} {i : Fin 4},
      (system.writeBack (flushing input)).Outstanding number prf →
      ¬ (system.group (flushing input) i).Produces prf := by
    intro number i old produces
    exact (producing.distinct clear i prf produces).1 number
      (exact.outstanding_writeBack.mp old).1
  rcases (exact.outstanding_next clear).mp first with
    oneOld | ⟨i, rfl, oneProduces⟩ <;>
  rcases (exact.outstanding_next clear).mp second with
    otherOld | ⟨j, rfl, otherProduces⟩
  · exact exact.unique prf one other (exact.outstanding_writeBack.mp oneOld).1
      (exact.outstanding_writeBack.mp otherOld).1
  · exact absurd otherProduces (apart oneOld)
  · exact absurd oneProduces (apart otherOld)
  · rcases lt_trichotomy i j with before | rfl | after
    · exact absurd oneProduces
        ((producing.distinct clear j prf otherProduces).2 i before)
    · rfl
    · exact absurd otherProduces
        ((producing.distinct clear i prf oneProduces).2 j after)

end Dispatch

theorem next (producing : system.Producing input) :
    Exact (system.cycle input) := by
  have tracked := exact.tracked.next producing.steady
  cases clear : input.clear with
  | false =>
      exact ⟨tracked, exact.scoreboard_next producing clear,
        fun _ _ _ => exact.unique_next producing clear⟩
  | true =>
      have cleared :
          (system.backEndInput (flushing input)).clear = true := clear
      refine exact_of_flush system.backEnd
        (system.backEndInput (flushing input))
        (by rw [cleared, Bool.or_true]) rfl tracked ?_
      intro number prf outstanding
      have within := OperandLog.lt_of_produces outstanding.produces
      have kept := outstanding.kept
      have log : (system.cycle input).log =
          (system.writeBack (flushing input)).squash 0 := if_pos clear
      rw [log] at within kept
      simp only [OperandLog.squash, Bool.or_eq_false_iff,
        decide_eq_false_iff_not] at kept
      exact kept.2 ⟨Nat.zero_le _, within⟩

end Exact

end Cycle

/-! ## Runs -/

theorem Start.exact {system : DeliverySystem} (start : Start system) :
    Exact system := by
  have tracked := start.tracked
  obtain ⟨backEnd, input, reset, rfl⟩ := start
  refine exact_of_flush backEnd input (by rw [reset, Bool.true_or]) rfl
    tracked ?_
  intro number prf outstanding
  have within := OperandLog.lt_of_produces outstanding.produces
  cases within

theorem exact_of_run {system : DeliverySystem}
    (run : Run Start cycle Producing system) : Exact system :=
  run.invariant Exact (fun _ start => start.exact)
    fun _ _ exact producing => exact.next producing

/-- The scoreboard tells at every time which registers are owed a value, and
no slot of an issue queue is told otherwise. -/
theorem scoreboard_is_exact {system : DeliverySystem}
    (run : Run Start cycle Producing system) :
    (∀ prf, system.backEnd.sbInt prf = true ↔
      ∃ number, system.log.Outstanding number prf) ∧
    ∀ input : BackEndInput,
      let backEnd := system.backEnd
      let signals := system.backEndInput (flushing input)
      (∀ k, system.Answered input
          (backEnd.iqInt.rs1Index backEnd.dpIs.out.1 backEnd.loadEn k)
          ((backEnd.intBusy signals).rs1Busy k) ∧
        system.Answered input
          (backEnd.iqInt.rs2Index backEnd.dpIs.out.1 backEnd.loadEn k)
          ((backEnd.intBusy signals).rs2Busy k)) ∧
      ∀ k, system.Answered input (backEnd.iqMem.slots k).rs1Index
          ((backEnd.memBusy signals).rs1Busy k) ∧
        system.Answered input (backEnd.iqMem.slots k).rs2Index
          ((backEnd.memBusy signals).rs2Busy k) := by
  have exact := exact_of_run run
  refine ⟨exact.scoreboard, fun input => ⟨?_, ?_⟩⟩
  · exact fun k => ⟨exact.answered _, exact.answered _⟩
  · exact fun k => ⟨exact.answered _, exact.answered _⟩

/-- The `addi` dispatched, and as many idle cycles. -/
def addiDispatched (cycles : Nat) : DeliverySystem :=
  idleFor cycles (cycle addiStart (dispatchAddi true).toBackEndInput)

theorem producing_idle {system : DeliverySystem} :
    system.Producing (dispatchAddi false).toBackEndInput := by
  refine ⟨⟨rfl, rfl, fun _ i valid => ?_⟩, fun _ i prf produces => ?_⟩
  · cases valid
  · cases produces.1

theorem producing_addi :
    addiStart.Producing (dispatchAddi true).toBackEndInput := by
  have lane : ∀ i, ((dispatchAddi true).dpUopsIn i).rdValid = true → i = 0 := by
    decide
  have alu : ∀ i, ((dispatchAddi true).dpUopsIn i).valid = true →
      ((dispatchAddi true).dpUopsIn i).fuCode = .alu := by
    decide
  refine ⟨⟨rfl, rfl, fun _ i valid => .inl (alu i valid)⟩, fun _ => ?_⟩
  intro i prf produces
  obtain rfl := lane i produces.1
  refine ⟨fun number outstanding => ?_, fun j earlier => absurd earlier
    (Fin.not_lt_zero j)⟩
  exact absurd (OperandLog.lt_of_produces outstanding.produces)
    (Nat.not_lt_zero _)

theorem run_addiDispatched (cycles : Nat) :
    Run Start cycle Producing (addiDispatched cycles) := by
  induction cycles with
  | zero => exact .step _ (.start ⟨_, _, rfl, rfl⟩) producing_addi
  | succ cycles induction => exact .step _ induction producing_idle

theorem scoreboard_is_exact_addi :
    (∃ number, (addiDispatched 4).log.Outstanding number 1) ∧
      ¬ ∃ number, (addiDispatched 5).log.Outstanding number 1 := by
  constructor
  · refine ((scoreboard_is_exact (run_addiDispatched 4)).1 1).mp ?_
    decide +kernel
  · intro outstanding
    have set := ((scoreboard_is_exact (run_addiDispatched 5)).1 1).mpr
      outstanding
    exact absurd set (by decide +kernel)

end DeliverySystem

end Ria
