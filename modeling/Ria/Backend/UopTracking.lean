import Ria.Backend.OperandLog
import Ria.Backend.StageFlow

/-!
# Tracking the uops of the back end

The back end together with the log of what it was given.  As long as the uops
take one cycle in each stage, the log tells of every uop in flight that it has
neither been written back nor squashed.
-/

namespace Ria

open Hdl

/-- A group numbered on from `first`. -/
def stamped (first : Nat) (group : Fin 4 → MicroOp) : Fin 4 → MicroOp :=
  fun i => { group i with tag := first + i.val }

/-- In a cycle with `clear`, the uops from `squashFrom` on are squashed. -/
structure DeliveryInput extends BackEndInput where
  squashFrom : Nat

structure DeliverySystem where
  backEnd : BackEnd
  log : OperandLog

namespace DeliverySystem

section Signals

variable (system : DeliverySystem) (input : DeliveryInput)

/-- The group dispatched, numbered. -/
def group : Fin 4 → MicroOp := stamped system.log.count input.dpUopsIn

def backEndInput : BackEndInput :=
  { input.toBackEndInput with dpUopsIn := system.group input }

/-- The uops selected by the issue queues. -/
def selected : Fin 4 → MicroOp :=
  system.backEnd.isUopOut (system.backEndInput input)

/-- The log with what the cycle writes back. -/
def writeBack : OperandLog :=
  system.log.writeBack system.backEnd.exUopOut
    (system.backEnd.exRdDataOut (system.backEndInput input))

def next : DeliverySystem :=
  { backEnd := system.backEnd.next (system.backEndInput input)
    log :=
      if input.clear then (system.writeBack input).squash input.squashFrom
      else (system.writeBack input).dispatch (system.group input) }

/-- A cycle after the reset in which no uop is held up in a stage. -/
structure Steady : Prop where
  running : input.reset = false
  dataValid : input.dcacheDataValid = true
  oneCycle : input.clear = false → ∀ i,
    (system.group input i).valid = true → (system.group input i).OneCycle

end Signals

/-- The state after a cycle in reset. -/
def Start (system : DeliverySystem) : Prop :=
  ∃ backEnd input, input.reset = true ∧
    system = { backEnd := BackEnd.next backEnd input, log := .empty }

/-! ## The invariant -/

/-- The uops dispatched and not yet written back. -/
def inFlight (system : DeliverySystem) : Multiset MicroOp :=
  system.backEnd.unissued + uopsOf system.backEnd.rfIntUopIn +
    uopsOf system.backEnd.exUopIn + uopsOf system.backEnd.exUopOut

/-- The log knows the uop and expects its result. -/
structure Open (log : OperandLog) (uop : MicroOp) : Prop where
  valid : uop.valid = true
  same : (log.uop uop.tag).unresolved = uop.unresolved
  unwritten : log.value uop.tag = none
  kept : log.squashed uop.tag = false

structure Tracked (system : DeliverySystem) : Prop where
  flowing : system.backEnd.Flowing
  isOpen : ∀ uop ∈ system.inFlight, Open system.log uop
  nodup : (system.inFlight.map MicroOp.tag).Nodup
  oneCycle : ∀ number, (system.log.uop number).valid = true →
    (system.log.uop number).OneCycle
  fresh : ∀ number, system.log.count ≤ number →
    system.log.value number = none ∧ system.log.squashed number = false

/-! ## A cycle -/

section Cycle

variable {system : DeliverySystem} {input : DeliveryInput}

theorem Open.logged {log : OperandLog} {uop : MicroOp}
    (isOpen : Open log uop) : (log.uop uop.tag).valid = true :=
  (MicroOp.agree isOpen.same MicroOp.valid fun _ => rfl).trans isOpen.valid

theorem Open.tag_lt {log : OperandLog} {uop : MicroOp}
    (isOpen : Open log uop) : uop.tag < log.count :=
  OperandLog.lt_of_valid isOpen.logged

theorem Open.destination {log : OperandLog} {uop : MicroOp}
    (isOpen : Open log uop) :
    (log.uop uop.tag).rdValid = uop.rdValid ∧
      (log.uop uop.tag).rdPrfIntIndex = uop.rdPrfIntIndex := by
  constructor
  · exact MicroOp.agree isOpen.same MicroOp.rdValid fun _ => rfl
  · exact MicroOp.agree isOpen.same MicroOp.rdPrfIntIndex fun _ => rfl

theorem mem_inFlight_of_wb {way : Fin 4}
    (valid : (system.backEnd.exUopOut way).valid = true) :
    system.backEnd.exUopOut way ∈ system.inFlight :=
  Multiset.mem_add.mpr (.inr (mem_uopsOf.mpr ⟨way, rfl, valid⟩))

theorem group_tag (i : Fin 4) :
    (system.group input i).tag = system.log.count + i.val := rfl

theorem next_log (clear : input.clear = false) :
    (system.next input).log =
      (system.writeBack input).dispatch (system.group input) := by
  rw [next, clear]
  rfl

theorem next_stages (steady : system.Steady input)
    (clear : input.clear = false) :
    (system.next input).backEnd.rfIntUopIn = system.selected input ∧
      (system.next input).backEnd.exUopIn = system.backEnd.rfIntUopIn := by
  have running : ¬ (input.reset || input.clear) = true := by
    rw [steady.running, clear]
    exact Bool.false_ne_true
  exact ⟨if_neg running, if_neg running⟩

theorem sbInt_next (steady : system.Steady input)
    (clear : input.clear = false) {prf : PrfIndex} :
    (system.next input).backEnd.sbInt prf = true ↔
      (system.backEnd.sbInt prf = true ∨
        ∃ i, (system.group input i).rdValid = true ∧
          (system.group input i).rdPrfIntIndex = prf) ∧
      ∀ way, ¬ (system.backEnd.rdPorts (system.backEndInput input)).Writes
        way prf := by
  change ScoreboardInt.next _ input.reset input.clear _ _ prf = true ↔ _
  rw [steady.running, clear]
  exact ScoreboardInt.next_iff

theorem tracked_of_flush (backEnd : BackEnd) (input : BackEndInput)
    (flush : (input.reset || input.clear) = true)
    (emptied : system.backEnd = backEnd.next input)
    (oneCycle : ∀ number, (system.log.uop number).valid = true →
      (system.log.uop number).OneCycle)
    (fresh : ∀ number, system.log.count ≤ number →
      system.log.value number = none ∧ system.log.squashed number = false) :
    Tracked system := by
  have rf : (backEnd.next input).rfIntUopIn = noUops := if_pos flush
  have ex : (backEnd.next input).exUopIn = noUops := if_pos flush
  have unissued : (backEnd.next input).unissued = 0 :=
    BackEnd.unissued_of_flush flush
  have nothing : system.inFlight = 0 := by
    rw [inFlight, emptied, unissued, rf, ex, BackEnd.exUopOut_of_flush flush]
    simp
  refine
    { flowing := ?_, isOpen := ?_, nodup := ?_, oneCycle := oneCycle
      fresh := fresh }
  · rw [emptied]
    exact BackEnd.flowing_of_flush flush
  · rw [nothing]
    exact fun uop member => absurd member (Multiset.notMem_zero uop)
  · rw [nothing]
    exact Multiset.nodup_zero

namespace Tracked

variable (tracked : Tracked system)

include tracked

/-- No uop is written back twice, nor while it is in another stage. -/
theorem wb_apart : OperandLog.Apart system.backEnd.exUopOut := by
  have nodup := tracked.nodup
  rw [inFlight, Multiset.map_add] at nodup
  have apart := (Multiset.nodup_add.mp nodup).2.1
  exact fun i j one other => lane_eq_of_tag apart one other

theorem wb_other {uop : MicroOp}
    (member : uop ∈ system.backEnd.unissued +
      uopsOf system.backEnd.rfIntUopIn + uopsOf system.backEnd.exUopIn)
    {way : Fin 4} (valid : (system.backEnd.exUopOut way).valid = true) :
    (system.backEnd.exUopOut way).tag ≠ uop.tag := by
  have nodup := tracked.nodup
  rw [inFlight, Multiset.map_add] at nodup
  have disjoint := (Multiset.nodup_add.mp nodup).2.2
  intro same
  exact Multiset.disjoint_left.mp disjoint
    (Multiset.mem_map_of_mem _ member)
    (same ▸ Multiset.mem_map_of_mem _ (mem_uopsOf.mpr ⟨way, rfl, valid⟩))

theorem of_ports {cycle : BackEndInput} {prf : PrfIndex} {way : Fin 4}
    (writes : (system.backEnd.rdPorts cycle).Writes way prf) :
    (system.backEnd.exUopOut way).valid = true ∧
      Open system.log (system.backEnd.exUopOut way) ∧
      system.log.writes prf (system.backEnd.exUopOut way).tag = true := by
  obtain ⟨enabled, index⟩ := writes
  have valid : (system.backEnd.exUopOut way).valid = true := by
    by_contra invalid
    have silent := tracked.flowing.wbTidy way (Bool.eq_false_iff.mpr invalid)
    exact absurd (enabled.symm.trans silent) (by decide)
  have isOpen := tracked.isOpen _ (mem_inFlight_of_wb valid)
  obtain ⟨sameValid, sameIndex⟩ := isOpen.destination
  refine ⟨valid, isOpen, MicroOp.writesPrf_iff.mpr ?_⟩
  exact ⟨isOpen.logged, sameValid.trans enabled, sameIndex.trans index⟩

/-! ### The write-back of a cycle -/

theorem value_of_wb {way : Fin 4}
    (valid : (system.backEnd.exUopOut way).valid = true) :
    (system.writeBack input).value (system.backEnd.exUopOut way).tag =
      some (system.backEnd.exRdDataOut (system.backEndInput input) way) :=
  OperandLog.value_writeBack tracked.wb_apart valid

theorem fresh_writeBack {number : Nat} (new : system.log.count ≤ number) :
    (system.writeBack input).value number = none ∧
      (system.writeBack input).squashed number = false := by
  obtain ⟨unwritten, kept⟩ := tracked.fresh number new
  refine ⟨?_, kept⟩
  refine (OperandLog.value_writeBack_of_idle fun way valid same => ?_).trans
    unwritten
  have old := (tracked.isOpen _ (mem_inFlight_of_wb valid)).tag_lt
  omega

/-! ### A cycle without recovery -/

section Dispatch

variable (steady : system.Steady input) (clear : input.clear = false)

include steady clear

theorem flow :
    (system.next input).backEnd.unissued + uopsOf (system.selected input) ≤
      system.backEnd.unissued + uopsOf (system.group input) := by
  obtain ⟨uops, fed⟩ := tracked.flowing.fed
  have running : (system.backEndInput input).reset = false := steady.running
  have kept : (system.backEndInput input).clear = false := clear
  exact BackEnd.flow_unissued fed running kept

theorem wb_next {way : Fin 4}
    (valid : ((system.next input).backEnd.exUopOut way).valid = true) :
    (system.backEnd.exUopIn way).valid = true ∧
      ((system.next input).backEnd.exUopOut way).unresolved =
        (system.backEnd.exUopIn way).unresolved := by
  have backEnd : (system.next input).backEnd =
      system.backEnd.next (system.backEndInput input) := rfl
  rw [backEnd] at valid ⊢
  have running : (system.backEndInput input).reset = false := steady.running
  have kept : (system.backEndInput input).clear = false := clear
  rcases tracked.flowing.exUopOut_next running kept steady.dataValid way
    with idle | same
  · rw [idle] at valid
    cases valid
  · have agree := MicroOp.agree same MicroOp.valid fun _ => rfl
    exact ⟨agree ▸ valid, same⟩

theorem tags_next :
    (system.next input).inFlight.map MicroOp.tag ≤
      (system.backEnd.unissued + uopsOf system.backEnd.rfIntUopIn +
        uopsOf system.backEnd.exUopIn).map MicroOp.tag +
      (uopsOf (system.group input)).map MicroOp.tag := by
  obtain ⟨rf, ex⟩ := next_stages steady clear
  have executed : (uopsOf (system.next input).backEnd.exUopOut).map
      MicroOp.tag ≤ (uopsOf system.backEnd.exUopIn).map MicroOp.tag := by
    refine tags_le fun way valid => ?_
    obtain ⟨before, same⟩ := tracked.wb_next steady clear valid
    have tag := MicroOp.agree same MicroOp.tag fun _ => rfl
    exact ⟨before, tag⟩
  have issued := Multiset.map_le_map (f := MicroOp.tag)
    (tracked.flow steady clear)
  rw [inFlight, rf, ex]
  simp only [Multiset.map_add] at issued ⊢
  refine (add_le_add (add_le_add issued (le_refl _)) executed).trans
    (le_of_eq ?_)
  ac_rfl

theorem mem_inFlight_next {uop : MicroOp}
    (member : uop ∈ (system.next input).inFlight) :
    (∃ before ∈ system.backEnd.unissued +
        uopsOf system.backEnd.rfIntUopIn + uopsOf system.backEnd.exUopIn,
      uop.unresolved = before.unresolved) ∨
    ∃ i, (system.group input i).valid = true ∧ uop = system.group input i := by
  obtain ⟨rf, ex⟩ := next_stages steady clear
  have flow := tracked.flow steady clear
  have queued : uop ∈ (system.next input).backEnd.unissued +
        uopsOf (system.selected input) →
      (∃ before ∈ system.backEnd.unissued +
          uopsOf system.backEnd.rfIntUopIn + uopsOf system.backEnd.exUopIn,
        uop.unresolved = before.unresolved) ∨
      ∃ i, (system.group input i).valid = true ∧
        uop = system.group input i := by
    intro member
    rcases Multiset.mem_add.mp (Multiset.mem_of_le flow member) with old | new
    · exact .inl ⟨uop, by simp [old], rfl⟩
    · obtain ⟨i, same, valid⟩ := mem_uopsOf.mp new
      exact .inr ⟨i, same ▸ valid, same.symm⟩
  rw [inFlight, rf, ex] at member
  rcases Multiset.mem_add.mp member with member | executed
  · rcases Multiset.mem_add.mp member with member | read
    · exact queued member
    · exact .inl ⟨uop, by simp [read], rfl⟩
  · obtain ⟨way, same, valid⟩ := mem_uopsOf.mp executed
    subst same
    obtain ⟨before, unresolved⟩ := tracked.wb_next steady clear valid
    exact .inl ⟨_, Multiset.mem_add.mpr
      (.inr (mem_uopsOf.mpr ⟨way, rfl, before⟩)), unresolved⟩

omit steady in
theorem fresh_next {number : Nat} (new : system.log.count ≤ number) :
    (system.next input).log.value number = none ∧
      (system.next input).log.squashed number = false := by
  rw [next_log clear]
  exact tracked.fresh_writeBack new

theorem isOpen_next {uop : MicroOp}
    (member : uop ∈ (system.next input).inFlight) :
    Open (system.next input).log uop := by
  rcases tracked.mem_inFlight_next steady clear member with
    ⟨before, old, same⟩ | ⟨i, valid, rfl⟩
  · have tag := MicroOp.agree same MicroOp.tag fun _ => rfl
    have valid := MicroOp.agree same MicroOp.valid fun _ => rfl
    have isOpen := tracked.isOpen before (Multiset.mem_add.mpr (.inl old))
    have within : before.tag < (system.writeBack input).count :=
      isOpen.tag_lt
    have idle : ∀ way, (system.backEnd.exUopOut way).valid = true →
        (system.backEnd.exUopOut way).tag ≠ before.tag :=
      fun way writing => tracked.wb_other old writing
    rw [next_log clear]
    refine ⟨valid.trans isOpen.valid, ?_, ?_, ?_⟩
    · rw [tag, OperandLog.uop_dispatch_old within]
      exact isOpen.same.trans same.symm
    · rw [tag]
      exact (OperandLog.value_writeBack_of_idle idle).trans isOpen.unwritten
    · rw [tag]
      exact isOpen.kept
  · obtain ⟨unwritten, kept⟩ := tracked.fresh_next clear
      (Nat.le_add_right _ i.val)
    refine ⟨valid, ?_, unwritten, kept⟩
    rw [next_log clear, group_tag]
    exact congrArg _ (OperandLog.uop_dispatch_new i)

theorem nodup_next : ((system.next input).inFlight.map MicroOp.tag).Nodup := by
  refine Multiset.nodup_of_le (tracked.tags_next steady clear) ?_
  have nodup := tracked.nodup
  rw [inFlight, Multiset.map_add] at nodup
  refine Multiset.nodup_add.mpr ⟨(Multiset.nodup_add.mp nodup).1, ?_, ?_⟩
  · refine nodup_tags fun i j same => Fin.ext ?_
    simp only [group_tag] at same
    omega
  · refine Multiset.disjoint_left.mpr fun {tag} old new => ?_
    obtain ⟨before, member, rfl⟩ := Multiset.mem_map.mp old
    obtain ⟨uop, dispatched, same⟩ := Multiset.mem_map.mp new
    obtain ⟨i, rfl, -⟩ := mem_uopsOf.mp dispatched
    have isOpen := tracked.isOpen before (Multiset.mem_add.mpr (.inl member))
    have within := isOpen.tag_lt
    rw [group_tag] at same
    omega

theorem next_of_dispatch : Tracked (system.next input) := by
  have running : (system.backEndInput input).reset = false := steady.running
  have kept : (system.backEndInput input).clear = false := clear
  refine
    { flowing := ?_, isOpen := ?_, nodup := ?_, oneCycle := ?_, fresh := ?_ }
  · refine tracked.flowing.next running kept steady.dataValid ?_
    intro uop member
    have isOpen := tracked.isOpen uop (by
      simp only [inFlight, BackEnd.unissued, Multiset.mem_add]
      exact .inl (.inl (.inl (.inl (.inr member)))))
    have known := tracked.oneCycle _ isOpen.logged
    have code := MicroOp.agree isOpen.same MicroOp.fuCode fun _ => rfl
    rwa [MicroOp.OneCycle, code] at known
  · exact fun uop => tracked.isOpen_next steady clear
  · exact tracked.nodup_next steady clear
  · intro number valid
    rw [next_log clear] at valid ⊢
    rcases OperandLog.dispatch_cases valid with old | ⟨i, rfl⟩
    · rw [OperandLog.uop_dispatch_old old] at valid ⊢
      exact tracked.oneCycle number valid
    · rw [OperandLog.uop_dispatch_new i] at valid ⊢
      exact steady.oneCycle clear i valid
  · intro number new
    refine tracked.fresh_next clear ?_
    rw [next_log clear, OperandLog.count_dispatch] at new
    have count : (system.writeBack input).count = system.log.count := rfl
    omega

end Dispatch

theorem next_of_recovery (clear : input.clear = true) :
    Tracked (system.next input) := by
  have cleared : (system.backEndInput input).clear = true := clear
  have log : (system.next input).log =
      (system.writeBack input).squash input.squashFrom := if_pos clear
  refine tracked_of_flush system.backEnd (system.backEndInput input)
    (by rw [cleared, Bool.or_true]) rfl ?_ ?_
  · rw [log]
    exact tracked.oneCycle
  · intro number new
    rw [log] at new ⊢
    have old : ¬ number < (system.writeBack input).count := Nat.not_lt.mpr new
    obtain ⟨unwritten, kept⟩ := tracked.fresh_writeBack new
    refine ⟨unwritten, ?_⟩
    simp only [OperandLog.squash, kept, old, and_false, decide_false,
      Bool.or_self]

theorem next (steady : system.Steady input) : Tracked (system.next input) := by
  cases clear : input.clear with
  | false => exact tracked.next_of_dispatch steady clear
  | true => exact tracked.next_of_recovery clear

end Tracked

end Cycle

theorem Start.tracked {system : DeliverySystem} (start : Start system) :
    Tracked system := by
  obtain ⟨backEnd, input, reset, rfl⟩ := start
  refine tracked_of_flush backEnd input (by rw [reset, Bool.true_or]) rfl ?_ ?_
  · intro number valid
    have within := OperandLog.lt_of_valid valid
    cases within
  · exact fun _ _ => ⟨rfl, rfl⟩

end DeliverySystem

end Ria
