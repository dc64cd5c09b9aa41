import Ria.Core.Components
import Ria.Core.InFlight
import Ria.Core.Redirects
import Ria.Frontend.RobFifo

/-!
# Retirement in the core

The back end names to the reorder buffer only uops that it was handed, each
once and unchanged but for its outcome.  So the reorder buffer of the core is
the queue that `FifoLog` describes, and what leaves it is what rename put in,
in that order.
-/

namespace Ria

open Hdl

/-- What neither the reorder buffer nor the branch unit sets -/
def MicroOp.identity (uop : MicroOp) : MicroOp :=
  { uop.unresolved with robIndex := 0, complete := false }

/-! ## Lists and bundles -/

theorem getElem?_filter_countP {α : Type} (p : α → Bool) {items : List α}
    {k : Nat} {item : α} (found : items[k]? = some item)
    (kept : p item = true) :
    (items.filter p)[(items.take k).countP p]? = some item := by
  induction items generalizing k with
  | nil => cases found
  | cons first rest induction =>
      cases k with
      | zero =>
          obtain rfl : first = item := Option.some.inj found
          rw [List.filter_cons_of_pos kept]
          rfl
      | succ k =>
          rw [List.getElem?_cons_succ] at found
          have later := induction found
          rw [List.take_succ_cons]
          by_cases counted : p first = true
          · rw [List.filter_cons_of_pos counted,
              List.countP_cons_of_pos counted, List.getElem?_cons_succ]
            exact later
          · rw [List.filter_cons_of_neg counted,
              List.countP_cons_of_neg counted]
            exact later

theorem getElem?_validUops {lanes : Nat} {uops : Fin lanes → MicroOp}
    {i : Fin lanes} (valid : (uops i).valid = true) :
    (validUops uops)[validBefore uops i.val]? = some (uops i) := by
  refine getElem?_filter_countP MicroOp.valid ?_ valid
  rw [List.getElem?_ofFn, dif_pos i.isLt]

theorem nodup_keys {lanes : Nat} {uops : Fin lanes → MicroOp} {α : Type}
    {key : MicroOp → α} (differ : ∀ i j, (uops i).valid = true →
      (uops j).valid = true → key (uops i) = key (uops j) → i = j) :
    ((uopsOf uops).map key).Nodup := by
  rw [uopsOf, validUops, Multiset.map_coe, Multiset.coe_nodup, List.Nodup,
    List.pairwise_map, List.pairwise_filter, List.pairwise_ofFn]
  intro i j earlier one other same
  exact absurd (differ i j one other same) earlier.ne

/-! ## Completions -/

/-- The entry of a number in the window names that number. -/
theorem owner_ofNat {first number : Nat} (low : first ≤ number)
    (high : number < first + 64) :
    FifoLog.owner first (BitVec.ofNat 6 number) = number := by
  rcases owner_bounds first (BitVec.ofNat 6 number) with ⟨ownerLow, ownerHigh⟩
  exact entries_differ ownerLow ownerHigh low high (ofNat_owner _ _)

theorem completeAll_cases (first : Nat) (completion : Nat → Option MicroOp)
    (uops : List MicroOp) (number : Nat) :
    uops.foldl (FifoLog.completeLane first) completion number =
        completion number ∨
      ∃ uop ∈ uops, uop.valid = true ∧
        FifoLog.owner first uop.robIndex = number ∧
        uops.foldl (FifoLog.completeLane first) completion number =
          some uop := by
  induction uops generalizing completion with
  | nil => exact .inl rfl
  | cons uop rest induction =>
      rw [List.foldl_cons]
      rcases induction (FifoLog.completeLane first completion uop) with
        before | ⟨later, member, valid, owns, same⟩
      · rw [before, FifoLog.completeLane]
        by_cases valid : uop.valid = true
        · rw [if_pos valid]
          by_cases owns : FifoLog.owner first uop.robIndex = number
          · refine .inr ⟨uop, .head _, valid, owns, ?_⟩
            rw [← owns, Function.update_self]
          · exact .inl (Function.update_of_ne (Ne.symm owns) _ _)
        · rw [if_neg valid]
          exact .inl rfl
      · exact .inr ⟨later, .tail _ member, valid, owns, same⟩

theorem due_length_of_none {completion : Nat → Option MicroOp}
    {lanes first number : Nat} (low : first ≤ number)
    (missing : completion number = none) :
    first + (FifoLog.due completion lanes first).length ≤ number := by
  by_contra more
  have inside : number - first <
      (FifoLog.due completion lanes first).length := by omega
  rcases due_getElem (List.getElem?_eq_getElem inside) with
    ⟨completed, known, -⟩
  rw [Nat.add_sub_cancel' low, missing] at known
  cases known

/-! ## The core with its queue -/

namespace Core

def robInput (core : Core) : RobInput :=
  { uopComplete := core.cmUopsComplete, uopIn := core.robUopsIn }

/-- The uops that the reorder buffer waits for -/
def owed (core : Core) : Multiset MicroOp :=
  core.backEnd.inFlight + uopsOf core.cmUopsComplete

theorem uopsOf_wbUops (backEnd : BackEnd) :
    uopsOf backEnd.wbUops = uopsOf backEnd.exUopOut := by
  have fifth : backEnd.wbUops 4 = 0 := rfl
  have sixth : backEnd.wbUops 5 = 0 := rfl
  rw [uopsOf_eq_sum, uopsOf_eq_sum, Fin.sum_univ_six, Fin.sum_univ_four,
    fifth, sixth, MicroOp.single_zero, add_zero, add_zero]
  rfl

theorem owed_next {core : Core} {input : CoreInput}
    (running : input.reset = false) (runs : core.cmRecover = false) :
    (core.next input).owed =
      (core.backEnd.next (core.backEndInput input)).inFlight +
        uopsOf core.backEnd.exUopOut := by
  have clear : core.clear = false := runs
  have complete : (core.next input).cmUopsComplete = core.backEnd.wbUops := by
    change (if input.reset || core.clear then noUops else _) = _
    rw [running, clear]
    rfl
  rw [owed, complete, uopsOf_wbUops]
  rfl

/-- A cycle after the reset in which the data cache answers and the group
fits into the reorder buffer -/
structure Orderly (core : Core) (input : CoreInput) : Prop where
  running : input.reset = false
  dataValid : input.dcache2coreDataValid = true
  fits : core.cmRecover = false → core.groupSystem.Fits (core.groupInput input)

end Core

/-- The core and the log of its reorder buffer -/
structure CommitSystem where
  core : Core
  log : FifoLog

namespace CommitSystem

def rob (system : CommitSystem) : RobSystem :=
  { rob := system.core.cm, log := system.log }

def next (system : CommitSystem) (input : CoreInput) : CommitSystem :=
  { core := system.core.next input
    log := system.log.next system.core.robInput system.core.cmOutputs }

def Start (system : CommitSystem) : Prop :=
  system.core.Start ∧ system.log = .empty

def Orderly (system : CommitSystem) (input : CoreInput) : Prop :=
  system.core.Orderly input

theorem core_run {system : CommitSystem} (run : Run Start next Orderly system) :
    Run Core.Start Core.next Core.Orderly system.core := by
  induction run with
  | start started => exact .start started.1
  | step input _ orderly induction => exact .step input induction orderly

theorem any_run {system : CommitSystem} (run : Run Start next Orderly system) :
    Run Core.Start Core.next (fun _ _ => True) system.core :=
  (core_run run).mono fun _ _ _ => trivial

/-- The log has the uop under a number, and waits for it. -/
structure Awaited (log : FifoLog) (uop : MicroOp) (number : Nat) :
    Prop where
  low : log.retired.length ≤ number
  index : uop.robIndex = BitVec.ofNat 6 number
  missing : log.completion number = none
  same : log.inserted[number]?.map MicroOp.identity = some uop.identity

theorem Awaited.inside {log : FifoLog} {uop : MicroOp} {number : Nat}
    (awaited : Awaited log uop number) : number < log.inserted.length := by
  by_contra beyond
  have same := awaited.same
  rw [List.getElem?_eq_none (Nat.le_of_not_lt beyond)] at same
  cases same

/-- The back end returns what it was handed. -/
structure Returning (system : CommitSystem) : Prop where
  queue : RobSystem.Invariant system.rob
  flowing : system.core.backEnd.Flowing
  awaited : ∀ uop ∈ system.core.owed, ∃ number, Awaited system.log uop number
  nodup : (system.core.owed.map MicroOp.robIndex).Nodup
  results : ∀ number uop, system.log.completion number = some uop →
    system.log.inserted[number]?.map MicroOp.identity = some uop.identity

section Cycle

variable {system : CommitSystem} {input : CoreInput}

theorem rob_next (running : input.reset = false) :
    (system.next input).rob = system.rob.next system.core.robInput := by
  have cm : (system.core.next input).cm =
      system.core.cm.next false system.core.cmUopsComplete
        system.core.robUopsIn := by
    change system.core.cm.next input.reset _ _ = _
    rw [running]
  change RobSystem.mk _ _ = _
  rw [next, cm]
  rfl

/-- A number that the log waits for lies in the window. -/
theorem Awaited.owner {uop : MicroOp} {number : Nat}
    (awaited : Awaited system.log uop number)
    (queue : RobSystem.Invariant system.rob) :
    FifoLog.owner system.log.retired.length uop.robIndex = number := by
  have inside := awaited.inside
  have lap : system.log.retired.length % 64 + (system.log.inserted.length -
      system.log.retired.length) ≤ 64 := queue.lap
  rw [awaited.index]
  exact owner_ofNat awaited.low (by omega)

theorem mem_owed_of_complete {lane : Fin 6}
    (valid : (system.core.cmUopsComplete lane).valid = true) :
    system.core.cmUopsComplete lane ∈ system.core.owed :=
  Multiset.mem_add.mpr (.inr (mem_uopsOf.mpr ⟨lane, rfl, valid⟩))

namespace Returning

variable (returning : Returning system)

include returning

theorem allowed (resolved : system.core.BranchesResolved) :
    RobSystem.Allowed system.rob system.core.robInput := by
  refine ⟨fun lane valid => ?_, fun i _ => ?_⟩
  · rcases returning.awaited _ (mem_owed_of_complete valid) with
      ⟨number, awaited⟩
    exact (awaited.owner returning.queue).trans_lt awaited.inside
  · exact (resolved.predicted.frontEnd.rrDpOut i).incomplete

/-- What leaves is what the log lets go. -/
theorem leaving_eq (resolved : system.core.BranchesResolved) :
    validUops system.core.cmUopRetire =
      system.log.turn system.core.robInput := by
  have leaves := returning.queue.leaving_eq (returning.allowed resolved)
  exact leaves

theorem tail_eq (right : (system.log.turn system.core.robInput).any
      Rob.mispredicted = false) :
    system.log.tail system.core.robInput =
      (system.core.cm.robHead.toNat +
          system.core.cm.leaving system.core.cmUopsComplete) % 64 +
        (system.core.cm.robSize.toNat -
          system.core.cm.leaving system.core.cmUopsComplete) := by
  rcases (returning.queue.retirement system.core.robInput).pointers with
    advanced | ⟨wrong, -⟩
  · rcases Rob.retired_of_runs advanced.recover with ⟨head, size⟩
    have sameHead := congrArg BitVec.toNat (advanced.head.symm.trans head)
    have sameSize := advanced.size.symm.trans size
    rw [BitVec.toNat_ofNat, BitVec.toNat_ofNat] at sameHead
    exact congrArg₂ (· + ·) sameHead sameSize
  · exact absurd (right.symm.trans wrong) (by decide)

theorem tail_fits (orderly : system.Orderly input)
    (right : (system.log.turn system.core.robInput).any
      Rob.mispredicted = false) :
    system.log.tail system.core.robInput +
      (validUops system.core.robUopsIn).length ≤ 64 := by
  have runs : system.core.cmRecover = false :=
    (returning.queue.recover_eq system.core.robInput).trans right
  rw [returning.tail_eq right]
  exact orderly.fits runs

theorem fits (orderly : system.Orderly input) :
    RobSystem.Fits system.log system.core.robInput := by
  intro right
  have behind := returning.tail_fits orderly right
  have count := validBefore_lanes system.core.robUopsIn
  change _ + min (validBefore system.core.robUopsIn 4) _ ≤ 64
  rw [count]
  exact (Nat.add_le_add_left (Nat.min_le_left _ _) _).trans behind

theorem accepted_eq (orderly : system.Orderly input)
    (right : (system.log.turn system.core.robInput).any
      Rob.mispredicted = false) :
    system.log.accepted system.core.robInput =
      validUops system.core.robUopsIn := by
  have behind := returning.tail_fits orderly right
  have stay : system.log.inserted.length - (system.log.retired.length +
      (system.log.turn system.core.robInput).length) ≤
        system.log.tail system.core.robInput := Nat.le_add_left _ _
  refine List.take_of_length_le ?_
  change (validUops system.core.robUopsIn).length ≤ 64 - (_ - _)
  omega

theorem recorded (resolved : system.core.BranchesResolved) :
    Recorded (system.log.completed system.core.robInput)
      system.log.inserted.length :=
  returning.queue.completedRecorded (returning.allowed resolved)

theorem completed_none {uop : MicroOp} {number : Nat}
    (member : uop ∈ system.core.backEnd.inFlight)
    (awaited : Awaited system.log uop number) :
    system.log.completed system.core.robInput number = none := by
  rcases completeAll_cases system.log.retired.length system.log.completion
    (List.ofFn system.core.cmUopsComplete) number with
    before | ⟨other, among, valid, owns, -⟩
  · exact before.trans awaited.missing
  · rcases (List.mem_ofFn' _ _).mp among with ⟨lane, rfl⟩
    have nodup := returning.nodup
    rw [Core.owed, Multiset.map_add, Multiset.nodup_add] at nodup
    have sameEntry :
        (system.core.cmUopsComplete lane).robIndex = uop.robIndex := by
      rw [awaited.index, ← owns, ofNat_owner]
    have here := Multiset.mem_map_of_mem MicroOp.robIndex
      (mem_uopsOf.mpr ⟨lane, rfl, valid⟩)
    have there := Multiset.mem_map_of_mem MicroOp.robIndex member
    rw [sameEntry] at here
    exact (Multiset.disjoint_left.mp nodup.2.2 there here).elim

theorem completed_identity {number : Nat} {uop : MicroOp}
    (known : system.log.completed system.core.robInput number = some uop) :
    system.log.inserted[number]?.map MicroOp.identity =
      some uop.identity := by
  rcases completeAll_cases system.log.retired.length system.log.completion
    (List.ofFn system.core.cmUopsComplete) number with
    before | ⟨other, among, valid, owns, completes⟩
  · exact returning.results number uop (before.symm.trans known)
  · rcases (List.mem_ofFn' _ _).mp among with ⟨lane, rfl⟩
    rcases returning.awaited _ (mem_owed_of_complete valid) with
      ⟨place, awaited⟩
    have here := (awaited.owner returning.queue).symm.trans owns
    obtain rfl := Option.some.inj (completes.symm.trans known)
    exact here ▸ awaited.same

theorem turn_identity :
    (system.log.turn system.core.robInput).map MicroOp.identity <+:
      (system.log.inserted.drop system.log.retired.length).map
        MicroOp.identity := by
  rw [List.prefix_iff_getElem?]
  intro j inside
  rw [List.length_map] at inside
  rw [List.getElem?_map, List.getElem_map, List.getElem?_drop]
  rcases due_getElem (List.getElem?_eq_getElem inside) with
    ⟨completion, known, same⟩
  have named := returning.completed_identity known
  rw [same]
  exact named

theorem dispatched (resolved : system.core.BranchesResolved)
    (orderly : system.Orderly input) {i : Fin 4}
    (valid : (system.core.dpUopsIn i).valid = true) :
    (system.core.robUopsIn i).valid = true ∧
      system.core.dpUopsIn i =
        { system.core.robUopsIn i with
          robIndex := BitVec.ofNat 6 (system.log.inserted.length +
            validBefore system.core.robUopsIn i.val) } := by
  have ok := (returning.queue.cycleOk_iff (returning.allowed resolved)).mpr
    (returning.fits orderly)
  have echoed := ok.echoes i
  change system.core.dpUopsIn i = _ at echoed
  split at echoed
  · rename_i stored
    exact ⟨stored.2.1, echoed⟩
  · rw [echoed] at valid
    cases valid

end Returning

/-! ### A cycle without a misprediction -/

/-- The log after a cycle in which the whole group is accepted -/
structure Onward (log : FifoLog) (input : RobInput) (after : FifoLog) :
    Prop where
  first : after.retired.length =
    log.retired.length + (log.turn input).length
  inserted : after.inserted = log.inserted ++ validUops input.uopIn
  completion : after.completion = log.completed input
  window : after.inserted.length ≤ after.retired.length + 64

theorem Returning.onward (returning : Returning system)
    (resolved : system.core.BranchesResolved)
    (orderly : system.Orderly input)
    (right : (system.log.turn system.core.robInput).any
      Rob.mispredicted = false) :
    Onward system.log system.core.robInput (system.next input).log := by
  have behind := returning.tail_fits orderly right
  have log : (system.next input).log =
      { inserted := system.log.inserted ++
          system.log.accepted system.core.robInput
        completion := system.log.completed system.core.robInput
        retired := system.log.retired ++
          system.log.turn system.core.robInput } := by
    have next := returning.queue.next_log (returning.allowed resolved) right
    rw [← rob_next orderly.running] at next
    exact next
  rw [log, returning.accepted_eq orderly right]
  refine ⟨List.length_append, rfl, rfl, ?_⟩
  unfold FifoLog.tail at behind
  dsimp only at behind
  rw [List.length_append, List.length_append]
  omega

section Onward

variable {log after : FifoLog} {robInput : RobInput} {uop : MicroOp}
  {number : Nat} (onward : Onward log robInput after)

include onward

theorem Onward.stays (awaited : Awaited log uop number)
    (missing : log.completed robInput number = none) :
    Awaited after uop number := by
  refine ⟨?_, awaited.index, ?_, ?_⟩
  · rw [onward.first]
    exact due_length_of_none awaited.low missing
  · rw [onward.completion]
    exact missing
  · rw [onward.inserted, List.getElem?_append_left awaited.inside]
    exact awaited.same

theorem Onward.arrives
    (recorded : Recorded (log.completed robInput) log.inserted.length)
    (short : after.retired.length ≤ log.inserted.length) {i : Fin 4}
    (valid : (robInput.uopIn i).valid = true) :
    Awaited after
      { robInput.uopIn i with
        robIndex := BitVec.ofNat 6 (log.inserted.length +
          validBefore robInput.uopIn i.val) }
      (log.inserted.length + validBefore robInput.uopIn i.val) := by
  refine ⟨short.trans (Nat.le_add_right _ _), rfl, ?_, ?_⟩
  · rw [onward.completion]
    cases known : log.completed robInput
      (log.inserted.length + validBefore robInput.uopIn i.val) with
    | none => rfl
    | some uop =>
        have below := recorded.below _ uop known
        omega
  · rw [onward.inserted, List.getElem?_append_right (Nat.le_add_right _ _),
      Nat.add_sub_cancel_left, getElem?_validUops valid]
    rfl

end Onward

/-- In a window of 64 the entry tells the number. -/
theorem Awaited.unique {log : FifoLog} {uop other : MicroOp}
    {number position : Nat} (awaited : Awaited log uop number)
    (also : Awaited log other position)
    (window : log.inserted.length ≤ log.retired.length + 64)
    (same : uop.robIndex = other.robIndex) : number = position := by
  have inside := awaited.inside
  have within := also.inside
  exact entries_differ awaited.low (by omega) also.low (by omega)
    (awaited.index.symm.trans (same.trans also.index))

/-- Uops that differ in their outcome only are awaited together. -/
theorem Awaited.of_unresolved {log : FifoLog} {uop before : MicroOp}
    {number : Nat} (awaited : Awaited log before number)
    (same : uop.unresolved = before.unresolved) :
    Awaited log uop number := by
  have index := MicroOp.agree same MicroOp.robIndex fun _ => rfl
  have identity := MicroOp.agree same MicroOp.identity fun _ => rfl
  refine ⟨awaited.low, index.trans awaited.index, awaited.missing, ?_⟩
  rw [identity]
  exact awaited.same

theorem recover_eq (returning : Returning system) :
    system.core.cmRecover =
      (system.log.turn system.core.robInput).any Rob.mispredicted :=
  returning.queue.recover_eq system.core.robInput

namespace Returning

variable (returning : Returning system)
  (resolved : system.core.BranchesResolved)
  (orderly : system.Orderly input)
  (runs : system.core.cmRecover = false)

include returning resolved orderly runs

theorem kept {uop : MicroOp} (held : uop ∈ system.core.backEnd.inFlight) :
    ∃ number, number < system.log.inserted.length ∧
      Awaited (system.next input).log uop number := by
  have right := (recover_eq returning).symm.trans runs
  have onward := returning.onward resolved orderly right
  rcases returning.awaited uop (Multiset.mem_add.mpr (.inl held)) with
    ⟨number, awaited⟩
  exact ⟨number, awaited.inside,
    onward.stays awaited (returning.completed_none held awaited)⟩

theorem arrived {i : Fin 4} (valid : (system.core.dpUopsIn i).valid = true) :
    (system.core.robUopsIn i).valid = true ∧
      Awaited (system.next input).log (system.core.dpUopsIn i)
        (system.log.inserted.length +
          validBefore system.core.robUopsIn i.val) := by
  have right := (recover_eq returning).symm.trans runs
  have onward := returning.onward resolved orderly right
  have recorded := returning.recorded resolved
  have short : (system.next input).log.retired.length ≤
      system.log.inserted.length := by
    rw [onward.first]
    exact RobSystem.turn_length_le system.log system.core.robInput
      returning.queue.queue.short
  rcases returning.dispatched resolved orderly valid with
    ⟨incoming, handed⟩
  rw [handed]
  exact ⟨incoming, onward.arrives recorded short incoming⟩

theorem awaited_next {uop : MicroOp}
    (member : uop ∈ (system.core.next input).owed) :
    ∃ number, Awaited (system.next input).log uop number := by
  rw [Core.owed_next orderly.running runs] at member
  rcases Multiset.mem_add.mp member with held | written
  · rcases BackEnd.mem_inFlight_next returning.flowing orderly.running runs
      orderly.dataValid held with ⟨before, there, same⟩ | ⟨i, valid, same⟩
    · rcases returning.kept resolved orderly runs
        (Multiset.mem_add.mpr (.inl there)) with ⟨number, -, awaited⟩
      exact ⟨number, awaited.of_unresolved same⟩
    · have arrived := (returning.arrived resolved orderly runs valid).2
      exact ⟨_, arrived.of_unresolved same⟩
  · rcases returning.kept resolved orderly runs
      (Multiset.mem_add.mpr (.inr written)) with ⟨number, -, awaited⟩
    exact ⟨number, awaited⟩

theorem nodup_dispatched :
    ((uopsOf system.core.dpUopsIn).map MicroOp.robIndex).Nodup := by
  have right := (recover_eq returning).symm.trans runs
  have window := (returning.onward resolved orderly right).window
  refine nodup_keys fun i j one other same => ?_
  rcases returning.arrived resolved orderly runs one with ⟨first, here⟩
  rcases returning.arrived resolved orderly runs other with ⟨second, there⟩
  have positions := here.unique there window same
  exact validBefore_inj first second (Nat.add_left_cancel positions)

theorem nodup_next :
    ((system.core.next input).owed.map MicroOp.robIndex).Nodup := by
  have right := (recover_eq returning).symm.trans runs
  have window := (returning.onward resolved orderly right).window
  have nodup := returning.nodup
  rw [Core.owed, Multiset.map_add] at nodup
  have before := Multiset.nodup_of_le (Multiset.le_add_right _ _) nodup
  have flow : (system.core.next input).owed.map MicroOp.robIndex ≤
      system.core.backEnd.inFlight.map MicroOp.robIndex +
        (uopsOf system.core.dpUopsIn).map MicroOp.robIndex := by
    have keys : (system.core.backEnd.next
        (system.core.backEndInput input)).inFlight.map MicroOp.robIndex ≤
          system.core.backEnd.unexecuted.map MicroOp.robIndex +
            (uopsOf system.core.dpUopsIn).map MicroOp.robIndex :=
      BackEnd.keys_next returning.flowing orderly.running runs
        orderly.dataValid fun _ => rfl
    have held : system.core.backEnd.inFlight =
        system.core.backEnd.unexecuted +
          uopsOf system.core.backEnd.exUopOut := rfl
    rw [Core.owed_next orderly.running runs, held, Multiset.map_add,
      Multiset.map_add]
    refine (add_le_add keys (le_refl _)).trans (le_of_eq ?_)
    ac_rfl
  refine Multiset.nodup_of_le flow (Multiset.nodup_add.mpr
    ⟨before, returning.nodup_dispatched resolved orderly runs, ?_⟩)
  refine Multiset.disjoint_left.mpr fun old new => ?_
  rcases Multiset.mem_map.mp old with ⟨uop, held, rfl⟩
  rcases Multiset.mem_map.mp new with ⟨other, there, same⟩
  rcases mem_uopsOf.mp there with ⟨i, rfl, valid⟩
  rcases returning.kept resolved orderly runs held with
    ⟨number, below, awaited⟩
  have arrived := (returning.arrived resolved orderly runs valid).2
  have position := arrived.unique awaited window same
  omega

theorem results_next {number : Nat} {uop : MicroOp}
    (known : (system.next input).log.completion number = some uop) :
    (system.next input).log.inserted[number]?.map MicroOp.identity =
      some uop.identity := by
  have right := (recover_eq returning).symm.trans runs
  have onward := returning.onward resolved orderly right
  have recorded := returning.recorded resolved
  rw [onward.completion] at known
  rw [onward.inserted, List.getElem?_append_left
    (recorded.below number uop known)]
  exact returning.completed_identity known

end Returning

/-! ### The invariant -/

theorem owed_of_flush {core : Core}
    (flush : (input.reset || core.clear) = true) :
    (core.next input).owed = 0 := by
  have complete : (core.next input).cmUopsComplete = noUops := if_pos flush
  have back : (core.next input).backEnd.inFlight = 0 :=
    BackEnd.inFlight_of_flush flush
  rw [Core.owed, back, complete, uopsOf_noUops]
  rfl

theorem returning_of_flush {core : Core}
    (flush : (input.reset || core.clear) = true)
    (queue : RobSystem.Invariant
      { rob := (core.next input).cm, log := .empty }) :
    Returning { core := core.next input, log := .empty } := by
  refine
    { queue := queue, flowing := BackEnd.flowing_of_flush flush
      awaited := fun uop member => ?_, nodup := ?_
      results := fun _ _ never => nomatch never }
  · rw [owed_of_flush flush] at member
    exact absurd member (Multiset.notMem_zero uop)
  · rw [owed_of_flush flush]
    exact Multiset.nodup_zero

theorem Returning.next (returning : Returning system)
    (sound : system.core.Sound) (resolved : system.core.BranchesResolved)
    (orderly : system.Orderly input) : Returning (system.next input) := by
  have queue := returning.queue.next (returning.allowed resolved)
    (returning.fits orderly)
  rw [← rob_next orderly.running] at queue
  cases runs : system.core.cmRecover with
  | true =>
      have log : (system.next input).log = .empty := if_pos runs
      have clear : (input.reset || system.core.clear) = true :=
        Core.flush_of_clear runs input
      have after : system.next input =
          { core := system.core.next input, log := .empty } := by
        rw [← log]
        rfl
      rw [after] at queue ⊢
      exact returning_of_flush clear queue
  | false =>
      have way2 : (system.core.backEnd.isUopOut
          (system.core.backEndInput input) 2).valid = false :=
        BackEnd.isUopOut_way2_of_emitted sound.emitted.backEnd.iqInt
      exact
        { queue := queue
          flowing := returning.flowing.advance orderly.running runs
            orderly.dataValid way2
          awaited := fun uop member =>
            returning.awaited_next resolved orderly runs member
          nodup := returning.nodup_next resolved orderly runs
          results := fun number uop known =>
            returning.results_next resolved orderly runs known }

end Cycle

theorem returning_of_run {system : CommitSystem}
    (run : Run Start next Orderly system) : Returning system := by
  have holds : Returning system ∧
      Run Core.Start Core.next (fun _ _ => True) system.core := by
    refine run.invariant (fun system => Returning system ∧
      Run Core.Start Core.next (fun _ _ => True) system.core) ?_ ?_
    · rintro ⟨_, _⟩ ⟨⟨before, input, reset, rfl⟩, rfl⟩
      have cm : (before.next input).cm = .resetState := if_pos reset
      refine ⟨returning_of_flush (Core.flush_of_reset reset) ?_,
        .start ⟨before, input, reset, rfl⟩⟩
      rw [cm]
      exact RobSystem.invariant_empty _ rfl rfl
    · rintro system input ⟨returning, reached⟩ orderly
      exact ⟨returning.next (Core.sound_of_run reached)
        (Core.branchesResolved_of_run reached) orderly,
        .step input reached trivial⟩
  exact holds.1

/-- A cycle in which the core and its reorder buffer agree -/
structure CommitOk (system : CommitSystem) : Prop where
  cycle : RobSystem.CycleOk system.rob system.core.robInput
  /-- A completion is that of a uop in the queue, which has none yet. -/
  awaited : ∀ lane, (system.core.cmUopsComplete lane).valid = true →
    ∃ number, Awaited system.log (system.core.cmUopsComplete lane) number
  once : ∀ one other, (system.core.cmUopsComplete one).valid = true →
    (system.core.cmUopsComplete other).valid = true →
    (system.core.cmUopsComplete one).robIndex =
      (system.core.cmUopsComplete other).robIndex → one = other
  /-- The whole group is accepted. -/
  taken : system.core.cmRecover = false →
    system.log.accepted system.core.robInput =
      validUops system.core.robUopsIn

theorem Returning.retired_identity {system : CommitSystem}
    (returning : Returning system) :
    system.log.retired.map MicroOp.identity <+:
      system.log.inserted.map MicroOp.identity := by
  rw [List.prefix_iff_getElem?]
  intro j inside
  rw [List.length_map] at inside
  rw [List.getElem?_map, List.getElem_map]
  rcases returning.queue.queue.retired j _
    (List.getElem?_eq_getElem inside) with ⟨completion, known, same⟩
  rw [same]
  exact returning.results j completion known

/-- In every run in which the data cache answers and every group fits into
the reorder buffer, the uops retire in the order in which rename handed them
over, unchanged but for their outcomes, and none is lost. -/
theorem core_retires_in_order {system : CommitSystem}
    (run : Run Start next Orderly system) :
    system.log.retired.map MicroOp.identity <+:
        system.log.inserted.map MicroOp.identity ∧
      ∀ input, system.Orderly input → system.CommitOk := by
  have returning := returning_of_run run
  have resolved := Core.branchesResolved_of_run (any_run run)
  refine ⟨returning.retired_identity, fun input orderly => ?_⟩
  have allowed := returning.allowed resolved
  refine
    { cycle := (returning.queue.cycleOk_iff allowed).mpr
        (returning.fits orderly)
      awaited := fun lane valid =>
        returning.awaited _ (mem_owed_of_complete valid)
      once := ?_
      taken := fun runs => returning.accepted_eq orderly
        ((recover_eq returning).symm.trans runs) }
  intro one other valid also same
  have nodup := returning.nodup
  rw [Core.owed, Multiset.map_add] at nodup
  have complete := Multiset.nodup_of_le (Multiset.le_add_left _ _) nodup
  exact lane_eq_of_key complete valid also same

end CommitSystem

namespace Core

/-- A cycle that fetches four times `addi x0, x0, 0`. -/
def fetchNops : CoreInput :=
  { fetchJal false with
    icache2coreData := 0x00000013000000130000001300000013 }

/-- After a reset and `cycles` such cycles. -/
def nops : Nat → Core
  | 0 => fetched 0
  | cycles + 1 => (nops cycles).next fetchNops

theorem orderly_nops {cycles : Nat} (early : cycles < 10) :
    (nops cycles).Orderly fetchNops := by
  refine ⟨rfl, rfl, fun _ => ?_⟩
  have fits : ∀ cycles < 10,
      (nops cycles).groupSystem.Fits ((nops cycles).groupInput fetchNops) := by
    unfold GroupSystem.Fits
    decide +kernel
  exact fits cycles early

end Core

namespace CommitSystem

/-- The run of `Core.nops` with its log -/
def nops : Nat → CommitSystem
  | 0 => { core := Core.nops 0, log := .empty }
  | cycles + 1 => (nops cycles).next Core.fetchNops

theorem core_nops (cycles : Nat) : (nops cycles).core = Core.nops cycles := by
  induction cycles with
  | zero => rfl
  | succ cycles induction =>
      change (nops cycles).core.next Core.fetchNops = _
      rw [induction]
      rfl

theorem run_nops {cycles : Nat} (early : cycles ≤ 10) :
    Run Start next Orderly (nops cycles) := by
  induction cycles with
  | zero => exact .start ⟨⟨_, _, rfl, rfl⟩, rfl⟩
  | succ cycles induction =>
      have orderly : (nops cycles).Orderly Core.fetchNops := by
        rw [Orderly, core_nops]
        exact Core.orderly_nops early
      exact .step Core.fetchNops (induction (Nat.le_of_succ_le early)) orderly

/-- By the tenth cycle the first `addi` has retired. -/
theorem core_retires_in_order_nops :
    0 < (nops 10).log.retired.length ∧
      (nops 10).log.retired.map MicroOp.identity <+:
        (nops 10).log.inserted.map MicroOp.identity :=
  ⟨by decide +kernel, (core_retires_in_order (run_nops (le_refl 10))).1⟩

end CommitSystem

end Ria
