import Ria.Core.Trace

/-!
# The numbers of the uops in flight

Every uop that the back end holds has its place in the history: that of the
entry of the reorder buffer that it names.  While nothing is squashed it keeps
this number until its write-back, and no two uops in flight have the same.
-/

namespace Ria

open Hdl

namespace HistorySystem

/-- The number in the history of a uop that the back end holds -/
def number (system : HistorySystem) (uop : MicroOp) : Nat :=
  system.earlier.length +
    FifoLog.owner system.log.retired.length uop.robIndex

/-- The uop is in the history and has not retired. -/
structure Held (system : HistorySystem) (uop : MicroOp) : Prop where
  waits : system.retired.length ≤ system.number uop
  inside : system.number uop < system.entered
  found : system.trace[system.number uop]? = some uop.identity

/-- A cycle of a run -/
structure Running (system : HistorySystem) (input : CoreInput) : Prop where
  following : system.Following
  after : (system.next input).Following
  resolved : system.core.BranchesResolved
  stalls : StallsBack system.core
  sound : system.core.Sound
  writable : system.core.Carries MicroOp.Writable
  orderly : system.Orderly input

theorem running_of_run {system : HistorySystem} {input : CoreInput}
    (run : Run Start next Orderly system) (orderly : system.Orderly input) :
    system.Running input :=
  { following := following_of_run run
    after := following_of_run (Run.step input run orderly)
    resolved := Core.branchesResolved_of_run (core_run run)
    stalls := stallsBack_of_run (core_run run)
    sound := Core.sound_of_run (core_run run)
    writable := writable_of_run (core_run run)
    orderly := orderly }

section Numbers

variable {system : HistorySystem} {input : CoreInput}

theorem number_of_awaited (returning : system.commit.Returning)
    {uop : MicroOp} {number : Nat}
    (awaited : CommitSystem.Awaited system.log uop number) :
    system.number uop = system.earlier.length + number :=
  congrArg (system.earlier.length + ·)
    (@CommitSystem.Awaited.owner system.commit uop number awaited
      returning.queue)

theorem number_congr {one other : MicroOp}
    (same : one.unresolved = other.unresolved) :
    system.number one = system.number other := by
  rw [HistorySystem.number, HistorySystem.number,
    MicroOp.agree same MicroOp.robIndex fun _ => rfl]

theorem held_of_awaited (returning : system.commit.Returning)
    {uop : MicroOp} {number : Nat}
    (awaited : CommitSystem.Awaited system.log uop number) :
    system.Held uop := by
  have position := number_of_awaited returning awaited
  have low := awaited.low
  have inside := awaited.inside
  have within : system.number uop < system.entered := by
    rw [position, entered]
    omega
  refine ⟨?_, within, ?_⟩
  · rw [position, retired, List.length_append]
    omega
  · rw [getElem?_trace_of_entered within, position,
      List.getElem?_append_right (Nat.le_add_right _ _),
      Nat.add_sub_cancel_left]
    exact awaited.same

theorem Following.held (following : system.Following) {uop : MicroOp}
    (member : uop ∈ system.core.owed) : system.Held uop := by
  rcases following.returning.awaited uop member with ⟨number, awaited⟩
  exact held_of_awaited following.returning awaited

theorem robIndex_of_number (one other : MicroOp)
    (same : system.number one = system.number other) :
    one.robIndex = other.robIndex := by
  have owners := Nat.add_left_cancel same
  rw [← ofNat_owner system.log.retired.length one.robIndex, owners,
    ofNat_owner]

theorem Following.way_of_number (following : system.Following) {i j : Fin 4}
    (one : (system.core.backEnd.exUopOut i).valid = true)
    (other : (system.core.backEnd.exUopOut j).valid = true)
    (same : system.number (system.core.backEnd.exUopOut i) =
      system.number (system.core.backEnd.exUopOut j)) : i = j := by
  have nodup : (system.core.owed.map MicroOp.robIndex).Nodup :=
    following.returning.nodup
  have ways := Multiset.nodup_of_le (Multiset.map_le_map
    ((Multiset.le_add_left _ _).trans (Multiset.le_add_right _ _))) nodup
  exact lane_eq_of_key ways one other (robIndex_of_number _ _ same)

theorem Following.number_ne (following : system.Following) {uop : MicroOp}
    {way : Fin 4} (waits : uop ∈ system.core.backEnd.unexecuted)
    (valid : (system.core.backEnd.exUopOut way).valid = true) :
    system.number uop ≠ system.number (system.core.backEnd.exUopOut way) := by
  intro same
  have nodup : (system.core.owed.map MicroOp.robIndex).Nodup :=
    following.returning.nodup
  have held : (system.core.backEnd.inFlight.map MicroOp.robIndex).Nodup :=
    Multiset.nodup_of_le
      (Multiset.map_le_map (Multiset.le_add_right _ _)) nodup
  rw [BackEnd.inFlight, Multiset.map_add, Multiset.nodup_add] at held
  have here := Multiset.mem_map_of_mem MicroOp.robIndex waits
  have there := Multiset.mem_map_of_mem MicroOp.robIndex
    (mem_uopsOf.mpr ⟨way, rfl, valid⟩)
  rw [robIndex_of_number _ _ same] at here
  exact Multiset.disjoint_left.mp held.2.2 here there

theorem mem_inFlight_of_wb {backEnd : BackEnd} {way : Fin 4}
    (valid : (backEnd.exUopOut way).valid = true) :
    backEnd.exUopOut way ∈ backEnd.inFlight :=
  Multiset.mem_add.mpr (.inr (mem_uopsOf.mpr ⟨way, rfl, valid⟩))

theorem mem_inFlight_of_unexecuted {backEnd : BackEnd} {uop : MicroOp}
    (waits : uop ∈ backEnd.unexecuted) : uop ∈ backEnd.inFlight :=
  Multiset.mem_add.mpr (.inl waits)

theorem Following.inFlight (following : system.Following) {uop : MicroOp}
    (member : uop ∈ system.core.backEnd.inFlight) : system.Held uop :=
  following.held (Multiset.mem_add.mpr (.inl member))

/-- A way that writes the register of a live uop writes back this uop. -/
theorem Following.writes_back (following : system.Following) {number : Nat}
    {uop : MicroOp} (live : system.Live number)
    (found : system.trace[number]? = some uop) (valid : uop.rdValid = true)
    {cycle : BackEndInput} {way : Fin 4}
    (writes : (system.core.backEnd.rdPorts cycle).Writes way
      uop.rdPrfIntIndex) :
    (system.core.backEnd.exUopOut way).valid = true ∧
      number = system.number (system.core.backEnd.exUopOut way) := by
  have enabled : (system.core.backEnd.exUopOut way).rdValid = true := writes.1
  have active : (system.core.backEnd.exUopOut way).valid = true := by
    rw [← Bool.not_eq_false]
    intro idle
    have tidy : (system.core.backEnd.exUopOut way).rdValid = false :=
      following.returning.flowing.wbTidy way idle
    rw [enabled] at tidy
    cases tidy
  have held := following.inFlight (mem_inFlight_of_wb active)
  exact ⟨active, following.distinct live found valid held.waits held.found
    enabled writes.2.symm⟩

theorem live_of_waits {number : Nat}
    (waits : system.retired.length ≤ number) : system.Live number := by
  have short := system.committed_le
  intro uop arf found target later above below
  omega

end Numbers

/-! ## A cycle without recovery -/

section Onward

variable {system : HistorySystem} {input : CoreInput}
  (running : system.Running input)

include running

theorem Running.agrees {number : Nat}
    (inside : number < (system.next input).entered) :
    (system.next input).trace[number]? = system.trace[number]? :=
  trace_agrees running.following.returning running.resolved running.stalls
    running.orderly inside

theorem Running.sourced (sourced : Sourced system.trace) :
    Sourced (system.next input).trace := by
  rcases running.following with ⟨returning, committed, queue, renames⟩
  exact sourced_next sourced returning running.resolved renames
    running.writable running.stalls running.orderly

omit running in
theorem entered_of_recover (recovers : system.core.cmRecover = true) :
    (system.next input).entered = (system.next input).retired.length := by
  have log : (system.next input).log = .empty := if_pos recovers
  rw [entered, retired, log, List.length_append]
  rfl

variable (runs : system.core.cmRecover = false)

include runs

theorem Running.onward : CommitSystem.Onward system.log
    system.core.robInput (system.next input).log := by
  have right := (CommitSystem.recover_eq
    running.following.returning).symm.trans runs
  exact running.following.returning.onward running.resolved running.orderly
    right

omit running in
theorem earlier_next : (system.next input).earlier = system.earlier := by
  rw [next, runs]
  rfl

theorem Running.entered : (system.next input).entered =
    system.entered + (validUops system.core.robUopsIn).length := by
  have inserted : (system.next input).log.inserted =
      system.log.inserted ++ validUops system.core.robUopsIn :=
    (running.onward runs).inserted
  rw [HistorySystem.entered, HistorySystem.entered, earlier_next runs,
    inserted, List.length_append, Nat.add_assoc]

theorem Running.number {uop : MicroOp}
    (member : uop ∈ system.core.backEnd.inFlight) :
    (system.next input).number uop = system.number uop := by
  have returning := running.following.returning
  rcases returning.awaited uop (Multiset.mem_add.mpr (.inl member)) with
    ⟨number, awaited⟩
  have missing := returning.completed_none member awaited
  have after := (running.onward runs).stays awaited missing
  rw [number_of_awaited running.after.returning after,
    number_of_awaited returning awaited, earlier_next runs]

theorem Running.number_dispatched {i : Fin 4}
    (valid : (system.core.dpUopsIn i).valid = true) :
    (system.next input).number (system.core.dpUopsIn i) =
      system.entered + validBefore system.core.robUopsIn i.val := by
  have arrived : CommitSystem.Awaited (system.next input).log
      (system.core.dpUopsIn i)
      (system.log.inserted.length + validBefore system.core.robUopsIn i.val) :=
    (running.following.returning.arrived running.resolved running.orderly
      runs valid).2
  rw [number_of_awaited running.after.returning arrived,
    earlier_next runs, HistorySystem.entered]
  exact (Nat.add_assoc _ _ _).symm

theorem Running.echoed {i : Fin 4}
    (valid : (system.core.robUopsIn i).valid = true) :
    (system.core.dpUopsIn i).identity =
      (system.core.robUopsIn i).identity := by
  have returning := running.following.returning
  have allowed := returning.allowed running.resolved
  have right := (CommitSystem.recover_eq returning).symm.trans runs
  have whole : (validUops system.core.robUopsIn).take
      (system.log.room system.core.robInput) =
        validUops system.core.robUopsIn :=
    returning.accepted_eq running.orderly right
  have before : validBefore system.core.robUopsIn i.val <
      (validUops system.core.robUopsIn).length := by
    rw [← validBefore_lanes]
    exact validBefore_lt i.isLt valid
  have room := List.take_eq_self_iff _ |>.mp whole
  have ok := (returning.queue.cycleOk_iff allowed).mpr
    (returning.fits running.orderly)
  have echoed := ok.echoes i
  rw [if_pos ⟨runs, valid, before.trans_le room⟩] at echoed
  have same := congrArg MicroOp.identity echoed
  exact same

/-- A uop that enters the reorder buffer is dispatched. -/
theorem Running.dispatched {number : Nat} {uop : MicroOp}
    (new : system.entered ≤ number)
    (inside : number < (system.next input).entered)
    (found : (system.next input).trace[number]? = some uop) :
    ∃ i, (system.core.dpUopsIn i).identity = uop := by
  have inserted : (system.next input).log.inserted =
      system.log.inserted ++ validUops system.core.robUopsIn :=
    (running.onward runs).inserted
  have length : (system.earlier ++ system.log.inserted).length =
      system.entered := List.length_append
  rw [getElem?_trace_of_entered inside, earlier_next runs, inserted,
    ← List.append_assoc, List.getElem?_append_right (by rwa [length])] at found
  rcases Option.map_eq_some_iff.mp found with ⟨entering, there, rfl⟩
  rcases lane_of_getElem? there with ⟨i, valid, -, rfl⟩
  exact ⟨i, running.echoed runs valid⟩

end Onward

end HistorySystem

end Ria
