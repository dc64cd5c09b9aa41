import Ria.Core.Retirement
import Ria.Frontend.RenameDataflow

/-!
# The history of the core

The uops that rename has put out, in program order: those retired, those in
the reorder buffer and those in the RR~DP register.  The core keeps the
promises that `RenameSystem` asks of its environment, so the tables of `rat`
are those of this history in every cycle.
-/

namespace Ria

open Hdl

/-- A destination other than x0 -/
def MicroOp.Writable (uop : MicroOp) : Prop :=
  uop.rdValid = true → uop.rdArfIntIndex ≠ 0

theorem inherited_writable : Inherited MicroOp.Writable := by
  refine ⟨?_, fun _ _ writable => writable, fun _ _ writable => writable,
    fun _ _ _ writable => writable⟩
  intro never
  cases never

theorem decode_writable (fbEntry : FbEntry) (valid : Bool) :
    (decode fbEntry valid).Writable := by
  unfold decode
  simp only [MicroOp.dropZeroRd_eq]
  split
  · intro writes
    simpa using (Bool.and_eq_true_iff.mp writes).2
  · exact inherited_writable.zero

/-- `rr_uops_out` -/
def Core.rrUopsOut (core : Core) (input : CoreInput) : Fin 4 → MicroOp :=
  core.frontEnd.rrUopsOut core.recover (core.frontEndInput input)

/-- The core, the log of its reorder buffer and what retired before the last
recovery -/
structure HistorySystem where
  core : Core
  log : FifoLog
  earlier : List MicroOp

namespace HistorySystem

def commit (system : HistorySystem) : CommitSystem :=
  { core := system.core, log := system.log }

/-- The uops that have retired -/
def retired (system : HistorySystem) : List MicroOp :=
  system.earlier ++ system.log.retired

/-- The uops that stay in the reorder buffer -/
def staying (system : HistorySystem) : List MicroOp :=
  system.log.inserted.drop system.log.retired.length

/-- The uops of the RR~DP register, oldest first -/
def arriving (system : HistorySystem) : List MicroOp :=
  system.core.frontEnd.rrDp.held validUops

def next (system : HistorySystem) (input : CoreInput) : HistorySystem :=
  { core := system.core.next input
    log := (system.commit.next input).log
    earlier :=
      if system.core.cmRecover then
        system.retired ++ validUops system.core.cmUopRetire
      else system.earlier }

def Start (system : HistorySystem) : Prop :=
  system.core.Start ∧ system.log = .empty ∧ system.earlier = []

def Orderly (system : HistorySystem) (input : CoreInput) : Prop :=
  system.core.Orderly input

theorem commit_run {system : HistorySystem}
    (run : Run Start next Orderly system) :
    Run CommitSystem.Start CommitSystem.next CommitSystem.Orderly
      system.commit := by
  induction run with
  | start started => exact .start ⟨started.1, started.2.1⟩
  | step input _ orderly induction =>
      have follows := Run.step input induction orderly
      exact follows

/-- The uops that rename knows of and has not retired -/
def pipeline (system : HistorySystem) : List MicroOp :=
  validUops system.core.uopRetire ++ system.staying ++ system.arriving

/-- In the cycle after a recovery nothing waits for rename. -/
structure Recovered (system : HistorySystem) : Prop where
  flushed : system.core.Flushed
  log : system.log = .empty

/-- `rat` has the history: up to `committed` it has seen the uops retire. -/
structure Renaming (system : HistorySystem) (committed : List MicroOp)
    (queue : List Allocation) : Prop where
  retired : system.retired = committed ++ validUops system.core.uopRetire
  rename : RenameInvariant system.core.frontEnd.rr
    (committed.map MicroOp.allocation) queue
  running : system.core.recover = false →
    queue = system.pipeline.map MicroOp.allocation
  recovering : system.core.recover = true → system.Recovered ∧
    (validUops system.core.uopRetire).map MicroOp.allocation <+: queue

section Cycle

variable {system : HistorySystem} {input : CoreInput}
  {committed : List MicroOp} {queue : List Allocation}

/-- The cycle of `rat` -/
def renameInput (core : Core) : RenameInput :=
  { recover := core.recover, uopRetire := core.uopRetire
    uopIn := core.frontEnd.idRr.out }

def renameSystem (core : Core) (committed : List MicroOp)
    (queue : List Allocation) : RenameSystem :=
  { rat := core.frontEnd.rr
    retired := committed.map MicroOp.allocation, queue := queue }

theorem Renaming.allowed (renames : Renaming system committed queue)
    (writable : system.core.Carries MicroOp.Writable) :
    RenameSystem.Allowed (renameSystem system.core committed queue)
      (renameInput system.core) := by
  refine ⟨?_, fun i _ => writable.frontEnd.idRrOut i, ?_⟩
  · cases recovers : system.core.recover with
    | true => exact (renames.recovering recovers).2
    | false =>
        change _ <+: queue
        rw [renames.running recovers, pipeline, List.append_assoc,
          List.map_append]
        exact List.prefix_append _ _
  · intro recovers i
    have idRr := (renames.recovering recovers).1.flushed.idRr
    change (system.core.frontEnd.idRr.out i).valid = false
    rw [idRr]
    rfl

theorem Renaming.next_rename (renames : Renaming system committed queue)
    (writable : system.core.Carries MicroOp.Writable)
    (running : input.reset = false) :
    RenameInvariant (system.core.next input).frontEnd.rr
      ((committed ++ validUops system.core.uopRetire).map MicroOp.allocation)
      (RenameSystem.next (renameSystem system.core committed queue)
        (renameInput system.core)).queue := by
  have after := (renames.allowed writable).next renames.rename
  have rr : (system.core.next input).frontEnd.rr =
      system.core.frontEnd.rr.next false system.core.recover
        system.core.uopRetire system.core.frontEnd.idRr.out := by
    change Rat.next _ input.reset _ _ _ = _
    rw [running]
    rfl
  rw [rr, List.map_append]
  exact after

theorem retired_next (system : HistorySystem) (input : CoreInput) :
    (system.next input).retired =
      system.retired ++ validUops system.core.cmUopRetire := by
  have log : (system.next input).log =
      if system.core.cmRecover then .empty
      else
        { inserted := system.log.inserted ++
            system.log.accepted system.core.robInput
          completion := system.log.completed system.core.robInput
          retired := system.log.retired ++
            validUops system.core.cmUopRetire } := rfl
  rw [retired, log, next]
  cases system.core.cmRecover with
  | true => exact List.append_nil _
  | false => exact (List.append_assoc _ _ _).symm

theorem uopRetire_next (running : input.reset = false) :
    (system.next input).core.uopRetire = system.core.cmUopRetire := by
  change (if input.reset then noUops else _) = _
  rw [running]
  rfl

theorem recover_next (running : input.reset = false) :
    (system.next input).core.recover = system.core.cmRecover := by
  change (if input.reset then false else _) = _
  rw [running]
  rfl

/-! ### The RR~DP register -/

theorem rrUopsOut_invalid {core : Core} {i : Fin 4}
    (invalid : (core.frontEnd.idRr.out i).valid = false) :
    (core.rrUopsOut input i).valid = false := by
  unfold Core.rrUopsOut FrontEnd.rrUopsOut Rat.uopOut
  split
  · rfl
  · split
    · exact invalid
    · rfl

/-- Behind a stalled register rename has nothing to do. -/
structure StallsBack (core : Core) : Prop where
  settled : core.frontEnd.rrDp.Settled validUops
  back : core.frontEnd.rrDp.stallPrev = true →
    ∀ i, (core.frontEnd.idRr.out i).valid = false

theorem StallsBack.next {core : Core} (stalls : StallsBack core)
    (input : CoreInput) : StallsBack (core.next input) := by
  have rrDp : (core.next input).frontEnd.rrDp =
      core.frontEnd.rrDp.next noUops (input.reset || core.clear)
        (FrontEnd.cmFull (core.frontEndInput input))
        (core.rrUopsOut input) := rfl
  have idRr : (core.next input).frontEnd.idRr =
      core.frontEnd.idRr.next noUops (input.reset || core.clear)
        (FrontEnd.cmFull (core.frontEndInput input) ||
          !core.frontEnd.rrAllocatable (core.frontEndInput input))
        core.frontEnd.idUopsOut := rfl
  refine ⟨?_, ?_⟩
  · rw [rrDp]
    exact stalls.settled.next validUops_noUops _
  · rw [rrDp, idRr]
    cases input.reset || core.clear with
    | true => exact nofun
    | false =>
        rw [SkidBuffer.next_stallPrev]
        intro full i
        rw [full, Bool.true_or, SkidBuffer.next_out_of_full]
        rfl

theorem stallsBack_of_run {core : Core}
    (run : Run Core.Start Core.next (fun _ _ => True) core) :
    StallsBack core := by
  refine run.invariant StallsBack ?_ fun _ input stalls _ => stalls.next input
  rintro _ ⟨before, input, reset, rfl⟩
  have flushed := before.flushed_next input (Core.flush_of_reset reset)
  refine ⟨?_, ?_⟩
  · rw [flushed.rrDp]
    exact SkidBuffer.settled_resetState validUops_noUops
  · rw [flushed.rrDp]
    exact nofun

theorem arriving_next (stalls : StallsBack system.core)
    (running : input.reset = false) (runs : system.core.cmRecover = false) :
    (system.next input).arriving =
      validUops system.core.frontEnd.rrDp.tmp ++
        validUops (system.core.rrUopsOut input) := by
  have rrDp : (system.next input).core.frontEnd.rrDp =
      system.core.frontEnd.rrDp.next noUops (input.reset || system.core.clear)
        (FrontEnd.cmFull (system.core.frontEndInput input))
        (system.core.rrUopsOut input) := rfl
  have clear : system.core.clear = false := runs
  rw [arriving, rrDp, running, clear]
  refine stalls.settled.held_next validUops_noUops fun stalled => ?_
  exact validUops_eq_nil.mpr fun i =>
    rrUopsOut_invalid (stalls.back stalled i)

/-! ### The queue of rename -/

theorem map_allocation (uops : List MicroOp) :
    (uops.map MicroOp.identity).map MicroOp.allocation =
      uops.map MicroOp.allocation := by
  rw [List.map_map]
  rfl

theorem leaving_allocation (returning : system.commit.Returning)
    (resolved : system.core.BranchesResolved) :
    (validUops system.core.cmUopRetire).map MicroOp.allocation <+:
      system.staying.map MicroOp.allocation := by
  have identity := returning.turn_identity.map MicroOp.allocation
  rw [map_allocation, map_allocation] at identity
  have leaves := returning.leaving_eq resolved
  change validUops system.core.cmUopRetire = _ at leaves
  rw [leaves]
  exact identity

theorem staying_next (returning : system.commit.Returning)
    (resolved : system.core.BranchesResolved)
    (orderly : system.Orderly input) (runs : system.core.cmRecover = false) :
    (validUops system.core.cmUopRetire ++ (system.next input).staying).map
        MicroOp.allocation =
      (system.staying ++ validUops system.core.robUopsIn).map
        MicroOp.allocation := by
  have right := (CommitSystem.recover_eq returning).symm.trans runs
  have onward := returning.onward resolved orderly right
  have short : system.log.retired.length ≤ system.log.inserted.length :=
    returning.queue.queue.short
  have leaves : validUops system.core.cmUopRetire =
      system.log.turn system.core.robInput := returning.leaving_eq resolved
  have first : (system.next input).log.retired.length =
      system.log.retired.length +
        (validUops system.core.cmUopRetire).length :=
    onward.first.trans (by rw [leaves]; rfl)
  have inserted : (system.next input).log.inserted =
      system.log.inserted ++ validUops system.core.robUopsIn :=
    onward.inserted
  have remains : (system.next input).staying =
      (system.staying ++ validUops system.core.robUopsIn).drop
        (validUops system.core.cmUopRetire).length := by
    rw [staying, staying, first, inserted,
      ← List.drop_append_of_le_length short, List.drop_drop]
  rcases (leaving_allocation returning resolved).trans
    (List.prefix_append _ ((validUops system.core.robUopsIn).map
      MicroOp.allocation)) with ⟨rest, split⟩
  rw [← List.map_append] at split
  rw [remains, List.map_append, List.map_drop, ← split,
    List.drop_left' (List.length_map _)]

theorem pipeline_next (returning : system.commit.Returning)
    (resolved : system.core.BranchesResolved) (stalls : StallsBack system.core)
    (orderly : system.Orderly input) (runs : system.core.cmRecover = false) :
    (system.next input).pipeline.map MicroOp.allocation =
      (system.staying ++ system.arriving ++
        validUops (system.core.rrUopsOut input)).map MicroOp.allocation := by
  have stays := staying_next returning resolved orderly runs
  rw [pipeline, uopRetire_next orderly.running,
    arriving_next stalls orderly.running runs, List.map_append, stays,
    arriving, SkidBuffer.held]
  simp only [List.map_append, List.append_assoc]
  rfl

/-- In the cycle after a recovery nothing is renamed or retires. -/
theorem Recovered.silent (recovered : system.Recovered) (input : CoreInput)
    (recovers : system.core.recover = true) :
    system.staying = [] ∧ system.arriving = [] ∧
      validUops (system.core.rrUopsOut input) = [] := by
  refine ⟨?_, ?_, ?_⟩
  · rw [staying, recovered.log]
    rfl
  · rw [arriving, recovered.flushed.rrDp]
    exact SkidBuffer.held_resetState validUops_noUops
  · rw [Core.rrUopsOut, recovers]
    exact validUops_noUops

theorem Recovered.runs (recovered : system.Recovered)
    (returning : system.commit.Returning) : system.core.cmRecover = false := by
  have recover := CommitSystem.recover_eq returning
  change system.core.cmRecover =
    (system.log.turn system.core.robInput).any Rob.mispredicted at recover
  rw [recover, recovered.log]
  rfl

theorem Renaming.queue_next (renames : Renaming system committed queue)
    (input : CoreInput) (runs : system.core.recover = false) :
    (RenameSystem.next (renameSystem system.core committed queue)
        (renameInput system.core)).queue =
      (system.staying ++ system.arriving ++
        validUops (system.core.rrUopsOut input)).map MicroOp.allocation := by
  have retiring : RenameSystem.retiring (renameInput system.core) =
      (validUops system.core.uopRetire).map MicroOp.allocation := rfl
  have queued : (renameSystem system.core committed queue).queue =
      (validUops system.core.uopRetire).map MicroOp.allocation ++
        (system.staying ++ system.arriving).map MicroOp.allocation := by
    rw [← List.map_append, ← List.append_assoc]
    exact renames.running runs
  have going : (renameInput system.core).recover = false := runs
  rw [RenameSystem.next, going, retiring, queued, List.drop_left,
    if_neg Bool.false_ne_true]
  simp only [List.map_append]
  rfl

theorem Renaming.next (renames : Renaming system committed queue)
    (returning : system.commit.Returning)
    (resolved : system.core.BranchesResolved)
    (writable : system.core.Carries MicroOp.Writable)
    (stalls : StallsBack system.core) (orderly : system.Orderly input) :
    Renaming (system.next input) system.retired
      (RenameSystem.next (renameSystem system.core committed queue)
        (renameInput system.core)).queue := by
  have running := orderly.running
  have rename := renames.next_rename writable running
  rw [← renames.retired] at rename
  refine
    { retired := ?_, rename := rename, running := fun runs => ?_
      recovering := fun recovers => ?_ }
  · rw [retired_next, uopRetire_next running]
  · rw [recover_next running] at runs
    rw [pipeline_next returning resolved stalls orderly runs]
    cases recovers : system.core.recover with
    | false => exact renames.queue_next input recovers
    | true =>
        rcases (renames.recovering recovers).1.silent input recovers with
          ⟨staying, arriving, renamed⟩
        rw [staying, arriving, renamed]
        exact if_pos recovers
  · rw [recover_next running] at recovers
    have log : (system.next input).log = .empty := if_pos recovers
    refine ⟨⟨system.core.flushed_next input (Core.flush_of_clear recovers
      input), log⟩, ?_⟩
    have runs : system.core.recover = false := by
      rw [← Bool.not_eq_true]
      intro recovering
      have goes := (renames.recovering recovering).1.runs returning
      rw [recovers] at goes
      cases goes
    have queued := renames.queue_next input runs
    rw [uopRetire_next running, queued, List.append_assoc, List.map_append]
    exact (leaving_allocation returning resolved).trans
      (List.prefix_append _ _)

end Cycle

/-! ## Runs -/

theorem writable_of_run {core : Core}
    (run : Run Core.Start Core.next (fun _ _ => True) core) :
    core.Carries MicroOp.Writable := by
  refine run.invariant (fun core => core.Carries MicroOp.Writable) ?_ ?_
  · rintro _ ⟨before, input, reset, rfl⟩
    refine (Core.Carries.of_flush before input
      (Core.flush_of_reset reset)).mono ?_
    rintro uop rfl
    exact inherited_writable.zero
  · intro core input writable _
    exact writable.next inherited_writable
      (fun i => decode_writable _ _) input

/-- The invariant of rename in the core -/
structure Following (system : HistorySystem) : Prop where
  returning : system.commit.Returning
  renames : ∃ committed queue, system.Renaming committed queue

theorem following_of_start {system : HistorySystem} (start : system.Start) :
    system.Following := by
  have returning := CommitSystem.returning_of_run
    (.start ⟨start.1, start.2.1⟩ : Run CommitSystem.Start _ _ system.commit)
  rcases system with ⟨_, _, _⟩
  rcases start with ⟨⟨before, input, reset, rfl⟩, rfl, rfl⟩
  have rr : (before.next input).frontEnd.rr = MappingTable.resetState :=
    if_pos reset
  have uopRetire : (before.next input).uopRetire = noUops := if_pos reset
  have rrDp := (before.flushed_next input (Core.flush_of_reset reset)).rrDp
  have recover : (before.next input).recover = false := if_pos reset
  refine ⟨returning, [], [], ?_⟩
  refine
    { retired := ?_, rename := ?_, running := fun _ => ?_
      recovering := fun recovers => ?_ }
  · rw [uopRetire, validUops_noUops]
    rfl
  · rw [rr]
    exact ⟨MapsAgree.resetState, Conserved.resetState⟩
  · rw [pipeline, uopRetire, validUops_noUops, arriving, rrDp]
    rfl
  · rw [recover] at recovers
    cases recovers

theorem core_run {system : HistorySystem}
    (run : Run Start next Orderly system) :
    Run Core.Start Core.next (fun _ _ => True) system.core :=
  CommitSystem.any_run (commit_run run)

theorem following_of_run {system : HistorySystem}
    (run : Run Start next Orderly system) : system.Following := by
  induction run with
  | start started => exact following_of_start started
  | step input run orderly induction =>
      rcases induction with ⟨returning, committed, queue, renames⟩
      have reached := core_run run
      have resolved := Core.branchesResolved_of_run reached
      refine ⟨?_, _, _, renames.next returning resolved
        (writable_of_run reached) (stallsBack_of_run reached) orderly⟩
      exact CommitSystem.returning_of_run
        (commit_run (Run.step input run orderly))

/-- What rename has seen retire: all but the uops of the register before
it -/
def committed (system : HistorySystem) : List MicroOp :=
  system.retired.take
    (system.retired.length - (validUops system.core.uopRetire).length)

theorem Renaming.committed_eq {system : HistorySystem}
    {committed : List MicroOp} {queue : List Allocation}
    (renames : Renaming system committed queue) :
    system.committed = committed := by
  rw [HistorySystem.committed, renames.retired, List.length_append,
    Nat.add_sub_cancel, List.take_left]

/-- The tables of rename are those of the history: the speculative map holds
the last writers of the uops retired and in the pipeline, the committed map
those of the uops retired; a register is busy exactly if it is register 0,
committed, or the destination of one uop of the pipeline. -/
theorem tables_follow_history {system : HistorySystem}
    (run : Run Start next Orderly system)
    (runs : system.core.recover = false) :
    system.retired = system.committed ++ validUops system.core.uopRetire ∧
      MapsAgree system.core.frontEnd.rr
        (system.committed.map MicroOp.allocation)
        (system.pipeline.map MicroOp.allocation) ∧
      RenameSystem.Partitioned
        { rat := system.core.frontEnd.rr
          retired := system.committed.map MicroOp.allocation
          queue := system.pipeline.map MicroOp.allocation } := by
  rcases following_of_run run with ⟨-, committed, queue, renames⟩
  have queued := renames.running runs
  have rename := renames.rename
  rw [queued] at rename
  rw [renames.committed_eq]
  exact ⟨renames.retired, rename.agree, RenameSystem.partitioned rename⟩

/-- Every run of the core with its log is one with its history. -/
theorem exists_history {commit : CommitSystem}
    (run : Run CommitSystem.Start CommitSystem.next CommitSystem.Orderly
      commit) :
    ∃ system : HistorySystem, system.commit = commit ∧
      Run Start next Orderly system := by
  induction run with
  | start started => exact ⟨⟨_, _, []⟩, rfl, .start ⟨started.1, started.2, rfl⟩⟩
  | step input run orderly induction =>
      rcases induction with ⟨system, rfl, follows⟩
      exact ⟨system.next input, rfl, .step input follows orderly⟩

theorem tables_follow_history_nops :
    ∃ system : HistorySystem, system.commit = CommitSystem.nops 10 ∧
      MapsAgree system.core.frontEnd.rr
        (system.committed.map MicroOp.allocation)
        (system.pipeline.map MicroOp.allocation) := by
  rcases exists_history (CommitSystem.run_nops (le_refl 10)) with
    ⟨system, same, run⟩
  have runs : system.core.recover = false := by
    change system.commit.core.recover = false
    rw [same]
    decide +kernel
  exact ⟨system, same, (tables_follow_history run runs).2.1⟩

end HistorySystem

end Ria
