import Ria.Core.FetchOrder

/-!
# The path of the program

What has retired leads from the reset address along the outcomes of its
branches.  What waits behind it leads on along the predictions up to the pc.
The uops that retire in a cycle were predicted right, but for the last one of
a recovery, whose outcome is the next pc.
-/

namespace Ria

open Hdl

/-- The uops before the last one in a bundle -/
theorem validUops_last {lanes : Nat} {uops : Fin lanes → MicroOp}
    {i : Fin lanes} (valid : (uops i).valid = true)
    (after : ∀ j > i, uops j = 0) :
    ∃ before, validUops uops = before ++ [uops i] ∧
      ∀ uop ∈ before, uop.valid = true ∧ ∃ j < i, uops j = uop := by
  have inside : i.val < (List.ofFn uops).length := by
    rw [List.length_ofFn]
    exact i.isLt
  have rest : ((List.ofFn uops).drop (i.val + 1)).filter MicroOp.valid =
      [] := by
    refine List.filter_eq_nil_iff.mpr fun uop member => ?_
    rcases List.mem_drop_iff_getElem.mp member with ⟨j, within, rfl⟩
    rw [List.getElem_ofFn, after]
    · exact Bool.false_ne_true
    · exact Fin.mk_lt_mk.mpr (by omega)
  have split : List.ofFn uops = (List.ofFn uops).take i.val ++
      uops i :: (List.ofFn uops).drop (i.val + 1) := by
    conv_lhs => rw [← List.take_append_drop i.val (List.ofFn uops),
      List.drop_eq_getElem_cons inside, List.getElem_ofFn]
  refine ⟨((List.ofFn uops).take i.val).filter MicroOp.valid, ?_, ?_⟩
  · conv_lhs => rw [validUops, split, List.filter_append,
      List.filter_cons_of_pos valid, rest]
  · intro uop member
    rcases List.mem_filter.mp member with ⟨among, kept⟩
    rcases List.mem_take_iff_getElem.mp among with ⟨j, within, rfl⟩
    rw [List.getElem_ofFn] at kept ⊢
    exact ⟨kept, _, Fin.mk_lt_mk.mpr (within.trans_le (Nat.min_le_left _ _)),
      rfl⟩

namespace Core

variable {core : Core} {input : CoreInput} {program : Word → Word}

/-- How the bundle that retires ends -/
theorem BranchesResolved.ends (resolved : core.BranchesResolved) :
    Rob.Ends (core.cm.retired core.cmUopsComplete) :=
  Rob.retire_ends (Rob.complete_fit resolved.settled
    fun lane _ => resolved.complete lane)

theorem BranchesResolved.quiet (resolved : core.BranchesResolved)
    (runs : core.cmRecover = false) {uop : MicroOp}
    (member : uop ∈ validUops core.cmUopRetire) :
    uop.valid = true ∧ BranchPred.Quiet uop := by
  rcases mem_validUops.mp member with ⟨i, rfl, valid⟩
  rcases resolved.ends with ⟨-, quiet⟩ | ⟨recovers, -⟩
  · exact ⟨valid, quiet i⟩
  · have never : core.cmRecover = true := recovers
    rw [runs] at never
    cases never

/-- A recovery retires the mispredicted branch last, and fetch goes on where
it leads. -/
theorem BranchesResolved.redirects (resolved : core.BranchesResolved)
    (fetches : core.Fetches program input)
    (recovers : core.cmRecover = true) :
    ∃ before last, validUops core.cmUopRetire = before ++ [last] ∧
      (∀ uop ∈ before, uop.valid = true ∧ BranchPred.Quiet uop) ∧
        last.brType ≠ .x ∧ (core.next input).if0.pc = last.brAddr := by
  have agree := detectors_agree core.cm core.cmUopsComplete core.robUopsIn
    core.if0.brPred core.if0.pc (core.if0.isBranch (core.fetchInput input))
    input.isValid resolved.settled fun lane _ => resolved.complete lane
  have delivers : core.if0.instsOutValid (core.fetchInput input) = true := by
    have redirected := (resolved.mispredict_eq_clear input).trans recovers
    have data : (core.fetchInput input).icacheDataValid = true :=
      fetches.answered recovers
    rw [InstFetch.instsOutValid, redirected, data, Bool.or_true]
    rfl
  have target := (agree.2 recovers).2.1
  have pc : (core.next input).if0.pc =
      (core.if0.prediction (core.fetchInput input)).nextPc := by
    have running : (core.fetchInput input).reset = false :=
      fetches.orderly.running
    change (if (core.fetchInput input).reset then (0x1000 : Word)
      else if core.if0.instsOutValid (core.fetchInput input) then _
      else _) = _
    rw [running, delivers]
    rfl
  rcases resolved.ends with ⟨runs, -⟩ |
    ⟨-, -, -, i, last, valid, branch, -, before, after⟩
  · have never : core.cmRecover = false := runs
    rw [recovers] at never
    cases never
  · rw [← last] at valid branch
    rcases validUops_last valid after with ⟨earlier, split, quiet⟩
    refine ⟨earlier, core.cmUopRetire i, split, ?_, branch, ?_⟩
    · intro uop member
      rcases quiet uop member with ⟨kept, j, below, rfl⟩
      exact ⟨kept, before j below⟩
    · have here : core.cmUopRetire i = core.cmOutputs.uopRecover := last
      rw [pc, here]
      exact target

end Core

namespace HistorySystem

/-- The reset address leads over what has retired and what waits to the pc. -/
structure OnPath (program : Word → Word) (system : HistorySystem) : Prop where
  path : ∃ here, Walk MicroOp.pc MicroOp.nextPc 0x1000 system.retired here ∧
    Walk MicroOp.pc MicroOp.predAddr here
      (system.pending.map MicroOp.instruction) system.core.if0.pc
  genuine : ∀ uop ∈ system.instructions, Core.Genuine program uop

section Cycle

variable {system : HistorySystem} {input : CoreInput}
  {program : Word → Word}

/-- What leaves is the first that waits. -/
theorem leaving_instruction (running : system.Running input) :
    (validUops system.core.cmUopRetire).map MicroOp.instruction <+:
      system.pending.map MicroOp.instruction := by
  have returning := running.following.returning
  have leaves : validUops system.core.cmUopRetire =
      system.log.turn system.core.robInput :=
    returning.leaving_eq running.resolved
  have first : (system.log.turn system.core.robInput).map MicroOp.identity <+:
      system.staying.map MicroOp.identity := returning.turn_identity
  have prefixed := first.map MicroOp.unrenamed
  rw [map_instruction, map_instruction] at prefixed
  rw [leaves, pending, List.append_assoc, List.map_append]
  exact prefixed.trans (List.prefix_append _ _)

/-- A uop that was predicted right goes where it was predicted to go. -/
theorem nextPc_of_quiet {uop : MicroOp} (valid : uop.valid = true)
    (quiet : BranchPred.Quiet uop)
    (genuine : Core.Genuine program uop.instruction) :
    uop.instruction.predAddr = uop.nextPc := by
  by_cases plain : uop.brType = .x
  · rw [MicroOp.nextPc, if_pos plain]
    exact genuine.falls plain
  · have right := quiet valid plain
    rw [BranchPred.mispredicted, Bool.or_eq_false_iff, bne_eq_false_iff_eq,
      bne_eq_false_iff_eq] at right
    rw [MicroOp.nextPc, if_neg plain]
    exact right.2.symm

theorem OnPath.taken (onPath : system.OnPath program)
    (running : system.Running input) {uops : List MicroOp}
    (among : ∀ uop ∈ uops, uop ∈ validUops system.core.cmUopRetire)
    (quiet : ∀ uop ∈ uops, uop.valid = true ∧ BranchPred.Quiet uop)
    {first last : Word} (walk : Walk MicroOp.pc MicroOp.predAddr first
      (uops.map MicroOp.instruction) last) :
    Walk MicroOp.pc MicroOp.nextPc first uops last := by
  refine (Walk.map_iff MicroOp.instruction fun uop member => ⟨rfl, ?_⟩).mp walk
  rcases quiet uop member with ⟨valid, right⟩
  refine nextPc_of_quiet valid right (onPath.genuine _ ?_)
  rw [instructions_retired running.following.returning]
  exact List.mem_append_right _ ((leaving_instruction running).subset
    (List.mem_map_of_mem (among uop member)))

theorem OnPath.next_of_runs {log : StallLog}
    (onPath : system.OnPath program) (running : system.Running input)
    (stalls : StallSystem.Invariant (system.core.stallSystem log))
    (fetches : system.core.Fetches program input)
    (runs : system.core.cmRecover = false) :
    (system.next input).OnPath program := by
  have added := instructions_next running stalls fetches runs
  refine ⟨?_, fun uop member => ?_⟩
  · rcases onPath.path with ⟨here, retired, waits⟩
    rcases leaving_instruction running with ⟨rest, split⟩
    rw [← split] at waits
    rcases waits.split with ⟨middle, leaves, stays⟩
    have taken := onPath.taken running (fun _ member => member)
      (fun _ => running.resolved.quiet runs) leaves
    have pending : (system.next input).pending.map MicroOp.instruction =
        rest ++ (system.core.arrivals input).map fun entry =>
          (decode entry true).instruction := by
      rw [instructions_retired running.after.returning, retired_next,
        instructions_retired running.following.returning, ← split] at added
      simpa only [List.map_append, List.append_assoc,
        List.append_cancel_left_eq] using added
    refine ⟨middle, ?_, ?_⟩
    · rw [retired_next]
      exact retired.append taken
    · rw [pending]
      exact stays.append (fetches.path running.resolved runs)
  · rw [added] at member
    rcases List.mem_append.mp member with old | new
    · exact onPath.genuine uop old
    · rcases List.mem_map.mp new with ⟨entry, arrives, rfl⟩
      exact fetches.genuine arrives

theorem OnPath.next_of_recover (onPath : system.OnPath program)
    (running : system.Running input)
    (fetches : system.core.Fetches program input)
    (recovers : system.core.cmRecover = true) :
    (system.next input).OnPath program := by
  have left := instructions_next_of_recover running recovers
  rcases leaving_instruction running with ⟨rest, split⟩
  refine ⟨?_, fun uop member => ?_⟩
  · rcases onPath.path with ⟨here, retired, waits⟩
    rw [← split] at waits
    rcases waits.split with ⟨middle, leaves, -⟩
    rcases running.resolved.redirects fetches recovers with
      ⟨before, last, leaving, quiet, branch, target⟩
    rw [leaving, List.map_append] at leaves
    rcases leaves.split with ⟨turn, first, final⟩
    have taken := onPath.taken running
      (fun uop member => leaving ▸ List.mem_append_left _ member) quiet first
    have pending : (system.next input).pending.map MicroOp.instruction =
        [] := by
      rw [instructions_retired running.after.returning] at left
      simpa only [List.append_right_eq_self] using left
    have pc : (system.next input).core.if0.pc = last.brAddr := target
    have goes : last.nextPc = last.brAddr := if_neg branch
    refine ⟨last.brAddr, ?_, ?_⟩
    · rw [retired_next, leaving]
      exact retired.append (taken.append ⟨final.1, goes⟩)
    · rw [pending, pc]
      rfl
  · rw [left, retired_next, List.map_append] at member
    refine onPath.genuine uop ?_
    rw [instructions_retired running.following.returning]
    rcases List.mem_append.mp member with old | new
    · exact List.mem_append_left _ old
    · exact List.mem_append_right _
        ((leaving_instruction running).subset new)

theorem onPath_of_start (start : system.Start) :
    system.OnPath program := by
  have returning := (following_of_start start).returning
  rcases start with ⟨⟨before, input, reset, core⟩, log, earlier⟩
  have pc : (before.next input).if0.pc = 0x1000 := if_pos reset
  have pending := pending_of_flush core log (Core.flush_of_reset reset)
  have retired : system.retired = [] := by
    rw [HistorySystem.retired, log, earlier]
    rfl
  refine ⟨⟨0x1000, ?_, ?_⟩, fun uop member => ?_⟩
  · rw [retired]
    rfl
  · rw [pending, core, pc]
    rfl
  · rw [instructions_retired returning, retired, pending] at member
    cases member

end Cycle

/-! ## Runs -/

theorem core_run_of_fetches {program : Word → Word} {system : HistorySystem}
    (run : Run Start next
      (fun system input => system.core.Fetches program input) system) :
    Run Core.Start Core.next (Core.Fetches program) system.core := by
  induction run with
  | start started => exact .start started.1
  | step input _ fetches induction => exact .step input induction fetches

theorem onPath_of_run {program : Word → Word} {system : HistorySystem}
    (run : Run Start next
      (fun system input => system.core.Fetches program input) system) :
    system.OnPath program := by
  induction run with
  | start started => exact onPath_of_start started
  | @step system input run fetches induction =>
      have orderly : Run Start next Orderly system :=
        run.mono fun _ _ fetches => fetches.orderly
      have running := running_of_run orderly fetches.orderly
      rcases Core.stall_run (core_run_of_fetches run) with ⟨log, stall⟩
      cases recovers : system.core.cmRecover with
      | true => exact induction.next_of_recover running fetches recovers
      | false =>
          exact induction.next_of_runs running
            (StallSystem.run_invariant stall) fetches recovers

end HistorySystem

end Ria
