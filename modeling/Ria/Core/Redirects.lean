import Ria.Core.Squash
import Ria.Frontend.FetchStream
import Ria.Frontend.Redirect

/-!
# Redirects in the core

In every run of the core the branches that complete are resolved, so the two
misprediction detectors agree and the core is a run of the systems in which
the redirects and the fetched stream are studied.
-/

namespace Ria

open Hdl

theorem inherited_predicted : Inherited MicroOp.Predicted := by
  refine ⟨predicted_zero, ?_, ?_, ?_⟩
  · rintro uop outputs ⟨incomplete, npc, predAddr, unit, queue⟩
    exact ⟨incomplete, npc, predAddr, unit, queue⟩
  · rintro uop robIndex ⟨incomplete, npc, predAddr, unit, queue⟩
    exact ⟨incomplete, npc, predAddr, unit, queue⟩
  · rintro uop brTaken brAddr ⟨incomplete, npc, predAddr, unit, queue⟩
    exact ⟨incomplete, npc, predAddr, unit, queue⟩

/-- A uop that is no branch. -/
def MicroOp.Plain (uop : MicroOp) : Prop := uop.brType = .x

theorem MicroOp.Plain.resolved {uop : MicroOp} (plain : uop.Plain) :
    uop.ResolvedBranch :=
  fun branch => absurd plain branch

theorem plain_zero : MicroOp.Plain 0 := rfl

theorem MicroOp.Predicted.plain_of_unit {uop : MicroOp}
    (predicted : uop.Predicted) (other : uop.fuCode ≠ .br) : uop.Plain := by
  unfold MicroOp.Plain
  by_contra branch
  exact other (predicted.unit branch)

theorem uopToMem_plain {group : Fin 4 → MicroOp}
    (predicted : ∀ lane, (group lane).Predicted) (i : Fin 4) :
    (uopToMem group i).Plain := by
  unfold uopToMem dispatchTo
  cases chosen : select (dispatchValid .mem group) i.val with
  | none => exact plain_zero
  | some lane =>
      have ready := ready_of_select chosen
      simp only [dispatchValid, Bool.and_eq_true, beq_iff_eq] at ready
      unfold MicroOp.Plain
      by_contra branch
      have int := (predicted lane).queue branch
      rw [ready.2] at int
      cases int

theorem uopOut_two_plain {queue : IssueQueueInt}
    (predicted : ∀ k, (queue.slots k).Predicted) (busy : BusyPorts 32) :
    (queue.uopOut busy 2).Plain := by
  unfold IssueQueueInt.uopOut
  cases chosen : queue.outputSel busy 2 with
  | none => exact plain_zero
  | some k =>
      have ready := ready_of_select chosen
      simp only [IssueQueueInt.readyImulIdiv, Bool.and_eq_true,
        Bool.or_eq_true, beq_iff_eq] at ready
      refine (predicted k).plain_of_unit ?_
      intro branch
      rw [branch] at ready
      rcases ready.2 with imul | idiv
      · cases imul
      · cases idiv

theorem Pipe01.next_resolved {uop : MicroOp} (predicted : uop.Predicted)
    (reset clear : Bool) (in1 in2 : Word) :
    (Pipe01.next reset clear uop in1 in2).uopOut.ResolvedBranch := by
  change (if reset || clear then 0 else uopNext uop in1 in2).ResolvedBranch
  split
  · exact plain_zero.resolved
  · unfold uopNext
    split
    · exact branchUop_resolved predicted in1 in2
    · rename_i other
      exact (predicted.plain_of_unit other).resolved

namespace Core

variable {core : Core} {input : CoreInput}

/-! ## Branches complete resolved -/

structure BranchesResolved (core : Core) : Prop where
  predicted : core.Carries MicroOp.Predicted
  dpIsOut : ∀ i, (core.backEnd.dpIs.out.2 i).Plain
  dpIsTmp : ∀ i, (core.backEnd.dpIs.tmp.2 i).Plain
  iqMem : ∀ k, (core.backEnd.iqMem.slots k).uop.Plain
  rfInt2 : (core.backEnd.rfIntUopIn 2).Plain
  rfInt3 : (core.backEnd.rfIntUopIn 3).Plain
  ex2 : (core.backEnd.exUopIn 2).Plain
  ex3 : (core.backEnd.exUopIn 3).Plain
  pipe0 : core.backEnd.pipe0.uopOut.ResolvedBranch
  pipe1 : core.backEnd.pipe1.uopOut.ResolvedBranch
  pipe2 : core.backEnd.pipe2.uopReg.Plain
  pipe3 : core.backEnd.pipe3.uopReg.Plain
  complete : ∀ lane, (core.cmUopsComplete lane).ResolvedBranch
  settled : core.cm.Settled

namespace BranchesResolved

theorem exUopOut (resolved : core.BranchesResolved) (way : Fin 4) :
    (core.backEnd.exUopOut way).ResolvedBranch := by
  match way with
  | 0 => exact resolved.pipe0
  | 1 => exact resolved.pipe1
  | 2 =>
      change (if core.backEnd.pipe2.busy then (0 : MicroOp)
        else _).ResolvedBranch
      split
      · exact plain_zero.resolved
      · exact resolved.pipe2.resolved
  | 3 => exact resolved.pipe3.resolved

theorem next (resolved : core.BranchesResolved) (input : CoreInput) :
    (core.next input).BranchesResolved := by
  have predicted := resolved.predicted
  have handed := fun i => Rob.uopOut_inherits inherited_predicted core.cm
    core.cmUopsComplete predicted.frontEnd.rrDpOut i
  have entering : ∀ i, ((uopToInt core.dpUopsIn,
      uopToMem core.dpUopsIn).2 i).Plain := fun i => uopToMem_plain handed i
  have nothing : ∀ i, (DpIs.empty.2 i).Plain := fun _ => plain_zero
  obtain ⟨dpIsOut, dpIsTmp⟩ := SkidBuffer.next_all
    (fun bundles : (Fin 4 → MicroOp) × (Fin 4 → MicroOp) =>
      ∀ i, (bundles.2 i).Plain) nothing resolved.dpIsTmp entering
    (input.reset || core.clear) (core.iqFull input)
  have flushed : ∀ (way : Fin 4) (uops : Fin 4 → MicroOp),
      (uops way).Plain →
      ((if input.reset || core.clear then noUops else uops) way).Plain := by
    intro way uops plain
    split
    · exact plain_zero
    · exact plain
  exact
    { predicted := predicted.next inherited_predicted
        (fun i => decode_predicted _ _) input
      dpIsOut := dpIsOut
      dpIsTmp := dpIsTmp
      iqMem := IssueQueueMem.next_inherits resolved.iqMem plain_zero
        resolved.dpIsOut _ _ _ _
      rfInt2 := flushed 2 _ (uopOut_two_plain predicted.backEnd.iqInt _)
      rfInt3 := flushed 3 _
        (IssueQueueMem.uopOut_inherits resolved.iqMem plain_zero _)
      ex2 := flushed 2 _ resolved.rfInt2
      ex3 := flushed 3 _ resolved.rfInt3
      pipe0 := Pipe01.next_resolved (predicted.backEnd.exUopIn 0) _ _ _ _
      pipe1 := Pipe01.next_resolved (predicted.backEnd.exUopIn 1) _ _ _ _
      pipe2 := Pipe2.next_inherits plain_zero resolved.pipe2 resolved.ex2
        _ _ _ _
      pipe3 := Pipe3.next_inherits plain_zero resolved.pipe3 resolved.ex3
        _ _ _ _ _
      complete := by
        intro lane
        change ((if input.reset || core.clear then noUops
          else core.backEnd.wbUops) lane).ResolvedBranch
        split
        · exact plain_zero.resolved
        · unfold BackEnd.wbUops
          split
          · exact resolved.exUopOut _
          · exact plain_zero.resolved
      settled := resolved.settled.next
        (fun lane _ => resolved.complete lane)
        (fun lane => (predicted.frontEnd.rrDpOut lane).incomplete)
        input.reset }

theorem of_start (start : core.Start) : core.BranchesResolved := by
  obtain ⟨before, input, reset, rfl⟩ := start
  have flush : (input.reset || before.clear) = true := flush_of_reset reset
  have empty := Carries.of_flush before input flush
  have plain : ∀ {uop : MicroOp}, uop = 0 → uop.Plain := by
    rintro uop rfl
    exact plain_zero
  have cm : (before.next input).cm = .resetState := if_pos reset
  exact
    { predicted := empty.mono fun uop nothing => nothing ▸ predicted_zero
      dpIsOut := fun i => plain (empty.backEnd.dpIsOut.2 i)
      dpIsTmp := fun i => plain (empty.backEnd.dpIsTmp.2 i)
      iqMem := fun k => plain (empty.backEnd.iqMem k)
      rfInt2 := plain (empty.backEnd.rfIntUopIn 2)
      rfInt3 := plain (empty.backEnd.rfIntUopIn 3)
      ex2 := plain (empty.backEnd.exUopIn 2)
      ex3 := plain (empty.backEnd.exUopIn 3)
      pipe0 := (plain empty.backEnd.pipe0).resolved
      pipe1 := (plain empty.backEnd.pipe1).resolved
      pipe2 := plain empty.backEnd.pipe2
      pipe3 := plain empty.backEnd.pipe3
      complete := fun lane => (plain (empty.cmUopsComplete lane)).resolved
      settled := cm ▸ Rob.settled_resetState }

/-- In the core `branch_pred` redirects exactly with a clear. -/
theorem mispredict_eq_clear (resolved : core.BranchesResolved)
    (input : CoreInput) :
    core.if0.mispredict (core.fetchInput input) = core.clear :=
  (detectors_agree core.cm core.cmUopsComplete core.robUopsIn
    core.if0.brPred core.if0.pc (core.if0.isBranch (core.fetchInput input))
    input.isValid resolved.settled fun lane _ => resolved.complete lane).1

end BranchesResolved

theorem branchesResolved_of_run
    (run : Run Start next (fun _ _ => True) core) : core.BranchesResolved :=
  run.invariant BranchesResolved (fun _ start => .of_start start)
    fun _ input resolved _ => resolved.next input

/-! ## The systems in the core -/

/-- No valid uop or entry stands between fetch and the reorder buffer. -/
structure Silent (core : Core) : Prop where
  idInsts : ∀ lane, core.frontEnd.idInstsInValid lane = false
  frontEnd : core.frontEnd.Carries fun uop => uop.valid = false

def redirectSystem (core : Core) (redirected : Bool) : RedirectSystem :=
  { cm := core.cm, if0 := core.if0, redirected := redirected }

def redirectInput (core : Core) (input : CoreInput) : RedirectInput :=
  { reset := input.reset
    stall := core.rrFull input
    isValid := input.isValid
    icacheData := input.icache2coreData
    icacheDataValid := input.icache2coreDataValid
    uopComplete := core.cmUopsComplete
    robUopsIn := core.robUopsIn }

theorem redirect_allowed (resolved : core.BranchesResolved)
    {redirected : Bool} (silent : redirected = true → core.Silent)
    (input : CoreInput) :
    RedirectSystem.Allowed (core.redirectSystem redirected)
      (core.redirectInput input) :=
  { completing := fun lane _ => resolved.complete lane
    incoming := fun lane =>
      (resolved.predicted.frontEnd.rrDpOut lane).incomplete
    silent := fun pending lane => (silent pending).frontEnd.rrDpOut lane }

theorem Silent.next (silent : core.Silent)
    (nothing : (core.redirectSystem true).delivers
      (core.redirectInput input) = false) :
    (core.next input).Silent := by
  constructor
  · intro lane
    change (if (input.reset || core.clear) || core.rrFull input then
        fun _ => false
      else fun i => core.if0.instsOutValid (core.fetchInput input) &&
        (core.ifInstsOut input i).valid : Fin 4 → Bool) lane = false
    split
    · rfl
    · rename_i passes
      have held : ((input.reset || core.clear) || core.rrFull input) =
          false := by simpa using passes
      have withheld : core.if0.instsOutValid (core.fetchInput input) =
          false := by
        have chosen : (!((input.reset || core.clear) || core.rrFull input) &&
            core.if0.instsOutValid (core.fetchInput input)) = false := nothing
        rwa [held, Bool.not_false, Bool.true_and] at chosen
      simp only [withheld, Bool.false_and]
  · refine silent.frontEnd.next inherited_invalid ?_ _ _
    intro lane
    rcases decode_cases (core.frontEnd.idInstsIn lane)
        (core.frontEnd.idInstsInValid lane) with empty | ⟨valid, -⟩
    · have same : core.frontEnd.idUopsOut lane = 0 := empty
      rw [same]
      rfl
    · exact absurd ((silent.idInsts lane).symm.trans valid)
        Bool.false_ne_true

theorem silent_of_clear (clear : core.clear = true) (input : CoreInput) :
    (core.next input).Silent := by
  have flush : (input.reset || core.clear) = true :=
    flush_of_clear clear input
  have idInsts := idInsts_of_flush flush
  have invalid : (core.next input).Carries fun uop => uop.valid = false :=
    (Carries.of_flush core input flush).mono fun uop empty => empty ▸ rfl
  exact ⟨fun lane => congrFun idInsts lane, invalid.frontEnd⟩

/-- The stages that a redirect has emptied stay silent while it waits for a
group. -/
theorem silent_next {redirected : Bool}
    (silent : redirected = true → core.Silent)
    (pending : ((core.redirectSystem redirected).next
      (core.redirectInput input)).redirected = true) :
    (core.next input).Silent := by
  cases clear : core.clear with
  | true => exact silent_of_clear clear input
  | false =>
      have kept : (if input.reset then false
          else if (core.redirectSystem redirected).delivers
            (core.redirectInput input) then false
          else redirected) = true := by
        change (if input.reset then false else if core.clear then true
          else _ : Bool) = true at pending
        rwa [clear] at pending
      cases reset : input.reset with
      | true =>
          rw [reset] at kept
          cases kept
      | false =>
          cases delivers : (core.redirectSystem redirected).delivers
              (core.redirectInput input) with
          | true =>
              rw [reset, delivers] at kept
              cases kept
          | false =>
              rw [reset, delivers] at kept
              obtain rfl : redirected = true := kept
              exact (silent rfl).next delivers

/-- A run of the core is one of the reorder buffer with `inst_fetch`, in which
its stages are silent while a redirect waits for a group. -/
theorem redirect_run (run : Run Start next (fun _ _ => True) core) :
    ∃ redirected, Run RedirectSystem.start RedirectSystem.next
        RedirectSystem.Allowed (core.redirectSystem redirected) ∧
      (redirected = true → core.Silent) := by
  have follows : ∃ system, (∃ redirected,
        system = core.redirectSystem redirected ∧
          (redirected = true → core.Silent)) ∧
      Run RedirectSystem.start RedirectSystem.next RedirectSystem.Allowed
        system := by
    refine run.simulation (fun core system => ∃ redirected,
      system = core.redirectSystem redirected ∧
        (redirected = true → core.Silent)) ?_ ?_
    · rintro _ ⟨before, input, reset, rfl⟩
      have cm : (before.next input).cm = .resetState := if_pos reset
      exact ⟨_, ⟨cm, rfl⟩, false, rfl, nofun⟩
    · rintro core _ input before ⟨redirected, rfl, silent⟩ _
      have resolved := branchesResolved_of_run before
      exact ⟨core.redirectInput input,
        redirect_allowed resolved silent input, _, rfl, silent_next silent⟩
  obtain ⟨_, ⟨redirected, rfl, silent⟩, follows⟩ := follows
  exact ⟨redirected, follows, silent⟩

def streamSystem (core : Core) (stream : List FbEntry) : StreamSystem :=
  { if0 := core.if0
    idInstsIn := core.frontEnd.idInstsIn
    idInstsInValid := core.frontEnd.idInstsInValid
    cycles := core.cycles
    stream := stream }

def streamInput (core : Core) (input : CoreInput) : StreamInput :=
  { clear := core.clear, fetch := core.fetchInput input }

/-- A run of the core is one of `inst_fetch` with the IF~ID register. -/
theorem stream_run (run : Run Start next (fun _ _ => True) core) :
    ∃ stream, Run StreamSystem.start StreamSystem.next StreamSystem.Allowed
      (core.streamSystem stream) := by
  have follows : ∃ system, (∃ stream, system = core.streamSystem stream) ∧
      Run StreamSystem.start StreamSystem.next StreamSystem.Allowed
        system := by
    refine run.simulation
      (fun core system => ∃ stream, system = core.streamSystem stream) ?_ ?_
    · rintro _ ⟨before, input, reset, rfl⟩
      have flush : (input.reset || before.clear) = true :=
        flush_of_reset reset
      have idInsts := idInsts_of_flush flush
      exact ⟨_, ⟨congrFun idInsts, rfl⟩, [], rfl⟩
    · rintro core _ input before ⟨stream, rfl⟩ _
      have agree := (branchesResolved_of_run before).mispredict_eq_clear input
      exact ⟨core.streamInput input, agree.symm.trans, _, rfl⟩
  obtain ⟨_, ⟨stream, rfl⟩, follows⟩ := follows
  exact ⟨stream, follows⟩

end Core

end Ria
