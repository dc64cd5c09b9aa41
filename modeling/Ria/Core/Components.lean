import Ria.Backend.MemPipeline
import Ria.Backend.QueueAccounting
import Ria.Core.Carried
import Ria.Frontend.GroupAcceptance

/-!
# The parts of the core

The parts of the core that are studied by themselves run in it as they do
there: a run of the core is a run of each of them.
-/

namespace Ria

open Hdl

namespace Core

/-! ## The reorder buffer behind the RR~DP register -/

def groupSystem (core : Core) : GroupSystem :=
  { cm := core.cm, rrDp := core.frontEnd.rrDp }

def groupInput (core : Core) (input : CoreInput) : GroupInput :=
  { reset := input.reset
    iqFull := core.iqFull input
    uopComplete := core.cmUopsComplete
    rrUopsOut := core.frontEnd.rrUopsOut core.recover
      (core.frontEndInput input) }

theorem group_run {core : Core}
    (run : Run Start next (fun _ _ => True) core) :
    Run GroupSystem.start GroupSystem.next (fun _ _ => True)
      core.groupSystem := by
  have follows : ∃ system, system = core.groupSystem ∧
      Run GroupSystem.start GroupSystem.next (fun _ _ => True) system := by
    refine run.simulation (fun core system => system = core.groupSystem)
      ?_ ?_
    · rintro _ ⟨before, input, reset, rfl⟩
      have flush : (input.reset || before.clear) = true :=
        flush_of_reset reset
      have cm : (before.next input).cm = .resetState := if_pos reset
      have rrDp : (before.next input).frontEnd.rrDp = .resetState noUops :=
        if_pos flush
      refine ⟨_, ?_, rfl⟩
      rw [GroupSystem.start, groupSystem, cm, rrDp]
    · rintro core _ input _ rfl _
      exact ⟨core.groupInput input, trivial, rfl⟩
  obtain ⟨_, rfl, follows⟩ := follows
  exact follows

/-! ## Dispatch and the issue queues -/

def queueSystem (core : Core) (intLog memLog : QueueLog) : QueueSystem :=
  { dpIs := core.backEnd.dpIs, iqFullReg := core.backEnd.iqFullReg
    iqInt := core.backEnd.iqInt, iqMem := core.backEnd.iqMem
    intLog := intLog, memLog := memLog }

def queueInput (core : Core) (input : CoreInput) : QueueInput :=
  { reset := input.reset
    clear := core.clear
    dpUopsIn := core.dpUopsIn
    intBusy := core.backEnd.intBusy (core.backEndInput input)
    memBusy := core.backEnd.memBusy (core.backEndInput input) }

/-- The RR~DP register stalls with the DP~IS registers. -/
structure StallsTogether (core : Core) : Prop where
  stalled : core.backEnd.dpIs.stallPrev = true →
    core.frontEnd.rrDp.stallPrev = true
  settled : core.frontEnd.rrDp.Settled validUops

/-- No group is dispatched in the cycle after a full stall. -/
theorem StallsTogether.allowed {core : Core} (stalls : core.StallsTogether)
    (intLog memLog : QueueLog) (input : CoreInput) :
    QueueSystem.Allowed (core.queueSystem intLog memLog)
      (core.queueInput input) := by
  intro stalled
  have silent := validUops_eq_nil.mp
    (stalls.settled.silent (stalls.stalled stalled))
  exact validUops_eq_nil.mpr
    (Rob.uopOut_inherits inherited_invalid core.cm core.cmUopsComplete silent)

theorem StallsTogether.next {core : Core} (stalls : core.StallsTogether)
    (input : CoreInput) : (core.next input).StallsTogether := by
  have rrDp : (core.next input).frontEnd.rrDp =
      core.frontEnd.rrDp.next noUops (input.reset || core.clear)
        (core.iqFull input || !core.cmOutputs.allocatable)
        (core.groupInput input).rrUopsOut := rfl
  have dpIs : (core.next input).backEnd.dpIs =
      SkidBuffer.next DpIs.empty core.backEnd.dpIs
        (input.reset || core.clear) (core.iqFull input)
        (uopToInt core.dpUopsIn, uopToMem core.dpUopsIn) := rfl
  refine ⟨?_, ?_⟩
  · rw [rrDp, dpIs]
    cases input.reset || core.clear with
    | true => exact nofun
    | false =>
        rw [SkidBuffer.next_stallPrev, SkidBuffer.next_stallPrev]
        intro full
        rw [full, Bool.true_or]
  · rw [rrDp]
    exact stalls.settled.next validUops_noUops _

theorem stallsTogether_of_run {core : Core}
    (run : Run Start next (fun _ _ => True) core) : core.StallsTogether := by
  refine run.invariant StallsTogether ?_ fun _ input stalls _ =>
    stalls.next input
  rintro _ ⟨before, input, reset, rfl⟩
  have flush : (input.reset || before.clear) = true := flush_of_reset reset
  have dpIs : (before.next input).backEnd.dpIs = DpIs.resetState :=
    if_pos flush
  have rrDp : (before.next input).frontEnd.rrDp = .resetState noUops :=
    if_pos flush
  refine ⟨?_, ?_⟩
  · rw [dpIs]
    exact nofun
  · rw [rrDp]
    exact SkidBuffer.settled_resetState validUops_noUops

theorem queue_run {core : Core}
    (run : Run Start next (fun _ _ => True) core) :
    ∃ intLog memLog, Run QueueSystem.start QueueSystem.next
      QueueSystem.Allowed (core.queueSystem intLog memLog) := by
  have follows : ∃ system,
      (∃ intLog memLog, system = core.queueSystem intLog memLog) ∧
        Run QueueSystem.start QueueSystem.next QueueSystem.Allowed
          system := by
    refine run.simulation (fun core system =>
      ∃ intLog memLog, system = core.queueSystem intLog memLog) ?_ ?_
    · rintro _ ⟨before, input, reset, rfl⟩
      have flush : (input.reset || before.clear) = true :=
        flush_of_reset reset
      have dpIs : (before.next input).backEnd.dpIs = DpIs.resetState :=
        if_pos flush
      have iqFullReg : (before.next input).backEnd.iqFullReg = false :=
        if_pos reset
      have iqMem : (before.next input).backEnd.iqMem =
          IssueQueueMem.resetState :=
        IssueQueueMem.next_of_flush _ _ _ _ flush
      have iqInt : (before.next input).backEnd.iqInt =
          IssueQueueInt.resetState :=
        IssueQueueInt.next_of_flush _ _ _ _ flush
      refine ⟨_, ?_, .empty, .empty, rfl⟩
      rw [QueueSystem.start, queueSystem, dpIs, iqFullReg, iqMem, iqInt]
    · rintro core _ input before ⟨intLog, memLog, rfl⟩ _
      have stalls := stallsTogether_of_run before
      exact ⟨core.queueInput input, stalls.allowed intLog memLog input,
        _, _, rfl⟩
  obtain ⟨_, ⟨intLog, memLog, rfl⟩, follows⟩ := follows
  exact ⟨intLog, memLog, follows⟩

/-! ## The load/store pipeline -/

def memPipeline (core : Core) (log : PipelineLog) : MemPipeline :=
  { iqMem := core.backEnd.iqMem
    rfUopIn := core.backEnd.rfIntUopIn 3
    exUopIn := core.backEnd.exUopIn 3
    exRs1DataIn := core.backEnd.exRs1DataIn 3
    exRs2DataIn := core.backEnd.exRs2DataIn 3
    pipe3 := core.backEnd.pipe3
    log := log }

def pipelineInput (core : Core) (input : CoreInput) : PipelineInput :=
  { reset := input.reset
    clear := core.clear
    loadEn := core.backEnd.loadEn
    isMemUopIn := core.backEnd.dpIs.out.2
    busy := core.backEnd.memBusy (core.backEndInput input)
    rs1Data := core.backEnd.rfRs1DataOut (core.backEndInput input) 3
    rs2Data := core.backEnd.rfRs2DataOut (core.backEndInput input) 3
    dcacheData := input.dcache2coreData
    dcacheDataValid := input.dcache2coreDataValid }

theorem pipeline_next (core : Core) (log : PipelineLog) (input : CoreInput) :
    (core.memPipeline log).next (core.pipelineInput input) =
      (core.next input).memPipeline
        ((core.memPipeline log).nextLog (core.pipelineInput input)) := by
  have way : ∀ {α : Type} (flush : Bool) (one other : Fin 4 → α),
      (if flush then one else other) 3 =
        if flush then one 3 else other 3 := by
    intro α flush one other
    split <;> rfl
  have rf : (core.next input).backEnd.rfIntUopIn 3 =
      if input.reset || core.clear then 0
      else core.backEnd.isUopOut (core.backEndInput input) 3 := way _ _ _
  have ex : (core.next input).backEnd.exUopIn 3 =
      if input.reset || core.clear then 0
      else core.backEnd.rfIntUopIn 3 := way _ _ _
  have rs1 : (core.next input).backEnd.exRs1DataIn 3 =
      if input.reset || core.clear then 0
      else core.backEnd.rfRs1DataOut (core.backEndInput input) 3 :=
    way _ _ _
  have rs2 : (core.next input).backEnd.exRs2DataIn 3 =
      if input.reset || core.clear then 0
      else core.backEnd.rfRs2DataOut (core.backEndInput input) 3 :=
    way _ _ _
  conv_rhs => rw [memPipeline, rf, ex, rs1, rs2]
  rfl

theorem pipeline_run {core : Core}
    (run : Run Start next (fun _ _ => True) core) :
    ∃ log, Run MemPipeline.Start MemPipeline.next (fun _ _ => True)
      (core.memPipeline log) := by
  have follows : ∃ system, (∃ log, system = core.memPipeline log) ∧
      Run MemPipeline.Start MemPipeline.next (fun _ _ => True) system := by
    refine run.simulation
      (fun core system => ∃ log, system = core.memPipeline log) ?_ ?_
    · rintro _ ⟨before, input, reset, rfl⟩
      have flush : (input.reset || before.clear) = true :=
        flush_of_reset reset
      have rf : (before.next input).backEnd.rfIntUopIn = noUops :=
        if_pos flush
      have ex : (before.next input).backEnd.exUopIn = noUops := if_pos flush
      have busy : (before.next input).backEnd.pipe3.busyReg = false :=
        if_pos flush
      have idle : (before.next input).backEnd.pipe3.uopReg = 0 :=
        if_pos flush
      exact ⟨_, ⟨IssueQueueMem.next_of_flush _ _ _ _ flush, congrFun rf 3,
        congrFun ex 3, busy, idle, rfl⟩, MemPipeline.emptyLog, rfl⟩
    · rintro core _ input _ ⟨log, rfl⟩ _
      exact ⟨core.pipelineInput input, trivial, _,
        pipeline_next core log input⟩
  obtain ⟨_, ⟨log, rfl⟩, follows⟩ := follows
  exact ⟨log, follows⟩

end Core

end Ria
