import Ria.Core.Numbering
import Ria.Frontend.FollowedPredictions
import Ria.Frontend.StallBuffers

/-!
# From fetch to retirement

The uops that decode puts out are the entries of the groups fetched, and rename
takes them in this order.  They are one list, which grows at its end only, and
of which a recovery leaves what has retired.
-/

namespace Ria

open Hdl

/-- The uop as decode put it out -/
def MicroOp.instruction (uop : MicroOp) : MicroOp := uop.identity.unrenamed

@[simp] theorem MicroOp.instruction_pc (uop : MicroOp) :
    uop.instruction.pc = uop.pc := rfl

@[simp] theorem MicroOp.instruction_brType (uop : MicroOp) :
    uop.instruction.brType = uop.brType := rfl

@[simp] theorem MicroOp.instruction_predAddr (uop : MicroOp) :
    uop.instruction.predAddr = uop.predAddr := rfl

/-- Where the uop goes on, once its outcome is known -/
def MicroOp.nextPc (uop : MicroOp) : Word :=
  if uop.brType = .x then uop.pc + 4 else uop.brAddr

/-! ## Decoded groups -/

theorem validUops_instDecode {insts : Fin 4 → FbEntry} {valid : Fin 4 → Bool}
    (known : ∀ lane, valid lane = true →
      (decode (insts lane) true).valid = true) :
    validUops (instDecode insts valid) =
      (validInsts insts valid).map (decode · true) := by
  have same : ∀ lane, (instDecode insts valid lane).valid = valid lane := by
    intro lane
    cases present : valid lane with
    | true =>
        rw [instDecode, present]
        exact known lane present
    | false =>
        rcases decode_cases (insts lane) (valid lane) with empty | ⟨taken, -⟩
        · rw [instDecode, empty]
          rfl
        · rw [present] at taken
          cases taken
  rw [validUops, validInsts, List.ofFn_eq_map, List.filter_map, List.map_map]
  have lanes : List.filter (MicroOp.valid ∘ instDecode insts valid)
      (List.finRange 4) = (List.finRange 4).filter valid :=
    List.filter_congr fun lane _ => same lane
  rw [lanes]
  refine List.map_congr_left fun lane member => ?_
  have present := (List.mem_filter.mp member).2
  rw [instDecode, present]
  rfl

theorem mem_validInsts {insts : Fin 4 → FbEntry} {valid : Fin 4 → Bool}
    {entry : FbEntry} (member : entry ∈ validInsts insts valid) :
    ∃ lane, valid lane = true ∧ insts lane = entry := by
  rcases List.mem_map.mp member with ⟨lane, kept, same⟩
  exact ⟨lane, (List.mem_filter.mp kept).2, same⟩

/-- A valid uop was made by one of the items. -/
theorem decode_of_valid {entry : FbEntry}
    (valid : (decode entry true).valid = true) :
    ∃ item ∈ decodeTableInt ++ decodeTableFp, decode entry true =
      (item.2 entry.inst (decodeBase entry true)).dropZeroRd := by
  cases found : (decodeTableInt ++ decodeTableFp).find?
      (fun item => item.1 entry.inst) with
  | none =>
      have dropped : decode entry true = 0 := by
        unfold decode decodeCasez
        rw [found]
        rfl
      rw [dropped] at valid
      cases valid
  | some item =>
      refine ⟨item, List.mem_of_find?_eq_some found, ?_⟩
      revert valid
      unfold decode decodeCasez
      rw [found]
      dsimp only
      split
      · exact fun _ => rfl
      · intro never
        cases never

theorem decode_fields {entry : FbEntry}
    (valid : (decode entry true).valid = true) :
    (decode entry true).pc = entry.pc ∧
      (decode entry true).predAddr = entry.nextPc := by
  rcases decode_of_valid valid with ⟨item, member, decoded⟩
  have keeps := decodeTable_keepsPrediction item member
  rw [decoded, MicroOp.dropZeroRd_eq]
  exact ⟨keeps.pc entry.inst _, keeps.predAddr entry.inst _⟩

namespace Core

/-- A cycle in which nothing is lost: rename takes the group, the instruction
cache answers a redirect and gives the words of the program, and decode knows
those of the group. -/
structure Fetches (program : Word → Word) (core : Core) (input : CoreInput) :
    Prop where
  orderly : core.Orderly input
  served : core.cmRecover = false →
    core.frontEnd.rrAllocatable (core.frontEndInput input) = true
  answered : core.cmRecover = true → input.icache2coreDataValid = true
  words : input.icache2coreDataValid = true → ∀ lane,
    (core.ifInstsOut input lane).inst =
      program (core.ifInstsOut input lane).pc
  decodes : ∀ lane, (core.ifInstsOut input lane).valid = true →
    (decode (core.ifInstsOut input lane) true).valid = true

def stallSystem (core : Core) (log : StallLog) : StallSystem :=
  { frontEnd := core.frontEnd, recover := core.recover, log := log }

variable {program : Word → Word}

/-- A run of the core is one of its front end. -/
theorem stall_run {core : Core} (run : Run Start next (Fetches program) core) :
    ∃ log, Run StallSystem.start StallSystem.next StallSystem.Guarded
      (core.stallSystem log) := by
  have follows : ∃ system, (∃ log, system = core.stallSystem log) ∧
      Run StallSystem.start StallSystem.next StallSystem.Guarded system := by
    refine run.simulation
      (fun core system => ∃ log, system = core.stallSystem log) ?_ ?_
    · rintro _ ⟨before, input, reset, rfl⟩
      have frontEnd : (before.next input).frontEnd = .resetState := by
        have resets : (before.frontEndInput input).reset = true := reset
        change before.frontEnd.next before.recover
          (before.frontEndInput input) = _
        simp [FrontEnd.next, FrontEnd.resetState, resets, SkidBuffer.next,
          Rat.next, MappingTable.next]
      have recover : (before.next input).recover = false := if_pos reset
      refine ⟨_, ?_, StallSystem.empty, rfl⟩
      rw [StallSystem.start, stallSystem, frontEnd, recover]
    · rintro core _ input before ⟨log, rfl⟩ fetches
      refine ⟨core.frontEndInput input, fun _ clear => ?_, _, rfl⟩
      exact StallSystem.rrAllocatable_iff.mp (fetches.served clear)
  obtain ⟨_, ⟨log, rfl⟩, follows⟩ := follows
  exact ⟨log, follows⟩

/-- The entries that reach the IF~ID register in the cycle -/
def arrivals (core : Core) (input : CoreInput) : List FbEntry :=
  (core.streamSystem []).arriving (core.streamInput input)

/-- The uop is an instruction of the program, as decode gives it. -/
structure Genuine (program : Word → Word) (uop : MicroOp) : Prop where
  decoded : ∃ entry : FbEntry, entry.inst = program entry.pc ∧
    (decode entry true).valid = true ∧
      uop = (decode entry true).instruction
  falls : uop.brType = .x → uop.predAddr = uop.pc + 4

section Cycle

variable {core : Core} {input : CoreInput}

theorem mem_arrivals {entry : FbEntry}
    (member : entry ∈ core.arrivals input) :
    ∃ lane, core.if0.instsOutValid (core.fetchInput input) = true ∧
      (core.ifInstsOut input lane).valid = true ∧
        core.ifInstsOut input lane = entry := by
  rcases mem_validInsts member with ⟨lane, valid, same⟩
  have passes : ¬ StreamSystem.hold (core.streamInput input) = true := by
    intro holds
    rw [StreamSystem.idValidNext, if_pos holds] at valid
    cases valid
  rw [StreamSystem.idValidNext, if_neg passes, Bool.and_eq_true] at valid
  rw [StreamSystem.idInstsNext, if_neg passes] at same
  exact ⟨lane, valid.1, valid.2, same⟩

theorem Fetches.decoded (fetches : core.Fetches program input)
    {entry : FbEntry} (member : entry ∈ core.arrivals input) :
    (decode entry true).valid = true := by
  rcases mem_arrivals member with ⟨lane, -, valid, rfl⟩
  exact fetches.decodes lane valid

/-- A lane that is predicted taken is a branch. -/
theorem Fetches.genuine (fetches : core.Fetches program input)
    {entry : FbEntry} (member : entry ∈ core.arrivals input) :
    Genuine program (decode entry true).instruction := by
  have valid := fetches.decoded member
  rcases decode_fields valid with ⟨pc, predAddr⟩
  rcases mem_arrivals member with ⟨lane, delivered, -, rfl⟩
  have data := (Bool.and_eq_true_iff.mp delivered).2
  refine ⟨⟨core.ifInstsOut input lane, fetches.words data lane, valid, rfl⟩,
    fun plain => ?_⟩
  rw [MicroOp.instruction_brType] at plain
  have falls : (core.ifInstsOut input lane).predTaken = false := by
    rw [← Bool.not_eq_true]
    intro predicted
    rcases InstFetch.isBranch_of_predicted predicted with ⟨-, opcode⟩
    have known : ¬ Undecoded (core.ifInstsOut input lane).inst := by
      intro undecoded
      rw [decode_undecoded undecoded] at valid
      cases valid
    exact ((decode_compared_iff opcode).mpr known).2 plain
  rw [MicroOp.instruction_predAddr, MicroOp.instruction_pc, predAddr, pc,
    FbEntry.nextPc, if_neg]
  rw [falls]
  exact Bool.false_ne_true

/-- A flush leaves nothing to decode. -/
theorem idUopsOut_of_flush (flush : (input.reset || core.clear) = true) :
    validUops (core.next input).frontEnd.idUopsOut = [] := by
  refine validUops_eq_nil.mpr fun lane => ?_
  have idle : (core.next input).frontEnd.idInstsInValid lane = false :=
    congrFun (idInsts_of_flush flush) lane
  rcases decode_cases ((core.next input).frontEnd.idInstsIn lane)
    ((core.next input).frontEnd.idInstsInValid lane) with
    empty | ⟨valid, -⟩
  · have same : (core.next input).frontEnd.idUopsOut lane = 0 := empty
    rw [same]
    rfl
  · rw [idle] at valid
    cases valid

/-- The group decoded in the next cycle -/
theorem Fetches.idUopsOut (fetches : core.Fetches program input) :
    validUops (core.next input).frontEnd.idUopsOut =
      (core.arrivals input).map (decode · true) := by
  refine validUops_instDecode fun lane valid => fetches.decoded ?_
  exact List.mem_map.mpr ⟨lane,
    List.mem_filter.mpr ⟨List.mem_finRange lane, valid⟩, rfl⟩

theorem Fetches.path (fetches : core.Fetches program input)
    (resolved : core.BranchesResolved) (runs : core.cmRecover = false) :
    Walk MicroOp.pc MicroOp.predAddr core.if0.pc
      ((core.arrivals input).map fun entry =>
        (decode entry true).instruction) (core.next input).if0.pc := by
  have quiet : core.if0.mispredict (core.fetchInput input) = false :=
    (resolved.mispredict_eq_clear input).trans runs
  have allowed : StreamSystem.Allowed (core.streamSystem [])
      (core.streamInput input) := by
    intro redirects
    have never := quiet.symm.trans redirects
    cases never
  have path : PredictedPath core.if0.pc (core.arrivals input)
      (core.next input).if0.pc :=
    StreamSystem.arriving_path allowed fetches.orderly.running runs
  refine (Walk.map_iff (fun entry => (decode entry true).instruction)
    fun entry member => ?_).mpr path
  rcases decode_fields (fetches.decoded member) with ⟨pc, predAddr⟩
  rw [MicroOp.instruction_pc, MicroOp.instruction_predAddr]
  exact ⟨pc, predAddr⟩

end Cycle

end Core

namespace HistorySystem

/-- The uops decoded that have not been renamed -/
def decoded (system : HistorySystem) : List MicroOp :=
  system.core.frontEnd.idRr.held validUops ++
    validUops system.core.frontEnd.idUopsOut

/-- The instructions decoded, in order, less those squashed -/
def instructions (system : HistorySystem) : List MicroOp :=
  (system.earlier ++ system.log.inserted ++ system.arriving ++
    system.decoded).map MicroOp.instruction

theorem map_instruction (uops : List MicroOp) :
    (uops.map MicroOp.identity).map MicroOp.unrenamed =
      uops.map MicroOp.instruction := by
  rw [List.map_map]
  rfl

section Cycle

variable {system : HistorySystem} {input : CoreInput}
  {program : Word → Word}

theorem instructions_eq (system : HistorySystem) :
    system.instructions = system.trace.map MicroOp.unrenamed ++
      system.decoded.map MicroOp.instruction := by
  rw [instructions, trace, map_instruction, List.map_append]

/-- What waits between the reorder buffer and the IF~ID register -/
def pending (system : HistorySystem) : List MicroOp :=
  system.staying ++ system.arriving ++ system.decoded

theorem instructions_retired (returning : system.commit.Returning) :
    system.instructions = system.retired.map MicroOp.instruction ++
      system.pending.map MicroOp.instruction := by
  rw [instructions_eq, trace_eq returning, map_instruction, pending]
  simp only [List.map_append, List.append_assoc]

theorem map_unrenamed {one other : List MicroOp}
    (same : one.map MicroOp.unrenamed = other.map MicroOp.unrenamed) :
    one.map MicroOp.instruction = other.map MicroOp.instruction := by
  have both := congrArg (List.map MicroOp.identity) same
  rw [List.map_map, List.map_map] at both
  exact both

theorem instructions_next {log : StallLog}
    (running : system.Running input)
    (stalls : StallSystem.Invariant (system.core.stallSystem log))
    (fetches : system.core.Fetches program input)
    (runs : system.core.cmRecover = false) :
    (system.next input).instructions = system.instructions ++
      (system.core.arrivals input).map fun entry =>
        (decode entry true).instruction := by
  have served : StallSystem.Served (system.core.stallSystem log)
      (system.core.frontEndInput input) :=
    StallSystem.rrAllocatable_iff.mp (fetches.served runs)
  have renamed : (validUops (system.core.rrUopsOut input)).map
        MicroOp.instruction =
      (validUops system.core.frontEnd.idRr.out).map MicroOp.instruction :=
    map_unrenamed (stalls.rename served)
  have reset : (system.core.frontEndInput input).reset = false :=
    fetches.orderly.running
  have clear : (system.core.frontEndInput input).clear = false := runs
  have held : (system.next input).core.frontEnd.idRr.held validUops =
      validUops system.core.frontEnd.idRr.tmp ++
        validUops system.core.frontEnd.idUopsOut := by
    have onward : (system.next input).core.frontEnd =
        ((system.core.stallSystem log).next
          (system.core.frontEndInput input)).frontEnd := rfl
    rw [onward, stalls.held_idRr reset clear]
    rfl
  have group : (validUops (system.next input).core.frontEnd.idUopsOut).map
        MicroOp.instruction =
      (system.core.arrivals input).map fun entry =>
        (decode entry true).instruction := by
    have arrives : validUops (system.next input).core.frontEnd.idUopsOut =
        (system.core.arrivals input).map (decode · true) := fetches.idUopsOut
    rw [arrives, List.map_map]
    rfl
  rw [instructions_eq, instructions_eq,
    trace_next running.following.returning running.resolved running.stalls
      running.orderly runs, decoded, held, decoded, SkidBuffer.held]
  simp only [List.map_append, map_instruction, renamed, group,
    List.append_assoc]

/-- Nothing waits after a flush. -/
theorem pending_of_flush {before : Core}
    (core : system.core = before.next input) (log : system.log = .empty)
    (flush : (input.reset || before.clear) = true) : system.pending = [] := by
  have flushed := before.flushed_next input flush
  rw [pending, staying, arriving, decoded, core, log, flushed.rrDp,
    flushed.idRr, Core.idUopsOut_of_flush flush]
  simp only [SkidBuffer.held_resetState validUops_noUops]
  rfl

/-- A recovery leaves what has retired. -/
theorem instructions_next_of_recover (running : system.Running input)
    (recovers : system.core.cmRecover = true) :
    (system.next input).instructions =
      (system.next input).retired.map MicroOp.instruction := by
  have log : (system.next input).log = .empty := if_pos recovers
  have pending : (system.next input).pending = [] :=
    pending_of_flush rfl log (Core.flush_of_clear recovers input)
  rw [instructions_retired running.after.returning, pending]
  exact List.append_nil _

end Cycle

end HistorySystem

end Ria
