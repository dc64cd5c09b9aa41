import Ria.Frontend.FrontEnd
import Ria.Frontend.SequentialRename

/-!
# What the stalls keep

`StallSystem` runs the front end beside the uops that decode has put out, that
rename has put out and that have appeared at the reorder buffer since the last
clear.  The two skid buffers lose nothing.  A group that rename refuses is in
neither of them: it is overwritten, and lost.
-/

namespace Ria

open Hdl

/-- A uop without the fields that rename sets. -/
def MicroOp.unrenamed (uop : MicroOp) : MicroOp :=
  uop.withRenamed MappingTable.noRename

/-- The uops since the last reset or clear. -/
structure StallLog where
  decoded : List MicroOp
  renamed : List MicroOp
  appeared : List MicroOp

structure StallSystem where
  frontEnd : FrontEnd
  recover : Bool
  log : StallLog

namespace StallSystem

def empty : StallLog :=
  { decoded := [], renamed := [], appeared := [] }

def nextLog (system : StallSystem) (input : FrontEndInput) : StallLog :=
  if input.reset || input.clear then empty
  else
    { decoded := system.log.decoded ++ validUops system.frontEnd.idUopsOut
      renamed := system.log.renamed ++
        validUops (system.frontEnd.rrUopsOut system.recover input)
      appeared := system.log.appeared ++ validUops system.frontEnd.rrDp.out }

/-- `recover` is registered from the signal that `clear` is. -/
def next (system : StallSystem) (input : FrontEndInput) : StallSystem :=
  { frontEnd := system.frontEnd.next system.recover input
    recover := if input.reset then false else input.clear
    log := system.nextLog input }

def start (system : StallSystem) : Prop :=
  system = { frontEnd := .resetState, recover := false, log := empty }

/-- Every decoded uop has been renamed once or is held before rename, and
every renamed uop has appeared once or is held before the reorder buffer, in
decode order. -/
structure Conserved (system : StallSystem) : Prop where
  renamed : system.log.decoded.map MicroOp.unrenamed =
    (system.log.renamed ++ system.frontEnd.idRr.held validUops).map
      MicroOp.unrenamed
  appeared : system.log.renamed =
    system.log.appeared ++ system.frontEnd.rrDp.held validUops

/-- Rename can serve the group: the registers free after the cycle's
retirements are as many as the group's destinations. -/
def Served (system : StallSystem) (input : FrontEndInput) : Prop :=
  MappingTable.requests (fun i => (system.frontEnd.idRr.out i).renamePort) 4 ≤
    (system.frontEnd.rr.freeList.retireLanes
      fun i => (input.uopRetire i).retirePort).freeNum.toNat

/-- No group is refused, or the cycle clears it anyway. -/
def Guarded (system : StallSystem) (input : FrontEndInput) : Prop :=
  input.reset = false → input.clear = false → Served system input

instance decidableServed (system : StallSystem) (input : FrontEndInput) :
    Decidable (Served system input) :=
  inferInstanceAs (Decidable (_ ≤ _))

instance decidableGuarded (system : StallSystem) (input : FrontEndInput) :
    Decidable (Guarded system input) :=
  inferInstanceAs (Decidable (_ → _))

/-- A cycle without a stall. -/
structure Flowing (system : StallSystem) (input : FrontEndInput) : Prop where
  reset : input.reset = false
  clear : input.clear = false
  cmFull : FrontEnd.cmFull input = false
  served : Served system input

end StallSystem

/-! ## Rename -/

theorem requests_eq_zero {group : Fin 4 → MicroOp}
    (nothing : validUops group = []) :
    MappingTable.requests (fun i => (group i).renamePort) 4 = 0 := by
  rw [MappingTable.requests, List.countP_eq_zero]
  intro port member
  obtain ⟨i, rfl⟩ := List.mem_ofFn.mp (List.mem_of_mem_take member)
  have invalid := validUops_eq_nil.mp nothing i
  unfold MicroOp.renamePort
  rw [invalid]
  exact Bool.false_ne_true

theorem Rat.allocatable_iff (rat : Rat) (uopRetire : Fin 6 → MicroOp)
    (uopIn : Fin 4 → MicroOp) :
    rat.allocatable uopRetire uopIn = true ↔
      MappingTable.requests (fun i => (uopIn i).renamePort) 4 ≤
        (rat.freeList.retireLanes
          fun i => (uopRetire i).retirePort).freeNum.toNat := by
  rw [← MappingTable.reqCount_wide, ← BitVec.le_def]
  exact FreeList.comb_allocatable rat.freeList _ _

namespace StallSystem

section Cycle

variable {system : StallSystem} {input : FrontEndInput}

theorem rrAllocatable_iff :
    system.frontEnd.rrAllocatable input = true ↔ Served system input :=
  Rat.allocatable_iff _ _ _

theorem rrUopsOut_of_served (served : Served system input)
    (running : system.recover = false) :
    (validUops (system.frontEnd.rrUopsOut system.recover input)).map
        MicroOp.unrenamed =
      (validUops system.frontEnd.idRr.out).map MicroOp.unrenamed := by
  have accepted := rrAllocatable_iff.mpr served
  unfold FrontEnd.rrAllocatable at accepted
  unfold FrontEnd.rrUopsOut Rat.uopOut
  rw [running, accepted]
  exact validUops_map _ _ _ (fun _ => rfl) (fun _ => rfl)

theorem rrUopsOut_of_refused (refused : ¬ Served system input) :
    system.frontEnd.rrUopsOut system.recover input = noUops := by
  have rejected : ¬ system.frontEnd.rr.allocatable input.uopRetire
      system.frontEnd.idRr.out = true :=
    fun accepted => refused (rrAllocatable_iff.mp accepted)
  unfold FrontEnd.rrUopsOut Rat.uopOut
  rw [if_neg rejected, ite_self]
  rfl

/-- What the front end relies on: a stall reaches back through all its stages,
and the stages behind a stalled register send nothing a cycle later. -/
structure Invariant (system : StallSystem) : Prop where
  conserved : Conserved system
  idRr : system.frontEnd.idRr.Settled validUops
  rrDp : system.frontEnd.rrDp.Settled validUops
  back : system.frontEnd.rrDp.stallPrev = true →
    system.frontEnd.idRr.stallPrev = true
  decode : system.frontEnd.idRr.stallPrev = true →
    validUops system.frontEnd.idUopsOut = []
  recovered : system.recover = true →
    validUops system.frontEnd.idRr.out = []

theorem Invariant.rename (holds : Invariant system)
    (served : Served system input) :
    (validUops (system.frontEnd.rrUopsOut system.recover input)).map
        MicroOp.unrenamed =
      (validUops system.frontEnd.idRr.out).map MicroOp.unrenamed := by
  cases recovers : system.recover with
  | true =>
      have nothing := holds.recovered recovers
      have silent : system.frontEnd.rrUopsOut true input = noUops :=
        rfl
      rw [silent, validUops_noUops, nothing]
  | false =>
      rw [← recovers]
      exact rrUopsOut_of_served served recovers

theorem Invariant.refused_ne_nil (refused : ¬ Served system input) :
    validUops system.frontEnd.idRr.out ≠ [] := by
  intro nothing
  refine refused ?_
  rw [Served, requests_eq_zero nothing]
  exact Nat.zero_le _

theorem Invariant.quiet (holds : Invariant system)
    (stalled : system.frontEnd.rrDp.stallPrev = true) :
    validUops (system.frontEnd.rrUopsOut system.recover input) = [] := by
  have nothing := holds.idRr.silent (holds.back stalled)
  have served : Served system input := by
    by_contra refused
    exact Invariant.refused_ne_nil refused nothing
  have renamed := holds.rename served
  rw [nothing] at renamed
  exact List.map_eq_nil_iff.mp renamed

section Unflushed

variable (reset : input.reset = false) (clear : input.clear = false)

include reset clear

theorem nextLog_eq (system : StallSystem) :
    (system.next input).log =
      { decoded := system.log.decoded ++ validUops system.frontEnd.idUopsOut
        renamed := system.log.renamed ++
          validUops (system.frontEnd.rrUopsOut system.recover input)
        appeared := system.log.appeared ++
          validUops system.frontEnd.rrDp.out } := by
  change system.nextLog input = _
  rw [nextLog, reset, clear]
  rfl

theorem next_idRr (system : StallSystem) :
    (system.next input).frontEnd.idRr =
      system.frontEnd.idRr.next noUops false
        (system.frontEnd.rrFull input) system.frontEnd.idUopsOut := by
  change system.frontEnd.idRr.next _ (input.reset || input.clear) _ _ = _
  rw [reset, clear]
  rfl

theorem next_rrDp (system : StallSystem) :
    (system.next input).frontEnd.rrDp =
      system.frontEnd.rrDp.next noUops false
        (FrontEnd.cmFull input)
        (system.frontEnd.rrUopsOut system.recover input) := by
  change system.frontEnd.rrDp.next _ (input.reset || input.clear) _ _ = _
  rw [reset, clear]
  rfl

theorem Invariant.held_idRr (holds : Invariant system) :
    (system.next input).frontEnd.idRr.held validUops =
      validUops system.frontEnd.idRr.tmp ++
        validUops system.frontEnd.idUopsOut := by
  rw [next_idRr reset clear]
  exact holds.idRr.held_next validUops_noUops holds.decode

theorem Invariant.held_rrDp (holds : Invariant system) :
    (system.next input).frontEnd.rrDp.held validUops =
      validUops system.frontEnd.rrDp.tmp ++
        validUops (system.frontEnd.rrUopsOut system.recover input) := by
  rw [next_rrDp reset clear]
  exact holds.rrDp.held_next validUops_noUops holds.quiet

/-- Nothing is lost exactly when rename serves the group. -/
theorem Invariant.conserved_next (holds : Invariant system) :
    Conserved (system.next input) ↔ Served system input := by
  have log := nextLog_eq reset clear system
  constructor
  · rintro ⟨renamed, -⟩
    by_contra refused
    have lost := Invariant.refused_ne_nil refused
    rw [log, holds.held_idRr reset clear, rrUopsOut_of_refused refused,
      validUops_noUops] at renamed
    have before := congrArg List.length holds.conserved.renamed
    have after := congrArg List.length renamed
    have group := List.length_pos_of_ne_nil lost
    simp only [SkidBuffer.held, List.length_map, List.length_append,
      List.length_nil] at before after
    omega
  · intro served
    constructor
    · rw [log, holds.held_idRr reset clear]
      simp only [List.map_append, holds.conserved.renamed, holds.rename served,
        SkidBuffer.held, List.append_assoc]
    · rw [log, holds.held_rrDp reset clear]
      simp only [holds.conserved.appeared, SkidBuffer.held, List.append_assoc]

end Unflushed

theorem next_of_flush (system : StallSystem)
    (flush : (input.reset || input.clear) = true) :
    (system.next input).log = empty ∧
      (system.next input).frontEnd.idRr = .resetState noUops ∧
        (system.next input).frontEnd.rrDp = .resetState noUops := by
  refine ⟨if_pos flush, if_pos flush, if_pos flush⟩

theorem idUopsOut_of_held
    (hold : (input.reset || input.clear || system.frontEnd.rrFull input) =
      true) :
    validUops (system.next input).frontEnd.idUopsOut = [] := by
  have insts : (system.next input).frontEnd.idInstsIn = fun _ => 0 :=
    if_pos hold
  have valid : (system.next input).frontEnd.idInstsInValid = fun _ => false :=
    if_pos hold
  rw [FrontEnd.idUopsOut, insts, valid]
  decide

theorem Invariant.next (holds : Invariant system)
    (guarded : Guarded system input) : Invariant (system.next input) := by
  by_cases flush : (input.reset || input.clear) = true
  · obtain ⟨log, idRr, rrDp⟩ := next_of_flush system flush
    have settled : (SkidBuffer.resetState (noUops : Fin 4 → MicroOp)).Settled
        validUops :=
      SkidBuffer.settled_resetState validUops_noUops
    refine ⟨⟨?_, ?_⟩, ?_, ?_, ?_, ?_, ?_⟩
    · rw [log, idRr, SkidBuffer.held_resetState validUops_noUops]
      rfl
    · rw [log, rrDp, SkidBuffer.held_resetState validUops_noUops]
      rfl
    · rw [idRr]
      exact settled
    · rw [rrDp]
      exact settled
    · rw [rrDp]
      intro stalled
      cases stalled
    · intro _
      exact idUopsOut_of_held (by rw [flush, Bool.true_or])
    · rw [idRr]
      exact fun _ => validUops_noUops
  · obtain ⟨reset, clear⟩ : input.reset = false ∧ input.clear = false := by
      simpa using flush
    have served := guarded reset clear
    refine ⟨(holds.conserved_next reset clear).mpr served, ?_, ?_, ?_, ?_, ?_⟩
    · rw [next_idRr reset clear]
      exact holds.idRr.next validUops_noUops false
    · rw [next_rrDp reset clear]
      exact holds.rrDp.next validUops_noUops false
    · rw [next_rrDp reset clear, next_idRr reset clear,
        SkidBuffer.next_stallPrev, SkidBuffer.next_stallPrev]
      intro full
      rw [FrontEnd.rrFull, full, Bool.true_or]
    · rw [next_idRr reset clear, SkidBuffer.next_stallPrev]
      intro full
      exact idUopsOut_of_held (by rw [full, Bool.or_true])
    · intro recovers
      have quiet : (system.next input).recover = input.clear := by
        change (if input.reset then false else input.clear) = _
        rw [reset]
        rfl
      rw [quiet, clear] at recovers
      cases recovers

end Cycle

/-! ## Runs -/

theorem invariant_start {system : StallSystem} (started : start system) :
    Invariant system := by
  subst started
  have settled : (SkidBuffer.resetState (noUops : Fin 4 → MicroOp)).Settled
      validUops :=
    SkidBuffer.settled_resetState validUops_noUops
  refine ⟨⟨?_, ?_⟩, settled, settled, ?_, ?_, ?_⟩
  · rw [FrontEnd.resetState, SkidBuffer.held_resetState validUops_noUops]
    rfl
  · rw [FrontEnd.resetState, SkidBuffer.held_resetState validUops_noUops]
    rfl
  · intro stalled
    cases stalled
  · intro stalled
    cases stalled
  · intro recovers
    cases recovers

theorem run_invariant {system : StallSystem}
    (run : Run start next Guarded system) : Invariant system :=
  run.invariant Invariant (fun _ => invariant_start)
    (fun _ _ holds guarded => holds.next guarded)

/-! ## Cycles without a stall -/

section Flow

variable {system : StallSystem} {input : FrontEndInput}

theorem Flowing.guarded (flowing : Flowing system input) :
    Guarded system input :=
  fun _ _ => flowing.served

theorem Flowing.rrFull (flowing : Flowing system input) :
    system.frontEnd.rrFull input = false := by
  rw [FrontEnd.rrFull, flowing.cmFull, rrAllocatable_iff.mpr flowing.served]
  rfl

theorem Invariant.flow (holds : Invariant system)
    (flowing : Flowing system input) :
    validUops (system.next input).frontEnd.rrDp.out =
        validUops system.frontEnd.rrDp.tmp ++
          validUops (system.frontEnd.rrUopsOut system.recover input) ∧
      validUops (system.next input).frontEnd.rrDp.tmp = [] ∧
        validUops (system.next input).frontEnd.idRr.out =
            validUops system.frontEnd.idRr.tmp ++
              validUops system.frontEnd.idUopsOut := by
  have dpTmp : validUops (system.next input).frontEnd.rrDp.tmp = [] := by
    rw [next_rrDp flowing.reset flowing.clear, flowing.cmFull]
    exact holds.rrDp.tmp_next validUops_noUops
  have rrTmp : validUops (system.next input).frontEnd.idRr.tmp = [] := by
    rw [next_idRr flowing.reset flowing.clear, flowing.rrFull]
    exact holds.idRr.tmp_next validUops_noUops
  have dpHeld := holds.held_rrDp flowing.reset flowing.clear
  have rrHeld := holds.held_idRr flowing.reset flowing.clear
  rw [SkidBuffer.held, dpTmp, List.append_nil] at dpHeld
  rw [SkidBuffer.held, rrTmp, List.append_nil] at rrHeld
  exact ⟨dpHeld, dpTmp, rrHeld⟩

/-- In three cycles without a stall all that has been decoded appears. -/
theorem Invariant.drains (holds : Invariant system)
    {first second third : FrontEndInput} (one : Flowing system first)
    (two : Flowing (system.next first) second)
    (three : Flowing ((system.next first).next second) third) :
    system.log.decoded.map MicroOp.unrenamed <+:
      (((system.next first).next second).next third).log.appeared.map
        MicroOp.unrenamed := by
  have holdsOne := holds.next one.guarded
  obtain ⟨dpOne, dpTmpOne, rrOne⟩ := holds.flow one
  obtain ⟨dpTwo, -, -⟩ := holdsOne.flow two
  have renamed := holds.rename one.served
  have renamedOne := holdsOne.rename two.served
  have log := nextLog_eq one.reset one.clear system
  have logTwo := nextLog_eq two.reset two.clear (system.next first)
  have logThree := nextLog_eq three.reset three.clear
    ((system.next first).next second)
  refine ⟨(validUops system.frontEnd.idUopsOut).map MicroOp.unrenamed, ?_⟩
  rw [logThree, logTwo, log, dpTwo, dpTmpOne, dpOne, holds.conserved.renamed,
    holds.conserved.appeared]
  simp only [List.map_append, renamedOne, rrOne, renamed, SkidBuffer.held,
    List.append_assoc, List.nil_append]

end Flow

/-- As long as no group is refused, every decoded uop is renamed once and
appears once, in decode order; a cycle loses uops exactly if it refuses a
group; and what has been decoded appears within three cycles without a
stall. -/
theorem stalls_lose_nothing {system : StallSystem}
    (run : Run start next Guarded system) :
    Conserved system ∧
      (∀ input, Conserved (system.next input) ↔ Guarded system input) ∧
        ∀ first second third, Flowing system first →
          Flowing (system.next first) second →
          Flowing ((system.next first).next second) third →
          system.log.decoded.map MicroOp.unrenamed <+:
            (((system.next first).next second).next third).log.appeared.map
              MicroOp.unrenamed := by
  have holds := run_invariant run
  refine ⟨holds.conserved, ?_, fun _ _ _ => holds.drains⟩
  intro input
  constructor
  · intro conserved reset clear
    exact (holds.conserved_next reset clear).mp conserved
  · intro guarded
    exact (holds.next guarded).conserved

/-- A cycle that fetches four times `addi x1, x0, 0`. -/
def fetchAddi : FrontEndInput :=
  { reset := false, clear := false, iqFull := false, cmAllocatable := true
    uopRetire := fun _ => 0
    ifInstsOut := fun _ => { (0 : FbEntry) with inst := 0x93, valid := true }
    ifInstsOutValid := true }

/-- After `cycles` such cycles. -/
def fed : Nat → StallSystem
  | 0 => { frontEnd := .resetState, recover := false, log := empty }
  | cycles + 1 => next (fed cycles) fetchAddi

/-- The four uops of `fetchAddi`. -/
def addiUops : Fin 4 → MicroOp :=
  instDecode fetchAddi.ifInstsOut (fun _ => true)

theorem requests_addiUops :
    MappingTable.requests (fun i => (addiUops i).renamePort) 4 = 4 := by
  decide

/-- The front end is full of such groups, `groups` of which have been renamed
and none has retired. -/
structure FullOfAddi (system : StallSystem) (groups : Nat) : Prop where
  run : Run start next Guarded system
  recover : system.recover = false
  decode : system.frontEnd.idUopsOut = addiUops
  rename : system.frontEnd.idRr.out = addiUops
  released : system.frontEnd.idRr.stallPrev = false
  free : system.frontEnd.rr.freeList.freeNum.toNat + 4 * groups = 63

theorem FullOfAddi.served_iff {system : StallSystem} {groups : Nat}
    (full : FullOfAddi system groups) :
    Served system fetchAddi ↔ groups < 15 := by
  have free := full.free
  have unchanged : system.frontEnd.rr.freeList.retireLanes
      (fun i => (fetchAddi.uopRetire i).retirePort) =
        system.frontEnd.rr.freeList := rfl
  rw [Served, full.rename, requests_addiUops, unchanged]
  omega

theorem FullOfAddi.flowing {system : StallSystem} {groups : Nat}
    (full : FullOfAddi system groups) (few : groups < 15) :
    Flowing system fetchAddi :=
  ⟨rfl, rfl, rfl, full.served_iff.mpr few⟩

theorem FullOfAddi.next {system : StallSystem} {groups : Nat}
    (full : FullOfAddi system groups) (few : groups < 15) :
    FullOfAddi (system.next fetchAddi) (groups + 1) := by
  have flowing := full.flowing few
  have moves := flowing.rrFull
  have idRr := next_idRr flowing.reset flowing.clear system
  refine ⟨.step _ full.run flowing.guarded, rfl, ?_, ?_, ?_, ?_⟩
  · have fetched : (system.next fetchAddi).frontEnd.idUopsOut =
        instDecode
          (if system.frontEnd.rrFull fetchAddi then fun _ => 0
            else fetchAddi.ifInstsOut)
          (if system.frontEnd.rrFull fetchAddi then fun _ => false
            else fun _ => true) := rfl
    rw [fetched, moves]
    rfl
  · rw [idRr, moves, SkidBuffer.next, full.released]
    exact full.decode
  · rw [idRr, SkidBuffer.next_stallPrev, moves]
  · have free := full.free
    have wide : ((FreeList.reqCount fun i =>
        (addiUops i).renamePort.rdValid).setWidth 6).toNat = 4 := by
      decide
    have enough : (FreeList.reqCount fun i =>
        (system.frontEnd.idRr.out i).renamePort.rdValid).setWidth 6 ≤
          (system.frontEnd.rr.freeList.retireLanes
            fun i => (fetchAddi.uopRetire i).retirePort).freeNum := by
      rw [BitVec.le_def, full.rename, wide]
      change 4 ≤ system.frontEnd.rr.freeList.freeNum.toNat
      omega
    have left : (system.next fetchAddi).frontEnd.rr.freeList.freeNum =
        system.frontEnd.rr.freeList.freeNum -
          (FreeList.reqCount fun i =>
            (system.frontEnd.idRr.out i).renamePort.rdValid).setWidth 6 := by
      change (Rat.next _ false system.recover _ _).freeList.freeNum = _
      rw [full.recover]
      change (FreeList.comb system.frontEnd.rr.freeList _ _).next.freeNum = _
      rw [FreeList.comb, if_pos enough]
      rfl
    rw [left, full.rename, BitVec.toNat_sub, wide]
    omega

theorem fullOfAddi_fed (groups : Nat) (few : groups ≤ 15) :
    FullOfAddi (fed (groups + 2)) groups := by
  induction groups with
  | zero =>
      have run : Run start next Guarded (fed 2) := by
        refine .step _ (.step _ (.start rfl) ?_) ?_
        · intro _ _
          unfold Served
          decide
        · intro _ _
          unfold Served
          decide
      exact ⟨run, rfl, rfl, rfl, rfl, by decide⟩
  | succ groups induction => exact (induction (by omega)).next (by omega)

/-- A stalled cycle, by a full issue queue or a full reorder buffer. -/
def stallAddi (iqFull cmFull : Bool) : FrontEndInput :=
  { fetchAddi with iqFull := iqFull, cmAllocatable := !cmFull }

/-- A refused group is cleared; behind the groups that follow the issue queue
is full for two cycles, and later the reorder buffer for one. -/
def stalls : List FrontEndInput :=
  [{ fetchAddi with clear := true }, fetchAddi, fetchAddi, fetchAddi,
    stallAddi true false, stallAddi true false, fetchAddi,
    stallAddi false true, fetchAddi]

theorem stalls_lose_nothing_addi :
    let refused := fed 17
    let system := stalls.foldl next refused
    ¬ Served refused fetchAddi ∧ system.log.decoded.length = 16 ∧
      system.log.appeared.length = 8 ∧
      (system.log.decoded.map MicroOp.unrenamed <+:
        (((system.next fetchAddi).next fetchAddi).next
          fetchAddi).log.appeared.map MicroOp.unrenamed) := by
  intro refused system
  have full := fullOfAddi_fed 15 (Nat.le_refl 15)
  have run : Run start next Guarded system :=
    full.run.through (by decide +kernel)
  refine ⟨?_, by decide +kernel, by decide +kernel, ?_⟩
  · rw [full.served_iff]
    omega
  · refine (stalls_lose_nothing run).2.2 fetchAddi fetchAddi fetchAddi ?_ ?_ ?_
    all_goals exact ⟨rfl, rfl, rfl, by decide +kernel⟩

/-- Fifteen groups have been renamed and three registers are left, so rename
refuses the sixteenth group; it is in no register a cycle later. -/
theorem refused_group_is_lost :
    ∃ system, Run start next (fun _ _ => True) system ∧ Conserved system ∧
      ¬ Conserved (system.next fetchAddi) := by
  have full := fullOfAddi_fed 15 (Nat.le_refl 15)
  have holds := run_invariant full.run
  refine ⟨fed 17, full.run.mono fun _ _ _ => trivial, holds.conserved, ?_⟩
  rw [holds.conserved_next rfl rfl, full.served_iff]
  omega

end StallSystem

end Ria
