import Ria.Core.History
import Ria.Library.RegisterMachine

/-!
# The uops in program order

The uops that rename has put out since the reset, less those squashed, are one
list.  In it the sources of every uop are the destinations of its producers,
and no destination that may still be read is given to another uop.
-/

namespace Ria

open Hdl MappingTable

/-- The register that a uop writes -/
def MicroOp.target (uop : MicroOp) : Option ArfIndex :=
  if uop.rdValid then some uop.rdArfIntIndex else none

theorem MicroOp.target_eq_some {uop : MicroOp} {arf : ArfIndex} :
    uop.target = some arf ↔ uop.rdValid = true ∧ uop.rdArfIntIndex = arf := by
  unfold target
  cases uop.rdValid <;> simp

/-- The last uop before a given one that writes `arf` -/
def producer (uops : List MicroOp) (number : Nat) (arf : ArfIndex) :
    Option Nat :=
  RegisterMachine.producer MicroOp.target uops number arf

/-- The mapping of a history is the register of the last writer. -/
theorem mapping_take (uops : List MicroOp) (number : Nat) (arf : ArfIndex) :
    mapping ((uops.take number).map MicroOp.allocation) arf =
      (producer uops number arf).map fun writer =>
        (uops.getD writer 0).rdPrfIntIndex := by
  induction number with
  | zero => rfl
  | succ number induction =>
      rw [List.take_add_one, producer, RegisterMachine.producer, latest,
        RegisterMachine.writes]
      cases found : uops[number]? with
      | none =>
          rw [Option.toList_none, List.append_nil]
          exact induction
      | some uop =>
          rw [Option.toList_some, List.map_append, List.map_singleton,
            mapping_snoc]
          have same : uop.allocation.rdValid = true ∧
              uop.allocation.rdArf = arf ↔ uop.target = some arf :=
            MicroOp.target_eq_some.symm
          simp only [same, Option.bind_some, beq_iff_eq]
          by_cases writes : uop.target = some arf
          · rw [if_pos writes, if_pos writes, Option.map_some,
              List.getD_eq_getElem?_getD, found]
            rfl
          · rw [if_neg writes, if_neg writes]
            exact induction

/-- The sources of every uop are the registers of the last writers before
it. -/
def Sourced (uops : List MicroOp) : Prop :=
  ∀ number uop, uops[number]? = some uop →
    uop.rs1PrfIntIndex = RenameSystem.sourceOf
        ((uops.take number).map MicroOp.allocation) uop.rs1ArfIntIndex ∧
      uop.rs2PrfIntIndex = RenameSystem.sourceOf
        ((uops.take number).map MicroOp.allocation) uop.rs2ArfIntIndex

theorem Sourced.take {uops : List MicroOp} (sourced : Sourced uops)
    (count : Nat) : Sourced (uops.take count) := by
  intro number uop found
  have inside : number < count := by
    by_contra beyond
    rw [List.getElem?_take_eq_none (Nat.le_of_not_lt beyond)] at found
    cases found
  rw [List.getElem?_take_of_lt inside] at found
  rw [List.take_take, Nat.min_eq_left (Nat.le_of_lt inside)]
  exact sourced number uop found

theorem Sourced.append {uops added : List MicroOp} (sourced : Sourced uops)
    (next : ∀ number uop, added[number]? = some uop →
      uop.rs1PrfIntIndex = RenameSystem.sourceOf
          ((uops ++ added.take number).map MicroOp.allocation)
          uop.rs1ArfIntIndex ∧
        uop.rs2PrfIntIndex = RenameSystem.sourceOf
          ((uops ++ added.take number).map MicroOp.allocation)
          uop.rs2ArfIntIndex) : Sourced (uops ++ added) := by
  intro number uop found
  by_cases old : number < uops.length
  · rw [List.getElem?_append_left old] at found
    rw [List.take_append_of_le_length (Nat.le_of_lt old)]
    exact sourced number uop found
  · have position := Nat.le_of_not_lt old
    rw [List.getElem?_append_right position] at found
    rw [List.take_append, List.take_of_length_le position]
    exact next _ uop found

theorem index_of_destination {queue : List Allocation}
    (nodup : (destinations queue).Nodup) {i j : Nat} {one other : Allocation}
    (here : queue[i]? = some one) (there : queue[j]? = some other)
    (valid : one.rdValid = true) (also : other.rdValid = true)
    (same : one.rdPrf = other.rdPrf) : i = j := by
  rw [destinations, List.Nodup, List.pairwise_map, List.pairwise_filter,
    List.pairwise_iff_getElem] at nodup
  rcases List.getElem?_eq_some_iff.mp here with ⟨inside, rfl⟩
  rcases List.getElem?_eq_some_iff.mp there with ⟨within, rfl⟩
  rcases Nat.lt_trichotomy i j with before | equal | after
  · exact absurd same (nodup i j inside within before valid also)
  · exact equal
  · exact absurd same.symm (nodup j i within inside after also valid)

theorem mem_destinations {queue : List Allocation} {i : Nat}
    {alloc : Allocation} (here : queue[i]? = some alloc)
    (valid : alloc.rdValid = true) : alloc.rdPrf ∈ destinations queue :=
  List.mem_map.mpr ⟨alloc, List.mem_filter.mpr
    ⟨List.mem_of_getElem? here, valid⟩, rfl⟩

/-! ## Lanes and lists -/

theorem lane_of_getElem? {uops : Fin 4 → MicroOp} {number : Nat}
    {uop : MicroOp} (found : (validUops uops)[number]? = some uop) :
    ∃ i : Fin 4, (uops i).valid = true ∧
      validBefore uops i.val = number ∧ uops i = uop := by
  have inside := (List.getElem?_eq_some_iff.mp found).1
  rw [← validBefore_lanes] at inside
  rcases lane_of_ahead { uopComplete := noUops, uopIn := uops } number 4
    inside (Nat.le_refl 4) with ⟨i, -, valid, count⟩
  have here := getElem?_validUops valid
  have position : validBefore uops i.val = number := count
  rw [position, found] at here
  exact ⟨i, valid, position, (Option.some.inj here).symm⟩

theorem take_validUops {lanes : Nat} (uops : Fin lanes → MicroOp)
    (count : Nat) :
    ((List.ofFn uops).take count).filter MicroOp.valid =
      (validUops uops).take (validBefore uops count) := by
  have first := (List.take_prefix count (List.ofFn uops)).filter MicroOp.valid
  rw [List.prefix_iff_eq_take.mp first, validBefore,
    List.countP_eq_length_filter]
  rfl

namespace HistorySystem

/-- The uops that rename has put out, without what the reorder buffer and the
branch unit set -/
def trace (system : HistorySystem) : List MicroOp :=
  (system.earlier ++ system.log.inserted ++ system.arriving).map
    MicroOp.identity

/-- How many uops have entered the reorder buffer -/
def entered (system : HistorySystem) : Nat :=
  system.earlier.length + system.log.inserted.length

section Cycle

variable {system : HistorySystem} {input : CoreInput}
  {committed : List MicroOp} {queue : List Allocation}

theorem getElem?_trace_of_entered {number : Nat}
    (inside : number < system.entered) :
    system.trace[number]? =
      ((system.earlier ++ system.log.inserted)[number]?).map
        MicroOp.identity := by
  rw [trace, List.getElem?_map, List.getElem?_append_left]
  rw [List.length_append]
  exact inside

theorem trace_eq (returning : system.commit.Returning) :
    system.trace =
      (system.retired ++ system.staying ++ system.arriving).map
        MicroOp.identity := by
  have before : system.log.retired.map MicroOp.identity <+:
      system.log.inserted.map MicroOp.identity := returning.retired_identity
  have taken : system.log.retired.map MicroOp.identity =
      (system.log.inserted.take system.log.retired.length).map
        MicroOp.identity := by
    rw [List.prefix_iff_eq_take.mp before, List.map_take, List.length_map]
  have inserted : system.log.inserted.map MicroOp.identity =
      system.log.retired.map MicroOp.identity ++
        system.staying.map MicroOp.identity := by
    rw [taken, ← List.map_append, staying, List.take_append_drop]
  rw [trace, retired]
  simp only [List.map_append, inserted, List.append_assoc]

theorem leaving_trace (returning : system.commit.Returning)
    (resolved : system.core.BranchesResolved) :
    (system.retired ++ validUops system.core.cmUopRetire).map
      MicroOp.identity <+: system.trace := by
  have leaves : validUops system.core.cmUopRetire =
      system.log.turn system.core.robInput := returning.leaving_eq resolved
  have leaving : (system.log.turn system.core.robInput).map
      MicroOp.identity <+: system.staying.map MicroOp.identity :=
    returning.turn_identity
  rw [trace_eq returning, leaves]
  simp only [List.map_append, List.append_assoc, List.prefix_append_right_inj]
  exact leaving.trans (List.prefix_append _ _)

theorem trace_allocation (returning : system.commit.Returning)
    (renames : Renaming system committed queue)
    (runs : system.core.recover = false) :
    system.trace.map MicroOp.allocation =
      committed.map MicroOp.allocation ++ queue := by
  rw [trace_eq returning, map_allocation, renames.running runs,
    renames.retired, pipeline]
  simp only [List.map_append, List.append_assoc]

theorem trace_next (returning : system.commit.Returning)
    (resolved : system.core.BranchesResolved) (stalls : StallsBack system.core)
    (orderly : system.Orderly input) (runs : system.core.cmRecover = false) :
    (system.next input).trace = system.trace ++
      (validUops (system.core.rrUopsOut input)).map MicroOp.identity := by
  have right := (CommitSystem.recover_eq returning).symm.trans runs
  have onward := returning.onward resolved orderly right
  have inserted : (system.next input).log.inserted =
      system.log.inserted ++ validUops system.core.robUopsIn :=
    onward.inserted
  have earlier : (system.next input).earlier = system.earlier := by
    rw [next, runs]
    rfl
  rw [trace, inserted, earlier, arriving_next stalls orderly.running runs,
    trace, arriving, SkidBuffer.held, ← List.map_append]
  simp only [List.append_assoc]
  rfl

/-- A recovery keeps what has retired. -/
theorem trace_next_of_recover (returning : system.commit.Returning)
    (resolved : system.core.BranchesResolved)
    (recovers : system.core.cmRecover = true) :
    (system.next input).trace =
      system.trace.take
        (system.retired ++ validUops system.core.cmUopRetire).length := by
  have flushed := system.core.flushed_next input (Core.flush_of_clear recovers
    input)
  have log : (system.next input).log = .empty := if_pos recovers
  have rrDp : (system.next input).core.frontEnd.rrDp = .resetState noUops :=
    flushed.rrDp
  have earlier : (system.next input).earlier =
      system.retired ++ validUops system.core.cmUopRetire := if_pos recovers
  have kept := List.prefix_iff_eq_take.mp (leaving_trace returning resolved)
  rw [List.length_map] at kept
  rw [← kept, trace, log, earlier, arriving, rrDp,
    SkidBuffer.held_resetState validUops_noUops, List.append_nil]
  exact congrArg (List.map MicroOp.identity) (List.append_nil _)

theorem trace_agrees (returning : system.commit.Returning)
    (resolved : system.core.BranchesResolved) (stalls : StallsBack system.core)
    (orderly : system.Orderly input) {number : Nat}
    (inside : number < (system.next input).entered) :
    (system.next input).trace[number]? = system.trace[number]? := by
  cases recovers : system.core.cmRecover with
  | true =>
      have log : (system.next input).log = .empty := if_pos recovers
      have earlier : (system.next input).earlier =
          system.retired ++ validUops system.core.cmUopRetire :=
        if_pos recovers
      have none : FifoLog.empty.inserted.length = 0 := rfl
      rw [entered, log, earlier, none, Nat.add_zero] at inside
      rw [trace_next_of_recover returning resolved recovers,
        List.getElem?_take_of_lt inside]
  | false =>
      have right := (CommitSystem.recover_eq returning).symm.trans recovers
      have onward := returning.onward resolved orderly right
      have inserted : (system.next input).log.inserted =
          system.log.inserted ++ validUops system.core.robUopsIn :=
        onward.inserted
      have earlier : (system.next input).earlier = system.earlier := by
        rw [next, recovers]
        rfl
      have group : (validUops system.core.robUopsIn).length ≤
          system.arriving.length := by
        rw [arriving, SkidBuffer.held, List.length_append]
        exact Nat.le_add_right _ _
      rw [entered, inserted, earlier, List.length_append] at inside
      rw [trace_next returning resolved stalls orderly recovers,
        List.getElem?_append_left]
      rw [trace, List.length_map, List.length_append, List.length_append]
      omega

/-- Rename gives every uop the registers of its producers. -/
theorem renamedAfter_trace (returning : system.commit.Returning)
    (renames : Renaming system committed queue)
    (writable : system.core.Carries MicroOp.Writable)
    (runs : system.core.recover = false) {i : Fin 4}
    (valid : (system.core.rrUopsOut input i).valid = true) :
    RenameSystem.RenamedAfter
      ((system.trace ++ ((validUops (system.core.rrUopsOut input)).map
        MicroOp.identity).take
          (validBefore (system.core.rrUopsOut input) i.val)).map
        MicroOp.allocation)
      (system.core.frontEnd.idRr.out i) (system.core.rrUopsOut input i) := by
  have renamed := (renames.allowed writable).renamedAfter renames.rename i
    valid
  have older : RenameSystem.older
      (renameSystem system.core committed queue) (renameInput system.core) i =
        (system.trace ++ ((validUops (system.core.rrUopsOut input)).map
          MicroOp.identity).take
            (validBefore (system.core.rrUopsOut input) i.val)).map
          MicroOp.allocation := by
    rw [List.map_append, trace_allocation returning renames runs,
      ← List.map_take, map_allocation, ← take_validUops]
    rfl
  rw [← older]
  exact renamed

theorem rrUopsOut_arf {i : Fin 4}
    (valid : (system.core.rrUopsOut input i).valid = true) :
    (system.core.rrUopsOut input i).rs1ArfIntIndex =
        (system.core.frontEnd.idRr.out i).rs1ArfIntIndex ∧
      (system.core.rrUopsOut input i).rs2ArfIntIndex =
        (system.core.frontEnd.idRr.out i).rs2ArfIntIndex := by
  revert valid
  unfold Core.rrUopsOut FrontEnd.rrUopsOut Rat.uopOut
  split
  · intro never
    cases never
  · split
    · exact fun _ => ⟨rfl, rfl⟩
    · intro never
      cases never

theorem sourced_next (sourced : Sourced system.trace)
    (returning : system.commit.Returning)
    (resolved : system.core.BranchesResolved)
    (renames : Renaming system committed queue)
    (writable : system.core.Carries MicroOp.Writable)
    (stalls : StallsBack system.core) (orderly : system.Orderly input) :
    Sourced (system.next input).trace := by
  cases recovers : system.core.cmRecover with
  | true =>
      rw [trace_next_of_recover returning resolved recovers]
      exact sourced.take _
  | false =>
      rw [trace_next returning resolved stalls orderly recovers]
      refine sourced.append fun number uop found => ?_
      rw [List.getElem?_map] at found
      rcases Option.map_eq_some_iff.mp found with ⟨renamed, there, rfl⟩
      rcases lane_of_getElem? there with ⟨i, valid, rfl, rfl⟩
      have runs : system.core.recover = false := by
        rw [← Bool.not_eq_true]
        intro recovering
        rw [Core.rrUopsOut, recovering] at valid
        cases valid
      have after := renamedAfter_trace returning renames writable runs valid
      rcases rrUopsOut_arf valid with ⟨rs1, rs2⟩
      exact ⟨after.rs1.trans (by rw [← rs1]; rfl),
        after.rs2.trans (by rw [← rs2]; rfl)⟩

end Cycle

/-! ## Registers in use -/

theorem committed_le (system : HistorySystem) :
    system.committed.length ≤ system.retired.length := by
  rw [committed, List.length_take]
  exact (Nat.min_le_left _ _).trans (Nat.sub_le _ _)

theorem committed_next (system : HistorySystem) {input : CoreInput}
    (running : input.reset = false) :
    (system.next input).committed = system.retired := by
  rw [committed, retired_next, uopRetire_next running, List.length_append,
    Nat.add_sub_cancel, List.take_left]

theorem retired_le (system : HistorySystem)
    (returning : system.commit.Returning) :
    system.retired.length ≤ system.entered := by
  have short : system.log.retired.length ≤ system.log.inserted.length :=
    returning.queue.queue.short
  rw [retired, List.length_append, entered]
  omega

/-- The register of the uop may still be read: no uop that rename has seen
retire has replaced it. -/
def Live (system : HistorySystem) (number : Nat) : Prop :=
  ∀ uop arf, system.trace[number]? = some uop → uop.target = some arf →
    ∀ later, number < later → later < system.committed.length →
      RegisterMachine.writes MicroOp.target system.trace arf later = false

section Live

variable {system : HistorySystem} {committed : List MicroOp}
  {queue : List Allocation}

theorem Live.before {input : CoreInput} {number : Nat}
    (live : (system.next input).Live number)
    (agrees : ∀ earlier < (system.next input).entered,
      (system.next input).trace[earlier]? = system.trace[earlier]?)
    (entered : (system.next input).retired.length ≤
      (system.next input).entered) (running : input.reset = false)
    (inside : number < (system.next input).entered) :
    system.Live number := by
  intro uop arf found target later above below
  have short := system.committed_le
  have more : system.retired.length ≤ (system.next input).retired.length := by
    rw [retired_next, List.length_append]
    exact Nat.le_add_right _ _
  have last := live uop arf ((agrees number inside).trans found) target later
    above (by rw [committed_next system running]; omega)
  rw [RegisterMachine.writes, agrees later (by omega)] at last
  exact last

/-- What a uop reads that has not retired is live. -/
theorem live_of_producer {reader writer : Nat} {arf : ArfIndex}
    (waits : system.retired.length ≤ reader)
    (found : producer system.trace reader arf = some writer) :
    system.Live writer := by
  have short := system.committed_le
  rcases RegisterMachine.producer_eq_some.mp found with ⟨-, writes, last⟩
  rcases RegisterMachine.writes_iff.mp writes with ⟨uop, here, target⟩
  intro other register there also later above below
  rw [here] at there
  obtain rfl := Option.some.inj there
  rw [target] at also
  obtain rfl := Option.some.inj also
  exact last later above (by omega)

theorem getElem?_queue (renames : Renaming system committed queue)
    (returning : system.commit.Returning)
    (runs : system.core.recover = false) {number : Nat} {uop : MicroOp}
    (found : system.trace[number]? = some uop) :
    (number < committed.length ∧
        (committed.map MicroOp.allocation)[number]? = some uop.allocation) ∨
      committed.length ≤ number ∧
        queue[number - committed.length]? = some uop.allocation := by
  have whole := congrArg (·[number]?)
    (trace_allocation returning renames runs)
  simp only [List.getElem?_map, found, Option.map_some] at whole
  by_cases before : number < committed.length
  · rw [List.getElem?_append_left (by rwa [List.length_map])] at whole
    exact .inl ⟨before, whole.symm⟩
  · have after := Nat.le_of_not_lt before
    rw [List.getElem?_append_right (by rwa [List.length_map]),
      List.length_map] at whole
    exact .inr ⟨after, whole.symm⟩

/-- The register of a live uop is committed, or that of a uop in flight. -/
theorem Live.destination {number : Nat} {uop : MicroOp}
    (live : system.Live number) (renames : Renaming system committed queue)
    (returning : system.commit.Returning)
    (runs : system.core.recover = false)
    (found : system.trace[number]? = some uop)
    (valid : uop.rdValid = true) :
    Committed (committed.map MicroOp.allocation) uop.rdPrfIntIndex ∨
      committed.length ≤ number ∧
        queue[number - committed.length]? = some uop.allocation := by
  rcases getElem?_queue renames returning runs found with
    ⟨before, -⟩ | after
  · left
    refine ⟨uop.rdArfIntIndex, ?_⟩
    have target : uop.target = some uop.rdArfIntIndex :=
      MicroOp.target_eq_some.mpr ⟨valid, rfl⟩
    have last : producer system.trace committed.length uop.rdArfIntIndex =
        some number := by
      refine RegisterMachine.producer_eq_some.mpr ⟨before,
        RegisterMachine.writes_iff.mpr ⟨uop, found, target⟩, ?_⟩
      rw [← renames.committed_eq]
      exact live uop _ found target
    have first : committed.map MicroOp.allocation =
        (system.trace.take committed.length).map MicroOp.allocation := by
      rw [List.map_take, trace_allocation returning renames runs,
        List.take_left' (List.length_map _)]
    rw [first, mapping_take, last, Option.map_some,
      List.getD_eq_getElem?_getD, found]
    rfl
  · exact .inr after

theorem Live.nonzero {number : Nat} {uop : MicroOp}
    (live : system.Live number) (renames : Renaming system committed queue)
    (returning : system.commit.Returning)
    (runs : system.core.recover = false)
    (found : system.trace[number]? = some uop)
    (valid : uop.rdValid = true) : uop.rdPrfIntIndex ≠ 0 := by
  have conserved := renames.rename.conserved
  intro zero
  rcases live.destination renames returning runs found valid with
    old | ⟨-, queued⟩
  · exact conserved.committedNonzero (zero ▸ old)
  · exact conserved.destinationsNonzero
      (zero ▸ mem_destinations queued valid)

theorem Live.distinct {number other : Nat} {uop later : MicroOp}
    (live : system.Live number) (renames : Renaming system committed queue)
    (returning : system.commit.Returning)
    (runs : system.core.recover = false)
    (found : system.trace[number]? = some uop)
    (valid : uop.rdValid = true) (waits : committed.length ≤ other)
    (there : system.trace[other]? = some later)
    (also : later.rdValid = true)
    (same : uop.rdPrfIntIndex = later.rdPrfIntIndex) : number = other := by
  have conserved := renames.rename.conserved
  rcases getElem?_queue renames returning runs there with
    ⟨before, -⟩ | ⟨-, behind⟩
  · omega
  · rcases live.destination renames returning runs found valid with
      old | ⟨after, queued⟩
    · rw [same] at old
      exact absurd old (conserved.apart _ (mem_destinations behind also))
    · have position := index_of_destination conserved.distinct queued behind
        valid also same
      omega

theorem Following.runs (following : system.Following) {number : Nat}
    {uop : MicroOp} (waits : system.retired.length ≤ number)
    (found : system.trace[number]? = some uop) :
    system.core.recover = false := by
  rcases following with ⟨returning, committed, queue, renames⟩
  rw [← Bool.not_eq_true]
  intro recovers
  rcases (renames.recovering recovers).1.silent (Core.fetchJal true)
    recovers with ⟨staying, arriving, -⟩
  have inside := (List.getElem?_eq_some_iff.mp found).1
  rw [trace_eq returning, staying, arriving, List.length_map,
    List.append_nil, List.append_nil] at inside
  omega

theorem Following.distinct (following : system.Following)
    {number other : Nat} {uop later : MicroOp} (live : system.Live number)
    (found : system.trace[number]? = some uop)
    (valid : uop.rdValid = true) (waits : system.retired.length ≤ other)
    (there : system.trace[other]? = some later)
    (also : later.rdValid = true)
    (same : uop.rdPrfIntIndex = later.rdPrfIntIndex) : number = other := by
  have runs := following.runs waits there
  have short := system.committed_le
  rcases following with ⟨returning, committed, queue, renames⟩
  rw [renames.committed_eq] at short
  exact live.distinct renames returning runs found valid
    (short.trans waits) there also same

theorem Following.nonzero (following : system.Following)
    {number other : Nat} {uop later : MicroOp} (live : system.Live number)
    (found : system.trace[number]? = some uop)
    (valid : uop.rdValid = true) (waits : system.retired.length ≤ other)
    (there : system.trace[other]? = some later) :
    uop.rdPrfIntIndex ≠ 0 := by
  have runs := following.runs waits there
  rcases following with ⟨returning, committed, queue, renames⟩
  exact live.nonzero renames returning runs found valid

end Live

end HistorySystem

end Ria
