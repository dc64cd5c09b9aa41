import Ria.Frontend.RegisterConservation

/-!
# Renaming preserves dataflow

The physical sources of a renamed uop are the destinations of the youngest
older writers, where older means earlier in program order among the uops that
are retired, in flight or in an earlier lane of the same group.  The register
displaced by a rename is the one that its retirement displaces from the
committed map.
-/

namespace Ria

open Hdl MappingTable

namespace RenameSystem

variable {system : RenameSystem} {input : RenameInput}

/-- The uops older than lane `i` of the group, in program order. -/
def older (system : RenameSystem) (input : RenameInput) (i : Fin 4) :
    List Allocation :=
  system.retired ++ system.queue ++
    allocations ((List.ofFn (system.uopOut input)).take i.val)

/-- The register that holds the value of `arf` after `history`. -/
def sourceOf (history : List Allocation) (arf : ArfIndex) : PrfIndex :=
  if arf = 0 then 0 else (mapping history arf).getD 0

/-- `uopOut` is `uopIn` renamed after `history`. -/
structure RenamedAfter (history : List Allocation) (uopIn uopOut : MicroOp) :
    Prop where
  rs1 : uopOut.rs1PrfIntIndex = sourceOf history uopIn.rs1ArfIntIndex
  rs2 : uopOut.rs2PrfIntIndex = sourceOf history uopIn.rs2ArfIntIndex
  prev : uopIn.rdValid = true → uopOut.rdPrfIntIndexPrev =
    (mapping history uopIn.rdArfIntIndex).getD 0
  prevValid : uopIn.rdValid = true → uopOut.rdPrfIntIndexPrevValid =
    (mapping history uopIn.rdArfIntIndex).isSome

theorem answer_renamedAfter {table : MappingTable}
    {retired queue : List Allocation} {uop : MicroOp}
    (agree : MapsAgree table retired queue) (valid : uop.valid = true)
    (nonzero : uop.rdValid = true → uop.rdArfIntIndex ≠ 0) :
    RenamedAfter (retired ++ queue) uop
      (uop.withRenamed (table.answer uop.renamePort)) := by
  have port : uop.renamePort =
      { rdValid := uop.rdValid, rs1 := uop.rs1ArfIntIndex
        rs2 := uop.rs2ArfIntIndex, rd := uop.rdArfIntIndex } := by
    simp [MicroOp.renamePort, valid]
  rw [port]
  refine ⟨?_, ?_, ?_, ?_⟩
  · simp only [MicroOp.withRenamed, answer, sourceOf, agree.mpTb]
  · simp only [MicroOp.withRenamed, answer, sourceOf, agree.mpTb]
  · intro writes
    simp only [MicroOp.withRenamed, answer, if_pos writes, agree.mpTb]
  · intro writes
    have different : (uop.rdArfIntIndex == 0) = false := by
      simpa using nonzero writes
    simp only [MicroOp.withRenamed, answer, writes, agree.arfValid, different,
      Bool.true_and, Bool.false_or]

theorem Allowed.renamedAfter (allowed : Allowed system input)
    (invariant : RenameInvariant system.rat system.retired system.queue)
    (i : Fin 4) (valid : (system.uopOut input i).valid = true) :
    RenamedAfter (older system input i) (input.uopIn i)
      (system.uopOut input i) := by
  have retires := allowed.retires invariant
  obtain ⟨rest, split⟩ := allowed.front
  rcases next_cases system input retires.conserved.counted with
    ⟨-, -, -, out⟩ | ⟨-, -, -, out⟩ | ⟨-, fits, -, -, out⟩
  · rw [out i] at valid
    cases valid
  · rw [out i] at valid
    cases valid
  · have lane := (allowed.renames invariant fits i.val (by omega)).agree
    have history : older system input i =
        (system.retired ++ retiring input) ++
          (system.queue.drop (retiring input).length ++
            joined (system.afterRetire input) input.uopIn i.val) := by
      rw [older, out, joined, ← split, List.drop_left]
      simp
    have validIn : (input.uopIn i).valid = true := by
      rw [out] at valid
      exact valid
    rw [history, out]
    exact answer_renamedAfter lane validIn (allowed.nonzero i validIn)

/-- The table when the uops in `first` have retired. -/
def tableAfter (system : RenameSystem) (first : List Allocation) :
    MappingTable :=
  (first.map Allocation.retirePort).foldl MappingTable.retireOne system.rat

/-- A retiring uop names the committed mapping that it displaces. -/
theorem Allowed.displaces (allowed : Allowed system input)
    (invariant : RenameInvariant system.rat system.retired system.queue)
    {first rest : List Allocation} {alloc : Allocation}
    (split : retiring input = first ++ alloc :: rest)
    (writes : alloc.rdValid = true) :
    alloc.prev = (system.tableAfter first).rRat alloc.rdArf ∧
      alloc.prevValid = (system.tableAfter first).arfRecover alloc.rdArf := by
  obtain ⟨later, queue⟩ := allowed.front
  have agree := invariant.agree
  rw [← queue, split, List.append_assoc] at agree
  have reached := agree.retireAll
  have linked := reached.chained.linked
  have different : (alloc.rdArf == 0) = false := by
    simpa using linked.nonzero writes
  rw [tableAfter, reached.rRat, reached.arfRecover, different, Bool.false_or]
  exact ⟨linked.prev writes, linked.prevValid writes⟩

/-- In every cycle of every run the renamed uops read their last writers and
record the mapping that they replace, and at retirement that mapping is the
committed one. -/
theorem renaming_preserves_dataflow
    (run : Run RenameSystem.start RenameSystem.next Allowed system)
    (allowed : Allowed system input) :
    (∀ i, (system.uopOut input i).valid = true →
        RenamedAfter (older system input i) (input.uopIn i)
          (system.uopOut input i)) ∧
      ∀ first alloc rest, retiring input = first ++ alloc :: rest →
        alloc.rdValid = true →
        alloc.prev = (system.tableAfter first).rRat alloc.rdArf ∧
          alloc.prevValid =
            (system.tableAfter first).arfRecover alloc.rdArf := by
  have invariant := reachable_invariant run
  constructor
  · intro i valid
    exact allowed.renamedAfter invariant i valid
  · intro first alloc rest split writes
    exact allowed.displaces invariant split writes

/-- The second of two renames of `x1` reads the first. -/
theorem second_rename_reads_first :
    ∃ system : RenameSystem, system.queue.length = 1 ∧
      RenamedAfter (older system writeX1 0) (writeX1.uopIn 0)
        (system.uopOut writeX1 0) := by
  refine ⟨RenameSystem.next ⟨.resetState, [], []⟩ writeX1, by decide, ?_⟩
  exact (renaming_preserves_dataflow
    (.step _ (.start rfl) (writeX1_allowed _)) (writeX1_allowed _)).1 0
    (by decide)

end RenameSystem

end Ria
