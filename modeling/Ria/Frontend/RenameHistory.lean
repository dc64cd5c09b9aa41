import Ria.Frontend.Rat
import Ria.Frontend.SequentialRename
import Mathlib.Data.List.Induction

/-!
# Renaming in program order

`RenameSystem` runs `rat` beside the uops it has renamed: those retired so
far and the queue of those in flight, both in program order.  The maps of
`mapping_table` are the last writers in this history: the speculative map over
all of it, the retirement map over the retired part.
-/

namespace Ria

open Hdl MappingTable

/-- What `rat` and the retirement ports know of a renamed uop. -/
structure Allocation where
  rdValid : Bool
  rdArf : ArfIndex
  rdPrf : PrfIndex
  prev : PrfIndex
  prevValid : Bool
deriving DecidableEq

def MicroOp.allocation (uop : MicroOp) : Allocation :=
  { rdValid := uop.rdValid
    rdArf := uop.rdArfIntIndex
    rdPrf := uop.rdPrfIntIndex
    prev := uop.rdPrfIntIndexPrev
    prevValid := uop.rdPrfIntIndexPrevValid }

def Allocation.retirePort (alloc : Allocation) : RetirePort :=
  { prePrfValid := alloc.prevValid
    prePrf := alloc.prev
    retireValid := alloc.rdValid
    retirePrf := alloc.rdPrf
    retireArf := alloc.rdArf }

/-- The valid uops of a bundle, as allocations. -/
def allocations (uops : List MicroOp) : List Allocation :=
  (uops.filter MicroOp.valid).map MicroOp.allocation

theorem allocations_snoc (uops : List MicroOp) (uop : MicroOp) :
    allocations (uops ++ [uop]) =
      allocations uops ++ if uop.valid then [uop.allocation] else [] := by
  unfold allocations
  cases valid : uop.valid <;> simp [valid]

/-! ## Last writers -/

/-- The youngest uop of `history` that writes `arf`. -/
def lastWriter (history : List Allocation) (arf : ArfIndex) :
    Option Allocation :=
  history.reverse.find? (fun alloc => alloc.rdValid && alloc.rdArf == arf)

/-- The register given to the youngest uop of `history` that writes `arf`. -/
def mapping (history : List Allocation) (arf : ArfIndex) : Option PrfIndex :=
  (lastWriter history arf).map Allocation.rdPrf

theorem mapping_snoc (history : List Allocation) (alloc : Allocation)
    (arf : ArfIndex) :
    mapping (history ++ [alloc]) arf =
      if alloc.rdValid = true ∧ alloc.rdArf = arf then some alloc.rdPrf
      else mapping history arf := by
  unfold mapping lastWriter
  rw [List.reverse_append, List.reverse_singleton, List.singleton_append,
    List.find?_cons]
  by_cases writes : alloc.rdValid = true ∧ alloc.rdArf = arf
  · simp [writes]
  · rw [if_neg writes]
    have misses : (alloc.rdValid && alloc.rdArf == arf) = false := by
      simpa using writes
    rw [misses]

theorem mapping_snoc_of_idle {history : List Allocation}
    {alloc : Allocation} (idle : alloc.rdValid = false) (arf : ArfIndex) :
    mapping (history ++ [alloc]) arf = mapping history arf := by
  rw [mapping_snoc, if_neg (by simp [idle])]

section Written

variable {history : List Allocation} (alloc : Allocation)

theorem map_written {map : ArfIndex → PrfIndex}
    (agree : ∀ arf, map arf = (mapping history arf).getD 0)
    (arf : ArfIndex) :
    (if alloc.rdValid then Function.update map alloc.rdArf alloc.rdPrf
      else map) arf = (mapping (history ++ [alloc]) arf).getD 0 := by
  rw [mapping_snoc]
  by_cases valid : alloc.rdValid = true
  · by_cases here : alloc.rdArf = arf
    · subst here
      simp [valid]
    · simp [valid, here, Ne.symm here, agree]
  · simp [valid, agree]

theorem valid_written {mapped : ArfIndex → Bool}
    (agree : ∀ arf, mapped arf = (arf == 0 || (mapping history arf).isSome))
    (arf : ArfIndex) :
    (if alloc.rdValid then Function.update mapped alloc.rdArf true
      else mapped) arf =
      (arf == 0 || (mapping (history ++ [alloc]) arf).isSome) := by
  rw [mapping_snoc]
  by_cases valid : alloc.rdValid = true
  · by_cases here : alloc.rdArf = arf
    · subst here
      simp [valid]
    · simp [valid, here, Ne.symm here, agree]
  · simp [valid, agree]

theorem retireOne_rRat (table : MappingTable) :
    (table.retireOne alloc.retirePort).rRat =
      if alloc.rdValid then
        Function.update table.rRat alloc.rdArf alloc.rdPrf
      else table.rRat :=
  apply_ite Prod.fst _ _ _

theorem retireOne_arfRecover (table : MappingTable) :
    (table.retireOne alloc.retirePort).arfRecover =
      if alloc.rdValid then
        Function.update table.arfRecover alloc.rdArf true
      else table.arfRecover :=
  apply_ite Prod.snd _ _ _

end Written

/-- `alloc` records the mapping that it replaces in `history`. -/
structure Linked (history : List Allocation) (alloc : Allocation) : Prop where
  idle : alloc.rdValid = false → alloc.prevValid = false
  nonzero : alloc.rdValid = true → alloc.rdArf ≠ 0
  prev : alloc.rdValid = true →
    alloc.prev = (mapping history alloc.rdArf).getD 0
  prevValid : alloc.rdValid = true →
    alloc.prevValid = (mapping history alloc.rdArf).isSome

/-- Every uop of a history is linked to the part before it. -/
inductive Chained : List Allocation → Prop where
  | nil : Chained []
  | snoc {history : List Allocation} {alloc : Allocation} :
      Chained history → Linked history alloc → Chained (history ++ [alloc])

theorem Chained.last {history : List Allocation} {alloc : Allocation}
    (chained : Chained (history ++ [alloc])) :
    Chained history ∧ Linked history alloc := by
  generalize whole : history ++ [alloc] = all at chained
  cases chained with
  | nil => simp at whole
  | snoc earlier linked =>
      obtain ⟨rfl, same⟩ := List.append_inj' whole rfl
      obtain rfl : alloc = _ := List.head_eq_of_cons_eq same
      exact ⟨earlier, linked⟩

theorem Chained.earlier {first second : List Allocation}
    (chained : Chained (first ++ second)) : Chained first := by
  induction second using List.reverseRecOn with
  | nil => simpa using chained
  | append_singleton rest alloc induction =>
      rw [← List.append_assoc] at chained
      exact induction chained.last.1

theorem Chained.linked {first rest : List Allocation} {alloc : Allocation}
    (chained : Chained (first ++ alloc :: rest)) : Linked first alloc := by
  have split : first ++ alloc :: rest = (first ++ [alloc]) ++ rest := by simp
  rw [split] at chained
  exact chained.earlier.last.2

theorem Chained.mapping_zero {history : List Allocation}
    (chained : Chained history) : mapping history 0 = none := by
  induction chained with
  | nil => rfl
  | snoc earlier linked induction =>
      rw [mapping_snoc, if_neg]
      · exact induction
      · rintro ⟨valid, zero⟩
        exact linked.nonzero valid zero

/-! ## The maps -/

/-- The tables agree with the history of renames. -/
structure MapsAgree (table : MappingTable)
    (retired queue : List Allocation) : Prop where
  mpTb : ∀ arf, table.mpTb arf = (mapping (retired ++ queue) arf).getD 0
  arfValid : ∀ arf, table.arfValid arf =
    (arf == 0 || (mapping (retired ++ queue) arf).isSome)
  rRat : ∀ arf, table.rRat arf = (mapping retired arf).getD 0
  arfRecover : ∀ arf, table.arfRecover arf =
    (arf == 0 || (mapping retired arf).isSome)
  chained : Chained (retired ++ queue)

namespace MapsAgree

variable {table : MappingTable} {retired queue : List Allocation}

theorem resetState : MapsAgree MappingTable.resetState [] [] := by
  refine ⟨fun arf => rfl, fun arf => ?_, fun arf => rfl, fun arf => ?_, .nil⟩
  · simp [MappingTable.resetState, mapping, lastWriter]
  · simp [MappingTable.resetState, mapping, lastWriter]

theorem retireOne {alloc : Allocation}
    (agree : MapsAgree table retired (alloc :: queue)) :
    MapsAgree (table.retireOne alloc.retirePort) (retired ++ [alloc])
      queue := by
  have same : retired ++ alloc :: queue = (retired ++ [alloc]) ++ queue := by
    simp
  have linked := agree.chained.linked
  refine ⟨?_, ?_, ?_, ?_, ?_⟩
  · rw [← same]
    exact agree.mpTb
  · rw [← same]
    exact agree.arfValid
  · rw [retireOne_rRat]
    exact map_written alloc agree.rRat
  · rw [retireOne_arfRecover]
    exact valid_written alloc agree.arfRecover
  · rw [← same]
    exact agree.chained

/-- The allocation that a single rename makes. -/
def made (table : MappingTable) (port : RenamePort) : Allocation :=
  { rdValid := port.rdValid
    rdArf := port.rd
    rdPrf := (table.answer port).prd
    prev := (table.answer port).prevRd
    prevValid := (table.answer port).prevRdValid }

theorem renameOne_mpTb (table : MappingTable) (port : RenamePort) :
    (table.renameOne port).mpTb =
      if (made table port).rdValid then
        Function.update table.mpTb (made table port).rdArf
          (made table port).rdPrf
      else table.mpTb := by
  by_cases valid : port.rdValid = true
  · simp [MappingTable.renameOne, made, answer, valid]
  · simp [MappingTable.renameOne, made, valid]

theorem renameOne_arfValid (table : MappingTable) (port : RenamePort) :
    (table.renameOne port).arfValid =
      if (made table port).rdValid then
        Function.update table.arfValid (made table port).rdArf true
      else table.arfValid := by
  by_cases valid : port.rdValid = true
  · simp [MappingTable.renameOne, made, valid]
  · simp [MappingTable.renameOne, made, valid]

theorem renameOne {port : RenamePort}
    (agree : MapsAgree table retired queue)
    (nonzero : port.rdValid = true → port.rd ≠ 0) :
    MapsAgree (table.renameOne port) retired (queue ++ [made table port]) := by
  have linked : Linked (retired ++ queue) (made table port) := by
    refine ⟨?_, nonzero, ?_, ?_⟩
    · intro idle
      simp only [made] at idle
      simp [made, answer, idle]
    · intro valid
      simp only [made] at valid
      simp [made, answer, valid, agree.mpTb]
    · intro valid
      simp only [made] at valid
      have different : (port.rd == 0) = false := by
        simpa using nonzero valid
      simp only [made, answer, valid, agree.arfValid, different,
        Bool.true_and, Bool.false_or]
  refine ⟨?_, ?_, ?_, ?_, ?_⟩
  · rw [← List.append_assoc, renameOne_mpTb]
    exact map_written (made table port) agree.mpTb
  · rw [← List.append_assoc, renameOne_arfValid]
    exact valid_written (made table port) agree.arfValid
  · intro arf
    rw [← agree.rRat]
    exact congrFun (renameAll_frame [port] table).1 arf
  · intro arf
    rw [← agree.arfRecover]
    exact congrFun (renameAll_frame [port] table).2.1 arf
  · rw [← List.append_assoc]
    exact .snoc agree.chained linked

theorem recovered (agree : MapsAgree table retired queue) :
    MapsAgree table.recovered retired [] := by
  refine ⟨?_, ?_, agree.rRat, agree.arfRecover, ?_⟩
  · intro arf
    rw [List.append_nil]
    exact agree.rRat arf
  · intro arf
    rw [List.append_nil]
    exact agree.arfRecover arf
  · rw [List.append_nil]
    exact agree.chained.earlier

theorem retireAll {first : List Allocation}
    (agree : MapsAgree table retired (first ++ queue)) :
    MapsAgree ((first.map Allocation.retirePort).foldl MappingTable.retireOne
      table) (retired ++ first) queue := by
  induction first generalizing table retired with
  | nil => simpa using agree
  | cons alloc rest induction =>
      have next := induction agree.retireOne
      simpa using next

end MapsAgree

/-! ## Bundles and groups -/

/-- Retiring lanes is retiring their valid uops one at a time. -/
theorem retire_lanes (uops : List MicroOp) (table : MappingTable) :
    (uops.map MicroOp.retirePort).foldl MappingTable.retireOne table =
      ((allocations uops).map Allocation.retirePort).foldl
        MappingTable.retireOne table := by
  induction uops generalizing table with
  | nil => rfl
  | cons uop rest induction =>
      have next := induction (table.retireOne uop.retirePort)
      rw [List.map_cons, List.foldl_cons, next]
      cases valid : uop.valid with
      | true =>
          have port : uop.retirePort = uop.allocation.retirePort := by
            simp [MicroOp.retirePort, valid, MicroOp.allocation,
              Allocation.retirePort]
          simp [allocations, valid, port]
      | false =>
          have idle : table.retireOne uop.retirePort = table := by
            simp [MicroOp.retirePort, valid, MappingTable.retireOne,
              retireMaps, FreeList.retireLane]
          simp [allocations, valid, idle]

theorem retired_bundle (table : MappingTable)
    (uopRetire : Fin 6 → MicroOp) :
    table.retired (fun i => (uopRetire i).retirePort) =
      ((allocations (List.ofFn uopRetire)).map
        Allocation.retirePort).foldl MappingTable.retireOne table := by
  have lanes : (List.ofFn fun i => (uopRetire i).retirePort) =
      (List.ofFn uopRetire).map MicroOp.retirePort := by
    rw [List.map_ofFn]
    rfl
  rw [MappingTable.retired, lanes, retire_lanes]

section Group

variable (table : MappingTable) (uopIn : Fin 4 → MicroOp)

/-- The rename ports of a group. -/
def groupPorts : Fin 4 → RenamePort := fun i => (uopIn i).renamePort

/-- The group with the answers of one-at-a-time renaming. -/
def renamedGroup : Fin 4 → MicroOp := fun i =>
  (uopIn i).withRenamed
    ((table.before (groupPorts uopIn) i.val).answer (groupPorts uopIn i))

theorem renamedGroup_allocation (i : Fin 4)
    (valid : (uopIn i).valid = true) :
    (renamedGroup table uopIn i).allocation =
      MapsAgree.made (table.before (groupPorts uopIn) i.val)
        (groupPorts uopIn i) := by
  simp [renamedGroup, MicroOp.allocation, MicroOp.withRenamed,
    MapsAgree.made, groupPorts, MicroOp.renamePort, valid]

theorem before_succ_of_invalid (i : Fin 4)
    (invalid : (uopIn i).valid = false) :
    table.before (groupPorts uopIn) (i.val + 1) =
      table.before (groupPorts uopIn) i.val := by
  have idle : (groupPorts uopIn i).rdValid = false := by
    simp [groupPorts, MicroOp.renamePort, invalid]
  rw [before_succ, renameOne, if_neg (by simp [idle])]

/-- The first `count` uops of the renamed group that are valid. -/
def joined (count : Nat) : List Allocation :=
  allocations ((List.ofFn (renamedGroup table uopIn)).take count)

theorem joined_succ (i : Fin 4) :
    joined table uopIn (i.val + 1) =
      joined table uopIn i.val ++
        if (uopIn i).valid then
          [MapsAgree.made (table.before (groupPorts uopIn) i.val)
            (groupPorts uopIn i)]
        else [] := by
  have same : (renamedGroup table uopIn i).valid = (uopIn i).valid := rfl
  rw [joined, take_ofFn_succ, allocations_snoc, same]
  by_cases valid : (uopIn i).valid = true
  · rw [if_pos valid, if_pos valid, renamedGroup_allocation table uopIn i valid]
    rfl
  · rw [if_neg valid, if_neg valid]
    rfl

/-- An invariant of single renames holds before every lane of a group. -/
theorem before_invariant
    (invariant : MappingTable → List Allocation → Prop)
    {queue : List Allocation} (start : invariant table queue)
    (advance : ∀ (i : Fin 4) (current : MappingTable)
      (sofar : List Allocation), (uopIn i).valid = true →
      current = table.before (groupPorts uopIn) i.val →
      invariant current sofar →
      invariant (current.renameOne (groupPorts uopIn i))
        (sofar ++ [MapsAgree.made current (groupPorts uopIn i)]))
    (count : Nat) (bound : count ≤ 4) :
    invariant (table.before (groupPorts uopIn) count)
      (queue ++ joined table uopIn count) := by
  induction count with
  | zero => simpa [before, joined, allocations] using start
  | succ count induction =>
      have earlier := induction (by omega)
      have step := before_succ table (groupPorts uopIn) ⟨count, bound⟩
      have joins := joined_succ table uopIn ⟨count, bound⟩
      have skips := before_succ_of_invalid table uopIn ⟨count, bound⟩
      simp only at step joins skips
      by_cases valid : (uopIn ⟨count, bound⟩).valid = true
      · rw [step, joins, if_pos valid, ← List.append_assoc]
        exact advance ⟨count, bound⟩ _ _ valid rfl earlier
      · rw [skips (by simpa using valid), joins, if_neg valid,
          List.append_nil]
        exact earlier

end Group

/-! ## The system -/

structure RenameInput where
  recover : Bool
  uopRetire : Fin 6 → MicroOp
  uopIn : Fin 4 → MicroOp

/-- `rat` with the uops it renamed that have retired and that are in flight. -/
structure RenameSystem where
  rat : Rat
  retired : List Allocation
  queue : List Allocation

namespace RenameSystem

/-- The state after reset. -/
def start (system : RenameSystem) : Prop :=
  system = { rat := .resetState, retired := [], queue := [] }

/-- The uops retired in a cycle. -/
def retiring (input : RenameInput) : List Allocation :=
  allocations (List.ofFn input.uopRetire)

/-- `uop_out` of `rat`. -/
def uopOut (system : RenameSystem) (input : RenameInput) : Fin 4 → MicroOp :=
  system.rat.uopOut input.recover input.uopRetire input.uopIn

/-- The environment retires from the front of the queue what `rat` put out,
never names x0 as a destination and presents no uop with `recover`. -/
structure Allowed (system : RenameSystem) (input : RenameInput) : Prop where
  front : retiring input <+: system.queue
  nonzero : ∀ i, (input.uopIn i).valid = true →
    (input.uopIn i).rdValid = true → (input.uopIn i).rdArfIntIndex ≠ 0
  quiet : input.recover = true → ∀ i, (input.uopIn i).valid = false

instance decidableAllowed (system : RenameSystem) (input : RenameInput) :
    Decidable (Allowed system input) :=
  decidable_of_iff
    (retiring input <+: system.queue ∧
      (∀ i, (input.uopIn i).valid = true → (input.uopIn i).rdValid = true →
        (input.uopIn i).rdArfIntIndex ≠ 0) ∧
      (input.recover = true → ∀ i, (input.uopIn i).valid = false))
    ⟨fun ⟨front, nonzero, quiet⟩ => ⟨front, nonzero, quiet⟩,
      fun allowed => ⟨allowed.front, allowed.nonzero, allowed.quiet⟩⟩

/-- One clock edge.  The renamed uops join the queue; a recovery empties it
after the cycle's retirements. -/
def next (system : RenameSystem) (input : RenameInput) : RenameSystem :=
  { rat := system.rat.next false input.recover input.uopRetire input.uopIn
    retired := system.retired ++ retiring input
    queue :=
      if input.recover then []
      else system.queue.drop (retiring input).length ++
        allocations (List.ofFn (system.uopOut input)) }

/-- The table after a cycle's retirements. -/
def afterRetire (system : RenameSystem) (input : RenameInput) :
    MappingTable :=
  MappingTable.retired system.rat fun i => (input.uopRetire i).retirePort

theorem next_cases (system : RenameSystem) (input : RenameInput)
    (counted : (system.afterRetire input).Counted) :
    (input.recover = true ∧
        (system.next input).rat = (system.afterRetire input).recovered ∧
        (system.next input).queue = [] ∧
        ∀ i, system.uopOut input i = 0) ∨
      (input.recover = false ∧
        (system.next input).rat = system.afterRetire input ∧
        (system.next input).queue =
          system.queue.drop (retiring input).length ∧
        ∀ i, system.uopOut input i = 0) ∨
      (input.recover = false ∧
        requests (groupPorts input.uopIn) 4 ≤
          (system.afterRetire input).free.length ∧
        (system.next input).rat =
          (system.afterRetire input).before (groupPorts input.uopIn) 4 ∧
        (system.next input).queue =
          system.queue.drop (retiring input).length ++
            joined (system.afterRetire input) input.uopIn 4 ∧
        system.uopOut input =
          renamedGroup (system.afterRetire input) input.uopIn) := by
  have empty : allocations (List.ofFn fun _ : Fin 4 => (0 : MicroOp)) = [] :=
    rfl
  cases recover : input.recover with
  | true =>
      refine .inl ⟨rfl, ?_, ?_, ?_⟩
      · simp only [next, recover]
        exact comb_recovered _ _ _
      · simp only [next, recover, if_true]
      · intro i
        simp only [uopOut, Rat.uopOut, recover, if_true]
  | false =>
      refine .inr ?_
      cases accepted : system.rat.allocatable input.uopRetire input.uopIn with
      | false =>
          have out : system.uopOut input = fun _ => 0 := by
            simp [uopOut, Rat.uopOut, recover, accepted]
          refine .inl ⟨rfl, ?_, ?_, fun i => congrFun out i⟩
          · simp only [next, recover]
            exact (comb_refused _ _ _ accepted).1
          · simp only [next, recover, out, empty, List.append_nil,
              Bool.false_eq_true, if_false]
      | true =>
          obtain ⟨table, answers⟩ := comb_accepted _ _ _ accepted
          have fits := (comb_allocatable _ _ _ counted).mp accepted
          have out : system.uopOut input =
              renamedGroup (system.afterRetire input) input.uopIn := by
            funext i
            simp only [uopOut, Rat.uopOut, recover, accepted]
            exact congrArg (input.uopIn i).withRenamed (answers i)
          refine .inr ⟨rfl, fits, ?_, ?_, out⟩
          · simp only [next, recover]
            refine Eq.trans table ?_
            rw [before, List.take_of_length_le (by simp)]
            rfl
          · rw [joined, List.take_of_length_le (by simp)]
            simp [next, recover, out]

end RenameSystem

end Ria
