import Ria.Common.Bundle
import Ria.Frontend.Rat
import Ria.Frontend.SequentialRename

/-!
# A group renamed one uop at a time

In a cycle without recovery `rat` does what retiring the valid uops of the
retired bundle and then renaming the valid uops of an accepted group would do,
one after another.
-/

namespace Ria

open MappingTable

namespace Rat

/-- Retire one uop. -/
def retireUop (rat : Rat) (uop : MicroOp) : Rat :=
  retireOne rat uop.retirePort

/-- Rename one uop: its sources as they are mapped now, its destination to
the lowest-numbered free register. -/
def renameUop (rat : Rat) (uop : MicroOp) : Rat × MicroOp :=
  (renameOne rat uop.renamePort, uop.withRenamed (answer rat uop.renamePort))

def retireEach (rat : Rat) (uops : List MicroOp) : Rat :=
  uops.foldl retireUop rat

/-- Rename the uops in order, with the uops as they come out. -/
def renameEach (rat : Rat) : List MicroOp → Rat × List MicroOp
  | [] => (rat, [])
  | uop :: rest =>
      let first := rat.renameUop uop
      let others := renameEach first.1 rest
      (others.1, first.2 :: others.2)

/-- Each uop that asks for a register finds one free in its turn. -/
def FindsFree (rat : Rat) : List MicroOp → Prop
  | [] => True
  | uop :: rest =>
      (uop.renamePort.rdValid = true → free rat ≠ []) ∧
        FindsFree (rat.renameUop uop).1 rest

/-! ## Invalid uops change nothing -/

theorem retireUop_invalid {uop : MicroOp} (rat : Rat)
    (invalid : uop.valid = false) : rat.retireUop uop = rat := by
  simp [retireUop, MicroOp.retirePort, invalid, retireOne, retireMaps,
    FreeList.retireLane]

theorem renameUop_invalid {uop : MicroOp} (rat : Rat)
    (invalid : uop.valid = false) :
    rat.renameUop uop = (rat, uop.withRenamed noRename) := by
  simp [renameUop, MicroOp.renamePort, invalid, renameOne, answer, noRename]

theorem retireEach_filter (uops : List MicroOp) (rat : Rat) :
    rat.retireEach (uops.filter MicroOp.valid) = rat.retireEach uops := by
  induction uops generalizing rat with
  | nil => rfl
  | cons uop rest induction =>
      cases valid : uop.valid with
      | true =>
          rw [List.filter_cons_of_pos valid]
          exact induction (rat.retireUop uop)
      | false =>
          rw [List.filter_cons_of_neg (by simp [valid]), induction rat]
          change _ = (rat.retireUop uop).retireEach rest
          rw [retireUop_invalid rat valid]

/-- The valid uops come out as if the others had not been there. -/
theorem renameEach_filter (uops : List MicroOp) (rat : Rat) :
    rat.renameEach (uops.filter MicroOp.valid) =
      ((rat.renameEach uops).1,
        (rat.renameEach uops).2.filter MicroOp.valid) := by
  induction uops generalizing rat with
  | nil => rfl
  | cons uop rest induction =>
      cases valid : uop.valid with
      | true =>
          have out : (rat.renameUop uop).2.valid = true := valid
          rw [List.filter_cons_of_pos valid, renameEach,
            induction (rat.renameUop uop).1, renameEach,
            List.filter_cons_of_pos out]
      | false =>
          have skip := renameUop_invalid rat valid
          have out : ¬ (uop.withRenamed noRename).valid = true := by
            change ¬ uop.valid = true
            simp [valid]
          rw [List.filter_cons_of_neg (by simp [valid]), induction rat,
            renameEach, skip, List.filter_cons_of_neg out]

/-! ## The lanes of a group -/

theorem renameEach_table (uops : List MicroOp) (rat : Rat) :
    (rat.renameEach uops).1 =
      (uops.map MicroOp.renamePort).foldl renameOne rat := by
  induction uops generalizing rat with
  | nil => rfl
  | cons uop rest induction => exact induction (rat.renameUop uop).1

theorem length_renameEach (uops : List MicroOp) (rat : Rat) :
    (rat.renameEach uops).2.length = uops.length := by
  induction uops generalizing rat with
  | nil => rfl
  | cons uop rest induction =>
      simp [renameEach, induction (rat.renameUop uop).1]

theorem getElem_renameEach (uops : List MicroOp) (rat : Rat) (i : Nat)
    (here : i < uops.length) :
    (rat.renameEach uops).2[i]? =
      some (((rat.renameEach (uops.take i)).1.renameUop uops[i]).2) := by
  induction uops generalizing rat i with
  | nil => exact absurd here (Nat.not_lt_zero i)
  | cons uop rest induction =>
      cases i with
      | zero => rfl
      | succ i =>
          have later := induction (rat.renameUop uop).1 i
            (Nat.lt_of_succ_lt_succ here)
          simpa [renameEach] using later

theorem ofFn_renamed (rat : Rat) (uopIn : Fin 4 → MicroOp)
    (uopOut : Fin 4 → MicroOp)
    (lanes : ∀ i, uopOut i = (uopIn i).withRenamed
      ((before rat (fun i => (uopIn i).renamePort) i.val).answer
        (uopIn i).renamePort)) :
    List.ofFn uopOut = (rat.renameEach (List.ofFn uopIn)).2 := by
  apply List.ext_getElem?
  intro i
  by_cases here : i < 4
  · have within : i < (List.ofFn uopIn).length := by
      rwa [List.length_ofFn]
    have ports := List.map_ofFn (f := uopIn) (g := MicroOp.renamePort)
    rw [getElem_renameEach _ rat i within, List.getElem?_ofFn, dif_pos here,
      lanes ⟨i, here⟩, renameEach_table, List.getElem_ofFn, List.map_take,
      ports]
    rfl
  · rw [List.getElem?_eq_none (by rw [List.length_ofFn]; omega),
      List.getElem?_eq_none
        (by rw [length_renameEach, List.length_ofFn]; omega)]

/-- As many free registers as requests are enough for every single rename. -/
theorem findsFree_of_enough (uops : List MicroOp) (rat : Rat)
    (enough : uops.countP (fun uop => uop.renamePort.rdValid) ≤
      (free rat).length) :
    rat.FindsFree uops := by
  induction uops generalizing rat with
  | nil => trivial
  | cons uop rest induction =>
      rw [List.countP_cons] at enough
      have left : free (rat.renameUop uop).1 =
          (free rat).drop (if uop.renamePort.rdValid then 1 else 0) :=
        renameOne_free rat uop.renamePort
      constructor
      · intro requests none
        rw [none, if_pos requests] at enough
        exact absurd enough (by simp)
      · apply induction
        rw [left, List.length_drop]
        omega

/-! ## The cycle -/

section Cycle

variable (rat : Rat) (uopRetire : Fin 6 → MicroOp) (uopIn : Fin 4 → MicroOp)

theorem retired_each :
    MappingTable.retired rat (fun i => (uopRetire i).retirePort) =
      rat.retireEach (validUops uopRetire) := by
  have lanes := List.map_ofFn (f := uopRetire) (g := MicroOp.retirePort)
  rw [Function.comp_def] at lanes
  rw [MappingTable.retired, ← lanes, List.foldl_map, validUops,
    retireEach_filter]
  rfl

theorem requests_valid :
    requests (fun i => (uopIn i).renamePort) 4 =
      (validUops uopIn).countP (fun uop => uop.renamePort.rdValid) := by
  have ports := List.map_ofFn (f := uopIn) (g := MicroOp.renamePort)
  rw [Function.comp_def] at ports
  have valid : ∀ uop : MicroOp, (uop.renamePort.rdValid = true) ↔
      (uop.renamePort.rdValid && uop.valid) = true := by
    intro uop
    cases validity : uop.valid <;> simp [MicroOp.renamePort, validity]
  rw [requests, List.take_of_length_le (by simp), ← ports, List.countP_map,
    validUops, List.countP_filter]
  exact List.countP_congr fun uop _ => valid uop

/-- An accepted group is renamed as if its valid uops came one by one after
the valid retirements, each taking the lowest-numbered free register, of which
there is one as long as the counter counts them; of a refused group nothing
remains but the retirements. -/
theorem renames_one_by_one :
    (rat.allocatable uopRetire uopIn = true →
      (rat.next false false uopRetire uopIn,
          validUops (rat.uopOut false uopRetire uopIn)) =
        (rat.retireEach (validUops uopRetire)).renameEach (validUops uopIn) ∧
      (∀ i, (rat.uopOut false uopRetire uopIn i).valid = (uopIn i).valid ∧
        ((uopIn i).valid = false →
          rat.uopOut false uopRetire uopIn i =
            (uopIn i).withRenamed noRename)) ∧
      (Counted (rat.retireEach (validUops uopRetire)) →
        (rat.retireEach (validUops uopRetire)).FindsFree
          (validUops uopIn))) ∧
    (rat.allocatable uopRetire uopIn = false →
      rat.next false false uopRetire uopIn =
        rat.retireEach (validUops uopRetire) ∧
      rat.uopOut false uopRetire uopIn = noUops) := by
  rw [← retired_each]
  constructor
  · intro accepted
    obtain ⟨table, answers⟩ := comb_accepted rat
      (fun i => (uopRetire i).retirePort) (fun i => (uopIn i).renamePort)
      accepted
    have lanes : ∀ i, rat.uopOut false uopRetire uopIn i =
        (uopIn i).withRenamed (((MappingTable.retired rat
          fun i => (uopRetire i).retirePort).before
            (fun i => (uopIn i).renamePort) i.val).answer
              (uopIn i).renamePort) := by
      intro i
      simp only [uopOut, accepted, if_true, Bool.false_eq_true, if_false]
      exact congrArg (uopIn i).withRenamed (answers i)
    refine ⟨?_, ?_, ?_⟩
    · have out := ofFn_renamed _ uopIn _ lanes
      have ports := List.map_ofFn (f := uopIn) (g := MicroOp.renamePort)
      have next : rat.next false false uopRetire uopIn =
          (Rat.renameEach (MappingTable.retired rat
            fun i => (uopRetire i).retirePort) (List.ofFn uopIn)).1 := by
        rw [renameEach_table, ports]
        exact table
      rw [next, validUops, out, validUops, renameEach_filter]
    · intro i
      rw [lanes i]
      refine ⟨rfl, ?_⟩
      intro invalid
      simp [MicroOp.renamePort, invalid, answer, noRename]
    · intro counted
      apply findsFree_of_enough
      rw [← requests_valid]
      exact (MappingTable.comb_allocatable _ _ _ counted).mp accepted
  · intro refused
    refine ⟨?_, ?_⟩
    · exact (comb_refused rat _ _ refused).1
    · simp [uopOut, refused]
      rfl

end Cycle

/-- Three writes of `x1`, with an empty lane behind the first, right after
reset. -/
theorem renames_one_by_one_reset :
    let group : Fin 4 → MicroOp := fun i =>
      { (0 : MicroOp) with
        valid := i != 1, rdValid := true, rdArfIntIndex := 1
        rs1ArfIntIndex := 1 }
    (Rat.next .resetState false false noUops group,
        validUops (Rat.uopOut .resetState false noUops group)) =
      (Rat.retireEach .resetState
        (validUops (noUops : Fin 6 → MicroOp))).renameEach
          (validUops group) :=
  ((renames_one_by_one .resetState noUops _).1 (by decide)).1

end Rat

end Ria
