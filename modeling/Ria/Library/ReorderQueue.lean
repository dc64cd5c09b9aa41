import Mathlib.Data.List.GetD
import Mathlib.Data.List.Perm.Basic
import Mathlib.Data.List.Range

/-!
# Queues that issue out of order

Arrivals are numbered; `waiting` are the numbers not yet issued, oldest first,
and `issued` those issued, in the order of their issue.  If an element is only
issued past older ones that `mayPass` allows, every other pair is issued in
order of arrival.
-/

namespace Hdl

structure ReorderQueue where
  arrived : Nat
  waiting : List Nat
  issued : List Nat

namespace ReorderQueue

def empty : ReorderQueue :=
  { arrived := 0, waiting := [], issued := [] }

/-- Issue the element at a position of the queue. -/
def issue (queue : ReorderQueue) : Option Nat → ReorderQueue
  | none => queue
  | some position =>
      { queue with
        waiting := queue.waiting.eraseIdx position
        issued := queue.issued ++ [queue.waiting.getD position 0] }

/-- Let `count` elements arrive. -/
def arrive (queue : ReorderQueue) (count : Nat) : ReorderQueue :=
  { queue with
    arrived := queue.arrived + count
    waiting := queue.waiting ++ List.range' queue.arrived count }

/-- Each arrival is either waiting, oldest first, or issued, once, and only
past older ones that it may pass. -/
structure Ordered (mayPass : Nat → Nat → Prop) (queue : ReorderQueue) :
    Prop where
  oldestFirst : queue.waiting.Pairwise (· < ·)
  once : (queue.issued ++ queue.waiting).Perm (List.range queue.arrived)
  inOrder : ∀ before younger after,
    queue.issued = before ++ younger :: after →
    ∀ older < younger, ¬ mayPass older younger → older ∈ before

section

variable {mayPass : Nat → Nat → Prop} {queue : ReorderQueue}

theorem ordered_empty : Ordered mayPass empty := by
  refine ⟨.nil, .refl _, ?_⟩
  intro before younger after split
  simp [empty] at split

theorem Ordered.arrived_of_waiting (ordered : Ordered mayPass queue)
    {number : Nat} (member : number ∈ queue.waiting) :
    number < queue.arrived :=
  List.mem_range.mp
    (ordered.once.mem_iff.mp (List.mem_append_right _ member))

theorem Ordered.arrived_of_issued (ordered : Ordered mayPass queue)
    {number : Nat} (member : number ∈ queue.issued) :
    number < queue.arrived :=
  List.mem_range.mp
    (ordered.once.mem_iff.mp (List.mem_append_left _ member))

theorem Ordered.congr {mayPass' : Nat → Nat → Prop}
    (ordered : Ordered mayPass queue)
    (same : ∀ older younger, older < younger → younger < queue.arrived →
      (mayPass older younger ↔ mayPass' older younger)) :
    Ordered mayPass' queue := by
  refine ⟨ordered.oldestFirst, ordered.once, ?_⟩
  intro before younger after split older lower blocked
  have member : younger ∈ queue.issued := by
    rw [split]
    exact List.mem_append_right _ List.mem_cons_self
  have arrived := ordered.arrived_of_issued member
  exact ordered.inOrder before younger after split older lower
    (fun passes => blocked ((same older younger lower arrived).mp passes))

theorem Ordered.arrive (ordered : Ordered mayPass queue) (count : Nat) :
    Ordered mayPass (queue.arrive count) := by
  refine ⟨?_, ?_, ordered.inOrder⟩
  · refine List.pairwise_append.mpr
      ⟨ordered.oldestFirst, List.pairwise_lt_range', ?_⟩
    intro old member new arrival
    have before := ordered.arrived_of_waiting member
    have after := (List.mem_range'_1.mp arrival).1
    omega
  · have split : List.range (queue.arrived + count) =
        List.range queue.arrived ++ List.range' queue.arrived count := by
      rw [List.range_eq_range', List.range_eq_range', ← List.range'_append_1,
        Nat.zero_add]
    change (queue.issued ++ (queue.waiting ++ _)).Perm
      (List.range (queue.arrived + count))
    rw [split, ← List.append_assoc]
    exact ordered.once.append_right _

/-- An element may be issued when it may pass all those before it. -/
theorem Ordered.issue (ordered : Ordered mayPass queue) {position : Nat}
    (inside : position < queue.waiting.length)
    (passes : ∀ earlier < position,
      mayPass (queue.waiting.getD earlier 0)
        (queue.waiting.getD position 0)) :
    Ordered mayPass (queue.issue (some position)) := by
  have chosen : queue.waiting.getD position 0 = queue.waiting[position] :=
    List.getD_eq_getElem _ _ inside
  refine ⟨?_, ?_, ?_⟩
  · exact ordered.oldestFirst.sublist (List.eraseIdx_sublist _ _)
  · refine List.Perm.trans ?_ ordered.once
    change ((queue.issued ++ [_]) ++ _).Perm _
    rw [List.append_assoc, chosen]
    refine List.Perm.append_left _ ?_
    exact List.getElem_cons_eraseIdx_perm inside
  · intro before younger after split older lower blocked
    change queue.issued ++ [_] = _ at split
    rcases List.eq_nil_or_concat after with rfl | ⟨rest, last, rfl⟩
    · obtain ⟨same, equal⟩ := List.append_inj' split rfl
      obtain rfl := List.head_eq_of_cons_eq equal
      -- an older one that is still waiting stands before it in the queue
      have arrived : older < queue.arrived := by
        have youngerArrived := ordered.arrived_of_waiting
          (List.getElem_mem inside)
        rw [chosen] at lower
        omega
      have somewhere := ordered.once.mem_iff.mpr (List.mem_range.mpr arrived)
      rcases List.mem_append.mp somewhere with issued | waiting
      · rw [← same]
        exact issued
      · obtain ⟨earlier, earlierInside, rfl⟩ := List.getElem_of_mem waiting
        refine absurd ?_ blocked
        have earlierBefore : earlier < position := by
          by_contra later
          rcases Nat.lt_or_eq_of_le (Nat.le_of_not_lt later) with after | rfl
          · have sorted := List.pairwise_iff_getElem.mp ordered.oldestFirst
              position earlier inside earlierInside after
            rw [chosen] at lower
            omega
          · rw [chosen] at lower
            exact absurd lower (lt_irrefl _)
        have old := passes earlier earlierBefore
        rwa [List.getD_eq_getElem _ _ earlierInside] at old
    · have earlier : queue.issued = before ++ younger :: rest := by
        have pieces : before ++ younger :: (rest ++ [last]) =
            (before ++ younger :: rest) ++ [last] := by simp
        rw [List.concat_eq_append, pieces] at split
        exact (List.append_inj' split rfl).1
      exact ordered.inOrder before younger rest earlier older lower blocked

end

end ReorderQueue

end Hdl
