import Ria.Backend.IssueQueueInt
import Ria.Backend.MemQueueList
import Mathlib.Algebra.BigOperators.Fin
import Mathlib.Algebra.Order.BigOperators.Group.Finset
import Mathlib.Algebra.Order.Group.Multiset

/-!
# The flow of uops through the issue queues

Which uops a register or a queue holds is a multiset; after a cycle it holds at
most what it held or took in before it, less what it sent on.
-/

namespace Ria

open Hdl

/-- What a lane contributes. -/
def MicroOp.single (uop : MicroOp) : Multiset MicroOp :=
  if uop.valid then {uop} else 0

/-- The valid uops of a bundle or an array. -/
def uopsOf {lanes : Nat} (uops : Fin lanes → MicroOp) : Multiset MicroOp :=
  (validUops uops : Multiset MicroOp)

theorem MicroOp.single_of_valid {uop : MicroOp} (valid : uop.valid = true) :
    uop.single = {uop} := if_pos valid

theorem MicroOp.single_zero : (0 : MicroOp).single = 0 := rfl

theorem mem_uopsOf {lanes : Nat} {uops : Fin lanes → MicroOp}
    {uop : MicroOp} :
    uop ∈ uopsOf uops ↔ ∃ i, uops i = uop ∧ uop.valid = true :=
  mem_validUops

theorem uopsOf_eq_sum {lanes : Nat} (uops : Fin lanes → MicroOp) :
    uopsOf uops = ∑ i, (uops i).single := by
  induction lanes with
  | zero => rfl
  | succ lanes induction =>
      have rest := induction fun i => uops i.succ
      rw [Fin.sum_univ_succ, ← rest]
      unfold uopsOf validUops MicroOp.single
      rw [List.ofFn_succ, List.filter_cons]
      by_cases first : (uops 0).valid = true
      · rw [if_pos first, if_pos first, ← Multiset.cons_coe,
          Multiset.singleton_add]
      · rw [if_neg first, if_neg first, Multiset.zero_add]

@[simp] theorem uopsOf_noUops {lanes : Nat} :
    uopsOf (noUops : Fin lanes → MicroOp) = 0 := by
  rw [uopsOf, validUops_noUops]
  rfl

theorem pair_le {lanes : Nat} (uops : Fin lanes → MicroOp)
    {i j : Fin lanes} (different : i ≠ j) :
    (uops i).single + (uops j).single ≤ uopsOf uops := by
  rw [uopsOf_eq_sum,
    ← Finset.sum_pair (f := fun i => (uops i).single) different]
  exact Finset.sum_le_sum_of_subset (Finset.subset_univ _)

/-- Valid uops with different keys are in different lanes, and conversely. -/
theorem lane_eq_of_key {lanes : Nat} {uops : Fin lanes → MicroOp} {α : Type}
    {key : MicroOp → α} (nodup : ((uopsOf uops).map key).Nodup)
    {i j : Fin lanes} (one : (uops i).valid = true)
    (other : (uops j).valid = true) (same : key (uops i) = key (uops j)) :
    i = j := by
  by_contra different
  have twice := Multiset.map_le_map (f := key) (pair_le uops different)
  rw [MicroOp.single_of_valid one, MicroOp.single_of_valid other,
    Multiset.map_add, Multiset.map_singleton, Multiset.map_singleton, same]
    at twice
  exact Multiset.nodup_iff_le.mp nodup _ twice

theorem lane_eq_of_tag {lanes : Nat} {uops : Fin lanes → MicroOp}
    (nodup : ((uopsOf uops).map MicroOp.tag).Nodup) {i j : Fin lanes}
    (one : (uops i).valid = true) (other : (uops j).valid = true)
    (same : (uops i).tag = (uops j).tag) : i = j :=
  lane_eq_of_key nodup one other same

theorem nodup_tags {lanes : Nat} {uops : Fin lanes → MicroOp}
    (injective : Function.Injective fun i => (uops i).tag) :
    ((uopsOf uops).map MicroOp.tag).Nodup := by
  have all : ((List.ofFn uops).map MicroOp.tag).Nodup := by
    rw [List.map_ofFn]
    exact List.nodup_ofFn.mpr injective
  rw [uopsOf, Multiset.map_coe, Multiset.coe_nodup]
  exact (List.filter_sublist.map MicroOp.tag).nodup all

theorem keys_le {lanes : Nat} {one other : Fin lanes → MicroOp} {α : Type}
    {key : MicroOp → α} (lane : ∀ i, (one i).valid = true →
      (other i).valid = true ∧ key (one i) = key (other i)) :
    (uopsOf one).map key ≤ (uopsOf other).map key := by
  have sum : ∀ uops : Fin lanes → MicroOp, (uopsOf uops).map key =
      ∑ i, (uops i).single.map key := by
    intro uops
    rw [uopsOf_eq_sum]
    exact map_sum (Multiset.mapAddMonoidHom key) _ _
  rw [sum, sum]
  refine Finset.sum_le_sum fun i _ => ?_
  by_cases valid : (one i).valid = true
  · obtain ⟨other, same⟩ := lane i valid
    rw [MicroOp.single_of_valid valid, MicroOp.single_of_valid other,
      Multiset.map_singleton, Multiset.map_singleton, same]
  · rw [MicroOp.single, if_neg valid]
    exact Multiset.zero_le _

theorem tags_le {lanes : Nat} {one other : Fin lanes → MicroOp}
    (lane : ∀ i, (one i).valid = true →
      (other i).valid = true ∧ (one i).tag = (other i).tag) :
    (uopsOf one).map MicroOp.tag ≤ (uopsOf other).map MicroOp.tag :=
  keys_le lane

theorem sum_named {size : Nat} (selected : Option (Fin size))
    (part : Fin size → Multiset MicroOp) :
    ∑ k, (if selected = some k then part k else 0) =
      match selected with
      | some k => part k
      | none => 0 := by
  cases selected with
  | none => exact Finset.sum_eq_zero fun k _ => if_neg (by simp)
  | some k =>
      rw [Finset.sum_eq_single k]
      · exact if_pos rfl
      · intro other _ different
        exact if_neg fun same => different (Option.some.inj same).symm
      · intro missing
        exact absurd (Finset.mem_univ k) missing

theorem le_sum_lanes {size : Nat} (part : Fin size → Multiset MicroOp)
    (i : Fin size) : part i ≤ ∑ j, part j :=
  Finset.single_le_sum_of_canonicallyOrdered (Finset.mem_univ i)

/-! ## The integer queue -/

namespace IssueQueueInt

variable {queue : IssueQueueInt} {uopIn : Fin 4 → MicroOp} {loadEn : Bool}
  {busy : BusyPorts 32}

theorem slotInputs_from (queue : IssueQueueInt) (uopIn : Fin 4 → MicroOp)
    {k : Fin 32} (loaded : (queue.slotInputs uopIn).load k = true) :
    ∃ i, queue.inputSelect i = some k ∧
      (queue.slotInputs uopIn).uopToSlot k = uopIn i := by
  revert loaded
  unfold slotInputs
  refine forEach_rule
    (fun _ (inputs : SlotInputs) => inputs.load k = true →
      ∃ i, queue.inputSelect i = some k ∧ inputs.uopToSlot k = uopIn i)
    (fun never => absurd never Bool.false_ne_true) ?_
  intro i inputs sofar
  refine forEach_rule
    (fun _ (inputs : SlotInputs) => inputs.load k = true →
      ∃ i, queue.inputSelect i = some k ∧ inputs.uopToSlot k = uopIn i)
    sofar ?_
  intro j inputs sofar
  by_cases selects : queue.inputSelect i = some j ∧ (uopIn i).valid = true
  · simp only [if_pos selects]
    by_cases here : k = j
    · subst here
      intro _
      exact ⟨i, selects.1, Function.update_self ..⟩
    · rw [Function.update_of_ne here, Function.update_of_ne here]
      exact sofar
  · simp only [if_neg selects]
    exact sofar

theorem load_of_loads {k : Fin 32}
    (loads : queue.loads uopIn loadEn k = true) :
    (queue.slotInputs uopIn).load k = true := by
  unfold IssueQueueInt.loads at loads
  rw [Bool.and_eq_true, Bool.and_eq_true] at loads
  exact loads.1.1

theorem free_of_load {k : Fin 32}
    (loaded : (queue.slotInputs uopIn).load k = true) :
    (queue.slots k).valid = false := by
  obtain ⟨i, selected, -⟩ := slotInputs_from queue uopIn loaded
  have free := ready_of_select selected
  simpa [IssueQueueInt.free] using free

theorem ready_of_outputSel {i : Fin 3} {k : Fin 32}
    (selected : queue.outputSel busy i = some k) :
    queue.ready busy k = true := by
  match i with
  | 0 => exact (Bool.and_eq_true_iff.mp (ready_of_select selected)).1
  | 1 => exact (Bool.and_eq_true_iff.mp (ready_of_select selected)).1
  | 2 => exact (Bool.and_eq_true_iff.mp (ready_of_select selected)).1

theorem outputSel_aluBr {i : Fin 3} {k : Fin 32} (first : i ≠ 2)
    (selected : queue.outputSel busy i = some k) :
    ∃ count, i.val = count ∧
      select (queue.readyAluBr busy) count = some k := by
  match i with
  | 0 => exact ⟨0, rfl, selected⟩
  | 1 => exact ⟨1, rfl, selected⟩
  | 2 => exact absurd rfl first

/-- No slot is issued twice in a cycle. -/
theorem outputSel_injective {i j : Fin 3} {k : Fin 32}
    (one : queue.outputSel busy i = some k)
    (other : queue.outputSel busy j = some k) : i = j := by
  have apart : ∀ {first : Fin 3}, first ≠ 2 →
      queue.outputSel busy first = some k →
      queue.outputSel busy 2 ≠ some k := by
    intro first notLast aluBr imulIdiv
    obtain ⟨count, -, picked⟩ := outputSel_aluBr notLast aluBr
    have lower := (Bool.and_eq_true_iff.mp (ready_of_select picked)).2
    have last : select (queue.readyImulIdiv busy) 0 = some k := imulIdiv
    have upper := (Bool.and_eq_true_iff.mp (ready_of_select last)).2
    revert lower upper
    cases (queue.slots k).fuCode <;> decide
  by_cases iLast : i = 2
  · by_cases jLast : j = 2
    · rw [iLast, jLast]
    · exact absurd (iLast ▸ one) (apart jLast other)
  · by_cases jLast : j = 2
    · exact absurd (jLast ▸ other) (apart iLast one)
    · obtain ⟨first, iCount, iPicked⟩ := outputSel_aluBr iLast one
      obtain ⟨second, jCount, jPicked⟩ := outputSel_aluBr jLast other
      have same := select_injective iPicked jPicked
      exact Fin.ext (by omega)

theorem clear_of_outputSel {i : Fin 3} {k : Fin 32}
    (selected : queue.outputSel busy i = some k) :
    queue.clear busy k = true := by
  unfold clear
  refine forEach_cell (fun clear : Fin 32 → Bool => clear k)
    (fun i => queue.outputSel busy i = some k) _ ?_ ?_ selected
  · intro i chosen clear
    simp only [chosen, Function.update_self]
  · intro i idle clear
    cases chosen : queue.outputSel busy i with
    | none => rfl
    | some other =>
        have different : k ≠ other := fun same =>
          idle (same ▸ chosen)
        simp only [Function.update_of_ne different]

theorem outputSel_of_clear {k : Fin 32} (cleared : queue.clear busy k = true) :
    ∃ i, queue.outputSel busy i = some k := by
  by_contra nobody
  have kept : queue.clear busy k = false := by
    refine forEach_frame (fun clear : Fin 32 → Bool => clear k) _ ?_
    intro i clear
    cases chosen : queue.outputSel busy i with
    | none => rfl
    | some other =>
        have different : k ≠ other := fun same =>
          nobody ⟨i, same ▸ chosen⟩
        simp only [Function.update_of_ne different]
  rw [kept] at cleared
  cases cleared

theorem single_uopOut (queue : IssueQueueInt) (busy : BusyPorts 32)
    (i : Fin 3) :
    (queue.uopOut busy i).single =
      ∑ k, if queue.outputSel busy i = some k then (queue.slots k).single
        else 0 := by
  rw [sum_named, uopOut]
  cases queue.outputSel busy i <;> rfl

theorem issued_eq_cleared (queue : IssueQueueInt) (busy : BusyPorts 32) :
    uopsOf (queue.uopOut busy) =
      ∑ k, if queue.clear busy k then (queue.slots k).single else 0 := by
  rw [uopsOf_eq_sum]
  simp only [single_uopOut]
  rw [Finset.sum_comm]
  refine Finset.sum_congr rfl ?_
  intro k _
  by_cases cleared : queue.clear busy k = true
  · obtain ⟨i, selected⟩ := outputSel_of_clear cleared
    rw [if_pos cleared, Finset.sum_eq_single i]
    · exact if_pos selected
    · intro j _ different
      exact if_neg fun other => different (outputSel_injective other selected)
    · intro missing
      exact absurd (Finset.mem_univ i) missing
  · rw [if_neg cleared]
    exact Finset.sum_eq_zero fun i _ =>
      if_neg fun selected => cleared (clear_of_outputSel selected)

theorem loaded_le (k : Fin 32) :
    (if queue.loads uopIn loadEn k then
        ((queue.slotInputs uopIn).uopToSlot k).single else 0) ≤
      ∑ i, if queue.inputSelect i = some k then (uopIn i).single else 0 := by
  by_cases loads : queue.loads uopIn loadEn k = true
  · obtain ⟨i, selected, same⟩ :=
      slotInputs_from queue uopIn (load_of_loads loads)
    have bound := le_sum_lanes (fun i =>
      if queue.inputSelect i = some k then (uopIn i).single else 0) i
    simp only [if_pos selected] at bound
    rw [if_pos loads, same]
    exact bound
  · rw [if_neg loads]
    exact Multiset.zero_le _

/-- One cycle of the integer queue. -/
theorem flow (queue : IssueQueueInt) (uopIn : Fin 4 → MicroOp)
    (loadEn : Bool) (busy : BusyPorts 32) :
    uopsOf (queue.next uopIn loadEn busy false false).slots +
        uopsOf (queue.uopOut busy) ≤
      uopsOf queue.slots + uopsOf uopIn := by
  have slot : ∀ k,
      ((queue.next uopIn loadEn busy false false).slots k).single +
          (if queue.clear busy k then (queue.slots k).single else 0) ≤
        (queue.slots k).single +
          (if queue.loads uopIn loadEn k then
            ((queue.slotInputs uopIn).uopToSlot k).single else 0) := by
    intro k
    simp only [next, Bool.false_or, Bool.or_false]
    by_cases cleared : queue.clear busy k = true
    · rw [if_pos cleared, if_pos cleared, MicroOp.single_zero,
        Multiset.zero_add]
      exact Multiset.le_add_right _ _
    · by_cases loads : queue.loads uopIn loadEn k = true
      · rw [if_neg cleared, if_pos loads, if_neg cleared, if_pos loads,
          Multiset.add_zero]
        exact Multiset.le_add_left _ _
      · rw [if_neg cleared, if_neg loads, if_neg cleared, if_neg loads]
  have lanes : ∑ k, ∑ i, (if queue.inputSelect i = some k then
      (uopIn i).single else 0) ≤ ∑ i, (uopIn i).single := by
    rw [Finset.sum_comm]
    refine Finset.sum_le_sum ?_
    intro i _
    rw [sum_named]
    cases queue.inputSelect i with
    | none => exact Multiset.zero_le _
    | some k => exact le_refl _
  rw [issued_eq_cleared, uopsOf_eq_sum, uopsOf_eq_sum, uopsOf_eq_sum,
    ← Finset.sum_add_distrib]
  refine (Finset.sum_le_sum fun k _ => slot k).trans ?_
  rw [Finset.sum_add_distrib]
  refine add_le_add (le_refl _) ?_
  exact (Finset.sum_le_sum fun k _ => loaded_le k).trans lanes

end IssueQueueInt

/-! ## The memory queue -/

theorem IssueSlotMem.next_holding (reset clear load : Bool)
    (uopIn uopNew : MicroOp) :
    ∃ uop isNew, IssueSlotMem.next reset clear load uopIn uopNew =
      holding uop isNew := by
  unfold IssueSlotMem.next
  cases reset || clear with
  | true => exact ⟨0, false, rfl⟩
  | false =>
      cases load && uopIn.valid with
      | true => exact ⟨uopIn, true, rfl⟩
      | false => exact ⟨uopNew, false, rfl⟩

namespace IssueQueueMem

variable {queue : IssueQueueMem} {uops : List MicroOp}

/-- The uops in the slots. -/
def slotUops (queue : IssueQueueMem) : Multiset MicroOp :=
  uopsOf fun k => (queue.slots k).uop

theorem Holds.slotUops_eq (holds : Holds queue uops) :
    queue.slotUops = (uops : Multiset MicroOp) := by
  have slots : (fun k => (queue.slots k).uop) = packed uops :=
    funext holds.slots
  rw [slotUops, slots, uopsOf, validUops_packed holds.short holds.valid]

theorem Holds.removed_add (holds : Holds queue uops) (busy : BusyPorts 16) :
    (removed uops (queue.outputSel busy) : Multiset MicroOp) +
      (queue.uopOut busy).single = (uops : Multiset MicroOp) := by
  rw [holds.uopOut_eq]
  cases chosen : queue.outputSel busy with
  | none => exact Multiset.add_zero _
  | some sel =>
      have inside := holds.sel_lt chosen
      simp only [removed]
      rw [List.getD_eq_getElem _ _ inside,
        MicroOp.single_of_valid (holds.valid _ (List.getElem_mem inside)),
        Multiset.add_comm, Multiset.singleton_add, Multiset.cons_coe]
      exact Multiset.coe_eq_coe.mpr (List.getElem_cons_eraseIdx_perm inside)

end IssueQueueMem

/-! ## Dispatch -/

namespace DpIs

/-- The uops of a value of the DP~IS registers. -/
def uops (bundles : (Fin 4 → MicroOp) × (Fin 4 → MicroOp)) :
    Multiset MicroOp :=
  uopsOf bundles.1 + uopsOf bundles.2

/-- The uops in the registers. -/
def heldUops (dpIs : DpIs) : Multiset MicroOp :=
  uops dpIs.out + uops dpIs.tmp

theorem uops_empty : uops empty = 0 := by
  rw [uops, empty, uopsOf_noUops, Multiset.add_zero]

theorem uops_dispatch_le (group : Fin 4 → MicroOp) :
    uops (uopToInt group, uopToMem group) ≤ uopsOf group := by
  have parts : ∀ code, uopsOf (dispatchTo code group) =
      (uopsOf group).filter (fun uop => uop.iqCode = code) := by
    intro code
    rw [uopsOf, uopsOf, validUops_dispatchTo, dispatched, Multiset.filter_coe]
    simp only [beq_eq_decide]
  change uopsOf (dispatchTo .int group) + uopsOf (dispatchTo .mem group) ≤ _
  rw [parts, parts]
  have rest : (uopsOf group).filter (fun uop => uop.iqCode = .mem) ≤
      (uopsOf group).filter (fun uop => ¬ uop.iqCode = .int) :=
    Multiset.monotone_filter_right _ fun uop same => by simp [same]
  refine (add_le_add (le_refl _) rest).trans (le_of_eq ?_)
  exact Multiset.filter_add_not _ _

theorem flow (dpIs : DpIs) (iqFull : Bool) (group : Fin 4 → MicroOp) :
    heldUops (dpIs.next false false iqFull group) ≤
      uops dpIs.tmp + uopsOf group := by
  have entering := uops_dispatch_le group
  refine le_trans ?_ (add_le_add (le_refl _) entering)
  unfold heldUops DpIs.next SkidBuffer.next
  cases iqFull with
  | true =>
      cases dpIs.stallPrev with
      | true =>
          simp only [Bool.or_self, Bool.false_eq_true, if_false, Bool.not_true,
            Bool.and_false, if_true, uops_empty, Multiset.zero_add]
          exact Multiset.le_add_right _ _
      | false =>
          simp only [Bool.or_self, Bool.false_eq_true, if_false, Bool.not_false,
            Bool.and_self, if_true, uops_empty, Multiset.zero_add]
          exact Multiset.le_add_left _ _
  | false =>
      cases dpIs.stallPrev with
      | true =>
          simp only [Bool.or_self, Bool.false_eq_true, if_false, Bool.not_true,
            Bool.not_false, Bool.and_self, if_true, uops_empty,
            Multiset.add_zero]
          exact Multiset.le_add_right _ _
      | false =>
          simp only [Bool.or_self, Bool.false_eq_true, if_false, Bool.not_false,
            Bool.and_true]
          exact le_of_eq (Multiset.add_comm _ _)

end DpIs

end Ria
