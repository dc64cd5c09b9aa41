import Ria.Backend.StageFlow
import Ria.Core.Squash

/-!
# The uops in flight in the back end

What the back end holds after a cycle it held before, or it was dispatched in
the cycle.  No uop is there twice, and none is changed except in its outcome.
-/

namespace Ria

open Hdl

namespace BackEnd

variable {backEnd : BackEnd} {input : BackEndInput}

/-- The uops that have not been executed. -/
def unexecuted (backEnd : BackEnd) : Multiset MicroOp :=
  backEnd.unissued + uopsOf backEnd.rfIntUopIn + uopsOf backEnd.exUopIn

/-- The uops from dispatch to write-back -/
def inFlight (backEnd : BackEnd) : Multiset MicroOp :=
  backEnd.unexecuted + uopsOf backEnd.exUopOut

theorem inFlight_of_flush (flush : (input.reset || input.clear) = true) :
    (backEnd.next input).inFlight = 0 := by
  have rf : (backEnd.next input).rfIntUopIn = noUops := if_pos flush
  have ex : (backEnd.next input).exUopIn = noUops := if_pos flush
  rw [inFlight, unexecuted, unissued_of_flush flush, rf, ex,
    exUopOut_of_flush flush, uopsOf_noUops]
  rfl

/-- Decode emits nothing for way 2. -/
theorem isUopOut_way2_of_emitted
    (emitted : ∀ k, (backEnd.iqInt.slots k).Emitted) :
    (backEnd.isUopOut input 2).valid = false := by
  change (backEnd.iqInt.uopOut (backEnd.intBusy input) 2).valid = false
  unfold IssueQueueInt.uopOut
  cases chosen : backEnd.iqInt.outputSel (backEnd.intBusy input) 2 with
  | none => rfl
  | some k =>
      have picked : select (backEnd.iqInt.readyImulIdiv
          (backEnd.intBusy input)) 0 = some k := chosen
      have kind := (Bool.and_eq_true_iff.mp (ready_of_select picked)).2
      have code := emitted k
      rcases Bool.or_eq_true_iff.mp kind with imul | idiv
      · exact absurd (by simp [eq_of_beq imul]) code
      · exact absurd (by simp [eq_of_beq idiv]) code

section Cycle

variable (flowing : Flowing backEnd) (reset : input.reset = false)
  (clear : input.clear = false) (dataValid : input.dcacheDataValid = true)

include flowing reset clear dataValid

theorem executed_next {way : Fin 4}
    (valid : ((backEnd.next input).exUopOut way).valid = true) :
    (backEnd.exUopIn way).valid = true ∧
      ((backEnd.next input).exUopOut way).unresolved =
        (backEnd.exUopIn way).unresolved := by
  rcases flowing.exUopOut_next reset clear dataValid way with idle | same
  · rw [idle] at valid
    cases valid
  · have agree := MicroOp.agree same MicroOp.valid fun _ => rfl
    exact ⟨agree ▸ valid, same⟩

theorem keys_next {α : Type} {key : MicroOp → α}
    (blind : ∀ uop, key uop.unresolved = key uop) :
    (backEnd.next input).inFlight.map key ≤
      backEnd.unexecuted.map key + (uopsOf input.dpUopsIn).map key := by
  rcases flowing.fed with ⟨uops, fed⟩
  have running : ¬ (input.reset || input.clear) = true := by
    rw [reset, clear]
    exact Bool.false_ne_true
  have rf : (backEnd.next input).rfIntUopIn = backEnd.isUopOut input :=
    if_neg running
  have ex : (backEnd.next input).exUopIn = backEnd.rfIntUopIn :=
    if_neg running
  have issued := Multiset.map_le_map (f := key)
    (flow_unissued fed reset clear)
  have executed : (uopsOf (backEnd.next input).exUopOut).map key ≤
      (uopsOf backEnd.exUopIn).map key := by
    refine keys_le fun way valid => ?_
    rcases executed_next flowing reset clear dataValid valid with
      ⟨before, same⟩
    exact ⟨before, MicroOp.agree same key blind⟩
  rw [inFlight, unexecuted, rf, ex, unexecuted]
  simp only [Multiset.map_add] at issued ⊢
  refine (add_le_add (add_le_add issued (le_refl _)) executed).trans
    (le_of_eq ?_)
  ac_rfl

theorem mem_inFlight_next {uop : MicroOp}
    (member : uop ∈ (backEnd.next input).inFlight) :
    (∃ before ∈ backEnd.unexecuted, uop.unresolved = before.unresolved) ∨
      ∃ i, (input.dpUopsIn i).valid = true ∧
        uop.unresolved = (input.dpUopsIn i).unresolved := by
  have flow : (backEnd.next input).inFlight.map MicroOp.unresolved ≤
      backEnd.unexecuted.map MicroOp.unresolved +
        (uopsOf input.dpUopsIn).map MicroOp.unresolved :=
    keys_next flowing reset clear dataValid fun _ => rfl
  have known := Multiset.mem_of_le flow
    (Multiset.mem_map_of_mem MicroOp.unresolved member)
  rcases Multiset.mem_add.mp known with old | new
  · rcases Multiset.mem_map.mp old with ⟨before, held, same⟩
    exact .inl ⟨before, held, same.symm⟩
  · rcases Multiset.mem_map.mp new with ⟨dispatched, there, same⟩
    rcases mem_uopsOf.mp there with ⟨i, rfl, valid⟩
    exact .inr ⟨i, valid, same.symm⟩

end Cycle

end BackEnd

end Ria
