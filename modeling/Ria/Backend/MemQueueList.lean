import Ria.Backend.Dispatch
import Ria.Backend.IssueQueueMem
import Mathlib.Data.List.GetD

/-!
# The memory issue queue as a list

The slots up to the tail hold a list of uops.  A cycle takes one uop out of
the list, at a position that no store precedes, and appends the uops that come
in; the counters are the length of the list and what is missing to 16.
-/

namespace Ria

open Hdl

theorem IssueSlotMem.next_uop (load : Bool) (uopIn uopNew : MicroOp) :
    (IssueSlotMem.next false false load uopIn uopNew).uop =
      if load && uopIn.valid then uopIn else uopNew := by
  unfold IssueSlotMem.next
  cases load && uopIn.valid <;> rfl

namespace IssueQueueMem

/-- The slots hold exactly the given uops, in order. -/
structure Holds (queue : IssueQueueMem) (uops : List MicroOp) : Prop where
  short : uops.length ≤ 16
  valid : ∀ uop ∈ uops, uop.valid = true
  slots : ∀ k : Fin 16, (queue.slots k).uop = uops.getD k.val 0
  tail : queue.tailReg.toNat = uops.length
  free : queue.freeCountReg.toNat + uops.length = 16

theorem holds_resetState : Holds resetState [] := by
  refine ⟨Nat.zero_le _, ?_, fun _ => rfl, rfl, rfl⟩
  intro uop member
  cases member

theorem next_of_flush (queue : IssueQueueMem) (busy : BusyPorts 16)
    (uopIn : Fin 4 → MicroOp) {reset clearEn : Bool} (loadEn : Bool)
    (flush : (reset || clearEn) = true) :
    queue.next busy uopIn reset clearEn loadEn = resetState := by
  simp only [next, IssueSlotMem.next, flush, if_true, resetState]

/-! ## Issue -/

section Issue

variable {queue : IssueQueueMem} {busy : BusyPorts 16}

theorem issue_eq (queue : IssueQueueMem) (busy : BusyPorts 16) :
    queue.issue busy =
      match queue.outputSel busy with
      | some sel => (queue.uopToIssue sel.val, 1)
      | none => (0, 0) := by
  unfold issue clear
  cases queue.outputSel busy with
  | none =>
      refine forEach_idle _ ?_
      intro j issued
      simp
  | some sel =>
      refine (forEach_single _ sel ?_).trans ?_
      · intro j other issued
        simp [other]
      · simp

/-- The selected slot holds a valid uop, and no store up to it, unless it is
the first. -/
theorem outputSel_facts {sel : Fin 16}
    (chosen : queue.outputSel busy = some sel) :
    (queue.slots sel).uop.valid = true ∧
      (sel = 0 ∨ ∀ i ≤ sel, (queue.slots i).uop.memType ≠ .st) := by
  have picked := ready_of_select chosen
  obtain ⟨ready, unmasked⟩ := Bool.and_eq_true_iff.mp picked
  constructor
  · exact (Bool.and_eq_true_iff.mp ready).2
  · cases stores : lowest queue.isStore with
    | none =>
        right
        intro i _
        have noStore := lowest_eq_none.mp stores i
        simpa [isStore] using noStore
    | some first =>
        obtain ⟨-, before⟩ := lowest_eq_some stores
        rw [storeMask, stores] at unmasked
        by_cases zero : first = 0
        · left
          simpa [zero] using unmasked
        · right
          intro i low
          have early : sel < first := by simpa [zero] using unmasked
          have noStore := before i (lt_of_le_of_lt low early)
          simpa [isStore] using noStore

end Issue

/-! ## Load -/

theorem uopInCount_eq (uopIn : Fin 4 → MicroOp) :
    (uopInCount uopIn).toNat = (validUops uopIn).length := by
  rw [← validBefore_lanes]
  exact forEach_count uopIn MicroOp.valid (by decide)

/-- The first `count` lanes have been placed from `base` on. -/
structure Placed (base : Nat) (uops : List MicroOp) (count : Nat)
    (inputs : SlotInputs) : Prop where
  uopToSlot : ∀ k : Fin 16, inputs.uopToSlot k =
    if base ≤ k.val ∧ k.val < base + count then uops.getD (k.val - base) 0
    else 0
  load : ∀ k : Fin 16, inputs.load k =
    decide (base ≤ k.val ∧ k.val < base + count)

theorem slotIndex_eq {queue : IssueQueueMem} {busy : BusyPorts 16}
    {base : Nat} (small : base ≤ 16)
    (based : queue.tailReg.toNat = base + (queue.uopOutCount busy).toNat)
    (i : Fin 4) :
    (queue.slotIndex busy i).toNat = base + i.val := by
  have tailBound := queue.tailReg.isLt
  have outBound := (queue.uopOutCount busy).isLt
  unfold slotIndex
  simp only [BitVec.toNat_sub, BitVec.toNat_add, BitVec.toNat_ofNat,
    BitVec.toNat_setWidth]
  omega

theorem slotInputs_placed (queue : IssueQueueMem) (busy : BusyPorts 16)
    (base : Nat) (uops : List MicroOp) (small : base ≤ 16)
    (based : queue.tailReg.toNat = base + (queue.uopOutCount busy).toNat) :
    Placed base uops 4 (queue.slotInputs busy (packed uops)) := by
  unfold slotInputs
  refine forEach_rule (Placed base uops) ?_ ?_
  · refine ⟨fun k => ?_, fun k => ?_⟩
    · rw [if_neg (by omega)]
    · exact (decide_eq_false (by omega)).symm
  · intro i inputs placed
    have index := slotIndex_eq small based i
    by_cases within : (queue.slotIndex busy i).toNat < 16
    · simp only [dif_pos within]
      refine ⟨fun k => ?_, fun k => ?_⟩
      · by_cases here : k = ⟨_, within⟩
        · subst here
          simp only [index, Function.update_self, packed]
          rw [if_pos (by omega), Nat.add_sub_cancel_left]
        · have other : k.val ≠ base + i.val := fun same =>
            here (Fin.ext (same.trans index.symm))
          change Function.update inputs.uopToSlot _ _ k = _
          rw [Function.update_of_ne here, placed.uopToSlot]
          by_cases earlier : base ≤ k.val ∧ k.val < base + i.val
          · rw [if_pos earlier, if_pos (by omega)]
          · rw [if_neg earlier, if_neg (by omega)]
      · by_cases here : k = ⟨_, within⟩
        · subst here
          simp only [index, Function.update_self]
          exact (decide_eq_true (by omega)).symm
        · have other : k.val ≠ base + i.val := fun same =>
            here (Fin.ext (same.trans index.symm))
          change Function.update inputs.load _ _ k = _
          rw [Function.update_of_ne here, placed.load]
          exact decide_eq_decide.mpr (by omega)
    · simp only [dif_neg within]
      refine ⟨fun k => ?_, fun k => ?_⟩
      · rw [placed.uopToSlot]
        by_cases earlier : base ≤ k.val ∧ k.val < base + i.val
        · rw [if_pos earlier, if_pos (by omega)]
        · rw [if_neg earlier, if_neg (by omega)]
      · rw [placed.load]
        exact decide_eq_decide.mpr (by omega)

/-! ## A cycle -/

/-- The list without the element at the selected position. -/
def removed (uops : List MicroOp) : Option (Fin 16) → List MicroOp
  | none => uops
  | some sel => uops.eraseIdx sel.val

section Cycle

variable {queue : IssueQueueMem} {busy : BusyPorts 16}
  {uops arriving : List MicroOp}

theorem Holds.uopToIssue_eq (holds : Holds queue uops) (index : Nat) :
    queue.uopToIssue index = uops.getD index 0 := by
  unfold uopToIssue
  by_cases within : index < 16
  · rw [dif_pos within]
    exact holds.slots ⟨index, within⟩
  · have short := holds.short
    rw [dif_neg within, List.getD_eq_default _ _ (by omega)]

theorem Holds.sel_lt (holds : Holds queue uops) {sel : Fin 16}
    (chosen : queue.outputSel busy = some sel) : sel.val < uops.length := by
  have valid := (outputSel_facts chosen).1
  by_contra outside
  rw [holds.slots, List.getD_eq_default _ _ (by omega)] at valid
  cases valid

theorem Holds.length_removed (holds : Holds queue uops)
    (busy : BusyPorts 16) :
    (removed uops (queue.outputSel busy)).length +
      (queue.uopOutCount busy).toNat = uops.length := by
  unfold uopOutCount
  rw [issue_eq]
  cases chosen : queue.outputSel busy with
  | none => rfl
  | some sel =>
      have inside := holds.sel_lt chosen
      simp only [removed, List.length_eraseIdx, if_pos inside]
      change uops.length - 1 + 1 = uops.length
      omega

theorem Holds.uopOut_eq (holds : Holds queue uops) :
    queue.uopOut busy =
      match queue.outputSel busy with
      | some sel => uops.getD sel.val 0
      | none => 0 := by
  rw [uopOut, issue_eq]
  cases queue.outputSel busy with
  | none => rfl
  | some sel => exact holds.uopToIssue_eq sel.val

theorem Holds.moved (holds : Holds queue uops) (k : Fin 16) :
    queue.uopToIssue (k.val + queue.compressOffset busy k) =
      (removed uops (queue.outputSel busy)).getD k.val 0 := by
  rw [holds.uopToIssue_eq]
  unfold compressOffset
  cases chosen : queue.outputSel busy with
  | none => rfl
  | some sel =>
      simp only [removed, List.getD_eq_getElem?_getD, List.getElem?_eraseIdx]
      by_cases below : k < sel
      · rw [if_pos below, if_pos (by omega), Nat.add_zero]
      · rw [if_neg below, if_neg (by omega)]

/-- One cycle: remove the selected uop, append those that arrive. -/
theorem Holds.next (holds : Holds queue uops) {loadEn : Bool}
    (valid : ∀ uop ∈ arriving, uop.valid = true)
    (few : arriving.length ≤ 4)
    (room : uops.length + arriving.length ≤ 16)
    (enabled : loadEn = false → arriving = []) :
    Holds (queue.next busy (packed arriving) false false loadEn)
      (removed uops (queue.outputSel busy) ++ arriving) := by
  have length := holds.length_removed busy
  have count : (uopInCount (packed arriving)).toNat = arriving.length := by
    rw [uopInCount_eq, validUops_packed few valid]
  have placed := slotInputs_placed queue busy
    (removed uops (queue.outputSel busy)).length arriving
    (by have short := holds.short; omega) (by rw [holds.tail, length])
  have tailBound := holds.tail
  have freeBound := holds.free
  refine ⟨?_, ?_, ?_, ?_, ?_⟩
  · rw [List.length_append]
    omega
  · intro uop member
    rcases List.mem_append.mp member with old | new
    · refine holds.valid uop ?_
      unfold removed at old
      split at old
      · exact old
      · exact List.mem_of_mem_eraseIdx old
    · exact valid uop new
  · intro k
    change (IssueSlotMem.next false false _ _ _).uop = _
    rw [holds.moved, placed.uopToSlot, placed.load, IssueSlotMem.next_uop]
    generalize removed uops (queue.outputSel busy) = left
    by_cases old : k.val < left.length
    · rw [if_neg, List.getD_append _ _ _ _ old]
      simp [Nat.not_le.mpr old]
    · rw [List.getD_append_right _ _ _ _ (by omega)]
      by_cases new : k.val - left.length < arriving.length
      · have arrives : (arriving.getD (k.val - left.length) 0).valid = true := by
          rw [List.getD_eq_getElem _ _ new]
          exact valid _ (List.getElem_mem new)
        have loads : loadEn = true := by
          cases on : loadEn with
          | true => rfl
          | false =>
              rw [enabled on] at new
              cases new
        have lane : left.length ≤ k.val ∧ k.val < left.length + 4 := by omega
        rw [if_pos lane, loads, arrives, decide_eq_true lane]
        rfl
      · rw [List.getD_eq_default arriving _ (by omega),
          List.getD_eq_default left _ (by omega), ite_self]
        simp
  · change (queue.tail busy (packed arriving)).toNat = _
    rw [IssueQueueMem.tail, BitVec.toNat_sub, BitVec.toNat_add, count,
      List.length_append]
    have outBound := (queue.uopOutCount busy).isLt
    omega
  · change (queue.freeCount busy (packed arriving)).toNat + _ = _
    rw [freeCount, BitVec.toNat_add, BitVec.toNat_sub, count,
      List.length_append]
    have outBound := (queue.uopOutCount busy).isLt
    omega

end Cycle

end IssueQueueMem

/-! ## The queue behind the DP~IS registers -/

open IssueQueueMem DpIs

/-- The queue holds the given uops, and the registers before it hold bundles
without gaps and never more than it has room for. -/
structure MemFed (dpIs : DpIs) (iqFullReg : Bool) (iqMem : IssueQueueMem)
    (uops : List MicroOp) : Prop where
  holds : iqMem.Holds uops
  outPacked : dpIs.out.2 = packed (memUops dpIs.out)
  tmpPacked : dpIs.tmp.2 = packed (memUops dpIs.tmp)
  opened : iqFullReg = false → 4 ≤ iqMem.freeCountReg.toNat
  silent : iqFullReg = true → memUops dpIs.out = []

namespace MemFed

variable {dpIs : DpIs} {iqFullReg : Bool} {iqMem : IssueQueueMem}
  {uops : List MicroOp}

theorem packed_empty : DpIs.empty.2 = packed (memUops DpIs.empty) := by
  rw [memUops_empty]
  rfl

theorem reset (iqFullReg : Bool) :
    MemFed DpIs.resetState iqFullReg IssueQueueMem.resetState [] := by
  refine ⟨holds_resetState, packed_empty, packed_empty, ?_,
    fun _ => memUops_empty⟩
  intro _
  change 4 ≤ (16 : BitVec 5).toNat
  decide

theorem room (fed : MemFed dpIs iqFullReg iqMem uops) :
    uops.length + (memUops dpIs.out).length ≤ 16 := by
  have free := fed.holds.free
  cases full : iqFullReg with
  | true =>
      rw [fed.silent full]
      simpa using fed.holds.short
  | false =>
      have enough := fed.opened full
      have few : (memUops dpIs.out).length ≤ 4 := length_validUops_le _
      omega

theorem next (fed : MemFed dpIs iqFullReg iqMem uops) (busy : BusyPorts 16)
    (iqIntFull : Bool) (group : Fin 4 → MicroOp) {iqFull : Bool}
    (full : iqFull = (iqMem.iqMemFull busy dpIs.out.2 || iqIntFull)) :
    MemFed (dpIs.next false false iqFull group) iqFull
      (iqMem.next busy dpIs.out.2 false false (!iqFullReg))
      (removed uops (iqMem.outputSel busy) ++ memUops dpIs.out) := by
  have entering : (uopToInt group, uopToMem group).2 =
      packed (memUops (uopToInt group, uopToMem group)) := by
    rw [memUops, uopToMem, validUops_dispatchTo]
    exact dispatchTo_eq_packed .mem group
  obtain ⟨outPacked, tmpPacked⟩ := SkidBuffer.next_all
    (fun bundles => bundles.2 = packed (memUops bundles)) packed_empty
    fed.tmpPacked entering (false || false) iqFull
  refine ⟨?_, outPacked, tmpPacked, ?_, ?_⟩
  · rw [fed.outPacked]
    refine fed.holds.next ?_ (length_validUops_le _) fed.room ?_
    · intro uop member
      exact (mem_validUops.mp member).choose_spec.2
    · intro disabled
      exact fed.silent (by simpa using disabled)
  · intro opened
    rw [full, Bool.or_eq_false_iff] at opened
    have enough := of_decide_eq_false opened.1
    rw [BitVec.lt_def] at enough
    change 4 ≤ (iqMem.freeCount busy dpIs.out.2).toNat
    simpa using enough
  · intro isFull
    rw [isFull]
    change memUops (SkidBuffer.next _ dpIs false true _).out = []
    rw [SkidBuffer.next_out_of_full, memUops_empty]

end MemFed

end Ria
