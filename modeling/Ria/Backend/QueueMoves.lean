import Ria.Backend.UopFlow
import Ria.Library.Relocation

/-!
# Where the uops of an issue queue go

In one cycle of an issue queue each uop in a slot stays, moves down or is put
out, and each uop that comes in gets a slot.  No two of them end in one place.
-/

namespace Ria

open Hdl

/-- The number of slots without a valid uop. -/
def freeSlots {size : Nat} (slots : Fin size → MicroOp) : Nat :=
  (List.ofFn slots).countP fun uop => !uop.valid

theorem freeSlots_add {size : Nat} (slots : Fin size → MicroOp) :
    freeSlots slots + (uopsOf slots).card = size := by
  have all := List.length_eq_countP_add_countP MicroOp.valid
    (l := List.ofFn slots)
  rw [List.length_ofFn] at all
  have held : (uopsOf slots).card = (List.ofFn slots).countP MicroOp.valid := by
    rw [uopsOf, Multiset.coe_card, validUops, List.countP_eq_length_filter]
  have free : freeSlots slots =
      (List.ofFn slots).countP fun uop => ¬ uop.valid = true := by
    simp [freeSlots]
  omega

/-- Where the uops in the slots and the incoming ones go: to a slot or to a
way of `uop_out`.  A uop that keeps a slot changes it only as `shifts` says. -/
structure Moves {size ways : Nat} (shifts : Fin size → Fin size → Prop)
    (slots : Fin size → MicroOp) (uopIn : Fin 4 → MicroOp)
    (next : Fin size → MicroOp) (uopOut : Fin ways → MicroOp)
    (move : Fin size ⊕ Fin 4 → Fin size ⊕ Fin ways) : Prop where
  relocates : Relocates (fun uop : MicroOp => uop.valid = true)
    (Sum.elim slots uopIn) (Sum.elim next uopOut) move
  enters : ∀ lane, (uopIn lane).valid = true →
    ∃ slot, move (.inr lane) = .inl slot
  keeps : ∀ slot slot', (slots slot).valid = true →
    move (.inl slot) = .inl slot' → shifts slot slot'

theorem Moves.balance {size ways : Nat} {shifts : Fin size → Fin size → Prop}
    {slots : Fin size → MicroOp} {uopIn : Fin 4 → MicroOp}
    {next : Fin size → MicroOp} {uopOut : Fin ways → MicroOp}
    {move : Fin size ⊕ Fin 4 → Fin size ⊕ Fin ways}
    (moves : Moves shifts slots uopIn next uopOut move) :
    uopsOf slots + uopsOf uopIn = uopsOf next + uopsOf uopOut := by
  have sum := moves.relocates.sum_eq MicroOp.single
    fun uop invalid => if_neg invalid
  simp only [Fintype.sum_sum_type, Sum.elim_inl, Sum.elim_inr] at sum
  rw [uopsOf_eq_sum, uopsOf_eq_sum, uopsOf_eq_sum, uopsOf_eq_sum, sum]

/-! ## The integer queue -/

namespace IssueQueueInt

variable {queue : IssueQueueInt} {uopIn : Fin 4 → MicroOp} {loadEn : Bool}
  {busy : BusyPorts 32}

/-- The way on which a slot is put out. -/
def issuedOn (queue : IssueQueueInt) (busy : BusyPorts 32) (k : Fin 32) :
    Option (Fin 3) :=
  (List.finRange 3).find? fun way => queue.outputSel busy way == some k

def move (queue : IssueQueueInt) (busy : BusyPorts 32) :
    Fin 32 ⊕ Fin 4 → Fin 32 ⊕ Fin 3
  | .inl k =>
      match queue.issuedOn busy k with
      | some way => .inr way
      | none => .inl k
  | .inr lane => .inl ((queue.inputSelect lane).getD 0)

theorem outputSel_of_issuedOn {k : Fin 32} {way : Fin 3}
    (issued : queue.issuedOn busy k = some way) :
    queue.outputSel busy way = some k := by
  simpa using List.find?_some issued

theorem issuedOn_of_outputSel {k : Fin 32} {way : Fin 3}
    (selected : queue.outputSel busy way = some k) :
    queue.issuedOn busy k = some way := by
  cases issued : queue.issuedOn busy k with
  | none =>
      have missed := List.find?_eq_none.mp issued way (List.mem_finRange way)
      exact absurd (by simpa using selected) missed
  | some other =>
      rw [outputSel_injective (outputSel_of_issuedOn issued) selected]

theorem move_of_issued {k : Fin 32} {way : Fin 3}
    (issued : queue.issuedOn busy k = some way) :
    queue.move busy (.inl k) = .inr way := by
  simp only [move, issued]

theorem move_of_kept {k : Fin 32} (kept : queue.issuedOn busy k = none) :
    queue.move busy (.inl k) = .inl k := by
  simp only [move, kept]

theorem move_lane {lane : Fin 4} {k : Fin 32}
    (selected : queue.inputSelect lane = some k) :
    queue.move busy (.inr lane) = .inl k := by
  simp only [move, selected, Option.getD_some]

theorem clear_iff_issuedOn (k : Fin 32) :
    queue.clear busy k = true ↔ (queue.issuedOn busy k).isSome = true := by
  constructor
  · intro cleared
    obtain ⟨way, selected⟩ := outputSel_of_clear cleared
    rw [issuedOn_of_outputSel selected]
    rfl
  · intro issued
    obtain ⟨way, known⟩ := Option.isSome_iff_exists.mp issued
    exact clear_of_outputSel (outputSel_of_issuedOn known)

theorem length_free (queue : IssueQueueInt) :
    (setBits queue.free).length = freeSlots queue.slots := by
  rw [freeSlots, List.ofFn_eq_map, List.countP_map, setBits,
    List.countP_eq_length_filter]
  rfl

/-- With four free slots every lane selects one. -/
theorem inputSelect_some (room : 4 ≤ freeSlots queue.slots) (lane : Fin 4) :
    ∃ k, queue.inputSelect lane = some k := by
  have inside : lane.val < (setBits queue.free).length := by
    rw [length_free]
    omega
  refine ⟨(setBits queue.free)[lane.val], ?_⟩
  rw [inputSelect, select_eq, List.getElem?_eq_getElem inside]

theorem slotInputs_of_select {lane : Fin 4} {k : Fin 32}
    (selected : queue.inputSelect lane = some k)
    (valid : (uopIn lane).valid = true) :
    (queue.slotInputs uopIn).load k = true ∧
      (queue.slotInputs uopIn).uopToSlot k = uopIn lane := by
  have reached : ((queue.slotInputs uopIn).load k,
      (queue.slotInputs uopIn).uopToSlot k) = (true, uopIn lane) := by
    refine forEach_cell
      (fun inputs : SlotInputs => (inputs.load k, inputs.uopToSlot k))
      (fun other => other = lane) _ ?_ ?_ rfl
    · rintro _ rfl inputs
      refine forEach_cell
        (fun inputs : SlotInputs => (inputs.load k, inputs.uopToSlot k))
        (fun slot => slot = k) _ ?_ ?_ rfl
      · rintro _ rfl inputs
        simp [selected, valid]
      · intro slot elsewhere inputs
        simp [selected, Ne.symm elsewhere]
    · intro other different inputs
      refine forEach_frame
        (fun inputs : SlotInputs => (inputs.load k, inputs.uopToSlot k))
        _ ?_
      intro slot inputs
      by_cases selects : queue.inputSelect other = some slot ∧
          (uopIn other).valid = true
      · have elsewhere : k ≠ slot := by
          rintro rfl
          exact different (Fin.ext (select_injective selects.1 selected))
        simp only [if_pos selects, Function.update_of_ne elsewhere]
      · simp only [if_neg selects]
  exact Prod.mk.inj reached

theorem next_slot_of_kept {k : Fin 32}
    (kept : queue.issuedOn busy k = none) :
    (queue.next uopIn loadEn busy false false).slots k =
      if queue.loads uopIn loadEn k then (queue.slotInputs uopIn).uopToSlot k
      else queue.slots k := by
  have uncleared : queue.clear busy k = false := by
    rw [← Bool.not_eq_true, clear_iff_issuedOn, kept]
    exact Bool.false_ne_true
  simp [next, uncleared]

theorem next_slot_of_issued {k : Fin 32} {way : Fin 3}
    (issued : queue.issuedOn busy k = some way) :
    (queue.next uopIn loadEn busy false false).slots k = 0 := by
  have cleared : queue.clear busy k = true := by
    rw [clear_iff_issuedOn, issued]
    rfl
  simp [next, cleared]

theorem next_slot_stays {k : Fin 32} (valid : (queue.slots k).valid = true)
    (kept : queue.issuedOn busy k = none) :
    (queue.next uopIn loadEn busy false false).slots k = queue.slots k := by
  have unloaded : ¬ queue.loads uopIn loadEn k = true := by
    intro loads
    rw [free_of_load (load_of_loads loads)] at valid
    cases valid
  rw [next_slot_of_kept kept, if_neg unloaded]

section Opened

variable (opened : ∀ lane, (uopIn lane).valid = true →
  loadEn = true ∧ 4 ≤ freeSlots queue.slots)

include opened

theorem lane_enters (busy : BusyPorts 32) {lane : Fin 4} (valid : (uopIn lane).valid = true) :
    ∃ k, queue.inputSelect lane = some k ∧ (queue.slots k).valid = false ∧
      (queue.next uopIn loadEn busy false false).slots k = uopIn lane := by
  obtain ⟨enabled, room⟩ := opened lane valid
  obtain ⟨k, selected⟩ := inputSelect_some room lane
  obtain ⟨load, uop⟩ := slotInputs_of_select selected valid
  have free := free_of_load load
  have kept : queue.issuedOn busy k = none := by
    cases issued : queue.issuedOn busy k with
    | none => rfl
    | some way =>
        have ready := ready_of_outputSel (outputSel_of_issuedOn issued)
        rw [IssueQueueInt.ready, free, Bool.and_false] at ready
        cases ready
  have loads : queue.loads uopIn loadEn k = true := by
    rw [IssueQueueInt.loads, load, uop, valid, enabled]
    rfl
  refine ⟨k, selected, free, ?_⟩
  rw [next_slot_of_kept kept, if_pos loads, uop]

theorem lane_ne_slot {lane : Fin 4} {k : Fin 32}
    (coming : (uopIn lane).valid = true)
    (held : (queue.slots k).valid = true) :
    queue.move busy (.inr lane) ≠ queue.move busy (.inl k) := by
  obtain ⟨place, selected, free, -⟩ := lane_enters opened busy coming
  rw [move_lane selected]
  cases issued : queue.issuedOn busy k with
  | some way =>
      rw [move_of_issued issued]
      exact nofun
  | none =>
      rw [move_of_kept issued]
      intro same
      rw [Sum.inl.inj same, held] at free
      cases free

theorem move_apart (one other : Fin 32 ⊕ Fin 4)
    (oneValid : (Sum.elim queue.slots uopIn one).valid = true)
    (otherValid : (Sum.elim queue.slots uopIn other).valid = true)
    (same : queue.move busy one = queue.move busy other) : one = other := by
  rcases one with k | lane <;> rcases other with k' | lane'
  · cases issued : queue.issuedOn busy k with
    | some way =>
        rw [move_of_issued issued] at same
        cases issued' : queue.issuedOn busy k' with
        | some way' =>
            rw [move_of_issued issued'] at same
            have selected := outputSel_of_issuedOn issued
            rw [Sum.inr.inj same, outputSel_of_issuedOn issued'] at selected
            rw [Option.some.inj selected]
        | none =>
            rw [move_of_kept issued'] at same
            cases same
    | none =>
        rw [move_of_kept issued] at same
        cases issued' : queue.issuedOn busy k' with
        | some way' =>
            rw [move_of_issued issued'] at same
            cases same
        | none =>
            rw [move_of_kept issued'] at same
            rw [Sum.inl.inj same]
  · exact absurd same.symm (lane_ne_slot opened otherValid oneValid)
  · exact absurd same (lane_ne_slot opened oneValid otherValid)
  · obtain ⟨place, selected, -⟩ := lane_enters opened busy oneValid
    obtain ⟨place', selected', -⟩ :=
      lane_enters opened busy otherValid
    rw [move_lane selected, move_lane selected'] at same
    rw [← Sum.inl.inj same] at selected'
    rw [Fin.ext (select_injective selected selected')]

omit opened in
theorem move_accounted (place : Fin 32 ⊕ Fin 3)
    (there : (Sum.elim (queue.next uopIn loadEn busy false false).slots
      (queue.uopOut busy) place).valid = true) :
    ∃ source, (Sum.elim queue.slots uopIn source).valid = true ∧
      queue.move busy source = place := by
  rcases place with k | way
  · cases issued : queue.issuedOn busy k with
    | some way =>
        rw [Sum.elim_inl, next_slot_of_issued issued] at there
        cases there
    | none =>
        rw [Sum.elim_inl, next_slot_of_kept issued] at there
        by_cases loads : queue.loads uopIn loadEn k = true
        · obtain ⟨lane, selected, uop⟩ :=
            slotInputs_from queue uopIn (load_of_loads loads)
          rw [if_pos loads, uop] at there
          exact ⟨.inr lane, there, move_lane selected⟩
        · rw [if_neg loads] at there
          exact ⟨.inl k, there, move_of_kept issued⟩
  · rw [Sum.elim_inr, uopOut] at there
    cases selected : queue.outputSel busy way with
    | none =>
        rw [selected] at there
        cases there
    | some k =>
        rw [selected] at there
        exact ⟨.inl k, there,
          move_of_issued (issuedOn_of_outputSel selected)⟩

/-- One cycle of the integer queue, when the lanes that come in find it
open. -/
theorem moves :
    Moves (fun slot slot' => slot' = slot) queue.slots uopIn
      (queue.next uopIn loadEn busy false false).slots (queue.uopOut busy)
      (queue.move busy) := by
  refine ⟨⟨?_, move_apart opened, move_accounted⟩, ?_, ?_⟩
  · rintro (k | lane) valid
    · cases issued : queue.issuedOn busy k with
      | some way =>
          have selected := outputSel_of_issuedOn issued
          rw [move_of_issued issued, Sum.elim_inr, uopOut, selected]
          rfl
      | none =>
          rw [move_of_kept issued, Sum.elim_inl,
            next_slot_stays valid issued]
          rfl
    · obtain ⟨k, selected, -, next⟩ := lane_enters opened busy valid
      rw [move_lane selected, Sum.elim_inl, next]
      rfl
  · intro lane _
    exact ⟨_, rfl⟩
  · intro slot slot' _ moved
    cases issued : queue.issuedOn busy slot with
    | some way =>
        rw [move_of_issued issued] at moved
        cases moved
    | none =>
        rw [move_of_kept issued] at moved
        exact (Sum.inl.inj moved).symm

end Opened

theorem next_of_flush (queue : IssueQueueInt) (uopIn : Fin 4 → MicroOp)
    (loadEn : Bool) (busy : BusyPorts 32) {reset clearEn : Bool}
    (flush : (reset || clearEn) = true) :
    queue.next uopIn loadEn busy reset clearEn = resetState := by
  have cleared : ∀ k, (reset || (queue.clear busy k || clearEn)) = true := by
    intro k
    revert flush
    cases reset <;> cases clearEn <;> simp
  simp only [next, cleared, flush, if_true, resetState]

/-! ### The counter -/

theorem uopInCount_eq (uopIn : Fin 4 → MicroOp) :
    (uopInCount uopIn).toNat = (uopsOf uopIn).card := by
  rw [uopsOf, Multiset.coe_card, ← validBefore_lanes]
  exact forEach_count uopIn MicroOp.valid (by decide)

theorem uopOutCount_eq (queue : IssueQueueInt) (busy : BusyPorts 32) :
    (queue.uopOutCount busy).toNat = (uopsOf (queue.uopOut busy)).card := by
  let cleared : Fin 32 → MicroOp := fun k =>
    if queue.clear busy k then queue.slots k else 0
  have valid : ∀ k, (cleared k).valid = queue.clear busy k := by
    intro k
    cases known : queue.clear busy k with
    | false => simp [cleared, known]; rfl
    | true =>
        obtain ⟨way, selected⟩ := outputSel_of_clear known
        have ready := ready_of_outputSel selected
        rw [IssueQueueInt.ready, Bool.and_eq_true] at ready
        simp [cleared, known, ready.2]
  have counted : (queue.uopOutCount busy).toNat =
      (validUops cleared).length := by
    rw [← validBefore_lanes]
    unfold uopOutCount
    simp only [← valid]
    exact forEach_count cleared MicroOp.valid (by decide)
  have same : uopsOf (queue.uopOut busy) = uopsOf cleared := by
    rw [issued_eq_cleared, uopsOf_eq_sum]
    refine Finset.sum_congr rfl ?_
    intro k _
    simp only [cleared]
    split
    · rfl
    · exact MicroOp.single_zero.symm
  rw [counted, same, uopsOf, Multiset.coe_card]

theorem freeCount_next
    (moved : uopsOf queue.slots + uopsOf uopIn =
      uopsOf (queue.next uopIn loadEn busy false false).slots +
        uopsOf (queue.uopOut busy))
    (free : queue.freeCountReg.toNat = freeSlots queue.slots)
    (room : (uopsOf uopIn).card ≤ freeSlots queue.slots) :
    (queue.next uopIn loadEn busy false false).freeCountReg.toNat =
      freeSlots (queue.next uopIn loadEn busy false false).slots := by
  have before := freeSlots_add queue.slots
  have after := freeSlots_add
    (queue.next uopIn loadEn busy false false).slots
  have cards := congrArg Multiset.card moved
  rw [Multiset.card_add, Multiset.card_add] at cards
  change (queue.freeCount uopIn busy).toNat = _
  rw [freeCount, BitVec.toNat_add, BitVec.toNat_sub, uopInCount_eq,
    uopOutCount_eq, free]
  omega

end IssueQueueInt

/-! ## The memory queue -/

namespace IssueQueueMem

/-- The slot to which a uop that is not put out moves. -/
def movesTo (sel : Option (Fin 16)) (k : Fin 16) : Fin 16 :=
  match sel with
  | some sel => if sel < k then
      ⟨k.val - 1, Nat.lt_of_le_of_lt (Nat.sub_le _ _) k.isLt⟩
      else k
  | none => k

def move (queue : IssueQueueMem) (busy : BusyPorts 16) :
    Fin 16 ⊕ Fin 4 → Fin 16 ⊕ Fin 1
  | .inl k =>
      if queue.outputSel busy = some k then .inr 0
      else .inl (movesTo (queue.outputSel busy) k)
  | .inr lane => .inl (Fin.ofNat 16 (queue.slotIndex busy lane).toNat)

theorem valid_getD {uops : List MicroOp}
    (valid : ∀ uop ∈ uops, uop.valid = true) (index : Nat) :
    (uops.getD index 0).valid = true ↔ index < uops.length := by
  constructor
  · intro there
    by_contra outside
    rw [List.getD_eq_default _ _ (by omega)] at there
    cases there
  · intro inside
    rw [List.getD_eq_getElem _ _ inside]
    exact valid _ (List.getElem_mem inside)

section Lists

variable {uops : List MicroOp} {sel : Option (Fin 16)} {k k' : Fin 16}

/-- Where an element of the list is once the selected one is gone. -/
theorem removed_movesTo
    (chosen : ∀ first, sel = some first → first.val < uops.length)
    (inside : k.val < uops.length) (kept : sel ≠ some k) :
    (movesTo sel k).val < (removed uops sel).length ∧
      (removed uops sel).getD (movesTo sel k).val 0 =
        uops.getD k.val 0 := by
  cases sel with
  | none => exact ⟨inside, rfl⟩
  | some first =>
      have firstInside := chosen first rfl
      have shorter := List.length_eraseIdx_of_lt firstInside
      have different : first.val ≠ k.val := fun same =>
        kept (congrArg some (Fin.ext same))
      unfold movesTo removed
      simp only [shorter, List.getD_eq_getElem?_getD, List.getElem?_eraseIdx]
      by_cases above : first < k
      · have after : ¬ k.val - 1 < first.val := by omega
        have back : k.val - 1 + 1 = k.val := by omega
        simp only [if_pos above, if_neg after, back]
        exact ⟨by omega, trivial⟩
      · have before : k.val < first.val := by omega
        simp only [if_neg above, if_pos before]
        exact ⟨by omega, trivial⟩

theorem movesTo_injective (kept : sel ≠ some k) (kept' : sel ≠ some k')
    (same : movesTo sel k = movesTo sel k') : k = k' := by
  cases sel with
  | none => exact same
  | some first =>
      have different : first.val ≠ k.val := fun equal =>
        kept (congrArg some (Fin.ext equal))
      have different' : first.val ≠ k'.val := fun equal =>
        kept' (congrArg some (Fin.ext equal))
      unfold movesTo at same
      refine Fin.ext ?_
      by_cases above : first < k <;> by_cases above' : first < k' <;>
        simp only [above, above', if_true, if_false, Fin.ext_iff] at same <;>
        omega

/-- Every element that is left has moved there. -/
theorem exists_movesTo (short : uops.length ≤ 16)
    (chosen : ∀ first, sel = some first → first.val < uops.length)
    {place : Fin 16} (inside : place.val < (removed uops sel).length) :
    ∃ k : Fin 16, k.val < uops.length ∧ sel ≠ some k ∧
      movesTo sel k = place := by
  cases sel with
  | none => exact ⟨place, inside, nofun, rfl⟩
  | some first =>
      have firstInside := chosen first rfl
      have shorter := List.length_eraseIdx_of_lt firstInside
      have fewer : place.val < uops.length - 1 := by
        rwa [← shorter]
      by_cases below : place < first
      · refine ⟨place, by omega, ?_, ?_⟩
        · intro same
          rw [Option.some.inj same] at below
          exact lt_irrefl _ below
        · exact if_neg (not_lt.mpr (le_of_lt below))
      · refine ⟨⟨place.val + 1, by omega⟩, by simp only; omega, ?_, ?_⟩
        · intro same
          have equal := congrArg Fin.val (Option.some.inj same)
          simp only at equal
          omega
        · have above : first < (⟨place.val + 1, by omega⟩ : Fin 16) := by
            rw [Fin.lt_def]
            simp only
            omega
          unfold movesTo
          simp [above]

end Lists

section Cycle

variable {queue : IssueQueueMem} {busy : BusyPorts 16}
  {uops arriving : List MicroOp}

theorem move_of_issued {k : Fin 16}
    (issued : queue.outputSel busy = some k) :
    queue.move busy (.inl k) = .inr 0 :=
  if_pos issued

theorem move_of_kept {k : Fin 16} (kept : queue.outputSel busy ≠ some k) :
    queue.move busy (.inl k) = .inl (movesTo (queue.outputSel busy) k) :=
  if_neg kept

theorem Holds.lane_slot (holds : Holds queue uops) (busy : BusyPorts 16)
    (room : uops.length + arriving.length ≤ 16) {lane : Fin 4}
    (comes : lane.val < arriving.length) :
    ∃ k : Fin 16, queue.move busy (.inr lane) = .inl k ∧
      k.val = (removed uops (queue.outputSel busy)).length + lane.val := by
  have length := holds.length_removed busy
  have short := holds.short
  have index : (queue.slotIndex busy lane).toNat =
      (removed uops (queue.outputSel busy)).length + lane.val :=
    slotIndex_eq (by omega) (by rw [holds.tail, length]) lane
  refine ⟨_, rfl, ?_⟩
  rw [index]
  exact Nat.mod_eq_of_lt (by omega)

theorem Holds.lane_ne_slot (holds : Holds queue uops)
    (room : uops.length + arriving.length ≤ 16) {lane : Fin 4} {k : Fin 16}
    (comes : lane.val < arriving.length) (inside : k.val < uops.length) :
    queue.move busy (.inr lane) ≠ queue.move busy (.inl k) := by
  obtain ⟨place, moved, position⟩ :=
    holds.lane_slot busy room comes
  rw [moved]
  by_cases issued : queue.outputSel busy = some k
  · rw [move_of_issued issued]
    exact nofun
  · obtain ⟨left, -⟩ :=
      removed_movesTo (fun first => holds.sel_lt) inside issued
    rw [move_of_kept issued]
    intro same
    rw [← Sum.inl.inj same] at left
    omega

theorem Holds.move_apart (holds : Holds queue uops)
    (valid : ∀ uop ∈ arriving, uop.valid = true)
    (room : uops.length + arriving.length ≤ 16)
    (one other : Fin 16 ⊕ Fin 4)
    (oneValid : (Sum.elim (fun k : Fin 16 => uops.getD k.val 0)
      (packed arriving) one).valid = true)
    (otherValid : (Sum.elim (fun k : Fin 16 => uops.getD k.val 0)
      (packed arriving) other).valid = true)
    (same : queue.move busy one = queue.move busy other) : one = other := by
  rcases one with k | lane <;> rcases other with k' | lane'
  · by_cases issued : queue.outputSel busy = some k
    · rw [move_of_issued issued] at same
      by_cases issued' : queue.outputSel busy = some k'
      · rw [Option.some.inj (issued.symm.trans issued')]
      · rw [move_of_kept issued'] at same
        cases same
    · rw [move_of_kept issued] at same
      by_cases issued' : queue.outputSel busy = some k'
      · rw [move_of_issued issued'] at same
        cases same
      · rw [move_of_kept issued'] at same
        rw [movesTo_injective issued issued' (Sum.inl.inj same)]
  · exact absurd same.symm (holds.lane_ne_slot room
      ((valid_getD valid lane'.val).mp otherValid)
      ((valid_getD holds.valid k.val).mp oneValid))
  · exact absurd same (holds.lane_ne_slot room
      ((valid_getD valid lane.val).mp oneValid)
      ((valid_getD holds.valid k'.val).mp otherValid))
  · obtain ⟨place, moved, position⟩ := holds.lane_slot busy room
      ((valid_getD valid lane.val).mp oneValid)
    obtain ⟨place', moved', position'⟩ := holds.lane_slot busy room
      ((valid_getD valid lane'.val).mp otherValid)
    rw [moved, moved'] at same
    have equal := congrArg Fin.val (Sum.inl.inj same)
    rw [Fin.ext (by omega : lane.val = lane'.val)]

theorem Holds.move_accounted (holds : Holds queue uops)
    (valid : ∀ uop ∈ arriving, uop.valid = true)
    (few : arriving.length ≤ 4)
    (room : uops.length + arriving.length ≤ 16) (place : Fin 16 ⊕ Fin 1)
    (there : (Sum.elim (fun k : Fin 16 =>
        (removed uops (queue.outputSel busy) ++ arriving).getD k.val 0)
      (fun _ => queue.uopOut busy) place).valid = true) :
    ∃ source, (Sum.elim (fun k : Fin 16 => uops.getD k.val 0)
        (packed arriving) source).valid = true ∧
      queue.move busy source = place := by
  rcases place with k | way
  · by_cases old : k.val < (removed uops (queue.outputSel busy)).length
    · obtain ⟨source, inside, kept, moved⟩ :=
        exists_movesTo holds.short (fun first => holds.sel_lt) old
      refine ⟨.inl source, (valid_getD holds.valid _).mpr inside, ?_⟩
      rw [move_of_kept kept, moved]
    · rw [Sum.elim_inl, List.getD_append_right _ _ _ _ (by omega)] at there
      have comes := (valid_getD valid _).mp there
      let lane : Fin 4 := ⟨_, comes.trans_le few⟩
      have here : lane.val < arriving.length := comes
      obtain ⟨slot, moved, position⟩ := holds.lane_slot busy room here
      have number : lane.val =
          k.val - (removed uops (queue.outputSel busy)).length := rfl
      have same : slot = k := Fin.ext (by omega)
      exact ⟨.inr lane, there, by rw [moved, same]⟩
  · rw [Sum.elim_inr, holds.uopOut_eq] at there
    cases issued : queue.outputSel busy with
    | none =>
        rw [issued] at there
        cases there
    | some k =>
        rw [issued] at there
        refine ⟨.inl k, there, ?_⟩
        rw [move_of_issued issued, Fin.fin_one_eq_zero way]

/-- One cycle of the memory queue. -/
theorem Holds.moves (holds : Holds queue uops) {loadEn : Bool}
    (valid : ∀ uop ∈ arriving, uop.valid = true)
    (few : arriving.length ≤ 4)
    (room : uops.length + arriving.length ≤ 16)
    (enabled : loadEn = false → arriving = []) :
    Moves (fun slot slot' => slot' = slot ∨ slot'.val + 1 = slot.val)
      (fun k => (queue.slots k).uop) (packed arriving)
      (fun k => ((queue.next busy (packed arriving) false false
        loadEn).slots k).uop)
      (fun _ : Fin 1 => queue.uopOut busy) (queue.move busy) := by
  have next : Holds (queue.next busy (packed arriving) false false loadEn)
      (removed uops (queue.outputSel busy) ++ arriving) :=
    holds.next valid few room enabled
  have chosen : ∀ first, queue.outputSel busy = some first →
      first.val < uops.length := fun first => holds.sel_lt
  have slot : (fun k => (queue.slots k).uop) =
      fun k : Fin 16 => uops.getD k.val 0 := funext holds.slots
  have nextSlot : (fun k => ((queue.next busy (packed arriving) false false
      loadEn).slots k).uop) = fun k : Fin 16 =>
        (removed uops (queue.outputSel busy) ++ arriving).getD k.val 0 :=
    funext next.slots
  have nextValid := valid_getD next.valid
  have entering : ∀ lane : Fin 4,
      ((packed arriving : Fin 4 → MicroOp) lane).valid = true ↔
        lane.val < arriving.length := fun lane => valid_getD valid lane.val
  rw [slot, nextSlot]
  refine ⟨⟨?_, ?_, ?_⟩, ?_, ?_⟩
  · rintro (k | lane) there
    · have inside : k.val < uops.length :=
        (valid_getD holds.valid k.val).mp there
      by_cases issued : queue.outputSel busy = some k
      · rw [move_of_issued issued, Sum.elim_inr, holds.uopOut_eq, issued]
        rfl
      · obtain ⟨left, same⟩ := removed_movesTo chosen inside issued
        rw [move_of_kept issued, Sum.elim_inl, List.getD_append _ _ _ _ left,
          same]
        rfl
    · obtain ⟨k, moved, place⟩ :=
        holds.lane_slot busy room ((entering lane).mp there)
      rw [moved, Sum.elim_inl, List.getD_append_right _ _ _ _ (by omega),
        place, Nat.add_sub_cancel_left]
      rfl
  · exact holds.move_apart valid room
  · exact holds.move_accounted valid few room
  · intro lane _
    exact ⟨_, rfl⟩
  · intro k k' _ moved
    by_cases issued : queue.outputSel busy = some k
    · rw [move_of_issued issued] at moved
      cases moved
    · rw [move_of_kept issued] at moved
      rw [← Sum.inl.inj moved]
      unfold movesTo
      split
      · split
        · right
          simp only
          omega
        · exact .inl rfl
      · exact .inl rfl

end Cycle

end IssueQueueMem

end Ria
