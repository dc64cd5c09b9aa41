import Ria.Backend.BackEnd
import Ria.Backend.LoadStorePipe
import Ria.Backend.UopFlow

/-!
# From dispatch to write-back

Where the uops of the back end are, when each spends one cycle in each stage
after it is issued.
-/

namespace Ria

open Hdl

/-- A branch-type uop before the branch unit has set its outcome. -/
def MicroOp.unresolved (uop : MicroOp) : MicroOp := uop.withOutcome false 0

/-- Uops that differ in their outcome only agree in every other field. -/
theorem MicroOp.agree {one other : MicroOp}
    (same : one.unresolved = other.unresolved) {α : Type}
    (field : MicroOp → α) (blind : ∀ uop, field uop.unresolved = field uop) :
    field one = field other := by
  rw [← blind one, same, blind]

/-- The operands a uop takes from the register file. -/
def MicroOp.Reads (uop : MicroOp) (prf : PrfIndex) : Prop :=
  uop.rs1Source = .fromRf ∧ uop.rs1PrfIntIndex = prf ∨
    uop.rs2Source = .fromRf ∧ uop.rs2PrfIntIndex = prf

/-- The classes of uops that stay one cycle in each stage. -/
def MicroOp.OneCycle (uop : MicroOp) : Prop :=
  uop.fuCode = .alu ∨ uop.fuCode = .br ∨ uop.fuCode = .mem

/-- An invalid lane asks for no write. -/
def Tidy {lanes : Nat} (uops : Fin lanes → MicroOp) : Prop :=
  ∀ i, (uops i).valid = false → (uops i).rdValid = false

namespace BackEnd

/-- The uops dispatched and not yet issued. -/
def unissued (backEnd : BackEnd) : Multiset MicroOp :=
  backEnd.dpIs.heldUops + uopsOf backEnd.iqInt.slots +
    backEnd.iqMem.slotUops

variable {backEnd : BackEnd} {input : BackEndInput}

theorem uopsOf_isUopOut (backEnd : BackEnd) (input : BackEndInput) :
    uopsOf (backEnd.isUopOut input) =
      uopsOf (backEnd.iqInt.uopOut (backEnd.intBusy input)) +
        (backEnd.iqMem.uopOut (backEnd.memBusy input)).single := by
  rw [uopsOf_eq_sum, uopsOf_eq_sum, Fin.sum_univ_four, Fin.sum_univ_three]
  rfl

/-- What is issued leaves the queues; what is dispatched enters. -/
theorem flow_unissued {uops : List MicroOp}
    (fed : MemFed backEnd.dpIs backEnd.iqFullReg backEnd.iqMem uops)
    (reset : input.reset = false) (clear : input.clear = false) :
    (backEnd.next input).unissued + uopsOf (backEnd.isUopOut input) ≤
      backEnd.unissued + uopsOf input.dpUopsIn := by
  have dpIs : (backEnd.next input).dpIs =
      backEnd.dpIs.next false false (backEnd.iqFull input)
        input.dpUopsIn := by
    change DpIs.next _ input.reset input.clear _ _ = _
    rw [reset, clear]
  have iqInt : (backEnd.next input).iqInt =
      backEnd.iqInt.next backEnd.dpIs.out.1 backEnd.loadEn
        (backEnd.intBusy input) false false := by
    change IssueQueueInt.next _ _ _ _ input.reset input.clear = _
    rw [reset, clear]
  have iqMem : (backEnd.next input).iqMem =
      backEnd.iqMem.next (backEnd.memBusy input) backEnd.dpIs.out.2 false
        false (!backEnd.iqFullReg) := by
    change IssueQueueMem.next _ _ _ input.reset input.clear _ = _
    rw [reset, clear]
    rfl
  have fedNext := fed.next (backEnd.memBusy input)
    (backEnd.iqInt.iqIntFull backEnd.dpIs.out.1 (backEnd.intBusy input))
    input.dpUopsIn (rfl : backEnd.iqFull input = _)
  have held := backEnd.dpIs.flow (backEnd.iqFull input) input.dpUopsIn
  have int := backEnd.iqInt.flow backEnd.dpIs.out.1 backEnd.loadEn
    (backEnd.intBusy input)
  have mem : (backEnd.iqMem.next (backEnd.memBusy input)
        backEnd.dpIs.out.2 false false (!backEnd.iqFullReg)).slotUops +
      (backEnd.iqMem.uopOut (backEnd.memBusy input)).single =
        backEnd.iqMem.slotUops + uopsOf backEnd.dpIs.out.2 := by
    have split := fed.holds.removed_add (backEnd.memBusy input)
    rw [fedNext.holds.slotUops_eq, fed.holds.slotUops_eq, ← split,
      ← Multiset.coe_add]
    change _ + uopsOf backEnd.dpIs.out.2 + _ = _
    ac_rfl
  unfold unissued
  rw [dpIs, iqInt, iqMem, uopsOf_isUopOut]
  calc _ = DpIs.heldUops (backEnd.dpIs.next false false
            (backEnd.iqFull input) input.dpUopsIn) +
          (uopsOf (backEnd.iqInt.next backEnd.dpIs.out.1 backEnd.loadEn
              (backEnd.intBusy input) false false).slots +
            uopsOf (backEnd.iqInt.uopOut (backEnd.intBusy input))) +
          ((backEnd.iqMem.next (backEnd.memBusy input) backEnd.dpIs.out.2
              false false (!backEnd.iqFullReg)).slotUops +
            (backEnd.iqMem.uopOut (backEnd.memBusy input)).single) := by
        ac_rfl
    _ ≤ (DpIs.uops backEnd.dpIs.tmp + uopsOf input.dpUopsIn) +
          (uopsOf backEnd.iqInt.slots + uopsOf backEnd.dpIs.out.1) +
          (backEnd.iqMem.slotUops + uopsOf backEnd.dpIs.out.2) :=
        add_le_add (add_le_add held int) (le_of_eq mem)
    _ = _ := by
        have out : backEnd.dpIs.heldUops = uopsOf backEnd.dpIs.out.1 +
            uopsOf backEnd.dpIs.out.2 + DpIs.uops backEnd.dpIs.tmp := rfl
        rw [out]
        ac_rfl

/-! ### What is selected -/

/-- The uop is issued although the scoreboard was asked for its operands. -/
def Released (backEnd : BackEnd) (input : BackEndInput) (uop : MicroOp) :
    Prop :=
  ∀ prf, uop.Reads prf →
    backEnd.sbInt.busy (backEnd.rdPorts input) prf = false

theorem selected_int {way : Fin 3}
    (valid : (backEnd.iqInt.uopOut (backEnd.intBusy input) way).valid = true) :
    ∃ k, backEnd.iqInt.uopOut (backEnd.intBusy input) way =
        backEnd.iqInt.slots k ∧
      (backEnd.iqInt.slots k).valid = true ∧
      backEnd.Released input (backEnd.iqInt.slots k) := by
  cases chosen : backEnd.iqInt.outputSel (backEnd.intBusy input) way with
  | none =>
      rw [IssueQueueInt.uopOut, chosen] at valid
      cases valid
  | some k =>
      have ready := IssueQueueInt.ready_of_outputSel chosen
      simp only [IssueQueueInt.ready, Bool.and_eq_true,
        Bool.not_eq_true'] at ready
      obtain ⟨⟨rs1, rs2⟩, held⟩ := ready
      have kept : backEnd.iqInt.loads backEnd.dpIs.out.1 backEnd.loadEn k =
          false := by
        rw [← Bool.not_eq_true]
        intro loads
        have loaded := IssueQueueInt.load_of_loads loads
        rw [IssueQueueInt.free_of_load loaded] at held
        cases held
      refine ⟨k, by rw [IssueQueueInt.uopOut, chosen], held, ?_⟩
      rintro prf (⟨source, same⟩ | ⟨source, same⟩)
      · simp only [intBusy, IssueQueueInt.rs1Index, kept, source,
          Bool.false_eq_true, if_false, if_true, same] at rs1
        exact rs1
      · simp only [intBusy, IssueQueueInt.rs2Index, kept, source,
          Bool.false_eq_true, if_false, if_true, same] at rs2
        exact rs2

theorem selected_mem {uops : List MicroOp}
    (holds : backEnd.iqMem.Holds uops)
    (slots : ∀ k, ∃ uop isNew, backEnd.iqMem.slots k = .holding uop isNew)
    (valid : (backEnd.iqMem.uopOut (backEnd.memBusy input)).valid = true) :
    ∃ k, backEnd.iqMem.uopOut (backEnd.memBusy input) =
        (backEnd.iqMem.slots k).uop ∧
      backEnd.Released input (backEnd.iqMem.slots k).uop := by
  rw [holds.uopOut_eq] at valid ⊢
  cases chosen : backEnd.iqMem.outputSel (backEnd.memBusy input) with
  | none =>
      rw [chosen] at valid
      cases valid
  | some k =>
      have picked := (Bool.and_eq_true_iff.mp (ready_of_select chosen)).1
      obtain ⟨uop, isNew, slot⟩ := slots k
      simp only [IssueQueueMem.ready, IssueSlotMem.ready, memBusy, slot,
        IssueSlotMem.holding, Bool.and_eq_true, Bool.not_eq_true'] at picked
      obtain ⟨⟨⟨rs1, -⟩, rs2, -⟩, -⟩ := picked
      refine ⟨k, (holds.slots k).symm, ?_⟩
      rw [slot]
      change backEnd.Released input uop
      rintro prf (⟨source, same⟩ | ⟨source, same⟩)
      · rwa [if_pos source, same] at rs1
      · rwa [if_pos source, same] at rs2

/-! ### From issue to write-back -/

/-- What the stages after issue hold when every uop takes one cycle in each:
nothing in the way of multiplications and divisions, and in the memory pipe
only a uop whose access completes. -/
structure Flowing (backEnd : BackEnd) : Prop where
  fed : ∃ uops,
    MemFed backEnd.dpIs backEnd.iqFullReg backEnd.iqMem uops
  memSlots : ∀ k, ∃ uop isNew, backEnd.iqMem.slots k = .holding uop isNew
  rfTidy : Tidy backEnd.rfIntUopIn
  exTidy : Tidy backEnd.exUopIn
  wbTidy : Tidy backEnd.exUopOut
  rfWay2 : (backEnd.rfIntUopIn 2).valid = false
  exWay2 : (backEnd.exUopIn 2).valid = false
  pipe2Idle : backEnd.pipe2.uopReg = 0
  pipe3 : backEnd.pipe3.Completing

theorem unresolved_branchUop (uop : MicroOp) (in1 in2 : Word) :
    (branchUop uop in1 in2).unresolved = uop.unresolved := rfl

theorem unresolved_uopNext (uop : MicroOp) (in1 in2 : Word) :
    (Pipe01.uopNext uop in1 in2).unresolved = uop.unresolved := by
  unfold Pipe01.uopNext
  split
  · exact unresolved_branchUop uop in1 in2
  · rfl

theorem Flowing.exUopOut_next (flowing : Flowing backEnd)
    (reset : input.reset = false) (clear : input.clear = false)
    (dataValid : input.dcacheDataValid = true) (way : Fin 4) :
    (backEnd.next input).exUopOut way = 0 ∨
      ((backEnd.next input).exUopOut way).unresolved =
        (backEnd.exUopIn way).unresolved := by
  match way with
  | 0 =>
      right
      change (if input.reset || input.clear then 0
        else Pipe01.uopNext (backEnd.exUopIn 0) _ _).unresolved = _
      rw [reset, clear]
      exact unresolved_uopNext ..
  | 1 =>
      right
      change (if input.reset || input.clear then 0
        else Pipe01.uopNext (backEnd.exUopIn 1) _ _).unresolved = _
      rw [reset, clear]
      exact unresolved_uopNext ..
  | 2 =>
      left
      have idle : (backEnd.next input).pipe2.uopReg = 0 := by
        change (if input.reset || input.clear then 0 else _) = (0 : MicroOp)
        rw [flowing.exWay2, flowing.pipe2Idle]
        simp
      change (if (backEnd.next input).pipe2.busy then 0 else _) = (0 : MicroOp)
      rw [idle, ite_self]
  | 3 =>
      change (Pipe3.next _ input.reset input.clear _ _ _ _).uopReg = 0 ∨
        (Pipe3.next _ input.reset input.clear _ _ _ _).uopReg.unresolved = _
      rw [reset, clear, dataValid, flowing.pipe3.uopReg_next]
      cases Pipe3.inputValid (backEnd.exUopIn 3) with
      | true => exact .inr rfl
      | false => exact .inl rfl

theorem tidy_noUops {lanes : Nat} : Tidy (noUops : Fin lanes → MicroOp) :=
  fun _ _ => rfl

theorem exUopOut_of_flush (flush : (input.reset || input.clear) = true) :
    (backEnd.next input).exUopOut = noUops := by
  have pipe2 : (backEnd.next input).pipe2.uopReg = 0 := if_pos flush
  funext way
  match way with
  | 0 => exact if_pos flush
  | 1 => exact if_pos flush
  | 2 =>
      change (if (backEnd.next input).pipe2.busy then 0 else _) = (0 : MicroOp)
      rw [pipe2, ite_self]
  | 3 => exact if_pos flush

theorem memSlots_next (backEnd : BackEnd) (input : BackEndInput)
    (k : Fin 16) :
    ∃ uop isNew, (backEnd.next input).iqMem.slots k = .holding uop isNew :=
  IssueSlotMem.next_holding ..

theorem unissued_of_flush (flush : (input.reset || input.clear) = true) :
    (backEnd.next input).unissued = 0 := by
  have dpIs : (backEnd.next input).dpIs = DpIs.resetState := if_pos flush
  have iqMem : (backEnd.next input).iqMem = IssueQueueMem.resetState :=
    IssueQueueMem.next_of_flush _ _ _ _ flush
  have iqInt : (backEnd.next input).iqInt.slots = noUops := by
    funext k
    refine if_pos ?_
    revert flush
    cases input.reset <;> cases input.clear <;> simp
  unfold unissued
  rw [dpIs, iqMem, iqInt, IssueQueueMem.holds_resetState.slotUops_eq,
    uopsOf_noUops, DpIs.heldUops, DpIs.resetState, SkidBuffer.resetState,
    DpIs.uops_empty]
  rfl

theorem flowing_of_flush (flush : (input.reset || input.clear) = true) :
    Flowing (backEnd.next input) := by
  have dpIs : (backEnd.next input).dpIs = DpIs.resetState := if_pos flush
  have iqMem : (backEnd.next input).iqMem = IssueQueueMem.resetState :=
    IssueQueueMem.next_of_flush _ _ _ _ flush
  have rf : (backEnd.next input).rfIntUopIn = noUops := if_pos flush
  have ex : (backEnd.next input).exUopIn = noUops := if_pos flush
  refine
    { fed := ⟨[], ?_⟩, memSlots := memSlots_next backEnd input
      rfTidy := ?_, exTidy := ?_, wbTidy := ?_, rfWay2 := ?_, exWay2 := ?_
      pipe2Idle := if_pos flush, pipe3 := Pipe3.completing_of_flush flush }
  · rw [dpIs, iqMem]
    exact .reset _
  · exact rf ▸ tidy_noUops
  · exact ex ▸ tidy_noUops
  · exact exUopOut_of_flush flush ▸ tidy_noUops
  · rw [rf]
    rfl
  · rw [ex]
    rfl

theorem tidy_isUopOut (holds : ∃ uops, backEnd.iqMem.Holds uops) :
    Tidy (backEnd.isUopOut input) := by
  obtain ⟨uops, holds⟩ := holds
  have int : ∀ way, (backEnd.iqInt.uopOut (backEnd.intBusy input) way).valid =
      false →
      (backEnd.iqInt.uopOut (backEnd.intBusy input) way).rdValid = false := by
    intro way
    unfold IssueQueueInt.uopOut
    cases chosen : backEnd.iqInt.outputSel (backEnd.intBusy input) way with
    | none => exact fun _ => rfl
    | some k =>
        have ready := IssueQueueInt.ready_of_outputSel chosen
        have valid := (Bool.and_eq_true_iff.mp ready).2
        intro invalid
        rw [valid] at invalid
        cases invalid
  intro way
  match way with
  | 0 => exact int 0
  | 1 => exact int 1
  | 2 => exact int 2
  | 3 =>
      change (backEnd.iqMem.uopOut (backEnd.memBusy input)).valid = false →
        (backEnd.iqMem.uopOut (backEnd.memBusy input)).rdValid = false
      rw [holds.uopOut_eq]
      cases chosen : backEnd.iqMem.outputSel (backEnd.memBusy input) with
      | none => exact fun _ => rfl
      | some k =>
          have valid := (IssueQueueMem.outputSel_facts chosen).1
          rw [holds.slots] at valid
          intro invalid
          rw [valid] at invalid
          cases invalid

theorem isUopOut_way2
    (oneCycle : ∀ uop ∈ uopsOf backEnd.iqInt.slots, uop.OneCycle) :
    (backEnd.isUopOut input 2).valid = false := by
  change (backEnd.iqInt.uopOut (backEnd.intBusy input) 2).valid = false
  unfold IssueQueueInt.uopOut
  cases chosen : backEnd.iqInt.outputSel (backEnd.intBusy input) 2 with
  | none => rfl
  | some k =>
      have picked : select (backEnd.iqInt.readyImulIdiv
          (backEnd.intBusy input)) 0 = some k := chosen
      have ready := Bool.and_eq_true_iff.mp (ready_of_select picked)
      have valid := (Bool.and_eq_true_iff.mp ready.1).2
      have kind := ready.2
      rcases oneCycle _ (mem_uopsOf.mpr ⟨k, rfl, valid⟩) with
        code | code | code <;> rw [code] at kind <;> cases kind

theorem Flowing.selected (flowing : Flowing backEnd) {way : Fin 4}
    (valid : (backEnd.isUopOut input way).valid = true) :
    backEnd.isUopOut input way ∈ backEnd.unissued ∧
      backEnd.Released input (backEnd.isUopOut input way) := by
  obtain ⟨uops, fed⟩ := flowing.fed
  have int : ∀ way, (backEnd.iqInt.uopOut (backEnd.intBusy input) way).valid =
      true →
      backEnd.iqInt.uopOut (backEnd.intBusy input) way ∈ backEnd.unissued ∧
        backEnd.Released input
          (backEnd.iqInt.uopOut (backEnd.intBusy input) way) := by
    intro way valid
    obtain ⟨k, same, held, released⟩ := selected_int valid
    rw [same]
    refine ⟨?_, released⟩
    exact Multiset.mem_add.mpr (.inl (Multiset.mem_add.mpr
      (.inr (mem_uopsOf.mpr ⟨k, rfl, held⟩))))
  match way with
  | 0 => exact int 0 valid
  | 1 => exact int 1 valid
  | 2 => exact int 2 valid
  | 3 =>
      change (backEnd.iqMem.uopOut (backEnd.memBusy input)).valid = true
        at valid
      change backEnd.iqMem.uopOut (backEnd.memBusy input) ∈ _ ∧
        backEnd.Released input (backEnd.iqMem.uopOut (backEnd.memBusy input))
      obtain ⟨k, same, released⟩ := selected_mem fed.holds flowing.memSlots valid
      rw [same] at valid ⊢
      exact ⟨Multiset.mem_add.mpr (.inr (mem_uopsOf.mpr ⟨k, rfl, valid⟩)),
        released⟩

theorem Flowing.advance (flowing : Flowing backEnd)
    (reset : input.reset = false) (clear : input.clear = false)
    (dataValid : input.dcacheDataValid = true)
    (way2 : (backEnd.isUopOut input 2).valid = false) :
    Flowing (backEnd.next input) := by
  have running : ¬ (input.reset || input.clear) = true := by
    rw [reset, clear]
    exact Bool.false_ne_true
  have rf : (backEnd.next input).rfIntUopIn = backEnd.isUopOut input :=
    if_neg running
  have ex : (backEnd.next input).exUopIn = backEnd.rfIntUopIn :=
    if_neg running
  obtain ⟨uops, fed⟩ := flowing.fed
  refine
    { fed := ?_, memSlots := memSlots_next backEnd input
      rfTidy := ?_, exTidy := ?_, wbTidy := ?_, rfWay2 := ?_, exWay2 := ?_
      pipe2Idle := ?_, pipe3 := ?_ }
  · have fedNext := fed.next (backEnd.memBusy input)
      (backEnd.iqInt.iqIntFull backEnd.dpIs.out.1 (backEnd.intBusy input))
      input.dpUopsIn (rfl : backEnd.iqFull input = _)
    change ∃ uops, MemFed (DpIs.next _ input.reset input.clear _ _)
      (if input.reset then false else _)
      (IssueQueueMem.next _ _ _ input.reset input.clear _) uops
    rw [reset, clear]
    exact ⟨_, fedNext⟩
  · rw [rf]
    exact tidy_isUopOut ⟨uops, fed.holds⟩
  · rw [ex]
    exact flowing.rfTidy
  · intro way invalid
    rcases flowing.exUopOut_next reset clear dataValid way with idle | same
    · rw [idle]
      rfl
    · have valid := MicroOp.agree same MicroOp.valid fun _ => rfl
      have rdValid := MicroOp.agree same MicroOp.rdValid fun _ => rfl
      exact rdValid.trans (flowing.exTidy way (valid.symm.trans invalid))
  · rw [rf]
    exact way2
  · rw [ex]
    exact flowing.rfWay2
  · change (if input.reset || input.clear then 0 else _) = (0 : MicroOp)
    rw [flowing.exWay2, flowing.pipe2Idle]
    simp
  · change Pipe3.Completing (Pipe3.next _ input.reset input.clear _ _ _ _)
    rw [reset, clear, dataValid]
    exact flowing.pipe3.next

theorem Flowing.next (flowing : Flowing backEnd)
    (reset : input.reset = false) (clear : input.clear = false)
    (dataValid : input.dcacheDataValid = true)
    (oneCycle : ∀ uop ∈ uopsOf backEnd.iqInt.slots, uop.OneCycle) :
    Flowing (backEnd.next input) :=
  flowing.advance reset clear dataValid (isUopOut_way2 oneCycle)

end BackEnd

end Ria
