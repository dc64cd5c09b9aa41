import Ria.Backend.UopFlow
import Ria.Core.Core

/-!
# What the uops of the core have in common

A property of uops that survives renaming, the assignment of a reorder buffer
index and the outcome of a branch passes from the uops decoded to every
register of the core that holds a uop.
-/

namespace Ria

open Hdl

structure Inherited (property : MicroOp → Prop) : Prop where
  zero : property 0
  renamed : ∀ uop outputs, property uop → property (uop.withRenamed outputs)
  indexed : ∀ (uop : MicroOp) robIndex, property uop →
    property { uop with robIndex := robIndex }
  resolved : ∀ (uop : MicroOp) brTaken brAddr, property uop →
    property (uop.withOutcome brTaken brAddr)

theorem inherited_invalid :
    Inherited fun uop : MicroOp => uop.valid = false :=
  ⟨rfl, fun _ _ invalid => invalid, fun _ _ invalid => invalid,
    fun _ _ _ invalid => invalid⟩

variable {property : MicroOp → Prop}

/-! ## The front end and the reorder buffer -/

/-- The registers between decode and the reorder buffer. -/
structure FrontEnd.Carries (property : MicroOp → Prop)
    (frontEnd : FrontEnd) : Prop where
  idRrOut : ∀ i, property (frontEnd.idRr.out i)
  idRrTmp : ∀ i, property (frontEnd.idRr.tmp i)
  rrDpOut : ∀ i, property (frontEnd.rrDp.out i)
  rrDpTmp : ∀ i, property (frontEnd.rrDp.tmp i)

theorem FrontEnd.Carries.next {frontEnd : FrontEnd}
    (carries : frontEnd.Carries property) (inherited : Inherited property)
    (decoded : ∀ i, property (frontEnd.idUopsOut i)) (recover : Bool)
    (input : FrontEndInput) :
    (frontEnd.next recover input).Carries property := by
  have nothing : ∀ i : Fin 4, property (noUops i) := fun _ => inherited.zero
  have renamed : ∀ i, property (frontEnd.rrUopsOut recover input i) := by
    intro i
    unfold FrontEnd.rrUopsOut Rat.uopOut
    split
    · exact inherited.zero
    · split
      · exact inherited.renamed _ _ (carries.idRrOut i)
      · exact inherited.zero
  obtain ⟨idRrOut, idRrTmp⟩ := SkidBuffer.next_all
    (fun uops : Fin 4 → MicroOp => ∀ i, property (uops i))
    nothing carries.idRrTmp decoded
    (input.reset || input.clear) (frontEnd.rrFull input)
  obtain ⟨rrDpOut, rrDpTmp⟩ := SkidBuffer.next_all
    (fun uops : Fin 4 → MicroOp => ∀ i, property (uops i))
    nothing carries.rrDpTmp renamed
    (input.reset || input.clear) (FrontEnd.cmFull input)
  exact ⟨idRrOut, idRrTmp, rrDpOut, rrDpTmp⟩

/-- What the reorder buffer hands on are the uops it stores. -/
theorem Rob.uopOut_inherits (inherited : Inherited property) (rob : Rob)
    (uopComplete : Fin 6 → MicroOp) {uopIn : Fin 4 → MicroOp}
    (incoming : ∀ i, property (uopIn i)) (i : Fin 4) :
    property ((rob.outputs uopComplete uopIn).uopOut i) := by
  change property ((rob.inserted uopComplete uopIn).uopOut i)
  cases runs : (rob.retired uopComplete).recover with
  | true =>
      unfold Rob.inserted Rob.insert
      rw [if_pos runs]
      exact inherited.zero
  | false =>
      refine Rob.insert_rule runs
        (fun _ (state : Rob.Insertion) => ∀ i, property (state.uopOut i))
        (fun _ => inherited.zero) ?_ ?_ ?_ i
      · exact fun _ _ handed _ => handed
      · exact fun _ _ handed _ => handed
      · intro lane state index handed _ _ _ i
        unfold Rob.Insertion.storing
        by_cases here : i = lane
        · subst here
          simp only [Function.update_self]
          rw [Rob.entry]
          split
          · rename_i inside
            rw [Rob.store, if_pos inside, Function.update_self]
            exact inherited.indexed _ _ (incoming i)
          · exact inherited.zero
        · simp only [Function.update_of_ne here]
          exact handed i

/-! ## The back end -/

section Queues

theorem dispatchTo_inherits (zero : property 0) (code : IqCode)
    {group : Fin 4 → MicroOp} (incoming : ∀ i, property (group i))
    (i : Fin 4) : property (dispatchTo code group i) := by
  unfold dispatchTo
  split
  · exact incoming _
  · exact zero

theorem IssueQueueInt.next_inherits (zero : property 0)
    {queue : IssueQueueInt} (held : ∀ k, property (queue.slots k))
    {uopIn : Fin 4 → MicroOp} (incoming : ∀ i, property (uopIn i))
    (loadEn : Bool) (busy : BusyPorts 32) (reset clearEn : Bool)
    (k : Fin 32) :
    property ((queue.next uopIn loadEn busy reset clearEn).slots k) := by
  unfold IssueQueueInt.next
  simp only
  split
  · exact zero
  · split
    · rename_i loads
      have loaded : (queue.slotInputs uopIn).load k = true := by
        revert loads
        unfold IssueQueueInt.loads
        cases (queue.slotInputs uopIn).load k <;> simp
      obtain ⟨i, -, same⟩ := slotInputs_from queue uopIn loaded
      rw [same]
      exact incoming i
    · exact held k

theorem IssueQueueInt.uopOut_inherits (zero : property 0)
    {queue : IssueQueueInt} (held : ∀ k, property (queue.slots k))
    (busy : BusyPorts 32) (i : Fin 3) :
    property (queue.uopOut busy i) := by
  unfold IssueQueueInt.uopOut
  split
  · exact held _
  · exact zero

variable {queue : IssueQueueMem} (held : ∀ k, property (queue.slots k).uop)

include held

theorem IssueQueueMem.uopToIssue_inherits (zero : property 0) (index : Nat) :
    property (queue.uopToIssue index) := by
  unfold IssueQueueMem.uopToIssue
  split
  · exact held _
  · exact zero

theorem IssueQueueMem.next_inherits (zero : property 0)
    {uopIn : Fin 4 → MicroOp} (incoming : ∀ i, property (uopIn i))
    (busy : BusyPorts 16) (reset clearEn loadEn : Bool) (k : Fin 16) :
    property
      ((queue.next busy uopIn reset clearEn loadEn).slots k).uop := by
  have entering : ∀ k, property ((queue.slotInputs busy uopIn).uopToSlot k) := by
    unfold IssueQueueMem.slotInputs
    refine forEach_rule
      (fun _ (inputs : SlotInputs) => ∀ k, property (inputs.uopToSlot k))
      (fun _ => zero) ?_
    intro i inputs sofar k
    dsimp only
    split
    · rename_i within
      by_cases here : k = ⟨_, within⟩
      · rw [here]
        simp only [Function.update_self]
        exact incoming i
      · simp only [Function.update_of_ne here]
        exact sofar k
    · exact sofar k
  change property (IssueSlotMem.next _ _ _ _ _).uop
  unfold IssueSlotMem.next
  split
  · exact zero
  · split
    · exact entering k
    · exact uopToIssue_inherits held zero _

theorem IssueQueueMem.uopOut_inherits (zero : property 0)
    (busy : BusyPorts 16) : property (queue.uopOut busy) := by
  unfold IssueQueueMem.uopOut IssueQueueMem.issue
  refine forEach_rule
    (fun _ (issued : MicroOp × BitVec 5) => property issued.1) zero ?_
  intro j issued sofar
  split
  · exact uopToIssue_inherits held zero _
  · exact sofar

end Queues

/-- The uops of a value of the DP~IS registers. -/
def DpIs.Each (property : MicroOp → Prop)
    (bundles : (Fin 4 → MicroOp) × (Fin 4 → MicroOp)) : Prop :=
  (∀ i, property (bundles.1 i)) ∧ ∀ i, property (bundles.2 i)

/-- The registers from dispatch to write-back. -/
structure BackEnd.Carries (property : MicroOp → Prop) (backEnd : BackEnd) :
    Prop where
  dpIsOut : DpIs.Each property backEnd.dpIs.out
  dpIsTmp : DpIs.Each property backEnd.dpIs.tmp
  iqInt : ∀ k, property (backEnd.iqInt.slots k)
  iqMem : ∀ k, property (backEnd.iqMem.slots k).uop
  rfIntUopIn : ∀ way, property (backEnd.rfIntUopIn way)
  exUopIn : ∀ way, property (backEnd.exUopIn way)
  pipe0 : property backEnd.pipe0.uopOut
  pipe1 : property backEnd.pipe1.uopOut
  pipe2 : property backEnd.pipe2.uopReg
  pipe3 : property backEnd.pipe3.uopReg

theorem Pipe01.next_inherits (inherited : Inherited property)
    {uop : MicroOp} (incoming : property uop) (reset clear : Bool)
    (in1 in2 : Word) :
    property (Pipe01.next reset clear uop in1 in2).uopOut := by
  unfold Pipe01.next Pipe01.uopNext
  simp only
  split
  · exact inherited.zero
  · split
    · exact inherited.resolved _ _ _ incoming
    · exact incoming

theorem Pipe2.next_inherits (zero : property 0) {pipe : Pipe2}
    (held : property pipe.uopReg) {uop : MicroOp} (incoming : property uop)
    (reset clear : Bool) (in1 in2 : Word) :
    property (pipe.next reset clear uop in1 in2).uopReg := by
  unfold Pipe2.next
  simp only
  split
  · exact zero
  · split
    · exact incoming
    · exact held

theorem Pipe3.next_inherits (zero : property 0) {pipe : Pipe3}
    (held : property pipe.uopReg) {uop : MicroOp} (incoming : property uop)
    (reset clear : Bool) (in1 in2 : Word) (dataValid : Bool) :
    property (pipe.next reset clear uop in1 in2 dataValid).uopReg := by
  unfold Pipe3.next
  simp only
  split
  · exact zero
  · split
    · exact incoming
    · split
      · exact zero
      · exact held

namespace BackEnd.Carries

variable {backEnd : BackEnd} (carries : backEnd.Carries property)

include carries

theorem isUopOut (zero : property 0) (input : BackEndInput) (way : Fin 4) :
    property (backEnd.isUopOut input way) := by
  have int := IssueQueueInt.uopOut_inherits zero carries.iqInt
    (backEnd.intBusy input)
  match way with
  | 0 => exact int 0
  | 1 => exact int 1
  | 2 => exact int 2
  | 3 => exact IssueQueueMem.uopOut_inherits carries.iqMem zero _

theorem exUopOut (zero : property 0) (way : Fin 4) :
    property (backEnd.exUopOut way) := by
  match way with
  | 0 => exact carries.pipe0
  | 1 => exact carries.pipe1
  | 2 =>
      change property (if backEnd.pipe2.busy then 0 else _)
      split
      · exact zero
      · exact carries.pipe2
  | 3 => exact carries.pipe3

theorem wbUops (zero : property 0) (lane : Fin 6) :
    property (backEnd.wbUops lane) := by
  unfold BackEnd.wbUops
  split
  · exact carries.exUopOut zero _
  · exact zero

theorem next (inherited : Inherited property) {input : BackEndInput}
    (dispatched : ∀ i, property (input.dpUopsIn i)) :
    (backEnd.next input).Carries property := by
  have zero := inherited.zero
  have nothing : DpIs.Each property DpIs.empty :=
    ⟨fun _ => zero, fun _ => zero⟩
  have entering : DpIs.Each property
      (uopToInt input.dpUopsIn, uopToMem input.dpUopsIn) :=
    ⟨dispatchTo_inherits zero .int dispatched,
      dispatchTo_inherits zero .mem dispatched⟩
  obtain ⟨dpIsOut, dpIsTmp⟩ := SkidBuffer.next_all (DpIs.Each property)
    nothing carries.dpIsTmp entering (input.reset || input.clear)
    (backEnd.iqFull input)
  refine
    { dpIsOut := dpIsOut, dpIsTmp := dpIsTmp
      iqInt := IssueQueueInt.next_inherits zero carries.iqInt
        carries.dpIsOut.1 _ _ _ _
      iqMem := IssueQueueMem.next_inherits carries.iqMem zero
        carries.dpIsOut.2 _ _ _ _
      rfIntUopIn := ?_, exUopIn := ?_
      pipe0 := Pipe01.next_inherits inherited (carries.exUopIn 0) _ _ _ _
      pipe1 := Pipe01.next_inherits inherited (carries.exUopIn 1) _ _ _ _
      pipe2 := Pipe2.next_inherits zero carries.pipe2 (carries.exUopIn 2)
        _ _ _ _
      pipe3 := Pipe3.next_inherits zero carries.pipe3 (carries.exUopIn 3)
        _ _ _ _ _ }
  · intro way
    change property ((if input.reset || input.clear then noUops else _) way)
    split
    · exact zero
    · exact carries.isUopOut zero input way
  · intro way
    change property ((if input.reset || input.clear then noUops else _) way)
    split
    · exact zero
    · exact carries.rfIntUopIn way

end BackEnd.Carries

/-! ## The core -/

/-- Every register of the core that holds a uop on its way to retirement,
apart from the entries of the reorder buffer. -/
structure Core.Carries (property : MicroOp → Prop) (core : Core) :
    Prop where
  frontEnd : core.frontEnd.Carries property
  backEnd : core.backEnd.Carries property
  cmUopsComplete : ∀ lane, property (core.cmUopsComplete lane)

/-- The stage registers and the memory queue are empty. -/
structure Core.Flushed (core : Core) : Prop where
  idRr : core.frontEnd.idRr = .resetState noUops
  rrDp : core.frontEnd.rrDp = .resetState noUops
  dpIs : core.backEnd.dpIs = DpIs.resetState
  iqMem : core.backEnd.iqMem = IssueQueueMem.resetState
  rfIntUopIn : core.backEnd.rfIntUopIn = noUops
  exUopIn : core.backEnd.exUopIn = noUops
  cmUopsComplete : core.cmUopsComplete = noUops

theorem Core.flushed_next (core : Core) (input : CoreInput)
    (flush : (input.reset || core.clear) = true) :
    (core.next input).Flushed :=
  { idRr := if_pos flush, rrDp := if_pos flush, dpIs := if_pos flush
    iqMem := IssueQueueMem.next_of_flush _ _ _ _ flush
    rfIntUopIn := if_pos flush, exUopIn := if_pos flush
    cmUopsComplete := if_pos flush }

namespace Core.Carries

variable {core : Core}

theorem next (carries : core.Carries property)
    (inherited : Inherited property)
    (decoded : ∀ i, property (core.frontEnd.idUopsOut i))
    (input : CoreInput) : (core.next input).Carries property := by
  refine ⟨carries.frontEnd.next inherited decoded _ _, ?_, ?_⟩
  · refine carries.backEnd.next inherited fun i => ?_
    exact Rob.uopOut_inherits inherited _ _ carries.frontEnd.rrDpOut i
  · intro lane
    change property
      ((if input.reset || core.clear then noUops else _) lane)
    split
    · exact inherited.zero
    · exact carries.backEnd.wbUops inherited.zero lane

theorem mono (carries : core.Carries property)
    {weaker : MicroOp → Prop} (weaken : ∀ uop, property uop → weaker uop) :
    core.Carries weaker := by
  obtain ⟨front, back, complete⟩ := carries
  exact
    { frontEnd :=
        { idRrOut := fun i => weaken _ (front.idRrOut i)
          idRrTmp := fun i => weaken _ (front.idRrTmp i)
          rrDpOut := fun i => weaken _ (front.rrDpOut i)
          rrDpTmp := fun i => weaken _ (front.rrDpTmp i) }
      backEnd :=
        { dpIsOut := ⟨fun i => weaken _ (back.dpIsOut.1 i),
            fun i => weaken _ (back.dpIsOut.2 i)⟩
          dpIsTmp := ⟨fun i => weaken _ (back.dpIsTmp.1 i),
            fun i => weaken _ (back.dpIsTmp.2 i)⟩
          iqInt := fun k => weaken _ (back.iqInt k)
          iqMem := fun k => weaken _ (back.iqMem k)
          rfIntUopIn := fun way => weaken _ (back.rfIntUopIn way)
          exUopIn := fun way => weaken _ (back.exUopIn way)
          pipe0 := weaken _ back.pipe0
          pipe1 := weaken _ back.pipe1
          pipe2 := weaken _ back.pipe2
          pipe3 := weaken _ back.pipe3 }
      cmUopsComplete := fun lane => weaken _ (complete lane) }

theorem of_flush (core : Core) (input : CoreInput)
    (flush : (input.reset || core.clear) = true) :
    (core.next input).Carries (fun uop => uop = 0) := by
  obtain ⟨idRr, rrDp, dpIs, iqMem, rf, ex, complete⟩ :=
    core.flushed_next input flush
  refine ⟨⟨?_, ?_, ?_, ?_⟩, ?_, ?_⟩
  · exact idRr ▸ fun _ => rfl
  · exact idRr ▸ fun _ => rfl
  · exact rrDp ▸ fun _ => rfl
  · exact rrDp ▸ fun _ => rfl
  · refine
      { dpIsOut := dpIs ▸ ⟨fun _ => rfl, fun _ => rfl⟩
        dpIsTmp := dpIs ▸ ⟨fun _ => rfl, fun _ => rfl⟩
        iqInt := fun k => if_pos ?_
        iqMem := iqMem ▸ fun _ => rfl
        rfIntUopIn := rf ▸ fun _ => rfl
        exUopIn := ex ▸ fun _ => rfl
        pipe0 := if_pos flush, pipe1 := if_pos flush
        pipe2 := if_pos flush, pipe3 := if_pos flush }
    change (input.reset || (_ || core.clear)) = true
    revert flush
    cases input.reset <;> cases core.clear <;> simp
  · exact complete ▸ fun _ => rfl

end Core.Carries

end Ria
