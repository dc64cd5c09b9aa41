import Ria.Core.Carried
import Ria.Frontend.DecodedUop
import Ria.Frontend.RobRenewal

/-!
# Squash after a misprediction

A cycle in which the reorder buffer recovers empties the pipeline; one cycle
later rename has gone back to its committed state.  Everything that happens
afterwards is due to uops fetched after that cycle.
-/

namespace Ria

open Hdl

/-- No uop of decode goes to the multiplier or the divider. -/
def MicroOp.Emitted (uop : MicroOp) : Prop :=
  uop.fuCode ∉ [FuCode.imul, .idiv, .csr]

theorem inherited_emitted : Inherited MicroOp.Emitted := by
  refine ⟨?_, fun _ _ emitted => emitted, fun _ _ emitted => emitted,
    fun _ _ _ emitted => emitted⟩
  change FuCode.x ∉ _
  decide

/-- A uop that asks for anything has a tag from `first` on. -/
def MicroOp.Since (first : Nat) (uop : MicroOp) : Prop :=
  uop.valid = true ∨ uop.rdValid = true → first ≤ uop.tag

theorem inherited_since (first : Nat) : Inherited (MicroOp.Since first) := by
  refine ⟨?_, fun _ _ since => since, fun _ _ since => since,
    fun _ _ _ since => since⟩
  rintro (never | never) <;> cases never

theorem FreeList.comb_committed (list : FreeList)
    (ports : Fin 6 → RetirePort) (prfReq : Fin 4 → Bool) :
    (list.comb ports prfReq).next.prfRecover =
        (list.retireLanes ports).prfRecover ∧
      (list.comb ports prfReq).next.prfRecoverNum =
        (list.retireLanes ports).prfRecoverNum := by
  unfold FreeList.comb
  dsimp only
  split <;> exact ⟨rfl, rfl⟩

namespace Core

variable {core : Core} {input : CoreInput}

/-! ## What holds in every reachable state -/

structure Sound (core : Core) : Prop where
  emitted : core.Carries MicroOp.Emitted
  imulIdle : core.backEnd.pipe2.imul.valid = fun _ => false
  idivIdle : core.backEnd.pipe2.idiv.active = false
  presenting : core.backEnd.pipe3.port.dataWe = true →
    core.backEnd.pipe3.uopReg.valid = true

theorem emitted_idUopsOut (core : Core) (i : Fin 4) :
    (core.frontEnd.idUopsOut i).Emitted := by
  rcases decode_cases (core.frontEnd.idInstsIn i)
      (core.frontEnd.idInstsInValid i) with nothing | ⟨-, -, fuCode⟩
  · have same : core.frontEnd.idUopsOut i = 0 := nothing
    rw [same]
    exact inherited_emitted.zero
  · exact fuCode

theorem presenting_next {pipe : Pipe3} {reset clear dataValid : Bool}
    {uop : MicroOp} {in1 in2 : Word}
    (presenting : pipe.port.dataWe = true → pipe.uopReg.valid = true) :
    (pipe.next reset clear uop in1 in2 dataValid).port.dataWe = true →
      (pipe.next reset clear uop in1 in2 dataValid).uopReg.valid = true := by
  unfold Pipe3.next
  dsimp only
  split
  · exact fun never => absurd never Bool.false_ne_true
  · split
    · rename_i accepts
      intro _
      have accept := (Bool.and_eq_true_iff.mp accepts).2
      exact (Bool.and_eq_true_iff.mp accept).1
    · split
      · exact fun never => absurd never Bool.false_ne_true
      · exact presenting

theorem imulValid_next {imul : Imul} {reset : Bool} {uop : MicroOp}
    {in1 in2 : Word} (idle : imul.valid = fun _ => false)
    (emitted : uop.Emitted) :
    (imul.next reset uop in1 in2).valid = fun _ => false := by
  have other : (uop.valid && uop.fuCode == .imul) = false := by
    rw [Bool.and_eq_false_iff, beq_eq_false_iff_ne]
    exact .inr fun same => emitted (by simp [same])
  unfold Imul.next
  split
  · rfl
  · funext index
    simp only [shiftIn, other, idle, ite_self]

theorem idivActive_next {idiv : Divider} {reset : Bool} {uop : MicroOp}
    {in1 in2 : Word} (idle : idiv.active = false) (emitted : uop.Emitted) :
    (idiv.next reset (uop.valid && uop.fuCode == .idiv) in1 in2).active =
      false := by
  have other : (uop.valid && uop.fuCode == .idiv) = false := by
    rw [Bool.and_eq_false_iff, beq_eq_false_iff_ne]
    exact .inr fun same => emitted (by simp [same])
  unfold Divider.next
  rw [other, idle]
  cases reset <;> simp [idle]

theorem Sound.next (sound : core.Sound) (input : CoreInput) :
    (core.next input).Sound :=
  { emitted := sound.emitted.next inherited_emitted
      (emitted_idUopsOut core) input
    imulIdle := imulValid_next sound.imulIdle (sound.emitted.backEnd.exUopIn 2)
    idivIdle := idivActive_next sound.idivIdle
      (sound.emitted.backEnd.exUopIn 2)
    presenting := presenting_next sound.presenting }

theorem Start.sound (start : core.Start) : core.Sound := by
  obtain ⟨before, input, reset, rfl⟩ := start
  have flush : (input.reset || before.clear) = true := by
    rw [reset, Bool.true_or]
  refine
    { emitted := (Carries.of_flush before input flush).mono ?_
      imulIdle := ?_, idivIdle := ?_, presenting := ?_ }
  · rintro uop rfl
    exact inherited_emitted.zero
  · change (Imul.next _ input.reset _ _ _).valid = _
    rw [reset]
    rfl
  · change (Divider.next _ input.reset _ _ _).active = _
    rw [reset]
    rfl
  · have idle : (before.next input).backEnd.pipe3.port = Pipe3.idlePort :=
      if_pos flush
    rw [idle]
    exact fun never => absurd never Bool.false_ne_true

theorem sound_of_run (run : Run Start next (fun _ _ => True) core) :
    core.Sound :=
  run.invariant Sound (fun _ start => start.sound)
    fun _ input sound _ => sound.next input

/-! ## The cycle after the misprediction -/

/-- Nothing on its way to retirement is left.  The registers that pass the
retiring uops on to rename are not among these. -/
structure Squashed (core : Core) : Prop where
  idInsts : ∀ i, core.frontEnd.idInstsInValid i = false
  uops : core.Carries fun uop => uop.valid = false
  pipe2 : core.backEnd.pipe2.busy = false
  pipe3 : core.backEnd.pipe3.busy = false
  robSize : core.cm.robSize = 0
  scoreboard : ∀ prf, core.backEnd.sbInt prf = false
  freeCountInt : core.backEnd.iqInt.freeCountReg = 32
  freeCountMem : core.backEnd.iqMem.freeCountReg = 16
  tailMem : core.backEnd.iqMem.tailReg = 0
  rrStallPrev : core.frontEnd.idRr.stallPrev = false
  dpStallPrev : core.frontEnd.rrDp.stallPrev = false
  isStallPrev : core.backEnd.dpIs.stallPrev = false
  core2dcacheDataWe : core.backEnd.pipe3.port.dataWe = false

theorem robSize_of_recover (recover : core.cmRecover = true)
    (input : CoreInput) :
    (core.next input).cm.robHead = 0 ∧ (core.next input).cm.robSize = 0 := by
  change (Rob.next _ input.reset _ _).robHead = 0 ∧
    (Rob.next _ input.reset _ _).robSize = 0
  unfold Rob.next
  split
  · exact ⟨rfl, rfl⟩
  · obtain ⟨head, size⟩ := Rob.retire_of_recover recover
    refine ⟨head, ?_⟩
    rw [Rob.inserted_of_recover recover]
    exact size

theorem Sound.squashed (sound : core.Sound) (recover : core.cmRecover = true)
    (input : CoreInput) : (core.next input).Squashed := by
  have clear : core.clear = true := recover
  have flush : (input.reset || core.clear) = true :=
    flush_of_clear clear input
  have flushed := core.flushed_next input flush
  have port : (core.next input).backEnd.pipe3.port = Pipe3.idlePort :=
    if_pos flush
  have idInsts := idInsts_of_flush flush
  have after := sound.next input
  refine
    { idInsts := fun i => by rw [idInsts]
      uops := (Carries.of_flush core input flush).mono ?_
      pipe2 := ?_
      pipe3 := if_pos flush
      robSize := (robSize_of_recover recover input).2
      scoreboard := fun prf => ?_
      freeCountInt := if_pos flush
      freeCountMem := by rw [flushed.iqMem]; rfl
      tailMem := by rw [flushed.iqMem]; rfl
      rrStallPrev := by rw [flushed.idRr]; rfl
      dpStallPrev := by rw [flushed.rrDp]; rfl
      isStallPrev := by rw [flushed.dpIs]; rfl
      core2dcacheDataWe := by rw [port]; rfl }
  · rintro uop rfl
    rfl
  · rw [Pipe2.busy, Imul.busy, after.imulIdle, Divider.ok, after.idivIdle]
    rfl
  · have empty : (core.next input).backEnd.sbInt = fun _ => false :=
      if_pos flush
    rw [empty]

/-! ## Rename one cycle later -/

/-- The speculative state of rename is its committed one, which is that of
`before` with the given uops retired. -/
structure RatRestored (before : Rat) (uopRetire : Fin 6 → MicroOp)
    (after : Rat) : Prop where
  mpTb : after.mpTb = after.rRat
  arfValid : after.arfValid = after.arfRecover
  freeList : after.freeList.freeList = after.freeList.prfRecover
  freeNum : after.freeList.freeNum = after.freeList.prfRecoverNum
  committedMap : (after.rRat, after.arfRecover) =
    forEach 6 (fun i maps => MappingTable.retireMaps maps
      (uopRetire i).retirePort) (before.rRat, before.arfRecover)
  committedList : after.freeList.prfRecover =
    (before.freeList.retireLanes fun i =>
      (uopRetire i).retirePort).prfRecover
  committedNum : after.freeList.prfRecoverNum =
    (before.freeList.retireLanes fun i =>
      (uopRetire i).retirePort).prfRecoverNum

theorem ratRestored_of_recover (before : Rat) (uopRetire : Fin 6 → MicroOp)
    (uopIn : Fin 4 → MicroOp) :
    RatRestored before uopRetire
      (before.next false true uopRetire uopIn) := by
  obtain ⟨list, num⟩ := FreeList.comb_committed before.freeList
    (fun i => (uopRetire i).retirePort)
    (fun i => (uopIn i).renamePort.rdValid)
  exact
    { mpTb := rfl, arfValid := rfl, freeList := rfl, freeNum := rfl
      committedMap := rfl, committedList := list, committedNum := num }

/-! ## What happens afterwards -/

/-- The uops that do something in a cycle have tags from `first` on. -/
structure ActsSince (first : Nat) (core : Core) : Prop where
  writes : ∀ way, (core.backEnd.exUopOut way).rdValid = true →
    first ≤ (core.backEnd.exUopOut way).tag
  completes : ∀ lane, (core.cmUopsComplete lane).valid = true →
    first ≤ (core.cmUopsComplete lane).tag
  retires : ∀ lane, (core.cmUopRetire lane).valid = true →
    first ≤ (core.cmUopRetire lane).tag
  stores : core.backEnd.pipe3.port.dataWe = true →
    first ≤ core.backEnd.pipe3.uopReg.tag

/-- The uops in the core have tags from `first` on. -/
structure Renewed (first : Nat) (core : Core) : Prop where
  carries : core.Carries (MicroOp.Since first)
  fetched : ∀ i, core.frontEnd.idInstsInValid i = true →
    first ≤ (core.frontEnd.idInstsIn i).tag
  rob : Rob.Renewed (MicroOp.Since first) core.cm.opList
    (core.cm.robHead.toNat + core.cm.robSize.toNat)
  cycles : first ≤ 4 * core.cycles
  presenting : core.backEnd.pipe3.port.dataWe = true →
    core.backEnd.pipe3.uopReg.valid = true

namespace Renewed

variable {first : Nat} (renewed : core.Renewed first)

include renewed

theorem next (input : CoreInput) : (core.next input).Renewed first := by
  refine
    { carries := ?_, fetched := ?_, rob := ?_, cycles := ?_
      presenting := presenting_next renewed.presenting }
  · refine renewed.carries.next (inherited_since first) (fun i => ?_) input
    rcases decode_cases (core.frontEnd.idInstsIn i)
        (core.frontEnd.idInstsInValid i) with nothing | ⟨valid, tag, -⟩
    · have same : core.frontEnd.idUopsOut i = 0 := nothing
      rw [same]
      exact (inherited_since first).zero
    · intro _
      exact (renewed.fetched i valid).trans (le_of_eq tag.symm)
  · intro i
    change (if _ then fun _ => false else _ : Fin 4 → Bool) i = true →
      first ≤ ((if _ then fun _ => 0 else _ : Fin 4 → FbEntry) i).tag
    split
    · exact fun never => absurd never Bool.false_ne_true
    · intro _
      exact renewed.cycles.trans (Nat.le_add_right _ i.val)
  · exact Rob.renewed_next (inherited_since first).zero input.reset
      renewed.carries.cmUopsComplete
      (fun i _ => renewed.carries.frontEnd.rrDpOut i) renewed.rob
  · have cycles := renewed.cycles
    change first ≤ 4 * (core.cycles + 1)
    omega

theorem actsSince : core.ActsSince first := by
  have recorded := renewed.rob.complete renewed.carries.cmUopsComplete
  have retired := (Rob.retire_renewed (inherited_since first).zero recorded).1
  exact
    { writes := fun way asks =>
        renewed.carries.backEnd.exUopOut (inherited_since first).zero way
          (.inr asks)
      completes := fun lane valid =>
        renewed.carries.cmUopsComplete lane (.inl valid)
      retires := fun lane valid => retired lane (.inl valid)
      stores := fun we =>
        renewed.carries.backEnd.pipe3 (.inl (renewed.presenting we)) }

end Renewed

theorem Sound.renewed (sound : core.Sound) (recover : core.cmRecover = true)
    (input : CoreInput) :
    (core.next input).Renewed (4 * (core.cycles + 1)) := by
  have clear : core.clear = true := recover
  have flush : (input.reset || core.clear) = true :=
    flush_of_clear clear input
  obtain ⟨head, size⟩ := robSize_of_recover recover input
  refine
    { carries := (Carries.of_flush core input flush).mono ?_
      fetched := ?_, rob := ?_, cycles := Nat.le_refl _
      presenting := (sound.next input).presenting }
  · rintro uop rfl
    exact (inherited_since _).zero
  · intro i valid
    rw [(sound.squashed recover input).idInsts i] at valid
    cases valid
  · rw [head, size]
    exact .nothing _

/-- A misprediction squash is complete: the next cycle finds the pipeline
empty, the one after it finds rename back in its committed state, and only
uops fetched later than the misprediction do anything from then on. -/
theorem squash_is_complete
    (run : Run Start next (fun _ _ => True) core)
    (recover : core.cmRecover = true) (input : CoreInput) :
    (core.next input).Squashed ∧
      (input.reset = false → ∀ later : CoreInput, later.reset = false →
        RatRestored (core.next input).frontEnd.rr core.cmUopRetire
          ((core.next input).next later).frontEnd.rr) ∧
      (∀ i, (core.ifInstsOut input i).tag < 4 * (core.cycles + 1)) ∧
      ∀ after, Run (fun state => state = core.next input) next
        (fun _ _ => True) after →
          after.ActsSince (4 * (core.cycles + 1)) := by
  have sound := sound_of_run run
  refine ⟨sound.squashed recover input, ?_, ?_, ?_⟩
  · intro running later runningLater
    have recovering : (core.next input).recover = true := by
      change (if input.reset then false else core.cmRecover) = true
      rw [running, recover]
      rfl
    have retiring : (core.next input).uopRetire = core.cmUopRetire := by
      change (if input.reset then noUops else core.cmUopRetire) = _
      rw [running]
      rfl
    change RatRestored _ _ (Rat.next _ later.reset (core.next input).recover
      (core.next input).uopRetire _)
    rw [runningLater, recovering, retiring]
    exact ratRestored_of_recover _ _ _
  · intro i
    change 4 * core.cycles + i.val < _
    omega
  · intro after afterwards
    have renewed := afterwards.invariant (Renewed (4 * (core.cycles + 1)))
      (by rintro _ rfl; exact sound.renewed recover input)
      (fun _ input renewed _ => renewed.next input)
    exact renewed.actsSince

/-- A cycle that fetches `jal x0, 8` and three `addi x0, x0, 0`. -/
def fetchJal (reset : Bool) : CoreInput :=
  { reset := reset, isValid := fun _ => false
    icache2coreData := 0x0000001300000013000000130080006f
    icache2coreDataValid := true
    dcache2coreData := 0, dcache2coreDataValid := true }

/-- After a reset and `cycles` such cycles. -/
def fetched : Nat → Core
  | 0 =>
      Core.next
        { if0 := .resetState, frontEnd := .resetState, cm := .resetState
          backEnd := .zeros, cmUopsComplete := noUops, recover := false
          uopRecover := 0, uopRetire := noUops
          storeRetire := fun _ => false, cycles := 0 } (fetchJal true)
  | cycles + 1 => (fetched cycles).next (fetchJal false)

/-- The first `jal`, predicted not taken, retires in the tenth cycle. -/
theorem squash_is_complete_jal :
    (fetched 9).cmRecover = true ∧ (fetched 10).Squashed := by
  have run : ∀ cycles, Run Start next (fun _ _ => True) (fetched cycles) := by
    intro cycles
    induction cycles with
    | zero => exact .start ⟨_, _, rfl, rfl⟩
    | succ cycles induction => exact .step _ induction trivial
  have recover : (fetched 9).cmRecover = true := by decide +kernel
  exact ⟨recover, (squash_is_complete (run 9) recover (fetchJal false)).1⟩

end Core

end Ria
