import Ria.Common.Bundle
import Ria.Frontend.InstFetch
import Ria.Frontend.MispredictDetectors

/-!
# Redirects after a misprediction

The reorder buffer, `branch_pred` and `inst_fetch` as `core` wires them.  A
misprediction is signalled for one cycle, and in that cycle the pc takes the
target only if the instruction cache answers.
-/

namespace Ria

open Hdl

namespace Rob

/-- Every complete entry is fit. -/
def Settled (rob : Rob) : Prop :=
  ∀ index, (rob.opList index).complete = true → Fit (rob.opList index)

theorem settled_resetState : Settled resetState := by
  intro index complete
  cases complete

theorem insert_fit {opList : RobIndex → MicroOp} {done : Retirement}
    {uopIn : Fin 4 → MicroOp}
    (fit : ∀ index, (opList index).complete = true → Fit (opList index))
    (incoming : ∀ lane, (uopIn lane).complete = false) :
    ∀ index, ((insert opList done uopIn).opList index).complete = true →
      Fit ((insert opList done uopIn).opList index) := by
  cases runs : done.recover with
  | true =>
      unfold insert
      simp only [runs, if_true]
      exact fit
  | false =>
      refine insert_rule runs
        (fun _ (state : Insertion) => ∀ index,
          (state.opList index).complete = true → Fit (state.opList index))
        fit (fun _ _ sofar _ => sofar) (fun _ _ sofar _ => sofar) ?_
      intro lane state at_ sofar _ _ _ index
      change (store state.opList at_ _ index).complete = true →
        Fit (store state.opList at_ _ index)
      unfold store
      split
      · by_cases here : index = BitVec.ofNat 6 at_
        · rw [here, Function.update_self]
          intro complete
          exact absurd ((incoming lane).symm.trans complete)
            Bool.false_ne_true
        · rw [Function.update_of_ne here]
          exact sofar index
      · exact sofar index

theorem Settled.next {rob : Rob} (settled : rob.Settled)
    {uopComplete : Fin 6 → MicroOp} {uopIn : Fin 4 → MicroOp}
    (completing : ∀ lane, (uopComplete lane).valid = true →
      (uopComplete lane).ResolvedBranch)
    (incoming : ∀ lane, (uopIn lane).complete = false) (reset : Bool) :
    (rob.next reset uopComplete uopIn).Settled := by
  unfold Rob.next
  split
  · exact settled_resetState
  · exact insert_fit (complete_fit settled completing) incoming

theorem retire_of_empty {rob : Rob} (empty : rob.robSize = 0)
    (opList : RobIndex → MicroOp) :
    rob.retire opList =
      { robHeadNext := rob.robHead, robSizeNext := 0, recover := false
        uopRecover := 0, uopRetire := fun _ => 0 } := by
  refine retire_rule
    (fun _ state => state =
      { robHeadNext := rob.robHead, robSizeNext := 0, recover := false
        uopRecover := 0, uopRetire := fun _ => 0 })
    (fun state => state =
      { robHeadNext := rob.robHead, robSizeNext := 0, recover := false
        uopRecover := 0, uopRetire := fun _ => 0 }) ?_ ?_ ?_ ?_
  · rw [empty]
  · exact fun _ _ same _ => same
  · rintro i state uop rfl left
    exact absurd left (Nat.not_lt_zero _)
  · exact fun _ same => same

theorem insert_of_silent {opList : RobIndex → MicroOp} {done : Retirement}
    {uopIn : Fin 4 → MicroOp} (silent : ∀ lane, (uopIn lane).valid = false) :
    (insert opList done uopIn).robSizeNext = done.robSizeNext := by
  cases runs : done.recover with
  | true =>
      unfold insert
      simp only [runs, if_true]
  | false =>
      refine insert_rule runs
        (fun _ (state : Insertion) => state.robSizeNext = done.robSizeNext)
        rfl (fun _ _ same _ => same) (fun _ _ same _ => same) ?_
      intro lane state at_ _ _ valid
      exact absurd ((silent lane).symm.trans valid) Bool.false_ne_true

end Rob

/-! ## The system -/

structure RedirectInput where
  reset : Bool
  stall : Bool
  isValid : Fin 4 → Bool
  icacheData : BitVec 128
  icacheDataValid : Bool
  uopComplete : Fin 6 → MicroOp
  robUopsIn : Fin 4 → MicroOp

/-- The reorder buffer and `inst_fetch`; `redirected` says that no group has
been delivered since the last recovery. -/
structure RedirectSystem where
  cm : Rob
  if0 : InstFetch
  redirected : Bool

namespace RedirectSystem

/-- Any predictor and any pc, with the reorder buffer after reset. -/
def start (system : RedirectSystem) : Prop :=
  system.cm = .resetState ∧ system.redirected = false

section Signals

variable (system : RedirectSystem) (input : RedirectInput)

def outputs : Rob.Outputs :=
  system.cm.outputs input.uopComplete input.robUopsIn

/-- The inputs of `inst_fetch`; `uop_retire` comes from the reorder buffer. -/
def fetchInput : InstFetchInput :=
  { reset := input.reset
    stall := input.stall
    isValid := input.isValid
    uopRetire := (system.outputs input).uopRetire
    icacheData := input.icacheData
    icacheDataValid := input.icacheDataValid }

/-- A group reaches the IF~ID register. -/
def delivers : Bool :=
  !(input.reset || (system.outputs input).recover || input.stall) &&
    system.if0.instsOutValid (system.fetchInput input)

def next : RedirectSystem :=
  { cm := system.cm.next input.reset input.uopComplete input.robUopsIn
    if0 := system.if0.next (system.fetchInput input)
    redirected :=
      if input.reset then false
      else if (system.outputs input).recover then true
      else if system.delivers input then false
      else system.redirected }

end Signals

/-- Branches complete resolved, no uop arrives complete, and the stages
between fetch and the reorder buffer, which a recovery empties, send nothing
until a group is delivered to them. -/
structure Allowed (system : RedirectSystem) (input : RedirectInput) :
    Prop where
  completing : ∀ lane, (input.uopComplete lane).valid = true →
    (input.uopComplete lane).ResolvedBranch
  incoming : ∀ lane, (input.robUopsIn lane).complete = false
  silent : system.redirected = true →
    ∀ lane, (input.robUopsIn lane).valid = false

/-- Cycles after `first` in which no group is delivered. -/
inductive Waiting (first : RedirectSystem) : RedirectSystem → Prop where
  | refl : Waiting first first
  | step {system : RedirectSystem} (waiting : Waiting first system)
      (input : RedirectInput) (allowed : Allowed system input)
      (reset : input.reset = false)
      (waits : system.delivers input = false) :
      Waiting first (system.next input)

variable {system : RedirectSystem} {input : RedirectInput}

/-- Complete entries are fit, and after a recovery the buffer is empty. -/
structure Sound (system : RedirectSystem) : Prop where
  settled : system.cm.Settled
  empty : system.redirected = true → system.cm.robSize = 0

/-- What the agreement of the detectors says of a recovering cycle. -/
theorem Sound.recovers (sound : system.Sound) (allowed : Allowed system input)
    (reset : input.reset = false)
    (recovers : (system.outputs input).recover = true) :
    (system.next input).redirected = true ∧
      (system.next input).cm.robSize = 0 ∧
      (system.next input).if0.pc =
        if input.icacheDataValid then
          (system.outputs input).uopRecover.brAddr
        else system.if0.pc := by
  obtain ⟨agree, after⟩ := detectors_agree system.cm input.uopComplete
    input.robUopsIn system.if0.brPred system.if0.pc
    (system.if0.isBranch (system.fetchInput input)) input.isValid
    sound.settled allowed.completing
  obtain ⟨-, target, -, -, -, size⟩ := after recovers
  have redirects : system.if0.mispredict (system.fetchInput input) = true :=
    agree.trans recovers
  have valid : system.if0.instsOutValid (system.fetchInput input) =
      input.icacheDataValid := by
    rw [InstFetch.instsOutValid, redirects, Bool.or_true, Bool.true_and]
    rfl
  refine ⟨?_, ?_, ?_⟩
  · change (if input.reset then _ else _ : Bool) = true
    rw [reset, recovers]
    rfl
  · change (system.cm.next input.reset _ _).robSize = 0
    rw [reset]
    exact size
  · change (if input.reset then _ else if _ then _ else _ : Word) = _
    rw [reset, valid, if_neg Bool.false_ne_true]
    congr 1

theorem outputs_of_empty (input : RedirectInput)
    (empty : system.cm.robSize = 0) :
    (system.outputs input).recover = false ∧
      system.if0.mispredict (system.fetchInput input) = false := by
  have retired : system.cm.retired input.uopComplete = _ :=
    Rob.retire_of_empty empty _
  have bundle : (system.outputs input).uopRetire = fun _ => 0 := by
    change (system.cm.retired input.uopComplete).uopRetire = _
    rw [retired]
  constructor
  · change (system.cm.retired input.uopComplete).recover = false
    rw [retired]
  · refine (BranchPred.train_quiet _ _ ?_).1
    intro lane
    change BranchPred.Quiet ((system.outputs input).uopRetire lane)
    rw [bundle]
    exact Rob.quiet_zero

theorem waits (sound : system.Sound) (allowed : Allowed system input)
    (redirected : system.redirected = true) (reset : input.reset = false)
    (nothing : system.delivers input = false) :
    (system.next input).redirected = true ∧
      (system.next input).cm.robSize = 0 ∧
      (system.next input).if0.pc = system.if0.pc := by
  have empty := sound.empty redirected
  obtain ⟨runs, quiet⟩ := outputs_of_empty input empty
  have withheld : system.if0.instsOutValid (system.fetchInput input) =
      false := by
    have valid : system.if0.instsOutValid (system.fetchInput input) =
        (!input.stall && input.icacheDataValid) := by
      rw [InstFetch.instsOutValid, quiet, Bool.or_false, InstFetch.pcEnable]
      simp [fetchInput, reset]
    rw [delivers, runs, reset, valid] at nothing
    rw [valid]
    revert nothing
    cases input.stall <;> simp
  refine ⟨?_, ?_, ?_⟩
  · change (if input.reset then _ else if (system.outputs input).recover then
      _ else if system.delivers input then _ else _ : Bool) = true
    rw [reset, runs, nothing]
    exact redirected
  · change (system.cm.next input.reset _ _).robSize = 0
    rw [reset]
    change (Rob.insert _ _ input.robUopsIn).robSizeNext = 0
    rw [Rob.insert_of_silent (allowed.silent redirected), Rob.retired,
      Rob.retire_of_empty empty]
  · change (if input.reset then _ else if _ then _ else _ : Word) = _
    rw [reset, withheld]
    rfl

theorem Sound.next (sound : system.Sound) (allowed : Allowed system input) :
    (system.next input).Sound := by
  refine ⟨sound.settled.next allowed.completing allowed.incoming input.reset,
    ?_⟩
  intro redirected
  cases reset : input.reset with
  | true =>
      change (system.cm.next input.reset _ _).robSize = 0
      rw [reset]
      rfl
  | false =>
      cases recover : (system.outputs input).recover with
      | true => exact (sound.recovers allowed reset recover).2.1
      | false =>
          have kept : (if system.delivers input then false
              else system.redirected) = true := by
            change (if input.reset then _ else
              if (system.outputs input).recover then _ else _ : Bool) =
                true at redirected
            rw [reset, recover] at redirected
            exact redirected
          cases delivers : system.delivers input with
          | true =>
              rw [delivers] at kept
              cases kept
          | false =>
              rw [delivers] at kept
              exact (waits sound allowed kept reset delivers).2.1

theorem sound_of_run (run : Run start next Allowed system) :
    system.Sound := by
  refine run.invariant Sound ?_ ?_
  · rintro state ⟨cm, quiet⟩
    refine ⟨cm ▸ Rob.settled_resetState, ?_⟩
    intro redirected
    exact absurd (quiet.symm.trans redirected) Bool.false_ne_true
  · intro state input sound allowed
    exact sound.next allowed

/-- While no group is delivered the pc stays where the recovery put it. -/
theorem Waiting.pc {first later : RedirectSystem}
    (waiting : Waiting first later) (sound : first.Sound)
    (redirected : first.redirected = true) :
    later.Sound ∧ later.redirected = true ∧ later.if0.pc = first.if0.pc := by
  induction waiting with
  | refl => exact ⟨sound, redirected, rfl⟩
  | step waiting input allowed reset nothing induction =>
      obtain ⟨sofar, pending, same⟩ := induction
      obtain ⟨still, -, kept⟩ := waits sofar allowed pending reset nothing
      exact ⟨sofar.next allowed, still, kept.trans same⟩

/-- A cycle without a stall in which the cache answers. -/
def fetching : RedirectInput :=
  { reset := false, stall := false, isValid := fun _ => false
    icacheData := 0, icacheDataValid := true
    uopComplete := noUops, robUopsIn := noUops }

theorem fetching_allowed (system : RedirectSystem) :
    Allowed system fetching := by
  refine ⟨?_, fun _ => rfl, fun _ _ => rfl⟩
  intro lane valid
  cases valid

theorem delivers_fetching (empty : system.cm.robSize = 0) :
    system.delivers fetching = true := by
  have runs := (outputs_of_empty fetching empty).1
  unfold delivers
  rw [runs]
  rfl

/-- The next group delivered after a recovery starts at the target exactly
when the instruction cache answers in the cycle of the recovery, or the pc is
the target already. -/
theorem redirect_kept_iff (run : Run start next Allowed system)
    (allowed : Allowed system input) (reset : input.reset = false)
    (recovers : (system.outputs input).recover = true) :
    (∀ later laterInput, Waiting (system.next input) later →
        Allowed later laterInput → later.delivers laterInput = true →
        (later.if0.instsOut (later.fetchInput laterInput) 0 0).pc =
          (system.outputs input).uopRecover.brAddr) ↔
      input.icacheDataValid = true ∨
        system.if0.pc = (system.outputs input).uopRecover.brAddr := by
  have sound := sound_of_run run
  obtain ⟨redirected, empty, pc⟩ := sound.recovers allowed reset recovers
  have start : ∀ (fetch : InstFetch) (input : InstFetchInput),
      (fetch.instsOut input 0 0).pc = fetch.pc := by
    intro fetch input
    exact BitVec.add_zero fetch.pc
  constructor
  · intro redirects
    have soon := redirects _ fetching .refl (fetching_allowed _)
      (delivers_fetching empty)
    rw [start, pc] at soon
    cases answered : input.icacheDataValid with
    | true => exact .inl rfl
    | false =>
        rw [answered] at soon
        exact .inr soon
  · intro answered later laterInput waiting _ _
    obtain ⟨-, -, kept⟩ := waiting.pc (sound.next allowed) redirected
    rw [start, kept, pc]
    rcases answered with answers | already
    · rw [answers]
      rfl
    · rw [already, ite_self]

/-! ## A redirect that is lost -/

/-- `jal x1, 8` at address 0, predicted not taken. -/
def jalUop : MicroOp :=
  decode { (0 : FbEntry) with inst := 0x008000EF } true

/-- The `jal` enters the reorder buffer while the cache is silent. -/
def enterJal : RedirectInput :=
  { fetching with
    icacheDataValid := false
    robUopsIn := fun lane => if lane = 0 then jalUop else 0 }

/-- The `jal` completes. -/
def completeJal (icacheDataValid : Bool) : RedirectInput :=
  { fetching with
    icacheDataValid := icacheDataValid
    uopComplete := fun lane => if lane = 0 then branchUop jalUop 0 0 else 0 }

/-- The state in which it completes. -/
def jalHeld : RedirectSystem :=
  next { cm := .resetState, if0 := .resetState, redirected := false } enterJal

theorem jalHeld_run : Run start next Allowed jalHeld := by
  refine .step enterJal (.start ⟨rfl, rfl⟩) ⟨?_, ?_, ?_⟩
  · intro lane valid
    cases valid
  · decide
  · intro redirected
    cases redirected

theorem completeJal_allowed (icacheDataValid : Bool) :
    Allowed jalHeld (completeJal icacheDataValid) := by
  refine ⟨?_, fun _ => rfl, fun _ _ => rfl⟩
  intro lane valid
  change (if lane = 0 then _ else _ : MicroOp).ResolvedBranch
  by_cases first : lane = 0
  · rw [if_pos first]
    exact branchUop_resolved (decode_predicted _ _) 0 0
  · rw [if_neg first]
    exact fun branch => absurd rfl branch

/-- With a cache that answers, fetch goes on at the target of the `jal`. -/
theorem redirect_kept_jal :
    ((jalHeld.next (completeJal true)).if0.instsOut
        ((jalHeld.next (completeJal true)).fetchInput fetching) 0 0).pc =
      (jalHeld.outputs (completeJal true)).uopRecover.brAddr :=
  (redirect_kept_iff jalHeld_run (completeJal_allowed true) rfl
    (by decide)).mpr (.inl rfl) _ fetching .refl (fetching_allowed _)
    (by decide)

/-- With one that is silent in that cycle, fetch goes on at `0x1000`. -/
theorem redirect_lost_jal :
    ¬ ∀ (system : RedirectSystem) (input : RedirectInput),
      Run start next Allowed system → Allowed system input →
      input.reset = false → (system.outputs input).recover = true →
      ∀ later laterInput, Waiting (system.next input) later →
        Allowed later laterInput → later.delivers laterInput = true →
        (later.if0.instsOut (later.fetchInput laterInput) 0 0).pc =
          (system.outputs input).uopRecover.brAddr := by
  intro redirects
  have soon := redirects jalHeld (completeJal false) jalHeld_run
    (completeJal_allowed false) rfl (by decide) _ fetching .refl
    (fetching_allowed _) (by decide)
  revert soon
  decide

end RedirectSystem

end Ria
