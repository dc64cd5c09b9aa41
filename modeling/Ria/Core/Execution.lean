import Ria.Core.Effects
import Ria.Core.Numbering

/-!
# Write-backs in program order

Every uop in the back end has a number in the history, and in the cycle of
its write-back what it does is recorded under this number.  The record of a
uop is there when the reorder buffer hears of it, and never before.
-/

namespace Ria

open Hdl

@[simp] theorem MicroOp.perform_identity (uop : MicroOp) :
    uop.identity.perform = uop.perform := rfl

/-- The core with its history and what its uops have done -/
structure ExecutionSystem where
  history : HistorySystem
  performed : Nat → Option Performed

namespace ExecutionSystem

section Signals

variable (system : ExecutionSystem) (input : CoreInput)

/-- The way that writes back the uop with the given number -/
def writing (number : Nat) : Option (Fin 4) :=
  (List.finRange 4).find? fun way =>
    (system.history.core.backEnd.exUopOut way).valid &&
      system.history.number (system.history.core.backEnd.exUopOut way) ==
        number

def recorded (number : Nat) : Option Performed :=
  match system.writing number with
  | some way =>
      some (system.history.core.backEnd.performed
        (system.history.core.backEndInput input) way)
  | none => system.performed number

/-- A recovery keeps the records of the uops that have retired. -/
def next : ExecutionSystem :=
  { history := system.history.next input
    performed := fun number =>
      if system.history.core.cmRecover then
        if number < (system.history.next input).entered then
          system.performed number
        else none
      else system.recorded input number }

end Signals

def Start (system : ExecutionSystem) : Prop :=
  system.history.Start ∧ system.performed = fun _ => none

def Orderly (system : ExecutionSystem) (input : CoreInput) : Prop :=
  system.history.Orderly input

theorem history_run {system : ExecutionSystem}
    (run : Run Start next Orderly system) :
    Run HistorySystem.Start HistorySystem.next HistorySystem.Orderly
      system.history := by
  induction run with
  | start started => exact .start started.1
  | step input _ orderly induction => exact .step input induction orderly

/-- The uop has been performed, with this outcome. -/
def Knows (system : ExecutionSystem) (number : Nat) (uop : MicroOp) : Prop :=
  ∃ performed, system.performed number = some performed ∧
    performed.effect.outcome = uop.outcome

/-- The records are those of the uops that have left the back end. -/
structure Recording (system : ExecutionSystem) : Prop where
  unperformed : ∀ uop ∈ system.history.core.backEnd.inFlight,
    system.performed (system.history.number uop) = none
  beyond : ∀ number, system.history.entered ≤ number →
    system.performed number = none
  completing : ∀ lane, (system.history.core.cmUopsComplete lane).valid = true →
    system.Knows (system.history.number
        (system.history.core.cmUopsComplete lane))
      (system.history.core.cmUopsComplete lane)
  completed : ∀ number uop, system.history.log.completion number = some uop →
    system.Knows (system.history.earlier.length + number) uop
  retired : ∀ number uop, system.history.retired[number]? = some uop →
    system.Knows number uop

section Cycle

variable {system : ExecutionSystem} {input : CoreInput} {number : Nat}
  {way : Fin 4}

theorem writing_eq_some (found : system.writing number = some way) :
    (system.history.core.backEnd.exUopOut way).valid = true ∧
      system.history.number (system.history.core.backEnd.exUopOut way) =
        number := by
  have here := List.find?_some found
  rw [Bool.and_eq_true, beq_iff_eq] at here
  exact here

theorem writing_of_valid (following : system.history.Following)
    (valid : (system.history.core.backEnd.exUopOut way).valid = true) :
    system.writing (system.history.number
      (system.history.core.backEnd.exUopOut way)) = some way := by
  cases found : system.writing (system.history.number
      (system.history.core.backEnd.exUopOut way)) with
  | some other =>
      rcases writing_eq_some found with ⟨active, same⟩
      rw [following.way_of_number active valid same]
  | none =>
      have nobody := List.find?_eq_none.mp found way (List.mem_finRange way)
      simp [valid] at nobody

theorem writing_eq_none (nobody : ∀ way,
    (system.history.core.backEnd.exUopOut way).valid = true →
      system.history.number (system.history.core.backEnd.exUopOut way) ≠
        number) : system.writing number = none := by
  cases found : system.writing number with
  | none => rfl
  | some way =>
      rcases writing_eq_some found with ⟨active, same⟩
      exact absurd same (nobody way active)

theorem performed_of_runs (runs : system.history.core.cmRecover = false)
    (number : Nat) :
    (system.next input).performed number = system.recorded input number :=
  if_neg (by rw [runs]; exact Bool.false_ne_true)

theorem performed_of_recover
    (recovers : system.history.core.cmRecover = true) (number : Nat) :
    (system.next input).performed number =
      if number < (system.history.next input).entered then
        system.performed number
      else none :=
  if_pos recovers

namespace Recording

variable (recording : Recording system)

include recording

theorem writing_of_performed {performed : Performed}
    (known : system.performed number = some performed) :
    system.writing number = none := by
  refine writing_eq_none fun way active same => ?_
  have missing := recording.unperformed _
    (HistorySystem.mem_inFlight_of_wb active)
  rw [same, known] at missing
  cases missing

/-- What is recorded stays. -/
theorem performed_next {performed : Performed}
    (known : system.performed number = some performed)
    (inside : number < (system.history.next input).entered) :
    (system.next input).performed number = some performed := by
  cases recovers : system.history.core.cmRecover with
  | true => rwa [performed_of_recover recovers, if_pos inside]
  | false =>
      rw [performed_of_runs recovers, recorded,
        recording.writing_of_performed known]
      exact known

theorem knows_next {uop : MicroOp} (knows : system.Knows number uop)
    (inside : number < (system.history.next input).entered) :
    (system.next input).Knows number uop := by
  rcases knows with ⟨performed, known, same⟩
  exact ⟨performed, recording.performed_next known inside, same⟩

theorem knows_completed {uop : MicroOp}
    (known : system.history.log.completed system.history.core.robInput
      number = some uop) :
    system.Knows (system.history.earlier.length + number) uop := by
  rcases completeAll_cases system.history.log.retired.length
    system.history.log.completion
    (List.ofFn system.history.core.cmUopsComplete) number with
    before | ⟨other, among, valid, owns, completes⟩
  · exact recording.completed number uop (before.symm.trans known)
  · rcases (List.mem_ofFn' _ _).mp among with ⟨lane, rfl⟩
    obtain rfl := Option.some.inj (completes.symm.trans known)
    rw [← owns]
    exact recording.completing lane valid

/-- What leaves the reorder buffer has been performed. -/
theorem leaving (returning : system.history.commit.Returning)
    (resolved : system.history.core.BranchesResolved) {uop : MicroOp}
    (found : (system.history.retired ++
      validUops system.history.core.cmUopRetire)[number]? = some uop) :
    system.Knows number uop := by
  by_cases old : number < system.history.retired.length
  · rw [List.getElem?_append_left old] at found
    exact recording.retired number uop found
  · have position := Nat.le_of_not_lt old
    have leaves : validUops system.history.core.cmUopRetire =
        system.history.log.turn system.history.core.robInput :=
      returning.leaving_eq resolved
    rw [List.getElem?_append_right position, leaves] at found
    rcases due_getElem found with ⟨completion, known, rfl⟩
    have whole : system.history.retired.length =
        system.history.earlier.length + system.history.log.retired.length :=
      List.length_append
    have place : system.history.earlier.length +
        (system.history.log.retired.length +
          (number - system.history.retired.length)) = number := by omega
    have knows := recording.knows_completed known
    rw [place] at knows
    exact knows

theorem retired_next (running : system.history.Running input)
    {uop : MicroOp}
    (found : (system.history.next input).retired[number]? = some uop) :
    (system.next input).Knows number uop := by
  have within := (List.getElem?_eq_some_iff.mp found).1
  have short := HistorySystem.retired_le _ running.after.returning
  rw [HistorySystem.retired_next] at found
  exact recording.knows_next (recording.leaving running.following.returning
    running.resolved found) (within.trans_le short)

variable (running : system.history.Running input)
  (runs : system.history.core.cmRecover = false)

include running runs

theorem beyond_next (beyond : (system.history.next input).entered ≤ number) :
    (system.next input).performed number = none := by
  have more := running.entered runs
  have nobody : system.writing number = none := by
    refine writing_eq_none fun way active same => ?_
    have held := running.following.inFlight
      (HistorySystem.mem_inFlight_of_wb active)
    have inside := held.inside
    omega
  rw [performed_of_runs runs, recorded, nobody]
  exact recording.beyond number (by omega)

theorem unperformed_next {uop : MicroOp}
    (member : uop ∈ (system.history.next input).core.backEnd.inFlight) :
    (system.next input).performed ((system.history.next input).number uop) =
      none := by
  have flowing := running.following.returning.flowing
  rcases BackEnd.mem_inFlight_next flowing running.orderly.running runs
    running.orderly.dataValid member with
    ⟨before, waits, same⟩ | ⟨i, valid, same⟩
  · have held := HistorySystem.mem_inFlight_of_unexecuted waits
    have nobody : system.writing (system.history.number before) = none :=
      writing_eq_none fun way active equal =>
        running.following.number_ne waits active equal.symm
    rw [HistorySystem.number_congr same, running.number runs held,
      performed_of_runs runs, recorded, nobody]
    exact recording.unperformed before held
  · have nobody : system.writing (system.history.entered +
        validBefore system.history.core.robUopsIn i.val) = none := by
      refine writing_eq_none fun way active equal => ?_
      have held := running.following.inFlight
        (HistorySystem.mem_inFlight_of_wb active)
      have inside := held.inside
      omega
    have number : (system.history.next input).number
        (system.history.core.dpUopsIn i) = _ :=
      running.number_dispatched runs valid
    rw [HistorySystem.number_congr same]
    change (system.next input).performed ((system.history.next input).number
      (system.history.core.dpUopsIn i)) = none
    rw [number, performed_of_runs runs, recorded, nobody]
    exact recording.beyond _ (Nat.le_add_right _ _)

omit recording in
theorem completing_next {lane : Fin 6}
    (valid : ((system.history.next input).core.cmUopsComplete lane).valid =
      true) :
    (system.next input).Knows ((system.history.next input).number
        ((system.history.next input).core.cmUopsComplete lane))
      ((system.history.next input).core.cmUopsComplete lane) := by
  have clear : system.history.core.clear = false := runs
  have complete : (system.history.next input).core.cmUopsComplete =
      system.history.core.backEnd.wbUops := by
    change (if input.reset || system.history.core.clear then noUops else _) = _
    rw [running.orderly.running, clear]
    rfl
  rw [complete] at valid ⊢
  unfold BackEnd.wbUops at valid ⊢
  split at valid
  · rename_i way
    simp only [way, dif_pos]
    have held := HistorySystem.mem_inFlight_of_wb valid
    rw [running.number runs held]
    refine ⟨system.history.core.backEnd.performed
      (system.history.core.backEndInput input) ⟨lane.val, way⟩, ?_, rfl⟩
    rw [performed_of_runs runs, recorded,
      writing_of_valid running.following valid]
  · cases valid

theorem completed_next {uop : MicroOp}
    (known : (system.history.next input).log.completion number = some uop) :
    (system.next input).Knows
      ((system.history.next input).earlier.length + number) uop := by
  have returning := running.following.returning
  have onward := running.onward runs
  have recorded := returning.recorded running.resolved
  rw [onward.completion] at known
  rw [HistorySystem.earlier_next runs]
  refine recording.knows_next (recording.knows_completed known) ?_
  have below : number < system.history.log.inserted.length :=
    recorded.below number uop known
  have more := running.entered runs
  rw [more, HistorySystem.entered]
  omega

end Recording

theorem recording_of_start (start : Start system) : Recording system := by
  rcases start with ⟨⟨⟨before, input, reset, core⟩, log, earlier⟩, performed⟩
  have owed : system.history.core.owed = 0 := by
    rw [core]
    exact CommitSystem.owed_of_flush (Core.flush_of_reset reset)
  refine
    { unperformed := fun uop _ => ?_, beyond := fun number _ => ?_
      completing := fun lane valid => ?_
      completed := fun number uop known => ?_
      retired := fun number uop found => ?_ }
  · rw [performed]
  · rw [performed]
  · have among :=
      @CommitSystem.mem_owed_of_complete system.history.commit lane valid
    change _ ∈ system.history.core.owed at among
    rw [owed] at among
    exact absurd among (Multiset.notMem_zero _)
  · rw [log] at known
    cases known
  · rw [HistorySystem.retired, log, earlier] at found
    cases found

theorem Recording.next (recording : Recording system)
    (running : system.history.Running input) :
    Recording (system.next input) := by
  cases recovers : system.history.core.cmRecover with
  | true =>
      have flush := Core.flush_of_clear recovers input
      have owed : (system.history.core.next input).owed = 0 :=
        CommitSystem.owed_of_flush flush
      have log : (system.history.next input).log = .empty := if_pos recovers
      refine
        { unperformed := fun uop member => ?_, beyond := fun number past => ?_
          completing := fun lane valid => ?_
          completed := fun number uop known => ?_
          retired := fun number uop => recording.retired_next running }
      · have among : uop ∈ (system.history.core.next input).owed :=
          Multiset.mem_add.mpr (.inl member)
        rw [owed] at among
        exact absurd among (Multiset.notMem_zero uop)
      · rw [performed_of_recover recovers]
        exact if_neg (Nat.not_lt.mpr past)
      · have among := @CommitSystem.mem_owed_of_complete
          (system.history.next input).commit lane valid
        change _ ∈ (system.history.core.next input).owed at among
        rw [owed] at among
        exact absurd among (Multiset.notMem_zero _)
      · change (system.history.next input).log.completion number = _ at known
        rw [log] at known
        cases known
  | false =>
      exact
        { unperformed := fun uop => recording.unperformed_next running recovers
          beyond := fun number => recording.beyond_next running recovers
          completing := fun lane => completing_next running recovers
          completed := fun number uop =>
            recording.completed_next running recovers
          retired := fun number uop => recording.retired_next running }

end Cycle

end ExecutionSystem

end Ria
