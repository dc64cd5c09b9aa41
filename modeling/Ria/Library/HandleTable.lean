import Mathlib.Data.List.Count
import Mathlib.Logic.Function.Basic
import Mathlib.Tactic.Common

/-!
# Handles

A table of handles puts a resource behind a number: opening takes the least
number that is free, and closing frees it.  As long as no resource is opened
that is already behind a handle, no two handles ever share one, and a resource
is behind a handle exactly when it was opened once more than it was closed.
-/

namespace HandleTable

variable {α β γ : Type}

/-- The resource behind each number -/
abbrev Handles (α : Type) := Nat → Option α

inductive Event (β : Type) where
  | opened (what : β)
  | closed (what : β)
  deriving DecidableEq

def Event.map (f : β → γ) : Event β → Event γ
  | .opened what => .opened (f what)
  | .closed what => .closed (f what)

/-- No two handles share a resource. -/
def Distinct (handles : Handles α) : Prop :=
  ∀ i j resource, handles i = some resource → handles j = some resource →
    i = j

/-- The resource is behind a handle. -/
def Held (handles : Handles α) (resource : α) : Prop :=
  ∃ i, handles i = some resource

/-- A resource is opened behind the least free handle, or a handle is
closed. -/
inductive Step (handles : Handles α) : Event (Nat × α) → Handles α → Prop
  | opened {handle resource} (free : handles handle = none)
      (least : ∀ lower, lower < handle → handles lower ≠ none)
      (fresh : ¬ Held handles resource) :
      Step handles (.opened (handle, resource))
        (Function.update handles handle (some resource))
  | closed {handle resource} (held : handles handle = some resource) :
      Step handles (.closed (handle, resource))
        (Function.update handles handle none)

/-- Steps with their events -/
inductive Run (first : Handles α) :
    List (Event (Nat × α)) → Handles α → Prop
  | refl : Run first [] first
  | step {events middle event last} (run : Run first events middle)
      (step : Step middle event last) : Run first (events ++ [event]) last

variable {handles first last : Handles α} {handle : Nat} {resource : α}
  {events : List (Event (Nat × α))} {event : Event (Nat × α)}

theorem held_opened (free : handles handle = none) (other : α) :
    Held (Function.update handles handle (some resource)) other ↔
      other = resource ∨ Held handles other := by
  constructor
  · rintro ⟨i, behind⟩
    by_cases here : i = handle
    · rw [here, Function.update_self] at behind
      exact .inl (Option.some.inj behind).symm
    · rw [Function.update_of_ne here] at behind
      exact .inr ⟨i, behind⟩
  · rintro (rfl | ⟨i, behind⟩)
    · exact ⟨handle, Function.update_self ..⟩
    · have other : i ≠ handle := by
        rintro rfl
        rw [free] at behind
        cases behind
      exact ⟨i, by rw [Function.update_of_ne other, behind]⟩

theorem held_closed (distinct : Distinct handles)
    (held : handles handle = some resource) (other : α) :
    Held (Function.update handles handle none) other ↔
      other ≠ resource ∧ Held handles other := by
  constructor
  · rintro ⟨i, behind⟩
    by_cases here : i = handle
    · rw [here, Function.update_self] at behind
      cases behind
    · rw [Function.update_of_ne here] at behind
      refine ⟨?_, i, behind⟩
      rintro rfl
      exact here (distinct i handle other behind held)
  · rintro ⟨different, i, behind⟩
    have other : i ≠ handle := by
      rintro rfl
      rw [held] at behind
      exact different (Option.some.inj behind).symm
    exact ⟨i, by rw [Function.update_of_ne other, behind]⟩

theorem Step.distinct (step : Step handles event last)
    (distinct : Distinct handles) : Distinct last := by
  cases step with
  | @opened handle resource free least fresh =>
      intro i j other behindI behindJ
      by_cases hereI : i = handle
      · by_cases hereJ : j = handle
        · rw [hereI, hereJ]
        · rw [hereI, Function.update_self] at behindI
          rw [Function.update_of_ne hereJ, ← behindI] at behindJ
          exact absurd ⟨j, behindJ⟩ fresh
      · by_cases hereJ : j = handle
        · rw [hereJ, Function.update_self] at behindJ
          rw [Function.update_of_ne hereI, ← behindJ] at behindI
          exact absurd ⟨i, behindI⟩ fresh
        · rw [Function.update_of_ne hereI] at behindI
          rw [Function.update_of_ne hereJ] at behindJ
          exact distinct i j other behindI behindJ
  | @closed handle resource held =>
      intro i j other behindI behindJ
      by_cases hereI : i = handle
      · rw [hereI, Function.update_self] at behindI
        cases behindI
      · by_cases hereJ : j = handle
        · rw [hereJ, Function.update_self] at behindJ
          cases behindJ
        · rw [Function.update_of_ne hereI] at behindI
          rw [Function.update_of_ne hereJ] at behindJ
          exact distinct i j other behindI behindJ

theorem Run.distinct (run : Run first events last)
    (distinct : Distinct first) : Distinct last := by
  induction run with
  | refl => exact distinct
  | step _ step induction => exact step.distinct induction

theorem Run.append {middle : Handles α} {more : List (Event (Nat × α))}
    (run : Run first events middle) (rest : Run middle more last) :
    Run first (events ++ more) last := by
  induction rest with
  | refl =>
      rw [List.append_nil]
      exact run
  | step _ step induction =>
      rw [← List.append_assoc]
      exact .step induction step

section Balance

open Classical in
/-- Once for a resource that is held, and not at all for any other -/
noncomputable def holding (handles : Handles α) (resource : α) : Nat :=
  if Held handles resource then 1 else 0

theorem holding_congr {resource : α}
    (same : Held first resource ↔ Held last resource) :
    holding first resource = holding last resource := by
  unfold holding
  by_cases held : Held first resource
  · rw [if_pos held, if_pos (same.mp held)]
  · rw [if_neg held, if_neg (mt same.mpr held)]

/-- The events, as far as the resources are concerned -/
def resources (events : List (Event (Nat × α))) : List (Event α) :=
  events.map (Event.map Prod.snd)

variable [DecidableEq α]

theorem Step.balance (step : Step handles event last)
    (distinct : Distinct handles) (resource : α) :
    (resources [event]).count (.opened resource) +
        holding handles resource =
      (resources [event]).count (.closed resource) +
        holding last resource := by
  have missing : ∀ {first second : Event α}, first ≠ second →
      [first].count second = 0 := by
    intro first second other
    rw [List.count_singleton, if_neg (by simpa using other)]
  cases step with
  | @opened handle opened free least fresh =>
      change [Event.opened opened].count _ + _ =
        [Event.opened opened].count _ + _
      rw [missing (by simp : Event.opened opened ≠ .closed resource)]
      by_cases same : opened = resource
      · subst same
        rw [List.count_singleton_self, holding, if_neg fresh, holding,
          if_pos ((held_opened free opened).mpr (.inl rfl))]
      · have unchanged : Held (Function.update handles handle
            (some opened)) resource ↔ Held handles resource := by
          rw [held_opened free]
          exact or_iff_right (Ne.symm same)
        rw [missing (by simpa using same), holding_congr unchanged]
  | @closed handle closed held =>
      change [Event.closed closed].count _ + _ =
        [Event.closed closed].count _ + _
      rw [missing (by simp : Event.closed closed ≠ .opened resource)]
      by_cases same : closed = resource
      · subst same
        have gone : ¬ Held (Function.update handles handle none) closed := by
          rw [held_closed distinct held]
          exact fun still => still.1 rfl
        rw [List.count_singleton_self, holding, if_pos ⟨handle, held⟩,
          holding, if_neg gone]
      · have unchanged : Held (Function.update handles handle none)
            resource ↔ Held handles resource := by
          rw [held_closed distinct held]
          exact and_iff_right (Ne.symm same)
        rw [missing (by simpa using same), holding_congr unchanged]

/-- Opened and held from the start is closed or still held. -/
theorem Run.balance (run : Run first events last)
    (distinct : Distinct first) (resource : α) :
    (resources events).count (.opened resource) + holding first resource =
      (resources events).count (.closed resource) +
        holding last resource := by
  induction run with
  | refl => rfl
  | @step events middle event last run step induction =>
      have more := step.balance (run.distinct distinct) resource
      have split : resources (events ++ [event]) =
          resources events ++ resources [event] := List.map_append
      rw [split, List.count_append, List.count_append]
      omega

end Balance

end HandleTable
