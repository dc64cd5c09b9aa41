import Mathlib.Tactic.Common

/-!
# Computations that may fail

`Meets fail post outcome` says of a computation that it returns a value with
`post` or fails with an error that `fail` allows.  The rules follow the
computation: one for each way to build it, and for a loop an invariant over
the items that are done.
-/

namespace Outcome

variable {ε α β ι σ : Type} {fail : ε → Prop}

def Meets (fail : ε → Prop) (post : α → Prop) : Except ε α → Prop
  | .ok value => post value
  | .error error => fail error

namespace Meets

variable {post : α → Prop} {next : β → Prop}

theorem returns {value : α} (holds : post value) :
    Meets fail post (.ok value) := holds

theorem throws {error : ε} (allowed : fail error) :
    Meets fail post (.error error) := allowed

theorem weaken {outcome : Except ε α} {weaker : α → Prop}
    (meets : Meets fail post outcome)
    (implies : ∀ value, post value → weaker value) :
    Meets fail weaker outcome := by
  cases outcome with
  | ok value => exact implies value meets
  | error error => exact meets

theorem bind {outcome : Except ε α} {rest : α → Except ε β}
    (first : Meets fail post outcome)
    (then_ : ∀ value, post value → Meets fail next (rest value)) :
    Meets fail next (outcome >>= rest) := by
  cases outcome with
  | ok value => exact then_ value first
  | error error => exact first

theorem bindState {program : StateT σ (Except ε) α}
    {rest : α → StateT σ (Except ε) β} {state : σ}
    {post : α × σ → Prop} {next : β × σ → Prop}
    (first : Meets fail post (program state))
    (then_ : ∀ result, post result → Meets fail next (rest result.1 result.2)) :
    Meets fail next ((program >>= rest) state) :=
  Meets.bind first then_

theorem bindLift {outcome : Except ε α} {rest : α → StateT σ (Except ε) β}
    {state : σ} {next : β × σ → Prop} (first : Meets fail post outcome)
    (then_ : ∀ value, post value → Meets fail next (rest value state)) :
    Meets fail next ((liftM outcome >>= rest) state) := by
  cases outcome with
  | ok value => exact then_ value first
  | error error => exact first

/-- A loop that keeps a value -/
theorem foldlM {f : β → ι → Except ε β} {invariant : List ι → β → Prop}
    {items : List ι} {first : β} (start : invariant [] first)
    (step : ∀ before item value, before ++ [item] <+: items →
      invariant before value →
        Meets fail (invariant (before ++ [item])) (f value item)) :
    Meets fail (invariant items) (items.foldlM f first) := by
  have general : ∀ done rest value, done ++ rest = items →
      invariant done value →
        Meets fail (invariant items) (rest.foldlM f value) := by
    intro done rest
    induction rest generalizing done with
    | nil =>
        intro value whole holds
        rw [List.append_nil] at whole
        rw [← whole]
        exact returns holds
    | cons item rest induction =>
        intro value whole holds
        have split : done ++ [item] ++ rest = items := by
          rw [List.append_assoc]
          exact whole
        rw [List.foldlM_cons]
        exact (step done item value ⟨rest, split⟩ holds).bind
          fun next holds => induction (done ++ [item]) next split holds
  exact general [] items first rfl start

/-- A loop that changes a state -/
theorem forM {f : ι → StateT σ (Except ε) PUnit}
    {invariant : List ι → σ → Prop} {items : List ι} {first : σ}
    (start : invariant [] first)
    (step : ∀ before item state, before ++ [item] <+: items →
      invariant before state →
        Meets fail (fun result => invariant (before ++ [item]) result.2)
          (f item state)) :
    Meets fail (fun result => invariant items result.2)
      (items.forM f first) := by
  have general : ∀ done rest state, done ++ rest = items →
      invariant done state →
        Meets fail (fun result => invariant items result.2)
          (rest.forM f state) := by
    intro done rest
    induction rest generalizing done with
    | nil =>
        intro state whole holds
        rw [List.append_nil] at whole
        rw [← whole]
        exact returns holds
    | cons item rest induction =>
        intro state whole holds
        have split : done ++ [item] ++ rest = items := by
          rw [List.append_assoc]
          exact whole
        exact (step done item state ⟨rest, split⟩ holds).bindState
          fun result holds =>
            induction (done ++ [item]) result.2 split holds
  exact general [] items first rfl start

end Meets

end Outcome
