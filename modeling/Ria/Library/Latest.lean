import Mathlib.Order.Basic

/-!
# The latest event

Events are numbered in the order they happen; `latest chosen count` is the last
of the first `count` that is chosen, if there is one.
-/

namespace Hdl

def latest (chosen : Nat → Bool) : Nat → Option Nat
  | 0 => none
  | count + 1 => if chosen count then some count else latest chosen count

variable {chosen chosen' : Nat → Bool} {first count number : Nat}

theorem latest_eq_none :
    latest chosen count = none ↔ ∀ number < count, chosen number = false := by
  induction count with
  | zero => simp [latest]
  | succ count induction =>
      rw [latest]
      constructor
      · intro none number below
        by_cases here : chosen count = true
        · rw [if_pos here] at none
          cases none
        · rw [if_neg here] at none
          rcases Nat.lt_succ_iff_lt_or_eq.mp below with earlier | rfl
          · exact induction.mp none number earlier
          · exact Bool.eq_false_iff.mpr here
      · intro all
        rw [if_neg (by simp [all count (Nat.lt_succ_self count)])]
        exact induction.mpr fun number below =>
          all number (Nat.lt_succ_of_lt below)

theorem latest_eq_some :
    latest chosen count = some number ↔
      number < count ∧ chosen number = true ∧
        ∀ later, number < later → later < count → chosen later = false := by
  induction count with
  | zero => simp [latest]
  | succ count induction =>
      rw [latest]
      by_cases here : chosen count = true
      · rw [if_pos here]
        constructor
        · intro same
          obtain rfl := Option.some.inj same
          exact ⟨Nat.lt_succ_self _, here, fun later above below => by omega⟩
        · rintro ⟨below, -, last⟩
          rcases Nat.lt_succ_iff_lt_or_eq.mp below with earlier | rfl
          · have missing := last count earlier (Nat.lt_succ_self count)
            rw [missing] at here
            cases here
          · rfl
      · rw [if_neg here, induction]
        constructor
        · rintro ⟨below, set, last⟩
          refine ⟨Nat.lt_succ_of_lt below, set, fun later above within => ?_⟩
          rcases Nat.lt_succ_iff_lt_or_eq.mp within with earlier | rfl
          · exact last later above earlier
          · exact Bool.eq_false_iff.mpr here
        · rintro ⟨below, set, last⟩
          rcases Nat.lt_succ_iff_lt_or_eq.mp below with earlier | rfl
          · exact ⟨earlier, set, fun later above within =>
              last later above (Nat.lt_succ_of_lt within)⟩
          · exact absurd set here

theorem latest_congr (same : ∀ number < count,
    chosen number = chosen' number) :
    latest chosen count = latest chosen' count := by
  induction count with
  | zero => rfl
  | succ count induction =>
      rw [latest, latest, same count (Nat.lt_succ_self count),
        induction fun number below => same number (Nat.lt_succ_of_lt below)]

theorem latest_of_silent (ordered : first ≤ count)
    (silent : ∀ number, first ≤ number → number < count →
      chosen number = false) :
    latest chosen count = latest chosen first := by
  induction count with
  | zero => rw [Nat.le_zero.mp ordered]
  | succ count induction =>
      rcases Nat.lt_or_eq_of_le ordered with below | rfl
      · have quiet := silent count (Nat.lt_succ_iff.mp below)
          (Nat.lt_succ_self count)
        rw [latest, if_neg (by simp [quiet])]
        exact induction (Nat.lt_succ_iff.mp below)
          fun number above within =>
            silent number above (Nat.lt_succ_of_lt within)
      · rfl

/-- A restriction that the latest event meets. -/
theorem latest_and {meets : Nat → Bool}
    (last : ∀ number, latest chosen count = some number →
      meets number = true) :
    latest (fun number => chosen number && meets number) count =
      latest chosen count := by
  cases found : latest chosen count with
  | none =>
      refine latest_eq_none.mpr fun number below => ?_
      rw [latest_eq_none.mp found number below, Bool.false_and]
  | some number =>
      obtain ⟨below, set, later⟩ := latest_eq_some.mp found
      refine latest_eq_some.mpr ⟨below, ?_, ?_⟩
      · rw [set, last number found]
        rfl
      · intro other above within
        rw [later other above within, Bool.false_and]

end Hdl
