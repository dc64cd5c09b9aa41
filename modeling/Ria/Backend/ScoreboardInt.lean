import Ria.Backend.PrfInt

/-!
# Scoreboard

One bit a physical register: set when a uop that writes it is dispatched,
cleared when the uop is written back.  An inquiry in the cycle of the
write-back already sees the register as ready.
-/

namespace Ria

open Hdl

/-- `sb` -/
abbrev ScoreboardInt := PrfIndex → Bool

/-- The bits requested by the valid ports. -/
def busyReq {ways : Nat} (index : Fin ways → PrfIndex)
    (valid : Fin ways → Bool) : PrfIndex → Bool :=
  forEach ways
    (fun i req => if valid i then Function.update req (index i) true else req)
    (fun _ => false)

namespace ScoreboardInt

/-- The answer to an inquiry; the write-back ports of `prf_int` are also the
`clear_busy` ports. -/
def busy (sb : ScoreboardInt) (ports : RdPorts) (index : PrfIndex) : Bool :=
  forEach 4
    (fun j busy =>
      if ports.rdEn j = true ∧ ports.rdIndex j = index then false else busy)
    (if index = 0 then false else sb index)

def next (sb : ScoreboardInt) (reset clear : Bool)
    (dpUopsIn : Fin 4 → MicroOp) (ports : RdPorts) : ScoreboardInt :=
  if reset || clear then fun _ => false
  else fun p =>
    (sb p || busyReq (fun i => (dpUopsIn i).rdPrfIntIndex)
      (fun i => (dpUopsIn i).rdValid) p) &&
        !busyReq ports.rdIndex ports.rdEn p

end ScoreboardInt

theorem busyReq_iff {ways : Nat} {index : Fin ways → PrfIndex}
    {valid : Fin ways → Bool} {prf : PrfIndex} :
    busyReq index valid prf = true ↔
      ∃ i, valid i = true ∧ index i = prf := by
  constructor
  · intro requested
    by_contra nobody
    have clear : busyReq index valid prf = false := by
      refine (forEach_frame (fun req : PrfIndex → Bool => req prf) _ ?_)
      intro i req
      by_cases asks : valid i = true
      · have other : prf ≠ index i := fun same =>
          nobody ⟨i, asks, same.symm⟩
        simp only [if_pos asks, Function.update_of_ne other]
      · simp only [if_neg asks]
    rw [clear] at requested
    cases requested
  · rintro ⟨i, asks, same⟩
    refine forEach_cell (fun req : PrfIndex → Bool => req prf)
      (fun j => valid j = true ∧ index j = prf) _ ?_ ?_ ⟨asks, same⟩
    · rintro j ⟨enabled, here⟩ req
      simp only [if_pos enabled]
      rw [here, Function.update_self]
    · intro j idle req
      by_cases enabled : valid j = true
      · have other : prf ≠ index j := fun here => idle ⟨enabled, here.symm⟩
        simp only [if_pos enabled, Function.update_of_ne other]
      · simp only [if_neg enabled]

namespace ScoreboardInt

/-- An inquiry is answered with the bit of the register, less what is written
back in the cycle. -/
theorem busy_iff {sb : ScoreboardInt} {ports : RdPorts} {index : PrfIndex} :
    sb.busy ports index = true ↔
      index ≠ 0 ∧ sb index = true ∧ ∀ j, ¬ ports.Writes j index := by
  by_cases written : ∃ j, ports.Writes j index
  · obtain ⟨j, writes⟩ := written
    have ready : sb.busy ports index = false := by
      refine forEach_cell id (fun i => ports.Writes i index) _ ?_ ?_ writes
      · exact fun i clears busy => if_pos clears
      · exact fun i keeps busy => if_neg keeps
    rw [ready]
    constructor
    · intro never
      cases never
    · exact fun ⟨_, _, idle⟩ => absurd writes (idle j)
  · have idle := not_exists.mp written
    have unchanged : sb.busy ports index =
        if index = 0 then false else sb index := by
      refine forEach_frame id _ ?_
      exact fun j busy => if_neg (idle j)
    rw [unchanged]
    by_cases zero : index = 0
    · rw [if_pos zero]
      constructor
      · intro never
        cases never
      · exact fun ⟨nonzero, _⟩ => absurd zero nonzero
    · rw [if_neg zero]
      exact ⟨fun set => ⟨zero, set, idle⟩, fun ⟨_, set, _⟩ => set⟩

theorem ready_of_busy {sb : ScoreboardInt} {ports : RdPorts}
    {prf : PrfIndex} (nonzero : prf ≠ 0)
    (found : sb.busy ports prf = false) :
    sb prf = false ∨ ∃ j, ports.Writes j prf := by
  by_cases writes : ∃ j, ports.Writes j prf
  · exact .inr writes
  · refine .inl (Bool.eq_false_iff.mpr fun set => ?_)
    have busy := busy_iff.mpr ⟨nonzero, set, not_exists.mp writes⟩
    rw [found] at busy
    cases busy

/-- After a cycle the bits are set of the registers that were busy or are given
to a uop dispatched, unless a way writes them. -/
theorem next_iff {sb : ScoreboardInt} {dpUopsIn : Fin 4 → MicroOp}
    {ports : RdPorts} {prf : PrfIndex} :
    sb.next false false dpUopsIn ports prf = true ↔
      (sb prf = true ∨ ∃ i, (dpUopsIn i).rdValid = true ∧
        (dpUopsIn i).rdPrfIntIndex = prf) ∧ ∀ j, ¬ ports.Writes j prf := by
  have cleared : (!busyReq ports.rdIndex ports.rdEn prf) = true ↔
      ∀ j, ¬ ports.Writes j prf := by
    rw [Bool.not_eq_true', ← Bool.not_eq_true, busyReq_iff, not_exists]
    rfl
  rw [next, Bool.or_self, if_neg Bool.false_ne_true, Bool.and_eq_true,
    Bool.or_eq_true, busyReq_iff, cleared]

end ScoreboardInt

end Ria
