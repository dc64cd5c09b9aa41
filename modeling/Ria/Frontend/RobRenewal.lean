import Ria.Frontend.Rob

/-!
# Entries written since the last squash

A squash puts the head and the size of the reorder buffer to 0 and leaves the
entries as they are.  Entries are written from index 0 on, so there is a mark
below which all of them are new; what retires lies below it.
-/

namespace Ria

open Hdl

namespace Rob

variable {property : MicroOp → Prop}

/-- The entries up to a mark have the property, and those of the buffer, which
end at `tail`, lie below it unless it is the last one. -/
def Renewed (property : MicroOp → Prop) (opList : RobIndex → MicroOp)
    (tail : Nat) : Prop :=
  ∃ mark ≤ 64, (∀ index : RobIndex, index.toNat < mark →
    property (opList index)) ∧ (tail ≤ mark ∨ mark = 64)

namespace Renewed

variable {opList : RobIndex → MicroOp} {tail : Nat}

theorem nothing (opList : RobIndex → MicroOp) :
    Renewed property opList 0 := by
  refine ⟨0, Nat.zero_le _, ?_, .inl (Nat.le_refl _)⟩
  intro index below
  exact absurd below (Nat.not_lt_zero _)

theorem shorter (renewed : Renewed property opList tail) {less : Nat}
    (ordered : less ≤ tail) : Renewed property opList less := by
  obtain ⟨mark, bound, below, reached⟩ := renewed
  exact ⟨mark, bound, below, reached.imp_left ordered.trans⟩

theorem entry (renewed : Renewed property opList tail) (zero : property 0)
    {index : Nat} (inside : index < tail) :
    property (Rob.entry opList index) := by
  obtain ⟨mark, bound, below, reached⟩ := renewed
  unfold Rob.entry
  split
  · refine below _ ?_
    rw [BitVec.toNat_ofNat]
    omega
  · exact zero

theorem update (renewed : Renewed property opList tail) {uop : MicroOp}
    (written : property uop) (index : RobIndex) :
    Renewed property (Function.update opList index uop) tail := by
  obtain ⟨mark, bound, below, reached⟩ := renewed
  refine ⟨mark, bound, ?_, reached⟩
  intro other inside
  by_cases here : other = index
  · rw [here, Function.update_self]
    exact written
  · rw [Function.update_of_ne here]
    exact below other inside

theorem complete (renewed : Renewed property opList tail)
    {uopComplete : Fin 6 → MicroOp}
    (completed : ∀ i, property { uopComplete i with complete := true }) :
    Renewed property (Rob.complete opList uopComplete) tail := by
  refine forEach_rule (fun _ opList => Renewed property opList tail)
    renewed ?_
  intro i opList sofar
  unfold completeLane
  split
  · exact sofar.update (completed i) _
  · exact sofar

/-- The entry behind the last one is written: the mark moves on. -/
theorem store (renewed : Renewed property opList tail) {uop : MicroOp}
    (written : property uop) :
    Renewed property (Rob.store opList tail uop) (tail + 1) := by
  unfold Rob.store
  split
  · rename_i inside
    obtain ⟨mark, bound, below, reached⟩ := renewed.update written
      (BitVec.ofNat 6 tail)
    refine ⟨max mark (tail + 1), by omega, ?_, .inl (by omega)⟩
    intro index low
    by_cases here : index = BitVec.ofNat 6 tail
    · rw [here, Function.update_self]
      exact written
    · refine below index ?_
      have other : index.toNat ≠ tail := by
        intro same
        refine here (BitVec.eq_of_toNat_eq ?_)
        rw [BitVec.toNat_ofNat]
        omega
      omega
  · rename_i outside
    obtain ⟨mark, bound, below, reached⟩ := renewed
    exact ⟨mark, bound, below, .inr (by omega)⟩

end Renewed

/-- What retires is an entry of the buffer, and the buffer shrinks. -/
theorem retire_renewed (zero : property 0) {rob : Rob}
    {opList : RobIndex → MicroOp}
    (renewed : Renewed property opList
      (rob.robHead.toNat + rob.robSize.toNat)) :
    (∀ lane, property ((rob.retire opList).uopRetire lane)) ∧
      (rob.retire opList).robHeadNext.toNat +
          (rob.retire opList).robSizeNext.toNat ≤
        rob.robHead.toNat + rob.robSize.toNat := by
  refine retire_rule
    (fun _ (state : Retirement) =>
      (∀ lane, property (state.uopRetire lane)) ∧
        state.robSizeNext.toNat ≤ rob.robSize.toNat ∧
        state.robHeadNext.toNat + state.robSizeNext.toNat ≤
          rob.robHead.toNat + rob.robSize.toNat)
    (fun (state : Retirement) =>
      (∀ lane, property (state.uopRetire lane)) ∧
        state.robHeadNext.toNat + state.robSizeNext.toNat ≤
          rob.robHead.toNat + rob.robSize.toNat) ?_ ?_ ?_ ?_
  · exact ⟨fun _ => zero, Nat.le_refl _, Nat.le_refl _⟩
  · rintro i state ⟨retired, -, ends⟩ -
    exact ⟨retired, ends⟩
  · rintro i state uop ⟨retired, size, ends⟩ left known -
    have inside : rob.robHead.toNat + i.val <
        rob.robHead.toNat + rob.robSize.toNat := by omega
    have leaving : property uop := known ▸ renewed.entry zero inside
    have lanes : ∀ lane,
        property ((state.retiring i uop).uopRetire lane) := by
      intro lane
      by_cases here : lane = i
      · rw [here, Retirement.retiring_here]
        exact leaving
      · rw [Retirement.retiring_other (mt Fin.ext here)]
        exact retired lane
    have smaller : (state.retiring i uop).robSizeNext.toNat =
        state.robSizeNext.toNat - 1 := Retirement.retiring_size (by omega)
    have moved : (state.retiring i uop).robHeadNext.toNat ≤
        state.robHeadNext.toNat + 1 := by
      change (state.robHeadNext + 1).toNat ≤ _
      rw [BitVec.toNat_add]
      exact Nat.mod_le _ _
    exact ⟨fun _ => ⟨lanes, Nat.zero_le _⟩,
      fun _ => ⟨lanes, by omega, by omega⟩⟩
  · rintro state ⟨retired, -, ends⟩
    exact ⟨retired, ends⟩

theorem insert_renewed {opList : RobIndex → MicroOp} {done : Retirement}
    (renewed : Renewed property opList
      (done.robHeadNext.toNat + done.robSizeNext.toNat))
    {uopIn : Fin 4 → MicroOp}
    (stored : ∀ i robIndex, property { uopIn i with robIndex := robIndex }) :
    Renewed property (insert opList done uopIn).opList
      (done.robHeadNext.toNat +
        (insert opList done uopIn).robSizeNext.toNat) := by
  cases runs : done.recover with
  | true =>
      unfold insert
      rw [if_pos runs]
      exact renewed
  | false =>
      refine insert_rule runs
        (fun _ (state : Insertion) => Renewed property state.opList
          (done.robHeadNext.toNat + state.robSizeNext.toNat)) renewed ?_ ?_ ?_
      · exact fun _ _ sofar _ => sofar
      · exact fun _ _ sofar _ => sofar
      · rintro i state index sofar room - rfl
        rw [Insertion.storing_size room]
        exact sofar.store (stored i _)

theorem renewed_next (zero : property 0) {rob : Rob} (reset : Bool)
    {uopComplete : Fin 6 → MicroOp} {uopIn : Fin 4 → MicroOp}
    (completed : ∀ i, property { uopComplete i with complete := true })
    (stored : ∀ i robIndex, property { uopIn i with robIndex := robIndex })
    (renewed : Renewed property rob.opList
      (rob.robHead.toNat + rob.robSize.toNat)) :
    Renewed property (rob.next reset uopComplete uopIn).opList
      ((rob.next reset uopComplete uopIn).robHead.toNat +
        (rob.next reset uopComplete uopIn).robSize.toNat) := by
  unfold next
  split
  · exact .nothing _
  · have recorded := renewed.complete completed
    obtain ⟨-, ends⟩ := retire_renewed zero recorded
    exact insert_renewed (recorded.shorter ends) stored

end Rob

end Ria
