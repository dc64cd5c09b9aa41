import Ria.Frontend.Rob

/-!
# The use of the commit width

`completedRun` is the run of completed entries at the head, as far as the
size allows and up to the first misprediction.  The retirement loop bounds
its index by the size that it counts down itself, and it does not wrap at the
end of the array, so that it may leave a part of the run behind.
-/

namespace Ria

open Hdl

namespace Rob

/-- The run of completed entries from `index` on among `left` entries of the
ring, cut after the first mispredicted one. -/
def completedRun (opList : RobIndex → MicroOp) : Nat → Nat → Nat
  | 0, _ => 0
  | left + 1, index =>
      let uop := opList (BitVec.ofNat 6 index)
      if uop.complete then
        if mispredicted uop then 1 else completedRun opList left (index + 1) + 1
      else 0

section Run

variable {opList : RobIndex → MicroOp} {left index : Nat}

theorem completedRun_unfinished
    (unfinished : (opList (BitVec.ofNat 6 index)).complete = false) :
    completedRun opList left index = 0 := by
  cases left with
  | zero => rfl
  | succ left =>
      rw [completedRun, unfinished]
      rfl

theorem completedRun_mispredicted (some : 0 < left)
    (finished : (opList (BitVec.ofNat 6 index)).complete = true)
    (wrong : mispredicted (opList (BitVec.ofNat 6 index)) = true) :
    completedRun opList left index = 1 := by
  cases left with
  | zero => exact absurd some (Nat.lt_irrefl 0)
  | succ left => rw [completedRun, if_pos finished, if_pos wrong]

theorem completedRun_finished (some : 0 < left)
    (finished : (opList (BitVec.ofNat 6 index)).complete = true)
    (right : mispredicted (opList (BitVec.ofNat 6 index)) = false) :
    completedRun opList left index =
      completedRun opList (left - 1) (index + 1) + 1 := by
  cases left with
  | zero => exact absurd some (Nat.lt_irrefl 0)
  | succ left =>
      rw [completedRun, if_pos finished, right, if_neg Bool.false_ne_true]
      rfl

theorem entry_of_complete (done : (entry opList index).complete = true) :
    index < 64 ∧ entry opList index = opList (BitVec.ofNat 6 index) := by
  by_cases inside : index < 64
  · exact ⟨inside, if_pos inside⟩
  · rw [entry, if_neg inside] at done
    exact absurd done Bool.false_ne_true

end Run

/-- The lanes in which a uop leaves. -/
def Retirement.count (state : Retirement) : Nat :=
  (List.ofFn state.uopRetire).countP (·.complete)

/-- The first `filled` lanes retire a uop and the others are empty. -/
def Retirement.Filled (state : Retirement) (filled : Nat) : Prop :=
  ∀ lane, (state.uopRetire lane).complete = decide (lane.val < filled)

theorem Retirement.Filled.count {state : Retirement} {filled : Nat}
    (lanes : state.Filled filled) (within : filled ≤ 6) :
    state.count = filled := by
  have counted : ∀ filled : Fin 7,
      (List.finRange 6).countP (fun lane => decide (lane.val < filled.val)) =
        filled.val := by
    decide
  have same : (fun lane => (state.uopRetire lane).complete) =
      fun lane : Fin 6 => decide (lane.val < filled) := funext lanes
  rw [Retirement.count, List.ofFn_eq_map, List.countP_map]
  change (List.finRange 6).countP
    (fun lane => (state.uopRetire lane).complete) = filled
  rw [same]
  exact counted ⟨filled, Nat.lt_succ_of_le within⟩

theorem Retirement.Filled.retiring {state : Retirement} {i : Fin 6}
    (lanes : state.Filled i.val) {uop : MicroOp}
    (done : uop.complete = true) :
    (state.retiring i uop).Filled (i.val + 1) := by
  intro lane
  by_cases here : lane.val = i.val
  · obtain rfl : lane = i := Fin.ext here
    rw [Retirement.retiring_here, done]
    exact (decide_eq_true (Nat.lt_succ_self _)).symm
  · rw [Retirement.retiring_other here, lanes lane, decide_eq_decide]
    omega

/-- The entries that may leave in a cycle. -/
def eligible (rob : Rob) (uopComplete : Fin 6 → MicroOp) : Nat :=
  completedRun (complete rob.opList uopComplete) rob.robSize.toNat
    rob.robHead.toNat

/-- What the loop has to retire lies within the half of the size that its
bound reaches, and before the end of the array. -/
def Reaches (rob : Rob) (uopComplete : Fin 6 → MicroOp) : Prop :=
  min 6 (rob.eligible uopComplete) ≤ (rob.robSize.toNat + 1) / 2 ∧
    rob.robHead.toNat + min 6 (rob.eligible uopComplete) ≤ 64

/-- The loop has retired the first `count` entries of a run of the given
length. -/
structure Leaving (rob : Rob) (opList : RobIndex → MicroOp)
    (length count : Nat) (state : Retirement) : Prop where
  run : length = count + completedRun opList (rob.robSize.toNat - count)
    (rob.robHead.toNat + count)
  half : count ≤ (rob.robSize.toNat + 1) / 2
  inside : rob.robHead.toNat + count ≤ 64
  size : state.robSizeNext.toNat = rob.robSize.toNat - count
  lanes : state.Filled count

section Leaving

variable {rob : Rob} {opList : RobIndex → MicroOp} {length : Nat}
  {state : Retirement} {i : Fin 6}

theorem Leaving.stops (leaving : Leaving rob opList length i.val state)
    (waits : state.robSizeNext.toNat ≤ i.val ∨
      (entry opList (rob.robHead.toNat + i.val)).complete = false) :
    i.val = min 6 length ↔
      min 6 length ≤ (rob.robSize.toNat + 1) / 2 ∧
        rob.robHead.toNat + min 6 length ≤ 64 := by
  have lane := i.isLt
  have run := leaving.run
  have half := leaving.half
  have inside := leaving.inside
  rcases waits with exhausted | unfinished
  · have size := leaving.size
    omega
  · by_cases more : rob.robHead.toNat + i.val < 64
    · rw [entry, if_pos more] at unfinished
      rw [completedRun_unfinished unfinished] at run
      omega
    · omega

theorem Leaving.ends (leaving : Leaving rob opList length i.val state)
    (left : i.val < state.robSizeNext.toNat)
    (done : (entry opList (rob.robHead.toNat + i.val)).complete = true)
    (wrong :
      mispredicted (entry opList (rob.robHead.toNat + i.val)) = true) :
    length = i.val + 1 := by
  obtain ⟨before, same⟩ := entry_of_complete done
  have size := leaving.size
  have some : 0 < rob.robSize.toNat - i.val := by omega
  rw [same] at done wrong
  exact leaving.run.trans
    (congrArg _ (completedRun_mispredicted some done wrong))

theorem Leaving.push (leaving : Leaving rob opList length i.val state)
    (left : i.val < state.robSizeNext.toNat)
    (done : (entry opList (rob.robHead.toNat + i.val)).complete = true)
    (right :
      mispredicted (entry opList (rob.robHead.toNat + i.val)) = false) :
    Leaving rob opList length (i.val + 1)
      (state.retiring i (entry opList (rob.robHead.toNat + i.val))) := by
  obtain ⟨before, same⟩ := entry_of_complete done
  have run := leaving.run
  have size := leaving.size
  have some : 0 < rob.robSize.toNat - i.val := by omega
  have filled := leaving.lanes.retiring done
  rw [same] at done right
  rw [completedRun_finished some done right] at run
  refine ⟨?_, by omega, by omega, ?_, filled⟩
  · rw [run, Nat.sub_sub, Nat.add_assoc rob.robHead.toNat]
    omega
  · rw [Retirement.retiring_size (by omega), size, Nat.sub_sub]

end Leaving

/-- The loop retires the commit width of the run, or the whole of it, exactly
when its bounds reach that far. -/
theorem retires_run_iff (rob : Rob) (uopComplete : Fin 6 → MicroOp) :
    (rob.retired uopComplete).count = min 6 (rob.eligible uopComplete) ↔
      rob.Reaches uopComplete := by
  unfold retired Reaches
  generalize run : rob.eligible uopComplete = length
  unfold eligible at run
  generalize complete rob.opList uopComplete = opList at run ⊢
  -- what has left and what is left of the run make up the run
  refine retire_rule (Leaving rob opList length)
    (fun state => state.count = min 6 length ↔
      min 6 length ≤ (rob.robSize.toNat + 1) / 2 ∧
        rob.robHead.toNat + min 6 length ≤ 64) ?_ ?_ ?_ ?_
  · have headBound := rob.robHead.isLt
    refine ⟨?_, Nat.zero_le _, by omega, rfl, ?_⟩
    · rw [Nat.zero_add, Nat.sub_zero, Nat.add_zero]
      exact run.symm
    · intro lane
      rfl
  · intro i state leaving waits
    rw [leaving.lanes.count (Nat.le_of_lt i.isLt)]
    exact leaving.stops waits
  · rintro i state uop leaving left rfl done
    constructor
    · intro wrong
      have counted : ((state.retiring i
          (entry opList (rob.robHead.toNat + i.val))).recovering
          (entry opList (rob.robHead.toNat + i.val))).count = i.val + 1 :=
        (leaving.lanes.retiring done).count i.isLt
      obtain ⟨before, -⟩ := entry_of_complete done
      have lane := i.isLt
      have size := leaving.size
      have length := leaving.ends left done wrong
      have half := leaving.half
      rw [counted]
      omega
    · exact leaving.push left done
  · intro state leaving
    have run := leaving.run
    have half := leaving.half
    have inside := leaving.inside
    rw [leaving.lanes.count (Nat.le_refl 6)]
    omega

/-- The uops `lane < 2` of a group. -/
def firstPair (complete : Bool) : Fin 6 → MicroOp := fun lane =>
  { (0 : MicroOp) with
    valid := decide (lane.val < 2), complete := complete
    robIndex := BitVec.ofNat 6 lane.val }

/-- Two uops that complete together after a reset do not retire together. -/
theorem pair_retires_in_two_cycles :
    ∃ rob : Rob, ∃ uopComplete : Fin 6 → MicroOp,
      rob = resetState.next false (fun _ => 0)
        (fun lane => firstPair false ⟨lane.val, Nat.lt_add_right 2 lane.isLt⟩) ∧
      rob.eligible uopComplete = 2 ∧
      (rob.retired uopComplete).count = 1 ∧
      (rob.retired uopComplete).count ≠ min 6 (rob.eligible uopComplete) := by
  refine ⟨_, firstPair false, rfl, ?_, ?_, ?_⟩
  · decide +kernel
  · decide +kernel
  · decide +kernel

end Rob

end Ria
