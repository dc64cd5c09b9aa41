import Ria.Common.MicroOp
import Ria.Library.Loop
import Mathlib.Logic.Function.Basic

/-!
# Reorder buffer

A cycle records the completions, retires from the head and stores the
incoming group behind the tail.  Indices into `opList` are taken at the width
of their expressions: `robHead + i` at 32 bits and the store position at 7.
An access outside the 64 entries reads the empty uop and writes nothing.
-/

namespace Ria

open Hdl

/-- The registers of `rob`. -/
structure Rob where
  opList : RobIndex → MicroOp
  robHead : RobIndex
  robSize : BitVec 7

namespace Rob

def resetState : Rob :=
  { opList := fun _ => 0, robHead := 0, robSize := 0 }

/-- `op_list_next[index]` -/
def entry (opList : RobIndex → MicroOp) (index : Nat) : MicroOp :=
  if index < 64 then opList (BitVec.ofNat 6 index) else 0

/-- `op_list_next[index] = uop` -/
def store (opList : RobIndex → MicroOp) (index : Nat) (uop : MicroOp) :
    RobIndex → MicroOp :=
  if index < 64 then Function.update opList (BitVec.ofNat 6 index) uop
  else opList

/-- One lane of the completion loop. -/
def completeLane (opList : RobIndex → MicroOp) (uop : MicroOp) :
    RobIndex → MicroOp :=
  if uop.valid then
    Function.update opList uop.robIndex { uop with complete := true }
  else opList

def complete (opList : RobIndex → MicroOp) (uopComplete : Fin 6 → MicroOp) :
    RobIndex → MicroOp :=
  forEach 6 (fun i opList => completeLane opList (uopComplete i)) opList

theorem complete_cases (opList : RobIndex → MicroOp)
    (uopComplete : Fin 6 → MicroOp) (index : RobIndex) :
    (∃ lane, ((uopComplete lane).valid = true ∧
        (uopComplete lane).robIndex = index) ∧
      complete opList uopComplete index =
        { uopComplete lane with complete := true }) ∨
    ((∀ lane, ¬ ((uopComplete lane).valid = true ∧
        (uopComplete lane).robIndex = index)) ∧
      complete opList uopComplete index = opList index) := by
  refine forEach_written (fun opList : RobIndex → MicroOp => opList index)
    (fun lane => (uopComplete lane).valid = true ∧
      (uopComplete lane).robIndex = index) opList ?_ ?_
  · rintro lane ⟨valid, here⟩ state
    simp only [completeLane, if_pos valid]
    rw [← here, Function.update_self]
  · intro lane silent state
    unfold completeLane
    split
    · next valid =>
      exact Function.update_of_ne (fun here => silent ⟨valid, here.symm⟩) _ _
    · rfl

/-- The two tests that set `recover`. -/
def mispredicted (uop : MicroOp) : Bool :=
  uop.brType != .x &&
    (uop.predTaken != uop.brTaken ||
      (uop.brAddr != uop.predAddr && uop.predTaken))

/-- The variables of the retirement loop. -/
structure Retirement where
  robHeadNext : RobIndex
  robSizeNext : BitVec 7
  recover : Bool
  uopRecover : MicroOp
  uopRetire : Fin 6 → MicroOp

/-- The body of the retirement loop.  The bound is the size that is left. -/
def retireLane (opList : RobIndex → MicroOp) (robHead : RobIndex)
    (i : Fin 6) (state : Retirement) : Flow Retirement :=
  if i.val ≥ state.robSizeNext.toNat then .stop state
  else
    let uop := entry opList (robHead.toNat + i.val)
    if uop.complete then
      let state :=
        { state with
          robHeadNext := state.robHeadNext + 1
          robSizeNext := state.robSizeNext - 1
          uopRetire := Function.update state.uopRetire i uop }
      if mispredicted uop then
        .stop { state with
          recover := true, uopRecover := uop
          robHeadNext := 0, robSizeNext := 0 }
      else .step state
    else .stop state

def retire (rob : Rob) (opList : RobIndex → MicroOp) : Retirement :=
  forLoop 6 (retireLane opList rob.robHead)
    { robHeadNext := rob.robHead, robSizeNext := rob.robSize
      recover := false, uopRecover := 0, uopRetire := fun _ => 0 }

/-- `uop` has left in lane `i`. -/
def Retirement.retiring (state : Retirement) (i : Fin 6) (uop : MicroOp) :
    Retirement :=
  { state with
    robHeadNext := state.robHeadNext + 1
    robSizeNext := state.robSizeNext - 1
    uopRetire := Function.update state.uopRetire i uop }

theorem Retirement.retiring_size {state : Retirement} {i : Fin 6}
    {uop : MicroOp} (left : 0 < state.robSizeNext.toNat) :
    (state.retiring i uop).robSizeNext.toNat =
      state.robSizeNext.toNat - 1 := by
  change (state.robSizeNext - 1).toNat = _
  have bound := state.robSizeNext.isLt
  rw [BitVec.toNat_sub]
  simp only [BitVec.ofNat_eq_ofNat, BitVec.toNat_ofNat]
  omega

theorem Retirement.retiring_head {state : Retirement} {i : Fin 6}
    {uop : MicroOp} {number : Nat}
    (head : state.robHeadNext = BitVec.ofNat 6 number) :
    (state.retiring i uop).robHeadNext = BitVec.ofNat 6 (number + 1) := by
  change state.robHeadNext + 1 = _
  rw [head, BitVec.ofNat_add number 1]
  rfl

theorem Retirement.retiring_here (state : Retirement) (i : Fin 6)
    (uop : MicroOp) : (state.retiring i uop).uopRetire i = uop :=
  Function.update_self _ _ _

theorem Retirement.retiring_other {state : Retirement} {i lane : Fin 6}
    {uop : MicroOp} (other : lane.val ≠ i.val) :
    (state.retiring i uop).uopRetire lane = state.uopRetire lane :=
  Function.update_of_ne (fun same => other (congrArg Fin.val same)) _ _

/-- `uop` was mispredicted. -/
def Retirement.recovering (state : Retirement) (uop : MicroOp) : Retirement :=
  { state with
    recover := true, uopRecover := uop, robHeadNext := 0, robSizeNext := 0 }

/-- The invariant rule of the retirement loop: a lane waits, retires its uop
or retires it and recovers. -/
theorem retire_rule {rob : Rob} {opList : RobIndex → MicroOp}
    (invariant : Nat → Retirement → Prop) (post : Retirement → Prop)
    (start : invariant 0
      { robHeadNext := rob.robHead, robSizeNext := rob.robSize
        recover := false, uopRecover := 0, uopRetire := fun _ => 0 })
    (waits : ∀ (i : Fin 6) state, invariant i.val state →
      (state.robSizeNext.toNat ≤ i.val ∨
        (entry opList (rob.robHead.toNat + i.val)).complete = false) →
      post state)
    (retires : ∀ (i : Fin 6) state uop, invariant i.val state →
      i.val < state.robSizeNext.toNat →
      entry opList (rob.robHead.toNat + i.val) = uop → uop.complete = true →
      (mispredicted uop = true →
          post ((state.retiring i uop).recovering uop)) ∧
        (mispredicted uop = false →
          invariant (i.val + 1) (state.retiring i uop)))
    (finish : ∀ state, invariant 6 state → post state) :
    post (rob.retire opList) := by
  unfold retire
  refine forLoop_rule invariant post start ?_ finish
  intro i state sofar
  unfold retireLane
  by_cases exhausted : i.val ≥ state.robSizeNext.toNat
  · simp only [if_pos exhausted]
    exact waits i state sofar (.inl exhausted)
  · simp only [if_neg exhausted]
    generalize known : entry opList (rob.robHead.toNat + i.val) = uop
    by_cases done : uop.complete = true
    · obtain ⟨wrong, right⟩ :=
        retires i state uop sofar (by omega) known done
      simp only [if_pos done]
      by_cases mispredict : mispredicted uop = true
      · simp only [if_pos mispredict]
        exact wrong mispredict
      · simp only [if_neg mispredict]
        exact right (Bool.eq_false_iff.mpr mispredict)
    · simp only [if_neg done]
      exact waits i state sofar
        (.inr (known ▸ Bool.eq_false_iff.mpr done))

theorem retire_of_recover {rob : Rob} {opList : RobIndex → MicroOp}
    (recover : (rob.retire opList).recover = true) :
    (rob.retire opList).robHeadNext = 0 ∧
      (rob.retire opList).robSizeNext = 0 := by
  revert recover
  refine retire_rule
    (fun _ (state : Retirement) => state.recover = false)
    (fun (state : Retirement) => state.recover = true →
      state.robHeadNext = 0 ∧ state.robSizeNext = 0) rfl ?_ ?_ ?_
  · intro i state running _ recover
    rw [running] at recover
    cases recover
  · intro i state uop running _ _ _
    exact ⟨fun _ _ => ⟨rfl, rfl⟩, fun _ => running⟩
  · intro state running recover
    rw [running] at recover
    cases recover

/-- The variables of the loop that stores the group. -/
structure Insertion where
  opList : RobIndex → MicroOp
  robSizeNext : BitVec 7
  uopOut : Fin 4 → MicroOp
  allocatable : Bool

/-- The body of that loop; `index` is `rob_head_next + rob_size_next`. -/
def insertLane (robHeadNext : RobIndex) (uopIn : Fin 4 → MicroOp)
    (i : Fin 4) (state : Insertion) : Insertion :=
  if state.robSizeNext < 64 then
    if (uopIn i).valid then
      let index := robHeadNext.setWidth 7 + state.robSizeNext
      let opList := store state.opList index.toNat
        { uopIn i with robIndex := index.setWidth 6 }
      { state with
        opList := opList
        uopOut := Function.update state.uopOut i (entry opList index.toNat)
        robSizeNext := state.robSizeNext + 1 }
    else state
  else { state with allocatable := false }

def insert (opList : RobIndex → MicroOp) (retired : Retirement)
    (uopIn : Fin 4 → MicroOp) : Insertion :=
  let start : Insertion :=
    { opList := opList, robSizeNext := retired.robSizeNext
      uopOut := fun _ => 0, allocatable := true }
  if retired.recover then start
  else forEach 4 (insertLane retired.robHeadNext uopIn) start

/-- Lane `i` has stored `uop` at `index` and puts out what is there. -/
def Insertion.storing (state : Insertion) (i : Fin 4) (index : Nat)
    (uop : MicroOp) : Insertion :=
  let opList := store state.opList index uop
  { state with
    opList := opList
    uopOut := Function.update state.uopOut i (entry opList index)
    robSizeNext := state.robSizeNext + 1 }

theorem store_here {opList : RobIndex → MicroOp} {index : Nat}
    {uop : MicroOp} (inside : index < 64) :
    store opList index uop (BitVec.ofNat 6 index) = uop := by
  rw [store, if_pos inside, Function.update_self]

theorem store_other {opList : RobIndex → MicroOp} {index : Nat}
    {uop : MicroOp} {other : RobIndex} (apart : other.toNat ≠ index) :
    store opList index uop other = opList other := by
  unfold store
  split
  · rename_i inside
    apply Function.update_of_ne
    intro same
    rw [same, BitVec.toNat_ofNat, Nat.mod_eq_of_lt inside] at apart
    exact apart rfl
  · rfl

theorem Insertion.storing_size {state : Insertion} {i : Fin 4} {index : Nat}
    {uop : MicroOp} (room : state.robSizeNext.toNat < 64) :
    (state.storing i index uop).robSizeNext.toNat =
      state.robSizeNext.toNat + 1 := by
  change (state.robSizeNext + 1).toNat = _
  rw [BitVec.toNat_add]
  simp only [BitVec.ofNat_eq_ofNat, BitVec.toNat_ofNat]
  omega

/-- The invariant rule of the loop that stores the group: a lane finds the
buffer full, is empty or stores its uop. -/
theorem insert_rule {opList : RobIndex → MicroOp} {done : Retirement}
    {uopIn : Fin 4 → MicroOp} (runs : done.recover = false)
    (invariant : Nat → Insertion → Prop)
    (start : invariant 0
      { opList := opList, robSizeNext := done.robSizeNext
        uopOut := fun _ => 0, allocatable := true })
    (full : ∀ (i : Fin 4) state, invariant i.val state →
      64 ≤ state.robSizeNext.toNat →
      invariant (i.val + 1) { state with allocatable := false })
    (empty : ∀ (i : Fin 4) state, invariant i.val state →
      (uopIn i).valid = false → invariant (i.val + 1) state)
    (stores : ∀ (i : Fin 4) (state : Insertion) (index : Nat),
      invariant i.val state → state.robSizeNext.toNat < 64 →
      (uopIn i).valid = true →
      index = done.robHeadNext.toNat + state.robSizeNext.toNat →
      invariant (i.val + 1) (state.storing i index
        { uopIn i with robIndex := BitVec.ofNat 6 index })) :
    invariant 4 (insert opList done uopIn) := by
  unfold insert
  simp only [runs, Bool.false_eq_true, if_false]
  refine forEach_rule invariant start ?_
  intro i state sofar
  unfold insertLane
  by_cases room : state.robSizeNext < 64
  · have room' : state.robSizeNext.toNat < 64 := by
      simpa [BitVec.lt_def] using room
    by_cases valid : (uopIn i).valid = true
    · have index : (done.robHeadNext.setWidth 7 + state.robSizeNext).toNat =
          done.robHeadNext.toNat + state.robSizeNext.toNat := by
        have headBound := done.robHeadNext.isLt
        rw [BitVec.toNat_add, BitVec.toNat_setWidth]
        omega
      have stored := stores i state _ sofar room' valid index
      rw [BitVec.ofNat_toNat] at stored
      simp only [if_pos room, if_pos valid]
      exact stored
    · simp only [if_pos room, if_neg valid]
      exact empty i state sofar (Bool.eq_false_iff.mpr valid)
  · have noRoom : 64 ≤ state.robSizeNext.toNat := by
      simpa [BitVec.lt_def] using room
    simp only [if_neg room]
    exact full i state sofar noRoom

/-- The outputs of `rob`. -/
structure Outputs where
  uopOut : Fin 4 → MicroOp
  recover : Bool
  uopRecover : MicroOp
  uopRetire : Fin 6 → MicroOp
  allocatable : Bool

/-- The retirements of a cycle. -/
def retired (rob : Rob) (uopComplete : Fin 6 → MicroOp) : Retirement :=
  rob.retire (complete rob.opList uopComplete)

/-- The group as it is stored in a cycle. -/
def inserted (rob : Rob) (uopComplete : Fin 6 → MicroOp)
    (uopIn : Fin 4 → MicroOp) : Insertion :=
  insert (complete rob.opList uopComplete) (rob.retired uopComplete) uopIn

theorem inserted_of_recover {rob : Rob} {uopComplete : Fin 6 → MicroOp}
    {uopIn : Fin 4 → MicroOp}
    (recover : (rob.retired uopComplete).recover = true) :
    rob.inserted uopComplete uopIn =
      { opList := complete rob.opList uopComplete
        robSizeNext := (rob.retired uopComplete).robSizeNext
        uopOut := fun _ => 0, allocatable := true } := by
  unfold inserted insert
  simp only [if_pos recover]

def outputs (rob : Rob) (uopComplete : Fin 6 → MicroOp)
    (uopIn : Fin 4 → MicroOp) : Outputs :=
  let done := rob.retired uopComplete
  let stored := rob.inserted uopComplete uopIn
  { uopOut := stored.uopOut
    recover := done.recover
    uopRecover := done.uopRecover
    uopRetire := done.uopRetire
    allocatable := stored.allocatable }

def next (rob : Rob) (reset : Bool) (uopComplete : Fin 6 → MicroOp)
    (uopIn : Fin 4 → MicroOp) : Rob :=
  if reset then resetState
  else
    { opList := (rob.inserted uopComplete uopIn).opList
      robHead := (rob.retired uopComplete).robHeadNext
      robSize := (rob.inserted uopComplete uopIn).robSizeNext }

end Rob

end Ria
