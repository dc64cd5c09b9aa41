import Ria.Common.Bundle
import Ria.Frontend.Rob
import Mathlib.Data.List.GetD

/-!
# The reorder buffer as a queue

`FifoLog` numbers the uops accepted since the last flush and keeps, for each
number, the last completion that named it; the numbers below the count of
retired uops have left the queue.  As long as every accepted uop finds an
entry below 64, that is, as long as the tail has not run past the end of the
array while the head is still before it, the buffer is this queue.
-/

namespace Ria

open Hdl

structure RobInput where
  uopComplete : Fin 6 → MicroOp
  uopIn : Fin 4 → MicroOp

/-- The queue since the last reset or recovery. -/
structure FifoLog where
  inserted : List MicroOp
  completion : Nat → Option MicroOp
  retired : List MicroOp

namespace FifoLog

def empty : FifoLog :=
  { inserted := [], completion := fun _ => none, retired := [] }

/-- The number from `first` on that occupies the entry `robIndex`. -/
def owner (first : Nat) (robIndex : RobIndex) : Nat :=
  first + (robIndex.toNat + 64 - first % 64) % 64

/-- Record one lane of completions. -/
def completeLane (first : Nat) (completion : Nat → Option MicroOp)
    (uop : MicroOp) : Nat → Option MicroOp :=
  if uop.valid then
    Function.update completion (owner first uop.robIndex) (some uop)
  else completion

/-- The completions known after those of the cycle. -/
def completed (log : FifoLog) (input : RobInput) : Nat → Option MicroOp :=
  (List.ofFn input.uopComplete).foldl (completeLane log.retired.length)
    log.completion

/-- The completions, from number `first` on, that may leave through the given
number of lanes. -/
def due (completion : Nat → Option MicroOp) : Nat → Nat → List MicroOp
  | 0, _ => []
  | lanes + 1, first =>
      match completion first with
      | none => []
      | some uop =>
          { uop with complete := true } ::
            if Rob.mispredicted uop then []
            else due completion lanes (first + 1)

/-- The lanes that may retire: a lane is bounded by the size that is left, so
at most half of the uops in flight, rounded up, leave in a cycle. -/
def lanes (log : FifoLog) : Nat :=
  min 6 ((log.inserted.length - log.retired.length + 1) / 2)

/-- The uops whose turn it is in a cycle. -/
def turn (log : FifoLog) (input : RobInput) : List MicroOp :=
  due (log.completed input) log.lanes log.retired.length

/-- Room for the uops presented, once those whose turn it is have left. -/
def room (log : FifoLog) (input : RobInput) : Nat :=
  64 - (log.inserted.length - (log.retired.length + (log.turn input).length))

/-- Where the group is stored, counted from the start of the lap in which the
oldest uop that stays has its entry. -/
def tail (log : FifoLog) (input : RobInput) : Nat :=
  let left := log.retired.length + (log.turn input).length
  left % 64 + (log.inserted.length - left)

/-- The valid uops presented while there is room. -/
def accepted (log : FifoLog) (input : RobInput) : List MicroOp :=
  (validUops input.uopIn).take (log.room input)

def next (log : FifoLog) (input : RobInput) (out : Rob.Outputs) : FifoLog :=
  if out.recover then empty
  else
    { inserted := log.inserted ++ log.accepted input
      completion := log.completed input
      retired := log.retired ++ validUops out.uopRetire }

end FifoLog

/-- `rob` with its log. -/
structure RobSystem where
  rob : Rob
  log : FifoLog

namespace RobSystem

open FifoLog

def outputs (system : RobSystem) (input : RobInput) : Rob.Outputs :=
  system.rob.outputs input.uopComplete input.uopIn

def next (system : RobSystem) (input : RobInput) : RobSystem :=
  { rob := system.rob.next false input.uopComplete input.uopIn
    log := system.log.next input (system.outputs input) }

def start (system : RobSystem) : Prop :=
  system = { rob := .resetState, log := .empty }

/-- Completions name uops in flight; no uop arrives already complete. -/
structure Allowed (system : RobSystem) (input : RobInput) : Prop where
  inFlight : ∀ i, (input.uopComplete i).valid = true →
    owner system.log.retired.length (input.uopComplete i).robIndex <
      system.log.inserted.length
  incomplete : ∀ i, (input.uopIn i).valid = true →
    (input.uopIn i).complete = false

/-- What the outputs of a cycle must be. -/
structure CycleOk (system : RobSystem) (input : RobInput) : Prop where
  leaves : validUops (system.outputs input).uopRetire = system.log.turn input
  recovers : (system.outputs input).recover =
    (system.log.turn input).any Rob.mispredicted
  /-- Every accepted uop is echoed with the entry of its number. -/
  echoes : ∀ i, (system.outputs input).uopOut i =
    if (system.outputs input).recover = false ∧ (input.uopIn i).valid = true ∧
        validBefore input.uopIn i.val < system.log.room input then
      { input.uopIn i with
        robIndex :=
          BitVec.ofNat 6
            (system.log.inserted.length + validBefore input.uopIn i.val) }
    else 0

/-- What is retired is a prefix of what was accepted, each uop with the
fields of its own completion. -/
structure QueueOk (log : FifoLog) : Prop where
  short : log.retired.length ≤ log.inserted.length
  retired : ∀ (j : Nat) (uop : MicroOp), log.retired[j]? = some uop →
    ∃ completion, log.completion j = some completion ∧
      uop = { completion with complete := true }

/-- Unless a misprediction leaves, the uops accepted find their entries in
the lap of the oldest uop that stays: none has to wrap around. -/
def Fits (log : FifoLog) (input : RobInput) : Prop :=
  (log.turn input).any Rob.mispredicted = false →
    log.tail input + min (validBefore input.uopIn 4) (log.room input) ≤ 64

end RobSystem

/-! ## Numbers and entries -/

theorem owner_bounds (first : Nat) (robIndex : RobIndex) :
    first ≤ FifoLog.owner first robIndex ∧
      FifoLog.owner first robIndex < first + 64 := by
  have small := Nat.mod_lt (robIndex.toNat + 64 - first % 64)
    (by decide : 64 > 0)
  unfold FifoLog.owner
  omega

theorem ofNat_owner (first : Nat) (robIndex : RobIndex) :
    BitVec.ofNat 6 (FifoLog.owner first robIndex) = robIndex := by
  apply BitVec.eq_of_toNat_eq
  have bound := robIndex.isLt
  rw [BitVec.toNat_ofNat]
  unfold FifoLog.owner
  omega

/-- Numbers of one window of 64 have different entries. -/
theorem entries_differ {first one other : Nat} (oneLow : first ≤ one)
    (oneHigh : one < first + 64) (otherLow : first ≤ other)
    (otherHigh : other < first + 64)
    (same : BitVec.ofNat 6 one = BitVec.ofNat 6 other) : one = other := by
  have equal := congrArg BitVec.toNat same
  simp only [BitVec.toNat_ofNat] at equal
  omega

/-! ## Completions -/

/-- The entries of the numbers from `first` to `last` hold their completions;
those not completed are not marked complete. -/
structure Slots (opList : RobIndex → MicroOp)
    (completion : Nat → Option MicroOp) (first last : Nat) : Prop where
  completed : ∀ number, first ≤ number → number < last →
    ∀ uop, completion number = some uop →
      opList (BitVec.ofNat 6 number) = { uop with complete := true }
  waiting : ∀ number, first ≤ number → number < last →
    completion number = none →
      (opList (BitVec.ofNat 6 number)).complete = false

section Slots

variable {opList : RobIndex → MicroOp} {completion : Nat → Option MicroOp}
  {first last number : Nat}

theorem Slots.of_complete (slots : Slots opList completion first last)
    (low : first ≤ number) (high : number < last)
    (done : (opList (BitVec.ofNat 6 number)).complete = true) :
    ∃ uop, completion number = some uop ∧
      opList (BitVec.ofNat 6 number) = { uop with complete := true } := by
  cases known : completion number with
  | none =>
      have waiting := slots.waiting number low high known
      rw [done] at waiting
      cases waiting
  | some uop =>
      exact ⟨uop, rfl, slots.completed number low high uop known⟩

theorem Slots.of_incomplete (slots : Slots opList completion first last)
    (low : first ≤ number) (high : number < last)
    (missing : (opList (BitVec.ofNat 6 number)).complete = false) :
    completion number = none := by
  cases known : completion number with
  | none => rfl
  | some uop =>
      rw [slots.completed number low high uop known] at missing
      cases missing

end Slots

theorem Slots.completeLane {opList : RobIndex → MicroOp}
    {completion : Nat → Option MicroOp} {first last : Nat} {uop : MicroOp}
    (slots : Slots opList completion first last)
    (window : last ≤ first + 64) :
    Slots (Rob.completeLane opList uop)
      (FifoLog.completeLane first completion uop) first last := by
  unfold Rob.completeLane FifoLog.completeLane
  by_cases valid : uop.valid = true
  · rw [if_pos valid, if_pos valid]
    obtain ⟨ownerLow, ownerHigh⟩ := owner_bounds first uop.robIndex
    have entry := ofNat_owner first uop.robIndex
    have elsewhere : ∀ number, first ≤ number → number < last →
        number ≠ FifoLog.owner first uop.robIndex →
        BitVec.ofNat 6 number ≠ uop.robIndex := by
      intro number low high different same
      rw [← entry] at same
      exact different
        (entries_differ low (by omega) ownerLow ownerHigh same)
    constructor
    · intro number low high completed recorded
      by_cases named : number = FifoLog.owner first uop.robIndex
      · subst named
        rw [Function.update_self] at recorded
        rw [entry, Function.update_self, Option.some.inj recorded]
      · rw [Function.update_of_ne named] at recorded
        rw [Function.update_of_ne (elsewhere number low high named)]
        exact slots.completed number low high completed recorded
    · intro number low high missing
      by_cases named : number = FifoLog.owner first uop.robIndex
      · subst named
        rw [Function.update_self] at missing
        cases missing
      · rw [Function.update_of_ne named] at missing
        rw [Function.update_of_ne (elsewhere number low high named)]
        exact slots.waiting number low high missing
  · rw [if_neg valid, if_neg valid]
    exact slots

theorem Slots.completeAll {opList : RobIndex → MicroOp}
    {completion : Nat → Option MicroOp} {first last : Nat}
    (slots : Slots opList completion first last)
    (window : last ≤ first + 64) (uops : List MicroOp) :
    Slots (uops.foldl Rob.completeLane opList)
      (uops.foldl (FifoLog.completeLane first) completion) first last := by
  induction uops generalizing opList completion with
  | nil => exact slots
  | cons uop rest induction => exact induction (slots.completeLane window)

theorem complete_eq (opList : RobIndex → MicroOp)
    (uopComplete : Fin 6 → MicroOp) :
    Rob.complete opList uopComplete =
      (List.ofFn uopComplete).foldl Rob.completeLane opList :=
  forEach_eq_foldl uopComplete
    (fun uop opList => Rob.completeLane opList uop) opList

/-- Recorded completions are valid and name numbers below `last`. -/
structure Recorded (completion : Nat → Option MicroOp) (last : Nat) :
    Prop where
  valid : ∀ number uop, completion number = some uop → uop.valid = true
  below : ∀ number uop, completion number = some uop → number < last

theorem Recorded.completeAll {completion : Nat → Option MicroOp}
    {first last : Nat} (recorded : Recorded completion last)
    (uops : List MicroOp)
    (inFlight : ∀ uop ∈ uops, uop.valid = true →
      FifoLog.owner first uop.robIndex < last) :
    Recorded (uops.foldl (FifoLog.completeLane first) completion) last := by
  induction uops generalizing completion with
  | nil => exact recorded
  | cons uop rest induction =>
      refine induction ?_ (fun other member =>
        inFlight other (List.mem_cons_of_mem _ member))
      unfold FifoLog.completeLane
      by_cases valid : uop.valid = true
      · rw [if_pos valid]
        constructor
        · intro number named found
          by_cases here : number = FifoLog.owner first uop.robIndex
          · subst here
            rw [Function.update_self] at found
            rw [← Option.some.inj found]
            exact valid
          · rw [Function.update_of_ne here] at found
            exact recorded.valid number named found
        · intro number named found
          by_cases here : number = FifoLog.owner first uop.robIndex
          · rw [here]
            exact inFlight uop List.mem_cons_self valid
          · rw [Function.update_of_ne here] at found
            exact recorded.below number named found
      · rw [if_neg valid]
        exact recorded

theorem completeAll_below {first number : Nat} (below : number < first)
    (completion : Nat → Option MicroOp) (uops : List MicroOp) :
    uops.foldl (FifoLog.completeLane first) completion number =
      completion number := by
  induction uops generalizing completion with
  | nil => rfl
  | cons uop rest induction =>
      rw [List.foldl_cons, induction, FifoLog.completeLane]
      by_cases valid : uop.valid = true
      · have low := (owner_bounds first uop.robIndex).1
        rw [if_pos valid, Function.update_of_ne (by omega)]
      · rw [if_neg valid]

/-! ## Retirement -/

section Retirement

variable {completion : Nat → Option MicroOp}

theorem due_none (lanes : Nat) {first : Nat}
    (missing : completion first = none) :
    FifoLog.due completion lanes first = [] := by
  cases lanes with
  | zero => rfl
  | succ lanes => rw [FifoLog.due, missing]

theorem due_some (lanes : Nat) {first : Nat} {uop : MicroOp}
    (known : completion first = some uop) :
    FifoLog.due completion (lanes + 1) first =
      { uop with complete := true } ::
        if Rob.mispredicted uop then []
        else FifoLog.due completion lanes (first + 1) := by
  rw [FifoLog.due, known]

theorem due_length_le (completion : Nat → Option MicroOp)
    (lanes first : Nat) :
    (FifoLog.due completion lanes first).length ≤ lanes := by
  induction lanes generalizing first with
  | zero => exact Nat.le_refl 0
  | succ lanes induction =>
      unfold FifoLog.due
      cases completion first with
      | none => exact Nat.zero_le _
      | some uop =>
          by_cases wrong : Rob.mispredicted uop = true
          · simp [wrong]
          · simpa [wrong] using induction (first + 1)

theorem due_getElem {lanes first j : Nat} {uop : MicroOp}
    (found : (FifoLog.due completion lanes first)[j]? = some uop) :
    ∃ completed, completion (first + j) = some completed ∧
      uop = { completed with complete := true } := by
  induction lanes generalizing first j with
  | zero => simp [FifoLog.due] at found
  | succ lanes induction =>
      unfold FifoLog.due at found
      cases known : completion first with
      | none => simp [known] at found
      | some completed =>
          simp only [known] at found
          cases j with
          | zero => exact ⟨completed, known, by simpa using found.symm⟩
          | succ j =>
              rw [List.getElem?_cons_succ] at found
              by_cases wrong : Rob.mispredicted completed = true
              · simp [wrong] at found
              · rw [if_neg wrong] at found
                have later := induction found
                rw [Nat.add_assoc, Nat.add_comm 1 j] at later
                exact later

/-- The retirement loop has retired the first `count` uops due. -/
structure RetiredUpTo (turn : List MicroOp) (first count : Nat)
    (state : Rob.Retirement) : Prop where
  reached : count ≤ turn.length
  lanes : ∀ lane : Fin 6, state.uopRetire lane =
    if lane.val < count then turn.getD lane.val 0 else 0

/-- The pointers after `count` retirements without a misprediction. -/
structure Advanced (turn : List MicroOp) (first last count : Nat)
    (state : Rob.Retirement) : Prop where
  right : (turn.take count).any Rob.mispredicted = false
  recover : state.recover = false
  head : state.robHeadNext = BitVec.ofNat 6 (first + count)
  size : state.robSizeNext.toNat = last - (first + count)

/-- How the retirement loop ends: with every uop that is due. -/
structure RetirementEnds (turn : List MicroOp) (first last : Nat)
    (state : Rob.Retirement) : Prop where
  retired : RetiredUpTo turn first turn.length state
  pointers : Advanced turn first last turn.length state ∨
    (turn.any Rob.mispredicted = true ∧ state.recover = true ∧
      state.robHeadNext = 0 ∧ state.robSizeNext = 0)

/-- Where the buffer does not wrap, an index past its head needs no
reduction. -/
theorem entry_at {rob : Rob} {opList : RobIndex → MicroOp} {first i : Nat}
    (head : rob.robHead = BitVec.ofNat 6 first) (inside : first % 64 + i < 64) :
    Rob.entry opList (rob.robHead.toNat + i) =
      opList (BitVec.ofNat 6 (first + i)) := by
  have position : rob.robHead.toNat + i < 64 := by
    rw [head, BitVec.toNat_ofNat]
    omega
  rw [Rob.entry, if_pos position, BitVec.ofNat_add, BitVec.ofNat_toNat,
    BitVec.setWidth_eq, head, ← BitVec.ofNat_add]

theorem RetiredUpTo.push {turn : List MicroOp} {first : Nat} {i : Fin 6}
    {state : Rob.Retirement} {uop : MicroOp}
    (retired : RetiredUpTo turn first i.val state)
    (next : turn[i.val]? = some uop) :
    RetiredUpTo turn first (i.val + 1) (state.retiring i uop) := by
  obtain ⟨inside, leaves⟩ := List.getElem?_eq_some_iff.mp next
  refine ⟨inside, ?_⟩
  intro lane
  by_cases same : lane = i
  · rw [same, Rob.Retirement.retiring_here, if_pos (Nat.lt_succ_self _),
      List.getD_eq_getElem turn 0 inside, leaves]
  · have unequal : lane.val ≠ i.val := mt Fin.ext same
    rw [Rob.Retirement.retiring_other unequal, retired.lanes]
    by_cases earlier : lane.val < i.val
    · rw [if_pos earlier, if_pos (by omega)]
    · rw [if_neg earlier, if_neg (by omega)]

theorem mispredicted_take {turn : List MicroOp} {count : Nat} {uop : MicroOp}
    (right : (turn.take count).any Rob.mispredicted = false)
    (next : turn[count]? = some uop) :
    (turn.take (count + 1)).any Rob.mispredicted =
      Rob.mispredicted uop := by
  rw [List.take_add_one, next, List.any_append, right, Bool.false_or]
  exact Bool.or_false _

theorem Advanced.push {turn : List MicroOp} {first last : Nat} {i : Fin 6}
    {state : Rob.Retirement} {uop : MicroOp}
    (advanced : Advanced turn first last i.val state)
    (next : turn[i.val]? = some uop)
    (left : 0 < state.robSizeNext.toNat)
    (right : Rob.mispredicted uop = false) :
    Advanced turn first last (i.val + 1) (state.retiring i uop) where
  right := (mispredicted_take advanced.right next).trans right
  recover := advanced.recover
  head := Rob.Retirement.retiring_head advanced.head
  size := by
    rw [Rob.Retirement.retiring_size left, advanced.size, Nat.sub_sub,
      Nat.add_assoc]

/-- The loop at a lane: it has retired what was due before, and the rest of
the turn is due from there. -/
structure Underway (completion : Nat → Option MicroOp) (turn : List MicroOp)
    (lanes first last count : Nat) (state : Rob.Retirement) : Prop where
  remaining : turn.drop count =
    FifoLog.due completion (lanes - count) (first + count)
  retired : RetiredUpTo turn first count state
  advanced : Advanced turn first last count state

section Underway

variable {turn : List MicroOp} {lanes first last count : Nat} {i : Fin 6}
  {state : Rob.Retirement} {uop : MicroOp}

theorem Underway.ends
    (underway : Underway completion turn lanes first last count state)
    (nothing : turn.drop count = []) :
    RetirementEnds turn first last state := by
  have all : turn.length = count := by
    have covered := List.drop_eq_nil_iff.mp nothing
    have reached := underway.retired.reached
    omega
  exact ⟨all ▸ underway.retired, .inl (all ▸ underway.advanced)⟩

/-- A completed entry within reach is the next uop of the turn, and the last
one if it is mispredicted. -/
theorem Underway.next
    (underway : Underway completion turn lanes first last count state)
    (reachable : count < lanes)
    (known : completion (first + count) = some uop) :
    turn[count]? = some { uop with complete := true } ∧
      turn.drop (count + 1) =
        if Rob.mispredicted uop then [] else
          FifoLog.due completion (lanes - (count + 1)) (first + count + 1) := by
  have oneLane : lanes - count = lanes - (count + 1) + 1 := by omega
  have remaining := underway.remaining
  rw [oneLane, due_some _ known] at remaining
  constructor
  · rw [← List.head?_drop, remaining]
    rfl
  · rw [← List.tail_drop, remaining]
    rfl

theorem Underway.push
    (underway : Underway completion turn lanes first last i.val state)
    (reachable : i.val < lanes)
    (known : completion (first + i.val) = some uop)
    (left : 0 < state.robSizeNext.toNat)
    (right : Rob.mispredicted uop = false) :
    Underway completion turn lanes first last (i.val + 1)
      (state.retiring i { uop with complete := true }) := by
  obtain ⟨next, rest⟩ := underway.next reachable known
  rw [right, if_neg Bool.false_ne_true] at rest
  exact ⟨rest, underway.retired.push next,
    underway.advanced.push next left right⟩

theorem Underway.recovers
    (underway : Underway completion turn lanes first last i.val state)
    (reachable : i.val < lanes)
    (known : completion (first + i.val) = some uop)
    (wrong : Rob.mispredicted uop = true) :
    RetirementEnds turn first last
      ((state.retiring i { uop with complete := true }).recovering
        { uop with complete := true }) := by
  obtain ⟨next, rest⟩ := underway.next reachable known
  have onward := underway.retired.push next
  have last : turn.length = i.val + 1 := by
    have inside := onward.reached
    rw [if_pos wrong, List.drop_eq_nil_iff] at rest
    omega
  have taken := mispredicted_take underway.advanced.right next
  rw [← last, List.take_length] at taken
  refine ⟨⟨Nat.le_refl _, ?_⟩, .inr ⟨taken.trans wrong, rfl, rfl, rfl⟩⟩
  rw [last]
  exact onward.lanes

end Underway

theorem retire_ends {rob : Rob} {opList : RobIndex → MicroOp}
    {first last : Nat} (ordered : first ≤ last)
    (head : rob.robHead = BitVec.ofNat 6 first)
    (size : rob.robSize.toNat = last - first)
    (lap : first % 64 + (last - first) ≤ 64)
    (slots : Slots opList completion first last) :
    RetirementEnds
      (FifoLog.due completion (min 6 ((last - first + 1) / 2)) first)
      first last (rob.retire opList) := by
  generalize bound : min 6 ((last - first + 1) / 2) = lanes
  have short := due_length_le completion lanes first
  generalize chosen : FifoLog.due completion lanes first = turn at short ⊢
  refine Rob.retire_rule (Underway completion turn lanes first last)
    (RetirementEnds turn first last) ?_ ?_ ?_ ?_
  · refine ⟨chosen.symm, ⟨Nat.zero_le _, ?_⟩, ⟨rfl, rfl, head, size⟩⟩
    intro lane
    rfl
  · intro i state underway waiting
    have size := underway.advanced.size
    apply underway.ends
    rw [underway.remaining]
    by_cases exhausted : state.robSizeNext.toNat ≤ i.val
    · have noLane : lanes - i.val = 0 := by omega
      rw [noLane]
      rfl
    · have incomplete := waiting.resolve_left exhausted
      rw [entry_at (i := i.val) head (by omega)] at incomplete
      apply due_none
      exact slots.of_incomplete (by omega) (by omega) incomplete
  · intro i state stored underway left found done
    have size := underway.advanced.size
    rw [entry_at (i := i.val) head (by omega)] at found
    obtain ⟨uop, known, entry⟩ :=
      slots.of_complete (by omega) (by omega) (found ▸ done)
    obtain rfl : stored = { uop with complete := true } :=
      found.symm.trans entry
    have reachable : i.val < lanes := by omega
    constructor
    · intro wrong
      exact underway.recovers reachable known wrong
    · intro right
      exact underway.push reachable known (by omega) right
  · intro state underway
    apply underway.ends
    exact List.drop_eq_nil_of_le (by omega)

end Retirement

/-! ## Insertion -/

section Insertion

variable (input : RobInput) (base room : Nat)

/-- Lane `i` stores its uop: it is valid and the buffer is not full. -/
def Stores (i : Fin 4) : Prop :=
  (input.uopIn i).valid = true ∧ validBefore input.uopIn i.val < room

instance (i : Fin 4) : Decidable (Stores input room i) :=
  inferInstanceAs (Decidable (_ ∧ _))

/-- What lane `i` puts out if it stores its uop. -/
def storedUop (i : Fin 4) : MicroOp :=
  { input.uopIn i with
    robIndex := BitVec.ofNat 6 (base + validBefore input.uopIn i.val) }

/-- The first `count` lanes are stored behind the tail `base`. -/
structure InsertedUpTo (opList : RobIndex → MicroOp) (size count : Nat)
    (state : Rob.Insertion) : Prop where
  size : state.robSizeNext.toNat = size + min (validBefore input.uopIn count) room
  out : ∀ i : Fin 4, state.uopOut i =
    if i.val < count ∧ Stores input room i ∧
        base + validBefore input.uopIn i.val < 64 then
      storedUop input base i
    else 0
  stored : ∀ i : Fin 4, i.val < count → Stores input room i →
    base + validBefore input.uopIn i.val < 64 →
    state.opList (BitVec.ofNat 6 (base + validBefore input.uopIn i.val)) =
      storedUop input base i
  kept : ∀ entry : RobIndex,
    entry.toNat < base ∨
      base + min (validBefore input.uopIn count) room ≤ entry.toNat →
    state.opList entry = opList entry

theorem InsertedUpTo.skip {opList : RobIndex → MicroOp} {size : Nat}
    {i : Fin 4} {state next : Rob.Insertion}
    (sofar : InsertedUpTo input base room opList size i.val state)
    (idle : ¬ Stores input room i)
    (sameSize : next.robSizeNext = state.robSizeNext)
    (sameOut : next.uopOut = state.uopOut)
    (sameList : next.opList = state.opList) :
    InsertedUpTo input base room opList size (i.val + 1) next := by
  have covered : min (validBefore input.uopIn (i.val + 1)) room =
      min (validBefore input.uopIn i.val) room := by
    rw [validBefore_succ]
    by_cases valid : (input.uopIn i).valid = true
    · have full : ¬ validBefore input.uopIn i.val < room := fun open_ =>
        idle ⟨valid, open_⟩
      omega
    · rw [if_neg valid, Nat.add_zero]
  have earlier : ∀ lane : Fin 4, lane.val < i.val + 1 →
      Stores input room lane → lane.val < i.val := by
    intro lane below stores
    by_cases same : lane = i
    · subst same
      exact absurd stores idle
    · have unequal : lane.val ≠ i.val := fun equal => same (Fin.ext equal)
      omega
  refine ⟨?_, ?_, ?_, ?_⟩
  · rw [sameSize, covered]
    exact sofar.size
  · intro lane
    rw [sameOut, sofar.out]
    by_cases shown : lane.val < i.val ∧ Stores input room lane ∧
        base + validBefore input.uopIn lane.val < 64
    · rw [if_pos shown, if_pos ⟨by omega, shown.2⟩]
    · rw [if_neg shown, if_neg]
      rintro ⟨below, stores, fits⟩
      exact shown ⟨earlier lane below stores, stores, fits⟩
  · intro lane below stores fits
    rw [sameList]
    exact sofar.stored lane (earlier lane below stores) stores fits
  · intro entry outside
    rw [covered] at outside
    rw [sameList]
    exact sofar.kept entry outside

theorem InsertedUpTo.push {opList : RobIndex → MicroOp} {size : Nat}
    {i : Fin 4} {state : Rob.Insertion}
    (sofar : InsertedUpTo input base room opList size i.val state)
    (stores : Stores input room i) (small : size + room ≤ 64) :
    InsertedUpTo input base room opList size (i.val + 1)
      (state.storing i (base + validBefore input.uopIn i.val)
        (storedUop input base i)) := by
  have more : validBefore input.uopIn (i.val + 1) =
      validBefore input.uopIn i.val + 1 := by
    rw [validBefore_succ, if_pos stores.1]
  have open_ := stores.2
  have size := sofar.size
  refine ⟨?_, ?_, ?_, ?_⟩
  · rw [Rob.Insertion.storing_size (by omega), size, more]
    omega
  · intro lane
    by_cases same : lane = i
    · subst same
      by_cases fits : base + validBefore input.uopIn lane.val < 64
      · rw [if_pos ⟨by omega, stores, fits⟩]
        refine (Function.update_self _ _ _).trans ?_
        rw [Rob.entry, if_pos fits, Rob.store_here fits]
      · rw [if_neg (fun shown => fits shown.2.2)]
        refine (Function.update_self _ _ _).trans ?_
        rw [Rob.entry, if_neg fits]
    · have unequal : lane.val ≠ i.val := fun equal => same (Fin.ext equal)
      change Function.update state.uopOut i _ lane = _
      rw [Function.update_of_ne same, sofar.out]
      by_cases earlier : lane.val < i.val
      · simp only [earlier, Nat.lt_succ_of_lt earlier, true_and]
      · rw [if_neg (fun shown => earlier shown.1),
          if_neg (fun shown => by omega)]
  · intro lane below laneStores fits
    by_cases same : lane = i
    · subst same
      exact Rob.store_here fits
    · have unequal : lane.val ≠ i.val := fun equal => same (Fin.ext equal)
      have earlier : lane.val < i.val := by omega
      have before := validBefore_lt earlier laneStores.1
      refine (Rob.store_other ?_).trans
        (sofar.stored lane earlier laneStores fits)
      rw [BitVec.toNat_ofNat]
      omega
  · intro entry outside
    rw [more] at outside
    refine (Rob.store_other ?_).trans (sofar.kept entry ?_) <;> omega

theorem insert_insertedUpTo (opList : RobIndex → MicroOp)
    {done : Rob.Retirement} (runs : done.recover = false) :
    InsertedUpTo input (done.robHeadNext.toNat + done.robSizeNext.toNat)
      (64 - done.robSizeNext.toNat) opList done.robSizeNext.toNat 4
      (Rob.insert opList done input.uopIn) := by
  have notFull : ∀ {i : Fin 4} {state : Rob.Insertion},
      InsertedUpTo input (done.robHeadNext.toNat + done.robSizeNext.toNat)
        (64 - done.robSizeNext.toNat) opList done.robSizeNext.toNat i.val
        state →
      (state.robSizeNext.toNat < 64 ↔
        validBefore input.uopIn i.val < 64 - done.robSizeNext.toNat) := by
    intro i state sofar
    rw [sofar.size]
    omega
  refine Rob.insert_rule runs
    (InsertedUpTo input (done.robHeadNext.toNat + done.robSizeNext.toNat)
      (64 - done.robSizeNext.toNat) opList done.robSizeNext.toNat) ?_ ?_ ?_ ?_
  · refine ⟨by simp [validBefore], ?_, ?_, fun _ _ => rfl⟩
    · intro i
      rw [if_neg]
      rintro ⟨below, -⟩
      omega
    · intro i below
      omega
  · intro i state sofar full
    refine sofar.skip input _ _ (fun stores => ?_) rfl rfl rfl
    have room := (notFull sofar).mpr stores.2
    omega
  · intro i state sofar empty
    refine sofar.skip input _ _ (fun stores => ?_) rfl rfl rfl
    exact Bool.eq_false_iff.mp empty stores.1
  · intro i state index sofar below valid here
    have stores : Stores input (64 - done.robSizeNext.toNat) i :=
      ⟨valid, (notFull sofar).mp below⟩
    have room := stores.2
    have size := sofar.size
    have place : index = done.robHeadNext.toNat + done.robSizeNext.toNat +
        validBefore input.uopIn i.val := by omega
    rw [place]
    exact sofar.push input _ _ stores (by omega)

end Insertion

/-! ## A cycle -/

theorem lane_of_ahead (input : RobInput) (number count : Nat)
    (below : number < validBefore input.uopIn count) (few : count ≤ 4) :
    ∃ i : Fin 4, i.val < count ∧ (input.uopIn i).valid = true ∧
      validBefore input.uopIn i.val = number := by
  induction count with
  | zero => simp [validBefore] at below
  | succ count induction =>
      by_cases earlier : number < validBefore input.uopIn count
      · obtain ⟨i, low, found⟩ := induction earlier (by omega)
        exact ⟨i, by omega, found⟩
      · have step := validBefore_succ input.uopIn ⟨count, few⟩
        simp only at step
        by_cases valid : (input.uopIn ⟨count, few⟩).valid = true
        · rw [if_pos valid] at step
          exact ⟨⟨count, few⟩, by simp, valid, by simp only; omega⟩
        · rw [if_neg valid] at step
          omega

theorem accepted_length (log : FifoLog) (input : RobInput) :
    (log.accepted input).length =
      min (validBefore input.uopIn 4) (log.room input) := by
  rw [FifoLog.accepted, List.length_take, validBefore_lanes, Nat.min_comm]

namespace RobSystem

open FifoLog

/-- The buffer holds the queue, in one lap of the array. -/
structure Invariant (system : RobSystem) : Prop where
  queue : QueueOk system.log
  head : system.rob.robHead = BitVec.ofNat 6 system.log.retired.length
  size : system.rob.robSize.toNat =
    system.log.inserted.length - system.log.retired.length
  lap : system.log.retired.length % 64 +
    (system.log.inserted.length - system.log.retired.length) ≤ 64
  slots : Slots system.rob.opList system.log.completion
    system.log.retired.length system.log.inserted.length
  recorded : Recorded system.log.completion system.log.inserted.length

theorem invariant_empty (rob : Rob) (head : rob.robHead = 0)
    (size : rob.robSize = 0) :
    Invariant { rob := rob, log := FifoLog.empty } := by
  refine ⟨⟨Nat.le_refl 0, ?_⟩, head, by simp [size, FifoLog.empty],
    by simp [FifoLog.empty], ⟨?_, ?_⟩, ⟨?_, ?_⟩⟩
  · intro j uop found
    simp [FifoLog.empty] at found
  · intro number low high
    simp [FifoLog.empty] at high
  · intro number low high
    simp [FifoLog.empty] at high
  · intro number uop found
    simp [FifoLog.empty] at found
  · intro number uop found
    simp [FifoLog.empty] at found

section Cycle

variable {system : RobSystem} {input : RobInput}

theorem Invariant.completedSlots (holds : Invariant system)
    (input : RobInput) :
    Slots (Rob.complete system.rob.opList input.uopComplete)
      (system.log.completed input) system.log.retired.length
      system.log.inserted.length := by
  have lap := holds.lap
  rw [complete_eq]
  exact holds.slots.completeAll (by omega) _

theorem Invariant.completedRecorded (holds : Invariant system)
    (allowed : Allowed system input) :
    Recorded (system.log.completed input) system.log.inserted.length := by
  refine holds.recorded.completeAll _ ?_
  intro uop member valid
  obtain ⟨i, rfl⟩ := (List.mem_ofFn' _ _).mp member
  exact allowed.inFlight i valid

theorem Invariant.retirement (holds : Invariant system)
    (input : RobInput) :
    RetirementEnds (system.log.turn input) system.log.retired.length
      system.log.inserted.length (system.rob.retired input.uopComplete) :=
  retire_ends holds.queue.short holds.head holds.size holds.lap
    (holds.completedSlots input)

theorem turn_length_le (log : FifoLog) (input : RobInput)
    (short : log.retired.length ≤ log.inserted.length) :
    log.retired.length + (log.turn input).length ≤ log.inserted.length := by
  have few := due_length_le (log.completed input) log.lanes
    log.retired.length
  unfold FifoLog.turn
  unfold FifoLog.lanes at few ⊢
  omega

theorem Invariant.leaving_eq (holds : Invariant system)
    (allowed : Allowed system input) :
    validUops (system.outputs input).uopRetire = system.log.turn input := by
  have lanes : (system.outputs input).uopRetire =
      packed (system.log.turn input) := by
    funext lane
    refine ((holds.retirement input).retired.lanes lane).trans ?_
    by_cases inside : lane.val < (system.log.turn input).length
    · rw [if_pos inside, packed]
    · rw [if_neg inside, packed, List.getD_eq_default _ _ (by omega)]
  rw [lanes]
  refine validUops_packed ?_ ?_
  · have few := due_length_le (system.log.completed input)
      system.log.lanes system.log.retired.length
    exact few.trans (Nat.min_le_left _ _)
  · intro uop member
    obtain ⟨j, inside, rfl⟩ := List.getElem_of_mem member
    obtain ⟨completed, known, same⟩ :=
      due_getElem (List.getElem?_eq_getElem inside)
    rw [same]
    exact (holds.completedRecorded allowed).valid _ completed known

theorem Invariant.recover_eq (holds : Invariant system)
    (input : RobInput) :
    (system.outputs input).recover =
      (system.log.turn input).any Rob.mispredicted := by
  obtain advanced | ⟨wrong, recover, -⟩ :=
    (holds.retirement input).pointers
  · have right := advanced.right
    rw [List.take_length] at right
    exact advanced.recover.trans right.symm
  · exact recover.trans wrong.symm

theorem insertion
    (advanced : Advanced (system.log.turn input) system.log.retired.length
      system.log.inserted.length (system.log.turn input).length
      (system.rob.retired input.uopComplete)) :
    InsertedUpTo input (system.log.tail input) (system.log.room input)
      (Rob.complete system.rob.opList input.uopComplete)
      (system.log.inserted.length -
        (system.log.retired.length + (system.log.turn input).length)) 4
      (system.rob.inserted input.uopComplete input.uopIn) := by
  have inserted := insert_insertedUpTo input
    (Rob.complete system.rob.opList input.uopComplete) advanced.recover
  rw [advanced.head, advanced.size, BitVec.toNat_ofNat] at inserted
  exact inserted

/-- The tail and the next number name the same entry, in the same lap. -/
theorem Invariant.tail_facts (holds : Invariant system)
    (input : RobInput) :
    system.log.tail input ≤ 64 ∧
      ∀ k, (system.log.tail input + k) % 64 =
        (system.log.inserted.length + k) % 64 := by
  have lap := holds.lap
  have within := turn_length_le system.log input holds.queue.short
  unfold FifoLog.tail
  constructor
  · simp only
    omega
  · intro k
    simp only
    omega

theorem Invariant.tail_entry (holds : Invariant system)
    (input : RobInput) (k : Nat) :
    BitVec.ofNat 6 (system.log.tail input + k) =
      BitVec.ofNat 6 (system.log.inserted.length + k) := by
  apply BitVec.eq_of_toNat_eq
  rw [BitVec.toNat_ofNat, BitVec.toNat_ofNat]
  exact (holds.tail_facts input).2 k

theorem fits_iff_stores (low : system.log.tail input ≤ 64) :
    system.log.tail input +
          min (validBefore input.uopIn 4) (system.log.room input) ≤ 64 ↔
      ∀ i, Stores input (system.log.room input) i →
        system.log.tail input + validBefore input.uopIn i.val < 64 := by
  constructor
  · rintro fits i ⟨valid, open_⟩
    have before := validBefore_lt i.isLt valid
    omega
  · intro all
    by_cases none : min (validBefore input.uopIn 4) (system.log.room input) = 0
    · omega
    · obtain ⟨i, -, valid, count⟩ := lane_of_ahead input
        (min (validBefore input.uopIn 4) (system.log.room input) - 1) 4 (by omega)
        (Nat.le_refl 4)
      have here := all i ⟨valid, by omega⟩
      omega

theorem Invariant.cycleOk_of_recover (holds : Invariant system)
    (allowed : Allowed system input)
    (recover : (system.outputs input).recover = true) :
    CycleOk system input := by
  refine ⟨holds.leaving_eq allowed, holds.recover_eq input, ?_⟩
  intro i
  have nothing : (system.outputs input).uopOut i = 0 := by
    change (system.rob.inserted input.uopComplete input.uopIn).uopOut i = 0
    rw [Rob.inserted_of_recover recover]
  rw [nothing, if_neg]
  rintro ⟨goes, -⟩
  rw [recover] at goes
  cases goes

/-- Without one the echoes are right exactly when each uop is stored inside
the array. -/
theorem Invariant.cycleOk_iff_stores (holds : Invariant system)
    (allowed : Allowed system input)
    (advanced : Advanced (system.log.turn input) system.log.retired.length
      system.log.inserted.length (system.log.turn input).length
      (system.rob.retired input.uopComplete)) :
    CycleOk system input ↔ ∀ i, Stores input (system.log.room input) i →
      system.log.tail input + validBefore input.uopIn i.val < 64 := by
  have inserted := insertion advanced
  have goes : (system.outputs input).recover = false := advanced.recover
  have sameEntry : ∀ i, storedUop input (system.log.tail input) i =
      { input.uopIn i with
        robIndex := BitVec.ofNat 6
          (system.log.inserted.length + validBefore input.uopIn i.val) } := by
    intro i
    rw [storedUop, holds.tail_entry]
  constructor
  · intro ok i stores
    by_cases fits : system.log.tail input + validBefore input.uopIn i.val < 64
    · exact fits
    · -- the store falls outside the array and the echo is empty
      have echoed := ok.echoes i
      rw [if_pos ⟨goes, stores⟩] at echoed
      have empty : (system.outputs input).uopOut i = 0 :=
        (inserted.out i).trans (if_neg (fun shown => fits shown.2.2))
      rw [empty] at echoed
      have invalid := congrArg MicroOp.valid echoed
      rw [stores.1] at invalid
      cases invalid
  · intro all
    refine ⟨holds.leaving_eq allowed, holds.recover_eq input, ?_⟩
    intro i
    refine (inserted.out i).trans ?_
    by_cases stores : Stores input (system.log.room input) i
    · rw [if_pos ⟨i.isLt, stores, all i stores⟩, if_pos ⟨goes, stores⟩,
        sameEntry]
    · rw [if_neg (fun shown => stores shown.2.1),
        if_neg (fun shown => stores shown.2)]

/-- The outputs are those of the queue exactly when no accepted uop has to
wrap around. -/
theorem Invariant.cycleOk_iff (holds : Invariant system)
    (allowed : Allowed system input) :
    CycleOk system input ↔ Fits system.log input := by
  obtain advanced | ⟨wrong, recover, -⟩ :=
    (holds.retirement input).pointers
  · have right := advanced.right
    rw [List.take_length] at right
    rw [holds.cycleOk_iff_stores allowed advanced,
      ← fits_iff_stores (holds.tail_facts input).1]
    exact ⟨fun fits _ => fits, fun fits => fits right⟩
  · apply iff_of_true (holds.cycleOk_of_recover allowed recover)
    intro right
    rw [wrong] at right
    cases right

theorem Invariant.next_queue (holds : Invariant system) :
    QueueOk
      { inserted := system.log.inserted ++ system.log.accepted input
        completion := system.log.completed input
        retired := system.log.retired ++ system.log.turn input } := by
  have within := turn_length_le system.log input holds.queue.short
  constructor
  · simp only [List.length_append]
    omega
  · intro j uop found
    simp only at found ⊢
    by_cases old : j < system.log.retired.length
    · rw [List.getElem?_append_left old] at found
      obtain ⟨completion, known, same⟩ := holds.queue.retired j uop found
      refine ⟨completion, ?_, same⟩
      rw [← known]
      exact completeAll_below old _ _
    · rw [List.getElem?_append_right (by omega)] at found
      have position : system.log.retired.length +
          (j - system.log.retired.length) = j := by omega
      have known := due_getElem found
      rwa [position] at known

theorem Invariant.next_log (holds : Invariant system)
    (allowed : Allowed system input)
    (right : (system.log.turn input).any Rob.mispredicted = false) :
    (system.next input).log =
      { inserted := system.log.inserted ++ system.log.accepted input
        completion := system.log.completed input
        retired := system.log.retired ++ system.log.turn input } := by
  have goes := (holds.recover_eq input).trans right
  change system.log.next input (system.outputs input) = _
  rw [FifoLog.next, goes, holds.leaving_eq allowed]
  rfl

theorem Invariant.slots_next (holds : Invariant system)
    (allowed : Allowed system input)
    (advanced : Advanced (system.log.turn input) system.log.retired.length
      system.log.inserted.length (system.log.turn input).length
      (system.rob.retired input.uopComplete))
    (room : system.log.tail input +
      min (validBefore input.uopIn 4) (system.log.room input) ≤ 64) :
    Slots (system.next input).rob.opList (system.log.completed input)
      (system.log.retired.length + (system.log.turn input).length)
      (system.log.inserted.length +
        min (validBefore input.uopIn 4) (system.log.room input)) := by
  have low := (holds.tail_facts input).1
  have inserted := insertion advanced
  have within := turn_length_le system.log input holds.queue.short
  have slots := holds.completedSlots input
  have recorded := holds.completedRecorded allowed
  -- the numbers still in the queue keep their entries
  have kept : ∀ number,
      system.log.retired.length + (system.log.turn input).length ≤ number →
      number < system.log.inserted.length →
      (system.next input).rob.opList (BitVec.ofNat 6 number) =
        Rob.complete system.rob.opList input.uopComplete
          (BitVec.ofNat 6 number) := by
    intro number notLeft old
    refine inserted.kept _ (.inl ?_)
    rw [BitVec.toNat_ofNat]
    unfold FifoLog.tail at low ⊢
    simp only at low ⊢
    omega
  constructor
  · intro number notLeft below uop known
    have old := recorded.below number uop known
    rw [kept number notLeft old]
    exact slots.completed number (by omega) old uop known
  · intro number notLeft below missing
    by_cases old : number < system.log.inserted.length
    · rw [kept number notLeft old]
      exact slots.waiting number (by omega) old missing
    · obtain ⟨i, -, valid, count⟩ := lane_of_ahead input
        (number - system.log.inserted.length) 4 (by omega) (Nat.le_refl 4)
      have stores : Stores input (system.log.room input) i :=
        ⟨valid, by omega⟩
      have inside := (fits_iff_stores low).mp room i stores
      have entry := inserted.stored i i.isLt stores inside
      have place : number =
          system.log.inserted.length + validBefore input.uopIn i.val := by
        omega
      rw [place, ← holds.tail_entry]
      refine (congrArg MicroOp.complete entry).trans ?_
      exact allowed.incomplete i valid

theorem next_of_recover
    (recover : (system.rob.retired input.uopComplete).recover = true)
    (head : (system.rob.retired input.uopComplete).robHeadNext = 0)
    (size : (system.rob.retired input.uopComplete).robSizeNext = 0) :
    Invariant (system.next input) := by
  have log : (system.next input).log = FifoLog.empty := by
    change system.log.next input (system.outputs input) = _
    rw [FifoLog.next, show (system.outputs input).recover = true from recover]
    rfl
  have none : (system.next input).rob.robSize = 0 := by
    change
      (system.rob.inserted input.uopComplete input.uopIn).robSizeNext = 0
    rw [Rob.inserted_of_recover recover]
    exact size
  have empty := invariant_empty (system.next input).rob head none
  rw [← log] at empty
  exact empty

theorem Invariant.next (holds : Invariant system)
    (allowed : Allowed system input) (fits : Fits system.log input) :
    Invariant (system.next input) := by
  obtain advanced | ⟨-, recover, noHead, noSize⟩ :=
    (holds.retirement input).pointers
  · have right := advanced.right
    rw [List.take_length] at right
    have room := fits right
    have inserted := insertion advanced
    have within := turn_length_le system.log input holds.queue.short
    have recorded := holds.completedRecorded allowed
    have log := holds.next_log allowed right
    have retiredLength : (system.next input).log.retired.length =
        system.log.retired.length + (system.log.turn input).length := by
      rw [log, List.length_append]
    have insertedLength : (system.next input).log.inserted.length =
        system.log.inserted.length +
          min (validBefore input.uopIn 4) (system.log.room input) := by
      rw [log, List.length_append, accepted_length]
    have completion : (system.next input).log.completion =
        system.log.completed input := by
      rw [log]
    refine ⟨?_, ?_, ?_, ?_, ?_, ⟨?_, ?_⟩⟩
    · rw [log]
      exact holds.next_queue
    · rw [retiredLength]
      exact advanced.head
    · rw [retiredLength, insertedLength]
      refine inserted.size.trans ?_
      omega
    · rw [retiredLength, insertedLength]
      unfold FifoLog.tail at room
      simp only at room
      omega
    · rw [retiredLength, insertedLength, completion]
      exact holds.slots_next allowed advanced room
    · intro number uop known
      rw [completion] at known
      exact recorded.valid number uop known
    · intro number uop known
      rw [completion] at known
      rw [insertedLength]
      have old := recorded.below number uop known
      omega
  · exact next_of_recover recover noHead noSize

end Cycle

/-! ## Runs -/

/-- The cycles in which every accepted uop finds its entry. -/
def Guarded (system : RobSystem) (input : RobInput) : Prop :=
  Allowed system input ∧ Fits system.log input

theorem run_invariant {system : RobSystem}
    (run : Run start next Guarded system) : Invariant system := by
  refine run.invariant Invariant ?_ ?_
  · rintro _ rfl
    exact invariant_empty _ rfl rfl
  · intro system input holds guarded
    exact holds.next guarded.1 guarded.2

/-- In a run in which no accepted uop had to wrap around, the buffer is a
queue, and it stays one for another cycle exactly if none has to. -/
theorem rob_is_fifo {system : RobSystem}
    (run : Run start next Guarded system) :
    QueueOk system.log ∧
      ∀ input, Allowed system input →
        (CycleOk system input ↔ Fits system.log input) := by
  have holds := run_invariant run
  exact ⟨holds.queue, fun input allowed => holds.cycleOk_iff allowed⟩

/-- A cycle with four valid uops and the given completion in lane 0. -/
def group (completion : MicroOp) : RobInput :=
  { uopComplete := fun i => if i = 0 then completion else 0
    uopIn := fun _ => { (0 : MicroOp) with valid := true } }

def firstDone : MicroOp :=
  { (0 : MicroOp) with valid := true }

theorem rob_is_fifo_second_cycle :
    CycleOk (next { rob := .resetState, log := .empty } (group 0))
      (group firstDone) := by
  have first : Guarded { rob := .resetState, log := .empty } (group 0) := by
    refine ⟨⟨?_, fun _ _ => rfl⟩, ?_⟩
    · intro i valid
      revert i
      decide
    · intro _
      decide
  have second : Allowed (next { rob := .resetState, log := .empty } (group 0))
      (group firstDone) := by
    refine ⟨?_, fun _ _ => rfl⟩
    decide
  refine ((rob_is_fifo (.step (group 0) (.start rfl) first)).2 _ second).mpr ?_
  intro _
  decide

/-- After `cycles` full groups without a completion. -/
def filled : Nat → RobSystem
  | 0 => { rob := .resetState, log := .empty }
  | cycles + 1 => next (filled cycles) (group 0)

theorem turn_eq_nil {log : FifoLog} {input : RobInput}
    (missing : log.completed input log.retired.length = none) :
    log.turn input = [] :=
  due_none log.lanes missing

theorem allowed_group (system : RobSystem) : Allowed system (group 0) := by
  refine ⟨?_, fun _ _ => rfl⟩
  intro i valid
  have nothing : (group 0).uopComplete i = 0 := ite_self 0
  rw [nothing] at valid
  cases valid

theorem filled_log {cycles : Nat} (few : cycles ≤ 15) :
    Run start next Guarded (filled cycles) ∧
      (filled cycles).log.inserted.length = 4 * cycles ∧
        (filled cycles).log.retired = [] ∧
          ∀ number, (filled cycles).log.completion number = none := by
  induction cycles with
  | zero => exact ⟨.start rfl, rfl, rfl, fun _ => rfl⟩
  | succ cycles induction =>
      obtain ⟨run, inserted, retired, missing⟩ := induction (by omega)
      have idle : (filled cycles).log.turn (group 0) = [] :=
        turn_eq_nil (missing _)
      have room : (filled cycles).log.room (group 0) = 64 - 4 * cycles := by
        rw [FifoLog.room, idle, inserted, retired]
        rfl
      have fits : Fits (filled cycles).log (group 0) := by
        intro _
        rw [FifoLog.tail, room, idle, inserted, retired]
        change 0 + (4 * cycles - 0) + min 4 (64 - 4 * cycles) ≤ 64
        omega
      have log := (run_invariant run).next_log (allowed_group _)
        (by rw [idle]; rfl)
      refine ⟨.step (group 0) run ⟨allowed_group _, fits⟩, ?_, ?_, ?_⟩
      · rw [filled, log, List.length_append, accepted_length, room, inserted]
        change 4 * cycles + min 4 (64 - 4 * cycles) = 4 * (cycles + 1)
        omega
      · rw [filled, log, idle, retired]
        rfl
      · intro number
        rw [filled, log]
        exact missing number

/-- Sixty uops are in flight; the oldest completes and leaves, and four more
take the last entries of the array.  The next uop is accepted, since one entry
is free, but it is stored at index 64. -/
theorem wrapping_uop_is_lost :
    ∃ system, Run start next Allowed system ∧
      Allowed system (group 0) ∧ 0 < system.log.room (group 0) ∧
        ¬ CycleOk system (group 0) := by
  obtain ⟨run, inserted, retired, missing⟩ := filled_log (Nat.le_refl 15)
  generalize filled 15 = before at run inserted retired missing
  have allowed : Allowed before (group firstDone) := by
    refine ⟨?_, fun _ _ => rfl⟩
    rw [retired, inserted]
    decide
  have completed : ∀ number, before.log.completed (group firstDone) number =
      if number = 0 then some firstDone else none := by
    intro number
    have log : before.log.completion = fun _ => none := funext missing
    rw [FifoLog.completed, retired, log]
    change Function.update (fun _ => none) 0 (some firstDone) number = _
    rw [Function.update_apply]
  have oneLeaves : before.log.turn (group firstDone) =
      [{ firstDone with complete := true }] := by
    rw [FifoLog.turn, FifoLog.lanes, inserted, retired]
    change FifoLog.due _ 6 0 = _
    rw [FifoLog.due, completed, if_pos rfl]
    change { firstDone with complete := true } ::
      FifoLog.due _ 5 1 = _
    rw [FifoLog.due, completed, if_neg (by decide)]
  have room : before.log.room (group firstDone) = 5 := by
    rw [FifoLog.room, oneLeaves, inserted, retired]
    rfl
  have fits : Fits before.log (group firstDone) := by
    intro _
    rw [FifoLog.tail, room, oneLeaves, inserted, retired]
    decide
  have guarded : Guarded before (group firstDone) := ⟨allowed, fits⟩
  have log := (run_invariant run).next_log allowed (by rw [oneLeaves]; rfl)
  have holds := run_invariant (.step _ run guarded)
  have retiredFull : (before.next (group firstDone)).log.retired.length =
      1 := by
    rw [log, retired, oneLeaves]
    rfl
  have insertedFull :
      (before.next (group firstDone)).log.inserted.length = 64 := by
    rw [log, List.length_append, accepted_length, room, inserted]
    rfl
  have idle : (before.next (group firstDone)).log.turn (group 0) = [] := by
    refine turn_eq_nil ?_
    rw [retiredFull, log]
    exact completed 1
  have lastRoom :
      (before.next (group firstDone)).log.room (group 0) = 1 := by
    rw [FifoLog.room, idle, insertedFull, retiredFull]
    rfl
  have wraps : ¬ Fits (before.next (group firstDone)).log (group 0) := by
    intro fits
    have bound := fits (by rw [idle]; rfl)
    rw [FifoLog.tail, lastRoom, idle, insertedFull, retiredFull] at bound
    revert bound
    decide
  refine ⟨before.next (group firstDone),
    (Run.step _ run guarded).mono fun _ _ guarded => guarded.1,
    allowed_group _, ?_, ?_⟩
  · rw [lastRoom]
    exact Nat.one_pos
  · rw [holds.cycleOk_iff (allowed_group _)]
    exact wraps

end RobSystem

end Ria
