import Ria.Common.MicroOp
import Ria.Library.FifoQueue
import Ria.Library.Loop

/-!
# Fetch buffer

Four lane queues that share the handshake of the producer: the signal that
offers a group also dequeues the lanes.  So a group leaves in the cycle that
offers the next one, and no lane ever holds two.
-/

namespace Ria

open Hdl

/-- The inputs of `fetch_buffer`. -/
structure FetchBufferInput where
  reset : Bool
  instsIn : Fin 4 → FbEntry
  instsInValid : Bool

/-- The group offered in the cycle, if any. -/
def FetchBufferInput.offer (input : FetchBufferInput) :
    List (Fin 4 → FbEntry) :=
  if input.instsInValid then [input.instsIn] else []

/-- `fetch_buffer` over the queue of its lanes. -/
structure FetchBuffer (lane : FifoQueue 16 FbEntry) where
  fbFifo : Fin 4 → lane.State

namespace FetchBuffer

variable {lane : FifoQueue 16 FbEntry}

section Signals

variable (buffer : FetchBuffer lane) (input : FetchBufferInput)

def readyHub : BitVec 4 :=
  BitVec.ofBool (lane.enqReady (buffer.fbFifo 3)) ++
    BitVec.ofBool (lane.enqReady (buffer.fbFifo 2)) ++
    BitVec.ofBool (lane.enqReady (buffer.fbFifo 1)) ++
    BitVec.ofBool (lane.enqReady (buffer.fbFifo 0))

/-- `~ready_hub == 0`.  The literal has 32 bits, so `ready_hub` is extended
with zeros before it is inverted. -/
def full : Bool := ~~~buffer.readyHub.setWidth 32 == 0#32

def instsOut : Fin 4 → FbEntry := fun i => lane.deqData (buffer.fbFifo i)

def instsOutValid : Fin 4 → Bool :=
  fun i => lane.deqValid (buffer.fbFifo i) && (buffer.instsOut i).valid

def next : FetchBuffer lane :=
  { fbFifo := fun i => lane.next (buffer.fbFifo i)
      { rst := input.reset
        enqValid := input.instsInValid
        enqData := input.instsIn i
        deqReady := input.instsInValid } }

/-- What a lane takes in. -/
def enqueued (i : Fin 4) : List FbEntry :=
  if input.instsInValid && lane.enqReady (buffer.fbFifo i) then
    [input.instsIn i]
  else []

/-- What a lane gives out. -/
def dequeued (i : Fin 4) : List FbEntry :=
  if lane.deqValid (buffer.fbFifo i) && input.instsInValid then
    [lane.deqData (buffer.fbFifo i)]
  else []

end Signals

/-- The extended bits keep `full` low. -/
theorem full_eq_false (buffer : FetchBuffer lane) : buffer.full = false := by
  have top : ∀ hub : BitVec 4, ~~~hub.setWidth 32 ≠ 0#32 := by
    decide
  exact beq_eq_false_iff_ne.mpr (top buffer.readyHub)

end FetchBuffer

/-! ## The buffer with a record of its traffic -/

/-- Since the last reset: the groups offered, and the entries each lane took
in and gave out, oldest first. -/
structure FetchBufferLog where
  offered : List (Fin 4 → FbEntry)
  stored : Fin 4 → List FbEntry
  removed : Fin 4 → List FbEntry

structure RecordedBuffer (lane : FifoQueue 16 FbEntry) where
  buffer : FetchBuffer lane
  log : FetchBufferLog

namespace RecordedBuffer

variable {lane : FifoQueue 16 FbEntry}

def empty : FetchBufferLog :=
  { offered := [], stored := fun _ => [], removed := fun _ => [] }

section Step

variable (system : RecordedBuffer lane) (input : FetchBufferInput)

def nextLog : FetchBufferLog :=
  if input.reset then empty
  else
    { offered := system.log.offered ++ input.offer
      stored := fun i => system.log.stored i ++ system.buffer.enqueued input i
      removed := fun i =>
        system.log.removed i ++ system.buffer.dequeued input i }

def next : RecordedBuffer lane :=
  { buffer := system.buffer.next input, log := system.nextLog input }

end Step

/-- The buffer after a cycle of reset. -/
def afterReset (before : FetchBuffer lane) : RecordedBuffer lane :=
  { buffer := before.next
      { reset := true, instsIn := fun _ => 0, instsInValid := false }
    log := empty }

theorem dropLast_append_toList {α : Type} (items : List α) :
    items.dropLast ++ items.getLast?.toList = items := by
  cases last : items.getLast? with
  | none => rw [List.getLast?_eq_none_iff.mp last]; rfl
  | some item => exact List.dropLast_append_getLast? item last

/-- Each lane has taken in its part of every group, holds that of the last one
and has given out those of the others. -/
structure Passes (system : RecordedBuffer lane) : Prop where
  items : ∀ i, lane.items (system.buffer.fbFifo i) =
    system.log.offered.getLast?.toList.map (· i)
  stored : ∀ i, system.log.stored i = system.log.offered.map (· i)
  removed : ∀ i, system.log.removed i = system.log.offered.dropLast.map (· i)

theorem passes_empty {system : RecordedBuffer lane} (log : system.log = empty)
    (reset : ∀ i, lane.items (system.buffer.fbFifo i) = []) :
    Passes system := by
  constructor
  · intro i
    rw [reset, log]
    rfl
  · intro i
    rw [log]
    rfl
  · intro i
    rw [log]
    rfl

section Invariant

variable {system : RecordedBuffer lane}

theorem Passes.items_short (passes : Passes system) (i : Fin 4) :
    (lane.items (system.buffer.fbFifo i)).length ≤ 1 := by
  rw [passes.items, List.length_map]
  exact Option.length_toList_le

theorem Passes.enqReady (passes : Passes system) (i : Fin 4) :
    lane.enqReady (system.buffer.fbFifo i) = true :=
  FifoQueue.enqReady_of_short (passes.items_short i) (by decide)

theorem Passes.enqueued (passes : Passes system) (input : FetchBufferInput)
    (i : Fin 4) :
    system.buffer.enqueued input i = input.offer.map (· i) := by
  rw [FetchBuffer.enqueued, FetchBufferInput.offer, passes.enqReady]
  cases input.instsInValid with
  | false => rfl
  | true => rfl

theorem Passes.dequeued (passes : Passes system) {input : FetchBufferInput}
    (offers : input.instsInValid = true) (i : Fin 4) :
    system.buffer.dequeued input i =
      system.log.offered.getLast?.toList.map (· i) := by
  rw [FetchBuffer.dequeued, offers, Bool.and_true, ← passes.items]
  have short := passes.items_short i
  cases held : lane.items (system.buffer.fbFifo i) with
  | nil =>
      refine if_neg ?_
      rw [lane.deqValid_iff, held]
      exact not_not.mpr rfl
  | cons entry rest =>
      have valid : lane.deqValid (system.buffer.fbFifo i) = true := by
        rw [lane.deqValid_iff, held]
        exact List.cons_ne_nil _ _
      have front : lane.deqData (system.buffer.fbFifo i) = entry :=
        lane.deqData_of_head _ _ (by rw [held]; rfl)
      have alone : rest = [] := by
        rw [held, List.length_cons] at short
        exact List.length_eq_zero_iff.mp (by omega)
      rw [if_pos valid, front, alone]

theorem Passes.next (passes : Passes system) (input : FetchBufferInput) :
    Passes (system.next input) := by
  cases reset : input.reset with
  | true =>
      refine passes_empty (if_pos reset) ?_
      intro i
      exact lane.items_reset _ _ reset
  | false =>
      have record : (system.next input).log =
          { offered := system.log.offered ++ input.offer
            stored := fun i =>
              system.log.stored i ++ system.buffer.enqueued input i
            removed := fun i =>
              system.log.removed i ++ system.buffer.dequeued input i } :=
        if_neg (by simp [reset])
      constructor
      · intro i
        have step := FifoQueue.items_exchange (passes.items_short i)
          (by decide) input.instsInValid (input.instsIn i)
        have wired : (system.next input).buffer.fbFifo i =
            lane.next (system.buffer.fbFifo i)
              (FifoQueue.exchange input.instsInValid (input.instsIn i)) := by
          rw [FifoQueue.exchange, ← reset]
          rfl
        rw [wired, step, record, FetchBufferInput.offer]
        cases input.instsInValid with
        | false => simpa using passes.items i
        | true => simp
      · intro i
        simp only [record]
        rw [List.map_append, passes.stored, passes.enqueued]
      · intro i
        simp only [record]
        cases offers : input.instsInValid with
        | false =>
            simp [FetchBuffer.dequeued, FetchBufferInput.offer, offers,
              passes.removed]
        | true =>
            rw [passes.removed, passes.dequeued offers, ← List.map_append,
              dropLast_append_toList, FetchBufferInput.offer, if_pos offers,
              List.dropLast_concat]

end Invariant

theorem passes_states (before : FetchBuffer lane)
    (input : Nat → FetchBufferInput) (time : Nat) :
    Passes (states next (afterReset before) input time) := by
  induction time with
  | zero => exact passes_empty rfl fun i => lane.items_reset _ _ rfl
  | succ time induction => exact induction.next _

/-- The producer is never refused, every group offered is stored in all four
lanes, and the lanes stay aligned.  Every group is removed from all of them
exactly once, in the order of entry and in the cycle that offers the next one;
the group offered last stays. -/
theorem fetchBuffer_passes_groups (lane : FifoQueue 16 FbEntry)
    (before : FetchBuffer lane) (input : Nat → FetchBufferInput)
    (time : Nat) :
    let system := states next (afterReset before) input time
    let held := system.log.offered.getLast?.toList
    (system.buffer.full = false ∧
      ∀ i, lane.enqReady (system.buffer.fbFifo i) = true) ∧
    (∀ i, system.log.stored i = system.log.offered.map (· i)) ∧
    (∀ i, lane.items (system.buffer.fbFifo i) = held.map (· i)) ∧
    (∀ i, system.log.removed i = system.log.offered.dropLast.map (· i)) ∧
    (∀ i, system.buffer.dequeued (input time) i =
      if (input time).instsInValid then held.map (· i) else []) := by
  intro system held
  have passes : Passes system := passes_states before input time
  refine ⟨⟨system.buffer.full_eq_false, passes.enqReady⟩, passes.stored,
    passes.items, passes.removed, ?_⟩
  intro i
  cases offers : (input time).instsInValid with
  | false => simp [FetchBuffer.dequeued, offers]
  | true => exact passes.dequeued offers i

/-- The group with the four addresses from `pc` on. -/
def groupAt (pc : Word) : Fin 4 → FbEntry :=
  fun i => { (0 : FbEntry) with pc := pc + 4 * i.val, valid := true }

/-- Two groups, in the first cycle and in the third. -/
def offerTwo (time : Nat) : FetchBufferInput :=
  { reset := false
    instsIn := groupAt (if time = 0 then 0 else 16)
    instsInValid := time == 0 || time == 2 }

def emptyLanes : FetchBuffer (listQueue 16 FbEntry) :=
  { fbFifo := fun _ => ([] : List FbEntry) }

theorem fetchBuffer_passes_two_groups :
    let system := states next (afterReset emptyLanes) offerTwo 3
    (∀ i, system.log.stored i = [groupAt 0 i, groupAt 16 i]) ∧
      (∀ i, (listQueue 16 FbEntry).items (system.buffer.fbFifo i) =
        [groupAt 16 i]) ∧
      ∀ i, system.log.removed i = [groupAt 0 i] := by
  obtain ⟨-, stored, held, removed, -⟩ :=
    fetchBuffer_passes_groups (listQueue 16 FbEntry) emptyLanes offerTwo 3
  exact ⟨stored, held, removed⟩

/-- A single group. -/
def offerOnce (time : Nat) : FetchBufferInput :=
  { reset := false, instsIn := fun _ => 0, instsInValid := time == 0 }

theorem offered_offerOnce {lane : FifoQueue 16 FbEntry}
    (before : FetchBuffer lane) (time : Nat) :
    (states next (afterReset before) offerOnce (time + 1)).log.offered =
      [fun _ => 0] := by
  induction time with
  | zero => rfl
  | succ time induction =>
      have kept : (states next (afterReset before) offerOnce
          (time + 2)).log.offered =
          (states next (afterReset before) offerOnce
            (time + 1)).log.offered ++ [] := rfl
      rw [kept, induction]
      rfl

/-- A group that no other follows is never removed. -/
theorem fetchBuffer_keeps_last_group :
    ¬ ∀ (lane : FifoQueue 16 FbEntry) (before : FetchBuffer lane)
        (input : Nat → FetchBufferInput),
      (∀ time, (input time).reset = false) →
      (∀ time, (input time).instsInValid = true →
        (states next (afterReset before) input time).buffer.full = false) →
      ∀ time count,
        count < (states next (afterReset before) input
          time).log.offered.length →
        ∃ later, time ≤ later ∧ ∀ i,
          count < ((states next (afterReset before) input
            later).log.removed i).length := by
  intro removesEach
  obtain ⟨later, reached, gone⟩ := removesEach (listQueue 16 FbEntry)
    emptyLanes offerOnce (fun _ => rfl)
    (fun _ _ => FetchBuffer.full_eq_false _) 1 0
    (by rw [offered_offerOnce]; exact Nat.zero_lt_one)
  obtain ⟨before, rfl⟩ := Nat.exists_eq_add_of_le' reached
  have none := gone 0
  rw [(passes_states _ offerOnce (before + 1)).removed,
    offered_offerOnce] at none
  exact absurd none (Nat.lt_irrefl 0)

end RecordedBuffer

end Ria
