import Ria.Sim.StoreBuffer
import Mathlib.Data.List.TakeWhile

/-!
# Committing stores

The loop of `CommitStoreRequest` applies the oldest stores to memory in order,
up to one that halts the simulation, and removes them from the buffer.
-/

namespace Ria

open ByteMemory

/-- The effect of one retired store on memory. -/
def StoreRequest.apply (memory : Memory 32) (req : StoreRequest) : Memory 32 :=
  if req.addr = putcharAddr then memory
  else write memory req.addr req.bytes

namespace StoreBuffer

theorem flat_commitOne (store : StoreBuffer) (req : StoreRequest)
    (rest : List StoreRequest) :
    (store.commitOne req rest).memory.flat = req.apply store.memory.flat := by
  unfold commitOne StoreRequest.apply
  by_cases putchar : req.addr = putcharAddr
  · rw [if_pos putchar, if_pos putchar]
  · rw [if_neg putchar, if_neg putchar]
    have short : req.bytes.length ≤ 2 ^ 32 := by
      rw [req.bytes_length]
      cases req.size <;> decide
    exact store.memory.flat_writeBytes req.bytes req.addr short

theorem commitOne_buffer (store : StoreBuffer) (req : StoreRequest)
    (rest : List StoreRequest) :
    (store.commitOne req rest).buffer = rest := by
  unfold commitOne
  by_cases putchar : req.addr = putcharAddr
  · rw [if_pos putchar]
  · rw [if_neg putchar]

/-- The loop applies the first `count` requests up to a halting one. -/
theorem flat_commitLoop (count : Nat) (store : StoreBuffer) :
    (commitLoop count store).1.memory.flat =
      ((store.buffer.take count).takeWhile
        (fun req => req.addr != haltAddr)).foldl StoreRequest.apply
        store.memory.flat := by
  induction count generalizing store with
  | zero => rfl
  | succ count induction =>
      unfold commitLoop
      cases requests : store.buffer with
      | nil => rfl
      | cons req rest =>
          by_cases halt : req.addr = haltAddr
          · simp [halt, flushStoreBuffer]
          · simp [halt, induction, commitOne_buffer, flat_commitOne]

theorem commitLoop_stops_iff (count : Nat) (store : StoreBuffer) :
    (commitLoop count store).2 = -1 ↔
      ∃ req ∈ store.buffer.take count, req.addr = haltAddr := by
  induction count generalizing store with
  | zero => simp [commitLoop]
  | succ count induction =>
      unfold commitLoop
      cases requests : store.buffer with
      | nil => simp
      | cons req rest =>
          by_cases halt : req.addr = haltAddr
          · simp [halt]
          · simp [halt, induction, commitOne_buffer]

/-- A loop that is not stopped removes the first `count` requests. -/
theorem commitLoop_buffer (count : Nat) (store : StoreBuffer)
    (runs : (commitLoop count store).2 ≠ -1) :
    (commitLoop count store).1.buffer = store.buffer.drop count := by
  induction count generalizing store with
  | zero => rfl
  | succ count induction =>
      unfold commitLoop at runs ⊢
      cases requests : store.buffer with
      | nil => simp [requests]
      | cons req rest =>
          by_cases halt : req.addr = haltAddr
          · simp [requests, halt] at runs
          · simp only [requests, halt, if_false] at runs ⊢
            rw [induction _ runs, commitOne_buffer]
            rfl

end StoreBuffer

end Ria
