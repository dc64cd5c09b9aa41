import Ria.Sim.SimMemory

/-!
# The simulator's memory as a flat byte array

`MemoryCall` is one call of `write_bytes` or `read_bytes`.  A sequence of
calls on the empty memory reads what the last write to each address left,
wherever the blocks lie: `lastWritten` looks the calls up from the last one
back.  `pieces` is what `walkThrough` hands to its callback, and the
addresses of the pieces are the addresses of the block, each once.
-/

namespace Ria

open ByteMemory

section Walk

/-- What one iteration of `walk_through` hands to its callback. -/
structure MemoryPiece where
  pos : SimAddr
  start : Nat
  count : Nat

/-- The addresses of the bytes of a piece. -/
def MemoryPiece.addresses (piece : MemoryPiece) : List SimAddr :=
  (List.range piece.count).map fun index =>
    makeAddr piece.pos (BitVec.ofNat 32 (piece.start + index))

/-- The pieces of a block, in the order of the walk. -/
def pieces (addr : SimAddr) (size : Nat) : List MemoryPiece :=
  walkThrough (fun pos start count seen => seen ++ [⟨pos, start, count⟩])
    addr size []

theorem walkThrough_map {σ τ : Type} (project : σ → τ)
    {f : SimAddr → Nat → Nat → σ → σ} {g : SimAddr → Nat → Nat → τ → τ}
    (respects : ∀ pos start count state,
      project (f pos start count state) = g pos start count (project state))
    (addr : SimAddr) (size : Nat) (state : σ) :
    project (walkThrough f addr size state) =
      walkThrough g addr size (project state) := by
  induction size using Nat.strongRecOn generalizing addr state with
  | ind size induction =>
      rw [walkThrough.eq_def f, walkThrough.eq_def g]
      by_cases more : 0 < size
      · have smaller : size - pieceSize addr size < size :=
          Nat.sub_lt more (pieceSize_pos addr more)
        have rest := induction _ smaller
          (addr + BitVec.ofNat 32 (pieceSize addr size))
          (f (whichBucket addr) (posInBucket addr) (pieceSize addr size)
            state)
        rw [respects] at rest
        rw [if_pos more, if_pos more]
        exact rest
      · rw [if_neg more, if_neg more]

/-- `walk_through` runs its callback over the pieces, whatever it does. -/
theorem walkThrough_eq_foldl {σ : Type} (f : SimAddr → Nat → Nat → σ → σ)
    (addr : SimAddr) (size : Nat) (state : σ) :
    walkThrough f addr size state =
      (pieces addr size).foldl
        (fun state piece => f piece.pos piece.start piece.count state)
        state := by
  symm
  apply walkThrough_map
    (fun seen : List MemoryPiece => seen.foldl
      (fun state piece => f piece.pos piece.start piece.count state) state)
  intro pos start count seen
  exact List.foldl_append

theorem makeAddr_split (addr : SimAddr) :
    makeAddr (whichBucket addr) (BitVec.ofNat 32 (posInBucket addr)) =
      addr := by
  apply BitVec.eq_of_toNat_eq
  have bound := addr.isLt
  simp only [makeAddr, whichBucket, posInBucket, bucketSize,
    BitVec.toNat_add, BitVec.toNat_shiftLeft, BitVec.toNat_ushiftRight,
    BitVec.toNat_ofNat, Nat.shiftRight_eq_div_pow, Nat.shiftLeft_eq]
  omega

theorem addresses_piece (addr : SimAddr) (count : Nat) :
    MemoryPiece.addresses ⟨whichBucket addr, posInBucket addr, count⟩ =
      block addr count := by
  apply List.map_congr_left
  intro index _
  calc makeAddr (whichBucket addr) (BitVec.ofNat 32 (posInBucket addr + index))
      = makeAddr (whichBucket addr) (BitVec.ofNat 32 (posInBucket addr)) +
          BitVec.ofNat 32 index := by
        rw [makeAddr, makeAddr, BitVec.ofNat_add, BitVec.add_assoc]
    _ = addr + BitVec.ofNat 32 index := by rw [makeAddr_split]

/-- The pieces of a block cover its addresses in order. -/
theorem pieces_addresses (addr : SimAddr) (size : Nat) :
    (pieces addr size).flatMap MemoryPiece.addresses = block addr size := by
  -- what was visited followed by what is left is the whole block
  obtain ⟨last, done⟩ := BucketMemory.walkThrough_rule
    (fun pos start count seen => seen ++ [⟨pos, start, count⟩])
    (fun next left (seen : List MemoryPiece) =>
      seen.flatMap MemoryPiece.addresses ++ block next left =
        block addr size)
    (by
      intro next left seen more sofar
      have cut := block_add next (pieceSize next left)
        (left - pieceSize next left)
      rw [Nat.add_sub_cancel' (pieceSize_le next left)] at cut
      rw [List.flatMap_append, List.flatMap_singleton, addresses_piece,
        List.append_assoc, ← cut]
      exact sofar)
    addr size [] rfl
  rw [block_zero, List.append_nil] at done
  exact done

end Walk

/-- A call of `write_bytes(src, size, addr)` or `read_bytes(dest, addr,
size)`; `src` points to `size` bytes. -/
inductive MemoryCall where
  | writeBytes (size : BitVec 32) (src : Fin size.toNat → Byte)
      (addr : SimAddr)
  | readBytes (addr : SimAddr) (size : BitVec 32)

namespace BucketMemory

/-- A memory that no call has touched. -/
def untouched : BucketMemory := fun _ => none

/-- One call: the memory afterwards and the bytes copied to `dest`. -/
def call (memory : BucketMemory) : MemoryCall → BucketMemory × List Byte
  | .writeBytes _ src addr => (memory.writeBytes (List.ofFn src) addr, [])
  | .readBytes addr size => memory.readBytes addr size.toNat

/-- The memory after a sequence of calls. -/
def after (memory : BucketMemory) (calls : List MemoryCall) : BucketMemory :=
  calls.foldl (fun memory call => (memory.call call).1) memory

/-- What a sequence of calls copies to `dest`, call by call. -/
def results (memory : BucketMemory) : List MemoryCall → List (List Byte)
  | [] => []
  | call :: later =>
      (memory.call call).2 :: results (memory.call call).1 later

end BucketMemory

/-- The byte that a call writes to `target`. -/
def MemoryCall.written (target : SimAddr) : MemoryCall → Option Byte
  | .writeBytes size src addr =>
      if within : (target - addr).toNat < size.toNat then
        some (src ⟨_, within⟩)
      else none
  | .readBytes _ _ => none

/-- The last byte that a sequence of calls writes to `target`. -/
def lastWritten (target : SimAddr) : List MemoryCall → Option Byte
  | [] => none
  | call :: later => (lastWritten target later).or (call.written target)

namespace BucketMemory

variable {memory other : BucketMemory}

theorem flat_writeSized (memory : BucketMemory) {size : BitVec 32}
    (src : Fin size.toNat → Byte) (addr : SimAddr) :
    (memory.writeBytes (List.ofFn src) addr).flat =
      write memory.flat addr (List.ofFn src) := by
  apply flat_writeBytes
  rw [List.length_ofFn]
  exact Nat.le_of_lt size.isLt

theorem flat_call (memory : BucketMemory) (call : MemoryCall)
    (target : SimAddr) :
    (memory.call call).1.flat target =
      (call.written target).getD (memory.flat target) := by
  cases call with
  | writeBytes size src addr =>
      have written := congrFun (flat_writeSized memory src addr) target
      rw [write, List.getElem?_ofFn] at written
      exact written
  | readBytes addr size =>
      exact congrFun (readBytes_read memory addr size.toNat).1 target

theorem flat_after (memory : BucketMemory) (calls : List MemoryCall)
    (target : SimAddr) :
    (memory.after calls).flat target =
      (lastWritten target calls).getD (memory.flat target) := by
  induction calls generalizing memory with
  | nil => rfl
  | cons call later induction =>
      have rest := induction (memory.call call).1
      rw [flat_call] at rest
      rw [lastWritten, Option.getD_or]
      exact rest

/-- What a call copies depends on the byte array only. -/
theorem call_congr (same : memory.flat = other.flat) (call : MemoryCall) :
    (memory.call call).2 = (other.call call).2 ∧
      (memory.call call).1.flat = (other.call call).1.flat := by
  constructor
  · cases call with
    | writeBytes size src addr => rfl
    | readBytes addr size =>
        have here := (readBytes_read memory addr size.toNat).2
        have there := (readBytes_read other addr size.toNat).2
        rw [same] at here
        exact here.trans there.symm
  · funext target
    rw [flat_call, flat_call, same]

theorem results_congr (same : memory.flat = other.flat)
    (calls : List MemoryCall) :
    memory.results calls = other.results calls := by
  induction calls generalizing memory other with
  | nil => rfl
  | cons call later induction =>
      obtain ⟨copied, kept⟩ := call_congr same call
      rw [results, results, copied, induction kept]

/-- The memory is a flat array of bytes, zero at first.  After any calls a
read copies for each byte of its block the last one written to that address;
a write changes the bytes of its block only, a read no result of later calls;
and `walk_through` runs its callback over pieces whose bytes are those of the
block in order, no address twice. -/
theorem bucketMemory_is_flat (calls : List MemoryCall) (addr : SimAddr)
    (size : BitVec 32) :
    let memory := untouched.after calls
    (memory.readBytes addr size.toNat).2 =
        (List.range size.toNat).map (fun index =>
          (lastWritten (addr + BitVec.ofNat 32 index) calls).getD 0) ∧
      (∀ src : Fin size.toNat → Byte,
        (∀ index : Fin size.toNat,
          (memory.writeBytes (List.ofFn src) addr).flat
            (addr + BitVec.ofNat 32 index) = src index) ∧
        ∀ target,
          (∀ index : Fin size.toNat,
            target ≠ addr + BitVec.ofNat 32 index) →
          (memory.writeBytes (List.ofFn src) addr).flat target =
            memory.flat target) ∧
      (∀ later : List MemoryCall,
        (memory.readBytes addr size.toNat).1.results later =
          memory.results later) ∧
      (∀ (σ : Type) (f : SimAddr → Nat → Nat → σ → σ) (state : σ),
        walkThrough f addr size.toNat state =
          (pieces addr size.toNat).foldl
            (fun state piece => f piece.pos piece.start piece.count state)
            state) ∧
      (pieces addr size.toNat).flatMap MemoryPiece.addresses =
        (List.range size.toNat).map
          (fun index => addr + BitVec.ofNat 32 index) ∧
      ((pieces addr size.toNat).flatMap MemoryPiece.addresses).Nodup := by
  intro memory
  have fits : size.toNat ≤ 2 ^ 32 := Nat.le_of_lt size.isLt
  have covered := pieces_addresses addr size.toNat
  refine ⟨?_, ?_, ?_, ?_, covered, ?_⟩
  · rw [(readBytes_read memory addr size.toNat).2]
    apply List.map_congr_left
    intro index _
    exact flat_after untouched calls _
  · intro src
    rw [flat_writeSized]
    constructor
    · intro index
      have within : index.val < (List.ofFn src).length := by
        rw [List.length_ofFn]
        exact index.isLt
      rw [write_inside (by rwa [List.length_ofFn]) within, List.getElem_ofFn]
    · intro target outside
      apply write_outside
      rw [List.length_ofFn]
      apply Nat.le_of_not_lt
      intro within
      apply outside ⟨_, within⟩
      rw [BitVec.ofNat_toNat, BitVec.setWidth_eq, BitVec.add_comm,
        BitVec.sub_add_cancel]
  · intro later
    exact results_congr (readBytes_read memory addr size.toNat).1 later
  · intro σ f state
    exact walkThrough_eq_foldl f addr size.toNat state
  · rw [covered]
    exact nodup_block addr fits

end BucketMemory

end Ria
