import Ria.Library.ByteMemory

/-!
# The simulator's memory

`BucketMemory` keeps one kibibyte arrays in a hash map and creates an array of
zeros when a bucket is first touched.  `walkThrough` visits the pieces of a
block that lie in one bucket each.  `BucketMemory.flat` is the byte array the
buckets stand for, and `flat_writeBytes` says that a bucketed write is a
consecutive write of that array.
-/

namespace Ria

open ByteMemory

/-- `unsigned` addresses -/
abbrev SimAddr := BitVec 32

def bucketSize : Nat := 1024

/-- `std::array<char, bucketSize>` -/
abbrev Bucket := Fin bucketSize → Byte

/-- `buckets`: the hash map from bucket positions. -/
abbrev BucketMemory := SimAddr → Option Bucket

/-- `which_bucket` -/
def whichBucket (addr : SimAddr) : SimAddr := addr >>> 10

/-- `pos_in_bucket` -/
def posInBucket (addr : SimAddr) : Nat := addr.toNat % bucketSize

/-- `make_addr` -/
def makeAddr (bucketPos bucketAddr : SimAddr) : SimAddr :=
  (bucketPos <<< 10) + bucketAddr

/-- `memcpy` of `bytes` into an array from position `start`. -/
def memcpyTo {length : Nat} (array : Fin length → Byte) (start : Nat)
    (bytes : List Byte) : Fin length → Byte :=
  fun index =>
    if start ≤ index.val then (bytes[index.val - start]?).getD (array index)
    else array index

/-- `memcpy` of `count` bytes out of an array from position `start`. -/
def memcpyFrom {length : Nat} (array : Fin length → Byte)
    (start count : Nat) : List Byte :=
  ((List.ofFn array).drop start).take count

/-- The number of bytes of a block at `addr` that lie in its first bucket. -/
def pieceSize (addr : SimAddr) (size : Nat) : Nat :=
  min (bucketSize - posInBucket addr) size

theorem pieceSize_pos (addr : SimAddr) {size : Nat} (more : 0 < size) :
    0 < pieceSize addr size := by
  have inside : posInBucket addr < bucketSize :=
    Nat.mod_lt _ (by decide)
  unfold pieceSize
  omega

theorem pieceSize_le (addr : SimAddr) (size : Nat) :
    pieceSize addr size ≤ size := Nat.min_le_right _ _

/-- `walk_through`: `f` gets the bucket position, the start in the bucket and
the size of every piece. -/
def walkThrough {σ : Type} (f : SimAddr → Nat → Nat → σ → σ) (addr : SimAddr)
    (size : Nat) (state : σ) : σ :=
  if 0 < size then
    let piece := pieceSize addr size
    walkThrough f (addr + BitVec.ofNat 32 piece) (size - piece)
      (f (whichBucket addr) (posInBucket addr) piece state)
  else state
termination_by size
decreasing_by
  have := pieceSize_pos addr ‹0 < size›
  omega

namespace BucketMemory

/-- `buckets[pos]`, with the array that `operator[]` creates. -/
def bucket (memory : BucketMemory) (pos : SimAddr) : Bucket :=
  (memory pos).getD (fun _ => 0)

/-- The access to `buckets[pos]` of the write callback. -/
def writePiece (pos : SimAddr) (start count : Nat)
    (state : BucketMemory × List Byte) : BucketMemory × List Byte :=
  (Function.update state.1 pos
    (some (memcpyTo (state.1.bucket pos) start (state.2.take count))),
    state.2.drop count)

/-- The access to `buckets[pos]` of the read callback. -/
def readPiece (pos : SimAddr) (start count : Nat)
    (state : BucketMemory × List Byte) : BucketMemory × List Byte :=
  (Function.update state.1 pos (some (state.1.bucket pos)),
    state.2 ++ memcpyFrom (state.1.bucket pos) start count)

/-- `write_bytes` -/
def writeBytes (memory : BucketMemory) (src : List Byte) (addr : SimAddr) :
    BucketMemory :=
  (walkThrough writePiece addr src.length (memory, src)).1

/-- `read_bytes`: the memory afterwards and the bytes read. -/
def readBytes (memory : BucketMemory) (addr : SimAddr) (size : Nat) :
    BucketMemory × List Byte :=
  walkThrough readPiece addr size (memory, [])

/-- The byte array the buckets stand for. -/
def flat (memory : BucketMemory) : Memory 32 :=
  fun addr => memory.bucket (whichBucket addr)
    ⟨posInBucket addr, Nat.mod_lt _ (by decide)⟩

theorem whichBucket_eq_iff (target addr : SimAddr) :
    whichBucket target = whichBucket addr ↔
      target.toNat / bucketSize = addr.toNat / bucketSize := by
  simp only [← BitVec.toNat_inj, whichBucket, BitVec.toNat_ushiftRight,
    Nat.shiftRight_eq_div_pow, bucketSize, Nat.reducePow]

private theorem distance_same_bucket {addr target : SimAddr}
    (same : whichBucket target = whichBucket addr)
    (above : posInBucket addr ≤ posInBucket target) :
    (target - addr).toNat = posInBucket target - posInBucket addr := by
  rw [whichBucket_eq_iff] at same
  simp only [posInBucket, bucketSize] at same above ⊢
  have targetBound := target.isLt
  have addrBound := addr.isLt
  rw [BitVec.toNat_sub]
  omega

private theorem distance_elsewhere {addr target : SimAddr}
    (elsewhere : whichBucket target ≠ whichBucket addr ∨
      posInBucket target < posInBucket addr) :
    bucketSize - posInBucket addr ≤ (target - addr).toNat := by
  rw [ne_eq, whichBucket_eq_iff] at elsewhere
  simp only [posInBucket, bucketSize] at elsewhere ⊢
  have targetBound := target.isLt
  have addrBound := addr.isLt
  rw [BitVec.toNat_sub]
  omega

theorem flat_writePiece (memory : BucketMemory) (addr : SimAddr)
    (bytes : List Byte)
    (inside : posInBucket addr + bytes.length ≤ bucketSize) :
    flat (Function.update memory (whichBucket addr)
        (some (memcpyTo (memory.bucket (whichBucket addr)) (posInBucket addr)
          bytes))) =
      write memory.flat addr bytes := by
  funext target
  by_cases same : whichBucket target = whichBucket addr
  · rcases Nat.lt_or_ge (posInBucket target) (posInBucket addr) with
      below | above
    · have beyond := distance_elsewhere (.inr below)
      rw [write_outside (by omega)]
      simp [flat, bucket, same, memcpyTo, Nat.not_le.mpr below]
    · rw [write, distance_same_bucket same above]
      simp [flat, bucket, same, memcpyTo, above]
  · have beyond := distance_elsewhere (.inl same)
    rw [write_outside (by omega)]
    simp [flat, bucket, same]

/-- Reading creates buckets but leaves the byte array as it is. -/
theorem flat_readPiece (memory : BucketMemory) (pos : SimAddr) :
    flat (Function.update memory pos (some (memory.bucket pos))) =
      memory.flat := by
  funext target
  by_cases same : whichBucket target = pos
  · subst same
    simp [flat, bucket]
  · simp [flat, bucket, same]

/-- The invariant rule of `walkThrough`: `invariant addr size` holds when the
block at `addr` of `size` bytes is still to be visited. -/
theorem walkThrough_rule {σ : Type} (f : SimAddr → Nat → Nat → σ → σ)
    (invariant : SimAddr → Nat → σ → Prop)
    (advance : ∀ addr size state, 0 < size → invariant addr size state →
      invariant (addr + BitVec.ofNat 32 (pieceSize addr size))
        (size - pieceSize addr size)
        (f (whichBucket addr) (posInBucket addr) (pieceSize addr size) state))
    (addr : SimAddr) (size : Nat) (state : σ)
    (holds : invariant addr size state) :
    ∃ last, invariant last 0 (walkThrough f addr size state) := by
  induction size using Nat.strongRecOn generalizing addr state with
  | ind size induction =>
      rw [walkThrough]
      by_cases more : 0 < size
      · have smaller : size - pieceSize addr size < size := by
          have := pieceSize_pos addr more
          omega
        rw [if_pos more]
        exact induction _ smaller _ _ (advance addr size state more holds)
      · obtain rfl : size = 0 := by omega
        rw [if_neg more]
        exact ⟨addr, holds⟩

/-- `write_bytes` writes consecutive bytes of the byte array. -/
theorem flat_writeBytes (memory : BucketMemory) (src : List Byte)
    (addr : SimAddr) (fits : src.length ≤ 2 ^ 32) :
    (memory.writeBytes src addr).flat = write memory.flat addr src := by
  -- what is written so far followed by what is left is the whole write
  obtain ⟨last, done⟩ := walkThrough_rule writePiece
    (fun next size (state : BucketMemory × List Byte) =>
      state.2.length = size ∧ size ≤ 2 ^ 32 ∧
        write state.1.flat next state.2 = write memory.flat addr src)
    (by
      rintro next size ⟨current, left⟩ more ⟨length, bound, written⟩
      change left.length = size at length
      have small := pieceSize_le next size
      have taken : (left.take (pieceSize next size)).length =
          pieceSize next size := by
        simp only [List.length_take]
        omega
      refine ⟨?_, by omega, ?_⟩
      · simp [writePiece, length]
      · have inside : posInBucket next +
            (left.take (pieceSize next size)).length ≤ bucketSize := by
          have start : posInBucket next < bucketSize :=
            Nat.mod_lt _ (by decide)
          rw [taken, pieceSize]
          omega
        have pieces := write_append current.flat next
          (left.take (pieceSize next size)) (left.drop (pieceSize next size))
          (by simp only [List.length_take, List.length_drop]; omega)
        rw [List.take_append_drop, taken] at pieces
        rw [← written, pieces, ← flat_writePiece current next _ inside]
        rfl)
    addr src.length (memory, src) ⟨rfl, fits, rfl⟩
  obtain ⟨length, -, written⟩ := done
  rw [List.eq_nil_of_length_eq_zero length, write_nil] at written
  exact written

theorem memcpyFrom_bucket (memory : BucketMemory) (addr : SimAddr)
    {count : Nat} (inside : posInBucket addr + count ≤ bucketSize) :
    memcpyFrom (memory.bucket (whichBucket addr)) (posInBucket addr) count =
      load memory.flat addr count := by
  apply List.ext_getElem
  · simp only [memcpyFrom, List.length_take, List.length_drop,
      List.length_ofFn, length_load]
    omega
  · intro index low high
    rw [length_load] at high
    have place : (addr + BitVec.ofNat 32 index).toNat =
        addr.toNat + index := by
      have bound := addr.isLt
      simp only [posInBucket, bucketSize] at inside
      rw [BitVec.toNat_add, BitVec.toNat_ofNat]
      omega
    have sameBucket : whichBucket (addr + BitVec.ofNat 32 index) =
        whichBucket addr := by
      rw [whichBucket_eq_iff, place]
      simp only [posInBucket, bucketSize] at inside ⊢
      omega
    have position : posInBucket (addr + BitVec.ofNat 32 index) =
        posInBucket addr + index := by
      simp only [posInBucket, bucketSize, place] at inside ⊢
      omega
    simp only [memcpyFrom, List.getElem_take, List.getElem_drop,
      List.getElem_ofFn, load, List.getElem_map, List.getElem_range, flat,
      sameBucket, position]

/-- `read_bytes` leaves the byte array as it is and reads consecutive bytes
of it. -/
theorem readBytes_read (memory : BucketMemory) (addr : SimAddr) (size : Nat) :
    (memory.readBytes addr size).1.flat = memory.flat ∧
      (memory.readBytes addr size).2 = load memory.flat addr size := by
  -- what is read so far followed by what is left is the whole read
  obtain ⟨last, same, done⟩ := walkThrough_rule readPiece
    (fun next left (state : BucketMemory × List Byte) =>
      state.1.flat = memory.flat ∧
        state.2 ++ load memory.flat next left = load memory.flat addr size)
    (by
      rintro next left ⟨current, bytes⟩ more ⟨same, sofar⟩
      have start : posInBucket next < bucketSize := Nat.mod_lt _ (by decide)
      have inside : posInBucket next + pieceSize next left ≤ bucketSize := by
        unfold pieceSize
        omega
      have pieces := load_add memory.flat next (pieceSize next left)
        (left - pieceSize next left)
      rw [Nat.add_sub_cancel' (pieceSize_le next left)] at pieces
      refine ⟨(flat_readPiece current (whichBucket next)).trans same, ?_⟩
      change (bytes ++ memcpyFrom (current.bucket (whichBucket next))
        (posInBucket next) (pieceSize next left)) ++ _ = _
      rw [memcpyFrom_bucket current next inside, same, ← sofar, pieces,
        List.append_assoc])
    addr size (memory, []) ⟨rfl, rfl⟩
  rw [load_zero, List.append_nil] at done
  exact ⟨same, done⟩

end BucketMemory

end Ria
