import Ria.Library.LittleEndian
import Ria.Sim.SimMemory

/-!
# The chunked memory interface

`memif_t` reads and writes byte arrays anywhere in a memory whose object
`chunked_memif_t` only serves aligned chunks of a bounded size.  A first and a
last block that are not whole are read, patched and written back; what lies
between them goes in chunks, or to `clear_chunk` when all of it is zero.
`memif_flat` says that none of this shows: over any object that serves a flat
memory, `read` and `write` read and write consecutive bytes of it.
-/

namespace Ria

open ByteMemory

/-- `addr_t` -/
abbrev AddrT := BitVec 64

/-- `chunked_memif_t`, over the state `σ` of the object that implements it.
The masks of `memif_t` presuppose that the alignment is a power of two, its
loops that the largest chunk is aligned and not empty. -/
structure ChunkedMemif (σ : Type) where
  chunkAlign : Nat
  chunkMaxSize : Nat
  readChunk : AddrT → Nat → σ → σ × List Byte
  writeChunk : AddrT → List Byte → σ → σ
  clearChunk : AddrT → Nat → σ → σ
  align_pow : ∃ exponent, exponent < 64 ∧ chunkAlign = 2 ^ exponent
  align_dvd : chunkAlign ∣ chunkMaxSize
  max_pos : 0 < chunkMaxSize

/-- `memcpy(chunk + start, bytes, ..)` -/
def overwrite (chunk : List Byte) (start : Nat) (bytes : List Byte) :
    List Byte :=
  chunk.take start ++ bytes ++ chunk.drop (start + bytes.length)

/-- `for (size_t pos = 0; pos < len; pos += max)` around `write_chunk` -/
def writePieces {σ : Type} (writeChunk : AddrT → List Byte → σ → σ) (max : Nat)
    (positive : 0 < max) (addr : AddrT) (bytes : List Byte) (pos : Nat)
    (state : σ) : σ :=
  if pos < bytes.length then
    writePieces writeChunk max positive addr bytes (pos + max)
      (writeChunk (addr + BitVec.ofNat 64 pos) ((bytes.drop pos).take max)
        state)
  else state
termination_by bytes.length - pos

/-- `htif_t::clear_chunk`, from `pos` on -/
def clearPieces {σ : Type} (writeChunk : AddrT → List Byte → σ → σ) (max : Nat)
    (positive : 0 < max) (addr : AddrT) (len pos : Nat) (state : σ) : σ :=
  if pos < len then
    clearPieces writeChunk max positive addr len (pos + max)
      (writeChunk (addr + BitVec.ofNat 64 pos)
        (List.replicate (min (len - pos) max) 0) state)
  else state
termination_by len - pos

theorem clearPieces_eq {σ : Type} (writeChunk : AddrT → List Byte → σ → σ) (max : Nat)
    (positive : 0 < max) (addr : AddrT) (len pos : Nat) (state : σ) :
    clearPieces writeChunk max positive addr len pos state =
      writePieces writeChunk max positive addr (List.replicate len 0) pos
        state := by
  fun_induction clearPieces writeChunk max positive addr len pos state with
  | case1 pos state more induction =>
      rw [induction]
      conv_rhs => rw [writePieces]
      rw [if_pos (by rwa [List.length_replicate]), List.drop_replicate,
        List.take_replicate, Nat.min_comm]
  | case2 pos state ended =>
      rw [writePieces, if_neg (by rwa [List.length_replicate])]

namespace ChunkedMemif

variable {σ : Type}

section Access

variable (device : ChunkedMemif σ)

/-- `addr & (align-1)` -/
def unaligned (addr : AddrT) : Nat :=
  (addr &&& BitVec.ofNat 64 (device.chunkAlign - 1)).toNat

/-- `addr & ~(align-1)` -/
def alignDown (addr : AddrT) : AddrT :=
  addr &&& ~~~BitVec.ofNat 64 (device.chunkAlign - 1)

/-- `this_len` of the first unaligned block, zero when there is none -/
def headLen (addr : AddrT) (len : Nat) : Nat :=
  if len ≠ 0 ∧ device.unaligned addr ≠ 0 then
    min len (device.chunkAlign - device.unaligned addr)
  else 0

/-- `len & (align-1)`: `this_len` of the final unaligned block -/
def tailLen (len : Nat) : Nat := len &&& (device.chunkAlign - 1)

/-- the first unaligned block of `read` -/
def readHead (addr : AddrT) (len : Nat) (state : σ) : σ × List Byte :=
  if len ≠ 0 ∧ device.unaligned addr ≠ 0 then
    let chunk := device.readChunk (device.alignDown addr) device.chunkAlign
      state
    (chunk.1,
      (chunk.2.drop (device.unaligned addr)).take (device.headLen addr len))
  else (state, [])

/-- the final unaligned block of `read` -/
def readTail (addr : AddrT) (len : Nat) (state : σ) : σ × List Byte :=
  if device.tailLen len ≠ 0 then
    let start := len - device.tailLen len
    let chunk := device.readChunk (addr + BitVec.ofNat 64 start)
      device.chunkAlign state
    (chunk.1, chunk.2.take (device.tailLen len))
  else (state, [])

/-- the aligned chunks of `read` from `pos` on, after the bytes `done` -/
def readPieces (addr : AddrT) (len pos : Nat) (state : σ)
    (done : List Byte) : σ × List Byte :=
  if pos < len then
    let chunk := device.readChunk (addr + BitVec.ofNat 64 pos)
      (min device.chunkMaxSize (len - pos)) state
    readPieces addr len (pos + device.chunkMaxSize) chunk.1 (done ++ chunk.2)
  else (state, done)
termination_by len - pos
decreasing_by
  have := device.max_pos
  omega

/-- `memif_t::read` -/
def read (addr : AddrT) (len : Nat) (state : σ) : σ × List Byte :=
  let head := device.readHead addr len state
  let addr' := addr + BitVec.ofNat 64 (device.headLen addr len)
  let len' := len - device.headLen addr len
  let tail := device.readTail addr' len' head.1
  let middle := device.readPieces addr' (len' - device.tailLen len') 0 tail.1
    []
  (middle.1, head.2 ++ middle.2 ++ tail.2)

/-- the first unaligned block of `write` -/
def writeHead (addr : AddrT) (bytes : List Byte) (state : σ) : σ :=
  if bytes.length ≠ 0 ∧ device.unaligned addr ≠ 0 then
    let chunk := device.readChunk (device.alignDown addr) device.chunkAlign
      state
    device.writeChunk (device.alignDown addr)
      (overwrite chunk.2 (device.unaligned addr)
        (bytes.take (device.headLen addr bytes.length)))
      chunk.1
  else state

/-- the final unaligned block of `write` -/
def writeTail (addr : AddrT) (bytes : List Byte) (state : σ) : σ :=
  if device.tailLen bytes.length ≠ 0 then
    let start := bytes.length - device.tailLen bytes.length
    let chunk := device.readChunk (addr + BitVec.ofNat 64 start)
      device.chunkAlign state
    device.writeChunk (addr + BitVec.ofNat 64 start)
      (overwrite chunk.2 0 (bytes.drop start)) chunk.1
  else state

/-- the aligned part of `write` -/
def writeAligned (addr : AddrT) (bytes : List Byte) (state : σ) : σ :=
  if bytes.length ≠ 0 ∧ bytes.all (· == 0) then
    device.clearChunk addr bytes.length state
  else
    writePieces device.writeChunk device.chunkMaxSize device.max_pos addr bytes
      0 state

/-- `memif_t::write` -/
def write (addr : AddrT) (bytes : List Byte) (state : σ) : σ :=
  let head := device.headLen addr bytes.length
  let addr' := addr + BitVec.ofNat 64 head
  let bytes' := bytes.drop head
  device.writeAligned addr'
    (bytes'.take (bytes'.length - device.tailLen bytes'.length))
    (device.writeTail addr' bytes' (device.writeHead addr bytes state))

end Access

section Alignment

variable (device : ChunkedMemif σ)

theorem align_pos : 0 < device.chunkAlign := by
  rcases device.align_pow with ⟨exponent, -, same⟩
  rw [same]
  exact Nat.two_pow_pos exponent

theorem align_dvd_addresses : device.chunkAlign ∣ 2 ^ 64 := by
  rcases device.align_pow with ⟨exponent, small, same⟩
  rw [same]
  exact Nat.pow_dvd_pow 2 (Nat.le_of_lt small)

theorem unaligned_eq (addr : AddrT) :
    device.unaligned addr = addr.toNat % device.chunkAlign := by
  rcases device.align_pow with ⟨exponent, small, same⟩
  have bound : 2 ^ exponent - 1 < 2 ^ 64 :=
    Nat.lt_of_lt_of_le (Nat.sub_lt (Nat.two_pow_pos exponent) Nat.one_pos)
      (Nat.pow_le_pow_right (by decide) (Nat.le_of_lt small))
  rw [unaligned, same, BitVec.toNat_and, BitVec.toNat_ofNat,
    Nat.mod_eq_of_lt bound, Nat.and_two_pow_sub_one_eq_mod]

theorem unaligned_lt (addr : AddrT) :
    device.unaligned addr < device.chunkAlign := by
  rw [unaligned_eq]
  exact Nat.mod_lt _ device.align_pos

theorem tailLen_eq (len : Nat) :
    device.tailLen len = len % device.chunkAlign := by
  rcases device.align_pow with ⟨exponent, -, same⟩
  rw [tailLen, same, Nat.and_two_pow_sub_one_eq_mod]

theorem tailLen_lt (len : Nat) : device.tailLen len < device.chunkAlign := by
  rw [tailLen_eq]
  exact Nat.mod_lt _ device.align_pos

theorem tailLen_le (len : Nat) : device.tailLen len ≤ len := by
  rw [tailLen_eq]
  exact Nat.mod_le _ _

theorem headLen_le (addr : AddrT) (len : Nat) :
    device.headLen addr len ≤ len := by
  unfold headLen
  split
  · exact Nat.min_le_left _ _
  · exact Nat.zero_le len

theorem dvd_sub_tailLen (len : Nat) :
    device.chunkAlign ∣ len - device.tailLen len := by
  rw [tailLen_eq]
  exact Nat.dvd_sub_mod len

theorem alignDown_add (addr : AddrT) :
    device.alignDown addr + BitVec.ofNat 64 (device.unaligned addr) =
      addr := by
  have parts : addr &&& BitVec.ofNat 64 (device.chunkAlign - 1) =
      BitVec.ofNat 64 (device.unaligned addr) := by
    rw [unaligned, BitVec.ofNat_toNat, BitVec.setWidth_eq]
  have apart : device.alignDown addr &&&
      (addr &&& BitVec.ofNat 64 (device.chunkAlign - 1)) = 0#64 := by
    rw [alignDown]
    ext bit
    rw [BitVec.getElem_and, BitVec.getElem_and, BitVec.getElem_and,
      BitVec.getElem_not, BitVec.getElem_zero]
    cases (BitVec.ofNat 64 (device.chunkAlign - 1))[bit] <;> simp
  rw [← parts, BitVec.add_eq_or_of_and_eq_zero _ _ apart, alignDown]
  ext bit
  rw [BitVec.getElem_or, BitVec.getElem_and, BitVec.getElem_and,
    BitVec.getElem_not, ← Bool.and_or_distrib_left, Bool.not_or_self,
    Bool.and_true]

theorem unaligned_add {addr : AddrT} {count : Nat}
    (aligned : device.unaligned addr = 0)
    (whole : device.chunkAlign ∣ count) :
    device.unaligned (addr + BitVec.ofNat 64 count) = 0 := by
  rw [unaligned_eq] at aligned ⊢
  have inside := Nat.dvd_of_mod_eq_zero aligned
  apply Nat.mod_eq_zero_of_dvd
  rw [BitVec.toNat_add, BitVec.toNat_ofNat, Nat.add_mod_mod,
    Nat.dvd_mod_iff device.align_dvd_addresses]
  exact Nat.dvd_add inside whole

theorem unaligned_alignDown (addr : AddrT) :
    device.unaligned (device.alignDown addr) = 0 := by
  rw [unaligned, alignDown, BitVec.and_assoc, BitVec.and_comm (~~~_),
    BitVec.and_not_self]
  change (addr &&& 0#64).toNat = 0
  rw [BitVec.and_zero, BitVec.toNat_zero]

/-- Behind the first block the address is aligned, or nothing is left. -/
theorem aligned_behind_head (addr : AddrT) (len : Nat) :
    device.unaligned (addr + BitVec.ofNat 64 (device.headLen addr len)) = 0 ∨
      len - device.headLen addr len = 0 := by
  unfold headLen
  split
  · rename_i first
    rcases Nat.le_total len (device.chunkAlign - device.unaligned addr) with
      short | long
    · rw [Nat.min_eq_left short]
      exact .inr (Nat.sub_self len)
    · have below := device.unaligned_lt addr
      have together : addr +
          BitVec.ofNat 64 (device.chunkAlign - device.unaligned addr) =
            device.alignDown addr + BitVec.ofNat 64 device.chunkAlign := by
        conv_lhs => rw [← device.alignDown_add addr]
        rw [BitVec.add_assoc, ← BitVec.ofNat_add, alignDown_add,
          Nat.add_sub_cancel' (Nat.le_of_lt below)]
      rw [Nat.min_eq_right long, together]
      exact .inl (device.unaligned_add (device.unaligned_alignDown addr)
        (Nat.dvd_refl _))
  · rename_i none
    rcases Nat.eq_zero_or_pos len with rfl | some
    · exact .inr rfl
    · rw [not_and_or, not_not, not_not] at none
      rcases none with empty | aligned
      · exact absurd empty (Nat.ne_of_gt some)
      · rw [BitVec.add_zero]
        exact .inl aligned

end Alignment

/-- What reading and writing aligned chunks does to the memory `view` behind
the object.  Addresses are cut to its width. -/
structure ServesChunks {width : Nat} (device : ChunkedMemif σ)
    (view : σ → Memory width) : Prop where
  narrow : width ≤ 64
  align_fits : device.chunkAlign ≤ 2 ^ width
  readChunk : ∀ addr len state, device.unaligned addr = 0 →
    device.chunkAlign ∣ len → len ≤ device.chunkMaxSize →
      view (device.readChunk addr len state).1 = view state ∧
        (device.readChunk addr len state).2 =
          load (view state) (addr.setWidth width) len
  writeChunk : ∀ addr bytes state, device.unaligned addr = 0 →
    device.chunkAlign ∣ bytes.length →
    bytes.length ≤ device.chunkMaxSize →
      view (device.writeChunk addr bytes state) =
        ByteMemory.write (view state) (addr.setWidth width) bytes

/-- The same with clearing, whose length is not bounded by a chunk's. -/
structure Serves {width : Nat} (device : ChunkedMemif σ)
    (view : σ → Memory width) : Prop extends
    device.ServesChunks view where
  clearChunk : ∀ addr len state, device.unaligned addr = 0 →
    device.chunkAlign ∣ len → len ≤ 2 ^ width →
      view (device.clearChunk addr len state) =
        ByteMemory.write (view state) (addr.setWidth width)
          (List.replicate len 0)

namespace ServesChunks

variable {width : Nat} {device : ChunkedMemif σ} {view : σ → Memory width}

theorem cut_add (serves : device.ServesChunks view) (addr : AddrT) (count : Nat) :
    (addr + BitVec.ofNat 64 count).setWidth width =
      addr.setWidth width + BitVec.ofNat width count := by
  rw [BitVec.setWidth_add _ _ serves.narrow,
    BitVec.setWidth_ofNat_of_le serves.narrow]

theorem align_le_max (device : ChunkedMemif σ) :
    device.chunkAlign ≤ device.chunkMaxSize :=
  Nat.le_of_dvd device.max_pos device.align_dvd

theorem readBlock (serves : device.ServesChunks view) {addr : AddrT} (state : σ)
    (aligned : device.unaligned addr = 0) :
    view (device.readChunk addr device.chunkAlign state).1 = view state ∧
      (device.readChunk addr device.chunkAlign state).2 =
        load (view state) (addr.setWidth width) device.chunkAlign :=
  serves.readChunk addr _ state aligned (Nat.dvd_refl _) (align_le_max device)

theorem patchBlock (serves : device.ServesChunks view) {addr : AddrT} (state : σ)
    (aligned : device.unaligned addr = 0) {start : Nat} {bytes : List Byte}
    (inside : start + bytes.length ≤ device.chunkAlign) :
    view (device.writeChunk addr
        (overwrite (device.readChunk addr device.chunkAlign state).2 start
          bytes)
        (device.readChunk addr device.chunkAlign state).1) =
      ByteMemory.write (view state)
        (addr.setWidth width + BitVec.ofNat width start) bytes := by
  rcases serves.readBlock state aligned with ⟨kept, chunk⟩
  have length : (overwrite
      (device.readChunk addr device.chunkAlign state).2 start
        bytes).length = device.chunkAlign := by
    rw [chunk, overwrite, List.length_append, List.length_append,
      List.length_take, List.length_drop, length_load]
    omega
  rw [serves.writeChunk addr _ _ aligned (by rw [length])
    (by rw [length]; exact align_le_max device), kept, chunk]
  exact write_patched (view state) _ inside serves.align_fits

theorem readHead_read (serves : device.ServesChunks view) (addr : AddrT)
    (len : Nat) (state : σ) :
    view (device.readHead addr len state).1 = view state ∧
      (device.readHead addr len state).2 =
        load (view state) (addr.setWidth width)
          (device.headLen addr len) := by
  unfold readHead
  split
  · rename_i first
    rcases serves.readBlock state (device.unaligned_alignDown addr) with
      ⟨kept, chunk⟩
    refine ⟨kept, ?_⟩
    have inside : device.unaligned addr + device.headLen addr len ≤
        device.chunkAlign := by
      have below := device.unaligned_lt addr
      rw [headLen, if_pos first]
      omega
    obtain ⟨rest, total⟩ := Nat.exists_eq_add_of_le inside
    have there := serves.cut_add (device.alignDown addr)
      (device.unaligned addr)
    rw [alignDown_add] at there
    change ((device.readChunk _ _ state).2.drop _).take _ = _
    rw [chunk, total, Nat.add_assoc, load_add,
      List.drop_left' (length_load ..), load_add,
      List.take_left' (length_load ..), ← there]
  · rename_i none
    rw [headLen, if_neg none]
    exact ⟨rfl, rfl⟩

theorem readTail_read (serves : device.ServesChunks view) {addr : AddrT}
    {len : Nat} (state : σ)
    (aligned : device.unaligned addr = 0 ∨ len = 0) :
    view (device.readTail addr len state).1 = view state ∧
      (device.readTail addr len state).2 =
        load (view state)
          (addr.setWidth width +
            BitVec.ofNat width (len - device.tailLen len))
          (device.tailLen len) := by
  unfold readTail
  split
  · rename_i last
    have start : device.unaligned addr = 0 := by
      rcases aligned with aligned | rfl
      · exact aligned
      · exact absurd (Nat.le_zero.mp (device.tailLen_le 0)) last
    rcases serves.readBlock state
      (device.unaligned_add start (device.dvd_sub_tailLen len)) with
      ⟨kept, chunk⟩
    refine ⟨kept, ?_⟩
    obtain ⟨rest, total⟩ :=
      Nat.exists_eq_add_of_le (Nat.le_of_lt (device.tailLen_lt len))
    change (device.readChunk _ _ state).2.take _ = _
    rw [chunk, total, load_add, List.take_left' (length_load ..),
      serves.cut_add]
  · rename_i none
    rw [not_not.mp none]
    exact ⟨rfl, rfl⟩

/-- What was read so far followed by what is left is the whole aligned
part. -/
theorem readPieces_read (serves : device.ServesChunks view) {addr : AddrT}
    {len : Nat} (aligned : device.unaligned addr = 0)
    (whole : device.chunkAlign ∣ len) (pos : Nat)
    (reached : device.chunkAlign ∣ pos) (state : σ) (done : List Byte) :
    view (device.readPieces addr len pos state done).1 = view state ∧
      (device.readPieces addr len pos state done).2 =
        done ++ load (view state)
          (addr.setWidth width + BitVec.ofNat width pos) (len - pos) := by
  fun_induction device.readPieces addr len pos state done with
  | case1 pos state done more chunk induction =>
      have count : device.chunkAlign ∣
          min device.chunkMaxSize (len - pos) := by
        rcases Nat.le_total device.chunkMaxSize (len - pos) with full | last
        · rw [Nat.min_eq_left full]
          exact device.align_dvd
        · rw [Nat.min_eq_right last]
          exact Nat.dvd_sub whole reached
      rcases serves.readChunk (addr + BitVec.ofNat 64 pos) _ state
        (device.unaligned_add aligned reached) count (Nat.min_le_left _ _)
        with ⟨kept, bytes⟩
      rcases induction (Nat.dvd_add reached device.align_dvd) with
        ⟨later, rest⟩
      refine ⟨later.trans kept, rest.trans ?_⟩
      have parts : len - pos = min device.chunkMaxSize (len - pos) +
          (len - (pos + device.chunkMaxSize)) := by omega
      rw [kept, bytes, List.append_assoc]
      congr 1
      rcases Nat.le_total device.chunkMaxSize (len - pos) with full | last
      · conv_rhs => rw [parts, load_add]
        rw [Nat.min_eq_left full, serves.cut_add, BitVec.add_assoc,
          ← BitVec.ofNat_add]
      · have ended : len - (pos + device.chunkMaxSize) = 0 := by omega
        rw [ended, load_zero, List.append_nil, Nat.min_eq_right last,
          serves.cut_add]
  | case2 pos state done ended =>
      have none : len - pos = 0 := Nat.sub_eq_zero_of_le (Nat.le_of_not_lt ended)
      rw [none, load_zero, List.append_nil]
      exact ⟨rfl, rfl⟩

theorem readMiddle_read (serves : device.ServesChunks view) {addr : AddrT}
    {len : Nat} (state : σ)
    (aligned : device.unaligned addr = 0 ∨ len = 0) :
    view (device.readPieces addr (len - device.tailLen len) 0 state []).1 =
        view state ∧
      (device.readPieces addr (len - device.tailLen len) 0 state []).2 =
        load (view state) (addr.setWidth width)
          (len - device.tailLen len) := by
  rcases aligned with aligned | rfl
  · have pieces := serves.readPieces_read aligned
      (device.dvd_sub_tailLen len) 0 (Nat.dvd_zero _) state []
    rwa [BitVec.add_zero, List.nil_append, Nat.sub_zero] at pieces
  · rw [Nat.zero_sub, readPieces, if_neg (Nat.lt_irrefl 0)]
    exact ⟨rfl, rfl⟩

/-- What is left to write, from `pos` on. -/
theorem writePieces_write (serves : device.ServesChunks view) {addr : AddrT}
    {bytes : List Byte} (aligned : device.unaligned addr = 0)
    (whole : device.chunkAlign ∣ bytes.length)
    (fits : bytes.length ≤ 2 ^ width) (pos : Nat)
    (reached : device.chunkAlign ∣ pos) (state : σ) :
    view (writePieces device.writeChunk device.chunkMaxSize device.max_pos
        addr bytes pos state) =
      ByteMemory.write (view state)
        (addr.setWidth width + BitVec.ofNat width pos)
        (bytes.drop pos) := by
  fun_induction writePieces device.writeChunk device.chunkMaxSize
      device.max_pos addr bytes pos state with
  | case1 pos state more induction =>
      have size : ((bytes.drop pos).take device.chunkMaxSize).length =
          min device.chunkMaxSize (bytes.length - pos) := by
        rw [List.length_take, List.length_drop]
      have count : device.chunkAlign ∣
          ((bytes.drop pos).take device.chunkMaxSize).length := by
        rw [size]
        rcases Nat.le_total device.chunkMaxSize (bytes.length - pos) with
          full | last
        · rw [Nat.min_eq_left full]
          exact device.align_dvd
        · rw [Nat.min_eq_right last]
          exact Nat.dvd_sub whole reached
      rw [induction (Nat.dvd_add reached device.align_dvd),
        serves.writeChunk _ _ state (device.unaligned_add aligned reached)
          count (by rw [size]; exact Nat.min_le_left _ _),
        serves.cut_add]
      conv_rhs => rw [← List.take_append_drop device.chunkMaxSize
        (bytes.drop pos)]
      rw [List.drop_drop]
      rcases Nat.le_total device.chunkMaxSize (bytes.length - pos) with
        full | last
      · rw [write_append _ _ _ _ (by
            rw [size, List.length_drop]
            omega),
          size, Nat.min_eq_left full, BitVec.add_assoc, ← BitVec.ofNat_add]
      · have ended : bytes.drop (pos + device.chunkMaxSize) = [] :=
          List.drop_eq_nil_of_le (by omega)
        rw [ended, write_nil, List.append_nil]
  | case2 pos state ended =>
      rw [List.drop_eq_nil_of_le (Nat.le_of_not_lt ended), write_nil]

theorem writeHead_write (serves : device.ServesChunks view) (addr : AddrT)
    (bytes : List Byte) (state : σ) :
    view (device.writeHead addr bytes state) =
      ByteMemory.write (view state) (addr.setWidth width)
        (bytes.take (device.headLen addr bytes.length)) := by
  unfold writeHead
  split
  · rename_i first
    have inside : device.unaligned addr +
        (bytes.take (device.headLen addr bytes.length)).length ≤
          device.chunkAlign := by
      have below := device.unaligned_lt addr
      rw [List.length_take, headLen, if_pos first]
      omega
    have there := serves.cut_add (device.alignDown addr)
      (device.unaligned addr)
    rw [alignDown_add] at there
    rw [there]
    exact serves.patchBlock state (device.unaligned_alignDown addr) inside
  · rename_i none
    rw [headLen, if_neg none, List.take_zero, write_nil]

theorem writeTail_write (serves : device.ServesChunks view) {addr : AddrT}
    {bytes : List Byte} (state : σ)
    (aligned : device.unaligned addr = 0 ∨ bytes.length = 0) :
    view (device.writeTail addr bytes state) =
      ByteMemory.write (view state)
        (addr.setWidth width +
          BitVec.ofNat width (bytes.length - device.tailLen bytes.length))
        (bytes.drop (bytes.length - device.tailLen bytes.length)) := by
  unfold writeTail
  have small := device.tailLen_le bytes.length
  split
  · rename_i last
    have start : device.unaligned addr = 0 := by
      rcases aligned with aligned | empty
      · exact aligned
      · rw [empty] at last small
        exact absurd (Nat.le_zero.mp small) last
    have inside : 0 + (bytes.drop
        (bytes.length - device.tailLen bytes.length)).length ≤
          device.chunkAlign := by
      have below := device.tailLen_lt bytes.length
      rw [List.length_drop]
      omega
    have patched := serves.patchBlock state
      (device.unaligned_add start (device.dvd_sub_tailLen bytes.length))
      inside
    rw [BitVec.add_zero, serves.cut_add] at patched
    exact patched
  · rename_i none
    rw [not_not.mp none, Nat.sub_zero, List.drop_length, write_nil]

/-- The clearing of `htif_t` serves as well. -/
theorem serves_of_clearPieces (chunks : device.ServesChunks view)
    (clears : ∀ addr len state, device.clearChunk addr len state =
      clearPieces device.writeChunk device.chunkMaxSize device.max_pos addr
        len 0 state) : device.Serves view := by
  refine { chunks with clearChunk := ?_ }
  intro addr len state aligned whole fits
  have length : (List.replicate len (0 : Byte)).length = len :=
    List.length_replicate
  rw [← length] at whole fits
  have zeros := chunks.writePieces_write aligned whole fits 0
    (Nat.dvd_zero _) state
  rw [BitVec.add_zero, List.drop_zero] at zeros
  rw [clears, clearPieces_eq]
  exact zeros

end ServesChunks

namespace Serves

variable {width : Nat} {device : ChunkedMemif σ} {view : σ → Memory width}

theorem writeAligned_write (serves : device.Serves view) {addr : AddrT}
    {bytes : List Byte} (state : σ)
    (aligned : device.unaligned addr = 0 ∨ bytes.length = 0)
    (whole : device.chunkAlign ∣ bytes.length)
    (fits : bytes.length ≤ 2 ^ width) :
    view (device.writeAligned addr bytes state) =
      ByteMemory.write (view state) (addr.setWidth width) bytes := by
  rcases aligned with aligned | empty
  · unfold writeAligned
    split
    · rename_i zeros
      have same : bytes = List.replicate bytes.length 0 := by
        rw [List.eq_replicate_iff]
        refine ⟨rfl, fun byte member => ?_⟩
        simpa using List.all_eq_true.mp zeros.2 byte member
      conv_rhs => rw [same]
      exact serves.clearChunk addr bytes.length state aligned whole fits
    · rw [serves.writePieces_write aligned whole fits 0 (Nat.dvd_zero _),
        BitVec.add_zero, List.drop_zero]
  · obtain rfl := List.eq_nil_of_length_eq_zero empty
    rw [writeAligned, if_neg (by simp), writePieces, if_neg (by simp),
      write_nil]

/-- Behind the first block the final block is written before the aligned
part. -/
theorem writeRest_write (serves : device.Serves view) {addr : AddrT}
    {bytes : List Byte} (state : σ)
    (aligned : device.unaligned addr = 0 ∨ bytes.length = 0)
    (fits : bytes.length ≤ 2 ^ width) :
    view (device.writeAligned addr
        (bytes.take (bytes.length - device.tailLen bytes.length))
        (device.writeTail addr bytes state)) =
      ByteMemory.write (view state) (addr.setWidth width) bytes := by
  have length : (bytes.take
      (bytes.length - device.tailLen bytes.length)).length =
        bytes.length - device.tailLen bytes.length := by
    rw [List.length_take, Nat.min_eq_left (Nat.sub_le _ _)]
  have whole := device.dvd_sub_tailLen bytes.length
  have start : device.unaligned addr = 0 ∨
      (bytes.take
        (bytes.length - device.tailLen bytes.length)).length = 0 := by
    rcases aligned with aligned | empty
    · exact .inl aligned
    · rw [length, empty]
      exact .inr (Nat.zero_sub _)
  rw [serves.writeAligned_write _ start (by rwa [length])
      (by rw [length]; omega),
    serves.writeTail_write state aligned]
  conv_rhs => rw [← List.take_append_drop
    (bytes.length - device.tailLen bytes.length) bytes]
  rw [write_append_reverse, length]

theorem read_bytes (serves : device.Serves view) (addr : AddrT) (len : Nat)
    (state : σ) :
    view (device.read addr len state).1 = view state ∧
      (device.read addr len state).2 =
        load (view state) (addr.setWidth width) len := by
  have headLe := device.headLen_le addr len
  have behind := device.aligned_behind_head addr len
  have cut := serves.cut_add addr (device.headLen addr len)
  have tailLe := device.tailLen_le (len - device.headLen addr len)
  rcases serves.readHead_read addr len state with ⟨keptHead, head⟩
  rcases serves.readTail_read (device.readHead addr len state).1 behind with
    ⟨keptTail, tail⟩
  rcases serves.readMiddle_read
    (device.readTail (addr + BitVec.ofNat 64 (device.headLen addr len))
      (len - device.headLen addr len)
      (device.readHead addr len state).1).1 behind with
    ⟨keptMiddle, middle⟩
  refine ⟨keptMiddle.trans (keptTail.trans keptHead), ?_⟩
  have parts : len = device.headLen addr len +
      ((len - device.headLen addr len -
          device.tailLen (len - device.headLen addr len)) +
        device.tailLen (len - device.headLen addr len)) := by omega
  conv_rhs => rw [parts, load_add, load_add]
  rw [read, head, middle, tail, keptTail, keptHead, cut, List.append_assoc]

theorem write_bytes (serves : device.Serves view) (addr : AddrT)
    {bytes : List Byte} (fits : bytes.length ≤ 2 ^ width) (state : σ) :
    view (device.write addr bytes state) =
      ByteMemory.write (view state) (addr.setWidth width) bytes := by
  have behind := device.aligned_behind_head addr bytes.length
  have headLe := device.headLen_le addr bytes.length
  have cut := serves.cut_add addr (device.headLen addr bytes.length)
  rw [← List.length_drop] at behind
  have rest := serves.writeRest_write (device.writeHead addr bytes state)
    behind (by rw [List.length_drop]; omega)
  have length : (bytes.take (device.headLen addr bytes.length)).length =
      device.headLen addr bytes.length := by
    rw [List.length_take, Nat.min_eq_left headLe]
  conv_rhs => rw [← List.take_append_drop
    (device.headLen addr bytes.length) bytes]
  rw [write_append _ _ _ _ (by
      rw [length, List.length_drop]
      omega),
    length, ← cut, ← serves.writeHead_write]
  exact rest

end Serves

/-- Whatever its alignment and its largest chunk, an object that serves a flat
memory reads and writes consecutive bytes of it: blocks that are not whole are
completed with what the memory holds, and the split in chunks does not show. -/
theorem memif_flat {width : Nat} {device : ChunkedMemif σ}
    {view : σ → Memory width} (serves : device.Serves view) (addr : AddrT)
    (state : σ) :
    (∀ len,
      view (device.read addr len state).1 = view state ∧
        (device.read addr len state).2 =
          load (view state) (addr.setWidth width) len) ∧
      ∀ bytes : List Byte, bytes.length ≤ 2 ^ width →
        view (device.write addr bytes state) =
          ByteMemory.write (view state) (addr.setWidth width) bytes :=
  ⟨fun len => serves.read_bytes addr len state,
    fun _ fits => serves.write_bytes addr fits state⟩

end ChunkedMemif

section SimT

/-- `sim_t::read_chunk`; the parameters of `read_bytes` are `unsigned`. -/
def SimT.readChunk (taddr : AddrT) (len : Nat) (memory : BucketMemory) :
    BucketMemory × List Byte :=
  memory.readBytes (taddr.setWidth 32) (len % 2 ^ 32)

/-- `sim_t::write_chunk` -/
def SimT.writeChunk (taddr : AddrT) (src : List Byte)
    (memory : BucketMemory) : BucketMemory :=
  memory.writeBytes (src.take (src.length % 2 ^ 32)) (taddr.setWidth 32)

/-- `sim_t` as the object behind `memif_t` -/
def simT : ChunkedMemif BucketMemory where
  chunkAlign := 1
  chunkMaxSize := 64
  readChunk := SimT.readChunk
  writeChunk := SimT.writeChunk
  clearChunk := fun addr len =>
    clearPieces SimT.writeChunk 64 (by decide) addr len 0
  align_pow := ⟨0, by decide, rfl⟩
  align_dvd := Nat.one_dvd 64
  max_pos := by decide

theorem flat_writeChunk (taddr : AddrT) {src : List Byte}
    (memory : BucketMemory) (short : src.length ≤ 64) :
    (SimT.writeChunk taddr src memory).flat =
      write memory.flat (taddr.setWidth 32) src := by
  have same : src.length % 2 ^ 32 = src.length :=
    Nat.mod_eq_of_lt (by omega)
  rw [SimT.writeChunk, same, List.take_length]
  exact memory.flat_writeBytes src _ (by omega)

/-- The simulator's memory is served at the low half of an address. -/
theorem simT_serves : simT.Serves BucketMemory.flat := by
  have chunks : simT.ServesChunks BucketMemory.flat :=
    { narrow := by decide
      align_fits := by decide
      readChunk := by
        intro addr len memory _ _ short
        have same : len % 2 ^ 32 = len := Nat.mod_eq_of_lt (by
          change len ≤ 64 at short
          omega)
        have read := memory.readBytes_read (addr.setWidth 32) len
        change (SimT.readChunk addr len memory).1.flat = _ ∧
          (SimT.readChunk addr len memory).2 = _
        rw [SimT.readChunk, same]
        exact read
      writeChunk := fun addr _ memory _ _ short =>
        flat_writeChunk addr memory short }
  exact chunks.serves_of_clearPieces fun _ _ _ => rfl

theorem memif_flat_wraps :
    (simT.write 0xfffffffe [1, 2, 3] fun _ => none).flat 0 = 3 := by
  have flat := ChunkedMemif.memif_flat simT_serves 0xfffffffe
    fun _ => none
  rw [flat.2 [1, 2, 3] (by decide)]
  rfl

end SimT

end Ria
