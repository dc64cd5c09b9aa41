import Ria.Sim.Htif

/-!
# The host sees a flat memory

`ChunkedMemif.Maps` relates two objects behind `memif_t` whose chunks agree
through a map of their states; `read` and `write` then agree as well, at any
address and length.  Host code uses the memory through `memif_t` only, so it
does the same on both: `processHtio_maps` carries one poll of the simulator's
buckets to the byte array they stand for.
-/

namespace Ria

open ByteMemory

variable {σ τ : Type}

/-- A loop around `write_chunk` does what its chunks do. -/
theorem writePieces_maps {view : σ → τ} {f : AddrT → List Byte → σ → σ}
    {g : AddrT → List Byte → τ → τ}
    (agree : ∀ addr bytes state,
      g addr bytes (view state) = view (f addr bytes state))
    {max : Nat} (positive : 0 < max) (addr : AddrT) (bytes : List Byte)
    (pos : Nat) (state : σ) :
    writePieces g max positive addr bytes pos (view state) =
      view (writePieces f max positive addr bytes pos state) := by
  fun_induction writePieces f max positive addr bytes pos state with
  | case1 pos state more induction =>
      rw [writePieces, if_pos more, agree]
      exact induction
  | case2 pos state ended => rw [writePieces, if_neg ended]

namespace ChunkedMemif

/-- The chunks of one object are those of the other under `view`. -/
structure Maps (device : ChunkedMemif σ) (image : ChunkedMemif τ)
    (view : σ → τ) : Prop where
  chunkAlign : image.chunkAlign = device.chunkAlign
  chunkMaxSize : image.chunkMaxSize = device.chunkMaxSize
  readChunk : ∀ addr len state,
    image.readChunk addr len (view state) =
      (device.readChunk addr len state).map view id
  writeChunk : ∀ addr bytes state,
    image.writeChunk addr bytes (view state) =
      view (device.writeChunk addr bytes state)
  clearChunk : ∀ addr len state,
    image.clearChunk addr len (view state) =
      view (device.clearChunk addr len state)

namespace Maps

variable {device : ChunkedMemif σ} {image : ChunkedMemif τ} {view : σ → τ}

theorem unaligned (maps : device.Maps image view) (addr : AddrT) :
    image.unaligned addr = device.unaligned addr := by
  rw [ChunkedMemif.unaligned, ChunkedMemif.unaligned, maps.chunkAlign]

theorem alignDown (maps : device.Maps image view) (addr : AddrT) :
    image.alignDown addr = device.alignDown addr := by
  rw [ChunkedMemif.alignDown, ChunkedMemif.alignDown, maps.chunkAlign]

theorem headLen (maps : device.Maps image view) (addr : AddrT) (len : Nat) :
    image.headLen addr len = device.headLen addr len := by
  rw [ChunkedMemif.headLen, ChunkedMemif.headLen, maps.unaligned,
    maps.chunkAlign]

theorem tailLen (maps : device.Maps image view) (len : Nat) :
    image.tailLen len = device.tailLen len := by
  rw [ChunkedMemif.tailLen, ChunkedMemif.tailLen, maps.chunkAlign]

theorem readHead (maps : device.Maps image view) (addr : AddrT) (len : Nat)
    (state : σ) :
    image.readHead addr len (view state) =
      (device.readHead addr len state).map view id := by
  unfold ChunkedMemif.readHead
  rw [maps.unaligned, maps.alignDown, maps.headLen, maps.chunkAlign,
    maps.readChunk]
  split <;> rfl

theorem readTail (maps : device.Maps image view) (addr : AddrT) (len : Nat)
    (state : σ) :
    image.readTail addr len (view state) =
      (device.readTail addr len state).map view id := by
  unfold ChunkedMemif.readTail
  simp only [maps.tailLen, maps.chunkAlign, maps.readChunk]
  split <;> rfl

theorem readPieces (maps : device.Maps image view) (addr : AddrT)
    (len pos : Nat) (state : σ) (done : List Byte) :
    image.readPieces addr len pos (view state) done =
      (device.readPieces addr len pos state done).map view id := by
  fun_induction device.readPieces addr len pos state done with
  | case1 pos state done more chunk induction =>
      rw [ChunkedMemif.readPieces, if_pos more, maps.chunkMaxSize,
        maps.readChunk]
      exact induction
  | case2 pos state done ended =>
      rw [ChunkedMemif.readPieces, if_neg ended]
      rfl

theorem read (maps : device.Maps image view) (addr : AddrT) (len : Nat)
    (state : σ) :
    image.read addr len (view state) =
      (device.read addr len state).map view id := by
  unfold ChunkedMemif.read
  simp only [maps.headLen, maps.tailLen, maps.readHead, Prod.map_fst,
    Prod.map_snd, maps.readTail, maps.readPieces, id_eq]
  rfl

theorem writeHead (maps : device.Maps image view) (addr : AddrT)
    (bytes : List Byte) (state : σ) :
    image.writeHead addr bytes (view state) =
      view (device.writeHead addr bytes state) := by
  unfold ChunkedMemif.writeHead
  simp only [maps.unaligned, maps.alignDown, maps.headLen, maps.chunkAlign,
    maps.readChunk, Prod.map_fst, Prod.map_snd, id_eq, maps.writeChunk]
  split <;> rfl

theorem writeTail (maps : device.Maps image view) (addr : AddrT)
    (bytes : List Byte) (state : σ) :
    image.writeTail addr bytes (view state) =
      view (device.writeTail addr bytes state) := by
  unfold ChunkedMemif.writeTail
  simp only [maps.tailLen, maps.chunkAlign, maps.readChunk, Prod.map_fst,
    Prod.map_snd, id_eq, maps.writeChunk]
  split <;> rfl

theorem writeAligned (maps : device.Maps image view) (addr : AddrT)
    (bytes : List Byte) (state : σ) :
    image.writeAligned addr bytes (view state) =
      view (device.writeAligned addr bytes state) := by
  unfold ChunkedMemif.writeAligned
  split
  · exact maps.clearChunk addr bytes.length state
  · simp only [maps.chunkMaxSize]
    exact writePieces_maps maps.writeChunk device.max_pos addr bytes 0 state

theorem write (maps : device.Maps image view) (addr : AddrT)
    (bytes : List Byte) (state : σ) :
    image.write addr bytes (view state) =
      view (device.write addr bytes state) := by
  unfold ChunkedMemif.write
  simp only [maps.headLen, maps.tailLen, maps.writeHead, maps.writeTail,
    maps.writeAligned]

end Maps

end ChunkedMemif

/-! ## The byte array behind the buckets -/

/-- A chunk written to a byte array, cut as `sim_t::write_chunk` cuts it -/
def flatWriteChunk (taddr : AddrT) (src : List Byte) (memory : Memory 32) :
    Memory 32 :=
  write memory (taddr.setWidth 32) (src.take (src.length % 2 ^ 32))

/-- A byte array behind chunks of a size that is a multiple of
`2 ^ exponent`. -/
def flatMemif (exponent count : Nat) (small : exponent < 64)
    (some : 0 < count) : ChunkedMemif (Memory 32) where
  chunkAlign := 2 ^ exponent
  chunkMaxSize := 2 ^ exponent * count
  readChunk := fun taddr len memory =>
    (memory, load memory (taddr.setWidth 32) (len % 2 ^ 32))
  writeChunk := flatWriteChunk
  clearChunk := fun addr len =>
    clearPieces flatWriteChunk (2 ^ exponent * count)
      (Nat.mul_pos (Nat.two_pow_pos exponent) some) addr len 0
  align_pow := ⟨exponent, small, rfl⟩
  align_dvd := Nat.dvd_mul_right _ _
  max_pos := Nat.mul_pos (Nat.two_pow_pos exponent) some

theorem sixtyFour_pos : 0 < 64 := by decide

/-- A byte array in the chunks of `sim_t` -/
def bytesMemif : ChunkedMemif (Memory 32) :=
  flatMemif 0 64 sixtyFour_pos sixtyFour_pos

theorem flat_writeChunk_cut (taddr : AddrT) (src : List Byte)
    (memory : BucketMemory) :
    (SimT.writeChunk taddr src memory).flat =
      flatWriteChunk taddr src memory.flat := by
  apply memory.flat_writeBytes
  rw [List.length_take]
  omega

/-- `sim_t` is the byte array served in its chunks. -/
theorem simT_maps :
    simT.Maps bytesMemif BucketMemory.flat where
  chunkAlign := rfl
  chunkMaxSize := rfl
  readChunk := by
    intro addr len memory
    have read := memory.readBytes_read (addr.setWidth 32) (len % 2 ^ 32)
    apply Prod.ext
    · exact read.1.symm
    · exact read.2.symm
  writeChunk := fun addr bytes memory =>
    (flat_writeChunk_cut addr bytes memory).symm
  clearChunk := by
    intro addr len memory
    have zeros : writePieces flatWriteChunk 64 (by decide) addr (List.replicate len 0) 0
        memory.flat =
          (writePieces SimT.writeChunk 64 (by decide) addr
            (List.replicate len 0) 0 memory).flat :=
      writePieces_maps
        (fun taddr src state => (flat_writeChunk_cut taddr src state).symm)
        (by decide) addr _ 0 memory
    rw [← clearPieces_eq, ← clearPieces_eq] at zeros
    exact zeros

/-- The chunks of a byte array are not seen through `memif_t`. -/
theorem flatMemif_serves {exponent count : Nat} (small : exponent < 64)
    (some : 0 < count) (short : 2 ^ exponent * count < 2 ^ 32) :
    (flatMemif exponent count small some).Serves
      (fun memory : Memory 32 => memory) := by
  have chunks : (flatMemif exponent count small some).ServesChunks
      (fun memory : Memory 32 => memory) :=
    { narrow := by decide
      align_fits := Nat.le_of_lt (Nat.lt_of_le_of_lt
        (Nat.le_mul_of_pos_right (2 ^ exponent) some) short)
      readChunk := by
        intro addr len memory _ _ fits
        have same : len % 2 ^ 32 = len :=
          Nat.mod_eq_of_lt (Nat.lt_of_le_of_lt fits short)
        refine ⟨rfl, ?_⟩
        change load memory _ (len % 2 ^ 32) = _
        rw [same]
      writeChunk := by
        intro addr bytes memory _ _ fits
        have same : bytes.length % 2 ^ 32 = bytes.length :=
          Nat.mod_eq_of_lt (Nat.lt_of_le_of_lt fits short)
        change flatWriteChunk addr bytes memory = _
        rw [flatWriteChunk, same, List.take_length] }
  exact chunks.serves_of_clearPieces fun _ _ _ => rfl

theorem bytesMemif_serves :
    bytesMemif.Serves (fun memory : Memory 32 => memory) :=
  flatMemif_serves sixtyFour_pos sixtyFour_pos (by decide)

/-! ## Host code -/

section Programs

variable {ω α β : Type} {view : σ → τ}

/-- The state with the memory that `view` makes of it. -/
def HostState.map (view : σ → τ) (state : HostState σ ω) :
    HostState τ ω :=
  { state with memory := view state.memory }

/-- The same host in front of another memory. -/
def HostConfig.over (config : HostConfig σ ω) (memif : ChunkedMemif τ) :
    HostConfig τ ω :=
  { config with memif := memif }

/-- Two programs that do the same, the second to what `view` makes of the
memory. -/
def Mirrors (view : σ → τ) (program : HostM σ ω α) (image : HostM τ ω α) :
    Prop :=
  ∀ state, image (state.map view) =
    (program state).map (Prod.map id (HostState.map view))

namespace Mirrors

theorem returns (value : α) :
    Mirrors view (pure value : HostM σ ω α) (pure value) :=
  fun _ => rfl

theorem throws (error : HostError) :
    Mirrors view (throw error : HostM σ ω α) (throw error) :=
  fun _ => rfl

theorem bind {program : HostM σ ω α} {image : HostM τ ω α}
    {next : α → HostM σ ω β} {next' : α → HostM τ ω β}
    (first : Mirrors view program image)
    (rest : ∀ value, Mirrors view (next value) (next' value)) :
    Mirrors view (program >>= next) (image >>= next') := by
  intro state
  change (image (state.map view)).bind (fun r => next' r.1 r.2) =
    ((program state).bind fun r => next r.1 r.2).map _
  rw [first state]
  cases program state with
  | error reason => rfl
  | ok result => exact rest result.1 result.2

theorem ite {condition : Prop} [Decidable condition]
    {program other : HostM σ ω α} {image image' : HostM τ ω α}
    (yes : Mirrors view program image) (no : Mirrors view other image') :
    Mirrors view (if condition then program else other)
      (if condition then image else image') := by
  split
  · exact yes
  · exact no

theorem reads {next : HostState σ ω → HostM σ ω β}
    {next' : HostState τ ω → HostM τ ω β}
    (rest : ∀ state, Mirrors view (next state) (next' (state.map view))) :
    Mirrors view (MonadState.get >>= next) (MonadState.get >>= next') :=
  fun state => rest state state

theorem sets (state : HostState σ ω) :
    Mirrors view (MonadState.set state) (MonadState.set (state.map view)) :=
  fun _ => rfl

theorem modifies {change : HostState σ ω → HostState σ ω}
    {change' : HostState τ ω → HostState τ ω}
    (agree : ∀ state, change' (state.map view) = (change state).map view) :
    Mirrors view (modify change) (modify change') := by
  intro state
  have same := agree state
  change Except.ok (PUnit.unit, change' (state.map view)) = _
  rw [same]
  rfl

end Mirrors

/-! ### The operations -/

variable {config : HostConfig σ ω} {memif : ChunkedMemif τ}

theorem memRead_mirrors (maps : config.memif.Maps memif view) (addr : AddrT)
    (len : Nat) :
    Mirrors view (memRead config addr len)
      (memRead (config.over memif) addr len) := by
  intro state
  have same : (config.over memif).memif.read addr len
      (state.map view).memory = _ := maps.read addr len state.memory
  change Except.ok
      (((config.over memif).memif.read addr len (state.map view).memory).2,
        { state.map view with
          memory := ((config.over memif).memif.read addr len
            (state.map view).memory).1 }) = _
  rw [same]
  rfl

theorem memWrite_mirrors (maps : config.memif.Maps memif view) (addr : AddrT)
    (bytes : List Byte) :
    Mirrors view (memWrite config addr bytes)
      (memWrite (config.over memif) addr bytes) := by
  apply Mirrors.modifies
  intro state
  have same : (config.over memif).memif.write addr bytes
      (state.map view).memory = _ := maps.write addr bytes state.memory
  change { state.map view with
    memory := (config.over memif).memif.write addr bytes
      (state.map view).memory } = _
  rw [same]
  rfl

theorem checkAligned_mirrors (size : Nat) (addr : AddrT) :
    Mirrors view (checkAligned size addr : HostM σ ω Unit)
      (checkAligned size addr) :=
  (Mirrors.throws _).ite (Mirrors.returns _)

theorem memifReadFunc_mirrors (maps : config.memif.Maps memif view)
    (size : Nat) (addr : AddrT) :
    Mirrors view (memifReadFunc config size addr)
      (memifReadFunc (config.over memif) size addr) :=
  (checkAligned_mirrors size addr).bind fun _ =>
    (memRead_mirrors maps addr size).bind fun _ => Mirrors.returns _

theorem memifWriteFunc_mirrors (maps : config.memif.Maps memif view)
    (size : Nat) (addr : AddrT) (val : BitVec (8 * size)) :
    Mirrors view (memifWriteFunc config size addr val)
      (memifWriteFunc (config.over memif) size addr val) :=
  (checkAligned_mirrors size addr).bind fun _ => memWrite_mirrors maps addr _

theorem callOs_mirrors (call : OsCall) :
    Mirrors view (callOs config call) (callOs (config.over memif) call) :=
  Mirrors.reads fun _ => (Mirrors.sets _).bind fun _ => Mirrors.returns _

theorem newVector_mirrors (len : RegT) :
    Mirrors view (newVector len : HostM σ ω Unit) (newVector len) :=
  (Mirrors.throws _).ite (Mirrors.returns _)

theorem lookupFd_mirrors (fd : RegT) :
    Mirrors view (lookupFd fd : HostM σ ω _) (lookupFd fd) :=
  Mirrors.reads fun _ => Mirrors.returns _

theorem atPath_mirrors (fd : RegT) (name : List Byte) :
    Mirrors view (atPath fd name : HostM σ ω _) (atPath fd name) := by
  apply Mirrors.ite
  · apply Mirrors.reads
    intro state
    exact Mirrors.returns (doChroot state.chroot name)
  · exact Mirrors.returns name

/-! ### The system calls -/

theorem callOs_returns_mirrors (call : OsCall) (f : OsResult → α) :
    Mirrors view (do return f (← callOs config call))
      (do return f (← callOs (config.over memif) call)) :=
  (callOs_mirrors call).bind fun _ => Mirrors.returns _

theorem readName_mirrors (maps : config.memif.Maps memif view)
    (pname len : RegT) :
    Mirrors view (readName config pname len)
      (readName (config.over memif) pname len) :=
  (newVector_mirrors len).bind fun _ =>
    (memRead_mirrors maps pname _).bind fun _ =>
      (Mirrors.returns _).ite (Mirrors.throws _)

theorem readNames_mirrors (maps : config.memif.Maps memif view)
    (pold olen pnew nlen : RegT) :
    Mirrors view (readNames config pold olen pnew nlen)
      (readNames (config.over memif) pold olen pnew nlen) :=
  (newVector_mirrors olen).bind fun _ =>
    (newVector_mirrors nlen).bind fun _ =>
      (memRead_mirrors maps pold _).bind fun _ =>
        (memRead_mirrors maps pnew _).bind fun _ =>
          (Mirrors.returns _).ite (Mirrors.throws _)

theorem onFd_mirrors (fd : RegT) (call : BitVec 32 → OsCall)
    (f : OsResult → α) :
    Mirrors view (do return f (← callOs config (call (← lookupFd fd))))
      (do return f (← callOs (config.over memif) (call (← lookupFd fd)))) :=
  (lookupFd_mirrors fd).bind fun _ => callOs_returns_mirrors _ f

theorem fill_mirrors (maps : config.memif.Maps memif view)
    (pbuf : RegT) (result : OsResult) :
    Mirrors view
      (do
        if 0 < result.ret.toInt then memWrite config pbuf result.data
        return sysretErrno result result.ret)
      (do
        if 0 < result.ret.toInt then
          memWrite (config.over memif) pbuf result.data
        return sysretErrno result result.ret) :=
  ((memWrite_mirrors maps pbuf _).bind fun _ => Mirrors.returns _).ite
    (Mirrors.returns _)

theorem copyStat_mirrors (maps : config.memif.Maps memif view)
    (pbuf : RegT) (result : OsResult) :
    Mirrors view (copyStat config pbuf result)
      (copyStat (config.over memif) pbuf result) :=
  ((memWrite_mirrors maps pbuf _).bind fun _ => Mirrors.returns _).ite
    (Mirrors.returns _)

theorem onPath_mirrors (fd : RegT) (name : List Byte)
    (call : BitVec 32 → List Byte → OsCall) {next : OsResult → HostM σ ω α}
    {next' : OsResult → HostM τ ω α}
    (rest : ∀ result, Mirrors view (next result) (next' result)) :
    Mirrors view
      (do
        next (← callOs config (call (← lookupFd fd) (← atPath fd name))))
      (do
        next' (← callOs (config.over memif)
          (call (← lookupFd fd) (← atPath fd name)))) :=
  (lookupFd_mirrors fd).bind fun _ =>
    (atPath_mirrors fd name).bind fun _ => (callOs_mirrors _).bind rest

theorem readString_mirrors (maps : config.memif.Maps memif view)
    (place : Nat → AddrT) (fuel i : Nat) :
    Mirrors view (readString config place fuel i)
      (readString (config.over memif) place fuel i) := by
  induction fuel generalizing i with
  | zero => exact Mirrors.throws _
  | succ fuel induction =>
      exact (memifReadFunc_mirrors maps 1 (place i)).bind fun c =>
        (Mirrors.returns _).ite
          ((induction (i + 1)).bind fun _ => Mirrors.returns _)

theorem sysOpenat_mirrors (maps : config.memif.Maps memif view)
    (dirfd pname len flags mode : RegT) :
    Mirrors view (sysOpenat config dirfd pname len flags mode)
      (sysOpenat (config.over memif) dirfd pname len flags mode) :=
  (readName_mirrors maps pname len).bind fun name =>
    onPath_mirrors dirfd name _ fun _ =>
      (Mirrors.returns _).ite
        (Mirrors.reads fun _ => (Mirrors.sets _).bind fun _ =>
          Mirrors.returns _)

theorem deallocFd_mirrors (fd : RegT) :
    Mirrors view (deallocFd fd : HostM σ ω Unit) (deallocFd fd) :=
  Mirrors.reads fun _ => (Mirrors.sets _).ite (Mirrors.throws _)

theorem sysClose_mirrors (fd : RegT) :
    Mirrors view (sysClose config fd) (sysClose (config.over memif) fd) :=
  (lookupFd_mirrors fd).bind fun _ =>
    (callOs_mirrors _).bind fun _ =>
      (Mirrors.returns _).ite
        ((deallocFd_mirrors fd).bind fun _ => Mirrors.returns _)

theorem sysGetcwd_mirrors (maps : config.memif.Maps memif view)
    (pbuf size : RegT) :
    Mirrors view (sysGetcwd config pbuf size)
      (sysGetcwd (config.over memif) pbuf size) :=
  (newVector_mirrors size).bind fun _ =>
    (callOs_mirrors _).bind fun _ =>
      (Mirrors.returns _).ite (Mirrors.reads fun _ =>
        (Mirrors.returns _).ite
          ((memWrite_mirrors maps pbuf _).bind fun _ => Mirrors.returns _))

theorem sysGetmainvars_mirrors (maps : config.memif.Maps memif view)
    (pbuf limit : RegT) :
    Mirrors view (sysGetmainvars config pbuf limit)
      (sysGetmainvars (config.over memif) pbuf limit) :=
  (Mirrors.returns _).ite
    ((memWrite_mirrors maps pbuf _).bind fun _ => Mirrors.returns _)

theorem sysExit_mirrors (code : RegT) :
    Mirrors view (sysExit code : HostM σ ω RegT) (sysExit code) := by
  apply Mirrors.bind
  · apply Mirrors.modifies
    intro state
    rfl
  · intro _
    exact Mirrors.returns 0

theorem sysPrintstr_mirrors (maps : config.memif.Maps memif view)
    (str : RegT) :
    Mirrors view (sysPrintstr config str)
      (sysPrintstr (config.over memif) str) := by
  apply Mirrors.bind (readString_mirrors maps _ _ 0)
  intro text
  apply Mirrors.bind
  · apply Mirrors.modifies
    intro state
    rfl
  · intro _
    exact Mirrors.returns 0

theorem sysChdir_mirrors (maps : config.memif.Maps memif view)
    (path : RegT) :
    Mirrors view (sysChdir config path)
      (sysChdir (config.over memif) path) :=
  (readString_mirrors maps _ _ 0).bind fun _ =>
    (readString_mirrors maps _ _ 0).bind fun _ => callOs_returns_mirrors _ _

theorem syscallTable_mirrors (maps : config.memif.Maps memif view) (n : Nat)
    (a : Fin 7 → RegT) :
    Option.Rel (Mirrors view) (syscallTable config n a)
      (syscallTable (config.over memif) n a) := by
  unfold syscallTable
  split
  · exact .some (sysGetcwd_mirrors maps _ _)
  · exact .some (onFd_mirrors _ _ _)
  · exact .some ((readName_mirrors maps _ _).bind fun _ =>
      onPath_mirrors _ _ _ fun _ => Mirrors.returns _)
  · exact .some ((readName_mirrors maps _ _).bind fun _ =>
      onPath_mirrors _ _ _ fun _ => Mirrors.returns _)
  · exact .some ((readNames_mirrors maps _ _ _ _).bind fun _ =>
      (lookupFd_mirrors _).bind fun _ => (atPath_mirrors _ _).bind fun _ =>
        onPath_mirrors _ _ _ fun _ => Mirrors.returns _)
  · exact .some ((readNames_mirrors maps _ _ _ _).bind fun _ =>
      (lookupFd_mirrors _).bind fun _ => (atPath_mirrors _ _).bind fun _ =>
        onPath_mirrors _ _ _ fun _ => Mirrors.returns _)
  · exact .some (onFd_mirrors _ _ _)
  · exact .some ((readName_mirrors maps _ _).bind fun _ =>
      onPath_mirrors _ _ _ fun _ => Mirrors.returns _)
  · exact .some (sysChdir_mirrors maps _)
  · exact .some (sysOpenat_mirrors maps _ _ _ _ _)
  · exact .some (sysClose_mirrors _)
  · exact .some (onFd_mirrors _ _ _)
  · exact .some ((newVector_mirrors _).bind fun _ =>
      (lookupFd_mirrors _).bind fun _ => (callOs_mirrors _).bind fun result =>
        fill_mirrors maps _ result)
  · exact .some ((newVector_mirrors _).bind fun _ =>
      (memRead_mirrors maps _ _).bind fun _ => onFd_mirrors _ _ _)
  · exact .some ((newVector_mirrors _).bind fun _ =>
      (lookupFd_mirrors _).bind fun _ => (callOs_mirrors _).bind fun result =>
        fill_mirrors maps _ result)
  · exact .some ((newVector_mirrors _).bind fun _ =>
      (memRead_mirrors maps _ _).bind fun _ => onFd_mirrors _ _ _)
  · exact .some ((readName_mirrors maps _ _).bind fun _ =>
      onPath_mirrors _ _ _ fun result => copyStat_mirrors maps _ result)
  · exact .some ((lookupFd_mirrors _).bind fun _ =>
      (callOs_mirrors _).bind fun result => copyStat_mirrors maps _ result)
  · exact .some (sysExit_mirrors _)
  · exact .some (Mirrors.returns _)
  · exact .some ((readName_mirrors maps _ _).bind fun _ =>
      Mirrors.reads fun _ => (callOs_mirrors _).bind fun result =>
        copyStat_mirrors maps _ result)
  · exact .some (sysGetmainvars_mirrors maps _ _)
  · exact .some (sysPrintstr_mirrors maps _)
  · exact .none

theorem dispatch_mirrors (maps : config.memif.Maps memif view)
    (mm : AddrT) :
    Mirrors view (dispatch config mm) (dispatch (config.over memif) mm) := by
  apply (memRead_mirrors maps mm 64).bind
  intro magicmem
  have entry := syscallTable_mirrors maps (magicWord magicmem 0).toNat
    fun index => magicWord magicmem (index.val + 1)
  dsimp only
  generalize syscallTable config (magicWord magicmem 0).toNat
    (fun index => magicWord magicmem (index.val + 1)) = call at entry ⊢
  generalize syscallTable (config.over memif) (magicWord magicmem 0).toNat
    (fun index => magicWord magicmem (index.val + 1)) = call' at entry ⊢
  cases entry with
  | none => exact Mirrors.throws _
  | some same => exact same.bind fun _ => memWrite_mirrors maps mm _

/-! ### The interface -/

theorem respond_mirrors (cmd : Command) (resp : RegT) :
    Mirrors view (respond cmd resp : HostM σ ω Unit) (respond cmd resp) := by
  apply Mirrors.modifies
  intro state
  rfl

theorem handleSyscall_mirrors (maps : config.memif.Maps memif view)
    (cmd : Command) :
    Mirrors view (handleSyscall config cmd)
      (handleSyscall (config.over memif) cmd) := by
  apply Mirrors.ite
  · apply Mirrors.modifies
    intro state
    rfl
  · exact (dispatch_mirrors maps cmd.payload).bind fun _ =>
      respond_mirrors cmd 1

/-- Devices that register the same commands, with handlers that do the
same. -/
structure Device.Mirrors (view : σ → τ) (device : Device σ ω)
    (image : Device τ ω) : Prop where
  identity : image.identity = device.identity
  commands : ∀ cmd,
    Option.Rel (fun here there => there.1 = here.1 ∧
        ∀ command, Ria.Mirrors view (here.2 command) (there.2 command))
      (device.commands cmd) (image.commands cmd)

variable {device : Device σ ω} {image : Device τ ω}

theorem Device.Mirrors.commandName (same : device.Mirrors view image)
    (what : BitVec 8) : image.commandName what = device.commandName what := by
  have entry := same.commands what
  unfold Device.commandName
  generalize device.commands what = here at entry ⊢
  generalize image.commands what = there at entry ⊢
  cases entry with
  | none => rfl
  | some agree => exact agree.1

theorem handleIdentify_mirrors (maps : config.memif.Maps memif view)
    (same : device.Mirrors view image) (cmd : Command) :
    Mirrors view (handleIdentify config device cmd)
      (handleIdentify (config.over memif) image cmd) := by
  unfold handleIdentify
  simp only [same.identity, same.commandName]
  exact (Mirrors.throws _).ite ((memWrite_mirrors maps _ _).bind fun _ =>
    respond_mirrors cmd 1)

theorem Device.Mirrors.handleCommand (maps : config.memif.Maps memif view)
    (same : device.Mirrors view image) (cmd : Command) :
    Ria.Mirrors view (device.handleCommand config cmd)
      (image.handleCommand (config.over memif) cmd) := by
  have entry := same.commands cmd.cmd
  unfold Device.handleCommand
  generalize device.commands cmd.cmd = here at entry ⊢
  generalize image.commands cmd.cmd = there at entry ⊢
  cases entry with
  | none =>
      exact (handleIdentify_mirrors maps same cmd).ite (Mirrors.returns ())
  | some agree => exact agree.2 cmd

theorem syscallProxy_mirrors (maps : config.memif.Maps memif view) :
    (syscallProxy config).Mirrors view
      (syscallProxy (config.over memif)) where
  identity := rfl
  commands := by
    intro cmd
    unfold syscallProxy
    dsimp only
    split
    · exact .some ⟨rfl, handleSyscall_mirrors maps⟩
    · exact .none

theorem nullDevice_mirrors :
    (nullDevice : Device σ ω).Mirrors view nullDevice where
  identity := rfl
  commands := fun _ => .none

theorem handleCommand_mirrors (maps : config.memif.Maps memif view)
    (cmd : Command) :
    Mirrors view (handleCommand config cmd)
      (handleCommand (config.over memif) cmd) :=
  ((syscallProxy_mirrors maps).handleCommand maps cmd).ite
    (nullDevice_mirrors.handleCommand maps cmd)

theorem pollTohost_mirrors (maps : config.memif.Maps memif view) :
    Mirrors view (pollTohost config) (pollTohost (config.over memif)) :=
  (memifReadFunc_mirrors maps 8 _).bind fun _ =>
    ((memifWriteFunc_mirrors maps 8 _ _).bind fun _ =>
      handleCommand_mirrors maps _).ite (Mirrors.returns ())

theorem deliverFromhost_mirrors (maps : config.memif.Maps memif view) :
    Mirrors view (deliverFromhost config)
      (deliverFromhost (config.over memif)) := by
  apply Mirrors.reads
  intro state
  change Mirrors view (deliverFront config state.fromhostQueue)
    (deliverFront (config.over memif) state.fromhostQueue)
  cases state.fromhostQueue with
  | nil => exact Mirrors.returns ()
  | cons front rest =>
      apply (memifReadFunc_mirrors maps 8 _).bind
      intro fromhost
      apply Mirrors.ite
      · apply (memifWriteFunc_mirrors maps 8 _ _).bind
        intro _
        apply Mirrors.modifies
        intro state
        rfl
      · exact Mirrors.returns ()

/-- One poll does to the byte array what it does to the memory behind it. -/
theorem processHtio_mirrors (maps : config.memif.Maps memif view) :
    Mirrors view (processHtio config) (processHtio (config.over memif)) :=
  (pollTohost_mirrors maps).bind fun _ => deliverFromhost_mirrors maps

end Programs

end Ria
