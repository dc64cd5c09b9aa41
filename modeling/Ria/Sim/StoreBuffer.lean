import Ria.Common.MicroOp
import Ria.Sim.SimMemory

/-!
# The simulator's store buffer

Executed stores wait in `buffer` until they retire.  `CommitStoreRequest`
returns -1 both when it is asked for more stores than it holds and when it
meets the store that ends the simulation.
-/

namespace Ria

open ByteMemory

/-- `data_size_map` -/
def dataSizeMap : MemSize → Nat
  | .byte => 1
  | .half => 2
  | .word => 4
  | .dword => 8

/-- `store_request_t` -/
structure StoreRequest where
  addr : SimAddr
  data : BitVec 64
  size : MemSize

/-- The bytes of `data` in memory order, least significant first. -/
def dataBytes (data : BitVec 64) : List Byte :=
  List.ofFn fun index : Fin 8 => data.extractLsb' (8 * index.val) 8

/-- The bytes `write_transcation` is given. -/
def StoreRequest.bytes (req : StoreRequest) : List Byte :=
  (dataBytes req.data).take (dataSizeMap req.size)

theorem StoreRequest.bytes_length (req : StoreRequest) :
    req.bytes.length = dataSizeMap req.size := by
  rw [bytes, dataBytes, List.length_take, List.length_ofFn]
  cases req.size <;> rfl

/-- Writing here halts the simulation. -/
def haltAddr : SimAddr := 0xFFFFFFFC

/-- Writing here prints a character. -/
def putcharAddr : SimAddr := 0xFFFFFFF8

/-- The memory behind `dmem`, the buffered requests and the characters
printed so far. -/
structure StoreBuffer where
  memory : BucketMemory
  buffer : List StoreRequest
  printed : List Byte

namespace StoreBuffer

/-- `AddStoreRequest` -/
def addStoreRequest (store : StoreBuffer) (req : StoreRequest) : StoreBuffer :=
  { store with buffer := store.buffer ++ [req] }

/-- `FlushStoreBuffer` -/
def flushStoreBuffer (store : StoreBuffer) : StoreBuffer :=
  { store with buffer := [] }

/-- What the loop of `CommitStoreRequest` does with a request other than the
halting one. -/
def commitOne (store : StoreBuffer) (req : StoreRequest)
    (rest : List StoreRequest) : StoreBuffer :=
  if req.addr = putcharAddr then
    { store with
      buffer := rest
      printed := store.printed ++ [req.data.extractLsb' 0 8] }
  else
    { store with
      buffer := rest
      memory := store.memory.writeBytes req.bytes req.addr }

/-- The loop of `CommitStoreRequest` with `count` iterations to go.  Its guard
keeps `buffer.front()` away from an empty list. -/
def commitLoop : Nat → StoreBuffer → StoreBuffer × Int
  | 0, store => (store, 0)
  | count + 1, store =>
      match store.buffer with
      | [] => (store, 0)
      | req :: rest =>
          if req.addr = haltAddr then (store.flushStoreBuffer, -1)
          else commitLoop count (store.commitOne req rest)

/-- The error condition of `CommitStoreRequest`. -/
def overCommits (store : StoreBuffer) (numCommit : Nat) : Prop :=
  numCommit > store.buffer.length

instance (store : StoreBuffer) (numCommit : Nat) :
    Decidable (store.overCommits numCommit) :=
  inferInstanceAs (Decidable (numCommit > store.buffer.length))

/-- `CommitStoreRequest` -/
def commitStoreRequest (store : StoreBuffer) (numCommit : Nat) :
    StoreBuffer × Int :=
  if store.overCommits numCommit then (store.flushStoreBuffer, -1)
  else commitLoop numCommit store

/-- `dest` of `LoadData` -/
abbrev LoadWindow := Fin 8 → Byte

/-- One iteration of the forwarding loop of `LoadData`. -/
def forwardRequest (loadAddr : SimAddr) (dest : LoadWindow)
    (req : StoreRequest) : LoadWindow :=
  let size := dataSizeMap req.size
  let data := dataBytes req.data
  let offset : Int := (req.addr - loadAddr).toInt
  -- `memcpy(dest + offset, data_ptr, size)`
  let whole := memcpyTo dest offset.toNat (data.take size)
  -- `memcpy(dest + offset, data_ptr, 8 - offset)`
  let low := memcpyTo dest offset.toNat (data.take (8 - offset).toNat)
  -- `memcpy(dest, data_ptr - offset, size + offset)`
  let high := memcpyTo dest 0
    ((data.drop (-offset).toNat).take (size + offset).toNat)
  match req.size with
  | .byte =>
      if offset ≥ 0 ∧ offset ≤ 7 then whole else dest
  | .half =>
      if offset ≥ 0 ∧ offset ≤ 6 then whole
      else if offset = 7 then low
      else if offset = -1 then high
      else dest
  | .word =>
      if offset ≥ 0 ∧ offset ≤ 4 then whole
      else if offset > 4 ∧ offset ≤ 7 then low
      else if offset ≥ -3 ∧ offset < 0 then high
      else dest
  | .dword =>
      if offset = 0 then whole
      else if offset > 0 ∧ offset ≤ 7 then low
      else if offset ≥ -7 ∧ offset < 0 then high
      else dest

/-- `LoadData`: the store buffer afterwards and the eight bytes of `dest`. -/
def loadData (store : StoreBuffer) (loadAddr : SimAddr) :
    StoreBuffer × LoadWindow :=
  let (memory, bytes) := store.memory.readBytes loadAddr 8
  let dest : LoadWindow := memcpyTo (fun _ => 0) 0 bytes
  ({ store with memory := memory },
    store.buffer.foldl (forwardRequest loadAddr) dest)

theorem flat_loadData (store : StoreBuffer) (loadAddr : SimAddr) :
    (store.loadData loadAddr).1.memory.flat = store.memory.flat :=
  (store.memory.readBytes_read loadAddr 8).1

end StoreBuffer

end Ria
