import Ria.Sim.StoreCommit
import Mathlib.Algebra.Group.Int.Defs

/-!
# Loads see the buffered stores

`LoadData` reads eight bytes of memory and lays the buffered stores over them,
each by a case split on the signed distance from the load.  The result is the
window that would be read after all buffered stores had been written.
-/

namespace Ria

open ByteMemory

/-- The bytes of a request written to a flat memory. -/
def StoreRequest.write (memory : Memory 32) (req : StoreRequest) : Memory 32 :=
  ByteMemory.write memory req.addr req.bytes

namespace StoreBuffer

/-- The eight bytes from `loadAddr` on. -/
def window (memory : Memory 32) (loadAddr : SimAddr) : LoadWindow :=
  fun index => memory (loadAddr + BitVec.ofNat 32 index.val)

/-! ## A store at a signed distance -/

/-- Bytes laid over a window from `offset` on, where they meet it. -/
def overlay (dest : LoadWindow) (offset : Int) (bytes : List Byte) :
    LoadWindow :=
  fun index =>
    if offset ≤ index.val then
      (bytes[(index.val - offset).toNat]?).getD (dest index)
    else dest index

theorem distance_eq (addr loadAddr : SimAddr) (index : Fin 8) :
    ((loadAddr + BitVec.ofNat 32 index.val - addr).toNat : Int) =
      (index.val - (addr - loadAddr).toInt) % 2 ^ 32 := by
  have apart := BitVec.toInt_eq_toNat_cond (addr - loadAddr)
  have addrBound := addr.isLt
  have loadBound := loadAddr.isLt
  rw [apart]
  simp only [BitVec.toNat_sub, BitVec.toNat_add, BitVec.toNat_ofNat]
  split <;> omega

/-- Writing a short store lays it over the window at its signed distance. -/
theorem window_write (memory : Memory 32) (addr loadAddr : SimAddr)
    {bytes : List Byte} (short : bytes.length ≤ 8) :
    window (write memory addr bytes) loadAddr =
      overlay (window memory loadAddr) (addr - loadAddr).toInt bytes := by
  funext index
  have distance := distance_eq addr loadAddr index
  have above := BitVec.le_toInt (addr - loadAddr)
  have below := BitVec.toInt_lt (x := addr - loadAddr)
  generalize (addr - loadAddr).toInt = offset at distance above below ⊢
  simp only [Nat.add_one_sub_one] at above below
  unfold window overlay ByteMemory.write
  by_cases reaches : offset ≤ index.val
  · rw [if_pos reaches]
    by_cases covered : index.val - offset < 8
    · have same : (loadAddr + BitVec.ofNat 32 index.val - addr).toNat =
          (index.val - offset).toNat := by omega
      rw [same]
    · have farWrite : bytes.length ≤
          (loadAddr + BitVec.ofNat 32 index.val - addr).toNat := by omega
      have farOverlay : bytes.length ≤ (index.val - offset).toNat := by omega
      rw [List.getElem?_eq_none farWrite, List.getElem?_eq_none farOverlay]
  · have far : bytes.length ≤
        (loadAddr + BitVec.ofNat 32 index.val - addr).toNat := by omega
    rw [if_neg reaches, List.getElem?_eq_none far]
    rfl

/-! ## The case split of the forwarding loop -/

section Cases

variable {dest : LoadWindow} {offset : Int} {data : List Byte} {size : Nat}

/-- `memcpy(dest + offset, data_ptr, size)` -/
theorem memcpyTo_whole (later : 0 ≤ offset) (bytes : List Byte) :
    memcpyTo dest offset.toNat bytes = overlay dest offset bytes := by
  funext index
  unfold memcpyTo overlay
  by_cases reaches : offset ≤ index.val
  · have same : index.val - offset.toNat = (index.val - offset).toNat := by
      omega
    rw [if_pos reaches, if_pos (by omega), same]
  · rw [if_neg reaches, if_neg (by omega)]

/-- `memcpy(dest + offset, data_ptr, 8 - offset)`: the window ends before the
store does. -/
theorem memcpyTo_low (later : 0 ≤ offset) (ends : 8 ≤ offset + size) :
    memcpyTo dest offset.toNat (data.take (8 - offset).toNat) =
      overlay dest offset (data.take size) := by
  rw [memcpyTo_whole later]
  funext index
  unfold overlay
  by_cases reaches : offset ≤ index.val
  · rw [if_pos reaches, if_pos reaches,
      List.getElem?_take_of_lt (by omega), List.getElem?_take_of_lt (by omega)]
  · rw [if_neg reaches, if_neg reaches]

/-- `memcpy(dest, data_ptr - offset, size + offset)`: the store begins before
the window does. -/
theorem memcpyTo_high (earlier : offset < 0) (meets : 0 ≤ size + offset) :
    memcpyTo dest 0
        ((data.drop (-offset).toNat).take (size + offset).toNat) =
      overlay dest offset (data.take size) := by
  funext index
  have from_ : (-offset).toNat + index.val = (index.val - offset).toNat := by
    omega
  unfold memcpyTo overlay
  rw [if_pos (Nat.zero_le _), if_pos (by omega), Nat.sub_zero]
  by_cases covered : index.val < (size + offset).toNat
  · rw [List.getElem?_take_of_lt covered, List.getElem?_drop, from_,
      List.getElem?_take_of_lt (by omega)]
  · rw [List.getElem?_take_eq_none (by omega),
      List.getElem?_take_eq_none (by omega)]

theorem overlay_apart (apart : 8 ≤ offset ∨ size + offset ≤ 0) :
    overlay dest offset (data.take size) = dest := by
  funext index
  unfold overlay
  by_cases reaches : offset ≤ index.val
  · rw [if_pos reaches, List.getElem?_take_eq_none (by omega)]
    rfl
  · rw [if_neg reaches]

/-- The case split of the sizes that can meet the window in part. -/
theorem pieces_eq_overlay {inside ends begins : Prop} [Decidable inside]
    [Decidable ends] [Decidable begins] (whole : inside → 0 ≤ offset)
    (low : ends → 0 ≤ offset ∧ 8 ≤ offset + size)
    (high : begins → offset < 0 ∧ 0 ≤ size + offset)
    (apart : ¬ inside → ¬ ends → ¬ begins →
      8 ≤ offset ∨ size + offset ≤ 0) :
    (if inside then memcpyTo dest offset.toNat (data.take size)
      else if ends then
        memcpyTo dest offset.toNat (data.take (8 - offset).toNat)
      else if begins then
        memcpyTo dest 0
          ((data.drop (-offset).toNat).take (size + offset).toNat)
      else dest) = overlay dest offset (data.take size) := by
  split
  · next isInside => exact memcpyTo_whole (whole isInside) _
  · next notInside =>
    split
    · next endsIn => exact memcpyTo_low (low endsIn).1 (low endsIn).2
    · next notEnds =>
      split
      · next beginsIn => exact memcpyTo_high (high beginsIn).1 (high beginsIn).2
      · next notBegins =>
        exact (overlay_apart (apart notInside notEnds notBegins)).symm

end Cases

/-- One iteration of the loop lays the store over the window. -/
theorem forwardRequest_eq_overlay (loadAddr : SimAddr) (dest : LoadWindow)
    (req : StoreRequest) :
    forwardRequest loadAddr dest req =
      overlay dest (req.addr - loadAddr).toInt req.bytes := by
  unfold forwardRequest StoreRequest.bytes
  generalize (req.addr - loadAddr).toInt = offset
  cases req.size with
  | byte =>
      simp only [dataSizeMap]
      split
      · exact memcpyTo_whole (by omega) _
      · exact (overlay_apart (by omega)).symm
  | half =>
      simp only [dataSizeMap]
      exact pieces_eq_overlay (by omega) (by omega) (by omega) (by omega)
  | word =>
      simp only [dataSizeMap]
      exact pieces_eq_overlay (by omega) (by omega) (by omega) (by omega)
  | dword =>
      simp only [dataSizeMap]
      exact pieces_eq_overlay (by omega) (by omega) (by omega) (by omega)

theorem forwardRequest_window (memory : Memory 32) (loadAddr : SimAddr)
    (req : StoreRequest) :
    forwardRequest loadAddr (window memory loadAddr) req =
      window (req.write memory) loadAddr := by
  have short : req.bytes.length ≤ 8 := by
    rw [req.bytes_length]
    cases req.size <;> decide
  rw [forwardRequest_eq_overlay, StoreRequest.write,
    window_write memory req.addr loadAddr short]

theorem foldl_forwardRequest (requests : List StoreRequest)
    (memory : Memory 32) (loadAddr : SimAddr) :
    requests.foldl (forwardRequest loadAddr) (window memory loadAddr) =
      window (requests.foldl StoreRequest.write memory) loadAddr := by
  induction requests generalizing memory with
  | nil => rfl
  | cons req rest induction =>
      rw [List.foldl_cons, List.foldl_cons, forwardRequest_window]
      exact induction (req.write memory)

/-- Memory as it would be after all buffered stores. -/
def settled (store : StoreBuffer) : Memory 32 :=
  store.buffer.foldl StoreRequest.write store.memory.flat

theorem loadData_window (store : StoreBuffer) (loadAddr : SimAddr) :
    (store.loadData loadAddr).2 = window store.settled loadAddr := by
  obtain ⟨-, bytes⟩ := store.memory.readBytes_read loadAddr 8
  have first : memcpyTo (fun _ => 0) 0 (store.memory.readBytes loadAddr 8).2 =
      window store.memory.flat loadAddr := by
    funext index
    have within : index.val < (load store.memory.flat loadAddr 8).length := by
      rw [length_load]
      exact index.isLt
    rw [bytes, memcpyTo, if_pos (Nat.zero_le _), Nat.sub_zero,
      List.getElem?_eq_getElem within]
    simp only [load, List.getElem_map, List.getElem_range, Option.getD_some]
    rfl
  unfold loadData settled
  rw [← foldl_forwardRequest, ← first]

/-! ## Committing does not change what a load sees -/

/-- No buffered store is to one of the two addresses that do not reach
memory. -/
def Ordinary (store : StoreBuffer) : Prop :=
  ∀ req ∈ store.buffer, req.addr ≠ putcharAddr ∧ req.addr ≠ haltAddr

theorem commitOne_settled {store : StoreBuffer} {req : StoreRequest}
    {rest : List StoreRequest} (front : store.buffer = req :: rest)
    (ordinary : req.addr ≠ putcharAddr) :
    (store.commitOne req rest).settled = store.settled := by
  unfold settled
  rw [store.commitOne_buffer, store.flat_commitOne, front, List.foldl_cons,
    StoreRequest.apply, if_neg ordinary, StoreRequest.write]

theorem commitLoop_settled (count : Nat) (store : StoreBuffer)
    (ordinary : store.Ordinary) :
    (commitLoop count store).1.settled = store.settled := by
  induction count generalizing store with
  | zero => rfl
  | succ count induction =>
      unfold commitLoop
      cases requests : store.buffer with
      | nil => rfl
      | cons req rest =>
          have first := ordinary req (by rw [requests]; exact List.mem_cons_self)
          have others : (store.commitOne req rest).Ordinary := by
            intro other member
            rw [store.commitOne_buffer] at member
            exact ordinary other
              (by rw [requests]; exact List.mem_cons_of_mem _ member)
          simp only [if_neg first.2]
          rw [induction _ others, commitOne_settled requests first.1]

/-- A load returns the bytes of the memory obtained by applying the buffered
stores in order, and committing some of them first makes no difference. -/
theorem loadData_forwards (store : StoreBuffer) (loadAddr : SimAddr) :
    (store.loadData loadAddr).2 =
        window (store.buffer.foldl StoreRequest.write store.memory.flat)
          loadAddr ∧
      (store.Ordinary → ∀ numCommit ≤ store.buffer.length,
        ((store.commitStoreRequest numCommit).1.loadData loadAddr).2 =
          (store.loadData loadAddr).2) := by
  refine ⟨store.loadData_window loadAddr, ?_⟩
  intro ordinary numCommit within
  have runs : ¬ store.overCommits numCommit := Nat.not_lt.mpr within
  rw [loadData_window, loadData_window, commitStoreRequest, if_neg runs,
    commitLoop_settled numCommit store ordinary]

/-- A word store that wraps around the end of the address space. -/
def wrappingStore : StoreBuffer :=
  { memory := fun _ => none, printed := []
    buffer := [⟨0xFFFFFFFD, 0x44332211, .word⟩] }

theorem loadData_forwards_wrapped :
    ((wrappingStore.commitStoreRequest 1).1.loadData 0xFFFFFFFE).2 =
      (wrappingStore.loadData 0xFFFFFFFE).2 := by
  refine (loadData_forwards wrappingStore 0xFFFFFFFE).2 ?_ 1 (Nat.le_refl _)
  intro req member
  rw [List.mem_singleton.mp member]
  decide

end StoreBuffer

end Ria
