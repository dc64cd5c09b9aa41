import Mathlib.Algebra.Group.Nat.Defs
import Mathlib.Data.List.Nodup
import Mathlib.Logic.Function.Basic

/-!
# Flat byte memories

A byte memory over `width`-bit addresses is a total function.  A write covers
consecutive addresses and wraps at the end of the address space: the byte at
an address is the one at its distance from the start of the write.  A read
wraps in the same way.
-/

namespace ByteMemory

abbrev Byte := BitVec 8

/-- A byte for every address. -/
abbrev Memory (width : Nat) := BitVec width → Byte

variable {width : Nat}

/-- Write bytes to consecutive addresses. -/
def write (memory : Memory width) (address : BitVec width)
    (bytes : List Byte) : Memory width :=
  fun target => (bytes[(target - address).toNat]?).getD (memory target)

@[simp] theorem write_nil (memory : Memory width) (address : BitVec width) :
    write memory address [] = memory := rfl

theorem write_outside {memory : Memory width} {address target : BitVec width}
    {bytes : List Byte} (beyond : bytes.length ≤ (target - address).toNat) :
    write memory address bytes target = memory target := by
  rw [write, List.getElem?_eq_none beyond]
  rfl

private theorem distance_from_later {distance : BitVec width} {count : Nat}
    (within : count ≤ distance.toNat) :
    (distance - BitVec.ofNat width count).toNat = distance.toNat - count := by
  have bound := distance.isLt
  have same : (BitVec.ofNat width count).toNat = count := by
    simpa using Nat.mod_eq_of_lt (Nat.lt_of_le_of_lt within bound)
  rw [BitVec.toNat_sub_of_le (by rwa [BitVec.le_def, same]), same]

private theorem distance_from_earlier {distance : BitVec width} {count : Nat}
    (before : distance.toNat < count) (bound : count < 2 ^ width) :
    (distance - BitVec.ofNat width count).toNat =
      2 ^ width - count + distance.toNat := by
  have same : (BitVec.ofNat width count).toNat = count := by
    simpa using Nat.mod_eq_of_lt bound
  rw [BitVec.toNat_sub, same, Nat.mod_eq_of_lt (by omega)]

/-- A write in two pieces, the second where the first ended. -/
theorem write_append (memory : Memory width) (address : BitVec width)
    (first second : List Byte)
    (fits : first.length + second.length ≤ 2 ^ width) :
    write memory address (first ++ second) =
      write (write memory address first)
        (address + BitVec.ofNat width first.length) second := by
  funext target
  have split : target - (address + BitVec.ofNat width first.length) =
      (target - address) - BitVec.ofNat width first.length := by
    rw [BitVec.sub_sub]
  rcases Nat.lt_or_ge (target - address).toNat first.length with
    inFirst | beyond
  · have notSecond : second.length ≤
        (target - (address + BitVec.ofNat width first.length)).toNat := by
      rcases Nat.eq_zero_or_pos second.length with empty | nonempty
      · omega
      · rw [split, distance_from_earlier inFirst (by omega)]
        omega
    rw [write_outside notSecond, write, write,
      List.getElem?_append_left inFirst]
  · rw [write, write, write_outside beyond, split,
      distance_from_later beyond, List.getElem?_append_right beyond]

theorem write_append_reverse (memory : Memory width)
    (address : BitVec width) (first second : List Byte) :
    write memory address (first ++ second) =
      write (write memory (address + BitVec.ofNat width first.length) second)
        address first := by
  funext target
  rcases Nat.lt_or_ge (target - address).toNat first.length with
    inFirst | beyond
  · rw [write, write, List.getElem?_append_left inFirst,
      List.getElem?_eq_getElem inFirst]
    rfl
  · have split : target - (address + BitVec.ofNat width first.length) =
        (target - address) - BitVec.ofNat width first.length := by
      rw [BitVec.sub_sub]
    rw [write_outside beyond, write, write, split,
      distance_from_later beyond, List.getElem?_append_right beyond]

/-- Byte `index` of a write is at its distance from the start. -/
theorem write_inside {memory : Memory width} {address : BitVec width}
    {bytes : List Byte} (fits : bytes.length ≤ 2 ^ width) {index : Nat}
    (within : index < bytes.length) :
    write memory address bytes (address + BitVec.ofNat width index) =
      bytes[index] := by
  have small : index % 2 ^ width = index :=
    Nat.mod_eq_of_lt (Nat.lt_of_lt_of_le within fits)
  have distance : (address + BitVec.ofNat width index - address).toNat =
      index := by
    rw [BitVec.add_comm, BitVec.add_sub_cancel, BitVec.toNat_ofNat, small]
  rw [write, distance, List.getElem?_eq_getElem within]
  rfl

/-- The addresses of a block, in order. -/
def block (address : BitVec width) (count : Nat) : List (BitVec width) :=
  (List.range count).map fun index => address + BitVec.ofNat width index

@[simp] theorem block_zero (address : BitVec width) : block address 0 = [] :=
  rfl

/-- A block in two pieces, the second where the first ended. -/
theorem block_add (address : BitVec width) (first second : Nat) :
    block address (first + second) =
      block address first ++
        block (address + BitVec.ofNat width first) second := by
  unfold block
  rw [List.range_add, List.map_append, List.map_map]
  congr 1
  apply List.map_congr_left
  intro index _
  rw [Function.comp_apply, BitVec.ofNat_add, BitVec.add_assoc]

theorem nodup_block (address : BitVec width) {count : Nat}
    (fits : count ≤ 2 ^ width) : (block address count).Nodup := by
  apply List.Nodup.map_on _ List.nodup_range
  intro left leftIn right rightIn same
  rw [List.mem_range] at leftIn rightIn
  have equal := congrArg BitVec.toNat ((BitVec.add_right_inj address).mp same)
  rw [BitVec.toNat_ofNat, BitVec.toNat_ofNat,
    Nat.mod_eq_of_lt (Nat.lt_of_lt_of_le leftIn fits),
    Nat.mod_eq_of_lt (Nat.lt_of_lt_of_le rightIn fits)] at equal
  exact equal

/-- Read bytes from consecutive addresses. -/
def load (memory : Memory width) (address : BitVec width) (count : Nat) :
    List Byte :=
  (List.range count).map fun index =>
    memory (address + BitVec.ofNat width index)

theorem load_eq_map_block (memory : Memory width) (address : BitVec width)
    (count : Nat) :
    load memory address count = (block address count).map memory := by
  rw [block, List.map_map]
  rfl

@[simp] theorem load_zero (memory : Memory width) (address : BitVec width) :
    load memory address 0 = [] := rfl

@[simp] theorem length_load (memory : Memory width) (address : BitVec width)
    (count : Nat) : (load memory address count).length = count := by
  rw [load, List.length_map, List.length_range]

theorem load_add (memory : Memory width) (address : BitVec width)
    (first second : Nat) :
    load memory address (first + second) =
      load memory address first ++
        load memory (address + BitVec.ofNat width first) second := by
  simp only [load_eq_map_block, block_add, List.map_append]

theorem write_load (memory : Memory width) (address : BitVec width)
    (count : Nat) : write memory address (load memory address count) = memory := by
  funext target
  rcases Nat.lt_or_ge (target - address).toNat count with inside | beyond
  · have there : address + (target - address) = target := by
      rw [BitVec.add_comm, BitVec.sub_add_cancel]
    rw [write, load, List.getElem?_map, List.getElem?_range inside]
    change memory (address + BitVec.ofNat width _) = _
    rw [BitVec.ofNat_toNat, BitVec.setWidth_eq, there]
  · exact write_outside (by rwa [length_load])

/-- A block read, patched from byte `start` on and written back. -/
theorem write_patched (memory : Memory width) (address : BitVec width)
    {start count : Nat} {bytes : List Byte}
    (inside : start + bytes.length ≤ count) (fits : count ≤ 2 ^ width) :
    write memory address
        ((load memory address count).take start ++ bytes ++
          (load memory address count).drop (start + bytes.length)) =
      write memory (address + BitVec.ofNat width start) bytes := by
  obtain ⟨rest, rfl⟩ := Nat.exists_eq_add_of_le inside
  have before : (load memory address (start + bytes.length + rest)).take
      start = load memory address start := by
    rw [Nat.add_assoc, load_add, List.take_left' (length_load ..)]
  have behind : (load memory address (start + bytes.length + rest)).drop
      (start + bytes.length) =
        load memory (address + BitVec.ofNat width (start + bytes.length))
          rest := by
    rw [load_add, List.drop_left' (length_load ..)]
  rw [before, behind, List.append_assoc,
    write_append _ _ _ _ (by
      simp only [length_load, List.length_append]
      omega),
    write_load, length_load, write_append_reverse, BitVec.add_assoc,
    ← BitVec.ofNat_add, write_load]

/-- A write hides an earlier one that it covers. -/
theorem write_covered (memory : Memory width) (address : BitVec width)
    {first second : List Byte} (covers : first.length ≤ second.length) :
    write (write memory address first) address second =
      write memory address second := by
  funext target
  rcases Nat.lt_or_ge (target - address).toNat second.length with
    inside | beyond
  · have there := List.getElem?_eq_getElem inside
    rw [write, there]
    conv_rhs => rw [write, there]
    rfl
  · rw [write_outside beyond, write_outside beyond,
      write_outside (Nat.le_trans covers beyond)]

theorem load_write (memory : Memory width) (address : BitVec width)
    (bytes : List Byte) (fits : bytes.length ≤ 2 ^ width) :
    load (write memory address bytes) address bytes.length = bytes := by
  apply List.ext_getElem (length_load ..)
  intro index low high
  have byte : write memory address bytes (address + BitVec.ofNat width index) =
      bytes[index] := write_inside fits high
  simpa only [load, List.getElem_map, List.getElem_range] using byte

/-- A part of what was written is read back from where it lies. -/
theorem load_write_part (memory : Memory width) (address : BitVec width)
    {before part behind : List Byte}
    (fits : (before ++ (part ++ behind)).length ≤ 2 ^ width) :
    load (write memory address (before ++ (part ++ behind)))
        (address + BitVec.ofNat width before.length) part.length = part := by
  have all := load_write memory address (before ++ (part ++ behind)) fits
  rw [List.length_append, List.length_append, load_add, load_add] at all
  have rest := (List.append_inj all (length_load ..)).2
  exact (List.append_inj rest (length_load ..)).1

/-- Two blocks without a common address. -/
def Apart (first : BitVec width) (firstCount : Nat) (second : BitVec width)
    (secondCount : Nat) : Prop :=
  ∀ i, i < firstCount → ∀ j, j < secondCount →
    first + BitVec.ofNat width i ≠ second + BitVec.ofNat width j

theorem apart_behind (address : BitVec width) {first second : Nat}
    (fits : first + second ≤ 2 ^ width) :
    Apart address first (address + BitVec.ofNat width first) second := by
  intro i insideFirst j insideSecond same
  rw [BitVec.add_assoc, ← BitVec.ofNat_add, BitVec.add_right_inj] at same
  have equal := congrArg BitVec.toNat same
  rw [BitVec.toNat_ofNat, BitVec.toNat_ofNat, Nat.mod_eq_of_lt (by omega),
    Nat.mod_eq_of_lt (by omega)] at equal
  omega

namespace Apart

variable {first second : BitVec width} {firstCount secondCount : Nat}

theorem symm (apart : Apart first firstCount second secondCount) :
    Apart second secondCount first firstCount :=
  fun j insideSecond i insideFirst same =>
    apart i insideFirst j insideSecond same.symm

theorem within (apart : Apart first firstCount second secondCount)
    {i j count count' : Nat} (inFirst : i + count ≤ firstCount)
    (inSecond : j + count' ≤ secondCount) :
    Apart (first + BitVec.ofNat width i) count
      (second + BitVec.ofNat width j) count' := by
  intro k insideFirst l insideSecond
  rw [BitVec.add_assoc, BitVec.add_assoc, ← BitVec.ofNat_add,
    ← BitVec.ofNat_add]
  exact apart (i + k) (by omega) (j + l) (by omega)

theorem write_eq (apart : Apart first firstCount second secondCount)
    (memory : Memory width) {bytes : List Byte}
    (length : bytes.length = secondCount) {i : Nat}
    (inside : i < firstCount) :
    write memory second bytes (first + BitVec.ofNat width i) =
      memory (first + BitVec.ofNat width i) := by
  apply write_outside
  apply Nat.le_of_not_lt
  intro reached
  apply apart i inside _ (length ▸ reached)
  rw [BitVec.ofNat_toNat, BitVec.setWidth_eq,
    BitVec.add_comm second, BitVec.sub_add_cancel]

theorem load_write (apart : Apart first firstCount second secondCount)
    (memory : Memory width) {bytes : List Byte}
    (length : bytes.length = secondCount) :
    load (write memory second bytes) first firstCount =
      load memory first firstCount := by
  apply List.map_congr_left
  intro i inside
  exact apart.write_eq memory length (List.mem_range.mp inside)

end Apart

end ByteMemory
