import Ria.Library.Outcome
import Ria.Sim.HostPoll

/-!
# The ELF loader

`load_elf` writes the segments of a file into target memory and collects its
symbols.  The macro `LOAD_ELF` stands there once for each class of files;
here it is one program over an `ElfFormat`, which says where the members of
the structures lie and how wide the sums of offsets are.  A read outside the
file is `undefined`.
-/

namespace Ria

open ByteMemory

/-! ## The structures of a file -/

/-- A member of a structure: where it lies in it, and its size -/
structure Field where
  offset : Nat
  size : Nat

/-- The member lies in a structure of this size. -/
def Field.Within (size : Nat) (field : Field) : Prop :=
  field.offset + field.size ≤ size

instance (size : Nat) (field : Field) : Decidable (field.Within size) :=
  inferInstanceAs (Decidable (_ ≤ _))

/-- `Elf32_*` or `Elf64_*` -/
structure ElfFormat where
  /-- the width of addresses, offsets and sizes -/
  width : Nat
  eEntry : Field
  ePhoff : Field
  eShoff : Field
  ePhnum : Field
  eShnum : Field
  eShstrndx : Field
  phdrSize : Nat
  pType : Field
  pOffset : Field
  pPaddr : Field
  pFilesz : Field
  pMemsz : Field
  shdrSize : Nat
  shName : Field
  shType : Field
  shOffset : Field
  shSize : Field
  symSize : Nat
  stName : Field
  stValue : Field
  width_bounds : 32 ≤ width ∧ width ≤ 64
  /-- `sizeof(Elf64_Ehdr)` is checked for both classes. -/
  e_within : ∀ field ∈ [eEntry, ePhoff, eShoff, ePhnum, eShnum, eShstrndx],
    field.Within 64
  p_within : ∀ field ∈ [pType, pOffset, pPaddr, pFilesz, pMemsz],
    field.Within phdrSize
  sh_within : ∀ field ∈ [shName, shType, shOffset, shSize],
    field.Within shdrSize
  st_within : ∀ field ∈ [stName, stValue], field.Within symSize

/-- `Elf32_Ehdr`, `Elf32_Phdr`, `Elf32_Shdr` and `Elf32_Sym` -/
def elf32 : ElfFormat where
  width := 32
  eEntry := ⟨24, 4⟩
  ePhoff := ⟨28, 4⟩
  eShoff := ⟨32, 4⟩
  ePhnum := ⟨44, 2⟩
  eShnum := ⟨48, 2⟩
  eShstrndx := ⟨50, 2⟩
  phdrSize := 32
  pType := ⟨0, 4⟩
  pOffset := ⟨4, 4⟩
  pPaddr := ⟨12, 4⟩
  pFilesz := ⟨16, 4⟩
  pMemsz := ⟨20, 4⟩
  shdrSize := 40
  shName := ⟨0, 4⟩
  shType := ⟨4, 4⟩
  shOffset := ⟨16, 4⟩
  shSize := ⟨20, 4⟩
  symSize := 16
  stName := ⟨0, 4⟩
  stValue := ⟨4, 4⟩
  width_bounds := by decide
  e_within := by decide
  p_within := by decide
  sh_within := by decide
  st_within := by decide

/-- `Elf64_Ehdr`, `Elf64_Phdr`, `Elf64_Shdr` and `Elf64_Sym` -/
def elf64 : ElfFormat where
  width := 64
  eEntry := ⟨24, 8⟩
  ePhoff := ⟨32, 8⟩
  eShoff := ⟨40, 8⟩
  ePhnum := ⟨56, 2⟩
  eShnum := ⟨60, 2⟩
  eShstrndx := ⟨62, 2⟩
  phdrSize := 56
  pType := ⟨0, 4⟩
  pOffset := ⟨8, 8⟩
  pPaddr := ⟨24, 8⟩
  pFilesz := ⟨32, 8⟩
  pMemsz := ⟨40, 8⟩
  shdrSize := 64
  shName := ⟨0, 4⟩
  shType := ⟨4, 4⟩
  shOffset := ⟨24, 8⟩
  shSize := ⟨32, 8⟩
  symSize := 24
  stName := ⟨0, 4⟩
  stValue := ⟨8, 8⟩
  width_bounds := by decide
  e_within := by decide
  p_within := by decide
  sh_within := by decide
  st_within := by decide

/-- `symbols`: the last value of each name -/
abbrev Symbols := List Byte → Option RegT

/-! ## Reading the file -/

section Reading

variable (file : List Byte)

/-- The bytes of a file from one offset on, as many as there are -/
def fileBytes (offset len : Nat) : List Byte := (file.drop offset).take len

/-- The value of a member of the structure at `base`, in `from_le` -/
def fieldValue (base : Nat) (field : Field) : Nat :=
  ofBytes (fileBytes file (base + field.offset) field.size)

def readField (base : Nat) (field : Field) : Except HostError Nat :=
  if base + field.offset + field.size ≤ file.length then
    .ok (fieldValue file base field)
  else .error .undefined

/-- `assert` -/
def assertThat (condition : Prop) [Decidable condition] (text : String) :
    Except HostError Unit :=
  if condition then .ok () else .error (.assertionFailed text)

/-- The string at an offset, as far as the file goes -/
def fileString (start : Nat) : List Byte :=
  (file.drop start).takeWhile (· != 0)

/-- `strnlen(buf + start, max_len)` -/
def strnlen (start maxLen : Nat) : Except HostError Nat :=
  if (fileString file start).length < maxLen then
    if start + (fileString file start).length < file.length then
      .ok (fileString file start).length
    else .error .undefined
  else .ok maxLen

variable (fmt : ElfFormat)

/-- `bswap(x) + bswap(y)` of two offsets or sizes -/
def ElfFormat.sum (x y : Nat) : Nat := (x + y) % 2 ^ fmt.width

/-- `bswap(x) - bswap(y)` -/
def ElfFormat.difference (x y : Nat) : Nat :=
  (x + (2 ^ fmt.width - y)) % 2 ^ fmt.width

def strtabName : List Byte := ".strtab".toUTF8.toList.map (·.toBitVec)

def symtabName : List Byte := ".symtab".toUTF8.toList.map (·.toBitVec)

/-- One iteration of the loop over the section headers at `shoff`, where
`strtab` is the header of the table of names.  It carries `strtabidx` and
`symtabidx`. -/
def scanSection (shoff strtab : Nat) (indices : Nat × Nat) (i : Nat) :
    Except HostError (Nat × Nat) := do
  let base := shoff + i * fmt.shdrSize
  let strOffset ← readField file strtab fmt.shOffset
  let strSize ← readField file strtab fmt.shSize
  let name ← readField file base fmt.shName
  let maxLen := fmt.difference strSize name % 2 ^ 32
  assertThat (name < strSize)
    "bswap(sh[i].sh_name) < bswap(sh[bswap(eh->e_shstrndx)].sh_size)"
  let length ← strnlen file (strOffset + name) maxLen
  assertThat (length < maxLen)
    "strnlen(shstrtab + bswap(sh[i].sh_name), max_len) < max_len"
  let type ← readField file base fmt.shType
  if type &&& 8 ≠ 0 then return indices
  let offset ← readField file base fmt.shOffset
  let size ← readField file base fmt.shSize
  assertThat (fmt.sum offset size ≤ file.length)
    "size >= bswap(sh[i].sh_offset) + bswap(sh[i].sh_size)"
  let text := fileString file (strOffset + name)
  return (if text = strtabName then i else indices.1,
    if text = symtabName then i else indices.2)

/-- One iteration of the loop over the symbols. -/
def scanSymbol (strtab symtab : Nat) (symbols : Symbols) (i : Nat) :
    Except HostError Symbols := do
  let symOffset ← readField file symtab fmt.shOffset
  let strOffset ← readField file strtab fmt.shOffset
  let strSize ← readField file strtab fmt.shSize
  let base := symOffset + i * fmt.symSize
  let name ← readField file base fmt.stName
  let maxLen := fmt.difference strSize name % 2 ^ 32
  assertThat (name < strSize)
    "bswap(sym[i].st_name) < bswap(sh[strtabidx].sh_size)"
  let length ← strnlen file (strOffset + name) maxLen
  assertThat (length < maxLen)
    "strnlen(strtab + bswap(sym[i].st_name), max_len) < max_len"
  let value ← readField file base fmt.stValue
  return fun text =>
    if text = fileString file (strOffset + name) then
      some (BitVec.ofNat 64 value)
    else symbols text

/-- The second half of `LOAD_ELF` -/
def readSymbols : Except HostError Symbols := do
  let shoff ← readField file 0 fmt.eShoff
  let shnum ← readField file 0 fmt.eShnum
  assertThat ((shoff + shnum * fmt.shdrSize) % 2 ^ 64 ≤ file.length)
    "size >= bswap(eh->e_shoff) + bswap(eh->e_shnum)*sizeof(*sh)"
  let shstrndx ← readField file 0 fmt.eShstrndx
  assertThat (shstrndx < shnum) "bswap(eh->e_shstrndx) < bswap(eh->e_shnum)"
  let names := shoff + shstrndx * fmt.shdrSize
  let strOffset ← readField file names fmt.shOffset
  let strSize ← readField file names fmt.shSize
  assertThat (fmt.sum strOffset strSize ≤ file.length)
    ("size >= bswap(sh[bswap(eh->e_shstrndx)].sh_offset) + " ++
      "bswap(sh[bswap(eh->e_shstrndx)].sh_size)")
  let indices ← (List.range shnum).foldlM (scanSection file fmt shoff names)
    (0, 0)
  if indices.1 ≠ 0 ∧ indices.2 ≠ 0 then
    let strtab := shoff + indices.1 * fmt.shdrSize
    let symtab := shoff + indices.2 * fmt.shdrSize
    let symtabSize ← readField file symtab fmt.shSize
    (List.range (symtabSize / fmt.symSize)).foldlM
      (scanSymbol file fmt strtab symtab) fun _ => none
  else return fun _ => none

end Reading

/-! ## Loading it -/

section Loading

variable {σ ω : Type} (config : HostConfig σ ω) (file : List Byte)

/-- `memif->write(addr, len, buf + offset)` -/
def writeFile (addr : AddrT) (len offset : Nat) : HostM σ ω Unit :=
  if offset + len ≤ file.length then
    memWrite config addr (fileBytes file offset len)
  else throw .undefined

variable (fmt : ElfFormat)

/-- The bytes of a segment that the file has -/
def copySegment (offset paddr filesz : Nat) : HostM σ ω Unit := do
  if filesz ≠ 0 then
    assertThat (fmt.sum offset filesz ≤ file.length)
      "size >= bswap(ph[i].p_offset) + bswap(ph[i].p_filesz)"
    writeFile config file (BitVec.ofNat 64 paddr) filesz offset

/-- The zeros behind them -/
def padSegment (paddr filesz memsz : Nat) : HostM σ ω Unit := do
  let zeros := fmt.difference memsz filesz
  if 2 ^ 63 - 1 < zeros then
    throw (.lengthError "vector::_M_default_append")
  memWrite config (BitVec.ofNat 64 (fmt.sum paddr filesz))
    (List.replicate zeros 0)

/-- One iteration of the loop over the program headers -/
def loadSegment (phoff i : Nat) : HostM σ ω Unit := do
  let base := phoff + i * fmt.phdrSize
  let type ← readField file base fmt.pType
  let memsz ← readField file base fmt.pMemsz
  if type = 1 ∧ memsz ≠ 0 then
    let offset ← readField file base fmt.pOffset
    let paddr ← readField file base fmt.pPaddr
    let filesz ← readField file base fmt.pFilesz
    copySegment config file fmt offset paddr filesz
    padSegment config fmt paddr filesz memsz

/-- `LOAD_ELF`: the entry point and the symbols -/
def loadElfAs : HostM σ ω (RegT × Symbols) := do
  let entry ← readField file 0 fmt.eEntry
  let phoff ← readField file 0 fmt.ePhoff
  let phnum ← readField file 0 fmt.ePhnum
  assertThat ((phoff + phnum * fmt.phdrSize) % 2 ^ 64 ≤ file.length)
    "size >= bswap(eh->e_phoff) + bswap(eh->e_phnum)*sizeof(*ph)"
  (List.range phnum).forM (loadSegment config file fmt phoff)
  let symbols ← readSymbols file fmt
  return (BitVec.ofNat 64 entry, symbols)

/-- A byte of `e_ident` -/
def ident (i : Nat) : Nat := fieldValue file 0 ⟨i, 1⟩

/-- `ELF_SWAP` of a member that both classes have at the same place -/
def elfSwap (field : Field) : Nat :=
  let bytes := fileBytes file field.offset field.size
  if ident file 5 = 1 then ofBytes bytes else ofBytes bytes.reverse

/-- `IS_ELF` -/
def IsElf : Prop :=
  ident file 0 = 0x7f ∧ ident file 1 = 0x45 ∧ ident file 2 = 0x4c ∧
    ident file 3 = 0x46

instance : Decidable (IsElf file) := by
  unfold IsElf
  infer_instance

/-- `load_elf`, of a file that is open and mapped -/
def loadElf : HostM σ ω (RegT × Symbols) := do
  assertThat (64 ≤ file.length) "size >= sizeof(Elf64_Ehdr)"
  assertThat (IsElf file ∧ (ident file 4 = 1 ∨ ident file 4 = 2))
    "IS_ELF32(*eh64) || IS_ELF64(*eh64)"
  assertThat (ident file 5 = 1 ∨ ident file 5 = 2)
    "IS_ELFLE(*eh64) || IS_ELFBE(*eh64)"
  assertThat (elfSwap file ⟨16, 2⟩ = 2) "IS_ELF_EXEC(*eh64)"
  assertThat (elfSwap file ⟨18, 2⟩ = 243 ∨ elfSwap file ⟨18, 2⟩ = 0)
    "IS_ELF_RISCV(*eh64) || IS_ELF_EM_NONE(*eh64)"
  assertThat (elfSwap file ⟨20, 4⟩ = 1) "IS_ELF_VCURRENT(*eh64)"
  if ident file 5 = 1 then
    if ident file 4 = 1 then loadElfAs config file elf32
    else loadElfAs config file elf64
  else
    throw (.invalidArgument ("Specified ELF is big endian.  " ++
      "Configure with --enable-dual-endian to enable support"))

end Loading

end Ria
