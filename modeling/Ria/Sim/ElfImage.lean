import Ria.Sim.ElfLoader
import Ria.Sim.MainVars

/-!
# What the ELF loader makes of a file

If the headers of a file do not overflow, `load_elf` reads nothing outside of
it and accepts it just if it is well formed.  Each byte of target memory is
then that of the last segment that covers it, and each symbol has the value of
the last entry of its name (`loadElf_loads`).
-/

namespace Ria

open ByteMemory Outcome

/-! ## What a file asks for -/

/-- The members of a program header that the loader reads -/
structure Phdr where
  type : Nat
  offset : Nat
  paddr : Nat
  filesz : Nat
  memsz : Nat

/-- A segment that is loaded: `PT_LOAD`, and not empty -/
def Phdr.Loaded (phdr : Phdr) : Prop := phdr.type = 1 ∧ phdr.memsz ≠ 0

instance (phdr : Phdr) : Decidable phdr.Loaded :=
  inferInstanceAs (Decidable (_ ∧ _))

section Contents

variable (fmt : ElfFormat) (file : List Byte)

/-- The bytes of a segment: those of the file, and zeros behind them -/
def Phdr.image (phdr : Phdr) : List Byte :=
  fileBytes file phdr.offset phdr.filesz ++
    List.replicate (phdr.memsz - phdr.filesz) 0

/-- The byte of a segment at an address -/
def Phdr.byteAt (phdr : Phdr) (target : SimAddr) : Option Byte :=
  (phdr.image file)[(target - BitVec.ofNat 32 phdr.paddr).toNat]?

/-- Program header `i` -/
def phdrAt (i : Nat) : Phdr :=
  let base := fieldValue file 0 fmt.ePhoff + i * fmt.phdrSize
  { type := fieldValue file base fmt.pType
    offset := fieldValue file base fmt.pOffset
    paddr := fieldValue file base fmt.pPaddr
    filesz := fieldValue file base fmt.pFilesz
    memsz := fieldValue file base fmt.pMemsz }

def phdrs : List Phdr :=
  (List.range (fieldValue file 0 fmt.ePhnum)).map (phdrAt fmt file)

/-- The byte of the last segment in the list that covers an address -/
def lastByte (segments : List Phdr) (target : SimAddr) : Option Byte :=
  ((segments.filter (·.Loaded)).reverse).findSome? (·.byteAt file target)

/-- Where section header `i` lies -/
def shdrAt (i : Nat) : Nat :=
  fieldValue file 0 fmt.eShoff + i * fmt.shdrSize

/-- Where the name of section `i` lies -/
def sectionName (i : Nat) : Nat :=
  fieldValue file (shdrAt fmt file (fieldValue file 0 fmt.eShstrndx))
      fmt.shOffset +
    fieldValue file (shdrAt fmt file i) fmt.shName

/-- A section with this name that has bytes in the file -/
def Titled (text : List Byte) (i : Nat) : Prop :=
  fieldValue file (shdrAt fmt file i) fmt.shType &&& 8 = 0 ∧
    fileString file (sectionName fmt file i) = text

instance (text : List Byte) (i : Nat) : Decidable (Titled fmt file text i) :=
  inferInstanceAs (Decidable (_ ∧ _))

/-- The last of the sections with a name, or zero -/
def lastTitled (text : List Byte) (items : List Nat) : Nat :=
  ((items.filter (Titled fmt file text)).getLast?).getD 0

/-- `strtabidx` or `symtabidx` after the loop -/
def sectionIndex (text : List Byte) : Nat :=
  lastTitled fmt file text (List.range (fieldValue file 0 fmt.eShnum))

/-- Where entry `i` of the table of symbols lies -/
def symAt (symtab i : Nat) : Nat :=
  fieldValue file symtab fmt.shOffset + i * fmt.symSize

/-- The value of the last symbol of a name among the entries of a table -/
def lastSymbol (strtab symtab : Nat) (items : List Nat) : Symbols :=
  fun text => items.reverse.findSome? fun i =>
    let base := symAt fmt file symtab i
    let name := fieldValue file strtab fmt.shOffset +
      fieldValue file base fmt.stName
    if text = fileString file name then
      some (BitVec.ofNat 64 (fieldValue file base fmt.stValue))
    else none

/-- The symbols of a file -/
def symbolTable : Symbols :=
  let strtab := sectionIndex fmt file strtabName
  let symtab := sectionIndex fmt file symtabName
  if strtab ≠ 0 ∧ symtab ≠ 0 then
    lastSymbol fmt file (shdrAt fmt file strtab) (shdrAt fmt file symtab)
      (List.range (fieldValue file (shdrAt fmt file symtab) fmt.shSize /
        fmt.symSize))
  else fun _ => none

/-- A part of the file that a section header names -/
def Contained (i : Nat) : Prop :=
  fieldValue file (shdrAt fmt file i) fmt.shOffset +
    fieldValue file (shdrAt fmt file i) fmt.shSize ≤ file.length

/-- A name in the table of strings with the header at `strtab`: it starts and
ends there. -/
def Spelled (strtab name : Nat) : Prop :=
  name < fieldValue file strtab fmt.shSize ∧
    (fileString file (fieldValue file strtab fmt.shOffset + name)).length <
      (fieldValue file strtab fmt.shSize - name) % 2 ^ 32

instance (i : Nat) : Decidable (Contained fmt file i) :=
  inferInstanceAs (Decidable (_ ≤ _))

instance (strtab name : Nat) : Decidable (Spelled fmt file strtab name) :=
  inferInstanceAs (Decidable (_ ∧ _))

/-- A section has a name, and its bytes are in the file. -/
def SectionOk (i : Nat) : Prop :=
  Spelled fmt file (shdrAt fmt file (fieldValue file 0 fmt.eShstrndx))
      (fieldValue file (shdrAt fmt file i) fmt.shName) ∧
    (fieldValue file (shdrAt fmt file i) fmt.shType &&& 8 = 0 →
      Contained fmt file i)

instance (i : Nat) : Decidable (SectionOk fmt file i) :=
  inferInstanceAs (Decidable (_ ∧ (_ → _)))

/-- The bytes of a segment are in the file. -/
def Phdr.Stored (phdr : Phdr) : Prop :=
  phdr.Loaded → phdr.filesz ≠ 0 → phdr.offset + phdr.filesz ≤ file.length

instance (phdr : Phdr) : Decidable (phdr.Stored file) :=
  inferInstanceAs (Decidable (_ → _ → _))

/-- The sections and the symbols are in the file, and their names too. -/
structure Sectioned : Prop where
  shdrTable : fieldValue file 0 fmt.eShoff +
    fieldValue file 0 fmt.eShnum * fmt.shdrSize ≤ file.length
  strings : fieldValue file 0 fmt.eShstrndx < fieldValue file 0 fmt.eShnum
  names : Contained fmt file (fieldValue file 0 fmt.eShstrndx)
  sections : ∀ i, i < fieldValue file 0 fmt.eShnum → SectionOk fmt file i
  symbols : sectionIndex fmt file strtabName ≠ 0 →
    sectionIndex fmt file symtabName ≠ 0 →
    ∀ i, i < fieldValue file
        (shdrAt fmt file (sectionIndex fmt file symtabName)) fmt.shSize /
        fmt.symSize →
      Spelled fmt file (shdrAt fmt file (sectionIndex fmt file strtabName))
        (fieldValue file
          (symAt fmt file (shdrAt fmt file (sectionIndex fmt file symtabName))
            i) fmt.stName)

/-- A little-endian executable for RISC-V or for no machine -/
structure Identified (file : List Byte) : Prop where
  header : 64 ≤ file.length
  magic : IsElf file
  classes : ident file 4 = 1 ∨ ident file 4 = 2
  little : ident file 5 = 1
  executable : fieldValue file 0 ⟨16, 2⟩ = 2
  machine : fieldValue file 0 ⟨18, 2⟩ = 243 ∨ fieldValue file 0 ⟨18, 2⟩ = 0
  version : fieldValue file 0 ⟨20, 4⟩ = 1

/-- Such a file with all its segments, sections and symbols -/
structure WellFormed : Prop extends
    Identified file, Sectioned fmt file where
  phdrTable : fieldValue file 0 fmt.ePhoff +
    fieldValue file 0 fmt.ePhnum * fmt.phdrSize ≤ file.length
  segments : ∀ phdr ∈ phdrs fmt file, phdr.Stored file

/-- The headers do not overflow: no table leaves 64 bits, and no part of the
file that a header names leaves the width of the class. -/
structure Sound : Prop where
  phdrTable : fieldValue file 0 fmt.ePhoff +
    fieldValue file 0 fmt.ePhnum * fmt.phdrSize < 2 ^ 64
  shdrTable : fieldValue file 0 fmt.eShoff +
    fieldValue file 0 fmt.eShnum * fmt.shdrSize < 2 ^ 64
  segments : ∀ phdr ∈ phdrs fmt file, phdr.Loaded →
    phdr.offset + phdr.filesz < 2 ^ fmt.width ∧
      phdr.filesz ≤ phdr.memsz ∧ phdr.memsz < 2 ^ 32
  sections : ∀ i, i < fieldValue file 0 fmt.eShnum →
    fieldValue file (shdrAt fmt file i) fmt.shOffset +
      fieldValue file (shdrAt fmt file i) fmt.shSize < 2 ^ fmt.width

end Contents

/-! ## Reading it -/

section Reading

variable {fmt : ElfFormat} {file : List Byte}

/-- An error of a file that is not well formed, and no read outside of it -/
def Refused (fmt : ElfFormat) (file : List Byte) (error : HostError) : Prop :=
  error ≠ .undefined ∧ ¬ WellFormed fmt file

theorem readField_meets {base size : Nat} {field : Field}
    (within : field.Within size) (inside : base + size ≤ file.length) :
    Meets (Refused fmt file) (· = fieldValue file base field)
      (readField file base field) := by
  unfold Field.Within at within
  rw [readField, if_pos (by omega)]
  exact Meets.returns rfl

theorem assertThat_meets {condition : Prop} [Decidable condition]
    {text : String} (needed : WellFormed fmt file → condition) :
    Meets (Refused fmt file) (fun _ => condition)
      (assertThat condition text) := by
  unfold assertThat
  split
  · rename_i holds
    exact Meets.returns holds
  · rename_i fails
    exact Meets.throws ⟨by rintro ⟨⟩, mt needed fails⟩

theorem strnlen_meets {start maxLen : Nat}
    (inside : start + maxLen ≤ file.length) :
    Meets (Refused fmt file)
      (fun length => length < maxLen ↔
        (fileString file start).length < maxLen)
      (strnlen file start maxLen) := by
  unfold strnlen
  split
  · rw [if_pos (by omega)]
    exact Meets.returns Iff.rfl
  · rename_i long
    exact Meets.returns (iff_of_false (Nat.lt_irrefl _) long)

theorem difference_eq {x y : Nat} (le : y ≤ x) (small : x < 2 ^ fmt.width) :
    fmt.difference x y = x - y := by
  have shift : x + (2 ^ fmt.width - y) = x - y + 2 ^ fmt.width := by omega
  rw [ElfFormat.difference, shift, Nat.add_mod_right,
    Nat.mod_eq_of_lt (by omega)]

theorem sum_eq {x y : Nat} (small : x + y < 2 ^ fmt.width) :
    fmt.sum x y = x + y := Nat.mod_eq_of_lt small

theorem named_meets {strtab name : Nat} {β : Type} {next : β → Prop}
    {rest : Except HostError β} {starts ends : String}
    (contained : fieldValue file strtab fmt.shOffset +
      fieldValue file strtab fmt.shSize ≤ file.length)
    (small : fieldValue file strtab fmt.shSize < 2 ^ fmt.width)
    (needed : WellFormed fmt file → Spelled fmt file strtab name)
    (then_ : Spelled fmt file strtab name →
      Meets (Refused fmt file) next rest) :
    Meets (Refused fmt file) next (do
      assertThat (name < fieldValue file strtab fmt.shSize) starts
      let length ← strnlen file (fieldValue file strtab fmt.shOffset + name)
        (fmt.difference (fieldValue file strtab fmt.shSize) name % 2 ^ 32)
      assertThat (length <
        fmt.difference (fieldValue file strtab fmt.shSize) name % 2 ^ 32) ends
      rest) := by
  refine (assertThat_meets fun formed => (needed formed).1).bind
    fun _ smaller => ?_
  rw [difference_eq (Nat.le_of_lt smaller) small]
  have short := Nat.mod_le (fieldValue file strtab fmt.shSize - name) (2 ^ 32)
  refine (strnlen_meets (by omega)).bind fun length same => ?_
  refine (assertThat_meets fun formed => same.mpr (needed formed).2).bind
    fun _ ended => ?_
  exact then_ ⟨smaller, same.mp ended⟩

theorem shdrAt_inside
    (table : fieldValue file 0 fmt.eShoff +
      fieldValue file 0 fmt.eShnum * fmt.shdrSize ≤ file.length)
    {i : Nat} (inside : i < fieldValue file 0 fmt.eShnum) :
    shdrAt fmt file i + fmt.shdrSize ≤ file.length := by
  have before := Nat.mul_le_mul_right fmt.shdrSize (Nat.succ_le_of_lt inside)
  rw [Nat.succ_mul] at before
  unfold shdrAt
  omega

/-! ### The sections -/

theorem lastTitled_append (text : List Byte) (items : List Nat) (i : Nat) :
    lastTitled fmt file text (items ++ [i]) =
      if Titled fmt file text i then i
      else lastTitled fmt file text items := by
  unfold lastTitled
  rw [List.filter_append]
  by_cases titled : Titled fmt file text i
  · have single : [i].filter (Titled fmt file text) = [i] := by
      simp [titled]
    rw [if_pos titled, single, List.getLast?_append]
    rfl
  · have none : [i].filter (Titled fmt file text) = [] := by
      simp [titled]
    rw [if_neg titled, none, List.append_nil]

theorem lastTitled_mem {text : List Byte} {items : List Nat}
    (found : lastTitled fmt file text items ≠ 0) :
    lastTitled fmt file text items ∈ items ∧
      Titled fmt file text (lastTitled fmt file text items) := by
  unfold lastTitled at found ⊢
  cases last : (items.filter (Titled fmt file text)).getLast? with
  | none =>
      rw [last] at found
      exact absurd rfl found
  | some i =>
      have member := List.mem_filter.mp (List.mem_of_getLast? last)
      exact ⟨member.1, of_decide_eq_true member.2⟩

/-- What the loop over the sections knows after some of them -/
def Scanned (fmt : ElfFormat) (file : List Byte) (items : List Nat)
    (indices : Nat × Nat) : Prop :=
  indices = (lastTitled fmt file strtabName items,
      lastTitled fmt file symtabName items) ∧
    ∀ i ∈ items, SectionOk fmt file i

theorem Scanned.next {items : List Nat} {indices after : Nat × Nat} {i : Nat}
    (scanned : Scanned fmt file items indices) (fine : SectionOk fmt file i)
    (taken : after =
      (if Titled fmt file strtabName i then i else indices.1,
        if Titled fmt file symtabName i then i else indices.2)) :
    Scanned fmt file (items ++ [i]) after := by
  refine ⟨?_, ?_⟩
  · rw [lastTitled_append, lastTitled_append, taken, scanned.1]
  · intro j member
    rcases List.mem_append.mp member with old | new
    · exact scanned.2 j old
    · rw [List.mem_singleton.mp new]
      exact fine

theorem scanSection_meets (sound : Sound fmt file)
    (table : fieldValue file 0 fmt.eShoff +
      fieldValue file 0 fmt.eShnum * fmt.shdrSize ≤ file.length)
    (strings : fieldValue file 0 fmt.eShstrndx < fieldValue file 0 fmt.eShnum)
    (names : Contained fmt file (fieldValue file 0 fmt.eShstrndx))
    {items : List Nat} {indices : Nat × Nat} {i : Nat}
    (scanned : Scanned fmt file items indices)
    (inside : i < fieldValue file 0 fmt.eShnum) :
    Meets (Refused fmt file) (Scanned fmt file (items ++ [i]))
      (scanSection file fmt (fieldValue file 0 fmt.eShoff)
        (shdrAt fmt file (fieldValue file 0 fmt.eShstrndx)) indices i) := by
  have header := shdrAt_inside table inside
  have strtab := shdrAt_inside table strings
  have within := fmt.sh_within
  have fits := sound.sections _ strings
  unfold scanSection
  refine (readField_meets (within _ (by simp)) strtab).bind ?_
  rintro _ rfl
  refine (readField_meets (within _ (by simp)) strtab).bind ?_
  rintro _ rfl
  refine (readField_meets (within _ (by simp)) header).bind ?_
  rintro _ rfl
  refine named_meets names (Nat.lt_of_le_of_lt (Nat.le_add_left _ _) fits)
    (fun formed => (formed.sections i inside).1) fun named => ?_
  refine (readField_meets (within _ (by simp)) header).bind ?_
  rintro _ rfl
  split
  · rename_i noBits
    have untitled : ∀ text, ¬ Titled fmt file text i :=
      fun text titled => noBits titled.1
    refine Meets.returns (scanned.next
      ⟨named, fun bits => absurd bits noBits⟩ ?_)
    rw [if_neg (untitled _), if_neg (untitled _)]
  · rename_i bits
    have stored := not_not.mp bits
    refine (readField_meets (within _ (by simp)) header).bind ?_
    rintro _ rfl
    refine (readField_meets (within _ (by simp)) header).bind ?_
    rintro _ rfl
    rw [sum_eq (sound.sections i inside)]
    have needed : WellFormed fmt file →
        fieldValue file (shdrAt fmt file i) fmt.shOffset +
          fieldValue file (shdrAt fmt file i) fmt.shSize ≤ file.length :=
      fun formed => (formed.sections i inside).2 stored
    refine (assertThat_meets needed).bind fun _ contained => ?_
    have titled : ∀ text, Titled fmt file text i ↔
        fileString file (sectionName fmt file i) = text :=
      fun text => and_iff_right stored
    refine Meets.returns (scanned.next ⟨named, fun _ => contained⟩ ?_)
    simp only [titled]
    rfl

/-! ### The symbols -/

theorem lastSymbol_append (strtab symtab : Nat) (items : List Nat) (i : Nat) :
    lastSymbol fmt file strtab symtab (items ++ [i]) = fun text =>
      if text = fileString file (fieldValue file strtab fmt.shOffset +
          fieldValue file (symAt fmt file symtab i) fmt.stName) then
        some (BitVec.ofNat 64
          (fieldValue file (symAt fmt file symtab i) fmt.stValue))
      else lastSymbol fmt file strtab symtab items text := by
  funext text
  unfold lastSymbol
  rw [List.reverse_append, List.reverse_singleton, List.singleton_append,
    List.findSome?_cons]
  by_cases same : text = fileString file (fieldValue file strtab fmt.shOffset +
    fieldValue file (symAt fmt file symtab i) fmt.stName)
  · rw [if_pos same, if_pos same]
  · rw [if_neg same, if_neg same]

/-- What the loop over the symbols knows after some of them -/
def Collected (fmt : ElfFormat) (file : List Byte) (strtab symtab : Nat)
    (items : List Nat) (symbols : Symbols) : Prop :=
  symbols = lastSymbol fmt file strtab symtab items ∧
    ∀ i ∈ items, Spelled fmt file strtab
      (fieldValue file (symAt fmt file symtab i) fmt.stName)

theorem scanSymbol_meets {strtab symtab : Nat}
    (strHeader : strtab + fmt.shdrSize ≤ file.length)
    (symHeader : symtab + fmt.shdrSize ≤ file.length)
    (contained : fieldValue file strtab fmt.shOffset +
      fieldValue file strtab fmt.shSize ≤ file.length)
    (small : fieldValue file strtab fmt.shSize < 2 ^ fmt.width)
    {items : List Nat} {symbols : Symbols} {i : Nat}
    (collected : Collected fmt file strtab symtab items symbols)
    (entry : symAt fmt file symtab i + fmt.symSize ≤ file.length)
    (needed : WellFormed fmt file → Spelled fmt file strtab
      (fieldValue file (symAt fmt file symtab i) fmt.stName)) :
    Meets (Refused fmt file)
      (Collected fmt file strtab symtab (items ++ [i]))
      (scanSymbol file fmt strtab symtab symbols i) := by
  have sections := fmt.sh_within
  have within := fmt.st_within
  unfold scanSymbol
  refine (readField_meets (sections _ (by simp)) symHeader).bind ?_
  rintro _ rfl
  refine (readField_meets (sections _ (by simp)) strHeader).bind ?_
  rintro _ rfl
  refine (readField_meets (sections _ (by simp)) strHeader).bind ?_
  rintro _ rfl
  refine (readField_meets (within _ (by simp)) entry).bind ?_
  rintro _ rfl
  refine named_meets contained small needed fun named => ?_
  refine (readField_meets (within _ (by simp)) entry).bind ?_
  rintro _ rfl
  refine Meets.returns ⟨?_, ?_⟩
  · rw [lastSymbol_append, collected.1]
  · intro j member
    rcases List.mem_append.mp member with old | new
    · exact collected.2 j old
    · rw [List.mem_singleton.mp new]
      exact named

theorem lt_of_part {before : List Nat} {i count : Nat}
    (part : before ++ [i] <+: List.range count) : i < count :=
  List.mem_range.mp (part.subset (List.mem_append_right _ (.head _)))

theorem entry_inside {base size entries i count : Nat}
    (contained : base + size ≤ count) (inside : i < size / entries) :
    base + i * entries + entries ≤ count := by
  have before := Nat.mul_le_mul_right entries (Nat.succ_le_of_lt inside)
  have all := Nat.div_mul_le_self size entries
  rw [Nat.succ_mul] at before
  omega

theorem readSymbols_meets (sound : Sound fmt file)
    (header : 0 + 64 ≤ file.length) :
    Meets (Refused fmt file)
      (fun symbols => symbols = symbolTable fmt file ∧ Sectioned fmt file)
      (readSymbols file fmt) := by
  have within := fmt.e_within
  have sections := fmt.sh_within
  unfold readSymbols
  refine (readField_meets (within _ (by simp)) header).bind ?_
  rintro _ rfl
  refine (readField_meets (within _ (by simp)) header).bind ?_
  rintro _ rfl
  rw [Nat.mod_eq_of_lt sound.shdrTable]
  refine (assertThat_meets fun formed => formed.shdrTable).bind
    fun _ table => ?_
  refine (readField_meets (within _ (by simp)) header).bind ?_
  rintro _ rfl
  refine (assertThat_meets fun formed => formed.strings).bind
    fun _ strings => ?_
  have strtab := shdrAt_inside table strings
  refine (readField_meets (sections _ (by simp)) strtab).bind ?_
  rintro _ rfl
  refine (readField_meets (sections _ (by simp)) strtab).bind ?_
  rintro _ rfl
  have namesNeeded : WellFormed fmt file → fmt.sum
      (fieldValue file (shdrAt fmt file (fieldValue file 0 fmt.eShstrndx))
        fmt.shOffset)
      (fieldValue file (shdrAt fmt file (fieldValue file 0 fmt.eShstrndx))
        fmt.shSize) ≤ file.length := fun formed => by
    rw [sum_eq (sound.sections _ strings)]
    exact formed.names
  refine (assertThat_meets namesNeeded).bind fun _ names => ?_
  rw [sum_eq (sound.sections _ strings)] at names
  have scan : Meets (Refused fmt file)
      (Scanned fmt file (List.range (fieldValue file 0 fmt.eShnum)))
      ((List.range (fieldValue file 0 fmt.eShnum)).foldlM
        (scanSection file fmt (fieldValue file 0 fmt.eShoff)
          (shdrAt fmt file (fieldValue file 0 fmt.eShstrndx))) (0, 0)) :=
    Meets.foldlM ⟨rfl, by simp⟩ fun _ _ _ part scanned =>
      scanSection_meets sound table strings names scanned (lt_of_part part)
  refine scan.bind ?_
  rintro _ ⟨rfl, fine⟩
  have sectionsOk : ∀ i, i < fieldValue file 0 fmt.eShnum →
      SectionOk fmt file i := fun i inside => fine i (List.mem_range.mpr inside)
  have found : ∀ text, sectionIndex fmt file text ≠ 0 →
      sectionIndex fmt file text < fieldValue file 0 fmt.eShnum ∧
        Contained fmt file (sectionIndex fmt file text) := by
    intro text some
    have last := lastTitled_mem some
    exact ⟨List.mem_range.mp last.1, (fine _ last.1).2 last.2.1⟩
  by_cases both : sectionIndex fmt file strtabName ≠ 0 ∧
    sectionIndex fmt file symtabName ≠ 0
  · have strFound := found _ both.1
    have symFound := found _ both.2
    have strHeader := shdrAt_inside table strFound.1
    have symHeader := shdrAt_inside table symFound.1
    refine (congrArg _ (if_pos both)).mpr ?_
    refine (readField_meets (sections _ (by simp)) symHeader).bind ?_
    rintro _ rfl
    have collect : Meets (Refused fmt file)
        (Collected fmt file
          (shdrAt fmt file (sectionIndex fmt file strtabName))
          (shdrAt fmt file (sectionIndex fmt file symtabName))
          (List.range (fieldValue file
            (shdrAt fmt file (sectionIndex fmt file symtabName)) fmt.shSize /
            fmt.symSize)))
        ((List.range (fieldValue file
            (shdrAt fmt file (sectionIndex fmt file symtabName)) fmt.shSize /
            fmt.symSize)).foldlM
          (scanSymbol file fmt
            (shdrAt fmt file (sectionIndex fmt file strtabName))
            (shdrAt fmt file (sectionIndex fmt file symtabName)))
          fun _ => none) :=
      Meets.foldlM ⟨rfl, by simp⟩ fun _ _ _ part collected =>
        scanSymbol_meets strHeader symHeader strFound.2
          (Nat.lt_of_le_of_lt (Nat.le_add_left _ _)
            (sound.sections _ strFound.1)) collected
          (entry_inside symFound.2 (lt_of_part part))
          fun formed => formed.symbols both.1 both.2 _ (lt_of_part part)
    refine collect.weaken ?_
    rintro _ ⟨rfl, spelled⟩
    refine ⟨?_, table, strings, names, sectionsOk, fun _ _ i inside =>
      spelled i (List.mem_range.mpr inside)⟩
    exact (if_pos both).symm
  · refine (congrArg _ (if_neg both)).mpr ?_
    refine Meets.returns ⟨?_, table, strings, names, sectionsOk,
      fun strFound symFound => absurd ⟨strFound, symFound⟩ both⟩
    exact (if_neg both).symm

end Reading

/-! ## Loading it -/

section Loading

variable {ω : Type} {config : HostConfig (Memory 32) ω} {fmt : ElfFormat}
  {file : List Byte}

theorem length_fileBytes {offset len : Nat}
    (inside : offset + len ≤ file.length) :
    (fileBytes file offset len).length = len := by
  rw [fileBytes, List.length_take, List.length_drop]
  omega

/-- An address of either class, as the memory of 32 bits sees it -/
theorem setWidth_addr (value : Nat) :
    (BitVec.ofNat 64 value).setWidth 32 = BitVec.ofNat 32 value := by
  apply BitVec.eq_of_toNat_eq
  rw [BitVec.toNat_setWidth, BitVec.toNat_ofNat, BitVec.toNat_ofNat,
    Nat.mod_mod_of_dvd _ (by decide)]

theorem setWidth_sum (x y : Nat) :
    (BitVec.ofNat 64 (fmt.sum x y)).setWidth 32 =
      BitVec.ofNat 32 x + BitVec.ofNat 32 y := by
  rw [setWidth_addr, ← BitVec.ofNat_add]
  apply BitVec.eq_of_toNat_eq
  rw [BitVec.toNat_ofNat, BitVec.toNat_ofNat, ElfFormat.sum,
    Nat.mod_mod_of_dvd _ (Nat.pow_dvd_pow 2 fmt.width_bounds.1)]

theorem copySegment_meets (bytes : InFrontOfBytes config)
    {offset paddr filesz : Nat} (fits : offset + filesz < 2 ^ fmt.width)
    (small : filesz < 2 ^ 32)
    (needed : WellFormed fmt file → filesz ≠ 0 →
      offset + filesz ≤ file.length)
    (state : HostState (Memory 32) ω) :
    Meets (Refused fmt file)
      (fun result => (filesz ≠ 0 → offset + filesz ≤ file.length) ∧
        result.2 = { state with
          memory := write state.memory (BitVec.ofNat 32 paddr)
            (fileBytes file offset filesz) })
      (copySegment config file fmt offset paddr filesz state) := by
  unfold copySegment
  by_cases empty : filesz = 0
  · subst empty
    exact Meets.returns ⟨fun some => absurd rfl some, rfl⟩
  · refine (congrArg _ (congrFun (if_pos empty) state)).mpr ?_
    rw [sum_eq fits]
    have stored := fun formed => needed formed empty
    refine Meets.bindLift (assertThat_meets stored) fun _ inside => ?_
    unfold writeFile
    have short : (fileBytes file offset filesz).length ≤ 2 ^ 32 := by
      rw [length_fileBytes inside]
      omega
    rw [if_pos inside, memWrite_bytes bytes _ short, setWidth_addr]
    exact Meets.returns ⟨fun _ => inside, rfl⟩

theorem padSegment_writes (bytes : InFrontOfBytes config)
    {paddr filesz memsz : Nat} (le : filesz ≤ memsz) (small : memsz < 2 ^ 32)
    (state : HostState (Memory 32) ω) :
    padSegment config fmt paddr filesz memsz state =
      .ok ((), { state with
        memory := write state.memory
          (BitVec.ofNat 32 paddr + BitVec.ofNat 32 filesz)
          (List.replicate (memsz - filesz) 0) }) := by
  have wide := Nat.pow_le_pow_right (by decide : 0 < 2) fmt.width_bounds.1
  unfold padSegment
  rw [difference_eq le (by omega)]
  refine (congrFun (if_neg (by omega)) state).trans ?_
  have short : (List.replicate (memsz - filesz) (0 : Byte)).length ≤
      2 ^ 32 := by
    rw [List.length_replicate]
    omega
  have written := memWrite_bytes bytes
    (BitVec.ofNat 64 (fmt.sum paddr filesz)) short state
  rw [setWidth_sum] at written
  exact written

/-- The bytes of the file and the zeros behind them are one write. -/
theorem write_image {phdr : Phdr} (memory : Memory 32)
    (stored : phdr.filesz ≠ 0 → phdr.offset + phdr.filesz ≤ file.length)
    (le : phdr.filesz ≤ phdr.memsz) (small : phdr.memsz < 2 ^ 32) :
    write (write memory (BitVec.ofNat 32 phdr.paddr)
        (fileBytes file phdr.offset phdr.filesz))
      (BitVec.ofNat 32 phdr.paddr + BitVec.ofNat 32 phdr.filesz)
      (List.replicate (phdr.memsz - phdr.filesz) 0) =
    write memory (BitVec.ofNat 32 phdr.paddr) (phdr.image file) := by
  have length : (fileBytes file phdr.offset phdr.filesz).length =
      phdr.filesz := by
    by_cases empty : phdr.filesz = 0
    · rw [empty]
      rfl
    · exact length_fileBytes (stored empty)
  rw [Phdr.image, write_append, length]
  rw [length, List.length_replicate]
  omega

/-- Memory with segments in it -/
def loaded (file : List Byte) (segments : List Phdr) (memory : Memory 32) :
    Memory 32 :=
  fun target => (lastByte file segments target).getD (memory target)

theorem loaded_append (segments : List Phdr) (phdr : Phdr)
    (memory : Memory 32) :
    loaded file (segments ++ [phdr]) memory =
      if phdr.Loaded then
        write (loaded file segments memory) (BitVec.ofNat 32 phdr.paddr)
          (phdr.image file)
      else loaded file segments memory := by
  unfold loaded lastByte
  by_cases some : phdr.Loaded
  · have single : [phdr].filter (·.Loaded) = [phdr] := by simp [some]
    rw [if_pos some, List.filter_append, single, List.reverse_append,
      List.reverse_singleton, List.singleton_append]
    funext target
    rw [List.findSome?_cons, write, Phdr.byteAt]
    cases (phdr.image file)[(target - BitVec.ofNat 32 phdr.paddr).toNat]? with
    | none => rfl
    | some byte => rfl
  · have none : [phdr].filter (·.Loaded) = [] := by simp [some]
    rw [if_neg some, List.filter_append, none, List.append_nil]

theorem loadSegment_meets (bytes : InFrontOfBytes config)
    (sound : Sound fmt file)
    (table : fieldValue file 0 fmt.ePhoff +
      fieldValue file 0 fmt.ePhnum * fmt.phdrSize ≤ file.length)
    {i : Nat} (inside : i < fieldValue file 0 fmt.ePhnum)
    (state : HostState (Memory 32) ω) :
    Meets (Refused fmt file)
      (fun result => (phdrAt fmt file i).Stored file ∧
        result.2 = if (phdrAt fmt file i).Loaded then
          { state with
            memory := write state.memory
              (BitVec.ofNat 32 (phdrAt fmt file i).paddr)
              ((phdrAt fmt file i).image file) }
          else state)
      (loadSegment config file fmt (fieldValue file 0 fmt.ePhoff) i state) := by
  have within := fmt.p_within
  have member : phdrAt fmt file i ∈ phdrs fmt file :=
    List.mem_map_of_mem (List.mem_range.mpr inside)
  have header : fieldValue file 0 fmt.ePhoff + i * fmt.phdrSize +
      fmt.phdrSize ≤ file.length := by
    have before := Nat.mul_le_mul_right fmt.phdrSize (Nat.succ_le_of_lt inside)
    rw [Nat.succ_mul] at before
    omega
  unfold loadSegment
  refine Meets.bindLift (readField_meets (within _ (by simp)) header) ?_
  rintro _ rfl
  refine Meets.bindLift (readField_meets (within _ (by simp)) header) ?_
  rintro _ rfl
  by_cases loaded : (phdrAt fmt file i).Loaded
  · rcases sound.segments _ member loaded with ⟨fits, le, small⟩
    refine (congrArg _ (congrFun (if_pos loaded) state)).mpr ?_
    refine Meets.bindLift (readField_meets (within _ (by simp)) header) ?_
    rintro _ rfl
    refine Meets.bindLift (readField_meets (within _ (by simp)) header) ?_
    rintro _ rfl
    refine Meets.bindLift (readField_meets (within _ (by simp)) header) ?_
    rintro _ rfl
    refine (copySegment_meets bytes fits (Nat.lt_of_le_of_lt le small)
      (fun formed => formed.segments _ member loaded) state).bindState ?_
    rintro ⟨_, _⟩ ⟨stored, rfl⟩
    refine (congrArg _ (padSegment_writes bytes le small _)).mpr ?_
    refine Meets.returns ⟨fun _ => stored, ?_⟩
    rw [if_pos loaded, ← write_image _ stored le small]
    rfl
  · refine (congrArg _ (congrFun (if_neg loaded) state)).mpr ?_
    refine Meets.returns ⟨fun some => absurd some loaded, ?_⟩
    exact (if_neg loaded).symm

/-- What the loop over the program headers knows after some of them -/
def Placed (fmt : ElfFormat) (file : List Byte)
    (first : HostState (Memory 32) ω) (items : List Nat)
    (state : HostState (Memory 32) ω) : Prop :=
  state = { first with
      memory := loaded file (items.map (phdrAt fmt file)) first.memory } ∧
    ∀ i ∈ items, (phdrAt fmt file i).Stored file

theorem loadSegments_meets (bytes : InFrontOfBytes config)
    (sound : Sound fmt file)
    (table : fieldValue file 0 fmt.ePhoff +
      fieldValue file 0 fmt.ePhnum * fmt.phdrSize ≤ file.length)
    (first : HostState (Memory 32) ω) :
    Meets (Refused fmt file)
      (fun result => Placed fmt file first
        (List.range (fieldValue file 0 fmt.ePhnum)) result.2)
      ((List.range (fieldValue file 0 fmt.ePhnum)).forM
        (loadSegment config file fmt (fieldValue file 0 fmt.ePhoff))
        first) := by
  refine Meets.forM ⟨rfl, by simp⟩ fun before i state part placed => ?_
  refine (loadSegment_meets bytes sound table (lt_of_part part)
    state).weaken ?_
  rintro ⟨_, _⟩ ⟨stored, rfl⟩
  rcases placed with ⟨rfl, earlier⟩
  refine ⟨?_, ?_⟩
  · rw [List.map_append, List.map_singleton, loaded_append]
    by_cases some : (phdrAt fmt file i).Loaded
    · rw [if_pos some, if_pos some]
    · rw [if_neg some, if_neg some]
  · intro j member
    rcases List.mem_append.mp member with old | new
    · exact earlier j old
    · rw [List.mem_singleton.mp new]
      exact stored

/-- What the loader returns, and the state it leaves -/
def Loads (fmt : ElfFormat) (file : List Byte)
    (state : HostState (Memory 32) ω)
    (result : (RegT × Symbols) × HostState (Memory 32) ω) : Prop :=
  result = ((BitVec.ofNat 64 (fieldValue file 0 fmt.eEntry),
      symbolTable fmt file),
    { state with memory := loaded file (phdrs fmt file) state.memory })

theorem loadElfAs_meets (bytes : InFrontOfBytes config)
    (sound : Sound fmt file) (identified : Identified file)
    (state : HostState (Memory 32) ω) :
    Meets (Refused fmt file)
      (fun result => Loads fmt file state result ∧ WellFormed fmt file)
      (loadElfAs config file fmt state) := by
  have within := fmt.e_within
  have header : 0 + 64 ≤ file.length := by
    rw [Nat.zero_add]
    exact identified.header
  unfold loadElfAs
  refine Meets.bindLift (readField_meets (within _ (by simp)) header) ?_
  rintro _ rfl
  refine Meets.bindLift (readField_meets (within _ (by simp)) header) ?_
  rintro _ rfl
  refine Meets.bindLift (readField_meets (within _ (by simp)) header) ?_
  rintro _ rfl
  rw [Nat.mod_eq_of_lt sound.phdrTable]
  refine Meets.bindLift (assertThat_meets fun formed => formed.phdrTable)
    fun _ table => ?_
  refine (loadSegments_meets bytes sound table state).bindState ?_
  rintro ⟨_, _⟩ ⟨rfl, stored⟩
  refine Meets.bindLift (readSymbols_meets sound header) ?_
  rintro _ ⟨rfl, sectioned⟩
  have segments : ∀ phdr ∈ phdrs fmt file, phdr.Stored file := by
    intro phdr member
    rcases List.mem_map.mp member with ⟨i, listed, rfl⟩
    exact stored i listed
  exact Meets.returns ⟨rfl, ⟨identified, sectioned, table, segments⟩⟩

/-- The structures of the class that a file says it is of -/
def formatOf (file : List Byte) : ElfFormat :=
  if ident file 4 = 1 then elf32 else elf64

theorem elfSwap_little (little : ident file 5 = 1) (field : Field) :
    elfSwap file field = fieldValue file 0 field := by
  rw [elfSwap, if_pos little, fieldValue, Nat.zero_add]

theorem loadElf_meets (bytes : InFrontOfBytes config)
    (sound : Sound (formatOf file) file) (state : HostState (Memory 32) ω) :
    Meets (Refused (formatOf file) file)
      (fun result => Loads (formatOf file) file state result ∧
        WellFormed (formatOf file) file)
      (loadElf config file state) := by
  unfold loadElf
  refine Meets.bindLift (assertThat_meets fun formed => formed.header)
    fun _ header => ?_
  refine Meets.bindLift (assertThat_meets fun formed =>
    ⟨formed.magic, formed.classes⟩) fun _ elf => ?_
  refine Meets.bindLift (assertThat_meets fun formed => .inl formed.little)
    fun _ _ => ?_
  have swapped : WellFormed (formatOf file) file → ∀ field,
      elfSwap file field = fieldValue file 0 field :=
    fun formed => elfSwap_little formed.little
  refine Meets.bindLift (assertThat_meets fun formed =>
    (swapped formed _).trans formed.executable) fun _ executable => ?_
  have machines : WellFormed (formatOf file) file →
      elfSwap file ⟨18, 2⟩ = 243 ∨ elfSwap file ⟨18, 2⟩ = 0 := by
    intro formed
    rw [swapped formed]
    exact formed.machine
  refine Meets.bindLift (assertThat_meets machines) fun _ machine => ?_
  refine Meets.bindLift (assertThat_meets fun formed =>
    (swapped formed _).trans formed.version) fun _ version => ?_
  by_cases little : ident file 5 = 1
  · rw [elfSwap_little little] at executable machine version
    have identified : Identified file :=
      ⟨header, elf.1, elf.2, little, executable, machine, version⟩
    refine (congrArg _ (congrFun (if_pos little) state)).mpr ?_
    have loads := loadElfAs_meets bytes sound identified state
    by_cases class32 : ident file 4 = 1
    · rw [formatOf, if_pos class32] at loads ⊢
      exact (congrArg _ (congrFun (if_pos class32) state)).mpr loads
    · rw [formatOf, if_neg class32] at loads ⊢
      exact (congrArg _ (congrFun (if_neg class32) state)).mpr loads
  · refine (congrArg _ (congrFun (if_neg little) state)).mpr ?_
    exact Meets.throws ⟨by rintro ⟨⟩, fun formed => little formed.little⟩

end Loading

/-- An ELF32 file with one segment of four bytes in eight, and one symbol,
`main`.  Section 1 is `.strtab`, and section 2 is `.symtab`. -/
def helloElf : List Byte :=
  -- the header
  [0x7f, 0x45, 0x4c, 0x46, 1, 1, 1] ++ List.replicate 9 0 ++
    [2, 0, 243, 0] ++ toBytes 4 1 ++ toBytes 4 0x80000000 ++ toBytes 4 52 ++
    toBytes 4 84 ++ List.replicate 8 0 ++ [1, 0, 40, 0, 3, 0, 1, 0] ++
  -- the program header
  toBytes 4 1 ++ toBytes 4 242 ++ toBytes 4 0 ++ toBytes 4 0x80000000 ++
    toBytes 4 4 ++ toBytes 4 8 ++ List.replicate 8 0 ++
  -- the section headers
  List.replicate 40 0 ++
  toBytes 4 1 ++ toBytes 4 3 ++ List.replicate 8 0 ++ toBytes 4 204 ++
    toBytes 4 22 ++ List.replicate 16 0 ++
  toBytes 4 9 ++ toBytes 4 2 ++ List.replicate 8 0 ++ toBytes 4 226 ++
    toBytes 4 16 ++ List.replicate 16 0 ++
  -- the strings
  [0] ++ strtabName ++ [0] ++ symtabName ++ [0] ++
    [0x6d, 0x61, 0x69, 0x6e, 0] ++
  -- the symbol
  toBytes 4 17 ++ toBytes 4 0x80000000 ++ List.replicate 8 0 ++
  -- the bytes of the segment
  [0x13, 0x05, 0x10, 0x00]

theorem helloElf_sound : Sound elf32 helloElf := by
  constructor <;> decide +kernel

theorem helloElf_wellFormed : WellFormed elf32 helloElf := by
  refine ⟨?_, ?_, ?_, ?_⟩
  · constructor <;> decide +kernel
  · constructor <;> decide +kernel
  · decide +kernel
  · decide +kernel

end Ria
