/-!
# Micro-operations

The records that travel through the pipeline: `fb_entry_t` from fetch to
decode, and `micro_op_t` from decode to retirement, with the enumerations
their fields range over.  Enumerators are listed in the order of their codes.

Both records carry one ghost field, `tag`, which no hardware signal backs.
It names the instruction instance a record was made from, is copied with the
record, and is never read by a next-state function.
-/

namespace Ria

/-- `prf_int_index_t` -/
abbrev PrfIndex := BitVec 6

/-- `arf_int_index_t` -/
abbrev ArfIndex := BitVec 5

/-- `rob_index_t` -/
abbrev RobIndex := BitVec 6

/-- The word width of registers, addresses and instructions. -/
abbrev Word := BitVec 32

/-! The lanes of a group, the ways of a bundle, the stages of the multiplier
and the slots of the memory queue are written as numerals. -/

instance neZeroThree : @NeZero Nat Zero.ofOfNat0 3 :=
  ⟨Nat.succ_ne_zero 2⟩

instance neZeroFour : @NeZero Nat Zero.ofOfNat0 4 :=
  ⟨Nat.succ_ne_zero 3⟩

instance neZeroFive : @NeZero Nat Zero.ofOfNat0 5 :=
  ⟨Nat.succ_ne_zero 4⟩

instance neZeroSix : @NeZero Nat Zero.ofOfNat0 6 :=
  ⟨Nat.succ_ne_zero 5⟩

instance neZeroSixteen : @NeZero Nat Zero.ofOfNat0 16 :=
  ⟨Nat.succ_ne_zero 15⟩

inductive IqCode where
  | x | int | mem | fp
  deriving DecidableEq

inductive FuCode where
  | x | alu | br | imul | idiv | mem | fpu | fmul | fdiv | csr
  deriving DecidableEq

inductive BrType where
  | x | eq | ne | lt | ge | ltu | geu | jal | jalr
  deriving DecidableEq

inductive AluType where
  | x | add | sub | slt | sltu | xor | or | and | sll | srl | sra
  deriving DecidableEq

inductive ImulType where
  | mul | mulh | mulhsu | mulhu
  deriving DecidableEq

inductive IdivType where
  | div | divu | rem | remu
  deriving DecidableEq

inductive FpType where
  | f | d | q
  deriving DecidableEq

inductive FpuType where
  | x | add | sub | sqrt | sgnj | sgnjn | sgnjx | min | max | cvtw | cvtwu
  | mvx | eq | lt | le | class_ | cvts | cvtsu | mvw | madd | msub | nmsub
  | nmadd
  deriving DecidableEq

inductive MemType where
  | ld | ldu | st
  deriving DecidableEq

inductive MemSize where
  | byte | half | word | dword
  deriving DecidableEq

inductive RsSource where
  | invalid | fromRf | fromImm | fromZero | fromPc | fromNpc
  deriving DecidableEq

/-- `fb_entry_t` -/
structure FbEntry where
  pc : Word
  inst : Word
  valid : Bool
  predTaken : Bool
  predAddr : Word
  tag : Nat

/-- `micro_op_t`.  The three `rs*_from_ctb` bits, which nothing writes or
reads, are left out. -/
structure MicroOp where
  pc : Word
  npc : Word
  inst : Word
  robIndex : RobIndex
  iqCode : IqCode
  fuCode : FuCode
  brType : BrType
  aluType : AluType
  imulType : ImulType
  idivType : IdivType
  fpType : FpType
  fpuType : FpuType
  rmType : BitVec 3
  memType : MemType
  memSize : MemSize
  brTaken : Bool
  brAddr : Word
  predTaken : Bool
  predAddr : Word
  imm : Word
  rs1Source : RsSource
  rs1ArfIntIndex : ArfIndex
  rs1PrfIntIndex : PrfIndex
  rs2Source : RsSource
  rs2ArfIntIndex : ArfIndex
  rs2PrfIntIndex : PrfIndex
  rs3Source : RsSource
  rs3ArfIntIndex : ArfIndex
  rs3PrfIntIndex : PrfIndex
  rdArfIntIndex : ArfIndex
  rdPrfIntIndex : PrfIndex
  rdPrfIntIndexPrev : PrfIndex
  rdPrfIntIndexPrevValid : Bool
  rdValid : Bool
  valid : Bool
  complete : Bool
  tag : Nat

/-- The all-zero record, written `0` in the source. -/
instance : Zero MicroOp where
  zero :=
    { pc := 0, npc := 0, inst := 0, robIndex := 0, iqCode := .x, fuCode := .x
      brType := .x, aluType := .x, imulType := .mul, idivType := .div
      fpType := .f, fpuType := .x, rmType := 0, memType := .ld
      memSize := .byte, brTaken := false, brAddr := 0, predTaken := false
      predAddr := 0, imm := 0, rs1Source := .invalid, rs1ArfIntIndex := 0
      rs1PrfIntIndex := 0, rs2Source := .invalid, rs2ArfIntIndex := 0
      rs2PrfIntIndex := 0, rs3Source := .invalid, rs3ArfIntIndex := 0
      rs3PrfIntIndex := 0, rdArfIntIndex := 0, rdPrfIntIndex := 0
      rdPrfIntIndexPrev := 0, rdPrfIntIndexPrevValid := false
      rdValid := false, valid := false, complete := false, tag := 0 }

instance : Zero FbEntry where
  zero :=
    { pc := 0, inst := 0, valid := false, predTaken := false, predAddr := 0
      tag := 0 }

instance : Inhabited MicroOp := ⟨0⟩

instance : Inhabited FbEntry := ⟨0⟩

end Ria
