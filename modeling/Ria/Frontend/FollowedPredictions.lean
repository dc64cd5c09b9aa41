import Ria.Frontend.DecodedUop
import Ria.Frontend.FrontEnd
import Ria.Frontend.InstFetch
import Ria.Frontend.PredictedLane

/-!
# Predictions that fetch follows

Fetch asks the branch predictor about every word with the major opcode of a
branch or a jump.  The decoder also looks at `funct3`, and a word that none of
its items matches becomes the empty uop, whose prediction nobody compares.
-/

namespace Ria

open Hdl

/-! ## The lane predicted taken -/

namespace InstFetch

variable {fetch : InstFetch} {input : InstFetchInput} {lane : Fin 4}

theorem isBranch_of_predicted
    (predicted : (fetch.prediction input).predictions lane = true) :
    fetch.instsOutValid input = true ∧
      rv32Opcode (inst input lane) ∈ [rv32OpBranch, rv32OpJalr, rv32OpJal] := by
  have branch : fetch.isBranch input lane = true :=
    (BranchPred.comb_predicted predicted).stops.1.2.1
  simp only [isBranch, Bool.and_eq_true, Bool.or_eq_true, beq_iff_eq] at branch
  exact ⟨branch.1.1, by simpa [or_assoc] using branch.2⟩

theorem laneValid_of_predicted
    (predicted : (fetch.prediction input).predictions lane = true) :
    fetch.laneValid input lane.val = true := by
  have delivered := (isBranch_of_predicted predicted).1
  have alone := (BranchPred.comb_predicted predicted).alone
  have others : ∀ other : Fin 4, other.val < lane.val →
      (fetch.prediction input).predictions other = false := by
    intro other before
    have different : other ≠ lane := fun eq => Nat.lt_irrefl _ (eq ▸ before)
    exact (congrFun alone other).trans (Function.update_of_ne different _ _)
  suffices ∀ count ≤ lane.val, fetch.laneValid input count = true from
    this lane.val (Nat.le_refl _)
  intro count within
  induction count with
  | zero => exact delivered
  | succ count induction =>
      have inside : count < 4 := by omega
      rw [laneValid, delivered, induction (by omega), dif_pos inside,
        others ⟨count, inside⟩ within]
      rfl

end InstFetch

/-! ## What the decoder makes of such a word -/

/-- A word with the major opcode of a branch or jump that no item of the
`casez` matches. -/
def Undecoded (inst : Word) : Prop :=
  (rv32Opcode inst = rv32OpBranch ∧
      (rv32Funct3 inst = 0b010 ∨ rv32Funct3 inst = 0b011)) ∨
    (rv32Opcode inst = rv32OpJalr ∧ rv32Funct3 inst ≠ 0b000)

instance (inst : Word) : Decidable (Undecoded inst) :=
  inferInstanceAs (Decidable (_ ∨ _))

/-- The uop is valid and of branch type: its prediction is compared. -/
def MicroOp.Compared (uop : MicroOp) : Prop :=
  uop.valid = true ∧ uop.brType ≠ .x

instance (uop : MicroOp) : Decidable uop.Compared :=
  inferInstanceAs (Decidable (_ ∧ _))

section Decoded

variable {inst : Word}

theorem other_word {word : Word} (other : rv32Opcode inst ≠ rv32Opcode word) :
    (inst == word) = false :=
  beq_eq_false_iff_ne.mpr fun same => other (congrArg rv32Opcode same)

/-- The major opcodes of the items that are no branches or jumps. -/
def plainOpcodes : List (BitVec 7) :=
  [rv32OpLui, rv32OpAuipc, rv32OpLoad, rv32OpStore, rv32OpImm, rv32Op,
    rv32OpFence, rv32OpSystem, rv32OpLoadFp, rv32OpStoreFp, rv32OpFmadd,
    rv32OpFmsub, rv32OpFnmsub, rv32OpFnmadd, rv32OpFp]

/-- `funct3` of the items that are branches. -/
def branchFunct3s : List (BitVec 3) :=
  [0b000, 0b001, 0b100, 0b101, 0b110, 0b111]

theorem find_undecoded (undecoded : Undecoded inst) :
    (decodeTableInt ++ decodeTableFp).find? (fun item => item.1 inst) =
      none := by
  have plain : ∀ op ∈ plainOpcodes, (rv32Opcode inst == op) = false := by
    rcases undecoded with ⟨opcode, -⟩ | ⟨opcode, -⟩
    · rw [opcode]
      decide
    · rw [opcode]
      decide
  have jal : (rv32Opcode inst == rv32OpJal) = false := by
    rcases undecoded with ⟨opcode, -⟩ | ⟨opcode, -⟩
    · rw [opcode]
      decide
    · rw [opcode]
      decide
  have jalr : (rv32Opcode inst == rv32OpJalr && rv32Funct3 inst == 0b000) =
      false := by
    rcases undecoded with ⟨opcode, -⟩ | ⟨-, funct3⟩
    · rw [opcode]
      rfl
    · rw [beq_eq_false_iff_ne.mpr funct3, Bool.and_false]
  have branch : ∀ funct3 ∈ branchFunct3s, (rv32Opcode inst == rv32OpBranch &&
      rv32Funct3 inst == funct3) = false := by
    rcases undecoded with ⟨opcode, funct3 | funct3⟩ | ⟨opcode, -⟩
    · rw [opcode, funct3]
      decide
    · rw [opcode, funct3]
      decide
    · rw [opcode]
      exact fun _ _ => rfl
  have system : rv32Opcode inst ≠ rv32OpSystem :=
    beq_eq_false_iff_ne.mp (plain _ (by decide))
  have ecall : (inst == 0#25 ++ rv32OpSystem) = false := other_word system
  have ebreak : (inst == 0#11 ++ 1#1 ++ 0#13 ++ rv32OpSystem) = false :=
    other_word system
  simp only [plainOpcodes, List.forall_mem_cons] at plain
  simp only [branchFunct3s, List.forall_mem_cons] at branch
  rw [List.find?_eq_none]
  simp only [decodeTableInt, decodeTableFp, List.cons_append, List.nil_append,
    List.forall_mem_cons, rv32U, rv32I, rv32R, rv32R4, rv32F, plain, jal, jalr,
    branch, ecall, ebreak, Bool.false_and, Bool.false_eq_true,
    not_false_eq_true, true_and, List.not_mem_nil, false_imp_iff, implies_true]

theorem decode_undecoded {fbEntry : FbEntry}
    (undecoded : Undecoded fbEntry.inst) (valid : Bool) :
    decode fbEntry valid = 0 := by
  unfold decode decodeCasez
  rw [find_undecoded undecoded]
  rfl

/-- The other words of these major opcodes get a branch type. -/
theorem brType_decodeCasez
    (opcode : rv32Opcode inst ∈ [rv32OpBranch, rv32OpJalr, rv32OpJal])
    (decoded : ¬ Undecoded inst) (uop : MicroOp) :
    (decodeCasez inst uop).brType ≠ .x ∧
      (decodeCasez inst uop).valid = uop.valid := by
  simp only [List.mem_cons, List.not_mem_nil, or_false] at opcode
  rcases opcode with branch | jalr | jal
  · have listed : ∀ funct3 : BitVec 3,
        ¬ (funct3 = 0b010 ∨ funct3 = 0b011) → funct3 ∈ branchFunct3s := by
      decide
    have member := listed (rv32Funct3 inst)
      fun skipped => decoded (.inl ⟨branch, skipped⟩)
    simp only [branchFunct3s, List.mem_cons, List.not_mem_nil, or_false]
      at member
    rcases member with funct3 | funct3 | funct3 | funct3 | funct3 | funct3 <;>
      simp [decodeCasez, decodeTableInt, decodeBranch, rv32U, rv32I, branch,
        funct3, rv32OpLui, rv32OpAuipc, rv32OpJal, rv32OpJalr, rv32OpBranch]
  · have funct3 : rv32Funct3 inst = 0b000 := by
      by_contra other
      exact decoded (.inr ⟨jalr, other⟩)
    simp [decodeCasez, decodeTableInt, decodeJalr, rv32U, rv32I, jalr, funct3,
      rv32OpLui, rv32OpAuipc, rv32OpJal, rv32OpJalr]
  · simp [decodeCasez, decodeTableInt, decodeJal, rv32U, jal, rv32OpLui,
      rv32OpAuipc, rv32OpJal]

theorem decode_compared_iff {fbEntry : FbEntry}
    (opcode : rv32Opcode fbEntry.inst ∈ [rv32OpBranch, rv32OpJalr, rv32OpJal]) :
    (decode fbEntry true).Compared ↔ ¬ Undecoded fbEntry.inst := by
  constructor
  · rintro ⟨valid, -⟩ undecoded
    rw [decode_undecoded undecoded] at valid
    cases valid
  · intro decoded
    obtain ⟨branch, valid⟩ :=
      brType_decodeCasez opcode decoded (decodeBase fbEntry true)
    have kept : (decodeCasez fbEntry.inst
        (decodeBase fbEntry true)).valid = true := valid
    have passed : decode fbEntry true = (decodeCasez fbEntry.inst
        (decodeBase fbEntry true)).dropZeroRd := by
      unfold decode
      simp only [MicroOp.dropZeroRd_eq, kept]
      rfl
    rw [passed, MicroOp.dropZeroRd_eq]
    exact ⟨kept, branch⟩

end Decoded

/-! ## Followed and compared -/

namespace InstFetch

section Lane

variable (fetch : InstFetch) (input : InstFetchInput) (first : Nat)
  (lane : Fin 4)

/-- What decode makes of a lane, valid as the IF~ID register passes it on. -/
def decodedLane : MicroOp :=
  decode (fetch.instsOut input first lane)
    (fetch.instsOutValid input && (fetch.instsOut input first lane).valid)

end Lane

/-- A lane that is predicted taken has its prediction compared exactly if the
decoder knows its word. -/
theorem predicted_compared_iff (fetch : InstFetch) (input : InstFetchInput)
    (first : Nat) (lane : Fin 4)
    (predicted : (fetch.instsOut input first lane).predTaken = true) :
    (fetch.decodedLane input first lane).Compared ↔
      ¬ Undecoded (inst input lane) := by
  have taken : (fetch.prediction input).predictions lane = true := predicted
  have valid : fetch.laneValid input lane.val = true :=
    laneValid_of_predicted taken
  obtain ⟨delivered, opcode⟩ := isBranch_of_predicted taken
  have passed : (fetch.instsOutValid input &&
      (fetch.instsOut input first lane).valid) = true := by
    rw [delivered]
    exact valid
  rw [decodedLane, passed]
  exact decode_compared_iff opcode

/-- The predictor after a taken branch at 0x1000 has retired, and a fetch that
reaches 0x1200 in lane 1. -/
def wrappedFetch : InstFetch :=
  { pc := 0x11fc
    brPred := BranchPred.resetState.next false 0x1010 (fun _ => false)
      (fun _ => true) fun lane =>
        if lane = 0 then
          { (0 : MicroOp) with
            pc := 0x1000, valid := true, brType := .eq, brTaken := true
            brAddr := 0x2000 }
        else 0 }

/-- Lane 1 holds the word 0x00002063, with the major opcode of a branch. -/
def wrappedInput : InstFetchInput :=
  { reset := false, stall := false, isValid := fun _ => true
    uopRetire := fun _ => 0
    icacheData := 0x00000013#32 ++ 0x00000013#32 ++ 0x00002063#32 ++
      0x00000013#32
    icacheDataValid := true }

theorem predicted_compared_iff_wrapped :
    (wrappedFetch.decodedLane wrappedInput 0 1).Compared ↔
      ¬ Undecoded (inst wrappedInput 1) :=
  predicted_compared_iff wrappedFetch wrappedInput 0 1 (by decide +kernel)

/-- Lane 1 is predicted taken and decodes to the empty uop. -/
theorem predicted_not_compared :
    ¬ ∀ (fetch : InstFetch) (input : InstFetchInput) (first : Nat)
        (lane : Fin 4),
      (fetch.instsOut input first lane).predTaken = true →
        (fetch.decodedLane input first lane).Compared := by
  intro comparesEach
  have compared := comparesEach wrappedFetch wrappedInput 0 1 (by decide +kernel)
  have empty : wrappedFetch.decodedLane wrappedInput 0 1 = 0 := by
    unfold decodedLane
    exact decode_undecoded (by decide +kernel) _
  rw [empty] at compared
  cases compared.1

end InstFetch

end Ria
