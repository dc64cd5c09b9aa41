import Ria.Frontend.InstDecode

/-!
# Decoded uops

What holds of every branch of the `casez` holds of every uop that decode puts
out.  A lane without a valid entry, and a word that no item matches, give the
empty uop.
-/

namespace Ria

/-- A property of the families of branches is one of the whole table. -/
theorem forall_decodeTable (property : DecodeBranch → Prop)
    (upper : ∀ rs1Source, property (decodeUpper rs1Source))
    (jal : property decodeJal) (jalr : property decodeJalr)
    (branch : ∀ brType, property (decodeBranch brType))
    (load : ∀ memType memSize, property (decodeLoad memType memSize))
    (store : ∀ memSize, property (decodeStore memSize))
    (opImm : ∀ aluType, property (decodeOpImm aluType))
    (shiftImm : ∀ aluType, property (decodeShiftImm aluType))
    (op : ∀ aluType, property (decodeOp aluType))
    (fpMulAdd : ∀ fpuType, property (decodeFpMulAdd fpuType))
    (fpBinary : ∀ fuCode ∈ [FuCode.fpu, .fmul, .fdiv], ∀ fpuType,
      property (decodeFpBinary fuCode fpuType))
    (fpUnary : ∀ fpuType, property (decodeFpUnary fpuType))
    (system : property decodeSystem) :
    ∀ item ∈ decodeTableInt ++ decodeTableFp, property item.2 := by
  have fpu := fpBinary .fpu (by decide)
  have fmul := fpBinary .fmul (by decide)
  have fdiv := fpBinary .fdiv (by decide)
  simp only [decodeTableInt, decodeTableFp, List.cons_append, List.nil_append,
    List.forall_mem_cons, upper, jal, jalr, branch, load, store, opImm,
    shiftImm, op, fpMulAdd, fpu, fmul, fdiv, fpUnary, system, true_and,
    List.not_mem_nil, false_imp_iff, implies_true]

/-- What every branch does with the fields set before the `casez`. -/
structure DecodeBranch.Ordinary (branch : DecodeBranch) : Prop where
  valid : ∀ inst (uop : MicroOp), (branch inst uop).valid = uop.valid
  tag : ∀ inst (uop : MicroOp), (branch inst uop).tag = uop.tag
  fuCode : ∀ inst (uop : MicroOp), uop.fuCode = .x →
    (branch inst uop).fuCode ∉ [FuCode.imul, .idiv, .csr]

theorem DecodeBranch.Ordinary.of_code {branch : DecodeBranch}
    (code : FuCode) (listed : code ∉ [FuCode.imul, .idiv, .csr])
    (fields : ∀ inst (uop : MicroOp), (branch inst uop).valid = uop.valid ∧
      (branch inst uop).tag = uop.tag ∧ (branch inst uop).fuCode = code) :
    branch.Ordinary := by
  refine ⟨fun inst uop => (fields inst uop).1,
    fun inst uop => (fields inst uop).2.1, fun inst uop _ => ?_⟩
  rw [(fields inst uop).2.2]
  exact listed

theorem decodeTable_ordinary :
    ∀ item ∈ decodeTableInt ++ decodeTableFp, item.2.Ordinary := by
  refine forall_decodeTable DecodeBranch.Ordinary
    (fun _ => .of_code .alu (by decide) fun _ _ => ⟨rfl, rfl, rfl⟩)
    (.of_code .br (by decide) fun _ _ => ⟨rfl, rfl, rfl⟩)
    (.of_code .br (by decide) fun _ _ => ⟨rfl, rfl, rfl⟩)
    (fun _ => .of_code .br (by decide) fun _ _ => ⟨rfl, rfl, rfl⟩)
    (fun _ _ => .of_code .mem (by decide) fun _ _ => ⟨rfl, rfl, rfl⟩)
    (fun _ => .of_code .mem (by decide) fun _ _ => ⟨rfl, rfl, rfl⟩)
    (fun _ => .of_code .alu (by decide) fun _ _ => ⟨rfl, rfl, rfl⟩)
    (fun _ => .of_code .alu (by decide) fun _ _ => ⟨rfl, rfl, rfl⟩)
    (fun _ => .of_code .alu (by decide) fun _ _ => ⟨rfl, rfl, rfl⟩)
    (fun _ => .of_code .fpu (by decide) fun _ _ => ⟨rfl, rfl, rfl⟩)
    (fun fuCode listed _ => .of_code fuCode ?_ fun _ _ => ⟨rfl, rfl, rfl⟩)
    (fun _ => .of_code .fpu (by decide) fun _ _ => ⟨rfl, rfl, rfl⟩)
    ⟨fun _ _ => rfl, fun _ _ => rfl, fun _ uop unset => ?_⟩
  · revert fuCode
    decide
  · change uop.fuCode ∉ _
    rw [unset]
    decide

theorem MicroOp.dropZeroRd_eq (uop : MicroOp) :
    uop.dropZeroRd =
      { uop with rdValid := uop.rdValid && uop.rdArfIntIndex != 0 } := by
  unfold MicroOp.dropZeroRd
  by_cases zero : uop.rdArfIntIndex = 0
  · simp [zero]
  · have different : (uop.rdArfIntIndex != 0) = true := by simpa using zero
    rw [if_neg zero, different, Bool.and_true]

/-- Decode puts out the empty uop, or a valid one with the tag of its entry. -/
theorem decode_cases (fbEntry : FbEntry) (valid : Bool) :
    decode fbEntry valid = 0 ∨
      valid = true ∧ (decode fbEntry valid).tag = fbEntry.tag ∧
        (decode fbEntry valid).fuCode ∉ [FuCode.imul, .idiv, .csr] := by
  cases matched : (decodeTableInt ++ decodeTableFp).find?
      (fun item => item.1 fbEntry.inst) with
  | none =>
      left
      unfold decode decodeCasez
      rw [matched]
      rfl
  | some item =>
      have ordinary := decodeTable_ordinary item
        (List.mem_of_find?_eq_some matched)
      have fuCode := ordinary.fuCode fbEntry.inst (decodeBase fbEntry valid) rfl
      have decoded : decode fbEntry valid =
          if valid then (item.2 fbEntry.inst
            (decodeBase fbEntry valid)).dropZeroRd else 0 := by
        unfold decode decodeCasez
        rw [matched]
        simp only [MicroOp.dropZeroRd_eq, ordinary.valid]
        rfl
      rw [decoded]
      cases valid with
      | false => exact .inl rfl
      | true =>
          right
          rw [if_pos rfl, MicroOp.dropZeroRd_eq]
          exact ⟨rfl, ordinary.tag _ _, fuCode⟩

end Ria
