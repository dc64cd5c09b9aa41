import Ria.Backend.Dispatch
import Ria.Backend.ExecutionUnit
import Ria.Backend.IssueQueueInt
import Ria.Frontend.DecodedUop
import Ria.Frontend.Rat

/-!
# Which decoded uops can execute

A uop leaves the reorder buffer only when it has been executed, and it is
executed only if `dispatch` sends it to one of the two issue queues of the core
and that queue hands it to a pipe.  Both look at the classes that decode chose.
-/

namespace Ria

open Hdl

/-- The integer queue picks the uop wherever it is the lowest one held and its
operands are ready. -/
def PickedInt (uop : MicroOp) : Prop :=
  ∀ (queue : IssueQueueInt) (busy : BusyPorts 32) (k : Fin 32),
    queue.slots k = uop → busy.rs1Busy k = false → busy.rs2Busy k = false →
    (∀ j < k, (queue.slots j).valid = false) →
    ∃ i, queue.outputSel busy i = some k

/-- The memory queue picks the uop once it is the oldest one held and its
operands are ready, and `pipe_3` takes it. -/
def PickedMem (uop : MicroOp) : Prop :=
  (∀ (queue : IssueQueueMem) (busy : BusyPorts 16),
    (queue.slots 0).uop = uop → (queue.slots 0).isNew = false →
    busy.rs1Busy 0 = false → busy.rs2Busy 0 = false →
    queue.outputSel busy = some 0) ∧
  Pipe3.inputValid uop = true

/-- In whatever group it arrives, dispatch puts the uop on an output that is
connected to an issue queue, and that queue can pick it for a pipe. -/
def MicroOp.Executes (uop : MicroOp) : Prop :=
  (∀ (group : Fin 4 → MicroOp) (lane : Fin 4), group lane = uop →
      ∃ i, uopToInt group i = uop) ∧ PickedInt uop ∨
    (∀ (group : Fin 4 → MicroOp) (lane : Fin 4), group lane = uop →
      ∃ i, uopToMem group i = uop) ∧ PickedMem uop

/-- The classes that the queues and the pipes of the core serve. -/
def MicroOp.Served (uop : MicroOp) : Prop :=
  uop.iqCode = .int ∧ uop.fuCode ∈ [FuCode.alu, .br, .imul, .idiv] ∨
    uop.iqCode = .mem ∧ uop.fuCode = .mem

instance (uop : MicroOp) : Decidable uop.Served :=
  inferInstanceAs (Decidable (_ ∧ _ ∨ _ ∧ _))

/-! ## Dispatch -/

section Dispatch

variable {code : IqCode} {group : Fin 4 → MicroOp} {uop : MicroOp}

theorem dispatchTo_of_code {lane : Fin 4} (here : group lane = uop)
    (valid : uop.valid = true) (queue : uop.iqCode = code) :
    ∃ i, dispatchTo code group i = uop := by
  have member : uop ∈ dispatched code group := by
    refine List.mem_filter.mpr ⟨mem_validUops.mpr ⟨lane, here, valid⟩, ?_⟩
    simpa using queue
  obtain ⟨i, inside, found⟩ := List.mem_iff_getElem.mp member
  have few := length_dispatched_le code group
  refine ⟨⟨i, by omega⟩, ?_⟩
  rw [dispatchTo_eq_packed, packed, List.getD_eq_getElem?_getD,
    List.getElem?_eq_getElem inside]
  exact found

theorem code_of_dispatchTo {i : Fin 4} (valid : uop.valid = true)
    (found : dispatchTo code group i = uop) : uop.iqCode = code := by
  unfold dispatchTo at found
  cases chosen : select (dispatchValid code group) i.val with
  | none =>
      rw [chosen] at found
      subst found
      cases valid
  | some lane =>
      rw [chosen] at found
      have ready := ready_of_select chosen
      simp only [dispatchValid, Bool.and_eq_true, beq_iff_eq] at ready
      rw [← found]
      exact ready.2

end Dispatch

/-! ## The queues -/

theorem lowest_of_first {width : Nat} {bits : Fin width → Bool}
    {k : Fin width} (set : bits k = true)
    (clear : ∀ j < k, bits j = false) : lowest bits = some k := by
  cases picked : lowest bits with
  | none =>
      rw [lowest_eq_none.mp picked k] at set
      cases set
  | some i =>
      obtain ⟨here, below⟩ := lowest_eq_some picked
      rcases lt_trichotomy i k with earlier | rfl | later
      · rw [clear i earlier] at here
        cases here
      · rfl
      · rw [below k later] at set
        cases set

section Queues

variable {uop : MicroOp}

theorem pickedInt_iff (valid : uop.valid = true) :
    PickedInt uop ↔ uop.fuCode ∈ [FuCode.alu, .br, .imul, .idiv] := by
  constructor
  · intro picked
    obtain ⟨i, chosen⟩ := picked ⟨fun _ => uop, 0⟩
      ⟨fun _ => false, fun _ => false⟩ 0 rfl rfl rfl
      (fun j below => absurd below (Nat.not_lt_zero _))
    match i with
    | 0 | 1 =>
        have ready := ready_of_select chosen
        simp only [IssueQueueInt.readyAluBr, Bool.and_eq_true,
          Bool.or_eq_true, beq_iff_eq] at ready
        rcases ready.2 with alu | br
        · simp [alu]
        · simp [br]
    | 2 =>
        have ready := ready_of_select chosen
        simp only [IssueQueueInt.readyImulIdiv, Bool.and_eq_true,
          Bool.or_eq_true, beq_iff_eq] at ready
        rcases ready.2 with imul | idiv
        · simp [imul]
        · simp [idiv]
  · intro code queue busy k held rs1 rs2 alone
    have ready : queue.ready busy k = true := by
      simp [IssueQueueInt.ready, rs1, rs2, held, valid]
    have others : ∀ j < k, queue.ready busy j = false := by
      intro j below
      simp [IssueQueueInt.ready, alone j below]
    simp only [List.mem_cons, List.not_mem_nil, or_false] at code
    rcases code with alu | br | imul | idiv
    · refine ⟨0, lowest_of_first ?_ ?_⟩
      · simp [readys, IssueQueueInt.readyAluBr, ready, held, alu]
      · intro j below
        simp [readys, IssueQueueInt.readyAluBr, others j below]
    · refine ⟨0, lowest_of_first ?_ ?_⟩
      · simp [readys, IssueQueueInt.readyAluBr, ready, held, br]
      · intro j below
        simp [readys, IssueQueueInt.readyAluBr, others j below]
    · refine ⟨2, lowest_of_first ?_ ?_⟩
      · simp [readys, IssueQueueInt.readyImulIdiv, ready, held, imul]
      · intro j below
        simp [readys, IssueQueueInt.readyImulIdiv, others j below]
    · refine ⟨2, lowest_of_first ?_ ?_⟩
      · simp [readys, IssueQueueInt.readyImulIdiv, ready, held, idiv]
      · intro j below
        simp [readys, IssueQueueInt.readyImulIdiv, others j below]

theorem storeMask_zero (isStore : Fin 16 → Bool) :
    storeMask isStore 0 = false := by
  unfold storeMask
  cases lowest isStore with
  | none => rfl
  | some first =>
      by_cases zero : first = 0
      · simp [zero]
      · simp [zero]

theorem pickedMem_iff (valid : uop.valid = true) :
    PickedMem uop ↔ uop.fuCode = .mem := by
  constructor
  · rintro ⟨-, taken⟩
    simpa [Pipe3.inputValid, valid] using taken
  · intro code
    refine ⟨?_, by simp [Pipe3.inputValid, valid, code]⟩
    intro queue busy held settled rs1 rs2
    refine lowest_of_first ?_ ?_
    · simp [readys, IssueQueueMem.ready, IssueSlotMem.ready, storeMask_zero,
        held, settled, rs1, rs2, valid]
    · intro j below
      exact absurd below (Nat.not_lt_zero _)

theorem executes_iff_served (valid : uop.valid = true) :
    uop.Executes ↔ uop.Served := by
  unfold MicroOp.Executes MicroOp.Served
  rw [pickedInt_iff valid, pickedMem_iff valid]
  constructor
  · rintro (⟨placed, code⟩ | ⟨placed, code⟩)
    · obtain ⟨i, found⟩ := placed (fun _ => uop) 0 rfl
      exact .inl ⟨code_of_dispatchTo valid found, code⟩
    · obtain ⟨i, found⟩ := placed (fun _ => uop) 0 rfl
      exact .inr ⟨code_of_dispatchTo valid found, code⟩
  · rintro (⟨queue, code⟩ | ⟨queue, code⟩)
    · exact .inl ⟨fun _ _ here => dispatchTo_of_code here valid queue, code⟩
    · exact .inr ⟨fun _ _ here => dispatchTo_of_code here valid queue, code⟩

end Queues

/-! ## The classes that decode chooses -/

/-- The major opcodes of the floating-point computations, FENCE and SYSTEM. -/
def unservedOpcodes : List (BitVec 7) :=
  [rv32OpFmadd, rv32OpFmsub, rv32OpFnmsub, rv32OpFnmadd, rv32OpFp, rv32OpFence,
    rv32OpSystem]

/-- What a `casez` item matches has one of the unserved opcodes exactly when
its branch chooses a class that is not served. -/
def Routed (item : Pattern × DecodeBranch) : Prop :=
  ∀ inst (uop : MicroOp), item.1 inst = true → uop.iqCode = .x →
    ((item.2 inst uop).Served ↔ rv32Opcode inst ∉ unservedOpcodes) ∧
      ((item.2 inst uop).iqCode ∈ [IqCode.int, .mem] ↔
        rv32Opcode inst ∉ unservedOpcodes)

/-- The pattern fixes the major opcode. -/
def Pattern.Fixes (pattern : Pattern) (op : BitVec 7) : Prop :=
  ∀ inst, pattern inst = true → rv32Opcode inst = op

section Items

variable {pattern : Pattern} {branch : DecodeBranch} {op : BitVec 7}

theorem fixes_rv32U (op : BitVec 7) : (rv32U op).Fixes op := by
  intro inst matched
  simpa [rv32U] using matched

theorem fixes_rv32I (op : BitVec 7) (funct3 : BitVec 3) :
    (rv32I op funct3).Fixes op := by
  intro inst matched
  simp only [rv32I, Bool.and_eq_true, beq_iff_eq] at matched
  exact matched.1

theorem fixes_rv32R (op : BitVec 7) (funct3 : BitVec 3) (funct7 : BitVec 7) :
    (rv32R op funct3 funct7).Fixes op := by
  intro inst matched
  simp only [rv32R, Bool.and_eq_true, beq_iff_eq] at matched
  exact matched.1.1

theorem fixes_rv32R4 (op : BitVec 7) (funct2 : BitVec 2) :
    (rv32R4 op funct2).Fixes op := by
  intro inst matched
  simp only [rv32R4, Bool.and_eq_true, beq_iff_eq] at matched
  exact matched.1

theorem fixes_rv32F (op : BitVec 7) (funct3 : Option (BitVec 3))
    (funct5 : Option (BitVec 5)) (funct7 : BitVec 7) :
    (rv32F op funct3 funct5 funct7).Fixes op := by
  intro inst matched
  simp only [rv32F, Bool.and_eq_true, beq_iff_eq] at matched
  exact matched.1.1.1

theorem fixes_word (word : Word) :
    Pattern.Fixes (fun inst => inst == word) (rv32Opcode word) := by
  intro inst matched
  rw [beq_iff_eq.mp matched]

theorem routed_served (fixes : pattern.Fixes op)
    (listed : op ∉ unservedOpcodes)
    (served : ∀ inst uop, (branch inst uop).Served) :
    Routed (pattern, branch) := by
  intro inst uop matched _
  have opcode := fixes inst matched
  have classes := served inst uop
  have queue : (branch inst uop).iqCode ∈ [IqCode.int, .mem] := by
    rcases classes with ⟨int, -⟩ | ⟨mem, -⟩
    · simp [int]
    · simp [mem]
  rw [opcode]
  exact ⟨iff_of_true classes listed, iff_of_true queue listed⟩

theorem routed_unserved (fixes : pattern.Fixes op)
    (listed : op ∈ unservedOpcodes)
    (queue : ∀ inst (uop : MicroOp), uop.iqCode = .x →
      (branch inst uop).iqCode ∉ [IqCode.int, .mem]) :
    Routed (pattern, branch) := by
  intro inst uop matched unset
  have opcode := fixes inst matched
  have outside := queue inst uop unset
  have unserved : ¬ (branch inst uop).Served := by
    rintro (⟨int, -⟩ | ⟨mem, -⟩)
    · exact outside (by simp [int])
    · exact outside (by simp [mem])
  rw [opcode]
  exact ⟨iff_of_false unserved (by simpa using listed),
    iff_of_false outside (by simpa using listed)⟩

end Items

section Families

variable (op : BitVec 7) (funct3 : BitVec 3) (funct7 : BitVec 7)

theorem routed_upper (rs1Source : RsSource) (listed : op ∉ unservedOpcodes) :
    Routed (rv32U op, decodeUpper rs1Source) :=
  routed_served (fixes_rv32U op) listed
    fun _ _ => .inl ⟨rfl, by simp [decodeUpper]⟩

theorem routed_jal (listed : op ∉ unservedOpcodes) :
    Routed (rv32U op, decodeJal) :=
  routed_served (fixes_rv32U op) listed
    fun _ _ => .inl ⟨rfl, by simp [decodeJal]⟩

theorem routed_jalr (listed : op ∉ unservedOpcodes) :
    Routed (rv32I op funct3, decodeJalr) :=
  routed_served (fixes_rv32I op funct3) listed
    fun _ _ => .inl ⟨rfl, by simp [decodeJalr]⟩

theorem routed_branch (brType : BrType) (listed : op ∉ unservedOpcodes) :
    Routed (rv32I op funct3, decodeBranch brType) :=
  routed_served (fixes_rv32I op funct3) listed
    fun _ _ => .inl ⟨rfl, by simp [decodeBranch]⟩

theorem routed_load (memType : MemType) (memSize : MemSize)
    (listed : op ∉ unservedOpcodes) :
    Routed (rv32I op funct3, decodeLoad memType memSize) :=
  routed_served (fixes_rv32I op funct3) listed fun _ _ => .inr ⟨rfl, rfl⟩

theorem routed_store (memSize : MemSize) (listed : op ∉ unservedOpcodes) :
    Routed (rv32I op funct3, decodeStore memSize) :=
  routed_served (fixes_rv32I op funct3) listed fun _ _ => .inr ⟨rfl, rfl⟩

theorem routed_opImm (aluType : AluType) (listed : op ∉ unservedOpcodes) :
    Routed (rv32I op funct3, decodeOpImm aluType) :=
  routed_served (fixes_rv32I op funct3) listed
    fun _ _ => .inl ⟨rfl, by simp [decodeOpImm]⟩

theorem routed_shiftImm (aluType : AluType) (listed : op ∉ unservedOpcodes) :
    Routed (rv32R op funct3 funct7, decodeShiftImm aluType) :=
  routed_served (fixes_rv32R op funct3 funct7) listed
    fun _ _ => .inl ⟨rfl, by simp [decodeShiftImm]⟩

theorem routed_op (aluType : AluType) (listed : op ∉ unservedOpcodes) :
    Routed (rv32R op funct3 funct7, decodeOp aluType) :=
  routed_served (fixes_rv32R op funct3 funct7) listed
    fun _ _ => .inl ⟨rfl, by simp [decodeOp]⟩

theorem routed_fpMulAdd (funct2 : BitVec 2) (fpuType : FpuType)
    (listed : op ∈ unservedOpcodes) :
    Routed (rv32R4 op funct2, decodeFpMulAdd fpuType) :=
  routed_unserved (fixes_rv32R4 op funct2) listed
    fun _ _ _ => by simp [decodeFpMulAdd]

theorem routed_fpBinary (rm : Option (BitVec 3)) (rs2 : Option (BitVec 5))
    (fuCode : FuCode) (fpuType : FpuType) (listed : op ∈ unservedOpcodes) :
    Routed (rv32F op rm rs2 funct7, decodeFpBinary fuCode fpuType) :=
  routed_unserved (fixes_rv32F op rm rs2 funct7) listed
    fun _ _ _ => by simp [decodeFpBinary]

theorem routed_fpUnary (rm : Option (BitVec 3)) (rs2 : Option (BitVec 5))
    (fpuType : FpuType) (listed : op ∈ unservedOpcodes) :
    Routed (rv32F op rm rs2 funct7, decodeFpUnary fpuType) :=
  routed_unserved (fixes_rv32F op rm rs2 funct7) listed
    fun _ _ _ => by simp [decodeFpUnary]

theorem routed_fence (listed : op ∈ unservedOpcodes) :
    Routed (rv32I op funct3, decodeSystem) :=
  routed_unserved (fixes_rv32I op funct3) listed
    fun _ _ unset => by simp [decodeSystem, unset]

theorem routed_system (word : Word)
    (listed : rv32Opcode word ∈ unservedOpcodes) :
    Routed (fun inst => inst == word, decodeSystem) :=
  routed_unserved (fixes_word word) listed
    fun _ _ unset => by simp [decodeSystem, unset]

end Families

theorem decodeTable_routed :
    ∀ item ∈ decodeTableInt ++ decodeTableFp, Routed item := by
  simp (disch := decide) only [decodeTableInt, decodeTableFp,
    List.cons_append, List.nil_append, List.forall_mem_cons, routed_upper,
    routed_jal, routed_jalr, routed_branch, routed_load, routed_store,
    routed_opImm, routed_shiftImm, routed_op, routed_fpMulAdd,
    routed_fpBinary, routed_fpUnary, routed_fence, routed_system, true_and,
    List.not_mem_nil, false_imp_iff, implies_true]

/-- The classes of a valid decoded uop are served exactly when its major
opcode is not one of the unserved ones, and otherwise no queue is chosen. -/
theorem decode_routed (fbEntry : FbEntry)
    (valid : (decode fbEntry true).valid = true) :
    ((decode fbEntry true).Served ↔
        rv32Opcode fbEntry.inst ∉ unservedOpcodes) ∧
      ((decode fbEntry true).iqCode ∈ [IqCode.int, .mem] ↔
        rv32Opcode fbEntry.inst ∉ unservedOpcodes) := by
  cases found : (decodeTableInt ++ decodeTableFp).find?
      (fun item => item.1 fbEntry.inst) with
  | none =>
      have dropped : decode fbEntry true = 0 := by
        unfold decode decodeCasez
        rw [found]
        rfl
      rw [dropped] at valid
      cases valid
  | some item =>
      have member := List.mem_of_find?_eq_some found
      have matched := List.find?_some found
      have routed := decodeTable_routed item member fbEntry.inst
        (decodeBase fbEntry true) matched rfl
      have kept := (decodeTable_ordinary item member).valid fbEntry.inst
        (decodeBase fbEntry true)
      have decoded : decode fbEntry true =
          (item.2 fbEntry.inst (decodeBase fbEntry true)).dropZeroRd := by
        unfold decode decodeCasez
        rw [found]
        simp only [MicroOp.dropZeroRd_eq, kept]
        rfl
      rw [decoded, MicroOp.dropZeroRd_eq]
      exact routed

/-! ## Execution -/

/-- A decoded uop as rename and the reorder buffer hand it to dispatch. -/
def MicroOp.dispatchedAs (uop : MicroOp) (renamed : Renamed)
    (robIndex : RobIndex) : MicroOp :=
  { uop.withRenamed renamed with robIndex := robIndex }

section Renamed

variable (uop : MicroOp) (renamed : Renamed) (robIndex : RobIndex)

@[simp] theorem dispatchedAs_valid :
    (uop.dispatchedAs renamed robIndex).valid = uop.valid := rfl

@[simp] theorem dispatchedAs_iqCode :
    (uop.dispatchedAs renamed robIndex).iqCode = uop.iqCode := rfl

theorem dispatchedAs_served :
    (uop.dispatchedAs renamed robIndex).Served ↔ uop.Served := Iff.rfl

end Renamed

/-- A valid decoded uop can execute exactly when its major opcode is none of
OP-FP, FMADD, FMSUB, FNMSUB, FNMADD, FENCE and SYSTEM; if it is one of them,
dispatch never puts the uop out to an issue queue. -/
theorem decoded_executes_iff (fbEntry : FbEntry) (renamed : Renamed)
    (robIndex : RobIndex) (valid : (decode fbEntry true).valid = true) :
    (((decode fbEntry true).dispatchedAs renamed robIndex).Executes ↔
        rv32Opcode fbEntry.inst ∉ unservedOpcodes) ∧
      (rv32Opcode fbEntry.inst ∈ unservedOpcodes → ∀ group i,
        uopToInt group i ≠
            (decode fbEntry true).dispatchedAs renamed robIndex ∧
          uopToMem group i ≠
            (decode fbEntry true).dispatchedAs renamed robIndex) := by
  obtain ⟨served, queue⟩ := decode_routed fbEntry valid
  have held : ((decode fbEntry true).dispatchedAs renamed robIndex).valid =
      true := by rwa [dispatchedAs_valid]
  constructor
  · rw [executes_iff_served held, dispatchedAs_served]
    exact served
  · intro listed group i
    have outside : ¬ (decode fbEntry true).iqCode ∈ [IqCode.int, .mem] :=
      fun inside => queue.mp inside listed
    constructor
    · intro placed
      have code := code_of_dispatchTo held placed
      rw [dispatchedAs_iqCode] at code
      exact outside (by simp [code])
    · intro placed
      have code := code_of_dispatchTo held placed
      rw [dispatchedAs_iqCode] at code
      exact outside (by simp [code])

theorem addi_executes :
    ((decode { (0 : FbEntry) with inst := 0x00310093 } true).dispatchedAs
      ⟨1, 2, 3, 4, true⟩ 5).Executes :=
  (decoded_executes_iff { (0 : FbEntry) with inst := 0x00310093 }
    ⟨1, 2, 3, 4, true⟩ 5 (by decide)).1.mpr (by decide)

/-- `fence` is decoded to a valid uop that no queue receives. -/
theorem fence_never_executes :
    ¬ ∀ fbEntry : FbEntry, (decode fbEntry true).valid = true →
      (decode fbEntry true).Executes := by
  intro executes
  have valid : (decode { (0 : FbEntry) with inst := 0x0000000F } true).valid =
      true := by decide
  have served := (executes_iff_served valid).mp (executes _ valid)
  revert served
  decide

end Ria
