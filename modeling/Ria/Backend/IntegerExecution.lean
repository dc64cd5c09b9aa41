import Ria.Backend.ExecutionUnit
import Ria.Backend.PrfInt
import Ria.Frontend.EncodedInst

/-!
# Integer execution against RV32I

An integer instruction is decoded, its sources are renamed, its operands are
selected by `prf_int` and the pipe is clocked once.  The result is the value
of the ISA except where a set-less-than comparison holds: `alu` then spreads
the flag over the whole word.
-/

namespace Ria

open Hdl Rv32i

/-- What renaming writes into the source fields of a uop. -/
def MicroOp.renameSources (uop : MicroOp) (rs1 rs2 : PrfIndex) : MicroOp :=
  { uop with rs1PrfIntIndex := rs1, rs2PrfIntIndex := rs2 }

/-- The registers of `pipe_0_1` after the cycle in which way `way` selects
the operands of `uop` and hands it to the pipe. -/
def Pipe01.execute (rf : PrfIntData) (ports : RdPorts) (way : Fin 4)
    (uop : MicroOp) : Pipe01 :=
  Pipe01.next false false uop (prfIntRs1Data rf ports way uop)
    (prfIntRs2Data rf ports way uop)

section Pipe

variable (rf : PrfIntData) (ports : RdPorts) (way : Fin 4) {uop : MicroOp}

theorem prfIntRs1Data_fromRf (source : uop.rs1Source = .fromRf) :
    prfIntRs1Data rf ports way uop =
      rf.read ports way uop.rs1PrfIntIndex := by
  simp [prfIntRs1Data, prfIntSelect, prfIntIndex, source]

theorem prfIntRs2Data_fromRf (source : uop.rs2Source = .fromRf) :
    prfIntRs2Data rf ports way uop =
      rf.read ports way uop.rs2PrfIntIndex := by
  simp [prfIntRs2Data, prfIntSelect, prfIntIndex, source]

theorem prfIntRs2Data_fromImm (source : uop.rs2Source = .fromImm) :
    prfIntRs2Data rf ports way uop = uop.imm := by
  simp [prfIntRs2Data, prfIntSelect, source]

theorem execute_out_alu (unit : uop.fuCode = .alu) :
    (Pipe01.execute rf ports way uop).out =
      aluResult uop (prfIntRs1Data rf ports way uop)
        (prfIntRs2Data rf ports way uop) := by
  simp [Pipe01.execute, Pipe01.next, Pipe01.out, Pipe01.uopNext, unit,
    mask32_and]

theorem execute_uopOut_alu (unit : uop.fuCode = .alu) :
    (Pipe01.execute rf ports way uop).uopOut = uop := by
  simp [Pipe01.execute, Pipe01.next, Pipe01.uopNext, unit]

end Pipe

/-! ## The ALU as a selection -/

/-- The one function that `aluResult` lets through its masks. -/
def aluFunction (x y : Word) : AluType → Word
  | .x => 0
  | .add => x + y
  | .sub => x - y
  | .slt => mask32 (x.slt y)
  | .sltu => mask32 (x.ult y)
  | .xor => x ^^^ y
  | .or => x ||| y
  | .and => x &&& y
  | .sll => x <<< (y.extractLsb' 0 5).toNat
  | .srl => x >>> (y.extractLsb' 0 5).toNat
  | .sra => x.sshiftRight (y.extractLsb' 0 5).toNat

theorem aluResult_eq (uop : MicroOp) (x y : Word) :
    aluResult uop x y = aluFunction x y uop.aluType := by
  simp only [aluResult, mask32_and]
  cases uop.aluType <;> simp [aluFunction]

theorem mask32_eq_flag_iff (bit : Bool) :
    mask32 bit = flag bit ↔ bit = false := by
  cases bit <;> decide

/-- The ALU function of a register instruction is its ISA value unless it is
a set-less-than whose comparison holds. -/
theorem aluFunction_reg_iff (kind : RegOp) (rd rs1 rs2 : Reg) (x y : Word) :
    aluFunction x y (regAluType kind) = kind.value x y ↔
      (IntInstr.op kind rd rs1 rs2).setsLess x y = false := by
  cases kind <;>
    simp [regAluType, aluFunction, RegOp.value, IntInstr.setsLess,
      mask32_eq_flag_iff]

theorem aluFunction_imm_iff (kind : ImmOp) (rd rs1 : Reg) (imm : BitVec 12)
    (x y : Word) :
    aluFunction x (imm.signExtend 32) (immAluType kind) =
        kind.value x (imm.signExtend 32) ↔
      (IntInstr.opImm kind rd rs1 imm).setsLess x y = false := by
  cases kind <;>
    simp [immAluType, aluFunction, ImmOp.value, IntInstr.setsLess,
      mask32_eq_flag_iff]

theorem aluFunction_shift (kind : ShiftOp) (shamt : BitVec 5) (x : Word) :
    aluFunction x (0#27 ++ shamt) (shiftAluType kind) =
      kind.value x shamt := by
  have amount : (0#27 ++ shamt).extractLsb' 0 5 = shamt :=
    BitVec.extractLsb'_append_eq_right
  cases kind <;> simp only [shiftAluType, aluFunction, ShiftOp.value, amount]

/-! ## The agreement -/

/-- The uop of `instr` after decode and renaming. -/
def renamedInt (entry : FbEntry) (instr : IntInstr) (rs1 rs2 : PrfIndex) :
    MicroOp :=
  (decode (entry.withInst instr.encode) true).renameSources rs1 rs2

/-- Decode, operand selection and the pipe agree with the ISA on `instr`:
the value produced, the destination, whether it is written, and the
architectural source registers. -/
structure IntAgrees (entry : FbEntry) (instr : IntInstr) (rs1 rs2 : PrfIndex)
    (rf : PrfIntData) (ports : RdPorts) (way : Fin 4) : Prop where
  value : (Pipe01.execute rf ports way (renamedInt entry instr rs1 rs2)).out =
    instr.value entry.pc (rf.read ports way rs1) (rf.read ports way rs2)
  destination : (Pipe01.execute rf ports way
    (renamedInt entry instr rs1 rs2)).uopOut.rdArfIntIndex = instr.rd
  writes : (Pipe01.execute rf ports way
    (renamedInt entry instr rs1 rs2)).uopOut.rdValid = false ↔ instr.rd = 0
  source1 : ∀ reg, instr.rs1 = some reg →
    (renamedInt entry instr rs1 rs2).rs1Source = .fromRf ∧
      (renamedInt entry instr rs1 rs2).rs1ArfIntIndex = reg
  source2 : ∀ reg, instr.rs2 = some reg →
    (renamedInt entry instr rs1 rs2).rs2Source = .fromRf ∧
      (renamedInt entry instr rs1 rs2).rs2ArfIntIndex = reg

section Agreement

variable (entry : FbEntry) (instr : IntInstr) (rs1 rs2 : PrfIndex)
  (rf : PrfIntData) (ports : RdPorts) (way : Fin 4)

theorem renamedInt_eq :
    renamedInt entry instr rs1 rs2 =
      { intBranch instr instr.encode
          (decodeBase (entry.withInst instr.encode) true) with
        rdValid := instr.rd != 0
        rs1PrfIntIndex := rs1, rs2PrfIntIndex := rs2 } := by
  rw [renamedInt, decode_int, decodedInt, MicroOp.dropZeroRd_eq,
    MicroOp.renameSources, ← rv32RD_int]
  cases instr <;> rfl

theorem renamedInt_fuCode : (renamedInt entry instr rs1 rs2).fuCode = .alu := by
  rw [renamedInt_eq]
  cases instr <;> rfl

theorem renamedInt_out :
    (Pipe01.execute rf ports way (renamedInt entry instr rs1 rs2)).out =
      match instr with
      | .lui _ imm => imm ++ 0#12
      | .auipc _ imm => entry.pc + (imm ++ 0#12)
      | .opImm kind _ _ imm =>
          aluFunction (rf.read ports way rs1) (imm.signExtend 32)
            (immAluType kind)
      | .shiftImm kind _ _ shamt =>
          aluFunction (rf.read ports way rs1) (0#27 ++ shamt)
            (shiftAluType kind)
      | .op kind _ _ _ =>
          aluFunction (rf.read ports way rs1) (rf.read ports way rs2)
            (regAluType kind) := by
  rw [execute_out_alu rf ports way (renamedInt_fuCode entry instr rs1 rs2),
    aluResult_eq, renamedInt_eq]
  cases instr with
  | lui rd imm =>
      have immediate : rv32SignextUImm (IntInstr.lui rd imm).encode =
          imm ++ 0#12 := (fields_uType 0b0110111 rd imm).2.2
      rw [prfIntRs2Data_fromImm rf ports way rfl]
      simp [intBranch, decodeUpper, prfIntRs1Data, prfIntSelect, aluFunction,
        immediate]
  | auipc rd imm =>
      have immediate : rv32SignextUImm (IntInstr.auipc rd imm).encode =
          imm ++ 0#12 := (fields_uType 0b0010111 rd imm).2.2
      rw [prfIntRs2Data_fromImm rf ports way rfl]
      simp [intBranch, decodeUpper, prfIntRs1Data, prfIntSelect, aluFunction,
        immediate, decodeBase, FbEntry.withInst]
  | opImm kind rd reg imm =>
      have immediate :
          rv32SignextIImm (IntInstr.opImm kind rd reg imm).encode =
            imm.signExtend 32 :=
        rv32SignextIImm_iType 0b0010011 kind.funct3 reg rd imm
      rw [prfIntRs1Data_fromRf rf ports way rfl,
        prfIntRs2Data_fromImm rf ports way rfl]
      simp only [intBranch, decodeOpImm, immediate]
  | shiftImm kind rd reg shamt =>
      have immediate :
          rv32ShamtImm (IntInstr.shiftImm kind rd reg shamt).encode =
            0#27 ++ shamt :=
        rv32ShamtImm_rType kind.funct7 0b0010011 kind.funct3 reg shamt rd
      rw [prfIntRs1Data_fromRf rf ports way rfl,
        prfIntRs2Data_fromImm rf ports way rfl]
      simp only [intBranch, decodeShiftImm, immediate]
  | op kind rd reg1 reg2 =>
      rw [prfIntRs1Data_fromRf rf ports way rfl,
        prfIntRs2Data_fromRf rf ports way rfl]
      rfl

theorem value_iff :
    (Pipe01.execute rf ports way (renamedInt entry instr rs1 rs2)).out =
        instr.value entry.pc (rf.read ports way rs1)
          (rf.read ports way rs2) ↔
      instr.setsLess (rf.read ports way rs1) (rf.read ports way rs2) =
        false := by
  rw [renamedInt_out]
  cases instr with
  | lui rd imm => simp [IntInstr.value, IntInstr.setsLess]
  | auipc rd imm => simp [IntInstr.value, IntInstr.setsLess]
  | opImm kind rd reg imm => exact aluFunction_imm_iff kind rd reg imm _ _
  | shiftImm kind rd reg shamt =>
      simp [IntInstr.value, IntInstr.setsLess, aluFunction_shift]
  | op kind rd reg1 reg2 => exact aluFunction_reg_iff kind rd reg1 reg2 _ _

/-- The datapath agrees with RV32I exactly when the instruction is not a
set-less-than whose comparison holds. -/
theorem intAgrees_iff :
    IntAgrees entry instr rs1 rs2 rf ports way ↔
      instr.setsLess (rf.read ports way rs1) (rf.read ports way rs2) =
        false := by
  constructor
  · intro agrees
    exact (value_iff entry instr rs1 rs2 rf ports way).mp agrees.value
  · intro quiet
    have passed := execute_uopOut_alu rf ports way
      (renamedInt_fuCode entry instr rs1 rs2)
    refine ⟨?_, ?_, ?_, ?_, ?_⟩
    · exact (value_iff entry instr rs1 rs2 rf ports way).mpr quiet
    · rw [passed, renamedInt_eq, ← rv32RD_int]
      cases instr <;> rfl
    · rw [passed, renamedInt_eq]
      simp
    · intro reg source
      rw [renamedInt_eq, ← rv32RS1_int source]
      cases instr with
      | lui rd imm => cases source
      | auipc rd imm => cases source
      | _ => exact ⟨rfl, rfl⟩
    · intro reg source
      rw [renamedInt_eq, ← rv32RS2_int source]
      cases instr with
      | op kind rd reg1 reg2 => exact ⟨rfl, rfl⟩
      | _ => cases source

/-- `slt x1, x2, x3` on the values 0 and 1 leaves `0xffffffff` in `x1`. -/
theorem slt_spreads_flag :
    ¬ ∀ (entry : FbEntry) (instr : IntInstr) (rs1 rs2 : PrfIndex)
        (rf : PrfIntData) (ports : RdPorts) (way : Fin 4),
      IntAgrees entry instr rs1 rs2 rf ports way := by
  intro agrees
  have value := (agrees 0 (.op .slt 1 2 3) 2 3
    (fun _ index => if index = 3 then 1 else 0)
    ⟨fun _ => 0, fun _ => 0, fun _ => false⟩ 0).value
  revert value
  decide

end Agreement

end Ria
