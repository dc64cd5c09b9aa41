import Ria.Common.MicroOp
import Ria.Library.Loop
import Mathlib.Logic.Function.Basic

/-!
# Physical register file

`PrfIntData` is the four-bank storage with its write-to-read bypass, and
`prfIntRs1Data`/`prfIntRs2Data` the operand-source selection around it.
Way `i` reads bank `i`; every write goes to all banks.
-/

namespace Ria

open Hdl

/-- `rf` of `prf_int_data`: one copy of the register file a way. -/
abbrev PrfIntData := Fin 4 → PrfIndex → Word

/-- The write ports `rd_index`, `rd_data` and `rd_en`. -/
structure RdPorts where
  rdIndex : Fin 4 → PrfIndex
  rdData : Fin 4 → Word
  rdEn : Fin 4 → Bool

namespace PrfIntData

/-- One read port of way `way`: the bank, overridden by every matching write
of the cycle, the last way winning. -/
def read (rf : PrfIntData) (ports : RdPorts) (way : Fin 4)
    (index : PrfIndex) : Word :=
  forEach 4
    (fun j data =>
      if ports.rdEn j ∧ ports.rdIndex j = index ∧ index ≠ 0 then
        ports.rdData j
      else data)
    (if index ≠ 0 then rf way index else 0)

def next (rf : PrfIntData) (reset : Bool) (ports : RdPorts) : PrfIntData :=
  if reset then fun _ _ => 0
  else
    forEach 4
      (fun i rf =>
        if ports.rdEn i ∧ ports.rdIndex i ≠ 0 then
          fun j => Function.update (rf j) (ports.rdIndex i) (ports.rdData i)
        else rf)
      rf

end PrfIntData

/-- Way `i` writes the register `prf`. -/
def RdPorts.Writes (ports : RdPorts) (i : Fin 4) (prf : PrfIndex) : Prop :=
  ports.rdEn i = true ∧ ports.rdIndex i = prf

instance (ports : RdPorts) (prf : PrfIndex) :
    DecidablePred fun i => ports.Writes i prf :=
  fun i => inferInstanceAs (Decidable (ports.rdEn i = true ∧ _))

namespace PrfIntData

variable {rf : PrfIntData} {ports : RdPorts} {prf : PrfIndex}

theorem read_of_idle (way : Fin 4) (idle : ∀ j, ¬ ports.Writes j prf) :
    rf.read ports way prf = if prf ≠ 0 then rf way prf else 0 := by
  refine forEach_frame id _ ?_
  intro j data
  exact if_neg fun ⟨enabled, same, _⟩ => idle j ⟨enabled, same⟩

@[simp] theorem read_zero (rf : PrfIntData) (ports : RdPorts)
    (way : Fin 4) : rf.read ports way 0 = 0 := by
  refine forEach_frame id _ ?_
  intro j data
  exact if_neg fun ⟨_, _, nonzero⟩ => nonzero rfl

theorem next_of_idle (way : Fin 4) (idle : ∀ j, ¬ ports.Writes j prf) :
    rf.next false ports way prf = rf way prf := by
  refine forEach_frame (fun rf : PrfIntData => rf way prf) _ ?_
  intro j rf
  by_cases writes : ports.rdEn j = true ∧ ports.rdIndex j ≠ 0
  · have other : prf ≠ ports.rdIndex j := fun same =>
      idle j ⟨writes.1, same.symm⟩
    simp only [if_pos writes, Function.update_of_ne other]
  · simp only [if_neg writes]

theorem next_zero (rf : PrfIntData) (ports : RdPorts)
    (way : Fin 4) : rf.next false ports way 0 = rf way 0 := by
  refine forEach_frame (fun rf : PrfIntData => rf way 0) _ ?_
  intro j rf
  by_cases writes : ports.rdEn j = true ∧ ports.rdIndex j ≠ 0
  · simp only [if_pos writes, Function.update_of_ne (Ne.symm writes.2)]
  · simp only [if_neg writes]

theorem next_of_write (way : Fin 4) (nonzero : prf ≠ 0) {data : Word}
    (agree : ∀ j, ports.Writes j prf → ports.rdData j = data) {i : Fin 4}
    (writes : ports.Writes i prf) :
    rf.next false ports way prf = data := by
  unfold PrfIntData.next
  rw [if_neg Bool.false_ne_true]
  refine forEach_cell (fun rf : PrfIntData => rf way prf)
    (fun j => ports.Writes j prf) _ ?_ ?_ writes
  · rintro j ⟨enabled, same⟩ rf
    have acts : ports.rdEn j = true ∧ ports.rdIndex j ≠ 0 :=
      ⟨enabled, by rw [same]; exact nonzero⟩
    simp only [if_pos acts]
    rw [same, Function.update_self]
    exact agree j ⟨enabled, same⟩
  · intro j idle rf
    by_cases acts : ports.rdEn j = true ∧ ports.rdIndex j ≠ 0
    · have other : prf ≠ ports.rdIndex j := fun same =>
        idle ⟨acts.1, same.symm⟩
      simp only [if_pos acts, Function.update_of_ne other]
    · simp only [if_neg acts]

end PrfIntData

/-- The index selection of `prf_int` for one operand. -/
def prfIntIndex (source : RsSource) (prfIndex : PrfIndex) : PrfIndex :=
  match source with
  | .fromRf => prfIndex
  | _ => 0

/-- The output selection of `prf_int` for one operand. -/
def prfIntSelect (source : RsSource) (data imm pc npc : Word) : Word :=
  match source with
  | .invalid => 0
  | .fromRf => data
  | .fromImm => imm
  | .fromZero => 0
  | .fromPc => pc
  | .fromNpc => npc

/-- `rs1_data` of way `way`, which holds `uop`. -/
def prfIntRs1Data (rf : PrfIntData) (ports : RdPorts) (way : Fin 4)
    (uop : MicroOp) : Word :=
  prfIntSelect uop.rs1Source
    (rf.read ports way (prfIntIndex uop.rs1Source uop.rs1PrfIntIndex))
    uop.imm uop.pc uop.npc

/-- `rs2_data` of way `way`, which holds `uop`. -/
def prfIntRs2Data (rf : PrfIntData) (ports : RdPorts) (way : Fin 4)
    (uop : MicroOp) : Word :=
  prfIntSelect uop.rs2Source
    (rf.read ports way (prfIntIndex uop.rs2Source uop.rs2PrfIntIndex))
    uop.imm uop.pc uop.npc

end Ria
