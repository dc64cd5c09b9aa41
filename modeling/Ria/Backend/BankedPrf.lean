import Ria.Backend.PrfInt

/-!
# The banked register file as a single one

The storage keeps a copy of the register file a way and forwards the writes
of the cycle to its reads.  `SingleFile` is the one file it stands for: a
write is seen by the reads of its own cycle, and register 0 stays zero.
-/

namespace Ria

open Hdl

/-- The inputs of one cycle of `prf_int_data` that reach the storage. -/
structure PrfCycle where
  reset : Bool
  ports : RdPorts

namespace PrfIntData

/-- The banks after the given cycles. -/
def after (rf : PrfIntData) (cycles : List PrfCycle) : PrfIntData :=
  cycles.foldl (fun rf cycle => rf.next cycle.reset cycle.ports) rf

end PrfIntData

/-- One register file that all ways share. -/
abbrev SingleFile := PrfIndex → Word

namespace SingleFile

/-- The write of way `i`. -/
def write (file : SingleFile) (ports : RdPorts) (i : Fin 4) : SingleFile :=
  if ports.rdEn i ∧ ports.rdIndex i ≠ 0 then
    Function.update file (ports.rdIndex i) (ports.rdData i)
  else file

/-- All writes of a cycle, in the order of the ways. -/
def writes (file : SingleFile) (ports : RdPorts) : SingleFile :=
  forEach 4 (fun i file => file.write ports i) file

def next (file : SingleFile) (cycle : PrfCycle) : SingleFile :=
  if cycle.reset then fun _ => 0 else file.writes cycle.ports

def after (file : SingleFile) (cycles : List PrfCycle) : SingleFile :=
  cycles.foldl next file

variable {ports : RdPorts} {index : PrfIndex}

theorem write_apply (file : SingleFile) (ports : RdPorts) (index : PrfIndex)
    (i : Fin 4) :
    file.write ports i index =
      if ports.rdEn i ∧ ports.rdIndex i = index ∧ index ≠ 0 then
        ports.rdData i
      else file index := by
  unfold write
  by_cases same : ports.rdIndex i = index
  · subst same
    by_cases acts : ports.rdEn i = true ∧ ports.rdIndex i ≠ 0
    · rw [if_pos acts, if_pos ⟨acts.1, rfl, acts.2⟩, Function.update_self]
    · have still : ¬ (ports.rdEn i = true ∧
          ports.rdIndex i = ports.rdIndex i ∧ ports.rdIndex i ≠ 0) :=
        fun writes => acts ⟨writes.1, writes.2.2⟩
      rw [if_neg acts, if_neg still]
  · have misses : ¬ (ports.rdEn i = true ∧ ports.rdIndex i = index ∧
        index ≠ 0) := fun writes => same writes.2.1
    rw [if_neg misses]
    by_cases acts : ports.rdEn i = true ∧ ports.rdIndex i ≠ 0
    · rw [if_pos acts, Function.update_of_ne (Ne.symm same)]
    · rw [if_neg acts]

theorem writes_apply (file : SingleFile) (ports : RdPorts)
    (index : PrfIndex) :
    file.writes ports index =
      forEach 4
        (fun i data =>
          if ports.rdEn i ∧ ports.rdIndex i = index ∧ index ≠ 0 then
            ports.rdData i
          else data)
        (file index) := by
  apply forEach_map (fun file : SingleFile => file index)
  intro i file
  exact write_apply file ports index i

theorem writes_zero (file : SingleFile) (ports : RdPorts) :
    file.writes ports 0 = file 0 := by
  rw [writes_apply]
  apply forEach_frame id
  intro i data
  exact if_neg fun writes => writes.2.2 rfl

/-- Among the ways that write one register in a cycle the last one wins. -/
theorem writes_last (file : SingleFile) (nonzero : index ≠ 0) {i : Fin 4}
    (wins : ports.Writes i index)
    (last : ∀ j, i < j → ¬ ports.Writes j index) :
    file.writes ports index = ports.rdData i := by
  rw [writes_apply]
  apply forEach_last
  · intro data
    exact if_pos ⟨wins.1, wins.2, nonzero⟩
  · intro j later data
    exact if_neg fun writes => last j later ⟨writes.1, writes.2.1⟩

end SingleFile

namespace PrfIntData

/-- All banks hold `file`, and register 0 is zero. -/
structure Holds (rf : PrfIntData) (file : SingleFile) : Prop where
  bank : ∀ way, rf way = file
  zero : file 0 = 0

variable {rf : PrfIntData} {file : SingleFile}

theorem next_bank (rf : PrfIntData) (ports : RdPorts) (way : Fin 4) :
    rf.next false ports way = SingleFile.writes (rf way) ports := by
  unfold PrfIntData.next
  rw [if_neg Bool.false_ne_true]
  apply forEach_map (fun rf : PrfIntData => rf way)
  intro i rf
  unfold SingleFile.write
  by_cases acts : ports.rdEn i = true ∧ ports.rdIndex i ≠ 0
  · rw [if_pos acts, if_pos acts]
  · rw [if_neg acts, if_neg acts]

/-- The bypass gives a read the value after the writes of the cycle. -/
theorem Holds.read (holds : rf.Holds file) (ports : RdPorts) (way : Fin 4)
    (index : PrfIndex) :
    rf.read ports way index = file.writes ports index := by
  have stored : (if index ≠ 0 then rf way index else 0) = file index := by
    rw [holds.bank way]
    by_cases zero : index = 0
    · rw [if_neg (not_not_intro zero), zero, holds.zero]
    · exact if_pos zero
  rw [SingleFile.writes_apply]
  unfold PrfIntData.read
  rw [stored]

theorem Holds.next (holds : rf.Holds file) (cycle : PrfCycle) :
    (rf.next cycle.reset cycle.ports).Holds (file.next cycle) := by
  cases resets : cycle.reset with
  | true =>
      constructor
      · intro way
        rw [SingleFile.next, resets]
        rfl
      · rw [SingleFile.next, resets]
        rfl
  | false =>
      have written : file.next cycle = file.writes cycle.ports := by
        rw [SingleFile.next, resets]
        rfl
      constructor
      · intro way
        rw [next_bank, holds.bank way, written]
      · rw [written, SingleFile.writes_zero, holds.zero]

theorem Holds.after (holds : rf.Holds file) (cycles : List PrfCycle) :
    (rf.after cycles).Holds (file.after cycles) := by
  induction cycles generalizing rf file with
  | nil => exact holds
  | cons cycle rest induction => exact induction (holds.next cycle)

theorem holds_reset (rf : PrfIntData) (ports : RdPorts) :
    (rf.next true ports).Holds (fun _ => 0) := by
  constructor
  · intro way
    rfl
  · rfl

/-- After a reset cycle and any further cycles all banks hold the contents of
one file that saw the same cycles, entry 0 is zero, and a read of any way
gives what its register holds once the writes of the cycle are done, in the
file and in every bank; the last way that writes the register decides it. -/
theorem banks_are_one_file (initial : PrfIntData) (atReset : RdPorts)
    (cycles : List PrfCycle) :
    let rf := (initial.next true atReset).after cycles
    let file := SingleFile.after (fun _ => 0) cycles
    (∀ way, rf way = file) ∧ (∀ way, rf way 0 = 0) ∧
      ∀ (ports : RdPorts) (way : Fin 4) (index : PrfIndex),
        rf.read ports way index = file.writes ports index ∧
        (∀ bank, rf.next false ports bank index =
          rf.read ports way index) ∧
        ∀ i, index ≠ 0 → ports.Writes i index →
          (∀ j, i < j → ¬ ports.Writes j index) →
          rf.read ports way index = ports.rdData i := by
  intro rf file
  have holds : rf.Holds file := (holds_reset initial atReset).after cycles
  refine ⟨holds.bank, ?_, ?_⟩
  · intro way
    rw [holds.bank way, holds.zero]
  · intro ports way index
    have reads := holds.read ports way index
    refine ⟨reads, ?_, ?_⟩
    · intro bank
      rw [next_bank, holds.bank bank, reads]
    · intro i nonzero wins last
      rw [reads, SingleFile.writes_last file nonzero wins last]

end PrfIntData

end Ria
