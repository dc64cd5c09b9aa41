import Ria.Library.Latest
import Mathlib.Logic.Function.Basic

/-!
# Register machines and dataflow

A register machine executes a list of instructions one after the other:
`target` is the register that an instruction writes, and `result` what it
writes, a function of its number and of the registers before it.  If every
instruction is given a result that depends on the results of the last writers
of its registers only, these are the results of that execution, whatever the
order in which they were found.
-/

namespace Hdl.RegisterMachine

universe u v w

variable {ι : Type u} {κ : Type v} {ν : Type w} [DecidableEq κ]

section Dataflow

variable (target : ι → Option κ) (items : List ι)

/-- The instruction with the given number writes the register. -/
def writes (register : κ) (number : Nat) : Bool :=
  (items[number]?.bind target) == some register

/-- The last instruction before a given one that writes the register -/
def producer (number : Nat) (register : κ) : Option Nat :=
  latest (writes target items register) number

/-- The registers as the results of their last writers -/
def source (initial : κ → ν) (value : Nat → ν) (number : Nat) : κ → ν :=
  fun register =>
    match producer target items number register with
    | some writer => value writer
    | none => initial register

end Dataflow

section Execution

variable (target : ι → Option κ) (result : Nat → ι → (κ → ν) → ν)
  (initial : κ → ν) (items : List ι)

/-- One instruction -/
def step (number : Nat) (item : ι) (registers : κ → ν) : κ → ν :=
  match target item with
  | some register =>
      Function.update registers register (result number item registers)
  | none => registers

/-- The registers before the instruction with the given number -/
def before : Nat → κ → ν
  | 0 => initial
  | number + 1 =>
      match items[number]? with
      | some item => step target result number item (before number)
      | none => before number

end Execution

variable {target : ι → Option κ} {result : Nat → ι → (κ → ν) → ν}
  {initial : κ → ν} {items others : List ι} {number : Nat} {register : κ}

theorem writes_iff :
    writes target items register number = true ↔
      ∃ item, items[number]? = some item ∧ target item = some register := by
  rw [writes, beq_iff_eq, Option.bind_eq_some_iff]

theorem producer_eq_some {writer : Nat} :
    producer target items number register = some writer ↔
      writer < number ∧ writes target items register writer = true ∧
        ∀ later, writer < later → later < number →
          writes target items register later = false :=
  latest_eq_some

theorem producer_congr
    (same : ∀ earlier < number, items[earlier]? = others[earlier]?) :
    producer target items number register =
      producer target others number register := by
  refine latest_congr fun earlier below => ?_
  rw [writes, writes, same earlier below]

theorem source_succ (value : Nat → ν) (number : Nat) :
    source target items initial value (number + 1) =
      match items[number]?.bind target with
      | some register =>
          Function.update (source target items initial value number)
            register (value number)
      | none => source target items initial value number := by
  funext register
  unfold source producer
  rw [latest, writes]
  cases items[number]?.bind target with
  | none => rfl
  | some written =>
      by_cases same : written = register
      · subst same
        simp
      · have other : (some written == some register) = false := by
          simpa using same
        rw [other]
        simp only [Function.update_of_ne (Ne.symm same)]
        rfl

/-- Results that obey the dataflow are those of the execution in order. -/
theorem source_eq_before {value : Nat → ν} {count : Nat}
    (obeys : ∀ number item register, number < count →
      items[number]? = some item → target item = some register →
      value number =
        result number item (source target items initial value number)) :
    ∀ number ≤ count, source target items initial value number =
      before target result initial items number := by
  intro number
  induction number with
  | zero => exact fun _ => rfl
  | succ number induction =>
      intro within
      have earlier := induction (Nat.le_of_succ_le within)
      rw [source_succ, before]
      cases found : items[number]? with
      | none => exact earlier
      | some item =>
          simp only [Option.bind_some, step]
          cases written : target item with
          | none => exact earlier
          | some register =>
              have obeyed := obeys number item register within found written
              simp only
              rw [obeyed, earlier]

theorem before_congr
    (same : ∀ earlier < number, items[earlier]? = others[earlier]?) :
    before target result initial items number =
      before target result initial others number := by
  induction number with
  | zero => rfl
  | succ number induction =>
      have rest := induction fun earlier below =>
        same earlier (Nat.lt_succ_of_lt below)
      rw [before, before, same number (Nat.lt_succ_self number), rest]

/-- What an instruction does not depend on does not matter. -/
theorem before_map (change : ι → ι)
    (sameTarget : ∀ item, target (change item) = target item)
    (sameResult : ∀ number item,
      result number (change item) = result number item) (number : Nat) :
    before target result initial (items.map change) number =
      before target result initial items number := by
  induction number with
  | zero => rfl
  | succ number induction =>
      rw [before, before, List.getElem?_map]
      cases items[number]? with
      | none => exact induction
      | some item =>
          simp only [Option.map_some, step, sameTarget, sameResult, induction]

end Hdl.RegisterMachine
