import Ria.Backend.PrfInt
import Ria.Common.Bundle
import Ria.Library.Latest
import Mathlib.Data.List.GetD

/-!
# Operands in program order

The uops given to the back end, in the order in which they were dispatched,
with the value each has written back and whether it was squashed.
-/

namespace Ria

open Hdl

/-- The uop writes the physical register `prf`. -/
def MicroOp.writesPrf (uop : MicroOp) (prf : PrfIndex) : Bool :=
  uop.valid && uop.rdValid && uop.rdPrfIntIndex == prf

theorem MicroOp.writesPrf_iff {uop : MicroOp} {prf : PrfIndex} :
    uop.writesPrf prf = true ↔
      uop.valid = true ∧ uop.rdValid = true ∧ uop.rdPrfIntIndex = prf := by
  rw [writesPrf, Bool.and_eq_true, Bool.and_eq_true, beq_iff_eq, and_assoc]

structure OperandLog where
  uops : List MicroOp
  value : Nat → Option Word
  squashed : Nat → Bool

namespace OperandLog

def empty : OperandLog :=
  { uops := [], value := fun _ => none, squashed := fun _ => false }

def count (log : OperandLog) : Nat := log.uops.length

def uop (log : OperandLog) (number : Nat) : MicroOp :=
  log.uops.getD number 0

def writes (log : OperandLog) (prf : PrfIndex) (number : Nat) : Bool :=
  (log.uop number).writesPrf prf

/-- The value that the uop with the given number has to find in `prf`: the
one written by the last uop before it, squashed ones aside. -/
def expected (log : OperandLog) (number : Nat) (prf : PrfIndex) :
    Option Word :=
  if prf = 0 then some 0
  else
    match latest (fun n => log.writes prf n && !log.squashed n) number with
    | some producer => log.value producer
    | none => some 0

/-- The uop is to write `prf` and has not done so. -/
structure Pending (log : OperandLog) (number : Nat) (prf : PrfIndex) :
    Prop where
  writes : log.writes prf number = true
  unwritten : log.value number = none
  kept : log.squashed number = false

/-- Record what the four ways write back. -/
def writeBack (log : OperandLog) (uops : Fin 4 → MicroOp)
    (data : Fin 4 → Word) : OperandLog :=
  { log with
    value := forEach 4
      (fun i value =>
        if (uops i).valid then
          Function.update value (uops i).tag (some (data i))
        else value)
      log.value }

/-- Append a group, invalid lanes included. -/
def dispatch (log : OperandLog) (group : Fin 4 → MicroOp) : OperandLog :=
  { log with uops := log.uops ++ List.ofFn group }

/-- Mark every uop from the given number on. -/
def squash (log : OperandLog) (first : Nat) : OperandLog :=
  { log with
    squashed := fun number => log.squashed number ||
      decide (first ≤ number ∧ number < log.count) }

variable {log : OperandLog} {prf : PrfIndex} {number : Nat}

theorem uop_of_le (beyond : log.count ≤ number) : log.uop number = 0 :=
  List.getD_eq_default _ _ beyond

theorem lt_of_valid (valid : (log.uop number).valid = true) :
    number < log.count := by
  by_contra beyond
  rw [uop_of_le (by omega)] at valid
  cases valid

theorem lt_of_writes (writes : log.writes prf number = true) :
    number < log.count :=
  lt_of_valid (MicroOp.writesPrf_iff.mp writes).1

section Dispatch

variable {group : Fin 4 → MicroOp}

theorem count_dispatch : (log.dispatch group).count = log.count + 4 := by
  simp [dispatch, count]

theorem uop_dispatch_old (old : number < log.count) :
    (log.dispatch group).uop number = log.uop number :=
  List.getD_append _ _ _ _ old

theorem uop_dispatch_new (i : Fin 4) :
    (log.dispatch group).uop (log.count + i.val) = group i := by
  change (log.uops ++ List.ofFn group).getD (log.uops.length + i.val) 0 = _
  rw [List.getD_append_right _ _ _ _ (Nat.le_add_right _ _),
    Nat.add_sub_cancel_left, List.getD_eq_getElem _ _ (by simp),
    List.getElem_ofFn]

theorem lane_of_lt (within : number < (log.dispatch group).count) :
    number < log.count ∨ ∃ i : Fin 4, number = log.count + i.val := by
  rw [count_dispatch] at within
  by_cases old : number < log.count
  · exact .inl old
  · refine .inr ⟨⟨number - log.count, by omega⟩, ?_⟩
    simp only
    omega

theorem dispatch_cases (valid : ((log.dispatch group).uop number).valid =
    true) :
    number < log.count ∨ ∃ i : Fin 4, number = log.count + i.val :=
  lane_of_lt (lt_of_valid valid)

theorem writes_dispatch_cases
    (writes : (log.dispatch group).writes prf number = true) :
    number < log.count ∧ log.writes prf number = true ∨
      ∃ i : Fin 4, number = log.count + i.val ∧
        (group i).writesPrf prf = true := by
  rcases dispatch_cases (MicroOp.writesPrf_iff.mp writes).1 with
    old | ⟨i, rfl⟩
  · refine .inl ⟨old, ?_⟩
    rwa [OperandLog.writes, uop_dispatch_old old] at writes
  · refine .inr ⟨i, rfl, ?_⟩
    rwa [OperandLog.writes, uop_dispatch_new] at writes

theorem writes_dispatch_old (old : number < log.count) :
    (log.dispatch group).writes prf number = log.writes prf number := by
  rw [writes, uop_dispatch_old old, writes]

theorem latest_dispatch (old : number ≤ log.count) :
    latest ((log.dispatch group).writes prf) number =
      latest (log.writes prf) number :=
  latest_congr fun _ below => writes_dispatch_old (by omega)

theorem expected_dispatch (old : number ≤ log.count) :
    (log.dispatch group).expected number prf = log.expected number prf := by
  have same : latest (fun n => (log.dispatch group).writes prf n &&
      !(log.dispatch group).squashed n) number =
        latest (fun n => log.writes prf n && !log.squashed n) number := by
    refine latest_congr fun n below => ?_
    rw [writes_dispatch_old (by omega)]
    rfl
  rw [expected, expected, same]
  rfl

end Dispatch

section WriteBack

variable {uops : Fin 4 → MicroOp} {data : Fin 4 → Word}

/-- No two valid lanes hold the same uop. -/
def Apart (uops : Fin 4 → MicroOp) : Prop :=
  ∀ i j, (uops i).valid = true → (uops j).valid = true →
    (uops i).tag = (uops j).tag → i = j

theorem value_writeBack_of_idle
    (idle : ∀ i, (uops i).valid = true → (uops i).tag ≠ number) :
    (log.writeBack uops data).value number = log.value number := by
  refine forEach_frame (fun value : Nat → Option Word => value number) _ ?_
  intro i value
  by_cases valid : (uops i).valid = true
  · simp only [if_pos valid, Function.update_of_ne (idle i valid).symm]
  · simp only [if_neg valid]

theorem value_writeBack (apart : Apart uops) {i : Fin 4}
    (valid : (uops i).valid = true) :
    (log.writeBack uops data).value (uops i).tag = some (data i) := by
  simp only [writeBack]
  refine forEach_cell
    (fun value : Nat → Option Word => value (uops i).tag)
    (fun j => (uops j).valid = true ∧ (uops j).tag = (uops i).tag) _ ?_ ?_
    ⟨valid, rfl⟩
  · rintro j ⟨other, same⟩ value
    obtain rfl := apart j i other valid same
    simp only [if_pos other, Function.update_self]
  · intro j idle value
    by_cases other : (uops j).valid = true
    · have different : (uops i).tag ≠ (uops j).tag := fun same =>
        idle ⟨other, same.symm⟩
      simp only [if_pos other, Function.update_of_ne different]
    · simp only [if_neg other]

theorem idle_of_unwritten (apart : Apart uops)
    (unwritten : (log.writeBack uops data).value number = none) (i : Fin 4)
    (valid : (uops i).valid = true) : (uops i).tag ≠ number := by
  rintro rfl
  rw [value_writeBack apart valid] at unwritten
  cases unwritten

theorem pending_of_writeBack (apart : Apart uops)
    (pending : (log.writeBack uops data).Pending number prf) :
    log.Pending number prf := by
  have idle := idle_of_unwritten apart pending.unwritten
  refine ⟨pending.writes, ?_, pending.kept⟩
  rw [← value_writeBack_of_idle idle]
  exact pending.unwritten

end WriteBack

/-! ## What the register file holds -/

def written (log : OperandLog) (prf : PrfIndex) (number : Nat) : Bool :=
  log.writes prf number && (log.value number).isSome

/-- The value last written to `prf`. -/
def content (log : OperandLog) (prf : PrfIndex) : Word :=
  match latest (log.written prf) log.count with
  | some producer => (log.value producer).getD 0
  | none => 0

theorem content_of_last {producer : Nat} {data : Word}
    (writes : log.writes prf producer = true)
    (value : log.value producer = some data)
    (last : ∀ later, producer < later → log.writes prf later = false) :
    log.content prf = data := by
  have found : latest (log.written prf) log.count = some producer := by
    refine latest_eq_some.mpr ⟨lt_of_writes writes, ?_, ?_⟩
    · rw [written, writes, value]
      rfl
    · intro later above _
      rw [written, last later above, Bool.false_and]
  rw [content, found]
  simp only [value, Option.getD_some]

theorem content_congr {other : OperandLog} (count : other.count = log.count)
    (writes : ∀ number, other.writes prf number = log.writes prf number)
    (value : ∀ number, log.writes prf number = true →
      other.value number = log.value number) :
    other.content prf = log.content prf := by
  have same : other.written prf = log.written prf := by
    funext number
    rw [written, written, writes]
    cases here : log.writes prf number with
    | false => rfl
    | true => rw [value number here]
  rw [content, content, same, count]
  cases found : latest (log.written prf) log.count with
  | none => rfl
  | some producer =>
      have set := (latest_eq_some.mp found).2.1
      have here := (Bool.and_eq_true_iff.mp set).1
      simp only [value producer here]

theorem content_dispatch {group : Fin 4 → MicroOp}
    (fresh : ∀ number, log.count ≤ number → log.value number = none) :
    (log.dispatch group).content prf = log.content prf := by
  have silent : latest ((log.dispatch group).written prf)
      (log.dispatch group).count =
        latest ((log.dispatch group).written prf) log.count := by
    refine latest_of_silent (by rw [count_dispatch]; omega) ?_
    intro number above _
    have none : (log.dispatch group).value number = none :=
      fresh number above
    rw [written, none, Option.isSome_none, Bool.and_false]
  have same : latest ((log.dispatch group).written prf) log.count =
      latest (log.written prf) log.count := by
    refine latest_congr fun number below => ?_
    rw [written, written, writes_dispatch_old below]
    rfl
  rw [content, content, silent, same]
  rfl

theorem expected_isSome
    (producer : prf ≠ 0 → ∀ n, latest (log.writes prf) number = some n →
      log.squashed n = false ∧ log.value n ≠ none) :
    (log.expected number prf).isSome = true := by
  by_cases zero : prf = 0
  · rw [expected, if_pos zero]
    rfl
  · have kept : latest (fun n => log.writes prf n && !log.squashed n) number =
        latest (log.writes prf) number :=
      latest_and fun n found => by simp [(producer zero n found).1]
    rw [expected, if_neg zero, kept]
    cases found : latest (log.writes prf) number with
    | none => rfl
    | some n => exact Option.isSome_iff_ne_none.mpr (producer zero n found).2

/-- A reader whose producer has written, and whose register nothing later has
written, finds what it has to. -/
theorem expected_eq_content (nonzero : prf ≠ 0) (within : number ≤ log.count)
    (later : ∀ n, number ≤ n → log.writes prf n = true →
      log.value n = none)
    (producer : ∀ n, latest (log.writes prf) number = some n →
      log.squashed n = false ∧ log.value n ≠ none) :
    log.expected number prf = some (log.content prf) := by
  have kept : latest (fun n => log.writes prf n && !log.squashed n) number =
      latest (log.writes prf) number :=
    latest_and fun n found => by simp [(producer n found).1]
  have present : latest (log.written prf) number =
      latest (log.writes prf) number :=
    latest_and fun n found => Option.isSome_iff_ne_none.mpr (producer n found).2
  have silent : latest (log.written prf) log.count =
      latest (log.written prf) number := by
    refine latest_of_silent within ?_
    intro n above _
    rw [written]
    cases here : log.writes prf n with
    | false => rfl
    | true => rw [later n above here]; rfl
  rw [expected, if_neg nonzero, content, kept, silent, present]
  cases found : latest (log.writes prf) number with
  | none => rfl
  | some n =>
      obtain ⟨value, written⟩ :=
        Option.ne_none_iff_exists'.mp (producer n found).2
      simp only [written, Option.getD_some]

end OperandLog

end Ria
