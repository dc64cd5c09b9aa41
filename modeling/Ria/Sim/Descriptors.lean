import Ria.Library.HandleTable
import Ria.Sim.HostPoll
import Mathlib.Data.Fintype.Card
import Mathlib.Data.List.Nodup

/-!
# The descriptors of the target

`fds_t` is a table of handles: over every run of system calls the numbers that
the target sees and the descriptors that the host sees are the two sides of
one run of a handle table.  The target reaches no descriptor but those that
`openat` has opened for it and `close` has not closed.
-/

namespace Ria

open ByteMemory HandleTable

/-! ## The table -/

namespace Fds

/-- The host's descriptor behind each number -/
def handles (fds : List (BitVec 32)) : Handles (BitVec 32) :=
  fun i => fds[i]?.filter (· ≠ -1)

variable {fds : List (BitVec 32)} {fd : BitVec 32}

theorem handles_eq_some {i : Nat} :
    handles fds i = some fd ↔ fds[i]? = some fd ∧ fd ≠ -1 := by
  rw [handles, Option.filter_eq_some_iff, decide_eq_true_eq]

theorem handles_eq_none {i : Nat} :
    handles fds i = none ↔ ∀ other, fds[i]? = some other → other = -1 := by
  rw [handles, Option.filter_eq_none_iff]
  simp only [ne_eq, decide_not, Bool.not_eq_eq_eq_not, Bool.not_true,
    decide_eq_false_iff_not, Decidable.not_not]

theorem lookup_handles (fds : List (BitVec 32)) (reg : RegT) :
    lookup fds reg =
      if reg.setWidth 32 = atFdcwd then atFdcwd
      else (handles fds reg.toNat).getD (-1) := by
  unfold lookup handles
  congr 1
  cases entry : fds[reg.toNat]? with
  | none => rfl
  | some other =>
      by_cases free : other = -1
      · rw [free]
        rfl
      · rw [Option.filter_some_pos (by simpa using free)]

theorem free_le (fds : List (BitVec 32)) : free fds ≤ fds.length :=
  List.findIdx_le_length

theorem handles_free (fds : List (BitVec 32)) :
    handles fds (free fds) = none := by
  rw [handles_eq_none]
  intro other entry
  rcases List.getElem?_eq_some_iff.mp entry with ⟨inside, rfl⟩
  exact eq_of_beq (List.findIdx_getElem (w := inside))

theorem handles_lower {lower : Nat} (less : lower < free fds) :
    handles fds lower ≠ none := by
  have inside : lower < fds.length := Nat.lt_of_lt_of_le less (free_le fds)
  intro empty
  have taken := List.not_of_lt_findIdx less
  rw [handles_eq_none] at empty
  rw [empty fds[lower] (List.getElem?_eq_getElem inside)] at taken
  simp at taken

theorem alloc_handle (fds : List (BitVec 32)) (fd : BitVec 32) :
    (alloc fds fd).2 = BitVec.ofNat 64 (free fds) := by
  unfold alloc
  split
  · rename_i full
    rw [full]
  · rfl

theorem handles_alloc (valid : fd ≠ -1) :
    handles (alloc fds fd).1 =
      Function.update (handles fds) (free fds) (some fd) := by
  funext i
  by_cases here : i = free fds
  · subst here
    rw [Function.update_self, handles_eq_some]
    refine ⟨?_, valid⟩
    unfold alloc
    split
    · rename_i full
      rw [full]
      exact List.getElem?_concat_length
    · rename_i room
      rw [List.getElem?_set_self (Nat.lt_of_le_of_ne (free_le fds) room)]
  · rw [Function.update_of_ne here, handles, handles]
    unfold alloc
    split
    · rename_i full
      rw [full] at here
      congr 1
      rcases Nat.lt_or_gt_of_ne here with inside | beyond
      · exact List.getElem?_append_left inside
      · rw [List.getElem?_eq_none (by simp; omega),
          List.getElem?_eq_none (by omega)]
    · rw [List.getElem?_set_ne (Ne.symm here)]

theorem handles_dealloc (fds : List (BitVec 32)) (reg : RegT) :
    handles (dealloc fds reg) =
      Function.update (handles fds) reg.toNat none := by
  funext i
  by_cases here : i = reg.toNat
  · subst here
    rw [Function.update_self, handles_eq_none]
    intro other entry
    rw [dealloc, List.getElem?_set_self'] at entry
    rcases Option.map_eq_some_iff.mp entry with ⟨-, -, rfl⟩
    rfl
  · rw [Function.update_of_ne here, handles, handles, dealloc,
      List.getElem?_set_ne (Ne.symm here)]

/-- A table without a free index and without repetitions is no longer than
there are descriptors. -/
theorem alloc_bounded (bounded : fds.length ≤ 2 ^ 32)
    (distinct : Distinct (handles fds))
    (fresh : ¬ Held (handles fds) fd) :
    (alloc fds fd).1.length ≤ 2 ^ 32 := by
  unfold alloc
  split
  · rename_i full
    have valid : ∀ i (inside : i < fds.length), fds[i] ≠ -1 := by
      intro i inside empty
      rw [← full] at inside
      apply handles_lower inside
      rw [handles_eq_none, List.getElem?_eq_getElem (by omega)]
      intro other entry
      rw [← Option.some.inj entry, empty]
    have behind : ∀ i (inside : i < fds.length),
        handles fds i = some fds[i] := fun i inside =>
      handles_eq_some.mpr ⟨List.getElem?_eq_getElem inside, valid i inside⟩
    have nodup : (fds ++ [fd]).Nodup := by
      rw [List.nodup_append]
      refine ⟨?_, List.nodup_singleton fd, ?_⟩
      · rw [List.nodup_iff_injective_getElem]
        intro i j same
        apply Fin.ext
        apply distinct i j fds[i] (behind i i.isLt)
        rw [behind j j.isLt]
        exact congrArg some same.symm
      · intro old member new single same
        rcases List.mem_iff_getElem.mp member with ⟨i, inside, rfl⟩
        apply fresh
        exact ⟨i, by rw [behind i inside, same, List.mem_singleton.mp single]⟩
    have fits := (nodup.map (f := BitVec.toFin) fun _ _ same =>
      BitVec.eq_of_toFin_eq same).length_le_card
    rwa [List.length_map, Fintype.card_fin] at fits
  · rw [List.length_set]
    exact bounded

end Fds

/-! ## The operating system -/

/-- A call of the C library and what it left -/
abbrev OsRecord := OsCall × OsResult

/-- The operating system with a record of its calls -/
def HostOs.recorded {ω : Type} (os : HostOs ω) :
    HostOs (ω × List OsRecord) :=
  fun call state =>
    let answer := os call state.1
    ((answer.1, state.2 ++ [(call, answer.2)]), answer.2)

/-- What POSIX says about descriptors, where `isOpen` tells which ones are
open.  A call that fails leaves them as they are. -/
structure Posix {ω : Type} (os : HostOs ω)
    (isOpen : ω → BitVec 32 → Prop) : Prop where
  nonneg : ∀ state fd, isOpen state fd → 0 ≤ fd.toInt
  errno : ∀ call state, (os call state).2.ret = -1 →
    0 < (os call state).2.errno.toInt
  others : ∀ call state fd, call.Ordinary → isOpen state fd →
    isOpen (os call state).1 fd
  openat : ∀ dirfd path flags mode state,
    ((os (.openat dirfd path flags mode) state).2.ret = -1 ∨
      ∃ fd, (os (.openat dirfd path flags mode) state).2.ret =
          fd.signExtend 64 ∧ ¬ isOpen state fd ∧
        isOpen (os (.openat dirfd path flags mode) state).1 fd) ∧
      ∀ other, isOpen state other →
        isOpen (os (.openat dirfd path flags mode) state).1 other
  close : ∀ fd state,
    ((os (.close fd) state).2.ret = -1 ∧
        ∀ other, isOpen state other →
          isOpen (os (.close fd) state).1 other) ∨
      (os (.close fd) state).2.ret = 0 ∧ isOpen state fd ∧
        ∀ other, other ≠ fd → isOpen state other →
          isOpen (os (.close fd) state).1 other

/-- What a call does to the descriptors of the host. -/
def hostEvent : OsRecord → Option (Event (BitVec 32))
  | (.openat .., result) =>
      if result.ret = -1 then none
      else some (.opened (result.ret.setWidth 32))
  | (.close fd, result) =>
      if result.ret = -1 then none else some (.closed fd)
  | _ => none

theorem hostEvent_ordinary {call : OsCall} (ordinary : call.Ordinary)
    (result : OsResult) : hostEvent (call, result) = none := by
  cases call <;> first | rfl | cases ordinary

theorem errno_negative {errno : BitVec 32} (positive : 0 < errno.toInt) :
    (-errno).toInt < 0 := by
  have bound := errno.isLt
  rw [BitVec.toInt_eq_toNat_cond] at positive ⊢
  rw [BitVec.toNat_neg]
  split at positive
  · split
    · omega
    · omega
  · omega

/-! ## System calls -/

/-- What a system call does to the numbers of the target. -/
def targetEvent (call : TargetCall) : Option (Event Nat) :=
  if call.number = 56 ∧ 0 ≤ call.result.toInt then
    some (.opened call.result.toNat)
  else if call.number = 57 ∧ call.result = 0 then
    some (.closed (call.args 0).toNat)
  else none

section Calls

variable {σ ω : Type} {config : HostConfig σ ω}

/-- System calls one after another; in between the target goes on, which
leaves the operating system and the table alone. -/
inductive Proxied (config : HostConfig σ ω) (first : HostState σ ω) :
    List TargetCall → HostState σ ω → Prop
  | refl : Proxied config first [] first
  | call {calls last before mm call after}
      (run : Proxied config first calls last) (os : before.os = last.os)
      (fds : before.fds = last.fds)
      (called : Dispatched config mm before call after) :
      Proxied config first (calls ++ [call]) after

/-- The states that runs of `dispatch` reach. -/
inductive Served (config : HostConfig σ ω) (first : HostState σ ω) :
    HostState σ ω → Prop
  | refl : Served config first first
  | call {last before mm after} (run : Served config first last)
      (os : before.os = last.os) (fds : before.fds = last.fds)
      (served : dispatch config mm before = .ok ((), after)) :
      Served config first after

theorem Served.proxied {first last : HostState σ ω}
    (run : Served config first last) :
    ∃ calls, Proxied config first calls last := by
  induction run with
  | refl => exact ⟨[], .refl⟩
  | call run os fds served induction =>
      rcases induction with ⟨calls, proxied⟩
      rcases dispatch_iff.mp served with ⟨call, called⟩
      exact ⟨calls ++ [call], .call proxied os fds called⟩

end Calls

/-! ## The books -/

/-- What a system call finds and leaves of the descriptors: the table, the
operating system and the record of its calls. -/
structure Ledger (ω : Type) where
  fds : List (BitVec 32)
  os : ω
  record : List OsRecord

variable {σ ω : Type}

def HostState.ledger (state : HostState σ (ω × List OsRecord)) : Ledger ω where
  fds := state.fds
  os := state.os.1
  record := state.os.2

/-- The descriptors behind the numbers are open and distinct. -/
structure Tracked (isOpen : ω → BitVec 32 → Prop) (ledger : Ledger ω) :
    Prop where
  distinct : Distinct (Fds.handles ledger.fds)
  behind : ∀ i fd, Fds.handles ledger.fds i = some fd → isOpen ledger.os fd
  bounded : ledger.fds.length ≤ 2 ^ 32

/-- Calls that name descriptors from the table and change none of them. -/
structure Untouched (isOpen : ω → BitVec 32 → Prop)
    (before after : Ledger ω) : Prop where
  fds : after.fds = before.fds
  stays : ∀ fd, isOpen before.os fd → isOpen after.os fd
  made : ∃ made, after.record = before.record ++ made ∧
    ∀ record ∈ made, hostEvent record = none ∧
      Named before.fds record.1

/-- A system call: what it does to the numbers and what its calls do to the
descriptors are the two sides of the same events. -/
structure Booked (isOpen : ω → BitVec 32 → Prop) (before : Ledger ω)
    (call : TargetCall) (after : Ledger ω) : Prop where
  tracked : Tracked isOpen after
  events : ∃ events made,
    Run (Fds.handles before.fds) events (Fds.handles after.fds) ∧
      events.map (Event.map Prod.fst) = (targetEvent call).toList ∧
      resources events = made.filterMap hostEvent ∧
      after.record = before.record ++ made ∧
      ∀ early record late, made = early ++ record :: late →
        early.filterMap hostEvent = [] ∧ Named before.fds record.1

theorem quiet_behind {fds : List (BitVec 32)} {made : List OsRecord}
    {last : OsRecord}
    (quiet : ∀ record ∈ made, hostEvent record = none ∧ Named fds record.1)
    (named : Named fds last.1) {early late : List OsRecord}
    {record : OsRecord} (split : made ++ [last] = early ++ record :: late) :
    early.filterMap hostEvent = [] ∧ Named fds record.1 := by
  have lengths := congrArg List.length split
  simp only [List.length_append, List.length_cons, List.length_nil] at lengths
  have first : early = made.take early.length := by
    have short : early.length ≤ made.length := by omega
    have cut : (made ++ [last]).take early.length = made.take early.length :=
      List.take_append_of_le_length short
    rw [← cut, split, List.take_left' rfl]
  have member : record ∈ made ++ [last] := by
    rw [split]
    exact List.mem_append_right _ List.mem_cons_self
  refine ⟨List.filterMap_eq_nil_iff.mpr fun other inEarly => ?_, ?_⟩
  · rw [first] at inEarly
    exact (quiet other (List.mem_of_mem_take inEarly)).1
  · rcases List.mem_append.mp member with inMade | atEnd
    · exact (quiet record inMade).2
    · rw [List.mem_singleton.mp atEnd]
      exact named

namespace Untouched

variable {isOpen : ω → BitVec 32 → Prop} {before middle after : Ledger ω}

theorem refl (ledger : Ledger ω) : Untouched isOpen ledger ledger where
  fds := rfl
  stays := fun _ opened => opened
  made := ⟨[], (List.append_nil _).symm, fun _ member => nomatch member⟩

theorem trans (first : Untouched isOpen before middle)
    (second : Untouched isOpen middle after) :
    Untouched isOpen before after where
  fds := second.fds.trans first.fds
  stays := fun fd opened => second.stays fd (first.stays fd opened)
  made := by
    rcases first.made with ⟨early, firstRecord, firstQuiet⟩
    rcases second.made with ⟨late, secondRecord, secondQuiet⟩
    refine ⟨early ++ late, ?_, ?_⟩
    · rw [secondRecord, firstRecord, List.append_assoc]
    · intro record member
      rcases List.mem_append.mp member with inEarly | inLate
      · exact firstQuiet record inEarly
      · have quiet := secondQuiet record inLate
        rw [first.fds] at quiet
        exact quiet

theorem tracked (untouched : Untouched isOpen before after)
    (tracked : Tracked isOpen before) : Tracked isOpen after := by
  have fds := untouched.fds
  constructor
  · rw [fds]
    exact tracked.distinct
  · intro i fd behind
    rw [fds] at behind
    exact untouched.stays fd (tracked.behind i fd behind)
  · rw [fds]
    exact tracked.bounded

theorem booked (untouched : Untouched isOpen before after)
    (tracked : Tracked isOpen before) {call : TargetCall}
    (event : targetEvent call = none) : Booked isOpen before call after where
  tracked := untouched.tracked tracked
  events := by
    rcases untouched.made with ⟨made, record, quiet⟩
    have silent : ∀ records : List OsRecord, (∀ record ∈ records, record ∈ made) →
        records.filterMap hostEvent = [] := fun records within =>
      List.filterMap_eq_nil_iff.mpr fun record member =>
        (quiet record (within record member)).1
    refine ⟨[], made, ?_, ?_, ?_, record, ?_⟩
    · rw [untouched.fds]
      exact .refl
    · rw [event]
      rfl
    · exact (silent made fun _ member => member).symm
    · rintro early here late rfl
      refine ⟨silent early fun _ member => List.mem_append_left _ member, ?_⟩
      exact (quiet here (List.mem_append_right _ List.mem_cons_self)).2

theorem failed (untouched : Untouched isOpen before middle)
    {made : OsCall} {result : OsResult} (named : Named middle.fds made)
    (quiet : hostEvent (made, result) = none) {os : ω}
    (stays : ∀ fd, isOpen middle.os fd → isOpen os fd) :
    Untouched isOpen before
      ⟨middle.fds, os, middle.record ++ [(made, result)]⟩ := by
  refine untouched.trans ⟨rfl, stays, [(made, result)], rfl, ?_⟩
  intro other member
  rw [List.mem_singleton.mp member]
  exact ⟨quiet, named⟩

theorem happened (untouched : Untouched isOpen before middle)
    {made : OsCall} {result : OsResult} (named : Named middle.fds made)
    (tracked : Tracked isOpen after)
    (appended : after.record = middle.record ++ [(made, result)])
    {event : Event (Nat × BitVec 32)}
    (step : Step (Fds.handles middle.fds) event (Fds.handles after.fds))
    (host : hostEvent (made, result) = some (event.map Prod.snd))
    {call : TargetCall}
    (target : targetEvent call = some (event.map Prod.fst)) :
    Booked isOpen before call after where
  tracked := tracked
  events := by
    rcases untouched.made with ⟨earlier, record, quiet⟩
    rw [untouched.fds] at named step
    have silent : earlier.filterMap hostEvent = [] :=
      List.filterMap_eq_nil_iff.mpr fun other member =>
        (quiet other member).1
    refine ⟨[event], earlier ++ [(made, result)], .step .refl step, ?_, ?_,
      ?_, ?_⟩
    · rw [target]
      rfl
    · rw [List.filterMap_append, silent, List.filterMap_cons_some host]
      rfl
    · rw [appended, record, List.append_assoc]
    · intro early other late split
      exact quiet_behind quiet named split

end Untouched

section Calls

variable {os : HostOs ω} {isOpen : ω → BitVec 32 → Prop}
  {config : HostConfig σ (ω × List OsRecord)}
  {state after : HostState σ (ω × List OsRecord)}

/-- What reading memory, the ordinary calls and the rest do. -/
theorem frame_ledger (laws : Posix os isOpen)
    (recorded : config.os = os.recorded) :
    Frame config fun before after =>
      Untouched isOpen before.ledger after.ledger where
  refl := fun state => .refl state.ledger
  trans := fun first second => first.trans second
  memRead := by
    intro addr len state result done
    rw [← Except.ok.inj done]
    exact .refl state.ledger
  os := by
    intro state call ordinary named
    rw [recorded]
    refine ⟨rfl, fun fd => laws.others call state.os.1 fd ordinary, ?_⟩
    refine ⟨[(call, (os call state.os.1).2)], rfl, ?_⟩
    intro record member
    rw [List.mem_singleton.mp member]
    exact ⟨hostEvent_ordinary ordinary _, named⟩
  exitcode := fun state _ => .refl state.ledger
  printed := fun state _ => .refl state.ledger

theorem setWidth_signExtend (x : BitVec 32) :
    (x.signExtend 64).setWidth 32 = x := by
  apply BitVec.eq_of_getLsbD_eq
  intro i inside
  rw [BitVec.getLsbD_setWidth, BitVec.getLsbD_signExtend]
  simp [inside, Nat.lt_trans inside (by decide : 32 < 64)]

/-- A failure does not look like a descriptor. -/
theorem sysretErrno_negative {result : OsResult}
    (positive : 0 < result.errno.toInt) :
    (sysretErrno result (-1)).toInt < 0 ∧
      ((sysretErrno result (-1)).setWidth 32).toInt < 0 := by
  rw [sysretErrno, if_pos rfl, setWidth_signExtend,
    BitVec.toInt_signExtend_of_le (by decide)]
  exact ⟨errno_negative positive, errno_negative positive⟩

/-- A descriptor that is open does not look like a failure. -/
theorem sysretErrno_opened {result : OsResult} {fd : BitVec 32}
    (nonneg : 0 ≤ fd.toInt) (ret : result.ret = fd.signExtend 64) :
    result.ret ≠ -1 ∧ (sysretErrno result result.ret).setWidth 32 = fd := by
  have other : result.ret ≠ -1 := by
    intro failed
    have value := congrArg BitVec.toInt (ret.symm.trans failed)
    rw [BitVec.toInt_signExtend_of_le (by decide)] at value
    rw [value] at nonneg
    exact absurd nonneg (by decide)
  refine ⟨other, ?_⟩
  rw [sysretErrno, if_neg other, ret]
  exact setWidth_signExtend fd

theorem sysOpenat_booked (laws : Posix os isOpen)
    (recorded : config.os = os.recorded)
    (tracked : Tracked isOpen state.ledger)
    {dirfd pname len flags mode result : RegT}
    (done : sysOpenat config dirfd pname len flags mode state =
      .ok (result, after)) (args : Fin 7 → RegT) :
    Booked isOpen state.ledger ⟨56, args, result⟩ after.ledger := by
  rcases sysOpenat_cases done with
    ⟨name, read, path, answer, fd, readDone, ran, value, outcome⟩
  have untouched : Untouched isOpen state.ledger read.ledger :=
    readName_along (frame_ledger laws recorded) pname len _ _ readDone
  have before : Tracked isOpen read.ledger := untouched.tracked tracked
  have named : Named read.fds (.openat (Fds.lookup read.fds dirfd) path
      (flags.setWidth 32) (mode.setWidth 32)) :=
    fun other member => ⟨dirfd, List.mem_singleton.mp member⟩
  have event : ∀ result, hostEvent (.openat (Fds.lookup read.fds dirfd) path
      (flags.setWidth 32) (mode.setWidth 32), result) =
        if result.ret = -1 then none
        else some (.opened (result.ret.setWidth 32)) := fun _ => rfl
  have law := laws.openat (Fds.lookup read.fds dirfd) path
    (flags.setWidth 32) (mode.setWidth 32) read.os.1
  generalize OsCall.openat (Fds.lookup read.fds dirfd) path
    (flags.setWidth 32) (mode.setWidth 32) = opening at ran named event law
  have positive := laws.errno opening read.os.1
  rw [recorded, HostOs.recorded] at ran
  generalize os opening read.os.1 = answered at ran law positive
  subst ran
  rcases law with ⟨failed | ⟨opened, ret, fresh, now⟩, stays⟩
  · have negative := sysretErrno_negative (positive failed)
    have same : fd = (sysretErrno answered.2 (-1)).setWidth 32 :=
      failed ▸ value
    rcases outcome with ⟨-, last⟩ | ⟨nonneg, -⟩
    · cases last
      have quiet := (event answered.2).trans (if_pos failed)
      have silent : Untouched isOpen state.ledger
          ⟨read.fds, answered.1, read.os.2 ++ [(opening, answered.2)]⟩ :=
        untouched.failed named quiet stays
      refine silent.booked tracked ?_
      unfold targetEvent
      rw [if_neg fun both => absurd negative.1 (Int.not_lt.mpr both.2),
        if_neg fun both => absurd both.1 (show 56 ≠ 57 by decide)]
    · rw [same] at nonneg
      exact absurd negative.2 (Int.not_lt.mpr nonneg)
  · have nonneg := laws.nonneg _ _ now
    have success := sysretErrno_opened nonneg ret
    have same : fd = opened := value.trans success.2
    subst same
    rcases outcome with ⟨negative, -⟩ | ⟨-, last⟩
    · exact absurd negative (Int.not_lt.mpr nonneg)
    cases last
    have valid : fd ≠ -1 := by
      rintro rfl
      exact absurd nonneg (by decide)
    have unheld : ¬ Held (Fds.handles read.fds) fd :=
      fun held => fresh (before.behind held.choose fd held.choose_spec)
    have update := @Fds.handles_alloc read.fds fd valid
    have step : Step (Fds.handles read.fds)
        (.opened (Fds.free read.fds, fd))
        (Fds.handles (Fds.alloc read.fds fd).1) := by
      rw [update]
      exact .opened (Fds.handles_free _) (fun _ => Fds.handles_lower) unheld
    have later : Tracked isOpen ⟨(Fds.alloc read.fds fd).1, answered.1,
        read.os.2 ++ [(opening, answered.2)]⟩ := by
      refine ⟨step.distinct before.distinct, ?_,
        Fds.alloc_bounded before.bounded before.distinct unheld⟩
      intro i other behind
      change Fds.handles (Fds.alloc read.fds fd).1 i = some other at behind
      rw [update] at behind
      by_cases here : i = Fds.free read.fds
      · rw [here, Function.update_self] at behind
        rw [← Option.some.inj behind]
        exact now
      · rw [Function.update_of_ne here] at behind
        exact stays other (before.behind i other behind)
    refine untouched.happened named later rfl step ?_ ?_
    · rw [event, if_neg success.1, ret, setWidth_signExtend]
      rfl
    · have small : Fds.free read.fds ≤ 2 ^ 32 :=
        Nat.le_trans (Fds.free_le read.fds) before.bounded
      have value : (BitVec.ofNat 64 (Fds.free read.fds)).toNat =
          Fds.free read.fds :=
        Nat.mod_eq_of_lt (Nat.lt_of_le_of_lt small (by decide))
      have index : 0 ≤ (BitVec.ofNat 64 (Fds.free read.fds)).toInt := by
        rw [BitVec.toInt_eq_toNat_of_lt (by omega)]
        exact Int.natCast_nonneg _
      rw [Fds.alloc_handle]
      refine (if_pos ⟨rfl, index⟩).trans ?_
      exact congrArg (fun handle => some (Event.opened handle)) value

/-- A number that stands for an open descriptor is in the table. -/
theorem handles_of_open (laws : Posix os isOpen) {host : ω}
    {fds : List (BitVec 32)} {fd : RegT}
    (opened : isOpen host (Fds.lookup fds fd)) :
    Fds.handles fds fd.toNat = some (Fds.lookup fds fd) := by
  have nonneg := laws.nonneg _ _ opened
  rw [Fds.lookup_handles] at nonneg ⊢
  by_cases cwd : fd.setWidth 32 = atFdcwd
  · rw [if_pos cwd] at nonneg
    exact absurd nonneg (by decide)
  · rw [if_neg cwd] at nonneg ⊢
    cases behind : Fds.handles fds fd.toNat with
    | none =>
        rw [behind] at nonneg
        exact absurd nonneg (by decide)
    | some hostFd => rfl

theorem inside_of_handle {fds : List (BitVec 32)} {i : Nat} {fd : BitVec 32}
    (behind : Fds.handles fds i = some fd) : i < fds.length :=
  (List.getElem?_eq_some_iff.mp (Fds.handles_eq_some.mp behind).1).1

theorem sysClose_booked (laws : Posix os isOpen)
    (recorded : config.os = os.recorded)
    (tracked : Tracked isOpen state.ledger) {fd result : RegT}
    (done : sysClose config fd state = .ok (result, after))
    {args : Fin 7 → RegT} (first : args 0 = fd) :
    Booked isOpen state.ledger ⟨57, args, result⟩ after.ledger := by
  rcases sysClose_cases done with ⟨answer, ran, outcome⟩
  have named : Named state.fds (.close (Fds.lookup state.fds fd)) :=
    fun other member => ⟨fd, List.mem_singleton.mp member⟩
  have law := laws.close (Fds.lookup state.fds fd) state.os.1
  have positive := laws.errno (.close (Fds.lookup state.fds fd)) state.os.1
  rw [recorded, HostOs.recorded] at ran
  generalize os (.close (Fds.lookup state.fds fd)) state.os.1 = answered
    at ran law positive
  subst ran
  have start : Untouched isOpen state.ledger state.ledger := .refl _
  rcases outcome with ⟨negative, last⟩ | ⟨nonneg, inside, last⟩
  · have failed : answered.2.ret = -1 := by
      rcases law with ⟨failed, -⟩ | ⟨zero, -⟩
      · exact failed
      · change answered.2.ret.toInt < 0 at negative
        rw [zero] at negative
        exact absurd negative (by decide)
    have quiet : hostEvent (.close (Fds.lookup state.fds fd), answered.2) =
        none := if_pos failed
    have error := sysretErrno_negative (positive failed)
    cases last
    have silent : Untouched isOpen state.ledger
        ⟨state.fds, answered.1, state.os.2 ++
          [(.close (Fds.lookup state.fds fd), answered.2)]⟩ := by
      refine start.failed named quiet fun other opened => ?_
      rcases law with ⟨-, stays⟩ | ⟨zero, -⟩
      · exact stays other opened
      · rw [zero] at failed
        exact absurd failed (by decide)
    refine silent.booked tracked ?_
    refine (if_neg fun both => absurd both.1 (show 57 ≠ 56 by decide)).trans
      (if_neg fun both => ?_)
    have zero : sysretErrno answered.2 (-1) = 0 := both.2
    rw [zero] at error
    exact absurd error.1 (by decide)
  · rcases law with ⟨failed, -⟩ | ⟨zero, opened, stays⟩
    · change 0 ≤ answered.2.ret.toInt at nonneg
      rw [failed] at nonneg
      exact absurd nonneg (by decide)
    have event : hostEvent (.close (Fds.lookup state.fds fd), answered.2) =
        some (.closed (Fds.lookup state.fds fd)) := by
      refine if_neg ?_
      rw [zero]
      decide
    have held := handles_of_open laws opened
    have update := Fds.handles_dealloc state.fds fd
    have step : Step (Fds.handles state.fds)
        (.closed (fd.toNat, Fds.lookup state.fds fd))
        (Fds.handles (Fds.dealloc state.fds fd)) := by
      rw [update]
      exact .closed held
    cases last
    have later : Tracked isOpen ⟨Fds.dealloc state.fds fd, answered.1,
        state.os.2 ++ [(.close (Fds.lookup state.fds fd), answered.2)]⟩ := by
      refine ⟨step.distinct tracked.distinct, ?_, ?_⟩
      · intro i other behind
        change Fds.handles (Fds.dealloc state.fds fd) i = some other at behind
        rw [update] at behind
        by_cases here : i = fd.toNat
        · rw [here, Function.update_self] at behind
          cases behind
        · rw [Function.update_of_ne here] at behind
          apply stays other _ (tracked.behind i other behind)
          rintro rfl
          exact here (tracked.distinct i fd.toNat _ behind held)
      · change (state.fds.set fd.toNat (-1)).length ≤ 2 ^ 32
        rw [List.length_set]
        exact tracked.bounded
    refine start.happened named later rfl step event ?_
    refine (if_neg fun both => absurd both.1 (show 57 ≠ 56 by decide)).trans
      ((if_pos ⟨rfl, rfl⟩).trans ?_)
    exact congrArg (fun number : RegT => some (Event.closed number.toNat)) first

theorem syscallTable_booked (laws : Posix os isOpen)
    (recorded : config.os = os.recorded)
    (tracked : Tracked isOpen state.ledger) {call : TargetCall}
    {program : HostM σ (ω × List OsRecord) RegT}
    (entry : syscallTable config call.number call.args = some program)
    (done : program state = .ok (call.result, after)) :
    Booked isOpen state.ledger call after.ledger := by
  rcases call with ⟨number, args, result⟩
  by_cases isOpenat : number = 56
  · subst isOpenat
    cases entry
    exact sysOpenat_booked laws recorded tracked done args
  by_cases isClose : number = 57
  · subst isClose
    cases entry
    exact sysClose_booked laws recorded tracked done rfl
  · have frame := frame_ledger laws recorded
    have writes : ∀ addr bytes, Along
        (fun before after => Untouched isOpen before.ledger after.ledger)
        (memWrite config addr bytes) := fun _ _ => Along.modifies
      fun state => .refl state.ledger
    have untouched : Untouched isOpen state.ledger after.ledger :=
      syscallTable_along writes frame entry isOpenat isClose _ _ done
    refine untouched.booked tracked ?_
    exact (if_neg fun both => isOpenat both.1).trans
      (if_neg fun both => isClose both.1)

theorem Dispatched.booked (laws : Posix os isOpen)
    (recorded : config.os = os.recorded)
    (tracked : Tracked isOpen state.ledger) {mm : AddrT} {call : TargetCall}
    (called : Dispatched config mm state call after) :
    Booked isOpen state.ledger call after.ledger := by
  rcases called with ⟨magicmem, read, program, handled, got, -, -, entry,
    ran, written⟩
  have before : state.ledger = read.ledger :=
    congrArg (fun answer => answer.2.ledger) (Except.ok.inj got)
  have behind : handled.ledger = after.ledger :=
    congrArg (fun answer => answer.2.ledger) (Except.ok.inj written)
  rw [before] at tracked ⊢
  rw [← behind]
  exact syscallTable_booked laws recorded tracked entry ran

/-- The books of a run: the numbers that the target saw opened and closed and
the descriptors that the host opened and closed are the sides of one run of a
handle table, and each call named descriptors of the table it found. -/
structure Reconciled (isOpen : ω → BitVec 32 → Prop) (first : Ledger ω)
    (calls : List TargetCall) (last : Ledger ω) : Prop where
  tracked : Tracked isOpen last
  events : ∃ events, Run (Fds.handles first.fds) events
      (Fds.handles last.fds) ∧
    events.map (Event.map Prod.fst) = calls.filterMap targetEvent ∧
    resources events = last.record.filterMap hostEvent
  named : ∀ early record late, last.record = early ++ record :: late →
    ∃ fds events, Run (Fds.handles first.fds) events (Fds.handles fds) ∧
      resources events = early.filterMap hostEvent ∧ Named fds record.1

theorem Proxied.reconciled (laws : Posix os isOpen)
    (recorded : config.os = os.recorded)
    {first last : HostState σ (ω × List OsRecord)} {calls : List TargetCall}
    (tracked : Tracked isOpen first.ledger) (blank : first.os.2 = [])
    (run : Proxied config first calls last) :
    Reconciled isOpen first.ledger calls last.ledger := by
  induction run with
  | refl =>
      refine ⟨tracked, ⟨[], .refl, rfl, ?_⟩, ?_⟩
      · change [] = first.os.2.filterMap hostEvent
        rw [blank]
        rfl
      · intro early record late split
        change first.os.2 = _ at split
        rw [blank] at split
        cases early <;> cases split
  | @call calls last before mm call after run os fds called induction =>
      have found : before.ledger = last.ledger := by
        unfold HostState.ledger
        rw [os, fds]
      rw [← found] at induction
      rcases induction with ⟨tracked, ⟨events, ran, numbers, opened⟩, named⟩
      have booked := called.booked laws recorded tracked
      rcases booked.events with
        ⟨more, made, further, number, records, appended, within⟩
      refine ⟨booked.tracked, ⟨events ++ more, ran.append further, ?_, ?_⟩,
        ?_⟩
      · have single : (targetEvent call).toList =
            [call].filterMap targetEvent := by
          cases event : targetEvent call <;> simp [event]
        rw [List.map_append, numbers, number, single, List.filterMap_append]
      · have parts : resources (events ++ more) =
            resources events ++ resources more := List.map_append
        rw [parts, opened, records, appended, List.filterMap_append]
      · intro early record late split
        rw [appended, List.append_eq_append_iff] at split
        rcases split with ⟨inside, rfl, split⟩ | ⟨inside, split, rest⟩
        · rcases within inside record late split with ⟨quiet, name⟩
          refine ⟨before.fds, events, ran, ?_, name⟩
          rw [List.filterMap_append, quiet, List.append_nil, opened]
        · cases inside with
          | nil =>
              rw [List.append_nil] at split
              rw [List.nil_append] at rest
              refine ⟨before.fds, events, ran, ?_,
                (within [] record late rest.symm).2⟩
              rw [opened, split]
          | cons head tail =>
              rw [List.cons_append] at rest
              cases rest
              exact named early record tail split

/-- `close` never leaves the table. -/
theorem sysClose_inside (laws : Posix os isOpen)
    (recorded : config.os = os.recorded) (fd : RegT) :
    ∃ result, sysClose config fd state = .ok result := by
  have law := laws.close (Fds.lookup state.fds fd) state.os.1
  have answer : (config.os (.close (Fds.lookup state.fds fd)) state.os).2 =
      (os (.close (Fds.lookup state.fds fd)) state.os.1).2 := by
    rw [recorded, HostOs.recorded]
  rw [sysClose, HostM.bind_ok rfl, HostM.bind_ok rfl]
  by_cases failed : (config.os (.close (Fds.lookup state.fds fd))
      state.os).2.ret.toInt < 0
  · rw [if_pos failed]
    exact ⟨_, rfl⟩
  · rw [if_neg failed]
    rcases law with ⟨error, -⟩ | ⟨-, opened, -⟩
    · rw [answer, error] at failed
      exact absurd (by decide) failed
    · have inside := inside_of_handle (handles_of_open laws opened)
      exact ⟨_, HostM.bind_ok (deallocFd_inside inside)⟩

end Calls

/-! ## A small system -/

/-- An operating system that hands out 6, 7, .. one after another. -/
def drawer : HostOs (Nat × List (BitVec 32)) := fun call state =>
  let stat : Stat := ⟨0, 0, 0, 0, 0, 0, 0, 0, 0, 0, 0, 0, 0⟩
  match call with
  | .openat .. =>
      if state.1 < 2 ^ 31 then
        ((state.1 + 1, BitVec.ofNat 32 state.1 :: state.2),
          ⟨(BitVec.ofNat 32 state.1).signExtend 64, 0, [], stat⟩)
      else (state, ⟨-1, 24, [], stat⟩)
  | .close fd =>
      if fd ∈ state.2 ∧ fd.toNat < state.1 ∧ 0 ≤ fd.toInt then
        ((state.1, state.2.filter (· ≠ fd)), ⟨0, 0, [], stat⟩)
      else (state, ⟨-1, 9, [], stat⟩)
  | _ => (state, ⟨-1, 9, [], stat⟩)

/-- The descriptors that lie in the drawer. -/
def InDrawer (state : Nat × List (BitVec 32)) (fd : BitVec 32) : Prop :=
  fd ∈ state.2 ∧ fd.toNat < state.1 ∧ 0 ≤ fd.toInt

theorem drawer_posix : Posix drawer InDrawer where
  nonneg := fun _ _ inside => inside.2.2
  errno := by
    intro call state failed
    cases call with
    | openat dirfd path flags mode =>
        by_cases room : state.1 < 2 ^ 31
        · have made : drawer (.openat dirfd path flags mode) state = _ :=
            if_pos room
          have value : (BitVec.ofNat 32 state.1).toNat = state.1 :=
            Nat.mod_eq_of_lt (Nat.lt_trans room (by decide))
          rw [made] at failed
          have negative := congrArg BitVec.toInt failed
          rw [BitVec.toInt_signExtend_of_le (by decide),
            BitVec.toInt_eq_toNat_of_lt (by omega)] at negative
          have minus : (-1 : BitVec 64).toInt = -1 := by decide
          omega
        · have made : drawer (.openat dirfd path flags mode) state = _ :=
            if_neg room
          rw [made]
          exact (by decide : (0 : Int) < (24 : BitVec 32).toInt)
    | close fd =>
        by_cases inside : fd ∈ state.2 ∧ fd.toNat < state.1 ∧ 0 ≤ fd.toInt
        · have made : drawer (.close fd) state = _ := if_pos inside
          rw [made] at failed
          exact absurd failed (by decide : (0 : BitVec 64) ≠ -1)
        · have made : drawer (.close fd) state = _ := if_neg inside
          rw [made]
          exact (by decide : (0 : Int) < (9 : BitVec 32).toInt)
    | _ => exact (by decide : (0 : Int) < (9 : BitVec 32).toInt)
  others := by
    intro call state fd ordinary inside
    cases call with
    | openat => cases ordinary
    | close => cases ordinary
    | _ => exact inside
  openat := by
    intro dirfd path flags mode state
    by_cases room : state.1 < 2 ^ 31
    · have value : (BitVec.ofNat 32 state.1).toNat = state.1 :=
        Nat.mod_eq_of_lt (Nat.lt_trans room (by decide))
      have made : drawer (.openat dirfd path flags mode) state = _ :=
        if_pos room
      rw [made]
      refine ⟨.inr ⟨BitVec.ofNat 32 state.1, rfl, ?_, ?_⟩, ?_⟩
      · intro inside
        exact absurd inside.2.1 (by omega)
      · refine ⟨List.mem_cons_self, ?_, ?_⟩
        · change (BitVec.ofNat 32 state.1).toNat < state.1 + 1
          omega
        · rw [BitVec.toInt_eq_toNat_of_lt (by omega)]
          exact Int.natCast_nonneg _
      · intro other inside
        exact ⟨List.mem_cons_of_mem _ inside.1,
          Nat.lt_succ_of_lt inside.2.1, inside.2.2⟩
    · have made : drawer (.openat dirfd path flags mode) state = _ :=
        if_neg room
      rw [made]
      exact ⟨.inl rfl, fun _ inside => inside⟩
  close := by
    intro fd state
    by_cases inside : fd ∈ state.2 ∧ fd.toNat < state.1 ∧ 0 ≤ fd.toInt
    · have made : drawer (.close fd) state = _ := if_pos inside
      rw [made]
      refine .inr ⟨rfl, inside, fun other different still => ?_⟩
      exact ⟨List.mem_filter.mpr ⟨still.1, by simpa using different⟩,
        still.2⟩
    · have made : drawer (.close fd) state = _ := if_neg inside
      rw [made]
      exact .inl ⟨rfl, fun _ still => still⟩

/-- The proxy in front of it and of a byte array -/
def cabinet : HostConfig (Memory 32) ((Nat × List (BitVec 32)) × List OsRecord)
    where
  memif := bytesMemif
  os := drawer.recorded
  targetArgs := []
  tohostAddr := 0
  fromhostAddr := 0

/-- The standard descriptors are 3, 4 and 5, and the command words ask to open
the file with the empty name. -/
def cabinetStart :
    HostState (Memory 32) ((Nat × List (BitVec 32)) × List OsRecord) where
  memory := write (fun _ => 0) 0
    (toBytes 8 56 ++ toBytes 8 (-100 : RegT).toNat ++ toBytes 8 4096 ++
      toBytes 8 1)
  os := ((6, [3, 4, 5]), [])
  fds := [3, 4, 5]
  chroot := []
  exitcode := 0
  stopped := false
  fromhostQueue := []
  printed := []

theorem cabinetStart_tracked : Tracked InDrawer cabinetStart.ledger := by
  have few : ∀ i fd, Fds.handles [3, 4, 5] i = some fd → i < 3 :=
    fun i fd behind => inside_of_handle behind
  have different : ∀ i, i < 3 → ∀ j, j < 3 →
      Fds.handles [3, 4, 5] i = Fds.handles [3, 4, 5] j → i = j := by
    decide
  have inside : ∀ i, i < 3 →
      Fds.handles [3, 4, 5] i = some (3 + BitVec.ofNat 32 i) ∧
        InDrawer (6, [3, 4, 5]) (3 + BitVec.ofNat 32 i) := by
    unfold InDrawer
    decide
  refine ⟨?_, ?_, ?_⟩
  · intro i j fd behindI behindJ
    exact different i (few i fd behindI) j (few j fd behindJ)
      (behindI.trans behindJ.symm)
  · intro i fd behind
    rcases inside i (few i fd behind) with ⟨entry, lies⟩
    rw [← Option.some.inj (entry.symm.trans behind)]
    exact lies
  · exact (by decide : 3 ≤ 2 ^ 32)

/-- The host when the file is open -/
def cabinetOpened :
    HostState (Memory 32) ((Nat × List (BitVec 32)) × List OsRecord) :=
  { cabinetStart with
    os := ((7, [6, 3, 4, 5]), [(.openat (-100) [] 0 0,
      ⟨6, 0, [], ⟨0, 0, 0, 0, 0, 0, 0, 0, 0, 0, 0, 0, 0⟩⟩)])
    fds := [3, 4, 5, 6] }

theorem cabinet_opens : ∃ args after,
    Dispatched cabinet 0 cabinetStart ⟨56, args, 3⟩ after ∧
      after.os = cabinetOpened.os ∧ after.fds = cabinetOpened.fds := by
  have bytes : InFrontOfBytes cabinet := rfl
  have name : readName cabinet 4096 1 cabinetStart = .ok ([], cabinetStart) := by
    rw [readName, HostM.bind_ok rfl, HostM.bind_ok (memRead_bytes bytes _ _ _)]
    rfl
  have ran : sysOpenat cabinet (-100) 4096 1 0 0 cabinetStart =
      .ok (3, cabinetOpened) := by
    rw [sysOpenat, HostM.bind_ok name]
    rfl
  have short : (toBytes 8 (3 : RegT).toNat ++
      (load cabinetStart.memory ((0 : AddrT).setWidth 32) 64).drop 8).length ≤
        2 ^ 32 := by
    rw [List.length_append, length_toBytes, List.length_drop, length_load]
    decide
  have written := memWrite_bytes bytes 0 short cabinetOpened
  refine ⟨_, _, ⟨_, _, _, cabinetOpened,
    memRead_bytes bytes 0 64 cabinetStart, ?_, rfl, rfl, ran, written⟩, rfl,
    rfl⟩
  decide

/-- The host before the target asks to close number 3 -/
def cabinetClosing :
    HostState (Memory 32) ((Nat × List (BitVec 32)) × List OsRecord) :=
  { cabinetOpened with
    memory := write (fun _ => 0) 0 (toBytes 8 57 ++ toBytes 8 3) }

theorem cabinet_closes : ∃ args after,
    Dispatched cabinet 0 cabinetClosing ⟨57, args, 0⟩ after ∧
      after.os.2 = cabinetOpened.os.2 ++ [(.close 6,
        ⟨0, 0, [], ⟨0, 0, 0, 0, 0, 0, 0, 0, 0, 0, 0, 0, 0⟩⟩)] := by
  have bytes : InFrontOfBytes cabinet := rfl
  have ran : sysClose cabinet 3 cabinetClosing =
      .ok (0, { cabinetClosing with
        os := ((7, [3, 4, 5]), cabinetOpened.os.2 ++ [(.close 6,
          ⟨0, 0, [], ⟨0, 0, 0, 0, 0, 0, 0, 0, 0, 0, 0, 0, 0⟩⟩)])
        fds := [3, 4, 5, -1] }) := rfl
  have short : (toBytes 8 (0 : RegT).toNat ++
      (load cabinetClosing.memory ((0 : AddrT).setWidth 32) 64).drop
        8).length ≤ 2 ^ 32 := by
    rw [List.length_append, length_toBytes, List.length_drop, length_load]
    decide
  refine ⟨_, _, ⟨_, _, _, _, memRead_bytes bytes 0 64 cabinetClosing, ?_,
    rfl, rfl, ran, memWrite_bytes bytes 0 short _⟩, rfl⟩
  decide

end Ria
