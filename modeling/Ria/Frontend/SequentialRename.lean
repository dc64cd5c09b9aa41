import Ria.Frontend.FreeRegisters
import Ria.Frontend.MappingTable

/-!
# One-at-a-time rename

`retireOne` and `renameOne` treat a single retirement and a single rename; the
latter takes the lowest-numbered free register.  The loops of `mapping_table`
and `free_list` together do what these operations do one lane after another.
-/

namespace Ria

open Hdl

namespace MappingTable

def retireOne (table : MappingTable) (port : RetirePort) : MappingTable :=
  { table with
    rRat := (retireMaps (table.rRat, table.arfRecover) port).1
    arfRecover := (retireMaps (table.rRat, table.arfRecover) port).2
    freeList := table.freeList.retireLane port }

def lowestFree (table : MappingTable) : PrfIndex :=
  (FreeList.freeRegisters table.freeList.freeList).headD 0

/-- What a single rename of `port` answers. -/
def answer (table : MappingTable) (port : RenamePort) : Renamed :=
  { prs1 := if port.rs1 = 0 then 0 else table.mpTb port.rs1
    prs2 := if port.rs2 = 0 then 0 else table.mpTb port.rs2
    prd := if port.rdValid then table.lowestFree else 0
    prevRd := if port.rdValid then table.mpTb port.rd else 0
    prevRdValid := port.rdValid && table.arfValid port.rd }

def renameOne (table : MappingTable) (port : RenamePort) : MappingTable :=
  if port.rdValid then
    { table with
      mpTb := Function.update table.mpTb port.rd table.lowestFree
      arfValid := Function.update table.arfValid port.rd true
      freeList :=
        { table.freeList with
          freeList := Function.update table.freeList.freeList
            table.lowestFree true
          freeNum := table.freeList.freeNum - 1 } }
  else table

/-! ## Retirement -/

theorem retireAll_freeList (ports : List RetirePort) (table : MappingTable) :
    (ports.foldl retireOne table).freeList =
      ports.foldl FreeList.retireLane table.freeList := by
  induction ports generalizing table with
  | nil => rfl
  | cons port rest induction => exact induction (table.retireOne port)

theorem retireAll_maps (ports : List RetirePort) (table : MappingTable) :
    ((ports.foldl retireOne table).rRat,
        (ports.foldl retireOne table).arfRecover) =
      ports.foldl retireMaps (table.rRat, table.arfRecover) := by
  induction ports generalizing table with
  | nil => rfl
  | cons port rest induction => exact induction (table.retireOne port)

theorem retireAll_mpTb (ports : List RetirePort) (table : MappingTable) :
    (ports.foldl retireOne table).mpTb = table.mpTb ∧
      (ports.foldl retireOne table).arfValid = table.arfValid := by
  induction ports generalizing table with
  | nil => exact ⟨rfl, rfl⟩
  | cons port rest induction => exact induction (table.retireOne port)

/-- The table after the cycle's retirements. -/
def retired (table : MappingTable) (retire : Fin 6 → RetirePort) :
    MappingTable :=
  (List.ofFn retire).foldl retireOne table

theorem retired_eq (table : MappingTable) (retire : Fin 6 → RetirePort) :
    table.retired retire =
      { table with
        rRat := (forEach 6 (fun i maps => retireMaps maps (retire i))
          (table.rRat, table.arfRecover)).1
        arfRecover := (forEach 6 (fun i maps => retireMaps maps (retire i))
          (table.rRat, table.arfRecover)).2
        freeList := table.freeList.retireLanes retire } := by
  have maps := retireAll_maps (List.ofFn retire) table
  have list := retireAll_freeList (List.ofFn retire) table
  obtain ⟨same, valid⟩ := retireAll_mpTb (List.ofFn retire) table
  have mapLoop := forEach_eq_foldl retire
    (fun port maps => retireMaps maps port) (table.rRat, table.arfRecover)
  have listLoop := forEach_eq_foldl retire
    (fun port list => FreeList.retireLane list port) table.freeList
  rw [FreeList.retireLanes, mapLoop, listLoop, ← maps, ← list, ← same, ← valid]
  rfl

/-! ## Renaming -/

/-- The table in which the rename of lane `count` starts. -/
def before (table : MappingTable) (ports : Fin 4 → RenamePort)
    (count : Nat) : MappingTable :=
  ((List.ofFn ports).take count).foldl renameOne table

theorem before_succ (table : MappingTable) (ports : Fin 4 → RenamePort)
    (i : Fin 4) :
    table.before ports (i.val + 1) =
      (table.before ports i.val).renameOne (ports i) := by
  rw [before, take_ofFn_succ, List.foldl_append]
  rfl

/-- The number of registers requested by the first `count` lanes. -/
def requests (ports : Fin 4 → RenamePort) (count : Nat) : Nat :=
  ((List.ofFn ports).take count).countP RenamePort.rdValid

theorem requests_succ (ports : Fin 4 → RenamePort) (i : Fin 4) :
    requests ports (i.val + 1) =
      requests ports i.val + if (ports i).rdValid then 1 else 0 :=
  countP_take_succ ports RenamePort.rdValid i

theorem requests_le (ports : Fin 4 → RenamePort) (count : Nat) :
    requests ports count ≤ count :=
  countP_take_le ports RenamePort.rdValid count

theorem requests_within (ports : Fin 4 → RenamePort) (i : Fin 4) :
    requests ports i.val + (if (ports i).rdValid then 1 else 0) ≤
      requests ports 4 := by
  rw [← requests_succ]
  exact (List.take_sublist_take_left (by omega)).countP_le

theorem reqCount_eq (ports : Fin 4 → RenamePort) :
    (FreeList.reqCount fun i => (ports i).rdValid).toNat =
      requests ports 4 :=
  forEach_count ports RenamePort.rdValid (by decide)

/-- The registers in the table's free list that are free. -/
def free (table : MappingTable) : List PrfIndex :=
  FreeList.freeRegisters table.freeList.freeList

theorem lowestFree_eq (table : MappingTable) :
    table.lowestFree = table.free.headD 0 := rfl

theorem renameOne_free (table : MappingTable) (port : RenamePort) :
    (table.renameOne port).free =
      table.free.drop (if port.rdValid then 1 else 0) := by
  unfold renameOne
  by_cases valid : port.rdValid = true
  · have lowest := table.lowestFree_eq
    have taken : FreeList.freeRegisters
        (Function.update table.freeList.freeList table.lowestFree true) =
          table.free.erase table.lowestFree := FreeList.freeRegisters_set
    simp only [if_pos valid]
    rw [free, taken, lowest]
    cases table.free <;> simp
  · simp only [if_neg valid]
    rfl

theorem before_free (table : MappingTable) (ports : Fin 4 → RenamePort)
    (count : Nat) (bound : count ≤ 4) :
    (table.before ports count).free =
      table.free.drop (requests ports count) := by
  induction count with
  | zero => rfl
  | succ count induction =>
      have earlier := induction (by omega)
      have step := before_succ table ports ⟨count, bound⟩
      have more := requests_succ ports ⟨count, bound⟩
      simp only at step more
      rw [step, renameOne_free, earlier, List.drop_drop, more]

/-- The search's next slot is the register a single rename would take. -/
theorem slot_eq_lowestFree (table : MappingTable)
    (ports : Fin 4 → RenamePort) (i : Fin 4)
    (valid : (ports i).rdValid = true) {index : BitVec 4}
    (counted : index.toNat = requests ports i.val) :
    (FreeList.search table.freeList.freeList
        (FreeList.reqCount fun i => (ports i).rdValid)).slot index =
      (table.before ports i.val).lowestFree := by
  have within := requests_within ports i
  rw [if_pos valid] at within
  have total := reqCount_eq ports
  have few : (FreeList.reqCount fun i => (ports i).rdValid).toNat ≤ 4 := by
    have bound := requests_le ports 4
    omega
  have asked : index.toNat <
      (FreeList.reqCount fun i => (ports i).rdValid).toNat := by
    omega
  rw [FreeList.search_slot table.freeList.freeList few asked, lowestFree_eq,
    before_free table ports i.val (by omega), List.headD_eq_head?_getD,
    List.head?_drop, ← counted]
  rfl

/-- What the assignment loop has handed out before lane `count` is what
one-at-a-time renaming would have. -/
structure Assigned (table : MappingTable) (ports : Fin 4 → RenamePort)
    (count : Nat) (given : FreeList.Assignment) : Prop where
  freeList : given.freeList = (table.before ports count).freeList.freeList
  index : given.reqIdxNext.toNat = requests ports count
  prfOut : ∀ lane : Fin 4, given.prfOut lane =
    if lane.val < count then
      ((table.before ports lane.val).answer (ports lane)).prd
    else 0

private theorem lt_succ_of_ne {lane i : Fin 4} (different : lane ≠ i) :
    (lane.val < i.val + 1) = (lane.val < i.val) := by
  have unequal : lane.val ≠ i.val := fun same => different (Fin.ext same)
  exact propext ⟨by omega, by omega⟩

theorem assign_assigned (table : MappingTable) (ports : Fin 4 → RenamePort) :
    Assigned table ports 4
      (FreeList.assign table.freeList.freeList fun i => (ports i).rdValid) := by
  unfold FreeList.assign
  refine forEach_rule (Assigned table ports) ?_ ?_
  · refine ⟨rfl, rfl, ?_⟩
    intro lane
    rfl
  · intro i given assigned
    have small := requests_within ports i
    have few := requests_le ports 4
    unfold FreeList.assignLane
    by_cases valid : (ports i).rdValid = true
    · have slot := slot_eq_lowestFree table ports i valid
        assigned.index
      rw [if_pos valid] at small
      simp only [if_pos valid, slot]
      refine ⟨?_, ?_, ?_⟩
      · rw [before_succ, renameOne, if_pos valid, assigned.freeList]
      · rw [requests_succ, if_pos valid, ← assigned.index, BitVec.toNat_add]
        have index := assigned.index
        exact Nat.mod_eq_of_lt (by simp; omega)
      · intro lane
        by_cases here : lane = i
        · subst here
          simp [answer, valid]
        · change Function.update given.prfOut i _ lane = _
          rw [Function.update_of_ne here, assigned.prfOut]
          simp only [lt_succ_of_ne here]
    · simp only [if_neg valid]
      refine ⟨?_, ?_, ?_⟩
      · rw [before_succ, renameOne, if_neg valid, assigned.freeList]
      · rw [requests_succ, if_neg valid, assigned.index, Nat.add_zero]
      · intro lane
        rw [assigned.prfOut]
        by_cases here : lane = i
        · subst here
          simp [answer, valid]
        · simp only [lt_succ_of_ne here]

/-- What the rename loop has done before lane `count` is what one-at-a-time
renaming does. -/
structure RenamedBefore (table : MappingTable) (ports : Fin 4 → RenamePort)
    (count : Nat) (state : Renaming) : Prop where
  mpTb : state.mpTb = (table.before ports count).mpTb
  arfValid : state.arfValid = (table.before ports count).arfValid
  renamed : ∀ lane : Fin 4, state.renamed lane =
    if lane.val < count then
      (table.before ports lane.val).answer (ports lane)
    else noRename

theorem renameLanes_renamed (table : MappingTable)
    (ports : Fin 4 → RenamePort) {prfOut : Fin 4 → PrfIndex}
    (given : ∀ lane, prfOut lane =
      ((table.before ports lane.val).answer (ports lane)).prd) :
    RenamedBefore table ports 4
      (forEach 4 (renameLane prfOut ports)
        { mpTb := table.mpTb, arfValid := table.arfValid
          renamed := fun _ => noRename }) := by
  refine forEach_rule (RenamedBefore table ports) ?_ ?_
  · exact ⟨rfl, rfl, fun _ => rfl⟩
  · intro i state so
    have prd := given i
    have lanes : ∀ lane : Fin 4,
        Function.update state.renamed i
          ((table.before ports i.val).answer (ports i)) lane =
        if lane.val < i.val + 1 then
          (table.before ports lane.val).answer (ports lane)
        else noRename := by
      intro lane
      by_cases here : lane = i
      · subst here
        simp
      · rw [Function.update_of_ne here, so.renamed]
        simp only [lt_succ_of_ne here]
    unfold renameLane
    by_cases valid : (ports i).rdValid = true
    · have lowest : prfOut i = (table.before ports i.val).lowestFree := by
        rw [prd]
        simp [answer, valid]
      simp only [if_pos valid, lowest]
      refine ⟨?_, ?_, ?_⟩
      · rw [before_succ, renameOne, if_pos valid, so.mpTb]
      · rw [before_succ, renameOne, if_pos valid, so.arfValid]
      · intro lane
        rw [← lanes lane]
        simp [answer, valid, so.mpTb, so.arfValid]
    · simp only [if_neg valid]
      refine ⟨?_, ?_, ?_⟩
      · rw [before_succ, renameOne, if_neg valid, so.mpTb]
      · rw [before_succ, renameOne, if_neg valid, so.arfValid]
      · intro lane
        rw [← lanes lane]
        simp [answer, valid, so.mpTb]

/-! ## The whole cycle -/

/-- The counter of free registers counts the zero bits. -/
def Counted (table : MappingTable) : Prop :=
  table.freeList.freeNum.toNat = table.free.length

theorem before_freeNum (table : MappingTable) (ports : Fin 4 → RenamePort)
    (count : Nat) (bound : count ≤ 4) :
    (table.before ports count).freeList.freeNum =
      table.freeList.freeNum - BitVec.ofNat 6 (requests ports count) := by
  induction count with
  | zero => simp [before, requests]
  | succ count induction =>
      have step := before_succ table ports ⟨count, bound⟩
      have more := requests_succ ports ⟨count, bound⟩
      simp only at step more
      rw [step, more, renameOne]
      by_cases valid : (ports ⟨count, bound⟩).rdValid = true
      · simp only [if_pos valid]
        rw [induction (by omega), BitVec.ofNat_add, BitVec.sub_sub]
        rfl
      · simp only [if_neg valid, Nat.add_zero]
        exact induction (by omega)

theorem renameAll_frame (ports : List RenamePort) (table : MappingTable) :
    (ports.foldl renameOne table).rRat = table.rRat ∧
      (ports.foldl renameOne table).arfRecover = table.arfRecover ∧
      (ports.foldl renameOne table).freeList.prfRecover =
        table.freeList.prfRecover ∧
      (ports.foldl renameOne table).freeList.prfRecoverNum =
        table.freeList.prfRecoverNum := by
  induction ports generalizing table with
  | nil => exact ⟨rfl, rfl, rfl, rfl⟩
  | cons port rest induction =>
      have frame : (table.renameOne port).rRat = table.rRat ∧
          (table.renameOne port).arfRecover = table.arfRecover ∧
          (table.renameOne port).freeList.prfRecover =
            table.freeList.prfRecover ∧
          (table.renameOne port).freeList.prfRecoverNum =
            table.freeList.prfRecoverNum := by
        unfold renameOne
        by_cases valid : port.rdValid = true
        · rw [if_pos valid]
          exact ⟨rfl, rfl, rfl, rfl⟩
        · rw [if_neg valid]
          exact ⟨rfl, rfl, rfl, rfl⟩
      obtain ⟨map, valid, list, number⟩ := induction (table.renameOne port)
      rw [List.foldl_cons, map, valid, list, number]
      exact frame

section Cycle

variable (table : MappingTable) (retire : Fin 6 → RetirePort)
  (ports : Fin 4 → RenamePort)

theorem retired_freeList :
    (table.retired retire).freeList = table.freeList.retireLanes retire := by
  rw [retired_eq]

theorem reqCount_wide :
    ((FreeList.reqCount fun i => (ports i).rdValid).setWidth 6).toNat =
      requests ports 4 := by
  have few := requests_le ports 4
  rw [BitVec.toNat_setWidth, reqCount_eq]
  exact Nat.mod_eq_of_lt (by omega)

theorem comb_allocatable (counted : (table.retired retire).Counted) :
    (table.comb retire ports).allocatable = true ↔
      requests ports 4 ≤ (table.retired retire).free.length := by
  rw [← counted, retired_freeList, ← reqCount_wide, ← BitVec.le_def]
  exact FreeList.comb_allocatable table.freeList retire _

/-- An accepted group is renamed lane by lane after the retirements. -/
theorem comb_accepted
    (accepted : (table.comb retire ports).allocatable = true) :
    (table.comb retire ports).next =
        (List.ofFn ports).foldl renameOne (table.retired retire) ∧
      ∀ lane, (table.comb retire ports).renamed lane =
        ((table.retired retire).before ports lane.val).answer
          (ports lane) := by
  have fits := (FreeList.comb_allocatable table.freeList retire _).mp accepted
  have assigned := assign_assigned (table.retired retire) ports
  have given : ∀ lane,
      (FreeList.assign (table.retired retire).freeList.freeList
        fun i => (ports i).rdValid).prfOut lane =
      (((table.retired retire).before ports lane.val).answer
        (ports lane)).prd := by
    intro lane
    have prd := assigned.prfOut lane
    rwa [if_pos lane.isLt] at prd
  have renamed := renameLanes_renamed (table.retired retire) ports given
  have whole : (List.ofFn ports).foldl renameOne (table.retired retire) =
      (table.retired retire).before ports 4 := by
    rw [before, List.take_of_length_le (by simp)]
  obtain ⟨rRat, arfRecover, prfRecover, prfRecoverNum⟩ :=
    renameAll_frame (List.ofFn ports) (table.retired retire)
  have number : (table.retired retire).freeList.freeNum -
      (FreeList.reqCount fun i => (ports i).rdValid).setWidth 6 =
        ((table.retired retire).before ports 4).freeList.freeNum := by
    have wide : (FreeList.reqCount fun i => (ports i).rdValid).setWidth 6 =
        BitVec.ofNat 6 (requests ports 4) := by
      rw [← reqCount_wide, BitVec.ofNat_toNat, BitVec.setWidth_eq]
    rw [wide, before_freeNum _ _ 4 (by omega)]
  rw [whole] at rRat arfRecover prfRecover prfRecoverNum ⊢
  constructor
  · have opened : (table.comb retire ports).next =
        { mpTb := ((table.retired retire).before ports 4).mpTb
          rRat := (table.retired retire).rRat
          arfValid := ((table.retired retire).before ports 4).arfValid
          arfRecover := (table.retired retire).arfRecover
          freeList :=
            { freeList :=
                ((table.retired retire).before ports 4).freeList.freeList
              freeNum :=
                ((table.retired retire).before ports 4).freeList.freeNum
              prfRecover := (table.retired retire).freeList.prfRecover
              prfRecoverNum :=
                (table.retired retire).freeList.prfRecoverNum } } := by
      rw [← renamed.mpTb, ← renamed.arfValid, ← assigned.freeList, ← number]
      simp only [retired_eq, comb, FreeList.comb, if_pos fits, if_true]
    rw [opened, ← rRat, ← arfRecover, ← prfRecover, ← prfRecoverNum]
  · intro lane
    have answered := renamed.renamed lane
    rw [if_pos lane.isLt] at answered
    rw [← answered]
    simp only [retired_eq, comb, FreeList.comb, if_pos fits, if_true]

theorem comb_refused
    (refused : (table.comb retire ports).allocatable = false) :
    (table.comb retire ports).next = table.retired retire ∧
      ∀ lane, (table.comb retire ports).renamed lane = noRename := by
  unfold comb FreeList.comb at refused ⊢
  by_cases fits : (FreeList.reqCount fun i => (ports i).rdValid).setWidth 6 ≤
      (table.freeList.retireLanes retire).freeNum
  · simp [fits] at refused
  · simp only [fits, if_false, retired_eq]
    exact ⟨rfl, fun _ => rfl⟩

/-- A recovery undoes whatever the cycle renamed. -/
theorem comb_recovered :
    (table.comb retire ports).next.recovered =
      (table.retired retire).recovered := by
  cases accepted : (table.comb retire ports).allocatable with
  | false => rw [(comb_refused table retire ports accepted).1]
  | true =>
      obtain ⟨rRat, arfRecover, prfRecover, prfRecoverNum⟩ :=
        renameAll_frame (List.ofFn ports) (table.retired retire)
      rw [(comb_accepted table retire ports accepted).1]
      simp only [recovered, FreeList.recovered, rRat, arfRecover, prfRecover,
        prfRecoverNum]

end Cycle

end MappingTable

end Ria
