import Ria.Frontend.RenameHistory

/-!
# Conservation of physical registers

Every physical register is register 0, or committed, or the destination of
exactly one uop in flight, or free.  Single retirements, single renames and
recoveries keep this partition, and with it the two counters of the free list
stay equal to the numbers of zero bits of the two bit maps.
-/

namespace Ria

open Hdl MappingTable FreeList

/-- The destination registers of the uops in flight. -/
def destinations (queue : List Allocation) : List PrfIndex :=
  (queue.filter Allocation.rdValid).map Allocation.rdPrf

theorem destinations_append (first second : List Allocation) :
    destinations (first ++ second) =
      destinations first ++ destinations second := by
  simp [destinations]

theorem destinations_cons (alloc : Allocation) (queue : List Allocation) :
    destinations (alloc :: queue) =
      (if alloc.rdValid then [alloc.rdPrf] else []) ++ destinations queue := by
  cases valid : alloc.rdValid <;> simp [destinations, valid]

theorem destinations_snoc (queue : List Allocation) (alloc : Allocation) :
    destinations (queue ++ [alloc]) =
      destinations queue ++ if alloc.rdValid then [alloc.rdPrf] else [] := by
  cases valid : alloc.rdValid <;> simp [destinations, valid]

/-- The registers that hold committed values. -/
def Committed (retired : List Allocation) (prf : PrfIndex) : Prop :=
  ∃ arf, mapping retired arf = some prf

/-- The partition of the registers, against the history. -/
structure Conserved (table : MappingTable) (retired queue : List Allocation) :
    Prop where
  busy : ∀ prf, table.freeList.freeList prf = true ↔
    prf = 0 ∨ Committed retired prf ∨ prf ∈ destinations queue
  recover : ∀ prf, table.freeList.prfRecover prf = true ↔
    prf = 0 ∨ Committed retired prf
  counted : table.Counted
  recoverCounted : table.freeList.prfRecoverNum.toNat =
    (freeRegisters table.freeList.prfRecover).length
  injective : ∀ first second prf, mapping retired first = some prf →
    mapping retired second = some prf → first = second
  distinct : (destinations queue).Nodup
  apart : ∀ prf ∈ destinations queue, ¬ Committed retired prf
  committedNonzero : ¬ Committed retired 0
  destinationsNonzero : 0 ∉ destinations queue

namespace Conserved

variable {table : MappingTable} {retired queue : List Allocation}

theorem resetState : Conserved MappingTable.resetState [] [] := by
  have none : ∀ prf, ¬ Committed [] prf := by
    rintro prf ⟨arf, mapped⟩
    cases mapped
  refine ⟨?_, ?_, ?_, ?_, ?_, List.Pairwise.nil, ?_, none 0, ?_⟩
  · intro prf
    simp [MappingTable.resetState, FreeList.resetState, none, destinations]
  · intro prf
    simp [MappingTable.resetState, FreeList.resetState, none]
  · unfold Counted MappingTable.free
    decide
  · decide
  · intro first second prf mapped
    cases mapped
  · intro prf member
    cases member
  · simp [destinations]

/-! ### Retirement -/

theorem retireOne_idle {alloc : Allocation}
    (conserved : Conserved table retired (alloc :: queue))
    (linked : Linked retired alloc) (idle : alloc.rdValid = false) :
    Conserved (table.retireOne alloc.retirePort) (retired ++ [alloc])
      queue := by
  have same : (table.retireOne alloc.retirePort).freeList =
      table.freeList := by
    simp [MappingTable.retireOne, Allocation.retirePort, retireLane, idle,
      linked.idle idle]
  have committed : ∀ prf, Committed (retired ++ [alloc]) prf ↔
      Committed retired prf := by
    intro prf
    simp only [Committed, mapping_snoc_of_idle idle]
  have dests : destinations (alloc :: queue) = destinations queue := by
    simp [destinations_cons, idle]
  obtain ⟨busy, recover, counted, recoverCounted, injective, distinct,
    apart, committedNonzero, destinationsNonzero⟩ := conserved
  rw [dests] at distinct destinationsNonzero
  refine ⟨?_, ?_, ?_, ?_, ?_, distinct, ?_, ?_, destinationsNonzero⟩
  · intro prf
    rw [same, committed, busy, dests]
  · intro prf
    rw [same, committed, recover]
  · unfold Counted MappingTable.free
    rw [same]
    exact counted
  · rw [same]
    exact recoverCounted
  · intro first second prf
    rw [mapping_snoc_of_idle idle, mapping_snoc_of_idle idle]
    exact injective first second prf
  · intro prf member
    rw [committed]
    exact apart prf (dests ▸ member)
  · rw [committed]
    exact committedNonzero

/-- A retiring destination is committed and displaces the register committed
for the same architectural register. -/
theorem committed_snoc {alloc : Allocation}
    (injective : ∀ first second prf, mapping retired first = some prf →
      mapping retired second = some prf → first = second)
    (valid : alloc.rdValid = true) (prf : PrfIndex) :
    Committed (retired ++ [alloc]) prf ↔
      prf = alloc.rdPrf ∨
        (Committed retired prf ∧ mapping retired alloc.rdArf ≠ some prf) := by
  constructor
  · rintro ⟨arf, mapped⟩
    rw [mapping_snoc] at mapped
    by_cases here : alloc.rdArf = arf
    · rw [if_pos ⟨valid, here⟩] at mapped
      exact .inl (Option.some.inj mapped).symm
    · rw [if_neg (fun both => here both.2)] at mapped
      refine .inr ⟨⟨arf, mapped⟩, ?_⟩
      intro displaced
      exact here (injective _ _ prf displaced mapped)
  · rintro (rfl | ⟨⟨arf, mapped⟩, kept⟩)
    · exact ⟨alloc.rdArf, by rw [mapping_snoc, if_pos ⟨valid, rfl⟩]⟩
    · refine ⟨arf, ?_⟩
      rw [mapping_snoc, if_neg]
      · exact mapped
      · rintro ⟨-, rfl⟩
        exact kept mapped

theorem injective_snoc {alloc : Allocation}
    (conserved : Conserved table retired (alloc :: queue))
    (valid : alloc.rdValid = true) (first second : ArfIndex) (prf : PrfIndex)
    (mappedFirst : mapping (retired ++ [alloc]) first = some prf)
    (mappedSecond : mapping (retired ++ [alloc]) second = some prf) :
    first = second := by
  have fresh : ¬ Committed retired alloc.rdPrf :=
    conserved.apart alloc.rdPrf (by simp [destinations_cons, valid])
  rw [mapping_snoc] at mappedFirst mappedSecond
  by_cases one : alloc.rdArf = first
  · by_cases two : alloc.rdArf = second
    · rw [← one, ← two]
    · rw [if_pos ⟨valid, one⟩] at mappedFirst
      rw [if_neg (fun both => two both.2)] at mappedSecond
      rw [← Option.some.inj mappedFirst] at mappedSecond
      exact absurd ⟨second, mappedSecond⟩ fresh
  · rw [if_neg (fun both => one both.2)] at mappedFirst
    by_cases two : alloc.rdArf = second
    · rw [if_pos ⟨valid, two⟩] at mappedSecond
      rw [← Option.some.inj mappedSecond] at mappedFirst
      exact absurd ⟨first, mappedFirst⟩ fresh
    · rw [if_neg (fun both => two both.2)] at mappedSecond
      exact conserved.injective first second prf mappedFirst mappedSecond

private theorem retired_parts {alloc : Allocation}
    (conserved : Conserved table retired (alloc :: queue))
    (valid : alloc.rdValid = true) :
    (destinations queue).Nodup ∧ alloc.rdPrf ∉ destinations queue ∧
      alloc.rdPrf ≠ 0 ∧ ¬ Committed retired alloc.rdPrf ∧
      (∀ prf ∈ destinations queue, ¬ Committed (retired ++ [alloc]) prf) ∧
      ¬ Committed (retired ++ [alloc]) 0 ∧ 0 ∉ destinations queue := by
  have dests : destinations (alloc :: queue) =
      alloc.rdPrf :: destinations queue := by
    simp [destinations_cons, valid]
  have distinct := conserved.distinct
  have apart := conserved.apart
  have nonzero := conserved.destinationsNonzero
  rw [dests] at distinct apart nonzero
  obtain ⟨fresh, distinct⟩ := List.nodup_cons.mp distinct
  have here : alloc.rdPrf ≠ 0 := fun zero => nonzero (by simp [zero])
  refine ⟨distinct, fresh, here, ?_, ?_, ?_, ?_⟩
  · exact apart _ List.mem_cons_self
  · intro prf member committed
    rcases (committed_snoc conserved.injective valid prf).mp committed with
      rfl | ⟨old, -⟩
    · exact fresh member
    · exact apart prf (List.mem_cons_of_mem _ member) old
  · intro committed
    rcases (committed_snoc conserved.injective valid 0).mp committed with
      zero | ⟨old, -⟩
    · exact here zero.symm
    · exact conserved.committedNonzero old
  · exact fun member => nonzero (List.mem_cons_of_mem _ member)

/-- The register that the oldest uop writes is not in the committed state
yet. -/
theorem head_unmarked {alloc : Allocation}
    (conserved : Conserved table retired (alloc :: queue))
    (valid : alloc.rdValid = true) :
    table.freeList.prfRecover alloc.rdPrf = false := by
  obtain ⟨-, -, nonzero, uncommitted, -⟩ := retired_parts conserved valid
  rw [← Bool.not_eq_true, conserved.recover]
  rintro (isZero | old)
  · exact nonzero isZero
  · exact uncommitted old

theorem retireOne_first {alloc : Allocation}
    (conserved : Conserved table retired (alloc :: queue))
    (linked : Linked retired alloc) (valid : alloc.rdValid = true)
    (unmapped : mapping retired alloc.rdArf = none) :
    Conserved (table.retireOne alloc.retirePort) (retired ++ [alloc])
      queue := by
  obtain ⟨distinct, -, -, -, apart, zero, zeroQueue⟩ :=
    retired_parts conserved valid
  have keeps : alloc.prevValid = false := by
    rw [linked.prevValid valid, unmapped]
    rfl
  have list : (table.retireOne alloc.retirePort).freeList =
      { table.freeList with
        prfRecoverNum := table.freeList.prfRecoverNum - 1
        prfRecover :=
          Function.update table.freeList.prfRecover alloc.rdPrf true } := by
    simp [MappingTable.retireOne, Allocation.retirePort, retireLane, valid,
      keeps]
  have committed : ∀ prf, Committed (retired ++ [alloc]) prf ↔
      prf = alloc.rdPrf ∨ Committed retired prf := by
    intro prf
    rw [committed_snoc conserved.injective valid, unmapped]
    simp
  refine ⟨?_, ?_, ?_, ?_, injective_snoc conserved valid, distinct, apart,
    zero, zeroQueue⟩
  · intro prf
    rw [list, committed, conserved.busy, destinations_cons, if_pos valid]
    simp only [List.singleton_append, List.mem_cons]
    tauto
  · intro prf
    rw [list, committed]
    by_cases here : prf = alloc.rdPrf
    · simp [here]
    · simp [here, conserved.recover]
  · unfold Counted MappingTable.free
    rw [list]
    exact conserved.counted
  · rw [list]
    exact count_set conserved.recoverCounted (conserved.head_unmarked valid)

private theorem displaced_parts {alloc : Allocation}
    (conserved : Conserved table retired (alloc :: queue))
    (valid : alloc.rdValid = true) {old : PrfIndex}
    (mapped : mapping retired alloc.rdArf = some old) :
    Committed retired old ∧ old ≠ 0 ∧ alloc.rdPrf ≠ old ∧
      old ∉ alloc.rdPrf :: destinations queue := by
  have committed : Committed retired old := ⟨_, mapped⟩
  have unused : old ∉ destinations (alloc :: queue) := fun member =>
    conserved.apart old member committed
  rw [destinations_cons, if_pos valid] at unused
  refine ⟨committed, ?_, ?_, unused⟩
  · rintro rfl
    exact conserved.committedNonzero committed
  · rintro rfl
    exact unused List.mem_cons_self

theorem retireOne_later {alloc : Allocation}
    (conserved : Conserved table retired (alloc :: queue))
    (linked : Linked retired alloc) (valid : alloc.rdValid = true)
    {old : PrfIndex} (mapped : mapping retired alloc.rdArf = some old) :
    Conserved (table.retireOne alloc.retirePort) (retired ++ [alloc])
      queue := by
  obtain ⟨distinct, -, -, -, apart, zero, zeroQueue⟩ :=
    retired_parts conserved valid
  obtain ⟨oldCommitted, oldNonzero, different, oldUnused⟩ :=
    displaced_parts conserved valid mapped
  have frees : alloc.prevValid = true := by
    rw [linked.prevValid valid, mapped]
    rfl
  have displaced : alloc.prev = old := by
    rw [linked.prev valid, mapped]
    rfl
  have list : (table.retireOne alloc.retirePort).freeList =
      { freeNum := table.freeList.freeNum + 1
        freeList := Function.update table.freeList.freeList old false
        prfRecoverNum := table.freeList.prfRecoverNum + 1 - 1
        prfRecover :=
          Function.update
            (Function.update table.freeList.prfRecover old false)
            alloc.rdPrf true } := by
    simp [MappingTable.retireOne, Allocation.retirePort, retireLane, valid,
      frees, displaced]
  have committed : ∀ prf, Committed (retired ++ [alloc]) prf ↔
      prf = alloc.rdPrf ∨ (Committed retired prf ∧ prf ≠ old) := by
    intro prf
    rw [committed_snoc conserved.injective valid, mapped]
    simp [eq_comm]
  refine ⟨?_, ?_, ?_, ?_, injective_snoc conserved valid, distinct, apart,
    zero, zeroQueue⟩
  · intro prf
    rw [list, committed]
    by_cases here : prf = old
    · subst here
      simp only [Function.update_self, Bool.false_eq_true, false_iff]
      rintro (isZero | (isNew | ⟨-, kept⟩) | member)
      · exact oldNonzero isZero
      · exact different isNew.symm
      · exact kept rfl
      · exact oldUnused (List.mem_cons_of_mem _ member)
    · simp only [Function.update_of_ne here]
      rw [conserved.busy, destinations_cons, if_pos valid]
      simp only [List.singleton_append, List.mem_cons]
      tauto
  · intro prf
    rw [list, committed]
    by_cases new : prf = alloc.rdPrf
    · simp [new]
    · by_cases here : prf = old
      · subst here
        simpa [new] using oldNonzero
      · simp [new, here, conserved.recover]
  · unfold Counted MappingTable.free
    rw [list]
    exact count_clear conserved.counted ((conserved.busy 0).mpr (.inl rfl))
      oldNonzero ((conserved.busy old).mpr (.inr (.inl oldCommitted)))
  · have newUnmarked : Function.update table.freeList.prfRecover old false
        alloc.rdPrf = false := by
      rw [Function.update_of_ne different]
      exact conserved.head_unmarked valid
    rw [list]
    exact count_set (count_clear conserved.recoverCounted
      ((conserved.recover 0).mpr (.inl rfl)) oldNonzero
      ((conserved.recover old).mpr (.inr oldCommitted))) newUnmarked

theorem retireOne {alloc : Allocation}
    (conserved : Conserved table retired (alloc :: queue))
    (linked : Linked retired alloc) :
    Conserved (table.retireOne alloc.retirePort) (retired ++ [alloc])
      queue := by
  cases valid : alloc.rdValid with
  | false => exact conserved.retireOne_idle linked valid
  | true =>
      cases mapped : mapping retired alloc.rdArf with
      | none => exact conserved.retireOne_first linked valid mapped
      | some old => exact conserved.retireOne_later linked valid mapped

/-- The counters move by natural numbers: neither the increment nor the
decrement wraps. -/
theorem retireOne_counts {alloc : Allocation}
    (conserved : Conserved table retired (alloc :: queue))
    (linked : Linked retired alloc) :
    (table.retireOne alloc.retirePort).freeList.freeNum.toNat =
        table.freeList.freeNum.toNat + (if alloc.prevValid then 1 else 0) ∧
      (table.retireOne alloc.retirePort).freeList.prfRecoverNum.toNat +
          (if alloc.rdValid then 1 else 0) =
        table.freeList.prfRecoverNum.toNat +
          (if alloc.prevValid then 1 else 0) := by
  have counted := conserved.counted
  have recoverCounted := conserved.recoverCounted
  have next := (conserved.retireOne linked).counted
  unfold Counted at counted next
  cases valid : alloc.rdValid with
  | false =>
      simp [MappingTable.retireOne, Allocation.retirePort, retireLane, valid,
        linked.idle valid]
  | true =>
      cases frees : alloc.prevValid with
      | false =>
          have some := length_freeRegisters_set (conserved.head_unmarked valid)
          have bound := table.freeList.prfRecoverNum.isLt
          simp only [MappingTable.retireOne, Allocation.retirePort,
            retireLane, valid, frees, if_true, Bool.false_eq_true, if_false]
          rw [BitVec.toNat_sub]
          simp only [BitVec.ofNat_eq_ofNat, BitVec.toNat_ofNat]
          omega
      | true =>
          -- the register given back is free afterwards, so the new count
          -- is not the zero that a wrap would give
          have given : (table.retireOne alloc.retirePort).free ≠ [] := by
            have member : alloc.prev ∈
                (table.retireOne alloc.retirePort).free := by
              refine mem_freeRegisters.mpr ?_
              simp [MappingTable.retireOne, Allocation.retirePort,
                retireLane, valid, frees]
            exact List.ne_nil_of_mem member
          have positive := List.length_pos_of_ne_nil given
          rw [← next] at positive
          simp only [MappingTable.retireOne, Allocation.retirePort,
            retireLane, valid, frees, if_true, BitVec.add_sub_cancel,
            BitVec.toNat_add, BitVec.ofNat_eq_ofNat, BitVec.toNat_ofNat,
            and_true] at positive ⊢
          have bound := table.freeList.freeNum.isLt
          omega

theorem retireAll {first : List Allocation}
    (conserved : Conserved table retired (first ++ queue))
    (chained : Chained (retired ++ (first ++ queue))) :
    Conserved ((first.map Allocation.retirePort).foldl
      MappingTable.retireOne table) (retired ++ first) queue := by
  induction first generalizing table retired with
  | nil => simpa using conserved
  | cons alloc rest induction =>
      have split : retired ++ (alloc :: rest ++ queue) =
          (retired ++ [alloc]) ++ (rest ++ queue) := by simp
      have next := induction (conserved.retireOne chained.linked)
        (split ▸ chained)
      simpa using next

theorem retireAll_counts {first : List Allocation}
    (conserved : Conserved table retired (first ++ queue))
    (chained : Chained (retired ++ (first ++ queue))) :
    ((first.map Allocation.retirePort).foldl MappingTable.retireOne
          table).freeList.freeNum.toNat =
        table.freeList.freeNum.toNat + first.countP Allocation.prevValid ∧
      ((first.map Allocation.retirePort).foldl MappingTable.retireOne
            table).freeList.prfRecoverNum.toNat +
          first.countP Allocation.rdValid =
        table.freeList.prfRecoverNum.toNat +
          first.countP Allocation.prevValid := by
  induction first generalizing table retired with
  | nil => exact ⟨rfl, rfl⟩
  | cons alloc rest induction =>
      have split : retired ++ (alloc :: rest ++ queue) =
          (retired ++ [alloc]) ++ (rest ++ queue) := by simp
      obtain ⟨free, recover⟩ := induction
        (conserved.retireOne chained.linked) (split ▸ chained)
      obtain ⟨oneFree, oneRecover⟩ := conserved.retireOne_counts chained.linked
      simp only [List.map_cons, List.foldl_cons, List.countP_cons]
      omega

/-! ### Rename and recovery -/

theorem renameOne_idle {port : RenamePort}
    (conserved : Conserved table retired queue)
    (idle : port.rdValid = false) :
    Conserved (table.renameOne port) retired
      (queue ++ [MapsAgree.made table port]) := by
  have same : table.renameOne port = table := by
    simp [MappingTable.renameOne, idle]
  have dests : destinations (queue ++ [MapsAgree.made table port]) =
      destinations queue := by
    simp [destinations_snoc, MapsAgree.made, idle]
  obtain ⟨busy, recover, counted, recoverCounted, injective, distinct,
    apart, committedNonzero, destinationsNonzero⟩ := conserved
  rw [same]
  exact ⟨by rwa [dests], recover, counted, recoverCounted, injective,
    by rwa [dests], by rwa [dests], committedNonzero, by rwa [dests]⟩

/-- The lowest free register is in no other part of the partition. -/
private theorem lowestFree_parts
    (conserved : Conserved table retired queue)
    (room : 0 < table.free.length) :
    table.freeList.freeList table.lowestFree = false ∧
      table.lowestFree ≠ 0 ∧ ¬ Committed retired table.lowestFree ∧
      table.lowestFree ∉ destinations queue := by
  obtain ⟨prf, rest, registers⟩ : ∃ prf rest, table.free = prf :: rest :=
    List.exists_cons_of_length_pos room
  have lowest : table.lowestFree = prf := by
    rw [lowestFree_eq, registers]
    rfl
  have idle : table.freeList.freeList prf = false := by
    refine mem_freeRegisters.mp ?_
    change prf ∈ table.free
    rw [registers]
    exact List.mem_cons_self
  have out := (conserved.busy prf).not.mp (by simp [idle])
  rw [lowest]
  refine ⟨idle, ?_, ?_, ?_⟩
  · exact fun isZero => out (.inl isZero)
  · exact fun committed => out (.inr (.inl committed))
  · exact fun member => out (.inr (.inr member))

theorem renameOne_taken {port : RenamePort}
    (conserved : Conserved table retired queue)
    (valid : port.rdValid = true) (room : 0 < table.free.length) :
    Conserved (table.renameOne port) retired
      (queue ++ [MapsAgree.made table port]) := by
  obtain ⟨idle, nonzero, uncommitted, unused⟩ :=
    lowestFree_parts conserved room
  have list : (table.renameOne port).freeList =
      { table.freeList with
        freeList :=
          Function.update table.freeList.freeList table.lowestFree true
        freeNum := table.freeList.freeNum - 1 } := by
    simp [MappingTable.renameOne, valid]
  have dests : destinations (queue ++ [MapsAgree.made table port]) =
      destinations queue ++ [table.lowestFree] := by
    simp [destinations_snoc, MapsAgree.made, valid, answer]
  refine ⟨?_, ?_, ?_, ?_, conserved.injective, ?_, ?_,
    conserved.committedNonzero, ?_⟩
  · intro other
    rw [list, dests]
    by_cases here : other = table.lowestFree
    · simp [here]
    · simp [here, conserved.busy]
  · intro other
    rw [list]
    exact conserved.recover other
  · unfold Counted MappingTable.free
    rw [list]
    exact count_set conserved.counted idle
  · rw [list]
    exact conserved.recoverCounted
  · rw [dests]
    exact List.nodup_append.mpr ⟨conserved.distinct,
      List.nodup_singleton _, fun _ member _ last same =>
        unused (List.mem_singleton.mp last ▸ same ▸ member)⟩
  · intro other member
    rw [dests] at member
    rcases List.mem_append.mp member with old | new
    · exact conserved.apart other old
    · rw [List.mem_singleton.mp new]
      exact uncommitted
  · rw [dests]
    intro member
    rcases List.mem_append.mp member with old | new
    · exact conserved.destinationsNonzero old
    · exact nonzero (List.mem_singleton.mp new).symm

theorem renameOne {port : RenamePort}
    (conserved : Conserved table retired queue)
    (room : port.rdValid = true → 0 < table.free.length) :
    Conserved (table.renameOne port) retired
      (queue ++ [MapsAgree.made table port]) := by
  cases valid : port.rdValid with
  | false => exact conserved.renameOne_idle valid
  | true => exact conserved.renameOne_taken valid (room valid)

theorem recovered (conserved : Conserved table retired queue) :
    Conserved table.recovered retired [] := by
  have none : ∀ prf, prf ∉ destinations [] := by
    intro prf member
    cases member
  refine ⟨?_, conserved.recover, ?_, conserved.recoverCounted,
    conserved.injective, List.Pairwise.nil, ?_, conserved.committedNonzero,
    none 0⟩
  · intro prf
    simp [MappingTable.recovered, FreeList.recovered, conserved.recover, none]
  · exact conserved.recoverCounted
  · intro prf member
    exact absurd member (none prf)

end Conserved

/-! ## Runs -/

/-- The tables agree with the history and the registers are conserved. -/
structure RenameInvariant (table : MappingTable)
    (retired queue : List Allocation) : Prop where
  agree : MapsAgree table retired queue
  conserved : Conserved table retired queue

namespace RenameSystem

variable {system : RenameSystem} {input : RenameInput}

theorem Allowed.retires (allowed : Allowed system input)
    (invariant : RenameInvariant system.rat system.retired system.queue) :
    RenameInvariant (system.afterRetire input)
      (system.retired ++ retiring input)
      (system.queue.drop (retiring input).length) := by
  obtain ⟨rest, split⟩ := allowed.front
  obtain ⟨agree, conserved⟩ := invariant
  rw [← split] at agree conserved
  have left : system.queue.drop (retiring input).length = rest := by
    rw [← split, List.drop_left]
  rw [afterRetire, retired_bundle, left]
  exact ⟨agree.retireAll, conserved.retireAll agree.chained⟩

theorem Allowed.renames (allowed : Allowed system input)
    (invariant : RenameInvariant system.rat system.retired system.queue)
    (fits : requests (groupPorts input.uopIn) 4 ≤
      (system.afterRetire input).free.length) (count : Nat)
    (bound : count ≤ 4) :
    RenameInvariant
      ((system.afterRetire input).before (groupPorts input.uopIn) count)
      (system.retired ++ retiring input)
      (system.queue.drop (retiring input).length ++
        joined (system.afterRetire input) input.uopIn count) := by
  refine before_invariant (system.afterRetire input) input.uopIn
    (fun table queue => RenameInvariant table
      (system.retired ++ retiring input) queue)
    (allowed.retires invariant) ?_ count bound
  rintro i current sofar valid here ⟨agree, conserved⟩
  have port : groupPorts input.uopIn i =
      { rdValid := (input.uopIn i).rdValid
        rs1 := (input.uopIn i).rs1ArfIntIndex
        rs2 := (input.uopIn i).rs2ArfIntIndex
        rd := (input.uopIn i).rdArfIntIndex } := by
    simp [groupPorts, MicroOp.renamePort, valid]
  constructor
  · refine agree.renameOne ?_
    rw [port]
    exact allowed.nonzero i valid
  · refine conserved.renameOne ?_
    intro requested
    have within := requests_within (groupPorts input.uopIn) i
    rw [if_pos requested] at within
    rw [here, before_free _ _ i.val (by omega), List.length_drop]
    omega

theorem Allowed.next (allowed : Allowed system input)
    (invariant : RenameInvariant system.rat system.retired system.queue) :
    RenameInvariant (system.next input).rat (system.next input).retired
      (system.next input).queue := by
  have retires := allowed.retires invariant
  rcases next_cases system input retires.conserved.counted with
    ⟨-, table, queue, -⟩ | ⟨-, table, queue, -⟩ | ⟨-, fits, table, queue, -⟩
  · rw [table, queue]
    exact ⟨retires.agree.recovered, retires.conserved.recovered⟩
  · rw [table, queue]
    exact retires
  · rw [table, queue]
    exact allowed.renames invariant fits 4 (by omega)

theorem reachable_invariant
    (run : Run RenameSystem.start RenameSystem.next Allowed system) :
    RenameInvariant system.rat system.retired system.queue := by
  apply run.invariant
    (fun system => RenameInvariant system.rat system.retired system.queue)
  · rintro state rfl
    exact ⟨MapsAgree.resetState, Conserved.resetState⟩
  · intro state input invariant allowed
    exact allowed.next invariant

/-! ## Every reachable state and every cycle -/

/-- The registers that `r_rat` and `arf_recover` mark as committed. -/
def committedRegister (table : MappingTable) (prf : PrfIndex) : Prop :=
  ∃ arf, arf ≠ 0 ∧ table.arfRecover arf = true ∧ table.rRat arf = prf

/-- The partition of the registers, read off the tables. -/
structure Partitioned (system : RenameSystem) : Prop where
  busy : ∀ prf, system.rat.freeList.freeList prf = true ↔
    prf = 0 ∨ committedRegister system.rat prf ∨
      prf ∈ destinations system.queue
  recover : ∀ prf, system.rat.freeList.prfRecover prf = true ↔
    prf = 0 ∨ committedRegister system.rat prf
  committedDistinct : ∀ first second, first ≠ 0 → second ≠ 0 →
    system.rat.arfRecover first = true →
    system.rat.arfRecover second = true →
    system.rat.rRat first = system.rat.rRat second → first = second
  destinationsDistinct : (destinations system.queue).Nodup
  apart : ∀ prf ∈ destinations system.queue,
    prf ≠ 0 ∧ ¬ committedRegister system.rat prf
  zero : ¬ committedRegister system.rat 0
  freeNum : system.rat.freeList.freeNum.toNat =
    (freeRegisters system.rat.freeList.freeList).length
  prfRecoverNum : system.rat.freeList.prfRecoverNum.toNat =
    (freeRegisters system.rat.freeList.prfRecover).length

/-- The registers of the free list after the first `count` retirement lanes. -/
def lanesRetired (system : RenameSystem) (input : RenameInput)
    (count : Nat) : FreeList :=
  (((List.ofFn input.uopRetire).take count).map
    MicroOp.retirePort).foldl retireLane system.rat.freeList

/-- What a cycle does to the counters, and the registers it hands out. -/
structure CycleConserves (system : RenameSystem) (input : RenameInput) :
    Prop where
  /-- Lane by lane, the counters move as natural numbers. -/
  retireCounts : ∀ count,
    (lanesRetired system input count).freeNum.toNat =
        system.rat.freeList.freeNum.toNat +
          (allocations ((List.ofFn input.uopRetire).take count)).countP
            Allocation.prevValid ∧
      (lanesRetired system input count).prfRecoverNum.toNat +
          (allocations ((List.ofFn input.uopRetire).take count)).countP
            Allocation.rdValid =
        system.rat.freeList.prfRecoverNum.toNat +
          (allocations ((List.ofFn input.uopRetire).take count)).countP
            Allocation.prevValid
  renameCounts : input.recover = false →
    (system.next input).rat.freeList.freeNum.toNat +
        (allocations (List.ofFn (system.uopOut input))).countP
          Allocation.rdValid =
      (lanesRetired system input 6).freeNum.toNat
  /-- A register handed out is free after the cycle's retirements. -/
  fresh : ∀ alloc ∈ allocations (List.ofFn (system.uopOut input)),
    alloc.rdValid = true →
      alloc.rdPrf ≠ 0 ∧
        (lanesRetired system input 6).freeList alloc.rdPrf = false
  different : (destinations
    (allocations (List.ofFn (system.uopOut input)))).Nodup

theorem committedRegister_iff {table : MappingTable}
    {retired queue : List Allocation} (agree : MapsAgree table retired queue)
    (prf : PrfIndex) :
    committedRegister table prf ↔ Committed retired prf := by
  constructor
  · rintro ⟨arf, nonzero, marked, mapped⟩
    have different : (arf == 0) = false := by simpa using nonzero
    rw [agree.arfRecover, different, Bool.false_or] at marked
    obtain ⟨other, written⟩ := Option.isSome_iff_exists.mp marked
    rw [agree.rRat, written] at mapped
    exact ⟨arf, by rw [written, ← mapped]; rfl⟩
  · rintro ⟨arf, mapped⟩
    refine ⟨arf, ?_, ?_, ?_⟩
    · rintro rfl
      rw [agree.chained.earlier.mapping_zero] at mapped
      cases mapped
    · rw [agree.arfRecover, mapped]
      simp
    · rw [agree.rRat, mapped]
      rfl

theorem partitioned
    (invariant : RenameInvariant system.rat system.retired system.queue) :
    Partitioned system := by
  obtain ⟨agree, conserved⟩ := invariant
  have same := committedRegister_iff agree
  refine ⟨?_, ?_, ?_, conserved.distinct, ?_, ?_, conserved.counted,
    conserved.recoverCounted⟩
  · intro prf
    rw [same]
    exact conserved.busy prf
  · intro prf
    rw [same]
    exact conserved.recover prf
  · intro first second firstNonzero secondNonzero firstMarked secondMarked
      equal
    have mapped : ∀ arf, arf ≠ 0 → system.rat.arfRecover arf = true →
        mapping system.retired arf = some (system.rat.rRat arf) := by
      intro arf nonzero marked
      have different : (arf == 0) = false := by simpa using nonzero
      rw [agree.arfRecover, different, Bool.false_or] at marked
      obtain ⟨prf, written⟩ := Option.isSome_iff_exists.mp marked
      rw [agree.rRat, written]
      rfl
    have firstMapped := mapped first firstNonzero firstMarked
    have secondMapped := mapped second secondNonzero secondMarked
    rw [equal] at firstMapped
    exact conserved.injective first second _ firstMapped secondMapped
  · intro prf member
    refine ⟨?_, ?_⟩
    · rintro rfl
      exact conserved.destinationsNonzero member
    · rw [same]
      exact conserved.apart prf member
  · rw [same]
    exact conserved.committedNonzero

theorem lanesRetired_eq (system : RenameSystem) (input : RenameInput)
    (count : Nat) :
    lanesRetired system input count =
      (((allocations ((List.ofFn input.uopRetire).take count)).map
        Allocation.retirePort).foldl MappingTable.retireOne
          system.rat).freeList := by
  rw [← retire_lanes, retireAll_freeList]
  rfl

theorem lanesRetired_all (system : RenameSystem) (input : RenameInput) :
    lanesRetired system input 6 = (system.afterRetire input).freeList := by
  rw [lanesRetired_eq, afterRetire, retired_bundle,
    List.take_of_length_le (by simp)]

theorem joined_requests (table : MappingTable) (uopIn : Fin 4 → MicroOp)
    (count : Nat) (bound : count ≤ 4) :
    (joined table uopIn count).countP Allocation.rdValid =
      requests (groupPorts uopIn) count := by
  induction count with
  | zero => rfl
  | succ count induction =>
      have joins := joined_succ table uopIn ⟨count, bound⟩
      have more := requests_succ (groupPorts uopIn) ⟨count, bound⟩
      simp only at joins more
      rw [joins, more, List.countP_append, induction (by omega)]
      by_cases valid : (uopIn ⟨count, bound⟩).valid = true
      · rw [if_pos valid, List.countP_singleton]
        rfl
      · simp [groupPorts, MicroOp.renamePort, valid]

theorem uopOut_cases (allowed : Allowed system input)
    (invariant : RenameInvariant system.rat system.retired system.queue) :
    allocations (List.ofFn (system.uopOut input)) = [] ∨
      (requests (groupPorts input.uopIn) 4 ≤
          (system.afterRetire input).free.length ∧
        allocations (List.ofFn (system.uopOut input)) =
          joined (system.afterRetire input) input.uopIn 4) := by
  have retires := allowed.retires invariant
  have empty : (∀ i, system.uopOut input i = 0) →
      allocations (List.ofFn (system.uopOut input)) = [] := by
    intro zero
    rw [show system.uopOut input = fun _ => 0 from funext zero]
    rfl
  rcases next_cases system input retires.conserved.counted with
    ⟨-, -, -, out⟩ | ⟨-, -, -, out⟩ | ⟨-, fits, -, -, out⟩
  · exact .inl (empty out)
  · exact .inl (empty out)
  · refine .inr ⟨fits, ?_⟩
    rw [out, joined, List.take_of_length_le (by simp)]

theorem Allowed.retireCounts (allowed : Allowed system input)
    (invariant : RenameInvariant system.rat system.retired system.queue)
    (count : Nat) :
    (lanesRetired system input count).freeNum.toNat =
        system.rat.freeList.freeNum.toNat +
          (allocations ((List.ofFn input.uopRetire).take count)).countP
            Allocation.prevValid ∧
      (lanesRetired system input count).prfRecoverNum.toNat +
          (allocations ((List.ofFn input.uopRetire).take count)).countP
            Allocation.rdValid =
        system.rat.freeList.prfRecoverNum.toNat +
          (allocations ((List.ofFn input.uopRetire).take count)).countP
            Allocation.prevValid := by
  obtain ⟨rest, split⟩ : allocations
      ((List.ofFn input.uopRetire).take count) <+: system.queue := by
    have lanes := List.take_prefix count (List.ofFn input.uopRetire)
    exact ((lanes.filter _).map _).trans allowed.front
  rw [lanesRetired_eq]
  obtain ⟨agree, conserved⟩ := invariant
  rw [← split] at agree conserved
  exact conserved.retireAll_counts agree.chained

theorem Allowed.renameCounts (allowed : Allowed system input)
    (invariant : RenameInvariant system.rat system.retired system.queue)
    (runs : input.recover = false) :
    (system.next input).rat.freeList.freeNum.toNat +
        (allocations (List.ofFn (system.uopOut input))).countP
          Allocation.rdValid =
      (lanesRetired system input 6).freeNum.toNat := by
  have retires := allowed.retires invariant
  have counted := retires.conserved.counted
  unfold Counted at counted
  rw [lanesRetired_all, counted]
  rcases next_cases system input retires.conserved.counted with
    ⟨recovers, -⟩ | ⟨-, table, -, out⟩ | ⟨-, fits, table, -, out⟩
  · rw [recovers] at runs
    cases runs
  · rw [table, counted, show system.uopOut input = fun _ => 0 from
      funext out]
    rfl
  · have group : allocations (List.ofFn (system.uopOut input)) =
        joined (system.afterRetire input) input.uopIn 4 := by
      rw [out, joined, List.take_of_length_le (by simp)]
    have last := (allowed.renames invariant fits 4 (by omega)).conserved.counted
    unfold Counted at last
    rw [table, last, group, joined_requests _ _ 4 (by omega),
      before_free _ _ 4 (by omega), List.length_drop]
    omega

/-- The registers handed out differ from each other, from those in flight and
from the committed ones. -/
theorem Allowed.handsOut (allowed : Allowed system input)
    (invariant : RenameInvariant system.rat system.retired system.queue) :
    (∀ prf ∈ destinations (allocations (List.ofFn (system.uopOut input))),
      prf ≠ 0 ∧ (lanesRetired system input 6).freeList prf = false) ∧
      (destinations
        (allocations (List.ofFn (system.uopOut input)))).Nodup := by
  have retires := allowed.retires invariant
  rcases uopOut_cases allowed invariant with none | ⟨fits, group⟩
  · rw [none]
    exact ⟨fun prf member => absurd member List.not_mem_nil,
      List.Pairwise.nil⟩
  · have last := (allowed.renames invariant fits 4 (by omega)).conserved
    have distinct := last.distinct
    rw [destinations_append] at distinct
    rw [group]
    refine ⟨?_, (List.nodup_append.mp distinct).2.1⟩
    intro prf member
    have listed : prf ∈ destinations
        (system.queue.drop (retiring input).length ++
          joined (system.afterRetire input) input.uopIn 4) := by
      rw [destinations_append]
      exact List.mem_append_right _ member
    have nonzero : prf ≠ 0 := by
      intro zero
      exact last.destinationsNonzero (zero ▸ listed)
    refine ⟨nonzero, ?_⟩
    rw [lanesRetired_all, ← Bool.not_eq_true, retires.conserved.busy]
    rintro (zero | committed | older)
    · exact nonzero zero
    · exact last.apart _ listed committed
    · exact List.disjoint_of_nodup_append distinct older member

theorem Allowed.cycleConserves (allowed : Allowed system input)
    (invariant : RenameInvariant system.rat system.retired system.queue) :
    CycleConserves system input where
  retireCounts := allowed.retireCounts invariant
  renameCounts := allowed.renameCounts invariant
  fresh := by
    intro alloc member valid
    apply (allowed.handsOut invariant).1
    exact List.mem_map.mpr ⟨alloc, List.mem_filter.mpr ⟨member, valid⟩, rfl⟩
  different := (allowed.handsOut invariant).2

/-- In every reachable state the busy registers are register 0, the committed
ones and the destinations in flight, all different, and the counters count
the others; no cycle lets a counter wrap or hands out a busy register. -/
theorem registers_conserved
    (run : Run RenameSystem.start RenameSystem.next Allowed system) :
    Partitioned system ∧
      ∀ input, Allowed system input → CycleConserves system input := by
  have invariant := reachable_invariant run
  exact ⟨partitioned invariant,
    fun input allowed => allowed.cycleConserves invariant⟩

/-- A cycle whose lane 0 renames a write of `x1` that reads `x1`. -/
def writeX1 : RenameInput :=
  { recover := false
    uopRetire := fun _ => 0
    uopIn := fun i =>
      if i = 0 then
        { (0 : MicroOp) with
          valid := true, rdValid := true, rdArfIntIndex := 1
          rs1ArfIntIndex := 1 }
      else 0 }

theorem writeX1_allowed (system : RenameSystem) : Allowed system writeX1 := by
  refine ⟨List.nil_prefix, ?_, ?_⟩
  · decide
  · intro recovers
    cases recovers

/-- The uops that two such cycles put out after reset. -/
def renamedX1 : Fin 2 → MicroOp
  | 0 => RenameSystem.uopOut ⟨.resetState, [], []⟩ writeX1 0
  | 1 => (RenameSystem.next ⟨.resetState, [], []⟩ writeX1).uopOut writeX1 0

/-- A cycle that retires one of them. -/
def retireX1 (which : Fin 2) : RenameInput :=
  { writeX1 with uopRetire := fun i => if i = 0 then renamedX1 which else 0 }

/-- Three renames of `x1`, of which the first two retire, the second in the
cycle of a recovery that drops the third; and one more. -/
def cyclesX1 : List RenameInput :=
  [writeX1, writeX1, retireX1 0,
    { retireX1 1 with recover := true, uopIn := fun _ => 0 }, writeX1]

theorem registers_conserved_recovered :
    let system := cyclesX1.foldl RenameSystem.next ⟨.resetState, [], []⟩
    Partitioned system ∧ system.retired.map Allocation.rdPrf = [1, 2] ∧
      destinations system.queue = [1] := by
  intro system
  have reset : Run RenameSystem.start RenameSystem.next Allowed
      ⟨.resetState, [], []⟩ := .start rfl
  have run : Run RenameSystem.start RenameSystem.next Allowed system :=
    reset.through (by decide +kernel)
  exact ⟨(registers_conserved run).1, by decide +kernel, by decide +kernel⟩

end RenameSystem

end Ria
