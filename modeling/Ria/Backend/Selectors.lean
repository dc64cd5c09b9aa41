import Ria.Backend.IssueQueueInt
import Ria.Backend.IssueQueueMem
import Ria.Library.PriorityCasez

/-!
# Issue selectors

The `casez` tables of the two selector modules, with the bits an item writes
out and their values in hexadecimal.  Both grant the lowest requests; the
queues of the model pick through `Hdl.select`, which is what they compute.
-/

namespace Ria

open Hdl

/-- The ports `sel` and `sel_valid` of a selector. -/
structure Selection (requests index : Nat) where
  sel : Fin requests → BitVec index
  selValid : Fin requests → Bool

/-! ## The modules -/

/-- The items `32'b?..?1` to `32'b10..0`. -/
def selItems : List (CasezItem 32 (BitVec 5)) :=
  [ ⟨0x00000001, 0x00000001, 0b00000⟩,
    ⟨0x00000003, 0x00000002, 0b00001⟩,
    ⟨0x00000007, 0x00000004, 0b00010⟩,
    ⟨0x0000000f, 0x00000008, 0b00011⟩,
    ⟨0x0000001f, 0x00000010, 0b00100⟩,
    ⟨0x0000003f, 0x00000020, 0b00101⟩,
    ⟨0x0000007f, 0x00000040, 0b00110⟩,
    ⟨0x000000ff, 0x00000080, 0b00111⟩,
    ⟨0x000001ff, 0x00000100, 0b01000⟩,
    ⟨0x000003ff, 0x00000200, 0b01001⟩,
    ⟨0x000007ff, 0x00000400, 0b01010⟩,
    ⟨0x00000fff, 0x00000800, 0b01011⟩,
    ⟨0x00001fff, 0x00001000, 0b01100⟩,
    ⟨0x00003fff, 0x00002000, 0b01101⟩,
    ⟨0x00007fff, 0x00004000, 0b01110⟩,
    ⟨0x0000ffff, 0x00008000, 0b01111⟩,
    ⟨0x0001ffff, 0x00010000, 0b10000⟩,
    ⟨0x0003ffff, 0x00020000, 0b10001⟩,
    ⟨0x0007ffff, 0x00040000, 0b10010⟩,
    ⟨0x000fffff, 0x00080000, 0b10011⟩,
    ⟨0x001fffff, 0x00100000, 0b10100⟩,
    ⟨0x003fffff, 0x00200000, 0b10101⟩,
    ⟨0x007fffff, 0x00400000, 0b10110⟩,
    ⟨0x00ffffff, 0x00800000, 0b10111⟩,
    ⟨0x01ffffff, 0x01000000, 0b11000⟩,
    ⟨0x03ffffff, 0x02000000, 0b11001⟩,
    ⟨0x07ffffff, 0x04000000, 0b11010⟩,
    ⟨0x0fffffff, 0x08000000, 0b11011⟩,
    ⟨0x1fffffff, 0x10000000, 0b11100⟩,
    ⟨0x3fffffff, 0x20000000, 0b11101⟩,
    ⟨0x7fffffff, 0x40000000, 0b11110⟩,
    ⟨0xffffffff, 0x80000000, 0b11111⟩ ]

/-- `issue_queue_int_selector` -/
def issueQueueIntSelector (requests : Nat) (ready : BitVec 32) :
    Selection requests 5 :=
  { sel := fun i => (grantOf selItems ready i.val).sel
    selValid := fun i => (grantOf selItems ready i.val).selValid }

/-- The items of the `casez` on `is_store`; the first two assign the same. -/
def storeMaskItems : List (CasezItem 16 (BitVec 16)) :=
  [ ⟨0x0001, 0x0001, 0b1111111111111110⟩,
    ⟨0x0003, 0x0002, 0b1111111111111110⟩,
    ⟨0x0007, 0x0004, 0b1111111111111100⟩,
    ⟨0x000f, 0x0008, 0b1111111111111000⟩,
    ⟨0x001f, 0x0010, 0b1111111111110000⟩,
    ⟨0x003f, 0x0020, 0b1111111111100000⟩,
    ⟨0x007f, 0x0040, 0b1111111111000000⟩,
    ⟨0x00ff, 0x0080, 0b1111111110000000⟩,
    ⟨0x01ff, 0x0100, 0b1111111100000000⟩,
    ⟨0x03ff, 0x0200, 0b1111111000000000⟩,
    ⟨0x07ff, 0x0400, 0b1111110000000000⟩,
    ⟨0x0fff, 0x0800, 0b1111100000000000⟩,
    ⟨0x1fff, 0x1000, 0b1111000000000000⟩,
    ⟨0x3fff, 0x2000, 0b1110000000000000⟩,
    ⟨0x7fff, 0x4000, 0b1100000000000000⟩,
    ⟨0xffff, 0x8000, 0b1000000000000000⟩ ]

/-- The items `16'b?..?1` to `16'b10..0`. -/
def outputSelItems : List (CasezItem 16 (BitVec 4)) :=
  [ ⟨0x0001, 0x0001, 0b0000⟩,
    ⟨0x0003, 0x0002, 0b0001⟩,
    ⟨0x0007, 0x0004, 0b0010⟩,
    ⟨0x000f, 0x0008, 0b0011⟩,
    ⟨0x001f, 0x0010, 0b0100⟩,
    ⟨0x003f, 0x0020, 0b0101⟩,
    ⟨0x007f, 0x0040, 0b0110⟩,
    ⟨0x00ff, 0x0080, 0b0111⟩,
    ⟨0x01ff, 0x0100, 0b1000⟩,
    ⟨0x03ff, 0x0200, 0b1001⟩,
    ⟨0x07ff, 0x0400, 0b1010⟩,
    ⟨0x0fff, 0x0800, 0b1011⟩,
    ⟨0x1fff, 0x1000, 0b1100⟩,
    ⟨0x3fff, 0x2000, 0b1101⟩,
    ⟨0x7fff, 0x4000, 0b1110⟩,
    ⟨0xffff, 0x8000, 0b1111⟩ ]

/-- `issue_queue_mem_output_selector`, with `ISSUE_WIDTH_MEM` outputs. -/
def issueQueueMemOutputSelector (ready isStore : BitVec 16) : Selection 1 4 :=
  let storeMask := (casez storeMaskItems isStore).getD 0
  { sel := fun i => (grantOf outputSelItems (ready &&& ~~~storeMask) i.val).sel
    selValid := fun i =>
      (grantOf outputSelItems (ready &&& ~~~storeMask) i.val).selValid }

/-! ## The tables -/

theorem selItems_eq : selItems = priorityTable fun i => BitVec.ofNat 5 i.val :=
  rfl

theorem outputSelItems_eq :
    outputSelItems = priorityTable fun i => BitVec.ofNat 4 i.val :=
  rfl

/-- What `store_mask` is for a first store in the slot. -/
def maskFrom (first : Fin 16) : BitVec 16 :=
  if first.val = 0 then 0xfffe else 0xffff <<< first.val

theorem storeMaskItems_eq : storeMaskItems = priorityTable maskFrom :=
  rfl

theorem getLsb_maskFrom : ∀ first i : Fin 16,
    (maskFrom first).getLsb i =
      if first = 0 then i != 0 else decide (first ≤ i) := by
  decide

theorem getLsb_storeMask (isStore : BitVec 16) (i : Fin 16) :
    ((casez storeMaskItems isStore).getD 0).getLsb i =
      storeMask isStore.getLsb i := by
  rw [storeMaskItems_eq, casez_priorityTable, storeMask]
  cases lowest isStore.getLsb with
  | none => simp
  | some first =>
      refine (getLsb_maskFrom first i).trans ?_
      by_cases zero : first = 0
      · simp [zero]
      · simp [zero]

theorem grantOf_selItems (ready : BitVec 32) (i : Nat) :
    grantOf selItems ready i = .of (select ready.getLsb i) :=
  grantOf_eq selItems_eq (by decide) ready i

theorem grantOf_outputSelItems (ready : BitVec 16) (i : Nat) :
    grantOf outputSelItems ready i = .of (select ready.getLsb i) :=
  grantOf_eq outputSelItems_eq (by decide) ready i

/-! ## What the queues pick -/

section Queues

variable {ready isStore : BitVec 16} {requests : BitVec 32}

theorem issueQueueInt_outputSel (queue : IssueQueueInt) (busy : BusyPorts 32)
    (aluBr : requests.getLsb = queue.readyAluBr busy) :
    grantOf selItems requests 0 = .of (queue.outputSel busy 0) ∧
      grantOf selItems requests 1 = .of (queue.outputSel busy 1) := by
  rw [grantOf_selItems, grantOf_selItems, aluBr]
  exact ⟨rfl, rfl⟩

theorem issueQueueInt_outputSel_last (queue : IssueQueueInt)
    (busy : BusyPorts 32)
    (imulIdiv : requests.getLsb = queue.readyImulIdiv busy) :
    grantOf selItems requests 0 = .of (queue.outputSel busy 2) := by
  rw [grantOf_selItems, imulIdiv]
  rfl

theorem issueQueueMem_outputSel (queue : IssueQueueMem) (busy : BusyPorts 16)
    (readyBits : ready.getLsb = queue.ready busy)
    (storeBits : isStore.getLsb = queue.isStore) :
    grantOf outputSelItems
        (ready &&& ~~~(casez storeMaskItems isStore).getD 0) 0 =
      .of (queue.outputSel busy) := by
  have left : (ready &&& ~~~(casez storeMaskItems isStore).getD 0).getLsb =
      fun i => queue.ready busy i && !storeMask queue.isStore i := by
    funext i
    rw [← readyBits, ← storeBits, ← getLsb_storeMask]
    simp
  rw [grantOf_outputSelItems, left, IssueQueueMem.outputSel]

end Queues

/-! ## Granting the lowest requests -/

/-- The position holds the first store. -/
def FirstStore (isStore : BitVec 16) (position : Nat) : Prop :=
  isStore.getLsbD position = true ∧
    ∀ below < position, isStore.getLsbD below = false

/-- A ready position below the first store, or the first store itself at
position 0. -/
def Issuable (ready isStore : BitVec 16) (position : Nat) : Prop :=
  ready.getLsbD position = true ∧
    ((∀ first, FirstStore isStore first → position < first) ∨
      (FirstStore isStore position ∧ position = 0))

/-- An output is valid while set bits are left, and then its index has as many
set bits below as outputs come before it. -/
theorem grantOf_selItems_spec (ready : BitVec 32) (i : Nat) :
    ((grantOf selItems ready i).selValid = true ↔ i < setBelow ready 32) ∧
      (i < setBelow ready 32 →
        ready.getLsbD (grantOf selItems ready i).sel.toNat = true ∧
          setBelow ready (grantOf selItems ready i).sel.toNat = i) := by
  rw [grantOf_selItems, Grant.selValid_of]
  refine ⟨isSome_select_iff ready i, ?_⟩
  intro more
  obtain ⟨k, picked⟩ :=
    Option.isSome_iff_exists.mp ((isSome_select_iff ready i).mpr more)
  rw [picked, Grant.toNat_sel_of (by decide)]
  exact ⟨ready_of_select picked, setBelow_of_select picked⟩

theorem firstStore_iff {isStore : BitVec 16} {position : Nat} :
    FirstStore isStore position ↔
      ∃ first, lowest isStore.getLsb = some first ∧ first.val = position := by
  constructor
  · rintro ⟨set, clear⟩
    have within := BitVec.lt_of_getLsbD set
    cases picked : lowest isStore.getLsb with
    | none =>
        have unset := lowest_eq_none.mp picked ⟨position, within⟩
        exact absurd (set.symm.trans unset) (by decide)
    | some first =>
        obtain ⟨here, before⟩ := lowest_eq_some picked
        refine ⟨first, rfl, ?_⟩
        rcases lt_trichotomy first.val position with below | same | above
        · have unset := clear first.val below
          exact absurd (unset.symm.trans here) (by decide)
        · exact same
        · have unset := before ⟨position, within⟩ above
          exact absurd (set.symm.trans unset) (by decide)
  · rintro ⟨first, picked, rfl⟩
    obtain ⟨here, before⟩ := lowest_eq_some picked
    exact ⟨here, fun below less =>
      before ⟨below, lt_trans less first.isLt⟩ less⟩

/-- The mask spares what lies below the first store, and a first store at
position 0. -/
theorem storeMask_eq_false {isStore : BitVec 16} {i : Fin 16} :
    storeMask isStore.getLsb i = false ↔
      (∀ first, FirstStore isStore first → i.val < first) ∨
        (FirstStore isStore i.val ∧ i.val = 0) := by
  simp only [firstStore_iff, storeMask]
  cases lowest isStore.getLsb with
  | none => simp
  | some first =>
      by_cases zero : first = 0
      · subst zero
        simp only [if_true, Option.some.injEq]
        constructor
        · intro unset
          have same : i = 0 := by simpa using unset
          right
          exact ⟨⟨0, rfl, congrArg Fin.val same.symm⟩, congrArg Fin.val same⟩
        · rintro (below | ⟨-, same⟩)
          · exact absurd (below 0 ⟨0, rfl, rfl⟩) (Nat.not_lt_zero _)
          · simpa using Fin.ext same
      · have later : first.val ≠ 0 := fun eq => zero (Fin.ext eq)
        simp only [zero, if_false, Option.some.injEq]
        constructor
        · intro unset
          left
          rintro _ ⟨_, rfl, rfl⟩
          simpa using unset
        · rintro (below | ⟨⟨_, rfl, same⟩, atZero⟩)
          · simpa using below first.val ⟨first, rfl, rfl⟩
          · omega

theorem issuable_iff (ready isStore : BitVec 16) (i : Fin 16) :
    (ready &&& ~~~(casez storeMaskItems isStore).getD 0).getLsb i = true ↔
      Issuable ready isStore i.val := by
  rw [Issuable, ← storeMask_eq_false, ← getLsb_storeMask]
  simp [BitVec.getLsbD_eq_getElem]

theorem outputSelector_grant (ready isStore : BitVec 16) :
    let left := ready &&& ~~~(casez storeMaskItems isStore).getD 0
    issueQueueMemOutputSelector ready isStore =
      { sel := fun _ => (Grant.of (lowest left.getLsb) : Grant 4).sel
        selValid := fun _ => (lowest left.getLsb).isSome } := by
  intro left
  have first := grantOf_outputSelItems left 0
  rw [issueQueueMemOutputSelector, Selection.mk.injEq]
  constructor
  · funext i
    rw [Fin.val_eq_zero i, first]
    rfl
  · funext i
    rw [Fin.val_eq_zero i, first]
    exact Grant.selValid_of _

theorem outputSelector_valid (ready isStore : BitVec 16) :
    (issueQueueMemOutputSelector ready isStore).selValid 0 = true ↔
      ∃ position, Issuable ready isStore position := by
  rw [outputSelector_grant]
  cases picked : lowest (ready &&&
      ~~~(casez storeMaskItems isStore).getD 0).getLsb with
  | none =>
      suffices ∀ position, ¬ Issuable ready isStore position by simpa using this
      intro position issuable
      have within := BitVec.lt_of_getLsbD issuable.1
      have set := (issuable_iff ready isStore ⟨position, within⟩).mpr issuable
      rw [lowest_eq_none.mp picked] at set
      contradiction
  | some i =>
      have issuable :=
        (issuable_iff ready isStore i).mp (lowest_eq_some picked).1
      exact iff_of_true rfl ⟨i.val, issuable⟩

theorem outputSelector_lowest (ready isStore : BitVec 16)
    (valid : (issueQueueMemOutputSelector ready isStore).selValid 0 = true) :
    Issuable ready isStore
        ((issueQueueMemOutputSelector ready isStore).sel 0).toNat ∧
      ∀ position <
        ((issueQueueMemOutputSelector ready isStore).sel 0).toNat,
          ¬ Issuable ready isStore position := by
  rw [outputSelector_grant] at valid ⊢
  obtain ⟨i, picked⟩ := Option.isSome_iff_exists.mp valid
  obtain ⟨here, before⟩ := lowest_eq_some picked
  simp only [picked, Grant.toNat_sel_of (show 16 ≤ 2 ^ 4 by decide)]
  refine ⟨(issuable_iff ready isStore i).mp here, ?_⟩
  intro position below issuable
  have within := BitVec.lt_of_getLsbD issuable.1
  have set := (issuable_iff ready isStore ⟨position, within⟩).mpr issuable
  rw [before ⟨position, within⟩ below] at set
  contradiction

/-- The multi-grant selectors grant the lowest requests. -/
theorem selectors_grant_lowest :
    (∀ (requests : Nat) (ready : BitVec 32),
      let out := issueQueueIntSelector requests ready
      let granted := min requests (setBelow ready 32)
      (∀ i, out.selValid i = true ↔ i.val < granted) ∧
      (∀ i, i.val < granted →
        ready.getLsbD (out.sel i).toNat = true ∧
          setBelow ready (out.sel i).toNat = i.val) ∧
      (∀ i j, i < j → j.val < granted →
        (out.sel i).toNat < (out.sel j).toNat)) ∧
    (∀ ready isStore : BitVec 16,
      let out := issueQueueMemOutputSelector ready isStore
      (out.selValid 0 = true ↔ ∃ position, Issuable ready isStore position) ∧
      (out.selValid 0 = true →
        Issuable ready isStore (out.sel 0).toNat ∧
          ∀ position < (out.sel 0).toNat,
            ¬ Issuable ready isStore position)) := by
  constructor
  · intro requests ready out granted
    have spec := fun i : Fin requests => grantOf_selItems_spec ready i.val
    refine ⟨?_, ?_, ?_⟩
    · intro i
      rw [lt_min_iff, and_iff_right i.isLt]
      exact (spec i).1
    · intro i within
      exact (spec i).2 (lt_of_lt_of_le within (min_le_right _ _))
    · intro i j below within
      have reached := lt_of_lt_of_le within (min_le_right _ _)
      have one := ((spec i).2 (lt_trans below reached)).2
      have other := ((spec j).2 reached).2
      by_contra above
      have ordered : setBelow ready (out.sel j).toNat ≤
          setBelow ready (out.sel i).toNat :=
        Nat.count_monotone _ (not_lt.mp above)
      have order : j.val ≤ i.val := one ▸ other ▸ ordered
      exact absurd below (not_lt.mpr order)
  · intro ready isStore out
    exact ⟨outputSelector_valid ready isStore,
      outputSelector_lowest ready isStore⟩

theorem selectors_grant_lowest_two :
    ((issueQueueIntSelector 2 0x1a).sel 0).toNat <
      ((issueQueueIntSelector 2 0x1a).sel 1).toNat :=
  (selectors_grant_lowest.1 2 0x1a).2.2 0 1 (by decide) (by decide)

end Ria
