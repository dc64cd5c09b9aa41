import Ria.Library.Loop
import Ria.Library.RingBuffer

/-!
# Fall-through FIFO

`fifo` over a dual-ported memory with synchronous reads, and `Placed`, what
its pointers and its memory say about the items that are stored.  The memory
is read one word ahead; the word at the head comes from the read register
after a dequeue and from `read_buffer_reg` otherwise.
-/

namespace Ria

open Hdl RingBuffer

/-- One port of `XILINX_SYNC_RAM_DP`. -/
structure RamPort (addrWidth dataWidth : Nat) where
  addr : BitVec addrWidth
  we : Bool
  d : BitVec dataWidth

/-- `XILINX_SYNC_RAM_DP`: the words and the two read registers. -/
structure SyncRam (addrWidth dataWidth : Nat) where
  mem : BitVec addrWidth → BitVec dataWidth
  read0 : BitVec dataWidth
  read1 : BitVec dataWidth

namespace SyncRam

variable {addrWidth dataWidth : Nat}

def write (mem : BitVec addrWidth → BitVec dataWidth)
    (port : RamPort addrWidth dataWidth) :
    BitVec addrWidth → BitVec dataWidth :=
  if port.we then Function.update mem port.addr port.d else mem

/-- A read gives the word from before the writes of the cycle. -/
def next (ram : SyncRam addrWidth dataWidth) (rst : Bool)
    (port0 port1 : RamPort addrWidth dataWidth) :
    SyncRam addrWidth dataWidth :=
  { mem := write (write ram.mem port0) port1
    read0 := if rst then 0 else ram.mem port0.addr
    read1 := if rst then 0 else ram.mem port1.addr }

end SyncRam

/-- The inputs of `fifo`. -/
structure FifoInput (width : Nat) where
  rst : Bool
  enqValid : Bool
  enqData : BitVec width
  deqReady : Bool

/-- The registers of `fifo`. -/
structure Fifo (logDepth width : Nat) where
  rptr : BitVec logDepth
  wptr : BitVec logDepth
  full : Bool
  buffer : SyncRam logDepth width
  addrCollision : Bool
  lastDeqFire : Bool
  readBuffer : BitVec width

namespace Fifo

variable {logDepth width : Nat}

section Signals

variable (fifo : Fifo logDepth width) (input : FifoInput width)

def fifoEmpty : Bool := !fifo.full && fifo.wptr == fifo.rptr

def enqReady : Bool := !fifo.full

def deqValid : Bool := !fifo.fifoEmpty

def enqFire : Bool := input.enqValid && fifo.enqReady

def deqFire : Bool := fifo.deqValid && input.deqReady

def fullNext : Bool := fifo.enqFire input && fifo.wptr + 1 == fifo.rptr

def addrCollisionNext : Bool :=
  fifo.enqFire input && fifo.rptr + 1 == fifo.wptr

/-- `read_buffer_reg_ce` -/
def readBufferCe : Bool :=
  (!fifo.deqFire input && fifo.lastDeqFire) ||
    (fifo.enqFire input && fifo.fifoEmpty) ||
    (fifo.addrCollisionNext input && fifo.deqFire input)

/-- `read_buffer_reg_next` -/
def readBufferNext : BitVec width :=
  if fifo.fifoEmpty || fifo.addrCollisionNext input then input.enqData
  else fifo.buffer.read0

def deqData : BitVec width :=
  if fifo.lastDeqFire && !fifo.addrCollision then fifo.buffer.read0
  else fifo.readBuffer

def next : Fifo logDepth width :=
  { rptr :=
      if input.rst then 0
      else if fifo.deqFire input then fifo.rptr + 1 else fifo.rptr
    wptr :=
      if input.rst then 0
      else if fifo.enqFire input then fifo.wptr + 1 else fifo.wptr
    full :=
      if input.rst then false
      else if fifo.enqFire input || fifo.deqFire input then
        fifo.fullNext input
      else fifo.full
    buffer := fifo.buffer.next input.rst
      { addr := fifo.rptr + 1, we := false, d := 0 }
      { addr := fifo.wptr, we := fifo.enqFire input && !fifo.full
        d := input.enqData }
    addrCollision := fifo.addrCollisionNext input
    lastDeqFire := fifo.deqFire input
    readBuffer :=
      if input.rst then 0
      else if fifo.readBufferCe input then fifo.readBufferNext input
      else fifo.readBuffer }

end Signals

/-- The pointers and the memory for the items that are stored, oldest
first. -/
structure Placed (fifo : Fifo logDepth width) (items : List (BitVec width)) :
    Prop where
  bound : items.length ≤ 2 ^ logDepth
  wptr : fifo.wptr = fifo.rptr + BitVec.ofNat logDepth items.length
  ring : Holds fifo.buffer.mem fifo.rptr items

/-- `full` says whether there is no room. -/
def FullOk (fifo : Fifo logDepth width) (items : List (BitVec width)) : Prop :=
  fifo.full = decide (items.length = 2 ^ logDepth)

/-- `deq_data` is the oldest item. -/
def HeadOk (fifo : Fifo logDepth width) (items : List (BitVec width)) : Prop :=
  ∀ item ∈ items.head?, fifo.deqData = item

/-- What is stored after a cycle. -/
def itemsNext (fifo : Fifo logDepth width) (input : FifoInput width)
    (items : List (BitVec width)) : List (BitVec width) :=
  (if fifo.deqFire input then items.tail else items) ++
    if fifo.enqFire input then [input.enqData] else []

/-- In a cycle after a dequeue that dequeues nothing, the word loaded into
`read_buffer_reg` is the oldest item: the one enqueued if it comes behind a
single item, else the word read from the memory, which may be stale when it
was read from the address just written. -/
def Reloads (fifo : Fifo logDepth width) (input : FifoInput width)
    (items : List (BitVec width)) : Prop :=
  fifo.lastDeqFire = true → fifo.deqFire input = false →
    ∀ oldest ∈ items.head?,
      ((fifo.enqFire input = true ∧ items.length = 1) →
        input.enqData = oldest) ∧
      (¬ (fifo.enqFire input = true ∧ items.length = 1) →
        fifo.addrCollision = true → fifo.buffer.read0 = oldest)

/-- `Reloads`, evaluated. -/
def reloads (fifo : Fifo logDepth width) (input : FifoInput width)
    (items : List (BitVec width)) : Bool :=
  !fifo.lastDeqFire || fifo.deqFire input ||
    match items.head? with
    | none => true
    | some oldest =>
        if fifo.enqFire input && items.length == 1 then input.enqData == oldest
        else !fifo.addrCollision || fifo.buffer.read0 == oldest

theorem reloads_iff {fifo : Fifo logDepth width} {input : FifoInput width}
    {items : List (BitVec width)} :
    fifo.reloads input items = true ↔ fifo.Reloads input items := by
  unfold reloads Reloads
  cases fifo.lastDeqFire with
  | false => simp
  | true =>
    cases fifo.deqFire input with
    | true => simp
    | false =>
      cases items.head? with
      | none => simp
      | some oldest =>
        by_cases alone : fifo.enqFire input = true ∧ items.length = 1
        · simp [alone]
        · have other : (fifo.enqFire input && items.length == 1) = false := by
            simpa using alone
          cases fifo.addrCollision with
          | false => simp [alone, other]
          | true => simp [alone, other]

instance decidableReloads (fifo : Fifo logDepth width)
    (input : FifoInput width) (items : List (BitVec width)) :
    Decidable (fifo.Reloads input items) :=
  decidable_of_iff _ reloads_iff

section Placed

variable {fifo : Fifo logDepth width} {input : FifoInput width}
  {items : List (BitVec width)}

theorem Placed.empty (placed : fifo.Placed items) (fullOk : fifo.FullOk items) :
    fifo.fifoEmpty = decide (items = []) := by
  have bound := placed.bound
  have positive : 0 < 2 ^ logDepth := Nat.two_pow_pos logDepth
  rw [fifoEmpty, fullOk, Bool.eq_iff_iff, Bool.and_eq_true, beq_iff_eq,
    Bool.not_eq_true', decide_eq_false_iff_not, decide_eq_true_iff,
    ← List.length_eq_zero_iff, placed.wptr]
  constructor
  · rintro ⟨room, same⟩
    have start : fifo.rptr + BitVec.ofNat logDepth items.length =
        fifo.rptr + BitVec.ofNat logDepth 0 := by
      rw [same]
      exact (BitVec.add_zero _).symm
    exact (offset_inj _ (by omega) positive).mp start
  · intro none
    rw [none]
    exact ⟨by omega, BitVec.add_zero _⟩

theorem Placed.deqValid_iff (placed : fifo.Placed items)
    (fullOk : fifo.FullOk items) : fifo.deqValid = true ↔ items ≠ [] := by
  rw [deqValid, placed.empty fullOk, Bool.not_eq_true', decide_eq_false_iff_not]

theorem enqReady_iff (fullOk : fifo.FullOk items) :
    fifo.enqReady = false ↔ items.length = 2 ^ logDepth := by
  rw [enqReady, fullOk, Bool.not_eq_false', decide_eq_true_iff]

theorem Placed.one_iff (placed : fifo.Placed items) (deep : 0 < logDepth)
    (room : items.length < 2 ^ logDepth) :
    (fifo.rptr + 1 == fifo.wptr) = decide (items.length = 1) := by
  have one : 1 < 2 ^ logDepth := Nat.one_lt_two_pow (Nat.pos_iff_ne_zero.mp deep)
  rw [Bool.eq_iff_iff, beq_iff_eq, decide_eq_true_iff, placed.wptr]
  exact (offset_inj fifo.rptr one room).trans eq_comm

theorem Placed.last_iff (placed : fifo.Placed items)
    (room : items.length < 2 ^ logDepth) :
    (fifo.wptr + 1 == fifo.rptr) =
      decide (items.length + 1 = 2 ^ logDepth) := by
  have positive : 0 < 2 ^ logDepth := Nat.two_pow_pos logDepth
  have moved : fifo.wptr + 1 =
      fifo.rptr + BitVec.ofNat logDepth (items.length + 1) := by
    rw [placed.wptr, BitVec.add_assoc, BitVec.ofNat_add]
    rfl
  rw [Bool.eq_iff_iff, beq_iff_eq, decide_eq_true_iff, moved]
  constructor
  · intro same
    apply Decidable.byContradiction
    intro more
    have start : fifo.rptr + BitVec.ofNat logDepth (items.length + 1) =
        fifo.rptr + BitVec.ofNat logDepth 0 := by
      rw [same]
      exact (BitVec.add_zero _).symm
    have zero := (offset_inj _ (by omega) positive).mp start
    omega
  · intro last
    rw [last, offset_turn]

theorem enqFire_room (bound : items.length ≤ 2 ^ logDepth)
    (fullOk : fifo.FullOk items) (fires : fifo.enqFire input = true) :
    items.length < 2 ^ logDepth := by
  rw [enqFire, Bool.and_eq_true] at fires
  apply Nat.lt_of_le_of_ne bound
  intro full
  have refused := (enqReady_iff fullOk).mpr full
  rw [refused] at fires
  exact Bool.false_ne_true fires.2

theorem Placed.deqFire_some (placed : fifo.Placed items)
    (fullOk : fifo.FullOk items) (fires : fifo.deqFire input = true) :
    ∃ oldest rest, items = oldest :: rest := by
  rw [deqFire, Bool.and_eq_true] at fires
  exact List.exists_cons_of_ne_nil ((placed.deqValid_iff fullOk).mp fires.1)

theorem next_mem (fifo : Fifo logDepth width) (input : FifoInput width) :
    (fifo.next input).buffer.mem =
      if fifo.enqFire input then
        Function.update fifo.buffer.mem fifo.wptr input.enqData
      else fifo.buffer.mem := by
  have writes : (fifo.enqFire input && !fifo.full) = fifo.enqFire input := by
    rw [enqFire, enqReady, Bool.and_assoc, Bool.and_self]
  unfold next SyncRam.next SyncRam.write
  rw [writes]
  rfl

theorem Placed.ring_enq (placed : fifo.Placed items)
    (input : FifoInput width) (fullOk : fifo.FullOk items) :
    Holds (fifo.next input).buffer.mem fifo.rptr
      (items ++ if fifo.enqFire input then [input.enqData] else []) := by
  rw [next_mem]
  by_cases enq : fifo.enqFire input = true
  · rw [if_pos enq, if_pos enq, placed.wptr]
    exact placed.ring.push (enqFire_room placed.bound fullOk enq) _
  · rw [if_neg enq, if_neg enq, List.append_nil]
    exact placed.ring

theorem Placed.length_enq (placed : fifo.Placed items)
    (fullOk : fifo.FullOk items) (running : input.rst = false) :
    (items ++ if fifo.enqFire input then [input.enqData] else []).length ≤
        2 ^ logDepth ∧
      (fifo.next input).wptr = fifo.rptr + BitVec.ofNat logDepth
        (items ++
          if fifo.enqFire input then [input.enqData] else []).length := by
  have pointer : (fifo.next input).wptr =
      if fifo.enqFire input then fifo.wptr + 1 else fifo.wptr := by
    unfold next
    rw [running]
    rfl
  rw [pointer]
  by_cases enq : fifo.enqFire input = true
  · rw [if_pos enq, if_pos enq, List.length_append, List.length_singleton,
      placed.wptr, BitVec.add_assoc, BitVec.ofNat_add]
    exact ⟨enqFire_room placed.bound fullOk enq, rfl⟩
  · rw [if_neg enq, if_neg enq, List.append_nil]
    exact ⟨placed.bound, placed.wptr⟩

/-- The pointers and the memory follow the items in every cycle. -/
theorem Placed.next (placed : fifo.Placed items) (fullOk : fifo.FullOk items)
    (running : input.rst = false) :
    (fifo.next input).Placed (fifo.itemsNext input items) := by
  have ring := placed.ring_enq input fullOk
  obtain ⟨bound, wptr⟩ := placed.length_enq fullOk running
  have pointer : (fifo.next input).rptr =
      if fifo.deqFire input then fifo.rptr + 1 else fifo.rptr := by
    unfold Fifo.next
    rw [running]
    rfl
  unfold itemsNext
  by_cases deq : fifo.deqFire input = true
  · obtain ⟨oldest, rest, rfl⟩ := placed.deqFire_some fullOk deq
    rw [if_pos deq] at pointer ⊢
    rw [List.cons_append] at ring bound wptr
    rw [List.length_cons] at bound wptr
    constructor
    · exact Nat.le_of_succ_le bound
    · rw [wptr, pointer, BitVec.add_assoc, List.tail_cons,
        Nat.add_comm _ 1, BitVec.ofNat_add]
      rfl
    · rw [pointer]
      exact ring.pop
  · rw [if_neg deq] at pointer ⊢
    constructor
    · exact bound
    · rw [wptr, pointer]
    · rw [pointer]
      exact ring

/-- `full` goes wrong in one case: an item comes and one goes while a single
place is free. -/
theorem Placed.fullOk_next_iff (placed : fifo.Placed items)
    (fullOk : fifo.FullOk items) (running : input.rst = false) :
    (fifo.next input).FullOk (fifo.itemsNext input items) ↔
      ¬ (fifo.enqFire input = true ∧ fifo.deqFire input = true ∧
        items.length + 1 = 2 ^ logDepth) := by
  have bound := placed.bound
  have flag : (fifo.next input).full =
      if fifo.enqFire input || fifo.deqFire input then fifo.fullNext input
      else fifo.full := by
    unfold Fifo.next
    rw [running]
    rfl
  unfold FullOk itemsNext
  rw [flag]
  unfold fullNext
  cases enq : fifo.enqFire input with
  | true =>
      have room := enqFire_room bound fullOk enq
      have last := placed.last_iff room
      cases deq : fifo.deqFire input with
      | true =>
          obtain ⟨oldest, rest, rfl⟩ := placed.deqFire_some fullOk deq
          rw [List.length_cons] at room
          simp only [last, Bool.true_or, if_true, Bool.true_and, true_and,
            List.tail_cons, List.length_append, List.length_cons,
            List.length_nil, decide_eq_decide]
          omega
      | false =>
          simp only [last, Bool.true_or, if_true, Bool.true_and,
            Bool.false_eq_true, if_false, false_and, and_false,
            not_false_eq_true, List.length_append, List.length_singleton]
  | false =>
      cases deq : fifo.deqFire input with
      | true =>
          obtain ⟨oldest, rest, rfl⟩ := placed.deqFire_some fullOk deq
          rw [List.length_cons] at bound
          have room : rest.length ≠ 2 ^ logDepth := by omega
          simp only [Bool.or_true, if_true, Bool.false_and,
            Bool.false_eq_true, if_false, false_and, not_false_eq_true,
            List.tail_cons, List.append_nil, iff_true]
          exact (decide_eq_false room).symm
      | false =>
          simp only [Bool.or_self, Bool.false_eq_true, if_false, false_and,
            not_false_eq_true, List.append_nil, iff_true]
          exact fullOk

theorem Placed.collision_eq (placed : fifo.Placed items)
    (input : FifoInput width) (fullOk : fifo.FullOk items) (deep : 0 < logDepth) :
    fifo.addrCollisionNext input =
      decide (fifo.enqFire input = true ∧ items.length = 1) := by
  rw [addrCollisionNext]
  cases enq : fifo.enqFire input with
  | true =>
      rw [placed.one_iff deep (enqFire_room placed.bound fullOk enq)]
      simp
  | false => simp

theorem next_deqData (fifo : Fifo logDepth width) (input : FifoInput width)
    (running : input.rst = false) :
    (fifo.next input).deqData =
      if fifo.deqFire input && !fifo.addrCollisionNext input then
        fifo.buffer.mem (fifo.rptr + 1)
      else if fifo.readBufferCe input then fifo.readBufferNext input
      else fifo.readBuffer := by
  unfold deqData next SyncRam.next
  rw [running]
  rfl

theorem Placed.headOk_of_deq (placed : fifo.Placed items)
    (fullOk : fifo.FullOk items) (deep : 0 < logDepth)
    (running : input.rst = false) (deq : fifo.deqFire input = true) :
    (fifo.next input).HeadOk (fifo.itemsNext input items) := by
  have collision := placed.collision_eq input fullOk deep
  have data := next_deqData fifo input running
  obtain ⟨oldest, rest, rfl⟩ := placed.deqFire_some fullOk deq
  intro item first
  rw [itemsNext, if_pos deq, List.tail_cons] at first
  rw [data, deq, Bool.true_and]
  cases rest with
  | nil =>
      cases enq : fifo.enqFire input with
      | false =>
          rw [enq] at first
          exact absurd first (Option.not_mem_none item)
      | true =>
          rw [enq] at first collision
          have meets : fifo.addrCollisionNext input = true := by
            rw [collision]
            exact decide_eq_true ⟨rfl, rfl⟩
          have loads : fifo.readBufferCe input = true := by
            rw [readBufferCe, meets, deq, Bool.and_self, Bool.or_true]
          rw [meets, Bool.not_true, if_neg Bool.false_ne_true, if_pos loads,
            readBufferNext, meets, Bool.or_true, if_pos rfl]
          exact Option.mem_some_iff.mp first
  | cons second later =>
      have apart : fifo.addrCollisionNext input = false := by
        rw [collision]
        apply decide_eq_false
        rintro ⟨-, one⟩
        exact absurd (Nat.succ.inj one) (Nat.succ_ne_zero _)
      rw [apart, Bool.not_false, if_pos rfl, placed.ring.pop.head]
      exact Option.mem_some_iff.mp first

theorem headOk_nil (fifo : Fifo logDepth width) : fifo.HeadOk [] :=
  fun item none => absurd none (Option.not_mem_none item)

theorem headOk_cons_iff {item : BitVec width} :
    fifo.HeadOk (item :: items) ↔ fifo.deqData = item := by
  constructor
  · intro headOk
    exact headOk item rfl
  · intro same other first
    rw [same]
    exact Option.mem_some_iff.mp first

theorem next_deqData_idle (running : input.rst = false)
    (idle : fifo.deqFire input = false) :
    (fifo.next input).deqData =
      if fifo.lastDeqFire || (fifo.enqFire input && fifo.fifoEmpty) then
        fifo.readBufferNext input
      else fifo.readBuffer := by
  rw [next_deqData fifo input running, readBufferCe, idle, Bool.and_false,
    Bool.or_false, Bool.not_false, Bool.true_and]
  rfl

theorem Placed.headOk_of_none (placed : fifo.Placed [])
    (fullOk : fifo.FullOk []) (running : input.rst = false)
    (idle : fifo.deqFire input = false) :
    (fifo.next input).HeadOk (fifo.itemsNext input []) := by
  have data := next_deqData_idle running idle
  rw [itemsNext, idle]
  cases enq : fifo.enqFire input with
  | false => exact headOk_nil _
  | true =>
      have none : fifo.fifoEmpty = true := by
        rw [placed.empty fullOk]
        rfl
      rw [enq, readBufferNext, none, Bool.true_and, Bool.or_true,
        if_pos rfl, Bool.true_or, if_pos rfl] at data
      exact headOk_cons_iff.mpr data

theorem reloads_of_settled (settled : fifo.lastDeqFire = false) :
    fifo.Reloads input items := by
  intro after
  rw [settled] at after
  exact absurd after Bool.false_ne_true

/-- After a dequeue that leaves an item, one of two words has to be the
item. -/
theorem reloads_cons_iff {oldest : BitVec width}
    (after : fifo.lastDeqFire = true) (idle : fifo.deqFire input = false) :
    fifo.Reloads input (oldest :: items) ↔
      if fifo.enqFire input = true ∧ (oldest :: items).length = 1 then
        input.enqData = oldest
      else fifo.addrCollision = true → fifo.buffer.read0 = oldest := by
  by_cases alone : fifo.enqFire input = true ∧ (oldest :: items).length = 1
  · rw [if_pos alone]
    constructor
    · intro reloads
      exact (reloads after idle oldest rfl).1 alone
    · intro loaded _ _ item first
      rw [← Option.mem_some_iff.mp first]
      exact ⟨fun _ => loaded, fun several => absurd alone several⟩
  · rw [if_neg alone]
    constructor
    · intro reloads
      exact (reloads after idle oldest rfl).2 alone
    · intro loaded _ _ item first
      rw [← Option.mem_some_iff.mp first]
      exact ⟨fun single => absurd single alone, fun _ => loaded⟩

/-- Without a dequeue the oldest item stays visible exactly when the side
buffer loads it. -/
theorem Placed.headOk_of_idle_iff (placed : fifo.Placed items)
    (fullOk : fifo.FullOk items) (headOk : fifo.HeadOk items)
    (deep : 0 < logDepth) (running : input.rst = false)
    (idle : fifo.deqFire input = false) :
    (fifo.next input).HeadOk (fifo.itemsNext input items) ↔
      fifo.Reloads input items := by
  have collision := placed.collision_eq input fullOk deep
  have data := next_deqData_idle running idle
  cases items with
  | nil =>
      refine iff_of_true (placed.headOk_of_none fullOk running idle) ?_
      exact fun _ _ oldest none => absurd none (Option.not_mem_none oldest)
  | cons oldest rest =>
      have stays : fifo.itemsNext input (oldest :: rest) = oldest ::
          (rest ++ if fifo.enqFire input then [input.enqData] else []) := by
        rw [itemsNext, idle]
        rfl
      have some : fifo.fifoEmpty = false := by
        rw [placed.empty fullOk]
        exact decide_eq_false (List.cons_ne_nil _ _)
      have shown := headOk_cons_iff.mp headOk
      rw [some, Bool.and_false, Bool.or_false, readBufferNext, some,
        Bool.false_or, collision] at data
      rw [stays, headOk_cons_iff, data]
      cases last : fifo.lastDeqFire with
      | false =>
          rw [deqData, last] at shown
          exact iff_of_true shown (reloads_of_settled last)
      | true =>
          rw [if_pos rfl, reloads_cons_iff last idle]
          by_cases alone : fifo.enqFire input = true ∧
              (oldest :: rest).length = 1
          · rw [if_pos (decide_eq_true alone), if_pos alone]
          · rw [decide_eq_false alone, if_neg Bool.false_ne_true,
              if_neg alone]
            cases stale : fifo.addrCollision with
            | true => exact ⟨fun loaded _ => loaded, fun loads => loads rfl⟩
            | false =>
                rw [deqData, last, stale] at shown
                exact iff_of_true shown (fun never => Bool.noConfusion never)

end Placed

end Fifo

/-! ## The queue -/

/-- `fifo` beside what was enqueued and dequeued since the last reset. -/
structure FifoSystem (logDepth width : Nat) where
  fifo : Fifo logDepth width
  enqueued : List (BitVec width)
  dequeued : List (BitVec width)

namespace FifoSystem

variable {logDepth width : Nat}

section Signals

variable (system : FifoSystem logDepth width) (input : FifoInput width)

def next : FifoSystem logDepth width :=
  { fifo := system.fifo.next input
    enqueued :=
      if input.rst then []
      else system.enqueued ++
        if system.fifo.enqFire input then [input.enqData] else []
    dequeued :=
      if input.rst then []
      else system.dequeued ++
        if system.fifo.deqFire input then [system.fifo.deqData] else [] }

/-- What was enqueued and not yet dequeued. -/
def stored : List (BitVec width) :=
  system.enqueued.drop system.dequeued.length

end Signals

/-- The registers that a reset sets; the others are arbitrary. -/
def start (system : FifoSystem logDepth width) : Prop :=
  system.fifo.rptr = 0 ∧ system.fifo.wptr = 0 ∧ system.fifo.full = false ∧
    system.enqueued = [] ∧ system.dequeued = []

/-- The FIFO is a queue: the items come out in the order in which they went
in, `deq_valid` and `enq_ready` tell whether one is stored and whether there
is room, and `deq_data` is the oldest one. -/
structure IsQueue (system : FifoSystem logDepth width) : Prop where
  order : system.dequeued <+: system.enqueued
  valid : system.fifo.deqValid = true ↔
    system.dequeued.length < system.enqueued.length
  ready : system.fifo.enqReady = false ↔
    system.enqueued.length - system.dequeued.length = 2 ^ logDepth
  oldest : system.dequeued.length < system.enqueued.length →
    system.enqueued[system.dequeued.length]? = some system.fifo.deqData

/-- No item comes while one goes and a single place is free, and the side
buffer loads the oldest item where it has to. -/
def Meets (system : FifoSystem logDepth width) (input : FifoInput width) :
    Prop :=
  ¬ (system.fifo.enqFire input = true ∧ system.fifo.deqFire input = true ∧
      system.stored.length + 1 = 2 ^ logDepth) ∧
    system.fifo.Reloads input system.stored

instance decidableMeets (system : FifoSystem logDepth width)
    (input : FifoInput width) : Decidable (system.Meets input) :=
  inferInstanceAs (Decidable (_ ∧ _))

/-- The invariant of a run. -/
structure Queued (system : FifoSystem logDepth width) : Prop where
  split : system.enqueued = system.dequeued ++ system.stored
  placed : system.fifo.Placed system.stored
  fullOk : system.fifo.FullOk system.stored
  headOk : system.fifo.HeadOk system.stored

section Cycle

variable {system : FifoSystem logDepth width} {input : FifoInput width}

theorem isQueue_iff (split : system.enqueued =
      system.dequeued ++ system.stored)
    (placed : system.fifo.Placed system.stored) :
    system.IsQueue ↔ system.fifo.FullOk system.stored ∧
      system.fifo.HeadOk system.stored := by
  have length := congrArg List.length split
  rw [List.length_append] at length
  have front : system.enqueued[system.dequeued.length]? =
      system.stored.head? := by
    rw [split, List.getElem?_append_right (Nat.le_refl _), Nat.sub_self,
      List.head?_eq_getElem?]
  constructor
  · intro queue
    constructor
    · have ready := queue.ready
      rw [length, Nat.add_sub_cancel_left, Fifo.enqReady,
        Bool.not_eq_false'] at ready
      rw [Fifo.FullOk, Bool.eq_iff_iff, decide_eq_true_iff]
      exact ready
    · intro item first
      have some : 0 < system.stored.length :=
        List.length_pos_of_mem (List.mem_of_mem_head? first)
      have oldest := queue.oldest (by omega)
      rw [front, first] at oldest
      exact (Option.some.inj oldest).symm
  · rintro ⟨fullOk, headOk⟩
    constructor
    · exact ⟨system.stored, split.symm⟩
    · rw [placed.deqValid_iff fullOk, length, ← List.length_pos_iff]
      omega
    · rw [Fifo.enqReady_iff fullOk, length, Nat.add_sub_cancel_left]
    · intro more
      rw [front]
      cases items : system.stored with
      | nil =>
          rw [items] at length
          simp at length
          omega
      | cons item rest =>
          rw [items] at headOk
          rw [Fifo.headOk_cons_iff.mp headOk]
          rfl

theorem stored_of_split {items : List (BitVec width)}
    (split : system.enqueued = system.dequeued ++ items) :
    system.stored = items := by
  rw [stored, split, List.drop_left]

theorem Queued.stored_next (queued : system.Queued)
    (running : input.rst = false) :
    (system.next input).enqueued = (system.next input).dequeued ++
        system.fifo.itemsNext input system.stored ∧
      (system.next input).stored =
        system.fifo.itemsNext input system.stored := by
  have split : (system.next input).enqueued =
      (system.next input).dequeued ++
        system.fifo.itemsNext input system.stored := by
    unfold next Fifo.itemsNext
    rw [running, if_neg Bool.false_ne_true, if_neg Bool.false_ne_true]
    cases deq : system.fifo.deqFire input with
    | true =>
        obtain ⟨oldest, rest, items⟩ :=
          queued.placed.deqFire_some queued.fullOk deq
        have headOk := queued.headOk
        rw [items] at headOk
        rw [queued.split, items, Fifo.headOk_cons_iff.mp headOk]
        simp
    | false =>
        rw [queued.split]
        simp
  exact ⟨split, stored_of_split split⟩

/-- The next state is a queue exactly when the cycle meets the condition. -/
theorem Queued.isQueue_next_iff (queued : system.Queued)
    (deep : 0 < logDepth) (running : input.rst = false) :
    (system.next input).IsQueue ↔ system.Meets input := by
  obtain ⟨split, stored⟩ := queued.stored_next running
  have placed := queued.placed.next queued.fullOk running
  have full := queued.placed.fullOk_next_iff queued.fullOk running
  rw [isQueue_iff (by rw [stored]; exact split) (by rw [stored]; exact placed),
    stored]
  apply and_congr full
  cases deq : system.fifo.deqFire input with
  | true =>
      apply iff_of_true
      · exact queued.placed.headOk_of_deq queued.fullOk deep running deq
      · intro _ idle
        rw [deq] at idle
        exact absurd idle Bool.true_eq_false.mp
  | false =>
      exact queued.placed.headOk_of_idle_iff queued.fullOk queued.headOk deep
        running deq

theorem Queued.next (queued : system.Queued) (deep : 0 < logDepth)
    (running : input.rst = false) (meets : system.Meets input) :
    (system.next input).Queued := by
  obtain ⟨split, stored⟩ := queued.stored_next running
  have placed := queued.placed.next queued.fullOk running
  have both := (isQueue_iff (by rw [stored]; exact split)
    (by rw [stored]; exact placed)).mp
    ((queued.isQueue_next_iff deep running).mpr meets)
  constructor
  · rw [stored]
    exact split
  · rw [stored]
    exact placed
  · exact both.1
  · exact both.2

theorem queued_start (started : system.start) : system.Queued := by
  obtain ⟨rptr, wptr, full, enqueued, dequeued⟩ := started
  have nothing : system.stored = [] := by
    rw [stored, enqueued]
    exact List.drop_nil
  constructor
  · rw [nothing, enqueued, dequeued]
    rfl
  · rw [nothing]
    constructor
    · exact Nat.zero_le _
    · rw [wptr, rptr]
      exact (BitVec.add_zero _).symm
    · exact holds_nil _ _
  · rw [nothing, Fifo.FullOk, full]
    exact (decide_eq_false (Nat.two_pow_pos logDepth).ne).symm
  · rw [nothing]
    exact Fifo.headOk_nil _

end Cycle

/-- The cycle resets or meets the condition. -/
def Allowed (system : FifoSystem logDepth width) (input : FifoInput width) :
    Prop :=
  input.rst = true ∨ system.Meets input

theorem start_of_reset (system : FifoSystem logDepth width)
    {input : FifoInput width} (reset : input.rst = true) :
    (system.next input).start := by
  unfold start next Fifo.next
  rw [reset]
  exact ⟨rfl, rfl, rfl, rfl, rfl⟩

theorem queued_of_run (deep : 0 < logDepth)
    {system : FifoSystem logDepth width}
    (run : Run start next Allowed system) : system.Queued := by
  refine run.invariant Queued (fun _ => queued_start) ?_
  intro system input queued allowed
  cases reset : input.rst with
  | true => exact queued_start (start_of_reset system reset)
  | false =>
      rcases allowed with resets | meets
      · rw [reset] at resets
        exact absurd resets Bool.false_ne_true
      · exact queued.next deep reset meets

/-- In every run from a reset whose cycles meet the condition the FIFO is a
queue, and a further cycle leaves it one exactly when it meets the condition
too. -/
theorem fifo_is_queue (deep : 0 < logDepth)
    {system : FifoSystem logDepth width}
    (run : Run start next Allowed system) :
    system.IsQueue ∧
      ∀ input, input.rst = false →
        ((system.next input).IsQueue ↔ system.Meets input) := by
  have queued := queued_of_run deep run
  constructor
  · exact (isQueue_iff queued.split queued.placed).mpr
      ⟨queued.fullOk, queued.headOk⟩
  · intro input running
    exact queued.isQueue_next_iff deep running

/-- The FIFO of default size after power-on. -/
def cleared : FifoSystem 3 32 :=
  { fifo :=
      { rptr := 0, wptr := 0, full := false
        buffer := { mem := fun _ => 0, read0 := 0, read1 := 0 }
        addrCollision := false, lastDeqFire := false, readBuffer := 0 }
    enqueued := [], dequeued := [] }

theorem cleared_start : cleared.start := ⟨rfl, rfl, rfl, rfl, rfl⟩

/-- A cycle that enqueues `data`. -/
def enq (data : BitVec 32) : FifoInput 32 :=
  { rst := false, enqValid := true, enqData := data, deqReady := false }

/-- A cycle that dequeues. -/
def deq : FifoInput 32 :=
  { rst := false, enqValid := false, enqData := 0, deqReady := true }

/-- A cycle that does both. -/
def enqDeq (data : BitVec 32) : FifoInput 32 :=
  { rst := false, enqValid := true, enqData := data, deqReady := true }

def pause : FifoInput 32 :=
  { rst := false, enqValid := false, enqData := 0, deqReady := false }

/-- Two items pass, with a pause between them, and a third is stored. -/
def transfers : List (FifoInput 32) :=
  [enq 1, enq 2, deq, pause, deq, enq 9, pause]

theorem fifo_is_queue_transfers :
    let system := transfers.foldl next cleared
    system.IsQueue ∧ system.dequeued = [1, 2] ∧
      (system.next deq).IsQueue ∧ (system.next deq).dequeued = [1, 2, 9] := by
  intro system
  have allowed : Permitted next (fun system input => system.Meets input)
      cleared transfers := by
    decide +kernel
  have run : Run start next Allowed system :=
    (Run.start cleared_start).through allowed |>.mono fun _ _ => .inr
  obtain ⟨queue, further⟩ := fifo_is_queue (by decide) run
  refine ⟨queue, by decide +kernel, (further deq rfl).mpr ?_, by decide +kernel⟩
  decide +kernel

/-- 1 and 2 are enqueued, 1 is dequeued and 3 enqueued. -/
def overtaken : FifoSystem 3 32 :=
  (((cleared.next (enq 1)).next (enq 2)).next deq).next (enq 3)

/-- Seven items are enqueued, and an eighth while the first is dequeued. -/
def blocked : FifoSystem 3 32 :=
  (((((((cleared.next (enq 1)).next (enq 2)).next (enq 3)).next
    (enq 4)).next (enq 5)).next (enq 6)).next (enq 7)).next (enqDeq 8)

/-- The output shows 3 while 2 is the oldest item; and with seven of eight
places taken nothing is accepted any more. -/
theorem newer_item_overtakes :
    Run start next (fun _ _ => True) overtaken ∧
      overtaken.stored = [2, 3] ∧ overtaken.fifo.deqData = 3 ∧
      ¬ overtaken.IsQueue ∧
    Run start next (fun _ _ => True) blocked ∧
      blocked.stored.length = 7 ∧ blocked.fifo.enqReady = false ∧
      ¬ blocked.IsQueue := by
  have shows : overtaken.fifo.deqData = 3 := by decide
  have stops : blocked.fifo.enqReady = false := by decide
  refine ⟨?_, by decide, shows, ?_, ?_, by decide, stops, ?_⟩
  · exact .step _ (.step _ (.step _ (.step _ (.start cleared_start) trivial)
      trivial) trivial) trivial
  · intro queue
    have oldest := queue.oldest (by decide)
    rw [shows] at oldest
    revert oldest
    decide
  · exact .step _ (.step _ (.step _ (.step _ (.step _ (.step _ (.step _
      (.step _ (.start cleared_start) trivial) trivial) trivial) trivial)
      trivial) trivial) trivial) trivial
  · intro queue
    have full := queue.ready.mp stops
    revert full
    decide

end FifoSystem

end Ria
