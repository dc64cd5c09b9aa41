import Ria.Sim.HostPoll
import Ria.Sim.MemoryInstructions

/-!
# A call of the host happens in one step

Whatever the order in which stores commit and the interface is polled, the
board behaves as if each call were carried out at once, with its words in
memory and both mailboxes clear (`host_calls_refine`).
-/

namespace Ria

open ByteMemory StoreBuffer

/-! ## Stores of halves -/

section Halves

theorem bytes_wordStore (addr : SimAddr) (value : BitVec 32) :
    (wordStore addr value).bytes = toBytes 4 value.toNat := by
  apply List.ext_getElem
  · rw [StoreRequest.bytes_length, length_toBytes]
    rfl
  · intro index low high
    have byte := getElem_toBytes 4 value.toNat index high
    rw [length_toBytes] at high
    have wide : value.toNat % 2 ^ 64 = value.toNat :=
      Nat.mod_eq_of_lt (Nat.lt_of_lt_of_le value.isLt (by decide))
    rw [byte]
    simp only [StoreRequest.bytes, wordStore, dataBytes, List.getElem_take,
      List.getElem_ofFn]
    apply BitVec.eq_of_toNat_eq
    rw [BitVec.extractLsb'_toNat, BitVec.toNat_setWidth, wide,
      BitVec.toNat_ofNat, Nat.shiftRight_eq_div_pow]

theorem write_wordStore (memory : Memory 32) (addr : SimAddr)
    (value : BitVec 32) :
    (wordStore addr value).write memory =
      write memory addr (toBytes 4 value.toNat) := by
  rw [StoreRequest.write, bytes_wordStore]
  rfl

theorem write_halves (lowFirst : Bool) (memory : Memory 32) (addr : SimAddr)
    (value : RegT) :
    (halves lowFirst addr value).foldl StoreRequest.write memory =
      write memory addr (toBytes 8 value.toNat) := by
  have low : (value.setWidth 32).toNat = value.toNat % 2 ^ 32 :=
    BitVec.toNat_setWidth _ _
  have high : ((value >>> 32).setWidth 32).toNat = value.toNat / 2 ^ 32 := by
    have bound := value.isLt
    rw [BitVec.toNat_setWidth, BitVec.toNat_ushiftRight,
      Nat.shiftRight_eq_div_pow]
    omega
  have lowBytes : toBytes 4 (value.toNat % 2 ^ 32) =
      toBytes 4 value.toNat := toBytes_mod 4 value.toNat
  have parts : toBytes 8 value.toNat =
      toBytes 4 value.toNat ++ toBytes 4 (value.toNat / 2 ^ 32) :=
    toBytes_add 4 4 value.toNat
  unfold halves
  cases lowFirst with
  | true =>
      simp only [if_true, List.foldl_cons, List.foldl_nil, write_wordStore,
        low, high, lowBytes]
      rw [parts, write_append _ _ _ _ (by
        simp only [length_toBytes]
        decide), length_toBytes]
      rfl
  | false =>
      simp only [Bool.false_eq_true, if_false, List.foldl_cons,
        List.foldl_nil, write_wordStore, low, high, lowBytes]
      rw [parts, write_append_reverse, length_toBytes]
      rfl

/-- A half whose bytes are zero already. -/
theorem write_zero_half {memory : Memory 32} {addr : SimAddr}
    (zero : load memory addr 4 = List.replicate 4 0) :
    (wordStore addr 0).write memory = memory := by
  have zeros : toBytes 4 (0 : BitVec 32).toNat = load memory addr 4 :=
    (toBytes_zero 4).trans zero.symm
  rw [write_wordStore, zeros]
  exact write_load memory addr 4

theorem halves_place {lowFirst : Bool} {addr : SimAddr} {value : RegT}
    {req : StoreRequest} (member : req ∈ halves lowFirst addr value) :
    ∃ k, k + 4 ≤ 8 ∧ req.bytes.length = 4 ∧
      req.addr = addr + BitVec.ofNat 32 k := by
  have length : ∀ addr value, (wordStore addr value).bytes.length = 4 :=
    fun addr value => by rw [bytes_wordStore, length_toBytes]
  have either : req = wordStore addr (value.setWidth 32) ∨
      req = wordStore (addr + 4) ((value >>> 32).setWidth 32) := by
    unfold halves at member
    cases lowFirst with
    | true => simpa using member
    | false => simpa [or_comm] using member
  rcases either with rfl | rfl
  · exact ⟨0, by decide, length _ _, (BitVec.add_zero addr).symm⟩
  · exact ⟨4, by decide, length _ _, rfl⟩

theorem joinHalves_bytes (lowFirst : Bool) (memory : Memory 32)
    (addr : SimAddr) :
    joinHalves lowFirst
        (BitVec.ofNat 32 (ofBytes (load memory (firstHalf lowFirst addr) 4)))
        (BitVec.ofNat 32
          (ofBytes (load memory (secondHalf lowFirst addr) 4))) =
      word64 memory addr := by
  have joined : BitVec.ofNat 32 (ofBytes (load memory (addr + 4) 4)) ++
      BitVec.ofNat 32 (ofBytes (load memory addr 4)) =
        word64 memory addr := by
    have low := ofBytes_lt (load memory addr 4)
    have high := ofBytes_lt (load memory (addr + 4) 4)
    rw [length_load] at low high
    apply BitVec.eq_of_toNat_eq
    rw [word64, load_halves, ofBytes_append, length_load, BitVec.toNat_append,
      BitVec.toNat_ofNat, BitVec.toNat_ofNat, BitVec.toNat_ofNat,
      Nat.mod_eq_of_lt low, Nat.mod_eq_of_lt high,
      ← Nat.shiftLeft_add_eq_or_of_lt low, Nat.shiftLeft_eq,
      Nat.mod_eq_of_lt (by omega), Nat.add_comm, Nat.mul_comm]
  unfold joinHalves firstHalf secondHalf
  cases lowFirst with
  | true => exact joined
  | false => exact joined

theorem Zero.firstHalf {memory : Memory 32} {addr : SimAddr}
    (zero : Zero memory addr) {lowFirst : Bool} :
    load memory (firstHalf lowFirst addr) 4 = List.replicate 4 0 := by
  cases lowFirst with
  | true => exact zero.halves.1
  | false => exact zero.halves.2

theorem Zero.secondHalf {memory : Memory 32} {addr : SimAddr}
    (zero : Zero memory addr) {lowFirst : Bool} :
    load memory (secondHalf lowFirst addr) 4 = List.replicate 4 0 := by
  cases lowFirst with
  | true => exact zero.halves.2
  | false => exact zero.halves.1

theorem Board.loadWord_eq {ω τ : Type} (board : Board ω τ)
    (addr : SimAddr) :
    board.loadWord addr =
      BitVec.ofNat 32 (ofBytes (load board.storeBuffer.settled addr 4)) := by
  have window := board.storeBuffer.loadData_window addr
  have four : (List.ofFn (board.view addr)).take 4 =
      load board.storeBuffer.settled addr 4 := by
    rw [Board.view, window]
    rfl
  rw [Board.loadWord, four]

end Halves

/-! ## What the host can see -/

section Rest

variable {mailbox : Mailbox} {flat : Memory 32} {pending : List StoreRequest}

/-- A store that posts nothing. -/
def Quiet (mailbox : Mailbox) (req : StoreRequest) : Prop :=
  OrdinaryAddr req.addr ∧ ∀ memory, Zero memory mailbox.tohost →
    Zero (req.write memory) mailbox.tohost

/-- The host sees no command, however many stores commit. -/
structure Rested (mailbox : Mailbox) (flat : Memory 32)
    (pending : List StoreRequest) : Prop where
  zero : Zero flat mailbox.tohost
  quiet : ∀ req ∈ pending, Quiet mailbox req

theorem Zero.write_apart {memory : Memory 32} {addr : SimAddr}
    (zero : Zero memory addr) {req : StoreRequest}
    (apart : Apart addr 8 req.addr req.bytes.length) :
    Zero (req.write memory) addr :=
  (apart.load_write memory rfl).trans zero

theorem quiet_of_apart {req : StoreRequest}
    (apart : Apart mailbox.tohost 8 req.addr req.bytes.length)
    (ordinary : OrdinaryAddr req.addr) : Quiet mailbox req :=
  ⟨ordinary, fun _ zero => zero.write_apart apart⟩

/-- The upper half of the posted address -/
def highStore (mailbox : Mailbox) : StoreRequest :=
  wordStore (mailbox.tohost + 4) 0

/-- The lower half of the posted address, which the host sees as the
command. -/
def lowStore (mailbox : Mailbox) : StoreRequest :=
  wordStore mailbox.tohost mailbox.tohostCmd

theorem quiet_highStore (mailbox : Mailbox) :
    Quiet mailbox (highStore mailbox) := by
  refine ⟨mailbox.tohost_ordinary 4 (by decide), fun memory zero => ?_⟩
  rw [highStore, write_zero_half zero.halves.2]
  exact zero

theorem foldl_zero (zero : Zero flat mailbox.tohost)
    (quiet : ∀ req ∈ pending, Quiet mailbox req) :
    Zero (pending.foldl StoreRequest.write flat) mailbox.tohost := by
  induction pending generalizing flat with
  | nil => exact zero
  | cons req rest induction =>
      exact induction ((quiet req List.mem_cons_self).2 flat zero)
        fun later member => quiet later (List.mem_cons_of_mem req member)

theorem Rested.commit (rested : Rested mailbox flat pending) (count : Nat) :
    Rested mailbox ((pending.take count).foldl StoreRequest.write flat)
      (pending.drop count) where
  zero := foldl_zero rested.zero fun req member =>
    rested.quiet req (List.mem_of_mem_take member)
  quiet := fun req member => rested.quiet req (List.mem_of_mem_drop member)

theorem Rested.execute (rested : Rested mailbox flat pending)
    {req : StoreRequest} (quiet : Quiet mailbox req) :
    Rested mailbox flat (pending ++ [req]) where
  zero := rested.zero
  quiet := by
    intro other member
    rcases List.mem_append.mp member with old | new
    · exact rested.quiet other old
    · rw [List.mem_singleton.mp new]
      exact quiet

/-- Committing does not change what the core sees. -/
theorem foldl_commit (flat : Memory 32) (pending : List StoreRequest)
    (count : Nat) :
    (pending.drop count).foldl StoreRequest.write
        ((pending.take count).foldl StoreRequest.write flat) =
      pending.foldl StoreRequest.write flat := by
  rw [← List.foldl_append, List.take_append_drop]

/-- Stores of the upper half of an address change nothing. -/
theorem foldl_highStore (zero : load flat (mailbox.tohost + 4) 4 =
      List.replicate 4 0)
    (high : ∀ req ∈ pending, req = highStore mailbox) :
    pending.foldl StoreRequest.write flat = flat := by
  induction pending with
  | nil => rfl
  | cons req rest induction =>
      rw [List.foldl_cons, high req List.mem_cons_self, highStore,
        write_zero_half zero]
      exact induction fun later member =>
        high later (List.mem_cons_of_mem req member)

/-- The command words of a call are in `memory`, and its address has been
posted: the store of the lower half waits for its commit, or the host can see
it. -/
inductive Sent (mailbox : Mailbox) (memory : Memory 32) :
    Memory 32 → List StoreRequest → Prop
  | posted {flat before after} (rested : Rested mailbox flat before)
      (settled : before.foldl StoreRequest.write flat = memory)
      (high : ∀ req ∈ after, req = highStore mailbox) :
      Sent mailbox memory flat (before ++ lowStore mailbox :: after)
  | visible {after} (high : ∀ req ∈ after, req = highStore mailbox) :
      Sent mailbox memory ((lowStore mailbox).write memory) after

variable {memory : Memory 32}

theorem lowStore_high (zero : Zero memory mailbox.tohost) :
    load ((lowStore mailbox).write memory) (mailbox.tohost + 4) 4 =
      List.replicate 4 0 := by
  have behind : Apart (mailbox.tohost + 4) 4 mailbox.tohost 4 :=
    (apart_behind mailbox.tohost (by decide : 4 + 4 ≤ 2 ^ 32)).symm
  have length : (toBytes 4 mailbox.tohostCmd.toNat).length = 4 :=
    length_toBytes 4 _
  rw [lowStore, write_wordStore, behind.load_write memory length]
  exact zero.halves.2

theorem lowStore_word (zero : Zero memory mailbox.tohost) :
    word64 ((lowStore mailbox).write memory) mailbox.tohost =
      mailbox.tohostCmd.setWidth 64 := by
  have low : load ((lowStore mailbox).write memory) mailbox.tohost 4 =
      toBytes 4 mailbox.tohostCmd.toNat := by
    have read := load_write memory mailbox.tohost
      (toBytes 4 mailbox.tohostCmd.toNat) (by rw [length_toBytes]; decide)
    rw [length_toBytes] at read
    rw [lowStore, write_wordStore]
    exact read
  have zeros : ofBytes (List.replicate 4 0) = 0 := rfl
  have small : mailbox.tohostCmd.toNat % 2 ^ (8 * 4) =
      mailbox.tohostCmd.toNat := Nat.mod_eq_of_lt mailbox.tohostCmd.isLt
  rw [word64, load_halves, low, lowStore_high zero, ofBytes_append, zeros,
    Nat.mul_zero, Nat.add_zero, ofBytes_toBytes, small]
  exact BitVec.ofNat_toNat 64 mailbox.tohostCmd

/-- Clearing `tohost` takes the post back. -/
theorem lowStore_cleared (zero : Zero memory mailbox.tohost) :
    write ((lowStore mailbox).write memory) mailbox.tohost
        (List.replicate 8 0) = memory := by
  rw [lowStore, write_wordStore, write_covered _ _ (by
    rw [length_toBytes, List.length_replicate]
    decide)]
  exact zero.write_eq

namespace Sent

theorem settled (sent : Sent mailbox memory flat pending)
    (zero : Zero memory mailbox.tohost) :
    pending.foldl StoreRequest.write flat =
      (lowStore mailbox).write memory := by
  cases sent with
  | posted rested settled high =>
      rw [List.foldl_append, settled, List.foldl_cons]
      exact foldl_highStore (lowStore_high zero) high
  | visible high => exact foldl_highStore (lowStore_high zero) high

theorem ordinary (sent : Sent mailbox memory flat pending) :
    ∀ req ∈ pending, OrdinaryAddr req.addr := by
  have tohost := mailbox.tohost_ordinary 0 (by decide)
  rw [BitVec.add_zero] at tohost
  have upper : ∀ {after : List StoreRequest},
      (∀ req ∈ after, req = highStore mailbox) →
        ∀ req ∈ after, OrdinaryAddr req.addr := by
    intro after high req member
    rw [high req member]
    exact (quiet_highStore mailbox).1
  cases sent with
  | posted rested settled high =>
      intro req member
      rcases List.mem_append.mp member with early | late
      · exact (rested.quiet req early).1
      · rcases List.mem_cons.mp late with rfl | later
        · exact tohost
        · exact upper high req later
  | visible high => exact upper high

theorem post (sent : Sent mailbox memory flat pending) :
    Sent mailbox memory flat (pending ++ [highStore mailbox]) := by
  have more : ∀ {after : List StoreRequest},
      (∀ req ∈ after, req = highStore mailbox) →
        ∀ req ∈ after ++ [highStore mailbox], req = highStore mailbox := by
    intro after high req member
    rcases List.mem_append.mp member with old | new
    · exact high req old
    · exact List.mem_singleton.mp new
  cases sent with
  | posted rested settled high =>
      rw [List.append_assoc, List.cons_append]
      exact .posted rested settled (more high)
  | visible high => exact .visible (more high)

theorem commit (sent : Sent mailbox memory flat pending)
    (zero : Zero memory mailbox.tohost) (count : Nat) :
    Sent mailbox memory
      ((pending.take count).foldl StoreRequest.write flat)
      (pending.drop count) := by
  have part : ∀ {after : List StoreRequest} (many : Nat),
      (∀ req ∈ after, req = highStore mailbox) →
        (∀ req ∈ after.take many, req = highStore mailbox) ∧
          ∀ req ∈ after.drop many, req = highStore mailbox :=
    fun many high =>
      ⟨fun req member => high req (List.mem_of_mem_take member),
        fun req member => high req (List.mem_of_mem_drop member)⟩
  cases sent with
  | @posted flat before after rested settled high =>
      rcases Nat.lt_or_ge before.length count with through | within
      · -- the lower half commits
        obtain ⟨many, rfl⟩ := Nat.exists_eq_add_of_lt through
        have taken : (before ++ lowStore mailbox :: after).take
            (before.length + many + 1) =
              before ++ lowStore mailbox :: after.take many := by
          rw [Nat.add_assoc, List.take_length_add_append, List.take_succ_cons]
        have left : (before ++ lowStore mailbox :: after).drop
            (before.length + many + 1) = after.drop many := by
          rw [Nat.add_assoc, List.drop_length_add_append, List.drop_succ_cons]
        rw [taken, left, List.foldl_append, settled, List.foldl_cons,
          foldl_highStore (lowStore_high zero) (part many high).1]
        exact .visible (part many high).2
      · rw [List.take_append_of_le_length within,
          List.drop_append_of_le_length within]
        exact .posted (rested.commit count)
          ((foldl_commit flat before count).trans settled) high
  | visible high =>
      rw [foldl_highStore (lowStore_high zero) (part count high).1]
      exact .visible (part count high).2

end Sent

end Rest

/-! ## The board and the calls in one step -/

namespace HostSystem

variable {ω τ : Type} {system : HostSystem ω τ}

section Stores

/-- The stores of a call before that of the lower half of the address -/
def beforeLow (system : HostSystem ω τ) (words : List (Fin 8 × RegT)) :
    List StoreRequest :=
  system.cmdStores words ++
    if system.lowFirst then [] else [highStore system.mailbox]

/-- The stores of a call after it -/
def afterLow (system : HostSystem ω τ) : List StoreRequest :=
  if system.lowFirst then [highStore system.mailbox] else []

theorem callStores_eq (words : List (Fin 8 × RegT)) :
    system.cmdStores words ++ system.tohostStores =
      system.beforeLow words ++
        lowStore system.mailbox :: system.afterLow := by
  have low : (system.mailbox.tohostCmd.setWidth 64).setWidth 32 =
      system.mailbox.tohostCmd := by
    rw [BitVec.setWidth_setWidth_of_le _ (by decide), BitVec.setWidth_eq]
  have high : (system.mailbox.tohostCmd.setWidth 64 >>> 32).setWidth 32 =
      0 := by
    rw [pointer_shiftRight _ (by decide)]
    rfl
  unfold tohostStores halves beforeLow afterLow lowStore highStore
  rw [low, high, List.append_assoc]
  cases system.lowFirst <;> rfl

theorem cmdStores_place {words : List (Fin 8 × RegT)} {req : StoreRequest}
    (member : req ∈ system.cmdStores words) :
    ∃ k, k + 4 ≤ 64 ∧ req.bytes.length = 4 ∧
      req.addr = system.mailbox.tohostCmd + BitVec.ofNat 32 k := by
  rw [cmdStores, List.mem_flatMap] at member
  rcases member with ⟨word, -, half⟩
  have index := word.1.isLt
  rcases halves_place half with ⟨k, inside, length, place⟩
  refine ⟨8 * word.1.val + k, by omega, length, ?_⟩
  rw [place, BitVec.ofNat_add, ← BitVec.add_assoc]

theorem cmdStores_apart {words : List (Fin 8 × RegT)} {req : StoreRequest}
    (member : req ∈ system.cmdStores words) {addr : SimAddr}
    (apart : Apart addr 8 system.mailbox.tohostCmd 64) :
    Apart addr 8 req.addr req.bytes.length := by
  rcases cmdStores_place member with ⟨k, inside, length, place⟩
  rw [length, place]
  have part := apart.within (by decide : 0 + 8 ≤ 8) inside
  rwa [BitVec.add_zero] at part

theorem quiet_cmdStores {words : List (Fin 8 × RegT)} :
    ∀ req ∈ system.cmdStores words, Quiet system.mailbox req := by
  intro req member
  apply quiet_of_apart (cmdStores_apart member system.mailbox.tohost_cmd)
  rcases cmdStores_place member with ⟨k, inside, length, place⟩
  rw [place]
  exact system.mailbox.cmd_ordinary k (by omega)

theorem quiet_beforeLow {words : List (Fin 8 × RegT)} :
    ∀ req ∈ system.beforeLow words, Quiet system.mailbox req := by
  intro req member
  rcases List.mem_append.mp member with word | half
  · exact quiet_cmdStores req word
  · cases first : system.lowFirst with
    | true =>
        rw [first] at half
        cases half
    | false =>
        rw [first] at half
        rw [List.mem_singleton.mp half]
        exact quiet_highStore system.mailbox

/-- A mailbox apart from the command words stays clear. -/
theorem foldl_cmdStores_zero {memory : Memory 32} {addr : SimAddr}
    (zero : Zero memory addr)
    (apart : Apart addr 8 system.mailbox.tohostCmd 64)
    (words : List (Fin 8 × RegT)) :
    Zero ((system.cmdStores words).foldl StoreRequest.write memory) addr := by
  have all : ∀ req ∈ system.cmdStores words,
      Apart addr 8 req.addr req.bytes.length :=
    fun req member => cmdStores_apart member apart
  generalize system.cmdStores words = stores at all
  induction stores generalizing memory with
  | nil => exact zero
  | cons req rest induction =>
      exact induction (zero.write_apart (all req List.mem_cons_self))
        fun later member => all later (List.mem_cons_of_mem req member)

theorem foldl_beforeLow {memory : Memory 32}
    (zero : Zero memory system.mailbox.tohost)
    (words : List (Fin 8 × RegT)) :
    (system.beforeLow words).foldl StoreRequest.write memory =
      (system.cmdStores words).foldl StoreRequest.write memory := by
  have cleared := foldl_cmdStores_zero zero system.mailbox.tohost_cmd words
  rw [beforeLow, List.foldl_append]
  cases system.lowFirst with
  | true => rfl
  | false => exact write_zero_half cleared.halves.2

/-- The memory in which the host has answered. -/
def answered (system : HostSystem ω τ) (memory : Memory 32) : Memory 32 :=
  write memory system.mailbox.fromhost (toBytes 8 1)

theorem answered_zero {memory : Memory 32}
    (zero : Zero memory system.mailbox.tohost) :
    Zero (system.answered memory) system.mailbox.tohost := by
  have length : (toBytes 8 1).length = 8 := length_toBytes 8 1
  exact (system.mailbox.tohost_fromhost.load_write memory length).trans zero

theorem foldl_clearStores {memory : Memory 32}
    (zero : Zero memory system.mailbox.fromhost) :
    system.clearStores.foldl StoreRequest.write (system.answered memory) =
      memory := by
  have zeros : toBytes 8 (0 : RegT).toNat = List.replicate 8 0 :=
    toBytes_zero 8
  have covers : (toBytes 8 1).length ≤ (List.replicate 8 (0 : Byte)).length := by
    rw [length_toBytes]
    decide
  rw [clearStores, write_halves, zeros, answered, write_covered _ _ covers]
  exact zero.write_eq

theorem quiet_clearStores :
    ∀ req ∈ system.clearStores, Quiet system.mailbox req := by
  intro req member
  rcases halves_place member with ⟨k, inside, length, place⟩
  apply quiet_of_apart
  · have part := system.mailbox.tohost_fromhost.within
      (by decide : 0 + 8 ≤ 8) inside
    rw [BitVec.add_zero] at part
    rwa [length, place]
  · rw [place]
    exact system.mailbox.fromhost_ordinary k (by omega)

end Stores

/-- The program has posted its call and waits for the answer. -/
def Waits (system : HostSystem ω τ) (after : RegT → τ) (phase : Phase τ) :
    Prop :=
  phase = .posting [highStore system.mailbox] after ∨
    ∃ first, phase = .polling first after

/-- Where the board is, against a host and a program between two calls: the
memory that the host sees, the stores that wait, and the program. -/
inductive Stage (system : HostSystem ω τ) (host : HostState (Memory 32) ω)
    (client : τ) : Phase τ → Memory 32 → List StoreRequest → Prop
  | running {flat pending} (rested : Rested system.mailbox flat pending)
      (settled : pending.foldl StoreRequest.write flat = host.memory) :
      Stage system host client (.running client) flat pending
  | posting {flat pending words after early late}
      (action : system.program client (window host.memory) =
        .call words after)
      (parts : system.beforeLow words = early ++ late)
      (rested : Rested system.mailbox flat pending)
      (settled : pending.foldl StoreRequest.write flat =
        early.foldl StoreRequest.write host.memory) :
      Stage system host client
        (.posting (late ++ lowStore system.mailbox :: system.afterLow) after)
        flat pending
  | sent {phase flat pending words after}
      (action : system.program client (window host.memory) =
        .call words after)
      (waits : system.Waits after phase)
      (unseen : ∀ first, phase = .polling (some first) after → first = 0)
      (sent : Sent system.mailbox
        ((system.cmdStores words).foldl StoreRequest.write host.memory) flat
        pending) :
      Stage system host client phase flat pending
  | answered {phase pending after}
      (result : client =
        after (word64 host.memory system.mailbox.tohostCmd))
      (waits : system.Waits after phase)
      (high : ∀ req ∈ pending, req = highStore system.mailbox) :
      Stage system host client phase (system.answered host.memory) pending
  | clearing {flat pending after early late}
      (result : client =
        after (word64 host.memory system.mailbox.tohostCmd))
      (parts : system.clearStores = early ++ late)
      (rested : Rested system.mailbox flat pending)
      (settled : pending.foldl StoreRequest.write flat =
        early.foldl StoreRequest.write (system.answered host.memory)) :
      Stage system host client (.clearing late after) flat pending
  | collecting {flat pending after first}
      (result : client =
        after (word64 host.memory system.mailbox.tohostCmd))
      (rested : Rested system.mailbox flat pending)
      (settled : pending.foldl StoreRequest.write flat = host.memory)
      (half : ∀ value, first = some value → value =
        BitVec.ofNat 32 (ofBytes (load host.memory
          (firstHalf system.lowFirst system.mailbox.tohostCmd) 4))) :
      Stage system host client (.collecting first after) flat pending

/-- Between calls both mailboxes are clear and no response waits. -/
structure Clean (system : HostSystem ω τ) (host : HostState (Memory 32) ω) :
    Prop where
  empty : host.fromhostQueue = []
  tohost : Zero host.memory system.mailbox.tohost
  fromhost : Zero host.memory system.mailbox.fromhost

/-- What the program does leaves the mailboxes to `send_syscall`: its own
stores, and what the host writes for a call. -/
structure Respects (system : HostSystem ω τ) (atomic : Atomic ω τ) : Prop where
  store : ∀ req after,
    system.program atomic.client (window atomic.host.memory) =
        .store req after →
      Apart system.mailbox.tohost 8 req.addr req.bytes.length ∧
        Apart system.mailbox.fromhost 8 req.addr req.bytes.length ∧
        OrdinaryAddr req.addr
  call : ∀ words after host,
    system.program atomic.client (window atomic.host.memory) =
        .call words after →
    dispatch system.flatConfig (system.mailbox.tohostCmd.setWidth 64)
        (system.called atomic.host words) = .ok ((), host) →
      Zero host.memory system.mailbox.tohost ∧
        Zero host.memory system.mailbox.fromhost

namespace Stage

variable {host : HostState (Memory 32) ω} {client : τ} {phase : Phase τ}
  {flat : Memory 32} {pending : List StoreRequest}

theorem ordinary (stage : Stage system host client phase flat pending) :
    ∀ req ∈ pending, OrdinaryAddr req.addr := by
  have rest : Rested system.mailbox flat pending →
      ∀ req ∈ pending, OrdinaryAddr req.addr :=
    fun rested req member => (rested.quiet req member).1
  cases stage with
  | running rested => exact rest rested
  | posting action parts rested => exact rest rested
  | sent action waits unseen sent => exact sent.ordinary
  | answered result waits high =>
      intro req member
      rw [high req member]
      exact (quiet_highStore system.mailbox).1
  | clearing result parts rested => exact rest rested
  | collecting result rested => exact rest rested

theorem commit (clean : system.Clean host)
    (stage : Stage system host client phase flat pending) (count : Nat) :
    Stage system host client phase
      ((pending.take count).foldl StoreRequest.write flat)
      (pending.drop count) := by
  have same := foldl_commit flat pending count
  cases stage with
  | running rested settled =>
      exact .running (rested.commit count) (same.trans settled)
  | posting action parts rested settled =>
      exact .posting action parts (rested.commit count) (same.trans settled)
  | @sent _ _ _ words _ action waits unseen sent =>
      have zero := foldl_cmdStores_zero clean.tohost
        system.mailbox.tohost_cmd words
      exact .sent action waits unseen (sent.commit zero count)
  | answered result waits high =>
      have zero : Zero (system.answered host.memory)
          system.mailbox.tohost := answered_zero clean.tohost
      rw [foldl_highStore zero.halves.2 fun req member =>
        high req (List.mem_of_mem_take member)]
      exact .answered result waits fun req member =>
        high req (List.mem_of_mem_drop member)
  | clearing result parts rested settled =>
      exact .clearing result parts (rested.commit count) (same.trans settled)
  | collecting result rested settled half =>
      exact .collecting result (rested.commit count) (same.trans settled) half

theorem sees_fromhost (clean : system.Clean host)
    {words : List (Fin 8 × RegT)}
    (sent : Sent system.mailbox
      ((system.cmdStores words).foldl StoreRequest.write host.memory) flat
      pending) :
    Zero (pending.foldl StoreRequest.write flat) system.mailbox.fromhost := by
  have length : (toBytes 4 system.mailbox.tohostCmd.toNat).length = 4 :=
    length_toBytes 4 _
  have apart := system.mailbox.tohost_fromhost.symm.within
    (by decide : 0 + 8 ≤ 8) (by decide : 0 + 4 ≤ 8)
  rw [BitVec.add_zero, BitVec.add_zero] at apart
  rw [sent.settled (foldl_cmdStores_zero clean.tohost
    system.mailbox.tohost_cmd words), lowStore, write_wordStore, Zero,
    apart.load_write _ length]
  exact foldl_cmdStores_zero clean.fromhost system.mailbox.fromhost_cmd words

/-- The host sees no command, or the address of the words of a call. -/
theorem sees (clean : system.Clean host)
    (stage : Stage system host client phase flat pending) :
    Zero flat system.mailbox.tohost ∨
      ∃ words after,
        system.program client (window host.memory) = .call words after ∧
          system.Waits after phase ∧
          flat = (lowStore system.mailbox).write
            ((system.cmdStores words).foldl StoreRequest.write
              host.memory) ∧
          ∀ req ∈ pending, req = highStore system.mailbox := by
  cases stage with
  | running rested => exact .inl rested.zero
  | posting action parts rested => exact .inl rested.zero
  | sent action waits unseen sent =>
      cases sent with
      | posted rested => exact .inl rested.zero
      | visible high => exact .inr ⟨_, _, action, waits, rfl, high⟩
  | answered result waits high => exact .inl (answered_zero clean.tohost)
  | clearing result parts rested => exact .inl rested.zero
  | collecting result rested => exact .inl rested.zero

end Stage

/-- The board does what the calls in one step do: all but the memory of the
hosts is the same, and the memory is as far as the stage says. -/
structure Matches (system : HostSystem ω τ) (board : Board ω τ)
    (atomic : Atomic ω τ) : Prop where
  same : { board.host.map BucketMemory.flat with
    memory := atomic.host.memory } = atomic.host
  clean : system.Clean atomic.host
  stage : Stage system atomic.host atomic.client board.phase
    board.host.memory.flat board.pending

section Steps

variable {board next : Board ω τ} {atomic : Atomic ω τ}

/-- The atomic machine does not move, or makes one step. -/
def Follows (system : HostSystem ω τ) (atomic : Atomic ω τ)
    (board : Board ω τ) : Prop :=
  ∃ atomic', (atomic' = atomic ∨ system.AtomicStep atomic atomic') ∧
    system.Matches board atomic'

theorem Matches.stay (agrees : system.Matches board atomic)
    {pending : List StoreRequest} {phase : Phase τ}
    (stage : Stage system atomic.host atomic.client phase
      board.host.memory.flat pending) :
    system.Follows atomic { board with pending, phase } :=
  ⟨atomic, .inl rfl, agrees.same, agrees.clean, stage⟩

theorem view_eq {memory : Memory 32}
    (settled : board.pending.foldl StoreRequest.write
      board.host.memory.flat = memory) : board.view = window memory := by
  funext addr
  rw [← settled]
  exact board.storeBuffer.loadData_window addr

theorem Matches.running (agrees : system.Matches board atomic)
    (respects : system.Respects atomic)
    (phase : board.phase = .running atomic.client)
    (rested : Rested system.mailbox board.host.memory.flat board.pending)
    (settled : board.pending.foldl StoreRequest.write
      board.host.memory.flat = atomic.host.memory)
    (ran : system.client board = some next) :
    system.Follows atomic next := by
  unfold client at ran
  rw [phase, view_eq settled] at ran
  dsimp only at ran
  cases action : system.program atomic.client (window atomic.host.memory) with
  | store req after =>
      rw [action] at ran
      obtain rfl := Option.some.inj ran
      rcases respects.store req after action with
        ⟨tohost, fromhost, ordinary⟩
      refine ⟨_, .inr (.store action), ?_, ?_, ?_⟩
      · exact congrArg (fun host : HostState (Memory 32) ω =>
          { host with memory := req.write atomic.host.memory }) agrees.same
      · exact ⟨agrees.clean.empty, agrees.clean.tohost.write_apart tohost,
          agrees.clean.fromhost.write_apart fromhost⟩
      · apply Stage.running
        · exact rested.execute (quiet_of_apart tohost ordinary)
        · change (board.pending ++ [req]).foldl StoreRequest.write
            board.host.memory.flat = _
          rw [List.foldl_append, settled]
          rfl
  | call words after =>
      rw [action] at ran
      obtain rfl := Option.some.inj ran
      apply agrees.stay
      rw [callStores_eq]
      have none : board.pending.foldl StoreRequest.write
          board.host.memory.flat =
            [].foldl StoreRequest.write atomic.host.memory := settled
      exact Stage.posting action (List.nil_append _).symm rested none
  | halt =>
      rw [action] at ran
      cases ran

theorem Matches.posting (agrees : system.Matches board atomic)
    {words : List (Fin 8 × RegT)} {after : RegT → τ}
    {early late : List StoreRequest}
    (phase : board.phase = .posting
      (late ++ lowStore system.mailbox :: system.afterLow) after)
    (action : system.program atomic.client (window atomic.host.memory) =
      .call words after)
    (parts : system.beforeLow words = early ++ late)
    (rested : Rested system.mailbox board.host.memory.flat board.pending)
    (settled : board.pending.foldl StoreRequest.write
        board.host.memory.flat =
      early.foldl StoreRequest.write atomic.host.memory)
    (ran : system.client board = some next) :
    system.Follows atomic next := by
  unfold client at ran
  rw [phase] at ran
  cases late with
  | cons req rest =>
      have more : (rest ++ lowStore system.mailbox :: system.afterLow) ≠ [] := by
        simp
      have ran : some (board.execute req (.posting
          (rest ++ lowStore system.mailbox :: system.afterLow) after)) =
            some next := by
        cases left : rest ++ lowStore system.mailbox :: system.afterLow with
        | nil => exact absurd left more
        | cons other others =>
            rw [List.cons_append, left] at ran
            exact ran
      obtain rfl := Option.some.inj ran
      have member : req ∈ system.beforeLow words := by
        rw [parts]
        exact List.mem_append_right early List.mem_cons_self
      have further : system.beforeLow words = (early ++ [req]) ++ rest := by
        rw [parts, List.append_assoc]
        rfl
      apply agrees.stay
      apply Stage.posting action further
      · exact rested.execute (quiet_beforeLow req member)
      · change (board.pending ++ [req]).foldl StoreRequest.write _ = _
        rw [List.foldl_append, List.foldl_append, settled]
  | nil =>
      rw [List.append_nil] at parts
      have sent : Sent system.mailbox
          ((system.cmdStores words).foldl StoreRequest.write
            atomic.host.memory) board.host.memory.flat
          (board.pending ++ [lowStore system.mailbox]) := by
        apply Sent.posted rested
        · rw [settled, ← parts, foldl_beforeLow agrees.clean.tohost]
        · intro req member
          cases member
      cases order : system.lowFirst with
      | true =>
          rw [afterLow, order] at ran
          obtain rfl := Option.some.inj ran
          apply agrees.stay
          apply Stage.sent action (.inl rfl) _ sent
          intro first polling
          cases polling
      | false =>
          rw [afterLow, order] at ran
          obtain rfl := Option.some.inj ran
          apply agrees.stay
          apply Stage.sent action (.inr ⟨none, rfl⟩) _ sent
          intro first polling
          cases polling

theorem client_waiting
    {after : RegT → τ} (waits : system.Waits after board.phase)
    (ran : system.client board = some next) :
    (next = board.execute (highStore system.mailbox) (.polling none after)) ∨
      (board.phase = .polling none after ∧
        next = { board with
          phase := .polling (some (board.loadWord
            (firstHalf system.lowFirst system.mailbox.fromhost))) after }) ∨
      (∃ first, board.phase = .polling (some first) after ∧
        next = { board with
          phase :=
            if joinHalves system.lowFirst first (board.loadWord
                (secondHalf system.lowFirst system.mailbox.fromhost)) = 0
            then .polling none after
            else .clearing system.clearStores after }) := by
  unfold client at ran
  rcases waits with posting | ⟨first, polling⟩
  · rw [posting] at ran
    exact .inl (Option.some.inj ran).symm
  · rw [polling] at ran
    cases first with
    | none => exact .inr (.inl ⟨polling, (Option.some.inj ran).symm⟩)
    | some first =>
        refine .inr (.inr ⟨first, polling, ?_⟩)
        dsimp only at ran
        split at ran
        · rename_i zero
          rw [if_pos zero]
          exact (Option.some.inj ran).symm
        · rename_i nonzero
          rw [if_neg nonzero]
          exact (Option.some.inj ran).symm

/-- A program whose call the host has not seen sees no answer. -/
theorem Matches.sent (agrees : system.Matches board atomic)
    {words : List (Fin 8 × RegT)} {after : RegT → τ}
    (action : system.program atomic.client (window atomic.host.memory) =
      .call words after)
    (waits : system.Waits after board.phase)
    (unseen : ∀ first, board.phase = .polling (some first) after →
      first = 0)
    (sent : Sent system.mailbox
      ((system.cmdStores words).foldl StoreRequest.write atomic.host.memory)
      board.host.memory.flat board.pending)
    (ran : system.client board = some next) :
    system.Follows atomic next := by
  have sees : Zero board.storeBuffer.settled system.mailbox.fromhost :=
    Stage.sees_fromhost agrees.clean sent
  rcases client_waiting waits ran with rfl | ⟨-, rfl⟩ | ⟨first, polling, rfl⟩
  · apply agrees.stay
    apply Stage.sent action (.inr ⟨none, rfl⟩) _ sent.post
    intro first polling
    cases polling
  · apply agrees.stay
    apply Stage.sent action (.inr ⟨_, rfl⟩) _ sent
    intro first polling
    cases polling
    rw [board.loadWord_eq, sees.firstHalf]
    rfl
  · have none : joinHalves system.lowFirst first (board.loadWord
        (secondHalf system.lowFirst system.mailbox.fromhost)) = 0 := by
      rw [unseen first polling, board.loadWord_eq, sees.secondHalf]
      cases system.lowFirst <;> rfl
    rw [if_pos none]
    apply agrees.stay
    apply Stage.sent action (.inr ⟨_, rfl⟩) _ sent
    intro first polling
    cases polling

theorem Matches.answered (agrees : system.Matches board atomic)
    {after : RegT → τ}
    (result : atomic.client =
      after (word64 atomic.host.memory system.mailbox.tohostCmd))
    (waits : system.Waits after board.phase)
    (memory : board.host.memory.flat = system.answered atomic.host.memory)
    (high : ∀ req ∈ board.pending, req = highStore system.mailbox)
    (ran : system.client board = some next) :
    system.Follows atomic next := by
  have tohost : Zero (system.answered atomic.host.memory)
      system.mailbox.tohost := answered_zero agrees.clean.tohost
  rcases client_waiting waits ran with rfl | ⟨-, rfl⟩ | ⟨first, -, rfl⟩
  · apply agrees.stay
    rw [memory]
    apply Stage.answered result (.inr ⟨none, rfl⟩)
    intro req member
    rcases List.mem_append.mp member with old | new
    · exact high req old
    · exact List.mem_singleton.mp new
  · apply agrees.stay
    rw [memory]
    exact Stage.answered result (.inr ⟨_, rfl⟩) high
  · split
    · apply agrees.stay
      rw [memory]
      exact Stage.answered result (.inr ⟨_, rfl⟩) high
    · apply agrees.stay
      rw [memory]
      have none : board.pending.foldl StoreRequest.write
          (system.answered atomic.host.memory) =
            [].foldl StoreRequest.write
              (system.answered atomic.host.memory) :=
        foldl_highStore tohost.halves.2 high
      refine Stage.clearing result (List.nil_append _).symm ⟨tohost, ?_⟩ none
      intro req member
      rw [high req member]
      exact quiet_highStore system.mailbox

theorem Matches.clearing (agrees : system.Matches board atomic)
    {after : RegT → τ} {early late : List StoreRequest}
    (phase : board.phase = .clearing late after)
    (result : atomic.client =
      after (word64 atomic.host.memory system.mailbox.tohostCmd))
    (parts : system.clearStores = early ++ late)
    (rested : Rested system.mailbox board.host.memory.flat board.pending)
    (settled : board.pending.foldl StoreRequest.write
        board.host.memory.flat =
      early.foldl StoreRequest.write (system.answered atomic.host.memory))
    (ran : system.client board = some next) :
    system.Follows atomic next := by
  unfold client at ran
  rw [phase] at ran
  cases late with
  | nil => cases ran
  | cons req rest =>
      have member : req ∈ system.clearStores := by
        rw [parts]
        exact List.mem_append_right early List.mem_cons_self
      have further : system.clearStores = (early ++ [req]) ++ rest := by
        rw [parts, List.append_assoc]
        rfl
      have more := rested.execute (quiet_clearStores req member)
      have written : (board.pending ++ [req]).foldl StoreRequest.write
          board.host.memory.flat =
            (early ++ [req]).foldl StoreRequest.write
              (system.answered atomic.host.memory) := by
        rw [List.foldl_append, List.foldl_append, settled]
      cases rest with
      | nil =>
          obtain rfl := Option.some.inj ran
          rw [List.append_nil] at further
          rw [← further, foldl_clearStores agrees.clean.fromhost] at written
          apply agrees.stay
          apply Stage.collecting result more written
          intro value seen
          cases seen
      | cons other others =>
          obtain rfl := Option.some.inj ran
          apply agrees.stay
          exact Stage.clearing result further more written

theorem Matches.collecting (agrees : system.Matches board atomic)
    {after : RegT → τ} {first : Option (BitVec 32)}
    (phase : board.phase = .collecting first after)
    (result : atomic.client =
      after (word64 atomic.host.memory system.mailbox.tohostCmd))
    (rested : Rested system.mailbox board.host.memory.flat board.pending)
    (settled : board.pending.foldl StoreRequest.write
      board.host.memory.flat = atomic.host.memory)
    (half : ∀ value, first = some value → value =
      BitVec.ofNat 32 (ofBytes (load atomic.host.memory
        (firstHalf system.lowFirst system.mailbox.tohostCmd) 4)))
    (ran : system.client board = some next) :
    system.Follows atomic next := by
  have sees : board.storeBuffer.settled = atomic.host.memory := settled
  unfold client at ran
  rw [phase] at ran
  cases first with
  | none =>
      obtain rfl := Option.some.inj ran
      apply agrees.stay
      apply Stage.collecting result rested settled
      intro value seen
      rw [← Option.some.inj seen, board.loadWord_eq, sees]
  | some first =>
      obtain rfl := Option.some.inj ran
      apply agrees.stay
      have joined : joinHalves system.lowFirst first (board.loadWord
          (secondHalf system.lowFirst system.mailbox.tohostCmd)) =
            word64 atomic.host.memory system.mailbox.tohostCmd := by
        rw [half first rfl, board.loadWord_eq, sees]
        exact joinHalves_bytes _ _ _
      rw [joined, ← result]
      exact Stage.running rested settled

theorem Matches.client (agrees : system.Matches board atomic)
    (respects : system.Respects atomic)
    (ran : system.client board = some next) :
    system.Follows atomic next := by
  have stage := agrees.stage
  generalize phase : board.phase = where_ at stage
  generalize memory : board.host.memory.flat = flat at stage
  generalize waiting : board.pending = pending at stage
  cases stage with
  | running rested settled =>
      subst memory waiting
      exact agrees.running respects phase rested settled ran
  | posting action parts rested settled =>
      subst memory waiting
      exact agrees.posting phase action parts rested settled ran
  | sent action waits unseen sent =>
      subst memory waiting phase
      exact agrees.sent action waits unseen sent ran
  | answered result waits high =>
      subst waiting phase
      exact agrees.answered result waits memory high ran
  | clearing result parts rested settled =>
      subst memory waiting
      exact agrees.clearing phase result parts rested settled ran
  | collecting result rested settled half =>
      subst memory waiting
      exact agrees.collecting phase result rested settled half ran

variable {host : HostState BucketMemory ω}

theorem inFrontOfBytes : InFrontOfBytes system.flatConfig := rfl

theorem flat_poll
    (ran : processHtio system.config board.host = .ok ((), host)) :
    processHtio system.flatConfig (board.host.map BucketMemory.flat) =
      .ok ((), host.map BucketMemory.flat) := by
  have mirrors : Mirrors BucketMemory.flat (processHtio system.config)
      (processHtio system.flatConfig) := processHtio_mirrors simT_maps
  have mirrored := mirrors board.host
  rw [ran] at mirrored
  exact mirrored

theorem Matches.empty (agrees : system.Matches board atomic) :
    (board.host.map BucketMemory.flat).fromhostQueue = [] := by
  have same := congrArg HostState.fromhostQueue agrees.same
  exact same.trans agrees.clean.empty

/-- A poll that sees no command leaves everything as it is. -/
theorem Matches.idle (agrees : system.Matches board atomic)
    (zero : Zero board.host.memory.flat system.mailbox.tohost)
    (ran : processHtio system.config board.host = .ok ((), host)) :
    host.map BucketMemory.flat = board.host.map BucketMemory.flat := by
  have idle := processHtio_idle inFrontOfBytes rfl
    system.mailbox.tohost_aligned zero agrees.empty
  exact congrArg Prod.snd (Except.ok.inj ((flat_poll ran).symm.trans idle))

/-- A poll that sees a call carries it out and answers. -/
theorem Matches.handled (agrees : system.Matches board atomic)
    (respects : system.Respects atomic)
    {words : List (Fin 8 × RegT)} {after : RegT → τ}
    (action : system.program atomic.client (window atomic.host.memory) =
      .call words after)
    (waits : system.Waits after board.phase)
    (visible : board.host.memory.flat = (lowStore system.mailbox).write
      ((system.cmdStores words).foldl StoreRequest.write
        atomic.host.memory))
    (high : ∀ req ∈ board.pending, req = highStore system.mailbox)
    (ran : processHtio system.config board.host = .ok ((), host)) :
    ∃ atomic', system.AtomicStep atomic atomic' ∧
      system.Matches { board with host } atomic' ∧
      host.memory.flat = system.answered atomic'.host.memory := by
  have zero := foldl_cmdStores_zero agrees.clean.tohost
    system.mailbox.tohost_cmd words
  have posted : word64 (board.host.map BucketMemory.flat).memory
      system.mailbox.tohost = system.mailbox.tohostCmd.setWidth 64 := by
    change word64 board.host.memory.flat _ = _
    rw [visible]
    exact lowStore_word zero
  rcases processHtio_posted inFrontOfBytes rfl rfl
    system.mailbox.tohost_aligned system.mailbox.fromhost_aligned
    system.mailbox.cmd_even system.mailbox.cmd_ne_zero posted agrees.empty
    (flat_poll ran) with ⟨handled, call, answer⟩
  have called : { board.host.map BucketMemory.flat with
      memory := write (board.host.map BucketMemory.flat).memory
        system.mailbox.tohost (List.replicate 8 0) } =
        system.called atomic.host words := by
    change { board.host.map BucketMemory.flat with
      memory := write board.host.memory.flat system.mailbox.tohost
        (List.replicate 8 0) } = _
    rw [visible, lowStore_cleared zero]
    exact congrArg (fun host : HostState (Memory 32) ω =>
      { host with
        memory := (system.cmdStores words).foldl StoreRequest.write
          atomic.host.memory }) agrees.same
  rw [called] at call
  rcases respects.call words after handled action call with
    ⟨tohost, fromhost⟩
  have last := answer fromhost
  have memory : host.memory.flat = system.answered handled.memory :=
    congrArg HostState.memory last
  refine ⟨_, .call action call, ⟨?_, ⟨?_, tohost, fromhost⟩, ?_⟩, memory⟩
  · change { host.map BucketMemory.flat with memory := handled.memory } =
      handled
    rw [last]
  · exact (dispatch_queue call).trans agrees.clean.empty
  · change Stage system handled _ board.phase host.memory.flat board.pending
    rw [memory]
    exact Stage.answered rfl waits high

theorem Matches.poll (agrees : system.Matches board atomic)
    (respects : system.Respects atomic)
    (ran : processHtio system.config board.host = .ok ((), host)) :
    system.Follows atomic { board with host } := by
  rcases agrees.stage.sees agrees.clean with
    zero | ⟨words, after, action, waits, visible, high⟩
  · have unchanged := agrees.idle zero ran
    have memory : host.memory.flat = board.host.memory.flat :=
      congrArg HostState.memory unchanged
    refine ⟨atomic, .inl rfl, ?_, agrees.clean, ?_⟩
    · change { host.map BucketMemory.flat with
        memory := atomic.host.memory } = atomic.host
      rw [unchanged]
      exact agrees.same
    · change Stage system atomic.host atomic.client board.phase
        host.memory.flat board.pending
      rw [memory]
      exact agrees.stage
  · rcases agrees.handled respects action waits visible high ran with
      ⟨atomic', step, matched, -⟩
    exact ⟨atomic', .inr step, matched⟩

/-- Once the stores of a call have committed, a poll answers it. -/
theorem Matches.answers (agrees : system.Matches board atomic)
    (respects : system.Respects atomic) {first : Option (BitVec 32)}
    {after : RegT → τ} (phase : board.phase = .polling first after)
    (settled : board.pending = [])
    (ran : processHtio system.config board.host = .ok ((), host)) :
    word64 host.memory.flat system.mailbox.fromhost = 1 := by
  have one : ∀ memory,
      word64 (system.answered memory) system.mailbox.fromhost = 1 :=
    fun memory => word64_write memory _ 1
  have stage := agrees.stage
  generalize memory : board.host.memory.flat = flat at stage
  rw [phase, settled] at stage
  generalize nothing : ([] : List StoreRequest) = pending at stage
  cases stage with
  | sent action waits unseen sent =>
      cases sent with
      | posted =>
          cases List.append_eq_nil_iff.mp nothing.symm |>.2
      | visible high =>
          rw [← phase] at waits
          rw [← nothing, ← settled] at high
          rcases agrees.handled respects action waits memory high ran with
            ⟨atomic', -, -, answer⟩
          rw [answer]
          exact one _
  | answered result waits high =>
      have zero : Zero board.host.memory.flat system.mailbox.tohost := by
        rw [memory]
        exact answered_zero agrees.clean.tohost
      have unchanged : host.memory.flat = board.host.memory.flat :=
        congrArg HostState.memory (agrees.idle zero ran)
      rw [unchanged, memory]
      exact one _

theorem Matches.step (agrees : system.Matches board atomic)
    (respects : system.Respects atomic) (step : system.Step board next) :
    system.Follows atomic next := by
  cases step with
  | client ran => exact agrees.client respects ran
  | load addr =>
      have memory := board.storeBuffer.flat_loadData addr
      refine ⟨atomic, .inl rfl, agrees.same, agrees.clean, ?_⟩
      change Stage system atomic.host atomic.client board.phase
        (board.storeBuffer.loadData addr).1.memory.flat board.pending
      rw [memory]
      exact agrees.stage
  | commit count within =>
      have ordinary : board.storeBuffer.Ordinary :=
        fun req member => agrees.stage.ordinary req member
      have memory := flat_commitStoreRequest ordinary within
      have left : (board.storeBuffer.commitStoreRequest count).1.buffer =
          board.pending.drop count := by
        rw [(commitStoreRequest_runs ordinary within).1]
        exact commitLoop_buffer count board.storeBuffer
          (commitStoreRequest_runs ordinary within).2
      refine ⟨atomic, .inl rfl, agrees.same, agrees.clean, ?_⟩
      change Stage system atomic.host atomic.client board.phase
        (board.storeBuffer.commitStoreRequest count).1.memory.flat
        (board.storeBuffer.commitStoreRequest count).1.buffer
      rw [memory, left]
      exact agrees.stage.commit agrees.clean count
  | poll ran => exact agrees.poll respects ran

end Steps

end HostSystem

end Ria
