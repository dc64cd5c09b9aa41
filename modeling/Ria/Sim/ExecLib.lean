import Ria.Sim.FlatMemory
import Ria.Sim.HostRefinement

/-!
# Programs on the library of the target

A program that calls the host through `tohost_open`, `tohost_close`,
`tohost_read`, `tohost_write` and `tohost_printstr` only leaves the mailboxes
to `send_syscall` as long as neither its own stores nor the buffers it reads
into meet them.
-/

namespace Ria

open ByteMemory StoreBuffer

/-- A call of the library; a buffer that the host fills is apart from the
mailboxes. -/
inductive LibraryCall (mailbox : Mailbox) : List (Fin 8 × RegT) → Prop
  | open_ (file : BitVec 32) (len flag : RegT) :
      LibraryCall mailbox (tohostOpen file len flag)
  | close (fd : RegT) : LibraryCall mailbox (tohostClose fd)
  | write (fd : RegT) (pbuf : BitVec 32) (len : RegT) :
      LibraryCall mailbox (tohostWrite fd pbuf len)
  | read (fd : RegT) (pbuf : BitVec 32) (len : RegT)
      (tohost : Apart mailbox.tohost 8 pbuf len.toNat)
      (fromhost : Apart mailbox.fromhost 8 pbuf len.toNat) :
      LibraryCall mailbox (tohostRead fd pbuf len)
  | printstr (str : BitVec 32) : LibraryCall mailbox (tohostPrintstr str)

/-- A program that leaves the mailboxes alone and calls the host through the
library. -/
structure HostSystem.Polite {ω τ : Type} (system : HostSystem ω τ) :
    Prop where
  store : ∀ client view req after,
    system.program client view = .store req after →
      Apart system.mailbox.tohost 8 req.addr req.bytes.length ∧
        Apart system.mailbox.fromhost 8 req.addr req.bytes.length ∧
        OrdinaryAddr req.addr
  call : ∀ client view words after,
    system.program client view = .call words after →
      LibraryCall system.mailbox words

/-- `read` stores no more than it was asked for. -/
def ShortReads {ω : Type} (os : HostOs ω) : Prop :=
  ∀ fd len state, (os (.read fd len) state).2.data.length ≤ len.toNat

section Footprint

variable {ω : Type} {config : HostConfig (Memory 32) ω}

/-- The byte at an address. -/
def byteAt (target : SimAddr) (state : HostState (Memory 32) ω) : Byte :=
  state.memory target

theorem frame_byteAt (bytes : InFrontOfBytes config) (target : SimAddr) :
    Frame config (Same (byteAt target)) := by
  refine Frame.ofPart ?_ (fun _ _ => rfl) (fun _ _ => rfl) (fun _ _ => rfl)
  intro addr len state result done
  rw [memRead_bytes bytes] at done
  rw [← Except.ok.inj done]
  rfl

theorem dispatch_cases (bytes : InFrontOfBytes config) {mm : AddrT}
    {state state' : HostState (Memory 32) ω}
    (handled : dispatch config mm state = .ok ((), state')) :
    ∃ call result middle,
      syscallTable config
          (magicWord (load state.memory (mm.setWidth 32) 64) 0).toNat
          (fun index => magicWord (load state.memory (mm.setWidth 32) 64)
            (index.val + 1)) = some call ∧
        call state = .ok (result, middle) ∧
        state' = { middle with
          memory := write middle.memory (mm.setWidth 32)
            (toBytes 8 result.toNat ++
              (load state.memory (mm.setWidth 32) 64).drop 8) } := by
  unfold dispatch at handled
  rw [HostM.bind_ok (memRead_bytes bytes mm 64 state)] at handled
  cases entry : syscallTable config
      (magicWord (load state.memory (mm.setWidth 32) 64) 0).toNat
      (fun index => magicWord (load state.memory (mm.setWidth 32) 64)
        (index.val + 1)) with
  | none =>
      simp only [entry] at handled
      cases handled
  | some call =>
      simp only [entry] at handled
      rcases HostM.bind_cases handled with ⟨result, middle, ran, written⟩
      refine ⟨call, result, middle, rfl, ran, ?_⟩
      have short : (toBytes 8 result.toNat ++
          (load state.memory (mm.setWidth 32) 64).drop 8).length ≤
            2 ^ 32 := by
        rw [List.length_append, length_toBytes, List.length_drop,
          length_load]
        decide
      rw [memWrite_bytes bytes mm short] at written
      exact (congrArg Prod.snd (Except.ok.inj written)).symm

theorem sysRead_along (bytes : InFrontOfBytes config)
    (short : ShortReads config.os) (fd : RegT) {pbuf len : RegT}
    (fits : len.toNat ≤ 2 ^ 32) {target : SimAddr}
    (outside : ∀ j, j < len.toNat →
      target ≠ pbuf.setWidth 32 + BitVec.ofNat 32 j) :
    Along (Same (byteAt target)) (sysRead config fd pbuf len) := by
  apply (frame_byteAt bytes target).bind (newVector_along
    (frame_byteAt bytes target) len)
  intro _ state last done
  rw [HostM.bind_ok rfl] at done
  rcases HostM.bind_cases done with ⟨result, middle, called, filled⟩
  have answer : (config.os (.read (Fds.lookup state.fds fd) len)
      state.os).2 = result := congrArg Prod.fst (Except.ok.inj called)
  have kept : state.memory = middle.memory :=
    congrArg (fun answer => answer.2.memory) (Except.ok.inj called)
  have length : result.data.length ≤ len.toNat := by
    rw [← answer]
    exact short _ len state.os
  rw [Same, byteAt, byteAt, kept]
  by_cases some : 0 < result.ret.toInt
  · rw [if_pos some, HostM.bind_ok (memWrite_bytes bytes pbuf
      (Nat.le_trans length fits) middle)] at filled
    rw [← Except.ok.inj filled]
    apply write_outside
    apply Nat.le_of_not_lt
    intro reached
    apply outside _ (Nat.lt_of_lt_of_le reached length)
    rw [BitVec.ofNat_toNat, BitVec.setWidth_eq, BitVec.add_comm,
      BitVec.sub_add_cancel]
  · rw [if_neg some] at filled
    rw [← Except.ok.inj filled]

end Footprint

/-! ## The words of a call -/

section Words

variable {ω τ : Type} {system : HostSystem ω τ}

theorem magicWord_load (memory : Memory 32) (addr : SimAddr) {i : Nat}
    (inside : i < 8) :
    magicWord (load memory addr 64) i =
      word64 memory (addr + BitVec.ofNat 32 (8 * i)) := by
  have part : ((load memory addr 64).drop (8 * i)).take 8 =
      load memory (addr + BitVec.ofNat 32 (8 * i)) 8 := by
    obtain ⟨rest, total⟩ : ∃ rest, 64 = 8 * i + (8 + rest) :=
      ⟨64 - 8 * i - 8, by omega⟩
    rw [total, load_add, List.drop_left' (length_load ..), load_add,
      List.take_left' (length_load ..)]
  rw [magicWord, part, word64]

theorem words_apart (addr : SimAddr) {i j : Nat} (first : i < 8)
    (second : j < 8) (other : i ≠ j) :
    Apart (addr + BitVec.ofNat 32 (8 * i)) 8
      (addr + BitVec.ofNat 32 (8 * j)) 8 := by
  intro k inFirst l inSecond same
  rw [BitVec.add_assoc, BitVec.add_assoc, ← BitVec.ofNat_add,
    ← BitVec.ofNat_add, BitVec.add_right_inj] at same
  have equal := congrArg BitVec.toNat same
  rw [BitVec.toNat_ofNat, BitVec.toNat_ofNat] at equal
  omega

theorem word64_write_word (memory : Memory 32) (addr : SimAddr)
    (i j : Fin 8) (value : RegT) :
    word64 (write memory (addr + BitVec.ofNat 32 (8 * j.val))
        (toBytes 8 value.toNat)) (addr + BitVec.ofNat 32 (8 * i.val)) =
      if j = i then value
      else word64 memory (addr + BitVec.ofNat 32 (8 * i.val)) := by
  by_cases here : j = i
  · rw [if_pos here, here, word64_write]
  · have length : (toBytes 8 value.toNat).length = 8 := length_toBytes 8 _
    have apart := words_apart addr i.isLt j.isLt
      (fun same => here (Fin.ext same.symm))
    rw [if_neg here, word64, apart.load_write memory length, word64]

/-- Word `i` after the stores of a call is the one assigned last. -/
theorem word64_cmdStores (memory : Memory 32) (words : List (Fin 8 × RegT))
    (i : Fin 8) :
    word64 ((system.cmdStores words).foldl StoreRequest.write memory)
        (system.mailbox.tohostCmd + BitVec.ofNat 32 (8 * i.val)) =
      words.foldl (fun value word => if word.1 = i then word.2 else value)
        (word64 memory
          (system.mailbox.tohostCmd + BitVec.ofNat 32 (8 * i.val))) := by
  induction words generalizing memory with
  | nil => rfl
  | cons word rest induction =>
      have stores : system.cmdStores (word :: rest) =
          halves system.lowFirst (system.mailbox.tohostCmd +
            BitVec.ofNat 32 (8 * word.1.val)) word.2 ++
              system.cmdStores rest := List.flatMap_cons
      rw [stores, List.foldl_append, write_halves, List.foldl_cons, induction,
        word64_write_word]

/-- Word `i` of the call as `dispatch` reads it. -/
theorem calledWord (system : HostSystem ω τ)
    (host : HostState (Memory 32) ω)
    (words : List (Fin 8 × RegT)) (i : Fin 8) :
    magicWord (load (system.called host words).memory
        ((system.mailbox.tohostCmd.setWidth 64).setWidth 32) 64) i.val =
      words.foldl (fun value word => if word.1 = i then word.2 else value)
        (word64 host.memory
          (system.mailbox.tohostCmd + BitVec.ofNat 32 (8 * i.val))) := by
  have place : (system.mailbox.tohostCmd.setWidth 64).setWidth 32 =
      system.mailbox.tohostCmd := by
    rw [BitVec.setWidth_setWidth_of_le _ (by decide), BitVec.setWidth_eq]
  rw [place, magicWord_load _ _ i.isLt]
  exact word64_cmdStores host.memory words i

theorem calledNumber (system : HostSystem ω τ)
    (host : HostState (Memory 32) ω) {words : List (Fin 8 × RegT)}
    {number : RegT}
    (assigned : ∀ before : RegT, words.foldl (fun value word =>
      if word.1 = 0 then word.2 else value) before = number) :
    magicWord (load (system.called host words).memory
        ((system.mailbox.tohostCmd.setWidth 64).setWidth 32) 64) 0 =
      number :=
  (calledWord system host words 0).trans (assigned _)

theorem apart_bounded {addr other : SimAddr} {count : Nat}
    (apart : Apart addr 8 other count) : count ≤ 2 ^ 32 := by
  apply Nat.le_of_not_lt
  intro long
  apply apart 0 (by decide) (addr - other).toNat
    (Nat.lt_trans (addr - other).isLt long)
  rw [BitVec.add_zero, BitVec.ofNat_toNat, BitVec.setWidth_eq,
    BitVec.add_comm, BitVec.sub_add_cancel]

/-- A library call leaves the mailboxes alone. -/
theorem libraryCall_keeps (short : ShortReads system.os)
    {words : List (Fin 8 × RegT)}
    (library : LibraryCall system.mailbox words)
    {host host' : HostState (Memory 32) ω}
    (handled : dispatch system.flatConfig
      (system.mailbox.tohostCmd.setWidth 64) (system.called host words) =
        .ok ((), host')) {addr : SimAddr}
    (mailbox : addr = system.mailbox.tohost ∨
      addr = system.mailbox.fromhost) :
    load host'.memory addr 8 = load (system.called host words).memory addr
      8 := by
  have bytes : InFrontOfBytes system.flatConfig :=
    HostSystem.inFrontOfBytes
  rcases dispatch_cases bytes handled with
    ⟨call, result, middle, entry, ran, rfl⟩
  have apartCmd : Apart addr 8 system.mailbox.tohostCmd 64 := by
    rcases mailbox with rfl | rfl
    · exact system.mailbox.tohost_cmd
    · exact system.mailbox.fromhost_cmd
  have place : (system.mailbox.tohostCmd.setWidth 64).setWidth 32 =
      system.mailbox.tohostCmd := by
    rw [BitVec.setWidth_setWidth_of_le _ (by decide), BitVec.setWidth_eq]
  have length : (toBytes 8 result.toNat ++
      (load (system.called host words).memory
        ((system.mailbox.tohostCmd.setWidth 64).setWidth 32) 64).drop
          8).length = 64 := by
    rw [List.length_append, length_toBytes, List.length_drop, length_load]
  dsimp only
  rw [place] at length ⊢
  rw [apartCmd.load_write _ length]
  apply List.map_congr_left
  intro k inside
  have within := List.mem_range.mp inside
  have frame := frame_byteAt bytes (addr + BitVec.ofNat 32 k)
  have along : Along (Same (byteAt (addr + BitVec.ofNat 32 k))) call := by
    generalize arguments : (fun index : Fin 7 => magicWord
      (load (system.called host words).memory
        ((system.mailbox.tohostCmd.setWidth 64).setWidth 32) 64)
      (index.val + 1)) = a at entry
    cases library with
    | open_ file len flag =>
        rw [calledNumber system host (fun _ => rfl)] at entry
        cases entry
        exact sysOpenat_along (fun _ _ => rfl) (fun _ _ => rfl) frame _ _ _ _
          _
    | close fd =>
        rw [calledNumber system host (fun _ => rfl)] at entry
        cases entry
        exact sysClose_along (fun _ _ => rfl) (fun _ _ => rfl) _
    | write fd pbuf len =>
        rw [calledNumber system host (fun _ => rfl)] at entry
        cases entry
        exact sysWrite_along frame _ _ _
    | read fd pbuf len tohost fromhost =>
        rw [calledNumber system host (fun _ => rfl)] at entry
        cases entry
        have buffer : a 1 = pbuf.setWidth 64 := by
          rw [← arguments]
          exact calledWord system host (tohostRead fd pbuf len) 2
        have count : a 2 = len := by
          rw [← arguments]
          exact calledWord system host (tohostRead fd pbuf len) 3
        have block : Apart addr 8 pbuf len.toNat := by
          rcases mailbox with rfl | rfl
          · exact tohost
          · exact fromhost
        rw [buffer, count]
        apply sysRead_along bytes short _ (apart_bounded block)
        rw [BitVec.setWidth_setWidth_of_le _ (by decide), BitVec.setWidth_eq]
        exact fun j inBuffer => block k within j inBuffer
    | printstr str =>
        rw [calledNumber system host (fun _ => rfl)] at entry
        cases entry
        exact sysPrintstr_along frame _
  exact along _ _ ran

end Words

namespace HostSystem

variable {ω τ : Type} {system : HostSystem ω τ}

/-- A polite program respects the mailboxes between its calls. -/
theorem Polite.respects (polite : system.Polite)
    (short : ShortReads system.os) {atomic : Atomic ω τ}
    (clean : system.Clean atomic.host) : system.Respects atomic where
  store := polite.store atomic.client (window atomic.host.memory)
  call := by
    intro words after host action handled
    have library := polite.call _ _ words after action
    have tohost := libraryCall_keeps short library handled (.inl rfl)
    have fromhost := libraryCall_keeps short library handled (.inr rfl)
    exact ⟨tohost.trans (foldl_cmdStores_zero clean.tohost
        system.mailbox.tohost_cmd words),
      fromhost.trans (foldl_cmdStores_zero clean.fromhost
        system.mailbox.fromhost_cmd words)⟩

theorem Matches.run (polite : system.Polite) (short : ShortReads system.os)
    {first last : Board ω τ} {atomic : Atomic ω τ}
    (agrees : system.Matches first atomic)
    (run : Relation.ReflTransGen system.Step first last) :
    ∃ atomic', Relation.ReflTransGen system.AtomicStep atomic atomic' ∧
      system.Matches last atomic' := by
  induction run with
  | refl => exact ⟨atomic, .refl, agrees⟩
  | tail _ step induction =>
      rcases induction with ⟨middle, calls, matched⟩
      rcases matched.step (polite.respects short matched.clean) step with
        ⟨next, stayed | moved, follows⟩
      · rw [stayed] at follows
        exact ⟨middle, calls, follows⟩
      · exact ⟨next, calls.tail moved, follows⟩

/-- A program on the library of the target cannot tell the board from one on
which its stores and calls happen at once.  In every run the host's state is
what the calls made of it, between calls the memory is too, and once the
stores of a call have committed the next poll answers it. -/
theorem host_calls_refine (polite : system.Polite)
    (short : ShortReads system.os) {host : HostState BucketMemory ω}
    {client : τ} (clean : system.Clean (host.map BucketMemory.flat))
    {board : Board ω τ}
    (run : Relation.ReflTransGen system.Step ⟨host, [], .running client⟩
      board) :
    ∃ atomic, Relation.ReflTransGen system.AtomicStep
        ⟨host.map BucketMemory.flat, client⟩ atomic ∧
      { board.host.map BucketMemory.flat with
        memory := atomic.host.memory } = atomic.host ∧
      (∀ client', board.phase = .running client' →
        client' = atomic.client ∧
          board.storeBuffer.settled = atomic.host.memory) ∧
      ∀ first after, board.phase = .polling first after →
        board.pending = [] → ∀ host',
          processHtio system.config board.host = .ok ((), host') →
            word64 host'.memory.flat system.mailbox.fromhost = 1 := by
  have start : system.Matches ⟨host, [], .running client⟩
      ⟨host.map BucketMemory.flat, client⟩ :=
    ⟨rfl, clean, .running ⟨clean.tohost, fun _ member => nomatch member⟩ rfl⟩
  rcases start.run polite short run with ⟨atomic, calls, matched⟩
  refine ⟨atomic, calls, matched.same, ?_, ?_⟩
  · intro client' phase
    have stage := matched.stage
    generalize memory : board.host.memory.flat = flat at stage
    rw [phase] at stage
    generalize running : (Phase.running client' : Phase τ) = where_ at stage
    cases stage with
    | running rested settled =>
        rw [← memory] at settled
        exact ⟨Phase.running.inj running, settled⟩
    | posting => cases running
    | sent action waits =>
        rcases waits with waits | ⟨first, waits⟩
        · cases running.trans waits
        · cases running.trans waits
    | answered result waits =>
        rcases waits with waits | ⟨first, waits⟩
        · cases running.trans waits
        · cases running.trans waits
    | clearing => cases running
    | collecting => cases running
  · intro first after phase settled host' ran
    exact matched.answers (polite.respects short matched.clean) phase settled
      ran

/-- A program that writes five bytes and stops, before a host that takes
nothing. -/
def hello : HostSystem Unit Bool where
  os := fun _ _ => ((), ⟨-1, 5, [], ⟨0, 0, 0, 0, 0, 0, 0, 0, 0, 0, 0, 0, 0⟩⟩)
  targetArgs := []
  mailbox := {
    tohost := 0x10000000
    fromhost := 0x10000100
    tohostCmd := 0x10000200
    tohost_aligned := rfl
    fromhost_aligned := rfl
    cmd_even := rfl
    cmd_ne_zero := by decide
    tohost_fromhost := by unfold Apart; decide
    tohost_cmd := by unfold Apart; decide
    fromhost_cmd := by unfold Apart; decide
    tohost_ordinary := by unfold OrdinaryAddr; decide
    fromhost_ordinary := by unfold OrdinaryAddr; decide
    cmd_ordinary := by unfold OrdinaryAddr; decide }
  lowFirst := true
  program := fun greeted _ =>
    if greeted then .halt
    else .call (tohostWrite 1 0x10001000 5) fun _ => true

theorem hello_polite : hello.Polite where
  store := by
    intro greeted view req after action
    cases greeted <;> cases action
  call := by
    intro greeted view words after action
    cases greeted with
    | false =>
        cases action
        exact .write 1 0x10001000 5
    | true => cases action

/-- The host as it starts. -/
def helloHost : HostState BucketMemory Unit where
  memory := BucketMemory.untouched
  os := ()
  fds := []
  chroot := []
  exitcode := 0
  stopped := false
  fromhostQueue := []
  printed := []

theorem host_calls_refine_hello :
    ∃ atomic, Relation.ReflTransGen hello.AtomicStep
        ⟨helloHost.map BucketMemory.flat, false⟩ atomic ∧
      { helloHost.map BucketMemory.flat with
        memory := atomic.host.memory } = atomic.host := by
  have run : Relation.ReflTransGen hello.Step
      ⟨helloHost, [], .running false⟩ _ := .single (.client rfl)
  have clean : hello.Clean (helloHost.map BucketMemory.flat) :=
    ⟨rfl, rfl, rfl⟩
  rcases host_calls_refine hello_polite (fun _ _ _ => Nat.zero_le _) clean
    run with ⟨atomic, calls, same, -⟩
  exact ⟨atomic, calls, same⟩

end HostSystem

end Ria
