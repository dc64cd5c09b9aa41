import Ria.Sim.HostFrame
import Ria.Sim.HostView
import Ria.Sim.LoadForwarding

/-!
# Calls of the host from the target

A program on the target calls the host through `send_syscall`: it stores the
command words, posts their address in `tohost`, loads `fromhost` until it is
not zero and clears it.  Every 64-bit access of the program is two accesses of
the core, its stores wait in the simulator's store buffer, and the simulator
commits stores and polls the interface whenever it likes.  `Board` is this
system, and `Atomic` the one in which a call happens in one step.
-/

namespace Ria

open ByteMemory StoreBuffer

/-- A store to this address reaches memory. -/
def OrdinaryAddr (addr : SimAddr) : Prop :=
  addr ≠ putcharAddr ∧ addr ≠ haltAddr

/-- Where a program keeps `tohost`, `fromhost` and `tohost_cmd`. -/
structure Mailbox where
  tohost : SimAddr
  fromhost : SimAddr
  tohostCmd : SimAddr
  tohost_aligned : tohost.toNat % 8 = 0
  fromhost_aligned : fromhost.toNat % 8 = 0
  cmd_even : tohostCmd.toNat % 2 = 0
  cmd_ne_zero : tohostCmd ≠ 0
  tohost_fromhost : Apart tohost 8 fromhost 8
  tohost_cmd : Apart tohost 8 tohostCmd 64
  fromhost_cmd : Apart fromhost 8 tohostCmd 64
  tohost_ordinary : ∀ i, i < 8 → OrdinaryAddr (tohost + BitVec.ofNat 32 i)
  fromhost_ordinary : ∀ i, i < 8 →
    OrdinaryAddr (fromhost + BitVec.ofNat 32 i)
  cmd_ordinary : ∀ i, i < 64 → OrdinaryAddr (tohostCmd + BitVec.ofNat 32 i)

/-! ## The program -/

/-- A store of 32 bits -/
def wordStore (addr : SimAddr) (value : BitVec 32) : StoreRequest :=
  { addr, data := value.setWidth 64, size := .word }

/-- The stores of a 64-bit assignment, in the order of the compiled code -/
def halves (lowFirst : Bool) (addr : SimAddr) (value : RegT) :
    List StoreRequest :=
  let low := wordStore addr (value.setWidth 32)
  let high := wordStore (addr + 4) ((value >>> 32).setWidth 32)
  if lowFirst then [low, high] else [high, low]

/-- The address of the half that the compiled code loads first. -/
def firstHalf (lowFirst : Bool) (addr : SimAddr) : SimAddr :=
  if lowFirst then addr else addr + 4

def secondHalf (lowFirst : Bool) (addr : SimAddr) : SimAddr :=
  if lowFirst then addr + 4 else addr

/-- The value of a 64-bit load, from its halves in the order they are
loaded -/
def joinHalves (lowFirst : Bool) (first second : BitVec 32) : RegT :=
  if lowFirst then second ++ first else first ++ second

/-- What a program does next.  The words of a call are assigned to
`tohost_cmd` before `send_syscall`, and `tohost_cmd[0]` is handed to what
follows. -/
inductive Action (τ : Type) where
  | store (req : StoreRequest) (after : τ)
  | call (words : List (Fin 8 × RegT)) (after : RegT → τ)
  | halt

/-- A program with register states `τ`: what it does next depends on these and
on what it loads. -/
abbrev Program (τ : Type) := τ → (SimAddr → LoadWindow) → Action τ

/-! So are the command words of a program. -/

instance neZeroEight : @NeZero Nat Zero.ofOfNat0 8 :=
  ⟨Nat.succ_ne_zero 7⟩

/-- The words of `tohost_open`, where `len` is `strlen_e(file) + 1` -/
def tohostOpen (file : BitVec 32) (len flag : RegT) : List (Fin 8 × RegT) :=
  [(0, 56), (1, -100), (2, file.setWidth 64), (3, len), (4, flag), (5, 0o777)]

/-- The words of `tohost_close` -/
def tohostClose (fd : RegT) : List (Fin 8 × RegT) := [(0, 57), (1, fd)]

/-- The words of `tohost_write` -/
def tohostWrite (fd : RegT) (pbuf : BitVec 32) (len : RegT) :
    List (Fin 8 × RegT) :=
  [(0, 64), (1, fd), (2, pbuf.setWidth 64), (3, len)]

/-- The words of `tohost_read` -/
def tohostRead (fd : RegT) (pbuf : BitVec 32) (len : RegT) :
    List (Fin 8 × RegT) :=
  [(0, 63), (1, fd), (2, pbuf.setWidth 64), (3, len)]

/-- The words of `tohost_printstr`, which clears all eight first -/
def tohostPrintstr (str : BitVec 32) : List (Fin 8 × RegT) :=
  (List.finRange 8).map (fun i => (i, 0)) ++
    [(0, 2012), (1, str.setWidth 64)]

/-! ## The board -/

/-- The program, the host it talks to, and how it was compiled. -/
structure HostSystem (ω τ : Type) where
  os : HostOs ω
  targetArgs : List (List Byte)
  mailbox : Mailbox
  lowFirst : Bool
  program : Program τ

/-- Where the program is: between calls, before some of the stores of a call
up to the one to `tohost`, in the loop on `fromhost`, before some of the
stores that clear it, or before the loads of `tohost_cmd[0]`.  `first` is the
half that a load has already got. -/
inductive Phase (τ : Type) where
  | running (client : τ)
  | posting (stores : List StoreRequest) (after : RegT → τ)
  | polling (first : Option (BitVec 32)) (after : RegT → τ)
  | clearing (stores : List StoreRequest) (after : RegT → τ)
  | collecting (first : Option (BitVec 32)) (after : RegT → τ)

/-- The host with the memory that the core shares, the stores of the core that
are not committed, and the program. -/
structure Board (ω τ : Type) where
  host : HostState BucketMemory ω
  pending : List StoreRequest
  phase : Phase τ

namespace Board

variable {ω τ : Type}

/-- The simulator's store buffer. -/
def storeBuffer (board : Board ω τ) : StoreBuffer :=
  { memory := board.host.memory, buffer := board.pending, printed := [] }

/-- What a load of the program returns. -/
def view (board : Board ω τ) (addr : SimAddr) : LoadWindow :=
  (board.storeBuffer.loadData addr).2

/-- A load of 32 bits -/
def loadWord (board : Board ω τ) (addr : SimAddr) : BitVec 32 :=
  BitVec.ofNat 32 (ofBytes ((List.ofFn (board.view addr)).take 4))

def execute (board : Board ω τ) (req : StoreRequest) (phase : Phase τ) :
    Board ω τ :=
  { board with
    pending := (board.storeBuffer.addStoreRequest req).buffer, phase }

end Board

namespace HostSystem

variable {ω τ : Type} (system : HostSystem ω τ)

/-- The host in front of the simulated memory. -/
def config : HostConfig BucketMemory ω where
  memif := simT
  os := system.os
  targetArgs := system.targetArgs
  tohostAddr := system.mailbox.tohost.setWidth 64
  fromhostAddr := system.mailbox.fromhost.setWidth 64

/-- The stores of the command words -/
def cmdStores (words : List (Fin 8 × RegT)) : List StoreRequest :=
  words.flatMap fun word =>
    halves system.lowFirst
      (system.mailbox.tohostCmd + BitVec.ofNat 32 (8 * word.1.val)) word.2

/-- The stores of `tohost = (reg_t) CASTPTR(tohost_cmd)` -/
def tohostStores : List StoreRequest :=
  halves system.lowFirst system.mailbox.tohost
    (system.mailbox.tohostCmd.setWidth 64)

/-- The stores of `fromhost = 0` -/
def clearStores : List StoreRequest :=
  halves system.lowFirst system.mailbox.fromhost 0

/-- The next access of the program. -/
def client (board : Board ω τ) : Option (Board ω τ) :=
  match board.phase with
  | .running client =>
      match system.program client board.view with
      | .store req after => some (board.execute req (.running after))
      | .call words after =>
          some { board with
            phase := .posting (system.cmdStores words ++ system.tohostStores)
              after }
      | .halt => none
  | .posting stores after =>
      match stores with
      | [] => none
      | [req] => some (board.execute req (.polling none after))
      | req :: rest => some (board.execute req (.posting rest after))
  | .polling none after =>
      some { board with
        phase := .polling (some (board.loadWord
          (firstHalf system.lowFirst system.mailbox.fromhost))) after }
  | .polling (some first) after =>
      let second := board.loadWord
        (secondHalf system.lowFirst system.mailbox.fromhost)
      if joinHalves system.lowFirst first second = 0 then
        some { board with phase := .polling none after }
      else some { board with phase := .clearing system.clearStores after }
  | .clearing stores after =>
      match stores with
      | [] => none
      | [req] => some (board.execute req (.collecting none after))
      | req :: rest => some (board.execute req (.clearing rest after))
  | .collecting none after =>
      some { board with
        phase := .collecting (some (board.loadWord
          (firstHalf system.lowFirst system.mailbox.tohostCmd))) after }
  | .collecting (some first) after =>
      let second := board.loadWord
        (secondHalf system.lowFirst system.mailbox.tohostCmd)
      some { board with
        phase := .running (after (joinHalves system.lowFirst first second)) }

/-- One step of the board, of whoever comes first: an access of the program,
another load, which may create buckets, a commit of the oldest stores, or a
poll of the interface that does not end the simulator. -/
inductive Step : Board ω τ → Board ω τ → Prop
  | client {board next} (ran : system.client board = some next) :
      Step board next
  | load {board} (addr : SimAddr) :
      Step board { board with
        host := { board.host with
          memory := (board.storeBuffer.loadData addr).1.memory } }
  | commit {board} (count : Nat) (within : count ≤ board.pending.length) :
      Step board { board with
        host := { board.host with
          memory := (board.storeBuffer.commitStoreRequest count).1.memory }
        pending := (board.storeBuffer.commitStoreRequest count).1.buffer }
  | poll {board host}
      (ran : processHtio system.config board.host = .ok ((), host)) :
      Step board { board with host }

/-! ## Calls in one step -/

/-- The host in front of a byte array. -/
def flatConfig : HostConfig (Memory 32) ω :=
  system.config.over bytesMemif

end HostSystem

/-- The host and the program, with a memory of bytes between them. -/
structure Atomic (ω τ : Type) where
  host : HostState (Memory 32) ω
  client : τ

/-- The 64-bit word at an address. -/
def word64 (memory : Memory 32) (addr : SimAddr) : RegT :=
  BitVec.ofNat 64 (ofBytes (load memory addr 8))

namespace HostSystem

variable {ω τ : Type} (system : HostSystem ω τ)

/-- The host as a call finds it. -/
def called (host : HostState (Memory 32) ω) (words : List (Fin 8 × RegT)) :
    HostState (Memory 32) ω :=
  { host with
    memory := (system.cmdStores words).foldl StoreRequest.write host.memory }

/-- A store reaches memory at once, and a call is what the host makes of it. -/
inductive AtomicStep : Atomic ω τ → Atomic ω τ → Prop
  | store {host client req after}
      (action : system.program client (window host.memory) =
        .store req after) :
      AtomicStep ⟨host, client⟩
        ⟨{ host with memory := req.write host.memory }, after⟩
  | call {host client words after host'}
      (action : system.program client (window host.memory) =
        .call words after)
      (handled : dispatch system.flatConfig
        (system.mailbox.tohostCmd.setWidth 64) (system.called host words) =
          .ok ((), host')) :
      AtomicStep ⟨host, client⟩
        ⟨host', after (word64 host'.memory system.mailbox.tohostCmd)⟩

end HostSystem

end Ria
