import Ria.Sim.MemIf

/-!
# The host behind the simulated memory

`HostState` is what `htif_t` and its devices keep: the memory behind
`memif_t`, the table of file descriptors, the responses that wait for the
target and the exit code.  The operating system is a parameter: `HostOs`
answers each call of the C library that the proxied system calls make.
-/

namespace Ria

open ByteMemory

/-- `reg_t` -/
abbrev RegT := BitVec 64

/-- Why the host code does not return. -/
inductive HostError where
  | runtimeError (what : String)
  | lengthError (what : String)
  | invalidArgument (what : String)
  | assertionFailed (expression : String)
  /-- an access outside an array, which C++ leaves undefined -/
  | undefined
  /-- a loop that never ends -/
  | endless
  deriving DecidableEq

/-- The fields of `struct stat` that are copied to the target. -/
structure Stat where
  dev : BitVec 64
  ino : BitVec 64
  mode : BitVec 32
  nlink : BitVec 32
  uid : BitVec 32
  gid : BitVec 32
  rdev : BitVec 64
  size : BitVec 64
  blksize : BitVec 32
  blocks : BitVec 64
  atime : BitVec 64
  mtime : BitVec 64
  ctime : BitVec 64

/-- A call of the C library.  Strings come without the byte that ends them. -/
inductive OsCall where
  | read (fd : BitVec 32) (len : RegT)
  | pread (fd : BitVec 32) (len off : RegT)
  | write (fd : BitVec 32) (buf : List Byte)
  | pwrite (fd : BitVec 32) (buf : List Byte) (off : RegT)
  | close (fd : BitVec 32)
  | lseek (fd : BitVec 32) (off : RegT) (whence : BitVec 32)
  | fstat (fd : BitVec 32)
  | fcntl (fd cmd : BitVec 32) (arg : RegT)
  | ftruncate (fd : BitVec 32) (len : RegT)
  | lstat (path : List Byte)
  | openat (dirfd : BitVec 32) (path : List Byte) (flags mode : BitVec 32)
  | fstatat (dirfd : BitVec 32) (path : List Byte) (flags : BitVec 32)
  | faccessat (dirfd : BitVec 32) (path : List Byte) (mode flags : BitVec 32)
  | renameat (odirfd : BitVec 32) (opath : List Byte) (ndirfd : BitVec 32)
      (npath : List Byte)
  | linkat (odirfd : BitVec 32) (oname : List Byte) (ndirfd : BitVec 32)
      (nname : List Byte) (flags : BitVec 32)
  | unlinkat (dirfd : BitVec 32) (path : List Byte) (flags : BitVec 32)
  | mkdirat (dirfd : BitVec 32) (path : List Byte) (mode : BitVec 32)
  | getcwd (size : RegT)
  | chdir (path : List Byte)

/-- What a call leaves: the value it returns, widened to `sreg_t` (for
`getcwd`, zero when it is `NULL`), `errno`, and the bytes or the `struct stat`
in the buffer it was given. -/
structure OsResult where
  ret : BitVec 64
  errno : BitVec 32
  data : List Byte
  stat : Stat

/-- An operating system with states `ω`. -/
abbrev HostOs (ω : Type) := OsCall → ω → ω × OsResult

structure HostState (σ ω : Type) where
  /-- the memory behind `memif_t` -/
  memory : σ
  os : ω
  /-- `fds_t` -/
  fds : List (BitVec 32)
  chroot : List Byte
  exitcode : BitVec 32
  stopped : Bool
  fromhostQueue : List RegT
  /-- what `sys_printstr` has printed -/
  printed : List Byte

/-- What does not change while the host runs. -/
structure HostConfig (σ ω : Type) where
  memif : ChunkedMemif σ
  os : HostOs ω
  targetArgs : List (List Byte)
  tohostAddr : AddrT
  fromhostAddr : AddrT

/-- Host code: it changes the state or does not return. -/
abbrev HostM (σ ω : Type) := StateT (HostState σ ω) (Except HostError)

theorem HostM.bind_ok {σ ω α β : Type} {program : HostM σ ω α}
    {next : α → HostM σ ω β} {state middle : HostState σ ω} {value : α}
    (ran : program state = .ok (value, middle)) :
    (program >>= next) state = next value middle := by
  change (program state).bind (fun r => next r.1 r.2) = _
  rw [ran]
  rfl

theorem HostM.bind_cases {σ ω α β : Type} {program : HostM σ ω α}
    {next : α → HostM σ ω β} {state : HostState σ ω}
    {result : β × HostState σ ω}
    (ran : (program >>= next) state = .ok result) :
    ∃ value middle, program state = .ok (value, middle) ∧
      next value middle = .ok result := by
  change (program state).bind (fun r => next r.1 r.2) = _ at ran
  cases first : program state with
  | error reason =>
      rw [first] at ran
      cases ran
  | ok middle =>
      rw [first] at ran
      exact ⟨middle.1, middle.2, rfl, ran⟩

section Operations

variable {σ ω : Type} (config : HostConfig σ ω)

/-- `memif->read` -/
def memRead (addr : AddrT) (len : Nat) : HostM σ ω (List Byte) := do
  let state ← get
  let bytes := config.memif.read addr len state.memory
  set { state with memory := bytes.1 }
  return bytes.2

/-- `memif->write` -/
def memWrite (addr : AddrT) (bytes : List Byte) : HostM σ ω Unit :=
  modify fun state =>
    { state with memory := config.memif.write addr bytes state.memory }

/-- `if(addr & (sizeof(val)-1)) throw` -/
def checkAligned (size : Nat) (addr : AddrT) : HostM σ ω Unit :=
  if addr &&& BitVec.ofNat 64 (size - 1) ≠ 0 then
    throw (.runtimeError "misaligned address")
  else pure ()

/-- `MEMIF_READ_FUNC` for a value of `size` bytes, which are in the host's
order as well -/
def memifReadFunc (size : Nat) (addr : AddrT) :
    HostM σ ω (BitVec (8 * size)) := do
  checkAligned size addr
  return BitVec.ofNat (8 * size) (ofBytes (← memRead config addr size))

/-- `MEMIF_WRITE_FUNC` -/
def memifWriteFunc (size : Nat) (addr : AddrT) (val : BitVec (8 * size)) :
    HostM σ ω Unit := do
  checkAligned size addr
  memWrite config addr (toBytes size val.toNat)

/-- `memif_t::read_uint8` -/
def readUint8 (addr : AddrT) : HostM σ ω (BitVec 8) :=
  memifReadFunc config 1 addr

/-- `memif_t::read_uint64` -/
def readUint64 (addr : AddrT) : HostM σ ω RegT := memifReadFunc config 8 addr

/-- `memif_t::write_uint64` -/
def writeUint64 (addr : AddrT) (val : RegT) : HostM σ ω Unit :=
  memifWriteFunc config 8 addr val

def callOs (call : OsCall) : HostM σ ω OsResult := do
  let state ← get
  let answer := config.os call state.os
  set { state with os := answer.1 }
  return answer.2

/-- `std::vector<char> buf(len)` -/
def newVector (len : RegT) : HostM σ ω Unit :=
  if 2 ^ 63 - 1 < len.toNat then
    throw (.lengthError "cannot create std::vector larger than max_size()")
  else pure ()

end Operations

end Ria
