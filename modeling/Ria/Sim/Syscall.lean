import Ria.Sim.Host

/-!
# The system call proxy

`syscall_t` carries out on the host what a program on the target asks for:
`dispatch` reads the number and the arguments of a call from eight words of
target memory and writes the result into the first of them.  `fds_t`
translates the target's file descriptors.
-/

namespace Ria

open ByteMemory

/-- `RISCV_AT_FDCWD`, and `AT_FDCWD` of the host -/
def atFdcwd : BitVec 32 := -100

namespace Fds

/-- The index that `fds_t::alloc` takes. -/
def free (fds : List (BitVec 32)) : Nat := fds.findIdx (· == -1)

/-- `fds_t::alloc` -/
def alloc (fds : List (BitVec 32)) (fd : BitVec 32) :
    List (BitVec 32) × RegT :=
  if free fds = fds.length then (fds ++ [fd], BitVec.ofNat 64 fds.length)
  else (fds.set (free fds) fd, BitVec.ofNat 64 (free fds))

/-- `fds_t::dealloc` -/
def dealloc (fds : List (BitVec 32)) (fd : RegT) : List (BitVec 32) :=
  fds.set fd.toNat (-1)

/-- `fds_t::lookup` -/
def lookup (fds : List (BitVec 32)) (fd : RegT) : BitVec 32 :=
  if fd.setWidth 32 = atFdcwd then atFdcwd else (fds[fd.toNat]?).getD (-1)

end Fds

/-- `sysret_errno` of `ret`, after a call that left `errno` -/
def sysretErrno (result : OsResult) (ret : BitVec 64) : RegT :=
  if ret = -1 then (-result.errno).signExtend 64 else ret

/-- `riscv_stat`, whose padding is zero -/
def riscvStat (s : Stat) : List Byte :=
  toBytes 8 s.dev.toNat ++ toBytes 8 s.ino.toNat ++ toBytes 4 s.mode.toNat ++
    toBytes 4 s.nlink.toNat ++ toBytes 4 s.uid.toNat ++
    toBytes 4 s.gid.toNat ++ toBytes 8 s.rdev.toNat ++ toBytes 8 0 ++
    toBytes 8 s.size.toNat ++ toBytes 4 s.blksize.toNat ++ toBytes 4 0 ++
    toBytes 8 s.blocks.toNat ++ toBytes 8 s.atime.toNat ++ toBytes 8 0 ++
    toBytes 8 s.mtime.toNat ++ toBytes 8 0 ++ toBytes 8 s.ctime.toNat ++
    toBytes 8 0 ++ toBytes 4 0 ++ toBytes 4 0

/-- `do_chroot` -/
def doChroot (chroot fn : List Byte) : List Byte :=
  if chroot ≠ [] ∧ fn.head? = some 0x2f then chroot ++ fn else fn

/-- `undo_chroot` -/
def undoChroot (chroot fn : List Byte) : List Byte :=
  if chroot = [] then fn
  else if chroot.isPrefixOf fn ∧
      (chroot.getLast? = some 0x2f ∨ fn[chroot.length]? = some 0x2f) then
    if chroot.getLast? = some 0x2f then fn.drop (chroot.length - 1)
    else fn.drop chroot.length
  else [0x2f]

/-- `ENOMEM` -/
def enomem : BitVec 32 := 12

/-- `ENOSYS` -/
def enosys : BitVec 32 := 38

section Calls

variable {σ ω : Type} (config : HostConfig σ ω)

/-- `fds.lookup(fd)` -/
def lookupFd (fd : RegT) : HostM σ ω (BitVec 32) := do
  return Fds.lookup (← get).fds fd

/-- `std::vector<char> name(len); memif->read(pname, len, &name[0])`, used as
a string: without an ending zero the host reads past the vector. -/
def readName (pname len : RegT) : HostM σ ω (List Byte) := do
  newVector len
  let name ← memRead config pname len.toNat
  if 0 ∈ name then return name.takeWhile (· != 0) else throw .undefined

/-- The path that `AT_SYSCALL` hands on. -/
def atPath (fd : RegT) (name : List Byte) : HostM σ ω (List Byte) := do
  if fd.setWidth 32 = atFdcwd then return doChroot (← get).chroot name
  else return name

/-- `sys_exit` -/
def sysExit (code : RegT) : HostM σ ω RegT := do
  modify fun state =>
    { state with exitcode := (code <<< 1 ||| 1).setWidth 32 }
  return 0

/-- `sys_read` -/
def sysRead (fd pbuf len : RegT) : HostM σ ω RegT := do
  newVector len
  let result ← callOs config (.read (← lookupFd fd) len)
  if 0 < result.ret.toInt then memWrite config pbuf result.data
  return sysretErrno result result.ret

/-- `sys_pread` -/
def sysPread (fd pbuf len off : RegT) : HostM σ ω RegT := do
  newVector len
  let result ← callOs config (.pread (← lookupFd fd) len off)
  if 0 < result.ret.toInt then memWrite config pbuf result.data
  return sysretErrno result result.ret

/-- `sys_write` -/
def sysWrite (fd pbuf len : RegT) : HostM σ ω RegT := do
  newVector len
  let buf ← memRead config pbuf len.toNat
  let result ← callOs config (.write (← lookupFd fd) buf)
  return sysretErrno result result.ret

/-- `sys_pwrite` -/
def sysPwrite (fd pbuf len off : RegT) : HostM σ ω RegT := do
  newVector len
  let buf ← memRead config pbuf len.toNat
  let result ← callOs config (.pwrite (← lookupFd fd) buf off)
  return sysretErrno result result.ret

/-- `fds.dealloc(fd)`; the index is not checked. -/
def deallocFd (fd : RegT) : HostM σ ω Unit := do
  let state ← get
  if fd.toNat < state.fds.length then
    set { state with fds := Fds.dealloc state.fds fd }
  else throw .undefined

/-- `sys_close` -/
def sysClose (fd : RegT) : HostM σ ω RegT := do
  let result ← callOs config (.close (← lookupFd fd))
  if result.ret.toInt < 0 then return sysretErrno result (-1)
  deallocFd fd
  return 0

/-- `sys_lseek` -/
def sysLseek (fd ptr dir : RegT) : HostM σ ω RegT := do
  let result ← callOs config
    (.lseek (← lookupFd fd) ptr (dir.setWidth 32))
  return sysretErrno result result.ret

/-- The end of the `stat` family: the buffer is copied unless the call is
seen to return -1, which a failure with another `errno` than 1 is not. -/
def copyStat (pbuf : RegT) (result : OsResult) : HostM σ ω RegT := do
  if sysretErrno result result.ret ≠ -1 then
    memWrite config pbuf (riscvStat result.stat)
  return sysretErrno result result.ret

/-- `sys_fstat` -/
def sysFstat (fd pbuf : RegT) : HostM σ ω RegT := do
  copyStat config pbuf (← callOs config (.fstat (← lookupFd fd)))

/-- `sys_fcntl` -/
def sysFcntl (fd cmd arg : RegT) : HostM σ ω RegT := do
  let result ← callOs config
    (.fcntl (← lookupFd fd) (cmd.setWidth 32) arg)
  return sysretErrno result result.ret

/-- `sys_ftruncate` -/
def sysFtruncate (fd len : RegT) : HostM σ ω RegT := do
  let result ← callOs config (.ftruncate (← lookupFd fd) len)
  return sysretErrno result result.ret

/-- `sys_lstat` -/
def sysLstat (pname len pbuf : RegT) : HostM σ ω RegT := do
  let name ← readName config pname len
  copyStat config pbuf
    (← callOs config (.lstat (doChroot (← get).chroot name)))

/-- `sys_statx`, without `HAVE_STATX` -/
def sysStatx : HostM σ ω RegT := return (-enosys).signExtend 64

/-- `sys_openat` -/
def sysOpenat (dirfd pname len flags mode : RegT) : HostM σ ω RegT := do
  let name ← readName config pname len
  let result ← callOs config
    (.openat (← lookupFd dirfd) (← atPath dirfd name) (flags.setWidth 32)
      (mode.setWidth 32))
  let fd := (sysretErrno result result.ret).setWidth 32
  if fd.toInt < 0 then return sysretErrno result (-1)
  let state ← get
  set { state with fds := (Fds.alloc state.fds fd).1 }
  return (Fds.alloc state.fds fd).2

/-- `sys_fstatat` -/
def sysFstatat (dirfd pname len pbuf flags : RegT) : HostM σ ω RegT := do
  let name ← readName config pname len
  copyStat config pbuf (← callOs config
    (.fstatat (← lookupFd dirfd) (← atPath dirfd name) (flags.setWidth 32)))

/-- `sys_faccessat` -/
def sysFaccessat (dirfd pname len mode : RegT) : HostM σ ω RegT := do
  let name ← readName config pname len
  let result ← callOs config
    (.faccessat (← lookupFd dirfd) (← atPath dirfd name) (mode.setWidth 32)
      0)
  return sysretErrno result result.ret

/-- The two names of `sys_renameat` and `sys_linkat`: both are read before
either is used. -/
def readNames (pold olen pnew nlen : RegT) :
    HostM σ ω (List Byte × List Byte) := do
  newVector olen
  newVector nlen
  let opath ← memRead config pold olen.toNat
  let npath ← memRead config pnew nlen.toNat
  if 0 ∈ opath ∧ 0 ∈ npath then
    return (opath.takeWhile (· != 0), npath.takeWhile (· != 0))
  else throw .undefined

/-- `sys_renameat` -/
def sysRenameat (odirfd popath olen ndirfd pnpath nlen : RegT) :
    HostM σ ω RegT := do
  let names ← readNames config popath olen pnpath nlen
  let result ← callOs config
    (.renameat (← lookupFd odirfd) (← atPath odirfd names.1)
      (← lookupFd ndirfd) (← atPath ndirfd names.2))
  return sysretErrno result result.ret

/-- `sys_linkat` -/
def sysLinkat (odirfd poname olen ndirfd pnname nlen flags : RegT) :
    HostM σ ω RegT := do
  let names ← readNames config poname olen pnname nlen
  let result ← callOs config
    (.linkat (← lookupFd odirfd) (← atPath odirfd names.1)
      (← lookupFd ndirfd) (← atPath ndirfd names.2) (flags.setWidth 32))
  return sysretErrno result result.ret

/-- `sys_unlinkat` -/
def sysUnlinkat (dirfd pname len flags : RegT) : HostM σ ω RegT := do
  let name ← readName config pname len
  let result ← callOs config
    (.unlinkat (← lookupFd dirfd) (← atPath dirfd name) (flags.setWidth 32))
  return sysretErrno result result.ret

/-- `sys_mkdirat` -/
def sysMkdirat (dirfd pname len mode : RegT) : HostM σ ω RegT := do
  let name ← readName config pname len
  let result ← callOs config
    (.mkdirat (← lookupFd dirfd) (← atPath dirfd name) (mode.setWidth 32))
  return sysretErrno result result.ret

/-- `sys_getcwd` -/
def sysGetcwd (pbuf size : RegT) : HostM σ ω RegT := do
  newVector size
  let result ← callOs config (.getcwd size)
  if result.ret = 0 then return sysretErrno result (-1)
  let tmp := undoChroot (← get).chroot result.data
  if size.toNat ≤ tmp.length then return (-enomem).signExtend 64
  memWrite config pbuf (tmp ++ [0])
  return BitVec.ofNat 64 (tmp.length + 1)

/-- `words[i + 1]` for the arguments from the one `sz` bytes behind `pbuf` on -/
def argWords (pbuf : RegT) : Nat → List (List Byte) → List RegT
  | _, [] => []
  | sz, arg :: rest =>
      (BitVec.ofNat 64 sz + pbuf) ::
        argWords pbuf (sz + (arg.length + 1)) rest

/-- `(args.size() + 3) * sizeof(words[0])` -/
def wordsSize (args : List (List Byte)) : Nat := (args.length + 3) * 8

/-- `words` of `sys_getmainvars`: the count, a pointer to each argument and
two null pointers -/
def mainWords (pbuf : RegT) (args : List (List Byte)) : List RegT :=
  BitVec.ofNat 64 args.length ::
    (argWords pbuf (wordsSize args) args ++ [0, 0])

/-- `sz` of `sys_getmainvars` in the end -/
def mainSize (args : List (List Byte)) : Nat :=
  wordsSize args + (args.map fun arg => arg.length + 1).sum

/-- `bytes` of `sys_getmainvars`: `memcpy` puts the words in front and
`strcpy` each argument where its word points. -/
def mainBytes (pbuf : RegT) (args : List (List Byte)) : List Byte :=
  (args.zip (argWords pbuf (wordsSize args) args)).foldl
    (fun bytes copied =>
      overwrite bytes (copied.2 - pbuf).toNat (copied.1 ++ [0]))
    (overwrite (List.replicate (mainSize args) 0) 0
      ((mainWords pbuf args).flatMap fun word => toBytes 8 word.toNat))

/-- `sys_getmainvars` -/
def sysGetmainvars (pbuf limit : RegT) : HostM σ ω RegT := do
  let bytes := mainBytes pbuf config.targetArgs
  if limit.toNat < bytes.length then return (-enomem).signExtend 64
  memWrite config pbuf bytes
  return 0

/-- The characters at `place i`, `place (i + 1)`, .. up to a zero.  The loop
around `read_uint8` has no bound of its own; its index returns to the same
places after `fuel` of them. -/
def readString (place : Nat → AddrT) : Nat → Nat → HostM σ ω (List Byte)
  | 0, _ => throw .endless
  | fuel + 1, i => do
      let c ← readUint8 config (place i)
      if c = 0 then return []
      return c :: (← readString place fuel (i + 1))

/-- `sys_chdir`: the first pass measures the string, the second copies it. -/
def sysChdir (path : RegT) : HostM σ ω RegT := do
  let place := fun offset => path + BitVec.ofNat 64 offset
  let _ ← readString config place (2 ^ 64) 0
  let buf ← readString config place (2 ^ 64) 0
  let result ← callOs config (.chdir buf)
  return sysretErrno result result.ret

/-- `sys_printstr`; its index is `unsigned`. -/
def sysPrintstr (str : RegT) : HostM σ ω RegT := do
  let place := fun i => str + BitVec.ofNat 64 (i % 2 ^ 32)
  let text ← readString config place (2 ^ 32) 0
  modify fun state => { state with printed := state.printed ++ text }
  return 0

/-! The arguments of a call are written as numerals. -/

instance neZeroSeven : @NeZero Nat Zero.ofOfNat0 7 :=
  ⟨Nat.succ_ne_zero 6⟩

/-- `(this->*table[n])(a0, .., a6)`, where `table[n]` is not null -/
def syscallTable (n : Nat) (a : Fin 7 → RegT) : Option (HostM σ ω RegT) :=
  match n with
  | 17 => some (sysGetcwd config (a 0) (a 1))
  | 25 => some (sysFcntl config (a 0) (a 1) (a 2))
  | 34 => some (sysMkdirat config (a 0) (a 1) (a 2) (a 3))
  | 35 => some (sysUnlinkat config (a 0) (a 1) (a 2) (a 3))
  | 37 => some (sysLinkat config (a 0) (a 1) (a 2) (a 3) (a 4) (a 5) (a 6))
  | 38 => some (sysRenameat config (a 0) (a 1) (a 2) (a 3) (a 4) (a 5))
  | 46 => some (sysFtruncate config (a 0) (a 1))
  | 48 => some (sysFaccessat config (a 0) (a 1) (a 2) (a 3))
  | 49 => some (sysChdir config (a 0))
  | 56 => some (sysOpenat config (a 0) (a 1) (a 2) (a 3) (a 4))
  | 57 => some (sysClose config (a 0))
  | 62 => some (sysLseek config (a 0) (a 1) (a 2))
  | 63 => some (sysRead config (a 0) (a 1) (a 2))
  | 64 => some (sysWrite config (a 0) (a 1) (a 2))
  | 67 => some (sysPread config (a 0) (a 1) (a 2) (a 3))
  | 68 => some (sysPwrite config (a 0) (a 1) (a 2) (a 3))
  | 79 => some (sysFstatat config (a 0) (a 1) (a 2) (a 3) (a 4))
  | 80 => some (sysFstat config (a 0) (a 1))
  | 93 => some (sysExit (a 0))
  | 291 => some sysStatx
  | 1039 => some (sysLstat config (a 0) (a 1) (a 2))
  | 2011 => some (sysGetmainvars config (a 0) (a 1))
  | 2012 => some (sysPrintstr config (a 0))
  | _ => none

/-- Word `index` of eight words in memory order. -/
def magicWord (magicmem : List Byte) (index : Nat) : RegT :=
  BitVec.ofNat 64 (ofBytes ((magicmem.drop (8 * index)).take 8))

/-- `dispatch` -/
def dispatch (mm : AddrT) : HostM σ ω Unit := do
  let magicmem ← memRead config mm 64
  let n := magicWord magicmem 0
  match syscallTable config n.toNat
      fun index => magicWord magicmem (index.val + 1) with
  | none =>
      throw (.runtimeError ("bad syscall #" ++ toString n.toNat))
  | some call => do
      let result ← call
      memWrite config mm (toBytes 8 result.toNat ++ magicmem.drop 8)

end Calls

end Ria
