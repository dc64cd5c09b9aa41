import Ria.Sim.Htif

/-!
# How host code moves the state

`Along R program` says that a program that returns leaves a state related by
`R` to the one it found.  A `Frame` is a preorder on states that reading
memory, the exit code, printing and the calls of the C library respect, as
long as these name only descriptors from the target's table and are neither
`openat` nor `close`.  Every other system call then moves along it too.
-/

namespace Ria

open ByteMemory

variable {σ ω α β γ : Type}

/-- The descriptors that a call of the C library names. -/
def OsCall.descriptors : OsCall → List (BitVec 32)
  | .read fd _ => [fd]
  | .pread fd _ _ => [fd]
  | .write fd _ => [fd]
  | .pwrite fd _ _ => [fd]
  | .close fd => [fd]
  | .lseek fd _ _ => [fd]
  | .fstat fd => [fd]
  | .fcntl fd _ _ => [fd]
  | .ftruncate fd _ => [fd]
  | .lstat _ => []
  | .openat dirfd _ _ _ => [dirfd]
  | .fstatat dirfd _ _ => [dirfd]
  | .faccessat dirfd _ _ _ => [dirfd]
  | .renameat odirfd _ ndirfd _ => [odirfd, ndirfd]
  | .linkat odirfd _ ndirfd _ _ => [odirfd, ndirfd]
  | .unlinkat dirfd _ _ => [dirfd]
  | .mkdirat dirfd _ _ => [dirfd]
  | .getcwd _ => []
  | .chdir _ => []

/-- A call that neither opens a descriptor for the table nor closes one. -/
def OsCall.Ordinary : OsCall → Prop
  | .openat .. => False
  | .close _ => False
  | _ => True

/-- A call names descriptors that the target's table hands out. -/
def Named (fds : List (BitVec 32)) (call : OsCall) : Prop :=
  ∀ fd ∈ call.descriptors, ∃ reg, fd = Fds.lookup fds reg

/-- A program that returns goes along the relation. -/
def Along (R : HostState σ ω → HostState σ ω → Prop) (program : HostM σ ω α) :
    Prop :=
  ∀ state result, program state = .ok result → R state result.2

/-- A part of the state that stays the same -/
def Same (part : HostState σ ω → γ) (before after : HostState σ ω) : Prop :=
  part after = part before

/-- What the operations below the system calls do, short of writing target
memory. -/
structure Frame (config : HostConfig σ ω)
    (R : HostState σ ω → HostState σ ω → Prop) : Prop where
  refl : ∀ state, R state state
  trans : ∀ {first second third}, R first second → R second third →
    R first third
  memRead : ∀ addr len, Along R (Ria.memRead config addr len)
  os : ∀ state call, call.Ordinary → Named state.fds call →
    R state { state with os := (config.os call state.os).1 }
  exitcode : ∀ state exitcode, R state { state with exitcode }
  printed : ∀ state printed, R state { state with printed }

variable {config : HostConfig σ ω} {R : HostState σ ω → HostState σ ω → Prop}

/-- A part that only writing memory, `openat` and `close` may change. -/
theorem Frame.ofPart {part : HostState σ ω → γ}
    (memRead : ∀ addr len, Along (Same part) (Ria.memRead config addr len))
    (os : ∀ state os, part { state with os } = part state)
    (exitcode : ∀ state exitcode,
      part { state with exitcode } = part state)
    (printed : ∀ state printed, part { state with printed } = part state) :
    Frame config (Same part) where
  refl := fun _ => rfl
  trans := fun first second => second.trans first
  memRead := memRead
  os := fun state _ _ _ => os state _
  exitcode := exitcode
  printed := printed

namespace Along

theorem throws (error : HostError) :
    Along R (throw error : HostM σ ω α) := by
  intro state result done
  cases done

theorem modifies {change : HostState σ ω → HostState σ ω}
    (along : ∀ state, R state (change state)) : Along R (modify change) := by
  intro state result done
  rw [← Except.ok.inj done]
  exact along state

theorem ite {condition : Prop} [Decidable condition]
    {program other : HostM σ ω α} (yes : Along R program)
    (no : Along R other) :
    Along R (if condition then program else other) := by
  split
  · exact yes
  · exact no

end Along

namespace Frame

theorem returns (frame : Frame config R) (value : α) :
    Along R (pure value) := by
  intro state result done
  rw [← Except.ok.inj done]
  exact frame.refl state

theorem bind (frame : Frame config R) {program : HostM σ ω α}
    {next : α → HostM σ ω β} (first : Along R program)
    (rest : ∀ value, Along R (next value)) : Along R (program >>= next) := by
  intro state result done
  rcases HostM.bind_cases done with ⟨value, middle, ran, final⟩
  exact frame.trans (first state _ ran) (rest value middle result final)

end Frame

section Operations

theorem atPath_ok (fd : RegT) (name : List Byte) (state : HostState σ ω) :
    ∃ path, atPath fd name state = .ok (path, state) := by
  unfold atPath
  split
  · exact ⟨_, rfl⟩
  · exact ⟨_, rfl⟩

theorem checkAligned_along (frame : Frame config R) (size : Nat)
    (addr : AddrT) : Along R (checkAligned size addr) :=
  (Along.throws _).ite (frame.returns _)

theorem readUint8_along (frame : Frame config R) (addr : AddrT) :
    Along R (readUint8 config addr) :=
  frame.bind (checkAligned_along frame 1 addr) fun _ =>
    frame.bind (frame.memRead addr 1) fun _ => frame.returns _

theorem newVector_along (frame : Frame config R) (len : RegT) :
    Along R (newVector len) :=
  (Along.throws _).ite (frame.returns _)

theorem readName_along (frame : Frame config R) (pname len : RegT) :
    Along R (readName config pname len) :=
  frame.bind (newVector_along frame len) fun _ =>
    frame.bind (frame.memRead pname _) fun _ =>
      (frame.returns _).ite (Along.throws _)

theorem readNames_along (frame : Frame config R)
    (pold olen pnew nlen : RegT) :
    Along R (readNames config pold olen pnew nlen) :=
  frame.bind (newVector_along frame olen) fun _ =>
    frame.bind (newVector_along frame nlen) fun _ =>
      frame.bind (frame.memRead pold _) fun _ =>
        frame.bind (frame.memRead pnew _) fun _ =>
          (frame.returns _).ite (Along.throws _)

theorem readString_along (frame : Frame config R) (place : Nat → AddrT)
    (fuel i : Nat) : Along R (readString config place fuel i) := by
  induction fuel generalizing i with
  | zero => exact Along.throws _
  | succ fuel induction =>
      exact frame.bind (readUint8_along frame (place i)) fun c =>
        (frame.returns _).ite
          (frame.bind (induction (i + 1)) fun _ => frame.returns _)

theorem callOs_along (frame : Frame config R) {call : OsCall}
    {state : HostState σ ω} (ordinary : call.Ordinary)
    (named : Named state.fds call) {next : OsResult → HostM σ ω α}
    (rest : ∀ result, Along R (next result)) {result : α × HostState σ ω}
    (done : (callOs config call >>= next) state = .ok result) :
    R state result.2 :=
  frame.trans (frame.os state call ordinary named) (rest _ _ result done)

theorem onNone_along (frame : Frame config R) {call : OsCall}
    (ordinary : call.Ordinary) (names : call.descriptors = [])
    {next : OsResult → HostM σ ω α} (rest : ∀ result, Along R (next result)) :
    Along R (callOs config call >>= next) := by
  intro state result done
  refine callOs_along frame ordinary ?_ rest done
  intro fd member
  rw [names] at member
  cases member

theorem onFd_along (frame : Frame config R) (fd : RegT)
    {call : BitVec 32 → OsCall} (ordinary : ∀ hostFd, (call hostFd).Ordinary)
    (names : ∀ hostFd, (call hostFd).descriptors = [hostFd])
    {next : OsResult → HostM σ ω α} (rest : ∀ result, Along R (next result)) :
    Along R (do next (← callOs config (call (← lookupFd fd)))) := by
  intro state result done
  refine callOs_along frame (ordinary _) ?_ rest done
  intro hostFd member
  rw [names] at member
  exact ⟨fd, List.mem_singleton.mp member⟩

theorem onPath_along (frame : Frame config R) (fd : RegT) (name : List Byte)
    {call : BitVec 32 → List Byte → OsCall}
    (ordinary : ∀ hostFd path, (call hostFd path).Ordinary)
    (names : ∀ hostFd path, (call hostFd path).descriptors = [hostFd])
    {next : OsResult → HostM σ ω α} (rest : ∀ result, Along R (next result)) :
    Along R (do
      next (← callOs config (call (← lookupFd fd) (← atPath fd name)))) := by
  intro state result done
  rcases atPath_ok fd name state with ⟨path, found⟩
  rw [HostM.bind_ok rfl, HostM.bind_ok found] at done
  refine callOs_along frame (ordinary _ _) ?_ rest done
  intro hostFd member
  rw [names] at member
  exact ⟨fd, List.mem_singleton.mp member⟩

theorem onPaths_along (frame : Frame config R) (ofd nfd : RegT)
    (oname nname : List Byte)
    {call : BitVec 32 → List Byte → BitVec 32 → List Byte → OsCall}
    (ordinary : ∀ ohost opath nhost npath,
      (call ohost opath nhost npath).Ordinary)
    (names : ∀ ohost opath nhost npath,
      (call ohost opath nhost npath).descriptors = [ohost, nhost])
    {next : OsResult → HostM σ ω α} (rest : ∀ result, Along R (next result)) :
    Along R (do
      next (← callOs config (call (← lookupFd ofd) (← atPath ofd oname)
        (← lookupFd nfd) (← atPath nfd nname)))) := by
  intro state result done
  rcases atPath_ok ofd oname state with ⟨opath, foundOld⟩
  rcases atPath_ok nfd nname state with ⟨npath, foundNew⟩
  rw [HostM.bind_ok rfl, HostM.bind_ok foundOld, HostM.bind_ok rfl,
    HostM.bind_ok foundNew] at done
  refine callOs_along frame (ordinary _ _ _ _) ?_ rest done
  intro hostFd member
  rw [names] at member
  rcases List.mem_cons.mp member with old | rest
  · exact ⟨ofd, old⟩
  · exact ⟨nfd, List.mem_singleton.mp rest⟩

variable (writes : ∀ addr bytes, Along R (memWrite config addr bytes))
include writes

theorem fill_along (frame : Frame config R) (pbuf : RegT)
    (result : OsResult) :
    Along R
      (do
        if 0 < result.ret.toInt then memWrite config pbuf result.data
        return sysretErrno result result.ret) :=
  (frame.bind (writes pbuf _) fun _ => frame.returns _).ite (frame.returns _)

theorem copyStat_along (frame : Frame config R) (pbuf : RegT)
    (result : OsResult) : Along R (copyStat config pbuf result) :=
  (frame.bind (writes pbuf _) fun _ => frame.returns _).ite (frame.returns _)

theorem sysGetcwd_along (frame : Frame config R) (pbuf size : RegT) :
    Along R (sysGetcwd config pbuf size) := by
  apply frame.bind (newVector_along frame size)
  intro _
  apply onNone_along frame (by trivial) rfl
  intro result
  apply (frame.returns _).ite
  intro state last done
  exact ((frame.returns _).ite (frame.bind (writes pbuf _)
    fun _ => frame.returns _)) state last done

theorem sysLstat_along (frame : Frame config R) (pname len pbuf : RegT) :
    Along R (sysLstat config pname len pbuf) := by
  apply frame.bind (readName_along frame pname len)
  intro name state last done
  exact onNone_along frame (by trivial) rfl
    (fun result => copyStat_along writes frame pbuf result) state last done

omit writes

theorem sysWrite_along (frame : Frame config R) (fd pbuf len : RegT) :
    Along R (sysWrite config fd pbuf len) :=
  frame.bind (newVector_along frame len) fun _ =>
    frame.bind (frame.memRead _ _) fun _ =>
      onFd_along frame _ (fun _ => by trivial) (fun _ => rfl)
        fun _ => frame.returns _

theorem sysPrintstr_along (frame : Frame config R) (str : RegT) :
    Along R (sysPrintstr config str) :=
  frame.bind (readString_along frame _ _ _) fun _ =>
    frame.bind (Along.modifies fun state => frame.printed state _) fun _ =>
      frame.returns _

include writes

theorem syscallTable_along (frame : Frame config R) {n : Nat}
    {a : Fin 7 → RegT} {call : HostM σ ω RegT}
    (entry : syscallTable config n a = some call) (notOpen : n ≠ 56)
    (notClose : n ≠ 57) : Along R call := by
  unfold syscallTable at entry
  split at entry <;> cases entry
  · exact sysGetcwd_along writes frame _ _
  · exact onFd_along frame _ (fun _ => by trivial) (fun _ => rfl)
      fun _ => frame.returns _
  · exact frame.bind (readName_along frame _ _) fun _ =>
      onPath_along frame _ _ (fun _ _ => by trivial) (fun _ _ => rfl)
        fun _ => frame.returns _
  · exact frame.bind (readName_along frame _ _) fun _ =>
      onPath_along frame _ _ (fun _ _ => by trivial) (fun _ _ => rfl)
        fun _ => frame.returns _
  · exact frame.bind (readNames_along frame _ _ _ _) fun _ =>
      onPaths_along frame _ _ _ _ (fun _ _ _ _ => by trivial)
        (fun _ _ _ _ => rfl) fun _ => frame.returns _
  · exact frame.bind (readNames_along frame _ _ _ _) fun _ =>
      onPaths_along frame _ _ _ _ (fun _ _ _ _ => by trivial)
        (fun _ _ _ _ => rfl) fun _ => frame.returns _
  · exact onFd_along frame _ (fun _ => by trivial) (fun _ => rfl)
      fun _ => frame.returns _
  · exact frame.bind (readName_along frame _ _) fun _ =>
      onPath_along frame _ _ (fun _ _ => by trivial) (fun _ _ => rfl)
        fun _ => frame.returns _
  · exact frame.bind (readString_along frame _ _ _) fun _ =>
      frame.bind (readString_along frame _ _ _) fun _ =>
        onNone_along frame (by trivial) rfl fun _ => frame.returns _
  · exact absurd rfl notOpen
  · exact absurd rfl notClose
  · exact onFd_along frame _ (fun _ => by trivial) (fun _ => rfl)
      fun _ => frame.returns _
  · exact frame.bind (newVector_along frame _) fun _ =>
      onFd_along frame _ (fun _ => by trivial) (fun _ => rfl)
        fun result => fill_along writes frame _ result
  · exact sysWrite_along frame _ _ _
  · exact frame.bind (newVector_along frame _) fun _ =>
      onFd_along frame _ (fun _ => by trivial) (fun _ => rfl)
        fun result => fill_along writes frame _ result
  · exact frame.bind (newVector_along frame _) fun _ =>
      frame.bind (frame.memRead _ _) fun _ =>
        onFd_along frame _ (fun _ => by trivial) (fun _ => rfl)
          fun _ => frame.returns _
  · exact frame.bind (readName_along frame _ _) fun _ =>
      onPath_along frame _ _ (fun _ _ => by trivial) (fun _ _ => rfl)
        fun result => copyStat_along writes frame _ result
  · exact onFd_along frame _ (fun _ => by trivial) (fun _ => rfl)
      fun result => copyStat_along writes frame _ result
  · exact frame.bind (Along.modifies fun state => frame.exitcode state _)
      fun _ => frame.returns _
  · exact frame.returns _
  · exact sysLstat_along writes frame _ _ _
  · exact (frame.returns _).ite (frame.bind (writes _ _) fun _ =>
      frame.returns _)
  · exact sysPrintstr_along frame _

/-- A system call moves along the frame if `openat` and `close` do. -/
theorem dispatch_along (frame : Frame config R)
    (opens : ∀ dirfd pname len flags mode,
      Along R (sysOpenat config dirfd pname len flags mode))
    (closes : ∀ fd, Along R (sysClose config fd)) (mm : AddrT) :
    Along R (dispatch config mm) := by
  apply frame.bind (frame.memRead mm 64)
  intro magicmem
  dsimp only
  split
  · exact Along.throws _
  · rename_i call entry
    apply frame.bind
    · by_cases isOpen : (magicWord magicmem 0).toNat = 56
      · rw [isOpen] at entry
        cases entry
        exact opens _ _ _ _ _
      · by_cases isClose : (magicWord magicmem 0).toNat = 57
        · rw [isClose] at entry
          cases entry
          exact closes _
        · exact syscallTable_along writes frame entry isOpen isClose
    · intro result
      exact writes mm _

end Operations

/-! ## The calls that change the table -/

section Descriptors

theorem sysOpenat_cases {dirfd pname len flags mode : RegT}
    {state : HostState σ ω} {last : RegT × HostState σ ω}
    (done : sysOpenat config dirfd pname len flags mode state = .ok last) :
    ∃ name read path answer fd,
      readName config pname len state = .ok (name, read) ∧
        answer = config.os (.openat (Fds.lookup read.fds dirfd) path
          (flags.setWidth 32) (mode.setWidth 32)) read.os ∧
        fd = (sysretErrno answer.2 answer.2.ret).setWidth 32 ∧
        (fd.toInt < 0 ∧
            last = (sysretErrno answer.2 (-1),
              { read with os := answer.1 }) ∨
          0 ≤ fd.toInt ∧
            last = ((Fds.alloc read.fds fd).2,
              { read with
                os := answer.1
                fds := (Fds.alloc read.fds fd).1 })) := by
  rcases HostM.bind_cases done with ⟨name, read, named, rest⟩
  rcases atPath_ok dirfd name read with ⟨path, found⟩
  rw [HostM.bind_ok rfl, HostM.bind_ok found, HostM.bind_ok rfl] at rest
  refine ⟨name, read, path, _, _, named, rfl, rfl, ?_⟩
  revert rest
  split
  · rename_i failed
    intro rest
    exact .inl ⟨failed, (Except.ok.inj rest).symm⟩
  · rename_i opened
    intro rest
    exact .inr ⟨Int.not_lt.mp opened, (Except.ok.inj rest).symm⟩

theorem deallocFd_inside {fd : RegT} {state : HostState σ ω}
    (inside : fd.toNat < state.fds.length) :
    deallocFd fd state =
      .ok ((), { state with fds := Fds.dealloc state.fds fd }) := by
  change (if fd.toNat < state.fds.length then
      set { state with fds := Fds.dealloc state.fds fd }
    else throw .undefined : HostM σ ω Unit) state = _
  rw [if_pos inside]
  rfl

theorem deallocFd_cases {fd : RegT} {state freed : HostState σ ω}
    (done : deallocFd fd state = .ok ((), freed)) :
    fd.toNat < state.fds.length ∧
      freed = { state with fds := Fds.dealloc state.fds fd } := by
  change (if fd.toNat < state.fds.length then
      set { state with fds := Fds.dealloc state.fds fd }
    else throw .undefined : HostM σ ω Unit) state = _ at done
  by_cases inside : fd.toNat < state.fds.length
  · rw [if_pos inside] at done
    exact ⟨inside, (congrArg Prod.snd (Except.ok.inj done)).symm⟩
  · rw [if_neg inside] at done
    cases done

theorem sysClose_cases {fd : RegT} {state : HostState σ ω}
    {last : RegT × HostState σ ω}
    (done : sysClose config fd state = .ok last) :
    ∃ answer,
      answer = config.os (.close (Fds.lookup state.fds fd)) state.os ∧
        (answer.2.ret.toInt < 0 ∧
            last = (sysretErrno answer.2 (-1),
              { state with os := answer.1 }) ∨
          0 ≤ answer.2.ret.toInt ∧ fd.toNat < state.fds.length ∧
            last = (0, { state with
              os := answer.1
              fds := Fds.dealloc state.fds fd })) := by
  rw [sysClose, HostM.bind_ok rfl, HostM.bind_ok rfl] at done
  refine ⟨_, rfl, ?_⟩
  revert done
  split
  · rename_i failed
    intro done
    exact .inl ⟨failed, (Except.ok.inj done).symm⟩
  · rename_i closed
    intro done
    rcases HostM.bind_cases done with ⟨freed, middle, dealloc, final⟩
    rcases deallocFd_cases dealloc with ⟨inside, rfl⟩
    exact .inr ⟨Int.not_lt.mp closed, inside, (Except.ok.inj final).symm⟩

variable {part : HostState σ ω → γ}
  (os : ∀ state os, part { state with os } = part state)
  (fds : ∀ state fds, part { state with fds } = part state)
include os fds

theorem sysOpenat_along (frame : Frame config (Same part))
    (dirfd pname len flags mode : RegT) :
    Along (Same part) (sysOpenat config dirfd pname len flags mode) := by
  intro state last done
  rcases sysOpenat_cases done with
    ⟨name, read, path, answer, fd, named, -, -, ⟨-, rfl⟩ | ⟨-, rfl⟩⟩
  · exact (os read _).trans (readName_along frame pname len _ _ named)
  · exact ((fds { read with os := answer.1 } _).trans (os read _)).trans
      (readName_along frame pname len _ _ named)

theorem sysClose_along (fd : RegT) :
    Along (Same part) (sysClose config fd) := by
  intro state last done
  rcases sysClose_cases done with ⟨answer, -, ⟨-, rfl⟩ | ⟨-, -, rfl⟩⟩
  · exact os state _
  · exact (fds { state with os := answer.1 } _).trans (os state _)

end Descriptors

/-! ## One call of the proxy -/

/-- What the target sees of a system call. -/
structure TargetCall where
  number : Nat
  args : Fin 7 → RegT
  result : RegT

/-- One call of the proxy, from the words at `mm` to the result in the first
of them. -/
def Dispatched (config : HostConfig σ ω) (mm : AddrT)
    (before : HostState σ ω) (call : TargetCall) (after : HostState σ ω) :
    Prop :=
  ∃ magicmem read program handled,
    memRead config mm 64 before = .ok (magicmem, read) ∧
      call.number = (magicWord magicmem 0).toNat ∧
      call.args = (fun index => magicWord magicmem (index.val + 1)) ∧
      syscallTable config call.number call.args = some program ∧
      program read = .ok (call.result, handled) ∧
      memWrite config mm (toBytes 8 call.result.toNat ++ magicmem.drop 8)
        handled = .ok ((), after)

/-- What `dispatch` does is a call. -/
theorem dispatch_iff {mm : AddrT} {before after : HostState σ ω} :
    dispatch config mm before = .ok ((), after) ↔
      ∃ call, Dispatched config mm before call after := by
  constructor
  · intro done
    rcases HostM.bind_cases done with ⟨magicmem, read, got, rest⟩
    cases entry : syscallTable config (magicWord magicmem 0).toNat
        (fun index => magicWord magicmem (index.val + 1)) with
    | none =>
        simp only [entry] at rest
        cases rest
    | some program =>
        simp only [entry] at rest
        rcases HostM.bind_cases rest with ⟨result, handled, ran, written⟩
        exact ⟨⟨_, _, result⟩, magicmem, read, program, handled, got, rfl,
          rfl, entry, ran, written⟩
  · rintro ⟨⟨number, args, result⟩, magicmem, read, program, handled, got,
      rfl, rfl, entry, ran, written⟩
    rw [dispatch, HostM.bind_ok got]
    simp only [entry]
    exact (HostM.bind_ok ran).trans written

end Ria
