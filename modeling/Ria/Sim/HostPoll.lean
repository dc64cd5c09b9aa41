import Ria.Sim.HostCalls

/-!
# One poll, on a byte array

On the byte array a poll that finds `tohost` zero does nothing, and one that
finds the address of the command words hands them to `dispatch` and answers in
`fromhost` before it ends.
-/

namespace Ria

open ByteMemory StoreBuffer

/-- The eight bytes at an address are zero. -/
def Zero (memory : Memory 32) (addr : SimAddr) : Prop :=
  load memory addr 8 = List.replicate 8 0

section Words

variable {memory : Memory 32} {addr : SimAddr}

theorem load_halves (memory : Memory 32) (addr : SimAddr) :
    load memory addr 8 = load memory addr 4 ++ load memory (addr + 4) 4 :=
  load_add memory addr 4 4

theorem Zero.halves (zero : Zero memory addr) :
    load memory addr 4 = List.replicate 4 0 ∧
      load memory (addr + 4) 4 = List.replicate 4 0 := by
  have parts : List.replicate 4 0 ++ List.replicate 4 0 =
      load memory addr 4 ++ load memory (addr + 4) 4 :=
    zero.symm.trans (load_halves memory addr)
  rcases List.append_inj parts (by rw [length_load, List.length_replicate])
    with ⟨low, high⟩
  exact ⟨low.symm, high.symm⟩

theorem Zero.word (zero : Zero memory addr) : word64 memory addr = 0 := by
  rw [word64, zero]
  rfl

theorem Zero.write_eq (zero : Zero memory addr) :
    write memory addr (List.replicate 8 0) = memory := by
  rw [← zero]
  exact write_load memory addr 8

theorem word64_write (memory : Memory 32) (addr : SimAddr) (value : RegT) :
    word64 (write memory addr (toBytes 8 value.toNat)) addr = value := by
  have read := load_write memory addr (toBytes 8 value.toNat)
    (by rw [length_toBytes]; decide)
  rw [length_toBytes] at read
  rw [word64, read, ofBytes_toBytes]
  apply BitVec.eq_of_toNat_eq
  rw [BitVec.toNat_ofNat, Nat.mod_mod, Nat.mod_eq_of_lt value.isLt]

end Words

section Poll

variable {ω : Type} {config : HostConfig (Memory 32) ω}

/-- The host in front of a byte array, in the chunks of `sim_t`. -/
def InFrontOfBytes (config : HostConfig (Memory 32) ω) : Prop :=
  config.memif = bytesMemif

theorem memRead_bytes (bytes : InFrontOfBytes config) (addr : AddrT)
    (len : Nat) (state : HostState (Memory 32) ω) :
    memRead config addr len state =
      .ok (load state.memory (addr.setWidth 32) len, state) := by
  rcases bytesMemif_serves.read_bytes addr len state.memory with ⟨kept, read⟩
  rw [← bytes] at kept read
  change Except.ok ((config.memif.read addr len state.memory).2,
    { state with memory := (config.memif.read addr len state.memory).1 }) = _
  rw [kept, read]

theorem memWrite_bytes (bytes : InFrontOfBytes config) (addr : AddrT)
    {data : List Byte} (fits : data.length ≤ 2 ^ 32)
    (state : HostState (Memory 32) ω) :
    memWrite config addr data state =
      .ok ((), { state with
        memory := write state.memory (addr.setWidth 32) data }) := by
  have written := bytesMemif_serves.write_bytes addr fits state.memory
  rw [← bytes] at written
  change Except.ok ((), { state with
    memory := config.memif.write addr data state.memory }) = _
  rw [written]

theorem checkAligned_ok {addr : SimAddr} (aligned : addr.toNat % 8 = 0)
    (state : HostState (Memory 32) ω) :
    checkAligned 8 (addr.setWidth 64) state = .ok ((), state) := by
  have zero : addr.setWidth 64 &&& BitVec.ofNat 64 (8 - 1) = 0 := by
    apply BitVec.eq_of_toNat_eq
    have small : addr.toNat < 2 ^ 64 := Nat.lt_of_lt_of_le addr.isLt (by decide)
    rw [BitVec.toNat_and, BitVec.toNat_setWidth, Nat.mod_eq_of_lt small]
    change addr.toNat &&& 2 ^ 3 - 1 = 0
    rw [Nat.and_two_pow_sub_one_eq_mod]
    exact aligned
  unfold checkAligned
  rw [if_neg (not_not.mpr zero)]
  rfl

theorem readUint64_bytes (bytes : InFrontOfBytes config) {addr : SimAddr}
    (aligned : addr.toNat % 8 = 0) (state : HostState (Memory 32) ω) :
    readUint64 config (addr.setWidth 64) state =
      .ok (word64 state.memory addr, state) := by
  have same : (addr.setWidth 64).setWidth 32 = addr := by
    rw [BitVec.setWidth_setWidth_of_le _ (by decide), BitVec.setWidth_eq]
  have checked := checkAligned_ok (ω := ω) aligned state
  have read := memRead_bytes bytes (addr.setWidth 64) 8 state
  rw [same] at read
  unfold readUint64 memifReadFunc
  rw [HostM.bind_ok checked, HostM.bind_ok read]
  rfl

theorem writeUint64_bytes (bytes : InFrontOfBytes config) {addr : SimAddr}
    (aligned : addr.toNat % 8 = 0) (value : RegT)
    (state : HostState (Memory 32) ω) :
    writeUint64 config (addr.setWidth 64) value state =
      .ok ((), { state with
        memory := write state.memory addr (toBytes 8 value.toNat) }) := by
  have same : (addr.setWidth 64).setWidth 32 = addr := by
    rw [BitVec.setWidth_setWidth_of_le _ (by decide), BitVec.setWidth_eq]
  have short : (toBytes 8 value.toNat).length ≤ 2 ^ 32 := by
    rw [length_toBytes]
    decide
  have written := memWrite_bytes bytes (addr.setWidth 64) short state
  rw [same] at written
  unfold writeUint64 memifWriteFunc
  rw [HostM.bind_ok (checkAligned_ok aligned state)]
  exact written

/-- Nothing is posted and nothing waits: the poll does nothing. -/
theorem processHtio_idle (bytes : InFrontOfBytes config)
    {tohost : SimAddr} (place : config.tohostAddr = tohost.setWidth 64)
    (aligned : tohost.toNat % 8 = 0) {state : HostState (Memory 32) ω}
    (zero : Zero state.memory tohost) (empty : state.fromhostQueue = []) :
    processHtio config state = .ok ((), state) := by
  have read := readUint64_bytes bytes aligned state
  have poll : pollTohost config state = .ok ((), state) := by
    unfold pollTohost
    rw [place, HostM.bind_ok read, zero.word]
    rfl
  unfold processHtio
  rw [HostM.bind_ok poll]
  unfold deliverFromhost
  rw [HostM.bind_ok rfl, empty]
  rfl

section Pointer

variable {cmd : SimAddr}

theorem pointer_toNat (cmd : SimAddr) :
    (cmd.setWidth 64).toNat = cmd.toNat := by
  rw [BitVec.toNat_setWidth]
  exact Nat.mod_eq_of_lt (Nat.lt_of_lt_of_le cmd.isLt (by decide))

theorem pointer_shiftRight (cmd : SimAddr) {count : Nat}
    (beyond : 32 ≤ count) : cmd.setWidth 64 >>> count = 0 := by
  apply BitVec.eq_of_toNat_eq
  have wide : 2 ^ 32 ≤ 2 ^ count := Nat.pow_le_pow_right (by decide) beyond
  rw [BitVec.toNat_ushiftRight, pointer_toNat, Nat.shiftRight_eq_div_pow,
    Nat.div_eq_of_lt (Nat.lt_of_lt_of_le cmd.isLt wide)]
  rfl

theorem pointer_payload (cmd : SimAddr) :
    Command.payload ⟨cmd.setWidth 64⟩ = cmd.setWidth 64 := by
  apply BitVec.eq_of_toNat_eq
  have small := cmd.isLt
  rw [Command.payload, BitVec.toNat_ushiftRight, BitVec.toNat_shiftLeft,
    pointer_toNat, Nat.shiftRight_eq_div_pow, Nat.shiftLeft_eq]
  omega

/-- The address of the command words is a system call for the proxy, which
answers with 1. -/
theorem handleCommand_pointer (even : cmd.toNat % 2 = 0) :
    handleCommand config ⟨cmd.setWidth 64⟩ =
      (do
        dispatch config (cmd.setWidth 64)
        modify fun state =>
          { state with fromhostQueue := state.fromhostQueue ++ [1] }) := by
  have device : Command.device ⟨cmd.setWidth 64⟩ = 0 := by
    rw [Command.device, pointer_shiftRight cmd (by decide)]
    rfl
  have number : Command.cmd ⟨cmd.setWidth 64⟩ = 0 := by
    rw [Command.cmd, pointer_shiftRight cmd (by decide)]
    rfl
  have response : Command.response ⟨cmd.setWidth 64⟩ 1 = 1 := by
    rw [Command.response, pointer_shiftRight cmd (by decide)]
    rfl
  have call : cmd.setWidth 64 &&& 1 = 0 := by
    apply BitVec.eq_of_toNat_eq
    rw [BitVec.toNat_and, pointer_toNat]
    change cmd.toNat &&& 2 ^ 1 - 1 = 0
    rw [Nat.and_two_pow_sub_one_eq_mod]
    exact even
  unfold handleCommand
  rw [if_pos device]
  unfold Device.handleCommand
  rw [number]
  change handleSyscall config ⟨cmd.setWidth 64⟩ = _
  unfold handleSyscall respond
  rw [pointer_payload, if_neg (not_not.mpr call), response]

theorem dispatch_queue {mm : AddrT} {state state' : HostState (Memory 32) ω}
    (handled : dispatch config mm state = .ok ((), state')) :
    state'.fromhostQueue = state.fromhostQueue := by
  let queue := fun state : HostState (Memory 32) ω => state.fromhostQueue
  have frame : Frame config (Same queue) :=
    Frame.ofPart (fun _ _ _ _ done => by rw [← Except.ok.inj done]; rfl)
      (fun _ _ => rfl) (fun _ _ => rfl) (fun _ _ => rfl)
  have writes : ∀ addr bytes, Along (Same queue) (memWrite config addr bytes) :=
    fun _ _ => Along.modifies fun _ => rfl
  exact dispatch_along writes frame
    (sysOpenat_along (fun _ _ => rfl) (fun _ _ => rfl) frame)
    (sysClose_along (fun _ _ => rfl) (fun _ _ => rfl)) mm state _ handled

variable {tohost fromhost : SimAddr}

/-- The address of the command words is posted: the poll clears `tohost`,
carries out the call and answers with 1 in `fromhost`. -/
theorem processHtio_posted (bytes : InFrontOfBytes config)
    (tohostPlace : config.tohostAddr = tohost.setWidth 64)
    (fromhostPlace : config.fromhostAddr = fromhost.setWidth 64)
    (tohostAligned : tohost.toNat % 8 = 0)
    (fromhostAligned : fromhost.toNat % 8 = 0)
    (even : cmd.toNat % 2 = 0) (some : cmd ≠ 0)
    {state last : HostState (Memory 32) ω}
    (posted : word64 state.memory tohost = cmd.setWidth 64)
    (empty : state.fromhostQueue = [])
    (ran : processHtio config state = .ok ((), last)) :
    ∃ handled,
      dispatch config (cmd.setWidth 64)
          { state with
            memory := write state.memory tohost (List.replicate 8 0) } =
        .ok ((), handled) ∧
      (Zero handled.memory fromhost →
        last = { handled with
          memory := write handled.memory fromhost (toBytes 8 1) }) := by
  have nonzero : cmd.setWidth 64 ≠ 0 := by
    intro zero
    apply some
    have same := congrArg BitVec.toNat zero
    rw [pointer_toNat] at same
    exact BitVec.eq_of_toNat_eq same
  have read := readUint64_bytes bytes tohostAligned state
  have cleared := writeUint64_bytes bytes tohostAligned 0 state
  have zeros : toBytes 8 (0 : RegT).toNat = List.replicate 8 0 :=
    toBytes_zero 8
  rw [zeros] at cleared
  unfold processHtio at ran
  rcases HostM.bind_cases ran with ⟨_, polled, poll, deliver⟩
  unfold pollTohost at poll
  rw [tohostPlace, HostM.bind_ok read, posted, if_pos nonzero,
    HostM.bind_ok cleared, handleCommand_pointer even] at poll
  rcases HostM.bind_cases poll with ⟨_, handled, call, queued⟩
  refine ⟨handled, call, ?_⟩
  intro zero
  have queue : handled.fromhostQueue = [] :=
    (dispatch_queue call).trans empty
  have polledEq : { handled with
      fromhostQueue := handled.fromhostQueue ++ [1] } = polled :=
    congrArg Prod.snd (Except.ok.inj queued)
  rw [queue] at polledEq
  subst polledEq
  have answer := readUint64_bytes bytes fromhostAligned
    { handled with fromhostQueue := [] ++ [1] }
  have answered := writeUint64_bytes bytes fromhostAligned 1
    { handled with fromhostQueue := [] ++ [1] }
  unfold deliverFromhost at deliver
  rw [HostM.bind_ok rfl] at deliver
  unfold deliverFront at deliver
  dsimp only [List.nil_append] at deliver answer answered
  rw [fromhostPlace, HostM.bind_ok answer, zero.word, if_pos rfl,
    HostM.bind_ok answered] at deliver
  refine (congrArg Prod.snd (Except.ok.inj deliver)).symm.trans ?_
  rw [queue]
  rfl

end Pointer

end Poll

end Ria
