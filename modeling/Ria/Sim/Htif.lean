import Ria.Sim.Syscall

/-!
# The host-target interface

A program on the target posts a command in `tohost`; `process_htio` polls it,
clears it, hands it to a device and puts the responses into `fromhost` one by
one, whenever the target has cleared it.
-/

namespace Ria

open ByteMemory

/-- `command_t` -/
structure Command where
  tohost : RegT

namespace Command

/-- `device()` -/
def device (cmd : Command) : BitVec 8 := (cmd.tohost >>> 56).setWidth 8

/-- `cmd()` -/
def cmd (cmd : Command) : BitVec 8 := (cmd.tohost >>> 48).setWidth 8

/-- `payload()` -/
def payload (cmd : Command) : RegT := cmd.tohost <<< 16 >>> 16

/-- The value that `respond(resp)` passes to the callback. -/
def response (cmd : Command) (resp : RegT) : RegT :=
  cmd.tohost >>> 48 <<< 48 ||| resp <<< 16 >>> 16

end Command

/-- A device of `device_list`: its identity and the names and handlers of the
commands it registers beside `identity`. -/
structure Device (σ ω : Type) where
  identity : List Byte
  commands : BitVec 8 → Option (List Byte × (Command → HostM σ ω Unit))

section Devices

variable {σ ω : Type} (config : HostConfig σ ω)

/-- `respond`; the callback is `enq_func`. -/
def respond (cmd : Command) (resp : RegT) : HostM σ ω Unit :=
  modify fun state =>
    { state with
      fromhostQueue := state.fromhostQueue ++ [cmd.response resp] }

/-- `handle_syscall` -/
def handleSyscall (cmd : Command) : HostM σ ω Unit := do
  if cmd.payload &&& 1 ≠ 0 then
    modify fun state =>
      { state with exitcode := cmd.payload.setWidth 32, stopped := true }
  else
    dispatch config cmd.payload
    respond cmd 1

/-- `syscall_t` -/
def syscallProxy : Device σ ω where
  identity := "syscall_proxy".toUTF8.toList.map (·.toBitVec)
  commands := fun cmd =>
    if cmd = 0 then
      some ("syscall".toUTF8.toList.map (·.toBitVec), handleSyscall config)
    else none

/-- `null_device_t` -/
def nullDevice : Device σ ω where
  identity := []
  commands := fun _ => none

/-- `command_names[what]` -/
def Device.commandName (device : Device σ ω) (what : BitVec 8) : List Byte :=
  match device.commands what with
  | some (name, _) => name
  | none =>
      if what = 255 then "identity".toUTF8.toList.map (·.toBitVec) else []

/-- `handle_identify` -/
def handleIdentify (device : Device σ ω) (cmd : Command) : HostM σ ω Unit := do
  let what : BitVec 8 := cmd.payload.setWidth 8
  let addr := cmd.payload >>> 8
  if addr.toNat % 64 ≠ 0 then
    throw (.assertionFailed "addr % IDENTITY_SIZE == 0")
  let name :=
    if what = 255 then device.identity else device.commandName what
  memWrite config addr (name ++ List.replicate (64 - name.length) 0)
  respond cmd 1

/-- `device_t::handle_command`: without a handler of its own, command 255
identifies the device and any other does nothing. -/
def Device.handleCommand (device : Device σ ω) (cmd : Command) :
    HostM σ ω Unit :=
  match device.commands cmd.cmd with
  | some (_, handler) => handler cmd
  | none => if cmd.cmd = 255 then handleIdentify config device cmd else pure ()

/-- `device_list_t::handle_command`: only `syscall_proxy` is registered. -/
def handleCommand (cmd : Command) : HostM σ ω Unit :=
  if cmd.device = 0 then (syscallProxy config).handleCommand config cmd
  else nullDevice.handleCommand config cmd

/-- The first half of `process_htio`: a command is cleared before it is
handled. -/
def pollTohost : HostM σ ω Unit := do
  let tohost ← readUint64 config config.tohostAddr
  if tohost ≠ 0 then
    writeUint64 config config.tohostAddr 0
    handleCommand config { tohost }

/-- The first of the responses goes to an empty `fromhost`. -/
def deliverFront : List RegT → HostM σ ω Unit
  | [] => pure ()
  | front :: rest => do
      let fromhost ← readUint64 config config.fromhostAddr
      if fromhost = 0 then
        writeUint64 config config.fromhostAddr front
        modify fun state => { state with fromhostQueue := rest }

/-- The second half -/
def deliverFromhost : HostM σ ω Unit := do
  deliverFront config (← get).fromhostQueue

/-- `process_htio`; `device_list.tick()` does nothing for these devices. -/
def processHtio : HostM σ ω Unit := do
  pollTohost config
  deliverFromhost config

/-- `exit_code`; the exit code is an `int`. -/
def exitCode (state : HostState σ ω) : BitVec 32 :=
  state.exitcode.sshiftRight 1

end Devices

end Ria
