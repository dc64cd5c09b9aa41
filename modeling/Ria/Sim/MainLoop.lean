import Ria.Backend.ExecutionUnit
import Ria.Sim.StoreBuffer

/-!
# The simulator loop

One clock-low phase of `sim_main2`: the retired stores are committed, a
misprediction flushes the store buffer, and the data port is served.  The
loop ends when a commit returns -1.
-/

namespace Ria

/-- What the core shows the simulator in a clock-low phase. -/
structure CorePorts where
  storeRetire : Fin 6 → Bool
  recover : Bool
  core2dcache : DcachePort

/-- The store buffer and whether the loop has been left. -/
structure SimState where
  storeBuffer : StoreBuffer
  stopped : Bool

/-- `__builtin_popcount(top->store_retire)` -/
def popcount (storeRetire : Fin 6 → Bool) : Nat :=
  (List.ofFn storeRetire).count true

/-- The request made of the values on the data port. -/
def DcachePort.request (port : DcachePort) : StoreRequest :=
  { addr := port.addr, data := port.data, size := port.dataSize }

/-- One clock-low phase, with the bytes handed to `dcache2core_data` if the
data port asks for a load. -/
def SimState.phase (state : SimState) (ports : CorePorts) :
    SimState × Option StoreBuffer.LoadWindow :=
  let (committed, code) :=
    state.storeBuffer.commitStoreRequest (popcount ports.storeRetire)
  if code = -1 then ({ storeBuffer := committed, stopped := true }, none)
  else
    let flushed :=
      if ports.recover then committed.flushStoreBuffer else committed
    if ports.core2dcache.dataWe then
      ({ state with
          storeBuffer :=
            flushed.addStoreRequest ports.core2dcache.request }, none)
    else
      let (loaded, dest) := flushed.loadData ports.core2dcache.addr
      ({ state with storeBuffer := loaded }, some dest)

end Ria
