import Ria.Backend.IntegerExecution
import Ria.Backend.LoadStorePipe
import Ria.Frontend.EncodedMemory
import Ria.Sim.LoadForwarding
import Ria.Sim.MainLoop

/-!
# Loads and stores against RV32I

A load or store is decoded, its sources are renamed, its operands are selected
by `prf_int`, `pipe_3` takes it and the simulator serves the data port.  The
memory of the ISA is the one in which all buffered stores have been written.
-/

namespace Ria

open ByteMemory Rv32i

/-! ## The data port -/

/-- `dcache2core_data`: the eight bytes that `LoadData` copies into it. -/
def windowData (dest : StoreBuffer.LoadWindow) : BitVec 64 :=
  dest 7 ++ dest 6 ++ dest 5 ++ dest 4 ++ dest 3 ++ dest 2 ++ dest 1 ++ dest 0

theorem windowData_byte (dest : StoreBuffer.LoadWindow) :
    (windowData dest).extractLsb' 0 8 = dest 0 := by
  simp (disch := decide) only [windowData,
    BitVec.extractLsb'_append_eq_of_add_le, BitVec.extractLsb'_eq_self]

theorem windowData_half (dest : StoreBuffer.LoadWindow) :
    (windowData dest).extractLsb' 0 16 = dest 1 ++ dest 0 := by
  unfold windowData
  ext index within
  simp
  grind

theorem windowData_word (dest : StoreBuffer.LoadWindow) :
    (windowData dest).extractLsb' 0 32 =
      dest 3 ++ dest 2 ++ dest 1 ++ dest 0 := by
  unfold windowData
  ext index within
  simp
  grind

/-- The extraction by size and sign is the load of the ISA. -/
theorem holding_out (uop : MicroOp) (in1 in2 : Word) (kind : LoadOp)
    (memType : uop.memType = loadMemType kind)
    (memSize : uop.memSize = loadMemSize kind) (memory : Memory 32)
    (address : Word) :
    (Pipe3.holding uop in1 in2).out
        (windowData (StoreBuffer.window memory address)) true =
      kind.value memory address := by
  have load : uop.memType ≠ .st := by
    rw [memType]
    cases kind <;> exact nofun
  rw [Pipe3.holding_loads load, MicroOp.loaded, memType, memSize]
  cases kind <;>
    simp [loadMemType, loadMemSize, MemSize.bits, windowData_byte,
      windowData_half, windowData_word, StoreBuffer.window, LoadOp.value]

/-- The bytes of the request are those the ISA writes. -/
theorem take_dataBytes (kind : StoreOp) (y : Word) :
    (dataBytes (y.setWidth 64)).take (dataSizeMap (storeMemSize kind)) =
      kind.bytes y := by
  have low : ∀ start, start + 8 ≤ 32 →
      (y.setWidth 64).extractLsb' start 8 = y.extractLsb' start 8 := by
    intro start within
    ext index bound
    simp
    intros
    omega
  cases kind <;>
    simp [dataBytes, storeMemSize, dataSizeMap, List.ofFn_succ, StoreOp.bytes,
      low]

/-! ## The pipe -/

/-- The uop of a load after decode and renaming. -/
def renamedLoad (entry : FbEntry) (instr : LoadInstr) (rs1 rs2 : PrfIndex) :
    MicroOp :=
  (decode (entry.withInst instr.encode) true).renameSources rs1 rs2

/-- The uop of a store after decode and renaming. -/
def renamedStore (entry : FbEntry) (instr : StoreInstr) (rs1 rs2 : PrfIndex) :
    MicroOp :=
  (decode (entry.withInst instr.encode) true).renameSources rs1 rs2

/-- The registers of `pipe_3` after the cycle in which way `way` selects the
operands of `uop` and hands it to the pipe. -/
def Pipe3.execute (pipe : Pipe3) (rf : PrfIntData) (ports : RdPorts)
    (way : Fin 4) (uop : MicroOp) : Pipe3 :=
  pipe.next false false uop (prfIntRs1Data rf ports way uop)
    (prfIntRs2Data rf ports way uop) true

section Execute

variable (entry : FbEntry) (rs1 rs2 : PrfIndex) {pipe : Pipe3}
  (rf : PrfIntData) (ports : RdPorts) (way : Fin 4)

theorem execute_load (run : Pipe3.ValidRun pipe) (instr : LoadInstr) :
    pipe.execute rf ports way (renamedLoad entry instr rs1 rs2) =
      .holding ((decodedLoad entry instr).renameSources rs1 rs2)
        (rf.read ports way rs1) (instr.imm.signExtend 32) := by
  rw [Pipe3.execute, renamedLoad, decode_load,
    prfIntRs1Data_fromRf rf ports way rfl,
    prfIntRs2Data_fromImm rf ports way rfl]
  exact Pipe3.next_take _ _ run.completing.busy rfl

theorem execute_store (run : Pipe3.ValidRun pipe) (instr : StoreInstr) :
    pipe.execute rf ports way (renamedStore entry instr rs1 rs2) =
      .holding ((decodedStore entry instr).renameSources rs1 rs2)
        (rf.read ports way rs1) (rf.read ports way rs2) := by
  rw [Pipe3.execute, renamedStore, decode_store,
    prfIntRs1Data_fromRf rf ports way rfl,
    prfIntRs2Data_fromRf rf ports way rfl]
  exact Pipe3.next_take _ _ run.completing.busy rfl

end Execute

/-! ## The simulator -/

namespace StoreBuffer

theorem settled_addStoreRequest (store : StoreBuffer) (req : StoreRequest) :
    (store.addStoreRequest req).settled = req.write store.settled := by
  rw [settled, addStoreRequest, List.foldl_append]
  rfl

theorem commitStoreRequest_runs {store : StoreBuffer} {numCommit : Nat}
    (ordinary : store.Ordinary) (within : numCommit ≤ store.buffer.length) :
    store.commitStoreRequest numCommit = commitLoop numCommit store ∧
      (commitLoop numCommit store).2 ≠ -1 := by
  refine ⟨if_neg (Nat.not_lt.mpr within), ?_⟩
  rw [Ne, commitLoop_stops_iff]
  rintro ⟨req, member, halt⟩
  exact (ordinary req (List.mem_of_mem_take member)).2 halt

/-- The commits of an ordinary buffer write its oldest stores. -/
theorem flat_commitStoreRequest {store : StoreBuffer} {numCommit : Nat}
    (ordinary : store.Ordinary) (within : numCommit ≤ store.buffer.length) :
    (store.commitStoreRequest numCommit).1.memory.flat =
      (store.buffer.take numCommit).foldl StoreRequest.write
        store.memory.flat := by
  have all : (store.buffer.take numCommit).takeWhile
      (fun req => req.addr != haltAddr) = store.buffer.take numCommit := by
    rw [List.takeWhile_eq_self_iff]
    intro req member
    simpa using (ordinary req (List.mem_of_mem_take member)).2
  rw [(commitStoreRequest_runs ordinary within).1, flat_commitLoop, all]
  refine List.foldl_ext _ _ _ ?_
  intro memory req member
  rw [StoreRequest.apply,
    if_neg (ordinary req (List.mem_of_mem_take member)).1]
  rfl

/-- The commit of the store that `earlier` stores come before. -/
theorem flat_commit_next {store : StoreBuffer}
    {earlier rest : List StoreRequest} {req : StoreRequest}
    (ordinary : store.Ordinary) (buffer : store.buffer = earlier ++ req :: rest) :
    (store.commitStoreRequest (earlier.length + 1)).1.memory.flat =
      req.write
        (store.commitStoreRequest earlier.length).1.memory.flat := by
  have size : earlier.length + 1 ≤ store.buffer.length := by
    rw [buffer, List.length_append, List.length_cons]
    omega
  have before : store.buffer.take earlier.length = earlier := by
    rw [buffer, List.take_left]
  have through : store.buffer.take (earlier.length + 1) =
      earlier ++ [req] := by
    rw [buffer, List.take_append, List.take_of_length_le (by omega)]
    simp
  rw [flat_commitStoreRequest ordinary size,
    flat_commitStoreRequest ordinary (by omega), before, through,
    List.foldl_append]
  rfl

end StoreBuffer

/-- The phase of a cycle in which the loop goes on. -/
structure SimState.Serves (state : SimState) (ports : CorePorts) : Prop where
  ordinary : state.storeBuffer.Ordinary
  retired : popcount ports.storeRetire ≤ state.storeBuffer.buffer.length
  kept : ports.recover = false

namespace SimState.Serves

variable {state : SimState} {ports : CorePorts}

theorem phase_eq (serves : state.Serves ports) :
    state.phase ports =
      let committed := (StoreBuffer.commitLoop (popcount ports.storeRetire)
        state.storeBuffer).1
      if ports.core2dcache.dataWe then
        ({ state with
            storeBuffer :=
              committed.addStoreRequest ports.core2dcache.request }, none)
      else
        ({ state with
            storeBuffer := (committed.loadData ports.core2dcache.addr).1 },
          some (committed.loadData ports.core2dcache.addr).2) := by
  obtain ⟨same, runs⟩ :=
    StoreBuffer.commitStoreRequest_runs serves.ordinary serves.retired
  unfold SimState.phase
  simp only [same, runs, if_false, serves.kept, Bool.false_eq_true]

theorem loads (serves : state.Serves ports)
    (load : ports.core2dcache.dataWe = false) :
    (state.phase ports).2 =
      some (StoreBuffer.window state.storeBuffer.settled
        ports.core2dcache.addr) := by
  rw [serves.phase_eq]
  simp only [load, Bool.false_eq_true, if_false]
  rw [StoreBuffer.loadData_window,
    StoreBuffer.commitLoop_settled _ _ serves.ordinary]

theorem stores (serves : state.Serves ports)
    (store : ports.core2dcache.dataWe = true) :
    (state.phase ports).1.storeBuffer.buffer =
        state.storeBuffer.buffer.drop (popcount ports.storeRetire) ++
          [ports.core2dcache.request] ∧
      (state.phase ports).1.storeBuffer.settled =
        ports.core2dcache.request.write state.storeBuffer.settled := by
  have runs :=
    (StoreBuffer.commitStoreRequest_runs serves.ordinary serves.retired).2
  rw [serves.phase_eq]
  simp only [store, if_true]
  rw [StoreBuffer.settled_addStoreRequest,
    StoreBuffer.commitLoop_settled _ _ serves.ordinary,
    StoreBuffer.addStoreRequest, StoreBuffer.commitLoop_buffer _ _ runs]
  exact ⟨rfl, rfl⟩

end SimState.Serves

/-! ## The agreement -/

/-- The datapath agrees with the ISA on a load: what the port asks for, the
value on the pipe's output for every store buffer and in every phase of the
simulator, the destination, whether it is written and the source. -/
structure LoadAgrees (entry : FbEntry) (instr : LoadInstr)
    (rs1 rs2 : PrfIndex) (rf : PrfIntData) (rdPorts : RdPorts) (way : Fin 4)
    (pipe : Pipe3) : Prop where
  request : (pipe.execute rf rdPorts way
    (renamedLoad entry instr rs1 rs2)).port.dataWe = false
  value : ∀ store : StoreBuffer,
    let loaded := pipe.execute rf rdPorts way (renamedLoad entry instr rs1 rs2)
    loaded.out (windowData (store.loadData loaded.port.addr).2) true =
      instr.kind.value store.settled
        (effectiveAddress (rf.read rdPorts way rs1) instr.imm)
  served : ∀ (state : SimState) (ports : CorePorts), state.Serves ports →
    let loaded := pipe.execute rf rdPorts way (renamedLoad entry instr rs1 rs2)
    ports.core2dcache = loaded.port →
      ∃ dest, (state.phase ports).2 = some dest ∧
        loaded.out (windowData dest) true =
          instr.kind.value state.storeBuffer.settled
            (effectiveAddress (rf.read rdPorts way rs1) instr.imm)
  presented : (pipe.execute rf rdPorts way
    (renamedLoad entry instr rs1 rs2)).uopOut = renamedLoad entry instr rs1 rs2
  destination : (renamedLoad entry instr rs1 rs2).rdArfIntIndex = instr.rd
  writes : (renamedLoad entry instr rs1 rs2).rdValid = false ↔ instr.rd = 0
  source : (renamedLoad entry instr rs1 rs2).rs1Source = .fromRf ∧
    (renamedLoad entry instr rs1 rs2).rs1ArfIntIndex = instr.rs1

/-- The datapath agrees with the ISA on a store: the phase appends the request
of the port to the store buffer, its commit from any place in the buffer has
the effect of the instruction on memory, no register is written, and the
sources. -/
structure StoreAgrees (entry : FbEntry) (instr : StoreInstr)
    (rs1 rs2 : PrfIndex) (rf : PrfIntData) (rdPorts : RdPorts) (way : Fin 4)
    (pipe : Pipe3) : Prop where
  request : (pipe.execute rf rdPorts way
    (renamedStore entry instr rs1 rs2)).port.dataWe = true
  queued : ∀ (state : SimState) (ports : CorePorts), state.Serves ports →
    let stored :=
      pipe.execute rf rdPorts way (renamedStore entry instr rs1 rs2)
    ports.core2dcache = stored.port →
      (state.phase ports).1.storeBuffer.buffer =
          state.storeBuffer.buffer.drop (popcount ports.storeRetire) ++
            [stored.port.request] ∧
        (state.phase ports).1.storeBuffer.settled =
          instr.kind.apply state.storeBuffer.settled
            (effectiveAddress (rf.read rdPorts way rs1) instr.imm)
            (rf.read rdPorts way rs2)
  committed : ∀ (store : StoreBuffer) (earlier rest : List StoreRequest),
    store.Ordinary →
    store.buffer = earlier ++ (pipe.execute rf rdPorts way
      (renamedStore entry instr rs1 rs2)).port.request :: rest →
      (store.commitStoreRequest (earlier.length + 1)).1.memory.flat =
        instr.kind.apply
          (store.commitStoreRequest earlier.length).1.memory.flat
          (effectiveAddress (rf.read rdPorts way rs1) instr.imm)
          (rf.read rdPorts way rs2)
  presented : (pipe.execute rf rdPorts way
    (renamedStore entry instr rs1 rs2)).uopOut =
      renamedStore entry instr rs1 rs2
  writes : (renamedStore entry instr rs1 rs2).rdValid = false
  source1 : (renamedStore entry instr rs1 rs2).rs1Source = .fromRf ∧
    (renamedStore entry instr rs1 rs2).rs1ArfIntIndex = instr.rs1
  source2 : (renamedStore entry instr rs1 rs2).rs2Source = .fromRf ∧
    (renamedStore entry instr rs1 rs2).rs2ArfIntIndex = instr.rs2

section Agreement

variable (entry : FbEntry) (rs1 rs2 : PrfIndex) (rf : PrfIntData)
  (rdPorts : RdPorts) (way : Fin 4) {pipe : Pipe3}

theorem loadAgrees (run : Pipe3.ValidRun pipe) (instr : LoadInstr) :
    LoadAgrees entry instr rs1 rs2 rf rdPorts way pipe := by
  have executed := execute_load entry rs1 rs2 rf rdPorts way run instr
  have renamed : renamedLoad entry instr rs1 rs2 =
      (decodedLoad entry instr).renameSources rs1 rs2 := by
    rw [renamedLoad, decode_load]
  have out := holding_out
    ((decodedLoad entry instr).renameSources rs1 rs2)
    (rf.read rdPorts way rs1) (instr.imm.signExtend 32) instr.kind rfl rfl
  have quiet : (loadMemType instr.kind == .st) = false := by
    cases instr.kind <;> rfl
  refine ⟨?_, ?_, ?_, ?_, ?_, ?_, ?_⟩
  · rw [executed]
    exact quiet
  · intro store
    rw [executed]
    intro loaded
    rw [StoreBuffer.loadData_window]
    exact out store.settled _
  · intro state ports serves
    rw [executed]
    intro loaded port
    refine ⟨_, serves.loads (by rw [port]; exact quiet), ?_⟩
    rw [port]
    exact out state.storeBuffer.settled _
  · rw [executed, renamed]
    rfl
  · rw [renamed]
    rfl
  · rw [renamed]
    change (instr.rd != 0) = false ↔ _
    simp
  · rw [renamed]
    exact ⟨rfl, rfl⟩

theorem storeAgrees (run : Pipe3.ValidRun pipe) (instr : StoreInstr) :
    StoreAgrees entry instr rs1 rs2 rf rdPorts way pipe := by
  have executed := execute_store entry rs1 rs2 rf rdPorts way run instr
  have renamed : renamedStore entry instr rs1 rs2 =
      (decodedStore entry instr).renameSources rs1 rs2 := by
    rw [renamedStore, decode_store]
  have effect : ∀ memory,
      (Pipe3.holding ((decodedStore entry instr).renameSources rs1 rs2)
        (rf.read rdPorts way rs1)
        (rf.read rdPorts way rs2)).port.request.write memory =
      instr.kind.apply memory
        (effectiveAddress (rf.read rdPorts way rs1) instr.imm)
        (rf.read rdPorts way rs2) := by
    intro memory
    rw [StoreOp.apply, ← take_dataBytes]
    rfl
  refine ⟨?_, ?_, ?_, ?_, ?_, ?_, ?_⟩
  · rw [executed]
    rfl
  · intro state ports serves
    rw [executed]
    intro stored port
    obtain ⟨buffer, settled⟩ := serves.stores (by rw [port]; rfl)
    rw [buffer, settled, port]
    exact ⟨rfl, effect _⟩
  · intro store earlier rest ordinary
    rw [executed]
    intro buffer
    rw [StoreBuffer.flat_commit_next ordinary buffer]
    exact effect _
  · rw [executed, renamed]
    rfl
  · rw [renamed]
    rfl
  · rw [renamed]
    exact ⟨rfl, rfl⟩
  · rw [renamed]
    exact ⟨rfl, rfl⟩

/-- Loads and stores follow RV32I while the data cache answers at once. -/
theorem memoryAgrees (run : Pipe3.ValidRun pipe) :
    (∀ instr, LoadAgrees entry instr rs1 rs2 rf rdPorts way pipe) ∧
      ∀ instr, StoreAgrees entry instr rs1 rs2 rf rdPorts way pipe :=
  ⟨loadAgrees entry rs1 rs2 rf rdPorts way run,
    storeAgrees entry rs1 rs2 rf rdPorts way run⟩

theorem memoryAgrees_after_reset :
    LoadAgrees 0 ⟨.lh, 1, 2, 3⟩ 2 3 (fun _ _ => 0xFFFFFFFF)
        ⟨fun _ => 0, fun _ => 0, fun _ => false⟩ 3 (.next ⟨true, true, false,
          true, 0, Pipe3.idlePort⟩ true false 0 0 0 false) ∧
      StoreAgrees 0 ⟨.sw, 1, 2, 3⟩ 2 3 (fun _ _ => 0xFFFFFFFF)
        ⟨fun _ => 0, fun _ => 0, fun _ => false⟩ 3 (.next ⟨true, true, false,
          true, 0, Pipe3.idlePort⟩ true false 0 0 0 false) := by
  have both := memoryAgrees 0 2 3 (fun _ _ => 0xFFFFFFFF)
    ⟨fun _ => 0, fun _ => 0, fun _ => false⟩ 3
    (.reset ⟨true, true, false, true, 0, Pipe3.idlePort⟩ false 0 0 0 false)
  exact ⟨both.1 _, both.2 _⟩

end Agreement

end Ria
