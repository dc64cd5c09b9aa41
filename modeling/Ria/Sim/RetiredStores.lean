import Ria.Library.Loop
import Ria.Sim.MainLoop
import Ria.Sim.StoreCommit

/-!
# Memory holds exactly the retired stores

`StoreHistory` numbers the stores that the core presents and records what
became of each.  The core reports the retirement of the oldest pending stores
and, with `recover`, squashes those that are then still pending.  Along every
run the buffer is the list of pending stores, and memory is the initial one
overwritten by the retired stores in their order.
-/

namespace Ria

open ByteMemory Hdl

/-- A store with its number in the order of presentation. -/
abbrev NumberedStore := Nat × StoreRequest

/-- The fate of the stores presented so far. -/
structure StoreHistory where
  count : Nat
  retired : List NumberedStore
  pending : List NumberedStore
  squashed : List NumberedStore

namespace StoreHistory

def empty : StoreHistory :=
  { count := 0, retired := [], pending := [], squashed := [] }

/-- The store on the data port, if there is one, with the next number. -/
def presented (history : StoreHistory) (ports : CorePorts) :
    List NumberedStore :=
  if ports.core2dcache.dataWe then
    [(history.count, ports.core2dcache.request)]
  else []

/-- The pending stores that a phase does not retire. -/
def left (history : StoreHistory) (ports : CorePorts) : List NumberedStore :=
  history.pending.drop (popcount ports.storeRetire)

def phase (history : StoreHistory) (ports : CorePorts) : StoreHistory :=
  { count := history.count + (history.presented ports).length
    retired := history.retired ++
      history.pending.take (popcount ports.storeRetire)
    pending := (if ports.recover then [] else history.left ports) ++
      history.presented ports
    squashed := history.squashed ++
      (if ports.recover then history.left ports else []) }

/-- The retired stores that the loop commits: those before a halting one. -/
def committed (history : StoreHistory) : List StoreRequest :=
  (history.retired.map Prod.snd).takeWhile (fun req => req.addr != haltAddr)

end StoreHistory

/-! ## One phase -/

section Phase

variable (state : SimState) (ports : CorePorts)

theorem phase_cases
    (enough : popcount ports.storeRetire ≤ state.storeBuffer.buffer.length) :
    let requests :=
      state.storeBuffer.buffer.take (popcount ports.storeRetire)
    (state.phase ports).1.storeBuffer.memory.flat =
        (requests.takeWhile (fun req => req.addr != haltAddr)).foldl
          StoreRequest.apply state.storeBuffer.memory.flat ∧
      (((∃ req ∈ requests, req.addr = haltAddr) ∧
          (state.phase ports).1.stopped = true) ∨
        ((¬ ∃ req ∈ requests, req.addr = haltAddr) ∧
          (state.phase ports).1.stopped = state.stopped ∧
          (state.phase ports).1.storeBuffer.buffer =
            (if ports.recover then []
              else state.storeBuffer.buffer.drop
                (popcount ports.storeRetire)) ++
            (if ports.core2dcache.dataWe then [ports.core2dcache.request]
              else []))) := by
  intro requests
  have within : ¬ state.storeBuffer.overCommits
      (popcount ports.storeRetire) := Nat.not_lt.mpr enough
  have memory := state.storeBuffer.flat_commitLoop (popcount ports.storeRetire)
  have stops := state.storeBuffer.commitLoop_stops_iff
    (popcount ports.storeRetire)
  unfold SimState.phase
  rw [StoreBuffer.commitStoreRequest, if_neg within]
  by_cases stop :
      (StoreBuffer.commitLoop (popcount ports.storeRetire)
        state.storeBuffer).2 = -1
  · simp only [stop, if_true]
    exact ⟨memory, .inl ⟨stops.mp stop, trivial⟩⟩
  · have buffer := state.storeBuffer.commitLoop_buffer _ stop
    simp only [stop, if_false]
    refine ⟨?_, .inr ⟨fun halt => stop (stops.mpr halt), ?_, ?_⟩⟩
    · rw [← memory]
      cases ports.recover <;> cases ports.core2dcache.dataWe <;>
        simp [StoreBuffer.flushStoreBuffer, StoreBuffer.addStoreRequest,
          StoreBuffer.flat_loadData]
    · cases ports.core2dcache.dataWe <;> rfl
    · cases ports.recover <;> cases ports.core2dcache.dataWe <;>
        simp [StoreBuffer.flushStoreBuffer, StoreBuffer.addStoreRequest,
          StoreBuffer.loadData, buffer]

end Phase

/-! ## The history -/

namespace StoreHistory

/-- Every store presented is retired, squashed or pending, each exactly once,
and those retired and pending are in the order of presentation. -/
structure Ordered (history : StoreHistory) : Prop where
  inOrder : ((history.retired ++ history.pending).map Prod.fst).Pairwise
    (· < ·)
  once : ((history.retired ++ history.squashed ++ history.pending).map
    Prod.fst).Perm (List.range history.count)

theorem Ordered.bounded {history : StoreHistory} (ordered : history.Ordered)
    {number : Nat}
    (member : number ∈ (history.retired ++ history.pending).map Prod.fst) :
    number < history.count := by
  have listed : number ∈ (history.retired ++ history.squashed ++
      history.pending).map Prod.fst := by
    simp only [List.map_append, List.mem_append] at member ⊢
    rcases member with retired | pending
    · exact .inl (.inl retired)
    · exact .inr pending
  exact List.mem_range.mp (ordered.once.mem_iff.mp listed)

theorem presented_map_fst (history : StoreHistory) (ports : CorePorts) :
    (history.presented ports).map Prod.fst =
      List.range' history.count (history.presented ports).length := by
  unfold presented
  cases ports.core2dcache.dataWe <;> rfl

theorem Ordered.phase {history : StoreHistory} (ordered : history.Ordered)
    (ports : CorePorts) : (history.phase ports).Ordered := by
  have parts : history.pending =
      history.pending.take (popcount ports.storeRetire) ++
        history.left ports := (List.take_append_drop _ _).symm
  have numbers := history.presented_map_fst ports
  constructor
  · have extended : ((history.retired ++ history.pending ++
        history.presented ports).map Prod.fst).Pairwise (· < ·) := by
      rw [List.map_append, numbers]
      refine List.pairwise_append.mpr
        ⟨ordered.inOrder, List.pairwise_lt_range', ?_⟩
      intro old member new fresh
      have below := ordered.bounded member
      have above := (List.mem_range'_1.mp fresh).1
      omega
    refine extended.sublist (List.Sublist.map _ ?_)
    rw [parts]
    simp only [StoreHistory.phase, List.append_assoc]
    cases ports.recover <;> simp
  · have all : ((history.phase ports).retired ++
        (history.phase ports).squashed ++
        (history.phase ports).pending).Perm
        ((history.retired ++ history.squashed ++ history.pending) ++
          history.presented ports) := by
      rw [parts]
      simp only [StoreHistory.phase, List.append_assoc]
      refine List.Perm.append_left _ ?_
      cases ports.recover <;>
        simpa using List.perm_append_comm_assoc _ _ _
    have counted : List.range (history.phase ports).count =
        List.range history.count ++
          List.range' history.count (history.presented ports).length := by
      simp only [StoreHistory.phase, List.range_eq_range',
        ← List.range'_append_1, Nat.zero_add]
    rw [counted, ← numbers]
    refine (all.map Prod.fst).trans ?_
    rw [List.map_append]
    exact ordered.once.append_right _

theorem committed_phase {history : StoreHistory} (ports : CorePorts)
    (none : ¬ ∃ store ∈ history.retired, store.2.addr = haltAddr) :
    (history.phase ports).committed =
      history.committed ++
        ((history.pending.take (popcount ports.storeRetire)).map
          Prod.snd).takeWhile (fun req => req.addr != haltAddr) := by
  have noHalt : ∀ req ∈ history.retired.map Prod.snd,
      (req.addr != haltAddr) = true := by
    intro req member
    obtain ⟨store, retired, rfl⟩ := List.mem_map.mp member
    simpa using fun halted => none ⟨store, retired, halted⟩
  have all : history.committed = history.retired.map Prod.snd :=
    List.takeWhile_eq_self_iff.mpr noHalt
  rw [all, StoreHistory.committed, StoreHistory.phase, List.map_append,
    List.takeWhile_append_of_pos noHalt]

theorem halted_phase {history : StoreHistory} (ports : CorePorts)
    (none : ¬ ∃ store ∈ history.retired, store.2.addr = haltAddr) :
    (∃ store ∈ (history.phase ports).retired, store.2.addr = haltAddr) ↔
      ∃ req ∈ (history.pending.take (popcount ports.storeRetire)).map
        Prod.snd, req.addr = haltAddr := by
  constructor
  · rintro ⟨store, member, halted⟩
    rcases List.mem_append.mp member with old | new
    · exact absurd ⟨store, old, halted⟩ none
    · exact ⟨store.2, List.mem_map_of_mem new, halted⟩
  · rintro ⟨req, member, halted⟩
    obtain ⟨store, new, rfl⟩ := List.mem_map.mp member
    exact ⟨store, List.mem_append_right _ new, halted⟩

end StoreHistory

/-! ## Runs -/

/-- The initial states: an empty buffer over the memory `memory`. -/
def startsWith (memory : BucketMemory) (state : SimState × StoreHistory) :
    Prop :=
  state = (⟨⟨memory, [], []⟩, false⟩, .empty)

/-- The loop is still running and the core reports only the retirement of
stores presented before. -/
def phaseAllowed (state : SimState × StoreHistory) (ports : CorePorts) :
    Prop :=
  state.1.stopped = false ∧
    popcount ports.storeRetire ≤ state.2.pending.length

def phaseNext (state : SimState × StoreHistory) (ports : CorePorts) :
    SimState × StoreHistory :=
  ((state.1.phase ports).1, state.2.phase ports)

/-- The store buffer and memory agree with the fate of the stores. -/
structure StoresKept (initial : Memory 32)
    (state : SimState × StoreHistory) : Prop where
  /-- Memory holds the committed stores and nothing else. -/
  memory : state.1.storeBuffer.memory.flat =
    state.2.committed.foldl StoreRequest.apply initial
  buffer : state.1.stopped = false →
    state.1.storeBuffer.buffer = state.2.pending.map Prod.snd
  /-- The loop is left at the store that halts, and only there. -/
  stops : state.1.stopped = true ↔
    ∃ store ∈ state.2.retired, store.2.addr = haltAddr
  ordered : state.2.Ordered

theorem StoresKept.phase {initial : Memory 32}
    {state : SimState × StoreHistory} (kept : StoresKept initial state)
    {ports : CorePorts} (allowed : phaseAllowed state ports) :
    StoresKept initial (phaseNext state ports) := by
  obtain ⟨running, reported⟩ := allowed
  have buffer := kept.buffer running
  have enough : popcount ports.storeRetire ≤
      state.1.storeBuffer.buffer.length := by
    rw [buffer, List.length_map]
    exact reported
  have taken : state.1.storeBuffer.buffer.take (popcount ports.storeRetire) =
      (state.2.pending.take (popcount ports.storeRetire)).map Prod.snd := by
    rw [buffer, List.map_take]
  have noneYet : ¬ ∃ store ∈ state.2.retired, store.2.addr = haltAddr := by
    intro halted
    rw [kept.stops.mpr halted] at running
    cases running
  obtain ⟨memory, outcome⟩ := phase_cases state.1 ports enough
  rw [taken] at memory outcome
  constructor
  · change (state.1.phase ports).1.storeBuffer.memory.flat =
      (state.2.phase ports).committed.foldl StoreRequest.apply initial
    rw [StoreHistory.committed_phase ports noneYet, List.foldl_append,
      ← kept.memory]
    exact memory
  · intro continues
    rcases outcome with ⟨-, stopped⟩ | ⟨-, -, requests⟩
    · rw [phaseNext, stopped] at continues
      cases continues
    · rw [phaseNext, requests, buffer]
      simp only [StoreHistory.phase, StoreHistory.left,
        StoreHistory.presented]
      cases ports.recover <;> cases ports.core2dcache.dataWe <;>
        simp [List.map_drop]
  · rw [phaseNext, StoreHistory.halted_phase ports noneYet]
    rcases outcome with ⟨halts, stopped⟩ | ⟨runs, continues, -⟩
    · exact iff_of_true stopped halts
    · rw [continues, running]
      simpa using runs
  · exact kept.ordered.phase ports

/-- In every run, memory is the initial memory overwritten by the retired
stores, the buffer holds the pending ones, and no commit asks for more stores
than the buffer holds. -/
theorem memory_holds_retired_stores (memory : BucketMemory)
    (state : SimState × StoreHistory)
    (run : Run (startsWith memory) phaseNext phaseAllowed state) :
    StoresKept memory.flat state ∧
      ∀ ports, phaseAllowed state ports →
        ¬ state.1.storeBuffer.overCommits (popcount ports.storeRetire) := by
  have kept : StoresKept memory.flat state := by
    apply run.invariant (StoresKept memory.flat)
    · rintro state rfl
      refine ⟨rfl, fun _ => rfl, ?_, ?_⟩
      · simp [StoreHistory.empty]
      · exact ⟨List.Pairwise.nil, List.Perm.nil⟩
    · exact fun state ports kept allowed => kept.phase allowed
  refine ⟨kept, ?_⟩
  rintro ports ⟨running, reported⟩
  rw [StoreBuffer.overCommits, kept.buffer running, List.length_map]
  omega

instance decidablePhaseAllowed (state : SimState × StoreHistory)
    (ports : CorePorts) : Decidable (phaseAllowed state ports) :=
  inferInstanceAs (Decidable (_ ∧ _))

/-- A phase that presents a store. -/
def presenting (addr : SimAddr) (data : BitVec 64) (size : MemSize) :
    CorePorts :=
  ⟨fun _ => false, false, ⟨addr, data, true, size⟩⟩

/-- A word, a byte and a half word to overlapping places; the first two
retire, the third is squashed. -/
def overlapping : List CorePorts :=
  [presenting 64 0x04030201 .word, presenting 65 0xaa .byte,
    presenting 64 0xbbcc .half,
    ⟨fun lane => decide (lane < 2), true, ⟨0, 0, false, .byte⟩⟩]

theorem memory_holds_overlapping_stores :
    let state := overlapping.foldl phaseNext
      (⟨⟨fun _ => none, [], []⟩, false⟩, .empty)
    state.2.squashed.map Prod.fst = [2] ∧
      StoresKept (BucketMemory.flat fun _ => none) state ∧
      [64, 65, 66, 67].map state.1.storeBuffer.memory.flat =
        [1, 0xaa, 3, 4] := by
  intro state
  have reset : Run (startsWith fun _ => none) phaseNext phaseAllowed
      (⟨⟨fun _ => none, [], []⟩, false⟩, .empty) := .start rfl
  have run : Run (startsWith fun _ => none) phaseNext phaseAllowed state :=
    reset.through (by decide +kernel)
  have kept := (memory_holds_retired_stores _ _ run).1
  refine ⟨by decide +kernel, kept, ?_⟩
  rw [kept.memory]
  decide +kernel

end Ria
