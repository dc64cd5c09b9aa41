import Ria.Frontend.InstFetch
import Ria.Frontend.MispredictDetectors
import Ria.Frontend.PredictedLane
import Ria.Library.Walk

/-!
# The fetched stream

`inst_fetch`, its branch predictor and the IF~ID register.  The entries that
reach the register between two cycles with `clear` follow the predicted path:
each starts where the entry before it is predicted to go.
-/

namespace Ria

open Hdl

/-- Where fetch goes on after an entry. -/
def FbEntry.nextPc (entry : FbEntry) : Word :=
  if entry.predTaken then entry.predAddr else entry.pc + 4

/-- A list of entries on the predicted path from `first` to `last`. -/
abbrev PredictedPath (first : Word) (entries : List FbEntry) (last : Word) :
    Prop :=
  Walk FbEntry.pc FbEntry.nextPc first entries last

/-- The entries in lanes with their valid bit set. -/
def validInsts (insts : Fin 4 → FbEntry) (valid : Fin 4 → Bool) :
    List FbEntry :=
  ((List.finRange 4).filter valid).map insts

/-! ## The prediction for a group -/

namespace BranchPred

variable (tables : BranchPred) (pc : Word) (isBranch isValid : Fin 4 → Bool)
  (uopRetire : Fin 6 → MicroOp)

theorem train_nextPc
    (quiet : (train tables pc uopRetire).mispredict = false) :
    (train tables pc uopRetire).nextPc = pc + 16 := by
  revert quiet
  unfold train
  refine forLoop_rule
    (fun _ (state : Training) =>
      state.mispredict = false → state.nextPc = pc + 16)
    (fun state => state.mispredict = false → state.nextPc = pc + 16)
    (fun _ => rfl) ?_ (fun _ holds => holds)
  intro i state sofar
  unfold trainLane
  by_cases trains : (uopRetire i).valid = true ∧ (uopRetire i).brType ≠ .x
  · simp only [if_pos trains]
    by_cases redirects :
        (mispredicted (uopRetire i) && !state.mispredict) = true
    · simp only [if_pos redirects]
      exact fun never => Bool.noConfusion never
    · simp only [if_neg redirects]
      exact sofar
  · simp only [if_neg trains]
    exact sofar

theorem comb_predictions
    (quiet : (train tables pc uopRetire).mispredict = false) :
    ((tables.comb pc isBranch isValid uopRetire).predictions =
          (fun _ => false) ∧
        (tables.comb pc isBranch isValid uopRetire).nextPc = pc + 16) ∨
      ∃ lane, (tables.comb pc isBranch isValid uopRetire).predictions =
        Function.update (fun _ => false) lane true := by
  rcases comb_cases tables pc isBranch isValid uopRetire with
    ⟨-, lane, taken⟩ | ⟨-, silent, next⟩
  · exact .inr ⟨lane, taken.alone⟩
  · left
    rw [next, train_nextPc tables pc uopRetire quiet]
    exact ⟨silent, rfl⟩

end BranchPred

/-! ## A group -/

namespace InstFetch

variable (fetch : InstFetch) (input : InstFetchInput) (first : Nat)

/-- The entries of a group that is delivered. -/
def group : List FbEntry :=
  validInsts (fetch.instsOut input first)
    (fun lane => fetch.instsOutValid input &&
      (fetch.instsOut input first lane).valid)

/-- The valid entries of a group are its first lanes, up to the one that is
predicted taken. -/
theorem group_lanes (valid : fetch.instsOutValid input = true)
    (quiet : fetch.mispredict input = false) :
    ∃ count, 0 < count ∧ fetch.group input first =
      (List.ofFn (fetch.instsOut input first)).take count := by
  have lanes : List.finRange 4 = [0, 1, 2, 3] := rfl
  rcases BranchPred.comb_predictions fetch.brPred fetch.pc
      (fetch.isBranch input) input.isValid input.uopRetire quiet with
    ⟨none, -⟩ | ⟨lane, taken⟩
  · have untaken : (fetch.prediction input).predictions =
        fun _ => false := none
    refine ⟨4, by omega, ?_⟩
    simp [group, validInsts, lanes, instsOut, laneValid, valid, untaken]
  · have one : (fetch.prediction input).predictions =
        Function.update (fun _ => false) lane true := taken
    refine ⟨lane.val + 1, by omega, ?_⟩
    match lane with
    | 0 | 1 | 2 | 3 =>
        simp [group, validInsts, lanes, instsOut, laneValid, valid, one,
          Function.update]

theorem group_path (valid : fetch.instsOutValid input = true)
    (quiet : fetch.mispredict input = false) :
    PredictedPath fetch.pc (fetch.group input first)
      (fetch.prediction input).nextPc := by
  have lanes : List.finRange 4 = [0, 1, 2, 3] := rfl
  rcases BranchPred.comb_predictions fetch.brPred fetch.pc
      (fetch.isBranch input) input.isValid input.uopRetire quiet with
    ⟨none, sequential⟩ | ⟨lane, taken⟩
  · have untaken : (fetch.prediction input).predictions =
        fun _ => false := none
    have next : (fetch.prediction input).nextPc = fetch.pc + 16 := sequential
    simp [group, validInsts, lanes, instsOut, laneValid, valid, untaken,
      Walk, FbEntry.nextPc, next, BitVec.add_assoc]
  · have one : (fetch.prediction input).predictions =
        Function.update (fun _ => false) lane true := taken
    match lane with
    | 0 | 1 =>
        simp [group, validInsts, lanes, instsOut, laneValid, valid, one,
          Walk, FbEntry.nextPc, Function.update]
    | 2 | 3 =>
        simp [group, validInsts, lanes, instsOut, laneValid, valid, one,
          Walk, FbEntry.nextPc, Function.update, BitVec.add_assoc]

end InstFetch

/-! ## The system -/

/-- `stall` is `rr_full`. -/
structure StreamInput where
  clear : Bool
  fetch : InstFetchInput

/-- `inst_fetch` and the IF~ID register, with the valid entries that have
reached the register since the last reset or clear. -/
structure StreamSystem where
  if0 : InstFetch
  idInstsIn : Fin 4 → FbEntry
  idInstsInValid : Fin 4 → Bool
  cycles : Nat
  stream : List FbEntry

namespace StreamSystem

/-- Any predictor and any pc, before an entry has reached the register. -/
def start (system : StreamSystem) : Prop :=
  (∀ lane, system.idInstsInValid lane = false) ∧ system.stream = []

/-- A redirected fetch is accompanied by a clear. -/
def Allowed (system : StreamSystem) (input : StreamInput) : Prop :=
  system.if0.mispredict input.fetch = true → input.clear = true

instance decidableAllowed (system : StreamSystem) (input : StreamInput) :
    Decidable (Allowed system input) :=
  inferInstanceAs (Decidable (_ → _))

section Cycle

variable (system : StreamSystem) (input : StreamInput)

/-- `if_insts_out` -/
def instsOut : Fin 4 → FbEntry :=
  system.if0.instsOut input.fetch (4 * system.cycles)

/-- `reset | clear | rr_full` -/
def hold : Bool := input.fetch.reset || input.clear || input.fetch.stall

/-- `id_insts_in_valid` after the cycle. -/
def idValidNext : Fin 4 → Bool :=
  if hold input then fun _ => false
  else fun lane => system.if0.instsOutValid input.fetch &&
    (system.instsOut input lane).valid

/-- `id_insts_in` after the cycle. -/
def idInstsNext : Fin 4 → FbEntry :=
  if hold input then fun _ => 0 else system.instsOut input

/-- The valid entries that reach the register in the cycle. -/
def arriving : List FbEntry :=
  validInsts (system.idInstsNext input) (system.idValidNext input)

def next : StreamSystem :=
  { if0 := system.if0.next input.fetch
    idInstsIn := system.idInstsNext input
    idInstsInValid := system.idValidNext input
    cycles := system.cycles + 1
    stream :=
      if input.fetch.reset || input.clear then []
      else system.stream ++ system.arriving input }

/-- A cycle without reset and clear either delivers a group, which is the
first lanes at the pc, leads to the next pc and extends the stream, or leaves
the pc and the stream alone. -/
structure Delivers : Prop where
  taken : input.fetch.stall = false → input.fetch.icacheDataValid = true →
    (∃ count, 0 < count ∧ system.arriving input =
      (List.ofFn (system.instsOut input)).take count) ∧
    PredictedPath system.if0.pc (system.arriving input)
      (system.next input).if0.pc ∧
    (system.next input).stream = system.stream ++ system.arriving input
  held : input.fetch.stall = true ∨ input.fetch.icacheDataValid = false →
    (∀ lane, (system.next input).idInstsInValid lane = false) ∧
    (system.next input).if0.pc = system.if0.pc ∧
    (system.next input).stream = system.stream

end Cycle

section Steps

variable {system : StreamSystem} {input : StreamInput}

theorem arriving_of_silent
    (silent : system.idValidNext input = fun _ => false) :
    system.arriving input = [] := by
  rw [arriving, silent, validInsts]
  simp

theorem delivers (allowed : Allowed system input)
    (reset : input.fetch.reset = false) (clear : input.clear = false) :
    system.Delivers input := by
  have quiet : system.if0.mispredict input.fetch = false := by
    rw [← Bool.not_eq_true]
    intro redirects
    rw [allowed redirects] at clear
    cases clear
  have valid : system.if0.instsOutValid input.fetch =
      (!input.fetch.stall && input.fetch.icacheDataValid) := by
    simp [InstFetch.instsOutValid, InstFetch.pcEnable, reset, quiet]
  have pc : (system.next input).if0.pc =
      if system.if0.instsOutValid input.fetch then
        (system.if0.prediction input.fetch).nextPc
      else system.if0.pc := by
    simp [next, InstFetch.next, reset]
  constructor
  · intro ready data
    have delivered : system.if0.instsOutValid input.fetch = true := by
      rw [valid, ready, data]
      rfl
    have arrives : system.arriving input =
        system.if0.group input.fetch (4 * system.cycles) := by
      simp [arriving, InstFetch.group, idInstsNext, idValidNext, hold, reset,
        clear, ready, instsOut]
    rw [arrives, pc, if_pos delivered]
    refine ⟨?_, ?_, ?_⟩
    · exact system.if0.group_lanes input.fetch _ delivered quiet
    · exact system.if0.group_path input.fetch _ delivered quiet
    · simp [next, reset, clear, arrives]
  · intro waits
    have nothing : system.if0.instsOutValid input.fetch = false := by
      rw [valid]
      rcases waits with stall | data
      · rw [stall]
        rfl
      · rw [data, Bool.and_false]
    have silent : system.idValidNext input = fun _ => false := by
      unfold idValidNext
      split
      · rfl
      · funext lane
        rw [nothing]
        rfl
    rw [pc, nothing]
    refine ⟨fun lane => ?_, rfl, ?_⟩
    · exact congrFun silent lane
    · simp [next, reset, clear, arriving_of_silent silent]

/-- What arrives in a cycle leads from its pc to the next one. -/
theorem arriving_path (allowed : Allowed system input)
    (reset : input.fetch.reset = false) (clear : input.clear = false) :
    PredictedPath system.if0.pc (system.arriving input)
      (system.next input).if0.pc := by
  have cycle := delivers allowed reset clear
  by_cases ready : input.fetch.stall = false ∧
      input.fetch.icacheDataValid = true
  · exact (cycle.taken ready.1 ready.2).2.1
  · have waits : input.fetch.stall = true ∨
        input.fetch.icacheDataValid = false := by
      revert ready
      cases input.fetch.stall <;>
        cases input.fetch.icacheDataValid <;> simp
    rcases cycle.held waits with ⟨silent, pc, -⟩
    rw [arriving_of_silent (funext silent), pc]
    rfl

/-- The stream is a predicted path that ends at the pc. -/
def OnPath (system : StreamSystem) : Prop :=
  ∃ first, PredictedPath first system.stream system.if0.pc

theorem OnPath.next (onPath : system.OnPath)
    (allowed : Allowed system input) : (system.next input).OnPath := by
  by_cases flush : (input.fetch.reset || input.clear) = true
  · refine ⟨(system.next input).if0.pc, ?_⟩
    have empty : (system.next input).stream = [] := if_pos flush
    rw [empty]
    rfl
  · have running : input.fetch.reset = false ∧ input.clear = false := by
      simpa using flush
    rcases onPath with ⟨first, path⟩
    have stream : (system.next input).stream =
        system.stream ++ system.arriving input := if_neg flush
    refine ⟨first, ?_⟩
    rw [stream]
    exact path.append (arriving_path allowed running.1 running.2)

end Steps

/-- In every run the stream is on the predicted path without gaps or repeats,
fetch goes on where its last entry leads, and each cycle delivers one whole
group or nothing. -/
theorem stream_on_predicted_path {system : StreamSystem}
    (run : Run start next Allowed system) :
    system.stream.IsChain (fun one other => other.pc =
        if one.predTaken then one.predAddr else one.pc + 4) ∧
      (∀ entry ∈ system.stream.getLast?, system.if0.pc =
        if entry.predTaken then entry.predAddr else entry.pc + 4) ∧
      ∀ input, Allowed system input → input.fetch.reset = false →
        input.clear = false → system.Delivers input := by
  have onPath : system.OnPath := by
    refine run.invariant OnPath ?_ ?_
    · rintro state ⟨-, empty⟩
      refine ⟨state.if0.pc, ?_⟩
      rw [empty]
      rfl
    · intro state input onPath allowed
      exact onPath.next allowed
  obtain ⟨first, path⟩ := onPath
  refine ⟨path.isChain, ?_, ?_⟩
  · intro entry last
    exact (path.target_getLast entry last).symm
  · intro input allowed reset clear
    exact delivers allowed reset clear

/-- The loop `nop; nop; jal x0, -8` at 0x1000, with `rr_full` and
`icache2core_data_valid`. -/
def fetchLoop (stall dataValid : Bool) : StreamInput :=
  { clear := false
    fetch :=
      { reset := false, stall := stall, isValid := fun _ => true
        uopRetire := fun _ => 0
        icacheData := 0x00000013ff9ff06f0000001300000013
        icacheDataValid := dataValid } }

/-- The cycle in which the `jal` retires for the first time. -/
def redirectLoop : StreamInput :=
  let jal : MicroOp :=
    { (0 : MicroOp) with
      pc := 0x1008, brType := .jal, brTaken := true, brAddr := 0x1000
      valid := true }
  { clear := true
    fetch :=
      { (fetchLoop false true).fetch with
        uopRetire := fun i => if i = 0 then jal else 0 } }

/-- The loop is fetched twice after the redirect, with a stall and a cache
miss between. -/
def loopCycles : List StreamInput :=
  [fetchLoop false true, redirectLoop, fetchLoop false true,
    fetchLoop true true, fetchLoop false false, fetchLoop false true]

theorem stream_on_predicted_path_loop :
    let system := loopCycles.foldl next
      { if0 := .resetState, idInstsIn := fun _ => 0
        idInstsInValid := fun _ => false, cycles := 0, stream := [] }
    system.stream.map FbEntry.pc =
        [0x1000, 0x1004, 0x1008, 0x1000, 0x1004, 0x1008] ∧
      system.stream.IsChain (fun one other => other.pc =
        if one.predTaken then one.predAddr else one.pc + 4) := by
  intro system
  have run : Run start next Allowed system :=
    (Run.start ⟨fun _ => rfl, rfl⟩).through (by decide +kernel)
  exact ⟨by decide +kernel, (stream_on_predicted_path run).1⟩

end StreamSystem

end Ria
