import Mathlib.Algebra.Group.Nat.Defs
import Mathlib.Data.List.FinRange

/-!
# Bounded loops and guarded runs

Hardware description languages unroll `for` loops whose body may `break`.
`forLoop` gives such a loop its meaning over an explicit loop state, and
`forLoop_rule` is its invariant rule.  `forEach` is the loop without `break`;
over the lanes of a bundle it is a fold over the list of lanes.

`Run` collects the states a clocked system reaches when every cycle's input
is one that the environment may give in the state before it.
-/

namespace Hdl

universe u v

/-- What one iteration of a loop body decides. -/
inductive Flow (σ : Type u) where
  | step (state : σ)
  | stop (state : σ)

/-- The state an iteration leaves, whether or not it stops the loop. -/
def Flow.reached {σ : Type u} : Flow σ → σ
  | .step state => state
  | .stop state => state

/-- Run the body over the given indices until it stops. -/
def iterate {ι : Type v} {σ : Type u} (body : ι → σ → Flow σ) :
    List ι → σ → σ
  | [], state => state
  | index :: rest, state =>
      match body index state with
      | .step next => iterate body rest next
      | .stop last => last

/-- `for (int i = 0; i < bound; ++i)`, with `Flow.stop` for `break`. -/
def forLoop {σ : Type u} (bound : Nat) (body : Fin bound → σ → Flow σ)
    (state : σ) : σ :=
  iterate body (List.finRange bound) state

/-- `for (int i = 0; i < bound; ++i)` whose body never breaks. -/
def forEach {σ : Type u} (bound : Nat) (body : Fin bound → σ → σ)
    (state : σ) : σ :=
  (List.finRange bound).foldl (fun current index => body index current) state

section Rules

variable {σ : Type u} {bound : Nat}

private theorem iterate_rule {body : Fin bound → σ → Flow σ}
    {invariant : Nat → σ → Prop} {post : σ → Prop}
    (advance : ∀ index state, invariant index.val state →
      match body index state with
      | .step next => invariant (index.val + 1) next
      | .stop last => post last)
    (exit : ∀ state, invariant bound state → post state)
    (count : Nat) (indices : List (Fin bound))
    (suffix : indices.map Fin.val = List.range' count (bound - count))
    (within : count ≤ bound) {state : σ} (holds : invariant count state) :
    post (iterate body indices state) := by
  induction indices generalizing count state with
  | nil =>
      have finished : bound - count = 0 := by
        simpa using (congrArg List.length suffix).symm
      have exact : count = bound := by omega
      subst exact
      exact exit state holds
  | cons index rest induction =>
      have remaining : bound - count = (bound - (count + 1)) + 1 := by
        have := congrArg List.length suffix
        simp at this
        omega
      rw [remaining, List.range'_succ, List.map_cons] at suffix
      obtain ⟨here, later⟩ := List.cons.inj suffix
      subst here
      have progress := advance index state holds
      unfold iterate
      cases result : body index state with
      | step next =>
          rw [result] at progress
          exact induction (index.val + 1) later (by omega) progress
      | stop last =>
          rw [result] at progress
          exact progress

private theorem finRange_map_val (bound : Nat) :
    (List.finRange bound).map Fin.val = List.range' 0 (bound - 0) := by
  apply List.ext_getElem <;> simp

/-- The invariant rule of a bounded loop with `break`: `invariant i` holds
before iteration `i`, a completed iteration re-establishes it, and both ways
of leaving the loop give `post`. -/
theorem forLoop_rule {body : Fin bound → σ → Flow σ}
    (invariant : Nat → σ → Prop) (post : σ → Prop) {state : σ}
    (start : invariant 0 state)
    (advance : ∀ index state, invariant index.val state →
      match body index state with
      | .step next => invariant (index.val + 1) next
      | .stop last => post last)
    (exit : ∀ state, invariant bound state → post state) :
    post (forLoop bound body state) :=
  iterate_rule advance exit 0 (List.finRange bound) (finRange_map_val bound)
    (Nat.zero_le bound) start

private theorem iterate_idle {body : Fin bound → σ → Flow σ}
    (indices : List (Fin bound)) (state : σ)
    (idle : ∀ index ∈ indices, ∀ state, body index state = .step state) :
    iterate body indices state = state := by
  induction indices with
  | nil => rfl
  | cons index rest induction =>
      rw [iterate, idle index List.mem_cons_self]
      exact induction fun later member =>
        idle later (List.mem_cons_of_mem index member)

theorem forLoop_first {body : Fin (bound + 1) → σ → Flow σ} (state : σ)
    (idle : ∀ index, index ≠ 0 → ∀ state, body index state = .step state) :
    forLoop (bound + 1) body state = (body 0 state).reached := by
  rw [forLoop, List.finRange_succ, iterate]
  cases body 0 state with
  | step next =>
      apply iterate_idle
      intro index member
      obtain ⟨before, _, rfl⟩ := List.mem_map.mp member
      exact idle _ (Fin.succ_ne_zero before)
  | stop last => rfl

/-- The invariant rule of a bounded loop without `break`. -/
theorem forEach_rule {body : Fin bound → σ → σ}
    (invariant : Nat → σ → Prop) {state : σ}
    (start : invariant 0 state)
    (advance : ∀ index state, invariant index.val state →
      invariant (index.val + 1) (body index state)) :
    invariant bound (forEach bound body state) := by
  have asLoop : ∀ (indices : List (Fin bound)) (state : σ),
      iterate (fun index state => .step (body index state)) indices state =
        indices.foldl (fun current index => body index current) state := by
    intro indices
    induction indices with
    | nil => intro state; rfl
    | cons index rest induction =>
        intro state
        exact induction (body index state)
  rw [forEach, ← asLoop]
  have looped : invariant bound
      (forLoop bound (fun index state => .step (body index state)) state) := by
    apply forLoop_rule invariant (invariant bound) start
    · exact advance
    · exact fun _ holds => holds
  exact looped

theorem forEach_idle {body : Fin bound → σ → σ} (state : σ)
    (idle : ∀ index state, body index state = state) :
    forEach bound body state = state := by
  refine forEach_rule (fun _ current => current = state) rfl ?_
  intro index current same
  rw [idle, same]

theorem forEach_single {body : Fin bound → σ → σ} (state : σ)
    (only : Fin bound)
    (idle : ∀ index ≠ only, ∀ state, body index state = state) :
    forEach bound body state = body only state := by
  have reached : forEach bound body state =
      if only.val < bound then body only state else state := by
    refine forEach_rule
      (fun count current =>
        current = if only.val < count then body only state else state)
      (if_neg (Nat.not_lt_zero _)).symm ?_
    intro index current sofar
    by_cases here : index = only
    · subst here
      rw [if_neg (Nat.lt_irrefl _)] at sofar
      rw [sofar, if_pos (Nat.lt_succ_self _)]
    · have unequal : index.val ≠ only.val := fun equal => here (Fin.ext equal)
      rw [idle index here, sofar]
      by_cases earlier : only.val < index.val
      · rw [if_pos earlier, if_pos (by omega)]
      · rw [if_neg earlier, if_neg (by omega)]
  exact reached.trans (if_pos only.isLt)

/-- A map of the state that the body respects, carried through the loop. -/
theorem forEach_map {τ : Type v} (project : σ → τ) {body : Fin bound → σ → σ}
    {image : Fin bound → τ → τ} (state : σ)
    (respects : ∀ index state,
      project (body index state) = image index (project state)) :
    project (forEach bound body state) =
      forEach bound image (project state) :=
  (List.foldl_hom project fun current index =>
    (respects index current).symm).symm

/-- The value that the last acting iteration leaves. -/
theorem forEach_last {body : Fin bound → σ → σ} (state : σ)
    {last : Fin bound} {value : σ}
    (sets : ∀ state, body last state = value)
    (idle : ∀ index, last < index → ∀ state, body index state = state) :
    forEach bound body state = value := by
  have reached : last.val < bound → forEach bound body state = value := by
    refine forEach_rule
      (fun count current => last.val < count → current = value)
      (fun below => absurd below (Nat.not_lt_zero _)) ?_
    intro index current sofar below
    rcases Nat.lt_succ_iff_lt_or_eq.mp below with before | equal
    · rw [idle index before, sofar before]
    · rw [← Fin.ext equal]
      exact sets current
  exact reached last.isLt

section Cell

variable {α : Type v} {body : Fin bound → σ → σ} (read : σ → α)
  (acts : Fin bound → Prop)

theorem forEach_frame (state : σ)
    (miss : ∀ index state, read (body index state) = read state) :
    read (forEach bound body state) = read state := by
  refine forEach_rule (fun _ current => read current = read state) rfl ?_
  intro index current same
  rw [miss, same]

/-- A part of the state that the iterations that act set: it has the value of
one of them, or its old value when none acts. -/
theorem forEach_written [DecidablePred acts] {value : Fin bound → α}
    (state : σ)
    (hit : ∀ index, acts index → ∀ state,
      read (body index state) = value index)
    (miss : ∀ index, ¬ acts index → ∀ state,
      read (body index state) = read state) :
    (∃ index, acts index ∧ read (forEach bound body state) = value index) ∨
      ((∀ index, ¬ acts index) ∧
        read (forEach bound body state) = read state) := by
  have reached :
      (∃ index, acts index ∧ read (forEach bound body state) = value index) ∨
        ((∀ index : Fin bound, index.val < bound → ¬ acts index) ∧
          read (forEach bound body state) = read state) := by
    refine forEach_rule
      (fun count current =>
        (∃ index, acts index ∧ read current = value index) ∨
          ((∀ index : Fin bound, index.val < count → ¬ acts index) ∧
            read current = read state))
      (.inr ⟨fun _ below => absurd below (Nat.not_lt_zero _), rfl⟩) ?_
    intro step current sofar
    by_cases acting : acts step
    · exact .inl ⟨step, acting, hit step acting current⟩
    · rw [miss step acting]
      refine sofar.imp_right ?_
      rintro ⟨never, same⟩
      refine ⟨fun index below => ?_, same⟩
      rcases Nat.lt_succ_iff_lt_or_eq.mp below with before | equal
      · exact never index before
      · rw [Fin.ext equal]
        exact acting
  exact reached.imp_right fun idle =>
    ⟨fun index => idle.1 index index.isLt, idle.2⟩

theorem forEach_cell [DecidablePred acts] {value : α} (state : σ)
    (hit : ∀ index, acts index → ∀ state, read (body index state) = value)
    (miss : ∀ index, ¬ acts index → ∀ state,
      read (body index state) = read state)
    {index : Fin bound} (act : acts index) :
    read (forEach bound body state) = value := by
  rcases forEach_written read acts state hit miss with
    ⟨_, _, written⟩ | ⟨never, _⟩
  · exact written
  · exact absurd act (never index)

end Cell

/-- A loop over the lanes of a bundle is a fold over the list of lanes. -/
theorem forEach_eq_foldl {α : Type v} (lanes : Fin bound → α)
    (body : α → σ → σ) (state : σ) :
    forEach bound (fun index => body (lanes index)) state =
      (List.ofFn lanes).foldl (fun current lane => body lane current) state := by
  rw [forEach, List.ofFn_eq_map, List.foldl_map]

theorem take_ofFn_succ {α : Type v} (lanes : Fin bound → α)
    (index : Fin bound) :
    (List.ofFn lanes).take (index.val + 1) =
      (List.ofFn lanes).take index.val ++ [lanes index] := by
  have within : index.val < (List.ofFn lanes).length := by
    rw [List.length_ofFn]
    exact index.isLt
  rw [List.take_add_one, List.getElem?_eq_getElem within, List.getElem_ofFn]
  rfl

section Count

variable {α : Type v} (lanes : Fin bound → α) (holds : α → Bool)

theorem countP_take_succ (index : Fin bound) :
    ((List.ofFn lanes).take (index.val + 1)).countP holds =
      ((List.ofFn lanes).take index.val).countP holds +
        if holds (lanes index) then 1 else 0 := by
  rw [take_ofFn_succ, List.countP_append, List.countP_singleton]

theorem countP_take_le (count : Nat) :
    ((List.ofFn lanes).take count).countP holds ≤ count :=
  List.countP_le_length.trans (List.length_take_le _ _)

/-- A loop that counts lanes in a register wide enough for all of them. -/
theorem forEach_count {width : Nat} (wide : bound < 2 ^ width) :
    (forEach bound
      (fun index (count : BitVec width) =>
        if holds (lanes index) then count + 1 else count) 0).toNat =
      ((List.ofFn lanes).take bound).countP holds := by
  refine forEach_rule
    (fun index (count : BitVec width) =>
      count.toNat = ((List.ofFn lanes).take index).countP holds) ?_ ?_
  · rw [List.take_zero, List.countP_nil]
    exact BitVec.toNat_zero
  · intro index count counted
    have below := countP_take_le lanes holds index.val
    have within := index.isLt
    rw [countP_take_succ, ← counted]
    by_cases present : holds (lanes index) = true
    · have several : 1 < 2 ^ width := by omega
      have one : (1 : BitVec width).toNat = 1 := Nat.mod_eq_of_lt several
      rw [if_pos present, if_pos present, BitVec.toNat_add, one]
      exact Nat.mod_eq_of_lt (by omega)
    · rw [if_neg present, if_neg present, Nat.add_zero]

end Count

end Rules

section Visits

variable {σ : Type u} {bound : Nat}

/-- The iterations that the indices start, each with the state before it. -/
def visited {ι : Type v} (body : ι → σ → Flow σ) : List ι → σ → List (ι × σ)
  | [], _ => []
  | index :: rest, state =>
      (index, state) ::
        match body index state with
        | .step next => visited body rest next
        | .stop _ => []

/-- The iterations of `forLoop`, each with the state before it. -/
def visits (bound : Nat) (body : Fin bound → σ → Flow σ) (state : σ) :
    List (Fin bound × σ) :=
  visited body (List.finRange bound) state

/-- Along the iterations of a loop two properties agree, when an invariant
that the first one keeps makes them agree. -/
theorem visits_iff {body : Fin bound → σ → Flow σ} (invariant : σ → Prop)
    (first second : Fin bound → σ → Prop) {state : σ}
    (start : invariant state)
    (agree : ∀ index state, invariant state →
      (first index state ↔ second index state))
    (keeps : ∀ index state, invariant state → first index state →
      invariant (body index state).reached) :
    (∀ visit ∈ visits bound body state, first visit.1 visit.2) ↔
      ∀ visit ∈ visits bound body state, second visit.1 visit.2 := by
  unfold visits
  induction List.finRange bound generalizing state with
  | nil => simp [visited]
  | cons index rest induction =>
      have here := agree index state start
      have kept := keeps index state start
      simp only [visited, List.forall_mem_cons]
      cases next : body index state with
      | step reached =>
          rw [next] at kept
          constructor
          · rintro ⟨holds, later⟩
            exact ⟨here.mp holds, (induction (kept holds)).mp later⟩
          · rintro ⟨holds, later⟩
            have holds' := here.mpr holds
            exact ⟨holds', (induction (kept holds')).mpr later⟩
      | stop last =>
          constructor
          · rintro ⟨holds, _⟩
            exact ⟨here.mp holds,
              fun _ member => absurd member List.not_mem_nil⟩
          · rintro ⟨holds, _⟩
            exact ⟨here.mpr holds,
              fun _ member => absurd member List.not_mem_nil⟩

/-- A record of the iterations beside the loop: a relation that every
iteration with the property keeps holds at the end. -/
theorem visits_record {τ : Type v} {body : Fin bound → σ → Flow σ}
    (related : σ → τ → Prop) (record : Fin bound × σ → τ → τ)
    {property : Fin bound → σ → Prop} {state : σ} {log : τ}
    (start : related state log)
    (keeps : ∀ index state log, property index state → related state log →
      related (body index state).reached (record (index, state) log))
    (all : ∀ visit ∈ visits bound body state, property visit.1 visit.2) :
    related (forLoop bound body state)
      ((visits bound body state).foldl (fun log visit => record visit log)
        log) := by
  unfold visits at all ⊢
  unfold forLoop
  generalize List.finRange bound = indices at all ⊢
  induction indices generalizing state log with
  | nil => exact start
  | cons index rest induction =>
      simp only [visited, List.forall_mem_cons] at all
      have kept := keeps index state log all.1 start
      simp only [visited, iterate, List.foldl_cons]
      cases next : body index state with
      | step reached =>
          rw [next] at all kept
          exact induction kept all.2
      | stop last =>
          rw [next] at kept
          exact kept

end Visits

/-- The states of a clocked system, cycle by cycle, under given inputs. -/
def states {σ : Type u} {ι : Type v} (next : σ → ι → σ) (start : σ)
    (input : Nat → ι) : Nat → σ
  | 0 => start
  | time + 1 => next (states next start input time) (input time)

theorem states_succ {σ : Type u} {ι : Type v} (next : σ → ι → σ) (start : σ)
    (input : Nat → ι) (time : Nat) :
    states next start input (time + 1) =
      states next (next start (input 0)) (fun later => input (later + 1))
        time := by
  induction time with
  | zero => rfl
  | succ time induction =>
      rw [states, induction]
      rfl

/-- The states reached from `start` when each cycle's input is `allowed` in
the state before it. -/
inductive Run {σ : Type u} {ι : Type v} (start : σ → Prop)
    (next : σ → ι → σ) (allowed : σ → ι → Prop) : σ → Prop where
  | start {state : σ} : start state → Run start next allowed state
  | step {state : σ} (input : ι) :
      Run start next allowed state → allowed state input →
      Run start next allowed (next state input)

section Runs

variable {σ : Type u} {ι : Type v} {start : σ → Prop} {next : σ → ι → σ}
  {allowed : σ → ι → Prop}

/-- What holds at the start and is preserved by every allowed cycle holds
throughout a run. -/
theorem Run.invariant {state : σ} (run : Run start next allowed state)
    (property : σ → Prop) (initial : ∀ state, start state → property state)
    (preserved : ∀ state input, property state → allowed state input →
      property (next state input)) :
    property state := by
  induction run with
  | start started => exact initial _ started
  | step input _ permitted induction =>
      exact preserved _ input induction permitted

/-- Each of the inputs is allowed where the ones before it lead. -/
def Permitted (next : σ → ι → σ) (allowed : σ → ι → Prop) :
    σ → List ι → Prop
  | _, [] => True
  | state, input :: inputs =>
      allowed state input ∧ Permitted next allowed (next state input) inputs

instance decidablePermitted (next : σ → ι → σ) (allowed : σ → ι → Prop)
    [decide : ∀ state input, Decidable (allowed state input)] :
    ∀ state inputs, Decidable (Permitted next allowed state inputs)
  | _, [] => inferInstanceAs (Decidable True)
  | state, input :: inputs =>
      have := decidablePermitted next allowed (next state input) inputs
      inferInstanceAs (Decidable (_ ∧ _))

theorem Run.through {state : σ} (run : Run start next allowed state)
    {inputs : List ι} (permitted : Permitted next allowed state inputs) :
    Run start next allowed (inputs.foldl next state) := by
  induction inputs generalizing state with
  | nil => exact run
  | cons input inputs induction =>
      exact induction (.step input run permitted.1) permitted.2

theorem Run.mono {allowed' : σ → ι → Prop} {state : σ}
    (run : Run start next allowed state)
    (weaker : ∀ state input, allowed state input → allowed' state input) :
    Run start next allowed' state := by
  induction run with
  | start started => exact .start started
  | step input _ permitted induction =>
      exact .step input induction (weaker _ _ permitted)

/-- A system whose cycles another one can follow runs as that one does. -/
theorem Run.simulation {τ : Type u} {κ : Type v} {start' : τ → Prop}
    {next' : τ → κ → τ} {allowed' : τ → κ → Prop} (related : σ → τ → Prop)
    (initial : ∀ state, start state →
      ∃ other, start' other ∧ related state other)
    (preserved : ∀ state other input, Run start next allowed state →
      related state other → allowed state input →
      ∃ input', allowed' other input' ∧
        related (next state input) (next' other input'))
    {state : σ} (run : Run start next allowed state) :
    ∃ other, related state other ∧ Run start' next' allowed' other := by
  induction run with
  | start started =>
      obtain ⟨other, begins, same⟩ := initial _ started
      exact ⟨other, same, .start begins⟩
  | step input before permitted induction =>
      obtain ⟨other, same, run⟩ := induction
      obtain ⟨input', permitted', follows⟩ :=
        preserved _ other input before same permitted
      exact ⟨_, follows, .step input' run permitted'⟩

end Runs

end Hdl
