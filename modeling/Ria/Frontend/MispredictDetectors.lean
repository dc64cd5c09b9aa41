import Ria.Backend.FunctionUnit
import Ria.Frontend.BranchPred
import Ria.Frontend.DecodedUop
import Ria.Frontend.Rat
import Ria.Frontend.Rob

/-!
# The two misprediction detectors

The reorder buffer scans its ring and `branch_pred` scans the bundle retired.
The former compares target addresses of predicted-taken uops only; of a uop
that decode and the branch unit have made, the two comparisons say the same.
-/

namespace Ria

open Hdl

/-- What holds of a branch-type uop once decode has set its prediction and the
branch unit its outcome. -/
structure MicroOp.Resolved (uop : MicroOp) : Prop where
  npc : uop.npc = uop.pc + 4
  predAddr : uop.predTaken = false → uop.predAddr = uop.pc + 4
  brAddr : uop.brTaken = false → uop.brAddr = uop.npc

/-- A branch-type uop is resolved. -/
def MicroOp.ResolvedBranch (uop : MicroOp) : Prop :=
  uop.brType ≠ .x → uop.Resolved

theorem mispredicted_eq {uop : MicroOp} (branch : uop.brType ≠ .x)
    (resolved : uop.Resolved) :
    Rob.mispredicted uop = BranchPred.mispredicted uop := by
  have kind : (uop.brType != .x) = true := by simpa using branch
  unfold Rob.mispredicted BranchPred.mispredicted
  rw [kind, Bool.true_and]
  cases predicted : uop.predTaken with
  | true => rw [Bool.and_true]
  | false =>
      cases taken : uop.brTaken with
      | true => rfl
      | false =>
          have same : uop.brAddr = uop.predAddr := by
            rw [resolved.brAddr taken, resolved.npc,
              resolved.predAddr predicted]
          simp [same]

/-! ## Resolved uops -/

/-- What decode establishes of a uop, and renaming, the assignment of a
reorder buffer index and the branch unit keep. -/
structure MicroOp.Predicted (uop : MicroOp) : Prop where
  incomplete : uop.complete = false
  npc : uop.brType ≠ .x → uop.npc = uop.pc + 4
  predAddr : uop.brType ≠ .x → uop.predTaken = false →
    uop.predAddr = uop.pc + 4
  unit : uop.brType ≠ .x → uop.fuCode = .br
  queue : uop.brType ≠ .x → uop.iqCode = .int

/-- What every branch of the `casez` leaves of the prediction. -/
structure DecodeBranch.KeepsPrediction (branch : DecodeBranch) : Prop where
  pc : ∀ inst (uop : MicroOp), (branch inst uop).pc = uop.pc
  npc : ∀ inst (uop : MicroOp), (branch inst uop).npc = uop.npc
  predTaken : ∀ inst (uop : MicroOp),
    (branch inst uop).predTaken = uop.predTaken
  predAddr : ∀ inst (uop : MicroOp),
    (branch inst uop).predAddr = uop.predAddr
  complete : ∀ inst (uop : MicroOp),
    (branch inst uop).complete = uop.complete
  unit : ∀ inst (uop : MicroOp), uop.brType = .x →
    (branch inst uop).brType ≠ .x →
      (branch inst uop).fuCode = .br ∧ (branch inst uop).iqCode = .int

theorem DecodeBranch.KeepsPrediction.of_other {branch : DecodeBranch}
    (fields : ∀ inst (uop : MicroOp), (branch inst uop).pc = uop.pc ∧
      (branch inst uop).npc = uop.npc ∧
      (branch inst uop).predTaken = uop.predTaken ∧
      (branch inst uop).predAddr = uop.predAddr ∧
      (branch inst uop).complete = uop.complete ∧
      (branch inst uop).brType = uop.brType) :
    branch.KeepsPrediction := by
  refine ⟨fun inst uop => (fields inst uop).1,
    fun inst uop => (fields inst uop).2.1,
    fun inst uop => (fields inst uop).2.2.1,
    fun inst uop => (fields inst uop).2.2.2.1,
    fun inst uop => (fields inst uop).2.2.2.2.1, ?_⟩
  intro inst uop unset branch
  rw [(fields inst uop).2.2.2.2.2] at branch
  exact absurd unset branch

theorem decodeTable_keepsPrediction :
    ∀ item ∈ decodeTableInt ++ decodeTableFp, item.2.KeepsPrediction := by
  refine forall_decodeTable DecodeBranch.KeepsPrediction
    (fun _ => .of_other fun _ _ => ⟨rfl, rfl, rfl, rfl, rfl, rfl⟩)
    ⟨fun _ _ => rfl, fun _ _ => rfl, fun _ _ => rfl, fun _ _ => rfl,
      fun _ _ => rfl, fun _ _ _ _ => ⟨rfl, rfl⟩⟩
    ⟨fun _ _ => rfl, fun _ _ => rfl, fun _ _ => rfl, fun _ _ => rfl,
      fun _ _ => rfl, fun _ _ _ _ => ⟨rfl, rfl⟩⟩
    (fun _ => ⟨fun _ _ => rfl, fun _ _ => rfl, fun _ _ => rfl,
      fun _ _ => rfl, fun _ _ => rfl, fun _ _ _ _ => ⟨rfl, rfl⟩⟩)
    (fun _ _ => .of_other fun _ _ => ⟨rfl, rfl, rfl, rfl, rfl, rfl⟩)
    (fun _ => .of_other fun _ _ => ⟨rfl, rfl, rfl, rfl, rfl, rfl⟩)
    (fun _ => .of_other fun _ _ => ⟨rfl, rfl, rfl, rfl, rfl, rfl⟩)
    (fun _ => .of_other fun _ _ => ⟨rfl, rfl, rfl, rfl, rfl, rfl⟩)
    (fun _ => .of_other fun _ _ => ⟨rfl, rfl, rfl, rfl, rfl, rfl⟩)
    (fun _ => .of_other fun _ _ => ⟨rfl, rfl, rfl, rfl, rfl, rfl⟩)
    (fun _ _ _ => .of_other fun _ _ => ⟨rfl, rfl, rfl, rfl, rfl, rfl⟩)
    (fun _ => .of_other fun _ _ => ⟨rfl, rfl, rfl, rfl, rfl, rfl⟩)
    (.of_other fun _ _ => ⟨rfl, rfl, rfl, rfl, rfl, rfl⟩)

theorem predicted_zero : MicroOp.Predicted 0 :=
  ⟨rfl, fun branch => absurd rfl branch, fun branch => absurd rfl branch,
    fun branch => absurd rfl branch, fun branch => absurd rfl branch⟩

theorem decode_predicted (fbEntry : FbEntry) (valid : Bool) :
    (decode fbEntry valid).Predicted := by
  cases found : (decodeTableInt ++ decodeTableFp).find?
      (fun item => item.1 fbEntry.inst) with
  | none =>
      have dropped : decode fbEntry valid = 0 := by
        unfold decode decodeCasez
        rw [found]
        rfl
      rw [dropped]
      exact predicted_zero
  | some item =>
      have keeps := decodeTable_keepsPrediction item
        (List.mem_of_find?_eq_some found)
      have base := keeps.unit fbEntry.inst (decodeBase fbEntry valid) rfl
      have predAddr := keeps.predAddr fbEntry.inst (decodeBase fbEntry valid)
      have predTaken := keeps.predTaken fbEntry.inst
        (decodeBase fbEntry valid)
      have pc := keeps.pc fbEntry.inst (decodeBase fbEntry valid)
      have npc := keeps.npc fbEntry.inst (decodeBase fbEntry valid)
      have decoded : decode fbEntry valid = 0 ∨
          decode fbEntry valid =
            (item.2 fbEntry.inst (decodeBase fbEntry valid)).dropZeroRd := by
        unfold decode decodeCasez
        rw [found]
        dsimp only
        split
        · exact .inr rfl
        · exact .inl rfl
      rcases decoded with empty | kept
      · rw [empty]
        exact predicted_zero
      · rw [kept, MicroOp.dropZeroRd_eq]
        refine ⟨?_, fun _ => ?_, fun _ unpredicted => ?_,
          fun branch => (base branch).1, fun branch => (base branch).2⟩
        · exact keeps.complete fbEntry.inst (decodeBase fbEntry valid)
        · exact npc.trans (congrArg (· + 4) pc.symm)
        · have quiet : (decodeBase fbEntry valid).predTaken = false :=
            predTaken ▸ unpredicted
          have sequential : (decodeBase fbEntry valid).predAddr =
              fbEntry.pc + 4 := by
            change (if fbEntry.predTaken then _ else _) = _
            rw [if_neg]
            rw [show fbEntry.predTaken = false from quiet]
            exact Bool.false_ne_true
          exact (predAddr.trans sequential).trans
            (congrArg (· + 4) pc.symm)

/-- The branch unit resolves what decode has predicted. -/
theorem branchUop_resolved {uop : MicroOp} (predicted : uop.Predicted)
    (in1 in2 : Word) : (branchUop uop in1 in2).ResolvedBranch := by
  intro branch
  refine ⟨predicted.npc branch, predicted.predAddr branch, ?_⟩
  intro untaken
  have fallsThrough : branchResult uop in1 in2 = false := untaken
  have conditional : uop.brType ≠ .jalr := by
    intro jalr
    rw [branchResult, jalr] at fallsThrough
    simp at fallsThrough
  change branchAddr uop in1 in2 = uop.npc
  rw [branchAddr, if_neg conditional, fallsThrough]
  rfl

/-! ## The scan over the retired bundle -/

namespace BranchPred

/-- A retired lane that does not make `branch_pred` redirect. -/
def Quiet (uop : MicroOp) : Prop :=
  uop.valid = true → uop.brType ≠ .x → mispredicted uop = false

theorem trainLane_quiet {uop : MicroOp} (quiet : Quiet uop)
    (state : Training) :
    ∃ tables lru, trainLane uop state =
      .step { state with tables := tables, lru := lru } := by
  unfold trainLane
  by_cases trains : uop.valid = true ∧ uop.brType ≠ .x
  · simp only [if_pos trains, quiet trains.1 trains.2]
    exact ⟨_, _, rfl⟩
  · simp only [if_neg trains]
    exact ⟨state.tables, state.lru, rfl⟩

theorem trainLane_mispredicted {uop : MicroOp} (valid : uop.valid = true)
    (branch : uop.brType ≠ .x) (wrong : mispredicted uop = true)
    {state : Training} (first : state.mispredict = false) :
    ∃ last, trainLane uop state = .stop last ∧ last.mispredict = true ∧
      last.nextPc = uop.brAddr := by
  unfold trainLane
  simp only [if_pos (And.intro valid branch), wrong, first]
  exact ⟨_, rfl, rfl, rfl⟩

variable (tables : BranchPred) (pc : Word) {uopRetire : Fin 6 → MicroOp}

theorem train_quiet (quiet : ∀ i, Quiet (uopRetire i)) :
    (train tables pc uopRetire).mispredict = false ∧
      (train tables pc uopRetire).nextPc = pc + 16 := by
  unfold train
  refine forLoop_rule
    (fun _ (state : Training) =>
      state.mispredict = false ∧ state.nextPc = pc + 16)
    (fun state => state.mispredict = false ∧ state.nextPc = pc + 16)
    ⟨rfl, rfl⟩ ?_ (fun _ holds => holds)
  intro i state sofar
  obtain ⟨tables, lru, step⟩ := trainLane_quiet (quiet i) state
  simp only [step]
  exact sofar

theorem train_mispredicted {i : Fin 6}
    (quiet : ∀ j < i, Quiet (uopRetire j))
    (valid : (uopRetire i).valid = true) (branch : (uopRetire i).brType ≠ .x)
    (wrong : mispredicted (uopRetire i) = true) :
    (train tables pc uopRetire).mispredict = true ∧
      (train tables pc uopRetire).nextPc = (uopRetire i).brAddr := by
  unfold train
  refine forLoop_rule
    (fun count (state : Training) =>
      count ≤ i.val ∧ state.mispredict = false)
    (fun state =>
      state.mispredict = true ∧ state.nextPc = (uopRetire i).brAddr)
    ⟨Nat.zero_le _, rfl⟩ ?_ ?_
  · rintro j state ⟨within, first⟩
    rcases Nat.lt_or_ge j.val i.val with earlier | reached
    · obtain ⟨tables, lru, step⟩ := trainLane_quiet (quiet j earlier) state
      simp only [step]
      exact ⟨earlier, first⟩
    · have here : j = i := Fin.ext (by omega)
      subst here
      obtain ⟨last, stop, redirected⟩ :=
        trainLane_mispredicted valid branch wrong first
      simp only [stop]
      exact redirected
  · rintro state ⟨within, -⟩
    have bound := i.isLt
    omega

end BranchPred

/-! ## The scan over the ring -/

namespace Rob

/-- How the retirement loop ends when every complete entry is fit to be
retired: no branch retired was mispredicted, or the last uop retired is the
one recovered for. -/
def Ends (state : Retirement) : Prop :=
  (state.recover = false ∧ ∀ i, BranchPred.Quiet (state.uopRetire i)) ∨
    (state.recover = true ∧ state.robHeadNext = 0 ∧ state.robSizeNext = 0 ∧
      ∃ i, state.uopRetire i = state.uopRecover ∧
        state.uopRecover.valid = true ∧ state.uopRecover.brType ≠ .x ∧
        BranchPred.mispredicted state.uopRecover = true ∧
        (∀ j < i, BranchPred.Quiet (state.uopRetire j)) ∧
        ∀ j > i, state.uopRetire j = 0)

/-- The entry is valid and, if it is a branch, resolved. -/
def Fit (uop : MicroOp) : Prop :=
  uop.brType ≠ .x → uop.valid = true ∧ uop.Resolved

theorem quiet_zero : BranchPred.Quiet 0 := by
  intro valid
  cases valid

theorem Fit.quiet {uop : MicroOp} (fit : Fit uop)
    (right : mispredicted uop = false) : BranchPred.Quiet uop := by
  intro _ branch
  rw [← mispredicted_eq branch (fit branch).2]
  exact right

/-- The invariant of the loop is that the lanes so far are quiet and the
others empty. -/
theorem retire_ends {rob : Rob} {opList : RobIndex → MicroOp}
    (fit : ∀ index, (opList index).complete = true → Fit (opList index)) :
    Ends (rob.retire opList) := by
  have read : ∀ index uop, entry opList index = uop →
      uop.complete = true → Fit uop := by
    intro index uop found complete
    unfold entry at found
    split at found
    · rw [← found] at complete ⊢
      exact fit _ complete
    · rw [← found] at complete
      cases complete
  refine retire_rule
    (fun count state => state.recover = false ∧
      (∀ j : Fin 6, j.val < count → BranchPred.Quiet (state.uopRetire j)) ∧
      ∀ j : Fin 6, count ≤ j.val → state.uopRetire j = 0) Ends ?_ ?_ ?_ ?_
  · exact ⟨rfl, fun j below => absurd below (Nat.not_lt_zero _),
      fun _ _ => rfl⟩
  · rintro i state ⟨runs, quiet, empty⟩ _
    refine .inl ⟨runs, fun j => ?_⟩
    rcases Nat.lt_or_ge j.val i.val with below | above
    · exact quiet j below
    · rw [empty j above]
      exact quiet_zero
  · rintro i state uop ⟨runs, quiet, empty⟩ _ found complete
    have known := read _ uop found complete
    have earlier : ∀ j : Fin 6, j.val < i.val →
        (state.retiring i uop).uopRetire j = state.uopRetire j :=
      fun j below => Retirement.retiring_other (by omega)
    have later : ∀ j : Fin 6, i.val < j.val →
        (state.retiring i uop).uopRetire j = 0 := by
      intro j above
      rw [Retirement.retiring_other (by omega)]
      exact empty j (by omega)
    have here := state.retiring_here i uop
    constructor
    · intro wrong
      have branch : uop.brType ≠ .x := by
        intro plain
        rw [mispredicted, plain] at wrong
        cases wrong
      obtain ⟨valid, resolved⟩ := known branch
      refine .inr ⟨rfl, rfl, rfl, i, here, valid, branch, ?_, ?_, later⟩
      · exact (mispredicted_eq branch resolved).symm.trans wrong
      · intro j below
        change BranchPred.Quiet ((state.retiring i uop).uopRetire j)
        rw [earlier j below]
        exact quiet j below
    · intro right
      refine ⟨runs, ?_, fun j above => later j above⟩
      intro j below
      rcases Nat.lt_succ_iff_lt_or_eq.mp below with before | same
      · rw [earlier j before]
        exact quiet j before
      · rw [Fin.ext same, here]
        exact known.quiet right
  · rintro state ⟨runs, quiet, -⟩
    exact .inl ⟨runs, fun j => quiet j j.isLt⟩

theorem complete_fit {opList : RobIndex → MicroOp}
    {uopComplete : Fin 6 → MicroOp}
    (held : ∀ index, (opList index).complete = true → Fit (opList index))
    (completing : ∀ lane, (uopComplete lane).valid = true →
      (uopComplete lane).ResolvedBranch) :
    ∀ index, (complete opList uopComplete index).complete = true →
      Fit (complete opList uopComplete index) := by
  intro index
  rcases complete_cases opList uopComplete index with
    ⟨lane, ⟨valid, -⟩, same⟩ | ⟨-, same⟩
  · rw [same]
    intro _ branch
    obtain ⟨npc, predAddr, brAddr⟩ := completing lane valid branch
    exact ⟨valid, npc, predAddr, brAddr⟩
  · rw [same]
    exact held index

end Rob

/-! ## The agreement -/

section Agreement

variable (rob : Rob) (uopComplete : Fin 6 → MicroOp)
  (uopIn : Fin 4 → MicroOp) (tables : BranchPred) (pc : Word)
  (isBranch isValid : Fin 4 → Bool)

/-- On the bundle retired, `branch_pred` redirects exactly when the reorder
buffer recovers; then the last uop of the bundle is the one recovered for,
its target is the next pc, and the buffer takes in nothing and is empty. -/
theorem detectors_agree
    (held : ∀ index, (rob.opList index).complete = true →
      Rob.Fit (rob.opList index))
    (completing : ∀ lane, (uopComplete lane).valid = true →
      (uopComplete lane).ResolvedBranch) :
    let out := rob.outputs uopComplete uopIn
    let prediction := tables.comb pc isBranch isValid out.uopRetire
    let next := rob.next false uopComplete uopIn
    prediction.mispredict = out.recover ∧
      (out.recover = true →
        (∃ i, out.uopRetire i = out.uopRecover ∧
          out.uopRecover.valid = true ∧
          BranchPred.mispredicted out.uopRecover = true ∧
          (∀ j < i, BranchPred.Quiet (out.uopRetire j)) ∧
          ∀ j > i, out.uopRetire j = 0) ∧
        prediction.nextPc = out.uopRecover.brAddr ∧
        (∀ i, out.uopOut i = 0) ∧
        next.opList = Rob.complete rob.opList uopComplete ∧
        next.robHead = 0 ∧ next.robSize = 0) := by
  intro out prediction next
  have ends : Rob.Ends (rob.retired uopComplete) :=
    Rob.retire_ends (Rob.complete_fit held completing)
  rcases ends with
    ⟨runs, quiet⟩ | ⟨recovers, head, size, i, last, valid, branch, wrong,
      before, after⟩
  · have recover : out.recover = false := runs
    have silent := (BranchPred.train_quiet tables pc quiet).1
    rw [recover]
    exact ⟨silent, fun impossible => by cases impossible⟩
  · have recover : out.recover = true := recovers
    have here : out.uopRetire i = out.uopRecover := last
    have earlier : ∀ j < i, BranchPred.Quiet (out.uopRetire j) := before
    have redirected := BranchPred.train_mispredicted tables pc earlier
      (here ▸ valid) (here ▸ branch) (here ▸ wrong)
    have target : prediction.nextPc =
        (BranchPred.train tables pc out.uopRetire).nextPc := by
      change (if (BranchPred.train tables pc out.uopRetire).mispredict then
        _ else _ : BranchPred.Prediction).nextPc = _
      rw [if_pos redirected.1]
    have idle : rob.inserted uopComplete uopIn = _ :=
      Rob.inserted_of_recover recovers
    refine ⟨redirected.1.trans recover.symm, fun _ => ⟨?_, ?_, ?_, ?_, head, ?_⟩⟩
    · exact ⟨i, here, valid, wrong, before, after⟩
    · rw [target, redirected.2, here]
    · intro lane
      change (rob.inserted uopComplete uopIn).uopOut lane = 0
      rw [idle]
    · change (rob.inserted uopComplete uopIn).opList = _
      rw [idle]
    · change (rob.inserted uopComplete uopIn).robSizeNext = 0
      rw [idle]
      exact size

/-- A `jal` that was not predicted taken completes and retires alone. -/
theorem detectors_agree_jal :
    let uop := branchUop
      (decode { (0 : FbEntry) with inst := 0x008000EF } true) 0 0
    let rob : Rob := { opList := fun _ => 0, robHead := 0, robSize := 1 }
    let out := rob.outputs (fun i => if i = 0 then uop else 0) fun _ => 0
    (BranchPred.resetState.comb 0 (fun _ => true) (fun _ => true)
        out.uopRetire).mispredict = out.recover ∧
      out.recover = true := by
  refine ⟨?_, by decide⟩
  refine (detectors_agree ⟨fun _ => 0, 0, 1⟩ _ (fun _ => 0)
    BranchPred.resetState 0 (fun _ => true) (fun _ => true) ?_ ?_).1
  · intro index complete
    cases complete
  · intro lane valid
    by_cases first : lane = 0
    · subst first
      exact branchUop_resolved (decode_predicted _ _) 0 0
    · rw [if_neg first] at valid
      cases valid

end Agreement

end Ria
