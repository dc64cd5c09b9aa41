import Ria.Common.MicroOp
import Ria.Library.Loop

/-!
# Bundles of uops

The uops that move between two stages in one cycle, one a lane.  A bundle is
read as the list of its valid uops in lane order; `packed` puts such a list
back into lanes, from lane 0 on and without gaps.
-/

namespace Ria

variable {lanes : Nat}

/-- The bundle written `0` in the source. -/
def noUops : Fin lanes → MicroOp := fun _ => 0

/-- The valid uops of a bundle, in lane order. -/
def validUops (uops : Fin lanes → MicroOp) : List MicroOp :=
  (List.ofFn uops).filter MicroOp.valid

/-- The bundle with the given uops in its first lanes. -/
def packed (uops : List MicroOp) : Fin lanes → MicroOp :=
  fun i => uops.getD i.val 0

theorem mem_validUops {uops : Fin lanes → MicroOp} {uop : MicroOp} :
    uop ∈ validUops uops ↔ ∃ i, uops i = uop ∧ uop.valid = true := by
  rw [validUops, List.mem_filter, List.mem_ofFn]
  constructor
  · rintro ⟨⟨i, same⟩, valid⟩
    exact ⟨i, same, valid⟩
  · rintro ⟨i, same, valid⟩
    exact ⟨⟨i, same⟩, valid⟩

theorem validUops_eq_nil {uops : Fin lanes → MicroOp} :
    validUops uops = [] ↔ ∀ i, (uops i).valid = false := by
  rw [validUops, List.filter_eq_nil_iff]
  constructor
  · intro nothing i
    exact Bool.eq_false_iff.mpr (nothing _ (List.mem_ofFn.mpr ⟨i, rfl⟩))
  · intro nothing uop member
    obtain ⟨i, rfl⟩ := List.mem_ofFn.mp member
    rw [nothing i]
    exact Bool.false_ne_true

@[simp] theorem validUops_noUops :
    validUops (noUops : Fin lanes → MicroOp) = [] :=
  validUops_eq_nil.mpr fun _ => rfl

theorem length_validUops_le (uops : Fin lanes → MicroOp) :
    (validUops uops).length ≤ lanes := by
  have bound := List.length_filter_le MicroOp.valid (List.ofFn uops)
  rwa [List.length_ofFn] at bound

/-- The valid uops in the lanes before a given one. -/
def validBefore (uops : Fin lanes → MicroOp) (count : Nat) : Nat :=
  ((List.ofFn uops).take count).countP MicroOp.valid

theorem validBefore_succ (uops : Fin lanes → MicroOp) (i : Fin lanes) :
    validBefore uops (i.val + 1) =
      validBefore uops i.val + if (uops i).valid then 1 else 0 :=
  Hdl.countP_take_succ uops MicroOp.valid i

theorem validBefore_mono (uops : Fin lanes → MicroOp) {one other : Nat}
    (ordered : one ≤ other) :
    validBefore uops one ≤ validBefore uops other :=
  (List.take_sublist_take_left ordered).countP_le

theorem validBefore_lt {uops : Fin lanes → MicroOp} {i : Fin lanes}
    {other : Nat} (ordered : i.val < other) (valid : (uops i).valid = true) :
    validBefore uops i.val < validBefore uops other := by
  have step := validBefore_succ uops i
  rw [if_pos valid] at step
  have more : validBefore uops (i.val + 1) ≤ validBefore uops other :=
    validBefore_mono uops ordered
  omega

theorem validBefore_inj {uops : Fin lanes → MicroOp} {i j : Fin lanes}
    (valid : (uops i).valid = true) (other : (uops j).valid = true)
    (same : validBefore uops i.val = validBefore uops j.val) : i = j := by
  rcases lt_trichotomy i.val j.val with earlier | here | later
  · exact absurd same (Nat.ne_of_lt (validBefore_lt earlier valid))
  · exact Fin.ext here
  · exact absurd same.symm (Nat.ne_of_lt (validBefore_lt later other))

theorem validBefore_lanes (uops : Fin lanes → MicroOp) :
    validBefore uops lanes = (validUops uops).length := by
  have all : (List.ofFn uops).take lanes = List.ofFn uops :=
    List.take_of_length_le (by rw [List.length_ofFn])
  rw [validBefore, all, validUops, List.countP_eq_length_filter]

theorem validUops_map (one other : Fin lanes → MicroOp)
    (map : MicroOp → MicroOp)
    (valid : ∀ i, (one i).valid = (other i).valid)
    (same : ∀ i, map (one i) = map (other i)) :
    (validUops one).map map = (validUops other).map map := by
  unfold validUops
  induction lanes with
  | zero => simp
  | succ lanes induction =>
      have rest := induction (fun i => one i.succ)
        (fun i => other i.succ) (fun i => valid i.succ)
        (fun i => same i.succ)
      rw [List.ofFn_succ, List.ofFn_succ, List.filter_cons, List.filter_cons,
        valid 0]
      by_cases first : (other 0).valid = true
      · simp only [first, if_true, List.map_cons, same 0, rest]
      · simp only [first, if_false, rest, Bool.false_eq_true]

theorem validUops_packed {uops : List MicroOp} (few : uops.length ≤ lanes)
    (valid : ∀ uop ∈ uops, uop.valid = true) :
    validUops (packed uops : Fin lanes → MicroOp) = uops := by
  have split : List.ofFn (packed uops : Fin lanes → MicroOp) =
      uops ++ List.replicate (lanes - uops.length) 0 := by
    apply List.ext_getElem
    · simp
      omega
    · intro number low high
      rw [List.getElem_ofFn, packed]
      by_cases inside : number < uops.length
      · rw [List.getElem_append_left inside]
        simp [inside]
      · rw [List.getElem_append_right (by omega)]
        simp [inside]
  have kept : uops.filter MicroOp.valid = uops :=
    List.filter_eq_self.mpr valid
  have dropped : (List.replicate (lanes - uops.length)
      (0 : MicroOp)).filter MicroOp.valid = [] := by
    refine List.filter_eq_nil_iff.mpr ?_
    intro uop member
    rw [List.eq_of_mem_replicate member]
    exact Bool.false_ne_true
  rw [validUops, split, List.filter_append, kept, dropped, List.append_nil]

end Ria
