/-!
# Stalled pipeline registers with a skid buffer

A register between two stages that stall together.  The stage behind it only
sees the stall one cycle late, so what that stage still sends in the first
stalled cycle is kept in `tmp` and sent on when the stall ends.

`contents` names what a register value carries, in order.  If the stage behind
sends nothing in the cycle after a stall, nothing is lost or reordered.
-/

namespace Hdl

universe u v

structure SkidBuffer (α : Type u) where
  out : α
  tmp : α
  stallPrev : Bool

namespace SkidBuffer

variable {α : Type u}

/-- The values on reset, over the value `empty` of an empty register. -/
def resetState (empty : α) : SkidBuffer α :=
  { out := empty, tmp := empty, stallPrev := false }

def next (empty : α) (buffer : SkidBuffer α) (flush full : Bool)
    (input : α) : SkidBuffer α :=
  if flush then resetState empty
  else if full && !buffer.stallPrev then
    { out := empty, tmp := input, stallPrev := true }
  else if buffer.stallPrev && !full then
    { out := buffer.tmp, tmp := empty, stallPrev := false }
  else if full then { buffer with out := empty }
  else { buffer with out := input }

theorem next_all {empty : α} {buffer : SkidBuffer α} {input : α}
    (property : α → Prop) (emptyOk : property empty)
    (tmpOk : property buffer.tmp) (inputOk : property input) (flush full : Bool) :
    property (buffer.next empty flush full input).out ∧
      property (buffer.next empty flush full input).tmp := by
  unfold SkidBuffer.next
  split
  · exact ⟨emptyOk, emptyOk⟩
  · split
    · exact ⟨emptyOk, inputOk⟩
    · split
      · exact ⟨tmpOk, emptyOk⟩
      · split
        · exact ⟨emptyOk, tmpOk⟩
        · exact ⟨inputOk, tmpOk⟩

section Contents

variable {β : Type v} {empty : α} {contents : α → List β}
  (nothing : contents empty = [])

/-- Only a stalled register keeps anything back, and it sends nothing. -/
structure Settled (contents : α → List β) (buffer : SkidBuffer α) : Prop where
  kept : buffer.stallPrev = false → contents buffer.tmp = []
  silent : buffer.stallPrev = true → contents buffer.out = []

/-- What the register carries, oldest first. -/
def held (contents : α → List β) (buffer : SkidBuffer α) : List β :=
  contents buffer.out ++ contents buffer.tmp

include nothing

theorem held_resetState : held contents (resetState empty) = [] := by
  simp [held, resetState, nothing]

theorem settled_resetState : Settled contents (resetState empty) :=
  ⟨fun _ => nothing, fun _ => nothing⟩

section Step

variable {buffer : SkidBuffer α} {full : Bool} {input : α}

omit nothing in
@[simp] theorem next_stallPrev :
    (buffer.next empty false full input).stallPrev = full := by
  unfold SkidBuffer.next
  cases full <;> cases buffer.stallPrev <;> simp

omit nothing in
@[simp] theorem next_out_of_full :
    (buffer.next empty false true input).out = empty := by
  unfold SkidBuffer.next
  cases buffer.stallPrev <;> simp

theorem Settled.tmp_next (settled : Settled contents buffer) :
    contents (buffer.next empty false false input).tmp = [] := by
  unfold SkidBuffer.next
  cases previous : buffer.stallPrev with
  | true => simp [nothing]
  | false => simpa using settled.kept previous

theorem Settled.next (settled : Settled contents buffer) (flush : Bool) :
    Settled contents (buffer.next empty flush full input) := by
  cases flush with
  | true => exact settled_resetState nothing
  | false =>
      constructor
      · intro released
        rw [next_stallPrev] at released
        subst released
        exact settled.tmp_next nothing
      · intro stalled
        rw [next_stallPrev] at stalled
        subst stalled
        rw [next_out_of_full]
        exact nothing

/-- Nothing is lost or reordered in the register. -/
theorem Settled.held_next (settled : Settled contents buffer)
    (quiet : buffer.stallPrev = true → contents input = []) :
    held contents (buffer.next empty false full input) =
      contents buffer.tmp ++ contents input := by
  unfold SkidBuffer.next held
  cases previous : buffer.stallPrev with
  | true =>
      cases full with
      | true => simp [nothing, quiet previous]
      | false => simp [nothing, quiet previous]
  | false =>
      have empty_tmp := settled.kept previous
      cases full with
      | true => simp [nothing, empty_tmp]
      | false => simp [empty_tmp]

end Step

end Contents

end SkidBuffer

end Hdl
