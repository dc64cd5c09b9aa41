import Mathlib.Logic.Basic

/-!
# Queues behind a valid/ready handshake

`FifoQueue depth α` is a module that behaves as a first-in first-out queue of
`depth` entries, whatever registers it is made of.  `exchange` is the use of
such a queue as a delay line: each item is taken out when the next goes in.
-/

namespace Hdl

universe u

/-- The inputs of a queue in one cycle. -/
structure HandshakeInput (α : Type u) where
  rst : Bool
  enqValid : Bool
  enqData : α
  deqReady : Bool

/-- A module with the interface of a queue, and what its registers hold. -/
structure FifoQueue (depth : Nat) (α : Type u) where
  State : Type u
  next : State → HandshakeInput α → State
  enqReady : State → Bool
  deqValid : State → Bool
  deqData : State → α
  items : State → List α
  enqReady_iff : ∀ state,
    enqReady state = true ↔ (items state).length < depth
  deqValid_iff : ∀ state, deqValid state = true ↔ items state ≠ []
  deqData_of_head : ∀ state item,
    (items state).head? = some item → deqData state = item
  items_reset : ∀ state input, input.rst = true → items (next state input) = []
  items_next : ∀ state input, input.rst = false →
    items (next state input) =
      (if input.deqReady then (items state).tail else items state) ++
        if input.enqValid && enqReady state then [input.enqData] else []

/-- The queue that keeps its items in a list. -/
def listQueue (depth : Nat) (α : Type u) [Inhabited α] : FifoQueue depth α where
  State := List α
  next items input :=
    if input.rst then []
    else
      (if input.deqReady then items.tail else items) ++
        if input.enqValid && decide (items.length < depth) then
          [input.enqData]
        else []
  enqReady items := items.length < depth
  deqValid items := !items.isEmpty
  deqData items := items.headD default
  items := id
  enqReady_iff items := decide_eq_true_iff
  deqValid_iff items := by
    rw [Bool.not_eq_true', ← Bool.not_eq_true, List.isEmpty_iff]
    rfl
  deqData_of_head items item head := by
    rw [List.headD_eq_head?_getD]
    exact congrArg (Option.getD · default) head
  items_reset items input reset := by
    exact if_pos reset
  items_next items input runs := by
    exact if_neg (by simp [runs])

namespace FifoQueue

variable {depth : Nat} {α : Type u} (queue : FifoQueue depth α)

/-- The inputs of a queue that takes an item out whenever one goes in. -/
def exchange (valid : Bool) (item : α) : HandshakeInput α :=
  { rst := false, enqValid := valid, enqData := item, deqReady := valid }

variable {queue} {state : queue.State}

theorem enqReady_of_short (short : (queue.items state).length ≤ 1)
    (deep : 1 < depth) : queue.enqReady state = true :=
  (queue.enqReady_iff state).mpr (Nat.lt_of_le_of_lt short deep)

/-- Used so, a queue holds the last item that went in. -/
theorem items_exchange (short : (queue.items state).length ≤ 1)
    (deep : 1 < depth) (valid : Bool) (item : α) :
    queue.items (queue.next state (exchange valid item)) =
      if valid then [item] else queue.items state := by
  rw [queue.items_next _ _ rfl, enqReady_of_short short deep]
  cases valid with
  | false => exact List.append_nil _
  | true =>
      have empties : (queue.items state).tail = [] :=
        List.length_eq_zero_iff.mp (by rw [List.length_tail]; omega)
      simp [exchange, empties]

end FifoQueue

end Hdl
