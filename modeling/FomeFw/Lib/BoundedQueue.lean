import FomeFw.Lib.Machine
import Mathlib.Data.List.Basic
import Mathlib.Tactic.Common

/-! A queue of bounded size as a list, oldest first: what is put into it while there is room comes
out of it in the order it was put. -/
namespace FomeFw.BoundedQueue

variable {α : Type} {capacity : Nat} {items : List α}

inductive Call (α : Type) where
  | put (item : α)
  | putItems (items : List α)
  | get
  | clear

inductive Answer (α : Type) where
  | stored (all : Bool)
  | value (item : α)
  | nothing

/-- The answer to a call, and what can be seen of the queue behind it. -/
structure Seen (α : Type) where
  answer : Answer α
  getCount : Nat
  isEmpty : Bool
  isFull : Bool

/-- An array is stored as far as there is room. -/
def putItems (capacity : Nat) (items more : List α) : List α :=
  items ++ more.take (capacity - items.length)

def after (capacity : Nat) (items : List α) : Call α → List α
  | .put item => putItems capacity items [item]
  | .putItems more => putItems capacity items more
  | .get => items.tail
  | .clear => []

def answer (capacity : Nat) (items : List α) : Call α → Answer α
  | .put _ => .stored (items.length < capacity)
  | .putItems more => .stored (items.length + more.length ≤ capacity)
  | .get =>
    match items with
    | [] => .nothing
    | item :: _ => .value item
  | .clear => .nothing

/-- What is seen of a queue that holds these items. -/
def seen (capacity : Nat) (items : List α) (answer : Answer α) : Seen α where
  answer := answer
  getCount := items.length
  isEmpty := items.isEmpty
  isFull := items.length = capacity

def step (capacity : Nat) (items : List α) (call : Call α) : List α × Seen α :=
  let items' := after capacity items call
  (items', seen capacity items' (answer capacity items call))

/-- What a call adds to the queue. -/
def taken (capacity : Nat) (items : List α) : Call α → List α
  | .put item => [item].take (capacity - items.length)
  | .putItems more => more.take (capacity - items.length)
  | .get | .clear => []

/-- What calls have added to the queue. -/
def takenAll (capacity : Nat) (items : List α) : List (Call α) → List α
  | [] => []
  | call :: calls =>
    taken capacity items call ++ takenAll capacity (after capacity items call) calls

/-- The element that came out with an answer. -/
def Answer.values : Answer α → List α
  | .value item => [item]
  | .stored _ | .nothing => []

def returned (seen : List (Seen α)) : List α := seen.flatMap fun seen => seen.answer.values

theorem putItems_room {item : α} (room : items.length < capacity) :
    putItems capacity items [item] = items ++ [item] := by
  rw [putItems, List.take_of_length_le]
  rw [List.length_singleton]
  omega

theorem putItems_full (full : capacity ≤ items.length) (more : List α) :
    putItems capacity items more = items := by
  rw [putItems, Nat.sub_eq_zero_of_le full, List.take_zero, List.append_nil]

theorem putItems_cons {item : α} {more : List α} (room : items.length < capacity) :
    putItems capacity items (item :: more) = putItems capacity (items ++ [item]) more := by
  have left : capacity - items.length = capacity - (items ++ [item]).length + 1 := by
    rw [List.length_append, List.length_singleton]
    omega
  rw [putItems, putItems, left, List.take_succ_cons, List.append_assoc, List.singleton_append]

/-- One call other than `clear` adds to the end and takes from the front. -/
theorem append_taken {call : Call α} (kept : call ≠ .clear) :
    items ++ taken capacity items call =
      (answer capacity items call).values ++ after capacity items call := by
  cases call with
  | put item | putItems more => rfl
  | get =>
    cases items with
    | nil => rfl
    | cons item items => simp [taken, answer, Answer.values, after]
  | clear => exact absurd rfl kept

/-- Nothing is lost, doubled or reordered: what was held and what was added since is what came
out, followed by what is still held. -/
theorem append_takenAll {calls : List (Call α)} (kept : ∀ call ∈ calls, call ≠ .clear) :
    items ++ takenAll capacity items calls =
      returned (Machine.outputs (step capacity) items calls) ++
        calls.foldl (after capacity) items := by
  induction calls generalizing items with
  | nil => simp [takenAll, returned, Machine.outputs]
  | cons call calls ih =>
    obtain ⟨first, rest⟩ := List.forall_mem_cons.mp kept
    have later := @ih (after capacity items call) rest
    rw [takenAll, ← List.append_assoc, append_taken first, List.append_assoc, later,
      ← List.append_assoc]
    rfl

theorem get_putItems (room : 0 < capacity) (item : α) (more : List α) :
    (Machine.outputs (step capacity) [] [.putItems (item :: more), .get]).map Seen.answer =
      [.stored (more.length + 1 ≤ capacity), .value item] := by
  have stored : putItems capacity [] (item :: more) = item :: more.take (capacity - 1) := by
    rw [putItems_cons room, putItems]
    rfl
  simp [Machine.outputs, step, after, stored, answer, seen]

end FomeFw.BoundedQueue
