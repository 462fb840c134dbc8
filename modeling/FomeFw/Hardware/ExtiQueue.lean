import FomeFw.Lib.FixedArray
import FomeFw.Lib.Machine
import FomeFw.Lib.Ring
import Mathlib.Data.List.Basic
import Mathlib.Data.Rat.Floor

/-! The queue of edges between the interrupts of the pins and the handler that takes them,
`digital_input_exti.cpp`. Both ends are used with interrupts off, so its calls come one after
the other. -/
namespace FomeFw.Hardware
open Machine

/-- `ExtiQueue<T, TSize>`. The two indices are `uint8_t`. -/
structure ExtiQueue (α : Type) (size : Nat) where
  arr : FixedArray size α
  mRead : Nat := 0
  mWrite : Nat := 0

namespace ExtiQueue

variable {α : Type} {size : Nat}

/-- The condition under which `push` drops. The subtraction promotes to `int`. -/
def isFull (q : ExtiQueue α size) : Bool :=
  (q.mWrite : Int) == (q.mRead : Int) - 1 || (q.mWrite == size - 1 && q.mRead == 0)

/-- An index after its increment, back at the start of the list at its end. -/
def next (size index : Nat) : Nat :=
  let index := (index + 1) % 2 ^ 8
  if index = size then 0 else index

def push (q : ExtiQueue α size) (val : α) : Option (ExtiQueue α size) :=
  if q.isFull then some q
  else do
    let arr ← q.arr.store q.mWrite val
    some { q with arr := arr, mWrite := next size q.mWrite }

/-- The value, or none for `unexpected`. -/
def pop (q : ExtiQueue α size) : Option (Option α × ExtiQueue α size) :=
  if q.mRead = q.mWrite then some (none, q)
  else do
    let value ← q.arr.load q.mRead
    some (some value, { q with mRead := next size q.mRead })

/-- The queue stores exactly `items`, oldest first. -/
structure Holds (q : ExtiQueue α size) (items : List α) : Prop where
  reads : q.mRead < size
  room : items.length < size
  writes : q.mWrite = (q.mRead + items.length) % size
  laid : Ring.Laid q.arr.load size q.mRead (items.map some)

variable {q : ExtiQueue α size} {items : List α} {item : α}

theorem new_holds (arr : FixedArray size α) (two : 2 ≤ size) : Holds { arr := arr } [] where
  reads := by
    show 0 < size
    omega
  room := by
    show 0 < size
    omega
  writes := (Nat.zero_mod _).symm
  laid := Ring.laid_nil

theorem next_eq (fits : size ≤ 255) (inside : i < size) : next size i = (i + 1) % size := by
  have small : (i + 1) % 2 ^ 8 = i + 1 := Nat.mod_eq_of_lt (by omega)
  simp only [next, small]
  split
  · next wraps => rw [wraps, Nat.mod_self]
  · next => rw [Nat.mod_eq_of_lt (by omega)]

theorem next_lt (fits : size ≤ 255) (inside : i < size) : next size i < size := by
  rw [next_eq fits inside]
  exact Nat.mod_lt _ (by omega)

theorem Holds.mWrite_cases (holds : Holds q items) :
    q.mWrite = q.mRead + items.length ∧ q.mRead + items.length < size ∨
      q.mWrite + size = q.mRead + items.length := by
  have reads := holds.reads
  have room := holds.room
  rcases Nat.lt_or_ge (q.mRead + items.length) size with straight | wraps
  · exact .inl ⟨by rw [holds.writes, Nat.mod_eq_of_lt straight], straight⟩
  · right
    rw [holds.writes, Nat.mod_eq_sub_mod wraps, Nat.mod_eq_of_lt (by omega)]
    omega

theorem Holds.mWrite_lt (holds : Holds q items) : q.mWrite < size := by
  rw [holds.writes]
  exact Nat.mod_lt _ (by have := holds.reads; omega)

/-- One cell always stays free. -/
theorem Holds.isFull_iff (holds : Holds q items) : q.isFull = true ↔ items.length = size - 1 := by
  have reads := holds.reads
  have room := holds.room
  simp only [isFull, Bool.or_eq_true, Bool.and_eq_true, beq_iff_eq]
  obtain ⟨writes, straight⟩ | wraps := holds.mWrite_cases
  all_goals omega

theorem Holds.empty_iff (holds : Holds q items) : q.mRead = q.mWrite ↔ items = [] := by
  have reads := holds.reads
  have room := holds.room
  rw [← List.length_eq_zero_iff]
  obtain ⟨writes, straight⟩ | wraps := holds.mWrite_cases
  all_goals omega

theorem push_full (full : q.isFull = true) : q.push item = some q := by
  rw [push, if_pos full]

theorem Holds.push_room (fits : size ≤ 255) (holds : Holds q items) (room : q.isFull = false) :
    ∃ q', q.push item = some q' ∧ Holds q' (items ++ [item]) := by
  have reads := holds.reads
  have inside := holds.mWrite_lt
  have short : items.length ≠ size - 1 := by
    rw [ne_eq, ← holds.isFull_iff, room]
    exact Bool.false_ne_true
  have below := holds.room
  obtain ⟨arr, stored⟩ := q.arr.store_of_lt inside item
  refine ⟨{ q with arr := arr, mWrite := next size q.mWrite }, by simp [push, room, stored], ?_⟩
  exact {
    reads := reads
    room := by
      simp only [List.length_append, List.length_singleton]
      omega
    writes := by
      simp only [next_eq fits inside, List.length_append, List.length_singleton]
      rw [holds.writes, Nat.mod_add_mod, Nat.add_assoc]
    laid := by
      have written := holds.laid.write (x := some item) (by simpa using below)
      have cells : arr.load = Function.update q.arr.load q.mWrite (some item) := by
        funext j
        rw [FixedArray.load_of_store stored, Function.update_apply]
      rw [List.length_map, ← holds.writes] at written
      simpa [cells] using written }

theorem Holds.pop_nil (holds : Holds q []) : q.pop = some (none, q) := by
  rw [pop, if_pos (holds.empty_iff.mpr rfl)]

theorem Holds.pop_cons (fits : size ≤ 255) (holds : Holds q (item :: items)) :
    ∃ q', q.pop = some (some item, q') ∧ Holds q' items := by
  have reads := holds.reads
  have nonempty : q.mRead ≠ q.mWrite := by
    rw [ne_eq, holds.empty_iff]
    exact List.cons_ne_nil _ _
  obtain ⟨oldest, rest⟩ := Ring.laid_cons.mp (List.map_cons ▸ holds.laid)
  rw [Nat.mod_eq_of_lt reads] at oldest
  have room := holds.room
  have writes := holds.writes
  rw [List.length_cons] at room writes
  refine ⟨{ q with mRead := next size q.mRead }, by simp [pop, nonempty, oldest], ?_⟩
  exact {
    reads := next_lt fits reads
    room := by omega
    writes := by
      simp only [next_eq fits reads]
      rw [writes, Nat.mod_add_mod, Nat.add_assoc, Nat.add_comm 1]
    laid := by
      simp only [next_eq fits reads]
      exact rest }

end ExtiQueue

/-! ## Runs of the queue -/

inductive QueueCall (α : Type) where
  | push (val : α)
  | pop

/-- A queue with what it took and what it gave so far. -/
structure QueueHistory (α : Type) (size : Nat) where
  queue : ExtiQueue α size
  accepted : List α := []
  popped : List α := []

namespace QueueHistory

variable {α : Type} {size : Nat}

def call (h : QueueHistory α size) : QueueCall α → Option (QueueHistory α size)
  | .push val => do
    let queue ← h.queue.push val
    some { h with
      queue := queue
      accepted := if h.queue.isFull then h.accepted else h.accepted ++ [val] }
  | .pop => do
    let (value, queue) ← h.queue.pop
    some { h with queue := queue, popped := h.popped ++ value.toList }

/-- A bounded queue: what was popped is what was accepted, in order, as far as it is not stored
any more; just a queue with `size - 1` entries drops, and just one with none is empty. -/
structure BoundedFifo (h : QueueHistory α size) : Prop where
  inOrder : ∃ stored, h.accepted = h.popped ++ stored ∧
    (h.queue.isFull = true ↔ stored.length = size - 1) ∧
    (h.queue.pop = some (none, h.queue) ↔ stored = [])
  mRead_lt : h.queue.mRead < size
  mWrite_lt : h.queue.mWrite < size

def Kept (h : QueueHistory α size) : Prop :=
  ∃ stored, h.queue.Holds stored ∧ h.accepted = h.popped ++ stored

variable {h : QueueHistory α size}

theorem Kept.boundedFifo (kept : Kept h) : BoundedFifo h := by
  obtain ⟨stored, holds, inOrder⟩ := kept
  refine ⟨⟨stored, inOrder, holds.isFull_iff, ?_⟩, holds.reads, holds.mWrite_lt⟩
  constructor
  · intro empty
    rw [← holds.empty_iff]
    by_contra differ
    obtain ⟨value, loaded⟩ := h.queue.arr.load_of_lt holds.reads
    simp [ExtiQueue.pop, differ, loaded] at empty
  · rintro rfl
    exact holds.pop_nil

theorem Kept.call (fits : size ≤ 255) (kept : Kept h) (c : QueueCall α) :
    ∃ h', h.call c = some h' ∧ Kept h' := by
  obtain ⟨stored, holds, inOrder⟩ := kept
  cases c with
  | push val =>
    cases full : h.queue.isFull with
    | true =>
      have dropped := @ExtiQueue.push_full _ _ _ val full
      exact ⟨h, by simp [QueueHistory.call, dropped, full], stored, holds, inOrder⟩
    | false =>
      obtain ⟨queue, pushed, holds'⟩ := @ExtiQueue.Holds.push_room _ _ _ _ val fits holds full
      refine ⟨{ h with queue := queue, accepted := h.accepted ++ [val] },
        by simp [QueueHistory.call, pushed, full], stored ++ [val], holds', ?_⟩
      simp [inOrder]
  | pop =>
    cases stored with
    | nil => exact ⟨h, by simp [QueueHistory.call, holds.pop_nil], [], holds, inOrder⟩
    | cons item stored =>
      obtain ⟨queue, popped, holds'⟩ := holds.pop_cons fits
      refine ⟨{ h with queue := queue, popped := h.popped ++ [item] },
        by simp [QueueHistory.call, popped], stored, holds', ?_⟩
      simp [inOrder]

/-- Every order of calls finds a bounded queue, from the first one on; no call leaves the
array. -/
theorem along_boundedFifo (two : 2 ≤ size) (fits : size ≤ 255) (arr : FixedArray size α)
    (calls : List (QueueCall α)) :
    Along QueueHistory.call BoundedFifo { queue := { arr := arr } } calls := by
  have start : Kept { queue := { arr := arr } } := ⟨[], ExtiQueue.new_holds arr two, rfl⟩
  exact along_of_keeps (fun _ kept => kept.boundedFifo) (fun _ c kept => kept.call fits c) start

/-- The smallest queue: the second push is dropped. -/
theorem along_boundedFifo_two :
    2 ≤ 2 ∧ 2 ≤ 255 ∧ Along QueueHistory.call BoundedFifo
      { queue := { arr := (FixedArray.fill 0 : FixedArray 2 Nat) } } [.push 5, .push 6, .pop, .pop] :=
  ⟨by decide, by decide, along_boundedFifo (by decide) (by decide) _ _⟩

end QueueHistory

end FomeFw.Hardware
