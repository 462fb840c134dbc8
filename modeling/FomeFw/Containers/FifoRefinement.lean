import FomeFw.Containers.FifoBuffer
import FomeFw.Lib.BoundedQueue
import Mathlib.Data.Rat.Floor

/-! What can be seen of a `fifo_buffer` over runs of its calls is what is seen of a bounded queue,
up to the size its `uint16_t` write index can address. -/
namespace FomeFw.Containers.FifoBuffer

open BoundedQueue (Call Seen Answer)

variable {α : Type} {maxSize : Nat}

def seen (b : FifoBuffer α maxSize) (answer : Answer α) : Seen α where
  answer := answer
  getCount := b.getCount
  isEmpty := b.isEmpty
  isFull := b.isFull

/-- What `get` returns of an empty buffer is not an element of it. -/
def step [Inhabited α] (b : FifoBuffer α maxSize) : Call α → FifoBuffer α maxSize × Seen α
  | .put item =>
    let (b', ok) := b.put item
    (b', b'.seen (.stored ok))
  | .putItems items =>
    let (b', ok) := b.putItems items
    (b', b'.seen (.stored ok))
  | .get =>
    let (item, b') := b.get
    (b', b'.seen (if b.isEmpty then .nothing else .value item))
  | .clear => (b.clear, b.clear.seen .nothing)

variable {b : FifoBuffer α maxSize} {items more : List α} {item : α}

theorem Stores.put (stores : Stores b items) (fits : maxSize ≤ 2 ^ 16) (item : α) :
    ∃ b', b.put item = (b', decide (items.length < maxSize)) ∧
      Stores b' (BoundedQueue.putItems maxSize items [item]) := by
  rcases Nat.lt_or_ge items.length maxSize with room | full
  · obtain ⟨b', put, stores', -⟩ := @Stores.put_room _ _ _ _ item stores room fits
    refine ⟨b', ?_, ?_⟩
    · rw [put, decide_eq_true room]
    · rwa [BoundedQueue.putItems_room room]
  · refine ⟨b, ?_, ?_⟩
    · rw [stores.put_full (Nat.le_antisymm stores.bounded full),
        decide_eq_false (Nat.not_lt.mpr full)]
    · rwa [BoundedQueue.putItems_full full]

/-- The loop stops at the first element for which there is no room. -/
theorem Stores.putItems (stores : Stores b items) (fits : maxSize ≤ 2 ^ 16) (more : List α) :
    ∃ b', b.putItems more = (b', decide (items.length + more.length ≤ maxSize)) ∧
      Stores b' (BoundedQueue.putItems maxSize items more) := by
  induction more generalizing b items with
  | nil =>
    refine ⟨b, ?_, ?_⟩
    · rw [FifoBuffer.putItems, List.length_nil, Nat.add_zero, decide_eq_true stores.bounded]
    · simpa [BoundedQueue.putItems] using stores
  | cons item more ih =>
    rcases Nat.lt_or_ge items.length maxSize with room | full
    · obtain ⟨b₁, put, stores₁, -⟩ := @Stores.put_room _ _ _ _ item stores room fits
      obtain ⟨b', rest, stores'⟩ := ih stores₁
      refine ⟨b', ?_, ?_⟩
      · simp only [FifoBuffer.putItems, put, rest, List.length_append, List.length_cons,
          List.length_nil, Nat.zero_add, Nat.add_assoc, Nat.add_comm 1]
      · rwa [BoundedQueue.putItems_cons room]
    · refine ⟨b, ?_, ?_⟩
      · rw [FifoBuffer.putItems, stores.put_full (Nat.le_antisymm stores.bounded full),
          List.length_cons, decide_eq_false (by omega)]
      · rwa [BoundedQueue.putItems_full full]

theorem Stores.seen (stores : Stores b items) (answer : Answer α) :
    b.seen answer = BoundedQueue.seen maxSize items answer := by
  have empty : b.isEmpty = items.isEmpty := by
    rw [Bool.eq_iff_iff, stores.isEmpty_iff, List.isEmpty_iff]
  have full : b.isFull = decide (items.length = maxSize) := by
    rw [Bool.eq_iff_iff, stores.isFull_iff, decide_eq_true_iff]
  rw [FifoBuffer.seen, BoundedQueue.seen, empty, full, getCount, stores.count]

/-- One call does to the buffer what it does to the queue. -/
theorem Stores.step [Inhabited α] (stores : Stores b items) (fits : maxSize ≤ 2 ^ 16)
    (call : Call α) : (b.step call).2 = (BoundedQueue.step maxSize items call).2 ∧
      Stores (b.step call).1 (BoundedQueue.step maxSize items call).1 := by
  cases call with
  | put item =>
    obtain ⟨b', put, stores'⟩ := stores.put fits item
    simp only [FifoBuffer.step, put]
    exact ⟨stores'.seen _, stores'⟩
  | putItems more =>
    obtain ⟨b', put, stores'⟩ := stores.putItems fits more
    simp only [FifoBuffer.step, put]
    exact ⟨stores'.seen _, stores'⟩
  | get =>
    cases items with
    | nil =>
      have empty := stores.isEmpty_iff.mpr rfl
      have kept : b.get.2 = b := by simp [FifoBuffer.get, empty]
      simp only [FifoBuffer.step, kept, empty, if_true]
      exact ⟨stores.seen _, stores⟩
    | cons item items =>
      have some : b.isEmpty = false := by
        rw [Bool.eq_false_iff, ne_eq, stores.isEmpty_iff]
        exact List.cons_ne_nil _ _
      obtain ⟨b', got, stores'⟩ := stores.get_cons
      simp only [FifoBuffer.step, got, some, Bool.false_eq_true, if_false]
      exact ⟨stores'.seen _, stores'⟩
  | clear => exact ⟨stores.clear.seen _, stores.clear⟩

/-- Over every run of calls the buffer answers as a queue of its size does, and between two calls of
`clear` all that it took comes out of it in the same order, but for what it still holds. -/
theorem refines_queue [Inhabited α] (fits : maxSize ≤ 2 ^ 16) (calls : List (Call α)) :
    Machine.outputs step (new : FifoBuffer α maxSize) calls =
        Machine.outputs (BoundedQueue.step maxSize) [] calls ∧
      ((∀ call ∈ calls, call ≠ .clear) →
        BoundedQueue.takenAll maxSize [] calls =
          BoundedQueue.returned (Machine.outputs step (new : FifoBuffer α maxSize) calls) ++
            calls.foldl (BoundedQueue.after maxSize) []) := by
  have same : Machine.outputs step (new : FifoBuffer α maxSize) calls =
      Machine.outputs (BoundedQueue.step maxSize) [] calls :=
    Machine.outputs_eq (fun _ _ call stores => stores.step fits call) new_stores
  refine ⟨same, fun kept => ?_⟩
  rw [same]
  exact @BoundedQueue.append_takenAll _ maxSize [] calls kept

theorem refines_queue_three :
    Machine.outputs step (new : FifoBuffer UInt8 3) [.putItems [1, 2, 3, 4], .get, .put 5] =
        Machine.outputs (BoundedQueue.step 3) [] [.putItems [1, 2, 3, 4], .get, .put 5] ∧
      BoundedQueue.takenAll 3 ([] : List UInt8) [.putItems [1, 2, 3, 4], .get, .put 5] =
        [1] ++ [2, 3, 5] := by
  obtain ⟨same, taken⟩ :=
    @refines_queue UInt8 3 _ (by decide) [.putItems [1, 2, 3, 4], .get, .put 5]
  exact ⟨same, taken (by simp)⟩

/-- A larger buffer that was never read from: the write index has started anew every `2 ^ 16`
elements, which come newest first. -/
structure Overwritten (b : FifoBuffer α maxSize) (samples : List α) : Prop where
  size : b.mSize = maxSize
  count : b.count = samples.length
  unread : b.currentIndexRead = 0
  index : b.currentIndex = samples.length % 2 ^ 16
  recent : Ring.Recent b.elements (2 ^ 16) samples

variable {samples : List α}

theorem new_overwritten [Inhabited α] : Overwritten (new : FifoBuffer α maxSize) [] where
  size := by simp [new, CyclicBuffer.setSize]
  count := rfl
  unread := rfl
  index := (Nat.zero_mod _).symm
  recent := Ring.recent_nil

theorem Overwritten.put (overwritten : Overwritten b samples) (beyond : 2 ^ 16 < maxSize)
    (room : samples.length < maxSize) :
    ∃ b', b.put item = (b', true) ∧ Overwritten b' (item :: samples) := by
  have notFull : b.isFull = false := by
    simp only [isFull, getCount, getSize, overwritten.count, overwritten.size]
    exact decide_eq_false (Nat.not_le.mpr room)
  refine ⟨{ b with toCyclicBuffer := b.add item }, by simp [FifoBuffer.put, notFull], ?_⟩
  exact {
    size := overwritten.size
    count := by simp [CyclicBuffer.add, overwritten.count]
    unread := overwritten.unread
    index := by
      have next := CyclicBuffer.nextIndex_beyond (by rwa [overwritten.size] : 2 ^ 16 < b.mSize)
      rwa [overwritten.index, Nat.mod_add_mod] at next
    recent := by
      have written := @Ring.Recent.write _ _ _ _ item overwritten.recent
      rwa [← overwritten.index] at written }

theorem Overwritten.putItems (overwritten : Overwritten b samples) (beyond : 2 ^ 16 < maxSize)
    (room : samples.length + more.length ≤ maxSize) :
    ∃ b', b.putItems more = (b', true) ∧ Overwritten b' (more.reverse ++ samples) := by
  induction more generalizing b samples with
  | nil => exact ⟨b, rfl, overwritten⟩
  | cons item more ih =>
    rw [List.length_cons] at room
    obtain ⟨b₁, put, overwritten₁⟩ := @Overwritten.put _ _ _ item _ overwritten beyond (by omega)
    obtain ⟨b', rest, overwritten'⟩ := ih overwritten₁ (by rw [List.length_cons]; omega)
    refine ⟨b', by simp [FifoBuffer.putItems, put, rest], ?_⟩
    rwa [List.reverse_cons, List.append_assoc]

/-- Of a buffer too large for its index the element behind the first `2 ^ 16` is read in place of
the first. -/
theorem get_overwritten [Inhabited α] (beyond : 2 ^ 16 < maxSize) {first : List α}
    (whole : first.length = 2 ^ 16) (last : α) :
    (Machine.outputs step (new : FifoBuffer α maxSize) [.putItems (first ++ [last]), .get]).map
      Seen.answer = [.stored true, .value last] := by
  have room : ([] : List α).length + (first ++ [last]).length ≤ maxSize := by
    simp only [List.length_append, List.length_nil, List.length_singleton, whole]
    omega
  obtain ⟨b, put, overwritten⟩ := Overwritten.putItems new_overwritten beyond room
  rw [List.reverse_append, List.reverse_singleton, List.singleton_append, List.append_nil]
    at overwritten
  have some : b.isEmpty = false := by
    simp [isEmpty, getCount, overwritten.count]
  have newest : b.elements 0 = last := by
    have place := overwritten.recent 0 (Nat.succ_pos _) (by omega)
    simpa only [List.length_cons, List.length_reverse, whole, Nat.add_sub_cancel, Nat.sub_zero,
      Nat.mod_self, List.getElem_cons_zero] using place
  simp [Machine.outputs, step, put, FifoBuffer.get, some, overwritten.unread, newest, FifoBuffer.seen]

theorem get_lost [Inhabited α] (beyond : 2 ^ 16 < maxSize) {first last : α} (other : first ≠ last)
    {rest : List α} (whole : rest.length = 2 ^ 16 - 1) :
    Machine.outputs step (new : FifoBuffer α maxSize) [.putItems (first :: rest ++ [last]), .get] ≠
      Machine.outputs (BoundedQueue.step maxSize) [] [.putItems (first :: rest ++ [last]), .get] := by
  intro same
  have all : (first :: rest).length = 2 ^ 16 := by
    rw [List.length_cons]
    omega
  have overwritten := get_overwritten beyond all last
  rw [same, List.cons_append, BoundedQueue.get_putItems (by omega)] at overwritten
  obtain ⟨-, second⟩ := List.cons.inj overwritten
  obtain ⟨got, -⟩ := List.cons.inj second
  exact other (Answer.value.inj got)

/-- With room for 65537 bytes the first of them is lost. -/
theorem first_overwritten :
    Machine.outputs step (new : FifoBuffer UInt8 65537)
        [.putItems (0 :: List.replicate 65535 0 ++ [1]), .get] ≠
      Machine.outputs (BoundedQueue.step 65537) []
        [.putItems (0 :: List.replicate 65535 0 ++ [1]), .get] :=
  get_lost (by decide) (by decide) List.length_replicate

end FomeFw.Containers.FifoBuffer
