import FomeFw.Lib.Ring
import Mathlib.Data.Rat.Floor

/-! `cyclic_buffer.h` and `fifo_buffer.h`: a queue of bounded size in a circular
array. The model keeps the array as the function from indices to elements; what
lies outside `[0, maxSize)` is memory of somebody else. -/
namespace FomeFw.Containers

/-- `cyclic_buffer<T, maxSize>`. -/
structure CyclicBuffer (α : Type) (maxSize : Nat) where
  elements : Nat → α
  currentIndex : Nat
  mSize : Nat
  count : Nat

namespace CyclicBuffer

variable {α : Type} {maxSize : Nat}

def clear [Inhabited α] (b : CyclicBuffer α maxSize) : CyclicBuffer α maxSize :=
  { b with elements := fun _ => default, count := 0, currentIndex := 0 }

def setSize [Inhabited α] (b : CyclicBuffer α maxSize) (size : Nat) : CyclicBuffer α maxSize :=
  { b.clear with mSize := if size < maxSize then size else maxSize }

/-- `++idx` on the `uint16_t` copy of `currentIndex`. -/
def nextIndex (b : CyclicBuffer α maxSize) : Nat :=
  let idx := (b.currentIndex + 1) % 2 ^ 16
  if idx = b.mSize then 0 else idx

def add (b : CyclicBuffer α maxSize) (value : α) : CyclicBuffer α maxSize :=
  { b with
    elements := Function.update b.elements b.currentIndex value
    currentIndex := b.nextIndex
    count := b.count + 1 }

theorem nextIndex_eq {b : CyclicBuffer α maxSize} (inside : b.currentIndex < b.mSize)
    (fits : b.mSize ≤ 2 ^ 16) : b.nextIndex = (b.currentIndex + 1) % b.mSize := by
  rw [nextIndex]
  rcases Nat.lt_or_ge (b.currentIndex + 1) (2 ^ 16) with small | last
  · rw [Nat.mod_eq_of_lt small]
    split
    · next wraps => rw [wraps, Nat.mod_self]
    · next => rw [Nat.mod_eq_of_lt (by omega)]
  · -- the index starts anew by itself
    have whole : b.mSize = 2 ^ 16 := by omega
    have below : (b.currentIndex + 1) % 2 ^ 16 < 2 ^ 16 := Nat.mod_lt _ (by decide)
    rw [whole, if_neg (Nat.ne_of_lt below)]

/-- The index of a larger buffer never comes to its end. -/
theorem nextIndex_beyond {b : CyclicBuffer α maxSize} (beyond : 2 ^ 16 < b.mSize) :
    b.nextIndex = (b.currentIndex + 1) % 2 ^ 16 := by
  have below : (b.currentIndex + 1) % 2 ^ 16 < 2 ^ 16 := Nat.mod_lt _ (by decide)
  rw [nextIndex]
  exact if_neg (Nat.ne_of_lt (Nat.lt_trans below beyond))

/-- The two loops of `get`, with the number of rounds they may make. -/
def wrapIndex (size : Nat) : Nat → Int → Option Nat
  | 0, _ => none
  | rounds + 1, index =>
    if index < 0 then wrapIndex size rounds (index + size)
    else if (size : Int) ≤ index then wrapIndex size rounds (index - size)
    else some index.toNat

/-- There is no result where the loops have no end, which they only have with a positive size. -/
def get (b : CyclicBuffer α maxSize) (index : Int) : Option α :=
  (wrapIndex b.mSize (index.natAbs + 1) index).map b.elements

/-- The `size_t` as an `int`. -/
def getCountInt (b : CyclicBuffer α maxSize) : Int := Int.bmod b.count (2 ^ 32)

theorem getCountInt_eq {b : CyclicBuffer α maxSize} (few : b.count < 2 ^ 31) :
    b.getCountInt = b.count := by
  apply Int.bmod_eq_of_le
  · omega
  · omega

theorem wrapIndex_eq {size : Nat} (positive : 0 < size) {rounds : Nat} {index : Int}
    (enough : index.natAbs < rounds ∨ 0 < rounds ∧ 0 ≤ index ∧ index < size) :
    wrapIndex size rounds index = some (index % size).toNat := by
  induction rounds generalizing index with
  | zero => omega
  | succ rounds ih =>
    rw [wrapIndex]
    split
    · rw [ih (by omega), Int.add_emod_right]
    · split
      · rw [ih (by omega), Int.sub_emod_right]
      · rw [Int.emod_eq_of_lt (by omega) (by omega)]

theorem get_eq {b : CyclicBuffer α maxSize} (positive : 0 < b.mSize) (index : Int) :
    b.get index = some (b.elements (index % b.mSize).toNat) := by
  rw [get, wrapIndex_eq positive (by omega)]
  rfl

/-- The buffer was given these samples since it was cleared, which come newest first. -/
structure Keeps (b : CyclicBuffer α maxSize) (samples : List α) : Prop where
  positive : 0 < b.mSize
  fits : b.mSize < 2 ^ 16
  index : b.currentIndex = samples.length % b.mSize
  count : b.count = samples.length
  recent : Ring.Recent b.elements b.mSize samples

variable {b : CyclicBuffer α maxSize} {samples : List α} {value : α}

theorem setSize_keeps [Inhabited α] {size : Nat} (positive : 0 < size) (room : 0 < maxSize)
    (fits : maxSize < 2 ^ 16) : (b.setSize size).Keeps [] where
  positive := by
    simp only [setSize]
    split
    · exact positive
    · exact room
  fits := by
    simp only [setSize]
    split <;> omega
  index := (Nat.zero_mod _).symm
  count := rfl
  recent := Ring.recent_nil

theorem Keeps.clear [Inhabited α] (keeps : b.Keeps samples) : b.clear.Keeps [] where
  positive := keeps.positive
  fits := keeps.fits
  index := (Nat.zero_mod _).symm
  count := rfl
  recent := Ring.recent_nil

theorem Keeps.nextIndex (keeps : b.Keeps samples) :
    b.nextIndex = (samples.length + 1) % b.mSize := by
  have inside : b.currentIndex < b.mSize := by
    rw [keeps.index]
    exact Nat.mod_lt _ keeps.positive
  rw [nextIndex_eq inside (Nat.le_of_lt keeps.fits), keeps.index, Nat.mod_add_mod]

theorem Keeps.add (keeps : b.Keeps samples) : (b.add value).Keeps (value :: samples) where
  positive := keeps.positive
  fits := keeps.fits
  index := keeps.nextIndex
  count := by simp [CyclicBuffer.add, keeps.count]
  recent := by
    have written := @Ring.Recent.write _ _ _ _ value keeps.recent
    rwa [← keeps.index] at written

/-- Counted back from the place of the last write, the samples are found again. -/
theorem Keeps.get (keeps : b.Keeps samples) {i : Nat} (bound : i < samples.length)
    (turn : i < b.mSize) : b.get (b.currentIndex - 1 - i) = some samples[i] := by
  have place : ((b.currentIndex : Int) - 1 - i) % b.mSize =
      ((samples.length - 1 - i : Nat) : Int) % b.mSize := by
    have back : ((samples.length - 1 - i : Nat) : Int) = samples.length - 1 - i := by omega
    rw [keeps.index, back, Int.sub_sub, Int.sub_sub, Int.natCast_emod, Int.emod_sub_emod]
  rw [get_eq keeps.positive, place, ← Int.natCast_emod, Int.toNat_natCast, keeps.recent i bound turn]

end CyclicBuffer

/-- `fifo_buffer<T, maxSize>`. -/
structure FifoBuffer (α : Type) (maxSize : Nat) extends CyclicBuffer α maxSize where
  currentIndexRead : Nat

namespace FifoBuffer

variable {α : Type} {maxSize : Nat}

def getCount (b : FifoBuffer α maxSize) : Nat := b.count

def getSize (b : FifoBuffer α maxSize) : Nat := b.mSize

def isEmpty (b : FifoBuffer α maxSize) : Bool := b.getCount == 0

def isFull (b : FifoBuffer α maxSize) : Bool := b.getCount ≥ b.getSize

/-- The constructor: `setSize(maxSize)` on zeroed memory. -/
def new [Inhabited α] : FifoBuffer α maxSize where
  toCyclicBuffer :=
    CyclicBuffer.setSize ⟨fun _ => default, 0, 0, 0⟩ maxSize
  currentIndexRead := 0

/-- `put(T item)`, with its result. -/
def put (b : FifoBuffer α maxSize) (item : α) : FifoBuffer α maxSize × Bool :=
  if b.isFull then (b, false) else ({ b with toCyclicBuffer := b.add item }, true)

/-- `put(const T *items, int numItems)`: stops at the first rejected item. -/
def putItems (b : FifoBuffer α maxSize) : List α → FifoBuffer α maxSize × Bool
  | [] => (b, true)
  | item :: items =>
    match b.put item with
    | (b, true) => b.putItems items
    | (b, false) => (b, false)

def get (b : FifoBuffer α maxSize) : α × FifoBuffer α maxSize :=
  let ret := b.elements b.currentIndexRead
  if b.isEmpty then (ret, b)
  else (ret, { b with
    currentIndexRead := (b.currentIndexRead + 1) % b.mSize
    count := b.count - 1 })

def clear [Inhabited α] (b : FifoBuffer α maxSize) : FifoBuffer α maxSize :=
  { toCyclicBuffer := b.toCyclicBuffer.clear, currentIndexRead := 0 }

/-- The first `count` cells behind the pointer `getElements` returns. -/
def getElements (b : FifoBuffer α maxSize) (count : Nat) : List α :=
  (List.range count).map b.elements

/-- The cells that are in use hold exactly `items`, oldest first. -/
structure Stores (b : FifoBuffer α maxSize) (items : List α) : Prop where
  size : b.mSize = maxSize
  bounded : items.length ≤ maxSize
  count : b.count = items.length
  tail : b.currentIndexRead % maxSize = b.currentIndexRead
  head : b.currentIndex = (b.currentIndexRead + items.length) % maxSize
  laid : Ring.Laid b.elements maxSize b.currentIndexRead items

/-- The buffer stores exactly `items`, oldest first. The write index is an
`uint16_t`, so the size has to fit one. -/
structure Holds (b : FifoBuffer α maxSize) (items : List α) : Prop where
  size : b.mSize = maxSize
  positive : 0 < maxSize
  fits : maxSize < 2 ^ 16
  bounded : items.length ≤ maxSize
  count : b.count = items.length
  tail : b.currentIndexRead < maxSize
  head : b.currentIndex = (b.currentIndexRead + items.length) % maxSize
  laid : Ring.Laid b.elements maxSize b.currentIndexRead items

/-- A buffer that was never read from: its elements start at index 0. -/
structure HoldsFlat (b : FifoBuffer α maxSize) (items : List α) : Prop
    extends Holds b items where
  unread : b.currentIndexRead = 0

variable {b b' : FifoBuffer α maxSize} {items more : List α} {item : α}

theorem new_stores [Inhabited α] : Stores (new : FifoBuffer α maxSize) [] where
  size := by simp [new, CyclicBuffer.setSize]
  bounded := Nat.zero_le _
  count := rfl
  tail := Nat.zero_mod _
  head := (Nat.zero_mod _).symm
  laid := Ring.laid_nil

theorem Stores.clear [Inhabited α] (stores : Stores b items) : Stores b.clear [] where
  size := stores.size
  bounded := Nat.zero_le _
  count := rfl
  tail := Nat.zero_mod _
  head := (Nat.zero_mod _).symm
  laid := Ring.laid_nil

theorem Stores.isEmpty_iff (stores : Stores b items) : b.isEmpty = true ↔ items = [] := by
  simp [isEmpty, getCount, stores.count]

theorem Stores.isFull_iff (stores : Stores b items) : b.isFull = true ↔ items.length = maxSize := by
  have := stores.bounded
  simp only [isFull, getCount, getSize, stores.count, stores.size, ge_iff_le, decide_eq_true_eq]
  omega

theorem Stores.put_full (stores : Stores b items) (full : items.length = maxSize) :
    b.put item = (b, false) := by
  simp [put, stores.isFull_iff.mpr full]

theorem Stores.nextIndex (stores : Stores b items) (room : items.length < maxSize)
    (fits : maxSize ≤ 2 ^ 16) :
    b.nextIndex = (b.currentIndexRead + (items ++ [item]).length) % maxSize := by
  have inside : b.currentIndex < b.mSize := by
    rw [stores.size, stores.head]
    exact Nat.mod_lt _ (Nat.zero_lt_of_lt room)
  rw [CyclicBuffer.nextIndex_eq inside (by rwa [stores.size]), stores.size, stores.head,
    Nat.mod_add_mod, List.length_append, List.length_singleton, Nat.add_assoc]

theorem Stores.put_room (stores : Stores b items) (room : items.length < maxSize)
    (fits : maxSize ≤ 2 ^ 16) :
    ∃ b', b.put item = (b', true) ∧ Stores b' (items ++ [item]) ∧
      b'.currentIndexRead = b.currentIndexRead := by
  have notFull : b.isFull = false := by
    rw [Bool.eq_false_iff, ne_eq, stores.isFull_iff]
    omega
  refine ⟨{ b with toCyclicBuffer := b.add item }, by simp [put, notFull], ?_, rfl⟩
  exact {
    size := stores.size
    bounded := by simpa [Nat.succ_le_iff] using room
    count := by simp [CyclicBuffer.add, stores.count]
    tail := stores.tail
    head := stores.nextIndex room fits
    laid := by
      have written := stores.laid.write (x := item) room
      rwa [← stores.head] at written }

theorem Stores.get_cons (stores : Stores b (item :: items)) :
    ∃ b', b.get = (item, b') ∧ Stores b' items := by
  have notEmpty : b.isEmpty = false := by
    rw [Bool.eq_false_iff, ne_eq, stores.isEmpty_iff]
    exact List.cons_ne_nil _ _
  obtain ⟨oldest, rest⟩ := Ring.laid_cons.mp stores.laid
  rw [stores.tail] at oldest
  have bounded := stores.bounded
  have count := stores.count
  simp only [List.length_cons] at bounded count
  refine ⟨{ b with
    currentIndexRead := (b.currentIndexRead + 1) % b.mSize
    count := b.count - 1 }, by simp [get, notEmpty, oldest], ?_⟩
  exact {
    size := stores.size
    bounded := by omega
    count := by simp [count]
    tail := by simp only [stores.size, Nat.mod_mod]
    head := by
      simp only [stores.size, stores.head, Nat.mod_add_mod, List.length_cons]
      congr 1
      omega
    laid := by
      simp only [stores.size]
      exact rest }

theorem Holds.stores (holds : Holds b items) : Stores b items where
  size := holds.size
  bounded := holds.bounded
  count := holds.count
  tail := Nat.mod_eq_of_lt holds.tail
  head := holds.head
  laid := holds.laid

theorem Stores.holds (stores : Stores b items) (positive : 0 < maxSize) (fits : maxSize < 2 ^ 16) :
    Holds b items where
  size := stores.size
  positive := positive
  fits := fits
  bounded := stores.bounded
  count := stores.count
  tail := by
    rw [← stores.tail]
    exact Nat.mod_lt _ positive
  head := stores.head
  laid := stores.laid

theorem new_holdsFlat [Inhabited α] (positive : 0 < maxSize) (fits : maxSize < 2 ^ 16) :
    HoldsFlat (new : FifoBuffer α maxSize) [] where
  toHolds := new_stores.holds positive fits
  unread := rfl

theorem clear_holdsFlat [Inhabited α] (holds : Holds b items) : HoldsFlat b.clear [] where
  toHolds := holds.stores.clear.holds holds.positive holds.fits
  unread := rfl

theorem Holds.isEmpty_iff (holds : Holds b items) : b.isEmpty = true ↔ items = [] :=
  holds.stores.isEmpty_iff

theorem Holds.put_full (holds : Holds b items) (full : items.length = maxSize) :
    b.put item = (b, false) :=
  holds.stores.put_full full

theorem Holds.put_room (holds : Holds b items) (room : items.length < maxSize) :
    ∃ b', b.put item = (b', true) ∧ Holds b' (items ++ [item]) ∧
      b'.currentIndexRead = b.currentIndexRead := by
  obtain ⟨b', put, stores, unread⟩ := holds.stores.put_room room (Nat.le_of_lt holds.fits)
  exact ⟨b', put, stores.holds holds.positive holds.fits, unread⟩

theorem Holds.get_cons (holds : Holds b (item :: items)) :
    ∃ b', b.get = (item, b') ∧ Holds b' items := by
  obtain ⟨b', got, stores⟩ := holds.stores.get_cons
  exact ⟨b', got, stores.holds holds.positive holds.fits⟩

theorem HoldsFlat.getElements (flat : HoldsFlat b items) :
    b.getElements b.getCount = items := by
  refine List.ext_getElem (by simp [FifoBuffer.getElements, getCount, flat.count])
    fun i inside bound => ?_
  have cell := flat.laid i bound
  have small := flat.bounded
  rw [flat.unread, Nat.zero_add, Nat.mod_eq_of_lt (by omega)] at cell
  simp [FifoBuffer.getElements, cell]

/-- An array that fits is stored whole. -/
theorem HoldsFlat.putItems (flat : HoldsFlat b items)
    (room : items.length + more.length ≤ maxSize) :
    ∃ b', b.putItems more = (b', true) ∧ HoldsFlat b' (items ++ more) := by
  induction more generalizing b items with
  | nil => exact ⟨b, rfl, by simpa using flat⟩
  | cons item more ih =>
    simp only [List.length_cons] at room
    obtain ⟨b₁, put, holds, unread⟩ := @Holds.put_room _ _ _ _ item flat.toHolds (by omega)
    obtain ⟨b', rest, flat'⟩ := @ih b₁ (items ++ [item])
      ⟨holds, unread.trans flat.unread⟩ (by simp only [List.length_append, List.length_singleton]; omega)
    refine ⟨b', by simp [FifoBuffer.putItems, put, rest], by simpa using flat'⟩

/-- Items put one by one, whatever `put` answers: those that fit are stored. -/
theorem Holds.putEach (holds : Holds b items) :
    Holds (more.foldl (fun b item => (b.put item).1) b)
      (items ++ more.take (maxSize - items.length)) := by
  induction more generalizing b items with
  | nil => simpa using holds
  | cons item more ih =>
    rcases Nat.lt_or_ge items.length maxSize with room | full
    · obtain ⟨b', put, holds', -⟩ := @put_room _ _ _ _ item holds room
      have rest := ih holds'
      have left : maxSize - items.length = maxSize - (items ++ [item]).length + 1 := by
        simp only [List.length_append, List.length_singleton]
        omega
      rw [List.foldl_cons, put, left, List.take_succ_cons]
      simpa using rest
    · have none : maxSize - items.length = 0 := by omega
      have same : (b.put item).1 = b := by
        rw [holds.put_full (Nat.le_antisymm holds.bounded full)]
      have rest := ih holds
      rw [none, List.take_zero] at rest ⊢
      rwa [List.foldl_cons, same]

end FifoBuffer

end FomeFw.Containers
