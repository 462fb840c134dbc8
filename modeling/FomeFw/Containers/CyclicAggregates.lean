import FomeFw.Containers.FifoBuffer
import FomeFw.Lib.Machine
import Mathlib.Order.Bounds.Basic
import Mathlib.Algebra.Order.Ring.Rat
import Mathlib.Tactic.NormNum

/-! The queries of `cyclic_buffer.h` over the last values added: what they read of the buffer, and
when that is what they are asked for. -/
namespace FomeFw.Containers

/-- `std::numeric_limits<T>`. -/
class NumericLimits (α : Type) where
  min : α
  max : α

/-- Of `int`. -/
instance : NumericLimits ℤ where
  min := -2 ^ 31
  max := 2 ^ 31 - 1

/-- Of `float`, where `min` is the smallest positive normal value. -/
instance : NumericLimits ℚ where
  min := 1 / 2 ^ 126
  max := (2 - 1 / 2 ^ 23) * 2 ^ 127

namespace CyclicBuffer

variable {α : Type} {maxSize : Nat}

/-- `while (index < 0)` of the queries, with the number of rounds it may make. -/
def liftIndex (size : Nat) : Nat → Int → Option Nat
  | 0, _ => none
  | rounds + 1, index => if index < 0 then liftIndex size rounds (index + size) else some index.toNat

/-- `elements[index]` with `index` at `ci - i - 1`, which is a `size_t` before it is an `int`. -/
def readBack (b : CyclicBuffer α maxSize) (i : Nat) : Option α :=
  let index := Int.bmod ((b.currentIndex : Int) - i - 1) (2 ^ 32)
  (liftIndex b.mSize (index.natAbs + 1) index).map b.elements

/-- `length` where there is enough data in the buffer. The counter is a `size_t`. -/
def clip (b : CyclicBuffer α maxSize) (length : Nat) : Nat :=
  let count := b.count % 2 ^ 32
  if length > count then count else length

/-- The loop of the queries over the values, newest first. -/
def aggregate (b : CyclicBuffer α maxSize) (length : Nat) (start : α) (next : α → α → α) :
    Option α :=
  (List.range (b.clip length)).foldlM (fun result i => (b.readBack i).map (next result)) start

def sum [Zero α] [Add α] (b : CyclicBuffer α maxSize) (length : Nat) : Option α :=
  b.aggregate length 0 fun result element => result + element

section Ordered

variable [LinearOrder α]

def maxValue [NumericLimits α] (b : CyclicBuffer α maxSize) (length : Nat) : Option α :=
  b.aggregate length NumericLimits.min fun result element =>
    if element > result then element else result

def minValue [NumericLimits α] (b : CyclicBuffer α maxSize) (length : Nat) : Option α :=
  b.aggregate length NumericLimits.max fun result element =>
    if element < result then element else result

def contains (b : CyclicBuffer α maxSize) (value : α) : Bool :=
  (List.range b.currentIndex).any fun i => b.elements i == value

end Ordered

/-! ## Runs -/

inductive Call (α : Type) where
  | add (value : α)
  | setSize (size : Nat)
  | clear

/-- A buffer with the values added since it was cleared, newest first. -/
structure History (α : Type) (maxSize : Nat) where
  buffer : CyclicBuffer α maxSize
  samples : List α

/-- There is no step for a write outside of `elements`. -/
def History.step [Inhabited α] (h : History α maxSize) : Call α → Option (History α maxSize)
  | .add value =>
    if h.buffer.currentIndex < maxSize then some ⟨h.buffer.add value, value :: h.samples⟩ else none
  | .setSize size => some ⟨h.buffer.setSize size, []⟩
  | .clear => some ⟨h.buffer.clear, []⟩

/-- The constructor, on whatever was in the memory. -/
def History.new [Inhabited α] (memory : CyclicBuffer α maxSize) (size : Nat) : History α maxSize :=
  ⟨memory.setSize size, []⟩

/-- Without a size the index never starts anew. -/
structure Unwrapped (b : CyclicBuffer α maxSize) (samples : List α) : Prop where
  size : b.mSize = 0
  room : samples.length ≤ maxSize
  index : b.currentIndex = samples.length
  count : b.count = samples.length
  laid : ∀ i (bound : i < samples.length), b.elements (samples.length - 1 - i) = samples[i]

/-- The buffer was given these samples since it was cleared. -/
inductive Given (b : CyclicBuffer α maxSize) (samples : List α) : Prop
  | wrapping (keeps : b.Keeps samples)
  | unwrapped (unwrapped : b.Unwrapped samples)

variable {b : CyclicBuffer α maxSize} {samples : List α} {value : α}

theorem Unwrapped.empty [Inhabited α] (none : b.mSize = 0) : b.clear.Unwrapped [] where
  size := none
  room := Nat.zero_le _
  index := rfl
  count := rfl
  laid := fun i bound => absurd bound (Nat.not_lt_zero i)

theorem Unwrapped.add (unwrapped : b.Unwrapped samples) (fits : maxSize < 2 ^ 16)
    (inside : b.currentIndex < maxSize) : (b.add value).Unwrapped (value :: samples) where
  size := unwrapped.size
  room := by
    rw [unwrapped.index] at inside
    rwa [List.length_cons]
  index := by
    have next : (b.currentIndex + 1) % 2 ^ 16 = b.currentIndex + 1 := Nat.mod_eq_of_lt (by omega)
    simp only [CyclicBuffer.add, nextIndex, next, unwrapped.size, List.length_cons]
    rw [if_neg (Nat.succ_ne_zero _), unwrapped.index]
  count := by simp [CyclicBuffer.add, unwrapped.count]
  laid := by
    intro i bound
    rw [List.length_cons] at bound
    simp only [CyclicBuffer.add, unwrapped.index, List.length_cons, Nat.add_sub_cancel]
    cases i with
    | zero => simp
    | succ i =>
      rw [Function.update_of_ne (by omega), List.getElem_cons_succ, ← unwrapped.laid i (by omega)]
      congr 1
      omega

theorem Given.count (given : b.Given samples) : b.count = samples.length := by
  cases given with
  | wrapping keeps => exact keeps.count
  | unwrapped unwrapped => exact unwrapped.count

theorem Given.setSize [Inhabited α] (fits : maxSize < 2 ^ 16) (size : Nat) :
    (b.setSize size).Given [] := by
  rcases Nat.eq_zero_or_pos (min size maxSize) with none | some
  · apply Given.unwrapped
    refine { size := ?_, room := Nat.zero_le _, index := rfl, count := rfl, laid := ?_ }
    · simp only [CyclicBuffer.setSize]
      split <;> omega
    · exact fun i bound => absurd bound (Nat.not_lt_zero i)
  · exact .wrapping (setSize_keeps (by omega) (by omega) fits)

theorem Given.clear [Inhabited α] (given : b.Given samples) : b.clear.Given [] := by
  cases given with
  | wrapping keeps => exact .wrapping keeps.clear
  | unwrapped unwrapped => exact .unwrapped (Unwrapped.empty unwrapped.size)

theorem Given.add (given : b.Given samples) (fits : maxSize < 2 ^ 16)
    (inside : b.currentIndex < maxSize) : (b.add value).Given (value :: samples) := by
  cases given with
  | wrapping keeps => exact .wrapping keeps.add
  | unwrapped unwrapped => exact .unwrapped (unwrapped.add fits inside)

/-- Whatever the run, the buffer was given what its history says. -/
theorem History.given [Inhabited α] {memory : CyclicBuffer α maxSize} {size : Nat}
    {calls : List (Call α)} {h : History α maxSize} (fits : maxSize < 2 ^ 16)
    (ran : Machine.run step (new memory size) calls = some h) : h.buffer.Given h.samples := by
  refine Machine.run_invariant (P := fun h => h.buffer.Given h.samples) ?_
    (Given.setSize fits size) ran
  intro h call h' given taken
  cases call with
  | add value =>
    obtain ⟨inside, added⟩ := Option.ite_none_right_eq_some.mp taken
    obtain rfl := Option.some.inj added
    exact given.add fits inside
  | setSize size =>
    obtain rfl := Option.some.inj taken
    exact Given.setSize fits size
  | clear =>
    obtain rfl := Option.some.inj taken
    exact given.clear

/-- With sizes of at least 1 no run writes outside of the buffer. -/
theorem History.run_of_sizes [Inhabited α] {h : History α maxSize} (fits : maxSize < 2 ^ 16)
    (positive : 0 < maxSize) (keeps : h.buffer.Keeps h.samples) (bound : h.buffer.mSize ≤ maxSize)
    {calls : List (Call α)} (sizes : ∀ size, .setSize size ∈ calls → 0 < size) :
    ∃ h', Machine.run step h calls = some h' := by
  induction calls generalizing h with
  | nil => exact ⟨h, rfl⟩
  | cons call calls ih =>
    have rest : ∀ size, .setSize size ∈ calls → 0 < size :=
      fun size member => sizes size (List.mem_cons_of_mem _ member)
    cases call with
    | add value =>
      have inside : h.buffer.currentIndex < maxSize := by
        rw [keeps.index]
        exact Nat.lt_of_lt_of_le (Nat.mod_lt _ keeps.positive) bound
      obtain ⟨h', ran⟩ := @ih ⟨h.buffer.add value, value :: h.samples⟩ keeps.add bound rest
      exact ⟨h', by rw [Machine.run_cons, step, if_pos inside]; exact ran⟩
    | setSize size =>
      have some : 0 < size := sizes size List.mem_cons_self
      apply @ih ⟨h.buffer.setSize size, []⟩ (setSize_keeps some positive fits) _ rest
      simp only [CyclicBuffer.setSize]
      split <;> omega
    | clear => exact @ih ⟨h.buffer.clear, []⟩ keeps.clear bound rest

/-! ## What the queries read -/

/-- The first `length` values, newest first, in turns of `size`. -/
def inTurns (size : Nat) (samples : List α) (places : List Nat) : List α :=
  places.filterMap fun i => samples[i % size]?

theorem liftIndex_nonneg {size rounds : Nat} {index : Int} (enough : 0 < rounds)
    (nonneg : 0 ≤ index) : liftIndex size rounds index = some index.toNat := by
  cases rounds with
  | zero => omega
  | succ rounds => rw [liftIndex, if_neg (by omega)]

/-- From below the size both loops of `get` do no more. -/
theorem liftIndex_eq {size rounds : Nat} {index : Int} (below : index < size) :
    liftIndex size rounds index = wrapIndex size rounds index := by
  induction rounds generalizing index with
  | zero => rfl
  | succ rounds ih =>
    rw [liftIndex, wrapIndex]
    split
    · exact ih (by omega)
    · rw [if_neg (by omega)]

/-- Counted back from the write index the samples come again after each turn. -/
theorem Keeps.readBack (keeps : b.Keeps samples) (few : samples.length < 2 ^ 31) {i : Nat}
    (bound : i < samples.length) : b.readBack i = samples[i % b.mSize]? := by
  have inside : b.currentIndex < b.mSize := by
    rw [keeps.index]
    exact Nat.mod_lt _ keeps.positive
  have fits := keeps.fits
  have turn : i % b.mSize < b.mSize := Nat.mod_lt _ keeps.positive
  have earlier : i % b.mSize < samples.length := Nat.lt_of_le_of_lt (Nat.mod_le _ _) bound
  have whole : Int.bmod ((b.currentIndex : Int) - i - 1) (2 ^ 32) = b.currentIndex - i - 1 := by
    apply Int.bmod_eq_of_le <;> omega
  have place : ((b.currentIndex : Int) - i - 1) % b.mSize =
      ((samples.length - 1 - i % b.mSize : Nat) : Int) % b.mSize := by
    have back : ((samples.length - 1 - i % b.mSize : Nat) : Int) =
        samples.length - 1 - (i : Int) % b.mSize := by omega
    rw [back, Int.sub_emod_emod, keeps.index, Int.natCast_emod, Int.sub_sub, Int.sub_sub,
      Int.emod_sub_emod, Int.add_comm]
  rw [CyclicBuffer.readBack, whole, liftIndex_eq (by omega), wrapIndex_eq keeps.positive (by omega),
    place, ← Int.natCast_emod, Int.toNat_natCast, Option.map_some,
    keeps.recent _ earlier turn, List.getElem?_eq_getElem earlier]

theorem Unwrapped.readBack (unwrapped : b.Unwrapped samples) (few : samples.length < 2 ^ 31) {i : Nat}
    (bound : i < samples.length) : b.readBack i = samples[i % b.mSize]? := by
  have index := unwrapped.index
  have whole : Int.bmod ((b.currentIndex : Int) - i - 1) (2 ^ 32) =
      ((samples.length - 1 - i : Nat) : Int) := by
    rw [Int.bmod_eq_of_le] <;> omega
  rw [CyclicBuffer.readBack, whole, liftIndex_nonneg (by omega) (by omega), Int.toNat_natCast,
    Option.map_some, unwrapped.laid i bound, unwrapped.size, Nat.mod_zero,
    List.getElem?_eq_getElem bound]

theorem Given.readBack (given : b.Given samples) (few : samples.length < 2 ^ 31) {i : Nat}
    (bound : i < samples.length) : b.readBack i = samples[i % b.mSize]? := by
  cases given with
  | wrapping keeps => exact keeps.readBack few bound
  | unwrapped unwrapped => exact unwrapped.readBack few bound

theorem Given.index (given : b.Given samples) : b.currentIndex = samples.length % b.mSize := by
  cases given with
  | wrapping keeps => exact keeps.index
  | unwrapped unwrapped => rw [unwrapped.index, unwrapped.size, Nat.mod_zero]

theorem Given.inside (given : b.Given samples) : b.currentIndex ≤ samples.length := by
  rw [given.index]
  exact Nat.mod_le _ _

/-- Below the write index stand the values added since it was 0. -/
theorem Given.element (given : b.Given samples) {i : Nat} (place : i < b.currentIndex) :
    samples[b.currentIndex - 1 - i]? = some (b.elements i) := by
  have inside := given.inside
  have index := given.index
  have bound : b.currentIndex - 1 - i < samples.length := by omega
  rw [List.getElem?_eq_getElem bound]
  cases given with
  | wrapping keeps =>
    have turn : b.currentIndex < b.mSize := by
      rw [index]
      exact Nat.mod_lt _ keeps.positive
    have turns := Nat.div_add_mod samples.length b.mSize
    rw [← index] at turns
    have back : samples.length - 1 - (b.currentIndex - 1 - i) =
        i + b.mSize * (samples.length / b.mSize) := by omega
    rw [← keeps.recent (b.currentIndex - 1 - i) bound (by omega), back,
      Nat.add_mul_mod_self_left, Nat.mod_eq_of_lt (by omega)]
  | unwrapped unwrapped =>
    have whole := unwrapped.index
    have back : samples.length - 1 - (b.currentIndex - 1 - i) = i := by omega
    rw [← unwrapped.laid (b.currentIndex - 1 - i) bound, back]

theorem Given.clip (given : b.Given samples) (few : samples.length < 2 ^ 31) (length : Nat) :
    b.clip length = min length samples.length := by
  have count : b.count % 2 ^ 32 = samples.length := by
    rw [given.count]
    exact Nat.mod_eq_of_lt (by omega)
  simp only [CyclicBuffer.clip, count]
  split <;> omega

theorem foldlM_map {β : Type} {next : β → α → β} {start : β} {read : Nat → Option α}
    {places : List Nat} (present : ∀ i ∈ places, (read i).isSome) :
    places.foldlM (fun result i => (read i).map (next result)) start =
      some ((places.filterMap read).foldl next start) := by
  induction places generalizing start with
  | nil => rfl
  | cons i places ih =>
    obtain ⟨first, rest⟩ := List.forall_mem_cons.mp present
    obtain ⟨element, found⟩ := Option.isSome_iff_exists.mp first
    rw [List.foldlM_cons, found, List.filterMap_cons_some found, List.foldl_cons, ← ih rest]
    rfl

/-- A query goes through the values in turns of the size. -/
theorem Given.aggregate (given : b.Given samples) (few : samples.length < 2 ^ 31) (length : Nat)
    (start : α) (next : α → α → α) : b.aggregate length start next =
      some ((inTurns b.mSize samples (List.range (min length samples.length))).foldl next start) := by
  have read : ∀ i ∈ List.range (min length samples.length),
      b.readBack i = samples[i % b.mSize]? := by
    intro i inside
    rw [List.mem_range] at inside
    exact given.readBack few (by omega)
  rw [CyclicBuffer.aggregate, given.clip few, foldlM_map, inTurns, List.filterMap_congr read]
  intro i inside
  have bound := List.mem_range.mp inside
  have earlier : i % b.mSize < samples.length := Nat.lt_of_le_of_lt (Nat.mod_le _ _) (by omega)
  rw [read i inside, List.getElem?_eq_getElem earlier]
  rfl

namespace History

variable {h : History α maxSize}

/-- The last `length` values, as far as the buffer has room for them. -/
def window (h : History α maxSize) (length : Nat) : List α :=
  h.samples.take (min length h.buffer.mSize)

/-- What is read again when more is asked for. -/
def again (h : History α maxSize) (length : Nat) : List α :=
  inTurns h.buffer.mSize h.samples
    ((List.range (min length h.samples.length)).drop h.buffer.mSize)

/-- The values added since the write index was 0. Without a size it does not get there again. -/
def sinceWrap (h : History α maxSize) : List α :=
  h.samples.take (h.samples.length % h.buffer.mSize)

theorem filterMap_range (k : Nat) (xs : List α) :
    (List.range k).filterMap (fun i => xs[i]?) = xs.take k := by
  induction k with
  | zero => rfl
  | succ k ih => rw [List.range_succ, List.filterMap_append, ih, List.take_add_one]; rfl

/-- The first turn reads the window. -/
theorem inTurns_eq (h : History α maxSize) (length : Nat) :
    inTurns h.buffer.mSize h.samples (List.range (min length h.samples.length)) =
      h.window length ++ h.again length := by
  have first : inTurns h.buffer.mSize h.samples
      (List.range (min h.buffer.mSize (min length h.samples.length))) = h.window length := by
    have within : ∀ i ∈ List.range (min h.buffer.mSize (min length h.samples.length)),
        h.samples[i % h.buffer.mSize]? = h.samples[i]? := by
      intro i inside
      rw [List.mem_range] at inside
      rw [Nat.mod_eq_of_lt (by omega)]
    rw [inTurns, List.filterMap_congr within, filterMap_range, window, List.take_eq_take_iff]
    omega
  rw [← first, again, inTurns, inTurns, inTurns, ← List.filterMap_append,
    ← @List.take_range h.buffer.mSize, List.take_append_drop]

theorem again_nil {length : Nat} (once : min length h.samples.length ≤ h.buffer.mSize) :
    h.again length = [] := by
  rw [again, List.drop_eq_nil_of_le (by rwa [List.length_range])]
  rfl

/-- With a size, nothing else than the window is read again. -/
theorem again_subset {length : Nat} (positive : 0 < h.buffer.mSize) {v : α}
    (read : v ∈ h.again length) : v ∈ h.window length := by
  obtain ⟨i, place, found⟩ := List.mem_filterMap.mp read
  have inside := List.mem_range.mp (List.mem_of_mem_drop place)
  have turn : i % h.buffer.mSize < h.buffer.mSize := Nat.mod_lt _ positive
  have earlier : i % h.buffer.mSize ≤ i := Nat.mod_le _ _
  apply List.mem_of_getElem? (i := i % h.buffer.mSize)
  rw [window, List.getElem?_take_of_lt (by omega)]
  exact found

end History

/-- The loop of `maxValue` comes to the greatest of its start value and the values. -/
theorem foldl_greatest [LinearOrder α] (start : α) (values : List α) :
    IsGreatest {v | v = start ∨ v ∈ values}
      (values.foldl (fun result element => if element > result then element else result) start) := by
  induction values generalizing start with
  | nil => simp
  | cons element values ih =>
    rw [List.foldl_cons]
    rcases lt_or_ge start element with larger | small
    · rw [if_pos larger]
      obtain ⟨attained, above⟩ := ih element
      refine ⟨?_, ?_⟩
      · rw [Set.mem_ofPred_eq, List.mem_cons]
        exact .inr attained
      · rintro v (rfl | member)
        · exact le_trans (le_of_lt larger) (above (.inl rfl))
        · exact above (List.mem_cons.mp member)
    · rw [if_neg (not_lt_of_ge small)]
      obtain ⟨attained, above⟩ := ih start
      refine ⟨attained.imp_right (List.mem_cons_of_mem _), ?_⟩
      rintro v (rfl | member)
      · exact above (.inl rfl)
      · rcases List.mem_cons.mp member with rfl | member
        · exact le_trans small (above (.inl rfl))
        · exact above (.inr member)

/-- The greatest of the values read and a start value is the greatest of the window just where the
window comes up to the start. -/
theorem History.greatest_iff [LinearOrder α] {h : History α maxSize} {length : Nat} {start result : α}
    (greatest : IsGreatest {v | v = start ∨ v ∈ h.window length ++ h.again length} result) :
    IsGreatest {v | v ∈ h.window length} result ↔ ∃ v ∈ h.window length, start ≤ v := by
  obtain ⟨attained, above⟩ := greatest
  constructor
  · intro same
    exact ⟨result, same.1, above (.inl rfl)⟩
  · rintro ⟨v, member, reaches⟩
    have upper : result ∈ upperBounds {v | v ∈ h.window length} := by
      intro v member
      exact above (.inr (List.mem_append_left _ member))
    refine ⟨?_, upper⟩
    have positive : 0 < h.buffer.mSize := by
      by_contra none
      simp [window, Nat.eq_zero_of_not_pos none] at member
    rcases attained with rfl | read
    · rwa [Set.mem_ofPred_eq, le_antisymm reaches (upper member)]
    · rcases List.mem_append.mp read with first | again
      · exact first
      · exact again_subset positive again

inductive Query (α : Type) where
  | sum (length : Nat)
  | minValue (length : Nat)
  | maxValue (length : Nat)
  | contains (value : α)

namespace History

variable {h : History α maxSize} [LinearOrder α] [Zero α] [Add α] [NumericLimits α]

/-- A query describes the last values added. -/
def Describes (h : History α maxSize) : Query α → Prop
  | .sum length => h.buffer.sum length = some ((h.window length).foldl (· + ·) 0)
  | .minValue length =>
    ∃ least, h.buffer.minValue length = some least ∧ IsLeast {v | v ∈ h.window length} least
  | .maxValue length =>
    ∃ greatest, h.buffer.maxValue length = some greatest ∧
      IsGreatest {v | v ∈ h.window length} greatest
  | .contains value => h.buffer.contains value = true ↔ value ∈ h.samples.take h.buffer.mSize

/-- What is asked for more than once adds nothing, one of the values is not beyond the start value,
and a value is found since the write index was 0. -/
def Suits (h : History α maxSize) : Query α → Prop
  | .sum length =>
    let sum := (h.window length).foldl (· + ·) 0
    min length h.samples.length ≤ h.buffer.mSize ∨ (h.again length).foldl (· + ·) sum = sum
  | .minValue length => ∃ v ∈ h.window length, v ≤ NumericLimits.max
  | .maxValue length => ∃ v ∈ h.window length, NumericLimits.min ≤ v
  | .contains value => value ∈ h.sinceWrap ↔ value ∈ h.samples.take h.buffer.mSize

theorem sum_iff (given : h.buffer.Given h.samples) (few : h.samples.length < 2 ^ 31) (length : Nat) :
    h.Describes (.sum length) ↔ h.Suits (.sum length) := by
  rw [Describes, CyclicBuffer.sum, given.aggregate few, inTurns_eq, List.foldl_append, Option.some_inj]
  constructor
  · exact .inr
  · rintro (once | same)
    · rw [again_nil once]
      rfl
    · exact same

theorem maxValue_iff (given : h.buffer.Given h.samples) (few : h.samples.length < 2 ^ 31)
    (length : Nat) : h.Describes (.maxValue length) ↔ h.Suits (.maxValue length) := by
  rw [Describes, CyclicBuffer.maxValue, given.aggregate few, inTurns_eq]
  simp only [Option.some_inj, exists_eq_left']
  exact greatest_iff (foldl_greatest _ _)

/-- `minValue` is `maxValue` in the other order. -/
theorem minValue_iff (given : h.buffer.Given h.samples) (few : h.samples.length < 2 ^ 31)
    (length : Nat) : h.Describes (.minValue length) ↔ h.Suits (.minValue length) := by
  rw [Describes, CyclicBuffer.minValue, given.aggregate few, inTurns_eq]
  simp only [Option.some_inj, exists_eq_left']
  exact @greatest_iff αᵒᵈ _ _ h _ _ _ (@foldl_greatest αᵒᵈ _ _ _)

theorem contains_iff (given : h.buffer.Given h.samples) (value : α) :
    h.Describes (.contains value) ↔ h.Suits (.contains value) := by
  have found : h.buffer.contains value = true ↔ value ∈ h.sinceWrap := by
    have index := given.index
    have most : h.samples.length % h.buffer.mSize ≤ h.samples.length := Nat.mod_le _ _
    rw [CyclicBuffer.contains, List.any_eq_true, sinceWrap, List.mem_take_iff_getElem]
    constructor
    · rintro ⟨i, inside, same⟩
      have place := List.mem_range.mp inside
      refine ⟨h.buffer.currentIndex - 1 - i, by omega, ?_⟩
      rw [← eq_of_beq same]
      exact (List.getElem_eq_iff _).mpr (given.element place)
    · rintro ⟨j, inside, same⟩
      have place : h.buffer.currentIndex - 1 - j < h.buffer.currentIndex := by omega
      have back : h.buffer.currentIndex - 1 - (h.buffer.currentIndex - 1 - j) = j := by omega
      have element := given.element place
      rw [back] at element
      refine ⟨h.buffer.currentIndex - 1 - j, List.mem_range.mpr place, ?_⟩
      rw [beq_iff_eq, ← same]
      exact ((List.getElem_eq_iff _).mpr element).symm
  rw [Describes, Suits, found]

/-- After every run, a query describes the last values added just where they suit it. -/
theorem describes_iff_suits [Inhabited α] (fits : maxSize < 2 ^ 16) {memory : CyclicBuffer α maxSize}
    {size : Nat} {calls : List (Call α)} (ran : Machine.run step (new memory size) calls = some h)
    (few : h.samples.length < 2 ^ 31) (query : Query α) : h.Describes query ↔ h.Suits query := by
  have given := History.given fits ran
  cases query with
  | sum length => exact sum_iff given few length
  | minValue length => exact minValue_iff given few length
  | maxValue length => exact maxValue_iff given few length
  | contains value => exact contains_iff given value

theorem describes_iff_suits_three :
    ∃ h, Machine.run step (new (⟨fun _ => 0, 0, 0, 0⟩ : CyclicBuffer ℤ 128) 2)
      [.add 1, .add 2, .clear, .add 3] = some h ∧ (h.Describes (.sum 2) ↔ h.Suits (.sum 2)) := by
  have ran : Machine.run step (new (⟨fun _ => 0, 0, 0, 0⟩ : CyclicBuffer ℤ 128) 2)
      [.add 1, .add 2, .clear, .add 3] = some _ := rfl
  exact ⟨_, ran, describes_iff_suits (by decide) ran (by decide) (.sum 2)⟩

/-- In turns of two, three values make a sum of three addends and an older one is not found; and of
a negative value the greatest is positive. -/
theorem misdescribed :
    (∃ h, Machine.run step (new (⟨fun _ => 0, 0, 0, 0⟩ : CyclicBuffer ℤ 128) 2)
        [.add 1, .add 2, .add 3] = some h ∧
      ¬ h.Describes (.sum 3) ∧ ¬ h.Describes (.contains 2)) ∧
    ∃ h, Machine.run step (new (⟨fun _ => 0, 0, 0, 0⟩ : CyclicBuffer ℚ 128) 2)
        [.add (-1)] = some h ∧
      ¬ h.Describes (.maxValue 1) := by
  have whole : Machine.run step (new (⟨fun _ => 0, 0, 0, 0⟩ : CyclicBuffer ℤ 128) 2)
      [.add 1, .add 2, .add 3] = some _ := rfl
  have negative : Machine.run step (new (⟨fun _ => 0, 0, 0, 0⟩ : CyclicBuffer ℚ 128) 2)
      [.add (-1)] = some _ := rfl
  refine ⟨⟨_, whole, ?_, ?_⟩, _, negative, ?_⟩
  · rw [sum_iff (History.given (by decide) whole) (by decide)]
    rintro (once | same)
    · exact absurd once (by decide)
    · exact absurd same (by decide)
  · rw [contains_iff (History.given (by decide) whole)]
    exact fun found => absurd (found.mpr (by decide)) (by decide)
  · rw [maxValue_iff (History.given (by decide) negative) (by decide)]
    rintro ⟨v, member, reaches⟩
    obtain rfl : v = -1 := List.mem_singleton.mp member
    have positive : (0 : ℚ) < 1 / 2 ^ 126 := by norm_num
    exact absurd (lt_of_lt_of_le positive reaches) (by norm_num)

end History

end CyclicBuffer

end FomeFw.Containers
