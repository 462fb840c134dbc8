import Mathlib.Data.List.Basic
import Mathlib.Logic.Function.Basic
import Mathlib.Tactic.Common

/-! Queues laid out in a circular array: the `i`-th item of the queue lives in
the cell `i` steps after the oldest one, counted modulo the size of the array.
The lemmas say what reading the oldest cell and writing the first free cell do
to the queue. -/
namespace FomeFw.Ring

variable {α : Type} {cell cell' : Nat → α} {size start : Nat} {items more : List α} {x : α}

/-- The cells from `start` on hold `items`, wrapping around at `size`. -/
def Laid (cell : Nat → α) (size start : Nat) (items : List α) : Prop :=
  ∀ i (bound : i < items.length), cell ((start + i) % size) = items[i]

@[simp] theorem laid_nil : Laid cell size start [] := by
  intro i bound
  simp at bound

theorem laid_cons :
    Laid cell size start (x :: items) ↔
      cell (start % size) = x ∧ Laid cell size ((start + 1) % size) items := by
  constructor
  · intro laid
    refine ⟨laid 0 (Nat.succ_pos _), fun i bound => ?_⟩
    have later := laid (i + 1) (by simpa using bound)
    simpa [Nat.add_assoc, Nat.add_comm 1 i] using later
  · rintro ⟨first, rest⟩ i bound
    cases i with
    | zero => simpa using first
    | succ i =>
      have later := rest i (by simpa using bound)
      simpa [Nat.add_assoc, Nat.add_comm 1 i] using later

theorem Laid.congr (laid : Laid cell size start items)
    (same : ∀ i < items.length, cell' ((start + i) % size) = cell ((start + i) % size)) :
    Laid cell' size start items := by
  intro i bound
  rw [same i bound]
  exact laid i bound

/-- Fewer steps than one turn lead to different cells. -/
theorem offset_ne {i j : Nat} (before : i < j) (turn : j < size) :
    (start + i) % size ≠ (start + j) % size := by
  intro same
  have gap := Nat.sub_mod_eq_zero_of_mod_eq same.symm
  rw [Nat.add_sub_add_left, Nat.mod_eq_of_lt (by omega)] at gap
  omega

/-- Writing the first free cell appends to the queue. -/
theorem Laid.write (laid : Laid cell size start items) (room : items.length < size) :
    Laid (Function.update cell ((start + items.length) % size) x) size start (items ++ [x]) := by
  intro i bound
  rcases Nat.lt_or_ge i items.length with inside | outside
  · rw [Function.update_of_ne (offset_ne inside room), List.getElem_append_left inside]
    exact laid i inside
  · have last : i = items.length := by
      simp only [List.length_append, List.length_singleton] at bound
      omega
    subst last
    simp

/-- A history that is written round after round: the last `size` of the items, which come newest
first, are in their cells. -/
def Recent (cell : Nat → α) (size : Nat) (items : List α) : Prop :=
  ∀ i (bound : i < items.length), i < size → cell ((items.length - 1 - i) % size) = items[i]

theorem recent_nil : Recent cell size [] := by
  intro i bound
  simp at bound

/-- Writing the next cell of the round adds the newest. -/
theorem Recent.write (recent : Recent cell size items) :
    Recent (Function.update cell (items.length % size) x) size (x :: items) := by
  intro i bound turn
  simp only [List.length_cons] at bound
  cases i with
  | zero => simp
  | succ i =>
    have back : (x :: items).length - 1 - (i + 1) = items.length - 1 - i := by
      rw [List.length_cons]
      omega
    have elsewhere : (items.length - 1 - i) % size ≠ items.length % size := by
      have turned := @offset_ne size (items.length - 1 - i) 0 (i + 1) (by omega) turn
      rwa [Nat.add_zero, show items.length - 1 - i + (i + 1) = items.length by omega] at turned
    rw [back, Function.update_of_ne elsewhere, List.getElem_cons_succ]
    exact recent i (by omega) (by omega)

/-- When the history is long enough, the cells hold nothing but the last `size` of its items. -/
theorem Recent.mem_take (recent : Recent cell size items) (full : size ≤ items.length) :
    x ∈ items.take size ↔ ∃ j < size, cell j = x := by
  rw [List.mem_take_iff_getElem]
  constructor
  · rintro ⟨i, bound, rfl⟩
    exact ⟨_, Nat.mod_lt _ (by omega), recent i (by omega) (by omega)⟩
  · rintro ⟨j, inside, rfl⟩
    have back : (items.length - 1 - j) % size < size := Nat.mod_lt _ (by omega)
    refine ⟨(items.length - 1 - j) % size, by omega, ?_⟩
    rw [← recent _ (by omega) back]
    have turns := Nat.mod_add_div (items.length - 1 - j) size
    have same : items.length - 1 - (items.length - 1 - j) % size =
        j + size * ((items.length - 1 - j) / size) := by omega
    rw [same, Nat.add_mul_mod_self_left, Nat.mod_eq_of_lt inside]

end FomeFw.Ring
