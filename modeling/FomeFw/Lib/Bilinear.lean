import Mathlib.Algebra.BigOperators.Fin
import Mathlib.Algebra.Order.BigOperators.Group.Finset
import Mathlib.Algebra.Order.Floor.Semiring
import Mathlib.Tactic.Linarith
import Mathlib.Tactic.Ring

/-! Interpolation in tables. A value on an axis has a position, a number of bins, and a table is
read at positions, linearly between two neighbours. -/
namespace FomeFw

variable {K : Type*} [Field K] [LinearOrder K]

/-- How many intervals of the axis lie below the value, each counted by the part that does. -/
def locate {n : Nat} (bins : Fin (n + 1) → K) (x : K) : K :=
  ∑ i : Fin n, max 0 (min 1 ((x - bins i.castSucc) / (bins i.succ - bins i.castSucc)))

section Interpolation

variable [FloorSemiring K] {n rows columns : Nat}

/-- The last cell goes on behind the end. -/
def cell (n i : Nat) : Fin (n + 1) := ⟨min i n, by omega⟩

theorem cell_val {i : Nat} (inside : i ≤ n) : (cell n i : Nat) = i := Nat.min_eq_left inside

/-- Linear between neighbours. -/
def lerp (f : Fin (n + 1) → K) (p : K) : K :=
  f (cell n ⌊p⌋₊) + (p - ⌊p⌋₊) * (f (cell n (⌊p⌋₊ + 1)) - f (cell n ⌊p⌋₊))

theorem lerp_const (c p : K) : lerp (fun _ : Fin (n + 1) => c) p = c := by
  simp [lerp]

def bilinear (table : Fin (rows + 1) → Fin (columns + 1) → K) (row column : K) : K :=
  lerp (fun r => lerp (table r) column) row

end Interpolation

section Order

variable [IsStrictOrderedRing K] {n : Nat} {bins : Fin (n + 1) → K} {x : K}

theorem locate_nonneg : 0 ≤ locate bins x :=
  Finset.sum_nonneg fun _ _ => le_max_left _ _

theorem locate_le : locate bins x ≤ n := by
  have bounded : ∀ i ∈ (Finset.univ : Finset (Fin n)),
      max 0 (min 1 ((x - bins i.castSucc) / (bins i.succ - bins i.castSucc))) ≤ (1 : K) :=
    fun i _ => max_le zero_le_one (min_le_left _ _)
  simpa [locate] using Finset.sum_le_card_nsmul _ _ 1 bounded

variable [FloorSemiring K] {rows columns : Nat} {p q p' q' : K}

/-- Reading the numbers of the cells gives the position back. -/
theorem lerp_index (nonneg : 0 ≤ p) (bounded : p ≤ n) :
    lerp (fun i : Fin (n + 1) => ((i : Nat) : K)) p = p := by
  have below : (⌊p⌋₊ : K) ≤ p := Nat.floor_le nonneg
  have inside : ⌊p⌋₊ ≤ n := Nat.floor_le_of_le bounded
  have here : ((cell n ⌊p⌋₊ : Nat) : K) = ⌊p⌋₊ := congrArg Nat.cast (cell_val inside)
  rcases inside.lt_or_eq with before | last
  · have next : ((cell n (⌊p⌋₊ + 1) : Nat) : K) = ⌊p⌋₊ + 1 := by
      rw [cell_val before, Nat.cast_succ]
    simp only [lerp, here, next]
    ring
  · have whole : p = ⌊p⌋₊ := le_antisymm (bounded.trans_eq (by rw [last])) below
    simp only [lerp, here, sub_eq_zero_of_eq whole, zero_mul, add_zero]
    exact whole.symm

/-- Two places of a table give the same for every content just when they are one place. -/
theorem bilinear_eq_iff (row : 0 ≤ p ∧ p ≤ rows) (column : 0 ≤ q ∧ q ≤ columns)
    (row' : 0 ≤ p' ∧ p' ≤ rows) (column' : 0 ≤ q' ∧ q' ≤ columns) :
    (∀ table : Fin (rows + 1) → Fin (columns + 1) → K, bilinear table p q = bilinear table p' q') ↔
      p = p' ∧ q = q' := by
  constructor
  · intro same
    constructor
    · have read := same fun r _ => ((r : Nat) : K)
      simpa only [bilinear, lerp_const, lerp_index row.1 row.2, lerp_index row'.1 row'.2] using read
    · have read := same fun _ c => ((c : Nat) : K)
      simpa only [bilinear, lerp_const, lerp_index column.1 column.2, lerp_index column'.1 column'.2]
        using read
  · rintro ⟨rfl, rfl⟩ table
    rfl

end Order

end FomeFw
