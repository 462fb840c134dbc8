import FomeFw.Lib.FixedArray
import Mathlib.Order.Interval.Set.Defs
import Mathlib.Order.Monotone.Basic
import Mathlib.Order.Nat
import Mathlib.Tactic.Common
import Mathlib.Data.Int.ConditionallyCompleteOrder
import Mathlib.Data.Rat.Floor

/-! The binary search of `efi_interpolation.h`. -/
namespace FomeFw.Util

/-- A key of type `kType`. -/
inductive Key (α : Type)
  | nan
  | number (x : α)

/-- What `findIndexMsg` complains of; in the unit tests a complaint is thrown. -/
inductive Complaint
  | nan
  | outOfOrder (middle : Int)

/-- Arithmetic of `int`. -/
def wrapInt (z : Int) : Int := z.bmod (2 ^ 32)

variable {α : Type} [LinearOrder α] {size : Nat}

/-- `<`, which is false with NaN on either side. -/
def Key.below : Key α → Key α → Bool
  | .number x, .number y => decide (x < y)
  | _, _ => false

/-- The loop between `left` and `right`, with the number of rounds it may make. An access outside
of the array has no result. -/
def searchBetween (array : FixedArray size (Key α)) (value : Key α) (left right : Int) :
    Nat → Option (Int × List Complaint)
  | 0 => none
  | rounds + 1 =>
    let middle := (wrapInt (left + right)).tdiv 2
    if middle = left then some (middle, [])
    else do
      let complaints ←
        if middle ≠ 0 then do
          let before ← array.loadAt (middle - 1)
          let here ← array.loadAt middle
          pure (if here.below before then [Complaint.outOfOrder middle] else [])
        else pure []
      let here ← array.loadAt middle
      let (index, more) ←
        if value.below here then searchBetween array value left middle rounds
        else if here.below value then searchBetween array value middle right rounds
        else some (middle, [])
      return (index, complaints ++ more)

/-- `size` is the size of the array. -/
def findIndexMsg (array : FixedArray size (Key α)) (value : Key α) : Option (Int × List Complaint) :=
  match value with
  | .nan => some (0, [.nan])
  | .number _ => do
    let first ← array.loadAt 0
    if value.below first then return (-1, [])
    searchBetween array value 0 size size

/-- The array with these keys. -/
def keys (bins : Nat → α) : FixedArray size (Key α) := ⟨fun i => .number (bins i)⟩

/-- The bin that a value is in: -1 below the first bin, and the last one above it. -/
def IsIndex (bins : Nat → α) (size : Nat) (value : α) (index : Int) : Prop :=
  (value < bins 0 → index = -1) ∧ (bins (size - 1) ≤ value → index = size - 1) ∧
    (bins 0 ≤ value → value < bins (size - 1) →
      ∃ i, i + 1 < size ∧ index = i ∧ bins i ≤ value ∧ value < bins (i + 1) ∧
        ∀ j, j + 1 < size → bins j ≤ value → value < bins (j + 1) → j = i)

variable {bins : Nat → α} {value : α} {left right : Nat}

/-- The value is at or above one bin, and below the other one if there is one. -/
structure Between (bins : Nat → α) (size : Nat) (value : α) (left right : Nat) : Prop where
  least : bins left ≤ value
  order : left < right
  inside : right ≤ size
  most : right < size → value < bins right

theorem Between.isIndex (ascending : StrictMonoOn bins (Set.Iio size)) {i : Nat}
    (between : Between bins size value i (i + 1)) : IsIndex bins size value i := by
  have inside : i < size := between.inside
  refine ⟨?_, ?_, ?_⟩
  · intro below
    have first : bins 0 ≤ bins i := ascending.monotoneOn (Nat.zero_lt_of_lt inside) inside (Nat.zero_le i)
    exact absurd (first.trans between.least) (not_le.mpr below)
  · intro above
    by_contra other
    have next : i + 1 < size := by omega
    have last : bins (i + 1) ≤ bins (size - 1) :=
      ascending.monotoneOn next (Nat.sub_one_lt_of_lt inside) (by omega)
    exact absurd (last.trans above) (not_le.mpr (between.most next))
  · intro _ below
    have next : i + 1 < size := by
      rcases Nat.lt_or_ge (i + 1) size with next | last
      · exact next
      · have same : size - 1 = i := by omega
        rw [same] at below
        exact absurd between.least (not_le.mpr below)
    refine ⟨i, next, rfl, between.least, between.most next, ?_⟩
    intro j inside' least most
    -- of two bins only the lower one is below the other one's end
    have before : j < i + 1 := ascending.lt_iff_lt (Nat.lt_of_succ_lt inside') next |>.mp
      (least.trans_lt (between.most next))
    have after : i < j + 1 := ascending.lt_iff_lt inside inside' |>.mp (between.least.trans_lt most)
    omega

omit [LinearOrder α] in
theorem loadAt_keys (inside : i < size) :
    (keys bins : FixedArray size (Key α)).loadAt (i : Nat) = some (.number (bins i)) := by
  rw [FixedArray.loadAt_natCast, FixedArray.load, dif_pos inside]
  rfl

theorem middle_eq (small : left + right < 2 ^ 31) :
    (wrapInt (left + right)).tdiv 2 = ((left + right) / 2 : Nat) := by
  have same : wrapInt (left + right) = (left + right : Nat) := by
    rw [wrapInt, Int.bmod_eq_of_le (by omega) (by omega)]
    rfl
  rw [same]
  rfl

theorem searchBetween_eq (ascending : StrictMonoOn bins (Set.Iio size)) (small : size ≤ 2 ^ 30)
    (between : Between bins size value left right) (enough : right - left ≤ rounds) :
    ∃ i : Nat, searchBetween (keys bins : FixedArray size (Key α)) (.number value) left right rounds =
        some ((i : Int), []) ∧ Between bins size value i (i + 1) := by
  have order := between.order
  have inside := between.inside
  induction rounds generalizing left right with
  | zero => omega
  | succ rounds ih =>
    rw [searchBetween, middle_eq (by omega)]
    generalize middle : (left + right) / 2 = m
    by_cases last : m = left
    · have next : right = left + 1 := by omega
      subst next
      exact ⟨left, by simp [last], between⟩
    · have within : m < size := by omega
      have within' : m - 1 < size := by omega
      have some : (m : Int) ≠ 0 := by omega
      have before : ((m : Int) - 1) = (m - 1 : Nat) := by omega
      have ordered : ¬ bins m < bins (m - 1) := not_lt.mpr (ascending within' within (by omega)).le
      have other : (m : Int) ≠ left := by omega
      simp only [other, some, before, loadAt_keys within, loadAt_keys within', Key.below, ordered,
        if_false, ne_eq, not_false_eq_true, if_true, Option.bind_eq_bind, Option.bind_some,
        Option.pure_def, decide_eq_true_eq, List.nil_append]
      by_cases below : value < bins m
      · obtain ⟨i, found, between'⟩ := @ih left m
          ⟨between.least, by omega, by omega, fun _ => below⟩ (by omega) (by omega) (by omega)
        exact ⟨i, by rw [if_pos below, found]; rfl, between'⟩
      · rw [if_neg below]
        have least := not_lt.mp below
        by_cases above : bins m < value
        · obtain ⟨i, found, between'⟩ := @ih m right
            ⟨least, by omega, inside, between.most⟩ (by omega) (by omega) inside
          exact ⟨i, by rw [if_pos above, found]; rfl, between'⟩
        · -- an exact hit
          have equal : value = bins m := le_antisymm (not_lt.mp above) least
          refine ⟨m, by rw [if_neg above], least, Nat.lt_succ_self m, within, ?_⟩
          intro next
          rw [equal]
          exact ascending within next (Nat.lt_succ_self m)

end FomeFw.Util
