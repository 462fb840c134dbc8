import Mathlib.Algebra.Order.ToIntervalMod
import FomeFw.Lib.Windows

/-! Seen from a place of a cycle, the others lie ahead of it. Turning the whole cycle
keeps what lies ahead, and so keeps its windows, wherever they wrap. -/
namespace FomeFw.Circle
open Windows

variable {α : Type} [AddCommGroup α] [LinearOrder α] [IsOrderedAddMonoid α] [Archimedean α]
  {cycle : α}

/-- The places of the cycle, from its start up to its length. -/
def InCycle (cycle x : α) : Prop := 0 ≤ x ∧ x < cycle

/-- How far `x` lies ahead of `origin`, around the cycle. -/
noncomputable def ahead (positive : 0 < cycle) (origin x : α) : α :=
  toIcoMod positive 0 (x - origin)

theorem ahead_mem (positive : 0 < cycle) (origin x : α) :
    InCycle cycle (ahead positive origin x) :=
  toIcoMod_mem_Ico' positive (x - origin)

/-- What lies ahead is the same for places that are turned by the same amount. -/
theorem ahead_turned {positive : 0 < cycle} {origin x origin' x' : α} {turns : ℤ}
    (turned : x' - origin' = x - origin + turns • cycle) :
    ahead positive origin' x' = ahead positive origin x := by
  rw [ahead, turned, toIcoMod_add_zsmul, ahead]

theorem ahead_eq_iff {positive : 0 < cycle} {origin x distance : α} :
    ahead positive origin x = distance ↔
      InCycle cycle distance ∧ ∃ turns : ℤ, x - origin = distance + turns • cycle := by
  rw [ahead, toIcoMod_eq_iff, zero_add]
  rfl

/-- On places of the cycle one correction is enough. -/
theorem ahead_eq {positive : 0 < cycle} {origin x : α} (start : InCycle cycle origin)
    (place : InCycle cycle x) :
    ahead positive origin x = if x - origin < 0 then x - origin + cycle else x - origin := by
  apply ahead_eq_iff.mpr
  split
  · next behind =>
    refine ⟨⟨?_, ?_⟩, -1, by simp⟩
    · have far : origin ≤ x + cycle := start.2.le.trans (le_add_of_nonneg_left place.1)
      rw [sub_add_eq_add_sub]
      exact sub_nonneg.mpr far
    · exact add_lt_of_neg_left cycle behind
  · next front =>
    refine ⟨⟨not_lt.mp front, ?_⟩, 0, by simp⟩
    exact (sub_le_self x start.1).trans_lt place.2

theorem ahead_eq_zero {positive : 0 < cycle} {origin x : α} (start : InCycle cycle origin)
    (place : InCycle cycle x) : ahead positive origin x = 0 ↔ x = origin := by
  rw [ahead_eq start place]
  split
  · next behind =>
    have far : origin < x + cycle := start.2.trans_le (le_add_of_nonneg_left place.1)
    rw [sub_add_eq_add_sub, sub_eq_zero]
    exact iff_of_false far.ne' (sub_neg.mp behind).ne
  · exact sub_eq_zero

/-- A window holds what lies less far ahead of its start than its end does. -/
theorem inWindow_iff_ahead {positive : 0 < cycle} {x current next : α}
    (start : InCycle cycle current) (stop : InCycle cycle next) (place : InCycle cycle x)
    (different : current ≠ next) :
    InWindow x current next ↔ ahead positive current x < ahead positive current next := by
  have further : ∀ {a b}, InCycle cycle a → InCycle cycle b → a - current < b - current + cycle := by
    intro a b first second
    rw [sub_add_eq_add_sub, sub_lt_sub_iff_right]
    exact first.2.trans_le (le_add_of_nonneg_left second.1)
  rw [ahead_eq start place, ahead_eq start stop, InWindow]
  rcases lt_or_gt_of_ne different with ahead | around
  · rw [if_pos ahead, if_neg (not_lt.mpr (sub_nonneg.mpr ahead.le))]
    by_cases behind : x < current
    · rw [if_pos (sub_neg.mpr behind)]
      exact iff_of_false (fun inside => absurd behind (not_lt.mpr inside.1))
        (further stop place).not_gt
    · rw [if_neg (not_lt.mpr (sub_nonneg.mpr (not_lt.mp behind))), sub_lt_sub_iff_right]
      exact and_iff_right (not_lt.mp behind)
  · rw [if_neg (not_lt.mpr around.le), if_pos (sub_neg.mpr around)]
    by_cases behind : x < current
    · rw [if_pos (sub_neg.mpr behind), add_lt_add_iff_right, sub_lt_sub_iff_right]
      exact or_iff_right (not_le.mpr behind)
    · rw [if_neg (not_lt.mpr (sub_nonneg.mpr (not_lt.mp behind)))]
      exact iff_of_true (.inl (not_lt.mp behind)) (further place stop)

/-- Windows that are turned into each other hold the same places. -/
theorem inWindow_turned {x current next x' current' next' : α} {n m : ℤ}
    (positive : 0 < cycle)
    (start : InCycle cycle current) (stop : InCycle cycle next) (place : InCycle cycle x)
    (start' : InCycle cycle current') (stop' : InCycle cycle next') (place' : InCycle cycle x')
    (different : current ≠ next) (turned : x' - current' = x - current + n • cycle)
    (turnedStop : next' - current' = next - current + m • cycle) :
    InWindow x' current' next' ↔ InWindow x current next := by
  have apart : current' ≠ next' := by
    intro same
    have none : ahead positive current' next' = 0 := (ahead_eq_zero start' stop').mpr same.symm
    rw [ahead_turned turnedStop] at none
    exact different ((ahead_eq_zero start stop).mp none).symm
  rw [inWindow_iff_ahead start' stop' place' apart, inWindow_iff_ahead start stop place different,
    ahead_turned turned, ahead_turned turnedStop]
  exact positive

end FomeFw.Circle
