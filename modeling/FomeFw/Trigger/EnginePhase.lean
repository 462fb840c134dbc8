import Mathlib.Algebra.Order.Floor.Ring
import Mathlib.Algebra.Order.Field.Rat
import Mathlib.Data.Rat.Floor
import Mathlib.Tactic.Linarith
import Mathlib.Tactic.Ring

/-! Engine angles: the range test of `efilib.cpp` and the wrapping of
`trigger_structure.h`. Angles are exact numbers of degrees. -/
namespace FomeFw.Trigger

abbrev Angle := ℚ

/-- `EnginePhaseInfo` in trigger space, and the engine cycle it is measured in. -/
structure EnginePhaseInfo where
  timestamp : Int
  currentTrgPhase : Angle
  nextTrgPhase : Angle
  engineCycle : Angle
  deriving DecidableEq

/-- Whether the angle `test` is passed between two teeth. -/
def isPhaseInRange (test current next : Angle) : Bool :=
  let afterCurrent := decide (test ≥ current)
  let beforeNext := decide (test < next)
  if next > current then afterCurrent && beforeNext else afterCurrent || beforeNext

/-- The first loop of `wrapAngle`, with the number of rounds it may make. -/
def raiseAngle (engineCycle : Angle) : Nat → Angle → Angle
  | 0, angle => angle
  | rounds + 1, angle =>
    if angle < 0 then raiseAngle engineCycle rounds (angle + engineCycle) else angle

/-- The second loop of `wrapAngle`. -/
def lowerAngle (engineCycle : Angle) : Nat → Angle → Angle
  | 0, angle => angle
  | rounds + 1, angle =>
    if angle ≥ engineCycle then lowerAngle engineCycle rounds (angle - engineCycle) else angle

/-- `assertAngleRange`, which also reports the angle it replaces. -/
def assertAngleRange (angle : Angle) : Angle :=
  if angle > 10000000 ∨ angle < -10000000 then 0 else angle

def wrapAngle (engineCycle param : Angle) : Angle :=
  let angle := assertAngleRange param
  let rounds := ⌊|angle| / engineCycle⌋₊ + 1
  lowerAngle engineCycle rounds (raiseAngle engineCycle rounds angle)

variable {engineCycle angle : Angle} {rounds : Nat}

theorem assertAngleRange_of_mem (above : -10000000 ≤ angle) (below : angle ≤ 10000000) :
    assertAngleRange angle = angle :=
  if_neg (not_or.mpr ⟨not_lt.mpr below, not_lt.mpr above⟩)

theorem raiseAngle_spec (enough : -angle ≤ rounds * engineCycle) :
    0 ≤ raiseAngle engineCycle rounds angle ∧
      (raiseAngle engineCycle rounds angle ≤ angle ∨
        raiseAngle engineCycle rounds angle < engineCycle) ∧
      ∃ n : ℤ, raiseAngle engineCycle rounds angle = angle + n * engineCycle := by
  induction rounds generalizing angle with
  | zero => exact ⟨by simpa [raiseAngle] using enough, .inl (le_refl _), 0, by simp [raiseAngle]⟩
  | succ rounds ih =>
    simp only [raiseAngle]
    split
    · rename_i negative
      push_cast at enough
      obtain ⟨nonneg, small, n, whole⟩ := @ih (angle + engineCycle) (by linarith)
      refine ⟨nonneg, .inr ?_, n + 1, by rw [whole]; push_cast; ring⟩
      rcases small with small | small
      · linarith
      · exact small
    · rename_i nonneg
      exact ⟨not_lt.mp nonneg, .inl (le_refl _), 0, by simp⟩

theorem lowerAngle_spec (nonneg : 0 ≤ angle) (enough : angle < (rounds + 1) * engineCycle) :
    0 ≤ lowerAngle engineCycle rounds angle ∧
      lowerAngle engineCycle rounds angle < engineCycle ∧
      ∃ n : ℤ, lowerAngle engineCycle rounds angle = angle + n * engineCycle := by
  induction rounds generalizing angle with
  | zero => exact ⟨nonneg, by simpa [lowerAngle] using enough, 0, by simp [lowerAngle]⟩
  | succ rounds ih =>
    simp only [lowerAngle]
    split
    · rename_i beyond
      push_cast at enough
      obtain ⟨nonneg, small, n, whole⟩ :=
        @ih (angle - engineCycle) (by linarith) (by linarith)
      exact ⟨nonneg, small, n - 1, by rw [whole]; push_cast; ring⟩
    · rename_i within
      exact ⟨nonneg, not_le.mp within, 0, by simp⟩

/-- The wrapped angle lies in the cycle and differs by whole cycles from an angle in range. -/
theorem wrapAngle_spec (positive : 0 < engineCycle) (param : Angle) :
    0 ≤ wrapAngle engineCycle param ∧ wrapAngle engineCycle param < engineCycle ∧
      ∃ n : ℤ, wrapAngle engineCycle param = assertAngleRange param + n * engineCycle := by
  rw [wrapAngle]
  generalize assertAngleRange param = angle
  have turns : |angle| < (⌊|angle| / engineCycle⌋₊ + 1 : ℕ) * engineCycle := by
    rw [← div_lt_iff₀ positive]
    exact_mod_cast Nat.lt_floor_add_one _
  obtain ⟨above, below⟩ := abs_lt.mp turns
  generalize ⌊|angle| / engineCycle⌋₊ + 1 = rounds at turns above below ⊢
  obtain ⟨nonneg, small, n, raised⟩ := @raiseAngle_spec engineCycle angle rounds (by linarith)
  have more : 0 ≤ (rounds : Angle) * engineCycle := by positivity
  obtain ⟨nonneg, small, m, lowered⟩ := @lowerAngle_spec engineCycle _ rounds nonneg (by
    rcases small with small | small <;> linarith)
  exact ⟨nonneg, small, n + m, by rw [lowered, raised]; push_cast; ring⟩

theorem wrapAngle_of_mem (small : engineCycle ≤ 10000000) (nonneg : 0 ≤ angle)
    (inside : angle < engineCycle) : wrapAngle engineCycle angle = angle := by
  have range : assertAngleRange angle = angle :=
    assertAngleRange_of_mem (by linarith) (inside.le.trans small)
  simp [wrapAngle, range, raiseAngle, lowerAngle, not_lt.mpr nonneg, not_le.mpr inside]

/-- Only one angle of the cycle differs from another by whole cycles. -/
theorem eq_of_wholeCycles {a b : Angle} {n : ℤ} (positive : 0 < engineCycle) (aNonneg : 0 ≤ a)
    (aSmall : a < engineCycle) (bNonneg : 0 ≤ b) (bSmall : b < engineCycle)
    (whole : a = b + n * engineCycle) : a = b := by
  have above : (-1 : Angle) < n := by
    by_contra low
    have := mul_le_mul_of_nonneg_right (not_lt.mp low) positive.le
    linarith
  have below : (n : Angle) < 1 := by
    by_contra high
    have := mul_le_mul_of_nonneg_right (not_lt.mp high) positive.le
    linarith
  have lower : (-1 : ℤ) < n := by exact_mod_cast above
  have upper : n < 1 := by exact_mod_cast below
  obtain rfl : n = 0 := by omega
  simpa using whole

end FomeFw.Trigger
