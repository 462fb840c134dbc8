import Mathlib.Algebra.Order.Round
import Mathlib.Data.Rat.Floor
import Mathlib.Tactic.FieldSimp
import Mathlib.Tactic.Linarith
import Mathlib.Tactic.NormNum

/-! The multiplier and the divider that stand for the scale of a field. The `double`s are
rational numbers. -/
namespace FomeFw.Config

def maxLong : Int := 2 ^ 63 - 1

/-- `Math.round`: the nearest `long`, of two the greater one. -/
def mathRound (x : ℚ) : Int := max (-2 ^ 63) (min ⌊x + 1 / 2⌋ maxLong)

/-- `mul` and `div` of `ScalarLayout.makeScaleString`. -/
def mulDiv (scale : ℚ) : Int × Int :=
  if scale < 1 then (mathRound (1 / scale), 1) else (1, mathRound scale)

/-- The pair that is printed, or the text of the exception. -/
def scalePair (name : String) (scale : ℚ) : Except String (Int × Int) :=
  let (mul, div) := mulDiv scale
  let actualScale : ℚ := mul / div
  if mul < 1 ∨ div < 1 ∨ |scale - actualScale| < 1 / 10000 then
    .error ("assertion failure: scale string generation failure for " ++ name ++ " mul " ++
      toString mul ++ " div " ++ toString div ++ " (unnecessary autoscale?)")
  else .ok (mul, div)

def makeScaleString (name : String) (scale : ℚ) : Except String String :=
  (scalePair name scale).map fun p => toString p.1 ++ ", " ++ toString p.2

/-- What `autoscaleSpecPair` asks of a pair before it gives it out. -/
def Accurate (mul div : Int) (scale : ℚ) : Prop := |(div : ℚ) / mul / scale - 1| ≤ 1 / 10 ^ 7

/-- The pair that is printed stands for the scale, and there is none where none does. -/
def KeepsScale (name : String) (scale : ℚ) : Prop :=
  (∀ mul div, scalePair name scale = .ok (mul, div) → Accurate mul div scale) ∧
    ((∀ mul div, ¬ Accurate mul div scale) → ∃ text, scalePair name scale = .error text)

/-- Next to 1 no scale is accepted. -/
def NearOne (scale : ℚ) : Prop := 9999 / 10000 < scale ∧ scale < 10001 / 10000

/-- The scale is as good as a `long`, or as one divided by a `long`. -/
def Whole (scale : ℚ) : Prop :=
  ∃ n : Int, 1 ≤ n ∧ n ≤ maxLong ∧
    |(if scale < 1 then 1 / (n : ℚ) else n) / scale - 1| ≤ 1 / 10 ^ 7

variable {x scale : ℚ} {n : Int} {name : String}

theorem one_le_mathRound (large : 1 ≤ x) : 1 ≤ mathRound x := by
  have floor : 1 ≤ ⌊x + 1 / 2⌋ := Int.le_floor.mpr (by push_cast; linarith)
  have limit : 1 ≤ maxLong := by decide
  exact le_max_of_le_right (le_min floor limit)

theorem mathRound_eq (large : 1 ≤ x) : mathRound x = min (round x) maxLong := by
  have positive := one_le_mathRound large
  rw [mathRound, ← round_eq] at positive ⊢
  omega

theorem mathRound_nearest (large : 1 ≤ x) (inside : n ≤ maxLong) :
    |x - mathRound x| ≤ |x - n| := by
  rw [mathRound_eq large]
  rcases le_or_gt (round x) maxLong with small | above
  · rw [min_eq_left small]
    exact round_le x n
  · rw [min_eq_right above.le]
    have least : (maxLong : ℚ) + 1 ≤ round x := by exact_mod_cast above
    have half := round_le_add_half x
    have order : (n : ℚ) ≤ maxLong := by exact_mod_cast inside
    rw [abs_of_nonneg (by linarith), abs_of_nonneg (by linarith)]
    linarith

/-- Of all whole numbers the nearest one is the one to divide by, too. -/
theorem mathRound_divides (large : 1 ≤ x) (inside : n ≤ maxLong)
    (near : |x - n| ≤ n / 10 ^ 7) : |x - mathRound x| ≤ mathRound x / 10 ^ 7 := by
  rcases le_or_gt n (mathRound x) with before | after
  · have order : (n : ℚ) ≤ mathRound x := by exact_mod_cast before
    calc |x - mathRound x| ≤ |x - n| := mathRound_nearest large inside
      _ ≤ n / 10 ^ 7 := near
      _ ≤ mathRound x / 10 ^ 7 := by gcongr
  · -- the bound is then more than the half that every rounding keeps
    have same : mathRound x = round x := by
      rw [mathRound_eq large] at after ⊢
      omega
    rw [same] at after ⊢
    have order : (round x : ℚ) + 1 ≤ n := by exact_mod_cast after
    have half := sub_half_lt_round x
    have close := abs_le.mp near
    have many : (5000000 : ℚ) < n := by linarith
    have many' : 5000001 ≤ n := by exact_mod_cast many
    have many'' : (5000001 : ℚ) ≤ n := by exact_mod_cast many'
    have rounds : (4999999 : ℚ) < round x := by linarith
    have rounds' : 5000000 ≤ round x := by exact_mod_cast rounds
    have rounds'' : (5000000 : ℚ) ≤ round x := by exact_mod_cast rounds'
    calc |x - round x| ≤ 1 / 2 := abs_sub_round x
      _ ≤ round x / 10 ^ 7 := by linarith

theorem mathRound_le (x : ℚ) : mathRound x ≤ maxLong := by
  have least : -2 ^ 63 ≤ maxLong := by decide
  exact max_le least (min_le_right _ _)

/-- Up to one and a half there is nothing to round to but 1. -/
theorem mathRound_small (large : 1 ≤ x) (small : x < 3 / 2) : mathRound x = 1 := by
  have one : round x = 1 := round_eq_iff.mpr ⟨by push_cast; linarith, by push_cast; linarith⟩
  rw [mathRound_eq large, one]
  rfl

theorem inverse_large (positive : 0 < scale) (below : scale < 1) : 1 ≤ 1 / scale := by
  rw [le_div_iff₀ positive]
  linarith

/-- The check that is made of the pair finds what is next to 1. -/
theorem rejects_iff (positive : 0 < scale) :
    ((mulDiv scale).1 < 1 ∨ (mulDiv scale).2 < 1 ∨
      |scale - ((mulDiv scale).1 : ℚ) / (mulDiv scale).2| < 1 / 10000) ↔ NearOne scale := by
  rw [mulDiv, NearOne]
  split
  · next below =>
    have large := inverse_large positive below
    have least := one_le_mathRound large
    have near : 9999 / 10000 < scale → mathRound (1 / scale) = 1 := by
      intro near
      apply mathRound_small large
      rw [div_lt_iff₀ positive]
      linarith
    generalize mathRound (1 / scale) = r at least near
    have least' : (1 : ℚ) ≤ r := by exact_mod_cast least
    rw [or_iff_right (not_lt.mpr least), or_iff_right (lt_irrefl 1), Int.cast_one, div_one,
      abs_of_nonpos (by linarith)]
    constructor
    · intro close
      constructor <;> linarith
    · rintro ⟨close, -⟩
      rw [near close, Int.cast_one]
      linarith
  · next above =>
    have large : 1 ≤ scale := not_lt.mp above
    have least := one_le_mathRound large
    have near : scale < 10001 / 10000 → mathRound scale = 1 := by
      intro near
      apply mathRound_small large
      linarith
    generalize mathRound scale = r at least near
    have least' : (1 : ℚ) ≤ r := by exact_mod_cast least
    have inverse : 1 / (r : ℚ) ≤ 1 := by
      rw [div_le_one (by linarith)]
      exact least'
    rw [or_iff_right (lt_irrefl 1), or_iff_right (not_lt.mpr least), Int.cast_one,
      abs_of_nonneg (by linarith)]
    constructor
    · intro close
      constructor <;> linarith
    · rintro ⟨-, close⟩
      rw [near close, Int.cast_one]
      linarith

theorem scalePair_eq (name : String) (positive : 0 < scale) :
    (∃ text, scalePair name scale = .error text) ∧ NearOne scale ∨
      scalePair name scale = .ok (mulDiv scale) ∧ ¬ NearOne scale := by
  by_cases near : NearOne scale
  · exact .inl ⟨⟨_, by rw [scalePair]; exact if_pos ((rejects_iff positive).mpr near)⟩, near⟩
  · exact .inr ⟨by rw [scalePair]; exact if_neg ((rejects_iff positive).not.mpr near), near⟩

theorem divided_iff (positive : 0 < scale) (some : 1 ≤ n) :
    |1 / (n : ℚ) / scale - 1| ≤ 1 / 10 ^ 7 ↔ |1 / scale - n| ≤ n / 10 ^ 7 := by
  have some' : (0 : ℚ) < n := by exact_mod_cast some
  have same : 1 / (n : ℚ) / scale - 1 = (1 / scale - n) / n := by field_simp
  rw [same, abs_div, abs_of_pos some', div_le_iff₀ some', one_div_mul_eq_div]

theorem times_iff (positive : 0 < scale) :
    |(n : ℚ) / scale - 1| ≤ 1 / 10 ^ 7 ↔ |scale - n| ≤ scale / 10 ^ 7 := by
  have same : (n : ℚ) / scale - 1 = (n - scale) / scale := by field_simp
  rw [same, abs_div, abs_of_pos positive, div_le_iff₀ positive, one_div_mul_eq_div, abs_sub_comm]

theorem accurate_iff (positive : 0 < scale) :
    Accurate (mulDiv scale).1 (mulDiv scale).2 scale ↔ Whole scale := by
  rw [Whole, mulDiv, Accurate]
  split
  · next below =>
    have large := inverse_large positive below
    have least := one_le_mathRound large
    rw [Int.cast_one, divided_iff positive least]
    constructor
    · intro near
      exact ⟨_, least, mathRound_le _, by rwa [divided_iff positive least]⟩
    · rintro ⟨n, some, inside, near⟩
      exact mathRound_divides large inside ((divided_iff positive some).mp near)
  · next above =>
    have large : 1 ≤ scale := not_lt.mp above
    have least := one_le_mathRound large
    rw [Int.cast_one, div_one]
    constructor
    · exact fun near => ⟨_, least, mathRound_le _, near⟩
    · rintro ⟨n, -, inside, near⟩
      rw [times_iff positive] at near ⊢
      exact (mathRound_nearest large inside).trans near

theorem keepsScale_iff (name : String) (positive : 0 < scale) :
    KeepsScale name scale ↔ NearOne scale ∨ Whole scale := by
  rw [← accurate_iff positive]
  rcases scalePair_eq name positive with ⟨⟨text, rejected⟩, near⟩ | ⟨accepted, far⟩
  · refine iff_of_true ⟨?_, fun _ => ⟨text, rejected⟩⟩ (.inl near)
    intro mul div accepted
    rw [rejected] at accepted
    cases accepted
  · rw [or_iff_right far]
    constructor
    · exact fun keeps => keeps.1 _ _ accepted
    · intro accurate
      refine ⟨?_, fun none => absurd accurate (none _ _)⟩
      intro mul div same
      have pair := Except.ok.inj (accepted.symm.trans same)
      rwa [pair] at accurate

theorem keepsScale_tenth : KeepsScale "rpm" (1 / 10) :=
  (keepsScale_iff "rpm" (by norm_num)).mpr (.inr ⟨10, by norm_num, by decide, by norm_num⟩)

/-- For 0.3 a third is printed. -/
theorem threeTenths_misscaled : scalePair "rpm" (3 / 10) = .ok (3, 1) ∧ ¬ KeepsScale "rpm" (3 / 10) := by
  have printed : scalePair "rpm" (3 / 10) = .ok (3, 1) := by
    have pair : mulDiv (3 / 10) = (3, 1) := by decide +kernel
    rcases scalePair_eq "rpm" (show (0 : ℚ) < 3 / 10 by norm_num) with ⟨-, near, -⟩ | ⟨accepted, -⟩
    · norm_num at near
    · rw [accepted, pair]
  refine ⟨printed, ?_⟩
  intro keeps
  have accurate := keeps.1 3 1 printed
  norm_num [Accurate] at accurate

end FomeFw.Config
