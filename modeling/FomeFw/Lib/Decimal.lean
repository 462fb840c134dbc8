import Mathlib.Data.Rat.Defs
import Mathlib.Algebra.Order.Field.Rat
import Mathlib.Tactic.Common

/-! Decimal notation: what digits with a point between them denote. -/
namespace FomeFw.Decimal

variable {whole frac ds text : List Char} {c : Char}

abbrev natOf (ds : List Char) : Nat := Nat.ofDigitChars 10 ds 0

theorem natOf_cons : natOf (c :: ds) = 10 ^ ds.length * (c.toNat - '0'.toNat) + natOf ds := by
  rw [natOf, Nat.ofDigitChars_cons, Nat.ofDigitChars_eq_ofDigitChars_zero]
  simp

theorem isDigit_iff : c.isDigit = true ↔ 48 ≤ c.toNat ∧ c.toNat ≤ 57 := by
  simp only [Char.isDigit, Bool.and_eq_true, decide_eq_true_eq]
  exact Iff.rfl

def Digits (ds : List Char) : Prop := ∀ c ∈ ds, c.isDigit = true

instance : Decidable (Digits ds) := List.decidableBAll _ ds

/-- The number written with these digits before and behind the point. -/
def value (whole frac : List Char) : ℚ := natOf whole + (natOf frac : ℚ) / 10 ^ frac.length

@[simp] theorem value_nil (whole : List Char) : value whole [] = natOf whole := by
  simp [value, natOf]

/-- An unsigned number: digits, or digits with a point before, between or behind them. -/
inductive Numeral : List Char → ℚ → Prop
  | whole {ds : List Char} (digits : Digits ds) (some : ds ≠ []) : Numeral ds (value ds [])
  | pointed {whole frac : List Char} (before : Digits whole) (behind : Digits frac)
      (some : whole ++ frac ≠ []) : Numeral (whole ++ '.' :: frac) (value whole frac)

theorem point_not_digit : ('.' : Char).isDigit = false := by decide

theorem Digits.no_point (digits : Digits ds) : '.' ∉ ds := by
  intro member
  have digit := digits _ member
  rw [point_not_digit] at digit
  contradiction

theorem Digits.takeWhile (digits : Digits ds) (stops : c.isDigit = false) :
    (ds ++ c :: text).takeWhile Char.isDigit = ds := by
  rw [List.takeWhile_append_of_pos digits, List.takeWhile_cons_of_neg (by simp [stops]), List.append_nil]

/-- What may stand in a number. -/
def inNumber (c : Char) : Bool := c.isDigit || c == '.'

theorem Numeral.inNumber (numeral : Numeral text q) : ∀ c ∈ text, inNumber c = true := by
  cases numeral with
  | whole digits some =>
    intro c member
    simp [Decimal.inNumber, digits c member]
  | pointed before behind some =>
    intro c member
    simp only [List.mem_append, List.mem_cons] at member
    rcases member with member | rfl | member
    · simp [Decimal.inNumber, before c member]
    · rfl
    · simp [Decimal.inNumber, behind c member]

theorem Numeral.count_le (numeral : Numeral text q) : text.count '.' ≤ 1 := by
  cases numeral with
  | whole digits some => rw [List.count_eq_zero_of_not_mem digits.no_point]; exact Nat.zero_le _
  | pointed before behind some =>
    rw [List.count_append, List.count_cons_self, List.count_eq_zero_of_not_mem before.no_point,
      List.count_eq_zero_of_not_mem behind.no_point]

theorem Numeral.ne_nil (numeral : Numeral text q) : text ≠ [] := by
  cases numeral with
  | whole digits some => exact some
  | pointed before behind some => simp

theorem Numeral.ne_point (numeral : Numeral text q) : text ≠ ['.'] := by
  cases numeral with
  | whole digits some =>
    rintro rfl
    exact digits.no_point (List.mem_singleton_self _)
  | @pointed whole frac before behind some =>
    intro point
    have length := congrArg List.length point
    simp only [List.length_append, List.length_cons, List.length_nil] at length
    apply some
    apply List.eq_nil_of_length_eq_zero
    rw [List.length_append]
    omega

/-- Apart from a lone point, such characters with one point at most are a number. -/
theorem numeral_of_count (inside : ∀ c ∈ text, inNumber c = true) (one : text.count '.' ≤ 1) :
    text = [] ∨ text = ['.'] ∨ (Digits text ∧ text ≠ []) ∨
      ∃ whole frac, text = whole ++ '.' :: frac ∧ Digits whole ∧ Digits frac ∧ whole ++ frac ≠ [] := by
  have digits : ∀ ds, (∀ c ∈ ds, c ∈ text) → '.' ∉ ds → Digits ds := by
    intro ds part none c member
    have here := inside c (part c member)
    have other : c ≠ '.' := fun point => none (point ▸ member)
    simpa [inNumber, other] using here
  by_cases point : '.' ∈ text
  · obtain ⟨whole, frac, rfl, first⟩ := List.eq_append_cons_of_mem point
    rw [List.count_append, List.count_cons_self] at one
    have last : '.' ∉ frac := List.count_eq_zero.mp (by omega)
    by_cases some : whole ++ frac = []
    · rw [List.append_eq_nil_iff] at some
      exact .inr (.inl (by simp [some]))
    · refine .inr (.inr (.inr ⟨whole, frac, rfl, digits whole ?_ first, digits frac ?_ last, some⟩))
      · intro c member
        simp [member]
      · intro c member
        simp [member]
  · by_cases some : text = []
    · exact .inl some
    · exact .inr (.inr (.inl ⟨digits text (fun _ => id) point, some⟩))

/-! ## Whole numbers with a sign -/

theorem natOf_lt (digits : Digits ds) : natOf ds < 10 ^ ds.length := by
  induction ds with
  | nil => exact Nat.one_pos
  | cons c ds ih =>
    have digit := digits c (List.mem_cons_self ..)
    have rest := ih fun d member => digits d (List.mem_cons_of_mem _ member)
    have nine : c.toNat - '0'.toNat ≤ 9 := by
      rw [isDigit_iff] at digit
      change c.toNat - 48 ≤ 9
      omega
    have times := Nat.mul_le_mul_left (10 ^ ds.length) nine
    rw [natOf_cons, List.length_cons, Nat.pow_succ]
    omega

/-- A decimal spelling of a whole number. -/
inductive Spells : List Char → Int → Prop
  | plain {ds : List Char} (digits : Digits ds) (some : ds ≠ []) : Spells ds (natOf ds)
  | minus {ds : List Char} (digits : Digits ds) (some : ds ≠ []) : Spells ('-' :: ds) (-natOf ds)

def spelling (z : Int) : List Char := (if z < 0 then ['-'] else []) ++ Nat.toDigits 10 z.natAbs

theorem digits_toDigits (n : Nat) : Digits (Nat.toDigits 10 n) :=
  fun _ member => Nat.isDigit_of_mem_toDigits (by decide) (by decide) member

theorem spelling_spells (z : Int) : Spells (spelling z) z := by
  have value : natOf (Nat.toDigits 10 z.natAbs) = z.natAbs := Nat.ofDigitChars_ten_toDigits
  by_cases negative : z < 0
  · have spells := Spells.minus (digits_toDigits z.natAbs) Nat.toDigits_ne_nil
    rw [value, show -(z.natAbs : Int) = z by omega] at spells
    simpa [spelling, negative] using spells
  · have spells := Spells.plain (digits_toDigits z.natAbs) Nat.toDigits_ne_nil
    rw [value, show (z.natAbs : Int) = z by omega] at spells
    simpa [spelling, negative] using spells

theorem toDigits_shortest (digits : Digits ds) (some : ds ≠ []) :
    (Nat.toDigits 10 (natOf ds)).length ≤ ds.length :=
  (Nat.length_toDigits_le_iff (by decide) (List.length_pos_iff.mpr some)).mpr (natOf_lt digits)

theorem spelling_shortest (spells : Spells text z) : (spelling z).length ≤ text.length := by
  cases spells with
  | plain digits some =>
    rw [spelling, if_neg (by omega), Int.natAbs_natCast, List.nil_append]
    exact toDigits_shortest digits some
  | @minus ds digits some =>
    have shortest := toDigits_shortest digits some
    rw [spelling, Int.natAbs_neg, Int.natAbs_natCast, List.length_append, List.length_cons]
    split
    · rw [List.length_singleton]
      omega
    · rw [List.length_nil]
      omega

end FomeFw.Decimal
