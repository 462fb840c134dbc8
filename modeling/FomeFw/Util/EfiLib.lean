import FomeFw.Lib.Decimal
import Mathlib.Data.List.TakeWhile
import Mathlib.Tactic.Linarith
import Mathlib.Tactic.NormNum

/-! `atoff` of `efilib.cpp`, which reads the floats of commands. Floats are rationals, `none` is
NaN, and strings end before their NUL. -/
namespace FomeFw.Util

open Decimal

/-- `isspace` in the C locale. -/
def isspace (c : Char) : Bool := c == ' ' || ('\t'.toNat ≤ c.toNat && c.toNat ≤ '\r'.toNat)

/-- An `int`, with the nearest one where there is no equal one. -/
def clampInt (n : Int) : Int := max (-2 ^ 31) (min n (2 ^ 31 - 1))

/-- `atoi` of the C library, where `long` is as wide as `int`: space, a sign and digits are read,
what follows is left, and what is too large for an `int` ends at its limit. -/
def atoi (string : List Char) : Int :=
  match string.dropWhile isspace with
  | '-' :: string => clampInt (-natOf (string.takeWhile Char.isDigit))
  | '+' :: string => clampInt (natOf (string.takeWhile Char.isDigit))
  | string => clampInt (natOf (string.takeWhile Char.isDigit))

def atoiErrorCode : Nat := 311223344

/-- `absI(value) == ATOI_ERROR_CODE`. -/
def isAtoiError (value : Int) : Bool := value.natAbs == atoiErrorCode

/-- The size of `todofixthismesswithcopy`. -/
def copySize : Nat := 100

/-- The first place of a character; `none` is -1. -/
def indexOf : List Char → Char → Option Nat
  | [], _ => none
  | x :: string, c => if x = c then some 0 else (indexOf string c).map (· + 1)

def atoff (param : List Char) : Option ℚ :=
  if param.length > copySize - 1 then none
  else if (indexOf param 'n').isSome ∨ (indexOf param 'N').isSome then none
  else match indexOf param '.' with
    | none =>
      let result := atoi param
      if isAtoiError result then none else some (result : ℚ)
    | some dotIndex =>
      let integerPart := atoi (param.take dotIndex)
      if isAtoiError integerPart then none
      else
        let string := param.drop (dotIndex + 1)
        let decimal := atoi string
        if isAtoiError decimal then none
        else some ((integerPart : ℚ) + (decimal : ℚ) / 10 ^ string.length)

/-! What `atoff` is for: an optional minus, digits, and perhaps a point and digits. -/

def written (minus : Bool) (whole frac : List Char) : List Char :=
  (if minus then ['-'] else []) ++ whole ++ (if frac = [] then [] else '.' :: frac)

def signed (minus : Bool) (n : Int) : Int := if minus then -n else n

/-- The notation of a number that fits the buffer, and whose parts fit an `int`. -/
structure Plain (minus : Bool) (whole frac : List Char) : Prop where
  before : Digits whole
  present : whole ≠ []
  behind : Digits frac
  length : (written minus whole frac).length ≤ 99
  wholeMin : -2 ^ 31 ≤ signed minus (natOf whole)
  wholeMax : signed minus (natOf whole) ≤ 2 ^ 31 - 1
  fracMax : natOf frac ≤ 2 ^ 31 - 1

def denoted (minus : Bool) (whole frac : List Char) : ℚ :=
  if minus then -value whole frac else value whole frac

/-- Such a number is read as what it denotes, and every other string as NaN. -/
def AtoffReads (param : List Char) : Prop :=
  (∀ minus whole frac, param = written minus whole frac → Plain minus whole frac →
      atoff param = some (denoted minus whole frac)) ∧
    ((¬ ∃ minus whole frac, param = written minus whole frac ∧ Plain minus whole frac) →
      atoff param = none)

/-- What `atoi` reads: what stands before and behind the first point. -/
def parts (param : List Char) : List (List Char) :=
  match indexOf param '.' with
  | none => [param]
  | some dotIndex => [param.take dotIndex, param.drop (dotIndex + 1)]

variable {param string whole frac ds : List Char} {c : Char} {minus : Bool}

theorem indexOf_isSome : (indexOf string c).isSome ↔ c ∈ string := by
  induction string with
  | nil => simp [indexOf]
  | cons x string ih =>
    rw [indexOf, List.mem_cons]
    split
    · next same => simp [same]
    · next other => simp [ih, Ne.symm other]

theorem indexOf_append (before : c ∉ string) (rest : List Char) :
    indexOf (string ++ c :: rest) c = some string.length := by
  induction string with
  | nil => simp [indexOf]
  | cons x string ih =>
    simp only [List.mem_cons, not_or] at before
    rw [List.cons_append, indexOf, if_neg (Ne.symm before.1), ih before.2]
    rfl

/-- When the result is NaN. -/
theorem atoff_eq_none : atoff param = none ↔
    99 < param.length ∨ 'n' ∈ param ∨ 'N' ∈ param ∨ ∃ part ∈ parts param, isAtoiError (atoi part) := by
  rw [atoff, parts, ← @or_assoc ('n' ∈ param), ← indexOf_isSome, ← indexOf_isSome]
  split
  · next long => simp [show 99 < param.length from long]
  · next short =>
    rw [or_iff_right (show ¬ 99 < param.length from short)]
    split
    · next nan => simp [nan]
    · next other =>
      rw [or_iff_right other]
      cases indexOf param '.' with
      | none => simp
      | some dotIndex =>
        simp only [List.mem_cons, List.not_mem_nil, or_false, exists_eq_or_imp, exists_eq_left]
        split
        · next error => simp [error]
        · next first => simp [first]

theorem isspace_digit (digit : c.isDigit = true) : isspace c = false := by
  rw [isDigit_iff] at digit
  have blank : c ≠ ' ' := by
    rintro rfl
    exact absurd digit (by decide)
  have tab : ¬ (9 ≤ c.toNat ∧ c.toNat ≤ 13) := by omega
  simpa [isspace, blank] using tab

theorem clampInt_eq {n : Int} (low : -2 ^ 31 ≤ n) (high : n ≤ 2 ^ 31 - 1) : clampInt n = n := by
  rw [clampInt, min_eq_left high, max_eq_right low]

/-- Without a sign, `atoi` reads the digits at once. -/
theorem atoi_unsigned (digits : Digits ds) : atoi ds = clampInt (natOf ds) := by
  have all : ds.takeWhile Char.isDigit = ds := List.takeWhile_eq_self_iff.mpr digits
  cases ds with
  | nil => rfl
  | cons c ds =>
    have digit := digits c (List.mem_cons_self ..)
    rw [atoi, List.dropWhile_cons_of_neg (by simp [isspace_digit digit])]
    split
    · next minus => exact absurd (List.cons.inj minus).1 (by rintro rfl; exact absurd digit (by decide))
    · next plus => exact absurd (List.cons.inj plus).1 (by rintro rfl; exact absurd digit (by decide))
    · rw [all]

theorem atoi_minus (digits : Digits ds) : atoi ('-' :: ds) = clampInt (-natOf ds) := by
  have all : ds.takeWhile Char.isDigit = ds := List.takeWhile_eq_self_iff.mpr digits
  rw [atoi, List.dropWhile_cons_of_neg (by decide)]
  simp only [all]

theorem atoi_signed (digits : Digits ds) (low : -2 ^ 31 ≤ signed minus (natOf ds))
    (high : signed minus (natOf ds) ≤ 2 ^ 31 - 1) :
    atoi ((if minus then ['-'] else []) ++ ds) = signed minus (natOf ds) := by
  cases minus with
  | true => exact (atoi_minus digits).trans (clampInt_eq low high)
  | false => exact (atoi_unsigned digits).trans (clampInt_eq low high)

theorem isAtoiError_signed (n : Nat) : isAtoiError (signed minus n) = (n == atoiErrorCode) := by
  cases minus with
  | true => simp [isAtoiError, signed]
  | false => simp [isAtoiError, signed]

theorem Plain.not_mem (plain : Plain minus whole frac) (digit : c.isDigit = false) (sign : c ≠ '-')
    (point : c ≠ '.') : c ∉ written minus whole frac := by
  have no (ds : List Char) (digits : Digits ds) : c ∉ ds := by
    intro member
    rw [digits c member] at digit
    contradiction
  simp only [written, List.mem_append, not_or]
  refine ⟨⟨?_, no whole plain.before⟩, ?_⟩
  · cases minus <;> simp [sign]
  · split
    · simp
    · simp [point, no frac plain.behind]

theorem Plain.point_not_mem (plain : Plain minus whole frac) :
    '.' ∉ (if minus then ['-'] else []) ++ whole := by
  simp only [List.mem_append, not_or]
  refine ⟨?_, plain.before.no_point⟩
  cases minus <;> decide

/-- Read as a number, when no part is the error code: the sign counts for the whole part only. -/
theorem atoff_written (plain : Plain minus whole frac) : atoff (written minus whole frac) =
    if natOf whole = atoiErrorCode ∨ natOf frac = atoiErrorCode then none
    else some ((signed minus (natOf whole) : ℚ) + (natOf frac : ℚ) / 10 ^ frac.length) := by
  have short : ¬ (written minus whole frac).length > copySize - 1 := Nat.not_lt.mpr plain.length
  have number : ¬ ((indexOf (written minus whole frac) 'n').isSome ∨
      (indexOf (written minus whole frac) 'N').isSome) := by
    rw [indexOf_isSome, indexOf_isSome, not_or]
    exact ⟨plain.not_mem (by decide) (by decide) (by decide),
      plain.not_mem (by decide) (by decide) (by decide)⟩
  have integerPart := atoi_signed plain.before plain.wholeMin plain.wholeMax
  rw [atoff, if_neg short, if_neg number]
  by_cases none : frac = []
  · subst none
    have same : written minus whole [] = (if minus then ['-'] else []) ++ whole := by simp [written]
    have pointless : indexOf ((if minus then ['-'] else []) ++ whole) '.' = Option.none := by
      rw [← Option.not_isSome_iff_eq_none, indexOf_isSome]
      exact plain.point_not_mem
    have zero : ¬ natOf [] = atoiErrorCode := by decide
    simp only [same, pointless, integerPart, isAtoiError_signed, beq_iff_eq, zero, or_false]
    simp [natOf]
  · have same : written minus whole frac = ((if minus then ['-'] else []) ++ whole) ++ '.' :: frac := by
      simp [written, none]
    have decimal : atoi frac = natOf frac := (atoi_unsigned plain.behind).trans
      (clampInt_eq (by omega) (by have := plain.fracMax; omega))
    have error : isAtoiError (natOf frac) = (natOf frac == atoiErrorCode) :=
      @isAtoiError_signed false (natOf frac)
    simp only [same, indexOf_append plain.point_not_mem, List.take_left, integerPart]
    rw [← List.drop_drop, List.drop_left, List.drop_one, List.tail_cons, decimal]
    simp only [isAtoiError_signed, error, beq_iff_eq]
    split
    · next first => simp [first]
    · next first => simp [first]

/-- Apart from the error code, the value is right when there is no minus or no fraction. -/
theorem signed_value : ((signed minus (natOf whole) : ℚ) + (natOf frac : ℚ) / 10 ^ frac.length =
    denoted minus whole frac) ↔ (minus = true → natOf frac = 0) := by
  cases minus with
  | true =>
    have scale : (10 : ℚ) ^ frac.length ≠ 0 := pow_ne_zero _ (by norm_num)
    simp only [signed, denoted, value, if_true, true_imp_iff]
    push_cast
    constructor
    · intro same
      have twice : (natOf frac : ℚ) / 10 ^ frac.length = 0 := by linarith
      have zero := (div_eq_zero_iff.mp twice).resolve_right scale
      exact_mod_cast zero
    · intro zero
      simp [zero]
  | false => simp [signed, denoted, value]

theorem plain_half : Plain true "0".toList "5".toList := by
  constructor
  all_goals decide

end FomeFw.Util
