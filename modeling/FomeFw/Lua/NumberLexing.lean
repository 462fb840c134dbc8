import FomeFw.Lib.Decimal
import Mathlib.Data.List.TakeWhile
import Mathlib.Tactic.Ring

/-! `strtof_rusefi`, with which Lua reads numbers. Floats are rationals, and strings end before
their NUL. -/
namespace FomeFw.Lua

open Decimal

/-- The local variables of the loop. -/
structure StrtofRusefi where
  afterDecimalPoint : Bool := false
  div : ℚ := 1
  integerPart : ℚ := 0
  fractionalPart : ℚ := 0

namespace StrtofRusefi

def digit (s : StrtofRusefi) (c : Char) : StrtofRusefi :=
  let digitVal : ℚ := (c.toNat - '0'.toNat : Nat)
  if s.afterDecimalPoint then
    { s with fractionalPart := 10 * s.fractionalPart + digitVal, div := s.div * 10 }
  else { s with integerPart := 10 * s.integerPart + digitVal }

/-- The loop, with how far it moves `endPtr`. -/
def loop (s : StrtofRusefi) : List Char → StrtofRusefi × Nat
  | [] => (s, 0)
  | c :: str =>
    if c.isDigit then
      let (s, moved) := (s.digit c).loop str
      (s, moved + 1)
    else if c = '.' then
      let (s, moved) := { s with afterDecimalPoint := true }.loop str
      (s, moved + 1)
    else (s, 0)

def result (s : StrtofRusefi) : ℚ := s.integerPart + s.fractionalPart / s.div

end StrtofRusefi

/-- The number read, and where `endPtr` points to. -/
def strtofRusefi (str : List Char) : ℚ × Nat :=
  let (s, endPtr) := StrtofRusefi.loop {} str
  (s.result, endPtr)

/-- The longest number at the start of the string has this value and length; the length is 0
when there is none. -/
def ReadsLongest (str : List Char) (read : ℚ × Nat) : Prop :=
  (∃ text, text <+: str ∧ Numeral text read.1 ∧ text.length = read.2 ∧
      ∀ text' q, text' <+: str → Numeral text' q → text'.length ≤ read.2) ∨
    (read.2 = 0 ∧ ∀ text q, text <+: str → ¬ Numeral text q)

/-- The characters that the loop goes through. -/
def consumed (str : List Char) : List Char := str.takeWhile inNumber

section Loop

open StrtofRusefi

variable {str ds whole frac rest : List Char} {s : StrtofRusefi}

theorem loop_moved (s : StrtofRusefi) (str : List Char) : (s.loop str).2 = (consumed str).length := by
  induction str generalizing s with
  | nil => rfl
  | cons c str ih =>
    simp only [StrtofRusefi.loop, consumed, List.takeWhile_cons, inNumber]
    by_cases digit : c.isDigit
    · simp [digit, ih, consumed]
    · by_cases point : c = '.'
      · simp [point, ih, consumed]
      · simp [digit, point]

/-- Digits before the point. -/
theorem loop_whole (digits : Digits ds) (before : s.afterDecimalPoint = false) :
    (s.loop (ds ++ rest)).1 =
      ({ s with integerPart := 10 ^ ds.length * s.integerPart + natOf ds }.loop rest).1 := by
  induction ds generalizing s with
  | nil => simp [natOf]
  | cons c ds ih =>
    have here : c.isDigit = true := digits c (List.mem_cons_self ..)
    have later := @ih (s.digit c) (fun c member => digits c (List.mem_cons_of_mem _ member))
      (by simp [digit, before])
    rw [List.cons_append, StrtofRusefi.loop, if_pos here]
    simp only [later]
    congr 2
    simp only [digit, before, Bool.false_eq_true, if_false, StrtofRusefi.mk.injEq, natOf_cons,
      List.length_cons, true_and, and_true]
    push_cast
    ring

/-- Digits behind it. -/
theorem loop_frac (digits : Digits ds) (behind : s.afterDecimalPoint = true) :
    (s.loop (ds ++ rest)).1 =
      ({ s with fractionalPart := 10 ^ ds.length * s.fractionalPart + natOf ds,
                div := s.div * 10 ^ ds.length }.loop rest).1 := by
  induction ds generalizing s with
  | nil => simp [natOf]
  | cons c ds ih =>
    have here : c.isDigit = true := digits c (List.mem_cons_self ..)
    have later := @ih (s.digit c) (fun c member => digits c (List.mem_cons_of_mem _ member))
      (by simp [digit, behind])
    rw [List.cons_append, StrtofRusefi.loop, if_pos here]
    simp only [later]
    congr 2
    simp only [digit, behind, if_true, StrtofRusefi.mk.injEq, natOf_cons,
      List.length_cons, true_and]
    constructor
    · ring
    · push_cast
      ring

theorem loop_stop (stops : ∀ c ∈ rest.head?, inNumber c = false) : s.loop rest = (s, 0) := by
  cases rest with
  | nil => rfl
  | cons c rest =>
    have stop := stops c (by simp)
    simp only [inNumber, Bool.or_eq_false_iff, beq_eq_false_iff_ne] at stop
    rw [StrtofRusefi.loop, if_neg (by simp [stop.1]), if_neg stop.2]

/-- What is read of digits. -/
theorem strtofRusefi_whole (digits : Digits ds) (stops : ∀ c ∈ rest.head?, inNumber c = false) :
    (strtofRusefi (ds ++ rest)).1 = value ds [] := by
  simp only [strtofRusefi, loop_whole digits, loop_stop stops]
  simp [result]

/-- What is read of digits around a point. -/
theorem strtofRusefi_pointed (before : Digits whole) (behind : Digits frac)
    (stops : ∀ c ∈ rest.head?, inNumber c = false) :
    (strtofRusefi (whole ++ '.' :: frac ++ rest)).1 = value whole frac := by
  simp only [strtofRusefi, List.append_assoc, List.cons_append, loop_whole before]
  rw [StrtofRusefi.loop, if_neg (by decide), if_pos rfl]
  simp only [loop_frac behind, loop_stop stops]
  simp [result, value]

end Loop

section Longest

variable {str text : List Char} {q : ℚ}

theorem consumed_split (str : List Char) : ∃ rest, str = consumed str ++ rest ∧
    ∀ c ∈ rest.head?, inNumber c = false := by
  refine ⟨str.dropWhile inNumber, (List.takeWhile_append_dropWhile).symm, ?_⟩
  intro c first
  have stop := List.head?_dropWhile_not inNumber str
  rw [Option.mem_def.mp first] at stop
  simpa using stop

theorem consumed_inNumber (str : List Char) : ∀ c ∈ consumed str, inNumber c = true :=
  fun _ member => List.mem_takeWhile_imp member

theorem start_consumed (start : text <+: str) (numeral : Numeral text q) : text <+: consumed str := by
  obtain ⟨rest, rfl⟩ := start
  rw [consumed, List.takeWhile_append_of_pos numeral.inNumber]
  exact List.prefix_append _ _

/-- The number read is the longest one just where the characters gone through have one point at
most and are not a point alone. -/
theorem readsLongest_iff (str : List Char) : ReadsLongest str (strtofRusefi str) ↔
    (consumed str).count '.' ≤ 1 ∧ consumed str ≠ ['.'] := by
  have moved : (strtofRusefi str).2 = (consumed str).length := loop_moved _ _
  constructor
  · rintro (⟨text, start, numeral, length, -⟩ | ⟨none, -⟩)
    · have same := (start_consumed start numeral).eq_of_length (length.trans moved)
      rw [← same]
      exact ⟨numeral.count_le, numeral.ne_point⟩
    · rw [List.eq_nil_of_length_eq_zero (moved.symm.trans none)]
      simp
  · rintro ⟨one, lone⟩
    obtain ⟨rest, split, stops⟩ := consumed_split str
    have longest : ∀ text' q, text' <+: str → Numeral text' q → text'.length ≤ (strtofRusefi str).2 := by
      intro text' q start numeral
      rw [moved]
      exact (start_consumed start numeral).length_le
    have start : consumed str <+: str := ⟨rest, split.symm⟩
    rcases numeral_of_count (consumed_inNumber str) one with none | point | ⟨digits, some⟩ |
      ⟨whole, frac, pointed, before, behind, some⟩
    · refine .inr ⟨by rw [moved, none]; rfl, ?_⟩
      intro text q start numeral
      have empty := start_consumed start numeral
      rw [none, List.prefix_nil] at empty
      exact numeral.ne_nil empty
    · exact absurd point lone
    · refine .inl ⟨consumed str, start, ?_, moved.symm, longest⟩
      have read := strtofRusefi_whole digits stops
      rw [← split] at read
      rw [read]
      exact .whole digits some
    · refine .inl ⟨consumed str, start, ?_, moved.symm, longest⟩
      have read := strtofRusefi_pointed before behind stops
      rw [← pointed, ← split] at read
      rw [read, pointed]
      exact .pointed before behind some

/-- A second point is gone through as well. -/
theorem readsLongest_version : ¬ ReadsLongest "1.2.3".toList (strtofRusefi "1.2.3".toList) := by
  have moved : (strtofRusefi "1.2.3".toList).2 = 5 := by
    rw [strtofRusefi]
    exact (loop_moved {} "1.2.3".toList).trans (by decide)
  rintro (⟨text, start, numeral, length, -⟩ | ⟨none, -⟩)
  · rw [start.eq_of_length (length.trans moved)] at numeral
    exact absurd numeral.count_le (by decide)
  · rw [moved] at none
    contradiction

end Longest

end FomeFw.Lua
