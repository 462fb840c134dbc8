import FomeFw.Util.CommandWords
import Mathlib.Data.List.Nodup

/-! What a command line says, and what comes of it. -/
namespace FomeFw.Util

open Decimal

/-! The arguments of the registrations. -/

inductive ArgumentType where
  | int | float | floatNan | string
  deriving DecidableEq, Repr

/-- The arguments named by the function that registers the action. -/
def Registration.types : Registration → List ArgumentType
  | .addConsoleAction .. | .addConsoleActionP .. => []
  | .addConsoleActionI .. | .addConsoleActionIP .. => [.int]
  | .addConsoleActionII .. | .addConsoleActionIIP .. => [.int, .int]
  | .addConsoleActionIF .. => [.int, .float]
  | .addConsoleActionS .. | .addConsoleActionSP .. => [.string]
  | .addConsoleActionSS .. | .addConsoleActionSSP .. => [.string, .string]
  | .addConsoleActionSSS .. => [.string, .string, .string]
  | .addConsoleActionSSSSS .. => [.string, .string, .string, .string, .string]
  | .addConsoleActionNANF .. => [.floatNan]
  | .addConsoleActionF .. => [.float]
  | .addConsoleActionFF .. | .addConsoleActionFFP .. => [.float, .float]
  | .addConsoleActionFFF .. => [.float, .float, .float]
  | .addConsoleActionFFFF .. => [.float, .float, .float, .float]

/-- The pointer behind them. -/
def Registration.pointer : Registration → List Argument
  | .addConsoleActionP _ _ param | .addConsoleActionIP _ _ param | .addConsoleActionIIP _ _ param
  | .addConsoleActionSP _ _ param | .addConsoleActionSSP _ _ param
  | .addConsoleActionFFP _ _ param => [.pointer param]
  | _ => []

/-- The notation of an integer. -/
inductive Integral : List Char → Int → Prop
  | unsigned {ds : List Char} (digits : Digits ds) (present : ds ≠ []) : Integral ds (natOf ds)
  | plus {ds : List Char} (digits : Digits ds) (present : ds ≠ []) : Integral ('+' :: ds) (natOf ds)
  | minus {ds : List Char} (digits : Digits ds) (present : ds ≠ []) : Integral ('-' :: ds) (-natOf ds)

/-- What a word says as an argument. -/
inductive Reads : ArgumentType → List Char → Argument → Prop
  | int {word : List Char} {n : Int} (integral : Integral word n) (low : -2 ^ 31 ≤ n)
      (high : n ≤ 2 ^ 31 - 1) : Reads .int word (.int n)
  | float {minus : Bool} {whole frac : List Char} (plain : Plain minus whole frac) :
      Reads .float (written minus whole frac) (.float (some (denoted minus whole frac)))
  | floatNan {minus : Bool} {whole frac : List Char} (plain : Plain minus whole frac) :
      Reads .floatNan (written minus whole frac) (.float (some (denoted minus whole frac)))
  | nan {word : List Char}
      (other : ¬ ∃ minus whole frac, word = written minus whole frac ∧ Plain minus whole frac) :
      Reads .floatNan word (.float none)
  | string {word : List Char} : Reads .string word (.string word)

inductive ReadsAll : List ArgumentType → List (List Char) → List Argument → Prop
  | nil : ReadsAll [] [] []
  | cons {type : ArgumentType} {word : List Char} {value : Argument} {types : List ArgumentType}
      {words : List (List Char)} {values : List Argument} (first : Reads type word value)
      (rest : ReadsAll types words values) : ReadsAll (type :: types) (word :: words) (value :: values)

/-- The action is called once, with the arguments that the words say, and not at all when they
say none. -/
def Dispatches (invoked : List Invocation) (r : Registration) (words : List (List Char)) : Prop :=
  (∀ values, ReadsAll r.types words values →
      invoked = [⟨r.entry.callback, values ++ r.pointer⟩]) ∧
    ((¬ ∃ values, ReadsAll r.types words values) → invoked = [])

/-- The registrations whose type is missing in one of the two `switch` statements. -/
def Registration.isLost : Registration → Bool
  | .addConsoleActionSP .. | .addConsoleActionNANF .. | .addConsoleActionIIP .. => true
  | _ => false

def Unreadable (type : ArgumentType) (word : List Char) : Prop := ¬ ∃ value, Reads type word value

/-- A word that `atoi` or `atoff` reads as it is meant. -/
def WellRead : ArgumentType → List Char → Prop
  | .int, word => ∃ n, Integral word n ∧ -2 ^ 31 ≤ n ∧ n ≤ 2 ^ 31 - 1 ∧ n.natAbs ≠ atoiErrorCode
  | .float, word => ∃ minus whole frac, word = written minus whole frac ∧ Plain minus whole frac ∧
      natOf whole ≠ atoiErrorCode ∧ natOf frac ≠ atoiErrorCode ∧ (minus = true → natOf frac = 0)
  | .floatNan, _ | .string, _ => True

/-- A word that they refuse. -/
def Refused : ArgumentType → List Char → Prop
  | .int, word => isAtoiError (atoi word) = true
  | .float, word => 99 < word.length ∨ 'n' ∈ word ∨ 'N' ∈ word ∨
      ∃ part ∈ parts word, isAtoiError (atoi part) = true
  | .floatNan, _ | .string, _ => False

/-- What is made of a word. -/
def readArgument : ArgumentType → List Char → Option Argument
  | .int, word => if isAtoiError (atoi word) then none else some (.int (atoi word))
  | .float, word => (atoff word).map fun value => .float (some value)
  | .floatNan, word => some (.float (atoff word))
  | .string, word => some (.string word)

def readAll : List ArgumentType → List (List Char) → Option (List Argument)
  | type :: types, word :: words => do return (← readArgument type word) :: (← readAll types words)
  | _, _ => some []

section Reading

variable {type : ArgumentType} {types : List ArgumentType} {word ds whole frac : List Char}
variable {words : List (List Char)} {value : Argument} {values : List Argument} {n : Int}

theorem atoi_plus (digits : Digits ds) : atoi ('+' :: ds) = clampInt (natOf ds) := by
  have all : ds.takeWhile Char.isDigit = ds := List.takeWhile_eq_self_iff.mpr digits
  rw [atoi, List.dropWhile_cons_of_neg (by decide)]
  simp only [all]

theorem Integral.atoi (integral : Integral word n) (low : -2 ^ 31 ≤ n) (high : n ≤ 2 ^ 31 - 1) :
    atoi word = n := by
  cases integral with
  | unsigned digits present => exact (atoi_unsigned digits).trans (clampInt_eq low high)
  | plus digits present => exact (atoi_plus digits).trans (clampInt_eq low high)
  | minus digits present => exact (atoi_minus digits).trans (clampInt_eq low high)

theorem takeWhile_unsigned (digits : Digits whole) :
    (whole ++ if frac = [] then [] else '.' :: frac).takeWhile Char.isDigit = whole := by
  split
  · rw [List.append_nil]
    exact List.takeWhile_eq_self_iff.mpr digits
  · exact digits.takeWhile point_not_digit

theorem unsigned_inj {whole' frac' : List Char} (digits : Digits whole) (digits' : Digits whole')
    (same : (whole ++ if frac = [] then [] else '.' :: frac) =
      whole' ++ if frac' = [] then [] else '.' :: frac') : whole = whole' ∧ frac = frac' := by
  obtain rfl : whole = whole' := by
    rw [← @takeWhile_unsigned whole frac digits, same, takeWhile_unsigned digits']
  refine ⟨rfl, ?_⟩
  have behind := List.append_cancel_left same
  by_cases none : frac = []
  · by_cases none' : frac' = []
    · rw [none, none']
    · simp [none, none'] at behind
  · by_cases none' : frac' = []
    · simp [none, none'] at behind
    · simpa [none, none'] using behind

/-- A number is written in one way. -/
theorem written_inj {minus minus' : Bool} {whole' frac' : List Char} (plain : Plain minus whole frac)
    (plain' : Plain minus' whole' frac') (same : written minus whole frac = written minus' whole' frac') :
    minus = minus' ∧ whole = whole' ∧ frac = frac' := by
  have signless : ∀ {whole frac rest : List Char}, Digits whole → whole ≠ [] →
      (whole ++ if frac = [] then [] else '.' :: frac) ≠ '-' :: rest := by
    intro whole frac rest digits present signed
    cases whole with
    | nil => contradiction
    | cons c whole =>
      have digit := digits c (List.mem_cons_self ..)
      rw [(List.cons.inj signed).1] at digit
      exact absurd digit (by decide)
  simp only [written, List.append_assoc] at same
  cases minus with
  | true =>
    cases minus' with
    | true => exact ⟨rfl, unsigned_inj plain.before plain'.before (List.cons.inj same).2⟩
    | false => exact absurd same.symm (signless plain'.before plain'.present)
  | false =>
    cases minus' with
    | true => exact absurd same (signless plain.before plain.present)
    | false => exact ⟨rfl, unsigned_inj plain.before plain'.before same⟩

theorem Reads.unique {value' : Argument} (reads : Reads type word value)
    (reads' : Reads type word value') : value = value' := by
  cases reads with
  | int integral low high =>
    cases reads' with
    | int integral' low' high' => rw [← integral.atoi low high, integral'.atoi low' high']
  | @float minus whole frac plain =>
    generalize same : written minus whole frac = word at reads'
    cases reads' with
    | float plain' =>
      obtain ⟨rfl, rfl, rfl⟩ := written_inj plain plain' same
      rfl
  | @floatNan minus whole frac plain =>
    generalize same : written minus whole frac = word at reads'
    cases reads' with
    | floatNan plain' =>
      obtain ⟨rfl, rfl, rfl⟩ := written_inj plain plain' same
      rfl
    | nan other => exact absurd ⟨_, _, _, same.symm, plain⟩ other
  | nan other =>
    cases reads' with
    | floatNan plain' => exact absurd ⟨_, _, _, rfl, plain'⟩ other
    | nan other' => rfl
  | string =>
    cases reads' with
    | string => rfl

theorem refused_iff : Refused type word ↔ readArgument type word = none := by
  cases type with
  | int => simp [Refused, readArgument]
  | float => rw [Refused, ← atoff_eq_none, readArgument, Option.map_eq_none_iff]
  | floatNan => simp [Refused, readArgument]
  | string => simp [Refused, readArgument]

theorem Reads.wellRead_iff (reads : Reads type word value) (number : type ≠ .floatNan) :
    readArgument type word = some value ↔ WellRead type word := by
  cases reads with
  | @int word n integral low high =>
    have read := integral.atoi low high
    simp only [readArgument, read, WellRead, isAtoiError]
    constructor
    · intro same
      refine ⟨n, integral, low, high, ?_⟩
      intro error
      simp [error] at same
    · rintro ⟨n', integral', low', high', sound⟩
      rw [integral'.atoi low' high'] at read
      subst read
      simp [sound]
  | @float minus whole frac plain =>
    simp only [readArgument, atoff_written plain, WellRead]
    constructor
    · intro same
      refine ⟨minus, whole, frac, rfl, plain, ?_⟩
      split at same
      · contradiction
      · next sound =>
        rw [not_or] at sound
        simp only [Option.map_some, Option.some.injEq, Argument.float.injEq] at same
        exact ⟨sound.1, sound.2, signed_value.mp same⟩
    · rintro ⟨minus', whole', frac', same, plain', first, second, sign⟩
      obtain ⟨rfl, rfl, rfl⟩ := written_inj plain plain' same
      rw [if_neg (not_or.mpr ⟨first, second⟩), signed_value.mpr sign]
      rfl
  | floatNan plain => contradiction
  | nan other => contradiction
  | string => simp [readArgument, WellRead]

theorem WellRead.reads (well : WellRead type word) (number : type ≠ .floatNan) :
    ∃ value, Reads type word value := by
  cases type with
  | int =>
    obtain ⟨n, integral, low, high, -⟩ := well
    exact ⟨_, .int integral low high⟩
  | float =>
    obtain ⟨minus, whole, frac, rfl, plain, -⟩ := well
    exact ⟨_, .float plain⟩
  | floatNan => contradiction
  | string => exact ⟨_, .string⟩

theorem ReadsAll.length (reads : ReadsAll types words values) : words.length = types.length := by
  induction reads with
  | nil => rfl
  | cons _ _ ih => rw [List.length_cons, List.length_cons, ih]

theorem ReadsAll.unique {values' : List Argument} (reads : ReadsAll types words values)
    (reads' : ReadsAll types words values') : values = values' := by
  induction reads generalizing values' with
  | nil =>
    cases reads' with
    | nil => rfl
  | cons first _ ih =>
    cases reads' with
    | cons first' rest' => rw [first.unique first', ih rest']

theorem readsAll_or (same : words.length = types.length) :
    (∃ values, ReadsAll types words values) ∨ ∃ p ∈ types.zip words, Unreadable p.1 p.2 := by
  induction types generalizing words with
  | nil =>
    obtain rfl := List.eq_nil_of_length_eq_zero same
    exact .inl ⟨[], .nil⟩
  | cons type types ih =>
    cases words with
    | nil => contradiction
    | cons word words =>
      by_cases readable : ∃ value, Reads type word value
      · obtain ⟨value, reads⟩ := readable
        rcases ih (Nat.succ.inj same) with ⟨values, rest⟩ | ⟨p, member, unreadable⟩
        · exact .inl ⟨value :: values, .cons reads rest⟩
        · exact .inr ⟨p, List.mem_cons_of_mem _ member, unreadable⟩
      · exact .inr ⟨(type, word), List.mem_cons_self .., readable⟩

theorem ReadsAll.readable (reads : ReadsAll types words values) :
    ∀ p ∈ types.zip words, ¬ Unreadable p.1 p.2 := by
  induction reads with
  | nil => simp
  | @cons type word value types words values first _ ih =>
    rw [List.zip_cons_cons, List.forall_mem_cons]
    exact ⟨not_not_intro ⟨value, first⟩, ih⟩

theorem readsAll_iff (same : words.length = types.length) :
    (∃ values, ReadsAll types words values) ↔ ¬ ∃ p ∈ types.zip words, Unreadable p.1 p.2 := by
  constructor
  · rintro ⟨values, reads⟩ ⟨p, member, unreadable⟩
    exact reads.readable p member unreadable
  · intro readable
    exact (readsAll_or same).resolve_right readable

/-- All of the words are read as they are meant just when each of them is. -/
theorem ReadsAll.readAll_iff (reads : ReadsAll types words values) (numbers : .floatNan ∉ types) :
    readAll types words = some values ↔ ∀ p ∈ types.zip words, WellRead p.1 p.2 := by
  induction reads with
  | nil => simp [readAll]
  | @cons type word value types words values first _ ih =>
    simp only [List.mem_cons, not_or] at numbers
    rw [List.zip_cons_cons, List.forall_mem_cons, ← first.wellRead_iff (Ne.symm numbers.1),
      ← ih numbers.2, readAll]
    cases readArgument type word with
    | none => simp
    | some value' =>
      cases readAll types words with
      | none => simp
      | some values' => simp

theorem wellRead_readsAll (same : words.length = types.length) (numbers : .floatNan ∉ types)
    (well : ∀ p ∈ types.zip words, WellRead p.1 p.2) : ∃ values, ReadsAll types words values := by
  rw [readsAll_iff same]
  rintro ⟨p, member, unreadable⟩
  apply unreadable
  apply (well p member).reads
  intro nan
  exact numbers (nan ▸ (List.of_mem_zip member).1)

theorem readAll_eq_none (same : words.length = types.length) :
    readAll types words = none ↔ ∃ p ∈ types.zip words, Refused p.1 p.2 := by
  induction types generalizing words with
  | nil =>
    obtain rfl := List.eq_nil_of_length_eq_zero same
    simp [readAll]
  | cons type types ih =>
    cases words with
    | nil => contradiction
    | cons word words =>
      rw [List.zip_cons_cons, List.exists_mem_cons_iff, refused_iff, ← ih (Nat.succ.inj same), readAll]
      cases readArgument type word with
      | none => simp
      | some value =>
        cases readAll types words with
        | none => simp
        | some values => simp

end Reading

section Dispatch

variable {r : Registration} {args words : List (List Char)}

theorem toOption_bind {A B : Type} (x : Except Message A) (f : A → Except Message B) :
    (x >>= f).toOption = x.toOption.bind fun a => (f a).toOption := by
  cases x with
  | error message => rfl
  | ok a => rfl

theorem intArgument_eq (shown word : List Char) :
    (intArgument shown word).toOption = readArgument .int word := by
  simp only [intArgument, readArgument]
  split
  · rfl
  · rfl

theorem floatArgument_eq (word : List Char) :
    (floatArgument word).toOption = readArgument .float word := by
  simp only [floatArgument, readArgument]
  cases atoff word with
  | none => rfl
  | some value => rfl

theorem floatArguments_eq (args : List (List Char)) (i : Nat) (argv : Nat → List Char)
    (same : ∀ j (inside : j < args.length), argv (i + j) = args[j]) :
    (floatArguments argv args.length i).toOption = readAll (args.map fun _ => .float) args := by
  induction args generalizing i with
  | nil => rfl
  | cons word args ih =>
    have first : argv i = word := same 0 (Nat.succ_pos _)
    have later := ih (i + 1) fun j inside => by
      rw [Nat.add_assoc, Nat.add_comm 1 j]
      exact same (j + 1) (Nat.succ_lt_succ inside)
    simp only [List.length_cons, floatArguments, toOption_bind, first, floatArgument_eq, later,
      List.map_cons, readAll]
    rfl

theorem floatArguments_call (args : List (List Char)) (callback : Nat) (pointer : List Argument) :
    (do return Invocation.mk callback ((← floatArguments (fun i => args.getD i []) args.length 0) ++
        pointer) : Except Message Invocation).toOption =
      (readAll (args.map fun _ => .float) args).map fun values => ⟨callback, values ++ pointer⟩ := by
  rw [toOption_bind, floatArguments_eq args 0]
  · cases readAll (args.map fun _ => .float) args <;> rfl
  · intro j inside
    rw [Nat.zero_add, List.getD_eq_getElem?_getD, List.getElem?_eq_getElem inside]
    rfl

/-- The registrations that are not lost read their words one after the other. -/
theorem handleActionWithParameter_eq (kept : r.isLost = false) (same : args.length = r.types.length) :
    (handleActionWithParameter r.entry fun i => args.getD i []).toOption =
      (readAll r.types args).map fun values => ⟨r.entry.callback, values ++ r.pointer⟩ := by
  cases r with
  | addConsoleAction token callback | addConsoleActionP token callback param =>
    obtain rfl := List.eq_nil_of_length_eq_zero same
    rfl
  | addConsoleActionS token callback =>
    obtain ⟨a, rfl⟩ := List.length_eq_one_iff.mp same
    rfl
  | addConsoleActionSS token callback | addConsoleActionSSP token callback param =>
    obtain ⟨a, b, rfl⟩ := List.length_eq_two.mp same
    rfl
  | addConsoleActionSSS token callback =>
    obtain ⟨a, b, c, rfl⟩ := List.length_eq_three.mp same
    rfl
  | addConsoleActionSSSSS token callback =>
    match args, same with
    | [_, _, _, _, _], _ => rfl
  | addConsoleActionI token callback | addConsoleActionIP token callback param =>
    obtain ⟨a, rfl⟩ := List.length_eq_one_iff.mp same
    simp only [handleActionWithParameter, Registration.entry, toOption_bind, intArgument_eq,
      Registration.types, readAll, List.getD_cons_zero]
    cases readArgument .int a <;> rfl
  | addConsoleActionII token callback =>
    obtain ⟨a, b, rfl⟩ := List.length_eq_two.mp same
    simp only [handleActionWithParameter, Registration.entry, toOption_bind, intArgument_eq,
      Registration.types, readAll, List.getD_cons_zero, List.getD_cons_succ]
    cases readArgument .int a <;> cases readArgument .int b <;> rfl
  | addConsoleActionIF token callback =>
    obtain ⟨a, b, rfl⟩ := List.length_eq_two.mp same
    simp only [handleActionWithParameter, Registration.entry, toOption_bind, intArgument_eq,
      floatArgument_eq, Registration.types, readAll, List.getD_cons_zero, List.getD_cons_succ]
    cases readArgument .int a <;> cases readArgument .float b <;> rfl
  | addConsoleActionF token callback =>
    obtain ⟨a, rfl⟩ := List.length_eq_one_iff.mp same
    simp only [handleActionWithParameter, Registration.entry, toOption_bind, floatArgument_eq,
      Registration.types, readAll, List.getD_cons_zero]
    cases readArgument .float a <;> rfl
  | addConsoleActionFF token callback =>
    obtain ⟨a, b, rfl⟩ := List.length_eq_two.mp same
    have called := floatArguments_call [a, b] callback []
    simp only [List.append_nil] at called
    simp only [Registration.pointer, List.append_nil]
    exact called
  | addConsoleActionFFP token callback param =>
    obtain ⟨a, b, rfl⟩ := List.length_eq_two.mp same
    exact floatArguments_call [a, b] callback [.pointer param]
  | addConsoleActionFFF token callback =>
    obtain ⟨a, b, c, rfl⟩ := List.length_eq_three.mp same
    have called := floatArguments_call [a, b, c] callback []
    simp only [List.append_nil] at called
    simp only [Registration.pointer, List.append_nil]
    exact called
  | addConsoleActionFFFF token callback =>
    match args, same with
    | [a, b, c, d], _ =>
      have called := floatArguments_call [a, b, c, d] callback []
      simp only [List.append_nil] at called
      simp only [Registration.pointer, List.append_nil]
      exact called
  | addConsoleActionIIP token callback param => contradiction
  | addConsoleActionSP token callback param => contradiction
  | addConsoleActionNANF token callback => contradiction

theorem getParameterCount_kept (kept : r.isLost = false) :
    getParameterCount r.entry.parameterType = r.types.length := by
  cases r <;> first | rfl | contradiction

theorem handle_lost (lost : r.isLost = true)
    (same : (args.length : Int) = getParameterCount r.entry.parameterType) (argv : Nat → List Char) :
    (handleActionWithParameter r.entry argv).toOption = none := by
  cases r with
  | addConsoleActionIIP token callback param => rfl
  | addConsoleActionSP token callback param => simp [Registration.entry, getParameterCount] at same
  | addConsoleActionNANF token callback => simp [Registration.entry, getParameterCount] at same
  | _ => contradiction

/-- What is invoked for a registered action. -/
theorem dispatches_of_readAll {invoked : List Invocation} (numbers : .floatNan ∉ r.types)
    (same : args.length = r.types.length)
    (calls : invoked = ((readAll r.types args).map fun values =>
      ⟨r.entry.callback, values ++ r.pointer⟩).toList) :
    Dispatches invoked r args ↔ (∀ p ∈ r.types.zip args, WellRead p.1 p.2) ∨
      (∃ p ∈ r.types.zip args, Unreadable p.1 p.2) ∧ ∃ p ∈ r.types.zip args, Refused p.1 p.2 := by
  subst calls
  rw [← readAll_eq_none same]
  by_cases readable : ∃ values, ReadsAll r.types args values
  · have none := (readsAll_iff same).mp readable
    obtain ⟨values, reads⟩ := readable
    rw [← reads.readAll_iff numbers]
    constructor
    · rintro ⟨meant, -⟩
      have once := meant values reads
      cases read : readAll r.types args with
      | none => simp [read] at once
      | some values' =>
        refine .inl (congrArg some ?_)
        simpa [read] using once
    · rintro (read | ⟨unreadable, -⟩)
      · refine ⟨?_, fun none => absurd ⟨values, reads⟩ none⟩
        intro values' reads'
        rw [read, reads'.unique reads]
        rfl
      · exact absurd unreadable none
  · have some := (not_congr (readsAll_iff same)).mp readable
    rw [not_not] at some
    constructor
    · rintro ⟨-, never⟩
      refine .inr ⟨some, ?_⟩
      simpa using never readable
    · rintro (well | ⟨-, read⟩)
      · exact absurd (wellRead_readsAll same numbers well) readable
      · refine ⟨fun values reads => absurd ⟨values, reads⟩ readable, fun _ => ?_⟩
        rw [read]
        rfl

theorem dispatches_none : Dispatches [] r args ↔ ¬ ∃ values, ReadsAll r.types args values := by
  constructor
  · rintro ⟨meant, -⟩ ⟨values, reads⟩
    exact absurd (meant values reads) (List.cons_ne_nil _ _).symm
  · intro none
    exact ⟨fun values reads => absurd ⟨values, reads⟩ none, fun _ => rfl⟩

/-- The actions in the table after the registrations. -/
def registered (rs : List Registration) : ConsoleActions := rs.foldl ConsoleActions.register {}

theorem register_sublist (c : ConsoleActions) (rs : List Registration) :
    (rs.foldl ConsoleActions.register c).actions.Sublist (c.actions ++ rs.map Registration.entry) := by
  induction rs generalizing c with
  | nil => simp
  | cons r rs ih =>
    apply (ih (c.register r)).trans
    have here : (c.register r).actions.Sublist (c.actions ++ [r.entry]) := by
      simp only [ConsoleActions.register, ConsoleActions.doAddAction]
      split
      · exact .refl _
      · exact List.sublist_append_left _ _
    simpa using here.append_right (rs.map Registration.entry)

/-- Of actions with distinct tokens the first with a token is the only one. -/
theorem find_registered {rs : List Registration} {action : TokenCallback}
    (distinct : (rs.map fun r => r.entry.token).Nodup) (known : action ∈ (registered rs).actions) :
    (registered rs).actions.find? (fun current => action.token == current.token) = some action := by
  have apart : ((registered rs).actions.map TokenCallback.token).Nodup := by
    have sub := (register_sublist {} rs).map TokenCallback.token
    apply sub.nodup
    simpa [Function.comp_def] using distinct
  cases found : (registered rs).actions.find? fun current => action.token == current.token with
  | none => exact absurd (beq_self_eq_true _) (List.find?_eq_none.mp found action known)
  | some current =>
    have same := List.find?_some found
    rw [beq_iff_eq] at same
    rw [List.inj_on_of_nodup_map apart (List.mem_of_find?_eq_some found) known same.symm]

theorem takeWhile_no_nul (line : List Char) : '\x00' ∉ line.takeWhile (· != '\x00') := by
  intro member
  exact absurd (List.mem_takeWhile_imp member) (by decide)

/-- A line is its words: the first names the action, and the next nine are its arguments. -/
theorem handleConsoleLine_invokes {c : ConsoleActions} {line cmd : List Char} {action : TokenCallback}
    (short : strlen line ≤ maxCmdLineLength)
    (split : Tokens (line.takeWhile (· != '\x00')) (cmd :: args))
    (found : c.actions.find? (fun current => cmd == current.token) = some action) :
    (handleConsoleLine c line).1 =
      if ((args.take 9).length : Int) ≠ getParameterCount action.parameterType then []
      else (handleActionWithParameter action fun i => (args.take 9).getD i []).toOption.toList := by
  have buffer : line.take (min (strlen line) maxCmdLineLength) = line.takeWhile (· != '\x00') := by
    rw [min_eq_left short, strlen]
    exact (List.prefix_iff_eq_take.mp (List.takeWhile_prefix _)).symm
  obtain ⟨memory, offsets, scanned, strings⟩ := setargs_tokens split (takeWhile_no_nul line) 10
  rw [List.take_succ_cons, List.map_eq_cons_iff] at strings
  obtain ⟨first, rest, rfl, name, arguments⟩ := strings
  rw [handleConsoleLine, if_neg (Nat.not_lt.mpr short)]
  simp only [handleConsoleLineInternal, buffer, scanned, name, found, arguments]
  by_cases count : ((args.take 9).length : Int) ≠ getParameterCount action.parameterType
  · rw [if_pos count, if_pos count]
  · rw [if_neg count, if_neg count]
    cases handleActionWithParameter action fun i => (args.take 9).getD i [] with
    | error message => rfl
    | ok invocation => rfl

theorem length_types_le (r : Registration) : r.types.length ≤ 5 := by
  cases r <;> simp [Registration.types]

theorem kept_numbers (kept : r.isLost = false) : .floatNan ∉ r.types := by
  cases r <;> first | contradiction | simp [Registration.types]

theorem word_of_visible {word : List Char} (visible : ∀ c ∈ word, isspace c = false ∧ c ≠ '"') :
    Word word := by
  induction word with
  | nil => exact .nil
  | cons c word ih =>
    have here := visible c (List.mem_cons_self ..)
    exact .plain here.1 here.2 (ih fun c member => visible c (List.mem_cons_of_mem _ member))

theorem visible_of_all {word : List Char} (all : word.all fun c => !isspace c && c != '"') :
    ∀ c ∈ word, isspace c = false ∧ c ≠ '"' := by
  intro c member
  have visible := List.all_eq_true.mp all c member
  rwa [Bool.and_eq_true, Bool.not_eq_true', bne_iff_ne] at visible

theorem tokens_two {first second : List Char} (word : first.all fun c => !isspace c && c != '"')
    (word' : second.all fun c => !isspace c && c != '"') (present : first ≠ [])
    (present' : second ≠ []) : Tokens (first ++ ' ' :: second) [first, second] := by
  have last : Tokens ([' '] ++ (second ++ [])) [second] :=
    .cons (by simp [isspace]) (word_of_visible (visible_of_all word')) present' (by simp)
      (.nil (by simp))
  rw [List.append_nil] at last
  exact @Tokens.cons [] _ _ _ (by simp) (word_of_visible (visible_of_all word)) present
    (by simp [isspace]) last

/-- The registration of `echo`. -/
def echoAction : Registration := .addConsoleActionI "echo".toList 1

end Dispatch

end FomeFw.Util
