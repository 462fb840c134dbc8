import FomeFw.Lib.FixedArray
import FomeFw.Lib.Machine
import Mathlib.Data.List.Nodup
import Mathlib.Tactic.IntervalCases

/-! `malfunction_central.cpp` and `malfunction_indicator.cpp`: the set of error codes, and the lamp
that blinks them digit by digit. -/
namespace FomeFw.Engine

abbrev ObdCode := BitVec 16

def maxErrorCodesCount : Nat := 10

structure ErrorCodesSet where
  count : Nat := 0
  errorCodes : FixedArray maxErrorCodesCount ObdCode := .fill 0

namespace ErrorCodesSet

/-- `for (int t = 0; t < count; t++)`, so many rounds before its end. -/
def findFrom (errorCodes : FixedArray maxErrorCodesCount ObdCode) (code : ObdCode) (t : Nat) :
    Nat → Option (Option Nat)
  | 0 => some none
  | rounds + 1 => do
    if (← errorCodes.load t) = code then return some t
    else findFrom errorCodes code (t + 1) rounds

/-- The position, if the code is found. -/
def findPosition (s : ErrorCodesSet) (code : ObdCode) : Option (Option Nat) :=
  findFrom s.errorCodes code 0 s.count

def addError (s : ErrorCodesSet) (code : ObdCode) : Option ErrorCodesSet := do
  if s.count < maxErrorCodesCount then
    if (← s.findPosition code).isNone then
      return { count := s.count + 1, errorCodes := ← s.errorCodes.store s.count code }
    else return s
  else return s

/-- `for (int t = pos; t < count - 1; t++)`. -/
def shiftLeft (errorCodes : FixedArray maxErrorCodesCount ObdCode) (t : Nat) :
    Nat → Option (FixedArray maxErrorCodesCount ObdCode)
  | 0 => some errorCodes
  | rounds + 1 => do
    let next ← errorCodes.load (t + 1)
    shiftLeft (← errorCodes.store t next) (t + 1) rounds

def removeError (s : ErrorCodesSet) (code : ObdCode) : Option ErrorCodesSet := do
  match ← s.findPosition code with
  | none => return s
  | some pos =>
    let errorCodes ← shiftLeft s.errorCodes pos (s.count - 1 - pos)
    return { count := s.count - 1, errorCodes := ← errorCodes.store (s.count - 1) 0 }

def setError (s : ErrorCodesSet) (isError : Bool) (code : ObdCode) : Option ErrorCodesSet :=
  if isError then s.addError code else s.removeError code

def clearWarnings (s : ErrorCodesSet) : ErrorCodesSet := { s with count := 0 }

end ErrorCodesSet

inductive ErrorCall where
  | setError (isError : Bool) (code : ObdCode)
  | clearWarnings

def ErrorCall.step (s : ErrorCodesSet) : ErrorCall → Option ErrorCodesSet
  | .setError isError code => s.setError isError code
  | .clearWarnings => some s.clearWarnings

/-! ## The lamp -/

inductive LampCommand where
  | setValue (on : Bool)
  | sleep (ms : Nat)

def blinkHalfPeriod : Nat := 500

def gapBetweenDigitsMs : Nat := 1000

def gapBetweenCodesMs : Nat := 5000

def blinkDigit (digit : Nat) : List LampCommand :=
  (List.replicate digit [.setValue true, .sleep blinkHalfPeriod, .setValue false,
    .sleep blinkHalfPeriod]).flatten ++ [.sleep gapBetweenDigitsMs]

def char2int (c : Char) : Nat :=
  if '0' ≤ c ∧ c ≤ '9' then c.toNat - '0'.toNat
  else if 'a' ≤ c ∧ c ≤ 'f' then c.toNat - 'a'.toNat + 0xa
  else if 'A' ≤ c ∧ c ≤ 'F' then c.toNat - 'A'.toNat + 0xa
  else 0

/-- `std::to_chars` in base 16 gives no more than four characters of a code. -/
def displayErrorCode (code : ObdCode) : List LampCommand :=
  (Nat.toDigits 16 code.toNat).flatMap fun c => blinkDigit (char2int c + 1)

/-- `for (int i = 0; i < count; i++)`. -/
def displayCodes (s : ErrorCodesSet) (i : Nat) : Nat → Option (List LampCommand)
  | 0 => some []
  | rounds + 1 => do
    let code ← s.errorCodes.load i
    return .sleep gapBetweenCodesMs :: displayErrorCode code ++ (← displayCodes s (i + 1) rounds)

/-- `PeriodicTask`, with the copy of the codes made at its start. -/
def periodicTask (localErrorCopy : ErrorCodesSet) (isRunning : Bool) : Option (List LampCommand) :=
  if localErrorCopy.count ≠ 0 then displayCodes localErrorCopy 0 localErrorCopy.count
  else some [.setValue (!isRunning)]

/-- What is called before a task, and whether the engine is running then. -/
structure MilRound where
  calls : List ErrorCall
  isRunning : Bool

/-- The thread, with its period of 10 ms. -/
def thread (s : ErrorCodesSet) : List MilRound → Option (List LampCommand)
  | [] => some []
  | round :: rounds => do
    let s ← Machine.run ErrorCall.step s round.calls
    let task ← periodicTask s round.isRunning
    return task ++ .sleep 10 :: (← thread s rounds)

/-- How long the lamp is on or off. -/
def signal (on : Bool) : List LampCommand → List (Bool × Nat)
  | [] => []
  | .setValue on :: commands => signal on commands
  | .sleep ms :: commands => (on, ms) :: signal on commands

/-! ## Who looks at it -/

/-- What was seen of the lamp: how long it has been so, the blinks of a digit, the digits of a code. -/
structure Eye where
  on : Bool := false
  elapsed : Nat := 0
  blinks : Nat := 0
  digits : List Nat := []
  codes : List Nat := []

def hexNumber (digits : List Nat) : Nat := digits.foldl (fun number digit => 16 * number + digit) 0

namespace Eye

def endDigit (e : Eye) : Eye :=
  if e.blinks = 0 then e else { e with blinks := 0, digits := e.digits ++ [e.blinks - 1] }

def endCode (e : Eye) : Eye :=
  if e.endDigit.digits = [] then e.endDigit
  else { e.endDigit with digits := [], codes := e.codes ++ [hexNumber e.endDigit.digits] }

/-- The lamp changes: a blink is as long as a blink is, and a gap ends what it is long enough for. -/
def finish (e : Eye) : Eye :=
  if e.on then if e.elapsed = blinkHalfPeriod then { e with blinks := e.blinks + 1 } else e
  else if gapBetweenCodesMs ≤ e.elapsed then e.endCode
  else if gapBetweenDigitsMs ≤ e.elapsed then e.endDigit
  else e

def see (e : Eye) (s : Bool × Nat) : Eye :=
  if s.1 = e.on then { e with elapsed := e.elapsed + s.2 }
  else { e.finish with on := s.1, elapsed := s.2 }

/-- The codes that a signal shows. -/
def read (seen : List (Bool × Nat)) : List Nat := (seen.foldl see {}).finish.endCode.codes

end Eye

/-! ## The codes in the order in which they came -/

/-- What a call makes of the codes that are known. -/
def noted (codes : List ObdCode) : ErrorCall → List ObdCode
  | .setError true code =>
    if codes.length < maxErrorCodesCount ∧ code ∉ codes then codes ++ [code] else codes
  | .setError false code => codes.erase code
  | .clearWarnings => []

section Codes

open ErrorCodesSet

variable {s : ErrorCodesSet} {codes front back : List ObdCode} {code x : ObdCode} {t rounds : Nat}
  {a : FixedArray maxErrorCodesCount ObdCode}

/-- The codes are in the array from its start, each of them once. -/
structure HoldsCodes (s : ErrorCodesSet) (codes : List ObdCode) : Prop where
  count : s.count = codes.length
  begins : s.errorCodes.Begins codes
  distinct : codes.Nodup
  bounded : codes.length ≤ maxErrorCodesCount

theorem findFrom_absent (begins : a.Begins (front ++ back)) (absent : code ∉ back) :
    findFrom a code front.length back.length = some none := by
  induction back generalizing front with
  | nil => rfl
  | cons x back ih =>
    have here := begins front.length (by simp)
    have other : x ≠ code := fun same => absent (same ▸ List.mem_cons_self)
    have rest := @ih (front ++ [x]) (by simpa using begins) fun member => absent (List.mem_cons_of_mem x member)
    rw [List.length_append, List.length_singleton] at rest
    rw [List.length_cons, findFrom, here]
    simpa [other] using rest

theorem findFrom_present (begins : a.Begins (front ++ (back ++ code :: rest))) (absent : code ∉ back) :
    findFrom a code front.length (back ++ code :: rest).length = some (some (front.length + back.length)) := by
  induction back generalizing front with
  | nil =>
    have here := begins front.length (by simp)
    rw [List.nil_append, List.length_cons, findFrom, here]
    simp
  | cons x back ih =>
    have here := begins front.length (by simp)
    have other : x ≠ code := fun same => absent (same ▸ List.mem_cons_self)
    have found := @ih (front ++ [x]) (by simpa using begins) fun member => absent (List.mem_cons_of_mem x member)
    rw [List.length_append, List.length_singleton] at found
    rw [List.cons_append, List.length_cons, findFrom, here]
    simpa [other, Nat.add_assoc, Nat.add_comm 1] using found

theorem shiftLeft_eq (begins : a.Begins (front ++ x :: back)) :
    ∃ b last, shiftLeft a front.length back.length = some b ∧ b.Begins (front ++ back ++ [last]) := by
  induction back generalizing front x a with
  | nil => exact ⟨a, x, rfl, by simpa using begins⟩
  | cons next back ih =>
    have load := begins (front.length + 1) (by simp)
    have inside : front.length < maxErrorCodesCount := by
      by_contra outside
      have here := begins front.length (by simp)
      rw [FixedArray.load_outside (Nat.le_of_not_lt outside)] at here
      cases here
    obtain ⟨b, stored⟩ := @FixedArray.store_of_lt _ _ front.length a inside next
    have moved : b.Begins ((front ++ [next]) ++ next :: back) := by
      have set := begins.set stored
      simpa using set
    obtain ⟨c, last, shifted, after⟩ := ih moved
    rw [List.length_append, List.length_singleton] at shifted
    refine ⟨c, last, ?_, by simpa using after⟩
    rw [List.length_cons, shiftLeft, load]
    simpa [stored] using shifted

theorem findPosition_absent (holds : HoldsCodes s codes) (absent : code ∉ codes) :
    s.findPosition code = some none := by
  rw [findPosition, holds.count]
  exact @findFrom_absent [] codes code s.errorCodes holds.begins absent

theorem findPosition_present (holds : HoldsCodes s (front ++ code :: back)) (absent : code ∉ front) :
    s.findPosition code = some (some front.length) := by
  rw [findPosition, holds.count]
  simpa using @findFrom_present [] front code s.errorCodes back holds.begins absent

theorem addError_holds (holds : HoldsCodes s codes) (code : ObdCode) : ∃ s', s.addError code = some s' ∧
    HoldsCodes s' (noted codes (.setError true code)) := by
  obtain ⟨count, begins, distinct, bounded⟩ := id holds
  rw [addError, noted, count]
  by_cases room : codes.length < maxErrorCodesCount
  · by_cases present : code ∈ codes
    · obtain ⟨front, back, rfl, absent⟩ := List.eq_append_cons_of_mem present
      rw [if_pos room, findPosition_present holds absent, if_neg fun new => new.2 present]
      exact ⟨s, rfl, holds⟩
    · obtain ⟨b, stored⟩ := @FixedArray.store_of_lt _ _ codes.length s.errorCodes room code
      refine ⟨⟨codes.length + 1, b⟩, ?_, ?_⟩
      · simp [room, findPosition_absent holds present, stored]
      · rw [if_pos ⟨room, present⟩]
        refine ⟨by simp, begins.store stored, ?_, by simpa [Nat.succ_le_iff] using room⟩
        exact List.nodup_append.mpr ⟨distinct, List.nodup_singleton code,
          fun x member y last => List.mem_singleton.mp last ▸ fun same => present (same ▸ member)⟩
  · rw [if_neg room, if_neg fun new => room new.1]
    exact ⟨s, rfl, holds⟩

theorem removeError_holds (holds : HoldsCodes s codes) (code : ObdCode) : ∃ s', s.removeError code = some s' ∧
    HoldsCodes s' (noted codes (.setError false code)) := by
  rw [removeError, noted]
  by_cases present : code ∈ codes
  · obtain ⟨front, back, rfl, absent⟩ := List.eq_append_cons_of_mem present
    obtain ⟨count, begins, distinct, bounded⟩ := id holds
    obtain ⟨b, last, shifted, after⟩ := shiftLeft_eq begins
    have rounds : (front ++ back).length - front.length = back.length := by
      rw [List.length_append]
      omega
    have place : s.count - 1 = (front ++ back).length := by
      rw [count, List.length_append, List.length_cons, List.length_append]
      omega
    have inside : (front ++ back).length < maxErrorCodesCount := by
      rw [List.length_append, List.length_cons] at bounded
      rw [List.length_append]
      omega
    obtain ⟨c, cleared⟩ := @FixedArray.store_of_lt _ _ (front ++ back).length b inside 0
    refine ⟨⟨(front ++ back).length, c⟩, ?_, ?_⟩
    · rw [findPosition_present holds absent]
      simp only [Option.bind_eq_bind, Option.bind_some, place, rounds, shifted, cleared]
      rfl
    · have rest : (front ++ code :: back).erase code = front ++ back := by
        rw [List.erase_append_right _ absent, List.erase_cons_head]
      rw [rest]
      exact ⟨rfl, (after.of_append.store cleared).of_append, rest ▸ distinct.erase code, Nat.le_of_lt inside⟩
  · rw [findPosition_absent holds present, List.erase_of_not_mem present]
    exact ⟨s, rfl, holds⟩

theorem step_holds (holds : HoldsCodes s codes) (call : ErrorCall) :
    ∃ s', call.step s = some s' ∧ HoldsCodes s' (noted codes call) := by
  cases call with
  | setError isError code =>
    cases isError
    · exact removeError_holds holds code
    · exact addError_holds holds code
  | clearWarnings =>
    exact ⟨s.clearWarnings, rfl, rfl, FixedArray.begins_nil, List.nodup_nil, Nat.zero_le _⟩

/-- After any calls the set has the codes in the order in which they came. -/
theorem run_holds (holds : HoldsCodes s codes) (calls : List ErrorCall) :
    ∃ s', Machine.run ErrorCall.step s calls = some s' ∧ HoldsCodes s' (calls.foldl noted codes) := by
  induction calls generalizing s codes with
  | nil => exact ⟨s, rfl, holds⟩
  | cons call calls ih =>
    obtain ⟨s₁, stepped, after⟩ := step_holds holds call
    obtain ⟨s', ran, last⟩ := ih after
    exact ⟨s', by rw [Machine.run_cons, stepped]; exact ran, last⟩

end Codes

section Lamp

variable {e : Eye} {on : Bool} {commands more : List LampCommand} {digit : Nat} {digits : List Nat}
  {shown : List Nat}

/-- The commands for one code, with the gap before it. -/
def codeCommands (code : ObdCode) : List LampCommand := .sleep gapBetweenCodesMs :: displayErrorCode code

theorem displayCodes_eq {s : ErrorCodesSet} {front back : List ObdCode}
    (begins : s.errorCodes.Begins (front ++ back)) :
    displayCodes s front.length back.length = some (back.flatMap codeCommands) := by
  induction back generalizing front with
  | nil => rfl
  | cons code back ih =>
    have here := begins front.length (by simp)
    have rest := @ih (front ++ [code]) (by simpa using begins)
    rw [List.length_append, List.length_singleton] at rest
    rw [List.length_cons, displayCodes, here, rest]
    simp [codeCommands]

theorem periodicTask_codes {s : ErrorCodesSet} {codes : List ObdCode} (holds : HoldsCodes s codes)
    (some : codes ≠ []) (isRunning : Bool) :
    periodicTask s isRunning = .some (codes.flatMap codeCommands) := by
  have positive : codes.length ≠ 0 := fun none => some (List.length_eq_zero_iff.mp none)
  rw [periodicTask, holds.count, if_pos positive]
  exact @displayCodes_eq s [] codes holds.begins

/-- The lamp as it is after the commands. -/
def litAfter (on : Bool) : List LampCommand → Bool
  | [] => on
  | .setValue on :: commands => litAfter on commands
  | .sleep _ :: commands => litAfter on commands

theorem signal_append (on : Bool) (commands more : List LampCommand) :
    signal on (commands ++ more) = signal on commands ++ signal (litAfter on commands) more := by
  induction commands generalizing on with
  | nil => rfl
  | cons command commands ih =>
    cases command with
    | setValue on' => exact ih on'
    | sleep ms => exact congrArg ((on, ms) :: ·) (ih on)

theorem hexNumber_snoc (digits : List Nat) (digit : Nat) :
    hexNumber (digits ++ [digit]) = 16 * hexNumber digits + digit := by
  rw [hexNumber, List.foldl_append]
  rfl

theorem char2int_digitChar (small : digit < 16) : char2int digit.digitChar = digit := by
  interval_cases digit <;> decide

theorem hexNumber_toDigits (n : Nat) : hexNumber ((Nat.toDigits 16 n).map char2int) = n := by
  induction n using Nat.strong_induction_on with
  | _ n ih =>
    by_cases small : n < 16
    · rw [Nat.toDigits_of_lt_base small, List.map_singleton, char2int_digitChar small]
      exact Nat.zero_add n
    · have large : 16 ≤ n := Nat.le_of_not_lt small
      rw [Nat.toDigits_of_base_le (by decide) large, List.map_append, List.map_singleton, hexNumber_snoc,
        ih (n / 16) (by omega), char2int_digitChar (Nat.mod_lt n (by decide))]
      omega

namespace Eye

@[simp] theorem endDigit_blinks (e : Eye) : e.endDigit.blinks = 0 := by
  rw [endDigit]
  split
  · assumption
  · rfl

theorem endDigit_endDigit (e : Eye) : e.endDigit.endDigit = e.endDigit := by
  rw [endDigit, if_pos (endDigit_blinks e)]

theorem endDigit_codes (e : Eye) : e.endDigit.codes = e.codes := by
  rw [endDigit]
  split <;> rfl

theorem endCode_endDigit (e : Eye) : e.endDigit.endCode = e.endCode := by
  rw [endCode, endDigit_endDigit, endCode, endDigit_codes]

theorem endCode_clear (e : Eye) : e.endCode.blinks = 0 ∧ e.endCode.digits = [] := by
  rw [endCode]
  split
  · exact ⟨endDigit_blinks e, ‹_›⟩
  · exact ⟨endDigit_blinks e, rfl⟩

theorem endCode_endCode (e : Eye) : e.endCode.endCode = e.endCode := by
  obtain ⟨blinks, digits⟩ := endCode_clear e
  have same : e.endCode.endDigit = e.endCode := by rw [endDigit, if_pos blinks]
  rw [endCode, same, if_pos digits]

/-- While the lamp is off, nothing is lost by waiting. -/
theorem finish_endCode (dark : e.on = false) : e.finish.endCode = e.endCode := by
  rw [finish, dark, if_neg Bool.false_ne_true]
  split
  · exact endCode_endCode e
  split
  · exact endCode_endDigit e
  · rfl

/-- What is seen of commands that find the lamp off. -/
def look (e : Eye) (commands : List LampCommand) : Eye := (signal false commands).foldl see e

theorem look_append (dark : litAfter false commands = false) :
    look e (commands ++ more) = look (look e commands) more := by
  rw [look, signal_append, dark, List.foldl_append]
  rfl

theorem see_dark (dark : e.on = false) (ms : Nat) :
    e.see (false, ms) = { e with elapsed := e.elapsed + ms } := if_pos dark.symm

theorem endCode_see_dark (dark : e.on = false) (ms : Nat) :
    (e.see (false, ms)).endCode.codes = e.endCode.codes := by
  rw [see_dark dark, endCode, endCode, endDigit, endDigit]
  by_cases blinks : e.blinks = 0 <;> by_cases digits : e.digits = [] <;> simp [blinks, digits]

/-- One blink ends what the gap before it ends. -/
theorem see_blink (dark : e.on = false) :
    (e.see (true, blinkHalfPeriod)).see (false, blinkHalfPeriod) =
      { e.finish with on := false, elapsed := blinkHalfPeriod, blinks := e.finish.blinks + 1 } := by
  have lit : e.see (true, blinkHalfPeriod) = { e.finish with on := true, elapsed := blinkHalfPeriod } := by
    rw [see, if_neg (by simp [dark])]
  rw [lit, see, if_neg (by simp), finish]
  simp

theorem look_blinks (dark : e.on = false) (k : Nat) :
    look e (List.replicate (k + 1) [.setValue true, .sleep blinkHalfPeriod, .setValue false,
        .sleep blinkHalfPeriod]).flatten =
      { e.finish with on := false, elapsed := blinkHalfPeriod, blinks := e.finish.blinks + (k + 1) } := by
  induction k generalizing e with
  | zero => exact see_blink dark
  | succ k ih =>
    rw [List.replicate_succ, List.flatten_cons, look_append rfl]
    have first : look e [.setValue true, .sleep blinkHalfPeriod, .setValue false, .sleep blinkHalfPeriod] =
        { e.finish with on := false, elapsed := blinkHalfPeriod, blinks := e.finish.blinks + 1 } := see_blink dark
    rw [first, ih rfl]
    have short : ({ e.finish with
        on := false, elapsed := blinkHalfPeriod, blinks := e.finish.blinks + 1 } : Eye).finish =
        { e.finish with on := false, elapsed := blinkHalfPeriod, blinks := e.finish.blinks + 1 } := rfl
    rw [short]
    simp [Nat.add_assoc, Nat.add_comm 1]

theorem litAfter_blinks (on : Bool) (k : Nat) :
    litAfter on (List.replicate (k + 1) [.setValue true, .sleep blinkHalfPeriod, .setValue false,
      .sleep blinkHalfPeriod]).flatten = false := by
  induction k generalizing on with
  | zero => rfl
  | succ k ih =>
    rw [List.replicate_succ, List.flatten_cons]
    exact ih false

theorem look_digit (dark : e.on = false) (digit : Nat) : look e (blinkDigit (digit + 1)) =
    { e.finish with on := false, elapsed := blinkHalfPeriod + gapBetweenDigitsMs,
                    blinks := e.finish.blinks + (digit + 1) } := by
  rw [blinkDigit, look_append (litAfter_blinks false digit), look_blinks dark]
  rfl

theorem litAfter_append (on : Bool) (commands more : List LampCommand) :
    litAfter on (commands ++ more) = litAfter (litAfter on commands) more := by
  induction commands generalizing on with
  | nil => rfl
  | cons command commands ih =>
    cases command with
    | setValue on' => exact ih on'
    | sleep ms => exact ih on

theorem litAfter_digit (on : Bool) (digit : Nat) : litAfter on (blinkDigit (digit + 1)) = false := by
  rw [blinkDigit, litAfter_append, litAfter_blinks]
  rfl

/-- The digits of a code, behind a gap that has ended all digits before. -/
theorem look_digits (dark : e.on = false) (ended : e.finish.blinks = 0) (some : digits ≠ []) :
    (look e (digits.flatMap fun digit => blinkDigit (digit + 1))).endDigit =
        { e.finish with on := false, elapsed := blinkHalfPeriod + gapBetweenDigitsMs, blinks := 0,
                        digits := e.finish.digits ++ digits } ∧
      (look e (digits.flatMap fun digit => blinkDigit (digit + 1))).on = false ∧
      litAfter false (digits.flatMap fun digit => blinkDigit (digit + 1)) = false := by
  induction digits generalizing e with
  | nil => exact absurd rfl some
  | cons digit digits ih =>
    rw [List.flatMap_cons, look_append (litAfter_digit false digit), litAfter_append, litAfter_digit,
      look_digit dark, ended, Nat.zero_add]
    by_cases last : digits = []
    · subst last
      exact ⟨rfl, rfl, rfl⟩
    · have next := @ih { e.finish with on := false, elapsed := blinkHalfPeriod + gapBetweenDigitsMs,
                                       blinks := digit + 1 } rfl rfl last
      refine ⟨next.1.trans ?_, next.2⟩
      simp [finish, blinkHalfPeriod, gapBetweenDigitsMs, gapBetweenCodesMs, endDigit]

theorem toDigits_ne_nil (code : ObdCode) : (Nat.toDigits 16 code.toNat).map char2int ≠ [] := by
  rw [ne_eq, List.map_eq_nil_iff]
  exact Nat.toDigits_ne_nil

/-- A code with the gap before it is read, and the lamp is off behind it. -/
theorem look_code (dark : e.on = false) (code : ObdCode) :
    (look e (codeCommands code)).endCode.codes = e.endCode.codes ++ [code.toNat] ∧
      (look e (codeCommands code)).on = false ∧ litAfter false (codeCommands code) = false := by
  obtain ⟨blinks, digits⟩ := endCode_clear { e with elapsed := e.elapsed + gapBetweenCodesMs }
  have gap : ({ e with elapsed := e.elapsed + gapBetweenCodesMs } : Eye).finish =
      ({ e with elapsed := e.elapsed + gapBetweenCodesMs } : Eye).endCode := by
    rw [finish, dark, if_neg Bool.false_ne_true, if_pos (Nat.le_add_left _ _)]
  have before := endCode_see_dark dark gapBetweenCodesMs
  rw [see_dark dark] at before
  have commands : codeCommands code = [.sleep gapBetweenCodesMs] ++
      ((Nat.toDigits 16 code.toNat).map char2int).flatMap fun digit => blinkDigit (digit + 1) := by
    rw [List.flatMap_map]
    rfl
  obtain ⟨ended, off, lit⟩ := @look_digits { e with elapsed := e.elapsed + gapBetweenCodesMs } _ dark
    (gap ▸ blinks) (toDigits_ne_nil code)
  rw [gap, digits, List.nil_append] at ended
  have waited : look e [.sleep gapBetweenCodesMs] = { e with elapsed := e.elapsed + gapBetweenCodesMs } :=
    see_dark dark _
  rw [commands, look_append rfl, waited, litAfter_append]
  refine ⟨?_, off, lit⟩
  have same := congrArg Eye.codes ended
  rw [endDigit_codes] at same
  rw [endCode, ended, if_neg (toDigits_ne_nil code), same, hexNumber_toDigits, ← before]

theorem look_codes (dark : e.on = false) (codes : List ObdCode) :
    (look e (codes.flatMap codeCommands)).endCode.codes = e.endCode.codes ++ codes.map (·.toNat) ∧
      (look e (codes.flatMap codeCommands)).on = false ∧
      litAfter false (codes.flatMap codeCommands) = false := by
  induction codes generalizing e with
  | nil => exact ⟨(List.append_nil _).symm, dark, rfl⟩
  | cons code codes ih =>
    obtain ⟨first, off, lit⟩ := look_code dark code
    obtain ⟨rest, offAfter, litAtEnd⟩ := ih off
    rw [List.flatMap_cons, look_append lit, litAfter_append, lit]
    refine ⟨?_, offAfter, litAtEnd⟩
    rw [rest, first, List.append_assoc]
    rfl

end Eye

/-- The codes of each round, one round after the other. -/
def roundCodes (codes : List ObdCode) : List MilRound → List ObdCode
  | [] => []
  | round :: rounds => round.calls.foldl noted codes ++ roundCodes (round.calls.foldl noted codes) rounds

/-- Where there is no code to show, the engine is running, and the lamp is off. -/
def DarkBetween (codes : List ObdCode) : List MilRound → Prop
  | [] => True
  | round :: rounds => (round.calls.foldl noted codes = [] → round.isRunning = true) ∧
      DarkBetween (round.calls.foldl noted codes) rounds

theorem task_look {s : ErrorCodesSet} {codes : List ObdCode} (holds : HoldsCodes s codes) {isRunning : Bool}
    (quiet : codes = [] → isRunning = true) (dark : e.on = false) : ∃ task,
      periodicTask s isRunning = some task ∧
      (e.look (task ++ [.sleep 10])).endCode.codes = e.endCode.codes ++ codes.map (·.toNat) ∧
      (e.look (task ++ [.sleep 10])).on = false ∧ litAfter false (task ++ [.sleep 10]) = false := by
  by_cases none : codes = []
  · subst none
    refine ⟨[.setValue false], ?_, ?_, ?_, rfl⟩
    · rw [periodicTask, holds.count, quiet rfl]
      rfl
    · rw [List.map_nil, List.append_nil]
      exact Eye.endCode_see_dark dark 10
    · exact (congrArg Eye.on (Eye.see_dark dark 10)).trans dark
  · obtain ⟨codesRead, off, lit⟩ := Eye.look_codes dark codes
    have waited : e.look (codes.flatMap codeCommands ++ [.sleep 10]) =
        (e.look (codes.flatMap codeCommands)).see (false, 10) := by
      rw [Eye.look_append lit]
      rfl
    refine ⟨_, periodicTask_codes holds none isRunning, ?_, ?_, ?_⟩
    · rw [waited, Eye.endCode_see_dark off, codesRead]
    · rw [waited, Eye.see_dark off]
      exact off
    · rw [Eye.litAfter_append, lit]
      rfl

theorem thread_look {s : ErrorCodesSet} {codes : List ObdCode} (holds : HoldsCodes s codes)
    {rounds : List MilRound} (between : DarkBetween codes rounds) (dark : e.on = false) :
    ∃ commands, thread s rounds = some commands ∧
      (e.look commands).endCode.codes = e.endCode.codes ++ (roundCodes codes rounds).map (·.toNat) ∧
      (e.look commands).on = false := by
  induction rounds generalizing s codes e with
  | nil => exact ⟨[], rfl, (List.append_nil _).symm, dark⟩
  | cons round rounds ih =>
    obtain ⟨s', ran, after⟩ := run_holds holds round.calls
    obtain ⟨task, done, codesRead, off, lit⟩ := task_look after between.1 dark
    obtain ⟨commands, rest, restRead, offAtEnd⟩ := ih after between.2 off
    refine ⟨task ++ .sleep 10 :: commands, ?_, ?_, ?_⟩
    · simp [thread, ran, done, rest]
    · rw [List.append_cons, Eye.look_append lit, restRead, codesRead, roundCodes, List.map_append,
        List.append_assoc]
    · rw [List.append_cons, Eye.look_append lit]
      exact offAtEnd

/-- Two codes, of which the first is gone when the lamp has shown them. -/
def twoRounds : List MilRound :=
  [⟨[.setError true 0x0301, .setError true 0xA0], false⟩, ⟨[.setError false 0x0301], true⟩]

end Lamp

end FomeFw.Engine
