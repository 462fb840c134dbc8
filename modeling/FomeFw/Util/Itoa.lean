import FomeFw.Lib.FixedArray
import FomeFw.Util.EfiLib

/-! `itoa10` of `efilib.cpp`, which writes an `int` in decimal. -/
namespace FomeFw.Util

open Decimal

/-- The memory that the result is written to. -/
abbrev CharMemory := Nat → Char

def nul : Char := Char.ofNat 0

/-- Of `ltoa_internal`. -/
def bufferLength : Nat := 10

/-- Digits 0-9 and 10-15. -/
def digitCharacter (digit : Nat) : Char :=
  if digit < 10 then Char.ofNat (digit + '0'.toNat) else Char.ofNat (digit + 'a'.toNat - 10)

/-- The digits, the last one first, are written from the end of the buffer on. The index is a
`size_t`; it goes below the last digit written. There is room for no more rounds than given. -/
def writeDigits (radix : BitVec 32) (buffer : FixedArray bufferLength Char) (idx num : BitVec 32) :
    Nat → Option (FixedArray bufferLength Char × BitVec 32)
  | 0 => none
  | rounds + 1 => do
    let buffer ← buffer.store idx.toNat (digitCharacter (num % radix).toNat)
    let idx := idx - 1
    let num := num / radix
    if num ≠ 0 then writeDigits radix buffer idx num rounds else some (buffer, idx)

/-- `while (idx < bufferLength) *p++ = buffer[idx++]`, with the number of rounds it may make. -/
def copyDigits (buffer : FixedArray bufferLength Char) (memory : CharMemory) (p : Nat)
    (idx : BitVec 32) : Nat → Option (CharMemory × Nat)
  | 0 => none
  | rounds + 1 =>
    if idx.toNat < bufferLength then do
      let c ← buffer.load idx.toNat
      copyDigits buffer (Function.update memory p c) (p + 1) (idx + 1) rounds
    else some (memory, p)

/-- The buffer is not set before. -/
def ltoaInternal (stack : FixedArray bufferLength Char) (memory : CharMemory) (p : Nat)
    (num radix : BitVec 32) : Option (CharMemory × Nat) :=
  if radix = 0 then none
  else do
    let (buffer, idx) ←
      writeDigits radix stack (BitVec.ofNat 32 (bufferLength - 1)) num (bufferLength + 1)
    copyDigits buffer memory p (idx + 1) (bufferLength + 1)

/-- `*end = 0` at the end. -/
def terminated (written : CharMemory × Nat) : CharMemory × Nat :=
  (Function.update written.1 written.2 nul, written.2)

def itoaSigned (stack : FixedArray bufferLength Char) (memory : CharMemory) (p : Nat)
    (num radix : BitVec 32) : Option (CharMemory × Nat) :=
  if num.toInt < 0 then
    (ltoaInternal stack (Function.update memory p '-') (p + 1) (-num) radix).map terminated
  else
    (ltoaInternal stack memory p num radix).map terminated

def itoa10 (stack : FixedArray bufferLength Char) (memory : CharMemory) (p : Nat) (num : BitVec 32) :
    Option (CharMemory × Nat) :=
  itoaSigned stack memory p num 10

/-! ## What is written -/

/-- A text stands at `p`, and nothing else was changed. -/
structure WrittenAt (memory memory' : CharMemory) (p : Nat) (text : List Char) : Prop where
  there : ∀ i (inside : i < text.length), memory' (p + i) = text[i]
  elsewhere : ∀ a, a < p ∨ p + text.length ≤ a → memory' a = memory a

variable {memory memory' memory'' : CharMemory} {p : Nat} {text more done : List Char}
  {buffer buffer' : FixedArray bufferLength Char} {num idx : BitVec 32} {rounds : Nat}

theorem WrittenAt.nil : WrittenAt memory memory p [] where
  there := fun i inside => absurd inside (Nat.not_lt_zero i)
  elsewhere := fun _ _ => rfl

theorem WrittenAt.cons (rest : WrittenAt (Function.update memory p c) memory' (p + 1) text) :
    WrittenAt memory memory' p (c :: text) where
  there := by
    intro i inside
    cases i with
    | zero => rw [rest.elsewhere _ (.inl (by omega))]; exact Function.update_self ..
    | succ i =>
      have next := rest.there i (by rwa [List.length_cons, Nat.succ_lt_succ_iff] at inside)
      rwa [Nat.add_assoc, Nat.add_comm 1 i] at next
  elsewhere := by
    intro a outside
    rw [List.length_cons] at outside
    rw [rest.elsewhere a (by omega), Function.update_of_ne (by omega)]

theorem WrittenAt.terminated (written : WrittenAt memory memory' p text) :
    WrittenAt memory (Util.terminated (memory', p + text.length)).1 p (text ++ [nul]) where
  there := by
    intro i inside
    rw [List.length_append, List.length_singleton] at inside
    simp only [Util.terminated]
    rcases Nat.lt_or_ge i text.length with before | last
    · rw [Function.update_of_ne (by omega), List.getElem_append_left before]
      exact written.there i before
    · obtain rfl : i = text.length := by omega
      simp
  elsewhere := by
    intro a outside
    rw [List.length_append, List.length_singleton] at outside
    simp only [Util.terminated]
    rw [Function.update_of_ne (by omega)]
    exact written.elsewhere a (by omega)

/-- The end of the buffer holds these characters. -/
structure EndsWith (buffer : FixedArray bufferLength Char) (text : List Char) : Prop where
  room : text.length ≤ bufferLength
  holds : ∀ i (inside : i < text.length), buffer.load (bufferLength - text.length + i) = some text[i]

theorem EndsWith.nil : EndsWith buffer [] where
  room := Nat.zero_le _
  holds := fun i inside => absurd inside (Nat.not_lt_zero i)

/-- The `size_t` before a text of this length at the end of the buffer. -/
def indexBefore (length : Nat) : BitVec 32 := BitVec.ofNat 32 9 - BitVec.ofNat 32 length

theorem indexBefore_toNat (room : length < bufferLength) :
    (indexBefore length).toNat = bufferLength - 1 - length := by
  simp only [bufferLength, indexBefore, BitVec.toNat_sub, BitVec.toNat_ofNat] at room ⊢
  omega

theorem indexBefore_succ : indexBefore length - 1 = indexBefore (length + 1) := by
  rw [indexBefore, indexBefore, BitVec.ofNat_add, BitVec.sub_sub]
  rfl

theorem indexBefore_next (room : length ≤ bufferLength) :
    indexBefore length + 1 = BitVec.ofNat 32 (bufferLength - length) := by
  have all : ∀ length ≤ bufferLength,
      indexBefore length + 1 = BitVec.ofNat 32 (bufferLength - length) := by decide
  exact all length room

theorem index_toNat (length : Nat) :
    (BitVec.ofNat 32 (bufferLength - length)).toNat = bufferLength - length := by
  rw [BitVec.toNat_ofNat, Nat.mod_eq_of_lt]
  rw [bufferLength]
  omega

theorem EndsWith.store (ends : EndsWith buffer text) (room : text.length < bufferLength) (c : Char) :
    ∃ buffer', buffer.store (indexBefore text.length).toNat c = some buffer' ∧
      EndsWith buffer' (c :: text) := by
  rw [indexBefore_toNat room]
  obtain ⟨buffer', stored⟩ :=
    @FixedArray.store_of_lt _ _ (bufferLength - 1 - text.length) buffer (by omega) c
  refine ⟨buffer', stored, room, ?_⟩
  intro i inside
  rw [List.length_cons] at inside ⊢
  rw [FixedArray.load_of_store stored]
  cases i with
  | zero => rw [if_pos (by omega), List.getElem_cons_zero]
  | succ i =>
    rw [if_neg (by omega), List.getElem_cons_succ, ← ends.holds i (by omega)]
    congr 1
    omega

theorem digitCharacter_eq (below : digit < 10) : digitCharacter digit = Nat.digitChar digit := by
  decide +revert

theorem writeDigits_ends (ends : EndsWith buffer done)
    (room : (Nat.toDigits 10 num.toNat).length + done.length ≤ bufferLength)
    (enough : (Nat.toDigits 10 num.toNat).length ≤ rounds) :
    ∃ buffer', writeDigits 10 buffer (indexBefore done.length) num rounds =
        some (buffer', indexBefore (Nat.toDigits 10 num.toNat ++ done).length) ∧
      EndsWith buffer' (Nat.toDigits 10 num.toNat ++ done) := by
  induction rounds generalizing buffer done num with
  | zero => exact absurd Nat.length_toDigits_pos (Nat.not_lt.mpr enough)
  | succ rounds ih =>
    have digit : digitCharacter (num % 10).toNat = Nat.digitChar (num.toNat % 10) :=
      digitCharacter_eq (Nat.mod_lt _ (by decide))
    have rest : (num / 10).toNat = num.toNat / 10 := rfl
    have some := @Nat.length_toDigits_pos 10 num.toNat
    obtain ⟨buffer₁, stored, ends₁⟩ := ends.store (by omega) (Nat.digitChar (num.toNat % 10))
    rw [writeDigits, digit, stored]
    by_cases last : num.toNat < 10
    · have zero : num / 10 = 0 := BitVec.eq_of_toNat_eq (Nat.div_eq_of_lt last)
      rw [Nat.mod_eq_of_lt last] at ends₁
      rw [Nat.toDigits_of_lt_base last]
      refine ⟨buffer₁, ?_, ends₁⟩
      simp only [zero, ne_eq, not_true, if_false, Option.bind_eq_bind, Option.bind_some,
        indexBefore_succ]
      rfl
    · have more : num / 10 ≠ 0 := by
        intro zero
        have equal := congrArg BitVec.toNat zero
        rw [rest] at equal
        change num.toNat / 10 = 0 at equal
        omega
      have digits := Nat.toDigits_of_base_le (by decide) (Nat.not_lt.mp last)
      have length := congrArg List.length digits
      rw [List.length_append, List.length_singleton, ← rest] at length
      obtain ⟨buffer', written, ends'⟩ := @ih _ _ (num / 10) ends₁ (by rw [List.length_cons]; omega) (by omega)
      rw [rest, ← List.singleton_append, ← List.append_assoc, ← digits] at written ends'
      refine ⟨buffer', ?_, ends'⟩
      simp only [more, ne_eq, not_false_iff, if_true, Option.bind_eq_bind, Option.bind_some,
        indexBefore_succ]
      exact written

/-- The loop goes on with the rest of the text, after what is done. -/
theorem copyDigits_written (ends : EndsWith buffer (done ++ text)) (enough : text.length < rounds) :
    ∃ memory', copyDigits buffer memory p (BitVec.ofNat 32 (bufferLength - text.length)) rounds =
        some (memory', p + text.length) ∧ WrittenAt memory memory' p text := by
  induction rounds generalizing text done memory p with
  | zero => exact absurd enough (Nat.not_lt_zero _)
  | succ rounds ih =>
    rw [copyDigits, index_toNat]
    cases text with
    | nil => exact ⟨memory, rfl, WrittenAt.nil⟩
    | cons c text =>
      have room := ends.room
      simp only [List.length_append, List.length_cons] at room enough ⊢
      have here : buffer.load (bufferLength - (text.length + 1)) = some c := by
        have holds := ends.holds done.length (by simp)
        rw [List.getElem_append_right le_rfl] at holds
        simp only [List.length_append, List.length_cons, Nat.sub_self, List.getElem_cons_zero] at holds
        rw [← holds]
        congr 1
        omega
      have next : BitVec.ofNat 32 (bufferLength - (text.length + 1)) + 1 =
          BitVec.ofNat 32 (bufferLength - text.length) := by
        rw [show bufferLength - text.length = bufferLength - (text.length + 1) + 1 by omega,
          BitVec.ofNat_add]
        rfl
      have ends' : EndsWith buffer ((done ++ [c]) ++ text) := by
        rwa [List.append_assoc, List.singleton_append]
      obtain ⟨memory', copied, there⟩ := @ih (Function.update memory p c) (p + 1) text (done ++ [c])
        ends' (by omega)
      refine ⟨memory', ?_, there.cons⟩
      rw [if_pos (by omega), here, next, show p + (text.length + 1) = p + 1 + text.length by omega]
      exact copied

theorem ltoaInternal_written (stack : FixedArray bufferLength Char) (memory : CharMemory) (p : Nat)
    (num : BitVec 32) :
    ∃ memory', ltoaInternal stack memory p num 10 =
        some (memory', p + (Nat.toDigits 10 num.toNat).length) ∧
      WrittenAt memory memory' p (Nat.toDigits 10 num.toNat) := by
  have length : (Nat.toDigits 10 num.toNat).length ≤ bufferLength :=
    (Nat.length_toDigits_le_iff (by decide) (by decide)).mpr (by rw [bufferLength]; omega)
  obtain ⟨buffer, written, ends⟩ := @writeDigits_ends [] stack num (bufferLength + 1) EndsWith.nil
    (by simpa using length) (by omega)
  rw [List.append_nil] at written ends
  obtain ⟨memory', copied, there⟩ := @copyDigits_written memory p (Nat.toDigits 10 num.toNat) []
    buffer (bufferLength + 1) ends (by omega)
  refine ⟨memory', ?_, there⟩
  rw [ltoaInternal, if_neg (by decide)]
  change (writeDigits 10 stack (indexBefore 0) num (bufferLength + 1)).bind (fun r =>
    copyDigits r.1 memory p (r.2 + 1) (bufferLength + 1)) = _
  rw [← List.length_nil, written, Option.bind_some, indexBefore_next length]
  exact copied

/-- The sign and the digits stand there, and a NUL where the result points to. -/
theorem itoa10_eq (stack : FixedArray bufferLength Char) (memory : CharMemory) (p : Nat)
    (num : BitVec 32) :
    ∃ memory', itoa10 stack memory p num =
        some (terminated (memory', p + (spelling num.toInt).length)) ∧
      WrittenAt memory memory' p (spelling num.toInt) := by
  rw [itoa10, itoaSigned, spelling]
  split
  · next negative =>
    have magnitude : (-num).toNat = num.toInt.natAbs := by
      have value := num.toInt_eq_toNat_cond
      rw [BitVec.toNat_neg]
      split at value
      · omega
      · omega
    obtain ⟨memory', done, there⟩ :=
      ltoaInternal_written stack (Function.update memory p '-') (p + 1) (-num)
    rw [magnitude] at done there
    refine ⟨memory', ?_, there.cons⟩
    rw [done, List.singleton_append, List.length_cons, Nat.add_assoc, Nat.add_comm 1]
    rfl
  · next positive =>
    have magnitude : num.toNat = num.toInt.natAbs := by
      have value := num.toInt_eq_toNat_cond
      split at value
      · omega
      · omega
    obtain ⟨memory', done, there⟩ := ltoaInternal_written stack memory p num
    rw [magnitude] at done there
    refine ⟨memory', ?_, there⟩
    rw [done]
    rfl

theorem atoi_spells (spells : Spells text z) (low : -2 ^ 31 ≤ z) (high : z ≤ 2 ^ 31 - 1) :
    atoi text = z := by
  cases spells with
  | plain digits some => exact (atoi_unsigned digits).trans (clampInt_eq low high)
  | minus digits some => exact (atoi_minus digits).trans (clampInt_eq low high)

/-- What is asked of the result: a shortest spelling stands at `p`, with a NUL at the pointer
returned, and is read as the number. -/
def WritesCanonical (memory : CharMemory) (p : Nat) (num : BitVec 32) (memory' : CharMemory)
    (result : Nat) : Prop :=
  ∃ text, Spells text num.toInt ∧ (∀ other, Spells other num.toInt → text.length ≤ other.length) ∧
    WrittenAt memory memory' p (text ++ [nul]) ∧ result = p + text.length ∧ atoi text = num.toInt

theorem itoa10_canonical (stack : FixedArray bufferLength Char) (memory : CharMemory) (p : Nat)
    (num : BitVec 32) : ∃ memory' result, itoa10 stack memory p num = some (memory', result) ∧
      WritesCanonical memory p num memory' result := by
  obtain ⟨memory', done, there⟩ := itoa10_eq stack memory p num
  have spells := spelling_spells num.toInt
  refine ⟨_, _, done, spelling num.toInt, spells, ?_, there.terminated, rfl, ?_⟩
  · exact fun other => spelling_shortest
  · exact atoi_spells spells num.le_toInt (Int.le_sub_one_of_lt num.toInt_lt)

example : (itoa10 (.fill 'x') (fun _ => 'y') 0 (BitVec.intMin 32)).map
    (fun r => (List.range 12).map r.1) = some ("-2147483648".toList ++ [nul]) := by decide

end FomeFw.Util
