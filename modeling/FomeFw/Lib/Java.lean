import Mathlib.Data.Char
import Mathlib.Data.List.Basic

/-! What Java's library does with texts, as lists of characters of ASCII, and with arrays of bytes. -/
namespace FomeFw

abbrev Text := List Char

namespace Text

/-- The digits in base 16 and below. -/
def hexDigit (c : Char) : Option Nat :=
  if c.isDigit then some (c.toNat - '0'.toNat)
  else if 'a' ≤ c && c ≤ 'f' then some (c.toNat - 'a'.toNat + 10)
  else if 'A' ≤ c && c ≤ 'F' then some (c.toNat - 'A'.toNat + 10)
  else none

def trim (text : Text) : Text :=
  ((text.dropWhile (·.toNat ≤ 32)).reverse.dropWhile (·.toNat ≤ 32)).reverse

theorem hexDigit_lt {c : Char} {d : Nat} (digit : hexDigit c = some d) : d < 16 := by
  have toNat_le {c c' : Char} (le : c ≤ c') : c.toNat ≤ c'.toNat := le
  unfold hexDigit at digit
  split at digit
  · next decimal =>
    simp only [Char.isDigit, Bool.and_eq_true, decide_eq_true_eq] at decimal
    have upper : c.toNat ≤ 57 := decimal.2
    obtain rfl := Option.some.inj digit
    change c.toNat - 48 < 16
    omega
  split at digit
  · next lower =>
    simp only [Bool.and_eq_true, decide_eq_true_eq] at lower
    have upper : c.toNat ≤ 102 := toNat_le lower.2
    obtain rfl := Option.some.inj digit
    change c.toNat - 97 + 10 < 16
    omega
  split at digit
  · next upper =>
    simp only [Bool.and_eq_true, decide_eq_true_eq] at upper
    have upper : c.toNat ≤ 70 := toNat_le upper.2
    obtain rfl := Option.some.inj digit
    change c.toNat - 65 + 10 < 16
    omega
  · cases digit

end Text

/-- A result, or the text or the kind of an exception. -/
abbrev Java := Except String

namespace Java

/-- What `dest` is after `System.arraycopy`. -/
def arraycopy (src : List UInt8) (srcPos : Nat) (dest : List UInt8) (destPos length : Nat) :
    Java (List UInt8) :=
  if srcPos + length ≤ src.length ∧ destPos + length ≤ dest.length then
    .ok (dest.take destPos ++ (src.drop srcPos).take length ++ dest.drop (destPos + length))
  else .error "ArrayIndexOutOfBoundsException"

theorem arraycopy_eq (front data back filled rest : List UInt8) :
    arraycopy (front ++ (data ++ back)) front.length (filled ++ rest) filled.length data.length =
      if data.length ≤ rest.length then .ok (filled ++ data ++ rest.drop data.length)
      else .error "ArrayIndexOutOfBoundsException" := by
  have inside : front.length + data.length ≤ (front ++ (data ++ back)).length ∧
      filled.length + data.length ≤ (filled ++ rest).length ↔ data.length ≤ rest.length := by
    simp only [List.length_append]
    omega
  rw [arraycopy]
  simp only [inside, List.take_left, List.drop_left, List.drop_length_add_append]

end Java
end FomeFw
