import FomeFw.Lib.SortedMap
import FomeFw.Lib.Java
import Mathlib.Data.List.Lex
import Mathlib.Data.Rat.Floor

/-! `EnumsReader.java`, which reads the enums of C headers line by line: the values it records, and
those that a C compiler gives. -/
namespace FomeFw.Config
open Text (hexDigit trim)

/-! ## Words and numbers -/

/-- The class `\s` of regular expressions. -/
def isWhite (c : Char) : Bool := c == ' ' || (9 ≤ c.toNat && c.toNat ≤ 13)

def removeSpaces (line : Text) : Text := line.filter fun c => !isWhite c

/-- What `.` stands for. -/
def isDot (c : Char) : Bool :=
  !(c == '\n' || c == '\r' || c.toNat == 0x85 || c.toNat == 0x2028 || c.toNat == 0x2029)

/-- `replaceAll("//.+", "")`, within such a comment or not. -/
def removeComments : Bool → Text → Text
  | _, [] => []
  | true, c :: rest => if isDot c then removeComments true rest else c :: removeComments false rest
  | false, '/' :: '/' :: c :: rest =>
    if isDot c then removeComments true rest else '/' :: '/' :: c :: removeComments false rest
  | false, c :: rest => c :: removeComments false rest

/-- What is looked at of a line. -/
def strip (line : Text) : Text := removeComments false (removeSpaces line)

def isLetter (c : Char) : Bool := ('a' ≤ c && c ≤ 'z') || ('A' ≤ c && c ≤ 'Z')

def inIdentifier (c : Char) : Bool := isLetter c || c.isDigit || c == '_' || c == '$'

/-- `[a-zA-Z_$][a-zA-Z\d_$]*` -/
def isIdentifier : Text → Bool
  | [] => false
  | c :: rest => (isLetter c || c == '_' || c == '$') && rest.all inIdentifier

def inWord (c : Char) : Bool := c == '-' || isLetter c || c.isDigit || c == '_'

/-- `([-a-zA-Z\d_])*` -/
def isWord (text : Text) : Bool := text.all inWord

/-- `0x[0-9a-fA-F]+` -/
def isHexNumber : Text → Bool
  | '0' :: 'x' :: digits => !digits.isEmpty && digits.all fun c => (hexDigit c).isSome
  | _ => false

/-- `(-)?[0-9]+` -/
def isDecimalNumber : Text → Bool
  | '-' :: digits => !digits.isEmpty && digits.all Char.isDigit
  | digits => !digits.isEmpty && digits.all Char.isDigit

/-- What may stand behind `=`. -/
def isConstant (text : Text) : Bool := isHexNumber text || isDecimalNumber text || isWord text

/-- `,?` at the end. -/
def dropComma (line : Text) : Text := if line.getLast? = some ',' then line.dropLast else line

def isKeyValueLine (line : Text) : Bool :=
  match (dropComma (removeSpaces line)).splitOn '=' with
  | [] => false
  | name :: values => isIdentifier name && values.all isConstant

/-- The number written with these digits. -/
def digitsIn (radix : Nat) (text : Text) : Option Nat :=
  if text = [] then none
  else text.foldlM (fun n c =>
    (hexDigit c).bind fun d => if d < radix then some (radix * n + d) else none) 0

/-- `Integer.parseInt`; `none` is a `NumberFormatException`. -/
def parseIntIn (radix : Nat) (text : Text) : Option Int :=
  let magnitude : Option Int := match text with
    | '-' :: digits => (digitsIn radix digits).map fun n => -Int.ofNat n
    | '+' :: digits => (digitsIn radix digits).map Int.ofNat
    | digits => (digitsIn radix digits).map Int.ofNat
  magnitude.filter fun n => -2 ^ 31 ≤ n ∧ n < 2 ^ 31

/-- `Value.parseInt` -/
def parseInt (value : Text) : Option Int :=
  match trim value with
  | '0' :: x :: rest =>
    if x = 'x' ∨ x = 'X' then parseIntIn 16 rest else parseIntIn 10 ('0' :: x :: rest)
  | trimmed => parseIntIn 10 trimmed

structure Value where
  name : Text
  value : Text
  deriving DecidableEq

def Value.getIntValue (v : Value) : Option Int := parseInt v.value

/-- A number, or a name in a registry of such texts; `none` is an exception. -/
def resolveInt (registry : Text → Option Text) (value : Text) : Option Int :=
  match parseInt value with
  | some n => some n
  | none => (registry value).bind (parseIntIn 10)

def Value.getIntValueMaybeResolve (registry : Text → Option Text) (v : Value) : Option Int :=
  resolveInt registry v.value

/-! ## The reader -/

structure EnumState where
  values : List (Text × Value)
  enumName : Text
  isEnumClass : Bool

/-- The variables of `readStatic`. -/
structure ReaderVariables where
  isInsideEnum : Bool
  enumName : Option Text
  isEnumClass : Bool
  currentValues : List (Text × Value)
  enums : List (Text × EnumState)
  withAutoValue : Bool

inductive ReadError
  | illegalState (text : Text)
  | numberFormat (value : Text)

def validateValue (size : Nat) (entry : Text × Value) : Except ReadError Unit :=
  match entry.2.getIntValue with
  | none => .error (.numberFormat entry.2.value)
  | some v =>
    if v < 0 ∨ size ≤ v then
      .error (.illegalState ("Unexpected ".toList ++ entry.1 ++ "=Value\x7bname='".toList ++
        entry.2.name ++ "', value='".toList ++ entry.2.value ++ "'\x7d".toList))
    else .ok ()

def validateValues (currentValues : List (Text × Value)) : Except ReadError Unit :=
  currentValues.forM (validateValue currentValues.length)

/-- `String.compareTo`. -/
def compareNames (a b : Text) : Ordering := compareOfLessAndEq a b

def putName (name : Text) (v : α) (m : List (Text × α)) : List (Text × α) :=
  SortedMap.put compareNames name v m

def getName (name : Text) (m : List (Text × α)) : Option α := SortedMap.get compareNames name m

def startsTypedef (line : Text) : Bool :=
  "typedefenum\x7b".toList.isPrefixOf line || "typedefenum__attribute__".toList.isPrefixOf line

def enumClassWord : Text := "enumclass".toList

def closes (line : Text) : Bool := line.head? = some '\x7d' && line.getLast? = some ';'

/-- A line such as `NAME=value,`. -/
def readKeyValue (s : ReaderVariables) (line : Text) : ReaderVariables :=
  let line := line.filter (· ≠ ',')
  if '=' ∈ line then
    let value := (line.dropWhile (· ≠ '=')).tail
    let line := line.takeWhile (· ≠ '=')
    { s with currentValues := putName line ⟨line, value⟩ s.currentValues }
  else
    let value := Nat.toDigits 10 s.currentValues.length
    { s with withAutoValue := true, currentValues := putName line ⟨line, value⟩ s.currentValues }

def readLine (s : ReaderVariables) (line : Text) : Except ReadError ReaderVariables := do
  let line := strip line
  if startsTypedef line then
    return { s with
      currentValues := [], withAutoValue := false, isInsideEnum := true, enumName := none
      isEnumClass := false }
  else if enumClassWord.isPrefixOf line then
    if ':' ∈ line then
      return { s with
        currentValues := [], withAutoValue := false, isInsideEnum := true, isEnumClass := true
        enumName := some ((line.takeWhile (· ≠ ':')).drop enumClassWord.length) }
    else throw (.illegalState ("color and Type not located in ".toList ++ line))
  else if closes line then
    let enumName := s.enumName.getD ((line.drop 1).dropLast)
    if s.withAutoValue then validateValues s.currentValues
    return { s with
      isInsideEnum := false, enumName := some enumName
      enums := putName enumName ⟨s.currentValues, enumName, s.isEnumClass⟩ s.enums }
  else if s.isInsideEnum && isKeyValueLine line then return readKeyValue s line
  else return s

def readStatic (lines : List Text) : Except ReadError (List (Text × EnumState)) := do
  let s ← lines.foldlM readLine ⟨false, none, false, [], [], false⟩
  return s.enums

end FomeFw.Config
