import FomeFw.Lib.Java
import FomeFw.Lib.Pieces
import Mathlib.Data.Rat.Floor

/-! `SrecParser.java`, which reads a firmware from S-records. -/
namespace FomeFw.Console.Srec
open Text (hexDigit trim)
open Java (arraycopy arraycopy_eq)

structure SRecord where
  address : BitVec 32
  data : List UInt8
  deriving DecidableEq

def SRecord.endAddress (r : SRecord) : BitVec 32 := r.address + BitVec.ofNat 32 r.data.length

/-! ## Records -/

/-- `Character.digit` in base 16 -/
def digit (c : Char) : BitVec 32 :=
  match hexDigit c with
  | some d => BitVec.ofNat 32 d
  | none => -1

def hexBytes : Text → List UInt8
  | hi :: lo :: rest => ⟨(digit hi <<< 4 ||| digit lo).setWidth 8⟩ :: hexBytes rest
  | _ => []

def hexStringToByteArray (s : Text) : Java (List UInt8) :=
  if s.length % 2 ≠ 0 then .error "Hex string has odd length." else .ok (hexBytes s)

def byteAt (bytes : List UInt8) (i : Nat) : Java UInt8 :=
  match bytes[i]? with
  | some b => .ok b
  | none => .error "ArrayIndexOutOfBoundsException"

def addrLen : Char → Option Nat
  | '1' => some 2
  | '2' => some 3
  | '3' => some 4
  | _ => none

def shiftIn (address : BitVec 32) (b : UInt8) : BitVec 32 := address <<< 8 ||| b.toBitVec.setWidth 32

/-- The address in these bytes of a record. -/
def readAddress (bytes : List UInt8) (addrLen : Nat) : Java (BitVec 32) :=
  (List.range' 1 addrLen).foldlM (fun address i => (byteAt bytes i).map (shiftIn address)) 0

/-- The record in the bytes of a line, of which the first is the count. -/
def readRecord (line : Text) (bytes : List UInt8) (addrLen count : Nat) : Java SRecord :=
  if count < addrLen + 1 then .error ("Invalid record length in line: " ++ String.ofList line)
  else do
    let address ← readAddress bytes addrLen
    let dataLen := count - addrLen - 1
    let data ← arraycopy bytes (1 + addrLen) (List.replicate dataLen 0) 0 dataLen
    return ⟨address, data⟩

/-- The record of a line, none where the line is skipped. -/
def parseLine (line : Text) : Java (Option SRecord) :=
  match trim line with
  | [] => .ok none
  | first :: rest =>
    if first ≠ 'S' then .ok none
    else
      match rest with
      | [] => .error "StringIndexOutOfBoundsException"
      | recordType :: hexData => do
        let bytes ← hexStringToByteArray hexData
        let count ← byteAt bytes 0
        match addrLen recordType with
        | some addrLen => (readRecord (trim line) bytes addrLen count.toNat).map some
        | none => return none

def readRecords (mRecords : List SRecord) : List Text → Java (List SRecord)
  | [] => .ok mRecords
  | line :: lines => do
    match ← parseLine line with
    | some r => readRecords (mRecords ++ [r]) lines
    | none => readRecords mRecords lines

/-! ## Segments -/

/-- One segment is copied behind the others. -/
def copySegment (copied : Nat × List UInt8) (segment : SRecord) : Java (Nat × List UInt8) :=
  (arraycopy segment.data 0 copied.2 copied.1 segment.data.length).map fun mergedData =>
    (copied.1 + segment.data.length, mergedData)

def totalLength (run : List SRecord) : BitVec 32 :=
  run.foldl (fun total r => total + BitVec.ofNat 32 r.data.length) 0

def mergeRun : List SRecord → Java SRecord
  | [] => .error "IndexOutOfBoundsException"
  | start :: more =>
    let total := totalLength (start :: more)
    if total.toInt < 0 then .error "NegativeArraySizeException"
    else do
      let copied ← (start :: more).foldlM copySegment (0, List.replicate total.toNat 0)
      return ⟨start.address, copied.2⟩

/-- `Comparator.comparingInt` -/
abbrev ByAddress (r s : SRecord) : Prop := r.address.toInt ≤ s.address.toInt

/-- The records sorted, in runs of which each record goes on where the one before it ends. -/
def contiguousRuns (mRecords : List SRecord) : List (List SRecord) :=
  (mRecords.insertionSort ByAddress).splitBy fun r s => r.endAddress == s.address

def mergeAdjacentRecords (mRecords : List SRecord) : Java (List SRecord) :=
  (contiguousRuns mRecords).mapM mergeRun

/-- The segments that a new parser has after a file. -/
def parse (lines : List Text) : Java (List SRecord) := do
  mergeAdjacentRecords (← readRecords [] lines)

/-! ## Files -/

/-- These digits are the bytes in base 16. -/
inductive Hex : Text → List UInt8 → Prop
  | nil : Hex [] []
  | cons {hi lo : Char} {h l : Nat} {digits : Text} {bytes : List UInt8}
      (high : hexDigit hi = some h) (low : hexDigit lo = some l) (rest : Hex digits bytes) :
      Hex (hi :: lo :: digits) (UInt8.ofNat (16 * h + l) :: bytes)

/-- The number with these bytes, the highest first. -/
def bigEndian (bytes : List UInt8) : Nat := bytes.foldl (fun n b => 256 * n + b.toNat) 0

/-- The types of records with data, and how long their addresses are. -/
def dataTypes : List (Char × Nat) := [('1', 2), ('2', 3), ('3', 4)]

/-- The line is a record with this address and data: the type, how many bytes follow, the address,
the data and a checksum. -/
def IsRecord (line : Text) (r : SRecord) : Prop :=
  ∃ (type : Char × Nat) (digits : Text) (address : List UInt8) (checksum : UInt8),
    type ∈ dataTypes ∧ trim line = 'S' :: type.1 :: digits ∧
    address.length = type.2 ∧ bigEndian address = r.address.toNat ∧
    type.2 + r.data.length + 1 < 256 ∧
    Hex digits (UInt8.ofNat (type.2 + r.data.length + 1) :: (address ++ r.data ++ [checksum]))

/-- The line is a record of another type, or none. -/
def IsOther (line : Text) : Prop :=
  (trim line).head? ≠ some 'S' ∨
    ∃ (type : Char) (digits : Text) (count : UInt8) (bytes : List UInt8),
      trim line = 'S' :: type :: digits ∧ type ∉ dataTypes.map Prod.fst ∧ Hex digits (count :: bytes)

/-- Lines with these records, in this order, and others between them. -/
inductive IsFile : List Text → List SRecord → Prop
  | nil : IsFile [] []
  | record {line : Text} {r : SRecord} {lines : List Text} {records : List SRecord}
      (here : IsRecord line r) (rest : IsFile lines records) : IsFile (line :: lines) (r :: records)
  | other {line : Text} {lines : List Text} {records : List SRecord}
      (here : IsOther line) (rest : IsFile lines records) : IsFile (line :: lines) records

section Reading

variable {line digits : Text} {lines : List Text} {r : SRecord} {records found : List SRecord}
  {bytes before address : List UInt8}

theorem digit_eq {c : Char} {d : Nat} (is : hexDigit c = some d) : digit c = BitVec.ofNat 32 d := by
  rw [digit, is]

theorem two_digits {h l : Nat} (high : h < 16) (low : l < 16) :
    (BitVec.ofNat 32 h <<< 4 ||| BitVec.ofNat 32 l).setWidth 8 = BitVec.ofNat 8 (16 * h + l) := by
  have all : ∀ h l : Fin 16, (BitVec.ofNat 32 h <<< 4 ||| BitVec.ofNat 32 l).setWidth 8 =
      BitVec.ofNat 8 (16 * h + l) := by decide +kernel
  exact all ⟨h, high⟩ ⟨l, low⟩

theorem Hex.read (hex : Hex digits bytes) : hexStringToByteArray digits = .ok bytes := by
  have even : digits.length % 2 = 0 ∧ hexBytes digits = bytes := by
    induction hex with
    | nil => exact ⟨rfl, rfl⟩
    | cons high low rest ih =>
      refine ⟨?_, ?_⟩
      · simp only [List.length_cons]
        omega
      · rw [hexBytes, ih.2, digit_eq high, digit_eq low,
          two_digits (Text.hexDigit_lt high) (Text.hexDigit_lt low)]
        rfl
  rw [hexStringToByteArray, if_neg (not_not.mpr even.1), even.2]

theorem shiftIn_toNat (a : BitVec 32) (b : UInt8) :
    (shiftIn a b).toNat = (256 * a.toNat + b.toNat) % 2 ^ 32 := by
  have apart : a <<< 8 &&& b.toBitVec.setWidth 32 = 0#32 := by
    apply BitVec.eq_of_getLsbD_eq
    intro i _
    simp only [BitVec.getLsbD_and, BitVec.getLsbD_shiftLeft, BitVec.getLsbD_setWidth,
      BitVec.getLsbD_zero]
    by_cases low : i < 8
    · simp [low]
    · simp [BitVec.getLsbD_of_ge b.toBitVec i (by omega)]
  rw [shiftIn, ← BitVec.add_eq_or_of_and_eq_zero _ _ apart, BitVec.toNat_add, BitVec.toNat_shiftLeft,
    BitVec.toNat_setWidth, UInt8.toNat_toBitVec, Nat.shiftLeft_eq]
  omega

/-- Of an address the lower bits are read. -/
theorem shiftIn_all (address : List UInt8) (a : BitVec 32) :
    (address.foldl shiftIn a).toNat =
      address.foldl (fun n b => 256 * n + b.toNat) a.toNat % 2 ^ 32 := by
  have modulo (address : List UInt8) (n : Nat) :
      address.foldl (fun n b => 256 * n + b.toNat) (n % 2 ^ 32) % 2 ^ 32 =
        address.foldl (fun n b => 256 * n + b.toNat) n % 2 ^ 32 := by
    induction address generalizing n with
    | nil => exact Nat.mod_mod _ _
    | cons b address ih =>
      have same : (256 * (n % 2 ^ 32) + b.toNat) % 2 ^ 32 = (256 * n + b.toNat) % 2 ^ 32 := by omega
      rw [List.foldl_cons, List.foldl_cons, ← ih, same, ih]
  induction address generalizing a with
  | nil => exact (Nat.mod_eq_of_lt a.isLt).symm
  | cons b address ih => rw [List.foldl_cons, ih, shiftIn_toNat, modulo, List.foldl_cons]

theorem foldlM_byteAt (before address after : List UInt8) (a : BitVec 32) :
    (List.range' before.length address.length).foldlM
      (fun a i => (byteAt (before ++ (address ++ after)) i).map (shiftIn a)) a =
        .ok (address.foldl shiftIn a) := by
  induction address generalizing before a with
  | nil => rfl
  | cons b address ih =>
    have here : byteAt (before ++ (b :: address ++ after)) before.length = .ok b := by
      rw [byteAt, List.getElem?_append_right le_rfl, Nat.sub_self]
      rfl
    have rest := ih (before ++ [b]) (shiftIn a b)
    rw [List.length_append, List.length_singleton, List.append_assoc, List.singleton_append] at rest
    rw [List.length_cons, List.range'_succ, List.foldlM_cons, here]
    exact rest

theorem readAddress_eq (count : UInt8) (address after : List UInt8) :
    readAddress (count :: (address ++ after)) address.length = .ok (address.foldl shiftIn 0) :=
  foldlM_byteAt [count] address after 0

theorem readRecord_eq {address data : List UInt8} (count checksum : UInt8) (a : BitVec 32)
    (reads : address.foldl shiftIn 0 = a) :
    readRecord line (count :: (address ++ data ++ [checksum])) address.length
      (address.length + data.length + 1) = .ok ⟨a, data⟩ := by
  have length : address.length + data.length + 1 - address.length - 1 = data.length := by omega
  have copied : arraycopy (count :: (address ++ (data ++ [checksum]))) (1 + address.length)
      (List.replicate data.length 0) 0 data.length = .ok data := by
    have copy := arraycopy_eq (count :: address) data [checksum] [] (List.replicate data.length 0)
    rw [List.length_replicate, if_pos le_rfl, List.drop_replicate, Nat.sub_self, List.length_cons,
      Nat.add_comm] at copy
    simpa using copy
  rw [readRecord, if_neg (by omega), List.append_assoc, readAddress_eq, reads, length]
  simp only [bind, Except.bind, copied]
  rfl

theorem addrLen_of_mem {type : Char × Nat} (member : type ∈ dataTypes) :
    addrLen type.1 = some type.2 ∧ type.2 ≤ 4 := by
  simp only [dataTypes, List.mem_cons, List.not_mem_nil, or_false] at member
  rcases member with rfl | rfl | rfl
  · exact ⟨rfl, by decide⟩
  · exact ⟨rfl, by decide⟩
  · exact ⟨rfl, by decide⟩

theorem addrLen_none {type : Char} (other : type ∉ dataTypes.map Prod.fst) : addrLen type = none := by
  simp only [dataTypes, List.map_cons, List.map_nil, List.mem_cons, List.not_mem_nil, or_false,
    not_or] at other
  unfold addrLen
  split
  · exact absurd rfl other.1
  · exact absurd rfl other.2.1
  · exact absurd rfl other.2.2
  · rfl

theorem parseLine_record (is : IsRecord line r) : parseLine line = .ok (some r) := by
  obtain ⟨type, digits, address, checksum, known, trimmed, long, reads, fits, hex⟩ := is
  obtain ⟨type, n⟩ := type
  simp only at long trimmed fits hex
  subst long
  obtain ⟨length, -⟩ := addrLen_of_mem known
  have count : (UInt8.ofNat (address.length + r.data.length + 1)).toNat =
      address.length + r.data.length + 1 := by
    rw [UInt8.toNat_ofNat', Nat.mod_eq_of_lt fits]
  have whole : address.foldl shiftIn 0 = r.address := by
    apply BitVec.eq_of_toNat_eq
    rw [shiftIn_all]
    exact (congrArg (· % 2 ^ 32) reads).trans (Nat.mod_eq_of_lt r.address.isLt)
  rw [parseLine, trimmed]
  simp only [ne_eq, not_true, if_false, hex.read]
  simp only [bind, Except.bind, byteAt, List.getElem?_cons_zero, length, count,
    readRecord_eq _ checksum r.address whole]
  rfl

theorem parseLine_other (is : IsOther line) : parseLine line = .ok none := by
  rcases is with skipped | ⟨type, digits, count, bytes, trimmed, other, hex⟩
  · rw [parseLine]
    cases trimmed : trim line with
    | nil => rfl
    | cons first rest =>
      rw [trimmed] at skipped
      have different : first ≠ 'S' := fun same => skipped (congrArg some same)
      exact if_pos different
  · rw [parseLine, trimmed]
    simp only [ne_eq, not_true, if_false, hex.read]
    simp only [bind, Except.bind, byteAt, List.getElem?_cons_zero, addrLen_none other]
    rfl

theorem readRecords_eq (file : IsFile lines records) (found : List SRecord) :
    readRecords found lines = .ok (found ++ records) := by
  induction file generalizing found with
  | nil => rw [List.append_nil, readRecords]
  | record here _ ih =>
    rw [readRecords, parseLine_record here]
    change readRecords (found ++ [_]) _ = _
    rw [ih, List.append_assoc, List.singleton_append]
  | other here _ ih =>
    rw [readRecords, parseLine_other here]
    exact ih found

/-- The bytes of a record are fewer than the count can be. -/
theorem IsFile.short (file : IsFile lines records) : ∀ r ∈ records, r.data.length < 256 := by
  induction file with
  | nil => exact fun _ member => nomatch member
  | record here _ ih =>
    obtain ⟨type, _, _, _, _, _, _, _, fits, _⟩ := here
    exact List.forall_mem_cons.mpr ⟨by omega, ih⟩
  | other _ _ ih => exact ih

end Reading

section Merging

variable {records run : List SRecord} {segments : List SRecord} {segment : SRecord}

def dataOf (run : List SRecord) : List UInt8 := run.flatMap SRecord.data

theorem totalLength_toNat (run : List SRecord) :
    (totalLength run).toNat = (dataOf run).length % 2 ^ 32 := by
  have sum (run : List SRecord) (total : BitVec 32) :
      (run.foldl (fun total r => total + BitVec.ofNat 32 r.data.length) total).toNat =
        (total.toNat + (dataOf run).length) % 2 ^ 32 := by
    induction run generalizing total with
    | nil => simp [dataOf, Nat.mod_eq_of_lt total.isLt]
    | cons r run ih =>
      simp only [List.foldl_cons, ih, dataOf, List.flatMap_cons, List.length_append, BitVec.toNat_add,
        BitVec.toNat_ofNat]
      omega
  have all := sum run 0
  change _ = (0 + _) % _ at all
  rwa [Nat.zero_add] at all

/-- The segments of a run are all copied just when there is room for them. -/
theorem copy_ok_iff {filled rest : List UInt8} {copied : Nat × List UInt8} :
    run.foldlM copySegment (filled.length, filled ++ rest) = .ok copied ↔
      (dataOf run).length ≤ rest.length ∧
        copied = (filled.length + (dataOf run).length,
          filled ++ dataOf run ++ rest.drop (dataOf run).length) := by
  induction run generalizing filled rest with
  | nil =>
    simp [dataOf, pure, Except.pure, eq_comm]
  | cons r run ih =>
    have copy := arraycopy_eq [] r.data [] filled rest
    rw [List.nil_append, List.append_nil, List.length_nil] at copy
    rw [List.foldlM_cons, copySegment, copy]
    by_cases room : r.data.length ≤ rest.length
    · rw [if_pos room]
      have further := @ih (filled ++ r.data) (rest.drop r.data.length)
      rw [List.length_append] at further
      refine further.trans ?_
      simp only [dataOf, List.flatMap_cons, List.length_append, List.length_drop, List.drop_drop,
        List.append_assoc, Nat.add_assoc]
      refine and_congr_left fun _ => ?_
      omega
    · rw [if_neg room]
      refine iff_of_false (fun same => nomatch same) fun fits => room ?_
      simp only [dataOf, List.flatMap_cons, List.length_append] at fits
      omega

/-- A run with fewer than `2 ^ 31` bytes becomes one record, another is not merged. -/
theorem mergeRun_ok_iff (some : run ≠ []) :
    mergeRun run = .ok segment ↔
      (dataOf run).length < 2 ^ 31 ∧ segment = ⟨(run.head some).address, dataOf run⟩ := by
  cases run with
  | nil => contradiction
  | cons start more =>
    have total := totalLength_toNat (start :: more)
    have negative : (totalLength (start :: more)).toInt < 0 ↔
        2 ^ 31 ≤ (totalLength (start :: more)).toNat := by
      rw [BitVec.toInt_eq_toNat_cond]
      split <;> omega
    simp only [mergeRun, negative]
    by_cases tooLong : 2 ^ 31 ≤ (totalLength (start :: more)).toNat
    · rw [if_pos tooLong]
      refine iff_of_false (fun same => nomatch same) fun fits => ?_
      omega
    · rw [if_neg tooLong]
      have copies (copied : Nat × List UInt8) := @copy_ok_iff (start :: more) []
        (List.replicate (totalLength (start :: more)).toNat 0) copied
      simp only [List.length_nil, List.nil_append, List.length_replicate, Nat.zero_add] at copies
      constructor
      · intro merged
        cases done : (start :: more).foldlM copySegment
            (0, List.replicate (totalLength (start :: more)).toNat 0) with
        | error text =>
          rw [done] at merged
          cases merged
        | ok copied =>
          rw [done] at merged
          obtain ⟨fits, rfl⟩ := (copies copied).mp done
          have whole : (dataOf (start :: more)).length = (totalLength (start :: more)).toNat := by omega
          refine ⟨by omega, ?_⟩
          cases merged
          rw [whole, List.drop_replicate, Nat.sub_self, List.replicate_zero, List.append_nil]
          rfl
      · rintro ⟨fits, rfl⟩
        have whole : (dataOf (start :: more)).length = (totalLength (start :: more)).toNat := by omega
        have done := (copies _).mpr ⟨whole.le, rfl⟩
        rw [whole, List.drop_replicate, Nat.sub_self, List.replicate_zero, List.append_nil] at done
        rw [done]
        rfl

/-- The segment that a run becomes. -/
def merged (run : List SRecord) : SRecord :=
  ⟨(run.head?.map SRecord.address).getD 0, dataOf run⟩

theorem mapM_mergeRun_ok_iff {runs : List (List SRecord)} (filled : [] ∉ runs) :
    runs.mapM mergeRun = .ok segments ↔
      (∀ run ∈ runs, (dataOf run).length < 2 ^ 31) ∧ segments = runs.map merged := by
  induction runs generalizing segments with
  | nil => simp [pure, Except.pure, eq_comm]
  | cons run runs ih =>
    obtain ⟨some, filled⟩ := not_or.mp (mt List.mem_cons.mpr filled)
    have here (segment : SRecord) := @mergeRun_ok_iff run segment (Ne.symm some)
    have first : merged run = ⟨(run.head (Ne.symm some)).address, dataOf run⟩ := by
      rw [merged, List.head?_eq_some_head (Ne.symm some)]
      rfl
    rw [List.mapM_cons, List.forall_mem_cons, List.map_cons, first]
    constructor
    · intro done
      cases one : mergeRun run with
      | error text =>
        rw [one] at done
        cases done
      | ok segment =>
        cases others : runs.mapM mergeRun with
        | error text =>
          rw [one, others] at done
          cases done
        | ok more =>
          rw [one, others] at done
          obtain ⟨fits, rfl⟩ := (here segment).mp one
          obtain ⟨fit, rfl⟩ := (ih filled).mp others
          cases done
          exact ⟨⟨fits, fit⟩, rfl⟩
    · rintro ⟨⟨fits, fit⟩, rfl⟩
      rw [(here _).mpr ⟨fits, rfl⟩, (ih filled).mpr ⟨fit, rfl⟩]
      rfl

/-- What a parser makes of a file. -/
theorem parse_ok_iff {lines : List Text} (file : IsFile lines records) :
    parse lines = .ok segments ↔
      (∀ run ∈ contiguousRuns records, (dataOf run).length < 2 ^ 31) ∧
        segments = (contiguousRuns records).map merged := by
  rw [parse, readRecords_eq file, List.nil_append]
  exact mapM_mergeRun_ok_iff (List.nil_notMem_splitBy _ _)

end Merging

/-! ## Places -/

open Piece

/-- Where it is in the order of the comparator. -/
def SRecord.signed (r : SRecord) : Piece UInt8 := ⟨r.address.toInt, r.data⟩

def SRecord.unsigned (r : SRecord) : Piece UInt8 := ⟨r.address.toNat, r.data⟩

section Places

variable {records run : List SRecord} {r s : SRecord} {c : Int}

theorem toInt_cases (a : BitVec 32) :
    a.toInt = a.toNat ∧ a.toNat < 2 ^ 31 ∨ a.toInt = a.toNat - 2 ^ 32 ∧ 2 ^ 31 ≤ a.toNat := by
  have bound := a.isLt
  rw [BitVec.toInt_eq_toNat_cond]
  split
  · exact .inl ⟨rfl, by omega⟩
  · exact .inr ⟨rfl, by omega⟩

theorem meets_iff (short : r.data.length < 256) (ordered : ByAddress r s) :
    r.endAddress = s.address ↔ Meets r.signed s.signed := by
  have rLt := r.address.isLt
  have sLt := s.address.isLt
  rw [← BitVec.toNat_inj, SRecord.endAddress, BitVec.toNat_add, BitVec.toNat_ofNat]
  simp only [Meets, stop, SRecord.signed]
  simp only [ByAddress] at ordered
  rcases toInt_cases r.address with ⟨here, _⟩ | ⟨here, _⟩
  · rcases toInt_cases s.address with ⟨there, _⟩ | ⟨there, _⟩ <;> omega
  · rcases toInt_cases s.address with ⟨there, _⟩ | ⟨there, _⟩ <;> omega

theorem mem_contiguousRuns (member : run ∈ contiguousRuns records) (there : r ∈ run) : r ∈ records := by
  have sorted : r ∈ (contiguousRuns records).flatten := List.mem_flatten.mpr ⟨run, member, there⟩
  rwa [contiguousRuns, List.flatten_splitBy, List.mem_insertionSort] at sorted

theorem exists_contiguousRun (there : r ∈ records) : ∃ run ∈ contiguousRuns records, r ∈ run := by
  rw [← List.mem_flatten, contiguousRuns, List.flatten_splitBy, List.mem_insertionSort]
  exact there

theorem runs_sorted (records : List SRecord) :
    (∀ run ∈ contiguousRuns records, run.Pairwise ByAddress) ∧
      (contiguousRuns records).Pairwise fun run next => ∀ r ∈ run, ∀ s ∈ next, ByAddress r s := by
  have total : Std.Total ByAddress := ⟨fun r s => le_total r.address.toInt s.address.toInt⟩
  have trans : IsTrans SRecord ByAddress := ⟨fun _ _ _ => le_trans⟩
  rw [← List.pairwise_flatten, contiguousRuns, List.flatten_splitBy]
  exact List.pairwise_insertionSort _ _

theorem runs_chain (short : ∀ r ∈ records, r.data.length < 256) :
    ∀ run ∈ contiguousRuns records, (run.map SRecord.signed).IsChain Meets := by
  intro run member
  refine (List.isChain_map _).mpr ((isChain_and_pairwise (List.isChain_of_mem_splitBy member)
    ((runs_sorted records).1 run member)).imp_of_mem_imp fun r s there _ next => ?_)
  exact (meets_iff (short r (mem_contiguousRuns member there)) next.2).mp (beq_iff_eq.mp next.1)

theorem runs_break (short : ∀ r ∈ records, r.data.length < 256) :
    ((contiguousRuns records).map (List.map SRecord.signed)).IsChain Breaks := by
  refine (List.isChain_map _).mpr ((isChain_and_pairwise (List.isChain_getLast_head_splitBy _ _)
    (runs_sorted records).2).imp_of_mem_imp fun run next member _ broken => ?_)
  obtain ⟨⟨some, some', ends⟩, ordered⟩ := broken
  have last := List.getLast_mem some
  refine ⟨mt List.map_eq_nil_iff.mp some, mt List.map_eq_nil_iff.mp some', fun meets => ?_⟩
  rw [List.getLast_map, List.head_map] at meets
  rw [(meets_iff (short _ (mem_contiguousRuns member last))
    (ordered _ last _ (List.head_mem some'))).mpr meets, beq_self_eq_true] at ends
  contradiction

theorem signed_merged (member : run ∈ contiguousRuns records) :
    (merged run).signed = join (run.map SRecord.signed) := by
  cases run with
  | nil => exact absurd member (List.nil_notMem_splitBy _ _)
  | cons r run =>
    simp [merged, join, SRecord.signed, dataOf, List.flatMap_map]

/-- What the parser makes of records if none of their runs is too long. -/
def segmentsOf (records : List SRecord) : List SRecord := (contiguousRuns records).map merged

theorem signed_segmentsOf (records : List SRecord) :
    (segmentsOf records).map SRecord.signed =
      ((contiguousRuns records).map (List.map SRecord.signed)).map join := by
  simp only [segmentsOf, List.map_map]
  exact List.map_congr_left fun run member => signed_merged member

/-- In the order of the comparator, there are gaps between the segments just when no record begins
before the end of one that is sorted before it. -/
theorem signed_apart_iff (short : ∀ r ∈ records, r.data.length < 256) :
    ((segmentsOf records).map SRecord.signed).Pairwise Apart ↔
      records.Pairwise fun r s =>
        if ByAddress r s then Before r.signed s.signed else Before s.signed r.signed := by
  have total : Std.Total ByAddress := ⟨fun r s => le_total r.address.toInt s.address.toInt⟩
  have trans : IsTrans SRecord ByAddress := ⟨fun _ _ _ => le_trans⟩
  rw [signed_segmentsOf,
    joined_apart_iff (List.forall_mem_map.mpr (runs_chain short)) (runs_break short), ← List.map_flatten, contiguousRuns, List.flatten_splitBy, List.pairwise_map,
    insertionSort_pairwise_iff]

/-- There the segments hold what the records do. -/
theorem signed_cells (short : ∀ r ∈ records, r.data.length < 256) :
    (((segmentsOf records).map SRecord.signed).flatMap cells).Perm
      ((records.map SRecord.signed).flatMap cells) := by
  have runs : ((segmentsOf records).map SRecord.signed).flatMap cells =
      ((contiguousRuns records).flatten.map SRecord.signed).flatMap cells := by
    rw [signed_segmentsOf, List.map_flatten, List.flatMap_map, List.flatten_eq_flatMap,
      List.flatMap_assoc, List.flatMap_map, List.flatMap_map]
    refine List.flatMap_congr fun run member => ?_
    exact cells_join (runs_chain short run member)
  rw [runs, contiguousRuns, List.flatten_splitBy]
  exact ((List.perm_insertionSort _ _).map _).flatMap_right _

end Places

/-! ## The image -/

/-- The segments come in the order of their unsigned addresses with gaps between them, and hold the
bytes of the records where the records have them. -/
def KeepsImage (lines : List Text) (records : List SRecord) : Prop :=
  ∃ segments, parse lines = .ok segments ∧ (segments.map SRecord.unsigned).Pairwise Apart ∧
    ((segments.map SRecord.unsigned).flatMap cells).Perm
      ((records.map SRecord.unsigned).flatMap cells)

def Disjoint (r s : SRecord) : Prop := ∀ x, ¬ (r.unsigned.Covers x ∧ s.unsigned.Covers x)

/-- From `0x80000000` on. -/
def SRecord.High (r : SRecord) : Prop := r.address.toInt < 0

/-- All records begin in one half of the addresses; or those in the lower half are empty and at
address 0, and some record reaches to the end of the upper one. -/
def OneSide (records : List SRecord) : Prop :=
  (∀ r ∈ records, r.High) ∨ (∀ r ∈ records, ¬ r.High) ∨
    (∃ r ∈ records, r.unsigned.stop = 2 ^ 32) ∧
      ∀ r ∈ records, ¬ r.High → r.address = 0 ∧ r.data = []

/-- The second, if empty, is not at an address of the first, and the first, if empty, not at one of
the second behind its beginning. -/
def Outside (r s : SRecord) : Prop :=
  (s.data = [] → ¬ r.unsigned.Covers s.address.toNat) ∧
    (r.data = [] → s.unsigned.Covers r.address.toNat → r.address = s.address)

structure Mergeable (records : List SRecord) : Prop where
  oneSide : OneSide records
  outside : records.Pairwise Outside
  /-- There are not `2 ^ 31` bytes without a gap. -/
  bounded : ¬ ∃ a : Int, ∀ i : Nat, i < 2 ^ 31 → ∃ r ∈ records, r.unsigned.Covers (a + i)

section Image

variable {lines : List Text} {records : List SRecord} {r s : SRecord} {c x : Int}

theorem unsigned_high (high : r.High) : r.unsigned = r.signed.shift (2 ^ 32) := by
  simp only [SRecord.unsigned, SRecord.signed, shift, Piece.mk.injEq, and_true]
  simp only [SRecord.High] at high
  rcases toInt_cases r.address with ⟨same, _⟩ | ⟨same, _⟩ <;> omega

theorem unsigned_low (low : ¬ r.High) : r.unsigned = r.signed.shift 0 := by
  have bound := r.address.isLt
  simp only [SRecord.unsigned, SRecord.signed, shift, Piece.mk.injEq, and_true]
  simp only [SRecord.High] at low
  rcases toInt_cases r.address with ⟨same, _⟩ | ⟨same, _⟩ <;> omega

theorem cells_empty (empty : r.data = []) (c : Int) :
    r.unsigned.cells = (r.signed.shift c).cells := by
  rw [cells, cells, SRecord.unsigned, shift, SRecord.signed, empty]
  rfl

/-- Unsigned and signed addresses differ by one number. -/
structure OneShift (records : List SRecord) (c : Int) : Prop where
  record_cells : ∀ r ∈ records, r.unsigned.cells = (r.signed.shift c).cells
  segment : ∀ s ∈ segmentsOf records, s.unsigned = s.signed.shift c

theorem OneShift.apart_iff (one : OneShift records c) :
    ((segmentsOf records).map SRecord.unsigned).Pairwise Apart ↔
      ((segmentsOf records).map SRecord.signed).Pairwise Apart := by
  rw [List.pairwise_map, List.pairwise_map]
  refine List.Pairwise.iff_of_mem fun {s t} member member' => ?_
  simp only [one.segment s member, one.segment t member', shift_apart]

theorem OneShift.cells_perm (one : OneShift records c) (short : ∀ r ∈ records, r.data.length < 256) :
    (((segmentsOf records).map SRecord.unsigned).flatMap cells).Perm
      ((records.map SRecord.unsigned).flatMap cells) := by
  have moved {l : List SRecord} (same : ∀ r ∈ l, r.unsigned.cells = (r.signed.shift c).cells) :
      (l.map SRecord.unsigned).flatMap Piece.cells =
        ((l.map SRecord.signed).flatMap Piece.cells).map fun cell => (cell.1 + c, cell.2) := by
    rw [List.flatMap_map, List.flatMap_map, List.map_flatMap]
    exact List.flatMap_congr fun r member => (same r member).trans cells_shift
  rw [moved one.record_cells, moved fun s member => congrArg Piece.cells (one.segment s member)]
  exact (signed_cells short).map _

theorem OneShift.covers_iff (one : OneShift records c) (member : r ∈ records) :
    r.unsigned.Covers x ↔ r.signed.Covers (x - c) := by
  rw [← exists_mem_cells, one.record_cells r member, exists_mem_cells, shift_covers]

/-- A segment begins with the record of its run that is sorted first. -/
theorem merged_begins {run : List SRecord} (member : run ∈ contiguousRuns records) :
    ∃ r ∈ run, (merged run).address = r.address ∧ ∀ s ∈ run, ByAddress r s := by
  have sorted := (runs_sorted records).1 run member
  cases run with
  | nil => exact absurd member (List.nil_notMem_splitBy _ _)
  | cons r run =>
    have above := (List.pairwise_cons.mp sorted).1
    exact ⟨r, List.mem_cons_self .., rfl, List.forall_mem_cons.mpr ⟨le_refl r.address.toInt, above⟩⟩

theorem exists_address (member : s ∈ segmentsOf records) : ∃ r ∈ records, s.address = r.address := by
  obtain ⟨run, there, rfl⟩ := List.mem_map.mp member
  obtain ⟨r, first, same, -⟩ := merged_begins there
  exact ⟨r, mem_contiguousRuns there first, same⟩

theorem covers_iff_of_perm {l l' : List SRecord} {place : SRecord → Piece UInt8}
    (same : ((l.map place).flatMap cells).Perm ((l'.map place).flatMap cells)) :
    (∃ s ∈ l, (place s).Covers x) ↔ ∃ r ∈ l', (place r).Covers x := by
  have all := exists_congr fun v => same.mem_iff (a := (x, v))
  rw [exists_mem_flatMap_cells, exists_mem_flatMap_cells] at all
  simpa only [List.mem_map, exists_exists_and_eq_and] using all

theorem signed_covers (short : ∀ r ∈ records, r.data.length < 256) :
    (∃ s ∈ segmentsOf records, s.signed.Covers x) ↔ ∃ r ∈ records, r.signed.Covers x :=
  covers_iff_of_perm (signed_cells short)

/-- What ends with the addresses begins in the upper half. -/
theorem high_of_stop (short : r.data.length < 256) (ends : r.unsigned.stop = 2 ^ 32) :
    r.High ∧ r.signed.Covers (-1) := by
  have bound := r.address.isLt
  simp only [stop, SRecord.unsigned] at ends
  simp only [SRecord.High, Covers, stop, SRecord.signed]
  rcases toInt_cases r.address with ⟨same, _⟩ | ⟨same, _⟩ <;> omega

/-- With segments in the order of the comparator, one that began at address 0 would not be behind the
one with the last address. -/
theorem OneSide.segments_high (sides : OneSide records) (short : ∀ r ∈ records, r.data.length < 256)
    (apart : ((segmentsOf records).map SRecord.signed).Pairwise Apart) (member : r ∈ records)
    (high : r.High) : ∀ s ∈ segmentsOf records, s.High := by
  intro s there
  obtain ⟨g, gMember, same⟩ := exists_address there
  rw [SRecord.High, same]
  rcases sides with all | none | ⟨⟨last, lastMember, ends⟩, low⟩
  · exact all g gMember
  · exact absurd high (none r member)
  by_contra zero
  have begins : s.signed.start = 0 := by
    rw [SRecord.signed, same, (low g gMember zero).1]
    rfl
  obtain ⟨s', there', covers⟩ := (signed_covers short).mpr
    ⟨last, lastMember, (high_of_stop (short last lastMember) ends).2⟩
  have least := start_le_stop s.signed
  simp only [Covers] at covers
  rcases pairwise_cases (List.pairwise_map.mp apart) there there' with rfl | before | behind
  · omega
  · simp only [Apart] at before
    omega
  · simp only [Apart] at behind
    omega

theorem OneSide.oneShift (sides : OneSide records)
    (begins : ∀ r ∈ records, r.High → ∀ s ∈ segmentsOf records, s.High) :
    ∃ c, OneShift records c := by
  by_cases some : ∃ r ∈ records, r.High
  · obtain ⟨h, hMember, hHigh⟩ := some
    refine ⟨2 ^ 32, fun r member => ?_, fun s member => unsigned_high (begins h hMember hHigh s member)⟩
    by_cases high : r.High
    · rw [unsigned_high high]
    rcases sides with all | none | ⟨-, low⟩
    · exact absurd (all r member) high
    · exact absurd hHigh (none h hMember)
    · exact cells_empty (low r member high).2 _
  · have low : ∀ r ∈ records, ¬ r.High := fun r member high => some ⟨r, member, high⟩
    refine ⟨0, fun r member => by rw [unsigned_low (low r member)], fun s member => unsigned_low ?_⟩
    obtain ⟨r, there, same⟩ := exists_address member
    rw [SRecord.High, same]
    exact low r there

theorem OneSide.cases (sides : OneSide records) (member : r ∈ records) (member' : s ∈ records) :
    (r.High ↔ s.High) ∨ r.High ∧ s.address = 0 ∧ s.data = [] ∨ s.High ∧ r.address = 0 ∧ r.data = [] := by
  rcases sides with high | low | ⟨-, low⟩
  · exact .inl (iff_of_true (high r member) (high s member'))
  · exact .inl (iff_of_false (low r member) (low s member'))
  · by_cases here : r.High <;> by_cases there : s.High
    · exact .inl (iff_of_true here there)
    · exact .inr (.inl ⟨here, low s member' there⟩)
    · exact .inr (.inr ⟨there, low r member here⟩)
    · exact .inl (iff_of_false here there)

theorem outside_iff (space : ∀ r ∈ records, r.unsigned.stop ≤ 2 ^ 32) (sides : OneSide records)
    (member : r ∈ records) (member' : s ∈ records) (disjoint : Disjoint r s) :
    (if ByAddress r s then Before r.signed s.signed else Before s.signed r.signed) ↔ Outside r s := by
  have rEnds := space r member
  have sEnds := space s member'
  have here := disjoint r.address.toNat
  have there := disjoint s.address.toNat
  have known := sides.cases member member'
  simp only [Covers, stop, SRecord.unsigned, SRecord.High, ← List.length_eq_zero_iff,
    ← BitVec.toNat_inj] at here there rEnds sEnds known
  simp only [Outside, Before, ByAddress, Covers, stop, SRecord.signed, SRecord.unsigned,
    ← List.length_eq_zero_iff, ← BitVec.toNat_inj]
  rcases toInt_cases r.address with ⟨rSame, _⟩ | ⟨rSame, _⟩ <;>
    rcases toInt_cases s.address with ⟨sSame, _⟩ | ⟨sSame, _⟩
  · split <;> omega
  · split <;> omega
  · split <;> omega
  · split <;> omega

theorem apart_iff_outside (short : ∀ r ∈ records, r.data.length < 256)
    (space : ∀ r ∈ records, r.unsigned.stop ≤ 2 ^ 32) (disjoint : records.Pairwise Disjoint)
    (sides : OneSide records) :
    ((segmentsOf records).map SRecord.signed).Pairwise Apart ↔ records.Pairwise Outside := by
  rw [signed_apart_iff short]
  constructor
  · intro ordered
    refine (disjoint.and ordered).imp_of_mem fun {r s} member member' both => ?_
    exact (outside_iff space sides member member' both.1).mp both.2
  · intro outside
    refine (disjoint.and outside).imp_of_mem fun {r s} member member' both => ?_
    exact (outside_iff space sides member member' both.1).mpr both.2

/-- The bytes of a run have no gap. -/
theorem run_covered (short : ∀ r ∈ records, r.data.length < 256) {run : List SRecord}
    (member : run ∈ contiguousRuns records) {i : Nat} (within : i < (dataOf run).length) :
    ∃ r ∈ records, r.signed.Covers ((merged run).signed.start + i) := by
  refine (signed_covers short).mp ⟨merged run, List.mem_map_of_mem member, ?_⟩
  simp only [Covers, stop, SRecord.signed, merged]
  omega

theorem runs_fit (short : ∀ r ∈ records, r.data.length < 256) (one : OneShift records c)
    (bounded : ¬ ∃ a : Int, ∀ i : Nat, i < 2 ^ 31 → ∃ r ∈ records, r.unsigned.Covers (a + i)) :
    ∀ run ∈ contiguousRuns records, (dataOf run).length < 2 ^ 31 := by
  intro run member
  by_contra long
  refine bounded ⟨(merged run).signed.start + c, fun i within => ?_⟩
  obtain ⟨r, there, covers⟩ := run_covered short member (within.trans_le (not_lt.mp long))
  refine ⟨r, there, (one.covers_iff there).mpr ?_⟩
  rwa [show (merged run).signed.start + c + i - c = (merged run).signed.start + i by omega]

theorem bounded_of_fit (short : ∀ r ∈ records, r.data.length < 256) (one : OneShift records c)
    (apart : ((segmentsOf records).map SRecord.signed).Pairwise Apart)
    (fit : ∀ run ∈ contiguousRuns records, (dataOf run).length < 2 ^ 31) :
    ¬ ∃ a : Int, ∀ i : Nat, i < 2 ^ 31 → ∃ r ∈ records, r.unsigned.Covers (a + i) := by
  rintro ⟨a, covered⟩
  have block : ∀ i : Nat, i ≤ 2 ^ 31 - 1 →
      ∃ p ∈ (segmentsOf records).map SRecord.signed, p.Covers (a - c + i) := by
    intro i within
    obtain ⟨r, member, covers⟩ := covered i (by omega)
    rw [one.covers_iff member] at covers
    obtain ⟨s, there, covers⟩ := (signed_covers short).mpr ⟨r, member, covers⟩
    refine ⟨s.signed, List.mem_map_of_mem there, ?_⟩
    rwa [show a - c + i = a + i - c by omega]
  obtain ⟨p, member, first, last⟩ := one_covers apart block
  obtain ⟨s, there, rfl⟩ := List.mem_map.mp member
  obtain ⟨run, source, rfl⟩ := List.mem_map.mp there
  have length := fit run source
  simp only [Covers, stop, SRecord.signed, merged] at first last
  omega

/-- With segments in the order of unsigned addresses, a record in the upper half makes all of them
begin there. -/
theorem segments_high (apart : ((segmentsOf records).map SRecord.unsigned).Pairwise Apart)
    (member : r ∈ records) (high : r.High) : ∀ s ∈ segmentsOf records, s.High := by
  intro s there
  obtain ⟨run, source, rfl⟩ := List.mem_map.mp there
  obtain ⟨top, topSource, inTop⟩ := exists_contiguousRun member
  obtain ⟨g, gIn, begins, least⟩ := merged_begins source
  obtain ⟨t, tIn, topBegins, topLeast⟩ := merged_begins topSource
  have ordered := (runs_sorted records).2.and (List.pairwise_map.mp (List.pairwise_map.mp apart))
  have topHigh : t.address.toInt < 0 := (topLeast r inTop).trans_lt high
  rw [SRecord.High, begins]
  rcases pairwise_cases ordered source topSource with rfl | ⟨before, -⟩ | ⟨-, gap⟩
  · exact (least r inTop).trans_lt high
  · exact (before g gIn r inTop).trans_lt high
  · simp only [Apart, stop, SRecord.unsigned, begins, topBegins] at gap
    rcases toInt_cases g.address with ⟨_, _⟩ | ⟨_, _⟩ <;>
      rcases toInt_cases t.address with ⟨_, _⟩ | ⟨_, _⟩ <;> omega

theorem oneSide_of_apart (short : ∀ r ∈ records, r.data.length < 256)
    (space : ∀ r ∈ records, r.unsigned.stop ≤ 2 ^ 32)
    (apart : ((segmentsOf records).map SRecord.unsigned).Pairwise Apart)
    (same : ∀ x, (∃ s ∈ segmentsOf records, s.unsigned.Covers x) ↔
      ∃ r ∈ records, r.unsigned.Covers x) : OneSide records := by
  by_cases allLow : ∀ r ∈ records, ¬ r.High
  · exact .inr (.inl allLow)
  by_cases allHigh : ∀ r ∈ records, r.High
  · exact .inl allHigh
  obtain ⟨h, hMember, hHigh⟩ : ∃ r ∈ records, r.High := by simpa using allLow
  obtain ⟨l, lMember, lLow⟩ : ∃ r ∈ records, ¬ r.High := by simpa using allHigh
  have begin_ := segments_high apart hMember hHigh
  -- a segment that goes beyond the last address would hold what no record holds
  have ends : ∀ s ∈ segmentsOf records, s.signed.stop ≤ 0 := by
    intro s member
    by_contra beyond
    have negative : s.signed.start < 0 := begin_ s member
    have covers : s.unsigned.Covers (2 ^ 32) := by
      rw [unsigned_high (begin_ s member), shift_covers, Int.sub_self]
      exact ⟨negative.le, not_le.mp beyond⟩
    obtain ⟨r, there, covers⟩ := (same _).mp ⟨s, member, covers⟩
    exact absurd (space r there) (not_le.mpr covers.2)
  have lows : ∀ r ∈ records, ¬ r.High → r.signed.start = 0 ∧ r.data = [] ∧
      ∃ s ∈ segmentsOf records, s.signed.stop = 0 := by
    intro r member low
    obtain ⟨run, source, inRun⟩ := exists_contiguousRun member
    have segment : merged run ∈ segmentsOf records := List.mem_map_of_mem source
    have within := (mem_join (runs_chain short run source) (List.mem_map_of_mem inRun)).2
    rw [← signed_merged source] at within
    have last := ends _ segment
    have first : 0 ≤ r.signed.start := not_lt.mp low
    have long : r.signed.stop = r.signed.start + r.data.length := rfl
    exact ⟨by omega, List.length_eq_zero_iff.mp (by omega), merged run, segment, by omega⟩
  refine .inr (.inr ⟨?_, fun r member low => ?_⟩)
  · obtain ⟨-, -, s, member, last⟩ := lows l lMember lLow
    have negative : s.signed.start < 0 := begin_ s member
    have covers : s.unsigned.Covers (2 ^ 32 - 1) := by
      rw [unsigned_high (begin_ s member), shift_covers]
      constructor <;> omega
    obtain ⟨r, there, covers⟩ := (same _).mp ⟨s, member, covers⟩
    have limit := space r there
    exact ⟨r, there, by have last := covers.2; omega⟩
  · obtain ⟨zero, empty, -⟩ := lows r member low
    exact ⟨BitVec.eq_of_toInt_eq zero, empty⟩

end Image

/-! ## Two flashes -/

theorem hex_hexBytes (digits : Text) (even : digits.length % 2 = 0)
    (all : digits.all (fun c => (hexDigit c).isSome) = true) : Hex digits (hexBytes digits) := by
  induction digits using hexBytes.induct with
  | case1 hi lo rest ih =>
    simp only [List.all_cons, Bool.and_eq_true] at all
    obtain ⟨isHigh, isLow, others⟩ := all
    obtain ⟨h, high⟩ := Option.isSome_iff_exists.mp isHigh
    obtain ⟨l, low⟩ := Option.isSome_iff_exists.mp isLow
    have byte : (⟨(digit hi <<< 4 ||| digit lo).setWidth 8⟩ : UInt8) = UInt8.ofNat (16 * h + l) := by
      rw [digit_eq high, digit_eq low, two_digits (Text.hexDigit_lt high) (Text.hexDigit_lt low)]
      rfl
    rw [hexBytes, byte]
    refine .cons high low (ih ?_ others)
    simp only [List.length_cons] at even
    omega
  | case2 digits short =>
    rcases digits with _ | ⟨c, _ | ⟨c', rest⟩⟩
    · exact .nil
    · exact absurd even (by simp)
    · exact absurd rfl (short c c' rest)

def internal : SRecord := ⟨0x08000000, [0xAA]⟩

def external : SRecord := ⟨0x90000000, [0xBB]⟩

def internalLine : Text := "S30608000000AA47".toList

def externalLine : Text := "S30690000000BBAE".toList

theorem internalLine_isRecord : IsRecord internalLine internal :=
  ⟨('3', 4), internalLine.drop 2, [0x08, 0, 0, 0], 0x47, by decide, by decide +kernel, rfl, by decide,
    by decide, hex_hexBytes _ (by decide +kernel) (by decide +kernel)⟩

theorem externalLine_isRecord : IsRecord externalLine external :=
  ⟨('3', 4), externalLine.drop 2, [0x90, 0, 0, 0], 0xAE, by decide, by decide +kernel, rfl, by decide,
    by decide, hex_hexBytes _ (by decide +kernel) (by decide +kernel)⟩

end FomeFw.Console.Srec
