import FomeFw.Timer.SingleTimerExecutor
import Mathlib.Data.Rat.Floor

/-! `log_field.cpp` and `binary_logging.cpp`: a log is a header, which describes the fields, and a
block of their values for each record. -/
namespace FomeFw.Console

open Timer (Port Tick)

/-- `MLQ_HEADER_SIZE`. -/
abbrev mlqHeaderSize : Nat := 24

/-- `MLQ_FIELD_HEADER_SIZE`. -/
abbrev mlqFieldHeaderSize : Nat := 89

/-- What is in the memory at each address. -/
abbrev Memory := Nat → UInt8

/-- `memcpy_swapend`, where `src` gives the bytes from the source address on. -/
def memcpySwapend (src : Nat → UInt8) (num : Nat) : List UInt8 :=
  (List.range num).map fun i => src (num - 1 - i)

/-- The bytes of an object in memory. -/
def objectByte (value : Nat) (i : Nat) : UInt8 := UInt8.ofNat (value / 256 ^ i)

/-- `strncpy` of a text without zeros. -/
def strncpy (text : List UInt8) (n : Nat) : List UInt8 :=
  text.take n ++ List.replicate (n - text.length) 0

/-- `copyFloat`, of the bits of the value. -/
def copyFloat (value : UInt32) : List UInt8 := memcpySwapend (objectByte value.toNat) 4

/-- `LogField::Type`. -/
inductive LogType
  | u08
  | s08
  | u16
  | s16
  | u32
  | s32
  | s64
  | f32
deriving DecidableEq

def LogType.code : LogType → UInt8
  | .u08 => 0
  | .s08 => 1
  | .u16 => 2
  | .s16 => 3
  | .u32 => 4
  | .s32 => 5
  | .s64 => 6
  | .f32 => 7

/-- The types a field can be made of. -/
inductive TValue
  | uint8
  | int8
  | uint16
  | int16
  | uint32
  | int32
  | float

def resolveType : TValue → LogType
  | .uint8 => .u08
  | .int8 => .s08
  | .uint16 => .u16
  | .int16 => .s16
  | .uint32 => .u32
  | .int32 => .s32
  | .float => .f32

def sizeForType : LogType → Nat
  | .u08 | .s08 => 1
  | .u16 | .s16 => 2
  | _ => 4

/-- `LogField`. The multiplier is given by its bits, and `none` is the null pointer. -/
structure LogField where
  value : TValue
  multiplier : UInt32
  addr : Nat
  digits : UInt8
  name : List UInt8
  units : List UInt8
  category : Option (List UInt8)

namespace LogField

def type (field : LogField) : LogType := resolveType field.value

def getSize (field : LogField) : Nat := sizeForType field.type

/-- The category with zeros behind it. A longer one is written behind the buffer. -/
def writeCategory (field : LogField) : Option (List UInt8) :=
  match field.category with
  | some category =>
    if category.length ≤ 34 then some (category ++ List.replicate (34 - category.length) 0) else none
  | none => some (List.replicate 34 0)

def writeHeader (field : LogField) : Option (List UInt8) := do
  let category ← field.writeCategory
  return field.type.code :: (strncpy field.name 34 ++ strncpy field.units 10 ++ [0] ++
    copyFloat field.multiplier ++ copyFloat 0 ++ [field.digits] ++ category)

def writeData (memory : Memory) (field : LogField) : List UInt8 :=
  memcpySwapend (fun i => memory (field.addr + i)) field.getSize

end LogField

/-- `computeFieldsRecordLength`, which counts in a `uint16_t`. -/
def computeFieldsRecordLength (fields : List LogField) : Nat :=
  fields.foldl (fun recLength field => (recLength + field.getSize) % 2 ^ 16) 0

def writeFileHeader (fields : List LogField) : Option (List UInt8) := do
  let headerSize := mlqHeaderSize + fields.length * mlqFieldHeaderSize
  let recordLength := computeFieldsRecordLength fields
  let fieldsCount := fields.length
  let buffer := [
    0x4D, 0x4C, 0x56, 0x4C, 0x47, 0,
    0, 2,
    0, 0, 0, 0,
    0, 0, 0, 0,
    0, 0, UInt8.ofNat (headerSize >>> 8), UInt8.ofNat headerSize,
    UInt8.ofNat (recordLength >>> 8), UInt8.ofNat recordLength,
    UInt8.ofNat (fieldsCount >>> 8), UInt8.ofNat fieldsCount]
  let headers ← fields.mapM LogField.writeHeader
  return buffer ++ headers.flatten

/-- The memory and the time when a line is written. -/
structure Moment where
  memory : Memory
  nowNt : Tick

section Blocks

/- The fields, and where `packedTime` is. -/
variable (port : Port) (packedTime : Nat) (fields : List LogField)

/-- Milliseconds: `TimestampCountsPerSec` is 1000. -/
def ticksPerCount : Int := port.usToNt * 1000000 / 1000

/-- The memory once the time is stored in `packedTime`. -/
def Moment.packed (m : Moment) : Memory := fun address =>
  if packedTime ≤ address ∧ address < packedTime + 4 then
    objectByte (m.nowNt.tdiv (ticksPerCount port) % 2 ^ 32).toNat (address - packedTime)
  else m.memory address

/-- The loop over the fields: what is written, and the sum of it. -/
def writeEntries (memory : Memory) : List LogField → List UInt8 × UInt8 → List UInt8 × UInt8
  | [], written => written
  | field :: fields, (out, sum) =>
    let entry := field.writeData memory
    writeEntries memory fields (out ++ entry, entry.foldl (· + ·) sum)

def writeSdBlock (blockRollCounter : UInt8) (m : Moment) : List UInt8 :=
  let timestamp := (m.nowNt.tdiv (port.usToNt * 10) % 2 ^ 16).toNat
  let (entries, sum) := writeEntries (m.packed port packedTime) fields ([], 0)
  [0, blockRollCounter, UInt8.ofNat (timestamp >>> 8), UInt8.ofNat timestamp] ++ entries ++ [sum]

/-- A block for each record. -/
def writeSdBlocks (blockRollCounter : UInt8) : List Moment → List (List UInt8)
  | [] => []
  | m :: moments =>
    writeSdBlock port packedTime fields blockRollCounter m :: writeSdBlocks (blockRollCounter + 1) moments

/-- The static variables of the log. -/
structure LogCounters where
  binaryLogCount : UInt64 := 0
  blockRollCounter : UInt8 := 0

/-- What a call writes. -/
def writeSdLogLine (mainLoopStarted : Bool) (s : LogCounters) (m : Moment) :
    Option (LogCounters × List UInt8) :=
  if mainLoopStarted then
    if s.binaryLogCount = 0 then do
      let header ← writeFileHeader fields
      return ({ s with binaryLogCount := s.binaryLogCount + 1 }, header)
    else
      some (⟨s.binaryLogCount + 1, s.blockRollCounter + 1⟩,
        writeSdBlock port packedTime fields s.blockRollCounter m)
  else some (s, [])

/-- What calls write, one after the other. -/
def writeSdLogLines (s : LogCounters) : List (Bool × Moment) → Option (List UInt8)
  | [] => some []
  | (mainLoopStarted, m) :: lines => do
    let (s, line) ← writeSdLogLine port packedTime fields mainLoopStarted s m
    return line ++ (← writeSdLogLines s lines)

end Blocks

end FomeFw.Console
