import FomeFw.Config.StructLayout

/-! The configuration generator in production, `ReaderStateImpl`: it reads a definition file line
by line, and keeps two lists of the fields of each struct, one for the C header and one for the
tuning software. -/
namespace FomeFw.Config

def equalsIgnoreCase (a b : String) : Bool := a.toList.map Char.toLower = b.toList.map Char.toLower

/-- Units and scale are left out, and of the comment all but whether there is one. -/
structure ConfigField where
  name : String
  type : String
  arraySizes : List Nat := []
  isIterate : Bool := false
  hasComment : Bool := true
  deriving DecidableEq, Repr

def ConfigField.isBit (cf : ConfigField) : Bool := equalsIgnoreCase "boolean" cf.type

def ConfigField.isDirective (cf : ConfigField) : Bool := equalsIgnoreCase "directive" cf.type

/-- The rest of the line of a custom type. -/
inductive TunerStudioLine where
  | bits (datatype : ScalarType) (endBit : Nat) (values : List String)
  | scalar (datatype : ScalarType)
  | string (size : Nat)
  | array (datatype : ScalarType) (sizes : List Nat)
  deriving DecidableEq, Repr

/-- A line that is no comment and no `#define`, with the variables replaced; a size is not
negative. -/
inductive DefinitionLine where
  | struct (name : String) (withPrefix : Bool)
  | endStruct
  | bit (name : String)
  | custom (name : String) (customSize : Nat) (tunerStudioLine : TunerStudioLine)
  | field (cf : ConfigField)
  /-- `#if` and the like. -/
  | directive
  deriving DecidableEq, Repr

/-! Types -/

namespace TypesHelper

def isFloat (type : String) : Bool :=
  type = "float" || equalsIgnoreCase type "floatms_t" || equalsIgnoreCase type "percent_t" ||
    equalsIgnoreCase type "angle_t"

def getPrimitiveSize (type : String) : Option Nat :=
  if type = "int8_t" ∨ type = "uint8_t" then some 1
  else if type = "int16_t" ∨ type = "uint16_t" then some 2
  else if type = "int" ∨ type = "uint32_t" ∨ isFloat type then some 4
  else none

end TypesHelper

/-- How a field went to the lists. -/
inductive Added where
  | both (cf : ConfigField)
  | iterate (cf : ConfigField)
  | directive (cf : ConfigField)
  deriving DecidableEq, Repr

/-- The previous field and the names so far are those of `cFields`. -/
structure ConfigStructure where
  name : String
  withPrefix : Bool
  cFields : List ConfigField := []
  tsFields : List ConfigField := []
  totalSize : Nat := 0
  readingBitState : Nat := 0
  /-- What was added, in order. The source keeps the two lists only, and nothing here reads it. -/
  declared : List Added := []
  deriving DecidableEq, Repr

/-- The maps have the latest entry first. -/
structure ReaderState where
  stack : List ConfigStructure := []
  tsCustomSize : List (String × Nat) := []
  structures : List ConfigStructure := []
  deriving DecidableEq, Repr

namespace ReaderState

def getStructure (st : ReaderState) (type : String) : Option ConfigStructure :=
  st.structures.find? (·.name = type)

/-- An unknown type throws. -/
def getElementSize (st : ReaderState) (cf : ConfigField) : Option Nat :=
  if cf.name = "" then some 0 else
  match st.getStructure cf.type, st.tsCustomSize.lookup cf.type with
  | some s, _ => some s.totalSize
  | none, some customSize => some customSize
  | none, none => TypesHelper.getPrimitiveSize cf.type

def getSize (st : ReaderState) (cf : ConfigField) (next : Option ConfigField) : Option Nat :=
  if cf.isBit then some (if next.any ConfigField.isBit then 0 else 4)
  else (st.getElementSize cf).map fun size => cf.arraySizes.foldl (· * ·) size

end ReaderState

/-! Iterators -/

namespace FieldIterator

def next (rest : List ConfigField) : Option ConfigField := rest.find? fun cf => !cf.isDirective

/-- There are 32 bits in a row at most. -/
def incrementBitIndex (bitIndex : Nat) (cf : ConfigField) : Option Nat :=
  if cf.isBit then if bitIndex = 32 then none else some (bitIndex + 1) else some 0

/-- `visit` has the field, the next one that is no directive, the bit index and the position. -/
def loop {α : Type} (visit : ConfigField → Option ConfigField → Nat → Nat → Option (List α × Nat)) :
    Nat → Nat → List ConfigField → Option (List α × Nat)
  | _, position, [] => some ([], position)
  | bitIndex, position, cf :: rest => do
    let (out, position) ← visit cf (next rest) bitIndex position
    let bitIndex ← incrementBitIndex bitIndex cf
    let (more, position) ← loop visit bitIndex position rest
    some (out ++ more, position)

end FieldIterator

/-- A field under a `FieldIteratorWithOffset`. -/
structure PlacedField where
  cf : ConfigField
  elementSize : Option Nat
  currentOffset : Nat
  bitIndex : Nat
  deriving DecidableEq, Repr

def ReaderState.placeField (st : ReaderState) (cf : ConfigField) (next : Option ConfigField)
    (bitIndex currentOffset : Nat) : Option (List PlacedField × Nat) := do
  let size ← st.getSize cf next
  some ([⟨cf, st.getElementSize cf, currentOffset, bitIndex⟩], currentOffset + size)

/-- With the offset at the end. -/
def ReaderState.placeFields (st : ReaderState) (cFields : List ConfigField) :
    Option (List PlacedField × Nat) :=
  FieldIterator.loop st.placeField 0 0 cFields

/-! Structures -/

namespace ConfigStructure

/-- That of no field is empty. -/
def cPrevName (s : ConfigStructure) : String := (s.cFields.getLast?.map ConfigField.name).getD ""

def addC (s : ConfigStructure) (cf : ConfigField) : Option ConfigStructure :=
  if cf.name = s.cPrevName then some s
  else if cf.name ∈ s.cFields.map ConfigField.name then none
  else some { s with cFields := s.cFields ++ [cf] }

def addTs (s : ConfigStructure) (fields : List ConfigField) : ConfigStructure :=
  { s with tsFields := s.tsFields ++ fields }

def log (s : ConfigStructure) (added : Added) : ConfigStructure :=
  { s with declared := s.declared ++ [added] }

def addBoth (s : ConfigStructure) (cf : ConfigField) : Option ConfigStructure :=
  (s.addC cf).map fun s => (s.addTs [cf]).log (.both cf)

def alignmentFill (totalSize fillSize : Nat) : ConfigField where
  name := "alignmentFill_at_" ++ toString totalSize
  type := "uint8_t"
  arraySizes := if fillSize = 1 then [] else [fillSize]

def fillSize (totalSize alignment : Nat) : Nat :=
  if totalSize % alignment = 0 then 0 else alignment - totalSize % alignment

def addAlignmentFill (s : ConfigStructure) (st : ReaderState) (alignment : Nat) :
    Option ConfigStructure :=
  if alignment = 0 then some s else do
    let (_, totalSize) ← st.placeFields s.cFields
    let fillSize := fillSize totalSize alignment
    if fillSize > 3 then none else
    (if fillSize = 0 then some s else s.addBoth (alignmentFill totalSize fillSize)).map fun s =>
      { s with totalSize := totalSize + fillSize }

def addBitField (s : ConfigStructure) (bitField : ConfigField) : Option ConfigStructure := do
  let s ← s.addBoth bitField
  if s.readingBitState = 32 then none
  else some { s with readingBitState := s.readingBitState + 1 }

def unusedBit (sizeAtStartOfPadding bitIndex : Nat) : ConfigField where
  name := "unusedBit_" ++ toString sizeAtStartOfPadding ++ "_" ++ toString bitIndex
  type := "boolean"

def addBitPadding (s : ConfigStructure) : Option ConfigStructure :=
  if s.readingBitState = 0 then some s else do
    let padded ← (List.range' s.readingBitState (32 - s.readingBitState)).foldlM
      (fun r bitIndex => r.addBitField (unusedBit s.cFields.length bitIndex)) s
    some { padded with readingBitState := 0 }

end ConfigStructure

/-- The fields an array that is iterated has for the tuning software. -/
def ConfigField.elements (cf : ConfigField) (n : Nat) : List ConfigField :=
  (List.range n).map fun i => { name := cf.name ++ toString (i + 1), type := cf.type }

namespace ReaderState

/-- 0 is none. -/
def alignmentOf (st : ReaderState) (cf : ConfigField) : Nat :=
  match TypesHelper.getPrimitiveSize cf.type, st.getStructure cf.type, st.tsCustomSize.lookup cf.type with
  | some 4, _, _ => 4
  | some 2, _, _ => 2
  | _, some _, _ => 4
  | _, none, some customTypeSize => customTypeSize % 8
  | _, none, none => 0

def processField (st : ReaderState) (s : ConfigStructure) (cf : ConfigField) :
    Option ConfigStructure := do
  let s ← s.addAlignmentFill st (st.alignmentOf cf)
  if cf.isIterate then
    let s ← s.addC cf
    let n ← cf.arraySizes.head?
    some ((s.addTs (cf.elements n)).log (.iterate cf))
  else if cf.isDirective then some ((s.addTs [cf]).log (.directive cf))
  else s.addBoth cf

def handleBitLine (st : ReaderState) (s : ConfigStructure) (name : String) :
    Option ConfigStructure := do
  let s ← s.addAlignmentFill st 4
  s.addBitField { name, type := "boolean" }

/-- What becomes of the struct that is being read. -/
def peek (st : ReaderState) (change : ConfigStructure → Option ConfigStructure) : Option ReaderState :=
  match st.stack with
  | [] => none
  | s :: outer => (change s).map fun s => { st with stack := s :: outer }

/-- The struct that has ended, as well. -/
def handleEndStruct (st : ReaderState) : Option (ConfigStructure × ReaderState) :=
  match st.stack with
  | [] => none
  | s :: outer => do
    let s ← s.addBitPadding
    let s ← s.addAlignmentFill st 4
    some (s, { st with stack := outer, structures := s :: st.structures })

def directiveField : ConfigField where
  name := ""
  type := "directive"

/-- One round of the loop of `readBufferedReader`. -/
def readLine (st : ReaderState) : DefinitionLine → Option ReaderState
  | .struct name withPrefix => some { st with stack := { name, withPrefix } :: st.stack }
  | .endStruct => st.handleEndStruct.map Prod.snd
  | .bit name => st.peek fun s => st.handleBitLine s name
  | .custom name customSize _ => some { st with tsCustomSize := (name, customSize) :: st.tsCustomSize }
  | .field cf => st.peek fun s => do
    let s ← s.addBitPadding
    st.processField s cf
  | .directive => st.peek fun s => do
    let s ← s.addBitPadding
    st.processField s directiveField

end ReaderState

end FomeFw.Config
