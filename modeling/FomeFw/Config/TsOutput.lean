import FomeFw.Config.ReaderState

/-! The two consumers of what the reader has read: `BaseCHeaderConsumer` prints a C struct with the
offsets of its fields, `TsOutput` the description of the outermost struct for the tuning
software. -/
namespace FomeFw.Config

/-! The C header -/

/-- A struct as it is printed, with the size in its `static_assert`. The prefix is not printed. -/
structure HeaderStruct where
  name : String
  withPrefix : Bool
  fields : List PlacedField
  size : Nat
  deriving DecidableEq, Repr

namespace BaseCHeaderConsumer

def handleEndStruct (st : ReaderState) (s : ConfigStructure) : Option HeaderStruct :=
  (st.placeFields s.cFields).map fun (fields, size) =>
    { name := s.name, withPrefix := s.withPrefix, fields, size }

end BaseCHeaderConsumer

/-! The tuning software -/

def isAlignmentFill (name : String) : Bool := "alignmentFill_at_".toList.isPrefixOf name.toList

def isUnusedBit (name : String) : Bool := "unusedBit_".toList.isPrefixOf name.toList

/-- A line of the `[Constants]`, without its type, units and values. -/
structure TsEntry where
  name : String
  offset : Nat
  bitIndex : Option Nat := none
  deriving DecidableEq, Repr

namespace TsOutput

/-- `nested` writes the fields of a struct. That a name is used twice does not matter in this
section. -/
def writeOneField (st : ReaderState)
    (nested : List ConfigField → String → Nat → Option (List TsEntry × Nat)) (path : String)
    (cf : ConfigField) (next : Option ConfigField) (bitIndex tsPosition : Nat) :
    Option (List TsEntry × Nat) :=
  let nameWithPrefix := path ++ cf.name
  let sameNext := next.any (·.name = cf.name)
  if isAlignmentFill cf.name then do
    let size ← st.getSize cf next
    some ([], tsPosition + size)
  else if cf.isDirective && cf.hasComment then some ([], tsPosition)
  else match st.getStructure cf.type with
  | some cs => nested cs.tsFields (if cs.withPrefix then path ++ cf.name ++ "_" else path) tsPosition
  | none =>
  if cf.isBit then do
    let size ← st.getSize cf next
    some (if isUnusedBit cf.name then [] else [⟨nameWithPrefix, tsPosition, some bitIndex⟩], tsPosition + size)
  else match st.tsCustomSize.lookup cf.type with
  | some customSize =>
    some ([⟨nameWithPrefix, tsPosition, none⟩], if sameNext then tsPosition else tsPosition + customSize)
  | none =>
  if cf.arraySizes = [] then
    if sameNext then some ([⟨nameWithPrefix, tsPosition, none⟩], tsPosition)
    else do
      let size ← st.getSize cf next
      some ([⟨nameWithPrefix, tsPosition, none⟩], tsPosition + size)
  else do
    let size ← st.getSize cf next
    if size = 0 then some ([], tsPosition)
    else some ([⟨nameWithPrefix, tsPosition, none⟩], if sameNext then tsPosition else tsPosition + size)

/-- `depth` bounds how deep structs are nested. -/
def writeFields (st : ReaderState) : (depth : Nat) → List ConfigField → String → Nat →
    Option (List TsEntry × Nat)
  | 0 => fun _ _ _ => none
  | depth + 1 => fun tsFields path tsPosition =>
    FieldIterator.loop (writeOneField st (writeFields st depth) path) 0 tsPosition tsFields

/-- Where structs are nested deeper than there are structs, one is inside itself, and the stack of
the program overflows. -/
def run (st : ReaderState) (s : ConfigStructure) : Option (List TsEntry × Nat) :=
  writeFields st (st.structures.length + 1) s.tsFields "" 0

end TsOutput

/-! Both -/

/-- The header has the latest struct first; `tuning` is what was last written for the outermost
struct. -/
structure Generator where
  state : ReaderState := {}
  header : List HeaderStruct := []
  tuning : Option (List TsEntry × Nat) := none
  deriving DecidableEq, Repr

namespace Generator

/-- `TSProjectConsumer` writes when no struct is being read any more. -/
def handleEndStruct (g : Generator) : Option Generator := do
  let (s, state) ← g.state.handleEndStruct
  let printed ← BaseCHeaderConsumer.handleEndStruct state s
  let header := printed :: g.header
  if state.stack = [] then do
    let tuning ← TsOutput.run state s
    some { state, header, tuning := some tuning }
  else some { g with state, header }

def readLine (g : Generator) : DefinitionLine → Option Generator
  | .endStruct => g.handleEndStruct
  | line => (g.state.readLine line).map fun state => { g with state }

end Generator

end FomeFw.Config
