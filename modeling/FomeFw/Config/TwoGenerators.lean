import FomeFw.Config.LayoutElements
import FomeFw.Config.ParseState
import FomeFw.Config.TsOutput
import FomeFw.Lib.Machine

/-! The two generators side by side: what it means that they have one layout, and which lines they
take the same way. -/
namespace FomeFw.Config

/-! Offsets -/

/-- A field in its struct. -/
structure FieldOffset where
  name : String
  offset : Nat
  bitIndex : Option Nat := none
  deriving DecidableEq, Repr

def isFiller (name : String) : Bool := isAlignmentFill name || isUnusedBit name

/-- Of the generator in production; what fills up is left out. -/
def PlacedField.fieldOffset (f : PlacedField) : Option FieldOffset :=
  if isFiller f.cf.name then none
  else some ⟨f.cf.name, f.currentOffset, if f.cf.isBit then some f.bitIndex else none⟩

def Layout.fieldName : Layout → String
  | .scalar _ field => field.name
  | .enum _ field => field.name
  | .string _ field => field.name
  | .struct _ _ name _ _ _ => name
  | .array _ _ prototypeLayout _ => prototypeLayout.fieldName
  | .unused .. | .bitGroup .. | .union .. => ""

/-- Of the new generator. -/
def Layout.fieldOffsets : Layout → List FieldOffset
  | .unused .. => []
  | .bitGroup p bits => bits.mapIdx fun i bit => ⟨bit.name, p.offsetWithinStruct, some i⟩
  | l => [⟨l.fieldName, l.place.offsetWithinStruct, none⟩]

/-- The sizes are the same, and the offsets of all fields, where the new generator has a layout. -/
structure SameLayout (st : ReaderState) (s : ConfigStructure) (t : Struct) : Prop where
  name : s.name = t.name
  placed : ∃ fields, st.placeFields s.cFields = some (fields, s.totalSize) ∧
    ∀ sl, structLayout 0 "root" t = some sl → sl.getSize = s.totalSize ∧
      sl.children.flatMap Layout.fieldOffsets = fields.filterMap PlacedField.fieldOffset

/-- Both generators, which read the same lines. -/
structure Generators where
  old : ReaderState := {}
  new : ParseState := {}

namespace Generators

/-- A line that both accept. -/
def readLine (g : Generators) (line : DefinitionLine) : Option Generators := do
  let old ← g.old.readLine line
  let new ← g.new.readLine line
  some { old, new }

/-- At its end a struct has one layout. -/
def EndsAlike (g : Generators) (line : DefinitionLine) : Prop :=
  line = .endStruct → ∀ g', g.readLine line = some g' →
    ∃ s earlier t earlier', g'.old.structures = s :: earlier ∧ g'.new.structs = t :: earlier' ∧
      SameLayout g'.old s t

/-- In all of a file every struct has one layout. -/
def OneLayout (lines : List DefinitionLine) : Prop :=
  Machine.Supervised readLine EndsAlike {} lines

end Generators

/-! Lines that both take the same way -/

/-- Of one value. -/
def Typedef.size : Typedef → Nat
  | .scalar type => type.size
  | .enum type _ _ => type.size
  | .string size => size

/-- A type that the reader does not know by itself. -/
def Ordinary (type : String) : Prop :=
  TypesHelper.getPrimitiveSize type = none ∧ equalsIgnoreCase "boolean" type = false ∧
    equalsIgnoreCase "directive" type = false

instance : DecidablePred Ordinary := fun _ => inferInstanceAs (Decidable (_ ∧ _))

def ConfigStructure.hasFieldOf (s : ConfigStructure) (type : String) : Bool :=
  s.cFields.any (·.type = type)

/-- Of the strings of a type. -/
def ParseState.stringSize (ps : ParseState) (type : String) : Option Nat :=
  match ps.structs.find? (·.name = type), ps.typedefs.lookup type with
  | none, some (.string size) => some size
  | _, _ => none

namespace Generators

/-- Not the name of the field before, which would hide it, nor one for what fills up. -/
def OwnName (g : Generators) (name : String) : Prop :=
  name ≠ "" ∧ isFiller name = false ∧ ∀ s ∈ g.old.stack.head?, name ≠ s.cPrevName

/-- No field of an open struct is of the type, or its size stays what it is. -/
def KeepsSize (st : ReaderState) (type : String) (size : Nat) : Prop :=
  ∀ s ∈ st.stack, s.hasFieldOf type = true →
    (st.getStructure type).isSome = true ∨ st.tsCustomSize.lookup type = some size

/-- A string starts at a multiple of what its size leaves over modulo 8. -/
def StringFits (g : Generators) (type : String) : Prop :=
  ∀ size ∈ g.new.stringSize type, ∀ s ∈ g.old.stack.head?, ∀ padded ∈ s.addBitPadding,
    ∀ placed ∈ g.old.placeFields padded.cFields, size % 8 = 0 ∨ size % 8 ∣ placed.2

/-- A field has a name of its own and strings fit in; a type has a new name, or no other size for
fields in use, and declares the size of its values. -/
def Alike (g : Generators) : DefinitionLine → Prop
  | .struct .. | .directive => True
  | .endStruct => ∀ ended ∈ g.old.handleEndStruct, Ordinary ended.1.name ∧
      ∀ s ∈ ended.1 :: ended.2.stack, s.hasFieldOf ended.1.name = false
  | .bit name => g.OwnName name
  | .custom name customSize tunerStudioLine => Ordinary name ∧ KeepsSize g.old name customSize ∧
      ∀ typedef ∈ tunerStudioLine.typedef, typedef.size = customSize
  | .field cf => g.OwnName cf.name ∧ g.StringFits cf.type

instance Alike.decidable (g : Generators) : (line : DefinitionLine) → Decidable (g.Alike line)
  | .struct .. | .directive => isTrue trivial
  | .endStruct => inferInstanceAs (Decidable (∀ ended ∈ g.old.handleEndStruct, Ordinary ended.1.name ∧
      ∀ s ∈ ended.1 :: ended.2.stack, s.hasFieldOf ended.1.name = false))
  | .bit name => inferInstanceAs (Decidable (_ ∧ _ ∧ ∀ s ∈ g.old.stack.head?, name ≠ s.cPrevName))
  | .custom name customSize tunerStudioLine =>
    have : Decidable (KeepsSize g.old name customSize) := inferInstanceAs (Decidable
      (∀ s ∈ g.old.stack, s.hasFieldOf name = true →
        (g.old.getStructure name).isSome = true ∨ g.old.tsCustomSize.lookup name = some customSize))
    inferInstanceAs (Decidable (Ordinary name ∧ KeepsSize g.old name customSize ∧
      ∀ typedef ∈ tunerStudioLine.typedef, typedef.size = customSize))
  | .field cf =>
    have : Decidable (g.OwnName cf.name) :=
      inferInstanceAs (Decidable (_ ∧ _ ∧ ∀ s ∈ g.old.stack.head?, cf.name ≠ s.cPrevName))
    have : Decidable (g.StringFits cf.type) := inferInstanceAs (Decidable
      (∀ size ∈ g.new.stringSize cf.type, ∀ s ∈ g.old.stack.head?, ∀ padded ∈ s.addBitPadding,
        ∀ placed ∈ g.old.placeFields padded.cFields, size % 8 = 0 ∨ size % 8 ∣ placed.2))
    inferInstanceAs (Decidable (g.OwnName cf.name ∧ g.StringFits cf.type))

end Generators

end FomeFw.Config
