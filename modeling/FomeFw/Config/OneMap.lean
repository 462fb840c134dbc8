import FomeFw.Config.MemoryMap
import FomeFw.Config.ReaderLists
import FomeFw.Lib.Machine

/-! One memory map: what it means that the tuning software has the offsets of the C header, and
where the two ways of counting are the same. -/
namespace FomeFw.Config

/-! What the header declares -/

/-- A member of the outermost struct, under the name it has for the tuning software. What fills up
and arrays without elements are `silent`. -/
structure HeaderMember where
  entry : TsEntry
  silent : Bool
  deriving DecidableEq, Repr

/-- Where a member of an element of a type is, when the element has a name and an offset. -/
abbrev ElementMembers := (type path name : String) → (offset : Nat) → List HeaderMember

def ConfigField.elementCount (cf : ConfigField) : Nat := cf.arraySizes.prod

/-- An iterated array has a name for each element, any other array of numbers is one member. -/
def PlacedField.members (f : PlacedField) (element : ElementMembers) (isStruct : Bool) (path : String)
    (base : Nat) : List HeaderMember :=
  let offset := base + f.currentOffset
  let stride := f.elementSize.getD 0
  if f.cf.isBit then
    [⟨⟨path ++ f.cf.name, offset, some f.bitIndex⟩, isAlignmentFill f.cf.name || isUnusedBit f.cf.name⟩]
  else if f.cf.isIterate then
    (List.range (f.cf.arraySizes.headD 0)).flatMap fun i =>
      element f.cf.type path (f.cf.name ++ toString (i + 1)) (offset + stride * i)
  else if isStruct then
    (List.range f.cf.elementCount).flatMap fun i =>
      element f.cf.type path f.cf.name (offset + stride * i)
  else
    [⟨⟨path ++ f.cf.name, offset, none⟩,
      isAlignmentFill f.cf.name || f.cf.arraySizes ≠ [] && stride * f.cf.elementCount = 0⟩]

def isStructOf (header : List HeaderStruct) (type : String) : Bool := header.any (·.name = type)

def fieldMembers (header : List HeaderStruct) (element : ElementMembers) (path : String) (base : Nat)
    (fields : List PlacedField) : List HeaderMember :=
  fields.flatMap fun f => f.members element (isStructOf header f.cf.type) path base

/-- A struct is one that was printed before. -/
def elementMembers : List HeaderStruct → ElementMembers
  | [], _, path, name, offset => [⟨⟨path ++ name, offset, none⟩, isAlignmentFill name⟩]
  | h :: earlier, type, path, name, offset =>
    if h.name = type then
      (fieldMembers earlier (elementMembers earlier) (if h.withPrefix then path ++ name ++ "_" else path)
        offset h.fields).map fun m => { m with silent := m.silent || isAlignmentFill name }
    else elementMembers earlier type path name offset

/-- What is written are members, and all members that are settings. -/
structure Shows (written : List TsEntry) (members : List HeaderMember) : Prop where
  right : ∀ e ∈ written, ∃ m ∈ members, m.entry = e
  all : ∀ m ∈ members, m.silent = false → m.entry ∈ written

/-- When no struct is being read any more, the outermost struct that was printed last is the one that
was written last, with the same offsets and the same size. -/
def Generator.OneMap (g : Generator) : Prop :=
  g.state.stack = [] → ∀ h earlier, g.header = h :: earlier → ∃ written size,
    g.tuning = some (written, size) ∧ size = h.size ∧
      Shows written (fieldMembers earlier (elementMembers earlier) "" 0 h.fields)

/-! Where it is one -/

def nextDeclared (declared : List Added) : Option Added :=
  declared.find? fun
    | .directive _ => false
    | _ => true

def nextTs (declared : List Added) : Option ConfigField :=
  FieldIterator.next (declared.flatMap Added.inTuning)

/-- The field is declared again. -/
def repeatedIn (cf : ConfigField) (later : List Added) : Bool :=
  match nextDeclared later with
  | some (.both again) => again.name = cf.name
  | _ => false

def startsWithBit : List Added → Bool
  | .both cf :: _ => cf.isBit
  | _ => false

namespace ReaderState

variable (st : ReaderState)

/-- The name of a number or of a custom type is compared with the one that follows. -/
def isPlain (cf : ConfigField) : Bool :=
  !isAlignmentFill cf.name && !cf.isBit && (st.getStructure cf.type).isNone

/-- What `TsOutput` takes for the size of a number or of a custom type. -/
def room (cf : ConfigField) : Option Nat :=
  if (st.tsCustomSize.lookup cf.type).isSome then st.getElementSize cf else st.getSize cf none

/-- `prev` is the field before, or the first of its name. -/
structure BothFits (prev : Option ConfigField) (cf : ConfigField) (later : List Added) : Prop where
  named : cf.name ≠ ""
  repeated : (prev.any (·.name = cf.name) || repeatedIn cf later) = true → st.isPlain cf = true
  bits : cf.isBit = true → st.getStructure cf.type = none ∧
    ((nextTs later).any ConfigField.isBit ||
      (FieldIterator.next (cFieldsOf cf.name later)).any ConfigField.isBit) = startsWithBit later
  one : (st.getStructure cf.type).isSome = true → isAlignmentFill cf.name = true ∨ cf.elementCount = 1
  known : cf.isBit = true ∨ (st.getSize cf none).isSome = true
  room : st.isPlain cf = true → repeatedIn cf later = false →
    st.room cf = st.getSize ((prev.filter (·.name = cf.name)).getD cf) none
  apart : st.isPlain cf = true → repeatedIn cf later = false →
    (nextTs later).any (·.name = cf.name) = false

structure IterateFits (prev : Option ConfigField) (cf : ConfigField) (later : List Added) : Prop where
  named : cf.name ≠ ""
  single : (prev.any (·.name = cf.name) || repeatedIn cf later) = false
  type : (cf.isBit || cf.isDirective) = false
  size : st.getSize cf none = (st.getElementSize cf).map (cf.arraySizes.headD 0 * ·)
  apart : (st.getStructure cf.type).isNone = true →
    (nextTs later).any (·.name = cf.name ++ toString (cf.arraySizes.headD 0)) = false

variable {st} {prev : Option ConfigField} {cf : ConfigField} {later : List Added}

instance : Decidable (st.BothFits prev cf later) :=
  decidable_of_iff (_ ∧ _ ∧ _ ∧ _ ∧ _ ∧ _ ∧ _)
    ⟨fun ⟨named, repeated, bits, one, known, room, apart⟩ =>
      ⟨named, repeated, bits, one, known, room, apart⟩,
    fun ⟨named, repeated, bits, one, known, room, apart⟩ =>
      ⟨named, repeated, bits, one, known, room, apart⟩⟩

instance : Decidable (st.IterateFits prev cf later) :=
  decidable_of_iff (_ ∧ _ ∧ _ ∧ _ ∧ _)
    ⟨fun ⟨named, single, type, size, apart⟩ => ⟨named, single, type, size, apart⟩,
    fun ⟨named, single, type, size, apart⟩ => ⟨named, single, type, size, apart⟩⟩

/-- Each field is counted the same in both lists. -/
def Fits (st : ReaderState) : (prev : Option ConfigField) → List Added → Prop
  | _, [] => True
  | prev, .both cf :: later => st.BothFits prev cf later ∧
    Fits st (some ((prev.filter (·.name = cf.name)).getD cf)) later
  | prev, .iterate cf :: later => st.IterateFits prev cf later ∧ Fits st (some cf) later
  | prev, .directive cf :: later =>
    (cf.hasComment = true ∧ isAlignmentFill cf.name = false) ∧ Fits st prev later

instance Fits.decidable : (prev : Option ConfigField) → (declared : List Added) →
    Decidable (Fits st prev declared)
  | _, [] => isTrue trivial
  | prev, .both cf :: later =>
    have : Decidable (st.Fits (some ((prev.filter (·.name = cf.name)).getD cf)) later) :=
      Fits.decidable _ later
    inferInstanceAs (Decidable (st.BothFits prev cf later ∧ _))
  | _, .iterate cf :: later =>
    have := Fits.decidable (some cf) later
    inferInstanceAs (Decidable (_ ∧ _))
  | prev, .directive _ :: later =>
    have := Fits.decidable prev later
    inferInstanceAs (Decidable (_ ∧ _))

end ReaderState

def ConfigStructure.uses (s : ConfigStructure) (type : String) : Bool :=
  s.declared.any (·.field.type = type)

namespace Generator

/-- The fields of the struct are counted the same, its name is not that of a type in use, and what
fills it up is of bytes. -/
structure EndsEven (s : ConfigStructure) (st : ReaderState) : Prop where
  fits : st.Fits none s.declared
  fresh : ∀ r ∈ st.structures, r.uses s.name = false
  bytes : (s.declared.getLast?.all fun a =>
    !isAlignmentFill a.field.name || a.field.type ≠ "uint8_t" ||
      st.getElementSize a.field = some 1) = true

instance (s : ConfigStructure) (st : ReaderState) : Decidable (EndsEven s st) :=
  decidable_of_iff (_ ∧ _ ∧ _)
    ⟨fun ⟨fits, fresh, bytes⟩ => ⟨fits, fresh, bytes⟩, fun ⟨fits, fresh, bytes⟩ => ⟨fits, fresh, bytes⟩⟩

/-- A line does not give a type that a finished struct uses another size, and a struct that ends is
even. -/
def Even (g : Generator) : DefinitionLine → Prop
  | .custom name customSize _ => ∀ s ∈ g.state.structures, s.uses name = true →
    (g.state.getStructure name).isSome = true ∨ g.state.tsCustomSize.lookup name = some customSize
  | .endStruct => ∀ ended ∈ g.state.handleEndStruct, EndsEven ended.1 ended.2
  | _ => True

instance (g : Generator) : (line : DefinitionLine) → Decidable (g.Even line)
  | .custom name customSize _ => inferInstanceAs (Decidable (∀ s ∈ g.state.structures,
      s.uses name = true → (g.state.getStructure name).isSome = true ∨
        g.state.tsCustomSize.lookup name = some customSize))
  | .endStruct =>
    inferInstanceAs (Decidable (∀ ended ∈ g.state.handleEndStruct, EndsEven ended.1 ended.2))
  | .struct .. | .bit .. | .field .. | .directive => isTrue trivial

end Generator

end FomeFw.Config
