import FomeFw.Config.MemoryMap
import Mathlib.Data.List.Forall2

/-! The memory as `TsLayoutVisitor` describes it to the tuning software. -/
namespace FomeFw.Config

/-! What is printed -/

/-- A line, without what the options and the comment of a field add to it. -/
inductive TsLine where
  | scalar (name tsType : String) (offset : Nat)
  | array (name tsType : String) (offset : Nat) (dims : List Nat)
  | bits (name tsType : String) (offset first last : Nat) (values : List String)
  | string (name : String) (offset size : Nat)
  /-- This one is a comment. -/
  | unused (size offset : Nat)
  deriving DecidableEq, Repr

/-- The prefix character is `_`, and an index that is not set is -1 in the source. -/
structure StructNamePrefixer where
  stack : List String := []
  idx : Option Nat := none

namespace StructNamePrefixer

def index (p : StructNamePrefixer) : String := p.idx.elim "" toString

def pop (p : StructNamePrefixer) : StructNamePrefixer := { p with stack := p.stack.dropLast }

def push (p : StructNamePrefixer) (name : String) : StructNamePrefixer :=
  { stack := p.stack ++ [name ++ p.index ++ "_"], idx := none }

def setIndex (p : StructNamePrefixer) (idx : Nat) : StructNamePrefixer := { p with idx := some (idx + 1) }

def clearIndex (p : StructNamePrefixer) : StructNamePrefixer := { p with idx := none }

def get (p : StructNamePrefixer) (name : String) : String :=
  if name = "" then name else String.join p.stack ++ name ++ p.index

end StructNamePrefixer

/-- An exception leaves no output. -/
abbrev Printer := StructNamePrefixer → Option (List TsLine × StructNamePrefixer)

namespace Printer

def line (print : StructNamePrefixer → TsLine) : Printer := fun p => some ([print p], p)

def andThen (first second : Printer) : Printer := fun p => do
  let (lines, p) ← first p
  let (more, p) ← second p
  some (lines ++ more, p)

def forEach {α : Type} (l : List α) (print : α → Printer) : Printer :=
  l.foldr (fun a rest => (print a).andThen rest) fun p => some ([], p)

/-- With a 1-based index on the end of the name. -/
def indexed (i : Nat) (print : Printer) : Printer := fun p =>
  (print (p.setIndex i)).map fun (lines, p) => (lines, p.clearIndex)

def prefixed (name : String) (print : Printer) : Printer := fun p =>
  (print (p.push name)).map fun (lines, p) => (lines, p.pop)

end Printer

def ScalarField.visit (field : ScalarField) (offset : Nat) (arrayDims : List Nat) : Printer :=
  match arrayDims with
  | [] => .line fun p => .scalar (p.get field.name) field.type.tsType offset
  | 0 :: _ => fun p => some ([], p)
  | 1 :: _ => .line fun p => .scalar (p.get field.name) field.type.tsType offset
  | d :: dims => .line fun p =>
      .array (p.get field.name) field.type.tsType offset (d :: dims.filter (· ≠ 1))

/-- `values[0]` has to be there. -/
def EnumField.visit (field : EnumField) (offset : Nat) : Printer := fun p =>
  if field.values = [] then none
  else some ([.bits (p.get field.name) field.type.tsType offset 0 field.endBit field.values], p)

def StringField.visit (field : StringField) (offset : Nat) : Printer :=
  .line fun p => .string (p.get field.name) offset field.size

/-- Other layouts are not elements of an array that is not one of structs. -/
def Layout.visitElement (offsetAdd : Nat) (arrayDims : List Nat) : Layout → Printer
  | .scalar p field => field.visit (p.offset + offsetAdd) arrayDims
  | .enum p field => field.visit (p.offset + offsetAdd)
  | .string p field => field.visit (p.offset + offsetAdd)
  | _ => fun _ => none

mutual

/-- `TsLayoutVisitor.visit`. The prototype of an array is moved before it is visited, and nothing
else reads where it is. -/
def Layout.visit (offsetAdd : Nat) : Layout → Printer
  | .scalar p field => field.visit (p.offset + offsetAdd) []
  | .enum p field => field.visit (p.offset + offsetAdd)
  | .string p field => field.visit (p.offset + offsetAdd)
  | .unused p size => .line fun _ => .unused size (p.offset + offsetAdd)
  | .bitGroup p bits => .forEach bits.zipIdx fun (bit, i) => .line fun n =>
      .bits (n.get bit.name) "U32" (p.offset + offsetAdd) i i [bit.falseValue, bit.trueValue]
  | .union _ children => .forEach children fun m => m.field.visit (m.place.offset + offsetAdd) m.length
  | .array .plain _ prototypeLayout length => prototypeLayout.visitElement offsetAdd length
  | .array .iterateScalar p prototypeLayout length =>
    .forEach (List.range (length.headD 0)) fun i =>
      .indexed i ((prototypeLayout.setOffset
        (offsetAdd + p.offset + prototypeLayout.getSize * i)).visitElement 0 [])
  | .array .iterateStruct p prototypeLayout length =>
    .forEach (List.range (length.headD 0)) fun i =>
      .indexed i (prototypeLayout.visit (p.offset + offsetAdd + prototypeLayout.getSize * i))
  | .struct _ _ name noPrefix _ children =>
    if noPrefix then visitAll offsetAdd children else .prefixed name (visitAll offsetAdd children)

def visitAll (offsetAdd : Nat) : List Layout → Printer
  | [] => fun p => some ([], p)
  | l :: children => (l.visit offsetAdd).andThen (visitAll offsetAdd children)

end

/-- The lines for the last struct of a file. -/
def tsLines (sl : Layout) : Option (List TsLine) := (sl.visit 0 {}).map Prod.fst

/-! What the lines mean -/

inductive TsKind where
  | number (tsType : String) (dims : List Nat)
  | bits (tsType : String) (first last : Nat)
  | string (size : Nat)
  deriving DecidableEq, Repr

/-- In bits. -/
structure TsElement where
  name : String
  kind : TsKind
  start : Nat
  size : Nat
  deriving DecidableEq, Repr

def tsSizeof : String → Nat
  | "U08" | "S08" => 1
  | "U16" | "S16" => 2
  | _ => 4

/-- There are no bits behind those of the type. -/
def TsLine.elements : TsLine → List TsElement
  | .scalar name tsType offset => [⟨name, .number tsType [], 8 * offset, 8 * tsSizeof tsType⟩]
  | .array name tsType offset dims => (List.range dims.prod).map fun k =>
      ⟨name, .number tsType dims, 8 * (offset + tsSizeof tsType * k), 8 * tsSizeof tsType⟩
  | .bits name tsType offset first last _ =>
      [⟨name, .bits tsType first last, 8 * offset + first, min (last + 1) (8 * tsSizeof tsType) - first⟩]
  | .string name offset size => [⟨name, .string size, 8 * offset, 8 * size⟩]
  | .unused _ _ => []

/-! What they should say -/

def tsTypeOf : String → String
  | "uint8_t" => "U08"
  | "int8_t" => "S08"
  | "uint16_t" => "U16"
  | "int16_t" => "S16"
  | "uint32_t" => "U32"
  | "int" => "S32"
  | _ => "F32"

def ElementKind.isMember : ElementKind → Bool
  | .number _ _ | .overlaid _ _ | .enum _ _ | .string _ | .bit => true
  | .struct _ | .fill => false

def ElementKind.isOverlaid : ElementKind → Bool
  | .overlaid _ _ => true
  | _ => false

def CStruct.members (c : CStruct) : List CElement := c.elements.filter (·.kind.isMember)

/-- The dimensions behind the first are written where they are not one. -/
def tsDims : List Nat → List Nat
  | [] => []
  | d :: dims => d :: dims.filter (· ≠ 1)

def TsKind.Describes : TsKind → ElementKind → Prop
  | .number tsType dims, .number typeName length | .number tsType dims, .overlaid typeName length =>
    tsType = tsTypeOf typeName ∧ (dims = [] ∨ dims = tsDims length)
  | .bits tsType first _, .enum _ type => tsType = type.tsType ∧ first = 0
  | .bits tsType first last, .bit => tsType = "U32" ∧ first = last
  | .string size, .string size' => size = size'
  | _, _ => False

/-- The name may have a prefix and an index. -/
structure TsElement.Describes (t : TsElement) (e : CElement) : Prop where
  kind : t.kind.Describes e.kind
  address : t.start = e.address
  name : ∃ path index, t.name = path ++ e.name ++ index

/-- The element of a line and that of the struct. Only members of unions share memory. -/
def Apart (a b : TsElement × CElement) : Prop :=
  ¬(a.2.kind.isOverlaid ∧ b.2.kind.isOverlaid) → a.1.start + a.1.size ≤ b.1.start

def TsLine.name? : TsLine → Option String
  | .scalar name .. | .array name .. | .bits name .. | .string name .. => some name
  | .unused .. => none

def fullName (path index name : String) : String := if name = "" then name else path ++ name ++ index

mutual

/-- The names of the lines, by the structs they are in and the arrays that these are elements of. -/
def Layout.names (path index : String) : Layout → List String
  | .scalar _ field => [fullName path index field.name]
  | .enum _ field => [fullName path index field.name]
  | .string _ field => [fullName path index field.name]
  | .unused _ _ => []
  | .bitGroup _ bits => bits.map fun bit => fullName path index bit.name
  | .union _ children => children.flatMap fun m =>
      if m.length.head? = some 0 then [] else [fullName path index m.field.name]
  | .array .plain _ prototypeLayout length =>
    if length.head? = some 0 then [] else prototypeLayout.names path index
  | .array _ _ prototypeLayout length =>
    (List.range (length.headD 0)).flatMap fun i => prototypeLayout.names path (toString (i + 1))
  | .struct _ _ name noPrefix _ children =>
    namesOf (if noPrefix then path else path ++ (name ++ index ++ "_")) children

def namesOf (path : String) : List Layout → List String
  | [] => []
  | l :: children => l.names path "" ++ namesOf path children

end

mutual

/-- The elements of all arrays of structs have a prefix. -/
def Layout.Prefixed : Layout → Prop
  | .array .iterateStruct _ (.struct _ _ _ noPrefix _ children) _ =>
    noPrefix = false ∧ AllPrefixed children
  | .struct _ _ _ _ _ children => AllPrefixed children
  | _ => True

def AllPrefixed : List Layout → Prop
  | [] => True
  | l :: children => l.Prefixed ∧ AllPrefixed children

end

/-- The lines are about the members of the struct, each element once. -/
structure TsDescribes (sl : Layout) (lines : List TsLine) (c : CStruct) : Prop where
  elements : List.Forall₂ TsElement.Describes (lines.flatMap TsLine.elements) c.members
  apart : ((lines.flatMap TsLine.elements).zip c.members).Pairwise Apart
  names : sl.Prefixed → lines.filterMap TsLine.name? = sl.names "" ""

mutual

/-- Enums have a value, and an array with one row has one element, unless it is in an array
without elements. -/
def Field.Straight : Field → Prop
  | .enum field => field.values ≠ []
  | .struct _ _ _ fields => AllStraight fields
  | .array _ (rows, rest) => rows = 1 → rest.getD 1 = 1
  | .arrayIterate prototype length => length = 0 ∨ prototype.Straight
  | .union fields => AllStraight fields
  | _ => True

def AllStraight : List Field → Prop
  | [] => True
  | f :: fields => f.Straight ∧ AllStraight fields

end

end FomeFw.Config
