import FomeFw.Lib.NaturalAlignment

/-! The new configuration generator, `newparse`: the parsed structs and the layout it gives to
each of them, `StructLayout` and the other layouts. What the parser refuses is not among the
parsed structs; what a layout refuses has none. -/
namespace FomeFw.Config

/-! Parsed definitions -/

/-- `Type`. -/
inductive ScalarType where
  | U08 | S08 | U16 | S16 | U32 | S32 | F32 | ANGLE_T | I32
  deriving DecidableEq, Repr

namespace ScalarType

def cType : ScalarType → String
  | U08 => "uint8_t"
  | S08 => "int8_t"
  | U16 => "uint16_t"
  | S16 => "int16_t"
  | U32 => "uint32_t"
  | S32 => "int32_t"
  | F32 => "float"
  | ANGLE_T => "angle_t"
  | I32 => "int"

def tsType : ScalarType → String
  | U08 => "U08"
  | S08 => "S08"
  | U16 => "U16"
  | S16 => "S16"
  | U32 => "U32"
  | S32 => "S32"
  | F32 => "F32"
  | ANGLE_T => "F32"
  | I32 => "S32"

def size : ScalarType → Nat
  | U08 | S08 => 1
  | U16 | S16 => 2
  | U32 | S32 | F32 | ANGLE_T | I32 => 4

end ScalarType

/-- How it is scaled and described is left out. -/
structure ScalarField where
  type : ScalarType
  name : String
  deriving DecidableEq, Repr

structure EnumField where
  type : ScalarType
  enumType : String
  name : String
  endBit : Nat
  values : List String
  deriving DecidableEq, Repr

structure StringField where
  name : String
  size : Nat
  deriving DecidableEq, Repr

structure BitField where
  name : String
  trueValue : String := "\"true\""
  falseValue : String := "\"false\""
  deriving DecidableEq, Repr

/-- A `StructField` carries its struct. Arrays have one or two dimensions, and one when they are
iterated. -/
inductive Field where
  | scalar (field : ScalarField)
  | enum (field : EnumField)
  | string (field : StringField)
  | struct (name structName : String) (noPrefix : Bool) (fields : List Field)
  | array (prototype : Field) (length : Nat × Option Nat)
  | arrayIterate (prototype : Field) (length : Nat)
  | bitGroup (bitFields : List BitField)
  | union (fields : List Field)
  | unused (size : Nat)

structure Struct where
  name : String
  noPrefix : Bool := false
  fields : List Field

/-! Layouts -/

/-- Both are -1 in the source until they are set, before anything reads them. -/
structure Place where
  offset : Nat := 0
  offsetWithinStruct : Nat := 0
  deriving DecidableEq, Repr

/-- A member of a union: a `ScalarLayout`, or an `ArrayLayout` of one. -/
structure UnionMember where
  place : Place := {}
  field : ScalarField
  length : List Nat := []
  deriving DecidableEq, Repr

inductive ArrayKind where
  | plain | iterateScalar | iterateStruct
  deriving DecidableEq, Repr

inductive Layout where
  | scalar (place : Place) (field : ScalarField)
  | enum (place : Place) (field : EnumField)
  | string (place : Place) (field : StringField)
  | unused (place : Place) (size : Nat)
  | bitGroup (place : Place) (bits : List BitField)
  | union (place : Place) (children : List UnionMember)
  | array (kind : ArrayKind) (place : Place) (prototypeLayout : Layout) (length : List Nat)
  | struct (place : Place) (typeName name : String) (noPrefix : Bool) (size : Nat)
    (children : List Layout)

def UnionMember.getSize (m : UnionMember) : Nat := m.length.foldl (· * ·) m.field.type.size

namespace Layout

def place : Layout → Place
  | scalar p _ | enum p _ | string p _ | unused p _ | bitGroup p _ | union p _ | array _ p _ _
  | struct p _ _ _ _ _ => p

def getSize : Layout → Nat
  | scalar _ field => field.type.size
  | enum _ field => field.type.size
  | string _ field => field.size
  | unused _ size => size
  | bitGroup _ _ => 4
  | union _ children => (children.map UnionMember.getSize).foldr max 0
  | array _ _ prototypeLayout length => length.foldl (· * ·) prototypeLayout.getSize
  | struct _ _ _ _ size _ => size

/-- By default the size. -/
def getAlignment : Layout → Nat
  | scalar _ field => field.type.size
  | enum _ field => field.type.size
  | string _ _ => 1
  | unused _ _ => 1
  | bitGroup _ _ => 4
  | union _ children => (children.map fun m => m.field.type.size).foldr max 0
  | array _ _ prototypeLayout _ => prototypeLayout.getAlignment
  | struct _ _ _ _ _ _ => 4

/-- Unions and arrays pass it on, structs do not. -/
def mapPlace (f : Place → Place) : Layout → Layout
  | scalar p field => scalar (f p) field
  | enum p field => enum (f p) field
  | string p field => string (f p) field
  | unused p size => unused (f p) size
  | bitGroup p bits => bitGroup (f p) bits
  | union p children => union (f p) (children.map fun m => { m with place := f m.place })
  | array kind p prototypeLayout length => array kind (f p) (prototypeLayout.mapPlace f) length
  | struct p typeName name noPrefix size children => struct (f p) typeName name noPrefix size children

def setOffset (l : Layout) (offset : Nat) : Layout := l.mapPlace ({ · with offset })

def setOffsetWithinStruct (l : Layout) (offsetWithinStruct : Nat) : Layout :=
  l.mapPlace ({ · with offsetWithinStruct })

end Layout

/-- A struct in the making: the next offset, and the children so far. -/
structure Draft where
  offset : Nat
  children : List Layout := []

def getAlignedOffset (offset alignment : Nat) : Nat :=
  if offset % alignment ≠ 0 then offset + alignment - offset % alignment else offset

/-- `base` is the offset of the struct. -/
def Draft.padOffsetWithUnused (base : Nat) (d : Draft) (align : Nat) : Draft :=
  let alignedOffset := getAlignedOffset d.offset align
  let needsUnused := alignedOffset - d.offset
  if needsUnused > 0 then
    { offset := alignedOffset
      children := d.children ++ [.unused ⟨d.offset, d.offset - base⟩ needsUnused] }
  else d

def Draft.addItem (base : Nat) (d : Draft) (l : Layout) : Draft :=
  let d := d.padOffsetWithUnused base l.getAlignment
  { offset := d.offset + l.getSize
    children := d.children ++ [(l.setOffset d.offset).setOffsetWithinStruct (d.offset - base)] }

/-- The end of the constructor of `StructLayout`. -/
def Draft.close (base : Nat) (offsetWithinStruct : Nat) (structName name : String) (noPrefix : Bool)
    (d : Draft) : Layout :=
  let d := d.padOffsetWithUnused base 4
  .struct ⟨base, offsetWithinStruct⟩ structName name noPrefix (d.offset - base) d.children

/-- Other members are refused. -/
def unionMember : Field → Option UnionMember
  | .scalar field => some { field }
  | .array (.scalar field) (d, rest) => some { field, length := d :: rest.toList }
  | .arrayIterate (.scalar field) d => some { field, length := [d] }
  | _ => none

/-- `UnionLayout`; an empty union has no size. -/
def unionLayout (fields : List Field) : Option Layout := do
  let children ← fields.mapM unionMember
  if children = [] then none else some (.union {} children)

def bitGroupLayout (bitFields : List BitField) : Option Layout :=
  if bitFields.length > 32 then none else some (.bitGroup {} bitFields)

mutual

/-- The layout of an array's element, a struct's at offset 0. -/
def prototypeLayout : Field → Option Layout
  | .scalar field => some (.scalar {} field)
  | .enum field => some (.enum {} field)
  | .string field => some (.string {} field)
  | .struct name structName noPrefix fields => do
    let d ← addFields 0 { offset := 0 } fields
    some (d.close 0 0 structName name noPrefix)
  | _ => none

/-- One round of the loop in the constructor of `StructLayout`. -/
def addField (base : Nat) (d : Draft) : Field → Option Draft
  | .scalar field => some (d.addItem base (.scalar {} field))
  | .enum field => some (d.addItem base (.enum {} field))
  | .string field => some (d.addItem base (.string {} field))
  | .unused size => some (d.addItem base (.unused {} size))
  | .bitGroup bitFields => (bitGroupLayout bitFields).map (d.addItem base)
  | .union fields => (unionLayout fields).map (d.addItem base)
  | .struct name structName noPrefix fields => do
    let d := d.padOffsetWithUnused base 4
    let inner ← addFields d.offset { offset := d.offset } fields
    let sl := inner.close d.offset (d.offset - base) structName name noPrefix
    some { offset := d.offset + sl.getSize, children := d.children ++ [sl] }
  | .array (.scalar field) (n, rest) =>
    some (d.addItem base (.array .plain {} (.scalar {} field) (n :: rest.toList)))
  | .array _ _ => none
  | .arrayIterate prototype length => do
    let kind := match prototype with
      | .struct .. => .iterateStruct
      | _ => .iterateScalar
    let l ← prototypeLayout prototype
    some (d.addItem base (.array kind {} l [length]))

def addFields (base : Nat) (d : Draft) : List Field → Option Draft
  | [] => some d
  | f :: fields => do
    let d ← addField base d f
    addFields base d fields

end

/-- `new StructLayout(offset, name, parsedStruct)`. -/
def structLayout (offset : Nat) (name : String) (s : Struct) : Option Layout :=
  (addFields offset { offset } s.fields).map (·.close offset 0 s.name name s.noPrefix)

end FomeFw.Config
