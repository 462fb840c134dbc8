import FomeFw.Config.StructLayout

/-! The header that `CStructsVisitor` writes, and the memory its structs get from the C++
compiler: natural alignment, counted in bits because of the bit-fields. -/
namespace FomeFw.Config
open NaturalAlignment

/-! What is printed -/

/-- A declaration in a struct: `type name[dims];`. -/
inductive CDecl where
  | number (typeName name : String) (dims : List Nat)
  /-- Its type is taken to be as large as the scalar it is declared as. -/
  | enum (enumType : String) (type : ScalarType) (name : String) (dims : List Nat)
  /-- `char name[dims][size];` -/
  | string (name : String) (dims : List Nat) (size : Nat)
  | struct (typeName name : String) (dims : List Nat)
  /-- `uint8_t alignmentFill_at_offset[size];` -/
  | fill (offset size : Nat)
  /-- `bool name : 1 {};` -/
  | bit (name : String)
  /-- `bool unusedBit_offset_i : 1 {};` -/
  | unusedBit (offset i : Nat)
  /-- An anonymous union of numbers and arrays of numbers. -/
  | union (members : List (String × String × List Nat))
  deriving DecidableEq, Repr

/-- What `visitRoot` prints for one struct. -/
structure CStructText where
  typeName : String
  decls : List CDecl
  sizeAssert : Nat
  offsetAsserts : List (String × Nat)

/-- `cType.replaceAll("^int32_t$", "int")`. -/
def cTypeName (type : ScalarType) : String := if type.cType = "int32_t" then "int" else type.cType

/-- One bit of a group. -/
def bitDecl (offset : Nat) (bits : List BitField) (i : Nat) : CDecl :=
  match bits[i]? with
  | some bit => .bit bit.name
  | none => .unusedBit offset i

/-- `CStructsVisitor.visit`. Arrays with more than one dimension are for numbers only. -/
def Layout.cDecls (arrayDims : List Nat) : Layout → Option (List CDecl)
  | .scalar _ field => some [.number (cTypeName field.type) field.name arrayDims]
  | .enum _ field =>
    if arrayDims.length > 1 then none
    else some [.enum field.enumType field.type field.name arrayDims]
  | .string _ field =>
    if arrayDims.length > 1 then none else some [.string field.name arrayDims field.size]
  | .unused p size => some [.fill p.offsetWithinStruct size]
  | .bitGroup p bits => some ((List.range 32).map (bitDecl p.offsetWithinStruct bits))
  | .union _ children =>
    some [.union (children.map fun m => (cTypeName m.field.type, m.field.name, m.length))]
  | .array _ _ prototypeLayout length => prototypeLayout.cDecls length
  | .struct _ typeName name _ _ _ =>
    if arrayDims.length > 1 then none else some [.struct typeName name arrayDims]

/-- `static_assert(offsetof(parent, name) == offset);` -/
def Layout.writeCOffsetCheck : Layout → List (String × Nat)
  | .scalar p field => [(field.name, p.offsetWithinStruct)]
  | .string p field => [(field.name, p.offsetWithinStruct)]
  | .array _ _ prototypeLayout _ => prototypeLayout.writeCOffsetCheck
  | _ => []

/-- An array is checked as its prototype. -/
@[simp] theorem Layout.writeCOffsetCheck_array (kind : ArrayKind) (p : Place) (prototypeLayout : Layout)
    (length : List Nat) : (Layout.array kind p prototypeLayout length).writeCOffsetCheck =
      prototypeLayout.writeCOffsetCheck := by
  rw [writeCOffsetCheck]

def visitRoot : Layout → Option CStructText
  | sl@(.struct _ typeName _ _ _ children) => do
    let decls ← children.mapM (Layout.cDecls [])
    some {
      typeName
      decls := decls.flatten
      sizeAssert := sl.getSize
      offsetAsserts := children.flatMap Layout.writeCOffsetCheck }
  | _ => none

/-! What the compiler makes of it -/

inductive ElementKind where
  | number (typeName : String) (dims : List Nat)
  /-- A number in a union. -/
  | overlaid (typeName : String) (dims : List Nat)
  | enum (enumType : String) (type : ScalarType)
  | string (size : Nat)
  | struct (typeName : String)
  | bit
  | fill
  deriving DecidableEq, Repr

/-- Something that has an address in a struct, in bits. Arrays have one for each element, which has
the dimensions of the array. -/
structure CElement where
  kind : ElementKind
  name : String
  address : Nat
  deriving DecidableEq, Repr

def CElement.shift (start : Nat) (e : CElement) : CElement := { e with address := start + e.address }

/-- A declaration in its place, in bits. -/
structure PlacedDecl where
  start : Nat
  size : Nat
  decl : CDecl
  deriving DecidableEq, Repr

/-- A struct as the compiler has it: a type for the structs that follow. -/
structure CStruct where
  size : Nat
  align : Nat
  placed : List PlacedDecl
  elements : List CElement

abbrev CTypes := List (String × CStruct)

def sizeofType : String → Option Nat
  | "uint8_t" | "int8_t" => some 1
  | "uint16_t" | "int16_t" => some 2
  | "uint32_t" | "int" | "float" | "angle_t" => some 4
  | _ => none

/-- A declaration of `count` units. -/
structure Measured where
  decl : CDecl
  align : Nat
  unit : Nat
  count : Nat := 1
  inner : Nat → List CElement

def Measured.size (m : Measured) : Nat := m.unit * m.count

def Measured.elements (m : Measured) (start : Nat) : List CElement :=
  (List.range m.count).flatMap fun k => m.inner (start + m.unit * k)

def measureNumber (kind : String → List Nat → ElementKind) (typeName name : String)
    (dims : List Nat) : Option Measured := do
  let size ← sizeofType typeName
  some {
    decl := .number typeName name dims
    align := 8 * size
    unit := 8 * size
    count := dims.prod
    inner := fun start => [⟨kind typeName dims, name, start⟩] }

def CDecl.measure (types : CTypes) : CDecl → Option Measured
  | .number typeName name dims => measureNumber .number typeName name dims
  | decl@(.enum enumType type name dims) => some {
      decl
      align := 8 * type.size
      unit := 8 * type.size
      count := dims.prod
      inner := fun start => [⟨.enum enumType type, name, start⟩] }
  | decl@(.string name dims size) => some {
      decl
      align := 8
      unit := 8 * size
      count := dims.prod
      inner := fun start => [⟨.string size, name, start⟩] }
  | decl@(.struct typeName name dims) => do
    let type ← types.lookup typeName
    some {
      decl
      align := 8 * type.align
      unit := 8 * type.size
      count := dims.prod
      inner := fun start =>
        ⟨.struct typeName, name, start⟩ :: type.elements.map (CElement.shift start) }
  | decl@(.fill _ size) => some {
      decl, align := 8, unit := 8 * size, inner := fun start => [⟨.fill, "", start⟩] }
  -- the container of a `bool` is a byte, which one bit never crosses
  | decl@(.bit name) => some {
      decl, align := 1, unit := 1, inner := fun start => [⟨.bit, name, start⟩] }
  | decl@(.unusedBit _ _) => some {
      decl, align := 1, unit := 1, inner := fun start => [⟨.fill, "", start⟩] }
  | decl@(.union members) => do
    let members ← members.mapM fun m => measureNumber .overlaid m.1 m.2.1 m.2.2
    let align := (members.map Measured.align).foldr max 8
    some {
      decl
      align
      unit := roundUp align ((members.map Measured.size).foldr max 0)
      inner := fun start => members.flatMap (Measured.elements · start) }

/-- A struct without members still has a size. -/
def structOf (members : List Measured) : CStruct :=
  let align := (members.map Measured.align).foldr max 8
  let placed := place Measured.align Measured.size 0 members
  { size := if members = [] then 1 else roundUp align (stop Measured.align Measured.size 0 members) / 8
    align := align / 8
    placed := placed.map fun m => ⟨m.1, m.2.size, m.2.decl⟩
    elements := placed.flatMap fun m => m.2.elements m.1 }

def compileStruct (types : CTypes) (decls : List CDecl) : Option CStruct :=
  (decls.mapM (CDecl.measure types)).map structOf

end FomeFw.Config
