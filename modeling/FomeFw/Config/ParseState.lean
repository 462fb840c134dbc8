import FomeFw.Config.ReaderState

/-! The new parser, `ParseState`, which reads the same definition files into structs. Unions, tables
and `unused` are left out: the reader in production takes no such line. -/
namespace FomeFw.Config

/-- `Typedef`. -/
inductive Typedef where
  | scalar (type : ScalarType)
  | enum (type : ScalarType) (endBit : Nat) (values : List String)
  | string (size : Nat)
  deriving DecidableEq, Repr

namespace ScalarType

/-- In the order of the source, which is that of a search. -/
def values : List ScalarType := [.U08, .S08, .U16, .S16, .U32, .S32, .F32, .ANGLE_T, .I32]

def findByCtype (cType : String) : Option ScalarType :=
  let cTypeWithAlias := if cType = "floatms_t" then "float" else cType
  values.find? (·.cType = cTypeWithAlias)

def findByTsType (tsType : String) : Option ScalarType := values.find? (·.tsType = tsType)

end ScalarType

/-- What is left of a `custom` line. The size it declares is ignored, and there are no arrays. -/
def TunerStudioLine.typedef : TunerStudioLine → Option Typedef
  | .bits datatype endBit values =>
    (ScalarType.findByTsType datatype.tsType).map fun type => .enum type endBit values
  | .scalar datatype => (ScalarType.findByTsType datatype.tsType).map .scalar
  | .string size => some (.string size)
  | .array .. => none

/-- A struct that is being read. -/
structure Scope where
  name : String
  noPrefix : Bool
  structFields : List Field := []

/-- The innermost scope first, and the latest struct and typedef. -/
structure ParseState where
  scopes : List Scope := []
  structs : List Struct := []
  typedefs : List (String × Typedef) := []

namespace ParseState

/-- A field of a type that is not in an array. Names of typedefs of numbers are not kept. -/
def exitScalarField (ps : ParseState) (type name : String) : Option Field :=
  match ps.structs.find? (·.name = type), ps.typedefs.lookup type with
  | some s, _ => some (.struct name s.name s.noPrefix s.fields)
  | none, some (.scalar type) => (ScalarType.findByCtype type.cType).map fun type => .scalar { type, name }
  | none, some (.enum enumType endBit values) => some (.enum ⟨enumType, type, name, endBit, values⟩)
  | none, some (.string size) => some (.string { name, size })
  | none, none => (ScalarType.findByCtype type).map fun type => .scalar { type, name }

def exitArrayField (ps : ParseState) (type name : String) (length : List Nat) (iterate : Bool) :
    Option Field := do
  let prototype ← ps.exitScalarField type name
  match iterate, length with
  | true, [n] => some (.arrayIterate prototype n)
  | false, [n] => some (.array prototype (n, none))
  | false, [n, m] => some (.array prototype (n, some m))
  | _, _ => none

/-- For both kinds of fields. -/
def exitField (ps : ParseState) (cf : ConfigField) : Option Field :=
  if cf.arraySizes = [] then ps.exitScalarField cf.type cf.name
  else ps.exitArrayField cf.type cf.name cf.arraySizes cf.isIterate

/-- A bit goes to the group at the end, unless it is full. -/
def enterBitField (structFields : List Field) (bit : BitField) : List Field :=
  match structFields.getLast? with
  | some (.bitGroup bitFields) =>
    if bitFields.length = 32 then structFields ++ [.bitGroup [bit]]
    else structFields.dropLast ++ [.bitGroup (bitFields ++ [bit])]
  | _ => structFields ++ [.bitGroup [bit]]

/-- What becomes of the innermost scope. -/
def inScope (ps : ParseState) (change : List Field → Option (List Field)) : Option ParseState :=
  match ps.scopes with
  | [] => none
  | scope :: outer => (change scope.structFields).map fun structFields =>
    { ps with scopes := { scope with structFields } :: outer }

def exitStruct (ps : ParseState) : Option ParseState :=
  match ps.scopes with
  | [] => none
  | scope :: outer =>
    some { ps with
      scopes := outer
      structs := ⟨scope.name, scope.noPrefix, scope.structFields⟩ :: ps.structs }

/-- `#if` and the like are not looked at. -/
def readLine (ps : ParseState) : DefinitionLine → Option ParseState
  | .struct name withPrefix => some { ps with scopes := { name, noPrefix := !withPrefix } :: ps.scopes }
  | .endStruct => ps.exitStruct
  | .bit name => ps.inScope fun structFields => some (enterBitField structFields { name })
  | .custom name _ tunerStudioLine => tunerStudioLine.typedef.map fun typedef =>
    { ps with typedefs := (name, typedef) :: ps.typedefs }
  | .field cf => ps.inScope fun structFields => (ps.exitField cf).map fun f => structFields ++ [f]
  | .directive => some ps

end ParseState

end FomeFw.Config
