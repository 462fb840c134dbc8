import FomeFw.Config.LayoutElements

/-! Whether the layout is the memory map of the printed structs. The layout writes all padding
out, so that the compiler should have none to add. -/
namespace FomeFw.Config
open NaturalAlignment

/-! A parsed file, the latest struct first -/

/-- A struct member is of the latest struct of its name. -/
def Field.Resolved (earlier : List Struct) : Field → Prop
  | .struct _ structName noPrefix fields =>
    earlier.find? (·.name == structName) = some ⟨structName, noPrefix, fields⟩
  | .array prototype _ | .arrayIterate prototype _ => prototype.Resolved earlier
  | _ => True

def Parsed : List Struct → Prop
  | [] => True
  | s :: earlier => (∀ f ∈ s.fields, f.Resolved earlier) ∧ Parsed earlier

/-- The layout takes every struct. -/
def Accepted (file : List Struct) : Prop := ∀ s ∈ file, (structLayout 0 "root" s).isSome

instance (file : List Struct) : Decidable (Accepted file) :=
  inferInstanceAs (Decidable (∀ s ∈ file, _))

/-- The header, as far as it compiles. Names are not checked: of two structs of one name, the later
one counts from then on. -/
def header : List Struct → Option CTypes
  | [] => some []
  | s :: earlier => do
    let types ← header earlier
    let text ← (structLayout 0 "root" s).bind visitRoot
    let compiled ← compileStruct types text.decls
    some ((text.typeName, compiled) :: types)

/-- The places of what a child prints, by its offset within the struct. -/
def Layout.positions (l : Layout) : List (Nat × CDecl) :=
  ((l.cDecls []).getD []).mapIdx fun i decl => (8 * l.place.offsetWithinStruct + i, decl)

/-- Declarations that leave no gap. -/
def Contiguous : Nat → List PlacedDecl → Nat → Prop
  | pos, [], stop => pos = stop
  | pos, d :: placed, stop => d.start = pos ∧ Contiguous (d.start + d.size) placed stop

def CDecl.name : CDecl → String
  | .number _ name _ | .enum _ _ name _ | .string name _ _ | .struct _ name _ | .bit name => name
  | .fill .. | .unusedBit .. | .union _ => ""

/-- The layout is what the compiler makes of the text. -/
structure MapsRight (sl : Layout) (text : CStructText) (compiled : CStruct) : Prop where
  size : compiled.size = sl.getSize
  positions : compiled.placed.map (fun d => (d.start, d.decl)) = sl.children.flatMap Layout.positions
  elements : compiled.elements = elementsOf 0 sl.children
  gapless : Contiguous 0 compiled.placed (8 * compiled.size)
  apart : compiled.placed.Pairwise fun d d' => d.start + d.size ≤ d'.start
  sizeAssert : text.sizeAssert = compiled.size
  offsetAsserts : ∀ check ∈ text.offsetAsserts,
    ∃ d ∈ compiled.placed, d.decl.name = check.1 ∧ d.start = 8 * check.2

/-- All structs of a file have the memory map of their layout. -/
def AllRight : List Struct → Prop
  | [] => True
  | s :: earlier => AllRight earlier ∧ ∃ types sl text compiled, header earlier = some types ∧
      structLayout 0 "root" s = some sl ∧ visitRoot sl = some text ∧
      compileStruct types text.decls = some compiled ∧ MapsRight sl text compiled

/-- The size of a union is a multiple of its alignment. -/
def Field.Whole : Field → Prop
  | .union fields => ∀ l ∈ unionLayout fields, l.getAlignment ∣ l.getSize
  | _ => True

/-- There is a field, and all unions are whole. -/
structure Struct.Whole (s : Struct) : Prop where
  inhabited : s.fields ≠ []
  unions : ∀ f ∈ s.fields, f.Whole

variable {types : CTypes} {d d' : Draft} {l : Layout} {children before after : List Layout}
  {base offset n : Nat} {dims : List Nat} {regular regular' : Prop} {members more : List Measured}
  {m : Measured}

abbrev placed (pos : Nat) (members : List Measured) : List (Nat × Measured) :=
  place Measured.align Measured.size pos members

section Numbers

theorem foldl_mul (size : Nat) (dims : List Nat) : dims.foldl (· * ·) size = size * dims.prod := by
  induction dims generalizing size with
  | nil => simp
  | cons n dims ih => rw [List.foldl_cons, ih, List.prod_cons, Nat.mul_assoc]

theorem sizeofType_cTypeName (type : ScalarType) : sizeofType (cTypeName type) = some type.size := by
  cases type <;> decide

theorem measureNumber_eq (kind : String → List Nat → ElementKind) (type : ScalarType) (name : String)
    (dims : List Nat) : measureNumber kind (cTypeName type) name dims = some {
      decl := .number (cTypeName type) name dims
      align := 8 * type.size
      unit := 8 * type.size
      count := dims.prod
      inner := fun start => [⟨kind (cTypeName type) dims, name, start⟩] } := by
  simp only [measureNumber, sizeofType_cTypeName, Option.bind_eq_bind, Option.bind_some]

/-- The elements of a declaration at a whole byte. -/
theorem elements_repeated {size : Nat} {inner : Nat → List CElement} (unit : m.unit = 8 * size)
    (count : m.count = dims.prod) (same : ∀ offset, m.inner (8 * offset) = inner offset) (offset : Nat) :
    m.elements (8 * offset) = repeated dims offset size inner := by
  simp only [Measured.elements, repeated, unit, count, ← same]
  congr 1
  funext k
  rw [Nat.mul_add, Nat.mul_assoc]

theorem repeated_one (offset size : Nat) (inner : Nat → List CElement) :
    repeated [] offset size inner = inner offset := by
  simp [repeated]

end Numbers

section Groups

/-- A bit as the compiler has it. -/
def bitMeasured (offset : Nat) (bits : List BitField) (i : Nat) : Measured where
  decl := bitDecl offset bits i
  align := 1
  unit := 1
  inner := fun start => [{ bitElement 0 bits i with address := start }]

theorem measure_bitDecl (offset : Nat) (bits : List BitField) (i : Nat) :
    (bitDecl offset bits i).measure types = some (bitMeasured offset bits i) := by
  unfold bitMeasured bitDecl bitElement
  cases bits[i]? <;> rfl

theorem bitElement_address (address : Nat) (bits : List BitField) (i : Nat) :
    { bitElement 0 bits i with address := address + i } = bitElement address bits i := by
  unfold bitElement
  cases bits[i]? <;> rfl

theorem mapIdx_map_range {α β : Type} (f : Nat → α) (g : Nat → α → β) (n : Nat) :
    ((List.range n).map f).mapIdx g = (List.range n).map fun i => g i (f i) := by
  apply List.ext_getElem
  · simp
  · simp

def UnionMember.measured (m : UnionMember) : Measured where
  decl := .number (cTypeName m.field.type) m.field.name m.length
  align := 8 * m.field.type.size
  unit := 8 * m.field.type.size
  count := m.length.prod
  inner := fun start => [⟨.overlaid (cTypeName m.field.type) m.length, m.field.name, start⟩]

theorem UnionMember.measured_size (m : UnionMember) : m.measured.size = 8 * m.getSize := by
  simp only [Measured.size, UnionMember.measured, UnionMember.getSize, foldl_mul, Nat.mul_assoc]

theorem foldr_max_mul (k : Nat) (sizes : List Nat) :
    (sizes.map (k * ·)).foldr max 0 = k * sizes.foldr max 0 := by
  induction sizes with
  | nil => rfl
  | cons size sizes ih => rw [List.map_cons, List.foldr_cons, ih, List.foldr_cons, Nat.mul_max_mul_left]

theorem foldr_max_start (a : Nat) (sizes : List Nat) : sizes.foldr max a = max a (sizes.foldr max 0) := by
  induction sizes with
  | nil => exact (Nat.max_zero a).symm
  | cons size sizes ih => rw [List.foldr_cons, ih, List.foldr_cons, Nat.max_left_comm]

/-- An anonymous union as the compiler has it. -/
def unionMeasured (members : List UnionMember) : Measured where
  decl := .union (members.map fun m => (cTypeName m.field.type, m.field.name, m.length))
  align := ((members.map UnionMember.measured).map Measured.align).foldr max 8
  unit := roundUp (((members.map UnionMember.measured).map Measured.align).foldr max 8)
    (((members.map UnionMember.measured).map Measured.size).foldr max 0)
  inner := fun start => (members.map UnionMember.measured).flatMap (Measured.elements · start)

theorem measure_union (members : List UnionMember) :
    (CDecl.union (members.map fun m => (cTypeName m.field.type, m.field.name, m.length))).measure types =
      some (unionMeasured members) := by
  have measured : (fun d => measureNumber .overlaid d.1 d.2.1 d.2.2) ∘
      (fun m : UnionMember => (cTypeName m.field.type, m.field.name, m.length)) =
      fun m => some m.measured := funext fun m => measureNumber_eq _ _ _ _
  have all : (members.map fun m => (cTypeName m.field.type, m.field.name, m.length)).mapM
      (fun d => measureNumber .overlaid d.1 d.2.1 d.2.2) = some (members.map UnionMember.measured) := by
    rw [List.mapM_map, measured]
    exact List.mapM_pure
  simp only [CDecl.measure, all, Option.bind_eq_bind, Option.bind_some]
  rfl

theorem unionMeasured_align {unions : List UnionMember} (some : unions ≠ []) :
    (unionMeasured unions).align = 8 * (Layout.union p unions).getAlignment := by
  have positive := (@aligned_union p unions some).positive
  have aligns : (unions.map UnionMember.measured).map Measured.align =
      (unions.map fun m => m.field.type.size).map (8 * ·) := by
    simp only [List.map_map]
    rfl
  simp only [unionMeasured, aligns, foldr_max_start 8, foldr_max_mul]
  exact max_eq_right (Nat.le_mul_of_pos_right 8 positive)

theorem unionMeasured_size {unions : List UnionMember} (some : unions ≠ []) :
    (unionMeasured unions).size =
      8 * roundUp (Layout.union p unions).getAlignment (Layout.union p unions).getSize := by
  have sizes : (unions.map UnionMember.measured).map Measured.size =
      (unions.map UnionMember.getSize).map (8 * ·) := by
    simp only [List.map_map]
    exact List.map_congr_left fun m _ => m.measured_size
  have unit : (unionMeasured unions).size = roundUp (unionMeasured unions).align
      (((unions.map UnionMember.measured).map Measured.size).foldr max 0) := Nat.mul_one _
  rw [unit, @unionMeasured_align p unions some, sizes, foldr_max_mul, roundUp_mul]
  rfl

end Groups

/-- What the compiler does with the declarations of a child that is in its place. A child is
regular when they are as large as it. -/
structure Layout.Prints (types : CTypes) (l : Layout) (regular : Prop) (members : List Measured) :
    Prop where
  decls : ∃ decls, l.cDecls [] = some decls ∧ decls.mapM (CDecl.measure types) = some members
  inhabited : members ≠ []
  aligned : ∀ m ∈ members, m.align ∣ 32
  tight : Tight Measured.align Measured.size (8 * l.place.offset) members
  total : regular → (members.map Measured.size).sum = 8 * l.getSize
  larger : ¬regular → 8 * l.getSize < (members.map Measured.size).sum
  positions : (placed (8 * l.place.offset) members).map (fun m => (m.1, m.2.decl)) = l.positions
  elements : (placed (8 * l.place.offset) members).flatMap (fun m => m.2.elements m.1) = l.elements 0
  offsetAsserts : ∀ check ∈ l.writeCOffsetCheck,
    ∃ p ∈ l.positions, p.2.name = check.1 ∧ p.1 = 8 * check.2

/-- A child is put at an aligned offset, within a struct at 0. -/
def Layout.atOffset (l : Layout) (offset : Nat) : Layout := l.at ⟨offset, offset⟩

/-- A layout is printed well at all its places. -/
def Layout.Printed (types : CTypes) (l : Layout) (regular : Prop) : Prop :=
  ∀ offset, l.getAlignment ∣ offset → ∃ members, (l.atOffset offset).Prints types regular members

section Prints

variable {decl : CDecl}

/-- One declaration. -/
theorem Layout.Prints.single (within : l.place.offsetWithinStruct = l.place.offset)
    (printed : l.cDecls [] = some [decl]) (measured : decl.measure types = some m)
    (own : m.decl = decl) (aligned : m.align ∣ 32) (divides : m.align ∣ 8 * l.place.offset)
    (exact' : regular → m.size = 8 * l.getSize) (larger : ¬regular → 8 * l.getSize < m.size)
    (elements : m.elements (8 * l.place.offset) = l.elements 0)
    (asserts : ∀ check ∈ l.writeCOffsetCheck,
      decl.name = check.1 ∧ l.place.offsetWithinStruct = check.2) :
    l.Prints types regular [m] := by
  have positions : l.positions = [(8 * l.place.offset, decl)] := by
    simp [Layout.positions, printed, within]
  constructor
  case decls => exact ⟨_, printed, by simp [measured]⟩
  case inhabited => exact List.cons_ne_nil _ _
  case aligned => simpa using aligned
  case tight => exact ⟨divides, trivial⟩
  case total => intro holds; simpa using exact' holds
  case larger => intro fails; simpa using larger fails
  case positions => simp [NaturalAlignment.place, roundUp_of_dvd divides, own, positions]
  case elements => simp [NaturalAlignment.place, roundUp_of_dvd divides, elements]
  case offsetAsserts =>
    intro check member
    obtain ⟨name, offset⟩ := asserts check member
    rw [positions]
    exact ⟨_, List.mem_singleton_self _, name, by rw [← offset, within]⟩

/-- One declaration of things that have one size, `dims` of them. -/
theorem Layout.Prints.repeats {size : Nat} {inner : Nat → List CElement}
    (within : l.place.offsetWithinStruct = l.place.offset)
    (printed : l.cDecls [] = some [decl]) (measured : decl.measure types = some m)
    (own : m.decl = decl) (aligned : m.align ∣ 32) (divides : m.align ∣ 8 * l.place.offset)
    (unit : m.unit = 8 * size) (count : m.count = dims.prod)
    (same : ∀ offset, m.inner (8 * offset) = inner offset) (total : l.getSize = size * dims.prod)
    (elements : l.elements 0 = repeated dims l.place.offset size inner)
    (asserts : ∀ check ∈ l.writeCOffsetCheck,
      decl.name = check.1 ∧ l.place.offsetWithinStruct = check.2) :
    l.Prints types True [m] := by
  apply Layout.Prints.single within printed measured own aligned divides
  · intro
    rw [Measured.size, unit, count, total, Nat.mul_assoc]
  · intro no
    exact absurd trivial no
  · rw [elements, elements_repeated unit count same]
  · exact asserts

/-- Layouts of numbers, also in arrays. -/
theorem printed_number (field : ScalarField) : (Layout.scalar {} field).Printed types True := by
  intro offset divides
  refine ⟨_, .repeats rfl rfl (measureNumber_eq _ _ _ _) rfl ?_ ?_ rfl rfl (fun _ => rfl) ?_ ?_ ?_⟩
  · exact Nat.mul_dvd_mul_left 8 field.type.size_dvd
  · exact Nat.mul_dvd_mul_left 8 divides
  · exact (Nat.mul_one _).symm
  · simp [Layout.elements, Layout.atOffset, Layout.at, Layout.mapPlace, Layout.place, repeated_one]
  · simp [Layout.writeCOffsetCheck, Layout.atOffset, Layout.at, Layout.mapPlace, CDecl.name, Layout.place]

theorem printed_enum (field : EnumField) : (Layout.enum {} field).Printed types True := by
  intro offset divides
  refine ⟨_, .repeats rfl rfl rfl rfl ?_ ?_ rfl rfl (fun _ => rfl) ?_ ?_ ?_⟩
  · exact Nat.mul_dvd_mul_left 8 field.type.size_dvd
  · exact Nat.mul_dvd_mul_left 8 divides
  · exact (Nat.mul_one _).symm
  · simp [Layout.elements, Layout.atOffset, Layout.at, Layout.mapPlace, Layout.place, repeated_one]
  · simp [Layout.writeCOffsetCheck, Layout.atOffset, Layout.at, Layout.mapPlace]

theorem printed_string (field : StringField) : (Layout.string {} field).Printed types True := by
  intro offset _
  refine ⟨_, .repeats rfl rfl rfl rfl ?_ ?_ rfl rfl (fun _ => rfl) ?_ ?_ ?_⟩
  · exact ⟨4, rfl⟩
  · exact Nat.dvd_mul_right 8 offset
  · exact (Nat.mul_one _).symm
  · simp [Layout.elements, Layout.atOffset, Layout.at, Layout.mapPlace, Layout.place, repeated_one]
  · simp [Layout.writeCOffsetCheck, Layout.atOffset, Layout.at, Layout.mapPlace, CDecl.name, Layout.place]

theorem printed_unused (size : Nat) : (Layout.unused {} size).Printed types True := by
  intro offset _
  have one : 1 = ([] : List Nat).prod := rfl
  refine ⟨_, .repeats rfl rfl rfl rfl ?_ ?_ rfl one (fun _ => rfl) ?_ ?_ ?_⟩
  · exact ⟨4, rfl⟩
  · exact Nat.dvd_mul_right 8 offset
  · exact (Nat.mul_one _).symm
  · simp [Layout.elements, Layout.atOffset, Layout.at, Layout.mapPlace, Layout.place, repeated_one]
  · simp [Layout.writeCOffsetCheck, Layout.atOffset, Layout.at, Layout.mapPlace]

theorem printed_numbers (kind : ArrayKind) (field : ScalarField) (dims : List Nat) :
    (Layout.array kind {} (.scalar {} field) dims).Printed types True := by
  intro offset divides
  refine ⟨_, .repeats rfl rfl (measureNumber_eq _ _ _ _) rfl ?_ ?_ rfl rfl (fun _ => rfl) ?_ ?_ ?_⟩
  · exact Nat.mul_dvd_mul_left 8 field.type.size_dvd
  · exact Nat.mul_dvd_mul_left 8 divides
  · exact foldl_mul _ _
  · simp [Layout.elements, Layout.arrayElements, Layout.atOffset, Layout.at, Layout.mapPlace, Layout.place]
  · simp [Layout.writeCOffsetCheck, Layout.atOffset, Layout.at, Layout.mapPlace, CDecl.name, Layout.place]

theorem printed_enums (kind : ArrayKind) (field : EnumField) (length : Nat) :
    (Layout.array kind {} (.enum {} field) [length]).Printed types True := by
  intro offset divides
  refine ⟨_, .repeats rfl rfl rfl rfl ?_ ?_ rfl rfl (fun _ => rfl) ?_ ?_ ?_⟩
  · exact Nat.mul_dvd_mul_left 8 field.type.size_dvd
  · exact Nat.mul_dvd_mul_left 8 divides
  · exact foldl_mul _ _
  · simp [Layout.elements, Layout.arrayElements, Layout.atOffset, Layout.at, Layout.mapPlace, Layout.place]
  · simp [Layout.writeCOffsetCheck, Layout.atOffset, Layout.at, Layout.mapPlace]

theorem printed_strings (kind : ArrayKind) (field : StringField) (length : Nat) :
    (Layout.array kind {} (.string {} field) [length]).Printed types True := by
  intro offset _
  refine ⟨_, .repeats rfl rfl rfl rfl ?_ ?_ rfl rfl (fun _ => rfl) ?_ ?_ ?_⟩
  · exact ⟨4, rfl⟩
  · exact Nat.dvd_mul_right 8 offset
  · exact foldl_mul _ _
  · simp [Layout.elements, Layout.arrayElements, Layout.atOffset, Layout.at, Layout.mapPlace, Layout.place]
  · simp [Layout.writeCOffsetCheck, Layout.atOffset, Layout.at, Layout.mapPlace, CDecl.name, Layout.place]

/-- A type is like a layout: what the structs that follow need of it. -/
structure CStruct.Like (c : CStruct) (size : Nat) (children : List Layout) : Prop where
  size_eq : c.size = size
  positive : 0 < c.align
  divides : c.align ∣ 4
  inside : c.elements = elementsOf 0 children

theorem measure_struct {typeName : String} {c : CStruct} (known : types.lookup typeName = some c)
    (name : String) (dims : List Nat) : (CDecl.struct typeName name dims).measure types = some {
      decl := .struct typeName name dims
      align := 8 * c.align
      unit := 8 * c.size
      count := dims.prod
      inner := fun start =>
        ⟨.struct typeName, name, start⟩ :: c.elements.map (CElement.shift start) } := by
  simp only [CDecl.measure, known, Option.bind_eq_bind, Option.bind_some]

theorem CStruct.Like.moved {c : CStruct} {size : Nat} (like : c.Like size children) (offset : Nat) :
    c.elements.map (CElement.shift (8 * offset)) = elementsOf offset children := by
  rw [like.inside, ← elementsOf_add, Nat.zero_add]

section Structs

variable {typeName : String} {c : CStruct} {size : Nat}

theorem printed_structs (known : types.lookup typeName = some c) (like : c.Like size children)
    (kind : ArrayKind) (name : String) (noPrefix : Bool) (length : Nat) :
    (Layout.array kind {} (.struct {} typeName name noPrefix size children) [length]).Printed types
      True := by
  intro offset divides
  refine ⟨_, .repeats rfl rfl (measure_struct known name [length]) rfl ?_ ?_ rfl rfl (fun _ => rfl)
    ?_ ?_ ?_⟩
  · exact Nat.mul_dvd_mul_left 8 like.divides
  · exact Nat.mul_dvd_mul_left 8 (like.divides.trans divides)
  · rw [like.size_eq]
    exact foldl_mul _ _
  · simp [Layout.elements, Layout.arrayElements, Layout.atOffset, Layout.at, Layout.mapPlace, Layout.place,
      like.size_eq, like.moved]
  · simp [Layout.writeCOffsetCheck, Layout.atOffset, Layout.at, Layout.mapPlace]

/-- A struct within a struct, with its children moved to where it is. -/
theorem prints_struct (known : types.lookup typeName = some c) (like : c.Like size children)
    (name : String) (noPrefix : Bool) (divides : 4 ∣ offset) :
    ∃ members, (Layout.struct ⟨offset, offset⟩ typeName name noPrefix size
      (shiftAll offset children)).Prints types True members := by
  refine ⟨_, .repeats rfl rfl (measure_struct known name []) rfl ?_ ?_ rfl rfl (fun _ => rfl) ?_ ?_ ?_⟩
  · exact Nat.mul_dvd_mul_left 8 like.divides
  · exact Nat.mul_dvd_mul_left 8 (like.divides.trans divides)
  · rw [like.size_eq]
    exact (Nat.mul_one size).symm
  · simp [Layout.elements, Layout.place, repeated_one, elementsOf_shift, like.moved]
  · simp [Layout.writeCOffsetCheck]

end Structs

theorem printed_bitGroup (bits : List BitField) : (Layout.bitGroup {} bits).Printed types True := by
  intro offset _
  have one : ∀ m ∈ (List.range 32).map (bitMeasured offset bits), m.align = 1 := by
    intro m member
    obtain ⟨i, -, rfl⟩ := List.mem_map.mp member
    rfl
  have unit : ∀ m ∈ (List.range 32).map (bitMeasured offset bits), m.size = 1 := by
    intro m member
    obtain ⟨i, -, rfl⟩ := List.mem_map.mp member
    rfl
  have printed : ((Layout.bitGroup {} bits).atOffset offset).cDecls [] =
      some ((List.range 32).map (bitDecl offset bits)) := by
    simp only [Layout.atOffset, Layout.at, Layout.mapPlace, Layout.cDecls]
  have sizes : (((List.range 32).map (bitMeasured offset bits)).map Measured.size).sum = 32 := by
    rw [List.map_eq_replicate_iff.mpr unit]
    simp
  refine ⟨(List.range 32).map (bitMeasured offset bits), ?_⟩
  constructor
  case decls =>
    refine ⟨_, printed, ?_⟩
    have measured : CDecl.measure types ∘ bitDecl offset bits = fun i => some (bitMeasured offset bits i) :=
      funext fun i => measure_bitDecl offset bits i
    rw [List.mapM_map, measured]
    exact List.mapM_pure
  case inhabited => simp
  case aligned =>
    intro m member
    rw [one m member]
    exact Nat.one_dvd 32
  case tight => exact tight_of_align_one one
  case total =>
    intro
    exact sizes
  case larger =>
    intro no
    exact absurd trivial no
  case positions =>
    rw [placed, place_units one unit, Layout.positions, printed, Option.getD_some, mapIdx_map_range,
      mapIdx_map_range, List.map_map]
    rfl
  case elements =>
    rw [placed, place_units one unit, mapIdx_map_range, List.flatMap_map]
    simp [Layout.elements, Layout.atOffset, Layout.at, Layout.mapPlace, Layout.place, Measured.elements,
      bitMeasured, bitElement_address, List.map_eq_flatMap]
  case offsetAsserts => simp [Layout.writeCOffsetCheck, Layout.atOffset, Layout.at, Layout.mapPlace]

/-- The union is padded behind when its alignment does not divide its size. -/
theorem printed_union {members : List UnionMember} (some : members ≠ []) :
    (Layout.union {} members).Printed types
      ((Layout.union {} members).getAlignment ∣ (Layout.union {} members).getSize) := by
  intro offset divides
  have aligned := @aligned_union {} members some
  have align := @unionMeasured_align {} members some
  have size := @unionMeasured_size {} members some
  refine ⟨[unionMeasured members], .single rfl ?_ (measure_union members) rfl ?_ ?_ ?_ ?_ ?_ ?_⟩
  · simp only [Layout.atOffset, Layout.at, Layout.mapPlace, Layout.cDecls, List.map_map]
    rfl
  · rw [align]
    exact Nat.mul_dvd_mul_left 8 aligned.divides
  · rw [align]
    exact Nat.mul_dvd_mul_left 8 divides
  · intro whole
    rw [size, roundUp_of_dvd whole, Layout.atOffset, Layout.at, getSize_mapPlace]
  · intro ragged
    rw [size, Layout.atOffset, Layout.at, getSize_mapPlace]
    exact Nat.mul_lt_mul_of_pos_left (lt_roundUp aligned.positive ragged) (Nat.succ_pos 7)
  · have same : ∀ m : UnionMember, m.measured.elements (8 * offset) =
        repeated m.length offset m.field.type.size fun offset =>
          [⟨.overlaid (cTypeName m.field.type) m.length, m.field.name, 8 * offset⟩] :=
      fun m => elements_repeated rfl rfl (fun _ => rfl) offset
    simp [Measured.elements, Layout.elements, Layout.atOffset, Layout.at, Layout.mapPlace, Layout.place,
      unionMeasured, List.flatMap_map, ← same]
  · simp [Layout.writeCOffsetCheck, Layout.atOffset, Layout.at, Layout.mapPlace]

end Prints

/-- The compiler has come as far as the layout, while all children are regular; after one that
is not, it is ahead. -/
structure Draft.Tracks (types : CTypes) (d : Draft) (regular : Prop) (members : List Measured) :
    Prop where
  decls : ∃ decls, d.children.mapM (Layout.cDecls []) = some decls ∧
    decls.flatten.mapM (CDecl.measure types) = some members
  aligned : ∀ m ∈ members, m.align ∣ 32
  tight : regular → Tight Measured.align Measured.size 0 members
  total : regular → (members.map Measured.size).sum = 8 * d.offset
  ahead : ¬regular → 8 * d.offset < stop Measured.align Measured.size 0 members
  positions : regular →
    (placed 0 members).map (fun m => (m.1, m.2.decl)) = d.children.flatMap Layout.positions
  elements : regular → (placed 0 members).flatMap (fun m => m.2.elements m.1) = elementsOf 0 d.children
  offsetAsserts : ∀ check ∈ d.children.flatMap Layout.writeCOffsetCheck,
    ∃ p ∈ d.children.flatMap Layout.positions, p.2.name = check.1 ∧ p.1 = 8 * check.2

section Tracking

theorem Draft.Tracks.start : Draft.Tracks types { offset := 0 } True [] := by
  constructor
  case decls => exact ⟨[], rfl, rfl⟩
  case ahead =>
    intro no
    exact absurd trivial no
  case aligned | offsetAsserts => simp
  case tight => exact id
  case total | positions | elements =>
    intro
    rfl

/-- One child more, where the draft has got to. -/
theorem Draft.Tracks.append (tracks : d.Tracks types regular members)
    (prints : l.Prints types regular' more) (here : l.place.offset = d.offset) :
    Draft.Tracks types { offset := d.offset + l.getSize, children := d.children ++ [l] }
      (regular ∧ regular') (members ++ more) := by
  have behind := @add_sum_le_stop _ Measured.align Measured.size more
    (stop Measured.align Measured.size 0 members)
  have reached : regular → stop Measured.align Measured.size 0 members = 8 * d.offset := by
    intro holds
    rw [(tracks.tight holds).stop_eq, tracks.total holds, Nat.zero_add]
  constructor
  case decls =>
    obtain ⟨decls, printed, measured⟩ := tracks.decls
    obtain ⟨later, printed', measured'⟩ := prints.decls
    refine ⟨decls ++ [later], ?_, ?_⟩
    · simp [List.mapM_append, printed, printed']
    · simp [List.mapM_append, measured, measured']
  case aligned => exact List.forall_mem_append.mpr ⟨tracks.aligned, prints.aligned⟩
  case tight =>
    rintro ⟨holds, holds'⟩
    refine tight_append.mpr ⟨tracks.tight holds, ?_⟩
    rw [tracks.total holds, Nat.zero_add, ← here]
    exact prints.tight
  case total =>
    rintro ⟨holds, holds'⟩
    rw [List.map_append, List.sum_append, tracks.total holds, prints.total holds', Nat.mul_add]
  case ahead =>
    intro irregular
    rw [stop_append]
    change 8 * (d.offset + l.getSize) < _
    by_cases holds : regular
    · have larger := prints.larger fun holds' => irregular ⟨holds, holds'⟩
      have start := reached holds
      omega
    · have ahead := tracks.ahead holds
      have enough : 8 * l.getSize ≤ (more.map Measured.size).sum := by
        by_cases holds' : regular'
        · exact (prints.total holds').ge
        · exact (prints.larger holds').le
      omega
  case positions =>
    rintro ⟨holds, -⟩
    have children := tracks.positions holds
    have child := prints.positions
    simp only [placed] at children child ⊢
    rw [place_append, List.map_append, children, reached holds, ← here, child, List.flatMap_append,
      List.flatMap_singleton]
  case elements =>
    rintro ⟨holds, -⟩
    have children := tracks.elements holds
    have child := prints.elements
    simp only [placed] at children child ⊢
    rw [place_append, List.flatMap_append, children, reached holds, ← here, child, elementsOf_append]
    simp only [elementsOf, List.append_nil]
  case offsetAsserts =>
    simp only [List.flatMap_append, List.flatMap_singleton, List.mem_append]
    rintro check (earlier | own)
    · obtain ⟨p, member, found⟩ := tracks.offsetAsserts check earlier
      exact ⟨p, .inl member, found⟩
    · obtain ⟨p, member, found⟩ := prints.offsetAsserts check own
      exact ⟨p, .inr member, found⟩

/-- Padding is a child like others. -/
theorem Draft.Tracks.pad (tracks : d.Tracks types regular members) (positive : 0 < a) :
    ∃ more, (d.padOffsetWithUnused 0 a).Tracks types regular (members ++ more) := by
  have later := le_roundUp a d.offset
  rw [padOffsetWithUnused_eq positive, fillTo]
  split
  · obtain ⟨more, prints⟩ := @printed_unused types (roundUp a d.offset - d.offset) d.offset
      (Nat.one_dvd _)
    have padded := tracks.append prints rfl
    rw [and_true, Layout.atOffset, Layout.at, getSize_mapPlace, Layout.getSize,
      Nat.add_sub_cancel' later] at padded
    exact ⟨more, padded⟩
  · next still =>
    have same : roundUp a d.offset = d.offset := (not_lt.mp still).antisymm later
    rw [same, List.append_nil]
    exact ⟨[], by rwa [List.append_nil]⟩

theorem Draft.Tracks.addItem (tracks : d.Tracks types regular members)
    (printed : l.Printed types regular') (positive : 0 < l.getAlignment) :
    ∃ more ≠ [], (d.addItem 0 l).Tracks types (regular ∧ regular') (members ++ more) := by
  obtain ⟨fill, padded⟩ := tracks.pad positive
  have divides : l.getAlignment ∣ (d.padOffsetWithUnused 0 l.getAlignment).offset := by
    rw [padOffsetWithUnused_eq positive]
    exact dvd_roundUp positive d.offset
  obtain ⟨own, prints⟩ := printed _ divides
  have added := padded.append prints (by rw [Layout.atOffset, Layout.at, place_mapPlace])
  rw [Layout.atOffset, Layout.at, getSize_mapPlace, List.append_assoc] at added
  refine ⟨fill ++ own, by simp [prints.inhabited], ?_⟩
  rw [Draft.addItem, setOffset_setOffsetWithinStruct]
  exact added

end Tracking

/-- The types of the structs before. -/
def Known (types : CTypes) (earlier : List Struct) : Prop :=
  ∀ name s, earlier.find? (·.name == name) = some s →
    ∃ c sl, types.lookup name = some c ∧ structLayout 0 "root" s = some sl ∧
      c.Like sl.getSize sl.children

section Fields

variable {earlier : List Struct} {name structName : String} {noPrefix : Bool} {fields : List Field}

/-- All uses of a struct have the layout of its definition. -/
theorem Known.like (known : Known types earlier)
    (resolved : earlier.find? (·.name == structName) = some ⟨structName, noPrefix, fields⟩)
    (made : addFields 0 { offset := 0 } fields = some d) : ∃ c, types.lookup structName = some c ∧
      c.Like (d.padOffsetWithUnused 0 4).offset (d.padOffsetWithUnused 0 4).children := by
  obtain ⟨c, sl, found, laid, like⟩ := known structName _ resolved
  simp only [structLayout, made, Option.map_some, Option.some.injEq] at laid
  subst laid
  exact ⟨c, found, like⟩

theorem close_moved (divides : 4 ∣ n) (d : Draft) : (d.shift n).close n n structName name noPrefix =
    .struct ⟨n, n⟩ structName name noPrefix (d.padOffsetWithUnused 0 4).offset
      (shiftAll n (d.padOffsetWithUnused 0 4).children) := by
  have moved : (d.shift n).close (0 + n) n structName name noPrefix = _ := close_shift divides
  simpa only [Draft.close, Layout.shift, Nat.zero_add, Nat.sub_zero] using moved

theorem Draft.Tracks.addStruct (known : Known types earlier) (tracks : d.Tracks types regular members)
    (resolved : earlier.find? (·.name == structName) = some ⟨structName, noPrefix, fields⟩)
    (added : addField 0 d (.struct name structName noPrefix fields) = some d') :
    ∃ more ≠ [], d'.Tracks types (regular ∧ True) (members ++ more) := by
  obtain ⟨fill, padded⟩ := tracks.pad (Nat.succ_pos 3)
  have divides : 4 ∣ (d.padOffsetWithUnused 0 4).offset := by
    rw [padOffsetWithUnused_eq (Nat.succ_pos 3)]
    exact dvd_roundUp (Nat.succ_pos 3) d.offset
  simp only [addField, Option.bind_eq_bind] at added
  generalize d.padOffsetWithUnused 0 4 = start at *
  have moved := addFields_shift divides 0 { offset := 0 } fields
  simp only [Draft.shift, shiftAll, Nat.zero_add] at moved
  rw [moved] at added
  cases made : addFields 0 { offset := 0 } fields with
  | none => simp [made] at added
  | some inner =>
    obtain ⟨c, found, like⟩ := known.like resolved made
    obtain ⟨own, prints⟩ := prints_struct found like name noPrefix divides
    simp only [made, Option.map_some, Option.bind_some, Option.some.injEq] at added
    change { offset := start.offset + ((inner.shift start.offset).close _ _ _ _ _).getSize
             children := start.children ++ [(inner.shift start.offset).close _ _ _ _ _] : Draft } = d' at added
    rw [Nat.sub_zero, close_moved divides] at added
    subst added
    have appended := padded.append prints rfl
    rw [List.append_assoc] at appended
    exact ⟨fill ++ own, by simp [prints.inhabited], appended⟩

theorem prototypeLayout_printed {prototype : Field} (known : Known types earlier)
    (resolved : prototype.Resolved earlier) (made : prototypeLayout prototype = some l)
    (kind : ArrayKind) (length : Nat) : (Layout.array kind {} l [length]).Printed types True := by
  cases prototype with
  | scalar field =>
    obtain rfl := Option.some.inj made
    exact printed_numbers kind field [length]
  | enum field =>
    obtain rfl := Option.some.inj made
    exact printed_enums kind field length
  | string field =>
    obtain rfl := Option.some.inj made
    exact printed_strings kind field length
  | struct name structName noPrefix fields =>
    simp only [prototypeLayout, Option.bind_eq_bind, Option.bind_eq_some_iff, Option.some.injEq] at made
    obtain ⟨inner, added, rfl⟩ := made
    obtain ⟨c, found, like⟩ := known.like resolved added
    exact printed_structs found like kind name noPrefix length
  | array | arrayIterate | bitGroup | union | unused => simp [prototypeLayout] at made

/-- One round of the loop. -/
theorem Draft.Tracks.addField (known : Known types earlier) (tracks : d.Tracks types regular members)
    {f : Field} (resolved : f.Resolved earlier) (added : addField 0 d f = some d') :
    ∃ more ≠ [], d'.Tracks types (regular ∧ f.Whole) (members ++ more) := by
  cases f with
  | scalar field =>
    obtain rfl := Option.some.inj added
    exact tracks.addItem (printed_number field) field.type.size_pos
  | enum field =>
    obtain rfl := Option.some.inj added
    exact tracks.addItem (printed_enum field) field.type.size_pos
  | string field =>
    obtain rfl := Option.some.inj added
    exact tracks.addItem (printed_string field) Nat.one_pos
  | unused size =>
    obtain rfl := Option.some.inj added
    exact tracks.addItem (printed_unused size) Nat.one_pos
  | bitGroup bitFields =>
    simp only [Config.addField, bitGroupLayout] at added
    split at added
    · contradiction
    · obtain rfl := Option.some.inj added
      exact tracks.addItem (printed_bitGroup bitFields) (Nat.succ_pos 3)
  | union fields =>
    cases made : unionLayout fields with
    | none => simp [Config.addField, made] at added
    | some l =>
      obtain ⟨unions, rfl, some⟩ := unionLayout_eq made
      simp only [Config.addField, made, Option.map_some, Option.some.injEq] at added
      subst added
      have added := tracks.addItem (printed_union some) (@aligned_union {} unions some).positive
      simpa only [Field.Whole, made, Option.mem_some, forall_eq'] using added
  | struct name structName noPrefix fields => exact tracks.addStruct known resolved added
  | array prototype length =>
    cases prototype with
    | scalar field =>
      obtain rfl := Option.some.inj added
      exact tracks.addItem (printed_numbers .plain field _) field.type.size_pos
    | enum | string | struct | array | arrayIterate | bitGroup | union | unused => contradiction
  | arrayIterate prototype length =>
    simp only [Config.addField, Option.bind_eq_bind, Option.bind_eq_some_iff, Option.some.injEq] at added
    obtain ⟨l, made, rfl⟩ := added
    have element : prototype.Resolved earlier := resolved
    exact tracks.addItem (prototypeLayout_printed known element made _ length)
      (prototypeLayout_aligned made).positive

theorem Draft.Tracks.addFields (known : Known types earlier) {fields : List Field}
    (tracks : d.Tracks types regular members) (resolved : ∀ f ∈ fields, f.Resolved earlier)
    (added : addFields 0 d fields = some d') : ∃ more, (fields ≠ [] → more ≠ []) ∧
      d'.Tracks types (regular ∧ ∀ f ∈ fields, f.Whole) (members ++ more) := by
  induction fields generalizing d regular members with
  | nil =>
    obtain rfl := Option.some.inj added
    exact ⟨[], by simp, by simpa using tracks⟩
  | cons f fields ih =>
    simp only [Config.addFields, Option.bind_eq_bind, Option.bind_eq_some_iff] at added
    obtain ⟨next, first, rest⟩ := added
    obtain ⟨own, later⟩ := List.forall_mem_cons.mp resolved
    obtain ⟨more, some, tracks⟩ := tracks.addField known own first
    obtain ⟨others, -, tracks⟩ := ih tracks later rest
    refine ⟨more ++ others, by simp [some], ?_⟩
    simpa only [List.forall_mem_cons, and_assoc, List.append_assoc] using tracks

end Fields

section Closing

theorem contiguous_of_tight (tight : Tight Measured.align Measured.size n members) :
    Contiguous n ((placed n members).map fun m => ⟨m.1, m.2.size, m.2.decl⟩)
      (n + (members.map Measured.size).sum) := by
  induction members generalizing n with
  | nil => exact (Nat.add_zero n).symm
  | cons m members ih =>
    obtain ⟨divides, rest⟩ := tight
    simp only [placed, place, roundUp_of_dvd divides, List.map_cons, Contiguous, true_and,
      List.sum_cons, ← Nat.add_assoc]
    exact ih rest

/-- The alignment of a struct in bits is one of whole bytes. -/
theorem structAlign_dvd (aligned : ∀ m ∈ members, m.align ∣ 32) :
    (members.map Measured.align).foldr max 8 ∣ 32 := by
  refine foldr_max_dvd (fun align own => ?_) ⟨4, rfl⟩
  obtain ⟨m, member, rfl⟩ := List.mem_map.mp own
  exact aligned m member

theorem dvd_structAlign (aligned : ∀ m ∈ members, m.align ∣ 32) :
    8 ∣ (members.map Measured.align).foldr max 8 := by
  have large : 8 ≤ (members.map Measured.align).foldr max 8 := by
    rw [foldr_max_start]
    exact le_max_left _ _
  obtain ⟨k, divides⟩ := structAlign_dvd aligned
  generalize (members.map Measured.align).foldr max 8 = align at *
  have small : k ≤ 4 := by
    by_contra larger
    have product := Nat.mul_le_mul large (Nat.succ_le_of_lt (not_le.mp larger))
    omega
  obtain rfl | rfl | rfl | rfl | rfl : k = 0 ∨ k = 1 ∨ k = 2 ∨ k = 3 ∨ k = 4 := by omega
  all_goals omega

theorem Draft.Tracks.size_eq (tracks : d.Tracks types regular members) (holds : regular)
    (inhabited : members ≠ []) (divides : 4 ∣ d.offset) : (structOf members).size = d.offset := by
  have total : stop Measured.align Measured.size 0 members = 8 * d.offset := by
    rw [(tracks.tight holds).stop_eq, tracks.total holds, Nat.zero_add]
  have still := (structAlign_dvd tracks.aligned).trans (Nat.mul_dvd_mul_left 8 divides)
  simp only [structOf, if_neg inhabited, total, roundUp_of_dvd still]
  exact Nat.mul_div_cancel_left d.offset (Nat.succ_pos 7)

theorem Draft.Tracks.lt_size (tracks : d.Tracks types regular members) (fails : ¬regular)
    (inhabited : members ≠ []) : d.offset < (structOf members).size := by
  have ahead := tracks.ahead fails
  have later := le_roundUp ((members.map Measured.align).foldr max 8)
    (stop Measured.align Measured.size 0 members)
  have whole := dvd_structAlign tracks.aligned
  have positive := Nat.pos_of_dvd_of_pos (structAlign_dvd tracks.aligned) (Nat.succ_pos 31)
  have bytes := whole.trans (dvd_roundUp positive (stop Measured.align Measured.size 0 members))
  simp only [structOf, if_neg inhabited]
  omega

variable {earlier : List Struct} {s : Struct} {p : Place} {typeName name : String} {noPrefix : Bool}
  {decls : List (List CDecl)}

theorem Draft.Tracks.mapsRight (tracks : d.Tracks types regular members) (holds : regular)
    (inhabited : members ≠ []) (divides : 4 ∣ d.offset) (typeName' : String) (decls : List CDecl) :
    MapsRight (.struct p typeName name noPrefix d.offset d.children)
      ⟨typeName', decls, d.offset, d.children.flatMap Layout.writeCOffsetCheck⟩ (structOf members) := by
  have size := tracks.size_eq holds inhabited divides
  have positions : (structOf members).placed.map (fun d => (d.start, d.decl)) =
      d.children.flatMap Layout.positions := by
    rw [← tracks.positions holds]
    simp only [structOf, List.map_map]
    rfl
  constructor
  case size => exact size
  case positions => exact positions
  case elements => exact tracks.elements holds
  case gapless =>
    have contiguous := contiguous_of_tight (tracks.tight holds)
    rwa [tracks.total holds, Nat.zero_add, ← size] at contiguous
  case apart =>
    have apart := @place_apart _ Measured.align Measured.size members 0
    exact List.pairwise_map.mpr apart
  case sizeAssert => exact size.symm
  case offsetAsserts =>
    intro check member
    obtain ⟨q, own, name, start⟩ := tracks.offsetAsserts check member
    rw [← positions] at own
    obtain ⟨placed, inside, rfl⟩ := List.mem_map.mp own
    exact ⟨placed, inside, name, start⟩

theorem Draft.Tracks.like (tracks : d.Tracks types regular members) (holds : regular)
    (inhabited : members ≠ []) (divides : 4 ∣ d.offset) :
    (structOf members).Like d.offset d.children := by
  have dvd := structAlign_dvd tracks.aligned
  have whole := dvd_structAlign tracks.aligned
  have positive := Nat.pos_of_dvd_of_pos dvd (Nat.succ_pos 31)
  constructor
  case size_eq => exact tracks.size_eq holds inhabited divides
  case positive => exact Nat.div_pos (Nat.le_of_dvd positive whole) (Nat.succ_pos 7)
  case divides => exact Nat.div_dvd_div whole dvd
  case inside => exact tracks.elements holds

/-- A struct behind those before it. -/
theorem structLayout_maps {sl : Layout} (known : Known types earlier)
    (resolved : ∀ f ∈ s.fields, f.Resolved earlier) (laid : structLayout 0 "root" s = some sl) :
    ∃ text compiled, visitRoot sl = some text ∧ text.typeName = s.name ∧
      compileStruct types text.decls = some compiled ∧ (MapsRight sl text compiled ↔ s.Whole) ∧
      (s.Whole → compiled.Like sl.getSize sl.children) := by
  obtain ⟨d, added, rfl⟩ := Option.map_eq_some_iff.mp laid
  obtain ⟨more, some, tracks⟩ := Draft.Tracks.start.addFields known resolved added
  obtain ⟨fill, tracks⟩ := tracks.pad (Nat.succ_pos 3)
  rw [List.nil_append, true_and] at tracks
  have divides : 4 ∣ (d.padOffsetWithUnused 0 4).offset := by
    rw [padOffsetWithUnused_eq (Nat.succ_pos 3)]
    exact dvd_roundUp (Nat.succ_pos 3) d.offset
  obtain ⟨decls, printed, measured⟩ := tracks.decls
  have compiled : compileStruct types decls.flatten = Option.some (structOf (more ++ fill)) := by
    rw [compileStruct, measured, Option.map_some]
  refine ⟨_, _, by rw [Draft.close, visitRoot, printed]; rfl, rfl, compiled, ?_, fun whole => ?_⟩
  · by_cases empty : s.fields = []
    · refine iff_of_false (fun right => ?_) fun whole => whole.inhabited empty
      rw [empty] at added
      obtain rfl := Option.some.inj added
      obtain rfl := Option.some.inj printed
      have none : more ++ fill = [] := (Option.some.inj measured).symm
      have size : (structOf (more ++ fill)).size = 0 := right.size
      rw [none] at size
      contradiction
    · have inhabited : more ++ fill ≠ [] := by simp [some empty]
      by_cases whole : ∀ f ∈ s.fields, f.Whole
      · exact iff_of_true (tracks.mapsRight whole inhabited divides _ _) ⟨empty, whole⟩
      · refine iff_of_false (fun right => ?_) fun all => whole all.unions
        exact (tracks.lt_size whole inhabited).ne' right.size
  · have inhabited : more ++ fill ≠ [] := by simp [some whole.inhabited]
    exact tracks.like whole.unions inhabited divides

end Closing

section Files

variable {file : List Struct}

/-- The types that follow from structs that are right. -/
theorem known_cons {c : CStruct} {sl : Layout} {s : Struct} {earlier : List Struct}
    (known : Known types earlier) (laid : structLayout 0 "root" s = some sl)
    (like : c.Like sl.getSize sl.children) : Known ((s.name, c) :: types) (s :: earlier) := by
  intro name found first
  rw [List.find?_cons] at first
  split at first
  · next same =>
    obtain rfl := Option.some.inj first
    have named : name == s.name := by rwa [BEq.comm]
    exact ⟨c, sl, by simp only [List.lookup_cons, named], laid, like⟩
  · next other =>
    obtain ⟨c', sl', known, laid', like'⟩ := known name found first
    have renamed : (name == s.name) = false := by rwa [BEq.comm]
    exact ⟨c', sl', by simpa only [List.lookup_cons, renamed] using known, laid', like'⟩

theorem header_known (parsed : Parsed file) (accepted : Accepted file) (whole : ∀ s ∈ file, s.Whole) :
    ∃ types, header file = some types ∧ Known types file := by
  induction file with
  | nil => exact ⟨[], rfl, fun name s first => absurd first (by simp)⟩
  | cons s earlier ih =>
    obtain ⟨own, parsed⟩ := parsed
    obtain ⟨sound, whole⟩ := List.forall_mem_cons.mp whole
    obtain ⟨laid, accepted⟩ := List.forall_mem_cons.mp accepted
    obtain ⟨types, printed, known⟩ := ih parsed accepted whole
    obtain ⟨sl, laid⟩ := Option.isSome_iff_exists.mp laid
    obtain ⟨text, c, visited, name, compiled, -, like⟩ := structLayout_maps known own laid
    refine ⟨(s.name, c) :: types, ?_, known_cons known laid (like sound)⟩
    simp only [header, printed, laid, visited, compiled, name, Option.bind_eq_bind, Option.bind_some]

/-- A struct behind structs that are right. -/
theorem structMaps_of_whole {s : Struct} {earlier : List Struct} (parsed : Parsed (s :: earlier))
    (accepted : Accepted (s :: earlier)) (whole : ∀ t ∈ earlier, t.Whole) :
    ∃ types sl text compiled, header earlier = some types ∧ structLayout 0 "root" s = some sl ∧
      visitRoot sl = some text ∧ compileStruct types text.decls = some compiled ∧
      (MapsRight sl text compiled ↔ s.Whole) := by
  obtain ⟨laid, accepted⟩ := List.forall_mem_cons.mp accepted
  obtain ⟨sl, laid⟩ := Option.isSome_iff_exists.mp laid
  obtain ⟨types, printed, known⟩ := header_known parsed.2 accepted whole
  obtain ⟨text, c, visited, -, compiled, right, -⟩ := structLayout_maps known parsed.1 laid
  exact ⟨types, sl, text, c, printed, laid, visited, compiled, right⟩

/-- The memory map is right exactly when every struct has a field, and every union a size that
is a multiple of its alignment. -/
theorem allRight_iff (parsed : Parsed file) (accepted : Accepted file) :
    AllRight file ↔ ∀ s ∈ file, s.Whole := by
  induction file with
  | nil => simp [AllRight]
  | cons s earlier ih =>
    rw [AllRight, List.forall_mem_cons, ih parsed.2 (List.forall_mem_cons.mp accepted).2, and_comm]
    refine and_congr_left fun whole => ?_
    obtain ⟨types, sl, text, c, printed, laid, visited, compiled, right⟩ :=
      structMaps_of_whole parsed accepted whole
    constructor
    · rintro ⟨types', sl', text', c', printed', laid', visited', compiled', maps⟩
      obtain rfl := Option.some.inj (printed.symm.trans printed')
      obtain rfl := Option.some.inj (laid.symm.trans laid')
      obtain rfl := Option.some.inj (visited.symm.trans visited')
      obtain rfl := Option.some.inj (compiled.symm.trans compiled')
      exact right.mp maps
    · intro sound
      exact ⟨types, sl, text, c, printed, laid, visited, compiled, right.mpr sound⟩

/-- A struct of all kinds, around another one. -/
def engineState : Struct where
  name := "engine_state_s"
  noPrefix := true
  fields := [.scalar ⟨.U08, "mode"⟩,
    .struct "pid" "pid_s" false [.scalar ⟨.U08, "kind"⟩, .scalar ⟨.S16, "offset"⟩],
    .arrayIterate (.struct "channels" "pid_s" false [.scalar ⟨.U08, "kind"⟩, .scalar ⟨.S16, "offset"⟩]) 2,
    .bitGroup [{ name := "running" }],
    .arrayIterate (.string ⟨"note", 3⟩) 2,
    .union [.scalar ⟨.U32, "raw"⟩, .array (.scalar ⟨.U16, "half"⟩) (2, none)],
    .array (.scalar ⟨.U16, "table"⟩) (3, some 2)]

def pidStruct : Struct where
  name := "pid_s"
  fields := [.scalar ⟨.U08, "kind"⟩, .scalar ⟨.S16, "offset"⟩]

theorem allRight_engineState : AllRight [engineState, pidStruct] ↔
    ∀ s ∈ [engineState, pidStruct], s.Whole := by
  have parsed : Parsed [engineState, pidStruct] := by
    simp [Parsed, engineState, pidStruct, Field.Resolved]
  exact allRight_iff parsed (by decide)

/-- A union of five bytes that is aligned as four. -/
def raggedStruct : Struct where
  name := "ragged_s"
  fields := [.union [.scalar ⟨.U32, "word"⟩, .array (.scalar ⟨.U08, "bytes"⟩) (5, none)],
    .scalar ⟨.U08, "after"⟩]

/-- The compiler needs 12 bytes where the layout has 8. -/
theorem ragged_not_right : Parsed [raggedStruct] ∧ Accepted [raggedStruct] ∧ ¬AllRight [raggedStruct] := by
  refine ⟨by simp [Parsed, raggedStruct, Field.Resolved], by decide, ?_⟩
  rintro ⟨-, types, sl, text, c, printed, laid, visited, compiled, right⟩
  obtain rfl := Option.some.inj printed
  have reported : (structLayout 0 "root" raggedStruct).map Layout.getSize = some 8 := by decide
  have sizeof : ((structLayout 0 "root" raggedStruct).bind visitRoot).bind
      (fun text => (compileStruct [] text.decls).map CStruct.size) = some 12 := by decide
  simp only [laid, visited, compiled, Option.bind_some, Option.map_some, Option.some.injEq] at reported sizeof
  have same := right.size
  omega

end Files

end FomeFw.Config
