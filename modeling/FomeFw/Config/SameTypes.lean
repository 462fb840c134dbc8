import FomeFw.Config.FieldGroups

/-! What the new generator does with one more field, and that its size is that of the old one when
both know the same types. -/
namespace FomeFw.Config
open NaturalAlignment

section Drafts

variable {base : Nat} {d d' : Draft} {f : Field} {fields : List Field} {l : Layout} {name : String}

theorem addFields_concat :
    addFields base d (fields ++ [f]) = (addFields base d fields).bind (addField base · f) := by
  induction fields generalizing d with
  | nil =>
    simp only [List.nil_append, addFields, Option.bind_eq_bind, Option.bind_some]
    cases addField base d f <;> rfl
  | cons first fields ih =>
    simp only [List.cons_append, addFields, ih, Option.bind_eq_bind, Option.bind_assoc]

def Draft.fieldOffsets (d : Draft) : List FieldOffset := d.children.flatMap Layout.fieldOffsets

theorem fieldOffsets_padOffsetWithUnused (positive : 0 < a) :
    (d.padOffsetWithUnused base a).fieldOffsets = d.fieldOffsets := by
  simp only [padOffsetWithUnused_eq positive, Draft.fieldOffsets, List.flatMap_append, fillTo]
  split
  · simp [Layout.fieldOffsets]
  · simp

@[simp] theorem fieldName_mapPlace (p : Place → Place) : ∀ l : Layout,
    (l.mapPlace p).fieldName = l.fieldName
  | .array kind _ prototypeLayout length => by
    simp only [Layout.mapPlace, Layout.fieldName, fieldName_mapPlace p prototypeLayout]
  | .scalar .. | .enum .. | .string .. | .unused .. | .bitGroup .. | .union .. | .struct .. => rfl

/-- Of one field. -/
structure Draft.Takes (d d' : Draft) (name : String) (align size : Nat) : Prop where
  offset : d'.offset = roundUp align d.offset + size
  fieldOffsets : d'.fieldOffsets = d.fieldOffsets ++ [⟨name, roundUp align d.offset, none⟩]

theorem addItem_eq (positive : 0 < l.getAlignment) : (d.addItem base l).offset =
    roundUp l.getAlignment d.offset + l.getSize ∧ (d.addItem base l).fieldOffsets = d.fieldOffsets ++
      (l.at ⟨roundUp l.getAlignment d.offset, roundUp l.getAlignment d.offset - base⟩).fieldOffsets := by
  have padded := @fieldOffsets_padOffsetWithUnused base d _ positive
  rw [padOffsetWithUnused_eq positive] at padded
  constructor
  · simp only [Draft.addItem, padOffsetWithUnused_eq positive]
  · rw [← padded]
    simp only [Draft.addItem, padOffsetWithUnused_eq positive, setOffset_setOffsetWithinStruct,
      Draft.fieldOffsets, List.flatMap_append, List.flatMap_singleton]

theorem addItem_takes (positive : 0 < l.getAlignment)
    (single : ∀ p, (l.at p).fieldOffsets = [⟨l.fieldName, p.offsetWithinStruct, none⟩]) :
    d.Takes (d.addItem 0 l) l.fieldName l.getAlignment l.getSize := by
  obtain ⟨offset, fieldOffsets⟩ := @addItem_eq 0 d l positive
  rw [single] at fieldOffsets
  exact ⟨offset, fieldOffsets⟩

theorem addBitGroup_eq (names : List String) :
    (d.addItem 0 (.bitGroup {} (names.map ({ name := · })))).offset = roundUp 4 d.offset + 4 ∧
      (d.addItem 0 (.bitGroup {} (names.map ({ name := · })))).fieldOffsets =
        d.fieldOffsets ++ names.mapIdx fun i name => ⟨name, roundUp 4 d.offset, some i⟩ := by
  obtain ⟨offset, fieldOffsets⟩ :=
    @addItem_eq 0 d (.bitGroup {} (names.map ({ name := · }))) (Nat.succ_pos 3)
  refine ⟨offset, fieldOffsets.trans (congrArg (d.fieldOffsets ++ ·) ?_)⟩
  refine List.mapIdx_eq_iff.mpr fun i => ?_
  simp [List.getElem?_mapIdx, Layout.getAlignment, Function.comp_def]

/-- A struct is laid out where it comes to stand as it is in an array. -/
theorem addStruct_takes {structName : String} {noPrefix : Bool}
    (added : addField 0 d (.struct name structName noPrefix fields) = some d') :
    ∃ l, prototypeLayout (.struct name structName noPrefix fields) = some l ∧ l.fieldName = name ∧
      l.getAlignment = 4 ∧ d.Takes d' name 4 l.getSize := by
  have moved := @dvd_roundUp 4 (Nat.succ_pos 3) d.offset
  simp only [addField, padOffsetWithUnused_eq (Nat.succ_pos 3), Option.bind_eq_bind, Option.bind_eq_some_iff,
    Option.some.injEq] at added
  obtain ⟨inner, laid, rfl⟩ := added
  have shifted := addFields_shift moved 0 { offset := 0 } fields
  simp only [Draft.shift, shiftAll, Nat.zero_add] at shifted
  rw [shifted] at laid
  obtain ⟨e, made, rfl⟩ := Option.map_eq_some_iff.mp laid
  have rounded : roundUp 4 (e.offset + roundUp 4 d.offset) = roundUp 4 e.offset + roundUp 4 d.offset := by
    rw [Nat.add_comm, roundUp_add moved, Nat.add_comm]
  refine ⟨e.close 0 0 structName name noPrefix, ?_, rfl, rfl, ?_, ?_⟩
  · simp only [prototypeLayout, made, Option.bind_eq_bind, Option.bind_some]
  · simp only [Draft.close, padOffsetWithUnused_eq (Nat.succ_pos 3), Layout.getSize, Draft.shift, rounded,
      Nat.add_sub_cancel, Nat.sub_zero]
  · have padded := @fieldOffsets_padOffsetWithUnused 0 d 4 (Nat.succ_pos 3)
    rw [padOffsetWithUnused_eq (Nat.succ_pos 3)] at padded
    rw [← padded]
    simp only [Draft.fieldOffsets, List.flatMap_append, List.flatMap_singleton]
    rfl

end Drafts

section Types

variable {st : ReaderState} {ps : ParseState} {cf : ConfigField} {s : ConfigStructure} {t : Struct}
  {type : String} {structures : List ConfigStructure} {structs : List Struct}
  {sizes : List (String × Nat)} {typedefs : List (String × Typedef)}

/-- What another struct needs to know of a struct that has been read. -/
structure SameStruct (s : ConfigStructure) (t : Struct) : Prop where
  name : s.name = t.name
  ordinary : Ordinary s.name
  size : ∀ sl, structLayout 0 "root" t = some sl → sl.getSize = s.totalSize

structure SameCustom (size : String × Nat) (typedef : String × Typedef) : Prop where
  name : size.1 = typedef.1
  ordinary : Ordinary size.1
  size : size.2 = typedef.2.size

/-- Both know the same types. -/
structure SameTypes (st : ReaderState) (ps : ParseState) : Prop where
  structs : List.Forall₂ SameStruct st.structures ps.structs
  customs : List.Forall₂ SameCustom st.tsCustomSize ps.typedefs

theorem find_sameStruct (same : List.Forall₂ SameStruct structures structs) (type : String) :
    structures.find? (·.name = type) = none ∧ structs.find? (·.name = type) = none ∨
      ∃ s t, structures.find? (·.name = type) = some s ∧ structs.find? (·.name = type) = some t ∧
        SameStruct s t ∧ Ordinary type := by
  induction same with
  | nil => exact .inl ⟨rfl, rfl⟩
  | @cons s t _ _ own _ ih =>
    by_cases named : s.name = type
    · rw [List.find?_cons_of_pos (by simp [named]), List.find?_cons_of_pos (by simp [← own.name, named])]
      exact .inr ⟨s, t, rfl, rfl, own, named ▸ own.ordinary⟩
    · rw [List.find?_cons_of_neg (by simp [named]), List.find?_cons_of_neg (by simp [← own.name, named])]
      exact ih

theorem lookup_sameCustom (same : List.Forall₂ SameCustom sizes typedefs) (type : String) :
    sizes.lookup type = none ∧ typedefs.lookup type = none ∨ ∃ typedef,
      sizes.lookup type = some typedef.size ∧ typedefs.lookup type = some typedef ∧ Ordinary type := by
  induction same with
  | nil => exact .inl ⟨rfl, rfl⟩
  | @cons c typedef sizes typedefs own _ ih =>
    obtain ⟨name, size⟩ := c
    obtain ⟨name', typedef⟩ := typedef
    obtain ⟨alike, ordinary, sized⟩ := own
    dsimp only at alike ordinary sized
    subst alike sized
    by_cases named : type = name
    · subst named
      exact .inr ⟨typedef, List.lookup_cons_self, List.lookup_cons_self, ordinary⟩
    · rw [List.lookup_cons, List.lookup_cons, beq_false_of_ne named]
      exact ih

/-- A type of which a custom type or a struct cannot have the name. -/
theorem SameTypes.unknown (same : SameTypes st ps) (basic : ¬Ordinary type) :
    st.structures.find? (·.name = type) = none ∧ st.tsCustomSize.lookup type = none := by
  constructor
  · rcases find_sameStruct same.structs type with ⟨none, -⟩ | ⟨_, _, -, -, -, ordinary⟩
    · exact none
    · exact absurd ordinary basic
  · rcases lookup_sameCustom same.customs type with ⟨none, -⟩ | ⟨_, -, -, ordinary⟩
    · exact none
    · exact absurd ordinary basic

theorem findByCtype_eq {scalar : ScalarType} (found : ScalarType.findByCtype type = some scalar) :
    type = "floatms_t" ∧ scalar = .F32 ∨ type = scalar.cType := by
  simp only [ScalarType.findByCtype] at found
  split at found
  · next other =>
    have float : ScalarType.values.find? (·.cType = "float") = some .F32 := by decide
    rw [float] at found
    exact .inl ⟨other, (Option.some.inj found).symm⟩
  · have named := List.find?_some found
    exact .inr (of_decide_eq_true named).symm

/-- A type of the C language. -/
structure BasicType (type : String) (scalar : ScalarType) : Prop where
  notBit : equalsIgnoreCase "boolean" type = false
  notDirective : equalsIgnoreCase "directive" type = false
  size : ∀ size ∈ TypesHelper.getPrimitiveSize type, size = scalar.size

theorem basicType {scalar : ScalarType} (found : ScalarType.findByCtype type = some scalar) :
    BasicType type scalar := by
  obtain ⟨rfl, rfl⟩ | rfl := findByCtype_eq found
  · exact ⟨by decide, by decide, by decide⟩
  · cases scalar <;> exact ⟨by decide, by decide, by decide⟩

theorem findByCtype_cType (scalar : ScalarType) :
    (ScalarType.findByCtype scalar.cType).map ScalarType.size = some scalar.size := by
  cases scalar <;> decide

end Types

section Elements

variable {st : ReaderState} {ps : ParseState} {cf : ConfigField} {f : Field} {d d' : Draft} {l : Layout}
  {type name : String} {size : Nat}

theorem exitScalarField_plain (same : SameTypes st ps)
    (made : ps.exitScalarField cf.type cf.name = some f) :
    cf.isBit = false ∧ cf.isDirective = false := by
  rcases find_sameStruct same.structs cf.type with ⟨-, noStruct⟩ | ⟨_, _, -, -, -, ordinary⟩
  · rcases lookup_sameCustom same.customs cf.type with ⟨-, noTypedef⟩ | ⟨_, -, -, ordinary⟩
    · rw [ParseState.exitScalarField, noStruct, noTypedef] at made
      obtain ⟨scalar, found, -⟩ := Option.map_eq_some_iff.mp made
      have basic := basicType found
      exact ⟨basic.notBit, basic.notDirective⟩
    · exact ordinary.2
  · exact ordinary.2

/-- How the alignment of the new generator comes from that of the old one. -/
def Aligns (st : ReaderState) (ps : ParseState) (cf : ConfigField) (align : Nat) : Prop :=
  st.alignmentOf cf = align ∨ align = 1 ∧
    (st.alignmentOf cf = 0 ∨ ∃ size ∈ ps.stringSize cf.type, st.alignmentOf cf = size % 8)

/-- One value of the field of a type has the same size. -/
theorem exitScalarField_fits (same : SameTypes st ps) (named : cf.name ≠ "")
    (made : ps.exitScalarField cf.type cf.name = some f) (sized : st.getElementSize cf = some size)
    (laid : prototypeLayout f = some l) :
    l.fieldName = cf.name ∧ l.getSize = size ∧ Aligns st ps cf l.getAlignment := by
  rw [ReaderState.getElementSize, if_neg named, ReaderState.getStructure] at sized
  rw [Aligns, ReaderState.alignmentOf, ReaderState.getStructure, ParseState.stringSize]
  rcases find_sameStruct same.structs cf.type with
    ⟨noStruct, noStruct'⟩ | ⟨s, t, struct, struct', sameStruct, ordinary⟩
  · rcases lookup_sameCustom same.customs cf.type with
      ⟨noCustom, noTypedef⟩ | ⟨typedef, custom, custom', ordinary⟩
    · rw [ParseState.exitScalarField, noStruct', noTypedef] at made
      rw [noStruct, noCustom] at sized ⊢
      obtain ⟨scalar, found, rfl⟩ := Option.map_eq_some_iff.mp made
      obtain rfl := Option.some.inj laid
      have basic := (basicType found).size size sized
      dsimp only at sized
      rw [sized, basic]
      refine ⟨rfl, rfl, ?_⟩
      cases scalar <;> first | exact .inl rfl | exact .inr ⟨rfl, .inl rfl⟩
    · rw [ParseState.exitScalarField, noStruct', custom'] at made
      rw [noStruct, custom] at sized ⊢
      rw [ordinary.1, noStruct', custom']
      obtain rfl := Option.some.inj sized
      cases typedef with
      | scalar scalar =>
        obtain ⟨again, found, rfl⟩ := Option.map_eq_some_iff.mp made
        obtain rfl := Option.some.inj laid
        have sizes := findByCtype_cType scalar
        rw [found, Option.map_some, Option.some.injEq] at sizes
        refine ⟨rfl, sizes, .inl ?_⟩
        rw [Layout.getAlignment, sizes]
        cases scalar <;> rfl
      | enum scalar endBit values =>
        obtain rfl := Option.some.inj made
        obtain rfl := Option.some.inj laid
        refine ⟨rfl, rfl, .inl ?_⟩
        cases scalar <;> rfl
      | string length =>
        obtain rfl := Option.some.inj made
        obtain rfl := Option.some.inj laid
        exact ⟨rfl, rfl, .inr ⟨rfl, .inr ⟨length, rfl, rfl⟩⟩⟩
  · rw [ParseState.exitScalarField, struct'] at made
    rw [struct] at sized ⊢
    rw [ordinary.1]
    obtain rfl := Option.some.inj sized
    obtain rfl := Option.some.inj made
    simp only [prototypeLayout, Option.bind_eq_bind, Option.bind_eq_some_iff, Option.some.injEq] at laid
    obtain ⟨d, laid, rfl⟩ := laid
    refine ⟨rfl, ?_, .inl rfl⟩
    have whole := sameStruct.size (d.close 0 0 t.name "root" t.noPrefix) (by simp [structLayout, laid])
    exact whole

/-- A value that is not in an array. -/
theorem addScalarField_takes (made : ps.exitScalarField type name = some f)
    (added : addField 0 d f = some d') :
    ∃ l, prototypeLayout f = some l ∧ d.Takes d' l.fieldName l.getAlignment l.getSize := by
  cases f with
  | scalar field =>
    obtain rfl := Option.some.inj added
    exact ⟨_, rfl, addItem_takes field.type.size_pos fun p => rfl⟩
  | enum field =>
    obtain rfl := Option.some.inj added
    exact ⟨_, rfl, addItem_takes field.type.size_pos fun p => rfl⟩
  | string field =>
    obtain rfl := Option.some.inj added
    exact ⟨_, rfl, addItem_takes Nat.one_pos fun p => rfl⟩
  | struct name structName noPrefix fields =>
    obtain ⟨l, laid, rfl, aligned, takes⟩ := addStruct_takes added
    exact ⟨l, laid, aligned ▸ takes⟩
  | array | arrayIterate | bitGroup | union | unused =>
    unfold ParseState.exitScalarField at made
    split at made <;> simp at made

theorem addArrayIterate_takes {length : Nat} (added : addField 0 d (.arrayIterate f length) = some d') :
    ∃ l, prototypeLayout f = some l ∧ d.Takes d' l.fieldName l.getAlignment (l.getSize * length) := by
  simp only [addField, Option.bind_eq_bind, Option.bind_eq_some_iff, Option.some.injEq] at added
  obtain ⟨l, laid, rfl⟩ := added
  refine ⟨l, laid, addItem_takes (prototypeLayout_aligned laid).positive fun p => ?_⟩
  simp only [Layout.at, Layout.mapPlace, Layout.fieldOffsets, Layout.fieldName, fieldName_mapPlace]
  rfl

theorem addArray_takes {rows : Nat} {rest : Option Nat}
    (added : addField 0 d (.array f (rows, rest)) = some d') :
    ∃ l, prototypeLayout f = some l ∧
      d.Takes d' l.fieldName l.getAlignment ((rows :: rest.toList).foldl (· * ·) l.getSize) := by
  cases f with
  | scalar field =>
    obtain rfl := Option.some.inj added
    exact ⟨_, rfl, addItem_takes field.type.size_pos fun p => rfl⟩
  | enum | string | struct | array | arrayIterate | bitGroup | union | unused => simp [addField] at added

/-- Every field is of one value of its type. -/
theorem exitField_cases (made : ps.exitField cf = some f) : ∃ prototype,
    ps.exitScalarField cf.type cf.name = some prototype ∧ (∀ bits, f ≠ .bitGroup bits) ∧
      ∀ d d', addField 0 d f = some d' → ∃ l, prototypeLayout prototype = some l ∧
        d.Takes d' l.fieldName l.getAlignment (cf.arraySizes.foldl (· * ·) l.getSize) := by
  unfold ParseState.exitField at made
  split at made
  · next single =>
    refine ⟨f, made, ?_, fun d d' added => ?_⟩
    · rintro bits rfl
      unfold ParseState.exitScalarField at made
      split at made <;> simp at made
    · rw [single]
      exact addScalarField_takes made added
  · obtain ⟨prototype, element, made⟩ := Option.bind_eq_some_iff.mp made
    split at made
    · next iterated sizes =>
      obtain rfl := Option.some.inj made
      refine ⟨prototype, element, nofun, fun d d' added => ?_⟩
      rw [sizes]
      exact addArrayIterate_takes added
    · next iterated sizes =>
      obtain rfl := Option.some.inj made
      refine ⟨prototype, element, nofun, fun d d' added => ?_⟩
      rw [sizes]
      exact addArray_takes added
    · next iterated sizes =>
      obtain rfl := Option.some.inj made
      refine ⟨prototype, element, nofun, fun d d' added => ?_⟩
      rw [sizes]
      exact addArray_takes added
    · contradiction

/-- A field is as large in both, and aligned in the new way. -/
theorem exitField_takes (same : SameTypes st ps) (named : cf.name ≠ "") (made : ps.exitField cf = some f)
    (sized : st.getSize cf none = some size) (added : addField 0 d f = some d') :
    ∃ align, 0 < align ∧ Aligns st ps cf align ∧ d.Takes d' cf.name align size := by
  obtain ⟨prototype, element, -, takes⟩ := exitField_cases made
  obtain ⟨l, laid, takes⟩ := takes d d' added
  have plain := (exitScalarField_plain same element).1
  simp only [ReaderState.getSize, plain, Bool.false_eq_true, if_false] at sized
  obtain ⟨one, known, rfl⟩ := Option.map_eq_some_iff.mp sized
  obtain ⟨name, equal, aligns⟩ := exitScalarField_fits same named element known laid
  rw [name, equal] at takes
  exact ⟨l.getAlignment, (prototypeLayout_aligned laid).positive, aligns, takes⟩

end Elements

end FomeFw.Config
