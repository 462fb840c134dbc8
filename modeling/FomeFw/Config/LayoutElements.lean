import FomeFw.Config.CStructs

/-! What a layout says about addresses, and that it says the same at another offset. -/
namespace FomeFw.Config
open NaturalAlignment

/-- One element behind the other. -/
def repeated (dims : List Nat) (offset size : Nat) (inner : Nat → List CElement) : List CElement :=
  (List.range dims.prod).flatMap fun k => inner (offset + size * k)

def bitElement (address : Nat) (bits : List BitField) (i : Nat) : CElement :=
  match bits[i]? with
  | some bit => ⟨.bit, bit.name, address + i⟩
  | none => ⟨.fill, "", address + i⟩

mutual

/-- The elements of a child, by its offsets, which are counted from `add`. -/
def Layout.elements (add : Nat) : Layout → List CElement
  | .scalar p field => [⟨.number (cTypeName field.type) [], field.name, 8 * (add + p.offset)⟩]
  | .enum p field => [⟨.enum field.enumType field.type, field.name, 8 * (add + p.offset)⟩]
  | .string p field => [⟨.string field.size, field.name, 8 * (add + p.offset)⟩]
  | .unused p _ => [⟨.fill, "", 8 * (add + p.offset)⟩]
  | .bitGroup p bits => (List.range 32).map (bitElement (8 * (add + p.offset)) bits)
  | .union _ children => children.flatMap fun m =>
      repeated m.length (add + m.place.offset) m.field.type.size fun offset =>
        [⟨.overlaid (cTypeName m.field.type) m.length, m.field.name, 8 * offset⟩]
  | .array _ _ prototypeLayout length => prototypeLayout.arrayElements length add
  | .struct p typeName name _ _ children =>
    ⟨.struct typeName, name, 8 * (add + p.offset)⟩ :: elementsOf add children

/-- The elements of an array of a prototype; what is in a struct is counted from the element. -/
def Layout.arrayElements (dims : List Nat) (add : Nat) : Layout → List CElement
  | .scalar p field => repeated dims (add + p.offset) field.type.size fun offset =>
      [⟨.number (cTypeName field.type) dims, field.name, 8 * offset⟩]
  | .enum p field => repeated dims (add + p.offset) field.type.size fun offset =>
      [⟨.enum field.enumType field.type, field.name, 8 * offset⟩]
  | .string p field => repeated dims (add + p.offset) field.size fun offset =>
      [⟨.string field.size, field.name, 8 * offset⟩]
  | .struct p typeName name _ size children => repeated dims (add + p.offset) size fun offset =>
      ⟨.struct typeName, name, 8 * offset⟩ :: elementsOf offset children
  | _ => []

def elementsOf (add : Nat) : List Layout → List CElement
  | [] => []
  | l :: children => l.elements add ++ elementsOf add children

end

def Layout.children : Layout → List Layout
  | .struct _ _ _ _ _ children => children
  | _ => []

mutual

/-- A layout that starts later. Prototypes only move as a whole. -/
def Layout.shift (delta : Nat) : Layout → Layout
  | .struct p typeName name noPrefix size children =>
    .struct { p with offset := p.offset + delta } typeName name noPrefix size (shiftAll delta children)
  | l => l.mapPlace fun p => { p with offset := p.offset + delta }

def shiftAll (delta : Nat) : List Layout → List Layout
  | [] => []
  | l :: children => l.shift delta :: shiftAll delta children

end

def Draft.shift (delta : Nat) (d : Draft) : Draft where
  offset := d.offset + delta
  children := shiftAll delta d.children

variable {add base n : Nat} {d d' : Draft} {l : Layout} {children before after : List Layout}
  {dims : List Nat} {inner : Nat → List CElement}

section Elements

@[simp] theorem elementsOf_append :
    elementsOf add (before ++ after) = elementsOf add before ++ elementsOf add after := by
  induction before with
  | nil => rfl
  | cons l before ih => simp [elementsOf, ih]

@[simp] theorem shiftAll_append :
    shiftAll n (before ++ after) = shiftAll n before ++ shiftAll n after := by
  induction before with
  | nil => rfl
  | cons l before ih => simp [shiftAll, ih]

theorem repeated_shift (moves : ∀ offset, inner (offset + n) = (inner offset).map (CElement.shift (8 * n)))
    (offset size : Nat) : repeated dims (offset + n) size inner =
      (repeated dims offset size inner).map (CElement.shift (8 * n)) := by
  simp only [repeated, List.map_flatMap, ← moves]
  congr 1
  funext k
  congr 1
  omega

theorem element_shift (kind : ElementKind) (name : String) (offset : Nat) :
    [CElement.mk kind name (8 * (offset + n))] =
      [CElement.mk kind name (8 * offset)].map (CElement.shift (8 * n)) := by
  simp only [List.map_cons, List.map_nil, CElement.shift, List.cons.injEq, CElement.mk.injEq, true_and,
    and_true]
  omega

theorem bitElement_shift (address : Nat) (bits : List BitField) (i : Nat) :
    bitElement (address + 8 * n) bits i = (bitElement address bits i).shift (8 * n) := by
  simp only [bitElement]
  split
  · simp only [CElement.shift, CElement.mk.injEq, true_and]
    omega
  · simp only [CElement.shift, CElement.mk.injEq, true_and]
    omega

mutual

/-- Counting from further on. -/
theorem Layout.elements_add (add n : Nat) : ∀ l : Layout,
    l.elements (add + n) = (l.elements add).map (CElement.shift (8 * n))
  | .scalar p field | .enum p field | .string p field | .unused p field => by
    simp only [Layout.elements, Nat.add_right_comm add n]
    exact element_shift _ _ _
  | .bitGroup p bits => by
    simp only [Layout.elements, List.map_map, Nat.add_right_comm add n, Nat.mul_add 8 (add + p.offset) n]
    congr 1
    funext i
    exact bitElement_shift _ bits i
  | .union p members => by
    simp only [Layout.elements, List.map_flatMap, Nat.add_right_comm add n]
    congr 1
    funext m
    exact repeated_shift (fun offset => element_shift _ _ offset) _ _
  | .array kind p prototypeLayout length => by
    simp only [Layout.elements]
    exact prototypeLayout.arrayElements_add length add n
  | .struct p typeName name noPrefix size children => by
    simp only [Layout.elements, List.map_cons, elementsOf_add add n children, Nat.add_right_comm add n]
    have node := element_shift (n := n) (.struct typeName) name (add + p.offset)
    simp only [List.map_cons, List.map_nil, List.cons.injEq, and_true] at node
    rw [node]

theorem Layout.arrayElements_add (dims : List Nat) (add n : Nat) : ∀ l : Layout,
    l.arrayElements dims (add + n) = (l.arrayElements dims add).map (CElement.shift (8 * n))
  | .scalar p field | .enum p field | .string p field => by
    simp only [Layout.arrayElements, Nat.add_right_comm add n]
    exact repeated_shift (fun offset => element_shift _ _ offset) _ _
  | .struct p typeName name noPrefix size children => by
    simp only [Layout.arrayElements, Nat.add_right_comm add n]
    refine repeated_shift (fun offset => ?_) _ _
    have node := element_shift (n := n) (.struct typeName) name offset
    simp only [List.map_cons, List.map_nil, List.cons.injEq, and_true] at node
    rw [List.map_cons, node, elementsOf_add offset n children]
  | .unused _ _ | .bitGroup _ _ | .union _ _ | .array _ _ _ _ => rfl

theorem elementsOf_add (add n : Nat) : ∀ children : List Layout,
    elementsOf (add + n) children = (elementsOf add children).map (CElement.shift (8 * n))
  | [] => rfl
  | l :: children => by
    simp only [elementsOf, List.map_append, l.elements_add add n, elementsOf_add add n children]

end

theorem arrayElements_mapPlace (dims : List Nat) (add n : Nat) (l : Layout) :
    (l.mapPlace fun p => { p with offset := p.offset + n }).arrayElements dims add =
      l.arrayElements dims (add + n) := by
  cases l with
  | scalar p field | enum p field | string p field =>
    simp only [Layout.mapPlace, Layout.arrayElements, ← Nat.add_assoc, Nat.add_right_comm add p.offset]
  | struct p typeName name noPrefix size children =>
    simp only [Layout.mapPlace, Layout.arrayElements, ← Nat.add_assoc, Nat.add_right_comm add p.offset]
  | unused p size | bitGroup p bits | union p members | array kind p prototypeLayout length => rfl

mutual

theorem Layout.elements_shift (add n : Nat) : ∀ l : Layout,
    (l.shift n).elements add = l.elements (add + n)
  | .scalar p field | .enum p field | .string p field | .unused p field | .bitGroup p field => by
    simp only [Layout.shift, Layout.mapPlace, Layout.elements, ← Nat.add_assoc,
      Nat.add_right_comm add p.offset]
  | .union p members => by
    simp only [Layout.shift, Layout.mapPlace, Layout.elements, List.flatMap_map, ← Nat.add_assoc]
    congr 1
    funext m
    rw [Nat.add_right_comm add m.place.offset]
  | .array kind p prototypeLayout length => by
    simp only [Layout.shift, Layout.mapPlace, Layout.elements]
    exact arrayElements_mapPlace length add n prototypeLayout
  | .struct p typeName name noPrefix size children => by
    simp only [Layout.shift, Layout.elements, elementsOf_shift add n children, ← Nat.add_assoc,
      Nat.add_right_comm add p.offset]

theorem elementsOf_shift (add n : Nat) : ∀ children : List Layout,
    elementsOf add (shiftAll n children) = elementsOf (add + n) children
  | [] => rfl
  | l :: children => by
    simp only [shiftAll, elementsOf, l.elements_shift add n, elementsOf_shift add n children]

end

end Elements

section Padding

theorem getAlignedOffset_eq (positive : 0 < a) (offset : Nat) :
    getAlignedOffset offset a = roundUp a offset := by
  have small := Nat.mod_lt offset positive
  simp only [getAlignedOffset, roundUp, ne_eq, ite_not]
  split
  · rfl
  · exact Nat.add_sub_assoc small.le offset

/-- The padding that is written out in front of an aligned offset. -/
def fillTo (base : Nat) (d : Draft) (align : Nat) : List Layout :=
  if d.offset < roundUp align d.offset then
    [.unused ⟨d.offset, d.offset - base⟩ (roundUp align d.offset - d.offset)]
  else []

theorem padOffsetWithUnused_eq (positive : 0 < a) : d.padOffsetWithUnused base a =
    { offset := roundUp a d.offset, children := d.children ++ fillTo base d a } := by
  have later := le_roundUp a d.offset
  simp only [Draft.padOffsetWithUnused, getAlignedOffset_eq positive, fillTo]
  by_cases moved : d.offset < roundUp a d.offset
  · rw [if_pos moved, if_pos (by omega)]
  · rw [if_neg moved, if_neg (by omega), List.append_nil]
    obtain ⟨offset, children⟩ := d
    simp only [Draft.mk.injEq, and_true]
    exact later.antisymm (not_lt.mp moved)

theorem padOffsetWithUnused_shift (divides : a ∣ n) (positive : 0 < a) :
    (d.shift n).padOffsetWithUnused (base + n) a = (d.padOffsetWithUnused base a).shift n := by
  have rounded : roundUp a (d.offset + n) = roundUp a d.offset + n := by
    rw [Nat.add_comm, roundUp_add divides, Nat.add_comm]
  simp only [padOffsetWithUnused_eq positive, Draft.shift, fillTo, rounded, shiftAll_append,
    Nat.add_lt_add_iff_right, Nat.add_sub_add_right, Draft.mk.injEq, true_and]
  congr 1
  split
  · rfl
  · rfl

end Padding

section Places

variable {f g : Place → Place} {fields : List Field}

@[simp] theorem getSize_mapPlace (f : Place → Place) : ∀ l : Layout, (l.mapPlace f).getSize = l.getSize
  | .array kind p prototypeLayout length => by
    simp only [Layout.mapPlace, Layout.getSize, getSize_mapPlace f prototypeLayout]
  | .union p members => by
    simp only [Layout.mapPlace, Layout.getSize, List.map_map]
    rfl
  | .scalar .. | .enum .. | .string .. | .unused .. | .bitGroup .. | .struct .. => rfl

@[simp] theorem getAlignment_mapPlace (f : Place → Place) : ∀ l : Layout,
    (l.mapPlace f).getAlignment = l.getAlignment
  | .array kind p prototypeLayout length => by
    simp only [Layout.mapPlace, Layout.getAlignment, getAlignment_mapPlace f prototypeLayout]
  | .union p members => by
    simp only [Layout.mapPlace, Layout.getAlignment, List.map_map]
    rfl
  | .scalar .. | .enum .. | .string .. | .unused .. | .bitGroup .. | .struct .. => rfl

theorem mapPlace_mapPlace (f g : Place → Place) : ∀ l : Layout,
    (l.mapPlace f).mapPlace g = l.mapPlace (g ∘ f)
  | .array kind p prototypeLayout length => by
    simp only [Layout.mapPlace, mapPlace_mapPlace f g prototypeLayout, Function.comp_apply]
  | .union p members => by
    simp only [Layout.mapPlace, List.map_map]
    rfl
  | .scalar .. | .enum .. | .string .. | .unused .. | .bitGroup .. | .struct .. => rfl

@[simp] theorem place_mapPlace (f : Place → Place) (l : Layout) : (l.mapPlace f).place = f l.place := by
  cases l <;> rfl

/-- In its place. -/
def Layout.at (p : Place) (l : Layout) : Layout := l.mapPlace fun _ => p

theorem setOffset_setOffsetWithinStruct (l : Layout) (offset within : Nat) :
    (l.setOffset offset).setOffsetWithinStruct within = l.at ⟨offset, within⟩ := by
  simp only [Layout.setOffset, Layout.setOffsetWithinStruct, mapPlace_mapPlace, Layout.at]
  rfl

def Layout.isStruct : Layout → Bool
  | .struct .. => true
  | _ => false

theorem shift_eq_mapPlace (single : l.isStruct = false) :
    l.shift n = l.mapPlace fun p => { p with offset := p.offset + n } := by
  cases l with
  | struct => contradiction
  | _ => rfl

theorem at_shift (single : l.isStruct = false) (p : Place) :
    (l.at p).shift n = l.at { p with offset := p.offset + n } := by
  rw [shift_eq_mapPlace (by cases l <;> first | contradiction | rfl), Layout.at, mapPlace_mapPlace]
  rfl

theorem addItem_shift (single : l.isStruct = false) (divides : l.getAlignment ∣ n)
    (positive : 0 < l.getAlignment) :
    (d.shift n).addItem (base + n) l = (d.addItem base l).shift n := by
  simp only [Draft.addItem, padOffsetWithUnused_shift divides positive, setOffset_setOffsetWithinStruct]
  simp only [Draft.shift, shiftAll_append, shiftAll, at_shift single, Nat.add_sub_add_right,
    Draft.mk.injEq, and_true]
  omega

theorem close_shift (divides : 4 ∣ n) : (d.shift n).close (base + n) within structName name noPrefix =
    (d.close base within structName name noPrefix).shift n := by
  simp only [Draft.close, padOffsetWithUnused_shift divides (by decide), Layout.shift]
  simp only [Draft.shift, Nat.add_sub_add_right]

end Places

section Alignments

theorem ScalarType.size_pos (type : ScalarType) : 0 < type.size := by cases type <;> decide

theorem ScalarType.size_dvd (type : ScalarType) : type.size ∣ 4 := by cases type <;> decide

theorem max_dvd (left : a ∣ n) (right : b ∣ n) : max a b ∣ n := by
  rcases max_choice a b with choice | choice
  · rwa [choice]
  · rwa [choice]

theorem foldr_max_dvd {sizes : List Nat} (all : ∀ size ∈ sizes, size ∣ n) (start : b ∣ n) :
    sizes.foldr max b ∣ n := by
  induction sizes with
  | nil => exact start
  | cons size sizes ih =>
    obtain ⟨first, rest⟩ := List.forall_mem_cons.mp all
    exact max_dvd first (ih rest)

theorem foldr_max_dvd_of_ne_nil {sizes : List Nat} (some : sizes ≠ []) (all : ∀ size ∈ sizes, size ∣ n) :
    sizes.foldr max 0 ∣ n := by
  induction sizes with
  | nil => contradiction
  | cons size sizes ih =>
    obtain ⟨first, rest⟩ := List.forall_mem_cons.mp all
    cases sizes with
    | nil => simpa using first
    | cons second sizes => exact max_dvd first (ih (List.cons_ne_nil _ _) rest)

theorem le_foldr_max {sizes : List Nat} (member : size ∈ sizes) : size ≤ sizes.foldr max b := by
  induction sizes with
  | nil => exact absurd member List.not_mem_nil
  | cons first sizes ih =>
    rcases List.mem_cons.mp member with rfl | later
    · exact le_max_left _ _
    · exact (ih later).trans (le_max_right _ _)

/-- A layout can be put at a multiple of 4. -/
structure Layout.Aligned (l : Layout) : Prop where
  positive : 0 < l.getAlignment
  divides : l.getAlignment ∣ 4

theorem unionLayout_eq (made : unionLayout fields = some l) :
    ∃ members, l = .union {} members ∧ members ≠ [] := by
  simp only [unionLayout, Option.bind_eq_bind, Option.bind_eq_some_iff, Option.ite_none_left_eq_some,
    Option.some.injEq] at made
  obtain ⟨members, -, some, rfl⟩ := made
  exact ⟨members, rfl, some⟩

theorem aligned_union {members : List UnionMember} (some : members ≠ []) :
    (Layout.union p members).Aligned := by
  constructor
  · obtain ⟨m, members, rfl⟩ := List.exists_cons_of_ne_nil some
    exact lt_max_of_lt_left m.field.type.size_pos
  · refine foldr_max_dvd_of_ne_nil (by simpa using some) fun size member => ?_
    obtain ⟨m, -, rfl⟩ := List.mem_map.mp member
    exact m.field.type.size_dvd

/-- Layouts of prototypes. -/
theorem prototypeLayout_aligned {prototype : Field} (made : prototypeLayout prototype = some l) :
    l.Aligned := by
  cases prototype with
  | scalar field =>
    obtain rfl := Option.some.inj made
    exact ⟨field.type.size_pos, field.type.size_dvd⟩
  | enum field =>
    obtain rfl := Option.some.inj made
    exact ⟨field.type.size_pos, field.type.size_dvd⟩
  | string field =>
    obtain rfl := Option.some.inj made
    exact ⟨Nat.one_pos, Nat.one_dvd 4⟩
  | struct name structName noPrefix fields =>
    simp only [prototypeLayout, Option.bind_eq_bind, Option.bind_eq_some_iff, Option.some.injEq] at made
    obtain ⟨d, -, rfl⟩ := made
    exact ⟨Nat.succ_pos 3, Nat.dvd_refl 4⟩
  | array | arrayIterate | bitGroup | union | unused => simp [prototypeLayout] at made

end Alignments

section Shift

mutual

/-- A field is laid out in the same way further on, at a distance that keeps alignments. -/
theorem addField_shift (divides : 4 ∣ n) (base : Nat) (d : Draft) : ∀ f : Field,
    addField (base + n) (d.shift n) f = (addField base d f).map (Draft.shift n)
  | .scalar field | .enum field => by
    simp only [addField, Option.map_some, Option.some.injEq]
    exact addItem_shift rfl (field.type.size_dvd.trans divides) field.type.size_pos
  | .string field => by
    simp only [addField, Option.map_some, Option.some.injEq]
    exact addItem_shift rfl (Nat.one_dvd n) Nat.one_pos
  | .unused size => by
    simp only [addField, Option.map_some, Option.some.injEq]
    exact addItem_shift rfl (Nat.one_dvd n) Nat.one_pos
  | .bitGroup bitFields => by
    simp only [addField, bitGroupLayout]
    split
    · rfl
    · simp only [Option.map_some, Option.some.injEq]
      exact addItem_shift rfl divides (Nat.succ_pos 3)
  | .union fields => by
    simp only [addField]
    cases made : unionLayout fields with
    | none => rfl
    | some l =>
      obtain ⟨members, rfl, some⟩ := unionLayout_eq made
      have aligned := @aligned_union {} members some
      simp only [Option.map_some, Option.some.injEq]
      exact addItem_shift rfl (aligned.divides.trans divides) aligned.positive
  | .struct name structName noPrefix fields => by
    simp only [addField, padOffsetWithUnused_shift divides (Nat.succ_pos 3)]
    generalize d.padOffsetWithUnused base 4 = start
    have inner : addFields (start.shift n).offset { offset := (start.shift n).offset } fields =
        (addFields start.offset { offset := start.offset } fields).map (Draft.shift n) :=
      addFields_shift divides start.offset { offset := start.offset } fields
    have closed : ∀ e : Draft, (e.shift n).close (start.shift n).offset
        ((start.shift n).offset - (base + n)) structName name noPrefix =
        (e.close start.offset (start.offset - base) structName name noPrefix).shift n := by
      intro e
      rw [← close_shift divides]
      simp only [Draft.shift, Nat.add_sub_add_right]
    simp only [inner, Option.bind_eq_bind, Option.bind_map, Option.map_bind]
    congr 1
    funext e
    have size : ∀ l : Layout, (l.shift n).getSize = l.getSize := by
      intro l
      cases l with
      | struct => rfl
      | _ => exact getSize_mapPlace _ _
    simp only [Function.comp_apply, closed, size, Option.map_some, Option.some.injEq]
    simp only [Draft.shift, shiftAll_append, shiftAll, Draft.mk.injEq, and_true]
    omega
  | .array prototype (rows, rest) => by
    cases prototype with
    | scalar field =>
      simp only [addField, Option.map_some, Option.some.injEq]
      exact addItem_shift rfl (field.type.size_dvd.trans divides) field.type.size_pos
    | enum | string | struct | array | arrayIterate | bitGroup | union | unused => rfl
  | .arrayIterate prototype length => by
    simp only [addField, Option.bind_eq_bind]
    cases made : prototypeLayout prototype with
    | none => rfl
    | some l =>
      have aligned := prototypeLayout_aligned made
      simp only [Option.bind_some, Option.map_some, Option.some.injEq]
      exact addItem_shift rfl (aligned.divides.trans divides) aligned.positive

theorem addFields_shift (divides : 4 ∣ n) (base : Nat) (d : Draft) : ∀ fields : List Field,
    addFields (base + n) (d.shift n) fields = (addFields base d fields).map (Draft.shift n)
  | [] => rfl
  | f :: fields => by
    simp only [addFields, addField_shift divides base d f, Option.bind_eq_bind, Option.bind_map,
      Option.map_bind]
    congr 1
    funext d'
    exact addFields_shift divides base d' fields

end

end Shift

end FomeFw.Config
