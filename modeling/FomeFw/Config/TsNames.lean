import FomeFw.Config.TsMembers

/-! The names of the lines for the tuning software, and all that the lines are to be. -/
namespace FomeFw.Config

/-- What is printed has these names, and leaves the prefixer as `after`. -/
def Printer.Names (print : Printer) (before : StructNamePrefixer) (names : List String)
    (after : StructNamePrefixer) : Prop :=
  ∀ lines p, print before = some (lines, p) → lines.filterMap TsLine.name? = names ∧ p = after

variable {p q r : StructNamePrefixer} {names more : List String} {first second print : Printer}

/-- The path of the structs around. -/
def StructNamePrefixer.path (p : StructNamePrefixer) : String := String.join p.stack

section Printing

theorem Printer.Names.nothing : Printer.Names (fun p => some ([], p)) p [] p := by
  rintro lines q printed
  obtain ⟨rfl, rfl⟩ := Prod.mk.inj (Option.some.inj printed)
  exact ⟨rfl, rfl⟩

theorem Printer.Names.line {line : StructNamePrefixer → TsLine} :
    (Printer.line line).Names p (line p).name?.toList p := by
  rintro lines q printed
  obtain ⟨rfl, rfl⟩ := Prod.mk.inj (Option.some.inj printed)
  cases named : (line p).name? <;> simp [named]

theorem Printer.Names.andThen (named : first.Names p names q) (then' : second.Names q more r) :
    (first.andThen second).Names p (names ++ more) r := by
  intro lines end' printed
  simp only [Printer.andThen, Option.bind_eq_bind, Option.bind_eq_some_iff, Option.some.injEq,
    Prod.mk.injEq] at printed
  obtain ⟨⟨lines, q'⟩, one, ⟨lines', r'⟩, two, rfl, rfl⟩ := printed
  obtain ⟨rfl, rfl⟩ := named lines q' one
  obtain ⟨rfl, rfl⟩ := then' lines' r' two
  exact ⟨List.filterMap_append .., rfl⟩

theorem Printer.Names.forEach {α : Type} {print : α → Printer} {names : α → List String} {l : List α}
    (each : ∀ a ∈ l, (print a).Names p (names a) p) :
    (Printer.forEach l print).Names p (l.flatMap names) p := by
  induction l with
  | nil => exact .nothing
  | cons a l ih =>
    obtain ⟨own, others⟩ := List.forall_mem_cons.mp each
    exact own.andThen (ih others)

/-- The index is gone afterwards. -/
theorem Printer.Names.indexed (plain : p.idx = none) {i : Nat}
    (named : print.Names (p.setIndex i) names q) (same : q.stack = p.stack) :
    (Printer.indexed i print).Names p names p := by
  intro lines after printed
  simp only [Printer.indexed, Option.map_eq_some_iff, Prod.mk.injEq] at printed
  obtain ⟨⟨lines, q'⟩, inside, rfl, rfl⟩ := printed
  obtain ⟨rfl, rfl⟩ := named lines q' inside
  refine ⟨rfl, ?_⟩
  obtain ⟨stack, idx⟩ := p
  obtain rfl : idx = none := plain
  simp only [StructNamePrefixer.clearIndex, same]

/-- A prefix takes the index with it. -/
theorem Printer.Names.prefixed {name : String}
    (named : print.Names (p.push name) names (p.push name)) :
    (Printer.prefixed name print).Names p names ⟨p.stack, none⟩ := by
  intro lines after printed
  simp only [Printer.prefixed, Option.map_eq_some_iff, Prod.mk.injEq] at printed
  obtain ⟨⟨lines, q⟩, inside, rfl, rfl⟩ := printed
  obtain ⟨rfl, rfl⟩ := named lines q inside
  simp [StructNamePrefixer.pop, StructNamePrefixer.push]

theorem path_push (p : StructNamePrefixer) (name : String) :
    (p.push name).path = p.path ++ (name ++ p.index ++ "_") := by
  simp [StructNamePrefixer.path, StructNamePrefixer.push, String.join_append]

end Printing

section Layouts

variable {add : Nat}

theorem visit_scalar_names (field : ScalarField) (offset : Nat) (length : List Nat) :
    (field.visit offset length).Names p
      (if length.head? = some 0 then [] else [fullName p.path p.index field.name]) p := by
  match length with
  | [] => exact .line
  | 0 :: dims => exact .nothing
  | 1 :: dims => exact .line
  | (d + 2) :: dims => exact .line

theorem visit_enum_names (field : EnumField) (offset : Nat) :
    (field.visit offset).Names p [fullName p.path p.index field.name] p := by
  intro lines q printed
  simp only [EnumField.visit] at printed
  split at printed
  · contradiction
  · obtain ⟨rfl, rfl⟩ := Prod.mk.inj (Option.some.inj printed)
    exact ⟨rfl, rfl⟩

theorem visit_string_names (field : StringField) (offset : Nat) :
    (field.visit offset).Names p [fullName p.path p.index field.name] p := .line

/-- An array that is spelt out. -/
theorem visit_each_names (plain : p.idx = none) {print : Nat → Printer} {names : Nat → List String}
    (each : ∀ i, ∃ q, q.stack = p.stack ∧ (print i).Names (p.setIndex i) (names i) q) (n : Nat) :
    (Printer.forEach (List.range n) fun i => .indexed i (print i)).Names p
      ((List.range n).flatMap names) p := by
  refine .forEach fun i _ => ?_
  obtain ⟨q, same, named⟩ := each i
  exact named.indexed plain same

theorem flatMap_zipIdx (bits : List BitField) (i : Nat) (f : BitField → String) :
    ((bits.zipIdx i).flatMap fun bit => [f bit.1]) = bits.map f := by
  induction bits generalizing i with
  | nil => rfl
  | cons bit bits ih => simp [List.zipIdx_cons, ih]

mutual

/-- Without an index a layout prints its own names, and leaves the prefixer as it was. -/
theorem Layout.visit_names (add : Nat) : ∀ (l : Layout), l.Laid → l.Prefixed →
    ∀ p : StructNamePrefixer, p.idx = none → (l.visit add).Names p (l.names p.path "") p
  | .scalar q field, _, _, ⟨stack, none⟩, rfl => visit_scalar_names field _ []
  | .enum q field, _, _, ⟨stack, none⟩, rfl => visit_enum_names field _
  | .string q field, _, _, ⟨stack, none⟩, rfl => visit_string_names field _
  | .unused q size, _, _, ⟨stack, none⟩, rfl => .line
  | .bitGroup q bits, _, _, ⟨stack, none⟩, rfl => by
    simp only [Layout.visit, Layout.names, ← flatMap_zipIdx bits 0]
    exact .forEach fun bit _ => .line
  | .union q members, _, _, ⟨stack, none⟩, rfl => by
    simp only [Layout.visit, Layout.names]
    exact .forEach fun m _ => visit_scalar_names m.field _ m.length
  | .array .plain q (.scalar _ field) dims, _, _, ⟨stack, none⟩, rfl => by
    exact visit_scalar_names field _ dims
  | .array .iterateScalar q (.scalar _ field) [n], _, _, ⟨stack, none⟩, rfl =>
    visit_each_names rfl (fun i => ⟨.setIndex ⟨stack, none⟩ i, rfl, visit_scalar_names field _ []⟩) n
  | .array .iterateScalar q (.enum _ field) [n], _, _, ⟨stack, none⟩, rfl =>
    visit_each_names rfl (fun i => ⟨.setIndex ⟨stack, none⟩ i, rfl, visit_enum_names field _⟩) n
  | .array .iterateScalar q (.string _ field) [n], _, _, ⟨stack, none⟩, rfl =>
    visit_each_names rfl (fun i => ⟨.setIndex ⟨stack, none⟩ i, rfl, visit_string_names field _⟩) n
  | .array .iterateStruct q (.struct r typeName name noPrefix size children) [n], laid, marked,
      ⟨stack, none⟩, rfl => by
    obtain ⟨rfl, marked⟩ := marked
    simp only [Layout.visit, Layout.names, List.headD_cons]
    refine visit_each_names rfl (fun i => ⟨⟨stack, none⟩, rfl, ?_⟩) n
    have inside := visitAll_names (q.offset + add + size * i) children 0 size laid.2 marked
      (StructNamePrefixer.push ⟨stack, some (i + 1)⟩ name) rfl
    have named := Printer.Names.prefixed inside
    rw [path_push] at named
    exact named
  | .struct q typeName name noPrefix size children, laid, marked, ⟨stack, none⟩, rfl => by
    simp only [Layout.visit, Layout.names]
    cases noPrefix with
    | true => exact visitAll_names add children _ _ laid marked ⟨stack, none⟩ rfl
    | false =>
      have inside := visitAll_names add children _ _ laid marked
        (StructNamePrefixer.push ⟨stack, none⟩ name) rfl
      have named := Printer.Names.prefixed inside
      rw [path_push] at named
      exact named

theorem visitAll_names (add : Nat) : ∀ (children : List Layout) (pos stop : Nat),
    LaidFrom pos children stop → AllPrefixed children → ∀ p : StructNamePrefixer, p.idx = none →
      (visitAll add children).Names p (namesOf p.path children) p
  | [], _, _, _, _, _, _ => .nothing
  | l :: children, pos, stop, laid, marked, p, plain => by
    have own := l.visit_names add laid.2.1 marked.1 p plain
    exact own.andThen (visitAll_names add children _ stop laid.2.2 marked.2 p plain)

end

end Layouts

section Description

variable {earlier : List Struct} {s : Struct} {sl : Layout} {types : CTypes} {text : CStructText}
  {compiled : CStruct}

/-- The lines are about the members of a struct that has the elements of the layout. -/
theorem describes_iff {c : CStruct} (laid : structLayout 0 "root" s = some sl)
    (elements : c.elements = elementsOf 0 sl.children) :
    (∃ lines, tsLines sl = some lines ∧ TsDescribes sl lines c) ↔ AllStraight s.fields := by
  obtain ⟨d, added, rfl⟩ := Option.map_eq_some_iff.mp laid
  have follows := addFields_follows s.fields (Draft.Follows.empty 0) added
  rw [true_and] at follows
  obtain ⟨laid, straight⟩ := follows.close s.name "root" s.noPrefix 0
  have members : membersOf ((d.close 0 0 s.name "root" s.noPrefix).elements 0) = c.members := by
    rw [CStruct.members, elements]
    rfl
  have shown := Layout.shown 0 _ laid {}
  have named := Layout.visit_names 0 _ laid
  rw [members, straight] at shown
  generalize d.close 0 0 s.name "root" s.noPrefix = sl at *
  unfold tsLines
  cases printed : sl.visit 0 {} with
  | none =>
    rw [printed] at shown
    exact iff_of_false (by simp) shown
  | some out =>
    obtain ⟨lines, p⟩ := out
    rw [printed] at shown
    simp only [Option.map_some, Option.some.injEq, exists_eq_left']
    constructor
    · intro describes
      exact shown.forall₂_iff.mp describes.elements
    · intro holds
      refine ⟨shown.right holds, shown.apart holds, fun marked => ?_⟩
      exact (named marked {} rfl lines p printed).1

end Description

section Files

variable {s : Struct} {earlier : List Struct}

/-- The lines for the last struct of a file, against the struct in the header. -/
def DescribesLast (s : Struct) (earlier : List Struct) : Prop :=
  ∃ types sl text compiled lines, header earlier = some types ∧ structLayout 0 "root" s = some sl ∧
    visitRoot sl = some text ∧ compileStruct types text.decls = some compiled ∧
    tsLines sl = some lines ∧ TsDescribes sl lines compiled

/-- Where the header has the memory map of the layouts, the lines are right exactly when every enum
has a value and every array with one row one element. -/
theorem describesLast_iff (parsed : Parsed (s :: earlier)) (accepted : Accepted (s :: earlier))
    (whole : ∀ t ∈ s :: earlier, t.Whole) : DescribesLast s earlier ↔ AllStraight s.fields := by
  obtain ⟨own, others⟩ := List.forall_mem_cons.mp whole
  obtain ⟨types, sl, text, compiled, printed, laid, visited, built, right⟩ :=
    structMaps_of_whole parsed accepted others
  rw [← describes_iff laid (right.mpr own).elements]
  constructor
  · rintro ⟨types', sl', text', compiled', lines, printed', laid', visited', built', shown⟩
    obtain rfl := Option.some.inj (printed.symm.trans printed')
    obtain rfl := Option.some.inj (laid.symm.trans laid')
    obtain rfl := Option.some.inj (visited.symm.trans visited')
    obtain rfl := Option.some.inj (built.symm.trans built')
    exact ⟨lines, shown⟩
  · rintro ⟨lines, shown⟩
    exact ⟨types, sl, text, compiled, lines, printed, laid, visited, built, shown⟩

theorem describesLast_engineState : DescribesLast engineState [pidStruct] := by
  have parsed : Parsed [engineState, pidStruct] := by
    simp [Parsed, engineState, pidStruct, Field.Resolved]
  have whole : ∀ t ∈ [engineState, pidStruct], t.Whole := by
    simp only [List.forall_mem_cons, List.not_mem_nil, false_implies, implies_true, and_true]
    constructor
    · refine ⟨List.cons_ne_nil _ _, fun f member => ?_⟩
      simp only [engineState, List.mem_cons, List.not_mem_nil, or_false] at member
      rcases member with rfl | rfl | rfl | rfl | rfl | rfl | rfl <;> try trivial
      intro l made
      obtain rfl := Option.some.inj made
      decide
    · refine ⟨List.cons_ne_nil _ _, fun f member => ?_⟩
      simp only [pidStruct, List.mem_cons, List.not_mem_nil, or_false] at member
      rcases member with rfl | rfl <;> trivial
  exact (describesLast_iff parsed (by decide) whole).mpr (by simp [AllStraight, Field.Straight, engineState])

/-- A table with one column. -/
def columnStruct : Struct where
  name := "column_s"
  noPrefix := true
  fields := [.array (.scalar ⟨.U08, "table"⟩) (1, some 4), .scalar ⟨.U08, "after"⟩]

/-- There are two lines for five numbers. -/
theorem column_not_described : Parsed [columnStruct] ∧ Accepted [columnStruct] ∧
    (∀ t ∈ [columnStruct], t.Whole) ∧ ¬DescribesLast columnStruct [] := by
  refine ⟨by simp [Parsed, columnStruct, Field.Resolved], by decide, ?_, ?_⟩
  · simp only [List.forall_mem_cons, List.not_mem_nil, false_implies, implies_true, and_true]
    refine ⟨List.cons_ne_nil _ _, fun f member => ?_⟩
    simp only [columnStruct, List.mem_cons, List.not_mem_nil, or_false] at member
    rcases member with rfl | rfl <;> trivial
  · rintro ⟨types, sl, text, c, lines, printed, laid, visited, compiled, shown, describes⟩
    obtain rfl := Option.some.inj printed
    have entries : ((structLayout 0 "root" columnStruct).bind tsLines).map
        (fun lines => (lines.flatMap TsLine.elements).length) = some 2 := by decide
    have members : (((structLayout 0 "root" columnStruct).bind visitRoot).bind fun text =>
        (compileStruct [] text.decls).map fun c => c.members.length) = some 5 := by decide
    simp only [laid, visited, compiled, shown, Option.bind_some, Option.map_some,
      Option.some.injEq] at entries members
    have same := describes.elements.length_eq
    omega

end Files

end FomeFw.Config
