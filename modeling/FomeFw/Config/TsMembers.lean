import FomeFw.Config.TsLayout

/-! That the lines for the tuning software are about the members of the C struct. What is printed
for a layout is judged by the memory the layout has: nothing is outside of it, and where the
lines go wrong, an element is missing or there is one too many. -/
namespace FomeFw.Config

variable {ts ts' : List TsElement} {cs cs' : List CElement} {start stop stop' pos : Nat}
  {straight straight' : Prop} {t : TsElement} {e : CElement}

/-- An element strictly inside that no line is about. -/
def Missed (ts : List TsElement) (cs : List CElement) (start stop : Nat) : Prop :=
  ∃ e ∈ cs, start < e.address ∧ e.address < stop ∧ ∀ t ∈ ts, ¬t.Describes e

structure Judged (ts : List TsElement) (cs : List CElement) (start stop : Nat) (straight : Prop) :
    Prop where
  ordered : start ≤ stop
  inside : ∀ t ∈ ts, start ≤ t.start ∧ t.start ≤ stop
  right : straight → List.Forall₂ TsElement.Describes ts cs
  ends : straight → ∀ t ∈ ts, t.start + t.size ≤ stop
  apart : straight → (ts.zip cs).Pairwise Apart
  wrong : Missed ts cs start stop ∨ cs.length ≤ ts.length ∧ (ts.length = cs.length → straight)

section Judgement

theorem Missed.left (missed : Missed ts cs start pos) (ordered : pos ≤ stop)
    (later : ∀ t ∈ ts', pos ≤ t.start) : Missed (ts ++ ts') (cs ++ cs') start stop := by
  obtain ⟨e, member, after, before, none⟩ := missed
  refine ⟨e, List.mem_append_left _ member, after, before.trans_le ordered, fun t own => ?_⟩
  rcases List.mem_append.mp own with own | other
  · exact none t own
  · intro describes
    have place := later t other
    rw [describes.address] at place
    exact absurd before (not_lt.mpr place)

theorem Missed.right (missed : Missed ts' cs' pos stop) (ordered : start ≤ pos)
    (earlier : ∀ t ∈ ts, t.start ≤ pos) : Missed (ts ++ ts') (cs ++ cs') start stop := by
  obtain ⟨e, member, after, before, none⟩ := missed
  refine ⟨e, List.mem_append_right _ member, ordered.trans_lt after, before, fun t own => ?_⟩
  rcases List.mem_append.mp own with other | own
  · intro describes
    have place := earlier t other
    rw [describes.address] at place
    exact absurd after (not_lt.mpr place)
  · exact none t own

theorem Judged.nothing (ordered : start ≤ stop) : Judged [] [] start stop True := by
  constructor
  case ordered => exact ordered
  case right => exact fun _ => .nil
  case apart => exact fun _ => .nil
  case wrong => exact .inr ⟨Nat.le_refl 0, fun _ => trivial⟩
  case inside => simp
  case ends => simp

theorem Judged.single (describes : t.Describes e) (after : start ≤ t.start)
    (before : t.start + t.size ≤ stop) : Judged [t] [e] start stop True := by
  constructor
  case ordered => omega
  case inside =>
    intro t' member
    obtain rfl := List.mem_singleton.mp member
    omega
  case right => exact fun _ => .cons describes .nil
  case ends =>
    intro _ t' member
    obtain rfl := List.mem_singleton.mp member
    exact before
  case apart => exact fun _ => List.pairwise_singleton _ _
  case wrong => exact .inr ⟨Nat.le_refl 1, fun _ => trivial⟩

theorem Judged.append (first : Judged ts cs start pos straight)
    (second : Judged ts' cs' pos stop straight') :
    Judged (ts ++ ts') (cs ++ cs') start stop (straight ∧ straight') := by
  constructor
  case ordered => exact first.ordered.trans second.ordered
  case inside =>
    intro t member
    rcases List.mem_append.mp member with member | member
    · exact ⟨(first.inside t member).1, (first.inside t member).2.trans second.ordered⟩
    · exact ⟨first.ordered.trans (second.inside t member).1, (second.inside t member).2⟩
  case right =>
    rintro ⟨holds, holds'⟩
    exact List.rel_append (first.right holds) (second.right holds')
  case ends =>
    rintro ⟨holds, holds'⟩ t member
    rcases List.mem_append.mp member with member | member
    · exact (first.ends holds t member).trans second.ordered
    · exact second.ends holds' t member
  case apart =>
    rintro ⟨holds, holds'⟩
    rw [List.zip_append (first.right holds).length_eq]
    refine List.pairwise_append.mpr ⟨first.apart holds, second.apart holds', ?_⟩
    rintro ⟨t, e⟩ member ⟨t', e'⟩ member' _
    exact (first.ends holds t (List.of_mem_zip member).1).trans
      (second.inside t' (List.of_mem_zip member').1).1
  case wrong =>
    have later : ∀ t ∈ ts', pos ≤ t.start := fun t member => (second.inside t member).1
    have earlier : ∀ t ∈ ts, t.start ≤ pos := fun t member => (first.inside t member).2
    rcases first.wrong with missed | ⟨most, exact'⟩
    · exact .inl (missed.left second.ordered later)
    · rcases second.wrong with missed | ⟨most', exact''⟩
      · exact .inl (missed.right first.ordered earlier)
      · refine .inr ⟨?_, fun same => ?_⟩
        · simp only [List.length_append]
          omega
        · simp only [List.length_append] at same
          exact ⟨exact' (by omega), exact'' (by omega)⟩

theorem Judged.congr (judged : Judged ts cs start stop straight) (same : straight ↔ straight') :
    Judged ts cs start stop straight' := by
  rwa [propext same] at judged

/-- More memory behind. -/
theorem Judged.extend (judged : Judged ts cs start pos straight) (more : pos ≤ stop) :
    Judged ts cs start stop straight := by
  have extended := judged.append (.nothing more)
  rwa [List.append_nil, List.append_nil, and_true] at extended

/-- One after the other, in steps. -/
theorem Judged.sequence {f : Nat → TsElement} {g : Nat → CElement} {step : Nat}
    (describes : ∀ i, (f i).Describes (g i)) (starts : ∀ i, (f i).start = start + step * i)
    (sizes : ∀ i, (f i).size ≤ step) (n : Nat) :
    Judged ((List.range n).map f) ((List.range n).map g) start (start + step * n) True := by
  induction n with
  | zero => exact .nothing (Nat.le_add_right _ _)
  | succ n ih =>
    have after := starts n
    have size := sizes n
    have last : Judged [f n] [g n] (start + step * n) (start + step * (n + 1)) True := by
      refine .single (describes n) after.ge ?_
      rw [Nat.mul_succ]
      omega
    simpa only [List.range_succ, List.map_append, List.map_cons, List.map_nil, and_true] using
      ih.append last

/-- Then the lines are right just when they should be. -/
theorem Judged.forall₂_iff (judged : Judged ts cs start stop straight) :
    List.Forall₂ TsElement.Describes ts cs ↔ straight := by
  constructor
  · intro right
    rcases judged.wrong with ⟨e, member, -, -, none⟩ | ⟨-, exact'⟩
    · obtain ⟨i, inside, rfl⟩ := List.getElem_of_mem member
      have inside' : i < ts.length := by rwa [right.length_eq]
      exact absurd (right.get inside' inside) (none _ (List.getElem_mem inside'))
    · exact exact' right.length_eq
  · exact judged.right

end Judgement

def ElementKind.dims : ElementKind → List Nat
  | .number _ dims | .overlaid _ dims => dims
  | _ => []

def StraightDims : List Nat → Prop
  | 1 :: dims => dims.prod = 1
  | _ => True

/-- Numbers that all start together. Behind the start there are only lines for arrays that have more
than one row, and what is missed is of an array that has one. -/
structure Overlaid (ts : List TsElement) (cs : List CElement) (start stop : Nat) (straight : Prop) :
    Prop where
  judged : Judged ts cs start stop straight
  rows : ∀ t ∈ ts, t.start = start ∨ ∃ tsType d dims, 2 ≤ d ∧ t.kind = .number tsType (d :: dims)
  flat : (∃ e ∈ cs, e.kind.dims.head? = some 1 ∧ start < e.address ∧ e.address < stop) ∨
    cs.length ≤ ts.length ∧ (ts.length = cs.length → straight)

section Overlay

theorem describes_dims {tsType : String} {d : Nat} {dims : List Nat}
    (describes : (TsKind.number tsType (d :: dims)).Describes e.kind) :
    e.kind.dims.head? = some d := by
  obtain ⟨kind, name, address⟩ := e
  have rows : ∀ length, d :: dims = tsDims length → length.head? = some d := by
    intro length same
    cases length with
    | nil => contradiction
    | cons n length => exact congrArg some (List.cons.inj same).1.symm
  cases kind with
  | number | overlaid => exact rows _ (describes.2.resolve_left (List.cons_ne_nil _ _))
  | _ => exact describes.elim

theorem Overlaid.nothing (ordered : start ≤ stop) : Overlaid [] [] start stop True :=
  ⟨.nothing ordered, by simp, .inr ⟨Nat.le_refl 0, fun _ => trivial⟩⟩

theorem Overlaid.extend (overlaid : Overlaid ts cs start pos straight) (more : pos ≤ stop) :
    Overlaid ts cs start stop straight := by
  refine ⟨overlaid.judged.extend more, overlaid.rows, overlaid.flat.imp_left ?_⟩
  rintro ⟨e, member, one, after, before⟩
  exact ⟨e, member, one, after, before.trans_le more⟩

/-- No line of the others is about what is missed. -/
theorem missed_of_flat (rows : ∀ t ∈ ts, t.start = start ∨
    ∃ tsType d dims, 2 ≤ d ∧ t.kind = .number tsType (d :: dims))
    (flat : ∃ e ∈ cs, e.kind.dims.head? = some 1 ∧ start < e.address ∧ e.address < stop) :
    Missed ts cs start stop := by
  obtain ⟨e, member, one, after, before⟩ := flat
  refine ⟨e, member, after, before, fun t own describes => ?_⟩
  rcases rows t own with same | ⟨tsType, d, dims, many, kind⟩
  · rw [← describes.address, same] at after
    exact absurd after (lt_irrefl _)
  · have described := describes.kind
    rw [kind] at described
    have first := one.symm.trans (describes_dims described)
    have single : 1 = d := Option.some.inj first
    omega

theorem Overlaid.beside (first : Overlaid ts cs start stop straight)
    (second : Overlaid ts' cs' start stop straight') (all : ∀ e ∈ cs, e.kind.isOverlaid = true)
    (all' : ∀ e ∈ cs', e.kind.isOverlaid = true) :
    Overlaid (ts ++ ts') (cs ++ cs') start stop (straight ∧ straight') := by
  have rows : ∀ t ∈ ts ++ ts', t.start = start ∨
      ∃ tsType d dims, 2 ≤ d ∧ t.kind = .number tsType (d :: dims) := by
    intro t member
    exact (List.mem_append.mp member).elim (first.rows t) (second.rows t)
  have flat : (∃ e ∈ cs ++ cs', e.kind.dims.head? = some 1 ∧ start < e.address ∧ e.address < stop) ∨
      (cs ++ cs').length ≤ (ts ++ ts').length ∧
        ((ts ++ ts').length = (cs ++ cs').length → straight ∧ straight') := by
    rcases first.flat with ⟨e, member, own⟩ | ⟨most, exact'⟩
    · exact .inl ⟨e, List.mem_append_left _ member, own⟩
    · rcases second.flat with ⟨e, member, own⟩ | ⟨most', exact''⟩
      · exact .inl ⟨e, List.mem_append_right _ member, own⟩
      · refine .inr ⟨?_, fun same => ?_⟩
        · simp only [List.length_append]
          omega
        · simp only [List.length_append] at same
          exact ⟨exact' (by omega), exact'' (by omega)⟩
  refine ⟨?_, rows, flat⟩
  constructor
  case ordered => exact first.judged.ordered
  case inside =>
    intro t member
    exact (List.mem_append.mp member).elim (first.judged.inside t) (second.judged.inside t)
  case right =>
    rintro ⟨holds, holds'⟩
    exact List.rel_append (first.judged.right holds) (second.judged.right holds')
  case ends =>
    rintro ⟨holds, holds'⟩ t member
    exact (List.mem_append.mp member).elim (first.judged.ends holds t) (second.judged.ends holds' t)
  case apart =>
    intro
    refine List.pairwise_iff_getElem.mpr fun i j inside inside' _ alone => ?_
    have overlaid : ∀ e ∈ cs ++ cs', e.kind.isOverlaid = true := fun e member =>
      (List.mem_append.mp member).elim (all e) (all' e)
    exact absurd ⟨overlaid _ (List.of_mem_zip (List.getElem_mem inside)).2,
      overlaid _ (List.of_mem_zip (List.getElem_mem inside')).2⟩ alone
  case wrong => exact flat.imp_left (missed_of_flat rows)

end Overlay

/-- What is printed is judged, and where there is an exception things were not straight. -/
def Printer.Yields (print : Printer) (P : List TsElement → Prop) (straight : Prop) : Prop :=
  ∀ p, match print p with
    | none => ¬straight
    | some (lines, _) => P (lines.flatMap TsLine.elements)

section Printing

variable {first second print : Printer} {P Q R : List TsElement → Prop}

theorem Printer.Yields.line {line : StructNamePrefixer → TsLine} (each : ∀ n, P (line n).elements) :
    (Printer.line line).Yields P straight := by
  intro p
  simpa only [Printer.line, List.flatMap_cons, List.flatMap_nil, List.append_nil] using each p

theorem Printer.Yields.silent (empty : P []) : Printer.Yields (fun p => some ([], p)) P straight :=
  fun _ => empty

theorem Printer.Yields.imp (yields : print.Yields P straight) (more : ∀ ts, P ts → Q ts)
    (same : straight' → straight) : print.Yields Q straight' := by
  intro p
  have now := yields p
  split
  · next none =>
    rw [none] at now
    exact fun holds => now (same holds)
  · next lines p' some =>
    rw [some] at now
    exact more _ now

theorem Printer.Yields.andThen (yields : first.Yields P straight) (yields' : second.Yields Q straight')
    (both : ∀ ts ts', P ts → Q ts' → R (ts ++ ts')) :
    (first.andThen second).Yields R (straight ∧ straight') := by
  intro p
  have now := yields p
  simp only [Printer.andThen, Option.bind_eq_bind]
  cases printed : first p with
  | none =>
    rw [printed] at now
    exact fun holds => now holds.1
  | some out =>
    obtain ⟨lines, p'⟩ := out
    have next := yields' p'
    rw [printed] at now
    simp only [Option.bind_some]
    cases printed' : second p' with
    | none =>
      rw [printed'] at next
      exact fun holds => next holds.2
    | some out' =>
      obtain ⟨more, p''⟩ := out'
      rw [printed'] at next
      simp only [Option.bind_some, List.flatMap_append]
      exact both _ _ now next

theorem Printer.Yields.indexed (yields : print.Yields P straight) (i : Nat) :
    (Printer.indexed i print).Yields P straight := by
  intro p
  have now := yields (p.setIndex i)
  unfold Printer.indexed
  cases printed : print (p.setIndex i) with
  | none =>
    rw [printed] at now
    exact now
  | some out =>
    rw [printed] at now
    exact now

theorem Printer.Yields.prefixed (yields : print.Yields P straight) (name : String) :
    (Printer.prefixed name print).Yields P straight := by
  intro p
  have now := yields (p.push name)
  unfold Printer.prefixed
  cases printed : print (p.push name) with
  | none =>
    rw [printed] at now
    exact now
  | some out =>
    rw [printed] at now
    exact now

/-- The elements of an array of structs or of an array that is spelt out. -/
theorem Printer.Yields.forEach {print : Nat → Printer} {elements : Nat → List CElement} {step : Nat}
    (yields : ∀ i, (print i).Yields (fun ts =>
      Judged ts (elements i) (start + step * i) (start + step * (i + 1)) straight) straight)
    (n : Nat) : (Printer.forEach (List.range n) print).Yields (fun ts =>
      Judged ts ((List.range n).flatMap elements) start (start + step * n) (n = 0 ∨ straight))
      (n = 0 ∨ straight) := by
  suffices every : ∀ i, (Printer.forEach (List.range' i n) print).Yields (fun ts =>
      Judged ts ((List.range' i n).flatMap elements) (start + step * i) (start + step * (i + n))
        (n = 0 ∨ straight)) (n = 0 ∨ straight) by
    have all := every 0
    rwa [Nat.zero_add, Nat.mul_zero, Nat.add_zero, ← List.range_eq_range'] at all
  induction n with
  | zero =>
    intro i
    refine .silent ?_
    exact (Judged.nothing (Nat.le_refl _)).congr (by simp)
  | succ n ih =>
    intro i
    rw [List.range'_succ, List.flatMap_cons]
    have both : straight ∧ (n = 0 ∨ straight) ↔ n + 1 = 0 ∨ straight := by
      simp only [Nat.add_eq_zero_iff, one_ne_zero, and_false, false_or]
      exact ⟨And.left, fun holds => ⟨holds, .inr holds⟩⟩
    have later := ih (i + 1)
    rw [Nat.add_right_comm, Nat.add_assoc] at later
    exact ((yields i).andThen later fun ts ts' judged judged' =>
      (judged.append judged').congr both).imp (fun _ judged => judged) both.mpr

end Printing

section Members

variable {kind : String → List Nat → ElementKind} {length : List Nat}

@[simp] theorem tsSizeof_tsType (type : ScalarType) : tsSizeof type.tsType = type.size := by
  cases type <;> rfl

@[simp] theorem tsTypeOf_cTypeName (type : ScalarType) : tsTypeOf (cTypeName type) = type.tsType := by
  cases type <;> decide

theorem get_eq (p : StructNamePrefixer) (name : String) :
    ∃ path index, p.get name = path ++ name ++ index := by
  unfold StructNamePrefixer.get
  split
  · exact ⟨"", "", by simp⟩
  · exact ⟨String.join p.stack, p.index, rfl⟩

theorem repeated_single (dims : List Nat) (offset size : Nat) (element : Nat → CElement) :
    repeated dims offset size (fun offset => [element offset]) =
      (List.range dims.prod).map fun k => element (offset + size * k) := by
  rw [List.map_eq_flatMap]
  rfl

theorem prod_tsDims (dims : List Nat) : (tsDims dims).prod = dims.prod := by
  cases dims with
  | nil => rfl
  | cons d dims =>
    have others : (dims.filter (· ≠ 1)).prod = dims.prod := by
      induction dims with
      | nil => rfl
      | cons n dims ih =>
        by_cases one : n = 1
        · simpa [one] using ih
        · rw [List.filter_cons_of_pos (by simpa using one), List.prod_cons, ih, List.prod_cons]
    simp only [tsDims, List.prod_cons, others]

/-- How the kind of a C number follows from its type and its dimensions. -/
structure IsNumber (kind : String → List Nat → ElementKind) : Prop where
  describes : ∀ tsType dims typeName length,
    (TsKind.number tsType dims).Describes (kind typeName length) ↔
      tsType = tsTypeOf typeName ∧ (dims = [] ∨ dims = tsDims length)
  dims : ∀ typeName length, (kind typeName length).dims = length

theorem isNumber_number : IsNumber .number := ⟨fun _ _ _ _ => Iff.rfl, fun _ _ => rfl⟩

theorem isNumber_overlaid : IsNumber .overlaid := ⟨fun _ _ _ _ => Iff.rfl, fun _ _ => rfl⟩

theorem describes_number (number : IsNumber kind) (p : StructNamePrefixer) (field : ScalarField)
    {dims : List Nat} (shape : dims = [] ∨ dims = tsDims length) (start size : Nat) :
    TsElement.Describes ⟨p.get field.name, .number field.type.tsType dims, start, size⟩
      ⟨kind (cTypeName field.type) length, field.name, start⟩ where
  kind := (number.describes _ _ _ _).mpr ⟨(tsTypeOf_cTypeName _).symm, shape⟩
  address := rfl
  name := get_eq p field.name

/-- One line for an array of `n` elements. -/
theorem lone_overlaid {element : Nat → CElement} {step n : Nat} (positive : 0 < step)
    (describes : t.Describes (element 0)) (own : t.start = start) (size : t.size ≤ step)
    (places : ∀ k, (element k).address = start + step * k)
    (one : ∀ k, n ≠ 1 → (element k).kind.dims.head? = some 1) :
    Overlaid [t] ((List.range n).map element) start (start + step * n) (n = 1) := by
  have rows : ∀ t' ∈ [t], t'.start = start ∨
      ∃ tsType d dims, 2 ≤ d ∧ t'.kind = .number tsType (d :: dims) := by
    intro t' member
    obtain rfl := List.mem_singleton.mp member
    exact .inl own
  by_cases straight : n = 1
  · subst straight
    have judged : Judged [t] [element 0] start (start + step * 1) True :=
      .single describes own.ge (by omega)
    exact ⟨judged.congr (by simp), rows, .inr ⟨Nat.le_refl 1, fun _ => rfl⟩⟩
  · have flat : (∃ e ∈ (List.range n).map element,
        e.kind.dims.head? = some 1 ∧ start < e.address ∧ e.address < start + step * n) ∨
        ((List.range n).map element).length ≤ [t].length ∧
          ([t].length = ((List.range n).map element).length → n = 1) := by
      rcases Nat.lt_or_ge 1 n with many | few
      · have inside : step * 1 < step * n := Nat.mul_lt_mul_of_pos_left many positive
        refine .inl ⟨element 1, List.mem_map_of_mem (List.mem_range.mpr many), one 1 straight, ?_, ?_⟩
        · rw [places]
          omega
        · rw [places]
          omega
      · refine .inr ⟨?_, fun same => ?_⟩
        · simpa using few
        · simpa using same.symm
    refine ⟨?_, rows, flat⟩
    constructor
    case ordered => exact Nat.le_add_right _ _
    case inside =>
      intro t' member
      obtain rfl := List.mem_singleton.mp member
      omega
    case right | ends | apart => exact fun holds => absurd holds straight
    case wrong => exact flat.imp_left (missed_of_flat rows)

theorem scalar_overlaid (number : IsNumber kind) (p : StructNamePrefixer) (field : ScalarField)
    (offset : Nat) (one : length.prod ≠ 1 → length.head? = some 1) :
    Overlaid (TsLine.scalar (p.get field.name) field.type.tsType offset).elements
      ((List.range length.prod).map fun k =>
        ⟨kind (cTypeName field.type) length, field.name, 8 * offset + 8 * field.type.size * k⟩)
      (8 * offset) (8 * offset + 8 * field.type.size * length.prod) (length.prod = 1) := by
  apply lone_overlaid
  · exact Nat.mul_pos (Nat.succ_pos 7) field.type.size_pos
  · exact describes_number number p field (.inl rfl) _ _
  · rfl
  · simp
  · exact fun k => rfl
  · intro k several
    rw [number.dims]
    exact one several

theorem array_overlaid (number : IsNumber kind) (p : StructNamePrefixer) (field : ScalarField)
    (offset : Nat) {d : Nat} {dims : List Nat} (many : 2 ≤ d) :
    Overlaid (TsLine.array (p.get field.name) field.type.tsType offset (tsDims (d :: dims))).elements
      ((List.range (d :: dims).prod).map fun k =>
        ⟨kind (cTypeName field.type) (d :: dims), field.name, 8 * offset + 8 * field.type.size * k⟩)
      (8 * offset) (8 * offset + 8 * field.type.size * (d :: dims).prod) True := by
  have judged : Judged
      (TsLine.array (p.get field.name) field.type.tsType offset (tsDims (d :: dims))).elements
      ((List.range (d :: dims).prod).map fun k =>
        ⟨kind (cTypeName field.type) (d :: dims), field.name, 8 * offset + 8 * field.type.size * k⟩)
      (8 * offset) (8 * offset + 8 * field.type.size * (d :: dims).prod) True := by
    simp only [TsLine.elements, prod_tsDims, tsSizeof_tsType, Nat.mul_add, ← Nat.mul_assoc]
    apply Judged.sequence
    · exact fun k => describes_number number p field (.inr rfl) _ _
    · exact fun k => rfl
    · exact fun k => Nat.le_refl _
  refine ⟨judged, fun t member => ?_, .inr ⟨(judged.right trivial).length_eq.ge, fun _ => trivial⟩⟩
  obtain ⟨k, -, rfl⟩ := List.mem_map.mp member
  exact .inr ⟨_, d, _, many, rfl⟩

theorem visit_scalar (number : IsNumber kind) (field : ScalarField) (offset : Nat) (length : List Nat) :
    (field.visit offset length).Yields (fun ts => Overlaid ts
      (repeated length offset field.type.size fun offset =>
        [⟨kind (cTypeName field.type) length, field.name, 8 * offset⟩])
      (8 * offset) (8 * (offset + field.type.size * length.prod)) (StraightDims length))
      (StraightDims length) := by
  have places : ∀ k, 8 * (offset + field.type.size * k) = 8 * offset + 8 * field.type.size * k := by
    intro k
    rw [Nat.mul_add, Nat.mul_assoc]
  simp only [repeated_single, places]
  match length with
  | [] =>
    apply Printer.Yields.line
    intro p
    have lone := @scalar_overlaid _ [] number p field offset fun several => absurd rfl several
    simpa only [StraightDims, List.prod_nil] using lone
  | 0 :: dims =>
    apply Printer.Yields.silent
    simp only [List.prod_cons, Nat.zero_mul, Nat.mul_zero, Nat.add_zero]
    exact Overlaid.nothing (Nat.le_refl _)
  | 1 :: dims =>
    apply Printer.Yields.line
    intro p
    have lone := @scalar_overlaid _ (1 :: dims) number p field offset fun _ => rfl
    simpa only [StraightDims, List.prod_cons, Nat.one_mul] using lone
  | (d + 2) :: dims =>
    apply Printer.Yields.line
    intro p
    exact array_overlaid number p field offset (Nat.le_add_left 2 d)

theorem visit_enum (field : EnumField) (offset : Nat) : (field.visit offset).Yields (fun ts =>
    Judged ts [⟨.enum field.enumType field.type, field.name, 8 * offset⟩] (8 * offset)
      (8 * (offset + field.type.size)) (field.values ≠ [])) (field.values ≠ []) := by
  intro p
  simp only [EnumField.visit]
  by_cases empty : field.values = []
  · simp [empty]
  · simp only [if_neg empty]
    have judged : Judged (TsLine.bits (p.get field.name) field.type.tsType offset 0 field.endBit
        field.values).elements [⟨.enum field.enumType field.type, field.name, 8 * offset⟩] (8 * offset)
        (8 * (offset + field.type.size)) True := by
      refine .single ⟨⟨rfl, rfl⟩, rfl, get_eq p field.name⟩ (Nat.le_refl _) ?_
      simp only [tsSizeof_tsType]
      omega
    simpa [empty] using judged

theorem visit_string (field : StringField) (offset : Nat) : (field.visit offset).Yields (fun ts =>
    Judged ts [⟨.string field.size, field.name, 8 * offset⟩] (8 * offset) (8 * (offset + field.size))
      True) True := by
  apply Printer.Yields.line
  intro p
  refine .single ⟨rfl, rfl, get_eq p field.name⟩ (Nat.le_refl _) ?_
  exact (Nat.mul_add _ _ _).ge

theorem visit_bits (bits : List BitField) (offset i : Nat) (few : i + bits.length ≤ 32) :
    (Printer.forEach (bits.zipIdx i) fun (bit, i) => .line fun n =>
      .bits (n.get bit.name) "U32" offset i i [bit.falseValue, bit.trueValue]).Yields (fun ts =>
        Judged ts ((bits.zipIdx i).map fun (bit, i) => ⟨.bit, bit.name, 8 * offset + i⟩)
          (8 * offset + i) (8 * offset + i + bits.length) True) True := by
  induction bits generalizing i with
  | nil => exact .silent (.nothing (Nat.le_refl _))
  | cons bit bits ih =>
    rw [List.length_cons] at few
    have own : (Printer.line fun n => .bits (n.get bit.name) "U32" offset i i
        [bit.falseValue, bit.trueValue]).Yields (fun ts => Judged ts
          [⟨.bit, bit.name, 8 * offset + i⟩] (8 * offset + i) (8 * offset + (i + 1)) True) True := by
      apply Printer.Yields.line
      intro n
      refine .single ⟨⟨rfl, rfl⟩, rfl, get_eq n bit.name⟩ (Nat.le_refl _) ?_
      simp only [tsSizeof]
      omega
    refine (own.andThen (ih (i + 1) (by omega)) fun ts ts' judged judged' => ?_).imp
      (fun _ judged => judged) fun _ => ⟨trivial, trivial⟩
    have both := judged.append judged'
    rwa [and_true, Nat.add_assoc, Nat.add_assoc, Nat.add_comm 1, ← Nat.add_assoc] at both

theorem members_bits (bits : List BitField) (address : Nat) (few : bits.length ≤ 32) :
    ((List.range 32).map (bitElement address bits)).filter (·.kind.isMember) =
      bits.zipIdx.map fun (bit, i) => ⟨.bit, bit.name, address + i⟩ := by
  obtain ⟨rest, total⟩ := Nat.exists_eq_add_of_le few
  have named : ((List.range bits.length).map (bitElement address bits)) =
      bits.zipIdx.map fun (bit, i) => ⟨.bit, bit.name, address + i⟩ := by
    apply List.ext_getElem
    · simp
    · intro i inside inside'
      simp only [List.length_map, List.length_range] at inside
      simp [bitElement, inside]
  rw [total, List.range_add, List.map_append, List.filter_append, named]
  have own : ∀ e ∈ bits.zipIdx.map fun (bit, i) => CElement.mk .bit bit.name (address + i),
      e.kind.isMember = true := by
    intro e member
    obtain ⟨bit, -, rfl⟩ := List.mem_map.mp member
    rfl
  have unused : ∀ e ∈ ((List.range rest).map (bits.length + ·)).map (bitElement address bits),
      ¬e.kind.isMember = true := by
    intro e member
    simp only [List.map_map, List.mem_map] at member
    obtain ⟨i, -, rfl⟩ := member
    simp [bitElement, ElementKind.isMember]
  rw [List.filter_eq_self.mpr own, List.filter_eq_nil_iff.mpr unused, List.append_nil]

end Members

mutual

/-- The layout is as `StructLayout` makes them: children without gaps, and prototypes where their
arrays are. -/
def Layout.Laid : Layout → Prop
  | .bitGroup _ bits => bits.length ≤ 32
  | .union p members => ∀ m ∈ members, m.place = p
  | .array .plain p (.scalar q _) _ => q = p
  | .array .iterateScalar p (.scalar q _) [_] => q = p
  | .array .iterateScalar p (.enum q _) [_] => q = p
  | .array .iterateScalar p (.string q _) [_] => q = p
  | .array .iterateStruct p (.struct q _ _ _ size children) [_] =>
    q = p ∧ LaidFrom 0 children size
  | .array _ _ _ _ => False
  | .struct p _ _ _ size children => LaidFrom p.offset children (p.offset + size)
  | _ => True

def LaidFrom (pos : Nat) : List Layout → Nat → Prop
  | [], stop => pos = stop
  | l :: children, stop => l.place.offset = pos ∧ l.Laid ∧ LaidFrom (pos + l.getSize) children stop

end

mutual

def Layout.Straight : Layout → Prop
  | .enum _ field => field.values ≠ []
  | .union _ members => ∀ m ∈ members, StraightDims m.length
  | .array .plain _ _ length => StraightDims length
  | .array _ _ prototypeLayout length => length.headD 0 = 0 ∨ prototypeLayout.Straight
  | .struct _ _ _ _ _ children => StraightAll children
  | _ => True

def StraightAll : List Layout → Prop
  | [] => True
  | l :: children => l.Straight ∧ StraightAll children

end

def membersOf (elements : List CElement) : List CElement := elements.filter (·.kind.isMember)

section Layouts

variable {add offset size : Nat} {inner : Nat → List CElement}

theorem visit_union {members : List UnionMember} {p : Place} (same : ∀ m ∈ members, m.place = p)
    (fits : ∀ m ∈ members, m.getSize ≤ size) :
    (Printer.forEach members fun m => m.field.visit (m.place.offset + add) m.length).Yields (fun ts =>
      Overlaid ts ((Layout.union p members).elements add) (8 * (add + p.offset))
        (8 * (add + p.offset + size)) (∀ m ∈ members, StraightDims m.length))
      (∀ m ∈ members, StraightDims m.length) := by
  induction members with
  | nil =>
    refine .silent ?_
    have none := @Overlaid.nothing (8 * (add + p.offset)) (8 * (add + p.offset + size)) (by omega)
    simpa [Layout.elements] using none
  | cons m members ih =>
    obtain ⟨own, others⟩ := List.forall_mem_cons.mp same
    obtain ⟨large, fits⟩ := List.forall_mem_cons.mp fits
    have first := visit_scalar isNumber_overlaid m.field (m.place.offset + add) m.length
    have total : 8 * (m.place.offset + add + m.field.type.size * m.length.prod) ≤
        8 * (add + p.offset + size) := by
      rw [UnionMember.getSize, foldl_mul] at large
      rw [own]
      omega
    have overlaid : ∀ (members : List UnionMember),
        ∀ e ∈ (Layout.union p members).elements add, e.kind.isOverlaid = true := by
      intro members e member
      simp only [Layout.elements, repeated, List.mem_flatMap, List.mem_singleton] at member
      obtain ⟨m, -, k, -, rfl⟩ := member
      rfl
    have place : m.place.offset + add = add + p.offset := by rw [own, Nat.add_comm]
    have all : (∀ n ∈ m :: members, StraightDims n.length) ↔
        StraightDims m.length ∧ ∀ n ∈ members, StraightDims n.length := List.forall_mem_cons
    refine (first.andThen (ih others fits) fun ts ts' judged judged' => ?_).imp
      (fun _ overlaid => overlaid) all.mp
    rw [place] at judged total
    have own : ∀ e ∈ repeated m.length (add + p.offset) m.field.type.size fun offset =>
        [⟨.overlaid (cTypeName m.field.type) m.length, m.field.name, 8 * offset⟩],
        e.kind.isOverlaid = true := by
      intro e member
      simp only [repeated, List.mem_flatMap, List.mem_singleton] at member
      obtain ⟨k, -, rfl⟩ := member
      rfl
    have both := (judged.extend total).beside judged' own (overlaid members)
    rw [← all] at both
    simpa only [Layout.elements, List.flatMap_cons, ← place, Nat.add_comm] using both

theorem visit_each {print : Nat → Printer} (each : ∀ i, (print i).Yields (fun ts =>
      Judged ts (membersOf (inner (offset + size * i))) (8 * (offset + size * i))
        (8 * (offset + size * i + size)) straight) straight) (n : Nat) :
    (Printer.forEach (List.range n) fun i => .indexed i (print i)).Yields (fun ts =>
      Judged ts (membersOf (repeated [n] offset size inner)) (8 * offset) (8 * (offset + size * n))
        (n = 0 ∨ straight)) (n = 0 ∨ straight) := by
  have places : ∀ k, 8 * (offset + size * k) = 8 * offset + 8 * size * k := by
    intro k
    rw [Nat.mul_add, Nat.mul_assoc]
  simp only [Nat.add_assoc, ← Nat.mul_succ, Nat.succ_eq_add_one] at each
  simp only [places] at each ⊢
  have every := Printer.Yields.forEach (fun i => (each i).indexed i) n
  simpa only [membersOf, repeated, List.prod_singleton, List.filter_flatMap] using every


/-- What a layout prints at its offset, counted from `add`. -/
def Layout.Shown (add : Nat) (l : Layout) : Prop :=
  (l.visit add).Yields (fun ts => Judged ts (membersOf (l.elements add)) (8 * (add + l.place.offset))
    (8 * (add + l.place.offset + l.getSize)) l.Straight) l.Straight

theorem shown_number {kind : String → List Nat → ElementKind} (number : IsNumber kind)
    (field : ScalarField) (offset : Nat) (length : List Nat) :
    (field.visit offset []).Yields (fun ts => Judged ts
      [⟨kind (cTypeName field.type) length, field.name, 8 * offset⟩] (8 * offset)
      (8 * (offset + field.type.size)) True) True := by
  apply Printer.Yields.line
  intro p
  refine .single (describes_number number p field (.inl rfl) _ _) (Nat.le_refl _) ?_
  simp only [tsSizeof_tsType]
  omega

theorem shown_plain (field : ScalarField) (p : Place) (dims : List Nat) (add : Nat) :
    (Layout.array .plain p (.scalar p field) dims).Shown add := by
  have shown := visit_scalar isNumber_number field (p.offset + add) dims
  have members : membersOf (repeated dims (p.offset + add) field.type.size fun offset =>
      [⟨.number (cTypeName field.type) dims, field.name, 8 * offset⟩]) =
      repeated dims (p.offset + add) field.type.size fun offset =>
        [⟨.number (cTypeName field.type) dims, field.name, 8 * offset⟩] := by
    simp [membersOf, repeated, List.filter_flatMap, ElementKind.isMember]
  simp only [Layout.Shown, Layout.visit, Layout.visitElement, Layout.elements, Layout.arrayElements,
    Layout.getSize, Layout.Straight, Layout.place, foldl_mul, Nat.add_comm add p.offset, members]
  exact shown.imp (fun ts overlaid => overlaid.judged) id

theorem shown_bitGroup (p : Place) (bits : List BitField) (few : bits.length ≤ 32) (add : Nat) :
    (Layout.bitGroup p bits).Shown add := by
  have shown := visit_bits bits (p.offset + add) 0 (by omega)
  simp only [Layout.Shown, Layout.visit, Layout.elements, Layout.getSize, Layout.Straight, Layout.place,
    Nat.add_comm add p.offset, membersOf, members_bits bits _ few]
  refine shown.imp (fun ts judged => ?_) id
  exact judged.extend (by omega)

theorem shown_union (p : Place) (members : List UnionMember) (same : ∀ m ∈ members, m.place = p)
    (add : Nat) : (Layout.union p members).Shown add := by
  have fits : ∀ m ∈ members, m.getSize ≤ (Layout.union p members).getSize := fun m member =>
    le_foldr_max (List.mem_map_of_mem member)
  have all : membersOf ((Layout.union p members).elements add) = (Layout.union p members).elements add := by
    refine List.filter_eq_self.mpr fun e member => ?_
    simp only [Layout.elements, repeated, List.mem_flatMap, List.mem_singleton] at member
    obtain ⟨m, -, k, -, rfl⟩ := member
    rfl
  rw [Layout.Shown, all]
  exact (visit_union same fits).imp (fun ts overlaid => overlaid.judged) id

/-- A struct prints its children, with or without a prefix. -/
theorem visit_struct {P : List TsElement → Prop} {children : List Layout}
    (yields : (visitAll add children).Yields P straight) (p : Place) (typeName name : String)
    (noPrefix : Bool) (size : Nat) :
    ((Layout.struct p typeName name noPrefix size children).visit add).Yields P straight := by
  cases noPrefix with
  | true =>
    rw [Layout.visit]
    exact yields
  | false =>
    rw [Layout.visit]
    exact yields.prefixed name

mutual

theorem Layout.shown (add : Nat) : ∀ l : Layout, l.Laid → l.Shown add
  | .scalar p field, _ => by
    simp only [Layout.Shown, Layout.elements, Layout.place, Nat.add_comm add]
    exact shown_number isNumber_number field (p.offset + add) []
  | .enum p field, _ => by
    simp only [Layout.Shown, Layout.elements, Layout.place, Nat.add_comm add]
    exact visit_enum field (p.offset + add)
  | .string p field, _ => by
    simp only [Layout.Shown, Layout.elements, Layout.place, Nat.add_comm add]
    exact visit_string field (p.offset + add)
  | .unused p size, _ => .line fun n => .nothing (by simp only [Layout.place, Layout.getSize]; omega)
  | .bitGroup p bits, laid => shown_bitGroup p bits laid add
  | .union p members, laid => shown_union p members laid add
  | .array .plain p (.scalar q field) dims, laid => by
    obtain rfl : q = p := laid
    exact shown_plain field q dims add
  | .array .iterateScalar p (.scalar q field) [n], laid => by
    obtain rfl : q = p := laid
    simp only [Layout.Shown, Layout.visit, Layout.elements, Layout.arrayElements, Layout.getSize,
      Layout.Straight, Layout.place, List.foldl_cons, List.foldl_nil, List.headD_cons]
    apply visit_each
    intro i
    exact shown_number isNumber_number field (add + q.offset + field.type.size * i) [n]
  | .array .iterateScalar p (.enum q field) [n], laid => by
    obtain rfl : q = p := laid
    simp only [Layout.Shown, Layout.visit, Layout.elements, Layout.arrayElements, Layout.getSize,
      Layout.Straight, Layout.place, List.foldl_cons, List.foldl_nil, List.headD_cons]
    apply visit_each
    intro i
    exact visit_enum field (add + q.offset + field.type.size * i)
  | .array .iterateScalar p (.string q field) [n], laid => by
    obtain rfl : q = p := laid
    simp only [Layout.Shown, Layout.visit, Layout.elements, Layout.arrayElements, Layout.getSize,
      Layout.Straight, Layout.place, List.foldl_cons, List.foldl_nil, List.headD_cons]
    apply visit_each
    intro i
    exact visit_string field (add + q.offset + field.size * i)
  | .array .iterateStruct p (.struct q typeName name noPrefix size children) [n], laid => by
    obtain ⟨rfl, inside⟩ := laid
    simp only [Layout.Shown, Layout.visit, Layout.elements, Layout.arrayElements, Layout.getSize,
      Layout.Straight, Layout.place, List.foldl_cons, List.foldl_nil, List.headD_cons,
      Nat.add_comm q.offset add]
    apply visit_each
    intro i
    exact visit_struct (shownAll (add + q.offset + size * i) children 0 size inside) q typeName name
      noPrefix size
  | .struct p typeName name noPrefix size children, laid => by
    have inside := shownAll add children p.offset (p.offset + size) laid
    rw [← Nat.add_assoc] at inside
    exact visit_struct inside p typeName name noPrefix size

theorem shownAll (add : Nat) : ∀ (children : List Layout) (pos stop : Nat),
    LaidFrom pos children stop → (visitAll add children).Yields (fun ts =>
      Judged ts (membersOf (elementsOf add children)) (8 * (add + pos)) (8 * (add + stop))
        (StraightAll children)) (StraightAll children)
  | [], pos, stop, laid => by
    obtain rfl : pos = stop := laid
    exact .silent (.nothing (Nat.le_refl _))
  | l :: children, pos, stop, laid => by
    obtain ⟨rfl, own, others⟩ := laid
    have first := l.shown add own
    have rest := shownAll add children _ stop others
    simp only [visitAll, StraightAll, elementsOf, membersOf, List.filter_append]
    refine first.andThen rest fun ts ts' judged judged' => ?_
    rw [← Nat.add_assoc] at judged'
    exact judged.append judged'

end

end Layouts

/-- A struct in the making is laid as far as it has got. -/
structure Draft.Follows (base : Nat) (d : Draft) (straight : Prop) : Prop where
  laid : LaidFrom base d.children d.offset
  straight_iff : StraightAll d.children ↔ straight

section Drafts

variable {base a : Nat} {d d' : Draft} {l : Layout} {before after children : List Layout}

theorem LaidFrom.append (first : LaidFrom start before pos) (second : LaidFrom pos after stop) :
    LaidFrom start (before ++ after) stop := by
  induction before generalizing start with
  | nil =>
    obtain rfl : start = pos := first
    exact second
  | cons l before ih =>
    obtain ⟨place, own, rest⟩ := first
    exact ⟨place, own, ih rest⟩

theorem LaidFrom.le (laid : LaidFrom start children stop) : start ≤ stop := by
  induction children generalizing start with
  | nil => exact Nat.le_of_eq laid
  | cons l children ih => exact (Nat.le_add_right _ _).trans (ih laid.2.2)

@[simp] theorem straightAll_append :
    StraightAll (before ++ after) ↔ StraightAll before ∧ StraightAll after := by
  induction before with
  | nil => simp [StraightAll]
  | cons l before ih => simp [StraightAll, ih, and_assoc]

theorem Draft.Follows.empty (offset : Nat) : Draft.Follows offset { offset := offset } True :=
  ⟨rfl, Iff.rfl⟩

theorem Draft.Follows.append (follows : d.Follows base straight) (laid : l.Laid)
    (same : l.Straight ↔ straight') (here : l.place.offset = d.offset) :
    Draft.Follows base { offset := d.offset + l.getSize, children := d.children ++ [l] }
      (straight ∧ straight') := by
  constructor
  · exact follows.laid.append ⟨here, laid, rfl⟩
  · simp [StraightAll, follows.straight_iff, same]

theorem Draft.Follows.pad (follows : d.Follows base straight) (positive : 0 < a) :
    (d.padOffsetWithUnused base a).Follows base straight := by
  have later := NaturalAlignment.le_roundUp a d.offset
  rw [padOffsetWithUnused_eq positive, fillTo]
  split
  · have filled := follows.append (l := .unused ⟨d.offset, d.offset - base⟩
      (NaturalAlignment.roundUp a d.offset - d.offset)) trivial (Iff.refl True) rfl
    rwa [and_true, Layout.getSize, Nat.add_sub_cancel' later] at filled
  · next still =>
    have same : NaturalAlignment.roundUp a d.offset = d.offset := (not_lt.mp still).antisymm later
    rw [same, List.append_nil]
    exact follows

theorem Draft.Follows.addItem (follows : d.Follows base straight) (positive : 0 < l.getAlignment)
    (laid : ∀ p, (l.at p).Laid) (same : ∀ p, (l.at p).Straight ↔ straight') :
    (d.addItem base l).Follows base (straight ∧ straight') := by
  have padded := follows.pad positive
  have here : (l.at ⟨(d.padOffsetWithUnused base l.getAlignment).offset,
      (d.padOffsetWithUnused base l.getAlignment).offset - base⟩).place.offset =
      (d.padOffsetWithUnused base l.getAlignment).offset := by rw [Layout.at, place_mapPlace]
  have added := padded.append (laid _) (same _) here
  rw [Draft.addItem, setOffset_setOffsetWithinStruct]
  rwa [Layout.at, getSize_mapPlace] at added

theorem Draft.Follows.close (follows : d.Follows base straight) (structName name : String)
    (noPrefix : Bool) (within : Nat) : (d.close base within structName name noPrefix).Laid ∧
      ((d.close base within structName name noPrefix).Straight ↔ straight) := by
  have padded := follows.pad (Nat.succ_pos 3)
  refine ⟨?_, padded.straight_iff⟩
  have laid := padded.laid
  rwa [← Nat.add_sub_cancel' laid.le] at laid

theorem straightDims_iff (rows : Nat) (rest : Option Nat) :
    StraightDims (rows :: rest.toList) ↔ (rows = 1 → rest.getD 1 = 1) := by
  unfold StraightDims
  split
  · next same =>
    obtain ⟨rfl, rfl⟩ := List.cons.inj same
    cases rest <;> simp
  · next other =>
    refine iff_of_true trivial fun one => ?_
    exact absurd (one ▸ rfl) (other rest.toList)

theorem straight_member {f : Field} {m : UnionMember} (made : unionMember f = some m) :
    StraightDims m.length ↔ f.Straight := by
  match f with
  | .scalar field =>
    obtain rfl := Option.some.inj made
    exact Iff.rfl
  | .array (.scalar field) (d, rest) =>
    obtain rfl := Option.some.inj made
    exact straightDims_iff d rest
  | .arrayIterate (.scalar field) d =>
    obtain rfl := Option.some.inj made
    have one := straightDims_iff d none
    simpa [Field.Straight] using one

theorem straight_members {fields : List Field} {members : List UnionMember}
    (made : fields.mapM unionMember = some members) :
    (∀ m ∈ members, StraightDims m.length) ↔ AllStraight fields := by
  induction fields generalizing members with
  | nil =>
    obtain rfl := Option.some.inj made
    simp [AllStraight]
  | cons f fields ih =>
    simp only [List.mapM_cons, Option.bind_eq_bind, Option.bind_eq_some_iff] at made
    obtain ⟨m, own, others, rest, same⟩ := made
    obtain rfl := Option.some.inj same
    simp only [List.forall_mem_cons, AllStraight, straight_member own, ih rest]

theorem straight_union {fields : List Field} (made : unionLayout fields = some l) (p : Place) :
    (l.at p).Laid ∧ ((l.at p).Straight ↔ AllStraight fields) := by
  simp only [unionLayout, Option.bind_eq_bind, Option.bind_eq_some_iff, Option.ite_none_left_eq_some,
    Option.some.injEq] at made
  obtain ⟨members, each, -, rfl⟩ := made
  constructor
  · intro m member
    obtain ⟨m, -, rfl⟩ := List.mem_map.mp member
    rfl
  · rw [← straight_members each]
    simp [Layout.at, Layout.mapPlace, Layout.Straight]

mutual

theorem addField_follows : ∀ (f : Field) {base : Nat} {d d' : Draft} {straight : Prop},
    d.Follows base straight → addField base d f = some d' → d'.Follows base (straight ∧ f.Straight)
  | .scalar field, _, _, _, _, follows, added => by
    obtain rfl := Option.some.inj added
    exact follows.addItem field.type.size_pos (fun p => trivial) fun p => Iff.rfl
  | .enum field, _, _, _, _, follows, added => by
    obtain rfl := Option.some.inj added
    exact follows.addItem field.type.size_pos (fun p => trivial) fun p => Iff.rfl
  | .string field, _, _, _, _, follows, added => by
    obtain rfl := Option.some.inj added
    exact follows.addItem Nat.one_pos (fun p => trivial) fun p => Iff.rfl
  | .unused size, _, _, _, _, follows, added => by
    obtain rfl := Option.some.inj added
    exact follows.addItem Nat.one_pos (fun p => trivial) fun p => Iff.rfl
  | .bitGroup bitFields, _, _, _, _, follows, added => by
    simp only [addField, bitGroupLayout] at added
    split at added
    · contradiction
    · next few =>
      obtain rfl := Option.some.inj added
      exact follows.addItem (Nat.succ_pos 3) (fun p => not_lt.mp few) fun p => Iff.rfl
  | .union fields, _, _, _, _, follows, added => by
    obtain ⟨l, made, rfl⟩ := Option.map_eq_some_iff.mp added
    obtain ⟨unions, rfl, some⟩ := unionLayout_eq made
    exact follows.addItem (@aligned_union {} unions some).positive (fun p => (straight_union made p).1)
      fun p => (straight_union made p).2
  | .struct name structName noPrefix fields, _, _, _, _, follows, added => by
    simp only [addField, Option.bind_eq_bind, Option.bind_eq_some_iff, Option.some.injEq] at added
    obtain ⟨inner, added, rfl⟩ := added
    have inside := addFields_follows fields (Draft.Follows.empty _) added
    rw [true_and] at inside
    have closed := inside.close structName name noPrefix
    exact (follows.pad (Nat.succ_pos 3)).append (closed _).1 (closed _).2 rfl
  | .array (.scalar field) (rows, rest), _, _, _, _, follows, added => by
    obtain rfl := Option.some.inj added
    exact follows.addItem field.type.size_pos (fun p => rfl) fun p => straightDims_iff rows rest
  | .arrayIterate (.scalar field) length, _, _, _, _, follows, added => by
    obtain rfl := Option.some.inj added
    exact follows.addItem field.type.size_pos (fun p => rfl) fun p => Iff.rfl
  | .arrayIterate (.enum field) length, _, _, _, _, follows, added => by
    obtain rfl := Option.some.inj added
    exact follows.addItem field.type.size_pos (fun p => rfl) fun p => Iff.rfl
  | .arrayIterate (.string field) length, _, _, _, _, follows, added => by
    obtain rfl := Option.some.inj added
    exact follows.addItem Nat.one_pos (fun p => rfl) fun p => Iff.rfl
  | .arrayIterate (.struct name structName noPrefix fields) length, _, _, _, _, follows, added => by
    simp only [addField, prototypeLayout, Option.bind_eq_bind, Option.bind_eq_some_iff,
      Option.some.injEq] at added
    obtain ⟨l, ⟨inner, added, rfl⟩, rfl⟩ := added
    have inside := addFields_follows fields (Draft.Follows.empty 0) added
    rw [true_and] at inside
    obtain ⟨laid, same⟩ := inside.close structName name noPrefix 0
    rw [Draft.close, Layout.Laid] at laid
    refine follows.addItem (Nat.succ_pos 3) (fun p => ⟨rfl, ?_⟩) fun p => ?_
    · simpa only [Nat.zero_add] using laid
    · exact or_congr_right same

theorem addFields_follows : ∀ (fields : List Field) {base : Nat} {d d' : Draft} {straight : Prop},
    d.Follows base straight → addFields base d fields = some d' →
      d'.Follows base (straight ∧ AllStraight fields)
  | [], _, _, _, _, follows, added => by
    obtain rfl := Option.some.inj added
    simpa only [AllStraight, and_true] using follows
  | f :: fields, _, _, _, _, follows, added => by
    simp only [addFields, Option.bind_eq_bind, Option.bind_eq_some_iff] at added
    obtain ⟨next, first, rest⟩ := added
    have both := addFields_follows fields (addField_follows f follows first) rest
    rwa [and_assoc] at both

end

end Drafts

end FomeFw.Config
