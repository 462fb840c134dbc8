import FomeFw.Config.OneMap

/-! In even files the tuning software has the offsets of the C header. -/
namespace FomeFw.Config

variable {st st' : ReaderState} {s : ConfigStructure} {cf next : ConfigField} {rest : List ConfigField}
  {prev : Option ConfigField} {later declared : List Added} {header earlier : List HeaderStruct}
  {written more : List TsEntry} {members others : List HeaderMember} {path name type : String}

section Sizes

theorem not_directive_of_bit (bit : cf.isBit = true) : cf.isDirective = false := by
  simp only [ConfigField.isBit, ConfigField.isDirective, equalsIgnoreCase, decide_eq_true_eq,
    decide_eq_false_iff_not] at bit ⊢
  rw [← bit]
  decide

/-- What follows a field matters for bits only. -/
theorem getSize_eq (plain : cf.isBit = false) (next : Option ConfigField) :
    st.getSize cf next = (st.getElementSize cf).map (· * cf.elementCount) := by
  simp only [ReaderState.getSize, plain, Bool.false_eq_true, if_false, ConfigField.elementCount]
  congr 1
  funext size
  exact foldl_mul size cf.arraySizes

theorem getSize_next (plain : cf.isBit = false) (next : Option ConfigField) :
    st.getSize cf next = st.getSize cf none := by
  rw [getSize_eq plain, getSize_eq plain]

theorem getSize_bit (bit : cf.isBit = true) (next : Option ConfigField) :
    st.getSize cf next = some (if next.any ConfigField.isBit then 0 else 4) := by
  simp [ReaderState.getSize, bit]

theorem incrementBitIndex_plain (plain : cf.isBit = false) (bitIndex : Nat) :
    FieldIterator.incrementBitIndex bitIndex cf = some 0 := by
  simp [FieldIterator.incrementBitIndex, plain]

theorem incrementBitIndex_bit (bit : cf.isBit = true) {bitIndex counted : Nat}
    (possible : FieldIterator.incrementBitIndex bitIndex cf = some counted) : counted = bitIndex + 1 := by
  simp only [FieldIterator.incrementBitIndex, bit, if_true] at possible
  split at possible
  · contradiction
  · exact (Option.some.inj possible).symm

end Sizes

section Loops

variable {bitIndex position stop : Nat}

theorem loop_cons {α : Type} {visit : ConfigField → Option ConfigField → Nat → Nat → Option (List α × Nat)}
    {out : List α} (looped : FieldIterator.loop visit bitIndex position (cf :: rest) = some (out, stop)) :
    ∃ own after counted tail, visit cf (FieldIterator.next rest) bitIndex position = some (own, after) ∧
      FieldIterator.incrementBitIndex bitIndex cf = some counted ∧
      FieldIterator.loop visit counted after rest = some (tail, stop) ∧ out = own ++ tail := by
  simp only [FieldIterator.loop, Option.bind_eq_bind, Option.bind_eq_some_iff, Option.some.injEq,
    Prod.mk.injEq] at looped
  obtain ⟨⟨own, after⟩, visited, counted, possible, ⟨tail, stop'⟩, more, rfl, rfl⟩ := looped
  exact ⟨own, after, counted, tail, visited, possible, more, rfl⟩

theorem place_cons {fields : List PlacedField}
    (placed : FieldIterator.loop st.placeField bitIndex position (cf :: rest) = some (fields, stop)) :
    ∃ size counted tail, st.getSize cf (FieldIterator.next rest) = some size ∧
      FieldIterator.incrementBitIndex bitIndex cf = some counted ∧
      FieldIterator.loop st.placeField counted (position + size) rest = some (tail, stop) ∧
      fields = ⟨cf, st.getElementSize cf, position, bitIndex⟩ :: tail := by
  obtain ⟨own, after, counted, tail, visited, possible, more, rfl⟩ := loop_cons placed
  obtain ⟨size, sized, same⟩ := Option.bind_eq_some_iff.mp visited
  obtain ⟨rfl, rfl⟩ := Prod.mk.inj (Option.some.inj same)
  exact ⟨size, counted, tail, sized, possible, more, rfl⟩

end Loops

section Following

theorem next_cons (plain : cf.isDirective = false) : FieldIterator.next (cf :: rest) = some cf := by
  simp [FieldIterator.next, plain]

theorem nextTs_both (proper : (Added.both cf).Proper) : nextTs (.both cf :: later) = some cf :=
  next_cons proper.1

theorem nextTs_directive (proper : (Added.directive cf).Proper) :
    nextTs (.directive cf :: later) = nextTs later := by
  have directive : cf.isDirective = true := proper
  simp [nextTs, FieldIterator.next, Added.inTuning, directive]

theorem nextTs_of_startsWithBit (starts : startsWithBit later = true) :
    (nextTs later).any ConfigField.isBit = true := by
  match later with
  | .both cf :: later =>
    have bit : cf.isBit = true := starts
    simp [nextTs, Added.inTuning, FieldIterator.next, not_directive_of_bit bit, bit]

/-- A field that is declared again is what follows in the other list. -/
theorem nextTs_of_repeatedIn (proper : ∀ a ∈ later, a.Proper) (again : repeatedIn cf later = true) :
    (nextTs later).any (·.name = cf.name) = true := by
  induction later with
  | nil => contradiction
  | cons a later ih =>
    obtain ⟨own, others⟩ := List.forall_mem_cons.mp proper
    cases a with
    | both other =>
      have same : other.name = cf.name := by simpa [repeatedIn, nextDeclared] using again
      simp [nextTs_both own, same]
    | iterate other => simp [repeatedIn, nextDeclared] at again
    | directive other =>
      rw [nextTs_directive own]
      exact ih others again

end Following

section Showing

theorem Shows.nil : Shows [] [] := ⟨by simp, by simp⟩

/-- The entries of members that go on may be those of the members before. -/
theorem Shows.pass {going : List HeaderMember} (first : Shows written members)
    (shown : ∀ m ∈ going, ∃ m' ∈ members, m'.entry = m.entry) (rest : Shows more (going ++ others)) :
    Shows (written ++ more) (members ++ others) := by
  constructor
  · intro e member
    rcases List.mem_append.mp member with left | right
    · obtain ⟨m, there, same⟩ := first.right e left
      exact ⟨m, List.mem_append_left _ there, same⟩
    · obtain ⟨m, there, same⟩ := rest.right e right
      rcases List.mem_append.mp there with before | after
      · obtain ⟨m', there', same'⟩ := shown m before
        exact ⟨m', List.mem_append_left _ there', same'.trans same⟩
      · exact ⟨m, List.mem_append_right _ after, same⟩
  · intro m member loud
    rcases List.mem_append.mp member with left | right
    · exact List.mem_append_left _ (first.all m left loud)
    · exact List.mem_append_right _ (rest.all m (List.mem_append_right _ right) loud)

theorem Shows.append (first : Shows written members) (second : Shows more others) :
    Shows (written ++ more) (members ++ others) :=
  @Shows.pass _ _ _ _ [] first nofun second

theorem Shows.silence (silent : ∀ m ∈ members, m.silent = true) : Shows [] members := by
  constructor
  · simp
  · intro m member shown
    rw [silent m member] at shown
    contradiction

theorem Shows.single (e : TsEntry) (silent : Bool) : Shows [e] [⟨e, silent⟩] := ⟨by simp, by simp⟩

/-- A name like that of a fill makes all of an element silent. -/
theorem elementMembers_silent (fill : isAlignmentFill name = true) (offset : Nat) :
    ∀ m ∈ elementMembers header type path name offset, m.silent = true := by
  induction header with
  | nil => simp [elementMembers, fill]
  | cons h earlier ih =>
    simp only [elementMembers]
    split
    · intro m member
      obtain ⟨inner, -, rfl⟩ := List.mem_map.mp member
      simp [fill]
    · exact ih

theorem elementMembers_number (number : isStructOf header type = false) (offset : Nat) :
    elementMembers header type path name offset = [⟨⟨path ++ name, offset, none⟩, isAlignmentFill name⟩] := by
  induction header with
  | nil => rfl
  | cons h earlier ih =>
    simp only [isStructOf, List.any_cons, Bool.or_eq_false_iff, decide_eq_false_iff_not] at number
    simp only [elementMembers, if_neg number.1]
    exact ih number.2

end Showing

section Fields

open TsOutput

variable {nested : List ConfigField → String → Nat → Option (List TsEntry × Nat)}
  {bitIndex position after : Nat} {following : Option ConfigField}

theorem writeOneField_fill (fill : isAlignmentFill cf.name = true)
    (wrote : writeOneField st nested path cf following bitIndex position = some (written, after)) :
    written = [] ∧ ∃ size, st.getSize cf following = some size ∧ after = position + size := by
  rw [writeOneField, if_pos fill] at wrote
  obtain ⟨size, sized, same⟩ := Option.bind_eq_some_iff.mp wrote
  obtain ⟨rfl, rfl⟩ := Prod.mk.inj (Option.some.inj same)
  exact ⟨rfl, size, sized, rfl⟩

theorem writeOneField_directive (directive : cf.isDirective = true) (comment : cf.hasComment = true)
    (ordinary : isAlignmentFill cf.name = false) :
    writeOneField st nested path cf following bitIndex position = some ([], position) := by
  simp [writeOneField, directive, comment, ordinary]

theorem writeOneField_struct {cs : ConfigStructure} (ordinary : isAlignmentFill cf.name = false)
    (declares : cf.isDirective = false) (struct : st.getStructure cf.type = some cs) :
    writeOneField st nested path cf following bitIndex position =
      nested cs.tsFields (if cs.withPrefix then path ++ cf.name ++ "_" else path) position := by
  simp [writeOneField, ordinary, declares, struct]

theorem writeOneField_bit (ordinary : isAlignmentFill cf.name = false) (bit : cf.isBit = true)
    (number : st.getStructure cf.type = none) :
    writeOneField st nested path cf following bitIndex position =
      some (if isUnusedBit cf.name then [] else [⟨path ++ cf.name, position, some bitIndex⟩],
        position + if following.any ConfigField.isBit then 0 else 4) := by
  simp [writeOneField, ordinary, not_directive_of_bit bit, number, bit, getSize_bit bit]

/-- A number or a custom type makes one entry; the position waits while the name comes again. -/
theorem writeOneField_plain (plain : st.isPlain cf = true) (declares : cf.isDirective = false)
    (named : cf.name ≠ "")
    (wrote : writeOneField st nested path cf following bitIndex position = some (written, after)) :
    (written = [⟨path ++ cf.name, position, none⟩] ∨
      written = [] ∧ cf.arraySizes ≠ [] ∧ st.getSize cf none = some 0) ∧
    (following.any (·.name = cf.name) = true → after = position) ∧
    (following.any (·.name = cf.name) = false →
      ∃ size, st.room cf = some size ∧ after = position + size) := by
  simp only [ReaderState.isPlain, Bool.and_eq_true, Bool.not_eq_true', Option.isNone_iff_eq_none] at plain
  obtain ⟨⟨ordinary, number⟩, noStruct⟩ := plain
  simp only [writeOneField, ordinary, Bool.false_eq_true, if_false, declares, Bool.false_and, noStruct,
    number] at wrote
  have size := @getSize_next st cf number following
  cases custom : st.tsCustomSize.lookup cf.type with
  | some customSize =>
    simp only [custom, Option.some.injEq, Prod.mk.injEq] at wrote
    obtain ⟨rfl, rfl⟩ := wrote
    have room : st.room cf = some customSize := by
      simp [ReaderState.room, ReaderState.getElementSize, custom, noStruct, named]
    refine ⟨.inl rfl, ?_, ?_⟩
    · exact fun same => if_pos same
    · exact fun other => ⟨customSize, room, if_neg (by simp [other])⟩
  | none =>
    have room : st.room cf = st.getSize cf none := by simp [ReaderState.room, custom]
    simp only [custom] at wrote
    rw [room]
    split at wrote
    · split at wrote
      · next same =>
        obtain ⟨rfl, rfl⟩ := Prod.mk.inj (Option.some.inj wrote)
        exact ⟨.inl rfl, fun _ => rfl, fun other => absurd (same.symm.trans other) (by decide)⟩
      · next other =>
        obtain ⟨bytes, sized, same⟩ := Option.bind_eq_some_iff.mp wrote
        obtain ⟨rfl, rfl⟩ := Prod.mk.inj (Option.some.inj same)
        exact ⟨.inl rfl, fun same => absurd same other, fun _ => ⟨bytes, size ▸ sized, rfl⟩⟩
    · next array =>
      obtain ⟨bytes, sized, same⟩ := Option.bind_eq_some_iff.mp wrote
      rw [size] at sized
      split at same
      · next empty =>
        obtain ⟨rfl, rfl⟩ := Prod.mk.inj (Option.some.inj same)
        exact ⟨.inr ⟨rfl, array, empty ▸ sized⟩, fun _ => rfl, fun _ => ⟨bytes, sized, by simp [empty]⟩⟩
      · obtain ⟨rfl, rfl⟩ := Prod.mk.inj (Option.some.inj same)
        refine ⟨.inl rfl, ?_, ?_⟩
        · exact fun same => if_pos same
        · exact fun other => ⟨bytes, sized, if_neg (by simp [other])⟩

end Fields

section Elements

open TsOutput

variable {nested : List ConfigField → String → Nat → Option (List TsEntry × Nat)}
  {bitIndex position after size : Nat} {following : Option ConfigField}

/-- The type is a struct for both, and the fields of one are written where the header has them. -/
structure Agrees (st : ReaderState)
    (nested : List ConfigField → String → Nat → Option (List TsEntry × Nat))
    (header : List HeaderStruct) (type : String) : Prop where
  known : isStructOf header type = (st.getStructure type).isSome
  fields : ∀ cs, st.getStructure type = some cs → ∀ path name offset written stop,
    isAlignmentFill name = false →
    nested cs.tsFields (if cs.withPrefix then path ++ name ++ "_" else path) offset =
      some (written, stop) →
    stop = offset + cs.totalSize ∧ Shows written (elementMembers header type path name offset)

theorem getElementSize_struct {cs : ConfigStructure} (named : cf.name ≠ "")
    (struct : st.getStructure cf.type = some cs) : st.getElementSize cf = some cs.totalSize := by
  simp [ReaderState.getElementSize, named, struct]

theorem getElementSize_type {other : ConfigField} (named : other.name ≠ "") (named' : cf.name ≠ "")
    (same : other.type = cf.type) : st.getElementSize other = st.getElementSize cf := by
  simp [ReaderState.getElementSize, named, named', same]

/-- A single value takes what one element of its type takes. -/
theorem element_agrees (agrees : Agrees st nested header cf.type) (declares : cf.isDirective = false)
    (number : cf.isBit = false) (named : cf.name ≠ "") (single : cf.arraySizes = [])
    (apart : st.getStructure cf.type = none → following.any (·.name = cf.name) = false)
    (wrote : writeOneField st nested path cf following bitIndex position = some (written, after)) :
    ∃ size, st.getElementSize cf = some size ∧ after = position + size ∧
      Shows written (elementMembers header cf.type path cf.name position) := by
  have one : ∀ size, st.getSize cf none = some size → st.getElementSize cf = some size := by
    intro size sized
    rw [getSize_eq number, ConfigField.elementCount, single, List.prod_nil] at sized
    simpa using sized
  cases fill : isAlignmentFill cf.name with
  | true =>
    obtain ⟨rfl, size, sized, rfl⟩ := writeOneField_fill fill wrote
    rw [getSize_next number] at sized
    exact ⟨size, one size sized, rfl, .silence (elementMembers_silent fill position)⟩
  | false =>
    cases struct : st.getStructure cf.type with
    | some cs =>
      rw [writeOneField_struct fill declares struct] at wrote
      obtain ⟨rfl, shown⟩ := agrees.fields cs struct path cf.name position written after fill wrote
      exact ⟨cs.totalSize, getElementSize_struct named struct, rfl, shown⟩
    | none =>
      have plain : st.isPlain cf = true := by simp [ReaderState.isPlain, fill, number, struct]
      obtain ⟨entry, -, moves⟩ := writeOneField_plain plain declares named wrote
      obtain ⟨size, room, rfl⟩ := moves (apart struct)
      have sized : st.getElementSize cf = some size := by
        rw [ReaderState.room] at room
        split at room
        · exact room
        · exact one size room
      refine ⟨size, sized, rfl, ?_⟩
      rw [elementMembers_number (agrees.known.trans (by rw [struct]; rfl)), fill]
      rcases entry with rfl | ⟨-, array, -⟩
      · exact .single _ _
      · exact absurd single array

/-- One of the `elements` of an array that is iterated. -/
def ConfigField.element (cf : ConfigField) (i : Nat) : ConfigField :=
  { name := cf.name ++ toString (i + 1), type := cf.type }

theorem element_name_ne (named : cf.name ≠ "") (i : Nat) : (cf.element i).name ≠ "" := by
  intro empty
  exact named (String.append_eq_empty_iff.mp empty).1

/-- Elements have names of their own. -/
theorem element_name_inj {i j : Nat} (same : (cf.element i).name = (cf.element j).name) : i = j := by
  have lists := congrArg String.toList same
  simp only [ConfigField.element, String.toList_append, Nat.toString_eq_repr, Nat.toList_repr] at lists
  have digits := congrArg (Nat.ofDigitChars 10 · 0) (List.append_cancel_left lists)
  simpa using digits

/-- The elements from number `k` on, one behind the other. -/
theorem elements_agree (agrees : Agrees st nested header cf.type) (declares : cf.isDirective = false)
    (number : cf.isBit = false) (named : cf.name ≠ "") (sized : st.getElementSize cf = some size)
    {k m base stop : Nat}
    (apart : st.getStructure cf.type = none →
      (FieldIterator.next rest).any (·.name = cf.name ++ toString (k + m)) = false)
    (wrote : FieldIterator.loop (writeOneField st nested path) bitIndex (base + size * k)
      ((List.range' k m).map cf.element ++ rest) = some (written, stop)) :
    ∃ first tail, written = first ++ tail ∧
      Shows first ((List.range' k m).flatMap fun i =>
        elementMembers header cf.type path (cf.name ++ toString (i + 1)) (base + size * i)) ∧
      FieldIterator.loop (writeOneField st nested path) (if m = 0 then bitIndex else 0)
        (base + size * (k + m)) rest = some (tail, stop) := by
  induction m generalizing k bitIndex written with
  | zero => exact ⟨[], written, rfl, .nil, wrote⟩
  | succ m ih =>
    rw [List.range'_succ, List.map_cons, List.cons_append] at wrote
    obtain ⟨own, after, counted, more, visited, possible, others, rfl⟩ := loop_cons wrote
    have declares' : ∀ i, (cf.element i).isDirective = false := fun _ => declares
    have number' : (cf.element k).isBit = false := number
    have next : st.getStructure cf.type = none →
        (FieldIterator.next ((List.range' (k + 1) m).map cf.element ++ rest)).any
          (·.name = (cf.element k).name) = false := by
      intro struct
      cases m with
      | zero => exact apart struct
      | succ m =>
        rw [List.range'_succ, List.map_cons, List.cons_append, next_cons (declares' _),
          Option.any_some, decide_eq_false_iff_not]
        intro same
        exact absurd (element_name_inj same) (by omega)
    have agrees' : Agrees st nested header (cf.element k).type := agrees
    obtain ⟨size', sized', rfl, shown⟩ :=
      element_agrees agrees' (declares' k) number' (element_name_ne named k) rfl next visited
    rw [getElementSize_type (element_name_ne named k) named rfl, sized] at sized'
    obtain rfl := Option.some.inj sized'
    rw [incrementBitIndex_plain number'] at possible
    obtain rfl := Option.some.inj possible
    have moved : base + size * k + size = base + size * (k + 1) := by
      rw [Nat.mul_succ, Nat.add_assoc]
    have last : k + (m + 1) = k + 1 + m := by omega
    rw [moved] at others
    rw [last] at apart
    obtain ⟨first, tail, rfl, inner, after⟩ := ih apart others
    refine ⟨own ++ first, tail, (List.append_assoc ..).symm, ?_, ?_⟩
    · rw [List.range'_succ, List.flatMap_cons]
      exact shown.append inner
    · rw [last, if_neg (Nat.succ_ne_zero m)]
      rw [ite_self] at after
      exact after

end Elements

end FomeFw.Config
