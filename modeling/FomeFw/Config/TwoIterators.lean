import FomeFw.Config.TsOffsets

/-! The iterators over the two lists of a struct stay in step where its fields fit. -/
namespace FomeFw.Config

open TsOutput

variable {st : ReaderState} {cf : ConfigField} {prev : Option ConfigField} {later declared : List Added}
  {header : List HeaderStruct} {element : ElementMembers} {f : PlacedField}
  {nested : List ConfigField → String → Nat → Option (List TsEntry × Nat)}
  {written own tail : List TsEntry} {path : String}
  {base size bitC bitT bitC' bitT' posC posT after stop : Nat}

section Members

theorem members_bit (bit : f.cf.isBit = true) (isStruct : Bool) (path : String) (base : Nat) :
    f.members element isStruct path base =
      [⟨⟨path ++ f.cf.name, base + f.currentOffset, some f.bitIndex⟩,
        isAlignmentFill f.cf.name || isUnusedBit f.cf.name⟩] := by
  simp [PlacedField.members, bit]

theorem members_number (number : f.cf.isBit = false) (once : f.cf.isIterate = false) (path : String)
    (base : Nat) :
    f.members element false path base =
      [⟨⟨path ++ f.cf.name, base + f.currentOffset, none⟩, isAlignmentFill f.cf.name ||
        f.cf.arraySizes ≠ [] && f.elementSize.getD 0 * f.cf.elementCount = 0⟩] := by
  simp [PlacedField.members, number, once]

theorem members_struct (number : f.cf.isBit = false) (once : f.cf.isIterate = false)
    (single : f.cf.elementCount = 1) (path : String) (base : Nat) :
    f.members element true path base = element f.cf.type path f.cf.name (base + f.currentOffset) := by
  simp [PlacedField.members, number, once, single]

theorem members_iterate (number : f.cf.isBit = false) (iterated : f.cf.isIterate = true)
    (isStruct : Bool) (path : String) (base : Nat) :
    f.members element isStruct path base = (List.range (f.cf.arraySizes.headD 0)).flatMap fun i =>
      element f.cf.type path (f.cf.name ++ toString (i + 1))
        (base + f.currentOffset + f.elementSize.getD 0 * i) := by
  simp [PlacedField.members, number, iterated]

theorem members_fill (fill : isAlignmentFill f.cf.name = true) (once : f.cf.isIterate = false)
    (isStruct : Bool) (path : String) (base : Nat) :
    ∀ m ∈ f.members (elementMembers header) isStruct path base, m.silent = true := by
  intro m member
  cases number : f.cf.isBit with
  | true =>
    rw [members_bit number] at member
    rw [List.mem_singleton.mp member, fill, Bool.true_or]
  | false =>
    cases isStruct with
    | true =>
      simp only [PlacedField.members, number, once, Bool.false_eq_true, if_false, if_true] at member
      obtain ⟨i, -, inner⟩ := List.mem_flatMap.mp member
      exact elementMembers_silent fill _ m inner
    | false =>
      rw [members_number number once] at member
      rw [List.mem_singleton.mp member, fill, Bool.true_or]

end Members

section Groups

/-- The field that is declared again, and has its room in the header already. -/
def inGroup (prev : Option ConfigField) (declared : List Added) : Option ConfigField :=
  prev.filter (repeatedIn · declared)

theorem inGroup_iterate : inGroup prev (.iterate cf :: later) = none := by
  cases prev <;> rfl

theorem inGroup_both : inGroup prev (.both cf :: later) = prev.filter (·.name = cf.name) := by
  cases prev with
  | none => rfl
  | some p => simp [inGroup, Option.filter, repeatedIn, nextDeclared, eq_comm]

theorem inGroup_nil : inGroup prev [] = none := by
  cases prev <;> rfl

/-- A group that goes on has been shown already. -/
def pending (prev : Option ConfigField) (declared : List Added) (path : String) (posT : Nat) :
    List HeaderMember :=
  (inGroup prev declared).toList.map fun p => ⟨⟨path ++ p.name, posT, none⟩, true⟩

end Groups

/-- Between two declarations: bit indices, the offset in the header and the position in the
description. -/
structure InStep (st : ReaderState) (prev : Option ConfigField) (declared : List Added)
    (base bitC bitT posC posT : Nat) : Prop where
  bits : startsWithBit declared = true → bitC = bitT
  header : bitC = 0 ∨ startsWithBit declared = true ∨ (nextTs declared).any ConfigField.isBit = false
  tuning : bitT = 0 ∨ startsWithBit declared = true ∨ (nextTs declared).any ConfigField.isBit = false
  level : inGroup prev declared = none → posT = base + posC
  waits : ∀ p, inGroup prev declared = some p →
    bitC = 0 ∧ ∃ size, st.getSize p none = some size ∧ posT + size = base + posC

section Both

theorem next_bits (fits : st.BothFits prev cf later) (bit : cf.isBit = true) :
    (nextTs later).any ConfigField.isBit = startsWithBit later ∧
      (FieldIterator.next (cFieldsOf cf.name later)).any ConfigField.isBit = startsWithBit later := by
  have same := (fits.bits bit).2
  cases starts : startsWithBit later with
  | false =>
    rw [starts, Bool.or_eq_false_iff] at same
    exact same
  | true =>
    refine ⟨nextTs_of_startsWithBit starts, ?_⟩
    match later with
    | .both other :: later =>
      have otherBit : other.isBit = true := starts
      have apart : ¬ other.name = cf.name := by
        intro again
        have plain := fits.repeated (by simp [repeatedIn, nextDeclared, again])
        simp [ReaderState.isPlain, bit] at plain
      simp [cFieldsOf, Added.inHeader, apart, FieldIterator.next, not_directive_of_bit otherBit, otherBit]

/-- The size is the same whichever list says what follows. -/
theorem getSize_both (fits : st.BothFits prev cf later) :
    st.getSize cf (FieldIterator.next (cFieldsOf cf.name later)) = st.getSize cf (nextTs later) := by
  cases bit : cf.isBit with
  | true =>
    obtain ⟨tuning, shown⟩ := next_bits fits bit
    rw [getSize_bit bit, getSize_bit bit, tuning, shown]
  | false => exact (getSize_next bit _).trans (getSize_next bit _).symm

theorem repeatedIn_plain (fits : st.BothFits prev cf later) (again : repeatedIn cf later = true) :
    st.isPlain cf = true :=
  fits.repeated (by rw [again, Bool.or_true])

theorem not_bit_of_plain (plain : st.isPlain cf = true) : cf.isBit = false := by
  simp only [ReaderState.isPlain, Bool.and_eq_true, Bool.not_eq_true'] at plain
  exact plain.1.2

theorem not_repeatedIn (fits : st.BothFits prev cf later) (special : st.isPlain cf = false) :
    repeatedIn cf later = false := by
  cases again : repeatedIn cf later with
  | true => rw [repeatedIn_plain fits again] at special; contradiction
  | false => rfl

/-- The first field of its name. -/
theorem both_first (fits : st.BothFits prev cf later) (proper : (Added.both cf).Proper)
    (others : ∀ a ∈ later, a.Proper) (agrees : Agrees st nested header cf.type)
    (first : prev.filter (·.name = cf.name) = none) (level : posT = base + posC)
    (bits : cf.isBit = true → bitC = bitT)
    (sized : st.getSize cf (FieldIterator.next (cFieldsOf cf.name later)) = some size)
    (wrote : writeOneField st nested path cf (nextTs later) bitT posT = some (own, after)) :
    Shows own ((PlacedField.mk cf (st.getElementSize cf) posC bitC).members (elementMembers header)
      (isStructOf header cf.type) path base) ∧
    after = if repeatedIn cf later then posT else posT + size := by
  subst level
  have once : cf.isIterate = false := proper.2
  rw [getSize_both fits] at sized
  cases fill : isAlignmentFill cf.name with
  | true =>
    obtain ⟨rfl, size', sized', rfl⟩ := writeOneField_fill fill wrote
    obtain rfl := Option.some.inj (sized.symm.trans sized')
    rw [not_repeatedIn fits (by simp [ReaderState.isPlain, fill])]
    exact ⟨.silence (members_fill (f := ⟨cf, _, _, _⟩) fill once _ _ _), rfl⟩
  | false =>
    cases bit : cf.isBit with
    | true =>
      rw [not_repeatedIn fits (by simp [ReaderState.isPlain, bit])]
      rw [writeOneField_bit fill bit (fits.bits bit).1] at wrote
      obtain ⟨rfl, rfl⟩ := Prod.mk.inj (Option.some.inj wrote)
      rw [getSize_bit bit, Option.some.injEq] at sized
      rw [members_bit (f := ⟨cf, _, _, _⟩) bit, ← bits bit, fill, Bool.false_or]
      refine ⟨?_, by rw [sized]; rfl⟩
      cases isUnusedBit cf.name with
      | true => exact .silence (by simp)
      | false => exact .single _ _
    | false =>
      rw [getSize_next bit] at sized
      cases struct : st.getStructure cf.type with
      | some cs =>
        rw [not_repeatedIn fits (by simp [ReaderState.isPlain, struct])]
        have single : cf.elementCount = 1 := by simpa [fill, struct] using fits.one
        rw [writeOneField_struct fill proper.1 struct] at wrote
        obtain ⟨rfl, shown⟩ := agrees.fields cs struct path cf.name _ own after fill wrote
        rw [getSize_eq bit, getElementSize_struct fits.named struct, single, Option.map_some,
          Option.some.injEq, Nat.mul_one] at sized
        rw [agrees.known, struct, Option.isSome_some,
          members_struct (f := ⟨cf, _, _, _⟩) bit once single]
        exact ⟨shown, by rw [sized]; rfl⟩
      | none =>
        have plain : st.isPlain cf = true := by simp [ReaderState.isPlain, fill, bit, struct]
        obtain ⟨entry, stays, moves⟩ := writeOneField_plain plain proper.1 fits.named wrote
        rw [agrees.known, struct, Option.isSome_none,
          members_number (f := ⟨cf, _, _, _⟩) bit once]
        constructor
        · rcases entry with rfl | ⟨rfl, array, zero⟩
          · exact .single _ _
          · refine .silence ?_
            rw [getSize_eq bit] at zero
            obtain ⟨one, elementSize, nothing⟩ := Option.map_eq_some_iff.mp zero
            simp [elementSize, array, nothing]
        · cases again : repeatedIn cf later with
          | true => exact stays (nextTs_of_repeatedIn others again)
          | false =>
            obtain ⟨size', room, rfl⟩ := moves (fits.apart plain again)
            rw [fits.room plain again, first, Option.getD_none, sized] at room
            rw [Option.some.inj room]
            rfl

/-- A field that comes again is written where the first one was. -/
theorem both_again {p : ConfigField} (fits : st.BothFits prev cf later)
    (proper : (Added.both cf).Proper) (others : ∀ a ∈ later, a.Proper)
    (same : prev.filter (·.name = cf.name) = some p) (sized : st.getSize p none = some size)
    (wrote : writeOneField st nested path cf (nextTs later) bitT posT = some (own, after)) :
    cf.isBit = false ∧ Shows own [⟨⟨path ++ p.name, posT, none⟩, true⟩] ∧
    after = if repeatedIn cf later then posT else posT + size := by
  obtain ⟨rfl, named⟩ := Option.filter_eq_some_iff.mp same
  have plain : st.isPlain cf = true := by
    apply fits.repeated
    rw [Option.any_some, named, Bool.true_or]
  obtain ⟨entry, stays, moves⟩ := writeOneField_plain plain proper.1 fits.named wrote
  refine ⟨not_bit_of_plain plain, ?_, ?_⟩
  · rw [of_decide_eq_true named]
    rcases entry with rfl | ⟨rfl, -, -⟩
    · exact .single _ _
    · exact .silence (by simp)
  · cases again : repeatedIn cf later with
    | true => exact stays (nextTs_of_repeatedIn others again)
    | false =>
      obtain ⟨size', room, rfl⟩ := moves (fits.apart plain again)
      rw [fits.room plain again, same, Option.getD_some, sized] at room
      rw [Option.some.inj room]
      rfl

end Both

section Steps

theorem counted_eq {bitIndex counted : Nat}
    (possible : FieldIterator.incrementBitIndex bitIndex cf = some counted) :
    counted = if cf.isBit then bitIndex + 1 else 0 := by
  cases bit : cf.isBit with
  | true => exact incrementBitIndex_bit bit possible
  | false => exact Option.some.inj (possible.symm.trans (incrementBitIndex_plain bit _))

theorem inGroup_some : inGroup (some cf) later = if repeatedIn cf later then some cf else none := rfl

namespace InStep

theorem directive (before : InStep st prev (.directive cf :: later) base bitC bitT posC posT)
    (proper : (Added.directive cf).Proper) : InStep st prev later base bitC 0 posC posT := by
  have header : bitC = 0 ∨ (nextTs later).any ConfigField.isBit = false := by
    have header := before.header
    rw [nextTs_directive proper] at header
    simpa [startsWithBit] using header
  constructor
  · intro starts
    rcases header with none | other
    · exact none
    · rw [nextTs_of_startsWithBit starts] at other
      contradiction
  · exact header.imp_right .inr
  · exact .inl rfl
  · exact before.level
  · exact before.waits

theorem both_first (before : InStep st prev (.both cf :: later) base bitC bitT posC posT)
    (fits : st.BothFits prev cf later) (first : prev.filter (·.name = cf.name) = none)
    (sized : st.getSize cf (FieldIterator.next (cFieldsOf cf.name later)) = some size)
    (countedC : FieldIterator.incrementBitIndex bitC cf = some bitC')
    (countedT : FieldIterator.incrementBitIndex bitT cf = some bitT')
    (moved : after = if repeatedIn cf later then posT else posT + size) :
    InStep st (some cf) later base bitC' bitT' (posC + size) after := by
  have level : posT = base + posC := before.level (inGroup_both.trans first)
  obtain rfl := counted_eq countedC
  obtain rfl := counted_eq countedT
  have following : cf.isBit = true →
      startsWithBit later = true ∨ (nextTs later).any ConfigField.isBit = false := by
    intro bit
    rw [(next_bits fits bit).1]
    exact Bool.eq_false_or_eq_true _
  constructor
  · intro _
    cases bit : cf.isBit with
    | true => rw [before.bits bit]
    | false => rfl
  · cases bit : cf.isBit with
    | true => exact .inr (following bit)
    | false => exact .inl rfl
  · cases bit : cf.isBit with
    | true => exact .inr (following bit)
    | false => exact .inl rfl
  · intro alone
    rw [inGroup_some] at alone
    split at alone
    · contradiction
    · next last =>
      rw [moved, if_neg last]
      omega
  · intro p same
    rw [inGroup_some] at same
    split at same
    · next again =>
      obtain rfl := Option.some.inj same
      have number := not_bit_of_plain (repeatedIn_plain fits again)
      rw [getSize_next number] at sized
      refine ⟨by rw [number]; rfl, size, sized, ?_⟩
      rw [moved, if_pos again]
      omega
    · contradiction

theorem both_again {p : ConfigField}
    (before : InStep st prev (.both cf :: later) base bitC bitT posC posT)
    (same : prev.filter (·.name = cf.name) = some p) (sized : st.getSize p none = some size)
    (waiting : posT + size = base + posC)
    (moved : after = if repeatedIn cf later then posT else posT + size) :
    InStep st (some p) later base bitC 0 posC after := by
  have none : bitC = 0 := (before.waits p (inGroup_both.trans same)).1
  have named : p.name = cf.name := of_decide_eq_true (Option.filter_eq_some_iff.mp same).2
  have again : repeatedIn p later = repeatedIn cf later := by rw [repeatedIn, repeatedIn, named]
  constructor
  · exact fun _ => none
  · exact .inl none
  · exact .inl rfl
  · intro alone
    rw [inGroup_some, again] at alone
    split at alone
    · contradiction
    · next last => rw [moved, if_neg last, waiting]
  · intro q still
    rw [inGroup_some, again] at still
    split at still
    · next more =>
      obtain rfl := Option.some.inj still
      exact ⟨none, size, sized, by rw [moved, if_pos more, waiting]⟩
    · contradiction

theorem iterate (before : InStep st prev (.iterate cf :: later) base bitC bitT posC posT)
    (alone : repeatedIn cf later = false) :
    InStep st (some cf) later base 0 (if cf.arraySizes.headD 0 = 0 then bitT else 0) (posC + size)
      (posT + size) := by
  have tuning : (if cf.arraySizes.headD 0 = 0 then bitT else 0) = 0 ∨
      (nextTs later).any ConfigField.isBit = false := by
    split
    · next empty =>
      have same : nextTs (.iterate cf :: later) = nextTs later := by
        rw [nextTs, List.flatMap_cons, Added.inTuning, empty]
        rfl
      have tuning := before.tuning
      rw [same] at tuning
      simpa [startsWithBit] using tuning
    · exact .inl rfl
  constructor
  · intro starts
    rcases tuning with none | other
    · exact none.symm
    · rw [nextTs_of_startsWithBit starts] at other
      contradiction
  · exact .inl rfl
  · exact tuning.imp_right .inr
  · intro _
    rw [before.level inGroup_iterate, Nat.add_assoc]
  · intro p same
    rw [inGroup_some, alone] at same
    contradiction

end InStep

end Steps

section Walk

def prevName (prev : Option ConfigField) : String := (prev.map ConfigField.name).getD ""

theorem eq_prevName (named : cf.name ≠ "") :
    cf.name = prevName prev ↔ prev.filter (·.name = cf.name) ≠ none := by
  cases prev with
  | none => simp [prevName, named]
  | some p => simp [prevName, Option.filter, eq_comm]

/-- The rest of the header and the rest of the description have the same offsets. -/
def SameOffsets (st : ReaderState)
    (nested : List ConfigField → String → Nat → Option (List TsEntry × Nat))
    (header : List HeaderStruct) (path : String) (base : Nat) (prev : Option ConfigField)
    (declared : List Added) (bitC bitT posC posT : Nat) : Prop :=
  ∀ fields stopC written stopT,
    FieldIterator.loop st.placeField bitC posC (cFieldsOf (prevName prev) declared) =
      some (fields, stopC) →
    FieldIterator.loop (writeOneField st nested path) bitT posT (declared.flatMap Added.inTuning) =
      some (written, stopT) →
    stopT = base + stopC ∧ Shows written (pending prev declared path posT ++
      fieldMembers header (elementMembers header) path base fields)

namespace SameOffsets

theorem directive (proper : (Added.directive cf).Proper)
    (fits : cf.hasComment = true ∧ isAlignmentFill cf.name = false)
    (rest : SameOffsets st nested header path base prev later bitC 0 posC posT) :
    SameOffsets st nested header path base prev (.directive cf :: later) bitC bitT posC posT := by
  intro fields stopC written stopT placed wrote
  obtain ⟨own, after, counted, tail, visited, possible, more, rfl⟩ := loop_cons wrote
  have number : cf.isBit = false := by
    cases bit : cf.isBit with
    | true => exact absurd proper (by simp [Added.Proper, not_directive_of_bit bit])
    | false => rfl
  rw [writeOneField_directive proper fits.1 fits.2] at visited
  obtain ⟨rfl, rfl⟩ := Prod.mk.inj (Option.some.inj visited)
  rw [counted_eq possible, number] at more
  exact rest fields stopC tail stopT placed more

theorem both_first (fits : st.BothFits prev cf later) (proper : (Added.both cf).Proper)
    (others : ∀ a ∈ later, a.Proper) (agrees : Agrees st nested header cf.type)
    (first : prev.filter (·.name = cf.name) = none)
    (inStep : InStep st prev (.both cf :: later) base bitC bitT posC posT)
    (rest : ∀ bitC bitT posC posT, InStep st (some cf) later base bitC bitT posC posT →
      SameOffsets st nested header path base (some cf) later bitC bitT posC posT) :
    SameOffsets st nested header path base prev (.both cf :: later) bitC bitT posC posT := by
  intro fields stopC written stopT placed wrote
  have shown : cFieldsOf (prevName prev) (.both cf :: later) = cf :: cFieldsOf cf.name later := by
    refine if_neg ?_
    rw [eq_prevName fits.named, first]
    exact fun some => some rfl
  rw [shown] at placed
  obtain ⟨size, countedC, fields, sized, possibleC, moreC, rfl⟩ := place_cons placed
  obtain ⟨own, after, countedT, tail, visited, possibleT, moreT, rfl⟩ := loop_cons wrote
  have level : posT = base + posC := inStep.level (inGroup_both.trans first)
  obtain ⟨shows, moved⟩ :=
    Config.both_first fits proper others agrees first level inStep.bits sized visited
  have inStep' := inStep.both_first fits first sized possibleC possibleT moved
  obtain ⟨same, inner⟩ := rest _ _ _ _ inStep' _ _ _ _ moreC moreT
  refine ⟨same, ?_⟩
  rw [pending, inGroup_both, first]
  refine shows.pass ?_ inner
  intro m member
  rw [pending, inGroup_some] at member
  split at member
  · next again =>
    have plain := repeatedIn_plain fits again
    have number : cf.isBit = false := not_bit_of_plain plain
    have noStruct : isStructOf header cf.type = false := by
      simp only [ReaderState.isPlain, Bool.and_eq_true, Option.isNone_iff_eq_none] at plain
      rw [agrees.known, plain.2, Option.isSome_none]
    obtain rfl := List.mem_singleton.mp member
    rw [noStruct, members_number (f := ⟨cf, _, _, _⟩) number proper.2, moved, if_pos again, level]
    exact ⟨_, List.mem_singleton_self _, rfl⟩
  · contradiction

theorem both_again {p : ConfigField} (fits : st.BothFits prev cf later)
    (proper : (Added.both cf).Proper) (others : ∀ a ∈ later, a.Proper)
    (same : prev.filter (·.name = cf.name) = some p)
    (inStep : InStep st prev (.both cf :: later) base bitC bitT posC posT)
    (rest : ∀ bitC bitT posC posT, InStep st (some p) later base bitC bitT posC posT →
      SameOffsets st nested header path base (some p) later bitC bitT posC posT) :
    SameOffsets st nested header path base prev (.both cf :: later) bitC bitT posC posT := by
  intro fields stopC written stopT placed wrote
  obtain ⟨rfl, named⟩ := Option.filter_eq_some_iff.mp same
  have hidden : cFieldsOf (prevName (some p)) (.both cf :: later) = cFieldsOf (prevName (some p)) later :=
    if_pos (of_decide_eq_true named).symm
  rw [hidden] at placed
  obtain ⟨own, after, countedT, tail, visited, possibleT, moreT, rfl⟩ := loop_cons wrote
  obtain ⟨-, size, sized, waiting⟩ := inStep.waits p (inGroup_both.trans same)
  obtain ⟨number, shows, moved⟩ := Config.both_again fits proper others same sized visited
  rw [counted_eq possibleT, number] at moreT
  have inStep' := inStep.both_again same sized waiting moved
  obtain ⟨stops, inner⟩ := rest _ _ _ _ inStep' _ _ _ _ placed moreT
  refine ⟨stops, ?_⟩
  rw [pending, inGroup_both, same]
  refine shows.pass ?_ inner
  intro m member
  rw [pending, inGroup_some] at member
  split at member
  · next again =>
    have more : repeatedIn cf later = true := by rwa [repeatedIn, of_decide_eq_true named] at again
    obtain rfl := List.mem_singleton.mp member
    rw [moved, if_pos more]
    exact ⟨_, List.mem_singleton_self _, rfl⟩
  · contradiction

theorem iterate (fits : st.IterateFits prev cf later) (proper : (Added.iterate cf).Proper)
    (agrees : Agrees st nested header cf.type)
    (inStep : InStep st prev (.iterate cf :: later) base bitC bitT posC posT)
    (rest : ∀ bitC bitT posC posT, InStep st (some cf) later base bitC bitT posC posT →
      SameOffsets st nested header path base (some cf) later bitC bitT posC posT) :
    SameOffsets st nested header path base prev (.iterate cf :: later) bitC bitT posC posT := by
  intro fields stopC written stopT placed wrote
  obtain ⟨number, declares⟩ := Bool.or_eq_false_iff.mp fits.type
  obtain ⟨other, alone⟩ := Bool.or_eq_false_iff.mp fits.single
  have shown : cFieldsOf (prevName prev) (.iterate cf :: later) = cf :: cFieldsOf cf.name later := by
    refine if_neg ?_
    rw [eq_prevName fits.named, not_not]
    cases prev with
    | none => rfl
    | some p => simpa using other
  rw [shown] at placed
  obtain ⟨size, countedC, fields, sized, possibleC, moreC, rfl⟩ := place_cons placed
  rw [counted_eq possibleC, number] at moreC
  rw [getSize_next number, fits.size] at sized
  obtain ⟨one, elementSize, rfl⟩ := Option.map_eq_some_iff.mp sized
  have level : posT = base + posC := inStep.level inGroup_iterate
  have wrote' : FieldIterator.loop (writeOneField st nested path) bitT (posT + one * 0)
      ((List.range' 0 (cf.arraySizes.headD 0)).map cf.element ++ later.flatMap Added.inTuning) =
      some (written, stopT) := by
    rw [← List.range_eq_range']
    exact wrote
  have apart := fits.apart
  rw [Option.isNone_iff_eq_none, ← Nat.zero_add (cf.arraySizes.headD 0)] at apart
  obtain ⟨first, tail, rfl, shows, moreT⟩ :=
    elements_agree agrees declares number fits.named elementSize apart wrote'
  rw [Nat.zero_add, Nat.mul_comm] at moreT
  obtain ⟨stops, inner⟩ := rest _ _ _ _ (inStep.iterate alone) _ _ _ _ moreC moreT
  refine ⟨stops, ?_⟩
  have iterated : cf.isIterate = true := proper
  rw [pending, inGroup_some, alone] at inner
  rw [← List.range_eq_range', level] at shows
  rw [pending, inGroup_iterate, fieldMembers, List.flatMap_cons,
    members_iterate (f := ⟨cf, _, _, _⟩) number iterated, elementSize]
  exact shows.append inner

end SameOffsets

/-- The two iterators stay in step to the end of the struct. -/
theorem sameOffsets (proper : ∀ a ∈ declared, a.Proper)
    (agrees : ∀ a ∈ declared, Agrees st nested header a.field.type) (fits : st.Fits prev declared)
    (inStep : InStep st prev declared base bitC bitT posC posT) :
    SameOffsets st nested header path base prev declared bitC bitT posC posT := by
  induction declared generalizing prev bitC bitT posC posT with
  | nil =>
    intro fields stopC written stopT placed wrote
    obtain ⟨rfl, rfl⟩ := Prod.mk.inj (Option.some.inj placed)
    obtain ⟨rfl, rfl⟩ := Prod.mk.inj (Option.some.inj wrote)
    rw [pending, inGroup_nil]
    exact ⟨inStep.level inGroup_nil, .nil⟩
  | cons a later ih =>
    obtain ⟨own, others⟩ := List.forall_mem_cons.mp proper
    obtain ⟨known, more⟩ := List.forall_mem_cons.mp agrees
    cases a with
    | both cf =>
      obtain ⟨fit, fits⟩ := fits
      cases group : prev.filter (·.name = cf.name) with
      | none =>
        rw [group] at fits
        exact .both_first fit own others known group inStep fun _ _ _ _ => ih others more fits
      | some p =>
        rw [group] at fits
        exact .both_again fit own others group inStep fun _ _ _ _ => ih others more fits
    | iterate cf =>
      obtain ⟨fit, fits⟩ := fits
      exact .iterate fit own known inStep fun _ _ _ _ => ih others more fits
    | directive cf =>
      obtain ⟨fit, fits⟩ := fits
      exact .directive own fit (ih others more fits (inStep.directive own))

end Walk

end FomeFw.Config
