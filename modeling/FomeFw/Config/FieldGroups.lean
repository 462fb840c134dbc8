import FomeFw.Config.EvenFiles
import FomeFw.Config.TwoGenerators

/-! What the old generator does with one more field: where it is placed, and that groups of bits are
filled up. -/
namespace FomeFw.Config

variable {st : ReaderState} {s s' : ConfigStructure} {cf : ConfigField} {fields more : List ConfigField}
  {out : List PlacedField} {bitIndex position stop : Nat}

section Loops

/-- Behind fields; with more than 32 bits in a row there is none. -/
def bitIndexAfter (bitIndex : Nat) (fields : List ConfigField) : Option Nat :=
  fields.foldlM FieldIterator.incrementBitIndex bitIndex

@[simp] theorem bitIndexAfter_nil : bitIndexAfter bitIndex [] = some bitIndex := rfl

@[simp] theorem bitIndexAfter_cons : bitIndexAfter bitIndex (cf :: fields) =
    (FieldIterator.incrementBitIndex bitIndex cf).bind (bitIndexAfter · fields) := rfl

theorem bitIndexAfter_append : bitIndexAfter bitIndex (fields ++ more) =
    (bitIndexAfter bitIndex fields).bind (bitIndexAfter · more) := List.foldlM_append

/-- Fields that are to be placed have at most 32 bits in a row. -/
theorem bitIndexAfter_of_placed
    (placed : FieldIterator.loop st.placeField bitIndex position fields = some (out, stop)) :
    ∃ counted, bitIndexAfter bitIndex fields = some counted := by
  induction fields generalizing bitIndex position out with
  | nil => exact ⟨bitIndex, rfl⟩
  | cons cf fields ih =>
    obtain ⟨size, counted, tail, -, possible, placed, -⟩ := place_cons placed
    rw [bitIndexAfter_cons, possible]
    exact ih placed

/-- The index goes on from where it is, unless the last field is no bit. -/
theorem getSize_append (known : ∀ cf ∈ fields, cf.isDirective = false)
    (apart : fields = [] → cf.isBit = true → (FieldIterator.next more).any ConfigField.isBit = false) :
    st.getSize cf (FieldIterator.next (fields ++ more)) =
      st.getSize cf (FieldIterator.next fields) := by
  cases fields with
  | cons next fields =>
    have plain := known next List.mem_cons_self
    rw [List.cons_append, next_cons plain, next_cons plain]
  | nil =>
    cases bit : cf.isBit with
    | false => rw [getSize_next bit, getSize_next bit (FieldIterator.next [])]
    | true =>
      rw [getSize_bit bit, getSize_bit bit, List.nil_append, apart rfl bit]
      rfl

/-- Two parts that no bit group crosses are placed one after the other. -/
theorem loop_append (known : ∀ cf ∈ fields, cf.isDirective = false)
    (apart : bitIndexAfter bitIndex fields = some 0 ∨
      (FieldIterator.next more).any ConfigField.isBit = false) :
    FieldIterator.loop st.placeField bitIndex position (fields ++ more) =
      (FieldIterator.loop st.placeField bitIndex position fields).bind fun front =>
        (bitIndexAfter bitIndex fields).bind fun counted =>
          (FieldIterator.loop st.placeField counted front.2 more).map fun tail =>
            (front.1 ++ tail.1, tail.2) := by
  induction fields generalizing bitIndex position with
  | nil =>
    simp [FieldIterator.loop]
  | cons cf fields ih =>
    obtain ⟨own, others⟩ := List.forall_mem_cons.mp known
    cases possible : FieldIterator.incrementBitIndex bitIndex cf with
    | none => simp [FieldIterator.loop, possible]
    | some counted =>
      rw [bitIndexAfter_cons, possible, Option.bind_some] at apart
      have last : fields = [] → cf.isBit = true →
          (FieldIterator.next more).any ConfigField.isBit = false := by
        rintro rfl bit
        rw [incrementBitIndex_bit bit possible] at apart
        simpa using apart
      simp only [List.cons_append, FieldIterator.loop, ReaderState.placeField,
        getSize_append others last, possible, bitIndexAfter_cons]
      cases st.getSize cf (FieldIterator.next fields) with
      | none => rfl
      | some size =>
        simp only [Option.bind_eq_bind, Option.bind_some, Option.bind_assoc, ih others apart]
        cases FieldIterator.loop st.placeField counted (position + size) fields with
        | none => rfl
        | some front =>
          simp only [Option.bind_some]
          cases bitIndexAfter counted fields with
          | none => rfl
          | some after =>
            simp only [Option.bind_some, Option.bind_map]
            cases FieldIterator.loop st.placeField after front.2 more with
            | none => rfl
            | some tail => simp

/-- One more field that is no bit. -/
theorem placeFields_concat (known : ∀ cf ∈ fields, cf.isDirective = false) (plain : cf.isBit = false) :
    st.placeFields (fields ++ [cf]) = (st.placeFields fields).bind fun front =>
      (bitIndexAfter 0 fields).bind fun counted => (st.getSize cf none).map fun size =>
        (front.1 ++ [⟨cf, st.getElementSize cf, front.2, counted⟩], front.2 + size) := by
  have single : (FieldIterator.next [cf]).any ConfigField.isBit = false := by
    cases declares : cf.isDirective with
    | true => simp [FieldIterator.next, declares]
    | false => simp [FieldIterator.next, declares, plain]
  rw [ReaderState.placeFields, loop_append known (.inr single)]
  congr 1
  funext front
  congr 1
  funext counted
  simp only [FieldIterator.loop, ReaderState.placeField, incrementBitIndex_plain plain,
    FieldIterator.next, List.find?_nil, Option.bind_eq_bind]
  cases st.getSize cf none with
  | none => rfl
  | some size => rfl

end Loops

section Bits

/-- As a bit line declares it. -/
def bitField (name : String) : ConfigField := { name, type := "boolean" }

theorem bitField_isBit (name : String) : (bitField name).isBit = true := decide_eq_true rfl

theorem bitField_isDirective (name : String) : (bitField name).isDirective = false :=
  boolean_not_directive

theorem bitIndexAfter_bits {names : List String} (few : bitIndex + names.length ≤ 32) :
    bitIndexAfter bitIndex (names.map bitField) = some (bitIndex + names.length) := by
  induction names generalizing bitIndex with
  | nil => rfl
  | cons name names ih =>
    rw [List.length_cons] at few
    have room : bitIndex ≠ 32 := by omega
    simp only [List.map_cons, bitIndexAfter_cons, FieldIterator.incrementBitIndex, bitField_isBit,
      if_true, if_neg room, Option.bind_some]
    rw [ih (by omega), List.length_cons, Nat.add_assoc, Nat.add_comm 1]

/-- Bits in a row are in one word. -/
theorem loop_bits {names : List String} (some : names ≠ [])
    (placed : FieldIterator.loop st.placeField bitIndex position (names.map bitField) =
      .some (out, stop)) :
    stop = position + 4 ∧ out = names.mapIdx fun i name =>
      ⟨bitField name, st.getElementSize (bitField name), position, bitIndex + i⟩ := by
  induction names generalizing bitIndex position out with
  | nil => contradiction
  | cons name names ih =>
    obtain ⟨size, counted, tail, sized, possible, placed, rfl⟩ := place_cons placed
    obtain rfl := incrementBitIndex_bit (bitField_isBit name) possible
    rw [getSize_bit (bitField_isBit name)] at sized
    cases names with
    | nil =>
      obtain ⟨rfl, rfl⟩ := Prod.mk.inj (Option.some.inj placed)
      obtain rfl := Option.some.inj sized
      exact ⟨rfl, rfl⟩
    | cons next names =>
      rw [List.map_cons, next_cons (bitField_isDirective next), Option.any_some, bitField_isBit,
        if_pos rfl] at sized
      obtain rfl := Option.some.inj sized
      obtain ⟨rfl, rfl⟩ := ih (List.cons_ne_nil _ _) placed
      refine ⟨rfl, ?_⟩
      rw [@List.mapIdx_cons _ _ _ _ name]
      simp only [Nat.add_zero, Nat.add_assoc, Nat.add_comm 1]

/-- What fills up a word is not counted. -/
theorem fieldOffsets_bits {names fillers : List String} (own : ∀ name ∈ names, isFiller name = false)
    (fills : ∀ name ∈ fillers, isFiller name = true) (size : String → Option Nat) :
    ((names ++ fillers).mapIdx fun i name =>
      (⟨bitField name, size name, position, bitIndex + i⟩ : PlacedField)).filterMap PlacedField.fieldOffset =
      names.mapIdx fun i name => ⟨name, position, some (bitIndex + i)⟩ := by
  have shown : ∀ name i, isFiller name = false →
      PlacedField.fieldOffset ⟨bitField name, size name, position, i⟩ = some ⟨name, position, some i⟩ := by
    intro name i own
    have bit := bitField_isBit name
    simp [PlacedField.fieldOffset, bitField, own] at bit ⊢
    simp [bit]
  have hidden : ∀ name i, isFiller name = true →
      PlacedField.fieldOffset ⟨bitField name, size name, position, i⟩ = none := by
    intro name i fills
    simp [PlacedField.fieldOffset, bitField, fills]
  induction names generalizing bitIndex with
  | nil =>
    refine List.filterMap_eq_nil_iff.mpr fun f member => ?_
    obtain ⟨i, short, rfl⟩ := List.mem_mapIdx.mp member
    exact hidden _ _ (fills _ (List.getElem_mem short))
  | cons name names ih =>
    obtain ⟨first, others⟩ := List.forall_mem_cons.mp own
    rw [List.cons_append, List.mapIdx_cons, List.filterMap_cons_some (shown name _ first), List.mapIdx_cons]
    have rest := @ih (bitIndex + 1) others
    simp only [Nat.add_assoc, Nat.add_comm 1] at rest
    rw [rest]

end Bits

section Growth

/-- Fields that were added to a struct. -/
structure Grown (s s' : ConfigStructure) (more : List ConfigField) : Prop where
  name : s'.name = s.name
  cFields : s'.cFields = s.cFields ++ more

theorem Grown.refl : Grown s s [] := ⟨rfl, (List.append_nil _).symm⟩

theorem Grown.trans {s'' : ConfigStructure} {again : List ConfigField} (first : Grown s s' more)
    (second : Grown s' s'' again) : Grown s s'' (more ++ again) where
  name := second.name.trans first.name
  cFields := by rw [second.cFields, first.cFields, List.append_assoc]

theorem Grown.cPrevName (grown : Grown s s' (more ++ [cf])) : s'.cPrevName = cf.name := by
  rw [ConfigStructure.cPrevName, grown.cFields, ← List.append_assoc, List.getLast?_concat]
  rfl

theorem Grown.cPrevName_of_one (grown : Grown s s' [cf]) : s'.cPrevName = cf.name :=
  @Grown.cPrevName s s' cf [] grown

def Longer (s s' : ConfigStructure) : Prop := ∃ more, Grown s s' more

theorem Longer.trans {s'' : ConfigStructure} (first : Longer s s') (second : Longer s' s'') :
    Longer s s'' := by
  obtain ⟨more, first⟩ := first
  obtain ⟨again, second⟩ := second
  exact ⟨more ++ again, first.trans second⟩

theorem addC_longer (added : s.addC cf = some s') : Longer s s' := by
  obtain rfl := addC_eq added
  exact ⟨_, rfl, rfl⟩

theorem addBoth_longer (added : s.addBoth cf = some s') : Longer s s' := by
  obtain ⟨s₁, shown, rfl⟩ := Option.map_eq_some_iff.mp added
  obtain ⟨more, grown⟩ := addC_longer shown
  exact ⟨more, grown.name, grown.cFields⟩

theorem addBitField_longer (added : s.addBitField cf = some s') : Longer s s' := by
  obtain ⟨s₁, shown, counted⟩ := Option.bind_eq_some_iff.mp added
  obtain ⟨more, grown⟩ := addBoth_longer shown
  obtain ⟨-, counted⟩ := Option.ite_none_left_eq_some.mp counted
  obtain rfl := Option.some.inj counted
  exact ⟨more, grown.name, grown.cFields⟩

theorem addUnusedBits_longer {start : Nat} {bits : List Nat} (added : bits.foldlM
      (fun r bitIndex => r.addBitField (ConfigStructure.unusedBit start bitIndex)) s = some s') :
    Longer s s' := by
  induction bits generalizing s with
  | nil =>
    obtain rfl := Option.some.inj added
    exact ⟨[], .refl⟩
  | cons bit bits ih =>
    rw [List.foldlM_cons] at added
    obtain ⟨s₁, first, others⟩ := Option.bind_eq_some_iff.mp added
    exact (addBitField_longer first).trans (ih others)

theorem addBitPadding_longer (padded : s.addBitPadding = some s') : Longer s s' := by
  unfold ConfigStructure.addBitPadding at padded
  split at padded
  · obtain rfl := Option.some.inj padded
    exact ⟨[], .refl⟩
  · obtain ⟨s₁, added, same⟩ := Option.bind_eq_some_iff.mp padded
    obtain rfl := Option.some.inj same
    obtain ⟨more, grown⟩ := addUnusedBits_longer added
    exact ⟨more, grown.name, grown.cFields⟩

theorem addAlignmentFill_longer {alignment : Nat} (filled : s.addAlignmentFill st alignment = some s') :
    Longer s s' := by
  obtain ⟨-, rfl⟩ | ⟨fields, totalSize, s₁, measured, rfl, ⟨-, rfl⟩ | added⟩ := addAlignmentFill_cases filled
  · exact ⟨[], .refl⟩
  · exact ⟨[], rfl, (List.append_nil _).symm⟩
  · obtain ⟨more, grown⟩ := addBoth_longer added
    exact ⟨more, grown.name, grown.cFields⟩

/-- More than 32 bits in a row stay so. -/
theorem Longer.stuck (longer : Longer s s') (stuck : bitIndexAfter 0 s.cFields = none) :
    bitIndexAfter 0 s'.cFields = none := by
  obtain ⟨more, grown⟩ := longer
  rw [grown.cFields, bitIndexAfter_append, stuck]
  rfl

theorem addC_grown (other : cf.name ≠ s.cPrevName) (added : s.addC cf = some s') :
    Grown s s' [cf] ∧ s'.readingBitState = s.readingBitState := by
  obtain rfl := addC_eq added
  have kept : [cf].filter (·.name ≠ s.cPrevName) = [cf] := List.filter_cons_of_pos (decide_eq_true other)
  exact ⟨⟨rfl, by simp only [kept]⟩, rfl⟩

theorem addBoth_grown (other : cf.name ≠ s.cPrevName) (added : s.addBoth cf = some s') :
    Grown s s' [cf] ∧ s'.readingBitState = s.readingBitState := by
  obtain ⟨s₁, shown, rfl⟩ := Option.map_eq_some_iff.mp added
  obtain ⟨grown, same⟩ := addC_grown other shown
  exact ⟨⟨grown.name, grown.cFields⟩, same⟩

theorem addBitField_grown (other : cf.name ≠ s.cPrevName) (added : s.addBitField cf = some s') :
    Grown s s' [cf] ∧ s.readingBitState ≠ 32 ∧ s'.readingBitState = s.readingBitState + 1 := by
  obtain ⟨s₁, added, counted⟩ := Option.bind_eq_some_iff.mp added
  obtain ⟨grown, same⟩ := addBoth_grown other added
  obtain ⟨room, counted⟩ := Option.ite_none_left_eq_some.mp counted
  obtain rfl := Option.some.inj counted
  exact ⟨⟨grown.name, grown.cFields⟩, same ▸ room, same ▸ rfl⟩

end Growth

section Unused

def unusedBitName (start bitIndex : Nat) : String := (ConfigStructure.unusedBit start bitIndex).name

theorem unusedBit_eq (start bitIndex : Nat) :
    ConfigStructure.unusedBit start bitIndex = bitField (unusedBitName start bitIndex) := rfl

theorem unusedBitName_toList (start bitIndex : Nat) : (unusedBitName start bitIndex).toList =
    "unusedBit_".toList ++ ((toString start).toList ++ ("_".toList ++ (toString bitIndex).toList)) := by
  simp only [unusedBitName, ConfigStructure.unusedBit, String.toList_append, List.append_assoc]

theorem isUnusedBit_unusedBitName (start bitIndex : Nat) :
    isUnusedBit (unusedBitName start bitIndex) = true :=
  List.isPrefixOf_iff_prefix.mpr ⟨_, (unusedBitName_toList start bitIndex).symm⟩

theorem not_alignmentFill_of_unusedBit {name : String} (unused : isUnusedBit name = true) :
    isAlignmentFill name = false := by
  obtain ⟨rest, text⟩ := List.isPrefixOf_iff_prefix.mp unused
  rw [isAlignmentFill, ← text]
  rfl

theorem toString_succ : ∀ bitIndex < 32, toString (bitIndex + 1) ≠ toString bitIndex := by decide

theorem unusedBitName_succ {bitIndex : Nat} (small : bitIndex < 32) (start : Nat) :
    unusedBitName start (bitIndex + 1) ≠ unusedBitName start bitIndex := by
  intro same
  have texts := congrArg String.toList same
  simp only [unusedBitName_toList, List.append_cancel_left_eq, String.toList_inj] at texts
  exact toString_succ bitIndex small texts

theorem addUnusedBits_grown {start bitIndex count : Nat} (few : bitIndex + count ≤ 32)
    (other : count ≠ 0 → unusedBitName start bitIndex ≠ s.cPrevName)
    (added : (List.range' bitIndex count).foldlM
      (fun r bitIndex => r.addBitField (ConfigStructure.unusedBit start bitIndex)) s = some s') :
    Grown s s' (((List.range' bitIndex count).map (unusedBitName start)).map bitField) := by
  induction count generalizing bitIndex s with
  | zero =>
    obtain rfl := Option.some.inj added
    exact .refl
  | succ count ih =>
    rw [List.range'_succ, List.foldlM_cons] at added
    obtain ⟨s₁, first, others⟩ := Option.bind_eq_some_iff.mp added
    obtain ⟨grown, -⟩ := addBitField_grown (other (Nat.succ_ne_zero count)) first
    refine grown.trans (ih (by omega) (fun _ => ?_) others)
    rw [grown.cPrevName_of_one]
    exact unusedBitName_succ (by omega) start

/-- A group that has been started is filled up. -/
theorem addBitPadding_grown (started : s.readingBitState ≠ 0) (few : s.readingBitState ≤ 32)
    (own : isUnusedBit s.cPrevName = false) (padded : s.addBitPadding = some s') : s'.readingBitState = 0 ∧
      ∃ fillers : List String, fillers.length = 32 - s.readingBitState ∧
        (∀ name ∈ fillers, isUnusedBit name = true) ∧ Grown s s' (fillers.map bitField) := by
  rw [ConfigStructure.addBitPadding, if_neg started] at padded
  obtain ⟨s₁, added, same⟩ := Option.bind_eq_some_iff.mp padded
  obtain rfl := Option.some.inj same
  have other : 32 - s.readingBitState ≠ 0 →
      unusedBitName s.cFields.length s.readingBitState ≠ s.cPrevName := by
    intro _ same
    rw [← same, isUnusedBit_unusedBitName] at own
    contradiction
  have grown := addUnusedBits_grown (by omega) other added
  refine ⟨rfl, _, ?_, ?_, grown.name, grown.cFields⟩
  · simp
  · intro name member
    obtain ⟨i, -, rfl⟩ := List.mem_map.mp member
    exact isUnusedBit_unusedBitName _ i

end Unused

end FomeFw.Config
