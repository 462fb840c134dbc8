import FomeFw.Config.TsOutput

/-! The two lists of a struct are two readings of what was declared, in order. -/
namespace FomeFw.Config

def Added.field : Added → ConfigField
  | .both cf | .iterate cf | .directive cf => cf

def Added.inHeader : Added → Option ConfigField
  | .both cf | .iterate cf => some cf
  | .directive _ => none

def Added.inTuning : Added → List ConfigField
  | .both cf | .directive cf => [cf]
  | .iterate cf => cf.elements (cf.arraySizes.headD 0)

/-- A field is left out when the one before, `prev` at first, has its name. -/
def cFieldsOf : (prev : String) → List Added → List ConfigField
  | _, [] => []
  | prev, a :: declared =>
    match a.inHeader with
    | none => cFieldsOf prev declared
    | some cf => if cf.name = prev then cFieldsOf prev declared else cf :: cFieldsOf cf.name declared

def Added.Proper : Added → Prop
  | .both cf => cf.isDirective = false ∧ cf.isIterate = false
  | .iterate cf => cf.isIterate = true
  | .directive cf => cf.isDirective = true

structure ConfigStructure.Recorded (s : ConfigStructure) : Prop where
  header : s.cFields = cFieldsOf "" s.declared
  tuning : s.tsFields = s.declared.flatMap Added.inTuning
  proper : ∀ a ∈ s.declared, a.Proper

variable {st st' : ReaderState} {s s' : ConfigStructure} {cf : ConfigField} {prev : String}
  {declared : List Added}

section Lists

def lastName (prev : String) (fields : List ConfigField) : String :=
  (fields.getLast?.map ConfigField.name).getD prev

theorem lastName_cons : lastName prev (cf :: fields) = lastName cf.name fields := by
  cases fields with
  | nil => rfl
  | cons next fields => simp [lastName, List.getLast?_cons]

/-- What one more declaration adds to the header. -/
theorem cFieldsOf_append (prev : String) (declared : List Added) (a : Added) :
    cFieldsOf prev (declared ++ [a]) = cFieldsOf prev declared ++
      a.inHeader.toList.filter (·.name ≠ lastName prev (cFieldsOf prev declared)) := by
  induction declared generalizing prev with
  | nil =>
    cases shown : a.inHeader with
    | none => simp [cFieldsOf, shown]
    | some cf =>
      by_cases same : cf.name = prev
      · simp [cFieldsOf, shown, same, lastName]
      · simp [cFieldsOf, shown, same, lastName]
  | cons b declared ih =>
    rcases shown : b.inHeader with _ | cf
    · simp only [List.cons_append, cFieldsOf, shown]
      exact ih prev
    · simp only [List.cons_append, cFieldsOf, shown]
      split
      · exact ih prev
      · rw [ih cf.name, lastName_cons, List.cons_append]

theorem mem_cFieldsOf (member : cf ∈ cFieldsOf prev declared) : ∃ a ∈ declared, a.inHeader = some cf := by
  induction declared generalizing prev with
  | nil => contradiction
  | cons a declared ih =>
    simp only [cFieldsOf] at member
    have later : ∀ prev, cf ∈ cFieldsOf prev declared → ∃ b ∈ a :: declared, b.inHeader = some cf := by
      intro prev member
      obtain ⟨b, there, shown⟩ := ih member
      exact ⟨b, List.mem_cons_of_mem _ there, shown⟩
    cases shown : a.inHeader with
    | none =>
      rw [shown] at member
      exact later prev member
    | some own =>
      simp only [shown] at member
      split at member
      · exact later prev member
      · rcases List.mem_cons.mp member with rfl | member
        · exact ⟨a, List.mem_cons_self, shown⟩
        · exact later own.name member

end Lists

section Steps

theorem addC_eq (added : s.addC cf = some s') :
    s' = { s with cFields := s.cFields ++ [cf].filter (·.name ≠ s.cPrevName) } := by
  unfold ConfigStructure.addC at added
  split at added
  · rename_i same
    obtain rfl := Option.some.inj added
    simp [same]
  · rename_i other
    split at added
    · contradiction
    · obtain rfl := Option.some.inj added
      simp [other]

theorem uint8_not_directive : equalsIgnoreCase "directive" "uint8_t" = false := by decide

theorem boolean_not_directive : equalsIgnoreCase "directive" "boolean" = false := by decide

/-- A struct is filled up by one field at most. -/
theorem addAlignmentFill_cases {alignment : Nat} (filled : s.addAlignmentFill st alignment = some s') :
    alignment = 0 ∧ s' = s ∨ ∃ fields totalSize s₁, st.placeFields s.cFields = some (fields, totalSize) ∧
      s' = { s₁ with totalSize := totalSize + ConfigStructure.fillSize totalSize alignment } ∧
      (ConfigStructure.fillSize totalSize alignment = 0 ∧ s₁ = s ∨
        s.addBoth (ConfigStructure.alignmentFill totalSize (ConfigStructure.fillSize totalSize alignment)) = some s₁) := by
  unfold ConfigStructure.addAlignmentFill at filled
  split at filled
  · next none => exact .inl ⟨none, (Option.some.inj filled).symm⟩
  · simp only [Option.bind_eq_bind, Option.bind_eq_some_iff] at filled
    obtain ⟨⟨fields, totalSize⟩, measured, filled⟩ := filled
    refine .inr ⟨fields, totalSize, ?_⟩
    generalize ConfigStructure.fillSize totalSize alignment = fillSize at filled ⊢
    split at filled
    · contradiction
    · obtain ⟨s₁, added, rfl⟩ := Option.map_eq_some_iff.mp filled
      refine ⟨s₁, measured, rfl, ?_⟩
      split at added
      · rename_i none
        exact .inl ⟨none, (Option.some.inj added).symm⟩
      · exact .inr added

namespace ConfigStructure.Recorded

theorem opened (name : String) (withPrefix : Bool) : Recorded { name, withPrefix } where
  header := rfl
  tuning := rfl
  proper := by simp

theorem resized (recorded : s.Recorded) (totalSize readingBitState : Nat) :
    Recorded { s with totalSize, readingBitState } :=
  ⟨recorded.header, recorded.tuning, recorded.proper⟩

/-- A declaration that goes to the header, as well. -/
theorem shown (recorded : s.Recorded) (added : s.addC cf = some s') {a : Added}
    (same : a.inHeader = some cf) (proper : a.Proper) : ((s'.addTs a.inTuning).log a).Recorded := by
  obtain rfl := addC_eq added
  constructor
  · simp only [log, addTs, cFieldsOf_append, same, Option.toList_some, ← recorded.header]
    rfl
  · simp only [log, addTs, recorded.tuning, List.flatMap_append, List.flatMap_singleton]
  · intro b member
    rcases List.mem_append.mp member with old | new
    · exact recorded.proper b old
    · obtain rfl := List.mem_singleton.mp new
      exact proper

theorem addBoth (recorded : s.Recorded) (added : s.addBoth cf = some s')
    (plain : cf.isDirective = false) (once : cf.isIterate = false) : s'.Recorded := by
  obtain ⟨s₁, shown, rfl⟩ := Option.map_eq_some_iff.mp added
  exact @Recorded.shown _ _ _ recorded shown (.both cf) rfl ⟨plain, once⟩

theorem directive (recorded : s.Recorded) (directive : cf.isDirective = true) :
    ((s.addTs [cf]).log (.directive cf)).Recorded := by
  constructor
  · simp only [log, addTs, cFieldsOf_append, Added.inHeader, Option.toList_none, List.filter_nil,
      List.append_nil, recorded.header]
  · simp only [log, addTs, recorded.tuning, List.flatMap_append, List.flatMap_singleton,
      Added.inTuning]
  · intro b member
    rcases List.mem_append.mp member with old | new
    · exact recorded.proper b old
    · obtain rfl := List.mem_singleton.mp new
      exact directive

theorem addAlignmentFill (recorded : s.Recorded) {alignment : Nat}
    (filled : s.addAlignmentFill st alignment = some s') : s'.Recorded := by
  obtain ⟨-, rfl⟩ | ⟨fields, totalSize, s₁, measured, rfl, ⟨-, rfl⟩ | added⟩ := addAlignmentFill_cases filled
  · exact recorded
  · exact recorded.resized _ _
  · exact (recorded.addBoth added uint8_not_directive rfl).resized _ _

theorem addBitField (recorded : s.Recorded) (added : s.addBitField cf = some s')
    (plain : cf.isDirective = false) (once : cf.isIterate = false) : s'.Recorded := by
  simp only [ConfigStructure.addBitField, Option.bind_eq_bind, Option.bind_eq_some_iff] at added
  obtain ⟨s₁, added, counted⟩ := added
  split at counted
  · contradiction
  · obtain rfl := Option.some.inj counted
    exact (recorded.addBoth added plain once).resized _ _

theorem addBitPadding (recorded : s.Recorded) (padded : s.addBitPadding = some s') : s'.Recorded := by
  unfold ConfigStructure.addBitPadding at padded
  split at padded
  · obtain rfl := Option.some.inj padded
    exact recorded
  · rename_i started
    simp only [Option.bind_eq_bind, Option.bind_eq_some_iff, Option.some.injEq] at padded
    obtain ⟨s₁, added, rfl⟩ := padded
    clear started
    refine Recorded.resized ?_ _ _
    generalize s.cFields.length = start at added
    generalize List.range' s.readingBitState (32 - s.readingBitState) = bits at added
    induction bits generalizing s with
    | nil =>
      obtain rfl := Option.some.inj added
      exact recorded
    | cons bit bits ih =>
      simp only [List.foldlM_cons, Option.bind_eq_bind, Option.bind_eq_some_iff] at added
      obtain ⟨s₂, first, others⟩ := added
      exact ih (recorded.addBitField first boolean_not_directive rfl) others

theorem processField (recorded : s.Recorded) (processed : st.processField s cf = some s') :
    s'.Recorded := by
  simp only [ReaderState.processField, Option.bind_eq_bind, Option.bind_eq_some_iff] at processed
  obtain ⟨s₁, filled, processed⟩ := processed
  have recorded := recorded.addAlignmentFill filled
  split at processed
  · rename_i iterated
    simp only [Option.bind_eq_some_iff, Option.some.injEq] at processed
    obtain ⟨s₂, added, n, long, rfl⟩ := processed
    have all := @Recorded.shown _ _ _ recorded added (.iterate cf) rfl iterated
    simp only [Added.inTuning, List.headD_eq_head?_getD, long, Option.getD_some] at all
    exact all
  · rename_i once
    split at processed
    · rename_i directive
      obtain rfl := Option.some.inj processed
      exact recorded.directive directive
    · rename_i plain
      exact recorded.addBoth processed (Bool.eq_false_iff.mpr plain) (Bool.eq_false_iff.mpr once)

theorem handleBitLine (recorded : s.Recorded) {name : String}
    (handled : st.handleBitLine s name = some s') : s'.Recorded := by
  simp only [ReaderState.handleBitLine, Option.bind_eq_bind, Option.bind_eq_some_iff] at handled
  obtain ⟨s₁, filled, added⟩ := handled
  exact (recorded.addAlignmentFill filled).addBitField added boolean_not_directive rfl

end ConfigStructure.Recorded

/-- All structs that are being read. -/
def ReaderState.Recorded (st : ReaderState) : Prop := ∀ s ∈ st.stack, s.Recorded

theorem ReaderState.Recorded.peek {change : ConfigStructure → Option ConfigStructure}
    (recorded : st.Recorded) (changed : st.peek change = some st')
    (keeps : ∀ s s', s.Recorded → change s = some s' → s'.Recorded) : st'.Recorded := by
  unfold ReaderState.peek at changed
  split at changed
  · contradiction
  · rename_i s outer reading
    obtain ⟨s', done, rfl⟩ := Option.map_eq_some_iff.mp changed
    rw [ReaderState.Recorded, reading] at recorded
    obtain ⟨own, others⟩ := List.forall_mem_cons.mp recorded
    exact List.forall_mem_cons.mpr ⟨keeps s s' own done, others⟩

theorem ReaderState.Recorded.handleEndStruct (recorded : st.Recorded)
    (ended : st.handleEndStruct = some (s, st')) : s.Recorded ∧ st'.Recorded := by
  unfold ReaderState.handleEndStruct at ended
  split at ended
  · contradiction
  · rename_i s₀ outer reading
    simp only [Option.bind_eq_bind, Option.bind_eq_some_iff, Option.some.injEq, Prod.mk.injEq] at ended
    obtain ⟨s₁, padded, s₂, filled, rfl, rfl⟩ := ended
    rw [ReaderState.Recorded, reading] at recorded
    obtain ⟨own, others⟩ := List.forall_mem_cons.mp recorded
    exact ⟨(own.addBitPadding padded).addAlignmentFill filled, others⟩

/-- A line keeps the two lists of every struct in step with what it declares. -/
theorem ReaderState.Recorded.readLine (recorded : st.Recorded) {line : DefinitionLine}
    (read : st.readLine line = some st') : st'.Recorded := by
  cases line with
  | struct name withPrefix =>
    obtain rfl := Option.some.inj read
    exact List.forall_mem_cons.mpr ⟨.opened name withPrefix, recorded⟩
  | endStruct =>
    obtain ⟨⟨s, st₁⟩, ended, rfl⟩ := Option.map_eq_some_iff.mp read
    exact (recorded.handleEndStruct ended).2
  | bit name => exact recorded.peek read fun s s' own => own.handleBitLine
  | custom name customSize line =>
    obtain rfl := Option.some.inj read
    exact recorded
  | field cf =>
    refine recorded.peek read fun s s' own changed => ?_
    obtain ⟨s₁, padded, processed⟩ := Option.bind_eq_some_iff.mp changed
    exact (own.addBitPadding padded).processField processed
  | directive =>
    refine recorded.peek read fun s s' own changed => ?_
    obtain ⟨s₁, padded, processed⟩ := Option.bind_eq_some_iff.mp changed
    exact (own.addBitPadding padded).processField processed

end Steps

end FomeFw.Config
