import FomeFw.Config.SameTypes

/-! A struct that both generators are reading: what each kind of line keeps. -/
namespace FomeFw.Config
open NaturalAlignment

variable {st : ReaderState} {ps : ParseState} {s s₁ s' : ConfigStructure} {cf : ConfigField}
  {fields before : List Field} {f : Field} {front : List ConfigField} {names fillers : List String}
  {name : String} {placed : List PlacedField} {align total : Nat}

section Relation

def endsInBits (fields : List Field) : Bool :=
  match fields.getLast? with
  | some (.bitGroup _) => true
  | _ => false

/-- The same offsets so far, and the same end but for an alignment, where both have any. -/
def Alongside (st : ReaderState) (align : Nat) (cFields : List ConfigField) (fields : List Field) : Prop :=
  ∀ placed total d, st.placeFields cFields = some (placed, total) →
    addFields 0 { offset := 0 } fields = some d →
      total = roundUp align d.offset ∧ placed.filterMap PlacedField.fieldOffset = d.fieldOffsets

/-- No group of bits is being read. -/
structure Between (st : ReaderState) (s : ConfigStructure) (fields : List Field) : Prop where
  reading : s.readingBitState = 0
  alongside : Alongside st 1 s.cFields fields
  counted : bitIndexAfter 0 s.cFields = some (if endsInBits fields then 32 else 0)
  word : endsInBits fields = true → ∀ placed ∈ st.placeFields s.cFields, 4 ∣ placed.2
  known : ∀ cf ∈ s.cFields, cf.isDirective = false
  prev : isAlignmentFill s.cPrevName = false

/-- A group of bits is being read behind `front`. -/
structure InBits (st : ReaderState) (s : ConfigStructure) (fields : List Field)
    (front : List ConfigField) (names : List String) (before : List Field) : Prop where
  started : names ≠ []
  few : names.length ≤ 32
  cFields : s.cFields = front ++ names.map bitField
  fields : fields = before ++ [.bitGroup (names.map ({ name := · }))]
  reading : s.readingBitState = names.length
  alongside : Alongside st 4 front before
  counted : bitIndexAfter 0 front = some 0
  word : ∀ placed ∈ st.placeFields front, 4 ∣ placed.2
  known : ∀ cf ∈ front, cf.isDirective = false
  own : ∀ name ∈ names, isFiller name = false

/-- A struct that both are reading; the old generator refuses more than 32 bits in a row, but not
at once. -/
inductive Reading (st : ReaderState) (s : ConfigStructure) (fields : List Field) : Prop
  | between (between : Between st s fields)
  | inBits (front : List ConfigField) (names : List String) (before : List Field)
    (inBits : InBits st s fields front names before)
  | stuck (stuck : bitIndexAfter 0 s.cFields = none)

end Relation

section Fill

variable {d : Draft} {placed : List PlacedField} {total : Nat}

theorem addFillSize (total align : Nat) :
    total + ConfigStructure.fillSize total align = roundUp align total := by
  simp only [ConfigStructure.fillSize, roundUp]
  split <;> rfl

/-- After it has been filled up. -/
structure Filled (st : ReaderState) (align : Nat) (s s' : ConfigStructure) (fields : List Field) : Prop where
  reading : s'.readingBitState = s.readingBitState
  alongside : Alongside st align s'.cFields fields
  size : ∃ placed, st.placeFields s'.cFields = some (placed, s'.totalSize)
  aligned : align ∣ s'.totalSize
  counted : s'.cFields = s.cFields ∨ bitIndexAfter 0 s'.cFields = some 0
  known : ∀ cf ∈ s'.cFields, cf.isDirective = false
  prev : s'.cPrevName = s.cPrevName ∨ isAlignmentFill s'.cPrevName = true

theorem addAlignmentFill_of_dvd (divides : ∀ placed ∈ st.placeFields s.cFields, align ∣ placed.2)
    (filled : s.addAlignmentFill st align = some s') : s'.cFields = s.cFields ∧
      s'.readingBitState = s.readingBitState := by
  unfold ConfigStructure.addAlignmentFill at filled
  split at filled
  · obtain rfl := Option.some.inj filled
    exact ⟨rfl, rfl⟩
  · obtain ⟨placed, measured, filled⟩ := Option.bind_eq_some_iff.mp filled
    have none : ConfigStructure.fillSize placed.2 align = 0 :=
      if_pos (Nat.mod_eq_zero_of_dvd (divides placed measured))
    simp only [none, gt_iff_lt, Nat.not_lt_zero, if_false, if_true, Option.map_some,
      Option.some.injEq] at filled
    obtain rfl := filled
    exact ⟨rfl, rfl⟩

theorem isAlignmentFill_ne_empty {name : String} (fill : isAlignmentFill name = true) : name ≠ "" := by
  rintro rfl
  contradiction

theorem SameTypes.bytes (same : SameTypes st ps) (total fillSize : Nat) :
    st.getElementSize (ConfigStructure.alignmentFill total fillSize) = some 1 := by
  have named := isAlignmentFill_ne_empty (isAlignmentFill_alignmentFill total fillSize)
  obtain ⟨noStruct, noCustom⟩ := @SameTypes.unknown _ _ "uint8_t" same (by decide)
  have type : (ConfigStructure.alignmentFill total fillSize).type = "uint8_t" := rfl
  rw [ReaderState.getElementSize, if_neg named, ReaderState.getStructure, type, noStruct, noCustom]
  rfl

theorem Between.withFill (same : SameTypes st ps) (between : Between st s fields) (fillSize : Nat)
    (measured : st.placeFields s.cFields = some (placed, total)) : ∃ last : PlacedField,
      st.placeFields (s.cFields ++ [ConfigStructure.alignmentFill total fillSize]) =
        some (placed ++ [last], total + fillSize) ∧
      (placed ++ [last]).filterMap PlacedField.fieldOffset = placed.filterMap PlacedField.fieldOffset ∧
      (∀ cf ∈ s.cFields ++ [ConfigStructure.alignmentFill total fillSize], cf.isDirective = false) ∧
      bitIndexAfter 0 (s.cFields ++ [ConfigStructure.alignmentFill total fillSize]) = some 0 := by
  have plain : (ConfigStructure.alignmentFill total fillSize).isBit = false := uint8_not_boolean
  have sized := getSize_alignmentFill (same.bytes total fillSize)
  have filler : isFiller (ConfigStructure.alignmentFill total fillSize).name = true := by
    rw [isFiller, isAlignmentFill_alignmentFill, Bool.true_or]
  refine ⟨⟨ConfigStructure.alignmentFill total fillSize, some 1, total,
    if endsInBits fields then 32 else 0⟩, ?_, ?_, ?_, ?_⟩
  · rw [placeFields_concat between.known plain, measured, Option.bind_some, between.counted, Option.bind_some,
      sized, same.bytes]
    rfl
  · simp [PlacedField.fieldOffset, filler]
  · intro cf member
    rcases List.mem_append.mp member with before | last
    · exact between.known cf before
    · obtain rfl := List.mem_singleton.mp last
      exact uint8_not_directive
  · rw [bitIndexAfter_append, between.counted, Option.bind_some, bitIndexAfter_cons,
      incrementBitIndex_plain plain]
    rfl

theorem Between.addAlignmentFill (same : SameTypes st ps) (between : Between st s fields)
    (positive : 0 < align) (filled : s.addAlignmentFill st align = some s') :
    Filled st align s s' fields := by
  obtain ⟨none, -⟩ | ⟨placed, total, s₁, measured, rfl, ⟨full, rfl⟩ | added⟩ := addAlignmentFill_cases filled
  · exact absurd none positive.ne'
  · have rounded := addFillSize total align
    rw [full, Nat.add_zero] at rounded
    constructor
    · rfl
    · intro placed' total' d measured' laid
      obtain ⟨rfl, rfl⟩ := Prod.mk.inj (Option.some.inj (measured.symm.trans measured'))
      obtain ⟨position, offsets⟩ := between.alongside placed total d measured laid
      rw [roundUp_one] at position
      exact ⟨position ▸ rounded, offsets⟩
    · exact ⟨placed, by rw [full, measured, Nat.add_zero]⟩
    · rw [full, Nat.add_zero, rounded]
      exact dvd_roundUp positive total
    · exact .inl rfl
    · exact between.known
    · exact .inl rfl
  · obtain ⟨last, again, offsets, known, counted⟩ :=
      between.withFill same (ConfigStructure.fillSize total align) measured
    have fill := isAlignmentFill_alignmentFill total (ConfigStructure.fillSize total align)
    have other : (ConfigStructure.alignmentFill total
        (ConfigStructure.fillSize total align)).name ≠ s.cPrevName := by
      intro same
      rw [same, between.prev] at fill
      contradiction
    obtain ⟨grown, reading⟩ := addBoth_grown other added
    rw [← grown.cFields] at again known counted
    have rounded := addFillSize total align
    constructor
    · exact reading
    · intro placed' total' d measured' laid
      obtain ⟨rfl, rfl⟩ := Prod.mk.inj (Option.some.inj (again.symm.trans measured'))
      obtain ⟨position, shown⟩ := between.alongside placed total d measured laid
      rw [roundUp_one] at position
      exact ⟨position ▸ rounded, offsets.trans shown⟩
    · exact ⟨_, again⟩
    · rw [rounded]
      exact dvd_roundUp positive total
    · exact .inr counted
    · exact known
    · exact .inr (grown.cPrevName_of_one ▸ fill)

end Fill

section Bits

theorem placeFields_bits (known : ∀ cf ∈ front, cf.isDirective = false)
    (counted : bitIndexAfter 0 front = some 0)
    (started : names ≠ []) (own : ∀ name ∈ names, isFiller name = false)
    (fills : ∀ name ∈ fillers, isFiller name = true)
    (all : st.placeFields (front ++ (names ++ fillers).map bitField) = some (placed, total)) :
    ∃ out start, st.placeFields front = some (out, start) ∧ total = start + 4 ∧
      placed.filterMap PlacedField.fieldOffset = out.filterMap PlacedField.fieldOffset ++
        names.mapIdx fun i name => ⟨name, start, some i⟩ := by
  rw [ReaderState.placeFields, loop_append known (.inl counted)] at all
  obtain ⟨⟨out, start⟩, measured, all⟩ := Option.bind_eq_some_iff.mp all
  rw [counted, Option.bind_some] at all
  obtain ⟨⟨bits, stop⟩, behind, same⟩ := Option.map_eq_some_iff.mp all
  obtain ⟨rfl, rfl⟩ := Prod.mk.inj same
  obtain ⟨rfl, rfl⟩ := loop_bits (by simp [started]) behind
  refine ⟨out, start, measured, rfl, ?_⟩
  have shown := @fieldOffsets_bits 0 start names fillers own fills
    fun name => st.getElementSize (bitField name)
  rw [List.filterMap_append, shown]
  simp only [Nat.zero_add]

theorem InBits.cPrevName (inBits : InBits st s fields front names before) :
    ∃ name ∈ names, s.cPrevName = name := by
  obtain ⟨others, name, rfl⟩ := (List.eq_nil_or_concat' names).resolve_left inBits.started
  refine ⟨name, by simp, ?_⟩
  rw [ConfigStructure.cPrevName, inBits.cFields, List.map_append, ← List.append_assoc, List.map_singleton,
    List.getLast?_concat]
  rfl

theorem InBits.own_cPrevName (inBits : InBits st s fields front names before) :
    isFiller s.cPrevName = false := by
  obtain ⟨name, member, same⟩ := inBits.cPrevName
  rw [same]
  exact inBits.own name member

theorem not_unusedBit_of_own (own : isFiller name = false) : isUnusedBit name = false :=
  (Bool.or_eq_false_iff.mp own).2

theorem not_alignmentFill_of_own (own : isFiller name = false) : isAlignmentFill name = false :=
  (Bool.or_eq_false_iff.mp own).1

theorem cPrevName_of_bits (unused : ∀ name ∈ fillers, isUnusedBit name = true)
    (grown : Grown s s' (fillers.map bitField)) :
    s'.cPrevName = s.cPrevName ∨ isUnusedBit s'.cPrevName = true := by
  obtain rfl | ⟨others, name, rfl⟩ := List.eq_nil_or_concat' fillers
  · rw [ConfigStructure.cPrevName, grown.cFields, List.map_nil, List.append_nil]
    exact .inl rfl
  · rw [List.map_append] at grown
    rw [Grown.cPrevName grown]
    exact .inr (unused name (by simp))

theorem endsInBits_concat (bits : List BitField) : endsInBits (before ++ [.bitGroup bits]) = true := by
  rw [endsInBits, List.getLast?_concat]

theorem endsInBits_concat_of_ne (other : ∀ bits, f ≠ .bitGroup bits) :
    endsInBits (fields ++ [f]) = false := by
  rw [endsInBits, List.getLast?_concat]
  cases f with
  | bitGroup bits => exact absurd rfl (other bits)
  | _ => rfl

theorem isFiller_of_unusedBit (unused : isUnusedBit name = true) : isFiller name = true := by
  rw [isFiller, unused, Bool.or_true]

/-- The group in which bits are being read is filled up. -/
theorem InBits.filledUp (inBits : InBits st s fields front names before)
    (long : fillers.length = 32 - s.readingBitState)
    (unused : ∀ name ∈ fillers, isUnusedBit name = true)
    (grown : Grown s s' (fillers.map bitField)) (reading : s'.readingBitState = 0) :
    Between st s' fields := by
  have cFields : s'.cFields = front ++ (names ++ fillers).map bitField := by
    rw [grown.cFields, inBits.cFields, List.map_append, List.append_assoc]
  have fills : ∀ name ∈ fillers, isFiller name = true :=
    fun name member => isFiller_of_unusedBit (unused name member)
  have ends : endsInBits fields = true := by
    rw [inBits.fields]
    exact endsInBits_concat _
  constructor
  · exact reading
  · intro placed total d measured laid
    rw [cFields] at measured
    obtain ⟨out, start, first, rfl, offsets⟩ :=
      placeFields_bits inBits.known inBits.counted inBits.started inBits.own fills measured
    rw [inBits.fields, addFields_concat] at laid
    obtain ⟨d₀, laid, added⟩ := Option.bind_eq_some_iff.mp laid
    obtain ⟨position, same⟩ := inBits.alongside out start d₀ first laid
    obtain ⟨l, made, rfl⟩ := Option.map_eq_some_iff.mp added
    obtain ⟨-, made⟩ := Option.ite_none_left_eq_some.mp made
    obtain rfl := Option.some.inj made
    obtain ⟨stop, shown⟩ := @addBitGroup_eq d₀ names
    rw [roundUp_one, stop, shown, offsets, same, position]
    exact ⟨rfl, rfl⟩
  · rw [cFields, ends, if_pos rfl, bitIndexAfter_append, inBits.counted, Option.bind_some]
    have full : (names ++ fillers).length = 32 := by
      have few := inBits.few
      rw [List.length_append, long, inBits.reading]
      omega
    rw [bitIndexAfter_bits (by omega), full]
  · intro _ placed measured
    obtain ⟨placed, total⟩ := placed
    rw [cFields] at measured
    obtain ⟨out, start, first, rfl, -⟩ :=
      placeFields_bits inBits.known inBits.counted inBits.started inBits.own fills measured
    have word : 4 ∣ start := inBits.word _ first
    exact Nat.dvd_add word (Nat.dvd_refl 4)
  · intro cf member
    rw [cFields] at member
    rcases List.mem_append.mp member with member | member
    · exact inBits.known cf member
    · obtain ⟨name, -, rfl⟩ := List.mem_map.mp member
      exact bitField_isDirective name
  · rcases cPrevName_of_bits unused grown with same | unused
    · rw [same]
      exact not_alignmentFill_of_own inBits.own_cPrevName
    · exact not_alignmentFill_of_unusedBit unused

/-- A group of bits ends. -/
theorem Reading.addBitPadding (reading : Reading st s fields) (padded : s.addBitPadding = some s') :
    (Between st s' fields ∨ bitIndexAfter 0 s'.cFields = none) ∧
      (bitIndexAfter 0 s'.cFields ≠ none → s'.cPrevName = s.cPrevName ∨ isFiller s'.cPrevName = true) := by
  cases reading with
  | between between =>
    rw [ConfigStructure.addBitPadding, if_pos between.reading] at padded
    obtain rfl := Option.some.inj padded
    exact ⟨.inl between, fun _ => .inl rfl⟩
  | stuck stuck =>
    have still := (addBitPadding_longer padded).stuck stuck
    exact ⟨.inr still, fun going => absurd still going⟩
  | inBits front names before inBits =>
    have started : s.readingBitState ≠ 0 := by
      rw [inBits.reading]
      exact fun none => inBits.started (List.length_eq_zero_iff.mp none)
    obtain ⟨reading, fillers, long, unused, grown⟩ := addBitPadding_grown started
      (inBits.reading ▸ inBits.few) (not_unusedBit_of_own inBits.own_cPrevName) padded
    refine ⟨.inl (inBits.filledUp long unused grown reading), fun _ => ?_⟩
    exact (cPrevName_of_bits unused grown).imp_right isFiller_of_unusedBit

end Bits

section Steps

/-- In front of a field. -/
structure Placing (st : ReaderState) (ps : ParseState) (cf : ConfigField) (s s' : ConfigStructure)
    (fields : List Field) : Prop where
  reading : s'.readingBitState = 0
  alongside : ∀ align, 0 < align → Aligns st ps cf align → Alongside st align s'.cFields fields
  counted : ∃ bitIndex, bitIndexAfter 0 s'.cFields = some bitIndex
  known : ∀ cf ∈ s'.cFields, cf.isDirective = false
  prev : s'.cPrevName = s.cPrevName ∨ isFiller s'.cPrevName = true

theorem Between.placing (same : SameTypes st ps) (between : Between st s fields)
    (fits : ∀ size ∈ ps.stringSize cf.type, ∀ placed ∈ st.placeFields s.cFields,
      size % 8 = 0 ∨ size % 8 ∣ placed.2)
    (filled : s.addAlignmentFill st (st.alignmentOf cf) = some s') : Placing st ps cf s s' fields := by
  by_cases none : st.alignmentOf cf = 0
  · rw [ConfigStructure.addAlignmentFill, if_pos none] at filled
    obtain rfl := Option.some.inj filled
    refine ⟨between.reading, fun align positive aligns => ?_, ⟨_, between.counted⟩, between.known, .inl rfl⟩
    rcases aligns with exact' | ⟨rfl, -⟩
    · omega
    · exact between.alongside
  · have after := between.addAlignmentFill same (Nat.pos_of_ne_zero none) filled
    refine ⟨after.reading.trans between.reading, fun align positive aligns => ?_, ?_, after.known, ?_⟩
    · rcases aligns with exact' | ⟨rfl, none' | ⟨size, string, modulo⟩⟩
      · exact exact' ▸ after.alongside
      · exact absurd none' none
      · have divides : ∀ placed ∈ st.placeFields s.cFields, st.alignmentOf cf ∣ placed.2 := by
          intro placed measured
          rw [modulo] at none ⊢
          exact (fits size string placed measured).resolve_left none
        rw [(addAlignmentFill_of_dvd divides filled).1]
        exact between.alongside
    · rcases after.counted with same | first
      · exact ⟨_, same ▸ between.counted⟩
      · exact ⟨0, first⟩
    · exact after.prev.imp_right fun fill => by rw [isFiller, fill, Bool.true_or]

/-- A field is added to both. -/
theorem Placing.added (same : SameTypes st ps) (placing : Placing st ps cf s s₁ fields)
    (made : ps.exitField cf = some f) (named : cf.name ≠ "") (own : isFiller cf.name = false)
    (grown : Grown s₁ s' [cf]) (reading : s'.readingBitState = s₁.readingBitState) :
    Between st s' (fields ++ [f]) := by
  obtain ⟨prototype, element, noBits, -⟩ := exitField_cases made
  obtain ⟨plain, noDirective⟩ := exitScalarField_plain same element
  constructor
  · exact reading.trans placing.reading
  · intro placed total d measured laid
    rw [grown.cFields, placeFields_concat placing.known plain] at measured
    obtain ⟨⟨out, start⟩, first, measured⟩ := Option.bind_eq_some_iff.mp measured
    obtain ⟨bitIndex, -, measured⟩ := Option.bind_eq_some_iff.mp measured
    obtain ⟨size, sized, rest⟩ := Option.map_eq_some_iff.mp measured
    obtain ⟨rfl, rfl⟩ := Prod.mk.inj rest
    rw [addFields_concat] at laid
    obtain ⟨d₀, laid, added⟩ := Option.bind_eq_some_iff.mp laid
    obtain ⟨align, positive, aligns, takes⟩ := exitField_takes same named made sized added
    obtain ⟨position, offsets⟩ := placing.alongside align positive aligns out start d₀ first laid
    rw [roundUp_one, takes.offset, takes.fieldOffsets, List.filterMap_append, offsets]
    simp [PlacedField.fieldOffset, own, plain, position]
  · obtain ⟨bitIndex, counted⟩ := placing.counted
    rw [endsInBits_concat_of_ne noBits, grown.cFields, bitIndexAfter_append, counted, Option.bind_some,
      bitIndexAfter_cons, incrementBitIndex_plain plain]
    rfl
  · rw [endsInBits_concat_of_ne noBits]
    exact fun ends => absurd ends Bool.false_ne_true
  · intro cf' member
    rw [grown.cFields] at member
    rcases List.mem_append.mp member with before | last
    · exact placing.known cf' before
    · obtain rfl := List.mem_singleton.mp last
      exact noDirective
  · rw [grown.cPrevName_of_one]
    exact not_alignmentFill_of_own own

theorem Between.processField (same : SameTypes st ps) (between : Between st s fields)
    (made : ps.exitField cf = some f) (named : cf.name ≠ "") (own : isFiller cf.name = false)
    (other : cf.name ≠ s.cPrevName)
    (fits : ∀ size ∈ ps.stringSize cf.type, ∀ placed ∈ st.placeFields s.cFields,
      size % 8 = 0 ∨ size % 8 ∣ placed.2)
    (processed : st.processField s cf = some s') : Between st s' (fields ++ [f]) := by
  obtain ⟨prototype, element, -, -⟩ := exitField_cases made
  have noDirective := (exitScalarField_plain same element).2
  obtain ⟨s₁, filled, processed⟩ := Option.bind_eq_some_iff.mp processed
  have placing := between.placing same fits filled
  have apart : cf.name ≠ s₁.cPrevName := by
    intro hidden
    rcases placing.prev with prev | filler
    · exact other (hidden.trans prev)
    · rw [← hidden, own] at filler
      contradiction
  split at processed
  · obtain ⟨s₂, added, processed⟩ := Option.bind_eq_some_iff.mp processed
    obtain ⟨n, -, processed⟩ := Option.bind_eq_some_iff.mp processed
    obtain rfl := Option.some.inj processed
    obtain ⟨grown, reading⟩ := addC_grown apart added
    exact placing.added same made named own ⟨grown.name, grown.cFields⟩ reading
  · rw [noDirective, if_neg Bool.false_ne_true] at processed
    obtain ⟨grown, reading⟩ := addBoth_grown apart processed
    exact placing.added same made named own grown reading

end Steps

section BitLines

theorem enterBitField_started (started : endsInBits fields = false) (bit : BitField) :
    ParseState.enterBitField fields bit = fields ++ [.bitGroup [bit]] := by
  rw [ParseState.enterBitField]
  rw [endsInBits] at started
  split
  · next bits last => simp [last] at started
  · rfl

theorem enterBitField_goes {bits : List BitField} (room : bits.length ≠ 32) (bit : BitField) :
    ParseState.enterBitField (before ++ [.bitGroup bits]) bit = before ++ [.bitGroup (bits ++ [bit])] := by
  simp [ParseState.enterBitField, room]

theorem bitIndexAfter_bit_of_full (full : bitIndexAfter 0 front = some 32) (name : String) :
    bitIndexAfter 0 (front ++ [bitField name]) = none := by
  rw [bitIndexAfter_append, full]
  simp [FieldIterator.incrementBitIndex, bitField_isBit]

/-- The first bit of a group. -/
theorem Between.handleBitLine (same : SameTypes st ps) (between : Between st s fields)
    (own : isFiller name = false) (other : name ≠ s.cPrevName)
    (handled : st.handleBitLine s name = some s') :
    Reading st s' (ParseState.enterBitField fields { name }) := by
  obtain ⟨s₁, filled, added⟩ := Option.bind_eq_some_iff.mp handled
  have after := between.addAlignmentFill same (Nat.succ_pos 3) filled
  have apart : (bitField name).name ≠ s₁.cPrevName := by
    intro hidden
    rcases after.prev with prev | filler
    · exact other (hidden.trans prev)
    · rw [← hidden, bitField, not_alignmentFill_of_own own] at filler
      contradiction
  obtain ⟨grown, -, reading⟩ := addBitField_grown apart added
  cases ends : endsInBits fields with
  | true =>
    have full := between.counted
    rw [ends, if_pos rfl, ← (addAlignmentFill_of_dvd (between.word ends) filled).1] at full
    refine .stuck ?_
    rw [grown.cFields]
    exact bitIndexAfter_bit_of_full full name
  | false =>
    have none := between.counted
    rw [ends, if_neg Bool.false_ne_true] at none
    rw [enterBitField_started ends]
    refine .inBits s₁.cFields [name] fields ?_
    constructor
    · exact List.cons_ne_nil _ _
    · exact Nat.succ_le_succ (Nat.zero_le 31)
    · exact grown.cFields
    · rfl
    · rw [reading, after.reading, between.reading]
      rfl
    · exact after.alongside
    · rcases after.counted with same | first
      · rw [same, none]
      · exact first
    · intro placed measured
      obtain ⟨out, whole⟩ := after.size
      obtain rfl := Option.some.inj (whole.symm.trans measured)
      exact after.aligned
    · exact after.known
    · simpa using own

/-- One more. -/
theorem InBits.handleBitLine (inBits : InBits st s fields front names before)
    (own : isFiller name = false) (other : name ≠ s.cPrevName)
    (handled : st.handleBitLine s name = some s') :
    Reading st s' (ParseState.enterBitField fields { name }) := by
  obtain ⟨s₁, filled, added⟩ := Option.bind_eq_some_iff.mp handled
  have divides : ∀ placed ∈ st.placeFields s.cFields, 4 ∣ placed.2 := by
    intro placed measured
    obtain ⟨placed, total⟩ := placed
    rw [inBits.cFields, ← List.append_nil names] at measured
    obtain ⟨out, start, first, rfl, -⟩ := placeFields_bits inBits.known inBits.counted inBits.started
      inBits.own (fun _ member => absurd member List.not_mem_nil) measured
    have word : 4 ∣ start := inBits.word _ first
    exact Nat.dvd_add word (Nat.dvd_refl 4)
  obtain ⟨same, reading₁⟩ := addAlignmentFill_of_dvd divides filled
  have apart : (bitField name).name ≠ s₁.cPrevName := by
    rw [ConfigStructure.cPrevName, same]
    exact other
  obtain ⟨grown, room, reading⟩ := addBitField_grown apart added
  rw [reading₁, inBits.reading] at room reading
  have few := inBits.few
  rw [inBits.fields, enterBitField_goes (by simpa using room)]
  refine .inBits front (names ++ [name]) before ?_
  constructor
  · simp
  · rw [List.length_append, List.length_singleton]
    omega
  · rw [grown.cFields, same, inBits.cFields, List.map_append, List.append_assoc]
    rfl
  · rw [List.map_append]
    rfl
  · rw [reading, List.length_append]
    rfl
  · exact inBits.alongside
  · exact inBits.counted
  · exact inBits.word
  · exact inBits.known
  · intro name' member
    rcases List.mem_append.mp member with before | last
    · exact inBits.own name' before
    · obtain rfl := List.mem_singleton.mp last
      exact own

theorem Reading.handleBitLine (same : SameTypes st ps) (reading : Reading st s fields)
    (own : isFiller name = false) (other : name ≠ s.cPrevName)
    (handled : st.handleBitLine s name = some s') :
    Reading st s' (ParseState.enterBitField fields { name }) := by
  cases reading with
  | between between => exact between.handleBitLine same own other handled
  | inBits front names before inBits => exact inBits.handleBitLine own other handled
  | stuck stuck =>
    obtain ⟨s₁, filled, added⟩ := Option.bind_eq_some_iff.mp handled
    exact .stuck (((addAlignmentFill_longer filled).trans (addBitField_longer added)).stuck stuck)

end BitLines

section Lines

theorem processField_longer (processed : st.processField s cf = some s') : Longer s s' := by
  obtain ⟨s₁, filled, processed⟩ := Option.bind_eq_some_iff.mp processed
  refine (addAlignmentFill_longer filled).trans ?_
  split at processed
  · obtain ⟨s₂, added, processed⟩ := Option.bind_eq_some_iff.mp processed
    obtain ⟨n, -, processed⟩ := Option.bind_eq_some_iff.mp processed
    obtain rfl := Option.some.inj processed
    obtain ⟨more, grown⟩ := addC_longer added
    exact ⟨more, grown.name, grown.cFields⟩
  · split at processed
    · obtain rfl := Option.some.inj processed
      exact ⟨[], rfl, (List.append_nil _).symm⟩
    · exact addBoth_longer processed

theorem handleBitLine_longer (handled : st.handleBitLine s name = some s') : Longer s s' := by
  obtain ⟨s₁, filled, added⟩ := Option.bind_eq_some_iff.mp handled
  exact (addAlignmentFill_longer filled).trans (addBitField_longer added)

theorem Reading.field (same : SameTypes st ps) (reading : Reading st s fields)
    (made : ps.exitField cf = some f) (named : cf.name ≠ "") (own : isFiller cf.name = false)
    (other : cf.name ≠ s.cPrevName) (padded : s.addBitPadding = some s₁)
    (fits : ∀ size ∈ ps.stringSize cf.type, ∀ placed ∈ st.placeFields s₁.cFields,
      size % 8 = 0 ∨ size % 8 ∣ placed.2)
    (processed : st.processField s₁ cf = some s') : Reading st s' (fields ++ [f]) := by
  obtain ⟨between | stuck, prev⟩ := reading.addBitPadding padded
  · refine .between (between.processField same made named own ?_ fits processed)
    intro hidden
    rcases prev (by rw [between.counted]; nofun) with prev | filler
    · exact other (hidden.trans prev)
    · rw [← hidden, own] at filler
      contradiction
  · exact .stuck ((processField_longer processed).stuck stuck)

theorem SameTypes.alignmentOf_directive (same : SameTypes st ps) :
    st.alignmentOf ReaderState.directiveField = 0 := by
  obtain ⟨noStruct, noCustom⟩ := @SameTypes.unknown _ _ "directive" same (by decide)
  rw [ReaderState.alignmentOf, ReaderState.getStructure]
  rw [ReaderState.directiveField, noStruct, noCustom]
  rfl

theorem Reading.directive (same : SameTypes st ps) (reading : Reading st s fields)
    (padded : s.addBitPadding = some s₁)
    (processed : st.processField s₁ ReaderState.directiveField = some s') : Reading st s' fields := by
  obtain ⟨between | stuck, -⟩ := reading.addBitPadding padded
  · rw [ReaderState.processField, same.alignmentOf_directive] at processed
    obtain rfl := Option.some.inj processed
    exact .between ⟨between.reading, between.alongside, between.counted, between.word, between.known,
      between.prev⟩
  · exact .stuck ((processField_longer processed).stuck stuck)

/-- At its end a struct has one size and the same offsets. -/
theorem Reading.endStruct (same : SameTypes st ps) (reading : Reading st s fields)
    (padded : s.addBitPadding = some s₁) (filled : s₁.addAlignmentFill st 4 = some s') :
    ∃ placed, st.placeFields s'.cFields = some (placed, s'.totalSize) ∧
      ∀ d, addFields 0 { offset := 0 } fields = some d →
        s'.totalSize = roundUp 4 d.offset ∧ placed.filterMap PlacedField.fieldOffset = d.fieldOffsets := by
  obtain ⟨between | stuck, -⟩ := reading.addBitPadding padded
  · have after := between.addAlignmentFill same (Nat.succ_pos 3) filled
    obtain ⟨placed, measured⟩ := after.size
    exact ⟨placed, measured, fun d laid => after.alongside placed s'.totalSize d measured laid⟩
  · obtain ⟨none, -⟩ | ⟨out, total, -, measured, -⟩ := addAlignmentFill_cases filled
    · contradiction
    · obtain ⟨counted, possible⟩ := bitIndexAfter_of_placed measured
      rw [stuck] at possible
      contradiction

end Lines

end FomeFw.Config
