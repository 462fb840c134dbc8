import FomeFw.Config.TwoIterators

/-! What a finished struct means depends on the sizes of the types it uses, and on nothing else of
the state. -/
namespace FomeFw.Config

variable {st st' : ReaderState} {s s' : ConfigStructure} {cf : ConfigField} {prev : Option ConfigField}
  {later declared : List Added} {fields : List ConfigField} {type : String}

/-- A struct hides a custom type of its name. -/
structure SameSize (st st' : ReaderState) (type : String) : Prop where
  struct : st'.getStructure type = st.getStructure type
  custom : st.getStructure type = none → st'.tsCustomSize.lookup type = st.tsCustomSize.lookup type

theorem SameSize.symm (same : SameSize st st' type) : SameSize st' st type where
  struct := same.struct.symm
  custom noStruct := (same.custom (same.struct.symm.trans noStruct)).symm

section Congruence

theorem getElementSize_congr (same : SameSize st st' cf.type) :
    st'.getElementSize cf = st.getElementSize cf := by
  unfold ReaderState.getElementSize
  rw [same.struct]
  cases struct : st.getStructure cf.type with
  | some other => rfl
  | none => rw [same.custom struct]

theorem getSize_congr (same : SameSize st st' cf.type) (next : Option ConfigField) :
    st'.getSize cf next = st.getSize cf next := by
  rw [ReaderState.getSize, ReaderState.getSize, getElementSize_congr same]

theorem isPlain_congr (same : SameSize st st' cf.type) : st'.isPlain cf = st.isPlain cf := by
  rw [ReaderState.isPlain, ReaderState.isPlain, same.struct]

theorem room_congr (same : SameSize st st' cf.type) (plain : st.isPlain cf = true) :
    st'.room cf = st.room cf := by
  simp only [ReaderState.isPlain, Bool.and_eq_true, Option.isNone_iff_eq_none] at plain
  rw [ReaderState.room, ReaderState.room, same.custom plain.2, getElementSize_congr same,
    getSize_congr same]

theorem place_congr (same : ∀ cf ∈ fields, SameSize st st' cf.type) (bitIndex position : Nat) :
    FieldIterator.loop st'.placeField bitIndex position fields =
      FieldIterator.loop st.placeField bitIndex position fields := by
  induction fields generalizing bitIndex position with
  | nil => rfl
  | cons cf rest ih =>
    obtain ⟨own, others⟩ := List.forall_mem_cons.mp same
    simp only [FieldIterator.loop, ReaderState.placeField, getSize_congr own, getElementSize_congr own,
      ih others]

theorem ReaderState.BothFits.congr (same : SameSize st st' cf.type) (before : ∀ p ∈ prev, SameSize st st' p.type)
    (fits : st.BothFits prev cf later) : st'.BothFits prev cf later where
  named := fits.named
  repeated again := by
    rw [isPlain_congr same]
    exact fits.repeated again
  bits bit := by
    rw [same.struct]
    exact fits.bits bit
  one struct := by
    rw [same.struct] at struct
    exact fits.one struct
  known := by
    rw [getSize_congr same]
    exact fits.known
  room plain last := by
    rw [isPlain_congr same] at plain
    rw [room_congr same plain, fits.room plain last]
    cases first : prev.filter (·.name = cf.name) with
    | none => exact (getSize_congr same _).symm
    | some p => exact (getSize_congr (before p (Option.filter_eq_some_iff.mp first).1) _).symm
  apart plain last := by
    rw [isPlain_congr same] at plain
    exact fits.apart plain last

theorem ReaderState.IterateFits.congr (same : SameSize st st' cf.type) (fits : st.IterateFits prev cf later) :
    st'.IterateFits prev cf later where
  named := fits.named
  single := fits.single
  type := fits.type
  size := by
    rw [getSize_congr same, getElementSize_congr same]
    exact fits.size
  apart noStruct := by
    rw [same.struct] at noStruct
    exact fits.apart noStruct

theorem ReaderState.Fits.congr (same : ∀ a ∈ declared, SameSize st st' a.field.type)
    (before : ∀ p ∈ prev, SameSize st st' p.type) (fits : st.Fits prev declared) :
    st'.Fits prev declared := by
  induction declared generalizing prev with
  | nil => trivial
  | cons a later ih =>
    obtain ⟨own, others⟩ := List.forall_mem_cons.mp same
    cases a with
    | both cf =>
      obtain ⟨fit, fits⟩ := fits
      refine ⟨fit.congr own before, ih others ?_ fits⟩
      intro p same
      obtain rfl := Option.some.inj same
      cases first : prev.filter (·.name = cf.name) with
      | none => exact own
      | some p => exact before p (Option.filter_eq_some_iff.mp first).1
    | iterate cf =>
      obtain ⟨fit, fits⟩ := fits
      refine ⟨fit.congr own, ih others ?_ fits⟩
      intro p same
      obtain rfl := Option.some.inj same
      exact own
    | directive cf =>
      obtain ⟨fit, fits⟩ := fits
      exact ⟨fit, ih others before fits⟩

end Congruence

end FomeFw.Config
