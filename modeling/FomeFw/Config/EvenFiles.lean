import FomeFw.Config.SameSizes

/-! In a file whose structs are even, the tuning software has the offsets of the C header. -/
namespace FomeFw.Config

open TsOutput

variable {st st' : ReaderState} {s s' : ConfigStructure} {cf : ConfigField} {h : HeaderStruct}
  {structs earlier : List ConfigStructure} {header : List HeaderStruct}
  {nested : List ConfigField → String → Nat → Option (List TsEntry × Nat)}
  {written : List TsEntry} {path type : String} {offset depth stop : Nat}

section Finished

/-- A struct that has been read, and its text in the header. -/
structure Printed (st : ReaderState) (s : ConfigStructure) (earlier : List ConfigStructure)
    (h : HeaderStruct) : Prop where
  name : h.name = s.name
  withPrefix : h.withPrefix = s.withPrefix
  placed : st.placeFields s.cFields = some (h.fields, h.size)
  size : s.totalSize = h.size
  recorded : s.Recorded
  fits : st.Fits none s.declared
  resolved : ∀ type, s.uses type = true → st.getStructure type = earlier.find? (·.name = type)

def AllPrinted (st : ReaderState) : List ConfigStructure → List HeaderStruct → Prop
  | [], [] => True
  | s :: earlier, h :: header => Printed st s earlier h ∧ AllPrinted st earlier header
  | _, _ => False

theorem uses_of_mem {a : Added} (member : a ∈ s.declared) : s.uses a.field.type = true :=
  List.any_eq_true.mpr ⟨a, member, decide_eq_true rfl⟩

/-- The fields of a struct are written where the header has them. -/
theorem Printed.shows (printed : Printed st s earlier h)
    (agrees : ∀ type, s.uses type = true → Agrees st nested header type)
    (wrote : FieldIterator.loop (writeOneField st nested path) 0 offset s.tsFields = some (written, stop)) :
    stop = offset + h.size ∧
      Shows written (fieldMembers header (elementMembers header) path offset h.fields) := by
  have inStep : InStep st none s.declared offset 0 0 0 offset :=
    ⟨fun _ => rfl, .inl rfl, .inl rfl, fun _ => rfl, fun _ none => nomatch none⟩
  have known : ∀ a ∈ s.declared, Agrees st nested header a.field.type :=
    fun a member => agrees _ (uses_of_mem member)
  have placed := printed.placed
  rw [ReaderState.placeFields, printed.recorded.header] at placed
  rw [printed.recorded.tuning] at wrote
  exact sameOffsets printed.recorded.proper known printed.fits inStep _ _ _ _ placed wrote

theorem Agrees.later (agrees : Agrees st nested header type) (apart : h.name ≠ type) :
    Agrees st nested (h :: header) type := by
  constructor
  · rw [← agrees.known, isStructOf, List.any_cons, decide_eq_false apart, Bool.false_or]
    rfl
  · intro cs struct path name offset written stop ordinary wrote
    rw [elementMembers, if_neg apart]
    exact agrees.fields cs struct path name offset written stop ordinary wrote

/-- At any depth, by induction on the structs that were printed before. -/
theorem AllPrinted.agrees (printed : AllPrinted st structs header) (deep : structs.length ≤ depth)
    (found : st.getStructure type = structs.find? (·.name = type)) :
    Agrees st (writeFields st depth) header type := by
  induction structs generalizing header depth type with
  | nil =>
    cases header with
    | cons h header => contradiction
    | nil =>
      constructor
      · rw [found]
        rfl
      · intro cs struct
        rw [found] at struct
        contradiction
  | cons s earlier ih =>
    cases header with
    | nil => contradiction
    | cons h header =>
      obtain ⟨printed, others⟩ := printed
      by_cases named : s.name = type
      · rw [List.find?_cons_of_pos (by simp [named])] at found
        cases depth with
        | zero => contradiction
        | succ depth =>
          have shallower : earlier.length ≤ depth := Nat.le_of_succ_le_succ deep
          constructor
          · simp [isStructOf, printed.name, named, found]
          · intro cs struct path name offset written stop ordinary wrote
            obtain rfl := Option.some.inj (found.symm.trans struct)
            obtain ⟨stops, shown⟩ :=
              printed.shows (fun type used => ih others shallower (printed.resolved type used)) wrote
            refine ⟨stops.trans (by rw [printed.size]), ?_⟩
            rw [elementMembers, if_pos (printed.name.trans named), printed.withPrefix, ordinary]
            simpa using shown
      · rw [List.find?_cons_of_neg (by simp [named])] at found
        have apart : h.name ≠ type := by
          rw [printed.name]
          exact named
        exact (ih others (Nat.le_of_succ_le deep) found).later apart

end Finished

section Changes

theorem placeFields_congr (recorded : s.Recorded)
    (same : ∀ type, s.uses type = true → SameSize st st' type) :
    st'.placeFields s.cFields = st.placeFields s.cFields := by
  refine place_congr ?_ 0 0
  intro cf member
  rw [recorded.header] at member
  obtain ⟨a, declared, shown⟩ := mem_cFieldsOf member
  have field : a.field = cf := by
    cases a with
    | both _ | iterate _ => exact Option.some.inj shown
    | directive _ => contradiction
  exact same _ (field ▸ uses_of_mem declared)

theorem fits_congr (same : ∀ type, s.uses type = true → SameSize st st' type)
    (fits : st.Fits none s.declared) : st'.Fits none s.declared :=
  fits.congr (fun _ member => same _ (uses_of_mem member)) (by simp)

theorem Printed.congr (same : ∀ type, s.uses type = true → SameSize st st' type)
    (printed : Printed st s earlier h) : Printed st' s earlier h where
  name := printed.name
  withPrefix := printed.withPrefix
  placed := (placeFields_congr printed.recorded same).trans printed.placed
  size := printed.size
  recorded := printed.recorded
  fits := fits_congr same printed.fits
  resolved type used := (same type used).struct.trans (printed.resolved type used)

theorem AllPrinted.congr (same : ∀ s ∈ structs, ∀ type, s.uses type = true → SameSize st st' type)
    (printed : AllPrinted st structs header) : AllPrinted st' structs header := by
  induction structs generalizing header with
  | nil =>
    cases header with
    | nil => trivial
    | cons h header => contradiction
  | cons s earlier ih =>
    obtain ⟨own, others⟩ := List.forall_mem_cons.mp same
    cases header with
    | nil => contradiction
    | cons h header => exact ⟨printed.1.congr own, ih others printed.2⟩

end Changes

section Fill

variable {fields : List ConfigField} {out out' : List PlacedField} {bitIndex position stop' size : Nat}

/-- One more field behind others changes none of them unless it is a bit. -/
theorem place_append (plain : cf.isBit = false)
    (placed : FieldIterator.loop st.placeField bitIndex position fields = some (out, stop))
    (longer : FieldIterator.loop st.placeField bitIndex position (fields ++ [cf]) = some (out', stop')) :
    ∃ size, st.getSize cf none = some size ∧ stop' = stop + size := by
  induction fields generalizing bitIndex position out out' with
  | nil =>
    obtain ⟨-, rfl⟩ := Prod.mk.inj (Option.some.inj placed)
    obtain ⟨size, counted, tail, sized, -, ended, -⟩ := place_cons longer
    obtain ⟨-, rfl⟩ := Prod.mk.inj (Option.some.inj ended)
    rw [getSize_next plain] at sized
    exact ⟨size, sized, rfl⟩
  | cons first rest ih =>
    rw [List.cons_append] at longer
    obtain ⟨size, counted, tail, sized, possible, more, -⟩ := place_cons placed
    obtain ⟨size', counted', tail', sized', possible', more', -⟩ := place_cons longer
    obtain rfl := Option.some.inj (possible.symm.trans possible')
    have following : (FieldIterator.next (rest ++ [cf])).any ConfigField.isBit =
        (FieldIterator.next rest).any ConfigField.isBit := by
      rw [FieldIterator.next, FieldIterator.next, List.find?_append]
      cases rest.find? fun cf => !cf.isDirective with
      | some next => rfl
      | none =>
        cases declares : cf.isDirective with
        | true => simp [declares]
        | false => simp [declares, plain]
    have same : st.getSize first (FieldIterator.next (rest ++ [cf])) =
        st.getSize first (FieldIterator.next rest) := by
      rw [ReaderState.getSize, ReaderState.getSize, following]
    rw [same, sized] at sized'
    obtain rfl := Option.some.inj sized'
    exact ih more more'

theorem isAlignmentFill_alignmentFill (totalSize fillSize : Nat) :
    isAlignmentFill (ConfigStructure.alignmentFill totalSize fillSize).name = true := by
  have text : (ConfigStructure.alignmentFill totalSize fillSize).name.toList =
      "alignmentFill_at_".toList ++ (toString totalSize).toList := String.toList_append
  apply List.isPrefixOf_iff_prefix.mpr
  exact ⟨(toString totalSize).toList, text.symm⟩

theorem uint8_not_boolean : equalsIgnoreCase "boolean" "uint8_t" = false := by decide

theorem getSize_alignmentFill {totalSize fillSize : Nat}
    (bytes : st.getElementSize (ConfigStructure.alignmentFill totalSize fillSize) = some 1) :
    st.getSize (ConfigStructure.alignmentFill totalSize fillSize) none = some fillSize := by
  have number : (ConfigStructure.alignmentFill totalSize fillSize).isBit = false := uint8_not_boolean
  have sizes : (ConfigStructure.alignmentFill totalSize fillSize).elementCount =
      (if fillSize = 1 then [] else [fillSize]).prod := rfl
  rw [getSize_eq number, bytes, Option.map_some, Nat.one_mul, sizes, Option.some.injEq]
  split
  · next one => simp [one]
  · simp

theorem lastName_cFieldsOf_cons {a : Added} {prev : String} {declared : List Added}
    (shown : a.inHeader = some cf) : lastName prev (cFieldsOf prev (a :: declared)) =
      lastName cf.name (cFieldsOf cf.name declared) := by
  simp only [cFieldsOf, shown]
  split
  · next same => rw [same]
  · exact lastName_cons

theorem prevName_both (prev : Option ConfigField) :
    prevName (some ((prev.filter (·.name = cf.name)).getD cf)) = cf.name := by
  cases first : prev.filter (·.name = cf.name) with
  | none => rfl
  | some p => exact of_decide_eq_true (Option.filter_eq_some_iff.mp first).2

/-- A field whose name is not compared has not the name of the field before. -/
theorem name_ne_lastName {prev : Option ConfigField} {declared : List Added}
    (special : st.isPlain cf = false) (fits : st.Fits prev (declared ++ [.both cf])) :
    cf.name ≠ lastName (prevName prev) (cFieldsOf (prevName prev) declared) := by
  induction declared generalizing prev with
  | nil =>
    obtain ⟨fit, -⟩ := fits
    intro same
    have again : prev.any (·.name = cf.name) = true := by
      cases prev with
      | none => exact absurd same fit.named
      | some p => exact decide_eq_true same.symm
    have plain := fit.repeated (by rw [again, Bool.true_or])
    rw [special] at plain
    contradiction
  | cons a later ih =>
    cases a with
    | both other =>
      obtain ⟨-, fits⟩ := fits
      have apart := ih fits
      rw [prevName_both] at apart
      rwa [lastName_cFieldsOf_cons rfl]
    | iterate other =>
      obtain ⟨-, fits⟩ := fits
      have apart := ih fits
      rwa [lastName_cFieldsOf_cons rfl]
    | directive other =>
      obtain ⟨-, fits⟩ := fits
      exact ih fits

theorem filled_size {total fillSize : Nat} (recorded : s.Recorded)
    (measured : st.placeFields s.cFields = some (out, total))
    (fits : st.Fits none (s.declared ++ [.both (ConfigStructure.alignmentFill total fillSize)]))
    (bytes : st.getElementSize (ConfigStructure.alignmentFill total fillSize) = some 1)
    (placed : st.placeFields (s.cFields ++
      [ConfigStructure.alignmentFill total fillSize].filter (·.name ≠ s.cPrevName)) = some (out', size)) :
    size = total + fillSize := by
  have special : st.isPlain (ConfigStructure.alignmentFill total fillSize) = false := by
    simp [ReaderState.isPlain, isAlignmentFill_alignmentFill]
  have apart : (ConfigStructure.alignmentFill total fillSize).name ≠ s.cPrevName := by
    rw [ConfigStructure.cPrevName, recorded.header]
    exact name_ne_lastName special fits
  have kept : [ConfigStructure.alignmentFill total fillSize].filter (·.name ≠ s.cPrevName) =
      [ConfigStructure.alignmentFill total fillSize] :=
    List.filter_cons_of_pos (decide_eq_true apart)
  rw [kept] at placed
  have number : (ConfigStructure.alignmentFill total fillSize).isBit = false := uint8_not_boolean
  obtain ⟨size', sized, rfl⟩ := place_append number measured placed
  rw [getSize_alignmentFill bytes] at sized
  rw [Option.some.inj sized]

/-- At its end a struct is as large as its fields with what fills it up. -/
theorem addAlignmentFill_size (recorded : s.Recorded) (filled : s.addAlignmentFill st 4 = some s')
    (fits : st.Fits none s'.declared)
    (bytes : (s'.declared.getLast?.all fun a =>
      !isAlignmentFill a.field.name || a.field.type ≠ "uint8_t" ||
        st.getElementSize a.field = some 1) = true)
    (placed : st.placeFields s'.cFields = some (out, size)) : s'.totalSize = size := by
  obtain ⟨none, -⟩ | ⟨out', total, s₁, measured, rfl, ⟨full, rfl⟩ | added⟩ := addAlignmentFill_cases filled
  · contradiction
  · obtain ⟨-, rfl⟩ := Prod.mk.inj (Option.some.inj (measured.symm.trans placed))
    exact congrArg (total + ·) full
  · obtain ⟨s₂, shown, rfl⟩ := Option.map_eq_some_iff.mp added
    obtain rfl := addC_eq shown
    simp only [Added.field, ConfigStructure.log, ConfigStructure.addTs, List.getLast?_append,
      List.getLast?_singleton, Option.some_or, Option.all_some, isAlignmentFill_alignmentFill,
      Bool.not_true, Bool.false_or] at bytes
    exact (filled_size recorded measured fits (of_decide_eq_true bytes) placed).symm

end Fill

section Run

variable {g g' : Generator} {line : DefinitionLine}

/-- A struct that ends is read as one of the structs that have ended. -/
theorem handleEndStruct_cases (ended : st.handleEndStruct = some (s, st')) :
    ∃ s₀ outer s₁, st.stack = s₀ :: outer ∧ s₀.addBitPadding = some s₁ ∧
      s₁.addAlignmentFill st 4 = some s ∧
      st' = { st with stack := outer, structures := s :: st.structures } := by
  unfold ReaderState.handleEndStruct at ended
  split at ended
  · contradiction
  · next s₀ outer reading =>
    simp only [Option.bind_eq_bind, Option.bind_eq_some_iff, Option.some.injEq, Prod.mk.injEq] at ended
    obtain ⟨s₁, padded, s₂, filled, rfl, rfl⟩ := ended
    exact ⟨s₀, outer, s₁, reading, padded, filled, rfl⟩

/-- A name that no finished struct uses is free for the struct that ends. -/
theorem sameSize_of_fresh {outer : List ConfigStructure} (apart : s.name ≠ type) :
    SameSize st { st with stack := outer, structures := s :: st.structures } type where
  struct := List.find?_cons_of_neg (by simp [apart])
  custom _ := rfl

theorem not_named_of_uses {r : ConfigStructure} (fresh : r.uses s.name = false)
    (used : r.uses type = true) : s.name ≠ type := by
  rintro rfl
  rw [used] at fresh
  contradiction

theorem bytes_congr (same : ∀ type, s.uses type = true → SameSize st st' type) :
    (s.declared.getLast?.all fun a =>
      !isAlignmentFill a.field.name || a.field.type ≠ "uint8_t" || st'.getElementSize a.field = some 1) =
    s.declared.getLast?.all fun a =>
      !isAlignmentFill a.field.name || a.field.type ≠ "uint8_t" || st.getElementSize a.field = some 1 := by
  cases last : s.declared.getLast? with
  | none => rfl
  | some a =>
    rw [Option.all_some, Option.all_some,
      getElementSize_congr (same _ (uses_of_mem (List.mem_of_getLast? last)))]

theorem printed_of_ended (recorded : st.Recorded) (ended : st.handleEndStruct = some (s, st'))
    (even : Generator.EndsEven s st') (print : BaseCHeaderConsumer.handleEndStruct st' s = some h) :
    Printed st' s st.structures h := by
  have own : s.Recorded := (recorded.handleEndStruct ended).1
  obtain ⟨s₀, outer, s₁, reading, padded, filled, rfl⟩ := handleEndStruct_cases ended
  have before : s₁.Recorded := by
    refine ConfigStructure.Recorded.addBitPadding ?_ padded
    exact recorded s₀ (by rw [reading]; exact List.mem_cons_self)
  have same : ∀ type, s.uses type = true →
      SameSize st { st with stack := outer, structures := s :: st.structures } type :=
    fun type used => sameSize_of_fresh (not_named_of_uses (even.fresh s List.mem_cons_self) used)
  obtain ⟨⟨fields, size⟩, placed, rfl⟩ := Option.map_eq_some_iff.mp print
  constructor
  · rfl
  · rfl
  · exact placed
  · refine addAlignmentFill_size before filled (fits_congr (fun type used => (same type used).symm) even.fits) ?_
      ((placeFields_congr own same).symm.trans placed)
    rw [← bytes_congr same]
    exact even.bytes
  · exact own
  · exact even.fits
  · exact fun type used => (same type used).struct

theorem allPrinted_of_ended (recorded : st.Recorded) (printed : AllPrinted st st.structures header)
    (ended : st.handleEndStruct = some (s, st')) (even : Generator.EndsEven s st')
    (print : BaseCHeaderConsumer.handleEndStruct st' s = some h) :
    st'.structures = s :: st.structures ∧ AllPrinted st' (s :: st.structures) (h :: header) := by
  have own := printed_of_ended recorded ended even print
  obtain ⟨s₀, outer, s₁, -, -, -, rfl⟩ := handleEndStruct_cases ended
  refine ⟨rfl, own, printed.congr ?_⟩
  intro r member type used
  exact sameSize_of_fresh (not_named_of_uses (even.fresh r (List.mem_cons_of_mem _ member)) used)

/-- The struct that was printed last, as the outermost one. -/
theorem run_shows {size : Nat} (printed : AllPrinted st (s :: earlier) (h :: header))
    (whole : st.structures = s :: earlier) (wrote : TsOutput.run st s = some (written, size)) :
    size = h.size ∧ Shows written (fieldMembers header (elementMembers header) "" 0 h.fields) := by
  obtain ⟨own, others⟩ := printed
  have deep : earlier.length ≤ st.structures.length := by
    rw [whole]
    exact Nat.le_succ _
  have shown := own.shows (fun type used => others.agrees deep (own.resolved type used)) wrote
  rwa [Nat.zero_add] at shown

theorem peek_cases {change : ConfigStructure → Option ConfigStructure}
    (changed : st.peek change = some st') :
    st'.structures = st.structures ∧ st'.tsCustomSize = st.tsCustomSize ∧ st'.stack ≠ [] := by
  unfold ReaderState.peek at changed
  split at changed
  · contradiction
  · obtain ⟨s, -, rfl⟩ := Option.map_eq_some_iff.mp changed
    exact ⟨rfl, rfl, List.cons_ne_nil _ _⟩

/-- What holds between two lines of a file that is even so far. -/
structure InAccord (g : Generator) : Prop where
  recorded : g.state.Recorded
  printed : AllPrinted g.state g.state.structures g.header
  oneMap : g.OneMap

namespace InAccord

theorem handleEndStruct (accord : InAccord g) (even : g.Even .endStruct)
    (ended : g.handleEndStruct = some g') : InAccord g' := by
  simp only [Generator.handleEndStruct, Option.bind_eq_bind, Option.bind_eq_some_iff] at ended
  obtain ⟨⟨s, st'⟩, read, h, print, ended⟩ := ended
  have recorded := (accord.recorded.handleEndStruct read).2
  obtain ⟨whole, printed⟩ :=
    allPrinted_of_ended accord.recorded accord.printed read (even _ read) print
  have all : AllPrinted st' st'.structures (h :: g.header) := by rwa [whole]
  split at ended
  · obtain ⟨⟨written, size⟩, wrote, same⟩ := Option.bind_eq_some_iff.mp ended
    obtain rfl := Option.some.inj same
    refine ⟨recorded, all, ?_⟩
    intro outermost h' earlier last
    obtain ⟨rfl, rfl⟩ := List.cons.inj last
    exact ⟨written, size, rfl, run_shows printed whole wrote⟩
  · next inside =>
    obtain rfl := Option.some.inj ended
    exact ⟨recorded, all, fun outermost => absurd outermost inside⟩

/-- A line inside a struct ends none. -/
theorem inside (accord : InAccord g) (recorded : st'.Recorded)
    (structures : st'.structures = g.state.structures) (sizes : st'.tsCustomSize = g.state.tsCustomSize)
    (inside : st'.stack ≠ []) : InAccord { g with state := st' } := by
  refine ⟨recorded, ?_, fun outermost => absurd outermost inside⟩
  rw [structures]
  refine accord.printed.congr fun s member type used => ⟨?_, fun _ => by rw [sizes]⟩
  rw [ReaderState.getStructure, ReaderState.getStructure, structures]

theorem custom (accord : InAccord g) {name : String} {customSize : Nat} {rest : TunerStudioLine}
    (even : g.Even (.custom name customSize rest)) : InAccord { g with state := { g.state with
      tsCustomSize := (name, customSize) :: g.state.tsCustomSize } } := by
  refine ⟨accord.recorded, accord.printed.congr ?_, accord.oneMap⟩
  intro s member type used
  refine ⟨rfl, fun noStruct => ?_⟩
  by_cases same : type = name
  · subst same
    rcases even s member used with struct | known
    · rw [noStruct] at struct
      contradiction
    · rw [known, List.lookup_cons, beq_self_eq_true]
  · rw [List.lookup_cons, beq_false_of_ne same]

theorem readLine (accord : InAccord g) (even : g.Even line) (read : g.readLine line = some g') :
    InAccord g' := by
  cases line with
  | endStruct => exact accord.handleEndStruct even read
  | struct name withPrefix =>
    obtain rfl := Option.some.inj read
    have recorded := @ReaderState.Recorded.readLine _ _ accord.recorded (.struct name withPrefix) rfl
    exact accord.inside recorded rfl rfl (List.cons_ne_nil _ _)
  | custom name customSize rest =>
    obtain rfl := Option.some.inj read
    exact accord.custom even
  | bit _ | field _ | directive =>
    obtain ⟨st', changed, rfl⟩ := Option.map_eq_some_iff.mp read
    obtain ⟨structures, sizes, inside⟩ := peek_cases changed
    exact accord.inside (accord.recorded.readLine changed) structures sizes inside

end InAccord

/-- In every file whose lines are even, each field is written where the C header has it. -/
theorem Generator.oneMap_of_even {lines : List DefinitionLine}
    (even : Machine.Supervised Generator.readLine Generator.Even {} lines)
    (ran : Machine.run Generator.readLine {} lines = some g) : g.OneMap := by
  have start : InAccord {} := ⟨by simp [ReaderState.Recorded], trivial, fun _ _ _ => nofun⟩
  have keeps : ∀ (g : Generator) line g', g.Even line → InAccord g → g.readLine line = some g' →
      InAccord g' := fun _ _ _ even accord read => accord.readLine even read
  exact (even.invariant keeps start ran).oneMap

/-- A struct with a conditional field and bits, twice in another one. -/
def engineFile : List DefinitionLine :=
  [.custom "pin_t" 1 (.string 1),
   .struct "injector_s" true, .directive, .field { name := "pin", type := "pin_t" }, .directive,
   .field { name := "pin", type := "uint8_t" }, .directive, .bit "inverted", .bit "enabled", .endStruct,
   .struct "engine_s" false, .field { name := "rpm", type := "uint16_t", arraySizes := [2, 2] },
   .field { name := "injectors", type := "injector_s", arraySizes := [2], isIterate := true },
   .field { name := "scale", type := "float" }, .endStruct]

theorem oneMap_engineFile :
    ∃ g, Machine.run Generator.readLine {} engineFile = some g ∧ g.OneMap := by
  have both : Machine.Supervised Generator.readLine Generator.Even {} engineFile ∧
      (Machine.run Generator.readLine {} engineFile).isSome = true := by decide +kernel
  obtain ⟨even, possible⟩ := both
  obtain ⟨g, ran⟩ := Option.isSome_iff_exists.mp possible
  exact ⟨g, ran, Generator.oneMap_of_even even ran⟩

/-- Four values of a custom type that are not iterated. -/
def pinsFile : List DefinitionLine :=
  [.custom "pin_t" 1 (.string 1), .struct "board_s" false,
   .field { name := "pins", type := "pin_t", arraySizes := [4] },
   .field { name := "after", type := "uint8_t" }, .endStruct]

/-- The struct has eight bytes, and the tuning software counts five. -/
theorem pins_counted_once :
    ¬ ∀ lines g, Machine.run Generator.readLine {} lines = some g → g.OneMap := by
  intro always
  have sizes : (Machine.run Generator.readLine {} pinsFile).map (fun g =>
      (g.state.stack, g.header.map HeaderStruct.size, g.tuning.map Prod.snd)) =
      some ([], [8], some 5) := by decide
  obtain ⟨g, ran, same⟩ := Option.map_eq_some_iff.mp sizes
  simp only [Prod.mk.injEq] at same
  obtain ⟨outermost, printed, counted⟩ := same
  obtain ⟨h, earlier, shown, large, -⟩ := List.map_eq_cons_iff.mp printed
  obtain ⟨written, size, wrote, equal, -⟩ := always pinsFile g ran outermost h earlier shown
  rw [wrote, Option.map_some, Option.some.injEq] at counted
  omega

end Run

end FomeFw.Config
