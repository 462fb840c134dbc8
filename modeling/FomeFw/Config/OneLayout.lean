import FomeFw.Config.Alongside

/-! In files whose lines both generators take the same way, every struct has one layout. -/
namespace FomeFw.Config
open NaturalAlignment

variable {st st' : ReaderState} {ps ps' : ParseState} {s s' : ConfigStructure} {fields : List Field}
  {outer : List ConfigStructure} {scope : Scope} {scopes : List Scope} {g g' : Generators}
  {line : DefinitionLine} {lines : List DefinitionLine} {align : Nat} {cFields : List ConfigField}

section Congruence

theorem Alongside.congr (same : ∀ cf ∈ cFields, SameSize st st' cf.type)
    (alongside : Alongside st align cFields fields) : Alongside st' align cFields fields := by
  intro placed total d measured laid
  have again : st'.placeFields cFields = st.placeFields cFields := place_congr same 0 0
  exact alongside placed total d (again ▸ measured) laid

/-- Reading goes on when types change that the struct has no field of. -/
theorem Reading.congr (same : ∀ cf ∈ s.cFields, SameSize st st' cf.type) (reading : Reading st s fields) :
    Reading st' s fields := by
  cases reading with
  | between between =>
    have again : st'.placeFields s.cFields = st.placeFields s.cFields := place_congr same 0 0
    exact .between { between with
      alongside := between.alongside.congr same
      word := by rw [again]; exact between.word }
  | inBits front names before inBits =>
    have front' : ∀ cf ∈ front, SameSize st st' cf.type := by
      intro cf member
      refine same cf ?_
      rw [inBits.cFields]
      exact List.mem_append_left _ member
    have again : st'.placeFields front = st.placeFields front := place_congr front' 0 0
    exact .inBits front names before { inBits with
      alongside := inBits.alongside.congr front'
      word := by rw [again]; exact inBits.word }
  | stuck stuck => exact .stuck stuck

theorem sameSize_of_stack (stack : List ConfigStructure) (type : String) :
    SameSize st { st with stack } type := ⟨rfl, fun _ => rfl⟩

end Congruence

section Run

def Scopes (st : ReaderState) : List ConfigStructure → List Scope → Prop :=
  List.Forall₂ fun s scope => s.name = scope.name ∧ Reading st s scope.structFields

theorem Scopes.congr (same : ∀ s ∈ outer, ∀ cf ∈ s.cFields, SameSize st st' cf.type)
    (open' : Scopes st outer scopes) : Scopes st' outer scopes := by
  induction open' with
  | nil => exact .nil
  | cons own _ ih =>
    obtain ⟨first, others⟩ := List.forall_mem_cons.mp same
    exact .cons ⟨own.1, own.2.congr first⟩ (ih others)

/-- What holds between two lines. -/
structure Accord (g : Generators) : Prop where
  types : SameTypes g.old g.new
  scopes : Scopes g.old g.old.stack g.new.scopes

theorem peek_eq {change : ConfigStructure → Option ConfigStructure} (changed : st.peek change = some st') :
    ∃ s outer s', st.stack = s :: outer ∧ change s = some s' ∧ st' = { st with stack := s' :: outer } := by
  unfold ReaderState.peek at changed
  split at changed
  · contradiction
  · next s outer reading =>
    obtain ⟨s', done, rfl⟩ := Option.map_eq_some_iff.mp changed
    exact ⟨s, outer, s', reading, done, rfl⟩

theorem inScope_eq {change : List Field → Option (List Field)} (changed : ps.inScope change = some ps') :
    ∃ scope outer structFields, ps.scopes = scope :: outer ∧
      change scope.structFields = some structFields ∧
      ps' = { ps with scopes := { scope with structFields } :: outer } := by
  unfold ParseState.inScope at changed
  split at changed
  · contradiction
  · next scope outer reading =>
    obtain ⟨structFields, done, rfl⟩ := Option.map_eq_some_iff.mp changed
    exact ⟨scope, outer, structFields, reading, done, rfl⟩

namespace Accord

theorem types_of_stack (accord : Accord g) (stack : List ConfigStructure) (scopes : List Scope) :
    SameTypes { g.old with stack } { g.new with scopes } := ⟨accord.types.structs, accord.types.customs⟩

theorem inside {structFields : List Field} (accord : Accord g) (reading : g.old.stack = s :: outer)
    (parsing : g.new.scopes = scope :: scopes) (name : s'.name = s.name)
    (now : Reading g.old s' structFields) : Accord ⟨{ g.old with stack := s' :: outer },
      { g.new with scopes := { scope with structFields } :: scopes }⟩ := by
  have open' := accord.scopes
  rw [reading, parsing] at open'
  obtain ⟨own, others⟩ := List.forall₂_cons.mp open'
  refine ⟨accord.types_of_stack _ _, .cons ⟨name.trans own.1, ?_⟩ ?_⟩
  · exact now.congr fun cf _ => sameSize_of_stack _ cf.type
  · exact Scopes.congr (fun s _ cf _ => sameSize_of_stack _ cf.type) others

theorem reading (accord : Accord g) (reading : g.old.stack = s :: outer)
    (parsing : g.new.scopes = scope :: scopes) : Reading g.old s scope.structFields := by
  have open' := accord.scopes
  rw [reading, parsing] at open'
  exact (List.forall₂_cons.mp open').1.2

theorem bit {name : String} {old : ReaderState} {new : ParseState} (accord : Accord g)
    (alike : g.Alike (.bit name)) (read : g.old.readLine (.bit name) = some old)
    (parsed : g.new.readLine (.bit name) = some new) : Accord ⟨old, new⟩ := by
  obtain ⟨s, outer, s', reading, changed, rfl⟩ := peek_eq read
  rw [ParseState.readLine] at parsed
  obtain ⟨scope, scopes, structFields, parsing, entered, rfl⟩ := inScope_eq parsed
  obtain rfl := Option.some.inj entered
  obtain ⟨-, own, other⟩ := alike
  obtain ⟨more, grown⟩ := handleBitLine_longer changed
  have first : s ∈ g.old.stack.head? := by
    rw [reading]
    rfl
  refine accord.inside reading parsing grown.name ?_
  exact (accord.reading reading parsing).handleBitLine accord.types own (other s first) changed

theorem field {cf : ConfigField} {old : ReaderState} {new : ParseState} (accord : Accord g)
    (alike : g.Alike (.field cf)) (read : g.old.readLine (.field cf) = some old)
    (parsed : g.new.readLine (.field cf) = some new) : Accord ⟨old, new⟩ := by
  obtain ⟨s, outer, s', reading, changed, rfl⟩ := peek_eq read
  rw [ParseState.readLine] at parsed
  obtain ⟨scope, scopes, structFields, parsing, entered, rfl⟩ := inScope_eq parsed
  obtain ⟨f, made, rfl⟩ := Option.map_eq_some_iff.mp entered
  obtain ⟨s₁, padded, processed⟩ := Option.bind_eq_some_iff.mp changed
  obtain ⟨⟨named, own, other⟩, fits⟩ := alike
  have first : s ∈ g.old.stack.head? := by
    rw [reading]
    rfl
  obtain ⟨more, grown⟩ := (addBitPadding_longer padded).trans (processField_longer processed)
  refine accord.inside reading parsing grown.name ?_
  exact (accord.reading reading parsing).field accord.types made named own (other s first) padded
    (fun size string => fits size string s first s₁ padded) processed

theorem directive {old : ReaderState} (accord : Accord g)
    (read : g.old.readLine .directive = some old) : Accord ⟨old, g.new⟩ := by
  obtain ⟨s, outer, s', reading, changed, rfl⟩ := peek_eq read
  obtain ⟨s₁, padded, processed⟩ := Option.bind_eq_some_iff.mp changed
  obtain ⟨more, grown⟩ := (addBitPadding_longer padded).trans (processField_longer processed)
  have open' := accord.scopes
  rw [reading] at open'
  obtain ⟨scope, scopes, own, others, parsing⟩ := List.forall₂_cons_left_iff.mp open'
  have now := own.2.directive accord.types padded processed
  have all := accord.inside reading parsing grown.name now
  rw [← parsing] at all
  exact all

theorem struct {name : String} {withPrefix : Bool} (accord : Accord g) : Accord
    ⟨{ g.old with stack := { name, withPrefix } :: g.old.stack },
      { g.new with scopes := { name, noPrefix := !withPrefix } :: g.new.scopes }⟩ := by
  refine ⟨accord.types_of_stack _ _, .cons ⟨rfl, .between ?_⟩ ?_⟩
  · refine ⟨rfl, ?_, rfl, nofun, by simp, rfl⟩
    intro placed total d measured laid
    obtain ⟨rfl, rfl⟩ := Prod.mk.inj (Option.some.inj measured)
    obtain rfl := Option.some.inj laid
    exact ⟨rfl, rfl⟩
  · exact accord.scopes.congr fun s _ cf _ => sameSize_of_stack _ cf.type

theorem custom {name : String} {customSize : Nat} {rest : TunerStudioLine} {typedef : Typedef}
    (accord : Accord g) (alike : g.Alike (.custom name customSize rest)) (known : rest.typedef = some typedef) : Accord
      ⟨{ g.old with tsCustomSize := (name, customSize) :: g.old.tsCustomSize },
        { g.new with typedefs := (name, typedef) :: g.new.typedefs }⟩ := by
  obtain ⟨ordinary, keeps, sizes⟩ := alike
  have kept : ∀ s ∈ g.old.stack, ∀ cf ∈ s.cFields, SameSize g.old
      { g.old with tsCustomSize := (name, customSize) :: g.old.tsCustomSize } cf.type := by
    intro s open' cf member
    refine ⟨rfl, fun noStruct => ?_⟩
    by_cases same : cf.type = name
    · have used : s.hasFieldOf name = true := List.any_eq_true.mpr ⟨cf, member, decide_eq_true same⟩
      rw [same] at noStruct ⊢
      rcases keeps s open' used with struct | size
      · rw [noStruct] at struct
        contradiction
      · rw [size, List.lookup_cons_self]
    · rw [List.lookup_cons, beq_false_of_ne same]
  have customs : List.Forall₂ SameCustom ((name, customSize) :: g.old.tsCustomSize)
      ((name, typedef) :: g.new.typedefs) :=
    .cons ⟨rfl, ordinary, (sizes typedef known).symm⟩ accord.types.customs
  exact ⟨⟨accord.types.structs, customs⟩, accord.scopes.congr kept⟩

theorem not_type_of_fresh {type : String} (fresh : s.hasFieldOf type = false) {cf : ConfigField}
    (member : cf ∈ s.cFields) : type ≠ cf.type := by
  rintro rfl
  have used : s.hasFieldOf cf.type = true := List.any_eq_true.mpr ⟨cf, member, decide_eq_true rfl⟩
  rw [used] at fresh
  contradiction

/-- A struct ends in both, with one layout. -/
theorem endStruct {old : ReaderState} {new : ParseState} (accord : Accord g) (alike : g.Alike .endStruct)
    (read : g.old.readLine .endStruct = some old) (parsed : g.new.readLine .endStruct = some new) :
    Accord ⟨old, new⟩ ∧ ∃ s earlier t earlier', old.structures = s :: earlier ∧ new.structs = t :: earlier' ∧
      SameLayout old s t := by
  obtain ⟨⟨s, st'⟩, ended, rfl⟩ := Option.map_eq_some_iff.mp read
  obtain ⟨ordinary, fresh⟩ := alike _ ended
  obtain ⟨s₀, outer, s₁, reading, padded, filled, rfl⟩ := handleEndStruct_cases ended
  have open' := accord.scopes
  rw [reading] at open'
  obtain ⟨scope, scopes, own, others, parsing⟩ := List.forall₂_cons_left_iff.mp open'
  rw [ParseState.readLine, ParseState.exitStruct, parsing] at parsed
  obtain rfl := Option.some.inj parsed
  obtain ⟨placed, measured, layout⟩ := own.2.endStruct accord.types padded filled
  obtain ⟨more, grown⟩ := (addBitPadding_longer padded).trans (addAlignmentFill_longer filled)
  obtain ⟨own', others'⟩ := List.forall_mem_cons.mp fresh
  have same : SameLayout { g.old with stack := outer, structures := s :: g.old.structures } s
      ⟨scope.name, scope.noPrefix, scope.structFields⟩ := by
    refine ⟨grown.name.trans own.1, placed, ?_, fun sl laid => ?_⟩
    · refine Eq.trans (place_congr (fun cf member => ?_) 0 0) measured
      exact sameSize_of_fresh (not_type_of_fresh own' member)
    · obtain ⟨d, built, rfl⟩ := Option.map_eq_some_iff.mp laid
      obtain ⟨total, offsets⟩ := layout d built
      have padded := @fieldOffsets_padOffsetWithUnused 0 d 4 (Nat.succ_pos 3)
      rw [offsets, ← padded, total]
      constructor
      · simp only [Draft.close, padOffsetWithUnused_eq (Nat.succ_pos 3), Layout.getSize, Nat.sub_zero]
      · rfl
  refine ⟨⟨⟨.cons ⟨same.name, ordinary, ?_⟩ accord.types.structs, accord.types.customs⟩, ?_⟩,
    s, _, _, _, rfl, rfl, same⟩
  · obtain ⟨_, -, sizes⟩ := same.placed
    exact fun sl laid => (sizes sl laid).1
  · refine Scopes.congr (fun r open' cf member => ?_) others
    exact sameSize_of_fresh (not_type_of_fresh (others' r open') member)

theorem readLine (accord : Accord g) (alike : g.Alike line) (read : g.readLine line = some g') :
    Accord g' := by
  obtain ⟨old, taken, next⟩ := Option.bind_eq_some_iff.mp read
  obtain ⟨new, parsed, same⟩ := Option.bind_eq_some_iff.mp next
  obtain rfl := Option.some.inj same
  cases line with
  | struct name withPrefix =>
    obtain rfl := Option.some.inj taken
    obtain rfl := Option.some.inj parsed
    exact accord.struct
  | endStruct => exact (accord.endStruct alike taken parsed).1
  | bit name => exact accord.bit alike taken parsed
  | custom name customSize rest =>
    obtain rfl := Option.some.inj taken
    obtain ⟨typedef, known, rfl⟩ := Option.map_eq_some_iff.mp parsed
    exact accord.custom alike known
  | field cf => exact accord.field alike taken parsed
  | directive =>
    obtain rfl := Option.some.inj parsed
    exact accord.directive taken

theorem endsAlike (accord : Accord g) (alike : g.Alike line) : g.EndsAlike line := by
  rintro rfl g' read
  obtain ⟨old, taken, next⟩ := Option.bind_eq_some_iff.mp read
  obtain ⟨new, parsed, same⟩ := Option.bind_eq_some_iff.mp next
  obtain rfl := Option.some.inj same
  exact (accord.endStruct alike taken parsed).2

end Accord

end Run

section Files

/-- In every file whose lines both take the same way, every struct has one layout. -/
theorem Generators.oneLayout_of_alike (alike : Machine.Supervised readLine Alike {} lines) :
    OneLayout lines := by
  have start : Accord {} := ⟨⟨.nil, .nil⟩, .nil⟩
  refine alike.imp ?_ ?_ start
  · exact fun _ _ alike accord => accord.endsAlike alike
  · exact fun _ _ _ alike accord read => accord.readLine alike read

/-- All kinds of fields, and a string at a multiple of 4. -/
def boardFile : List DefinitionLine :=
  [.custom "pin_t" 2 (.bits .U16 5 ["NONE", "PA0"]), .custom "name_t" 12 (.string 12),
   .custom "level_t" 4 (.scalar .F32),
   .struct "output_s" true, .bit "inverted", .bit "enabled", .field { name := "pin", type := "pin_t" },
   .directive, .field { name := "duty", type := "uint8_t" }, .directive, .endStruct,
   .struct "board_s" false, .field { name := "gear", type := "int8_t" },
   .field { name := "rpm", type := "uint16_t", arraySizes := [2, 3] },
   .field { name := "main", type := "output_s" },
   .field { name := "outputs", type := "output_s", arraySizes := [2], isIterate := true },
   .field { name := "label", type := "name_t" },
   .field { name := "levels", type := "level_t", arraySizes := [3] }, .bit "ready", .endStruct]

theorem oneLayout_boardFile : (Machine.run Generators.readLine {} boardFile).isSome = true ∧
    Generators.OneLayout boardFile := by
  -- in this order the kernel reads the file once
  have both : Machine.Supervised Generators.readLine Generators.Alike {} boardFile ∧
      (Machine.run Generators.readLine {} boardFile).isSome = true := by decide +kernel
  exact ⟨both.2, Generators.oneLayout_of_alike both.1⟩

/-- The latest struct in both. -/
def Generators.sizesApart (g : Generators) : Bool :=
  match g.old.structures.head?, g.new.structs.head?.bind (structLayout 0 "root") with
  | some s, some sl => sl.getSize ≠ s.totalSize
  | _, _ => false

theorem not_oneLayout_of_sizesApart
    (ran : Machine.run Generators.readLine {} (lines ++ [.endStruct]) = some g)
    (apart : g.sizesApart = true) : ¬Generators.OneLayout (lines ++ [.endStruct]) := by
  intro one
  obtain ⟨g₀, before, last⟩ := Option.bind_eq_some_iff.mp (List.foldlM_append.symm.trans ran)
  obtain ⟨g₁, ended, same⟩ := Option.bind_eq_some_iff.mp last
  obtain rfl := Option.some.inj same
  obtain ⟨s, earlier, t, earlier', old, new, -, placed, -, sizes⟩ :=
    Machine.Supervised.last one before rfl g₁ ended
  rw [Generators.sizesApart, old, new] at apart
  cases laid : structLayout 0 "root" t with
  | none => simp [laid] at apart
  | some sl => simp [laid, (sizes sl laid).1] at apart

/-- Up to the end of the struct. -/
def differing : List (List DefinitionLine) :=
  [
   -- a string behind one byte
   [.custom "name_t" 4 (.string 4), .struct "s" true, .field { name := "a", type := "uint8_t" },
    .field { name := "b", type := "name_t" }, .field { name := "c", type := "uint8_t" }],
   -- a size that is not that of the values
   [.custom "level_t" 8 (.scalar .U08), .struct "s" true, .field { name := "a", type := "level_t" }],
   -- a name twice
   [.struct "s" true, .field { name := "a", type := "uint32_t" }, .field { name := "a", type := "uint32_t" }],
   -- the name of what would fill up
   [.struct "s" true, .field { name := "a", type := "uint8_t" },
    .field { name := "alignmentFill_at_2", type := "uint8_t" }, .field { name := "b", type := "uint32_t" },
    .field { name := "c", type := "uint16_t" }],
   -- a type with the name of a basic one
   [.custom "uint8_t" 8 (.string 8), .struct "s" true, .field { name := "a", type := "uint16_t" },
    .field { name := "b", type := "uint32_t" }],
   -- a type that gets another size behind its field
   [.custom "level_t" 4 (.scalar .U32), .struct "s" true, .field { name := "a", type := "level_t" },
    .custom "level_t" 1 (.scalar .U08), .field { name := "b", type := "uint8_t" }],
   -- a struct that takes the name of such a type
   [.custom "level_t" 4 (.scalar .U32), .struct "s" true, .field { name := "a", type := "level_t" },
    .struct "level_t" true, .field { name := "b", type := "uint32_t", arraySizes := [2] }, .endStruct]]

/-- Files that both accept. -/
theorem differing_layouts : differing.Forall fun lines => ∃ g,
    Machine.run Generators.readLine {} (lines ++ [.endStruct]) = some g ∧ g.old.stack = [] ∧
      ¬Generators.OneLayout (lines ++ [.endStruct]) := by
  have apart : ∀ lines ∈ differing, (Machine.run Generators.readLine {} (lines ++ [.endStruct])).map
      (fun g => (g.old.stack, g.sizesApart)) = some ([], true) := by decide +kernel
  rw [List.forall_iff_forall_mem]
  intro lines member
  obtain ⟨g, ran, same⟩ := Option.map_eq_some_iff.mp (apart lines member)
  obtain ⟨outermost, differ⟩ := Prod.mk.inj same
  exact ⟨g, ran, outermost, not_oneLayout_of_sizesApart ran differ⟩

end Files

end FomeFw.Config
