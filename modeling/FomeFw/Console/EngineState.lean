import FomeFw.Lib.Java
import Mathlib

/-! `ResponseBuffer.java` and `EngineState.java`: the console gathers text from the controller, cuts
it into lines, and hands what stands behind a key to whoever asked for the key. -/
namespace FomeFw.Console

namespace ResponseBuffer

def isEol (c : Char) : Bool := c == '\r' || c == '\n'

/-- The smaller of the two positions; if only one character is there, that one's. -/
def endOfLine (pending : Text) : Option Nat :=
  match pending.findIdx? (· == '\r'), pending.findIdx? (· == '\n') with
  | some cr, some lf => some (min cr lf)
  | some cr, none => some cr
  | none, lf => lf

/-- The loop of `append`: the lines for the listener, and what is still pending. There are no more
rounds than characters. -/
def rounds : Nat → Text → List Text × Text
  | 0, pending => ([], pending)
  | n + 1, pending =>
    match endOfLine pending with
    | none => ([], pending)
    | some endOfLine =>
      let fullLine := if endOfLine > 0 then [pending.take endOfLine] else []
      let (lines, pending) := rounds n ((pending.drop endOfLine).dropWhile isEol)
      (fullLine ++ lines, pending)

def append (pending text : Text) : List Text × Text := rounds (pending ++ text).length (pending ++ text)

end ResponseBuffer

namespace EngineState

/-- `Fields.LOG_DELIMITER`. -/
abbrev fieldsLogDelimiter : Char := Char.ofNat 0x60

/-- `END_OF_TIMESTAND_TAG`. -/
def endOfTimestampTag : Text := ['<', 'E', 'O', 'T', '>', ':', ' ']

/-- `String.indexOf`. -/
def indexOf (pattern : Text) : Text → Option Nat
  | [] => if pattern = [] then some 0 else none
  | c :: text => if pattern.isPrefixOf (c :: text) then some 0 else (indexOf pattern text).map (· + 1)

def startWithIgnoreCase (line start : Text) : Bool :=
  start.length ≤ line.length && (line.zip start).all fun (lineChar, c) => lineChar.toLower == c

/-- The text that a `StringActionPair` looks for. -/
def startOf (key : Text) : Text := key.map Char.toLower ++ [fieldsLogDelimiter]

/-- The value for the action, and the unused part of the response. -/
def handleStringActionPair (response key : Text) : Option Text × Text :=
  if startWithIgnoreCase response (startOf key) then
    let response := response.drop (key.length + 1)
    (some (response.takeWhile (· != fieldsLogDelimiter)), (response.dropWhile (· != fieldsLogDelimiter)).drop 1)
  else (none, response)

/-- The actions one after the other, each with what the ones before it have left. -/
def handleActions : List Text → Text → List (Text × Text) × Text
  | [], response => ([], response)
  | key :: actions, response =>
    let (value, response) := handleStringActionPair response key
    let (delivered, response) := handleActions actions response
    ((value.map (key, ·)).toList ++ delivered, response)

/-- What is behind an unknown key and its value; a line without them is discarded. -/
def skipUnknown (response : Text) : Text :=
  match response.findIdx? (· == fieldsLogDelimiter) with
  | none => []
  | some keyEnd =>
    match (response.drop (keyEnd + 1)).findIdx? (· == fieldsLogDelimiter) with
    | none => []
    | some valueEnd => response.drop (keyEnd + 1 + valueEnd + 1)

def handleResponse (actions : List Text) (originalResponse : Text) : List (Text × Text) × Text :=
  let (delivered, response) := handleActions actions originalResponse
  if originalResponse.length = response.length then (delivered, skipUnknown response)
  else (delivered, response)

/-- `while (!response.isEmpty())`, with no more rounds than characters. -/
def handleAll (actions : List Text) : Nat → Text → List (Text × Text)
  | 0, _ => []
  | n + 1, response =>
    if response.isEmpty then []
    else
      let (delivered, response) := handleResponse actions response
      delivered ++ handleAll actions n response

/-- The listener of the buffer. -/
def onResponse (actions : List Text) (response : Text) : List (Text × Text) :=
  let response :=
    match indexOf endOfTimestampTag response with
    | some i => response.drop (i + endOfTimestampTag.length)
    | none => response
  handleAll actions response.length response

/-- `String.CASE_INSENSITIVE_ORDER` holds the keys for equal. -/
def sameKey (key key' : Text) : Bool := key.map Char.toLower == key'.map Char.toLower

/-- The actions by their keys in the order of registration, and the set of the keys. -/
structure Registry where
  actions : List Text := []
  keys : List Text := []

/-- `none`: "Already registered". -/
def registerStringValueAction (r : Registry) (key : Text) : Option Registry :=
  if r.keys.any (sameKey key) then none
  else some { actions := r.actions ++ [key], keys := key :: r.keys }

/-- The set compares without case, the search in the actions with it. -/
def removeAction (r : Registry) (key : Text) : Registry :=
  { actions := r.actions.erase key, keys := r.keys.filter (!sameKey key ·) }

def replaceStringValueAction (r : Registry) (key : Text) : Option Registry :=
  registerStringValueAction (removeAction r key) key

/-- What was delivered so far, and what is pending. -/
structure State where
  delivered : List (Text × Text) := []
  pending : Text := []

def processNewData (actions : List Text) (s : State) (text : Text) : State :=
  let (lines, pending) := ResponseBuffer.append s.pending text
  { delivered := s.delivered ++ lines.flatMap (onResponse actions), pending }

end EngineState

section Lines

open ResponseBuffer

variable {text front back pending : Text} {c : Char} {n : Nat}

/-- The lines that are complete, and the rest. -/
def linesOf (text : Text) : List Text × Text :=
  ((text.splitOnP isEol).dropLast.filter (· ≠ []), (text.splitOnP isEol).getLastD [])

theorem linesOf_none (none : ∀ c ∈ text, isEol c = false) : linesOf text = ([], text) := by
  rw [linesOf, List.splitOnP_eq_singleton none]
  rfl

theorem linesOf_line (none : ∀ c ∈ front, isEol c = false) (eol : isEol c = true) :
    linesOf (front ++ c :: back) =
      ((if front ≠ [] then [front] else []) ++ (linesOf back).1, (linesOf back).2) := by
  obtain ⟨first, lines, split⟩ := List.exists_cons_of_ne_nil (List.splitOnP_ne_nil isEol back)
  rw [linesOf, List.splitOnP_append_cons_of_forall_mem none c eol, linesOf, split]
  by_cases empty : front = [] <;> simp [empty]

theorem linesOf_dropWhile : linesOf (text.dropWhile isEol) = linesOf text := by
  induction text with
  | nil => rfl
  | cons c text ih =>
    by_cases eol : isEol c = true
    · rw [List.dropWhile_cons_of_pos eol, ih]
      exact (@linesOf_line [] text c (by simp) eol).symm
    · rw [List.dropWhile_cons_of_neg eol]

/-- A text without an end of line, or what is before and behind the first. -/
theorem first_eol (text : Text) : (∀ c ∈ text, isEol c = false) ∨
    ∃ front c back, text = front ++ c :: back ∧ (∀ c ∈ front, isEol c = false) ∧ isEol c = true := by
  induction text with
  | nil => exact .inl (by simp)
  | cons c text ih =>
    by_cases eol : isEol c = true
    · exact .inr ⟨[], c, text, rfl, by simp, eol⟩
    · rcases ih with none | ⟨front, c', back, rfl, none, eol'⟩
      · exact .inl (List.forall_mem_cons.mpr ⟨Bool.not_eq_true _ ▸ eol, none⟩)
      · exact .inr ⟨c :: front, c', back, rfl,
          List.forall_mem_cons.mpr ⟨Bool.not_eq_true _ ▸ eol, none⟩, eol'⟩

theorem endOfLine_eq (text : Text) : endOfLine text = text.findIdx? isEol := by
  induction text with
  | nil => rfl
  | cons c text ih =>
    rw [endOfLine] at ih
    simp only [endOfLine, List.findIdx?_cons, ← ih, isEol]
    by_cases cr : c = '\r'
    · subst cr
      cases text.findIdx? (· == '\n') <;> simp
    by_cases lf : c = '\n'
    · subst lf
      cases text.findIdx? (· == '\r') <;> simp
    · cases text.findIdx? (· == '\r') <;> cases text.findIdx? (· == '\n') <;> simp [cr, lf]

theorem endOfLine_line (none : ∀ c ∈ front, isEol c = false) (eol : isEol c = true) :
    endOfLine (front ++ c :: back) = some front.length := by
  rw [endOfLine_eq, List.findIdx?_append, List.findIdx?_eq_none_iff.mpr none, List.findIdx?_cons, eol]
  simp

theorem rounds_eq (enough : text.length ≤ n) : rounds n text = linesOf text := by
  induction n generalizing text with
  | zero =>
    obtain rfl := List.eq_nil_of_length_eq_zero (Nat.le_zero.mp enough)
    rfl
  | succ n ih =>
    rw [rounds]
    rcases first_eol text with none | ⟨front, c, back, rfl, none, eol⟩
    · rw [endOfLine_eq, List.findIdx?_eq_none_iff.mpr none, linesOf_none none]
    · have rest : ((c :: back).dropWhile isEol).length ≤ n := by
        have shorter : (back.dropWhile isEol).length ≤ back.length :=
          (List.dropWhile_sublist isEol).length_le
        rw [List.dropWhile_cons_of_pos eol]
        simp only [List.length_append, List.length_cons] at enough
        omega
      rw [endOfLine_line none eol]
      dsimp only
      have behind : linesOf (c :: back) = linesOf back := @linesOf_line [] back c (by simp) eol
      rw [List.take_left, List.drop_left, ih rest, linesOf_dropWhile, linesOf_line none eol, behind]
      cases front <;> simp

theorem linesOf_rest (text : Text) : ∀ c ∈ (linesOf text).2, isEol c = false := by
  induction size : text.length using Nat.strong_induction_on generalizing text with
  | _ size' ih =>
    rcases first_eol text with none | ⟨front, c, back, rfl, none, eol⟩
    · rw [linesOf_none none]
      exact none
    · have shorter : back.length < size' := by
        rw [← size, List.length_append, List.length_cons]
        omega
      rw [linesOf_line none eol]
      exact ih back.length shorter back rfl

/-- A text that comes in two parts. -/
theorem linesOf_append (text more : Text) : linesOf (text ++ more) =
    ((linesOf text).1 ++ (linesOf ((linesOf text).2 ++ more)).1, (linesOf ((linesOf text).2 ++ more)).2) := by
  induction size : text.length using Nat.strong_induction_on generalizing text with
  | _ size' ih =>
    rcases first_eol text with none | ⟨front, c, back, rfl, none, eol⟩
    · rw [linesOf_none none]
      rfl
    · have shorter : back.length < size' := by
        rw [← size, List.length_append, List.length_cons]
        omega
      rw [List.append_assoc, List.cons_append, linesOf_line none eol, linesOf_line none eol,
        ih back.length shorter back rfl, List.append_assoc]

end Lines

section Keys

open EngineState

variable {actions : List Text} {key value back response : Text} {n : Nat}
  {segments : List (Text × Text)}

/-- A key and what is behind it. -/
def segment (s : Text × Text) : Text := s.1 ++ fieldsLogDelimiter :: (s.2 ++ [fieldsLogDelimiter])

/-- The keys that somebody asked for; they differ in more than their case. -/
structure Registered (actions : List Text) : Prop where
  plain : ∀ key ∈ actions, fieldsLogDelimiter ∉ key
  distinct : (actions.map (·.map Char.toLower)).Nodup

def Plain (s : Text × Text) : Prop := fieldsLogDelimiter ∉ s.1 ∧ fieldsLogDelimiter ∉ s.2

instance (s : Text × Text) : Decidable (Plain s) := inferInstanceAs (Decidable (_ ∧ _))

/-- What a segment comes to: its value for the action with its key. -/
def delivery (actions : List Text) (s : Text × Text) : Option (Text × Text) :=
  (actions.find? (sameKey · s.1)).map (·, s.2)

theorem startWithIgnoreCase_iff {line start : Text} :
    startWithIgnoreCase line start = true ↔ start <+: line.map Char.toLower := by
  induction start generalizing line with
  | nil => simp [startWithIgnoreCase]
  | cons c start ih =>
    cases line with
    | nil => simp [startWithIgnoreCase]
    | cons lineChar line =>
      rw [List.map_cons, List.cons_prefix_cons, ← ih]
      simp only [startWithIgnoreCase, List.length_cons, List.zip_cons_cons, List.all_cons,
        Bool.and_eq_true, decide_eq_true_eq, beq_iff_eq, Nat.add_le_add_iff_right]
      constructor
      · rintro ⟨long, same, rest⟩
        exact ⟨same.symm, long, rest⟩
      · rintro ⟨same, long, rest⟩
        exact ⟨long, same.symm, rest⟩

/-- What ends at the first delimiter. -/
theorem prefix_delimiter {front : Text} {d : Char} (none : d ∉ key) (none' : d ∉ front) :
    key ++ [d] <+: front ++ d :: back ↔ key = front := by
  induction key generalizing front with
  | nil =>
    cases front with
    | nil => simp
    | cons c front =>
      have other : d ≠ c := fun same => none' (same ▸ List.mem_cons_self)
      simp [other]
  | cons c key ih =>
    cases front with
    | nil =>
      have other : c ≠ d := fun same => none (same ▸ List.mem_cons_self)
      simp [other]
    | cons c' front =>
      rw [List.cons_append, List.cons_append, List.cons_prefix_cons, List.cons.injEq,
        ih (fun member => none (List.mem_cons_of_mem _ member))
          (fun member => none' (List.mem_cons_of_mem _ member))]

theorem toLower_delimiter {c : Char} : c.toLower = fieldsLogDelimiter ↔ c = fieldsLogDelimiter := by
  constructor
  · intro lower
    by_cases upper : c.isUpper = true
    · have bounds : 65 ≤ c.toNat ∧ c.toNat ≤ 90 := by
        simpa [Char.isUpper, UInt32.le_iff_toNat_le, ← Char.toNat_val] using upper
      have place : (Char.ofNat (c.toNat + 32)).toNat = fieldsLogDelimiter.toNat := by
        rw [← lower, Char.toLower_eq_of_isUpper upper]
      rw [Char.toNat_ofNat, if_pos (.inl (by omega)), show fieldsLogDelimiter.toNat = 96 from rfl] at place
      omega
    · rwa [Char.toLower_eq_of_not_isUpper upper] at lower
  · rintro rfl
    decide

theorem startWith_segment (plain : fieldsLogDelimiter ∉ key) (own : fieldsLogDelimiter ∉ (s : Text × Text).1) :
    startWithIgnoreCase (segment s ++ back) (startOf key) = sameKey key s.1 := by
  have lower {text : Text} (plain : fieldsLogDelimiter ∉ text) :
      fieldsLogDelimiter ∉ text.map Char.toLower := by
    intro member
    obtain ⟨c, inside, same⟩ := List.mem_map.mp member
    exact plain (toLower_delimiter.mp same ▸ inside)
  rw [Bool.eq_iff_iff, startWithIgnoreCase_iff, sameKey, beq_iff_eq,
    ← prefix_delimiter (lower plain) (lower own), startOf, segment]
  simp only [List.map_append, List.map_cons, List.append_assoc, List.cons_append]
  rw [toLower_delimiter.mpr rfl]

theorem length_segment (s : Text × Text) : 2 ≤ (segment s).length := by
  simp only [segment, List.length_append, List.length_cons]
  omega

theorem sameKey_length (same : sameKey key back = true) : key.length = back.length := by
  simpa [sameKey] using congrArg List.length (beq_iff_eq.mp same)

/-- A pair takes a segment with its key, and no other. -/
theorem handleStringActionPair_segment (plain : fieldsLogDelimiter ∉ key) {s : Text × Text} (own : Plain s) :
    handleStringActionPair (segment s ++ back) key =
      if sameKey key s.1 then (some s.2, back) else (none, segment s ++ back) := by
  rw [handleStringActionPair, startWith_segment plain own.1]
  by_cases same : sameKey key s.1 = true
  · have value : (segment s ++ back).drop (key.length + 1) = s.2 ++ fieldsLogDelimiter :: back := by
      have front : segment s ++ back =
          (s.1 ++ [fieldsLogDelimiter]) ++ (s.2 ++ fieldsLogDelimiter :: back) := by
        simp [segment]
      rw [front, sameKey_length same]
      exact List.drop_left' (by simp)
    have inside : ∀ c ∈ s.2, (c != fieldsLogDelimiter) = true := by
      intro c member
      exact bne_iff_ne.mpr fun here => own.2 (here ▸ member)
    rw [if_pos same, if_pos same]
    simp only [value]
    rw [List.takeWhile_append_of_pos inside, List.dropWhile_append_of_pos inside]
    simp
  · rw [if_neg same, if_neg same]

theorem find_sameKey (registered : Registered actions) (member : key ∈ actions) {s : Text × Text}
    (same : sameKey key s.1 = true) : delivery actions s = some (key, s.2) := by
  obtain ⟨found, here⟩ : ∃ found, actions.find? (sameKey · s.1) = some found :=
    Option.isSome_iff_exists.mp (List.find?_isSome.mpr ⟨key, member, same⟩)
  have isSame : sameKey found s.1 = true := @List.find?_some _ (sameKey · s.1) _ _ here
  have equal : found.map Char.toLower = key.map Char.toLower :=
    (beq_iff_eq.mp isSame).trans (beq_iff_eq.mp same).symm
  have found_eq := List.inj_on_of_nodup_map registered.distinct (List.mem_of_find?_eq_some here) member equal
  rw [delivery, here, found_eq]
  rfl

/-- A pass over the actions takes segments from the front, among them the first if its key is there. -/
theorem handleActions_segments {pass : List Text} (registered : Registered actions)
    (known : ∀ key ∈ pass, key ∈ actions) (own : ∀ s ∈ segments, Plain s) :
    ∃ taken rest, segments = taken ++ rest ∧
      handleActions pass (segments.flatMap segment) =
        (taken.filterMap (delivery actions), rest.flatMap segment) ∧
      ∀ s segments', segments = s :: segments' → (∃ key ∈ pass, sameKey key s.1 = true) → taken ≠ [] := by
  induction pass generalizing segments with
  | nil => exact ⟨[], segments, rfl, rfl, by simp⟩
  | cons key pass ih =>
    have others := fun key' member => known key' (List.mem_cons_of_mem key member)
    have plain := registered.plain key (known key List.mem_cons_self)
    rw [handleActions]
    cases segments with
    | nil =>
      obtain ⟨taken, rest, split, passed, -⟩ := ih others own
      have nothing : handleStringActionPair ([].flatMap segment) key = (none, []) := by
        simp [handleStringActionPair, startWithIgnoreCase, startOf]
      rw [List.flatMap_nil] at passed nothing ⊢
      simp only [nothing, passed]
      exact ⟨taken, rest, split, rfl, by simp⟩
    | cons s segments =>
      have behind := fun s' member => own s' (List.mem_cons_of_mem s member)
      rw [List.flatMap_cons, handleStringActionPair_segment plain (own s List.mem_cons_self)]
      by_cases same : sameKey key s.1 = true
      · obtain ⟨taken, rest, rfl, passed, -⟩ := ih others behind
        have delivered := find_sameKey registered (known key List.mem_cons_self) same
        refine ⟨s :: taken, rest, rfl, ?_, by simp⟩
        rw [if_pos same]
        simp only [passed]
        rw [List.filterMap_cons, delivered]
        rfl
      · obtain ⟨taken, rest, split, passed, first⟩ := ih others own
        refine ⟨taken, rest, split, ?_, ?_⟩
        · rw [if_neg same]
          rw [List.flatMap_cons] at passed
          simp only [passed]
          rfl
        · rintro s' segments' ⟨⟩ ⟨key', member, same'⟩
          rcases List.mem_cons.mp member with rfl | member
          · exact absurd same' same
          · exact first s segments rfl ⟨key', member, same'⟩

theorem findIdx_delimiter {front rest : Text} (plain : fieldsLogDelimiter ∉ front) :
    (front ++ fieldsLogDelimiter :: rest).findIdx? (· == fieldsLogDelimiter) = some front.length := by
  have nowhere : front.findIdx? (· == fieldsLogDelimiter) = none := by
    rw [List.findIdx?_eq_none_iff]
    intro c member
    exact beq_eq_false_iff_ne.mpr fun here => plain (here ▸ member)
  rw [List.findIdx?_append, nowhere, List.findIdx?_cons, beq_self_eq_true]
  simp

theorem skipUnknown_segment {s : Text × Text} (own : Plain s) : skipUnknown (segment s ++ back) = back := by
  have split : segment s ++ back = s.1 ++ fieldsLogDelimiter :: (s.2 ++ fieldsLogDelimiter :: back) := by
    simp [segment]
  have value : (segment s ++ back).drop (s.1.length + 1) = s.2 ++ fieldsLogDelimiter :: back := by
    rw [split, List.append_cons]
    exact List.drop_left' (by simp)
  have behind : (segment s ++ back).drop (s.1.length + 1 + s.2.length + 1) = back := by
    rw [Nat.add_assoc, ← List.drop_drop, value, List.append_cons]
    exact List.drop_left' (by simp)
  rw [skipUnknown, split, findIdx_delimiter own.1, ← split]
  simp only [value, findIdx_delimiter own.2, behind]

/-- A response of segments is handled by at least one of them, whether its key is known or not. -/
theorem handleResponse_segments (registered : Registered actions) (own : ∀ s ∈ segments, Plain s)
    (some : segments ≠ []) : ∃ taken rest, segments = taken ++ rest ∧ taken ≠ [] ∧
      handleResponse actions (segments.flatMap segment) =
        (taken.filterMap (delivery actions), rest.flatMap segment) := by
  obtain ⟨taken, rest, split, passed, first⟩ :=
    @handleActions_segments actions segments actions registered (fun _ member => member) own
  rw [handleResponse, passed]
  by_cases nothing : taken = []
  · subst nothing
    obtain ⟨s, segments', rfl⟩ := List.exists_cons_of_ne_nil some
    have unknown : delivery actions s = none := by
      rw [delivery, Option.map_eq_none_iff, List.find?_eq_none]
      intro key member same
      exact first s segments' rfl ⟨key, member, same⟩ rfl
    have same : rest = s :: segments' := split.symm
    refine ⟨[s], segments', rfl, by simp, ?_⟩
    subst same
    dsimp only
    rw [if_pos rfl, List.flatMap_cons, skipUnknown_segment (own s List.mem_cons_self),
      List.filterMap_cons, unknown]
  · refine ⟨taken, rest, split, nothing, if_neg ?_⟩
    obtain ⟨s, taken', rfl⟩ := List.exists_cons_of_ne_nil nothing
    have long := length_segment s
    simp only [split, List.flatMap_append, List.flatMap_cons, List.length_append]
    omega

theorem handleAll_segments (registered : Registered actions) (own : ∀ s ∈ segments, Plain s)
    (enough : (segments.flatMap segment).length ≤ n) :
    handleAll actions n (segments.flatMap segment) = segments.filterMap (delivery actions) := by
  induction n generalizing segments with
  | zero =>
    cases segments with
    | nil => rfl
    | cons s segments =>
      have long := length_segment s
      rw [List.flatMap_cons, List.length_append] at enough
      omega
  | succ n ih =>
    cases segments with
    | nil => rfl
    | cons s segments =>
      obtain ⟨taken, rest, split, some, handled⟩ :=
        handleResponse_segments registered own (List.cons_ne_nil s segments)
      have here : (((s :: segments).flatMap segment).isEmpty) = false := by
        have long := length_segment s
        rw [List.flatMap_cons, List.isEmpty_eq_false_iff, ne_eq, ← List.length_eq_zero_iff,
          List.length_append]
        omega
      have shorter : (rest.flatMap segment).length ≤ n := by
        obtain ⟨s', taken', rfl⟩ := List.exists_cons_of_ne_nil some
        have long := length_segment s'
        simp only [split, List.flatMap_append, List.flatMap_cons, List.length_append] at enough
        omega
      have ownRest : ∀ s' ∈ rest, Plain s' := fun s' member =>
        own s' (split ▸ List.mem_append_right _ member)
      rw [handleAll, here, handled]
      simp only [Bool.false_eq_true, if_false, ih ownRest shorter]
      rw [split, List.filterMap_append]

/-- What is registered key by key, each replaced in the spelling that it was registered with. -/
inductive Reached : Registry → Prop
  | empty : Reached {}
  | register {r r' key} : Reached r → fieldsLogDelimiter ∉ key →
      registerStringValueAction r key = some r' → Reached r'
  | replace {r r' key} : Reached r → fieldsLogDelimiter ∉ key →
      (∀ key' ∈ r.actions, sameKey key key' = true → key' = key) →
      replaceStringValueAction r key = some r' → Reached r'

theorem register_registered {r r' : Registry} (registered : Registered r.actions)
    (listed : ∀ key' ∈ r.actions, key' ∈ r.keys) (plain : fieldsLogDelimiter ∉ key)
    (done : registerStringValueAction r key = some r') :
    Registered r'.actions ∧ ∀ key' ∈ r'.actions, key' ∈ r'.keys := by
  rw [registerStringValueAction] at done
  split at done
  · cases done
  · rename_i fresh
    cases done
    have other : ∀ key' ∈ r.actions, key'.map Char.toLower ≠ key.map Char.toLower := by
      intro key' member same
      exact fresh (List.any_eq_true.mpr ⟨key', listed key' member, beq_iff_eq.mpr same.symm⟩)
    refine ⟨⟨?_, ?_⟩, ?_⟩
    · intro key' member
      rcases List.mem_append.mp member with member | member
      · exact registered.plain key' member
      · exact List.mem_singleton.mp member ▸ plain
    · rw [List.map_append, List.nodup_append]
      refine ⟨registered.distinct, List.nodup_singleton _, ?_⟩
      intro lower member lower' member'
      obtain ⟨key', here, rfl⟩ := List.mem_map.mp member
      rw [List.mem_singleton.mp member']
      exact other key' here
    · intro key' member
      rcases List.mem_append.mp member with member | member
      · exact List.mem_cons_of_mem key (listed key' member)
      · exact List.mem_singleton.mp member ▸ List.mem_cons_self

theorem Reached.registered {r : Registry} (reached : Reached r) :
    Registered r.actions ∧ ∀ key' ∈ r.actions, key' ∈ r.keys := by
  induction reached with
  | empty => exact ⟨⟨by simp, List.nodup_nil⟩, by simp⟩
  | register _ plain done ih => exact register_registered ih.1 ih.2 plain done
  | @replace r r' key _ plain spelling done ih =>
    have part : (r.actions.erase key).Sublist r.actions := List.erase_sublist
    have unique : r.actions.Nodup := ih.1.distinct.of_map _
    refine @register_registered key (removeAction r key) r' ⟨?_, ?_⟩ ?_ plain done
    · exact fun key' member => ih.1.plain key' (part.subset member)
    · exact ih.1.distinct.sublist (part.map _)
    · intro key' member
      obtain ⟨different, here⟩ := unique.mem_erase_iff.mp member
      refine List.mem_filter.mpr ⟨ih.2 key' here, ?_⟩
      by_contra same
      exact different (spelling key' here (by simpa using same))

end Keys

section Stream

open ResponseBuffer EngineState

variable {actions : List Text} {chunks : List Text} {rest : Text}

/-- A line as the controller or a log file has it: perhaps a time stamp, keys with their values, and
what ends the line. -/
structure TextLine where
  stamp : Text
  segments : List (Text × Text)
  eol : Text

def TextLine.content (line : TextLine) : Text := line.stamp ++ line.segments.flatMap segment

def TextLine.text (line : TextLine) : Text := line.content ++ line.eol

/-- A stamp is all that the tag at its end is looked for in; keys and values have no delimiter in them. -/
structure WellFormed (line : TextLine) : Prop where
  oneLine : ∀ c ∈ line.content, isEol c = false
  ends : line.eol ≠ [] ∧ ∀ c ∈ line.eol, isEol c = true
  plain : ∀ s ∈ line.segments, Plain s
  stamped : (indexOf endOfTimestampTag line.content = none ∧ line.stamp = []) ∨
    ∃ i, indexOf endOfTimestampTag line.content = some i ∧
      line.stamp.length = i + endOfTimestampTag.length

def TextLine.deliveries (actions : List Text) (line : TextLine) : List (Text × Text) :=
  line.segments.filterMap (delivery actions)

theorem onResponse_line (registered : Registered actions) {line : TextLine} (formed : WellFormed line) :
    onResponse actions line.content = line.deliveries actions := by
  rw [onResponse]
  rcases formed.stamped with ⟨nowhere, unstamped⟩ | ⟨i, place, stamp⟩
  · have body : line.content = line.segments.flatMap segment := by
      rw [TextLine.content, unstamped, List.nil_append]
    rw [nowhere]
    dsimp only
    rw [body]
    exact handleAll_segments registered formed.plain le_rfl
  · have body : line.content.drop (i + endOfTimestampTag.length) = line.segments.flatMap segment := by
      rw [TextLine.content, ← stamp, List.drop_left]
    rw [place]
    dsimp only
    rw [body]
    exact handleAll_segments registered formed.plain le_rfl

theorem linesOf_lines (lines : List TextLine) (formed : ∀ line ∈ lines, WellFormed line)
    (unfinished : ∀ c ∈ rest, isEol c = false) : linesOf (lines.flatMap TextLine.text ++ rest) =
      ((lines.map TextLine.content).filter (· ≠ []), rest) := by
  induction lines with
  | nil => exact linesOf_none unfinished
  | cons line lines ih =>
    obtain ⟨oneLine, ⟨some, allEol⟩, -, -⟩ := formed line List.mem_cons_self
    obtain ⟨c, eol, split⟩ := List.exists_cons_of_ne_nil some
    rw [split] at allEol
    have skipped (text : Text) : linesOf (eol ++ text) = linesOf text := by
      rw [← linesOf_dropWhile, List.dropWhile_append_of_pos fun c' member =>
        allEol c' (List.mem_cons_of_mem c member), linesOf_dropWhile]
    have whole : (line :: lines).flatMap TextLine.text ++ rest =
        line.content ++ c :: (eol ++ (lines.flatMap TextLine.text ++ rest)) := by
      simp [TextLine.text, split]
    rw [whole, linesOf_line oneLine (allEol c List.mem_cons_self), skipped,
      ih fun line' member => formed line' (List.mem_cons_of_mem line member), List.map_cons]
    by_cases empty : line.content = [] <;> simp [empty]

/-- A run over the chunks comes to the lines of all the text before it and in it. -/
theorem run_lines (s : State) (unfinished : ∀ c ∈ s.pending, isEol c = false) :
    chunks.foldl (processNewData actions) s =
      { delivered := s.delivered ++ (linesOf (s.pending ++ chunks.flatten)).1.flatMap (onResponse actions),
        pending := (linesOf (s.pending ++ chunks.flatten)).2 } := by
  induction chunks generalizing s with
  | nil =>
    rw [List.flatten_nil, List.append_nil, linesOf_none unfinished]
    simp
  | cons chunk chunks ih =>
    have first : processNewData actions s chunk =
        { delivered := s.delivered ++ (linesOf (s.pending ++ chunk)).1.flatMap (onResponse actions),
          pending := (linesOf (s.pending ++ chunk)).2 } := by
      rw [processNewData, append, rounds_eq le_rfl]
    rw [List.foldl_cons, first, ih _ (linesOf_rest _), List.flatten_cons, ← List.append_assoc,
      linesOf_append (s.pending ++ chunk), List.flatMap_append, List.append_assoc]

/-- However the text is cut into chunks, each value arrives once, in order, at the action with its key,
and at no other. -/
theorem processNewData_delivers {r : Registry} (reached : Reached r) (lines : List TextLine)
    (formed : ∀ line ∈ lines, WellFormed line) (unfinished : ∀ c ∈ rest, isEol c = false)
    (stream : chunks.flatten = lines.flatMap TextLine.text ++ rest) :
    chunks.foldl (processNewData r.actions) {} =
      { delivered := lines.flatMap (TextLine.deliveries r.actions), pending := rest } := by
  have handled (contents : List TextLine) (formed : ∀ line ∈ contents, WellFormed line) :
      ((contents.map TextLine.content).filter (· ≠ [])).flatMap (onResponse r.actions) =
        contents.flatMap (TextLine.deliveries r.actions) := by
    induction contents with
    | nil => rfl
    | cons line contents ih =>
      have here := onResponse_line reached.registered.1 (formed line List.mem_cons_self)
      have behind := ih fun line' member => formed line' (List.mem_cons_of_mem line member)
      rw [List.map_cons, List.flatMap_cons, ← behind, ← here]
      by_cases empty : line.content = []
      · have nothing : onResponse r.actions [] = [] := rfl
        simp [empty, nothing]
      · simp [empty]
  rw [run_lines {} (by simp), List.nil_append, List.nil_append, stream, linesOf_lines lines formed unfinished,
    handled lines formed]

/-- Of two keys one got another action, and the text of two lines is cut in three: a time stamp, a key that
nobody asked for, and one value for each of the keys. -/
theorem processNewData_delivers_twoLines :
    [['1', '<', 'E', 'O', 'T', '>', ':', ' ', 'u', fieldsLogDelimiter, fieldsLogDelimiter, 'M'],
      ['s', 'g', fieldsLogDelimiter, 'x', fieldsLogDelimiter, '\r'],
      ['\n', 'w', fieldsLogDelimiter, 'y', fieldsLogDelimiter, '\n', 'm']].foldl
      (processNewData [['w'], ['m', 's', 'g']]) {} =
    { delivered := [(['m', 's', 'g'], ['x']), (['w'], ['y'])], pending := ['m'] } := by
  have first : Reached { actions := [['m', 's', 'g']], keys := [['m', 's', 'g']] } :=
    @Reached.register {} _ ['m', 's', 'g'] .empty (by decide) rfl
  have second : Reached { actions := [['m', 's', 'g'], ['w']], keys := [['w'], ['m', 's', 'g']] } :=
    @Reached.register _ _ ['w'] first (by decide) rfl
  have third : Reached { actions := [['w'], ['m', 's', 'g']], keys := [['m', 's', 'g'], ['w']] } :=
    @Reached.replace _ _ ['m', 's', 'g'] second (by decide) (by decide) rfl
  let stamped : TextLine := ⟨['1', '<', 'E', 'O', 'T', '>', ':', ' '],
    [(['u'], []), (['M', 's', 'g'], ['x'])], ['\r', '\n']⟩
  let plain : TextLine := ⟨[], [(['w'], ['y'])], ['\n']⟩
  have quiet {text : Text} (none : text.any isEol = false) : ∀ c ∈ text, isEol c = false :=
    fun c member => Bool.eq_false_iff.mpr (List.any_eq_false.mp none c member)
  have stampedFormed : WellFormed stamped :=
    ⟨quiet (by decide), ⟨by decide, List.all_eq_true.mp (by decide)⟩,
      List.forall_mem_cons.mpr ⟨by decide, List.forall_mem_singleton.mpr (by decide)⟩,
      .inr ⟨1, by decide, by decide⟩⟩
  have plainFormed : WellFormed plain :=
    ⟨quiet (by decide), ⟨by decide, List.all_eq_true.mp (by decide)⟩,
      List.forall_mem_singleton.mpr (by decide), .inl ⟨by decide, by decide⟩⟩
  have formed : ∀ line ∈ [stamped, plain], WellFormed line :=
    List.forall_mem_cons.mpr ⟨stampedFormed, List.forall_mem_singleton.mpr plainFormed⟩
  exact @processNewData_delivers _ ['m'] _ third [stamped, plain] formed (quiet (by decide)) (by decide)

end Stream

end FomeFw.Console
