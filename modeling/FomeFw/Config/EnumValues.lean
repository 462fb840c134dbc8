import FomeFw.Config.EnumsReader
import FomeFw.Lib.Decimal

/-! When the values that `readStatic` records for an enum are those of a C compiler. -/
namespace FomeFw.Config

open Decimal
open Text (hexDigit trim)

/-! ## Enums in C -/

/-- An enumerator as the reader takes it, with at most one word for its value. -/
structure Enumerator where
  name : Text
  constant : Option Text
  named : isIdentifier name = true
  word : ∀ w, constant = some w → isWord w = true
  /-- Such names are reserved. -/
  unreserved : "typedefenum__attribute__".toList.isPrefixOf name = false

/-- What it is in C, where any text may be the expression of its value. -/
def Enumerator.item (e : Enumerator) : Text × Option Text := (e.name, e.constant)

def Enumerator.spelled (e : Enumerator) : Text :=
  match e.constant with
  | none => e.name
  | some w => e.name ++ '=' :: w

/-- A literal without a sign, or else a name or a literal of another kind. -/
def cUnsigned (define : Text → Int) (word : Text) : Int :=
  let literal : Option Nat := match word with
    | '0' :: x :: digits =>
      if x = 'x' ∨ x = 'X' then digitsIn 16 digits else digitsIn 8 (x :: digits)
    | word => digitsIn 10 word
  match literal with
  | some n => n
  | none => define word

/-- The value of a constant. -/
def cConstant (define : Text → Int) : Text → Int
  | '-' :: word => -cUnsigned define word
  | word => cUnsigned define word

/-- The values of enumerators: without a constant it is one more than before. -/
def cValues (define : Text → Int) (previous : Int) : List (Option Text) → List Int
  | [] => []
  | constant :: rest =>
    let value := match constant with
      | some w => cConstant define w
      | none => previous + 1
    value :: cValues define value rest

/-- The line has the enumerator on it, and a comma behind it or not. -/
def Writes (line : Text) (e : Enumerator) : Prop :=
  strip line = e.spelled ∨ strip line = e.spelled ++ [',']

/-- The reader takes the line for none of its own. -/
def Skipped (line : Text) : Prop :=
  startsTypedef (strip line) = false ∧ enumClassWord.isPrefixOf (strip line) = false ∧
    closes (strip line) = false ∧ isKeyValueLine (strip line) = false

/-- Lines with these enumerators of C, of which the reader takes some, each from a line of its own; the
other lines hold the rest of them. -/
inductive Body : List Text → List (Text × Option Text) → List Enumerator → Prop
  | nil : Body [] [] []
  | enumerator {line : Text} {lines : List Text} {items : List (Text × Option Text)} {e : Enumerator}
      {es : List Enumerator} (writes : Writes line e) (rest : Body lines items es) :
      Body (line :: lines) (e.item :: items) (e :: es)
  | other {line : Text} {lines : List Text} {held items : List (Text × Option Text)}
      {es : List Enumerator} (skipped : Skipped line) (rest : Body lines items es) :
      Body (line :: lines) (held ++ items) es

/-- How an enum of this name begins and ends. -/
inductive Frame (name : Text) : Text → Text → Prop
  | typedef {first last : Text} (opens : startsTypedef (strip first) = true)
      (closes : strip last = '\x7d' :: name ++ [';']) : Frame name first last
  | enumClass {first last type variableName : Text}
      (opens : strip first = enumClassWord ++ name ++ ':' :: type) (plain : ':' ∉ name)
      (closes : strip last = '\x7d' :: variableName ++ [';']) : Frame name first last

/-- The declaration of an enum. -/
structure Declares (lines : List Text) (name : Text) (items : List (Text × Option Text))
    (es : List Enumerator) : Prop where
  framed : ∃ first body last, lines = first :: (body ++ [last]) ∧ Frame name first last ∧
    Body body items es
  distinct : (items.map Prod.fst).Nodup

/-- No enum of this name begins or ends in these lines. -/
def Elsewhere (name : Text) (lines : List Text) : Prop :=
  ∀ line ∈ lines, strip line ≠ '\x7d' :: name ++ [';'] ∧
    ¬ (enumClassWord ++ name ++ [':']) <+: strip line

/-! ## What is recorded -/

/-- Each enumerator's recorded value is the one of the compiler. -/
def RecordsValues (define : Text → Int) (registry : Text → Option Text)
    (enums : List (Text × EnumState)) (name : Text) (items : List (Text × Option Text)) : Prop :=
  ∃ state, getName name enums = some state ∧
    List.Forall₂ (fun item v =>
      (getName item.1 state.values).bind (Value.getIntValueMaybeResolve registry) = some v)
      items (cValues define (-1) (items.map Prod.snd))

/-- The constants are read as the compiler reads them, and one directly before an enumerator
without a constant is the number of enumerators before it. -/
def InPlace (define : Text → Int) (registry : Text → Option Text) (constants : List (Option Text)) :
    Prop :=
  (∀ w, some w ∈ constants →
    resolveInt registry w = some (cConstant define w)) ∧
  ∀ (i : Nat) w, constants[i]? = some (some w) → constants[i + 1]? = some none → cConstant define w = i

/-! ## Lines with an enumerator -/

variable {e : Enumerator} {line : Text} {c : Char} {s : ReaderVariables}

theorem Enumerator.spelled_none (none : e.constant = .none) : e.spelled = e.name := by
  rw [spelled, none]

theorem Enumerator.spelled_some (constant : e.constant = some w) : e.spelled = e.name ++ '=' :: w := by
  rw [spelled, constant]

theorem not_mem_name (outside : inIdentifier c = false) : c ∉ e.name := by
  intro member
  have named := e.named
  cases name : e.name with
  | nil =>
    rw [name] at member
    cases member
  | cons first rest =>
    rw [name] at member named
    simp only [isIdentifier, Bool.and_eq_true, List.all_eq_true] at named
    rcases List.mem_cons.mp member with rfl | later
    · have within : inIdentifier c = true := by
        have start := named.1
        simp only [inIdentifier, Bool.or_eq_true] at start ⊢
        rcases start with (letter | underscore) | dollar
        · exact .inl (.inl (.inl letter))
        · exact .inl (.inr underscore)
        · exact .inr dollar
      rw [within] at outside
      contradiction
    · rw [named.2 c later] at outside
      contradiction

theorem not_mem_word (word : isWord w = true) (outside : inWord c = false) : c ∉ w := by
  intro member
  rw [List.all_eq_true.mp word c member] at outside
  contradiction

theorem not_mem_spelled (outside : inIdentifier c = false) (outside' : inWord c = false)
    (other : c ≠ '=') : c ∉ e.spelled := by
  rw [Enumerator.spelled]
  split
  · exact not_mem_name outside
  · next w constant =>
    rw [List.mem_append, List.mem_cons]
    rintro (name | equals | word)
    · exact not_mem_name outside name
    · exact other equals
    · exact not_mem_word (e.word w constant) outside' word

/-- What the reader looks at of a line with an enumerator. -/
def Looks (line : Text) (e : Enumerator) : Prop :=
  ∃ comma, line = e.spelled ++ comma ∧ (comma = [] ∨ comma = [','])

theorem Writes.looks (writes : Writes line e) : Looks (strip line) e := by
  rcases writes with alone | comma
  · exact ⟨[], by rw [alone, List.append_nil], .inl rfl⟩
  · exact ⟨[','], comma, .inr rfl⟩

theorem Looks.not_mem (looks : Looks line e) (outside : inIdentifier c = false)
    (outside' : inWord c = false) (other : c ≠ '=') (other' : c ≠ ',') : c ∉ line := by
  obtain ⟨comma, rfl, end_⟩ := looks
  rw [List.mem_append, not_or]
  refine ⟨not_mem_spelled outside outside' other, ?_⟩
  rcases end_ with rfl | rfl
  · exact List.not_mem_nil
  · simpa using other'

/-- A word of an identifier's characters that a line begins with is in the enumerator's name. -/
theorem Looks.begins (looks : Looks line e) (word : Text) (inside : word.all inIdentifier = true)
    (begins : word.isPrefixOf line = true) : word.isPrefixOf e.name = true := by
  obtain ⟨comma, rfl, end_⟩ := looks
  rw [List.isPrefixOf_iff_prefix] at begins ⊢
  have tail : ∃ rest, e.spelled ++ comma = e.name ++ rest ∧ ∀ c ∈ rest.head?, c = '=' ∨ c = ',' := by
    rw [Enumerator.spelled]
    split
    · refine ⟨comma, rfl, ?_⟩
      rcases end_ with rfl | rfl
      · simp
      · simp
    · next w _ => exact ⟨'=' :: w ++ comma, by simp, by simp⟩
  obtain ⟨rest, same, first⟩ := tail
  rw [same] at begins
  rcases List.prefix_or_prefix_of_prefix begins (List.prefix_append e.name rest) with
    within | ⟨t, longer⟩
  · exact within
  · rw [← longer] at begins inside ⊢
    cases t with
    | nil => simp
    | cons c t =>
      obtain ⟨more, rfl⟩ := (List.prefix_append_right_inj e.name).mp begins
      have letter : inIdentifier c = true := List.all_eq_true.mp inside c (by simp)
      rcases first c (by simp) with rfl | rfl
      · exact absurd letter (by decide)
      · exact absurd letter (by decide)

theorem Looks.startsTypedef (looks : Looks line e) : startsTypedef line = false := by
  have brace : '\x7b' ∉ line := looks.not_mem (by decide) (by decide) (by decide) (by decide)
  rw [Config.startsTypedef, Bool.or_eq_false_iff, Bool.eq_false_iff, Bool.eq_false_iff]
  constructor
  · intro begins
    exact brace ((List.isPrefixOf_iff_prefix.mp begins).subset (by decide))
  · intro begins
    have name := looks.begins _ (by decide) begins
    rw [e.unreserved] at name
    contradiction

theorem Looks.closes (looks : Looks line e) : closes line = false := by
  have brace : '\x7d' ∉ line := looks.not_mem (by decide) (by decide) (by decide) (by decide)
  cases line with
  | nil => rfl
  | cons c rest =>
    have first : c ≠ '\x7d' := fun same => brace (same ▸ List.mem_cons_self ..)
    simp [Config.closes, first]

theorem isWhite_mem (white : isWhite c = true) : c ∈ [9, 10, 11, 12, 13, 32].map Char.ofNat := by
  have code : c.toNat ∈ [9, 10, 11, 12, 13, 32] := by
    simp only [isWhite, Bool.or_eq_true, beq_iff_eq, Bool.and_eq_true, decide_eq_true_eq] at white
    rcases white with rfl | ⟨low, high⟩
    · decide
    · simp only [List.mem_cons, List.not_mem_nil, or_false]
      omega
  rw [← Char.ofNat_toNat c]
  exact List.mem_map_of_mem code

theorem Looks.spaceless (looks : Looks line e) : removeSpaces line = line := by
  rw [removeSpaces, List.filter_eq_self]
  intro c member
  rw [Bool.not_eq_true', Bool.eq_false_iff]
  intro white
  have outside : ∀ c ∈ [9, 10, 11, 12, 13, 32].map Char.ofNat, inIdentifier c = false ∧
      inWord c = false ∧ c ≠ '=' ∧ c ≠ ',' := List.forall_mem_map.mpr (by decide)
  obtain ⟨identifier, word, equals, comma⟩ := outside c (isWhite_mem white)
  exact looks.not_mem identifier word equals comma member

theorem Looks.dropComma (looks : Looks line e) : dropComma line = e.spelled := by
  have comma : ',' ∉ e.spelled := not_mem_spelled (by decide) (by decide) (by decide)
  obtain ⟨_, rfl, rfl | rfl⟩ := looks
  · rw [List.append_nil, Config.dropComma, if_neg]
    exact fun last => comma (List.mem_of_getLast? last)
  · simp [Config.dropComma]

theorem Looks.isKeyValueLine (looks : Looks line e) : isKeyValueLine line = true := by
  have name : ∀ c ∈ e.name, (c == '=') = false := by
    intro c member
    rw [beq_eq_false_iff_ne]
    rintro rfl
    exact not_mem_name (by decide) member
  rw [Config.isKeyValueLine, looks.spaceless, looks.dropComma, List.splitOn_eq_splitOnP]
  cases constant : e.constant with
  | none =>
    rw [Enumerator.spelled_none constant, List.splitOnP_eq_singleton name]
    simp [e.named]
  | some w =>
    have word := e.word w constant
    have no : ∀ c ∈ w, (c == '=') = false := by
      intro c member
      rw [beq_eq_false_iff_ne]
      rintro rfl
      exact not_mem_word word (by decide) member
    rw [Enumerator.spelled_some constant,
      List.splitOnP_append_cons_of_forall_mem name '=' (by decide), List.splitOnP_eq_singleton no]
    simp [e.named, isConstant, word]

/-- What is recorded for an enumerator after so many others. -/
def Enumerator.recorded (e : Enumerator) (before : Nat) : Value :=
  ⟨e.name, e.constant.getD (Nat.toDigits 10 before)⟩

theorem Looks.readKeyValue (looks : Looks line e) : readKeyValue s line =
    { s with
      currentValues := putName e.name (e.recorded s.currentValues.length) s.currentValues
      withAutoValue := s.withAutoValue || e.constant.isNone } := by
  have bare : line.filter (· ≠ ',') = e.spelled := by
    have comma : ',' ∉ e.spelled := not_mem_spelled (by decide) (by decide) (by decide)
    have kept : e.spelled.filter (· ≠ ',') = e.spelled := by
      rw [List.filter_eq_self]
      intro c member
      have other : c ≠ ',' := by
        rintro rfl
        exact comma member
      simpa using other
    obtain ⟨_, rfl, rfl | rfl⟩ := looks
    · rw [List.append_nil, kept]
    · rw [List.filter_append, kept]
      simp
  simp only [Config.readKeyValue, bare, Enumerator.recorded]
  cases constant : e.constant with
  | none =>
    have equals : '=' ∉ e.name := not_mem_name (by decide)
    rw [Enumerator.spelled_none constant, if_neg equals]
    simp
  | some w =>
    have before : ∀ c ∈ e.name, decide (c ≠ '=') = true := by
      intro c member
      rw [decide_eq_true_eq]
      rintro rfl
      exact not_mem_name (by decide) member
    rw [Enumerator.spelled_some constant, if_pos (by simp), List.takeWhile_append_of_pos before,
      List.dropWhile_append_of_pos before]
    simp

theorem Writes.read (writes : Writes line e) (inside : s.isInsideEnum = true)
    (read : readLine s line = .ok s') : s' =
      { s with
        currentValues := putName e.name (e.recorded s.currentValues.length) s.currentValues
        withAutoValue := s.withAutoValue || e.constant.isNone } := by
  have looks := writes.looks
  have colon : ':' ∉ strip line := looks.not_mem (by decide) (by decide) (by decide) (by decide)
  rw [readLine] at read
  simp only [looks.startsTypedef, colon, looks.closes, inside, looks.isKeyValueLine, looks.readKeyValue,
    if_false, Bool.false_eq_true, Bool.and_self, if_true] at read
  split at read
  · cases read
  · cases read
    rw [inside]

theorem Skipped.read (skipped : Skipped line) (s : ReaderVariables) : readLine s line = .ok s := by
  obtain ⟨typedef, enumClass, closing, keyValue⟩ := skipped
  simp [readLine, typedef, enumClass, closing, keyValue]
  rfl

/-! ## The lines of a body -/

/-- What is recorded for all of them. -/
def recordedAll (es : List Enumerator) : List (Text × Value) :=
  es.mapIdx fun i e => (e.name, e.recorded i)

theorem recordedAll_names (es : List Enumerator) :
    (recordedAll es).map Prod.fst = es.map Enumerator.name := by
  apply List.ext_getElem?
  intro i
  simp only [recordedAll, List.getElem?_map, List.getElem?_mapIdx, Option.map_map]
  rfl

theorem compareNames_ranks : SortedMap.Ranks compareNames (id : Text → Text) := by
  intro a b
  rw [compareNames, compareOfLessAndEq]
  rcases lt_trichotomy a b with less | rfl | more
  · exact (if_pos less).trans (compare_lt_iff_lt.mpr less).symm
  · rw [if_neg (List.lt_irrefl a), if_pos rfl]
    exact (compare_eq_iff_eq.mpr rfl).symm
  · have less : ¬ a < b := more.not_gt
    exact ((if_neg less).trans (if_neg more.ne')).trans (compare_gt_iff_gt.mpr more).symm

theorem putName_recorded {prior : List Enumerator} {m : List (Text × Value)}
    (distinct : ((prior ++ [e]).map Enumerator.name).Nodup) (holds : m.Perm (recordedAll prior)) :
    (putName e.name (e.recorded m.length) m).Perm (recordedAll (prior ++ [e])) := by
  have length : m.length = prior.length := by
    rw [holds.length_eq, recordedAll, List.length_mapIdx]
  have new : ∀ a ∈ m, id a.1 ≠ id e.name := by
    intro a member same
    have among : a.1 ∈ prior.map Enumerator.name := by
      rw [← recordedAll_names]
      exact List.mem_map_of_mem (holds.mem_iff.mp member)
    rw [List.map_append] at distinct
    exact (List.nodup_append.mp distinct).2.2 _ among _ (by simp) same
  refine (SortedMap.put_perm compareNames_ranks new).trans ?_
  rw [recordedAll, List.mapIdx_concat, length]
  exact (holds.cons _).trans (List.perm_append_singleton _ _).symm

/-- The reader after the lines of a body that come after these enumerators. -/
structure ReadOn (s s' : ReaderVariables) (prior es : List Enumerator) : Prop where
  enumName : s'.enumName = s.enumName
  isEnumClass : s'.isEnumClass = s.isEnumClass
  enums : s'.enums = s.enums
  auto : s'.withAutoValue = (s.withAutoValue || es.any fun e => e.constant.isNone)
  values : s'.currentValues.Perm (recordedAll (prior ++ es))

theorem Body.read (body : Body lines items es) (inside : s.isInsideEnum = true)
    (distinct : ((prior ++ es).map Enumerator.name).Nodup)
    (holds : s.currentValues.Perm (recordedAll prior)) (read : lines.foldlM readLine s = .ok s') :
    ReadOn s s' prior es := by
  induction body generalizing s prior with
  | nil =>
    cases read
    exact ⟨rfl, rfl, rfl, by simp, by simpa using holds⟩
  | @enumerator line lines items e es writes rest ih =>
    rw [List.foldlM_cons] at read
    cases next : readLine s line with
    | error text =>
      rw [next] at read
      cases read
    | ok s₁ =>
      rw [next] at read
      rw [List.append_cons, List.map_append] at distinct
      have values := putName_recorded (List.nodup_append.mp distinct).1 holds
      have taken := writes.read inside next
      have on := @ih s₁ (prior ++ [e]) (by rw [taken]; exact inside) (by rwa [List.map_append])
        (by rw [taken]; exact values) read
      rw [taken] at on
      refine ⟨on.enumName, on.isEnumClass, on.enums, ?_, ?_⟩
      · rw [on.auto, List.any_cons, ← Bool.or_assoc]
      · rw [List.append_cons]
        exact on.values
  | other skipped rest ih =>
    rw [List.foldlM_cons, skipped.read] at read
    exact ih inside distinct holds read

/-! ## The whole declaration -/

theorem bind_ok {x : Except ReadError α} {f : α → Except ReadError β} (done : (x >>= f) = .ok b) :
    ∃ a, x = .ok a ∧ f a = .ok b := by
  cases x with
  | error text => cases done
  | ok a => exact ⟨a, rfl, done⟩

theorem validateValues_ok (valid : validateValues m = .ok u) :
    ∀ entry ∈ m, ∃ v, entry.2.getIntValue = some v := by
  rw [validateValues] at valid
  generalize m.length = size at valid
  induction m with
  | nil => exact fun _ member => nomatch member
  | cons entry m ih =>
    change (validateValue size entry >>= fun _ => m.forM (validateValue size)) = _ at valid
    obtain ⟨u, first, rest⟩ := bind_ok valid
    intro other member
    rcases List.mem_cons.mp member with rfl | later
    · rw [validateValue] at first
      split at first
      · cases first
      · next v value => exact ⟨v, value⟩
    · exact ih rest other later

/-- The reader between the first line and the last one. -/
theorem Frame.opens (frame : Frame name first last) (read : readLine s first = .ok s') :
    s'.isInsideEnum = true ∧ s'.currentValues = [] ∧ s'.withAutoValue = false ∧
      (s'.enumName.getD (((strip last).drop 1).dropLast) = name) := by
  cases frame with
  | typedef opens closes =>
    rw [readLine] at read
    simp only [opens, if_true] at read
    cases read
    exact ⟨rfl, rfl, rfl, by simp [closes]⟩
  | @enumClass type variableName opens plain closes =>
    have no : startsTypedef (strip first) = false := by rw [opens]; rfl
    have begins : enumClassWord.isPrefixOf (strip first) = true := by rw [opens]; rfl
    have colon : ':' ∈ strip first := by
      rw [opens]
      simp
    rw [readLine] at read
    simp only [no, begins, colon, if_true, Bool.false_eq_true, if_false] at read
    cases read
    refine ⟨rfl, rfl, rfl, ?_⟩
    have before : ∀ c ∈ enumClassWord ++ name, decide (c ≠ ':') = true := by
      intro c member
      rw [decide_eq_true_eq]
      rintro rfl
      rcases List.mem_append.mp member with word | named
      · exact absurd word (by decide)
      · exact plain named
    change List.drop enumClassWord.length ((strip first).takeWhile (· ≠ ':')) = name
    rw [opens, List.takeWhile_append_of_pos before]
    simp

theorem Frame.closes (frame : Frame name first last) (read : readLine s last = .ok s') :
    s'.enums = putName (s.enumName.getD (((strip last).drop 1).dropLast))
        ⟨s.currentValues, s.enumName.getD (((strip last).drop 1).dropLast), s.isEnumClass⟩ s.enums ∧
      s'.isInsideEnum = false ∧ s'.currentValues = s.currentValues ∧
      (s.withAutoValue = true → ∀ entry ∈ s.currentValues, ∃ v, entry.2.getIntValue = some v) := by
  have ends : ∃ text, strip last = '\x7d' :: text ++ [';'] := by
    cases frame with
    | typedef opens closes => exact ⟨_, closes⟩
    | enumClass opens plain closes => exact ⟨_, closes⟩
  obtain ⟨text, ends⟩ := ends
  have no : startsTypedef (strip last) = false := by rw [ends]; rfl
  have other : enumClassWord.isPrefixOf (strip last) = false := by rw [ends]; rfl
  have closing : Config.closes (strip last) = true := by
    rw [ends, Config.closes, List.getLast?_concat]
    rfl
  rw [readLine] at read
  simp only [no, other, closing, if_true, Bool.false_eq_true, if_false] at read
  by_cases auto : s.withAutoValue = true
  · rw [if_pos auto] at read
    obtain ⟨u, valid, done⟩ := bind_ok read
    cases done
    exact ⟨rfl, rfl, rfl, fun _ => validateValues_ok valid⟩
  · rw [if_neg auto] at read
    cases read
    exact ⟨rfl, rfl, rfl, fun some => absurd some auto⟩

theorem Body.sublist (body : Body lines items es) : (es.map Enumerator.item).Sublist items := by
  induction body with
  | nil => exact .slnil
  | enumerator writes rest ih => exact ih.cons_cons _
  | other skipped rest ih => exact ih.trans (List.sublist_append_right _ _)

theorem Declares.sublist (declares : Declares lines name items es) :
    (es.map Enumerator.item).Sublist items := by
  obtain ⟨_, _, _, -, -, body⟩ := declares.framed
  exact body.sublist

theorem Declares.names_distinct (declares : Declares lines name items es) :
    (es.map Enumerator.name).Nodup := by
  have names := declares.distinct.sublist (declares.sublist.map Prod.fst)
  rwa [List.map_map] at names

/-- The enum is recorded with these values, and would be again if no other one begins. -/
structure Kept (name : Text) (values : List (Text × Value)) (s : ReaderVariables) : Prop where
  recorded : ∃ state, getName name s.enums = some state ∧ state.values = values
  ended : s.enumName = some name → s.isInsideEnum = false ∧ s.currentValues = values

/-- The enum as it is recorded; the values are numbers when one of them was made up. -/
theorem Declares.read (declares : Declares lines name items es)
    (read : lines.foldlM readLine s = .ok s') :
    ∃ values, Kept name values s' ∧ values.Perm (recordedAll es) ∧
      ((∃ e ∈ es, e.constant = none) → ∀ entry ∈ values, ∃ v, entry.2.getIntValue = some v) := by
  obtain ⟨first, body, last, rfl, frame, written⟩ := declares.framed
  rw [List.foldlM_cons] at read
  obtain ⟨s₁, opened, read⟩ := bind_ok read
  rw [List.foldlM_append] at read
  obtain ⟨s₂, gone, read⟩ := bind_ok read
  rw [List.foldlM_cons] at read
  obtain ⟨s₃, closed, read⟩ := bind_ok read
  cases read
  obtain ⟨inside, empty, auto, named⟩ := frame.opens opened
  have on : ReadOn s₁ s₂ [] es :=
    written.read inside declares.names_distinct (by rw [empty]; exact .refl _) gone
  obtain ⟨recorded, outside, same, valid⟩ := frame.closes closed
  rw [on.enumName, named] at recorded
  refine ⟨s₂.currentValues, ⟨⟨⟨s₂.currentValues, name, s₂.isEnumClass⟩, ?_, rfl⟩,
    fun _ => ⟨outside, same⟩⟩, on.values, ?_⟩
  · rw [recorded, getName, putName, SortedMap.get_put compareNames_ranks, if_pos rfl]
  · rintro ⟨e, member, none⟩
    apply valid
    rw [on.auto, auto, Bool.false_or, List.any_eq_true]
    exact ⟨e, member, by rw [none]; rfl⟩

theorem eq_of_closes {text : Text} (closes : closes text = true) :
    text = '\x7d' :: (text.drop 1).dropLast ++ [';'] := by
  rw [Config.closes, Bool.and_eq_true, decide_eq_true_eq, decide_eq_true_eq] at closes
  obtain ⟨begins, ends⟩ := closes
  cases text with
  | nil => cases begins
  | cons first rest =>
    obtain rfl := Option.some.inj begins
    rcases List.eq_nil_or_concat' rest with rfl | ⟨middle, last, rfl⟩
    · cases ends
    · rw [← List.cons_append, List.getLast?_concat] at ends
      obtain rfl := Option.some.inj ends
      simp

theorem takeWhile_colon {text : Text} (colon : ':' ∈ text) :
    text.takeWhile (· ≠ ':') ++ [':'] <+: text := by
  induction text with
  | nil => cases colon
  | cons c text ih =>
    by_cases here : c = ':'
    · subst here
      exact ⟨text, rfl⟩
    · have later : ':' ∈ text := (List.mem_cons.mp colon).resolve_left (Ne.symm here)
      rw [List.takeWhile_cons_of_pos (by simpa using here)]
      exact List.prefix_cons_iff.mpr (.inr ⟨_, rfl, ih later⟩)

/-- An `enum class` is called what stands before the colon. -/
theorem begins_enumClass {text : Text} (begins : enumClassWord.isPrefixOf text = true)
    (colon : ':' ∈ text)
    (named : (text.takeWhile (· ≠ ':')).drop enumClassWord.length = name) :
    enumClassWord ++ name ++ [':'] <+: text := by
  obtain ⟨tail, rfl⟩ := List.isPrefixOf_iff_prefix.mp begins
  have plain : ∀ c ∈ enumClassWord, decide (c ≠ ':') = true := List.all_eq_true.mp (by decide)
  rw [List.takeWhile_append_of_pos plain, List.drop_left] at named
  have later : ':' ∈ tail := by
    rcases List.mem_append.mp colon with word | later
    · exact absurd word (by decide)
    · exact later
  rw [← named, List.append_assoc]
  exact (List.prefix_append_right_inj _).mpr (takeWhile_colon later)

theorem readKeyValue_same (s : ReaderVariables) (text : Text) :
    (readKeyValue s text).enums = s.enums ∧ (readKeyValue s text).enumName = s.enumName := by
  rw [readKeyValue]
  simp only
  split
  · exact ⟨rfl, rfl⟩
  · exact ⟨rfl, rfl⟩

/-- An enum that ends here is another one, or this one once more. -/
theorem Kept.closes {values : List (Text × Value)} {text : Text} (kept : Kept name values s)
    (closing : closes text = true) (other : text ≠ '\x7d' :: name ++ [';']) :
    Kept name values { s with
      isInsideEnum := false, enumName := some (s.enumName.getD ((text.drop 1).dropLast))
      enums := putName (s.enumName.getD ((text.drop 1).dropLast))
        ⟨s.currentValues, s.enumName.getD ((text.drop 1).dropLast), s.isEnumClass⟩ s.enums } := by
  have again : s.enumName.getD ((text.drop 1).dropLast) = name → s.enumName = some name := by
    intro same
    cases named : s.enumName with
    | none =>
      rw [named, Option.getD_none] at same
      rw [← same] at other
      exact absurd (eq_of_closes closing) other
    | some m =>
      rw [named] at same
      exact congrArg some same
  refine ⟨?_, fun same => ⟨rfl, (kept.ended (again (Option.some.inj same))).2⟩⟩
  rw [getName, putName, SortedMap.get_put compareNames_ranks]
  split
  · next same => exact ⟨_, rfl, (kept.ended (again same.symm)).2⟩
  · exact kept.recorded

/-- Lines with no enum of the same name leave it as it is. -/
theorem Kept.readLine {values : List (Text × Value)} (kept : Kept name values s)
    (elsewhere : Elsewhere name [line]) (read : readLine s line = .ok s') : Kept name values s' := by
  obtain ⟨otherEnd, otherStart⟩ := elsewhere line (List.mem_singleton_self line)
  rw [Config.readLine] at read
  generalize strip line = text at read otherEnd otherStart
  simp only at read
  split at read
  · cases read
    exact ⟨kept.recorded, fun none => nomatch none⟩
  split at read
  · next begins =>
    split at read
    · next colon =>
      cases read
      exact ⟨kept.recorded, fun same =>
        absurd (begins_enumClass begins colon (Option.some.inj same)) otherStart⟩
    · cases read
  split at read
  · next closing =>
    split at read
    · obtain ⟨u, -, done⟩ := bind_ok read
      cases done
      exact kept.closes closing otherEnd
    · cases read
      exact kept.closes closing otherEnd
  split at read
  · next inside =>
    cases read
    obtain ⟨enums, named⟩ := readKeyValue_same s text
    rw [Bool.and_eq_true] at inside
    refine ⟨enums ▸ kept.recorded, fun same => ?_⟩
    have outside := (kept.ended (named ▸ same)).1
    rw [inside.1] at outside
    contradiction
  · cases read
    exact kept

theorem Kept.readLines {values : List (Text × Value)} {after : List Text}
    (kept : Kept name values s) (elsewhere : Elsewhere name after)
    (read : after.foldlM Config.readLine s = .ok s') : Kept name values s' := by
  induction after generalizing s with
  | nil =>
    cases read
    exact kept
  | cons line after ih =>
    rw [List.foldlM_cons] at read
    obtain ⟨s₁, first, rest⟩ := bind_ok read
    obtain ⟨here, later⟩ := List.forall_mem_cons.mp elsewhere
    exact ih (kept.readLine (List.forall_mem_singleton.mpr here) first) later rest

/-! ## The numbers -/

theorem hexDigit_of_isDigit (digit : c.isDigit = true) :
    hexDigit c = some (c.toNat - '0'.toNat) := if_pos digit

theorem digitsIn_decimal (digits : Digits text) (some : text ≠ []) :
    digitsIn 10 text = .some (Nat.ofDigitChars 10 text 0) := by
  rw [digitsIn, if_neg some]
  clear some
  generalize 0 = n
  induction text generalizing n with
  | nil => rfl
  | cons c text ih =>
    have digit := digits c (List.mem_cons_self ..)
    have small : c.toNat - '0'.toNat < 10 := by
      have range := isDigit_iff.mp digit
      change c.toNat - 48 < 10
      omega
    rw [List.foldlM_cons, hexDigit_of_isDigit digit, Nat.ofDigitChars_cons]
    simp only [Option.bind_some, small, if_true]
    exact ih (fun c member => digits c (List.mem_cons_of_mem _ member)) _

theorem trim_digits (digits : Digits text) : trim text = text := by
  have kept : ∀ text : Text, Digits text → text.dropWhile (·.toNat ≤ 32) = text := by
    intro text digits
    cases text with
    | nil => rfl
    | cons c text =>
      have range := isDigit_iff.mp (digits c (List.mem_cons_self ..))
      rw [List.dropWhile_cons_of_neg]
      rw [decide_eq_true_eq]
      omega
  rw [trim, kept text digits, kept _ fun c member => digits c (List.mem_reverse.mp member),
    List.reverse_reverse]

/-- What `Integer.toString` writes is read again. -/
theorem parseInt_toDigits (n : Nat) :
    parseInt (Nat.toDigits 10 n) = if n < 2 ^ 31 then some (n : Int) else none := by
  have digits := digits_toDigits n
  have number : digitsIn 10 (Nat.toDigits 10 n) = some n := by
    rw [digitsIn_decimal digits Nat.toDigits_ne_nil, Nat.ofDigitChars_ten_toDigits]
  have decimal : parseInt (Nat.toDigits 10 n) = parseIntIn 10 (Nat.toDigits 10 n) := by
    rw [parseInt, trim_digits digits]
    split
    · next x rest same =>
      have digit := digits x (by rw [same]; simp)
      have lower : x ≠ 'x' := by
        rintro rfl
        exact absurd digit (by decide)
      have upper : x ≠ 'X' := by
        rintro rfl
        exact absurd digit (by decide)
      rw [if_neg (not_or.mpr ⟨lower, upper⟩), same]
    · rfl
  have unsigned : ∀ sign ∈ ['-', '+'], ∀ rest, Nat.toDigits 10 n ≠ sign :: rest := by
    intro sign member rest same
    have digit := digits sign (by rw [same]; simp)
    simp only [List.mem_cons, List.not_mem_nil, or_false] at member
    rcases member with rfl | rfl
    · exact absurd digit (by decide)
    · exact absurd digit (by decide)
  rw [decimal, parseIntIn, number, Option.map_some]
  · rw [Option.filter, Int.ofNat_eq_natCast]
    by_cases small : n < 2 ^ 31
    · rw [if_pos small, if_pos]
      rw [decide_eq_true_eq]
      omega
    · rw [if_neg small, if_neg]
      rw [decide_eq_true_eq]
      omega
  · exact unsigned '-' (by decide)
  · exact unsigned '+' (by decide)

theorem toDigits_reads (reads : parseInt (Nat.toDigits 10 n) = some v) (registry : Text → Option Text) :
    resolveInt registry (Nat.toDigits 10 n) = some (n : Int) := by
  rw [parseInt_toDigits] at reads
  split at reads
  · next small => rw [resolveInt, parseInt_toDigits, if_pos small]
  · cases reads

/-! ## Values in order -/

section Values

variable {define : Text → Int} {registry : Text → Option Text}

/-- The numbers recorded, with so many enumerators before them. -/
def readings (registry : Text → Option Text) (before : Nat) : List (Option Text) → List (Option Int)
  | [] => []
  | constant :: rest =>
    resolveInt registry (constant.getD (Nat.toDigits 10 before)) :: readings registry (before + 1) rest

/-- Where made-up values are read as numbers, the readings are those of the compiler just when its
constants are in place. -/
theorem readings_iff {constants : List (Option Text)} {before : Nat} {previous : Int}
    (madeUp : ∀ i, constants[i]? = some none →
      resolveInt registry (Nat.toDigits 10 (before + i)) = some ((before + i : Nat) : Int)) :
    readings registry before constants = (cValues define previous constants).map some ↔
      (∀ w, some w ∈ constants → resolveInt registry w = some (cConstant define w)) ∧
      (constants[0]? = some none → previous + 1 = before) ∧
      ∀ (i : Nat) w, constants[i]? = some (some w) → constants[i + 1]? = some none →
        cConstant define w = (before + i : Nat) := by
  induction constants generalizing before previous with
  | nil => simp [readings, cValues]
  | cons constant rest ih =>
    have later : ∀ i, rest[i]? = some none →
        resolveInt registry (Nat.toDigits 10 (before + 1 + i)) =
          some ((before + 1 + i : Nat) : Int) := by
      intro i made
      have here := madeUp (i + 1) made
      rwa [Nat.add_left_comm, Nat.add_comm i] at here
    -- what is asked of a neighbour further on is asked of the rest
    have shift : (∀ (i : Nat) w, (constant :: rest)[i + 1]? = some (some w) →
        (constant :: rest)[i + 1 + 1]? = some none → cConstant define w = (before + (i + 1) : Nat)) ↔
        ∀ (i : Nat) w, rest[i]? = some (some w) → rest[i + 1]? = some none →
          cConstant define w = (before + 1 + i : Nat) := by
      simp only [List.getElem?_cons_succ, Nat.add_left_comm, Nat.add_comm]
    cases constant with
    | none =>
      have made : resolveInt registry (Nat.toDigits 10 before) = some (before : Int) := madeUp 0 rfl
      rw [readings, cValues, List.map_cons, List.cons.injEq, ih later, Option.getD_none, made]
      simp only [Option.some.injEq]
      constructor
      · rintro ⟨here, read, -, places⟩
        refine ⟨?_, fun _ => here.symm, ?_⟩
        · intro w member
          exact read w (by simpa using member)
        · intro i w this next
          cases i with
          | zero => cases this
          | succ i => exact shift.mpr places i w this next
      · rintro ⟨read, here, places⟩
        have first := here rfl
        refine ⟨first.symm, ?_, ?_, shift.mp fun i => places (i + 1)⟩
        · exact fun w member => read w (List.mem_cons_of_mem _ member)
        · intro _
          omega
    | some w =>
      rw [readings, cValues, List.map_cons, List.cons.injEq, ih later, Option.getD_some]
      constructor
      · rintro ⟨first, read, next, places⟩
        refine ⟨?_, fun none => (by cases none), ?_⟩
        · intro w' member
          rcases List.mem_cons.mp member with same | later
          · obtain rfl := Option.some.inj same
            exact first
          · exact read w' later
        · intro i w' this follows
          cases i with
          | zero =>
            obtain rfl := Option.some.inj (Option.some.inj this)
            have value := next follows
            omega
          | succ i => exact shift.mpr places i w' this follows
      · rintro ⟨read, -, places⟩
        refine ⟨read w (List.mem_cons_self ..), ?_, ?_, shift.mp fun i => places (i + 1)⟩
        · exact fun w' member => read w' (List.mem_cons_of_mem _ member)
        · intro follows
          have value := places 0 w rfl follows
          omega

theorem forall₂_readings {lookup : Text → Option Int} {es : List Enumerator} {before : Nat}
    {values : List Int}
    (found : ∀ (i : Nat) (e : Enumerator), es[i]? = some e →
      lookup e.name = resolveInt registry (e.recorded (before + i)).value) :
    List.Forall₂ (fun (e : Enumerator) v => lookup e.name = some v) es values ↔
      readings registry before (es.map Enumerator.constant) = values.map some := by
  induction es generalizing before values with
  | nil => cases values <;> simp [readings]
  | cons e es ih =>
    have here : lookup e.name = resolveInt registry (e.constant.getD (Nat.toDigits 10 before)) :=
      found 0 e rfl
    have later : ∀ (i : Nat) (e : Enumerator), es[i]? = some e →
        lookup e.name = resolveInt registry (e.recorded (before + 1 + i)).value := by
      intro i e at_
      have there := found (i + 1) e at_
      rwa [← Nat.add_assoc, Nat.add_right_comm] at there
    cases values with
    | nil => simp [readings]
    | cons v values =>
      rw [List.forall₂_cons, ih later, List.map_cons, readings, List.map_cons, List.cons.injEq, here]

theorem values_iff {values : List (Text × Value)} (distinct : (es.map Enumerator.name).Nodup)
    (recorded : values.Perm (recordedAll es))
    (valid : (∃ e ∈ es, e.constant = none) → ∀ entry ∈ values, ∃ v, entry.2.getIntValue = some v) :
    List.Forall₂ (fun (e : Enumerator) v =>
      (getName e.name values).bind (Value.getIntValueMaybeResolve registry) = some v)
      es (cValues define (-1) (es.map Enumerator.constant)) ↔
        InPlace define registry (es.map Enumerator.constant) := by
  have different : values.Pairwise fun a b => id a.1 ≠ id b.1 := by
    have names := distinct
    rw [← recordedAll_names, ← (recorded.map Prod.fst).nodup_iff, List.Nodup, List.pairwise_map] at names
    exact names
  have member : ∀ (i : Nat) (e : Enumerator), es[i]? = some e → (e.name, e.recorded i) ∈ values := by
    intro i e at_
    rw [recorded.mem_iff, recordedAll, List.mem_mapIdx]
    obtain ⟨inside, rfl⟩ := List.getElem?_eq_some_iff.mp at_
    exact ⟨i, inside, rfl⟩
  have found : ∀ (i : Nat) (e : Enumerator), es[i]? = some e → (getName e.name values).bind
      (Value.getIntValueMaybeResolve registry) = resolveInt registry (e.recorded (0 + i)).value := by
    intro i e at_
    rw [getName, SortedMap.get_of_mem compareNames_ranks different (member i e at_), Nat.zero_add]
    rfl
  have madeUp : ∀ i, (es.map Enumerator.constant)[i]? = some none →
      resolveInt registry (Nat.toDigits 10 (0 + i)) = some ((0 + i : Nat) : Int) := by
    intro i at_
    rw [List.getElem?_map] at at_
    obtain ⟨e, here, none⟩ := Option.map_eq_some_iff.mp at_
    obtain ⟨v, number⟩ := valid ⟨e, List.mem_of_getElem? here, none⟩ _ (member i e here)
    have reads : parseInt (Nat.toDigits 10 i) = some v := by
      simpa [Value.getIntValue, Enumerator.recorded, none] using number
    rw [Nat.zero_add]
    exact toDigits_reads reads registry
  rw [@forall₂_readings registry (fun n => (getName n values).bind
    (Value.getIntValueMaybeResolve registry)) es 0 _ found, readings_iff madeUp, InPlace]
  simp

/-- With all enumerators among those read, these are all. -/
theorem Declares.all_read (declares : Declares lines name items es)
    (named : ∀ item ∈ items, item.1 ∈ es.map Enumerator.name) : es.map Enumerator.item = items := by
  refine declares.sublist.eq_of_length_le ?_
  have subset : items.map Prod.fst ⊆ es.map Enumerator.name := by
    intro n member
    obtain ⟨item, there, rfl⟩ := List.mem_map.mp member
    exact named item there
  have few := (List.subperm_of_subset declares.distinct subset).length_le
  rwa [List.length_map, List.length_map, ← List.length_map Enumerator.item] at few

end Values

/-! ## Two enums -/

def enumerator (name : String) (constant : Option String)
    (valid : isIdentifier name.toList = true ∧ (constant.all fun w => isWord w.toList) = true ∧
      "typedefenum__attribute__".toList.isPrefixOf name.toList = false) : Enumerator where
  name := name.toList
  constant := constant.map String.toList
  named := valid.1
  word := by
    intro w some
    obtain ⟨text, here, rfl⟩ := Option.map_eq_some_iff.mp some
    have word := valid.2.1
    rw [here] at word
    exact word
  unreserved := valid.2.2

def counting : List Enumerator :=
  [enumerator "A" none (by decide), enumerator "B" none (by decide),
    enumerator "C" (some "0x1") (by decide)]

def countingLines : List Text :=
  ["typedef enum \x7b".toList, "  A,".toList, "\tB, // the second".toList, "  C = 0x1".toList,
    "\x7d three_e;".toList]

theorem counting_declared :
    Declares countingLines "three_e".toList (counting.map Enumerator.item) counting where
  framed := ⟨_, ["  A,".toList, "\tB, // the second".toList, "  C = 0x1".toList], _, rfl,
    .typedef (by decide) (by decide),
    .enumerator (.inr (by decide)) (.enumerator (.inr (by decide))
      (.enumerator (.inl (by decide)) .nil))⟩
  distinct := by decide

def jumping : List Enumerator :=
  [enumerator "A" (some "2") (by decide), enumerator "B" none (by decide),
    enumerator "C" (some "0") (by decide)]

def jumpingLines : List Text :=
  ["typedef enum \x7b".toList, "  A = 2,".toList, "  B,".toList, "  C = 0,".toList,
    "\x7d three_e;".toList]

theorem jumping_declared :
    Declares jumpingLines "three_e".toList (jumping.map Enumerator.item) jumping where
  framed := ⟨_, ["  A = 2,".toList, "  B,".toList, "  C = 0,".toList], _, rfl,
    .typedef (by decide) (by decide),
    .enumerator (.inr (by decide)) (.enumerator (.inr (by decide))
      (.enumerator (.inr (by decide)) .nil))⟩
  distinct := by decide

/-- No macros. -/
def noMacro (_ : Text) : Int := 0

def noRegistry (_ : Text) : Option Text := none

end FomeFw.Config
