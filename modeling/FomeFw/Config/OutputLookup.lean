import Mathlib

/-! Lookup of an output by its name: the generators in Java (`OutputLookupWriter`,
`GetOutputValueConsumer`) write a C++ function, whose `switch` is over the hash of the name.
A C string is the list of its characters, without the nul at its end. -/
namespace FomeFw.Config

/-! `efilib.cpp` -/

def mytolower (c : Int) : Int := if 65 ≤ c ∧ c ≤ 90 then c - 65 + 97 else c

def strEqualCaseInsensitive (str1 str2 : List Int) : Bool :=
  if str1.length ≠ str2.length then false
  else (str1.zip str2).all fun c => mytolower c.1 == mytolower c.2

/-- `w` is the width of `unsigned long`; the result is an `int`. -/
def djb2lowerCase (w : Nat) (str : List Int) : BitVec 32 :=
  (str.foldl (fun hash c => 33 * hash + BitVec.ofInt w (mytolower c)) (BitVec.ofNat w 5381)).setWidth 32

/-! The generators -/

/-- `HashUtil.djb2lowerCase`, with the cast of a `char` to a signed `byte`. -/
def HashUtil.hash (string : List Char) : BitVec 32 :=
  string.foldl (fun hash c =>
    ((hash <<< 5) + hash) + (BitVec.ofNat 8 c.toLower.toNat).signExtend 32) 5381#32

structure VariableRecord where
  userName : List Char
  fullName : String
  conditional : Option String
deriving DecidableEq

/-- `case hash:` with its `return`, between `#if conditional` and `#endif`. -/
structure Case where
  hash : BitVec 32
  fullName : String
  conditional : Option String

/-- `if (strEqualCaseInsensitive(name, "userName"))` with its `return`. -/
structure Comparison where
  userName : List Char
  fullName : String

/-- The `switch` of a generated function, and the comparisons below it. -/
structure Lookup where
  switchBody : List Case
  getterBody : List Comparison

def getHashConflicts (getterPairs : List VariableRecord) (hash : BitVec 32) : Nat :=
  (getterPairs.filter fun pair => HashUtil.hash pair.userName = hash).length

/-- The body of the loop of `getGetters`. -/
def appendGetter (hashConflicts : BitVec 32 → Nat) (written : Lookup) (pair : VariableRecord) :
    Lookup :=
  let hash := HashUtil.hash pair.userName
  if hashConflicts hash = 1 then
    { written with switchBody := written.switchBody ++ [⟨hash, pair.fullName, pair.conditional⟩] }
  else
    { written with getterBody := written.getterBody ++ [⟨pair.userName, pair.fullName⟩] }

def getGetters (getterPairs : List VariableRecord) : Lookup :=
  getterPairs.foldl (appendGetter (getHashConflicts getterPairs)) ⟨[], []⟩

/-- The text has both parts. -/
def GetOutputValueConsumer.getContent (getterPairs : List VariableRecord) : Lookup :=
  getGetters getterPairs

/-- What `getGetters` returns is dropped: only the body of the `switch` is printed. -/
def OutputLookupWriter.endFile (getterPairs : List VariableRecord) : Lookup :=
  { getGetters getterPairs with getterBody := [] }

/-! The generated function -/

/-- The literal of a name. -/
def literal (name : List Char) : List Int := name.map fun c => (c.toNat : Int)

section Call

variable {V : Type} (w : Nat) (defined : String → Bool) (value : String → V)

/-- What the preprocessor leaves. -/
def compiled (conditional : Option String) : Bool := conditional.all defined

def Lookup.call (lookup : Lookup) (name : List Int) : Option V :=
  let hash := djb2lowerCase w name
  match lookup.switchBody.find? (fun c => compiled defined c.conditional && c.hash == hash) with
  | some c => some (value c.fullName)
  | none =>
    (lookup.getterBody.find? fun c => strEqualCaseInsensitive name (literal c.userName)).map
      fun c => value c.fullName

/-- The same name, in any letter case. -/
def Spells (name : List Int) (userName : List Char) : Prop :=
  name.map mytolower = (literal userName).map mytolower

/-- Every field that is compiled in is found under its name. -/
def Lookup.FindsEvery (lookup : Lookup) (getterPairs : List VariableRecord) : Prop :=
  ∀ pair ∈ getterPairs, compiled defined pair.conditional = true → ∀ name, Spells name pair.userName →
    lookup.call w defined value name = some (value pair.fullName)

end Call

/-- The fields a generator is given: ASCII names, none twice in whatever letter case. -/
structure DistinctNames (getterPairs : List VariableRecord) : Prop where
  ascii : ∀ pair ∈ getterPairs, ∀ c ∈ pair.userName, 0 < c.toNat ∧ c.toNat < 128
  distinct : (getterPairs.map fun pair => (literal pair.userName).map mytolower).Nodup

theorem strEqualCaseInsensitive_iff (str1 str2 : List Int) :
    strEqualCaseInsensitive str1 str2 = true ↔ str1.map mytolower = str2.map mytolower := by
  induction str1 generalizing str2 with
  | nil => cases str2 <;> simp [strEqualCaseInsensitive]
  | cons a str1 ih =>
    cases str2 with
    | nil => simp [strEqualCaseInsensitive]
    | cons b str2 =>
      specialize ih str2
      simp only [strEqualCaseInsensitive] at ih
      simp only [strEqualCaseInsensitive, List.length_cons, List.zip_cons_cons, List.all_cons,
        List.map_cons, List.cons.injEq]
      rw [← ih]
      by_cases same : str1.length = str2.length <;> simp [same]

section Hash

variable {w : Nat}

theorem isUpper_iff (c : Char) : c.isUpper ↔ 65 ≤ c.toNat ∧ c.toNat ≤ 90 := by
  simp [Char.isUpper, UInt32.le_iff_toNat_le, ← Char.toNat_val]

theorem mytolower_toNat (c : Char) : mytolower c.toNat = c.toLower.toNat := by
  by_cases upper : c.isUpper
  · rw [Char.toLower_eq_of_isUpper upper]
    obtain ⟨low, high⟩ := (isUpper_iff c).mp upper
    rw [Char.toNat_ofNat, if_pos (by left; omega), mytolower, if_pos (by omega)]
    push_cast
    omega
  · rw [Char.toLower_eq_of_not_isUpper upper, mytolower, if_neg]
    rw [isUpper_iff] at upper
    omega

theorem toLower_ascii {c : Char} (ascii : c.toNat < 128) : c.toLower.toNat < 128 := by
  have lowered := mytolower_toNat c
  rw [mytolower] at lowered
  split at lowered <;> omega

/-- The cast of a character to a `byte` loses nothing. -/
theorem signExtend_ascii {c : Nat} (ascii : c < 128) :
    (BitVec.ofNat 8 c).signExtend 32 = BitVec.ofNat 32 c := by
  rw [BitVec.signExtend_eq_setWidth_of_msb_false]
  · apply BitVec.eq_of_toNat_eq
    simp
    omega
  · rw [BitVec.msb_eq_false_iff_two_mul_lt]
    simp
    omega

/-- One round of the hash, in the wide type and in 32 bits. -/
theorem setWidth_round (wide : 32 ≤ w) (hash : BitVec w) (c : Nat) :
    (33 * hash + BitVec.ofInt w c).setWidth 32 =
      ((hash.setWidth 32) <<< 5) + hash.setWidth 32 + BitVec.ofNat 32 c := by
  have factor : (33 : BitVec w).setWidth 32 = 32#32 + 1#32 := by
    rw [show (33 : BitVec w) = BitVec.ofNat w 33 from rfl, BitVec.setWidth_ofNat_of_le wide]
    rfl
  rw [BitVec.setWidth_add _ _ wide, BitVec.setWidth_mul _ _ wide, BitVec.ofInt_natCast,
    BitVec.setWidth_ofNat_of_le wide, factor, BitVec.add_mul, BitVec.one_mul,
    BitVec.shiftLeft_eq_mul_twoPow, BitVec.mul_comm]
  rfl

/-- The hash in C++ of any spelling of a name is the hash in Java of the name. -/
theorem djb2lowerCase_eq (wide : 32 ≤ w) {userName : List Char}
    (ascii : ∀ c ∈ userName, c.toNat < 128) {name : List Int} (spells : Spells name userName) :
    djb2lowerCase w name = HashUtil.hash userName := by
  have rounds : ∀ (hash : BitVec w) (l : List Char), (∀ c ∈ l, c.toNat < 128) →
      (((literal l).map mytolower).foldl (fun hash c => 33 * hash + BitVec.ofInt w c) hash).setWidth 32
        = l.foldl (fun (hash : BitVec 32) c =>
            ((hash <<< 5) + hash) + (BitVec.ofNat 8 c.toLower.toNat).signExtend 32)
          (hash.setWidth 32) := by
    intro hash l
    induction l generalizing hash with
    | nil => exact fun _ => rfl
    | cons c l ih =>
      intro ascii
      obtain ⟨here, rest⟩ := List.forall_mem_cons.mp ascii
      have step := ih (33 * hash + BitVec.ofInt w (mytolower c.toNat)) rest
      rw [mytolower_toNat, setWidth_round wide] at step
      simpa [literal, signExtend_ascii (toLower_ascii here), mytolower_toNat] using step
  rw [djb2lowerCase, ← List.foldl_map (f := mytolower)
    (g := fun hash c => 33 * hash + BitVec.ofInt w c), spells, rounds _ _ ascii,
    BitVec.setWidth_ofNat_of_le wide]
  rfl

end Hash

section Getters

variable {getterPairs : List VariableRecord} {pair other : VariableRecord}

/-- The hash of the name is that of no other name. -/
def Alone (getterPairs : List VariableRecord) (pair : VariableRecord) : Prop :=
  ∀ other ∈ getterPairs, HashUtil.hash other.userName = HashUtil.hash pair.userName → other = pair

def VariableRecord.toCase (pair : VariableRecord) : Case :=
  ⟨HashUtil.hash pair.userName, pair.fullName, pair.conditional⟩

def VariableRecord.toComparison (pair : VariableRecord) : Comparison := ⟨pair.userName, pair.fullName⟩

/-- A name goes to the `switch` when its hash occurs once, else to the comparisons. -/
theorem getGetters_eq (getterPairs : List VariableRecord) :
    getGetters getterPairs =
      ⟨(getterPairs.filter fun p => getHashConflicts getterPairs (HashUtil.hash p.userName) = 1).map
          VariableRecord.toCase,
        (getterPairs.filter fun p => ¬ getHashConflicts getterPairs (HashUtil.hash p.userName) = 1).map
          VariableRecord.toComparison⟩ := by
  have along : ∀ (l : List VariableRecord) (written : Lookup),
      l.foldl (appendGetter (getHashConflicts getterPairs)) written =
      ⟨written.switchBody ++
          (l.filter fun p => getHashConflicts getterPairs (HashUtil.hash p.userName) = 1).map
            VariableRecord.toCase,
        written.getterBody ++
          (l.filter fun p => ¬ getHashConflicts getterPairs (HashUtil.hash p.userName) = 1).map
            VariableRecord.toComparison⟩ := by
    intro l
    induction l with
    | nil => simp
    | cons pair l ih =>
      intro written
      rw [List.foldl_cons, ih]
      by_cases once : getHashConflicts getterPairs (HashUtil.hash pair.userName) = 1
      · simp [appendGetter, once, VariableRecord.toCase]
      · simp [appendGetter, once, VariableRecord.toComparison]
  rw [getGetters, along]
  simp

theorem hashConflicts_eq_one (distinct : getterPairs.Nodup) (mem : pair ∈ getterPairs) :
    getHashConflicts getterPairs (HashUtil.hash pair.userName) = 1 ↔ Alone getterPairs pair := by
  have found : pair ∈ getterPairs.filter
      fun p => HashUtil.hash p.userName = HashUtil.hash pair.userName :=
    List.mem_filter.mpr ⟨mem, by simp⟩
  rw [getHashConflicts, List.length_eq_one_iff]
  constructor
  · rintro ⟨only, single⟩ other isMem same
    have here : other ∈ getterPairs.filter
        fun p => HashUtil.hash p.userName = HashUtil.hash pair.userName :=
      List.mem_filter.mpr ⟨isMem, by simpa using same⟩
    rw [single, List.mem_singleton] at here found
    rw [here, found]
  · intro alone
    refine ⟨pair, List.perm_singleton.mp ?_⟩
    rw [List.perm_ext_iff_of_nodup (distinct.filter _) (List.nodup_singleton _)]
    intro other
    simp only [List.mem_filter, decide_eq_true_eq, List.mem_singleton]
    constructor
    · exact fun ⟨isMem, same⟩ => alone other isMem same
    · rintro rfl
      exact ⟨mem, rfl⟩

theorem DistinctNames.nodup (names : DistinctNames getterPairs) : getterPairs.Nodup :=
  names.distinct.of_map _

theorem DistinctNames.eq (names : DistinctNames getterPairs) (mem : pair ∈ getterPairs)
    (other_mem : other ∈ getterPairs)
    (same : (literal other.userName).map mytolower = (literal pair.userName).map mytolower) :
    other = pair :=
  List.inj_on_of_nodup_map names.distinct other_mem mem same

theorem find?_of_unique {A : Type} {l : List A} {p : A → Bool} {a : A} (mem : a ∈ l) (holds : p a = true)
    (unique : ∀ b ∈ l, p b = true → b = a) : l.find? p = some a := by
  cases found : l.find? p with
  | none => exact absurd holds (List.find?_eq_none.mp found a mem)
  | some b => rw [unique b (List.mem_of_find?_eq_some found) (List.find?_some found)]

end Getters

section Calls

variable {V : Type} {w : Nat} {defined : String → Bool} {value : String → V}
  {getterPairs : List VariableRecord} {pair : VariableRecord} {name : List Int}

theorem mem_switchBody (names : DistinctNames getterPairs) {c : Case} :
    c ∈ (getGetters getterPairs).switchBody ↔
      ∃ p ∈ getterPairs, Alone getterPairs p ∧ p.toCase = c := by
  rw [getGetters_eq]
  simp only [List.mem_map, List.mem_filter, decide_eq_true_eq, and_assoc]
  refine exists_congr fun p => and_congr_right fun mem => ?_
  rw [hashConflicts_eq_one names.nodup mem]

theorem mem_getterBody (names : DistinctNames getterPairs) {c : Comparison} :
    c ∈ (getGetters getterPairs).getterBody ↔
      ∃ p ∈ getterPairs, ¬ Alone getterPairs p ∧ p.toComparison = c := by
  rw [getGetters_eq]
  simp only [List.mem_map, List.mem_filter, decide_eq_true_eq, and_assoc]
  refine exists_congr fun p => and_congr_right fun mem => ?_
  rw [hashConflicts_eq_one names.nodup mem]

/-- A name with a hash of its own is found in the `switch`. -/
theorem find_switch (wide : 32 ≤ w) (names : DistinctNames getterPairs) (mem : pair ∈ getterPairs)
    (alone : Alone getterPairs pair) (active : compiled defined pair.conditional = true)
    (spells : Spells name pair.userName) :
    (getGetters getterPairs).switchBody.find?
      (fun c => compiled defined c.conditional && c.hash == djb2lowerCase w name) =
        some pair.toCase := by
  rw [djb2lowerCase_eq wide (fun c hc => (names.ascii pair mem c hc).2) spells]
  apply find?_of_unique
  · exact (mem_switchBody names).mpr ⟨pair, mem, alone, rfl⟩
  · simp [VariableRecord.toCase, active]
  · intro c hc matched
    obtain ⟨p, p_mem, -, rfl⟩ := (mem_switchBody names).mp hc
    rw [Bool.and_eq_true, beq_iff_eq] at matched
    rw [alone p p_mem matched.2]

/-- Other names are not found in the `switch`. -/
theorem find_switch_none (wide : 32 ≤ w) (names : DistinctNames getterPairs)
    (mem : pair ∈ getterPairs) (shared : ¬ Alone getterPairs pair)
    (spells : Spells name pair.userName) :
    (getGetters getterPairs).switchBody.find?
      (fun c => compiled defined c.conditional && c.hash == djb2lowerCase w name) = none := by
  rw [djb2lowerCase_eq wide (fun c hc => (names.ascii pair mem c hc).2) spells, List.find?_eq_none]
  intro c hc matched
  obtain ⟨p, p_mem, p_alone, rfl⟩ := (mem_switchBody names).mp hc
  rw [Bool.and_eq_true, beq_iff_eq] at matched
  obtain rfl := p_alone pair mem matched.2.symm
  exact shared p_alone

/-- They are found among the comparisons. -/
theorem find_comparison (names : DistinctNames getterPairs) (mem : pair ∈ getterPairs)
    (shared : ¬ Alone getterPairs pair) (spells : Spells name pair.userName) :
    (getGetters getterPairs).getterBody.find?
      (fun c => strEqualCaseInsensitive name (literal c.userName)) = some pair.toComparison := by
  apply find?_of_unique
  · exact (mem_getterBody names).mpr ⟨pair, mem, shared, rfl⟩
  · rw [strEqualCaseInsensitive_iff]
    exact spells
  · intro c hc matched
    obtain ⟨p, p_mem, -, rfl⟩ := (mem_getterBody names).mp hc
    rw [strEqualCaseInsensitive_iff, spells] at matched
    rw [names.eq mem p_mem matched.symm]

theorem getContent_findsEvery (wide : 32 ≤ w) (names : DistinctNames getterPairs) :
    (GetOutputValueConsumer.getContent getterPairs).FindsEvery w defined value getterPairs := by
  intro pair mem active name spells
  rw [GetOutputValueConsumer.getContent, Lookup.call]
  by_cases alone : Alone getterPairs pair
  · simp only [find_switch wide names mem alone active spells, VariableRecord.toCase]
  · simp only [find_switch_none wide names mem alone spells, find_comparison names mem alone spells,
      VariableRecord.toComparison, Option.map_some]

/-- With the comparisons dropped, a name is found only when its hash is that of no other name. -/
theorem endFile_call_isSome (wide : 32 ≤ w) (names : DistinctNames getterPairs)
    (mem : pair ∈ getterPairs) (active : compiled defined pair.conditional = true)
    (spells : Spells name pair.userName) :
    (OutputLookupWriter.endFile getterPairs).call w defined value name = some (value pair.fullName) ↔
      Alone getterPairs pair := by
  rw [OutputLookupWriter.endFile, Lookup.call]
  by_cases alone : Alone getterPairs pair
  · simp only [find_switch wide names mem alone active spells, VariableRecord.toCase, alone]
  · simp [find_switch_none wide names mem alone spells, alone]

/-- `GetOutputValueConsumer` writes a function that finds every field, `OutputLookupWriter` only
when no name that is compiled in shares its hash with another. -/
theorem generated_findsEvery (wide : 32 ≤ w) (names : DistinctNames getterPairs) :
    (GetOutputValueConsumer.getContent getterPairs).FindsEvery w defined value getterPairs ∧
    ((OutputLookupWriter.endFile getterPairs).FindsEvery w defined value getterPairs ↔
      ∀ pair ∈ getterPairs, compiled defined pair.conditional = true → Alone getterPairs pair) := by
  constructor
  · exact getContent_findsEvery wide names
  · constructor
    · intro finds pair mem active
      have found := finds pair mem active (literal pair.userName) rfl
      exact (endFile_call_isSome wide names mem active rfl).mp found
    · intro alone pair mem active name spells
      exact (endFile_call_isSome wide names mem active spells).mpr (alone pair mem active)

end Calls

/-- Two names with one hash. -/
def colliding : List VariableRecord :=
  [⟨['a', 'r'], "engine->outputChannels.ar", none⟩, ⟨['c', '0'], "engine->outputChannels.c0", none⟩]

theorem colliding_distinct : DistinctNames colliding := by
  constructor
  · simp [colliding]
  · simp [colliding, literal, mytolower]

theorem generated_findsEvery_colliding :
    (GetOutputValueConsumer.getContent colliding).FindsEvery 32 (fun _ => true) id colliding ∧
    ((OutputLookupWriter.endFile colliding).FindsEvery 32 (fun _ => true) id colliding ↔
      ∀ pair ∈ colliding, compiled (fun _ => true) pair.conditional = true → Alone colliding pair) :=
  generated_findsEvery (by decide) colliding_distinct

/-- Neither is found. -/
theorem colliding_notFound :
    DistinctNames colliding ∧
    ¬ (OutputLookupWriter.endFile colliding).FindsEvery 32 (fun _ => true) id colliding := by
  refine ⟨colliding_distinct, fun finds => ?_⟩
  have found := finds _ (List.mem_cons_self) rfl (literal ['a', 'r']) rfl
  revert found
  decide

end FomeFw.Config
