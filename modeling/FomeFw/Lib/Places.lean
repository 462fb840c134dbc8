import Mathlib.Data.List.Nodup
import Mathlib.Data.List.Perm.Subperm

/-! A table with a fixed number of places. A holder takes the first free place and keeps it when
its value changes. -/
namespace FomeFw

variable {S V : Type} [DecidableEq S]

abbrev Places (S V : Type) := List (Option (S × V))

namespace Places

variable {t : Places S V} {s x : S} {v w : V} {new : Option (S × V)}

/-- The first place that satisfies the condition is set, if there is one. -/
def setFirst (p : Option (S × V) → Bool) (new : Option (S × V)) : Places S V → Places S V
  | [] => []
  | place :: t => if p place then new :: t else place :: setFirst p new t

def holders (t : Places S V) : List S := t.filterMap (Option.map Prod.fst)

def heldBy (s : S) (place : Option (S × V)) : Bool := decide (place.map Prod.fst = some s)

/-- A holder that is not in the table gets no place where the table is full. -/
def put (s : S) (v : V) (t : Places S V) : Places S V :=
  if s ∈ t.holders then t.setFirst (heldBy s) (some (s, v))
  else t.setFirst Option.isNone (some (s, v))

def drop (s : S) (t : Places S V) : Places S V := t.setFirst (heldBy s) none

def putAll (asks : List (S × V)) (t : Places S V) : Places S V :=
  asks.foldl (fun t ask => t.put ask.1 ask.2) t

/-- The value of the first place that the holder has. -/
def find (s : S) (t : Places S V) : Option V :=
  t.findSome? fun place => place.bind fun pair => if pair.1 = s then some pair.2 else none

def Holds (t : Places S V) (s : S) (v : V) : Prop := some (s, v) ∈ t

def Distinct (t : Places S V) : Prop := t.holders.Nodup

section Lists

omit [DecidableEq S]

theorem setFirst_cases (p : Option (S × V) → Bool) (new : Option (S × V)) (t : Places S V) :
    (t.setFirst p new = t ∧ ∀ place ∈ t, p place = false) ∨
      ∃ front place back, t = front ++ place :: back ∧ p place = true ∧
        t.setFirst p new = front ++ new :: back := by
  induction t with
  | nil => exact .inl ⟨rfl, fun _ member => nomatch member⟩
  | cons place t ih =>
    rw [setFirst]
    by_cases found : p place = true
    · exact .inr ⟨[], place, t, rfl, found, if_pos found⟩
    rw [if_neg found]
    rcases ih with ⟨same, none⟩ | ⟨front, place', back, rfl, found', same⟩
    · refine .inl ⟨by rw [same], ?_⟩
      intro place' member
      rcases List.mem_cons.mp member with rfl | later
      · exact Bool.eq_false_iff.mpr found
      · exact none place' later
    · exact .inr ⟨place :: front, place', back, rfl, found', by rw [same, List.cons_append]⟩

theorem length_setFirst (p : Option (S × V) → Bool) : (t.setFirst p new).length = t.length := by
  rcases setFirst_cases p new t with ⟨same, -⟩ | ⟨front, place, back, rfl, -, same⟩
  · rw [same]
  · simp [same]

theorem mem_holders : s ∈ t.holders ↔ ∃ v, t.Holds s v := by
  constructor
  · intro member
    obtain ⟨place, within, named⟩ := List.mem_filterMap.mp member
    obtain ⟨⟨x, v⟩, rfl, rfl⟩ := Option.map_eq_some_iff.mp named
    exact ⟨v, within⟩
  · rintro ⟨v, holds⟩
    exact List.mem_filterMap.mpr ⟨_, holds, rfl⟩

theorem holders_append (front back : Places S V) :
    holders (front ++ new :: back) =
      front.holders ++ (new.map Prod.fst).toList ++ back.holders := by
  cases new <;> simp [holders]

theorem holds_middle {front back : Places S V} :
    Holds (front ++ new :: back) x w ↔ new = some (x, w) ∨ Holds (front ++ back) x w := by
  simp only [Holds, List.mem_append, List.mem_cons]
  grind

/-- Beside the place of a holder no other one holds it. -/
theorem Distinct.elsewhere {front back : Places S V}
    (distinct : Distinct (front ++ some (s, w) :: back)) : ¬Holds (front ++ back) s v := by
  intro holds
  have twice : s ∈ front.holders ++ back.holders := by
    have member := mem_holders.mpr ⟨v, holds⟩
    rwa [holders, List.filterMap_append] at member
  rw [Distinct, holders_append, Option.map_some, Option.toList_some, List.append_assoc] at distinct
  exact (List.nodup_middle.mp distinct).notMem twice

theorem Distinct.unique (distinct : t.Distinct) (one : t.Holds s v) (two : t.Holds s w) : v = w := by
  obtain ⟨front, back, rfl⟩ := List.append_of_mem one
  rcases holds_middle.mp two with same | other
  · exact (Prod.mk.inj (Option.some.inj same)).2
  · exact absurd other distinct.elsewhere

theorem length_holders_le : t.holders.length ≤ t.length := List.length_filterMap_le _ _

/-- A table that is not full has a free place. -/
theorem none_mem_of_length (room : t.holders.length < t.length) : none ∈ t := by
  induction t with
  | nil => simp at room
  | cons place t ih =>
    cases place with
    | none => exact List.mem_cons_self
    | some pair =>
      refine List.mem_cons_of_mem _ (ih ?_)
      simpa [holders] using room

theorem length_holders_lt (free : none ∈ t) : t.holders.length < t.length := by
  obtain ⟨front, back, rfl⟩ := List.append_of_mem free
  have left := @length_holders_le S V front
  have right := @length_holders_le S V back
  rw [holders_append]
  simp only [Option.map_none, Option.toList_none, List.append_nil, List.length_append, List.length_cons]
  omega

end Lists

@[simp] theorem heldBy_iff {place : Option (S × V)} :
    heldBy s place = true ↔ ∃ v, place = some (s, v) := by
  cases place with
  | none => simp [heldBy]
  | some pair => simp [heldBy, Prod.ext_iff]

theorem holds_of_find (found : t.find s = some v) : t.Holds s v := by
  obtain ⟨place, member, value⟩ := List.exists_of_findSome?_eq_some found
  obtain ⟨⟨x, w⟩, rfl, here⟩ := Option.bind_eq_some_iff.mp value
  by_cases same : x = s
  · rw [if_pos same] at here
    obtain rfl := same
    obtain rfl := Option.some.inj here
    exact member
  · rw [if_neg same] at here
    contradiction

theorem find_eq_none : t.find s = none ↔ s ∉ t.holders := by
  rw [find, List.findSome?_eq_none_iff, mem_holders]
  constructor
  · rintro none ⟨v, holds⟩
    simpa using none _ holds
  · intro absent place member
    rcases place with _ | ⟨x, w⟩
    · rfl
    · by_cases same : x = s
      · exact absurd ⟨w, same ▸ member⟩ absent
      · simp [same]

theorem Distinct.find_iff (distinct : t.Distinct) : t.find s = some v ↔ t.Holds s v := by
  refine ⟨holds_of_find, ?_⟩
  intro holds
  cases found : t.find s with
  | none => exact absurd (mem_holders.mpr ⟨v, holds⟩) (find_eq_none.mp found)
  | some w => rw [distinct.unique holds (holds_of_find found)]

/-- The first place of a holder is left as it is by its own value. -/
theorem put_of_find (found : t.find s = some v) : t.put s v = t := by
  have member : s ∈ t.holders := mem_holders.mpr ⟨v, holds_of_find found⟩
  rw [put, if_pos member]
  clear member
  induction t with
  | nil => rfl
  | cons place t ih =>
    rw [setFirst]
    by_cases here : heldBy s place = true
    · obtain ⟨w, rfl⟩ := heldBy_iff.mp here
      rw [find, List.findSome?_cons] at found
      simp only [Option.bind_some, if_true, Option.some.injEq] at found
      rw [if_pos here, found]
    · rw [if_neg here, ih]
      rw [find, List.findSome?_cons] at found
      rcases place with _ | ⟨x, w⟩
      · exact found
      · by_cases same : x = s
        · exact absurd (heldBy_iff.mpr ⟨w, by rw [same]⟩) here
        · simpa [find, same] using found

@[simp] theorem length_put : (t.put s v).length = t.length := by
  rw [put]
  split <;> exact length_setFirst _

@[simp] theorem length_drop : (t.drop s).length = t.length := length_setFirst _

/-- The place of a holder, in the middle of the table. -/
theorem setFirst_heldBy (member : s ∈ t.holders) (new : Option (S × V)) :
    ∃ front w back, t = front ++ some (s, w) :: back ∧
      t.setFirst (heldBy s) new = front ++ new :: back := by
  rcases setFirst_cases (heldBy s) new t with ⟨-, none⟩ | ⟨front, place, back, shape, found, same⟩
  · obtain ⟨w, holds⟩ := mem_holders.mp member
    exact absurd (none _ holds) (by simp)
  · obtain ⟨w, rfl⟩ := heldBy_iff.mp found
    exact ⟨front, w, back, shape, same⟩

theorem holds_put_of_mem (distinct : t.Distinct) (member : s ∈ t.holders) :
    (t.put s v).Holds x w ↔ (x = s ∧ w = v) ∨ (x ≠ s ∧ t.Holds x w) := by
  obtain ⟨front, old, back, rfl, same⟩ := setFirst_heldBy member (some (s, v))
  rw [put, if_pos member, same, holds_middle, holds_middle]
  have apart : ∀ {u : V}, ¬Holds (front ++ back) s u := distinct.elsewhere
  grind

theorem put_free (fresh : s ∉ t.holders) (free : none ∈ t) :
    ∃ front back, t = front ++ none :: back ∧ t.put s v = front ++ some (s, v) :: back := by
  rw [put, if_neg fresh]
  rcases setFirst_cases Option.isNone (some (s, v)) t with ⟨-, all⟩ | ⟨front, place, back, shape, found, same⟩
  · exact absurd (all none free) (by simp)
  · obtain rfl := Option.isNone_iff_eq_none.mp found
    exact ⟨front, back, shape, same⟩

theorem holds_put_of_free (fresh : s ∉ t.holders) (free : none ∈ t) :
    (t.put s v).Holds x w ↔ (x = s ∧ w = v) ∨ t.Holds x w := by
  obtain ⟨front, back, rfl, same⟩ := @put_free _ _ _ t s v fresh free
  rw [same, holds_middle, holds_middle]
  grind

theorem put_of_full (fresh : s ∉ t.holders) (full : none ∉ t) : t.put s v = t := by
  rw [put, if_neg fresh]
  rcases setFirst_cases Option.isNone (some (s, v)) t with ⟨same, -⟩ | ⟨front, place, back, rfl, found, -⟩
  · exact same
  · obtain rfl := Option.isNone_iff_eq_none.mp found
    exact absurd (by simp) full

theorem Distinct.put (distinct : t.Distinct) : (t.put s v).Distinct := by
  by_cases member : s ∈ t.holders
  · obtain ⟨front, old, back, rfl, same⟩ := setFirst_heldBy member (some (s, v))
    rw [Places.put, if_pos member, same, Distinct, holders_append]
    rw [Distinct, holders_append] at distinct
    exact distinct
  by_cases free : none ∈ t
  · obtain ⟨front, back, rfl, same⟩ := @put_free _ _ _ t s v member free
    rw [holders_append] at member
    rw [Distinct, holders_append] at distinct
    rw [same, Distinct, holders_append, Option.map_some, Option.toList_some, List.append_assoc]
    simp only [Option.map_none, Option.toList_none, List.append_nil] at member distinct
    exact List.nodup_middle.mpr (List.nodup_cons.mpr ⟨member, distinct⟩)
  · rw [put_of_full member free]
    exact distinct

theorem Distinct.drop (distinct : t.Distinct) : (t.drop s).Distinct := by
  rcases setFirst_cases (heldBy s) none t with ⟨same, -⟩ | ⟨front, place, back, rfl, -, same⟩
  · rw [Places.drop, same]
    exact distinct
  · rw [Distinct, holders_append] at distinct
    rw [Places.drop, same, Distinct, holders_append]
    refine distinct.sublist ?_
    simp

theorem holds_drop (distinct : t.Distinct) : (t.drop s).Holds x w ↔ x ≠ s ∧ t.Holds x w := by
  by_cases member : s ∈ t.holders
  · obtain ⟨front, old, back, rfl, same⟩ := setFirst_heldBy member none
    rw [drop, same, holds_middle, holds_middle]
    have apart : ∀ {u : V}, ¬Holds (front ++ back) s u := distinct.elsewhere
    grind
  · have absent : ∀ {u : V}, ¬t.Holds s u := fun holds => member (mem_holders.mpr ⟨_, holds⟩)
    rcases setFirst_cases (heldBy s) none t with ⟨same, -⟩ | ⟨front, place, back, rfl, found, -⟩
    · rw [drop, same]
      grind
    · obtain ⟨u, rfl⟩ := heldBy_iff.mp found
      exact absurd (holds_middle.mpr (.inl rfl)) (absent (u := u))

section Runs

variable {asks wanted done rest : List (S × V)} {ask : S × V}

@[simp] theorem putAll_nil : t.putAll [] = t := rfl

@[simp] theorem putAll_cons : t.putAll (ask :: asks) = (t.put ask.1 ask.2).putAll asks := rfl

@[simp] theorem length_putAll : (t.putAll asks).length = t.length := by
  induction asks generalizing t with
  | nil => rfl
  | cons ask asks ih =>
    rw [putAll, List.foldl_cons]
    exact ih.trans length_put

theorem putAll_append (more : List (S × V)) :
    t.putAll (asks ++ more) = (t.putAll asks).putAll more := List.foldl_append

omit [DecidableEq S] in
@[simp] theorem holders_replicate (n : Nat) :
    holders (List.replicate n (none : Option (S × V))) = [] := by
  simp [holders]

theorem Distinct.putAll (distinct : t.Distinct) : (t.putAll asks).Distinct := by
  induction asks generalizing t with
  | nil => exact distinct
  | cons ask asks ih => exact ih distinct.put

/-- A holder keeps its place, if not its value. -/
theorem holders_subset_putAll (distinct : t.Distinct) : t.holders ⊆ (t.putAll asks).holders := by
  induction asks generalizing t with
  | nil => exact List.Subset.refl _
  | cons ask asks ih =>
    rw [putAll, List.foldl_cons]
    refine List.Subset.trans ?_ (ih distinct.put)
    intro x member
    obtain ⟨w, holds⟩ := mem_holders.mp member
    by_cases same : ask.1 ∈ t.holders
    · by_cases self : x = ask.1
      · exact mem_holders.mpr ⟨ask.2, (holds_put_of_mem distinct same).mpr (.inl ⟨self, rfl⟩)⟩
      · exact mem_holders.mpr ⟨w, (holds_put_of_mem distinct same).mpr (.inr ⟨self, holds⟩)⟩
    by_cases free : none ∈ t
    · exact mem_holders.mpr ⟨w, (holds_put_of_free same free).mpr (.inr holds)⟩
    · rw [put_of_full same free]
      exact member

/-- Some of those that ask are wanted, nothing else is held, and what has asked so far is held
with its value if it is wanted. -/
structure Filled (wanted : List (S × V)) (t : Places S V) (done : List (S × V)) : Prop where
  distinct : t.Distinct
  within : t.holders ⊆ wanted.map Prod.fst
  held : ∀ ask ∈ done, ask ∈ wanted → t.Holds ask.1 ask.2

omit [DecidableEq S] in
/-- There is a free place for one that is wanted and not held. -/
theorem Filled.free (filled : Filled wanted t done) (small : wanted.length ≤ t.length)
    (want : ask ∈ wanted) (fresh : ask.1 ∉ t.holders) : none ∈ t := by
  apply none_mem_of_length
  have distinct : (ask.1 :: t.holders).Nodup := List.nodup_cons.mpr ⟨fresh, filled.distinct⟩
  have within : ask.1 :: t.holders ⊆ wanted.map Prod.fst :=
    List.cons_subset.mpr ⟨List.mem_map_of_mem want, filled.within⟩
  have bound := (distinct.subperm within).length_le
  simp only [List.length_cons, List.length_map] at bound
  omega

omit [DecidableEq S] in
/-- The table is full where as many have asked as there are places. -/
theorem Filled.full (filled : Filled (done.take t.length) t done)
    (distinct : (done.map Prod.fst).Nodup) (enough : t.length ≤ done.length) : none ∉ t := by
  intro free
  have held : (done.take t.length).map Prod.fst ⊆ t.holders := by
    intro x member
    obtain ⟨ask, want, rfl⟩ := List.mem_map.mp member
    exact mem_holders.mpr ⟨_, filled.held ask (List.mem_of_mem_take want) want⟩
  have taken : ((done.take t.length).map Prod.fst).Nodup := by
    rw [List.map_take]
    exact distinct.sublist (List.take_sublist _ _)
  have bound := (taken.subperm held).length_le
  have short := length_holders_lt free
  simp only [List.length_map, List.length_take] at bound
  omega

theorem Filled.put (filled : Filled ((done ++ ask :: rest).take t.length) t done)
    (distinct : ((done ++ ask :: rest).map Prod.fst).Nodup) :
    Filled ((done ++ ask :: rest).take t.length) (t.put ask.1 ask.2) (done ++ [ask]) := by
  have apart : ∀ other ∈ done, other.1 ≠ ask.1 := by
    intro other member same
    rw [List.map_append, List.map_cons] at distinct
    have others := (List.nodup_append.mp distinct).2.2 _ (List.mem_map_of_mem member)
    exact others _ List.mem_cons_self same
  by_cases member : ask.1 ∈ t.holders
  · refine ⟨filled.distinct.put, ?_, ?_⟩
    · intro x held
      obtain ⟨w, holds⟩ := mem_holders.mp held
      rcases (holds_put_of_mem filled.distinct member).mp holds with ⟨rfl, -⟩ | ⟨-, old⟩
      · exact filled.within member
      · exact filled.within (mem_holders.mpr ⟨w, old⟩)
    · intro other asked want
      rw [holds_put_of_mem filled.distinct member]
      rcases List.mem_append.mp asked with before | now
      · exact .inr ⟨apart other before, filled.held other before want⟩
      · obtain rfl := List.mem_singleton.mp now
        exact .inl ⟨rfl, rfl⟩
  by_cases want : ask ∈ (done ++ ask :: rest).take t.length
  · have free := filled.free (List.length_take_le _ _) want member
    refine ⟨filled.distinct.put, ?_, ?_⟩
    · intro x held
      obtain ⟨w, holds⟩ := mem_holders.mp held
      rcases (holds_put_of_free member free).mp holds with ⟨rfl, -⟩ | old
      · exact List.mem_map_of_mem want
      · exact filled.within (mem_holders.mpr ⟨w, old⟩)
    · intro other asked wanted
      rw [holds_put_of_free member free]
      rcases List.mem_append.mp asked with before | now
      · exact .inr (filled.held other before wanted)
      · obtain rfl := List.mem_singleton.mp now
        exact .inl ⟨rfl, rfl⟩
  · -- what is not wanted comes after enough others to fill the table
    have enough : t.length ≤ done.length := by
      by_contra short
      obtain ⟨k, length⟩ := Nat.exists_eq_add_of_lt (Nat.lt_of_not_ge short)
      apply want
      rw [List.take_append, show t.length - done.length = k + 1 by omega, List.take_succ_cons]
      exact List.mem_append_right _ List.mem_cons_self
    rw [List.take_append_of_le_length enough] at filled want ⊢
    have front : (done.map Prod.fst).Nodup := by
      rw [List.map_append] at distinct
      exact (List.nodup_append.mp distinct).1
    rw [put_of_full member (filled.full front enough)]
    refine ⟨filled.distinct, filled.within, ?_⟩
    intro other asked wanted
    rcases List.mem_append.mp asked with before | now
    · exact filled.held other before wanted
    · obtain rfl := List.mem_singleton.mp now
      exact absurd wanted want

theorem Filled.putAll (filled : Filled ((done ++ rest).take t.length) t done)
    (distinct : ((done ++ rest).map Prod.fst).Nodup) :
    Filled ((done ++ rest).take t.length) (t.putAll rest) (done ++ rest) := by
  induction rest generalizing t done with
  | nil => simpa [Places.putAll] using filled
  | cons ask rest ih =>
    have next := filled.put distinct
    rw [List.append_cons] at next distinct
    rw [List.append_cons, Places.putAll, List.foldl_cons]
    have length : (t.put ask.1 ask.2).length = t.length := length_put
    rw [← length] at next ⊢
    exact ih next distinct

/-- The first that ask, as many as there are places, end up in the table just when nobody else
was in it. -/
theorem holds_putAll_iff (start : t.Distinct) (distinct : (asks.map Prod.fst).Nodup) :
    (∀ s v, (t.putAll asks).Holds s v ↔ (s, v) ∈ asks.take t.length) ↔
      t.holders ⊆ (asks.take t.length).map Prod.fst := by
  constructor
  · intro same x member
    obtain ⟨v, holds⟩ := mem_holders.mp (holders_subset_putAll start member)
    exact List.mem_map_of_mem ((same x v).mp holds)
  · intro within s v
    have start : Filled (([] ++ asks).take t.length) t [] := ⟨start, within, fun _ member => nomatch member⟩
    obtain ⟨distinct', inside, held⟩ := start.putAll distinct
    constructor
    · intro holds
      obtain ⟨⟨s', v'⟩, want, rfl⟩ := List.mem_map.mp (inside (mem_holders.mpr ⟨v, holds⟩))
      rw [distinct'.unique holds (held _ (List.mem_of_mem_take want) want)]
      exact want
    · intro want
      exact held _ (List.mem_of_mem_take want) want

end Runs

end Places

end FomeFw
