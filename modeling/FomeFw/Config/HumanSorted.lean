import FomeFw.Lib.SortedMap
import Mathlib.Data.List.Nodup
import Mathlib.Data.String.Basic
import Mathlib.Order.WithBot

/-! The drop-down lists of the tuning software: which options their texts keep. -/
namespace FomeFw.Config

/-- A `Map<Integer, String>`: its keys in the order in which it is gone through, and their names.
Names are ordered as `String.compareTo` orders them. -/
structure OptionMap (Name : Type) where
  ids : List Int
  distinct : ids.Nodup
  name : Int → Name

namespace OptionMap

variable {Name : Type}

def entries (m : OptionMap Name) : List (Int × Name) := m.ids.map fun id => (id, m.name id)

/-- Where an option belongs: 0 before all names. -/
def rank (m : OptionMap Name) (id : Int) : WithBot Name := if id = 0 then ⊥ else m.name id

@[simp] theorem rank_zero (m : OptionMap Name) : m.rank 0 = ⊥ := if_pos rfl

theorem rank_of_ne (m : OptionMap Name) {o : Int} (other : o ≠ 0) : m.rank o = m.name o :=
  if_neg other

/-- Apart from 0, options of one name have one place. -/
theorem rank_ne_iff (m : OptionMap Name) (different : a ≠ b) :
    m.rank a ≠ m.rank b ↔ (a ≠ 0 → b ≠ 0 → m.name a ≠ m.name b) := by
  by_cases first : a = 0
  · subst first
    rw [rank_zero, rank_of_ne m (Ne.symm different)]
    simp
  · by_cases second : b = 0
    · subst second
      rw [rank_zero, rank_of_ne m first]
      simp
    · rw [rank_of_ne m first, rank_of_ne m second]
      simp [first, second]

theorem places_iff (m : OptionMap Name) : (m.entries.Pairwise fun a b => m.rank a.1 ≠ m.rank b.1) ↔
    ((m.ids.filter (· ≠ 0)).map m.name).Nodup := by
  rw [entries, List.pairwise_map, List.Nodup, List.pairwise_map, List.pairwise_filter]
  simp only [decide_eq_true_eq]
  constructor
  · intro places
    exact (places.and m.distinct).imp fun both => (m.rank_ne_iff both.2).mp both.1
  · intro names
    exact (names.and m.distinct).imp fun both => (m.rank_ne_iff both.2).mpr both.1

variable [LinearOrder Name]

/-- The comparator of `getHumanSortedTsKeyValueString`. -/
def compareIds (valueNameById : OptionMap Name) (o1 o2 : Int) : Ordering :=
  if o1 = o2 then .eq
  else if o1 = 0 then .lt
  else if o2 = 0 then .gt
  else compare (valueNameById.name o1) (valueNameById.name o2)

def humanDropDownSorted (valueNameById : OptionMap Name) : List (Int × Name) :=
  SortedMap.putAll valueNameById.compareIds [] valueNameById.entries

def quote (string : String) : String := "\"" ++ string ++ "\""

def appendCommaIfNeeded (sb : String) : String := if sb.length > 0 then sb ++ "," else sb

def getHumanSortedTsKeyValueString (text : Name → String) (valueNameById : OptionMap Name) : String :=
  valueNameById.humanDropDownSorted.foldl
    (fun sb e => appendCommaIfNeeded sb ++ toString e.1 ++ "=" ++ quote (text e.2)) ""

/-- What is printed is each option once, under its own name, the option 0 first and the others
in the order of their names. -/
structure KeepsOptions (valueNameById : OptionMap Name) : Prop where
  same : valueNameById.humanDropDownSorted.Perm valueNameById.entries
  sorted : valueNameById.humanDropDownSorted.Pairwise fun a b => a.1 = 0 ∨ b.1 ≠ 0 ∧ a.2 ≤ b.2

theorem compareIds_ranks (m : OptionMap Name) : SortedMap.Ranks m.compareIds m.rank := by
  intro a b
  rw [compareIds]
  split
  · next same => rw [same, compare_eq_iff_eq.mpr rfl]
  · next different =>
    split
    · next first =>
      subst first
      have above : m.rank 0 < m.rank b := by
        rw [rank_zero, rank_of_ne m (Ne.symm different)]
        exact WithBot.bot_lt_coe _
      rw [compare_lt_iff_lt.mpr above]
    · next one =>
      split
      · next second =>
        subst second
        have above : m.rank 0 < m.rank a := by
          rw [rank_zero, rank_of_ne m one]
          exact WithBot.bot_lt_coe _
        rw [compare_gt_iff_gt.mpr above]
      · next other =>
        rw [rank_of_ne m one, rank_of_ne m other]
        rcases lt_trichotomy (m.name a) (m.name b) with less | equal | more
        · rw [compare_lt_iff_lt.mpr less, compare_lt_iff_lt.mpr (WithBot.coe_lt_coe.mpr less)]
        · rw [compare_eq_iff_eq.mpr equal, compare_eq_iff_eq.mpr (congrArg _ equal)]
        · rw [compare_gt_iff_gt.mpr more, compare_gt_iff_gt.mpr (WithBot.coe_lt_coe.mpr more)]

theorem ascending (m : OptionMap Name) : SortedMap.Ascending m.rank m.humanDropDownSorted :=
  SortedMap.putAll_ascending m.compareIds_ranks List.Pairwise.nil

/-- Every option is kept just when no two of them, apart from 0, have one name. -/
theorem keepsOptions_iff (m : OptionMap Name) :
    m.KeepsOptions ↔ ((m.ids.filter (· ≠ 0)).map m.name).Nodup := by
  rw [← places_iff]
  constructor
  · intro keeps
    have symmetric : ∀ {a b : Int × Name}, m.rank a.1 ≠ m.rank b.1 → m.rank b.1 ≠ m.rank a.1 := Ne.symm
    exact (keeps.same.pairwise_iff symmetric).mp (m.ascending.imp ne_of_lt)
  · intro different
    have same : m.humanDropDownSorted.Perm m.entries :=
      SortedMap.putAll_perm m.compareIds_ranks different
    refine ⟨same, m.ascending.imp_of_mem ?_⟩
    intro a b first second less
    have own : ∀ e ∈ m.humanDropDownSorted, e.2 = m.name e.1 := by
      intro e member
      obtain ⟨id, -, rfl⟩ := List.mem_map.mp (same.mem_iff.mp member)
      rfl
    by_cases zero : a.1 = 0
    · exact .inl zero
    · right
      have other : b.1 ≠ 0 := by
        intro none
        rw [none, rank_zero] at less
        exact absurd less not_lt_bot
      rw [rank_of_ne m zero, rank_of_ne m other, WithBot.coe_lt_coe] at less
      rw [own a first, own b second]
      exact ⟨other, less.le⟩

example : (OptionMap.getHumanSortedTsKeyValueString id ⟨[0, 1, 2, 3], by decide, fun i =>
    if i = 0 then "NONE" else if i = 1 then "A" else if i = 2 then "Z" else "N"⟩) =
      "0=\"NONE\",1=\"A\",3=\"N\",2=\"Z\"" := by decide

/-- `pinMap` of `enumToOptionsList`, which its lists of pins come from: the pin 0 is called NONE,
and there is no option for a pin without a name. -/
def pinMap (none : Name) (values : List (Option Name)) : OptionMap Name where
  ids := ((List.range values.length).filter fun i => i = 0 ∨ (values.getD i .none).isSome).map Int.ofNat
  distinct := (List.nodup_range.filter _).map fun _ _ => Int.ofNat.inj
  name := fun i => if i = 0 then none else (values.getD i.toNat .none).getD none

/-- Two pins of one name. -/
theorem pinMap_collapses :
    (pinMap "NONE" [some "-", some "AV1", some "AV1"]).entries = [(0, "NONE"), (1, "AV1"), (2, "AV1")] ∧
      (pinMap "NONE" [some "-", some "AV1", some "AV1"]).humanDropDownSorted =
        [(0, "NONE"), (1, "AV1")] ∧
      ¬ (pinMap "NONE" [some "-", some "AV1", some "AV1"]).KeepsOptions := by
  refine ⟨by decide, by decide, ?_⟩
  rw [keepsOptions_iff]
  decide

end OptionMap

end FomeFw.Config
