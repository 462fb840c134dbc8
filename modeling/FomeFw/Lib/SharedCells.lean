import Mathlib.Data.List.Nodup
import Mathlib.Logic.Function.Basic

/-! Holders that point to cells, set up one after the other. A cell that two holders share has
the content that the later one gave it. -/
namespace FomeFw

structure SharedCells (S C G : Type) where
  pointer : S → Option C
  content : C → G

/-- A holder, the cell it points to from then on and the content of the cell. -/
structure SetUp (S C G : Type) where
  holder : S
  cell : C
  content : G

namespace SharedCells

variable {S C G : Type} [DecidableEq S] [DecidableEq C] {m : SharedCells S C G}
variable {plan : List (SetUp S C G)} {e : SetUp S C G}

def setUp (m : SharedCells S C G) (e : SetUp S C G) : SharedCells S C G where
  pointer := Function.update m.pointer e.holder (some e.cell)
  content := Function.update m.content e.cell e.content

def setUpAll (m : SharedCells S C G) (plan : List (SetUp S C G)) : SharedCells S C G :=
  plan.foldl setUp m

/-- What the holder finds in its cell. -/
def read (m : SharedCells S C G) (s : S) : Option G := (m.pointer s).map m.content

/-- If both use one cell, they want it to be the same. -/
def Agree (e e' : SetUp S C G) : Prop := e.cell = e'.cell → e.content = e'.content

theorem pointer_setUpAll (absent : s ∉ plan.map SetUp.holder) :
    (m.setUpAll plan).pointer s = m.pointer s := by
  induction plan generalizing m with
  | nil => rfl
  | cons e plan ih =>
    rw [List.map_cons, List.mem_cons, not_or] at absent
    rw [setUpAll, List.foldl_cons]
    exact (ih absent.2).trans (Function.update_of_ne absent.1 _ _)

theorem content_setUpAll (absent : c ∉ plan.map SetUp.cell) :
    (m.setUpAll plan).content c = m.content c := by
  induction plan generalizing m with
  | nil => rfl
  | cons e plan ih =>
    rw [List.map_cons, List.mem_cons, not_or] at absent
    rw [setUpAll, List.foldl_cons]
    exact (ih absent.2).trans (Function.update_of_ne absent.1 _ _)

/-- A holder ends up with the cell it was set up with. -/
theorem pointer_of_mem (distinct : (plan.map SetUp.holder).Nodup) (member : e ∈ plan) :
    (m.setUpAll plan).pointer e.holder = some e.cell := by
  induction plan generalizing m with
  | nil => cases member
  | cons first plan ih =>
    rw [List.map_cons, List.nodup_cons] at distinct
    rw [setUpAll, List.foldl_cons]
    rcases List.mem_cons.mp member with rfl | later
    · exact (pointer_setUpAll distinct.1).trans (Function.update_self _ _ _)
    · exact ih distinct.2 later

/-- It reads its cell as it is left at the end. -/
theorem read_of_mem (distinct : (plan.map SetUp.holder).Nodup) (member : e ∈ plan) :
    (m.setUpAll plan).read e.holder = some ((m.setUpAll plan).content e.cell) := by
  rw [read, pointer_of_mem distinct member, Option.map_some]

/-- Each holder reads what it was set up with just when those that share a cell agree. -/
theorem reads_own_iff (distinct : (plan.map SetUp.holder).Nodup) :
    (∀ e ∈ plan, (m.setUpAll plan).read e.holder = some e.content) ↔ plan.Pairwise Agree := by
  induction plan generalizing m with
  | nil => simp
  | cons first plan ih =>
    have apart := distinct
    rw [List.map_cons, List.nodup_cons] at apart
    rw [List.pairwise_cons, List.forall_mem_cons, ← @ih (m.setUp first) apart.2]
    have here : (m.setUpAll (first :: plan)).read first.holder =
        some ((m.setUpAll (first :: plan)).content first.cell) :=
      read_of_mem distinct List.mem_cons_self
    have there : ∀ e ∈ plan, (m.setUpAll (first :: plan)).read e.holder = some e.content →
        (m.setUpAll (first :: plan)).content e.cell = e.content := by
      intro e member own
      rw [read_of_mem distinct (List.mem_cons_of_mem _ member)] at own
      exact Option.some.inj own
    constructor
    · rintro ⟨first', later⟩
      refine ⟨?_, later⟩
      intro e member same
      rw [here, same, there e member (later e member)] at first'
      exact (Option.some.inj first').symm
    · rintro ⟨agree, later⟩
      refine ⟨?_, later⟩
      rw [here, Option.some_inj]
      by_cases shared : first.cell ∈ plan.map SetUp.cell
      · obtain ⟨e, member, same⟩ := List.mem_map.mp shared
        rw [agree e member same.symm, ← same]
        exact there e member (later e member)
      · rw [setUpAll, List.foldl_cons]
        exact (content_setUpAll shared).trans (Function.update_self _ _ _)

end SharedCells

end FomeFw
