import Mathlib.Data.List.Sort
import Mathlib.Data.List.TakeWhile
import Mathlib.Data.List.Nodup
import Mathlib.Order.Basic
import Mathlib.Data.Rat.Floor

/-! Queues of keyed entries ordered by time. An entry that is not earlier than the
first one is placed in front of the entries it ties with, except that it never
displaces the first entry. -/
namespace FomeFw

/-- A keyed entry due at a time. -/
structure Entry (K T A : Type) where
  key : K
  time : T
  payload : A
  deriving DecidableEq, Repr

namespace TimedQueue

variable {K T A : Type} {e first : Entry K T A} {l before after : List (Entry K T A)} {k : K}

/-- No key is queued twice. -/
def Distinct (l : List (Entry K T A)) : Prop := (l.map Entry.key).Nodup

section Erase
variable [DecidableEq K]

def erase (k : K) (l : List (Entry K T A)) : List (Entry K T A) :=
  l.eraseP (fun e => decide (e.key = k))

theorem erase_sublist (k : K) (l : List (Entry K T A)) : (erase k l).Sublist l :=
  List.eraseP_sublist

theorem erase_distinct (distinct : Distinct l) : Distinct (erase k l) :=
  distinct.sublist ((erase_sublist k l).map Entry.key)

theorem erase_of_notMem (absent : k ∉ l.map Entry.key) : erase k l = l := by
  refine List.eraseP_of_forall_not ?_
  intro e member same
  exact absent (List.mem_map.mpr ⟨e, member, by simpa using same⟩)

theorem erase_split (distinct : Distinct (before ++ e :: after)) :
    erase e.key (before ++ e :: after) = before ++ after := by
  have absent : ∀ b ∈ before, b.key ≠ e.key := by
    intro b member same
    rw [Distinct, List.map_append, List.map_cons] at distinct
    exact List.disjoint_of_nodup_append distinct (List.mem_map_of_mem member) (by simp [same])
  rw [erase, List.eraseP_append_right _ (fun b member => by simpa using absent b member)]
  simp

theorem notMem_erase (distinct : Distinct l) : k ∉ (erase k l).map Entry.key := by
  by_cases present : k ∈ l.map Entry.key
  · obtain ⟨e, member, rfl⟩ := List.mem_map.mp present
    obtain ⟨before, after, rfl⟩ := List.append_of_mem member
    rw [erase_split distinct]
    rw [Distinct, List.map_append, List.map_cons] at distinct
    rw [List.map_append]
    exact (List.nodup_middle.mp distinct).notMem
  · rw [erase_of_notMem present]
    exact present

theorem mem_erase_of_ne (other : e.key ≠ k) (member : e ∈ l) : e ∈ erase k l :=
  (List.mem_eraseP_of_neg (by simpa using other)).mpr member

/-- What is counted over the entries, when none of the struck ones counts. -/
theorem erase_sum (f : Entry K T A → Nat) (zero : ∀ e ∈ l, e.key = k → f e = 0) :
    ((erase k l).map f).sum = (l.map f).sum := by
  induction l with
  | nil => rfl
  | cons e l ih =>
    have rest := ih fun other member => zero other (List.mem_cons_of_mem e member)
    by_cases same : e.key = k
    · simp [erase, same, zero e (List.mem_cons_self ..) same]
    · simpa [erase, same] using rest

end Erase

variable [LinearOrder T]

/-- Earlier entries stand before later ones. -/
def Sorted (l : List (Entry K T A)) : Prop := l.Pairwise (fun a b => a.time ≤ b.time)

theorem erase_sorted [DecidableEq K] (sorted : Sorted l) : Sorted (erase k l) :=
  sorted.sublist (erase_sublist k l)

/-- Whether an entry due at `time` becomes the first one. -/
def leads (time : T) (l : List (Entry K T A)) : Bool :=
  match l with
  | [] => true
  | first :: _ => decide (time < first.time)

/-- Placement of an entry behind the first one. -/
def insertBehind (e : Entry K T A) (l : List (Entry K T A)) : List (Entry K T A) :=
  l.takeWhile (fun other => decide (other.time < e.time)) ++
    e :: l.dropWhile (fun other => decide (other.time < e.time))

def insert (e : Entry K T A) : List (Entry K T A) → List (Entry K T A)
  | [] => [e]
  | first :: l => if e.time < first.time then e :: first :: l else first :: insertBehind e l

theorem insertBehind_eq_orderedInsert (e : Entry K T A) (l : List (Entry K T A)) :
    insertBehind e l = l.orderedInsert (fun a b => a.time ≤ b.time) e := by
  rw [List.orderedInsert_eq_take_drop]
  simp only [insertBehind, not_le]

theorem insertBehind_perm (e : Entry K T A) (l : List (Entry K T A)) :
    (insertBehind e l).Perm (e :: l) := by
  rw [insertBehind_eq_orderedInsert]
  exact List.perm_orderedInsert _ e l

theorem insertBehind_sorted (sorted : Sorted l) : Sorted (insertBehind e l) := by
  have : Std.Total (fun a b : Entry K T A => a.time ≤ b.time) := ⟨fun _ _ => le_total _ _⟩
  have : IsTrans (Entry K T A) (fun a b => a.time ≤ b.time) := ⟨fun _ _ _ => le_trans⟩
  rw [insertBehind_eq_orderedInsert]
  exact List.Pairwise.orderedInsert e l sorted

theorem insert_perm (e : Entry K T A) (l : List (Entry K T A)) : (insert e l).Perm (e :: l) := by
  cases l with
  | nil => exact .refl _
  | cons first l =>
    simp only [insert]
    split
    · exact .refl _
    · exact ((insertBehind_perm e l).cons first).trans (.swap _ _ _)

theorem insert_sum (f : Entry K T A → Nat) :
    ((insert e l).map f).sum = f e + (l.map f).sum := by
  rw [((insert_perm e l).map f).sum_nat, List.map_cons, List.sum_cons]

theorem insert_sorted (sorted : Sorted l) : Sorted (insert e l) := by
  cases l with
  | nil => simp [insert, Sorted]
  | cons first l =>
    obtain ⟨least, rest⟩ := List.pairwise_cons.mp sorted
    simp only [insert]
    split
    · rename_i earlier
      refine List.pairwise_cons.mpr ⟨?_, sorted⟩
      intro b member
      rcases List.mem_cons.mp member with rfl | member
      · exact earlier.le
      · exact earlier.le.trans (least b member)
    · rename_i notEarlier
      refine List.pairwise_cons.mpr ⟨?_, insertBehind_sorted rest⟩
      intro b member
      rcases List.mem_cons.mp ((insertBehind_perm e l).mem_iff.mp member) with rfl | member
      · exact not_lt.mp notEarlier
      · exact least b member

theorem insert_distinct (distinct : Distinct l) (fresh : e.key ∉ l.map Entry.key) :
    Distinct (insert e l) := by
  refine ((insert_perm e l).map Entry.key).nodup_iff.mpr ?_
  exact List.nodup_cons.mpr ⟨fresh, distinct⟩

/-- Either the new entry leads, or the first entry stays first. -/
theorem insert_head (e : Entry K T A) (l : List (Entry K T A)) :
    (insert e l).head? = if leads e.time l then some e else l.head? := by
  cases l with
  | nil => rfl
  | cons first l =>
    by_cases earlier : e.time < first.time <;> simp [insert, leads, earlier]

section Ties

variable {rank : Entry K T A → Nat}

/-- Entries with one time stand in the order of their ranks. -/
def InOrder (rank : Entry K T A → Nat) (l : List (Entry K T A)) : Prop :=
  l.Pairwise fun a b => a.time = b.time → rank a < rank b

theorem insertBehind_inOrder_iff (latest : ∀ s ∈ l, rank s < rank e) (ordered : InOrder rank l) :
    InOrder rank (insertBehind e l) ↔ ∀ s ∈ l, s.time ≠ e.time := by
  have parts := l.takeWhile_append_dropWhile (p := fun other => decide (other.time < e.time))
  constructor
  · intro kept s member same
    rw [← parts] at member
    rcases List.mem_append.mp member with earlier | behind
    · have before := List.mem_takeWhile_imp earlier
      simp only [decide_eq_true_eq] at before
      exact before.ne same
    · have later := (List.pairwise_append.mp kept).2.1
      have past := (List.pairwise_cons.mp later).1 s behind same.symm
      have under := latest s (parts ▸ List.mem_append_right _ behind)
      omega
  · intro distinct
    rw [← parts] at ordered
    obtain ⟨earlier, behind, cross⟩ := List.pairwise_append.mp ordered
    apply List.pairwise_append.mpr
    refine ⟨earlier, List.pairwise_cons.mpr ⟨?_, behind⟩, ?_⟩
    · intro s member same
      exact absurd same.symm (distinct s ((List.dropWhile_suffix _).subset member))
    · intro s member t follows same
      rcases List.mem_cons.mp follows with rfl | follows
      · exact latest s ((List.takeWhile_prefix _).subset member)
      · exact cross s member t follows same

/-- The latest entry keeps the order unless one behind the first has its time. -/
theorem insert_inOrder_iff (sorted : Sorted l) (latest : ∀ s ∈ l, rank s < rank e)
    (ordered : InOrder rank l) : InOrder rank (insert e l) ↔ ∀ s ∈ l.tail, s.time ≠ e.time := by
  cases l with
  | nil => simp [InOrder, insert]
  | cons first l =>
    have least := (List.pairwise_cons.mp sorted).1
    obtain ⟨leads, kept⟩ := List.pairwise_cons.mp ordered
    simp only [insert, List.tail_cons]
    split
    · rename_i earlier
      have behind : ∀ s ∈ first :: l, e.time < s.time := by
        intro s member
        rcases List.mem_cons.mp member with rfl | member
        · exact earlier
        · exact earlier.trans_le (least s member)
      apply iff_of_true
      · refine List.pairwise_cons.mpr ⟨?_, ordered⟩
        intro s member same
        exact absurd same (behind s member).ne
      · intro s member
        exact (behind s (List.mem_cons_of_mem _ member)).ne'
    · have younger : ∀ s ∈ l, rank s < rank e :=
        fun s member => latest s (List.mem_cons_of_mem _ member)
      rw [← insertBehind_inOrder_iff younger kept]
      refine ⟨fun all => (List.pairwise_cons.mp all).2, fun all => ?_⟩
      refine List.pairwise_cons.mpr ⟨?_, all⟩
      intro s member same
      rcases List.mem_cons.mp ((insertBehind_perm e l).mem_iff.mp member) with rfl | member
      · exact latest first (List.mem_cons_self ..)
      · exact leads s member same

end Ties

end TimedQueue
end FomeFw
