import Mathlib.Order.Compare
import Mathlib.Data.List.Perm.Basic
import Mathlib.Tactic.Common
import Mathlib.Data.Rat.Floor

/-! Maps that keep their keys sorted by a comparator. Keys that it finds equal are one key, which
stays the one that was put first. -/
namespace FomeFw.SortedMap

variable {K V R : Type}

def put (cmp : K → K → Ordering) (k : K) (v : V) : List (K × V) → List (K × V)
  | [] => [(k, v)]
  | e :: m =>
    match cmp k e.1 with
    | .lt => (k, v) :: e :: m
    | .eq => (e.1, v) :: m
    | .gt => e :: put cmp k v m

def putAll (cmp : K → K → Ordering) (m entries : List (K × V)) : List (K × V) :=
  entries.foldl (fun m e => put cmp e.1 e.2 m) m

def get (cmp : K → K → Ordering) (k : K) (m : List (K × V)) : Option V :=
  (m.find? fun e => cmp k e.1 == .eq).map Prod.snd

section Ranked

/-- The comparator compares ranks. -/
def Ranks [LinearOrder R] (cmp : K → K → Ordering) (rank : K → R) : Prop :=
  ∀ a b, cmp a b = compare (rank a) (rank b)

/-- Ascending, and so of each rank one key at most. -/
def Ascending [LinearOrder R] (rank : K → R) (m : List (K × V)) : Prop :=
  m.Pairwise fun a b => rank a.1 < rank b.1

variable [LinearOrder R] {rank : K → R} {cmp : K → K → Ordering} {m entries : List (K × V)}
  {k k' : K} {v : V} {e : K × V}

/-- The three ways in which an entry is put. -/
theorem put_cons (ranks : Ranks cmp rank) :
    rank k < rank e.1 ∧ put cmp k v (e :: m) = (k, v) :: e :: m ∨
      rank k = rank e.1 ∧ put cmp k v (e :: m) = (e.1, v) :: m ∨
      rank e.1 < rank k ∧ put cmp k v (e :: m) = e :: put cmp k v m := by
  rw [put, ranks]
  rcases lt_trichotomy (rank k) (rank e.1) with less | same | more
  · exact .inl ⟨less, by rw [compare_lt_iff_lt.mpr less]⟩
  · exact .inr (.inl ⟨same, by rw [compare_eq_iff_eq.mpr same]⟩)
  · exact .inr (.inr ⟨more, by rw [compare_gt_iff_gt.mpr more]⟩)

theorem rank_mem_put (ranks : Ranks cmp rank) {r : R} :
    (∃ e ∈ put cmp k v m, rank e.1 = r) ↔ rank k = r ∨ ∃ e ∈ m, rank e.1 = r := by
  induction m with
  | nil => simp [put]
  | cons e m ih =>
    rcases @put_cons _ _ _ _ rank cmp m k v e ranks with ⟨-, placed⟩ | ⟨same, placed⟩ | ⟨-, placed⟩
    · simp [placed]
    · simp [placed, same]
    · simp only [placed, List.exists_mem_cons_iff, ih]
      exact or_left_comm

theorem put_ascending (ranks : Ranks cmp rank) (ascending : Ascending rank m) :
    Ascending rank (put cmp k v m) := by
  induction m with
  | nil => exact List.pairwise_singleton _ _
  | cons e m ih =>
    obtain ⟨above, rest⟩ := List.pairwise_cons.mp ascending
    rcases @put_cons _ _ _ _ rank cmp m k v e ranks with
      ⟨less, placed⟩ | ⟨same, placed⟩ | ⟨more, placed⟩
    · rw [placed]
      refine List.pairwise_cons.mpr ⟨?_, ascending⟩
      intro b member
      rcases List.mem_cons.mp member with rfl | member
      · exact less
      · exact less.trans (above b member)
    · rw [placed]
      exact List.pairwise_cons.mpr ⟨above, rest⟩
    · rw [placed]
      refine List.pairwise_cons.mpr ⟨?_, ih rest⟩
      intro b member
      rcases (rank_mem_put ranks).mp ⟨b, member, rfl⟩ with here | ⟨c, there, equal⟩
      · rwa [← here]
      · rw [← equal]
        exact above c there

theorem put_perm (ranks : Ranks cmp rank) (new : ∀ e ∈ m, rank e.1 ≠ rank k) :
    (put cmp k v m).Perm ((k, v) :: m) := by
  induction m with
  | nil => exact .refl _
  | cons e m ih =>
    rcases @put_cons _ _ _ _ rank cmp m k v e ranks with
      ⟨-, placed⟩ | ⟨same, placed⟩ | ⟨-, placed⟩
    · rw [placed]
    · exact absurd same.symm (new e (List.mem_cons_self ..))
    · rw [placed]
      exact ((ih fun e member => new e (List.mem_cons_of_mem _ member)).cons e).trans (.swap _ _ _)

theorem putAll_ascending (ranks : Ranks cmp rank) (ascending : Ascending rank m) :
    Ascending rank (putAll cmp m entries) := by
  induction entries generalizing m with
  | nil => exact ascending
  | cons e entries ih => exact ih (put_ascending ranks ascending)

/-- Entries of different ranks are all kept. -/
theorem putAll_perm (ranks : Ranks cmp rank)
    (different : (m ++ entries).Pairwise fun a b => rank a.1 ≠ rank b.1) :
    (putAll cmp m entries).Perm (m ++ entries) := by
  induction entries generalizing m with
  | nil => rw [List.append_nil]; exact .refl _
  | cons e entries ih =>
    have new : ∀ a ∈ m, rank a.1 ≠ rank e.1 := fun a member =>
      (List.pairwise_append.mp different).2.2 a member e (List.mem_cons_self ..)
    have moved : (put cmp e.1 e.2 m ++ entries).Perm (m ++ e :: entries) :=
      ((put_perm ranks new).append_right entries).trans List.perm_middle.symm
    have symmetric : ∀ {a b : K × V}, rank a.1 ≠ rank b.1 → rank b.1 ≠ rank a.1 := Ne.symm
    exact (ih ((moved.pairwise_iff symmetric).mpr different)).trans moved

theorem get_cons (ranks : Ranks cmp rank) :
    get cmp k (e :: m) = if rank k = rank e.1 then some e.2 else get cmp k m := by
  by_cases same : rank k = rank e.1
  · have equal : cmp k e.1 = .eq := (ranks k e.1).trans (compare_eq_iff_eq.mpr same)
    simp [get, same, equal]
  · have other : cmp k e.1 ≠ .eq := fun equal =>
      same (compare_eq_iff_eq.mp ((ranks k e.1).symm.trans equal))
    simp [get, same, other]

theorem get_put (ranks : Ranks cmp rank) :
    get cmp k' (put cmp k v m) = if rank k' = rank k then some v else get cmp k' m := by
  induction m with
  | nil => exact get_cons ranks
  | cons e m ih =>
    rcases @put_cons _ _ _ _ rank cmp m k v e ranks with
      ⟨-, placed⟩ | ⟨same, placed⟩ | ⟨more, placed⟩
    · rw [placed, get_cons ranks]
    · rw [placed, get_cons ranks, get_cons ranks, same]
      split <;> rfl
    · rw [placed, get_cons ranks, get_cons ranks, ih]
      split
      · next here =>
        rw [if_neg]
        rw [here]
        exact more.ne
      · rfl

theorem get_of_mem (ranks : Ranks cmp rank) (different : m.Pairwise fun a b => rank a.1 ≠ rank b.1)
    (member : (k, v) ∈ m) : get cmp k m = some v := by
  induction m with
  | nil => cases member
  | cons e m ih =>
    obtain ⟨first, rest⟩ := List.pairwise_cons.mp different
    rw [get_cons ranks]
    rcases List.mem_cons.mp member with rfl | later
    · rw [if_pos rfl]
    · rw [if_neg (Ne.symm (first _ later)), ih rest later]

theorem exists_of_get (ranks : Ranks cmp rank) (found : get cmp k m = some v) :
    ∃ e ∈ m, rank k = rank e.1 := by
  induction m with
  | nil => cases found
  | cons e m ih =>
    rw [get_cons ranks] at found
    split at found
    · next same => exact ⟨e, List.mem_cons_self .., same⟩
    · obtain ⟨other, member, same⟩ := ih found
      exact ⟨other, List.mem_cons_of_mem _ member, same⟩

end Ranked

end FomeFw.SortedMap
