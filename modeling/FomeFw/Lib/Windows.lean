import Mathlib.Data.Finset.Max
import Mathlib.Data.Nat.Find
import Mathlib.Order.Defs.LinearOrder
import Mathlib.Tactic.Common

/-! Windows between neighbouring points of a cycle. Finitely many points cut a
linearly ordered cycle into half-open windows, the last of which wraps around;
every value lies in exactly one. The points come from a table that is sorted from
its least entry on, with repetitions. -/
namespace FomeFw.Windows

variable {α : Type} [LinearOrder α]

/-- The values from `current` up to `next`, around the end when `next` is not beyond. -/
def InWindow (x current next : α) : Prop :=
  if next > current then current ≤ x ∧ x < next else current ≤ x ∨ x < next

/-- `q` is the neighbour of `p` among the points: the next greater one, or from the
greatest one the least. -/
structure Follows (points : α → Prop) (p q : α) : Prop where
  point : points q
  different : q ≠ p
  ahead : p < q → ∀ r, points r → r ≤ p ∨ q ≤ r
  around : q < p → ∀ r, points r → q ≤ r ∧ r ≤ p

theorem Follows.unique {points : α → Prop} {p q r : α} (first : Follows points p q)
    (second : Follows points p r) : q = r := by
  rcases lt_or_gt_of_ne first.different with back | ahead <;>
    rcases lt_or_gt_of_ne second.different with back' | ahead'
  · exact le_antisymm (first.around back r second.point).1 (second.around back' q first.point).1
  · exact absurd ahead' (not_lt.mpr (first.around back r second.point).2)
  · exact absurd ahead (not_lt.mpr (second.around back' q first.point).2)
  · exact le_antisymm ((first.ahead ahead r second.point).resolve_left (not_le.mpr ahead'))
      ((second.ahead ahead' q first.point).resolve_left (not_le.mpr ahead))

/-- The windows of two points have no value in common. -/
theorem windows_disjoint {points : α → Prop} {p q r s : α} (first : Follows points p q)
    (second : Follows points r s) (start : points p) (other : points r) (order : p < r)
    (inside : InWindow x p q) (within : InWindow x r s) : False := by
  have ahead : p < q := by
    rcases lt_or_gt_of_ne first.different with back | ahead
    · exact absurd order (not_lt.mpr (first.around back r other).2)
    · exact ahead
  rw [InWindow, if_pos ahead] at inside
  have reach : q ≤ r := (first.ahead ahead r other).resolve_left (not_le.mpr order)
  have before : x < r := inside.2.trans_le reach
  rcases lt_or_gt_of_ne second.different with back | ahead'
  · rw [InWindow, if_neg (not_lt.mpr back.le)] at within
    rcases within with late | early
    · exact absurd before (not_lt.mpr late)
    · exact absurd (early.trans_le (second.around back p start).1) (not_lt.mpr inside.1)
  · rw [InWindow, if_pos ahead'] at within
    exact absurd before (not_lt.mpr within.1)

/-- The window starts at the greatest point up to the value, or wraps from the
greatest of all. -/
theorem exists_window {points : Finset α} {next : α → α} (some : points.Nonempty)
    (follows : ∀ p ∈ points, Follows (· ∈ points) p (next p)) (x : α) :
    ∃ p ∈ points, InWindow x p (next p) := by
  by_cases below : (points.filter (· ≤ x)).Nonempty
  · obtain ⟨p, chosen, greatest⟩ := (points.filter (· ≤ x)).exists_max_image id below
    obtain ⟨member, reached⟩ := Finset.mem_filter.mp chosen
    refine ⟨p, member, ?_⟩
    unfold InWindow
    split
    · rename_i ahead
      refine ⟨reached, lt_of_not_ge fun passed => ?_⟩
      have same : next p ≤ p := greatest _ (Finset.mem_filter.mpr ⟨(follows p member).point, passed⟩)
      exact absurd ahead (not_lt.mpr same)
    · exact .inl reached
  · have above : ∀ r ∈ points, x < r := by
      intro r member
      by_contra reached
      exact below ⟨r, Finset.mem_filter.mpr ⟨member, not_lt.mp reached⟩⟩
    have last := follows _ (points.max'_mem some)
    refine ⟨points.max' some, points.max'_mem some, ?_⟩
    rw [InWindow, if_neg (not_lt.mpr (points.le_max' _ last.point))]
    exact .inr (above _ last.point)

/-- Every value lies in exactly one of the windows. -/
theorem unique_window {points : Finset α} {next : α → α} (some : points.Nonempty)
    (follows : ∀ p ∈ points, Follows (· ∈ points) p (next p)) (x : α) :
    ∃! p, p ∈ points ∧ InWindow x p (next p) := by
  obtain ⟨p, member, inside⟩ := exists_window some follows x
  refine ⟨p, ⟨member, inside⟩, ?_⟩
  rintro r ⟨other, within⟩
  by_contra different
  rcases lt_or_gt_of_ne different with earlier | later
  · exact windows_disjoint (follows r other) (follows p member) other member earlier within inside
  · exact windows_disjoint (follows p member) (follows r other) member other later inside within

section Table

/-- A table of `n` entries that rises from its least entry and may end in copies of it. -/
structure RisingTable (table : Nat → α) (n : Nat) : Prop where
  rising : ∃ m ≤ n, 0 < m ∧ (∀ i j, i ≤ j → j < m → table i ≤ table j) ∧
    ∀ i, m ≤ i → i < n → table i = table 0

/-- The first different entry found from index `i` on, going around the table. -/
def nextDifferent (table : Nat → α) (n : Nat) (current : α) : Nat → Nat → Option α
  | 0, _ => none
  | rounds + 1, i =>
    let i := (i + 1) % n
    if table i = current then nextDifferent table n current rounds i else some (table i)

/-- The scan ends at the first of the following entries that differs. -/
theorem nextDifferent_spec {table : Nat → α} {current : α}
    (differs : table ((i + distance) % n) ≠ current) (later : 0 < distance)
    (enough : distance ≤ rounds) :
    ∃ k, 0 < k ∧ k ≤ distance ∧ nextDifferent table n current rounds i = some (table ((i + k) % n)) ∧
      table ((i + k) % n) ≠ current ∧ ∀ k', 0 < k' → k' < k → table ((i + k') % n) = current := by
  induction rounds generalizing i distance with
  | zero => omega
  | succ rounds ih =>
    simp only [nextDifferent]
    by_cases same : table ((i + 1) % n) = current
    · have further : distance ≠ 1 := fun one => differs (one ▸ same)
      have shifted : ∀ k, ((i + 1) % n + k) % n = (i + (k + 1)) % n := by
        intro k
        rw [Nat.mod_add_mod]
        congr 1
        omega
      obtain ⟨k, positive, bound, found, stops, passed⟩ :=
        @ih ((i + 1) % n) (distance - 1)
          (by rw [shifted]; rwa [Nat.sub_add_cancel later]) (by omega) (by omega)
      rw [shifted] at found stops
      refine ⟨k + 1, by omega, by omega, by rw [if_pos same, found], stops, ?_⟩
      intro k' positive' before
      by_cases first : k' = 1
      · rw [first]
        exact same
      · have := passed (k' - 1) (by omega) (by omega)
        rwa [shifted, Nat.sub_add_cancel positive'] at this
    · refine ⟨1, by omega, by omega, by rw [if_neg same], same, fun k' _ _ => by omega⟩

/-- The distance from `i` forward to `k` around the table. -/
def forward (n i k : Nat) : Nat := if i < k then k - i else k + n - i

theorem forward_reaches (inTable : i < n) (target : k < n) :
    (i + forward n i k) % n = k ∧ 0 < forward n i k ∧ forward n i k ≤ n := by
  unfold forward
  split
  · refine ⟨?_, by omega, by omega⟩
    rw [show i + (k - i) = k by omega, Nat.mod_eq_of_lt target]
  · refine ⟨?_, by omega, by omega⟩
    rw [show i + (k + n - i) = k + n by omega, Nat.add_mod_right, Nat.mod_eq_of_lt target]

theorem forward_eq (inTable : i < n) (positive : 0 < d) (bound : d ≤ n) :
    forward n i ((i + d) % n) = d := by
  unfold forward
  by_cases around : i + d < n
  · rw [Nat.mod_eq_of_lt around]
    split <;> omega
  · rw [show i + d = i + d - n + n by omega, Nat.add_mod_right, Nat.mod_eq_of_lt (by omega)]
    split <;> omega

/-- Among equal entries the scan goes on for ever. -/
theorem nextDifferent_none {table : Nat → α} {current : α} (some : 0 < n)
    (same : ∀ k < n, table k = current) : nextDifferent table n current rounds i = none := by
  induction rounds generalizing i with
  | zero => rfl
  | succ rounds ih =>
    simp only [nextDifferent]
    rw [if_pos (same _ (Nat.mod_lt _ some))]
    exact ih

/-- One time around is enough, if there is anything to be found. -/
theorem nextDifferent_isSome_iff {table : Nat → α} {current : α} (inTable : i < n) :
    (∃ next, nextDifferent table n current n i = some next) ↔ ∃ k < n, table k ≠ current := by
  constructor
  · rintro ⟨next, found⟩
    by_contra same
    push Not at same
    rw [nextDifferent_none (by omega) same] at found
    cases found
  · rintro ⟨k, target, differs⟩
    obtain ⟨reaches, positive, bound⟩ := forward_reaches inTable target
    rw [← reaches] at differs
    obtain ⟨d, -, -, found, -⟩ := nextDifferent_spec differs positive bound
    exact ⟨_, found⟩

/-- The first different entry of a rising table is the neighbouring point. -/
theorem nextDifferent_follows {table : Nat → α} (rises : RisingTable table n) (inTable : i < n)
    (target : k < n) (differs : table k ≠ table i) :
    ∃ q, nextDifferent table n (table i) n i = some q ∧
      Follows (fun p => ∃ j < n, table j = p) (table i) q := by
  obtain ⟨reaches, positive, bound⟩ := forward_reaches inTable target
  obtain ⟨d, later, within, found, stops, passed⟩ :=
    @nextDifferent_spec _ _ i (forward n i k) n _ _ _ (by rwa [reaches]) positive bound
  have inRange : (i + d) % n < n := Nat.mod_lt _ (by omega)
  have scanned := forward_eq inTable later (within.trans bound)
  generalize (i + d) % n = j at found stops inRange scanned
  obtain ⟨m, small, nonempty, rising, ending⟩ := rises.rising
  have least : ∀ l < n, table 0 ≤ table l := by
    intro l member
    by_cases inside : l < m
    · exact rising 0 l (Nat.zero_le _) inside
    · exact (ending l (by omega) member).ge
  -- entries met before the scan ends equal the current one
  have skipped : ∀ l < n, table l ≠ table i → forward n i j ≤ forward n i l := by
    intro l member other
    obtain ⟨arrives, apart, -⟩ := forward_reaches inTable member
    by_contra early
    refine other ?_
    rw [← arrives]
    exact passed _ apart (by omega)
  have rises : ∀ l < n, table 0 < table l → l < m := by
    intro l member above
    by_contra beyond
    exact absurd above (not_lt.mpr (ending l (by omega) member).le)
  refine ⟨table j, found, ⟨j, inRange, rfl⟩, stops, ?_, ?_⟩
  · rintro ahead r ⟨l, member, rfl⟩
    by_contra between
    obtain ⟨above, below⟩ := not_or.mp between
    have above := not_le.mp above
    have below := not_le.mp below
    have order : l < j := by
      by_contra back
      exact absurd below (not_lt.mpr (rising j l (by omega)
        (rises l member ((least i inTable).trans_lt above))))
    have target := rises j inRange ((least i inTable).trans_lt ahead)
    have start : i < m → i < l := by
      intro inside
      by_contra back
      exact absurd above (not_lt.mpr (rising l i (by omega) inside))
    have reached := skipped l member above.ne'
    unfold forward at reached
    split at reached <;> split at reached <;> omega
  · rintro back r ⟨l, member, rfl⟩
    have inside := rises i inTable ((least j inRange).trans_lt back)
    have behind : j < i ∨ m ≤ j := by
      by_contra front
      exact absurd back (not_lt.mpr (rising i j (by omega) (by omega)))
    refine ⟨?_, ?_⟩
    · -- the scan stops at a copy of the least entry
      have origin : table j = table 0 := by
        rcases behind with before | beyond
        · by_contra other
          have reached := skipped 0 (by omega) ((least j inRange).trans_lt back).ne
          have first : j ≠ 0 := fun zero => other (zero ▸ rfl)
          unfold forward at reached
          split at reached <;> split at reached <;> omega
        · exact ending j beyond inRange
      exact origin ▸ least l member
    · by_contra above
      have above := not_le.mp above
      have ahead := rises l member ((least i inTable).trans_lt above)
      have start : i < l := by
        by_contra before
        exact absurd above (not_lt.mpr (rising l i (by omega) inside))
      have reached := skipped l member above.ne'
      unfold forward at reached
      split at reached <;> omega

end Table

end FomeFw.Windows
