import Mathlib.Data.Nat.Count
import Mathlib.Data.Nat.Periodic

/-! A wheel that turns past a sensor. Its positions are numbered from the beginning
of the observation, some are marked, and the marks repeat with every turn. Here are
the numbers of marks in a stretch, and the list of those already seen. -/
namespace FomeFw.Turning
open Function

section Positions
variable {n r : ℕ}

/-- The next position, within the same turn. -/
theorem next_position (further : r % n + 1 < n) :
    (r + 1) / n = r / n ∧ (r + 1) % n = r % n + 1 := by
  have total : r + 1 = n * (r / n) + (r % n + 1) := by
    have split := Nat.div_add_mod r n
    omega
  constructor
  · rw [total, Nat.mul_add_div (by omega), Nat.div_eq_of_lt further, Nat.add_zero]
  · rw [total, Nat.mul_add_mod, Nat.mod_eq_of_lt further]

/-- The last position of a turn is followed by the first of the next. -/
theorem next_turn (last : r % n + 1 = n) : (r + 1) / n = r / n + 1 ∧ (r + 1) % n = 0 := by
  have total : r + 1 = n * (r / n + 1) := by
    have split := Nat.div_add_mod r n
    rw [Nat.mul_add, Nat.mul_one]
    omega
  rw [total]
  exact ⟨Nat.mul_div_cancel_left _ (by omega), Nat.mul_mod_right _ _⟩

end Positions

variable {p q : ℕ → Prop} [DecidablePred p] [DecidablePred q] {n : ℕ}

/-- Marked positions from `a` on and before `b`. -/
def marks (p : ℕ → Prop) [DecidablePred p] (a b : ℕ) : ℕ := Nat.count p b - Nat.count p a

@[simp] theorem marks_self (a : ℕ) : marks p a a = 0 := Nat.sub_self _

theorem marks_succ (order : a ≤ b) : marks p a (b + 1) = marks p a b + if p b then 1 else 0 := by
  have grows := Nat.count_monotone p order
  rw [marks, marks, Nat.count_succ]
  omega

theorem marks_add (order : a ≤ b) (later : b ≤ c) : marks p a c = marks p a b + marks p b c := by
  have first := Nat.count_monotone p order
  have second := Nat.count_monotone p later
  simp only [marks]
  omega

/-- A mark tells two stretches apart. -/
theorem marks_lt (order : a ≤ b) (marked : p b) (later : b < c) : marks p a b < marks p a c := by
  have beyond := Nat.count_strict_mono marked later
  have first := Nat.count_monotone p order
  simp only [marks]
  omega

theorem marks_congr (same : ∀ i < m, p (a + i) ↔ q (b + i)) :
    marks p a (a + m) = marks q b (b + m) := by
  induction m with
  | zero => simp
  | succ m ih =>
    rw [← Nat.add_assoc, ← Nat.add_assoc, marks_succ (by omega), marks_succ (by omega),
      ih fun i inside => same i (by omega)]
    simp only [same m (by omega)]

theorem marks_eq_length (all : ∀ i, p i) : marks p a b = b - a := by
  have whole (k : ℕ) : Nat.count p k = k := Nat.count_iff_forall.mpr fun i _ => all i
  rw [marks, whole, whole]

theorem marks_le_length (a b : ℕ) : marks p a b ≤ b - a := by
  induction b with
  | zero => simp [marks]
  | succ b ih =>
    by_cases order : a ≤ b
    · rw [marks_succ order]
      split <;> omega
    · have few := Nat.count_monotone p (Nat.lt_of_not_le order)
      rw [marks, Nat.sub_eq_zero_of_le few]
      exact Nat.zero_le _

/-- Every number of marks is reached at a mark. -/
theorem exists_mark (positive : 0 < m) (enough : m ≤ marks p a b) :
    ∃ c, a ≤ c ∧ c < b ∧ p c ∧ marks p a (c + 1) = m := by
  induction b with
  | zero => simp only [marks, Nat.count_zero, Nat.zero_sub] at enough; omega
  | succ b ih =>
    by_cases before : m ≤ marks p a b
    · obtain ⟨c, after, inside, mark, count⟩ := ih before
      exact ⟨c, after, by omega, mark, count⟩
    · have order : a ≤ b := by
        by_contra late
        have few := Nat.count_monotone p (Nat.lt_of_not_le late)
        rw [marks, Nat.sub_eq_zero_of_le few] at enough
        omega
      have step := marks_succ (p := p) order
      by_cases mark : p b
      · rw [if_pos mark] at step
        exact ⟨b, order, by omega, mark, by omega⟩
      · rw [if_neg mark] at step
        omega

/-- Every turn has the same number of marks, wherever it begins. -/
theorem marks_turn (turns : Periodic p n) (a : ℕ) : marks p a (a + n) = Nat.count p n := by
  suffices total : Nat.count p (a + n) = Nat.count p a + Nat.count p n by
    rw [marks, total, Nat.add_sub_cancel_left]
  induction a with
  | zero => simp
  | succ a ih =>
    have again : p (a + n) ↔ p a := iff_of_eq (turns a)
    rw [Nat.add_right_comm, Nat.count_succ, Nat.count_succ, ih]
    simp only [again]
    omega

theorem marks_turns (turns : Periodic p n) (a t : ℕ) :
    marks p a (a + t * n) = t * Nat.count p n := by
  induction t with
  | zero => simp
  | succ t ih =>
    rw [marks_add (b := a + t * n) (by omega) (by rw [Nat.succ_mul]; omega), ih, Nat.succ_mul,
      ← Nat.add_assoc, marks_turn turns, Nat.succ_mul]

/-- As many marks as a turn has, up to a mark: the stretch is a whole turn. -/
theorem eq_turn_of_marks (turns : Periodic p n) (first : p a) (last : p b) (order : a ≤ b)
    (whole : marks p (a + 1) (b + 1) = Nat.count p n) : b = a + n := by
  have again : p (a + n) := (iff_of_eq (turns a)).mpr first
  have turn := marks_turn turns (a + 1)
  rw [← whole, Nat.add_right_comm] at turn
  by_contra other
  rcases Nat.lt_or_gt_of_ne other with short | long
  · have mark := marks_lt (p := p) (a := a + 1) (b := a + n) (c := a + n + 1) (by omega) again (by omega)
    have split := marks_add (p := p) (a := a + 1) (b := b + 1) (c := a + n) (by omega) (by omega)
    omega
  · have mark := marks_lt (p := p) (a := a + 1) (b := b) (c := b + 1) (by omega) last (by omega)
    have split := marks_add (p := p) (a := a + 1) (b := a + n + 1) (c := b) (by omega) (by omega)
    omega

/-- The marks of a list by position are those of its items. -/
theorem count_eq_countP {α : Type} {item : α → Bool} (items : List α)
    (same : ∀ i (inside : i < items.length), p i ↔ item items[i] = true) :
    Nat.count p items.length = items.countP item := by
  induction items generalizing p with
  | nil => simp
  | cons x items ih =>
    rw [List.length_cons, Nat.count_succ', List.countP_cons,
      ih fun i inside => same (i + 1) (by simpa using inside)]
    simp only [same 0 (by simp), List.getElem_cons_zero]

section Seen

/-- The marked positions from `first` on and before `k`, the last one first. -/
def seen (p : ℕ → Prop) [DecidablePred p] (first : ℕ) : ℕ → List ℕ
  | 0 => []
  | k + 1 => if first ≤ k ∧ p k then k :: seen p first k else seen p first k

theorem seen_succ (after : first ≤ k) :
    seen p first (k + 1) = if p k then k :: seen p first k else seen p first k := by
  simp [seen, after]

theorem seen_of_le (before : k ≤ first) : seen p first k = [] := by
  induction k with
  | zero => rfl
  | succ k ih => rw [seen, if_neg (by omega), ih (by omega)]

/-- Who began to look earlier has seen the same and then some. -/
theorem seen_extends (earlier : first ≤ later) (k : ℕ) : seen p later k <+: seen p first k := by
  induction k with
  | zero => exact List.nil_prefix
  | succ k ih =>
    by_cases before : k + 1 ≤ later
    · rw [seen_of_le before]
      exact List.nil_prefix
    · rw [seen_succ (by omega), seen_succ (by omega)]
      split
      · exact (List.prefix_cons_inj k).mpr ih
      · exact ih

/-- Moved by whole turns, the same is seen. -/
theorem seen_shift (turns : Periodic p c) (first k : ℕ) :
    seen p (first + c) (k + c) = (seen p first k).map (· + c) := by
  induction k with
  | zero => rw [seen_of_le (by omega)]; rfl
  | succ k ih =>
    have again : p (k + c) ↔ p k := iff_of_eq (turns k)
    by_cases before : first ≤ k
    · rw [Nat.add_right_comm, seen_succ (by omega), seen_succ before, ih]
      simp only [again]
      split <;> simp
    · rw [seen_of_le (by omega), seen_of_le (by omega)]
      rfl

theorem seen_suffix (order : a ≤ b) : seen p first a <:+ seen p first b := by
  induction b, order using Nat.le_induction with
  | base => exact List.suffix_rfl
  | succ b order ih =>
    simp only [seen]
    split
    · exact ih.trans (List.suffix_cons b _)
    · exact ih

/-- The last mark before `k`, and then what had been seen there. -/
theorem seen_eq_cons (begun : first ≤ c) (before : c < k) (marked : p c)
    (last : ∀ i, c < i → i < k → ¬ p i) : seen p first k = c :: seen p first c := by
  induction k with
  | zero => omega
  | succ k ih =>
    rw [seen_succ (by omega)]
    by_cases here : c = k
    · subst here
      rw [if_pos marked]
    · rw [if_neg (last k (by omega) (by omega))]
      exact ih (by omega) fun i later earlier => last i later (by omega)

/-- What was seen last is the last mark, and before it that was seen which is seen from there. -/
theorem seen_head (head : seen p first k = c :: earlier) :
    (first ≤ c ∧ c < k ∧ p c) ∧ earlier = seen p first c ∧ ∀ i, c < i → i < k → ¬ p i := by
  induction k with
  | zero => cases head
  | succ k ih =>
    simp only [seen] at head
    split at head
    · next marked =>
      obtain ⟨rfl, rfl⟩ := List.cons.inj head
      refine ⟨⟨marked.1, Nat.lt_succ_self k, marked.2⟩, rfl, fun i later before => ?_⟩
      omega
    · next skipped =>
      obtain ⟨⟨begun, before, mark⟩, rest, last⟩ := ih head
      refine ⟨⟨begun, by omega, mark⟩, rest, fun i later inside => ?_⟩
      by_cases here : i = k
      · subst here
        exact fun marked => skipped ⟨by omega, marked⟩
      · exact last i later (by omega)

/-- From one mark to the next it is a turn at most. -/
theorem seen_gap (turns : Periodic p n) (positive : 0 < n) (marked : p k)
    (here : (k :: seen p first k)[i]? = some a) (before : (k :: seen p first k)[i + 1]? = some b) :
    b < a ∧ a ≤ b + n := by
  induction i generalizing k with
  | zero =>
    obtain rfl := Option.some.inj here
    simp only [List.getElem?_cons_succ] at before
    cases head : seen p first k with
    | nil => simp [head] at before
    | cons c earlier =>
      obtain ⟨⟨-, less, mark⟩, -, last⟩ := seen_head head
      simp only [head, List.getElem?_cons_zero, Option.some.injEq] at before
      subst before
      have again : p (c + n) := (iff_of_eq (turns c)).mpr mark
      refine ⟨less, ?_⟩
      by_contra long
      exact last (c + n) (by omega) (by omega) again
  | succ i ih =>
    cases head : seen p first k with
    | nil => simp [head] at here
    | cons c earlier =>
      obtain ⟨⟨-, -, mark⟩, rest, -⟩ := seen_head head
      rw [head, List.getElem?_cons_succ, rest] at here before
      exact ih mark here before

end Seen

end FomeFw.Turning
