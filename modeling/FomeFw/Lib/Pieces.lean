import Mathlib.Data.List.SplitBy
import Mathlib.Data.List.Sort
import Mathlib.Tactic.Common

/-! Pieces of an image: values with the place of the first one. Pieces that meet, each beginning
where the last one ends, are joined. -/
namespace FomeFw

section Lists

variable {α : Type} {r B : α → α → Prop} [DecidableRel r] {a : α} {l : List α}

theorem orderedInsert_pairwise_iff [IsTrans α r] (sorted : l.Pairwise r) :
    (l.orderedInsert r a).Pairwise B ↔
      (∀ b ∈ l, if r a b then B a b else B b a) ∧ l.Pairwise B := by
  induction l with
  | nil => simp
  | cons b l ih =>
    obtain ⟨above, rest⟩ := List.pairwise_cons.mp sorted
    by_cases first : r a b
    · have all : ∀ c ∈ b :: l, r a c := by
        intro c member
        rcases List.mem_cons.mp member with rfl | member
        · exact first
        · exact IsTrans.trans _ _ _ first (above c member)
      rw [List.orderedInsert_cons_of_le _ l first, List.pairwise_cons]
      refine and_congr_left fun _ => forall₂_congr fun c member => ?_
      rw [if_pos (all c member)]
    · rw [List.orderedInsert_of_not_le _ l first, List.pairwise_cons, ih rest, List.pairwise_cons,
        List.forall_mem_cons, if_neg first]
      simp only [List.mem_orderedInsert, or_imp, forall_and, forall_eq]
      tauto

/-- Sorted stably, all are in a relation just when of any two the one that comes first in the order,
or in the list where the order does not tell, is in it to the other. -/
theorem insertionSort_pairwise_iff [Std.Total r] [IsTrans α r] :
    (l.insertionSort r).Pairwise B ↔ l.Pairwise fun a b => if r a b then B a b else B b a := by
  induction l with
  | nil => simp
  | cons a l ih =>
    rw [List.insertionSort_cons, orderedInsert_pairwise_iff (List.pairwise_insertionSort r l), ih,
      List.pairwise_cons]
    simp only [List.mem_insertionSort]

theorem isChain_and_pairwise {R S : α → α → Prop} (chain : l.IsChain R)
    (pairwise : l.Pairwise S) : l.IsChain fun a b => R a b ∧ S a b := by
  induction chain with
  | nil => exact .nil
  | singleton a => exact .singleton a
  | cons_cons related _ ih =>
    obtain ⟨above, rest⟩ := List.pairwise_cons.mp pairwise
    exact .cons_cons ⟨related, above _ (List.mem_cons_self ..)⟩ (ih rest)

/-- Two members are one, or related the one way or the other. -/
theorem pairwise_cases {R : α → α → Prop} {b : α} (pairwise : l.Pairwise R) (member : a ∈ l)
    (member' : b ∈ l) : a = b ∨ R a b ∨ R b a := by
  induction l with
  | nil => cases member
  | cons first l ih =>
    obtain ⟨above, rest⟩ := List.pairwise_cons.mp pairwise
    rcases List.mem_cons.mp member with rfl | there <;> rcases List.mem_cons.mp member' with rfl | there'
    · exact .inl rfl
    · exact .inr (.inl (above b there'))
    · exact .inr (.inr (above a there))
    · exact ih rest there there'

end Lists

structure Piece (β : Type) where
  start : Int
  values : List β

namespace Piece

variable {β : Type} {p q : Piece β} {run pieces : List (Piece β)} {values more : List β} {x a c : Int}
  {v : β}

def stop (p : Piece β) : Int := p.start + p.values.length

def cellsFrom (a : Int) : List β → List (Int × β)
  | [] => []
  | v :: values => (a, v) :: cellsFrom (a + 1) values

/-- The values with their places. -/
def cells (p : Piece β) : List (Int × β) := cellsFrom p.start p.values

def Covers (p : Piece β) (x : Int) : Prop := p.start ≤ x ∧ x < p.stop

def shift (c : Int) (p : Piece β) : Piece β := ⟨p.start + c, p.values⟩

def Meets (p q : Piece β) : Prop := p.stop = q.start

/-- None of the second comes before the end of the first. -/
def Before (p q : Piece β) : Prop := p.stop ≤ q.start

/-- There is a gap between them. -/
def Apart (p q : Piece β) : Prop := p.stop < q.start

/-- The pieces of a run as one. -/
def join (run : List (Piece β)) : Piece β := ⟨(run.head?.map start).getD 0, run.flatMap Piece.values⟩

theorem start_le_stop (p : Piece β) : p.start ≤ p.stop := by
  rw [stop]
  omega

theorem cellsFrom_append :
    cellsFrom a (values ++ more) = cellsFrom a values ++ cellsFrom (a + values.length) more := by
  induction values generalizing a with
  | nil => simp [cellsFrom]
  | cons v values ih =>
    have further : a + 1 + (values.length : Int) = a + ((values.length + 1 : Nat) : Int) := by omega
    rw [List.cons_append, cellsFrom, ih, cellsFrom, List.cons_append, List.length_cons, further]

theorem exists_mem_cellsFrom :
    (∃ v, (x, v) ∈ cellsFrom a values) ↔ a ≤ x ∧ x < a + values.length := by
  induction values generalizing a with
  | nil =>
    simp only [cellsFrom, List.not_mem_nil, exists_false, List.length_nil, false_iff]
    omega
  | cons v values ih =>
    simp only [cellsFrom, List.mem_cons, Prod.mk.injEq, exists_or, ih, List.length_cons,
      exists_and_left]
    constructor
    · rintro (⟨rfl, -⟩ | within)
      · omega
      · omega
    · intro within
      by_cases here : x = a
      · exact .inl ⟨here, v, rfl⟩
      · exact .inr (by omega)

theorem exists_mem_cells : (∃ v, (x, v) ∈ p.cells) ↔ p.Covers x := exists_mem_cellsFrom

theorem exists_mem_flatMap_cells :
    (∃ v, (x, v) ∈ pieces.flatMap cells) ↔ ∃ p ∈ pieces, p.Covers x := by
  simp only [List.mem_flatMap, ← exists_mem_cells]
  tauto

theorem cells_shift : (p.shift c).cells = p.cells.map fun cell => (cell.1 + c, cell.2) := by
  have moved (values : List β) (a : Int) : cellsFrom (a + c) values =
      (cellsFrom a values).map fun cell => (cell.1 + c, cell.2) := by
    induction values generalizing a with
    | nil => rfl
    | cons v values ih => rw [cellsFrom, cellsFrom, List.map_cons, ← ih, Int.add_right_comm]
  exact moved p.values p.start

theorem shift_apart : Apart (p.shift c) (q.shift c) ↔ Apart p q := by
  simp only [Apart, stop, shift]
  omega

theorem shift_covers : (p.shift c).Covers x ↔ p.Covers (x - c) := by
  simp only [Covers, stop, shift]
  omega

/-- What is covered without a gap is covered by one piece. -/
theorem one_covers (apart : pieces.Pairwise Apart) {n : Nat}
    (covered : ∀ i : Nat, i ≤ n → ∃ p ∈ pieces, p.Covers (a + i)) :
    ∃ p ∈ pieces, p.Covers a ∧ p.Covers (a + n) := by
  induction n with
  | zero =>
    obtain ⟨p, member, covers⟩ := covered 0 le_rfl
    rw [Int.natCast_zero, Int.add_zero] at covers
    exact ⟨p, member, covers, by simpa using covers⟩
  | succ n ih =>
    obtain ⟨p, member, first, last⟩ := ih fun i within => covered i (Nat.le_succ_of_le within)
    obtain ⟨q, member', next⟩ := covered (n + 1) le_rfl
    have near : p = q := by
      simp only [Covers] at first last next
      rcases pairwise_cases apart member member' with same | before | behind
      · exact same
      · simp only [Apart] at before
        omega
      · simp only [Apart] at behind
        omega
    rw [← near] at next
    exact ⟨p, member, first, next⟩

section Join

theorem join_cons_cons (meets : Meets p q) :
    join (p :: q :: run) = ⟨p.start, p.values ++ (join (q :: run)).values⟩ ∧
      (join (q :: run)).start = p.stop :=
  ⟨rfl, meets.symm⟩

/-- The pieces of a run hold the same as the run. -/
theorem cells_join (chain : run.IsChain Meets) : (join run).cells = run.flatMap cells := by
  induction run with
  | nil => rfl
  | cons p run ih =>
    cases run with
    | nil => simp [join, cells]
    | cons q run =>
      obtain ⟨meets, rest⟩ := List.isChain_cons_cons.mp chain
      obtain ⟨joined, follows⟩ := @join_cons_cons _ _ _ run meets
      rw [List.flatMap_cons, ← ih rest, joined, cells, cells, cells, cellsFrom_append, follows, stop]

theorem stop_join (chain : run.IsChain Meets) (some : run ≠ []) :
    (join run).stop = (run.getLast some).stop := by
  induction run with
  | nil => contradiction
  | cons p run ih =>
    cases run with
    | nil => simp [join, stop]
    | cons q run =>
      obtain ⟨meets, rest⟩ := List.isChain_cons_cons.mp chain
      obtain ⟨joined, follows⟩ := @join_cons_cons _ _ _ run meets
      rw [List.getLast_cons_cons, ← ih rest (List.cons_ne_nil _ _), joined, stop, stop, follows, stop,
        List.length_append, Int.natCast_add, Int.add_assoc]

theorem start_join (some : run ≠ []) : (join run).start = (run.head some).start := by
  cases run with
  | nil => contradiction
  | cons p run => rfl

instance : IsTrans (Piece β) Before where
  trans _ q _ before further := before.trans ((start_le_stop q).trans further)

instance : IsTrans (Piece β) Apart where
  trans _ q _ before further := before.trans_le ((start_le_stop q).trans further.le)

theorem chain_before (chain : run.IsChain Meets) : run.Pairwise Before :=
  List.isChain_iff_pairwise.mp (chain.imp fun _ _ meets => meets.le)

/-- A piece of a run lies within the run. -/
theorem mem_join (chain : run.IsChain Meets) (member : p ∈ run) :
    (join run).start ≤ p.start ∧ p.stop ≤ (join run).stop := by
  induction run with
  | nil => cases member
  | cons q run ih =>
    cases run with
    | nil =>
      obtain rfl := List.mem_singleton.mp member
      simp [join, stop]
    | cons q' run =>
      obtain ⟨meets, rest⟩ := List.isChain_cons_cons.mp chain
      obtain ⟨joined, follows⟩ := @join_cons_cons _ _ _ run meets
      have extended : (join (q :: q' :: run)).stop = (join (q' :: run)).stop := by
        rw [stop_join chain (List.cons_ne_nil _ _), stop_join rest (List.cons_ne_nil _ _),
          List.getLast_cons_cons]
      have ordered := start_le_stop q
      have ordered' := start_le_stop (join (q' :: run))
      have begins : (join (q :: q' :: run)).start = q.start := rfl
      rcases List.mem_cons.mp member with rfl | member
      · omega
      · have within := ih rest member
        omega

/-- Two runs of which the second does not go on where the first ends. -/
def Breaks (run next : List (Piece β)) : Prop :=
  ∃ some some', (run.getLast some).stop ≠ (next.head some').start

/-- The joined runs have gaps between them just when the pieces came one behind the other. -/
theorem joined_apart_iff {runs : List (List (Piece β))} (chains : ∀ run ∈ runs, run.IsChain Meets)
    (breaks : runs.IsChain Breaks) :
    (runs.map join).Pairwise Apart ↔ runs.flatten.Pairwise Before := by
  rw [List.pairwise_map, List.pairwise_flatten,
    and_iff_right fun run member => chain_before (chains run member)]
  constructor
  · intro apart
    refine apart.imp_of_mem fun {run next} member member' gap p there q there' => ?_
    have within := mem_join (chains run member) there
    have within' := mem_join (chains next member') there'
    simp only [Apart] at gap
    exact (within.2.trans gap.le).trans within'.1
  · intro before
    have near : (runs.map join).IsChain Apart := by
      refine (List.isChain_map _).mpr
        ((isChain_and_pairwise breaks before).imp_of_mem_imp fun run next member _ consecutive => ?_)
      obtain ⟨⟨some, some', broken⟩, ordered⟩ := consecutive
      rw [Apart, stop_join (chains run member) some, start_join some']
      exact lt_of_le_of_ne (ordered _ (List.getLast_mem some) _ (List.head_mem some')) broken
    exact List.pairwise_map.mp (List.isChain_iff_pairwise.mp near)

end Join

end Piece
end FomeFw
