import Mathlib.Algebra.BigOperators.Group.List.Basic
import Mathlib.Data.Nat.ModEq

/-! Members of a record, one after the other, each at the next multiple of its alignment.
A list of members is tight from a position when none of them has to be moved. -/
namespace FomeFw.NaturalAlignment

/-- The next multiple of the alignment. -/
def roundUp (alignment offset : Nat) : Nat :=
  if offset % alignment = 0 then offset else offset + (alignment - offset % alignment)

section Rounding
variable {a b k n : Nat}

theorem le_roundUp (a n : Nat) : n ≤ roundUp a n := by
  unfold roundUp
  split <;> omega

theorem roundUp_of_dvd (divides : a ∣ n) : roundUp a n = n :=
  if_pos (Nat.mod_eq_zero_of_dvd divides)

@[simp] theorem roundUp_one (n : Nat) : roundUp 1 n = n := roundUp_of_dvd (Nat.one_dvd n)

theorem dvd_roundUp (positive : 0 < a) (n : Nat) : a ∣ roundUp a n := by
  unfold roundUp
  split
  · next exact' => exact Nat.dvd_of_mod_eq_zero exact'
  · have small := Nat.mod_lt n positive
    have split := Nat.div_add_mod n a
    refine ⟨n / a + 1, ?_⟩
    rw [Nat.mul_add, Nat.mul_one]
    omega

theorem roundUp_eq_self (positive : 0 < a) : roundUp a n = n ↔ a ∣ n := by
  constructor
  · intro same
    rw [← same]
    exact dvd_roundUp positive n
  · exact roundUp_of_dvd

theorem lt_roundUp (positive : 0 < a) (moved : ¬a ∣ n) : n < roundUp a n :=
  (le_roundUp a n).lt_of_ne fun same => moved ((roundUp_eq_self positive).mp same.symm)

/-- A multiple of the alignment in front makes no difference. -/
theorem roundUp_add (divides : a ∣ k) (n : Nat) : roundUp a (k + n) = k + roundUp a n := by
  have same : (k + n) % a = n % a := by
    obtain ⟨m, rfl⟩ := divides
    exact Nat.mul_add_mod _ _ _
  simp only [roundUp, same]
  split
  · rfl
  · exact Nat.add_assoc _ _ _

/-- Counting in smaller units. -/
theorem roundUp_mul (unit a n : Nat) : roundUp (unit * a) (unit * n) = unit * roundUp a n := by
  rcases Nat.eq_zero_or_pos unit with rfl | positive
  · simp [roundUp]
  · simp only [roundUp, Nat.mul_mod_mul_left, Nat.mul_eq_zero, positive.ne', false_or]
    split
    · rfl
    · rw [Nat.mul_add, Nat.mul_sub]

end Rounding

variable {α : Type} (align size : α → Nat)

/-- Where the members start. -/
def place : Nat → List α → List (Nat × α)
  | _, [] => []
  | pos, m :: members =>
    (roundUp (align m) pos, m) :: place (roundUp (align m) pos + size m) members

/-- Where the last one ends. -/
def stop : Nat → List α → Nat
  | pos, [] => pos
  | pos, m :: members => stop (roundUp (align m) pos + size m) members

def Tight : Nat → List α → Prop
  | _, [] => True
  | pos, m :: members => align m ∣ pos ∧ Tight (pos + size m) members

variable {align size} {members before after : List α} {pos k : Nat} {m : α}

section Append

@[simp] theorem place_nil : place align size pos [] = [] := rfl
@[simp] theorem stop_nil : stop align size pos [] = pos := rfl

theorem place_append : place align size pos (before ++ after) =
    place align size pos before ++ place align size (stop align size pos before) after := by
  induction before generalizing pos with
  | nil => rfl
  | cons m before ih => simp [place, stop, ih]

theorem stop_append : stop align size pos (before ++ after) =
    stop align size (stop align size pos before) after := by
  induction before generalizing pos with
  | nil => rfl
  | cons m before ih => simp [stop, ih]

theorem tight_append : Tight align size pos (before ++ after) ↔
    Tight align size pos before ∧ Tight align size (pos + (before.map size).sum) after := by
  induction before generalizing pos with
  | nil => simp [Tight]
  | cons m before ih => simp [Tight, ih, Nat.add_assoc, and_assoc]

end Append

section Bounds

theorem add_sum_le_stop : pos + (members.map size).sum ≤ stop align size pos members := by
  induction members generalizing pos with
  | nil => exact le_refl pos
  | cons m members ih =>
    have moved := le_roundUp (align m) pos
    have rest := @ih (roundUp (align m) pos + size m)
    simp only [stop, List.map_cons, List.sum_cons]
    omega

theorem le_start {placed : Nat × α} (member : placed ∈ place align size pos members) :
    pos ≤ placed.1 := by
  induction members generalizing pos with
  | nil => exact absurd member List.not_mem_nil
  | cons first members ih =>
    have moved := le_roundUp (align first) pos
    rcases List.mem_cons.mp member with rfl | later
    · exact moved
    · exact (moved.trans (Nat.le_add_right _ _)).trans (ih later)

/-- No two members overlap. -/
theorem place_apart : (place align size pos members).Pairwise fun m m' => m.1 + size m.2 ≤ m'.1 := by
  induction members generalizing pos with
  | nil => exact List.Pairwise.nil
  | cons first members ih => exact List.Pairwise.cons (fun m member => le_start member) ih

end Bounds

section Tightness

theorem Tight.stop_eq (tight : Tight align size pos members) :
    stop align size pos members = pos + (members.map size).sum := by
  induction members generalizing pos with
  | nil => simp
  | cons m members ih =>
    obtain ⟨divides, rest⟩ := tight
    simp only [stop, roundUp_of_dvd divides, ih rest, List.map_cons, List.sum_cons, Nat.add_assoc]

theorem tight_of_align_one (one : ∀ m ∈ members, align m = 1) : Tight align size pos members := by
  induction members generalizing pos with
  | nil => trivial
  | cons m members ih =>
    obtain ⟨first, rest⟩ := List.forall_mem_cons.mp one
    exact ⟨first ▸ Nat.one_dvd pos, ih rest⟩

/-- Single units, as bits are. -/
theorem place_units (one : ∀ m ∈ members, align m = 1) (unit : ∀ m ∈ members, size m = 1) :
    place align size pos members = members.mapIdx fun i m => (pos + i, m) := by
  induction members generalizing pos with
  | nil => rfl
  | cons m members ih =>
    obtain ⟨first, rest⟩ := List.forall_mem_cons.mp one
    obtain ⟨long, short⟩ := List.forall_mem_cons.mp unit
    simp only [place, first, roundUp_one, long, ih rest short, List.mapIdx_cons, Nat.add_zero,
      Nat.add_assoc, Nat.add_comm 1]

end Tightness

end FomeFw.NaturalAlignment
