import Mathlib.Data.List.Nodup
import Mathlib.Logic.Function.Basic
import Mathlib.Tactic.Common

/-! Singly linked chains over an arbitrary successor function. `Segment` relates
the pointer structure to the list of nodes it visits; a terminated chain visits
every node once, so acyclicity needs no separate invariant. -/
namespace FomeFw.Chain

variable {P : Type} {next next' : P → Option P} {start stop middle : Option P} {l l₁ l₂ : List P}

/-- Following `next` from `start` visits the nodes of `l` in order and arrives at `stop`. -/
def Segment (next : P → Option P) : Option P → List P → Option P → Prop
  | start, [], stop => start = stop
  | start, a :: l, stop => start = some a ∧ Segment next (next a) l stop

/-- A chain that ends in the null pointer. -/
abbrev Linked (next : P → Option P) (start : Option P) (l : List P) : Prop :=
  Segment next start l none

@[simp] theorem segment_nil : Segment next start [] stop ↔ start = stop := Iff.rfl

@[simp] theorem segment_cons :
    Segment next start (a :: l) stop ↔ start = some a ∧ Segment next (next a) l stop := Iff.rfl

theorem segment_append :
    Segment next start (l₁ ++ l₂) stop ↔
      ∃ middle, Segment next start l₁ middle ∧ Segment next middle l₂ stop := by
  induction l₁ generalizing start with
  | nil => simp
  | cons a l₁ ih => simp [ih, and_assoc]

theorem Segment.trans (first : Segment next start l₁ middle) (second : Segment next middle l₂ stop) :
    Segment next start (l₁ ++ l₂) stop :=
  segment_append.mpr ⟨middle, first, second⟩

theorem Segment.congr (seg : Segment next start l stop) (same : ∀ a ∈ l, next' a = next a) :
    Segment next' start l stop := by
  induction l generalizing start with
  | nil => exact seg
  | cons a l ih =>
    obtain ⟨first, rest⟩ := seg
    refine ⟨first, ?_⟩
    rw [same a (by simp)]
    exact ih rest (fun b member => same b (by simp [member]))

/-- Writing a node outside the segment leaves the segment alone. -/
theorem Segment.update [DecidableEq P] (seg : Segment next start l stop) (outside : a ∉ l)
    (target : Option P) : Segment (Function.update next a target) start l stop :=
  seg.congr (fun _ member => Function.update_of_ne (ne_of_mem_of_not_mem member outside) _ _)

theorem Segment.start_eq (seg : Segment next start l none) : start = l.head? := by
  cases l with
  | nil => exact seg
  | cons a l => exact seg.1

/-- The visited nodes are a function of the pointers. -/
theorem linked_unique (first : Linked next start l₁) (second : Linked next start l₂) : l₁ = l₂ := by
  induction l₁ generalizing start l₂ with
  | nil =>
    obtain rfl : start = none := first
    cases l₂ with
    | nil => rfl
    | cons b l₂ => exact absurd second.1 (by simp)
  | cons a l₁ ih =>
    obtain ⟨rfl, rest⟩ := first
    cases l₂ with
    | nil => exact absurd second (by simp)
    | cons b l₂ =>
      obtain ⟨same, rest'⟩ := second
      obtain rfl := Option.some.inj same
      rw [ih rest rest']

/-- A chain that reaches null cannot pass through a node twice. -/
theorem Segment.nodup (seg : Linked next start l) : l.Nodup := by
  induction l generalizing start with
  | nil => exact List.nodup_nil
  | cons a l ih =>
    obtain ⟨-, rest⟩ := seg
    refine List.nodup_cons.mpr ⟨?_, ih rest⟩
    intro member
    -- a second visit to `a` would make its own tail a proper suffix of itself
    obtain ⟨before, after, rfl⟩ := List.append_of_mem member
    obtain ⟨middle, -, again⟩ := segment_append.mp rest
    have same := linked_unique again.2 rest
    have lengths := congrArg List.length same
    simp only [List.length_append, List.length_cons] at lengths
    omega

/-- A node that points to itself starts no chain. -/
theorem not_linked_of_loop (loop : next a = some a) : ¬Linked next (some a) l := by
  induction l with
  | nil => exact fun linked => Option.some_ne_none a linked
  | cons b l ih =>
    rintro ⟨first, rest⟩
    obtain rfl := Option.some.inj first
    exact ih (loop ▸ rest)

/-- Splitting a chain at a member gives the pointer to it and the chain behind it. -/
theorem Segment.split (seg : Segment next start (l₁ ++ a :: l₂) stop) :
    Segment next start l₁ (some a) ∧ Segment next (next a) l₂ stop := by
  obtain ⟨middle, front, rfl, back⟩ := segment_append.mp seg
  exact ⟨front, back⟩

section Surgery
variable [DecidableEq P]

/-- Redirecting the last node of a segment moves its end and nothing else. -/
theorem Segment.redirect (seg : Segment next start (l ++ [a]) stop) (outside : a ∉ l)
    (target : Option P) : Segment (Function.update next a target) start (l ++ [a]) target := by
  obtain ⟨front, -⟩ := seg.split
  exact (front.update outside target).trans ⟨rfl, Function.update_self _ _ _⟩

/-- Linking a new node in behind `p`. -/
theorem Segment.insertAfter (seg : Segment next start (l₁ ++ p :: l₂) stop)
    (once : (l₁ ++ p :: l₂).Nodup) (fresh : a ∉ l₁ ++ p :: l₂) :
    Segment (Function.update (Function.update next a (next p)) p (some a)) start
      (l₁ ++ p :: a :: l₂) stop := by
  obtain ⟨front, back⟩ := seg.split
  simp only [List.mem_append, List.mem_cons, not_or] at fresh
  obtain ⟨outsideFront, different, outsideBack⟩ := fresh
  have alone := (List.nodup_middle.mp once).notMem
  simp only [List.mem_append, not_or] at alone
  refine ((front.update outsideFront _).update alone.1 _).trans ⟨rfl, ?_, ?_⟩
  · exact Function.update_self _ _ _
  · rw [Function.update_of_ne different, Function.update_self]
    exact (back.update outsideBack _).update alone.2 _

/-- Linking around the node behind `p`. -/
theorem Segment.unlinkAfter (seg : Segment next start (l₁ ++ p :: a :: l₂) stop)
    (once : (l₁ ++ p :: a :: l₂).Nodup) :
    Segment (Function.update (Function.update next p (next a)) a none) start
      (l₁ ++ p :: l₂) stop := by
  obtain ⟨front, target, back⟩ := seg.split
  have alone := (List.nodup_middle.mp once).notMem
  rw [List.append_cons] at once
  have removed := (List.nodup_middle.mp once).notMem
  simp only [List.mem_append, List.mem_cons, List.not_mem_nil, or_false, not_or] at alone removed
  refine ((front.update alone.1 _).update removed.1.1 _).trans ⟨rfl, ?_⟩
  rw [Function.update_of_ne (Ne.symm removed.1.2), Function.update_self]
  exact (back.update alone.2.2 _).update removed.2 _

end Surgery

end FomeFw.Chain
