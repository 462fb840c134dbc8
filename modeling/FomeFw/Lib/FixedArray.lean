import Mathlib.Logic.Function.Basic
import Mathlib.Tactic.Common

/-! Arrays of a fixed size. Every access is checked, and one outside has no result. -/
namespace FomeFw

structure FixedArray (n : Nat) (α : Type) where
  entries : Fin n → α

namespace FixedArray

variable {α : Type} {n i k : Nat}

def fill (x : α) : FixedArray n α := ⟨fun _ => x⟩

def load (a : FixedArray n α) (i : Nat) : Option α :=
  if inside : i < n then some (a.entries ⟨i, inside⟩) else none

def store (a : FixedArray n α) (i : Nat) (x : α) : Option (FixedArray n α) :=
  if inside : i < n then some ⟨Function.update a.entries ⟨i, inside⟩ x⟩ else none

/-- An access with a signed index. -/
def loadAt (a : FixedArray n α) (index : Int) : Option α :=
  if 0 ≤ index then a.load index.toNat else none

def storeAt (a : FixedArray n α) (index : Int) (x : α) : Option (FixedArray n α) :=
  if 0 ≤ index then a.store index.toNat x else none

/-- `memmove` within the array; nothing is accessed when nothing is moved. -/
def move (a : FixedArray n α) (destination source count : Nat) : Option (FixedArray n α) :=
  if inside : destination + count ≤ n ∧ source + count ≤ n then
    some ⟨fun i =>
      if within : destination ≤ i ∧ i < destination + count then
        a.entries ⟨source + (i - destination), by omega⟩
      else a.entries i⟩
  else if count = 0 then some a
  else none

variable {a b : FixedArray n α}

theorem load_of_lt (inside : i < n) : ∃ x, a.load i = some x :=
  ⟨_, dif_pos inside⟩

theorem store_of_lt (inside : i < n) (x : α) : ∃ b, a.store i x = some b :=
  ⟨_, dif_pos inside⟩

theorem move_of_le (destination : d + k ≤ n) (source : s + k ≤ n) :
    ∃ b, a.move d s k = some b :=
  ⟨_, dif_pos ⟨destination, source⟩⟩

@[simp] theorem loadAt_natCast (i : Nat) : a.loadAt i = a.load i := if_pos (Int.natCast_nonneg i)

@[simp] theorem storeAt_natCast (i : Nat) (x : α) : a.storeAt i x = a.store i x :=
  if_pos (Int.natCast_nonneg i)

@[simp] theorem load_fill (inside : i < n) (x : α) : (fill x : FixedArray n α).load i = some x :=
  dif_pos inside

theorem load_outside (outside : n ≤ i) : a.load i = none :=
  dif_neg (Nat.not_lt.mpr outside)

theorem load_of_store (stored : a.store i x = some b) (j : Nat) :
    b.load j = if j = i then some x else a.load j := by
  simp only [store, Option.dite_none_right_eq_some, Option.some.injEq] at stored
  obtain ⟨inside, rfl⟩ := stored
  by_cases same : j = i
  · subst same
    simp [load, inside]
  · by_cases within : j < n
    · simp [load, within, same]
    · simp [load, within, same]

/-- The array holds the values of a function. -/
def Holds (a : FixedArray n α) (f : Nat → α) : Prop := ∀ i < n, a.load i = some (f i)

theorem Holds.fill (x : α) : (fill x : FixedArray n α).Holds fun _ => x :=
  fun _ inside => load_fill inside x

theorem Holds.store {f : Nat → α} (holds : a.Holds f) (inside : i < n) (x : α) :
    ∃ b, a.store i x = some b ∧ b.Holds (Function.update f i x) := by
  refine ⟨_, dif_pos inside, ?_⟩
  intro j within
  have here := holds j within
  simp only [load, within, dif_pos, Option.some.injEq] at here ⊢
  by_cases same : j = i
  · subst same
    simp
  · have other : (⟨j, within⟩ : Fin n) ≠ ⟨i, inside⟩ := fun equal => same (Fin.mk.inj equal)
    rw [Function.update_of_ne other, Function.update_of_ne same, here]

/-- A loop that stores at each place in turn. -/
theorem Holds.storeRange {f g : Nat → α} {body : FixedArray n α → Nat → Option (FixedArray n α)}
    (holds : a.Holds f) (inside : k ≤ n) (stores : ∀ b, ∀ i < n, body b i = b.store i (g i)) :
    ∃ b, (List.range k).foldlM body a = some b ∧ b.Holds fun i => if i < k then g i else f i := by
  induction k with
  | zero => exact ⟨a, rfl, by simpa using holds⟩
  | succ k ih =>
    obtain ⟨b, looped, before⟩ := ih (by omega)
    obtain ⟨c, stored, after⟩ := before.store (show k < n by omega) (g k)
    refine ⟨c, ?_, fun i within => ?_⟩
    · rw [List.range_succ, List.foldlM_append, looped]
      simp [stores b k (by omega), stored]
    · rw [after i within]
      by_cases last : i = k
      · subst last
        simp
      · have same : i < k ↔ i < k + 1 := by omega
        simp [Function.update_of_ne last, same]

/-- A loop that reads. -/
theorem Holds.readAll {β : Type} {f : Nat → α} {next : β → α → β} {acc : β} {places : List Nat}
    (holds : a.Holds f) (inside : ∀ i ∈ places, i < n) :
    places.foldlM (fun acc i => do return next acc (← a.load i)) acc =
      some (places.foldl (fun acc i => next acc (f i)) acc) := by
  induction places generalizing acc with
  | nil => rfl
  | cons i places ih =>
    have here := holds i (inside i List.mem_cons_self)
    have rest := @ih (next acc (f i)) fun j member => inside j (List.mem_cons_of_mem i member)
    rw [List.foldlM_cons, here, List.foldl_cons, ← rest]
    rfl

theorem Holds.move {f : Nat → α} (holds : a.Holds f)
    (allowed : d + k ≤ n ∧ s + k ≤ n ∨ k = 0) :
    ∃ b, a.move d s k = some b ∧
      b.Holds fun i => if d ≤ i ∧ i < d + k then f (s + (i - d)) else f i := by
  by_cases inside : d + k ≤ n ∧ s + k ≤ n
  · refine ⟨_, dif_pos inside, ?_⟩
    intro i within
    simp only [load, within, dif_pos, Option.some.injEq]
    split
    · have there := holds (s + (i - d)) (by omega)
      rw [load, dif_pos (by omega), Option.some_inj] at there
      exact there
    · have here := holds i within
      rwa [load, dif_pos within, Option.some_inj] at here
  · obtain rfl := allowed.resolve_left inside
    refine ⟨a, by rw [FixedArray.move, dif_neg inside, if_pos rfl], ?_⟩
    intro i within
    have outside : ¬ (d ≤ i ∧ i < d + 0) := by omega
    simpa only [if_neg outside] using holds i within

theorem move_outside (outside : ¬ (d + k ≤ n ∧ s + k ≤ n)) (some : k ≠ 0) :
    a.move d s k = none := by
  rw [move, dif_neg outside, if_neg some]

section Blocks

variable {held more : List α}

/-- `memcpy` of a block to position `i`. -/
def storeList (a : FixedArray n α) (i : Nat) : List α → Option (FixedArray n α)
  | [] => some a
  | x :: block => do (← a.store i x).storeList (i + 1) block

/-- The first `count` entries. -/
def loadList (a : FixedArray n α) : Nat → Option (List α)
  | 0 => some []
  | count + 1 => do return (← a.loadList count) ++ [← a.load count]

/-- The array begins with these entries. -/
def Begins (a : FixedArray n α) (held : List α) : Prop :=
  ∀ i (bound : i < held.length), a.load i = some held[i]

theorem begins_nil : a.Begins [] := by
  intro i bound
  simp at bound

theorem Begins.of_append (begins : a.Begins (held ++ more)) : a.Begins held := by
  intro i bound
  rw [begins i (by rw [List.length_append]; omega), List.getElem_append_left bound]

/-- Storing what is there, or behind what is there. -/
theorem Begins.store_same (begins : a.Begins held) (stored : a.store i x = some b)
    (same : ∀ inside : i < held.length, held[i] = x) : b.Begins held := by
  intro j bound
  rw [load_of_store stored]
  split
  · next here =>
    subst here
    rw [same bound]
  · exact begins j bound

theorem Begins.set (begins : a.Begins held) (stored : a.store i x = some b) :
    b.Begins (held.set i x) := by
  intro j bound
  rw [load_of_store stored, List.getElem_set]
  rw [List.length_set] at bound
  split
  · next here => rw [if_pos here.symm]
  · next other => rw [if_neg (Ne.symm other), begins j bound]

theorem Begins.loadList (begins : a.Begins held) {count : Nat} (inside : count ≤ held.length) :
    a.loadList count = some (held.take count) := by
  induction count with
  | zero => rfl
  | succ count ih =>
    rw [FixedArray.loadList, ih (by omega), begins count (by omega)]
    exact congrArg some (List.take_append_getElem (by omega))

theorem Begins.snoc (begins : a.Begins held) (next : a.load held.length = some x) :
    a.Begins (held ++ [x]) := by
  intro i bound
  rcases Nat.lt_or_ge i held.length with before | last
  · rw [List.getElem_append_left before]
    exact begins i before
  · have same : i = held.length := by
      simp only [List.length_append, List.length_singleton] at bound
      omega
    subst same
    simpa using next

theorem Begins.store (begins : a.Begins held) (stored : a.store held.length x = some b) :
    b.Begins (held ++ [x]) := by
  have same : b.Begins held := by
    intro i bound
    rw [load_of_store stored, if_neg (by omega)]
    exact begins i bound
  apply same.snoc
  rw [load_of_store stored, if_pos rfl]

theorem Begins.storeList (begins : a.Begins held) (room : held.length + more.length ≤ n) :
    ∃ b, a.storeList held.length more = some b ∧ b.Begins (held ++ more) := by
  induction more generalizing a held with
  | nil => exact ⟨a, rfl, by simpa using begins⟩
  | cons x more ih =>
    simp only [List.length_cons] at room
    obtain ⟨a₁, stored⟩ := store_of_lt (a := a) (i := held.length) (by omega) x
    obtain ⟨b, rest, all⟩ := ih (begins.store stored) (by simp; omega)
    refine ⟨b, ?_, by simpa using all⟩
    simp only [FixedArray.storeList, stored]
    simpa using rest

/-- More entries follow, up to the end. -/
theorem Begins.completed (begins : a.Begins held) (inside : held.length + count ≤ n) :
    ∃ rest, a.Begins (held ++ rest) ∧ rest.length = count := by
  induction count generalizing held with
  | zero => exact ⟨[], by simpa using begins, rfl⟩
  | succ count ih =>
    obtain ⟨x, next⟩ := @load_of_lt _ _ held.length a (by omega)
    obtain ⟨rest, all, length⟩ := ih (begins.snoc next) (by simp; omega)
    exact ⟨x :: rest, by simpa using all, by simpa using length⟩

end Blocks

end FixedArray

end FomeFw
