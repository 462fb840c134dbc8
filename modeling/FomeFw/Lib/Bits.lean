import Mathlib.Data.List.Nodup
import Mathlib.Data.Nat.Bitwise

/-! Loops over the set bits of a mask, from the lowest bit up. -/
namespace FomeFw.Bits

variable {S : Type} {body : Nat → S → S} {rounds mask idx i : Nat} {s : S}

/-- `while (mask) { if (mask & 1) body(idx); mask >>= 1; idx++; }`, with the number of rounds
it may make. -/
def visit (body : Nat → S → S) : Nat → Nat → Nat → S → S
  | 0, _, _, s => s
  | rounds + 1, mask, idx, s =>
    if mask = 0 then s
    else visit body rounds (mask / 2) (idx + 1) (if mask % 2 = 1 then body idx s else s)

/-- The positions visited. -/
def ones : Nat → Nat → Nat → List Nat
  | 0, _, _ => []
  | rounds + 1, mask, idx =>
    if mask % 2 = 1 then idx :: ones rounds (mask / 2) (idx + 1)
    else ones rounds (mask / 2) (idx + 1)

theorem ones_zero : ones rounds 0 idx = [] := by
  induction rounds generalizing idx with
  | zero => rfl
  | succ rounds ih => simpa [ones] using ih

theorem visit_eq_foldl :
    visit body rounds mask idx s = (ones rounds mask idx).foldl (fun s i => body i s) s := by
  induction rounds generalizing mask idx s with
  | zero => rfl
  | succ rounds ih =>
    rw [visit]
    split
    · next empty =>
      subst empty
      rw [ones_zero]
      rfl
    · rw [ih, ones]
      split <;> rfl

theorem mem_ones :
    i ∈ ones rounds mask idx ↔ idx ≤ i ∧ i < idx + rounds ∧ mask.testBit (i - idx) = true := by
  induction rounds generalizing mask idx with
  | zero => simp [ones]; omega
  | succ rounds ih =>
    rcases Nat.lt_trichotomy i idx with below | rfl | above
    · have : i ∉ ones rounds (mask / 2) (idx + 1) := by rw [ih]; omega
      rw [ones]
      split <;> simp [this] <;> omega
    · have : i ∉ ones rounds (mask / 2) (i + 1) := by rw [ih]; omega
      rw [ones]
      split
      · next odd => simp [odd]
      · next even => simp [this, even]
    · have shift : i - idx = (i - (idx + 1)) + 1 := by omega
      have rest : i ∈ ones (rounds + 1) mask idx ↔ i ∈ ones rounds (mask / 2) (idx + 1) := by
        rw [ones]
        split <;> simp [Nat.ne_of_gt above]
      rw [rest, ih, shift, Nat.testBit_add_one]
      constructor <;> rintro ⟨_, _, bit⟩ <;> exact ⟨by omega, by omega, bit⟩

theorem ones_nodup : (ones rounds mask idx).Nodup := by
  induction rounds generalizing mask idx with
  | zero => exact List.nodup_nil
  | succ rounds ih =>
    rw [ones]
    split
    · refine List.nodup_cons.mpr ⟨?_, ih⟩
      rw [mem_ones]
      omega
    · exact ih

/-- All bits of a mask that is small enough are visited. -/
theorem mem_ones_of_lt (small : mask < 2 ^ rounds) : i ∈ ones rounds mask 0 ↔ mask.testBit i = true := by
  rw [mem_ones, Nat.sub_zero, Nat.zero_add]
  refine ⟨fun visited => visited.2.2, fun bit => ⟨Nat.zero_le i, ?_, bit⟩⟩
  by_contra beyond
  rw [Nat.testBit_lt_two_pow (small.trans_le (Nat.pow_le_pow_right Nat.two_pos (not_lt.mp beyond)))] at bit
  exact Bool.false_ne_true bit

/-- A part of the state that only the visit of one position changes. -/
theorem visit_apply {V : Type} {g : S → V} {f : V → V}
    (step : ∀ j s, g (body j s) = if j = i then f (g s) else g s) (small : mask < 2 ^ rounds) :
    g (visit body rounds mask 0 s) = if mask.testBit i then f (g s) else g s := by
  have along : ∀ (l : List Nat) s, l.Nodup →
      g (l.foldl (fun s i => body i s) s) = if i ∈ l then f (g s) else g s := by
    intro l
    induction l with
    | nil => simp
    | cons j l ih =>
      intro s distinct
      obtain ⟨fresh, distinct⟩ := List.nodup_cons.mp distinct
      rw [List.foldl_cons, ih _ distinct, step]
      by_cases same : j = i
      · subst same
        simp [fresh]
      · simp [same, Ne.symm same]
  rw [visit_eq_foldl, along _ _ ones_nodup]
  simp only [mem_ones_of_lt small]

end FomeFw.Bits
