import Mathlib.Data.List.Infix
import Mathlib.Order.Basic

/-! Formulas about the past, and monitors. A history holds what was observed, the latest first. A
monitor is fed one observation after the other; what it keeps in a flag or on a stopwatch comes to a
formula about the history. -/
namespace FomeFw.History

variable {E S T : Type*}

/-- It looks at an observation and at all that came before. -/
abbrev Formula (E : Type*) := List E → Prop

/-- At some observation `start` held, and `hold` has held ever since. -/
def Since (hold start : Formula E) : Formula E
  | [] => False
  | e :: past => start (e :: past) ∨ hold (e :: past) ∧ Since hold start past

def Once (φ : Formula E) : Formula E := Since (fun _ => True) φ

/-- At the latest of the observations that count, `φ` held. -/
def Latest (φ counts : Formula E) (otherwise : Prop) : Formula E
  | [] => otherwise
  | e :: past => counts (e :: past) ∧ φ (e :: past) ∨ ¬ counts (e :: past) ∧ Latest φ counts otherwise past

/-- A cause that applies, and none before it does. -/
def FirstCause {R : Type*} (causes : List (R × Formula E)) (h : List E) (reason : R) : Prop :=
  match causes with
  | [] => False
  | (r, φ) :: causes => φ h ∧ r = reason ∨ ¬ φ h ∧ FirstCause causes h reason

/-- Where a monitor is after a history. -/
def after (init : S) (step : S → E → S) (h : List E) : S := h.foldr (fun e s => step s e) init

section Formulas

variable {hold start φ counts : Formula E} {otherwise : Prop} {h : List E}

theorem since_iff : Since hold start h ↔
    ∃ s, s <:+ h ∧ s ≠ [] ∧ start s ∧ ∀ t, t <:+ h → s.length < t.length → hold t := by
  induction h with
  | nil =>
    refine iff_of_false id ?_
    rintro ⟨s, suffix, some, -⟩
    exact some (List.suffix_nil.mp suffix)
  | cons e past ih =>
    rw [Since, ih]
    constructor
    · rintro (now | ⟨holds, s, suffix, some, began, since⟩)
      · refine ⟨e :: past, List.suffix_rfl, List.cons_ne_nil _ _, now, fun t suffix longer => ?_⟩
        exact absurd suffix.length_le (Nat.not_le.mpr longer)
      · refine ⟨s, suffix.trans (List.suffix_cons _ _), some, began, fun t later longer => ?_⟩
        rcases List.suffix_cons_iff.mp later with rfl | earlier
        · exact holds
        · exact since t earlier longer
    · rintro ⟨s, suffix, some, began, since⟩
      rcases List.suffix_cons_iff.mp suffix with rfl | earlier
      · exact .inl began
      · refine .inr ⟨since _ List.suffix_rfl (Nat.lt_succ_of_le earlier.length_le), s, earlier, some,
          began, fun t later => since t (later.trans (List.suffix_cons _ _))⟩

theorem once_iff : Once φ h ↔ ∃ s, s <:+ h ∧ s ≠ [] ∧ φ s := by
  simp [Once, since_iff]

@[simp] theorem once_nil : Once φ [] ↔ False := Iff.rfl

@[simp] theorem once_cons {e : E} {past : List E} :
    Once φ (e :: past) ↔ φ (e :: past) ∨ Once φ past := by
  rw [Once, Since, true_and]

/-- With observations in order, what gets truer with time holds at the latest that counts just when
it holds at all of them. -/
theorem latest_iff (weaker : ∀ s t, s <:+ t → t <:+ h → s ≠ [] → counts s → counts t → φ t → φ s)
    (begins : otherwise) :
    Latest φ counts otherwise h ↔ ∀ s, s <:+ h → s ≠ [] → counts s → φ s := by
  induction h with
  | nil => exact iff_of_true begins fun s suffix some => absurd (List.suffix_nil.mp suffix) some
  | cons e past ih =>
    have earlier {s : List E} (suffix : s <:+ past) : s <:+ e :: past := suffix.trans (List.suffix_cons _ _)
    rw [Latest, ih fun s t first second => weaker s t first (earlier second)]
    by_cases now : counts (e :: past)
    · simp only [now, true_and, not_true, false_and, or_false]
      refine ⟨fun holds s suffix some counted => ?_,
        fun all => all _ List.suffix_rfl (List.cons_ne_nil _ _) now⟩
      exact weaker s (e :: past) suffix List.suffix_rfl some counted now holds
    · simp only [now, false_and, not_false_eq_true, true_and, false_or]
      refine ⟨fun all s suffix some counted => ?_, fun all s suffix => all s (earlier suffix)⟩
      rcases List.suffix_cons_iff.mp suffix with rfl | before
      · exact absurd counted now
      · exact all s before some counted

end Formulas

section Monitors

variable {init : S} {step : S → E → S} {h : List E} {rises falls counts : Formula E}

@[simp] theorem after_nil : after init step [] = init := rfl

@[simp] theorem after_cons (e : E) (past : List E) :
    after init step (e :: past) = step (after init step past) e := rfl

/-- A flag that some observations raise and others lower. -/
theorem flag_iff {flag : S → Bool} (lowered : flag init = false)
    (steps : ∀ e past, flag (step (after init step past) e) = true ↔
      rises (e :: past) ∨ ¬ falls (e :: past) ∧ flag (after init step past) = true) :
    flag (after init step h) = true ↔ Since (fun h => ¬ falls h) rises h := by
  induction h with
  | nil => simp [lowered, Since]
  | cons e past ih => rw [after_cons, steps, Since, ← ih]

/-- A clock that some observations set. -/
theorem clock_iff {clock : S → T} {time : List E → T} {P : T → Prop}
    (set : ∀ e past, counts (e :: past) → clock (step (after init step past) e) = time (e :: past))
    (keep : ∀ e past, ¬ counts (e :: past) →
      clock (step (after init step past) e) = clock (after init step past)) :
    P (clock (after init step h)) ↔ Latest (fun h => P (time h)) counts (P (clock init)) h := by
  induction h with
  | nil => exact Iff.rfl
  | cons e past ih =>
    rw [after_cons, Latest, ← ih]
    by_cases now : counts (e :: past)
    · simp only [set e past now, now, true_and, not_true, false_and, or_false]
    · simp only [keep e past now, now, false_and, not_false_eq_true, true_and, false_or]

end Monitors

end FomeFw.History
