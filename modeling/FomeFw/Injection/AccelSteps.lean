import FomeFw.Injection.AccelTable
import FomeFw.Lib.Machine
import Mathlib.Data.List.GetD

/-! The largest step that the enrichment sees. The first sample after a reset is compared with a
cell that was never written. -/
namespace FomeFw.Injection
open Containers Machine

/-- The samples, newest first, each with the one before it. -/
def stepsIn (window : List ℚ) : List (ℚ × ℚ) := window.zip window.tail

/-- What is found is the largest of the steps. -/
structure LargestStep (window : List ℚ) (ae : TpsAccelEnrichment) : Prop where
  step : (ae.tpsTo, ae.tpsFrom) ∈ stepsIn window
  delta : ae.deltaTps = ae.tpsTo - ae.tpsFrom
  largest : ∀ s ∈ stepsIn window, s.1 - s.2 ≤ ae.deltaTps

/-- Without two samples there is no step. -/
def SeesSteps (window : List ℚ) (ae : TpsAccelEnrichment) : Prop :=
  if window.length < 2 then ae.deltaTps = 0 else LargestStep window ae

theorem mem_steps {window : List ℚ} {s : ℚ × ℚ} :
    s ∈ stepsIn window ↔ ∃ i : Nat, window[i]? = some s.1 ∧ window[i + 1]? = some s.2 := by
  simp only [stepsIn, List.mem_iff_getElem?, List.getElem?_zip_eq_some, List.getElem?_tail]

/-! ## The search -/

/-- No step of the first `n` is larger than that which ends at `j`. -/
structure Best (f : Nat → ℚ) (n j : Nat) : Prop where
  inside : j < n
  largest : ∀ i < n, f i - f (i + 1) ≤ f j - f (j + 1)

namespace TpsAccelEnrichment

variable {cb : CyclicBuffer ℚ cbMaxSize} {f : Nat → ℚ} {ci : Int} {len j : Nat}

/-- Looking at one more step keeps the best one, or takes it. -/
theorem searchMaxDelta_best {rounds i : Nat}
    (reads : ∀ k ≤ i + rounds, cb.get (ci - k) = some (f k)) (best : Best f i j) :
    ∃ j' : Nat, searchMaxDelta cb ci rounds i (f j - f (j + 1)) (ci - j) = some (ci - j') ∧
      Best f (i + rounds) j' := by
  induction rounds generalizing i j with
  | zero => exact ⟨j, rfl, best⟩
  | succ rounds ih =>
    have newer : cb.get (ci - i) = some (f i) := reads i (by omega)
    have older : cb.get (ci - i - 1) = some (f (i + 1)) := by
      rw [← reads (i + 1) (by omega), Nat.cast_succ, Int.sub_sub]
    have later : ∀ k ≤ i + 1 + rounds, cb.get (ci - k) = some (f k) :=
      fun k bound => reads k (by omega)
    have rest : i + (rounds + 1) = i + 1 + rounds := by omega
    simp only [searchMaxDelta, newer, older, Option.bind_eq_bind, Option.bind_some]
    rw [rest, ← Nat.cast_succ]
    split
    · next larger =>
      refine ih later ⟨by omega, fun k bound => ?_⟩
      rcases Nat.lt_succ_iff_lt_or_eq.mp bound with before | rfl
      · exact (best.largest k before).trans larger.le
      · exact le_rfl
    · next smaller =>
      refine ih later ⟨best.inside.trans (Nat.lt_succ_self i), fun k bound => ?_⟩
      rcases Nat.lt_succ_iff_lt_or_eq.mp bound with before | rfl
      · exact best.largest k before
      · exact not_lt.mp smaller

/-- The search starts with the newest step. -/
theorem getMaxDeltaIndex_best (two : 2 ≤ len) (length : min (cb.mSize : Int) cb.getCountInt = len)
    (reads : ∀ k < len, cb.get ((cb.currentIndex : Int) - 1 - k) = some (f k)) :
    ∃ j : Nat, getMaxDeltaIndex cb = some ((cb.currentIndex : Int) - 1 - j, false) ∧
      Best f (len - 1) j := by
  have newer : cb.get ((cb.currentIndex : Int) - 1) = some (f 0) := by
    have read := reads 0 (by omega)
    rwa [Nat.cast_zero, Int.sub_zero] at read
  have older : cb.get ((cb.currentIndex : Int) - 1 - 1) = some (f 1) := reads 1 (by omega)
  have first : Best f 1 0 := ⟨Nat.one_pos, by
    intro i bound
    rw [Nat.lt_one_iff.mp bound]⟩
  obtain ⟨j, found, best⟩ := @searchMaxDelta_best cb f ((cb.currentIndex : Int) - 1) 0 (len - 2) 1
    (fun k bound => reads k (by omega)) first
  have enough : ¬ (len : Int) < 2 := by omega
  have rounds : ((len : Int) - 2).toNat = len - 2 := by omega
  rw [Nat.cast_zero, Int.sub_zero, Nat.cast_one] at found
  refine ⟨j, ?_, ?_⟩
  · simp only [getMaxDeltaIndex, length, enough, if_false, newer, older, rounds, found,
      Option.bind_eq_bind, Option.bind_some]
  · rwa [show 1 + (len - 2) = len - 1 by omega] at best

/-- The whole window is searched, where it is what the buffer still has. -/
theorem getMaxDeltaIndex_largest {samples : List ℚ} {n : Nat} (keeps : cb.Keeps samples)
    (few : samples.length < 2 ^ 31) (searched : (samples.take n).length = min cb.mSize samples.length)
    (two : 2 ≤ (samples.take n).length) :
    ∃ index tpsFrom tpsTo, getMaxDeltaIndex cb = some (index, false) ∧
      cb.get (index - 1) = some tpsFrom ∧ cb.get index = some tpsTo ∧
      (tpsTo, tpsFrom) ∈ stepsIn (samples.take n) ∧
      ∀ s ∈ stepsIn (samples.take n), s.1 - s.2 ≤ tpsTo - tpsFrom := by
  have count : cb.getCountInt = samples.length := by
    rw [CyclicBuffer.getCountInt_eq (keeps.count.trans_lt few), keeps.count]
  obtain ⟨len, size⟩ : ∃ len, len = (samples.take n).length := ⟨_, rfl⟩
  have within : len ≤ n := by
    rw [size, List.length_take]
    exact min_le_left _ _
  have window : ∀ k < len, (samples.take n)[k]? = some (samples.getD k 0) := by
    intro k bound
    rw [List.getElem?_take_of_lt (by omega), List.getElem?_eq_getElem (by omega),
      List.getD_eq_getElem _ _ (by omega)]
  have reads : ∀ k < len, cb.get ((cb.currentIndex : Int) - 1 - k) = some (samples.getD k 0) := by
    intro k bound
    rw [keeps.get (by omega) (by omega), List.getD_eq_getElem _ _ (by omega)]
  obtain ⟨j, found, best⟩ := getMaxDeltaIndex_best (by omega) (by omega) reads
  have inside := best.inside
  have older := reads (j + 1) (by omega)
  rw [Nat.cast_succ, ← Int.sub_sub] at older
  refine ⟨_, _, _, found, older, reads j (by omega), ?_, ?_⟩
  · exact mem_steps.mpr ⟨j, window j (by omega), window (j + 1) (by omega)⟩
  · intro s member
    obtain ⟨i, after, before⟩ := mem_steps.mp member
    have bound : i + 1 < len := by
      rw [size]
      exact (List.getElem?_eq_some_iff.mp before).1
    rw [window i (by omega), Option.some_inj] at after
    rw [window (i + 1) bound, Option.some_inj] at before
    have least := best.largest i (by omega)
    rwa [after, before] at least

end TpsAccelEnrichment

/-! ## Runs -/

/-- What the enrichment is told; the length is an `int`. -/
inductive AccelEvent where
  | onNewValue (tune : AccelTune) (currentValue : ℚ)
  | setLength (length : Int32)
  | resetAE

/-- The look-back length and the samples since the last reset, with the newest first. -/
structure AccelHistory where
  ae : TpsAccelEnrichment
  length : Int32
  samples : List ℚ

namespace AccelHistory

def step (h : AccelHistory) : AccelEvent → Option AccelHistory
  | .onNewValue tune currentValue =>
    (h.ae.onNewValue tune currentValue).map
      fun ae => { h with ae := ae, samples := currentValue :: h.samples }
  | .setLength length => some ⟨h.ae.setLength length.toInt, length, []⟩
  | .resetAE => some { h with ae := h.ae.resetAE, samples := [] }

def start : AccelHistory := ⟨.new, 4, []⟩

/-- The last samples, as many as the length is. -/
def window (h : AccelHistory) : List ℚ := h.samples.take h.length.toInt.toNat

def Sees (h : AccelHistory) : Prop := SeesSteps h.window h.ae

/-- A sample can be compared with those before it: the buffer has room for as many as the length
asks for, the count of the samples is an `int`, and the first after a reset is zero, unless no
other is kept beside it. -/
def Comparable (h : AccelHistory) (currentValue : ℚ) : Prop :=
  0 < h.length.toInt ∧ (h.length.toInt ≤ cbMaxSize ∨ h.samples.length < cbMaxSize) ∧
    h.samples.length + 1 < 2 ^ 31 ∧ (h.samples = [] → currentValue = 0 ∨ h.length.toInt = 1)

/-- The condition for the steps that were seen with the last sample. -/
def Shown (h : AccelHistory) : AccelEvent → Prop
  | .onNewValue _ currentValue => h.Comparable currentValue
  | .setLength _ | .resetAE => True

/-- There is no step up, and not only steps down. -/
def AtRest (h : AccelHistory) : Prop :=
  h.window.length < 2 ∨ (∃ s ∈ stepsIn h.window, s.1 = s.2) ∧ ∀ s ∈ stepsIn h.window, s.1 ≤ s.2

/-- The condition for the time between a reset and the next sample as well. -/
def ShownAtRest (h : AccelHistory) : AccelEvent → Prop
  | .onNewValue _ currentValue => h.Comparable currentValue
  | .setLength _ | .resetAE => h.AtRest

/-- The buffer has the samples, and nothing before there are any. -/
structure Stored (h : AccelHistory) : Prop where
  size : 0 < h.length.toInt → h.ae.cb.mSize = min h.length.toInt.toNat cbMaxSize
  keeps : 0 < h.length.toInt → h.ae.cb.Keeps h.samples
  cleared : h.samples = [] → ∀ i, h.ae.cb.elements i = 0

variable {h h' : AccelHistory} {tune : AccelTune} {currentValue : ℚ} {ae : TpsAccelEnrichment}

theorem setLength_stored (length : Int32) :
    Stored ⟨ae.setLength length.toInt, length, []⟩ where
  size positive := by
    have positive : 0 < length.toInt := positive
    have bound := length.toInt_lt
    have same : (length.toInt % 2 ^ 32).toNat = length.toInt.toNat := by omega
    simp only [TpsAccelEnrichment.setLength, CyclicBuffer.setSize, same]
    split <;> omega
  keeps positive := by
    have positive : 0 < length.toInt := positive
    have bound := length.toInt_lt
    exact CyclicBuffer.setSize_keeps (by omega) (by norm_num) (by norm_num)
  cleared _ _ := rfl

theorem resetAE_stored (stored : h.Stored) : Stored { h with ae := h.ae.resetAE, samples := [] } where
  size := stored.size
  keeps positive := (stored.keeps positive).clear
  cleared _ _ := rfl

theorem start_stored : start.Stored := setLength_stored 4

theorem addValue_stored (stored : h.Stored) (cb : ae.cb = h.ae.cb.add currentValue) :
    Stored { h with ae := ae, samples := currentValue :: h.samples } where
  size positive := by
    simp only [cb]
    exact stored.size positive
  keeps positive := by
    simp only [cb]
    exact (stored.keeps positive).add
  cleared empty := by simp at empty

theorem Comparable.getCountInt (comparable : h.Comparable currentValue) (stored : h.Stored) :
    (h.ae.cb.add currentValue).getCountInt = (h.samples.length + 1 : Nat) := by
  have count : (h.ae.cb.add currentValue).count = h.samples.length + 1 :=
    (stored.keeps comparable.1).add.count
  rw [← count]
  exact CyclicBuffer.getCountInt_eq (count.trans_lt comparable.2.2.1)

/-- The first sample is compared with zero, or with itself. -/
theorem onNewValue_alone (stored : h.Stored) (comparable : h.Comparable currentValue)
    (alone : min h.ae.cb.mSize (h.samples.length + 1) < 2) :
    ∃ ae, h.ae.onNewValue tune currentValue = some ae ∧ ae.cb = h.ae.cb.add currentValue ∧
      ae.deltaTps = 0 := by
  have positive := comparable.1
  have keeps : (h.ae.cb.add currentValue).Keeps _ := (stored.keeps positive).add
  have short : TpsAccelEnrichment.getMaxDeltaIndex (h.ae.cb.add currentValue) = some (0, true) := by
    have less : min ((h.ae.cb.add currentValue).mSize : Int)
        (h.ae.cb.add currentValue).getCountInt < 2 := by
      rw [comparable.getCountInt stored]
      have same : (h.ae.cb.add currentValue).mSize = h.ae.cb.mSize := rfl
      omega
    rw [TpsAccelEnrichment.getMaxDeltaIndex, if_pos less]
  have same : (h.ae.cb.add currentValue).elements (0 % (h.ae.cb.mSize : Int)).toNat =
      (h.ae.cb.add currentValue).elements ((0 - 1) % (h.ae.cb.mSize : Int)).toNat := by
    rcases (Nat.succ_le_of_lt keeps.positive).eq_or_lt with one | more
    · have size : h.ae.cb.mSize = 1 := one.symm
      simp [size]
    · have size := stored.size positive
      have first : h.samples = [] := by
        have none : ¬ 0 < h.samples.length := fun some => by
          have enough : 1 < h.ae.cb.mSize := more
          omega
        exact List.length_eq_zero_iff.mp (by omega)
      have zero : currentValue = 0 := by
        rcases comparable.2.2.2 first with zero | one
        · exact zero
        · have enough : 1 < h.ae.cb.mSize := more
          omega
      have cells : (h.ae.cb.add currentValue).elements = fun _ => 0 := by
        funext i
        simp only [CyclicBuffer.add, zero, Function.update_apply]
        split
        · rfl
        · exact stored.cleared first i
      rw [cells]
  simp only [TpsAccelEnrichment.onNewValue, short, CyclicBuffer.get_eq keeps.positive,
    Option.bind_eq_bind, Option.bind_some]
  exact ⟨_, rfl, rfl, sub_eq_zero_of_eq same⟩

/-- With two samples or more, the window that the length asks for is searched. -/
theorem onNewValue_several (stored : h.Stored) (comparable : h.Comparable currentValue)
    (several : 2 ≤ min h.ae.cb.mSize (h.samples.length + 1)) :
    ∃ ae, h.ae.onNewValue tune currentValue = some ae ∧ ae.cb = h.ae.cb.add currentValue ∧
      LargestStep ((currentValue :: h.samples).take h.length.toInt.toNat) ae := by
  obtain ⟨positive, room, few, -⟩ := comparable
  have asked := stored.size positive
  have searched : ((currentValue :: h.samples).take h.length.toInt.toNat).length =
      min h.ae.cb.mSize (h.samples.length + 1) := by
    rw [List.length_take, List.length_cons]
    omega
  obtain ⟨index, tpsFrom, tpsTo, found, older, newer, step, largest⟩ :=
    TpsAccelEnrichment.getMaxDeltaIndex_largest (stored.keeps positive).add few searched
      (searched ▸ several)
  simp only [TpsAccelEnrichment.onNewValue, found, older, newer, Option.bind_eq_bind,
    Option.bind_some]
  exact ⟨_, rfl, rfl, step, rfl, largest⟩

/-- Whatever came before, a sample that can be compared is seen. -/
theorem onNewValue_sees (stored : h.Stored) (comparable : h.Comparable currentValue) :
    ∃ h', h.step (.onNewValue tune currentValue) = some h' ∧ h'.Stored ∧ h'.Sees := by
  have positive := comparable.1
  have asked := stored.size positive
  have length : ((currentValue :: h.samples).take h.length.toInt.toNat).length =
      min h.length.toInt.toNat (h.samples.length + 1) := by
    rw [List.length_take, List.length_cons]
  rcases Nat.lt_or_ge (min h.ae.cb.mSize (h.samples.length + 1)) 2 with alone | several
  · obtain ⟨ae, found, cb, zero⟩ := @onNewValue_alone h tune currentValue stored comparable alone
    refine ⟨_, by rw [step, found, Option.map_some], addValue_stored stored cb, ?_⟩
    have few : ((currentValue :: h.samples).take h.length.toInt.toNat).length < 2 := by
      have table : cbMaxSize = 128 := rfl
      omega
    rw [Sees, SeesSteps, window, if_pos few]
    exact zero
  · obtain ⟨ae, found, cb, largest⟩ := @onNewValue_several h tune currentValue stored comparable several
    refine ⟨_, by rw [step, found, Option.map_some], addValue_stored stored cb, ?_⟩
    have enough : ¬ ((currentValue :: h.samples).take h.length.toInt.toNat).length < 2 := by omega
    rw [Sees, SeesSteps, window, if_neg enough]
    exact largest

/-- At rest the largest step is zero. -/
theorem AtRest.deltaTps_eq (atRest : h.AtRest) (sees : h.Sees) : h.ae.deltaTps = 0 := by
  rw [Sees, SeesSteps] at sees
  split at sees
  · exact sees
  · next several =>
    obtain ⟨⟨still, member, same⟩, down⟩ := atRest.resolve_left several
    have least := sees.largest still member
    have most := down _ sees.step
    rw [same, sub_self] at least
    rw [sees.delta] at least ⊢
    exact le_antisymm (sub_nonpos.mpr most) least

theorem sees_of_empty (empty : h.samples = []) (zero : h.ae.deltaTps = 0) : h.Sees := by
  rw [Sees, SeesSteps, window, empty, List.take_nil, if_pos (by decide)]
  exact zero

theorem shown_progress {e : AccelEvent} (shown : h.Shown e) (stored : h.Stored) :
    ∃ h', h.step e = some h' ∧ h'.Stored ∧ (h'.samples ≠ [] → h'.Sees) := by
  cases e with
  | onNewValue tune currentValue =>
    obtain ⟨h', taken, stored', sees⟩ := onNewValue_sees stored shown
    exact ⟨h', taken, stored', fun _ => sees⟩
  | setLength length => exact ⟨_, rfl, setLength_stored length, fun some => absurd rfl some⟩
  | resetAE => exact ⟨_, rfl, resetAE_stored stored, fun some => absurd rfl some⟩

theorem shownAtRest_progress {e : AccelEvent} (shown : h.ShownAtRest e) (stored : h.Stored)
    (sees : h.Sees) : ∃ h', h.step e = some h' ∧ h'.Stored ∧ h'.Sees := by
  cases e with
  | onNewValue tune currentValue => exact onNewValue_sees stored shown
  | setLength length =>
    exact ⟨_, rfl, setLength_stored length, sees_of_empty rfl (shown.deltaTps_eq sees)⟩
  | resetAE => exact ⟨_, rfl, resetAE_stored stored, sees_of_empty rfl (shown.deltaTps_eq sees)⟩

/-- In runs where every sample can be compared, the steps are seen after every sample; where
every reset comes at rest, they are seen after a reset too. -/
theorem seesSteps_always (events : List AccelEvent) :
    (Supervised step Shown start events →
      Along step (fun h => h.samples ≠ [] → h.Sees) start events) ∧
    (Supervised step ShownAtRest start events → Along step Sees start events) := by
  constructor
  · intro supervised
    have inv : start.Stored ∧ (start.samples ≠ [] → start.Sees) :=
      ⟨start_stored, fun some => absurd rfl some⟩
    exact @Supervised.along _ _ step start events _ Shown
      (fun _ h => h.Stored ∧ (h.samples ≠ [] → h.Sees)) (fun _ _ inv => inv.2)
      (fun _ _ _ shown inv => shown_progress shown inv.1) inv supervised
  · intro supervised
    exact @Supervised.along _ _ step start events _ ShownAtRest (fun _ h => h.Stored ∧ h.Sees)
      (fun _ _ inv => inv.2) (fun _ _ _ shown inv => shownAtRest_progress shown inv.1 inv.2)
      ⟨start_stored, sees_of_empty rfl rfl⟩ supervised

instance Comparable.decidable : Decidable (h.Comparable currentValue) :=
  inferInstanceAs (Decidable (_ ∧ _ ∧ _ ∧ (_ → _)))

instance AtRest.decidable : Decidable h.AtRest := inferInstanceAs (Decidable (_ ∨ _ ∧ _))

instance ShownAtRest.decidable (h : AccelHistory) : (e : AccelEvent) → Decidable (h.ShownAtRest e)
  | .onNewValue _ currentValue => inferInstanceAs (Decidable (h.Comparable currentValue))
  | .setLength _ | .resetAE => inferInstanceAs (Decidable h.AtRest)

instance Shown.decidable (h : AccelHistory) : (e : AccelEvent) → Decidable (h.Shown e)
  | .onNewValue _ currentValue => inferInstanceAs (Decidable (h.Comparable currentValue))
  | .setLength _ | .resetAE => inferInstanceAs (Decidable True)

/-- The throttle stays closed until the second sample after a reset. -/
def closedFirst : List AccelEvent :=
  [.onNewValue unequalAxes 0, .onNewValue unequalAxes 0, .resetAE, .onNewValue unequalAxes 0,
    .onNewValue unequalAxes 20]

theorem seesSteps_always_closedFirst :
    Along step (fun h => h.samples ≠ [] → h.Sees) start closedFirst ∧
      Along step Sees start closedFirst := by
  have always := seesSteps_always closedFirst
  constructor
  · exact always.1 (by decide +kernel)
  · exact always.2 (by decide +kernel)

/-- A single sample counts as a step from zero, which is above the threshold. -/
theorem seesSteps_single :
    ¬ Along step (fun h => h.samples ≠ [] → h.Sees) start [.onNewValue unequalAxes 50] := by
  rintro ⟨-, h, taken, seen⟩
  have found : (start.step (.onNewValue unequalAxes 50)).map
      (fun h => (h.samples, h.window.length, h.ae.deltaTps, h.ae.isAboveAccelThreshold)) =
      some ([50], 1, 50, true) := by
    decide +kernel
  rw [taken, Option.map_some, Option.some_inj] at found
  simp only [Prod.mk.injEq] at found
  obtain ⟨samples, one, delta, -⟩ := found
  have sees := seen (by rw [samples]; exact List.cons_ne_nil _ _)
  rw [Sees, SeesSteps, if_pos (by omega), delta] at sees
  norm_num at sees

-- With the length 0 the loop of `get` has no end.
example : ((start.step (.setLength 0)).bind (·.step (.onNewValue unequalAxes 0))).isNone = true := by
  decide +kernel

end AccelHistory

end FomeFw.Injection
