import FomeFw.Rpm.InstantRpmCalculator
import Mathlib.Tactic.IntervalCases

/-! The times of the teeth from before the synchronization, where they end up when the place of
the first tooth is known. They are moved without clearing the places that they leave. -/
namespace FomeFw.Rpm
open Trigger

namespace InstantRpmCalculator

/-- A cleared calculator after the first events of an engine that starts. -/
def spin (c : InstantRpmCalculator) (triggerShape : TriggerWaveform) (times : Nat → Int) :
    Nat → Option InstantRpmCalculator
  | 0 => some c.resetInstantRpm
  | n + 1 =>
    (spin c triggerShape times n).bind (·.setLastEventTimeForInstantRpm triggerShape (times n))

/-- The same up to the first sync point. -/
def synchronize (c : InstantRpmCalculator) (triggerShape : TriggerWaveform) (times : Nat → Int)
    (n : Nat) : Option InstantRpmCalculator :=
  (c.spin triggerShape times n).bind (·.movePreSynchTimestamps triggerShape)

/-! ## Places relative to the sync point -/

/-- The place of a tooth that many teeth before the one that is at the sync point. -/
def toothIndex (triggerShape : TriggerWaveform) (back : Nat) : Int :=
  -(back * triggerShape.indexStep : Nat) % (triggerShape.getLength : Int)

/-- Of the first `n` teeth, the last one that has this place. -/
structure LatestTooth (triggerShape : TriggerWaveform) (n i k : Nat) : Prop where
  before : k < n
  index : toothIndex triggerShape (n - k) = i
  latest : ∀ later, k < later → later < n → toothIndex triggerShape (n - later) ≠ i

/-- Whatever time one of the first places has is that of its latest tooth. -/
def Aligned (triggerShape : TriggerWaveform) (times : Nat → Int) (n places : Nat)
    (c : InstantRpmCalculator) : Prop :=
  ∀ i < places, ∀ time, c.timeOfLastEvent.load i = some time → time ≠ 0 →
    ∃ k, LatestTooth triggerShape n i k ∧ time = .ofInt 32 (times k)

/-- Whatever the times are. -/
def Aligns (triggerShape : TriggerWaveform) (n places : Nat) : Prop :=
  ∀ (c : InstantRpmCalculator) (times : Nat → Int), ∃ c',
    c.synchronize triggerShape times n = some c' ∧ Aligned triggerShape times n places c'

/-! ## What is collected -/

/-- How many events have a place. -/
def kept (triggerShape : TriggerWaveform) (n : Nat) : Nat :=
  min n (phaseMaxCount / triggerShape.indexStep)

/-- The array after that many events. -/
def collected (triggerShape : TriggerWaveform) (times : Nat → Int) (count place : Nat) : BitVec 32 :=
  if place % triggerShape.indexStep = 0 ∧ place / triggerShape.indexStep < count then
    .ofInt 32 (times (place / triggerShape.indexStep))
  else 0

variable {c : InstantRpmCalculator} {triggerShape : TriggerWaveform} {times : Nat → Int} {n : Nat}

theorem indexStep_pos (triggerShape : TriggerWaveform) : 0 < triggerShape.indexStep := by
  rcases indexStep_cases triggerShape with step | step <;> omega

/-- The places are filled up to the end of the array. -/
theorem room_mul (triggerShape : TriggerWaveform) :
    phaseMaxCount / triggerShape.indexStep * triggerShape.indexStep = phaseMaxCount := by
  rcases indexStep_cases triggerShape with step | step
  · rw [step, Nat.div_one, Nat.mul_one]
  · rw [step]
    rfl

theorem filled_le (triggerShape : TriggerWaveform) (n : Nat) :
    kept triggerShape n * triggerShape.indexStep ≤ phaseMaxCount := by
  have fewer := Nat.mul_le_mul_right triggerShape.indexStep
    (Nat.min_le_right n (phaseMaxCount / triggerShape.indexStep))
  rwa [room_mul] at fewer

theorem kept_pos (some : n ≠ 0) : 0 < kept triggerShape n := by
  rcases indexStep_cases triggerShape with step | step
  · rw [kept, step, Nat.div_one]
    exact lt_min (Nat.pos_of_ne_zero some) (by decide)
  · rw [kept, step]
    exact lt_min (Nat.pos_of_ne_zero some) (by decide)

theorem collected_mul {count k : Nat} (before : k < count) :
    collected triggerShape times count (k * triggerShape.indexStep) = .ofInt 32 (times k) := by
  have positive := indexStep_pos triggerShape
  rw [collected, Nat.mul_mod_left, Nat.mul_div_cancel _ positive, if_pos ⟨rfl, before⟩]

/-- A time comes from one of the events. -/
theorem collected_ne_zero {count place : Nat} (some : collected triggerShape times count place ≠ 0) :
    ∃ k < count, place = k * triggerShape.indexStep := by
  rw [collected] at some
  split at some
  · next filled =>
    exact ⟨_, filled.2, (Nat.div_mul_cancel (Nat.dvd_of_mod_eq_zero filled.1)).symm⟩
  · exact absurd rfl some

theorem collected_update :
    Function.update (collected triggerShape times n) (n * triggerShape.indexStep)
      (.ofInt 32 (times n)) = collected triggerShape times (n + 1) := by
  funext place
  rw [Function.update_apply]
  split
  · next here => rw [here, collected_mul (Nat.lt_succ_self n)]
  · next other =>
    have elsewhere : place % triggerShape.indexStep = 0 → place / triggerShape.indexStep ≠ n := by
      intro whole same
      apply other
      rw [← same, Nat.div_mul_cancel (Nat.dvd_of_mod_eq_zero whole)]
    have same : (place % triggerShape.indexStep = 0 ∧ place / triggerShape.indexStep < n) ↔
        place % triggerShape.indexStep = 0 ∧ place / triggerShape.indexStep < n + 1 := by
      refine and_congr_right fun whole => ?_
      have next := elsewhere whole
      omega
    simp only [collected, same]

theorem spin_spec (c : InstantRpmCalculator) (triggerShape : TriggerWaveform) (times : Nat → Int)
    (n : Nat) :
    ∃ c', c.spin triggerShape times n = some c' ∧
      c'.spinningEventIndex = kept triggerShape n * triggerShape.indexStep ∧
      c'.timeOfLastEvent.Holds (collected triggerShape times (kept triggerShape n)) := by
  have room := room_mul triggerShape
  induction n with
  | zero =>
    have none : kept triggerShape 0 = 0 := Nat.zero_min _
    refine ⟨_, rfl, ?_, ?_⟩
    · rw [none, Nat.zero_mul]
      rfl
    · intro i inside
      rw [none, collected, if_neg (fun filled => Nat.not_lt_zero _ filled.2)]
      exact FixedArray.load_fill inside 0
  | succ n ih =>
    obtain ⟨c₁, spun, index, holds⟩ := ih
    rw [spin, spun, Option.bind_some, setLastEventTimeForInstantRpm]
    rcases Nat.lt_or_ge n (phaseMaxCount / triggerShape.indexStep) with free | full
    · have all : kept triggerShape n = n := Nat.min_eq_left free.le
      have more : kept triggerShape (n + 1) = n + 1 := Nat.min_eq_left free
      have inside : n * triggerShape.indexStep < phaseMaxCount := by
        rw [← room]
        exact Nat.mul_lt_mul_of_pos_right free (indexStep_pos triggerShape)
      rw [all] at index holds
      obtain ⟨times', stored, holds'⟩ := holds.store inside (.ofInt 32 (times n))
      rw [index, if_neg (not_le.mpr inside), stored]
      refine ⟨_, rfl, ?_, ?_⟩
      · rw [more, Nat.succ_mul]
      · rwa [more, ← collected_update]
    · have all : kept triggerShape n = phaseMaxCount / triggerShape.indexStep :=
        Nat.min_eq_right full
      have more : kept triggerShape (n + 1) = kept triggerShape n := by
        rw [all]
        exact Nat.min_eq_right (full.trans (Nat.le_succ n))
      rw [if_pos (by rw [index, all, room])]
      exact ⟨c₁, rfl, by rw [index, more], by rwa [more]⟩

/-- Where the array takes the time of a place from, when so many places are filled. -/
def origin (size filled i : Nat) : Nat :=
  if i < size ∧ size ≤ i + filled then i + filled - size else i

/-- The times of the last cycle end at the end of the table, and the others stay. -/
def Moved (triggerShape : TriggerWaveform) (times : Nat → Int) (n : Nat)
    (c : InstantRpmCalculator) : Prop :=
  c.timeOfLastEvent.Holds fun i => collected triggerShape times (kept triggerShape n)
    (origin triggerShape.getLength (kept triggerShape n * triggerShape.indexStep) i)

theorem synchronize_moved (c : InstantRpmCalculator) (triggerShape : TriggerWaveform)
    (times : Nat → Int) (n : Nat) (room : triggerShape.getLength ≤ phaseMaxCount ∨ n = 0) :
    ∃ c', c.synchronize triggerShape times n = some c' ∧ Moved triggerShape times n c' := by
  obtain ⟨c₁, spun, index, holds⟩ := spin_spec c triggerShape times n
  have bound := filled_le triggerShape n
  have none : n = 0 → kept triggerShape n * triggerShape.indexStep = 0 := by
    rintro rfl
    rw [kept, Nat.zero_min, Nat.zero_mul]
  rw [synchronize, spun, Option.bind_some, movePreSynchTimestamps]
  simp only [index, Moved]
  generalize kept triggerShape n * triggerShape.indexStep = filled at bound none ⊢
  rcases Nat.lt_or_ge filled triggerShape.getLength with short | whole
  · obtain ⟨times', moved, holds'⟩ := holds.move
      (d := triggerShape.getLength - filled) (k := filled) (s := 0) (by omega)
    rw [Nat.min_eq_left short.le, if_neg (not_le.mpr short)]
    simp only [moved]
    refine ⟨_, rfl, fun i inside => ?_⟩
    refine (holds' i inside).trans (congrArg some ?_)
    simp only [origin]
    split_ifs <;> first | omega | exact congrArg _ (by omega)
  · obtain ⟨times', moved, holds'⟩ := holds.move
      (d := 0) (k := triggerShape.getLength) (s := filled - triggerShape.getLength)
      (by omega)
    rw [Nat.min_eq_right whole, if_pos le_rfl]
    simp only [moved]
    refine ⟨_, rfl, fun i inside => ?_⟩
    refine (holds' i inside).trans (congrArg some ?_)
    simp only [origin]
    split_ifs <;> first | omega | exact congrArg _ (by omega)

/-- A table that is longer than the array leads outside it. -/
theorem synchronize_outside (outside : phaseMaxCount < triggerShape.getLength) (some : n ≠ 0) :
    c.synchronize triggerShape times n = none := by
  obtain ⟨c₁, spun, index, -⟩ := spin_spec c triggerShape times n
  have bound := filled_le triggerShape n
  have positive : 0 < kept triggerShape n * triggerShape.indexStep :=
    Nat.mul_pos (kept_pos some) (indexStep_pos triggerShape)
  have short : kept triggerShape n * triggerShape.indexStep < triggerShape.getLength := by omega
  rw [synchronize, spun, Option.bind_some, movePreSynchTimestamps]
  simp only [index, Nat.min_eq_left short.le, if_neg (not_le.mpr short)]
  rw [FixedArray.move_outside (by omega) (by omega)]
  rfl

/-! ## Which times are at their places -/

section Tooth

variable {back i k : Nat}

/-- Counted back from the end of the table, within one cycle. -/
theorem toothIndex_eq (some : 0 < back)
    (within : back * triggerShape.indexStep ≤ triggerShape.getLength) :
    toothIndex triggerShape back =
      triggerShape.getLength - (back * triggerShape.indexStep : Nat) := by
  have positive := Nat.mul_pos some (indexStep_pos triggerShape)
  rw [toothIndex, ← Int.add_emod_right, Int.emod_eq_of_lt (by omega) (by omega)]
  omega

theorem toothIndex_lt (some : 0 < back) :
    toothIndex triggerShape back < triggerShape.getLength := by
  have positive := Nat.mul_pos some (indexStep_pos triggerShape)
  rw [toothIndex]
  rcases Nat.eq_zero_or_pos triggerShape.getLength with none | places
  · rw [none, Nat.cast_zero, Int.emod_zero]
    omega
  · exact Int.emod_lt_of_pos _ (by omega)

/-- The tooth that is counted back from the end of the table is the latest of its place. -/
theorem latestTooth_of_sum (before : k < n)
    (sum : i + (n - k) * triggerShape.indexStep = triggerShape.getLength) :
    LatestTooth triggerShape n i k where
  before := before
  index := by
    rw [toothIndex_eq (by omega) (by omega)]
    omega
  latest later after inside := by
    have closer : (n - later) * triggerShape.indexStep < (n - k) * triggerShape.indexStep :=
      Nat.mul_lt_mul_of_pos_right (by omega) (indexStep_pos triggerShape)
    rw [toothIndex_eq (by omega) (by omega)]
    omega

end Tooth

/-- What is taken from the place of an event for a place in the table, was collected so long
before the end of the cycle. -/
theorem sum_of_origin {size filled step i k count : Nat} (whole : size ≤ filled) (inside : i < size)
    (count' : filled = count * step) (taken : origin size filled i = k * step) :
    i + (count - k) * step = size := by
  rw [origin, if_pos ⟨inside, by omega⟩] at taken
  rw [Nat.sub_mul, ← count', ← taken]
  omega

theorem kept_of_le (all : n * triggerShape.indexStep ≤ phaseMaxCount) :
    kept triggerShape n = n :=
  Nat.min_eq_left ((Nat.le_div_iff_mul_le (indexStep_pos triggerShape)).mpr all)

theorem kept_of_lt (more : phaseMaxCount < n * triggerShape.indexStep) :
    kept triggerShape n < n ∧ kept triggerShape n * triggerShape.indexStep = phaseMaxCount := by
  have fewer : phaseMaxCount / triggerShape.indexStep < n :=
    (Nat.div_lt_iff_lt_mul (indexStep_pos triggerShape)).mpr more
  rw [kept, Nat.min_eq_right fewer.le]
  exact ⟨fewer, room_mul triggerShape⟩

theorem Moved.load {i : Nat} (moved : Moved triggerShape times n c) (within : i < phaseMaxCount) :
    c.timeOfLastEvent.load i = some (collected triggerShape times (kept triggerShape n)
      (origin triggerShape.getLength (kept triggerShape n * triggerShape.indexStep) i)) :=
  moved i within

/-- Where every time is taken from its tooth, the places are aligned. -/
theorem Moved.aligned {places : Nat} (moved : Moved triggerShape times n c)
    (teeth : ∀ i < places, i < phaseMaxCount → ∀ k < kept triggerShape n,
      origin triggerShape.getLength (kept triggerShape n * triggerShape.indexStep) i =
        k * triggerShape.indexStep → LatestTooth triggerShape n i k) :
    Aligned triggerShape times n places c := by
  intro i inside time loaded some
  have within : i < phaseMaxCount := by
    by_contra outside
    rw [FixedArray.load_outside (not_lt.mp outside)] at loaded
    contradiction
  rw [moved.load within, Option.some_inj] at loaded
  obtain ⟨k, before, taken⟩ := collected_ne_zero (loaded ▸ some)
  rw [taken, collected_mul before] at loaded
  exact ⟨k, teeth i inside within k before taken, loaded.symm⟩

/-- Times that tell apart all events that are kept. -/
def numbered (k : Nat) : Int := if k < phaseMaxCount then (k + 1 : Nat) else 0

theorem numbered_ofInt (k : Nat) :
    (BitVec.ofInt 32 (numbered k)).toNat = if k < phaseMaxCount then k + 1 else 0 := by
  have room : phaseMaxCount = 280 := rfl
  rw [numbered]
  split
  · rw [BitVec.ofInt_natCast, BitVec.toNat_ofNat, Nat.mod_eq_of_lt (by omega)]
  · rfl

/-- What is aligned is taken from the tooth of the place. -/
theorem Moved.latest {places i k : Nat} (moved : Moved triggerShape numbered n c)
    (aligned : Aligned triggerShape numbered n places c) (inside : i < places)
    (within : i < phaseMaxCount) (before : k < kept triggerShape n)
    (taken : origin triggerShape.getLength (kept triggerShape n * triggerShape.indexStep) i =
      k * triggerShape.indexStep) : LatestTooth triggerShape n i k := by
  have few : k < phaseMaxCount := by
    have bound := filled_le triggerShape n
    have steps := Nat.le_mul_of_pos_right (kept triggerShape n) (indexStep_pos triggerShape)
    omega
  have loaded := moved.load within
  rw [taken, collected_mul before] at loaded
  have known := numbered_ofInt k
  rw [if_pos few] at known
  have some : BitVec.ofInt 32 (numbered k) ≠ 0 := by
    intro zero
    rw [zero] at known
    exact absurd known (Nat.succ_ne_zero k).symm
  obtain ⟨j, latest, same⟩ := aligned i inside _ loaded some
  have other := numbered_ofInt j
  rw [← same, known] at other
  obtain rfl : j = k := by
    split at other <;> omega
  exact latest

theorem aligns_nothing (places : Nat) : Aligns triggerShape 0 places := by
  intro c times
  obtain ⟨c', done, moved⟩ := synchronize_moved c triggerShape times 0 (.inr rfl)
  refine ⟨c', done, moved.aligned fun i inside within k before => ?_⟩
  rw [kept, Nat.zero_min] at before
  omega

theorem aligns_table (whole : triggerShape.getLength ≤ n * triggerShape.indexStep)
    (all : n * triggerShape.indexStep ≤ phaseMaxCount ∨
      triggerShape.getLength < triggerShape.indexStep) :
    Aligns triggerShape n triggerShape.getLength := by
  have room : triggerShape.getLength ≤ phaseMaxCount := by
    have size : phaseMaxCount = 280 := rfl
    rcases indexStep_cases triggerShape with step | step <;> omega
  intro c times
  obtain ⟨c', done, moved⟩ := synchronize_moved c triggerShape times n (.inl room)
  refine ⟨c', done, moved.aligned fun i inside within k before taken => ?_⟩
  rcases Nat.lt_or_ge phaseMaxCount (n * triggerShape.indexStep) with more | fits
  · -- Places shorter than one step take their times from between two events.
    obtain ⟨-, filled⟩ := kept_of_lt more
    have sum := sum_of_origin (by omega) inside rfl taken
    have step := Nat.le_mul_of_pos_left triggerShape.indexStep
      (show 0 < kept triggerShape n - k by omega)
    omega
  · rw [kept_of_le fits] at before taken
    exact latestTooth_of_sum before (sum_of_origin whole inside rfl taken)

theorem aligns_array (whole : triggerShape.getLength ≤ n * triggerShape.indexStep)
    (once : n * triggerShape.indexStep < triggerShape.getLength + triggerShape.indexStep)
    (fits : n * triggerShape.indexStep ≤ phaseMaxCount) :
    Aligns triggerShape n phaseMaxCount := by
  intro c times
  obtain ⟨c', done, moved⟩ := synchronize_moved c triggerShape times n (.inl (by omega))
  refine ⟨c', done, moved.aligned fun i inside within k before taken => ?_⟩
  rw [kept_of_le fits] at before taken
  rcases Nat.lt_or_ge i triggerShape.getLength with table | behind
  · exact latestTooth_of_sum before (sum_of_origin whole table rfl taken)
  · rw [origin, if_neg (by omega)] at taken
    have next := Nat.mul_le_mul_right triggerShape.indexStep (show k + 1 ≤ n from before)
    rw [Nat.succ_mul] at next
    omega

/-- Without a whole cycle, the first time stays at the place of the sync point. -/
theorem whole_of_aligned {places : Nat} (moved : Moved triggerShape numbered n c)
    (aligned : Aligned triggerShape numbered n places c) (some : n ≠ 0) (inside : 0 < places)
    (room : triggerShape.getLength ≤ phaseMaxCount) :
    triggerShape.getLength ≤ kept triggerShape n * triggerShape.indexStep := by
  by_contra short
  have taken : origin triggerShape.getLength (kept triggerShape n * triggerShape.indexStep) 0 =
      0 * triggerShape.indexStep := by
    rw [origin, if_neg (by omega), Nat.zero_mul]
  have first := moved.latest aligned inside (by decide) (kept_pos some) taken
  have fits : n * triggerShape.indexStep ≤ phaseMaxCount := by
    by_contra more
    obtain ⟨-, filled⟩ := kept_of_lt (not_le.mp more)
    omega
  rw [kept_of_le fits] at short
  have index := first.index
  rw [Nat.sub_zero, toothIndex_eq (by omega) (by omega)] at index
  omega

theorem pred_mul (some : n ≠ 0) :
    (kept triggerShape n - 1) * triggerShape.indexStep + triggerShape.indexStep =
      kept triggerShape n * triggerShape.indexStep := by
  rw [← Nat.succ_mul, Nat.succ_eq_add_one, Nat.sub_add_cancel (kept_pos some)]

/-- Where events were dropped, the last that was kept is not the last tooth. -/
theorem fits_of_aligned {places : Nat} (moved : Moved triggerShape numbered n c)
    (aligned : Aligned triggerShape numbered n places c) (some : n ≠ 0)
    (table : triggerShape.getLength ≤ places)
    (whole : triggerShape.getLength ≤ kept triggerShape n * triggerShape.indexStep) :
    n * triggerShape.indexStep ≤ phaseMaxCount ∨
      triggerShape.getLength < triggerShape.indexStep := by
  by_contra! dropped
  obtain ⟨more, teeth⟩ := dropped
  have step := indexStep_pos triggerShape
  have bound := filled_le triggerShape n
  have last := @pred_mul triggerShape n some
  have taken : origin triggerShape.getLength (kept triggerShape n * triggerShape.indexStep)
      (triggerShape.getLength - triggerShape.indexStep) =
        (kept triggerShape n - 1) * triggerShape.indexStep := by
    rw [origin, if_pos (by omega)]
    omega
  have fewer := (kept_of_lt more).1
  have positive := @kept_pos triggerShape n some
  have tooth := moved.latest aligned (by omega) (by omega) (by omega) taken
  have index := tooth.latest (n - 1) (by omega) (by omega)
  rw [toothIndex_eq (by omega) (by rw [show n - (n - 1) = 1 by omega, Nat.one_mul]; exact teeth),
    show n - (n - 1) = 1 by omega, Nat.one_mul] at index
  omega

/-- The time of the last event stays behind the table where there is more than one cycle. -/
theorem once_of_aligned (moved : Moved triggerShape numbered n c)
    (aligned : Aligned triggerShape numbered n phaseMaxCount c) (some : n ≠ 0) :
    kept triggerShape n * triggerShape.indexStep <
      triggerShape.getLength + triggerShape.indexStep := by
  by_contra! again
  have step := indexStep_pos triggerShape
  have bound := filled_le triggerShape n
  have last := @pred_mul triggerShape n some
  have positive := @kept_pos triggerShape n some
  have taken : origin triggerShape.getLength (kept triggerShape n * triggerShape.indexStep)
      ((kept triggerShape n - 1) * triggerShape.indexStep) =
        (kept triggerShape n - 1) * triggerShape.indexStep := by
    rw [origin, if_neg (by omega)]
  have tooth := moved.latest aligned (by omega) (by omega) (by omega) taken
  have inside := @toothIndex_lt triggerShape (n - (kept triggerShape n - 1)) (by
    have before := tooth.before
    omega)
  rw [tooth.index] at inside
  omega

/-- With a place for every tooth of the cycle, or without any tooth, something is found. -/
theorem Aligns.room {places : Nat} (aligns : Aligns triggerShape n places) (some : n ≠ 0) :
    triggerShape.getLength ≤ phaseMaxCount := by
  by_contra! outside
  obtain ⟨c', done, -⟩ := aligns {} numbered
  rw [synchronize_outside outside some] at done
  contradiction

theorem Aligns.whole {places : Nat} (aligns : Aligns triggerShape n places) (some : n ≠ 0)
    (table : triggerShape.getLength ≤ places) :
    triggerShape.getLength ≤ n * triggerShape.indexStep ∧
      (n * triggerShape.indexStep ≤ phaseMaxCount ∨
        triggerShape.getLength < triggerShape.indexStep) := by
  have room := aligns.room some
  obtain ⟨c', done, aligned⟩ := aligns {} numbered
  obtain ⟨c'', done', moved⟩ := synchronize_moved {} triggerShape numbered n (.inl room)
  obtain rfl := Option.some.inj (done.symm.trans done')
  have steps : kept triggerShape n * triggerShape.indexStep ≤ n * triggerShape.indexStep :=
    Nat.mul_le_mul_right _ (Nat.min_le_left _ _)
  rcases Nat.eq_zero_or_pos places with none | inside
  · have step := indexStep_pos triggerShape
    exact ⟨by omega, .inr (by omega)⟩
  · have whole := whole_of_aligned moved aligned some inside room
    exact ⟨whole.trans steps, fits_of_aligned moved aligned some table whole⟩

/-- Exactly when the times are at their places, in the table and in the whole array: no event was
dropped and at least one cycle was seen, and for the whole array not more than that. -/
theorem aligns_iff (triggerShape : TriggerWaveform) (n : Nat) :
    (Aligns triggerShape n triggerShape.getLength ↔
      n = 0 ∨ triggerShape.getLength ≤ n * triggerShape.indexStep ∧
        (n * triggerShape.indexStep ≤ phaseMaxCount ∨
          triggerShape.getLength < triggerShape.indexStep)) ∧
    (Aligns triggerShape n phaseMaxCount ↔
      n = 0 ∨ triggerShape.getLength ≤ n * triggerShape.indexStep ∧
        n * triggerShape.indexStep < triggerShape.getLength + triggerShape.indexStep ∧
        n * triggerShape.indexStep ≤ phaseMaxCount) := by
  refine ⟨⟨fun aligns => ?_, ?_⟩, ⟨fun aligns => ?_, ?_⟩⟩
  · rcases eq_or_ne n 0 with none | some
    · exact .inl none
    · exact .inr (aligns.whole some le_rfl)
  · rintro (rfl | ⟨whole, all⟩)
    · exact aligns_nothing _
    · exact aligns_table whole all
  · rcases eq_or_ne n 0 with none | some
    · exact .inl none
    · have room := aligns.room some
      obtain ⟨whole, all⟩ := aligns.whole some room
      obtain ⟨c', done, aligned⟩ := aligns {} numbered
      obtain ⟨c'', done', moved⟩ := synchronize_moved {} triggerShape numbered n (.inl room)
      obtain rfl := Option.some.inj (done.symm.trans done')
      have once := once_of_aligned moved aligned some
      have fits : n * triggerShape.indexStep ≤ phaseMaxCount := by
        by_contra! more
        have size : phaseMaxCount = 280 := rfl
        have filled := (kept_of_lt more).2
        rcases indexStep_cases triggerShape with step | step <;> omega
      rw [kept_of_le fits] at once
      exact .inr ⟨whole, once, fits⟩
  · rintro (rfl | ⟨whole, once, fits⟩)
    · exact aligns_nothing _
    · exact aligns_array whole once fits

/-- Three teeth of a wheel with eight: the first has its time at the sync point too, five teeth
away from its place. -/
theorem synchronize_stale :
    ∃ c', synchronize {} miataNb2Crank (fun k => 1000 * (k + 1)) 3 = some c' ∧
      c'.timeOfLastEvent.load 0 = some 1000 ∧ c'.timeOfLastEvent.load 10 = some 1000 ∧
      ¬ Aligned miataNb2Crank (fun k => 1000 * (k + 1)) 3 miataNb2Crank.getLength c' := by
  have length : miataNb2Crank.getLength = 16 := by decide +kernel
  obtain ⟨c', done, moved⟩ :=
    synchronize_moved {} miataNb2Crank (fun k => 1000 * (k + 1)) 3 (.inl (by rw [length]; decide))
  have stale : c'.timeOfLastEvent.load 0 = some 1000 := by
    rw [moved.load (by decide), length]
    rfl
  have placed : c'.timeOfLastEvent.load 10 = some 1000 := by
    rw [moved.load (by decide), length]
    rfl
  refine ⟨c', done, stale, placed, ?_⟩
  intro aligned
  obtain ⟨k, tooth, -⟩ := aligned 0 (by rw [length]; decide) _ stale (by decide)
  have index := tooth.index
  have before := tooth.before
  rw [toothIndex, length] at index
  interval_cases k <;> revert index <;> decide

end InstantRpmCalculator

end FomeFw.Rpm
