import FomeFw.Trigger.EventAngles
import FomeFw.Trigger.PhaseWindows
import FomeFw.Trigger.WheelRun
import Mathlib.Tactic.LinearCombination

/-! The table of angles on the turning wheel: the decoder counts indices, the table was
filled by another loop, and both come to the same place for the edges of a wave form whose
levels change at every event. -/
namespace FomeFw.Trigger
open Turning

namespace TriggerWaveform
variable {shape : TriggerWaveform} {i j k m : Nat}

/-- Every event changes the level of its channel, and of no other. -/
def EdgesOnly (shape : TriggerWaveform) : Prop :=
  ∀ i < shape.getSize, ∀ channel, shape.needEvent i channel = true ↔ shape.channelIndex i = channel

instance : Decidable shape.EdgesOnly :=
  decidable_of_iff (∀ i < shape.getSize,
      (shape.needEvent i .primary = true ↔ shape.channelIndex i = .primary) ∧
        (shape.needEvent i .secondary = true ↔ shape.channelIndex i = .secondary)) <| by
    refine forall₂_congr fun i _ => ⟨fun both channel => ?_, fun all => ⟨all _, all _⟩⟩
    cases channel
    · exact both.1
    · exact both.2

section Levels

theorem getChannelState_event (i : Nat) :
    shape.getChannelState (shape.channelIndex i) i = shape.isRiseEvent i := by
  cases i <;> simp [getChannelState]

theorem getPreviousIndex_succ (inside : i + 1 < shape.getSize) :
    getPreviousIndex (i + 1) shape.getSize = i := by
  rw [getPreviousIndex, show i + 1 + shape.getSize - 1 = i + shape.getSize by omega,
    Nat.add_mod_right, Nat.mod_eq_of_lt (by omega)]

/-- How many channels are high after an event. -/
def levels (shape : TriggerWaveform) (i : Nat) : Nat :=
  (shape.getChannelState .primary i).toNat + (shape.getChannelState .secondary i).toNat

theorem levels_step (edges : shape.EdgesOnly) (inside : i < shape.getSize) :
    let before := shape.levels (getPreviousIndex i shape.getSize)
    if shape.isRiseEvent i then shape.levels i = before + 1 else before = shape.levels i + 1 := by
  have primary := edges i inside .primary
  have secondary := edges i inside .secondary
  have here := @getChannelState_event shape i
  simp only [needEvent, decide_eq_true_eq] at primary secondary
  simp only [levels]
  cases channel : shape.channelIndex i <;> rw [channel] at here primary secondary <;>
    cases rise : shape.isRiseEvent i <;>
    cases first : shape.getChannelState .primary (getPreviousIndex i shape.getSize) <;>
    cases second : shape.getChannelState .secondary (getPreviousIndex i shape.getSize) <;>
    simp_all

/-- Up to any event, the rises make the level. -/
theorem count_rises (edges : shape.EdgesOnly) (inside : m < shape.getSize) :
    2 * Nat.count (fun i => shape.isRiseEvent i = true) (m + 1) + shape.levels (shape.getSize - 1) =
      m + 1 + shape.levels m := by
  have step := levels_step edges inside
  have grows := Nat.count_succ (fun i => shape.isRiseEvent i = true) m
  induction m with
  | zero =>
    have previous : getPreviousIndex 0 shape.getSize = shape.getSize - 1 := by
      rw [getPreviousIndex, Nat.zero_add, Nat.mod_eq_of_lt (by omega)]
    rw [previous] at step
    rw [Nat.count_zero] at grows
    split at step
    · next rise => rw [if_pos rise] at grows; omega
    · next fall => rw [if_neg fall] at grows; omega
  | succ m ih =>
    have before := ih (by omega) (levels_step edges (by omega)) (Nat.count_succ _ m)
    rw [getPreviousIndex_succ inside] at step
    split at step
    · next rise => rw [if_pos rise] at grows; omega
    · next fall => rw [if_neg fall] at grows; omega

/-- The index runs through the positions of one turn: with rising edges only it counts double,
and half of the events are rises. -/
theorem indexStep_turn (edges : shape.EdgesOnly) (some : 0 < shape.getSize) :
    shape.indexStep * Nat.count shape.Useful shape.getSize = shape.getSize := by
  have within : ∀ n ≤ shape.getSize, Nat.count shape.Useful n = Nat.count
      (fun i => shape.useOnlyRisingEdges = true → shape.isRiseEvent i = true) n := by
    intro n inside
    induction n with
    | zero => rfl
    | succ n ih =>
      have useful : shape.Useful n ↔
          (shape.useOnlyRisingEdges = true → shape.isRiseEvent n = true) := by
        rw [useful_iff, Nat.mod_eq_of_lt (by omega)]
      rw [Nat.count_succ, Nat.count_succ, ih (by omega)]
      simp only [useful]
  rw [within _ (le_refl _), indexStep]
  cases riseOnly : shape.useOnlyRisingEdges with
  | true =>
    have total := count_rises edges (Nat.sub_lt some Nat.one_pos)
    rw [Nat.sub_add_cancel some] at total
    simp only [if_true, forall_const]
    omega
  | false => simp [Nat.count_true]

end Levels

section Table
variable {synch e t : Nat}

theorem marks_mono {p : Nat → Prop} [DecidablePred p] (order : i ≤ j) (later : j ≤ k) :
    marks p i j ≤ marks p i k := by
  have split := marks_add (p := p) order later
  omega

/-- Counting on from the sync point, an edge has this index. -/
def indexOf (shape : TriggerWaveform) (synch e : Nat) : Nat :=
  shape.indexStep * marks shape.Useful (synch + 1) (synch + e + 1)

theorem indexOf_both (both : shape.useOnlyRisingEdges = false) : shape.indexOf synch e = e := by
  have all : ∀ i, shape.Useful i := fun i => (shape.useful_iff i).mpr (by simp [both])
  simp only [indexOf, indexStep, both, marks_eq_length all]
  simp

/-- What the loop has filled in for the first `m` edges. -/
structure FilledIn (shape : TriggerWaveform) (synch m : Nat) (table : AngleTable) : Prop where
  riseOnlyIndex : shape.useOnlyRisingEdges = true →
    table.riseOnlyIndex = 2 * marks shape.Useful (synch + 1) (synch + m)
  eventAngles : ∀ e < m, shape.Useful (synch + e) →
    table.eventAngles (shape.indexOf synch e) = shape.relativeAngle synch e

theorem prepareEventAngle_first (inside : synch < shape.getSize) :
    FilledIn shape synch 1 (shape.prepareEventAngle synch {} 0) where
  riseOnlyIndex _ := by simp [prepareEventAngle]
  eventAngles e first _ := by
    obtain rfl : e = 0 := by omega
    have length : shape.getSize ≤ shape.getLength := by
      rw [shape.getLength_eq]
      exact Nat.le_mul_of_pos_left _ (getCrankDivider_pos _)
    rw [relativeAngle_eq inside (by omega)]
    simp [prepareEventAngle, indexOf]

theorem prepareEventAngle_next {table : AngleTable} (later : 0 < m)
    (filled : FilledIn shape synch m table) :
    FilledIn shape synch (m + 1) (shape.prepareEventAngle synch table m) := by
  have wrapped : (synch + m) % shape.getLength % shape.getSize = (synch + m) % shape.getSize := by
    rw [shape.getLength_eq]
    exact Nat.mod_mod_of_dvd _ (Nat.dvd_mul_left _ _)
  simp only [prepareEventAngle, if_neg later.ne', wrapped]
  cases riseOnly : shape.useOnlyRisingEdges with
  | false =>
    refine ⟨fun only => absurd only (by simp [riseOnly]), fun e inside useful => ?_⟩
    simp only [Bool.false_eq_true, if_false, indexOf_both riseOnly]
    by_cases last : e = m
    · rw [last, Function.update_self]
    · rw [Function.update_of_ne last, ← filled.eventAngles e (by omega) useful, indexOf_both riseOnly]
  | true =>
    have index := filled.riseOnlyIndex riseOnly
    have step : shape.indexStep = 2 := by simp [indexStep, riseOnly]
    have grows := marks_succ (p := shape.Useful) (a := synch + 1) (b := synch + m) (by omega)
    have rise : shape.Useful (synch + m) ↔ shape.isRiseEvent ((synch + m) % shape.getSize) = true := by
      simp [useful_iff, riseOnly]
    simp only [if_true]
    split
    · next useful =>
      rw [if_pos (rise.mpr useful)] at grows
      refine ⟨fun _ => by rw [index]; simp only; rw [← Nat.add_assoc, grows]; omega, fun e inside use => ?_⟩
      simp only [indexOf, step]
      by_cases last : e = m
      · have here : 2 * marks shape.Useful (synch + 1) (synch + e + 1) = table.riseOnlyIndex + 2 := by
          rw [last, grows, index]
          omega
        rw [here, Function.update_of_ne (by omega), Function.update_self, last]
      · have below := marks_mono (p := shape.Useful) (i := synch + 1) (j := synch + e + 1)
          (k := synch + m) (by omega) (by omega)
        rw [Function.update_of_ne (by omega), Function.update_of_ne (by omega),
          ← filled.eventAngles e (by omega) use, indexOf, step]
    · next useless =>
      rw [if_neg (useless ∘ rise.mp)] at grows
      refine ⟨fun _ => by rw [index, ← Nat.add_assoc, grows]; rfl, fun e inside use => ?_⟩
      refine filled.eventAngles e ?_ use
      rcases Nat.lt_succ_iff_lt_or_eq.mp inside with earlier | rfl
      · exact earlier
      · exact absurd (rise.mp use) useless

theorem prepareEventAngles_filledIn (inside : synch < shape.getSize) (m : Nat) :
    FilledIn shape synch (m + 1) ((List.range (m + 1)).foldl (shape.prepareEventAngle synch) {}) := by
  induction m with
  | zero => exact prepareEventAngle_first inside
  | succ m ih =>
    rw [List.range_succ, List.foldl_append]
    exact prepareEventAngle_next (Nat.succ_pos m) ih

/-- The table holds the angle of each edge at its index. -/
theorem prepareEventAngles_indexOf (inside : synch < shape.getSize) (cycle : e < shape.getLength)
    (useful : shape.Useful (synch + e)) :
    shape.prepareEventAngles synch (shape.indexOf synch e) = shape.relativeAngle synch e := by
  obtain ⟨m, length⟩ := Nat.exists_eq_succ_of_ne_zero (Nat.ne_zero_of_lt cycle)
  rw [prepareEventAngles, length]
  exact (prepareEventAngles_filledIn inside m).eventAngles e (by omega) useful

end Table

section Turns
variable {synch origin t : Nat}

theorem getAngle_turns (some : 0 < shape.getSize) (k t : Nat) :
    shape.getAngle (k + t * shape.getSize) = shape.getAngle k + t * shape.getCycleDuration := by
  unfold getAngle
  rw [Nat.add_mul_mod_self_right, Nat.add_mul_div_right _ _ some]
  push_cast
  ring

theorem useful_turns (k t : Nat) : shape.Useful (k + t * shape.getSize) ↔ shape.Useful k := by
  rw [← Nat.nsmul_eq_mul]
  exact iff_of_eq (shape.useful_periodic.nsmul t k)

/-- From two edges on, the wheel goes on in the same way. -/
def Alike (shape : TriggerWaveform) (i j : Nat) : Prop :=
  ∀ e, (shape.Useful (i + e) ↔ shape.Useful (j + e)) ∧
    shape.getAngle (i + e) - shape.getAngle i = shape.getAngle (j + e) - shape.getAngle j

theorem alike_turns (some : 0 < shape.getSize) (k t : Nat) :
    shape.Alike k (k + t * shape.getSize) := by
  intro e
  rw [Nat.add_right_comm, useful_turns, getAngle_turns some, getAngle_turns some]
  exact ⟨Iff.rfl, by ring⟩

theorem Alike.trans (first : shape.Alike i j) (second : shape.Alike j k) : shape.Alike i k :=
  fun e => ⟨(first e).1.trans (second e).1, (first e).2.trans (second e).2⟩

/-- As long as the index is valid the turn is not complete. -/
theorem lt_turn (edges : shape.EdgesOnly) (some : 0 < shape.getSize)
    (valid : shape.indexStep * marks shape.Useful (i + 1) (k + 1) < shape.getSize) :
    k < i + shape.getSize := by
  by_contra whole
  have turn := marks_turn shape.useful_periodic (i + 1)
  have more := marks_mono (p := shape.Useful) (i := i + 1) (j := i + 1 + shape.getSize) (k := k + 1)
    (by omega) (by omega)
  rw [turn] at more
  have index := Nat.mul_le_mul_left shape.indexStep more
  rw [indexStep_turn edges some] at index
  omega

/-- The index in the present turn, advanced by whole turns, is that of an edge of the cycle. -/
theorem indexOf_turns (edges : shape.EdgesOnly) (some : 0 < shape.getSize)
    (alike : shape.Alike synch i) (begun : i ≤ k) (j : Nat) :
    shape.indexStep * marks shape.Useful (i + 1) (k + 1) + j * shape.getSize =
      shape.indexOf synch (k - i + j * shape.getSize) := by
  have present : marks shape.Useful (i + 1) (i + 1 + (k - i)) =
      marks shape.Useful (synch + 1) (synch + 1 + (k - i)) := by
    refine marks_congr fun e _ => ?_
    rw [Nat.add_assoc, Nat.add_assoc]
    exact (alike (1 + e)).1.symm
  have whole := marks_turns shape.useful_periodic (synch + 1 + (k - i)) j
  have split := marks_add (p := shape.Useful) (a := synch + 1) (b := synch + 1 + (k - i))
    (c := synch + 1 + (k - i) + j * shape.getSize) (by omega) (by omega)
  have turns : shape.indexStep * (j * Nat.count shape.Useful shape.getSize) = j * shape.getSize := by
    rw [Nat.mul_left_comm, indexStep_turn edges some]
  have position : i + 1 + (k - i) = k + 1 := by omega
  have last : synch + (k - i + j * shape.getSize) + 1 = synch + 1 + (k - i) + j * shape.getSize := by
    omega
  rw [position] at present
  rw [indexOf, last, split, whole, Nat.mul_add, turns, present]

/-- The table goes on by one turn of the wheel from one turn to the next. -/
theorem prepareEventAngles_turns (edges : shape.EdgesOnly) (inside : synch < shape.getSize)
    (useful : shape.Useful synch) (valid : shape.indexStep * m < shape.getSize)
    (turn : t < getCrankDivider shape.operationMode) :
    shape.prepareEventAngles synch (shape.indexStep * m + t * shape.getSize) =
      shape.prepareEventAngles synch (shape.indexStep * m) + t * shape.getCycleDuration := by
  have some : 0 < shape.getSize := by omega
  -- the edge of the first turn to which the index belongs
  obtain ⟨e, first, mark, index⟩ : ∃ e < shape.getSize, shape.Useful (synch + e) ∧
      shape.indexOf synch e = shape.indexStep * m := by
    by_cases start : m = 0
    · exact ⟨0, some, useful, by simp [indexOf, start]⟩
    · have whole := indexStep_turn edges some
      have few : m < Nat.count shape.Useful shape.getSize :=
        Nat.lt_of_mul_lt_mul_left (by rw [whole]; exact valid)
      rw [← marks_turn shape.useful_periodic (synch + 1)] at few
      obtain ⟨c, after, -, mark, count⟩ := exists_mark (Nat.pos_of_ne_zero start) few.le
      obtain ⟨e, rfl⟩ := Nat.exists_eq_add_of_le (show synch ≤ c by omega)
      have within := lt_turn (k := synch + e) (i := synch) edges some (by rw [count]; exact valid)
      exact ⟨e, by omega, mark, by rw [indexOf, count]⟩
  have same : shape.Alike synch synch := fun _ => ⟨Iff.rfl, rfl⟩
  have further := indexOf_turns (k := synch + e) edges some same (by omega) t
  rw [Nat.add_sub_cancel_left] at further
  have length := shape.getLength_eq
  have room := Nat.mul_le_mul_right shape.getSize (Nat.succ_le_of_lt turn)
  rw [Nat.succ_mul] at room
  have again : shape.Useful (synch + (e + t * shape.getSize)) := by
    rw [← Nat.add_assoc, useful_turns]
    exact mark
  rw [← index, prepareEventAngles_indexOf inside (by omega) mark, indexOf, further,
    prepareEventAngles_indexOf inside (by omega) again, relativeAngle_eq inside (by omega),
    relativeAngle_eq inside (by omega), ← Nat.add_assoc, getAngle_turns some]
  ring

/-- What the table says of a decoded edge is its angle from the first synchronization point
on, but for whole cycles. -/
theorem eventAngles_decoded (edges : shape.EdgesOnly) (inside : synch < shape.getSize)
    (alike : shape.Alike synch origin) (begun : origin + t * shape.getSize ≤ k)
    (useful : shape.Useful k)
    (valid : shape.indexStep * marks shape.Useful (origin + t * shape.getSize + 1) (k + 1) <
      shape.getSize)
    (counted : counter % getCrankDivider shape.operationMode =
      t % getCrankDivider shape.operationMode) :
    ∃ z : ℤ, shape.prepareEventAngles synch (triggerIndexForListeners shape counter
        (shape.indexStep * marks shape.Useful (origin + t * shape.getSize + 1) (k + 1))) =
      shape.getAngle k - shape.getAngle origin + z * getEngineCycle shape.operationMode := by
  have some : 0 < shape.getSize := by omega
  have within := lt_turn edges some valid
  have positive := getCrankDivider_pos shape.operationMode
  have length := shape.getLength_eq
  have engineCycle := shape.getEngineCycle_eq
  have here : shape.Alike synch (origin + t * shape.getSize) := alike.trans (alike_turns some _ _)
  rw [triggerIndexForListeners, counted]
  generalize getCrankDivider shape.operationMode = d at positive length engineCycle ⊢
  have index := indexOf_turns edges some here begun (t % d)
  obtain ⟨a, position⟩ := Nat.exists_eq_add_of_le begun
  have advance : k - (origin + t * shape.getSize) = a := by omega
  rw [advance] at index
  have cycle : a + t % d * shape.getSize < shape.getLength := by
    have turn : t % d + 1 ≤ d := Nat.mod_lt t positive
    have whole := Nat.mul_le_mul_right shape.getSize turn
    rw [Nat.succ_mul] at whole
    omega
  have same : shape.Useful (synch + (a + t % d * shape.getSize)) := by
    rw [← Nat.add_assoc, useful_turns, (here a).1, ← position]
    exact useful
  have rounds : t = t % d + d * (t / d) := (Nat.mod_add_div t d).symm
  refine ⟨-((t / d : ℕ) : ℤ), ?_⟩
  have ahead := (here a).2
  rw [getAngle_turns some, Nat.add_right_comm, getAngle_turns some] at ahead
  rw [index, prepareEventAngles_indexOf inside cycle same, relativeAngle_eq inside cycle,
    ← Nat.add_assoc, getAngle_turns some, position, Nat.add_right_comm, getAngle_turns some,
    engineCycle]
  have cast : (t : Angle) = (t % d : ℕ) + d * (t / d : ℕ) := by exact_mod_cast rounds
  rw [cast] at ahead
  rw [Int.cast_neg, Int.cast_natCast, cast]
  linear_combination ahead

end Turns

end TriggerWaveform

/-- The present turn is not complete. -/
theorem Counting.within {σ : Type} {shape : TriggerWaveform} {w : WheelRun σ}
    (counting : Counting shape w turns) (edges : shape.EdgesOnly) (some : 0 < shape.getSize) :
    w.position ≤ w.origin + (turns + 1) * shape.getSize := by
  have begun := counting.begun
  have valid := counting.valid
  obtain ⟨k, last⟩ := Nat.exists_eq_succ_of_ne_zero (Nat.ne_zero_of_lt begun)
  rw [counting.index, last] at valid
  have within := TriggerWaveform.lt_turn edges some valid
  rw [Nat.succ_mul]
  omega

end FomeFw.Trigger
