import FomeFw.Trigger.SimulatedWheel
import FomeFw.Trigger.SkippedToothWheel

/-! The search for the next tooth, the loop of `handleShaftSignal`. It ends where the table
has another phase than that of the tooth, and initialization also accepts wave forms whose
table has only one. -/
namespace FomeFw.Trigger
open Turning Windows TriggerStimulatorHelper

namespace TriggerWaveform
variable {shape : TriggerWaveform} {config : TriggerConfiguration} {rpm : ℚ}
  {initState : TriggerDecoder Unit} {synch i : Nat}

/-- The simulator shows its decoder an edge at this event. -/
def Shown (shape : TriggerWaveform) (i : Nat) : Prop :=
  ∃ channel, shape.needEvent i channel = true ∧
    shape.isUsefulSignal (.ofEdge (shape.getChannelState channel i) channel) = true

theorem feedSimulatedEvent_unseen (unseen : ¬ shape.Shown (i % shape.getSize))
    (state : TriggerDecoder Unit) : feedSimulatedEvent shape config rpm state i = state := by
  have idle : ∀ channel s, feedChannel shape config rpm i s channel = s := by
    intro channel s
    simp only [feedChannel]
    split
    · next needed =>
      rw [if_neg fun useful => unseen ⟨channel, needed, useful⟩]
    · rfl
  rw [feedSimulatedEvent]
  split
  · rfl
  · simp only [List.foldl_cons, List.foldl_nil, idle]

/-- The sync point is an event at which an edge is shown. -/
theorem synchPoint_shown
    (found : (shape.calculateTriggerSynchPoint config rpm initState).triggerShapeSynchPointIndex =
      some synch) : synch < shape.getSize ∧ shape.Shown synch := by
  obtain ⟨inside, syncIndex, start, rfl, before, synchronized⟩ := synchPoint_found found
  refine ⟨inside, ?_⟩
  by_contra unseen
  rw [feedSimulatedEvent_unseen unseen, before] at synchronized
  cases synchronized

/-- A wave form of one event never changes a level. -/
theorem Shown.two_events (shown : shape.Shown i) (inside : i < shape.getSize) :
    2 ≤ shape.getSize := by
  obtain ⟨channel, needed, -⟩ := shown
  by_contra few
  obtain rfl : i = 0 := by omega
  have one : shape.getSize = 1 := by omega
  simp [needEvent, getPreviousIndex, one] at needed

/-- With rising edges only, the edge that is shown is the event itself: other channels only
fall there, at the start of the turn. -/
theorem Shown.useful (shown : shape.Shown i) (inside : i < shape.getSize) : shape.Useful i := by
  obtain ⟨channel, needed, shows⟩ := shown
  rw [useful_iff, Nat.mod_eq_of_lt inside]
  intro riseOnly
  have high : shape.getChannelState channel i = true := by
    rw [isUsefulSignal, if_pos riseOnly] at shows
    cases level : shape.getChannelState channel i
    · rw [level] at shows
      cases channel <;> cases shows
    · rfl
  cases i with
  | zero =>
    rw [getChannelState] at high
    split at high
    · exact high
    · cases high
  | succ i =>
    simp only [needEvent, getPreviousIndex_succ inside, decide_eq_true_eq] at needed
    rw [getChannelState] at high needed
    split at high
    · exact high
    · next other =>
      rw [if_neg other] at needed
      exact absurd rfl needed

/-- The edges of one engine cycle that the decoder is shown, as they are expected. -/
def expectedInCycle (shape : TriggerWaveform) : Nat :=
  getCrankDivider shape.operationMode *
    (shape.getExpectedEventCount .primary + shape.getExpectedEventCount .secondary)

/-- Whether the table holds two phases. -/
def Distinguishes (shape : TriggerWaveform) : Prop :=
  2 ≤ shape.expectedInCycle ∧ (shape.useOnlyRisingEdges = true → 2 < shape.getLength)

instance (shape : TriggerWaveform) : Decidable shape.Distinguishes :=
  inferInstanceAs (Decidable (_ ∧ _))

/-- All edges but the sync point itself come before its return. -/
theorem marks_cycle (some : 0 < shape.getSize) (useful : shape.Useful synch) :
    marks shape.Useful (synch + 1) (synch + shape.getLength) + 1 = shape.expectedInCycle := by
  have length := shape.getLength_eq
  have positive : 0 < shape.getLength := by
    rw [length]
    exact Nat.mul_pos (getCrankDivider_pos _) some
  have whole := marks_turns shape.useful_periodic (synch + 1) (getCrankDivider shape.operationMode)
  have again : shape.Useful (synch + shape.getLength) := by
    rw [length, useful_turns]
    exact useful
  have last := marks_succ (p := shape.Useful) (a := synch + 1) (b := synch + shape.getLength)
    (by omega)
  rw [if_pos again] at last
  rw [expectedInCycle, ← shape.count_useful, ← whole, ← length, ← last]
  congr 1
  omega

/-- Without another edge in the cycle the table holds zeros only. -/
theorem prepareEventAngles_alone (inside : synch < shape.getSize)
    (riseOnly : shape.useOnlyRisingEdges = true)
    (alone : marks shape.Useful (synch + 1) (synch + shape.getLength) = 0) (k : Nat) :
    shape.prepareEventAngles synch k = 0 := by
  have rows : 0 < shape.getLength := by
    rw [shape.getLength_eq]
    exact Nat.mul_pos (getCrankDivider_pos _) (by omega)
  obtain ⟨m, length⟩ := Nat.exists_eq_add_one_of_ne_zero rows.ne'
  have index := (prepareEventAngles_filledIn inside m).riseOnlyIndex riseOnly
  obtain ⟨⟨n, filled, size⟩, paired⟩ := prepareEventAngles_round (k := m) inside (by omega)
  rw [if_pos riseOnly, index, ← length, alone] at size
  rw [← length] at filled paired
  have pair := (paired riseOnly).2 0
  rw [prepareEventAngles]
  rcases k with _ | _ | k
  · exact filled.origin
  · exact pair.symm.trans filled.origin
  · exact filled.beyond _ (by omega)

/-- The table has two phases when the cycle has two edges, and places for both. -/
theorem eventAngles_differ_iff (inside : synch < shape.getSize) (shown : shape.Shown synch) :
    (∃ j < shape.getLength, ∃ k < shape.getLength,
      shape.prepareEventAngles synch j ≠ shape.prepareEventAngles synch k) ↔ shape.Distinguishes := by
  have useful := shown.useful inside
  have cycle := marks_cycle (Nat.zero_lt_of_lt inside) useful
  have turns := getCrankDivider_pos shape.operationMode
  have room : shape.getSize ≤ shape.getLength := by
    rw [shape.getLength_eq]
    exact Nat.le_mul_of_pos_left _ turns
  have events := shown.two_events inside
  have origin : shape.prepareEventAngles synch 0 = shape.relativeAngle synch 0 := by
    simpa [indexOf] using prepareEventAngles_indexOf inside (by omega : 0 < shape.getLength) useful
  constructor
  · rintro ⟨j, first, k, second, differ⟩
    refine ⟨?_, ?_⟩
    · by_contra few
      by_cases riseOnly : shape.useOnlyRisingEdges = true
      · have zeros := prepareEventAngles_alone inside riseOnly (by omega)
        exact differ ((zeros j).trans (zeros k).symm)
      · -- without the restriction every event is an edge of its own
        have all : ∀ i, shape.Useful i := fun i => (shape.useful_iff i).mpr fun only =>
          absurd only riseOnly
        rw [marks_eq_length all] at cycle
        omega
    · intro riseOnly
      by_contra short
      have pair := (prepareEventAngles_filled inside).2 riseOnly 0
      have zero : ∀ i < shape.getLength,
          shape.prepareEventAngles synch i = shape.prepareEventAngles synch 0 := by
        intro i within
        rcases (by omega : i = 0 ∨ i = 1) with rfl | rfl
        · rfl
        · exact pair.symm
      exact differ ((zero j first).trans (zero k second).symm)
  · rintro ⟨two, places⟩
    -- the first edge after the sync point comes later than it
    obtain ⟨c, after, before, mark, one⟩ := exists_mark (p := shape.Useful) Nat.one_pos
      (show 1 ≤ marks shape.Useful (synch + 1) (synch + shape.getLength) by omega)
    obtain ⟨e, rfl⟩ := Nat.exists_eq_add_of_le (show synch ≤ c by omega)
    have entry := prepareEventAngles_indexOf inside (e := e) (by omega) mark
    rw [indexOf, one, Nat.mul_one] at entry
    have rises := relativeAngle_lt_of_lt inside (show 0 < e by omega) (by omega)
    refine ⟨0, by omega, shape.indexStep, ?_, ?_⟩
    · rw [indexStep]
      split
      · next riseOnly => exact places riseOnly
      · omega
    · rw [origin, entry]
      exact rises.ne

/-- In a table with one phase the loop never ends. -/
theorem findNextPhase_endless (within : synch < shape.getSize) (shown : shape.Shown synch)
    (blind : ¬ shape.Distinguishes) (inside : index < shape.getLength) (rounds : Nat) :
    findNextPhase (shape.prepareEventAngles synch) (getEngineCycle shape.operationMode)
      shape.getLength (shape.prepareEventAngles synch index) rounds index = none := by
  rw [findNextPhase_eq]
  apply nextDifferent_none (Nat.zero_lt_of_lt inside)
  intro k target
  rw [prepareEventAngles_wrapped within]
  by_contra differs
  exact blind ((eventAngles_differ_iff within shown).mp ⟨k, target, index, inside, differs⟩)

/-- The table of a custom wheel has two phases when more than one tooth passes in a cycle. -/
theorem toothedWheel_distinguishes {mode : OperationMode} {teeth : Nat}
    (wheel : IsToothedWheel shape mode teeth) :
    shape.Distinguishes ↔ 2 ≤ getCrankDivider mode * teeth := by
  rw [Distinguishes, expectedInCycle, shape.getLength_eq, wheel.operationMode, wheel.primary,
    wheel.secondary, wheel.size, Nat.add_zero, Nat.mul_left_comm]
  constructor
  · exact fun both => both.1
  · exact fun teeth => ⟨teeth, fun _ => by omega⟩

/-- For a wave form that initialization accepts, and whatever place in the engine cycle a
decoded tooth has, the loop ends in time if and only if the table has two phases. -/
theorem findNextPhase_ends_iff (shape : TriggerWaveform) (config : TriggerConfiguration) (rpm : ℚ)
    (initState : TriggerDecoder Unit) (synch index : Nat)
    (accepted : shape.calculateTriggerSynchPoint config rpm initState = ⟨some synch, false⟩)
    (inside : index < shape.getLength) :
    (∃ nextPhase, findNextPhase (shape.prepareEventAngles synch) (getEngineCycle shape.operationMode)
        shape.getLength (shape.prepareEventAngles synch index) shape.getLength index =
          some nextPhase) ↔ shape.Distinguishes := by
  obtain ⟨within, shown⟩ := synchPoint_shown (congrArg SynchPoint.triggerShapeSynchPointIndex accepted)
  rw [← eventAngles_differ_iff within shown, findNextPhase_eq]
  simp only [prepareEventAngles_wrapped within]
  rw [nextDifferent_isSome_iff inside]
  constructor
  · rintro ⟨k, target, differs⟩
    exact ⟨k, target, index, inside, differs⟩
  · rintro ⟨j, first, k, second, differ⟩
    by_cases same : shape.prepareEventAngles synch j = shape.prepareEventAngles synch index
    · exact ⟨k, second, fun other => differ (same.trans other.symm)⟩
    · exact ⟨j, first, same⟩

/-- The cam wheel with one tooth has two phases, its rise and its fall. -/
theorem findNextPhase_ends_halfMoon :
    (∃ nextPhase, findNextPhase (halfMoon.prepareEventAngles 0) (getEngineCycle halfMoon.operationMode)
        halfMoon.getLength (halfMoon.prepareEventAngles 0 1) halfMoon.getLength 1 = some nextPhase) ↔
      halfMoon.Distinguishes :=
  findNextPhase_ends_iff halfMoon {} 0 ⟨{}, ()⟩ 0 1 (by decide +kernel) (by decide +kernel)

/-- A custom wheel with one tooth on a two-stroke engine is accepted, and the loop does not end. -/
theorem findNextPhase_ends_oneTooth :
    ∃ shape, initializeToothedWheel
        { customTotalToothCount := 1, customSkippedToothCount := 0, twoStroke := true } = some shape ∧
      shape.calculateTriggerSynchPoint {} 0 ⟨{}, ()⟩ = ⟨some 0, false⟩ ∧ 0 < shape.getLength ∧
      findNextPhase (shape.prepareEventAngles 0) (getEngineCycle shape.operationMode) shape.getLength
        (shape.prepareEventAngles 0 0) shape.getLength 0 = none :=
  ⟨(initializeToothedWheel ⟨1, 0, true, false⟩).get (by decide +kernel), by rw [Option.some_get],
    by decide +kernel, by decide +kernel, by decide +kernel⟩

end TriggerWaveform
end FomeFw.Trigger
