import FomeFw.Trigger.GapHistory
import FomeFw.Trigger.SimulatedWheel
import Mathlib.Data.Int.ConditionallyCompleteOrder

/-! The edge at which a wave form synchronizes. Initialization saw the wheel close one cycle
after the other, so among the edges of a turn only one has the gaps that are asked for; a
decoder that judges the gaps as the simulated one did finds no other. -/
namespace FomeFw.Trigger
open Turning

namespace TriggerWaveform
variable {shape : TriggerWaveform} {config : TriggerConfiguration} {rpm : ℚ} {i j k t : Nat}

theorem getSimulatedEventTime_turns (some : 0 < shape.getSize) (i t : Nat) :
    shape.getSimulatedEventTime (i + t * shape.getSize) =
      shape.getSimulatedEventTime i + t * simulationCyclePeriod := by
  have whole : (simulationCyclePeriod : ℚ) *
      ((i / shape.getSize + t : ℕ) + shape.getSwitchTime (i % shape.getSize)) =
      (simulationCyclePeriod : ℚ) * ((i / shape.getSize : ℕ) +
        shape.getSwitchTime (i % shape.getSize)) + (t * simulationCyclePeriod : ℤ) := by
    push_cast
    ring
  simp only [getSimulatedEventTime, Nat.add_mul_mod_self_right, Nat.add_mul_div_right _ _ some]
  rw [whole, Int.floor_add_intCast]

/-- The gaps pass in the simulation. -/
abbrev PassesSimulated (shape : TriggerWaveform) (config : TriggerConfiguration) (first k : Nat) :
    Prop := shape.Passes config shape.getSimulatedEventTime first k

theorem passesSimulated_turns (some : 0 < shape.getSize) (first k t : Nat) :
    shape.PassesSimulated config (first + t * shape.getSize) (k + t * shape.getSize) ↔
      shape.PassesSimulated config first k := by
  have again : Function.Periodic shape.Candidate (t * shape.getSize) := fun i =>
    propext (shape.candidate_turns i t)
  unfold PassesSimulated Passes
  rw [gapsAt_shift (fun i => getSimulatedEventTime_turns some i t) again]

/-- From the sync point on every edge is judged as in all turns. -/
theorem passes_later (some : 0 < shape.getSize) (synced : shape.PassesSimulated config 0 sync)
    (later : sync < j) (turn : j % shape.getSize = k % shape.getSize)
    (passes : shape.PassesSimulated config first k) : shape.PassesSimulated config 0 j := by
  have meet : k + j / shape.getSize * shape.getSize = j + k / shape.getSize * shape.getSize := by
    have one := Nat.mod_add_div' j shape.getSize
    have other := Nat.mod_add_div' k shape.getSize
    omega
  have moved := ((passesSimulated_turns some first k (j / shape.getSize)).mpr passes).earlier
    (Nat.zero_le _)
  rw [meet] at moved
  have turns : Function.Periodic shape.Candidate (k / shape.getSize * shape.getSize) := fun i =>
    propext (shape.candidate_turns i _)
  have long : (seen shape.Candidate 0 sync).length ≤ (seen shape.Candidate
      (0 + k / shape.getSize * shape.getSize) (j + k / shape.getSize * shape.getSize)).length := by
    rw [seen_shift turns, List.length_map]
    exact (seen_suffix later.le).length_le
  exact (passesSimulated_turns some 0 j _).mp ((synced.congr long (Nat.zero_le _)).mp moved)

/-- The simulated decoder only counts teeth while it is synchronized. -/
def OnlyCounts (config : TriggerConfiguration) (rpm : ℚ) : Prop :=
  config.isMiataVvt = true ∧ rpm < 1000

instance : Decidable (OnlyCounts config rpm) := inferInstanceAs (Decidable (_ ∧ _))

/-- Synchronized at the edge `o` the simulated decoder passes over the edge `q`. -/
def PassesOver (shape : TriggerWaveform) (config : TriggerConfiguration) (rpm : ℚ) (o q : Nat) :
    Prop :=
  if OnlyCounts config rpm then ∀ e, o < e → e < q → ¬ shape.Useful e
  else ¬ shape.PassesSimulated config 0 q

/-- Synchronized at the edge `o` it passes over all others of the turn. -/
def Closable (shape : TriggerWaveform) (config : TriggerConfiguration) (rpm : ℚ) (o : Nat) : Prop :=
  ∀ q, o < q → q < o + shape.getSize → shape.Candidate q → shape.PassesOver config rpm o q

section Simulation
variable {w : WheelRun Unit} {sync : Nat}

/-- Since the sync point was found the simulated decoder has not closed a cycle. -/
structure Unclosed (shape : TriggerWaveform) (config : TriggerConfiguration) (rpm : ℚ) (sync : Nat)
    (w : WheelRun Unit) : Prop where
  remembers : Remembers shape shape.getSimulatedEventTime 0 w.position w.decoder.base
  aligned : Aligned shape w
  later : sync < w.position
  few : w.decoder.base.crankSynchronizationCounter ≤ 1
  fresh : w.decoder.base.shaftIsSynchronized = true →
    w.decoder.base.crankSynchronizationCounter = 0 ∧ sync ≤ w.origin ∧
      w.position ≤ w.origin + shape.getSize ∧
      ∀ q, w.origin < q → q < w.position → shape.Candidate q →
        shape.PassesOver config rpm w.origin q

/-- In its first turn a decoder has counted no other. -/
theorem counting_first {σ : Type} {w : WheelRun σ} (aligned : Aligned shape w)
    (some : 0 < shape.getSize)
    (synchronized : w.decoder.base.shaftIsSynchronized = true)
    (counter : w.decoder.base.crankSynchronizationCounter = 0)
    (within : w.position ≤ w.origin + shape.getSize + 1) :
    shape.Candidate w.origin ∧ Counting shape w 0 := by
  obtain ⟨candidate, turns, counting⟩ := aligned synchronized
  have begun := counting.begun
  have number := counting.counter
  rw [counter] at number
  have few : turns ≤ 1 := by
    by_contra many
    have two := Nat.mul_le_mul_right shape.getSize (show 2 ≤ turns by omega)
    omega
  obtain rfl : turns = 0 := by omega
  exact ⟨candidate, counting⟩

/-- An edge that does not close the cycle is passed over. -/
theorem passesOver_of_between (needed : shape.isSynchronizationNeeded = true)
    (remembers : Remembers shape shape.getSimulatedEventTime 0 w.position w.decoder.base)
    (counting : Counting shape w 0)
    (shaft : ((shape.simulatedWheel config rpm).noted w).base.shaftIsSynchronized = true)
    (goesOn : ((shape.simulatedWheel config rpm).noted w).base.closesCycle shape config rpm = false)
    (kept : ((shape.simulatedWheel config rpm).noted w).base.dropsShaft shape config rpm = false) :
    shape.PassesOver config rpm w.origin w.position := by
  have counts : ((shape.simulatedWheel config rpm).noted w).base.countsTeeth config rpm =
      decide (OnlyCounts config rpm) := by
    rw [Bool.eq_iff_iff, decide_eq_true_iff]
    simp [TriggerDecoderBase.countsTeeth, shaft, OnlyCounts]
  unfold PassesOver
  split
  · next only =>
    simp only [TriggerDecoderBase.closesCycle, TriggerDecoderBase.dropsShaft, needed, counts, only,
      decide_true, if_true, Bool.true_and, Bool.not_eq_false', Bool.and_eq_false_iff,
      decide_eq_false_iff_not, not_not] at goesOn kept
    obtain ⟨-, -, -, index, -⟩ := WheelSetup.noted_of_synchronized shaft
    have zero := goesOn.resolve_left (by simp [kept])
    rw [index, counting.index] at zero
    have positive : 0 < shape.indexStep := by
      unfold indexStep
      split <;> omega
    intro e begun before useful
    have one := marks_lt (p := shape.Useful) (a := w.origin + 0 * shape.getSize + 1) (b := e)
      (c := w.position) (by omega) useful before
    have none := (Nat.mul_eq_zero.mp zero).resolve_left positive.ne'
    omega
  · next judges =>
    obtain ⟨first', silent, -, gaps⟩ :=
      WheelSetup.noted_remembers (s := shape.simulatedWheel config rpm) remembers
    obtain rfl := silent rfl
    simp only [TriggerDecoderBase.closesCycle, needed, counts, judges, decide_false, if_true,
      Bool.false_eq_true, if_false, gaps] at goesOn
    intro passes
    have closes : shape.gapTest config (fun i =>
        (shape.gapsAt shape.getSimulatedEventTime 0 w.position i : ℚ)) = true := passes
    have same : (shape.simulatedWheel config rpm).shape.gapsAt
        (shape.simulatedWheel config rpm).rotation.time 0 w.position =
        shape.gapsAt shape.getSimulatedEventTime 0 w.position := rfl
    rw [same, closes] at goesOn
    cases goesOn

theorem turn_unclosed (edges : shape.EdgesOnly) (needed : shape.isSynchronizationNeeded = true)
    (some : 0 < shape.getSize)
    (never : ∀ o, sync ≤ o → shape.Candidate o → ¬ shape.Closable config rpm o)
    (unclosed : Unclosed shape config rpm sync w) :
    Unclosed shape config rpm sync ((shape.simulatedWheel config rpm).turn w) := by
  have moved : ((shape.simulatedWheel config rpm).turn w).position = w.position + 1 := rfl
  have later := unclosed.later
  have few := unclosed.few
  have aligned : Aligned shape ((shape.simulatedWheel config rpm).turn w) :=
    WheelSetup.turn_aligned (s := shape.simulatedWheel config rpm) unclosed.aligned
  have remembers : Remembers shape shape.getSimulatedEventTime 0
      ((shape.simulatedWheel config rpm).turn w).position
      ((shape.simulatedWheel config rpm).turn w).decoder.base := by
    obtain ⟨first', silent, again⟩ :=
      WheelSetup.turn_remembers (s := shape.simulatedWheel config rpm) unclosed.remembers
    obtain rfl := silent rfl
    exact again
  -- the cycle goes on, with one more edge passed over
  have onward (was : w.decoder.base.shaftIsSynchronized = true)
      (synchronized :
        ((shape.simulatedWheel config rpm).turn w).decoder.base.shaftIsSynchronized = true)
      (origin : ((shape.simulatedWheel config rpm).turn w).origin = w.origin)
      (counter :
        ((shape.simulatedWheel config rpm).turn w).decoder.base.crankSynchronizationCounter =
          w.decoder.base.crankSynchronizationCounter)
      (skipped : shape.Candidate w.position → shape.PassesOver config rpm w.origin w.position) :
      Unclosed shape config rpm sync ((shape.simulatedWheel config rpm).turn w) := by
    obtain ⟨zero, begun, within, passed⟩ := unclosed.fresh was
    obtain ⟨-, counting⟩ := counting_first aligned some synchronized (counter.trans zero)
      (by rw [moved, origin]; omega)
    have inside := counting.within edges some
    refine ⟨remembers, aligned, by omega, by omega, fun _ => ⟨counter.trans zero, ?_, ?_, ?_⟩⟩
    · rw [origin]
      exact begun
    · omega
    · intro q after before candidate
      rw [origin] at after ⊢
      rcases Nat.lt_succ_iff_lt_or_eq.mp before with earlier | rfl
      · exact passed q after earlier candidate
      · exact skipped candidate
  cases (shape.simulatedWheel config rpm).turned w with
  | unseen useless same origin =>
    cases shaft : w.decoder.base.shaftIsSynchronized with
    | true =>
      exact onward shaft (by rw [same, shaft]) origin (by rw [same])
        fun candidate => absurd candidate.1 useless
    | false =>
      refine ⟨remembers, aligned, by omega, by rw [same]; exact few, fun synchronized => ?_⟩
      rw [same, shaft] at synchronized
      cases synchronized
  | loses useful lost counter =>
    refine ⟨remembers, aligned, by omega, ?_, fun synchronized => ?_⟩
    · rcases counter with zero | same | ⟨was, next⟩
      · omega
      · omega
      · have zero := (unclosed.fresh was).1
        omega
    · rw [lost] at synchronized
      cases synchronized
  | starts some' candidate accepted synchronized origin counter cycle =>
    refine ⟨remembers, aligned, by omega, by omega, fun _ => ⟨counter, ?_, ?_, ?_⟩⟩
    · omega
    · omega
    · intro q after before
      omega
  | closes candidate shaft tested counts =>
    obtain ⟨was, -⟩ := WheelSetup.noted_of_synchronized shaft
    obtain ⟨zero, begun, within, passed⟩ := unclosed.fresh was
    obtain ⟨origin, counting⟩ := counting_first unclosed.aligned some was zero (by omega)
    have whole := WheelSetup.position_of_counts counting origin shaft candidate.1 counts
    refine absurd (fun q after before => passed q after ?_) (never w.origin begun origin)
    rw [whole, Nat.zero_add, Nat.one_mul]
    exact before
  | continues useful shaft between synchronized origin counter =>
    obtain ⟨was, -⟩ := WheelSetup.noted_of_synchronized shaft
    obtain ⟨zero, begun, within, passed⟩ := unclosed.fresh was
    obtain ⟨-, counting⟩ := counting_first unclosed.aligned some was zero (by omega)
    refine onward was synchronized origin counter fun candidate => ?_
    exact passesOver_of_between needed unclosed.remembers counting shaft (between candidate).1
      (between candidate).2

end Simulation

section Initialization
variable {w : WheelRun Unit} {sync synch : Nat} {initState : TriggerDecoder Unit}

open TriggerStimulatorHelper

theorem feedSimulatedEvents_eq (edges : shape.EdgesOnly) (some : 0 < shape.getSize)
    (w : WheelRun Unit) (n : Nat) :
    (List.range' w.position n).foldl (feedSimulatedEvent shape config rpm) w.decoder =
      ((shape.simulatedWheel config rpm).turn^[n] w).decoder := by
  induction n generalizing w with
  | zero => rfl
  | succ n ih =>
    have next := ih ((shape.simulatedWheel config rpm).turn w)
    rw [List.range'_succ, List.foldl_cons, feedSimulatedEvent_eq edges some]
    exact next

/-- The search turns the wheel up to the sync point. -/
theorem findTriggerSyncPoint_turned (edges : shape.EdgesOnly) (some : 0 < shape.getSize)
    (rounds : Nat) (before : w.decoder.base.shaftIsSynchronized = false)
    (remembers : Remembers shape shape.getSimulatedEventTime 0 w.position w.decoder.base)
    (found : findTriggerSyncPoint shape config rpm rounds w.position w.decoder =
      .some (sync, after)) :
    ∃ last : WheelRun Unit, last.position = sync ∧ last.decoder.base.shaftIsSynchronized = false ∧
      Remembers shape shape.getSimulatedEventTime 0 last.position last.decoder.base ∧
      ((shape.simulatedWheel config rpm).turn last).decoder = after ∧
      after.base.shaftIsSynchronized = true := by
  induction rounds generalizing w with
  | zero => cases found
  | succ rounds ih =>
    have turned : feedSimulatedEvent shape config rpm w.decoder w.position =
        ((shape.simulatedWheel config rpm).turn w).decoder := feedSimulatedEvent_eq edges some
    simp only [findTriggerSyncPoint, turned] at found
    split at found
    · next synchronized =>
      obtain ⟨rfl, rfl⟩ := Prod.mk.inj (Option.some.inj found)
      exact ⟨w, rfl, before, remembers, rfl, synchronized⟩
    · next unsynchronized =>
      obtain ⟨first', silent, again⟩ :=
        WheelSetup.turn_remembers (s := shape.simulatedWheel config rpm) remembers
      obtain rfl := silent rfl
      exact ih (by simpa using unsynchronized) again found

/-- What the simulated decoder is like after the sync point. -/
theorem turn_first (needed : shape.isSynchronizationNeeded = true)
    (before : w.decoder.base.shaftIsSynchronized = false)
    (remembers : Remembers shape shape.getSimulatedEventTime 0 w.position w.decoder.base)
    (synchronized :
      ((shape.simulatedWheel config rpm).turn w).decoder.base.shaftIsSynchronized = true) :
    shape.Candidate w.position ∧ shape.PassesSimulated config 0 w.position ∧
      Unclosed shape config rpm w.position ((shape.simulatedWheel config rpm).turn w) := by
  have aligned : Aligned shape w := fun shaft => by rw [before] at shaft; cases shaft
  have moved : ((shape.simulatedWheel config rpm).turn w).position = w.position + 1 := rfl
  cases (shape.simulatedWheel config rpm).turned w with
  | unseen useless same => rw [same, before] at synchronized; cases synchronized
  | loses useful lost => rw [lost] at synchronized; cases synchronized
  | closes candidate shaft =>
    have was := (WheelSetup.noted_of_synchronized shaft).1
    rw [before] at was
    cases was
  | continues useful shaft =>
    have was := (WheelSetup.noted_of_synchronized shaft).1
    rw [before] at was
    cases was
  | starts some candidate gaps _ origin counter cycle =>
    obtain ⟨first', silent, -, measured⟩ :=
      WheelSetup.noted_remembers (s := shape.simulatedWheel config rpm) remembers
    obtain rfl := silent rfl
    have passes := gaps needed
    rw [measured] at passes
    obtain ⟨first', silent, further⟩ :=
      WheelSetup.turn_remembers (s := shape.simulatedWheel config rpm) remembers
    obtain rfl := silent rfl
    have positive : 0 < shape.getSize := some
    refine ⟨candidate, passes, further,
      WheelSetup.turn_aligned (s := shape.simulatedWheel config rpm) aligned, ?_, ?_,
      fun _ => ⟨counter, origin.ge, ?_, fun q after before => ?_⟩⟩
    all_goals omega

theorem turns_unclosed (edges : shape.EdgesOnly) (needed : shape.isSynchronizationNeeded = true)
    (some : 0 < shape.getSize)
    (never : ∀ o, sync ≤ o → shape.Candidate o → ¬ shape.Closable config rpm o)
    (unclosed : Unclosed shape config rpm sync w) (n : Nat) :
    Unclosed shape config rpm sync ((shape.simulatedWheel config rpm).turn^[n] w) := by
  induction n with
  | zero => exact unclosed
  | succ n ih =>
    rw [Function.iterate_succ_apply']
    exact turn_unclosed edges needed some never ih

/-- At the sync point the gaps passed, and after it a cycle was closed. -/
theorem synchPoint_closable (edges : shape.EdgesOnly)
    (needed : shape.isSynchronizationNeeded = true)
    (found : shape.calculateTriggerSynchPoint config rpm initState = ⟨.some synch, false⟩) :
    ∃ sync, synch = sync % shape.getSize ∧ shape.Candidate sync ∧
      shape.PassesSimulated config 0 sync ∧
      ∃ o, sync ≤ o ∧ shape.Candidate o ∧ shape.Closable config rpm o := by
  have some : 0 < shape.getSize :=
    Nat.zero_lt_of_lt (synchPoint_found (congrArg SynchPoint.triggerShapeSynchPointIndex found)).1
  unfold calculateTriggerSynchPoint at found
  split at found
  · simp at found
  simp only [TriggerDecoderBase.findTriggerZeroEventIndex] at found
  split at found
  · cases found
  next sync after searched =>
  split at found
  swap
  · cases found
  simp only [SynchPoint.mk.injEq, Option.some.injEq] at found
  obtain ⟨index, accepted⟩ := found
  obtain ⟨last, rfl, before, remembers, rfl, synchronized⟩ :=
    findTriggerSyncPoint_turned (w := (shape.simulatedWheel config rpm).start initState 0) edges
      some _ rfl (WheelSetup.reset_remembers (s := shape.simulatedWheel config rpm) initState 0) searched
  obtain ⟨candidate, passes, unclosed⟩ := turn_first needed before remembers synchronized
  refine ⟨last.position, index.symm, candidate, passes, ?_⟩
  by_contra never
  have few := (turns_unclosed edges needed some
    (fun o later other closable => never ⟨o, later, other, closable⟩) unclosed
    (testRevolutions * shape.getSize)).few
  have turned : (List.range' (last.position + 1) (testRevolutions * shape.getSize)).foldl
      (feedSimulatedEvent shape config rpm) ((shape.simulatedWheel config rpm).turn last).decoder =
      ((shape.simulatedWheel config rpm).turn^[testRevolutions * shape.getSize]
        ((shape.simulatedWheel config rpm).turn last)).decoder :=
    feedSimulatedEvents_eq edges some ((shape.simulatedWheel config rpm).turn last) _
  simp only [assertSyncPosition, turned, decide_eq_false_iff_not, ne_eq, not_not] at accepted
  rw [accepted] at few
  exact absurd few (by decide)

end Initialization

section Unique
variable {o q synch : Nat}

theorem exists_position (some : 0 < n) (o k : Nat) : ∃ j, o < j ∧ j ≤ o + n ∧ j % n = k % n := by
  have split := Nat.div_add_mod (o + 1) n
  have inside := Nat.mod_lt (o + 1) some
  have turn := Nat.mod_lt k some
  by_cases further : (o + 1) % n ≤ k % n
  · refine ⟨n * ((o + 1) / n) + k % n, by omega, by omega, ?_⟩
    rw [Nat.mul_add_mod, Nat.mod_mod]
  · refine ⟨n * ((o + 1) / n + 1) + k % n, ?_, ?_, ?_⟩
    · rw [Nat.mul_add, Nat.mul_one]
      omega
    · rw [Nat.mul_add, Nat.mul_one]
      omega
    · rw [Nat.mul_add_mod, Nat.mod_mod]

theorem candidate_congr (turn : j % shape.getSize = k % shape.getSize) :
    shape.Candidate j ↔ shape.Candidate k := by
  rw [← Nat.mod_add_div' j shape.getSize, ← Nat.mod_add_div' k shape.getSize, candidate_turns,
    candidate_turns, turn]

/-- What passes the test of the Miata NB: the last gap has grown less than the one before it. -/
theorem gapTest_miata {d : Nat → ℚ} (miata : config.isMiataVvt = true)
    (passed : shape.gapTest config d = true) : d 0 / d 1 < d 1 / d 2 ∧ d 2 ≠ 0 := by
  unfold gapTest at passed
  rw [if_pos miata] at passed
  have last : d 1 ≠ 0 := by
    intro zero
    simp [gapRatio, zero] at passed
  have second : d 2 ≠ 0 := by
    intro zero
    simp [gapRatio, zero] at passed
  simp only [gapRatio, last, second, if_false, Bool.and_eq_true, decide_eq_true_eq] at passed
  exact ⟨passed.2, second⟩

/-- Where a turn has two candidates, they take turns. -/
theorem seen_alternating (origin : shape.Candidate o) (candidate : shape.Candidate j)
    (after : o < j) (before : j < o + shape.getSize)
    (alone : ∀ q, o < q → q < o + shape.getSize → shape.Candidate q → q = j) (t : Nat) :
    seen shape.Candidate 0 (j + t * shape.getSize) = (o + t * shape.getSize) ::
        seen shape.Candidate 0 (o + t * shape.getSize) ∧
      seen shape.Candidate 0 (o + (t + 1) * shape.getSize) = (j + t * shape.getSize) ::
        seen shape.Candidate 0 (j + t * shape.getSize) := by
  have between (i : Nat) (later : o + t * shape.getSize < i)
      (inside : i < o + (t + 1) * shape.getSize) (marked : shape.Candidate i) :
      i = j + t * shape.getSize := by
    rw [Nat.succ_mul] at inside
    obtain ⟨q, rfl⟩ := Nat.exists_eq_add_of_le' (show t * shape.getSize ≤ i by omega)
    rw [alone q (by omega) (by omega) ((shape.candidate_turns q t).mp marked)]
  constructor
  · refine seen_eq_cons (Nat.zero_le _) (by omega) ((shape.candidate_turns o t).mpr origin) ?_
    intro i later inside marked
    have here := between i later (by rw [Nat.succ_mul]; omega) marked
    omega
  · refine seen_eq_cons (Nat.zero_le _) (by rw [Nat.succ_mul]; omega)
      ((shape.candidate_turns j t).mpr candidate) ?_
    intro i later inside marked
    have here := between i (by omega) inside marked
    omega

/-- Of two candidates the test of the Miata NB tells one from the other. -/
theorem not_passes_both (some : 0 < shape.getSize) (miata : config.isMiataVvt = true)
    (origin : shape.Candidate o) (candidate : shape.Candidate j) (after : o < j)
    (before : j < o + shape.getSize)
    (alone : ∀ q, o < q → q < o + shape.getSize → shape.Candidate q → q = j)
    (first : shape.PassesSimulated config 0 (o + 3 * shape.getSize))
    (second : shape.PassesSimulated config 0 (j + 2 * shape.getSize)) : False := by
  have histories := seen_alternating origin candidate after before alone
  have time (i t : Nat) := getSimulatedEventTime_turns some i t
  obtain ⟨rises, tracked⟩ := gapTest_miata miata second
  obtain ⟨falls, -⟩ := gapTest_miata miata first
  have deep : 2 ≤ shape.gapTrackingLength := by
    by_contra shallow
    simp [gapsAt, shallow] at tracked
  have one : 1 ≤ shape.gapTrackingLength := by omega
  simp only [gapsAt, deep, one, Nat.zero_le, if_true, gapOf, histories, List.getElem?_cons_zero,
    List.getElem?_cons_succ, time] at rises falls
  -- both histories are made of the same two gaps, in turn
  have up (t : Nat) : shape.getSimulatedEventTime j + t * simulationCyclePeriod -
      (shape.getSimulatedEventTime o + t * simulationCyclePeriod) =
      shape.getSimulatedEventTime j - shape.getSimulatedEventTime o := by
    ring
  have down (t : Nat) : shape.getSimulatedEventTime o + (t + 1 : ℕ) * simulationCyclePeriod -
      (shape.getSimulatedEventTime j + t * simulationCyclePeriod) =
      shape.getSimulatedEventTime o + simulationCyclePeriod - shape.getSimulatedEventTime j := by
    push_cast
    ring
  rw [up 2, down 1, up 1] at rises
  rw [up 2, down 1, down 2] at falls
  exact lt_asymm rises falls

/-- The edge at which the simulated decoder closes a cycle is the only one of the turn at which
the gaps pass. -/
theorem closable_unique (some : 0 < shape.getSize) (synced : shape.PassesSimulated config 0 sync)
    (syncCandidate : shape.Candidate sync) (later : sync ≤ o) (origin : shape.Candidate o)
    (closable : shape.Closable config rpm o) (candidate : shape.Candidate k)
    (passes : shape.PassesSimulated config first k) : k % shape.getSize = sync % shape.getSize := by
  -- the candidates of the turn after `o` that are passed over
  have elsewhere (i : Nat) (here : shape.Candidate i)
      (other : i % shape.getSize ≠ o % shape.getSize) :
      ∃ j, o < j ∧ j < o + shape.getSize ∧ j % shape.getSize = i % shape.getSize ∧
        shape.Candidate j ∧ shape.PassesOver config rpm o j := by
    obtain ⟨j, after, before, turn⟩ := exists_position some o i
    have inside : j < o + shape.getSize := by
      refine lt_of_le_of_ne before fun whole => other ?_
      rw [← turn, whole, Nat.add_mod_right]
    have marked := (candidate_congr turn).mpr here
    exact ⟨j, after, inside, turn, marked, closable j after inside marked⟩
  by_cases only : OnlyCounts config rpm
  · have two (j q : Nat) (after : o < j) (order : j < q) (before : q < o + shape.getSize)
        (one : shape.Candidate j) (other : shape.Candidate q) : False := by
      have skipped := closable q (after.trans order) before other
      rw [PassesOver, if_pos only] at skipped
      exact skipped j after order one.1
    have alone (j : Nat) (after : o < j) (before : j < o + shape.getSize) (one : shape.Candidate j)
        (q : Nat) (later : o < q) (inside : q < o + shape.getSize) (other : shape.Candidate q) :
        q = j := by
      rcases Nat.lt_trichotomy q j with order | same | order
      · exact absurd one fun one => two q j later order before other one
      · exact same
      · exact absurd other fun other => two j q after order inside one other
    -- the gaps cannot pass at `o` and at the other candidate
    have both (i f i' f' : Nat) (here : i % shape.getSize = o % shape.getSize)
        (passes : shape.PassesSimulated config f i) (candidate : shape.Candidate i')
        (there : i' % shape.getSize ≠ o % shape.getSize)
        (passes' : shape.PassesSimulated config f' i') : False := by
      obtain ⟨j, after, inside, turn, marked, -⟩ := elsewhere i' candidate there
      refine not_passes_both some only.1 origin marked after inside (alone j after inside marked)
        (passes_later some synced (by omega) ?_ passes)
        (passes_later some synced (by omega) ?_ passes')
      · rw [Nat.add_mul_mod_self_right, here]
      · rw [Nat.add_mul_mod_self_right, turn]
    by_cases here : k % shape.getSize = o % shape.getSize
    · by_cases there : sync % shape.getSize = o % shape.getSize
      · rw [here, there]
      · exact (both k first sync 0 here passes syncCandidate there synced).elim
    · by_cases there : sync % shape.getSize = o % shape.getSize
      · exact (both sync 0 k first there synced candidate here passes).elim
      · obtain ⟨j, after, inside, turn, marked, -⟩ := elsewhere k candidate here
        obtain ⟨q, later, before, turn', marked', -⟩ := elsewhere sync syncCandidate there
        rw [← turn, ← turn', alone q later before marked' j after inside marked]
  · have same (i f : Nat) (here : shape.Candidate i) (passes : shape.PassesSimulated config f i) :
        i % shape.getSize = o % shape.getSize := by
      by_contra other
      obtain ⟨j, after, inside, turn, -, skipped⟩ := elsewhere i here other
      rw [PassesOver, if_neg only] at skipped
      exact skipped (passes_later some synced (by omega) turn passes)
    rw [same k first candidate passes, same sync 0 syncCandidate synced]

/-- The sync point is the only edge of the turn at which the gaps pass. -/
theorem synchPoint_unique {initState : TriggerDecoder Unit} (edges : shape.EdgesOnly)
    (needed : shape.isSynchronizationNeeded = true)
    (found : shape.calculateTriggerSynchPoint config rpm initState = ⟨.some synch, false⟩)
    (candidate : shape.Candidate k) (passes : shape.PassesSimulated config first k) :
    k % shape.getSize = synch := by
  have some : 0 < shape.getSize :=
    Nat.zero_lt_of_lt (synchPoint_found (congrArg SynchPoint.triggerShapeSynchPointIndex found)).1
  obtain ⟨sync, rfl, marked, synced, o, later, origin, closable⟩ :=
    synchPoint_closable edges needed found
  exact closable_unique some synced marked later origin closable candidate passes

end Unique

section Speed
variable {time : Nat → Int} {speed : ℚ}

theorem getSimulatedEventTime_mono (some : 0 < shape.getSize) :
    Monotone shape.getSimulatedEventTime := by
  intro i j order
  have duration := shape.getCycleDuration_pos
  have angles := (getAngle_strictMono some).monotone order
  have turns (k : Nat) : shape.getAngle k = shape.getCycleDuration *
      ((k / shape.getSize : ℕ) + shape.getSwitchTime (k % shape.getSize)) := by
    rw [getAngle, getSwitchAngle, mul_add]
  rw [turns, turns, mul_le_mul_iff_right₀ duration] at angles
  refine Int.floor_mono (mul_le_mul_of_nonneg_left angles ?_)
  norm_num

/-- A wheel that turns evenly, at a speed at which a turn does not outlast the longest gap that
is measured, is judged as the simulated one. -/
theorem passes_iff_of_speed (some : 0 < shape.getSize) (moves : 0 < speed)
    (short : speed * simulationCyclePeriod ≤ 10 * ntPerSecond)
    (even : ∀ i j, ((time i - time j : ℤ) : ℚ) =
      speed * (shape.getSimulatedEventTime i - shape.getSimulatedEventTime j : ℤ))
    (candidate : shape.Candidate k) :
    shape.Passes config time first k ↔ shape.PassesSimulated config first k := by
  refine Bool.eq_iff_iff.mp (gapTest_scale moves fun i => ?_)
  simp only [gapsAt]
  split
  swap
  · simp
  unfold gapOf
  cases here : (k :: seen shape.Candidate first k)[i]? with
  | none => simp
  | some a =>
    cases before : (k :: seen shape.Candidate first k)[i + 1]? with
    | none => simp
    | some b =>
      obtain ⟨-, turn⟩ := seen_gap shape.candidate_periodic some candidate here before
      have gap := getSimulatedEventTime_mono some turn
      have whole := getSimulatedEventTime_turns some b 1
      rw [Nat.one_mul, Nat.cast_one, one_mul] at whole
      have small : shape.getSimulatedEventTime a - shape.getSimulatedEventTime b ≤
          simulationCyclePeriod := by omega
      have simulated : shape.getSimulatedEventTime a - shape.getSimulatedEventTime b ≤
          10 * ntPerSecond := small.trans (by decide)
      have measured : time a - time b ≤ 10 * ntPerSecond := by
        have cast : ((time a - time b : ℤ) : ℚ) ≤ (10 * ntPerSecond : ℤ) := by
          rw [even]
          refine le_trans (mul_le_mul_of_nonneg_left (Int.cast_le.mpr small) moves.le) ?_
          exact_mod_cast short
        exact_mod_cast cast
      simp only [min_eq_left simulated, min_eq_left measured, even]

end Speed

end TriggerWaveform
end FomeFw.Trigger
