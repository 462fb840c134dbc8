import FomeFw.Trigger.DecoderSteps
import FomeFw.Trigger.PrimaryTriggerDecoder

/-! A decoder that has counted a revolution has seen every edge of it: the cycles
between synchronization points hold the expected number of edges on every wheel, and
a cycle that closes with any other number ends the synchronization. -/
namespace FomeFw.Trigger

variable {σ : Type} {kind : DecoderKind σ} {shape : TriggerWaveform} {config : TriggerConfiguration}

/-- What can happen to a decoder: an edge, a reset, or whatever a derived class does to
its own fields between edges. -/
inductive DecoderStep (σ : Type) where
  | edge (input : EdgeInput)
  | reset
  | derived (change : σ → σ)

/-- A decoder beside a record of the edges that really came: those since the last
synchronization point, and those of the last cycle that was closed. -/
structure WatchedDecoder (σ : Type) where
  decoder : TriggerDecoder σ
  since : TriggerWheel → Nat
  lastCycle : TriggerWheel → Nat

namespace WatchedDecoder

def new (derived : σ) : WatchedDecoder σ where
  decoder := ⟨({} : TriggerDecoderBase).resetState, derived⟩
  since := fun _ => 0
  lastCycle := fun _ => 0

/-- The edges since the last synchronization point, this one included. -/
def sinceWith (w : WatchedDecoder σ) (input : EdgeInput) : TriggerWheel → Nat :=
  Function.update w.since input.signal.wheel (w.since input.signal.wheel + 1)

def decoded (kind : DecoderKind σ) (shape : TriggerWaveform) (config : TriggerConfiguration)
    (w : WatchedDecoder σ) (input : EdgeInput) : TriggerDecoder σ :=
  (w.decoder.decodeTriggerEvent kind shape config input).1

/-- The edge closes the interval since the last synchronization point. -/
def closes (kind : DecoderKind σ) (shape : TriggerWaveform) (config : TriggerConfiguration)
    (w : WatchedDecoder σ) (input : EdgeInput) : Prop :=
  (w.decoded kind shape config input).base.syncPoints ≠ w.decoder.base.syncPoints

instance (w : WatchedDecoder σ) (input : EdgeInput) :
    Decidable (w.closes kind shape config input) :=
  inferInstanceAs (Decidable (_ ≠ _))

def step (kind : DecoderKind σ) (shape : TriggerWaveform) (config : TriggerConfiguration)
    (w : WatchedDecoder σ) : DecoderStep σ → WatchedDecoder σ
  | .edge input =>
    if w.closes kind shape config input then
      { decoder := w.decoded kind shape config input
        since := fun _ => 0
        lastCycle := w.sinceWith input }
    else
      { decoder := w.decoded kind shape config input
        since := w.sinceWith input
        lastCycle := w.lastCycle }
  | .reset => { w with decoder := w.decoder.resetState kind }
  | .derived change => { w with decoder.derived := change w.decoder.derived }

def run (kind : DecoderKind σ) (shape : TriggerWaveform) (config : TriggerConfiguration)
    (w : WatchedDecoder σ) (steps : List (DecoderStep σ)) : WatchedDecoder σ :=
  steps.foldl (step kind shape config) w

/-- The edge closes a cycle of a decoder that was synchronized up to it. -/
def closesCounted (kind : DecoderKind σ) (shape : TriggerWaveform) (config : TriggerConfiguration)
    (w : WatchedDecoder σ) (input : EdgeInput) : Prop :=
  w.closes kind shape config input ∧ w.decoder.base.shaftIsSynchronized = true ∧
    w.decoder.base.timedOut shape input.nowNt = false

/-- The code's counters are the true ones while it is synchronized. -/
structure Counted (shape : TriggerWaveform) (w : WatchedDecoder σ) : Prop where
  eventCount : w.decoder.base.shaftIsSynchronized = true →
    w.decoder.base.currentCycle.eventCount = w.since
  lastCycle : w.decoder.base.shaftIsSynchronized = true →
    1 ≤ w.decoder.base.crankSynchronizationCounter → w.lastCycle = shape.getExpectedEventCount

theorem new_counted (derived : σ) : Counted shape (new derived) where
  eventCount synchronized := by cases synchronized
  lastCycle synchronized := by cases synchronized

/-- The three things an edge can do to a decoder whose counters are right. -/
inductive Closing (kind : DecoderKind σ) (shape : TriggerWaveform) (config : TriggerConfiguration)
    (w : WatchedDecoder σ) (input : EdgeInput) : Prop
  /-- No synchronization point: counting goes on, or the synchronization is lost. -/
  | goesOn (stays : ¬ w.closes kind shape config input)
      (synchronized : (w.decoded kind shape config input).base.shaftIsSynchronized = true →
        w.decoder.base.shaftIsSynchronized = true ∧
        w.decoder.base.timedOut shape input.nowNt = false ∧
        (w.decoded kind shape config input).base.currentCycle.eventCount = w.sinceWith input ∧
        (w.decoded kind shape config input).base.crankSynchronizationCounter =
          w.decoder.base.crankSynchronizationCounter)
  /-- A synchronization point, the first one or with the right counts. -/
  | synchronizes (closes : w.closes kind shape config input)
      (restarted : (w.decoded kind shape config input).base.currentCycle.eventCount = fun _ => 0)
      (counter : ¬ w.closesCounted kind shape config input →
        (w.decoded kind shape config input).base.crankSynchronizationCounter = 0)
      (right : w.closesCounted kind shape config input →
        w.sinceWith input = shape.getExpectedEventCount)
  /-- A synchronization point with other counts. -/
  | fails (closes : w.closesCounted kind shape config input)
      (wrong : w.sinceWith input ≠ shape.getExpectedEventCount)
      (lost : (w.decoded kind shape config input).base.shaftIsSynchronized = false)
      (notified : (w.decoded kind shape config input).derived =
        kind.onTriggerError w.decoder.derived)

theorem closing (w : WatchedDecoder σ) (counted : Counted shape w) (input : EdgeInput) :
    Closing kind shape config w input := by
  have noted := @TriggerDecoder.noted_spec _ kind shape input w.decoder
  have finished := @TriggerDecoder.finishEdge_spec _ kind shape input.rpm
    (w.decoder.counted kind shape config input)
  rw [← TriggerDecoder.decodeTriggerEvent_eq] at finished
  generalize e_def : w.decoder.noted kind shape input = e at noted
  -- where the decoder is still synchronized at the edge, its counters are the true ones
  have upTo (shaft : e.base.shaftIsSynchronized = true) :
      w.decoder.base.shaftIsSynchronized = true ∧
        w.decoder.base.timedOut shape input.nowNt = false ∧
        e.base.currentCycle.eventCount = w.sinceWith input ∧
        e.base.crankSynchronizationCounter = w.decoder.base.crankSynchronizationCounter ∧
        e.derived = w.decoder.derived := by
    rw [noted.shaft, Bool.and_eq_true, Bool.not_eq_true'] at shaft
    have goesOn : w.decoder.restarts kind shape input = false := by
      simp [TriggerDecoder.restarts, shaft.2]
    refine ⟨shaft.1, shaft.2, ?_, ?_, ?_⟩
    · rw [noted.eventCount]
      simp only [goesOn, Bool.false_eq_true, if_false, counted.eventCount shaft.1]
      rfl
    · simp [noted.counter, goesOn]
    · simp [noted.derived, goesOn]
  by_cases considered : shape.shouldConsiderEdge input.signal.wheel input.signal.isRising
  · have stage : w.decoder.counted kind shape config input =
        e.considerEdge kind shape config input := by
      simp only [TriggerDecoder.counted, considered, if_true, e_def]
    have spec := @TriggerDecoder.considerEdge_spec _ kind shape config input e
    rw [stage] at finished
    generalize e.considerEdge kind shape config input = f at finished spec
    cases closed : e.base.closesCycle shape config input.rpm
    · have stays : ¬ w.closes kind shape config input := by
        simp [closes, decoded, finished.syncPoints, spec.syncPoints, closed, noted.syncPoints]
      refine .goesOn stays fun synchronized => ?_
      rw [decoded, finished.shaft, Bool.and_eq_true, spec.shaft] at synchronized
      simp only [closed, Bool.false_eq_true, if_false, Bool.and_eq_true] at synchronized
      obtain ⟨shaft, inTime, counts, counter, -⟩ := upTo synchronized.1.1
      refine ⟨shaft, inTime, ?_, ?_⟩
      · simp [decoded, finished.currentCycle, spec.eventCount, closed, counts]
      · simp [decoded, finished.counter, spec.counter, closed, counter]
    · have closes : w.closes kind shape config input := by
        simp [closes, decoded, finished.syncPoints, spec.syncPoints, closed, noted.syncPoints]
      have restarted : (w.decoded kind shape config input).base.currentCycle.eventCount =
          fun _ => 0 := by
        simp [decoded, finished.currentCycle, spec.eventCount, closed]
      cases shaft : e.base.shaftIsSynchronized
      · refine .synchronizes closes restarted (fun _ => ?_) fun closing => ?_
        · simp [decoded, finished.counter, spec.counter, closed, shaft]
        · simp [noted.shaft, closing.2.1, closing.2.2] at shaft
      · obtain ⟨was, inTime, counts, -, derived⟩ := upTo shaft
        cases wrong : e.base.validateEventCounters shape
        · refine .synchronizes closes restarted (fun other => absurd ⟨closes, was, inTime⟩ other)
            fun _ => ?_
          rw [← counts]
          exact TriggerDecoderBase.validateEventCounters_eq_false.mp wrong
        · have lost : f.base.shaftIsSynchronized = false := by
            simp [spec.shaft, closed, shaft, wrong]
          refine .fails ⟨closes, was, inTime⟩ ?_ ?_ ?_
          · rw [← counts]
            intro right
            rw [TriggerDecoderBase.validateEventCounters_eq_false.mpr right] at wrong
            cases wrong
          · simp [decoded, finished.shaft, lost]
          · simp [decoded, finished.derived, TriggerDecoder.tooManyTeeth, lost, spec.derived, closed,
              shaft, wrong, derived]
  · have stage : w.decoder.counted kind shape config input =
        { e with base := e.base.nextTriggerEvent shape } := by
      simp only [TriggerDecoder.counted, considered, e_def]
      rfl
    rw [stage] at finished
    have stays : ¬ w.closes kind shape config input := by
      simp [closes, decoded, finished.syncPoints, TriggerDecoderBase.nextTriggerEvent,
        noted.syncPoints]
    refine .goesOn stays fun synchronized => ?_
    rw [decoded, finished.shaft, Bool.and_eq_true] at synchronized
    obtain ⟨shaft, inTime, counts, counter, -⟩ := upTo synchronized.1
    refine ⟨shaft, inTime, ?_, ?_⟩
    · rw [decoded, finished.currentCycle]
      exact counts
    · rw [decoded, finished.counter]
      exact counter

theorem step_counted (w : WatchedDecoder σ) (counted : Counted shape w) (what : DecoderStep σ) :
    Counted shape (w.step kind shape config what) := by
  cases what with
  | reset => refine ⟨fun synchronized => ?_, fun synchronized => ?_⟩ <;> cases synchronized
  | derived change => exact ⟨counted.eventCount, counted.lastCycle⟩
  | edge input =>
    cases @closing _ kind _ config w counted input with
    | goesOn stays synchronized =>
      simp only [step, stays, if_false]
      refine ⟨fun shaft => (synchronized shaft).2.2.1, fun shaft once => ?_⟩
      obtain ⟨was, -, -, counter⟩ := synchronized shaft
      exact counted.lastCycle was (counter ▸ once)
    | synchronizes closes restarted counter right =>
      simp only [step, closes, if_true]
      refine ⟨fun _ => restarted, fun _ once => ?_⟩
      by_cases closing : w.closesCounted kind shape config input
      · exact right closing
      · rw [counter closing] at once
        cases once
    | fails closes wrong lost notified =>
      simp only [step, closes.1, if_true]
      exact ⟨fun shaft => by simp [lost] at shaft, fun shaft => by simp [lost] at shaft⟩

theorem run_counted (w : WatchedDecoder σ) (counted : Counted shape w) (steps : List (DecoderStep σ)) :
    Counted shape (w.run kind shape config steps) := by
  induction steps generalizing w with
  | nil => exact counted
  | cons what steps ih => exact ih _ (w.step_counted counted what)

theorem run_closes_wrong (kind : DecoderKind σ) (derived : σ) (steps : List (DecoderStep σ))
    (input : EdgeInput) :
    let w := (new derived).run kind shape config steps
    w.closesCounted kind shape config input →
      w.sinceWith input ≠ shape.getExpectedEventCount →
      (w.decoded kind shape config input).base.shaftIsSynchronized = false ∧
        (w.decoded kind shape config input).derived = kind.onTriggerError w.decoder.derived := by
  intro w closing wrong
  have counted := @run_counted _ kind _ config _
    (@new_counted _ shape derived) steps
  cases @WatchedDecoder.closing _ kind _ config w counted input with
  | goesOn stays => exact absurd closing.1 stays
  | synchronizes _ _ _ right => exact absurd (right closing) wrong
  | fails _ _ lost notified => exact ⟨lost, notified⟩

/-- In every reachable state with a synchronized shaft and a counted revolution, the
last cycle had the expected edges on each wheel; and a cycle of a synchronized decoder
that closes with other counts ends the synchronization in the same step. The primary
decoder then gives up its phase adjustment, and the full synchronization of a wave form
that needs disambiguation. -/
theorem countedCycles (shape : TriggerWaveform) (config : TriggerConfiguration) :
    (∀ {σ : Type} (kind : DecoderKind σ) (derived : σ) (steps : List (DecoderStep σ)),
      let w := (new derived).run kind shape config steps
      (w.decoder.base.shaftIsSynchronized = true →
          1 ≤ w.decoder.base.crankSynchronizationCounter →
          w.lastCycle = shape.getExpectedEventCount) ∧
        ∀ input, w.closesCounted kind shape config input →
          w.sinceWith input ≠ shape.getExpectedEventCount →
          (w.decoded kind shape config input).base.shaftIsSynchronized = false) ∧
    ∀ (derived : FullSync) (steps : List (DecoderStep FullSync)) (input : EdgeInput),
      let w := (new derived).run PrimaryTriggerDecoder.kind shape config steps
      let d := w.decoded PrimaryTriggerDecoder.kind shape config input
      w.closesCounted PrimaryTriggerDecoder.kind shape config input →
        w.sinceWith input ≠ shape.getExpectedEventCount →
        d.derived.mPhaseAdjustment = 0 ∧
          (w.decoder.derived.mNeedsDisambiguation = true →
            d.derived.mHasSynchronizedPhase = false) := by
  refine ⟨fun kind derived steps => ⟨?_, fun input closing wrong => ?_⟩, ?_⟩
  · exact (run_counted _ (@new_counted _ shape derived) steps).lastCycle
  · exact (run_closes_wrong kind derived steps input closing wrong).1
  · intro derived steps input w d closing wrong
    have notified := (run_closes_wrong _ derived steps input closing wrong).2
    change d.derived = w.decoder.derived.resetHasFullSync at notified
    rw [notified]
    exact ⟨rfl, fun needs => by simp [FullSync.resetHasFullSync, w, needs]⟩

/-- With no need of disambiguation the full synchronization outlives a wrong count: an
edge of a second wheel stands in for the falling edge of the tooth. -/
theorem countedCycles_unambiguous :
    let steps : List (DecoderStep FullSync) :=
      [.edge ⟨.primaryRising, 1000, 0⟩, .edge ⟨.secondaryRising, 2000, 0⟩]
    let w := (new ({ mHasSynchronizedPhase := true } : FullSync)).run PrimaryTriggerDecoder.kind
      halfMoon {} steps
    let input : EdgeInput := ⟨.primaryRising, 3000, 0⟩
    w.closesCounted PrimaryTriggerDecoder.kind halfMoon {} input ∧
      w.sinceWith input ≠ halfMoon.getExpectedEventCount ∧
      (w.decoded PrimaryTriggerDecoder.kind halfMoon {} input).derived.mHasSynchronizedPhase =
        true := by
  refine ⟨⟨?_, ?_, ?_⟩, fun same => ?_, ?_⟩
  · decide +kernel
  · decide +kernel
  · decide +kernel
  · exact absurd (congrFun same .primary) (by decide +kernel)
  · decide +kernel

end WatchedDecoder

end FomeFw.Trigger
