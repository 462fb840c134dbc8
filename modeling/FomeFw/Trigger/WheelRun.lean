import FomeFw.Lib.Turning
import FomeFw.Trigger.DecoderSteps
import FomeFw.Trigger.TriggerSimulator

/-! A decoder on a turning wheel. The edges of a wave form come round and round, at
any times; the decoder may be reset in between. While it is synchronized it knows where
the wheel is: the turns since its first synchronization point are counted by the
revolution counter, the edges since the last one by the index. -/
namespace FomeFw.Trigger
open Turning

namespace TriggerWaveform

section Wheel
variable (shape : TriggerWaveform)

/-- The edge at a position of the turning wheel. -/
def signalAt (k : Nat) : TriggerEvent :=
  .ofEdge (shape.isRiseEvent (k % shape.getSize)) (shape.channelIndex (k % shape.getSize))

/-- The decoder is shown the edge. -/
def Useful (k : Nat) : Prop := shape.isUsefulSignal (shape.signalAt k) = true

/-- The edge can be a synchronization point. -/
def Candidate (k : Nat) : Prop :=
  shape.Useful k ∧
    shape.shouldConsiderEdge (shape.signalAt k).wheel (shape.signalAt k).isRising = true

def UsefulOn (wheel : TriggerWheel) (k : Nat) : Prop :=
  shape.Useful k ∧ (shape.signalAt k).wheel = wheel

instance : DecidablePred shape.Useful := fun _ => inferInstanceAs (Decidable (_ = _))
instance : DecidablePred shape.Candidate := fun _ => inferInstanceAs (Decidable (_ ∧ _))
instance (wheel : TriggerWheel) : DecidablePred (shape.UsefulOn wheel) :=
  fun _ => inferInstanceAs (Decidable (_ ∧ _))

theorem signalAt_periodic : Function.Periodic shape.signalAt shape.getSize := fun k => by
  simp only [signalAt, Nat.add_mod_right]

theorem useful_periodic : Function.Periodic shape.Useful shape.getSize := fun k => by
  simp only [Useful, shape.signalAt_periodic k]

theorem candidate_periodic : Function.Periodic shape.Candidate shape.getSize := fun k => by
  simp only [Candidate, shape.useful_periodic k, shape.signalAt_periodic k]

theorem signalAt_isRising (k : Nat) :
    (shape.signalAt k).isRising = shape.isRiseEvent (k % shape.getSize) := by
  unfold signalAt TriggerEvent.ofEdge
  cases shape.isRiseEvent (k % shape.getSize) <;>
    cases shape.channelIndex (k % shape.getSize) <;> rfl

theorem signalAt_wheel (k : Nat) :
    (shape.signalAt k).wheel = shape.channelIndex (k % shape.getSize) := by
  unfold signalAt TriggerEvent.ofEdge
  cases shape.isRiseEvent (k % shape.getSize) <;>
    cases shape.channelIndex (k % shape.getSize) <;> rfl

theorem useful_iff (k : Nat) :
    shape.Useful k ↔ shape.useOnlyRisingEdges = true → shape.isRiseEvent (k % shape.getSize) = true := by
  unfold Useful isUsefulSignal
  rw [signalAt_isRising]
  split <;> simp_all

/-- One turn of the wheel has the expected edges. -/
theorem count_usefulOn (wheel : TriggerWheel) :
    Nat.count (shape.UsefulOn wheel) shape.getSize = shape.getExpectedEventCount wheel := by
  refine count_eq_countP shape.events fun i inside => ?_
  have here : i % shape.getSize = i := Nat.mod_eq_of_lt inside
  have event : shape.events[i]? = some shape.events[i] := List.getElem?_eq_getElem inside
  simp only [UsefulOn, useful_iff, signalAt_wheel, here, channelIndex, isRiseEvent, event,
    Option.map_some, Option.getD_some, Bool.and_eq_true, decide_eq_true_eq, Bool.or_eq_true,
    Bool.not_eq_true']
  cases shape.useOnlyRisingEdges <;> simp [and_comm]

/-- The useful edges of a stretch are those on the two wheels. -/
theorem marks_useful {a b : Nat} (order : a ≤ b) : marks shape.Useful a b =
    marks (shape.UsefulOn .primary) a b + marks (shape.UsefulOn .secondary) a b := by
  induction b, order using Nat.le_induction with
  | base => simp
  | succ b order ih =>
    rw [marks_succ order, marks_succ order, marks_succ order, ih]
    by_cases useful : shape.Useful b
    · cases wheel : (shape.signalAt b).wheel <;> simp [UsefulOn, useful, wheel] <;> omega
    · simp [UsefulOn, useful]

end Wheel

end TriggerWaveform

/-- The times of the edges, and what the RPM sensor says at them. -/
structure Rotation where
  time : Nat → Int
  rpm : Nat → ℚ

/-- What stays the same while the wheel turns. -/
structure WheelSetup (σ : Type) where
  kind : DecoderKind σ
  shape : TriggerWaveform
  config : TriggerConfiguration
  rotation : Rotation

/-- A decoder, the position of the next edge, and a record of the edge from which the
revolution counter counts. -/
structure WheelRun (σ : Type) where
  decoder : TriggerDecoder σ
  position : Nat
  origin : Nat

/-- The next edge; or a reset; or what a derived class does to its own fields. -/
inductive WheelStep (σ : Type) where
  | turn
  | reset
  | derived (change : TriggerDecoderBase → σ → σ)

namespace WheelSetup
variable {σ : Type} (s : WheelSetup σ)

def inputAt (k : Nat) : EdgeInput := ⟨s.shape.signalAt k, s.rotation.time k, s.rotation.rpm k⟩

def decode (d : TriggerDecoder σ) (k : Nat) : TriggerDecoder σ × Option Nat :=
  if s.shape.Useful k then d.decodeTriggerEvent s.kind s.shape s.config (s.inputAt k) else (d, none)

def start (d : TriggerDecoder σ) (position : Nat) : WheelRun σ :=
  ⟨d.resetState s.kind, position, position⟩

def turn (w : WheelRun σ) : WheelRun σ :=
  let d := (s.decode w.decoder w.position).1
  { decoder := d
    position := w.position + 1
    origin := if d.base.shaftIsSynchronized = true ∧
        d.base.counterRestarts ≠ w.decoder.base.counterRestarts then w.position else w.origin }

def step (w : WheelRun σ) : WheelStep σ → WheelRun σ
  | .turn => s.turn w
  | .reset => { w with decoder := w.decoder.resetState s.kind }
  | .derived change => { w with decoder.derived := change w.decoder.base w.decoder.derived }

def run (w : WheelRun σ) (steps : List (WheelStep σ)) : WheelRun σ := steps.foldl s.step w

/-- The decoder as it looks at the next edge. -/
def noted (w : WheelRun σ) : TriggerDecoder σ :=
  w.decoder.noted s.kind s.shape (s.inputAt w.position)

/-- What the next edge does to a decoder. -/
inductive Turned (w : WheelRun σ) : Prop
  | unseen (useless : ¬ s.shape.Useful w.position) (same : (s.turn w).decoder = w.decoder)
      (origin : (s.turn w).origin = w.origin)
  /-- The decoder is not synchronized afterwards. -/
  | loses (useful : s.shape.Useful w.position)
      (lost : (s.turn w).decoder.base.shaftIsSynchronized = false)
      (counter : let was := w.decoder.base.crankSynchronizationCounter
        let now := (s.turn w).decoder.base.crankSynchronizationCounter
        now = 0 ∨ now = was ∨
          w.decoder.base.shaftIsSynchronized = true ∧ now = (was + 1) % 2 ^ 16)
  /-- The first synchronization point. -/
  | starts (some : 0 < s.shape.getSize) (candidate : s.shape.Candidate w.position)
      (accepted : s.shape.isSynchronizationNeeded = true →
        s.shape.gapTest s.config (fun i => (s.noted w).base.toothDurations i) = true)
      (synchronized : (s.turn w).decoder.base.shaftIsSynchronized = true)
      (origin : (s.turn w).origin = w.position)
      (counter : (s.turn w).decoder.base.crankSynchronizationCounter = 0)
      (cycle : (s.turn w).decoder.base.currentCycle = {})
  /-- A synchronization point with the right counts since the last one. -/
  | closes (candidate : s.shape.Candidate w.position)
      (shaft : (s.noted w).base.shaftIsSynchronized = true)
      (tested : (s.noted w).base.closesCycle s.shape s.config (s.rotation.rpm w.position) = true)
      (counts : (s.noted w).base.currentCycle.eventCount = s.shape.getExpectedEventCount)
      (synchronized : (s.turn w).decoder.base.shaftIsSynchronized = true)
      (origin : (s.turn w).origin = w.origin)
      (counter : (s.turn w).decoder.base.crankSynchronizationCounter =
        (w.decoder.base.crankSynchronizationCounter + 1) % 2 ^ 16)
      (cycle : (s.turn w).decoder.base.currentCycle = {})
  /-- An edge in between. -/
  | continues (useful : s.shape.Useful w.position)
      (shaft : (s.noted w).base.shaftIsSynchronized = true)
      (between : s.shape.Candidate w.position →
        (s.noted w).base.closesCycle s.shape s.config (s.rotation.rpm w.position) = false ∧
          (s.noted w).base.dropsShaft s.shape s.config (s.rotation.rpm w.position) = false)
      (synchronized : (s.turn w).decoder.base.shaftIsSynchronized = true)
      (origin : (s.turn w).origin = w.origin)
      (counter : (s.turn w).decoder.base.crankSynchronizationCounter =
        w.decoder.base.crankSynchronizationCounter)
      (eventCount : (s.turn w).decoder.base.currentCycle.eventCount =
        (s.noted w).base.currentCycle.eventCount)
      (index : (s.turn w).decoder.base.currentCycle.currentIndex =
        w.decoder.base.currentCycle.currentIndex + s.shape.indexStep)
      (valid : (s.turn w).decoder.base.currentCycle.currentIndex < s.shape.getSize)

variable {s} {w : WheelRun σ}

/-- A decoder that is synchronized as it looks at the edge was synchronized before. -/
theorem noted_of_synchronized (shaft : (s.noted w).base.shaftIsSynchronized = true) :
    w.decoder.base.shaftIsSynchronized = true ∧
      (s.noted w).base.crankSynchronizationCounter = w.decoder.base.crankSynchronizationCounter ∧
      (s.noted w).base.counterRestarts = w.decoder.base.counterRestarts ∧
      (s.noted w).base.currentCycle.currentIndex = w.decoder.base.currentCycle.currentIndex ∧
      (s.noted w).base.currentCycle.eventCount = Function.update
        w.decoder.base.currentCycle.eventCount (s.shape.signalAt w.position).wheel
        (w.decoder.base.currentCycle.eventCount (s.shape.signalAt w.position).wheel + 1) := by
  have noted := @TriggerDecoder.noted_spec _ s.kind s.shape (s.inputAt w.position) w.decoder
  change TriggerDecoder.Noted _ _ _ _ (s.noted w) at noted
  rw [noted.shaft, Bool.and_eq_true, Bool.not_eq_true'] at shaft
  have goesOn : w.decoder.restarts s.kind s.shape (s.inputAt w.position) = false := by
    simp [TriggerDecoder.restarts, shaft.2]
  refine ⟨shaft.1, ?_, ?_, ?_, ?_⟩
  · simp [noted.counter, goesOn]
  · simp [noted.counterRestarts, goesOn]
  · simp [noted.index, goesOn]
  · rw [noted.eventCount, goesOn]
    rfl

/-- The fields of the decoder after an edge, from those before the last check. -/
theorem turn_finished (useful : s.shape.Useful w.position) :
    let f := w.decoder.counted s.kind s.shape s.config (s.inputAt w.position)
    let b := (s.turn w).decoder.base
    b.shaftIsSynchronized = (f.base.shaftIsSynchronized && !f.tooManyTeeth s.shape) ∧
      b.crankSynchronizationCounter = f.base.crankSynchronizationCounter ∧
      b.currentCycle = f.base.currentCycle ∧ b.counterRestarts = f.base.counterRestarts := by
  have finished := @TriggerDecoder.finishEdge_spec _ s.kind s.shape (s.inputAt w.position).rpm
    (w.decoder.counted s.kind s.shape s.config (s.inputAt w.position))
  rw [← TriggerDecoder.decodeTriggerEvent_eq] at finished
  simp only [turn, decode, useful, if_true]
  exact ⟨finished.shaft, finished.counter, finished.currentCycle, finished.restarts⟩

/-- Where the shaft stays synchronized an edge leaves the fields of a derived class alone. -/
theorem turn_derived (shaft : (s.noted w).base.shaftIsSynchronized = true)
    (synchronized : (s.turn w).decoder.base.shaftIsSynchronized = true) :
    (s.turn w).decoder.derived = w.decoder.derived := by
  by_cases useful : s.shape.Useful w.position
  swap
  · simp [turn, decode, useful]
  have noted := @TriggerDecoder.noted_spec _ s.kind s.shape (s.inputAt w.position) w.decoder
  change TriggerDecoder.Noted _ _ _ _ (s.noted w) at noted
  have derived : (s.noted w).derived = w.decoder.derived := by
    have inTime := noted.shaft
    rw [shaft, eq_comm, Bool.and_eq_true, Bool.not_eq_true'] at inTime
    rw [noted.derived, if_neg (by simp [TriggerDecoder.restarts, inTime.2])]
  have finished := @TriggerDecoder.finishEdge_spec _ s.kind s.shape (s.inputAt w.position).rpm
    (w.decoder.counted s.kind s.shape s.config (s.inputAt w.position))
  rw [← TriggerDecoder.decodeTriggerEvent_eq] at finished
  simp only [turn, decode, useful, if_true] at synchronized ⊢
  rw [finished.shaft, Bool.and_eq_true, Bool.not_eq_true'] at synchronized
  obtain ⟨kept, enough⟩ := synchronized
  rw [finished.derived, if_neg (by simp [enough]), ← derived]
  by_cases considered : s.shape.shouldConsiderEdge (s.shape.signalAt w.position).wheel
    (s.shape.signalAt w.position).isRising
  · have stage : w.decoder.counted s.kind s.shape s.config (s.inputAt w.position) =
        (s.noted w).considerEdge s.kind s.shape s.config (s.inputAt w.position) := by
      simp only [TriggerDecoder.counted, inputAt, considered, if_true]
      rfl
    have spec := @TriggerDecoder.considerEdge_spec _ s.kind s.shape s.config
      (s.inputAt w.position) (s.noted w)
    rw [stage] at kept ⊢
    rw [spec.derived, if_neg]
    intro wrong
    simp only [Bool.and_eq_true] at wrong
    rw [spec.shaft, if_pos wrong.1.1, wrong.1.2, wrong.2] at kept
    cases kept
  · have stage : w.decoder.counted s.kind s.shape s.config (s.inputAt w.position) =
        { s.noted w with base := (s.noted w).base.nextTriggerEvent s.shape } := by
      simp only [TriggerDecoder.counted, inputAt, considered]
      rfl
    rw [stage]

/-- A result is the index of a synchronized decoder. -/
theorem decode_some (decoded : (s.decode w.decoder w.position).2 = some index) :
    s.shape.Useful w.position ∧ (s.turn w).decoder.base.shaftIsSynchronized = true ∧
      (s.turn w).decoder.base.currentCycle.currentIndex = index := by
  by_cases useful : s.shape.Useful w.position
  · have finished := @TriggerDecoder.finishEdge_spec _ s.kind s.shape (s.inputAt w.position).rpm
      (w.decoder.counted s.kind s.shape s.config (s.inputAt w.position))
    rw [← TriggerDecoder.decodeTriggerEvent_eq] at finished
    simp only [turn, decode, useful, if_true] at decoded ⊢
    rw [finished.index] at decoded
    split at decoded
    · next synchronized => exact ⟨trivial, synchronized, Option.some.inj decoded⟩
    · cases decoded
  · simp [decode, useful] at decoded

theorem turned (s : WheelSetup σ) (w : WheelRun σ) : s.Turned w := by
  by_cases useful : s.shape.Useful w.position
  swap
  · refine .unseen useful ?_ ?_ <;> simp [turn, decode, useful]
  have origin : (s.turn w).origin =
      if (s.turn w).decoder.base.shaftIsSynchronized = true ∧
        (s.turn w).decoder.base.counterRestarts ≠ w.decoder.base.counterRestarts
      then w.position else w.origin := rfl
  have noted := @TriggerDecoder.noted_spec _ s.kind s.shape (s.inputAt w.position) w.decoder
  have upTo := noted_of_synchronized (s := s) (w := w)
  have counterNoted : (s.noted w).base.crankSynchronizationCounter = 0 ∨
      (s.noted w).base.crankSynchronizationCounter =
        w.decoder.base.crankSynchronizationCounter := by
    rw [WheelSetup.noted, noted.counter]
    split <;> simp
  have restartsNoted : w.decoder.base.counterRestarts ≤ (s.noted w).base.counterRestarts := by
    rw [WheelSetup.noted, noted.counterRestarts]
    split <;> omega
  obtain ⟨shaft, counter, cycle, restarts⟩ := turn_finished useful
  by_cases considered : s.shape.shouldConsiderEdge (s.shape.signalAt w.position).wheel
    (s.shape.signalAt w.position).isRising
  · have candidate : s.shape.Candidate w.position := ⟨useful, considered⟩
    have stage : w.decoder.counted s.kind s.shape s.config (s.inputAt w.position) =
        (s.noted w).considerEdge s.kind s.shape s.config (s.inputAt w.position) := by
      simp only [TriggerDecoder.counted, inputAt, considered, if_true]
      rfl
    have spec := @TriggerDecoder.considerEdge_spec _ s.kind s.shape s.config
      (s.inputAt w.position) (s.noted w)
    rw [stage] at shaft counter cycle restarts
    generalize (s.noted w).considerEdge s.kind s.shape s.config (s.inputAt w.position) = f
      at shaft counter cycle restarts spec
    cases synchronized : (s.turn w).decoder.base.shaftIsSynchronized
    · refine .loses useful synchronized ?_
      rw [counter, spec.counter]
      split
      · split
        · rename_i was
          exact .inr (.inr ⟨(upTo was).1, by rw [(upTo was).2.1]⟩)
        · exact .inl rfl
      · exact counterNoted.imp_right .inl
    · rw [synchronized, eq_comm, Bool.and_eq_true, Bool.not_eq_true'] at shaft
      obtain ⟨kept, enough⟩ := shaft
      cases closes : (s.noted w).base.closesCycle s.shape s.config (s.inputAt w.position).rpm
      · have before := spec.shaft
        rw [kept, closes, if_neg (by simp), eq_comm, Bool.and_eq_true, Bool.not_eq_true'] at before
        obtain ⟨-, sameCounter, sameRestarts, index, -⟩ := upTo before.1
        refine .continues useful before.1 (fun _ => ⟨closes, before.2⟩) synchronized ?_ ?_ ?_ ?_ ?_
        · rw [origin, if_neg]
          simp [restarts, spec.restarts, closes, sameRestarts]
        · rw [counter, spec.counter, closes, if_neg (by simp), sameCounter]
        · rw [cycle, spec.eventCount, closes, if_neg (by simp)]
        · rw [cycle, spec.index, closes, if_neg (by simp), if_pos kept, index]
        · rw [cycle]
          exact TriggerDecoder.index_lt_getSize kept enough
      · have fresh : (s.turn w).decoder.base.currentCycle = {} := by
          have index := spec.index
          have eventCount := spec.eventCount
          rw [closes, if_pos rfl] at index eventCount
          rw [cycle]
          exact congrArg₂ CurrentCycle.mk index eventCount
        cases before : (s.noted w).base.shaftIsSynchronized
        · refine .starts (Nat.zero_lt_of_lt (TriggerDecoder.index_lt_getSize kept enough)) candidate (fun needed => ?_) synchronized ?_ ?_ fresh
          · simpa [TriggerDecoderBase.closesCycle, needed, TriggerDecoderBase.countsTeeth,
              before] using closes
          · have later : w.decoder.base.counterRestarts <
                (s.turn w).decoder.base.counterRestarts := by
              rw [restarts, spec.restarts, closes, if_pos rfl, before, if_neg (by simp)]
              omega
            rw [origin, if_pos ⟨synchronized, later.ne'⟩]
          · rw [counter, spec.counter, closes, if_pos rfl, before, if_neg (by simp)]
        · obtain ⟨-, sameCounter, sameRestarts, -, -⟩ := upTo before
          have right := spec.shaft
          rw [kept, closes, if_pos rfl, before, Bool.true_and, eq_comm, Bool.not_eq_true'] at right
          refine .closes candidate before closes ?_ synchronized ?_ ?_ fresh
          · exact TriggerDecoderBase.validateEventCounters_eq_false.mp right
          · rw [origin, if_neg]
            simp [restarts, spec.restarts, closes, before, sameRestarts]
          · rw [counter, spec.counter, closes, if_pos rfl, before, if_pos rfl, sameCounter]
  · have stage : w.decoder.counted s.kind s.shape s.config (s.inputAt w.position) =
        { s.noted w with base := (s.noted w).base.nextTriggerEvent s.shape } := by
      simp only [TriggerDecoder.counted, inputAt, considered]
      rfl
    rw [stage] at shaft counter cycle restarts
    cases synchronized : (s.turn w).decoder.base.shaftIsSynchronized
    · refine .loses useful synchronized ?_
      rw [counter]
      exact counterNoted.imp_right .inl
    · rw [synchronized, eq_comm, Bool.and_eq_true, Bool.not_eq_true'] at shaft
      obtain ⟨kept, enough⟩ := shaft
      obtain ⟨-, sameCounter, sameRestarts, index, -⟩ := upTo kept
      refine .continues useful kept (fun candidate => absurd candidate.2 considered) synchronized
        ?_ ?_ ?_ ?_ ?_
      · rw [origin, if_neg]
        simp [restarts, TriggerDecoderBase.nextTriggerEvent, sameRestarts]
      · rw [counter]
        exact sameCounter
      · rw [cycle]
        rfl
      · rw [cycle]
        exact congrArg (· + s.shape.indexStep) index
      · rw [cycle]
        exact TriggerDecoder.index_lt_getSize kept enough

end WheelSetup

section Aligned
variable {σ : Type} {shape : TriggerWaveform} {w : WheelRun σ}

/-- The last synchronization point came `turns` turns after the first one, and the
decoder has counted the edges since. -/
structure Counting (shape : TriggerWaveform) (w : WheelRun σ) (turns : Nat) : Prop where
  begun : w.origin + turns * shape.getSize < w.position
  counter : w.decoder.base.crankSynchronizationCounter = turns % 2 ^ 16
  eventCount : ∀ wheel, w.decoder.base.currentCycle.eventCount wheel =
    marks (shape.UsefulOn wheel) (w.origin + turns * shape.getSize + 1) w.position
  index : w.decoder.base.currentCycle.currentIndex = shape.indexStep *
    marks shape.Useful (w.origin + turns * shape.getSize + 1) w.position
  valid : w.decoder.base.currentCycle.currentIndex < shape.getSize

/-- A synchronized decoder knows where the wheel is. -/
def Aligned (shape : TriggerWaveform) (w : WheelRun σ) : Prop :=
  w.decoder.base.shaftIsSynchronized = true →
    shape.Candidate w.origin ∧ ∃ turns, Counting shape w turns

theorem TriggerWaveform.candidate_turns (shape : TriggerWaveform) (k turns : Nat) :
    shape.Candidate (k + turns * shape.getSize) ↔ shape.Candidate k := by
  rw [← Nat.nsmul_eq_mul]
  exact iff_of_eq (shape.candidate_periodic.nsmul turns k)

/-- The expected edges of both wheels are all the edges of a turn. -/
theorem TriggerWaveform.count_useful (shape : TriggerWaveform) :
    Nat.count shape.Useful shape.getSize =
      shape.getExpectedEventCount .primary + shape.getExpectedEventCount .secondary := by
  have split := shape.marks_useful (Nat.zero_le shape.getSize)
  simp only [marks, Nat.count_zero, Nat.sub_zero] at split
  rw [split, shape.count_usefulOn, shape.count_usefulOn]

namespace WheelSetup
variable {s : WheelSetup σ}

/-- The counts as the decoder looks at the next edge. -/
theorem noted_eventCount (counting : Counting s.shape w turns)
    (shaft : (s.noted w).base.shaftIsSynchronized = true) (useful : s.shape.Useful w.position)
    (wheel : TriggerWheel) : (s.noted w).base.currentCycle.eventCount wheel =
      marks (s.shape.UsefulOn wheel) (w.origin + turns * s.shape.getSize + 1) (w.position + 1) := by
  obtain ⟨-, -, -, -, eventCount⟩ := noted_of_synchronized shaft
  have begun := counting.begun
  rw [eventCount, marks_succ (by omega)]
  by_cases here : wheel = (s.shape.signalAt w.position).wheel
  · subst here
    rw [Function.update_self, counting.eventCount, if_pos ⟨useful, rfl⟩]
  · rw [Function.update_of_ne here, counting.eventCount, if_neg fun mark => here mark.2.symm]
    rfl

/-- A cycle with the right counts was one turn of the wheel. -/
theorem position_of_counts (counting : Counting s.shape w turns)
    (origin : s.shape.Candidate w.origin)
    (shaft : (s.noted w).base.shaftIsSynchronized = true) (useful : s.shape.Useful w.position)
    (counts : (s.noted w).base.currentCycle.eventCount = s.shape.getExpectedEventCount) :
    w.position = w.origin + (turns + 1) * s.shape.getSize := by
  have begun := counting.begun
  have last := ((s.shape.candidate_turns w.origin turns).mpr origin).1
  rw [Nat.succ_mul, ← Nat.add_assoc]
  refine eq_turn_of_marks s.shape.useful_periodic last useful begun.le ?_
  rw [s.shape.marks_useful (by omega), s.shape.count_useful, ← counts,
    noted_eventCount counting shaft useful, noted_eventCount counting shaft useful]

theorem turn_aligned (aligned : Aligned s.shape w) : Aligned s.shape (s.turn w) := by
  intro synchronized
  have moved : (s.turn w).position = w.position + 1 := rfl
  cases s.turned w with
  | unseen useless same origin =>
    rw [same] at synchronized
    obtain ⟨candidate, turns, counting⟩ := aligned synchronized
    have begun := counting.begun
    refine ⟨by rw [origin]; exact candidate, turns, ?_, ?_, fun wheel => ?_, ?_, ?_⟩
    · omega
    · rw [same, counting.counter]
    · rw [same, counting.eventCount, origin, moved, marks_succ (by omega),
        if_neg fun mark => useless mark.1]
      rfl
    · rw [same, counting.index, origin, moved, marks_succ (by omega), if_neg useless]
      rfl
    · rw [same]
      exact counting.valid
  | loses useful lost => rw [lost] at synchronized; cases synchronized
  | starts some candidate accepted _ origin counter cycle =>
    refine ⟨origin ▸ candidate, 0, ?_, ?_, fun wheel => ?_, ?_, ?_⟩
    · rw [origin, moved]; omega
    · rw [counter]; rfl
    · rw [cycle, origin, moved, Nat.zero_mul, Nat.add_zero, marks_self]
    · rw [cycle, origin, moved, Nat.zero_mul, Nat.add_zero, marks_self, Nat.mul_zero]
    · rw [cycle]; exact some
  | closes candidate shaft tested counts _ origin counter cycle =>
    obtain ⟨was, -⟩ := noted_of_synchronized shaft
    obtain ⟨first, turns, counting⟩ := aligned was
    have position := position_of_counts counting first shaft candidate.1 counts
    refine ⟨origin ▸ first, turns + 1, ?_, ?_, fun wheel => ?_, ?_, ?_⟩
    · rw [origin, moved]; omega
    · rw [counter, counting.counter]; omega
    · rw [cycle, origin, moved, ← position, marks_self]
    · rw [cycle, origin, moved, ← position, marks_self, Nat.mul_zero]
    · rw [cycle]; exact (Nat.zero_le _).trans_lt counting.valid
  | continues useful shaft between _ origin counter eventCount index valid =>
    obtain ⟨was, -⟩ := noted_of_synchronized shaft
    obtain ⟨first, turns, counting⟩ := aligned was
    have begun := counting.begun
    refine ⟨origin ▸ first, turns, ?_, ?_, fun wheel => ?_, ?_, valid⟩
    · rw [origin, moved]; omega
    · rw [counter, counting.counter]
    · rw [eventCount, origin, moved, noted_eventCount counting shaft useful]
    · rw [index, origin, moved, counting.index, marks_succ (by omega), if_pos useful, Nat.mul_add,
        Nat.mul_one]

/-- Alignment is about the fields that every decoder has. -/
theorem aligned_of_base {d : TriggerDecoder σ} (same : d.base = w.decoder.base)
    (aligned : Aligned s.shape w) : Aligned s.shape { w with decoder := d } := by
  intro synchronized
  have was : w.decoder.base.shaftIsSynchronized = true := same ▸ synchronized
  obtain ⟨candidate, turns, counting⟩ := aligned was
  refine ⟨candidate, turns, counting.begun, ?_, ?_, ?_, ?_⟩
  · rw [same]
    exact counting.counter
  · rw [same]
    exact counting.eventCount
  · rw [same]
    exact counting.index
  · rw [same]
    exact counting.valid

theorem step_aligned (aligned : Aligned s.shape w) (what : WheelStep σ) :
    Aligned s.shape (s.step w what) := by
  cases what with
  | turn => exact turn_aligned aligned
  | reset => intro synchronized; cases synchronized
  | derived change => exact aligned_of_base rfl aligned

/-- A synchronized decoder knows where the wheel is, whatever the times of the edges. -/
theorem run_aligned (s : WheelSetup σ) (aligned : Aligned s.shape w) (steps : List (WheelStep σ)) :
    Aligned s.shape (s.run w steps) := by
  induction steps generalizing w with
  | nil => exact aligned
  | cons what steps ih => exact ih (step_aligned aligned what)

end WheelSetup

end Aligned

end FomeFw.Trigger
