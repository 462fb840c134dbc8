import FomeFw.Trigger.TriggerDecoder

/-! What one call of `decodeTriggerEvent` does, stage by stage and field by field.
Results about runs of the decoder rest on these equations and unfold nothing. -/
namespace FomeFw.Trigger

namespace TriggerDecoderBase

variable {b : TriggerDecoderBase} {shape : TriggerWaveform} {config : TriggerConfiguration}
  {rpm : ℚ}

/-- Whether the special case of `isSyncPoint` applies: teeth are only counted. -/
def countsTeeth (b : TriggerDecoderBase) (config : TriggerConfiguration) (rpm : ℚ) : Bool :=
  config.isMiataVvt && (b.shaftIsSynchronized && decide (rpm < 1000))

/-- The ratio of the last two gaps is one that tooth counting accepts. -/
def hasReasonableGap (b : TriggerDecoderBase) : Bool :=
  isInRange (some (2 / 5)) (gapRatio (b.toothDurations 0) (b.toothDurations 1)) 2

/-- `isSyncPoint` gives up the synchronization. -/
def dropsShaft (b : TriggerDecoderBase) (shape : TriggerWaveform) (config : TriggerConfiguration)
    (rpm : ℚ) : Bool :=
  shape.isSynchronizationNeeded && b.countsTeeth config rpm && !b.hasReasonableGap

/-- The edge is a synchronization point. -/
def closesCycle (b : TriggerDecoderBase) (shape : TriggerWaveform) (config : TriggerConfiguration)
    (rpm : ℚ) : Bool :=
  if shape.isSynchronizationNeeded then
    if b.countsTeeth config rpm then b.hasReasonableGap && decide (b.currentCycle.currentIndex ≠ 0)
    else shape.gapTest config fun i => b.toothDurations i
  else !b.shaftIsSynchronized ||
    decide (b.currentCycle.currentIndex ≥ (shape.getSize + 2 ^ 32 - shape.indexStep) % 2 ^ 32)

theorem validateEventCounters_eq_false :
    b.validateEventCounters shape = false ↔
      b.currentCycle.eventCount = shape.getExpectedEventCount := by
  simp only [validateEventCounters, Bool.or_eq_false_iff, decide_eq_false_iff_not, ne_eq, not_not]
  constructor
  · rintro ⟨primary, secondary⟩
    funext wheel
    cases wheel
    · exact primary
    · exact secondary
  · intro same
    exact ⟨congrFun same _, congrFun same _⟩

theorem isSynchronizationPoint_eq : b.isSynchronizationPoint shape config rpm =
    ({ b with
        triggerSyncGapRatio := if shape.isSynchronizationNeeded then
          gapRatio (b.toothDurations 0) (b.toothDurations 1) else b.triggerSyncGapRatio
        shaftIsSynchronized := b.shaftIsSynchronized && !b.dropsShaft shape config rpm
        shaftLosses := if b.dropsShaft shape config rpm then b.shaftLosses + 1 else b.shaftLosses },
      b.closesCycle shape config rpm) := by
  unfold isSynchronizationPoint isSyncPoint dropsShaft closesCycle countsTeeth hasReasonableGap
  by_cases needed : shape.isSynchronizationNeeded <;> simp only [needed]
  · by_cases counts : (config.isMiataVvt && (b.shaftIsSynchronized && decide (rpm < 1000))) = true
    · by_cases reasonable :
        isInRange (some (2 / 5)) (gapRatio (b.toothDurations 0) (b.toothDurations 1)) 2 = true
      · simp [counts, reasonable]
      · simp [counts, reasonable, setShaftSynchronized]
    · simp [counts]
  · simp

end TriggerDecoderBase

namespace TriggerDecoder

open TriggerDecoderBase

variable {σ : Type} {kind : DecoderKind σ} {shape : TriggerWaveform} {config : TriggerConfiguration}
  {input : EdgeInput} {d : TriggerDecoder σ} {rpm : ℚ}

section Noting

/-- The decoder with the time gap checked and the edge counted. -/
def noted (kind : DecoderKind σ) (shape : TriggerWaveform) (input : EdgeInput)
    (d : TriggerDecoder σ) : TriggerDecoder σ :=
  let d := d.checkTimeout kind shape input.nowNt
  { d with base := d.base.noteEdge shape input }

/-- The time gap makes the listener reset the decoder. -/
def restarts (kind : DecoderKind σ) (shape : TriggerWaveform) (input : EdgeInput)
    (d : TriggerDecoder σ) : Bool :=
  d.base.timedOut shape input.nowNt && kind.hasListener

/-- What the decoder is like when it looks at an edge. -/
structure Noted (kind : DecoderKind σ) (shape : TriggerWaveform) (input : EdgeInput)
    (d e : TriggerDecoder σ) : Prop where
  shaft : e.base.shaftIsSynchronized =
    (d.base.shaftIsSynchronized && !d.base.timedOut shape input.nowNt)
  counter : e.base.crankSynchronizationCounter =
    if d.restarts kind shape input then 0 else d.base.crankSynchronizationCounter
  eventCount : e.base.currentCycle.eventCount =
    let counted := if d.restarts kind shape input then fun _ => 0 else d.base.currentCycle.eventCount
    Function.update counted input.signal.wheel (counted input.signal.wheel + 1)
  index : e.base.currentCycle.currentIndex =
    if d.restarts kind shape input then 0 else d.base.currentCycle.currentIndex
  firstEvent : e.base.isFirstEvent = (d.restarts kind shape input || d.base.isFirstEvent)
  previousTime : e.base.toothedPreviousTime =
    if d.restarts kind shape input then 0 else d.base.toothedPreviousTime
  durations : e.base.toothDurations = Function.update
    (if d.restarts kind shape input then fun _ => 0 else d.base.toothDurations) 0
    (min (if e.base.isFirstEvent then 0 else input.nowNt - e.base.toothedPreviousTime)
      (10 * ntPerSecond))
  derived : e.derived =
    if d.restarts kind shape input then kind.onReset d.derived else d.derived
  syncPoints : e.base.syncPoints = d.base.syncPoints
  counterRestarts : e.base.counterRestarts =
    if d.restarts kind shape input then d.base.counterRestarts + 1 else d.base.counterRestarts
  losses : d.base.timedOut shape input.nowNt = false → e.base.shaftLosses = d.base.shaftLosses
  eventTimer : e.base.previousEventTimer = input.nowNt

theorem noted_spec (d : TriggerDecoder σ) : Noted kind shape input d (d.noted kind shape input) := by
  have edges (b : TriggerDecoderBase) (isRising : Bool) : b.logEdgeCounters isRising =
      { b with
        edgeCountRise := if isRising then (b.edgeCountRise + 1) % 2 ^ 16 else b.edgeCountRise
        edgeCountFall := if isRising then b.edgeCountFall else (b.edgeCountFall + 1) % 2 ^ 16 } := by
    cases isRising <;> rfl
  cases lost : d.base.timedOut shape input.nowNt
  · constructor <;>
      simp [noted, checkTimeout, restarts, lost, noteEdge, edges]
  · cases listens : kind.hasListener <;> constructor <;>
      simp [noted, checkTimeout, restarts, lost, listens, noteEdge, edges,
        TriggerDecoder.resetState, TriggerDecoderBase.resetState, setShaftSynchronized,
        resetCurrentCycleState]

theorem Noted.untouched {e : TriggerDecoder σ} (noted : Noted kind shape input d e)
    (inTime : d.base.timedOut shape input.nowNt = false) :
    e.base.shaftLosses = d.base.shaftLosses ∧ e.base.counterRestarts = d.base.counterRestarts :=
  ⟨noted.losses inTime, by simp [noted.counterRestarts, restarts, inTime]⟩

end Noting

section Considering

/-- An edge that can be a synchronization point: whether it is, and whether the
decoder was synchronized up to it, decide everything. -/
structure Considered (kind : DecoderKind σ) (shape : TriggerWaveform)
    (config : TriggerConfiguration) (input : EdgeInput) (e f : TriggerDecoder σ) : Prop where
  shaft : f.base.shaftIsSynchronized =
    if e.base.closesCycle shape config input.rpm then
      !(e.base.shaftIsSynchronized && e.base.validateEventCounters shape)
    else e.base.shaftIsSynchronized && !e.base.dropsShaft shape config input.rpm
  counter : f.base.crankSynchronizationCounter =
    if e.base.closesCycle shape config input.rpm then
      if e.base.shaftIsSynchronized then (e.base.crankSynchronizationCounter + 1) % 2 ^ 16 else 0
    else e.base.crankSynchronizationCounter
  eventCount : f.base.currentCycle.eventCount =
    if e.base.closesCycle shape config input.rpm then fun _ => 0
    else e.base.currentCycle.eventCount
  index : f.base.currentCycle.currentIndex =
    if e.base.closesCycle shape config input.rpm then 0
    else if f.base.shaftIsSynchronized then e.base.currentCycle.currentIndex + shape.indexStep
    else e.base.currentCycle.currentIndex
  firstEvent : f.base.isFirstEvent = false
  previousTime : f.base.toothedPreviousTime = input.nowNt
  durations : f.base.toothDurations = fun i =>
    if 1 ≤ i ∧ i ≤ shape.gapTrackingLength then e.base.toothDurations (i - 1)
    else e.base.toothDurations i
  derived : f.derived =
    if e.base.closesCycle shape config input.rpm && e.base.shaftIsSynchronized &&
      e.base.validateEventCounters shape then kind.onTriggerError e.derived else e.derived
  syncPoints : f.base.syncPoints =
    if e.base.closesCycle shape config input.rpm then e.base.syncPoints + 1 else e.base.syncPoints
  losses : f.base.shaftLosses =
    if e.base.closesCycle shape config input.rpm && e.base.shaftIsSynchronized &&
        e.base.validateEventCounters shape || e.base.dropsShaft shape config input.rpm
      then e.base.shaftLosses + 1 else e.base.shaftLosses
  restarts : f.base.counterRestarts =
    if e.base.closesCycle shape config input.rpm then
      if e.base.shaftIsSynchronized then e.base.counterRestarts else e.base.counterRestarts + 1
    else e.base.counterRestarts
  eventTimer : f.base.previousEventTimer = e.base.previousEventTimer

/-- Where the synchronization is given up the edge is not a synchronization point. -/
theorem closesCycle_of_dropsShaft {b : TriggerDecoderBase} (drops : b.dropsShaft shape config rpm) :
    b.closesCycle shape config rpm = false := by
  simp only [dropsShaft, Bool.and_eq_true, Bool.not_eq_true'] at drops
  simp [closesCycle, drops.1.1, drops.1.2, drops.2]

/-- A cycle is closed: with the right counts the decoder is synchronized from here on. -/
structure Closed (kind : DecoderKind σ) (shape : TriggerWaveform) (d c : TriggerDecoder σ) :
    Prop where
  shaft : c.base.shaftIsSynchronized =
    !(d.base.shaftIsSynchronized && d.base.validateEventCounters shape)
  counter : c.base.crankSynchronizationCounter =
    if d.base.shaftIsSynchronized then (d.base.crankSynchronizationCounter + 1) % 2 ^ 16 else 0
  currentCycle : c.base.currentCycle = {}
  firstEvent : c.base.isFirstEvent = d.base.isFirstEvent
  durations : c.base.toothDurations = d.base.toothDurations
  derived : c.derived =
    if d.base.shaftIsSynchronized && d.base.validateEventCounters shape then
      kind.onTriggerError d.derived else d.derived
  syncPoints : c.base.syncPoints = d.base.syncPoints + 1
  losses : c.base.shaftLosses =
    if d.base.shaftIsSynchronized && d.base.validateEventCounters shape then
      d.base.shaftLosses + 1 else d.base.shaftLosses
  restarts : c.base.counterRestarts =
    if d.base.shaftIsSynchronized then d.base.counterRestarts else d.base.counterRestarts + 1
  eventTimer : c.base.previousEventTimer = d.base.previousEventTimer

theorem closeCycle_spec (d : TriggerDecoder σ) (nowNt : Int) :
    Closed kind shape d (d.closeCycle kind shape d.base.shaftIsSynchronized nowNt) := by
  cases shaft : d.base.shaftIsSynchronized <;>
    cases wrong : d.base.validateEventCounters shape <;> constructor <;>
    simp [closeCycle, shaft, wrong, onShaftSynchronization, nextTriggerEvent,
      resetCurrentCycleState, setShaftSynchronized, setTriggerErrorState]

theorem considerEdge_spec (e : TriggerDecoder σ) :
    Considered kind shape config input e (e.considerEdge kind shape config input) := by
  let b := (e.base.clearFirstEvent.isSynchronizationPoint shape config input.rpm).1
  have decided : e.base.clearFirstEvent.isSynchronizationPoint shape config input.rpm =
      (b, e.base.closesCycle shape config input.rpm) := by
    simp only [b, isSynchronizationPoint_eq]
    rfl
  have shaft : b.shaftIsSynchronized =
      (e.base.shaftIsSynchronized && !e.base.dropsShaft shape config input.rpm) := by
    simp only [b, isSynchronizationPoint_eq]
    rfl
  have losses : b.shaftLosses = if e.base.dropsShaft shape config input.rpm then
      e.base.shaftLosses + 1 else e.base.shaftLosses := by
    simp only [b, isSynchronizationPoint_eq]
    rfl
  have others : b.crankSynchronizationCounter = e.base.crankSynchronizationCounter ∧
      b.currentCycle = e.base.currentCycle ∧ b.isFirstEvent = false ∧
      b.toothDurations = e.base.toothDurations ∧ b.syncPoints = e.base.syncPoints ∧
      b.counterRestarts = e.base.counterRestarts ∧
      b.previousEventTimer = e.base.previousEventTimer := by
    simp only [b, isSynchronizationPoint_eq]
    exact ⟨rfl, rfl, rfl, rfl, rfl, rfl, rfl⟩
  obtain ⟨counter, currentCycle, firstEvent, durations, syncPoints, restarts, eventTimer⟩ := others
  cases closes : e.base.closesCycle shape config input.rpm <;> rw [closes] at decided
  · cases synchronized : b.shaftIsSynchronized <;> rw [synchronized] at shaft <;> constructor <;>
      simp only [considerEdge, decided] <;>
      simp [synchronized, ← shaft, closes, losses, counter, currentCycle, firstEvent, durations,
        syncPoints, restarts, eventTimer, shiftDurations, nextTriggerEvent]
  · have kept : e.base.dropsShaft shape config input.rpm = false := by
      by_contra dropped
      rw [closesCycle_of_dropsShaft (by simpa using dropped)] at closes
      cases closes
    simp only [kept, Bool.not_false, Bool.and_true, Bool.false_eq_true, if_false] at shaft losses
    have counts : b.validateEventCounters shape = e.base.validateEventCounters shape := by
      simp only [validateEventCounters, currentCycle]
    have was : e.base.clearFirstEvent.shaftIsSynchronized = b.shaftIsSynchronized := shaft.symm
    have closing := @closeCycle_spec _ kind shape ⟨b, e.derived⟩ input.nowNt
    constructor <;>
      simp only [considerEdge, decided, was, if_true, shiftDurations, closing.shaft,
        closing.counter, closing.currentCycle, closing.firstEvent, closing.durations,
        closing.derived, closing.syncPoints, closing.losses, closing.restarts,
        closing.eventTimer] <;>
      simp [closes, kept, shaft, losses, counts, counter, firstEvent, durations, syncPoints, restarts,
        eventTimer]

end Considering

section Finishing

/-- More edges since the last synchronization point than the wave form has. -/
def tooManyTeeth (f : TriggerDecoder σ) (shape : TriggerWaveform) : Bool :=
  f.base.shaftIsSynchronized && decide (shape.getSize ≤ f.base.currentCycle.currentIndex)

theorem index_lt_getSize {f : TriggerDecoder σ} (synchronized : f.base.shaftIsSynchronized = true)
    (enough : f.tooManyTeeth shape = false) :
    f.base.currentCycle.currentIndex < shape.getSize := by
  simpa [tooManyTeeth, synchronized] using enough

structure Finished (kind : DecoderKind σ) (shape : TriggerWaveform) (f : TriggerDecoder σ)
    (result : TriggerDecoder σ × Option Nat) : Prop where
  shaft : result.1.base.shaftIsSynchronized =
    (f.base.shaftIsSynchronized && !f.tooManyTeeth shape)
  counter : result.1.base.crankSynchronizationCounter = f.base.crankSynchronizationCounter
  currentCycle : result.1.base.currentCycle = f.base.currentCycle
  firstEvent : result.1.base.isFirstEvent = f.base.isFirstEvent
  previousTime : result.1.base.toothedPreviousTime = f.base.toothedPreviousTime
  durations : result.1.base.toothDurations = f.base.toothDurations
  derived : result.1.derived =
    if f.tooManyTeeth shape then kind.onTriggerError f.derived else f.derived
  syncPoints : result.1.base.syncPoints = f.base.syncPoints
  losses : f.tooManyTeeth shape = false → result.1.base.shaftLosses = f.base.shaftLosses
  restarts : result.1.base.counterRestarts = f.base.counterRestarts
  eventTimer : result.1.base.previousEventTimer = f.base.previousEventTimer
  index : result.2 = if result.1.base.shaftIsSynchronized then
    some result.1.base.currentCycle.currentIndex else none

theorem finishEdge_spec (f : TriggerDecoder σ) :
    Finished kind shape f (f.finishEdge kind shape rpm) := by
  have invalid : (f.base.shaftIsSynchronized && !f.base.isValidIndex shape) =
      f.tooManyTeeth shape := by
    simp only [tooManyTeeth, isValidIndex, ← decide_not, Nat.not_lt]
  cases tooMany : f.tooManyTeeth shape
  · constructor <;> simp [finishEdge, invalid, tooMany]
  · by_cases spins : rpm ≠ 0 <;> constructor <;>
      simp [finishEdge, invalid, tooMany, spins, setShaftSynchronized, setTriggerErrorState]

/-- The decoder before the last check. -/
def counted (kind : DecoderKind σ) (shape : TriggerWaveform) (config : TriggerConfiguration)
    (input : EdgeInput) (d : TriggerDecoder σ) : TriggerDecoder σ :=
  let e := d.noted kind shape input
  if shape.shouldConsiderEdge input.signal.wheel input.signal.isRising then
    e.considerEdge kind shape config input
  else { e with base := e.base.nextTriggerEvent shape }

theorem decodeTriggerEvent_eq : d.decodeTriggerEvent kind shape config input =
    (d.counted kind shape config input).finishEdge kind shape input.rpm := rfl

/-- The timer is reset at every edge. -/
theorem decodeTriggerEvent_eventTimer :
    (d.decodeTriggerEvent kind shape config input).1.base.previousEventTimer = input.nowNt := by
  have counted : (d.counted kind shape config input).base.previousEventTimer = input.nowNt := by
    simp only [TriggerDecoder.counted]
    split
    · rw [(considerEdge_spec _).eventTimer, (noted_spec d).eventTimer]
    · exact (noted_spec d).eventTimer
  rw [decodeTriggerEvent_eq, (finishEdge_spec _).eventTimer, counted]

/-- What the overridden functions keep, every edge keeps. -/
theorem decodeTriggerEvent_derived {P : σ → Prop}
    (error : ∀ derived, P derived → P (kind.onTriggerError derived))
    (reset : ∀ derived, P derived → P (kind.onReset derived)) (before : P d.derived) :
    P (d.decodeTriggerEvent kind shape config input).1.derived := by
  have noted : P (d.noted kind shape input).derived := by
    rw [(noted_spec d).derived]
    split
    · exact reset _ before
    · exact before
  have counted : P (d.counted kind shape config input).derived := by
    simp only [TriggerDecoder.counted]
    split
    · rw [(considerEdge_spec _).derived]
      split
      · exact error _ noted
      · exact noted
    · exact noted
  rw [decodeTriggerEvent_eq, (finishEdge_spec _).derived]
  split
  · exact error _ counted
  · exact counted

end Finishing

end TriggerDecoder

end FomeFw.Trigger
