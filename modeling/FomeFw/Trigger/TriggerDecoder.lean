import FomeFw.Trigger.TriggerWaveform

/-! The trigger decoder, `trigger_decoder.cpp`: it counts the edges of the trigger
wheels and finds the edge at which the wave form starts over. What the virtual
functions and the listener add is a parameter, so that the cam decoders and the
crank decoder of the primary trigger are two instances of one model. -/
namespace FomeFw.Trigger

inductive TriggerEvent where
  | primaryFalling | primaryRising | secondaryFalling | secondaryRising
  deriving DecidableEq, Repr

namespace TriggerEvent

/-- `eventIndex`. -/
def wheel : TriggerEvent → TriggerWheel
  | primaryFalling | primaryRising => .primary
  | secondaryFalling | secondaryRising => .secondary

/-- `eventType`. -/
def isRising : TriggerEvent → Bool
  | primaryFalling | secondaryFalling => false
  | primaryRising | secondaryRising => true

end TriggerEvent

/-- `US_TO_NT_MULTIPLIER` of the STM32 port. -/
abbrev usToNt : Int := 4

/-- `NT_PER_SECOND`. -/
abbrev ntPerSecond : Int := 1000000 * usToNt

/-- `Timer::getElapsedSeconds`, from the last reset. -/
def getElapsedSeconds (lastReset nowNt : Int) : ℚ :=
  let deltaNt := nowNt - lastReset
  if deltaNt < 0 then 0
  else ((min deltaNt (2 ^ 32 - 2) / usToNt : Int) : ℚ) / 1000000

/-- `current_cycle_state_s`. -/
structure CurrentCycle where
  currentIndex : Nat := 0
  eventCount : TriggerWheel → Nat := fun _ => 0

structure TriggerDecoderBase where
  shaftIsSynchronized : Bool := false
  /-- The last reset of the timer, at first `INT64_MIN / 8`. -/
  previousEventTimer : Int := -2 ^ 60
  toothDurations : Nat → Int := fun _ => 0
  toothedPreviousTime : Int := 0
  currentCycle : CurrentCycle := {}
  triggerSyncGapRatio : Option ℚ := some 0
  crankSynchronizationCounter : Nat := 0
  triggerErrorCounter : Nat := 0
  orderingErrorCounter : Nat := 0
  triggerStateIndex : Nat := 0
  edgeCountRise : Nat := 0
  edgeCountFall : Nat := 0
  prevSignal : TriggerEvent := .primaryFalling
  startOfCycleNt : Int := 0
  totalEventCountBase : Nat := 0
  isFirstEvent : Bool := true
  /-- How often the shaft was set to be not synchronized; no function reads it. -/
  shaftLosses : Nat := 0
  /-- How often the revolution counter was set to zero; no function reads it. -/
  counterRestarts : Nat := 0
  /-- How often a cycle of the wave form was closed; no function reads it. -/
  syncPoints : Nat := 0

/-- What the decoder asks of its `TriggerConfiguration`: whether the type is `TT_MIATA_VVT`. -/
structure TriggerConfiguration where
  isMiataVvt : Bool := false

/-- An edge, its time and the value of the RPM sensor at that time. -/
structure EdgeInput where
  signal : TriggerEvent
  nowNt : Int
  rpm : ℚ := 0

/-- `a / b` in floating point; no number stands for the infinities and NaN. -/
def gapRatio (a b : ℚ) : Option ℚ := if b = 0 then none else some (a / b)

def isInRange (lower : Option ℚ) (value : Option ℚ) (upper : ℚ) : Bool :=
  match lower, value with
  | some lower, some value => decide (value ≥ lower) && decide (value ≤ upper)
  | _, _ => false

namespace TriggerWaveform

def shouldConsiderEdge (shape : TriggerWaveform) (triggerWheel : TriggerWheel) (isRising : Bool) :
    Bool :=
  if triggerWheel ≠ .primary && shape.useOnlyPrimaryForSync then false
  else match shape.syncEdge with
    | .both => true
    | .riseOnly | .rise => isRising
    | .fall => !isRising

/-- The conditions on the gaps between the last edges, the current one being number 0. -/
def gapTest (shape : TriggerWaveform) (config : TriggerConfiguration) (durations : Nat → ℚ) : Bool :=
  if config.isMiataVvt then
    let triggerSyncGapRatio := gapRatio (durations 0) (durations 1)
    let secondGap := gapRatio (durations 1) (durations 2)
    let currentGapOk := isInRange (shape.syncronizationRatioFrom 0) triggerSyncGapRatio
      (shape.syncronizationRatioTo 0)
    let secondGapOk := isInRange (shape.syncronizationRatioFrom 1) secondGap
      (shape.syncronizationRatioTo 1)
    match triggerSyncGapRatio, secondGap with
    | some current, some second => currentGapOk && secondGapOk && decide (current < second)
    | _, _ => false
  else (List.range shape.gapTrackingLength).all fun i =>
    match shape.syncronizationRatioFrom i with
    | none => true
    | some lower => decide (durations i > durations (i + 1) * lower) &&
        decide (durations i < durations (i + 1) * shape.syncronizationRatioTo i)

/-- `triggerTimeoutPeriod`, in seconds. -/
def triggerTimeoutPeriod (shape : TriggerWaveform) : ℚ :=
  if shape.getLength = 0 then 1 else max (1 / 10) (min (20 / shape.getLength) 1)

/-- How far one edge advances the index: over the falling edge too when it is not seen. -/
def indexStep (shape : TriggerWaveform) : Nat := if shape.useOnlyRisingEdges then 2 else 1

end TriggerWaveform

namespace TriggerDecoderBase

def setShaftSynchronized (b : TriggerDecoderBase) (value : Bool) : TriggerDecoderBase :=
  { b with
    shaftIsSynchronized := value
    shaftLosses := if value then b.shaftLosses else b.shaftLosses + 1 }

def resetCurrentCycleState (b : TriggerDecoderBase) : TriggerDecoderBase :=
  { b with currentCycle := {} }

def clearFirstEvent (b : TriggerDecoderBase) : TriggerDecoderBase :=
  { b with isFirstEvent := false }

/-- The constructor and the part of every `resetState`. -/
def resetState (b : TriggerDecoderBase) : TriggerDecoderBase :=
  let b := b.setShaftSynchronized false
  let b := { b with
    toothedPreviousTime := 0
    toothDurations := fun _ => 0
    crankSynchronizationCounter := 0
    counterRestarts := b.counterRestarts + 1
    triggerErrorCounter := 0
    orderingErrorCounter := 0
    prevSignal := .primaryFalling
    startOfCycleNt := 0 }
  { b.resetCurrentCycleState with
    totalEventCountBase := 0
    isFirstEvent := true }

/-- The macro `nextTriggerEvent`. -/
def nextTriggerEvent (b : TriggerDecoderBase) (shape : TriggerWaveform) : TriggerDecoderBase :=
  { b with currentCycle.currentIndex := b.currentCycle.currentIndex + shape.indexStep }

def isValidIndex (b : TriggerDecoderBase) (shape : TriggerWaveform) : Bool :=
  b.currentCycle.currentIndex < shape.getSize

def setTriggerErrorState (b : TriggerDecoderBase) : TriggerDecoderBase :=
  { b with triggerErrorCounter := (b.triggerErrorCounter + 1) % 2 ^ 16 }

def logEdgeCounters (b : TriggerDecoderBase) (isRising : Bool) : TriggerDecoderBase :=
  if isRising then { b with edgeCountRise := (b.edgeCountRise + 1) % 2 ^ 16 }
  else { b with edgeCountFall := (b.edgeCountFall + 1) % 2 ^ 16 }

/-- Whether the number of events on some wheel is not the expected one. -/
def validateEventCounters (b : TriggerDecoderBase) (shape : TriggerWaveform) : Bool :=
  b.currentCycle.eventCount .primary ≠ shape.getExpectedEventCount .primary ||
    b.currentCycle.eventCount .secondary ≠ shape.getExpectedEventCount .secondary

def onShaftSynchronization (b : TriggerDecoderBase) (wasSynchronized : Bool) (nowNt : Int)
    (shape : TriggerWaveform) : TriggerDecoderBase :=
  let b := { b with startOfCycleNt := nowNt, syncPoints := b.syncPoints + 1 }
  let b := b.resetCurrentCycleState
  let b := if wasSynchronized then
      { b with crankSynchronizationCounter := (b.crankSynchronizationCounter + 1) % 2 ^ 16 }
    else { b with
      crankSynchronizationCounter := 0
      counterRestarts := b.counterRestarts + 1 }
  { b with totalEventCountBase := b.totalEventCountBase + shape.getSize }

/-- The elapsed time after which the engine is taken to be standing still. -/
def timedOut (b : TriggerDecoderBase) (shape : TriggerWaveform) (nowNt : Int) : Bool :=
  getElapsedSeconds b.previousEventTimer nowNt > shape.triggerTimeoutPeriod

/-- From the ordering check to the duration of the current tooth. -/
def noteEdge (b : TriggerDecoderBase) (shape : TriggerWaveform) (input : EdgeInput) :
    TriggerDecoderBase :=
  let triggerWheel := input.signal.wheel
  let b := { b with
    orderingErrorCounter :=
      if !shape.useOnlyRisingEdges && b.prevSignal = input.signal then b.orderingErrorCounter + 1
      else b.orderingErrorCounter
    prevSignal := input.signal
    currentCycle.eventCount := Function.update b.currentCycle.eventCount triggerWheel
      (b.currentCycle.eventCount triggerWheel + 1) }
  let b := b.logEdgeCounters input.signal.isRising
  let currentDurationLong := if b.isFirstEvent then 0 else input.nowNt - b.toothedPreviousTime
  { b with toothDurations := Function.update b.toothDurations 0 (min currentDurationLong (10 * ntPerSecond)) }

/-- `isSyncPoint`; spinning slowly, the Miata NB only counts teeth, or gives up the
synchronization when the gaps are out of reason. -/
def isSyncPoint (b : TriggerDecoderBase) (shape : TriggerWaveform) (config : TriggerConfiguration)
    (rpm : ℚ) : TriggerDecoderBase × Bool :=
  let useToothCounting := b.shaftIsSynchronized && decide (rpm < 1000)
  if config.isMiataVvt && useToothCounting then
    if isInRange (some (2 / 5)) b.triggerSyncGapRatio 2 then
      (b, b.currentCycle.currentIndex ≠ 0)
    else (b.setShaftSynchronized false, false)
  else (b, shape.gapTest config fun i => b.toothDurations i)

/-- Whether this edge closes the cycle: found by the gaps, or by counting. -/
def isSynchronizationPoint (b : TriggerDecoderBase) (shape : TriggerWaveform)
    (config : TriggerConfiguration) (rpm : ℚ) : TriggerDecoderBase × Bool :=
  if shape.isSynchronizationNeeded then
    let b := { b with triggerSyncGapRatio := gapRatio (b.toothDurations 0) (b.toothDurations 1) }
    b.isSyncPoint shape config rpm
  else
    let endOfCycleIndex := (shape.getSize + 2 ^ 32 - shape.indexStep) % 2 ^ 32
    (b, !b.shaftIsSynchronized || decide (b.currentCycle.currentIndex ≥ endOfCycleIndex))

/-- The durations move up by one, and the next one counts from here. -/
def shiftDurations (b : TriggerDecoderBase) (shape : TriggerWaveform) (nowNt : Int) :
    TriggerDecoderBase :=
  { b with
    toothDurations := fun i =>
      if 1 ≤ i ∧ i ≤ shape.gapTrackingLength then b.toothDurations (i - 1) else b.toothDurations i
    toothedPreviousTime := nowNt }

end TriggerDecoderBase

/-- What a kind of decoder adds: the overridden `onTriggerError` and `resetState`, and
whether the engine listens and resets the decoder when the synchronization is lost. -/
structure DecoderKind (σ : Type) where
  onTriggerError : σ → σ
  onReset : σ → σ
  hasListener : Bool

structure TriggerDecoder (σ : Type) where
  base : TriggerDecoderBase
  derived : σ

namespace TriggerDecoder

variable {σ : Type}

def resetState (kind : DecoderKind σ) (d : TriggerDecoder σ) : TriggerDecoder σ where
  base := d.base.resetState
  derived := kind.onReset d.derived

/-- The check for a time gap since the previous edge, with `OnTriggerSynchronizationLost`. -/
def checkTimeout (kind : DecoderKind σ) (shape : TriggerWaveform) (nowNt : Int)
    (d : TriggerDecoder σ) : TriggerDecoder σ :=
  let lost := d.base.timedOut shape nowNt
  let d := { d with base.previousEventTimer := nowNt }
  if lost then
    let d := { d with base := d.base.setShaftSynchronized false }
    if kind.hasListener then d.resetState kind else d
  else d

/-- What happens at a synchronization point. -/
def closeCycle (kind : DecoderKind σ) (shape : TriggerWaveform) (wasSynchronized : Bool)
    (nowNt : Int) (d : TriggerDecoder σ) : TriggerDecoder σ :=
  let isDecodingError := d.base.validateEventCounters shape
  let d : TriggerDecoder σ :=
    if wasSynchronized && isDecodingError then
      { base := d.base.setTriggerErrorState.setShaftSynchronized false
        derived := kind.onTriggerError d.derived }
    else { d with base := d.base.setShaftSynchronized true }
  { d with base :=
    (d.base.nextTriggerEvent shape).onShaftSynchronization wasSynchronized nowNt shape }

/-- What happens at an edge that can be a synchronization point. -/
def considerEdge (kind : DecoderKind σ) (shape : TriggerWaveform) (config : TriggerConfiguration)
    (input : EdgeInput) (d : TriggerDecoder σ) : TriggerDecoder σ :=
  let d := { d with base := d.base.clearFirstEvent }
  let wasSynchronized := d.base.shaftIsSynchronized
  let (base, isSynchronizationPoint) := d.base.isSynchronizationPoint shape config input.rpm
  let d := { d with base }
  let d :=
    if isSynchronizationPoint then d.closeCycle kind shape wasSynchronized input.nowNt
    else if d.base.shaftIsSynchronized then { d with base := d.base.nextTriggerEvent shape }
    else d
  { d with base := d.base.shiftDurations shape input.nowNt }

/-- The check for too many edges since the last synchronization point, and the result. -/
def finishEdge (kind : DecoderKind σ) (shape : TriggerWaveform) (rpm : ℚ) (d : TriggerDecoder σ) :
    TriggerDecoder σ × Option Nat :=
  if d.base.shaftIsSynchronized && !d.base.isValidIndex shape then
    let d : TriggerDecoder σ :=
      if rpm ≠ 0 then { d with base := d.base.setTriggerErrorState } else d
    ({ base := d.base.setShaftSynchronized false, derived := kind.onTriggerError d.derived }, none)
  else
    let d := { d with base.triggerStateIndex := d.base.currentCycle.currentIndex % 2 ^ 8 }
    (d, if d.base.shaftIsSynchronized then some d.base.currentCycle.currentIndex else none)

/-- `decodeTriggerEvent`; the result is the `CurrentIndex`. -/
def decodeTriggerEvent (kind : DecoderKind σ) (shape : TriggerWaveform)
    (config : TriggerConfiguration) (input : EdgeInput) (d : TriggerDecoder σ) :
    TriggerDecoder σ × Option Nat :=
  let d := d.checkTimeout kind shape input.nowNt
  let d := { d with base := d.base.noteEdge shape input }
  let d :=
    if shape.shouldConsiderEdge input.signal.wheel input.signal.isRising then
      d.considerEdge kind shape config input
    else { d with base := d.base.nextTriggerEvent shape }
  d.finishEdge kind shape input.rpm

end TriggerDecoder

end FomeFw.Trigger
