import FomeFw.Trigger.TriggerDecoder

/-! The trigger simulator, `trigger_simulator.cpp`: when a wave form is configured, a
decoder of its own is fed with it, to find the edge at which the shape synchronizes
and to see that it does so in every one of the following turns. -/
namespace FomeFw.Trigger

/-- `SIMULATION_CYCLE_PERIOD`. -/
abbrev simulationCyclePeriod : Int := 720000

/-- `TEST_REVOLUTIONS`. -/
abbrev testRevolutions : Nat := 6

/-- `riseEvents` and `fallEvents`. -/
def TriggerEvent.ofEdge (isRising : Bool) : TriggerWheel → TriggerEvent
  | .primary => if isRising then .primaryRising else .primaryFalling
  | .secondary => if isRising then .secondaryRising else .secondaryFalling

def getPreviousIndex (currentIndex size : Nat) : Nat := (currentIndex + size - 1) % size

namespace TriggerWaveform

def channelIndex (shape : TriggerWaveform) (index : Nat) : TriggerWheel :=
  (shape.events[index]?.map ShapeEvent.channelIndex).getD .primary

/-- The level of a channel after an event: as `addEvent` copies it from event to event. -/
def getChannelState (shape : TriggerWaveform) (channelIndex : TriggerWheel) : Nat → Bool
  | 0 => if shape.channelIndex 0 = channelIndex then shape.isRiseEvent 0 else false
  | index + 1 =>
    if shape.channelIndex (index + 1) = channelIndex then shape.isRiseEvent (index + 1)
    else shape.getChannelState channelIndex index

def needEvent (shape : TriggerWaveform) (currentIndex : Nat) (channelIndex : TriggerWheel) : Bool :=
  shape.getChannelState channelIndex (getPreviousIndex currentIndex shape.getSize) ≠
    shape.getChannelState channelIndex currentIndex

def isUsefulSignal (shape : TriggerWaveform) (signal : TriggerEvent) : Bool :=
  if shape.useOnlyRisingEdges then signal.isRising else true

def getSimulatedEventTime (shape : TriggerWaveform) (i : Nat) : Int :=
  let stateIndex := i % shape.getSize
  let loopIndex := i / shape.getSize
  ⌊(simulationCyclePeriod : ℚ) * (loopIndex + shape.getSwitchTime stateIndex)⌋

end TriggerWaveform

/-- A decoder without overridden functions, and without a listener. -/
def TriggerDecoderBase.kind : DecoderKind Unit where
  onTriggerError := id
  onReset := id
  hasListener := false

namespace TriggerStimulatorHelper

/-- One channel of `feedSimulatedEvent`. -/
def feedChannel (shape : TriggerWaveform) (triggerConfiguration : TriggerConfiguration) (rpm : ℚ)
    (i : Nat) (state : TriggerDecoder Unit) (j : TriggerWheel) : TriggerDecoder Unit :=
  let stateIndex := i % shape.getSize
  if shape.needEvent stateIndex j then
    let event := TriggerEvent.ofEdge (shape.getChannelState j stateIndex) j
    if shape.isUsefulSignal event then
      (state.decodeTriggerEvent TriggerDecoderBase.kind shape triggerConfiguration
        ⟨event, shape.getSimulatedEventTime i, rpm⟩).1
    else state
  else state

def feedSimulatedEvent (shape : TriggerWaveform) (triggerConfiguration : TriggerConfiguration)
    (rpm : ℚ) (state : TriggerDecoder Unit) (i : Nat) : TriggerDecoder Unit :=
  if shape.getSize = 0 then state
  else [TriggerWheel.primary, .secondary].foldl (feedChannel shape triggerConfiguration rpm i) state

/-- The loop of `findTriggerSyncPoint`, with the rounds it has left. -/
def findTriggerSyncPoint (shape : TriggerWaveform) (triggerConfiguration : TriggerConfiguration)
    (rpm : ℚ) : Nat → Nat → TriggerDecoder Unit → Option (Nat × TriggerDecoder Unit)
  | 0, _, _ => none
  | rounds + 1, i, state =>
    let state := feedSimulatedEvent shape triggerConfiguration rpm state i
    if state.base.shaftIsSynchronized then some (i, state)
    else findTriggerSyncPoint shape triggerConfiguration rpm rounds (i + 1) state

/-- Whether the shape has an error: not one synchronization point in every turn. -/
def assertSyncPosition (shape : TriggerWaveform) (triggerConfiguration : TriggerConfiguration)
    (rpm : ℚ) (syncIndex : Nat) (state : TriggerDecoder Unit) : Bool :=
  let state := (List.range' (syncIndex + 1) (testRevolutions * shape.getSize)).foldl
    (feedSimulatedEvent shape triggerConfiguration rpm) state
  state.base.crankSynchronizationCounter ≠ testRevolutions

end TriggerStimulatorHelper

/-- What initialization leaves in the shape. -/
structure SynchPoint where
  triggerShapeSynchPointIndex : Option Nat
  shapeDefinitionError : Bool
  deriving DecidableEq

open TriggerStimulatorHelper in
def TriggerDecoderBase.findTriggerZeroEventIndex (shape : TriggerWaveform)
    (triggerConfiguration : TriggerConfiguration) (rpm : ℚ) (state : TriggerDecoder Unit) :
    SynchPoint :=
  let state := state.resetState TriggerDecoderBase.kind
  match findTriggerSyncPoint shape triggerConfiguration rpm (4 * phaseMaxCount) 0 state with
  | none => ⟨none, true⟩
  | some (syncIndex, state) =>
    if state.base.crankSynchronizationCounter = 0 then
      ⟨some (syncIndex % shape.getSize),
        assertSyncPosition shape triggerConfiguration rpm syncIndex state⟩
    else ⟨none, false⟩

/-- Initialization with the decoder `initState`, whatever it was used for before. -/
def TriggerWaveform.calculateTriggerSynchPoint (shape : TriggerWaveform)
    (triggerConfiguration : TriggerConfiguration) (rpm : ℚ) (initState : TriggerDecoder Unit) :
    SynchPoint :=
  let found := TriggerDecoderBase.findTriggerZeroEventIndex shape triggerConfiguration rpm initState
  if shape.getSize ≥ phaseMaxCount then { found with shapeDefinitionError := true } else found

/-- The crank wheel of the Miata NB is found to start over at its last edge. -/
example : miataNb2Crank.calculateTriggerSynchPoint { isMiataVvt := true } 0 ⟨{}, ()⟩ =
    ⟨some 3, false⟩ := by decide +kernel

end FomeFw.Trigger
