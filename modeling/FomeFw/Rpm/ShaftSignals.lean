import FomeFw.Lib.Machine
import FomeFw.Rpm.InstantRpmCalculator
import FomeFw.Rpm.RpmCalculator
import FomeFw.Trigger.DecodedIndex
import FomeFw.Trigger.EvenWheel
import FomeFw.Trigger.NextTooth
import FomeFw.Trigger.PrimaryTriggerDecoder
import Mathlib.Data.Rat.Floor

/-! The trigger interrupt up to the speed of the engine: `TriggerCentral::handleShaftSignal`
with the engine as the listener of the decoder, and the callback of `rpm_calculator.cpp`.
Edges that are ignored or skipped do not come this far. No result stands for an access
outside an array. -/
namespace FomeFw.Rpm
open Machine Trigger

/-- What goes with the decoder of the primary trigger. -/
structure EngineSpeed where
  fullSync : FullSync := {}
  rpmCalculator : RpmCalculator := {}
  instantRpm : InstantRpmCalculator := {}

/-- What is read elsewhere while an edge is handled. -/
structure ShaftEnvironment where
  isFasterEngineSpinUpEnabled : Bool
  alwaysInstantRpm : Bool
  crankingRpm : Int
  isEngineStop : Bool
  engineMovedRecently : Bool
  tdcPosition : Angle
  globalTriggerAngleOffset : Angle
  settings : InstantRpmSettings

namespace EngineSpeed

/-- `PrimaryTriggerDecoder::onTriggerError`. -/
def onTriggerError (e : EngineSpeed) : EngineSpeed where
  fullSync := e.fullSync.resetHasFullSync
  rpmCalculator := { e.rpmCalculator with lastTdcTimer := -2 ^ 60 }
  instantRpm := e.instantRpm.resetInstantRpm

/-- `Engine::OnTriggerSynchronizationLost`, but for the decoders of the cams. -/
def onTriggerSynchronizationLost (e : EngineSpeed) : EngineSpeed where
  fullSync := e.fullSync.resetHasFullSync
  rpmCalculator := e.rpmCalculator.setStopSpinning
  instantRpm := e.instantRpm.resetInstantRpm

def kind : DecoderKind EngineSpeed where
  onTriggerError := onTriggerError
  onReset := onTriggerSynchronizationLost
  hasListener := true

/-- `RpmCalculator::setSpinningUp`, from `OnTriggerStateProperState`. -/
def setSpinningUp (e : EngineSpeed) (triggerShape : TriggerWaveform)
    (isFasterEngineSpinUpEnabled shaftSynchronized : Bool) (nowNt : Int) : Option EngineSpeed :=
  if !isFasterEngineSpinUpEnabled then some e
  else
    let starts := e.rpmCalculator.isStopped && !e.rpmCalculator.isSpinning
    let e : EngineSpeed := { e with
      rpmCalculator := e.rpmCalculator.setSpinningUp isFasterEngineSpinUpEnabled
      instantRpm := if starts then { e.instantRpm with spinningEventIndex := 0 } else e.instantRpm }
    if e.rpmCalculator.isSpinningUp && !shaftSynchronized then do
      let instantRpm ← e.instantRpm.setLastEventTimeForInstantRpm triggerShape nowNt
      some { e with instantRpm }
    else some e

/-- The collected times at an event of the cycle: once the speed is first known they move. -/
def placeTimestamps (e : EngineSpeed) (triggerShape : TriggerWaveform) (env : ShaftEnvironment)
    (trgEventIndex : Nat) (timestamp : Int) : Option InstantRpmCalculator :=
  let hadRpmRecently :=
    e.rpmCalculator.checkIfSpinning env.isEngineStop env.engineMovedRecently timestamp
  if trgEventIndex = 0 ∧ hadRpmRecently = false then
    e.instantRpm.movePreSynchTimestamps triggerShape
  else some e.instantRpm

def rpmShaftPositionCallback (e : EngineSpeed) (triggerShape : TriggerWaveform)
    (eventAngles : EventAngles) (env : ShaftEnvironment) (trgEventIndex : Nat)
    (phaseInfo : EnginePhases) : Option EngineSpeed := do
  let instantRpm ← e.placeTimestamps triggerShape env trgEventIndex phaseInfo.timestamp
  let instantRpm ←
    instantRpm.updateInstantRpm triggerShape eventAngles env.settings trgEventIndex phaseInfo
  some { e with
    instantRpm
    rpmCalculator := e.rpmCalculator.rpmShaftPositionCallback
      { env with
        trgEventIndex
        timestamp := phaseInfo.timestamp
        operationMode := triggerShape.operationMode
        instantRpm := instantRpm.instantRpm
        nonneg := instantRpm.instantRpm.property } }

end EngineSpeed

/-- The loop of `handleShaftSignal` on the array; after all rounds it is known to have no end. -/
def loadNextPhase (eventAngles : EventAngles) (engineCycle : Angle) (engineCycleEventCount : Nat)
    (currentTrgPhase : Angle) : Nat → Nat → Option (Option Angle)
  | 0, _ => some none
  | rounds + 1, nextToothIndex => do
    let nextToothIndex := (nextToothIndex + 1) % engineCycleEventCount
    let angle ← eventAngles.load nextToothIndex
    let nextPhase := wrapAngle engineCycle angle
    if nextPhase = currentTrgPhase then
      loadNextPhase eventAngles engineCycle engineCycleEventCount currentTrgPhase rounds
        nextToothIndex
    else some (some nextPhase)

/-- The primary trigger: its decoder with the speed of the engine. -/
abbrev TriggerCentral := TriggerDecoder EngineSpeed

inductive ShaftStep where
  | shaftSignal (input : EdgeInput) (env : ShaftEnvironment)
  | camSync (divider remainder : Nat)
  | onSlowCallback (engineMovedRecently alwaysInstantRpm : Bool)
  | setStopSpinning

namespace TriggerCentral

def new : TriggerCentral where
  base := ({} : TriggerDecoderBase).resetState
  derived := { fullSync := ({} : FullSync).resetHasFullSync }

/-- Whether `decodeTriggerEvent` comes to its end, where the listener is told. -/
def properState (t : TriggerCentral) (shape : TriggerWaveform) (config : TriggerConfiguration)
    (input : EdgeInput) : Bool :=
  !(t.counted EngineSpeed.kind shape config input).tooManyTeeth shape

/-- `decodeTriggerEvent` with the listener. -/
def decode (t : TriggerCentral) (shape : TriggerWaveform) (config : TriggerConfiguration)
    (input : EdgeInput) (env : ShaftEnvironment) : Option (TriggerCentral × Option Nat) :=
  let (d, decodeResult) := t.decodeTriggerEvent EngineSpeed.kind shape config input
  if t.properState shape config input then do
    let derived ← d.derived.setSpinningUp shape env.isFasterEngineSpinUpEnabled
      d.base.shaftIsSynchronized input.nowNt
    some ({ d with derived }, decodeResult)
  else some (d, decodeResult)

/-- From the decoded tooth to the speed; a search without end lets nothing follow. -/
def handleTooth (t : TriggerCentral) (shape : TriggerWaveform) (eventAngles : EventAngles)
    (timestamp : Int) (env : ShaftEnvironment) (currentIndex : Nat) : Option TriggerCentral := do
  let toothIndex := triggerIndexForListeners shape t.base.crankSynchronizationCounter currentIndex
  let engineCycle := getEngineCycle shape.operationMode
  let currentTrgPhase ← eventAngles.load toothIndex
  match ← loadNextPhase eventAngles engineCycle shape.getLength currentTrgPhase shape.getLength
      toothIndex with
  | none => some t
  | some nextTrgPhase =>
    let placement : PhasePlacement :=
      { env with mPhaseAdjustment := t.derived.fullSync.mPhaseAdjustment }
    let phaseInfo := placement.phases { timestamp, currentTrgPhase, nextTrgPhase, engineCycle }
    let derived ← t.derived.rpmShaftPositionCallback shape eventAngles env toothIndex phaseInfo
    some { t with derived }

def handleShaftSignal (t : TriggerCentral) (shape : TriggerWaveform) (config : TriggerConfiguration)
    (eventAngles : EventAngles) (input : EdgeInput) (env : ShaftEnvironment) :
    Option TriggerCentral := do
  match ← t.decode shape config input env with
  | (t, none) => some t
  | (t, some currentIndex) => t.handleTooth shape eventAngles input.nowNt env currentIndex

/-- A cam event, in the decoder's own part. -/
def camSync (t : TriggerCentral) (shape : TriggerWaveform) (divider remainder : Nat) :
    TriggerCentral :=
  let d : PrimaryTriggerDecoder := ⟨t.base, t.derived.fullSync⟩
  let d := d.camSync divider remainder (getEngineCycle shape.operationMode)
  { base := d.base, derived := { t.derived with fullSync := d.derived } }

def step (shape : TriggerWaveform) (config : TriggerConfiguration) (eventAngles : EventAngles)
    (t : TriggerCentral) : ShaftStep → Option TriggerCentral
  | .shaftSignal input env => t.handleShaftSignal shape config eventAngles input env
  | .camSync divider remainder => some (t.camSync shape divider remainder)
  | .onSlowCallback engineMovedRecently alwaysInstantRpm =>
    some { t with derived.rpmCalculator :=
      t.derived.rpmCalculator.onSlowCallback engineMovedRecently alwaysInstantRpm }
  | .setStopSpinning =>
    some { t with derived.rpmCalculator := t.derived.rpmCalculator.setStopSpinning }

end TriggerCentral

section Bounds
open InstantRpmCalculator EngineSpeed

variable {shape : TriggerWaveform} {config : TriggerConfiguration} {eventAngles : EventAngles}
  {e : EngineSpeed} {t : TriggerCentral}

theorem setSpinningUp_spinning (spinning : Spinning shape e.instantRpm)
    (faster synchronized : Bool) (nowNt : Int) :
    ∃ e', e.setSpinningUp shape faster synchronized nowNt = some e' ∧
      Spinning shape e'.instantRpm := by
  unfold EngineSpeed.setSpinningUp
  split
  · exact ⟨e, rfl, spinning⟩
  · have started : Spinning shape
        (if (e.rpmCalculator.isStopped && !e.rpmCalculator.isSpinning) = true
          then { e.instantRpm with spinningEventIndex := 0 } else e.instantRpm) := by
      split
      · exact ⟨Nat.zero_le _, Nat.dvd_zero _⟩
      · exact spinning
    dsimp only
    split
    · obtain ⟨instantRpm, stored, spins⟩ := started.setLastEventTime nowNt
      rw [stored]
      exact ⟨_, rfl, spins⟩
    · exact ⟨_, rfl, started⟩

theorem rpmShaftPositionCallback_spinning (fits : Fits shape eventAngles)
    (spinning : Spinning shape e.instantRpm) (env : ShaftEnvironment) (trgEventIndex : Nat)
    (phaseInfo : EnginePhases) :
    ∃ e', e.rpmShaftPositionCallback shape eventAngles env trgEventIndex phaseInfo = some e' ∧
      Spinning shape e'.instantRpm := by
  obtain ⟨moved, move, same⟩ : ∃ moved,
      e.placeTimestamps shape env trgEventIndex phaseInfo.timestamp = some moved ∧
        moved.spinningEventIndex = e.instantRpm.spinningEventIndex := by
    unfold placeTimestamps
    dsimp only
    split
    · exact spinning.movePreSynchTimestamps fits.room
    · exact ⟨_, rfl, rfl⟩
  obtain ⟨updated, update, same'⟩ :=
    fits.updateInstantRpm env.settings trgEventIndex phaseInfo moved
  simp only [rpmShaftPositionCallback, move, update, Option.bind_eq_bind, Option.bind_some]
  refine ⟨_, rfl, ?_⟩
  have index := same'.trans same
  exact ⟨index ▸ spinning.bound, index ▸ spinning.whole⟩

theorem loadNextPhase_inBounds (fits : Fits shape eventAngles) (engineCycle current : Angle)
    (rounds i : Nat) :
    ∃ next, loadNextPhase eventAngles engineCycle shape.getLength current rounds i = some next := by
  induction rounds generalizing i with
  | zero => exact ⟨none, rfl⟩
  | succ rounds ih =>
    have inside := Nat.mod_lt (i + 1) fits.some
    obtain ⟨angle, loaded⟩ := load_place eventAngles (inside.trans_le fits.room)
    simp only [loadNextPhase, loaded, Option.bind_eq_bind, Option.bind_some]
    split
    · exact ih _
    · exact ⟨_, rfl⟩

namespace TriggerCentral

theorem decode_spinning (spinning : Spinning shape t.derived.instantRpm)
    (config : TriggerConfiguration) (input : EdgeInput) (env : ShaftEnvironment) :
    ∃ t' result, t.decode shape config input env = some (t', result) ∧
      Spinning shape t'.derived.instantRpm ∧ ∀ i, result = some i → i < shape.getSize := by
  have inside : ∀ i, (t.decodeTriggerEvent EngineSpeed.kind shape config input).2 = some i →
      i < shape.getSize := fun i decoded => TriggerDecoder.decoded_lt decoded
  have decoded : Spinning shape
      (t.decodeTriggerEvent EngineSpeed.kind shape config input).1.derived.instantRpm :=
    TriggerDecoder.decodeTriggerEvent_derived
      (P := fun e : EngineSpeed => Spinning shape e.instantRpm)
      (fun e _ => resetInstantRpm_spinning e.instantRpm)
      (fun e _ => resetInstantRpm_spinning e.instantRpm) spinning
  unfold decode
  dsimp only
  split
  · obtain ⟨derived, told, spins⟩ := setSpinningUp_spinning decoded
      env.isFasterEngineSpinUpEnabled
      (t.decodeTriggerEvent EngineSpeed.kind shape config input).1.base.shaftIsSynchronized
      input.nowNt
    rw [told]
    exact ⟨_, _, rfl, spins, inside⟩
  · exact ⟨_, _, rfl, decoded, inside⟩

theorem handleTooth_spinning (fits : Fits shape eventAngles)
    (spinning : Spinning shape t.derived.instantRpm) (timestamp : Int) (env : ShaftEnvironment)
    (inside : currentIndex < shape.getSize) :
    ∃ t', t.handleTooth shape eventAngles timestamp env currentIndex = some t' ∧
      Spinning shape t'.derived.instantRpm := by
  have place := triggerIndexForListeners_inside t.base.crankSynchronizationCounter inside
  obtain ⟨currentTrgPhase, loaded⟩ := load_place eventAngles (place.trans_le fits.room)
  obtain ⟨next, found⟩ := loadNextPhase_inBounds fits (getEngineCycle shape.operationMode)
    currentTrgPhase shape.getLength
    (triggerIndexForListeners shape t.base.crankSynchronizationCounter currentIndex)
  simp only [handleTooth, loaded, found, Option.bind_eq_bind, Option.bind_some]
  cases next with
  | none => exact ⟨t, rfl, spinning⟩
  | some nextTrgPhase =>
    dsimp only
    generalize PhasePlacement.phases _ _ = phaseInfo
    obtain ⟨derived, called, spins⟩ := rpmShaftPositionCallback_spinning fits spinning env
      (triggerIndexForListeners shape t.base.crankSynchronizationCounter currentIndex) phaseInfo
    rw [called]
    exact ⟨_, rfl, spins⟩

/-- One step accesses the arrays inside, and leaves the collected times inside. -/
theorem step_spinning (fits : Fits shape eventAngles) (t : TriggerCentral) (what : ShaftStep)
    (spinning : Spinning shape t.derived.instantRpm) :
    ∃ t', step shape config eventAngles t what = some t' ∧
      Spinning shape t'.derived.instantRpm := by
  cases what with
  | shaftSignal input env =>
    obtain ⟨t₁, result, decoded, spins, inside⟩ := decode_spinning spinning config input env
    simp only [step, handleShaftSignal, decoded, Option.bind_eq_bind, Option.bind_some]
    cases result with
    | none => exact ⟨t₁, rfl, spins⟩
    | some currentIndex => exact handleTooth_spinning fits spins input.nowNt env (inside _ rfl)
  | camSync divider remainder => exact ⟨_, rfl, spinning⟩
  | onSlowCallback engineMovedRecently alwaysInstantRpm => exact ⟨_, rfl, spinning⟩
  | setStopSpinning => exact ⟨_, rfl, spinning⟩

theorem new_spinning (shape : TriggerWaveform) : Spinning shape new.derived.instantRpm :=
  ⟨Nat.zero_le _, Nat.dvd_zero _⟩

/-- For a wave form that initialization accepts, with no more events in an engine cycle than
there are times to keep: the table is prepared inside its array, and in every run of edges,
cam events and slow callbacks every access stays inside. -/
theorem run_inBounds (shape : TriggerWaveform) (config : TriggerConfiguration) (rpm : ℚ)
    (initState : TriggerDecoder Unit) (synch : Nat)
    (accepted : shape.calculateTriggerSynchPoint config rpm initState = ⟨some synch, false⟩)
    (room : shape.getLength ≤ phaseMaxCount) (steps : List ShaftStep) :
    ∃ eventAngles, shape.storeEventAngles synch = some eventAngles ∧
      ∃ final, run (step shape config eventAngles) new steps = some final := by
  obtain ⟨inside, -⟩ := TriggerWaveform.synchPoint_shown
    (congrArg SynchPoint.triggerShapeSynchPointIndex accepted)
  obtain ⟨eventAngles, stored, holds⟩ := TriggerWaveform.storeEventAngles_holds inside
    (TriggerWaveform.lastPlace_lt inside room)
  have places : 0 < shape.getLength := by
    rw [shape.getLength_eq]
    exact Nat.mul_pos (TriggerWaveform.getCrankDivider_pos _) (Nat.zero_lt_of_lt inside)
  have fits : Fits shape eventAngles := by
    obtain ⟨⟨m, bound, filled, -⟩, -⟩ := TriggerWaveform.prepareEventAngles_filled inside
    exact ⟨(holds 0 (by decide)).trans (congrArg some filled.origin), places, room⟩
  obtain ⟨final, ran, -⟩ := run_of_keeps (step_spinning fits) (new_spinning shape)
  exact ⟨eventAngles, stored, final, ran⟩

/-- A resting engine of four cylinders, its speed measured over ten degrees. -/
def restingEngine : ShaftEnvironment where
  isFasterEngineSpinUpEnabled := false
  alwaysInstantRpm := false
  crankingRpm := 550
  isEngineStop := false
  engineMovedRecently := true
  tdcPosition := 0
  globalTriggerAngleOffset := 0
  settings := {
    instantRpmRange := 10
    cylindersCount := 4
    cylContributionWindow := 0
    cylContributionPhase := 0
    angleOffset := fun i => 180 * i }

/-- Two teeth of a cam wheel. -/
theorem run_inBounds_halfMoon :
    ∃ eventAngles, halfMoon.storeEventAngles 0 = some eventAngles ∧
      ∃ final, run (step halfMoon {} eventAngles) new
        [.shaftSignal { signal := .primaryRising, nowNt := 4000000 } restingEngine,
          .onSlowCallback true false, .camSync 1 0,
          .shaftSignal { signal := .primaryRising, nowNt := 4800000 } restingEngine] = some final :=
  run_inBounds halfMoon {} 0 ⟨{}, ()⟩ 0 (by decide +kernel) (by decide +kernel) _

section Outside
variable {teeth : Nat} (wheel : IsEvenWheel shape .fourStrokeCrankSensor teeth) (many : 71 ≤ teeth)
  (fits : teeth < 140)
include wheel

theorem evenWheel_getLength : shape.getLength = 4 * teeth := by
  rw [shape.getLength_eq, wheel.operationMode, wheel.size]
  show 2 * (2 * teeth) = 4 * teeth
  omega

include many fits

/-- Ten degrees before the first tooth comes a tooth that has no place for its time. -/
theorem calculateInstantRpm_outside (holds : eventAngles.Holds (shape.prepareEventAngles 0))
    (c : InstantRpmCalculator) (nowNt32 : BitVec 32) :
    c.calculateInstantRpm shape eventAngles 0 nowNt32 10 = none := by
  have length := evenWheel_getLength wheel
  have places : shape.getLength ≤ 2 * phaseMaxCount := by
    show shape.getLength ≤ 560
    omega
  have here := holds 0 (by decide)
  have origin : shape.prepareEventAngles 0 0 = 0 := by
    rw [wheel.prepareEventAngles (by omega)]
    exact mul_zero _
  have reached : shape.prepareEventAngles 0 280 ≤ 710 := by
    have total : (71 : ℚ) ≤ teeth := by exact_mod_cast many
    rw [wheel.prepareEventAngles (by omega), TriggerWaveform.getCycleDuration, wheel.operationMode,
      div_mul_eq_mul_div, div_le_iff₀ (by linarith)]
    norm_num
    linarith
  have back : wrapAngle (getEngineCycle shape.operationMode)
      (shape.prepareEventAngles 0 0 - 10) = 710 := by
    rw [origin, wheel.operationMode]
    decide +kernel
  obtain ⟨prevIndex, found, beyond, -⟩ := TriggerWaveform.findAngleIndex_reaches holds
    (fun i j => wheel.prepareEventAngles_mono) places (show 280 < shape.getLength by omega) rfl
    (by rw [origin]; norm_num) reached
  simp only [InstantRpmCalculator.calculateInstantRpm, here, back, found, Option.bind_eq_bind,
    Option.bind_some, FixedArray.load_outside beyond, Option.bind_none, Option.bind_fun_none]

/-- The first tooth leads to an access outside. -/
theorem rpmShaftPositionCallback_outside (holds : eventAngles.Holds (shape.prepareEventAngles 0))
    {env : ShaftEnvironment} (range : env.settings.instantRpmRange = 10) (e : EngineSpeed)
    (phaseInfo : EnginePhases) :
    e.rpmShaftPositionCallback shape eventAngles env 0 phaseInfo = none := by
  have outside : ∀ c : InstantRpmCalculator,
      c.updateInstantRpm shape eventAngles env.settings 0 phaseInfo = none := by
    intro c
    obtain ⟨times, stored⟩ := FixedArray.store_of_lt (a := c.timeOfLastEvent)
      (show 0 < phaseMaxCount by decide) (.ofInt 32 phaseInfo.timestamp)
    rw [InstantRpmCalculator.updateInstantRpm, if_pos (by decide)]
    simp only [stored, Option.bind_eq_bind, Option.bind_some, range, Nat.cast_ofNat,
      calculateInstantRpm_outside wheel many fits holds, Option.bind_none]
  cases placed : e.placeTimestamps shape env 0 phaseInfo.timestamp with
  | none => simp [rpmShaftPositionCallback, placed]
  | some instantRpm => simp [rpmShaftPositionCallback, placed, outside]

/-- The second tooth has another phase than the first. -/
theorem loadNextPhase_second (holds : eventAngles.Holds (shape.prepareEventAngles 0))
    {rounds : Nat} (enough : 2 ≤ rounds) :
    ∃ nextPhase, loadNextPhase eventAngles (getEngineCycle shape.operationMode) shape.getLength
      (shape.prepareEventAngles 0 0) rounds 0 = some (some nextPhase) := by
  have length := evenWheel_getLength wheel
  have inside : 0 < shape.getSize := by
    rw [wheel.size]
    omega
  have first : shape.prepareEventAngles 0 1 = shape.prepareEventAngles 0 0 := by
    rw [wheel.prepareEventAngles (by omega), wheel.prepareEventAngles (by omega)]
  have second : shape.prepareEventAngles 0 2 ≠ shape.prepareEventAngles 0 0 := by
    have duration := shape.getCycleDuration_pos
    rw [wheel.prepareEventAngles (by omega), wheel.prepareEventAngles (by omega)]
    simpa using ⟨duration.ne', wheel.some.ne'⟩
  have one : (0 + 1) % shape.getLength = 1 := Nat.mod_eq_of_lt (by omega)
  have two : (1 + 1) % shape.getLength = 2 := Nat.mod_eq_of_lt (by omega)
  obtain ⟨more, rfl⟩ := Nat.exists_eq_add_of_le' enough
  rw [show more + 2 = more + 1 + 1 from rfl, loadNextPhase, one, holds 1 (by decide)]
  simp only [Option.bind_eq_bind, Option.bind_some,
    TriggerWaveform.prepareEventAngles_wrapped inside, if_pos first]
  rw [loadNextPhase, two, holds 2 (by decide)]
  simp only [Option.bind_eq_bind, Option.bind_some,
    TriggerWaveform.prepareEventAngles_wrapped inside, if_neg second]
  exact ⟨_, rfl⟩

theorem handleTooth_outside (holds : eventAngles.Holds (shape.prepareEventAngles 0))
    {env : ShaftEnvironment} (range : env.settings.instantRpmRange = 10)
    (counter : t.base.crankSynchronizationCounter = 0) (timestamp : Int) :
    t.handleTooth shape eventAngles timestamp env 0 = none := by
  have length := evenWheel_getLength wheel
  have place : triggerIndexForListeners shape t.base.crankSynchronizationCounter 0 = 0 := by
    simp [triggerIndexForListeners, counter]
  obtain ⟨nextPhase, next⟩ := loadNextPhase_second wheel many fits holds
    (show 2 ≤ shape.getLength by omega)
  have here := holds 0 (by decide)
  simp only [handleTooth, place, here, next, Option.bind_eq_bind, Option.bind_some,
    rpmShaftPositionCallback_outside wheel many fits holds range, Option.bind_none]

/-- In an engine cycle with more events than there are times, the first rise leads outside. -/
theorem step_outside (config : TriggerConfiguration) (input : EdgeInput)
    (rising : input.signal = .primaryRising) {env : ShaftEnvironment}
    (range : env.settings.instantRpmRange = 10) (plain : env.isFasterEngineSpinUpEnabled = false) :
    ∃ eventAngles, shape.storeEventAngles 0 = some eventAngles ∧
      step shape config eventAngles new (.shaftSignal input env) = none := by
  have length := evenWheel_getLength wheel
  have inside : 0 < shape.getSize := by
    rw [wheel.size]
    omega
  have places : shape.lastPlace 0 < 2 * phaseMaxCount := by
    have few : Turning.marks shape.Useful (0 + 1) (0 + shape.getLength) ≤ 2 * teeth := by
      have grows := TriggerWaveform.marks_mono (p := shape.Useful) (i := 1)
        (j := 0 + shape.getLength) (k := 2 * (2 * teeth) + 1) (by omega) (by omega)
      rwa [wheel.marks] at grows
    rw [TriggerWaveform.lastPlace, if_pos wheel.riseOnly]
    show _ < 560
    omega
  obtain ⟨eventAngles, stored, holds⟩ := TriggerWaveform.storeEventAngles_holds inside places
  obtain ⟨tooth, decoded⟩ :=
    @IsEvenWheel.first _ _ _ _ EngineSpeed.kind config input new wheel rising rfl
  have told : new.decode shape config input env =
      some (new.decodeTriggerEvent EngineSpeed.kind shape config input) := by
    simp [decode, plain, EngineSpeed.setSpinningUp]
  refine ⟨eventAngles, stored, ?_⟩
  have counter := tooth.counter
  rw [Nat.zero_div, Nat.zero_mod] at counter
  generalize new.decodeTriggerEvent EngineSpeed.kind shape config input = result
    at decoded told counter
  obtain ⟨t, currentIndex⟩ := result
  obtain rfl : currentIndex = some 0 := decoded
  simp only [step, handleShaftSignal, told, Option.bind_eq_bind, Option.bind_some,
    handleTooth_outside wheel many fits holds range counter]

end Outside

/-- A custom crank wheel with 71 teeth is accepted, and its first tooth leads outside. -/
theorem run_outside_seventyOne :
    ∃ shape synch eventAngles, initializeToothedWheel ⟨71, 0, false, false⟩ = some shape ∧
      shape.calculateTriggerSynchPoint {} 0 ⟨{}, ()⟩ = ⟨some synch, false⟩ ∧
      shape.storeEventAngles synch = some eventAngles ∧
      run (step shape {} eventAngles) new
        [.shaftSignal { signal := .primaryRising, nowNt := 4000000 } restingEngine] = none := by
  obtain ⟨shape, made, wheel⟩ :=
    @initializeToothedWheel_isEvenWheel 71 (by decide) (by decide) false false
  obtain ⟨eventAngles, stored, outside⟩ := @step_outside _ _ wheel (by decide) (by decide) {}
    { signal := .primaryRising, nowNt := 4000000 } rfl restingEngine rfl rfl
  refine ⟨shape, 0, eventAngles, made, wheel.accepted (by decide) (by decide) _ _ _, stored, ?_⟩
  rw [run_cons, outside, Option.bind_none]

end TriggerCentral

end Bounds

end FomeFw.Rpm
