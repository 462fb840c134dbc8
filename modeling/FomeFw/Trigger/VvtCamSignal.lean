import FomeFw.Trigger.PhaseAgreement

/-! The cams, `hwHandleVvtCamSignal` of `trigger_central.cpp`: a cam event gives the position of its
cam, and the one cam that synchronizes tells in which of its turns the crank is. -/
namespace FomeFw.Trigger

inductive VvtMode where
  | inactive | singleTooth | toyota3Tooth | miataNb | miataNa | boschQuickStart | toyota41
  | fordSt170 | barra3Plus1 | nissanVq | hondaKIntake | nissanMr | mitsubishi3A92 | mapVTwin
  | mitsubishi6G75 | mazdaSkyactiv | hondaKExhaust | mitsubishi4G9x | mitsubishi4G63 | mazdaL
  deriving DecidableEq

/-- `VvtTriggerConfiguration::needsTriggerDecoder`. -/
def VvtMode.needsTriggerDecoder (mode : VvtMode) : Bool :=
  mode ≠ .inactive && mode ≠ .toyota3Tooth && mode ≠ .hondaKIntake && mode ≠ .mapVTwin &&
    mode ≠ .singleTooth

/-- The first loop of `wrapVvt`, with the number of rounds it may make. -/
def raiseVvt (period : Angle) : Nat → Angle → Angle
  | 0, vvtPosition => vvtPosition
  | rounds + 1, vvtPosition =>
    if vvtPosition < -period / 2 then raiseVvt period rounds (vvtPosition + period) else vvtPosition

/-- The second loop of `wrapVvt`. -/
def lowerVvt (period : Angle) : Nat → Angle → Angle
  | 0, vvtPosition => vvtPosition
  | rounds + 1, vvtPosition =>
    if vvtPosition ≥ period / 2 then lowerVvt period rounds (vvtPosition - period) else vvtPosition

/-- The periods are even numbers. -/
def wrapVvt (vvtPosition period : Angle) : Angle :=
  let rounds := ⌊|vvtPosition| / period⌋₊ + 1
  lowerVvt period rounds (raiseVvt period rounds vvtPosition)

def wrapVvtForCamType (vvtPosition : Angle) : VvtMode → Angle
  | .hondaKIntake | .toyota3Tooth => wrapVvt vvtPosition 180
  | _ => wrapVvt vvtPosition 720

/-- `VvtTriggerDecoder` overrides nothing that counts, and has no listener. -/
def VvtTriggerDecoder.kind : DecoderKind Unit := ⟨id, id, false⟩

/-- What the events of the crank and of the cams depend on in the configuration. -/
structure TriggerSettings where
  triggerShape : TriggerWaveform
  primaryTriggerConfiguration : TriggerConfiguration := {}
  operationMode : OperationMode
  placement : TdcPlacement
  directSelfStimulation : Bool := false
  hwTriggerInputEnabled : Bool := true
  fakeFullSyncForStimulation : Bool := false
  invertCamVVTSignal : Bool := false
  vvtMode : Fin 2 → VvtMode
  vvtShape : Fin 2 → TriggerWaveform
  vvtOffsets : Fin 4 → Angle
  engineSyncCam : Nat
  minCamPhaseResolveRpm : ℚ := 0
  maxCamPhaseResolveRpm : ℚ := 0

/-- A position and the last reset of its timer. -/
structure VvtPos where
  angle : Angle := 0
  t : Int := -2 ^ 60
  deriving DecidableEq

structure TriggerCentral where
  settings : TriggerSettings
  triggerState : PrimaryTriggerDecoder := .new
  vvtState : Fin 2 → Fin 2 → TriggerDecoder Unit := fun _ _ => ⟨({} : TriggerDecoderBase).resetState, ()⟩
  vvtPosition : Fin 2 → Fin 2 → VvtPos := fun _ _ => {}
  /-- The last reset of the timer, at first `INT64_MIN / 8`. -/
  mLastToothTimer : Int := -2 ^ 60
  mLastToothPhaseFromSyncPoint : Angle := 0

/-- An edge of a cam, with the RPM and the time of one degree then; the latter is NaN when the
engine stands. -/
structure CamSignal where
  isRising : Bool
  nowNt : Int
  index : Fin 4
  rpm : ℚ
  oneDegreeUs : Option { us : ℚ // 0 < us }

namespace CamSignal

/-- `CAMS_PER_BANK` is 2. -/
def bankIndex (s : CamSignal) : Fin 2 := ⟨s.index / 2, by omega⟩

def camIndex (s : CamSignal) : Fin 2 := ⟨s.index % 2, by omega⟩

end CamSignal

namespace TriggerCentral

def engineCycle (tc : TriggerCentral) : Angle := getEngineCycle tc.settings.operationMode

/-- `TriggerCentral::toEngPhase`. -/
def toEngPhase (tc : TriggerCentral) (trgPhase : Angle) : Angle :=
  Trigger.toEngPhase tc.settings.placement tc.engineCycle tc.triggerState.derived.mPhaseAdjustment
    trgPhase

def hasSynchronizedPhase (tc : TriggerCentral) : Bool :=
  if tc.settings.directSelfStimulation && tc.settings.fakeFullSyncForStimulation then true
  else tc.triggerState.derived.mHasSynchronizedPhase

def getCurrentEnginePhase (tc : TriggerCentral) (s : CamSignal) : Option Angle :=
  s.oneDegreeUs.map fun oneDegreeUs =>
    let elapsed := getElapsedSeconds tc.mLastToothTimer s.nowNt * 1000000
    tc.mLastToothPhaseFromSyncPoint + elapsed / oneDegreeUs.1

def syncAndReport (tc : TriggerCentral) (divider remainder : Nat) : TriggerCentral × Angle :=
  let (triggerState, crankOffset) :=
    tc.triggerState.syncEnginePhase divider remainder tc.engineCycle
  ({ tc with triggerState }, crankOffset)

def adjustCrankPhase (tc : TriggerCentral) (s : CamSignal) : TriggerCentral × Angle :=
  let minSyncThreshold := tc.settings.minCamPhaseResolveRpm
  let isBelowMinSync := decide (minSyncThreshold ≠ 0) && decide (s.rpm < minSyncThreshold)
  let maxSyncThreshold := tc.settings.maxCamPhaseResolveRpm
  let isAboveMaxSync := decide (maxSyncThreshold ≠ 0) && decide (s.rpm > maxSyncThreshold)
  if isBelowMinSync || isAboveMaxSync then (tc, 0)
  else
    let crankDivider := getCrankDivider tc.settings.operationMode
    if crankDivider = 1 then (tc, 0)
    else match tc.settings.vvtMode s.camIndex with
      | .mapVTwin | .mitsubishi4G63 | .mitsubishi4G9x => tc.syncAndReport crankDivider 1
      | .singleTooth | .nissanVq | .boschQuickStart | .miataNb | .miataNa | .toyota3Tooth
      | .toyota41 | .fordSt170 | .barra3Plus1 | .nissanMr | .mazdaSkyactiv | .mazdaL
      | .mitsubishi3A92 | .mitsubishi6G75 | .hondaKExhaust => tc.syncAndReport crankDivider 0
      | .hondaKIntake | .inactive => (tc, 0)

/-- The edge of a cam is decoded, or only counted. -/
def decodeVvt (tc : TriggerCentral) (s : CamSignal) (isRising : Bool) : TriggerDecoder Unit :=
  let vvtDecoder := tc.vvtState s.bankIndex s.camIndex
  if (tc.settings.vvtMode s.camIndex).needsTriggerDecoder then
    (vvtDecoder.decodeTriggerEvent VvtTriggerDecoder.kind (tc.settings.vvtShape s.camIndex) {}
      ⟨if isRising then .primaryRising else .primaryFalling, s.nowNt, s.rpm⟩).1
  else { vvtDecoder with base := vvtDecoder.base.logEdgeCounters isRising }

/-- Of the teeth of the Toyota only one with a sensible angle counts. -/
def acceptTooth (vvtPosition : Angle) : VvtMode → Option Angle
  | .toyota3Tooth =>
    let vvtPosition := wrapVvt vvtPosition 360
    let inRange := decide (vvtPosition > -37) && decide (vvtPosition < 80)
    if !inRange then none else some vvtPosition
  | _ => some vvtPosition

/-- `hwHandleVvtCamSignal` up to the position, with the trigger phase it was taken at. -/
def readCam (tc : TriggerCentral) (s : CamSignal) : TriggerCentral × Option (Angle × Angle) :=
  if tc.settings.directSelfStimulation || !tc.settings.hwTriggerInputEnabled then (tc, none)
  else
    let isRising := s.isRising ^^ tc.settings.invertCamVVTSignal
    let isVvtWithRealDecoder := (tc.settings.vvtMode s.camIndex).needsTriggerDecoder
    let vvtUseOnlyRise :=
      !isVvtWithRealDecoder || (tc.settings.vvtShape s.camIndex).useOnlyRisingEdges
    if vvtUseOnlyRise && !isRising then (tc, none)
    else if !tc.triggerState.base.shaftIsSynchronized then (tc, none)
    else
      let vvtDecoder := tc.decodeVvt s isRising
      let tc := { tc with
        vvtState := Function.update tc.vvtState s.bankIndex
          (Function.update (tc.vvtState s.bankIndex) s.camIndex vvtDecoder) }
      match tc.getCurrentEnginePhase s with
      | none => (tc, none)
      | some currentTrgPhase =>
        let currentEnginePhase := tc.toEngPhase currentTrgPhase
        if isVvtWithRealDecoder &&
            (!vvtDecoder.base.shaftIsSynchronized || vvtDecoder.base.currentCycle.currentIndex ≠ 0) then
          (tc, none)
        else
          let vvtPosition := tc.settings.vvtOffsets s.index - currentEnginePhase
          (tc, (acceptTooth vvtPosition (tc.settings.vvtMode s.camIndex)).map (currentTrgPhase, ·))

/-- The crank is put in phase by the cam that is chosen for it; on the way to full synchronization
the position follows. -/
def syncCrank (tc : TriggerCentral) (s : CamSignal) (vvtPosition : Angle) : TriggerCentral × Angle :=
  if (s.index : Nat) = tc.settings.engineSyncCam then
    let hadFullSyncBefore := tc.hasSynchronizedPhase
    let (tc, crankOffset) := tc.adjustCrankPhase s
    let hadFullSyncAfter := tc.hasSynchronizedPhase
    (tc, if !hadFullSyncBefore && hadFullSyncAfter then vvtPosition - crankOffset else vvtPosition)
  else (tc, vvtPosition)

def setVvtPosition (tc : TriggerCentral) (s : CamSignal) (vvtPos : VvtPos) : TriggerCentral :=
  { tc with
    vvtPosition := Function.update tc.vvtPosition s.bankIndex
      (Function.update (tc.vvtPosition s.bankIndex) s.camIndex vvtPos) }

/-- The rest of `hwHandleVvtCamSignal`. -/
def recordCam (tc : TriggerCentral) (s : CamSignal) (vvtPosition : Angle) : TriggerCentral :=
  let (tc, vvtPosition) := tc.syncCrank s vvtPosition
  let vvtPosition := wrapVvtForCamType vvtPosition (tc.settings.vvtMode s.camIndex)
  if tc.hasSynchronizedPhase then tc.setVvtPosition s ⟨vvtPosition, s.nowNt⟩
  else tc.setVvtPosition s { tc.vvtPosition s.bankIndex s.camIndex with t := -2 ^ 60 }

def hwHandleVvtCamSignal (tc : TriggerCentral) (s : CamSignal) : TriggerCentral :=
  match tc.readCam s with
  | (tc, none) => tc
  | (tc, some (_, vvtPosition)) => tc.recordCam s vvtPosition

end TriggerCentral

/-- What happens to the trigger: an edge of the crank, with the angle that the table has for the
event, an edge of a cam, and what the rest of the firmware does to the primary decoder and to the
configuration. -/
inductive CentralStep where
  | shaft (input : EdgeInput) (eventAngle : Angle)
  | cam (signal : CamSignal)
  | resetState
  | setNeedsDisambiguation (needsDisambiguation expectDisambiguation : Bool)
  | configure (settings : TriggerSettings)

def TriggerCentral.step (tc : TriggerCentral) : CentralStep → TriggerCentral
  | .shaft input eventAngle =>
    let (triggerState, decodeResult) := tc.triggerState.decodeTriggerEvent PrimaryTriggerDecoder.kind
      tc.settings.triggerShape tc.settings.primaryTriggerConfiguration input
    let tc := { tc with triggerState }
    match decodeResult with
    | none => tc
    | some _ =>
      { tc with
        mLastToothTimer := input.nowNt
        mLastToothPhaseFromSyncPoint := eventAngle }
  | .cam signal => tc.hwHandleVvtCamSignal signal
  | .resetState =>
    { tc with triggerState := tc.triggerState.resetState PrimaryTriggerDecoder.kind }
  | .setNeedsDisambiguation needs expect =>
    { tc with triggerState.derived := tc.triggerState.derived.setNeedsDisambiguation needs expect }
  | .configure settings => { tc with settings }

end FomeFw.Trigger
