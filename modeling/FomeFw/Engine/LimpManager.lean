import FomeFw.Timer.EventQueue
import FomeFw.Trigger.TriggerDecoder
import FomeFw.Trigger.VvtCamSignal
import Mathlib.Data.Rat.Floor

/-! `limp_manager.cpp`: whether fuel and sparks are allowed, and if not, why. -/
namespace FomeFw.Engine
open Timer Trigger

inductive ClearReason where
  | none | fatal | settings | hardLimit | faultRevLimit | boostCut | oilPressure | stopRequested
  | etbProblem | launchCut | injectorDutyCycle | floodClear | enginePhase | kickStart | ignitionOff
  | lua | acr | lambdaProtection
  deriving DecidableEq, Repr

structure Clearable where
  value : Bool := true
  clearReason : ClearReason := .none
  deriving DecidableEq

namespace Clearable

def ofBool (value : Bool) : Clearable := if value then {} else ⟨false, .settings⟩

def clear (c : Clearable) (clearReason : ClearReason) : Clearable :=
  if c.value then ⟨false, clearReason⟩ else c

/-- `clear`, under a condition. -/
def clearIf (c : Clearable) (condition : Bool) (clearReason : ClearReason) : Clearable :=
  if condition then c.clear clearReason else c

end Clearable

structure LimpState where
  value : Bool
  reason : ClearReason
  deriving DecidableEq

structure Hysteresis where
  state : Bool := false
  deriving DecidableEq

def Hysteresis.test (h : Hysteresis) (risingCondition fallingCondition : Bool) : Hysteresis :=
  if risingCondition then ⟨true⟩ else if fallingCondition then ⟨false⟩ else h

abbrev clock32max : Tick := 2 ^ 32 - 2

/-- `Timer::hasElapsedSec`, from the last reset. -/
def hasElapsedSec (lastReset nowNt : Tick) (seconds : ℚ) : Bool :=
  let delta := nowNt - lastReset
  if delta ≥ clock32max then true
  else
    let delta32 : Tick := delta % 2 ^ 32
    (delta32 : ℚ) > seconds * 1000 * 1000 * usToNt

/-- Where a new `Timer` is: `INT64_MIN / 8`. -/
abbrev timerInit : Tick := -2 ^ 60

/-- What the user set. The two curves are what `interpolate2d` makes of them. -/
structure LimpSettings where
  isInjectionEnabled : Bool := true
  isIgnitionEnabled : Bool := true
  useCltBasedRpmLimit : Bool := false
  cltRevLimitRpm : ℚ → ℚ := fun _ => 7000
  rpmHardLimit : Nat := 7000
  rpmHardLimitHyst : ℚ := 50
  cutFuelOnHardLimit : Bool := true
  cutSparkOnHardLimit : Bool := true
  boostCutPressure : ℚ := 0
  minOilPressureAfterStart : Nat := 0
  enableOilPressureProtect : Bool := false
  oilPressureProtectionStartDelay : ℚ := 0
  useOilPressureSwitch : Bool := false
  minimumOilPressure : ℚ → ℚ := fun _ => 0
  minimumOilPressureTimeout : ℚ := 0
  maxInjectorDutyInstant : ℚ := 96
  maxInjectorDutySustained : ℚ := 85
  maxInjectorDutySustainedTimeout : ℚ := 0
  isCylinderCleanupEnabled : Bool := false
  vvtMode : VvtMode := .inactive
  isPhaseSyncRequiredForIgnition : Bool := false

/-- What `updateState` reads. The clock moves on while it runs. -/
structure LimpReadings where
  settings : LimpSettings := {}
  rpm : ℚ := 0
  nowNt : Tick
  /-- `getTimeNowNt`, when the timer of the oil pressure is asked. -/
  oilPressureNt : Tick := nowNt
  injectorDutyNt : Tick := nowNt
  directSelfStimulation : Bool := false
  luaIgnCut : Bool := false
  isAcrActive : Bool := false
  clt : ℚ := 0
  isLambdaCut : Bool := false
  map : ℚ := 0
  operationMode : OperationMode := .fourStrokeCrankSensor
  hasSynchronizedPhase : Bool := true
  isRunning : Bool := false
  engineRunTime : ℚ := 0
  hasOilpSensor : Bool := false
  oilp : Option ℚ := none
  oilSwitchState : Bool := false
  injDutyCycle : ℚ := 0
  driverThrottleIntent : ℚ := 0
  isLaunchFuelRpmRetardCondition : Bool := false
  isLaunchSparkRpmRetardCondition : Bool := false

structure LimpManager where
  engineStopTimer : Tick := timerInit
  revLimitHysteresis : Hysteresis := {}
  boostCutHysteresis : Hysteresis := {}
  injectorDutyCutHysteresis : Hysteresis := {}
  hardRevLimit : ℚ := 0
  faultRevLimit : Int := 2 ^ 31 - 1
  allowEtb : Clearable := {}
  allowInjectionFlag : Clearable := {}
  allowIgnitionFlag : Clearable := {}
  allowTriggerInputFlag : Clearable := {}
  transientAllowInjection : Clearable := .ofBool true
  transientAllowIgnition : Clearable := .ofBool true
  hadOilPressureAfterStart : Bool := false
  ignitionOn : Bool := false
  lastCutTime : Tick := timerInit
  injectorDutySustainedTimer : Tick := timerInit
  lowOilPressureTimer : Tick := timerInit
  /-- The output channels. -/
  fuelCutReason : ClearReason := .none
  sparkCutReason : ClearReason := .none
  /-- The duty cycles that were warned of. -/
  dutyWarnings : List ℚ := []

/-- `noFiringUntilVvtSync`. -/
def noFiringUntilVvtSync (r : LimpReadings) : Bool :=
  if r.settings.vvtMode = .mapVTwin then true
  else if r.settings.isPhaseSyncRequiredForIgnition then true
  else
    r.operationMode = .fourStrokeSymmetricalCrankSensor ∨
      r.operationMode = .fourStrokeThreeTimesCrankSensor ∨
      r.operationMode = .fourStrokeTwelveTimesCrankSensor

namespace LimpManager

def allowInjection (m : LimpManager) : LimpState :=
  if !m.allowInjectionFlag.value then ⟨false, m.allowInjectionFlag.clearReason⟩
  else if !m.transientAllowInjection.value then ⟨false, m.transientAllowInjection.clearReason⟩
  else ⟨true, .none⟩

def allowIgnition (m : LimpManager) : LimpState :=
  if !m.allowIgnitionFlag.value then ⟨false, m.allowIgnitionFlag.clearReason⟩
  else if !m.transientAllowIgnition.value then ⟨false, m.transientAllowIgnition.clearReason⟩
  else ⟨true, .none⟩

def allowElectronicThrottle (m : LimpManager) : Bool := m.allowEtb.value

def allowTriggerInput (m : LimpManager) : Bool := m.allowTriggerInputFlag.value

def getTimeSinceAnyCut (m : LimpManager) (nowNt : Tick) : ℚ := getElapsedSeconds m.lastCutTime nowNt

/-- `shutdownController.stopEngine`. -/
def stopEngine (m : LimpManager) (nowNt : Tick) : LimpManager := { m with engineStopTimer := nowNt }

/-- `shutdownController.isEngineStop`. -/
def isEngineStop (m : LimpManager) (nowNt : Tick) : Bool :=
  getElapsedSeconds m.engineStopTimer nowNt < 5

def onIgnitionStateChanged (m : LimpManager) (ignitionOn : Bool) : LimpManager :=
  { m with ignitionOn }

def setFaultRevLimit (m : LimpManager) (limit : Int) : LimpManager :=
  { m with faultRevLimit := min m.faultRevLimit limit }

def reportEtbProblem (m : LimpManager) : LimpManager :=
  { m with allowEtb := m.allowEtb.clear .etbProblem }.setFaultRevLimit 1500

def fatalError (m : LimpManager) : LimpManager :=
  { m with
    allowEtb := m.allowEtb.clear .fatal
    allowIgnitionFlag := m.allowIgnitionFlag.clear .fatal
    allowInjectionFlag := m.allowInjectionFlag.clear .fatal
    allowTriggerInputFlag := m.allowTriggerInputFlag.clear .fatal }.setFaultRevLimit 0

def isHardRevLimit (m : LimpManager) (r : LimpReadings) : LimpManager :=
  let resumeRpm := m.hardRevLimit - r.settings.rpmHardLimitHyst
  { m with
    revLimitHysteresis := m.revLimitHysteresis.test (r.rpm > m.hardRevLimit) (r.rpm < resumeRpm) }

/-- A limit as the number the speed is compared with: the largest `int` is no `float`. -/
def limitRpm (limit : Int) : ℚ := if limit = 2 ^ 31 - 1 then 2 ^ 31 else limit

def updateCutsHardRevLimit (m : LimpManager) (r : LimpReadings) (allowFuel allowSpark : Clearable) :
    LimpManager × Clearable × Clearable :=
  let m :=
    { m with
      hardRevLimit :=
        if r.settings.useCltBasedRpmLimit then r.settings.cltRevLimitRpm r.clt
        else r.settings.rpmHardLimit }
  let m := m.isHardRevLimit r
  let limited := m.revLimitHysteresis.state
  let allowFuel := allowFuel.clearIf (limited && r.settings.cutFuelOnHardLimit) .hardLimit
  let allowSpark := allowSpark.clearIf (limited && r.settings.cutSparkOnHardLimit) .hardLimit
  (m, allowFuel.clearIf (r.rpm > limitRpm m.faultRevLimit) .faultRevLimit, allowSpark)

def updateCutsBoostCut (m : LimpManager) (r : LimpReadings) (allowFuel : Clearable) :
    LimpManager × Clearable :=
  let mapCut := r.settings.boostCutPressure
  if mapCut ≠ 0 then
    let m :=
      { m with boostCutHysteresis := m.boostCutHysteresis.test (r.map > mapCut) (r.map < mapCut - 20) }
    (m, allowFuel.clearIf m.boostCutHysteresis.state .boostCut)
  else (m, allowFuel)

/-- The check for pressure after the start. -/
def checkPressureAfterStart (m : LimpManager) (r : LimpReadings) (allowFuel : Clearable) :
    LimpManager × Clearable :=
  let minOilPressure := r.settings.minOilPressureAfterStart
  if minOilPressure > 0 && r.hasOilpSensor then
    let isTimedOut := r.engineRunTime > 5
    let m :=
      match r.oilp with
      | some value =>
        if !isTimedOut && value > minOilPressure then { m with hadOilPressureAfterStart := true } else m
      | none => m
    (m, allowFuel.clearIf (isTimedOut && !m.hadOilPressureAfterStart) .oilPressure)
  else (m, allowFuel)

def isPressureSufficient (r : LimpReadings) : Bool :=
  if r.engineRunTime < r.settings.oilPressureProtectionStartDelay then true
  else if r.settings.useOilPressureSwitch then r.oilSwitchState
  else
    match r.oilp with
    | some value => value > r.settings.minimumOilPressure r.rpm
    | none => true

/-- The protection while the engine runs. -/
def protectOilPressure (m : LimpManager) (r : LimpReadings) (allowFuel : Clearable) :
    LimpManager × Clearable :=
  if r.settings.enableOilPressureProtect then
    let m := if isPressureSufficient r then { m with lowOilPressureTimer := r.nowNt } else m
    let low := hasElapsedSec m.lowOilPressureTimer r.oilPressureNt r.settings.minimumOilPressureTimeout
    (m, allowFuel.clearIf low .oilPressure)
  else (m, allowFuel)

def updateCutsOilPressure (m : LimpManager) (r : LimpReadings) (allowFuel : Clearable) :
    LimpManager × Clearable :=
  if r.isRunning then
    let (m, allowFuel) := m.checkPressureAfterStart r allowFuel
    m.protectOilPressure r allowFuel
  else ({ m with hadOilPressureAfterStart := false, lowOilPressureTimer := r.nowNt }, allowFuel)

def updateCutsInjectorDuty (m : LimpManager) (r : LimpReadings) (allowFuel : Clearable) :
    LimpManager × Clearable :=
  let isOverInstantDutyCycle := r.injDutyCycle > r.settings.maxInjectorDutyInstant
  let isOverSustainedDutyCycle := r.injDutyCycle > r.settings.maxInjectorDutySustained
  let isUnderLowDuty := r.injDutyCycle < 20
  let m := if !isOverSustainedDutyCycle then { m with injectorDutySustainedTimer := r.nowNt } else m
  let sustainedLimitTimedOut := hasElapsedSec m.injectorDutySustainedTimer r.injectorDutyNt
    r.settings.maxInjectorDutySustainedTimeout
  let someLimitTripped := isOverInstantDutyCycle || sustainedLimitTimedOut
  let m :=
    { m with
      injectorDutyCutHysteresis := m.injectorDutyCutHysteresis.test someLimitTripped isUnderLowDuty }
  if m.injectorDutyCutHysteresis.state then
    ({ m with dutyWarnings := m.dutyWarnings ++ [r.injDutyCycle] }, allowFuel.clear .injectorDutyCycle)
  else (m, allowFuel)

/-- `CLEANUP_MODE_TPS`. -/
abbrev cleanupModeTps : ℚ := 90

def isFloodClear (r : LimpReadings) : Bool :=
  !r.isRunning && r.settings.isCylinderCleanupEnabled && r.driverThrottleIntent > cleanupModeTps

/-- The end of `updateState`. -/
def storeCuts (m : LimpManager) (nowNt : Tick) (allowFuel allowSpark : Clearable) : LimpManager :=
  let m := { m with transientAllowInjection := allowFuel, transientAllowIgnition := allowSpark }
  let m := if !allowFuel.value || !allowSpark.value then { m with lastCutTime := nowNt } else m
  { m with fuelCutReason := m.allowInjection.reason, sparkCutReason := m.allowIgnition.reason }

def updateState (m : LimpManager) (r : LimpReadings) : LimpManager :=
  let allowFuel := Clearable.ofBool r.settings.isInjectionEnabled
  let allowSpark := Clearable.ofBool r.settings.isIgnitionEnabled
  let isOff := !m.ignitionOn && !r.directSelfStimulation
  let allowFuel := allowFuel.clearIf isOff .ignitionOff
  let allowSpark := allowSpark.clearIf isOff .ignitionOff
  let allowSpark := allowSpark.clearIf r.luaIgnCut .lua
  let allowFuel := allowFuel.clearIf r.isAcrActive .acr
  let (m, allowFuel, allowSpark) := m.updateCutsHardRevLimit r allowFuel allowSpark
  let allowFuel := allowFuel.clearIf r.isLambdaCut .lambdaProtection
  let (m, allowFuel) := m.updateCutsBoostCut r allowFuel
  let noPhase := noFiringUntilVvtSync r && !r.hasSynchronizedPhase
  let allowFuel := allowFuel.clearIf noPhase .enginePhase
  let allowSpark := allowSpark.clearIf noPhase .enginePhase
  let (m, allowFuel) := m.updateCutsOilPressure r allowFuel
  let allowFuel := allowFuel.clearIf (m.isEngineStop r.nowNt) .stopRequested
  let (m, allowFuel) := m.updateCutsInjectorDuty r allowFuel
  let allowFuel := allowFuel.clearIf (isFloodClear r) .floodClear
  let allowFuel := allowFuel.clearIf r.isLaunchFuelRpmRetardCondition .launchCut
  let allowSpark := allowSpark.clearIf r.isLaunchSparkRpmRetardCondition .launchCut
  m.storeCuts r.nowNt allowFuel allowSpark

end LimpManager

inductive LimpEvent where
  | updateState (r : LimpReadings)
  | onIgnitionStateChanged (ignitionOn : Bool)
  | reportEtbProblem
  | fatalError
  | stopEngine (nowNt : Tick)

def LimpManager.step (m : LimpManager) : LimpEvent → LimpManager
  | .updateState r => m.updateState r
  | .onIgnitionStateChanged ignitionOn => m.onIgnitionStateChanged ignitionOn
  | .reportEtbProblem => m.reportEtbProblem
  | .fatalError => m.fatalError
  | .stopEngine nowNt => m.stopEngine nowNt

end FomeFw.Engine
