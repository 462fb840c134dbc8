import FomeFw.Engine.LimpManager
import FomeFw.Lib.History

/-! What the permissions of the limp manager come to: a list of causes, each a formula about all that
was reported to it so far. The first one that applies is the reason. -/
namespace FomeFw.Engine
open Timer Trigger History LimpManager

/-! ## The causes -/

/-- A formula about an update, what it reads and what was before. -/
def OnUpdate (p : LimpReadings → List LimpEvent → Prop) : Formula LimpEvent
  | .updateState r :: past => p r past
  | _ => False

abbrev AtUpdate (p : LimpReadings → Prop) : Formula LimpEvent := OnUpdate fun r _ => p r

/-- The formula held at the last update. -/
def AtLast (φ : Formula LimpEvent) : Formula LimpEvent
  | [] => False
  | .updateState r :: past => φ (.updateState r :: past)
  | _ :: past => AtLast φ past

/-- When the last thing happened, if its time was taken. -/
def timeOf : List LimpEvent → Tick
  | .updateState r :: _ => r.nowNt
  | .stopEngine nowNt :: _ => nowNt
  | _ => 0

def Turned (on : Bool) : Formula LimpEvent
  | .onIgnitionStateChanged ignitionOn :: _ => ignitionOn = on
  | _ => False

def Fatal : Formula LimpEvent
  | .fatalError :: _ => True
  | _ => False

def EtbProblem : Formula LimpEvent
  | .reportEtbProblem :: _ => True
  | _ => False

def Stops : Formula LimpEvent
  | .stopEngine _ :: _ => True
  | _ => False

def IgnitionOff (h : List LimpEvent) : Prop :=
  AtUpdate (fun r => r.directSelfStimulation = false) h ∧
    ¬ Since (fun h => ¬ Turned false h) (Turned true) h

def LimpReadings.hardLimit (r : LimpReadings) : ℚ :=
  if r.settings.useCltBasedRpmLimit then r.settings.cltRevLimitRpm r.clt else r.settings.rpmHardLimit

/-- The speed was above the limit, and has not been below it by the hysteresis since. -/
def HardLimited : Formula LimpEvent :=
  Since (fun h => ¬ AtUpdate (fun r => r.rpm < r.hardLimit - r.settings.rpmHardLimitHyst) h)
    (AtUpdate fun r => r.rpm > r.hardLimit)

/-- The speed is above what the problems so far allow. -/
def FaultLimited : Formula LimpEvent := OnUpdate fun r past =>
  Once Fatal past ∧ r.rpm > 0 ∨ Once EtbProblem past ∧ r.rpm > 1500 ∨ r.rpm > 2 ^ 31

def Overboosted : Formula LimpEvent := fun h =>
  AtUpdate (fun r => r.settings.boostCutPressure ≠ 0) h ∧
    Since
      (fun h => ¬ AtUpdate (fun r => r.settings.boostCutPressure ≠ 0 ∧
        r.map < r.settings.boostCutPressure - 20) h)
      (AtUpdate fun r => r.settings.boostCutPressure ≠ 0 ∧ r.map > r.settings.boostCutPressure) h

def NoPhase (r : LimpReadings) : Prop :=
  noFiringUntilVvtSync r = true ∧ r.hasSynchronizedPhase = false

/-- The pressure is looked at after the start. -/
def LimpReadings.looksAfterStart (r : LimpReadings) : Prop :=
  r.isRunning = true ∧ 0 < r.settings.minOilPressureAfterStart ∧ r.hasOilpSensor = true

def LimpReadings.showsPressure (r : LimpReadings) : Prop :=
  r.looksAfterStart ∧ r.engineRunTime ≤ 5 ∧ ∃ value ∈ r.oilp, value > r.settings.minOilPressureAfterStart

instance (r : LimpReadings) : Decidable r.looksAfterStart := inferInstanceAs (Decidable (_ ∧ _ ∧ _))

instance (r : LimpReadings) : Decidable r.showsPressure :=
  inferInstanceAs (Decidable (_ ∧ _ ∧ ∃ value ∈ r.oilp, _))

/-- Five seconds after the start, no pressure has been seen since the engine stood still. -/
def NoPressureAfterStart (h : List LimpEvent) : Prop :=
  AtUpdate (fun r => r.looksAfterStart ∧ r.engineRunTime > 5) h ∧
    ¬ Since (fun h => ¬ AtUpdate (fun r => r.isRunning = false) h) (AtUpdate LimpReadings.showsPressure) h

/-- For longer than the time-out, the pressure has not been fine, nor has the engine stood still. -/
def PressureLow : Formula LimpEvent := OnUpdate fun r past =>
  r.isRunning = true ∧ r.settings.enableOilPressureProtect = true ∧
    Latest
      (fun h => hasElapsedSec (timeOf h) r.oilPressureNt r.settings.minimumOilPressureTimeout = true)
      (AtUpdate fun r => r.isRunning = false ∨
        r.settings.enableOilPressureProtect = true ∧ isPressureSufficient r = true)
      (hasElapsedSec timerInit r.oilPressureNt r.settings.minimumOilPressureTimeout = true)
      (.updateState r :: past)

/-- The engine was last told to stop less than five seconds ago. -/
def StopRequested : Formula LimpEvent := OnUpdate fun r past =>
  Latest (fun h => getElapsedSeconds (timeOf h) r.nowNt < 5) Stops (getElapsedSeconds timerInit r.nowNt < 5)
    past

/-- The duty cycle has been above the sustained limit for longer than the time-out. -/
def DutySustained (r : LimpReadings) (past : List LimpEvent) : Prop :=
  Latest
    (fun h => hasElapsedSec (timeOf h) r.injectorDutyNt r.settings.maxInjectorDutySustainedTimeout = true)
    (AtUpdate fun r => r.injDutyCycle ≤ r.settings.maxInjectorDutySustained)
    (hasElapsedSec timerInit r.injectorDutyNt r.settings.maxInjectorDutySustainedTimeout = true)
    (.updateState r :: past)

/-- The duty cycle was too high, at once or sustained, and has not been low since. -/
def DutyTripped : Formula LimpEvent :=
  Since (fun h => ¬ AtUpdate (fun r => r.injDutyCycle < 20) h)
    (OnUpdate fun r past =>
      r.injDutyCycle > r.settings.maxInjectorDutyInstant ∨ DutySustained r past)

def fuelCutCauses : List (ClearReason × Formula LimpEvent) :=
  [(.settings, AtUpdate fun r => r.settings.isInjectionEnabled = false),
   (.ignitionOff, IgnitionOff),
   (.acr, AtUpdate fun r => r.isAcrActive = true),
   (.hardLimit, fun h => AtUpdate (fun r => r.settings.cutFuelOnHardLimit = true) h ∧ HardLimited h),
   (.faultRevLimit, FaultLimited),
   (.lambdaProtection, AtUpdate fun r => r.isLambdaCut = true),
   (.boostCut, Overboosted),
   (.enginePhase, AtUpdate NoPhase),
   (.oilPressure, fun h => NoPressureAfterStart h ∨ PressureLow h),
   (.stopRequested, StopRequested),
   (.injectorDutyCycle, DutyTripped),
   (.floodClear, AtUpdate fun r => isFloodClear r = true),
   (.launchCut, AtUpdate fun r => r.isLaunchFuelRpmRetardCondition = true)]

def sparkCutCauses : List (ClearReason × Formula LimpEvent) :=
  [(.settings, AtUpdate fun r => r.settings.isIgnitionEnabled = false),
   (.ignitionOff, IgnitionOff),
   (.lua, AtUpdate fun r => r.luaIgnCut = true),
   (.hardLimit, fun h => AtUpdate (fun r => r.settings.cutSparkOnHardLimit = true) h ∧ HardLimited h),
   (.enginePhase, AtUpdate NoPhase),
   (.launchCut, AtUpdate fun r => r.isLaunchSparkRpmRetardCondition = true)]

/-- A fatal error counts for ever; the other causes as of the last update. -/
def lasting (causes : List (ClearReason × Formula LimpEvent)) : List (ClearReason × Formula LimpEvent) :=
  (.fatal, Once Fatal) :: causes.map fun cause => (cause.1, AtLast cause.2)

/-- A permission is given if no cause applies; otherwise the first one that does is the reason. -/
def Explains (causes : List (ClearReason × Formula LimpEvent)) (h : List LimpEvent)
    (permission : LimpState) : Prop :=
  if permission.value then permission.reason = .none ∧ ∀ cause ∈ causes, ¬ cause.2 h
  else FirstCause causes h permission.reason

/-! ## What an update does to each thing that is kept -/

section Updates

variable {m : LimpManager} {r : LimpReadings} {allowFuel allowSpark : Clearable}

def LimpManager.nextRevLimit (m : LimpManager) (r : LimpReadings) : Hysteresis :=
  m.revLimitHysteresis.test (r.rpm > r.hardLimit) (r.rpm < r.hardLimit - r.settings.rpmHardLimitHyst)

def LimpManager.nextBoostCut (m : LimpManager) (r : LimpReadings) : Hysteresis :=
  m.boostCutHysteresis.test
    (r.settings.boostCutPressure ≠ 0 ∧ r.map > r.settings.boostCutPressure)
    (r.settings.boostCutPressure ≠ 0 ∧ r.map < r.settings.boostCutPressure - 20)

def LimpManager.nextHadOilPressure (m : LimpManager) (r : LimpReadings) : Bool :=
  r.isRunning && (m.hadOilPressureAfterStart || decide (r.showsPressure))

def LimpManager.nextLowOilPressure (m : LimpManager) (r : LimpReadings) : Tick :=
  if r.isRunning = false ∨ r.settings.enableOilPressureProtect = true ∧ isPressureSufficient r = true
  then r.nowNt else m.lowOilPressureTimer

def LimpManager.nextDutySustained (m : LimpManager) (r : LimpReadings) : Tick :=
  if r.injDutyCycle ≤ r.settings.maxInjectorDutySustained then r.nowNt
  else m.injectorDutySustainedTimer

def LimpManager.nextDutyCut (m : LimpManager) (r : LimpReadings) : Hysteresis :=
  m.injectorDutyCutHysteresis.test
    (r.injDutyCycle > r.settings.maxInjectorDutyInstant ||
      hasElapsedSec (m.nextDutySustained r) r.injectorDutyNt r.settings.maxInjectorDutySustainedTimeout)
    (r.injDutyCycle < 20)

/-- What cuts the fuel for the oil pressure, with the flag and the timer as they are then. -/
def LimpManager.oilPressureCut (m : LimpManager) (r : LimpReadings) : Bool :=
  decide (r.looksAfterStart ∧ r.engineRunTime > 5) && !m.nextHadOilPressure r ||
    decide (r.isRunning = true ∧ r.settings.enableOilPressureProtect = true) &&
      hasElapsedSec (m.nextLowOilPressure r) r.oilPressureNt r.settings.minimumOilPressureTimeout

theorem clearIf_clearIf (c : Clearable) (a b : Bool) (reason : ClearReason) :
    (c.clearIf a reason).clearIf b reason = c.clearIf (a || b) reason := by
  cases a <;> cases b <;> cases value : c.value <;> simp [Clearable.clearIf, Clearable.clear, value]

theorem updateCutsHardRevLimit_eq : m.updateCutsHardRevLimit r allowFuel allowSpark =
    ({ m with hardRevLimit := r.hardLimit, revLimitHysteresis := m.nextRevLimit r },
      (allowFuel.clearIf ((m.nextRevLimit r).state && r.settings.cutFuelOnHardLimit) .hardLimit).clearIf
        (r.rpm > limitRpm m.faultRevLimit) .faultRevLimit,
      allowSpark.clearIf ((m.nextRevLimit r).state && r.settings.cutSparkOnHardLimit) .hardLimit) := rfl

theorem updateCutsBoostCut_eq : m.updateCutsBoostCut r allowFuel =
    ({ m with boostCutHysteresis := m.nextBoostCut r },
      allowFuel.clearIf (decide (r.settings.boostCutPressure ≠ 0) && (m.nextBoostCut r).state)
        .boostCut) := by
  by_cases set : r.settings.boostCutPressure = 0
  · simp [updateCutsBoostCut, nextBoostCut, Hysteresis.test, set, Clearable.clearIf]
  · simp [updateCutsBoostCut, nextBoostCut, set]

theorem checkPressureAfterStart_eq (running : r.isRunning = true) :
    m.checkPressureAfterStart r allowFuel =
      ({ m with hadOilPressureAfterStart := m.nextHadOilPressure r },
        allowFuel.clearIf
          (decide (r.looksAfterStart ∧ r.engineRunTime > 5) && !m.nextHadOilPressure r)
          .oilPressure) := by
  by_cases looks : 0 < r.settings.minOilPressureAfterStart ∧ r.hasOilpSensor = true
  · by_cases late : r.engineRunTime > 5
    · cases oilp : r.oilp <;>
        simp [checkPressureAfterStart, nextHadOilPressure, LimpReadings.showsPressure,
          LimpReadings.looksAfterStart, running, looks, late, not_le.mpr late, oilp]
    · cases oilp : r.oilp with
      | none =>
        simp [checkPressureAfterStart, nextHadOilPressure, LimpReadings.showsPressure,
          LimpReadings.looksAfterStart, running, looks, late, oilp]
      | some value =>
        by_cases enough : value > r.settings.minOilPressureAfterStart <;>
          simp [checkPressureAfterStart, nextHadOilPressure, LimpReadings.showsPressure,
            LimpReadings.looksAfterStart, running, looks, late, oilp, enough, not_lt.mp late]
  · have not_looks : (decide (0 < r.settings.minOilPressureAfterStart) && r.hasOilpSensor) = false := by
      simpa using looks
    simp [checkPressureAfterStart, nextHadOilPressure, LimpReadings.showsPressure,
      LimpReadings.looksAfterStart, running, looks, not_looks, Clearable.clearIf]

theorem protectOilPressure_eq (running : r.isRunning = true) : m.protectOilPressure r allowFuel =
    ({ m with lowOilPressureTimer := m.nextLowOilPressure r },
      allowFuel.clearIf
        (decide (r.isRunning = true ∧ r.settings.enableOilPressureProtect = true) &&
          hasElapsedSec (m.nextLowOilPressure r) r.oilPressureNt r.settings.minimumOilPressureTimeout)
        .oilPressure) := by
  by_cases protects : r.settings.enableOilPressureProtect = true
  · by_cases sufficient : isPressureSufficient r = true
    · simp [protectOilPressure, nextLowOilPressure, protects, sufficient, running]
    · simp [protectOilPressure, nextLowOilPressure, protects, sufficient, running]
  · simp [protectOilPressure, nextLowOilPressure, protects, running, Clearable.clearIf]

theorem updateCutsOilPressure_eq : m.updateCutsOilPressure r allowFuel =
    ({ m with
        hadOilPressureAfterStart := m.nextHadOilPressure r
        lowOilPressureTimer := m.nextLowOilPressure r },
      allowFuel.clearIf (m.oilPressureCut r) .oilPressure) := by
  by_cases running : r.isRunning = true
  · simp only [updateCutsOilPressure, running, if_true, checkPressureAfterStart_eq running,
      protectOilPressure_eq running, clearIf_clearIf, oilPressureCut]
    rfl
  · simp [updateCutsOilPressure, running, nextHadOilPressure, nextLowOilPressure, oilPressureCut,
      LimpReadings.looksAfterStart, Clearable.clearIf]

theorem updateCutsInjectorDuty_eq : m.updateCutsInjectorDuty r allowFuel =
    ({ m with
        injectorDutySustainedTimer := m.nextDutySustained r
        injectorDutyCutHysteresis := m.nextDutyCut r
        dutyWarnings :=
          if (m.nextDutyCut r).state then m.dutyWarnings ++ [r.injDutyCycle] else m.dutyWarnings },
      allowFuel.clearIf (m.nextDutyCut r).state .injectorDutyCycle) := by
  have timer : (if r.injDutyCycle ≤ r.settings.maxInjectorDutySustained
      then { m with injectorDutySustainedTimer := r.nowNt } else m) =
      { m with injectorDutySustainedTimer := m.nextDutySustained r } := by
    unfold nextDutySustained
    split <;> rfl
  have below : (!decide (r.injDutyCycle > r.settings.maxInjectorDutySustained)) =
      decide (r.injDutyCycle ≤ r.settings.maxInjectorDutySustained) := by
    rw [Bool.eq_iff_iff]
    simp
  simp only [updateCutsInjectorDuty, below, decide_eq_true_eq, timer]
  change (if (m.nextDutyCut r).state = true then _ else _) = _
  cases (m.nextDutyCut r).state <;> rfl

/-- What cuts the fuel, in the order in which it is looked at. -/
def LimpManager.fuelCuts (m : LimpManager) (r : LimpReadings) : List (ClearReason × Bool) :=
  [(.settings, !r.settings.isInjectionEnabled),
   (.ignitionOff, !m.ignitionOn && !r.directSelfStimulation),
   (.acr, r.isAcrActive),
   (.hardLimit, (m.nextRevLimit r).state && r.settings.cutFuelOnHardLimit),
   (.faultRevLimit, r.rpm > limitRpm m.faultRevLimit),
   (.lambdaProtection, r.isLambdaCut),
   (.boostCut, decide (r.settings.boostCutPressure ≠ 0) && (m.nextBoostCut r).state),
   (.enginePhase, noFiringUntilVvtSync r && !r.hasSynchronizedPhase),
   (.oilPressure, m.oilPressureCut r),
   (.stopRequested, m.isEngineStop r.nowNt),
   (.injectorDutyCycle, (m.nextDutyCut r).state),
   (.floodClear, isFloodClear r),
   (.launchCut, r.isLaunchFuelRpmRetardCondition)]

def LimpManager.sparkCuts (m : LimpManager) (r : LimpReadings) : List (ClearReason × Bool) :=
  [(.settings, !r.settings.isIgnitionEnabled),
   (.ignitionOff, !m.ignitionOn && !r.directSelfStimulation),
   (.lua, r.luaIgnCut),
   (.hardLimit, (m.nextRevLimit r).state && r.settings.cutSparkOnHardLimit),
   (.enginePhase, noFiringUntilVvtSync r && !r.hasSynchronizedPhase),
   (.launchCut, r.isLaunchSparkRpmRetardCondition)]

def clearAll (cuts : List (ClearReason × Bool)) : Clearable :=
  cuts.foldl (fun c cut => c.clearIf cut.2 cut.1) {}

theorem storeCuts_eq (nowNt : Tick) : m.storeCuts nowNt allowFuel allowSpark =
    { m with
      transientAllowInjection := allowFuel
      transientAllowIgnition := allowSpark
      lastCutTime := if !allowFuel.value || !allowSpark.value then nowNt else m.lastCutTime
      fuelCutReason := (m.storeCuts nowNt allowFuel allowSpark).fuelCutReason
      sparkCutReason := (m.storeCuts nowNt allowFuel allowSpark).sparkCutReason } := by
  simp only [storeCuts]
  split <;> rfl

theorem updateState_eq : ∃ fuelCutReason sparkCutReason dutyWarnings, m.updateState r =
    { m with
      hardRevLimit := r.hardLimit
      revLimitHysteresis := m.nextRevLimit r
      boostCutHysteresis := m.nextBoostCut r
      injectorDutyCutHysteresis := m.nextDutyCut r
      transientAllowInjection := clearAll (m.fuelCuts r)
      transientAllowIgnition := clearAll (m.sparkCuts r)
      hadOilPressureAfterStart := m.nextHadOilPressure r
      lastCutTime :=
        if !(clearAll (m.fuelCuts r)).value || !(clearAll (m.sparkCuts r)).value then r.nowNt
        else m.lastCutTime
      injectorDutySustainedTimer := m.nextDutySustained r
      lowOilPressureTimer := m.nextLowOilPressure r
      fuelCutReason, sparkCutReason, dutyWarnings } := by
  have ofBool (b : Bool) : Clearable.ofBool b = ({} : Clearable).clearIf (!b) .settings := by
    cases b <;> rfl
  simp only [updateState, ofBool, updateCutsHardRevLimit_eq, updateCutsBoostCut_eq,
    updateCutsOilPressure_eq, updateCutsInjectorDuty_eq]
  rw [storeCuts_eq]
  exact ⟨_, _, _, rfl⟩

end Updates

/-! ## Where a history leads -/

section Histories

variable {h past : List LimpEvent} {r : LimpReadings}

def limpAfter (h : List LimpEvent) : LimpManager := after {} LimpManager.step h

theorem test_state (s : Hysteresis) (rising falling : Bool) :
    (s.test rising falling).state = true ↔ rising = true ∨ ¬ falling = true ∧ s.state = true := by
  cases rising <;> cases falling <;> simp [Hysteresis.test]

theorem ignitionOn_iff : (limpAfter h).ignitionOn = true ↔
    Since (fun h => ¬ Turned false h) (Turned true) h := by
  refine flag_iff rfl fun e past => ?_
  cases e with
  | updateState r =>
    obtain ⟨_, _, _, same⟩ := @updateState_eq (limpAfter past) r
    change ((limpAfter past).updateState r).ignitionOn = true ↔ _
    rw [same]
    simp [Turned, limpAfter]
  | onIgnitionStateChanged on => cases on <;> simp [Turned, LimpManager.step, onIgnitionStateChanged]
  | reportEtbProblem => simp [Turned, LimpManager.step, reportEtbProblem, setFaultRevLimit]
  | fatalError => simp [Turned, LimpManager.step, fatalError, setFaultRevLimit]
  | stopEngine => simp [Turned, LimpManager.step, stopEngine]

/-- Only an update touches it. -/
def Framed {α : Type} (kept : LimpManager → α) : Prop :=
  ∀ (m : LimpManager) e, (∀ r, e ≠ .updateState r) → kept (m.step e) = kept m

theorem framed {α : Type} {kept : LimpManager → α}
    (same : ∀ m engineStopTimer faultRevLimit allowEtb allowInjectionFlag allowIgnitionFlag
      allowTriggerInputFlag ignitionOn, kept { m with
        engineStopTimer, faultRevLimit, allowEtb, allowInjectionFlag, allowIgnitionFlag,
        allowTriggerInputFlag, ignitionOn } = kept m) : Framed kept := by
  intro m e other
  cases e with
  | updateState r => exact absurd rfl (other r)
  | onIgnitionStateChanged | reportEtbProblem | fatalError | stopEngine =>
    exact same m _ _ _ _ _ _ _

/-- A flag of the updates. -/
theorem update_flag_iff {flag : LimpManager → Bool} {up down : LimpReadings → List LimpEvent → Prop}
    (lowered : flag {} = false)
    (frame : Framed flag)
    (updates : ∀ r past, flag ((limpAfter past).updateState r) = true ↔
      up r past ∨ ¬ down r past ∧ flag (limpAfter past) = true) :
    flag (limpAfter h) = true ↔ Since (fun h => ¬ OnUpdate down h) (OnUpdate up) h := by
  refine flag_iff lowered fun e past => ?_
  cases e with
  | updateState r => exact updates r past
  | onIgnitionStateChanged | reportEtbProblem | fatalError | stopEngine =>
    rw [frame _ _ (fun _ => LimpEvent.noConfusion)]
    simp [OnUpdate]

/-- A clock of the updates. -/
theorem update_clock_iff {clock : LimpManager → Tick} {said : LimpReadings → Prop}
    [DecidablePred said] (P : Tick → Prop)
    (frame : Framed clock)
    (updates : ∀ m r, clock (m.updateState r) = if said r then r.nowNt else clock m) :
    P (clock (limpAfter h)) ↔ Latest (fun h => P (timeOf h)) (AtUpdate said) (P (clock {})) h := by
  refine clock_iff ?_ ?_
  · intro e past spoken
    cases e with
    | updateState r => exact (updates _ r).trans (if_pos spoken)
    | onIgnitionStateChanged | reportEtbProblem | fatalError | stopEngine => exact spoken.elim
  · intro e past silent
    cases e with
    | updateState r => exact (updates _ r).trans (if_neg silent)
    | onIgnitionStateChanged | reportEtbProblem | fatalError | stopEngine =>
      exact frame _ _ (fun _ => LimpEvent.noConfusion)

theorem revLimit_iff : (limpAfter h).revLimitHysteresis.state = true ↔ HardLimited h := by
  refine @update_flag_iff _ (·.revLimitHysteresis.state) _ _ rfl
    (framed fun _ _ _ _ _ _ _ _ => rfl) fun r past => ?_
  obtain ⟨_, _, _, same⟩ := @updateState_eq (limpAfter past) r
  rw [same]
  simp [nextRevLimit, test_state]

theorem boostCut_iff : (limpAfter h).boostCutHysteresis.state = true ↔ Since
    (fun h => ¬ AtUpdate (fun r => r.settings.boostCutPressure ≠ 0 ∧
      r.map < r.settings.boostCutPressure - 20) h)
    (AtUpdate fun r => r.settings.boostCutPressure ≠ 0 ∧ r.map > r.settings.boostCutPressure) h := by
  refine @update_flag_iff _ (·.boostCutHysteresis.state) _ _ rfl
    (framed fun _ _ _ _ _ _ _ _ => rfl) fun r past => ?_
  obtain ⟨_, _, _, same⟩ := @updateState_eq (limpAfter past) r
  rw [same]
  simp [nextBoostCut, test_state]

theorem hadOilPressure_iff : (limpAfter h).hadOilPressureAfterStart = true ↔ Since
    (fun h => ¬ AtUpdate (fun r => r.isRunning = false) h) (AtUpdate LimpReadings.showsPressure) h := by
  refine @update_flag_iff _ (·.hadOilPressureAfterStart) _ _ rfl
    (framed fun _ _ _ _ _ _ _ _ => rfl) fun r past => ?_
  obtain ⟨_, _, _, same⟩ := @updateState_eq (limpAfter past) r
  rw [same]
  cases running : r.isRunning <;>
    simp [nextHadOilPressure, running, LimpReadings.showsPressure, LimpReadings.looksAfterStart, or_comm]

theorem lowOilPressure_iff (P : Tick → Prop) : P (limpAfter h).lowOilPressureTimer ↔
    Latest (fun h => P (timeOf h))
      (AtUpdate fun r => r.isRunning = false ∨
        r.settings.enableOilPressureProtect = true ∧ isPressureSufficient r = true)
      (P timerInit) h := by
  refine @update_clock_iff _ (·.lowOilPressureTimer) _ _ P
    (framed fun _ _ _ _ _ _ _ _ => rfl) fun m r => ?_
  obtain ⟨_, _, _, same⟩ := @updateState_eq m r
  rw [same]
  rfl

theorem injectorDutySustained_iff (P : Tick → Prop) : P (limpAfter h).injectorDutySustainedTimer ↔
    Latest (fun h => P (timeOf h)) (AtUpdate fun r => r.injDutyCycle ≤ r.settings.maxInjectorDutySustained)
      (P timerInit) h := by
  refine @update_clock_iff _ (·.injectorDutySustainedTimer) _ _ P
    (framed fun _ _ _ _ _ _ _ _ => rfl) fun m r => ?_
  obtain ⟨_, _, _, same⟩ := @updateState_eq m r
  rw [same]
  rfl

theorem engineStop_iff (P : Tick → Prop) : P (limpAfter h).engineStopTimer ↔
    Latest (fun h => P (timeOf h)) Stops (P timerInit) h := by
  refine @clock_iff _ _ _ _ _ _ _ LimpManager.engineStopTimer timeOf P ?_ ?_
  · intro e past stops
    cases e with
    | stopEngine => rfl
    | updateState | onIgnitionStateChanged | reportEtbProblem | fatalError => exact stops.elim
  · intro e past keeps
    cases e with
    | stopEngine => exact (keeps trivial).elim
    | updateState r =>
      obtain ⟨_, _, _, same⟩ := @updateState_eq (limpAfter past) r
      change ((limpAfter past).updateState r).engineStopTimer = (limpAfter past).engineStopTimer
      rw [same]
    | onIgnitionStateChanged | reportEtbProblem | fatalError => rfl

theorem dutySustained_iff : hasElapsedSec ((limpAfter past).nextDutySustained r) r.injectorDutyNt
    r.settings.maxInjectorDutySustainedTimeout = true ↔ DutySustained r past := by
  have now := @injectorDutySustained_iff (.updateState r :: past) fun t =>
    hasElapsedSec t r.injectorDutyNt r.settings.maxInjectorDutySustainedTimeout = true
  obtain ⟨_, _, _, same⟩ := @updateState_eq (limpAfter past) r
  have timer : (limpAfter (.updateState r :: past)).injectorDutySustainedTimer =
      (limpAfter past).nextDutySustained r := congrArg LimpManager.injectorDutySustainedTimer same
  rw [timer] at now
  exact now

theorem dutyCut_iff : (limpAfter h).injectorDutyCutHysteresis.state = true ↔ DutyTripped h := by
  refine @update_flag_iff _ (·.injectorDutyCutHysteresis.state) _ _ rfl
    (framed fun _ _ _ _ _ _ _ _ => rfl) fun r past => ?_
  obtain ⟨_, _, _, same⟩ := @updateState_eq (limpAfter past) r
  rw [same]
  simp [nextDutyCut, test_state, dutySustained_iff]

/-- The limit is that of the worst problem so far. -/
theorem faultRevLimit_eq :
    Once Fatal h ∧ (limpAfter h).faultRevLimit = 0 ∨
      ¬ Once Fatal h ∧ Once EtbProblem h ∧ (limpAfter h).faultRevLimit = 1500 ∨
      ¬ Once Fatal h ∧ ¬ Once EtbProblem h ∧ (limpAfter h).faultRevLimit = 2 ^ 31 - 1 := by
  induction h with
  | nil => exact .inr (.inr ⟨id, id, rfl⟩)
  | cons e past ih =>
    have next : limpAfter (e :: past) = (limpAfter past).step e := rfl
    rw [next]
    cases e with
    | updateState r =>
      obtain ⟨_, _, _, same⟩ := @updateState_eq (limpAfter past) r
      have limit : ((limpAfter past).step (.updateState r)).faultRevLimit =
          (limpAfter past).faultRevLimit := by
        rw [LimpManager.step, same]
      simpa [Fatal, EtbProblem, limit] using ih
    | onIgnitionStateChanged | stopEngine =>
      simpa [Fatal, EtbProblem, LimpManager.step, onIgnitionStateChanged, stopEngine] using ih
    | reportEtbProblem =>
      rcases ih with ⟨fatal, limit⟩ | ⟨fatal, etb, limit⟩ | ⟨fatal, etb, limit⟩ <;>
        simp [Fatal, EtbProblem, LimpManager.step, reportEtbProblem, setFaultRevLimit, fatal, limit]
    | fatalError =>
      rcases ih with ⟨fatal, limit⟩ | ⟨fatal, etb, limit⟩ | ⟨fatal, etb, limit⟩ <;>
        simp [Fatal, LimpManager.step, fatalError, setFaultRevLimit, limit]

theorem faultLimited_iff : r.rpm > limitRpm (limpAfter past).faultRevLimit ↔
    FaultLimited (.updateState r :: past) := by
  have order : (2 : ℚ) ^ 31 > 1500 := by norm_num
  simp only [FaultLimited, OnUpdate]
  rcases @faultRevLimit_eq past with ⟨fatal, limit⟩ | ⟨fatal, etb, limit⟩ | ⟨fatal, etb, limit⟩
  · have value : limitRpm 0 = 0 := by norm_num [limitRpm]
    rw [limit, value]
    simp only [fatal, true_and]
    constructor
    · exact .inl
    · rintro (positive | ⟨-, above⟩ | above) <;> linarith
  · have value : limitRpm 1500 = 1500 := by norm_num [limitRpm]
    rw [limit, value]
    simp only [fatal, etb, false_and, true_and, false_or]
    constructor
    · exact .inl
    · rintro (above | above) <;> linarith
  · rw [limit, limitRpm, if_pos rfl]
    simp only [fatal, etb, false_and, false_or]

/-- A flag is cleared by a fatal error, and for nothing else. -/
theorem allowInjectionFlag_eq :
    Once Fatal h ∧ (limpAfter h).allowInjectionFlag = ⟨false, .fatal⟩ ∨
      ¬ Once Fatal h ∧ (limpAfter h).allowInjectionFlag = {} := by
  induction h with
  | nil => exact .inr ⟨id, rfl⟩
  | cons e past ih =>
    have next : limpAfter (e :: past) = (limpAfter past).step e := rfl
    rw [next]
    cases e with
    | updateState r =>
      obtain ⟨_, _, _, same⟩ := @updateState_eq (limpAfter past) r
      rw [LimpManager.step, same]
      simpa [Fatal] using ih
    | onIgnitionStateChanged | stopEngine | reportEtbProblem =>
      simpa [Fatal, LimpManager.step, onIgnitionStateChanged, stopEngine, reportEtbProblem,
        setFaultRevLimit] using ih
    | fatalError =>
      rcases ih with ⟨-, flag⟩ | ⟨-, flag⟩ <;>
        simp [Fatal, LimpManager.step, fatalError, setFaultRevLimit, Clearable.clear, flag]

theorem allowIgnitionFlag_eq : (limpAfter h).allowIgnitionFlag = (limpAfter h).allowInjectionFlag := by
  induction h with
  | nil => rfl
  | cons e past ih =>
    have next : limpAfter (e :: past) = (limpAfter past).step e := rfl
    rw [next]
    cases e with
    | updateState r =>
      obtain ⟨_, _, _, same⟩ := @updateState_eq (limpAfter past) r
      rw [LimpManager.step, same]
      exact ih
    | onIgnitionStateChanged | stopEngine | reportEtbProblem => exact ih
    | fatalError => exact congrArg (Clearable.clear · .fatal) ih

/-- What is looked at and the cause it stands for, one by one. -/
def Matches (cuts : List (ClearReason × Bool)) (causes : List (ClearReason × Formula LimpEvent))
    (h : List LimpEvent) : Prop :=
  List.Forall₂ (fun cut cause => cut.1 = cause.1 ∧ (cut.2 = true ↔ cause.2 h)) cuts causes

theorem oilPressureCut_iff : (limpAfter past).oilPressureCut r = true ↔
    NoPressureAfterStart (.updateState r :: past) ∨ PressureLow (.updateState r :: past) := by
  obtain ⟨_, _, _, same⟩ := @updateState_eq (limpAfter past) r
  have had := @hadOilPressure_iff (.updateState r :: past)
  have low := @lowOilPressure_iff (.updateState r :: past) fun t =>
    hasElapsedSec t r.oilPressureNt r.settings.minimumOilPressureTimeout = true
  have next : limpAfter (.updateState r :: past) = (limpAfter past).updateState r := rfl
  rw [next, same] at had low
  simp only [oilPressureCut, Bool.or_eq_true, Bool.and_eq_true, decide_eq_true_eq,
    NoPressureAfterStart, PressureLow, OnUpdate, ← had, ← low, and_assoc, Bool.not_eq_true,
    Bool.not_eq_true']

section Cuts

theorem ignitionOff_iff : ((limpAfter past).ignitionOn = false ∧ r.directSelfStimulation = false) ↔
    IgnitionOff (.updateState r :: past) := by
  obtain ⟨_, _, _, same⟩ := @updateState_eq (limpAfter past) r
  have ignition := @ignitionOn_iff (.updateState r :: past)
  have next : limpAfter (.updateState r :: past) = (limpAfter past).updateState r := rfl
  rw [next, same] at ignition
  simp only [IgnitionOff, OnUpdate, ← ignition, Bool.not_eq_true, and_comm]

theorem hardLimited_iff : ((limpAfter past).nextRevLimit r).state = true ↔
    HardLimited (.updateState r :: past) := by
  obtain ⟨_, _, _, same⟩ := @updateState_eq (limpAfter past) r
  have limited := @revLimit_iff (.updateState r :: past)
  have next : limpAfter (.updateState r :: past) = (limpAfter past).updateState r := rfl
  rwa [next, same] at limited

theorem overboosted_iff : (r.settings.boostCutPressure ≠ 0 ∧ ((limpAfter past).nextBoostCut r).state = true) ↔
    Overboosted (.updateState r :: past) := by
  obtain ⟨_, _, _, same⟩ := @updateState_eq (limpAfter past) r
  have boost := @boostCut_iff (.updateState r :: past)
  have next : limpAfter (.updateState r :: past) = (limpAfter past).updateState r := rfl
  rw [next, same] at boost
  exact and_congr_right fun _ => boost

theorem dutyTripped_iff : ((limpAfter past).nextDutyCut r).state = true ↔
    DutyTripped (.updateState r :: past) := by
  obtain ⟨_, _, _, same⟩ := @updateState_eq (limpAfter past) r
  have duty := @dutyCut_iff (.updateState r :: past)
  have next : limpAfter (.updateState r :: past) = (limpAfter past).updateState r := rfl
  rwa [next, same] at duty

theorem stopRequested_iff : (limpAfter past).isEngineStop r.nowNt = true ↔
    StopRequested (.updateState r :: past) := by
  rw [isEngineStop, decide_eq_true_iff]
  exact engineStop_iff fun t => getElapsedSeconds t r.nowNt < 5

theorem fuelCuts_match : Matches ((limpAfter past).fuelCuts r) fuelCutCauses (.updateState r :: past) := by
  simp only [Matches, fuelCuts, fuelCutCauses, List.forall₂_cons, List.forall₂_nil_left_iff,
    true_and, and_true, Bool.not_eq_true', Bool.and_eq_true, decide_eq_true_eq, ignitionOff_iff,
    hardLimited_iff, faultLimited_iff, overboosted_iff, oilPressureCut_iff, stopRequested_iff,
    dutyTripped_iff]
  simp only [OnUpdate, NoPhase, and_comm, and_self]

theorem sparkCuts_match :
    Matches ((limpAfter past).sparkCuts r) sparkCutCauses (.updateState r :: past) := by
  simp only [Matches, sparkCuts, sparkCutCauses, List.forall₂_cons, List.forall₂_nil_left_iff,
    true_and, and_true, Bool.not_eq_true', Bool.and_eq_true, ignitionOff_iff, hardLimited_iff]
  simp only [OnUpdate, NoPhase, and_comm, and_self]

end Cuts

/-! ## The permissions -/

variable {cuts : List (ClearReason × Bool)} {causes : List (ClearReason × Formula LimpEvent)}

theorem foldl_cleared (reason : ClearReason) :
    cuts.foldl (fun c cut => Clearable.clearIf c cut.2 cut.1) ⟨false, reason⟩ = ⟨false, reason⟩ := by
  induction cuts with
  | nil => rfl
  | cons cut cuts ih =>
    have same : Clearable.clearIf ⟨false, reason⟩ cut.2 cut.1 = ⟨false, reason⟩ := by
      cases on : cut.2 <;> simp [Clearable.clearIf, Clearable.clear]
    rw [List.foldl_cons, same, ih]

/-- The first cut decides, and it is the first cause. -/
theorem Matches.clearAll (matched : Matches cuts causes h) :
    clearAll cuts = {} ∧ (∀ cause ∈ causes, ¬ cause.2 h) ∨
      ∃ reason, clearAll cuts = ⟨false, reason⟩ ∧ FirstCause causes h reason := by
  induction matched with
  | nil => exact .inl ⟨rfl, by simp⟩
  | @cons cut cause cuts causes head tail ih =>
    obtain ⟨same, applies⟩ := head
    by_cases on : cut.2 = true
    · refine .inr ⟨cut.1, ?_, .inl ⟨applies.mp on, same.symm⟩⟩
      have first : ({} : Clearable).clearIf cut.2 cut.1 = ⟨false, cut.1⟩ := by
        simp [Clearable.clearIf, Clearable.clear, on]
      rw [Engine.clearAll, List.foldl_cons, first, foldl_cleared]
    · have off : ¬ cause.2 h := fun holds => on (applies.mpr holds)
      have skip : Engine.clearAll (cut :: cuts) = Engine.clearAll cuts := by
        rw [Engine.clearAll, Engine.clearAll, List.foldl_cons, Clearable.clearIf, if_neg on]
      rw [skip]
      rcases ih with ⟨clear, none⟩ | ⟨reason, cleared, first⟩
      · exact .inl ⟨clear, List.forall_mem_cons.mpr ⟨off, none⟩⟩
      · exact .inr ⟨reason, cleared, .inr ⟨off, first⟩⟩

/-- The cuts of the last update stay in force. -/
theorem transient_match (cuts : LimpManager → LimpReadings → List (ClearReason × Bool))
    (kept : LimpManager → Clearable)
    (begins : kept {} = {})
    (frame : Framed kept)
    (updates : ∀ m r, kept (m.updateState r) = clearAll (cuts m r))
    (matched : ∀ r past, Matches (cuts (limpAfter past) r) causes (.updateState r :: past)) :
    ∃ cuts, kept (limpAfter h) = clearAll cuts ∧
      Matches cuts (causes.map fun cause => (cause.1, AtLast cause.2)) h := by
  induction h with
  | nil =>
    refine ⟨causes.map fun cause => (cause.1, false), ?_, ?_⟩
    · have none (causes : List (ClearReason × Formula LimpEvent)) :
          clearAll (causes.map fun cause => (cause.1, false)) = {} := by
        induction causes with
        | nil => rfl
        | cons cause causes ih => exact ih
      rw [none]
      exact begins
    · simp [Matches, AtLast]
  | cons e past ih =>
    have unchanged : (∀ r, e ≠ .updateState r) → kept (limpAfter (e :: past)) = kept (limpAfter past) :=
      frame (limpAfter past) e
    cases e with
    | updateState r =>
      refine ⟨cuts (limpAfter past) r, updates _ r, ?_⟩
      rw [Matches, List.forall₂_map_right_iff]
      exact matched r past
    | onIgnitionStateChanged | reportEtbProblem | fatalError | stopEngine =>
      obtain ⟨cuts, same, matched⟩ := ih
      refine ⟨cuts, ?_, ?_⟩
      · rw [← same]
        exact unchanged fun r => LimpEvent.noConfusion
      rw [Matches, List.forall₂_map_right_iff] at matched ⊢
      exact matched

/-- What a flag for ever and one of the last update come to. -/
theorem explains_both {flag transient : Clearable}
    (forEver : Once Fatal h ∧ flag = ⟨false, .fatal⟩ ∨ ¬ Once Fatal h ∧ flag = {})
    (matched : ∃ cuts, transient = clearAll cuts ∧
      Matches cuts (causes.map fun cause => (cause.1, AtLast cause.2)) h) :
    Explains (lasting causes) h
      (if !flag.value then ⟨false, flag.clearReason⟩
      else if !transient.value then ⟨false, transient.clearReason⟩
      else ⟨true, .none⟩) := by
  rcases forEver with ⟨fatal, rfl⟩ | ⟨fatal, rfl⟩
  · exact .inl ⟨fatal, rfl⟩
  · obtain ⟨cuts, rfl, matched⟩ := matched
    rcases matched.clearAll with ⟨clear, none⟩ | ⟨reason, cleared, first⟩
    · rw [clear]
      exact ⟨rfl, List.forall_mem_cons.mpr ⟨fatal, none⟩⟩
    · rw [cleared]
      exact .inr ⟨fatal, first⟩

/-- After whatever happened, fuel is allowed just when no cause applies, and the reason is the first
that does. -/
theorem allowInjection_explained (h : List LimpEvent) :
    Explains (lasting fuelCutCauses) h (limpAfter h).allowInjection := by
  refine explains_both allowInjectionFlag_eq
    (transient_match fuelCuts (·.transientAllowInjection) rfl
      (framed fun _ _ _ _ _ _ _ _ => rfl) (fun m r => ?_) fun r past => fuelCuts_match)
  obtain ⟨_, _, _, same⟩ := @updateState_eq m r
  rw [same]

theorem allowIgnition_explained (h : List LimpEvent) :
    Explains (lasting sparkCutCauses) h (limpAfter h).allowIgnition := by
  refine explains_both (allowIgnitionFlag_eq ▸ allowInjectionFlag_eq)
    (transient_match sparkCuts (·.transientAllowIgnition) rfl
      (framed fun _ _ _ _ _ _ _ _ => rfl) (fun m r => ?_) fun r past => sparkCuts_match)
  obtain ⟨_, _, _, same⟩ := @updateState_eq m r
  rw [same]

end Histories

end FomeFw.Engine
