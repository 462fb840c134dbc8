import FomeFw.Lib.Machine
import FomeFw.Timer.ScheduleByAngle
import FomeFw.Trigger.TriggerDecoder

/-! The state of the engine: `rpm_calculator.cpp`. The speed is stored in two ways, with the
state of the engine and, while it spins up, without it. -/
namespace FomeFw.Rpm
open Machine Timer Trigger

inductive SpinningState where
  | stopped | spinningUp | cranking | running
  deriving DecidableEq, Repr

structure RpmCalculator where
  state : SpinningState := .stopped
  cachedRpmValue : ℚ := 0
  previousRpmValue : Int := 0
  /-- `none` is not a number. -/
  oneDegreeUs : Option ℚ := none
  rpmRate : ℚ := 0
  isSpinning : Bool := false
  revolutionCounterSinceBoot : BitVec 32 := 0
  revolutionCounterSinceStart : BitVec 32 := 0
  lastTdcTimer : Tick := -2 ^ 60
  lastRpm : ℚ := 0
  deriving DecidableEq

abbrev maxAllowedRpm : ℚ := 30000

/-- `NO_RPM_EVENTS_TIMEOUT_SECS`. -/
abbrev noRpmEventsTimeoutSecs : ℚ := 2

/-- What `rpmShaftPositionCallback` is given and what it reads elsewhere. -/
structure ShaftPosition where
  trgEventIndex : Nat
  timestamp : Tick
  alwaysInstantRpm : Bool
  crankingRpm : Int
  isEngineStop : Bool
  engineMovedRecently : Bool
  operationMode : OperationMode
  /-- `getInstantRpm`, after its update. -/
  instantRpm : ℚ
  nonneg : 0 ≤ instantRpm

namespace RpmCalculator

def isStopped (r : RpmCalculator) : Bool :=
  r.state = .stopped ∨ r.state = .spinningUp ∧ r.cachedRpmValue = 0

def isCranking (r : RpmCalculator) : Bool :=
  r.state = .cranking ∨ r.state = .spinningUp ∧ r.cachedRpmValue > 0

def isRunning (r : RpmCalculator) : Bool := r.state = .running

def isSpinningUp (r : RpmCalculator) : Bool := r.state = .spinningUp

def checkIfSpinning (r : RpmCalculator) (isEngineStop engineMovedRecently : Bool) (nowNt : Tick) :
    Bool :=
  if isEngineStop then false
  else
    let noRpmEventsForTooLong := getElapsedSeconds r.lastTdcTimer nowNt > noRpmEventsTimeoutSecs
    if noRpmEventsForTooLong ∨ engineMovedRecently = false then false else true

/-- The stored value of the sensor is the cached one; the fast callback is left out. -/
def assignRpmValue (r : RpmCalculator) (floatRpmValue : ℚ) : RpmCalculator :=
  { r with
    previousRpmValue := truncate r.cachedRpmValue
    cachedRpmValue := floatRpmValue
    oneDegreeUs := if floatRpmValue ≤ 0 then none else some (1000000 * 60 / 360 / floatRpmValue) }

def setRpmValue (r : RpmCalculator) (crankingRpm : Int) (value : ℚ) : RpmCalculator :=
  let value := if value > maxAllowedRpm then 0 else value
  let r := r.assignRpmValue value
  if r.cachedRpmValue = 0 then { r with state := .stopped }
  else if r.cachedRpmValue ≥ crankingRpm then { r with state := .running }
  else if r.state = .stopped ∨ r.state = .spinningUp then { r with state := .cranking }
  else r

def onNewEngineCycle (r : RpmCalculator) : RpmCalculator :=
  { r with
    revolutionCounterSinceBoot := r.revolutionCounterSinceBoot + 1
    revolutionCounterSinceStart := r.revolutionCounterSinceStart + 1 }

def setStopSpinning (r : RpmCalculator) : RpmCalculator :=
  let r := { r with isSpinning := false, revolutionCounterSinceStart := 0, rpmRate := 0 }
  let r := if r.cachedRpmValue ≠ 0 then r.assignRpmValue 0 else r
  { r with state := .stopped }

def onSlowCallback (r : RpmCalculator) (engineMovedRecently alwaysInstantRpm : Bool) :
    RpmCalculator :=
  let r := if engineMovedRecently then r else r.setStopSpinning
  if alwaysInstantRpm then
    let rpm := r.cachedRpmValue
    { r with
      rpmRate := if rpm = 0 ∨ r.lastRpm = 0 then 0 else (rpm - r.lastRpm) / (50 / 1000)
      lastRpm := rpm }
  else r

/-- What becomes of the state in `setSpinningUp`. -/
def setSpinningUp (r : RpmCalculator) (isFasterEngineSpinUpEnabled : Bool) : RpmCalculator :=
  if !isFasterEngineSpinUpEnabled then r
  else if r.isStopped && !r.isSpinning then { r with state := .spinningUp, isSpinning := true }
  else r

/-- The speed over the last engine cycle. -/
def updateRpm (r : RpmCalculator) (s : ShaftPosition) (periodSeconds : ℚ) : RpmCalculator :=
  if periodSeconds = 0 then { r.setRpmValue s.crankingRpm 0 with rpmRate := 0 }
  else
    let mult := getEngineCycle s.operationMode / 360
    let rpm := 60 * mult / periodSeconds
    let rpmDelta := rpm - r.previousRpmValue
    { r with rpmRate := rpmDelta / (mult * periodSeconds) }.setRpmValue s.crankingRpm rpm

/-- `rpmShaftPositionCallback` at the first event of the cycle. -/
def onTdc (r : RpmCalculator) (s : ShaftPosition) : RpmCalculator :=
  let hadRpmRecently := r.checkIfSpinning s.isEngineStop s.engineMovedRecently s.timestamp
  let periodSeconds := getElapsedSeconds r.lastTdcTimer s.timestamp
  let r := { r with lastTdcTimer := s.timestamp }
  let r := if hadRpmRecently && !s.alwaysInstantRpm then r.updateRpm s periodSeconds else r
  r.onNewEngineCycle

def rpmShaftPositionCallback (r : RpmCalculator) (s : ShaftPosition) : RpmCalculator :=
  let r := if s.trgEventIndex = 0 then r.onTdc s else r
  if s.alwaysInstantRpm then r.setRpmValue s.crankingRpm s.instantRpm
  else if r.isSpinningUp then r.assignRpmValue s.instantRpm
  else r

end RpmCalculator

inductive RpmEvent where
  | setSpinningUp (isFasterEngineSpinUpEnabled : Bool)
  | rpmShaftPositionCallback (s : ShaftPosition)
  | onSlowCallback (engineMovedRecently alwaysInstantRpm : Bool)
  | setStopSpinning

namespace RpmCalculator

def step (r : RpmCalculator) : RpmEvent → RpmCalculator
  | .setSpinningUp isFasterEngineSpinUpEnabled => r.setSpinningUp isFasterEngineSpinUpEnabled
  | .rpmShaftPositionCallback s => r.rpmShaftPositionCallback s
  | .onSlowCallback engineMovedRecently alwaysInstantRpm =>
    r.onSlowCallback engineMovedRecently alwaysInstantRpm
  | .setStopSpinning => r.setStopSpinning

/-- What the rest of the firmware relies on. -/
structure Consistent (r : RpmCalculator) : Prop where
  one : r.isStopped.toNat + r.isCranking.toNat + r.isRunning.toNat = 1
  turning : r.isCranking = true ∨ r.isRunning = true → 0 < r.cachedRpmValue
  stopped : r.state = .stopped → r.cachedRpmValue = 0

/-- A running engine runs on or stops. -/
def RunsOn (r r' : RpmCalculator) : Prop :=
  r.state = .running → r'.state = .running ∨ r'.state = .stopped

/-- The speed goes with the state; it is open only while the engine spins up. -/
structure Sound (r : RpmCalculator) : Prop where
  nonneg : 0 ≤ r.cachedRpmValue
  stopped : r.state = .stopped → r.cachedRpmValue = 0
  turning : r.state = .cranking ∨ r.state = .running → 0 < r.cachedRpmValue

theorem Sound.consistent {r : RpmCalculator} (sound : r.Sound) : r.Consistent := by
  obtain ⟨nonneg, stopped, turning⟩ := sound
  cases state : r.state with
  | stopped =>
    have zero := stopped state
    exact ⟨by simp [isStopped, isCranking, isRunning, state], by simp [isCranking, isRunning, state],
      fun _ => zero⟩
  | spinningUp =>
    rcases eq_or_lt_of_le nonneg with zero | positive
    · exact ⟨by simp [isStopped, isCranking, isRunning, state, ← zero],
        by simp [isCranking, isRunning, state, ← zero], by simp [state]⟩
    · exact ⟨by simp [isStopped, isCranking, isRunning, state, positive, positive.ne'],
        fun _ => positive, by simp [state]⟩
  | cranking =>
    have positive := turning (.inl state)
    exact ⟨by simp [isStopped, isCranking, isRunning, state], fun _ => positive, by simp [state]⟩
  | running =>
    have positive := turning (.inr state)
    exact ⟨by simp [isStopped, isCranking, isRunning, state], fun _ => positive, by simp [state]⟩

variable {r : RpmCalculator}

theorem Sound.congr {r' : RpmCalculator} (sound : r.Sound) (state : r'.state = r.state)
    (rpm : r'.cachedRpmValue = r.cachedRpmValue) : r'.Sound := by
  constructor
  · rw [rpm]
    exact sound.nonneg
  · rw [state, rpm]
    exact sound.stopped
  · rw [state, rpm]
    exact sound.turning

theorem setRpmValue_spec (r : RpmCalculator) (crankingRpm : Int) (value : ℚ) :
    ∃ rpm, rpm = (if value > maxAllowedRpm then 0 else value) ∧
      (r.setRpmValue crankingRpm value).cachedRpmValue = rpm ∧
      (r.setRpmValue crankingRpm value).state =
        if rpm = 0 then .stopped
        else if rpm ≥ crankingRpm then .running
        else if r.state = .stopped ∨ r.state = .spinningUp then .cranking
        else r.state := by
  refine ⟨_, rfl, ?_⟩
  unfold setRpmValue
  generalize (if value > maxAllowedRpm then 0 else value) = rpm
  have rpmOf : (r.assignRpmValue rpm).cachedRpmValue = rpm := rfl
  have stateOf : (r.assignRpmValue rpm).state = r.state := rfl
  simp only [rpmOf, stateOf]
  split_ifs <;> exact ⟨rfl, rfl⟩

/-- Whatever was before, a speed that is stored with its state fits it. -/
theorem setRpmValue_sound (r : RpmCalculator) (crankingRpm : Int) {value : ℚ} (nonneg : 0 ≤ value) :
    (r.setRpmValue crankingRpm value).Sound := by
  obtain ⟨rpm, same, cached, state⟩ := r.setRpmValue_spec crankingRpm value
  have small : 0 ≤ rpm := by
    rw [same]
    split
    · exact le_refl 0
    · exact nonneg
  rcases eq_or_lt_of_le small with zero | positive
  · rw [if_pos zero.symm] at state
    exact ⟨cached.symm ▸ small, fun _ => cached.trans zero.symm, by simp [state]⟩
  · rw [if_neg positive.ne'] at state
    constructor
    · exact cached.symm ▸ small
    · intro stopped
      rw [stopped] at state
      split_ifs at state with cranking starting
      exact absurd (.inl state.symm) starting
    · intro _
      exact cached.symm ▸ positive

theorem setRpmValue_runsOn (r : RpmCalculator) (crankingRpm : Int) (value : ℚ) :
    RunsOn r (r.setRpmValue crankingRpm value) := by
  intro running
  obtain ⟨rpm, -, -, state⟩ := r.setRpmValue_spec crankingRpm value
  rw [state, running]
  split_ifs with zero cranking starting
  · exact .inr rfl
  · exact .inl rfl
  · exact absurd starting (by decide)
  · exact .inl rfl

theorem setStopSpinning_sound (r : RpmCalculator) : r.setStopSpinning.Sound := by
  have zero : r.setStopSpinning.cachedRpmValue = 0 := by
    simp only [setStopSpinning]
    split_ifs with moving
    · rfl
    · exact not_ne_iff.mp moving
  have stopped : r.setStopSpinning.state = .stopped := rfl
  exact ⟨zero.ge, fun _ => zero, by simp [stopped]⟩

theorem Sound.setSpinningUp (sound : r.Sound) (faster : Bool) : (r.setSpinningUp faster).Sound := by
  unfold RpmCalculator.setSpinningUp
  split_ifs
  · exact sound
  · exact ⟨sound.nonneg, by simp, by simp⟩
  · exact sound

theorem setSpinningUp_runsOn (r : RpmCalculator) (faster : Bool) :
    RunsOn r (r.setSpinningUp faster) := by
  intro running
  simp [setSpinningUp, isStopped, running]

theorem Sound.onSlowCallback (sound : r.Sound) (moved instant : Bool) :
    (r.onSlowCallback moved instant).Sound := by
  unfold RpmCalculator.onSlowCallback
  have stopping : (if moved then r else r.setStopSpinning).Sound := by
    split_ifs
    · exact sound
    · exact r.setStopSpinning_sound
  simp only
  split_ifs at stopping ⊢ <;> exact stopping.congr rfl rfl

theorem onSlowCallback_runsOn (r : RpmCalculator) (moved instant : Bool) :
    RunsOn r (r.onSlowCallback moved instant) := by
  intro running
  have stops : r.setStopSpinning.state = .stopped := rfl
  simp only [onSlowCallback]
  split_ifs <;> simp [running, stops]

theorem getElapsedSeconds_nonneg (lastReset nowNt : Int) : 0 ≤ getElapsedSeconds lastReset nowNt := by
  unfold getElapsedSeconds
  simp only
  split_ifs with early
  · exact le_refl 0
  · have ticks : 0 ≤ min (nowNt - lastReset) (2 ^ 32 - 2) / usToNt :=
      Int.ediv_nonneg (by omega) (by decide)
    have whole : (0 : ℚ) ≤ (min (nowNt - lastReset) (2 ^ 32 - 2) / usToNt : Int) := by
      exact_mod_cast ticks
    positivity

theorem updateRpm_sound (r : RpmCalculator) (s : ShaftPosition) {periodSeconds : ℚ}
    (nonneg : 0 ≤ periodSeconds) : (r.updateRpm s periodSeconds).Sound := by
  unfold updateRpm
  split_ifs
  · exact (r.setRpmValue_sound s.crankingRpm le_rfl).congr rfl rfl
  · have cycle := TriggerWaveform.getEngineCycle_pos s.operationMode
    apply setRpmValue_sound
    positivity

theorem updateRpm_runsOn (r : RpmCalculator) (s : ShaftPosition) (periodSeconds : ℚ) :
    RunsOn r (r.updateRpm s periodSeconds) := by
  intro running
  unfold updateRpm
  split_ifs
  · exact r.setRpmValue_runsOn s.crankingRpm 0 running
  · exact setRpmValue_runsOn { r with rpmRate := _ } s.crankingRpm _ running

theorem Sound.onTdc (sound : r.Sound) (s : ShaftPosition) : (r.onTdc s).Sound := by
  have elapsed := getElapsedSeconds_nonneg r.lastTdcTimer s.timestamp
  unfold RpmCalculator.onTdc
  simp only
  split_ifs
  · exact (updateRpm_sound _ s elapsed).congr rfl rfl
  · exact sound.congr rfl rfl

theorem onTdc_runsOn (r : RpmCalculator) (s : ShaftPosition) : RunsOn r (r.onTdc s) := by
  intro running
  unfold onTdc
  simp only
  split_ifs
  · exact updateRpm_runsOn { r with lastTdcTimer := s.timestamp } s _ running
  · exact .inl running

theorem onTdc_instant {s : ShaftPosition} (instant : s.alwaysInstantRpm = true) :
    (r.onTdc s).state = r.state := by
  simp [onTdc, instant, onNewEngineCycle]

theorem Sound.rpmShaftPositionCallback (sound : r.Sound) (s : ShaftPosition) :
    (r.rpmShaftPositionCallback s).Sound := by
  have before : (if s.trgEventIndex = 0 then r.onTdc s else r).Sound := by
    split_ifs
    · exact sound.onTdc s
    · exact sound
  unfold RpmCalculator.rpmShaftPositionCallback
  generalize (if s.trgEventIndex = 0 then r.onTdc s else r) = r at before
  simp only
  split_ifs with instant spinning
  · exact r.setRpmValue_sound s.crankingRpm s.nonneg
  · have starting : r.state = .spinningUp := of_decide_eq_true spinning
    exact ⟨s.nonneg, by simp [assignRpmValue, starting], by simp [assignRpmValue, starting]⟩
  · exact before

theorem rpmShaftPositionCallback_runsOn (r : RpmCalculator) (s : ShaftPosition) :
    RunsOn r (r.rpmShaftPositionCallback s) := by
  intro running
  have before : RunsOn r (if s.trgEventIndex = 0 then r.onTdc s else r) := by
    split_ifs
    · exact r.onTdc_runsOn s
    · exact .inl
  have same : s.alwaysInstantRpm = true →
      (if s.trgEventIndex = 0 then r.onTdc s else r).state = .running := by
    intro instant
    split_ifs
    · exact (onTdc_instant instant).trans running
    · exact running
  have state := before running
  unfold rpmShaftPositionCallback
  generalize (if s.trgEventIndex = 0 then r.onTdc s else r) = r at state same
  simp only
  split_ifs with instant spinning
  · exact r.setRpmValue_runsOn s.crankingRpm s.instantRpm (same instant)
  · exact state
  · exact state

theorem Sound.step (sound : r.Sound) (e : RpmEvent) : (r.step e).Sound := by
  cases e with
  | setSpinningUp faster => exact sound.setSpinningUp faster
  | rpmShaftPositionCallback s => exact sound.rpmShaftPositionCallback s
  | onSlowCallback moved instant => exact sound.onSlowCallback moved instant
  | setStopSpinning => exact r.setStopSpinning_sound

theorem step_runsOn (r : RpmCalculator) (e : RpmEvent) : RunsOn r (r.step e) := by
  cases e with
  | setSpinningUp faster => exact r.setSpinningUp_runsOn faster
  | rpmShaftPositionCallback s => exact r.rpmShaftPositionCallback_runsOn s
  | onSlowCallback moved instant => exact r.onSlowCallback_runsOn moved instant
  | setStopSpinning => exact fun _ => .inr rfl

theorem new_sound : Sound {} := ⟨le_rfl, fun _ => rfl, by simp⟩

/-- In every run the engine is stopped, cranking or running and nothing else, it turns when
it cranks or runs and stands when it is stopped, and from running it only stops. -/
theorem states_consistent (events : List RpmEvent) :
    Always step Consistent {} events ∧ Guarded step (fun r e => RunsOn r (r.step e)) {} events := by
  have sound : Always step Sound {} events :=
    always_of_keeps (fun _ e sound => sound.step e) new_sound
  constructor
  · apply sound.mono
    intro r sound
    exact sound.consistent
  · exact guarded_of_all fun r e => r.step_runsOn e

end RpmCalculator

end FomeFw.Rpm
