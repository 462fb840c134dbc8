import FomeFw.Timer.ScheduleByAngle
import Mathlib.Logic.Function.Basic
import Mathlib.Data.Rat.Floor

/-! Pulse width modulation in software, `pwm_generator_logic.cpp`: an output toggles, and has
itself called again at the moment of the next toggle. The output of one channel is `SimplePwm`. -/
namespace FomeFw.Timer

/-- `PWM_PHASE_MAX_COUNT`. -/
abbrev pwmPhaseMaxCount : Nat := 280

inductive PwmMode where
  | zero | normal | full
  deriving DecidableEq, Repr

/-- `MultiChannelStateSequence`. The switch times are fractions of the period. -/
structure PwmSequence where
  phaseCount : Nat
  waveCount : Nat
  getSwitchTime : Nat → ℚ

def PwmSequence.setSwitchTime (seq : PwmSequence) (phaseIndex : Nat) (value : ℚ) : PwmSequence :=
  { seq with getSwitchTime := Function.update seq.getSwitchTime phaseIndex value }

/-- `pwm_config_safe_state_s`. -/
structure PwmSafeState where
  periodNt : ℚ := 0
  iteration : Int := 0
  startNt : Tick := 0
  phaseIndex : Nat := 0

/-- Warnings and messages of `firmwareError`, with their arguments. -/
inductive PwmError where
  | dutyInvalid
  | dutyTooLow (dutyCycle : ℚ)
  | dutyTooHigh (dutyCycle : ℚ)
  | phaseIndexRange
  | handleCycleStart (phaseIndex : Nat)
  | periodNotInitialized
  | iterationLimitInvalid
  | nestingIssue
  | periodIsNotInitialized
  | signalLengthZero
  | tooManyPhases
  | waveCountNotPositive
  | dutyAssert
  | lowFrequency (frequency : ℚ)
  deriving DecidableEq

/-- A call of one of the callbacks. -/
inductive PwmCall where
  | cycle
  | stateChange (stateIndex : Nat)
  deriving DecidableEq

structure PwmConfig where
  mode : PwmMode := .normal
  isStopRequested : Bool := false
  multiChannelStateSequence : PwmSequence
  dbgNestingLevel : Int := 0
  safe : PwmSafeState := {}
  /-- None for NAN, with which the output is paused. -/
  periodNt : Option ℚ := none
  forceCycleStart : Bool := true
  /-- Whether the callbacks are set. -/
  pwmCycleCallback : Bool := false
  stateChangeCallback : Bool := false
  /-- What was reported and called so far; no function reads it. -/
  errors : List PwmError := []
  calls : List PwmCall := []

namespace PwmConfig

def error (c : PwmConfig) (e : PwmError) : PwmConfig := { c with errors := c.errors ++ [e] }

def changeState (c : PwmConfig) (stateIndex : Nat) : PwmConfig :=
  if c.stateChangeCallback then { c with calls := c.calls ++ [.stateChange stateIndex] } else c

/-- Duty cycles outside the range are reported and clamped. -/
def clampDuty (c : PwmConfig) (dutyCycle : ℚ) : ℚ × PwmConfig :=
  if dutyCycle < 0 then (0, c.error (.dutyTooLow dutyCycle))
  else if dutyCycle > 1 then (1, c.error (.dutyTooHigh dutyCycle))
  else (dutyCycle, c)

/-- Handle near-zero and near-full duty cycle. This will cause the PWM output to behave like a
plain digital output. -/
def applyDuty (c : PwmConfig) (dutyCycle : ℚ) : PwmConfig :=
  if dutyCycle < 1 / 100 then changeState { c with mode := .zero } 0
  else if dutyCycle > 99 / 100 then changeState { c with mode := .full } 1
  else
    { c with
      mode := .normal
      multiChannelStateSequence := c.multiChannelStateSequence.setSwitchTime 0 dutyCycle }

/-- `SimplePwm::setSimplePwmDutyCycle`. A duty cycle that is not a number is none. -/
def setSimplePwmDutyCycle (c : PwmConfig) (dutyCycle : Option ℚ) : PwmConfig :=
  if c.isStopRequested then c
  else
    match dutyCycle with
    | none => c.error .dutyInvalid
    | some dutyCycle => (c.clampDuty dutyCycle).2.applyDuty (c.clampDuty dutyCycle).1

/-- A frequency that is not a number is none; that of 0, whose period is infinite, is not modelled. -/
def setFrequency (c : PwmConfig) (port : Port) (frequency : Option ℚ) : PwmConfig :=
  match frequency with
  | none => { c with periodNt := none }
  | some frequency => { c with periodNt := some (1000000 / frequency * port.usToNt) }

def stop (c : PwmConfig) : PwmConfig := { c with isStopRequested := true }

/-- PM_ZERO and PM_FULL are handled separately. -/
def switchTime (c : PwmConfig) : ℚ :=
  if c.mode = .normal then c.multiChannelStateSequence.getSwitchTime c.safe.phaseIndex else 1

def timeToSwitch (c : PwmConfig) : ℚ := (c.safe.iteration + c.switchTime) * c.safe.periodNt

/-- Returns absolute timestamp of state change, and 0 when the assertion fails. -/
def getNextSwitchTimeNt (c : PwmConfig) : Tick × PwmConfig :=
  if c.safe.phaseIndex < pwmPhaseMaxCount then
    (c.safe.startNt + truncate c.timeToSwitch % 2 ^ 32, c)
  else (0, c.error .phaseIndexRange)

/-- The maximum number of iterations without overflowing an `uint32_t` worth of timestamp, and
without losing precision. -/
def iterationLimit (periodNt : ℚ) : Int := min (truncate (0xFFFFFFFF / periodNt - 2)) 838

def handleCycleStart (c : PwmConfig) (periodNt : ℚ) (nowNt : Tick) : PwmConfig :=
  if c.safe.phaseIndex ≠ 0 then c.error (.handleCycleStart c.safe.phaseIndex)
  else
    let c := if c.pwmCycleCallback then { c with calls := c.calls ++ [.cycle] } else c
    if periodNt = 0 then c.error .periodNotInitialized
    else if iterationLimit periodNt ≤ 0 then c.error .iterationLimitInvalid
    else if c.forceCycleStart ∨ c.safe.periodNt ≠ periodNt ∨
        c.safe.iteration = iterationLimit periodNt then
      -- period length has changed - we need to reset internal state
      { c with
        safe := { c.safe with startNt := nowNt, iteration := 0, periodNt := periodNt }
        forceCycleStart := false }
    else c

/-- Callback state index is offset by one. -/
def cbStateIndex (c : PwmConfig) : Nat :=
  match c.mode with
  | .normal =>
    if c.safe.phaseIndex = 0 then c.multiChannelStateSequence.phaseCount - 1
    else c.safe.phaseIndex - 1
  | .zero => 0
  | .full => 1

/-- What a toggle does once the moment of the next one is known. -/
def advance (c : PwmConfig) (isVeryBehindSchedule : Bool) : PwmConfig :=
  let phaseIndex := c.safe.phaseIndex + 1
  if isVeryBehindSchedule ∨ phaseIndex = c.multiChannelStateSequence.phaseCount ∨ c.mode ≠ .normal then
    { c with
      safe := { c.safe with phaseIndex := 0, iteration := c.safe.iteration + 1 }
      forceCycleStart := c.forceCycleStart || isVeryBehindSchedule }
  else { c with safe := { c.safe with phaseIndex := phaseIndex } }

/-- The start of a cycle, where one starts. In case of ZERO or FULL we are always at starting
index. -/
def startCycle (c : PwmConfig) (periodNt : ℚ) (nowNt : Tick) : PwmConfig :=
  let c := if c.mode ≠ .normal then { c with safe := { c.safe with phaseIndex := 0 } } else c
  if c.safe.phaseIndex = 0 then c.handleCycleStart periodNt nowNt else c

/-- The toggle of an output with a period. The clock is read when the cycle starts, and again
at the end. -/
def toggle (c : PwmConfig) (port : Port) (periodNt : ℚ) (nowNt laterNt : Tick) : Tick × PwmConfig :=
  let c := c.startCycle periodNt nowNt
  let c := c.changeState c.cbStateIndex
  let (nextSwitchTimeNt, c) := c.getNextSwitchTimeNt
  (nextSwitchTimeNt, c.advance (nextSwitchTimeNt < laterNt - port.us2nt 10000))

/-- Next time for signal toggle, and 0 when the output was stopped. -/
def togglePwmState (c : PwmConfig) (port : Port) (nowNt laterNt : Tick) : Tick × PwmConfig :=
  if c.isStopRequested then (0, c)
  else
    match c.periodNt with
    -- NaN period means PWM is paused, we also set the pin low
    | none => (nowNt + port.us2nt 100000, c.changeState 0)
    | some periodNt => c.toggle port periodNt nowNt laterNt

/-- `weComplexInit` up to its call of `timerCallback`, which is not made where it reports an
error. The sequence of a `SimplePwm` is its own. -/
def weComplexInit (c : PwmConfig) (seq : PwmSequence) (pwmCycleCallback stateChangeCallback : Bool) :
    Bool × PwmConfig :=
  let c := { c with isStopRequested := false }
  if c.periodNt = some 0 then (false, c.error .periodIsNotInitialized)
  else if seq.phaseCount = 0 then (false, c.error .signalLengthZero)
  else if seq.phaseCount > pwmPhaseMaxCount then (false, c.error .tooManyPhases)
  else if seq.waveCount = 0 then (false, c.error .waveCountNotPositive)
  else
    (true,
      { c with
        pwmCycleCallback := pwmCycleCallback
        stateChangeCallback := stateChangeCallback
        multiChannelStateSequence := seq
        safe := { c.safe with phaseIndex := 0, periodNt := -1, iteration := -1 } })

/-- `startSimplePwm`, in the same way. -/
def startSimplePwm (c : PwmConfig) (port : Port) (frequency dutyCycle : ℚ) : Bool × PwmConfig :=
  if ¬ (0 ≤ dutyCycle ∧ dutyCycle ≤ 1) then (false, c.error .dutyAssert)
  else if frequency < 1 then (false, c.error (.lowFrequency frequency))
  else
    let seq := (c.multiChannelStateSequence.setSwitchTime 0 dutyCycle).setSwitchTime 1 1
    let c := { c with multiChannelStateSequence := seq }
    let c := (c.setFrequency port (some frequency)).setSimplePwmDutyCycle (some dutyCycle)
    c.weComplexInit c.multiChannelStateSequence false true

end PwmConfig

/-- The constructors of a `SimplePwm`. -/
def SimplePwm.new : PwmConfig where
  multiChannelStateSequence := { phaseCount := 2, waveCount := 1, getSwitchTime := fun _ => 0 }

/-- The port of the microcontroller. -/
def stm32 : Port := ⟨4, Port.four_positive⟩

/-! ## What a toggle leaves alone -/

namespace PwmConfig

variable {c c' c'' : PwmConfig} {port : Port} {p : ℚ} {nowNt laterNt : Tick}

theorem togglePwmState_stopped (stopped : c.isStopRequested = true) :
    c.togglePwmState port nowNt laterNt = (0, c) := by
  rw [togglePwmState, if_pos stopped]

theorem togglePwmState_paused (goes : c.isStopRequested = false) (paused : c.periodNt = none) :
    c.togglePwmState port nowNt laterNt = (nowNt + port.us2nt 100000, c.changeState 0) := by
  simp [togglePwmState, goes, paused]

theorem togglePwmState_running (goes : c.isStopRequested = false) (period : c.periodNt = some p) :
    c.togglePwmState port nowNt laterNt = c.toggle port p nowNt laterNt := by
  simp [togglePwmState, goes, period]

/-- Toggles change the state of the cycle, and what was reported and called. -/
structure Frame (c c' : PwmConfig) : Prop where
  mode : c'.mode = c.mode
  sequence : c'.multiChannelStateSequence = c.multiChannelStateSequence
  level : c'.dbgNestingLevel = c.dbgNestingLevel
  stopped : c'.isStopRequested = c.isStopRequested
  period : c'.periodNt = c.periodNt
  nesting : .nestingIssue ∈ c'.errors ↔ .nestingIssue ∈ c.errors

theorem Frame.refl (c : PwmConfig) : Frame c c := ⟨rfl, rfl, rfl, rfl, rfl, Iff.rfl⟩

theorem Frame.trans (first : Frame c c') (second : Frame c' c'') : Frame c c'' where
  mode := second.mode.trans first.mode
  sequence := second.sequence.trans first.sequence
  level := second.level.trans first.level
  stopped := second.stopped.trans first.stopped
  period := second.period.trans first.period
  nesting := second.nesting.trans first.nesting

theorem frame_error (c : PwmConfig) {e : PwmError} (other : e ≠ .nestingIssue) : Frame c (c.error e) := by
  refine ⟨rfl, rfl, rfl, rfl, rfl, ?_⟩
  simp [error, other.symm]

theorem frame_changeState (c : PwmConfig) (stateIndex : Nat) : Frame c (c.changeState stateIndex) := by
  rw [changeState]
  split
  · exact ⟨rfl, rfl, rfl, rfl, rfl, Iff.rfl⟩
  · exact .refl c

theorem frame_advance (c : PwmConfig) (late : Bool) : Frame c (c.advance late) := by
  rw [advance]
  split <;> exact ⟨rfl, rfl, rfl, rfl, rfl, Iff.rfl⟩

theorem advance_index (c : PwmConfig) (late : Bool)
    (inside : c.safe.phaseIndex < c.multiChannelStateSequence.phaseCount) :
    (c.advance late).safe.phaseIndex < c.multiChannelStateSequence.phaseCount := by
  rw [advance]
  split
  · exact Nat.zero_lt_of_lt inside
  · next goesOn =>
    rw [not_or, not_or] at goesOn
    exact Nat.lt_of_le_of_ne inside goesOn.2.1

@[simp] theorem advance_startNt (c : PwmConfig) (late : Bool) :
    (c.advance late).safe.startNt = c.safe.startNt := by
  rw [advance]
  split <;> rfl

@[simp] theorem changeState_safe (c : PwmConfig) (i : Nat) : (c.changeState i).safe = c.safe := by
  rw [changeState]
  split <;> rfl

@[simp] theorem changeState_forceCycleStart (c : PwmConfig) (i : Nat) :
    (c.changeState i).forceCycleStart = c.forceCycleStart := by
  rw [changeState]
  split <;> rfl

/-- What a new duty cycle changes: the mode, and the first switch time. -/
structure DutySet (c c' : PwmConfig) : Prop where
  safe : c'.safe = c.safe
  level : c'.dbgNestingLevel = c.dbgNestingLevel
  stopped : c'.isStopRequested = c.isStopRequested
  period : c'.periodNt = c.periodNt
  nesting : .nestingIssue ∈ c'.errors ↔ .nestingIssue ∈ c.errors
  sequence : c'.multiChannelStateSequence = c.multiChannelStateSequence ∨
    ∃ d, (0 ≤ d ∧ d ≤ 1) ∧ c'.multiChannelStateSequence = c.multiChannelStateSequence.setSwitchTime 0 d

theorem Frame.dutySet (frame : Frame c c') (safe : c'.safe = c.safe) : DutySet c c' :=
  ⟨safe, frame.level, frame.stopped, frame.period, frame.nesting, .inl frame.sequence⟩

theorem Frame.then_dutySet (frame : Frame c c') (safe : c'.safe = c.safe) (set : DutySet c' c'') :
    DutySet c c'' where
  safe := set.safe.trans safe
  level := set.level.trans frame.level
  stopped := set.stopped.trans frame.stopped
  period := set.period.trans frame.period
  nesting := set.nesting.trans frame.nesting
  sequence := frame.sequence ▸ set.sequence

theorem clampDuty_mem (c : PwmConfig) (dutyCycle : ℚ) :
    0 ≤ (c.clampDuty dutyCycle).1 ∧ (c.clampDuty dutyCycle).1 ≤ 1 := by
  rw [clampDuty]
  split
  · exact ⟨le_rfl, zero_le_one⟩
  · next least =>
    split
    · exact ⟨zero_le_one, le_rfl⟩
    · next most => exact ⟨not_lt.mp least, not_lt.mp most⟩

theorem clampDuty_frame (c : PwmConfig) (dutyCycle : ℚ) :
    (c.clampDuty dutyCycle).2.safe = c.safe ∧ Frame c (c.clampDuty dutyCycle).2 := by
  rw [clampDuty]
  split
  · exact ⟨rfl, frame_error c (by simp)⟩
  · split
    · exact ⟨rfl, frame_error c (by simp)⟩
    · exact ⟨rfl, .refl c⟩

theorem dutySet_mode (c : PwmConfig) (mode : PwmMode) (i : Nat) :
    DutySet c (changeState { c with mode := mode } i) := by
  have frame := frame_changeState { c with mode := mode } i
  exact ⟨changeState_safe _ i, frame.level, frame.stopped, frame.period, frame.nesting,
    .inl frame.sequence⟩

theorem dutySet_applyDuty (c : PwmConfig) {dutyCycle : ℚ} (range : 0 ≤ dutyCycle ∧ dutyCycle ≤ 1) :
    DutySet c (c.applyDuty dutyCycle) := by
  rw [applyDuty]
  split
  · exact dutySet_mode c .zero 0
  · split
    · exact dutySet_mode c .full 1
    · exact ⟨rfl, rfl, rfl, rfl, Iff.rfl, .inr ⟨dutyCycle, range, rfl⟩⟩

theorem dutySet_setSimplePwmDutyCycle (c : PwmConfig) (dutyCycle : Option ℚ) :
    DutySet c (c.setSimplePwmDutyCycle dutyCycle) := by
  simp only [setSimplePwmDutyCycle]
  split
  · exact (Frame.refl c).dutySet rfl
  · cases dutyCycle with
    | none => exact (frame_error c (by simp)).dutySet rfl
    | some dutyCycle =>
      obtain ⟨safe, clamped⟩ := clampDuty_frame c dutyCycle
      exact clamped.then_dutySet safe (dutySet_applyDuty _ (clampDuty_mem c dutyCycle))

theorem Frame.timeToSwitch (frame : Frame c c') (safe : c'.safe = c.safe) :
    c'.timeToSwitch = c.timeToSwitch := by
  simp only [PwmConfig.timeToSwitch, PwmConfig.switchTime, frame.mode, frame.sequence, safe]

theorem Frame.advance (frame : Frame c c') (safe : c'.safe = c.safe)
    (force : c'.forceCycleStart = c.forceCycleStart) (late : Bool) :
    (c'.advance late).safe = (c.advance late).safe ∧
      (c'.advance late).forceCycleStart = (c.advance late).forceCycleStart := by
  simp only [PwmConfig.advance, frame.mode, frame.sequence, safe, force]
  split
  all_goals exact ⟨rfl, rfl⟩

/-- How a cycle start goes: the cycle begins anew, or it is left as it was. It is left where the
period has not changed and the limit is not reached, and where something is wrong. -/
inductive CycleStart (c : PwmConfig) (p : ℚ) (nowNt : Tick) (c' : PwmConfig) : Prop
  | anew (safe : c'.safe = { periodNt := p, iteration := 0, startNt := nowNt, phaseIndex := 0 })
      (force : c'.forceCycleStart = false) (period : p ≠ 0) (limit : 0 < iterationLimit p)
  | goesOn (safe : c'.safe = c.safe) (force : c'.forceCycleStart = c.forceCycleStart)
      (unchanged : c.safe.phaseIndex = 0 → p ≠ 0 → 0 < iterationLimit p →
        c.forceCycleStart = false ∧ c.safe.periodNt = p ∧ c.safe.iteration ≠ iterationLimit p)

theorem frame_cycleCallback (c : PwmConfig) :
    Frame c (if c.pwmCycleCallback then { c with calls := c.calls ++ [.cycle] } else c) := by
  split
  · exact ⟨rfl, rfl, rfl, rfl, rfl, Iff.rfl⟩
  · exact .refl c

theorem handleCycleStart_cases (c : PwmConfig) (p : ℚ) (nowNt : Tick) :
    CycleStart c p nowNt (c.handleCycleStart p nowNt) ∧ Frame c (c.handleCycleStart p nowNt) := by
  rw [handleCycleStart]
  split
  · next inside => exact ⟨.goesOn rfl rfl fun start => absurd start inside, frame_error c (by simp)⟩
  · next start =>
    have called := frame_cycleCallback c
    have safe : (if c.pwmCycleCallback then { c with calls := c.calls ++ [.cycle] } else c).safe =
        c.safe := by split <;> rfl
    have force : (if c.pwmCycleCallback then { c with calls := c.calls ++ [.cycle] } else
        c).forceCycleStart = c.forceCycleStart := by split <;> rfl
    revert called safe force
    generalize (if c.pwmCycleCallback then { c with calls := c.calls ++ [.cycle] } else c) = d
    intro called safe force
    have first : d.safe.phaseIndex = 0 := by rw [safe]; exact not_not.mp start
    by_cases zero : p = 0
    · rw [if_pos zero]
      exact ⟨.goesOn safe force fun _ period => absurd zero period,
        called.trans (frame_error d (by simp))⟩
    rw [if_neg zero]
    by_cases limit : iterationLimit p ≤ 0
    · rw [if_pos limit]
      exact ⟨.goesOn safe force fun _ _ positive => absurd positive (not_lt.mpr limit),
        called.trans (frame_error d (by simp))⟩
    rw [if_neg limit]
    split
    · refine ⟨.anew ?_ rfl zero (not_le.mp limit), called.trans ⟨rfl, rfl, rfl, rfl, rfl, Iff.rfl⟩⟩
      simp [first]
    · next same =>
      rw [not_or, not_or, not_not, safe, force] at same
      exact ⟨.goesOn safe force fun _ _ _ => ⟨by simpa using same.1, same.2.1, same.2.2⟩, called⟩

/-- The index at which a toggle starts. -/
def startIndex (c : PwmConfig) : Nat := if c.mode = .normal then c.safe.phaseIndex else 0

theorem startCycle_cases (c : PwmConfig) (p : ℚ) (nowNt : Tick) :
    CycleStart { c with safe := { c.safe with phaseIndex := c.startIndex } } p nowNt
      (c.startCycle p nowNt) ∧ Frame c (c.startCycle p nowNt) := by
  have index : (if c.mode ≠ .normal then { c with safe := { c.safe with phaseIndex := 0 } } else c) =
      { c with safe := { c.safe with phaseIndex := c.startIndex } } := by
    rw [startIndex]
    split
    · next => rfl
    · next normal => rw [if_pos (not_not.mp normal)]
  have frame : Frame c { c with safe := { c.safe with phaseIndex := c.startIndex } } :=
    ⟨rfl, rfl, rfl, rfl, rfl, Iff.rfl⟩
  rw [startCycle, index]
  split
  · obtain ⟨start, frame'⟩ :=
      handleCycleStart_cases { c with safe := { c.safe with phaseIndex := c.startIndex } } p nowNt
    exact ⟨start, frame.trans frame'⟩
  · next inside => exact ⟨.goesOn rfl rfl fun first => absurd first inside, frame⟩

/-- The moment of the next toggle, and what the index and the iteration become. -/
theorem toggle_spec (inRange : (c.startCycle p nowNt).safe.phaseIndex < pwmPhaseMaxCount) :
    (c.toggle port p nowNt laterNt).1 =
        (c.startCycle p nowNt).safe.startNt + truncate (c.startCycle p nowNt).timeToSwitch % 2 ^ 32 ∧
      ∃ late, (c.toggle port p nowNt laterNt).2.safe = ((c.startCycle p nowNt).advance late).safe ∧
        (c.toggle port p nowNt laterNt).2.forceCycleStart =
          ((c.startCycle p nowNt).advance late).forceCycleStart ∧
        Frame c (c.toggle port p nowNt laterNt).2 := by
  have started := (startCycle_cases c p nowNt).2
  rw [toggle]
  revert started inRange
  generalize c.startCycle p nowNt = d
  intro inRange started
  have changed := frame_changeState d d.cbStateIndex
  have inside : (d.changeState d.cbStateIndex).safe.phaseIndex < pwmPhaseMaxCount := by
    rwa [changeState_safe]
  have time := changed.timeToSwitch (changeState_safe d d.cbStateIndex)
  rw [getNextSwitchTimeNt, if_pos inside, time, changeState_safe]
  have advanced := changed.advance (changeState_safe d d.cbStateIndex)
    (changeState_forceCycleStart d d.cbStateIndex)
    (d.safe.startNt + truncate d.timeToSwitch % 2 ^ 32 < laterNt - port.us2nt 10000)
  exact ⟨rfl, _, advanced.1, advanced.2, started.trans (changed.trans (frame_advance _ _))⟩

end PwmConfig

end FomeFw.Timer
