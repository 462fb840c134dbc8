import FomeFw.Lib.Machine
import Mathlib.Data.Rat.Floor
import Mathlib.Algebra.Order.Round
import Mathlib.Tactic.Linarith

/-! `stepper.cpp`: the idle valve is moved step by step, and the controller only counts. The count is
kept in the backup RAM over a restart. -/
namespace FomeFw.Hardware

structure StepperConfig where
  idleStepperTotalSteps : Nat
  stepperParkingExtraSteps : Nat
  stepperForceParkingEveryRestart : Bool
  minStepperVoltage : ℚ

namespace StepperConfig

/-- `m_totalSteps`. -/
def totalSteps (config : StepperConfig) : Nat := max 3 config.idleStepperTotalSteps

end StepperConfig

/-- `efiRound` to whole numbers: halves go away from zero. -/
def efiRound (value : ℚ) : Int := if 0 ≤ value then ⌊value + 1 / 2⌋ else ⌈value - 1 / 2⌉

def numParkingSteps (config : StepperConfig) : Nat :=
  (efiRound ((1 + (config.stepperParkingExtraSteps : ℚ) / 100) * config.totalSteps)).toNat

/-- What an iteration reads; the relay is asked again for each step. -/
structure StepperInputs where
  isMainRelayEnabled : Bool
  batteryVoltage : ℚ
  isRunning : Bool
  driverThrottleIntent : ℚ
  relayAtStep : Bool

/-- `STEPPER_PARKING_TPS`. -/
def stepperParkingTps : ℚ := 90

/-- Where the thread is: before an iteration, in the loop that parks the valve, or behind a step that
is not counted yet. -/
inductive StepperPhase where
  | ready
  | parking (left : Nat)
  | moved (isIncrementing : Bool)
  deriving DecidableEq

structure StepperMotor where
  phase : StepperPhase := .ready
  currentPosition : Int := 0
  targetPosition : ℚ := 0
  initialPositionSet : Bool := false
  isBusy : Bool := false
  deriving DecidableEq

/-- The motor with `StepperPosition` of the backup RAM, and where the valve really is. -/
structure Valve where
  motor : StepperMotor := {}
  savedPosition : Int := 0
  valve : Int

namespace StepperMotor

/-- Small changes are ignored. -/
def setTargetPosition (m : StepperMotor) (targetPositionSteps : ℚ) : StepperMotor :=
  if 1 ≤ |m.targetPosition - targetPositionSteps| then { m with targetPosition := targetPositionSteps }
  else m

end StepperMotor

namespace Valve

def saveStepperPos (v : Valve) (pos : Int) : Valve := { v with savedPosition := pos + 1 }

def loadStepperPos (v : Valve) : Int := v.savedPosition - 1

/-- A step of the valve between its ends. -/
def move (travel : Nat) (valve : Int) (positive : Bool) : Int :=
  max 0 (min travel (if positive then valve + 1 else valve - 1))

/-- The first part of `setInitialPosition`, up to the loop. -/
def setInitialPosition (config : StepperConfig) (v : Valve) (i : StepperInputs) : Valve :=
  let v := { v with motor := { v.motor with currentPosition := v.loadStepperPos } }
  let forceStepperParking :=
    (!i.isRunning && stepperParkingTps < i.driverThrottleIntent) || config.stepperForceParkingEveryRestart
  if v.motor.currentPosition < 0 || forceStepperParking then
    let v := v.saveStepperPos (-1)
    { v with motor := { v.motor with phase := .parking (numParkingSteps config) } }
  else
    { v with motor :=
      { v.motor.setTargetPosition v.motor.currentPosition with initialPositionSet := true } }

/-- `doIteration`, up to where the thread waits for the motor. -/
def doIteration (config : StepperConfig) (travel : Nat) (v : Valve) (i : StepperInputs) : Valve :=
  let targetPosition := efiRound v.motor.targetPosition
  let currentPosition := v.motor.currentPosition
  if !i.isMainRelayEnabled || i.batteryVoltage < config.minStepperVoltage then v
  else if !v.motor.initialPositionSet then v.setInitialPosition config i
  else if targetPosition = currentPosition then { v with motor := { v.motor with isBusy := false } }
  else
    let v := { v with motor := { v.motor with isBusy := true } }
    let isIncrementing : Bool := currentPosition < targetPosition
    if i.relayAtStep then
      { v with
        valve := move travel v.valve isIncrementing
        motor := { v.motor with phase := .moved isIncrementing } }
    else v.saveStepperPos v.motor.currentPosition

/-- The loop takes a step back, or gives up without power; behind the last step the valve is at zero. -/
def park (travel : Nat) (v : Valve) (relayAtStep : Bool) : Nat → Valve
  | 0 =>
    let v := { v with
      motor := { v.motor with phase := .ready, currentPosition := 0, initialPositionSet := true } }
    v.saveStepperPos 0
  | left + 1 =>
    if relayAtStep then
      { v with
        valve := move travel v.valve false
        motor := { v.motor with phase := .parking left, currentPosition := v.motor.currentPosition - 1 } }
    else { v with motor := { v.motor with phase := .ready, initialPositionSet := false } }

/-- The step is counted and saved. -/
def count (v : Valve) (isIncrementing : Bool) : Valve :=
  let currentPosition := if isIncrementing then v.motor.currentPosition + 1 else v.motor.currentPosition - 1
  let v := { v with motor := { v.motor with phase := .ready, currentPosition } }
  v.saveStepperPos currentPosition

end Valve

inductive StepperEvent where
  /-- The thread goes on. -/
  | thread (i : StepperInputs)
  | setTargetPosition (targetPositionSteps : ℚ)
  /-- The controller restarts; the backup RAM may be lost with the battery. -/
  | restart (keepsBackup : Bool)

def Valve.step (config : StepperConfig) (travel : Nat) (v : Valve) : StepperEvent → Valve
  | .thread i =>
    match v.motor.phase with
    | .ready => v.doIteration config travel i
    | .parking left => v.park travel i.relayAtStep left
    | .moved isIncrementing => v.count isIncrementing
  | .setTargetPosition targetPositionSteps =>
    { v with motor := v.motor.setTargetPosition targetPositionSteps }
  | .restart keepsBackup =>
    { v with motor := {}, savedPosition := if keepsBackup then v.savedPosition else 0 }

/-! ## How far the count may be wrong -/

/-- How often the controller restarted behind a step that was not counted, since it last found zero. -/
def slips (v : Valve) (before : Nat) : StepperEvent → Nat
  | .thread _ => if v.motor.phase = .parking 0 then 0 else before
  | .setTargetPosition _ => before
  | .restart _ => if v.motor.phase = .moved true ∨ v.motor.phase = .moved false then before + 1 else before

/-- A run with the slips in it. -/
def slipped (config : StepperConfig) (travel : Nat) (v : Valve) (before : Nat) :
    List StepperEvent → Valve × Nat
  | [] => (v, before)
  | e :: events => slipped config travel (v.step config travel e) (slips v before e) events

section Rounding

variable {value : ℚ} {n : Nat}

theorem efiRound_nonneg (positive : 0 ≤ value) : 0 ≤ efiRound value := by
  rw [efiRound, if_pos positive]
  exact Int.floor_nonneg.mpr (by linarith)

theorem efiRound_le (positive : 0 ≤ value) (bounded : value ≤ n) : efiRound value ≤ n := by
  rw [efiRound, if_pos positive]
  have below : value + 1 / 2 < (n + 1 : Int) := by
    push_cast
    linarith
  have floor := Int.floor_lt.mpr below
  omega

theorem le_efiRound (above : (n : ℚ) ≤ value) : n ≤ efiRound value := by
  have positive : 0 ≤ value := le_trans (Nat.cast_nonneg n) above
  rw [efiRound, if_pos positive]
  exact Int.le_floor.mpr (by push_cast; linarith)

/-- The valve is parked by at least all of its steps. -/
theorem totalSteps_le_numParkingSteps (config : StepperConfig) :
    config.totalSteps ≤ numParkingSteps config := by
  have extra : 0 ≤ (config.stepperParkingExtraSteps : ℚ) / 100 * config.totalSteps := by positivity
  have above : (config.totalSteps : ℚ) ≤
      (1 + (config.stepperParkingExtraSteps : ℚ) / 100) * config.totalSteps := by linarith
  have rounded := le_efiRound above
  rw [numParkingSteps]
  omega

end Rounding

section Tracking

variable {config : StepperConfig} {travel slipCount : Nat} {v : Valve}

/-- The count is on the scale, is the one saved, and differs from the valve by no more than the slips. -/
structure Tracks (config : StepperConfig) (valve : Int) (slipCount : Nat) (position : Int) : Prop where
  low : 0 ≤ position
  high : position ≤ config.totalSteps
  near : |position - valve| ≤ slipCount

/-- What the count is worth in each phase. -/
def Valve.Kept (config : StepperConfig) (v : Valve) (slipCount : Nat) : Prop :=
  match v.motor.phase with
  | .ready =>
    if v.motor.initialPositionSet then
      v.savedPosition = v.motor.currentPosition + 1 ∧ Tracks config v.valve slipCount v.motor.currentPosition
    else v.savedPosition = 0 ∨ Tracks config v.valve slipCount (v.savedPosition - 1)
  | .parking left => v.motor.initialPositionSet = false ∧ v.savedPosition = 0 ∧ v.valve ≤ left
  | .moved isIncrementing =>
    v.motor.initialPositionSet = true ∧ v.savedPosition = v.motor.currentPosition + 1 ∧
      Tracks config v.valve (slipCount + 1) v.motor.currentPosition ∧
      Tracks config v.valve slipCount
        (if isIncrementing then v.motor.currentPosition + 1 else v.motor.currentPosition - 1)

structure Valve.Sound (config : StepperConfig) (travel : Nat) (v : Valve) (slipCount : Nat) : Prop where
  target : 0 ≤ v.motor.targetPosition ∧ v.motor.targetPosition ≤ config.totalSteps
  ends : 0 ≤ v.valve ∧ v.valve ≤ travel
  kept : v.Kept config slipCount

/-- The idle controller asks for positions on the scale. -/
def StepperEvent.OnScale (config : StepperConfig) : StepperEvent → Prop
  | .setTargetPosition q => 0 ≤ q ∧ q ≤ config.totalSteps
  | _ => True

theorem move_ends (travel : Nat) (valve : Int) (positive : Bool) :
    0 ≤ Valve.move travel valve positive ∧ Valve.move travel valve positive ≤ travel := by
  rw [Valve.move]
  omega

/-- At the ends of the scale the valve comes nearer to the count, not farther away. -/
theorem move_near {position : Int} {positive : Bool} (near : |position - v.valve| ≤ slipCount)
    (low : 0 ≤ if positive then position + 1 else position - 1)
    (high : (if positive then position + 1 else position - 1) ≤ (travel : Int)) :
    |(if positive then position + 1 else position - 1) - Valve.move travel v.valve positive| ≤ slipCount := by
  rw [abs_le] at near ⊢
  rw [Valve.move]
  cases positive
  · rw [if_neg Bool.false_ne_true] at low high ⊢
    rw [if_neg Bool.false_ne_true]
    omega
  · rw [if_pos rfl] at low high ⊢
    rw [if_pos rfl]
    omega

theorem setTarget_sound (sound : v.Sound config travel slipCount) {q : ℚ} (low : 0 ≤ q)
    (high : q ≤ config.totalSteps) :
    ({ v with motor := v.motor.setTargetPosition q } : Valve).Sound config travel slipCount := by
  rw [StepperMotor.setTargetPosition]
  split
  · exact ⟨⟨low, high⟩, sound.ends, sound.kept⟩
  · exact sound

theorem park_sound (sound : v.Sound config travel slipCount) {left : Nat} (phase : v.motor.phase = .parking left)
    (relayAtStep : Bool) : (v.park travel relayAtStep left).Sound config travel
      (if left = 0 then 0 else slipCount) := by
  obtain ⟨target, ends, kept⟩ := sound
  rw [Valve.Kept, phase] at kept
  obtain ⟨unset, saved, near⟩ := kept
  cases left with
  | zero =>
    refine ⟨target, ends, rfl, le_rfl, Int.natCast_nonneg _, ?_⟩
    have zero : v.valve = 0 := by omega
    simp [Valve.park, Valve.saveStepperPos, zero]
  | succ left =>
    rw [Valve.park]
    cases relayAtStep
    · exact ⟨target, ends, .inl saved⟩
    · refine ⟨target, move_ends travel v.valve false, unset, saved, ?_⟩
      change Valve.move travel v.valve false ≤ left
      rw [Valve.move, if_neg Bool.false_ne_true]
      omega

theorem count_sound (sound : v.Sound config travel slipCount) {isIncrementing : Bool}
    (phase : v.motor.phase = .moved isIncrementing) :
    (v.count isIncrementing).Sound config travel slipCount := by
  obtain ⟨target, ends, kept⟩ := sound
  rw [Valve.Kept, phase] at kept
  obtain ⟨set, saved, -, next⟩ := kept
  refine ⟨target, ends, ?_⟩
  rw [Valve.Kept, Valve.count, Valve.saveStepperPos]
  dsimp only
  rw [if_pos set]
  exact ⟨rfl, next⟩

theorem setInitialPosition_sound (reaches : travel ≤ numParkingSteps config)
    (sound : v.Sound config travel slipCount) (phase : v.motor.phase = .ready)
    (unset : v.motor.initialPositionSet = false) (i : StepperInputs) :
    (v.setInitialPosition config i).Sound config travel slipCount := by
  obtain ⟨target, ends, kept⟩ := sound
  rw [Valve.Kept, phase] at kept
  dsimp only at kept
  rw [unset, if_neg Bool.false_ne_true] at kept
  rw [Valve.setInitialPosition, Valve.loadStepperPos]
  dsimp only
  split
  · exact ⟨target, ends, unset, rfl, by dsimp only [Valve.saveStepperPos]; omega⟩
  · next unforced =>
    have known : 0 ≤ v.savedPosition - 1 := by
      by_contra negative
      exact unforced (by simp [Int.not_le.mp negative])
    have tracks := kept.resolve_left (by omega)
    have onScale : (0 : ℚ) ≤ ((v.savedPosition - 1 : Int) : ℚ) ∧
        ((v.savedPosition - 1 : Int) : ℚ) ≤ config.totalSteps :=
      ⟨by exact_mod_cast tracks.low, by exact_mod_cast tracks.high⟩
    have saved : v.savedPosition = v.savedPosition - 1 + 1 := by omega
    rw [StepperMotor.setTargetPosition]
    split
    · refine ⟨onScale, ends, ?_⟩
      rw [Valve.Kept, phase]
      exact ⟨saved, tracks⟩
    · refine ⟨target, ends, ?_⟩
      rw [Valve.Kept, phase]
      exact ⟨saved, tracks⟩

theorem doIteration_sound (fits : config.totalSteps ≤ travel) (reaches : travel ≤ numParkingSteps config)
    (sound : v.Sound config travel slipCount) (phase : v.motor.phase = .ready) (i : StepperInputs) :
    (v.doIteration config travel i).Sound config travel slipCount := by
  rw [Valve.doIteration]
  dsimp only
  split
  · exact sound
  split
  · next unset => exact setInitialPosition_sound reaches sound phase (by simpa using unset) i
  next set =>
  rw [Bool.not_eq_true, Bool.not_eq_false'] at set
  obtain ⟨target, ends, kept⟩ := sound
  rw [Valve.Kept, phase] at kept
  dsimp only at kept
  rw [set, if_pos rfl] at kept
  obtain ⟨saved, tracks⟩ := kept
  have low := efiRound_nonneg target.1
  have high := efiRound_le target.1 target.2
  split
  · refine ⟨target, ends, ?_⟩
    rw [Valve.Kept, phase]
    dsimp only
    rw [if_pos set]
    exact ⟨saved, tracks⟩
  next away =>
  split
  · have within : Tracks config v.valve slipCount v.motor.currentPosition := tracks
    obtain ⟨lowNow, highNow, near⟩ := within
    have next : 0 ≤ (if decide (v.motor.currentPosition < efiRound v.motor.targetPosition) = true then
          v.motor.currentPosition + 1 else v.motor.currentPosition - 1) ∧
        (if decide (v.motor.currentPosition < efiRound v.motor.targetPosition) = true then
          v.motor.currentPosition + 1 else v.motor.currentPosition - 1) ≤ (config.totalSteps : Int) := by
      by_cases up : v.motor.currentPosition < efiRound v.motor.targetPosition
      · rw [decide_eq_true up, if_pos rfl]
        omega
      · rw [decide_eq_false up, if_neg Bool.false_ne_true]
        omega
    have moved := move_near near next.1 (next.2.trans (by exact_mod_cast fits))
    refine ⟨target, move_ends _ _ _, set, saved, ⟨lowNow, highNow, ?_⟩, next.1, next.2, moved⟩
    rw [abs_le] at moved ⊢
    push_cast
    split at moved <;> omega
  · refine ⟨target, ends, ?_⟩
    rw [Valve.Kept, Valve.saveStepperPos, phase]
    dsimp only
    rw [if_pos set]
    exact ⟨rfl, tracks⟩

/-- Behind a step that is not counted, a restart makes the count wrong by one more. -/
theorem restart_sound (sound : v.Sound config travel slipCount) (keepsBackup : Bool) :
    (v.step config travel (.restart keepsBackup)).Sound config travel
      (slips v slipCount (.restart keepsBackup)) := by
  obtain ⟨-, ends, kept⟩ := sound
  refine ⟨⟨le_rfl, Nat.cast_nonneg _⟩, ends, ?_⟩
  cases keepsBackup
  · exact .inl rfl
  rw [Valve.Kept] at kept
  rw [slips]
  cases phase : v.motor.phase with
  | ready =>
    rw [phase] at kept
    dsimp only at kept
    change v.savedPosition = 0 ∨ Tracks config v.valve slipCount (v.savedPosition - 1)
    split at kept
    · obtain ⟨saved, tracks⟩ := kept
      have position : v.savedPosition - 1 = v.motor.currentPosition := by omega
      exact .inr (position ▸ tracks)
    · exact kept
  | parking left =>
    rw [phase] at kept
    exact .inl kept.2.1
  | moved isIncrementing =>
    rw [phase] at kept
    obtain ⟨-, saved, tracks, -⟩ := kept
    have position : v.savedPosition - 1 = v.motor.currentPosition := by omega
    rw [if_pos (by cases isIncrementing <;> simp)]
    exact .inr (position ▸ tracks)

/-- Whatever the thread meets, and however often the controller restarts. -/
theorem step_sound (fits : config.totalSteps ≤ travel) (reaches : travel ≤ numParkingSteps config)
    (sound : v.Sound config travel slipCount) {e : StepperEvent} (onScale : e.OnScale config) :
    (v.step config travel e).Sound config travel (slips v slipCount e) := by
  cases e with
  | thread i =>
    rw [Valve.step, slips]
    cases phase : v.motor.phase with
    | ready => exact doIteration_sound fits reaches sound phase i
    | parking left =>
      have parked := park_sound sound phase i.relayAtStep
      cases left
      · exact parked
      · simpa using parked
    | moved isIncrementing => exact count_sound sound phase
  | setTargetPosition q => exact setTarget_sound sound onScale.1 onScale.2
  | restart keepsBackup => exact restart_sound sound keepsBackup

theorem slipped_sound (fits : config.totalSteps ≤ travel) (reaches : travel ≤ numParkingSteps config)
    (sound : v.Sound config travel slipCount) {events : List StepperEvent}
    (onScale : ∀ e ∈ events, e.OnScale config) :
    (slipped config travel v slipCount events).1.Sound config travel
      (slipped config travel v slipCount events).2 := by
  induction events generalizing v slipCount with
  | nil => exact sound
  | cons e events ih =>
    exact ih (step_sound fits reaches sound (onScale e List.mem_cons_self)) fun e' member =>
      onScale e' (List.mem_cons_of_mem e member)

/-- Five steps, none of them extra. -/
def fiveSteps : StepperConfig := ⟨5, 0, false, 10⟩

def allOn : StepperInputs := ⟨true, 12, false, 0, true⟩

/-- The valve is parked, asked for two steps, and the controller restarts behind the first of them. -/
def restartBehindStep : List StepperEvent :=
  List.replicate 7 (.thread allOn) ++ [.setTargetPosition 2, .thread allOn, .restart true, .thread allOn]

/-- The relay is on, also when the step is made, and the voltage is high enough. -/
structure Powered (config : StepperConfig) (i : StepperInputs) : Prop where
  relay : i.isMainRelayEnabled = true
  voltage : config.minStepperVoltage ≤ i.batteryVoltage
  relayAtStep : i.relayAtStep = true

/-- Between two iterations, with the position known. -/
structure Valve.Idle (v : Valve) : Prop where
  ready : v.motor.phase = .ready
  set : v.motor.initialPositionSet = true

theorem doIteration_powered (idle : v.Idle) {i : StepperInputs} (powered : Powered config i) :
    v.doIteration config travel i =
      if efiRound v.motor.targetPosition = v.motor.currentPosition then
        { v with motor := { v.motor with isBusy := false } }
      else
        { v with
          valve := Valve.move travel v.valve (v.motor.currentPosition < efiRound v.motor.targetPosition)
          motor := { v.motor with
            isBusy := true
            phase := .moved (v.motor.currentPosition < efiRound v.motor.targetPosition) } } := by
  have voltage : ¬ i.batteryVoltage < config.minStepperVoltage := not_lt.mpr powered.voltage
  rw [Valve.doIteration]
  simp only [powered.relay, voltage, idle.set, powered.relayAtStep, Bool.not_true, decide_false, Bool.or_self,
    Bool.false_eq_true, if_false, if_true]

theorem slips_powered (working : v.motor.phase ≠ .parking 0) (i : StepperInputs) :
    slips v slipCount (.thread i) = slipCount := if_neg working

/-- At the target nothing moves. -/
theorem slipped_arrived {inputs : List StepperInputs} (powered : ∀ i ∈ inputs, Powered config i)
    (idle : v.Idle) (arrived : efiRound v.motor.targetPosition = v.motor.currentPosition) :
    ∃ last, slipped config travel v slipCount (inputs.map .thread) = (last, slipCount) ∧ last.Idle ∧
      last.motor.currentPosition = efiRound v.motor.targetPosition := by
  induction inputs generalizing v with
  | nil => exact ⟨v, rfl, idle, arrived.symm⟩
  | cons i inputs ih =>
    have stepped : v.step config travel (.thread i) = { v with motor := { v.motor with isBusy := false } } := by
      rw [Valve.step, idle.ready]
      dsimp only
      rw [doIteration_powered idle (powered i List.mem_cons_self), if_pos arrived]
    have others := fun i' member => powered i' (List.mem_cons_of_mem i member)
    rw [List.map_cons, slipped, stepped, slips_powered (by rw [idle.ready]; simp)]
    exact @ih { v with motor := { v.motor with isBusy := false } } others ⟨idle.ready, idle.set⟩ arrived

/-- Each step takes the thread two turns, one for the step and one to count it. -/
theorem slipped_arrives {inputs : List StepperInputs} (powered : ∀ i ∈ inputs, Powered config i) {distance : Nat}
    (idle : v.Idle) (far : (efiRound v.motor.targetPosition - v.motor.currentPosition).natAbs = distance)
    (enough : 2 * distance ≤ inputs.length) :
    ∃ last, slipped config travel v slipCount (inputs.map .thread) = (last, slipCount) ∧ last.Idle ∧
      last.motor.currentPosition = efiRound v.motor.targetPosition := by
  induction distance generalizing v inputs with
  | zero => exact slipped_arrived powered idle (by omega)
  | succ distance ih =>
    obtain ⟨first, second, rest, rfl⟩ : ∃ first second rest, inputs = first :: second :: rest := by
      rcases inputs with _ | ⟨first, _ | ⟨second, rest⟩⟩
      · rw [List.length_nil] at enough
        omega
      · rw [List.length_singleton] at enough
        omega
      · exact ⟨first, second, rest, rfl⟩
    have away : efiRound v.motor.targetPosition ≠ v.motor.currentPosition := by omega
    have enough' : 2 * distance ≤ rest.length := by
      simp only [List.length_cons] at enough
      omega
    have others := fun i member => powered i (List.mem_cons_of_mem first (List.mem_cons_of_mem second member))
    generalize up : decide (v.motor.currentPosition < efiRound v.motor.targetPosition) = isIncrementing
    have stepped := @doIteration_powered config travel v idle first (powered first List.mem_cons_self)
    rw [if_neg away, up] at stepped
    have begun : v.step config travel (.thread first) = { v with
        valve := Valve.move travel v.valve isIncrementing
        motor := { v.motor with isBusy := true, phase := .moved isIncrementing } } := by
      rw [Valve.step, idle.ready]
      exact stepped
    have waiting : v.motor.phase ≠ .parking 0 := by
      rw [idle.ready]
      simp
    rw [List.map_cons, slipped, slips_powered waiting, begun, List.map_cons, slipped,
      slips_powered (by simp)]
    refine ih others ⟨rfl, idle.set⟩ ?_ enough'
    change (efiRound v.motor.targetPosition -
      if isIncrementing then v.motor.currentPosition + 1 else v.motor.currentPosition - 1).natAbs = distance
    subst up
    by_cases below : v.motor.currentPosition < efiRound v.motor.targetPosition
    · rw [decide_eq_true below, if_pos rfl]
      omega
    · rw [decide_eq_false below, if_neg Bool.false_ne_true]
      omega

end Tracking

end FomeFw.Hardware
