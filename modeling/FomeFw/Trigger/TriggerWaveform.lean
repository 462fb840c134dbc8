import FomeFw.Lib.Turning
import FomeFw.Trigger.EnginePhase
import Mathlib.Data.List.Pairwise

/-! Trigger shapes, `trigger_structure.cpp`: the edges of one turn of the trigger
wheel in the order in which they pass the sensor. `addEvent` refuses edges out of
order, so a shape that was built is well formed. -/
namespace FomeFw.Trigger

/-- `operation_mode_e`. -/
inductive OperationMode where
  | omNone
  | fourStrokeCrankSensor
  | fourStrokeCamSensor
  | twoStroke
  | fourStrokeSymmetricalCrankSensor
  | fourStrokeThreeTimesCrankSensor
  | fourStrokeTwelveTimesCrankSensor
  deriving DecidableEq, Repr

def getEngineCycle : OperationMode → Angle
  | .twoStroke => 360
  | _ => 720

/-- Turns of the trigger wheel in one engine cycle. -/
def getCrankDivider : OperationMode → Nat
  | .fourStrokeCrankSensor => 2
  | .fourStrokeSymmetricalCrankSensor => 4
  | .fourStrokeThreeTimesCrankSensor => 6
  | .fourStrokeTwelveTimesCrankSensor => 24
  | .omNone | .fourStrokeCamSensor | .twoStroke => 1

inductive SyncEdge where
  | rise
  | fall
  | riseOnly
  | both
  deriving DecidableEq, Repr

inductive TriggerWheel where
  | primary
  | secondary
  deriving DecidableEq, Repr

/-- One `addEvent`: the angle is a fraction of the turn, `state` the level after the edge. -/
structure ShapeEvent where
  angle : ℚ
  state : Bool
  channelIndex : TriggerWheel := .primary
  deriving DecidableEq

/-- `PWM_PHASE_MAX_COUNT`. -/
abbrev phaseMaxCount : Nat := 280

structure TriggerWaveform where
  operationMode : OperationMode
  syncEdge : SyncEdge
  isSynchronizationNeeded : Bool := true
  useOnlyPrimaryForSync : Bool := false
  gapTrackingLength : Nat := 1
  /-- Bounds of the gap ratios; no bound where the source has a NaN. -/
  syncronizationRatioFrom : Nat → Option ℚ := fun _ => none
  syncronizationRatioTo : Nat → ℚ := fun _ => 100000
  events : List ShapeEvent := []
  positive : ∀ e ∈ events, 0 < e.angle := by simp
  withinTurn : ∀ e ∈ events, e.angle ≤ 1 := by simp
  ordered : events.Pairwise (·.angle < ·.angle) := by simp
  capacity : events.length ≤ phaseMaxCount := by simp

namespace TriggerWaveform

def useOnlyRisingEdges (shape : TriggerWaveform) : Bool := shape.syncEdge = .riseOnly

/-- `none` where the source reports an error, or would write past its arrays. -/
def addEvent (shape : TriggerWaveform) (e : ShapeEvent) : Option TriggerWaveform :=
  if angle : 0 < e.angle ∧ e.angle ≤ 1 then
    if order : ∀ b ∈ shape.events, b.angle < e.angle then
      if room : shape.events.length < phaseMaxCount then
        some { shape with
          events := shape.events ++ [e]
          positive := by
            intro b member
            rcases List.mem_append.mp member with old | new
            · exact shape.positive b old
            · exact List.mem_singleton.mp new ▸ angle.1
          withinTurn := by
            intro b member
            rcases List.mem_append.mp member with old | new
            · exact shape.withinTurn b old
            · exact List.mem_singleton.mp new ▸ angle.2
          ordered := List.pairwise_append.mpr ⟨shape.ordered, List.pairwise_singleton _ _,
            fun b old c new => List.mem_singleton.mp new ▸ order b old⟩
          capacity := by rw [List.length_append]; exact room }
      else none
    else none
  else none

/-- `wave.phaseCount`. -/
def getSize (shape : TriggerWaveform) : Nat := shape.events.length

/-- `wave.getSwitchTime`. -/
def getSwitchTime (shape : TriggerWaveform) (index : Nat) : ℚ :=
  (shape.events[index]?.map ShapeEvent.angle).getD 0

def isRiseEvent (shape : TriggerWaveform) (index : Nat) : Bool :=
  (shape.events[index]?.map ShapeEvent.state).getD false

/-- Rising edges only count in shapes that use nothing else. -/
def getExpectedEventCount (shape : TriggerWaveform) (channelIndex : TriggerWheel) : Nat :=
  shape.events.countP fun e =>
    e.channelIndex = channelIndex && (!shape.useOnlyRisingEdges || e.state)

def getCycleDuration (shape : TriggerWaveform) : Angle :=
  match shape.operationMode with
  | .fourStrokeThreeTimesCrankSensor => 720 / 6
  | .fourStrokeSymmetricalCrankSensor => 720 / 4
  | .fourStrokeTwelveTimesCrankSensor => 720 / 24
  | .fourStrokeCrankSensor | .twoStroke => 360
  | .omNone | .fourStrokeCamSensor => 720

/-- Edges in one engine cycle. -/
def getLength (shape : TriggerWaveform) : Nat :=
  let multiplier := ⌊getEngineCycle shape.operationMode / shape.getCycleDuration⌋₊
  multiplier * shape.getSize

def getSwitchAngle (shape : TriggerWaveform) (index : Nat) : Angle :=
  shape.getCycleDuration * shape.getSwitchTime index

def getAngle (shape : TriggerWaveform) (index : Nat) : Angle :=
  let crankCycle := index / shape.getSize
  let remainder := index % shape.getSize
  shape.getCycleDuration * crankCycle + shape.getSwitchAngle remainder

def needsDisambiguation (shape : TriggerWaveform) : Bool :=
  match shape.operationMode with
  | .fourStrokeCamSensor | .twoStroke => false
  | _ => true

variable (shape : TriggerWaveform)

theorem getCycleDuration_pos : 0 < shape.getCycleDuration := by
  unfold getCycleDuration
  split <;> norm_num

/-- The turns of the wheel make up the engine cycle. -/
theorem getEngineCycle_eq : getEngineCycle shape.operationMode =
    getCrankDivider shape.operationMode * shape.getCycleDuration := by
  unfold getEngineCycle getCrankDivider getCycleDuration
  cases shape.operationMode <;> norm_num

theorem getLength_eq :
    shape.getLength = getCrankDivider shape.operationMode * shape.getSize := by
  unfold getLength
  rw [shape.getEngineCycle_eq, mul_div_cancel_right₀ _ shape.getCycleDuration_pos.ne']
  simp

theorem getCrankDivider_pos (mode : OperationMode) : 0 < getCrankDivider mode := by
  cases mode <;> decide

theorem getEngineCycle_pos (mode : OperationMode) : 0 < getEngineCycle mode := by
  cases mode <;> decide

theorem getEngineCycle_small (mode : OperationMode) : getEngineCycle mode ≤ 720 := by
  cases mode <;> decide

variable {shape}

theorem getSwitchTime_eq (inside : i < shape.getSize) :
    ∃ e ∈ shape.events, shape.events[i]? = some e ∧ shape.getSwitchTime i = e.angle := by
  have found : shape.events[i]? = some shape.events[i] := List.getElem?_eq_getElem inside
  exact ⟨shape.events[i], List.getElem_mem inside, found, by simp [getSwitchTime, found]⟩

theorem getSwitchTime_pos (inside : i < shape.getSize) : 0 < shape.getSwitchTime i := by
  obtain ⟨e, member, -, same⟩ := getSwitchTime_eq inside
  exact same ▸ shape.positive e member

theorem getSwitchTime_le (inside : i < shape.getSize) : shape.getSwitchTime i ≤ 1 := by
  obtain ⟨e, member, -, same⟩ := getSwitchTime_eq inside
  exact same ▸ shape.withinTurn e member

theorem getSwitchTime_lt (order : i < j) (inside : j < shape.getSize) :
    shape.getSwitchTime i < shape.getSwitchTime j := by
  obtain ⟨a, -, first, sameFirst⟩ := getSwitchTime_eq (order.trans inside)
  obtain ⟨b, -, second, sameSecond⟩ := getSwitchTime_eq inside
  rw [sameFirst, sameSecond]
  obtain ⟨hi, rfl⟩ := List.getElem?_eq_some_iff.mp first
  obtain ⟨hj, rfl⟩ := List.getElem?_eq_some_iff.mp second
  exact List.pairwise_iff_getElem.mp shape.ordered i j hi hj order

/-- Angles grow along the edges of all turns. -/
theorem getAngle_strictMono (some : 0 < shape.getSize) : StrictMono shape.getAngle := by
  refine strictMono_nat_of_lt_succ (fun k => ?_)
  have duration := shape.getCycleDuration_pos
  have inside := Nat.mod_lt k some
  unfold getAngle getSwitchAngle
  by_cases last : k % shape.getSize + 1 = shape.getSize
  · -- the first edge of the next turn
    have turn := Turning.next_turn last
    rw [turn.1, turn.2]
    push_cast
    have ends := mul_le_mul_of_nonneg_left (getSwitchTime_le inside) duration.le
    have starts := mul_pos duration (getSwitchTime_pos some)
    linarith
  · have turn := Turning.next_position (show k % shape.getSize + 1 < shape.getSize by omega)
    rw [turn.1, turn.2]
    have next := getSwitchTime_lt (i := k % shape.getSize) (Nat.lt_succ_self _)
      (by omega : k % shape.getSize + 1 < shape.getSize)
    have step := mul_lt_mul_of_pos_left next duration
    linarith

/-- After one engine cycle the angles repeat, one cycle further. -/
theorem getAngle_add_length (some : 0 < shape.getSize) (k : Nat) :
    shape.getAngle (k + shape.getLength) =
      shape.getAngle k + getEngineCycle shape.operationMode := by
  unfold getAngle
  rw [shape.getLength_eq, Nat.add_mul_mod_self_right, Nat.add_mul_div_right _ _ some,
    shape.getEngineCycle_eq]
  push_cast
  ring

end TriggerWaveform

/-- A cam wheel with one tooth, high for the second half of the turn. -/
def halfMoon : TriggerWaveform where
  operationMode := .fourStrokeCamSensor
  syncEdge := .rise
  isSynchronizationNeeded := false
  events := [⟨1 / 2, true, .primary⟩, ⟨1, false, .primary⟩]
  positive := by decide +kernel
  withinTurn := by decide +kernel
  ordered := by decide +kernel
  capacity := by decide

/-- `initializeMazdaMiataNb2Crank`: half of a crank wheel with two teeth on each half. -/
def miataNb2Crank : TriggerWaveform where
  operationMode := .fourStrokeSymmetricalCrankSensor
  syncEdge := .riseOnly
  gapTrackingLength := 2
  syncronizationRatioFrom i := if i = 0 then some (35 / 100) else if i = 1 then some (8 / 10) else none
  syncronizationRatioTo i := if i = 0 then 115 / 100 else if i = 1 then 18 / 10 else 100000
  events := [⟨106 / 180, false, .primary⟩, ⟨110 / 180, true, .primary⟩,
    ⟨176 / 180, false, .primary⟩, ⟨1, true, .primary⟩]
  positive := by decide +kernel
  withinTurn := by decide +kernel
  ordered := by decide +kernel
  capacity := by decide

end FomeFw.Trigger
