import FomeFw.Trigger.TriggerWaveform
import Mathlib.Tactic.FieldSimp

/-! Custom toothed wheels, `trigger_universal.cpp`: evenly spaced teeth of which the last
ones are missing. The wave form has a rise and a fall for each tooth that is there. -/
namespace FomeFw.Trigger

/-- The settings of `TT_TOOTHED_WHEEL`. -/
structure ToothedWheelConfiguration where
  customTotalToothCount : Int
  customSkippedToothCount : Int
  twoStroke : Bool := false
  skippedWheelOnCam : Bool := false
  deriving DecidableEq

def lookupOperationMode (engineConfiguration : ToothedWheelConfiguration) : OperationMode :=
  if engineConfiguration.twoStroke then .twoStroke
  else if engineConfiguration.skippedWheelOnCam then .fourStrokeCamSensor
  else .fourStrokeCrankSensor

/-- `NO_LEFT_FILTER`. -/
abbrev noLeftFilter : Angle := -1

/-- `NO_RIGHT_FILTER`. -/
abbrev noRightFilter : Angle := 1000

namespace TriggerWaveform

/-- What `TriggerWaveform::initialize` leaves. -/
def initialWaveform (operationMode : OperationMode) (syncEdge : SyncEdge) : TriggerWaveform where
  operationMode
  syncEdge
  syncronizationRatioFrom gapIndex := if gapIndex = 0 then some (2 * (3 / 4)) else none
  syncronizationRatioTo gapIndex := if gapIndex = 0 then 2 * (5 / 4) else 100000

def setTriggerSynchronizationGap3 (shape : TriggerWaveform) (gapIndex : Nat)
    (syncRatioFrom syncRatioTo : ℚ) : TriggerWaveform :=
  { shape with
    isSynchronizationNeeded := true
    syncronizationRatioFrom :=
      Function.update shape.syncronizationRatioFrom gapIndex (some syncRatioFrom)
    syncronizationRatioTo := Function.update shape.syncronizationRatioTo gapIndex syncRatioTo
    gapTrackingLength := max (1 + gapIndex) shape.gapTrackingLength }

def setTriggerSynchronizationGap (shape : TriggerWaveform) (syncRatio : ℚ) : TriggerWaveform :=
  shape.setTriggerSynchronizationGap3 0 (syncRatio * (3 / 4)) (syncRatio * (5 / 4))

def setSecondTriggerSynchronizationGap (shape : TriggerWaveform) (syncRatio : ℚ) :
    TriggerWaveform :=
  shape.setTriggerSynchronizationGap3 1 (syncRatio * (3 / 4)) (syncRatio * (5 / 4))

def setIsSynchronizationNeeded (shape : TriggerWaveform) (isSynchronizationNeeded : Bool) :
    TriggerWaveform :=
  { shape with isSynchronizationNeeded }

def addEventClamped (shape : TriggerWaveform) (angle : Angle) (state : Bool)
    (channelIndex : TriggerWheel) (filterLeft filterRight : Angle) : Option TriggerWaveform :=
  if angle > filterLeft ∧ angle < filterRight then
    shape.addEvent ⟨angle / getEngineCycle shape.operationMode, state, channelIndex⟩
  else some shape

/-- What `calculateExpectedEventCounts` changes; the rest of it only reports. -/
def calculateExpectedEventCounts (shape : TriggerWaveform) : TriggerWaveform :=
  let isSingleToothOnPrimaryChannel :=
    if shape.useOnlyRisingEdges then shape.getExpectedEventCount .primary = 1
    else shape.getExpectedEventCount .primary = 2
  if isSingleToothOnPrimaryChannel then { shape with useOnlyPrimaryForSync := true } else shape

end TriggerWaveform

/-- One round of the loop. -/
def addTooth (wheel : TriggerWheel) (totalTeethCount : Int)
    (toothWidth offset engineCycle filterLeft filterRight : Angle) (s : TriggerWaveform) (i : Nat) :
    Option TriggerWaveform := do
  let angleDown := engineCycle / totalTeethCount * (i + (1 - toothWidth))
  let angleUp := engineCycle / totalTeethCount * (i + 1)
  let s ← s.addEventClamped (offset + angleDown) true wheel filterLeft filterRight
  s.addEventClamped (offset + angleUp) false wheel filterLeft filterRight

def addSkippedToothTriggerEvents (wheel : TriggerWheel) (s : TriggerWaveform)
    (totalTeethCount skippedCount : Int)
    (toothWidth offset engineCycle filterLeft filterRight : Angle) : Option TriggerWaveform :=
  if 0 < totalTeethCount ∧ 0 ≤ skippedCount then do
    let s ← (List.range (totalTeethCount - skippedCount - 1).toNat).foldlM
      (addTooth wheel totalTeethCount toothWidth offset engineCycle filterLeft filterRight) s
    let angleDown := engineCycle / totalTeethCount *
      (totalTeethCount - skippedCount - 1 + (1 - toothWidth))
    let s ← s.addEventClamped (offset + angleDown) true wheel filterLeft filterRight
    s.addEventClamped (offset + engineCycle) false wheel filterLeft filterRight
  else none

/-- The wave form before the teeth are added. -/
def toothlessWheel (totalTeethCount skippedCount : Int) (operationMode : OperationMode)
    (syncEdge : SyncEdge) : TriggerWaveform :=
  let s := TriggerWaveform.initialWaveform operationMode syncEdge
  let s := s.setTriggerSynchronizationGap (skippedCount + 1)
  let s := if totalTeethCount > 6 ∧ skippedCount > 0 then s.setSecondTriggerSynchronizationGap 1
    else s
  s.setIsSynchronizationNeeded (decide (totalTeethCount > 2) && decide (skippedCount ≠ 0))

def initializeSkippedToothTrigger (totalTeethCount skippedCount : Int)
    (operationMode : OperationMode) (syncEdge : SyncEdge) : Option TriggerWaveform :=
  if totalTeethCount ≤ 0 then none
  else addSkippedToothTriggerEvents .primary
    (toothlessWheel totalTeethCount skippedCount operationMode syncEdge) totalTeethCount skippedCount
    (1 / 2) 0 (getEngineCycle operationMode) noLeftFilter noRightFilter

/-- `initializeTriggerWaveform` for `TT_TOOTHED_WHEEL`. -/
def initializeToothedWheel (engineConfiguration : ToothedWheelConfiguration) :
    Option TriggerWaveform := do
  let s ← initializeSkippedToothTrigger engineConfiguration.customTotalToothCount
    engineConfiguration.customSkippedToothCount (lookupOperationMode engineConfiguration) .riseOnly
  some s.calculateExpectedEventCounts

namespace TriggerWaveform

theorem calculateExpectedEventCounts_or (shape : TriggerWaveform) :
    shape.calculateExpectedEventCounts = { shape with useOnlyPrimaryForSync := true } ∨
      shape.calculateExpectedEventCounts = shape :=
  ite_eq_or_eq _ _ _

/-- The wave form with these events, all else as in `shape`. -/
def WithEvents (shape : TriggerWaveform) (events : List ShapeEvent) (built : TriggerWaveform) :
    Prop :=
  ∃ positive withinTurn ordered capacity,
    built = { shape with events, positive, withinTurn, ordered, capacity }

variable {shape built : TriggerWaveform} {edges : List ShapeEvent}

theorem WithEvents.refl (shape : TriggerWaveform) : shape.WithEvents shape.events shape :=
  ⟨shape.positive, shape.withinTurn, shape.ordered, shape.capacity, rfl⟩

theorem WithEvents.events_eq (same : shape.WithEvents edges built) : built.events = edges := by
  obtain ⟨_, _, _, _, rfl⟩ := same
  rfl

theorem WithEvents.operationMode_eq (same : shape.WithEvents edges built) :
    built.operationMode = shape.operationMode := by
  obtain ⟨_, _, _, _, rfl⟩ := same
  rfl

theorem WithEvents.addEvent {e : ShapeEvent} (same : shape.WithEvents edges built)
    (positive : 0 < e.angle) (within : e.angle ≤ 1) (order : ∀ b ∈ edges, b.angle < e.angle)
    (room : edges.length < phaseMaxCount) :
    ∃ next, built.addEvent e = some next ∧ shape.WithEvents (edges ++ [e]) next := by
  obtain ⟨_, _, _, _, rfl⟩ := same
  rw [TriggerWaveform.addEvent, dif_pos ⟨positive, within⟩, dif_pos order, dif_pos room]
  exact ⟨_, rfl, _, _, _, _, rfl⟩

end TriggerWaveform

section Teeth
open TriggerWaveform
variable {shape s : TriggerWaveform} {totalTeethCount : Nat} {edges : List ShapeEvent}

/-- The edges of a tooth, as parts of the turn. -/
def toothEvents (totalTeethCount i : Nat) : List ShapeEvent :=
  [⟨(i + 1 / 2) / totalTeethCount, true, .primary⟩, ⟨(i + 1) / totalTeethCount, false, .primary⟩]

/-- The edges of all teeth; the last one ends with the turn. -/
def wheelEvents (totalTeethCount teeth : Nat) : List ShapeEvent :=
  (List.range (teeth - 1)).flatMap (toothEvents totalTeethCount) ++
    [⟨((teeth - 1 : Nat) + 1 / 2) / totalTeethCount, true, .primary⟩, ⟨1, false, .primary⟩]

theorem addEventClamped_angle (angle : ℚ) (state : Bool) (same : shape.WithEvents edges s)
    (positive : 0 < angle) (within : angle ≤ 1) (order : ∀ b ∈ edges, b.angle < angle)
    (room : edges.length < phaseMaxCount) :
    ∃ next, s.addEventClamped (0 + getEngineCycle shape.operationMode * angle) state .primary
        noLeftFilter noRightFilter = some next ∧
      shape.WithEvents (edges ++ [⟨angle, state, .primary⟩]) next := by
  have cycle := getEngineCycle_pos shape.operationMode
  have small := getEngineCycle_small shape.operationMode
  have above : 0 < getEngineCycle shape.operationMode * angle := mul_pos cycle positive
  have below : getEngineCycle shape.operationMode * angle ≤ 720 * 1 :=
    mul_le_mul small within positive.le (by norm_num)
  rw [addEventClamped, zero_add, if_pos ⟨by linarith, by linarith⟩, same.operationMode_eq,
    mul_div_cancel_left₀ _ cycle.ne']
  exact same.addEvent positive within order room

theorem teeth_length (k : Nat) :
    ((List.range k).flatMap (toothEvents totalTeethCount)).length = 2 * k := by
  simp [List.length_flatMap, toothEvents, Nat.mul_comm]

theorem teeth_bound {k : Nat} {b : ShapeEvent}
    (member : b ∈ (List.range k).flatMap (toothEvents totalTeethCount)) :
    b.angle ≤ k / totalTeethCount := by
  obtain ⟨i, inside, edge⟩ := List.mem_flatMap.mp member
  have next : ((i : ℚ) + 1) ≤ k := by exact_mod_cast List.mem_range.mp inside
  have bound : b.angle ≤ (i + 1) / totalTeethCount := by
    simp only [toothEvents, List.mem_cons, List.not_mem_nil, or_false] at edge
    rcases edge with rfl | rfl
    · exact div_le_div_of_nonneg_right (by linarith) (Nat.cast_nonneg _)
    · exact le_refl _
  exact bound.trans (div_le_div_of_nonneg_right next (Nat.cast_nonneg _))

/-- One round of the loop adds the two edges of the tooth. -/
theorem addTooth_withEvents {i : Nat} (inside : i < totalTeethCount)
    (same : shape.WithEvents edges s) (below : ∀ b ∈ edges, b.angle ≤ i / totalTeethCount)
    (room : edges.length + 2 ≤ phaseMaxCount) :
    ∃ next, addTooth .primary totalTeethCount (1 / 2) 0 (getEngineCycle shape.operationMode)
        noLeftFilter noRightFilter s i = some next ∧
      shape.WithEvents (edges ++ toothEvents totalTeethCount i) next := by
  have total : (0 : ℚ) < totalTeethCount := by exact_mod_cast Nat.zero_lt_of_lt inside
  have start : (0 : ℚ) ≤ i := Nat.cast_nonneg i
  have finish : (i : ℚ) + 1 ≤ totalTeethCount := by exact_mod_cast inside
  have down : getEngineCycle shape.operationMode / ((totalTeethCount : Int) : ℚ) *
      (i + (1 - 1 / 2)) = getEngineCycle shape.operationMode * ((i + 1 / 2) / totalTeethCount) := by
    rw [Int.cast_natCast]
    ring
  have up : getEngineCycle shape.operationMode / ((totalTeethCount : Int) : ℚ) * (i + 1) =
      getEngineCycle shape.operationMode * ((i + 1) / totalTeethCount) := by
    rw [Int.cast_natCast]
    ring
  have rise : (i : ℚ) / totalTeethCount < (i + 1 / 2) / totalTeethCount :=
    div_lt_div_of_pos_right (by linarith) total
  have fall : ((i : ℚ) + 1 / 2) / totalTeethCount < (i + 1) / totalTeethCount :=
    div_lt_div_of_pos_right (by linarith) total
  obtain ⟨risen, first, withRise⟩ := addEventClamped_angle _ true same
    (div_pos (by linarith) total) ((div_le_one total).mpr (by linarith))
    (fun b member => (below b member).trans_lt rise) (by omega)
  obtain ⟨fallen, second, withFall⟩ := addEventClamped_angle _ false withRise
    (div_pos (by linarith) total) ((div_le_one total).mpr finish) (by
      intro b member
      rcases List.mem_append.mp member with old | new
      · exact ((below b old).trans_lt rise).trans fall
      · rw [List.mem_singleton.mp new]
        exact fall) (by rw [List.length_append, List.length_singleton]; exact room)
  refine ⟨fallen, ?_, by simpa [toothEvents] using withFall⟩
  simp only [addTooth, down, up, first, Option.bind_eq_bind, Option.bind_some, second]

/-- The loop adds the edges of all its teeth. -/
theorem addTeeth_withEvents (blank : shape.events = []) {k : Nat} (teeth : k ≤ totalTeethCount)
    (room : 2 * k ≤ phaseMaxCount) :
    ∃ next, (List.range k).foldlM (addTooth .primary totalTeethCount (1 / 2) 0
        (getEngineCycle shape.operationMode) noLeftFilter noRightFilter) shape = some next ∧
      shape.WithEvents ((List.range k).flatMap (toothEvents totalTeethCount)) next := by
  induction k with
  | zero => exact ⟨shape, rfl, by simpa [blank] using WithEvents.refl shape⟩
  | succ k ih =>
    obtain ⟨built, run, same⟩ := ih (by omega) (by omega)
    obtain ⟨next, tooth, further⟩ := addTooth_withEvents (by omega) same
      (fun b member => teeth_bound member) (by rw [teeth_length]; omega)
    refine ⟨next, ?_, by simpa [List.range_succ] using further⟩
    rw [List.range_succ, List.foldlM_append, run, Option.bind_eq_bind, Option.bind_some]
    simpa using tooth

theorem toothlessWheel_plain (totalTeeth skippedCount : Int) (operationMode : OperationMode)
    (syncEdge : SyncEdge) :
    let s := toothlessWheel totalTeeth skippedCount operationMode syncEdge
    s.events = [] ∧ s.operationMode = operationMode ∧ s.syncEdge = syncEdge := by
  unfold toothlessWheel
  dsimp only
  split <;> exact ⟨rfl, rfl, rfl⟩

/-- A wheel with at least one tooth, and no more than the wave form can hold, is built. -/
theorem initializeSkippedToothTrigger_withEvents {teeth skippedCount : Nat} (some : 0 < teeth)
    (total : totalTeethCount = teeth + skippedCount) (room : 2 * teeth ≤ phaseMaxCount)
    (operationMode : OperationMode) (syncEdge : SyncEdge) :
    ∃ built, initializeSkippedToothTrigger totalTeethCount skippedCount operationMode syncEdge =
        .some built ∧
      (toothlessWheel totalTeethCount skippedCount operationMode syncEdge).WithEvents
        (wheelEvents totalTeethCount teeth) built := by
  obtain ⟨blank, mode, -⟩ := toothlessWheel_plain totalTeethCount skippedCount operationMode syncEdge
  have positive : (0 : ℚ) < totalTeethCount := by exact_mod_cast (by omega : 0 < totalTeethCount)
  have count : ((totalTeethCount : Int) - skippedCount - 1).toNat = teeth - 1 := by omega
  have last : (((teeth - 1 : Nat) : ℚ)) + 1 ≤ totalTeethCount := by
    exact_mod_cast (by omega : teeth - 1 + 1 ≤ totalTeethCount)
  have start : (0 : ℚ) ≤ (teeth - 1 : Nat) := Nat.cast_nonneg _
  have rest : ((totalTeethCount : Int) : ℚ) - ((skippedCount : Int) : ℚ) - 1 = (teeth - 1 : Nat) := by
    rw [total, Nat.cast_sub some]
    push_cast
    ring
  have down : getEngineCycle operationMode / ((totalTeethCount : Int) : ℚ) *
      (((teeth - 1 : Nat) : ℚ) + (1 - 1 / 2)) =
        getEngineCycle operationMode * (((teeth - 1 : Nat) + 1 / 2) / totalTeethCount) := by
    rw [Int.cast_natCast]
    ring
  obtain ⟨filled, run, same⟩ := addTeeth_withEvents blank
    (show teeth - 1 ≤ totalTeethCount by omega) (by omega)
  have bound : ∀ b ∈ (List.range (teeth - 1)).flatMap (toothEvents totalTeethCount), b.angle ≤ _ :=
    fun b member => teeth_bound member
  obtain ⟨risen, first, withRise⟩ := addEventClamped_angle _ true same
    (div_pos (by linarith : (0 : ℚ) < (teeth - 1 : Nat) + 1 / 2) positive)
    ((div_le_one positive).mpr (by linarith))
    (fun b member => (bound b member).trans_lt (div_lt_div_of_pos_right (by linarith) positive))
    (by rw [teeth_length]; omega)
  obtain ⟨fallen, second, withFall⟩ := addEventClamped_angle 1 false withRise
    zero_lt_one (le_refl _) (by
      intro b member
      rcases List.mem_append.mp member with old | new
      · exact (bound b old).trans_lt ((div_lt_one positive).mpr (by linarith))
      · rw [List.mem_singleton.mp new]
        exact (div_lt_one positive).mpr (by linarith))
    (by rw [List.length_append, teeth_length, List.length_singleton]; omega)
  rw [mode] at run first second
  rw [mul_one] at second
  refine ⟨fallen, ?_, by simpa [wheelEvents] using withFall⟩
  rw [initializeSkippedToothTrigger, if_neg (by omega), addSkippedToothTriggerEvents,
    if_pos (by omega), count, run, Option.bind_eq_bind, Option.bind_some]
  simp only [rest, down, first, second, Option.bind_some]

theorem wheelEvents_length {teeth : Nat} (some : 0 < teeth) :
    (wheelEvents totalTeethCount teeth).length = 2 * teeth := by
  rw [wheelEvents, List.length_append, teeth_length]
  simp only [List.length_cons, List.length_nil]
  omega

theorem wheelEvents_primary {teeth : Nat} {e : ShapeEvent}
    (member : e ∈ wheelEvents totalTeethCount teeth) : e.channelIndex = .primary := by
  simp only [wheelEvents, toothEvents, List.mem_append, List.mem_flatMap, List.mem_cons,
    List.not_mem_nil, or_false] at member
  rcases member with ⟨i, -, rfl | rfl⟩ | rfl | rfl <;> rfl

/-- Every tooth rises once. -/
theorem wheelEvents_rises {teeth : Nat} (some : 0 < teeth) :
    (wheelEvents totalTeethCount teeth).countP ShapeEvent.state = teeth := by
  have loop : ∀ k, ((List.range k).flatMap (toothEvents totalTeethCount)).countP
      ShapeEvent.state = k := by
    intro k
    induction k with
    | zero => rfl
    | succ k ih => simp [List.range_succ, List.countP_append, ih, toothEvents]
  rw [wheelEvents, List.countP_append, loop]
  simpa using Nat.sub_add_cancel some

/-- What is known of the wave form of a wheel with so many teeth. -/
structure IsToothedWheel (shape : TriggerWaveform) (operationMode : OperationMode) (teeth : Nat) :
    Prop where
  operationMode : shape.operationMode = operationMode
  riseOnly : shape.useOnlyRisingEdges = true
  size : shape.getSize = 2 * teeth
  primary : shape.getExpectedEventCount .primary = teeth
  secondary : shape.getExpectedEventCount .secondary = 0

theorem initializeToothedWheel_isToothedWheel {teeth skippedCount : Nat} (some : 0 < teeth)
    (room : 2 * teeth ≤ phaseMaxCount) (twoStroke skippedWheelOnCam : Bool) :
    let engineConfiguration : ToothedWheelConfiguration :=
      ⟨(teeth + skippedCount : Nat), skippedCount, twoStroke, skippedWheelOnCam⟩
    ∃ shape, initializeToothedWheel engineConfiguration = .some shape ∧
      IsToothedWheel shape (lookupOperationMode engineConfiguration) teeth := by
  intro engineConfiguration
  obtain ⟨built, run, same⟩ := initializeSkippedToothTrigger_withEvents some rfl room
    (lookupOperationMode engineConfiguration) .riseOnly
  obtain ⟨-, mode, edge⟩ := toothlessWheel_plain (teeth + skippedCount : Nat) skippedCount
    (lookupOperationMode engineConfiguration) .riseOnly
  have riseOnly : built.useOnlyRisingEdges = true := by
    obtain ⟨_, _, _, _, rfl⟩ := same
    simpa [useOnlyRisingEdges] using edge
  have primary : built.getExpectedEventCount .primary = teeth := by
    rw [getExpectedEventCount, same.events_eq, riseOnly]
    refine (List.countP_congr fun e member => ?_).trans (wheelEvents_rises some)
    simp [wheelEvents_primary member]
  have secondary : built.getExpectedEventCount .secondary = 0 := by
    rw [getExpectedEventCount, same.events_eq, List.countP_eq_zero]
    intro e member
    simp [wheelEvents_primary member]
  have wheel : IsToothedWheel built (lookupOperationMode engineConfiguration) teeth :=
    ⟨same.operationMode_eq.trans mode, riseOnly,
      by rw [getSize, same.events_eq, wheelEvents_length some], primary, secondary⟩
  refine ⟨built.calculateExpectedEventCounts, ?_, ?_⟩
  · rw [initializeToothedWheel, run]
    rfl
  · rcases built.calculateExpectedEventCounts_or with same | same <;> rw [same]
    · exact ⟨wheel.operationMode, wheel.riseOnly, wheel.size, wheel.primary, wheel.secondary⟩
    · exact wheel

end Teeth

end FomeFw.Trigger
