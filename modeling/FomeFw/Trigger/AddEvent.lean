import FomeFw.Lib.FixedArray
import FomeFw.Lib.Machine
import FomeFw.Trigger.SkippedToothWheel
import FomeFw.Trigger.TriggerSimulator
import Mathlib.Tactic.Linarith
import Mathlib.Tactic.Positivity
import Mathlib.Data.Rat.Floor

/-! How a wave form is built, `TriggerWaveform::addEvent`, in the arrays it is stored in. There
is no result where the source would access them outside their bounds. -/
namespace FomeFw.Trigger

/-- The number of a wheel's channel. -/
def TriggerWheel.channel : TriggerWheel → Nat
  | .primary => 0
  | .secondary => 1

/-- `MultiChannelStateSequenceWithData<PWM_PHASE_MAX_COUNT>`. -/
structure StateSequence where
  phaseCount : Nat := 0
  switchTimes : FixedArray phaseMaxCount ℚ
  waveForm : FixedArray phaseMaxCount (BitVec 8)

namespace StateSequence

def getSwitchTime (wave : StateSequence) (phaseIndex : Nat) : Option ℚ :=
  wave.switchTimes.load phaseIndex

def getChannelState (wave : StateSequence) (channelIndex phaseIndex : Nat) : Option Bool :=
  (wave.waveForm.load phaseIndex).map fun levels => levels.getLsbD channelIndex

def setSwitchTime (wave : StateSequence) (phaseIndex : Nat) (value : ℚ) : Option StateSequence :=
  (wave.switchTimes.store phaseIndex value).map ({ wave with switchTimes := · })

def setChannelState (wave : StateSequence) (channelIndex phaseIndex : Nat) (state : Bool) :
    Option StateSequence := do
  let levels ← wave.waveForm.load phaseIndex
  let bit : BitVec 8 := if state then 1 else 0
  let waveForm ← wave.waveForm.store phaseIndex
    (levels &&& ~~~((1 : BitVec 8) <<< channelIndex) ||| bit <<< channelIndex)
  some { wave with waveForm }

/-- The loop of `findInsertionAngle`, from the last index down. -/
def findInsertionAngle (wave : StateSequence) (angle : ℚ) : Nat → Option Nat
  | 0 => some 0
  | i + 1 => do
    let switchTime ← wave.getSwitchTime i
    if angle > switchTime then some (i + 1) else wave.findInsertionAngle angle i

/-- The loop of `findAngleMatch`, with the rounds that are left; `isSameF` compares angles. -/
def findAngleMatch (isSameF : ℚ → ℚ → Bool) (wave : StateSequence) (angle : ℚ) :
    Nat → Nat → Option (Option Nat)
  | 0, _ => some none
  | rounds + 1, i => do
    let switchTime ← wave.getSwitchTime i
    if isSameF switchTime angle then some (some i)
    else wave.findAngleMatch isSameF angle rounds (i + 1)

end StateSequence

/-- What `addEvent` reports, with the arguments of the message. -/
inductive ShapeReport where
  /-- `firmwareError(CUSTOM_OMODE_UNDEF, "operationMode not set")` -/
  | operationModeNotSet
  /-- `firmwareError(CUSTOM_ERR_6599, "angle should be positive not above 1: index=%d angle %f")` -/
  | angleShouldBePositive (index : Nat) (angle : ℚ)
  /-- `warning(CUSTOM_ERR_TRG_ANGLE_ORDER, "invalid angle order: new=%.2f/%f and prev=%.2f/%f, size=%d")` -/
  | invalidAngleOrder (new newDegrees prev prevDegrees : ℚ) (size : Nat)
  /-- `warning(CUSTOM_ERR_SAME_ANGLE, "same angle: not supported")` -/
  | sameAngle
  /-- `firmwareError("are we ever here?")` -/
  | areWeEverHere
  deriving DecidableEq

/-- The part of a `TriggerWaveform` that `addEvent` works on. -/
structure WaveformStorage where
  operationMode : OperationMode
  useOnlyRisingEdges : Bool
  needSecondTriggerInput : Bool := false
  shapeDefinitionError : Bool := false
  /-- Counted in `size_t`. -/
  expectedEventCount : TriggerWheel → Nat := fun _ => 0
  wave : StateSequence
  isRiseEvent : FixedArray phaseMaxCount Bool
  previousAngle : ℚ := 0
  reports : List ShapeReport := []

namespace WaveformStorage

/-- `initialize`; the times and levels of the shape before stay in their arrays. -/
def initializeShape (old : WaveformStorage) (operationMode : OperationMode) (syncEdge : SyncEdge) :
    WaveformStorage where
  operationMode
  useOnlyRisingEdges := syncEdge = .riseOnly
  wave := { old.wave with phaseCount := 0 }
  isRiseEvent := .fill false

def report (s : WaveformStorage) (message : ShapeReport) : WaveformStorage :=
  { s with reports := s.reports ++ [message] }

def getCycleDuration (s : WaveformStorage) : Angle :=
  (TriggerWaveform.initialWaveform s.operationMode .rise).getCycleDuration

def setShapeDefinitionError (s : WaveformStorage) (value : Bool) : WaveformStorage :=
  { s with shapeDefinitionError := value }

/-- What is noted of an event before its angle is looked at. -/
def announce (s : WaveformStorage) (e : ShapeEvent) : WaveformStorage :=
  { s with
    needSecondTriggerInput := s.needSecondTriggerInput || e.channelIndex = .secondary
    expectedEventCount :=
      if !s.useOnlyRisingEdges || e.state then
        Function.update s.expectedEventCount e.channelIndex
          ((s.expectedEventCount e.channelIndex + 1) % 2 ^ 32)
      else s.expectedEventCount }

/-- `index - 1`, where that is an index. -/
def before : Nat → Option Nat
  | 0 => none
  | index + 1 => some index

/-- The first event: every channel is low before it. -/
def storeFirst (s : WaveformStorage) (e : ShapeEvent) : Option WaveformStorage := do
  let wave := { s.wave with phaseCount := 1 }
  let wave ← wave.setChannelState 0 0 false
  let wave ← wave.setChannelState 1 0 false
  let isRiseEvent ← s.isRiseEvent.store 0 e.state
  let wave ← wave.setSwitchTime 0 e.angle
  let wave ← wave.setChannelState e.channelIndex.channel 0 e.state
  some { s with isRiseEvent, wave }

/-- A later event: every channel stays as it was, before its own is set. -/
def storeNext (s : WaveformStorage) (e : ShapeEvent) (index : Nat) : Option WaveformStorage := do
  let isRiseEvent ← s.isRiseEvent.store index e.state
  let s := if index ≠ s.wave.phaseCount then s.report .areWeEverHere else s
  let wave := { s.wave with phaseCount := (s.wave.phaseCount + 1) % 2 ^ 16 }
  let previous ← before index
  let wave ← (wave.getChannelState 0 previous).bind (wave.setChannelState 0 index)
  let wave ← (wave.getChannelState 1 previous).bind (wave.setChannelState 1 index)
  let wave ← wave.setSwitchTime index e.angle
  let wave ← wave.setChannelState e.channelIndex.channel index e.state
  some { s with isRiseEvent, wave }

def setPreviousAngle (s : WaveformStorage) (angle : ℚ) : WaveformStorage :=
  { s with previousAngle := angle }

/-- From the place where the angle has been found to be in order. -/
def storeEvent (isSameF : ℚ → ℚ → Bool) (s : WaveformStorage) (e : ShapeEvent) :
    Option WaveformStorage :=
  if s.wave.phaseCount = 0 then s.storeFirst e
  else
    (s.wave.findAngleMatch isSameF e.angle s.wave.phaseCount 0).bind fun
      | some _ => some ((s.report .sameAngle).setShapeDefinitionError true)
      | none => (s.wave.findInsertionAngle e.angle s.wave.phaseCount).bind (s.storeNext e)

def addEvent (isSameF : ℚ → ℚ → Bool) (s : WaveformStorage) (e : ShapeEvent) :
    Option WaveformStorage :=
  if s.operationMode = .omNone then some (s.report .operationModeNotSet)
  else
    let s := s.announce e
    if e.angle ≤ 0 ∨ e.angle > 1 then
      some (s.report (.angleShouldBePositive e.channelIndex.channel e.angle))
    else if s.wave.phaseCount > 0 ∧ e.angle ≤ s.previousAngle then
      some ((s.report (.invalidAngleOrder e.angle (e.angle * s.getCycleDuration) s.previousAngle
        (s.previousAngle * s.getCycleDuration) s.wave.phaseCount)).setShapeDefinitionError true)
    else (s.setPreviousAngle e.angle).storeEvent isSameF e

end WaveformStorage

/-- The arrays hold a wave form: what is asked of them by index is what the shape says. -/
structure Held (wave : StateSequence) (isRiseEvent : FixedArray phaseMaxCount Bool)
    (shape : TriggerWaveform) : Prop where
  phaseCount : wave.phaseCount = shape.getSize
  getSwitchTime : ∀ i < shape.getSize, wave.getSwitchTime i = some (shape.getSwitchTime i)
  getChannelState : ∀ i < shape.getSize, ∀ wheel : TriggerWheel,
    wave.getChannelState wheel.channel i = some (shape.getChannelState wheel i)
  isRise : ∀ i < shape.getSize, isRiseEvent.load i = some (shape.isRiseEvent i)

/-- The storage is that of a wave form. -/
structure Stores (s : WaveformStorage) (shape : TriggerWaveform) : Prop where
  operationMode : s.operationMode = shape.operationMode
  useOnlyRisingEdges : s.useOnlyRisingEdges = shape.useOnlyRisingEdges
  held : Held s.wave s.isRiseEvent shape
  expectedEventCount : s.expectedEventCount = shape.getExpectedEventCount
  previousAngle : ∀ e ∈ shape.events, e.angle ≤ s.previousAngle
  inOrder : .areWeEverHere ∉ s.reports

namespace StateSequence
variable {wave : StateSequence} {channel other index i : Nat}

/-- A level that is set is read back, and no other one changes. -/
theorem setChannelState_spec (inside : index < phaseMaxCount) (bit : channel < 8) (state : Bool) :
    ∃ wave', wave.setChannelState channel index state = some wave' ∧
      wave'.phaseCount = wave.phaseCount ∧ wave'.switchTimes = wave.switchTimes ∧
      ∀ i other, other < 8 → wave'.getChannelState other i =
        if i = index ∧ other = channel then some state else wave.getChannelState other i := by
  obtain ⟨levels, loaded⟩ := FixedArray.load_of_lt (a := wave.waveForm) inside
  obtain ⟨waveForm, stored⟩ := FixedArray.store_of_lt (a := wave.waveForm) inside
    (levels &&& ~~~((1 : BitVec 8) <<< channel) ||| (if state then 1 else 0 : BitVec 8) <<< channel)
  refine ⟨{ wave with waveForm }, ?_, rfl, rfl, ?_⟩
  · simp only [setChannelState, loaded, Option.bind_eq_bind, Option.bind_some, stored]
  · intro i other small
    simp only [getChannelState, FixedArray.load_of_store stored]
    by_cases here : i = index
    · subst here
      simp only [loaded, if_true, true_and, Option.map_some]
      by_cases own : other = channel
      · subst own
        cases state <;> simp [small]
      · have untouched : ∀ bit : Bool, ((if bit then 1 else 0 : BitVec 8) <<< channel).getLsbD other =
            false := by
          intro bit
          rcases Nat.lt_or_gt_of_ne own with below | above
          · simp [below]
          · have apart : other - channel ≠ 0 := by omega
            cases bit <;> simp [apart]
        have mask := untouched true
        simp only [if_true] at mask
        rw [BitVec.getLsbD_or, BitVec.getLsbD_and, BitVec.getLsbD_not, mask, untouched state]
        simp [small, own]
    · simp [here]

theorem setSwitchTime_spec (inside : index < phaseMaxCount) (value : ℚ) :
    ∃ wave', wave.setSwitchTime index value = some wave' ∧ wave'.phaseCount = wave.phaseCount ∧
      wave'.waveForm = wave.waveForm ∧
      ∀ i, wave'.getSwitchTime i = if i = index then some value else wave.getSwitchTime i := by
  obtain ⟨switchTimes, stored⟩ := FixedArray.store_of_lt (a := wave.switchTimes) inside value
  refine ⟨{ wave with switchTimes }, ?_, rfl, rfl, FixedArray.load_of_store stored⟩
  rw [setSwitchTime, stored, Option.map_some]

/-- The levels of both channels, then the time and the level of the event. -/
def writeEvent (wave : StateSequence) (index : Nat) (primary secondary : Bool) (e : ShapeEvent) :
    Option StateSequence := do
  let wave ← wave.setChannelState 0 index primary
  let wave ← wave.setChannelState 1 index secondary
  let wave ← wave.setSwitchTime index e.angle
  wave.setChannelState e.channelIndex.channel index e.state

theorem writeEvent_spec (inside : index < phaseMaxCount) (primary secondary : Bool)
    (e : ShapeEvent) :
    ∃ wave', wave.writeEvent index primary secondary e = some wave' ∧
      wave'.phaseCount = wave.phaseCount ∧
      (∀ i, wave'.getSwitchTime i = if i = index then some e.angle else wave.getSwitchTime i) ∧
      ∀ i (wheel : TriggerWheel), wave'.getChannelState wheel.channel i =
        if i = index then
          some (if e.channelIndex = wheel then e.state
            else match wheel with | .primary => primary | .secondary => secondary)
        else wave.getChannelState wheel.channel i := by
  obtain ⟨w₀, first, count₀, times₀, levels₀⟩ :=
    @setChannelState_spec wave 0 index inside (by omega) primary
  obtain ⟨w₁, second, count₁, times₁, levels₁⟩ :=
    @setChannelState_spec w₀ 1 index inside (by omega) secondary
  obtain ⟨w₂, third, count₂, kept, times₂⟩ := @setSwitchTime_spec w₁ index inside e.angle
  have bit : ∀ wheel : TriggerWheel, wheel.channel < 8 := by
    intro wheel
    cases wheel <;> decide
  obtain ⟨w₃, fourth, count₃, times₃, levels₃⟩ :=
    @setChannelState_spec w₂ e.channelIndex.channel index inside (bit _) e.state
  refine ⟨w₃, ?_, ?_, ?_, ?_⟩
  · simp only [writeEvent, first, second, third, fourth, Option.bind_eq_bind, Option.bind_some]
  · rw [count₃, count₂, count₁, count₀]
  · intro i
    have same : w₃.getSwitchTime i = w₂.getSwitchTime i := by rw [getSwitchTime, times₃]; rfl
    have before : w₁.getSwitchTime i = wave.getSwitchTime i := by
      rw [getSwitchTime, times₁, times₀]
      rfl
    rw [same, times₂, before]
  · intro i wheel
    have same : ∀ channel, w₂.getChannelState channel i = w₁.getChannelState channel i := by
      intro channel
      rw [getChannelState, kept]
      rfl
    rw [levels₃ i _ (bit wheel), same, levels₁ i _ (bit wheel), levels₀ i _ (bit wheel)]
    by_cases here : i = index
    · cases own : e.channelIndex <;> cases wheel <;> simp [here, TriggerWheel.channel]
    · simp [here]

end StateSequence

namespace TriggerWaveform
variable {shape shape' : TriggerWaveform} {e : ShapeEvent} {i : Nat}

theorem addEvent_some (added : shape.addEvent e = some shape') :
    shape'.events = shape.events ++ [e] ∧ shape'.operationMode = shape.operationMode ∧
      shape'.syncEdge = shape.syncEdge := by
  unfold addEvent at added
  split at added
  · split at added
    · split at added
      · obtain rfl := Option.some.inj added
        exact ⟨rfl, rfl, rfl⟩
      · contradiction
    · contradiction
  · contradiction

theorem addEvent_of_lt (positive : 0 < e.angle) (within : e.angle ≤ 1)
    (order : ∀ b ∈ shape.events, b.angle < e.angle) (room : shape.getSize < phaseMaxCount) :
    ∃ shape', shape.addEvent e = some shape' := by
  simp only [addEvent, dif_pos (And.intro positive within), dif_pos order]
  rw [getSize] at room
  rw [dif_pos room]
  exact ⟨_, rfl⟩

section Appended
variable (appended : shape'.events = shape.events ++ [e])
include appended

theorem getSize_appended : shape'.getSize = shape.getSize + 1 := by
  rw [getSize, appended, List.length_append]
  rfl

theorem event_appended (i : Nat) :
    shape'.events[i]? = if i = shape.getSize then some e else shape.events[i]? := by
  rw [appended, getSize]
  by_cases last : i = shape.events.length
  · simp [last]
  · rw [if_neg last, List.getElem?_append]
    split
    · rfl
    · next beyond =>
      have past : shape.events.length < i := by omega
      rw [List.getElem?_eq_none (by simp; omega), List.getElem?_eq_none (by omega)]

theorem getSwitchTime_appended (i : Nat) :
    shape'.getSwitchTime i = if i = shape.getSize then e.angle else shape.getSwitchTime i := by
  rw [getSwitchTime, event_appended appended]
  split <;> rfl

theorem isRiseEvent_appended (i : Nat) :
    shape'.isRiseEvent i = if i = shape.getSize then e.state else shape.isRiseEvent i := by
  rw [isRiseEvent, event_appended appended]
  split <;> rfl

theorem channelIndex_appended (i : Nat) :
    shape'.channelIndex i = if i = shape.getSize then e.channelIndex else shape.channelIndex i := by
  rw [channelIndex, event_appended appended]
  split <;> rfl

theorem getChannelState_before (wheel : TriggerWheel) (inside : i < shape.getSize) :
    shape'.getChannelState wheel i = shape.getChannelState wheel i := by
  induction i with
  | zero =>
    simp only [getChannelState, channelIndex_appended appended, isRiseEvent_appended appended,
      if_neg inside.ne]
  | succ i ih =>
    simp only [getChannelState, channelIndex_appended appended, isRiseEvent_appended appended,
      if_neg inside.ne, ih (by omega)]

/-- The level of a channel behind the last event. -/
theorem getChannelState_last (wheel : TriggerWheel) :
    shape'.getChannelState wheel shape.getSize =
      if e.channelIndex = wheel then e.state
      else match shape.getSize with
        | 0 => false
        | last + 1 => shape.getChannelState wheel last := by
  have here := channelIndex_appended appended shape.getSize
  have rise := isRiseEvent_appended appended shape.getSize
  rw [if_pos rfl] at here rise
  cases size : shape.getSize with
  | zero =>
    rw [size] at here rise
    simp only [getChannelState, here, rise]
  | succ last =>
    rw [size] at here rise
    simp only [getChannelState, here, rise, getChannelState_before appended wheel
      (show last < shape.getSize by omega)]

theorem getExpectedEventCount_appended (edges : shape'.syncEdge = shape.syncEdge)
    (wheel : TriggerWheel) :
    shape'.getExpectedEventCount wheel = shape.getExpectedEventCount wheel +
      if e.channelIndex = wheel ∧ (!shape.useOnlyRisingEdges || e.state) = true then 1 else 0 := by
  have same : shape'.useOnlyRisingEdges = shape.useOnlyRisingEdges := by
    rw [useOnlyRisingEdges, useOnlyRisingEdges, edges]
  rw [getExpectedEventCount, appended, List.countP_append, same]
  simp [getExpectedEventCount, List.countP_singleton]

end Appended

end TriggerWaveform

/-- The event is one of those that are stored. -/
def WaveformStorage.Accepts (isSameF : ℚ → ℚ → Bool) (s : WaveformStorage) (e : ShapeEvent) : Prop :=
  (0 < e.angle ∧ e.angle ≤ 1) ∧ (s.wave.phaseCount = 0 ∨ s.previousAngle < e.angle ∧
    s.wave.findAngleMatch isSameF e.angle s.wave.phaseCount 0 = some none)

instance (isSameF : ℚ → ℚ → Bool) (s : WaveformStorage) (e : ShapeEvent) :
    Decidable (s.Accepts isSameF e) :=
  inferInstanceAs (Decidable (_ ∧ _))

namespace Held
variable {wave wave' : StateSequence} {isRiseEvent isRiseEvent' : FixedArray phaseMaxCount Bool}
  {shape shape' : TriggerWaveform} {e : ShapeEvent} {s : WaveformStorage}

/-- Writing the next event at the end of the arrays. -/
theorem append (held : Held wave isRiseEvent shape) (appended : shape'.events = shape.events ++ [e])
    (counted : wave'.phaseCount = shape.getSize + 1)
    (times : ∀ i, wave'.getSwitchTime i =
      if i = shape.getSize then some e.angle else wave.getSwitchTime i)
    (levels : ∀ i (wheel : TriggerWheel), wave'.getChannelState wheel.channel i =
      if i = shape.getSize then some (shape'.getChannelState wheel i)
      else wave.getChannelState wheel.channel i)
    (rises : ∀ i, isRiseEvent'.load i =
      if i = shape.getSize then some e.state else isRiseEvent.load i) :
    Held wave' isRiseEvent' shape' := by
  have size := TriggerWaveform.getSize_appended appended
  refine ⟨counted.trans size.symm, ?_, ?_, ?_⟩
  · intro i inside
    rw [times, TriggerWaveform.getSwitchTime_appended appended]
    split
    · rfl
    · exact held.getSwitchTime i (by omega)
  · intro i inside wheel
    rw [levels]
    split
    · rfl
    · rw [TriggerWaveform.getChannelState_before appended wheel (by omega)]
      exact held.getChannelState i (by omega) wheel
  · intro i inside
    rw [rises, TriggerWaveform.isRiseEvent_appended appended]
    split
    · rfl
    · exact held.isRise i (by omega)

theorem storeFirst (held : Held s.wave s.isRiseEvent shape) (empty : shape.getSize = 0)
    (appended : shape'.events = shape.events ++ [e]) :
    ∃ wave isRiseEvent, s.storeFirst e = some { s with wave, isRiseEvent } ∧
      Held wave isRiseEvent shape' := by
  have inside : 0 < phaseMaxCount := by decide
  obtain ⟨isRiseEvent, stored⟩ := FixedArray.store_of_lt (a := s.isRiseEvent) inside e.state
  obtain ⟨wave, written, counted, times, levels⟩ :=
    @StateSequence.writeEvent_spec { s.wave with phaseCount := 1 } 0 inside false false e
  refine ⟨wave, isRiseEvent, ?_, held.append appended ?_ ?_ ?_ ?_⟩
  · simp only [StateSequence.writeEvent, Option.bind_eq_bind, Option.bind_eq_some_iff] at written
    obtain ⟨w₀, first, w₁, second, w₂, third, fourth⟩ := written
    simp [WaveformStorage.storeFirst, first, second, stored, third, fourth]
  · rw [counted, empty]
  · intro i
    rw [times, empty]
    rfl
  · intro i wheel
    have last := TriggerWaveform.getChannelState_last appended wheel
    simp only [empty] at last ⊢
    rw [levels]
    by_cases here : i = 0
    · rw [if_pos here, if_pos here, here, last]
      cases wheel <;> rfl
    · rw [if_neg here, if_neg here]
      rfl
  · rw [empty]
    exact FixedArray.load_of_store stored

/-- The place of an event behind all others. -/
theorem findInsertionAngle (held : Held s.wave s.isRiseEvent shape)
    (order : ∀ b ∈ shape.events, b.angle < e.angle) :
    s.wave.findInsertionAngle e.angle shape.getSize = some shape.getSize := by
  cases size : shape.getSize with
  | zero => rfl
  | succ last =>
    have inside : last < shape.events.length := by
      rw [TriggerWaveform.getSize] at size
      omega
    have time : shape.getSwitchTime last = shape.events[last].angle := by
      simp [TriggerWaveform.getSwitchTime, inside]
    rw [StateSequence.findInsertionAngle, held.getSwitchTime last (by omega), Option.bind_eq_bind,
      Option.bind_some, time, if_pos (order _ (List.getElem_mem inside))]

theorem storeNext (held : Held s.wave s.isRiseEvent shape) (rows : 0 < shape.getSize)
    (room : shape.getSize < phaseMaxCount) (appended : shape'.events = shape.events ++ [e]) :
    ∃ wave isRiseEvent, s.storeNext e shape.getSize = some { s with wave, isRiseEvent } ∧
      Held wave isRiseEvent shape' := by
  obtain ⟨last, size⟩ := Nat.exists_eq_succ_of_ne_zero rows.ne'
  obtain ⟨isRiseEvent, stored⟩ := FixedArray.store_of_lt (a := s.isRiseEvent) room e.state
  have primary := held.getChannelState last (by omega) .primary
  have secondary := held.getChannelState last (by omega) .secondary
  have small : (s.wave.phaseCount + 1) % 2 ^ 16 = shape.getSize + 1 := by
    have most : phaseMaxCount = 280 := rfl
    rw [held.phaseCount, Nat.mod_eq_of_lt (by omega)]
  obtain ⟨wave, written, counted, times, levels⟩ :=
    @StateSequence.writeEvent_spec { s.wave with phaseCount := (s.wave.phaseCount + 1) % 2 ^ 16 }
      shape.getSize room (shape.getChannelState .primary last)
      (shape.getChannelState .secondary last) e
  refine ⟨wave, isRiseEvent, ?_, held.append appended ?_ times ?_ (FixedArray.load_of_store stored)⟩
  · simp only [StateSequence.writeEvent, Option.bind_eq_bind, Option.bind_eq_some_iff] at written
    obtain ⟨w₀, first, w₁, second, w₂, third, fourth⟩ := written
    obtain ⟨w, again, -, -, kept⟩ :=
      @StateSequence.setChannelState_spec { s.wave with phaseCount := (s.wave.phaseCount + 1) % 2 ^ 16 }
        0 shape.getSize room (by omega) (shape.getChannelState .primary last)
    obtain rfl := Option.some.inj (first.symm.trans again)
    -- the first channel is written before the second one is read, at another index
    have unread : w₀.getChannelState 1 last = some (shape.getChannelState .secondary last) := by
      rw [kept last 1 (by omega), if_neg (by omega)]
      exact secondary
    have copied : StateSequence.getChannelState
        { s.wave with phaseCount := (s.wave.phaseCount + 1) % 2 ^ 16 } 0 last =
          some (shape.getChannelState .primary last) := primary
    have place : WaveformStorage.before shape.getSize = some last := by rw [size]; rfl
    have counting : ¬shape.getSize ≠ s.wave.phaseCount := not_not.mpr held.phaseCount.symm
    simp only [WaveformStorage.storeNext, stored, Option.bind_eq_bind, Option.bind_some,
      if_neg counting, place, copied, first, unread, second, third, fourth]
  · rw [counted, small]
  · intro i wheel
    have level := TriggerWaveform.getChannelState_last appended wheel
    rw [levels]
    by_cases here : i = shape.getSize
    · rw [if_pos here, if_pos here, here, level, size]
      cases wheel <;> rfl
    · rw [if_neg here, if_neg here]
      rfl

variable {isSameF : ℚ → ℚ → Bool}

/-- An event behind all others, with an angle of its own. -/
theorem storeEvent (held : Held s.wave s.isRiseEvent shape)
    (order : ∀ b ∈ shape.events, b.angle < e.angle)
    (unmatched : s.wave.phaseCount = 0 ∨
      s.wave.findAngleMatch isSameF e.angle s.wave.phaseCount 0 = some none)
    (room : shape.getSize < phaseMaxCount) (appended : shape'.events = shape.events ++ [e]) :
    ∃ wave isRiseEvent, s.storeEvent isSameF e = some { s with wave, isRiseEvent } ∧
      Held wave isRiseEvent shape' := by
  have count := held.phaseCount
  unfold WaveformStorage.storeEvent
  by_cases empty : shape.getSize = 0
  · rw [if_pos (count.trans empty)]
    exact held.storeFirst empty appended
  · have index := held.findInsertionAngle order
    rw [if_neg (by omega), unmatched.resolve_left (by omega), Option.bind_some, count, index,
      Option.bind_some]
    exact held.storeNext (by omega) room appended

/-- It would go behind the arrays when they are full. -/
theorem storeEvent_full (held : Held s.wave s.isRiseEvent shape)
    (order : ∀ b ∈ shape.events, b.angle < e.angle)
    (unmatched : s.wave.phaseCount = 0 ∨
      s.wave.findAngleMatch isSameF e.angle s.wave.phaseCount 0 = some none)
    (full : phaseMaxCount ≤ shape.getSize) : s.storeEvent isSameF e = none := by
  have count := held.phaseCount
  have most : phaseMaxCount = 280 := rfl
  have outside : s.isRiseEvent.store shape.getSize e.state = none := dif_neg (by omega)
  rw [WaveformStorage.storeEvent, if_neg (by omega), unmatched.resolve_left (by omega),
    Option.bind_some, count, held.findInsertionAngle order, Option.bind_some,
    WaveformStorage.storeNext, outside]
  rfl

theorem findAngleMatch_of_le {wave : StateSequence} (isSameF : ℚ → ℚ → Bool) (angle : ℚ)
    (inside : i + rounds ≤ phaseMaxCount) :
    ∃ found, wave.findAngleMatch isSameF angle rounds i = some found := by
  induction rounds generalizing i with
  | zero => exact ⟨none, rfl⟩
  | succ rounds ih =>
    obtain ⟨switchTime, loaded⟩ := FixedArray.load_of_lt (a := wave.switchTimes)
      (show i < phaseMaxCount by omega)
    simp only [StateSequence.findAngleMatch, StateSequence.getSwitchTime, loaded,
      Option.bind_eq_bind, Option.bind_some]
    split
    · exact ⟨some i, rfl⟩
    · exact ih (by omega)

/-- An event with an angle that is there already. -/
theorem storeEvent_matched (held : Held s.wave s.isRiseEvent shape)
    (matched : ¬(s.wave.phaseCount = 0 ∨
      s.wave.findAngleMatch isSameF e.angle s.wave.phaseCount 0 = some none)) :
    s.storeEvent isSameF e = some ((s.report .sameAngle).setShapeDefinitionError true) := by
  obtain ⟨some, other⟩ := not_or.mp matched
  have capacity := shape.capacity
  have count : s.wave.phaseCount ≤ phaseMaxCount := held.phaseCount.trans_le capacity
  obtain ⟨found, search⟩ := @findAngleMatch_of_le 0 s.wave.phaseCount s.wave isSameF e.angle
    (by omega)
  rw [WaveformStorage.storeEvent, if_neg some, search, Option.bind_some]
  cases found with
  | none => exact absurd search other
  | some i => rfl

end Held

namespace Stores
variable {s s' : WaveformStorage} {shape shape' : TriggerWaveform} {e : ShapeEvent}
  {isSameF : ℚ → ℚ → Bool}

theorem initializeShape (old : WaveformStorage) (shape : TriggerWaveform) (empty : shape.events = []) :
    Stores (old.initializeShape shape.operationMode shape.syncEdge) shape := by
  have none : shape.getSize = 0 := by rw [TriggerWaveform.getSize, empty]; rfl
  refine ⟨rfl, rfl, ⟨none.symm, ?_, ?_, ?_⟩, ?_, ?_, ?_⟩
  · intro i inside
    omega
  · intro i inside
    omega
  · intro i inside
    omega
  · funext wheel
    simp [WaveformStorage.initializeShape, TriggerWaveform.getExpectedEventCount, empty]
  · simp [empty]
  · simp [WaveformStorage.initializeShape]

/-- The counters are those of the shape with the event that is announced. -/
theorem announce_expected (stores : Stores s shape) (appended : shape'.events = shape.events ++ [e])
    (edges : shape'.syncEdge = shape.syncEdge) :
    (s.announce e).expectedEventCount = shape'.getExpectedEventCount := by
  have few : shape.getExpectedEventCount e.channelIndex ≤ phaseMaxCount :=
    List.countP_le_length.trans shape.capacity
  have most : phaseMaxCount = 280 := rfl
  funext wheel
  rw [TriggerWaveform.getExpectedEventCount_appended appended edges]
  simp only [WaveformStorage.announce, stores.useOnlyRisingEdges, stores.expectedEventCount]
  by_cases counted : (!shape.useOnlyRisingEdges || e.state) = true
  · by_cases own : e.channelIndex = wheel
    · subst own
      rw [if_pos counted, if_pos ⟨rfl, counted⟩, Function.update_self, Nat.mod_eq_of_lt (by omega)]
    · rw [if_pos counted, if_neg (fun both => own both.1), Function.update_of_ne (Ne.symm own)]
      rfl
  · rw [if_neg counted, if_neg (fun both => counted both.2)]
    rfl

/-- Whether an event is counted among the expected ones. -/
theorem announce_kept_iff (stores : Stores s shape) :
    (s.announce e).expectedEventCount = shape.getExpectedEventCount ↔
      s.useOnlyRisingEdges = true ∧ e.state = false := by
  have few : shape.getExpectedEventCount e.channelIndex ≤ phaseMaxCount :=
    List.countP_le_length.trans shape.capacity
  have most : phaseMaxCount = 280 := rfl
  simp only [WaveformStorage.announce, stores.expectedEventCount]
  by_cases counted : (!s.useOnlyRisingEdges || e.state) = true
  · rw [if_pos counted]
    refine iff_of_false ?_ ?_
    · intro same
      have own := congrFun same e.channelIndex
      rw [Function.update_self] at own
      omega
    · rintro ⟨rising, low⟩
      simp [rising, low] at counted
  · rw [if_neg counted]
    simpa using counted

/-- A refused event leaves the arrays alone. -/
theorem addEvent_refused (stores : Stores s shape) (mode : s.operationMode ≠ .omNone)
    (refused : ¬s.Accepts isSameF e) :
    ∃ s', s.addEvent isSameF e = some s' ∧ s'.wave.phaseCount = s.wave.phaseCount ∧
      s'.expectedEventCount = (s.announce e).expectedEventCount ∧
      s'.useOnlyRisingEdges = s.useOnlyRisingEdges ∧
      ((s.announce e).expectedEventCount = shape.getExpectedEventCount → Stores s' shape) := by
  have count : s.wave.phaseCount = shape.getSize := stores.held.phaseCount
  rw [WaveformStorage.addEvent, if_neg mode]
  by_cases angle : e.angle ≤ 0 ∨ e.angle > 1
  · refine ⟨_, if_pos angle, rfl, rfl, rfl, fun expected => ?_⟩
    refine ⟨stores.operationMode, stores.useOnlyRisingEdges, stores.held, expected,
      stores.previousAngle, ?_⟩
    simpa [WaveformStorage.report, WaveformStorage.announce] using stores.inOrder
  have inside : 0 < e.angle ∧ e.angle ≤ 1 := by simpa using angle
  simp only [if_neg angle]
  by_cases order : (s.announce e).wave.phaseCount > 0 ∧ e.angle ≤ (s.announce e).previousAngle
  · refine ⟨_, if_pos order, rfl, rfl, rfl, fun expected => ?_⟩
    refine ⟨stores.operationMode, stores.useOnlyRisingEdges, stores.held, expected,
      stores.previousAngle, ?_⟩
    simpa [WaveformStorage.report, WaveformStorage.setShapeDefinitionError,
      WaveformStorage.announce] using stores.inOrder
  · have held : Held ((s.announce e).setPreviousAngle e.angle).wave
        ((s.announce e).setPreviousAngle e.angle).isRiseEvent shape := stores.held
    have later : s.wave.phaseCount = 0 ∨ s.previousAngle < e.angle := by
      rcases Nat.eq_zero_or_pos s.wave.phaseCount with empty | some
      · exact .inl empty
      · exact .inr (not_le.mp fun early => order ⟨some, early⟩)
    have matched := @Held.storeEvent_matched _ e ((s.announce e).setPreviousAngle e.angle) isSameF
      held (by
        rintro (empty | unmatched)
        · exact refused ⟨inside, .inl empty⟩
        · rcases later with empty | later
          · exact refused ⟨inside, .inl empty⟩
          · exact refused ⟨inside, .inr ⟨later, unmatched⟩⟩)
    refine ⟨_, (if_neg order).trans matched, rfl, rfl, rfl, fun expected => ?_⟩
    refine ⟨stores.operationMode, stores.useOnlyRisingEdges, stores.held, expected, ?_, ?_⟩
    · intro b member
      have some : s.wave.phaseCount ≠ 0 := fun empty => refused ⟨inside, .inl empty⟩
      exact (stores.previousAngle b member).trans (later.resolve_left some).le
    · simpa [WaveformStorage.report, WaveformStorage.setShapeDefinitionError,
        WaveformStorage.setPreviousAngle, WaveformStorage.announce] using stores.inOrder

theorem order_of_accepts (stores : Stores s shape) (accepts : s.Accepts isSameF e) :
    ∀ b ∈ shape.events, b.angle < e.angle := by
  intro b member
  rcases accepts.2 with empty | ⟨later, -⟩
  · have none : shape.events.length = 0 := stores.held.phaseCount.symm.trans empty
    rw [List.length_eq_zero_iff.mp none] at member
    cases member
  · exact (stores.previousAngle b member).trans_lt later

theorem addEvent_accepts (mode : s.operationMode ≠ .omNone) (accepts : s.Accepts isSameF e) :
    s.addEvent isSameF e = ((s.announce e).setPreviousAngle e.angle).storeEvent isSameF e := by
  obtain ⟨⟨positive, within⟩, place⟩ := accepts
  have angle : ¬(e.angle ≤ 0 ∨ e.angle > 1) := by
    rintro (low | high)
    · exact absurd positive (not_lt.mpr low)
    · exact absurd within (not_le.mpr high)
  rw [WaveformStorage.addEvent, if_neg mode]
  simp only [if_neg angle]
  refine if_neg ?_
  rintro ⟨some, early⟩
  rcases place with empty | ⟨later, -⟩
  · exact absurd empty (Nat.ne_of_gt some)
  · exact absurd later (not_lt.mpr early)

/-- What the shape accepts is stored, where it has a place. -/
theorem addEvent_stored (stores : Stores s shape) (mode : s.operationMode ≠ .omNone)
    (accepts : s.Accepts isSameF e) (room : shape.getSize < phaseMaxCount) :
    ∃ s' shape', s.addEvent isSameF e = some s' ∧ shape.addEvent e = some shape' ∧
      Stores s' shape' ∧ s'.previousAngle = e.angle ∧ s'.operationMode = s.operationMode := by
  have order := stores.order_of_accepts accepts
  obtain ⟨shape', added⟩ :=
    TriggerWaveform.addEvent_of_lt accepts.1.1 accepts.1.2 order room
  obtain ⟨appended, same, edges⟩ := TriggerWaveform.addEvent_some added
  obtain ⟨wave, isRiseEvent, stored, held⟩ :=
    @Held.storeEvent _ shape' e ((s.announce e).setPreviousAngle e.angle) isSameF stores.held order
      (accepts.2.imp_right And.right) room appended
  refine ⟨_, shape', (addEvent_accepts mode accepts).trans stored, added, ?_, rfl, rfl⟩
  refine ⟨stores.operationMode.trans same.symm, ?_, held, stores.announce_expected appended edges,
    ?_, stores.inOrder⟩
  · rw [TriggerWaveform.useOnlyRisingEdges, edges]
    exact stores.useOnlyRisingEdges
  · rw [appended]
    intro b member
    rcases List.mem_append.mp member with old | new
    · exact (order b old).le
    · exact (List.mem_singleton.mp new) ▸ le_refl _

end Stores

/-- A wave form that is being built, with the events whose `addEvent` stored them. -/
structure ShapeBuilding where
  storage : WaveformStorage
  accepted : List ShapeEvent := []

namespace ShapeBuilding

/-- One `addEvent`. -/
def step (isSameF : ℚ → ℚ → Bool) (c : ShapeBuilding) (e : ShapeEvent) : Option ShapeBuilding :=
  (c.storage.addEvent isSameF e).map fun storage =>
    { storage
      accepted :=
        if storage.wave.phaseCount = c.storage.wave.phaseCount then c.accepted
        else c.accepted ++ [e] }

/-- All parts of the representation agree with the accepted events. -/
structure Aligned (c : ShapeBuilding) : Prop where
  phaseCount : c.storage.wave.phaseCount = c.accepted.length
  room : c.accepted.length ≤ phaseMaxCount
  getSwitchTime : ∀ i e, c.accepted[i]? = some e → c.storage.wave.getSwitchTime i = some e.angle
  increasing : c.accepted.Pairwise (·.angle < ·.angle)
  within : ∀ e ∈ c.accepted, 0 < e.angle ∧ e.angle ≤ 1
  isRiseEvent : ∀ i e, c.accepted[i]? = some e → c.storage.isRiseEvent.load i = some e.state
  ownChannel : ∀ i e, c.accepted[i]? = some e →
    c.storage.wave.getChannelState e.channelIndex.channel i = some e.state
  otherChannel : ∀ i e (wheel : TriggerWheel), c.accepted[i + 1]? = some e →
    wheel ≠ e.channelIndex → c.storage.wave.getChannelState wheel.channel (i + 1) =
      c.storage.wave.getChannelState wheel.channel i
  inOrder : .areWeEverHere ∉ c.storage.reports
  expectedEventCount : ∀ wheel, c.storage.expectedEventCount wheel = c.accepted.countP fun e =>
    e.channelIndex = wheel && (!c.storage.useOnlyRisingEdges || e.state)

/-- An event that will be stored has a place in the arrays, and one that will be refused is not
counted: a falling edge where only rising ones count. -/
def Placed (isSameF : ℚ → ℚ → Bool) (c : ShapeBuilding) (e : ShapeEvent) : Prop :=
  c.storage.operationMode ≠ .omNone →
    if c.storage.Accepts isSameF e then c.storage.wave.phaseCount < phaseMaxCount
    else c.storage.useOnlyRisingEdges = true ∧ e.state = false

instance (isSameF : ℚ → ℚ → Bool) (c : ShapeBuilding) (e : ShapeEvent) :
    Decidable (c.Placed isSameF e) :=
  inferInstanceAs (Decidable (_ → _))

/-- The storage is that of a shape made of the accepted events. -/
def Refines (c : ShapeBuilding) : Prop :=
  ∃ shape : TriggerWaveform, Stores c.storage shape ∧ shape.events = c.accepted

variable {c c' : ShapeBuilding} {isSameF : ℚ → ℚ → Bool} {e : ShapeEvent}

theorem step_of_kept {s : WaveformStorage} (added : c.storage.addEvent isSameF e = some s)
    (kept : s.wave.phaseCount = c.storage.wave.phaseCount) :
    c.step isSameF e = some ⟨s, c.accepted⟩ := by
  simp [step, added, kept]

theorem step_of_grown {s : WaveformStorage} (added : c.storage.addEvent isSameF e = some s)
    (grown : s.wave.phaseCount ≠ c.storage.wave.phaseCount) :
    c.step isSameF e = some ⟨s, c.accepted ++ [e]⟩ := by
  simp [step, added, grown]

theorem Refines.aligned (refines : c.Refines) : c.Aligned := by
  obtain ⟨shape, stores, events⟩ := refines
  have stored : ∀ {i e}, c.accepted[i]? = some e → i < shape.getSize ∧ shape.events[i]? = some e := by
    intro i e there
    rw [← events] at there
    exact ⟨(List.getElem?_eq_some_iff.mp there).1, there⟩
  refine ⟨?_, events ▸ shape.capacity, ?_, events ▸ shape.ordered, ?_, ?_, ?_, ?_, stores.inOrder, ?_⟩
  · rw [← events]
    exact stores.held.phaseCount
  · intro i e there
    obtain ⟨inside, here⟩ := stored there
    rw [stores.held.getSwitchTime i inside, TriggerWaveform.getSwitchTime, here]
    rfl
  · rw [← events]
    exact fun e member => ⟨shape.positive e member, shape.withinTurn e member⟩
  · intro i e there
    obtain ⟨inside, here⟩ := stored there
    rw [stores.held.isRise i inside, TriggerWaveform.isRiseEvent, here]
    rfl
  · intro i e there
    obtain ⟨inside, here⟩ := stored there
    have own : shape.channelIndex i = e.channelIndex := by
      rw [TriggerWaveform.channelIndex, here]
      rfl
    have rise : shape.isRiseEvent i = e.state := by
      rw [TriggerWaveform.isRiseEvent, here]
      rfl
    rw [stores.held.getChannelState i inside, ← own, ← rise]
    cases i <;> simp [TriggerWaveform.getChannelState]
  · intro i e wheel there other
    obtain ⟨inside, here⟩ := stored there
    have own : shape.channelIndex (i + 1) = e.channelIndex := by
      rw [TriggerWaveform.channelIndex, here]
      rfl
    rw [stores.held.getChannelState (i + 1) inside, stores.held.getChannelState i (by omega),
      TriggerWaveform.getChannelState, own, if_neg (Ne.symm other)]
  · intro wheel
    rw [stores.expectedEventCount, TriggerWaveform.getExpectedEventCount, events,
      stores.useOnlyRisingEdges]

/-- The condition is what a call needs to go on, and to keep the representation aligned. -/
theorem Refines.step (refines : c.Refines) (placed : c.Placed isSameF e) :
    ∃ c', c.step isSameF e = some c' ∧ c'.Refines := by
  obtain ⟨shape, stores, events⟩ := refines
  have count : c.storage.wave.phaseCount = shape.getSize := stores.held.phaseCount
  by_cases mode : c.storage.operationMode = .omNone
  · have refused : c.storage.addEvent isSameF e = some (c.storage.report .operationModeNotSet) :=
      if_pos mode
    refine ⟨_, step_of_kept refused rfl, shape, ?_, events⟩
    refine ⟨stores.operationMode, stores.useOnlyRisingEdges, stores.held,
      stores.expectedEventCount, stores.previousAngle, ?_⟩
    simpa [WaveformStorage.report] using stores.inOrder
  have needed := placed mode
  split at needed
  · next accepts =>
    obtain ⟨s', shape', added, same, stores', -⟩ := stores.addEvent_stored mode accepts (by omega)
    obtain ⟨appended, -⟩ := TriggerWaveform.addEvent_some same
    have grown : s'.wave.phaseCount ≠ c.storage.wave.phaseCount := by
      have size := TriggerWaveform.getSize_appended appended
      have count' : s'.wave.phaseCount = shape'.getSize := stores'.held.phaseCount
      omega
    exact ⟨_, step_of_grown added grown, shape', stores', by rw [appended, events]⟩
  · next refused =>
    obtain ⟨s', added, same, -, -, stores'⟩ := stores.addEvent_refused mode refused
    refine ⟨_, step_of_kept added same, shape, ?_, events⟩
    exact stores' ((stores.announce_kept_iff).mpr needed)

theorem Refines.needs (refines : c.Refines) (taken : c.step isSameF e = some c')
    (aligned : c'.Aligned) : c.Placed isSameF e := by
  obtain ⟨shape, stores, events⟩ := refines
  have count : c.storage.wave.phaseCount = shape.getSize := stores.held.phaseCount
  intro mode
  split
  · next accepts =>
    by_contra full
    have outside := @Held.storeEvent_full shape e
      ((c.storage.announce e).setPreviousAngle e.angle) isSameF stores.held
      (stores.order_of_accepts accepts) (accepts.2.imp_right And.right) (by omega)
    rw [ShapeBuilding.step, Stores.addEvent_accepts mode accepts, outside] at taken
    cases taken
  · next refused =>
    obtain ⟨s', added, same, counted, edges, -⟩ := stores.addEvent_refused mode refused
    obtain rfl := Option.some.inj ((step_of_kept added same).symm.trans taken)
    refine (stores.announce_kept_iff).mp ?_
    rw [← counted]
    funext wheel
    rw [aligned.expectedEventCount, edges, ← events, stores.useOnlyRisingEdges]
    rfl

/-- After `initialize`, whatever was stored before. -/
def start (old : WaveformStorage) (operationMode : OperationMode) (syncEdge : SyncEdge) :
    ShapeBuilding where
  storage := old.initializeShape operationMode syncEdge

/-- In every sequence of `addEvent` calls the representation stays aligned just when each of them
meets the condition. -/
theorem aligned_iff_placed (isSameF : ℚ → ℚ → Bool) (old : WaveformStorage)
    (operationMode : OperationMode) (syncEdge : SyncEdge) (events : List ShapeEvent) :
    Machine.Along (step isSameF) Aligned (start old operationMode syncEdge) events ↔
      Machine.Supervised (step isSameF) (Placed isSameF) (start old operationMode syncEdge)
        events := by
  have refines : (start old operationMode syncEdge).Refines :=
    ⟨{ operationMode, syncEdge }, Stores.initializeShape old { operationMode, syncEdge } rfl, rfl⟩
  apply @Machine.along_iff_supervised _ _ _ _ _ Aligned (Placed isSameF) (fun _ => Refines) _ _ _
    refines
  · rintro - c refines
    exact refines.aligned
  · rintro - c e placed refines
    exact refines.step placed
  · rintro - c e c' refines taken aligned
    exact refines.needs taken aligned

section Increasing
variable {events : List ShapeEvent}

theorem accepts_later (refines : c.Refines) (exact : ∀ a b, isSameF a b = decide (a = b))
    (within : 0 < e.angle ∧ e.angle ≤ 1) (later : c.storage.previousAngle < e.angle) :
    c.storage.Accepts isSameF e := by
  obtain ⟨shape, stores, -⟩ := refines
  have count : c.storage.wave.phaseCount = shape.getSize := stores.held.phaseCount
  have search : ∀ rounds i, i + rounds = shape.getSize →
      c.storage.wave.findAngleMatch isSameF e.angle rounds i = some none := by
    intro rounds
    induction rounds with
    | zero => exact fun i _ => rfl
    | succ rounds ih =>
      intro i place
      have inside : i < shape.events.length := by
        rw [TriggerWaveform.getSize] at place
        omega
      have time : shape.getSwitchTime i = shape.events[i].angle := by
        simp [TriggerWaveform.getSwitchTime, inside]
      have before := (stores.previousAngle _ (List.getElem_mem inside)).trans_lt later
      rw [StateSequence.findAngleMatch, stores.held.getSwitchTime i inside, Option.bind_eq_bind,
        Option.bind_some, time, exact, if_neg (by simpa using before.ne)]
      exact ih (i + 1) (by omega)
  exact ⟨within, .inr ⟨later, by rw [count]; exact search _ 0 (Nat.zero_add _)⟩⟩

/-- More events in order than there are places for end outside the arrays. -/
theorem run_overflows (refines : c.Refines) (exact : ∀ a b, isSameF a b = decide (a = b))
    (mode : c.storage.operationMode ≠ .omNone) (order : events.Pairwise (·.angle < ·.angle))
    (within : ∀ e ∈ events, 0 < e.angle ∧ e.angle ≤ 1)
    (later : ∀ e ∈ events, c.storage.previousAngle < e.angle)
    (many : phaseMaxCount < c.accepted.length + events.length) :
    Machine.run (step isSameF) c events = none := by
  induction events generalizing c with
  | nil =>
    obtain ⟨shape, -, events⟩ := refines
    have room := shape.capacity
    rw [events] at room
    exact absurd many (not_lt.mpr room)
  | cons e events ih =>
    have accepts := accepts_later refines exact (within e (List.mem_cons_self ..))
      (later e (List.mem_cons_self ..))
    obtain ⟨shape, stores, same⟩ := refines
    rw [Machine.run_cons]
    by_cases room : shape.getSize < phaseMaxCount
    · obtain ⟨s', shape', added, stored, stores', previous, kept⟩ :=
        stores.addEvent_stored mode accepts room
      obtain ⟨appended, -⟩ := TriggerWaveform.addEvent_some stored
      have grown : s'.wave.phaseCount ≠ c.storage.wave.phaseCount := by
        rw [stores'.held.phaseCount, stores.held.phaseCount,
          TriggerWaveform.getSize_appended appended]
        omega
      obtain ⟨first, rest⟩ := List.pairwise_cons.mp order
      rw [step_of_grown added grown, Option.bind_some]
      refine ih ⟨shape', stores', by rw [appended, same]⟩ (kept ▸ mode) rest ?_ ?_ ?_
      · exact fun b member => within b (List.mem_cons_of_mem _ member)
      · intro b member
        rw [previous]
        exact first b member
      · simp only [List.length_append, List.length_cons, List.length_nil] at many ⊢
        omega
    · have outside := @Held.storeEvent_full shape e
        ((c.storage.announce e).setPreviousAngle e.angle) isSameF stores.held
        (stores.order_of_accepts accepts) (accepts.2.imp_right And.right) (by omega)
      rw [step, Stores.addEvent_accepts mode accepts, outside]
      rfl

end Increasing

/-- A wheel of 141 teeth writes behind the arrays, and an angle out of order is refused but
counted. -/
theorem not_aligned :
    (∀ old, Machine.run (step fun a b => decide (a = b))
      (start old .fourStrokeCamSensor .rise)
      ((List.range 282).map fun k : Nat => ⟨((k : ℚ) + 1) / 282, k % 2 = 0, .primary⟩) = none) ∧
    (Machine.run (step fun a b => decide (a = b))
        (start ⟨.omNone, false, false, false, fun _ => 0, ⟨0, .fill 0, .fill 0⟩, .fill false, 0, []⟩
          .fourStrokeCamSensor .rise)
        [⟨1 / 2, true, .primary⟩, ⟨1 / 4, false, .primary⟩]).map
      (fun c => (c.accepted, c.storage.expectedEventCount .primary)) =
        some ([⟨1 / 2, true, .primary⟩], 2) := by
  constructor
  · intro old
    have refines : (start old .fourStrokeCamSensor .rise).Refines := by
      refine ⟨{ operationMode := .fourStrokeCamSensor, syncEdge := .rise }, ?_, rfl⟩
      exact Stores.initializeShape old { operationMode := .fourStrokeCamSensor, syncEdge := .rise } rfl
    apply run_overflows refines (fun _ _ => rfl) (show OperationMode.fourStrokeCamSensor ≠ _ by decide)
    · rw [List.pairwise_map]
      refine List.pairwise_lt_range.imp ?_
      intro a b less
      have cast : (a : ℚ) < b := by exact_mod_cast less
      dsimp only
      linarith
    · intro e member
      obtain ⟨k, inside, rfl⟩ := List.mem_map.mp member
      have small : (k : ℚ) + 1 ≤ 282 := by exact_mod_cast List.mem_range.mp inside
      constructor
      · positivity
      · dsimp only
        linarith
    · intro e member
      obtain ⟨k, inside, rfl⟩ := List.mem_map.mp member
      show (0 : ℚ) < (k + 1) / 282
      positivity
    · rw [List.length_map, List.length_range]
      exact (by decide : 280 < 0 + 282)
  · decide +kernel

end ShapeBuilding

end FomeFw.Trigger
