import FomeFw.Trigger.AngleArray
import FomeFw.Trigger.PhaseSpaces

/-! The speed from one tooth to an earlier one, `instant_rpm_calculator.cpp`. The times of
the teeth are kept in an array with a place for each edge of the engine cycle; before the
engine is synchronized they are collected from its start and moved afterwards. No result
stands for an access outside an array. -/
namespace FomeFw.Rpm
open Trigger

/-- `RPM_LOW_THRESHOLD` of most boards. -/
abbrev rpmLowThreshold : ℚ := 25

/-- The settings and cylinders that the calculator reads. -/
structure InstantRpmSettings where
  instantRpmRange : Nat
  cylindersCount : Nat
  cylContributionWindow : Nat
  cylContributionPhase : Nat
  /-- `getAngleOffset` of the cylinders. -/
  angleOffset : Nat → Angle

theorem rest_nonneg : (0 : ℚ) ≤ 0 := le_rfl

/-- The calculator, with the output channels it writes. A speed is never negative. -/
structure InstantRpmCalculator where
  timeOfLastEvent : FixedArray phaseMaxCount (BitVec 32) := .fill 0
  spinningEventIndex : Nat := 0
  instantRpm : {rpm : ℚ // 0 ≤ rpm} := ⟨0, rest_nonneg⟩
  lastCylRpm : ℚ := 0
  cylinderRpm : Nat → ℚ := fun _ => 0
  cylinderRpmDelta : Nat → ℚ := fun _ => 0

namespace InstantRpmCalculator

def resetInstantRpm (c : InstantRpmCalculator) : InstantRpmCalculator :=
  { c with
    timeOfLastEvent := .fill 0
    spinningEventIndex := 0
    instantRpm := ⟨0, rest_nonneg⟩ }

def movePreSynchTimestamps (c : InstantRpmCalculator) (triggerShape : TriggerWaveform) :
    Option InstantRpmCalculator := do
  let triggerSize := triggerShape.getLength
  let eventsToCopy := min c.spinningEventIndex triggerSize
  let (firstSrc, firstDst) :=
    if eventsToCopy ≥ triggerSize then (c.spinningEventIndex - triggerSize, 0)
    else (0, triggerSize - c.spinningEventIndex)
  let timeOfLastEvent ← c.timeOfLastEvent.move firstDst firstSrc eventsToCopy
  some { c with timeOfLastEvent }

/-- `unexpected` where there is no speed. -/
def calculateInstantRpm (c : InstantRpmCalculator) (triggerShape : TriggerWaveform)
    (eventAngles : EventAngles) (currentIndex : Nat) (nowNt32 : BitVec 32) (window : Angle) :
    Option (Option {rpm : ℚ // 0 ≤ rpm}) := do
  let engineCycle := getEngineCycle triggerShape.operationMode
  let currentAngle ← eventAngles.load currentIndex
  let previousAngle := wrapAngle engineCycle (currentAngle - window)
  let prevIndex ← triggerShape.findAngleIndex eventAngles previousAngle
  let prevIndexAngle ← eventAngles.load prevIndex
  let time90ago ← c.timeOfLastEvent.load prevIndex
  if time90ago = 0 then some none
  else
    let time := nowNt32 - time90ago
    let angleDiff := wrapAngle engineCycle (currentAngle - prevIndexAngle)
    if time = 0 then some none
    else
      let instantRpm := 60000000 / 360 * usToNt * angleDiff / time.toNat
      if low : instantRpm < rpmLowThreshold then some none
      else some (some ⟨instantRpm, le_trans (by norm_num) (not_lt.mp low)⟩)

def setLastEventTimeForInstantRpm (c : InstantRpmCalculator) (triggerShape : TriggerWaveform)
    (nowNt : Int) : Option InstantRpmCalculator :=
  if c.spinningEventIndex ≥ phaseMaxCount then some c
  else do
    let timeOfLastEvent ← c.timeOfLastEvent.store c.spinningEventIndex (.ofInt 32 nowNt)
    some { c with
      timeOfLastEvent
      spinningEventIndex := c.spinningEventIndex + triggerShape.indexStep }

/-- The loop over the cylinders, from one round to the next. -/
def contribute (triggerShape : TriggerWaveform) (eventAngles : EventAngles)
    (settings : InstantRpmSettings) (currentIndex : Nat) (nowNt32 : BitVec 32)
    (phaseInfo : EnginePhases) (c : InstantRpmCalculator) (i : Nat) :
    Option InstantRpmCalculator :=
  let measurementAngle := wrapAngle (getEngineCycle triggerShape.operationMode)
    (settings.angleOffset i + settings.cylContributionPhase)
  if phaseInfo.isEngPhaseInRange measurementAngle then do
    match ← c.calculateInstantRpm triggerShape eventAngles currentIndex nowNt32
        settings.cylContributionWindow with
    | none => some c
    | some rpm => some { c with
        cylinderRpm := Function.update c.cylinderRpm i rpm
        cylinderRpmDelta := Function.update c.cylinderRpmDelta i (rpm - c.lastCylRpm)
        lastCylRpm := rpm }
  else some c

def updateCylinderContribution (c : InstantRpmCalculator) (triggerShape : TriggerWaveform)
    (eventAngles : EventAngles) (settings : InstantRpmSettings) (currentIndex : Nat)
    (nowNt32 : BitVec 32) (phaseInfo : EnginePhases) : Option InstantRpmCalculator :=
  let minTriggerLength := settings.cylindersCount * 2
  if triggerShape.getLength < minTriggerLength then some c
  else if settings.cylContributionWindow ≤ 0 then some c
  else (List.range settings.cylindersCount).foldlM
    (contribute triggerShape eventAngles settings currentIndex nowNt32 phaseInfo) c

/-- An index outside the array is reported and goes no further. -/
def updateInstantRpm (c : InstantRpmCalculator) (triggerShape : TriggerWaveform)
    (eventAngles : EventAngles) (settings : InstantRpmSettings) (index : Nat)
    (phaseInfo : EnginePhases) : Option InstantRpmCalculator :=
  if index < phaseMaxCount then do
    let nowNt32 := BitVec.ofInt 32 phaseInfo.timestamp
    let timeOfLastEvent ← c.timeOfLastEvent.store index nowNt32
    let c := { c with timeOfLastEvent }
    match ← c.calculateInstantRpm triggerShape eventAngles index nowNt32 settings.instantRpmRange with
    | none => some c
    | some instantRpm =>
      updateCylinderContribution { c with instantRpm } triggerShape eventAngles settings index
        nowNt32 phaseInfo
  else some c

variable {c : InstantRpmCalculator} {triggerShape : TriggerWaveform} {eventAngles : EventAngles}
  {settings : InstantRpmSettings}

/-- The times before the synchronization fill the array from its start, in the steps in
which the index advances. -/
structure Spinning (triggerShape : TriggerWaveform) (c : InstantRpmCalculator) : Prop where
  bound : c.spinningEventIndex ≤ phaseMaxCount
  whole : triggerShape.indexStep ∣ c.spinningEventIndex

theorem indexStep_cases (triggerShape : TriggerWaveform) :
    triggerShape.indexStep = 1 ∨ triggerShape.indexStep = 2 := by
  rw [TriggerWaveform.indexStep]
  split
  · exact .inr rfl
  · exact .inl rfl

theorem resetInstantRpm_spinning (c : InstantRpmCalculator) :
    Spinning triggerShape c.resetInstantRpm :=
  ⟨Nat.zero_le _, Nat.dvd_zero _⟩

theorem Spinning.setLastEventTime (spinning : Spinning triggerShape c) (nowNt : Int) :
    ∃ c', c.setLastEventTimeForInstantRpm triggerShape nowNt = some c' ∧
      Spinning triggerShape c' := by
  unfold setLastEventTimeForInstantRpm
  split
  · exact ⟨c, rfl, spinning⟩
  · next free =>
    obtain ⟨times, stored⟩ := FixedArray.store_of_lt (a := c.timeOfLastEvent) (not_le.mp free)
      (.ofInt 32 nowNt)
    simp only [stored, Option.bind_eq_bind, Option.bind_some]
    refine ⟨_, rfl, ?_, ?_⟩
    · have size : phaseMaxCount = 280 := rfl
      have whole := spinning.whole
      rcases indexStep_cases triggerShape with step | step <;> rw [step] at whole ⊢ <;>
        simp only <;> omega
    · exact (Nat.dvd_add_right spinning.whole).mpr (Nat.dvd_refl _)

/-- With a place for every edge of the cycle the collected times stay in the array. -/
theorem Spinning.movePreSynchTimestamps (spinning : Spinning triggerShape c)
    (room : triggerShape.getLength ≤ phaseMaxCount) :
    ∃ c', c.movePreSynchTimestamps triggerShape = some c' ∧
      c'.spinningEventIndex = c.spinningEventIndex := by
  have bound := spinning.bound
  unfold InstantRpmCalculator.movePreSynchTimestamps
  by_cases more : min c.spinningEventIndex triggerShape.getLength ≥ triggerShape.getLength
  · obtain ⟨times, moved⟩ := FixedArray.move_of_le (a := c.timeOfLastEvent) (d := 0)
      (s := c.spinningEventIndex - triggerShape.getLength)
      (k := min c.spinningEventIndex triggerShape.getLength) (by omega) (by omega)
    simp only [if_pos more, moved, Option.bind_eq_bind, Option.bind_some]
    exact ⟨_, rfl, rfl⟩
  · obtain ⟨times, moved⟩ := FixedArray.move_of_le (a := c.timeOfLastEvent) (s := 0)
      (d := triggerShape.getLength - c.spinningEventIndex)
      (k := min c.spinningEventIndex triggerShape.getLength) (by omega) (by omega)
    simp only [if_neg more, moved, Option.bind_eq_bind, Option.bind_some]
    exact ⟨_, rfl, rfl⟩

/-- The table starts at the sync point, and has no more places than there are times. -/
structure Fits (triggerShape : TriggerWaveform) (eventAngles : EventAngles) : Prop where
  origin : eventAngles.load 0 = some 0
  some : 0 < triggerShape.getLength
  room : triggerShape.getLength ≤ phaseMaxCount

theorem load_place (eventAngles : EventAngles) (inside : i < phaseMaxCount) :
    ∃ angle, eventAngles.load i = some angle :=
  FixedArray.load_of_lt (by omega)

theorem Fits.calculateInstantRpm (fits : Fits triggerShape eventAngles)
    (inside : currentIndex < phaseMaxCount) (c : InstantRpmCalculator) (nowNt32 : BitVec 32)
    (window : Angle) :
    ∃ rpm, c.calculateInstantRpm triggerShape eventAngles currentIndex nowNt32 window =
      .some rpm := by
  obtain ⟨currentAngle, here⟩ := load_place eventAngles inside
  have ahead := (wrapAngle_spec (TriggerWaveform.getEngineCycle_pos triggerShape.operationMode)
    (currentAngle - window)).1
  obtain ⟨prevIndex, found, before⟩ := TriggerWaveform.findAngleIndex_lt
    fits.origin ahead fits.some fits.room
  have within : prevIndex < phaseMaxCount := before.trans_le fits.room
  obtain ⟨prevIndexAngle, there⟩ := load_place eventAngles within
  obtain ⟨time90ago, since⟩ := FixedArray.load_of_lt (a := c.timeOfLastEvent) within
  simp only [InstantRpmCalculator.calculateInstantRpm, here, found, there, since,
    Option.bind_eq_bind, Option.bind_some]
  split
  · exact ⟨_, rfl⟩
  · split
    · exact ⟨_, rfl⟩
    · split <;> exact ⟨_, rfl⟩

theorem Fits.contribute (fits : Fits triggerShape eventAngles) (inside : index < phaseMaxCount)
    (nowNt32 : BitVec 32) (phaseInfo : EnginePhases) (c : InstantRpmCalculator) (i : Nat) :
    ∃ c', InstantRpmCalculator.contribute triggerShape eventAngles settings index nowNt32 phaseInfo
      c i = .some c' ∧ c'.spinningEventIndex = c.spinningEventIndex := by
  obtain ⟨rpm, result⟩ := fits.calculateInstantRpm inside c nowNt32 settings.cylContributionWindow
  unfold InstantRpmCalculator.contribute
  simp only [result, Option.bind_eq_bind, Option.bind_some]
  split
  · cases rpm with
    | none => exact ⟨_, rfl, rfl⟩
    | some rpm => exact ⟨_, rfl, rfl⟩
  · exact ⟨_, rfl, rfl⟩

theorem Fits.updateCylinderContribution (fits : Fits triggerShape eventAngles)
    (settings : InstantRpmSettings) (inside : index < phaseMaxCount) (nowNt32 : BitVec 32)
    (phaseInfo : EnginePhases)
    (c : InstantRpmCalculator) :
    ∃ c', c.updateCylinderContribution triggerShape eventAngles settings index nowNt32 phaseInfo =
      .some c' ∧ c'.spinningEventIndex = c.spinningEventIndex := by
  have rounds : ∀ (cylinders : List Nat) (c : InstantRpmCalculator), ∃ c', cylinders.foldlM
      (InstantRpmCalculator.contribute triggerShape eventAngles settings index nowNt32 phaseInfo) c =
        .some c' ∧ c'.spinningEventIndex = c.spinningEventIndex := by
    intro cylinders
    induction cylinders with
    | nil => exact fun c => ⟨c, rfl, rfl⟩
    | cons i cylinders ih =>
      intro c
      obtain ⟨c₁, round, same⟩ := fits.contribute inside nowNt32 phaseInfo c i
      obtain ⟨c', rest, same'⟩ := ih c₁
      refine ⟨c', ?_, same'.trans same⟩
      rw [List.foldlM_cons, round]
      exact rest
  unfold InstantRpmCalculator.updateCylinderContribution
  dsimp only
  split
  · exact ⟨c, rfl, rfl⟩
  · split
    · exact ⟨c, rfl, rfl⟩
    · exact rounds _ c

theorem Fits.updateInstantRpm (fits : Fits triggerShape eventAngles)
    (settings : InstantRpmSettings) (index : Nat) (phaseInfo : EnginePhases)
    (c : InstantRpmCalculator) :
    ∃ c', c.updateInstantRpm triggerShape eventAngles settings index phaseInfo = .some c' ∧
      c'.spinningEventIndex = c.spinningEventIndex := by
  unfold InstantRpmCalculator.updateInstantRpm
  split
  · next inside =>
    obtain ⟨times, stored⟩ := FixedArray.store_of_lt (a := c.timeOfLastEvent) inside
      (.ofInt 32 phaseInfo.timestamp)
    obtain ⟨rpm, result⟩ := fits.calculateInstantRpm inside { c with timeOfLastEvent := times }
      (.ofInt 32 phaseInfo.timestamp) settings.instantRpmRange
    simp only [stored, result, Option.bind_eq_bind, Option.bind_some]
    cases rpm with
    | none => exact ⟨_, rfl, rfl⟩
    | some rpm =>
      obtain ⟨c', done, same⟩ := fits.updateCylinderContribution settings inside
        (.ofInt 32 phaseInfo.timestamp) phaseInfo
        { c with timeOfLastEvent := times, instantRpm := rpm }
      exact ⟨c', done, same⟩
  · exact ⟨c, rfl, rfl⟩

end InstantRpmCalculator

end FomeFw.Rpm
