import FomeFw.Sensors.SensorPlan

/-! What `stopSensors` comes to: which slots it frees and which entries it clears. -/
namespace FomeFw.Sensors
open Hardware

/-- How a sensor is taken back: whether it gives up the slot in which it has a channel, and whether
it is unregistered even if it does not. -/
structure Release where
  sensor : SensorObject
  frees : Nat → Bool
  always : Bool

/-- The part of the state that counts. -/
abbrev Holdings := SensorRegistry × Places SensorObject Nat

namespace Release

/-- What the channel that the sensor has, if any, does to its entry. -/
def clears (r : Release) (held : Option Nat) : Bool := r.always || held.any r.frees

def apply (h : Holdings) (r : Release) : Holdings :=
  (if r.clears (h.2.find r.sensor) then h.1.unregister r.sensor else h.1,
    if (h.2.find r.sensor).any r.frees then h.2.drop r.sensor else h.2)

/-- Unsubscribed in any case. -/
def slot (sensor : SensorObject) : Release := ⟨sensor, fun _ => true, false⟩

/-- Unsubscribed where the channel is another one from now on. -/
def changed (sensor : SensorObject) (channel : Nat) : Release :=
  ⟨sensor, fun old => decide (old ≠ channel), false⟩

/-- Unregistered without a look at the slots. -/
def entry (sensor : SensorObject) : Release := ⟨sensor, fun _ => false, true⟩

def both (sensor : SensorObject) : Release := ⟨sensor, fun _ => true, true⟩

end Release

def applyAll (releases : List Release) (h : Holdings) : Holdings := releases.foldl Release.apply h

section Effect

variable {h : Holdings} {r : Release} {releases : List Release} {sensor : SensorObject}
variable {type : SensorType} {v : Nat}

theorem Release.distinct (distinct : h.2.Distinct) : (r.apply h).2.Distinct := by
  simp only [Release.apply]
  split
  · exact distinct.drop
  · exact distinct

theorem Release.holds_iff (distinct : h.2.Distinct) :
    (r.apply h).2.Holds sensor v ↔ h.2.Holds sensor v ∧ (r.sensor = sensor → r.frees v = false) := by
  simp only [Release.apply]
  cases found : h.2.find r.sensor with
  | none =>
    have absent := Places.find_eq_none.mp found
    simp only [Option.any_none, Bool.false_eq_true, if_false]
    refine ⟨fun holds => ⟨holds, ?_⟩, And.left⟩
    rintro rfl
    exact absurd (Places.mem_holders.mpr ⟨v, holds⟩) absent
  | some old =>
    have holds := Places.holds_of_find found
    simp only [Option.any_some]
    by_cases frees : r.frees old = true
    · rw [if_pos frees, Places.holds_drop distinct]
      constructor
      · rintro ⟨other, here⟩
        exact ⟨here, fun same => absurd same.symm other⟩
      · rintro ⟨here, kept⟩
        refine ⟨?_, here⟩
        rintro rfl
        rw [distinct.unique here holds, frees] at kept
        exact absurd (kept rfl) (by decide)
    · rw [if_neg frees]
      refine ⟨fun here => ⟨here, ?_⟩, And.left⟩
      rintro rfl
      rw [distinct.unique here holds]
      exact Bool.eq_false_iff.mpr frees

/-- A release does not touch the slot of another sensor. -/
theorem Release.find_apply (distinct : h.2.Distinct) (other : r.sensor ≠ sensor) :
    (r.apply h).2.find sensor = h.2.find sensor := by
  refine Option.ext fun v => ?_
  rw [(Release.distinct distinct).find_iff, distinct.find_iff, Release.holds_iff distinct]
  exact and_iff_left fun same => absurd same other

theorem distinct_applyAll (distinct : h.2.Distinct) : (applyAll releases h).2.Distinct := by
  induction releases generalizing h with
  | nil => exact distinct
  | cons r releases ih => exact ih (Release.distinct distinct)

theorem length_applyAll : (applyAll releases h).2.length = h.2.length := by
  induction releases generalizing h with
  | nil => rfl
  | cons r releases ih =>
    refine Eq.trans ih ?_
    simp only [Release.apply]
    split
    · exact Places.length_drop
    · rfl

theorem duplicates_applyAll : (applyAll releases h).1.duplicates = h.1.duplicates := by
  induction releases generalizing h with
  | nil => rfl
  | cons r releases ih =>
    refine Eq.trans ih ?_
    simp only [Release.apply]
    split <;> rfl

theorem holds_applyAll (distinct : h.2.Distinct) :
    (applyAll releases h).2.Holds sensor v ↔
      h.2.Holds sensor v ∧ ∀ r ∈ releases, r.sensor = sensor → r.frees v = false := by
  induction releases generalizing h with
  | nil => simp [applyAll]
  | cons r releases ih =>
    refine (ih (Release.distinct distinct)).trans ?_
    rw [Release.holds_iff distinct, List.forall_mem_cons, and_assoc]

/-- An entry is cleared where some sensor of its type is released. -/
theorem entry_applyAll (distinct : h.2.Distinct) (once : (releases.map Release.sensor).Nodup) :
    (applyAll releases h).1.entry type =
      if ∃ r ∈ releases, r.sensor.type = type ∧ r.clears (h.2.find r.sensor) = true then none
      else h.1.entry type := by
  induction releases generalizing h with
  | nil => simp [applyAll]
  | cons r releases ih =>
    rw [List.map_cons, List.nodup_cons] at once
    refine Eq.trans (ih (Release.distinct distinct) once.2) ?_
    have others : (∃ r' ∈ releases, r'.sensor.type = type ∧
        r'.clears ((r.apply h).2.find r'.sensor) = true) ↔
        ∃ r' ∈ releases, r'.sensor.type = type ∧ r'.clears (h.2.find r'.sensor) = true := by
      refine exists_congr fun r' => and_congr_right fun member => ?_
      have apart : r.sensor ≠ r'.sensor :=
        fun same => once.1 (same ▸ List.mem_map_of_mem member)
      rw [Release.find_apply distinct apart]
    simp only [others, List.exists_mem_cons_iff]
    by_cases later : ∃ r' ∈ releases, r'.sensor.type = type ∧ r'.clears (h.2.find r'.sensor) = true
    · rw [if_pos later, if_pos (.inr later)]
    · rw [if_neg later]
      simp only [later, or_false, Release.apply]
      by_cases clears : r.clears (h.2.find r.sensor) = true
      · rw [if_pos clears, SensorRegistry.entry_unregister]
        by_cases same : r.sensor.type = type
        · subst same
          rw [if_pos ⟨rfl, clears⟩, Function.update_self]
        · rw [if_neg (fun both => same both.1), Function.update_of_ne (Ne.symm same)]
      · rw [if_neg clears, if_neg (fun both => clears both.2)]

end Effect

/-- A step of the shut-down releases just what a list says. -/
def Undoes {K : Type} (releases : List Release) (f : SensorState K → SensorState K) : Prop :=
  ∀ s, ((f s).registry, (f s).slots) = applyAll releases (s.registry, s.slots)

namespace Undoes

variable {K : Type} {releases more : List Release} {f g : SensorState K → SensorState K}

theorem comp (first : Undoes releases f) (second : Undoes more g) :
    Undoes (releases ++ more) (fun s => g (f s)) := by
  intro s
  rw [second (f s), first s]
  exact List.foldl_append.symm

theorem unsubscribeSensor (sensor : SensorObject) :
    Undoes [.slot sensor] (fun s : SensorState K => s.unsubscribeSensor sensor) := by
  intro s
  simp only [SensorState.unsubscribeSensor, applyAll, List.foldl_cons, List.foldl_nil,
    Release.apply, Release.clears, Release.slot]
  cases s.slots.find sensor <;> rfl

theorem unregister (sensor : SensorObject) :
    Undoes [.entry sensor] (fun s : SensorState K => s.unregister sensor) := by
  intro s
  simp only [SensorState.unregister, applyAll, List.foldl_cons, List.foldl_nil,
    Release.apply, Release.clears, Release.entry]
  cases s.slots.find sensor <;> rfl

theorem unsubscribeChanged (sensor : SensorObject) (channel : Nat) :
    Undoes [.changed sensor channel]
      (fun s : SensorState K => s.unsubscribeChanged sensor channel) := by
  intro s
  simp only [SensorState.unsubscribeChanged, applyAll, List.foldl_cons, List.foldl_nil,
    Release.apply, Release.clears, Release.changed]
  cases found : s.slots.find sensor with
  | none => rfl
  | some old =>
    by_cases same : old = channel
    · simp [same]
    · simp [same, SensorState.unsubscribeSensor, found, SensorState.unregister]

/-- Unsubscribed, and unregistered in any case. -/
theorem unsubscribeAndUnregister (sensor : SensorObject) :
    Undoes [.both sensor]
      (fun s : SensorState K => (s.unsubscribeSensor sensor).unregister sensor) := by
  intro s
  simp only [SensorState.unsubscribeSensor, applyAll, List.foldl_cons, List.foldl_nil,
    Release.apply, Release.clears, Release.both]
  cases found : s.slots.find sensor with
  | none => rfl
  | some old =>
    have twice : (s.registry.unregister sensor).unregister sensor = s.registry.unregister sensor := by
      simp [SensorRegistry.unregister]
    simp [SensorState.unregister, twice]

/-- A step that keeps the registry and the slots. -/
theorem of_same (same : ∀ s, (f s).registry = s.registry ∧ (f s).slots = s.slots) :
    Undoes [] f := by
  intro s
  exact Prod.ext (same s).1 (same s).2

theorem deInit (sensor : SensorObject) :
    Undoes [] (fun s : SensorState K => FrequencySensor.deInit s sensor) := by
  apply of_same
  intro s
  rw [FrequencySensor.deInit]
  split <;> exact ⟨rfl, rfl⟩

theorem deInitFlexSensor :
    Undoes [.entry .flexSensor, .entry .flexFuelTemp] (@deInitFlexSensor K) := by
  have pins : Undoes [] (fun s : SensorState K =>
      if !isBrainPinValid (s.pins .flexSensor) then s
      else { s with pins := Function.update s.pins .flexSensor Gpio.Unassigned }) := by
    apply of_same
    intro s
    split <;> exact ⟨rfl, rfl⟩
  exact ((unregister .flexSensor).comp (unregister .flexFuelTemp)).comp pins

end Undoes

/-- What `stopSensors` releases under the new configuration. -/
def releases {K : Type} (c : SensorSettings K) : List Release :=
  [.slot .tps1p, .slot .tps1s, .entry .tps1, .slot .tps2p, .slot .tps2s, .entry .tps2,
    .slot .pedalPrimary, .slot .pedalSecondary, .entry .pedal, .slot .wastegate,
    .changed .oilpSensor c.oilPressure.hwChannel,
    .changed .fuelPressureSensorLow c.lowPressureFuel.hwChannel,
    .changed .fuelPressureSensorHigh c.highPressureFuel.hwChannel,
    .changed .auxLinear1Sensor c.auxLinear1.hwChannel,
    .changed .auxLinear2Sensor c.auxLinear2.hwChannel,
    .changed .auxLinear3Sensor c.auxLinear3.hwChannel,
    .changed .auxLinear4Sensor c.auxLinear4.hwChannel,
    .changed .vbattSensor c.vbattAdcChannel,
    .changed .clt c.clt.adcChannel, .changed .iat c.iat.adcChannel,
    .changed .oilTempSensor c.oilTempSensor.adcChannel,
    .changed .fuelTempSensor c.fuelTempSensor.adcChannel,
    .changed .ambientTempSensor c.ambientTempSensor.adcChannel,
    .changed .compressorDischargeTemp c.compressorDischargeTemperature.adcChannel,
    .changed .aux1 c.auxTempSensor1.adcChannel, .changed .aux2 c.auxTempSensor2.adcChannel,
    .changed .lambdaSensor c.afrHwChannel, .changed .lambdaSensor2 c.afrHwChannel2,
    .entry .flexSensor, .entry .flexFuelTemp,
    .both .auxSensor1, .both .auxSensor2, .both .auxSensor3, .both .auxSensor4,
    .both .auxSensor5, .both .auxSensor6, .both .auxSensor7, .both .auxSensor8,
    .changed .slowMapSensor c.mapHwChannel, .changed .baroSensor c.baroHwChannel,
    .changed .throttleInletPress c.throttleInletPressureChannel,
    .changed .compressorDischargePress c.compressorDischargePressureChannel]

section StopSensors

variable {K : Type} (c : SensorSettings K)

theorem undoes_deinitTps :
    Undoes [.slot .tps1p, .slot .tps1s, .entry .tps1, .slot .tps2p, .slot .tps2s, .entry .tps2,
      .slot .pedalPrimary, .slot .pedalSecondary, .entry .pedal, .slot .wastegate]
      (@deinitTps K) := by
  have pair : ∀ pri sec redund, Undoes [.slot pri, .slot sec, .entry redund]
      (fun s : SensorState K => RedundantPair.deinit s pri sec redund) := by
    intro pri sec redund
    exact (Undoes.unsubscribeSensor pri).comp
      ((Undoes.unsubscribeSensor sec).comp (Undoes.unregister redund))
  exact (pair .tps1p .tps1s .tps1).comp ((pair .tps2p .tps2s .tps2).comp
    ((pair .pedalPrimary .pedalSecondary .pedal).comp (Undoes.unsubscribeSensor .wastegate)))

theorem undoes_deinitFluidPressure :
    Undoes [.changed .oilpSensor c.oilPressure.hwChannel,
      .changed .fuelPressureSensorLow c.lowPressureFuel.hwChannel,
      .changed .fuelPressureSensorHigh c.highPressureFuel.hwChannel,
      .changed .auxLinear1Sensor c.auxLinear1.hwChannel,
      .changed .auxLinear2Sensor c.auxLinear2.hwChannel,
      .changed .auxLinear3Sensor c.auxLinear3.hwChannel,
      .changed .auxLinear4Sensor c.auxLinear4.hwChannel] (deinitFluidPressure c) :=
  (Undoes.unsubscribeChanged _ _).comp ((Undoes.unsubscribeChanged _ _).comp
    ((Undoes.unsubscribeChanged _ _).comp ((Undoes.unsubscribeChanged _ _).comp
    ((Undoes.unsubscribeChanged _ _).comp ((Undoes.unsubscribeChanged _ _).comp
    (Undoes.unsubscribeChanged _ _))))))

theorem undoes_deinitThermistors :
    Undoes [.changed .clt c.clt.adcChannel, .changed .iat c.iat.adcChannel,
      .changed .oilTempSensor c.oilTempSensor.adcChannel,
      .changed .fuelTempSensor c.fuelTempSensor.adcChannel,
      .changed .ambientTempSensor c.ambientTempSensor.adcChannel,
      .changed .compressorDischargeTemp c.compressorDischargeTemperature.adcChannel,
      .changed .aux1 c.auxTempSensor1.adcChannel, .changed .aux2 c.auxTempSensor2.adcChannel]
      (deinitThermistors c) :=
  (Undoes.unsubscribeChanged _ _).comp ((Undoes.unsubscribeChanged _ _).comp
    ((Undoes.unsubscribeChanged _ _).comp ((Undoes.unsubscribeChanged _ _).comp
    ((Undoes.unsubscribeChanged _ _).comp ((Undoes.unsubscribeChanged _ _).comp
    ((Undoes.unsubscribeChanged _ _).comp (Undoes.unsubscribeChanged _ _)))))))

theorem undoes_deinitLambda :
    Undoes [.changed .lambdaSensor c.afrHwChannel, .changed .lambdaSensor2 c.afrHwChannel2]
      (deinitLambda c) :=
  (Undoes.unsubscribeChanged _ _).comp (Undoes.unsubscribeChanged _ _)

theorem undoes_deinitAuxSensors :
    Undoes [.both .auxSensor1, .both .auxSensor2, .both .auxSensor3, .both .auxSensor4,
      .both .auxSensor5, .both .auxSensor6, .both .auxSensor7, .both .auxSensor8]
      (@deinitAuxSensors K) :=
  (Undoes.unsubscribeAndUnregister _).comp ((Undoes.unsubscribeAndUnregister _).comp
    ((Undoes.unsubscribeAndUnregister _).comp ((Undoes.unsubscribeAndUnregister _).comp
    ((Undoes.unsubscribeAndUnregister _).comp ((Undoes.unsubscribeAndUnregister _).comp
    ((Undoes.unsubscribeAndUnregister _).comp (Undoes.unsubscribeAndUnregister _)))))))

theorem undoes_deinitMap :
    Undoes [.changed .slowMapSensor c.mapHwChannel, .changed .baroSensor c.baroHwChannel,
      .changed .throttleInletPress c.throttleInletPressureChannel,
      .changed .compressorDischargePress c.compressorDischargePressureChannel] (deinitMap c) :=
  (Undoes.unsubscribeChanged _ _).comp ((Undoes.unsubscribeChanged _ _).comp
    ((Undoes.unsubscribeChanged _ _).comp (Undoes.unsubscribeChanged _ _)))

theorem undoes_stopSensors : Undoes (releases c) (stopSensors c) := by
  have all := undoes_deinitTps.comp ((undoes_deinitFluidPressure c).comp
    ((Undoes.unsubscribeChanged .vbattSensor c.vbattAdcChannel).comp
    ((undoes_deinitThermistors c).comp ((undoes_deinitLambda c).comp
    (Undoes.deInitFlexSensor.comp (undoes_deinitAuxSensors.comp
    ((Undoes.deInit .vehicleSpeedSensor).comp ((Undoes.deInit .turbochargerSpeedSensor).comp
    ((undoes_deinitMap c).comp (Undoes.deInit .inputShaftSpeedSensor))))))))))
  exact all

end StopSensors

/-- No sensor is released twice. -/
theorem nodup_releases {K : Type} (c : SensorSettings K) :
    ((releases c).map Release.sensor).Nodup := by
  simp only [releases, List.map_cons, List.map_nil, Release.slot, Release.entry, Release.changed,
    Release.both]
  decide

end FomeFw.Sensors
