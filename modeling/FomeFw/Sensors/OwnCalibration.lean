import FomeFw.Lib.SharedCells
import FomeFw.Sensors.InitSensors
import Mathlib.Algebra.Order.Ring.Rat

/-! Whose calibration converts the voltages of the temperature and fluid pressure sensors. -/
namespace FomeFw.Sensors

variable {K : Type} [SinglePrecision K] {c : SensorSettings K} {s : SensorState K}

/-- The sensors are the holders, the converter objects the cells. -/
def Conversions.cells (s : Conversions K) :
    SharedCells SensorObject Converter (K → SensorResult K) where
  pointer := s.function
  content := s.convert

/-- The conversion that the settings of a temperature sensor describe. -/
def tempFunction (cfg : ThermistorSettings K) (isLinear isPulldown : Bool) : K → SensorResult K :=
  if isLinear then
    (LinearFunc.configure 1.0 cfg.resistance_1 cfg.tempC_1 cfg.resistance_2 cfg.tempC_2
      (-50.0) 250.0).convert
  else
    ThermistorChain.convert ⟨⟨5.0, cfg.bias_resistor, isPulldown⟩, ThermistorFunc.configure cfg⟩

/-- The conversion that the settings of a pressure sensor describe. -/
def fluidFunction (cfg : LinearSensorConf K) : K → SensorResult K :=
  (LinearFunc.configure 1.0 cfg.v1 cfg.value1 cfg.v2 cfg.value2 (-5.0)
    (if SinglePrecision.lt cfg.value2 cfg.value1 then cfg.value1 else cfg.value2)).convert

/-- The channel of a sensor and the conversion that its own settings describe. -/
def ownFunction (c : SensorSettings K) : SensorObject → Option (Nat × (K → SensorResult K))
  | .clt => some (c.clt.adcChannel, tempFunction c.clt.config c.useLinearCltSensor c.cltSensorPulldown)
  | .iat => some (c.iat.adcChannel, tempFunction c.iat.config c.useLinearIatSensor c.iatSensorPulldown)
  | .oilTempSensor => some (c.oilTempSensor.adcChannel, tempFunction c.oilTempSensor.config false false)
  | .fuelTempSensor =>
    some (c.fuelTempSensor.adcChannel, tempFunction c.fuelTempSensor.config false false)
  | .ambientTempSensor =>
    some (c.ambientTempSensor.adcChannel, tempFunction c.ambientTempSensor.config false false)
  | .compressorDischargeTemp =>
    some (c.compressorDischargeTemperature.adcChannel,
      tempFunction c.compressorDischargeTemperature.config false false)
  | .aux1 => some (c.auxTempSensor1.adcChannel, tempFunction c.auxTempSensor1.config false false)
  | .aux2 => some (c.auxTempSensor2.adcChannel, tempFunction c.auxTempSensor2.config false false)
  | .oilpSensor => some (c.oilPressure.hwChannel, fluidFunction c.oilPressure)
  | .fuelPressureSensorLow => some (c.lowPressureFuel.hwChannel, fluidFunction c.lowPressureFuel)
  | .fuelPressureSensorHigh => some (c.highPressureFuel.hwChannel, fluidFunction c.highPressureFuel)
  | .auxLinear1Sensor => some (c.auxLinear1.hwChannel, fluidFunction c.auxLinear1)
  | .auxLinear2Sensor => some (c.auxLinear2.hwChannel, fluidFunction c.auxLinear2)
  | .auxLinear3Sensor => some (c.auxLinear3.hwChannel, fluidFunction c.auxLinear3)
  | .auxLinear4Sensor => some (c.auxLinear4.hwChannel, fluidFunction c.auxLinear4)
  | _ => none

/-- Each sensor that has a channel converts every voltage with its own settings. -/
def OwnCalibration (c : SensorSettings K) (s : Conversions K) : Prop :=
  ∀ sensor channel f, ownFunction c sensor = some (channel, f) → isAdcChannelValid channel = true →
    ∀ voltage, s.postRawValue sensor voltage = f voltage

/-- The converter object that a sensor is set up with; only the two that are linear or not as
configured, and those of the temperatures, are not fixed by the sensor's name. -/
def converterOf (c : SensorSettings K) : SensorObject → Converter
  | .clt => if c.useLinearCltSensor then .linear (.ofPair .fclt) else .thermistor .fclt
  | .iat => if c.useLinearIatSensor then .linear (.ofPair .fiat) else .thermistor .fiat
  | .oilTempSensor => .thermistor .faux2
  | .fuelTempSensor => .thermistor .ffuel
  | .ambientTempSensor => .thermistor .fambient
  | .compressorDischargeTemp => .thermistor .fcdt
  | .aux1 => .thermistor .faux1
  | .aux2 => .thermistor .faux2
  | .oilpSensor => .linear .oilpSensorFunc
  | .fuelPressureSensorLow => .linear .fuelPressureFuncLow
  | .fuelPressureSensorHigh => .linear .fuelPressureFuncHigh
  | .auxLinear1Sensor => .linear .auxLinear1Func
  | .auxLinear2Sensor => .linear .auxLinear2Func
  | .auxLinear3Sensor => .linear .auxLinear3Func
  | _ => .linear .auxLinear4Func

/-- The sensors of the two functions in their order. -/
def calibrated : List SensorObject :=
  [.clt, .iat, .oilTempSensor, .fuelTempSensor, .ambientTempSensor, .compressorDischargeTemp,
    .aux1, .aux2, .oilpSensor, .fuelPressureSensorLow, .fuelPressureSensorHigh,
    .auxLinear1Sensor, .auxLinear2Sensor, .auxLinear3Sensor, .auxLinear4Sensor]

/-- How a sensor that has a channel is set up. -/
def setUpAt (sensor : SensorObject) (cell : Converter) (channel : Nat) (f : K → SensorResult K) :
    Option (SetUp SensorObject Converter (K → SensorResult K)) :=
  if isAdcChannelValid channel then some ⟨sensor, cell, f⟩ else none

def setUpOf (c : SensorSettings K) (sensor : SensorObject) :
    Option (SetUp SensorObject Converter (K → SensorResult K)) :=
  (ownFunction c sensor).bind fun own => setUpAt sensor (converterOf c sensor) own.1 own.2

def setUps (c : SensorSettings K) : List (SetUp SensorObject Converter (K → SensorResult K)) :=
  calibrated.filterMap (setUpOf c)

namespace Conversions

variable {conversions : Conversions K} {sensor : SensorObject}

theorem cells_linear (name : LinearName) (f : LinearFunc K) :
    ({ conversions with linear := Function.update conversions.linear name f }.setFunction sensor
      (.linear name)).cells = conversions.cells.setUp ⟨sensor, .linear name, f.convert⟩ := by
  have content : ∀ converter : Converter,
      ({ conversions with linear := Function.update conversions.linear name f }).convert converter =
        Function.update conversions.convert (.linear name) f.convert converter := by
    intro converter
    cases converter with
    | thermistor pair => rfl
    | linear other =>
      by_cases same : other = name
      · subst same
        simp [convert]
      · simp [convert, same]
  exact congrArg _ (funext content)

theorem cells_thermistor (pair : FuncPair) (f : ThermistorChain K) :
    ({ conversions with thermistor := Function.update conversions.thermistor pair f }.setFunction
      sensor (.thermistor pair)).cells =
      conversions.cells.setUp ⟨sensor, .thermistor pair, f.convert⟩ := by
  have content : ∀ converter : Converter,
      ({ conversions with
          thermistor := Function.update conversions.thermistor pair f }).convert converter =
        Function.update conversions.convert (.thermistor pair) f.convert converter := by
    intro converter
    cases converter with
    | linear name => rfl
    | thermistor other =>
      by_cases same : other = pair
      · subst same
        simp [convert]
      · simp [convert, same]
  exact congrArg _ (funext content)

end Conversions

section Parts

omit [SinglePrecision K]

@[simp] theorem conversions_subscribeSensor {sensor : SensorObject} {channel : Nat} :
    (s.subscribeSensor sensor channel).conversions = s.conversions := by
  rw [SensorState.subscribeSensor_eq]

@[simp] theorem conversions_register {sensor : SensorObject} :
    (s.register sensor).conversions = s.conversions := rfl

theorem setUpAll_append {m : SharedCells SensorObject Converter (K → SensorResult K)} (plan more) :
    (m.setUpAll plan).setUpAll more = m.setUpAll (plan ++ more) := List.foldl_append.symm

theorem converterOf_ne :
    calibrated.Pairwise fun x y =>
      (x = .oilTempSensor ∧ y = .aux2) ∨ converterOf c x ≠ converterOf c y := by
  simp only [calibrated, converterOf]
  cases c.useLinearCltSensor <;> cases c.useLinearIatSensor <;> decide

end Parts

theorem cells_configureTempSensor (sensor : SensorObject) (p : FuncPair) (cfg : ThermistorConf K)
    (isLinear isPulldown : Bool) :
    (configureTempSensor s sensor p cfg isLinear isPulldown).conversions.cells =
      s.conversions.cells.setUpAll
        (setUpAt sensor (if isLinear then .linear (.ofPair p) else .thermistor p) cfg.adcChannel
          (tempFunction cfg.config isLinear isPulldown)).toList := by
  rw [configureTempSensor, setUpAt]
  cases valid : isAdcChannelValid cfg.adcChannel with
  | false => rfl
  | true =>
    simp only [Bool.not_true, Bool.false_eq_true, if_false, if_true, conversions_register,
      conversions_subscribeSensor, configTherm, valid, configureTempSensorFunction]
    cases isLinear with
    | true => exact Conversions.cells_linear _ _
    | false => exact Conversions.cells_thermistor _ _

theorem cells_initFluidPressureSensor (func : LinearName) (sensor : SensorObject)
    (cfg : LinearSensorConf K) :
    (initFluidPressureSensor s func sensor cfg).conversions.cells =
      s.conversions.cells.setUpAll
        (setUpAt sensor (.linear func) cfg.hwChannel (fluidFunction cfg)).toList := by
  rw [initFluidPressureSensor, setUpAt]
  cases valid : isAdcChannelValid cfg.hwChannel with
  | false => rfl
  | true =>
    simp only [Bool.not_true, Bool.false_eq_true, if_false, if_true, conversions_register,
      conversions_subscribeSensor]
    exact Conversions.cells_linear _ _

theorem cells_init :
    (initFluidPressure c (initThermistors c s)).conversions.cells =
      s.conversions.cells.setUpAll (setUps c) := by
  simp only [initFluidPressure, initThermistors, conversions_register,
    cells_initFluidPressureSensor, cells_configureTempSensor, setUpAll_append, setUps,
    List.filterMap_eq_flatMap_toList]
  simp [calibrated, setUpOf, ownFunction, converterOf]

theorem setUpOf_eq_some {sensor : SensorObject}
    {e : SetUp SensorObject Converter (K → SensorResult K)} (set : setUpOf c sensor = some e) :
    e.holder = sensor ∧ e.cell = converterOf c sensor ∧ ∃ channel,
      ownFunction c sensor = some (channel, e.content) ∧ isAdcChannelValid channel = true := by
  obtain ⟨⟨channel, f⟩, own, at_⟩ := Option.bind_eq_some_iff.mp set
  rw [setUpAt] at at_
  split at at_
  · next valid =>
    obtain rfl := Option.some.inj at_
    exact ⟨rfl, rfl, channel, own, valid⟩
  · contradiction

theorem mem_setUps {sensor : SensorObject} {channel : Nat} {f : K → SensorResult K}
    (own : ownFunction c sensor = some (channel, f)) (valid : isAdcChannelValid channel = true) :
    ⟨sensor, converterOf c sensor, f⟩ ∈ setUps c := by
  have member : sensor ∈ calibrated := by
    cases sensor <;> first | decide | cases own
  refine List.mem_filterMap.mpr ⟨sensor, member, ?_⟩
  rw [setUpOf, own, Option.bind_some, setUpAt, if_pos valid]

theorem distinct_setUps : ((setUps c).map SetUp.holder).Nodup := by
  have distinct : calibrated.Nodup := by decide
  refine List.pairwise_map.mpr (List.pairwise_filterMap.mpr (distinct.imp ?_))
  intro x y apart e one e' two
  rw [(setUpOf_eq_some one).1, (setUpOf_eq_some two).1]
  exact apart

/-- What a sensor posts is what it reads from its converter. -/
theorem ownCalibration_iff_reads :
    OwnCalibration c (initFluidPressure c (initThermistors c s)).conversions ↔
      ∀ e ∈ setUps c, (s.conversions.cells.setUpAll (setUps c)).read e.holder = some e.content := by
  rw [← @cells_init _ _ c s]
  generalize after : (initFluidPressure c (initThermistors c s)).conversions = conversions
  have posted : ∀ e ∈ setUps c, (∀ v, conversions.postRawValue e.holder v = e.content v) ↔
      conversions.cells.read e.holder = some e.content := by
    intro e member
    have pointer : conversions.function e.holder = some e.cell := by
      have points := SharedCells.pointer_of_mem (m := s.conversions.cells) distinct_setUps member
      rwa [← cells_init, after] at points
    rw [SharedCells.read]
    simp only [Conversions.postRawValue, Conversions.cells, pointer, Option.map_some, Option.some_inj]
    exact funext_iff.symm
  constructor
  · intro own e member
    obtain ⟨sensor, -, set⟩ := List.mem_filterMap.mp member
    obtain ⟨rfl, -, channel, same, valid⟩ := setUpOf_eq_some set
    exact (posted e member).mp (own e.holder channel e.content same valid)
  · intro reads sensor channel f own valid
    have member := mem_setUps own valid
    exact (posted _ member).mpr (reads _ member)

/-- Each sensor converts with its own settings just when the oil temperature and the second
auxiliary temperature, which share a converter, do not both have a channel or are to convert
alike. -/
theorem ownCalibration_iff (c : SensorSettings K) (s : SensorState K) :
    OwnCalibration c (initFluidPressure c (initThermistors c s)).conversions ↔
      (isAdcChannelValid c.oilTempSensor.adcChannel = true →
        isAdcChannelValid c.auxTempSensor2.adcChannel = true → ∀ voltage,
          tempFunction c.oilTempSensor.config false false voltage =
            tempFunction c.auxTempSensor2.config false false voltage) := by
  rw [ownCalibration_iff_reads, SharedCells.reads_own_iff distinct_setUps, setUps,
    List.pairwise_filterMap]
  constructor
  · intro agree oil aux
    have both : [SensorObject.oilTempSensor, .aux2].Sublist calibrated := by decide
    have pair := List.pairwise_pair.mp (agree.sublist both)
    have same := pair ⟨.oilTempSensor, .thermistor .faux2, _⟩
      (by rw [setUpOf, ownFunction, Option.bind_some, setUpAt, if_pos oil]; rfl)
      ⟨.aux2, .thermistor .faux2, _⟩
      (by rw [setUpOf, ownFunction, Option.bind_some, setUpAt, if_pos aux]; rfl)
    exact congrFun (same rfl)
  · intro alike
    refine (@converterOf_ne _ c).imp ?_
    intro x y apart e one e' two shared
    obtain ⟨-, cell, channel, own, valid⟩ := setUpOf_eq_some one
    obtain ⟨-, cell', channel', own', valid'⟩ := setUpOf_eq_some two
    rcases apart with ⟨rfl, rfl⟩ | apart
    · obtain ⟨rfl, oil⟩ := Prod.mk.inj (Option.some.inj own)
      obtain ⟨rfl, aux⟩ := Prod.mk.inj (Option.some.inj own')
      rw [← oil, ← aux]
      exact funext (alike valid valid')
    · exact absurd (cell.symm.trans (shared.trans cell')) apart

section Exact

/-- Exact arithmetic, with the logarithms of three resistances. -/
local instance : SinglePrecision ℚ where
  lt a b := decide (a < b)
  le a b := decide (a ≤ b)
  abs a := |a|
  logf r := if r = 9500 then 9.15905 else if r = 2000 then 7.6009 else if r = 200 then 5.29832 else 0

/-- Two thermistors of one kind, but the second is to read ten degrees more. -/
def twoThermistors : SensorSettings ℚ :=
  { SensorSettings.unconnected 0 with
    oilTempSensor := ⟨⟨0, 30, 100, 9500, 2000, 200, 2000⟩, 5⟩
    auxTempSensor2 := ⟨⟨10, 40, 110, 9500, 2000, 200, 2000⟩, 6⟩ }

/-- The oil temperature is read with the settings of the other. -/
theorem oilTempSensor_reads_aux2 :
    let conversions : Conversions ℚ :=
      ⟨fun _ => ⟨1, 0, 0, 0⟩, fun _ => ⟨⟨5, 1000, false⟩, ⟨0, 0, 0⟩⟩, fun _ => none⟩
    let s := initFluidPressure twoThermistors
      (initThermistors twoThermistors ⟨{}, List.replicate 16 none, conversions, fun _ => 0⟩)
    s.conversions.postRawValue .oilTempSensor 2.5 = .ok 40 ∧
      ownFunction twoThermistors .oilTempSensor =
        some (5, tempFunction twoThermistors.oilTempSensor.config false false) ∧
      tempFunction twoThermistors.oilTempSensor.config false false 2.5 = .ok 30 := by
  refine ⟨?_, rfl, ?_⟩ <;> decide +kernel

end Exact

end FomeFw.Sensors
