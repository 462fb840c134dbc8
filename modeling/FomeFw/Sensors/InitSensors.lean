import FomeFw.Hardware.PinRepository
import FomeFw.Sensors.AdcSubscription

/-! How the sensors are made from the configuration and taken back, `init_sensors.cpp` and the
files beside it. Of the conversions only those of the temperatures and the fluid pressures are
kept. -/
namespace FomeFw.Sensors
open Hardware SinglePrecision

inductive WidebandMode where
  | Analog | FOMEInternal | AemXSeries
  deriving DecidableEq

/-- `linear_sensor_s` and `aux_linear_sensor_s`. -/
structure LinearSensorConf (K : Type) where
  hwChannel : Nat
  v1 : K
  value1 : K
  v2 : K
  value2 : K

structure ThermistorConf (K : Type) where
  config : ThermistorSettings K
  adcChannel : Nat

/-- The fields of the configuration that the sensors depend on; the channels inside `map.sensor`,
`baroSensor` and `afr` have names of their own. -/
structure SensorSettings (K : Type) where
  vbattAdcChannel : Nat
  mapHwChannel : Nat
  map2HwChannel : Nat
  throttleInletPressureChannel : Nat
  compressorDischargePressureChannel : Nat
  baroHwChannel : Nat
  tps1_1AdcChannel : Nat
  tpsMin : K
  tpsMax : K
  tps1_2AdcChannel : Nat
  tps1SecondaryMin : K
  tps1SecondaryMax : K
  tps2_1AdcChannel : Nat
  tps2Min : K
  tps2Max : K
  tps2_2AdcChannel : Nat
  tps2SecondaryMin : K
  tps2SecondaryMax : K
  throttlePedalPositionAdcChannel : Nat
  throttlePedalUpVoltage : K
  throttlePedalWOTVoltage : K
  throttlePedalPositionSecondAdcChannel : Nat
  throttlePedalSecondaryUpVoltage : K
  throttlePedalSecondaryWOTVoltage : K
  allowIdenticalPps : Bool
  wastegatePositionSensor : Nat
  wastegatePositionMin : K
  wastegatePositionMax : K
  oilPressure : LinearSensorConf K
  lowPressureFuel : LinearSensorConf K
  highPressureFuel : LinearSensorConf K
  auxLinear1 : LinearSensorConf K
  auxLinear2 : LinearSensorConf K
  auxLinear3 : LinearSensorConf K
  auxLinear4 : LinearSensorConf K
  clt : ThermistorConf K
  useLinearCltSensor : Bool
  cltSensorPulldown : Bool
  iat : ThermistorConf K
  useLinearIatSensor : Bool
  iatSensorPulldown : Bool
  oilTempSensor : ThermistorConf K
  fuelTempSensor : ThermistorConf K
  ambientTempSensor : ThermistorConf K
  compressorDischargeTemperature : ThermistorConf K
  auxTempSensor1 : ThermistorConf K
  auxTempSensor2 : ThermistorConf K
  widebandMode : WidebandMode
  canWriteEnabled : Bool
  canReadEnabled : Bool
  afrHwChannel : Nat
  afrHwChannel2 : Nat
  flexSensorPin : Nat
  auxAnalogInputs : Fin 8 → Nat
  vehicleSpeedSensorInputPin : Nat
  turboSpeedSensorInputPin : Nat
  tcuInputSpeedSensorPin : Nat
  enableCanVss : Bool
  canVssNbcType : Nat
  lps25BaroSensorScl : Nat
  lps25BaroSensorSda : Nat

/-- Nothing is connected; the numbers are all `zero`. -/
def SensorSettings.unconnected {K : Type} (zero : K) : SensorSettings K :=
  let linear : LinearSensorConf K := ⟨0, zero, zero, zero, zero⟩
  let thermistor : ThermistorConf K := ⟨⟨zero, zero, zero, zero, zero, zero, zero⟩, 0⟩
  { vbattAdcChannel := 0, mapHwChannel := 0, map2HwChannel := 0
    throttleInletPressureChannel := 0, compressorDischargePressureChannel := 0, baroHwChannel := 0
    tps1_1AdcChannel := 0, tpsMin := zero, tpsMax := zero
    tps1_2AdcChannel := 0, tps1SecondaryMin := zero, tps1SecondaryMax := zero
    tps2_1AdcChannel := 0, tps2Min := zero, tps2Max := zero
    tps2_2AdcChannel := 0, tps2SecondaryMin := zero, tps2SecondaryMax := zero
    throttlePedalPositionAdcChannel := 0, throttlePedalUpVoltage := zero
    throttlePedalWOTVoltage := zero, throttlePedalPositionSecondAdcChannel := 0
    throttlePedalSecondaryUpVoltage := zero, throttlePedalSecondaryWOTVoltage := zero
    allowIdenticalPps := false
    wastegatePositionSensor := 0, wastegatePositionMin := zero, wastegatePositionMax := zero
    oilPressure := linear, lowPressureFuel := linear, highPressureFuel := linear
    auxLinear1 := linear, auxLinear2 := linear, auxLinear3 := linear, auxLinear4 := linear
    clt := thermistor, useLinearCltSensor := false, cltSensorPulldown := false
    iat := thermistor, useLinearIatSensor := false, iatSensorPulldown := false
    oilTempSensor := thermistor, fuelTempSensor := thermistor, ambientTempSensor := thermistor
    compressorDischargeTemperature := thermistor
    auxTempSensor1 := thermistor, auxTempSensor2 := thermistor
    widebandMode := .Analog, canWriteEnabled := false, canReadEnabled := false
    afrHwChannel := 0, afrHwChannel2 := 0, flexSensorPin := 0, auxAnalogInputs := fun _ => 0
    vehicleSpeedSensorInputPin := 0, turboSpeedSensorInputPin := 0, tcuInputSpeedSensorPin := 0
    enableCanVss := false, canVssNbcType := 0, lps25BaroSensorScl := 0, lps25BaroSensorSda := 0 }

/-- The channel of a throttle-like sensor and its voltages at both ends. -/
structure TpsConfig (K : Type) where
  channel : Nat
  closed : K
  open' : K

variable {K : Type} [SinglePrecision K]

namespace FuncSensPair

/-- Whether the sensor can be configured: it has a channel and its ends are apart. -/
def configure (divideInput : K) (cfg : TpsConfig K) : Bool :=
  if !isAdcChannelValid cfg.channel then false
  else
    let scaledClosed := cfg.closed / divideInput
    let scaledOpen := cfg.open' / divideInput
    let split := abs (scaledOpen - scaledClosed)
    if lt split 0.5 then false else true

def init (s : SensorState K) (sens : SensorObject) (divideInput : K) (cfg : TpsConfig K) :
    Bool × SensorState K :=
  if !configure divideInput cfg then (false, s)
  else
    let s := s.subscribeSensor sens cfg.channel
    ((s.registry.register sens).1, s.register sens)

end FuncSensPair

namespace RedundantPair

/-- Two sensors that may be one, wired to both inputs. -/
def tooSimilar (primary secondary : TpsConfig K) : Bool :=
  let hasBothSensors := isAdcChannelValid primary.channel && isAdcChannelValid secondary.channel
  let tooCloseClosed := lt (abs (primary.closed - secondary.closed)) 0.2
  let tooCloseOpen := lt (abs (primary.open' - secondary.open')) 0.2
  hasBothSensors && tooCloseClosed && tooCloseOpen

def init (s : SensorState K) (pri sec redund : SensorObject) (divideInput : K)
    (primary secondary : TpsConfig K) (allowIdenticalSensors : Bool) : SensorState K :=
  let (hasFirst, s) := FuncSensPair.init s pri divideInput primary
  let (_, s) := FuncSensPair.init s sec divideInput secondary
  if !hasFirst then s
  else if !allowIdenticalSensors && tooSimilar primary secondary then s
  else s.register redund

def deinit (s : SensorState K) (pri sec redund : SensorObject) : SensorState K :=
  ((s.unsubscribeSensor pri).unsubscribeSensor sec).unregister redund

end RedundantPair

namespace FrequencySensor

def initIfValid (s : SensorState K) (sensor : SensorObject) (pin : Nat) : SensorState K :=
  if !isBrainPinValid pin then s
  else { s with pins := Function.update s.pins sensor pin }.register sensor

/-- The sensor stays registered. -/
def deInit (s : SensorState K) (sensor : SensorObject) : SensorState K :=
  if !isBrainPinValid (s.pins sensor) then s
  else { s with pins := Function.update s.pins sensor Gpio.Unassigned }

end FrequencySensor

variable (c : SensorSettings K)

def initVbatt (s : SensorState K) : SensorState K :=
  if !isAdcChannelValid c.vbattAdcChannel then s
  else (s.subscribeSensor .vbattSensor c.vbattAdcChannel).register .vbattSensor

def deinitVbatt (s : SensorState K) : SensorState K := s.unsubscribeChanged .vbattSensor c.vbattAdcChannel

/-- The second sensor, where there is a first one. -/
def initMap2 (s : SensorState K) : SensorState K :=
  if isAdcChannelValid c.map2HwChannel then
    (((s.register .slowMapSensor2).register .fastMapSensor2).register .mapCombiner2).subscribeSensor
      .slowMapSensor2 c.map2HwChannel
  else s

def initMap (s : SensorState K) : SensorState K :=
  let s :=
    if isAdcChannelValid c.mapHwChannel then
      initMap2 c ((((s.register .slowMapSensor).register .fastMapSensor).register
        .mapCombiner).subscribeSensor .slowMapSensor c.mapHwChannel)
    else s
  let s := s.subscribeSensor .throttleInletPress c.throttleInletPressureChannel
  let s := s.subscribeSensor .compressorDischargePress c.compressorDischargePressureChannel
  if isAdcChannelValid c.baroHwChannel then
    (s.register .baroSensor).subscribeSensor .baroSensor c.baroHwChannel
  else s

def deinitMap (s : SensorState K) : SensorState K :=
  let s := s.unsubscribeChanged .slowMapSensor c.mapHwChannel
  let s := s.unsubscribeChanged .baroSensor c.baroHwChannel
  let s := s.unsubscribeChanged .throttleInletPress c.throttleInletPressureChannel
  s.unsubscribeChanged .compressorDischargePress c.compressorDischargePressureChannel

/-- The arguments of the throttle and pedal sensors in `initTps`. -/
def tps1Primary : TpsConfig K := ⟨c.tps1_1AdcChannel, c.tpsMin, c.tpsMax⟩
def tps1Secondary : TpsConfig K := ⟨c.tps1_2AdcChannel, c.tps1SecondaryMin, c.tps1SecondaryMax⟩
def tps2Primary : TpsConfig K := ⟨c.tps2_1AdcChannel, c.tps2Min, c.tps2Max⟩
def tps2Secondary : TpsConfig K := ⟨c.tps2_2AdcChannel, c.tps2SecondaryMin, c.tps2SecondaryMax⟩
def pedalPrimary : TpsConfig K :=
  ⟨c.throttlePedalPositionAdcChannel, c.throttlePedalUpVoltage, c.throttlePedalWOTVoltage⟩
def pedalSecondary : TpsConfig K :=
  ⟨c.throttlePedalPositionSecondAdcChannel, c.throttlePedalSecondaryUpVoltage,
    c.throttlePedalSecondaryWOTVoltage⟩
def wastegate : TpsConfig K :=
  ⟨c.wastegatePositionSensor, c.wastegatePositionMin, c.wastegatePositionMax⟩

def initTps (s : SensorState K) : SensorState K :=
  let s := RedundantPair.init s .tps1p .tps1s .tps1 200.0 (tps1Primary c) (tps1Secondary c) false
  let s := RedundantPair.init s .tps2p .tps2s .tps2 200.0 (tps2Primary c) (tps2Secondary c) false
  let s := RedundantPair.init s .pedalPrimary .pedalSecondary .pedal 1.0 (pedalPrimary c)
    (pedalSecondary c) c.allowIdenticalPps
  let s := (FuncSensPair.init s .wastegate 1000.0 (wastegate c)).2
  s.register .driverIntent

def deinitTps (s : SensorState K) : SensorState K :=
  let s := RedundantPair.deinit s .tps1p .tps1s .tps1
  let s := RedundantPair.deinit s .tps2p .tps2s .tps2
  let s := RedundantPair.deinit s .pedalPrimary .pedalSecondary .pedal
  s.unsubscribeSensor .wastegate

/-- The static function of that name. -/
def initFluidPressureSensor (s : SensorState K) (func : LinearName) (sensor : SensorObject)
    (cfg : LinearSensorConf K) : SensorState K :=
  if !isAdcChannelValid cfg.hwChannel then s
  else
    let greaterOutput := if lt cfg.value2 cfg.value1 then cfg.value1 else cfg.value2
    let configured :=
      LinearFunc.configure 1.0 cfg.v1 cfg.value1 cfg.v2 cfg.value2 (-5.0) greaterOutput
    let conversions :=
      { s.conversions with linear := Function.update s.conversions.linear func configured }
    let s := { s with conversions := conversions.setFunction sensor (.linear func) }
    (s.subscribeSensor sensor cfg.hwChannel).register sensor

def initFluidPressure (s : SensorState K) : SensorState K :=
  let s := initFluidPressureSensor s .oilpSensorFunc .oilpSensor c.oilPressure
  let s := initFluidPressureSensor s .fuelPressureFuncLow .fuelPressureSensorLow c.lowPressureFuel
  let s := initFluidPressureSensor s .fuelPressureFuncHigh .fuelPressureSensorHigh c.highPressureFuel
  let s := initFluidPressureSensor s .auxLinear1Func .auxLinear1Sensor c.auxLinear1
  let s := initFluidPressureSensor s .auxLinear2Func .auxLinear2Sensor c.auxLinear2
  let s := initFluidPressureSensor s .auxLinear3Func .auxLinear3Sensor c.auxLinear3
  let s := initFluidPressureSensor s .auxLinear4Func .auxLinear4Sensor c.auxLinear4
  s.register .injectorPressure

def deinitFluidPressure (s : SensorState K) : SensorState K :=
  let s := s.unsubscribeChanged .oilpSensor c.oilPressure.hwChannel
  let s := s.unsubscribeChanged .fuelPressureSensorLow c.lowPressureFuel.hwChannel
  let s := s.unsubscribeChanged .fuelPressureSensorHigh c.highPressureFuel.hwChannel
  let s := s.unsubscribeChanged .auxLinear1Sensor c.auxLinear1.hwChannel
  let s := s.unsubscribeChanged .auxLinear2Sensor c.auxLinear2.hwChannel
  let s := s.unsubscribeChanged .auxLinear3Sensor c.auxLinear3.hwChannel
  s.unsubscribeChanged .auxLinear4Sensor c.auxLinear4.hwChannel

def configureTempSensorFunction (conversions : Conversions K) (cfg : ThermistorSettings K)
    (p : FuncPair) (isLinear isPulldown : Bool) : Converter × Conversions K :=
  if isLinear then
    let configured :=
      LinearFunc.configure 1.0 cfg.resistance_1 cfg.tempC_1 cfg.resistance_2 cfg.tempC_2 (-50.0) 250.0
    (.linear (.ofPair p),
      { conversions with linear := Function.update conversions.linear (.ofPair p) configured })
  else
    let configured : ThermistorChain K :=
      ⟨⟨5.0, cfg.bias_resistor, isPulldown⟩, ThermistorFunc.configure cfg⟩
    (.thermistor p,
      { conversions with thermistor := Function.update conversions.thermistor p configured })

def configTherm (conversions : Conversions K) (sensor : SensorObject) (p : FuncPair)
    (cfg : ThermistorConf K) (isLinear isPulldown : Bool) : Conversions K :=
  if !isAdcChannelValid cfg.adcChannel then conversions
  else
    let (converter, conversions) :=
      configureTempSensorFunction conversions cfg.config p isLinear isPulldown
    conversions.setFunction sensor converter

def configureTempSensor (s : SensorState K) (sensor : SensorObject) (p : FuncPair)
    (cfg : ThermistorConf K) (isLinear isPulldown : Bool) : SensorState K :=
  if !isAdcChannelValid cfg.adcChannel then s
  else
    let s := { s with conversions := configTherm s.conversions sensor p cfg isLinear isPulldown }
    (s.subscribeSensor sensor cfg.adcChannel).register sensor

def initThermistors (s : SensorState K) : SensorState K :=
  let s := configureTempSensor s .clt .fclt c.clt c.useLinearCltSensor c.cltSensorPulldown
  let s := configureTempSensor s .iat .fiat c.iat c.useLinearIatSensor c.iatSensorPulldown
  let s := configureTempSensor s .oilTempSensor .faux2 c.oilTempSensor false false
  let s := configureTempSensor s .fuelTempSensor .ffuel c.fuelTempSensor false false
  let s := configureTempSensor s .ambientTempSensor .fambient c.ambientTempSensor false false
  let s := configureTempSensor s .compressorDischargeTemp .fcdt c.compressorDischargeTemperature
    false false
  let s := configureTempSensor s .aux1 .faux1 c.auxTempSensor1 false false
  configureTempSensor s .aux2 .faux2 c.auxTempSensor2 false false

def deinitThermistors (s : SensorState K) : SensorState K :=
  let s := s.unsubscribeChanged .clt c.clt.adcChannel
  let s := s.unsubscribeChanged .iat c.iat.adcChannel
  let s := s.unsubscribeChanged .oilTempSensor c.oilTempSensor.adcChannel
  let s := s.unsubscribeChanged .fuelTempSensor c.fuelTempSensor.adcChannel
  let s := s.unsubscribeChanged .ambientTempSensor c.ambientTempSensor.adcChannel
  let s := s.unsubscribeChanged .compressorDischargeTemp c.compressorDischargeTemperature.adcChannel
  let s := s.unsubscribeChanged .aux1 c.auxTempSensor1.adcChannel
  s.unsubscribeChanged .aux2 c.auxTempSensor2.adcChannel

def initLambdaSensor (s : SensorState K) (sensor : SensorObject) (channel : Nat) : SensorState K :=
  if !isAdcChannelValid channel then s else (s.subscribeSensor sensor channel).register sensor

/-- The array of that name. -/
def canWidebands : List SensorObject := [.canWideband1, .canWideband2, .canWideband3, .canWideband4]

def initLambda (s : SensorState K) : SensorState K :=
  if c.widebandMode ≠ .Analog then
    if !c.canWriteEnabled || !c.canReadEnabled then s
    else canWidebands.foldl SensorState.register s
  else
    let s := initLambdaSensor s .lambdaSensor c.afrHwChannel
    initLambdaSensor s .lambdaSensor2 c.afrHwChannel2

def deinitLambda (s : SensorState K) : SensorState K :=
  let s := s.unsubscribeChanged .lambdaSensor c.afrHwChannel
  s.unsubscribeChanged .lambdaSensor2 c.afrHwChannel2

def initFlexSensor (s : SensorState K) : SensorState K :=
  let s := { s with pins := Function.update s.pins .flexSensor c.flexSensorPin }
  if !isBrainPinValid c.flexSensorPin then s
  else
    let s := s.register .flexSensor
    if !isAdcChannelValid c.fuelTempSensor.adcChannel then s.register .flexFuelTemp else s

def deInitFlexSensor (s : SensorState K) : SensorState K :=
  let s := (s.unregister .flexSensor).unregister .flexFuelTemp
  if !isBrainPinValid (s.pins .flexSensor) then s
  else { s with pins := Function.update s.pins .flexSensor Gpio.Unassigned }

/-- The array of that name, with its indices. -/
def auxSensors : List (Fin 8 × SensorObject) :=
  [(0, .auxSensor1), (1, .auxSensor2), (2, .auxSensor3), (3, .auxSensor4),
    (4, .auxSensor5), (5, .auxSensor6), (6, .auxSensor7), (7, .auxSensor8)]

/-- One round of the loop in `initAuxSensors`. -/
def initAuxSensor (s : SensorState K) (sensor : Fin 8 × SensorObject) : SensorState K :=
  if !isAdcChannelValid (c.auxAnalogInputs sensor.1) then s
  else (s.register sensor.2).subscribeSensor sensor.2 (c.auxAnalogInputs sensor.1)

def initAuxSensors (s : SensorState K) : SensorState K :=
  ((auxSensors.foldl (initAuxSensor c) s).register .luaGauge1).register .luaGauge2

def deinitAuxSensors (s : SensorState K) : SensorState K :=
  auxSensors.foldl (fun s sensor => (s.unsubscribeSensor sensor.2).unregister sensor.2) s

def initVehicleSpeedSensor (s : SensorState K) : SensorState K :=
  FrequencySensor.initIfValid s .vehicleSpeedSensor c.vehicleSpeedSensorInputPin

def initTurbochargerSpeedSensor (s : SensorState K) : SensorState K :=
  FrequencySensor.initIfValid s .turbochargerSpeedSensor c.turboSpeedSensorInputPin

def initInputShaftSpeedSensor (s : SensorState K) : SensorState K :=
  FrequencySensor.initIfValid s .inputShaftSpeedSensor c.tcuInputSpeedSensorPin

/-- The configuration is the new one; the auxiliary speed sensors and digital inputs have no
sensor among these. -/
def stopSensors (s : SensorState K) : SensorState K :=
  let s := deinitTps s
  let s := deinitFluidPressure c s
  let s := deinitVbatt c s
  let s := deinitThermistors c s
  let s := deinitLambda c s
  let s := deInitFlexSensor s
  let s := deinitAuxSensors s
  let s := FrequencySensor.deInit s .vehicleSpeedSensor
  let s := FrequencySensor.deInit s .turbochargerSpeedSensor
  let s := deinitMap c s
  FrequencySensor.deInit s .inputShaftSpeedSensor

def reconfigureSensors (s : SensorState K) : SensorState K :=
  let s := initVbatt c s
  let s := initMap c s
  let s := initTps c s
  let s := initFluidPressure c s
  let s := initThermistors c s
  let s := initLambda c s
  let s := initFlexSensor c s
  let s := initAuxSensors c s
  let s := initVehicleSpeedSensor c s
  let s := initTurbochargerSpeedSensor c s
  initInputShaftSpeedSensor c s

/-- `CanVssLast` is 4; of the sensors of the CAN only the vehicle speed matters. -/
def initCanVssSupport (s : SensorState K) : SensorState K :=
  if c.enableCanVss then
    if c.canVssNbcType < 4 then s.register .canSpeed else s
  else s

/-- `device` is what the initialization of the LPS25 on its pins returns. -/
def initBaro (device : Nat → Nat → Bool) (s : SensorState K) : SensorState K :=
  if (s.registry.entry .BarometricPressure).isSome then s
  else if device c.lps25BaroSensorScl c.lps25BaroSensorSda then s.register .lps25BaroSensor
  else s

/-- What the start of the firmware does with the sensors, with the part of `initNewSensors` that
registers sensors of these types. -/
def boot (device : Nat → Nat → Bool) (s : SensorState K) : SensorState K :=
  initBaro c device (reconfigureSensors c (initCanVssSupport c s))

end FomeFw.Sensors
