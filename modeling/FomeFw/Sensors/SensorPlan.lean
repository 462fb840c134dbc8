import FomeFw.Sensors.InitSensors
import Mathlib.Data.Rat.Floor

/-! What the functions that make and take back the sensors come to: which sensor asks for which
channel, which one is registered, and which one is released. -/
namespace FomeFw.Sensors
open Hardware SinglePrecision

variable {K : Type} [SinglePrecision K]

local instance someAuxInputs : NeZero 8 := ⟨by decide⟩

/-- The channel that a sensor asks a slot for. -/
def asked (c : SensorSettings K) : SensorObject → Option Nat
  | .vbattSensor => SensorState.analog c.vbattAdcChannel
  | .slowMapSensor => SensorState.analog c.mapHwChannel
  | .slowMapSensor2 =>
    if isAdcChannelValid c.mapHwChannel then SensorState.analog c.map2HwChannel else none
  | .throttleInletPress => SensorState.analog c.throttleInletPressureChannel
  | .compressorDischargePress => SensorState.analog c.compressorDischargePressureChannel
  | .baroSensor => SensorState.analog c.baroHwChannel
  | .tps1p => tps 200.0 (tps1Primary c)
  | .tps1s => tps 200.0 (tps1Secondary c)
  | .tps2p => tps 200.0 (tps2Primary c)
  | .tps2s => tps 200.0 (tps2Secondary c)
  | .pedalPrimary => tps 1.0 (pedalPrimary c)
  | .pedalSecondary => tps 1.0 (pedalSecondary c)
  | .wastegate => tps 1000.0 (wastegate c)
  | .oilpSensor => SensorState.analog c.oilPressure.hwChannel
  | .fuelPressureSensorLow => SensorState.analog c.lowPressureFuel.hwChannel
  | .fuelPressureSensorHigh => SensorState.analog c.highPressureFuel.hwChannel
  | .auxLinear1Sensor => SensorState.analog c.auxLinear1.hwChannel
  | .auxLinear2Sensor => SensorState.analog c.auxLinear2.hwChannel
  | .auxLinear3Sensor => SensorState.analog c.auxLinear3.hwChannel
  | .auxLinear4Sensor => SensorState.analog c.auxLinear4.hwChannel
  | .clt => SensorState.analog c.clt.adcChannel
  | .iat => SensorState.analog c.iat.adcChannel
  | .oilTempSensor => SensorState.analog c.oilTempSensor.adcChannel
  | .fuelTempSensor => SensorState.analog c.fuelTempSensor.adcChannel
  | .ambientTempSensor => SensorState.analog c.ambientTempSensor.adcChannel
  | .compressorDischargeTemp => SensorState.analog c.compressorDischargeTemperature.adcChannel
  | .aux1 => SensorState.analog c.auxTempSensor1.adcChannel
  | .aux2 => SensorState.analog c.auxTempSensor2.adcChannel
  | .lambdaSensor => if c.widebandMode = .Analog then SensorState.analog c.afrHwChannel else none
  | .lambdaSensor2 => if c.widebandMode = .Analog then SensorState.analog c.afrHwChannel2 else none
  | .auxSensor1 => SensorState.analog (c.auxAnalogInputs 0)
  | .auxSensor2 => SensorState.analog (c.auxAnalogInputs 1)
  | .auxSensor3 => SensorState.analog (c.auxAnalogInputs 2)
  | .auxSensor4 => SensorState.analog (c.auxAnalogInputs 3)
  | .auxSensor5 => SensorState.analog (c.auxAnalogInputs 4)
  | .auxSensor6 => SensorState.analog (c.auxAnalogInputs 5)
  | .auxSensor7 => SensorState.analog (c.auxAnalogInputs 6)
  | .auxSensor8 => SensorState.analog (c.auxAnalogInputs 7)
  | _ => none
where
  tps (divideInput : K) (cfg : TpsConfig K) : Option Nat :=
    if FuncSensPair.configure divideInput cfg then some cfg.channel else none

/-- Whether the second sensor of a pair may stand beside the first. -/
def paired (divideInput : K) (primary secondary : TpsConfig K) (allowIdentical : Bool) : Bool :=
  FuncSensPair.configure divideInput primary &&
    !(!allowIdentical && RedundantPair.tooSimilar primary secondary)

/-- Whether the CAN widebands are used. -/
def usesCanWidebands (c : SensorSettings K) : Bool :=
  decide (c.widebandMode ≠ .Analog) && (c.canWriteEnabled && c.canReadEnabled)

/-- Whether `reconfigureSensors` registers a sensor. -/
def registered (c : SensorSettings K) : SensorObject → Bool
  | .throttleInletPress | .compressorDischargePress => false
  | .slowMapSensor | .fastMapSensor | .mapCombiner => isAdcChannelValid c.mapHwChannel
  | .slowMapSensor2 | .fastMapSensor2 | .mapCombiner2 =>
    isAdcChannelValid c.mapHwChannel && isAdcChannelValid c.map2HwChannel
  | .tps1 => paired 200.0 (tps1Primary c) (tps1Secondary c) false
  | .tps2 => paired 200.0 (tps2Primary c) (tps2Secondary c) false
  | .pedal => paired 1.0 (pedalPrimary c) (pedalSecondary c) c.allowIdenticalPps
  | .driverIntent | .injectorPressure | .luaGauge1 | .luaGauge2 => true
  | .canWideband1 | .canWideband2 | .canWideband3 | .canWideband4 => usesCanWidebands c
  | .flexSensor => isBrainPinValid c.flexSensorPin
  | .flexFuelTemp =>
    isBrainPinValid c.flexSensorPin && !isAdcChannelValid c.fuelTempSensor.adcChannel
  | .vehicleSpeedSensor => isBrainPinValid c.vehicleSpeedSensorInputPin
  | .turbochargerSpeedSensor => isBrainPinValid c.turboSpeedSensorInputPin
  | .inputShaftSpeedSensor => isBrainPinValid c.tcuInputSpeedSensorPin
  | sensor => (asked c sensor).isSome

/-- What the sensors of a list ask for, in their order. -/
def asksOf (c : SensorSettings K) (sensors : List SensorObject) : List (SensorObject × Nat) :=
  sensors.filterMap fun sensor => (asked c sensor).map (sensor, ·)

/-- A step of the set-up does just what is due for a list of sensors, among sensors of the
firmware. -/
structure Makes (c : SensorSettings K) (sensors : List SensorObject)
    (f : SensorState K → SensorState K) : Prop where
  native : ∀ sensor ∈ sensors, sensor.isNative = true
  registry : ∀ s : SensorState K, s.registry.Native →
    (f s).registry = s.registry.registerAll (sensors.filter (registered c))
  slots : ∀ s : SensorState K, s.registry.Native → (f s).slots = s.slots.putAll (asksOf c sensors)

namespace SensorState

variable {s : SensorState K} {sensor : SensorObject} {channel : Nat}

omit [SinglePrecision K]

@[simp] theorem registry_subscribeSensor :
    (s.subscribeSensor sensor channel).registry = s.registry := by
  rw [subscribeSensor_eq]

@[simp] theorem slots_subscribeSensor :
    (s.subscribeSensor sensor channel).slots =
      s.slots.putAll ((analog channel).map (sensor, ·)).toList := by
  rw [subscribeSensor_eq]

@[simp] theorem registry_register :
    (s.register sensor).registry = s.registry.registerAll [sensor] := rfl

@[simp] theorem isSome_analog : (analog channel).isSome = isAdcChannelValid channel := by
  rw [analog]
  cases isAdcChannelValid channel <;> rfl

@[simp] theorem slots_register : (s.register sensor).slots = s.slots := rfl

end SensorState

theorem asksOf_append (c : SensorSettings K) (sensors more : List SensorObject) :
    asksOf c (sensors ++ more) = asksOf c sensors ++ asksOf c more := List.filterMap_append

@[simp] theorem asksOf_nil (c : SensorSettings K) : asksOf c [] = [] := rfl

@[simp] theorem asksOf_cons (c : SensorSettings K) (sensor : SensorObject) (sensors) :
    asksOf c (sensor :: sensors) =
      ((asked c sensor).map (sensor, ·)).toList ++ asksOf c sensors := by
  rw [asksOf, List.filterMap_cons]
  cases asked c sensor <;> rfl

namespace Makes

variable {c : SensorSettings K} {sensors more : List SensorObject} {f g : SensorState K → SensorState K}

theorem comp (first : Makes c sensors f) (second : Makes c more g) :
    Makes c (sensors ++ more) (fun s => g (f s)) := by
  have between : ∀ s : SensorState K, s.registry.Native → (f s).registry.Native := by
    intro s native
    rw [first.registry s native]
    apply native.registerAll
    exact fun sensor member => first.native sensor (List.mem_of_mem_filter member)
  constructor
  · intro sensor member
    rcases List.mem_append.mp member with left | right
    · exact first.native sensor left
    · exact second.native sensor right
  · intro s native
    rw [second.registry _ (between s native), first.registry s native,
      SensorRegistry.registerAll_append, List.filter_append]
  · intro s native
    rw [second.slots _ (between s native), first.slots s native, asksOf_append,
      Places.putAll_append]

theorem nil : Makes c [] (fun s => s) := by
  constructor
  · intro sensor member
    cases member
  · exact fun s _ => rfl
  · exact fun s _ => rfl

/-- A sensor that is registered and subscribes where it has a valid channel. -/
theorem analog {sensor : SensorObject} {channel : Nat} (native : sensor.isNative = true)
    (asks : asked c sensor = SensorState.analog channel)
    (registers : registered c sensor = isAdcChannelValid channel)
    (invalid : isAdcChannelValid channel = false → ∀ s, f s = s)
    (valid : isAdcChannelValid channel = true → ∀ s,
      (f s).registry = s.registry.registerAll [sensor] ∧
      (f s).slots = (s.subscribeSensor sensor channel).slots) :
    Makes c [sensor] f := by
  constructor
  · intro other member
    obtain rfl := List.mem_singleton.mp member
    exact native
  · intro s _
    cases usable : isAdcChannelValid channel with
    | false => simp [invalid usable, registers, usable, SensorRegistry.registerAll]
    | true => simp [(valid usable s).1, registers, usable]
  · intro s _
    cases usable : isAdcChannelValid channel with
    | false => simp [invalid usable, asks, SensorState.analog, usable]
    | true => simp [(valid usable s).2, asks]

/-- A sensor that is only registered. -/
theorem register {sensor : SensorObject} (native : sensor.isNative = true)
    (asks : asked c sensor = none) {b : Bool} (registers : registered c sensor = b)
    (absent : b = false → ∀ s, (f s).registry = s.registry)
    (present : b = true → ∀ s, (f s).registry = s.registry.registerAll [sensor])
    (slots : ∀ s, (f s).slots = s.slots) : Makes c [sensor] f := by
  constructor
  · intro other member
    obtain rfl := List.mem_singleton.mp member
    exact native
  · intro s _
    cases due : b with
    | false => simp [absent due, registers, due, SensorRegistry.registerAll]
    | true => simp [present due, registers, due]
  · intro s _
    simp [slots, asks]

end Makes

section Families

variable (c : SensorSettings K)

theorem makes_initVbatt : Makes c [.vbattSensor] (initVbatt c) := by
  refine Makes.analog rfl rfl SensorState.isSome_analog ?_ ?_
  · intro invalid s
    simp [initVbatt, invalid]
  · intro valid s
    simp [initVbatt, valid]

def mapSensors : List SensorObject :=
  [.slowMapSensor, .fastMapSensor, .mapCombiner, .slowMapSensor2, .fastMapSensor2, .mapCombiner2,
    .throttleInletPress, .compressorDischargePress, .baroSensor]

theorem makes_initMap : Makes c mapSensors (initMap c) := by
  constructor
  · decide
  · intro s _
    cases map : isAdcChannelValid c.mapHwChannel <;>
      cases map2 : isAdcChannelValid c.map2HwChannel <;>
      cases baro : isAdcChannelValid c.baroHwChannel <;>
      simp [initMap, initMap2, mapSensors, registered, asked, map, map2, baro,
        SensorRegistry.registerAll]
  · intro s _
    cases map : isAdcChannelValid c.mapHwChannel <;>
      cases map2 : isAdcChannelValid c.map2HwChannel <;>
      cases baro : isAdcChannelValid c.baroHwChannel <;>
      simp [initMap, initMap2, mapSensors, asked, map, map2, baro, SensorState.analog,
        Places.putAll_append]

theorem makes_initFluidPressureSensor {func : LinearName} {sensor : SensorObject}
    {cfg : LinearSensorConf K} (native : sensor.isNative = true)
    (asks : asked c sensor = SensorState.analog cfg.hwChannel)
    (registers : registered c sensor = isAdcChannelValid cfg.hwChannel) :
    Makes c [sensor] (fun s => initFluidPressureSensor s func sensor cfg) := by
  refine Makes.analog native asks registers ?_ ?_
  · intro invalid s
    simp [initFluidPressureSensor, invalid]
  · intro valid s
    simp [initFluidPressureSensor, valid]

theorem makes_configureTempSensor {sensor : SensorObject} {p : FuncPair} {cfg : ThermistorConf K}
    {isLinear isPulldown : Bool} (native : sensor.isNative = true)
    (asks : asked c sensor = SensorState.analog cfg.adcChannel)
    (registers : registered c sensor = isAdcChannelValid cfg.adcChannel) :
    Makes c [sensor] (fun s => configureTempSensor s sensor p cfg isLinear isPulldown) := by
  refine Makes.analog native asks registers ?_ ?_
  · intro invalid s
    simp [configureTempSensor, invalid]
  · intro valid s
    simp [configureTempSensor, valid]

theorem makes_register {sensor : SensorObject} (native : sensor.isNative = true)
    (asks : asked c sensor = none) (registers : registered c sensor = true) :
    Makes c [sensor] (fun s => s.register sensor) := by
  refine Makes.register native asks registers ?_ ?_ ?_
  · intro absent
    contradiction
  · exact fun _ _ => rfl
  · exact fun _ => rfl

theorem makes_initFluidPressure :
    Makes c [.oilpSensor, .fuelPressureSensorLow, .fuelPressureSensorHigh, .auxLinear1Sensor,
      .auxLinear2Sensor, .auxLinear3Sensor, .auxLinear4Sensor, .injectorPressure]
      (initFluidPressure c) := by
  have analog : ∀ {channel}, (SensorState.analog channel).isSome = isAdcChannelValid channel :=
    SensorState.isSome_analog
  have oil := @makes_initFluidPressureSensor _ _ c .oilpSensorFunc .oilpSensor _ rfl rfl analog
  have low := @makes_initFluidPressureSensor _ _ c .fuelPressureFuncLow .fuelPressureSensorLow _
    rfl rfl analog
  have high := @makes_initFluidPressureSensor _ _ c .fuelPressureFuncHigh .fuelPressureSensorHigh _
    rfl rfl analog
  have one := @makes_initFluidPressureSensor _ _ c .auxLinear1Func .auxLinear1Sensor _ rfl rfl analog
  have two := @makes_initFluidPressureSensor _ _ c .auxLinear2Func .auxLinear2Sensor _ rfl rfl analog
  have three := @makes_initFluidPressureSensor _ _ c .auxLinear3Func .auxLinear3Sensor _ rfl rfl analog
  have four := @makes_initFluidPressureSensor _ _ c .auxLinear4Func .auxLinear4Sensor _ rfl rfl analog
  have proxy := @makes_register _ _ c .injectorPressure rfl rfl rfl
  exact oil.comp (low.comp (high.comp (one.comp (two.comp (three.comp (four.comp proxy))))))

theorem makes_initThermistors :
    Makes c [.clt, .iat, .oilTempSensor, .fuelTempSensor, .ambientTempSensor,
      .compressorDischargeTemp, .aux1, .aux2] (initThermistors c) := by
  have analog : ∀ {channel}, (SensorState.analog channel).isSome = isAdcChannelValid channel :=
    SensorState.isSome_analog
  have clt := @makes_configureTempSensor _ _ c .clt .fclt _ c.useLinearCltSensor
    c.cltSensorPulldown rfl rfl analog
  have iat := @makes_configureTempSensor _ _ c .iat .fiat _ c.useLinearIatSensor
    c.iatSensorPulldown rfl rfl analog
  have oil := @makes_configureTempSensor _ _ c .oilTempSensor .faux2 _ false false rfl rfl analog
  have fuel := @makes_configureTempSensor _ _ c .fuelTempSensor .ffuel _ false false rfl rfl analog
  have ambient := @makes_configureTempSensor _ _ c .ambientTempSensor .fambient _ false false
    rfl rfl analog
  have discharge := @makes_configureTempSensor _ _ c .compressorDischargeTemp .fcdt _ false false
    rfl rfl analog
  have one := @makes_configureTempSensor _ _ c .aux1 .faux1 _ false false rfl rfl analog
  have two := @makes_configureTempSensor _ _ c .aux2 .faux2 _ false false rfl rfl analog
  exact clt.comp (iat.comp (oil.comp (fuel.comp (ambient.comp (discharge.comp (one.comp two))))))

theorem makes_initFlexSensor : Makes c [.flexSensor, .flexFuelTemp] (initFlexSensor c) := by
  constructor
  · decide
  · intro s _
    cases pin : isBrainPinValid c.flexSensorPin <;>
      cases analog : isAdcChannelValid c.fuelTempSensor.adcChannel <;>
      simp [initFlexSensor, registered, pin, analog, SensorRegistry.registerAll]
  · intro s _
    cases pin : isBrainPinValid c.flexSensorPin <;>
      cases analog : isAdcChannelValid c.fuelTempSensor.adcChannel <;>
      simp [initFlexSensor, asked, pin, analog]

theorem makes_initIfValid {sensor : SensorObject} {pin : Nat} (native : sensor.isNative = true)
    (asks : asked c sensor = none) (registers : registered c sensor = isBrainPinValid pin) :
    Makes c [sensor] (fun s => FrequencySensor.initIfValid s sensor pin) := by
  refine Makes.register native asks registers ?_ ?_ ?_
  · intro absent s
    simp [FrequencySensor.initIfValid, absent]
  · intro present s
    simp [FrequencySensor.initIfValid, present]
  · intro s
    rw [FrequencySensor.initIfValid]
    split <;> rfl

theorem makes_initAuxSensor {place : Fin 8} {sensor : SensorObject} (native : sensor.isNative = true)
    (asks : asked c sensor = SensorState.analog (c.auxAnalogInputs place))
    (registers : registered c sensor = isAdcChannelValid (c.auxAnalogInputs place)) :
    Makes c [sensor] (fun s => initAuxSensor c s (place, sensor)) := by
  refine Makes.analog native asks registers ?_ ?_
  · intro invalid s
    simp [initAuxSensor, invalid]
  · intro valid s
    simp [initAuxSensor, valid]

theorem makes_initAuxSensors :
    Makes c [.auxSensor1, .auxSensor2, .auxSensor3, .auxSensor4, .auxSensor5, .auxSensor6,
      .auxSensor7, .auxSensor8, .luaGauge1, .luaGauge2] (initAuxSensors c) := by
  have analog : ∀ {channel}, (SensorState.analog channel).isSome = isAdcChannelValid channel :=
    SensorState.isSome_analog
  have one := @makes_initAuxSensor _ _ c 0 .auxSensor1 rfl rfl analog
  have two := @makes_initAuxSensor _ _ c 1 .auxSensor2 rfl rfl analog
  have three := @makes_initAuxSensor _ _ c 2 .auxSensor3 rfl rfl analog
  have four := @makes_initAuxSensor _ _ c 3 .auxSensor4 rfl rfl analog
  have five := @makes_initAuxSensor _ _ c 4 .auxSensor5 rfl rfl analog
  have six := @makes_initAuxSensor _ _ c 5 .auxSensor6 rfl rfl analog
  have seven := @makes_initAuxSensor _ _ c 6 .auxSensor7 rfl rfl analog
  have eight := @makes_initAuxSensor _ _ c 7 .auxSensor8 rfl rfl analog
  have first := @makes_register _ _ c .luaGauge1 rfl rfl rfl
  have second := @makes_register _ _ c .luaGauge2 rfl rfl rfl
  exact one.comp (two.comp (three.comp (four.comp (five.comp (six.comp (seven.comp (eight.comp
    (first.comp second))))))))

theorem makes_initLambda :
    Makes c [.canWideband1, .canWideband2, .canWideband3, .canWideband4, .lambdaSensor,
      .lambdaSensor2] (initLambda c) := by
  constructor
  · decide
  · intro s _
    by_cases analog : c.widebandMode = .Analog
    · cases one : isAdcChannelValid c.afrHwChannel <;>
        cases two : isAdcChannelValid c.afrHwChannel2 <;>
        simp [initLambda, initLambdaSensor, registered, asked, usesCanWidebands, analog, one, two,
          SensorRegistry.registerAll]
    · cases write : c.canWriteEnabled <;> cases read : c.canReadEnabled <;>
        simp [initLambda, canWidebands, registered, asked, usesCanWidebands, analog, write, read,
          SensorRegistry.registerAll]
  · intro s _
    by_cases analog : c.widebandMode = .Analog
    · cases one : isAdcChannelValid c.afrHwChannel <;>
        cases two : isAdcChannelValid c.afrHwChannel2 <;>
        simp [initLambda, initLambdaSensor, asked, analog, one, two, SensorState.analog]
    · cases write : c.canWriteEnabled <;> cases read : c.canReadEnabled <;>
        simp [initLambda, canWidebands, asked, analog, write, read]

theorem isAdcChannelValid_of_configure {divideInput : K} {cfg : TpsConfig K}
    (configured : FuncSensPair.configure divideInput cfg = true) :
    isAdcChannelValid cfg.channel = true := by
  rw [FuncSensPair.configure] at configured
  cases valid : isAdcChannelValid cfg.channel with
  | true => rfl
  | false => simp [valid] at configured

theorem makes_funcSensPair {sens : SensorObject} {divideInput : K} {cfg : TpsConfig K}
    (native : sens.isNative = true) (asks : asked c sens = asked.tps divideInput cfg)
    (registers : registered c sens = (asked.tps divideInput cfg).isSome) :
    Makes c [sens] (fun s => (FuncSensPair.init s sens divideInput cfg).2) := by
  constructor
  · simpa using native
  · intro s _
    cases configured : FuncSensPair.configure divideInput cfg <;>
      simp [FuncSensPair.init, registers, asked.tps, configured]
  · intro s _
    cases configured : FuncSensPair.configure divideInput cfg with
    | false => simp [FuncSensPair.init, asks, asked.tps, configured]
    | true =>
      simp [FuncSensPair.init, asks, asked.tps, configured, SensorState.analog,
        isAdcChannelValid_of_configure configured]

/-- The first sensor of a pair counts when it is configured: no other sensor of the firmware has
its type. -/
theorem funcSensPair_fst {s : SensorState K} {sens : SensorObject} {divideInput : K}
    {cfg : TpsConfig K} (native : s.registry.Native)
    (alone : ∀ other : SensorObject, other.isNative = true → other.type = sens.type → other = sens) :
    (FuncSensPair.init s sens divideInput cfg).1 = FuncSensPair.configure divideInput cfg := by
  rw [FuncSensPair.init]
  cases configured : FuncSensPair.configure divideInput cfg with
  | false => rfl
  | true =>
    simp only [Bool.not_true, Bool.false_eq_true, if_false, SensorState.registry_subscribeSensor]
    apply SensorRegistry.register_fst.mpr
    intro other held
    exact alone other (native _ other held) (s.registry.typed held)

theorem makes_redundantPair {pri sec redund : SensorObject} {divideInput : K}
    {primary secondary : TpsConfig K} {allowIdentical : Bool}
    (alone : ∀ other : SensorObject, other.isNative = true → other.type = pri.type → other = pri)
    (first : Makes c [pri] (fun s => (FuncSensPair.init s pri divideInput primary).2))
    (second : Makes c [sec] (fun s => (FuncSensPair.init s sec divideInput secondary).2))
    (native : redund.isNative = true) (asks : asked c redund = none)
    (registers : registered c redund = paired divideInput primary secondary allowIdentical) :
    Makes c [pri, sec, redund]
      (fun s => RedundantPair.init s pri sec redund divideInput primary secondary
        allowIdentical) := by
  have both := first.comp second
  have last : Makes c [redund] (fun s =>
      if paired divideInput primary secondary allowIdentical then s.register redund else s) := by
    refine Makes.register native asks registers ?_ ?_ ?_
    · intro absent s
      simp [absent]
    · intro present s
      simp [present]
    · intro s
      split <;> rfl
  have all := both.comp last
  have same : ∀ s : SensorState K, s.registry.Native →
      RedundantPair.init s pri sec redund divideInput primary secondary allowIdentical =
        (fun s => if paired divideInput primary secondary allowIdentical then s.register redund
          else s) (FuncSensPair.init (FuncSensPair.init s pri divideInput primary).2 sec
            divideInput secondary).2 := by
    intro s clean
    rw [RedundantPair.init]
    simp only [funcSensPair_fst clean alone, paired]
    by_cases configured : FuncSensPair.configure divideInput primary = true
    · by_cases similar : (!allowIdentical && RedundantPair.tooSimilar primary secondary) = true
      · simp only [configured, similar]
        rfl
      · simp only [configured, Bool.not_eq_true _ ▸ similar]
        rfl
    · simp only [Bool.not_eq_true _ ▸ configured]
      rfl
  constructor
  · exact all.native
  · intro s clean
    rw [same s clean]
    exact all.registry s clean
  · intro s clean
    rw [same s clean]
    exact all.slots s clean

/-- The primary sensors of the pairs are the only ones of their types. -/
theorem alone_primary {sens other : SensorObject} (native : other.isNative = true)
    (type : other.type = sens.type)
    (primary : sens = .tps1p ∨ sens = .tps2p ∨ sens = .pedalPrimary) : other = sens := by
  rcases primary with rfl | rfl | rfl <;> cases other <;>
    first | rfl | exact absurd type (by decide) | cases native

theorem makes_initTps :
    Makes c [.tps1p, .tps1s, .tps1, .tps2p, .tps2s, .tps2, .pedalPrimary, .pedalSecondary, .pedal,
      .wastegate, .driverIntent] (initTps c) := by
  have tps1p := @makes_funcSensPair _ _ c .tps1p 200.0 (tps1Primary c) rfl rfl rfl
  have tps1s := @makes_funcSensPair _ _ c .tps1s 200.0 (tps1Secondary c) rfl rfl rfl
  have tps2p := @makes_funcSensPair _ _ c .tps2p 200.0 (tps2Primary c) rfl rfl rfl
  have tps2s := @makes_funcSensPair _ _ c .tps2s 200.0 (tps2Secondary c) rfl rfl rfl
  have first := @makes_funcSensPair _ _ c .pedalPrimary 1.0 (pedalPrimary c) rfl rfl rfl
  have second := @makes_funcSensPair _ _ c .pedalSecondary 1.0 (pedalSecondary c) rfl rfl rfl
  have one := @makes_redundantPair _ _ c .tps1p .tps1s .tps1 _ _ _ false
    (fun _ native type => alone_primary native type (by simp)) tps1p tps1s rfl rfl rfl
  have two := @makes_redundantPair _ _ c .tps2p .tps2s .tps2 _ _ _ false
    (fun _ native type => alone_primary native type (by simp)) tps2p tps2s rfl rfl rfl
  have pedals := @makes_redundantPair _ _ c .pedalPrimary .pedalSecondary .pedal _ _ _
    c.allowIdenticalPps
    (fun _ native type => alone_primary native type (by simp)) first second rfl rfl rfl
  have gate := @makes_funcSensPair _ _ c .wastegate 1000.0 (wastegate c) rfl rfl rfl
  have proxy := @makes_register _ _ c .driverIntent rfl rfl rfl
  exact one.comp (two.comp (pedals.comp (gate.comp proxy)))

end Families

/-- The sensors in the order in which `reconfigureSensors` comes to them. -/
def order : List SensorObject :=
  [.vbattSensor,
    .slowMapSensor, .fastMapSensor, .mapCombiner, .slowMapSensor2, .fastMapSensor2, .mapCombiner2,
    .throttleInletPress, .compressorDischargePress, .baroSensor,
    .tps1p, .tps1s, .tps1, .tps2p, .tps2s, .tps2, .pedalPrimary, .pedalSecondary, .pedal,
    .wastegate, .driverIntent,
    .oilpSensor, .fuelPressureSensorLow, .fuelPressureSensorHigh, .auxLinear1Sensor,
    .auxLinear2Sensor, .auxLinear3Sensor, .auxLinear4Sensor, .injectorPressure,
    .clt, .iat, .oilTempSensor, .fuelTempSensor, .ambientTempSensor, .compressorDischargeTemp,
    .aux1, .aux2,
    .canWideband1, .canWideband2, .canWideband3, .canWideband4, .lambdaSensor, .lambdaSensor2,
    .flexSensor, .flexFuelTemp,
    .auxSensor1, .auxSensor2, .auxSensor3, .auxSensor4, .auxSensor5, .auxSensor6, .auxSensor7,
    .auxSensor8, .luaGauge1, .luaGauge2,
    .vehicleSpeedSensor, .turbochargerSpeedSensor, .inputShaftSpeedSensor]

theorem makes_reconfigureSensors (c : SensorSettings K) : Makes c order (reconfigureSensors c) := by
  have vehicle : Makes c [.vehicleSpeedSensor] (initVehicleSpeedSensor c) :=
    makes_initIfValid c rfl rfl rfl
  have turbo : Makes c [.turbochargerSpeedSensor] (initTurbochargerSpeedSensor c) :=
    makes_initIfValid c rfl rfl rfl
  have shaft : Makes c [.inputShaftSpeedSensor] (initInputShaftSpeedSensor c) :=
    makes_initIfValid c rfl rfl rfl
  have all := (makes_initVbatt c).comp ((makes_initMap c).comp ((makes_initTps c).comp
    ((makes_initFluidPressure c).comp ((makes_initThermistors c).comp ((makes_initLambda c).comp
    ((makes_initFlexSensor c).comp ((makes_initAuxSensors c).comp
    (vehicle.comp (turbo.comp shaft)))))))))
  exact all

theorem nodup_order : order.Nodup := by decide

/-- Each sensor asks once. -/
theorem nodup_asksOf (c : SensorSettings K) : ((asksOf c order).map Prod.fst).Nodup := by
  refine List.pairwise_map.mpr (List.pairwise_filterMap.mpr (nodup_order.imp ?_))
  intro x y apart ask one ask' two
  obtain ⟨v, -, rfl⟩ := Option.map_eq_some_iff.mp one
  obtain ⟨w, -, rfl⟩ := Option.map_eq_some_iff.mp two
  exact apart

theorem mem_asksOf {c : SensorSettings K} {sensors : List SensorObject} {sensor : SensorObject}
    {channel : Nat} :
    (sensor, channel) ∈ asksOf c sensors ↔ sensor ∈ sensors ∧ asked c sensor = some channel := by
  simp [asksOf, List.mem_filterMap]

/-- The sensors that share a type. -/
def rivals : List (SensorObject × SensorObject) :=
  [(.fuelTempSensor, .flexFuelTemp), (.canWideband1, .lambdaSensor), (.canWideband2, .lambdaSensor2)]

/-- No two sensors of one type are registered in one go. -/
theorem nodup_registered (c : SensorSettings K) :
    ((order.filter (registered c)).map SensorObject.type).Nodup := by
  have shared : order.Pairwise fun x y => x.type = y.type → (x, y) ∈ rivals := by decide
  refine List.pairwise_map.mpr (List.pairwise_filter.mpr (shared.imp ?_))
  intro x y only one two same
  simp only [rivals, List.mem_cons, Prod.mk.injEq, List.not_mem_nil, or_false] at only
  rcases only same with ⟨rfl, rfl⟩ | ⟨rfl, rfl⟩ | ⟨rfl, rfl⟩
  · simp_all [registered, asked]
  · simp_all [registered, asked, usesCanWidebands]
  · simp_all [registered, asked, usesCanWidebands]

end FomeFw.Sensors
