import Mathlib.Tactic.Common

/-! The types of sensors, `sensor_type.h`, and the sensor objects of the firmware. -/
namespace FomeFw.Sensors

inductive SensorType where
  | Invalid | Clt | Iat | Rpm | Map | Maf | AmbientTemperature | EcuInternalTemperature
  | OilPressure | OilTemperature | FuelPressureLow | FuelPressureHigh | FuelPressureInjector
  | FuelTemperature | Tps1 | Tps1Primary | Tps1Secondary | Tps2 | Tps2Primary | Tps2Secondary
  | AcceleratorPedal | AcceleratorPedalPrimary | AcceleratorPedalSecondary | DriverThrottleIntent
  | AuxTemp1 | AuxTemp2 | Lambda1 | Lambda2 | Lambda3 | Lambda4 | WastegatePosition
  | FuelEthanolPercent | BatteryVoltage | MainRelayVoltage | Sensor5vVoltage | BarometricPressure
  | FuelLevel | VehicleSpeed | WheelSpeedLF | WheelSpeedRF | WheelSpeedLR | WheelSpeedRR
  | TurbochargerSpeed | MapFast | MapSlow | InputShaftSpeed | Maf2 | Map2 | MapSlow2 | MapFast2
  | CompressorDischargePressure | CompressorDischargeTemperature | ThrottleInletPressure
  | DetectedGear
  | AuxAnalog1 | AuxAnalog2 | AuxAnalog3 | AuxAnalog4
  | AuxAnalog5 | AuxAnalog6 | AuxAnalog7 | AuxAnalog8
  | LuaGauge1 | LuaGauge2 | AuxLinear1 | AuxLinear2 | AuxLinear3 | AuxLinear4
  | AuxSpeed1 | AuxSpeed2
  deriving DecidableEq

/-- The objects by their names in the source, and those that scripts make. -/
inductive SensorObject where
  | vbattSensor
  | slowMapSensor | fastMapSensor | mapCombiner | slowMapSensor2 | fastMapSensor2 | mapCombiner2
  | throttleInletPress | compressorDischargePress | baroSensor
  | tps1p | tps1s | tps1 | tps2p | tps2s | tps2 | pedalPrimary | pedalSecondary | pedal
  | wastegate | driverIntent
  | oilpSensor | fuelPressureSensorLow | fuelPressureSensorHigh
  | auxLinear1Sensor | auxLinear2Sensor | auxLinear3Sensor | auxLinear4Sensor | injectorPressure
  | clt | iat | oilTempSensor | fuelTempSensor | ambientTempSensor | compressorDischargeTemp
  | aux1 | aux2
  | canWideband1 | canWideband2 | canWideband3 | canWideband4 | lambdaSensor | lambdaSensor2
  | flexSensor | flexFuelTemp
  | auxSensor1 | auxSensor2 | auxSensor3 | auxSensor4
  | auxSensor5 | auxSensor6 | auxSensor7 | auxSensor8
  | luaGauge1 | luaGauge2
  | vehicleSpeedSensor | turbochargerSpeedSensor | inputShaftSpeedSensor
  /-- The speed of the `can_vss.cpp`. -/
  | canSpeed
  /-- The sensor in the LPS25, of `init_baro.cpp`. -/
  | lps25BaroSensor
  | luaSensor (handle : Nat) (type : SensorType)
  deriving DecidableEq

def SensorObject.type : SensorObject → SensorType
  | vbattSensor => .BatteryVoltage
  | slowMapSensor => .MapSlow
  | fastMapSensor => .MapFast
  | mapCombiner => .Map
  | slowMapSensor2 => .MapSlow2
  | fastMapSensor2 => .MapFast2
  | mapCombiner2 => .Map2
  | throttleInletPress => .ThrottleInletPressure
  | compressorDischargePress => .CompressorDischargePressure
  | baroSensor => .BarometricPressure
  | tps1p => .Tps1Primary
  | tps1s => .Tps1Secondary
  | tps1 => .Tps1
  | tps2p => .Tps2Primary
  | tps2s => .Tps2Secondary
  | tps2 => .Tps2
  | pedalPrimary => .AcceleratorPedalPrimary
  | pedalSecondary => .AcceleratorPedalSecondary
  | pedal => .AcceleratorPedal
  | wastegate => .WastegatePosition
  | driverIntent => .DriverThrottleIntent
  | oilpSensor => .OilPressure
  | fuelPressureSensorLow => .FuelPressureLow
  | fuelPressureSensorHigh => .FuelPressureHigh
  | auxLinear1Sensor => .AuxLinear1
  | auxLinear2Sensor => .AuxLinear2
  | auxLinear3Sensor => .AuxLinear3
  | auxLinear4Sensor => .AuxLinear4
  | injectorPressure => .FuelPressureInjector
  | clt => .Clt
  | iat => .Iat
  | oilTempSensor => .OilTemperature
  | fuelTempSensor => .FuelTemperature
  | ambientTempSensor => .AmbientTemperature
  | compressorDischargeTemp => .CompressorDischargeTemperature
  | aux1 => .AuxTemp1
  | aux2 => .AuxTemp2
  | canWideband1 => .Lambda1
  | canWideband2 => .Lambda2
  | canWideband3 => .Lambda3
  | canWideband4 => .Lambda4
  | lambdaSensor => .Lambda1
  | lambdaSensor2 => .Lambda2
  | flexSensor => .FuelEthanolPercent
  | flexFuelTemp => .FuelTemperature
  | auxSensor1 => .AuxAnalog1
  | auxSensor2 => .AuxAnalog2
  | auxSensor3 => .AuxAnalog3
  | auxSensor4 => .AuxAnalog4
  | auxSensor5 => .AuxAnalog5
  | auxSensor6 => .AuxAnalog6
  | auxSensor7 => .AuxAnalog7
  | auxSensor8 => .AuxAnalog8
  | luaGauge1 => .LuaGauge1
  | luaGauge2 => .LuaGauge2
  | vehicleSpeedSensor => .VehicleSpeed
  | turbochargerSpeedSensor => .TurbochargerSpeed
  | inputShaftSpeedSensor => .InputShaftSpeed
  | canSpeed => .VehicleSpeed
  | lps25BaroSensor => .BarometricPressure
  | luaSensor _ type => type

/-- The sensors that are part of the firmware. -/
def SensorObject.isNative : SensorObject → Bool
  | luaSensor _ _ => false
  | _ => true

end FomeFw.Sensors
