import FomeFw.Sensors.SensorTypes
import Mathlib.Logic.Function.Basic

/-! The conversions of voltages, `linear_func.cpp`, `resistance_func.cpp` and
`thermistor_func.cpp`, and the objects that hold their parameters. Nothing is assumed about the
numbers but their operations. -/
namespace FomeFw.Sensors

/-- The operations on `float`. -/
class SinglePrecision (K : Type) extends Add K, Sub K, Mul K, Div K, Neg K, OfScientific K where
  lt : K → K → Bool
  le : K → K → Bool
  abs : K → K
  logf : K → K

inductive UnexpectedCode where
  | Unknown | Configuration | Timeout | High | Low | Inconsistent
  deriving DecidableEq

abbrev SensorResult (K : Type) := Except UnexpectedCode K

variable {K : Type} [SinglePrecision K]

open SinglePrecision

structure LinearFunc (K : Type) where
  a : K
  b : K
  minOutput : K
  maxOutput : K

namespace LinearFunc

/-- `divideInput` is fixed for each object. -/
def configure (divideInput in1 out1 in2 out2 minOutput maxOutput : K) : LinearFunc K :=
  let in1 := in1 / divideInput
  let in2 := in2 / divideInput
  let a := (out1 - out2) / (in1 - in2)
  { a, b := out1 - a * in1, minOutput, maxOutput }

def convert (f : LinearFunc K) (inputValue : K) : SensorResult K :=
  let result := f.a * inputValue + f.b
  if lt f.maxOutput result then .error (if lt 0.0 f.a then .High else .Low)
  else if lt result f.minOutput then .error (if lt 0.0 f.a then .Low else .High)
  else .ok result

end LinearFunc

structure ResistanceFunc (K : Type) where
  supplyVoltage : K
  pullupResistor : K
  isPulldown : Bool

def ResistanceFunc.convert (f : ResistanceFunc K) (raw : K) : SensorResult K :=
  if lt raw 0.05 then .error .Low
  else if lt (f.supplyVoltage * 0.98) raw then .error .High
  else
    let raw := if f.isPulldown then f.supplyVoltage - raw else raw
    .ok (f.pullupResistor / (f.supplyVoltage / raw - 1.0))

/-- `thermistor_conf_s`. -/
structure ThermistorSettings (K : Type) where
  tempC_1 : K
  tempC_2 : K
  tempC_3 : K
  resistance_1 : K
  resistance_2 : K
  resistance_3 : K
  bias_resistor : K

def convertCelsiusToKelvin (tempC : K) : K := tempC + 273.15

def convertKelvinToCelcius (tempK : K) : K := tempK - 273.15

structure ThermistorFunc (K : Type) where
  a : K
  b : K
  c : K

namespace ThermistorFunc

def configure (cfg : ThermistorSettings K) : ThermistorFunc K :=
  let l1 := logf cfg.resistance_1
  let l2 := logf cfg.resistance_2
  let l3 := logf cfg.resistance_3
  let y1 := 1.0 / convertCelsiusToKelvin cfg.tempC_1
  let y2 := 1.0 / convertCelsiusToKelvin cfg.tempC_2
  let y3 := 1.0 / convertCelsiusToKelvin cfg.tempC_3
  let u2 := (y2 - y1) / (l2 - l1)
  let u3 := (y3 - y1) / (l3 - l1)
  let c := ((u3 - u2) / (l3 - l2)) / (l1 + l2 + l3)
  let b := u2 - c * (l1 * l1 + l1 * l2 + l2 * l2)
  { a := y1 - (b + l1 * l1 * c) * l1, b, c }

def convert (f : ThermistorFunc K) (ohms : K) : SensorResult K :=
  if le ohms 0.0 then .error .Low
  else
    let lnR := logf ohms
    let lnR3 := lnR * lnR * lnR
    let recip := f.a + f.b * lnR + f.c * lnR3
    let kelvin := 1.0 / recip
    let celsius := convertKelvinToCelcius kelvin
    if lt celsius (-50.0) then .error .Low
    else if lt 250.0 celsius then .error .High
    else .ok celsius

end ThermistorFunc

/-- `FuncChain<resist, therm>`. -/
structure ThermistorChain (K : Type) where
  resist : ResistanceFunc K
  therm : ThermistorFunc K

/-- A step that fails makes the result `unexpected`, whatever its code is. -/
def ThermistorChain.convert (f : ThermistorChain K) (input : K) : SensorResult K :=
  match f.resist.convert input with
  | .error _ => .error .Unknown
  | .ok ohms =>
    match f.therm.convert ohms with
    | .error _ => .error .Unknown
    | .ok celsius => .ok celsius

/-- The objects of type `FuncPair`. -/
inductive FuncPair where
  | fclt | fiat | faux1 | faux2 | foil | ffuel | fambient | fcdt
  deriving DecidableEq

inductive LinearName where
  | oilpSensorFunc | fuelPressureFuncLow | fuelPressureFuncHigh
  | auxLinear1Func | auxLinear2Func | auxLinear3Func | auxLinear4Func
  | ofPair (pair : FuncPair)
  deriving DecidableEq

/-- What a sensor can point to. -/
inductive Converter where
  | linear (name : LinearName)
  | thermistor (pair : FuncPair)
  deriving DecidableEq

/-- The converter objects, and what each sensor points to. -/
structure Conversions (K : Type) where
  linear : LinearName → LinearFunc K
  thermistor : FuncPair → ThermistorChain K
  function : SensorObject → Option Converter

namespace Conversions

def setFunction (s : Conversions K) (sensor : SensorObject) (converter : Converter) : Conversions K :=
  { s with function := Function.update s.function sensor (some converter) }

def convert (s : Conversions K) : Converter → K → SensorResult K
  | .linear name => (s.linear name).convert
  | .thermistor pair => (s.thermistor pair).convert

/-- The value that the sensor has afterwards. -/
def postRawValue (s : Conversions K) (sensor : SensorObject) (inputValue : K) : SensorResult K :=
  match s.function sensor with
  | none => .error .Configuration
  | some converter => s.convert converter inputValue

end Conversions

end FomeFw.Sensors
