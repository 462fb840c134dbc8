import FomeFw.Lib.Places
import FomeFw.Sensors.Converters
import FomeFw.Sensors.SensorRegistry

/-! The sensors as they are set up, and the slots in which analog sensors subscribe to their
channels, `adc_subscription.cpp`. A channel is a number, as in `adc_channel_e`. -/
namespace FomeFw.Sensors

/-- `EFI_ADC_NONE` is 0 and `EFI_ADC_LAST_CHANNEL` is 33. -/
def isAdcChannelValid (hwChannel : Nat) : Bool :=
  if hwChannel ≤ 0 then false else if hwChannel ≥ 33 then false else true

/-- The registry, the slots, the converters and the pins of the sensors that count edges. -/
structure SensorState (K : Type) where
  registry : SensorRegistry := {}
  slots : Places SensorObject Nat
  conversions : Conversions K
  pins : SensorObject → Nat := fun _ => 0

namespace SensorState

variable {K : Type} {s : SensorState K} {sensor other : SensorObject} {channel v : Nat}

/-- `Sensor::Register`. -/
def register (s : SensorState K) (sensor : SensorObject) : SensorState K :=
  { s with registry := (s.registry.register sensor).2 }

/-- `Sensor::unregister`. -/
def unregister (s : SensorState K) (sensor : SensorObject) : SensorState K :=
  { s with registry := s.registry.unregister sensor }

/-- Where no slot is free, nothing but an error comes of it. -/
def subscribeSensor (s : SensorState K) (sensor : SensorObject) (channel : Nat) : SensorState K :=
  if !isAdcChannelValid channel then s
  else
    match s.slots.find sensor with
    | some old =>
      if old = channel then s
      else { s with slots := s.slots.setFirst (Places.heldBy sensor) (some (sensor, channel)) }
    | none => { s with slots := s.slots.setFirst Option.isNone (some (sensor, channel)) }

/-- `UnsubscribeSensor(sensor)`. -/
def unsubscribeSensor (s : SensorState K) (sensor : SensorObject) : SensorState K :=
  match s.slots.find sensor with
  | none => s
  | some _ => { s.unregister sensor with slots := s.slots.drop sensor }

/-- `UnsubscribeSensor(sensor, channel)`. -/
def unsubscribeChanged (s : SensorState K) (sensor : SensorObject) (channel : Nat) : SensorState K :=
  match s.slots.find sensor with
  | none => s
  | some old => if old ≠ channel then s.unsubscribeSensor sensor else s

/-- The channel that a sensor asks for. -/
def analog (channel : Nat) : Option Nat := if isAdcChannelValid channel then some channel else none

theorem subscribeSensor_eq :
    s.subscribeSensor sensor channel =
      { s with slots := s.slots.putAll ((analog channel).map (sensor, ·)).toList } := by
  rw [subscribeSensor, analog]
  cases isAdcChannelValid channel with
  | false => rfl
  | true =>
    show _ = { s with slots := s.slots.put sensor channel }
    simp only [Bool.not_true, Bool.false_eq_true, if_false]
    cases found : s.slots.find sensor with
    | none =>
      have fresh := Places.find_eq_none.mp found
      simp only [Places.put, if_neg fresh]
    | some old =>
      have member : sensor ∈ s.slots.holders :=
        Places.mem_holders.mpr ⟨old, Places.holds_of_find found⟩
      simp only
      split
      · next same => rw [Places.put_of_find (same ▸ found)]
      · simp only [Places.put, if_pos member]

end SensorState

end FomeFw.Sensors
