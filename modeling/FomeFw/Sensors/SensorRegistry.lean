import FomeFw.Lib.Machine
import FomeFw.Sensors.SensorTypes
import Mathlib.Logic.Function.Basic

/-! The registry of the sensors, `sensor.cpp`: one entry for each type, taken by one object. -/
namespace FomeFw.Sensors
open Machine

/-- An entry only ever holds an object of its type. `duplicates` are the types that the errors of
duplicate registration have named. -/
structure SensorRegistry where
  entry : SensorType → Option SensorObject := fun _ => none
  duplicates : List SensorType := []
  typed : ∀ {type sensor}, entry type = some sensor → sensor.type = type := by simp

namespace SensorRegistry

variable {r : SensorRegistry} {type : SensorType} {sensor other : SensorObject}

/-- `SensorRegistryEntry::Register`; the result says whether the sensor has the entry. -/
def register (r : SensorRegistry) (sensor : SensorObject) : Bool × SensorRegistry :=
  if r.entry sensor.type ≠ none ∧ r.entry sensor.type ≠ some sensor then
    (false, { r with duplicates := r.duplicates ++ [sensor.type] })
  else
    (true,
      { r with
        entry := Function.update r.entry sensor.type (some sensor)
        typed := by
          intro type other held
          by_cases same : type = sensor.type
          · subst same
            rw [Function.update_self] at held
            rw [Option.some.inj held]
          · rw [Function.update_of_ne same] at held
            exact r.typed held })

/-- The entry is cleared, whoever has it. -/
def unregister (r : SensorRegistry) (sensor : SensorObject) : SensorRegistry :=
  { r with
    entry := Function.update r.entry sensor.type none
    typed := by
      intro type other held
      by_cases same : type = sensor.type
      · subst same
        rw [Function.update_self] at held
        contradiction
      · rw [Function.update_of_ne same] at held
        exact r.typed held }

/-- No other object has the entry. -/
def Free (r : SensorRegistry) (sensor : SensorObject) : Prop :=
  ∀ other, r.entry sensor.type = some other → other = sensor

theorem free_iff :
    r.Free sensor ↔ ¬(r.entry sensor.type ≠ none ∧ r.entry sensor.type ≠ some sensor) := by
  unfold Free
  cases r.entry sensor.type <;> simp

instance : Decidable (r.Free sensor) := decidable_of_iff' _ free_iff

theorem register_fst : (r.register sensor).1 = true ↔ r.Free sensor := by
  rw [free_iff, register]
  split
  · next taken => simp [taken]
  · next free => exact iff_of_true rfl free

theorem entry_register_of_free (free : r.Free sensor) :
    (r.register sensor).2.entry = Function.update r.entry sensor.type (some sensor) := by
  rw [register, if_neg (free_iff.mp free)]

theorem register_of_not_free (taken : ¬r.Free sensor) :
    (r.register sensor).2.entry = r.entry ∧
      (r.register sensor).2.duplicates = r.duplicates ++ [sensor.type] := by
  rw [free_iff, not_not] at taken
  rw [register, if_pos taken]
  exact ⟨rfl, rfl⟩

theorem duplicates_register_of_free (free : r.Free sensor) :
    (r.register sensor).2.duplicates = r.duplicates := by
  rw [register, if_neg (free_iff.mp free)]

@[simp] theorem entry_unregister :
    (r.unregister sensor).entry = Function.update r.entry sensor.type none := rfl

@[simp] theorem duplicates_unregister : (r.unregister sensor).duplicates = r.duplicates := rfl

/-- No sensor of a script is registered. -/
def Native (r : SensorRegistry) : Prop :=
  ∀ type sensor, r.entry type = some sensor → sensor.isNative = true

theorem Native.register (native : r.Native) (here : sensor.isNative = true) :
    (r.register sensor).2.Native := by
  intro type other held
  by_cases free : r.Free sensor
  · rw [entry_register_of_free free] at held
    by_cases same : type = sensor.type
    · subst same
      rw [Function.update_self] at held
      exact Option.some.inj held ▸ here
    · rw [Function.update_of_ne same] at held
      exact native type other held
  · rw [(register_of_not_free free).1] at held
    exact native type other held

/-- The sensors are registered one after the other. -/
def registerAll (r : SensorRegistry) (sensors : List SensorObject) : SensorRegistry :=
  sensors.foldl (fun r sensor => (r.register sensor).2) r

@[simp] theorem registerAll_nil : r.registerAll [] = r := rfl

theorem registerAll_append (sensors more : List SensorObject) :
    (r.registerAll sensors).registerAll more = r.registerAll (sensors ++ more) :=
  List.foldl_append.symm

variable {sensors : List SensorObject}

theorem Native.registerAll (native : r.Native) (all : ∀ sensor ∈ sensors, sensor.isNative = true) :
    (r.registerAll sensors).Native := by
  induction sensors generalizing r with
  | nil => exact native
  | cons sensor sensors ih =>
    rw [SensorRegistry.registerAll, List.foldl_cons]
    apply ih
    · exact native.register (all sensor List.mem_cons_self)
    · exact fun other member => all other (List.mem_cons_of_mem _ member)

/-- Of different types, each sensor gets its entry unless it was taken before. -/
theorem entry_registerAll (distinct : (sensors.map SensorObject.type).Nodup) :
    (r.registerAll sensors).entry type =
      (r.entry type).or (sensors.find? fun sensor => decide (sensor.type = type)) := by
  induction sensors generalizing r with
  | nil => simp [registerAll]
  | cons sensor sensors ih =>
    rw [List.map_cons, List.nodup_cons] at distinct
    rw [registerAll, List.foldl_cons]
    refine (ih distinct.2).trans ?_
    by_cases free : r.Free sensor
    · rw [entry_register_of_free free]
      by_cases same : type = sensor.type
      · subst same
        rw [Function.update_self, List.find?_cons_of_pos (by simp), Option.some_or]
        cases held : r.entry sensor.type with
        | none => rfl
        | some other => rw [free other held, Option.some_or]
      · rw [Function.update_of_ne same, List.find?_cons_of_neg (by simpa using Ne.symm same)]
    · rw [(register_of_not_free free).1]
      by_cases same : type = sensor.type
      · subst same
        cases held : r.entry sensor.type with
        | none => exact absurd (fun other h => by rw [held] at h; contradiction) free
        | some other => rw [Option.some_or, Option.some_or]
      · rw [List.find?_cons_of_neg (by simpa using Ne.symm same)]

theorem free_register (apart : other.type ≠ sensor.type) :
    (r.register sensor).2.Free other ↔ r.Free other := by
  have same : (r.register sensor).2.entry other.type = r.entry other.type := by
    by_cases free : r.Free sensor
    · rw [entry_register_of_free free, Function.update_of_ne apart]
    · rw [(register_of_not_free free).1]
  rw [Free, Free, same]

/-- The errors name the types that were taken before. -/
theorem duplicates_registerAll (distinct : (sensors.map SensorObject.type).Nodup) :
    (r.registerAll sensors).duplicates =
      r.duplicates ++ (sensors.filter fun sensor => !decide (r.Free sensor)).map SensorObject.type := by
  induction sensors generalizing r with
  | nil => simp [registerAll]
  | cons sensor sensors ih =>
    rw [List.map_cons, List.nodup_cons] at distinct
    rw [registerAll, List.foldl_cons]
    refine (ih distinct.2).trans ?_
    have others : sensors.filter (fun other => !decide ((r.register sensor).2.Free other)) =
        sensors.filter fun other => !decide (r.Free other) := by
      apply List.filter_congr
      intro other member
      have apart : other.type ≠ sensor.type :=
        fun same => distinct.1 (same ▸ List.mem_map_of_mem member)
      simp only [free_register apart]
    rw [others]
    by_cases free : r.Free sensor
    · rw [duplicates_register_of_free free, List.filter_cons_of_neg (by simpa using free)]
    · rw [(register_of_not_free free).2, List.filter_cons_of_pos (by simpa using free),
        List.map_cons, List.append_assoc, List.singleton_append]

end SensorRegistry

inductive RegistryCall where
  | register (sensor : SensorObject)
  | unregister (sensor : SensorObject)

/-- The registry, and the sensors that were registered with success and not unregistered since. -/
structure SensorHistory where
  registry : SensorRegistry := {}
  registered : SensorObject → Bool := fun _ => false

namespace SensorHistory

variable {h : SensorHistory} {call : RegistryCall} {sensor other : SensorObject}

def step (h : SensorHistory) : RegistryCall → SensorHistory
  | .register sensor =>
    { registry := (h.registry.register sensor).2
      registered :=
        if (h.registry.register sensor).1 then Function.update h.registered sensor true
        else h.registered }
  | .unregister sensor =>
    { registry := h.registry.unregister sensor
      registered := Function.update h.registered sensor false }

/-- The entry of a type holds a sensor just when that sensor is registered. -/
def OwnEntries (h : SensorHistory) : Prop :=
  ∀ sensor, h.registry.entry sensor.type = some sensor ↔ h.registered sensor = true

/-- A sensor is unregistered only where no other one has the entry of its type. -/
def Rightful (h : SensorHistory) : RegistryCall → Prop
  | .register _ => True
  | .unregister sensor => h.registry.Free sensor

theorem OwnEntries.register (own : h.OwnEntries) : (h.step (.register sensor)).OwnEntries := by
  intro other
  simp only [step]
  by_cases free : h.registry.Free sensor
  · rw [SensorRegistry.entry_register_of_free free, if_pos (SensorRegistry.register_fst.mpr free)]
    by_cases same : other = sensor
    · subst same
      simp
    · rw [Function.update_of_ne same]
      by_cases alike : other.type = sensor.type
      · rw [alike, Function.update_self]
        constructor
        · intro held
          exact absurd (Option.some.inj held).symm same
        · intro registered
          exact absurd (free other (alike ▸ (own other).mpr registered)) same
      · rw [Function.update_of_ne alike]
        exact own other
  · rw [(SensorRegistry.register_of_not_free free).1,
      if_neg (fun taken => free (SensorRegistry.register_fst.mp taken))]
    exact own other

theorem OwnEntries.unregister (own : h.OwnEntries) (free : h.registry.Free sensor) :
    (h.step (.unregister sensor)).OwnEntries := by
  intro other
  simp only [step, SensorRegistry.entry_unregister]
  by_cases same : other = sensor
  · subst same
    simp
  · rw [Function.update_of_ne same]
    by_cases alike : other.type = sensor.type
    · rw [alike, Function.update_self]
      constructor
      · intro held
        contradiction
      · intro registered
        exact absurd (free other (alike ▸ (own other).mpr registered)) same
    · rw [Function.update_of_ne alike]
      exact own other

theorem OwnEntries.step (own : h.OwnEntries) (rightful : h.Rightful call) :
    (h.step call).OwnEntries := by
  cases call with
  | register sensor => exact own.register
  | unregister sensor => exact own.unregister rightful

/-- Unregistering a sensor where another one has the entry leaves that one out. -/
theorem OwnEntries.needs (own : h.OwnEntries) (after : (h.step call).OwnEntries) :
    h.Rightful call := by
  cases call with
  | register sensor => trivial
  | unregister sensor =>
    intro other held
    by_contra differs
    have alike : other.type = sensor.type := h.registry.typed held
    have registered : (h.step (.unregister sensor)).registered other = true := by
      simp only [SensorHistory.step, Function.update_of_ne differs]
      exact (own other).mp (alike ▸ held)
    have kept := (after other).mpr registered
    simp only [SensorHistory.step, SensorRegistry.entry_unregister, alike, Function.update_self] at kept
    contradiction

theorem ownEntries_start : ({} : SensorHistory).OwnEntries := by
  intro sensor
  simp

/-- Over every sequence of calls the registry holds the sensors that are registered just when no
sensor is unregistered while another one has its entry. -/
theorem ownEntries_iff (calls : List RegistryCall) :
    Always SensorHistory.step OwnEntries {} calls ↔ Guarded SensorHistory.step Rightful {} calls := by
  apply @always_iff_guarded _ _ _ calls SensorHistory.step Rightful OwnEntries OwnEntries _ _ _
    ownEntries_start
  · exact fun _ own => own
  · exact fun _ _ own after => own.needs after
  · exact fun _ _ rightful own => own.step rightful

/-- A script makes an ethanol sensor, and the flex sensor of the firmware, which no pin is
configured for, is de-initialized with a change of the configuration. The other way round a
change of the configuration takes the analog fuel temperature from the registry. -/
theorem ownEntries_fails :
    (let lua := SensorObject.luaSensor 0 .FuelEthanolPercent
    let h := ([.register lua, .unregister .flexSensor, .unregister .flexFuelTemp] :
      List RegistryCall).foldl step {}
    h.registered lua = true ∧ h.registry.entry .FuelEthanolPercent = none) ∧
    let h := ([.register .fuelTempSensor, .unregister .flexSensor, .unregister .flexFuelTemp] :
      List RegistryCall).foldl step {}
    h.registered .fuelTempSensor = true ∧ h.registry.entry .FuelTemperature = none := by
  decide

end SensorHistory

end FomeFw.Sensors
