import FomeFw.Sensors.SensorRelease
import Mathlib.Algebra.Order.Ring.Rat

/-! Sensors that were reconfigured while the firmware runs, against those of a boot with the last
configuration. -/
namespace FomeFw.Sensors
open Hardware Machine

variable {K : Type} [SinglePrecision K] {c c' : SensorSettings K} {type : SensorType}
variable {sensor x y : SensorObject} {v : Nat}

/-- The sensors before the boot, with `slots` places for subscriptions. -/
def unset (slots : Nat) (conversions : Conversions K) : SensorState K where
  slots := List.replicate slots none
  conversions := conversions

/-- The running firmware: its configuration, its sensors and the types that the errors of
duplicate registration named in the last step. -/
structure Running (K : Type) where
  config : SensorSettings K
  state : SensorState K
  raised : List SensorType

namespace Running

/-- The firmware after a boot. -/
def boot (device : Nat → Nat → Bool) (slots : Nat) (conversions : Conversions K)
    (c : SensorSettings K) : Running K where
  config := c
  state := Sensors.boot c device (unset slots conversions)
  raised := (Sensors.boot c device (unset slots conversions)).registry.duplicates

/-- A new configuration is applied. -/
def apply (e : Running K) (c : SensorSettings K) : Running K where
  config := c
  state := reconfigureSensors c (stopSensors c e.state)
  raised := (reconfigureSensors c (stopSensors c e.state)).registry.duplicates.drop
    e.state.registry.duplicates.length

/-- The registry, the slots up to their order and the errors are those of a boot. -/
structure LikeBoot (device : Nat → Nat → Bool) (slots : Nat) (conversions : Conversions K)
    (e : Running K) : Prop where
  entry : ∀ type, e.state.registry.entry type =
    (boot device slots conversions e.config).state.registry.entry type
  slot : ∀ sensor channel, e.state.slots.Holds sensor channel ↔
    (boot device slots conversions e.config).state.slots.Holds sensor channel
  once : e.state.slots.Distinct
  raised : e.raised = (boot device slots conversions e.config).raised

theorem LikeBoot.entry_eq {device : Nat → Nat → Bool} {slots : Nat} {conversions : Conversions K}
    {e : Running K} (like : e.LikeBoot device slots conversions) (config : e.config = c)
    (type : SensorType) : e.state.registry.entry type =
      (boot device slots conversions c).state.registry.entry type :=
  config ▸ like.entry type

end Running

section Boot

variable (device : Nat → Nat → Bool)

/-- Whether the vehicle speed comes from the CAN. -/
def usesCanVss (c : SensorSettings K) : Bool := c.enableCanVss && decide (c.canVssNbcType < 4)

/-- The sensor that has the entry of a type after a boot. -/
def bootEntry (c : SensorSettings K) (type : SensorType) : Option SensorObject :=
  ((if type = .VehicleSpeed ∧ usesCanVss c = true then some .canSpeed else none).or
    ((order.filter (registered c)).find? fun sensor => decide (sensor.type = type))).or
    (if type = .BarometricPressure ∧
        device c.lps25BaroSensorScl c.lps25BaroSensorSda = true then some .lps25BaroSensor else none)

/-- The channel in whose slot a sensor is after a boot. -/
def bootSlot (slots : Nat) (c : SensorSettings K) (sensor : SensorObject) : Option Nat :=
  (asked c sensor).filter fun channel =>
    decide ((sensor, channel) ∈ (asksOf c order).take slots)

/-- What the CAN has registered before the other sensors are. -/
def vssRegistry (c : SensorSettings K) : SensorRegistry :=
  if usesCanVss c then (({} : SensorRegistry).register .canSpeed).2 else {}

/-- The types that the errors of a boot name. -/
def bootRaised (c : SensorSettings K) : List SensorType :=
  ((order.filter (registered c)).filter fun sensor =>
    !decide ((vssRegistry c).Free sensor)).map SensorObject.type

omit [SinglePrecision K] in
theorem entry_vssRegistry (c : SensorSettings K) (type : SensorType) :
    (vssRegistry c).entry type =
      if type = .VehicleSpeed ∧ usesCanVss c = true then some .canSpeed else none := by
  rw [vssRegistry]
  by_cases uses : usesCanVss c = true
  · rw [if_pos uses, SensorRegistry.entry_register_of_free (by decide)]
    by_cases same : type = .VehicleSpeed
    · subst same
      rw [if_pos ⟨rfl, uses⟩]
      exact Function.update_self _ _ _
    · rw [if_neg (fun both => same both.1)]
      exact Function.update_of_ne same _ _
  · rw [if_neg uses, if_neg (fun both => uses both.2)]

omit [SinglePrecision K] in
theorem native_vssRegistry (c : SensorSettings K) : (vssRegistry c).Native := by
  intro type sensor held
  rw [entry_vssRegistry] at held
  split at held
  · exact Option.some.inj held ▸ rfl
  · contradiction

omit [SinglePrecision K] in
theorem initCanVssSupport_unset (c : SensorSettings K) (slots : Nat) (conversions : Conversions K) :
    (initCanVssSupport c (unset slots conversions)).registry = vssRegistry c ∧
      (initCanVssSupport c (unset slots conversions)).slots = List.replicate slots none := by
  rw [initCanVssSupport, vssRegistry, usesCanVss]
  cases c.enableCanVss with
  | false => exact ⟨rfl, rfl⟩
  | true =>
    by_cases known : c.canVssNbcType < 4
    · simp [known, unset, SensorState.register]
    · simp [known, unset]

omit [SinglePrecision K] in
theorem initBaro_spec (c : SensorSettings K) (s : SensorState K) :
    (∀ type, (initBaro c device s).registry.entry type = (s.registry.entry type).or
      (if type = .BarometricPressure ∧ device c.lps25BaroSensorScl c.lps25BaroSensorSda = true then
        some .lps25BaroSensor else none)) ∧
      (initBaro c device s).registry.duplicates = s.registry.duplicates ∧
      (initBaro c device s).slots = s.slots := by
  rw [initBaro]
  cases held : s.registry.entry .BarometricPressure with
  | some other =>
    refine ⟨?_, rfl, rfl⟩
    intro type
    by_cases same : type = .BarometricPressure
    · subst same
      simp [held]
    · simp [same]
  | none =>
    have free : s.registry.Free .lps25BaroSensor := by
      intro other taken
      exact absurd (held.symm.trans taken) (by simp)
    by_cases present : device c.lps25BaroSensorScl c.lps25BaroSensorSda = true
    · simp only [Option.isSome_none, Bool.false_eq_true, if_false, present, if_true, and_true]
      refine ⟨?_, SensorRegistry.duplicates_register_of_free free, rfl⟩
      intro type
      simp only [SensorState.register]
      rw [SensorRegistry.entry_register_of_free free]
      by_cases same : type = .BarometricPressure
      · subst same
        rw [if_pos rfl, held]
        exact Function.update_self _ _ _
      · rw [if_neg same, Option.or_none]
        exact Function.update_of_ne same _ _
    · simp [present]

theorem holds_bootSlot {slots : Nat} {c : SensorSettings K} :
    bootSlot slots c sensor = some v ↔ (sensor, v) ∈ (asksOf c order).take slots := by
  rw [bootSlot, Option.filter_eq_some_iff, decide_eq_true_iff]
  refine ⟨And.right, fun member => ⟨?_, member⟩⟩
  exact (mem_asksOf.mp (List.mem_of_mem_take member)).2

/-- The sensors after a boot. -/
theorem boot_spec (c : SensorSettings K) (slots : Nat) (conversions : Conversions K) :
    (∀ type, (Sensors.boot c device (unset slots conversions)).registry.entry type =
      bootEntry device c type) ∧
    (Sensors.boot c device (unset slots conversions)).registry.duplicates = bootRaised c ∧
    (∀ sensor v, (Sensors.boot c device (unset slots conversions)).slots.Holds sensor v ↔
      bootSlot slots c sensor = some v) ∧
    (Sensors.boot c device (unset slots conversions)).slots.Distinct ∧
    (Sensors.boot c device (unset slots conversions)).slots.length = slots := by
  obtain ⟨registry, places⟩ := initCanVssSupport_unset c slots conversions
  obtain ⟨entry, duplicates, kept⟩ := initBaro_spec device c
    (reconfigureSensors c (initCanVssSupport c (unset slots conversions)))
  have native := native_vssRegistry c
  rw [← registry] at native
  have made := (makes_reconfigureSensors c).registry _ native
  have asked := (makes_reconfigureSensors c).slots _ native
  have vss : ∀ type, (initCanVssSupport c (unset slots conversions)).registry.entry type =
      if type = .VehicleSpeed ∧ usesCanVss c = true then some .canSpeed else none := by
    intro type
    rw [registry, entry_vssRegistry]
  have clean : (initCanVssSupport c (unset slots conversions)).registry.duplicates = [] := by
    rw [registry, vssRegistry]
    split <;> decide
  have empty : (initCanVssSupport c (unset slots conversions)).slots.holders = [] := by
    rw [places, Places.holders_replicate]
  have nobody : (initCanVssSupport c (unset slots conversions)).slots.Distinct := by
    rw [Places.Distinct, empty]
    exact List.nodup_nil
  refine ⟨?_, ?_, ?_, ?_, ?_⟩
  · intro type
    refine (entry type).trans ?_
    rw [made, SensorRegistry.entry_registerAll (nodup_registered c), vss, bootEntry]
  · refine duplicates.trans ?_
    rw [made, SensorRegistry.duplicates_registerAll (nodup_registered c), clean, registry,
      List.nil_append, bootRaised]
  · intro sensor v
    have filled := (Places.holds_putAll_iff nobody (nodup_asksOf c)).mpr (by simp [empty])
    rw [Sensors.boot, kept, asked, filled, places, List.length_replicate, holds_bootSlot]
  · rw [Sensors.boot, kept, asked]
    exact nobody.putAll
  · rw [Sensors.boot, kept, asked, Places.length_putAll, places, List.length_replicate]

/-- A configuration is settled: the sensors are those of a boot with it, in closed form. -/
structure Settled (slots : Nat) (e : Running K) : Prop where
  entry : ∀ type, e.state.registry.entry type = bootEntry device e.config type
  slot : ∀ sensor v, e.state.slots.Holds sensor v ↔ bootSlot slots e.config sensor = some v
  once : e.state.slots.Distinct
  length : e.state.slots.length = slots
  raised : e.raised = bootRaised e.config

theorem settled_boot (slots : Nat) (conversions : Conversions K) (c : SensorSettings K) :
    Settled device slots (Running.boot device slots conversions c) := by
  obtain ⟨entry, raised, slot, once, length⟩ := boot_spec device c slots conversions
  exact ⟨entry, slot, once, length, raised⟩

theorem Settled.likeBoot {slots : Nat} {conversions : Conversions K} {e : Running K}
    (settled : Settled device slots e) : e.LikeBoot device slots conversions := by
  have boot := settled_boot device slots conversions e.config
  constructor
  · exact fun type => (settled.entry type).trans (boot.entry type).symm
  · exact fun sensor v => (settled.slot sensor v).trans (boot.slot sensor v).symm
  · exact settled.once
  · exact settled.raised.trans boot.raised.symm

end Boot

section Step

variable (device : Nat → Nat → Bool) (slots : Nat)

/-- No sensor of the type is unregistered when the second configuration follows the first. -/
def KeepsEntry (c c' : SensorSettings K) (type : SensorType) : Prop :=
  ∀ r ∈ releases c', r.sensor.type = type → r.clears (bootSlot slots c r.sensor) = false

/-- The sensor stays in its slot. -/
def KeepsSlot (c' : SensorSettings K) (sensor : SensorObject) (channel : Nat) : Prop :=
  ∀ r ∈ releases c', r.sensor = sensor → r.frees channel = false

/-- The second configuration wants all that the first one leaves in place, and the sensors that
only a boot registers are the same. -/
structure Carries (c c' : SensorSettings K) : Prop where
  slot : ∀ sensor channel, bootSlot slots c sensor = some channel → KeepsSlot c' sensor channel →
    bootSlot slots c' sensor ≠ none
  entry : ∀ type sensor, bootEntry device c type = some sensor → KeepsEntry slots c c' type →
    bootEntry device c' type = some sensor
  other : ∀ sensor, sensor = .canSpeed ∨ sensor = .lps25BaroSensor →
    bootEntry device c' sensor.type = some sensor → bootEntry device c sensor.type = some sensor

variable {device slots} {e : Running K}

/-- What is left after the sensors are stopped. -/
theorem Settled.stopSensors (settled : Settled device slots e) (c' : SensorSettings K) :
    (∀ type sensor, (stopSensors c' e.state).registry.entry type = some sensor ↔
      bootEntry device e.config type = some sensor ∧ KeepsEntry slots e.config c' type) ∧
    (∀ sensor v, (Sensors.stopSensors c' e.state).slots.Holds sensor v ↔
      bootSlot slots e.config sensor = some v ∧ KeepsSlot c' sensor v) ∧
    (Sensors.stopSensors c' e.state).slots.Distinct ∧
    (Sensors.stopSensors c' e.state).slots.length = slots ∧
    (Sensors.stopSensors c' e.state).registry.duplicates = e.state.registry.duplicates := by
  have undone := undoes_stopSensors c' e.state
  have registry := congrArg Prod.fst undone
  have places := congrArg Prod.snd undone
  simp only at registry places
  have find : ∀ sensor, e.state.slots.find sensor = bootSlot slots e.config sensor := by
    intro sensor
    refine Option.ext fun v => ?_
    rw [settled.once.find_iff, settled.slot]
  refine ⟨?_, ?_, ?_, ?_, ?_⟩
  · intro type sensor
    rw [registry, entry_applyAll settled.once (nodup_releases c')]
    simp only [find, settled.entry, KeepsEntry]
    by_cases cleared : ∃ r ∈ releases c', r.sensor.type = type ∧
        r.clears (bootSlot slots e.config r.sensor) = true
    · rw [if_pos cleared]
      obtain ⟨r, member, same, clears⟩ := cleared
      constructor
      · intro held
        exact absurd held (Option.some_ne_none sensor).symm
      · intro both
        exact absurd (clears.symm.trans (both.2 r member same)) (by simp)
    · rw [if_neg cleared]
      refine ⟨fun held => ⟨held, ?_⟩, And.left⟩
      intro r member same
      exact Bool.eq_false_iff.mpr fun clears => cleared ⟨r, member, same, clears⟩
  · intro sensor v
    rw [places, holds_applyAll settled.once, settled.slot, KeepsSlot]
  · rw [places]
    exact distinct_applyAll settled.once
  · rw [places, length_applyAll, settled.length]
  · rw [registry, duplicates_applyAll]

/-- Which sensor of a type is registered. -/
theorem find_type {sensors : List SensorObject} (apart : (sensors.map SensorObject.type).Nodup) :
    sensors.find? (fun sensor => decide (sensor.type = type)) = some x ↔
      x ∈ sensors ∧ x.type = type := by
  constructor
  · intro found
    exact ⟨List.mem_of_find?_eq_some found, by simpa using List.find?_some found⟩
  · rintro ⟨member, rfl⟩
    cases found : sensors.find? (fun sensor => decide (sensor.type = x.type)) with
    | none => exact absurd (List.find?_eq_none.mp found x member) (by simp)
    | some y =>
      have same : y.type = x.type := by simpa using List.find?_some found
      rw [List.inj_on_of_nodup_map apart (List.mem_of_find?_eq_some found) member same]

theorem find_registered {c : SensorSettings K} :
    (order.filter (registered c)).find? (fun sensor => decide (sensor.type = type)) = some x ↔
      x ∈ order ∧ registered c x = true ∧ x.type = type := by
  rw [find_type (nodup_registered c), List.mem_filter, and_assoc]

/-- An entry after a boot is that of a sensor that is due, or of one that only a boot registers. -/
theorem bootEntry_cases (held : bootEntry device c type = some x) :
    x.type = type ∧
      ((x = .canSpeed ∨ x = .lps25BaroSensor) ∨ (x ∈ order ∧ registered c x = true)) := by
  rw [bootEntry, Option.or_eq_some_iff, Option.or_eq_some_iff] at held
  rcases held with (vss | ⟨-, found⟩) | ⟨-, baro⟩
  · split at vss
    · next uses =>
      obtain rfl := Option.some.inj vss
      exact ⟨uses.1.symm, .inl (.inl rfl)⟩
    · contradiction
  · obtain ⟨member, due, same⟩ := find_registered.mp found
    exact ⟨same, .inr ⟨member, due⟩⟩
  · split at baro
    · next present =>
      obtain rfl := Option.some.inj baro
      exact ⟨present.1.symm, .inl (.inr rfl)⟩
    · contradiction

theorem native_bootEntry (held : bootEntry device c type = some x) : x.isNative = true := by
  rcases (bootEntry_cases held).2 with (rfl | rfl) | ⟨member, -⟩
  · rfl
  · rfl
  · exact (makes_reconfigureSensors c).native x member

/-- A sensor that is due has the entry of its type unless the vehicle speed comes from the CAN. -/
theorem bootEntry_of_registered (member : x ∈ order) (due : registered c x = true)
    (free : ¬(x.type = .VehicleSpeed ∧ usesCanVss c = true)) :
    bootEntry device c x.type = some x := by
  rw [bootEntry, if_neg free, find_registered.mpr ⟨member, due, rfl⟩, Option.none_or, Option.some_or]

theorem bootEntry_canSpeed (uses : usesCanVss c = true) :
    bootEntry device c .VehicleSpeed = some .canSpeed := by
  rw [bootEntry, if_pos ⟨rfl, uses⟩, Option.some_or, Option.some_or]

/-- Nothing that `stopSensors` does unregisters a sensor that only a boot registers. -/
theorem keepsEntry_other (c' : SensorSettings K) (only : x = .canSpeed ∨ x = .lps25BaroSensor)
    (held : bootEntry device c x.type = some x) : KeepsEntry slots c c' x.type := by
  intro r member same
  rcases only with rfl | rfl
  · have absent : SensorType.VehicleSpeed ∉ (releases c').map fun r => r.sensor.type := by
      simp only [releases, List.map_cons, List.map_nil, Release.slot, Release.entry,
        Release.changed, Release.both]
      decide
    exact absurd (List.mem_map.mpr ⟨r, member, same⟩) absent
  · have only : ∀ p ∈ (releases c').map fun r => (r.sensor, r.always),
        p.1.type = .BarometricPressure → p = (.baroSensor, false) := by
      simp only [releases, List.map_cons, List.map_nil, Release.slot, Release.entry,
        Release.changed, Release.both]
      decide
    obtain ⟨sensor, always⟩ := Prod.mk.inj (only _ (List.mem_map_of_mem member) same)
    have empty : bootSlot slots c .baroSensor = none := by
      refine Option.eq_none_iff_forall_ne_some.mpr fun v slot => ?_
      have asks := (mem_asksOf.mp (List.mem_of_mem_take (holds_bootSlot.mp slot))).2
      have due : registered c .baroSensor = true := by simp [registered, asks]
      have other := @bootEntry_of_registered _ _ c .baroSensor device (by decide) due
        (fun both => absurd both.1 (by decide))
      exact absurd (held.symm.trans other) (by decide)
    rw [Release.clears, sensor, always, empty]
    rfl

/-- The sensors after a new configuration is applied. -/
theorem Settled.apply (settled : Settled device slots e) (c' : SensorSettings K) :
    (∀ type, (e.apply c').state.registry.entry type =
      ((Sensors.stopSensors c' e.state).registry.entry type).or
        ((order.filter (registered c')).find? fun sensor => decide (sensor.type = type))) ∧
    (e.apply c').raised = ((order.filter (registered c')).filter fun sensor =>
      !decide ((Sensors.stopSensors c' e.state).registry.Free sensor)).map SensorObject.type ∧
    (e.apply c').state.slots =
      (Sensors.stopSensors c' e.state).slots.putAll (asksOf c' order) := by
  obtain ⟨entry, -, -, -, duplicates⟩ := settled.stopSensors c'
  have native : (Sensors.stopSensors c' e.state).registry.Native := by
    intro type sensor held
    exact native_bootEntry ((entry type sensor).mp held).1
  have made := (makes_reconfigureSensors c').registry _ native
  refine ⟨?_, ?_, (makes_reconfigureSensors c').slots _ native⟩
  · intro type
    rw [Running.apply, made, SensorRegistry.entry_registerAll (nodup_registered c')]
  · rw [Running.apply, made, SensorRegistry.duplicates_registerAll (nodup_registered c'), duplicates,
      List.drop_left]

/-- The first one asked for is already there, so nobody else takes the entry. -/
theorem Settled.other (settled : Settled device slots e) {c' : SensorSettings K}
    (carries : Carries device slots e.config c')
    (only : x = .canSpeed ∨ x = .lps25BaroSensor)
    (wanted : bootEntry device c' x.type = some x) :
    (Sensors.stopSensors c' e.state).registry.entry x.type = some x := by
  have held := carries.other x only wanted
  exact ((settled.stopSensors c').1 x.type x).mpr ⟨held, keepsEntry_other c' only held⟩

theorem Settled.entry_apply (settled : Settled device slots e) {c' : SensorSettings K}
    (carries : Carries device slots e.config c') (type : SensorType) :
    (e.apply c').state.registry.entry type = bootEntry device c' type := by
  rw [(settled.apply c').1]
  cases left : (Sensors.stopSensors c' e.state).registry.entry type with
  | some x =>
    obtain ⟨held, kept⟩ := ((settled.stopSensors c').1 type x).mp left
    rw [Option.some_or, carries.entry type x held kept]
  | none =>
    rw [Option.none_or]
    cases wanted : bootEntry device c' type with
    | none =>
      rw [bootEntry, Option.or_eq_none_iff, Option.or_eq_none_iff] at wanted
      exact wanted.1.2
    | some x =>
      obtain ⟨rfl, only | due⟩ := bootEntry_cases wanted
      · exact absurd (left.symm.trans (settled.other carries only wanted)) (by simp)
      · exact find_registered.mpr ⟨due.1, due.2, rfl⟩

omit [SinglePrecision K] in
theorem free_vssRegistry (member : x ∈ order) (c : SensorSettings K) :
    (vssRegistry c).Free x ↔ ¬(x.type = .VehicleSpeed ∧ usesCanVss c = true) := by
  constructor
  · intro free uses
    have same := free .canSpeed (by rw [entry_vssRegistry, if_pos uses])
    rw [← same] at member
    exact absurd member (by decide)
  · intro free other held
    rw [entry_vssRegistry, if_neg free] at held
    contradiction

theorem Settled.free_iff (settled : Settled device slots e) {c' : SensorSettings K}
    (carries : Carries device slots e.config c') (member : x ∈ order)
    (due : registered c' x = true) :
    (Sensors.stopSensors c' e.state).registry.Free x ↔ (vssRegistry c').Free x := by
  obtain ⟨entry, -⟩ := settled.stopSensors c'
  have vss := settled.other (x := .canSpeed) carries (.inl rfl)
  generalize (Sensors.stopSensors c' e.state).registry = r at entry vss
  rw [free_vssRegistry member]
  constructor
  · rintro free ⟨same, uses⟩
    have left := vss (bootEntry_canSpeed uses)
    have self : SensorObject.canSpeed = x := free .canSpeed (same ▸ left)
    rw [← self] at member
    exact absurd member (by decide)
  · intro free other left
    obtain ⟨held, kept⟩ := (entry x.type other).mp left
    have wanted := carries.entry x.type other held kept
    rw [bootEntry_of_registered member due free] at wanted
    exact (Option.some.inj wanted).symm

theorem Settled.raised_apply (settled : Settled device slots e) {c' : SensorSettings K}
    (carries : Carries device slots e.config c') : (e.apply c').raised = bootRaised c' := by
  rw [(settled.apply c').2.1, bootRaised]
  refine congrArg _ (List.filter_congr ?_)
  intro x here
  obtain ⟨member, due⟩ := List.mem_filter.mp here
  simp only [settled.free_iff carries member due]

theorem Settled.slot_apply (settled : Settled device slots e) {c' : SensorSettings K}
    (carries : Carries device slots e.config c') (sensor : SensorObject) (v : Nat) :
    (e.apply c').state.slots.Holds sensor v ↔ bootSlot slots c' sensor = some v := by
  obtain ⟨-, holds, once, length, -⟩ := settled.stopSensors c'
  have within : (Sensors.stopSensors c' e.state).slots.holders ⊆
      ((asksOf c' order).take (Sensors.stopSensors c' e.state).slots.length).map Prod.fst := by
    intro x member
    obtain ⟨old, here⟩ := Places.mem_holders.mp member
    obtain ⟨held, kept⟩ := (holds x old).mp here
    obtain ⟨new, asks⟩ := Option.ne_none_iff_exists'.mp (carries.slot x old held kept)
    rw [length]
    exact List.mem_map_of_mem (holds_bootSlot.mp asks)
  have filled := (Places.holds_putAll_iff once (nodup_asksOf c')).mpr within
  rw [(settled.apply c').2.2, filled, length, holds_bootSlot]

theorem Settled.keeps (settled : Settled device slots e) {c' : SensorSettings K}
    (carries : Carries device slots e.config c') : Settled device slots (e.apply c') := by
  obtain ⟨-, -, once, length, -⟩ := settled.stopSensors c'
  constructor
  · exact settled.entry_apply carries
  · exact settled.slot_apply carries
  · rw [(settled.apply c').2.2]
    exact once.putAll
  · rw [(settled.apply c').2.2, Places.length_putAll, length]
  · exact settled.raised_apply carries

/-- Nothing less than `Carries` gives the sensors of a boot. -/
theorem Settled.needs (settled : Settled device slots e) {c' : SensorSettings K}
    {conversions : Conversions K} (like : (e.apply c').LikeBoot device slots conversions) :
    Carries device slots e.config c' := by
  have boot := settled_boot device slots conversions c'
  obtain ⟨entry, holds, once, -, -⟩ := settled.stopSensors c'
  obtain ⟨after, -, places⟩ := settled.apply c'
  have wanted : ∀ type, (e.apply c').state.registry.entry type = bootEntry device c' type :=
    fun type => (like.entry type).trans (boot.entry type)
  constructor
  · intro sensor v held kept
    have member := Places.mem_holders.mpr ⟨v, (holds sensor v).mpr ⟨held, kept⟩⟩
    obtain ⟨w, there⟩ := Places.mem_holders.mp (Places.holders_subset_putAll once member)
    rw [← places] at there
    have asks := (boot.slot sensor w).mp ((like.slot sensor w).mp there)
    exact fun absent => absurd (asks.symm.trans absent) (Option.some_ne_none w)
  · intro type sensor held kept
    rw [← wanted, after, (entry type sensor).mpr ⟨held, kept⟩, Option.some_or]
  · intro sensor only asks
    rw [← wanted, after, Option.or_eq_some_iff] at asks
    rcases asks with left | ⟨-, found⟩
    · exact ((entry sensor.type sensor).mp left).1
    · have member := (find_registered.mp found).1
      rcases only with rfl | rfl <;> exact absurd member (by decide)

end Step

section Left

/-- Exact arithmetic; no resistance is converted here. -/
local instance exactArithmetic : SinglePrecision ℚ where
  lt a b := decide (a < b)
  le a b := decide (a ≤ b)
  abs a := |a|
  logf _ := 0

/-- A turbocharger speed sensor, and an analog lambda sensor that is to be read over the CAN. -/
def turboAndLambda : SensorSettings ℚ :=
  { SensorSettings.unconnected 0 with
    turboSpeedSensorInputPin := 10
    afrHwChannel := 3 }

def canLambda : SensorSettings ℚ :=
  { SensorSettings.unconnected 0 with
    widebandMode := .FOMEInternal
    canWriteEnabled := true
    canReadEnabled := true
    afrHwChannel := 3 }

end Left

end FomeFw.Sensors
