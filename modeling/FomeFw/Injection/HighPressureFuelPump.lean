import FomeFw.Timer.ScheduleByAngle

/-! The high-pressure fuel pump, `high_pressure_fuel_pump.cpp`. A valve is switched on ahead of
each lobe of the cam and off again, with one event that waits in turn for an angle and for a
moment. The executor does what it is asked: an action that is scheduled on a free record is run
once, unless it is cancelled. -/
namespace FomeFw.Injection
open Timer Trigger

/-- `rpm_spinning_cutoff`: below this RPM, we don't run the logic. -/
abbrev rpmSpinningCutoff : ℚ := 60

structure HpfpSettings where
  hpfpCamLobes : Fin 256
  hpfpPumpVolume : ℚ
  hpfpPeakPos : ℚ
  /-- 0 is `HPFP_CAM_NONE`. -/
  hpfpCam : Nat
  hpfpMinAngle : ℚ
  hpfpActivationAngle : ℚ
  /-- Whether the valve has a pin. -/
  isInitialized : Bool

/-- What the code finds around it. -/
structure HpfpReadings where
  rpm : ℚ
  /-- `triggerShape.getSize()`. -/
  triggerSize : Nat
  deadtimeMs : ℚ
  /-- The angle that `HpfpQuantity` asks for. -/
  pumpAngleFuel : ℚ
  /-- Zero where there is no position. -/
  getVVTPosition : Nat → Nat → ℚ
  oneDegreeUs : ℚ
  engineCycle : Angle

/-- A `scheduling_s` that belongs to its owner. -/
structure EventRecord where
  momentX : Tick := 0
  action : Option Action := none

namespace EventRecord

/-- A record that is in use is left as it is. -/
def schedule (record : EventRecord) (nt : Tick) (action : Action) : EventRecord :=
  if record.action.isSome then record else ⟨nt, some action⟩

def cancel (record : EventRecord) : EventRecord := { record with action := none }

end EventRecord

/-- The angle-based event of the pump; the elements of the ignition have the numbers below. -/
abbrev hpfpEvent : Nat := 12

/-- `{ pinTurnOn, this }`. -/
def pinTurnOnAction : Action where
  callback := some 21

/-- `{ pinTurnOff, this }`. -/
def pinTurnOffAction : Action where
  callback := some 22

/-- The index in `findNextLobe`. -/
def nextLobe (lobes lobeIndex : Nat) : Nat :=
  let nextIndex := lobeIndex + 1
  if nextIndex ≥ lobes then nextIndex - lobes else nextIndex

structure HpfpController where
  running : Bool := false
  deadtime : ℚ := 0
  requestedPump : ℚ := 0
  lobeIndex : Fin 256 := 0
  noValve : Bool := false
  angleAboveMin : Bool := false
  isHpfpInactive : Bool := false
  diNextStart : ℚ := 0
  /-- The logical value of the output. -/
  hpfpValve : Bool := false
  /-- `m_event.scheduling`. -/
  scheduling : EventRecord := {}

namespace HpfpController

section Callbacks

variable (s : HpfpSettings) (port : Port) (r : HpfpReadings)

def findNextLobe (c : HpfpController) : Angle × HpfpController :=
  let lobes := s.hpfpCamLobes.val
  if lobes = 0 then (0, c)
  else
    let nextIndex := nextLobe lobes c.lobeIndex
    let vvt :=
      if s.hpfpCam ≠ 0 then r.getVVTPosition ((s.hpfpCam - 1) / 2 % 2) ((s.hpfpCam - 1) % 2) else 0
    (s.hpfpPeakPos + vvt + (nextIndex * 720 / lobes : Nat), { c with lobeIndex := .ofNat 256 nextIndex })

/-- With what it schedules by angle. -/
def scheduleNextCycle (c : HpfpController) : HpfpController × List Request :=
  let c := { c with noValve := !s.isInitialized }
  if c.noValve then ({ c with running := false }, [])
  else
    let (lobe, c) := c.findNextLobe s r
    let angleRequested := c.requestedPump
    let c := { c with angleAboveMin := angleRequested > s.hpfpMinAngle }
    if c.angleAboveMin then
      let c := { c with diNextStart := lobe - angleRequested - c.deadtime }
      (c, [⟨hpfpEvent, c.diNextStart, pinTurnOnAction⟩])
    else (c, [⟨hpfpEvent, lobe, pinTurnOffAction⟩])

def onFastCallback (c : HpfpController) : HpfpController × List Request :=
  let lobes := s.hpfpCamLobes.val
  let c := { c with
    isHpfpInactive :=
      r.rpm < rpmSpinningCutoff ∨ lobes = 0 ∨ s.hpfpPumpVolume = 0 ∨ s.isInitialized = false }
  if c.isHpfpInactive then ({ c with requestedPump := 0, deadtime := 0 }, [])
  -- Too few trigger teeth for this number of lobes.
  else if ¬ r.triggerSize > lobes * 6 then (c, [])
  else
    let c := { c with
      deadtime := r.deadtimeMs * r.rpm * (360 / 60 / 1000)
      requestedPump := r.pumpAngleFuel }
    if !c.running then scheduleNextCycle s r { c with running := true } else (c, [])

def pinTurnOn (c : HpfpController) : HpfpController :=
  let c := { c with hpfpValve := true }
  let (delayedTime, _) := scheduleByAngle port r.oneDegreeUs (some hpfpEvent) c.scheduling.momentX
    (c.deadtime + s.hpfpActivationAngle) pinTurnOffAction
  { c with scheduling := c.scheduling.schedule delayedTime pinTurnOffAction }

def pinTurnOff (c : HpfpController) : HpfpController × List Request :=
  scheduleNextCycle s r { c with hpfpValve := false }

/-- The executor takes what is on the record and runs it. -/
def execute (c : HpfpController) : HpfpController × List Request :=
  match c.scheduling.action with
  | none => (c, [])
  | some action =>
    let c := { c with scheduling := c.scheduling.cancel }
    if action = pinTurnOnAction then (c.pinTurnOn s port r, [])
    else if action = pinTurnOffAction then c.pinTurnOff s r
    else (c, [])

end Callbacks

variable (s : HpfpSettings) (port : Port)

/-- What is on the record may be run several times over, with what it schedules by time. -/
def executeEach (c : HpfpController) : List HpfpReadings → HpfpController × List Request
  | [] => (c, [])
  | r :: readings =>
    let (c, requests) := c.execute s port r
    let (c, later) := c.executeEach readings
    (c, requests ++ later)

/-- One hand-over of the angle queue. What is handed to the executor may make it run actions, of
which only those of the pump schedule by angle. -/
def serve (c : HpfpController) (h : HandOver) (oneDegreeUs : ℚ) (readings : List HpfpReadings) :
    HpfpController × List Request :=
  let (delayedTime, _) :=
    scheduleByAngle port oneDegreeUs (some hpfpEvent) h.edgeTimestamp h.angle h.action
  let c : HpfpController :=
    if h.event = hpfpEvent then
      { c with scheduling := c.scheduling.cancel.schedule delayedTime h.action }
    else c
  c.executeEach s port readings

/-- All hand-overs of one window, with the requests at each. -/
def serveAll (c : HpfpController) (oneDegreeUs : ℚ) (readings : Nat → List HpfpReadings) :
    Nat → List HandOver → HpfpController × List (List Request)
  | _, [] => (c, [])
  | n, h :: later =>
    let (c, requests) := c.serve s port h oneDegreeUs (readings n)
    let (c, rest) := c.serveAll oneDegreeUs readings (n + 1) later
    (c, requests :: rest)

end HpfpController

/-! ## With the angle queue -/

/-- The events on the list, for a list of at most so many. -/
def listed (t : TriggerScheduler) : Nat → Option Nat → List Nat
  | 0, _ => []
  | _ + 1, none => []
  | steps + 1, some e => e :: listed t steps (t.next e)

/-- The pump and the queue for events by angle. -/
structure HpfpSystem where
  settings : HpfpSettings
  controller : HpfpController := {}
  triggerScheduler : TriggerScheduler := { memory := fun _ => {} }

inductive HpfpStep where
  | onFastCallback (r : HpfpReadings)
  | configure (settings : HpfpSettings)
  /-- The window from one tooth to the next, with what is read whenever an action of the pump is
  run at one of the hand-overs. -/
  | onEnginePhase (rpm : ℚ) (phase : EnginePhaseInfo) (oneDegreeUs : ℚ)
    (readings : Nat → List HpfpReadings)
  /-- The executor runs what is on the record. -/
  | execute (r : HpfpReadings)
  /-- An element of the ignition is queued. -/
  | schedule (element : Fin hpfpEvent) (engineCycle angle : Angle) (action : Action)
  | setPhaseOffset (phaseOffset : Angle)

namespace HpfpSystem

/-- The events that wait for their angle. -/
def queued (s : HpfpSystem) : List Nat :=
  listed s.triggerScheduler queueLengthLimit s.triggerScheduler.angleBasedEventsHead

/-- What falls due in the window, in the order of the list. -/
def handOvers (s : HpfpSystem) (rpm : ℚ) (phase : EnginePhaseInfo) : List HandOver :=
  if rpm = 0 then []
  else
    let due := fun e => TriggerScheduler.shouldSchedule (s.triggerScheduler.memory e) phase
    (s.queued.filter due).map fun e =>
      let event := s.triggerScheduler.memory e
      ⟨e, phase.timestamp, TriggerScheduler.getAngleFromNow event phase, event.action⟩

/-- The controller after a callback, and its requests on the queue. -/
def settle (s : HpfpSystem) (engineCycle : Angle) (c : HpfpController × List Request) :
    Option HpfpSystem := do
  let triggerScheduler ← s.triggerScheduler.scheduleAll queueLengthLimit engineCycle c.2
  some { s with controller := c.1, triggerScheduler }

def step (port : Port) (s : HpfpSystem) : HpfpStep → Option HpfpSystem
  | .onFastCallback r => s.settle r.engineCycle (s.controller.onFastCallback s.settings r)
  | .configure settings => some { s with settings }
  | .onEnginePhase rpm phase oneDegreeUs readings => do
    let (controller, requests) :=
      s.controller.serveAll s.settings port oneDegreeUs readings 0 (s.handOvers rpm phase)
    let triggerScheduler ← s.triggerScheduler.onEnginePhase queueLengthLimit rpm phase
      fun n => requests.getD n []
    some { s with controller, triggerScheduler }
  | .execute r => s.settle r.engineCycle (s.controller.execute s.settings port r)
  | .schedule element engineCycle angle action => do
    let triggerScheduler ←
      s.triggerScheduler.schedule queueLengthLimit engineCycle ⟨element, angle, action⟩
    some { s with triggerScheduler }
  | .setPhaseOffset phaseOffset =>
    some { s with triggerScheduler := { s.triggerScheduler with phaseOffset } }

end HpfpSystem

end FomeFw.Injection
