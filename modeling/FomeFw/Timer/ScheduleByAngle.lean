import FomeFw.Timer.Client
import FomeFw.Timer.TriggerScheduler

/-! From engine angles to moments: `scheduleByAngle` of `rpm_calculator.cpp`, and the part of
`trigger_scheduler.cpp` that calls it. The calls go to the executor one by one. -/
namespace FomeFw.Timer
open Trigger

/-- A float stored in an integer. -/
def truncate (value : ℚ) : Int := if 0 ≤ value then ⌊value⌋ else ⌈value⌉

/-- `USF2NT`, stored in an integer. -/
def Port.usf2nt (port : Port) (us : ℚ) : Tick := truncate (us * port.usToNt)

/-- The moment of the angle, and the call for it. -/
def scheduleByAngle (port : Port) (oneDegreeUs : ℚ) (timer : Option Nat) (edgeTimestamp : Tick)
    (angle : Angle) (action : Action) : Tick × ExecutorCall :=
  let delayedTime := edgeTimestamp + port.usf2nt (oneDegreeUs * angle)
  (delayedTime, .schedule "angle" timer delayedTime action)

namespace TriggerScheduler

/-- A call when the event is due in this window, otherwise it is queued for a later tooth.
The event's own scheduling record is named by `scheduling`. -/
def scheduleOrQueue (s : TriggerScheduler) (port : Port) (oneDegreeUs : ℚ)
    (scheduling : Nat → Nat) (steps : Nat) (request : Request) (phase : EnginePhaseInfo) :
    Option (TriggerScheduler × Option ExecutorCall) :=
  let event := (s.setAngle phase.engineCycle request.event request.angle).memory request.event
  if shouldSchedule event phase then
    some (s.setAngle phase.engineCycle request.event request.angle,
      some (scheduleByAngle port oneDegreeUs (some (scheduling request.event)) phase.timestamp
        (getAngleFromNow event phase) request.action).2)
  else do
    let s ← s.schedule steps phase.engineCycle request
    some (s, none)

/-- The calls of one hand-over: what overdwell protection scheduled is cancelled first. -/
def handOverCalls (port : Port) (oneDegreeUs : ℚ) (scheduling : Nat → Nat) (h : HandOver) :
    List ExecutorCall :=
  [.cancel (scheduling h.event),
    (scheduleByAngle port oneDegreeUs (some (scheduling h.event)) h.edgeTimestamp h.angle
      h.action).2]

end TriggerScheduler
end FomeFw.Timer
