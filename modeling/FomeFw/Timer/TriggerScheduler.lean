import FomeFw.Timer.EventQueue
import FomeFw.Trigger.EnginePhase

/-! The list of angle-based events, `trigger_scheduler.cpp`. `onEnginePhase` detaches
the list, walks it, and puts what it kept back in front of what was scheduled
meanwhile. Handing an event to the executor may run actions; what these schedule is
given by the environment, for each hand-over. Loops take the number of rounds they
may make, and `none` stands for a loop without end or a null dereference. -/
namespace FomeFw.Timer
open Trigger

/-- `AngleBasedEvent`; its `scheduling` record belongs to the executor. -/
structure AngleBasedEvent where
  eventPhase : Angle := 0
  action : Action := {}
  nextToothEvent : Option Nat := none
  deriving DecidableEq

/-- A call of `schedule` made by an action. -/
structure Request where
  event : Nat
  angle : Angle
  action : Action
  deriving DecidableEq

/-- A `scheduleByAngle` call, made after cancelling what the event had pending. -/
structure HandOver where
  event : Nat
  edgeTimestamp : Tick
  angle : Angle
  action : Action
  deriving DecidableEq

/-- `QUEUE_LENGTH_LIMIT`. -/
abbrev queueLengthLimit : Nat := 1000

structure TriggerScheduler where
  memory : Nat → AngleBasedEvent
  angleBasedEventsHead : Option Nat := none
  /-- `tdcPosition + globalTriggerAngleOffset - m_phaseAdjustment`. -/
  phaseOffset : Angle := 0
  /-- Hand-overs of the latest `onEnginePhase`. -/
  handed : List HandOver := []
  firmwareErrors : List String := []
  warnings : List String := []

namespace TriggerScheduler

def modify (s : TriggerScheduler) (e : Nat) (f : AngleBasedEvent → AngleBasedEvent) :
    TriggerScheduler :=
  { s with memory := Function.update s.memory e (f (s.memory e)) }

def setNext (s : TriggerScheduler) (e : Nat) (target : Option Nat) : TriggerScheduler :=
  s.modify e ({ · with nextToothEvent := target })

def setHead (s : TriggerScheduler) (angleBasedEventsHead : Option Nat) : TriggerScheduler :=
  { s with angleBasedEventsHead }

def next (s : TriggerScheduler) (e : Nat) : Option Nat := (s.memory e).nextToothEvent

def firmwareError (s : TriggerScheduler) (message : String) : TriggerScheduler :=
  { s with firmwareErrors := s.firmwareErrors ++ [message] }

def warning (s : TriggerScheduler) (message : String) : TriggerScheduler :=
  { s with warnings := s.warnings ++ [message] }

/-- The number is how many elements the walk may still count. -/
def assertNotInList (s : TriggerScheduler) (element : Nat) :
    Nat → Option Nat → Bool × TriggerScheduler
  | _, none => (false, s)
  | 0, some _ => (false, s.firmwareError "Looped queue?")
  | counter + 1, some current =>
    if current = element then (true, s.warning "re-adding element into event_queue")
    else s.assertNotInList element counter (s.next current)

def findLast (s : TriggerScheduler) : Nat → Nat → Option Nat
  | 0, _ => none
  | steps + 1, e =>
    match s.next e with
    | none => some e
    | some following => s.findLast steps following

/-- `LL_APPEND2` on the attached list. -/
def append (s : TriggerScheduler) (steps : Nat) (e : Nat) : Option TriggerScheduler :=
  let s := s.setNext e none
  match s.angleBasedEventsHead with
  | none => some (s.setHead (some e))
  | some head => do
    let last ← s.findLast steps head
    some (s.setNext last (some e))

/-- `TrgPhase` of an engine angle, `toTrgPhase`. -/
def setAngle (s : TriggerScheduler) (engineCycle : Angle) (e : Nat) (angle : Angle) :
    TriggerScheduler :=
  s.modify e ({ · with eventPhase := wrapAngle engineCycle (angle + s.phaseOffset) })

def schedule (s : TriggerScheduler) (steps : Nat) (engineCycle : Angle) (request : Request) :
    Option TriggerScheduler :=
  let s := s.setAngle engineCycle request.event request.angle
  let s := s.modify request.event ({ · with action := request.action })
  match s.assertNotInList request.event queueLengthLimit s.angleBasedEventsHead with
  | (true, s) => some s
  | (false, s) => s.append steps request.event

def scheduleAll (s : TriggerScheduler) (steps : Nat) (engineCycle : Angle) :
    List Request → Option TriggerScheduler
  | [] => some s
  | request :: requests => do
    let s ← s.schedule steps engineCycle request
    s.scheduleAll steps engineCycle requests

def shouldSchedule (e : AngleBasedEvent) (phase : EnginePhaseInfo) : Bool :=
  isPhaseInRange e.eventPhase phase.currentTrgPhase phase.nextTrgPhase

def getAngleFromNow (e : AngleBasedEvent) (phase : EnginePhaseInfo) : Angle :=
  let angleOffset := e.eventPhase - phase.currentTrgPhase
  if angleOffset < 0 then angleOffset + phase.engineCycle else angleOffset

/-- The node in front of `del`, or the last one. -/
def findBefore (s : TriggerScheduler) (del : Nat) : Nat → Nat → Option Nat
  | 0, _ => none
  | steps + 1, e =>
    match s.next e with
    | none => some e
    | some following => if following = del then some e else s.findBefore del steps following

/-- `LL_DELETE2` on the list `keephead`. -/
def delete (s : TriggerScheduler) (steps : Nat) (keephead : Option Nat) (del : Nat) :
    Option (Option Nat × TriggerScheduler) :=
  match keephead with
  | none => none
  | some head =>
    if head = del then some (s.next head, s)
    else do
      let before ← s.findBefore del steps head
      match s.next before with
      | none => some (some head, s)
      | some _ => some (some head, s.setNext before (s.next del))

def handOver (s : TriggerScheduler) (phase : EnginePhaseInfo) (e : Nat) : TriggerScheduler :=
  let event := s.memory e
  { s with handed := s.handed ++
      [⟨e, phase.timestamp, getAngleFromNow event phase, event.action⟩] }

/-- The walk over the detached list; `scheduled` gives what the actions schedule that
run at the n-th hand-over. The result is the list that was kept and its tail. -/
def walk (limit : Nat) (phase : EnginePhaseInfo) (scheduled : Nat → List Request) :
    Nat → TriggerScheduler → Option Nat → Option Nat → Option Nat →
      Option (Option Nat × Option Nat × TriggerScheduler)
  | 0, _, _, _, _ => none
  | _ + 1, s, keephead, keeptail, none => some (keephead, keeptail, s)
  | steps + 1, s, keephead, keeptail, some current =>
    let tmp := s.next current
    if shouldSchedule (s.memory current) phase then do
      let (keephead, s) ← s.delete limit keephead current
      let requests := scheduled s.handed.length
      let s ← (s.handOver phase current).scheduleAll limit phase.engineCycle requests
      walk limit phase scheduled steps s keephead keeptail tmp
    else walk limit phase scheduled steps s keephead (some current) tmp

def onEnginePhase (s : TriggerScheduler) (steps : Nat) (rpm : ℚ) (phase : EnginePhaseInfo)
    (scheduled : Nat → List Request) : Option TriggerScheduler :=
  let s := { s with handed := [] }
  if rpm = 0 then some s
  else do
    let keephead := s.angleBasedEventsHead
    let (keephead, keeptail, s) ←
      walk steps phase scheduled steps (s.setHead none) keephead none keephead
    match keephead with
    | none => some s
    | some _ =>
      match keeptail with
      | none => none
      | some keeptail =>
        some ((s.setNext keeptail s.angleBasedEventsHead).setHead keephead)

end TriggerScheduler
end FomeFw.Timer
