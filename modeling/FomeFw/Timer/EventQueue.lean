import FomeFw.Lib.Chain

/-! The sorted queue of pending events, `event_queue.cpp`. Pointers are symbolic
references: a caller's own record or one of the 64 records of the queue's pool.
Memory, the list head and the free list are carried explicitly, and every loop
over `nextScheduling_s` takes the number of iterations it may make, so a
corrupted list shows up as `none` instead of a hang. -/
namespace FomeFw.Timer

/-- `efitick_t` and `efidur_t`: signed tick counts. -/
abbrev Tick := Int

/-- `action_s`: a callback, possibly the null pointer, and its argument. -/
structure Action where
  callback : Option Nat := none
  param : Nat := 0
  deriving DecidableEq, Repr

/-- `action_s::operator bool`. -/
def Action.isSet (action : Action) : Bool := action.callback.isSome

abbrev poolSize : Nat := 64

/-- A `scheduling_s *` that is not null. -/
inductive Ref where
  | owned (id : Nat)
  | pool (slot : Fin poolSize)
  deriving DecidableEq, Repr

/-- `scheduling_s`. -/
structure Scheduling where
  momentX : Tick := 0
  nextScheduling : Option Ref := none
  action : Action := {}
  deriving DecidableEq, Repr

structure EventQueue where
  memory : Ref → Scheduling
  head : Option Ref := none
  lateDelay : Tick
  freelist : Option Ref := none
  /-- Messages passed to `firmwareError`, oldest first. -/
  firmwareErrors : List String := []

namespace EventQueue

def modify (q : EventQueue) (r : Ref) (f : Scheduling → Scheduling) : EventQueue :=
  { q with memory := Function.update q.memory r (f (q.memory r)) }

def setHead (q : EventQueue) (head : Option Ref) : EventQueue := { q with head }

def setFreelist (q : EventQueue) (freelist : Option Ref) : EventQueue := { q with freelist }

/-- `r->nextScheduling_s = target`. -/
def setNext (q : EventQueue) (r : Ref) (target : Option Ref) : EventQueue :=
  q.modify r ({ · with nextScheduling := target })

/-- `r->momentX = momentX; r->action = action`. -/
def fill (q : EventQueue) (r : Ref) (momentX : Tick) (action : Action) : EventQueue :=
  q.modify r ({ · with momentX, action })

/-- `r->nextScheduling_s = nullptr; r->action = {}`. -/
def unschedule (q : EventQueue) (r : Ref) : EventQueue :=
  q.modify r ({ · with nextScheduling := none, action := {} })

def firmwareError (q : EventQueue) (message : String) : EventQueue :=
  { q with firmwareErrors := q.firmwareErrors ++ [message] }

/-- The successor function of the linked lists. -/
def next (q : EventQueue) (r : Ref) : Option Ref := (q.memory r).nextScheduling

/-- Only records of this queue's pool go back to the free list. -/
def tryReturnScheduling (q : EventQueue) (sched : Ref) : EventQueue :=
  match sched with
  | .pool _ => (q.setNext sched q.freelist).setFreelist (some sched)
  | .owned _ => q

/-- The constructor threads the whole pool onto the free list. -/
def construct (lateDelay : Tick) : EventQueue :=
  (List.finRange poolSize).foldl (fun q slot => q.tryReturnScheduling (.pool slot))
    { memory := fun _ => {}, lateDelay }

def getFreeScheduling (q : EventQueue) : Option Ref × EventQueue :=
  match q.freelist with
  | none => (none, q)
  | some retVal => (some retVal, (q.setFreelist (q.next retVal)).setNext retVal none)

/-- The linear search of `insertTask`: the last node before the insertion point. -/
def findInsertPosition (q : EventQueue) (timeX : Tick) : Nat → Ref → Option Ref
  | 0, _ => none
  | steps + 1, insertPosition =>
    match q.next insertPosition with
    | none => some insertPosition
    | some following =>
      if (q.memory following).momentX < timeX then q.findInsertPosition timeX steps following
      else some insertPosition

/-- `insertTask` once a record has been found for the event. -/
def insertScheduling (q : EventQueue) (steps : Nat) (scheduling : Ref) (timeX : Tick)
    (action : Action) : Option (Bool × EventQueue) :=
  if action.callback = none then some (false, q.firmwareError "NULL callback")
  else if (q.memory scheduling).action.isSet then some (false, q)
  else
    let q := q.fill scheduling timeX action
    match q.head with
    | none => some (true, (q.setNext scheduling none).setHead (some scheduling))
    | some head =>
      if timeX < (q.memory head).momentX then
        -- LL_PREPEND2
        some (true, (q.setNext scheduling (some head)).setHead (some scheduling))
      else do
        let insertPosition ← q.findInsertPosition timeX steps head
        let q := q.setNext scheduling (q.next insertPosition)
        some (false, q.setNext insertPosition (some scheduling))

/-- The result is whether the event became the head of the list. -/
def insertTask (q : EventQueue) (steps : Nat) (scheduling : Option Ref) (timeX : Tick)
    (action : Action) : Option (Bool × EventQueue) :=
  match scheduling with
  | some scheduling => q.insertScheduling steps scheduling timeX action
  | none =>
    match q.getFreeScheduling with
    | (none, q) => some (false, q)
    | (some scheduling, q) => q.insertScheduling steps scheduling timeX action

/-- The walk of `remove`: the node before the searched one, and what follows it. -/
def findElement (q : EventQueue) (scheduling : Ref) : Nat → Ref → Option (Ref × Option Ref)
  | 0, _ => none
  | steps + 1, prev =>
    match q.next prev with
    | none => some (prev, none)
    | some current =>
      if current = scheduling then some (prev, some current)
      else q.findElement scheduling steps current

def remove (q : EventQueue) (steps : Nat) (scheduling : Ref) : Option EventQueue :=
  if (q.memory scheduling).action.isSet = false then some q
  else
    match q.head with
    | none => some q
    | some head =>
      if scheduling = head then some ((q.setHead (q.next head)).unschedule scheduling)
      else do
        let (prev, current) ← q.findElement scheduling steps head
        match current with
        | none => some (q.firmwareError "EventQueue::remove didn't find element")
        | some current => some ((q.setNext prev (q.next current)).unschedule current)

/-- `none` is the `unexpected` value of an empty queue. -/
def getNextEventTime (q : EventQueue) (nowX : Tick) : Option Tick :=
  match q.head with
  | none => none
  | some head =>
    if (q.memory head).momentX ≤ nowX then some (nowX + q.lateDelay)
    else some (q.memory head).momentX

/-- `executeOne` up to the call of `action.execute()`, after which it only returns
true. `none` is the result false: no event, or none due yet. -/
def takeDue (q : EventQueue) (now : Tick) : Option (Action × EventQueue) :=
  match q.head with
  | none => none
  | some current =>
    if (q.memory current).momentX > now + q.lateDelay then none
    else
      let action := (q.memory current).action
      some (action, ((q.setHead (q.next current)).unschedule current).tryReturnScheduling current)

def clear (q : EventQueue) : Nat → Option EventQueue
  | 0 => none
  | steps + 1 =>
    match q.head with
    | none => some q
    | some x => clear (((q.setHead (q.next x)).unschedule x).modify x ({ · with momentX := 0 })) steps

/-- The check of `assertListIsSorted`, compiled into simulator and test builds. -/
def assertListIsSorted (q : EventQueue) : Nat → Option Ref → Option Bool
  | 0, _ => none
  | _ + 1, none => some true
  | steps + 1, some current =>
    match q.next current with
    | none => some true
    | some following =>
      if (q.memory current).momentX ≤ (q.memory following).momentX then
        q.assertListIsSorted steps (some following)
      else some false

end EventQueue
end FomeFw.Timer
