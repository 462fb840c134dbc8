import FomeFw.Timer.EventQueue

/-! The executor of `single_timer_executor.cpp` over one hardware timer,
`microsecond_timer.cpp`, in builds with assertions. Code that a callback or the
clock can interleave with is cut at those points: `control` holds what is still
to be done, innermost first, and the clock may advance between any two steps. -/
namespace FomeFw.Timer

/-- The port's tick rate, `US_TO_NT_MULTIPLIER`. -/
structure Port where
  usToNt : Nat
  positive : 0 < usToNt

namespace Port

/-- The STM32 ticks four times a microsecond. -/
theorem four_positive : 0 < 4 := by decide

/-- `US2NT`. -/
def us2nt (port : Port) (us : Int) : Tick := us * port.usToNt

/-- `TOO_FAR_INTO_FUTURE_NT`, ten seconds. -/
def tooFarIntoFutureNt (port : Port) : Tick := port.us2nt 10000000

/-- The late delay of the executor's queue. -/
def lateDelay (port : Port) : Tick := port.us2nt 8

end Port

structure MicrosecondTimer where
  hwStarted : Bool
  /-- The compare value of the port's timer while its interrupt is outstanding. -/
  alarm : Option Tick := none
  isTimerPending : Bool := false
  lastSetTimerTimeNt : Tick := 0
  timerCallbackCounter : Nat := 0
  timerRestartCounter : Nat := 0
  timerFreezeCounter : Nat := 0
  setHwTimerCounter : Nat := 0

/-- What the executor has yet to do. -/
inductive Task where
  /-- The next round of the loop in `executeAllPendingActions`. -/
  | executeOne
  /-- A callback is running, called from that loop. -/
  | callback
  /-- The rest of `schedule` or `onTimerCallback`: arm the timer if asked to, and
  restore the lock. -/
  | finish (needToResetTimer : Bool) (wasLocked : Bool)
  deriving DecidableEq, Repr

structure SingleTimerExecutor where
  queue : EventQueue
  timer : MicrosecondTimer
  clock : Tick
  reentrantFlag : Bool := false
  locked : Bool := false
  control : List Task := []
  timerCallbackCounter : Nat := 0
  scheduleCounter : Nat := 0
  executeAllPendingActionsInvocationCounter : Nat := 0
  executeCounter : Int := 0
  maxExecuteCounter : Int := 0

/-- What happens around the executor. Calls come from outside or from the running
callback; the interrupt is only taken outside. -/
inductive ExecutorEvent where
  | schedule (msg : String) (scheduling : Option Nat) (nt : Tick) (action : Action)
  | cancel (scheduling : Ref)
  | onTimerCallback
  | callbackReturns
  /-- A callback leaves the critical section it was called in. -/
  | unlock
  | timePasses (ticks : Nat)
  /-- The executor does its next task. -/
  | proceed
  deriving DecidableEq, Repr

namespace SingleTimerExecutor

def construct (port : Port) (hwStarted : Bool) (clock : Tick) : SingleTimerExecutor where
  queue := .construct port.lateDelay
  timer := { hwStarted }
  clock

def firmwareError (e : SingleTimerExecutor) (message : String) : SingleTimerExecutor :=
  { e with queue := e.queue.firmwareError message }

def hasFirmwareError (e : SingleTimerExecutor) : Bool := !e.queue.firmwareErrors.isEmpty

/-- Counters of `setHardwareSchedulerTimer`; a moment in the past is only warned of. -/
def countSetTimer (e : SingleTimerExecutor) (timeDeltaNt : Tick) : SingleTimerExecutor :=
  { e with timer := { e.timer with
      setHwTimerCounter := e.timer.setHwTimerCounter + 1
      timerFreezeCounter := e.timer.timerFreezeCounter + if timeDeltaNt ≤ 0 then 1 else 0 } }

/-- The port takes over the compare value as it is. -/
def startTimer (e : SingleTimerExecutor) (setTimeNt : Tick) : SingleTimerExecutor :=
  { e with timer := { e.timer with
      alarm := some setTimeNt
      lastSetTimerTimeNt := e.clock
      isTimerPending := true
      timerRestartCounter := e.timer.timerRestartCounter + 1 } }

def setHardwareSchedulerTimer (port : Port) (e : SingleTimerExecutor) (nowNt setTimeNt : Tick) :
    SingleTimerExecutor :=
  if e.timer.hwStarted = false then e.firmwareError "HW.started"
  else
    let timeDeltaNt := setTimeNt - nowNt
    let e := e.countSetTimer timeDeltaNt
    if timeDeltaNt ≥ port.us2nt 2 ∧ timeDeltaNt ≥ port.tooFarIntoFutureNt then
      e.firmwareError ("setHardwareSchedulerTimer() too far: " ++ toString (min timeDeltaNt 4294967295))
    else if e.hasFirmwareError then e
    else e.startTimer (if timeDeltaNt < port.us2nt 2 then nowNt + port.us2nt 2 else setTimeNt)

def scheduleTimerCallback (port : Port) (e : SingleTimerExecutor) : SingleTimerExecutor :=
  let nowNt := e.clock
  match e.queue.getNextEventTime nowNt with
  | none => e
  | some nextEventTimeNt =>
    if nextEventTimeNt > nowNt then setHardwareSchedulerTimer port e nowNt nextEventTimeNt
    else e.firmwareError "setTimer constraint"

/-- `executeAllPendingActions` up to its loop. -/
def executeAllPendingActions (e : SingleTimerExecutor) (needToResetTimer : Bool) :
    SingleTimerExecutor :=
  { e with
    executeAllPendingActionsInvocationCounter := e.executeAllPendingActionsInvocationCounter + 1
    reentrantFlag := true
    executeCounter := -1
    locked := true
    control := .executeOne :: .finish needToResetTimer e.locked :: e.control }

def schedule (port : Port) (steps : Nat) (e : SingleTimerExecutor) (msg : String)
    (scheduling : Option Nat) (nt : Tick) (action : Action) : Option SingleTimerExecutor :=
  let deltaTimeNt := nt - e.clock
  if deltaTimeNt ≥ port.tooFarIntoFutureNt then
    some (e.firmwareError
      ("schedule() too far: " ++ toString (deltaTimeNt.bmod 4294967296) ++ " " ++ msg))
  else do
    let (needToResetTimer, queue) ← e.queue.insertTask steps (scheduling.map .owned) nt action
    let e := { e with queue, scheduleCounter := e.scheduleCounter + 1 }
    if e.reentrantFlag then some e else some (e.executeAllPendingActions needToResetTimer)

def cancel (steps : Nat) (e : SingleTimerExecutor) (scheduling : Ref) :
    Option SingleTimerExecutor := do
  let queue ← e.queue.remove steps scheduling
  some { e with queue }

/-- The interrupt: `portMicrosecondTimerCallback` and `onTimerCallback` up to its loop. -/
def onTimerCallback (e : SingleTimerExecutor) : SingleTimerExecutor :=
  { e with
    timer := { e.timer with
      alarm := none
      isTimerPending := false
      timerCallbackCounter := e.timer.timerCallbackCounter + 1 }
    timerCallbackCounter := e.timerCallbackCounter + 1 }.executeAllPendingActions true

/-- The end of a round of the loop. -/
def countRound (e : SingleTimerExecutor) : SingleTimerExecutor :=
  let stuck := e.executeCounter = 500
  let e := { e with executeCounter := e.executeCounter + 1 }
  if stuck then e.firmwareError "Maximum scheduling run length exceeded - CPU load too high" else e

/-- The end of `executeAllPendingActions`. -/
def leaveLoop (e : SingleTimerExecutor) : SingleTimerExecutor :=
  let e := { e with maxExecuteCounter := max e.maxExecuteCounter e.executeCounter }
  if e.locked then { e with reentrantFlag := false }
  else e.firmwareError "Someone has stolen my lock"

/-- One round of the loop. `executeOne` spins until the event's time has come and
calls the action; without a due event the loop is left. -/
def executeOne (e : SingleTimerExecutor) (control : List Task) : SingleTimerExecutor :=
  match e.queue.takeDue e.clock with
  | none => { e.countRound with control }.leaveLoop
  | some (_, queue) =>
    { e with
      queue
      clock := max e.clock ((e.queue.head.map fun r => (e.queue.memory r).momentX).getD e.clock)
      control := .callback :: control }

/-- The task in front of the control is done, or nothing if a callback is running. -/
def proceed (port : Port) (e : SingleTimerExecutor) : SingleTimerExecutor :=
  match e.control with
  | .executeOne :: control => e.executeOne control
  | .finish needToResetTimer wasLocked :: control =>
    let e := if needToResetTimer then scheduleTimerCallback port e else e
    { e with locked := wasLocked, control }
  | _ => e

/-- Calls are possible while no code of the executor is running. -/
def callable (e : SingleTimerExecutor) : Bool :=
  match e.control with
  | [] => true
  | .callback :: _ => true
  | _ => false

/-- One event; events that cannot happen in the current state are ignored. -/
def step (port : Port) (steps : Nat) (e : SingleTimerExecutor) :
    ExecutorEvent → Option SingleTimerExecutor
  | .schedule msg scheduling nt action =>
    if e.callable then e.schedule port steps msg scheduling nt action else some e
  | .cancel scheduling => if e.callable then e.cancel steps scheduling else some e
  | .onTimerCallback => some (if e.control = [] ∧ e.locked = false then e.onTimerCallback else e)
  | .callbackReturns =>
    match e.control with
    | .callback :: control => some { e.countRound with control := .executeOne :: control }
    | _ => some e
  | .unlock => if e.control.head? = some .callback then some { e with locked := false } else some e
  | .timePasses ticks => some { e with clock := e.clock + ticks }
  | .proceed => some (proceed port e)

/-- A pending event has an interrupt outstanding that comes no later than the event
or, when the event is already late, than the late delay from now. -/
def Guarded (port : Port) (e : SingleTimerExecutor) : Prop :=
  ∀ head, e.queue.head = some head → ∃ moment, e.timer.alarm = some moment ∧
    moment ≤ max (e.queue.memory head).momentX (e.clock + port.lateDelay)

end SingleTimerExecutor
end FomeFw.Timer
