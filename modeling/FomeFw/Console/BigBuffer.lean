import FomeFw.Trigger.TriggerDecoder
import FomeFw.Containers.Mailbox

/-! The big buffer and who takes it: `big_buffer.cpp`, the tooth logger, the trigger scope
and the performance trace. A handle is a variable of its user; assigning to it swaps, and
what was in it before is released with the temporary. -/
namespace FomeFw.Console
open Containers Trigger

inductive BigBufferUser where
  | none | toothLogger | perfTrace | triggerScope
  deriving DecidableEq, Repr

/-- `BigBufferHandle`: the pointer is null or the one of the buffer. -/
structure BigBufferHandle where
  bufferPtr : Bool := false
  user : BigBufferUser := .none
  deriving DecidableEq, Repr

/-- `releaseBuffer`, whoever is the current user. -/
def releaseBuffer (_sCurrentUser : BigBufferUser) : BigBufferUser := .none

namespace BigBufferHandle

/-- The destructor. -/
def destroy (handle : BigBufferHandle) (sCurrentUser : BigBufferUser) : BigBufferUser :=
  if handle.bufferPtr then releaseBuffer sCurrentUser else sCurrentUser

/-- `operator=` from a temporary, and the end of the temporary. -/
def assign (handle other : BigBufferHandle) (sCurrentUser : BigBufferUser) :
    BigBufferHandle × BigBufferUser :=
  (other, handle.destroy sCurrentUser)

end BigBufferHandle

def getBigBuffer (user sCurrentUser : BigBufferUser) : BigBufferHandle × BigBufferUser :=
  if sCurrentUser ≠ .none then ({}, sCurrentUser) else ({ bufferPtr := true, user }, user)

/-- The static handle `handle` is assigned a new one for `user`. -/
def acquire (user : BigBufferUser) (handle : BigBufferHandle) (sCurrentUser : BigBufferUser) :
    BigBufferHandle × BigBufferUser :=
  let (other, sCurrentUser) := getBigBuffer user sCurrentUser
  handle.assign other sCurrentUser

theorem destroy_dead {handle : BigBufferHandle} (dead : handle.bufferPtr = false)
    (sCurrentUser : BigBufferUser) : handle.destroy sCurrentUser = sCurrentUser := by
  simp [BigBufferHandle.destroy, dead]

theorem destroy_live {handle : BigBufferHandle} (live : handle.bufferPtr = true)
    (sCurrentUser : BigBufferUser) : handle.destroy sCurrentUser = .none := by
  simp [BigBufferHandle.destroy, live, releaseBuffer]

theorem acquire_free (user : BigBufferUser) {handle : BigBufferHandle}
    (dead : handle.bufferPtr = false) :
    acquire user handle .none = ({ bufferPtr := true, user }, user) := by
  simp [acquire, getBigBuffer, BigBufferHandle.assign, destroy_dead dead]

theorem acquire_taken (user : BigBufferUser) (handle : BigBufferHandle)
    {sCurrentUser : BigBufferUser} (taken : sCurrentUser ≠ .none) :
    acquire user handle sCurrentUser = ({}, handle.destroy sCurrentUser) := by
  simp [acquire, getBigBuffer, BigBufferHandle.assign, taken]

/-- `Timer::hasElapsedSec`; the difference is looked at as an unsigned number of 32 bits. -/
def hasElapsedSec (lastReset nowNt : Int) (seconds : Int) : Bool :=
  let delta := nowNt - lastReset
  if delta ≥ 2 ^ 32 - 2 then true else delta % 2 ^ 32 > seconds * ntPerSecond

/-- `SWAP_UINT32`. -/
def swapUint32 (x : BitVec 32) : BitVec 32 :=
  x.extractLsb' 0 8 ++ x.extractLsb' 8 8 ++ x.extractLsb' 16 8 ++ x.extractLsb' 24 8

/-- `composite_logger_s`. -/
structure CompositeLogger where
  timestamp : BitVec 32 := 0
  priLevel : Bool := false
  cam1 : Bool := false
  cam2 : Bool := false
  cam3 : Bool := false
  cam4 : Bool := false
  trigger : Bool := false
  tdc : Bool := false
  sync : Bool := false
  deriving DecidableEq, Repr

/-- `toothLoggerEntriesPerBuffer`. -/
abbrev toothLoggerEntriesPerBuffer : Nat := 250

structure CompositeBuffer where
  buffer : Nat → CompositeLogger := fun _ => {}
  nextIdx : Nat := 0
  startTime : Int := -2 ^ 60

/-- When an edge is logged, and what else is read then. -/
structure LogInput where
  timestamp : Int
  nowNt : Int
  isEngineSnifferEnabled : Bool
  shaftSynchronized : Bool

/-- The statics of `tooth_logger.cpp`. A buffer is named by its place in the big buffer, and
`memory` is what is there; `buffers` tells whether the pointer is set. -/
structure ToothLogger {bufferCount : Nat} (api : MailboxApi (Fin bufferCount) bufferCount) where
  toothLoggerEnabled : Bool := false
  lastEdgeTimestamp : Nat := 0
  wasSecondary : Bool := false
  currentTrigger1 : Bool := false
  camStates : Nat → Bool := fun _ => false
  currentTdc : Bool := false
  buffers : Bool := false
  memory : Fin bufferCount → CompositeBuffer := fun _ => {}
  freeBuffers : api.Mailbox := api.empty
  filledBuffers : api.Mailbox := api.empty
  currentBuffer : Option (Fin bufferCount) := none
  bufferHandle : BigBufferHandle := {}
  toothLogReady : Bool := false
  firmwareErrors : List String := []

namespace ToothLogger

variable {bufferCount : Nat} {api : MailboxApi (Fin bufferCount) bufferCount}

/-- `EnableToothLogger` once it has the big buffer. -/
def start (t : ToothLogger api) (nowUs : Nat) : ToothLogger api :=
  { t with
    buffers := true
    memory := fun i => { t.memory i with nextIdx := 0 }
    currentBuffer := none
    filledBuffers := api.drain t.filledBuffers (bufferCount + 1)
    freeBuffers := api.postEach t.freeBuffers (List.finRange bufferCount)
    lastEdgeTimestamp := nowUs
    toothLoggerEnabled := true
    toothLogReady := false }

def enableToothLogger (t : ToothLogger api) (nowUs : Nat) (sCurrentUser : BigBufferUser) :
    ToothLogger api × BigBufferUser :=
  let (bufferHandle, sCurrentUser) := acquire .toothLogger t.bufferHandle sCurrentUser
  let t := { t with bufferHandle }
  (if !bufferHandle.bufferPtr then t else t.start nowUs, sCurrentUser)

theorem enableToothLogger_free {t : ToothLogger api} (dead : t.bufferHandle.bufferPtr = false)
    (nowUs : Nat) : t.enableToothLogger nowUs .none =
      ({ t with bufferHandle := { bufferPtr := true, user := .toothLogger } }.start nowUs,
        .toothLogger) := by
  simp [enableToothLogger, acquire_free .toothLogger dead]

theorem enableToothLogger_starts (t : ToothLogger api) (nowUs : Nat) :
    (t.enableToothLogger nowUs .none).1 =
      { t with bufferHandle := { bufferPtr := true, user := .toothLogger } }.start nowUs := by
  simp [enableToothLogger, acquire, getBigBuffer, BigBufferHandle.assign]

theorem enableToothLogger_taken (t : ToothLogger api) (nowUs : Nat) {sCurrentUser : BigBufferUser}
    (taken : sCurrentUser ≠ .none) : t.enableToothLogger nowUs sCurrentUser =
      ({ t with bufferHandle := {} }, t.bufferHandle.destroy sCurrentUser) := by
  simp [enableToothLogger, acquire_taken .toothLogger _ taken]

def disableToothLogger (t : ToothLogger api) (sCurrentUser : BigBufferUser) :
    ToothLogger api × BigBufferUser :=
  let (bufferHandle, sCurrentUser) := t.bufferHandle.assign {} sCurrentUser
  ({ t with bufferHandle, buffers := false, toothLoggerEnabled := false, toothLogReady := false },
    sCurrentUser)

/-- `GetToothLoggerBufferNonblocking`, and the blocking one where it does not wait. -/
def getToothLoggerBuffer (t : ToothLogger api) : ToothLogger api × Option (Fin bufferCount) :=
  match api.fetchI t.filledBuffers with
  | (none, filledBuffers) => ({ t with filledBuffers, toothLogReady := false }, none)
  | (some buffer, filledBuffers) => ({ t with filledBuffers }, some buffer)

def returnToothLoggerBuffer (t : ToothLogger api) (buffer : Fin bufferCount) : ToothLogger api :=
  let (ok, freeBuffers) := api.postI t.freeBuffers buffer
  let t := { t with freeBuffers }
  if !ok then
    { t with firmwareErrors := t.firmwareErrors ++ ["Composite logger post to free buffer fail"] }
  else if api.getUsedCountI t.filledBuffers = 0 then { t with toothLogReady := false }
  else t

def findBuffer (t : ToothLogger api) (timestamp : Int) :
    ToothLogger api × Option (Fin bufferCount) :=
  match t.currentBuffer with
  | some buffer => (t, some buffer)
  | none =>
    match api.fetchI t.freeBuffers with
    | (none, freeBuffers) => ({ t with freeBuffers }, none)
    | (some buffer, freeBuffers) =>
      let b := { t.memory buffer with startTime := timestamp, nextIdx := 0 }
      let memory := Function.update t.memory buffer b
      ({ t with freeBuffers, memory, currentBuffer := some buffer }, some buffer)

/-- The entry of an edge. -/
def entry (t : ToothLogger api) (timestamp : Int) (shaftSynchronized : Bool) : CompositeLogger where
  timestamp := swapUint32 (BitVec.ofInt 32 (timestamp / usToNt))
  priLevel := t.currentTrigger1
  cam1 := t.camStates 0
  cam2 := t.camStates 1
  cam3 := t.camStates 2
  cam4 := t.camStates 3
  trigger := t.wasSecondary
  tdc := t.currentTdc
  sync := shaftSynchronized

/-- The entry is stored, as long as there is a place for it. -/
def store (t : ToothLogger api) (buffer : Fin bufferCount) (e : CompositeLogger) :
    ToothLogger api :=
  let b := t.memory buffer
  let entries := if b.nextIdx < toothLoggerEntriesPerBuffer then Function.update b.buffer b.nextIdx e
    else b.buffer
  let b := { b with nextIdx := b.nextIdx + 1, buffer := entries }
  { t with memory := Function.update t.memory buffer b }

/-- The buffer goes to the readers when it is full, or five seconds old. -/
def cycle (t : ToothLogger api) (buffer : Fin bufferCount) (nowNt : Int) : ToothLogger api :=
  let bufferFull := toothLoggerEntriesPerBuffer ≤ (t.memory buffer).nextIdx
  let bufferTimedOut := hasElapsedSec (t.memory buffer).startTime nowNt 5
  if bufferFull ∨ bufferTimedOut = true then
    { t with
      filledBuffers := (api.postI t.filledBuffers buffer).2
      currentBuffer := none
      toothLogReady := true }
  else t

def setNextCompositeEntry (t : ToothLogger api) (timestamp : Int) (input : LogInput) :
    ToothLogger api :=
  match t.findBuffer timestamp with
  | (t, none) => t
  | (t, some buffer) =>
    (t.store buffer (t.entry timestamp input.shaftSynchronized)).cycle buffer input.nowNt

def logTriggerTooth (t : ToothLogger api) (input : LogInput) : ToothLogger api :=
  if !t.toothLoggerEnabled then t
  else if !input.isEngineSnifferEnabled then t
  else t.setNextCompositeEntry input.timestamp input

def logPrimaryTriggerTooth (t : ToothLogger api) (input : LogInput) (state : Bool) :
    ToothLogger api :=
  { t with wasSecondary := false, currentTrigger1 := state }.logTriggerTooth input

def logCamTriggerTooth (t : ToothLogger api) (input : LogInput) (camIndex : Nat) (state : Bool) :
    ToothLogger api :=
  { t with
    wasSecondary := true
    camStates := Function.update t.camStates camIndex state }.logTriggerTooth input

def logTriggerTopDeadCenter (t : ToothLogger api) (input : LogInput) : ToothLogger api :=
  if !t.toothLoggerEnabled then t
  else
    let t := { t with currentTdc := true }.setNextCompositeEntry input.timestamp input
    { t with currentTdc := false }.setNextCompositeEntry (input.timestamp + 10) input

end ToothLogger

/-- What `startSampling` looks at: the converter can start, and software knock wants it. -/
structure ScopeInput where
  adcReady : Bool
  enableSoftwareKnock : Bool

/-- The statics of `trigger_scope.cpp`; `restartTimer` tells whether it is scheduled. The
converter itself is left out. -/
structure TriggerScope where
  buffer : BigBufferHandle := {}
  isRunning : Bool := false
  triggerScopeReady : Bool := false
  restartTimer : Bool := false
  deriving DecidableEq

namespace TriggerScope

def triggerScopeDisable (s : TriggerScope) (sCurrentUser : BigBufferUser) :
    TriggerScope × BigBufferUser :=
  let (buffer, sCurrentUser) := s.buffer.assign {} sCurrentUser
  ({ s with buffer, isRunning := false, triggerScopeReady := false }, sCurrentUser)

/-- Up to the start of the conversion. -/
def startSampling (s : TriggerScope) (input : ScopeInput) (sCurrentUser : BigBufferUser) :
    TriggerScope × BigBufferUser :=
  if s.buffer.bufferPtr && !input.enableSoftwareKnock then
    if !input.adcReady then s.triggerScopeDisable sCurrentUser else (s, sCurrentUser)
  else (s, sCurrentUser)

def triggerScopeEnable (s : TriggerScope) (input : ScopeInput) (sCurrentUser : BigBufferUser) :
    TriggerScope × BigBufferUser :=
  let (buffer, sCurrentUser) := acquire .triggerScope s.buffer sCurrentUser
  { s with buffer, isRunning := true }.startSampling input sCurrentUser

def triggerScopeGetBuffer (s : TriggerScope) : TriggerScope × BigBufferHandle :=
  let s := { s with triggerScopeReady := false }
  (if s.isRunning then { s with restartTimer := true } else s, s.buffer)

/-- The timer runs `startSampling`. -/
def restart (s : TriggerScope) (input : ScopeInput) (sCurrentUser : BigBufferUser) :
    TriggerScope × BigBufferUser :=
  if s.restartTimer then { s with restartTimer := false }.startSampling input sCurrentUser
  else (s, sCurrentUser)

/-- `completionCallback`, with the converter complete. -/
def complete (s : TriggerScope) : TriggerScope :=
  if s.isRunning then { s with triggerScopeReady := true } else s

end TriggerScope

/-- The handle of `perf_trace.cpp`, and those it has moved out to its callers. -/
structure PerfTrace where
  traceBuffer : BigBufferHandle := {}
  isTracing : Bool := false
  handedOut : List BigBufferHandle := []
  deriving DecidableEq

namespace PerfTrace

def perfTraceEnable (p : PerfTrace) (sCurrentUser : BigBufferUser) : PerfTrace × BigBufferUser :=
  let (traceBuffer, sCurrentUser) := acquire .perfTrace p.traceBuffer sCurrentUser
  ({ p with traceBuffer, isTracing := true }, sCurrentUser)

def perfTraceGetBuffer (p : PerfTrace) : PerfTrace :=
  { traceBuffer := {}, isTracing := false, handedOut := p.traceBuffer :: p.handedOut }

/-- A caller is done with its handle. -/
def drop (p : PerfTrace) (i : Nat) (sCurrentUser : BigBufferUser) : PerfTrace × BigBufferUser :=
  match p.handedOut[i]? with
  | none => (p, sCurrentUser)
  | some handle => ({ p with handedOut := p.handedOut.eraseIdx i }, handle.destroy sCurrentUser)

end PerfTrace

end FomeFw.Console
