import FomeFw.Can.SerialCan
import FomeFw.Containers.Mailbox
import Mathlib.Data.List.FinRange
import Mathlib.Logic.Function.Basic

/-! CAN frames for the user's script, `can_filter.cpp` and `lua_can_rx.cpp`. The CAN threads
copy a frame that some filter accepts into a buffer, with the callback of that filter; the
thread of the script takes it from there and calls back. -/
namespace FomeFw.Lua
open Can Containers

inductive CanBusIndex where
  | bus0 | bus1 | any
  deriving DecidableEq, Repr

structure CanRxFrame extends CanFrame where
  IDE : Bool
  SID : BitVec 11
  EID : BitVec 29

/-- `CAN_ID`. -/
def canId (frame : CanRxFrame) : BitVec 32 :=
  if frame.IDE then frame.EID.setWidth 32 else frame.SID.setWidth 32

/-- `NO_CALLBACK`. -/
abbrev noCallback : Int := -1

/-- `FILTER_SPECIFIC`. -/
abbrev filterSpecific : BitVec 32 := 0x1FFFFFFF

structure CanFilter where
  Id : BitVec 32
  Mask : BitVec 32
  Bus : CanBusIndex
  Callback : Int
  deriving DecidableEq

def CanFilter.accept (filter : CanFilter) (id : BitVec 32) : Bool := id &&& filter.Mask = filter.Id

abbrev maxFilterCount : Nat := 48

/-- The first `filterCount` of the `filters`. -/
structure CanFilters where
  filters : List CanFilter := []
  room : filters.length ≤ maxFilterCount := by simp

namespace CanFilters

def getFilterForId (c : CanFilters) (busIndex : CanBusIndex) (id : BitVec 32) : Option CanFilter :=
  c.filters.find? fun filter =>
    filter.accept id && (filter.Bus = .any || filter.Bus = busIndex)

/-- `none` where the source reports too many filters, and then writes past the array. -/
def addLuaCanRxFilter (c : CanFilters) (eid mask : BitVec 32) (bus : CanBusIndex)
    (callback : Int) : Option CanFilters :=
  if room : c.filters.length < maxFilterCount then
    some
      { filters := c.filters ++ [⟨eid, mask, bus, callback⟩]
        room := by
          rw [List.length_append]
          exact room }
  else none

end CanFilters

structure CanFrameData where
  BusIndex : CanBusIndex
  Callback : Int
  Frame : CanRxFrame

abbrev canFrameCount : Nat := 32

variable {api : MailboxApi (Fin canFrameCount) canFrameCount}

/-- The buffers lie in `canFrames`; the mailboxes hold pointers to them. -/
structure LuaCanRx (api : MailboxApi (Fin canFrameCount) canFrameCount) where
  canFilters : CanFilters := {}
  canFrames : Fin canFrameCount → CanFrameData := fun _ => ⟨.bus0, 0, ⟨⟨0, fun _ => 0⟩, false, 0, 0⟩⟩
  freeBuffers : api.Mailbox := api.empty
  filledBuffers : api.Mailbox := api.empty

namespace LuaCanRx

/-- The constructors, and `initLuaCanRx`. -/
def init (api : MailboxApi (Fin canFrameCount) canFrameCount) : LuaCanRx api where
  freeBuffers := api.postEach api.empty (List.finRange canFrameCount)

def resetLuaCanRx (c : LuaCanRx api) : LuaCanRx api := { c with canFilters := {} }

def processLuaCan (c : LuaCanRx api) (busIndex : CanBusIndex) (frame : CanRxFrame) : LuaCanRx api :=
  match c.canFilters.getFilterForId busIndex (canId frame) with
  | none => c
  | some filter =>
    match api.fetchI c.freeBuffers with
    | (none, freeBuffers) => { c with freeBuffers }
    | (some frameBuffer, freeBuffers) =>
      { c with
        freeBuffers
        canFrames := Function.update c.canFrames frameBuffer ⟨busIndex, filter.Callback, frame⟩
        filledBuffers := (api.postI c.filledBuffers frameBuffer).2 }

end LuaCanRx

/-- A call into the script; the callback is a reference in its registry, or `noCallback` for
its function `onCanRx`. -/
structure LuaCall where
  callback : Int
  bus : CanBusIndex
  id : BitVec 32
  dlc : Nat
  data : List UInt8

/-- Nothing is called where the script has no such function. -/
def handleCanFrame (isNil : Bool) (data : CanFrameData) : Option LuaCall :=
  if isNil then none
  else some
    { callback := data.Callback
      bus := data.BusIndex
      id := canId data.Frame
      dlc := data.Frame.DLC
      data := data.Frame.bytes 0 data.Frame.DLC }

/-- Where the thread of the script is: before `runOneLua`; in the script's text; looking for
frames; in a callback; in what follows in the loop; waiting for a reset after a failure. -/
inductive LuaPhase where
  | idle
  | loading
  | polling
  | calling (data : Fin canFrameCount)
  | ticking
  | failed
  deriving DecidableEq

/-- Whether code of the script is run. -/
def LuaPhase.runsScript : LuaPhase → Bool
  | .loading | .calling _ | .ticking => true
  | .idle | .polling | .failed => false

/-- A call, with the filters that the script had registered then. -/
structure Invocation where
  call : LuaCall
  registered : List CanFilter

structure LuaThread (api : MailboxApi (Fin canFrameCount) canFrameCount) where
  canRx : LuaCanRx api := .init api
  phase : LuaPhase := .idle
  needsReset : Bool := false
  /-- The filters that the loaded script has registered; no function reads them. -/
  registered : List CanFilter := []
  /-- The calls so far; no function reads them. -/
  invoked : List Invocation := []

/-- What comes from outside: frames, the console and what the script does. -/
inductive LuaEvent where
  | processLuaCan (busIndex : CanBusIndex) (frame : CanRxFrame)
  | luareset
  | runOneLua (started : Bool)
  | addLuaCanRxFilter (eid mask : BitVec 32) (bus : CanBusIndex) (callback : Int)
  | loadScript (ok : Bool)
  | doOneLuaCanRx (isNil : Bool)
  | returnFromCallback
  | tick
  | wait

namespace LuaThread

def resetLua (t : LuaThread api) : LuaThread api :=
  { t with
    canRx := t.canRx.resetLuaCanRx
    phase := .idle
    registered := [] }

/-- The loop of `runOneLua` from its condition on, or what follows it. -/
def loop (t : LuaThread api) : LuaThread api :=
  if t.needsReset then t.resetLua else { t with phase := .polling }

/-- The failed script is no longer loaded; its filters stay. -/
def loadScript (t : LuaThread api) (ok : Bool) : LuaThread api :=
  if ok then t.loop else { t with phase := .failed, registered := [] }

/-- The end of `doOneLuaCanRx`, with the condition of the loop around it. -/
def returnBuffer (t : LuaThread api) (data : Fin canFrameCount) : LuaThread api :=
  let (msg, freeBuffers) := api.postI t.canRx.freeBuffers data
  { t with
    canRx.freeBuffers := freeBuffers
    phase := if msg then .polling else .ticking }

def doOneLuaCanRx (t : LuaThread api) (isNil : Bool) : LuaThread api :=
  match api.fetchI t.canRx.filledBuffers with
  | (none, filledBuffers) => { t with canRx.filledBuffers := filledBuffers, phase := .ticking }
  | (some data, filledBuffers) =>
    let t := { t with canRx.filledBuffers := filledBuffers }
    match handleCanFrame isNil (t.canRx.canFrames data) with
    | none => t.returnBuffer data
    | some call =>
      { t with phase := .calling data, invoked := t.invoked ++ [⟨call, t.registered⟩] }

/-- A filter that the script registers. -/
def addLuaCanRxFilter (t : LuaThread api) (eid mask : BitVec 32) (bus : CanBusIndex)
    (callback : Int) : Option (LuaThread api) := do
  let canFilters ← t.canRx.canFilters.addLuaCanRxFilter eid mask bus callback
  some { t with
    canRx.canFilters := canFilters
    registered := t.registered ++ [⟨eid, mask, bus, callback⟩] }

/-- What the thread is not at does not happen. -/
def step (t : LuaThread api) : LuaEvent → Option (LuaThread api)
  | .processLuaCan busIndex frame => some { t with canRx := t.canRx.processLuaCan busIndex frame }
  | .luareset => some { t with needsReset := true }
  | .runOneLua started =>
    if t.phase = .idle then
      some { t with needsReset := false, phase := if started then .loading else .failed }
    else some t
  | .addLuaCanRxFilter eid mask bus callback =>
    if t.phase.runsScript then t.addLuaCanRxFilter eid mask bus callback else some t
  | .loadScript ok => if t.phase = .loading then some (t.loadScript ok) else some t
  | .doOneLuaCanRx isNil => if t.phase = .polling then some (t.doOneLuaCanRx isNil) else some t
  | .returnFromCallback =>
    match t.phase with
    | .calling data => some (t.returnBuffer data)
    | _ => some t
  | .tick => if t.phase = .ticking then some t.loop else some t
  | .wait => if t.phase = .failed ∧ t.needsReset then some { t with phase := .idle } else some t

end LuaThread

end FomeFw.Lua
