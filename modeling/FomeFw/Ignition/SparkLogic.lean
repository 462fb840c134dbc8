import FomeFw.Lib.Bits
import FomeFw.Timer.ScheduleByAngle

/-! Ignition: `spark_logic.cpp`. A coil is charged and fired by two events with records of
their own; firing may be queued by angle first, and is then guarded by an overdwell event on
the same record. Times and angles that other code computes are inputs, exact numbers. -/
namespace FomeFw.Ignition
open Timer Trigger

/-- `ignition_mode_e`. -/
inductive IgnitionMode where
  | oneCoil | individualCoils | wastedSpark | twoCoils
  deriving DecidableEq, Repr

/-- The configuration, which does not change while the engine runs. -/
structure EngineConfiguration where
  cylindersCount : Nat
  small : cylindersCount ≤ 12
  getCylinderNumberAtIndex : Nat → Nat
  enableTrailingSparks : Bool

/-- `IgnitionContext`, the argument of the callbacks. -/
structure IgnitionContext where
  outputsMask : BitVec 12 := 0
  eventIndex : BitVec 4 := 0xF
  sparksRemaining : BitVec 8 := 0
  isOverdwellProtect : Bool := false
  deriving DecidableEq, Repr

namespace IgnitionContext

/-- The union read as a pointer. -/
def pad (ctx : IgnitionContext) : Nat :=
  ctx.outputsMask.toNat + 2 ^ 12 * (ctx.eventIndex.toNat + 2 ^ 4 * (ctx.sparksRemaining.toNat +
    2 ^ 8 * ctx.isOverdwellProtect.toNat))

def ofPad (pad : Nat) : IgnitionContext where
  outputsMask := BitVec.ofNat 12 pad
  eventIndex := BitVec.ofNat 4 (pad / 2 ^ 12)
  sparksRemaining := BitVec.ofNat 8 (pad / 2 ^ 16)
  isOverdwellProtect := pad / 2 ^ 24 % 2 = 1

@[simp] theorem ofPad_pad (ctx : IgnitionContext) : ofPad ctx.pad = ctx := by
  obtain ⟨mask, index, sparks, overdwell⟩ := ctx
  have maskSmall := mask.isLt
  have indexSmall := index.isLt
  have sparksSmall := sparks.isLt
  have overdwellSmall : overdwell.toNat ≤ 1 := overdwell.toNat_le
  simp only [ofPad, pad, IgnitionContext.mk.injEq]
  refine ⟨BitVec.eq_of_toNat_eq ?_, BitVec.eq_of_toNat_eq ?_, BitVec.eq_of_toNat_eq ?_, ?_⟩
  · simp only [BitVec.toNat_ofNat]; omega
  · simp only [BitVec.toNat_ofNat]; omega
  · simp only [BitVec.toNat_ofNat]; omega
  · cases overdwell <;> simp <;> omega

end IgnitionContext

/-- `IgnitionEvent` without its scheduling records. A dwell that is not a number is `none`. -/
structure IgnitionEvent where
  sparkDwell : Option ℚ := some 0
  actualDwellTimer : Tick := -2 ^ 60
  dwellAngle : Angle := 0
  cylinderIndex : Nat := 0
  cylinderNumber : Nat := 0
  mIgnitionMode : IgnitionMode := .individualCoils

/-- The records of the elements: `sparkEvent.scheduling`, `dwellStartTimer`,
`trailingSparkCharge` and `trailingSparkFire`. -/
def sparkScheduling (element : Nat) : Nat := 4 * element
def dwellStartTimer (element : Nat) : Nat := 4 * element + 1
def trailingSparkCharge (element : Nat) : Nat := 4 * element + 2
def trailingSparkFire (element : Nat) : Nat := 4 * element + 3

abbrev turnSparkPinHighCallback : Nat := 1
abbrev fireSparkCallback : Nat := 2
abbrev chargeTrailingSparkCallback : Nat := 3
abbrev fireTrailingSparkCallback : Nat := 4

def ignitionAction (callback : Nat) (ctx : IgnitionContext) : Action where
  callback := some callback
  param := ctx.pad

/-- A callback for a trailing coil, which it gets a pointer to. -/
def trailingAction (callback : Nat) (coil : Nat) : Action where
  callback := some callback
  param := coil

structure SparkState where
  coils : Nat → Bool := fun _ => false
  trailingCoils : Nat → Bool := fun _ => false
  elements : Nat → IgnitionEvent := fun _ => {}
  isReady : Bool := false
  triggerScheduler : TriggerScheduler := { memory := fun _ => {} }

/-- What the code finds around it: `multispark`, `ignitionState`, the ignition mode and the
timing of each cylinder. A duration that is not a number is `none`. -/
structure EngineReadings where
  oneDegreeUs : ℚ
  engineCycle : Angle
  /-- `tdcPosition + globalTriggerAngleOffset - m_phaseAdjustment`. -/
  phaseOffset : Angle
  dwellAngle : Option Angle
  getDwell : Option ℚ
  calculateSparkAngle : Nat → Angle
  /-- Whether `getIgnitionTimingBtdc` is a number. -/
  timingKnown : Bool
  currentIgnitionMode : IgnitionMode
  useOddFireWastedSpark : Bool
  multisparkCount : Nat
  multisparkDelay : Tick
  multisparkDwell : Tick
  trailingSparkAngle : Angle

/-- `EnginePhaseInfo` with both spaces. -/
structure EnginePhase extends EnginePhaseInfo where
  currentEngPhase : Angle
  nextEngPhase : Angle

section Elements
variable (config : EngineConfiguration)

def getIgnitionPinForIndex (cylinderIndex : Nat) : IgnitionMode → Nat
  | .oneCoil => 0
  | .wastedSpark =>
    if config.cylindersCount = 1 then 0 else cylinderIndex % (config.cylindersCount / 2)
  | .individualCoils => cylinderIndex
  | .twoCoils => cylinderIndex % 2

def IgnitionEvent.calculateIgnitionOutputMask (event : IgnitionEvent) : Nat :=
  let index := getIgnitionPinForIndex config event.cylinderIndex event.mIgnitionMode
  let outputsMask := 1 <<< config.getCylinderNumberAtIndex index
  if event.mIgnitionMode = .wastedSpark then
    outputsMask ||| 1 <<< config.getCylinderNumberAtIndex (index + config.cylindersCount / 2)
  else outputsMask

def prepareCylinderIgnitionSchedule (r : EngineReadings) (dwellAngleDuration : Angle)
    (sparkDwell : Option ℚ) (event : IgnitionEvent) : IgnitionEvent :=
  let cylinderNumber := config.getCylinderNumberAtIndex event.cylinderIndex
  let ignitionMode :=
    if r.currentIgnitionMode = .wastedSpark ∧ r.useOddFireWastedSpark = true then .individualCoils
    else r.currentIgnitionMode
  { event with
    sparkDwell
    cylinderNumber
    mIgnitionMode := ignitionMode
    dwellAngle := wrapAngle r.engineCycle (r.calculateSparkAngle cylinderNumber - dwellAngleDuration) }

end Elements

/-- `getElapsedSeconds`, in milliseconds: whole microseconds of what fits in 32 bits. -/
def IgnitionEvent.actualDwellMs (port : Port) (event : IgnitionEvent) (nowNt : Tick) : ℚ :=
  let deltaNt := nowNt - event.actualDwellTimer
  if deltaNt < 0 then 0 else (min deltaNt 4294967294 / (port.usToNt : Int) : Int) / 1000

namespace SparkState

def modify (s : SparkState) (element : Nat) (f : IgnitionEvent → IgnitionEvent) : SparkState :=
  { s with elements := Function.update s.elements element (f (s.elements element)) }

/-- The mask as the `uint16_t` that the loops shift. -/
def setCoils (s : SparkState) (mask : BitVec 12) (level : Bool) : SparkState :=
  { s with
    coils := Bits.visit (fun idx coils => Function.update coils idx level) 16 mask.toNat 0 s.coils }

variable (config : EngineConfiguration) (port : Port) (r : EngineReadings)

def turnSparkPinHigh (s : SparkState) (nowNt : Tick) (ctx : IgnitionContext) :
    SparkState × List ExecutorCall :=
  let element := ctx.eventIndex.toNat
  let s := (s.setCoils ctx.outputsMask true).modify element ({ · with actualDwellTimer := nowNt })
  (s, if config.enableTrailingSparks then
      [(scheduleByAngle port r.oneDegreeUs (some (trailingSparkCharge element)) nowNt
        r.trailingSparkAngle
        (trailingAction chargeTrailingSparkCallback (s.elements element).cylinderNumber)).2]
    else [])

/-- In case of underdwell it comes back later. Knock sensing is left out. -/
def fireSparkAndPrepareNextSchedule (s : SparkState) (nowNt : Tick) (ctx : IgnitionContext) :
    SparkState × List ExecutorCall :=
  let element := ctx.eventIndex.toNat
  let event := s.elements element
  let actualDwellMs := event.actualDwellMs port nowNt
  let minDwell := event.sparkDwell.map (8 / 10 * ·)
  if !ctx.isOverdwellProtect && minDwell.any (actualDwellMs < ·) then
    let extraTimeUs := max ((minDwell.getD 0 - actualDwellMs) * 1000) 10
    let ctx := { ctx with sparksRemaining := 0 }
    (s, [.schedule "firing" (some (sparkScheduling element)) (nowNt + port.usf2nt extraTimeUs)
      (ignitionAction fireSparkCallback ctx)])
  else
    let s := s.setCoils ctx.outputsMask false
    match r.dwellAngle, r.getDwell with
    | some dwellAngleDuration, some sparkDwell =>
      if ctx.sparksRemaining.toNat > 0 && !ctx.isOverdwellProtect then
        let ctx := { ctx with sparksRemaining := ctx.sparksRemaining - 1 }
        let nextDwellStart := nowNt + r.multisparkDelay
        let nextFiring := nextDwellStart + r.multisparkDwell
        (s, [.schedule "dwell" (some (dwellStartTimer element)) nextDwellStart
            (ignitionAction turnSparkPinHighCallback ctx),
          .schedule "firing" (some (sparkScheduling element)) nextFiring
            (ignitionAction fireSparkCallback ctx)])
      else
        (s.modify element (prepareCylinderIgnitionSchedule config r dwellAngleDuration sparkDwell),
          if config.enableTrailingSparks && !ctx.isOverdwellProtect then
            [(scheduleByAngle port r.oneDegreeUs (some (trailingSparkFire element)) nowNt
              r.trailingSparkAngle
              (trailingAction fireTrailingSparkCallback event.cylinderNumber)).2]
          else [])
    | _, _ => (s, [])

/-- The calls of `scheduleSparkEvent`, and what it queues by angle. -/
def scheduleSparkEvent (s : SparkState) (steps : Nat) (limitedSpark : Bool) (element : Nat)
    (dwellMs : ℚ) (dwellAngle sparkAngle : Angle) (phase : EnginePhase) :
    Option (SparkState × List ExecutorCall) := do
  let event := s.elements element
  let angleOffset := dwellAngle - phase.currentEngPhase
  let angleOffset := if angleOffset < 0 then angleOffset + phase.engineCycle else angleOffset
  let ctx : IgnitionContext := {
    outputsMask := BitVec.ofNat 12 (event.calculateIgnitionOutputMask config)
    eventIndex := BitVec.ofNat 4 event.cylinderIndex
    sparksRemaining := if limitedSpark then 0 else BitVec.ofNat 8 r.multisparkCount }
  let (chargeTime, charge) := scheduleByAngle port r.oneDegreeUs (some (dwellStartTimer element))
    phase.timestamp angleOffset (ignitionAction turnSparkPinHighCallback ctx)
  let (triggerScheduler, scheduled) ←
    { s.triggerScheduler with phaseOffset := r.phaseOffset }.scheduleOrQueue port r.oneDegreeUs
      sparkScheduling steps ⟨element, assertAngleRange sparkAngle, ignitionAction fireSparkCallback ctx⟩
      phase.toEnginePhaseInfo
  let overdwell := .schedule "overdwell" (some (sparkScheduling element))
    (chargeTime + port.usf2nt (3 / 2 * dwellMs * 1000))
    (ignitionAction fireSparkCallback { ctx with isOverdwellProtect := true })
  some ({ s with triggerScheduler },
    if limitedSpark then scheduled.toList else [charge, scheduled.getD overdwell])

def initializeIgnitionActions (s : SparkState) : SparkState :=
  match r.dwellAngle with
  | some dwellAngle =>
    if r.timingKnown && 0 < config.cylindersCount then
      { s with
        isReady := true
        elements := fun element =>
          if element < config.cylindersCount then
            prepareCylinderIgnitionSchedule config r dwellAngle r.getDwell
              { s.elements element with cylinderIndex := element }
          else s.elements element }
    else { s with isReady := false }
  | none => { s with isReady := false }

/-- The dwell angle at which an element is due, and how much later than usual it fires. -/
def dueAngles (s : SparkState) (element : Nat) (phase : EnginePhase) : Option (Angle × Angle) :=
  let dwellAngle := (s.elements element).dwellAngle
  let wastedEvent := if dwellAngle + 360 > 720 then dwellAngle + 360 - 720 else dwellAngle + 360
  if r.useOddFireWastedSpark = true ∧ r.currentIgnitionMode = .wastedSpark ∧
      isPhaseInRange wastedEvent phase.currentEngPhase phase.nextEngPhase = true then
    some (wastedEvent, 360)
  else if isPhaseInRange dwellAngle phase.currentEngPhase phase.nextEngPhase then
    some (dwellAngle, 0)
  else none

/-- One round of the loop in `onTriggerEventSparkLogic`, for one element. -/
def onTriggerEventSparkLogic (s : SparkState) (steps : Nat) (isIgnitionEnabled limitedSpark
    shouldSkip : Bool) (element : Nat) (phase : EnginePhase) :
    Option (SparkState × List ExecutorCall) :=
  match r.getDwell, s.dueAngles r element phase with
  | some dwellMs, some (dwellAngle, sparkAngleAdjust) =>
    if isIgnitionEnabled = false ∨ dwellMs ≤ 0 ∨ s.isReady = false ∨
      config.cylindersCount ≤ element ∨ shouldSkip = true then some (s, [])
    else
      let sparkAngle :=
        sparkAngleAdjust + r.calculateSparkAngle (s.elements element).cylinderNumber
      let sparkAngle := if sparkAngle > 720 then sparkAngle - 720 else sparkAngle
      s.scheduleSparkEvent config port r steps limitedSpark element dwellMs dwellAngle sparkAngle
        phase
  | _, _ => some (s, [])

/-- `TriggerScheduler::onEnginePhase`; firing schedules nothing by angle. -/
def onEnginePhase (s : SparkState) (steps : Nat) (rpm : ℚ) (phase : EnginePhase) :
    Option (SparkState × List ExecutorCall) := do
  let triggerScheduler ← s.triggerScheduler.onEnginePhase steps rpm phase.toEnginePhaseInfo
    fun _ => []
  some ({ s with triggerScheduler },
    triggerScheduler.handed.flatMap
      (TriggerScheduler.handOverCalls port r.oneDegreeUs sparkScheduling))

end SparkState

/-- What a tooth does to the ignition, piece by piece. -/
inductive SparkInput where
  | onEnginePhase (rpm : ℚ) (phase : EnginePhase) (r : EngineReadings)
  /-- The schedule is prepared when it is not ready. -/
  | prepareIgnitionSchedule (r : EngineReadings)
  | onTriggerEventSparkLogic (isIgnitionEnabled limitedSpark shouldSkip : Bool) (element : Nat)
    (phase : EnginePhase) (r : EngineReadings)
  /-- Other code asks for a new schedule. -/
  | invalidate

def isIgnition (action : Action) : Bool :=
  action.callback = some turnSparkPinHighCallback ∨ action.callback = some fireSparkCallback ∨
    action.callback = some chargeTrailingSparkCallback ∨
    action.callback = some fireTrailingSparkCallback

/-- A callback of the spark logic. -/
def runIgnition (config : EngineConfiguration) (port : Port) (r : EngineReadings) (nowNt : Tick)
    (action : Action) (s : SparkState) : SparkState × List ExecutorCall :=
  let ctx := IgnitionContext.ofPad action.param
  if action.callback = some turnSparkPinHighCallback then s.turnSparkPinHigh config port r nowNt ctx
  else if action.callback = some fireSparkCallback then
    s.fireSparkAndPrepareNextSchedule config port r nowNt ctx
  else if action.callback = some chargeTrailingSparkCallback then
    ({ s with trailingCoils := Function.update s.trailingCoils action.param true }, [])
  else if action.callback = some fireTrailingSparkCallback then
    ({ s with trailingCoils := Function.update s.trailingCoils action.param false }, [])
  else (s, [])

/-- The spark logic on the executor. -/
def sparkLogic (config : EngineConfiguration) (port : Port) :
    Client SparkState SparkInput EngineReadings where
  owns := isIgnition
  ownsRecord id := id < 48
  handle steps input _ s :=
    match input with
    | .onEnginePhase rpm phase r => s.onEnginePhase port r steps rpm phase
    | .prepareIgnitionSchedule r =>
      some (if s.isReady then s else s.initializeIgnitionActions config r, [])
    | .onTriggerEventSparkLogic isIgnitionEnabled limitedSpark shouldSkip element phase r =>
      s.onTriggerEventSparkLogic config port r steps isIgnitionEnabled limitedSpark shouldSkip
        element phase
    | .invalidate => some ({ s with isReady := false }, [])
  execute := runIgnition config port

end FomeFw.Ignition
