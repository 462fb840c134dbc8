import FomeFw.Lib.Bits
import FomeFw.Timer.ScheduleByAngle

/-! Fuel injection: `fuel_schedule.cpp` and the injector outputs of `injection_gpio.cpp`.
Openings and closings are events of the executor's pool, each scheduled by itself. What
fuel calculation and configuration give is an input; amounts are exact numbers. -/
namespace FomeFw.Injection
open Timer Trigger

inductive InjectionMode where
  | simultaneous | sequential | batch | singlePoint
  deriving DecidableEq, Repr

/-- `InjectorContext`, the argument of the callbacks. -/
structure InjectorContext where
  outputsMask : BitVec 12 := 0
  eventIndex : BitVec 4 := 0xF
  splitDurationUs : BitVec 15 := 0
  stage2Active : Bool := false
  deriving DecidableEq, Repr

namespace InjectorContext

/-- The union read as a pointer. -/
def pad (ctx : InjectorContext) : Nat :=
  ctx.outputsMask.toNat + 2 ^ 12 * (ctx.eventIndex.toNat + 2 ^ 4 * (ctx.splitDurationUs.toNat +
    2 ^ 15 * ctx.stage2Active.toNat))

def ofPad (pad : Nat) : InjectorContext where
  outputsMask := BitVec.ofNat 12 pad
  eventIndex := BitVec.ofNat 4 (pad / 2 ^ 12)
  splitDurationUs := BitVec.ofNat 15 (pad / 2 ^ 16)
  stage2Active := pad / 2 ^ 31 % 2 = 1

@[simp] theorem ofPad_pad (ctx : InjectorContext) : ofPad ctx.pad = ctx := by
  obtain ⟨mask, index, split, stage2⟩ := ctx
  have maskSmall := mask.isLt
  have indexSmall := index.isLt
  have splitSmall := split.isLt
  have stage2Small : stage2.toNat ≤ 1 := stage2.toNat_le
  simp only [ofPad, pad, InjectorContext.mk.injEq]
  refine ⟨BitVec.eq_of_toNat_eq ?_, BitVec.eq_of_toNat_eq ?_, BitVec.eq_of_toNat_eq ?_, ?_⟩
  · simp only [BitVec.toNat_ofNat]; omega
  · simp only [BitVec.toNat_ofNat]; omega
  · simp only [BitVec.toNat_ofNat]; omega
  · cases stage2 <;> simp <;> omega

end InjectorContext

/-- `InjectorOutputPin`, and how often it was opened and closed. -/
structure InjectorOutputPin where
  overlappingCounter : Int := 0
  value : Bool := false
  opened : Nat := 0
  closed : Nat := 0

namespace InjectorOutputPin

/-- `open`; the counter is eight bits wide. -/
def openPin (pin : InjectorOutputPin) : InjectorOutputPin :=
  let pin := { pin with
    overlappingCounter := (pin.overlappingCounter + 1).bmod 256
    opened := pin.opened + 1 }
  if pin.overlappingCounter > 1 then pin else { pin with value := true }

/-- `close`. -/
def closePin (pin : InjectorOutputPin) : InjectorOutputPin :=
  let pin := { pin with
    overlappingCounter := (pin.overlappingCounter - 1).bmod 256
    closed := pin.closed + 1 }
  let pin := if pin.overlappingCounter > 0 then pin else { pin with value := false }
  if pin.overlappingCounter < 0 then { pin with overlappingCounter := 0 } else pin

end InjectorOutputPin

structure EnginePins where
  injectors : Nat → InjectorOutputPin := fun _ => {}
  injectorsStage2 : Nat → InjectorOutputPin := fun _ => {}

namespace EnginePins

def setInjector (pins : EnginePins) (idx : Nat) (f : InjectorOutputPin → InjectorOutputPin) :
    EnginePins :=
  { pins with injectors := Function.update pins.injectors idx (f (pins.injectors idx)) }

def setInjectorStage2 (pins : EnginePins) (idx : Nat)
    (f : InjectorOutputPin → InjectorOutputPin) : EnginePins :=
  { pins with
    injectorsStage2 := Function.update pins.injectorsStage2 idx (f (pins.injectorsStage2 idx)) }

end EnginePins

abbrev startInjectionCallback : Nat := 1
abbrev endInjectionCallback : Nat := 2
abbrev endInjectionStage2Callback : Nat := 3

def injectionAction (callback : Nat) (ctx : InjectorContext) : Action where
  callback := some callback
  param := ctx.pad

/-- The mask as the `uint16_t` that the loops shift. -/
def forOutputs (ctx : InjectorContext) (body : Nat → EnginePins → EnginePins) (pins : EnginePins) :
    EnginePins :=
  Bits.visit body 16 ctx.outputsMask.toNat 0 pins

def startInjection (ctx : InjectorContext) (pins : EnginePins) : EnginePins :=
  forOutputs ctx (fun idx pins =>
    let pins := pins.setInjector idx .openPin
    if ctx.stage2Active then pins.setInjectorStage2 idx .openPin else pins) pins

/-- `endInjection` up to the scheduling of a second pulse. What `update` changes for the next
cycle is an input of that cycle. -/
def closeInjectors (ctx : InjectorContext) (pins : EnginePins) : EnginePins :=
  forOutputs ctx (fun idx pins => pins.setInjector idx .closePin) pins

def endInjectionStage2 (ctx : InjectorContext) (pins : EnginePins) : EnginePins :=
  forOutputs ctx (fun idx pins => pins.setInjectorStage2 idx .closePin) pins

/-- The second pulse of a split injection. -/
def splitInjection (port : Port) (nowNt : Tick) (ctx : InjectorContext) : List ExecutorCall :=
  let openTime := nowNt + port.us2nt 2000
  let closeTime := openTime + port.us2nt ctx.splitDurationUs.toNat
  let ctx := { ctx with splitDurationUs := 0 }
  [.schedule "split inj" none openTime (injectionAction startInjectionCallback ctx),
    .schedule "split inj" none closeTime (injectionAction endInjectionCallback ctx)]

def endInjection (port : Port) (nowNt : Tick) (ctx : InjectorContext) (pins : EnginePins) :
    EnginePins × List ExecutorCall :=
  (closeInjectors ctx pins, if ctx.splitDurationUs.toNat > 0 then splitInjection port nowNt ctx
    else [])

/-- What `InjectionEvent::onTriggerTooth` reads. `none` as a duration is not a number. -/
structure TriggerTooth where
  timestamp : Tick
  currentEngPhase : Angle
  nextEngPhase : Angle
  engineCycle : Angle
  oneDegreeUs : ℚ
  injectionStartAngle : Angle
  ownIndex : Nat
  cylinderNumber : Nat
  injectionMode : InjectionMode
  cylindersCount : Nat
  getCylinderNumberAtIndex : Nat → Nat
  doSplitInjection : Bool
  cycleMassGrams : ℚ
  getInjectionModeDurationMultiplier : InjectionMode → ℚ
  adjustWallFuel : ℚ → ℚ
  injectionStage2Fraction : ℚ
  getInjectionDuration : ℚ → Option ℚ
  getInjectionDurationSecondary : ℚ → Option ℚ

namespace TriggerTooth

def calculateInjectorOutputMask (t : TriggerTooth) : Nat :=
  match t.injectionMode with
  | .simultaneous => 1 <<< t.cylindersCount - 1
  | .singlePoint => 1
  | .batch =>
    1 <<< t.getCylinderNumberAtIndex ((t.ownIndex + t.cylindersCount / 2) % t.cylindersCount) |||
      1 <<< t.cylinderNumber
  | .sequential => 1 <<< t.cylinderNumber

/-- The durations of both stages, in milliseconds. `isSimultaneous` is never set. -/
def durations (t : TriggerTooth) : Option ℚ × Option ℚ :=
  let injectionMassGrams :=
    t.adjustWallFuel (t.cycleMassGrams * t.getInjectionModeDurationMultiplier t.injectionMode)
  let stage2Fraction := if t.doSplitInjection then 0 else t.injectionStage2Fraction
  let injectionMassStage2 := stage2Fraction * injectionMassGrams
  let injectionMassStage1 := injectionMassGrams - injectionMassStage2
  let injectionMassStage1 :=
    if t.doSplitInjection then injectionMassStage1 / 2 else injectionMassStage1
  (t.getInjectionDuration injectionMassStage1,
    if injectionMassStage2 > 0 then t.getInjectionDurationSecondary injectionMassStage2 else some 0)

def context (t : TriggerTooth) (durationUsStage1 durationUsStage2 : ℚ) : InjectorContext where
  outputsMask := BitVec.ofNat 12 t.calculateInjectorOutputMask
  eventIndex := BitVec.ofNat 4 t.ownIndex
  splitDurationUs :=
    if t.doSplitInjection then BitVec.ofInt 15 (truncate durationUsStage1) else 0
  stage2Active := durationUsStage2 > 50

/-- The opening and its time. -/
def opening (port : Port) (t : TriggerTooth) (ctx : InjectorContext) : Tick × ExecutorCall :=
  let angleFromNow := t.injectionStartAngle - t.currentEngPhase
  let angleFromNow := if angleFromNow < 0 then angleFromNow + t.engineCycle else angleFromNow
  scheduleByAngle port t.oneDegreeUs none t.timestamp angleFromNow
    (injectionAction startInjectionCallback ctx)

def schedule (port : Port) (t : TriggerTooth) (durationUsStage1 durationUsStage2 : ℚ) :
    List ExecutorCall :=
  let ctx := t.context durationUsStage1 durationUsStage2
  let (startTime, opening) := t.opening port ctx
  let turnOffTimeStage1 := startTime + port.us2nt (truncate durationUsStage1)
  let turnOffTimeStage2 := startTime + port.us2nt (truncate durationUsStage2)
  opening :: .schedule "inj" none turnOffTimeStage1 (injectionAction endInjectionCallback ctx) ::
    if durationUsStage2 > 50 then
      [.schedule "inj stage 2" none turnOffTimeStage2
        (injectionAction endInjectionStage2Callback ctx)]
    else []

/-- `InjectionEvent::onTriggerTooth`: the calls it makes. -/
def onTriggerTooth (port : Port) (t : TriggerTooth) : List ExecutorCall :=
  if !isPhaseInRange t.injectionStartAngle t.currentEngPhase t.nextEngPhase then []
  else
    match t.durations with
    | (some injectionDurationStage1, some injectionDurationStage2) =>
      if injectionDurationStage1 < 0 then []
      else if injectionDurationStage1 < 50 / 1000 then []
      else t.schedule port (1000 * injectionDurationStage1) (1000 * injectionDurationStage2)
    | _ => []

end TriggerTooth

def isInjection (action : Action) : Bool :=
  action.callback = some startInjectionCallback ∨ action.callback = some endInjectionCallback ∨
    action.callback = some endInjectionStage2Callback

/-- A callback of the fuel schedule. -/
def runInjection (port : Port) (nowNt : Tick) (action : Action) (pins : EnginePins) :
    EnginePins × List ExecutorCall :=
  let ctx := InjectorContext.ofPad action.param
  if action.callback = some startInjectionCallback then (startInjection ctx pins, [])
  else if action.callback = some endInjectionCallback then endInjection port nowNt ctx pins
  else if action.callback = some endInjectionStage2Callback then (endInjectionStage2 ctx pins, [])
  else (pins, [])

/-- The fuel schedule on the executor. -/
def fuelSchedule (port : Port) : Client EnginePins TriggerTooth Unit where
  owns := isInjection
  ownsRecord _ := false
  handle _ tooth _ pins := some (pins, tooth.onTriggerTooth port)
  execute _ := runInjection port

end FomeFw.Injection
