import FomeFw.Engine.LambdaMonitor

/-! The modules that follow the key: `ignition_controller.cpp`, `main_relay.cpp`, `fuel_pump.cpp` and
`prime_injection.cpp`, called one after the other in the slow callback. The counter of key cycles is in
the backup RAM and outlives the controller. -/
namespace FomeFw.Engine
open Timer Trigger History

/-- What the modules read in a slow callback. Each asks the clock and the sensors for itself. -/
structure KeyReadings where
  benchNt : Int
  relayNt : Int
  relayVoltage : ℚ
  ignitionNt : Int
  ignitionVoltage : ℚ
  isStopped : Bool := true
  isCylinderCleanupEnabled : Bool := false
  tps1 : ℚ := 0
  primingDelay : ℚ := 0
  primeNt : Int
  ignOnNt : Int
  /-- The engine stands still, asked once more in the slow callback of the prime controller. -/
  isStoppedAfter : Bool := true
  engineMovedRecently : Bool := false
  startUpFuelPumpDuration : Int
  pumpNt : Int

structure IgnitionController where
  timeSinceIgnVoltage : Int := timerInit
  lastState : Bool := false
  deriving DecidableEq

/-- With the state that the other modules are told, if it changed. -/
def IgnitionController.onSlowCallback (c : IgnitionController) (r : KeyReadings) :
    IgnitionController × Option Bool :=
  let hasIgnVoltage : Bool := r.ignitionVoltage > 5
  let c := if hasIgnVoltage then { c with timeSinceIgnVoltage := r.ignitionNt } else c
  if hasIgnVoltage = c.lastState then (c, none)
  else if !hasIgnVoltage && !hasElapsedSec c.timeSinceIgnVoltage r.ignitionNt (1 / 5) then (c, none)
  else ({ c with lastState := hasIgnVoltage }, some hasIgnVoltage)

structure MainRelayController where
  benchTestTimer : Int := timerInit
  lastIgnitionTime : Int := timerInit
  mainRelayState : Bool := false
  deriving DecidableEq

/-- No other module asks for a delayed shutoff. -/
def MainRelayController.onSlowCallback (m : MainRelayController) (r : KeyReadings) : MainRelayController :=
  let isBenchTest := !hasElapsedSec m.benchTestTimer r.benchNt 1
  let hasIgnitionVoltage : Bool := r.relayVoltage > 5
  let m := if hasIgnitionVoltage then { m with lastIgnitionTime := r.relayNt } else m
  let delayedShutoffRequested := !hasElapsedSec m.lastIgnitionTime r.relayNt 1
  { m with mainRelayState := isBenchTest || hasIgnitionVoltage || delayedShutoffRequested }

structure FuelPumpController where
  ignOnTimer : Int := timerInit
  forceState : Bool := false
  isFuelPumpOn : Bool := false
  deriving DecidableEq

namespace FuelPumpController

def onSlowCallback (f : FuelPumpController) (r : KeyReadings) : FuelPumpController :=
  let timeSinceIgn := getElapsedSeconds f.ignOnTimer r.pumpNt
  let isPrime : Bool := timeSinceIgn ≥ 0 && timeSinceIgn < r.startUpFuelPumpDuration
  { f with isFuelPumpOn := isPrime || r.engineMovedRecently || f.forceState }

def onIgnitionStateChanged (f : FuelPumpController) (ignitionOn : Bool) (r : KeyReadings) :
    FuelPumpController :=
  if ignitionOn then { f with ignOnTimer := r.ignOnNt } else f

end FuelPumpController

/-- `IgnCounter` of the backup RAM, and the pulses that were scheduled, the latest first. -/
structure PrimeController where
  ignCounter : Nat
  primeStarts : List Int := []
  deriving DecidableEq

namespace PrimeController

/-- `CLEANUP_MODE_TPS`. -/
def cleanupModeTps : ℚ := 90

def isPrimeInjectionPulseSkipped (r : KeyReadings) : Bool :=
  if !r.isStopped then true else r.isCylinderCleanupEnabled && r.tps1 > cleanupModeTps

/-- `-1` is the greatest of `uint32_t`. -/
def onIgnitionStateChanged (p : PrimeController) (ignitionOn : Bool) (r : KeyReadings) : PrimeController :=
  if !ignitionOn then p
  else
    let ignSwitchCounter := if p.ignCounter > 10 then 0 else p.ignCounter
    let ignSwitchCounter := if isPrimeInjectionPulseSkipped r then 2 ^ 32 - 1 else ignSwitchCounter
    let primeDelayNt := ⌊(r.primingDelay * 1000 + 100) * 1000 * usToNt⌋
    { ignCounter := (ignSwitchCounter + 1) % 2 ^ 32
      primeStarts :=
        if ignSwitchCounter = 0 then (r.primeNt + primeDelayNt) :: p.primeStarts else p.primeStarts }

def onSlowCallback (p : PrimeController) (r : KeyReadings) : PrimeController :=
  if !r.isStoppedAfter then { p with ignCounter := 0 } else p

end PrimeController

structure KeySwitch where
  ignition : IgnitionController := {}
  mainRelay : MainRelayController := {}
  fuelPump : FuelPumpController := {}
  prime : PrimeController
  deriving DecidableEq

inductive KeyEvent where
  | slowCallback (r : KeyReadings)
  | benchTest (nowNt : Int)
  | forcePumpState (state : Bool)
  /-- The controller restarts, and with it its clock. Without the battery the backup RAM holds anything. -/
  | restart (backup : Option Nat)

namespace KeySwitch

/-- In the order of `engineModules`. -/
def slowCallback (k : KeySwitch) (r : KeyReadings) : KeySwitch :=
  let (ignition, changed) := k.ignition.onSlowCallback r
  let k := { k with mainRelay := k.mainRelay.onSlowCallback r, ignition }
  let k := match changed with
    | some ignitionOn => { k with
        prime := k.prime.onIgnitionStateChanged ignitionOn r
        fuelPump := k.fuelPump.onIgnitionStateChanged ignitionOn r }
    | none => k
  { k with prime := k.prime.onSlowCallback r, fuelPump := k.fuelPump.onSlowCallback r }

def step (k : KeySwitch) : KeyEvent → KeySwitch
  | .slowCallback r => k.slowCallback r
  | .benchTest nowNt => { k with mainRelay := { k.mainRelay with benchTestTimer := nowNt } }
  | .forcePumpState state => { k with fuelPump := { k.fuelPump with forceState := state } }
  | .restart backup => { prime := { ignCounter := backup.getD k.prime.ignCounter } }

end KeySwitch

/-! ## The outputs by the history -/

section Formulas

/-- When there was ignition voltage last, since the controller started. -/
def lastVoltage : List KeyEvent → Int
  | [] => timerInit
  | .slowCallback r :: past => if r.ignitionVoltage > 5 then r.ignitionNt else lastVoltage past
  | .restart _ :: _ => timerInit
  | _ :: past => lastVoltage past

/-- At the last callback the voltage had not been away for 0.2 seconds. -/
def ignitionOn : List KeyEvent → Bool
  | [] => false
  | .slowCallback r :: past => !hasElapsedSec (lastVoltage (.slowCallback r :: past)) r.ignitionNt (1 / 5)
  | .restart _ :: _ => false
  | _ :: past => ignitionOn past

def turnedOn (h : List KeyEvent) : Bool := ignitionOn h && !ignitionOn h.tail

def lastRelayVoltage : List KeyEvent → Int
  | [] => timerInit
  | .slowCallback r :: past => if r.relayVoltage > 5 then r.relayNt else lastRelayVoltage past
  | .restart _ :: _ => timerInit
  | _ :: past => lastRelayVoltage past

def lastBenchTest : List KeyEvent → Int
  | [] => timerInit
  | .benchTest nowNt :: _ => nowNt
  | .restart _ :: _ => timerInit
  | _ :: past => lastBenchTest past

/-- The relay is on for a second after a bench test, and after the last voltage. -/
def relayOn : List KeyEvent → Bool
  | [] => false
  | .slowCallback r :: past =>
    !hasElapsedSec (lastBenchTest past) r.benchNt 1 ||
      !hasElapsedSec (lastRelayVoltage (.slowCallback r :: past)) r.relayNt 1
  | .restart _ :: _ => false
  | _ :: past => relayOn past

def ignOnTime : List KeyEvent → Int
  | [] => timerInit
  | .slowCallback r :: past => if turnedOn (.slowCallback r :: past) then r.ignOnNt else ignOnTime past
  | .restart _ :: _ => timerInit
  | _ :: past => ignOnTime past

def forced : List KeyEvent → Bool
  | [] => false
  | .forcePumpState state :: _ => state
  | .restart _ :: _ => false
  | _ :: past => forced past

/-- The pump builds up pressure when the ignition was turned on, and runs with the engine. -/
def pumpOn : List KeyEvent → Bool
  | [] => false
  | .slowCallback r :: past =>
    getElapsedSeconds (ignOnTime (.slowCallback r :: past)) r.pumpNt < r.startUpFuelPumpDuration ||
      r.engineMovedRecently || forced past
  | .restart _ :: _ => false
  | _ :: past => pumpOn past

/-- How often the ignition was turned on and no engine has turned since; a pulse that is skipped begins
anew. -/
def keyOns (backup : Nat) : List KeyEvent → Nat
  | [] => if backup > 10 then 0 else backup
  | .slowCallback r :: past =>
    if !r.isStoppedAfter then 0
    else if turnedOn (.slowCallback r :: past) then
      if PrimeController.isPrimeInjectionPulseSkipped r then 0 else keyOns backup past + 1
    else keyOns backup past
  | .restart (some backup) :: _ => if backup > 10 then 0 else backup
  | _ :: past => keyOns backup past

/-- The first of eleven key cycles is primed. -/
def primed (backup : Nat) : List KeyEvent → Bool
  | .slowCallback r :: past => turnedOn (.slowCallback r :: past) &&
      !PrimeController.isPrimeInjectionPulseSkipped r && keyOns backup past % 11 = 0
  | _ => false

def pulses (backup : Nat) : List KeyEvent → List Int
  | [] => []
  | .slowCallback r :: past =>
    if primed backup (.slowCallback r :: past) then
      (r.primeNt + ⌊(r.primingDelay * 1000 + 100) * 1000 * usToNt⌋) :: pulses backup past
    else pulses backup past
  | .restart _ :: _ => []
  | _ :: past => pulses backup past

def latestTime : List KeyEvent → Int
  | [] => 0
  | .slowCallback r :: _ => r.pumpNt
  | .benchTest nowNt :: _ => nowNt
  | .forcePumpState _ :: past => latestTime past
  | .restart _ :: _ => 0

/-- The clock does not go back, except in a restart. -/
def InOrder : List KeyEvent → Prop
  | [] => True
  | .slowCallback r :: past => InOrder past ∧ latestTime past ≤ r.benchNt ∧ r.benchNt ≤ r.relayNt ∧
      r.relayNt ≤ r.ignitionNt ∧ r.ignitionNt ≤ r.primeNt ∧ r.primeNt ≤ r.ignOnNt ∧ r.ignOnNt ≤ r.pumpNt
  | .benchTest nowNt :: past => InOrder past ∧ latestTime past ≤ nowNt
  | _ :: past => InOrder past

end Formulas

section Runs

variable {h past : List KeyEvent} {r : KeyReadings} {a now later : Int} {seconds : ℚ} {backup : Nat}

theorem hasElapsedSec_later (begun : a ≤ now) (order : now ≤ later)
    (elapsed : hasElapsedSec a now seconds = true) : hasElapsedSec a later seconds = true := by
  have shifted : hasElapsedSec a later seconds = hasElapsedSec (a - (later - now)) now seconds := by
    have same : later - a = now - (a - (later - now)) := by omega
    rw [hasElapsedSec, hasElapsedSec, same]
  rw [shifted]
  exact hasElapsedSec_mono (by omega) begun elapsed

theorem hasElapsedSec_self (positive : 0 ≤ seconds) : hasElapsedSec a a seconds = false := by
  have short : ¬ a - a ≥ clock32max := by simp
  have none : (a - a) % 2 ^ 32 = 0 := by omega
  rw [hasElapsedSec, if_neg short, none, decide_eq_false_iff_not, not_lt]
  have ticks : (0 : ℚ) ≤ (usToNt : ℚ) := by decide
  positivity

theorem latestTime_nonneg (ordered : InOrder h) : 0 ≤ latestTime h := by
  induction h with
  | nil => exact le_rfl
  | cons e past ih =>
    cases e with
    | slowCallback r =>
      obtain ⟨before, order⟩ := ordered
      have start := ih before
      simp only [latestTime]
      omega
    | benchTest nowNt => exact (ih ordered.1).trans ordered.2
    | forcePumpState state => exact ih ordered
    | restart backup => exact le_rfl

theorem lastVoltage_le (ordered : InOrder h) : lastVoltage h ≤ latestTime h := by
  induction h with
  | nil => decide
  | cons e past ih =>
    cases e with
    | slowCallback r =>
      obtain ⟨before, order⟩ := ordered
      have start := ih before
      simp only [lastVoltage, latestTime]
      split <;> omega
    | benchTest nowNt => exact (ih ordered.1).trans ordered.2
    | forcePumpState state => exact ih ordered
    | restart backup => exact show timerInit ≤ 0 by decide

/-- Once the voltage has been away for long enough, it stays so until there is voltage again. -/
theorem off_elapsed (ordered : InOrder h) (off : ignitionOn h = false) (order : latestTime h ≤ now) :
    hasElapsedSec (lastVoltage h) now (1 / 5) = true := by
  have new (start : 0 ≤ now) : hasElapsedSec timerInit now (1 / 5) = true :=
    if_pos (show (2 : Int) ^ 32 - 2 ≤ now - -2 ^ 60 by omega)
  induction h with
  | nil => exact new order
  | cons e past ih =>
    cases e with
    | slowCallback r =>
      have voltage := lastVoltage_le ordered
      obtain ⟨before, times⟩ := ordered
      rw [ignitionOn, Bool.not_eq_false'] at off
      simp only [latestTime] at order
      refine hasElapsedSec_later ?_ (by omega) off
      have earlier := lastVoltage_le before
      rw [lastVoltage]
      split <;> omega
    | benchTest nowNt => exact ih ordered.1 off (ordered.2.trans order)
    | forcePumpState state => exact ih ordered off order
    | restart backup => exact new order

/-- The other modules are told when the state changed. -/
theorem ignition_follows (ordered : InOrder (.slowCallback r :: past)) :
    (⟨lastVoltage past, ignitionOn past⟩ : IgnitionController).onSlowCallback r =
      (⟨lastVoltage (.slowCallback r :: past), ignitionOn (.slowCallback r :: past)⟩,
        if ignitionOn (.slowCallback r :: past) = ignitionOn past then none
        else some (ignitionOn (.slowCallback r :: past))) := by
  rw [IgnitionController.onSlowCallback, ignitionOn, lastVoltage]
  by_cases voltage : r.ignitionVoltage > 5
  · have on : hasElapsedSec r.ignitionNt r.ignitionNt (1 / 5) = false := hasElapsedSec_self (by norm_num)
    simp only [voltage, decide_true, if_true, on, Bool.not_false]
    split <;> simp_all
  · simp only [voltage, decide_false, Bool.false_eq_true, if_false]
    cases was : ignitionOn past with
    | false =>
      obtain ⟨before, order⟩ := ordered
      have off := @off_elapsed past r.ignitionNt before was (by omega)
      rw [off]
      rfl
    | true => cases elapsed : hasElapsedSec (lastVoltage past) r.ignitionNt (1 / 5) <;> simp

theorem mainRelay_follows (r : KeyReadings) (past : List KeyEvent) :
    (⟨lastBenchTest past, lastRelayVoltage past, relayOn past⟩ : MainRelayController).onSlowCallback r =
      ⟨lastBenchTest (.slowCallback r :: past), lastRelayVoltage (.slowCallback r :: past),
        relayOn (.slowCallback r :: past)⟩ := by
  have bench : lastBenchTest (.slowCallback r :: past) = lastBenchTest past := rfl
  rw [MainRelayController.onSlowCallback, relayOn, lastRelayVoltage, bench]
  by_cases voltage : r.relayVoltage > 5
  · have on : hasElapsedSec r.relayNt r.relayNt 1 = false := hasElapsedSec_self (by norm_num)
    simp [voltage, on]
  · simp [voltage]

theorem getElapsedSeconds_nonneg (a now : Int) : 0 ≤ getElapsedSeconds a now := by
  rw [getElapsedSeconds]
  split
  · exact le_rfl
  · have ticks : (0 : Int) ≤ min (now - a) (2 ^ 32 - 2) / usToNt := Int.ediv_nonneg (by omega) (by decide)
    positivity

/-- The counter stands for the key cycles up to multiples of eleven; what the backup RAM held at first
may be anything. -/
def Counted (counter cycles : Nat) : Prop :=
  cycles = 0 ∧ (counter = 0 ∨ counter > 10) ∨ 0 < cycles ∧ counter = (cycles - 1) % 11 + 1

theorem Counted.reduced {counter cycles : Nat} (counted : Counted counter cycles) :
    (if counter > 10 then 0 else counter) = cycles % 11 := by
  rcases counted with ⟨rfl, rfl | garbage⟩ | ⟨some, rfl⟩
  · rfl
  · rw [if_pos garbage]
  · split <;> omega

theorem counted_backup (counter : Nat) : Counted counter (if counter > 10 then 0 else counter) := by
  rw [Counted]
  split <;> omega

theorem prime_turnedOn {p : PrimeController} {cycles : Nat} (counted : Counted p.ignCounter cycles) :
    p.onIgnitionStateChanged true r =
      { ignCounter := if PrimeController.isPrimeInjectionPulseSkipped r then 0 else cycles % 11 + 1
        primeStarts :=
          if !PrimeController.isPrimeInjectionPulseSkipped r && cycles % 11 = 0 then
            (r.primeNt + ⌊(r.primingDelay * 1000 + 100) * 1000 * usToNt⌋) :: p.primeStarts
          else p.primeStarts } := by
  rw [PrimeController.onIgnitionStateChanged]
  dsimp only
  rw [counted.reduced]
  have small : (cycles % 11 + 1) % 2 ^ 32 = cycles % 11 + 1 := by omega
  cases PrimeController.isPrimeInjectionPulseSkipped r
  · simp only [Bool.false_eq_true, if_false, small, Bool.not_false, Bool.not_true, Bool.true_and,
      decide_eq_true_eq]
  · simp

/-- The modules after a history. -/
structure Follows (backup : Nat) (k : KeySwitch) (h : List KeyEvent) : Prop where
  ignition : k.ignition = ⟨lastVoltage h, ignitionOn h⟩
  mainRelay : k.mainRelay = ⟨lastBenchTest h, lastRelayVoltage h, relayOn h⟩
  fuelPump : k.fuelPump = ⟨ignOnTime h, forced h, pumpOn h⟩
  counter : Counted k.prime.ignCounter (keyOns backup h)
  starts : k.prime.primeStarts = pulses backup h

theorem fuelPump_follows (r : KeyReadings) (past : List KeyEvent) {pump : FuelPumpController}
    (timer : pump.ignOnTimer = ignOnTime (.slowCallback r :: past)) (force : pump.forceState = forced past) :
    pump.onSlowCallback r = ⟨ignOnTime (.slowCallback r :: past), forced (.slowCallback r :: past),
      pumpOn (.slowCallback r :: past)⟩ := by
  obtain ⟨ignOnTimer, forceState, isFuelPumpOn⟩ := pump
  obtain rfl : ignOnTimer = _ := timer
  obtain rfl : forceState = _ := force
  have nonneg := getElapsedSeconds_nonneg (ignOnTime (.slowCallback r :: past)) r.pumpNt
  rw [FuelPumpController.onSlowCallback, pumpOn]
  simp only [nonneg, decide_true, Bool.true_and]
  rfl

section Prime

variable {p : PrimeController}

theorem prime_kept (off : turnedOn (.slowCallback r :: past) = false)
    (counted : Counted p.ignCounter (keyOns backup past)) (starts : p.primeStarts = pulses backup past) :
    Counted (p.onSlowCallback r).ignCounter (keyOns backup (.slowCallback r :: past)) ∧
      (p.onSlowCallback r).primeStarts = pulses backup (.slowCallback r :: past) := by
  have none : primed backup (.slowCallback r :: past) = false := by simp [primed, off]
  rw [PrimeController.onSlowCallback, keyOns, pulses, off, none]
  cases r.isStoppedAfter
  · exact ⟨.inl ⟨rfl, .inl rfl⟩, starts⟩
  · exact ⟨counted, starts⟩

theorem prime_told (on : turnedOn (.slowCallback r :: past) = true)
    (counted : Counted p.ignCounter (keyOns backup past)) (starts : p.primeStarts = pulses backup past) :
    Counted ((p.onIgnitionStateChanged true r).onSlowCallback r).ignCounter
        (keyOns backup (.slowCallback r :: past)) ∧
      ((p.onIgnitionStateChanged true r).onSlowCallback r).primeStarts =
        pulses backup (.slowCallback r :: past) := by
  rw [prime_turnedOn counted, PrimeController.onSlowCallback, keyOns, pulses, primed, on, ← starts]
  constructor
  · cases r.isStoppedAfter
    · exact .inl ⟨rfl, .inl rfl⟩
    cases PrimeController.isPrimeInjectionPulseSkipped r
    · refine .inr ⟨Nat.succ_pos _, ?_⟩
      simp
    · exact .inl ⟨rfl, .inl rfl⟩
  · cases r.isStoppedAfter <;> simp

end Prime

section Told

variable {k : KeySwitch}

theorem turnedOn_cons (e : KeyEvent) (past : List KeyEvent) :
    turnedOn (e :: past) = (ignitionOn (e :: past) && !ignitionOn past) := rfl

theorem slowCallback_turnedOn (ordered : InOrder (.slowCallback r :: past))
    (ignition : k.ignition = ⟨lastVoltage past, ignitionOn past⟩)
    (on : turnedOn (.slowCallback r :: past) = true) :
    k.slowCallback r =
      { ignition := ⟨lastVoltage (.slowCallback r :: past), ignitionOn (.slowCallback r :: past)⟩
        mainRelay := k.mainRelay.onSlowCallback r
        fuelPump := (k.fuelPump.onIgnitionStateChanged true r).onSlowCallback r
        prime := (k.prime.onIgnitionStateChanged true r).onSlowCallback r } := by
  obtain ⟨now, was⟩ : ignitionOn (.slowCallback r :: past) = true ∧ ignitionOn past = false := by
    simpa [turnedOn_cons] using on
  rw [KeySwitch.slowCallback, ignition, ignition_follows ordered, now, was]
  rfl

/-- When the ignition is turned off, the pump and the prime controller keep what they have. -/
theorem slowCallback_kept (ordered : InOrder (.slowCallback r :: past))
    (ignition : k.ignition = ⟨lastVoltage past, ignitionOn past⟩)
    (off : turnedOn (.slowCallback r :: past) = false) :
    k.slowCallback r =
      { ignition := ⟨lastVoltage (.slowCallback r :: past), ignitionOn (.slowCallback r :: past)⟩
        mainRelay := k.mainRelay.onSlowCallback r
        fuelPump := k.fuelPump.onSlowCallback r
        prime := k.prime.onSlowCallback r } := by
  rw [turnedOn_cons] at off
  rw [KeySwitch.slowCallback, ignition, ignition_follows ordered]
  cases now : ignitionOn (.slowCallback r :: past) <;> cases was : ignitionOn past
  · rfl
  · rfl
  · rw [now, was] at off
    cases off
  · rfl

theorem slowCallback_follows (follows : Follows backup k past)
    (ordered : InOrder (.slowCallback r :: past)) :
    Follows backup (k.slowCallback r) (.slowCallback r :: past) := by
  obtain ⟨ignition, mainRelay, fuelPump, counter, starts⟩ := follows
  have relay : k.mainRelay.onSlowCallback r = ⟨lastBenchTest (.slowCallback r :: past),
      lastRelayVoltage (.slowCallback r :: past), relayOn (.slowCallback r :: past)⟩ := by
    rw [mainRelay, mainRelay_follows]
  cases changed : turnedOn (.slowCallback r :: past) with
  | true =>
    have timer : (k.fuelPump.onIgnitionStateChanged true r).ignOnTimer =
        ignOnTime (.slowCallback r :: past) := by
      rw [ignOnTime, changed]
      rfl
    have force : (k.fuelPump.onIgnitionStateChanged true r).forceState = forced past := by
      rw [fuelPump]
      rfl
    obtain ⟨counterNow, startsNow⟩ := prime_told changed counter starts
    rw [slowCallback_turnedOn ordered ignition changed]
    exact ⟨rfl, relay, fuelPump_follows r past timer force, counterNow, startsNow⟩
  | false =>
    have timer : k.fuelPump.ignOnTimer = ignOnTime (.slowCallback r :: past) := by
      rw [ignOnTime, changed, fuelPump]
      rfl
    have force : k.fuelPump.forceState = forced past := by rw [fuelPump]
    obtain ⟨counterNow, startsNow⟩ := prime_kept changed counter starts
    rw [slowCallback_kept ordered ignition changed]
    exact ⟨rfl, relay, fuelPump_follows r past timer force, counterNow, startsNow⟩

end Told

theorem step_follows {k : KeySwitch} {e : KeyEvent} (follows : Follows backup k past)
    (ordered : InOrder (e :: past)) : Follows backup (k.step e) (e :: past) := by
  cases e with
  | slowCallback r => exact slowCallback_follows follows ordered
  | benchTest nowNt =>
    obtain ⟨ignition, mainRelay, fuelPump, counter, starts⟩ := follows
    refine ⟨ignition, ?_, fuelPump, counter, starts⟩
    rw [KeySwitch.step, mainRelay]
    rfl
  | forcePumpState state =>
    obtain ⟨ignition, mainRelay, fuelPump, counter, starts⟩ := follows
    refine ⟨ignition, mainRelay, ?_, counter, starts⟩
    rw [KeySwitch.step, fuelPump]
    rfl
  | restart lost =>
    refine ⟨rfl, rfl, rfl, ?_, rfl⟩
    cases lost with
    | none => exact follows.counter
    | some garbage => exact counted_backup garbage

def keyAfter (backup : Nat) (h : List KeyEvent) : KeySwitch :=
  after { prime := { ignCounter := backup } } KeySwitch.step h

theorem keyAfter_follows (backup : Nat) (ordered : InOrder h) : Follows backup (keyAfter backup h) h := by
  induction h with
  | nil => exact ⟨rfl, rfl, rfl, counted_backup backup, rfl⟩
  | cons e past ih =>
    have before : InOrder past := by
      cases e with
      | slowCallback r => exact ordered.1
      | benchTest nowNt => exact ordered.1
      | forcePumpState state => exact ordered
      | restart lost => exact ordered
    exact step_follows (ih before) ordered

/-- The ignition is on as long as there was voltage within the last 0.2 seconds, however it went up and
down in between; the relay stays on for a second; the pump is primed from the callback on in which the
ignition was turned on. -/
theorem key_outputs (backup : Nat) (ordered : InOrder h) :
    (keyAfter backup h).ignition.lastState = ignitionOn h ∧
      (keyAfter backup h).mainRelay.mainRelayState = relayOn h ∧
      (keyAfter backup h).fuelPump.isFuelPumpOn = pumpOn h := by
  obtain ⟨ignition, mainRelay, fuelPump, -, -⟩ := keyAfter_follows backup ordered
  rw [ignition, mainRelay, fuelPump]
  exact ⟨rfl, rfl, rfl⟩

/-- A callback, with the clock in seconds. -/
def callbackAt (second voltage : Nat) : KeyReadings where
  benchNt := 4000000 * second
  relayNt := 4000000 * second
  relayVoltage := voltage
  ignitionNt := 4000000 * second
  ignitionVoltage := voltage
  primeNt := 4000000 * second
  ignOnNt := 4000000 * second
  startUpFuelPumpDuration := 3
  pumpNt := 4000000 * second

theorem key_outputs_off :
    (keyAfter 0 [.slowCallback (callbackAt 3 0), .slowCallback (callbackAt 2 12)]).ignition.lastState = false ∧
      (keyAfter 0 [.slowCallback (callbackAt 3 0), .slowCallback (callbackAt 2 12)]).mainRelay.mainRelayState =
        true ∧
      (keyAfter 0 [.slowCallback (callbackAt 3 0), .slowCallback (callbackAt 2 12)]).fuelPump.isFuelPumpOn =
        true := by
  have ordered : InOrder [.slowCallback (callbackAt 3 0), .slowCallback (callbackAt 2 12)] := by
    simp [InOrder, callbackAt, latestTime]
  obtain ⟨ignition, relay, pump⟩ := key_outputs 0 ordered
  rw [ignition, relay, pump]
  decide +kernel

/-- Over restarts and whatever the backup RAM held at first, the pulses that are scheduled are those of the
key cycles that come first of eleven since the engine last turned or a pulse was skipped. -/
theorem prime_pulses (backup : Nat) (ordered : InOrder h) :
    (keyAfter backup h).prime.primeStarts = pulses backup h :=
  (keyAfter_follows backup ordered).starts

/-- So many key cycles in a row, each from a restart on. -/
def keyCycles : Nat → List KeyEvent
  | 0 => []
  | cycles + 1 => .slowCallback (callbackAt 1 12) :: .restart none :: keyCycles cycles

theorem prime_pulses_keyCycles :
    (keyAfter 0 (keyCycles 11)).prime.primeStarts = [] ∧
      (keyAfter 0 (keyCycles 12)).prime.primeStarts = [4400000] := by
  have ordered (cycles : Nat) : InOrder (keyCycles cycles) := by
    induction cycles with
    | zero => exact trivial
    | succ cycles ih => exact ⟨ih, by simp [callbackAt, latestTime]⟩
  rw [prime_pulses 0 (ordered 11), prime_pulses 0 (ordered 12)]
  decide +kernel

end Runs

end FomeFw.Engine
