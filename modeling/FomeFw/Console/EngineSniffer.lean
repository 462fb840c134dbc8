import FomeFw.Lib.Decimal
import FomeFw.Console.EngineState
import FomeFw.Util.Logging

/-! `WaveChart` of `engine_sniffer.cpp`: the edges of pins and sensors of some engine cycles as a
text for the console. -/
namespace FomeFw.Console

open Util Decimal EngineState

/-- What the chart reads of its surroundings. -/
structure SnifferEnv where
  nowNt : Nat
  isEngineSnifferEnabled : Bool
  engineChartSize : BitVec 16
  revolutionCounter : BitVec 32

/-- The text as the bytes of a string. -/
def bytesOf (text : Text) : List UInt8 := text.map fun c => UInt8.ofNat c.toNat

def chartDelimeter : Char := '!'

def protocolEngineSniffer : Text := "wave_chart".toList

/-- `time100`, with `US_TO_NT_MULTIPLIER` and `ENGINE_SNIFFER_UNIT_US`. -/
def time100 (usToNt nowNt startTimeNt : Nat) : BitVec 32 :=
  let diffNt := BitVec.ofInt 32 (nowNt - startTimeNt)
  BitVec.ofNat 32 (diffNt.toNat / 10 / usToNt)

/-- What `itoa10` leaves in `timeBuffer`. -/
def timeBuffer (time100 : BitVec 32) : Text := spelling time100.toInt

structure WaveChart (bufferSize : Nat) where
  logging : Logging bufferSize
  counter : Nat
  startTimeNt : Nat
  pauseEngineSnifferUntilNt : Nat
  skipUntilEngineCycle : BitVec 32

namespace WaveChart

variable {bufferSize : Nat}

def reset (c : WaveChart bufferSize) : Option (WaveChart bufferSize) := do
  let logging ← c.logging.reset
  let logging ← logging.appendPrintf (bytesOf (protocolEngineSniffer ++ [fieldsLogDelimiter]))
  return { c with logging, counter := 0, startTimeNt := 0 }

/-- The product is an `int`. -/
def isStartedTooLongAgo (usToNt : Nat) (c : WaveChart bufferSize) (e : SnifferEnv) : Bool :=
  let chartDurationNt : Int := e.nowNt - c.startTimeNt
  c.startTimeNt != 0 &&
    ((e.engineChartSize.toNat * 1000000 : Int).bmod (2 ^ 32)).tdiv 20 < chartDurationNt.tdiv usToNt

def isFull (c : WaveChart bufferSize) (e : SnifferEnv) : Bool := e.engineChartSize.toNat ≤ c.counter

/-- The text for `scheduleLogging`, which resets the object. -/
def publish (c : WaveChart bufferSize) (e : SnifferEnv) :
    Option (WaveChart bufferSize × List (List UInt8)) := do
  let logging ← c.logging.appendPrintf (bytesOf [fieldsLogDelimiter])
  if e.isEngineSnifferEnabled then
    let text ← logging.cString
    return ({ c with logging := ← logging.reset }, [text])
  else return ({ c with logging }, [])

def publishIfFull (usToNt : Nat) (c : WaveChart bufferSize) (e : SnifferEnv) :
    Option (WaveChart bufferSize × List (List UInt8)) :=
  if c.isFull e || c.isStartedTooLongAgo usToNt e then do
    let (c, texts) ← c.publish e
    return (← c.reset, texts)
  else return (c, [])

def addEvent3 (usToNt : Nat) (c : WaveChart bufferSize) (e : SnifferEnv) (name msg : Text) :
    Option (WaveChart bufferSize) :=
  if e.nowNt < c.pauseEngineSnifferUntilNt then return c
  else if !e.isEngineSnifferEnabled then return c
  else if c.skipUntilEngineCycle ≠ 0 ∧ e.revolutionCounter < c.skipUntilEngineCycle then return c
  else if c.isFull e then return c
  else do
    let startTimeNt := if c.counter = 0 then e.nowNt else c.startTimeNt
    let c := { c with startTimeNt, counter := c.counter + 1 }
    if 35 < c.logging.remainingSize then
      let logging ← c.logging.appendFast (bytesOf name)
      let logging ← logging.appendChar (UInt8.ofNat chartDelimeter.toNat)
      let logging ← logging.appendFast (bytesOf msg)
      let logging ← logging.appendChar (UInt8.ofNat chartDelimeter.toNat)
      let logging ← logging.appendFast (bytesOf (timeBuffer (time100 usToNt e.nowNt startTimeNt)))
      let logging ← logging.appendChar (UInt8.ofNat chartDelimeter.toNat)
      return { c with logging := ← logging.terminate }
    else return c

/-- The constructor and `init`, on a buffer with whatever is in it. -/
def init (buffer : FixedArray bufferSize UInt8) : Option (WaveChart bufferSize) := do
  let logging ← Logging.new buffer
  reset { logging, counter := 0, startTimeNt := 0, pauseEngineSnifferUntilNt := 0, skipUntilEngineCycle := 0 }

/-- The command of the console. -/
def resetNow (c : WaveChart bufferSize) (e : SnifferEnv) : Option (WaveChart bufferSize) :=
  reset { c with skipUntilEngineCycle := e.revolutionCounter + 3 }

/-- `Engine::resetEngineSnifferIfInTestMode` in the test mode. -/
def pause (usToNt : Nat) (c : WaveChart bufferSize) (e : SnifferEnv) : Option (WaveChart bufferSize) :=
  reset { c with pauseEngineSnifferUntilNt := e.nowNt + 300 * 1000 * usToNt }

end WaveChart

/-- The wheels with the index 0 and 1. -/
inductive CrankWheel where
  | first
  | second

/-- What calls for an event. -/
inductive SnifferEvent where
  | outputPin (shortName : Text) (isRise : Bool)
  | tdc (rpm : BitVec 32)
  | crank (wheelIndex : CrankWheel) (triggerEventIndex : BitVec 32) (isRise : Bool)
  | vvt (vvtName : Text) (isRise : Bool)

namespace SnifferEvent

/-- `PROTOCOL_ES_UP` and `PROTOCOL_ES_DOWN`. -/
def upDown (isRise : Bool) : Text := if isRise then ['u'] else ['d']

/-- `TOP_DEAD_CENTER_MESSAGE`, `PROTOCOL_CRANK1` and `PROTOCOL_CRANK2`. -/
def name : SnifferEvent → Text
  | outputPin shortName _ => shortName
  | tdc _ => ['r']
  | crank .first _ _ => ['t', '1']
  | crank .second _ _ => ['t', '2']
  | vvt vvtName _ => vvtName

/-- The index of a crank event is written behind `x_`. -/
def msg : SnifferEvent → Text
  | outputPin _ isRise => upDown isRise
  | tdc rpm => spelling rpm.toInt
  | crank _ triggerEventIndex isRise => upDown isRise ++ '_' :: spelling triggerEventIndex.toInt
  | vvt _ isRise => upDown isRise

end SnifferEvent

inductive SnifferCall where
  | add (e : SnifferEnv) (event : SnifferEvent)
  | publishIfFull (e : SnifferEnv)
  | resetNow (e : SnifferEnv)
  | pause (e : SnifferEnv)

/-- The macro `addEngineSnifferEvent` is the same question again. -/
def SnifferCall.step {bufferSize : Nat} (usToNt : Nat) (c : WaveChart bufferSize) :
    SnifferCall → Option (WaveChart bufferSize × List (List UInt8))
  | .add e event =>
    if e.isEngineSnifferEnabled then (c.addEvent3 usToNt e event.name event.msg).map (·, [])
    else some (c, [])
  | .publishIfFull e => c.publishIfFull usToNt e
  | .resetNow e => (c.resetNow e).map (·, [])
  | .pause e => (c.pause usToNt e).map (·, [])

/-- The texts published in a run. -/
def SnifferCall.run {bufferSize : Nat} (usToNt : Nat) (c : WaveChart bufferSize) :
    List SnifferCall → Option (WaveChart bufferSize × List (List UInt8))
  | [] => some (c, [])
  | call :: calls => do
    let (c, texts) ← call.step usToNt c
    let (c, more) ← SnifferCall.run usToNt c calls
    return (c, texts ++ more)

/-! ## The chart without a buffer -/

/-- An event with its time. -/
structure ChartEvent where
  event : SnifferEvent
  nowNt : Nat

/-- The events since the reset, as many as are wanted. -/
structure Chart where
  events : List ChartEvent := []
  pauseUntilNt : Nat := 0
  skipUntilEngineCycle : BitVec 32 := 0

namespace Chart

def startTimeNt (events : List ChartEvent) : Nat := (events.head?.map (·.nowNt)).getD 0

/-- The engine sniffer looks at an event now. -/
def Listens (c : Chart) (e : SnifferEnv) : Prop :=
  c.pauseUntilNt ≤ e.nowNt ∧ e.isEngineSnifferEnabled = true ∧
    (c.skipUntilEngineCycle = 0 ∨ c.skipUntilEngineCycle ≤ e.revolutionCounter) ∧
    c.events.length < e.engineChartSize.toNat

instance (c : Chart) (e : SnifferEnv) : Decidable (c.Listens e) := inferInstanceAs (Decidable (_ ∧ _))

def Due (usToNt : Nat) (c : Chart) (e : SnifferEnv) : Prop :=
  e.engineChartSize.toNat ≤ c.events.length ∨
    (startTimeNt c.events ≠ 0 ∧ ((e.engineChartSize.toNat * 1000000 : Int).bmod (2 ^ 32)).tdiv 20 <
      ((e.nowNt : Int) - startTimeNt c.events).tdiv usToNt)

instance (usToNt : Nat) (c : Chart) (e : SnifferEnv) : Decidable (c.Due usToNt e) :=
  inferInstanceAs (Decidable (_ ∨ _))

/-- A call, and the charts it publishes. -/
def step (usToNt : Nat) (c : Chart) : SnifferCall → Chart × List (List ChartEvent)
  | .add e event =>
    if c.Listens e then ({ c with events := c.events ++ [⟨event, e.nowNt⟩] }, [])
    else (c, [])
  | .publishIfFull e =>
    if c.Due usToNt e then
      ({ c with events := [] }, if e.isEngineSnifferEnabled then [c.events] else [])
    else (c, [])
  | .resetNow e => ({ c with events := [], skipUntilEngineCycle := e.revolutionCounter + 3 }, [])
  | .pause e => ({ c with events := [], pauseUntilNt := e.nowNt + 300 * 1000 * usToNt }, [])

def run (usToNt : Nat) (c : Chart) : List SnifferCall → Chart × List (List ChartEvent)
  | [] => (c, [])
  | call :: calls =>
    let (c, charts) := c.step usToNt call
    let (c, more) := run usToNt c calls
    (c, charts ++ more)

end Chart

/-! ## What of a chart is published -/

namespace Chart

variable {n usToNt start used : Nat} {events : List ChartEvent} {ev : ChartEvent}

def eventText (usToNt start : Nat) (ev : ChartEvent) : Text :=
  ev.event.name ++ chartDelimeter :: (ev.event.msg ++
    chartDelimeter :: (timeBuffer (time100 usToNt ev.nowNt start) ++ [chartDelimeter]))

def text (usToNt start : Nat) (events : List ChartEvent) : Text :=
  events.flatMap (eventText usToNt start)

/-- The events that there is room for, behind so many characters. -/
def fitting (n usToNt start : Nat) : Nat → List ChartEvent → List ChartEvent
  | _, [] => []
  | used, ev :: events =>
    if used + 35 < n then ev :: fitting n usToNt start (used + (eventText usToNt start ev).length) events
    else []

def header : Text := protocolEngineSniffer ++ [fieldsLogDelimiter]

/-- What the buffer has of a chart. -/
def shown (n usToNt : Nat) (events : List ChartEvent) : List ChartEvent :=
  fitting n usToNt (startTimeNt events) header.length events

/-- What stands behind the key. -/
def value (n usToNt : Nat) (events : List ChartEvent) : Text :=
  text usToNt (startTimeNt events) (shown n usToNt events)

theorem fitting_prefix (used : Nat) (events : List ChartEvent) :
    fitting n usToNt start used events <+: events := by
  induction events generalizing used with
  | nil => exact List.prefix_refl _
  | cons ev events ih =>
    rw [fitting]
    split
    · exact (List.prefix_cons_inj ev).mpr (ih _)
    · exact List.nil_prefix

theorem fitting_all (room : used + (text usToNt start events).length + 35 < n) :
    fitting n usToNt start used events = events := by
  induction events generalizing used with
  | nil => rfl
  | cons ev events ih =>
    rw [text, List.flatMap_cons, List.length_append] at room
    rw [fitting, if_pos (by omega), ih]
    rw [text]
    omega

theorem fitting_snoc (used : Nat) (events : List ChartEvent) (ev : ChartEvent) :
    fitting n usToNt start used (events ++ [ev]) = fitting n usToNt start used events ++
      if used + (text usToNt start (fitting n usToNt start used events)).length + 35 < n then [ev]
      else [] := by
  induction events generalizing used with
  | nil => rfl
  | cons first events ih =>
    rw [List.cons_append, fitting, fitting]
    by_cases room : used + 35 < n
    · rw [if_pos room, if_pos room, ih, List.cons_append, text, text, List.flatMap_cons,
        List.length_append, Nat.add_assoc used]
    · rw [if_neg room, if_neg room, List.nil_append, if_neg]
      simpa [text] using room

theorem startTimeNt_snoc (some : events ≠ []) :
    startTimeNt (events ++ [ev]) = startTimeNt events := by
  obtain ⟨first, rest, rfl⟩ := List.exists_cons_of_ne_nil some
  rfl

/-- An event more is shown where there is room behind those shown. -/
theorem value_snoc (n usToNt : Nat) (events : List ChartEvent) (ev : ChartEvent) :
    value n usToNt (events ++ [ev]) = value n usToNt events ++
      if header.length + (value n usToNt events).length + 35 < n then
        eventText usToNt (startTimeNt (events ++ [ev])) ev
      else [] := by
  have same : value n usToNt events = text usToNt (startTimeNt (events ++ [ev]))
      (fitting n usToNt (startTimeNt (events ++ [ev])) header.length events) := by
    by_cases some : events = []
    · subst some
      rw [value, shown, fitting, fitting, text, text, List.flatMap_nil, List.flatMap_nil]
    · rw [startTimeNt_snoc some, value, shown]
  rw [same, value, shown, fitting_snoc]
  split
  · simp [text]
  · simp

end Chart

section Buffer

variable {n usToNt : Nat} {c : WaveChart n} {chart : Chart} {l : Logging n}

theorem bytesOf_append (front back : Text) : bytesOf (front ++ back) = bytesOf front ++ bytesOf back :=
  List.map_append

theorem length_bytesOf (text : Text) : (bytesOf text).length = text.length := List.length_map _

/-- A number of 32 bits divided by 10 has nine digits. -/
theorem length_timeBuffer (usToNt nowNt start : Nat) :
    (timeBuffer (time100 usToNt nowNt start)).length ≤ 9 := by
  have bound := (BitVec.ofInt 32 (nowNt - start)).isLt
  have small : (BitVec.ofInt 32 (nowNt - start)).toNat / 10 / usToNt < 10 ^ 9 :=
    Nat.lt_of_le_of_lt (Nat.div_le_self _ _) (by omega)
  have value : (time100 usToNt nowNt start).toInt =
      ((BitVec.ofInt 32 (nowNt - start)).toNat / 10 / usToNt : Nat) := by
    have nat : (time100 usToNt nowNt start).toNat =
        (BitVec.ofInt 32 (nowNt - start)).toNat / 10 / usToNt := by
      rw [time100, BitVec.toNat_ofNat, Nat.mod_eq_of_lt (Nat.lt_trans small (by decide))]
    rw [BitVec.toInt_eq_toNat_of_lt (by omega), nat]
  rw [timeBuffer, value, spelling, if_neg (Int.not_lt.mpr (Int.natCast_nonneg _)), List.nil_append,
    Int.natAbs_natCast]
  exact (Nat.length_toDigits_le_iff (by decide) (by decide)).mpr small

/-- Characters that stand for themselves all the way to the console. -/
def Clean (text : Text) : Prop :=
  ∀ c ∈ text, 32 ≤ c.toNat ∧ c.toNat < 127 ∧ c ≠ chartDelimeter ∧ c ≠ fieldsLogDelimiter ∧ c ≠ '<'

theorem nonzero_bytesOf {text : Text} (printable : ∀ c ∈ text, 32 ≤ c.toNat ∧ c.toNat < 127) :
    0 ∉ bytesOf text := by
  intro member
  obtain ⟨c, inside, zero⟩ := List.mem_map.mp member
  have bounds := printable c inside
  have number := congrArg UInt8.toNat zero
  rw [UInt8.toNat_ofNat', UInt8.toNat_zero] at number
  omega

theorem clean_spelling (z : Int) : Clean (spelling z) := by
  intro c member
  have digit : c = '-' ∨ c.isDigit = true := by
    rw [spelling, List.mem_append] at member
    rcases member with sign | digit
    · split at sign
      · exact .inl (List.mem_singleton.mp sign)
      · cases sign
    · exact .inr (digits_toDigits _ c digit)
  rcases digit with rfl | digit
  · decide
  · have range := isDigit_iff.mp digit
    refine ⟨by omega, by omega, ?_, ?_, ?_⟩
    · rintro rfl
      exact absurd digit (by decide)
    · rintro rfl
      exact absurd digit (by decide)
    · rintro rfl
      exact absurd digit (by decide)

/-- The name of a pin or a cam is short, and has none of the characters that mean something else. -/
def SnifferEvent.Fits : SnifferEvent → Prop
  | outputPin name _ | vvt name _ => name.length ≤ 21 ∧ Clean name
  | _ => True

def SnifferCall.Fits : SnifferCall → Prop
  | add _ event => event.Fits
  | _ => True

theorem length_spelling (number : BitVec 32) : (spelling number.toInt).length ≤ 11 := by
  have low := number.le_toInt
  have high := number.toInt_lt
  have digits : (Nat.toDigits 10 number.toInt.natAbs).length ≤ 10 :=
    (Nat.length_toDigits_le_iff (by decide) (by decide)).mpr (by omega)
  rw [spelling, List.length_append]
  split
  · rw [List.length_singleton]
    omega
  · rw [List.length_nil]
    omega

theorem SnifferEvent.Fits.short {event : SnifferEvent} (fits : event.Fits) :
    event.name.length + event.msg.length ≤ 22 := by
  have one (isRise : Bool) : (upDown isRise).length = 1 := by cases isRise <;> rfl
  cases event with
  | outputPin name isRise =>
    rw [SnifferEvent.name, msg, one]
    exact Nat.succ_le_succ fits.1
  | tdc rpm =>
    have length := length_spelling rpm
    simp only [SnifferEvent.name, msg, List.length_singleton]
    omega
  | crank wheelIndex triggerEventIndex isRise =>
    have length := length_spelling triggerEventIndex
    have wheel : (SnifferEvent.crank wheelIndex triggerEventIndex isRise).name.length = 2 := by
      cases wheelIndex <;> rfl
    simp only [msg, wheel, List.length_append, List.length_cons, one]
    omega
  | vvt name isRise =>
    rw [SnifferEvent.name, msg, one]
    exact Nat.succ_le_succ fits.1

theorem clean_upDown (isRise : Bool) : Clean (SnifferEvent.upDown isRise) := by
  cases isRise <;> exact List.forall_mem_singleton.mpr (by decide)

theorem SnifferEvent.Fits.clean {event : SnifferEvent} (fits : event.Fits) :
    Clean event.name ∧ Clean event.msg := by
  cases event with
  | outputPin name isRise => exact ⟨fits.2, clean_upDown isRise⟩
  | tdc rpm => exact ⟨List.forall_mem_singleton.mpr (by decide), clean_spelling _⟩
  | crank wheelIndex triggerEventIndex isRise =>
    refine ⟨?_, List.forall_mem_append.mpr
      ⟨clean_upDown isRise, List.forall_mem_cons.mpr ⟨by decide, clean_spelling _⟩⟩⟩
    cases wheelIndex <;> exact List.forall_mem_cons.mpr ⟨by decide, List.forall_mem_singleton.mpr (by decide)⟩
  | vvt name isRise => exact ⟨fits.2, clean_upDown isRise⟩

theorem length_eventText {ev : ChartEvent} (fits : ev.event.Fits) (start : Nat) :
    (Chart.eventText usToNt start ev).length ≤ 34 := by
  have digits := length_timeBuffer usToNt ev.nowNt start
  have short := fits.short
  simp only [Chart.eventText, List.length_append, List.length_cons, List.length_nil]
  omega

/-- In the value of a chart there is no character that would end it, or the line. -/
theorem value_readable {events : List ChartEvent} (fits : ∀ ev ∈ events, ev.event.Fits) :
    ∀ c ∈ Chart.value n usToNt events, (32 ≤ c.toNat ∧ c.toNat < 127) ∧ c ≠ fieldsLogDelimiter ∧ c ≠ '<' := by
  intro c member
  obtain ⟨ev, here, inside⟩ := List.mem_flatMap.mp member
  obtain ⟨name, msg⟩ := (fits ev ((Chart.fitting_prefix _ _).subset here)).clean
  have readable {text : Text} (clean : Clean text) (member : c ∈ text) :
      (32 ≤ c.toNat ∧ c.toNat < 127) ∧ c ≠ fieldsLogDelimiter ∧ c ≠ '<' := by
    obtain ⟨low, high, -, plain, untagged⟩ := clean c member
    exact ⟨⟨low, high⟩, plain, untagged⟩
  have delimeter (same : c = chartDelimeter) :
      (32 ≤ c.toNat ∧ c.toNat < 127) ∧ c ≠ fieldsLogDelimiter ∧ c ≠ '<' := by
    subst same
    decide
  simp only [Chart.eventText, List.mem_append, List.mem_cons, List.not_mem_nil, or_false] at inside
  rcases inside with inside | inside | inside | inside | inside | inside
  · exact readable name inside
  · exact delimeter inside
  · exact readable msg inside
  · exact delimeter inside
  · exact readable (clean_spelling _) inside
  · exact delimeter inside

theorem segment_printable {events : List ChartEvent} (fits : ∀ ev ∈ events, ev.event.Fits) :
    ∀ c ∈ segment (protocolEngineSniffer, Chart.value n usToNt events), 32 ≤ c.toNat ∧ c.toNat < 127 := by
  have key (c : Char) (member : c ∈ Chart.header) : 32 ≤ c.toNat ∧ c.toNat < 127 := by
    have all : Chart.header.all (fun c => decide (32 ≤ c.toNat ∧ c.toNat < 127)) = true := by decide
    exact of_decide_eq_true (List.all_eq_true.mp all c member)
  intro c member
  rw [segment, List.append_cons, ← List.append_assoc, List.mem_append, List.mem_append] at member
  rcases member with (member | member) | member
  · exact key c member
  · exact (value_readable fits c member).1
  · exact key c (List.mem_append_right _ member)

/-- The buffer shows the chart, with room for the delimiter at the end. -/
structure Shows (usToNt : Nat) (c : WaveChart n) (chart : Chart) : Prop where
  text : (⟨c.logging, bytesOf (Chart.header ++ Chart.value n usToNt chart.events)⟩ : Logged n).Terminated
  room : (Chart.header ++ Chart.value n usToNt chart.events).length + 1 < n
  counter : c.counter = chart.events.length
  start : c.startTimeNt = Chart.startTimeNt chart.events
  pause : c.pauseEngineSnifferUntilNt = chart.pauseUntilNt
  skip : c.skipUntilEngineCycle = chart.skipUntilEngineCycle

theorem appendPrintf_text {held : List UInt8} {text : Text}
    (terminated : (⟨l, held⟩ : Logged n).Terminated) (room : held.length + text.length < n) :
    ∃ l', l.appendPrintf (bytesOf text) = some l' ∧
      (⟨l', held ++ bytesOf text⟩ : Logged n).Terminated := by
  obtain ⟨l', printed, after⟩ := Logged.appendPrintf_terminated terminated (bytesOf text)
  have fits : (bytesOf text).length < l.remainingSize := by
    have remaining := terminated.remaining
    dsimp only at remaining
    rw [remaining, length_bytesOf]
    omega
  have stored : Logged.stores n held (.appendPrintf (bytesOf text)) = held ++ bytesOf text := by
    rw [Logged.stores, List.take_of_length_le]
    rw [List.length_append, length_bytesOf]
    omega
  exact ⟨l', printed, stored ▸ after.mpr fits⟩

theorem reset_shows (large : 13 ≤ n) (c : WaveChart n) : ∃ c', c.reset = some c' ∧
    Shows usToNt c' ⟨[], c.pauseEngineSnifferUntilNt, c.skipUntilEngineCycle⟩ := by
  obtain ⟨l, cleared, empty⟩ := Logged.reset_terminated c.logging (by omega)
  have length : Chart.header.length = 11 := rfl
  obtain ⟨l', printed, terminated⟩ := @appendPrintf_text n l [] Chart.header empty 
    (by rw [length, List.length_nil]; omega)
  refine ⟨{ c with logging := l', counter := 0, startTimeNt := 0 }, ?_, terminated, ?_, rfl, rfl, rfl, rfl⟩
  · rw [WaveChart.reset, cleared, ← Chart.header]
    simp only [Option.bind_eq_bind, Option.bind_some, printed]
    rfl
  · have nothing : Chart.value n usToNt [] = [] := rfl
    rw [nothing, List.append_nil, length]
    omega

/-- The text of an event behind what is there. -/
theorem append_event {held : List UInt8} (terminated : (⟨l, held⟩ : Logged n).Terminated)
    {name msg time : Text} (room : held.length + name.length + msg.length + time.length + 3 < n) :
    ∃ l₁ l₂ l₃ l₄ l₅ l₆ l₇, l.appendFast (bytesOf name) = some l₁ ∧
      l₁.appendChar (UInt8.ofNat chartDelimeter.toNat) = some l₂ ∧
      l₂.appendFast (bytesOf msg) = some l₃ ∧
      l₃.appendChar (UInt8.ofNat chartDelimeter.toNat) = some l₄ ∧
      l₄.appendFast (bytesOf time) = some l₅ ∧
      l₅.appendChar (UInt8.ofNat chartDelimeter.toNat) = some l₆ ∧ l₆.terminate = some l₇ ∧
      (⟨l₇, held ++ bytesOf (name ++ chartDelimeter :: (msg ++ chartDelimeter :: (time ++ [chartDelimeter])))⟩ :
        Logged n).Terminated := by
  have start : l.Holds held := Logging.holds_terminated terminated
  have length := length_bytesOf
  obtain ⟨l₁, first, holds₁⟩ := @Logging.Holds.appendFast _ _ _ (bytesOf name) start (by grind)
  obtain ⟨l₂, second, holds₂⟩ := holds₁.appendChar (by grind) (UInt8.ofNat chartDelimeter.toNat)
  obtain ⟨l₃, third, holds₃⟩ := @Logging.Holds.appendFast _ _ _ (bytesOf msg) holds₂ (by grind)
  obtain ⟨l₄, fourth, holds₄⟩ := holds₃.appendChar (by grind) (UInt8.ofNat chartDelimeter.toNat)
  obtain ⟨l₅, fifth, holds₅⟩ := @Logging.Holds.appendFast _ _ _ (bytesOf time) holds₄ (by grind)
  obtain ⟨l₆, sixth, holds₆⟩ := holds₅.appendChar (by grind) (UInt8.ofNat chartDelimeter.toNat)
  obtain ⟨l₇, last, after⟩ := holds₆.terminate (by grind)
  refine ⟨l₁, l₂, l₃, l₄, l₅, l₆, l₇, first, second, third, fourth, fifth, sixth, last, ?_⟩
  have whole : held ++
        bytesOf (name ++ chartDelimeter :: (msg ++ chartDelimeter :: (time ++ [chartDelimeter]))) =
      held ++ bytesOf name ++ [UInt8.ofNat chartDelimeter.toNat] ++ bytesOf msg ++
        [UInt8.ofNat chartDelimeter.toNat] ++ bytesOf time ++ [UInt8.ofNat chartDelimeter.toNat] := by
    simp [bytesOf]
  rw [whole]
  exact after

/-- An event is taken just where the sniffer listens. -/
theorem addEvent3_shows (shows : Shows usToNt c chart) (e : SnifferEnv) {event : SnifferEvent}
    (fits : event.Fits) : ∃ c', c.addEvent3 usToNt e event.name event.msg = some c' ∧
      Shows usToNt c' (if chart.Listens e then
        { chart with events := chart.events ++ [⟨event, e.nowNt⟩] } else chart) := by
  obtain ⟨terminated, room, counter, start, pause, skip⟩ := id shows
  have full : c.isFull e = decide (e.engineChartSize.toNat ≤ chart.events.length) := by
    rw [WaveChart.isFull, counter]
  rw [WaveChart.addEvent3, pause, skip, full]
  by_cases listens : chart.Listens e
  · obtain ⟨running, enabled, reached, below⟩ := id listens
    have unskipped : ¬ (chart.skipUntilEngineCycle ≠ 0 ∧ e.revolutionCounter < chart.skipUntilEngineCycle) := by
      rintro ⟨some, before⟩
      exact BitVec.not_lt.mpr (reached.resolve_left some) before
    have size : ¬ e.engineChartSize.toNat ≤ chart.events.length := Nat.not_le.mpr below
    have begins : (if c.counter = 0 then e.nowNt else c.startTimeNt) =
        Chart.startTimeNt (chart.events ++ [⟨event, e.nowNt⟩]) := by
      rw [counter, start]
      cases chart.events <;> rfl
    have remaining := terminated.remaining
    dsimp only at remaining
    rw [length_bytesOf, List.length_append] at remaining
    rw [if_neg (Nat.not_lt.mpr running), enabled, if_neg unskipped, if_pos listens, begins]
    simp only [Bool.not_true, Bool.false_eq_true, if_false, decide_eq_true_eq, if_neg size]
    have next := Chart.value_snoc n usToNt chart.events ⟨event, e.nowNt⟩
    by_cases space : 35 < c.logging.remainingSize
    · have behind : Chart.header.length + (Chart.value n usToNt chart.events).length + 35 < n := by omega
      have time := length_timeBuffer usToNt e.nowNt (Chart.startTimeNt (chart.events ++ [⟨event, e.nowNt⟩]))
      obtain ⟨l₁, l₂, l₃, l₄, l₅, l₆, l₇, first, second, third, fourth, fifth, sixth, last, after⟩ :=
        @append_event n c.logging _ terminated event.name event.msg (timeBuffer (time100 usToNt e.nowNt
          (Chart.startTimeNt (chart.events ++ [⟨event, e.nowNt⟩])))) (by
            have short := fits.short
            rw [length_bytesOf, List.length_append]
            omega)
      rw [if_pos behind] at next
      have text : bytesOf (Chart.header ++ Chart.value n usToNt (chart.events ++ [⟨event, e.nowNt⟩])) =
          bytesOf (Chart.header ++ Chart.value n usToNt chart.events) ++ bytesOf (Chart.eventText usToNt
            (Chart.startTimeNt (chart.events ++ [⟨event, e.nowNt⟩])) ⟨event, e.nowNt⟩) := by
        rw [next, ← List.append_assoc, bytesOf_append]
      rw [if_pos space]
      simp only [Option.bind_eq_bind, Option.bind_some, first, second, third, fourth, fifth, sixth, last]
      refine ⟨_, rfl, text ▸ after, ?_, ?_, rfl, rfl, rfl⟩
      · have length := @length_eventText usToNt ⟨event, e.nowNt⟩ fits
          (Chart.startTimeNt (chart.events ++ [⟨event, e.nowNt⟩]))
        rw [next, ← List.append_assoc, List.length_append, List.length_append]
        omega
      · rw [List.length_append, counter]
        rfl
    · have behind : ¬ Chart.header.length + (Chart.value n usToNt chart.events).length + 35 < n := by omega
      rw [if_neg behind, List.append_nil] at next
      rw [if_neg space]
      refine ⟨_, rfl, ?_, ?_, ?_, rfl, rfl, rfl⟩
      · rw [next]
        exact terminated
      · rw [next]
        exact room
      · rw [List.length_append, counter]
        rfl
  · rw [if_neg listens]
    have ignored : ∀ r, (if e.nowNt < chart.pauseUntilNt then some c
        else if (!e.isEngineSnifferEnabled) = true then some c
        else if chart.skipUntilEngineCycle ≠ 0 ∧ e.revolutionCounter < chart.skipUntilEngineCycle then some c
        else if decide (e.engineChartSize.toNat ≤ chart.events.length) = true then some c else r) = some c := by
      intro r
      split
      · rfl
      split
      · rfl
      split
      · rfl
      split
      · rfl
      · rename_i running enabled unskipped size
        refine absurd ⟨Nat.not_lt.mp running, by simpa using enabled, ?_, by simpa using size⟩ listens
        by_cases zero : chart.skipUntilEngineCycle = 0
        · exact .inl zero
        · exact .inr (BitVec.not_lt.mp fun before => unskipped ⟨zero, before⟩)
    exact ⟨c, ignored _, shows⟩

/-- A chart that is due is published, with a delimiter behind the value, and a new one is begun. -/
theorem publishIfFull_shows (large : 13 ≤ n) (shows : Shows usToNt c chart)
    (taken : ∀ ev ∈ chart.events, ev.event.Fits) (e : SnifferEnv) :
    ∃ c', c.publishIfFull usToNt e = some (c', (chart.step usToNt (.publishIfFull e)).2.map fun events =>
        bytesOf (segment (protocolEngineSniffer, Chart.value n usToNt events))) ∧
      Shows usToNt c' (chart.step usToNt (.publishIfFull e)).1 := by
  have due : (c.isFull e || c.isStartedTooLongAgo usToNt e) = decide (chart.Due usToNt e) := by
    rw [WaveChart.isFull, WaveChart.isStartedTooLongAgo, shows.counter, shows.start]
    rw [Bool.eq_iff_iff, decide_eq_true_iff]
    simp [Chart.Due, bne]
  rw [WaveChart.publishIfFull, due, Chart.step]
  by_cases now : chart.Due usToNt e
  · have room : (bytesOf (Chart.header ++ Chart.value n usToNt chart.events)).length +
        [fieldsLogDelimiter].length < n := by
      rw [length_bytesOf]
      exact shows.room
    obtain ⟨l, printed, terminated⟩ := appendPrintf_text shows.text room
    have text : bytesOf (Chart.header ++ Chart.value n usToNt chart.events) ++ bytesOf [fieldsLogDelimiter] =
        bytesOf (segment (protocolEngineSniffer, Chart.value n usToNt chart.events)) := by
      rw [← bytesOf_append]
      simp [Chart.header, segment]
    have read : l.cString =
        some (bytesOf (segment (protocolEngineSniffer, Chart.value n usToNt chart.events))) := by
      rw [text] at terminated
      exact Logging.cString_terminated terminated (nonzero_bytesOf (segment_printable taken))
    rw [if_pos now, decide_eq_true now, if_pos rfl]
    cases enabled : e.isEngineSnifferEnabled
    · obtain ⟨c', cleared, after⟩ := @reset_shows n usToNt large { c with logging := l }
      refine ⟨c', ?_, ?_⟩
      · simp [WaveChart.publish, printed, enabled, cleared]
      · simpa [shows.pause, shows.skip] using after
    · obtain ⟨l', emptied, -⟩ := Logged.reset_terminated l (by omega)
      obtain ⟨c', cleared, after⟩ := @reset_shows n usToNt large { c with logging := l' }
      refine ⟨c', ?_, ?_⟩
      · simp [WaveChart.publish, printed, enabled, read, emptied, cleared]
      · simpa [shows.pause, shows.skip] using after
  · rw [if_neg now, decide_eq_false now]
    exact ⟨c, rfl, shows⟩

/-- What is published of a chart. -/
def Chart.published (n usToNt : Nat) (events : List ChartEvent) : List UInt8 :=
  bytesOf (segment (protocolEngineSniffer, Chart.value n usToNt events))

theorem step_fits (taken : ∀ ev ∈ chart.events, ev.event.Fits) {call : SnifferCall} (fits : call.Fits) :
    (∀ ev ∈ (chart.step usToNt call).1.events, ev.event.Fits) ∧
      ∀ events ∈ (chart.step usToNt call).2, ∀ ev ∈ events, ev.event.Fits := by
  cases call with
  | add e event =>
    rw [Chart.step]
    split
    · exact ⟨List.forall_mem_append.mpr ⟨taken, List.forall_mem_singleton.mpr fits⟩, by simp⟩
    · exact ⟨taken, by simp⟩
  | publishIfFull e =>
    rw [Chart.step]
    split
    · refine ⟨by simp, ?_⟩
      dsimp only
      split
      · exact List.forall_mem_singleton.mpr taken
      · simp
    · exact ⟨taken, by simp⟩
  | resetNow e => exact ⟨by simp [Chart.step], by simp [Chart.step]⟩
  | pause e => exact ⟨by simp [Chart.step], by simp [Chart.step]⟩

theorem step_shows (large : 13 ≤ n) (shows : Shows usToNt c chart) (taken : ∀ ev ∈ chart.events, ev.event.Fits)
    {call : SnifferCall} (fits : call.Fits) : ∃ c',
      call.step usToNt c = some (c', (chart.step usToNt call).2.map (Chart.published n usToNt)) ∧
      Shows usToNt c' (chart.step usToNt call).1 := by
  cases call with
  | add e event =>
    rw [SnifferCall.step, Chart.step]
    cases enabled : e.isEngineSnifferEnabled
    · have deaf : ¬ chart.Listens e := by
        rintro ⟨-, on, -⟩
        rw [enabled] at on
        cases on
      rw [if_neg deaf]
      exact ⟨c, rfl, shows⟩
    · obtain ⟨c', added, after⟩ := addEvent3_shows shows e fits
      rw [if_pos rfl, added]
      by_cases listens : chart.Listens e
      · rw [if_pos listens] at after ⊢
        exact ⟨c', rfl, after⟩
      · rw [if_neg listens] at after ⊢
        exact ⟨c', rfl, after⟩
  | publishIfFull e => exact publishIfFull_shows large shows taken e
  | resetNow e =>
    obtain ⟨c', cleared, after⟩ :=
      @reset_shows n usToNt large { c with skipUntilEngineCycle := e.revolutionCounter + 3 }
    refine ⟨c', by rw [SnifferCall.step, WaveChart.resetNow, cleared]; rfl, ?_⟩
    rw [Chart.step, ← shows.pause]
    exact after
  | pause e =>
    obtain ⟨c', cleared, after⟩ :=
      @reset_shows n usToNt large { c with pauseEngineSnifferUntilNt := e.nowNt + 300 * 1000 * usToNt }
    refine ⟨c', by rw [SnifferCall.step, WaveChart.pause, cleared]; rfl, ?_⟩
    rw [Chart.step, ← shows.skip]
    exact after

theorem run_shows (large : 13 ≤ n) (shows : Shows usToNt c chart) (taken : ∀ ev ∈ chart.events, ev.event.Fits)
    {calls : List SnifferCall} (fits : ∀ call ∈ calls, call.Fits) : ∃ c',
      SnifferCall.run usToNt c calls = some (c', (chart.run usToNt calls).2.map (Chart.published n usToNt)) ∧
      Shows usToNt c' (chart.run usToNt calls).1 ∧
      ∀ events ∈ (chart.run usToNt calls).2, ∀ ev ∈ events, ev.event.Fits := by
  induction calls generalizing c chart with
  | nil => exact ⟨c, rfl, shows, by simp [Chart.run]⟩
  | cons call calls ih =>
    have here := fits call List.mem_cons_self
    obtain ⟨c₁, stepped, after⟩ := step_shows large shows taken here
    obtain ⟨takenAfter, takenCharts⟩ := @step_fits usToNt chart taken call here
    obtain ⟨c', ran, last, more⟩ := ih after takenAfter fun call' member =>
      fits call' (List.mem_cons_of_mem call member)
    refine ⟨c', ?_, last, List.forall_mem_append.mpr ⟨takenCharts, more⟩⟩
    rw [SnifferCall.run, stepped]
    simp only [Option.bind_eq_bind, Option.bind_some, ran, Chart.run, List.map_append]
    rfl

theorem init_shows (large : 13 ≤ n) (buffer : FixedArray n UInt8) :
    ∃ c, WaveChart.init buffer = some c ∧ Shows usToNt c {} := by
  obtain ⟨l, made, -⟩ := Logged.reset_terminated ⟨buffer, 0⟩ (by omega)
  obtain ⟨c, cleared, shows⟩ := @reset_shows n usToNt large ⟨l, 0, 0, 0, 0⟩
  refine ⟨c, ?_, shows⟩
  rw [WaveChart.init, Logging.new, made]
  exact cleared

/-- However the calls come, nothing is written outside of the buffer, and of each chart that is due the
events are published that come first, all of them where there is room. -/
theorem charts_published (large : 13 ≤ n) (buffer : FixedArray n UInt8) (calls : List SnifferCall)
    (fits : ∀ call ∈ calls, call.Fits) : ∃ c c', WaveChart.init buffer = some c ∧
      SnifferCall.run usToNt c calls =
        some (c', (Chart.run usToNt {} calls).2.map (Chart.published n usToNt)) ∧
      ∀ events ∈ (Chart.run usToNt {} calls).2, Chart.shown n usToNt events <+: events ∧
        (Chart.header.length + (Chart.text usToNt (Chart.startTimeNt events) events).length + 35 < n →
          Chart.shown n usToNt events = events) := by
  obtain ⟨c, made, shows⟩ := init_shows large buffer
  obtain ⟨c', ran, -⟩ := run_shows large shows (by simp) fits
  exact ⟨c, c', made, ran, fun events _ => ⟨Chart.fitting_prefix _ _, Chart.fitting_all⟩⟩

/-- A chart of three events is full: the rise of a pin, a tooth and the fall of the pin. -/
def fourEvents : List SnifferCall :=
  [.add ⟨400, true, 3, 0⟩ (.outputPin ['i', '1'] true), .add ⟨480, true, 3, 0⟩ (.crank .first 7 false),
    .add ⟨520, true, 3, 0⟩ (.outputPin ['i', '1'] false), .add ⟨560, true, 3, 0⟩ (.outputPin ['i', '1'] true),
    .publishIfFull ⟨600, true, 3, 0⟩]

theorem fourEvents_fit : ∀ call ∈ fourEvents, call.Fits := by
  have pin (isRise : Bool) : (SnifferEvent.outputPin ['i', '1'] isRise).Fits :=
    ⟨by decide, List.forall_mem_cons.mpr ⟨by decide, List.forall_mem_singleton.mpr (by decide)⟩⟩
  exact List.forall_mem_cons.mpr ⟨pin true, List.forall_mem_cons.mpr ⟨trivial,
    List.forall_mem_cons.mpr ⟨pin false, List.forall_mem_cons.mpr ⟨pin true,
      List.forall_mem_singleton.mpr trivial⟩⟩⟩⟩

def fourEventsValue : Text := "i1!u!0!t1!d_7!2!i1!d!3!".toList

theorem fourEvents_published : (Chart.run 4 {} fourEvents).2.map (Chart.published 80 4) =
    [bytesOf (segment (protocolEngineSniffer, fourEventsValue))] := by decide +kernel

theorem charts_published_fourEvents : ∃ c c', WaveChart.init (.fill 0 : FixedArray 80 UInt8) = some c ∧
    SnifferCall.run 4 c fourEvents =
      some (c', [bytesOf (segment (protocolEngineSniffer, fourEventsValue))]) := by
  obtain ⟨c, c', made, ran, -⟩ := @charts_published 80 4 (by decide) (.fill 0) fourEvents fourEvents_fit
  exact ⟨c, c', made, fourEvents_published ▸ ran⟩

end Buffer

end FomeFw.Console
