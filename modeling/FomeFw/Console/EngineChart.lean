import FomeFw.Config.EnumValues
import FomeFw.Console.EngineSniffer

/-! `EngineChartParser.java` and `EngineReport.java`: what the console makes of a chart. -/
namespace FomeFw.Console

open Config Decimal EngineState

/-- `String.split` at a character: without it there is one part, and empty parts at the end are left
out. -/
def splitAt (delimiter : Char) (text : Text) : List Text :=
  if delimiter ∈ text then ((text.splitOnP (· == delimiter)).reverse.dropWhile (· = [])).reverse
  else [text]

namespace EngineChartParser

/-- The reports by their names. -/
abbrev EngineChart := Text → Option Text

/-- `while (index + 2 < array.length)`. -/
def unpackLoop (map : EngineChart) : List Text → EngineChart
  | name :: signal :: val :: array =>
    let sb := (map name).getD []
    unpackLoop (Function.update map name
      (some (sb ++ signal ++ [chartDelimeter] ++ val ++ [chartDelimeter]))) array
  | _ => map

def unpackToMap (value : Text) : EngineChart := unpackLoop (fun _ => none) (splitAt chartDelimeter value)

end EngineChartParser

/-- Of a pulse, without the gaps, which are not numbers. -/
structure UpDown where
  upTime : Int
  upTriggerCycleIndex : Int
  downTime : Int
  downTriggerCycleIndex : Int
  deriving DecidableEq

namespace EngineReport

/-- The number behind the underscore, or -1; `none` is a `NumberFormatException`. -/
def eventIndex (message : Text) : Option Int :=
  match splitAt '_' message with
  | _ :: index :: _ => parseIntIn 10 index
  | _ => some (-1)

def upDownOf (up upTime down downTime : Text) : Option UpDown := do
  return {
    upTime := ← parseIntIn 10 upTime
    downTime := ← parseIntIn 10 downTime
    upTriggerCycleIndex := ← eventIndex up
    downTriggerCycleIndex := ← eventIndex down }

/-- `while (index + 3 < array.length)`; a pair with a wrong number is left out. -/
def parseLoop : List Text → List UpDown
  | up :: upTime :: down :: downTime :: array =>
    if !List.isPrefixOf ['u'] up then parseLoop (down :: downTime :: array)
    else if !List.isPrefixOf ['d'] down then parseLoop (down :: downTime :: array)
    else (upDownOf up upTime down downTime).toList ++ parseLoop array
  | _ => []

/-- There is no result where there is no `array[0]`. -/
def parse (report : Text) : Option (List UpDown) :=
  match splitAt chartDelimeter report with
  | [] => none
  | first :: array => some (parseLoop (if first = ['d'] then array.drop 1 else first :: array))

end EngineReport

/-- The report of a channel as `EngineSnifferPanel.displayChart` has it. -/
def displayed (value channel : Text) : Option (List UpDown) :=
  EngineReport.parse ((EngineChartParser.unpackToMap value channel).getD [])

/-! ## What was recorded -/

/-- An edge with the index of the tooth, if it has one. -/
def SnifferEvent.edge : SnifferEvent → Option (Bool × Int)
  | outputPin _ isRise | vvt _ isRise => some (isRise, -1)
  | tdc _ => none
  | crank _ triggerEventIndex isRise => some (isRise, triggerEventIndex.toInt)

namespace Chart

variable {usToNt start : Nat} {events : List ChartEvent} {ev : ChartEvent}

/-- The time of an event in ticks of the chart. -/
def ticks (usToNt start : Nat) (ev : ChartEvent) : Int := (time100 usToNt ev.nowNt start).toInt

/-- A rise and the fall after it. -/
def pulse (usToNt start : Nat) (first second : ChartEvent) : Option UpDown :=
  match first.event.edge, second.event.edge with
  | some (true, up), some (false, down) =>
    some ⟨ticks usToNt start first, up, ticks usToNt start second, down⟩
  | _, _ => none

/-- The pulses of a channel: each rise that a fall follows at once. -/
def pulses (usToNt start : Nat) (events : List ChartEvent) : List UpDown :=
  (events.zip events.tail).filterMap fun pair => pulse usToNt start pair.1 pair.2

end Chart

section Split

variable {delimiter : Char} {fields : List Text} {text : Text}

theorem splitOnP_fields (plain : ∀ field ∈ fields, delimiter ∉ field) :
    (fields.flatMap (· ++ [delimiter])).splitOnP (· == delimiter) = fields ++ [[]] := by
  induction fields with
  | nil => rfl
  | cons field fields ih =>
    have here : ∀ c ∈ field, (c == delimiter) = false := fun c member =>
      beq_eq_false_iff_ne.mpr fun same => plain field List.mem_cons_self (same ▸ member)
    rw [List.flatMap_cons, List.append_assoc, List.singleton_append,
      List.splitOnP_append_cons_of_forall_mem here delimiter (beq_self_eq_true delimiter),
      ih fun field' member => plain field' (List.mem_cons_of_mem field member), List.cons_append]

/-- Fields that are each ended by the delimiter, the last one not empty. -/
theorem splitAt_fields (plain : ∀ field ∈ fields, delimiter ∉ field) {last : Text}
    (ends : fields.getLast? = some last) (some : last ≠ []) :
    splitAt delimiter (fields.flatMap (· ++ [delimiter])) = fields := by
  obtain ⟨front, rfl⟩ := List.getLast?_eq_some_iff.mp ends
  have there : delimiter ∈ (front ++ [last]).flatMap (· ++ [delimiter]) := by simp
  rw [splitAt, if_pos there, splitOnP_fields plain]
  simp [some]

theorem splitAt_one (none : delimiter ∉ text) : splitAt delimiter text = [text] := if_neg none

theorem splitAt_two {front back : Text} (none : delimiter ∉ front) (none' : delimiter ∉ back)
    (some : back ≠ []) : splitAt delimiter (front ++ delimiter :: back) = [front, back] := by
  have differs {text : Text} (none : delimiter ∉ text) : ∀ c ∈ text, (c == delimiter) = false :=
    fun c member => beq_eq_false_iff_ne.mpr fun same => none (same ▸ member)
  rw [splitAt, if_pos (by simp),
    List.splitOnP_append_cons_of_forall_mem (differs none) delimiter (beq_self_eq_true delimiter),
    List.splitOnP_eq_singleton (differs none')]
  simp [some]

end Split

section Numbers

theorem parseIntIn_spells {text : Text} {z : Int} (spells : Spells text z) (low : -2 ^ 31 ≤ z)
    (high : z < 2 ^ 31) : parseIntIn 10 text = some z := by
  have inRange : (some z).filter (fun n : Int => decide (-2 ^ 31 ≤ n ∧ n < 2 ^ 31)) = some z := by
    rw [Option.filter_some, decide_eq_true ⟨low, high⟩, if_pos rfl]
  cases spells with
  | plain digits some =>
    have first (sign : Char) (other : sign.isDigit = false) (rest : Text) : text ≠ sign :: rest := by
      rintro rfl
      rw [digits sign List.mem_cons_self] at other
      cases other
    rw [parseIntIn, digitsIn_decimal digits some]
    · exact inRange
    · exact first '-' (by decide)
    · exact first '+' (by decide)
  | minus digits some =>
    rw [parseIntIn, digitsIn_decimal digits some]
    exact inRange

theorem parseIntIn_spelling (number : BitVec 32) : parseIntIn 10 (spelling number.toInt) = some number.toInt :=
  parseIntIn_spells (spelling_spells _) number.le_toInt number.toInt_lt

theorem spelling_ne_nil (z : Int) : spelling z ≠ [] := by
  rw [spelling, ne_eq, List.append_eq_nil_iff]
  exact fun nothing => Nat.toDigits_ne_nil nothing.2

theorem spelling_plain (z : Int) {c : Char} (sign : c ≠ '-') (digit : c.isDigit = false) : c ∉ spelling z := by
  rw [spelling, List.mem_append]
  rintro (member | member)
  · split at member
    · exact sign (List.mem_singleton.mp member)
    · cases member
  · rw [digits_toDigits _ c member] at digit
    cases digit

end Numbers

section Messages

variable {event first second : SnifferEvent} {isRise : Bool} {index : Int}

/-- What an edge has for its direction and its index is found in its message again. -/
theorem edge_read (edge : event.edge = some (isRise, index)) :
    EngineReport.eventIndex event.msg = some index ∧
      List.isPrefixOf ['u'] event.msg = isRise ∧ List.isPrefixOf ['d'] event.msg = !isRise := by
  have plain (isRise : Bool) : EngineReport.eventIndex (SnifferEvent.upDown isRise) = some (-1) := by
    cases isRise <;> decide
  cases event with
  | outputPin name isRise' =>
    cases edge
    refine ⟨plain _, ?_⟩
    cases isRise <;> exact ⟨rfl, rfl⟩
  | tdc rpm => cases edge
  | crank wheelIndex triggerEventIndex isRise' =>
    cases edge
    constructor
    · have none : '_' ∉ SnifferEvent.upDown isRise := by cases isRise <;> decide
      rw [SnifferEvent.msg, EngineReport.eventIndex,
        splitAt_two none (spelling_plain _ (by decide) (by decide)) (spelling_ne_nil _)]
      exact parseIntIn_spelling triggerEventIndex
    · cases isRise <;> exact ⟨rfl, rfl⟩
  | vvt name isRise' =>
    cases edge
    refine ⟨plain _, ?_⟩
    cases isRise <;> exact ⟨rfl, rfl⟩

theorem no_edge (edge : event.edge = none) :
    List.isPrefixOf ['u'] event.msg = false ∧ List.isPrefixOf ['d'] event.msg = false := by
  cases event with
  | tdc rpm =>
    have absent {c : Char} (sign : c ≠ '-') (digit : c.isDigit = false) :
        List.isPrefixOf [c] (spelling rpm.toInt) = false := by
      rw [← Bool.not_eq_true, List.isPrefixOf_iff_prefix]
      intro first
      exact spelling_plain _ sign digit (first.subset List.mem_cons_self)
    exact ⟨absent (by decide) (by decide), absent (by decide) (by decide)⟩
  | outputPin name isRise => cases edge
  | crank wheelIndex triggerEventIndex isRise => cases edge
  | vvt name isRise => cases edge

end Messages

section Channels

variable {n usToNt start : Nat} {events : List ChartEvent} {first second : ChartEvent}

/-- What the parts of an event are, between the delimiters. -/
def ChartEvent.fields (usToNt start : Nat) (ev : ChartEvent) : List Text :=
  [ev.event.name, ev.event.msg, timeBuffer (time100 usToNt ev.nowNt start)]

/-- What the report of a channel has of an event. -/
def ChartEvent.reported (usToNt start : Nat) (ev : ChartEvent) : List Text :=
  [ev.event.msg, timeBuffer (time100 usToNt ev.nowNt start)]

def ended (fields : List Text) : Text := fields.flatMap (· ++ [chartDelimeter])

/-- The events of a channel. -/
def ofChannel (channel : Text) (events : List ChartEvent) : List ChartEvent :=
  events.filter (·.event.name = channel)

theorem unpackLoop_events (map : EngineChartParser.EngineChart) (events : List ChartEvent) (channel : Text) :
    (EngineChartParser.unpackLoop map (events.flatMap (·.fields usToNt start)) channel).getD [] =
      (map channel).getD [] ++ ended ((ofChannel channel events).flatMap (·.reported usToNt start)) := by
  induction events generalizing map with
  | nil => simp [EngineChartParser.unpackLoop, ofChannel, ended]
  | cons ev events ih =>
    rw [List.flatMap_cons, ChartEvent.fields]
    simp only [List.cons_append, List.nil_append, EngineChartParser.unpackLoop]
    rw [ih]
    by_cases here : ev.event.name = channel
    · subst here
      simp [ofChannel, ended, ChartEvent.reported]
    · rw [Function.update_of_ne (Ne.symm here), ofChannel, ofChannel,
        List.filter_cons_of_neg (by simpa using here)]

theorem unpackToMap_value (fits : ∀ ev ∈ events, ev.event.Fits) (channel : Text) :
    ((EngineChartParser.unpackToMap (Chart.text usToNt start events)) channel).getD [] =
      ended ((ofChannel channel events).flatMap (·.reported usToNt start)) := by
  have text : Chart.text usToNt start events =
      (events.flatMap (·.fields usToNt start)).flatMap (· ++ [chartDelimeter]) := by
    rw [Chart.text, List.flatMap_assoc]
    refine List.flatMap_congr fun ev _ => ?_
    simp [Chart.eventText, ChartEvent.fields]
  rcases List.eq_nil_or_concat' events with rfl | ⟨front, ev, rfl⟩
  · rfl
  · have plain : ∀ field ∈ (front ++ [ev]).flatMap (·.fields usToNt start), chartDelimeter ∉ field := by
      intro field member inside
      obtain ⟨ev', here, part⟩ := List.mem_flatMap.mp member
      obtain ⟨name, msg⟩ := (fits ev' here).clean
      simp only [ChartEvent.fields, List.mem_cons, List.not_mem_nil, or_false] at part
      rcases part with rfl | rfl | rfl
      · exact (name _ inside).2.2.1 rfl
      · exact (msg _ inside).2.2.1 rfl
      · exact (clean_spelling _ _ inside).2.2.1 rfl
    have last : ((front ++ [ev]).flatMap (·.fields usToNt start)).getLast? =
        some (timeBuffer (time100 usToNt ev.nowNt start)) := by
      simp [ChartEvent.fields]
    rw [EngineChartParser.unpackToMap, text, splitAt_fields plain last (spelling_ne_nil _), unpackLoop_events]
    rfl

theorem pulses_cons (first second : ChartEvent) (events : List ChartEvent) :
    Chart.pulses usToNt start (first :: second :: events) =
      (Chart.pulse usToNt start first second).toList ++ Chart.pulses usToNt start (second :: events) := by
  rw [Chart.pulses, List.tail_cons, List.zip_cons_cons, List.filterMap_cons]
  cases Chart.pulse usToNt start first second <;> rfl

/-- An event that is no rise begins no pulse. -/
theorem pulses_skip (fall : ∀ index, first.event.edge ≠ some (true, index)) (events : List ChartEvent) :
    Chart.pulses usToNt start (first :: events) = Chart.pulses usToNt start events := by
  cases events with
  | nil => rfl
  | cons second events =>
    have nothing : Chart.pulse usToNt start first second = none := by
      rw [Chart.pulse]
      split
      · next edge _ => exact absurd edge (fall _)
      · rfl
    rw [pulses_cons, nothing]
    rfl

theorem not_rise (edge : first.event.edge = none ∨ ∃ index, first.event.edge = some (false, index)) :
    List.isPrefixOf ['u'] first.event.msg = false ∧ ∀ index, first.event.edge ≠ some (true, index) := by
  rcases edge with none | ⟨index, fall⟩
  · exact ⟨(no_edge none).1, by simp [none]⟩
  · exact ⟨(edge_read fall).2.1, by simp [fall]⟩

theorem parseLoop_pulses (events : List ChartEvent) :
    EngineReport.parseLoop (events.flatMap (·.reported usToNt start)) = Chart.pulses usToNt start events := by
  induction size : events.length using Nat.strong_induction_on generalizing events with
  | _ size' ih =>
    rcases events with _ | ⟨first, _ | ⟨second, events⟩⟩
    · rfl
    · rfl
    have next := ih (second :: events).length (by rw [← size]; simp) (second :: events) rfl
    have behind := ih events.length (by rw [← size]; simp) events rfl
    have edges (ev : ChartEvent) : (ev.event.edge = none ∨ ∃ index, ev.event.edge = some (false, index)) ∨
        ∃ index, ev.event.edge = some (true, index) := by
      rcases edge : ev.event.edge with _ | ⟨_ | _, index⟩
      · exact .inl (.inl rfl)
      · exact .inl (.inr ⟨index, rfl⟩)
      · exact .inr ⟨index, rfl⟩
    simp only [List.flatMap_cons, ChartEvent.reported, List.cons_append, List.nil_append] at next behind ⊢
    rw [EngineReport.parseLoop]
    rcases edges first with still | ⟨up, rise⟩
    · obtain ⟨unread, fall⟩ := not_rise still
      rw [unread, pulses_skip fall, ← next]
      rfl
    obtain ⟨upIndex, upRead, -⟩ := edge_read rise
    rw [upRead]
    have lasting (unread : List.isPrefixOf ['d'] second.event.msg = false)
        (nothing : Chart.pulse usToNt start first second = none) :
        (if (!List.isPrefixOf ['d'] second.event.msg) = true then Chart.pulses usToNt start (second :: events)
        else (EngineReport.upDownOf first.event.msg (timeBuffer (time100 usToNt first.nowNt start))
            second.event.msg (timeBuffer (time100 usToNt second.nowNt start))).toList ++
          Chart.pulses usToNt start events) = Chart.pulses usToNt start (first :: second :: events) := by
      rw [unread, pulses_cons, nothing]
      rfl
    rw [Bool.not_true, if_neg Bool.false_ne_true, next, behind]
    rcases edge : second.event.edge with _ | ⟨_ | _, down⟩
    · exact lasting (no_edge edge).2 (by rw [Chart.pulse, rise, edge])
    · obtain ⟨downIndex, -, downRead⟩ := edge_read edge
      have pair : EngineReport.upDownOf first.event.msg (timeBuffer (time100 usToNt first.nowNt start))
          second.event.msg (timeBuffer (time100 usToNt second.nowNt start)) =
            Chart.pulse usToNt start first second := by
        rw [Chart.pulse, rise, edge, EngineReport.upDownOf, timeBuffer, timeBuffer, parseIntIn_spelling,
          parseIntIn_spelling, upIndex, downIndex]
        rfl
      have fall := (@not_rise second (.inr ⟨down, edge⟩)).2
      rw [downRead, pair, pulses_cons, pulses_skip fall]
      rfl
    · exact lasting (edge_read edge).2.2 (by rw [Chart.pulse, rise, edge])

/-- What the console shows of a channel are its pulses. -/
theorem displayed_pulses (fits : ∀ ev ∈ events, ev.event.Fits) (channel : Text) :
    displayed (Chart.text usToNt start events) channel =
      some (Chart.pulses usToNt start (ofChannel channel events)) := by
  rw [displayed, unpackToMap_value fits, EngineReport.parse]
  have fitsHere : ∀ ev ∈ ofChannel channel events, ev.event.Fits :=
    fun ev member => fits ev (List.mem_filter.mp member).1
  generalize ofChannel channel events = evs at fitsHere ⊢
  rcases List.eq_nil_or_concat' evs with rfl | ⟨front, last, rfl⟩
  · rfl
  have plain : ∀ field ∈ (front ++ [last]).flatMap (·.reported usToNt start), chartDelimeter ∉ field := by
    intro field member inside
    obtain ⟨ev, here, part⟩ := List.mem_flatMap.mp member
    simp only [ChartEvent.reported, List.mem_cons, List.not_mem_nil, or_false] at part
    rcases part with rfl | rfl
    · exact ((fitsHere ev here).clean.2 _ inside).2.2.1 rfl
    · exact (clean_spelling _ _ inside).2.2.1 rfl
  have ends : ((front ++ [last]).flatMap (·.reported usToNt start)).getLast? =
      some (timeBuffer (time100 usToNt last.nowNt start)) := by
    simp [ChartEvent.reported]
  rw [ended, splitAt_fields plain ends (spelling_ne_nil _)]
  obtain ⟨first, rest, same⟩ := List.exists_cons_of_ne_nil (show front ++ [last] ≠ [] by simp)
  rw [same, List.flatMap_cons, ChartEvent.reported, List.cons_append]
  dsimp only
  split
  · next down =>
    have unread : List.isPrefixOf ['u'] first.event.msg = false := by rw [down]; rfl
    have fall (index : Int) : first.event.edge ≠ some (true, index) := by
      intro rise
      rw [(edge_read rise).2.1] at unread
      cases unread
    rw [pulses_skip fall, ← parseLoop_pulses]
    rfl
  · rw [← parseLoop_pulses]
    rfl

end Channels

section Delivered

variable {n usToNt : Nat} {actions : List Text} {key : Text} {c c' : WaveChart n}

/-- `new String(freshData)`. -/
def textOf (bytes : List UInt8) : Text := bytes.map fun b => Char.ofNat b.toNat

theorem textOf_bytesOf {text : Text} (printable : ∀ c ∈ text, 32 ≤ c.toNat ∧ c.toNat < 127) :
    textOf (bytesOf text) = text := by
  rw [textOf, bytesOf, List.map_map]
  refine (List.map_congr_left fun c member => ?_).trans (List.map_id text)
  have small := (printable c member).2
  rw [Function.comp_apply, UInt8.toNat_ofNat', Nat.mod_eq_of_lt (by omega), Char.ofNat_toNat]
  rfl

/-- What the action of a key gets are the values behind that key. -/
theorem delivered_key (registered : Registered actions) (member : key ∈ actions)
    (segments : List (Text × Text)) :
    (segments.filterMap (delivery actions)).filter (·.1 = key) =
      (segments.filter (sameKey key ·.1)).map fun s => (key, s.2) := by
  induction segments with
  | nil => rfl
  | cons s segments ih =>
    rw [List.filterMap_cons]
    by_cases same : sameKey key s.1 = true
    · rw [find_sameKey registered member same]
      simp [same, ih]
    · have others : (s :: segments).filter (sameKey key ·.1) = segments.filter (sameKey key ·.1) :=
        List.filter_cons_of_neg same
      rw [others, ← ih]
      cases found : delivery actions s with
      | none => rfl
      | some d =>
        have other : d.1 ≠ key := by
          rintro rfl
          rw [delivery, Option.map_eq_some_iff] at found
          obtain ⟨key, here, rfl⟩ := found
          exact same (@List.find?_some _ (sameKey · s.1) _ _ here)
        simp [other]

/-- A text of the key, however the letters are written, has its value. -/
theorem value_eq (plain : fieldsLogDelimiter ∉ key) {s : Text × Text} (own : Plain s)
    (same : sameKey key s.1 = true) {value : Text} (ownValue : fieldsLogDelimiter ∉ value)
    (text : segment s = segment (key, value)) : s.2 = value := by
  have left := @handleStringActionPair_segment key [] plain s own
  have right := @handleStringActionPair_segment key [] plain (key, value) ⟨plain, ownValue⟩
  rw [text, right, if_pos same, if_pos (show sameKey key key = true from beq_self_eq_true _)] at left
  exact (Option.some.inj (Prod.mk.inj left).1).symm

theorem values_eq (plain : fieldsLogDelimiter ∉ key) {segments : List (Text × Text)} {values : List Text}
    (own : ∀ s ∈ segments, Plain s ∧ sameKey key s.1 = true)
    (ownValues : ∀ value ∈ values, fieldsLogDelimiter ∉ value)
    (texts : segments.map segment = values.map fun value => segment (key, value)) :
    segments.map (·.2) = values := by
  induction segments generalizing values with
  | nil => exact (List.map_eq_nil_iff.mp texts.symm).symm
  | cons s segments ih =>
    cases values with
    | nil => cases texts
    | cons value values =>
      obtain ⟨first, others⟩ := List.cons.inj texts
      obtain ⟨ownFirst, same⟩ := own s List.mem_cons_self
      rw [List.map_cons, value_eq plain ownFirst same (ownValues value List.mem_cons_self) first,
        ih (fun s' member => own s' (List.mem_cons_of_mem s member))
          (fun value' member => ownValues value' (List.mem_cons_of_mem value member)) others]

theorem textOf_published {events : List ChartEvent} (fits : ∀ ev ∈ events, ev.event.Fits) :
    textOf (Chart.published n usToNt events) = segment (protocolEngineSniffer, Chart.value n usToNt events) :=
  textOf_bytesOf (segment_printable fits)

/-- From the calls in the controller to the panel of the console: whatever else is sent on the same lines
and however the text is cut, the charts arrive in order, and every channel shows the pulses of the events
that there was room for. -/
theorem charts_displayed (large : 13 ≤ n) {buffer : FixedArray n UInt8} (made : WaveChart.init buffer = some c)
    {calls : List SnifferCall} (fits : ∀ call ∈ calls, call.Fits) {texts : List (List UInt8)}
    (ran : SnifferCall.run usToNt c calls = some (c', texts)) {r : Registry} (reached : Reached r)
    (known : protocolEngineSniffer ∈ r.actions) {lines : List TextLine}
    (formed : ∀ line ∈ lines, WellFormed line)
    (carried : ((lines.flatMap (·.segments)).filter (sameKey protocolEngineSniffer ·.1)).map segment =
      texts.map textOf)
    {rest : Text} (unfinished : ∀ c ∈ rest, ResponseBuffer.isEol c = false) {chunks : List Text}
    (stream : chunks.flatten = lines.flatMap TextLine.text ++ rest) :
    ((chunks.foldl (processNewData r.actions) {}).delivered.filter (·.1 = protocolEngineSniffer)).map
        (fun d => displayed d.2) =
      (Chart.run usToNt {} calls).2.map fun events channel =>
        some (Chart.pulses usToNt (Chart.startTimeNt events)
          (ofChannel channel (Chart.shown n usToNt events))) := by
  obtain ⟨c₁, made', shows⟩ := @init_shows n usToNt large buffer
  obtain rfl := Option.some.inj (made'.symm.trans made)
  obtain ⟨c₂, ran', -, taken⟩ := run_shows large shows (by simp) fits
  obtain rfl : texts = _ := (Prod.mk.inj (Option.some.inj (ran.symm.trans ran'))).2
  have delivered : (chunks.foldl (processNewData r.actions) {}).delivered =
      (lines.flatMap (·.segments)).filterMap (delivery r.actions) := by
    rw [processNewData_delivers reached lines formed unfinished stream, List.filterMap_flatMap]
    rfl
  have values : ((lines.flatMap (·.segments)).filter (sameKey protocolEngineSniffer ·.1)).map (·.2) =
      (Chart.run usToNt {} calls).2.map (Chart.value n usToNt) := by
    apply values_eq (reached.registered.1.plain _ known)
    · intro s member
      obtain ⟨inside, same⟩ := List.mem_filter.mp member
      obtain ⟨line, here, part⟩ := List.mem_flatMap.mp inside
      exact ⟨(formed line here).plain s part, same⟩
    · intro value member
      obtain ⟨events, here, rfl⟩ := List.mem_map.mp member
      exact fun inside => (value_readable (taken events here) _ inside).2.1 rfl
    · rw [carried, List.map_map, List.map_map]
      exact List.map_congr_left fun events here => textOf_published (taken events here)
  rw [delivered, delivered_key reached.registered.1 known, List.map_map]
  have shown := congrArg (List.map displayed) values
  rw [List.map_map, List.map_map] at shown
  refine shown.trans (List.map_congr_left fun events here => funext fun channel => displayed_pulses ?_ channel)
  exact fun ev member => taken events here ev ((Chart.fitting_prefix _ _).subset member)

def fourEventsLine : TextLine :=
  ⟨[], [(['m'], ['x']), (protocolEngineSniffer, fourEventsValue)], ['\r', '\n']⟩

/-- The pin that rose and fell, behind another key. -/
theorem charts_displayed_fourEvents :
    (([fourEventsLine.text].foldl (processNewData [['m'], protocolEngineSniffer]) {}).delivered.filter
        (·.1 = protocolEngineSniffer)).map (fun d => displayed d.2 ['i', '1']) = [some [⟨0, -1, 3, -1⟩]] := by
  have first : Reached { actions := [['m']], keys := [['m']] } :=
    @Reached.register {} _ ['m'] .empty (by decide) rfl
  have second : Reached { actions := [['m'], protocolEngineSniffer], keys := [protocolEngineSniffer, ['m']] } :=
    @Reached.register _ _ protocolEngineSniffer first (by decide) rfl
  have quiet {text : Text} (none : text.any ResponseBuffer.isEol = false) :
      ∀ c ∈ text, ResponseBuffer.isEol c = false :=
    fun c member => Bool.eq_false_iff.mpr (List.any_eq_false.mp none c member)
  have formed : ∀ line ∈ [fourEventsLine], WellFormed line :=
    List.forall_mem_singleton.mpr ⟨quiet (by decide), ⟨by decide, List.all_eq_true.mp (by decide)⟩,
      List.forall_mem_cons.mpr ⟨by decide, List.forall_mem_singleton.mpr (by decide)⟩,
      .inl ⟨by decide, by decide⟩⟩
  obtain ⟨c, made, shows⟩ := @init_shows 80 4 (by decide) (.fill 0)
  obtain ⟨c', ran, -⟩ := run_shows (by decide) shows (by simp) fourEvents_fit
  rw [fourEvents_published] at ran
  have shown := charts_displayed (by decide) made fourEvents_fit ran second (by decide) formed (by decide)
    (@quiet [] (by decide)) (show [fourEventsLine.text].flatten = _ by decide)
  have pin := congrArg (List.map (· ['i', '1'])) shown
  rw [List.map_map, List.map_map] at pin
  exact pin.trans (by decide +kernel)

end Delivered

end FomeFw.Console
