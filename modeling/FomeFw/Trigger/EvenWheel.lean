import FomeFw.Trigger.NextTooth

/-! Custom wheels without missing teeth. Nothing tells one tooth from another: the decoder
is synchronized by the first rise and counts from there, so initialization accepts every such
wheel, however its number of teeth goes with the arrays of a whole engine cycle. -/
namespace FomeFw.Trigger
open TriggerStimulatorHelper TriggerWaveform

variable {shape : TriggerWaveform} {mode : OperationMode} {teeth : Nat}

/-- The wave form of a wheel with all its teeth. -/
structure IsEvenWheel (shape : TriggerWaveform) (operationMode : OperationMode) (teeth : Nat) : Prop
    extends IsToothedWheel shape operationMode teeth where
  some : 0 < teeth
  events : shape.events = (List.range teeth).flatMap (toothEvents teeth)
  counts : shape.isSynchronizationNeeded = false

section Building

theorem wheelEvents_even (some : 0 < teeth) :
    wheelEvents teeth teeth = (List.range teeth).flatMap (toothEvents teeth) := by
  obtain ⟨k, rfl⟩ := Nat.exists_eq_add_one_of_ne_zero some.ne'
  have total : (((k + 1 : Nat) : ℚ)) ≠ 0 := by exact_mod_cast Nat.succ_ne_zero k
  have last : ((k : ℚ) + 1) / ((k + 1 : Nat) : ℚ) = 1 := by
    rw [Nat.cast_succ] at total ⊢
    exact div_self total
  rw [wheelEvents, List.range_succ, List.flatMap_append, Nat.add_sub_cancel]
  simp only [List.flatMap_cons, List.flatMap_nil, List.append_nil, toothEvents, last]

theorem initializeToothedWheel_isEvenWheel (some : 0 < teeth) (room : 2 * teeth ≤ phaseMaxCount)
    (twoStroke skippedWheelOnCam : Bool) :
    let engineConfiguration : ToothedWheelConfiguration := ⟨teeth, 0, twoStroke, skippedWheelOnCam⟩
    ∃ shape, initializeToothedWheel engineConfiguration = .some shape ∧
      IsEvenWheel shape (lookupOperationMode engineConfiguration) teeth := by
  intro engineConfiguration
  obtain ⟨shape, made, wheel⟩ := @initializeToothedWheel_isToothedWheel _ 0
    some room twoStroke skippedWheelOnCam
  obtain ⟨built, run, same⟩ := @initializeSkippedToothTrigger_withEvents _ _ 0 some rfl room
    (lookupOperationMode engineConfiguration) .riseOnly
  have again : shape = built.calculateExpectedEventCounts := by
    have ran : initializeToothedWheel engineConfiguration =
        .some built.calculateExpectedEventCounts := by
      rw [initializeToothedWheel]
      exact congrArg (·.bind fun s => .some s.calculateExpectedEventCounts) run
    exact Option.some.inj (made.symm.trans ran)
  have events : built.events = (List.range teeth).flatMap (toothEvents teeth) :=
    same.events_eq.trans (wheelEvents_even some)
  have counts : built.isSynchronizationNeeded = false := by
    obtain ⟨_, _, _, _, rfl⟩ := same
    simp [toothlessWheel, setIsSynchronizationNeeded]
  refine ⟨shape, made, wheel, some, ?_, ?_⟩
  · rw [again]
    rcases built.calculateExpectedEventCounts_or with plain | plain <;> rw [plain] <;> exact events
  · rw [again]
    rcases built.calculateExpectedEventCounts_or with plain | plain <;> rw [plain] <;> exact counts

end Building

section Edges

/-- The two edges of a tooth, in the list of all. -/
theorem teeth_getElem? {k i : Nat} (inside : i < k) :
    ((List.range k).flatMap (toothEvents teeth))[2 * i]? =
        some ⟨((i : ℚ) + 1 / 2) / teeth, true, .primary⟩ ∧
      ((List.range k).flatMap (toothEvents teeth))[2 * i + 1]? =
        some ⟨((i : ℚ) + 1) / teeth, false, .primary⟩ := by
  induction k with
  | zero => omega
  | succ k ih =>
    have length := @teeth_length teeth k
    rw [List.range_succ, List.flatMap_append]
    by_cases before : i < k
    · rw [List.getElem?_append_left (by omega), List.getElem?_append_left (by omega)]
      exact ih before
    · obtain rfl : i = k := by omega
      rw [List.getElem?_append_right (by omega), List.getElem?_append_right (by omega), length,
        Nat.sub_self, Nat.add_sub_cancel_left]
      exact ⟨rfl, rfl⟩

variable (wheel : IsEvenWheel shape mode teeth)
include wheel

theorem IsEvenWheel.event {j : Nat} (inside : j < shape.getSize) :
    ∃ angle, shape.events[j]? = .some ⟨angle, decide (j % 2 = 0), .primary⟩ ∧
      (j % 2 = 0 → angle = ((j / 2 : Nat) + 1 / 2) / teeth) := by
  have size := wheel.size
  obtain ⟨rise, fall⟩ := @teeth_getElem? teeth _ _ (show j / 2 < teeth by omega)
  rw [wheel.events]
  rcases Nat.mod_two_eq_zero_or_one j with even | odd
  · rw [show 2 * (j / 2) = j by omega] at rise
    exact ⟨_, by rw [rise, decide_eq_true even], fun _ => rfl⟩
  · rw [show 2 * (j / 2) + 1 = j by omega] at fall
    exact ⟨_, by rw [fall, decide_eq_false (by omega)], fun even => by omega⟩

theorem IsEvenWheel.isRiseEvent {j : Nat} (inside : j < shape.getSize) :
    shape.isRiseEvent j = decide (j % 2 = 0) := by
  obtain ⟨angle, event, -⟩ := wheel.event inside
  simp [TriggerWaveform.isRiseEvent, event]

theorem IsEvenWheel.channelIndex (j : Nat) : shape.channelIndex j = .primary := by
  by_cases inside : j < shape.getSize
  · obtain ⟨angle, event, -⟩ := wheel.event inside
    simp [TriggerWaveform.channelIndex, event]
  · simp [TriggerWaveform.channelIndex, List.getElem?_eq_none (Nat.le_of_not_lt inside)]

theorem IsEvenWheel.getSwitchTime {k : Nat} (inside : k < teeth) :
    shape.getSwitchTime (2 * k) = ((k : ℚ) + 1 / 2) / teeth := by
  obtain ⟨angle, event, even⟩ := wheel.event (show 2 * k < shape.getSize by
    rw [wheel.size]
    omega)
  simp only [TriggerWaveform.getSwitchTime, event, Option.map_some, Option.getD_some,
    even (by omega), Nat.mul_div_cancel_left k Nat.two_pos]

/-- The turns up to the `k`-th rise. -/
theorem IsEvenWheel.turned (k : Nat) :
    ((k / teeth : Nat) : ℚ) + shape.getSwitchTime (2 * (k % teeth)) =
      ((k : ℚ) + 1 / 2) / teeth := by
  have total : (teeth : ℚ) ≠ 0 := by exact_mod_cast wheel.some.ne'
  have split : (k : ℚ) = teeth * (k / teeth : Nat) + (k % teeth : Nat) := by
    exact_mod_cast (Nat.div_add_mod k teeth).symm
  rw [wheel.getSwitchTime (Nat.mod_lt k wheel.some)]
  conv_rhs => rw [split]
  field_simp
  ring

/-- The second channel stays low. -/
theorem IsEvenWheel.secondary_low (j : Nat) : shape.getChannelState .secondary j = false := by
  induction j with
  | zero => simp [getChannelState, wheel.channelIndex]
  | succ j ih => simp [getChannelState, wheel.channelIndex, ih]

theorem IsEvenWheel.edgesOnly : shape.EdgesOnly := by
  intro j inside channel
  rw [wheel.channelIndex]
  cases channel with
  | secondary => simp [needEvent, wheel.secondary_low]
  | primary =>
    have level : ∀ i < shape.getSize, shape.getChannelState .primary i = decide (i % 2 = 0) := by
      intro i within
      rw [← wheel.isRiseEvent within, ← getChannelState_event, wheel.channelIndex]
    have previous : getPreviousIndex j shape.getSize < shape.getSize := Nat.mod_lt _ (by omega)
    have size := wheel.size
    have parity : getPreviousIndex j shape.getSize % 2 ≠ j % 2 := by
      rw [getPreviousIndex, size, Nat.mod_mod_of_dvd _ (Nat.dvd_mul_right 2 teeth)]
      omega
    simp only [needEvent, level _ inside, level _ previous, iff_true, decide_eq_true_eq, ne_eq,
      decide_eq_decide]
    omega

theorem IsEvenWheel.useful_iff (j : Nat) : shape.Useful j ↔ j % 2 = 0 := by
  have size := wheel.size
  have inside : j % shape.getSize < shape.getSize := Nat.mod_lt _ (by have := wheel.some; omega)
  rw [TriggerWaveform.useful_iff, wheel.isRiseEvent inside, size,
    Nat.mod_mod_of_dvd _ (Nat.dvd_mul_right 2 teeth)]
  simp [wheel.riseOnly]

theorem IsEvenWheel.signalAt {j : Nat} (even : j % 2 = 0) : shape.signalAt j = .primaryRising := by
  have useful := (wheel.useful_iff j).mpr even
  rw [TriggerWaveform.useful_iff] at useful
  rw [TriggerWaveform.signalAt, wheel.channelIndex, useful wheel.riseOnly]
  rfl

end Edges

section Counting
open TriggerDecoder TriggerDecoderBase
variable {σ : Type} {kind : DecoderKind σ} {config : TriggerConfiguration} {input : EdgeInput}
  {d : TriggerDecoder σ} {r : Nat}

/-- The decoder at the `r`-th tooth after the first one, with so many edges counted. -/
structure AtTooth (teeth r edges : Nat) (b : TriggerDecoderBase) : Prop where
  shaft : b.shaftIsSynchronized = true
  counter : b.crankSynchronizationCounter = r / teeth % 2 ^ 16
  index : b.currentCycle.currentIndex = 2 * (r % teeth)
  eventCount : b.currentCycle.eventCount = Function.update (fun _ => 0) .primary edges

variable (wheel : IsEvenWheel shape mode teeth)
include wheel

theorem IsEvenWheel.expected :
    shape.getExpectedEventCount = Function.update (fun _ => 0) .primary teeth := by
  funext channel
  cases channel with
  | primary => exact wheel.primary
  | secondary => exact wheel.secondary

/-- At a tooth the index is valid, so the last check changes nothing. -/
theorem IsEvenWheel.finishEdge {edges : Nat} (tooth : AtTooth teeth r edges d.base) (rpm : ℚ) :
    AtTooth teeth r edges (d.finishEdge kind shape rpm).1.base ∧
      (d.finishEdge kind shape rpm).2 = .some (2 * (r % teeth)) := by
  have finished := @finishEdge_spec _ kind shape rpm d
  have valid : d.tooManyTeeth shape = false := by
    have inside := Nat.mod_lt r wheel.some
    have size := wheel.size
    simp only [tooManyTeeth, tooth.shaft, tooth.index, Bool.true_and, decide_eq_false_iff_not]
    omega
  have shaft : (d.finishEdge kind shape rpm).1.base.shaftIsSynchronized = true := by
    rw [finished.shaft, valid, tooth.shaft]
    rfl
  constructor
  · constructor
    · exact shaft
    · rw [finished.counter, tooth.counter]
    · rw [finished.currentCycle, tooth.index]
    · rw [finished.currentCycle, tooth.eventCount]
  · rw [finished.index, shaft, if_pos rfl, finished.currentCycle, tooth.index]

theorem IsEvenWheel.considers (rising : input.signal = .primaryRising) :
    d.decodeTriggerEvent kind shape config input =
      ((d.noted kind shape input).considerEdge kind shape config input).finishEdge kind shape
        input.rpm := by
  have edge : shape.syncEdge = .riseOnly := by simpa [useOnlyRisingEdges] using wheel.riseOnly
  have considered : shape.shouldConsiderEdge input.signal.wheel input.signal.isRising = true := by
    rw [rising]
    simp [shouldConsiderEdge, TriggerEvent.wheel, TriggerEvent.isRising, edge]
  rw [decodeTriggerEvent_eq, counted]
  simp only [considered, if_true]

/-- The first rise synchronizes. -/
theorem IsEvenWheel.first (rising : input.signal = .primaryRising)
    (before : d.base.shaftIsSynchronized = false) :
    AtTooth teeth 0 0 (d.decodeTriggerEvent kind shape config input).1.base ∧
      (d.decodeTriggerEvent kind shape config input).2 = .some 0 := by
  have noted := @noted_spec _ kind shape input d
  have considered := @considerEdge_spec _ kind shape config input (d.noted kind shape input)
  have unsynchronized : (d.noted kind shape input).base.shaftIsSynchronized = false := by
    rw [noted.shaft, before, Bool.false_and]
  have closes : (d.noted kind shape input).base.closesCycle shape config input.rpm = true := by
    simp [closesCycle, wheel.counts, unsynchronized]
  have tooth : AtTooth teeth 0 0
      ((d.noted kind shape input).considerEdge kind shape config input).base := by
    constructor
    · rw [considered.shaft, closes, if_pos rfl, unsynchronized]
      rfl
    · rw [considered.counter, closes, if_pos rfl, unsynchronized, Nat.zero_div]
      rfl
    · rw [considered.index, closes, if_pos rfl, Nat.zero_mod]
    · rw [considered.eventCount, closes, if_pos rfl, Function.update_eq_self]
  rw [wheel.considers rising]
  obtain ⟨after, result⟩ := wheel.finishEdge tooth input.rpm
  exact ⟨after, result.trans (by rw [Nat.zero_mod])⟩

/-- The last rise of a turn closes it. -/
theorem IsEvenWheel.closesCycle {edges : Nat} (tooth : AtTooth teeth r edges d.base) (rpm : ℚ) :
    d.base.closesCycle shape config rpm = decide (r % teeth + 1 = teeth) := by
  have room : 2 * teeth ≤ 280 := wheel.size ▸ shape.capacity
  have inside := Nat.mod_lt r wheel.some
  have step : shape.indexStep = 2 := by simp [indexStep, wheel.riseOnly]
  have atLeast : 2 * (r % teeth) ≥ (2 * teeth + 2 ^ 32 - 2) % 2 ^ 32 ↔ r % teeth + 1 = teeth := by
    omega
  simp only [TriggerDecoderBase.closesCycle, wheel.counts, tooth.shaft, tooth.index, wheel.size,
    step, Bool.false_eq_true, if_false, Bool.not_true, Bool.false_or, atLeast]

/-- A rise that was counted leads to the next tooth. -/
theorem IsEvenWheel.considerEdge (tooth : AtTooth teeth r (r % teeth + 1) d.base) :
    AtTooth teeth (r + 1) ((r + 1) % teeth) (d.considerEdge kind shape config input).base := by
  have considered := @considerEdge_spec _ kind shape config input d
  have closes : d.base.closesCycle shape config input.rpm = decide (r % teeth + 1 = teeth) :=
    wheel.closesCycle tooth input.rpm
  have step : shape.indexStep = 2 := by simp [indexStep, wheel.riseOnly]
  by_cases last : r % teeth + 1 = teeth
  · have right : d.base.validateEventCounters shape = false := by
      rw [validateEventCounters_eq_false, tooth.eventCount, last, wheel.expected]
    obtain ⟨turn, start⟩ := Turning.next_turn last
    rw [decide_eq_true last] at closes
    constructor
    · rw [considered.shaft, closes, if_pos rfl, right, Bool.and_false]
      rfl
    · rw [considered.counter, closes, if_pos rfl, tooth.shaft, if_pos rfl, tooth.counter, turn,
        Nat.mod_add_mod]
    · rw [considered.index, closes, if_pos rfl, start]
    · rw [considered.eventCount, closes, if_pos rfl, start, Function.update_eq_self]
  · have inside := Nat.mod_lt r wheel.some
    obtain ⟨turn, further⟩ := Turning.next_position (show r % teeth + 1 < teeth by omega)
    have kept : d.base.dropsShaft shape config input.rpm = false := by
      simp [dropsShaft, wheel.counts]
    rw [decide_eq_false last] at closes
    have still : (d.considerEdge kind shape config input).base.shaftIsSynchronized = true := by
      rw [considered.shaft, closes, kept, tooth.shaft]
      rfl
    constructor
    · exact still
    · rw [considered.counter, closes, if_neg Bool.false_ne_true, tooth.counter, turn]
    · rw [considered.index, closes, if_neg Bool.false_ne_true, still, if_pos rfl, tooth.index, step,
        further, Nat.mul_add]
    · rw [considered.eventCount, closes, if_neg Bool.false_ne_true, tooth.eventCount, further]

/-- Every further rise in time is counted. -/
theorem IsEvenWheel.next (rising : input.signal = .primaryRising)
    (tooth : AtTooth teeth r (r % teeth) d.base)
    (inTime : d.base.timedOut shape input.nowNt = false) :
    AtTooth teeth (r + 1) ((r + 1) % teeth)
      (d.decodeTriggerEvent kind shape config input).1.base := by
  have noted := @noted_spec _ kind shape input d
  have goesOn : d.restarts kind shape input = false := by simp [restarts, inTime]
  have counted : AtTooth teeth r (r % teeth + 1) (d.noted kind shape input).base := by
    constructor
    · simp [noted.shaft, tooth.shaft, inTime]
    · simp [noted.counter, goesOn, tooth.counter]
    · simp [noted.index, goesOn, tooth.index]
    · simp [noted.eventCount, goesOn, tooth.eventCount, rising, TriggerEvent.wheel]
  rw [wheel.considers rising]
  exact (wheel.finishEdge (wheel.considerEdge counted) input.rpm).1

end Counting

section Simulation
variable {config : TriggerConfiguration} {rpm : ℚ} {state : TriggerDecoder Unit}
variable (wheel : IsEvenWheel shape mode teeth)
include wheel

/-- The rises come at equal distances. -/
theorem IsEvenWheel.getSimulatedEventTime (r : Nat) :
    shape.getSimulatedEventTime (2 * r) =
      ⌊(simulationCyclePeriod : ℚ) * (((r : ℚ) + 1 / 2) / teeth)⌋ := by
  rw [TriggerWaveform.getSimulatedEventTime]
  simp only [wheel.size, Nat.mul_div_mul_left _ _ Nat.two_pos, Nat.mul_mod_mul_left, wheel.turned]

/-- With two teeth or more the next rise comes within a tenth of a second. -/
theorem IsEvenWheel.inTime (two : 2 ≤ teeth) (r : Nat) {b : TriggerDecoderBase}
    (last : b.previousEventTimer = shape.getSimulatedEventTime (2 * r)) :
    b.timedOut shape (shape.getSimulatedEventTime (2 * (r + 1))) = false := by
  have half : (simulationCyclePeriod : ℚ) * ((1 : ℚ) / teeth) ≤ (360000 : Int) := by
    have total : (2 : ℚ) ≤ teeth := by exact_mod_cast two
    rw [mul_one_div, div_le_iff₀ (by linarith)]
    push_cast
    linarith
  have soon : shape.getSimulatedEventTime (2 * (r + 1)) ≤
      shape.getSimulatedEventTime (2 * r) + 360000 := by
    rw [wheel.getSimulatedEventTime, wheel.getSimulatedEventTime, ← Int.floor_add_intCast]
    apply Int.floor_le_floor
    rw [show (((r + 1 : Nat) : ℚ) + 1 / 2) / teeth = ((r : ℚ) + 1 / 2) / teeth + 1 / teeth by
      push_cast
      ring, mul_add]
    exact add_le_add_right half _
  have short : getElapsedSeconds b.previousEventTimer (shape.getSimulatedEventTime (2 * (r + 1))) ≤
      1 / 10 := by
    rw [getElapsedSeconds, last]
    split
    · norm_num
    · have quarter : min (shape.getSimulatedEventTime (2 * (r + 1)) -
          shape.getSimulatedEventTime (2 * r)) (2 ^ 32 - 2) / usToNt ≤ 90000 := by
        rw [show usToNt = 4 from rfl]
        omega
      have cast : ((min (shape.getSimulatedEventTime (2 * (r + 1)) -
          shape.getSimulatedEventTime (2 * r)) (2 ^ 32 - 2) / usToNt : Int) : ℚ) ≤ 90000 := by
        exact_mod_cast quarter
      linarith
  have timeout : 1 / 10 ≤ shape.triggerTimeoutPeriod := by
    rw [triggerTimeoutPeriod]
    split
    · norm_num
    · exact le_max_left _ _
  simp only [TriggerDecoderBase.timedOut, decide_eq_false_iff_not, gt_iff_lt, not_lt]
  exact short.trans timeout

theorem IsEvenWheel.feed {i : Nat} : feedSimulatedEvent shape config rpm state i =
    if i % 2 = 0 then (state.decodeTriggerEvent TriggerDecoderBase.kind shape config
      ⟨.primaryRising, shape.getSimulatedEventTime i, rpm⟩).1 else state := by
  have some : 0 < shape.getSize := by
    rw [wheel.size]
    exact Nat.mul_pos Nat.two_pos wheel.some
  rw [feedSimulatedEvent_eq wheel.edgesOnly some, WheelSetup.decode]
  have useful := wheel.useful_iff i
  split
  · next shown =>
    have even := useful.mp shown
    have signal := wheel.signalAt even
    rw [if_pos even, ← signal]
    rfl
  · next unseen => rw [if_neg (mt useful.mpr unseen)]

/-- The first event of the simulation is a rise. -/
theorem IsEvenWheel.synchronizes (before : state.base.shaftIsSynchronized = false) :
    let after := feedSimulatedEvent shape config rpm state 0
    AtTooth teeth 0 0 after.base ∧
      after.base.previousEventTimer = shape.getSimulatedEventTime 0 := by
  rw [wheel.feed, if_pos rfl]
  exact ⟨(wheel.first rfl before).1, TriggerDecoder.decodeTriggerEvent_eventTimer⟩

/-- From the first rise on the simulation goes on from tooth to tooth. -/
theorem IsEvenWheel.simulation (two : 2 ≤ teeth) (before : state.base.shaftIsSynchronized = false)
    (m : Nat) :
    let after := (List.range' 1 m).foldl (feedSimulatedEvent shape config rpm)
      (feedSimulatedEvent shape config rpm state 0)
    AtTooth teeth (m / 2) (m / 2 % teeth) after.base ∧
      after.base.previousEventTimer = shape.getSimulatedEventTime (2 * (m / 2)) := by
  induction m with
  | zero =>
    rw [Nat.zero_div, Nat.zero_mod]
    exact wheel.synchronizes before
  | succ m ih =>
    obtain ⟨tooth, timer⟩ := ih
    rw [List.range'_1_concat, List.foldl_append, List.foldl_cons, List.foldl_nil,
      wheel.feed]
    split
    · next even =>
      have further : (m + 1) / 2 = m / 2 + 1 := by omega
      have position : 1 + m = 2 * (m / 2 + 1) := by omega
      rw [further, position]
      exact ⟨wheel.next rfl tooth (wheel.inTime two _ timer),
        TriggerDecoder.decodeTriggerEvent_eventTimer⟩
    · next odd =>
      have same : (m + 1) / 2 = m / 2 := by omega
      rw [same]
      exact ⟨tooth, timer⟩

/-- Initialization accepts the wheel, whose sync point is its first rise. -/
theorem IsEvenWheel.accepted (two : 2 ≤ teeth) (room : 2 * teeth < phaseMaxCount)
    (config : TriggerConfiguration) (rpm : ℚ) (initState : TriggerDecoder Unit) :
    shape.calculateTriggerSynchPoint config rpm initState = ⟨.some 0, false⟩ := by
  have before : (initState.resetState TriggerDecoderBase.kind).base.shaftIsSynchronized = false :=
    rfl
  have start := (@synchronizes _ _ _ config rpm _ wheel before).1
  have finish :=
    (@simulation _ _ _ config rpm _ wheel two before (testRevolutions * shape.getSize)).1
  have turns : testRevolutions * shape.getSize / 2 / teeth = testRevolutions := by
    rw [wheel.size, Nat.mul_left_comm, Nat.mul_div_cancel_left _ Nat.two_pos,
      Nat.mul_div_cancel _ wheel.some]
  have first : findTriggerSyncPoint shape config rpm (4 * phaseMaxCount) 0
      (initState.resetState TriggerDecoderBase.kind) = .some (0,
        feedSimulatedEvent shape config rpm
          (initState.resetState TriggerDecoderBase.kind) 0) := by
    rw [show 4 * phaseMaxCount = 1119 + 1 from rfl, findTriggerSyncPoint]
    exact if_pos start.shaft
  have every : assertSyncPosition shape config rpm 0 (feedSimulatedEvent
      shape config rpm (initState.resetState TriggerDecoderBase.kind) 0) = false := by
    rw [assertSyncPosition, decide_eq_false_iff_not, not_not]
    rw [finish.counter, turns]
    rfl
  have few : ¬ shape.getSize ≥ phaseMaxCount := by
    rw [wheel.size]
    omega
  rw [calculateTriggerSynchPoint, if_neg few, TriggerDecoderBase.findTriggerZeroEventIndex]
  simp only [first, every]
  rw [if_pos (start.counter.trans (by rw [Nat.zero_div, Nat.zero_mod])), Nat.zero_mod]

end Simulation

section Table
open Turning
variable (wheel : IsEvenWheel shape mode teeth)
include wheel

theorem IsEvenWheel.marks (k : Nat) : marks shape.Useful 1 (2 * k + 1) = k := by
  induction k with
  | zero => exact marks_self 1
  | succ k ih =>
    have fall : ¬ shape.Useful (2 * k + 1) := by
      rw [wheel.useful_iff]
      omega
    have rise : shape.Useful (2 * k + 2) := by
      rw [wheel.useful_iff]
      omega
    rw [show 2 * (k + 1) + 1 = 2 * k + 1 + 1 + 1 by omega, marks_succ (by omega), if_pos rise,
      marks_succ (by omega), if_neg fall, ih]

theorem IsEvenWheel.getAngle (k : Nat) :
    shape.getAngle (2 * k) = shape.getCycleDuration * (((k : ℚ) + 1 / 2) / teeth) := by
  rw [TriggerWaveform.getAngle]
  simp only [getSwitchAngle, wheel.size, Nat.mul_div_mul_left _ _ Nat.two_pos, Nat.mul_mod_mul_left,
    ← mul_add, wheel.turned]

/-- The table has a pair of equal angles for each tooth. -/
theorem IsEvenWheel.prepareEventAngles {j : Nat} (inside : j < shape.getLength) :
    shape.prepareEventAngles 0 j = shape.getCycleDuration / teeth * (j / 2 : Nat) := by
  have some : 0 < shape.getSize := by
    rw [wheel.size]
    exact Nat.mul_pos Nat.two_pos wheel.some
  have useful : shape.Useful (0 + 2 * (j / 2)) := by
    rw [wheel.useful_iff]
    omega
  have index : shape.indexOf 0 (2 * (j / 2)) = 2 * (j / 2) := by
    rw [indexOf, indexStep, if_pos wheel.riseOnly, Nat.zero_add, Nat.zero_add, wheel.marks]
  have within : 2 * (j / 2) < shape.getLength := by omega
  have even : shape.prepareEventAngles 0 (2 * (j / 2)) =
      shape.getCycleDuration / teeth * (j / 2 : Nat) := by
    have entry := prepareEventAngles_indexOf some within useful
    have first : shape.getAngle 0 = shape.getCycleDuration * (((0 : Nat) + 1 / 2) / teeth) :=
      wheel.getAngle 0
    rw [index, relativeAngle_eq some within, Nat.zero_add, wheel.getAngle, first] at entry
    rw [entry, Nat.cast_zero]
    ring
  rcases (by omega : j = 2 * (j / 2) ∨ j = 2 * (j / 2) + 1) with rise | fall
  · rwa [← rise] at even
  · rw [(prepareEventAngles_filled some).2 wheel.riseOnly, ← fall] at even
    exact even

theorem IsEvenWheel.prepareEventAngles_mono {i j : Nat} (order : i ≤ j)
    (inside : j < shape.getLength) :
    shape.prepareEventAngles 0 i ≤ shape.prepareEventAngles 0 j := by
  rw [wheel.prepareEventAngles (order.trans_lt inside), wheel.prepareEventAngles inside]
  have earlier : ((i / 2 : Nat) : ℚ) ≤ (j / 2 : Nat) := by
    exact_mod_cast Nat.div_le_div_right order
  exact mul_le_mul_of_nonneg_left earlier
    (div_nonneg shape.getCycleDuration_pos.le (Nat.cast_nonneg _))

end Table

end FomeFw.Trigger
