import FomeFw.Lib.Machine
import FomeFw.Timer.PwmGenerator

/-! How deep the calls of `timerCallback` are nested. The callback schedules itself, and the
scheduler may run callbacks before it returns, so the calls of one output form a stack. -/
namespace FomeFw.Timer
open Machine

/-- An output with what is pending and running. -/
structure PwmOutput where
  config : PwmConfig
  /-- The moment for which its callback is scheduled. -/
  scheduled : Option Tick := none
  /-- The calls that are in the scheduler, the innermost first, by the level they began at. -/
  active : List Int := []
  /-- The calls that are over, by the level they began and ended at; no function reads them. -/
  finished : List (Int × Int) := []

inductive PwmEvent where
  | weComplexInit (seq : PwmSequence) (pwmCycleCallback stateChangeCallback : Bool)
    (nowNt laterNt : Tick)
  | stop
  | setFrequency (frequency : Option ℚ)
  | setSimplePwmDutyCycle (dutyCycle : Option ℚ)
  /-- The scheduler runs the callback that is due. -/
  | timerCallback (nowNt laterNt : Tick)
  /-- The innermost call comes back from the scheduler. -/
  | scheduled

namespace PwmOutput

def finish (o : PwmOutput) (before : Int) : PwmOutput :=
  { o with finished := o.finished ++ [(before, o.config.dbgNestingLevel)] }

/-- `timerCallback` up to its call of the scheduler, or up to its return before that. -/
def timerCallback (o : PwmOutput) (port : Port) (nowNt laterNt : Tick) : PwmOutput :=
  let before := o.config.dbgNestingLevel
  let c : PwmConfig := { o.config with dbgNestingLevel := before + 1 }
  if c.dbgNestingLevel < 25 then
    let (switchTimeNt, c) := c.togglePwmState port nowNt laterNt
    if switchTimeNt = 0 then
      -- we are here when PWM gets stopped
      finish { o with config := c } before
    else { o with config := c, scheduled := some switchTimeNt, active := before :: o.active }
  else finish { o with config := c.error .nestingIssue } before

/-- What is left of `timerCallback` after the scheduler. -/
def leave (o : PwmOutput) : PwmOutput :=
  match o.active with
  | [] => o
  | before :: active =>
    finish
      { o with
        config := { o.config with dbgNestingLevel := o.config.dbgNestingLevel - 1 }
        active := active } before

def step (port : Port) (o : PwmOutput) : PwmEvent → PwmOutput
  | .weComplexInit seq cycle stateChange nowNt laterNt =>
    let (calls, c) := o.config.weComplexInit seq cycle stateChange
    if calls then timerCallback { o with config := c } port nowNt laterNt else { o with config := c }
  | .stop => { o with config := o.config.stop }
  | .setFrequency frequency => { o with config := o.config.setFrequency port frequency }
  | .setSimplePwmDutyCycle dutyCycle => { o with config := o.config.setSimplePwmDutyCycle dutyCycle }
  | .timerCallback nowNt laterNt =>
    match o.scheduled with
    | none => o
    | some due => if due ≤ nowNt then timerCallback { o with scheduled := none } port nowNt laterNt else o
  | .scheduled => o.leave

/-- Every call that is over left the level as it found it, the level counts the calls that are
running, and the guard against deep nesting never stopped one. -/
structure Balanced (o : PwmOutput) : Prop where
  restored : ∀ call ∈ o.finished, call.2 = call.1
  level : o.config.dbgNestingLevel = o.active.length
  noIssue : .nestingIssue ∉ o.config.errors

end PwmOutput

/-- The output is paused, or a cycle can start: one did before, or the period allows it. -/
def PwmConfig.CanStart (c : PwmConfig) : Prop :=
  ∀ p ∈ c.periodNt, 0 < c.safe.startNt ∨ p ≠ 0 ∧ 0 < PwmConfig.iterationLimit p

instance (c : PwmConfig) : Decidable c.CanStart := inferInstanceAs (Decidable (∀ p ∈ c.periodNt, _))

namespace PwmConfig

variable {c c' c'' : PwmConfig} {port : Port} {p : ℚ} {nowNt laterNt : Tick}

/-- A config whose callback may be called. -/
structure Ready (c : PwmConfig) : Prop where
  index : c.safe.phaseIndex < c.multiChannelStateSequence.phaseCount
  count : c.multiChannelStateSequence.phaseCount ≤ pwmPhaseMaxCount
  fresh : c.safe.startNt = 0 → c.safe.phaseIndex = 0 ∧ c.safe.periodNt = -1

theorem iterationLimit_neg : iterationLimit (-1) ≤ 0 := by
  apply (min_le_left _ _).trans
  norm_num [truncate]

/-- The cycle starts anew, or one started before. -/
theorem Ready.startCycle (ready : c.Ready) (nonneg : 0 ≤ c.safe.startNt)
    (can : 0 < c.safe.startNt ∨ p ≠ 0 ∧ 0 < iterationLimit p) (positive : 0 < nowNt) :
    0 < (c.startCycle p nowNt).safe.startNt ∧
      (c.startCycle p nowNt).safe.phaseIndex < c.multiChannelStateSequence.phaseCount := by
  have nonempty := Nat.zero_lt_of_lt ready.index
  have index : c.startIndex < c.multiChannelStateSequence.phaseCount := by
    rw [startIndex]
    split
    · exact ready.index
    · exact nonempty
  obtain ⟨safe, -, -, -⟩ | ⟨safe, -, unchanged⟩ := (startCycle_cases c p nowNt).1
  · rw [safe]
    exact ⟨positive, nonempty⟩
  · rw [safe]
    refine ⟨?_, index⟩
    by_contra never
    have zero : c.safe.startNt = 0 := le_antisymm (not_lt.mp never) nonneg
    obtain ⟨first, period⟩ := ready.fresh zero
    obtain ⟨nonzero, limit⟩ := can.resolve_left never
    have start : c.startIndex = 0 := by
      rw [startIndex, first, ite_self]
    have same := (unchanged start nonzero limit).2.1
    rw [show p = -1 from same.symm.trans period] at limit
    exact absurd limit (not_lt.mpr iterationLimit_neg)

theorem Ready.toggle (ready : c.Ready) (nonneg : 0 ≤ c.safe.startNt)
    (can : 0 < c.safe.startNt ∨ p ≠ 0 ∧ 0 < iterationLimit p) (positive : 0 < nowNt) :
    0 < (c.toggle port p nowNt laterNt).1 ∧ (c.toggle port p nowNt laterNt).2.Ready ∧
      0 ≤ (c.toggle port p nowNt laterNt).2.safe.startNt ∧
      Frame c (c.toggle port p nowNt laterNt).2 := by
  obtain ⟨started, index⟩ := ready.startCycle nonneg can positive
  obtain ⟨time, late, safe, -, frame⟩ :=
    @toggle_spec c port p nowNt laterNt (index.trans_le ready.count)
  have later : 0 ≤ truncate (c.startCycle p nowNt).timeToSwitch % 2 ^ 32 :=
    Int.emod_nonneg _ (by norm_num)
  have begun : (c.toggle port p nowNt laterNt).2.safe.startNt = (c.startCycle p nowNt).safe.startNt := by
    rw [safe, advance_startNt]
  have sequence := (startCycle_cases c p nowNt).2.sequence
  refine ⟨?_, ⟨?_, ?_, ?_⟩, begun ▸ started.le, frame⟩
  · rw [time]
    exact Int.add_pos_of_pos_of_nonneg started later
  · rw [safe, frame.sequence, ← sequence]
    exact advance_index _ late (sequence ▸ index)
  · rw [frame.sequence]
    exact ready.count
  · intro zero
    exact absurd (begun.symm.trans zero) started.ne'

/-- A toggle of an output that is not stopped gives a moment, and the output stays ready. -/
theorem Ready.togglePwmState (ready : c.Ready) (nonneg : 0 ≤ c.safe.startNt) (can : c.CanStart)
    (goes : c.isStopRequested = false) (positive : 0 < nowNt) :
    0 < (c.togglePwmState port nowNt laterNt).1 ∧
      (c.togglePwmState port nowNt laterNt).2.Ready ∧
      0 ≤ (c.togglePwmState port nowNt laterNt).2.safe.startNt ∧
      Frame c (c.togglePwmState port nowNt laterNt).2 := by
  cases period : c.periodNt with
  | none =>
    rw [togglePwmState_paused goes period]
    have frame := frame_changeState c 0
    have sleeps : 0 ≤ port.us2nt 100000 := mul_nonneg (by norm_num) (Int.natCast_nonneg _)
    refine ⟨Int.add_pos_of_pos_of_nonneg positive sleeps, ⟨?_, ?_, ?_⟩, ?_, frame⟩
    · rw [changeState_safe, frame.sequence]
      exact ready.index
    · rw [frame.sequence]
      exact ready.count
    · rw [changeState_safe]
      exact ready.fresh
    · rwa [changeState_safe]
  | some p =>
    rw [togglePwmState_running goes period]
    exact ready.toggle nonneg (can p period) positive

/-- What the setters leave alone. -/
structure Setting (c c' : PwmConfig) : Prop where
  safe : c'.safe = c.safe
  count : c'.multiChannelStateSequence.phaseCount = c.multiChannelStateSequence.phaseCount
  level : c'.dbgNestingLevel = c.dbgNestingLevel
  nesting : .nestingIssue ∈ c'.errors ↔ .nestingIssue ∈ c.errors

theorem Setting.ready (setting : Setting c c') (ready : c.Ready) : c'.Ready where
  index := by
    rw [setting.safe, setting.count]
    exact ready.index
  count := setting.count ▸ ready.count
  fresh := setting.safe ▸ ready.fresh

theorem setting_setFrequency (c : PwmConfig) (frequency : Option ℚ) :
    Setting c (c.setFrequency port frequency) := by
  cases frequency <;> exact ⟨rfl, rfl, rfl, Iff.rfl⟩

theorem Setting.trans (first : Setting c c') (second : Setting c' c'') : Setting c c'' where
  safe := second.safe.trans first.safe
  count := second.count.trans first.count
  level := second.level.trans first.level
  nesting := second.nesting.trans first.nesting

theorem setting_error (c : PwmConfig) {e : PwmError} (other : e ≠ .nestingIssue) :
    Setting c (c.error e) :=
  ⟨rfl, rfl, rfl, (frame_error c other).nesting⟩

theorem setting_setSimplePwmDutyCycle (c : PwmConfig) (dutyCycle : Option ℚ) :
    Setting c (c.setSimplePwmDutyCycle dutyCycle) := by
  have set := dutySet_setSimplePwmDutyCycle c dutyCycle
  refine ⟨set.safe, ?_, set.level, set.nesting⟩
  obtain same | ⟨d, -, first⟩ := set.sequence
  · rw [same]
  · rw [first]
    rfl

/-- A start that gets to the callback. -/
structure Started (c c' : PwmConfig) : Prop where
  ready : c'.Ready
  startNt : c'.safe.startNt = c.safe.startNt
  period : c'.periodNt = c.periodNt
  goes : c'.isStopRequested = false
  level : c'.dbgNestingLevel = c.dbgNestingLevel
  nesting : .nestingIssue ∈ c'.errors ↔ .nestingIssue ∈ c.errors

theorem weComplexInit_cases (c : PwmConfig) (seq : PwmSequence) (cycle stateChange : Bool) :
    (∃ c', c.weComplexInit seq cycle stateChange = (false, c') ∧ Setting c c') ∨
      ∃ c', c.weComplexInit seq cycle stateChange = (true, c') ∧ Started c c' := by
  have running : Setting c { c with isStopRequested := false } := ⟨rfl, rfl, rfl, Iff.rfl⟩
  rw [PwmConfig.weComplexInit]
  split
  · exact .inl ⟨_, rfl, running.trans (setting_error _ (by simp))⟩
  split
  · exact .inl ⟨_, rfl, running.trans (setting_error _ (by simp))⟩
  split
  · exact .inl ⟨_, rfl, running.trans (setting_error _ (by simp))⟩
  split
  · exact .inl ⟨_, rfl, running.trans (setting_error _ (by simp))⟩
  · next nonempty few _ =>
    exact .inr ⟨_, rfl, ⟨Nat.pos_of_ne_zero nonempty, not_lt.mp few, fun _ => ⟨rfl, rfl⟩⟩,
      rfl, rfl, rfl, rfl, Iff.rfl⟩

end PwmConfig

namespace PwmOutput

variable {o : PwmOutput} {port : Port} {nowNt laterNt : Tick} {e : PwmEvent}

/-- Callbacks are run, with a clock that is positive and less than 24 deep, only of outputs that
are not stopped and can start. -/
def Runs (o : PwmOutput) : PwmEvent → Prop
  | .weComplexInit _ _ _ nowNt _ => 0 < nowNt ∧ o.active.length < 24 ∧ o.config.CanStart
  | .timerCallback nowNt _ => ∀ due ∈ o.scheduled, due ≤ nowNt →
    0 < nowNt ∧ o.active.length < 24 ∧ o.config.isStopRequested = false ∧ o.config.CanStart
  | _ => True

/-- Each running call began at the level of those around it. -/
def Stacked : List Int → Prop
  | [] => True
  | before :: active => before = active.length ∧ Stacked active

structure Kept (o : PwmOutput) : Prop where
  balanced : o.Balanced
  stacked : Stacked o.active
  nonneg : 0 ≤ o.config.safe.startNt
  ready : o.scheduled.isSome → o.config.Ready

theorem Balanced.timerCallback (balanced : o.Balanced) (stacked : Stacked o.active) (nonneg : 0 ≤ o.config.safe.startNt)
    (ready : o.config.Ready) (positive : 0 < nowNt) (shallow : o.active.length < 24)
    (goes : o.config.isStopRequested = false) (can : o.config.CanStart) :
    (o.timerCallback port nowNt laterNt).Kept := by
  have below : o.config.dbgNestingLevel + 1 < 25 := by
    rw [balanced.level]
    omega
  have ready' : PwmConfig.Ready { o.config with dbgNestingLevel := o.config.dbgNestingLevel + 1 } :=
    ⟨ready.index, ready.count, ready.fresh⟩
  obtain ⟨time, toggled, begun, frame⟩ :=
    @PwmConfig.Ready.togglePwmState _ port nowNt laterNt ready' nonneg can goes positive
  rw [PwmOutput.timerCallback, if_pos below]
  simp only [if_neg time.ne']
  refine ⟨⟨balanced.restored, ?_, ?_⟩, ⟨balanced.level, stacked⟩, begun, fun _ => toggled⟩
  · rw [frame.level]
    simp [balanced.level]
  · rw [frame.nesting]
    exact balanced.noIssue

theorem Kept.set {c : PwmConfig} (kept : o.Kept) (setting : o.config.Setting c) :
    Kept { o with config := c } where
  balanced := ⟨kept.balanced.restored, setting.level.trans kept.balanced.level,
    fun issue => kept.balanced.noIssue (setting.nesting.mp issue)⟩
  stacked := kept.stacked
  nonneg := by
    rw [setting.safe]
    exact kept.nonneg
  ready pending := setting.ready (kept.ready pending)

theorem Kept.leave (kept : o.Kept) : o.leave.Kept := by
  have level := kept.balanced.level
  have stacked := kept.stacked
  cases running : o.active with
  | nil =>
    rw [PwmOutput.leave, running]
    exact kept
  | cons before active =>
    rw [running, List.length_cons] at level
    rw [running] at stacked
    rw [PwmOutput.leave, running]
    refine ⟨⟨?_, ?_, kept.balanced.noIssue⟩, stacked.2, kept.nonneg, ?_⟩
    · intro call member
      simp only [PwmOutput.finish, List.mem_append, List.mem_singleton] at member
      rcases member with earlier | rfl
      · exact kept.balanced.restored call earlier
      · show o.config.dbgNestingLevel - 1 = before
        rw [stacked.1]
        omega
    · show o.config.dbgNestingLevel - 1 = active.length
      omega
    · intro pending
      have ready := kept.ready pending
      exact ⟨ready.index, ready.count, ready.fresh⟩

theorem Kept.weComplexInit {seq : PwmSequence} {cycle stateChange : Bool} (kept : o.Kept)
    (positive : 0 < nowNt) (shallow : o.active.length < 24) (can : o.config.CanStart) :
    (o.step port (.weComplexInit seq cycle stateChange nowNt laterNt)).Kept := by
  obtain ⟨c, init, setting⟩ | ⟨c, init, started⟩ :=
    o.config.weComplexInit_cases seq cycle stateChange
  · simp only [PwmOutput.step, init]
    exact kept.set setting
  · simp only [PwmOutput.step, init, if_true]
    have balanced : Balanced { o with config := c } :=
      ⟨kept.balanced.restored, started.level.trans kept.balanced.level,
        fun issue => kept.balanced.noIssue (started.nesting.mp issue)⟩
    have can' : c.CanStart := by
      rw [PwmConfig.CanStart, started.period, started.startNt]
      exact can
    exact balanced.timerCallback kept.stacked (started.startNt ▸ kept.nonneg) started.ready positive
      shallow started.goes can'

theorem Kept.step (kept : o.Kept) (runs : o.Runs e) : (o.step port e).Kept := by
  cases e with
  | weComplexInit seq cycle stateChange nowNt laterNt =>
    obtain ⟨positive, shallow, can⟩ := runs
    exact kept.weComplexInit positive shallow can
  | stop => exact kept.set ⟨rfl, rfl, rfl, Iff.rfl⟩
  | setFrequency frequency => exact kept.set (PwmConfig.setting_setFrequency _ frequency)
  | setSimplePwmDutyCycle dutyCycle =>
    exact kept.set (PwmConfig.setting_setSimplePwmDutyCycle _ dutyCycle)
  | timerCallback nowNt laterNt =>
    cases pending : o.scheduled with
    | none => simpa [PwmOutput.step, pending] using kept
    | some due =>
      simp only [PwmOutput.step, pending]
      split
      · next arrived =>
        obtain ⟨positive, shallow, goes, can⟩ := runs due pending arrived
        have cleared : Balanced { o with scheduled := none } :=
          ⟨kept.balanced.restored, kept.balanced.level, kept.balanced.noIssue⟩
        exact cleared.timerCallback kept.stacked kept.nonneg (kept.ready (by simp [pending])) positive shallow goes can
      · exact kept
  | scheduled => exact kept.leave

instance (o : PwmOutput) : (e : PwmEvent) → Decidable (o.Runs e)
  | .weComplexInit _ _ _ _ _ => inferInstanceAs (Decidable (_ ∧ _))
  | .timerCallback nowNt _ => inferInstanceAs (Decidable (∀ due ∈ o.scheduled, due ≤ nowNt → _))
  | .stop | .setFrequency _ | .setSimplePwmDutyCycle _ | .scheduled => isTrue trivial

def halfDuty : PwmSequence := ⟨2, 1, fun i => if i = 0 then 1 / 2 else 1⟩

/-- No callback is pending or running, and the level has reached its bound. -/
structure Blocked (o : PwmOutput) : Prop where
  level : 24 ≤ o.config.dbgNestingLevel
  idle : o.active = []
  unscheduled : o.scheduled = none

theorem Blocked.set {c : PwmConfig} (blocked : o.Blocked) (setting : o.config.Setting c) :
    Blocked { o with config := c } :=
  ⟨setting.level ▸ blocked.level, blocked.idle, blocked.unscheduled⟩

theorem Blocked.timerCallback (blocked : o.Blocked) : (o.timerCallback port nowNt laterNt).Blocked := by
  have level := blocked.level
  have deep : ¬ o.config.dbgNestingLevel + 1 < 25 := by omega
  rw [PwmOutput.timerCallback, if_neg deep]
  exact ⟨by show 24 ≤ o.config.dbgNestingLevel + 1; omega, blocked.idle, blocked.unscheduled⟩

/-- Nothing brings it back: no start schedules a callback again. -/
theorem blocked_always (port : Port) (events : List PwmEvent) (blocked : o.Blocked) :
    Always (step port) Blocked o events := by
  refine always_of_keeps ?_ blocked
  intro o e blocked
  cases e with
  | weComplexInit seq cycle stateChange nowNt laterNt =>
    obtain ⟨c, init, setting⟩ | ⟨c, init, started⟩ :=
      o.config.weComplexInit_cases seq cycle stateChange
    · simp only [PwmOutput.step, init]
      exact blocked.set setting
    · simp only [PwmOutput.step, init, if_true]
      have blocked' : Blocked { o with config := c } :=
        ⟨started.level ▸ blocked.level, blocked.idle, blocked.unscheduled⟩
      exact blocked'.timerCallback
  | stop => exact blocked.set ⟨rfl, rfl, rfl, Iff.rfl⟩
  | setFrequency frequency => exact blocked.set (PwmConfig.setting_setFrequency _ frequency)
  | setSimplePwmDutyCycle dutyCycle =>
    exact blocked.set (PwmConfig.setting_setSimplePwmDutyCycle _ dutyCycle)
  | timerCallback nowNt laterNt =>
    simp only [PwmOutput.step, blocked.unscheduled]
    exact blocked
  | scheduled =>
    simp only [PwmOutput.step, PwmOutput.leave, blocked.idle]
    exact blocked

/-- It comes to that after 24 stops. -/
example : Blocked (((List.replicate 24 [PwmEvent.weComplexInit halfDuty false true 1000 1000, .scheduled,
    .stop, .timerCallback 500000 500000]).flatten).foldl (step stm32)
      { config := { multiChannelStateSequence := halfDuty } }) :=
  ⟨by decide +kernel, by decide +kernel, by decide +kernel⟩

end PwmOutput

end FomeFw.Timer
