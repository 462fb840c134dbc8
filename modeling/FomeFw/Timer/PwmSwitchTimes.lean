import FomeFw.Lib.Machine
import FomeFw.Timer.PwmGenerator
import Mathlib.Tactic.Linarith
import Mathlib.Tactic.Positivity

/-! The moments at which an output of one channel toggles. A moment is rebuilt from the start of
the first cycle, the number of cycles since then and the switch time within the cycle. -/
namespace FomeFw.Timer
open Machine

/-- A running output with the moments it gave. -/
structure PwmHistory where
  config : PwmConfig
  /-- What the last toggle returned, also that of a paused output. -/
  due : Option Tick := none
  /-- What `togglePwmState` returned while there was a period. -/
  switchTimes : List Tick := []
  /-- The products `(iteration + switchTime) * periodNt` behind them. -/
  products : List ℚ := []

inductive PwmStep where
  | setFrequency (frequency : Option ℚ)
  | setSimplePwmDutyCycle (dutyCycle : Option ℚ)
  | togglePwmState (nowNt laterNt : Tick)

namespace PwmHistory

def toggled (h : PwmHistory) (port : Port) (nowNt laterNt : Tick) : PwmHistory :=
  let (time, config) := h.config.togglePwmState port nowNt laterNt
  match h.config.periodNt with
  | none => { h with config := config, due := some time }
  | some periodNt =>
    { config := config
      due := some time
      switchTimes := h.switchTimes ++ [time]
      products := h.products ++ [(h.config.startCycle periodNt nowNt).timeToSwitch] }

def step (port : Port) (h : PwmHistory) : PwmStep → PwmHistory
  | .setFrequency frequency => { h with config := h.config.setFrequency port frequency }
  | .setSimplePwmDutyCycle dutyCycle => { h with config := h.config.setSimplePwmDutyCycle dutyCycle }
  | .togglePwmState nowNt laterNt => h.toggled port nowNt laterNt

/-- The period leaves room for at least one cycle below the limit. -/
def ShortPeriod (periodNt : ℚ) : Prop := 0 < periodNt ∧ 0 < PwmConfig.iterationLimit periodNt

/-- Periods are short, and no callback runs before the time it was scheduled for. -/
def OnTime (port : Port) (h : PwmHistory) : PwmStep → Prop
  | .setFrequency frequency => ∀ p ∈ (h.config.setFrequency port frequency).periodNt, ShortPeriod p
  | .setSimplePwmDutyCycle _ => True
  | .togglePwmState nowNt _ => ∀ due ∈ h.due, due ≤ nowNt

/-- The index stays below the number of phases, the products fit 32 bits, and the moments never
go back. -/
structure Ordered (h : PwmHistory) : Prop where
  phaseIndex_lt : h.config.safe.phaseIndex < h.config.multiChannelStateSequence.phaseCount
  fits : ∀ x ∈ h.products, 0 ≤ x ∧ x < 2 ^ 32
  sorted : h.switchTimes.Pairwise (· ≤ ·)

end PwmHistory

namespace PwmConfig

/-- A `SimplePwm` that was started: two phases, the second of which ends the cycle. -/
structure Simple (c : PwmConfig) : Prop where
  goes : c.isStopRequested = false
  count : c.multiChannelStateSequence.phaseCount = 2
  index : c.safe.phaseIndex < 2
  first : 0 ≤ c.multiChannelStateSequence.getSwitchTime 0 ∧ c.multiChannelStateSequence.getSwitchTime 0 ≤ 1
  second : c.multiChannelStateSequence.getSwitchTime 1 = 1

/-- The number of cycles that are over when the phase ends that was last given out. -/
def position (c : PwmConfig) : ℚ := c.safe.iteration + c.safe.phaseIndex

/-- A cycle was started, and the limit is not passed; in the middle of a cycle it is not reached. -/
structure Cycling (c : PwmConfig) : Prop where
  period : 0 < c.safe.periodNt
  nonneg : 0 ≤ c.safe.iteration
  below : c.safe.iteration + c.safe.phaseIndex ≤ iterationLimit c.safe.periodNt

/-- No cycle was started since `weComplexInit`. -/
def Fresh (c : PwmConfig) : Prop := c.safe.phaseIndex = 0 ∧ c.safe.periodNt = -1

variable {c c' : PwmConfig} {port : Port} {p : ℚ} {nowNt laterNt : Tick}

theorem truncate_of_nonneg {x : ℚ} (nonneg : 0 ≤ x) : truncate x = ⌊x⌋ := if_pos nonneg

theorem le_of_truncate_pos {x : ℚ} (positive : 0 < truncate x) : (truncate x : ℚ) ≤ x := by
  rcases le_or_gt 0 x with nonneg | negative
  · rw [truncate_of_nonneg nonneg]
    exact Int.floor_le x
  · rw [truncate, if_neg (not_le.mpr negative)] at positive
    exact absurd positive (not_lt.mpr (Int.ceil_nonpos.mpr negative.le))

theorem iterationLimit_mul (positive : 0 < p) (limit : 0 < iterationLimit p) :
    (iterationLimit p : ℚ) * p < 2 ^ 32 := by
  have room : (iterationLimit p : ℚ) ≤ 0xFFFFFFFF / p - 2 := by
    have least := min_le_left (truncate (0xFFFFFFFF / p - 2)) 838
    exact (Int.cast_le.mpr least).trans (le_of_truncate_pos (limit.trans_le least))
  have below : (iterationLimit p : ℚ) * p ≤ (0xFFFFFFFF / p - 2) * p :=
    mul_le_mul_of_nonneg_right room positive.le
  have whole : (0xFFFFFFFF / p - 2) * p = 0xFFFFFFFF - 2 * p := by
    field_simp
  linarith

theorem Simple.switchTime_mem (simple : c.Simple) : 0 ≤ c.switchTime ∧ c.switchTime ≤ 1 := by
  rw [switchTime]
  split
  · obtain zero | one : c.safe.phaseIndex = 0 ∨ c.safe.phaseIndex = 1 := by
      have index := simple.index
      omega
    · rw [zero]
      exact simple.first
    · rw [one, simple.second]
      exact ⟨zero_le_one, le_rfl⟩
  · exact ⟨zero_le_one, le_rfl⟩

theorem Simple.startIndex_lt (simple : c.Simple) : c.startIndex < 2 := by
  rw [startIndex]
  split
  · exact simple.index
  · norm_num

/-- At the switch, the limit is not reached. -/
structure Switching (c : PwmConfig) : Prop where
  simple : c.Simple
  period : 0 < c.safe.periodNt
  nonneg : 0 ≤ c.safe.iteration
  below : c.safe.iteration < iterationLimit c.safe.periodNt

/-- The cycles go on from the same start. -/
structure Continues (c d : PwmConfig) : Prop where
  cycling : c.Cycling
  startNt : d.safe.startNt = c.safe.startNt
  period : d.safe.periodNt = c.safe.periodNt
  position : c.position ≤ d.safe.iteration + d.switchTime

theorem Simple.frame (simple : c.Simple) (frame : Frame c c') (index : c'.safe.phaseIndex < 2) :
    c'.Simple where
  goes := frame.stopped.trans simple.goes
  count := frame.sequence ▸ simple.count
  index := index
  first := frame.sequence ▸ simple.first
  second := frame.sequence ▸ simple.second

/-- In a cycle that goes on, the limit is not reached. -/
theorem Cycling.below_limit (cycling : c.Cycling)
    (start : c.startIndex = 0 → c.safe.iteration ≠ iterationLimit c.safe.periodNt) :
    c.safe.iteration < iterationLimit c.safe.periodNt := by
  have below := cycling.below
  by_cases first : c.startIndex = 0
  · have other := start first
    omega
  · have later : c.safe.phaseIndex ≠ 0 := by
      rw [startIndex] at first
      split at first
      · exact first
      · exact absurd rfl first
    omega

/-- The moments of a cycle that goes on follow those that were given. -/
theorem Simple.position_le (simple : c.Simple) (frame : Frame c c')
    (safe : c'.safe = { c.safe with phaseIndex := c.startIndex }) :
    c.position ≤ c'.safe.iteration + c'.switchTime := by
  have bounds := (simple.frame frame (by rw [safe]; exact simple.startIndex_lt)).switchTime_mem
  have index := simple.index
  have same : c'.safe.iteration = c.safe.iteration := by rw [safe]
  rw [position, same]
  obtain zero | one : c.safe.phaseIndex = 0 ∨ c.safe.phaseIndex = 1 := by omega
  · rw [zero, Nat.cast_zero]
    linarith [bounds.1]
  · have last : c'.switchTime = 1 := by
      rw [switchTime, frame.mode, frame.sequence, safe, startIndex]
      split
      · rw [one]
        exact simple.second
      · rfl
    rw [one, last, Nat.cast_one]

/-- A cycle starts anew, or it goes on. -/
theorem Simple.startCycle (simple : c.Simple) (state : c.Fresh ∨ c.Cycling)
    (short : PwmHistory.ShortPeriod p) :
    (c.startCycle p nowNt).Switching ∧
      ((c.startCycle p nowNt).safe.startNt = nowNt ∨ c.Continues (c.startCycle p nowNt)) := by
  obtain ⟨start, frame⟩ := startCycle_cases c p nowNt
  revert start frame
  generalize c.startCycle p nowNt = d
  intro start frame
  obtain ⟨safe, -, -, limit⟩ | ⟨safe, -, unchanged⟩ := start
  · refine ⟨⟨simple.frame frame (by simp [safe]), ?_, ?_, ?_⟩, .inl (by rw [safe])⟩
    · rw [safe]
      exact short.1
    · rw [safe]
    · rw [safe]
      exact limit
  · have same : c.startIndex = 0 → c.safe.periodNt = p ∧ c.safe.iteration ≠ iterationLimit p :=
      fun first => (unchanged first short.1.ne' short.2).2
    have cycling : c.Cycling := by
      refine state.resolve_left fun fresh => ?_
      have first : c.startIndex = 0 := by rw [startIndex, fresh.1, ite_self]
      have period := fresh.2.symm.trans (same first).1
      linarith [short.1]
    have below := cycling.below_limit fun first => (same first).1 ▸ (same first).2
    refine ⟨⟨simple.frame frame (by rw [safe]; exact simple.startIndex_lt), ?_, ?_, ?_⟩,
      .inr ⟨cycling, by rw [safe], by rw [safe], simple.position_le frame safe⟩⟩
    · rw [safe]
      exact cycling.period
    · rw [safe]
      exact cycling.nonneg
    · rw [safe]
      exact below

/-- Where the last moment lies that a cycle may have given. -/
def horizon (c : PwmConfig) : Tick := c.safe.startNt + ⌊c.position * c.safe.periodNt⌋

theorem Switching.le_limit (switching : c.Switching) :
    (c.safe.iteration : ℚ) + 1 ≤ iterationLimit c.safe.periodNt := by
  have below : c.safe.iteration + 1 ≤ iterationLimit c.safe.periodNt := switching.below
  exact_mod_cast below

theorem Switching.timeToSwitch_mem (switching : c.Switching) :
    0 ≤ c.timeToSwitch ∧ c.timeToSwitch < 2 ^ 32 := by
  have nonneg : (0 : ℚ) ≤ c.safe.iteration := Int.cast_nonneg switching.nonneg
  have bounds := switching.simple.switchTime_mem
  have limit := switching.nonneg.trans_lt switching.below
  constructor
  · exact mul_nonneg (add_nonneg nonneg bounds.1) switching.period.le
  · calc c.timeToSwitch
        ≤ iterationLimit c.safe.periodNt * c.safe.periodNt := by
          apply mul_le_mul_of_nonneg_right _ switching.period.le
          linarith [switching.le_limit, bounds.2]
      _ < 2 ^ 32 := iterationLimit_mul switching.period limit

/-- After a toggle one more phase, or one more cycle, is over. -/
theorem Switching.advance_position (switching : c.Switching) (late : Bool) :
    (c.advance late).safe.iteration + (c.advance late).safe.phaseIndex = c.safe.iteration + 1 ∧
      (c.advance late).safe.phaseIndex < 2 ∧ c.safe.iteration ≤ (c.advance late).safe.iteration ∧
      (c.advance late).safe.periodNt = c.safe.periodNt := by
  rw [PwmConfig.advance]
  split
  · exact ⟨by simp, by simp, by simp, rfl⟩
  · next goesOn =>
    rw [not_or, not_or, switching.simple.count] at goesOn
    have index := switching.simple.index
    have zero : c.safe.phaseIndex = 0 := by omega
    exact ⟨by simp [zero], by simp [zero], le_rfl, rfl⟩

theorem Switching.advance (switching : c.Switching) (late : Bool) :
    (c.advance late).Cycling ∧ c.safe.startNt + ⌊c.timeToSwitch⌋ ≤ (c.advance late).horizon := by
  obtain ⟨position, -, later, period⟩ := switching.advance_position late
  have reached : (c.advance late).position = c.safe.iteration + 1 := by
    rw [PwmConfig.position]
    exact_mod_cast position
  constructor
  · refine ⟨period ▸ switching.period, switching.nonneg.trans later, ?_⟩
    rw [position, period]
    exact switching.below
  · rw [horizon, advance_startNt, period, reached]
    apply add_le_add_right
    apply Int.floor_le_floor
    apply mul_le_mul_of_nonneg_right _ switching.period.le
    linarith [switching.simple.switchTime_mem.2]

/-- A moment lies behind those that its cycle gave before. -/
theorem Continues.horizon_le (continues : c.Continues c') (period : 0 < c'.safe.periodNt) :
    c.horizon ≤ c'.safe.startNt + ⌊c'.timeToSwitch⌋ := by
  rw [horizon, continues.startNt, ← continues.period]
  apply add_le_add_right
  apply Int.floor_le_floor
  exact mul_le_mul_of_nonneg_right continues.position period.le

/-- What one toggle of a started output does. -/
theorem Simple.toggle (simple : c.Simple) (state : c.Fresh ∨ c.Cycling)
    (short : PwmHistory.ShortPeriod p) :
    (c.toggle port p nowNt laterNt).2.Simple ∧ (c.toggle port p nowNt laterNt).2.Cycling ∧
      (c.toggle port p nowNt laterNt).1 ≤ (c.toggle port p nowNt laterNt).2.horizon ∧
      (nowNt ≤ (c.toggle port p nowNt laterNt).1 ∨
        c.Cycling ∧ c.horizon ≤ (c.toggle port p nowNt laterNt).1) ∧
      (c.toggle port p nowNt laterNt).2.periodNt = c.periodNt := by
  obtain ⟨switching, start⟩ := @Simple.startCycle c p nowNt simple state short
  have few : (c.startCycle p nowNt).safe.phaseIndex < pwmPhaseMaxCount :=
    switching.simple.index.trans (by decide)
  obtain ⟨time, late, safe, -, frame⟩ := @toggle_spec c port p nowNt laterNt few
  obtain ⟨nonneg, fits⟩ := switching.timeToSwitch_mem
  have whole : truncate (c.startCycle p nowNt).timeToSwitch % 2 ^ 32 =
      ⌊(c.startCycle p nowNt).timeToSwitch⌋ := by
    rw [truncate_of_nonneg nonneg]
    apply Int.emod_eq_of_lt (Int.floor_nonneg.mpr nonneg)
    rw [Int.floor_lt]
    exact_mod_cast fits
  rw [whole] at time
  obtain ⟨cycling, behind⟩ := switching.advance late
  have index := (switching.advance_position late).2.1
  have horizon : (c.toggle port p nowNt laterNt).2.horizon =
      ((c.startCycle p nowNt).advance late).horizon := by
    rw [PwmConfig.horizon, PwmConfig.horizon, PwmConfig.position, PwmConfig.position, safe]
  refine ⟨simple.frame frame (safe ▸ index), ⟨?_, ?_, ?_⟩, ?_, ?_, frame.period⟩
  · rw [safe]
    exact cycling.period
  · rw [safe]
    exact cycling.nonneg
  · rw [safe]
    exact cycling.below
  · rw [time, horizon]
    exact behind
  · rw [time]
    rcases start with anew | continues
    · left
      rw [anew]
      exact le_add_of_nonneg_right (Int.floor_nonneg.mpr nonneg)
    · exact .inr ⟨continues.cycling, continues.horizon_le switching.period⟩

theorem Simple.dutySet (simple : c.Simple) (set : DutySet c c') : c'.Simple := by
  obtain same | ⟨d, range, first⟩ := set.sequence
  · exact ⟨set.stopped.trans simple.goes, same ▸ simple.count, set.safe ▸ simple.index,
      same ▸ simple.first, same ▸ simple.second⟩
  · refine ⟨set.stopped.trans simple.goes, ?_, set.safe ▸ simple.index, ?_, ?_⟩
    · rw [first]
      exact simple.count
    · rw [first]
      exact range
    · rw [first]
      exact simple.second

end PwmConfig

namespace PwmHistory

variable {h : PwmHistory} {port : Port} {s : PwmStep}

structure Kept (h : PwmHistory) : Prop where
  simple : h.config.Simple
  period : ∀ p ∈ h.config.periodNt, ShortPeriod p
  fits : ∀ x ∈ h.products, 0 ≤ x ∧ x < 2 ^ 32
  sorted : h.switchTimes.Pairwise (· ≤ ·)
  waited : ∀ time ∈ h.switchTimes, ∃ due ∈ h.due, time ≤ due
  state : h.config.Fresh ∧ h.switchTimes = [] ∨
    h.config.Cycling ∧ ∀ time ∈ h.switchTimes, time ≤ h.config.horizon

theorem Kept.ordered (kept : h.Kept) : h.Ordered where
  phaseIndex_lt := by
    rw [kept.simple.count]
    exact kept.simple.index
  fits := kept.fits
  sorted := kept.sorted

/-- A setter leaves the cycle alone. -/
theorem Kept.set {c : PwmConfig} (kept : h.Kept) (simple : c.Simple) (safe : c.safe = h.config.safe)
    (period : ∀ p ∈ c.periodNt, ShortPeriod p) : Kept { h with config := c } where
  simple := simple
  period := period
  fits := kept.fits
  sorted := kept.sorted
  waited := kept.waited
  state := by
    obtain ⟨fresh, none⟩ | ⟨cycling, before⟩ := kept.state
    · left
      exact ⟨by rw [PwmConfig.Fresh, safe]; exact fresh, none⟩
    · right
      refine ⟨⟨?_, ?_, ?_⟩, ?_⟩
      · rw [safe]
        exact cycling.period
      · rw [safe]
        exact cycling.nonneg
      · rw [safe]
        exact cycling.below
      · intro time member
        rw [PwmConfig.horizon, PwmConfig.position, safe]
        exact before time member

theorem Kept.toggled {nowNt laterNt : Tick} (kept : h.Kept) (onTime : ∀ due ∈ h.due, due ≤ nowNt) :
    (h.toggled port nowNt laterNt).Kept := by
  have past : ∀ time ∈ h.switchTimes, time ≤ nowNt := by
    intro time member
    obtain ⟨due, last, waited⟩ := kept.waited time member
    exact waited.trans (onTime due last)
  cases period : h.config.periodNt with
  | none =>
    simp only [PwmHistory.toggled, PwmConfig.togglePwmState_paused kept.simple.goes period, period]
    have frame := PwmConfig.frame_changeState h.config 0
    have safe := PwmConfig.changeState_safe h.config 0
    have set := kept.set (kept.simple.frame frame (safe ▸ kept.simple.index)) safe
      (frame.period ▸ kept.period)
    have sleeps : 0 ≤ port.us2nt 100000 := mul_nonneg (by norm_num) (Int.natCast_nonneg _)
    refine ⟨set.simple, set.period, set.fits, set.sorted, ?_, set.state⟩
    intro time member
    exact ⟨_, rfl, (past time member).trans (le_add_of_nonneg_right sleeps)⟩
  | some p =>
    simp only [PwmHistory.toggled, PwmConfig.togglePwmState_running kept.simple.goes period, period]
    have state : h.config.Fresh ∨ h.config.Cycling := kept.state.imp And.left And.left
    have short := kept.period p period
    obtain ⟨simple, cycling, within, later, same⟩ :=
      @PwmConfig.Simple.toggle h.config port p nowNt laterNt kept.simple state short
    have before : ∀ time ∈ h.switchTimes, time ≤ (h.config.toggle port p nowNt laterNt).1 := by
      intro time member
      obtain now | ⟨goesOn, behind⟩ := later
      · exact (past time member).trans now
      · obtain ⟨-, none⟩ | ⟨-, given⟩ := kept.state
        · simp [none] at member
        · exact (given time member).trans behind
    have all : ∀ time ∈ h.switchTimes ++ [(h.config.toggle port p nowNt laterNt).1],
        time ≤ (h.config.toggle port p nowNt laterNt).1 := by
      intro time member
      rcases List.mem_append.mp member with earlier | last
      · exact before time earlier
      · exact (List.mem_singleton.mp last).le
    refine ⟨simple, same ▸ kept.period, ?_, ?_, ?_, .inr ⟨cycling, ?_⟩⟩
    · intro x member
      rcases List.mem_append.mp member with earlier | last
      · exact kept.fits x earlier
      · rw [List.mem_singleton.mp last]
        exact (kept.simple.startCycle state short).1.timeToSwitch_mem
    · rw [List.pairwise_append]
      refine ⟨kept.sorted, List.pairwise_singleton _ _, ?_⟩
      intro time earlier last member
      rw [List.mem_singleton.mp member]
      exact before time earlier
    · intro time member
      exact ⟨_, rfl, all time member⟩
    · intro time member
      exact (all time member).trans within

theorem Kept.step (kept : h.Kept) (onTime : h.OnTime port s) : (h.step port s).Kept := by
  cases s with
  | setFrequency frequency =>
    have simple : (h.config.setFrequency port frequency).Simple ∧
        (h.config.setFrequency port frequency).safe = h.config.safe := by
      obtain ⟨goes, count, index, first, second⟩ := kept.simple
      cases frequency <;> exact ⟨⟨goes, count, index, first, second⟩, rfl⟩
    exact kept.set simple.1 simple.2 onTime
  | setSimplePwmDutyCycle dutyCycle =>
    have set := h.config.dutySet_setSimplePwmDutyCycle dutyCycle
    exact kept.set (kept.simple.dutySet set) set.safe (set.period ▸ kept.period)
  | togglePwmState nowNt laterNt => exact kept.toggled onTime

/-- Two phases, the second of which ends the cycle. -/
structure TwoPhases (seq : PwmSequence) : Prop where
  count : seq.phaseCount = 2
  first : 0 ≤ seq.getSwitchTime 0 ∧ seq.getSwitchTime 0 ≤ 1
  second : seq.getSwitchTime 1 = 1

theorem weComplexInit_kept {c c' : PwmConfig} {seq : PwmSequence} {cycle stateChange : Bool}
    (phases : TwoPhases seq) (started : c.weComplexInit seq cycle stateChange = (true, c'))
    (short : ∀ p ∈ c'.periodNt, ShortPeriod p) : Kept { config := c' } := by
  have fresh : c'.isStopRequested = false ∧ c'.multiChannelStateSequence = seq ∧
      c'.safe.phaseIndex = 0 ∧ c'.safe.periodNt = -1 := by
    rw [PwmConfig.weComplexInit] at started
    split at started
    · cases started
    split at started
    · cases started
    split at started
    · cases started
    split at started
    · cases started
    · cases started
      exact ⟨rfl, rfl, rfl, rfl⟩
  obtain ⟨goes, rfl, first, period⟩ := fresh
  refine ⟨⟨goes, phases.count, by simp [first], phases.first, phases.second⟩, short, ?_,
    List.Pairwise.nil, ?_, .inl ⟨⟨first, period⟩, rfl⟩⟩
  · intro x member
    cases member
  · intro time member
    cases member

/-- A `SimplePwm` that `startSimplePwm` gets to run. -/
theorem startSimplePwm_kept {c c' : PwmConfig} {frequency dutyCycle : ℚ}
    (two : c.multiChannelStateSequence.phaseCount = 2)
    (started : c.startSimplePwm port frequency dutyCycle = (true, c'))
    (short : ∀ p ∈ c'.periodNt, ShortPeriod p) : Kept { config := c' } := by
  rw [PwmConfig.startSimplePwm] at started
  split at started
  · cases started
  next range =>
  split at started
  · cases started
  have phases : TwoPhases ((c.multiChannelStateSequence.setSwitchTime 0 dutyCycle).setSwitchTime 1 1) :=
    ⟨two, not_not.mp range, rfl⟩
  refine weComplexInit_kept ?_ started short
  obtain same | ⟨d, inside, first⟩ := (PwmConfig.dutySet_setSimplePwmDutyCycle _ (some dutyCycle)).sequence
  · rw [same]
    exact phases
  · rw [first]
    exact ⟨two, inside, rfl⟩

/-- From its start on, the moments at which an output toggles are in order, and within 32 bits
from the start of its cycles. -/
theorem ordered_always {c c' : PwmConfig} {frequency dutyCycle : ℚ} (steps : List PwmStep)
    (two : c.multiChannelStateSequence.phaseCount = 2)
    (started : c.startSimplePwm port frequency dutyCycle = (true, c'))
    (short : ∀ p ∈ c'.periodNt, ShortPeriod p)
    (onTime : Guarded (step port) (OnTime port) { config := c' } steps) :
    Always (step port) Ordered { config := c' } steps :=
  (onTime.always (fun _ _ onTime kept => kept.step onTime) (startSimplePwm_kept two started short)).mono
    fun _ kept => kept.ordered

instance (periodNt : ℚ) : Decidable (ShortPeriod periodNt) := inferInstanceAs (Decidable (_ ∧ _))

instance (h : PwmHistory) : (s : PwmStep) → Decidable (h.OnTime port s)
  | .setFrequency frequency =>
    inferInstanceAs (Decidable (∀ p ∈ (h.config.setFrequency port frequency).periodNt, _))
  | .setSimplePwmDutyCycle _ => isTrue trivial
  | .togglePwmState nowNt _ => inferInstanceAs (Decidable (∀ due ∈ h.due, due ≤ nowNt))

/-- An output of 100 Hz, started. -/
def hundredHz : PwmConfig := (SimplePwm.new.startSimplePwm stm32 100 (1 / 2)).2

theorem hundredHz_started : SimplePwm.new.startSimplePwm stm32 100 (1 / 2) = (true, hundredHz) :=
  Prod.ext (by decide +kernel) rfl

/-- A new frequency in the middle of a cycle, a full output, a paused one, and on. -/
theorem ordered_always_hundredHz :
    Always (step stm32) Ordered { config := hundredHz }
      [.togglePwmState 1000 1000, .setFrequency (some 50), .togglePwmState 21000 21000,
        .setSimplePwmDutyCycle (some 1), .togglePwmState 41000 41000, .setFrequency none,
        .togglePwmState 121000 121000, .setFrequency (some 50), .setSimplePwmDutyCycle (some (1 / 4)),
        .togglePwmState 521000 521000] :=
  ordered_always _ rfl hundredHz_started (by decide +kernel) (by decide +kernel)

end PwmHistory

end FomeFw.Timer
