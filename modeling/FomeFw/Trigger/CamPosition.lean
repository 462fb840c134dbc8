import FomeFw.Lib.Machine
import FomeFw.Trigger.DecoderSteps
import FomeFw.Trigger.VvtCamSignal
import Mathlib.Algebra.Order.ToIntervalMod
import Mathlib.Data.Rat.Floor

/-! The recorded position of a cam against the phase of the crank. Angles are compared up to whole
periods of the cam; a position is right when it was taken in the phase that is in force after the
event. -/
namespace FomeFw.Trigger
open Machine

section Wrapping

variable {period vvtPosition v w : Angle} {rounds : Nat} {mode : VvtMode}

theorem raiseVvt_eq :
    raiseVvt period rounds v = raiseAngle period rounds (v + period / 2) - period / 2 := by
  induction rounds generalizing v with
  | zero => simp [raiseVvt, raiseAngle]
  | succ rounds ih =>
    have low : v < -period / 2 ↔ v + period / 2 < 0 := by
      constructor <;> intro h <;> linarith
    simp only [raiseVvt, raiseAngle, low, ih]
    split
    · rw [add_right_comm]
    · rw [add_sub_cancel_right]

theorem lowerVvt_eq :
    lowerVvt period rounds v = lowerAngle period rounds (v + period / 2) - period / 2 := by
  induction rounds generalizing v with
  | zero => simp [lowerVvt, lowerAngle]
  | succ rounds ih =>
    have high : v ≥ period / 2 ↔ v + period / 2 ≥ period := by
      constructor <;> intro h <;> linarith
    simp only [lowerVvt, lowerAngle, high, ih]
    split
    · rw [sub_add_eq_add_sub]
    · rw [add_sub_cancel_right]

/-- The loops leave the one position around zero that differs by whole periods. -/
theorem wrapVvt_eq (positive : 0 < period) (v : Angle) :
    wrapVvt v period = toIcoMod positive (-(period / 2)) v := by
  have turns : |v| < (⌊|v| / period⌋₊ + 1 : ℕ) * period := by
    rw [← div_lt_iff₀ positive]
    exact_mod_cast Nat.lt_floor_add_one _
  obtain ⟨above, below⟩ := abs_lt.mp turns
  rw [wrapVvt, lowerVvt_eq, raiseVvt_eq, sub_add_cancel]
  generalize ⌊|v| / period⌋₊ + 1 = rounds at turns above below ⊢
  have more : 0 ≤ (rounds : Angle) * period := by positivity
  obtain ⟨nonneg, small, n, raised⟩ := @raiseAngle_spec period (v + period / 2) rounds (by linarith)
  obtain ⟨low, high, m, lowered⟩ := @lowerAngle_spec period _ rounds nonneg (by
    rcases small with small | small <;> linarith)
  refine ((toIcoMod_eq_iff positive).mpr ⟨⟨?_, ?_⟩, -(n + m), ?_⟩).symm
  · linarith
  · linarith
  · rw [lowered, raised, zsmul_eq_mul]
    push_cast
    ring

end Wrapping

/-- The range in which positions of the type lie. -/
def VvtMode.period : VvtMode → Angle
  | .hondaKIntake | .toyota3Tooth => 180
  | _ => 720

theorem VvtMode.period_pos (mode : VvtMode) : 0 < mode.period := by
  cases mode <;> simp [period]

/-- A crank cycle, and half of it, are whole periods. -/
theorem VvtMode.modEq_period {mode : VvtMode} {a b : Angle} (same : a ≡ b [PMOD 720]) :
    a ≡ b [PMOD mode.period] := by
  have four : (720 : Angle) = (4 : ℕ) • 180 := by norm_num
  cases mode <;> first | exact same | exact (four ▸ same).of_nsmul

theorem wrapVvt_modEq {period : Angle} (positive : 0 < period) (v : Angle) :
    wrapVvt v period ≡ v [PMOD period] := by
  rw [wrapVvt_eq positive, ← toIcoMod_inj positive (c := -(period / 2)), toIcoMod_toIcoMod]

theorem wrapVvtForCamType_eq {mode : VvtMode} {v w : Angle} :
    wrapVvtForCamType v mode = wrapVvtForCamType w mode ↔ v ≡ w [PMOD mode.period] := by
  have wraps : ∀ v, wrapVvtForCamType v mode = wrapVvt v mode.period := by
    intro v
    cases mode <;> rfl
  rw [wraps, wraps, wrapVvt_eq mode.period_pos, wrapVvt_eq mode.period_pos, toIcoMod_inj]

/-- Which turn of the crank a cam event of the type stands for. -/
def VvtMode.remainder : VvtMode → Option Nat
  | .mapVTwin | .mitsubishi4G63 | .mitsubishi4G9x => some 1
  | .hondaKIntake | .inactive => none
  | _ => some 0

namespace TriggerCentral

variable {tc : TriggerCentral} {s : CamSignal} {v trgPhase : Angle} {remainder : Nat}

/-- Whether the speed is one at which cams put the crank in phase. -/
def resolvesAt (tc : TriggerCentral) (rpm : ℚ) : Prop :=
  (tc.settings.minCamPhaseResolveRpm = 0 ∨ tc.settings.minCamPhaseResolveRpm ≤ rpm) ∧
    (tc.settings.maxCamPhaseResolveRpm = 0 ∨ rpm ≤ tc.settings.maxCamPhaseResolveRpm)

instance (rpm : ℚ) : Decidable (tc.resolvesAt rpm) := inferInstanceAs (Decidable (_ ∧ _))

/-- The turn that the crank is put in, where the event puts it in one. -/
def camRemainder (tc : TriggerCentral) (s : CamSignal) : Option Nat :=
  if (s.index : Nat) = tc.settings.engineSyncCam ∧ tc.resolvesAt s.rpm ∧
      getCrankDivider tc.settings.operationMode ≠ 1 then
    (tc.settings.vvtMode s.camIndex).remainder
  else none

/-- The phase adjustment that puts the crank in the turn. -/
def camShift (tc : TriggerCentral) (remainder : Nat) : Angle :=
  PrimaryTriggerDecoder.totalShift tc.triggerState.base.crankSynchronizationCounter
    (getCrankDivider tc.settings.operationMode) remainder tc.engineCycle

theorem adjustCrankPhase_eq :
    tc.adjustCrankPhase s =
      if tc.resolvesAt s.rpm ∧ getCrankDivider tc.settings.operationMode ≠ 1 then
        match (tc.settings.vvtMode s.camIndex).remainder with
        | some remainder =>
          tc.syncAndReport (getCrankDivider tc.settings.operationMode) remainder
        | none => (tc, 0)
      else (tc, 0) := by
  have window : (decide (tc.settings.minCamPhaseResolveRpm ≠ 0) &&
      decide (s.rpm < tc.settings.minCamPhaseResolveRpm) ||
      (decide (tc.settings.maxCamPhaseResolveRpm ≠ 0) &&
        decide (s.rpm > tc.settings.maxCamPhaseResolveRpm))) = !decide (tc.resolvesAt s.rpm) := by
    rw [Bool.eq_iff_iff, Bool.not_eq_true', decide_eq_false_iff_not, resolvesAt, not_and_or, not_or,
      not_or, not_le, not_le]
    simp only [Bool.or_eq_true, Bool.and_eq_true, decide_eq_true_eq, gt_iff_lt, ne_eq]
  simp only [adjustCrankPhase, window]
  by_cases resolves : tc.resolvesAt s.rpm
  · by_cases single : getCrankDivider tc.settings.operationMode = 1
    · simp [resolves, single]
    · simp only [resolves, decide_true, Bool.not_true, Bool.false_eq_true, if_false, single, ne_eq,
        not_false_eq_true, and_self, if_true]
      cases tc.settings.vvtMode s.camIndex <;> rfl
  · simp [resolves]

theorem syncCrank_of_none (none : tc.camRemainder s = none) : tc.syncCrank s v = (tc, v) := by
  rw [camRemainder] at none
  rw [syncCrank]
  by_cases chosen : (s.index : Nat) = tc.settings.engineSyncCam
  · have still : tc.adjustCrankPhase s = (tc, 0) := by
      rw [adjustCrankPhase_eq]
      split
      · next resolves =>
        rw [if_pos ⟨chosen, resolves⟩] at none
        rw [none]
      · rfl
    simp only [if_pos chosen, still]
    cases tc.hasSynchronizedPhase <;> rfl
  · rw [if_neg chosen]

/-- Only a crank that turns several times in a cycle of two revolutions is put in phase. -/
theorem camRemainder_spec (some : tc.camRemainder s = some remainder) :
    (s.index : Nat) = tc.settings.engineSyncCam ∧
      tc.adjustCrankPhase s =
        tc.syncAndReport (getCrankDivider tc.settings.operationMode) remainder ∧
      remainder < getCrankDivider tc.settings.operationMode ∧
      1 < getCrankDivider tc.settings.operationMode ∧ tc.engineCycle = 720 ∧
      ∃ part : ℕ, ((getCrankDivider tc.settings.operationMode * part : ℕ) : Angle) = 720 := by
  rw [camRemainder] at some
  split at some
  · next resolves =>
    have few : remainder < 2 := by
      cases mode : tc.settings.vvtMode s.camIndex <;>
        simp only [mode, VvtMode.remainder, Option.some.injEq, reduceCtorEq] at some <;> omega
    have cycle : 1 < getCrankDivider tc.settings.operationMode ∧ tc.engineCycle = 720 ∧
        ∃ part : ℕ, ((getCrankDivider tc.settings.operationMode * part : ℕ) : Angle) = 720 := by
      have several := resolves.2.2
      rw [engineCycle]
      cases mode : tc.settings.operationMode <;> rw [mode] at several
      · exact absurd rfl several
      · exact ⟨by decide, rfl, 360, by norm_num [getCrankDivider]⟩
      · exact absurd rfl several
      · exact absurd rfl several
      · exact ⟨by decide, rfl, 180, by norm_num [getCrankDivider]⟩
      · exact ⟨by decide, rfl, 120, by norm_num [getCrankDivider]⟩
      · exact ⟨by decide, rfl, 30, by norm_num [getCrankDivider]⟩
    refine ⟨resolves.1, ?_, lt_of_lt_of_le few cycle.1, cycle⟩
    rw [adjustCrankPhase_eq, if_pos resolves.2, some]
  · contradiction

theorem synced_syncAndReport (some : tc.camRemainder s = some remainder) :
    (tc.syncAndReport (getCrankDivider tc.settings.operationMode)
      remainder).1.triggerState.derived.mHasSynchronizedPhase = true := by
  obtain ⟨-, -, inside, several, -⟩ := camRemainder_spec some
  rw [syncAndReport, PrimaryTriggerDecoder.syncEnginePhase, if_pos ⟨several, inside⟩]
  exact FullSync.adjust_mHasSynchronizedPhase _

theorem hasSynchronizedPhase_of_flag
    (flag : tc.triggerState.derived.mHasSynchronizedPhase = true) : tc.hasSynchronizedPhase = true := by
  rw [hasSynchronizedPhase, flag, ite_self]

theorem syncCrank_of_some (some : tc.camRemainder s = some remainder) :
    tc.syncCrank s v =
      ((tc.syncAndReport (getCrankDivider tc.settings.operationMode) remainder).1,
        if tc.hasSynchronizedPhase then v else v - tc.camShift remainder) := by
  obtain ⟨chosen, adjusts, inside, several, -⟩ := camRemainder_spec some
  have shift : (tc.syncAndReport (getCrankDivider tc.settings.operationMode) remainder).2 =
      tc.camShift remainder := by
    rw [syncAndReport, PrimaryTriggerDecoder.syncEnginePhase, if_pos ⟨several, inside⟩]
    rfl
  have synced := hasSynchronizedPhase_of_flag (synced_syncAndReport some)
  simp only [syncCrank, if_pos chosen, adjusts, shift, synced, Bool.and_true]
  cases tc.hasSynchronizedPhase <;> rfl

/-- The adjustment that is stored is the one asked for. -/
theorem mPhaseAdjustment_syncAndReport (some : tc.camRemainder s = some remainder) :
    ((tc.syncAndReport (getCrankDivider tc.settings.operationMode)
      remainder).1.triggerState.derived.mPhaseAdjustment : Angle) = tc.camShift remainder := by
  obtain ⟨-, -, inside, several, cycle, part, divides⟩ := camRemainder_spec some
  rw [syncAndReport, camShift, cycle, ← divides]
  exact tc.triggerState.mPhaseAdjustment_syncEnginePhase several inside rfl (by rw [divides])

theorem settings_syncCrank : (tc.syncCrank s v).1.settings = tc.settings := by
  cases puts : tc.camRemainder s with
  | none => rw [syncCrank_of_none puts]
  | some remainder =>
    rw [syncCrank_of_some puts]
    rfl

theorem recordCam_spec (tc : TriggerCentral) (s : CamSignal) (v : Angle) :
    (tc.recordCam s v).settings = tc.settings ∧
      (tc.recordCam s v).triggerState = (tc.syncCrank s v).1.triggerState ∧
      ((tc.recordCam s v).hasSynchronizedPhase = true →
        (tc.recordCam s v).vvtPosition s.bankIndex s.camIndex =
          ⟨wrapVvtForCamType (tc.syncCrank s v).2 (tc.settings.vvtMode s.camIndex), s.nowNt⟩) := by
  have settings := @settings_syncCrank tc s v
  simp only [recordCam]
  by_cases synced : (tc.syncCrank s v).1.hasSynchronizedPhase = true
  · rw [if_pos synced]
    refine ⟨settings, rfl, fun _ => ?_⟩
    simp only [setVvtPosition, Function.update_self, settings]
  · rw [if_neg synced]
    exact ⟨settings, rfl, fun after => absurd after synced⟩

/-- Reading a cam changes no more than its decoder. -/
theorem readCam_fst (tc : TriggerCentral) (s : CamSignal) :
    ∃ vvtState, (tc.readCam s).1 = { tc with vvtState } := by
  simp only [readCam]
  split
  · exact ⟨_, rfl⟩
  split
  · exact ⟨_, rfl⟩
  split
  · exact ⟨_, rfl⟩
  split
  · exact ⟨_, rfl⟩
  split <;> exact ⟨_, rfl⟩

theorem acceptTooth_modEq {mode : VvtMode} {position : Angle}
    (accepted : acceptTooth position mode = some v) : v ≡ position [PMOD mode.period] := by
  cases mode
  case toyota3Tooth =>
    simp only [acceptTooth] at accepted
    split at accepted
    · contradiction
    · obtain rfl := Option.some.inj accepted
      have two : (2 : ℕ) • (180 : Angle) = 360 := by norm_num
      have near : wrapVvt position 360 ≡ position [PMOD (2 : ℕ) • (180 : Angle)] := by
        rw [two]
        exact wrapVvt_modEq (by norm_num) position
      exact near.of_nsmul
  all_goals
    obtain rfl := Option.some.inj accepted
    rfl

/-- The position that is read is that of the phase before the event. -/
theorem readCam_snd (reads : (tc.readCam s).2 = some (trgPhase, v)) :
    v ≡ tc.settings.vvtOffsets s.index - tc.toEngPhase trgPhase
      [PMOD (tc.settings.vvtMode s.camIndex).period] := by
  simp only [readCam] at reads
  split at reads
  · contradiction
  split at reads
  · contradiction
  split at reads
  · contradiction
  split at reads
  · contradiction
  split at reads
  · contradiction
  obtain ⟨position, accepted, same⟩ := Option.map_eq_some_iff.mp reads
  obtain ⟨rfl, rfl⟩ := Prod.mk.inj same
  exact acceptTooth_modEq accepted

/-- The angle that the phase is wrapped from. -/
def adjustedAngle (tc : TriggerCentral) (trgPhase adjustment : Angle) : Angle :=
  assertAngleRange (trgPhase - tc.settings.placement.tdcPosition -
    tc.settings.placement.globalTriggerAngleOffset + adjustment)

theorem toEngPhase_modEq (cycle : tc.engineCycle = 720) (trgPhase : Angle) :
    tc.toEngPhase trgPhase ≡
      tc.adjustedAngle trgPhase tc.triggerState.derived.mPhaseAdjustment [PMOD 720] := by
  rw [toEngPhase, Trigger.toEngPhase, cycle, adjustedAngle]
  obtain ⟨-, -, n, whole⟩ := wrapAngle_spec (by norm_num : (0 : Angle) < 720)
    (trgPhase - tc.settings.placement.tdcPosition -
      tc.settings.placement.globalTriggerAngleOffset + tc.triggerState.derived.mPhaseAdjustment)
  rw [whole, ← zsmul_eq_mul]
  exact AddCommGroup.add_zsmul_modEq n

/-- An event that tells a position moves a phase that is in force by whole periods of the cam
only; on the way to full synchronization it moves it by the shift. -/
def KeepsPhase (tc : TriggerCentral) (s : CamSignal) : Prop :=
  ∀ trgPhase v remainder, (tc.readCam s).2 = some (trgPhase, v) →
    tc.camRemainder s = some remainder →
    (if tc.hasSynchronizedPhase then
      tc.adjustedAngle trgPhase tc.triggerState.derived.mPhaseAdjustment
    else tc.adjustedAngle trgPhase 0 + tc.camShift remainder) ≡
      tc.adjustedAngle trgPhase (tc.camShift remainder) [PMOD (tc.settings.vvtMode s.camIndex).period]

/-- Without full synchronization the phase is not adjusted. -/
def Unadjusted (tc : TriggerCentral) : Prop :=
  tc.triggerState.derived.mHasSynchronizedPhase = false →
    tc.triggerState.derived.mPhaseAdjustment = 0

theorem modEq_sub_iff {period x c a b : Angle} (taken : x ≡ c - a [PMOD period]) :
    x ≡ c - b [PMOD period] ↔ a ≡ b [PMOD period] := by
  constructor
  · exact fun due => (taken.symm.trans due).sub_left_cancel' c
  · exact fun same => taken.trans (same.sub_left c)

theorem hwHandleVvtCamSignal_of_reads (reads : (tc.readCam s).2 = some (trgPhase, v)) :
    tc.hwHandleVvtCamSignal s = (tc.readCam s).1.recordCam s v := by
  rw [hwHandleVvtCamSignal]
  generalize tc.readCam s = result at reads
  obtain ⟨tc', told⟩ := result
  simp only at reads
  rw [reads]

/-- The position is that of the phase in force after it is recorded. -/
def Records (tc : TriggerCentral) (s : CamSignal) (trgPhase : Angle) (after : TriggerCentral) : Prop :=
  after.hasSynchronizedPhase = true →
    after.vvtPosition s.bankIndex s.camIndex =
      ⟨wrapVvtForCamType (tc.settings.vvtOffsets s.index - after.toEngPhase trgPhase)
        (tc.settings.vvtMode s.camIndex), s.nowNt⟩

/-- A cam that does not put the crank in phase records the position it has read. -/
theorem records_of_none (puts : tc.camRemainder s = none)
    (told : v ≡ tc.settings.vvtOffsets s.index - tc.toEngPhase trgPhase
      [PMOD (tc.settings.vvtMode s.camIndex).period]) :
    tc.Records s trgPhase (tc.recordCam s v) := by
  intro after
  obtain ⟨settings, triggerState, recorded⟩ := tc.recordCam_spec s v
  have phase : (tc.recordCam s v).toEngPhase trgPhase = tc.toEngPhase trgPhase := by
    rw [toEngPhase, engineCycle, settings, triggerState, syncCrank_of_none puts]
    rfl
  rw [recorded after, syncCrank_of_none puts, phase]
  exact congrArg (VvtPos.mk · s.nowNt) (wrapVvtForCamType_eq.mpr told)

/-- The cam that puts the crank in phase records the position of the phase in force just when it
leaves the phase as it was, or when the correction makes up for it. -/
theorem records_iff_of_some (unadjusted : tc.Unadjusted)
    (puts : tc.camRemainder s = some remainder)
    (told : v ≡ tc.settings.vvtOffsets s.index - tc.toEngPhase trgPhase
      [PMOD (tc.settings.vvtMode s.camIndex).period]) :
    tc.Records s trgPhase (tc.recordCam s v) ↔
      (if tc.hasSynchronizedPhase then
        tc.adjustedAngle trgPhase tc.triggerState.derived.mPhaseAdjustment
      else tc.adjustedAngle trgPhase 0 + tc.camShift remainder) ≡
        tc.adjustedAngle trgPhase (tc.camShift remainder)
        [PMOD (tc.settings.vvtMode s.camIndex).period] := by
  have cycle := (camRemainder_spec puts).2.2.2.2.1
  have shift := mPhaseAdjustment_syncAndReport puts
  obtain ⟨settings, triggerState, recorded⟩ := tc.recordCam_spec s v
  rw [syncCrank_of_some puts] at triggerState recorded
  -- the phase that is in force before, and the one after
  have before := @VvtMode.modEq_period (tc.settings.vvtMode s.camIndex) _ _
    (toEngPhase_modEq cycle trgPhase)
  have after : (tc.recordCam s v).toEngPhase trgPhase ≡
      tc.adjustedAngle trgPhase (tc.camShift remainder)
      [PMOD (tc.settings.vvtMode s.camIndex).period] := by
    apply VvtMode.modEq_period
    have cycle' : (tc.recordCam s v).engineCycle = 720 := by
      rw [engineCycle, settings]
      exact cycle
    have phase := toEngPhase_modEq cycle' trgPhase
    rw [adjustedAngle, settings, triggerState, shift] at phase
    exact phase
  have synced : (tc.recordCam s v).hasSynchronizedPhase = true := by
    apply hasSynchronizedPhase_of_flag
    rw [triggerState]
    exact synced_syncAndReport puts
  have positions : tc.Records s trgPhase (tc.recordCam s v) ↔
      (if tc.hasSynchronizedPhase then v else v - tc.camShift remainder) ≡
        tc.settings.vvtOffsets s.index - (tc.recordCam s v).toEngPhase trgPhase
        [PMOD (tc.settings.vvtMode s.camIndex).period] := by
    rw [← wrapVvtForCamType_eq, Records, recorded synced]
    simp only [VvtPos.mk.injEq, and_true]
    exact ⟨fun right => right synced, fun right _ => right⟩
  rw [positions]
  by_cases sync : tc.hasSynchronizedPhase = true
  · rw [if_pos sync, if_pos sync, modEq_sub_iff told]
    exact ⟨fun same => (before.symm.trans same).trans after,
      fun same => (before.trans same).trans after.symm⟩
  · rw [if_neg sync, if_neg sync]
    have zero : tc.triggerState.derived.mPhaseAdjustment = 0 := by
      apply unadjusted
      by_contra flag
      exact sync (hasSynchronizedPhase_of_flag (by simpa using flag))
    rw [zero, Nat.cast_zero] at before
    have corrected := told.sub_right (tc.camShift remainder)
    rw [sub_sub] at corrected
    rw [modEq_sub_iff corrected]
    have before := before.add_right (tc.camShift remainder)
    exact ⟨fun same => (before.symm.trans same).trans after,
      fun same => (before.trans same).trans after.symm⟩

/-- Whatever position the event records is right. -/
def RecordsRight (tc : TriggerCentral) (s : CamSignal) : Prop :=
  ∀ trgPhase v, (tc.readCam s).2 = some (trgPhase, v) →
    tc.Records s trgPhase (tc.hwHandleVvtCamSignal s)

theorem recordsRight_iff (unadjusted : tc.Unadjusted) : tc.RecordsRight s ↔ tc.KeepsPhase s := by
  obtain ⟨vvtState, same⟩ := tc.readCam_fst s
  have recorded : ∀ trgPhase v, (tc.readCam s).2 = some (trgPhase, v) →
      tc.hwHandleVvtCamSignal s = { tc with vvtState }.recordCam s v := by
    intro trgPhase v reads
    rw [hwHandleVvtCamSignal_of_reads reads, same]
  constructor
  · intro right trgPhase v remainder reads puts
    have here := right trgPhase v reads
    have told := readCam_snd reads
    rw [recorded trgPhase v reads] at here
    exact (@records_iff_of_some { tc with vvtState } s v _ _ unadjusted puts told).mp here
  · intro keeps trgPhase v reads
    have told := readCam_snd reads
    rw [recorded trgPhase v reads]
    cases puts : tc.camRemainder s with
    | none => exact @records_of_none { tc with vvtState } s v _ puts told
    | some remainder =>
      exact (@records_iff_of_some { tc with vvtState } s v _ _ unadjusted puts told).mpr
        (keeps trgPhase v remainder reads puts)

theorem unadjusted_recordCam (unadjusted : tc.Unadjusted) : (tc.recordCam s v).Unadjusted := by
  rw [Unadjusted, (tc.recordCam_spec s v).2.1]
  cases puts : tc.camRemainder s with
  | none =>
    rw [syncCrank_of_none puts]
    exact unadjusted
  | some remainder =>
    rw [syncCrank_of_some puts]
    intro flag
    exact absurd ((synced_syncAndReport puts).symm.trans flag) (by decide)

theorem unadjusted_step (unadjusted : tc.Unadjusted) (what : CentralStep) :
    (tc.step what).Unadjusted := by
  cases what with
  | shaft input eventAngle =>
    have kept := @TriggerDecoder.decodeTriggerEvent_derived _ PrimaryTriggerDecoder.kind
      tc.settings.triggerShape tc.settings.primaryTriggerConfiguration input tc.triggerState
      (fun f => f.mHasSynchronizedPhase = false → f.mPhaseAdjustment = 0)
      (fun _ _ _ => rfl) (fun _ _ _ => rfl) unadjusted
    simp only [step]
    split <;> exact kept
  | cam s =>
    have kept : (tc.readCam s).1.Unadjusted := by
      obtain ⟨vvtState, same⟩ := tc.readCam_fst s
      rw [same]
      exact unadjusted
    rw [step, hwHandleVvtCamSignal]
    generalize tc.readCam s = result at kept ⊢
    obtain ⟨tc', told⟩ := result
    cases told with
    | none => exact kept
    | some told => exact unadjusted_recordCam kept
  | resetState => exact fun _ => rfl
  | setNeedsDisambiguation needs expect => exact fun _ => rfl
  | configure settings => exact unadjusted

/-- In every run the recorded positions are those of the phase in force just when no cam event
moves a phase that is already in force. -/
theorem recordsRight_always_iff (settings : TriggerSettings) (steps : List CentralStep) :
    Guarded step (fun tc what => ∀ s, what = .cam s → tc.RecordsRight s) { settings } steps ↔
      Guarded step (fun tc what => ∀ s, what = .cam s → tc.KeepsPhase s) { settings } steps := by
  apply @Guarded.iff_of_invariant _ _ _ _ _ _ Unadjusted
  · intro tc what unadjusted
    exact forall_congr' fun s => imp_congr_right fun _ => recordsRight_iff unadjusted
  · exact fun tc what _ unadjusted => unadjusted_step unadjusted what
  · exact fun _ => rfl

theorem camShift_range (some : tc.camRemainder s = some remainder) :
    0 ≤ tc.camShift remainder ∧ tc.camShift remainder < 720 := by
  obtain ⟨-, -, inside, several, cycle, part, divides⟩ := camRemainder_spec some
  obtain ⟨shift, few, -, total⟩ := PrimaryTriggerDecoder.totalShift_eq
    tc.triggerState.base.crankSynchronizationCounter part (by omega) inside
  rw [camShift, cycle, ← divides, total]
  have parts : 0 < part := by
    refine Nat.pos_of_ne_zero fun empty => ?_
    simp [empty] at divides
  have less : shift * part < getCrankDivider tc.settings.operationMode * part :=
    Nat.mul_lt_mul_of_pos_right few parts
  exact ⟨Nat.cast_nonneg _, by exact_mod_cast less⟩

/-- At angles that are not out of all range, only a cam event that changes the adjustment under a
full synchronization moves the phase. -/
theorem keepsPhase_iff (fits : tc.triggerState.derived.mPhaseAdjustment < 2 ^ 16)
    (near : ∀ trgPhase v, (tc.readCam s).2 = some (trgPhase, v) → |trgPhase| ≤ 900000) :
    tc.KeepsPhase s ↔ ∀ trgPhase v remainder, (tc.readCam s).2 = some (trgPhase, v) →
      tc.camRemainder s = some remainder → tc.hasSynchronizedPhase = true →
      (tc.triggerState.derived.mPhaseAdjustment : Angle) ≡ tc.camShift remainder
        [PMOD (tc.settings.vvtMode s.camIndex).period] := by
  refine forall_congr' fun trgPhase => forall_congr' fun v => forall_congr' fun remainder => ?_
  refine imp_congr_right fun reads => imp_congr_right fun puts => ?_
  have plain : ∀ x : Angle, 0 ≤ x → x ≤ 2 ^ 16 → tc.adjustedAngle trgPhase x =
      trgPhase - tc.settings.placement.tdcPosition -
        tc.settings.placement.globalTriggerAngleOffset + x := by
    intro x nonneg small
    obtain ⟨above, below⟩ := abs_le.mp tc.settings.placement.small
    obtain ⟨above', below'⟩ := abs_le.mp (near trgPhase v reads)
    exact assertAngleRange_of_mem (by linarith) (by linarith)
  obtain ⟨nonneg, small⟩ := camShift_range puts
  have stored : (tc.triggerState.derived.mPhaseAdjustment : Angle) ≤ 2 ^ 16 := by
    exact_mod_cast fits.le
  rw [plain _ (Nat.cast_nonneg _) stored, plain 0 le_rfl (by norm_num),
    plain _ nonneg (by linarith)]
  by_cases sync : tc.hasSynchronizedPhase = true
  · simp only [sync, if_true, forall_const]
    exact ⟨fun same => same.add_left_cancel' _, fun same => same.add_left _⟩
  · rw [if_neg sync, add_zero]
    exact iff_of_true AddCommGroup.modEq_rfl fun synced => absurd synced sync

end TriggerCentral

/-- A crank wheel with one tooth, and a cam with one tooth. -/
def oneTooth : TriggerWaveform :=
  { halfMoon with operationMode := .fourStrokeCrankSensor, syncEdge := .riseOnly }

theorem noOffsets_small : |(0 : Angle) + 0| ≤ 9000000 := by decide +kernel

def oneToothSettings : TriggerSettings where
  triggerShape := oneTooth
  operationMode := .fourStrokeCrankSensor
  placement := ⟨0, 0, noOffsets_small⟩
  vvtMode _ := .singleTooth
  vvtShape _ := oneTooth
  vvtOffsets _ := 0
  engineSyncCam := 0

/-- The cam comes once more a revolution later than it should, 100 degrees behind the tooth of the
crank: it turns the phase by a revolution, and records the position in the old one. -/
theorem resync_records_old_phase :
    let degree : Option { us : ℚ // 0 < us } := some ⟨250, by decide +kernel⟩
    let before : TriggerCentral :=
      [CentralStep.setNeedsDisambiguation true true,
        .shaft ⟨.primaryRising, 1000000, 600⟩ 0, .cam ⟨true, 1100000, 0, 600, degree⟩,
        .shaft ⟨.primaryRising, 1360000, 600⟩ 360].foldl TriggerCentral.step
          { settings := oneToothSettings }
    let cam : CamSignal := ⟨true, 1460000, 0, 600, degree⟩
    let after := before.hwHandleVvtCamSignal cam
    ¬before.RecordsRight cam ∧ before.hasSynchronizedPhase = true ∧
      (before.vvtPosition 0 0).angle = -100 ∧
      before.triggerState.derived.mPhaseAdjustment = 0 ∧
      after.triggerState.derived.mPhaseAdjustment = 360 ∧
      (after.vvtPosition 0 0).angle = 260 ∧
      wrapVvtForCamType (0 - after.toEngPhase 460) .singleTooth = -100 := by
  intro degree before cam after
  refine ⟨?_, ?_⟩
  · intro right
    have same := right 460 (-460) (by decide +kernel) (by decide +kernel)
    exact absurd same (by decide +kernel)
  · decide +kernel

end FomeFw.Trigger
