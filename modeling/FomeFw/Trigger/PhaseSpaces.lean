import FomeFw.Lib.Circle
import FomeFw.Timer.TriggerScheduler
import FomeFw.Trigger.PhaseWindows

/-! Two coordinates of one engine cycle. Trigger phases count from the synchronization
point, engine phases from the top dead center; the conversions of `TriggerCentral` turn
one into the other and wrap the result. Fuel and spark test the windows of the teeth in
engine phases, `TriggerScheduler` in trigger phases. -/
namespace FomeFw.Trigger
open FomeFw.Circle Timer

/-- What stands between the two coordinates. -/
structure PhasePlacement where
  tdcPosition : Angle
  globalTriggerAngleOffset : Angle
  mPhaseAdjustment : Angle
  deriving DecidableEq

/-- `EnginePhaseInfo` with its engine-space half. -/
structure EnginePhases extends EnginePhaseInfo where
  currentEngPhase : Angle
  nextEngPhase : Angle
  deriving DecidableEq

/-- The angles that `assertAngleRange` does not report. -/
def InAngleRange (angle : Angle) : Prop := -10000000 ≤ angle ∧ angle ≤ 10000000

namespace EnginePhases

/-- `isPhaseInRange` of an engine phase. -/
def isEngPhaseInRange (test : Angle) (phase : EnginePhases) : Bool :=
  isPhaseInRange test phase.currentEngPhase phase.nextEngPhase

/-- The angle from now of fuel, spark and MAP sampling, in engine phases. -/
def angleFromNow (phase : EnginePhases) (eventAngle : Angle) : Angle :=
  let angleFromNow := eventAngle - phase.currentEngPhase
  if angleFromNow < 0 then angleFromNow + phase.engineCycle else angleFromNow

end EnginePhases

namespace PhasePlacement
variable (placement : PhasePlacement)

def toEngPhase (engineCycle trgPhase : Angle) : Angle :=
  wrapAngle engineCycle (trgPhase - placement.tdcPosition - placement.globalTriggerAngleOffset +
    placement.mPhaseAdjustment)

def toTrgPhase (engineCycle engPhase : Angle) : Angle :=
  wrapAngle engineCycle (engPhase + placement.tdcPosition + placement.globalTriggerAngleOffset -
    placement.mPhaseAdjustment)

/-- What the trigger phase of an angle is ahead of its engine phase, before wrapping. -/
def phaseOffset : Angle :=
  placement.tdcPosition + placement.globalTriggerAngleOffset - placement.mPhaseAdjustment

/-- The phases that `handleShaftSignal` hands out for a tooth. -/
def phases (phase : EnginePhaseInfo) : EnginePhases :=
  { phase with
    currentEngPhase := placement.toEngPhase phase.engineCycle phase.currentTrgPhase
    nextEngPhase := placement.toEngPhase phase.engineCycle phase.nextTrgPhase }

/-- `setAngle` while the coordinates stand this way. -/
def setAngle (s : TriggerScheduler) (engineCycle : Angle) (e : Nat) (angle : Angle) :
    TriggerScheduler :=
  { s with phaseOffset := placement.phaseOffset }.setAngle engineCycle e angle

variable {placement} {engineCycle : Angle}

theorem toEngPhase_eq (trgPhase : Angle) : placement.toEngPhase engineCycle trgPhase =
    wrapAngle engineCycle (trgPhase - placement.phaseOffset) := by
  rw [toEngPhase, phaseOffset]
  congr 1
  ring

theorem toTrgPhase_eq (engPhase : Angle) : placement.toTrgPhase engineCycle engPhase =
    wrapAngle engineCycle (engPhase + placement.phaseOffset) := by
  rw [toTrgPhase, phaseOffset]
  congr 1
  ring

/-- An angle-based event waits for the trigger phase of its angle. -/
theorem setAngle_eventPhase (s : TriggerScheduler) (e : Nat) (angle : Angle) :
    ((placement.setAngle s engineCycle e angle).memory e).eventPhase =
      placement.toTrgPhase engineCycle angle := by
  rw [toTrgPhase_eq, setAngle, TriggerScheduler.setAngle, TriggerScheduler.modify]
  simp only [Function.update_self]

theorem wrapAngle_inCycle (positive : 0 < engineCycle) (angle : Angle) :
    InCycle engineCycle (wrapAngle engineCycle angle) :=
  ⟨(wrapAngle_spec positive angle).1, (wrapAngle_spec positive angle).2.1⟩

theorem wrapAngle_turned (positive : 0 < engineCycle) {angle : Angle} (range : InAngleRange angle) :
    ∃ turns : ℤ, wrapAngle engineCycle angle = angle + turns • engineCycle := by
  obtain ⟨-, -, turns, wrapped⟩ := wrapAngle_spec positive angle
  rw [assertAngleRange_of_mem range.1 range.2] at wrapped
  exact ⟨turns, by rw [wrapped, zsmul_eq_mul]⟩

/-- An angle lies as far ahead of the tooth in engine phases as its trigger phase does in
trigger phases. -/
theorem toTrgPhase_turned (positive : 0 < engineCycle) {trgPhase angle : Angle}
    (toothRange : InAngleRange (trgPhase - placement.phaseOffset))
    (angleRange : InAngleRange (angle + placement.phaseOffset)) :
    ∃ turns : ℤ, placement.toTrgPhase engineCycle angle - trgPhase =
      angle - placement.toEngPhase engineCycle trgPhase + turns • engineCycle := by
  obtain ⟨n, tooth⟩ := wrapAngle_turned positive toothRange
  obtain ⟨m, event⟩ := wrapAngle_turned positive angleRange
  refine ⟨m + n, ?_⟩
  rw [toEngPhase_eq, toTrgPhase_eq, tooth, event, add_zsmul]
  abel

theorem toEngPhase_turned (positive : 0 < engineCycle) {current next : Angle}
    (currentRange : InAngleRange (current - placement.phaseOffset))
    (nextRange : InAngleRange (next - placement.phaseOffset)) :
    ∃ turns : ℤ, placement.toEngPhase engineCycle next - placement.toEngPhase engineCycle current =
      next - current + turns • engineCycle := by
  obtain ⟨n, start⟩ := wrapAngle_turned positive currentRange
  obtain ⟨m, stop⟩ := wrapAngle_turned positive nextRange
  refine ⟨m - n, ?_⟩
  rw [toEngPhase_eq, toEngPhase_eq, start, stop, sub_zsmul]
  abel

/-- Engine phases and trigger phases of one window hold the same angles. -/
theorem isPhaseInRange_spaces {current next angle : Angle} (positive : 0 < engineCycle)
    (start : InCycle engineCycle current) (stop : InCycle engineCycle next)
    (place : InCycle engineCycle angle) (different : current ≠ next)
    (currentRange : InAngleRange (current - placement.phaseOffset))
    (nextRange : InAngleRange (next - placement.phaseOffset))
    (angleRange : InAngleRange (angle + placement.phaseOffset)) :
    isPhaseInRange angle (placement.toEngPhase engineCycle current)
        (placement.toEngPhase engineCycle next) =
      isPhaseInRange (placement.toTrgPhase engineCycle angle) current next := by
  obtain ⟨turns, turned⟩ := toTrgPhase_turned positive currentRange angleRange
  obtain ⟨turns', turnedStop⟩ := toEngPhase_turned positive currentRange nextRange
  have engPhase : ∀ phase, InCycle engineCycle (placement.toEngPhase engineCycle phase) :=
    fun phase => wrapAngle_inCycle positive _
  have trgPhase : InCycle engineCycle (placement.toTrgPhase engineCycle angle) :=
    wrapAngle_inCycle positive _
  rw [Bool.eq_iff_iff, isPhaseInRange_iff, isPhaseInRange_iff]
  refine inWindow_turned (n := -turns) (m := turns') positive start stop trgPhase
    (engPhase current) (engPhase next) place different ?_ turnedStop
  rw [turned, neg_zsmul]
  abel

/-- The two angles from now are one way of counting ahead. -/
theorem getAngleFromNow_eq {phase : EnginePhaseInfo} {event : AngleBasedEvent}
    (positive : 0 < phase.engineCycle) (start : InCycle phase.engineCycle phase.currentTrgPhase)
    (waits : InCycle phase.engineCycle event.eventPhase) :
    TriggerScheduler.getAngleFromNow event phase =
      ahead positive phase.currentTrgPhase event.eventPhase :=
  (ahead_eq start waits).symm

theorem angleFromNow_eq {phase : EnginePhaseInfo} (positive : 0 < phase.engineCycle)
    (place : InCycle phase.engineCycle angle) :
    (placement.phases phase).angleFromNow angle =
      ahead positive (placement.toEngPhase phase.engineCycle phase.currentTrgPhase) angle :=
  (ahead_eq (wrapAngle_inCycle positive _) place).symm

end PhasePlacement

end FomeFw.Trigger
