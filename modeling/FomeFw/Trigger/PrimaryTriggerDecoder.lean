import FomeFw.Trigger.TriggerDecoder

/-! The decoder of the primary trigger, `PrimaryTriggerDecoder`: where the wave form
repeats within the engine cycle, a cam tells which of its turns the crank is in, and
the phase adjustment makes the engine phase start in the right one. -/
namespace FomeFw.Trigger

/-- `trigger_state_primary_s` and the flags of `PrimaryTriggerDecoder`. -/
structure FullSync where
  mCamResyncCounter : Nat := 0
  mPhaseAdjustment : Nat := 0
  mHasSynchronizedPhase : Bool := false
  mNeedsDisambiguation : Bool := false
  mExpectDisambiguation : Bool := false
  deriving DecidableEq

namespace FullSync

def resetHasFullSync (f : FullSync) : FullSync :=
  { f with
    mHasSynchronizedPhase := !f.mNeedsDisambiguation
    mPhaseAdjustment := 0 }

def setNeedsDisambiguation (f : FullSync) (needsDisambiguation expectDisambiguation : Bool) :
    FullSync :=
  { f with
    mNeedsDisambiguation := needsDisambiguation
    mExpectDisambiguation := expectDisambiguation }.resetHasFullSync

/-- The locked part of `syncEnginePhase`; the angle is stored in an `uint16_t`. -/
def adjust (f : FullSync) (totalShift : Angle) : FullSync :=
  let f := { f with mHasSynchronizedPhase := true }
  if (f.mPhaseAdjustment : Angle) ≠ totalShift then
    { f with
      mPhaseAdjustment := ⌊totalShift⌋₊ % 2 ^ 16
      mCamResyncCounter := (f.mCamResyncCounter + 1) % 2 ^ 8 }
  else f

variable {f : FullSync}

@[simp] theorem adjust_mHasSynchronizedPhase (totalShift : Angle) :
    (f.adjust totalShift).mHasSynchronizedPhase = true := by
  simp only [adjust]
  split <;> rfl

@[simp] theorem adjust_mNeedsDisambiguation (totalShift : Angle) :
    (f.adjust totalShift).mNeedsDisambiguation = f.mNeedsDisambiguation := by
  simp only [adjust]
  split <;> rfl

end FullSync

abbrev PrimaryTriggerDecoder := TriggerDecoder FullSync

namespace PrimaryTriggerDecoder

/-- Every trigger error and every reset costs the full synchronization; the engine
listens to the primary decoder. -/
def kind : DecoderKind FullSync where
  onTriggerError := FullSync.resetHasFullSync
  onReset := FullSync.resetHasFullSync
  hasListener := true

def new : PrimaryTriggerDecoder where
  base := ({} : TriggerDecoderBase).resetState
  derived := ({} : FullSync).resetHasFullSync

/-- How far the phase has to move for the present revolution to be number `remainder`. -/
def totalShift (crankSynchronizationCounter divider remainder : Nat) (engineCycle : Angle) : Angle :=
  let currentRemainder := crankSynchronizationCounter % divider
  let totalShift := ((remainder : Angle) - currentRemainder) * engineCycle / divider
  if totalShift < 0 then totalShift + engineCycle else totalShift

/-- `syncEnginePhase`, with the shift it returns. -/
def syncEnginePhase (d : PrimaryTriggerDecoder) (divider remainder : Nat) (engineCycle : Angle) :
    PrimaryTriggerDecoder × Angle :=
  if 1 < divider ∧ remainder < divider then
    let shift := totalShift d.base.crankSynchronizationCounter divider remainder engineCycle
    ({ d with derived := d.derived.adjust shift }, shift)
  else (d, 0)

/-- A cam event as `hwHandleVvtCamSignal` lets it through: only with a synchronized shaft. -/
def camSync (d : PrimaryTriggerDecoder) (divider remainder : Nat) (engineCycle : Angle) :
    PrimaryTriggerDecoder :=
  if d.base.shaftIsSynchronized then (d.syncEnginePhase divider remainder engineCycle).1 else d

end PrimaryTriggerDecoder

end FomeFw.Trigger
