import FomeFw.Trigger.DecoderSteps
import FomeFw.Trigger.PrimaryTriggerDecoder

/-! Full synchronization of the primary decoder against synchronization of its shaft.
A record beside the decoder remembers what the shaft and the revolution counter were
like at the last cam synchronization; full synchronization is in force while neither
has been lost since. -/
namespace FomeFw.Trigger

/-- What happens to the primary decoder. A timeout is an edge that comes too late. -/
inductive PrimaryStep where
  | edge (input : EdgeInput)
  | syncEnginePhase (divider remainder : Nat) (engineCycle : Angle)
  | reset
  | setNeedsDisambiguation (needsDisambiguation expectDisambiguation : Bool)

/-- How often the shaft had been lost, and the revolution counter restarted. -/
structure ShaftRecord where
  losses : Nat
  restarts : Nat
  deriving DecidableEq

def TriggerDecoderBase.shaftRecord (b : TriggerDecoderBase) : ShaftRecord :=
  ⟨b.shaftLosses, b.counterRestarts⟩

/-- The primary decoder beside the record taken at its last cam synchronization. -/
structure RecordedPrimary where
  decoder : PrimaryTriggerDecoder
  atSync : Option ShaftRecord

namespace FullSync

theorem resetHasFullSync_ends (f : FullSync) :
    ¬ (f.resetHasFullSync.mHasSynchronizedPhase = true ∧
      f.resetHasFullSync.mNeedsDisambiguation = true) := by
  cases needs : f.mNeedsDisambiguation <;> simp [resetHasFullSync, needs]

end FullSync

namespace RecordedPrimary

def new : RecordedPrimary := ⟨PrimaryTriggerDecoder.new, none⟩

def step (shape : TriggerWaveform) (config : TriggerConfiguration) (p : RecordedPrimary) :
    PrimaryStep → RecordedPrimary
  | .edge input =>
    { p with
      decoder := (p.decoder.decodeTriggerEvent PrimaryTriggerDecoder.kind shape config input).1 }
  | .syncEnginePhase divider remainder engineCycle =>
    { decoder := (p.decoder.syncEnginePhase divider remainder engineCycle).1
      atSync := if 1 < divider ∧ remainder < divider then some p.decoder.base.shaftRecord
        else p.atSync }
  | .reset => { p with decoder := p.decoder.resetState PrimaryTriggerDecoder.kind }
  | .setNeedsDisambiguation needs expect =>
    { p with decoder.derived := p.decoder.derived.setNeedsDisambiguation needs expect }

/-- The primary decoder claims full synchronization that a cam had to give it. -/
def claimsFullSync (p : RecordedPrimary) : Prop :=
  p.decoder.derived.mHasSynchronizedPhase = true ∧ p.decoder.derived.mNeedsDisambiguation = true

/-- The shaft is synchronized, and has been since the last cam synchronization. -/
def ShaftHeld (p : RecordedPrimary) : Prop :=
  p.decoder.base.shaftIsSynchronized = true ∧ p.atSync = some p.decoder.base.shaftRecord

def InForce (p : RecordedPrimary) : Prop := p.claimsFullSync → p.ShaftHeld

/-- In every state of the run, the first one included. -/
def AllInForce (shape : TriggerWaveform) (config : TriggerConfiguration) (p : RecordedPrimary) :
    List PrimaryStep → Prop
  | [] => p.InForce
  | what :: steps => p.InForce ∧ AllInForce shape config (p.step shape config what) steps

/-- An edge at which tooth counting finds a ratio of the last two gaps out of reason. -/
def GapOutOfReason (shape : TriggerWaveform) (config : TriggerConfiguration)
    (b : TriggerDecoderBase) (input : EdgeInput) : Prop :=
  let gap := min (if b.isFirstEvent then 0 else input.nowNt - b.toothedPreviousTime)
    (10 * ntPerSecond)
  config.isMiataVvt = true ∧ shape.isSynchronizationNeeded = true ∧
    shape.shouldConsiderEdge input.signal.wheel input.signal.isRising = true ∧
    b.shaftIsSynchronized = true ∧ b.timedOut shape input.nowNt = false ∧ input.rpm < 1000 ∧
    isInRange (some (2 / 5)) (gapRatio gap (b.toothDurations 1)) 2 = false

/-- The step takes the shaft from under a full synchronization, or gives a full
synchronization without a shaft. -/
def Undermines (shape : TriggerWaveform) (config : TriggerConfiguration) (p : RecordedPrimary) :
    PrimaryStep → Prop
  | .edge input => p.claimsFullSync ∧ GapOutOfReason shape config p.decoder.base input
  | .syncEnginePhase divider remainder _ =>
    (1 < divider ∧ remainder < divider) ∧ p.decoder.derived.mNeedsDisambiguation = true ∧
      p.decoder.base.shaftIsSynchronized = false
  | .reset => False
  | .setNeedsDisambiguation _ _ => False

def NeverUndermined (shape : TriggerWaveform) (config : TriggerConfiguration)
    (p : RecordedPrimary) : List PrimaryStep → Prop
  | [] => True
  | what :: steps => ¬ p.Undermines shape config what ∧
    NeverUndermined shape config (p.step shape config what) steps

variable {shape : TriggerWaveform} {config : TriggerConfiguration}

theorem new_inForce : new.InForce := fun claims => by cases claims.2

theorem gapOutOfReason_iff (d : PrimaryTriggerDecoder) (input : EdgeInput)
    (inTime : d.base.timedOut shape input.nowNt = false) :
    GapOutOfReason shape config d.base input ↔
      shape.shouldConsiderEdge input.signal.wheel input.signal.isRising = true ∧
        (d.noted PrimaryTriggerDecoder.kind shape input).base.dropsShaft shape config input.rpm =
          true := by
  have noted := @TriggerDecoder.noted_spec _ PrimaryTriggerDecoder.kind shape input d
  have goesOn : d.restarts PrimaryTriggerDecoder.kind shape input = false := by
    simp [TriggerDecoder.restarts, inTime]
  simp only [TriggerDecoderBase.dropsShaft, TriggerDecoderBase.countsTeeth,
    TriggerDecoderBase.hasReasonableGap, noted.shaft, noted.durations, noted.firstEvent,
    noted.previousTime, goesOn, inTime]
  simp only [Bool.false_or, Bool.false_eq_true, if_false, Function.update_self, ne_eq, one_ne_zero,
    not_false_eq_true, Function.update_of_ne, Bool.not_false, Bool.and_true, Bool.and_eq_true,
    decide_eq_true_eq, Bool.not_eq_true', GapOutOfReason, inTime, true_and]
  tauto

/-- What an edge leaves in force it found in force, on a shaft that goes on. -/
theorem claims_edge (p : RecordedPrimary) (input : EdgeInput)
    (claims : (p.step shape config (.edge input)).claimsFullSync) :
    p.claimsFullSync ∧ (p.decoder.base.shaftIsSynchronized = true →
      ¬ GapOutOfReason shape config p.decoder.base input →
      (p.step shape config (.edge input)).decoder.base.shaftIsSynchronized = true ∧
        (p.step shape config (.edge input)).decoder.base.shaftRecord =
          p.decoder.base.shaftRecord) := by
  have noted := @TriggerDecoder.noted_spec _ PrimaryTriggerDecoder.kind shape input p.decoder
  have finished := @TriggerDecoder.finishEdge_spec _ PrimaryTriggerDecoder.kind shape input.rpm
    (p.decoder.counted PrimaryTriggerDecoder.kind shape config input)
  rw [← TriggerDecoder.decodeTriggerEvent_eq] at finished
  have reason := @gapOutOfReason_iff shape config p.decoder input
  simp only [claimsFullSync, step, TriggerDecoderBase.shaftRecord] at claims ⊢
  generalize e_def : p.decoder.noted PrimaryTriggerDecoder.kind shape input = e at noted reason
  generalize p.decoder.decodeTriggerEvent PrimaryTriggerDecoder.kind shape config input = result
    at claims finished ⊢
  -- a trigger error at the end would have ended it
  cases tooMany : (p.decoder.counted PrimaryTriggerDecoder.kind shape config input).tooManyTeeth
    shape
  swap
  · rw [finished.derived, if_pos tooMany] at claims
    exact absurd claims (FullSync.resetHasFullSync_ends _)
  have kept := finished.losses tooMany
  rw [finished.derived, if_neg (by simp [tooMany])] at claims
  rw [finished.shaft, kept, finished.restarts, tooMany, Bool.not_false, Bool.and_true]
  -- and so would a timeout
  have beforeEdge (same : e.derived.mHasSynchronizedPhase = true ∧
      e.derived.mNeedsDisambiguation = true) :
      p.decoder.base.timedOut shape input.nowNt = false ∧ e.derived = p.decoder.derived := by
    cases lost : p.decoder.base.timedOut shape input.nowNt
    · exact ⟨rfl, by simp [noted.derived, TriggerDecoder.restarts, lost]⟩
    · rw [noted.derived, if_pos (by simp [TriggerDecoder.restarts, lost,
        PrimaryTriggerDecoder.kind])] at same
      exact absurd same (FullSync.resetHasFullSync_ends _)
  by_cases considered : shape.shouldConsiderEdge input.signal.wheel input.signal.isRising
  · have stage : p.decoder.counted PrimaryTriggerDecoder.kind shape config input =
        e.considerEdge PrimaryTriggerDecoder.kind shape config input := by
      simp only [TriggerDecoder.counted, considered, if_true, e_def]
    have spec := @TriggerDecoder.considerEdge_spec _ PrimaryTriggerDecoder.kind shape config input e
    rw [stage] at claims ⊢
    generalize e.considerEdge PrimaryTriggerDecoder.kind shape config input = f at claims spec ⊢
    -- and a cycle with wrong counts
    cases wrong : e.base.closesCycle shape config input.rpm && e.base.shaftIsSynchronized &&
      e.base.validateEventCounters shape
    swap
    · rw [spec.derived, if_pos wrong] at claims
      exact absurd claims (FullSync.resetHasFullSync_ends _)
    rw [spec.derived, if_neg (by simp [wrong])] at claims
    obtain ⟨inTime, same⟩ := beforeEdge claims
    refine ⟨same ▸ claims, fun synchronized reasonable => ?_⟩
    have shaft : e.base.shaftIsSynchronized = true := by simp [noted.shaft, synchronized, inTime]
    have keeps : e.base.dropsShaft shape config input.rpm = false := by
      simpa [reason inTime, considered] using reasonable
    obtain ⟨losses, restarts⟩ := noted.untouched inTime
    simp only [shaft, Bool.and_true] at wrong
    rw [spec.shaft, spec.losses, spec.restarts]
    cases closes : e.base.closesCycle shape config input.rpm
    · simp [keeps, shaft, losses, restarts]
    · rw [closes, Bool.true_and] at wrong
      simp [keeps, shaft, losses, restarts, wrong]
  · have stage : p.decoder.counted PrimaryTriggerDecoder.kind shape config input =
        { e with base := e.base.nextTriggerEvent shape } := by
      simp only [TriggerDecoder.counted, considered, e_def]
      rfl
    rw [stage] at claims ⊢
    obtain ⟨inTime, same⟩ := beforeEdge claims
    obtain ⟨losses, restarts⟩ := noted.untouched inTime
    refine ⟨same ▸ claims, fun synchronized _ => ⟨?_, ?_⟩⟩
    · simp [TriggerDecoderBase.nextTriggerEvent, noted.shaft, synchronized, inTime]
    · simp [TriggerDecoderBase.nextTriggerEvent, losses, restarts]

/-- A gap out of reason takes the shaft and leaves the full synchronization. -/
theorem edge_of_gapOutOfReason (p : RecordedPrimary) (input : EdgeInput)
    (outOfReason : GapOutOfReason shape config p.decoder.base input) :
    (p.step shape config (.edge input)).decoder.derived = p.decoder.derived ∧
      (p.step shape config (.edge input)).decoder.base.shaftIsSynchronized = false := by
  have inTime : p.decoder.base.timedOut shape input.nowNt = false := outOfReason.2.2.2.2.1
  obtain ⟨considered, drops⟩ := (gapOutOfReason_iff p.decoder input inTime).mp outOfReason
  have noted := @TriggerDecoder.noted_spec _ PrimaryTriggerDecoder.kind shape input p.decoder
  have finished := @TriggerDecoder.finishEdge_spec _ PrimaryTriggerDecoder.kind shape input.rpm
    (p.decoder.counted PrimaryTriggerDecoder.kind shape config input)
  rw [← TriggerDecoder.decodeTriggerEvent_eq] at finished
  have spec := @TriggerDecoder.considerEdge_spec _ PrimaryTriggerDecoder.kind shape config input
    (p.decoder.noted PrimaryTriggerDecoder.kind shape input)
  have stage : p.decoder.counted PrimaryTriggerDecoder.kind shape config input =
      (p.decoder.noted PrimaryTriggerDecoder.kind shape input).considerEdge
        PrimaryTriggerDecoder.kind shape config input := by
    simp only [TriggerDecoder.counted, considered, if_true]
  rw [← stage] at spec
  generalize p.decoder.counted PrimaryTriggerDecoder.kind shape config input = f at finished spec
  have stays := TriggerDecoder.closesCycle_of_dropsShaft drops
  have lost : f.base.shaftIsSynchronized = false := by simp [spec.shaft, stays, drops]
  simp only [step]
  refine ⟨?_, by simp [finished.shaft, lost]⟩
  simp [finished.derived, TriggerDecoder.tooManyTeeth, lost, spec.derived, stays, noted.derived,
    TriggerDecoder.restarts, inTime]

theorem step_inForce (p : RecordedPrimary) (inForce : p.InForce) (what : PrimaryStep)
    (fair : ¬ p.Undermines shape config what) : (p.step shape config what).InForce := by
  intro claims
  cases what with
  | edge input =>
    obtain ⟨before, goesOn⟩ := p.claims_edge input claims
    obtain ⟨shaft, record⟩ := inForce before
    obtain ⟨synchronized, same⟩ := goesOn shaft fun gap => fair ⟨before, gap⟩
    exact ⟨synchronized, record.trans (congrArg some same.symm)⟩
  | syncEnginePhase divider remainder engineCycle =>
    simp only [claimsFullSync, ShaftHeld, step, PrimaryTriggerDecoder.syncEnginePhase] at claims ⊢
    by_cases effective : 1 < divider ∧ remainder < divider
    · rw [if_pos effective] at claims
      simp only [if_pos effective, and_true]
      have needs := claims.2
      rw [FullSync.adjust_mNeedsDisambiguation] at needs
      by_contra lost
      exact fair ⟨effective, needs, by simpa using lost⟩
    · simp only [if_neg effective] at claims ⊢
      exact inForce claims
  | reset => exact absurd claims (FullSync.resetHasFullSync_ends _)
  | setNeedsDisambiguation needs expect => exact absurd claims (FullSync.resetHasFullSync_ends _)

theorem not_inForce_of_undermines (p : RecordedPrimary) (what : PrimaryStep)
    (undermines : p.Undermines shape config what) : ¬ (p.step shape config what).InForce := by
  intro inForce
  cases what with
  | edge input =>
    obtain ⟨same, lost⟩ := p.edge_of_gapOutOfReason input undermines.2
    have held := inForce (by rw [claimsFullSync, same]; exact undermines.1)
    have synchronized := held.1
    rw [lost] at synchronized
    cases synchronized
  | syncEnginePhase divider remainder engineCycle =>
    obtain ⟨effective, needs, lost⟩ := undermines
    simp only [InForce, claimsFullSync, ShaftHeld, step, PrimaryTriggerDecoder.syncEnginePhase,
      if_pos effective, FullSync.adjust_mNeedsDisambiguation,
      FullSync.adjust_mHasSynchronizedPhase] at inForce
    rw [lost] at inForce
    cases (inForce ⟨trivial, needs⟩).1
  | reset => exact undermines
  | setNeedsDisambiguation needs expect => exact undermines

theorem allInForce_iff (p : RecordedPrimary) (inForce : p.InForce) (steps : List PrimaryStep) :
    p.AllInForce shape config steps ↔ p.NeverUndermined shape config steps := by
  induction steps generalizing p with
  | nil => exact ⟨fun _ => trivial, fun _ => inForce⟩
  | cons what steps ih =>
    constructor
    · rintro ⟨-, later⟩
      have next : (p.step shape config what).InForce := by
        cases steps with
        | nil => exact later
        | cons => exact later.1
      exact ⟨fun undermines => p.not_inForce_of_undermines what undermines next,
        (ih _ next).mp later⟩
    · rintro ⟨fair, later⟩
      exact ⟨inForce, (ih _ (p.step_inForce inForce what fair)).mpr later⟩

/-- Full synchronization outlives the shaft in no state of a run exactly when no edge
of the run is one at which tooth counting gives up the shaft alone, and no cam
synchronization is asked for without a shaft. -/
theorem fullSync_inForce_iff (shape : TriggerWaveform) (config : TriggerConfiguration)
    (steps : List PrimaryStep) :
    new.AllInForce shape config steps ↔ new.NeverUndermined shape config steps :=
  new.allInForce_iff new_inForce steps

/-- An engine that slows down to a third between two teeth of this crank wheel loses
its shaft and keeps its full synchronization. -/
theorem fullSync_outlivesShaft :
    ¬ new.AllInForce miataNb2Crank { isMiataVvt := true }
      [.setNeedsDisambiguation true true, .edge ⟨.primaryRising, 1000000, 333⟩,
        .edge ⟨.primaryRising, 1140000, 333⟩, .edge ⟨.primaryRising, 1360000, 333⟩,
        .edge ⟨.primaryRising, 1500000, 333⟩, .syncEnginePhase 4 0 720,
        .edge ⟨.primaryRising, 1920000, 333⟩] := by
  intro all
  have held := all.2.2.2.2.2.2.2 ⟨by decide +kernel, by decide +kernel⟩
  exact absurd held.1 (by decide +kernel)

end RecordedPrimary

end FomeFw.Trigger
