import FomeFw.Trigger.DecodedAngle
import FomeFw.Trigger.PhaseAgreement

/-! The engine phase does not tell when the crank was synchronized, as long as it was at the
same edge of the wheel; from different edges the phases stay apart. -/
namespace FomeFw.Trigger

/-- A crank wheel with two teeth that look alike. -/
def twoTeeth : TriggerWaveform where
  operationMode := .fourStrokeCrankSensor
  syncEdge := .riseOnly
  isSynchronizationNeeded := false
  events := [⟨1 / 4, true, .primary⟩, ⟨1 / 2, false, .primary⟩, ⟨3 / 4, true, .primary⟩,
    ⟨1, false, .primary⟩]
  positive := by decide +kernel
  withinTurn := by decide +kernel
  ordered := by decide +kernel
  capacity := by decide

/-- The cam sync event puts the present revolution in its place; two decoders that began at the
same edge of the wheel, in whatever revolutions, then hand out one engine phase, and further cam
sync events change nothing. -/
theorem phase_independent :
    (∀ (d : PrimaryTriggerDecoder) (mode : OperationMode) (divider part remainder : Nat),
      1 < divider → remainder < divider → ((divider * part : ℕ) : Angle) = getEngineCycle mode →
      let adjustment :=
        (d.syncEnginePhase divider remainder (getEngineCycle mode)).1.derived.mPhaseAdjustment
      (adjustment : Angle) < getEngineCycle mode ∧ ∃ z : ℤ,
        (d.base.crankSynchronizationCounter % divider : ℕ) * getEngineCycle mode / divider +
            adjustment =
          remainder * getEngineCycle mode / divider + z * getEngineCycle mode) ∧
    ∀ (s : CrankAndCam) (d : PrimaryTriggerDecoder) (position : Nat) (steps : List CamStep),
      Machine.Guarded s.step s.KeepsCount (s.start d position) steps →
      let r := s.run (s.start d position) steps
      r.camSynced = some r.wheel.origin →
      (s.step r .cam).wheel.decoder.derived.mPhaseAdjustment =
          r.wheel.decoder.derived.mPhaseAdjustment ∧
        ∀ (d' : PrimaryTriggerDecoder) (position' : Nat) (steps' : List CamStep),
          Machine.Guarded s.step s.KeepsCount (s.start d' position') steps' →
          let r' := s.run (s.start d' position') steps'
          r'.camSynced = some r'.wheel.origin → r'.wheel.position = r.wheel.position →
          r.wheel.origin ≡ r'.wheel.origin [MOD s.shape.getSize] →
          ∀ phase phase', r.decodedPhase = some phase → r'.decodedPhase = some phase' →
            phase = phase' := by
  constructor
  · intro d mode divider part remainder ambiguous inside divides
    exact d.syncEnginePhase_spec ambiguous inside divides
      (TriggerWaveform.getEngineCycle_small mode) (TriggerWaveform.getEngineCycle_pos mode)
  · intro s d position steps keeps r synced
    have phased := CrankAndCam.run_phased d position steps keeps
    refine ⟨CrankAndCam.cam_unchanged phased synced, ?_⟩
    intro d' position' steps' keeps' r' synced' same edge phase phase' handed handed'
    have phased' := CrankAndCam.run_phased d' position' steps' keeps'
    exact CrankAndCam.decodedPhase_agree phased phased' same edge synced synced' handed handed'

/-- The crank of the Miata NB with a cam that comes in front of the edge 16. -/
def miataNb2Cam : CrankAndCam where
  shape := miataNb2Crank
  config := {}
  rotation := (WheelSetup.constantSpeed miataNb2Crank 2160000).rotation
  placement := ⟨0, 0, by decide +kernel⟩
  synchPointIndex := 3
  camPosition := 16
  remainder := 0
  edges := by decide +kernel
  initialized := ⟨0, ⟨{}, ()⟩, by decide +kernel⟩
  ambiguous := by decide
  remainder_lt := by decide

/-- Synchronized in different revolutions, the decoders agree. -/
theorem phase_independent_miataNb2 :
    let r := miataNb2Cam.run (miataNb2Cam.start .new 1)
      (List.replicate 15 .edge ++ [.cam, .edge, .edge])
    let r' := miataNb2Cam.run (miataNb2Cam.start .new 5)
      (List.replicate 11 .edge ++ [.cam, .edge, .edge])
    r.wheel.origin ≠ r'.wheel.origin ∧ ∃ phase phase', r.decodedPhase = some phase ∧
      r'.decodedPhase = some phase' ∧ phase = phase' := by
  refine ⟨by decide +kernel, 110, 110, by decide +kernel, by decide +kernel, ?_⟩
  have counts (c : CamRun) (e : CamStep) : miataNb2Cam.KeepsCount c e := fun _ => .inl (by decide)
  exact (phase_independent.2 miataNb2Cam .new 1 (List.replicate 15 .edge ++ [.cam, .edge, .edge])
    (Machine.guarded_of_all counts) (by decide +kernel)).2 .new 5
    (List.replicate 11 .edge ++ [.cam, .edge, .edge]) (Machine.guarded_of_all counts)
    (by decide +kernel) (by decide +kernel) (by decide +kernel) 110 110 (by decide +kernel)
    (by decide +kernel)

/-- A crank wheel with two teeth, and a cam. -/
def twoTeethCam : CrankAndCam where
  shape := twoTeeth
  config := {}
  rotation := (WheelSetup.constantSpeed twoTeeth 720000).rotation
  placement := ⟨0, 0, by decide +kernel⟩
  synchPointIndex := 0
  camPosition := 8
  remainder := 0
  edges := by decide +kernel
  initialized := ⟨0, ⟨{}, ()⟩, by decide +kernel⟩
  ambiguous := by decide
  remainder_lt := by decide

namespace WheelSetup

/-- The cam sync event of a crank in its revolution number 0. -/
def camSync (s : WheelSetup FullSync) : WheelStep FullSync :=
  .derived fun base derived => (PrimaryTriggerDecoder.camSync ⟨base, derived⟩
    (getCrankDivider s.shape.operationMode) 0 (getEngineCycle s.shape.operationMode)).derived

/-- The engine phase handed out with the next edge. -/
def enginePhase (s : WheelSetup FullSync) (synch : Nat) (w : WheelRun FullSync) : Option Angle :=
  (s.decode w.decoder w.position).2.map fun currentIndex =>
    toEngPhase ⟨0, 0, by decide +kernel⟩ (getEngineCycle s.shape.operationMode)
      (s.turn w).decoder.derived.mPhaseAdjustment (s.tableAngle synch w currentIndex)

end WheelSetup

/-- Decoders that began at different edges, or on a wheel with an event that is no edge, hand out
different phases after the same cam sync event. -/
theorem phase_dependent :
    (let r := twoTeethCam.run (twoTeethCam.start .new 0) (List.replicate 8 .edge ++ [.cam, .edge])
      let r' := twoTeethCam.run (twoTeethCam.start .new 5) (List.replicate 3 .edge ++ [.cam, .edge])
      r.wheel.position = r'.wheel.position ∧ r.camSynced = some r.wheel.origin ∧
        r'.camSynced = some r'.wheel.origin ∧ r.decodedPhase = some 360 ∧
        r'.decodedPhase = some 180) ∧
    let s := WheelSetup.constantSpeed repeatedFall 720000
    let w := s.run (s.start PrimaryTriggerDecoder.new 0)
      (List.replicate 20 .turn ++ s.camSync :: List.replicate 5 .turn)
    let w' := s.run (s.start PrimaryTriggerDecoder.new 5)
      (List.replicate 15 .turn ++ s.camSync :: List.replicate 5 .turn)
    repeatedFall.calculateTriggerSynchPoint {} 0 ⟨{}, ()⟩ = ⟨some 0, false⟩ ∧
      w.position = w'.position ∧ w.origin = 5 ∧ w'.origin = 10 ∧
      s.enginePhase 0 w = some 360 ∧ s.enginePhase 0 w' = some 414 := by
  constructor
  · decide +kernel
  · decide +kernel

end FomeFw.Trigger
