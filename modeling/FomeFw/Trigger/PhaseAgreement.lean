import FomeFw.Lib.Machine
import FomeFw.Trigger.PrimaryTriggerDecoder
import FomeFw.Trigger.SimulatedWheel

/-! Two decoders of one crank, synchronized in different revolutions. Each counts the
revolutions from its own first one; a cam event tells it by how much it is off, and from
then on both hand out the same engine phase. -/
namespace FomeFw.Trigger
open Turning

theorem TriggerWaveform.getCycleDuration_nat (shape : TriggerWaveform) :
    ∃ part : ℕ, shape.getCycleDuration = part := by
  unfold getCycleDuration
  cases shape.operationMode
  · exact ⟨720, by norm_num⟩
  · exact ⟨360, by norm_num⟩
  · exact ⟨720, by norm_num⟩
  · exact ⟨360, by norm_num⟩
  · exact ⟨180, by norm_num⟩
  · exact ⟨120, by norm_num⟩
  · exact ⟨30, by norm_num⟩

section EnginePhase

/-- `tdcPosition` and `globalTriggerAngleOffset`, far below the angles that
`assertAngleRange` reports. -/
structure TdcPlacement where
  tdcPosition : Angle
  globalTriggerAngleOffset : Angle
  small : |tdcPosition + globalTriggerAngleOffset| ≤ 9000000

/-- `TriggerCentral::toEngPhase`. -/
def toEngPhase (placement : TdcPlacement) (engineCycle : Angle) (mPhaseAdjustment : Nat)
    (trgPhase : Angle) : Angle :=
  wrapAngle engineCycle
    (trgPhase - placement.tdcPosition - placement.globalTriggerAngleOffset + mPhaseAdjustment)

/-- Phases of the cycle that differ, adjusted, by whole cycles are one engine phase. -/
theorem toEngPhase_eq {placement : TdcPlacement} {mode : OperationMode} {a b : Nat}
    {p q : Angle} {z : ℤ} (aSmall : (a : Angle) < getEngineCycle mode)
    (bSmall : (b : Angle) < getEngineCycle mode) (pRange : 0 ≤ p ∧ p < getEngineCycle mode)
    (qRange : 0 ≤ q ∧ q < getEngineCycle mode) (whole : p + a = q + b + z * getEngineCycle mode) :
    toEngPhase placement (getEngineCycle mode) a p = toEngPhase placement (getEngineCycle mode) b q := by
  have positive := TriggerWaveform.getEngineCycle_pos mode
  have cycle := TriggerWaveform.getEngineCycle_small mode
  obtain ⟨above, below⟩ := abs_le.mp placement.small
  have aNonneg : (0 : Angle) ≤ a := Nat.cast_nonneg a
  have bNonneg : (0 : Angle) ≤ b := Nat.cast_nonneg b
  obtain ⟨nonneg, small, n, wrapped⟩ := wrapAngle_spec positive
    (p - placement.tdcPosition - placement.globalTriggerAngleOffset + a)
  obtain ⟨nonneg', small', n', wrapped'⟩ := wrapAngle_spec positive
    (q - placement.tdcPosition - placement.globalTriggerAngleOffset + b)
  rw [assertAngleRange_of_mem (by linarith) (by linarith)] at wrapped wrapped'
  refine eq_of_wholeCycles (n := n + z - n') positive nonneg small nonneg' small' ?_
  rw [toEngPhase, toEngPhase, wrapped, wrapped']
  push_cast
  linear_combination whole

end EnginePhase

namespace PrimaryTriggerDecoder
variable {divider part remainder : Nat} {engineCycle : Angle}

/-- The shift is a whole number of parts of the cycle. -/
theorem totalShift_eq (counter part : Nat) (some : 0 < divider) (inside : remainder < divider) :
    ∃ shift < divider, (shift + counter % divider = remainder ∨
        shift + counter % divider = remainder + divider) ∧
      totalShift counter divider remainder (divider * part : ℕ) = (shift * part : ℕ) := by
  have present := Nat.mod_lt counter some
  have nonzero : (divider : Angle) ≠ 0 := by exact_mod_cast some.ne'
  have whole : ((remainder : Angle) - (counter % divider : ℕ)) * (divider * part : ℕ) / divider =
      ((remainder : Angle) - (counter % divider : ℕ)) * part := by
    push_cast
    field_simp
  simp only [totalShift, whole]
  generalize counter % divider = current at present
  by_cases ahead : current ≤ remainder
  · refine ⟨remainder - current, by omega, .inl (by omega), ?_⟩
    have nonneg : 0 ≤ ((remainder : Angle) - current) * part := by
      have order : (current : Angle) ≤ remainder := by exact_mod_cast ahead
      exact mul_nonneg (by linarith) (Nat.cast_nonneg part)
    rw [if_neg (not_lt.mpr nonneg)]
    push_cast [ahead]
    ring
  · refine ⟨remainder + divider - current, by omega, .inr (by omega), ?_⟩
    have behind : (remainder : Angle) < current := by exact_mod_cast not_le.mp ahead
    have later : current ≤ remainder + divider := by omega
    by_cases empty : part = 0
    · simp [empty]
    · have positive : (0 : Angle) < part := by exact_mod_cast Nat.pos_of_ne_zero empty
      rw [if_pos (mul_neg_of_neg_of_pos (by linarith) positive)]
      push_cast [later]
      ring

/-- The shift fits where it is stored. -/
theorem mPhaseAdjustment_syncEnginePhase (d : PrimaryTriggerDecoder) (ambiguous : 1 < divider)
    (inside : remainder < divider) (divides : ((divider * part : ℕ) : Angle) = engineCycle)
    (small : engineCycle ≤ 720) :
    ((d.syncEnginePhase divider remainder engineCycle).1.derived.mPhaseAdjustment : Angle) =
      totalShift d.base.crankSynchronizationCounter divider remainder engineCycle := by
  subst divides
  obtain ⟨shift, few, -, total⟩ := totalShift_eq
    d.base.crankSynchronizationCounter part (by omega) inside
  have fits : shift * part < 2 ^ 16 := by
    have less : shift * part ≤ divider * part := Nat.mul_le_mul_right part few.le
    have bound : divider * part ≤ 720 := by exact_mod_cast small
    omega
  simp only [syncEnginePhase, ambiguous, inside, and_self, if_true, total, FullSync.adjust]
  split
  · simp only [Nat.floor_natCast, Nat.mod_eq_of_lt fits]
  · next same => exact not_not.mp same

/-- What `syncEnginePhase` stores puts the present revolution in the place of number
`remainder`. -/
theorem syncEnginePhase_spec (d : PrimaryTriggerDecoder) (ambiguous : 1 < divider)
    (inside : remainder < divider) (divides : ((divider * part : ℕ) : Angle) = engineCycle)
    (small : engineCycle ≤ 720) (positive : 0 < engineCycle) :
    let adjustment := (d.syncEnginePhase divider remainder engineCycle).1.derived.mPhaseAdjustment
    (adjustment : Angle) < engineCycle ∧ ∃ z : ℤ,
      (d.base.crankSynchronizationCounter % divider : ℕ) * engineCycle / divider + adjustment =
        remainder * engineCycle / divider + z * engineCycle := by
  subst divides
  obtain ⟨shift, few, place, total⟩ := totalShift_eq
    d.base.crankSynchronizationCounter part (by omega) inside
  have nonzero : (divider : Angle) ≠ 0 := by exact_mod_cast (by omega : divider ≠ 0)
  have parts : 0 < part := by
    refine Nat.pos_of_ne_zero fun empty => ?_
    simp [empty] at positive
  have less : shift * part < divider * part := Nat.mul_lt_mul_of_pos_right few parts
  have stored := d.mPhaseAdjustment_syncEnginePhase ambiguous inside rfl small
  rw [total] at stored
  intro adjustment
  rw [show (adjustment : Angle) = (shift * part : ℕ) from stored]
  refine ⟨by exact_mod_cast less, ?_⟩
  rcases place with place | place
  · refine ⟨0, ?_⟩
    rw [← place]
    push_cast
    field_simp
    ring
  · refine ⟨1, ?_⟩
    have sum : (remainder : Angle) = shift + (d.base.crankSynchronizationCounter % divider : ℕ) - divider := by
      rw [eq_sub_iff_add_eq]
      exact_mod_cast place.symm
    rw [sum]
    push_cast
    field_simp
    ring

@[simp] theorem camSync_base (d : PrimaryTriggerDecoder) :
    (d.camSync divider remainder engineCycle).base = d.base := by
  unfold camSync syncEnginePhase
  split
  · split <;> rfl
  · rfl

end PrimaryTriggerDecoder

/-- A crank wheel whose turns the engine cycle leaves ambiguous, and a cam: its sync event
comes in front of the edge `camPosition`, and again in every engine cycle; the crank is then
in its revolution number `remainder`. -/
structure CrankAndCam where
  shape : TriggerWaveform
  config : TriggerConfiguration
  rotation : Rotation
  placement : TdcPlacement
  synchPointIndex : Nat
  camPosition : Nat
  remainder : Nat
  edges : shape.EdgesOnly
  initialized : ∃ rpm initState,
    shape.calculateTriggerSynchPoint config rpm initState = ⟨some synchPointIndex, false⟩
  ambiguous : 1 < getCrankDivider shape.operationMode
  remainder_lt : remainder < getCrankDivider shape.operationMode

/-- A run of the primary decoder, with records of the origin of the revolution counter at
the last cam sync event, and of the engine phase that the last step handed out. -/
structure CamRun where
  wheel : WheelRun FullSync
  camSynced : Option Nat
  decodedPhase : Option Angle

inductive CamStep where
  | edge
  | cam
  | reset
  deriving DecidableEq

namespace CrankAndCam
variable (s : CrankAndCam)

def wheel : WheelSetup FullSync := ⟨PrimaryTriggerDecoder.kind, s.shape, s.config, s.rotation⟩

def engineCycle : Angle := getEngineCycle s.shape.operationMode

/-- The engine phase of a decoded tooth, as `handleShaftSignal` computes it. -/
def enginePhase (d : PrimaryTriggerDecoder) (currentIndex : Nat) : Angle :=
  toEngPhase s.placement s.engineCycle d.derived.mPhaseAdjustment
    (s.shape.prepareEventAngles s.synchPointIndex
      (triggerIndexForListeners s.shape d.base.crankSynchronizationCounter currentIndex))

def start (d : PrimaryTriggerDecoder) (position : Nat) : CamRun :=
  ⟨s.wheel.start d position, none, none⟩

/-- `syncAndReport` for a cam event. -/
def syncAndReport (d : PrimaryTriggerDecoder) : PrimaryTriggerDecoder :=
  d.camSync (getCrankDivider s.shape.operationMode) s.remainder s.engineCycle

/-- The cam sync event comes at this place of the engine cycle. -/
def AtCam (position : Nat) : Prop :=
  position % s.shape.getLength = s.camPosition % s.shape.getLength

instance (position : Nat) : Decidable (s.AtCam position) := inferInstanceAs (Decidable (_ = _))

def step (r : CamRun) : CamStep → CamRun
  | .edge =>
    { r with
      wheel := s.wheel.turn r.wheel
      decodedPhase := (s.wheel.decode r.wheel.decoder r.wheel.position).2.map
        (s.enginePhase (s.wheel.turn r.wheel).decoder) }
  | .cam =>
    if s.AtCam r.wheel.position then
      { wheel := { r.wheel with decoder := s.syncAndReport r.wheel.decoder }
        camSynced := if r.wheel.decoder.base.shaftIsSynchronized then some r.wheel.origin
          else r.camSynced
        decodedPhase := none }
    else { r with decodedPhase := none }
  | .reset => { r with wheel := s.wheel.step r.wheel .reset, decodedPhase := none }

def run (r : CamRun) (steps : List CamStep) : CamRun := steps.foldl s.step r

/-- The edge closes a turn with the revolution counter at its largest value. -/
def CounterWraps (r : CamRun) : Prop :=
  r.wheel.decoder.base.crankSynchronizationCounter = 2 ^ 16 - 1 ∧
    (s.wheel.noted r.wheel).base.shaftIsSynchronized = true ∧
    (s.wheel.noted r.wheel).base.closesCycle s.shape s.config (s.rotation.rpm r.wheel.position) = true

/-- The revolutions are still known, up to engine cycles, after the step. -/
def KeepsCount (r : CamRun) (what : CamStep) : Prop :=
  what = .edge → getCrankDivider s.shape.operationMode ∣ 2 ^ 16 ∨ ¬ s.CounterWraps r

instance (r : CamRun) : Decidable (s.CounterWraps r) := inferInstanceAs (Decidable (_ ∧ _))
instance (r : CamRun) (what : CamStep) : Decidable (s.KeepsCount r what) :=
  inferInstanceAs (Decidable (_ → _))

/-- The turns from an edge up to the cam sync event. -/
def camTurns (origin : Nat) : ℤ := ((s.camPosition : ℤ) - 1 - origin) / s.shape.getSize

section Places
variable {s} {w w' : WheelRun FullSync} {turns turns' : Nat}

theorem synch_candidate : s.synchPointIndex < s.shape.getSize ∧
    s.shape.Candidate s.synchPointIndex := by
  obtain ⟨rpm, initState, found⟩ := s.initialized
  exact TriggerWaveform.synchPoint_candidate s.edges
    (congrArg SynchPoint.triggerShapeSynchPointIndex found)

theorem getSize_pos (s : CrankAndCam) : 0 < s.shape.getSize := (Nat.zero_le _).trans_lt synch_candidate.1

/-- At the cam sync event the turns are those up to it, but for engine cycles. -/
theorem camTurns_eq (counting : Counting s.shape w turns) (here : s.AtCam w.position) :
    ∃ z : ℤ, s.camTurns w.origin = turns + z * getCrankDivider s.shape.operationMode := by
  have begun := counting.begun
  have ends := counting.within s.edges s.getSize_pos
  have positive : (0 : ℤ) < s.shape.getSize := by exact_mod_cast s.getSize_pos
  obtain ⟨z, cycles⟩ : ∃ z : ℤ, (s.camPosition : ℤ) = w.position + z * s.shape.getLength := by
    have apart := (Nat.modEq_iff_dvd.mp here)
    obtain ⟨z, difference⟩ := apart
    exact ⟨z, by linarith [mul_comm z (s.shape.getLength : ℤ)]⟩
  refine ⟨z, ?_⟩
  have split : (s.camPosition : ℤ) - 1 - w.origin = (w.position : ℤ) - 1 - w.origin +
      z * getCrankDivider s.shape.operationMode * s.shape.getSize := by
    rw [cycles, s.shape.getLength_eq]
    push_cast
    ring
  rw [camTurns, split, Int.add_mul_ediv_right _ _ positive.ne']
  congr 1
  rw [Int.ediv_eq_iff_of_pos positive]
  zify at begun ends
  constructor <;> linarith

/-- The turn that follows on the largest value of the counter. -/
theorem counters_wrap (counting : Counting s.shape w turns) (counting' : Counting s.shape w' turns')
    (moved : w'.position = w.position + 1) (origin : w'.origin = w.origin)
    (last : w.position = w.origin + 2 ^ 16 * s.shape.getSize) :
    w.decoder.base.crankSynchronizationCounter = 2 ^ 16 - 1 ∧
      w'.decoder.base.crankSynchronizationCounter = 0 := by
  have begun := counting.begun
  have begun' := counting'.begun
  have ends := counting.within s.edges s.getSize_pos
  have ends' := counting'.within s.edges s.getSize_pos
  rw [moved, origin, last] at begun' ends'
  rw [last] at begun ends
  have positive := s.getSize_pos
  have few : turns < 2 ^ 16 := Nat.lt_of_mul_lt_mul_right (by omega : turns * s.shape.getSize < _)
  have many : 2 ^ 16 ≤ turns + 1 := Nat.le_of_mul_le_mul_right (by omega) positive
  have few' : turns' ≤ 2 ^ 16 := Nat.le_of_mul_le_mul_right (by omega) positive
  have many' : 2 ^ 16 < turns' + 1 :=
    Nat.lt_of_mul_lt_mul_right (by omega : 2 ^ 16 * s.shape.getSize < _)
  rw [counting.counter, counting'.counter]
  omega

/-- Decoders that began at the same edge of the wheel see the same turn begin. -/
theorem same_turn (counting : Counting s.shape w turns) (counting' : Counting s.shape w' turns')
    (position : w'.position = w.position) (edge : w.origin ≡ w'.origin [MOD s.shape.getSize]) :
    w.origin + turns * s.shape.getSize = w'.origin + turns' * s.shape.getSize := by
  have begun := counting.begun
  have begun' := counting'.begun
  have ends := counting.within s.edges s.getSize_pos
  have ends' := counting'.within s.edges s.getSize_pos
  rw [Nat.succ_mul] at ends ends'
  have congruent : w.origin + turns * s.shape.getSize ≡ w'.origin + turns' * s.shape.getSize
      [MOD s.shape.getSize] := by
    unfold Nat.ModEq
    rw [Nat.add_mul_mod_self_right, Nat.add_mul_mod_self_right]
    exact edge
  refine congruent.eq_of_abs_lt ?_
  rw [abs_lt]
  zify at begun begun' ends ends' position
  constructor <;> push_cast <;> linarith

end Places

section Steps
variable {s} {r : CamRun}

/-- The adjustment puts the revolution of the cam sync event in its place. -/
def Adjusted (s : CrankAndCam) (w : WheelRun FullSync) : Prop :=
  (w.decoder.derived.mPhaseAdjustment : Angle) < s.engineCycle ∧
    ∃ z : ℤ, (w.decoder.derived.mPhaseAdjustment : Angle) =
      (s.remainder - s.camTurns w.origin) * s.shape.getCycleDuration + z * s.engineCycle

/-- Nothing that was needed for the phase has been lost. -/
structure Phased (s : CrankAndCam) (r : CamRun) : Prop where
  aligned : Aligned s.shape r.wheel
  counted : r.wheel.decoder.base.shaftIsSynchronized = true →
    getCrankDivider s.shape.operationMode ∣ 2 ^ 16 ∨
      r.wheel.position ≤ r.wheel.origin + 2 ^ 16 * s.shape.getSize
  earlier : ∀ origin, r.camSynced = some origin → origin < r.wheel.position
  adjusted : r.wheel.decoder.base.shaftIsSynchronized = true →
    r.camSynced = some r.wheel.origin → s.Adjusted r.wheel
  decoded : ∀ phase, r.decodedPhase = some phase →
    r.wheel.decoder.base.shaftIsSynchronized = true ∧
      phase = s.enginePhase r.wheel.decoder r.wheel.decoder.base.currentCycle.currentIndex

theorem start_phased (d : PrimaryTriggerDecoder) (position : Nat) : Phased s (s.start d position) where
  aligned synchronized := by cases synchronized
  counted synchronized := by cases synchronized
  earlier origin synced := by cases synced
  adjusted synchronized := by cases synchronized
  decoded phase handed := by cases handed

/-- What the counter says of the turns. -/
theorem Phased.counter (phased : Phased s r)
    (synchronized : r.wheel.decoder.base.shaftIsSynchronized = true) :
    ∃ turns, Counting s.shape r.wheel turns ∧
      r.wheel.decoder.base.crankSynchronizationCounter % getCrankDivider s.shape.operationMode =
        turns % getCrankDivider s.shape.operationMode := by
  obtain ⟨-, turns, counting⟩ := phased.aligned synchronized
  refine ⟨turns, counting, ?_⟩
  rw [counting.counter]
  rcases phased.counted synchronized with divides | early
  · exact Nat.mod_mod_of_dvd _ divides
  · have begun := counting.begun
    have few : turns < 2 ^ 16 :=
      Nat.lt_of_mul_lt_mul_right (by omega : turns * s.shape.getSize < _)
    rw [Nat.mod_eq_of_lt few]

theorem edge_counted (phased : Phased s r) (keeps : s.KeepsCount r .edge)
    (synchronized : (s.wheel.turn r.wheel).decoder.base.shaftIsSynchronized = true) :
    getCrankDivider s.shape.operationMode ∣ 2 ^ 16 ∨
      (s.wheel.turn r.wheel).position ≤
        (s.wheel.turn r.wheel).origin + 2 ^ 16 * s.shape.getSize := by
  rw [or_iff_not_imp_left]
  intro odd
  obtain ⟨-, turns', counting'⟩ := WheelSetup.turn_aligned (s := s.wheel) phased.aligned synchronized
  have moved : (s.wheel.turn r.wheel).position = r.wheel.position + 1 := rfl
  -- only the last edge of the last countable turn is in question
  have inside (was : r.wheel.decoder.base.shaftIsSynchronized = true)
      (origin : (s.wheel.turn r.wheel).origin = r.wheel.origin)
      (goesOn : ¬ (r.wheel.decoder.base.crankSynchronizationCounter = 2 ^ 16 - 1 ∧
        (s.wheel.turn r.wheel).decoder.base.crankSynchronizationCounter = 0)) :
      (s.wheel.turn r.wheel).position ≤
        (s.wheel.turn r.wheel).origin + 2 ^ 16 * s.shape.getSize := by
    obtain ⟨-, turns, counting⟩ := phased.aligned was
    have early := (phased.counted was).resolve_left odd
    rw [moved, origin]
    refine Nat.succ_le_of_lt (lt_of_le_of_ne early fun last => goesOn ?_)
    exact counters_wrap counting counting' moved origin last
  cases s.wheel.turned r.wheel with
  | unseen useless same origin =>
    refine inside (by rw [← same]; exact synchronized) origin fun wrap => ?_
    rw [same] at wrap
    omega
  | loses useful lost => rw [lost] at synchronized; cases synchronized
  | starts some candidate accepted _ origin =>
    have positive := s.getSize_pos
    rw [moved, origin]
    omega
  | closes candidate shaft tested counts _ origin =>
    have within := (keeps rfl).resolve_left odd
    refine inside (WheelSetup.noted_of_synchronized shaft).1 origin fun wrap => ?_
    exact within ⟨wrap.1, shaft, tested⟩
  | continues useful shaft between _ origin counter =>
    refine inside (WheelSetup.noted_of_synchronized shaft).1 origin fun wrap => ?_
    omega

theorem edge_adjusted (phased : Phased s r)
    (synchronized : (s.wheel.turn r.wheel).decoder.base.shaftIsSynchronized = true)
    (synced : r.camSynced = some (s.wheel.turn r.wheel).origin) :
    s.Adjusted (s.wheel.turn r.wheel) := by
  have same (was : r.wheel.decoder.base.shaftIsSynchronized = true)
      (origin : (s.wheel.turn r.wheel).origin = r.wheel.origin)
      (derived : (s.wheel.turn r.wheel).decoder.derived = r.wheel.decoder.derived) :
      s.Adjusted (s.wheel.turn r.wheel) := by
    rw [Adjusted, derived, origin]
    rw [origin] at synced
    exact phased.adjusted was synced
  cases s.wheel.turned r.wheel with
  | unseen useless unchanged origin =>
    exact same (by rw [← unchanged]; exact synchronized) origin (by rw [unchanged])
  | loses useful lost => rw [lost] at synchronized; cases synchronized
  | starts some candidate accepted _ origin =>
    have before := phased.earlier _ synced
    omega
  | closes candidate shaft tested counts _ origin =>
    exact same (WheelSetup.noted_of_synchronized shaft).1 origin
      (WheelSetup.turn_derived shaft synchronized)
  | continues useful shaft between _ origin =>
    exact same (WheelSetup.noted_of_synchronized shaft).1 origin
      (WheelSetup.turn_derived shaft synchronized)

theorem edge_phased (phased : Phased s r) (keeps : s.KeepsCount r .edge) :
    Phased s (s.step r .edge) where
  aligned := WheelSetup.turn_aligned (s := s.wheel) phased.aligned
  counted := edge_counted phased keeps
  earlier origin synced := (phased.earlier origin synced).trans (Nat.lt_succ_self _)
  adjusted := edge_adjusted phased
  decoded phase handed := by
    obtain ⟨index, decoded, rfl⟩ := Option.map_eq_some_iff.mp handed
    obtain ⟨-, synchronized, same⟩ := WheelSetup.decode_some decoded
    exact ⟨synchronized, by rw [← same]; rfl⟩

/-- A cam sync event leaves the revolution in its place. -/
theorem cam_adjusted (phased : Phased s r) (here : s.AtCam r.wheel.position)
    (synchronized : r.wheel.decoder.base.shaftIsSynchronized = true) :
    s.Adjusted { r.wheel with decoder := s.syncAndReport r.wheel.decoder } := by
  obtain ⟨turns, counting, counter⟩ := phased.counter synchronized
  obtain ⟨y, camTurns⟩ := camTurns_eq counting here
  obtain ⟨part, duration⟩ := s.shape.getCycleDuration_nat
  have cycle : s.engineCycle = getCrankDivider s.shape.operationMode * s.shape.getCycleDuration :=
    s.shape.getEngineCycle_eq
  have divides : ((getCrankDivider s.shape.operationMode * part : ℕ) : Angle) = s.engineCycle := by
    rw [cycle, duration]
    push_cast
    rfl
  obtain ⟨small, z, place⟩ := PrimaryTriggerDecoder.syncEnginePhase_spec r.wheel.decoder s.ambiguous
    s.remainder_lt divides (TriggerWaveform.getEngineCycle_small _)
    (TriggerWaveform.getEngineCycle_pos _)
  have stored : s.syncAndReport r.wheel.decoder = (PrimaryTriggerDecoder.syncEnginePhase
      r.wheel.decoder (getCrankDivider s.shape.operationMode) s.remainder s.engineCycle).1 := by
    rw [syncAndReport, PrimaryTriggerDecoder.camSync, if_pos synchronized]
  simp only [Adjusted, stored, camTurns]
  generalize (PrimaryTriggerDecoder.syncEnginePhase r.wheel.decoder
    (getCrankDivider s.shape.operationMode) s.remainder s.engineCycle).1.derived.mPhaseAdjustment =
    adjustment at small place ⊢
  obtain ⟨q, rounds⟩ : ∃ q : ℕ, (turns : Angle) =
      (turns % getCrankDivider s.shape.operationMode : ℕ) + getCrankDivider s.shape.operationMode * q :=
    ⟨_, by exact_mod_cast (Nat.mod_add_div turns (getCrankDivider s.shape.operationMode)).symm⟩
  refine ⟨small, z + q + y, ?_⟩
  have nonzero : (getCrankDivider s.shape.operationMode : Angle) ≠ 0 :=
    Nat.cast_ne_zero.mpr (TriggerWaveform.getCrankDivider_pos _).ne'
  have each (x : Angle) : x * (getCrankDivider s.shape.operationMode * s.shape.getCycleDuration) /
      getCrankDivider s.shape.operationMode = x * s.shape.getCycleDuration := by
    field_simp
  rw [counter, cycle, each, each] at place
  rw [cycle]
  push_cast
  rw [rounds]
  linear_combination place

theorem cam_phased (phased : Phased s r) : Phased s (s.step r .cam) := by
  by_cases here : s.AtCam r.wheel.position
  swap
  · rw [step, if_neg here]
    exact ⟨phased.aligned, phased.counted, phased.earlier, phased.adjusted, fun _ none => by cases none⟩
  have base : (s.syncAndReport r.wheel.decoder).base = r.wheel.decoder.base :=
    PrimaryTriggerDecoder.camSync_base _
  rw [step, if_pos here]
  refine ⟨?_, ?_, fun origin synced => ?_, ?_, fun _ none => by cases none⟩
  · exact WheelSetup.aligned_of_base (s := s.wheel) base phased.aligned
  · rw [base]
    exact phased.counted
  · split at synced
    · next synchronized =>
      obtain ⟨-, turns, counting⟩ := phased.aligned synchronized
      have begun := counting.begun
      obtain rfl := Option.some.inj synced
      exact (Nat.le_add_right _ _).trans_lt begun
    · exact phased.earlier origin synced
  · rw [base]
    exact fun synchronized _ => cam_adjusted phased here synchronized

theorem reset_phased (phased : Phased s r) : Phased s (s.step r .reset) where
  aligned := WheelSetup.step_aligned (s := s.wheel) phased.aligned .reset
  counted synchronized := by cases synchronized
  earlier := phased.earlier
  adjusted synchronized := by cases synchronized
  decoded phase handed := by cases handed

theorem step_phased (what : CamStep) (keeps : s.KeepsCount r what) (phased : Phased s r) :
    Phased s (s.step r what) := by
  cases what with
  | edge => exact edge_phased phased keeps
  | cam => exact cam_phased phased
  | reset => exact reset_phased phased

theorem run_phased (d : PrimaryTriggerDecoder) (position : Nat) (steps : List CamStep)
    (keeps : Machine.Guarded s.step s.KeepsCount (s.start d position) steps) :
    Phased s (s.run (s.start d position) steps) :=
  keeps.invariant (fun _ what => step_phased what) (start_phased d position)

end Steps

section Agreement
variable {s} {r r' : CamRun} {phase phase' : Angle} {turns turns' : Nat}

theorem camTurns_same_turn {origin origin' : Nat}
    (same : origin + turns * s.shape.getSize = origin' + turns' * s.shape.getSize) :
    (turns : ℤ) - s.camTurns origin = turns' - s.camTurns origin' := by
  have positive : (s.shape.getSize : ℤ) ≠ 0 := by exact_mod_cast s.getSize_pos.ne'
  have apart : (s.camPosition : ℤ) - 1 - origin' =
      (s.camPosition : ℤ) - 1 - origin + (turns' - turns) * s.shape.getSize := by
    zify at same
    linear_combination same
  rw [camTurns, camTurns, apart, Int.add_mul_ediv_right _ _ positive]
  ring

/-- After a cam event the phase handed out depends on the place in the present turn, and
on the turns since the cam event only. -/
theorem decodedPhase_eq (phased : Phased s r) (synced : r.camSynced = some r.wheel.origin)
    (handed : r.decodedPhase = some phase) : ∃ turns, Counting s.shape r.wheel turns ∧
      ∃ (trgPhase : Angle) (z : ℤ), (0 ≤ trgPhase ∧ trgPhase < s.engineCycle) ∧
        (r.wheel.decoder.derived.mPhaseAdjustment : Angle) < s.engineCycle ∧
        phase = toEngPhase s.placement s.engineCycle r.wheel.decoder.derived.mPhaseAdjustment
          trgPhase ∧
        trgPhase + r.wheel.decoder.derived.mPhaseAdjustment =
          s.shape.prepareEventAngles s.synchPointIndex r.wheel.decoder.base.currentCycle.currentIndex +
            (s.remainder + (turns - s.camTurns r.wheel.origin : ℤ)) * s.shape.getCycleDuration +
            z * s.engineCycle := by
  obtain ⟨synchronized, given⟩ := phased.decoded phase handed
  obtain ⟨turns, counting, counter⟩ := phased.counter synchronized
  obtain ⟨small, y, adjustment⟩ := phased.adjusted synchronized synced
  obtain ⟨⟨m, bound, filled, belowCycle⟩, -⟩ :=
    TriggerWaveform.prepareEventAngles_filled s.synch_candidate.1
  have valid := counting.valid
  have turn := Nat.mod_lt turns (TriggerWaveform.getCrankDivider_pos s.shape.operationMode)
  have table := TriggerWaveform.prepareEventAngles_turns s.edges s.synch_candidate.1
    s.synch_candidate.2.1 (counting.index ▸ valid) turn
  rw [← counting.index] at table
  have cycle : s.engineCycle = getCrankDivider s.shape.operationMode * s.shape.getCycleDuration :=
    s.shape.getEngineCycle_eq
  obtain ⟨q, rounds⟩ : ∃ q : ℕ, (turns : Angle) =
      (turns % getCrankDivider s.shape.operationMode : ℕ) + getCrankDivider s.shape.operationMode * q :=
    ⟨_, by exact_mod_cast (Nat.mod_add_div turns (getCrankDivider s.shape.operationMode)).symm⟩
  refine ⟨turns, counting, _, y - q, ⟨filled.nonneg _, (filled.le_bound _).trans_lt belowCycle⟩,
    small, given, ?_⟩
  rw [triggerIndexForListeners, counter, table, adjustment, cycle]
  push_cast
  rw [rounds]
  ring

/-- Two runs on the same crank and cam hand out the same engine phase. -/
theorem decodedPhase_agree (phased : Phased s r) (phased' : Phased s r')
    (position : r'.wheel.position = r.wheel.position)
    (edge : r.wheel.origin ≡ r'.wheel.origin [MOD s.shape.getSize])
    (synced : r.camSynced = some r.wheel.origin) (synced' : r'.camSynced = some r'.wheel.origin)
    (handed : r.decodedPhase = some phase) (handed' : r'.decodedPhase = some phase') :
    phase = phase' := by
  obtain ⟨turns, counting, p, y, pRange, small, rfl, whole⟩ := decodedPhase_eq phased synced handed
  obtain ⟨turns', counting', p', y', pRange', small', rfl, whole'⟩ :=
    decodedPhase_eq phased' synced' handed'
  have same := same_turn counting counting' position edge
  have index : r'.wheel.decoder.base.currentCycle.currentIndex =
      r.wheel.decoder.base.currentCycle.currentIndex := by
    rw [counting.index, counting'.index, same, position]
  rw [index, ← camTurns_same_turn same] at whole'
  refine toEngPhase_eq (z := y - y') small small' pRange pRange' ?_
  rw [whole, whole', engineCycle]
  push_cast
  ring

/-- A further cam event at the same place changes nothing. -/
theorem cam_unchanged (phased : Phased s r) (synced : r.camSynced = some r.wheel.origin) :
    (s.step r .cam).wheel.decoder.derived.mPhaseAdjustment =
      r.wheel.decoder.derived.mPhaseAdjustment := by
  by_cases here : s.AtCam r.wheel.position
  swap
  · rw [step, if_neg here]
  rw [step, if_pos here]
  cases synchronized : r.wheel.decoder.base.shaftIsSynchronized
  · simp [syncAndReport, PrimaryTriggerDecoder.camSync, synchronized]
  obtain ⟨small, y, adjustment⟩ := phased.adjusted synchronized synced
  obtain ⟨small', y', adjustment'⟩ := cam_adjusted phased here synchronized
  have whole : ((s.syncAndReport r.wheel.decoder).derived.mPhaseAdjustment : Angle) =
      r.wheel.decoder.derived.mPhaseAdjustment + (y' - y : ℤ) * s.engineCycle := by
    rw [adjustment', adjustment]
    push_cast
    ring
  exact_mod_cast eq_of_wholeCycles (TriggerWaveform.getEngineCycle_pos s.shape.operationMode)
    (Nat.cast_nonneg _) small' (Nat.cast_nonneg _) small whole

end Agreement

end CrankAndCam

end FomeFw.Trigger
