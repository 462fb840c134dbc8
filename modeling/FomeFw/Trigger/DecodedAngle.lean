import FomeFw.Trigger.PrimaryTriggerDecoder
import FomeFw.Trigger.SyncEdge

/-! The decoder and the table of tooth angles agree. A decoder on a turning wheel finds the
edge at which initialization began the table; from there on it counts the edges, and the table
gives the angle of each. -/
namespace FomeFw.Trigger

section Located
variable {σ : Type} {s : WheelSetup σ} {w : WheelRun σ} {synch : Nat}

/-- Gaps pass only where they passed in the simulation; where gaps do not matter, the wheel goes
on in the same way from every edge that can be a synchronization point. -/
def WheelSetup.Recognizes (s : WheelSetup σ) (synch : Nat) : Prop :=
  if s.shape.isSynchronizationNeeded then ∀ first k, s.shape.Candidate k →
    s.shape.Passes s.config s.rotation.time first k → s.shape.PassesSimulated s.config first k
  else ∀ k, s.shape.Candidate k → s.shape.Alike synch k

/-- A synchronized decoder began at an edge like the one at which the table begins. -/
structure Located (s : WheelSetup σ) (synch : Nat) (w : WheelRun σ) : Prop where
  aligned : Aligned s.shape w
  remembers : ∃ first, Remembers s.shape s.rotation.time first w.position w.decoder.base
  alike : w.decoder.base.shaftIsSynchronized = true → s.shape.Alike synch w.origin

theorem start_located (d : TriggerDecoder σ) (position : Nat) :
    Located s synch (s.start d position) where
  aligned synchronized := by cases synchronized
  remembers := ⟨position, WheelSetup.reset_remembers d position⟩
  alike synchronized := by cases synchronized

/-- The first synchronization point is an edge like that of the table. -/
theorem alike_of_starts {initState : TriggerDecoder Unit} {rpm : ℚ} (edges : s.shape.EdgesOnly)
    (found : s.shape.calculateTriggerSynchPoint s.config rpm initState = ⟨some synch, false⟩)
    (recognizes : s.Recognizes synch) (located : Located s synch w)
    (candidate : s.shape.Candidate w.position)
    (accepted : s.shape.isSynchronizationNeeded = true →
      s.shape.gapTest s.config (fun i => (s.noted w).base.toothDurations i) = true) :
    s.shape.Alike synch w.position := by
  unfold WheelSetup.Recognizes at recognizes
  split at recognizes
  · next needed =>
    obtain ⟨first, remembers⟩ := located.remembers
    obtain ⟨first', -, -, gaps⟩ := WheelSetup.noted_remembers remembers
    have passes := accepted needed
    rw [gaps] at passes
    have simulated := recognizes first' w.position candidate passes
    have place := TriggerWaveform.synchPoint_unique edges needed found candidate simulated
    have inside := TriggerWaveform.synchPoint_found
      (congrArg SynchPoint.triggerShapeSynchPointIndex found)
    have alike := @TriggerWaveform.alike_turns s.shape (Nat.zero_lt_of_lt inside.1) synch
      (w.position / s.shape.getSize)
    rwa [← place, Nat.mod_add_div', place] at alike
  · exact recognizes w.position candidate

theorem step_located {initState : TriggerDecoder Unit} {rpm : ℚ} (edges : s.shape.EdgesOnly)
    (found : s.shape.calculateTriggerSynchPoint s.config rpm initState = ⟨some synch, false⟩)
    (recognizes : s.Recognizes synch) (located : Located s synch w) (what : WheelStep σ) :
    Located s synch (s.step w what) := by
  have aligned := WheelSetup.step_aligned located.aligned what
  obtain ⟨first, remembers⟩ := located.remembers
  cases what with
  | turn =>
    obtain ⟨first', -, further⟩ := WheelSetup.turn_remembers remembers
    refine ⟨aligned, ⟨first', further⟩, fun synchronized => ?_⟩
    change s.shape.Alike synch (s.turn w).origin
    change (s.turn w).decoder.base.shaftIsSynchronized = true at synchronized
    cases s.turned w with
    | unseen useless same origin =>
      rw [origin]
      exact located.alike (by rw [← same]; exact synchronized)
    | loses useful lost => rw [lost] at synchronized; cases synchronized
    | starts some candidate accepted _ origin =>
      rw [origin]
      exact alike_of_starts edges found recognizes located candidate accepted
    | closes candidate shaft tested counts _ origin =>
      rw [origin]
      exact located.alike (WheelSetup.noted_of_synchronized shaft).1
    | continues useful shaft between _ origin =>
      rw [origin]
      exact located.alike (WheelSetup.noted_of_synchronized shaft).1
  | reset =>
    refine ⟨aligned, ⟨w.position, WheelSetup.reset_remembers w.decoder w.position⟩, ?_⟩
    intro synchronized
    cases synchronized
  | derived change => exact ⟨aligned, ⟨first, remembers⟩, located.alike⟩

theorem run_located {initState : TriggerDecoder Unit} {rpm : ℚ} (edges : s.shape.EdgesOnly)
    (found : s.shape.calculateTriggerSynchPoint s.config rpm initState = ⟨some synch, false⟩)
    (recognizes : s.Recognizes synch) (located : Located s synch w) (steps : List (WheelStep σ)) :
    Located s synch (s.run w steps) := by
  induction steps generalizing w with
  | nil => exact located
  | cons what steps ih => exact ih (step_located edges found recognizes located what)

/-- What the table says of the next edge, if it is decoded as this index. -/
def WheelSetup.tableAngle (s : WheelSetup σ) (synch : Nat) (w : WheelRun σ) (currentIndex : Nat) :
    Angle :=
  s.shape.prepareEventAngles synch (triggerIndexForListeners s.shape
    (s.turn w).decoder.base.crankSynchronizationCounter currentIndex)

/-- The angle of the next edge from the sync event of revolution 0 on. -/
def WheelSetup.trueAngle (s : WheelSetup σ) (w : WheelRun σ) : Angle :=
  s.shape.getAngle w.position - s.shape.getAngle (s.turn w).origin

/-- If the next edge is decoded the table gives its angle, but for whole engine cycles. -/
def WheelSetup.Agrees (s : WheelSetup σ) (synch : Nat) (w : WheelRun σ) : Prop :=
  ∀ currentIndex, (s.decode w.decoder w.position).2 = some currentIndex →
    ∃ z : ℤ, s.tableAngle synch w currentIndex =
      s.trueAngle w + z * getEngineCycle s.shape.operationMode

/-- Revolutions are known, up to engine cycles, as long as they are counted. -/
def WheelSetup.Countable (s : WheelSetup σ) (w : WheelRun σ) : Prop :=
  getCrankDivider s.shape.operationMode ∣ 2 ^ 16 ∨
    w.position < (s.turn w).origin + 2 ^ 16 * s.shape.getSize

end Located

/-- A wheel that turns at a constant speed in front of the primary decoder, once in this many ticks;
the times of the edges are whole ticks. -/
def WheelSetup.constantSpeed (shape : TriggerWaveform) (ticks : ℚ) : WheelSetup FullSync where
  kind := PrimaryTriggerDecoder.kind
  shape := shape
  config := {}
  rotation := {
    time k := ⌊ticks * ((k / shape.getSize : ℕ) + shape.getSwitchTime (k % shape.getSize))⌋
    rpm _ := 0 }

/-- The decoder is shown so many edges from a position on. -/
def WheelSetup.turnsFrom (s : WheelSetup FullSync) (position edges : Nat) : WheelRun FullSync :=
  s.run (s.start PrimaryTriggerDecoder.new position) (List.replicate edges .turn)

section Speed
variable {shape : TriggerWaveform} {synch : Nat} {ticks : ℤ}

/-- Turned once in this many ticks, the edges of a turn come at whole ticks. -/
def WholeTicks (shape : TriggerWaveform) (ticks : ℤ) : Prop :=
  ∀ r < shape.getSize, (⌊ticks * shape.getSwitchTime r⌋ : ℚ) = ticks * shape.getSwitchTime r

instance : Decidable (WholeTicks shape ticks) := inferInstanceAs (Decidable (∀ r < _, _ = _))

/-- Then the edges of all turns do. -/
theorem WholeTicks.floor_turns (whole : WholeTicks shape ticks) (some : 0 < shape.getSize)
    (k : Nat) :
    (⌊ticks * ((k / shape.getSize : ℕ) + shape.getSwitchTime (k % shape.getSize))⌋ : ℚ) =
      ticks * ((k / shape.getSize : ℕ) + shape.getSwitchTime (k % shape.getSize)) := by
  have sum : (ticks : ℚ) * ((k / shape.getSize : ℕ) + shape.getSwitchTime (k % shape.getSize)) =
      (ticks * (k / shape.getSize : ℕ) +
        ⌊(ticks : ℚ) * shape.getSwitchTime (k % shape.getSize)⌋ : ℤ) := by
    rw [mul_add, Int.cast_add, Int.cast_mul, Int.cast_natCast, whole _ (Nat.mod_lt k some)]
  rw [sum, Int.floor_intCast]

/-- At a constant speed at which all edges come at whole ticks, in the simulation too, and a turn
takes at most ten seconds, rounding does no harm. -/
theorem recognizes_constantSpeed (needed : shape.isSynchronizationNeeded = true)
    (some : 0 < shape.getSize) (moves : 0 < ticks) (short : ticks ≤ 10 * ntPerSecond)
    (whole : WholeTicks shape ticks) (simulated : WholeTicks shape simulationCyclePeriod) :
    (WheelSetup.constantSpeed shape ticks).Recognizes synch := by
  have synchronizes : (WheelSetup.constantSpeed shape ticks).shape.isSynchronizationNeeded = true :=
    needed
  have period : (0 : ℚ) < simulationCyclePeriod := by norm_num
  have speed : (0 : ℚ) < ticks / simulationCyclePeriod :=
    div_pos (Int.cast_pos.mpr moves) period
  rw [WheelSetup.Recognizes, if_pos synchronizes]
  intro first k candidate passes
  refine (TriggerWaveform.passes_iff_of_speed some speed ?_ (fun i j => ?_) candidate).mp passes
  · rw [div_mul_cancel₀ _ period.ne']
    exact_mod_cast short
  · simp only [WheelSetup.constantSpeed, TriggerWaveform.getSimulatedEventTime]
    rw [Int.cast_sub, Int.cast_sub, whole.floor_turns some, whole.floor_turns some,
      simulated.floor_turns some, simulated.floor_turns some]
    field_simp

end Speed

/-- `configureMazdaProtegeSOHC`: a cam with four teeth, any edge of which may be the first. -/
def mazdaProtegeSohc : TriggerWaveform where
  operationMode := .fourStrokeCamSensor
  syncEdge := .both
  isSynchronizationNeeded := false
  events := [⟨157 / 1000, true, .primary⟩, ⟨1 / 4, false, .primary⟩,
    ⟨407 / 1000, true, .primary⟩, ⟨1 / 2, false, .primary⟩,
    ⟨657 / 1000, true, .primary⟩, ⟨3 / 4, false, .primary⟩,
    ⟨907 / 1000, true, .primary⟩, ⟨1, false, .primary⟩]
  positive := by decide +kernel
  withinTurn := by decide +kernel
  ordered := by decide +kernel
  capacity := by decide

/-- A crank wheel with two teeth and an event that is no edge. -/
def repeatedFall : TriggerWaveform where
  operationMode := .fourStrokeSymmetricalCrankSensor
  syncEdge := .riseOnly
  syncronizationRatioFrom i := if i = 0 then some 2 else none
  syncronizationRatioTo _ := 3
  events := [⟨1 / 10, true, .primary⟩, ⟨2 / 10, false, .primary⟩,
    ⟨4 / 10, true, .primary⟩, ⟨5 / 10, false, .primary⟩, ⟨9 / 10, false, .primary⟩]
  positive := by decide +kernel
  withinTurn := by decide +kernel
  ordered := by decide +kernel
  capacity := by decide

/-- A crank wheel with four teeth; one of its gap ratios is the lower bound for the sync gap. -/
def tightBound : TriggerWaveform where
  operationMode := .fourStrokeCrankSensor
  syncEdge := .riseOnly
  syncronizationRatioFrom i := if i = 0 then some 1 else none
  syncronizationRatioTo _ := 5
  events := [⟨1 / 9, false, .primary⟩, ⟨4 / 9, true, .primary⟩, ⟨5 / 9, false, .primary⟩,
    ⟨6 / 9, true, .primary⟩, ⟨7 / 9, false, .primary⟩, ⟨8 / 9, true, .primary⟩,
    ⟨17 / 18, false, .primary⟩, ⟨1, true, .primary⟩]
  positive := by decide +kernel
  withinTurn := by decide +kernel
  ordered := by decide +kernel
  capacity := by decide

variable {s : WheelSetup FullSync} {synch i : Nat} {w : WheelRun FullSync}

theorem not_agrees (decoded : (s.decode w.decoder w.position).2 = some i)
    (table : 0 ≤ s.tableAngle synch w i ∧
      s.tableAngle synch w i < getEngineCycle s.shape.operationMode)
    (place : 0 ≤ s.trueAngle w ∧ s.trueAngle w < getEngineCycle s.shape.operationMode)
    (differ : s.tableAngle synch w i ≠ s.trueAngle w) : ¬ s.Agrees synch w := by
  intro agrees
  obtain ⟨z, same⟩ := agrees i decoded
  exact differ (eq_of_wholeCycles (TriggerWaveform.getEngineCycle_pos _) table.1 table.2 place.1
    place.2 same)

end FomeFw.Trigger
