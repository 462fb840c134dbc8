import FomeFw.Trigger.WheelRun

/-! The gaps a decoder on a turning wheel remembers: those between the last edges that
can be synchronization points, as far back as it was reset, and zeros from there on. -/
namespace FomeFw.Trigger
open Turning

/-- The gap before the `i`-th of these positions, the last one first, as it is measured. -/
def gapOf (time : Nat → Int) (positions : List Nat) (i : Nat) : Int :=
  match positions[i]?, positions[i + 1]? with
  | some a, some b => min (time a - time b) (10 * ntPerSecond)
  | _, _ => 0

/-- The gaps by which a decoder judges the edge at `k` that has seen the edges from `first` on. -/
def TriggerWaveform.gapsAt (shape : TriggerWaveform) (time : Nat → Int) (first k i : Nat) : Int :=
  if i ≤ shape.gapTrackingLength then gapOf time (k :: seen shape.Candidate first k) i else 0

@[simp] theorem gapOf_nil (time : Nat → Int) (i : Nat) : gapOf time [] i = 0 := rfl

@[simp] theorem gapOf_singleton (time : Nat → Int) (k i : Nat) : gapOf time [k] i = 0 := by
  cases i <;> rfl

theorem gapOf_cons_succ (time : Nat → Int) (k : Nat) (positions : List Nat) (i : Nat) :
    gapOf time (k :: positions) (i + 1) = gapOf time positions i := rfl

section Judging
variable {shape : TriggerWaveform} {config : TriggerConfiguration} {measured d d' : Nat → ℚ}

/-- Gaps that pass the test have been measured as far back as the test looks; others that are
the same so far come out the same. -/
theorem TriggerWaveform.gapTest_congr (passed : shape.gapTest config measured = true)
    (same : ∀ i, measured (i + 1) ≠ 0 → d i = d' i ∧ d (i + 1) = d' (i + 1)) :
    shape.gapTest config d = shape.gapTest config d' := by
  unfold gapTest at passed ⊢
  split at passed
  · next miata =>
    rw [if_pos miata, if_pos miata]
    have last : measured 1 ≠ 0 := by
      intro zero
      simp [gapRatio, zero] at passed
    have second : measured 2 ≠ 0 := by
      intro zero
      simp [gapRatio, zero] at passed
    rw [(same 0 last).1, (same 0 last).2, (same 1 second).2]
  · next other =>
    rw [if_neg other, if_neg other, Bool.eq_iff_iff, List.all_eq_true, List.all_eq_true]
    rw [List.all_eq_true] at passed
    refine forall₂_congr fun i inside => ?_
    have test := passed i inside
    cases bound : shape.syncronizationRatioFrom i with
    | none => rfl
    | some lower =>
      simp only [bound, Bool.and_eq_true, decide_eq_true_eq] at test
      have filled : measured (i + 1) ≠ 0 := by
        intro zero
        rw [zero, zero_mul, zero_mul] at test
        exact lt_asymm test.1 test.2
      rw [(same i filled).1, (same i filled).2]

/-- Only the proportions of the gaps matter. -/
theorem TriggerWaveform.gapTest_scale {speed : ℚ} (moves : 0 < speed)
    (scaled : ∀ i, d' i = speed * d i) : shape.gapTest config d' = shape.gapTest config d := by
  have ratio (i j : Nat) : gapRatio (d' i) (d' j) = gapRatio (d i) (d j) := by
    simp only [gapRatio, scaled, mul_eq_zero, moves.ne', false_or, mul_div_mul_left _ _ moves.ne']
  have less (i j : Nat) (x : ℚ) : d' i < d' j * x ↔ d i < d j * x := by
    rw [scaled, scaled, mul_assoc, mul_lt_mul_iff_right₀ moves]
  have more (i j : Nat) (x : ℚ) : d' i > d' j * x ↔ d i > d j * x := by
    rw [scaled, scaled, mul_assoc, gt_iff_lt, mul_lt_mul_iff_right₀ moves]
  simp only [gapTest, ratio, less, more]

/-- Gaps that lie within a history are the same in every longer one. -/
theorem gapOf_extends {time : Nat → Int} {positions longer : List Nat}
    (further : positions <+: longer) (inside : i + 1 < positions.length) :
    gapOf time longer i = gapOf time positions i := by
  have entry (j : Nat) (within : j < positions.length) : longer[j]? = positions[j]? := by
    rw [List.getElem?_eq_getElem within]
    exact (List.prefix_iff_getElem?.mp further) j within
  rw [gapOf, gapOf, entry i (by omega), entry (i + 1) inside]

theorem gapOf_length {time : Nat → Int} {positions : List Nat} (gap : gapOf time positions i ≠ 0) :
    i + 1 < positions.length := by
  by_contra short
  have beyond : positions[i + 1]? = none := List.getElem?_eq_none (not_lt.mp short)
  unfold gapOf at gap
  rw [beyond] at gap
  split at gap <;> simp_all

variable {time : Nat → Int} {first first' k k' c : Nat} {period : Int}

theorem gapOf_shift (turns : ∀ i, time (i + c) = time i + period) (positions : List Nat) (i : Nat) :
    gapOf time (positions.map (· + c)) i = gapOf time positions i := by
  simp only [gapOf, List.getElem?_map]
  cases positions[i]? with
  | none => rfl
  | some a =>
    cases positions[i + 1]? with
    | none => rfl
    | some b =>
      simp only [Option.map_some, turns]
      congr 1
      ring

/-- A turn of the wheel later the same gaps are judged. -/
theorem TriggerWaveform.gapsAt_shift (turns : ∀ i, time (i + c) = time i + period)
    (again : Function.Periodic shape.Candidate c) (first k : Nat) :
    shape.gapsAt time (first + c) (k + c) = shape.gapsAt time first k := by
  funext i
  have history : (k + c) :: seen shape.Candidate (first + c) (k + c) =
      (k :: seen shape.Candidate first k).map (· + c) := by
    rw [seen_shift again, List.map_cons]
  simp only [gapsAt, history, gapOf_shift turns]

/-- The gaps pass the test of the edge at `k` for a decoder that has seen the edges from
`first` on. -/
def TriggerWaveform.Passes (shape : TriggerWaveform) (config : TriggerConfiguration)
    (time : Nat → Int) (first k : Nat) : Prop :=
  shape.gapTest config (fun i => shape.gapsAt time first k i) = true

/-- With a history as long as one that passed, what was before does not matter. -/
theorem TriggerWaveform.Passes.congr (passes : shape.Passes config time first k)
    (long : (seen shape.Candidate first k).length ≤ (seen shape.Candidate first' k').length)
    (earlier : start ≤ first') :
    shape.Passes config time start k' ↔ shape.Passes config time first' k' := by
  have further : k' :: seen shape.Candidate first' k' <+: k' :: seen shape.Candidate start k' :=
    (List.prefix_cons_inj k').mpr (seen_extends earlier k')
  refine Bool.eq_iff_iff.mp (gapTest_congr passes fun i filled => ?_)
  have measured : shape.gapsAt time first k (i + 1) ≠ 0 := by exact_mod_cast filled
  simp only [gapsAt] at measured ⊢
  split at measured
  · next tracked =>
    have inside := gapOf_length measured
    rw [List.length_cons] at inside
    rw [if_pos tracked, if_pos tracked, if_pos (by omega), if_pos (by omega),
      gapOf_extends further (by rw [List.length_cons]; omega),
      gapOf_extends further (by rw [List.length_cons]; omega)]
    exact ⟨rfl, rfl⟩
  · exact absurd rfl measured

/-- Who has seen more passes too. -/
theorem TriggerWaveform.Passes.earlier (passes : shape.Passes config time first k)
    (order : start ≤ first) : shape.Passes config time start k :=
  (passes.congr (le_refl _) order).mpr passes

end Judging
/-- At position `k` the decoder remembers the candidate edges from `first` on. -/
structure Remembers (shape : TriggerWaveform) (time : Nat → Int) (first k : Nat)
    (b : TriggerDecoderBase) : Prop where
  begun : first ≤ k
  firstEvent : b.isFirstEvent = (seen shape.Candidate first k).isEmpty
  previousTime : ∀ c ∈ (seen shape.Candidate first k).head?, b.toothedPreviousTime = time c
  durations : ∀ i, b.toothDurations (i + 1) =
    if i + 1 ≤ shape.gapTrackingLength then gapOf time (seen shape.Candidate first k) i else 0

/-- What is remembered is in three fields. -/
theorem Remembers.of_fields {b b' : TriggerDecoderBase} (remembers : Remembers shape time first k b)
    (firstEvent : b'.isFirstEvent = b.isFirstEvent)
    (previousTime : b'.toothedPreviousTime = b.toothedPreviousTime)
    (durations : b'.toothDurations = b.toothDurations) : Remembers shape time first k b' where
  begun := remembers.begun
  firstEvent := firstEvent.trans remembers.firstEvent
  previousTime c last := previousTime.trans (remembers.previousTime c last)
  durations i := by rw [durations, remembers.durations]

/-- An edge that cannot be a synchronization point is not remembered. -/
theorem Remembers.skip {b : TriggerDecoderBase} (remembers : Remembers shape time first k b)
    (other : ¬ shape.Candidate k) : Remembers shape time first (k + 1) b := by
  have unseen : seen shape.Candidate first (k + 1) = seen shape.Candidate first k := by
    rw [seen_succ remembers.begun, if_neg other]
  constructor
  · exact remembers.begun.trans (Nat.le_succ k)
  · rw [unseen]
    exact remembers.firstEvent
  · rw [unseen]
    exact remembers.previousTime
  · rw [unseen]
    exact remembers.durations

namespace WheelSetup
variable {σ : Type} {s : WheelSetup σ} {w : WheelRun σ}

theorem reset_remembers (d : TriggerDecoder σ) (k : Nat) :
    Remembers s.shape s.rotation.time k k (d.resetState s.kind).base := by
  have nothing : seen s.shape.Candidate k k = [] := seen_of_le (le_refl k)
  refine ⟨le_refl k, ?_, ?_, fun i => ?_⟩
  · rw [nothing]; rfl
  · rw [nothing]; simp
  · rw [nothing, gapOf_nil, ite_self]; rfl

/-- Looking at an edge the decoder still remembers, or starts over here; and it has
measured the gap before this edge. -/
theorem noted_remembers
    (remembers : Remembers s.shape s.rotation.time first w.position w.decoder.base) :
    ∃ first', (s.kind.hasListener = false → first' = first) ∧
      Remembers s.shape s.rotation.time first' w.position (s.noted w).base ∧
      (s.noted w).base.toothDurations =
        s.shape.gapsAt s.rotation.time first' w.position := by
  have noted := @TriggerDecoder.noted_spec _ s.kind s.shape (s.inputAt w.position) w.decoder
  change TriggerDecoder.Noted _ _ _ _ (s.noted w) at noted
  obtain ⟨first', same, again⟩ : ∃ first', (s.kind.hasListener = false → first' = first) ∧
      Remembers s.shape s.rotation.time first' w.position (s.noted w).base := by
    cases restarts : w.decoder.restarts s.kind s.shape (s.inputAt w.position)
    · refine ⟨first, fun _ => rfl, remembers.begun, ?_, fun c last => ?_, fun i => ?_⟩
      · simp [noted.firstEvent, restarts, remembers.firstEvent]
      · simp [noted.previousTime, restarts, remembers.previousTime c last]
      · simp [noted.durations, restarts, remembers.durations]
    · have fresh := reset_remembers (s := s) w.decoder w.position
      refine ⟨w.position, fun silent => ?_, le_refl _, ?_, fun c last => ?_, fun i => ?_⟩
      · simp [TriggerDecoder.restarts, silent] at restarts
      · simp [noted.firstEvent, restarts, seen_of_le]
      · simp [seen_of_le] at last
      · simp [noted.durations, restarts, seen_of_le]
  refine ⟨first', same, again, ?_⟩
  funext i
  cases i with
  | zero =>
    rw [noted.durations, Function.update_self, again.firstEvent, TriggerWaveform.gapsAt,
      if_pos (Nat.zero_le _)]
    cases before : seen s.shape.Candidate first' w.position with
    | nil => simp [ntPerSecond]
    | cons c earlier =>
      rw [again.previousTime c (by simp [before])]
      rfl
  | succ i =>
    rw [again.durations, TriggerWaveform.gapsAt, gapOf_cons_succ]

/-- Once the edge is counted the decoder remembers it too. -/
theorem counted_remembers (useful : s.shape.Useful w.position)
    (remembers : Remembers s.shape s.rotation.time first w.position w.decoder.base) :
    ∃ first', (s.kind.hasListener = false → first' = first) ∧
      Remembers s.shape s.rotation.time first' (w.position + 1)
        (w.decoder.counted s.kind s.shape s.config (s.inputAt w.position)).base := by
  obtain ⟨first', silent, again, gaps⟩ := noted_remembers remembers
  refine ⟨first', silent, ?_⟩
  by_cases considered : s.shape.shouldConsiderEdge (s.shape.signalAt w.position).wheel
    (s.shape.signalAt w.position).isRising
  · have stage : w.decoder.counted s.kind s.shape s.config (s.inputAt w.position) =
        (s.noted w).considerEdge s.kind s.shape s.config (s.inputAt w.position) := by
      simp only [TriggerDecoder.counted, inputAt, considered, if_true]
      rfl
    have candidate : s.shape.Candidate w.position := ⟨useful, considered⟩
    have spec := @TriggerDecoder.considerEdge_spec _ s.kind s.shape s.config
      (s.inputAt w.position) (s.noted w)
    have grows : seen s.shape.Candidate first' (w.position + 1) =
        w.position :: seen s.shape.Candidate first' w.position := by
      rw [seen_succ again.begun, if_pos candidate]
    rw [stage]
    constructor
    · exact again.begun.trans (Nat.le_succ _)
    · rw [grows, spec.firstEvent]
      rfl
    · intro c last
      rw [grows, List.head?_cons, Option.mem_some_iff] at last
      rw [spec.previousTime, ← last]
      rfl
    · intro i
      rw [grows, spec.durations, gaps]
      simp only [TriggerWaveform.gapsAt]
      split
      · next tracked =>
        rw [if_pos tracked.2, Nat.add_sub_cancel, if_pos (by omega)]
      · next beyond => rw [if_neg (by omega), if_neg (by omega)]
  · have stage : w.decoder.counted s.kind s.shape s.config (s.inputAt w.position) =
        { s.noted w with base := (s.noted w).base.nextTriggerEvent s.shape } := by
      simp only [TriggerDecoder.counted, inputAt, considered]
      rfl
    rw [stage]
    exact (again.skip fun candidate => considered candidate.2).of_fields rfl rfl rfl

/-- After an edge the decoder remembers it too. -/
theorem turn_remembers
    (remembers : Remembers s.shape s.rotation.time first w.position w.decoder.base) :
    ∃ first', (s.kind.hasListener = false → first' = first) ∧
      Remembers s.shape s.rotation.time first' (s.turn w).position (s.turn w).decoder.base := by
  by_cases useful : s.shape.Useful w.position
  · obtain ⟨first', silent, counted⟩ := counted_remembers useful remembers
    have finished := @TriggerDecoder.finishEdge_spec _ s.kind s.shape (s.inputAt w.position).rpm
      (w.decoder.counted s.kind s.shape s.config (s.inputAt w.position))
    have after : (s.turn w).decoder =
        ((w.decoder.counted s.kind s.shape s.config (s.inputAt w.position)).finishEdge s.kind
          s.shape (s.inputAt w.position).rpm).1 := by
      simp only [turn, decode, useful, if_true, TriggerDecoder.decodeTriggerEvent_eq]
    refine ⟨first', silent, ?_⟩
    rw [after]
    exact counted.of_fields finished.firstEvent finished.previousTime finished.durations
  · have same : (s.turn w).decoder = w.decoder := by simp [turn, decode, useful]
    refine ⟨first, fun _ => rfl, ?_⟩
    rw [same]
    exact remembers.skip fun candidate => useful candidate.1

end WheelSetup

end FomeFw.Trigger
