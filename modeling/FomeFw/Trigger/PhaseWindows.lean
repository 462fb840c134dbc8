import FomeFw.Trigger.EventAngles

/-! The phase windows that `TriggerCentral::handleShaftSignal` hands out for decoded
teeth. Over one engine cycle the windows of the teeth with different phases cut the
cycle into parts. -/
namespace FomeFw.Trigger
open Windows

/-- The loop that looks for the next tooth at a different phase. -/
def findNextPhase (eventAngles : Nat → Angle) (engineCycle : Angle) (engineCycleEventCount : Nat)
    (currentTrgPhase : Angle) : Nat → Nat → Option Angle
  | 0, _ => none
  | rounds + 1, nextToothIndex =>
    let nextToothIndex := (nextToothIndex + 1) % engineCycleEventCount
    let nextPhase := wrapAngle engineCycle (eventAngles nextToothIndex)
    if nextPhase = currentTrgPhase then
      findNextPhase eventAngles engineCycle engineCycleEventCount currentTrgPhase rounds nextToothIndex
    else some nextPhase

/-- The place of a decoded tooth in the engine cycle. -/
def triggerIndexForListeners (shape : TriggerWaveform) (crankSynchronizationCounter currentIndex : Nat) :
    Nat :=
  let crankDivider := getCrankDivider shape.operationMode
  let crankInternalIndex := crankSynchronizationCounter % crankDivider
  currentIndex + crankInternalIndex * shape.getSize

/-- `handleShaftSignal` from the decoded tooth on; `none` when the loop does not end. -/
def handleShaftSignal (shape : TriggerWaveform) (eventAngles : Nat → Angle) (rounds : Nat)
    (timestamp : Int) (crankSynchronizationCounter currentIndex : Nat) : Option EnginePhaseInfo := do
  let toothIndex := triggerIndexForListeners shape crankSynchronizationCounter currentIndex
  let engineCycle := getEngineCycle shape.operationMode
  let currentTrgPhase := eventAngles toothIndex
  let nextTrgPhase ←
    findNextPhase eventAngles engineCycle shape.getLength currentTrgPhase rounds toothIndex
  some { timestamp, currentTrgPhase, nextTrgPhase, engineCycle }

/-- The indices a synchronized decoder goes through in one turn of the wheel; they
advance by two when only rising edges count. -/
def decodedIndices (shape : TriggerWaveform) : List Nat :=
  (List.range shape.getSize).filter fun i => !shape.useOnlyRisingEdges || i % 2 = 0

/-- The decoded teeth of one engine cycle, each with the revolution counter at that time. -/
def cycleTeeth (shape : TriggerWaveform) (crankSynchronizationCounter : Nat) : List (Nat × Nat) :=
  (List.range (getCrankDivider shape.operationMode)).flatMap fun turn =>
    (decodedIndices shape).map fun i => (crankSynchronizationCounter + turn, i)

/-- The phases handed out for one engine cycle of teeth. -/
def cyclePhases (shape : TriggerWaveform) (eventAngles : Nat → Angle)
    (timestamp : Nat × Nat → Int) (crankSynchronizationCounter : Nat) : Option (List EnginePhaseInfo) :=
  (cycleTeeth shape crankSynchronizationCounter).mapM fun tooth =>
    handleShaftSignal shape eventAngles shape.getLength (timestamp tooth) tooth.1 tooth.2

/-- The window of a phase. -/
def EnginePhaseInfo.window (phase : EnginePhaseInfo) : Angle × Angle :=
  (phase.currentTrgPhase, phase.nextTrgPhase)

theorem isPhaseInRange_iff : isPhaseInRange test current next = true ↔ InWindow test current next := by
  unfold isPhaseInRange InWindow
  split <;> simp

theorem findNextPhase_eq : findNextPhase eventAngles engineCycle n current rounds i =
    nextDifferent (fun k => wrapAngle engineCycle (eventAngles k)) n current rounds i := by
  induction rounds generalizing i with
  | zero => rfl
  | succ rounds ih => simp only [findNextPhase, nextDifferent, ih]

section Cycle
variable {shape : TriggerWaveform} {synchPointIndex : Nat}

/-- Some tooth of the cycle sits at each place of the table, or at its copy. -/
theorem cycleTeeth_covers (eventAngles : Nat → Angle) (start : Nat) (inside : i < shape.getLength)
    (paired : shape.useOnlyRisingEdges = true →
      ∀ j, eventAngles (2 * j) = eventAngles (2 * j + 1)) :
    ∃ tooth ∈ cycleTeeth shape start,
      eventAngles (triggerIndexForListeners shape tooth.1 tooth.2) = eventAngles i := by
  have turns := TriggerWaveform.getCrankDivider_pos shape.operationMode
  have length := shape.getLength_eq
  have size : 0 < shape.getSize := by
    by_contra empty
    rw [length, Nat.eq_zero_of_not_pos empty] at inside
    simp at inside
  -- a decoded index of some turn is met
  have met : ∀ k < shape.getLength, k % shape.getSize ∈ decodedIndices shape →
      ∃ tooth ∈ cycleTeeth shape start, triggerIndexForListeners shape tooth.1 tooth.2 = k := by
    intro k member decoded
    have turn : k / shape.getSize < getCrankDivider shape.operationMode := by
      rw [Nat.div_lt_iff_lt_mul size, ← length]
      exact member
    let offset := (k / shape.getSize + (getCrankDivider shape.operationMode -
      start % getCrankDivider shape.operationMode)) % getCrankDivider shape.operationMode
    have reached : (start + offset) % getCrankDivider shape.operationMode = k / shape.getSize := by
      have split := Nat.div_add_mod start (getCrankDivider shape.operationMode)
      have rest := Nat.mod_lt start turns
      have total : start + (k / shape.getSize + (getCrankDivider shape.operationMode -
          start % getCrankDivider shape.operationMode)) = k / shape.getSize +
          getCrankDivider shape.operationMode * (start / getCrankDivider shape.operationMode + 1) := by
        rw [Nat.mul_add, Nat.mul_one]
        omega
      rw [Nat.add_mod_mod, total, Nat.add_mul_mod_self_left, Nat.mod_eq_of_lt turn]
    refine ⟨(start + offset, k % shape.getSize), ?_, ?_⟩
    · exact List.mem_flatMap.mpr ⟨offset, List.mem_range.mpr (Nat.mod_lt _ turns),
        List.mem_map_of_mem decoded⟩
    · rw [triggerIndexForListeners, reached]
      exact Nat.mod_add_div' k shape.getSize
  by_cases riseOnly : shape.useOnlyRisingEdges
  swap
  · have decoded : i % shape.getSize ∈ decodedIndices shape := by
      simp [decodedIndices, riseOnly, Nat.mod_lt _ size]
    obtain ⟨tooth, member, same⟩ := met i inside decoded
    exact ⟨tooth, member, by rw [same]⟩
  have even : ∀ k, k % shape.getSize % 2 = 0 → k % shape.getSize ∈ decodedIndices shape := by
    intro k even
    simp [decodedIndices, even, Nat.mod_lt _ size]
  have split := Nat.div_add_mod i shape.getSize
  have within := Nat.mod_lt i size
  by_cases own : i % shape.getSize % 2 = 0
  · obtain ⟨tooth, member, same⟩ := met i inside (even i own)
    exact ⟨tooth, member, by rw [same]⟩
  by_cases odd : i % 2 = 1
  · -- the copy in front, in the same turn
    have front : (i - 1) % shape.getSize = i % shape.getSize - 1 := by
      rw [show i - 1 = shape.getSize * (i / shape.getSize) + (i % shape.getSize - 1) by omega,
        Nat.mul_add_mod, Nat.mod_eq_of_lt (by omega)]
    obtain ⟨tooth, member, same⟩ := met (i - 1) (by omega) (even _ (by omega))
    refine ⟨tooth, member, ?_⟩
    rw [same]
    have pair := paired riseOnly (i / 2)
    rwa [show 2 * (i / 2) = i - 1 by omega, show i - 1 + 1 = i by omega] at pair
  · -- the copy behind, perhaps in the next turn
    have behind : (i + 1) % shape.getSize % 2 = 0 ∧ i + 1 < shape.getLength := by
      by_cases last : i % shape.getSize + 1 = shape.getSize
      · have whole : i + 1 = shape.getSize * (i / shape.getSize + 1) := by
          rw [Nat.mul_add, Nat.mul_one]
          omega
        refine ⟨by rw [whole, Nat.mul_mod_right], ?_⟩
        have ends : shape.getLength % 2 = 0 := by
          rw [length, Nat.mul_mod, show shape.getSize % 2 = 0 by omega, Nat.mul_zero]
        omega
      · have next : (i + 1) % shape.getSize = i % shape.getSize + 1 := by
          rw [show i + 1 = shape.getSize * (i / shape.getSize) + (i % shape.getSize + 1) by omega,
            Nat.mul_add_mod, Nat.mod_eq_of_lt (by omega)]
        refine ⟨by omega, ?_⟩
        have turn : i / shape.getSize < getCrankDivider shape.operationMode := by
          rw [Nat.div_lt_iff_lt_mul size, ← length]
          exact inside
        have room := Nat.mul_le_mul_left shape.getSize turn
        rw [length, Nat.mul_comm]
        rw [Nat.mul_succ] at room
        omega
    obtain ⟨tooth, member, same⟩ := met (i + 1) behind.2 (even _ behind.1)
    refine ⟨tooth, member, ?_⟩
    rw [same]
    have pair := paired riseOnly (i / 2)
    rw [show 2 * (i / 2) = i by omega] at pair
    exact pair.symm

/-- In whatever turn, a decoded index has its place in the engine cycle. -/
theorem triggerIndexForListeners_inside (counter : Nat) (inside : i < shape.getSize) :
    triggerIndexForListeners shape counter i < shape.getLength := by
  have turns := Nat.mod_lt counter (TriggerWaveform.getCrankDivider_pos shape.operationMode)
  have room := Nat.mul_le_mul_right shape.getSize turns
  rw [triggerIndexForListeners, shape.getLength_eq]
  rw [Nat.succ_mul] at room
  exact lt_of_lt_of_le (Nat.add_comm _ i ▸ Nat.add_lt_add_left inside _) room

/-- Every tooth of the cycle sits in the table. -/
theorem triggerIndexForListeners_lt (member : tooth ∈ cycleTeeth shape start) :
    triggerIndexForListeners shape tooth.1 tooth.2 < shape.getLength := by
  obtain ⟨turn, -, decoded⟩ := List.mem_flatMap.mp member
  obtain ⟨i, chosen, rfl⟩ := List.mem_map.mp decoded
  have inside : i < shape.getSize := List.mem_range.mp (List.mem_of_mem_filter chosen)
  exact triggerIndexForListeners_inside (start + turn) inside

/-- What one tooth hands out: its own phase, and the neighbouring one. -/
theorem handleShaftSignal_follows {eventAngles : Nat → Angle} {n : Nat}
    (table : RisingTable eventAngles n) (size : n = shape.getLength)
    (wrapped : ∀ i, wrapAngle (getEngineCycle shape.operationMode) (eventAngles i) = eventAngles i)
    (inside : triggerIndexForListeners shape counter currentIndex < n) (other : k < n)
    (differs : eventAngles k ≠ eventAngles (triggerIndexForListeners shape counter currentIndex)) :
    ∃ next, handleShaftSignal shape eventAngles shape.getLength timestamp counter currentIndex =
        some ⟨timestamp, eventAngles (triggerIndexForListeners shape counter currentIndex), next,
          getEngineCycle shape.operationMode⟩ ∧
      Follows (fun p => ∃ j < n, eventAngles j = p)
        (eventAngles (triggerIndexForListeners shape counter currentIndex)) next := by
  obtain ⟨next, found, follows⟩ := nextDifferent_follows table inside other differs
  refine ⟨next, ?_, follows⟩
  simp only [handleShaftSignal, findNextPhase_eq, wrapped, ← size, found, Option.bind_eq_bind,
    Option.bind_some]

end Cycle

theorem mapM_eq_some {f : α → Option β} {g : α → β} {l : List α} (each : ∀ a ∈ l, f a = some (g a)) :
    l.mapM f = some (l.map g) := by
  induction l with
  | nil => rfl
  | cons a l ih =>
    simp [List.mapM_cons, each a (by simp), ih (fun b member => each b (by simp [member]))]

/-- A list without repetitions has one member of a kind when exactly one such value is in it. -/
theorem countP_eq_one [DecidableEq α] {l : List α} {kind : α → Bool} (once : l.Nodup)
    (unique : ∃! a, a ∈ l ∧ kind a = true) : l.countP kind = 1 := by
  obtain ⟨a, ⟨member, isKind⟩, only⟩ := unique
  have same : l.filter kind = [a] := by
    refine List.perm_singleton.mp ((List.perm_ext_iff_of_nodup (once.filter _) (by simp)).mpr ?_)
    intro b
    rw [List.mem_filter, List.mem_singleton]
    exact ⟨fun found => only b found, fun same => same ▸ ⟨member, isKind⟩⟩
  rw [List.countP_eq_length_filter, same, List.length_singleton]

/-- Over one engine cycle of teeth every phase is handed out with one window, and each
angle of the cycle is in range of exactly one of these windows. -/
theorem cyclePhases_partition (shape : TriggerWaveform) (synchPointIndex : Nat)
    (synch : synchPointIndex < shape.getSize) (timestamp : Nat × Nat → Int) (counter : Nat)
    (different : ∃ i < shape.getLength, ∃ j < shape.getLength,
      shape.prepareEventAngles synchPointIndex i ≠ shape.prepareEventAngles synchPointIndex j) :
    ∃ phases, cyclePhases shape (shape.prepareEventAngles synchPointIndex) timestamp counter =
        some phases ∧
      (((phases.map EnginePhaseInfo.window).dedup).map Prod.fst).Nodup ∧
      ∀ angle, 0 ≤ angle → angle < getEngineCycle shape.operationMode →
        (phases.map EnginePhaseInfo.window).dedup.countP
          (fun window => isPhaseInRange angle window.1 window.2) = 1 := by
  obtain ⟨⟨m, bound, filled, small⟩, paired⟩ := TriggerWaveform.prepareEventAngles_filled synch
  have wrapped := TriggerWaveform.prepareEventAngles_wrapped synch
  generalize shape.prepareEventAngles synchPointIndex = eventAngles at *
  obtain ⟨a, insideA, b, insideB, apart⟩ := different
  have table := filled.risingTable shape.getLength (by omega)
  let points : Finset Angle := (Finset.range shape.getLength).image eventAngles
  have isPoint : (· ∈ points) = fun p => ∃ j < shape.getLength, eventAngles j = p := by
    funext p
    simp [points]
  have handed : ∀ tooth ∈ cycleTeeth shape counter, ∃ phase,
      handleShaftSignal shape eventAngles shape.getLength (timestamp tooth) tooth.1 tooth.2 =
        some phase ∧
      phase.currentTrgPhase = eventAngles (triggerIndexForListeners shape tooth.1 tooth.2) ∧
      Follows (· ∈ points) phase.currentTrgPhase phase.nextTrgPhase := by
    intro tooth member
    have inside := triggerIndexForListeners_lt member
    obtain ⟨k, other, differs⟩ : ∃ k < shape.getLength,
        eventAngles k ≠ eventAngles (triggerIndexForListeners shape tooth.1 tooth.2) := by
      by_cases same : eventAngles a = eventAngles (triggerIndexForListeners shape tooth.1 tooth.2)
      · exact ⟨b, insideB, fun other => apart (same.trans other.symm)⟩
      · exact ⟨a, insideA, same⟩
    obtain ⟨next, run, follows⟩ := @handleShaftSignal_follows _ _ _ _ (timestamp tooth) _ _ table rfl
      wrapped inside other differs
    exact ⟨_, run, rfl, by rw [isPoint]; exact follows⟩
  have : Nonempty EnginePhaseInfo := ⟨⟨0, 0, 0, 0⟩⟩
  choose! phase run at_ neighbour using handed
  refine ⟨_, mapM_eq_some run, ?_, ?_⟩
  all_goals
    have listed : ∀ window ∈ (((cycleTeeth shape counter).map phase).map EnginePhaseInfo.window).dedup,
        window.1 ∈ points ∧ Follows (· ∈ points) window.1 window.2 := by
      intro window member
      simp only [List.mem_dedup, List.mem_map, exists_exists_and_eq_and] at member
      obtain ⟨tooth, member, rfl⟩ := member
      refine ⟨?_, neighbour tooth member⟩
      change (phase tooth).currentTrgPhase ∈ points
      rw [at_ tooth member]
      exact Finset.mem_image_of_mem _ (Finset.mem_range.mpr (triggerIndexForListeners_lt member))
  · refine List.Nodup.map_on (fun w member w' member' same => ?_) (List.nodup_dedup _)
    have second := (listed w' member').2
    rw [← same] at second
    exact Prod.ext same ((listed w member).2.unique second)
  · intro angle _ _
    refine countP_eq_one (List.nodup_dedup _) ?_
    have windowOf : ∀ p ∈ points, ∃ next, (p, next) ∈
        (((cycleTeeth shape counter).map phase).map EnginePhaseInfo.window).dedup := by
      intro p member
      obtain ⟨i, inside, rfl⟩ := Finset.mem_image.mp member
      obtain ⟨tooth, member, same⟩ :=
        cycleTeeth_covers eventAngles counter (Finset.mem_range.mp inside) paired
      refine ⟨(phase tooth).nextTrgPhase, ?_⟩
      simp only [List.mem_dedup, List.mem_map, exists_exists_and_eq_and]
      exact ⟨tooth, member, Prod.ext ((at_ tooth member).trans same) rfl⟩
    choose! next window using windowOf
    obtain ⟨p, ⟨member, inside⟩, only⟩ := @unique_window _ _ points next
      ⟨eventAngles a, Finset.mem_image_of_mem _ (Finset.mem_range.mpr insideA)⟩
      (fun p member => (listed _ (window p member)).2) angle
    refine ⟨(p, next p), ⟨window p member, isPhaseInRange_iff.mpr inside⟩, ?_⟩
    rintro ⟨r, q⟩ ⟨found, range⟩
    obtain ⟨point, follows⟩ := listed _ found
    have same : q = next r := follows.unique (listed _ (window r point)).2
    subst same
    rw [only r ⟨point, isPhaseInRange_iff.mp range⟩]

theorem cyclePhases_partition_halfMoon :
    ∃ phases, cyclePhases halfMoon (halfMoon.prepareEventAngles 0) (fun _ => 0) 0 = some phases ∧
      (((phases.map EnginePhaseInfo.window).dedup).map Prod.fst).Nodup ∧
      ∀ angle, 0 ≤ angle → angle < getEngineCycle .fourStrokeCamSensor →
        (phases.map EnginePhaseInfo.window).dedup.countP
          (fun window => isPhaseInRange angle window.1 window.2) = 1 :=
  cyclePhases_partition halfMoon 0 (by decide) (fun _ => 0) 0
    ⟨0, by decide +kernel, 1, by decide +kernel, by decide +kernel⟩

end FomeFw.Trigger
