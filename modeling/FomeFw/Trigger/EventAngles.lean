import FomeFw.Lib.Windows
import FomeFw.Trigger.TriggerWaveform

/-! The table of tooth angles, `TriggerFormDetails::prepareEventAngles`. Counted from
the sync point the angles rise through the cycle; a shape that only uses rising edges
has each of them twice, and zeros where the table is longer than that. -/
namespace FomeFw.Trigger
open Windows

/-- `eventAngles` while it is being filled. -/
structure AngleTable where
  eventAngles : Nat → Angle := fun _ => 0
  riseOnlyIndex : Nat := 0

namespace TriggerWaveform

/-- The angle of an edge of the cycle relative to the sync point. -/
def relativeAngle (shape : TriggerWaveform) (synchPointIndex eventIndex : Nat) : Angle :=
  let firstAngle := shape.getAngle synchPointIndex
  let wrappedIndex := (synchPointIndex + eventIndex) % shape.getLength
  wrapAngle (getEngineCycle shape.operationMode) (shape.getAngle wrappedIndex - firstAngle)

/-- One round of the loop. -/
def prepareEventAngle (shape : TriggerWaveform) (synchPointIndex : Nat) (table : AngleTable)
    (eventIndex : Nat) : AngleTable :=
  if eventIndex = 0 then
    { table with eventAngles := Function.update (Function.update table.eventAngles 0 0) 1 0 }
  else
    let wrappedIndex := (synchPointIndex + eventIndex) % shape.getLength
    let triggerDefinitionIndex := wrappedIndex % shape.getSize
    let angle := shape.relativeAngle synchPointIndex eventIndex
    if shape.useOnlyRisingEdges then
      if shape.isRiseEvent triggerDefinitionIndex then
        let riseOnlyIndex := table.riseOnlyIndex + 2
        { eventAngles := Function.update (Function.update table.eventAngles riseOnlyIndex angle)
            (riseOnlyIndex + 1) angle
          riseOnlyIndex }
      else table
    else { table with eventAngles := Function.update table.eventAngles eventIndex angle }

def prepareEventAngles (shape : TriggerWaveform) (synchPointIndex : Nat) : Nat → Angle :=
  ((List.range shape.getLength).foldl (shape.prepareEventAngle synchPointIndex) {}).eventAngles

variable {shape : TriggerWaveform} {synchPointIndex : Nat}

theorem relativeAngle_nonneg : 0 ≤ shape.relativeAngle synchPointIndex i :=
  (wrapAngle_spec (getEngineCycle_pos _) _).1

theorem relativeAngle_lt :
    shape.relativeAngle synchPointIndex i < getEngineCycle shape.operationMode :=
  (wrapAngle_spec (getEngineCycle_pos _) _).2.1

/-- Without the wrapping: the angle from the sync point on, through the following turns. -/
theorem relativeAngle_eq (synch : synchPointIndex < shape.getSize) (inside : i < shape.getLength) :
    shape.relativeAngle synchPointIndex i =
      shape.getAngle (synchPointIndex + i) - shape.getAngle synchPointIndex := by
  have some : 0 < shape.getSize := by omega
  have growing := getAngle_strictMono some
  have cycle := getEngineCycle_small shape.operationMode
  have first : shape.getSize ≤ shape.getLength := by
    rw [shape.getLength_eq]
    exact Nat.le_mul_of_pos_left _ (getCrankDivider_pos _)
  have start := growing.monotone (Nat.le_add_right synchPointIndex i)
  have finish : shape.getAngle (synchPointIndex + i) <
      shape.getAngle synchPointIndex + getEngineCycle shape.operationMode := by
    rw [← getAngle_add_length some]
    exact growing (by omega)
  -- the table is read at the same edge, at most one cycle earlier
  obtain ⟨n, turn⟩ : ∃ n : ℤ, shape.getAngle ((synchPointIndex + i) % shape.getLength) =
      shape.getAngle (synchPointIndex + i) + n * getEngineCycle shape.operationMode := by
    by_cases wrapped : synchPointIndex + i < shape.getLength
    · exact ⟨0, by simp [Nat.mod_eq_of_lt wrapped]⟩
    · have back : synchPointIndex + i - shape.getLength + shape.getLength = synchPointIndex + i := by
        omega
      refine ⟨-1, ?_⟩
      conv_lhs => rw [← back, Nat.add_mod_right, Nat.mod_eq_of_lt (by omega)]
      conv_rhs => rw [← back, getAngle_add_length some]
      push_cast
      ring
  have bounds : ∀ k < shape.getLength, shape.getAngle 0 ≤ shape.getAngle k ∧
      shape.getAngle k < shape.getAngle 0 + getEngineCycle shape.operationMode := by
    intro k member
    refine ⟨growing.monotone (Nat.zero_le k), ?_⟩
    rw [← getAngle_add_length some]
    exact growing (by omega)
  have read := bounds _ (Nat.mod_lt (synchPointIndex + i) (by omega : 0 < shape.getLength))
  have origin := bounds synchPointIndex (by omega)
  obtain ⟨nonneg, small, m, wrapped⟩ := wrapAngle_spec (getEngineCycle_pos shape.operationMode)
    (shape.getAngle ((synchPointIndex + i) % shape.getLength) - shape.getAngle synchPointIndex)
  rw [assertAngleRange_of_mem (by linarith) (by linarith)] at wrapped
  refine eq_of_wholeCycles (n := n + m) (getEngineCycle_pos shape.operationMode) nonneg small
    (by linarith) (by linarith) ?_
  rw [relativeAngle, wrapped, turn]
  push_cast
  ring

theorem relativeAngle_lt_of_lt (synch : synchPointIndex < shape.getSize) (order : i < j)
    (inside : j < shape.getLength) :
    shape.relativeAngle synchPointIndex i < shape.relativeAngle synchPointIndex j := by
  rw [relativeAngle_eq synch (order.trans inside), relativeAngle_eq synch inside]
  have growing := (@getAngle_strictMono shape (by omega))
    (Nat.add_lt_add_left order synchPointIndex)
  linarith

end TriggerWaveform

/-- A table whose first `m` entries rise from zero up to a bound, and which is zero beyond. -/
structure Filled (eventAngles : Nat → Angle) (m : Nat) (bound : Angle) : Prop where
  some : 0 < m
  origin : eventAngles 0 = 0
  rising : ∀ i j, i ≤ j → j < m → eventAngles i ≤ eventAngles j
  bounded : ∀ i < m, eventAngles i ≤ bound
  beyond : ∀ i, m ≤ i → eventAngles i = 0

namespace Filled
variable {eventAngles : Nat → Angle} {m : Nat} {bound angle : Angle}

theorem push (filled : Filled eventAngles m bound) (above : bound ≤ angle) :
    Filled (Function.update eventAngles m angle) (m + 1) angle := by
  have kept : ∀ i < m, Function.update eventAngles m angle i = eventAngles i := fun i inside =>
    Function.update_of_ne inside.ne _ _
  refine ⟨by omega, (kept 0 filled.some).trans filled.origin, ?_, ?_, ?_⟩
  · intro i j order inside
    by_cases last : j = m
    · subst last
      rw [Function.update_self]
      by_cases same : i = j
      · rw [same, Function.update_self]
      · rw [kept i (by omega)]
        exact (filled.bounded i (by omega)).trans above
    · rw [kept i (by omega), kept j (by omega)]
      exact filled.rising i j order (by omega)
  · intro i inside
    by_cases last : i = m
    · rw [last, Function.update_self]
    · rw [kept i (by omega)]
      exact (filled.bounded i (by omega)).trans above
  · intro i outside
    rw [Function.update_of_ne (by omega)]
    exact filled.beyond i (by omega)

theorem weaken (filled : Filled eventAngles m bound) (above : bound ≤ angle) :
    Filled eventAngles m angle :=
  { filled with bounded := fun i inside => (filled.bounded i inside).trans above }

theorem nonneg (filled : Filled eventAngles m bound) (i : Nat) : 0 ≤ eventAngles i := by
  by_cases inside : i < m
  · exact filled.origin ▸ filled.rising 0 i (Nat.zero_le i) inside
  · exact (filled.beyond i (by omega)).ge

theorem le_bound (filled : Filled eventAngles m bound) (i : Nat) : eventAngles i ≤ bound := by
  by_cases inside : i < m
  · exact filled.bounded i inside
  · rw [filled.beyond i (by omega), ← filled.origin]
    exact filled.bounded 0 filled.some

theorem risingTable (filled : Filled eventAngles m bound) (n : Nat) (rows : 0 < n) :
    RisingTable eventAngles n := by
  refine ⟨min m n, min_le_right _ _, lt_min filled.some rows, ?_, ?_⟩
  · intro i j order inside
    exact filled.rising i j order (inside.trans_le (min_le_left _ _))
  · intro i outside inside
    rw [filled.origin]
    exact filled.beyond i (by omega)

end Filled

namespace TriggerWaveform
variable {shape : TriggerWaveform} {synchPointIndex : Nat}

/-- The loop fills the table up to the last tooth it has seen. -/
theorem prepareEventAngles_round (synch : synchPointIndex < shape.getSize)
    (inside : k < shape.getLength) :
    let table := (List.range (k + 1)).foldl (shape.prepareEventAngle synchPointIndex) {}
    (∃ m, Filled table.eventAngles m (shape.relativeAngle synchPointIndex k) ∧
      m = if shape.useOnlyRisingEdges then table.riseOnlyIndex + 2 else k + 1) ∧
    (shape.useOnlyRisingEdges = true → table.riseOnlyIndex % 2 = 0 ∧
      ∀ j, table.eventAngles (2 * j) = table.eventAngles (2 * j + 1)) := by
  induction k with
  | zero =>
    have zeros : Filled (fun _ => (0 : Angle)) (if shape.useOnlyRisingEdges then 2 else 1)
        (shape.relativeAngle synchPointIndex 0) :=
      ⟨by split <;> omega, rfl, fun _ _ _ _ => le_refl _, fun _ _ => relativeAngle_nonneg,
        fun _ _ => rfl⟩
    refine ⟨⟨_, ?_, rfl⟩, fun _ => ?_⟩
    · simpa [prepareEventAngle] using zeros
    · simp [prepareEventAngle]
  | succ k ih =>
    obtain ⟨⟨m, filled, size⟩, paired⟩ := ih (by omega)
    have later := (relativeAngle_lt_of_lt synch (Nat.lt_succ_self k) inside).le
    rw [List.range_succ, List.foldl_append]
    generalize (List.range (k + 1)).foldl (shape.prepareEventAngle synchPointIndex) {} = table
      at filled size paired
    simp only [List.foldl_cons, List.foldl_nil, prepareEventAngle, Nat.succ_ne_zero, ↓reduceIte]
    by_cases riseOnly : shape.useOnlyRisingEdges
    · simp only [riseOnly, ↓reduceIte, forall_const] at size paired ⊢
      subst size
      split
      · refine ⟨⟨_, (filled.push later).push (le_refl _), rfl⟩, by simp [paired.1], fun j => ?_⟩
        by_cases last : 2 * j = table.riseOnlyIndex + 2
        · simp [last]
        · have even := paired.1
          dsimp only
          rw [Function.update_of_ne (by omega), Function.update_of_ne (by omega),
            Function.update_of_ne (by omega), Function.update_of_ne (by omega)]
          exact paired.2 j
      · exact ⟨⟨_, filled.weaken later, rfl⟩, paired⟩
    · simp only [riseOnly, Bool.false_eq_true, ↓reduceIte, false_implies, and_true] at size ⊢
      subst size
      exact ⟨_, filled.push later, rfl⟩

/-- The prepared table rises through the cycle; with rising edges only it is made of pairs. -/
theorem prepareEventAngles_filled (synch : synchPointIndex < shape.getSize) :
    (∃ m bound, Filled (shape.prepareEventAngles synchPointIndex) m bound ∧
      bound < getEngineCycle shape.operationMode) ∧
    (shape.useOnlyRisingEdges = true → ∀ j, shape.prepareEventAngles synchPointIndex (2 * j) =
      shape.prepareEventAngles synchPointIndex (2 * j + 1)) := by
  have rows : 0 < shape.getLength := by
    rw [shape.getLength_eq]
    exact Nat.mul_pos (getCrankDivider_pos _) (by omega)
  have table := prepareEventAngles_round (k := shape.getLength - 1) synch (by omega)
  rw [Nat.sub_add_cancel rows] at table
  obtain ⟨⟨m, filled, -⟩, paired⟩ := table
  exact ⟨⟨m, _, filled, relativeAngle_lt⟩, fun riseOnly => (paired riseOnly).2⟩

theorem prepareEventAngles_wrapped (synch : synchPointIndex < shape.getSize) (i : Nat) :
    wrapAngle (getEngineCycle shape.operationMode) (shape.prepareEventAngles synchPointIndex i) =
      shape.prepareEventAngles synchPointIndex i := by
  obtain ⟨⟨m, bound, filled, small⟩, -⟩ := prepareEventAngles_filled synch
  exact wrapAngle_of_mem ((getEngineCycle_small _).trans (by norm_num)) (filled.nonneg i)
    ((filled.le_bound i).trans_lt small)

end TriggerWaveform
end FomeFw.Trigger
