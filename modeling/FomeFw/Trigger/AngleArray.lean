import FomeFw.Lib.FixedArray
import FomeFw.Trigger.WheelTable

/-! The table of tooth angles as the array it is stored in, `TriggerFormDetails`, and the
binary search in it, `TriggerWaveform::findAngleIndex`. No result stands for an access
outside the array. -/
namespace FomeFw.Trigger
open Turning

/-- `TriggerFormDetails::eventAngles`. -/
abbrev EventAngles := FixedArray (2 * phaseMaxCount) Angle

namespace TriggerWaveform

/-- One round of the loop in `prepareEventAngles`; the number is the `riseOnlyIndex`. -/
def storeEventAngle (shape : TriggerWaveform) (synchPointIndex : Nat) (filled : EventAngles × Nat)
    (eventIndex : Nat) : Option (EventAngles × Nat) :=
  let (eventAngles, riseOnlyIndex) := filled
  if eventIndex = 0 then do
    let eventAngles ← eventAngles.store 0 0
    let eventAngles ← eventAngles.store 1 0
    some (eventAngles, riseOnlyIndex)
  else
    let wrappedIndex := (synchPointIndex + eventIndex) % shape.getLength
    let triggerDefinitionIndex := wrappedIndex % shape.getSize
    let angle := shape.relativeAngle synchPointIndex eventIndex
    if shape.useOnlyRisingEdges then
      if shape.isRiseEvent triggerDefinitionIndex then do
        let riseOnlyIndex := riseOnlyIndex + 2
        let eventAngles ← eventAngles.store riseOnlyIndex angle
        let eventAngles ← eventAngles.store (riseOnlyIndex + 1) angle
        some (eventAngles, riseOnlyIndex)
      else some (eventAngles, riseOnlyIndex)
    else do
      let eventAngles ← eventAngles.store eventIndex angle
      some (eventAngles, riseOnlyIndex)

def storeEventAngles (shape : TriggerWaveform) (synchPointIndex : Nat) : Option EventAngles := do
  let filled ← (List.range shape.getLength).foldlM (shape.storeEventAngle synchPointIndex)
    (.fill 0, 0)
  some filled.1

/-- The loop of `findAngleIndex` in `uint32_t`, with the rounds it may make. -/
def searchAngle (eventAngles : EventAngles) (targetAngle : Angle) : Nat → Nat → Nat → Option Nat
  | 0, _, _ => none
  | rounds + 1, left, right => do
    let middle := (left + right) % 2 ^ 32 / 2
    let angle ← eventAngles.load middle
    let (left, right) :=
      if angle ≤ targetAngle then ((middle + 1) % 2 ^ 32, right)
      else (left, (middle + 2 ^ 32 - 1) % 2 ^ 32)
    if left ≤ right then searchAngle eventAngles targetAngle rounds left right else some left

/-- The places that the loop reads, one after the other. -/
def searchedPlaces (eventAngles : EventAngles) (targetAngle : Angle) : Nat → Nat → Nat → List Nat
  | 0, _, _ => []
  | rounds + 1, left, right =>
    let middle := (left + right) % 2 ^ 32 / 2
    match eventAngles.load middle with
    | none => [middle]
    | some angle =>
      let (left, right) :=
        if angle ≤ targetAngle then ((middle + 1) % 2 ^ 32, right)
        else (left, (middle + 2 ^ 32 - 1) % 2 ^ 32)
      middle :: if left ≤ right then searchedPlaces eventAngles targetAngle rounds left right else []

def findAngleIndex (shape : TriggerWaveform) (eventAngles : EventAngles) (targetAngle : Angle) :
    Option Nat :=
  let engineCycleEventCount := shape.getLength
  if engineCycleEventCount ≠ 0 ∧ engineCycleEventCount ≤ 0xFFFF then do
    let left ← searchAngle eventAngles targetAngle engineCycleEventCount 0 (engineCycleEventCount - 1)
    let left := (left + 2 ^ 32 - 1) % 2 ^ 32
    let left := if shape.useOnlyRisingEdges then left / 2 * 2 else left
    some (left % 2 ^ 16)
  else some 0

variable {shape : TriggerWaveform} {synch m : Nat} {eventAngles : EventAngles} {f : Nat → Angle}

/-- The last place that preparation writes. -/
def lastPlace (shape : TriggerWaveform) (synch : Nat) : Nat :=
  if shape.useOnlyRisingEdges then 2 * marks shape.Useful (synch + 1) (synch + shape.getLength) + 1
  else max 1 (shape.getLength - 1)

theorem storeEventAngle_holds {table : AngleTable} (holds : eventAngles.Holds table.eventAngles)
    (room : if shape.useOnlyRisingEdges then
      shape.isRiseEvent ((synch + m) % shape.getLength % shape.getSize) = true →
        table.riseOnlyIndex + 3 < 2 * phaseMaxCount
      else m < 2 * phaseMaxCount) :
    ∃ a, shape.storeEventAngle synch (eventAngles, table.riseOnlyIndex) m =
        some (a, (shape.prepareEventAngle synch table m).riseOnlyIndex) ∧
      a.Holds (shape.prepareEventAngle synch table m).eventAngles := by
  have store : ∀ {a : EventAngles} {f : Nat → Angle} {i}, a.Holds f → i < 2 * phaseMaxCount →
      ∀ x, ∃ b, a.store i x = some b ∧ b.Holds (Function.update f i x) :=
    fun holds inside x => holds.store inside x
  unfold storeEventAngle prepareEventAngle
  by_cases origin : m = 0
  · obtain ⟨a, zeroth, holds⟩ := store holds (show 0 < _ by decide) 0
    obtain ⟨b, one, holds⟩ := store holds (show 1 < _ by decide) 0
    exact ⟨b, by simp [origin, zeroth, one], by simpa [origin] using holds⟩
  · simp only [if_neg origin]
    split at room
    · next riseOnly =>
      simp only [riseOnly, if_true]
      split
      · next rise =>
        have places := room rise
        obtain ⟨a, even, holds⟩ := store holds (show table.riseOnlyIndex + 2 < _ by omega)
          (shape.relativeAngle synch m)
        obtain ⟨b, odd, holds⟩ := store holds (show table.riseOnlyIndex + 2 + 1 < _ by omega)
          (shape.relativeAngle synch m)
        exact ⟨b, by simp [even, odd], holds⟩
      · exact ⟨eventAngles, rfl, holds⟩
    · next every =>
      simp only [if_neg every]
      obtain ⟨a, entry, holds⟩ := store holds room (shape.relativeAngle synch m)
      exact ⟨a, by simp [entry], holds⟩

/-- The array of the prepared angles, where it has a place for all of them. -/
theorem storeEventAngles_holds (inside : synch < shape.getSize)
    (room : shape.lastPlace synch < 2 * phaseMaxCount) :
    ∃ a, shape.storeEventAngles synch = some a ∧ a.Holds (shape.prepareEventAngles synch) := by
  have rounds : ∀ m ≤ shape.getLength, ∃ a, (List.range m).foldlM (shape.storeEventAngle synch)
      (.fill 0, 0) =
        some (a, ((List.range m).foldl (shape.prepareEventAngle synch) {}).riseOnlyIndex) ∧
      a.Holds ((List.range m).foldl (shape.prepareEventAngle synch) {}).eventAngles := by
    intro m
    induction m with
    | zero => exact fun _ => ⟨.fill 0, rfl, .fill 0⟩
    | succ m ih =>
      intro more
      obtain ⟨a, run, holds⟩ := ih (by omega)
      have wrapped : (synch + m) % shape.getLength % shape.getSize = (synch + m) % shape.getSize := by
        rw [shape.getLength_eq]
        exact Nat.mod_mod_of_dvd _ (Nat.dvd_mul_left _ _)
      have place : if shape.useOnlyRisingEdges then
          shape.isRiseEvent ((synch + m) % shape.getLength % shape.getSize) = true →
            ((List.range m).foldl (shape.prepareEventAngle synch) {}).riseOnlyIndex + 3 <
              2 * phaseMaxCount
          else m < 2 * phaseMaxCount := by
        rw [lastPlace] at room
        split at room
        · next riseOnly =>
          rw [if_pos riseOnly]
          intro rise
          cases m with
          | zero => exact (by decide : 0 + 3 < 2 * phaseMaxCount)
          | succ m =>
            have useful : shape.Useful (synch + (m + 1)) := by
              rw [useful_iff, ← wrapped]
              exact fun _ => rise
            have grows := marks_succ (p := shape.Useful) (a := synch + 1) (b := synch + (m + 1))
              (by omega)
            have few := marks_mono (p := shape.Useful) (i := synch + 1) (j := synch + (m + 1) + 1)
              (k := synch + shape.getLength) (by omega) (by omega)
            rw [if_pos useful] at grows
            rw [(prepareEventAngles_filledIn inside m).riseOnlyIndex riseOnly]
            omega
        · next every =>
          rw [if_neg every]
          omega
      obtain ⟨b, round, next⟩ := storeEventAngle_holds holds place
      refine ⟨b, ?_, by rw [List.range_succ, List.foldl_append]; exact next⟩
      rw [List.range_succ, List.foldlM_append, run, List.foldl_append]
      simpa using round
  obtain ⟨a, run, holds⟩ := rounds _ (le_refl _)
  exact ⟨a, by simp [storeEventAngles, run], holds⟩

theorem lastPlace_lt (inside : synch < shape.getSize) (room : shape.getLength ≤ phaseMaxCount) :
    shape.lastPlace synch < 2 * phaseMaxCount := by
  have rows : shape.getSize ≤ shape.getLength := by
    rw [shape.getLength_eq]
    exact Nat.le_mul_of_pos_left _ (getCrankDivider_pos _)
  have few : marks shape.Useful (synch + 1) (synch + shape.getLength) ≤ shape.getLength - 1 := by
    have all := marks_le_length (p := shape.Useful) (synch + 1) (synch + shape.getLength)
    omega
  rw [lastPlace]
  split <;> omega

/-- The search stays between its bounds, and behind the first entry. -/
theorem searchAngle_spec {origin targetAngle : Angle} (first : eventAngles.load 0 = some origin)
    (start : origin ≤ targetAngle) {rounds left right : Nat} (order : left ≤ right)
    (inside : right < 2 * phaseMaxCount)
    (enough : right - left < rounds) :
    ∃ l, searchAngle eventAngles targetAngle rounds left right = some l ∧ 0 < l ∧ l ≤ right + 1 := by
  induction rounds generalizing left right with
  | zero => omega
  | succ rounds ih =>
    have size : phaseMaxCount = 280 := rfl
    have middle : (left + right) % 2 ^ 32 / 2 = (left + right) / 2 := by
      rw [Nat.mod_eq_of_lt (by omega)]
    obtain ⟨angle, loaded⟩ := FixedArray.load_of_lt (a := eventAngles)
      (show (left + right) / 2 < 2 * phaseMaxCount by omega)
    simp only [searchAngle, middle, loaded, Option.bind_eq_bind, Option.bind_some]
    split
    · next reached =>
      rw [Nat.mod_eq_of_lt (show (left + right) / 2 + 1 < 2 ^ 32 by omega)]
      split
      · exact ih (by omega) inside (by omega)
      · exact ⟨_, rfl, by omega, by omega⟩
    · next beyond =>
      -- the entry at the start is never beyond the target
      have positive : 0 < (left + right) / 2 := by
        refine Nat.pos_of_ne_zero fun zero => ?_
        rw [zero, first] at loaded
        exact beyond (Option.some.inj loaded ▸ start)
      have lower : ((left + right) / 2 + 2 ^ 32 - 1) % 2 ^ 32 = (left + right) / 2 - 1 := by
        omega
      rw [lower]
      split
      · obtain ⟨l, found, above, below⟩ := ih (by omega) (by omega) (by omega)
        exact ⟨l, found, above, by omega⟩
      · exact ⟨_, rfl, by omega, by omega⟩

/-- Where the entries rise the search finds the first one beyond the target. -/
theorem searchAngle_first {n rounds left right : Nat} {targetAngle : Angle}
    (holds : eventAngles.Holds f) (rising : ∀ i j, i ≤ j → j < n → f i ≤ f j)
    (room : n ≤ 2 * phaseMaxCount) (start : f 0 ≤ targetAngle) (order : left ≤ right)
    (inside : right < n) (enough : right - left < rounds) (below : ∀ i < left, f i ≤ targetAngle)
    (beyond : ∀ i, right < i → i < n → targetAngle < f i) :
    ∃ l, searchAngle eventAngles targetAngle rounds left right = some l ∧ l ≤ n ∧
      (∀ i < l, f i ≤ targetAngle) ∧ ∀ i, l ≤ i → i < n → targetAngle < f i := by
  induction rounds generalizing left right with
  | zero => omega
  | succ rounds ih =>
    have size : phaseMaxCount = 280 := rfl
    have middle : (left + right) % 2 ^ 32 / 2 = (left + right) / 2 := by
      rw [Nat.mod_eq_of_lt (by omega)]
    have loaded := holds ((left + right) / 2) (by omega)
    simp only [searchAngle, middle, loaded, Option.bind_eq_bind, Option.bind_some]
    split
    · next reached =>
      have reaches : ∀ i < (left + right) / 2 + 1, f i ≤ targetAngle := by
        intro i before
        exact (rising i _ (by omega) (by omega)).trans reached
      rw [Nat.mod_eq_of_lt (show (left + right) / 2 + 1 < 2 ^ 32 by omega)]
      split
      · exact ih (by omega) inside (by omega) reaches beyond
      · next crossed =>
        refine ⟨_, rfl, by omega, reaches, ?_⟩
        intro i after within
        exact beyond i (by omega) within
    · next exceeds =>
      have positive : 0 < (left + right) / 2 := by
        refine Nat.pos_of_ne_zero fun zero => ?_
        rw [zero] at exceeds
        exact exceeds start
      have lower : ((left + right) / 2 + 2 ^ 32 - 1) % 2 ^ 32 = (left + right) / 2 - 1 := by
        omega
      have exceed : ∀ i, (left + right) / 2 - 1 < i → i < n → targetAngle < f i := by
        intro i after within
        exact (not_le.mp exceeds).trans_le (rising _ i (by omega) within)
      rw [lower]
      split
      · exact ih (by omega) (by omega) (by omega) below exceed
      · next crossed =>
        refine ⟨_, rfl, by omega, below, ?_⟩
        intro i after within
        exact exceed i (by omega) within

/-- Where the entries rise, the index that is found is not before a place the target reaches. -/
theorem findAngleIndex_reaches {targetAngle : Angle} (holds : eventAngles.Holds f)
    (rising : ∀ i j, i ≤ j → j < shape.getLength → f i ≤ f j)
    (room : shape.getLength ≤ 2 * phaseMaxCount) (inside : i < shape.getLength) (even : i % 2 = 0)
    (start : f 0 ≤ targetAngle) (reached : f i ≤ targetAngle) :
    ∃ k, shape.findAngleIndex eventAngles targetAngle = some k ∧ i ≤ k ∧ k < shape.getLength := by
  have size : phaseMaxCount = 280 := rfl
  obtain ⟨l, found, bound, -, beyond⟩ := searchAngle_first holds rising room start
    (show 0 ≤ shape.getLength - 1 by omega) (by omega)
    (show shape.getLength - 1 - 0 < shape.getLength by omega) (fun i before => by omega)
    (fun i after within => by omega)
  have after : i < l := by
    by_contra before
    exact absurd reached (not_le.mpr (beyond i (by omega) inside))
  have last : (l + 2 ^ 32 - 1) % 2 ^ 32 = l - 1 := by omega
  rw [findAngleIndex, if_pos ⟨by omega, by omega⟩, found, Option.bind_eq_bind, Option.bind_some,
    last]
  refine ⟨_, rfl, ?_⟩
  split <;> omega

/-- Prepared angles that do not fall over the engine cycle; with rising edges only they come
in pairs. -/
structure CycleAngles (shape : TriggerWaveform) (eventAngles : EventAngles) (f : Nat → Angle) :
    Prop where
  places : 0 < shape.getLength
  room : shape.getLength ≤ 2 * phaseMaxCount
  holds : eventAngles.Holds f
  origin : f 0 = 0
  rising : ∀ i j, i ≤ j → j < shape.getLength → f i ≤ f j
  paired : shape.useOnlyRisingEdges = true →
    ∀ i, 2 * i + 1 < shape.getLength → f (2 * i) = f (2 * i + 1)

namespace CycleAngles
variable {targetAngle : Angle}

/-- The loop reads no place outside its bounds. -/
theorem searchedPlaces_lt (angles : CycleAngles shape eventAngles f) (start : 0 ≤ targetAngle)
    {rounds left right : Nat} (order : left ≤ right) (inside : right < shape.getLength) :
    ∀ i ∈ searchedPlaces eventAngles targetAngle rounds left right, i < shape.getLength := by
  induction rounds generalizing left right with
  | zero => simp [searchedPlaces]
  | succ rounds ih =>
    have size : phaseMaxCount = 280 := rfl
    have room := angles.room
    have middle : (left + right) % 2 ^ 32 / 2 = (left + right) / 2 := by
      rw [Nat.mod_eq_of_lt (by omega)]
    have loaded := angles.holds ((left + right) / 2) (by omega)
    intro i read
    simp only [searchedPlaces, middle, loaded] at read
    rcases List.mem_cons.mp read with rfl | later
    · omega
    · split at later
      · next reached =>
        rw [Nat.mod_eq_of_lt (show (left + right) / 2 + 1 < 2 ^ 32 by omega)] at later
        split at later
        · exact ih (by omega) inside i later
        · cases later
      · next exceeds =>
        have positive : 0 < (left + right) / 2 := by
          refine Nat.pos_of_ne_zero fun zero => ?_
          rw [zero, angles.origin] at exceeds
          exact exceeds start
        have lower : ((left + right) / 2 + 2 ^ 32 - 1) % 2 ^ 32 = (left + right) / 2 - 1 := by
          omega
        rw [lower] at later
        split at later
        · exact ih (by omega) (by omega) i later
        · cases later

/-- From 0 on, the search ends with the last angle that the target reaches, or with the first of
its pair, and reads nothing beyond the cycle. -/
theorem findAngleIndex_greatest (angles : CycleAngles shape eventAngles f)
    (start : 0 ≤ targetAngle) :
    ∃ k, IsGreatest {i | i < shape.getLength ∧ f i ≤ targetAngle} k ∧
      shape.findAngleIndex eventAngles targetAngle =
        some (if shape.useOnlyRisingEdges then k / 2 * 2 else k) ∧
      f (if shape.useOnlyRisingEdges then k / 2 * 2 else k) = f k ∧
      ∀ i ∈ searchedPlaces eventAngles targetAngle shape.getLength 0 (shape.getLength - 1),
        i < shape.getLength := by
  have size : phaseMaxCount = 280 := rfl
  have places := angles.places
  have room := angles.room
  obtain ⟨l, found, bound, reached, beyond⟩ := searchAngle_first angles.holds angles.rising room
    (angles.origin.le.trans start) (show 0 ≤ shape.getLength - 1 by omega) (by omega)
    (show shape.getLength - 1 - 0 < shape.getLength by omega) (fun i before => by omega)
    (fun i after within => by omega)
  have behind : 0 < l := by
    refine Nat.pos_of_ne_zero fun zero => ?_
    have exceeds := beyond 0 (by omega) places
    rw [angles.origin] at exceeds
    exact absurd start (not_le.mpr exceeds)
  refine ⟨l - 1, ⟨⟨by omega, reached _ (by omega)⟩, ?_⟩, ?_, ?_, ?_⟩
  · rintro i ⟨inside, under⟩
    by_contra after
    exact absurd under (not_le.mpr (beyond i (by omega) inside))
  · have last : (l + 2 ^ 32 - 1) % 2 ^ 32 = l - 1 := by omega
    rw [findAngleIndex, if_pos ⟨by omega, by omega⟩, found, Option.bind_eq_bind,
      Option.bind_some, last]
    refine congrArg some (Nat.mod_eq_of_lt ?_)
    split <;> omega
  · split
    · next riseOnly =>
      rcases Nat.even_or_odd' (l - 1) with ⟨j, even | odd⟩
      · rw [even, Nat.mul_div_cancel_left j two_pos, Nat.mul_comm]
      · have first : (l - 1) / 2 * 2 = 2 * j := by omega
        rw [first, odd]
        exact angles.paired riseOnly j (by omega)
    · rfl
  · exact angles.searchedPlaces_lt start (by omega) (by omega)

/-- Both edges of a cam wheel, half a cycle apart. -/
theorem findAngleIndex_greatest_halfMoon :
    ∃ k, IsGreatest {i | i < halfMoon.getLength ∧ halfMoon.prepareEventAngles 0 i ≤ 359} k ∧
      halfMoon.findAngleIndex ⟨fun i => halfMoon.prepareEventAngles 0 i⟩ 359 = some k := by
  have length : halfMoon.getLength = 2 := by decide +kernel
  have angles : CycleAngles halfMoon ⟨fun i => halfMoon.prepareEventAngles 0 i⟩
      (halfMoon.prepareEventAngles 0) := by
    refine ⟨by omega, by rw [length]; decide, ?_, by decide +kernel, ?_, ?_⟩
    · intro i inside
      simp [FixedArray.load, inside]
    · have rising : ∀ j < 2, ∀ i ≤ j,
          halfMoon.prepareEventAngles 0 i ≤ halfMoon.prepareEventAngles 0 j := by decide +kernel
      intro i j order inside
      exact rising j (length ▸ inside) i order
    · intro riseOnly
      exact absurd riseOnly (by decide)
  obtain ⟨k, greatest, found, -⟩ := findAngleIndex_greatest angles (show 0 ≤ 359 by norm_num)
  have both : halfMoon.useOnlyRisingEdges = false := by decide
  exact ⟨k, greatest, by simpa [both] using found⟩

end CycleAngles

/-- Within the array the index that is found belongs to the cycle. -/
theorem findAngleIndex_lt {origin targetAngle : Angle} (first : eventAngles.load 0 = .some origin)
    (start : origin ≤ targetAngle) (some : 0 < shape.getLength)
    (room : shape.getLength ≤ phaseMaxCount) :
    ∃ i, shape.findAngleIndex eventAngles targetAngle = .some i ∧ i < shape.getLength := by
  obtain ⟨l, found, positive, bound⟩ := searchAngle_spec first start
    (show 0 ≤ shape.getLength - 1 by omega) (by omega)
    (show shape.getLength - 1 - 0 < shape.getLength by omega)
  have size : phaseMaxCount = 280 := rfl
  have last : (l + 2 ^ 32 - 1) % 2 ^ 32 = l - 1 := by omega
  rw [findAngleIndex, if_pos ⟨by omega, by omega⟩, found, Option.bind_eq_bind, Option.bind_some,
    last]
  refine ⟨_, rfl, ?_⟩
  split <;> omega

end TriggerWaveform

end FomeFw.Trigger
