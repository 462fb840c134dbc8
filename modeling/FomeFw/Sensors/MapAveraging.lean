import FomeFw.Containers.CyclicAggregates
import FomeFw.Lib.FixedArray
import FomeFw.Lib.History
import FomeFw.Lib.Ring

/-! `map_averaging.cpp`: the manifold pressure is averaged over a window for each cylinder, and the
least of the last averages is the sensor's value. -/
namespace FomeFw.Sensors

/-- `MAX_CYLINDER_COUNT`. -/
def maxCylinderCount : Nat := 12

/-- `FLT_MAX`. -/
def fltMax : ℚ := Containers.NumericLimits.max

structure MapAverager where
  isAveraging : Bool := false
  counter : Nat := 0
  sum : ℚ := 0
  cylinderNumber : Nat := 0
  value : Option ℚ := none

/-- The averager with the statics of the file and what `EngineState` keeps for it. -/
structure MapAveraging where
  averager : MapAverager := {}
  averagedMapRunningBuffer : FixedArray maxCylinderCount ℚ := .fill 0
  mapMinBufferLength : Nat := 0
  averagedMapBufIdx : Nat := 0
  mapPerCylinder : FixedArray maxCylinderCount Nat := .fill 0
  mapCylinderBalance : FixedArray maxCylinderCount ℚ := .fill 0
  mapAveragingDuration : ℚ := 0

namespace MapAverager

def start (a : MapAverager) (cylinderNumber : Nat) : MapAverager :=
  { a with counter := 0, sum := 0, isAveraging := true, cylinderNumber }

/-- With the pressure that the voltage was converted to. -/
def submit (a : MapAverager) (result : Option ℚ) : MapAverager :=
  match result with
  | some value =>
    if a.isAveraging then { a with counter := a.counter + 1, sum := a.sum + value } else a
  | none => a

end MapAverager

namespace MapAveraging

def applyMapMinBufferLength (s : MapAveraging) (length : Nat) : Option MapAveraging := do
  let mapMinBufferLength := max (min length maxCylinderCount) 1
  let averagedMapRunningBuffer ← (List.range mapMinBufferLength).foldlM
    (fun buffer i => buffer.store i fltMax) s.averagedMapRunningBuffer
  return { s with mapMinBufferLength, averagedMapRunningBuffer, averagedMapBufIdx := 0 }

/-- The loop over the running buffer, from its second cell on. -/
def minPressure (buffer : FixedArray maxCylinderCount ℚ) (length : Nat) : Option ℚ := do
  (List.range' 1 (length - 1)).foldlM
    (fun least i => do
      let pressure ← buffer.load i
      return if pressure < least then pressure else least)
    (← buffer.load 0)

section Bytes

-- What a `float` is as a `uint8_t`; the language leaves it open beyond the bounds of the type.
variable (toUint8 : ℚ → Nat)

/-- The first part of `onSample`: the average is the cylinder's own, and corrected at speed. -/
def correctSample (s : MapAveraging) (map : ℚ) (cylinderNumber : Nat)
    (rpm mapAveragingCylinderBalanceMinRpm : ℚ) : Option (FixedArray maxCylinderCount Nat × ℚ) :=
  if cylinderNumber < maxCylinderCount then do
    let mapPerCylinder ← s.mapPerCylinder.store cylinderNumber (toUint8 map)
    if rpm > mapAveragingCylinderBalanceMinRpm then
      return (mapPerCylinder, map - (← s.mapCylinderBalance.load cylinderNumber))
    else return (mapPerCylinder, map)
  else some (s.mapPerCylinder, map)

def onSample (s : MapAveraging) (map : ℚ) (cylinderNumber : Nat) (rpm mapAveragingCylinderBalanceMinRpm : ℚ) :
    Option MapAveraging := do
  let (mapPerCylinder, map) ← s.correctSample toUint8 map cylinderNumber rpm mapAveragingCylinderBalanceMinRpm
  let averagedMapRunningBuffer ← s.averagedMapRunningBuffer.store s.averagedMapBufIdx map
  let averagedMapBufIdx := (s.averagedMapBufIdx + 1) % s.mapMinBufferLength
  let value ← minPressure averagedMapRunningBuffer s.mapMinBufferLength
  return { s with
    mapPerCylinder
    averagedMapRunningBuffer
    averagedMapBufIdx
    averager := { s.averager with value := some value } }

/-- `MapAverager::stop`. -/
def stop (s : MapAveraging) (rpm mapAveragingCylinderBalanceMinRpm : ℚ) : Option MapAveraging :=
  let s := { s with averager := { s.averager with isAveraging := false } }
  if s.averager.counter > 0 then
    s.onSample toUint8 (s.averager.sum / s.averager.counter) s.averager.cylinderNumber rpm
      mapAveragingCylinderBalanceMinRpm
  else some s

def updateMapCylinderOffsets (s : MapAveraging) (cylCount : Nat) : Option MapAveraging := do
  let sum ← (List.range cylCount).foldlM (fun sum i => return sum + ((← s.mapPerCylinder.load i) : ℚ)) 0
  let avgMap := sum / cylCount
  let mapCylinderBalance ← (List.range cylCount).foldlM
    (fun balance i => do balance.store i ((← s.mapPerCylinder.load i) - avgMap)) s.mapCylinderBalance
  return { s with mapCylinderBalance }

/-- Nothing is averaged as long as there is no duration. -/
def startAveraging (s : MapAveraging) (cylinderNumber : Nat) : MapAveraging :=
  if s.mapAveragingDuration = 0 then s else { s with averager := s.averager.start cylinderNumber }

inductive Event where
  | startAveraging (cylinderNumber : Nat)
  | submitSample (result : Option ℚ)
  | endAveraging (rpm mapAveragingCylinderBalanceMinRpm : ℚ)
  | onFastCallback (cylindersCount : Nat) (mapAveragingDuration : ℚ)
  | onConfigurationChange (previousLength : Option Nat) (mapMinBufferLength : Nat)

def step (s : MapAveraging) : Event → Option MapAveraging
  | .startAveraging cylinderNumber => some (s.startAveraging cylinderNumber)
  | .submitSample result => some { s with averager := s.averager.submit result }
  | .endAveraging rpm minRpm => s.stop toUint8 rpm minRpm
  | .onFastCallback cylindersCount mapAveragingDuration =>
    (s.updateMapCylinderOffsets cylindersCount).map ({ · with mapAveragingDuration })
  | .onConfigurationChange previousLength mapMinBufferLength =>
    if previousLength = some mapMinBufferLength then some s else s.applyMapMinBufferLength mapMinBufferLength

end Bytes

/-! ## The sensor by its history -/

section Formulas

open History

variable (toUint8 : ℚ → Nat)

def durationAt : List Event → ℚ
  | [] => 0
  | .onFastCallback _ duration :: _ => duration
  | _ :: past => durationAt past

/-- The cylinder, where a window begins with the latest event. -/
def begins : List Event → Option Nat
  | .startAveraging cylinderNumber :: past => if durationAt past = 0 then none else some cylinderNumber
  | _ => none

/-- The cylinder of the last window that began, and what came since, in order. -/
def lastStart : List Event → Option (Nat × List Event)
  | [] => none
  | e :: past =>
    match begins (e :: past) with
    | some cylinderNumber => some (cylinderNumber, [])
    | none => (lastStart past).map fun (cylinderNumber, since) => (cylinderNumber, since ++ [e])

def Event.isEnd : Event → Bool
  | .endAveraging _ _ => true
  | _ => false

def Event.sample : Event → Option ℚ
  | .submitSample result => result
  | _ => none

/-- The samples of the last window that began, up to the first end behind it. -/
def window (h : List Event) : List ℚ :=
  match lastStart h with
  | some (_, since) => (since.takeWhile fun e => !e.isEnd).filterMap Event.sample
  | none => []

def windowCylinder (h : List Event) : Nat := ((lastStart h).map Prod.fst).getD 0

def average (h : List Event) : ℚ := (window h).sum / (window h).length

/-- The last average of a cylinder. -/
def cylinderMap (cylinder : Nat) : List Event → Nat
  | [] => 0
  | .endAveraging _ _ :: past =>
    if window past ≠ [] ∧ windowCylinder past = cylinder then toUint8 (average past)
    else cylinderMap cylinder past
  | _ :: past => cylinderMap cylinder past

/-- How far a cylinder was from the average of all of them in the last fast callback. -/
def balance (cylinder : Nat) : List Event → ℚ
  | [] => 0
  | .onFastCallback cylindersCount _ :: past =>
    if cylinder < cylindersCount then
      cylinderMap toUint8 cylinder past -
        ((List.range cylindersCount).map fun i => (cylinderMap toUint8 i past : ℚ)).sum / cylindersCount
    else balance cylinder past
  | _ :: past => balance cylinder past

/-- The averages since the length of the buffer was last set, the latest first. -/
def averages : List Event → List ℚ
  | [] => []
  | .endAveraging rpm minRpm :: past =>
    if window past = [] then averages past
    else if windowCylinder past < maxCylinderCount ∧ rpm > minRpm then
      (average past - balance toUint8 (windowCylinder past) past) :: averages past
    else average past :: averages past
  | .onConfigurationChange previousLength mapMinBufferLength :: past =>
    if previousLength = some mapMinBufferLength then averages past else []
  | _ :: past => averages past

def lengthAt (initial : Nat) : List Event → Nat
  | [] => max (min initial maxCylinderCount) 1
  | .onConfigurationChange previousLength mapMinBufferLength :: past =>
    if previousLength = some mapMinBufferLength then lengthAt initial past
    else max (min mapMinBufferLength maxCylinderCount) 1
  | _ :: past => lengthAt initial past

/-- What the running buffer holds, the latest first. -/
def held (initial : Nat) (h : List Event) : List ℚ :=
  (averages toUint8 h ++ List.replicate (lengthAt initial h) fltMax).take (lengthAt initial h)

/-- The least of the last averages, as it was when the last of them came. -/
def valueAt (initial : Nat) : List Event → Option ℚ
  | [] => none
  | .endAveraging rpm minRpm :: past =>
    if window past = [] then valueAt initial past
    else (held toUint8 initial (.endAveraging rpm minRpm :: past)).min?
  | _ :: past => valueAt initial past

end Formulas

section Windows

variable {e : Event} {past : List Event} {a : MapAverager}

/-- A window has begun, and not ended. -/
def running (h : List Event) : Bool := (lastStart h).any fun (_, since) => since.all fun e => !e.isEnd

theorem lastStart_begins {cylinder : Nat} (now : begins (e :: past) = some cylinder) :
    lastStart (e :: past) = some (cylinder, []) := by
  rw [lastStart, now]

theorem lastStart_continues (continues : begins (e :: past) = none) :
    lastStart (e :: past) = (lastStart past).map fun (cylinder, since) => (cylinder, since ++ [e]) := by
  rw [lastStart, continues]

theorem running_continues (continues : begins (e :: past) = none) :
    running (e :: past) = (running past && !e.isEnd) := by
  rw [running, running, lastStart_continues continues]
  cases lastStart past with
  | none => rfl
  | some started => simp

theorem takeWhile_concat {α : Type} (p : α → Bool) (l : List α) (x : α) :
    (l ++ [x]).takeWhile p = l.takeWhile p ++ if l.all p && p x then [x] else [] := by
  induction l with
  | nil => cases holds : p x <;> simp [holds]
  | cons y l ih =>
    cases holds : p y
    · simp [holds]
    · simp [holds, ih]

/-- A sample counts while the window is open. -/
theorem window_continues (continues : begins (e :: past) = none) :
    window (e :: past) = window past ++ if running past && !e.isEnd then e.sample.toList else [] := by
  rw [window, window, running, lastStart_continues continues]
  cases lastStart past with
  | none => rfl
  | some started =>
    simp only [Option.map_some, Option.any_some, takeWhile_concat, List.filterMap_append]
    congr 1
    split
    · cases sample : e.sample <;> simp [sample]
    · rfl

theorem windowCylinder_continues (continues : begins (e :: past) = none) :
    windowCylinder (e :: past) = windowCylinder past := by
  rw [windowCylinder, windowCylinder, lastStart_continues continues, Option.map_map]
  rfl

/-- The averager has counted and added up the samples of the window. -/
structure Averaging (a : MapAverager) (h : List Event) : Prop where
  isAveraging : a.isAveraging = running h
  counter : a.counter = (window h).length
  sum : a.sum = (window h).sum
  cylinderNumber : a.cylinderNumber = windowCylinder h

theorem Averaging.passed (averaging : Averaging a past) (continues : begins (e :: past) = none)
    (noEnd : e.isEnd = false) (noSample : e.sample = none) : Averaging a (e :: past) := by
  obtain ⟨isAveraging, counter, sum, cylinderNumber⟩ := averaging
  have same : window (e :: past) = window past := by simp [window_continues continues, noSample]
  refine ⟨?_, by rw [same, counter], by rw [same, sum], ?_⟩
  · rw [running_continues continues, isAveraging, noEnd, Bool.not_false, Bool.and_true]
  · rw [windowCylinder_continues continues, cylinderNumber]

theorem Averaging.started (cylinder : Nat) (spinning : durationAt past ≠ 0) :
    Averaging (a.start cylinder) (.startAveraging cylinder :: past) := by
  have now : begins (.startAveraging cylinder :: past) = some cylinder := by rw [begins, if_neg spinning]
  constructor
  · simp [MapAverager.start, running, lastStart_begins now]
  · simp [MapAverager.start, window, lastStart_begins now]
  · simp [MapAverager.start, window, lastStart_begins now]
  · simp [MapAverager.start, windowCylinder, lastStart_begins now]

theorem Averaging.submitted (averaging : Averaging a past) (result : Option ℚ) :
    Averaging (a.submit result) (.submitSample result :: past) := by
  cases result with
  | none => exact averaging.passed rfl rfl rfl
  | some value =>
    have continues : begins (.submitSample (some value) :: past) = none := rfl
    have grown := window_continues continues
    obtain ⟨isAveraging, counter, sum, cylinderNumber⟩ := averaging
    rw [← windowCylinder_continues continues] at cylinderNumber
    rw [MapAverager.submit, isAveraging]
    cases open' : running past
    · rw [open'] at grown isAveraging
      have same : window (.submitSample (some value) :: past) = window past := by simpa using grown
      rw [if_neg Bool.false_ne_true]
      refine ⟨?_, ?_, ?_, cylinderNumber⟩
      · rw [running_continues continues, open']
        exact isAveraging
      · rw [same]
        exact counter
      · rw [same]
        exact sum
    · rw [open'] at grown isAveraging
      have more : window (.submitSample (some value) :: past) = window past ++ [value] := grown
      rw [if_pos rfl]
      refine ⟨?_, ?_, ?_, cylinderNumber⟩
      · rw [running_continues continues, open']
        rfl
      · rw [more, List.length_append, ← counter]
        rfl
      · rw [more, List.sum_append, ← sum, List.sum_singleton]

theorem Averaging.ended (averaging : Averaging a past) (rpm minRpm : ℚ) :
    Averaging { a with isAveraging := false } (.endAveraging rpm minRpm :: past) := by
  have continues : begins (.endAveraging rpm minRpm :: past) = none := rfl
  have same : window (.endAveraging rpm minRpm :: past) = window past := by
    rw [window_continues continues, Event.isEnd, Bool.not_true, Bool.and_false, if_neg Bool.false_ne_true,
      List.append_nil]
  refine ⟨?_, ?_, ?_, ?_⟩
  · rw [running_continues continues, Event.isEnd, Bool.not_true, Bool.and_false]
  · exact averaging.counter.trans (congrArg _ same.symm)
  · exact averaging.sum.trans (congrArg _ same.symm)
  · rw [windowCylinder_continues continues]
    exact averaging.cylinderNumber

end Windows

section Runs

variable {toUint8 : ℚ → Nat} {initial : Nat} {s : MapAveraging} {e : Event} {past : List Event}

theorem min?_congr {l l' : List ℚ} (same : ∀ x, x ∈ l ↔ x ∈ l') : l.min? = l'.min? := by
  cases least : l'.min? with
  | none =>
    rw [List.min?_eq_none_iff] at least ⊢
    subst least
    exact List.eq_nil_iff_forall_not_mem.mpr fun x member => List.not_mem_nil ((same x).mp member)
  | some m =>
    rw [List.min?_eq_some_iff] at least ⊢
    exact ⟨(same m).mpr least.1, fun x member => least.2 x ((same x).mp member)⟩

/-- The loop over the buffer finds the least of what it holds. -/
theorem minPressure_eq {buffer : FixedArray maxCylinderCount ℚ} {cell : Nat → ℚ} (holds : buffer.Holds cell)
    {length : Nat} (positive : 0 < length) (inside : length ≤ maxCylinderCount) :
    minPressure buffer length = ((List.range length).map cell).min? := by
  obtain ⟨rest, rfl⟩ := Nat.exists_eq_add_of_le' positive
  have first := holds 0 (by omega)
  have places : ∀ i ∈ List.range' 1 rest, i < maxCylinderCount := fun i member => by
    rw [List.mem_range'_1] at member
    omega
  have looped := @FixedArray.Holds.readAll ℚ _ buffer ℚ cell
    (fun least pressure => if pressure < least then pressure else least) (cell 0) _ holds places
  have least : (fun (least : ℚ) i => if cell i < least then cell i else least) =
      fun least i => min least (cell i) := by
    funext least i
    rw [min_comm, min_def_lt]
  rw [minPressure, first, Nat.add_sub_cancel]
  refine looped.trans ?_
  rw [List.range_eq_range', List.range'_succ, List.map_cons, List.min?_cons', List.foldl_map, least]

/-- The state after a history. -/
structure Tracks (toUint8 : ℚ → Nat) (initial : Nat) (s : MapAveraging) (h : List Event) : Prop where
  averaging : Averaging s.averager h
  value : s.averager.value = valueAt toUint8 initial h
  length : s.mapMinBufferLength = lengthAt initial h
  index : s.averagedMapBufIdx = (averages toUint8 h).length % lengthAt initial h
  buffer : ∃ cell, s.averagedMapRunningBuffer.Holds cell ∧
    Ring.Recent cell (lengthAt initial h) (averages toUint8 h ++ List.replicate (lengthAt initial h) fltMax)
  mapPerCylinder : s.mapPerCylinder.Holds fun c => cylinderMap toUint8 c h
  mapCylinderBalance : s.mapCylinderBalance.Holds fun c => balance toUint8 c h
  duration : s.mapAveragingDuration = durationAt h

theorem lengthAt_bounds (initial : Nat) (h : List Event) :
    0 < lengthAt initial h ∧ lengthAt initial h ≤ maxCylinderCount := by
  have clamped (n : Nat) :
      0 < max (min n maxCylinderCount) 1 ∧ max (min n maxCylinderCount) 1 ≤ maxCylinderCount := by
    rw [maxCylinderCount]
    omega
  induction h with
  | nil => exact clamped initial
  | cons e past ih =>
    cases e with
    | onConfigurationChange previous length =>
      rw [lengthAt]
      split
      · exact ih
      · exact clamped length
    | startAveraging cylinder => exact ih
    | submitSample result => exact ih
    | endAveraging rpm minRpm => exact ih
    | onFastCallback count duration => exact ih

theorem applied_recent {buffer : FixedArray maxCylinderCount ℚ} {old : Nat → ℚ} (holds : buffer.Holds old)
    {length : Nat} (inside : length ≤ maxCylinderCount) : ∃ filled,
      (List.range length).foldlM (fun buffer i => buffer.store i fltMax) buffer = some filled ∧
      ∃ cell, filled.Holds cell ∧ Ring.Recent cell length ([] ++ List.replicate length fltMax) := by
  obtain ⟨filled, looped, after⟩ := @FixedArray.Holds.storeRange _ _ _ _ old (fun _ => fltMax) _ holds inside
    fun _ _ _ => rfl
  refine ⟨filled, looped, _, after, ?_⟩
  intro i bound turn
  rw [List.nil_append, List.length_replicate] at bound
  simp [Nat.mod_lt _ (Nat.zero_lt_of_lt bound)]

theorem step_startAveraging (tracks : Tracks toUint8 initial s past) (cylinder : Nat) :
    Tracks toUint8 initial (s.startAveraging cylinder) (.startAveraging cylinder :: past) := by
  obtain ⟨averaging, value, length, index, buffer, mapPerCylinder, mapCylinderBalance, duration⟩ := tracks
  rw [startAveraging, duration]
  by_cases still : durationAt past = 0
  · have continues : begins (.startAveraging cylinder :: past) = none := by rw [begins, if_pos still]
    rw [if_pos still]
    exact ⟨averaging.passed continues rfl rfl, value, length, index, buffer, mapPerCylinder, mapCylinderBalance,
      duration⟩
  · rw [if_neg still]
    exact ⟨.started cylinder still, value, length, index, buffer, mapPerCylinder, mapCylinderBalance, rfl⟩

theorem step_submitSample (tracks : Tracks toUint8 initial s past) (result : Option ℚ) :
    Tracks toUint8 initial { s with averager := s.averager.submit result } (.submitSample result :: past) := by
  obtain ⟨averaging, value, length, index, buffer, mapPerCylinder, mapCylinderBalance, duration⟩ := tracks
  refine ⟨averaging.submitted result, ?_, length, index, buffer, mapPerCylinder, mapCylinderBalance, duration⟩
  cases result with
  | none => exact value
  | some v =>
    rw [MapAverager.submit]
    split <;> exact value

/-- A new average takes the place of the oldest one. -/
theorem stored_average (tracks : Tracks toUint8 initial s past) (x : ℚ) : ∃ buffer least,
    s.averagedMapRunningBuffer.store s.averagedMapBufIdx x = some buffer ∧
      minPressure buffer s.mapMinBufferLength = some least ∧
      ((x :: averages toUint8 past ++ List.replicate (lengthAt initial past) fltMax).take
        (lengthAt initial past)).min? = some least ∧
      ∃ cell, buffer.Holds cell ∧ Ring.Recent cell (lengthAt initial past)
        (x :: averages toUint8 past ++ List.replicate (lengthAt initial past) fltMax) := by
  obtain ⟨positive, inside⟩ := lengthAt_bounds initial past
  obtain ⟨cell, holds, recent⟩ := tracks.buffer
  have place : s.averagedMapBufIdx < maxCylinderCount := by
    rw [tracks.index]
    exact (Nat.mod_lt _ positive).trans_le inside
  obtain ⟨buffer, stored, after⟩ := holds.store place x
  have written := @Ring.Recent.write _ _ _ _ x recent
  rw [List.length_append, List.length_replicate, Nat.add_mod_right, ← tracks.index] at written
  have full : lengthAt initial past ≤
      (x :: (averages toUint8 past ++ List.replicate (lengthAt initial past) fltMax)).length := by
    rw [List.length_cons, List.length_append, List.length_replicate]
    omega
  have same : ((List.range (lengthAt initial past)).map (Function.update cell s.averagedMapBufIdx x)).min? =
      ((x :: (averages toUint8 past ++ List.replicate (lengthAt initial past) fltMax)).take
        (lengthAt initial past)).min? := by
    refine min?_congr fun y => ?_
    rw [written.mem_take full]
    simp
  have found := minPressure_eq after positive inside
  rw [same] at found
  have some : ((x :: (averages toUint8 past ++ List.replicate (lengthAt initial past) fltMax)).take
      (lengthAt initial past)).min? ≠ none := by simp [List.min?_eq_none_iff, positive.ne']
  obtain ⟨least, isLeast⟩ := Option.ne_none_iff_exists'.mp some
  exact ⟨buffer, least, stored, by rw [tracks.length, found]; exact isLeast, isLeast, _, after, written⟩

/-- The average as it goes into the buffer. -/
def corrected (toUint8 : ℚ → Nat) (rpm minRpm : ℚ) (past : List Event) : ℚ :=
  if windowCylinder past < maxCylinderCount ∧ rpm > minRpm then
    average past - balance toUint8 (windowCylinder past) past
  else average past

theorem averages_end (some : window past ≠ []) (rpm minRpm : ℚ) :
    averages toUint8 (.endAveraging rpm minRpm :: past) =
      corrected toUint8 rpm minRpm past :: averages toUint8 past := by
  rw [averages, if_neg some, corrected]
  split <;> rfl

theorem correctSample_eq (tracks : Tracks toUint8 initial s past) (some : window past ≠ []) (rpm minRpm : ℚ) :
    ∃ mapPerCylinder, s.correctSample toUint8 (average past) (windowCylinder past) rpm minRpm =
        .some (mapPerCylinder, corrected toUint8 rpm minRpm past) ∧
      mapPerCylinder.Holds fun c => cylinderMap toUint8 c (.endAveraging rpm minRpm :: past) := by
  have maps (c : Nat) : cylinderMap toUint8 c (.endAveraging rpm minRpm :: past) =
      if windowCylinder past = c then toUint8 (average past) else cylinderMap toUint8 c past := by
    rw [cylinderMap]
    simp [some]
  rw [correctSample, corrected]
  by_cases inside : windowCylinder past < maxCylinderCount
  · obtain ⟨mapPerCylinder, stored, after⟩ := tracks.mapPerCylinder.store inside (toUint8 (average past))
    refine ⟨mapPerCylinder, ?_, fun c within => ?_⟩
    · have loaded := tracks.mapCylinderBalance (windowCylinder past) inside
      by_cases fast : rpm > minRpm
      · simp [inside, fast, stored, loaded]
      · simp [inside, fast, stored]
    · rw [after c within, Function.update_apply]
      simp only [maps, eq_comm]
  · refine ⟨s.mapPerCylinder, by simp [inside], fun c within => ?_⟩
    rw [tracks.mapPerCylinder c within]
    dsimp only
    rw [maps, if_neg fun same : windowCylinder past = c => inside (same ▸ within)]

theorem onSample_tracks (tracks : Tracks toUint8 initial s past) (some : window past ≠ []) (rpm minRpm : ℚ) :
    ∃ s', { s with averager := { s.averager with isAveraging := false } }.onSample toUint8 (average past)
        (windowCylinder past) rpm minRpm = .some s' ∧
      Tracks toUint8 initial s' (.endAveraging rpm minRpm :: past) := by
  obtain ⟨mapPerCylinder, own, maps⟩ := correctSample_eq tracks some rpm minRpm
  obtain ⟨buffer, least, stored, found, isLeast, cells⟩ :=
    stored_average tracks (corrected toUint8 rpm minRpm past)
  have newest := @averages_end toUint8 past some rpm minRpm
  let s' : MapAveraging := { s with
    mapPerCylinder
    averagedMapRunningBuffer := buffer
    averagedMapBufIdx := (s.averagedMapBufIdx + 1) % s.mapMinBufferLength
    averager := { s.averager with isAveraging := false, value := .some least } }
  refine ⟨s', ?_, ?_⟩
  · have own' : { s with averager := { s.averager with isAveraging := false } }.correctSample toUint8 (average past)
        (windowCylinder past) rpm minRpm = .some (mapPerCylinder, corrected toUint8 rpm minRpm past) := own
    rw [onSample, own']
    simp [stored, found, s']
  constructor
  case averaging =>
    have ended := tracks.averaging.ended rpm minRpm
    exact ⟨ended.isAveraging, ended.counter, ended.sum, ended.cylinderNumber⟩
  case value =>
    rw [valueAt, if_neg some, held, newest]
    exact isLeast.symm
  case length => exact tracks.length
  case index =>
    rw [newest, List.length_cons]
    change (s.averagedMapBufIdx + 1) % s.mapMinBufferLength = _ % lengthAt initial past
    rw [tracks.length, tracks.index, Nat.mod_add_mod]
  case buffer =>
    rw [newest]
    exact cells
  case mapPerCylinder => exact maps
  case mapCylinderBalance => exact tracks.mapCylinderBalance
  case duration => exact tracks.duration

theorem step_endAveraging (tracks : Tracks toUint8 initial s past) (rpm minRpm : ℚ) :
    ∃ s', s.stop toUint8 rpm minRpm = some s' ∧
      Tracks toUint8 initial s' (.endAveraging rpm minRpm :: past) := by
  have stopped : s.stop toUint8 rpm minRpm = if (window past).length > 0 then
      { s with averager := { s.averager with isAveraging := false } }.onSample toUint8 (average past)
        (windowCylinder past) rpm minRpm
      else some { s with averager := { s.averager with isAveraging := false } } := by
    rw [average, ← tracks.averaging.counter, ← tracks.averaging.sum, ← tracks.averaging.cylinderNumber]
    rfl
  rw [stopped]
  by_cases none : window past = []
  · have averagesNow : averages toUint8 (.endAveraging rpm minRpm :: past) = averages toUint8 past := by
      rw [averages, if_pos none]
    have maps (c : Nat) :
        cylinderMap toUint8 c (.endAveraging rpm minRpm :: past) = cylinderMap toUint8 c past := by
      rw [cylinderMap, if_neg fun both => both.1 none]
    refine ⟨_, if_neg (by simp [none]), tracks.averaging.ended rpm minRpm, ?_, tracks.length, ?_, ?_, ?_,
      tracks.mapCylinderBalance, tracks.duration⟩
    · rw [valueAt, if_pos none]
      exact tracks.value
    · rw [averagesNow]
      exact tracks.index
    · rw [averagesNow]
      exact tracks.buffer
    · simp only [maps]
      exact tracks.mapPerCylinder
  · obtain ⟨s', sampled, after⟩ := onSample_tracks tracks none rpm minRpm
    exact ⟨s', (if_pos (List.length_pos_of_ne_nil none)).trans sampled, after⟩

theorem step_onFastCallback (tracks : Tracks toUint8 initial s past) {cylindersCount : Nat}
    (fits : cylindersCount ≤ maxCylinderCount) (duration : ℚ) :
    ∃ s', s.step toUint8 (.onFastCallback cylindersCount duration) = some s' ∧
      Tracks toUint8 initial s' (.onFastCallback cylindersCount duration :: past) := by
  have places : ∀ i ∈ List.range cylindersCount, i < maxCylinderCount := fun i member =>
    (List.mem_range.mp member).trans_le fits
  have summed := @FixedArray.Holds.readAll _ _ _ _ _ (fun (sum : ℚ) (map : Nat) => sum + map) 0 _
    tracks.mapPerCylinder places
  let avgMap : ℚ :=
    ((List.range cylindersCount).map fun i => (cylinderMap toUint8 i past : ℚ)).sum / cylindersCount
  obtain ⟨mapCylinderBalance, looped, after⟩ := @FixedArray.Holds.storeRange _ _ _ _ _
    (fun i => cylinderMap toUint8 i past - avgMap)
    (fun balance i => do balance.store i ((← s.mapPerCylinder.load i) - avgMap)) tracks.mapCylinderBalance fits
    fun balance i within => by rw [tracks.mapPerCylinder i within]; rfl
  have average : ((List.range cylindersCount).foldl (fun (sum : ℚ) i => sum + cylinderMap toUint8 i past) 0) /
      cylindersCount = avgMap := by
    rw [← List.foldl_map, ← List.sum_eq_foldl]
  refine ⟨{ s with mapCylinderBalance, mapAveragingDuration := duration }, ?_, ?_⟩
  · rw [step, updateMapCylinderOffsets, summed, Option.bind_eq_bind, Option.bind_some]
    dsimp only
    rw [average, looped]
    rfl
  · refine ⟨tracks.averaging.passed rfl rfl rfl, tracks.value, tracks.length, tracks.index, tracks.buffer,
      tracks.mapPerCylinder, fun c within => ?_, rfl⟩
    rw [after c within]
    rfl

theorem step_onConfigurationChange (tracks : Tracks toUint8 initial s past) (previous : Option Nat)
    (length : Nat) : ∃ s', s.step toUint8 (.onConfigurationChange previous length) = some s' ∧
      Tracks toUint8 initial s' (.onConfigurationChange previous length :: past) := by
  rw [step]
  by_cases same : previous = some length
  · have averagesNow :
        averages toUint8 (.onConfigurationChange previous length :: past) = averages toUint8 past := by
      rw [averages, if_pos same]
    have lengthNow :
        lengthAt initial (.onConfigurationChange previous length :: past) = lengthAt initial past := by
      rw [lengthAt, if_pos same]
    refine ⟨s, if_pos same, tracks.averaging.passed rfl rfl rfl, tracks.value, ?_, ?_, ?_,
      tracks.mapPerCylinder, tracks.mapCylinderBalance, tracks.duration⟩
    · rw [lengthNow]
      exact tracks.length
    · rw [averagesNow, lengthNow]
      exact tracks.index
    · rw [averagesNow, lengthNow]
      exact tracks.buffer
  · have averagesNow : averages toUint8 (.onConfigurationChange previous length :: past) = [] := by
      rw [averages, if_neg same]
    have lengthNow : lengthAt initial (.onConfigurationChange previous length :: past) =
        max (min length maxCylinderCount) 1 := by
      rw [lengthAt, if_neg same]
    obtain ⟨cell, holds, -⟩ := tracks.buffer
    obtain ⟨filled, looped, cells⟩ := @applied_recent _ cell holds (max (min length maxCylinderCount) 1)
      (by rw [maxCylinderCount]; omega)
    rw [if_neg same, applyMapMinBufferLength, looped]
    refine ⟨_, rfl, tracks.averaging.passed rfl rfl rfl, tracks.value, lengthNow.symm, ?_, ?_,
      tracks.mapPerCylinder, tracks.mapCylinderBalance, tracks.duration⟩
    · rw [averagesNow]
      exact (Nat.zero_mod _).symm
    · rw [averagesNow, lengthNow]
      exact cells

/-- The number of cylinders is checked with the configuration. -/
def Event.Valid : Event → Prop
  | .onFastCallback cylindersCount _ => cylindersCount ≤ maxCylinderCount
  | _ => True

theorem step_tracks (tracks : Tracks toUint8 initial s past) (valid : e.Valid) :
    ∃ s', s.step toUint8 e = some s' ∧ Tracks toUint8 initial s' (e :: past) := by
  cases e with
  | startAveraging cylinder => exact ⟨_, rfl, step_startAveraging tracks cylinder⟩
  | submitSample result => exact ⟨_, rfl, step_submitSample tracks result⟩
  | endAveraging rpm minRpm => exact step_endAveraging tracks rpm minRpm
  | onFastCallback cylindersCount duration => exact step_onFastCallback tracks valid duration
  | onConfigurationChange previous length => exact step_onConfigurationChange tracks previous length

theorem run_tracks (tracks : Tracks toUint8 initial s past) {events : List Event}
    (valid : ∀ e ∈ events, e.Valid) :
    ∃ s', Machine.run (step toUint8) s events = some s' ∧
      Tracks toUint8 initial s' (events.reverse ++ past) := by
  induction events generalizing s past with
  | nil => exact ⟨s, rfl, tracks⟩
  | cons e events ih =>
    obtain ⟨s₁, stepped, after⟩ := step_tracks tracks (valid e List.mem_cons_self)
    obtain ⟨s', ran, last⟩ := ih after fun e' member => valid e' (List.mem_cons_of_mem e member)
    refine ⟨s', ?_, ?_⟩
    · rw [Machine.run_cons, stepped]
      exact ran
    · rw [List.reverse_cons, List.append_assoc]
      exact last

theorem initMapAveraging_tracks (toUint8 : ℚ → Nat) (initial : Nat) :
    ∃ s, ({} : MapAveraging).applyMapMinBufferLength initial = some s ∧ Tracks toUint8 initial s [] := by
  obtain ⟨filled, looped, cells⟩ := @applied_recent (.fill 0) (fun _ => 0) (FixedArray.Holds.fill 0)
    (max (min initial maxCylinderCount) 1) (by rw [maxCylinderCount]; omega)
  rw [applyMapMinBufferLength]
  dsimp only
  rw [looped]
  exact ⟨_, rfl, ⟨rfl, rfl, rfl, rfl⟩, rfl, rfl, (Nat.zero_mod _).symm, cells, FixedArray.Holds.fill 0,
    FixedArray.Holds.fill 0, rfl⟩

/-- In any order of starts, samples, ends, fast callbacks and configuration changes no place outside of
an array is touched. The value is the least of the last averages; each is the mean of the samples between
a start and the first end behind it, less what its cylinder was off in the last fast callback. -/
theorem value_leastAverage (toUint8 : ℚ → Nat) (initial : Nat) {events : List Event}
    (valid : ∀ e ∈ events, e.Valid) : ∃ s,
      (({} : MapAveraging).applyMapMinBufferLength initial).bind (Machine.run (step toUint8) · events) = some s ∧
        s.averager.value = valueAt toUint8 initial events.reverse := by
  obtain ⟨s, initialized, tracks⟩ := initMapAveraging_tracks toUint8 initial
  obtain ⟨s', ran, last⟩ := run_tracks tracks valid
  rw [List.append_nil] at last
  exact ⟨s', by rw [initialized]; exact ran, last.value⟩

/-- Two cylinders, with a window that the next one cuts off, and an end that comes twice. -/
def cutOff : List Event :=
  [.onFastCallback 2 30, .startAveraging 0, .submitSample (some 40), .submitSample (some 60),
    .submitSample none, .endAveraging 3000 1000, .submitSample (some 99), .startAveraging 1, .submitSample (some 90),
    .startAveraging 0, .submitSample (some 70), .endAveraging 3000 1000, .endAveraging 3000 1000]

theorem value_leastAverage_cutOff : ∃ s,
    (({} : MapAveraging).applyMapMinBufferLength 2).bind
        (Machine.run (step fun map => ⌊map⌋.toNat) · cutOff) = some s ∧
      s.averager.value = some 70 := by
  have valid : ∀ e ∈ cutOff, e.Valid := by simp [cutOff, Event.Valid, maxCylinderCount]
  obtain ⟨s, ran, value⟩ := value_leastAverage (fun map => ⌊map⌋.toNat) 2 valid
  exact ⟨s, ran, value.trans (by decide +kernel)⟩

end Runs

end MapAveraging

end FomeFw.Sensors
