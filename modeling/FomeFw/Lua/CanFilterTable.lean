import FomeFw.Lib.Machine
import FomeFw.Lua.CanCallbacks
import Mathlib.Data.List.Basic

/-! The table behind the filters of the user's script, `can_filter.cpp`, as it lies in memory:
`firmwareError` returns, and what follows it is done all the same. -/
namespace FomeFw.Lua
open Machine

/-- The static variables. What lies outside `[0, maxFilterCount)` of the array is memory of
somebody else. -/
structure CanFilterTable where
  filterCount : Nat := 0
  filters : Nat → CanFilter
  /-- The indices that were written; no function reads them. -/
  written : List Nat := []
  firmwareErrors : List String := []

namespace CanFilterTable

/-- The loop with its return. -/
def getFilterForId (t : CanFilterTable) (busIndex : CanBusIndex) (id : BitVec 32) : Option CanFilter :=
  (List.range t.filterCount).findSome? fun i =>
    let filter := t.filters i
    if filter.accept id then
      if filter.Bus = .any || filter.Bus = busIndex then some filter else none
    else none

def resetLuaCanRx (t : CanFilterTable) : CanFilterTable := { t with filterCount := 0 }

def addLuaCanRxFilter (t : CanFilterTable) (eid mask : BitVec 32) (bus : CanBusIndex)
    (callback : Int) : CanFilterTable :=
  let t :=
    if t.filterCount ≥ maxFilterCount then
      { t with firmwareErrors := t.firmwareErrors ++ ["Too many Lua CAN RX filters"] }
    else t
  { t with
    filters := Function.update t.filters t.filterCount ⟨eid, mask, bus, callback⟩
    written := t.written ++ [t.filterCount]
    filterCount := t.filterCount + 1 }

variable (t : CanFilterTable) (eid mask : BitVec 32) (bus : CanBusIndex) (callback : Int)

@[simp] theorem addLuaCanRxFilter_filterCount :
    (t.addLuaCanRxFilter eid mask bus callback).filterCount = t.filterCount + 1 := by
  simp only [addLuaCanRxFilter]
  split <;> rfl

@[simp] theorem addLuaCanRxFilter_filters :
    (t.addLuaCanRxFilter eid mask bus callback).filters =
      Function.update t.filters t.filterCount ⟨eid, mask, bus, callback⟩ := by
  simp only [addLuaCanRxFilter]
  split <;> rfl

@[simp] theorem addLuaCanRxFilter_written :
    (t.addLuaCanRxFilter eid mask bus callback).written = t.written ++ [t.filterCount] := by
  simp only [addLuaCanRxFilter]
  split <;> rfl

/-- The entries in use. -/
def live : List CanFilter := (List.range t.filterCount).map t.filters

theorem live_addLuaCanRxFilter :
    (t.addLuaCanRxFilter eid mask bus callback).live = t.live ++ [⟨eid, mask, bus, callback⟩] := by
  simp only [live, addLuaCanRxFilter_filterCount, addLuaCanRxFilter_filters, List.range_succ,
    List.map_append, List.map_singleton, Function.update_self]
  congr 1
  apply List.map_congr_left
  intro i before
  have other : i ≠ t.filterCount := (List.mem_range.mp before).ne
  exact Function.update_of_ne other _ _

end CanFilterTable

/-- The filter that a frame is for: the earliest one of the live ones that accept it, or none. -/
def IsEarliest (live : List CanFilter) (bus : CanBusIndex) (id : BitVec 32) :
    Option CanFilter → Prop
  | some filter => filter.Accepts bus id ∧
      ∃ before after, live = before ++ filter :: after ∧ ∀ other ∈ before, ¬ other.Accepts bus id
  | none => ∀ other ∈ live, ¬ other.Accepts bus id

theorem find?_isEarliest (live : List CanFilter) (bus : CanBusIndex) (id : BitVec 32) :
    IsEarliest live bus id (live.find? fun filter => filter.Accepts bus id) := by
  cases found : live.find? fun filter => filter.Accepts bus id with
  | none =>
    intro other member
    simpa using List.find?_eq_none.mp found other member
  | some filter =>
    obtain ⟨accepts, before, after, split, passed⟩ := List.find?_eq_some_iff_append.mp found
    refine ⟨by simpa using accepts, before, after, split, ?_⟩
    intro other member
    simpa using passed other member

theorem CanFilterTable.getFilterForId_live (t : CanFilterTable) (bus : CanBusIndex)
    (id : BitVec 32) :
    t.getFilterForId bus id = t.live.find? fun filter => filter.Accepts bus id := by
  rw [live, ← List.findSome?_guard, List.findSome?_map, getFilterForId]
  congr 1
  funext i
  simp only [Function.comp_apply, Option.guard, CanFilter.Accepts]
  split
  · next accepts => simp [accepts]
  · next refuses => simp [refuses]

/-! ## Runs of the table -/

inductive FilterCall where
  | addLuaCanRxFilter (eid mask : BitVec 32) (bus : CanBusIndex) (callback : Int)
  | resetLuaCanRx

/-- The table, with the filters that were added since the last reset. -/
structure FilterHistory where
  table : CanFilterTable
  added : List CanFilter := []

namespace FilterHistory

def call (h : FilterHistory) : FilterCall → FilterHistory
  | .addLuaCanRxFilter eid mask bus callback =>
    { table := h.table.addLuaCanRxFilter eid mask bus callback
      added := h.added ++ [⟨eid, mask, bus, callback⟩] }
  | .resetLuaCanRx => { table := h.table.resetLuaCanRx }

/-- The table stays in its array, and a frame finds the earliest filter that accepts it. -/
structure InBounds (h : FilterHistory) : Prop where
  filterCount_le : h.table.filterCount ≤ maxFilterCount
  inTable : ∀ i ∈ h.table.written, i < maxFilterCount
  finds : ∀ bus id, IsEarliest h.added bus id (h.table.getFilterForId bus id)

/-- A filter is added only where there is room. -/
def Room (h : FilterHistory) : FilterCall → Prop
  | .addLuaCanRxFilter .. => h.table.filterCount < maxFilterCount
  | .resetLuaCanRx => True

structure Kept (h : FilterHistory) : Prop where
  live : h.table.live = h.added
  filterCount_le : h.table.filterCount ≤ maxFilterCount
  inTable : ∀ i ∈ h.table.written, i < maxFilterCount

variable {h : FilterHistory} {c : FilterCall}

theorem Kept.inBounds (kept : Kept h) : InBounds h where
  filterCount_le := kept.filterCount_le
  inTable := kept.inTable
  finds := by
    intro bus id
    rw [h.table.getFilterForId_live, kept.live]
    exact find?_isEarliest h.added bus id

theorem Kept.call (room : Room h c) (kept : Kept h) : Kept (h.call c) := by
  cases c with
  | addLuaCanRxFilter eid mask bus callback =>
    have below : h.table.filterCount < maxFilterCount := room
    constructor
    · simp only [FilterHistory.call, h.table.live_addLuaCanRxFilter, kept.live]
    · simp only [FilterHistory.call, h.table.addLuaCanRxFilter_filterCount]
      exact below
    · intro i member
      simp only [FilterHistory.call, h.table.addLuaCanRxFilter_written, List.mem_append,
        List.mem_singleton] at member
      rcases member with earlier | rfl
      · exact kept.inTable i earlier
      · exact below
  | resetLuaCanRx =>
    constructor
    · rfl
    · exact Nat.zero_le _
    · exact kept.inTable

theorem room_of_inBounds (inBounds : InBounds (h.call c)) : Room h c := by
  cases c with
  | addLuaCanRxFilter eid mask bus callback =>
    have count := inBounds.filterCount_le
    rwa [FilterHistory.call, h.table.addLuaCanRxFilter_filterCount] at count
  | resetLuaCanRx => trivial

/-- A script's calls stay in the table, and find their filters, when each filter is added
with fewer than `maxFilterCount` ones in use, and only then. -/
theorem inBounds_iff (filters : Nat → CanFilter) (calls : List FilterCall) :
    Always FilterHistory.call InBounds { table := { filters := filters } } calls ↔
      Guarded FilterHistory.call Room { table := { filters := filters } } calls := by
  have start : Kept { table := { filters := filters } } := by
    constructor
    · rfl
    · exact Nat.zero_le _
    · intro i member
      cases member
  exact always_iff_guarded (fun _ kept => kept.inBounds) (fun _ _ _ inBounds => room_of_inBounds inBounds)
    (fun _ _ room kept => kept.call room) start

/-- No call is refused. -/
theorem filterCount_adds (h : FilterHistory) (n : Nat) :
    ((List.replicate n (.addLuaCanRxFilter eid mask bus callback)).foldl call h).table.filterCount =
      h.table.filterCount + n := by
  induction n generalizing h with
  | zero => rfl
  | succ n ih =>
    rw [List.replicate_succ, List.foldl_cons, ih]
    simp only [FilterHistory.call, h.table.addLuaCanRxFilter_filterCount]
    omega

/-- `canRxAdd` 49 times: the last filter is written behind the table. -/
theorem outOfBounds_49 :
    ¬ Always FilterHistory.call InBounds { table := { filters := fun _ => ⟨0, 0, .any, noCallback⟩ } }
      (List.replicate 49 (.addLuaCanRxFilter 0x100 filterSpecific .any noCallback)) := by
  intro always
  have count := always.final.filterCount_le
  rw [filterCount_adds] at count
  exact absurd count (by decide)

end FilterHistory

end FomeFw.Lua
