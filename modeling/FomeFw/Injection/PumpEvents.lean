import FomeFw.Injection.HighPressureFuelPump
import FomeFw.Lib.Machine
import FomeFw.Timer.TriggerSchedulerProofs
import Mathlib.Data.List.Perm.Subperm
import Mathlib.Data.Rat.Floor

/-! The chain of events of the high-pressure pump: while it runs, one event is pending, by angle
or by time. The index of the lobe finds its way back below the number of the lobes, unless there
is one lobe left. -/
namespace FomeFw.Injection
open Timer Trigger Chain Machine

local instance someLobes : NeZero 256 := ⟨by decide⟩

/-- What the events of the pump do. -/
def IsPump (action : Action) : Prop := action = pinTurnOnAction ∨ action = pinTurnOffAction

/-! ## The index of the lobe -/

namespace HpfpController

variable {c c' : HpfpController} {s : HpfpSettings} {port : Port} {r : HpfpReadings}
  {requests : List Request}

/-- So many calls of `findNextLobe`. -/
def findLobes (c : HpfpController) (s : HpfpSettings) (r : HpfpReadings) (calls : Nat) :
    HpfpController :=
  (fun c => (c.findNextLobe s r).2)^[calls] c

/-- The index is below the number of the lobes after finitely many calls. -/
def LobeReached (c : HpfpController) (s : HpfpSettings) : Prop :=
  s.hpfpCamLobes ≠ 0 →
    ∀ r, ∃ calls, (c.findLobes s r calls).lobeIndex < s.hpfpCamLobes

theorem findNextLobe_lobeIndex (lobes : s.hpfpCamLobes ≠ 0) :
    ((c.findNextLobe s r).2.lobeIndex : Nat) = nextLobe s.hpfpCamLobes c.lobeIndex := by
  have some : s.hpfpCamLobes.val ≠ 0 := fun zero => lobes (Fin.ext zero)
  have small := c.lobeIndex.isLt
  have few := s.hpfpCamLobes.isLt
  have byte : nextLobe s.hpfpCamLobes c.lobeIndex < 256 := by
    simp only [nextLobe]
    split <;> omega
  simp only [findNextLobe, if_neg some]
  exact Nat.mod_eq_of_lt byte

theorem findLobes_succ (calls : Nat) :
    c.findLobes s r (calls + 1) = (c.findNextLobe s r).2.findLobes s r calls :=
  Function.iterate_succ_apply _ _ _

/-- With a single lobe the index stays where it is. -/
theorem findLobes_single (single : s.hpfpCamLobes = 1) (some : c.lobeIndex ≠ 0) (calls : Nat) :
    (c.findLobes s r calls).lobeIndex = c.lobeIndex := by
  induction calls generalizing c with
  | zero => rfl
  | succ calls ih =>
    have stays : (c.findNextLobe s r).2.lobeIndex = c.lobeIndex := by
      apply Fin.ext
      rw [findNextLobe_lobeIndex (by rw [single]; decide), single, nextLobe]
      exact if_pos (Nat.le_add_left _ _)
    rw [findLobes_succ, ih (stays ▸ some), stays]

/-- With more lobes it comes down as long as it is not below their number. -/
theorem findLobes_reaches (several : 2 ≤ s.hpfpCamLobes.val) (r : HpfpReadings) :
    ∃ calls, (c.findLobes s r calls).lobeIndex < s.hpfpCamLobes := by
  obtain ⟨index, bound⟩ : ∃ index, c.lobeIndex.val = index := ⟨_, rfl⟩
  induction index using Nat.strong_induction_on generalizing c with
  | h index ih =>
    rcases Nat.lt_or_ge index s.hpfpCamLobes with below | beyond
    · exact ⟨0, by simpa [findLobes, Fin.lt_def, bound] using below⟩
    · have next : ((c.findNextLobe s r).2.lobeIndex : Nat) = index + 1 - s.hpfpCamLobes := by
        rw [findNextLobe_lobeIndex (by rintro zero; rw [zero] at several; contradiction), bound]
        exact if_pos (by omega)
      obtain ⟨calls, reached⟩ := ih _ (by omega) next
      exact ⟨calls + 1, by rwa [findLobes_succ]⟩

theorem lobeReached_iff : c.LobeReached s ↔ (s.hpfpCamLobes = 1 → c.lobeIndex = 0) := by
  constructor
  · intro reached single
    by_contra some
    obtain ⟨calls, below⟩ := reached (by rw [single]; decide) ⟨0, 0, 0, 0, fun _ _ => 0, 0, 0⟩
    rw [findLobes_single single some, single] at below
    have positive := Fin.pos_iff_ne_zero.mpr some
    have least := Fin.lt_def.mp below
    have one := Fin.lt_def.mp positive
    exact absurd one (Nat.not_lt.mpr (Nat.le_of_lt_succ least))
  · intro single some r
    by_cases one : s.hpfpCamLobes = 1
    · exact ⟨0, by rw [findLobes, Function.iterate_zero_apply, single one, one]; decide⟩
    · refine findLobes_reaches ?_ r
      have notZero : s.hpfpCamLobes.val ≠ 0 := fun zero => some (Fin.ext zero)
      have notOne : s.hpfpCamLobes.val ≠ 1 := fun same => one (Fin.ext same)
      omega

/-! ## The chain -/

/-- Where the event of the pump is, on the angle queue or on its record, and what it does there.
The valve may be on while it is to be switched off. -/
inductive Link (c : HpfpController) : Bool → Prop where
  | idle (stopped : c.running = false) (free : c.scheduling.action = none)
    (off : c.hpfpValve = false) : Link c false
  | byAngle (running : c.running = true) (free : c.scheduling.action = none)
    (off : c.hpfpValve = false) : Link c true
  | opens (running : c.running = true) (pending : c.scheduling.action = some pinTurnOnAction)
    (off : c.hpfpValve = false) : Link c false
  | closes (running : c.running = true) (pending : c.scheduling.action = some pinTurnOffAction) :
    Link c false

/-- With a single lobe it is the one that the index has. -/
structure InChain (s : HpfpSettings) (c : HpfpController) (queued : Bool) : Prop where
  link : Link c queued
  lobe : s.hpfpCamLobes = 1 → c.lobeIndex = 0

/-- A request for the event of the pump. -/
structure OfPump (request : Request) : Prop where
  event : request.event = hpfpEvent
  action : IsPump request.action

/-- What code of the pump leads to, from the event queued or not: it stays there, or it is
requested once while it is not queued. -/
inductive Asks (s : HpfpSettings) (queued : Bool) (c : HpfpController) : List Request → Prop where
  | nothing (going : InChain s c queued) : Asks s queued c []
  | once {request : Request} (away : queued = false) (ofPump : OfPump request)
    (going : InChain s c true) : Asks s queued c [request]

variable {queued : Bool}

theorem findNextLobe_frame (c : HpfpController) (s : HpfpSettings) (r : HpfpReadings) :
    ∃ lobeIndex, (c.findNextLobe s r).2 = { c with lobeIndex } ∧
      ((s.hpfpCamLobes = 1 → c.lobeIndex = 0) → s.hpfpCamLobes = 1 → lobeIndex = 0) := by
  simp only [findNextLobe]
  split
  · exact ⟨c.lobeIndex, rfl, id⟩
  · refine ⟨_, rfl, fun lobe single => ?_⟩
    rw [lobe single, single]
    decide

theorem scheduleNextCycle_asks (running : c.running = true) (free : c.scheduling.action = none)
    (off : c.hpfpValve = false) (lobe : s.hpfpCamLobes = 1 → c.lobeIndex = 0) :
    Asks s false (c.scheduleNextCycle s r).1 (c.scheduleNextCycle s r).2 := by
  simp only [scheduleNextCycle]
  split
  · exact .nothing ⟨.idle rfl free off, lobe⟩
  · obtain ⟨lobeIndex, found, lobe'⟩ :=
      findNextLobe_frame { c with noValve := !s.isInitialized } s r
    rw [found]
    split
    · exact .once rfl ⟨rfl, .inl rfl⟩ ⟨.byAngle running free off, lobe' lobe⟩
    · exact .once rfl ⟨rfl, .inr rfl⟩ ⟨.byAngle running free off, lobe' lobe⟩

/-- Only what it depends on has to stay. -/
theorem InChain.congr (going : InChain s c queued) (running : c'.running = c.running)
    (pending : c'.scheduling.action = c.scheduling.action) (valve : c'.hpfpValve = c.hpfpValve)
    (lobeIndex : c'.lobeIndex = c.lobeIndex) : InChain s c' queued where
  link := by
    cases going.link with
    | idle stopped free off =>
      exact .idle (running.trans stopped) (pending.trans free) (valve.trans off)
    | byAngle runs free off =>
      exact .byAngle (running.trans runs) (pending.trans free) (valve.trans off)
    | opens runs waits off =>
      exact .opens (running.trans runs) (pending.trans waits) (valve.trans off)
    | closes runs waits => exact .closes (running.trans runs) (pending.trans waits)
  lobe single := lobeIndex.trans (going.lobe single)

/-- A stopped pump is started, and a running one left to its events. -/
theorem onFastCallback_asks (going : InChain s c queued) :
    Asks s queued (c.onFastCallback s r).1 (c.onFastCallback s r).2 := by
  simp only [onFastCallback]
  split
  · exact .nothing (going.congr rfl rfl rfl rfl)
  split
  · exact .nothing (going.congr rfl rfl rfl rfl)
  split
  · next stopped =>
    have stopped : c.running = false := by simpa using stopped
    obtain ⟨link, lobe⟩ := going
    cases link with
    | idle _ free off => exact scheduleNextCycle_asks rfl free off lobe
    | byAngle runs _ _ => rw [runs] at stopped; contradiction
    | opens runs _ _ => rw [runs] at stopped; contradiction
    | closes runs _ => rw [runs] at stopped; contradiction
  · exact .nothing (going.congr rfl rfl rfl rfl)

/-- Each callback leads on to the next. -/
theorem execute_asks (going : InChain s c queued) :
    Asks s queued (c.execute s port r).1 (c.execute s port r).2 := by
  obtain ⟨link, lobe⟩ := going
  cases link with
  | idle stopped free off =>
    simp only [execute, free]
    exact .nothing ⟨.idle stopped free off, lobe⟩
  | byAngle running free off =>
    simp only [execute, free]
    exact .nothing ⟨.byAngle running free off, lobe⟩
  | opens running pending off =>
    simp only [execute, pending, if_pos]
    exact .nothing ⟨.closes running rfl, lobe⟩
  | closes running pending =>
    have other : pinTurnOffAction ≠ pinTurnOnAction := by decide
    simp only [execute, pending, if_neg other, if_pos, pinTurnOff]
    exact scheduleNextCycle_asks running rfl rfl lobe

theorem executeEach_asks (going : InChain s c queued) (readings : List HpfpReadings) :
    Asks s queued (c.executeEach s port readings).1 (c.executeEach s port readings).2 := by
  induction readings generalizing c queued with
  | nil => exact .nothing going
  | cons r readings ih =>
    have first := @execute_asks c s port r queued going
    simp only [executeEach]
    generalize c.execute s port r = outcome at first ⊢
    obtain ⟨c₁, requests⟩ := outcome
    cases first with
    | nothing going => exact ih going
    | once away ofPump going =>
      -- On the queue the event is out of reach.
      have rest := ih going
      generalize executeEach s port c₁ readings = outcome at rest ⊢
      obtain ⟨c', later⟩ := outcome
      cases rest with
      | nothing going => exact .once away ofPump going
      | once away _ _ => contradiction

/-- At a hand-over of its event the pump has its record free. -/
theorem serve_asks {h : HandOver} (going : InChain s c queued)
    (own : h.event = hpfpEvent → queued = true ∧ IsPump h.action) (oneDegreeUs : ℚ)
    (readings : List HpfpReadings) :
    Asks s (queued && h.event ≠ hpfpEvent) (c.serve s port h oneDegreeUs readings).1
      (c.serve s port h oneDegreeUs readings).2 := by
  simp only [serve]
  apply executeEach_asks
  by_cases same : h.event = hpfpEvent
  · obtain ⟨rfl, action⟩ := own same
    simp only [same, if_pos, EventRecord.schedule, EventRecord.cancel, Option.isSome_none,
      Bool.false_eq_true, if_false, ne_eq, not_true_eq_false, decide_false, Bool.and_false]
    obtain ⟨link, lobe⟩ := going
    cases link with
    | byAngle running free off =>
      rcases action with on | off'
      · exact ⟨.opens running (congrArg some on) off, lobe⟩
      · exact ⟨.closes running (congrArg some off'), lobe⟩
  · simpa [same] using going

/-- What a whole window leads to: the requests at each hand-over are empty but for at most one,
and none before the event itself is handed over. -/
inductive AsksOnce (s : HpfpSettings) (queued : Bool) (c : HpfpController) (events : List Nat)
    (requests : List (List Request)) : Prop where
  | nothing (none : ∀ n, requests.getD n [] = [])
    (going : InChain s c (queued && hpfpEvent ∉ events))
  | once {i : Nat} {request : Request} (inside : i < events.length)
    (asked : requests.getD i [] = [request])
    (others : ∀ n ≠ i, requests.getD n [] = []) (ofPump : OfPump request)
    (after : queued = true → hpfpEvent ∈ events.take (i + 1)) (going : InChain s c true)

theorem serveAll_asks (hs : List HandOver) (going : InChain s c queued)
    (distinct : (hs.map HandOver.event).Nodup)
    (own : ∀ h ∈ hs, h.event = hpfpEvent → queued = true ∧ IsPump h.action) (oneDegreeUs : ℚ)
    (readings : Nat → List HpfpReadings) (n : Nat) :
    AsksOnce s queued (c.serveAll s port oneDegreeUs readings n hs).1 (hs.map HandOver.event)
      (c.serveAll s port oneDegreeUs readings n hs).2 := by
  induction hs generalizing c queued n with
  | nil =>
    refine .nothing (fun n => rfl) ?_
    simpa [serveAll] using going
  | cons h hs ih =>
    obtain ⟨alone, distinct⟩ := List.nodup_cons.mp distinct
    have first := @serve_asks c s port queued h going (own h List.mem_cons_self) oneDegreeUs (readings n)
    simp only [serveAll]
    generalize c.serve s port h oneDegreeUs (readings n) = outcome at first ⊢
    obtain ⟨c₁, requests⟩ := outcome
    have apart : ∀ h' ∈ hs, h'.event = hpfpEvent → h.event ≠ hpfpEvent := by
      intro h' member same same'
      exact alone (List.mem_map.mpr ⟨h', member, same.trans same'.symm⟩)
    cases first with
    | nothing going =>
      have rest := @ih c₁ _ going distinct (fun h' member same => by
        obtain ⟨waits, action⟩ := own h' (List.mem_cons_of_mem h member) same
        exact ⟨by simp [waits, apart h' member same], action⟩) (n + 1)
      cases rest with
      | nothing none going =>
        refine .nothing (fun n => ?_) ?_
        · cases n with
          | zero => rfl
          | succ n => exact none n
        · have same : (queued && decide (hpfpEvent ∉ (h :: hs).map HandOver.event)) =
              (queued && decide (h.event ≠ hpfpEvent) &&
                decide (hpfpEvent ∉ hs.map HandOver.event)) := by
            by_cases own : h.event = hpfpEvent
            · simp [own]
            · simp [own, Ne.symm own]
          rwa [same]
      | @once i request inside asked others ofPump after going =>
        refine @AsksOnce.once _ _ _ _ _ (i + 1) request (Nat.succ_lt_succ inside) asked ?_ ofPump ?_ going
        · intro n other
          cases n with
          | zero => rfl
          | succ n => exact others n (fun same => other (congrArg _ same))
        · intro waits
          rw [List.map_cons, List.take_succ_cons]
          by_cases own : h.event = hpfpEvent
          · exact own ▸ List.mem_cons_self
          · exact List.mem_cons_of_mem _ (after (by simp [waits, own]))
    | @once request away ofPump going =>
      have absent : ∀ h' ∈ hs, h'.event ≠ hpfpEvent := by
        intro h' member same
        obtain ⟨waits, -⟩ := own h' (List.mem_cons_of_mem h member) same
        simp [waits, apart h' member same] at away
      have rest := @ih c₁ true going distinct
        (fun h' member same => absurd same (absent h' member)) (n + 1)
      cases rest with
      | nothing none going =>
        refine @AsksOnce.once _ _ _ _ _ 0 request (Nat.succ_pos _) rfl ?_ ofPump ?_ ?_
        · intro n other
          cases n with
          | zero => contradiction
          | succ n => exact none n
        · intro waits
          have own : h.event = hpfpEvent := by simpa [waits] using away
          simp [own]
        · have outside : hpfpEvent ∉ hs.map HandOver.event := by
            intro member
            obtain ⟨h', member, same⟩ := List.mem_map.mp member
            exact absent h' member same
          simpa [outside] using going
      | once _ _ _ _ after _ =>
        obtain ⟨h', member, same⟩ := List.mem_map.mp (List.mem_of_mem_take (after rfl))
        exact absurd same (absent h' member)

end HpfpController

/-! ## The queue -/

/-- Nothing is requested up to a hand-over before which nothing is. -/
theorem requestsUpTo_nothing {scheduled : Nat → List Request} {n : Nat}
    (none : ∀ i < n, scheduled i = []) : requestsUpTo scheduled n = [] := by
  simpa [requestsUpTo] using none

theorem requestsUpTo_once {scheduled : Nat → List Request} {request : Request} {i n : Nat}
    (inside : i < n) (asked : scheduled i = [request]) (others : ∀ j ≠ i, scheduled j = []) :
    requestsUpTo scheduled n = [request] := by
  induction n with
  | zero => omega
  | succ n ih =>
    rw [requestsUpTo_succ]
    rcases Nat.lt_succ_iff_lt_or_eq.mp inside with before | rfl
    · rw [ih before, others n (by omega), List.append_nil]
    · rw [requestsUpTo_nothing fun j before => others j (by omega), asked, List.nil_append]

theorem listed_eq {t : TriggerScheduler} {start : Option Nat} {l : List Nat} {steps : Nat}
    (linked : Linked t.next start l) (enough : l.length < steps) : listed t steps start = l := by
  induction l generalizing start steps with
  | nil =>
    obtain rfl : start = none := linked
    cases steps <;> rfl
  | cons e l ih =>
    obtain ⟨rfl, rest⟩ := linked
    obtain ⟨steps, rfl⟩ := Nat.exists_eq_succ_of_ne_zero (Nat.ne_zero_of_lt enough)
    rw [listed, ih rest (Nat.lt_of_succ_lt_succ enough)]

namespace HpfpSystem

open HpfpController

/-- The list of the queue, with the event of the pump where its controller expects it. -/
structure Holds (s : HpfpSystem) (l : List Nat) : Prop where
  linked : Linked s.triggerScheduler.next s.triggerScheduler.angleBasedEventsHead l
  known : ∀ e ∈ l, e ≤ hpfpEvent
  going : InChain s.settings s.controller (decide (hpfpEvent ∈ l))
  action : hpfpEvent ∈ l → IsPump (s.triggerScheduler.memory hpfpEvent).action

variable {s s' : HpfpSystem} {l : List Nat} {port : Port} {c : HpfpController}
  {requests : List Request}

theorem Holds.length_lt (holds : s.Holds l) : l.length + 1 < queueLengthLimit := by
  have within : l ⊆ List.range 13 := fun e member =>
    List.mem_range.mpr (Nat.lt_succ_of_le (holds.known e member))
  have few : l.length ≤ 13 := by
    simpa using (List.subperm_of_subset holds.linked.nodup within).length_le
  exact Nat.lt_of_le_of_lt (Nat.succ_le_succ few) (by decide)

theorem Holds.queued_eq (holds : s.Holds l) : s.queued = l :=
  listed_eq holds.linked (Nat.lt_of_succ_lt holds.length_lt)

/-- A request on the queue. -/
theorem Holds.schedule (holds : s.Holds l) (request : Request) (engineCycle : Angle) :
    ∃ t, s.triggerScheduler.schedule queueLengthLimit engineCycle request = some t ∧
      Linked t.next t.angleBasedEventsHead (enqueue l request.event) ∧
      ∀ d, (t.memory d).action =
        if d = request.event then request.action else (s.triggerScheduler.memory d).action := by
  have few := holds.length_lt
  have all : request.event ∈ l → request.event ∈ l.take queueLengthLimit := by
    rw [List.take_of_length_le (by omega)]
    exact id
  obtain ⟨t, served, linked, -, -⟩ := @TriggerScheduler.schedule_spec _ _ queueLengthLimit engineCycle
    request holds.linked all (by omega)
  exact ⟨t, served, linked, TriggerScheduler.schedule_action served⟩

/-- A callback outside the windows. -/
theorem Holds.settle (holds : s.Holds l) (asks : Asks s.settings (decide (hpfpEvent ∈ l)) c requests)
    (engineCycle : Angle) :
    ∃ s' l', s.settle engineCycle (c, requests) = some s' ∧ s'.Holds l' := by
  cases asks with
  | nothing going => exact ⟨_, l, rfl, holds.linked, holds.known, going, holds.action⟩
  | @once request away ofPump going =>
    have away : hpfpEvent ∉ l := of_decide_eq_false away
    obtain ⟨t, served, linked, action⟩ := holds.schedule request engineCycle
    rw [enqueue, ofPump.event, if_neg away] at linked
    refine ⟨{ s with controller := c, triggerScheduler := t }, l ++ [hpfpEvent], ?_, ?_⟩
    · simp [HpfpSystem.settle, TriggerScheduler.scheduleAll, served]
    · refine ⟨linked, ?_, by simpa using going, fun _ => ?_⟩
      · intro e member
        rcases List.mem_append.mp member with old | new
        · exact holds.known e old
        · exact (List.mem_singleton.mp new).le
      · rw [action, if_pos ofPump.event.symm]
        exact ofPump.action

section Window

variable {phase : EnginePhaseInfo}

/-- Whether an event falls due. -/
def due (s : HpfpSystem) (phase : EnginePhaseInfo) (e : Nat) : Bool :=
  TriggerScheduler.shouldSchedule (s.triggerScheduler.memory e) phase

/-- A request of the pump does not meet the list that is being walked. -/
theorem undisturbed_once {due : Nat → Bool} {scheduled : Nat → List Request} {i : Nat}
    {request : Request} (distinct : l.Nodup) (asked : scheduled i = [request])
    (others : ∀ n ≠ i, scheduled n = []) (inside : i < (l.filter due).length)
    (after : request.event ∈ l → request.event ∈ (l.filter due).take (i + 1)) :
    Undisturbed due scheduled l where
  apart before e later split falls r member := by
    obtain rfl : (before.filter due).length = i := by
      by_contra other
      rw [others _ other] at member
      contradiction
    obtain rfl : r = request := by
      rw [asked] at member
      exact List.mem_singleton.mp member
    subst split
    intro found
    obtain ⟨alone, apart⟩ := List.nodup_cons.mp (List.nodup_middle.mp distinct)
    have handed : r.event ∈ before.filter due ∨ r.event = e := by
      have place : r.event ∈ before ++ e :: later := by
        rcases List.mem_append.mp found with kept | rest
        · exact List.mem_append_left _ (List.mem_of_mem_filter kept)
        · exact List.mem_append_right _ (List.mem_cons_of_mem e rest)
      have early := after place
      rw [List.filter_append, List.filter_cons_of_pos falls, List.take_length_add_append] at early
      simpa using early
    rcases List.mem_append.mp found with kept | rest
    · have notDue := (List.mem_filter.mp kept).2
      rcases handed with early | rfl
      · simp [(List.mem_filter.mp early).2] at notDue
      · simp [falls] at notDue
    · rcases handed with early | rfl
      · exact List.disjoint_of_nodup_append apart (List.mem_of_mem_filter early) rest
      · exact alone (List.mem_append_right _ rest)
  found earlier r later total again := by
    rw [requestsUpTo_once inside asked others] at total
    obtain rfl : earlier = [] := by
      have one := congrArg List.length total
      simp only [List.length_append, List.length_cons, List.length_nil] at one
      exact List.length_eq_zero_iff.mp (by omega)
    simp [newlyScheduled] at again

variable {rpm : ℚ} {scheduled : Nat → List Request}

/-- A window without a request keeps what does not fall due. -/
theorem Holds.window_nothing (holds : s.Holds l) (turns : rpm ≠ 0)
    (none : ∀ n, scheduled n = []) :
    ∃ t, s.triggerScheduler.onEnginePhase queueLengthLimit rpm phase scheduled = some t ∧
      Linked t.next t.angleBasedEventsHead (l.filter (!s.due phase ·)) ∧
      ∀ e ∈ l.filter (!s.due phase ·),
        (t.memory e).action = (s.triggerScheduler.memory e).action := by
  have few := holds.length_lt
  have requests : allRequests s.triggerScheduler phase scheduled l = [] :=
    requestsUpTo_nothing fun n _ => none n
  have undisturbed : Undisturbed (s.due phase) scheduled l := by
    constructor
    · intro before e later split falls r member
      rw [none] at member
      contradiction
    · intro earlier r later total
      rw [requestsUpTo_nothing fun n _ => none n] at total
      simp at total
  have enough : l.length + (allRequests s.triggerScheduler phase scheduled l).length <
      queueLengthLimit := by
    rw [requests, List.length_nil]
    omega
  obtain ⟨t, served, settled⟩ := TriggerScheduler.onEnginePhase_settled holds.linked phase scheduled
    rpm (fun stopped => absurd stopped turns) undisturbed enough
  refine ⟨t, served, ?_, fun e kept => (settled.kept e kept).2⟩
  have pending := settled.pending
  rw [requests] at pending
  change Linked t.next t.angleBasedEventsHead (keptEvents s.triggerScheduler phase l)
  simpa [newlyScheduled] using pending

/-- A request of the pump comes behind what does not fall due. -/
theorem Holds.window_once (holds : s.Holds l) (turns : rpm ≠ 0) {i : Nat} {request : Request}
    (asked : scheduled i = [request]) (others : ∀ n ≠ i, scheduled n = [])
    (inside : i < (l.filter (s.due phase)).length)
    (after : request.event ∈ l → request.event ∈ (l.filter (s.due phase)).take (i + 1)) :
    ∃ t, s.triggerScheduler.onEnginePhase queueLengthLimit rpm phase scheduled = some t ∧
      Linked t.next t.angleBasedEventsHead (l.filter (!s.due phase ·) ++ [request.event]) ∧
      (t.memory request.event).action = request.action := by
  have few := holds.length_lt
  have requests : allRequests s.triggerScheduler phase scheduled l = [request] :=
    requestsUpTo_once inside asked others
  have enough : l.length + (allRequests s.triggerScheduler phase scheduled l).length <
      queueLengthLimit := by
    rw [requests, List.length_singleton]
    exact few
  obtain ⟨t, served, settled⟩ := TriggerScheduler.onEnginePhase_settled holds.linked phase scheduled
    rpm (fun stopped => absurd stopped turns)
    (undisturbed_once holds.linked.nodup asked others inside after) enough
  have absent : request.event ∉ keptEvents s.triggerScheduler phase l := by
    intro kept
    obtain ⟨member, early⟩ := List.mem_filter.mp kept
    have falls := (List.mem_filter.mp (List.mem_of_mem_take (after member))).2
    rw [due] at falls
    simp [falls] at early
  refine ⟨t, served, ?_, ?_⟩
  · have pending := settled.pending
    rw [requests] at pending
    change Linked t.next t.angleBasedEventsHead
      (keptEvents s.triggerScheduler phase l ++ [request.event])
    simpa [newlyScheduled, enqueue, absent] using pending
  · have count : t.handed.length = (l.filter (s.due phase)).length := by
      rw [settled.handed, List.length_map]
      rfl
    rw [TriggerScheduler.onEnginePhase_action served, count,
      requestsUpTo_once inside asked others]
    simp [TriggerScheduler.requestedAction]

/-- Every window keeps the event where it is, or hands it over and leads on to the next. -/
theorem Holds.onEnginePhase (holds : s.Holds l) (rpm : ℚ) (phase : EnginePhaseInfo)
    (oneDegreeUs : ℚ) (readings : Nat → List HpfpReadings) :
    ∃ s' l', s.step port (.onEnginePhase rpm phase oneDegreeUs readings) = some s' ∧
      s'.Holds l' := by
  by_cases stopped : rpm = 0
  · have none : s.handOvers rpm phase = [] := if_pos stopped
    simp only [step, none, serveAll, TriggerScheduler.onEnginePhase, if_pos stopped,
      Option.bind_eq_bind, Option.bind_some]
    exact ⟨_, l, rfl, holds.linked, holds.known, holds.going, holds.action⟩
  · have events : (s.handOvers rpm phase).map HandOver.event = l.filter (s.due phase) := by
      simp only [handOvers, if_neg stopped, holds.queued_eq, List.map_map]
      exact List.map_id' _
    have own : ∀ h ∈ s.handOvers rpm phase, h.event = hpfpEvent →
        decide (hpfpEvent ∈ l) = true ∧ IsPump h.action := by
      intro h member same
      simp only [handOvers, if_neg stopped, holds.queued_eq] at member
      obtain ⟨e, falls, rfl⟩ := List.mem_map.mp member
      obtain rfl : e = hpfpEvent := same
      have place := List.mem_of_mem_filter falls
      exact ⟨decide_eq_true place, holds.action place⟩
    have asks := @serveAll_asks s.controller s.settings port (decide (hpfpEvent ∈ l))
      (s.handOvers rpm phase) holds.going (events ▸ holds.linked.nodup.filter _) own oneDegreeUs
      readings 0
    rw [events] at asks
    simp only [step]
    generalize s.controller.serveAll s.settings port oneDegreeUs readings 0
      (s.handOvers rpm phase) = outcome at asks ⊢
    obtain ⟨c, requests⟩ := outcome
    cases asks with
    | nothing none going =>
      obtain ⟨t, served, linked, action⟩ := @Holds.window_nothing s l phase rpm _ holds stopped none
      simp only [served, Option.bind_eq_bind, Option.bind_some]
      refine ⟨_, _, rfl, linked, ?_, ?_, ?_⟩
      · exact fun e member => holds.known e (List.mem_of_mem_filter member)
      · have same : decide (hpfpEvent ∈ l.filter (!s.due phase ·)) =
            (decide (hpfpEvent ∈ l) && decide (hpfpEvent ∉ l.filter (s.due phase))) := by
          by_cases place : hpfpEvent ∈ l
          · cases falls : s.due phase hpfpEvent <;> simp [place, falls]
          · simp [place]
        rwa [same]
      · intro kept
        rw [action _ kept]
        exact holds.action (List.mem_of_mem_filter kept)
    | @once i request inside asked others ofPump after going =>
      obtain ⟨t, served, linked, action⟩ := @Holds.window_once s l phase rpm _ holds stopped i request
        asked others inside (by rw [ofPump.event]; exact fun member => after (decide_eq_true member))
      rw [ofPump.event] at linked action
      simp only [served, Option.bind_eq_bind, Option.bind_some]
      refine ⟨_, _, rfl, linked, ?_, ?_, ?_⟩
      · intro e member
        rcases List.mem_append.mp member with kept | new
        · exact holds.known e (List.mem_of_mem_filter kept)
        · exact (List.mem_singleton.mp new).le
      · simpa using going
      · intro _
        rw [action]
        exact ofPump.action

end Window

/-! ## Runs -/

/-- How often the event of the pump is pending, by angle and by time. -/
def pendingEvents (s : HpfpSystem) : Nat :=
  s.queued.count hpfpEvent + if s.controller.scheduling.action.isSome then 1 else 0

/-- While the pump runs, one of its events is pending, which leads on. A valve that is on is
going to be switched off. The index of the lobe comes below the number of the lobes. -/
structure Chained (s : HpfpSystem) : Prop where
  onePending : s.controller.running = true → s.pendingEvents = 1
  byTime : ∀ action, s.controller.scheduling.action = some action → IsPump action
  byAngle : hpfpEvent ∈ s.queued → IsPump (s.triggerScheduler.memory hpfpEvent).action
  turnsOff : s.controller.hpfpValve = true →
    s.controller.scheduling.action = some pinTurnOffAction
  lobeReached : s.controller.LobeReached s.settings

/-- The number of lobes is not set to one while the index is that of another lobe. -/
def KeepsLobe (s : HpfpSystem) : HpfpStep → Prop
  | .configure settings => settings.hpfpCamLobes = 1 → s.controller.lobeIndex = 0
  | .onFastCallback _ | .onEnginePhase .. | .execute _ | .schedule .. | .setPhaseOffset _ => True

instance KeepsLobe.decidable (s : HpfpSystem) : (e : HpfpStep) → Decidable (s.KeepsLobe e)
  | .configure settings =>
    inferInstanceAs (Decidable (settings.hpfpCamLobes = 1 → s.controller.lobeIndex = 0))
  | .onFastCallback _ | .onEnginePhase .. | .execute _ | .schedule .. | .setPhaseOffset _ =>
    inferInstanceAs (Decidable True)

theorem Holds.chained (holds : s.Holds l) : s.Chained := by
  have queued := holds.queued_eq
  obtain ⟨link, lobe⟩ := holds.going
  refine ⟨fun running => ?_, fun action pending => ?_, ?_, fun on => ?_, lobeReached_iff.mpr lobe⟩
  · rw [pendingEvents, queued, List.Nodup.count holds.linked.nodup]
    generalize inside : decide (hpfpEvent ∈ l) = place at link
    cases link with
    | idle stopped _ _ => rw [running] at stopped; contradiction
    | byAngle _ free _ => simp [of_decide_eq_true inside, free]
    | opens _ pending _ => simp [of_decide_eq_false inside, pending]
    | closes _ pending => simp [of_decide_eq_false inside, pending]
  · generalize decide (hpfpEvent ∈ l) = place at link
    cases link with
    | idle _ free _ => rw [free] at pending; contradiction
    | byAngle _ free _ => rw [free] at pending; contradiction
    | opens _ waits _ => exact .inl (Option.some.inj (pending.symm.trans waits))
    | closes _ waits => exact .inr (Option.some.inj (pending.symm.trans waits))
  · rw [queued]
    exact holds.action
  · generalize decide (hpfpEvent ∈ l) = place at link
    cases link with
    | idle _ _ off => rw [on] at off; contradiction
    | byAngle _ _ off => rw [on] at off; contradiction
    | opens _ _ off => rw [on] at off; contradiction
    | closes _ waits => exact waits

theorem start_holds (settings : HpfpSettings) : Holds { settings } [] where
  linked := rfl
  known _ member := absurd member List.not_mem_nil
  going := ⟨.idle rfl rfl rfl, fun _ => rfl⟩
  action member := absurd member List.not_mem_nil

/-- Every step is possible, and keeps the event where it belongs. -/
theorem Holds.step (holds : s.Holds l) {e : HpfpStep} (keeps : s.KeepsLobe e) :
    ∃ s', s.step port e = some s' ∧ ∃ l', s'.Holds l' := by
  cases e with
  | onFastCallback r =>
    obtain ⟨s', l', settled, holds'⟩ := holds.settle (onFastCallback_asks holds.going) r.engineCycle
    exact ⟨s', settled, l', holds'⟩
  | configure settings =>
    exact ⟨_, rfl, l, holds.linked, holds.known, ⟨holds.going.link, keeps⟩, holds.action⟩
  | onEnginePhase rpm phase oneDegreeUs readings =>
    obtain ⟨s', l', served, holds'⟩ := @Holds.onEnginePhase s l port holds rpm phase oneDegreeUs readings
    exact ⟨s', served, l', holds'⟩
  | execute r =>
    obtain ⟨s', l', settled, holds'⟩ :=
      holds.settle (@execute_asks s.controller s.settings port r _ holds.going) r.engineCycle
    exact ⟨s', settled, l', holds'⟩
  | schedule element engineCycle angle action =>
    obtain ⟨t, served, linked, written⟩ := holds.schedule ⟨element, angle, action⟩ engineCycle
    have other : hpfpEvent ≠ element.val := element.isLt.ne'
    have place : hpfpEvent ∈ enqueue l element ↔ hpfpEvent ∈ l := by
      rw [enqueue]
      split
      · exact Iff.rfl
      · simp [other]
    simp only [HpfpSystem.step, served, Option.bind_eq_bind, Option.bind_some]
    refine ⟨_, rfl, _, linked, ?_, ?_, ?_⟩
    · intro e member
      rw [enqueue] at member
      split at member
      · exact holds.known e member
      · rcases List.mem_append.mp member with old | new
        · exact holds.known e old
        · exact (List.mem_singleton.mp new).trans_le element.isLt.le
    · simpa only [place] using holds.going
    · intro waits
      rw [written, if_neg other]
      exact holds.action (place.mp waits)
  | setPhaseOffset phaseOffset =>
    exact ⟨_, rfl, l, holds.linked, holds.known, holds.going, holds.action⟩

/-- In a run the events are chained all along just when the number of lobes never becomes one
while the index is that of another lobe. -/
theorem along_chained (port : Port) (settings : HpfpSettings) (events : List HpfpStep) :
    Along (HpfpSystem.step port) Chained { settings } events ↔
      Supervised (HpfpSystem.step port) KeepsLobe { settings } events := by
  refine @along_iff_supervised _ _ (HpfpSystem.step port) _ events Chained KeepsLobe
    (fun _ s => ∃ l, s.Holds l) (fun _ s ⟨l, holds⟩ => holds.chained)
    (fun _ s e keeps ⟨l, holds⟩ => holds.step keeps) ?_ ⟨[], start_holds settings⟩
  rintro - s e s' - taken chained
  cases e with
  | configure settings =>
    obtain rfl := Option.some.inj taken
    exact lobeReached_iff.mp chained.lobeReached
  | onFastCallback _ => trivial
  | onEnginePhase _ _ _ _ => trivial
  | execute _ => trivial
  | schedule _ _ _ _ => trivial
  | setPhaseOffset _ => trivial

/-- Four lobes, and a pump that is asked for forty degrees. -/
def fourLobes : HpfpSettings where
  hpfpCamLobes := 4
  hpfpPumpVolume := 1
  hpfpPeakPos := 10
  hpfpCam := 0
  hpfpMinAngle := 10
  hpfpActivationAngle := 30
  isInitialized := true

def cruising : HpfpReadings where
  rpm := 1000
  triggerSize := 58
  deadtimeMs := 0
  pumpAngleFuel := 40
  getVVTPosition _ _ := 0
  oneDegreeUs := 166
  engineCycle := 720

-- The second lobe is at 190 degrees: the event comes up there and switches the valve on.
example : (run (HpfpSystem.step ⟨4, by decide⟩) { settings := fourLobes }
    [.onFastCallback cruising, .onEnginePhase 1000 ⟨0, 140, 150, 720⟩ 166 fun _ => [],
      .onEnginePhase 1000 ⟨0, 150, 160, 720⟩ 166 fun _ => [], .execute cruising]).map
      (fun s => (s.controller.hpfpValve, s.pendingEvents)) = some (true, 1) := by
  decide +kernel

/-- From four lobes to one: the index of the second lobe stays for ever. -/
theorem singleLobe_stays :
    ¬ Along (HpfpSystem.step ⟨4, by decide⟩) Chained { settings := fourLobes }
      [.onFastCallback cruising, .configure { fourLobes with hpfpCamLobes := 1 }] := by
  rintro ⟨-, s, taken, -, s', configured, chained⟩
  have second : ((HpfpSystem.step ⟨4, by decide⟩ { settings := fourLobes }
      (.onFastCallback cruising)).map fun s => s.controller.lobeIndex) = some 1 := by
    decide +kernel
  rw [taken, Option.map_some, Option.some_inj] at second
  obtain rfl := Option.some.inj configured
  have home : s.controller.lobeIndex = 0 := lobeReached_iff.mp chained.lobeReached rfl
  rw [home] at second
  contradiction

end HpfpSystem

end FomeFw.Injection
