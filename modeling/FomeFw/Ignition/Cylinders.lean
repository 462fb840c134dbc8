import FomeFw.Ignition.SparkCalls

/-! Which cylinder an element is for. It is looked up when the schedule is prepared, and from
then on whatever is queued or requested for the element is for the coils of that cylinder. -/
namespace FomeFw.Ignition
open Timer Trigger Chain

/-- The element has been prepared. -/
def Numbered (config : EngineConfiguration) (s : SparkState) (element : Nat) : Prop :=
  (s.elements element).cylinderIndex = element ∧
    (s.elements element).cylinderNumber = config.getCylinderNumberAtIndex element

/-- The angle queue only holds events that meet a condition. -/
def QueuedOnly (P : Nat → Prop) (t : TriggerScheduler) : Prop :=
  ∀ l, Linked t.next t.angleBasedEventsHead l → ∀ e ∈ l, P e

/-- Elements that are used are prepared. -/
structure Named (config : EngineConfiguration) (s : SparkState) : Prop where
  ready : s.isReady = true → ∀ i < config.cylindersCount, Numbered config s i
  queued : QueuedOnly (Numbered config s) s.triggerScheduler

/-- The records of an element: a trailing coil is that of its cylinder. -/
structure Addressed (config : EngineConfiguration) (s : SparkState) (record : Nat)
    (action : Action) : Prop where
  numbered : Numbered config s (record / 4)
  coil : 2 ≤ record % 4 → action.param = config.getCylinderNumberAtIndex (record / 4)

/-- All requests are for prepared elements. -/
def AllAddressed (config : EngineConfiguration) (s : SparkState) (calls : List ExecutorCall) : Prop :=
  ∀ msg record nt action, .schedule msg (some record) nt action ∈ calls →
    Addressed config s record action

variable {config : EngineConfiguration} {port : Port} {r : EngineReadings} {s s' : SparkState}
  {ctx : IgnitionContext} {calls rest : List ExecutorCall} {element record c : Nat} {nowNt : Tick}
  {t t' : TriggerScheduler} {phase : EnginePhase} {steps : Nat} {P Q : Nat → Prop}

/-- What is known of elements stays known. -/
def Remembers (config : EngineConfiguration) (s s' : SparkState) : Prop :=
  ∀ i, Numbered config s i → Numbered config s' i

section Memory

theorem QueuedOnly.mono (only : QueuedOnly P t) (weaker : ∀ e, P e → Q e) : QueuedOnly Q t :=
  fun l linked e member => weaker e (only l linked e member)

theorem QueuedOnly.of_linked (linked : Linked t.next t.angleBasedEventsHead l) (all : ∀ e ∈ l, P e) :
    QueuedOnly P t := by
  intro l' linked' e member
  rw [linked_unique linked' linked] at member
  exact all e member

theorem Addressed.mono (addressed : Addressed config s record action)
    (remembers : Remembers config s s') : Addressed config s' record action :=
  ⟨remembers _ addressed.numbered, addressed.coil⟩

theorem AllAddressed.mono (addressed : AllAddressed config s calls) (remembers : Remembers config s s') :
    AllAddressed config s' calls :=
  fun msg record nt action member => (addressed msg record nt action member).mono remembers

theorem AllAddressed.nothing : AllAddressed config s [] :=
  fun _ _ _ _ member => absurd member List.not_mem_nil

theorem AllAddressed.append (first : AllAddressed config s calls) (second : AllAddressed config s rest) :
    AllAddressed config s (calls ++ rest) := by
  intro msg record nt action member
  rcases List.mem_append.mp member with before | after
  · exact first msg record nt action before
  · exact second msg record nt action after

theorem AllAddressed.cons (first : ∀ msg record nt action,
      call = .schedule msg (some record) nt action → Addressed config s record action)
    (second : AllAddressed config s rest) : AllAddressed config s (call :: rest) := by
  intro msg record nt action member
  rcases List.mem_cons.mp member with rfl | after
  · exact first msg record nt action rfl
  · exact second msg record nt action after

theorem AllAddressed.schedule (addressed : Addressed config s record action)
    (second : AllAddressed config s rest) :
    AllAddressed config s (.schedule msg (some record) nt action :: rest) := by
  refine .cons (fun msg' record' nt' action' call => ?_) second
  obtain ⟨-, same, -, rfl⟩ := ExecutorCall.schedule.inj call
  obtain rfl := Option.some.inj same
  exact addressed

theorem AllAddressed.tail (addressed : AllAddressed config s (call :: rest)) :
    AllAddressed config s rest :=
  fun msg record nt action member => addressed msg record nt action (List.mem_cons_of_mem _ member)

@[simp] theorem sparkScheduling_div (element : Nat) : sparkScheduling element / 4 = element := by
  simp only [sparkScheduling]
  omega

@[simp] theorem dwellStartTimer_div (element : Nat) : dwellStartTimer element / 4 = element := by
  simp only [dwellStartTimer]
  omega

@[simp] theorem trailingSparkCharge_div (element : Nat) : trailingSparkCharge element / 4 = element := by
  simp only [trailingSparkCharge]
  omega

@[simp] theorem trailingSparkFire_div (element : Nat) : trailingSparkFire element / 4 = element := by
  simp only [trailingSparkFire]
  omega

/-- The leading coils are in the context. -/
theorem Addressed.firing (numbered : Numbered config s element) :
    Addressed config s (sparkScheduling element) action :=
  ⟨by rwa [sparkScheduling_div], fun trailing => by simp only [sparkScheduling] at trailing; omega⟩

theorem Addressed.dwell (numbered : Numbered config s element) :
    Addressed config s (dwellStartTimer element) action :=
  ⟨by rwa [dwellStartTimer_div], fun trailing => by simp only [dwellStartTimer] at trailing; omega⟩

theorem Addressed.trailing (numbered : Numbered config s element) (own : record / 4 = element) :
    Addressed config s record (trailingAction callback (s.elements element).cylinderNumber) := by
  subst own
  exact ⟨numbered, fun _ => numbered.2⟩

theorem Remembers.modify {f : IgnitionEvent → IgnitionEvent}
    (keeps : ∀ event, (f event).cylinderIndex = event.cylinderIndex ∧
      ((f event).cylinderNumber = event.cylinderNumber ∨
        (f event).cylinderNumber = config.getCylinderNumberAtIndex event.cylinderIndex)) :
    Remembers config s (s.modify element f) := by
  intro i numbered
  by_cases same : i = element
  · subst same
    obtain ⟨index, number⟩ := keeps (s.elements i)
    simp only [Numbered, SparkState.modify, Function.update_self, index]
    refine ⟨numbered.1, ?_⟩
    rcases number with kept | prepared
    · rw [kept, numbered.2]
    · rw [prepared, numbered.1]
  · simpa [Numbered, SparkState.modify, same] using numbered

theorem Named.of_remembers (named : Named config s) (remembers : Remembers config s s')
    (ready : s'.isReady = s.isReady) (queue : s'.triggerScheduler = s.triggerScheduler) :
    Named config s' where
  ready isReady i small := remembers i (named.ready (ready ▸ isReady) i small)
  queued := queue ▸ named.queued.mono remembers

end Memory

section Queue

/-- A request for an event that meets the condition is queued, or it is the call. -/
theorem scheduleOrQueue_only {request : Request} {info : EnginePhaseInfo} (queued : Queued t)
    (only : QueuedOnly P t) (own : P request.event) (enough : 12 < steps)
    (served : t.scheduleOrQueue port us sparkScheduling steps request info = some (t', call)) :
    QueuedOnly P t' ∧ ∀ c ∈ call, ∃ nt,
      c = .schedule "angle" (some (sparkScheduling request.event)) nt request.action := by
  obtain ⟨l, linked, firings⟩ := queued
  have short := Queued.short linked fun e member => (firings e member).1
  simp only [TriggerScheduler.scheduleOrQueue] at served
  split at served
  · simp only [Option.some.injEq, Prod.mk.injEq] at served
    obtain ⟨rfl, rfl⟩ := served
    have links : (t.setAngle info.engineCycle request.event request.angle).next = t.next := by
      funext d
      by_cases same : d = request.event <;>
        simp [TriggerScheduler.setAngle, TriggerScheduler.next, TriggerScheduler.modify, same]
    refine ⟨fun l' linked' => only l' (links ▸ linked'), ?_⟩
    rintro _ ⟨⟩
    exact ⟨_, rfl⟩
  · obtain ⟨t'', scheduled, linked', -, -⟩ := @TriggerScheduler.schedule_spec _ _ steps
      info.engineCycle request linked (fun member => by
        rwa [List.take_of_length_le (short.trans (by decide))]) (by omega)
    simp only [scheduled, Option.bind_eq_bind, Option.bind_some, Option.some.injEq,
      Prod.mk.injEq] at served
    obtain ⟨rfl, rfl⟩ := served
    refine ⟨.of_linked linked' fun e member => ?_, by simp⟩
    simp only [enqueue] at member
    split at member
    · exact only l linked e member
    · rcases List.mem_append.mp member with before | new
      · exact only l linked e before
      · rw [List.mem_singleton.mp new]
        exact own

/-- What a tooth hands over was queued, and what it leaves was queued. -/
theorem onEnginePhase_only {info : EnginePhaseInfo} (queued : Queued t) (only : QueuedOnly P t)
    (rpm : ℚ) (enough : 12 < steps)
    (served : t.onEnginePhase steps rpm info (fun _ => []) = some t') :
    QueuedOnly P t' ∧ ∀ h ∈ t'.handed, P h.event := by
  obtain ⟨l, linked, firings⟩ := queued
  have short := Queued.short linked fun e member => (firings e member).1
  by_cases stopped : rpm = 0
  · simp only [TriggerScheduler.onEnginePhase, if_pos stopped, Option.some.injEq] at served
    subst served
    exact ⟨fun l' linked' => only l' linked', fun h member => absurd member List.not_mem_nil⟩
  · have silent : ∀ n, requestsUpTo (fun _ => []) n = [] := by simp [requestsUpTo]
    obtain ⟨t'', served', settled⟩ := TriggerScheduler.onEnginePhase_settled linked
      info (fun _ => []) rpm (fun zero => absurd zero stopped)
      ⟨by simp, by simp [silent]⟩ (by simpa [allRequests, silent] using short.trans_lt enough)
    rw [served, Option.some.injEq] at served'
    subst served'
    refine ⟨.of_linked settled.pending fun e member => ?_, fun h member => ?_⟩
    · simp only [allRequests, silent, newlyScheduled, List.map_nil, List.foldl_nil,
        List.filter_nil, List.append_nil] at member
      exact only l linked e (List.mem_of_mem_filter member)
    · rw [settled.handed] at member
      obtain ⟨e, due, rfl⟩ := List.mem_map.mp member
      exact only l linked e (List.mem_of_mem_filter due)

theorem handOverCalls_addressed {handed : List HandOver}
    (numbered : ∀ h ∈ handed, Numbered config s h.event) : AllAddressed config s
      (handed.flatMap (TriggerScheduler.handOverCalls port us sparkScheduling)) := by
  induction handed with
  | nil => exact .nothing
  | cons h handed ih =>
    obtain ⟨first, later⟩ := List.forall_mem_cons.mp numbered
    refine .cons (fun _ _ _ _ call => ExecutorCall.noConfusion call) ?_
    exact .schedule (.firing first) (ih later)

end Queue

section Handled

/-- What an input does to elements, trailing coils and requests. -/
structure Handled (config : EngineConfiguration) (s s' : SparkState) (calls : List ExecutorCall) :
    Prop where
  trailingCoils : s'.trailingCoils = s.trailingCoils
  remembers : Remembers config s s'
  named : Named config s'
  addressed : AllAddressed config s' calls

theorem Handled.idle (named : Named config s) : Handled config s s [] :=
  ⟨rfl, fun _ => id, named, .nothing⟩

theorem onEnginePhase_handled (prepared : Prepared config s) (named : Named config s) (rpm : ℚ)
    (enough : 12 < steps) (run : s.onEnginePhase port r steps rpm phase = some (s', calls)) :
    Handled config s s' calls := by
  simp only [SparkState.onEnginePhase, Option.bind_eq_bind, Option.bind_eq_some_iff,
    Option.some.injEq, Prod.mk.injEq] at run
  obtain ⟨t', served, rfl, rfl⟩ := run
  obtain ⟨only, handed⟩ := onEnginePhase_only prepared.queued named.queued rpm enough served
  exact ⟨rfl, fun _ => id, ⟨named.ready, only⟩, handOverCalls_addressed handed⟩

theorem scheduleSparkEvent_handled (prepared : Prepared config s) (named : Named config s)
    (numbered : Numbered config s element) (enough : 12 < steps)
    (run : s.scheduleSparkEvent config port r steps limitedSpark element dwellMs dwellAngle
      sparkAngle phase = some (s', calls)) : Handled config s s' calls := by
  simp only [SparkState.scheduleSparkEvent, Option.bind_eq_bind, Option.bind_eq_some_iff,
    Option.some.injEq, Prod.mk.injEq, Prod.exists] at run
  obtain ⟨t', scheduled, served, rfl, rfl⟩ := run
  have queued : Queued { s.triggerScheduler with phaseOffset := r.phaseOffset } := prepared.queued
  obtain ⟨only, angle⟩ := scheduleOrQueue_only queued (P := Numbered config s) named.queued
    numbered enough served
  refine ⟨rfl, fun _ => id, ⟨named.ready, only⟩, ?_⟩
  -- the firing goes straight to the executor, or overdwell protection stands in for it
  cases scheduled with
  | none =>
    split
    · exact .nothing
    · exact .schedule (.dwell numbered) (.schedule (.firing numbered) .nothing)
  | some call =>
    obtain ⟨nt, rfl⟩ := angle call rfl
    split
    · exact .schedule (.firing numbered) .nothing
    · exact .schedule (.dwell numbered) (.schedule (.firing numbered) .nothing)

theorem onTriggerEvent_handled (prepared : Prepared config s) (named : Named config s)
    (enough : 12 < steps)
    (run : s.onTriggerEventSparkLogic config port r steps isIgnitionEnabled limitedSpark shouldSkip
      element phase = some (s', calls)) : Handled config s s' calls := by
  simp only [SparkState.onTriggerEventSparkLogic] at run
  split at run
  · split at run
    · obtain ⟨rfl, rfl⟩ := Prod.mk.inj (Option.some.inj run)
      exact .idle named
    · next due =>
      simp only [not_or] at due
      obtain ⟨-, -, ready, small, -⟩ := due
      have numbered := named.ready (by simpa using ready) element (by omega)
      exact scheduleSparkEvent_handled prepared named numbered enough run
  · obtain ⟨rfl, rfl⟩ := Prod.mk.inj (Option.some.inj run)
    exact .idle named

theorem initializeIgnitionActions_handled (named : Named config s) :
    Handled config s (s.initializeIgnitionActions config r) [] := by
  have unready : Handled config s { s with isReady := false } [] :=
    ⟨rfl, fun _ => id, ⟨fun ready => Bool.noConfusion ready, named.queued⟩, .nothing⟩
  simp only [SparkState.initializeIgnitionActions]
  split
  · next dwellAngle _ =>
    split
    · let prepared (element : Nat) : IgnitionEvent :=
        if element < config.cylindersCount then
          prepareCylinderIgnitionSchedule config r dwellAngle r.getDwell
            { s.elements element with cylinderIndex := element }
        else s.elements element
      have remembers : Remembers config s { s with isReady := true, elements := prepared } := by
        intro i numbered
        simp only [Numbered, prepared]
        split
        · exact ⟨rfl, rfl⟩
        · exact numbered
      refine ⟨rfl, remembers, ⟨fun _ i small => ?_, named.queued.mono remembers⟩, .nothing⟩
      simp [Numbered, small, prepareCylinderIgnitionSchedule]
    · exact unready
  · exact unready

theorem handle_handled (prepared : Prepared config s) (named : Named config s) (input : SparkInput)
    (enough : 12 < steps)
    (run : (sparkLogic config port).handle steps input nowNt s = some (s', calls)) :
    Handled config s s' calls := by
  cases input with
  | onEnginePhase rpm phase r => exact onEnginePhase_handled prepared named rpm enough run
  | prepareIgnitionSchedule r =>
    obtain ⟨rfl, rfl⟩ := Prod.mk.inj (Option.some.inj run)
    split
    · exact .idle named
    · exact initializeIgnitionActions_handled named
  | onTriggerEventSparkLogic isIgnitionEnabled limitedSpark shouldSkip element phase r =>
    exact onTriggerEvent_handled prepared named enough run
  | invalidate =>
    obtain ⟨rfl, rfl⟩ := Prod.mk.inj (Option.some.inj run)
    exact ⟨rfl, fun _ => id, ⟨fun ready => Bool.noConfusion ready, named.queued⟩, .nothing⟩

end Handled

end FomeFw.Ignition
