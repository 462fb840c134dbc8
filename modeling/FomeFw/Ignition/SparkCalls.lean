import FomeFw.Ignition.SparkLogic
import FomeFw.Timer.TriggerSchedulerProofs

/-! What each function of the spark logic does to the coils, and that its requests are on
the records of the element they belong to. The angle queue only holds firings, at most one
for each element. -/
namespace FomeFw.Ignition
open Timer Trigger Chain

def maskOf (action : Action) : BitVec 12 := (IgnitionContext.ofPad action.param).outputsMask

/-- The coils an action works on. -/
def coilsOf (action : Action) : Set Nat := {c | (maskOf action).toNat.testBit c = true}

/-- An event of the ignition is on the record that belongs to it. -/
inductive Proper : Nat → Action → Prop
  | dwell {ctx : IgnitionContext} (small : ctx.eventIndex.toNat < 12) :
    Proper (dwellStartTimer ctx.eventIndex.toNat) (ignitionAction turnSparkPinHighCallback ctx)
  | fire {ctx : IgnitionContext} (small : ctx.eventIndex.toNat < 12) :
    Proper (sparkScheduling ctx.eventIndex.toNat) (ignitionAction fireSparkCallback ctx)
  | charge {element : Nat} (small : element < 12) :
    Proper (trailingSparkCharge element) (trailingAction chargeTrailingSparkCallback coil)
  | trailing {element : Nat} (small : element < 12) :
    Proper (trailingSparkFire element) (trailingAction fireTrailingSparkCallback coil)

/-- Requests come in order: behind a start of dwell stands a firing of the same coils, and
behind a cancelled firing the one that replaces it. -/
inductive Orderly : List ExecutorCall → Prop
  | nothing : Orderly []
  | dwell {calls : List ExecutorCall} {element : Nat} (dwells : Proper (dwellStartTimer element) action)
    (fires : Proper (sparkScheduling element) action') (mask : maskOf action' = maskOf action)
    (rest : Orderly calls) :
    Orderly (.schedule msg (some (dwellStartTimer element)) nt action ::
      .schedule msg' (some (sparkScheduling element)) nt' action' :: calls)
  | handOver {calls : List ExecutorCall} {element : Nat}
    (fires : Proper (sparkScheduling element) action) (rest : Orderly calls) :
    Orderly (.cancel (sparkScheduling element) ::
      .schedule msg (some (sparkScheduling element)) nt action :: calls)
  | fire {calls : List ExecutorCall} {element : Nat}
    (fires : Proper (sparkScheduling element) action) (rest : Orderly calls) :
    Orderly (.schedule msg (some (sparkScheduling element)) nt action :: calls)
  | trailing {calls : List ExecutorCall} {record : Nat} (proper : Proper record action)
    (apart : ∀ element, record ≠ dwellStartTimer element ∧ record ≠ sparkScheduling element)
    (rest : Orderly calls) : Orderly (.schedule msg (some record) nt action :: calls)

/-- Every event queued by angle is the firing of an element. -/
def Queued (t : TriggerScheduler) : Prop :=
  ∃ l, Linked t.next t.angleBasedEventsHead l ∧
    ∀ e ∈ l, e < 12 ∧ Proper (sparkScheduling e) (t.memory e).action

/-- A schedule that is ready is that of its elements. -/
structure Prepared (config : EngineConfiguration) (s : SparkState) : Prop where
  queued : Queued s.triggerScheduler
  indexed : s.isReady = true → ∀ i < config.cylindersCount, (s.elements i).cylinderIndex = i

variable {config : EngineConfiguration} {port : Port} {r : EngineReadings} {s s' : SparkState}
  {ctx : IgnitionContext} {calls : List ExecutorCall} {element record c : Nat} {nowNt : Tick}

@[simp] theorem maskOf_ignitionAction : maskOf (ignitionAction callback ctx) = ctx.outputsMask := by
  simp [maskOf, ignitionAction]

theorem Proper.small (proper : Proper record action) : record < 48 := by
  cases proper with
  | dwell small => simp only [dwellStartTimer]; omega
  | fire small => simp only [sparkScheduling]; omega
  | charge small => simp only [trailingSparkCharge]; omega
  | trailing small => simp only [trailingSparkFire]; omega

theorem Proper.owned (proper : Proper record action) : isIgnition action = true := by
  cases proper <;> simp [isIgnition, ignitionAction, trailingAction]

theorem Orderly.tail (orderly : Orderly (call :: calls)) : Orderly calls := by
  cases orderly with
  | dwell dwells fires mask rest => exact .fire fires rest
  | handOver fires rest => exact .fire fires rest
  | fire fires rest => exact rest
  | trailing proper apart rest => exact rest

theorem Orderly.append (first : Orderly l₁) (second : Orderly l₂) : Orderly (l₁ ++ l₂) := by
  induction first with
  | nothing => exact second
  | dwell dwells fires mask rest ih => exact .dwell dwells fires mask ih
  | handOver fires rest ih => exact .handOver fires ih
  | fire fires rest ih => exact .fire fires ih
  | trailing proper apart rest ih => exact .trailing proper apart ih

/-- A call on the records of the trailing spark. -/
theorem Orderly.single (proper : Proper record action)
    (apart : ∀ element, record ≠ dwellStartTimer element ∧ record ≠ sparkScheduling element) :
    Orderly [(scheduleByAngle port us (some record) edge angle action).2] :=
  .trailing proper apart .nothing

theorem trailingSparkCharge_apart (element i : Nat) :
    trailingSparkCharge element ≠ dwellStartTimer i ∧ trailingSparkCharge element ≠ sparkScheduling i := by
  simp only [trailingSparkCharge, dwellStartTimer, sparkScheduling]
  omega

theorem trailingSparkFire_apart (element i : Nat) :
    trailingSparkFire element ≠ dwellStartTimer i ∧ trailingSparkFire element ≠ sparkScheduling i := by
  simp only [trailingSparkFire, dwellStartTimer, sparkScheduling]
  omega

section Coils

theorem setCoils_coils (s : SparkState) (mask : BitVec 12) (level : Bool) (c : Nat) :
    (s.setCoils mask level).coils c = if mask.toNat.testBit c then level else s.coils c := by
  have small : mask.toNat < 2 ^ 16 := by have := mask.isLt; omega
  refine Bits.visit_apply (g := fun coils : Nat → Bool => coils c) (f := fun _ => level)
    (fun j coils => ?_) small
  by_cases same : j = c
  · simp [same]
  · simp [same, Ne.symm same]

theorem Prepared.modify {f : IgnitionEvent → IgnitionEvent} (prepared : Prepared config s)
    (keeps : ∀ event, (f event).cylinderIndex = event.cylinderIndex) :
    Prepared config (s.modify element f) where
  queued := prepared.queued
  indexed ready i small := by
    have index := prepared.indexed ready i small
    by_cases same : i = element
    · subst same
      simpa [SparkState.modify, keeps] using index
    · simpa [SparkState.modify, same] using index

theorem Prepared.setCoils (prepared : Prepared config s) : Prepared config (s.setCoils mask level) :=
  ⟨prepared.queued, prepared.indexed⟩

/-- Starting the dwell switches on the coils of its mask. -/
theorem turnSparkPinHigh_spec (prepared : Prepared config s) (small : ctx.eventIndex.toNat < 12)
    (run : s.turnSparkPinHigh config port r nowNt ctx = (s', calls)) :
    (∀ c, s'.coils c = if ctx.outputsMask.toNat.testBit c then true else s.coils c) ∧
      Prepared config s' ∧ Orderly calls := by
  obtain ⟨rfl, rfl⟩ := Prod.mk.inj run
  refine ⟨fun c => setCoils_coils s _ true c, prepared.setCoils.modify fun _ => rfl, ?_⟩
  split
  · exact .single (.charge small) (trailingSparkCharge_apart _)
  · exact .nothing

/-- What firing comes to: it is put off, for the same coils, or they are switched off. -/
inductive Fired (s : SparkState) (ctx : IgnitionContext) (s' : SparkState) :
    List ExecutorCall → Prop
  | underdwell {again : IgnitionContext} (mask : again.outputsMask = ctx.outputsMask)
    (index : again.eventIndex = ctx.eventIndex) (coils : s'.coils = s.coils) :
    Fired s ctx s' [.schedule msg (some (sparkScheduling ctx.eventIndex.toNat)) nt
      (ignitionAction fireSparkCallback again)]
  | off {calls : List ExecutorCall} (coils : ∀ c, s'.coils c = if ctx.outputsMask.toNat.testBit c then false else s.coils c) :
    Fired s ctx s' calls

theorem Proper.again {again : IgnitionContext} (small : ctx.eventIndex.toNat < 12)
    (index : again.eventIndex = ctx.eventIndex) :
    Proper (sparkScheduling ctx.eventIndex.toNat) (ignitionAction fireSparkCallback again) := by
  rw [← index] at small ⊢
  exact .fire small

theorem fireSpark_spec (prepared : Prepared config s) (small : ctx.eventIndex.toNat < 12)
    (run : s.fireSparkAndPrepareNextSchedule config port r nowNt ctx = (s', calls)) :
    Fired s ctx s' calls ∧ Prepared config s' ∧ Orderly calls := by
  simp only [SparkState.fireSparkAndPrepareNextSchedule] at run
  split at run
  · obtain ⟨rfl, rfl⟩ := Prod.mk.inj run
    exact ⟨.underdwell rfl rfl rfl, prepared, .fire (.again small rfl) .nothing⟩
  · split at run
    · split at run
      · obtain ⟨rfl, rfl⟩ := Prod.mk.inj run
        let again : IgnitionContext := { ctx with sparksRemaining := ctx.sparksRemaining - 1 }
        refine ⟨.off fun c => setCoils_coils s _ false c, prepared.setCoils, ?_⟩
        exact .dwell (@Proper.dwell again small) (.again small rfl) (by simp) .nothing
      · obtain ⟨rfl, rfl⟩ := Prod.mk.inj run
        refine ⟨.off fun c => setCoils_coils s _ false c, prepared.setCoils.modify fun _ => rfl, ?_⟩
        split
        · exact .single (.trailing small) (trailingSparkFire_apart _)
        · exact .nothing
    · obtain ⟨rfl, rfl⟩ := Prod.mk.inj run
      exact ⟨.off fun c => setCoils_coils s _ false c, prepared.setCoils, .nothing⟩

end Coils

section Queue

variable {t t' : TriggerScheduler} {phase : EnginePhase} {steps : Nat}

theorem Queued.short (linked : Linked t.next t.angleBasedEventsHead l) (small : ∀ e ∈ l, e < 12) :
    l.length ≤ 12 := by
  have sub : l ⊆ List.range 12 := fun e member => List.mem_range.mpr (small e member)
  have bound := (List.subperm_of_subset linked.nodup sub).length_le
  simpa using bound

/-- A request is handed on as one call, or it is queued. -/
theorem scheduleOrQueue_spec {request : Request} {info : EnginePhaseInfo} (queued : Queued t)
    (small : request.event < 12) (proper : Proper (sparkScheduling request.event) request.action)
    (enough : 12 < steps) :
    ∃ t' call, t.scheduleOrQueue port us sparkScheduling steps request info = some (t', call) ∧
      Queued t' ∧ ∀ c ∈ call, ∃ nt,
        c = .schedule "angle" (some (sparkScheduling request.event)) nt request.action := by
  obtain ⟨l, linked, firings⟩ := queued
  have short := Queued.short linked fun e member => (firings e member).1
  simp only [TriggerScheduler.scheduleOrQueue]
  split
  · refine ⟨_, _, rfl, ⟨l, ?_, fun e member => ⟨(firings e member).1, ?_⟩⟩, ?_⟩
    · have links : (t.setAngle info.engineCycle request.event request.angle).next = t.next := by
        funext d
        by_cases same : d = request.event <;>
          simp [TriggerScheduler.setAngle, TriggerScheduler.next, TriggerScheduler.modify, same]
      rw [links]
      exact linked
    · have action : ((t.setAngle info.engineCycle request.event request.angle).memory e).action =
          (t.memory e).action := by
        by_cases same : e = request.event <;>
          simp [TriggerScheduler.setAngle, TriggerScheduler.modify, same]
      rw [action]
      exact (firings e member).2
    · rintro _ ⟨⟩
      exact ⟨_, rfl⟩
  · obtain ⟨t', served, linked', -, -⟩ := @TriggerScheduler.schedule_spec _ _ steps info.engineCycle
      request linked (fun member => by
        rwa [List.take_of_length_le (short.trans (by decide))]) (by omega)
    simp only [served, Option.bind_eq_bind, Option.bind_some]
    refine ⟨t', none, rfl, ⟨_, linked', fun e member => ?_⟩, by simp⟩
    rw [TriggerScheduler.schedule_action served]
    split
    · next same => exact same ▸ ⟨small, proper⟩
    · next other =>
      refine firings e ?_
      simp only [enqueue] at member
      split at member
      · exact member
      · simpa [other] using member

theorem handOverCalls_orderly {handed : List HandOver}
    (proper : ∀ h ∈ handed, Proper (sparkScheduling h.event) h.action) :
    Orderly (handed.flatMap (TriggerScheduler.handOverCalls port us sparkScheduling)) := by
  induction handed with
  | nil => exact .nothing
  | cons h handed ih =>
    obtain ⟨first, rest⟩ := List.forall_mem_cons.mp proper
    exact .handOver first (ih rest)

/-- A tooth hands over firings of elements, and leaves the others queued. -/
theorem onEnginePhase_spec (prepared : Prepared config s) (rpm : ℚ) (enough : 12 < steps) :
    ∃ s' calls, s.onEnginePhase port r steps rpm phase = some (s', calls) ∧
      s'.coils = s.coils ∧ Prepared config s' ∧ Orderly calls := by
  obtain ⟨l, linked, firings⟩ := prepared.queued
  have short := Queued.short linked fun e member => (firings e member).1
  suffices handed : ∃ t', s.triggerScheduler.onEnginePhase steps rpm phase.toEnginePhaseInfo
      (fun _ => []) = some t' ∧ Queued t' ∧
      ∀ h ∈ t'.handed, Proper (sparkScheduling h.event) h.action by
    obtain ⟨t', served, queued, proper⟩ := handed
    simp only [SparkState.onEnginePhase, served, Option.bind_eq_bind, Option.bind_some]
    exact ⟨_, _, rfl, rfl, ⟨queued, prepared.indexed⟩, handOverCalls_orderly proper⟩
  by_cases stopped : rpm = 0
  · exact ⟨_, if_pos stopped, ⟨l, linked, firings⟩, by simp⟩
  · have silent : ∀ n, requestsUpTo (fun _ => []) n = [] := by simp [requestsUpTo]
    obtain ⟨t', served, settled⟩ := TriggerScheduler.onEnginePhase_settled linked
      phase.toEnginePhaseInfo (fun _ => []) rpm (fun zero => absurd zero stopped)
      ⟨by simp, by simp [silent]⟩ (by simpa [allRequests, silent] using short.trans_lt enough)
    refine ⟨t', served, ⟨_, settled.pending, fun e member => ?_⟩, ?_⟩
    · simp only [allRequests, silent, newlyScheduled, List.map_nil, List.foldl_nil, List.filter_nil,
        List.append_nil] at member
      rw [(settled.kept e member).2]
      exact firings e (List.mem_of_mem_filter member)
    · rw [settled.handed]
      intro h member
      obtain ⟨e, due, rfl⟩ := List.mem_map.mp member
      exact (firings e (List.mem_of_mem_filter due)).2

/-- A new schedule for an element that has one. -/
theorem scheduleSparkEvent_spec (prepared : Prepared config s) (ready : s.isReady = true)
    (small : element < config.cylindersCount) (enough : 12 < steps) :
    ∃ s' calls, s.scheduleSparkEvent config port r steps limitedSpark element dwellMs dwellAngle
        sparkAngle phase = some (s', calls) ∧
      s'.coils = s.coils ∧ Prepared config s' ∧ Orderly calls := by
  have index := prepared.indexed ready element small
  have few := config.small
  simp only [SparkState.scheduleSparkEvent, index]
  have own : (BitVec.ofNat 4 element).toNat = element := by
    simp only [BitVec.toNat_ofNat]
    omega
  have firing : ∀ ctx : IgnitionContext, ctx.eventIndex = BitVec.ofNat 4 element →
      Proper (sparkScheduling element) (ignitionAction fireSparkCallback ctx) := by
    intro ctx index
    have proper := @Proper.fire ctx (by rw [index, own]; omega)
    rwa [index, own] at proper
  have dwell : ∀ ctx : IgnitionContext, ctx.eventIndex = BitVec.ofNat 4 element →
      Proper (dwellStartTimer element) (ignitionAction turnSparkPinHighCallback ctx) := by
    intro ctx index
    have proper := @Proper.dwell ctx (by rw [index, own]; omega)
    rwa [index, own] at proper
  have queued : Queued { s.triggerScheduler with phaseOffset := r.phaseOffset } := prepared.queued
  let ctx : IgnitionContext := {
    outputsMask := BitVec.ofNat 12 ((s.elements element).calculateIgnitionOutputMask config)
    eventIndex := BitVec.ofNat 4 element
    sparksRemaining := if limitedSpark then 0 else BitVec.ofNat 8 r.multisparkCount }
  obtain ⟨t', call, served, queued', angle⟩ := @scheduleOrQueue_spec port _ steps r.oneDegreeUs
    ⟨element, assertAngleRange sparkAngle, ignitionAction fireSparkCallback ctx⟩
    phase.toEnginePhaseInfo queued (by simp only; omega) (firing ctx rfl) enough
  refine ⟨_, _, Option.bind_eq_some_iff.mpr ⟨(t', call), served, rfl⟩, rfl,
    ⟨queued', prepared.indexed⟩, ?_⟩
  cases call with
  | none =>
    split
    · exact .nothing
    · exact .dwell (dwell _ rfl) (firing _ rfl) (by simp) .nothing
  | some call =>
    obtain ⟨nt, rfl⟩ := angle call rfl
    split
    · exact .fire (firing _ rfl) .nothing
    · exact .dwell (dwell _ rfl) (firing _ rfl) (by simp [ctx]) .nothing

theorem onTriggerEvent_spec (prepared : Prepared config s)
    (isIgnitionEnabled limitedSpark shouldSkip : Bool) (element : Nat) (enough : 12 < steps) :
    ∃ s' calls, s.onTriggerEventSparkLogic config port r steps isIgnitionEnabled limitedSpark
        shouldSkip element phase = some (s', calls) ∧
      s'.coils = s.coils ∧ Prepared config s' ∧ Orderly calls := by
  simp only [SparkState.onTriggerEventSparkLogic]
  split
  · split
    · exact ⟨s, [], rfl, rfl, prepared, .nothing⟩
    · next due =>
      simp only [not_or] at due
      obtain ⟨-, -, ready, small, -⟩ := due
      exact scheduleSparkEvent_spec prepared (by simpa using ready) (by omega) enough
  · exact ⟨s, [], rfl, rfl, prepared, .nothing⟩

theorem initializeIgnitionActions_spec (prepared : Prepared config s) :
    (s.initializeIgnitionActions config r).coils = s.coils ∧
      Prepared config (s.initializeIgnitionActions config r) := by
  have unready : Prepared config { s with isReady := false } :=
    ⟨prepared.queued, fun ready => Bool.noConfusion ready⟩
  simp only [SparkState.initializeIgnitionActions]
  split
  · split
    · refine ⟨rfl, prepared.queued, fun _ i small => ?_⟩
      simp only [if_pos small]
      rfl
    · exact ⟨rfl, unready⟩
  · exact ⟨rfl, unready⟩

/-- Whatever a tooth does, it does not touch the coils. -/
theorem handle_spec (prepared : Prepared config s) (input : SparkInput) (enough : 12 < steps) :
    ∃ s' calls, (sparkLogic config port).handle steps input nowNt s = some (s', calls) ∧
      s'.coils = s.coils ∧ Prepared config s' ∧ Orderly calls := by
  cases input with
  | onEnginePhase rpm phase r => exact onEnginePhase_spec prepared rpm enough
  | prepareIgnitionSchedule r =>
    obtain ⟨coils, initialized⟩ := @initializeIgnitionActions_spec _ r _ prepared
    refine ⟨_, [], rfl, ?_, ?_, .nothing⟩
    · split
      · rfl
      · exact coils
    · split
      · exact prepared
      · exact initialized
  | onTriggerEventSparkLogic isIgnitionEnabled limitedSpark shouldSkip element phase r =>
    exact onTriggerEvent_spec prepared isIgnitionEnabled limitedSpark shouldSkip element enough
  | invalidate =>
    exact ⟨_, [], rfl, rfl, ⟨prepared.queued, fun ready => Bool.noConfusion ready⟩, .nothing⟩

end Queue

end FomeFw.Ignition
