import FomeFw.Lib.Chain
import FomeFw.Timer.TriggerScheduler

/-! What `onEnginePhase` leaves of the list, as long as no action schedules an event
that is still on the detached list: the duplicate check of `schedule` only looks at
the attached one. -/
namespace FomeFw.Timer
open Chain Trigger

/-- The effect of `schedule` on the list: an event already on it stays where it is. -/
def enqueue (l : List Nat) (e : Nat) : List Nat := if e ∈ l then l else l ++ [e]

/-- The list built by a sequence of requests. -/
def newlyScheduled (requests : List Request) : List Nat :=
  (requests.map Request.event).foldl enqueue []

/-- Everything scheduled during the first hand-overs. -/
def requestsUpTo (scheduled : Nat → List Request) (handOvers : Nat) : List Request :=
  (List.range handOvers).flatMap scheduled

/-- No action schedules an event that is still on the detached list, kept or not yet
visited, and an event scheduled again is found by the duplicate check. -/
structure Undisturbed (due : Nat → Bool) (scheduled : Nat → List Request) (l : List Nat) : Prop where
  apart : ∀ before e after, l = before ++ e :: after → due e = true →
    ∀ r ∈ scheduled (before.filter due).length, r.event ∉ before.filter (!due ·) ++ after
  found : ∀ earlier r later, requestsUpTo scheduled (l.filter due).length = earlier ++ r :: later →
    r.event ∈ newlyScheduled earlier → r.event ∈ (newlyScheduled earlier).take queueLengthLimit

section Outcome
variable (s : TriggerScheduler) (phase : EnginePhaseInfo) (scheduled : Nat → List Request) (l : List Nat)

/-- The events that fall due in the window. -/
def dueEvents : List Nat := l.filter fun e => TriggerScheduler.shouldSchedule (s.memory e) phase

def keptEvents : List Nat := l.filter fun e => !TriggerScheduler.shouldSchedule (s.memory e) phase

/-- Everything the actions schedule when each due event is handed over once. -/
def allRequests : List Request := requestsUpTo scheduled (dueEvents s phase l).length

/-- The list is what was not due, in order, followed by what was newly scheduled, and
each due event was handed over once, as it had been pending. -/
structure Settled (s' : TriggerScheduler) : Prop where
  pending : Linked s'.next s'.angleBasedEventsHead (keptEvents s phase l ++
    (newlyScheduled (allRequests s phase scheduled l)).filter (· ∉ keptEvents s phase l))
  handed : s'.handed = (dueEvents s phase l).map fun e =>
    ⟨e, phase.timestamp, TriggerScheduler.getAngleFromNow (s.memory e) phase, (s.memory e).action⟩
  kept : ∀ e ∈ keptEvents s phase l,
    (s'.memory e).eventPhase = (s.memory e).eventPhase ∧ (s'.memory e).action = (s.memory e).action

end Outcome

theorem newlyScheduled_append (requests : List Request) (r : Request) :
    newlyScheduled (requests ++ [r]) = enqueue (newlyScheduled requests) r.event := by
  simp [newlyScheduled]

theorem requestsUpTo_succ (scheduled : Nat → List Request) (n : Nat) :
    requestsUpTo scheduled (n + 1) = requestsUpTo scheduled n ++ scheduled n := by
  simp [requestsUpTo, List.range_succ]

theorem requestsUpTo_prefix (scheduled : Nat → List Request) (small : k ≤ n) :
    requestsUpTo scheduled k <+: requestsUpTo scheduled n := by
  induction n with
  | zero =>
    obtain rfl : k = 0 := by omega
    exact List.prefix_rfl
  | succ n ih =>
    rcases Nat.lt_or_ge n k with last | earlier
    · obtain rfl : k = n + 1 := by omega
      exact List.prefix_rfl
    · rw [requestsUpTo_succ]
      exact (ih earlier).trans (List.prefix_append _ _)

theorem enqueue_length (l : List Nat) (e : Nat) : (enqueue l e).length ≤ l.length + 1 := by
  unfold enqueue
  split <;> simp

theorem newlyScheduled_length (requests : List Request) :
    (newlyScheduled requests).length ≤ requests.length := by
  suffices grows : ∀ (l : List Nat) (events : List Nat),
      (events.foldl enqueue l).length ≤ l.length + events.length by
    simpa [newlyScheduled] using grows [] (requests.map Request.event)
  intro l events
  induction events generalizing l with
  | nil => simp
  | cons e events ih =>
    have one := enqueue_length l e
    have rest := ih (enqueue l e)
    simp only [List.foldl_cons, List.length_cons]
    omega

namespace TriggerScheduler
variable {s s' : TriggerScheduler}

theorem next_modify (s : TriggerScheduler) (e : Nat) (f : AngleBasedEvent → AngleBasedEvent) :
    (s.modify e f).next = Function.update s.next e (f (s.memory e)).nextToothEvent := by
  funext d
  by_cases same : d = e <;> simp [next, modify, same]

theorem memory_modify_of_ne (f : AngleBasedEvent → AngleBasedEvent) (other : d ≠ e) :
    (s.modify e f).memory d = s.memory d := by
  simp [modify, other]

@[simp] theorem next_setHead : (s.setHead head).next = s.next := rfl
@[simp] theorem next_setNext : (s.setNext e target).next = Function.update s.next e target :=
  next_modify s e _

@[simp] theorem memory_setHead : (s.setHead head).memory = s.memory := rfl

@[simp] theorem eventPhase_setNext :
    ((s.setNext e target).memory d).eventPhase = (s.memory d).eventPhase := by
  by_cases same : d = e <;> simp [setNext, modify, same]

@[simp] theorem action_setNext :
    ((s.setNext e target).memory d).action = (s.memory d).action := by
  by_cases same : d = e <;> simp [setNext, modify, same]

theorem findLast_spec (linked : Linked s.next (some head) (before ++ [last]))
    (enough : before.length < steps) : s.findLast steps head = some last := by
  induction before generalizing head steps with
  | nil =>
    obtain ⟨steps, rfl⟩ := Nat.exists_eq_succ_of_ne_zero (Nat.ne_zero_of_lt enough)
    obtain ⟨first, ends⟩ := linked
    obtain rfl := Option.some.inj first
    have ends : s.next head = none := ends
    simp [findLast, ends]
  | cons b before ih =>
    obtain ⟨steps, rfl⟩ := Nat.exists_eq_succ_of_ne_zero (Nat.ne_zero_of_lt enough)
    obtain ⟨first, rest⟩ := linked
    obtain rfl := Option.some.inj first
    cases follows : s.next head with
    | none =>
      rw [follows] at rest
      cases before <;> exact absurd rest.1 (by simp)
    | some following =>
      rw [follows] at rest
      simp [findLast, follows, ih rest (by simpa using enough)]

/-- Appending an event that is not on the list; nodes beside it and the list are untouched. -/
theorem append_spec (linked : Linked s.next s.angleBasedEventsHead l) (fresh : e ∉ l)
    (enough : l.length < steps) :
    ∃ s', s.append steps e = some s' ∧ Linked s'.next s'.angleBasedEventsHead (l ++ [e]) ∧
      s'.handed = s.handed ∧ s'.phaseOffset = s.phaseOffset ∧
      ∀ d, d ≠ e → d ∉ l → s'.memory d = s.memory d := by
  unfold append
  rcases List.eq_nil_or_concat l with rfl | ⟨before, last, shape⟩
  · have empty : s.angleBasedEventsHead = none := linked
    have same : (s.setNext e none).angleBasedEventsHead = none := empty
    simp only [same]
    refine ⟨_, rfl, ⟨rfl, by simp⟩, rfl, rfl, fun d other _ => ?_⟩
    rw [memory_setHead]
    exact memory_modify_of_ne _ other
  · rw [List.concat_eq_append] at shape
    subst shape
    have start := linked.start_eq
    obtain ⟨head, isHead⟩ : ∃ head, s.angleBasedEventsHead = some head := by
      rw [start]
      cases before <;> simp
    have same : (s.setNext e none).angleBasedEventsHead = some head := isHead
    rw [isHead] at linked
    have cleared : Linked (s.setNext e none).next (some head) (before ++ [last]) := by
      rw [next_setNext]
      exact linked.update fresh none
    have found := @findLast_spec _ _ _ _ steps cleared (by simp at enough; omega)
    simp only [same, found, Option.bind_eq_bind, Option.bind_some]
    refine ⟨_, rfl, ?_, rfl, rfl, ?_⟩
    · have grown := linked.insertAfter linked.nodup fresh
      have ends : s.next last = none := linked.split.2
      rw [ends] at grown
      have sameHead : ((s.setNext e none).setNext last (some e)).angleBasedEventsHead = some head :=
        isHead
      rw [sameHead, next_setNext, next_setNext]
      simpa using grown
    · intro d other outside
      have notLast : d ≠ last := fun same => outside (by simp [same])
      exact (memory_modify_of_ne _ notLast).trans (memory_modify_of_ne _ other)

theorem assertNotInList_spec (linked : Linked s.next start l) (e counter : Nat) :
    ∃ errors warnings, s.assertNotInList e counter start =
      (decide (e ∈ l.take counter), { s with firmwareErrors := errors, warnings := warnings }) := by
  induction l generalizing start counter with
  | nil =>
    obtain rfl : start = none := linked
    exact ⟨s.firmwareErrors, s.warnings, by cases counter <;> simp [assertNotInList]⟩
  | cons b l ih =>
    obtain ⟨rfl, rest⟩ := linked
    cases counter with
    | zero => exact ⟨s.firmwareErrors ++ ["Looped queue?"], s.warnings, by simp [assertNotInList, firmwareError]⟩
    | succ counter =>
      by_cases same : b = e
      · exact ⟨s.firmwareErrors, s.warnings ++ ["re-adding element into event_queue"],
          by simp [assertNotInList, same, warning]⟩
      · obtain ⟨errors, warnings, found⟩ := ih rest counter
        refine ⟨errors, warnings, ?_⟩
        simp [assertNotInList, same, found, Ne.symm same]

/-- Scheduling an event off the detached list. -/
theorem schedule_eq (s : TriggerScheduler) (steps : Nat) (engineCycle : Angle) (r : Request) :
    s.schedule steps engineCycle r =
      let s₁ := (s.setAngle engineCycle r.event r.angle).modify r.event ({ · with action := r.action })
      let search := s₁.assertNotInList r.event queueLengthLimit s₁.angleBasedEventsHead
      if search.1 then some search.2 else search.2.append steps r.event := by
  simp only [schedule]
  split <;> simp_all

theorem schedule_spec (linked : Linked s.next s.angleBasedEventsHead l)
    (found : request.event ∈ l → request.event ∈ l.take queueLengthLimit)
    (enough : l.length < steps) :
    ∃ s', s.schedule steps engineCycle request = some s' ∧
      Linked s'.next s'.angleBasedEventsHead (enqueue l request.event) ∧ s'.handed = s.handed ∧
      ∀ d, d ≠ request.event → d ∉ l → s'.memory d = s.memory d := by
  obtain ⟨e, angle, action⟩ := request
  let s₁ := (s.setAngle engineCycle e angle).modify e ({ · with action })
  have links : s₁.next = s.next := by
    funext d
    by_cases same : d = e <;> simp [s₁, setAngle, next, modify, same]
  have others : ∀ d, d ≠ e → s₁.memory d = s.memory d := fun d other =>
    (memory_modify_of_ne _ other).trans (memory_modify_of_ne _ other)
  have linked₁ : Linked s₁.next s₁.angleBasedEventsHead l := by
    rw [links]
    exact linked
  obtain ⟨errors, warnings, search⟩ := assertNotInList_spec linked₁ e queueLengthLimit
  have run : s.schedule steps engineCycle ⟨e, angle, action⟩ =
      if (s₁.assertNotInList e queueLengthLimit s₁.angleBasedEventsHead).1 then
        some (s₁.assertNotInList e queueLengthLimit s₁.angleBasedEventsHead).2
      else (s₁.assertNotInList e queueLengthLimit s₁.angleBasedEventsHead).2.append steps e :=
    schedule_eq s steps engineCycle ⟨e, angle, action⟩
  rw [run, search]
  by_cases listed : e ∈ l
  · simp only [found listed, decide_true, enqueue, listed, ↓reduceIte]
    exact ⟨_, rfl, linked₁, rfl, fun d other _ => others d other⟩
  · have absent : e ∉ l.take queueLengthLimit := fun member => listed (List.mem_of_mem_take member)
    simp only [absent, decide_false, enqueue, listed, ↓reduceIte]
    obtain ⟨s', appended, linked', handed, -, same⟩ :=
      append_spec (s := { s₁ with firmwareErrors := errors, warnings := warnings }) linked₁ listed enough
    exact ⟨s', appended, linked', handed, fun d other outside =>
      (same d other outside).trans (others d other)⟩

theorem assertNotInList_memory (s : TriggerScheduler) (e counter : Nat) (start : Option Nat) :
    (s.assertNotInList e counter start).2.memory = s.memory := by
  induction counter generalizing start with
  | zero => cases start <;> rfl
  | succ counter ih =>
    cases start with
    | none => rfl
    | some current =>
      rw [assertNotInList]
      split
      · rfl
      · exact ih _

theorem append_action (appended : s.append steps e = some s') (d : Nat) :
    (s'.memory d).action = (s.memory d).action := by
  simp only [append] at appended
  split at appended
  · obtain rfl := Option.some.inj appended
    rw [memory_setHead, action_setNext]
  · obtain ⟨last, -, shape⟩ := Option.bind_eq_some_iff.mp appended
    obtain rfl := Option.some.inj shape
    rw [action_setNext, action_setNext]

/-- Scheduling writes one action. -/
theorem schedule_action (served : s.schedule steps engineCycle request = some s') (d : Nat) :
    (s'.memory d).action = if d = request.event then request.action else (s.memory d).action := by
  let s₁ := (s.setAngle engineCycle request.event request.angle).modify request.event
    ({ · with action := request.action })
  have written : (s₁.memory d).action =
      if d = request.event then request.action else (s.memory d).action := by
    by_cases same : d = request.event <;> simp [s₁, setAngle, modify, same]
  have searched := s₁.assertNotInList_memory request.event queueLengthLimit s₁.angleBasedEventsHead
  rw [schedule_eq] at served
  dsimp only at served
  rw [← written, ← searched]
  split at served
  · obtain rfl := Option.some.inj served
    rfl
  · exact append_action served d

/-- Serving the requests of one hand-over. -/
theorem scheduleAll_spec {requests done later : List Request} {detached : List Nat}
    (linked : Linked s.next s.angleBasedEventsHead (newlyScheduled done))
    (apart : ∀ r ∈ requests, r.event ∉ detached)
    (disjoint : ∀ d ∈ detached, d ∉ newlyScheduled done)
    (found : ∀ earlier r rest, done ++ requests ++ later = earlier ++ r :: rest →
      r.event ∈ newlyScheduled earlier → r.event ∈ (newlyScheduled earlier).take queueLengthLimit)
    (enough : (done ++ requests).length < steps) :
    ∃ s', s.scheduleAll steps engineCycle requests = some s' ∧
      Linked s'.next s'.angleBasedEventsHead (newlyScheduled (done ++ requests)) ∧
      s'.handed = s.handed ∧ (∀ d ∈ detached, d ∉ newlyScheduled (done ++ requests)) ∧
      ∀ d ∈ detached, s'.memory d = s.memory d := by
  induction requests generalizing s done with
  | nil => exact ⟨s, rfl, by simpa using linked, rfl, by simpa using disjoint, fun _ _ => rfl⟩
  | cons r requests ih =>
    have bound := newlyScheduled_length done
    simp only [List.length_append, List.length_cons] at enough
    obtain ⟨s₁, served, linked₁, handed₁, same₁⟩ := @schedule_spec _ _ steps engineCycle r linked
      (found done r (requests ++ later) (by simp)) (by omega)
    have outside : ∀ d ∈ detached, d ≠ r.event := fun d member same =>
      apart r (by simp) (same ▸ member)
    rw [← newlyScheduled_append] at linked₁
    have disjoint₁ : ∀ d ∈ detached, d ∉ newlyScheduled (done ++ [r]) := by
      intro d member
      rw [newlyScheduled_append, enqueue]
      have absent := disjoint d member
      split
      · exact absent
      · simp [absent, outside d member]
    obtain ⟨s', run, linked', handed', disjoint', same'⟩ := ih linked₁
      (fun other member => apart other (by simp [member])) disjoint₁
      (by simpa using found) (by simp; omega)
    refine ⟨s', by simp [scheduleAll, served, run], by simpa using linked',
      handed'.trans handed₁, by simpa using disjoint', fun d member => ?_⟩
    exact (same' d member).trans (same₁ d (outside d member) (disjoint d member))

theorem findBefore_spec (linked : Linked s.next (some head) (before ++ last :: del :: after))
    (enough : before.length < steps) (absent : del ∉ before ++ [last]) :
    s.findBefore del steps head = some last := by
  induction before generalizing head steps with
  | nil =>
    obtain ⟨steps, rfl⟩ := Nat.exists_eq_succ_of_ne_zero (Nat.ne_zero_of_lt enough)
    obtain ⟨first, follows, -⟩ := linked
    obtain rfl := Option.some.inj first
    simp [findBefore, follows]
  | cons b before ih =>
    obtain ⟨steps, rfl⟩ := Nat.exists_eq_succ_of_ne_zero (Nat.ne_zero_of_lt enough)
    obtain ⟨first, rest⟩ := linked
    obtain rfl := Option.some.inj first
    simp only [List.cons_append, List.mem_cons, not_or] at absent
    obtain ⟨following, follows⟩ : ∃ following, s.next head = some following := by
      rw [rest.start_eq]
      cases before <;> simp
    have different : following ≠ del := by
      have start := rest.start_eq
      rw [follows] at start
      cases before with
      | nil =>
        obtain rfl : following = last := by simpa using start
        exact fun same => absent.2 (by simp [same])
      | cons c before =>
        obtain rfl : following = c := by simpa using start
        exact fun same => absent.2 (by simp [same])
    rw [follows] at rest
    simp [findBefore, follows, different, ih rest (by simpa using enough) absent.2]

/-- Deleting the visited node from what is kept. -/
theorem delete_spec (linked : Linked s.next keephead (kept ++ e :: rest))
    (enough : kept.length < steps) :
    ∃ keephead' s', s.delete steps keephead e = some (keephead', s') ∧
      Linked s'.next keephead' (kept ++ rest) ∧
      s'.angleBasedEventsHead = s.angleBasedEventsHead ∧ s'.handed = s.handed ∧
      (∀ d ∉ kept, s'.memory d = s.memory d) ∧
      ∀ d, (s'.memory d).eventPhase = (s.memory d).eventPhase ∧
        (s'.memory d).action = (s.memory d).action := by
  have once := linked.nodup
  unfold delete
  rcases List.eq_nil_or_concat kept with rfl | ⟨before, last, shape⟩
  · obtain ⟨head, behind⟩ := linked
    simp only [head, ↓reduceIte]
    exact ⟨_, _, rfl, behind, rfl, rfl, fun _ _ => rfl, fun _ => ⟨rfl, rfl⟩⟩
  · rw [List.concat_eq_append] at shape
    subst shape
    have absent : e ∉ before ++ [last] := fun member =>
      List.disjoint_of_nodup_append once member (by simp)
    have apart : last ∉ before ∧ last ∉ e :: rest := by
      rw [List.append_assoc, List.singleton_append] at once
      have alone := (List.nodup_middle.mp once).notMem
      exact not_or.mp (fun member => alone (List.mem_append.mpr member))
    obtain ⟨middle, front, follows, behind⟩ := segment_append.mp linked
    obtain ⟨head, isHead⟩ : ∃ head, keephead = some head := by
      rw [linked.start_eq]
      cases before <;> simp
    have different : head ≠ e := by
      have start := linked.start_eq
      rw [isHead] at start
      intro same
      apply absent
      cases before <;> simp_all
    have search := @findBefore_spec _ head before last e rest steps (by simpa [← isHead] using linked)
      (by simp at enough; omega) absent
    have pointer : s.next last = some e := follows ▸ front.split.2
    simp only [isHead, different, ↓reduceIte, search, pointer, Option.bind_eq_bind, Option.bind_some]
    refine ⟨_, _, rfl, ?_, rfl, rfl, ?_, fun d => ⟨eventPhase_setNext, action_setNext⟩⟩
    · rw [next_setNext, ← isHead]
      exact (front.redirect apart.1 _).trans
        (behind.update (fun member => apart.2 (List.mem_cons_of_mem e member)) _)
    · intro d outside
      exact memory_modify_of_ne _ (fun same => outside (by simp [same]))

/-- The state of the walk: what was kept and what is still to be visited are on the
detached list, and the attached list holds what was scheduled so far. -/
structure Walking (s : TriggerScheduler) (keephead keeptail : Option Nat) (kept rest : List Nat)
    (done : List Request) : Prop where
  detached : Linked s.next keephead (kept ++ rest)
  tail : keeptail = kept.getLast?
  attached : Linked s.next s.angleBasedEventsHead (newlyScheduled done)
  apart : ∀ d ∈ kept ++ rest, d ∉ newlyScheduled done

section Walk
variable {s₀ : TriggerScheduler} {phase : EnginePhaseInfo} {scheduled : Nat → List Request}
  {l kept rest : List Nat} {keephead keeptail : Option Nat}

theorem Walking.keep (walking : Walking s keephead keeptail kept (e :: rest) done) :
    Walking s keephead (some e) (kept ++ [e]) rest done where
  detached := by simpa using walking.detached
  tail := by simp
  attached := walking.attached
  apart := by simpa using walking.apart

/-- Taking the visited event off the list and serving what its hand-over schedules. -/
theorem Walking.release (walking : Walking s keephead keeptail kept (e :: rest) done)
    {requests later : List Request} (clear : ∀ r ∈ requests, r.event ∉ kept ++ rest)
    (found : ∀ earlier r rest, done ++ requests ++ later = earlier ++ r :: rest →
      r.event ∈ newlyScheduled earlier → r.event ∈ (newlyScheduled earlier).take queueLengthLimit)
    (enoughKept : kept.length < limit) (enough : (done ++ requests).length < limit) :
    ∃ keephead' s₁ s', s.delete limit keephead e = some (keephead', s₁) ∧
      (s₁.handOver phase e).scheduleAll limit phase.engineCycle requests = some s' ∧
      Walking s' keephead' keeptail kept rest (done ++ requests) ∧
      s₁.handed = s.handed ∧
      s'.handed = s.handed ++ [⟨e, phase.timestamp, getAngleFromNow (s.memory e) phase,
        (s.memory e).action⟩] ∧
      ∀ d ∈ kept ++ rest, (s'.memory d).eventPhase = (s.memory d).eventPhase ∧
        (s'.memory d).action = (s.memory d).action := by
  obtain ⟨keephead', s₁, deleted, detached, head, handed, untouched, data⟩ :=
    delete_spec walking.detached enoughKept
  have outside : ∀ d ∈ newlyScheduled done, d ∉ kept := fun d member inKept =>
    walking.apart d (List.mem_append_left _ inKept) member
  have attached : Linked s₁.next s₁.angleBasedEventsHead (newlyScheduled done) := by
    rw [head]
    exact walking.attached.congr (fun d member => by rw [next, untouched d (outside d member), next])
  have disjoint : ∀ d ∈ kept ++ rest, d ∉ newlyScheduled done := by
    intro d member
    refine walking.apart d ?_
    rcases List.mem_append.mp member with inKept | inRest
    · exact List.mem_append_left _ inKept
    · exact List.mem_append_right _ (List.mem_cons_of_mem e inRest)
  obtain ⟨s', served, attached', handed', disjoint', same⟩ :=
    @scheduleAll_spec (s₁.handOver phase e) _ phase.engineCycle _ _ later _
      attached clear disjoint found enough
  have angle : getAngleFromNow (s₁.memory e) phase = getAngleFromNow (s.memory e) phase := by
    simp only [getAngleFromNow, (data e).1]
  refine ⟨keephead', s₁, s', deleted, served, ⟨?_, walking.tail, attached', disjoint'⟩, handed, ?_, ?_⟩
  · refine detached.congr (fun d member => ?_)
    rw [next, same d member]
    rfl
  · rw [handed']
    simp only [handOver, handed, angle, (data e).2]
  · intro d member
    rw [same d member]
    exact data d

/-- The walk from any place in the list on. -/
theorem walk_spec (due : Nat → Bool)
    (isDue : ∀ d, due d = shouldSchedule (s₀.memory d) phase)
    (undisturbed : Undisturbed due scheduled l)
    (limited : l.length + (requestsUpTo scheduled (l.filter due).length).length < limit)
    {before rest : List Nat} (split : l = before ++ rest)
    (walking : Walking s keephead keeptail (before.filter (!due ·)) rest
      (requestsUpTo scheduled (before.filter due).length))
    (handed : s.handed = (before.filter due).map fun e =>
      ⟨e, phase.timestamp, getAngleFromNow (s₀.memory e) phase, (s₀.memory e).action⟩)
    (data : ∀ d ∈ before.filter (!due ·) ++ rest, (s.memory d).eventPhase = (s₀.memory d).eventPhase ∧
      (s.memory d).action = (s₀.memory d).action)
    (enough : rest.length < steps) :
    ∃ keephead' keeptail' s', walk limit phase scheduled steps s keephead keeptail rest.head? =
        some (keephead', keeptail', s') ∧
      Walking s' keephead' keeptail' (l.filter (!due ·)) [] (requestsUpTo scheduled (l.filter due).length) ∧
      (s'.handed = (l.filter due).map fun e =>
        ⟨e, phase.timestamp, getAngleFromNow (s₀.memory e) phase, (s₀.memory e).action⟩) ∧
      ∀ d ∈ l.filter (!due ·), (s'.memory d).eventPhase = (s₀.memory d).eventPhase ∧
        (s'.memory d).action = (s₀.memory d).action := by
  induction rest generalizing before s keephead keeptail steps with
  | nil =>
    obtain ⟨steps, rfl⟩ := Nat.exists_eq_succ_of_ne_zero (Nat.ne_zero_of_lt enough)
    obtain rfl : l = before := by simpa using split
    exact ⟨keephead, keeptail, s, rfl, walking, handed, by simpa using data⟩
  | cons e rest ih =>
    obtain ⟨steps, rfl⟩ := Nat.exists_eq_succ_of_ne_zero (Nat.ne_zero_of_lt enough)
    have position : s.next e = rest.head? := walking.detached.split.2.start_eq
    have now : shouldSchedule (s.memory e) phase = due e := by
      rw [isDue, shouldSchedule, shouldSchedule, (data e (by simp)).1]
    have split' : l = (before ++ [e]) ++ rest := by simpa using split
    simp only [List.head?_cons, walk, position, now]
    cases dueNow : due e with
    | false =>
      simp only [Bool.false_eq_true, ↓reduceIte]
      refine ih split' ?_ (by simpa [dueNow] using handed) ?_ (by simpa using enough)
      · simpa [dueNow] using walking.keep
      · simpa [dueNow] using data
    | true =>
      have counted : ((before ++ [e]).filter due).length = (before.filter due).length + 1 := by
        simp [dueNow]
      have reaches : (before.filter due).length + 1 ≤ (l.filter due).length := by
        rw [split', List.filter_append, List.length_append, counted]
        omega
      obtain ⟨later, total⟩ := requestsUpTo_prefix scheduled reaches
      rw [requestsUpTo_succ] at total
      have keptShort : (before.filter (!due ·)).length ≤ l.length := by
        rw [split, List.length_append]
        exact (List.length_filter_le _ _).trans (Nat.le_add_right _ _)
      have enoughRequests : (requestsUpTo scheduled (before.filter due).length ++
          scheduled (before.filter due).length).length < limit := by
        have whole := congrArg List.length total
        rw [List.length_append] at whole
        omega
      have count : s.handed.length = (before.filter due).length := by
        rw [handed, List.length_map]
      obtain ⟨keephead', s₁, s', deleted, served, walking', sameCount, handed', data'⟩ :=
        @Walking.release _ phase _ _ _ _ _ _ limit walking _ _
          (undisturbed.apart before e rest split dueNow)
          (fun earlier r rest shape => undisturbed.found earlier r rest (total.symm.trans shape))
          (by omega) enoughRequests
      simp only [↓reduceIte, deleted, Option.bind_eq_bind, Option.bind_some, sameCount, count, served]
      refine ih split' ?_ ?_ ?_ (by simpa using enough)
      · rw [counted, requestsUpTo_succ]
        simpa [dueNow] using walking'
      · have pending := data e (by simp)
        rw [handed', handed]
        simp [dueNow, getAngleFromNow, pending]
      · intro d member
        have inList : d ∈ before.filter (!due ·) ++ rest := by simpa [dueNow] using member
        obtain ⟨samePhase, sameAction⟩ := data' d inList
        obtain ⟨oldPhase, oldAction⟩ := data d (by
          rcases List.mem_append.mp inList with inKept | inRest
          · exact List.mem_append_left _ inKept
          · exact List.mem_append_right _ (List.mem_cons_of_mem e inRest))
        exact ⟨samePhase.trans oldPhase, sameAction.trans oldAction⟩

end Walk

/-- When the engine turns, or nothing is due, and no action schedules an event that is
still on the detached list, `onEnginePhase` hands over each due event once and keeps
the others. -/
theorem onEnginePhase_settled {s : TriggerScheduler} {l : List Nat}
    (pending : Linked s.next s.angleBasedEventsHead l) (phase : EnginePhaseInfo)
    (scheduled : Nat → List Request) (rpm : ℚ) (turning : rpm = 0 → dueEvents s phase l = [])
    (undisturbed : Undisturbed (fun e => shouldSchedule (s.memory e) phase) scheduled l)
    (enough : l.length + (allRequests s phase scheduled l).length < steps) :
    ∃ s', s.onEnginePhase steps rpm phase scheduled = some s' ∧
      Settled s phase scheduled l s' := by
  unfold onEnginePhase
  by_cases stopped : rpm = 0
  · have nothing := turning stopped
    have all : keptEvents s phase l = l := by
      refine List.filter_eq_self.mpr (fun e member => ?_)
      have early := List.filter_eq_nil_iff.mp nothing e member
      simpa using early
    have idle : Linked s.next s.angleBasedEventsHead (keptEvents s phase l ++
        (newlyScheduled (allRequests s phase scheduled l)).filter (· ∉ keptEvents s phase l)) := by
      simpa [all, allRequests, nothing, requestsUpTo, newlyScheduled] using pending
    exact ⟨_, if_pos stopped, idle, by simp [nothing], fun _ _ => ⟨rfl, rfl⟩⟩
  let detached : TriggerScheduler := { s with handed := [], angleBasedEventsHead := none }
  have entered : Walking detached s.angleBasedEventsHead none [] l [] :=
    ⟨pending, rfl, rfl, by simp [newlyScheduled]⟩
  obtain ⟨keephead, keeptail, s', walked, ⟨kept, tail, attached, apart⟩, handed, data⟩ :=
    @walk_spec detached s phase _ _ _ _ _ steps
      (fun e => shouldSchedule (s.memory e) phase) (fun _ => rfl) undisturbed enough [] _ rfl
      entered rfl (fun _ _ => ⟨rfl, rfl⟩) (by omega)
  rw [← pending.start_eq] at walked
  have run : walk steps phase scheduled steps ({ s with handed := [] }.setHead none)
      s.angleBasedEventsHead none s.angleBasedEventsHead = some (keephead, keeptail, s') := walked
  simp only [if_neg stopped, run, Option.bind_eq_bind, Option.bind_some]
  rw [List.append_nil] at kept apart
  have fresh : (newlyScheduled (allRequests s phase scheduled l)).filter
      (· ∉ keptEvents s phase l) = newlyScheduled (allRequests s phase scheduled l) :=
    List.filter_eq_self.mpr 
      (fun e member => decide_eq_true (fun inKept => apart e inKept member))
  rcases List.eq_nil_or_concat (keptEvents s phase l) with empty | ⟨before, last, shape⟩
  · have none : keephead = none := by
      rw [keptEvents] at empty
      rwa [empty] at kept
    simp only [none]
    refine ⟨s', rfl, ?_, handed, data⟩
    rw [fresh, empty]
    exact attached
  · rw [List.concat_eq_append] at shape
    have kept : Linked s'.next keephead (before ++ [last]) := shape ▸ kept
    have outside := apart last (by rw [← keptEvents, shape]; simp)
    have tail : keeptail = some last := by
      rw [tail, ← keptEvents, shape]
      simp
    obtain ⟨head, isHead⟩ : ∃ head, keephead = some head := by
      rw [kept.start_eq]
      cases before <;> simp
    have alone : last ∉ before := fun member =>
      List.disjoint_of_nodup_append kept.nodup member (by simp)
    simp only [isHead, tail]
    refine ⟨_, rfl, ?_, handed, fun e member => by simpa using data e member⟩
    rw [fresh, shape, next_setHead, next_setNext]
    rw [isHead] at kept
    exact (kept.redirect alone _).trans (attached.update outside _)

/-! ## The actions of the events -/

/-- The action of an event after the requests. -/
def requestedAction (d : Nat) (action : Action) (requests : List Request) : Action :=
  requests.foldl (fun action r => if r.event = d then r.action else action) action

theorem append_handed (appended : s.append steps e = some s') : s'.handed = s.handed := by
  simp only [append] at appended
  split at appended
  · obtain rfl := Option.some.inj appended
    rfl
  · obtain ⟨last, -, shape⟩ := Option.bind_eq_some_iff.mp appended
    obtain rfl := Option.some.inj shape
    rfl

theorem assertNotInList_handed (s : TriggerScheduler) (e counter : Nat) (start : Option Nat) :
    (s.assertNotInList e counter start).2.handed = s.handed := by
  induction counter generalizing start with
  | zero => cases start <;> rfl
  | succ counter ih =>
    cases start with
    | none => rfl
    | some current =>
      rw [assertNotInList]
      split
      · rfl
      · exact ih _

theorem schedule_handed (served : s.schedule steps engineCycle request = some s') :
    s'.handed = s.handed := by
  have searched := ((s.setAngle engineCycle request.event request.angle).modify request.event
    ({ · with action := request.action })).assertNotInList_handed request.event queueLengthLimit
      s.angleBasedEventsHead
  change _ = s.handed at searched
  rw [← searched]
  simp only [schedule] at served
  split at served
  · next found =>
    obtain rfl := Option.some.inj served
    exact (congrArg (fun found => found.2.handed) found).symm
  · next found =>
    exact (append_handed served).trans (congrArg (fun found => found.2.handed) found).symm

theorem scheduleAll_action {requests : List Request}
    (served : s.scheduleAll steps engineCycle requests = some s') (d : Nat) :
    (s'.memory d).action = requestedAction d (s.memory d).action requests ∧
      s'.handed = s.handed := by
  induction requests generalizing s with
  | nil =>
    obtain rfl := Option.some.inj served
    exact ⟨rfl, rfl⟩
  | cons r requests ih =>
    obtain ⟨s₁, first, rest⟩ := Option.bind_eq_some_iff.mp served
    obtain ⟨action, handed⟩ := ih rest
    rw [action, schedule_action first, handed, schedule_handed first]
    refine ⟨?_, rfl⟩
    rw [requestedAction, requestedAction, List.foldl_cons]
    simp only [eq_comm]

theorem delete_action {keephead keephead' : Option Nat}
    (deleted : s.delete steps keephead e = some (keephead', s')) (d : Nat) :
    (s'.memory d).action = (s.memory d).action ∧ s'.handed = s.handed := by
  cases keephead with
  | none => contradiction
  | some head =>
    simp only [delete] at deleted
    split at deleted
    · obtain ⟨-, rfl⟩ := Prod.mk.inj (Option.some.inj deleted)
      exact ⟨rfl, rfl⟩
    · obtain ⟨before, -, found⟩ := Option.bind_eq_some_iff.mp deleted
      split at found
      · obtain ⟨-, rfl⟩ := Prod.mk.inj (Option.some.inj found)
        exact ⟨rfl, rfl⟩
      · obtain ⟨-, rfl⟩ := Prod.mk.inj (Option.some.inj found)
        exact ⟨action_setNext, rfl⟩

/-- A walk writes what was requested at its hand-overs. -/
theorem walk_action {phase : EnginePhaseInfo} {scheduled : Nat → List Request}
    {keephead keeptail current keephead' keeptail' : Option Nat}
    (walked : walk limit phase scheduled steps s keephead keeptail current =
      some (keephead', keeptail', s')) (d : Nat) :
    ∃ m, s'.handed.length = s.handed.length + m ∧ (s'.memory d).action =
      requestedAction d (s.memory d).action ((List.range' s.handed.length m).flatMap scheduled) := by
  induction steps generalizing s keephead keeptail current with
  | zero => contradiction
  | succ steps ih =>
    cases current with
    | none =>
      obtain ⟨-, -, rfl⟩ := by simpa only [walk, Option.some.injEq, Prod.mk.injEq] using walked
      exact ⟨0, rfl, rfl⟩
    | some current =>
      simp only [walk] at walked
      split at walked
      · obtain ⟨⟨keephead₁, s₁⟩, deleted, walked⟩ := Option.bind_eq_some_iff.mp walked
        obtain ⟨s₂, served, walked⟩ := Option.bind_eq_some_iff.mp walked
        obtain ⟨m, count, action⟩ := ih walked
        obtain ⟨kept, same⟩ := delete_action deleted d
        obtain ⟨written, handed⟩ := scheduleAll_action served d
        have one : s₂.handed.length = s.handed.length + 1 := by
          rw [handed, handOver, same, List.length_append, List.length_singleton]
        refine ⟨m + 1, by omega, ?_⟩
        have here : ((s₁.handOver phase current).memory d).action = (s.memory d).action := kept
        rw [action, written, here, one, same, List.range'_succ, List.flatMap_cons, requestedAction,
          requestedAction, requestedAction, List.foldl_append]
      · exact ih walked

/-- So does `onEnginePhase`. -/
theorem onEnginePhase_action {rpm : ℚ} {phase : EnginePhaseInfo} {scheduled : Nat → List Request}
    (served : s.onEnginePhase steps rpm phase scheduled = some s') (d : Nat) :
    (s'.memory d).action =
      requestedAction d (s.memory d).action (requestsUpTo scheduled s'.handed.length) := by
  simp only [onEnginePhase] at served
  split at served
  · obtain rfl := Option.some.inj served
    rfl
  · obtain ⟨⟨keephead, keeptail, s₁⟩, walked, rest⟩ := Option.bind_eq_some_iff.mp served
    obtain ⟨m, count, action⟩ := walk_action walked d
    have all : s₁.handed.length = m := count.trans (Nat.zero_add m)
    have whole : (s₁.memory d).action =
        requestedAction d (s.memory d).action (requestsUpTo scheduled s₁.handed.length) := by
      rw [action, requestsUpTo, all, List.range_eq_range']
      rfl
    split at rest
    · obtain rfl := Option.some.inj rest
      exact whole
    · split at rest
      · contradiction
      · obtain rfl := Option.some.inj rest
        rw [memory_setHead, action_setNext]
        exact whole

section Example

/-- Event 0 at 100 degrees is not due between 0 and 10 degrees, event 1 at 5 degrees is. -/
def twoEvents : TriggerScheduler where
  memory
    | 0 => { eventPhase := 100, nextToothEvent := some 1 }
    | 1 => { eventPhase := 5 }
    | _ => {}
  angleBasedEventsHead := some 0

def firstWindow : EnginePhaseInfo where
  timestamp := 0
  currentTrgPhase := 0
  nextTrgPhase := 10
  engineCycle := 720

/-- The action that runs at the first hand-over schedules one event. -/
def scheduleOnce (event : Nat) : Nat → List Request
  | 0 => [⟨event, 200, { callback := some 1 }⟩]
  | _ => []

/-- An action may schedule the event that was just handed over. -/
theorem onEnginePhase_settled_twoEvents :
    ∃ s', twoEvents.onEnginePhase 10 1000 firstWindow (scheduleOnce 1) = some s' ∧
      Settled twoEvents firstWindow (scheduleOnce 1) [0, 1] s' := by
  have linked : Linked twoEvents.next twoEvents.angleBasedEventsHead [0, 1] := by
    simp [twoEvents, next]
  refine onEnginePhase_settled linked firstWindow (scheduleOnce 1) 1000 (by simp) ⟨?_, ?_⟩ (by decide)
  · intro before e after split due
    rcases before with _ | ⟨b, _ | ⟨c, before⟩⟩
    · obtain ⟨rfl, rfl⟩ : 0 = e ∧ [1] = after := by simpa using split
      exact absurd due (by decide)
    · obtain ⟨rfl, rfl, rfl⟩ : 0 = b ∧ 1 = e ∧ [] = after := by simpa using split
      decide
    · simp at split
  · intro earlier r later total again
    have one := congrArg List.length total
    obtain rfl : earlier = [] := by
      have : (requestsUpTo (scheduleOnce 1) ([0, 1].filter fun e =>
        shouldSchedule (twoEvents.memory e) firstWindow).length).length = 1 := by decide
      rw [this, List.length_append, List.length_cons] at one
      exact List.length_eq_zero_iff.mp (by omega)
    simp [newlyScheduled] at again

/-- An action that schedules the event kept before ties the list into a loop. -/
theorem onEnginePhase_looped :
    ∃ s', twoEvents.onEnginePhase 10 1000 firstWindow (scheduleOnce 0) = some s' ∧
      ∀ l, ¬ Linked s'.next s'.angleBasedEventsHead l := by
  refine ⟨_, rfl, fun l => ?_⟩
  exact not_linked_of_loop (a := 0) rfl

end Example

end TriggerScheduler
end FomeFw.Timer
