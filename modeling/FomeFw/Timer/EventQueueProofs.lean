import FomeFw.Timer.Agenda

/-! The linked lists of the event queue implement the agenda. Each operation that
starts from a represented agenda returns, given more iterations than there are
pending events, and leaves the agenda of the specification represented. -/
namespace FomeFw.Timer
open Chain TimedQueue

/-- The pending chain holds exactly the appointments, in order; every other record
is marked unscheduled; the free list is a chain of its own. -/
structure Represents (q : EventQueue) (a : Agenda) : Prop where
  linked : Linked q.next q.head a.keys
  stored : ∀ e ∈ a.pending, (q.memory e.key).momentX = e.time ∧ (q.memory e.key).action = e.payload
  idle : ∀ r ∉ a.keys, (q.memory r).action.isSet = false
  spare : Linked q.next q.freelist a.free
  lateDelay : q.lateDelay = a.lateDelay
  firmwareErrors : q.firmwareErrors = a.firmwareErrors

namespace EventQueue
variable {q : EventQueue} {r s : Ref} {target : Option Ref}

section Fields

theorem next_modify (q : EventQueue) (r : Ref) (f : Scheduling → Scheduling) :
    (q.modify r f).next = Function.update q.next r (f (q.memory r)).nextScheduling := by
  funext s
  by_cases same : s = r <;> simp [next, modify, same]

theorem memory_modify (q : EventQueue) (r s : Ref) (f : Scheduling → Scheduling) :
    (q.modify r f).memory s = if s = r then f (q.memory r) else q.memory s := by
  simp only [modify, Function.update_apply]

@[simp] theorem next_setHead : (q.setHead target).next = q.next := rfl
@[simp] theorem next_setFreelist : (q.setFreelist target).next = q.next := rfl
@[simp] theorem next_setNext (q : EventQueue) (r : Ref) (target : Option Ref) :
    (q.setNext r target).next = Function.update q.next r target :=
  next_modify q r _
@[simp] theorem next_fill (q : EventQueue) (r : Ref) (timeX : Tick) (action : Action) :
    (q.fill r timeX action).next = q.next :=
  (next_modify q r _).trans (Function.update_eq_self r q.next)
@[simp] theorem next_unschedule (q : EventQueue) (r : Ref) :
    (q.unschedule r).next = Function.update q.next r none :=
  next_modify q r _

@[simp] theorem memory_setHead : (q.setHead target).memory = q.memory := rfl
@[simp] theorem memory_setFreelist : (q.setFreelist target).memory = q.memory := rfl
@[simp] theorem momentX_setNext :
    ((q.setNext r target).memory s).momentX = (q.memory s).momentX := by
  rw [setNext, memory_modify]
  split <;> simp_all
@[simp] theorem action_setNext :
    ((q.setNext r target).memory s).action = (q.memory s).action := by
  rw [setNext, memory_modify]
  split <;> simp_all
theorem memory_fill (q : EventQueue) (r s : Ref) (momentX : Tick) (action : Action) :
    (q.fill r momentX action).memory s =
      if s = r then { q.memory r with momentX, action } else q.memory s :=
  memory_modify q r s _
theorem memory_unschedule (q : EventQueue) (r s : Ref) :
    (q.unschedule r).memory s =
      if s = r then { q.memory r with nextScheduling := none, action := {} } else q.memory s :=
  memory_modify q r s _

@[simp] theorem momentX_unschedule :
    ((q.unschedule r).memory s).momentX = (q.memory s).momentX := by
  rw [memory_unschedule]
  split <;> simp_all

@[simp] theorem head_setHead : (q.setHead target).head = target := rfl
@[simp] theorem head_setFreelist : (q.setFreelist target).head = q.head := rfl
@[simp] theorem head_setNext : (q.setNext r target).head = q.head := rfl
@[simp] theorem head_fill : (q.fill r momentX action).head = q.head := rfl
@[simp] theorem head_unschedule : (q.unschedule r).head = q.head := rfl

@[simp] theorem freelist_setHead : (q.setHead target).freelist = q.freelist := rfl
@[simp] theorem freelist_setFreelist : (q.setFreelist target).freelist = target := rfl
@[simp] theorem freelist_setNext : (q.setNext r target).freelist = q.freelist := rfl
@[simp] theorem freelist_fill : (q.fill r momentX action).freelist = q.freelist := rfl
@[simp] theorem freelist_unschedule : (q.unschedule r).freelist = q.freelist := rfl

end Fields

/-- Taking an event off the list leaves every record its moment. -/
theorem momentX_remove (removed : q.remove steps r = some q') :
    (q'.memory s).momentX = (q.memory s).momentX := by
  simp only [remove] at removed
  split at removed
  · cases removed
    rfl
  split at removed
  · cases removed
    rfl
  split at removed
  · cases removed
    simp
  · simp only [Option.bind_eq_bind, Option.bind_eq_some_iff] at removed
    obtain ⟨⟨prev, current⟩, -, unlinked⟩ := removed
    cases current with
    | none =>
      cases unlinked
      rfl
    | some current =>
      cases unlinked
      simp

theorem momentX_takeDue (taken : q.takeDue now = some (action, q')) :
    (q'.memory s).momentX = (q.memory s).momentX := by
  simp only [takeDue] at taken
  split at taken
  · contradiction
  split at taken
  · contradiction
  · next current _ _ =>
    cases taken
    cases current with
    | owned id => simp [tryReturnScheduling]
    | pool slot => simp [tryReturnScheduling]

/-- The search stops at the last node before the first one that is not earlier. -/
theorem findInsertPosition_spec {l : List Appointment}
    (linked : Linked q.next (q.next p) (l.map Entry.key))
    (stored : ∀ e ∈ l, (q.memory e.key).momentX = e.time) (enough : l.length < steps) :
    ∃ before last,
      p :: (l.takeWhile (fun e => decide (e.time < timeX))).map Entry.key = before ++ [last] ∧
        q.findInsertPosition timeX steps p = some last := by
  induction l generalizing p steps with
  | nil =>
    obtain ⟨steps, rfl⟩ := Nat.exists_eq_succ_of_ne_zero (Nat.ne_zero_of_lt enough)
    have ends : q.next p = none := linked
    exact ⟨[], p, rfl, by simp [findInsertPosition, ends]⟩
  | cons e l ih =>
    obtain ⟨steps, rfl⟩ := Nat.exists_eq_succ_of_ne_zero (Nat.ne_zero_of_lt enough)
    obtain ⟨follows, rest⟩ := linked
    have time := stored e (by simp)
    by_cases earlier : e.time < timeX
    · obtain ⟨before, last, shape, found⟩ := ih rest
        (fun b member => stored b (by simp [member])) (by simpa using enough)
      refine ⟨p :: before, last, ?_, ?_⟩
      · simp [earlier, ← shape]
      · simp [findInsertPosition, follows, time, earlier, found]
    · exact ⟨[], p, by simp [earlier], by simp [findInsertPosition, follows, time, earlier]⟩

/-- Looking for a node behind `p` stops in front of it. -/
theorem findElement_spec (linked : Linked q.next (q.next p) (l ++ r :: after))
    (enough : l.length < steps) (absent : r ∉ l) :
    ∃ before last, p :: l = before ++ [last] ∧
      q.findElement r steps p = some (last, some r) := by
  induction l generalizing p steps with
  | nil =>
    obtain ⟨steps, rfl⟩ := Nat.exists_eq_succ_of_ne_zero (Nat.ne_zero_of_lt enough)
    exact ⟨[], p, rfl, by simp [findElement, linked.1]⟩
  | cons b l ih =>
    obtain ⟨steps, rfl⟩ := Nat.exists_eq_succ_of_ne_zero (Nat.ne_zero_of_lt enough)
    obtain ⟨follows, rest⟩ := linked
    simp only [List.mem_cons, not_or] at absent
    obtain ⟨before, last, shape, found⟩ := ih rest (by simpa using enough) absent.2
    refine ⟨p :: before, last, by simp [← shape], ?_⟩
    simp [findElement, follows, Ne.symm absent.1, found]

end EventQueue

namespace Represents
variable {q q' : EventQueue} {a : Agenda} {r : Ref}

theorem action_isSet (rep : Represents q a) : (q.memory r).action.isSet = true ↔ r ∈ a.keys := by
  constructor
  · intro set
    by_contra absent
    rw [rep.idle r absent] at set
    contradiction
  · intro member
    obtain ⟨e, pending, rfl⟩ := List.mem_map.mp member
    rw [(rep.stored e pending).2]
    exact a.runnable e pending

theorem firmwareError (rep : Represents q a) (message : String) :
    Represents (q.firmwareError message) (a.error message) where
  linked := rep.linked
  stored := rep.stored
  idle := rep.idle
  spare := rep.spare
  lateDelay := rep.lateDelay
  firmwareErrors := congrArg (· ++ [message]) rep.firmwareErrors

/-- A record filled in and linked at its place makes the new appointment; nothing
else about the queue may change. -/
theorem enter (rep : Represents q a) (runs : action.isSet = true) (fresh : r ∉ a.keys)
    (taken : r ∉ a.free)
    (linked : Linked q'.next q'.head ((TimedQueue.insert ⟨r, timeX, action⟩ a.pending).map Entry.key))
    (links : ∀ s ∈ a.free, q'.next s = q.next s) (freelist : q'.freelist = q.freelist)
    (data : ∀ s, (q'.memory s).momentX = ((q.fill r timeX action).memory s).momentX ∧
      (q'.memory s).action = ((q.fill r timeX action).memory s).action)
    (lateDelay : q'.lateDelay = q.lateDelay) (errors : q'.firmwareErrors = q.firmwareErrors) :
    Represents q' (a.enter ⟨r, timeX, action⟩ runs fresh taken) where
  linked := linked
  stored := by
    intro e member
    rw [(data e.key).1, (data e.key).2, EventQueue.memory_fill]
    rcases List.mem_cons.mp ((insert_perm _ _).mem_iff.mp member) with rfl | member
    · simp
    · have other : e.key ≠ r := fun same => fresh (same ▸ List.mem_map_of_mem member)
      simpa only [other, ↓reduceIte] using rep.stored e member
  idle := by
    intro s absent
    have perm := (insert_perm (⟨r, timeX, action⟩ : Appointment) a.pending).map Entry.key
    have absent := fun member => absent (perm.mem_iff.mpr member)
    simp only [List.map_cons, List.mem_cons] at absent
    obtain ⟨other, absent⟩ := not_or.mp absent
    rw [(data s).2, EventQueue.memory_fill]
    simpa only [other, ↓reduceIte] using rep.idle s absent
  spare := by
    rw [freelist]
    exact rep.spare.congr links
  lateDelay := lateDelay.trans rep.lateDelay
  firmwareErrors := errors.trans rep.firmwareErrors

theorem insertScheduling (rep : Represents q a) (taken : r ∉ a.free)
    (enough : a.pending.length < steps) :
    ∃ q', q.insertScheduling steps r timeX action = some ((a.enroll r taken timeX action).1, q') ∧
      Represents q' (a.enroll r taken timeX action).2 := by
  unfold EventQueue.insertScheduling Agenda.enroll
  by_cases null : action.callback = none
  · simp only [null, ↓reduceIte, ↓reduceDIte]
    exact ⟨_, rfl, rep.firmwareError _⟩
  by_cases scheduled : r ∈ a.keys
  · simp only [null, rep.action_isSet.mpr scheduled, scheduled, ↓reduceIte, ↓reduceDIte]
    exact ⟨_, rfl, rep⟩
  simp only [null, rep.idle r scheduled, scheduled, ↓reduceIte, ↓reduceDIte, Bool.false_eq_true,
    EventQueue.head_fill]
  have runs : action.isSet = true := Option.isSome_iff_ne_none.mpr null
  have links : ∀ s ∈ a.free, s ≠ r := fun s member same => taken (same ▸ member)
  cases shape : a.pending with
  | nil =>
    have empty : q.head = none := by simpa [Agenda.keys, shape] using rep.linked
    simp only [empty]
    refine ⟨_, rfl, rep.enter runs scheduled taken ?_ ?_ rfl (by simp) rfl rfl⟩
    · simp [shape, TimedQueue.insert]
    · intro s member
      simp [links s member]
  | cons first l =>
    have linked := rep.linked
    simp only [Agenda.keys, shape, List.map_cons] at linked
    obtain ⟨head, behind⟩ := linked
    have outside : r ∉ first.key :: l.map Entry.key := by
      simpa only [Agenda.keys, shape, List.map_cons] using scheduled
    have different : first.key ≠ r := fun same => outside (by simp [same])
    have firstTime : ((q.fill r timeX action).memory first.key).momentX = first.time := by
      simpa [EventQueue.memory_fill, different] using (rep.stored first (by simp [shape])).1
    simp only [head, firstTime]
    by_cases earlier : timeX < first.time
    · simp only [earlier, ↓reduceIte]
      refine ⟨((q.fill r timeX action).setNext r (some first.key)).setHead (some r),
        by simp [leads, earlier], rep.enter runs scheduled taken ?_ ?_ rfl (by simp) rfl rfl⟩
      · simp only [shape, TimedQueue.insert, earlier, ↓reduceIte, List.map_cons,
          EventQueue.next_setHead, EventQueue.next_setNext, EventQueue.next_fill]
        refine ⟨rfl, ?_⟩
        rw [Function.update_self]
        exact Segment.update (l := first.key :: l.map Entry.key) ⟨rfl, behind⟩ outside _
      · intro s member
        simp [links s member]
    · -- the walk finds the node after which the new one belongs
      have times : ∀ e ∈ l, ((q.fill r timeX action).memory e.key).momentX = e.time := by
        intro e member
        have other : e.key ≠ r := fun same => outside (by simp [← same, List.mem_map_of_mem member])
        simpa [EventQueue.memory_fill, other] using (rep.stored e (by simp [shape, member])).1
      obtain ⟨before, last, front, found⟩ :=
        @EventQueue.findInsertPosition_spec _ _ steps timeX _
          (by simpa only [EventQueue.next_fill] using behind) times
          (by rw [shape, List.length_cons] at enough; omega)
      have whole : first.key :: l.map Entry.key =
          before ++ last :: (l.dropWhile (fun e => decide (e.time < timeX))).map Entry.key := by
        rw [← List.singleton_append (x := last), ← List.append_assoc, ← front, List.cons_append,
          ← List.map_append, List.takeWhile_append_dropWhile]
      have grown : (TimedQueue.insert ⟨r, timeX, action⟩ a.pending).map Entry.key =
          before ++ last :: r :: (l.dropWhile (fun e => decide (e.time < timeX))).map Entry.key := by
        simp only [shape, TimedQueue.insert, insertBehind, earlier, ↓reduceIte, List.map_cons,
          List.map_append]
        rw [← List.cons_append, front, List.append_assoc, List.singleton_append]
      have chain : Linked q.next (some first.key) (first.key :: l.map Entry.key) := ⟨rfl, behind⟩
      rw [whole] at chain outside
      simp only [earlier, ↓reduceIte, found, Option.bind_eq_bind, Option.bind_some]
      refine ⟨((q.fill r timeX action).setNext r ((q.fill r timeX action).next last)).setNext last
          (some r), by simp [leads, earlier], rep.enter runs scheduled taken ?_ ?_ rfl (by simp) rfl rfl⟩
      · rw [grown]
        simp only [EventQueue.next_setNext, EventQueue.next_fill, EventQueue.head_setNext,
          EventQueue.head_fill, head]
        exact chain.insertAfter chain.nodup outside
      · intro s member
        have inList : last ∈ a.keys := by
          simp only [Agenda.keys, shape, List.map_cons, whole]
          simp
        have apart : s ≠ last := fun same => a.apart s member (same ▸ inList)
        simp [links s member, apart]

theorem spend (rep : Represents q a) (split : a.free = r :: rest) :
    q.freelist = some r ∧
      Represents ((q.setFreelist (q.next r)).setNext r none) (a.spend rest split) := by
  have chain := rep.spare
  rw [split] at chain
  obtain ⟨first, behind⟩ := chain
  have unused : r ∉ a.keys := a.apart r (by simp [split])
  have once : r ∉ rest := (List.nodup_cons.mp (split ▸ a.spare)).1
  refine ⟨first, ?_⟩
  constructor
  · simpa [Agenda.spend, Agenda.keys] using rep.linked.update unused none
  · intro e member
    simpa using rep.stored e member
  · intro s absent
    simpa using rep.idle s absent
  · simpa [Agenda.spend] using behind.update once none
  · exact rep.lateDelay
  · exact rep.firmwareErrors

theorem insertTask (rep : Represents q a) (enough : a.pending.length < steps) :
    ∃ q', q.insertTask steps (owner.map .owned) timeX action =
        some ((a.insertTask owner timeX action).1, q') ∧
      Represents q' (a.insertTask owner timeX action).2 := by
  cases owner with
  | some id => exact rep.insertScheduling (a.owned_notFree id) enough
  | none =>
    simp only [Option.map_none, EventQueue.insertTask, EventQueue.getFreeScheduling]
    cases split : a.free with
    | nil =>
      have exhausted : q.freelist = none := by
        have chain := rep.spare
        rwa [split] at chain
      rw [Agenda.insertTask_exhausted split]
      exact ⟨q, by simp [exhausted], rep⟩
    | cons r rest =>
      obtain ⟨available, spent⟩ := rep.spend split
      rw [Agenda.insertTask_pool split]
      simp only [available]
      exact spent.insertScheduling (Agenda.spend_taken split) enough

/-- A record unlinked and marked unscheduled is no longer an appointment. -/
theorem strike (rep : Represents q a)
    (linked : Linked q'.next q'.head (a.remove r).keys)
    (links : ∀ s ∈ a.free, q'.next s = q.next s) (freelist : q'.freelist = q.freelist)
    (data : ∀ s, (q'.memory s).momentX = (q.memory s).momentX ∧
      (q'.memory s).action = if s = r then {} else (q.memory s).action)
    (lateDelay : q'.lateDelay = q.lateDelay) (errors : q'.firmwareErrors = q.firmwareErrors) :
    Represents q' (a.remove r) where
  linked := linked
  stored := by
    intro e member
    have other : e.key ≠ r := fun same =>
      notMem_erase a.distinct (same ▸ List.mem_map_of_mem member)
    rw [(data e.key).1, (data e.key).2]
    simpa only [other, ↓reduceIte] using rep.stored e ((erase_sublist r a.pending).subset member)
  idle := by
    intro s absent
    rw [(data s).2]
    by_cases same : s = r
    · simp [same, Action.isSet]
    · simp only [same, ↓reduceIte]
      refine rep.idle s (fun member => absent ?_)
      obtain ⟨e, inList, rfl⟩ := List.mem_map.mp member
      exact List.mem_map_of_mem (mem_erase_of_ne same inList)
  spare := by
    rw [freelist]
    exact rep.spare.congr links
  lateDelay := lateDelay.trans rep.lateDelay
  firmwareErrors := errors.trans rep.firmwareErrors

theorem remove (rep : Represents q a) (enough : a.pending.length < steps) :
    ∃ q', q.remove steps r = some q' ∧ Represents q' (a.remove r) := by
  unfold EventQueue.remove
  by_cases scheduled : r ∈ a.keys
  swap
  · simp only [rep.idle r scheduled, ↓reduceIte]
    exact ⟨q, rfl, by rwa [Agenda.remove_of_notMem scheduled]⟩
  simp only [rep.action_isSet.mpr scheduled, Bool.true_eq_false, ↓reduceIte]
  have unspent : ∀ s ∈ a.free, s ∉ a.keys := a.apart
  obtain ⟨e, member, rfl⟩ := List.mem_map.mp scheduled
  obtain ⟨before, after, shape⟩ := List.append_of_mem member
  have linked := rep.linked
  have distinct := a.distinct
  rw [shape] at distinct
  have left : (a.remove e.key).keys = before.map Entry.key ++ after.map Entry.key := by
    simp [Agenda.keys, Agenda.remove, shape, erase_split distinct]
  cases before with
  | nil =>
    simp only [Agenda.keys, shape, List.nil_append, List.map_cons] at linked
    obtain ⟨head, behind⟩ := linked
    have alone := (List.nodup_cons.mp distinct).1
    simp only [head, ↓reduceIte]
    refine ⟨_, rfl, rep.strike ?_ ?_ rfl ?_ rfl rfl⟩
    · rw [left]
      simpa using behind.update alone none
    · intro s spare
      have other : s ≠ e.key := fun same => unspent s spare (same ▸ scheduled)
      simp [other]
    · intro s
      by_cases same : s = e.key <;> simp [EventQueue.memory_unschedule, same]
  | cons first before =>
    simp only [Agenda.keys, shape, List.map_append, List.map_cons, List.cons_append] at linked
    have once := linked.nodup
    obtain ⟨head, behind⟩ := linked
    have different : e.key ≠ first.key := fun same => by simp [same] at once
    have absent : e.key ∉ before.map Entry.key := fun inFront =>
      List.disjoint_of_nodup_append (List.nodup_cons.mp once).2 inFront (by simp)
    simp only [head, different, ↓reduceIte]
    obtain ⟨front, last, whole, found⟩ := @EventQueue.findElement_spec _ _ _ _ _ steps behind
      (by simp [shape] at enough ⊢; omega) absent
    have chain : Linked q.next (some first.key)
        (first.key :: (before.map Entry.key ++ e.key :: after.map Entry.key)) := ⟨rfl, behind⟩
    rw [← List.cons_append, whole, List.append_assoc, List.singleton_append] at chain
    have isHead : q.head = some first.key := head
    simp only [found, Option.bind_eq_bind, Option.bind_some]
    refine ⟨_, rfl, rep.strike ?_ ?_ rfl ?_ rfl rfl⟩
    · rw [left, List.map_cons, whole, List.append_assoc, List.singleton_append]
      simpa [isHead] using chain.unlinkAfter chain.nodup
    · intro s spare
      have other : s ≠ e.key := fun same => unspent s spare (same ▸ scheduled)
      have inList : last ∈ a.keys := by
        have : last ∈ first.key :: before.map Entry.key := by simp [whole]
        simp only [Agenda.keys, shape, List.map_append, List.map_cons]
        exact List.mem_append_left _ this
      have apart : s ≠ last := fun same => unspent s spare (same ▸ inList)
      simp [other, apart]
    · intro s
      by_cases same : s = e.key <;> simp [EventQueue.memory_unschedule, same]

theorem reclaim (rep : Represents q a) (struck : r ∉ a.keys) (taken : r ∉ a.free) :
    Represents (q.tryReturnScheduling r) (a.reclaim r struck taken) := by
  cases r with
  | owned id => exact rep
  | pool slot =>
    refine ⟨?_, ?_, ?_, ?_, rep.lateDelay, rep.firmwareErrors⟩
    · simpa [EventQueue.tryReturnScheduling, Agenda.keys, Agenda.reclaim] using
        rep.linked.update struck _
    · intro e member
      simpa [EventQueue.tryReturnScheduling] using rep.stored e member
    · intro s absent
      simpa [EventQueue.tryReturnScheduling] using rep.idle s absent
    · refine ⟨rfl, ?_⟩
      simpa [EventQueue.tryReturnScheduling] using rep.spare.update taken _

theorem takeDue_none (rep : Represents q a) (idle : a.takeDue now = none) :
    q.takeDue now = none := by
  cases shape : a.pending with
  | nil =>
    have empty : q.head = none := by simpa [Agenda.keys, shape] using rep.linked
    simp [EventQueue.takeDue, empty]
  | cons first rest =>
    rw [Agenda.takeDue_cons shape] at idle
    have linked := rep.linked
    simp only [Agenda.keys, shape, List.map_cons] at linked
    have time := (rep.stored first (by simp [shape])).1
    have late : first.time > now + a.lateDelay := by
      by_contra early
      simp [early] at idle
    simp [EventQueue.takeDue, linked.1, time, rep.lateDelay, late]

theorem takeDue_some (rep : Represents q a) (due : a.takeDue now = some (e, a')) :
    ∃ q', q.takeDue now = some (e.payload, q') ∧ Represents q' a' := by
  cases shape : a.pending with
  | nil => simp [Agenda.takeDue_nil shape] at due
  | cons first rest =>
    rw [Agenda.takeDue_cons shape] at due
    split at due
    · contradiction
    rename_i early
    simp only [Option.some.injEq, Prod.mk.injEq] at due
    obtain ⟨rfl, rfl⟩ := due
    have linked := rep.linked
    simp only [Agenda.keys, shape, List.map_cons] at linked
    have alone := (List.nodup_cons.mp linked.nodup).1
    obtain ⟨head, behind⟩ := linked
    obtain ⟨time, payload⟩ := rep.stored first (by simp [shape])
    have unspent : ∀ s ∈ a.free, s ≠ first.key := by
      intro s member same
      exact a.apart s member (by simp [shape, same])
    have struck : Represents ((q.setHead (q.next first.key)).unschedule first.key)
        (a.remove first.key) := by
      refine rep.strike ?_ ?_ rfl ?_ rfl rfl
      · rw [Agenda.keys, Agenda.remove_pending_head shape]
        simpa using behind.update alone none
      · intro s member
        simp [unspent s member]
      · intro s
        by_cases same : s = first.key <;> simp [EventQueue.memory_unschedule, same]
    have notLate : ¬(q.memory first.key).momentX > now + q.lateDelay := by
      rwa [time, rep.lateDelay]
    refine ⟨_, ?_, struck.reclaim _ _⟩
    simp [EventQueue.takeDue, head, notLate, payload]

/-- The loop of `clear` empties the pending chain and resets every record on it. -/
theorem clear_spec (linked : Linked q.next q.head l) (enough : l.length < steps) :
    ∃ q', q.clear steps = some q' ∧ q'.head = none ∧ q'.freelist = q.freelist ∧
      q'.lateDelay = q.lateDelay ∧ q'.firmwareErrors = q.firmwareErrors ∧
      ∀ s, (s ∈ l → q'.memory s = {}) ∧ (s ∉ l → q'.memory s = q.memory s) := by
  induction l generalizing q steps with
  | nil =>
    obtain ⟨steps, rfl⟩ := Nat.exists_eq_succ_of_ne_zero (Nat.ne_zero_of_lt enough)
    have empty : q.head = none := linked
    exact ⟨q, by simp [EventQueue.clear, empty], empty, rfl, rfl, rfl, by simp⟩
  | cons r l ih =>
    obtain ⟨steps, rfl⟩ := Nat.exists_eq_succ_of_ne_zero (Nat.ne_zero_of_lt enough)
    have alone := (List.nodup_cons.mp linked.nodup).1
    obtain ⟨head, behind⟩ := linked
    let q₁ := ((q.setHead (q.next r)).unschedule r).modify r ({ · with momentX := 0 })
    have links : ∀ s ∈ l, q₁.next s = q.next s := by
      intro s member
      have other : s ≠ r := fun same => alone (same ▸ member)
      simp [q₁, EventQueue.next_modify, other]
    have reset : ∀ s, q₁.memory s = if s = r then {} else q.memory s := by
      intro s
      by_cases same : s = r <;>
        simp [q₁, EventQueue.memory_modify, EventQueue.memory_unschedule, same]
    obtain ⟨q', run, empty, freelist, lateDelay, errors, data⟩ :=
      @ih q₁ steps (behind.congr links) (by simpa using enough)
    refine ⟨q', by simpa [EventQueue.clear, head] using run, empty, freelist, lateDelay, errors, ?_⟩
    intro s
    by_cases same : s = r
    · subst same
      simp [(data s).2 alone, reset]
    · simp only [List.mem_cons, same, false_or]
      exact ⟨(data s).1, fun absent => by simp [(data s).2 absent, reset, same]⟩

theorem clear (rep : Represents q a) (enough : a.pending.length < steps) :
    ∃ q', q.clear steps = some q' ∧ Represents q' a.clear := by
  obtain ⟨q', run, empty, freelist, lateDelay, errors, data⟩ :=
    @clear_spec _ _ steps rep.linked (by simpa [Agenda.keys] using enough)
  refine ⟨q', run, ⟨by simpa [Agenda.clear, Agenda.keys] using empty, by simp [Agenda.clear], ?_, ?_,
    lateDelay.trans rep.lateDelay, errors.trans rep.firmwareErrors⟩⟩
  · intro s _
    by_cases pending : s ∈ a.keys
    · simp [(data s).1 pending, Action.isSet]
    · rw [(data s).2 pending]
      exact rep.idle s pending
  · rw [freelist]
    refine rep.spare.congr (fun s member => ?_)
    simp only [EventQueue.next, (data s).2 (a.apart s member)]

/-- Handing back a list of pool records puts them on the free list, the last one first. -/
theorem tryReturn_all (slots : List (Fin poolSize)) (once : (slots.map Ref.pool).Nodup)
    (spare : Linked q.next q.freelist l) (apart : ∀ slot ∈ slots, .pool slot ∉ l)
    (clean : ∀ s, (q.memory s).action = {}) :
    let q' := slots.foldl (fun q slot => q.tryReturnScheduling (.pool slot)) q
    Linked q'.next q'.freelist ((slots.map Ref.pool).reverse ++ l) ∧ q'.head = q.head ∧
      q'.lateDelay = q.lateDelay ∧ q'.firmwareErrors = q.firmwareErrors ∧
      ∀ s, (q'.memory s).action = {} := by
  induction slots generalizing q l with
  | nil => exact ⟨spare, rfl, rfl, rfl, clean⟩
  | cons slot slots ih =>
    rw [List.map_cons, List.nodup_cons] at once
    have grown : Linked (q.tryReturnScheduling (.pool slot)).next
        (q.tryReturnScheduling (.pool slot)).freelist (.pool slot :: l) := by
      refine ⟨rfl, ?_⟩
      simpa [EventQueue.tryReturnScheduling] using spare.update (apart slot (by simp)) _
    have step := ih (q := q.tryReturnScheduling (.pool slot)) once.2 grown ?_ ?_
    · rw [List.map_cons, List.reverse_cons, List.append_assoc]
      exact step
    · intro other member
      simp only [List.mem_cons, not_or]
      refine ⟨fun same => once.1 (same ▸ List.mem_map_of_mem member), apart other (by simp [member])⟩
    · intro s
      simpa [EventQueue.tryReturnScheduling] using clean s

theorem construct (lateDelay : Tick) :
    Represents (EventQueue.construct lateDelay) (Agenda.fresh lateDelay) := by
  obtain ⟨spare, head, late, errors, clean⟩ :=
    tryReturn_all (q := { memory := fun _ => {}, lateDelay }) (l := []) (List.finRange poolSize)
      ((List.nodup_finRange poolSize).map (fun _ _ => Ref.pool.inj)) rfl (by simp) (fun _ => rfl)
  refine ⟨head, by simp [Agenda.fresh], ?_, ?_, late, errors⟩
  · intro s _
    simp only [EventQueue.construct, clean s, Action.isSet]
    rfl
  · simpa [EventQueue.construct, Agenda.fresh] using spare

theorem getNextEventTime (rep : Represents q a) :
    q.getNextEventTime nowX = a.getNextEventTime nowX := by
  unfold EventQueue.getNextEventTime Agenda.getNextEventTime
  have linked := rep.linked
  cases shape : a.pending with
  | nil =>
    have empty : q.head = none := by simpa [Agenda.keys, shape] using linked
    simp [empty]
  | cons first rest =>
    simp only [Agenda.keys, shape, List.map_cons] at linked
    simp only [linked.1, (rep.stored first (by simp [shape])).1, rep.lateDelay]

/-- The order check never fires. -/
theorem assertListIsSorted (rep : Represents q a) (enough : a.pending.length < steps) :
    q.assertListIsSorted steps q.head = some true := by
  have ordered : ∀ (l : List Appointment) (start : Option Ref) (steps : Nat), Sorted l →
      Linked q.next start (l.map Entry.key) → (∀ e ∈ l, (q.memory e.key).momentX = e.time) →
      l.length < steps → q.assertListIsSorted steps start = some true := by
    intro l
    induction l with
    | nil =>
      intro start steps _ linked _ enough
      obtain ⟨steps, rfl⟩ := Nat.exists_eq_succ_of_ne_zero (Nat.ne_zero_of_lt enough)
      obtain rfl : start = none := linked
      rfl
    | cons e l ih =>
      intro start steps sorted linked stored enough
      obtain ⟨steps, rfl⟩ := Nat.exists_eq_succ_of_ne_zero (Nat.ne_zero_of_lt enough)
      obtain ⟨rfl, behind⟩ := linked
      obtain ⟨least, rest⟩ := List.pairwise_cons.mp sorted
      have later := ih (q.next e.key) steps rest behind
        (fun b member => stored b (by simp [member])) (by simpa using enough)
      cases l with
      | nil =>
        have ends : q.next e.key = none := behind
        simp [EventQueue.assertListIsSorted, ends]
      | cons b l =>
        have follows : q.next e.key = some b.key := behind.1
        rw [follows] at later
        simp only [EventQueue.assertListIsSorted, follows, stored e (by simp),
          stored b (by simp), least b (by simp), ↓reduceIte]
        exact later
  exact ordered a.pending q.head steps a.sorted rep.linked
    (fun e member => (rep.stored e member).1) enough

end Represents
end FomeFw.Timer
