import FomeFw.Timer.EventQueueRuns

/-! The pool of the event queue over whole runs. A record is given back where its event is
executed; the other ways off the list, and a refused insertion, keep it. -/
namespace FomeFw.Timer
open Chain TimedQueue Machine

/-- Every record of the pool is on one of the two lists, once; so with nothing pending all of
them are free. -/
structure PoolConserved (q : EventQueue) : Prop where
  once : ∃ pending free, Linked q.next q.head pending ∧ Linked q.next q.freelist free ∧
    ∀ slot, (pending ++ free).count (.pool slot) = 1
  refilled : q.head = none → ∃ free, Linked q.next q.freelist free ∧ ∀ slot, .pool slot ∈ free

/-- A record of the pool is not taken for an event without callback, nor removed, nor pending
when the queue is cleared. -/
def KeepsPool (c : Config) : Event → Prop
  | .call (.insertTask none _ action) => action.callback ≠ none ∨ c.queue.freelist = none
  | .call (.remove (.pool slot)) => (c.queue.memory (.pool slot)).action.isSet = false
  | .call .clear => ∀ slot, (c.queue.memory (.pool slot)).action.isSet = false
  | _ => True

/-- No record of the pool is missing. -/
def Agenda.Whole (a : Agenda) : Prop := ∀ slot, .pool slot ∈ a.keys ∨ .pool slot ∈ a.free

namespace Represents

variable {q : EventQueue} {a : Agenda}

theorem conserved_iff_whole (rep : Represents q a) : PoolConserved q ↔ a.Whole := by
  constructor
  · rintro ⟨⟨pending, free, linked, spare, once⟩, -⟩ slot
    obtain rfl := linked_unique linked rep.linked
    obtain rfl := linked_unique spare rep.spare
    have listed := List.count_pos_iff.mp ((once slot).symm ▸ Nat.one_pos)
    exact List.mem_append.mp listed
  · intro whole
    have apart : (a.keys ++ a.free).Nodup := by
      apply List.nodup_append.mpr
      refine ⟨a.distinct, a.spare, ?_⟩
      rintro r pending s free rfl
      exact a.apart r free pending
    constructor
    · refine ⟨a.keys, a.free, rep.linked, rep.spare, ?_⟩
      intro slot
      exact List.count_eq_one_of_mem apart (List.mem_append.mpr (whole slot))
    · intro empty
      refine ⟨a.free, rep.spare, ?_⟩
      intro slot
      have nothing : a.keys = [] := linked_unique rep.linked (empty ▸ rfl)
      rcases whole slot with pending | free
      · rw [nothing] at pending
        cases pending
      · exact free

end Represents

/-- What an event does to the agenda. -/
def Agenda.Follows (a : Agenda) : Event → Agenda → Prop
  | .call (.insertTask scheduling timeX action), a' => a' = (a.insertTask scheduling timeX action).2
  | .call (.remove scheduling), a' => a' = a.remove scheduling
  | .call .clear, a' => a' = a.clear
  | _, a' => a' = a ∨ ∃ e pending, a' = a.begin e pending

namespace Agenda

variable {a a' : Agenda}

theorem mem_keys_insertTask (a : Agenda) (owner : Option Nat) (timeX : Tick) (action : Action) :
    r ∈ (a.insertTask owner timeX action).2.keys ↔
      a.admits owner action = some r ∨ r ∈ a.keys := by
  rw [keys, insertTask_pending]
  cases admitted : a.admits owner action with
  | none => simp [keys]
  | some s =>
    rw [((insert_perm _ _).map Entry.key).mem_iff, List.map_cons, List.mem_cons, Option.some.injEq]
    exact or_congr_left eq_comm

theorem enroll_free (a : Agenda) (r : Ref) (taken : r ∉ a.free) (timeX : Tick) (action : Action) :
    (a.enroll r taken timeX action).2.free = a.free := by
  unfold enroll
  split
  · rfl
  · split <;> rfl

/-- An insertion keeps the pool unless it has taken a record for nothing. -/
theorem whole_insertTask (whole : a.Whole) (owner : Option Nat) (timeX : Tick) (action : Action) :
    (a.insertTask owner timeX action).2.Whole ↔
      (owner = none → action.callback ≠ none ∨ a.free = []) := by
  cases owner with
  | some id =>
    refine iff_of_true ?_ (by simp)
    intro slot
    rw [mem_keys_insertTask, insertTask, enroll_free]
    rcases whole slot with pending | free
    · exact .inl (.inr pending)
    · exact .inr free
  | none =>
    cases split : a.free with
    | nil =>
      rw [insertTask_exhausted split]
      exact iff_of_true whole (by simp)
    | cons r rest =>
      have once := a.spare
      rw [split, List.nodup_cons] at once
      have unused : r ∉ a.keys := a.apart r (by simp [split])
      have left : (a.insertTask none timeX action).2.free = rest := by
        rw [insertTask_pool split, enroll_free]
        rfl
      have admitted : a.admits none action = some r ↔ action.callback ≠ none := by
        simp [admits, split, Option.filter_some, unused]
      constructor
      · rintro whole' -
        obtain ⟨slot, rfl⟩ := a.pooled r (by simp [split])
        refine .inl (admitted.mp ?_)
        rcases whole' slot with pending | free
        · exact ((mem_keys_insertTask ..).mp pending).resolve_right unused
        · rw [left] at free
          exact absurd free once.1
      · intro allowed slot
        have runs := (allowed rfl).resolve_right (by simp)
        rw [mem_keys_insertTask, left]
        rcases whole slot with pending | free
        · exact .inl (.inr pending)
        · rw [split] at free
          rcases List.mem_cons.mp free with same | behind
          · rw [same]
            exact .inl (.inl (admitted.mpr runs))
          · exact .inr behind

theorem mem_keys_remove (a : Agenda) (r : Ref) : s ∈ (a.remove r).keys ↔ s ∈ a.keys ∧ s ≠ r := by
  constructor
  · intro kept
    refine ⟨((erase_sublist r a.pending).map Entry.key).subset kept, ?_⟩
    rintro rfl
    exact notMem_erase a.distinct kept
  · rintro ⟨pending, other⟩
    obtain ⟨e, member, rfl⟩ := List.mem_map.mp pending
    exact List.mem_map_of_mem (mem_erase_of_ne other member)

/-- A removal keeps the pool unless the record is the pool's. -/
theorem whole_remove (whole : a.Whole) (r : Ref) :
    (a.remove r).Whole ↔ ∀ slot, r = .pool slot → r ∉ a.keys := by
  constructor
  · rintro whole' slot rfl pending
    rcases whole' slot with kept | free
    · exact ((mem_keys_remove ..).mp kept).2 rfl
    · exact a.apart _ free pending
  · intro allowed slot
    rcases whole slot with pending | free
    · refine .inl ((mem_keys_remove ..).mpr ⟨pending, ?_⟩)
      intro same
      exact allowed slot same.symm (same ▸ pending)
    · exact .inr free

theorem whole_clear (whole : a.Whole) : a.clear.Whole ↔ ∀ slot, .pool slot ∉ a.keys := by
  constructor
  · intro whole' slot pending
    rcases whole' slot with kept | free
    · cases kept
    · exact a.apart _ free pending
  · intro unused slot
    exact .inr ((whole slot).resolve_left (unused slot))

theorem whole_begin (whole : a.Whole) (e : Appointment) (pending : e ∈ a.pending) :
    (a.begin e pending).Whole := by
  intro slot
  by_cases same : .pool slot = e.key
  · right
    simp [begin, reclaim, release, ← same]
  · rcases whole slot with waiting | free
    · left
      have kept := (mem_keys_remove a e.key).mpr ⟨waiting, same⟩
      simpa [begin, reclaim, keys] using kept
    · right
      cases own : e.key with
      | owned id => simpa [begin, reclaim, release, own, remove] using free
      | pool other => simpa [begin, reclaim, release, own, remove] using .inr free

theorem length_follows (follows : a.Follows e a') : a'.pending.length ≤ a.pending.length + 1 := by
  have fewer : ∀ r, (a.remove r).pending.length ≤ a.pending.length :=
    fun r => (erase_sublist r a.pending).length_le
  have begun : (a' = a ∨ ∃ e pending, a' = a.begin e pending) →
      a'.pending.length ≤ a.pending.length + 1 := by
    rintro (rfl | ⟨e, pending, rfl⟩)
    · omega
    · exact Nat.le_succ_of_le (fewer e.key)
  cases e with
  | callbackReturns => exact begun follows
  | call operation =>
    cases operation with
    | insertTask scheduling timeX action =>
      obtain rfl := follows
      exact a.insertTask_length scheduling timeX action
    | remove scheduling =>
      obtain rfl := follows
      exact Nat.le_succ_of_le (fewer scheduling)
    | clear =>
      obtain rfl := follows
      simp [clear]
    | executeOne now => exact begun follows
    | executeAll now => exact begun follows

end Agenda

namespace Represents

variable {c : Config} {a : Agenda}

/-- An execution runs the first event, or none. -/
theorem execute (rep : Represents c.queue a) (now : Tick) (frame : Frame) {otherwise : Config}
    (other : otherwise.queue = c.queue) :
    ∃ a', Represents (c.execute now frame otherwise).queue a' ∧
      (a' = a ∨ ∃ e pending, a' = a.begin e pending) := by
  unfold Config.execute
  cases due : a.takeDue now with
  | none =>
    rw [rep.takeDue_none due]
    exact ⟨a, other ▸ rep, .inl rfl⟩
  | some taken =>
    obtain ⟨e, a'⟩ := taken
    obtain ⟨q', taken, rep'⟩ := rep.takeDue_some due
    obtain ⟨rest, shape, -, rfl⟩ := Agenda.takeDue_some due
    rw [taken]
    exact ⟨_, rep', .inr ⟨e, _, rfl⟩⟩

theorem executeAll (rep : Represents c.queue a) (now : Tick) (executionCounter : Nat) :
    ∃ a', Represents (c.executeAll now executionCounter).queue a' ∧
      (a' = a ∨ ∃ e pending, a' = a.begin e pending) :=
  rep.execute now _ rfl

theorem callbackReturns (rep : Represents c.queue a) :
    ∃ a', Represents c.callbackReturns.queue a' ∧
      (a' = a ∨ ∃ e pending, a' = a.begin e pending) := by
  unfold Config.callbackReturns
  split
  · exact ⟨a, rep, .inl rfl⟩
  · exact ⟨a, rep, .inl rfl⟩
  · next now executionCounter stack _ =>
    have returned : Represents (Config.queue { c with stack }) a := rep
    exact returned.executeAll now (executionCounter + 1)

/-- Every event is handled, and the queue follows its agenda. -/
theorem step (rep : Represents c.queue a) (enough : a.pending.length < steps) (e : Event) :
    ∃ c' a', c.step steps e = some c' ∧ Represents c'.queue a' ∧ a.Follows e a' := by
  cases e with
  | call operation =>
    cases operation with
    | insertTask scheduling timeX action =>
      obtain ⟨q', inserted, rep'⟩ :=
        @Represents.insertTask _ _ _ timeX action scheduling rep enough
      simp only [Config.step, Config.insertTask, inserted, Option.bind_eq_bind, Option.bind_some]
      split
      · exact ⟨_, _, rfl, rep', rfl⟩
      · exact ⟨_, _, rfl, rep', rfl⟩
    | remove scheduling =>
      obtain ⟨q', removed, rep'⟩ := rep.remove (r := scheduling) enough
      simp only [Config.step, Config.remove, removed, Option.bind_eq_bind, Option.bind_some]
      split
      · exact ⟨_, _, rfl, rep', rfl⟩
      · exact ⟨_, _, rfl, rep', rfl⟩
    | clear =>
      obtain ⟨q', cleared, rep'⟩ := rep.clear enough
      simp only [Config.step, Config.clear, cleared, Option.bind_eq_bind, Option.bind_some]
      exact ⟨_, _, rfl, rep', rfl⟩
    | executeOne now =>
      obtain ⟨a', rep', follows⟩ := rep.execute now .executeOne rfl
      exact ⟨_, a', rfl, rep', follows⟩
    | executeAll now =>
      obtain ⟨a', rep', follows⟩ := rep.executeAll now 0
      exact ⟨_, a', rfl, rep', follows⟩
  | callbackReturns =>
    obtain ⟨a', rep', follows⟩ := rep.callbackReturns
    exact ⟨_, a', rfl, rep', follows⟩

/-- The condition is what the step needs to keep the pool whole. -/
theorem keepsPool_iff (rep : Represents c.queue a) (whole : a.Whole) (follows : a.Follows e a') :
    KeepsPool c e ↔ a'.Whole := by
  have begun : (a' = a ∨ ∃ e pending, a' = a.begin e pending) → a'.Whole := by
    rintro (rfl | ⟨e, pending, rfl⟩)
    · exact whole
    · exact a.whole_begin whole e pending
  have idle : ∀ r, (c.queue.memory r).action.isSet = false ↔ r ∉ a.keys := by
    intro r
    rw [← rep.action_isSet, Bool.not_eq_true]
  cases e with
  | callbackReturns => exact iff_of_true trivial (begun follows)
  | call operation =>
    cases operation with
    | insertTask scheduling timeX action =>
      obtain rfl := follows
      rw [a.whole_insertTask whole]
      cases scheduling with
      | some id => simp [KeepsPool]
      | none =>
        have none : c.queue.freelist = none ↔ a.free = [] := by
          rw [rep.spare.start_eq]
          cases a.free <;> simp
        simp only [KeepsPool, none, forall_const]
    | remove scheduling =>
      obtain rfl := follows
      rw [a.whole_remove whole]
      cases scheduling with
      | owned id => simp [KeepsPool]
      | pool slot => simp [KeepsPool, idle]
    | clear =>
      obtain rfl := follows
      rw [a.whole_clear whole]
      simp [KeepsPool, idle]
    | executeOne now => exact iff_of_true trivial (begun follows)
    | executeAll now => exact iff_of_true trivial (begun follows)

end Represents

theorem whole_fresh (lateDelay : Tick) : (Agenda.fresh lateDelay).Whole := by
  intro slot
  right
  simp [Agenda.fresh]

/-- Over a whole run, with callbacks that call the queue themselves, the pool is conserved
just when each step keeps it. More iterations than events suffice for every loop. -/
theorem poolConserved_iff (lateDelay : Tick) (events : List Event) (extra : Nat) :
    Along (Config.step (events.length + 1 + extra)) (fun c => PoolConserved c.queue)
        (.fresh lateDelay) events ↔
      Supervised (Config.step (events.length + 1 + extra)) KeepsPool (.fresh lateDelay) events := by
  let steps := events.length + 1 + extra
  let Inv (n : Nat) (c : Config) : Prop :=
    ∃ a : Agenda, Represents c.queue a ∧ a.Whole ∧ a.pending.length + n < steps
  have start : Inv events.length (.fresh lateDelay) := by
    refine ⟨.fresh lateDelay, Represents.construct lateDelay, whole_fresh lateDelay, ?_⟩
    simp only [Agenda.fresh, List.length_nil, steps]
    omega
  have holds : ∀ n c, Inv n c → PoolConserved c.queue := by
    rintro n c ⟨a, rep, whole, -⟩
    exact rep.conserved_iff_whole.mpr whole
  refine along_iff_supervised holds ?_ ?_ start
  · rintro n c e keeps ⟨a, rep, whole, budget⟩
    have enough : a.pending.length < steps := by omega
    obtain ⟨c', a', taken, rep', follows⟩ := rep.step enough e
    have longer := Agenda.length_follows follows
    exact ⟨c', taken, a', rep', (rep.keepsPool_iff whole follows).mp keeps, by omega⟩
  · rintro n c e c' ⟨a, rep, whole, budget⟩ taken conserved
    have enough : a.pending.length < steps := by omega
    obtain ⟨c₁, a', taken', rep', follows⟩ := rep.step enough e
    obtain rfl := Option.some.inj (taken.symm.trans taken')
    exact (rep.keepsPool_iff whole follows).mpr (rep'.conserved_iff_whole.mp conserved)

/-- An insertion without callback takes a record of the pool and keeps it. -/
theorem poolConserved_nullCallback :
    ¬ ∀ lateDelay events extra, Along (Config.step (events.length + 1 + extra))
      (fun c => PoolConserved c.queue) (.fresh lateDelay) events := by
  intro always
  obtain ⟨-, c', taken, rest⟩ := always 0 [.call (.insertTask none 0 {})] 0
  have rep : Represents (Config.fresh 0).queue (.fresh 0) := Represents.construct 0
  obtain ⟨c₁, a', taken', rep', follows⟩ :=
    rep.step (show (Agenda.fresh 0).pending.length < 2 by decide) (.call (.insertTask none 0 {}))
  obtain rfl := Option.some.inj (taken.symm.trans taken')
  have conserved := rep'.conserved_iff_whole.mp rest.start
  rcases (rep.keepsPool_iff (whole_fresh 0) follows).mpr conserved with runs | empty
  · exact runs rfl
  · have first := empty.symm.trans rep.spare.start_eq
    exact absurd first (by decide)

end FomeFw.Timer
