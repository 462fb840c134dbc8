import FomeFw.Timer.EventQueueRuns

/-! The order of events with the same time. A later event of its time stays behind the head,
but it passes the ones that wait there: the loop that looks for the place of a new event
stops in front of the first one that is not earlier. -/
namespace FomeFw.Timer
open Chain TimedQueue Machine

/-- The accepted insertions that have run, in the order in which they ran. -/
def Config.ran (c : Config) : List Receipt :=
  (c.departed.filter (·.2.isExecuted)).map Prod.fst

/-- Of two events with the same time the first has the lower number. -/
def Receipt.InTurn (a b : Receipt) : Prop := a.momentX = b.momentX → a.ticket < b.ticket

instance : DecidableRel Receipt.InTurn :=
  fun a b => inferInstanceAs (Decidable (a.momentX = b.momentX → a.ticket < b.ticket))

/-- Of two events with one time the one inserted first runs first: among the events that have
run and those still on the list, which runs from its head. -/
structure ExecutesInOrder (c : Config) : Prop where
  executed : c.ran.map Receipt.action = c.executed
  order : ∃ pending, Linked c.queue.next c.queue.head pending ∧
    (c.ran ++ pending.map c.receipt).Pairwise Receipt.InTurn

/-- No event that waits behind the head has the time of one that is inserted. -/
def KeepsOrder (c : Config) : Event → Prop
  | .call (.insertTask scheduling timeX action) =>
    c.queue.admits (scheduling.map .owned) action ≠ none →
      ∀ r, (c.queue.memory r).action.isSet = true → c.queue.head ≠ some r →
        (c.queue.memory r).momentX ≠ timeX
  | _ => True

theorem Represents.pending_unique {q : EventQueue} {a a' : Agenda} (rep : Represents q a)
    (rep' : Represents q a') : a.pending = a'.pending := by
  have keys : a.keys = a'.keys := linked_unique rep.linked rep'.linked
  have entry : ∀ b : Agenda, Represents q b → b.pending =
      b.keys.map fun r => ⟨r, (q.memory r).momentX, (q.memory r).action⟩ := by
    intro b repb
    rw [Agenda.keys, List.map_map, ← List.map_id b.pending, List.map_map]
    refine List.map_congr_left (fun e member => ?_)
    obtain ⟨time, payload⟩ := repb.stored e (by simpa using member)
    simp [time, payload]
  rw [entry a rep, entry a' rep', keys]

namespace Accounts
variable {c c' : Config} {a a' : Agenda} {lateDelay : Tick}

/-- The events that have run, then the pending ones. -/
def lineup (c : Config) (a : Agenda) : List Receipt := c.ran ++ a.pending.map (stub c.tickets)

theorem executesInOrder_iff (acc : Accounts lateDelay c a) :
    ExecutesInOrder c ↔ (lineup c a).Pairwise Receipt.InTurn := by
  have listed : a.keys.map c.receipt = a.pending.map (stub c.tickets) := by
    rw [Agenda.keys, List.map_map]
    exact List.map_congr_left (fun e pending => acc.receipt pending)
  constructor
  · rintro ⟨-, pending, linked, ordered⟩
    obtain rfl := linked_unique linked acc.represents.linked
    rwa [listed] at ordered
  · intro ordered
    constructor
    · rw [Config.ran, List.map_map]
      exact acc.executed
    · refine ⟨a.keys, acc.represents.linked, ?_⟩
      rwa [listed]

/-- Whatever ran or is pending has a number given out before. -/
theorem ticket_lt (acc : Accounts lateDelay c a) (member : b ∈ lineup c a) :
    b.ticket < c.accepted.length := by
  have entered : b ∈ c.accepted := by
    rw [acc.balance.mem_iff]
    rcases List.mem_append.mp member with ran | pending
    · obtain ⟨d, departed, rfl⟩ := List.mem_map.mp ran
      exact List.mem_append_left _ (List.mem_map_of_mem (List.mem_of_mem_filter departed))
    · exact List.mem_append_right _ pending
  have numbered := List.mem_map_of_mem (f := Receipt.ticket) entered
  rw [acc.numbered] at numbered
  exact List.mem_range.mp numbered

/-- A refused insertion changes nothing; an accepted one enters with the next number. -/
theorem lineup_insertTask (acc : Accounts lateDelay c a) (enough : a.pending.length < steps)
    (taken : c.insertTask steps (owner.map .owned) timeX action = some c')
    (acc' : Accounts lateDelay c' a') :
    c'.ran = c.ran ∧
      match a.admits owner action with
      | none => c'.tickets = c.tickets ∧ a'.pending = a.pending
      | some r => c'.tickets = Function.update c.tickets r c.accepted.length ∧
          a'.pending = TimedQueue.insert ⟨r, timeX, action⟩ a.pending := by
  obtain ⟨q', inserted, rep⟩ := @Represents.insertTask _ _ _ timeX action owner acc.represents enough
  have pending := a.insertTask_pending owner timeX action
  simp only [Config.insertTask, inserted, Option.bind_eq_bind, Option.bind_some,
    acc.represents.admits] at taken
  cases admitted : a.admits owner action with
  | none =>
    simp only [admitted, Option.some.injEq] at taken pending
    subst taken
    exact ⟨rfl, rfl, (acc'.represents.pending_unique rep).trans pending⟩
  | some r =>
    simp only [admitted, Option.some.injEq] at taken pending
    subst taken
    exact ⟨rfl, rfl, (acc'.represents.pending_unique rep).trans pending⟩

/-- Only an execution adds to what has run. -/
theorem ran_depart {records : List Ref} {cause : Cause}
    (departed : c'.departed = (c.depart records cause).departed) :
    c'.ran = c.ran ++ if cause.isExecuted then records.map c.receipt else [] := by
  rw [Config.ran, departed]
  cases cause <;>
    simp [Config.ran, Config.depart, List.filter_map, Cause.isExecuted, Function.comp_def]

theorem lineup_remove (acc : Accounts lateDelay c a) (enough : a.pending.length < steps)
    (taken : c.remove steps r = some c') (acc' : Accounts lateDelay c' a') :
    (lineup c' a').Sublist (lineup c a) := by
  obtain ⟨q', removed, rep⟩ := acc.represents.remove (r := r) enough
  simp only [Config.remove, removed, Option.bind_eq_bind, Option.bind_some] at taken
  have fewer : a'.pending.Sublist a.pending := by
    have same : c'.queue = q' := by
      split at taken
      · exact (Option.some.inj taken) ▸ rfl
      · exact (Option.some.inj taken) ▸ rfl
    rw [acc'.represents.pending_unique (same ▸ rep)]
    exact erase_sublist r a.pending
  have kept : c'.ran = c.ran ∧ c'.tickets = c.tickets := by
    split at taken
    · obtain rfl := Option.some.inj taken
      exact ⟨(@ran_depart c _ [r] .removed rfl).trans (List.append_nil _), rfl⟩
    · obtain rfl := Option.some.inj taken
      exact ⟨rfl, rfl⟩
  rw [lineup, kept.1, kept.2]
  exact (fewer.map _).append_left _

theorem lineup_clear (acc : Accounts lateDelay c a) (enough : a.pending.length < steps)
    (taken : c.clear steps = some c') (acc' : Accounts lateDelay c' a') :
    (lineup c' a').Sublist (lineup c a) := by
  obtain ⟨q', cleared, rep⟩ := acc.represents.clear enough
  simp only [Config.clear, cleared, Option.bind_eq_bind, Option.bind_some, Option.some.injEq] at taken
  have nothing : a'.pending = [] := by
    subst taken
    exact acc'.represents.pending_unique rep
  have kept : c'.ran = c.ran := by
    subst taken
    exact (@ran_depart c _ _ .cleared rfl).trans (List.append_nil _)
  rw [lineup, nothing, kept]
  exact (List.nil_sublist _).append_left _

/-- The event that runs goes from the first place behind the ones that have run to the last
place among them. -/
theorem lineup_execute (acc : Accounts lateDelay c a) (now : Tick) (frame : Frame)
    {otherwise : Config} (same : otherwise.ran = c.ran) (tickets : otherwise.tickets = c.tickets)
    (queue : otherwise.queue = c.queue)
    (acc' : Accounts lateDelay (c.execute now frame otherwise) a') :
    lineup (c.execute now frame otherwise) a' = lineup c a := by
  unfold Config.execute at acc' ⊢
  cases due : a.takeDue now with
  | none =>
    rw [acc.represents.takeDue_none due] at acc' ⊢
    have kept := acc'.represents.pending_unique (queue ▸ acc.represents)
    simp only [lineup, same, tickets, kept]
  | some taken =>
    obtain ⟨e, b⟩ := taken
    obtain ⟨q', taken, rep⟩ := acc.represents.takeDue_some due
    obtain ⟨rest, shape, -, rfl⟩ := Agenda.takeDue_some due
    have head : c.queue.head = some e.key := by
      simpa [Agenda.keys, shape] using acc.represents.linked.start_eq
    have left : (a.begin e (by simp [shape])).pending = rest := Agenda.remove_pending_head shape
    rw [taken] at acc' ⊢
    have behind := (acc'.represents.pending_unique rep).trans left
    simp only [lineup, behind, shape, List.map_cons]
    refine (congrArg (· ++ _) (@ran_depart c _ c.queue.head.toList (.executed now) rfl)).trans ?_
    simp [head, Cause.isExecuted, Config.depart, acc.receipt (e := e) (by simp [shape])]

theorem lineup_executeAll (acc : Accounts lateDelay c a) (now : Tick) (executionCounter : Nat)
    (acc' : Accounts lateDelay (c.executeAll now executionCounter) a') :
    lineup (c.executeAll now executionCounter) a' = lineup c a :=
  acc.lineup_execute now _ rfl rfl rfl acc'

theorem lineup_callbackReturns (acc : Accounts lateDelay c a)
    (acc' : Accounts lateDelay c.callbackReturns a') :
    lineup c.callbackReturns a' = lineup c a := by
  unfold Config.callbackReturns at acc' ⊢
  split at acc' <;> rename_i stacked
  · rw [lineup, lineup, acc'.represents.pending_unique acc.represents]
  · have same := acc'.represents.pending_unique acc.represents
    simp only [lineup, same]
    rfl
  · next now executionCounter stack =>
    have returned : Accounts lateDelay { c with stack } a := acc.frames stack c.executionCounts
    exact returned.lineup_executeAll now (executionCounter + 1) acc'

/-- A new event stands in its turn unless one behind the head has its time. -/
theorem inTurn_insert_iff (acc : Accounts lateDelay c a)
    (ordered : (lineup c a).Pairwise Receipt.InTurn) (fresh : r ∉ a.keys) (ran : c'.ran = c.ran)
    (tickets : c'.tickets = Function.update c.tickets r c.accepted.length)
    (entered : a'.pending = TimedQueue.insert ⟨r, timeX, action⟩ a.pending) :
    (lineup c' a').Pairwise Receipt.InTurn ↔ ∀ s ∈ a.pending.tail, s.time ≠ timeX := by
  let rank (e : Appointment) : Nat := c'.tickets e.key
  have own : rank ⟨r, timeX, action⟩ = c.accepted.length := by simp [rank, tickets]
  have others : ∀ s ∈ a.pending, rank s = c.tickets s.key := by
    intro s member
    have other : s.key ≠ r := fun same => fresh (same ▸ List.mem_map_of_mem member)
    simp [rank, tickets, other]
  obtain ⟨before, pending, cross⟩ := List.pairwise_append.mp ordered
  have waiting : InOrder rank a.pending := by
    refine (List.pairwise_map.mp pending).imp_of_mem ?_
    intro s t first second turn same
    rw [others s first, others t second]
    exact turn same
  have latest : ∀ s ∈ a.pending, rank s < rank ⟨r, timeX, action⟩ := by
    intro s member
    rw [own, others s member]
    exact acc.ticket_lt (List.mem_append_right _ (List.mem_map_of_mem member))
  rw [← insert_inOrder_iff (e := ⟨r, timeX, action⟩) a.sorted latest waiting, lineup, ran, entered,
    List.pairwise_append, List.pairwise_map]
  constructor
  · rintro ⟨-, all, -⟩
    exact all
  · intro all
    refine ⟨before, all, ?_⟩
    intro b done s member same
    obtain ⟨e, listed, rfl⟩ := List.mem_map.mp member
    rcases List.mem_cons.mp ((insert_perm _ _).mem_iff.mp listed) with rfl | old
    · exact (acc.ticket_lt (List.mem_append_left _ done)).trans_eq own.symm
    · exact (cross b done _ (List.mem_map_of_mem old) same).trans_eq (others e old).symm

/-- The condition in terms of the agenda. -/
theorem keepsOrder_insert_iff (acc : Accounts lateDelay c a) :
    KeepsOrder c (.call (.insertTask scheduling timeX action)) ↔
      (a.admits scheduling action ≠ none → ∀ s ∈ a.pending.tail, s.time ≠ timeX) := by
  simp only [KeepsOrder, acc.represents.admits]
  refine imp_congr_right fun _ => ?_
  have distinct := a.distinct
  have head : c.queue.head = a.keys.head? := acc.represents.linked.start_eq
  constructor
  · intro kept s behind same
    have member := List.mem_of_mem_tail behind
    refine kept s.key (acc.represents.action_isSet.mpr (List.mem_map_of_mem member)) ?_ ?_
    · intro first
      cases shape : a.pending with
      | nil => simp [shape] at member
      | cons e rest =>
        rw [shape] at behind distinct
        rw [head, Agenda.keys, shape] at first
        have twice : e.key ∈ rest.map Entry.key := by
          rw [Option.some.inj first]
          exact List.mem_map_of_mem behind
        exact (List.nodup_cons.mp distinct).1 twice
    · exact (acc.represents.stored s member).1.trans same
  · intro apart r set notFirst same
    obtain ⟨s, member, rfl⟩ := List.mem_map.mp (acc.represents.action_isSet.mp set)
    rw [(acc.represents.stored s member).1] at same
    cases shape : a.pending with
    | nil => simp [shape] at member
    | cons e rest =>
      rw [shape] at member apart
      rcases List.mem_cons.mp member with rfl | behind
      · exact notFirst (by rw [head, Agenda.keys, shape]; rfl)
      · exact apart s behind same

/-- The condition is what a step needs to keep the events in their turn. -/
theorem inTurn_step_iff (acc : Accounts lateDelay c a) (enough : a.pending.length < steps)
    (ordered : (lineup c a).Pairwise Receipt.InTurn) (taken : c.step steps e = some c')
    (acc' : Accounts lateDelay c' a') :
    (lineup c' a').Pairwise Receipt.InTurn ↔ KeepsOrder c e := by
  cases e with
  | call operation =>
    cases operation with
    | insertTask scheduling timeX action =>
      obtain ⟨ran, effect⟩ := acc.lineup_insertTask enough taken acc'
      rw [acc.keepsOrder_insert_iff]
      cases admitted : a.admits scheduling action with
      | none =>
        rw [admitted] at effect
        refine iff_of_true ?_ (by simp)
        rwa [lineup, ran, effect.1, effect.2]
      | some r =>
        rw [admitted] at effect
        rw [acc.inTurn_insert_iff ordered (Agenda.admits_fresh admitted) ran effect.1 effect.2]
        simp
    | remove scheduling =>
      exact iff_of_true (ordered.sublist (acc.lineup_remove enough taken acc')) trivial
    | clear =>
      exact iff_of_true (ordered.sublist (acc.lineup_clear enough taken acc')) trivial
    | executeOne now =>
      obtain rfl := Option.some.inj taken
      refine iff_of_true ?_ trivial
      rwa [acc.lineup_execute now .executeOne rfl rfl rfl acc']
    | executeAll now =>
      obtain rfl := Option.some.inj taken
      refine iff_of_true ?_ trivial
      rwa [acc.lineup_executeAll now 0 acc']
  | callbackReturns =>
    obtain rfl := Option.some.inj taken
    refine iff_of_true ?_ trivial
    rwa [acc.lineup_callbackReturns acc']

end Accounts

/-- Over a whole run, with callbacks that call the queue themselves, events with the same time
run in the order of their insertion just when no insertion meets an event of its time behind
the head. More iterations than events suffice for every loop. -/
theorem executesInOrder_iff_keepsOrder (lateDelay : Tick) (events : List Event) (extra : Nat) :
    Along (Config.step (events.length + 1 + extra)) ExecutesInOrder (.fresh lateDelay) events ↔
      Supervised (Config.step (events.length + 1 + extra)) KeepsOrder (.fresh lateDelay) events := by
  let steps := events.length + 1 + extra
  let Inv (n : Nat) (c : Config) : Prop :=
    ∃ a, Accounts lateDelay c a ∧ (Accounts.lineup c a).Pairwise Receipt.InTurn ∧
      a.pending.length + n < steps
  have start : Inv events.length (.fresh lateDelay) := by
    refine ⟨.fresh lateDelay, Accounts.fresh lateDelay, ?_, ?_⟩
    · simp [Accounts.lineup, Config.ran, Config.fresh, Agenda.fresh]
    · simp only [Agenda.fresh, List.length_nil, steps]
      omega
  apply @along_iff_supervised _ _ _ _ _ ExecutesInOrder KeepsOrder Inv _ _ _ start
  · rintro n c ⟨a, acc, ordered, -⟩
    exact acc.executesInOrder_iff.mpr ordered
  · rintro n c e guard ⟨a, acc, ordered, budget⟩
    have enough : a.pending.length < steps := by omega
    obtain ⟨c', a', taken, acc', short⟩ := acc.step enough e
    refine ⟨c', taken, a', acc', ?_, by omega⟩
    exact (acc.inTurn_step_iff enough ordered taken acc').mpr guard
  · rintro n c e c' ⟨a, acc, ordered, budget⟩ taken inOrder
    have enough : a.pending.length < steps := by omega
    obtain ⟨c₁, a', again, acc', -⟩ := acc.step enough e
    obtain rfl := Option.some.inj (again.symm.trans taken)
    exact (acc.inTurn_step_iff enough ordered taken acc').mp (acc'.executesInOrder_iff.mp inOrder)

/-- Three events inserted for one moment: the third runs before the second. -/
theorem third_executed_second :
    ∃ c, run (Config.step 10) (.fresh 0)
        [.call (.insertTask (some 0) 10 ⟨some 1, 0⟩), .call (.insertTask (some 1) 10 ⟨some 2, 0⟩),
          .call (.insertTask (some 2) 10 ⟨some 3, 0⟩), .call (.executeAll 10), .callbackReturns,
          .callbackReturns, .callbackReturns] = some c ∧
      c.accepted.map (fun b => (b.ticket, b.momentX)) = [(0, 10), (1, 10), (2, 10)] ∧
      c.executed = [⟨some 1, 0⟩, ⟨some 3, 0⟩, ⟨some 2, 0⟩] ∧ ¬ExecutesInOrder c := by
  refine ⟨_, rfl, rfl, rfl, ?_⟩
  rintro ⟨-, pending, -, ordered⟩
  have ran := (List.pairwise_append.mp ordered).1
  exact absurd ran (by decide)

end FomeFw.Timer
