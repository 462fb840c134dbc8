import FomeFw.Lib.Machine
import FomeFw.Timer.EventQueueProofs

/-! Whole runs of the event queue. The environment calls the queue's operations in
any order, also from inside the callbacks that `executeOne` and `executeAll` run;
the frames of the suspended executions are kept on a stack. A ledger records
every accepted insertion and every departure from the list. -/
namespace FomeFw.Timer
open Chain TimedQueue

/-- The operations; `none` as the record asks `insertTask` to use one of the pool. -/
inductive Call where
  | insertTask (scheduling : Option Nat) (timeX : Tick) (action : Action)
  | remove (scheduling : Ref)
  | clear
  | executeOne (now : Tick)
  | executeAll (now : Tick)
  deriving DecidableEq, Repr

/-- Either something calls the queue, or the innermost running callback returns. -/
inductive Event where
  | call (c : Call)
  | callbackReturns
  deriving DecidableEq, Repr

/-- An execution suspended in `action.execute()`. -/
inductive Frame where
  | executeOne
  | executeAll (now : Tick) (executionCounter : Nat)
  deriving DecidableEq, Repr

/-- An accepted insertion, numbered in the order of acceptance. -/
structure Receipt where
  ticket : Nat
  record : Ref
  momentX : Tick
  action : Action
  deriving DecidableEq, Repr

inductive Cause where
  | executed (now : Tick)
  | removed
  | cleared
  deriving DecidableEq, Repr

def Cause.isExecuted : Cause → Bool
  | .executed _ => true
  | _ => false

structure Config where
  queue : EventQueue
  stack : List Frame := []
  /-- Results of the finished `executeAll` calls. -/
  executionCounts : List Nat := []
  accepted : List Receipt := []
  departed : List (Receipt × Cause) := []
  /-- Callbacks run so far. -/
  executed : List Action := []
  /-- The number of the latest accepted insertion of each record. -/
  tickets : Ref → Nat := fun _ => 0

namespace EventQueue

/-- The record an `insertTask` call enters, when none of its early returns is taken. -/
def admits (q : EventQueue) (scheduling : Option Ref) (action : Action) : Option Ref :=
  (scheduling.orElse fun _ => q.freelist).filter fun r =>
    decide (action.callback ≠ none) && !(q.memory r).action.isSet

/-- The records on the list that starts at a pointer. -/
def walk (q : EventQueue) : Nat → Option Ref → List Ref
  | 0, _ => []
  | _ + 1, none => []
  | steps + 1, some r => r :: q.walk steps (q.next r)

end EventQueue

namespace Config

def fresh (lateDelay : Tick) : Config := { queue := .construct lateDelay }

/-- What the memory says about a record. -/
def receipt (c : Config) (r : Ref) : Receipt :=
  ⟨c.tickets r, r, (c.queue.memory r).momentX, (c.queue.memory r).action⟩

def accept (c : Config) (r : Ref) (timeX : Tick) (action : Action) : Config :=
  { c with
    accepted := c.accepted ++ [⟨c.accepted.length, r, timeX, action⟩]
    tickets := Function.update c.tickets r c.accepted.length }

def depart (c : Config) (records : List Ref) (cause : Cause) : Config :=
  { c with departed := c.departed ++ records.map fun r => (c.receipt r, cause) }

@[simp] theorem executed_depart (c : Config) (records : List Ref) (cause : Cause) :
    (c.depart records cause).executed = c.executed := rfl

@[simp] theorem executionCounts_depart (c : Config) (records : List Ref) (cause : Cause) :
    (c.depart records cause).executionCounts = c.executionCounts := rfl

def insertTask (c : Config) (steps : Nat) (scheduling : Option Ref) (timeX : Tick)
    (action : Action) : Option Config := do
  let (_, queue) ← c.queue.insertTask steps scheduling timeX action
  match c.queue.admits scheduling action with
  | none => some { c with queue }
  | some r => some { c.accept r timeX action with queue }

def remove (c : Config) (steps : Nat) (scheduling : Ref) : Option Config := do
  let queue ← c.queue.remove steps scheduling
  if (c.queue.memory scheduling).action.isSet then
    some { c.depart [scheduling] .removed with queue }
  else some { c with queue }

def clear (c : Config) (steps : Nat) : Option Config := do
  let queue ← c.queue.clear steps
  some { c.depart (c.queue.walk steps c.queue.head) .cleared with queue }

/-- `executeOne` up to the callback, which runs under the given frame; the second
result is the configuration in which there was nothing to execute. -/
def execute (c : Config) (now : Tick) (frame : Frame) (otherwise : Config) : Config :=
  match c.queue.takeDue now with
  | none => otherwise
  | some (action, queue) =>
    { c.depart c.queue.head.toList (.executed now) with
      queue
      stack := frame :: c.stack
      executed := c.executed ++ [action] }

/-- The loop of `executeAll`. -/
def executeAll (c : Config) (now : Tick) (executionCounter : Nat) : Config :=
  c.execute now (.executeAll now executionCounter)
    { c with executionCounts := c.executionCounts ++ [executionCounter] }

/-- A return that matches no running callback changes nothing. -/
def callbackReturns (c : Config) : Config :=
  match c.stack with
  | [] => c
  | .executeOne :: stack => { c with stack }
  | .executeAll now executionCounter :: stack =>
    { c with stack }.executeAll now (executionCounter + 1)

def step (steps : Nat) (c : Config) : Event → Option Config
  | .call (.insertTask scheduling timeX action) =>
    c.insertTask steps (scheduling.map .owned) timeX action
  | .call (.remove scheduling) => c.remove steps scheduling
  | .call .clear => c.clear steps
  | .call (.executeOne now) => some (c.execute now .executeOne c)
  | .call (.executeAll now) => some (c.executeAll now 0)
  | .callbackReturns => some c.callbackReturns

end Config

/-- The list `l` of records behind the head is in order and agrees with the ledger:
each accepted insertion either is on it or has departed once, and no record ran
before its time. -/
structure Intact (lateDelay : Tick) (c : Config) (l : List Ref) : Prop where
  linked : Linked c.queue.next c.queue.head l
  nodup : l.Nodup
  sorted : l.Pairwise fun r s => (c.queue.memory r).momentX ≤ (c.queue.memory s).momentX
  scheduled : ∀ id, .owned id ∈ l ↔ (c.queue.memory (.owned id)).action.isSet = true
  balance : c.accepted.Perm (c.departed.map Prod.fst ++ l.map c.receipt)
  once : (c.accepted.map Receipt.ticket).Nodup
  executed : (c.departed.filter (·.2.isExecuted)).map (·.1.action) = c.executed
  punctual : ∀ d ∈ c.departed, ∀ now, d.2 = .executed now → d.1.momentX ≤ now + lateDelay

/-- The receipt that belongs to an appointment. -/
def stub (tickets : Ref → Nat) (e : Appointment) : Receipt := ⟨tickets e.key, e.key, e.time, e.payload⟩

/-- The ledger agrees with the agenda the queue represents. -/
structure Accounts (lateDelay : Tick) (c : Config) (a : Agenda) : Prop where
  represents : Represents c.queue a
  late : a.lateDelay = lateDelay
  balance : c.accepted.Perm (c.departed.map Prod.fst ++ a.pending.map (stub c.tickets))
  numbered : c.accepted.map Receipt.ticket = List.range c.accepted.length
  executed : (c.departed.filter (·.2.isExecuted)).map (·.1.action) = c.executed
  punctual : ∀ d ∈ c.departed, ∀ now, d.2 = .executed now → d.1.momentX ≤ now + lateDelay

theorem Represents.admits {q : EventQueue} {a : Agenda} (rep : Represents q a) (owner : Option Nat)
    (action : Action) : q.admits (owner.map .owned) action = a.admits owner action := by
  have test : ∀ r, (!(q.memory r).action.isSet) = decide (r ∉ a.keys) := by
    intro r
    by_cases pending : r ∈ a.keys
    · simp [pending, rep.action_isSet.mpr pending]
    · simp [pending, rep.idle r pending]
  simp only [EventQueue.admits, Agenda.admits, test, rep.spare.start_eq]

theorem EventQueue.walk_eq {q : EventQueue} (linked : Linked q.next start l)
    (enough : l.length < steps) : q.walk steps start = l := by
  induction l generalizing start steps with
  | nil =>
    obtain ⟨steps, rfl⟩ := Nat.exists_eq_succ_of_ne_zero (Nat.ne_zero_of_lt enough)
    obtain rfl : start = none := linked
    rfl
  | cons r l ih =>
    obtain ⟨steps, rfl⟩ := Nat.exists_eq_succ_of_ne_zero (Nat.ne_zero_of_lt enough)
    obtain ⟨rfl, rest⟩ := linked
    rw [EventQueue.walk, ih rest (by simpa using enough)]

namespace Accounts
variable {c : Config} {a a' : Agenda} {q' : EventQueue} {lateDelay : Tick}

theorem receipt (acc : Accounts lateDelay c a) (pending : e ∈ a.pending) :
    c.receipt e.key = stub c.tickets e := by
  obtain ⟨time, payload⟩ := acc.represents.stored e pending
  simp only [Config.receipt, stub, time, payload]

/-- Only the queue and the ledger are accounted for. -/
theorem frames (acc : Accounts lateDelay c a) (stack : List Frame) (executionCounts : List Nat) :
    Accounts lateDelay { c with stack, executionCounts } a :=
  ⟨acc.represents, acc.late, acc.balance, acc.numbered, acc.executed, acc.punctual⟩

theorem refuse (acc : Accounts lateDelay c a) (rep : Represents q' a')
    (late : a'.lateDelay = a.lateDelay) (same : a'.pending = a.pending) :
    Accounts lateDelay { c with queue := q' } a' :=
  ⟨rep, late.trans acc.late, same ▸ acc.balance, acc.numbered, acc.executed, acc.punctual⟩

theorem accept (acc : Accounts lateDelay c a) (rep : Represents q' a')
    (late : a'.lateDelay = a.lateDelay) (fresh : r ∉ a.keys)
    (entered : a'.pending = TimedQueue.insert ⟨r, timeX, action⟩ a.pending) :
    Accounts lateDelay { c.accept r timeX action with queue := q' } a' where
  represents := rep
  late := late.trans acc.late
  balance := by
    have others : a.pending.map (stub (Function.update c.tickets r c.accepted.length)) =
        a.pending.map (stub c.tickets) := by
      refine List.map_congr_left (fun e pending => ?_)
      have other : e.key ≠ r := fun same => fresh (same ▸ List.mem_map_of_mem pending)
      simp only [stub, Function.update_of_ne other]
    have grown := (insert_perm (⟨r, timeX, action⟩ : Appointment) a.pending).map
      (stub (Function.update c.tickets r c.accepted.length))
    rw [List.map_cons, others] at grown
    have entry : stub (Function.update c.tickets r c.accepted.length) ⟨r, timeX, action⟩ =
        ⟨c.accepted.length, r, timeX, action⟩ := by
      simp only [stub, Function.update_self]
    rw [entry] at grown
    simp only [Config.accept, entered]
    refine (List.perm_append_singleton _ c.accepted).trans ((acc.balance.cons _).trans ?_)
    exact List.perm_middle.symm.trans (grown.symm.append_left _)
  numbered := by
    simp [Config.accept, acc.numbered, List.range_succ]
  executed := acc.executed
  punctual := acc.punctual

/-- Appointments that go off the agenda depart for one cause. -/
theorem depart (acc : Accounts lateDelay c a) (rep : Represents q' a')
    (late : a'.lateDelay = a.lateDelay) (gone : List Appointment)
    (parts : a.pending.Perm (gone ++ a'.pending))
    (due : ∀ e ∈ gone, ∀ now, cause = .executed now → e.time ≤ now + lateDelay) :
    Accounts lateDelay { c.depart (gone.map Entry.key) cause with
      queue := q'
      executed := c.executed ++ if cause.isExecuted then gone.map Entry.payload else [] } a' := by
  have listed : (gone.map Entry.key).map (fun r => (c.receipt r, cause)) =
      gone.map (fun e => (stub c.tickets e, cause)) := by
    rw [List.map_map]
    refine List.map_congr_left (fun e member => ?_)
    have pending : e ∈ a.pending := parts.mem_iff.mpr (List.mem_append_left _ member)
    simp only [Function.comp_apply, acc.receipt pending]
  refine ⟨rep, late.trans acc.late, ?_, acc.numbered, ?_, ?_⟩
  · simp only [Config.depart, listed, List.map_append, List.map_map, List.append_assoc]
    refine acc.balance.trans (List.Perm.append_left _ ?_)
    simpa [Function.comp_def] using parts.map (stub c.tickets)
  · simp only [Config.depart, listed, List.filter_append, List.map_append, acc.executed]
    cases cause <;> simp [List.filter_map, Cause.isExecuted, stub, Function.comp_def]
  · simp only [Config.depart, listed, List.mem_append, List.mem_map]
    rintro d (member | ⟨e, member, rfl⟩) now executed
    · exact acc.punctual d member now executed
    · exact due e member now executed

theorem insertTask (acc : Accounts lateDelay c a) (owner : Option Nat) (enough : a.pending.length < steps) :
    ∃ c' a', c.insertTask steps (owner.map .owned) timeX action = some c' ∧
      Accounts lateDelay c' a' ∧ a'.pending.length ≤ a.pending.length + 1 := by
  obtain ⟨q', inserted, rep⟩ := @Represents.insertTask _ _ _ timeX action owner acc.represents enough
  have pending := a.insertTask_pending owner timeX action
  have late := a.insertTask_lateDelay owner timeX action
  have short := a.insertTask_length owner timeX action
  simp only [Config.insertTask, inserted, Option.bind_eq_bind, Option.bind_some,
    acc.represents.admits]
  cases admitted : a.admits owner action with
  | none =>
    simp only [admitted] at pending
    exact ⟨_, _, rfl, acc.refuse rep late pending, short⟩
  | some r =>
    simp only [admitted] at pending
    exact ⟨_, _, rfl, acc.accept rep late (Agenda.admits_fresh admitted) pending, short⟩

theorem remove (acc : Accounts lateDelay c a) (enough : a.pending.length < steps) :
    ∃ c' a', c.remove steps r = some c' ∧
      Accounts lateDelay c' a' ∧ a'.pending.length ≤ a.pending.length := by
  obtain ⟨q', removed, rep⟩ := acc.represents.remove (r := r) enough
  simp only [Config.remove, removed, Option.bind_eq_bind, Option.bind_some]
  have shorter : (a.remove r).pending.length ≤ a.pending.length :=
    (erase_sublist r a.pending).length_le
  by_cases scheduled : r ∈ a.keys
  · simp only [acc.represents.action_isSet.mpr scheduled, ↓reduceIte]
    obtain ⟨e, pending, rfl⟩ := List.mem_map.mp scheduled
    obtain ⟨before, after, shape⟩ := List.append_of_mem pending
    have left : (a.remove e.key).pending = before ++ after := by
      have distinct := a.distinct
      rw [shape] at distinct
      simp only [Agenda.remove, shape, erase_split distinct]
    have gone := @depart _ _ _ _ _ .removed acc rep rfl [e]
      (by rw [left, shape]; exact List.perm_middle) (by simp)
    exact ⟨_, _, rfl, by simpa [Cause.isExecuted] using gone, shorter⟩
  · simp only [acc.represents.idle r scheduled, Bool.false_eq_true, ↓reduceIte]
    refine ⟨_, _, rfl, acc.refuse rep rfl ?_, shorter⟩
    rw [Agenda.remove_of_notMem scheduled]

theorem clear (acc : Accounts lateDelay c a) (enough : a.pending.length < steps) :
    ∃ c' a', c.clear steps = some c' ∧
      Accounts lateDelay c' a' ∧ a'.pending.length ≤ a.pending.length := by
  obtain ⟨q', cleared, rep⟩ := acc.represents.clear enough
  have walked := @EventQueue.walk_eq _ _ steps _ acc.represents.linked
    (by simpa [Agenda.keys] using enough)
  have gone := @depart _ _ _ _ _ .cleared acc rep rfl a.pending (by simp [Agenda.clear]) (by simp)
  refine ⟨_, _, ?_, by simpa [Cause.isExecuted] using gone, by simp [Agenda.clear]⟩
  simp [Config.clear, cleared, walked, Agenda.keys]

/-- Running the first appointment, or nothing when it is not due. -/
theorem execute (acc : Accounts lateDelay c a) (now : Tick) (frame : Frame)
    (other : Accounts lateDelay otherwise a) :
    ∃ a', Accounts lateDelay (c.execute now frame otherwise) a' ∧
      a'.pending.length ≤ a.pending.length := by
  unfold Config.execute
  cases due : a.takeDue now with
  | none =>
    rw [acc.represents.takeDue_none due]
    exact ⟨a, other, le_refl _⟩
  | some taken =>
    obtain ⟨e, a'⟩ := taken
    obtain ⟨q', taken, rep⟩ := acc.represents.takeDue_some due
    obtain ⟨rest, shape, early, rfl⟩ := Agenda.takeDue_some due
    have head : c.queue.head = some e.key := by
      simpa [Agenda.keys, shape] using acc.represents.linked.start_eq
    have left : (a.begin e (by simp [shape])).pending = rest := Agenda.remove_pending_head shape
    have gone := @depart _ _ _ _ _ (.executed now) acc rep rfl [e] (by rw [left, shape]; rfl) (by
      intro b member moment same
      obtain rfl := List.mem_singleton.mp member
      obtain rfl := Cause.executed.inj same
      rw [← acc.late]
      exact early)
    rw [taken]
    refine ⟨_, ?_, by rw [left, shape]; simp⟩
    simpa [head, Cause.isExecuted] using gone.frames (frame :: c.stack) c.executionCounts

theorem executeAll (acc : Accounts lateDelay c a) (now : Tick) (executionCounter : Nat) :
    ∃ a', Accounts lateDelay (c.executeAll now executionCounter) a' ∧
      a'.pending.length ≤ a.pending.length :=
  acc.execute now _ (acc.frames _ _)

theorem callbackReturns (acc : Accounts lateDelay c a) :
    ∃ a', Accounts lateDelay c.callbackReturns a' ∧ a'.pending.length ≤ a.pending.length := by
  unfold Config.callbackReturns
  split
  · exact ⟨a, acc, le_refl _⟩
  · exact ⟨a, acc.frames _ _, le_refl _⟩
  · exact (acc.frames _ _).executeAll _ _

/-- Every event is handled, adds at most one appointment and keeps the accounts. -/
theorem step (acc : Accounts lateDelay c a) (enough : a.pending.length < steps) (e : Event) :
    ∃ c' a', c.step steps e = some c' ∧
      Accounts lateDelay c' a' ∧ a'.pending.length ≤ a.pending.length + 1 := by
  cases e with
  | call operation =>
    cases operation with
    | insertTask scheduling timeX action => exact acc.insertTask scheduling enough
    | remove scheduling =>
      obtain ⟨c', a', run, acc', short⟩ := acc.remove (r := scheduling) enough
      exact ⟨c', a', run, acc', by omega⟩
    | clear =>
      obtain ⟨c', a', run, acc', short⟩ := acc.clear enough
      exact ⟨c', a', run, acc', by omega⟩
    | executeOne now =>
      obtain ⟨a', acc', short⟩ := acc.execute now .executeOne acc
      exact ⟨_, a', rfl, acc', by omega⟩
    | executeAll now =>
      obtain ⟨a', acc', short⟩ := acc.executeAll now 0
      exact ⟨_, a', rfl, acc', by omega⟩
  | callbackReturns =>
    obtain ⟨a', acc', short⟩ := acc.callbackReturns
    exact ⟨_, a', rfl, acc', by omega⟩

theorem fresh (lateDelay : Tick) : Accounts lateDelay (.fresh lateDelay) (.fresh lateDelay) where
  represents := Represents.construct lateDelay
  late := rfl
  balance := by simp [Config.fresh, Agenda.fresh]
  numbered := rfl
  executed := rfl
  punctual := by simp [Config.fresh]

theorem intact (acc : Accounts lateDelay c a) : Intact lateDelay c a.keys where
  linked := acc.represents.linked
  nodup := a.distinct
  sorted := by
    rw [Agenda.keys, List.pairwise_map]
    refine a.sorted.imp_of_mem (fun first second ordered => ?_)
    rwa [(acc.represents.stored _ first).1, (acc.represents.stored _ second).1]
  scheduled _ := acc.represents.action_isSet.symm
  balance := by
    have listed : a.keys.map c.receipt = a.pending.map (stub c.tickets) := by
      rw [Agenda.keys, List.map_map]
      exact List.map_congr_left (fun e pending => acc.receipt pending)
    rw [listed]
    exact acc.balance
  once := acc.numbered ▸ List.nodup_range
  executed := acc.executed
  punctual := acc.punctual

end Accounts

/-- From a fresh queue every sequence of calls and callback returns runs, and the
list and the ledger are intact afterwards. More iterations than events suffice for
every loop. -/
theorem eventQueue_run_intact (lateDelay : Tick) (events : List Event) (extra : Nat) :
    ∃ c l, Machine.run (Config.step (events.length + 1 + extra)) (.fresh lateDelay) events = some c ∧
      Intact lateDelay c l := by
  obtain ⟨c, run, a, acc, -⟩ := @Machine.run_enabled _ _
    (Config.step (events.length + 1 + extra)) (.fresh lateDelay) events 0
    (fun n c => ∃ a, Accounts lateDelay c a ∧
      a.pending.length + n < events.length + 1 + extra)
    (by
      intro n c e ⟨a, acc, budget⟩
      obtain ⟨c', a', taken, acc', short⟩ := @Accounts.step _ _ _ (events.length + 1 + extra) acc
        (by omega) e
      exact ⟨c', taken, a', acc', by omega⟩)
    ⟨.fresh lateDelay, Accounts.fresh lateDelay, by simp [Agenda.fresh]; omega⟩
  exact ⟨c, a.keys, run, acc.intact⟩

end FomeFw.Timer
