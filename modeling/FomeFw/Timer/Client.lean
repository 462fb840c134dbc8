import FomeFw.Lib.Machine
import FomeFw.Timer.EventQueueRuns
import FomeFw.Timer.SingleTimerExecutor

/-! Code that lives on the executor: it handles inputs, its callbacks are run, and both
make calls of the executor, one after the other, with anything else in between. The
executor keeps what it was asked for on the agenda; what a step of the whole does to the
agenda and to the client is said once here. -/
namespace FomeFw.Timer
open TimedQueue

/-- A call of the executor. -/
inductive ExecutorCall where
  | schedule (msg : String) (scheduling : Option Nat) (nt : Tick) (action : Action)
  | cancel (scheduling : Nat)
  deriving DecidableEq, Repr

/-- What running code has yet to call, and for what it has called, whether it was granted. -/
structure Context where
  calls : List ExecutorCall := []
  made : List (ExecutorCall × Bool) := []

def Context.record (c : Context) (call : ExecutorCall) (granted : Bool)
    (calls : List ExecutorCall) : Context where
  calls
  made := c.made ++ [(call, granted)]

/-- Code with a state `S`, for inputs `I`; its callbacks find `R` around them. -/
structure Client (S I R : Type) where
  owns : Action → Bool
  ownsRecord : Nat → Bool
  handle : Nat → I → Tick → S → Option (S × List ExecutorCall)
  execute : R → Tick → Action → S → S × List ExecutorCall

/-- The executor and its client. Inputs are handled one at a time, at rest or from a
callback; callbacks do not nest. -/
structure Hosted (S : Type) where
  executor : SingleTimerExecutor
  state : S
  outer : Context := {}
  inner : Context := {}

inductive HostedEvent (I R : Type) where
  | handle (input : I)
  /-- The running code makes its next call. -/
  | call
  /-- Something else happens around the executor. -/
  | other (event : ExecutorEvent)
  | proceed (readings : R)

/-- Whether a schedule call enters its event: it is less than ten seconds ahead, and there
is a record for it that is not in use. -/
def SingleTimerExecutor.grants (port : Port) (e : SingleTimerExecutor) (scheduling : Option Nat)
    (nt : Tick) (action : Action) : Bool :=
  decide (nt - e.clock < port.tooFarIntoFutureNt) &&
    (e.queue.admits (scheduling.map .owned) action).isSome

/-- The event pending on a record. -/
def EventQueue.pendingOn (q : EventQueue) (r : Ref) : Option (Tick × Action) :=
  let record := q.memory r
  if record.action.isSet then some (record.momentX, record.action) else none

/-- The action that the executor is about to run. -/
def SingleTimerExecutor.starting (e : SingleTimerExecutor) : Option Action :=
  match e.control with
  | .executeOne :: _ => (e.queue.takeDue e.clock).map Prod.fst
  | _ => none

namespace Hosted

variable {S I R : Type}

/-- The context whose calls go on. -/
def context (s : Hosted S) : Context := if s.inner.calls = [] then s.outer else s.inner

def setContext (s : Hosted S) (c : Context) : Hosted S :=
  if s.inner.calls = [] then { s with outer := c } else { s with inner := c }

/-- The calls still to be made, in order. -/
def calls (s : Hosted S) : List ExecutorCall := s.inner.calls ++ s.outer.calls

/-- A call is possible: for the outer code only at rest. -/
def ready (s : Hosted S) : Bool :=
  if s.inner.calls = [] then decide (s.executor.control = []) else s.executor.callable

/-- Other code has its own callbacks and records, and a callback ends when it has made
all its calls. -/
def allows (client : Client S I R) (s : Hosted S) : ExecutorEvent → Bool
  | .schedule _ scheduling _ action => !client.owns action && !scheduling.any client.ownsRecord
  | .cancel (.owned id) => !client.ownsRecord id
  | .cancel (.pool _) => false
  | .callbackReturns => s.inner.calls = []
  | .proceed => false
  | .onTimerCallback | .unlock | .timePasses _ => true

def handle (client : Client S I R) (steps : Nat) (s : Hosted S) (input : I) : Option (Hosted S) :=
  if s.calls = [] ∧ s.executor.callable then do
    let (state, calls) ← client.handle steps input s.executor.clock s.state
    some (if s.executor.control = [] then { s with state, outer := { calls } }
      else { s with state, inner := { calls } })
  else some s

/-- The next call of the running code. -/
def call (port : Port) (steps : Nat) (s : Hosted S) : Option (Hosted S) :=
  if s.ready then
    match s.context.calls with
    | [] => some s
    | .schedule msg scheduling nt action :: calls => do
      let executor ← s.executor.schedule port steps msg scheduling nt action
      some ({ s with executor }.setContext (s.context.record
        (.schedule msg scheduling nt action) (s.executor.grants port scheduling nt action) calls))
    | .cancel scheduling :: calls => do
      let executor ← s.executor.cancel steps (.owned scheduling)
      some ({ s with executor }.setContext (s.context.record (.cancel scheduling) true calls))
  else some s

/-- The executor goes on, while no callback is in the middle of its calls. What it runs may
be a callback of the client. -/
def proceed (client : Client S I R) (port : Port) (s : Hosted S) (readings : R) : Hosted S :=
  if s.inner.calls = [] then
    let executor := SingleTimerExecutor.proceed port s.executor
    match s.executor.starting.filter client.owns with
    | some action =>
      let (state, calls) := client.execute readings executor.clock action s.state
      { s with executor, state, inner := { calls } }
    | none => { s with executor }
  else s

def step (client : Client S I R) (port : Port) (steps : Nat) (s : Hosted S) :
    HostedEvent I R → Option (Hosted S)
  | .handle input => s.handle client steps input
  | .call => s.call port steps
  | .other event =>
    if s.allows client event then do
      let executor ← s.executor.step port steps event
      some { s with executor }
    else some s
  | .proceed readings => some (s.proceed client port readings)

end Hosted

namespace SingleTimerExecutor

variable {port : Port} {e e' e₁ e₂ : SingleTimerExecutor} {a : Agenda} {scheduling : Option Nat}

/-- Nothing happens to the agenda. -/
def Keeps (e e' : SingleTimerExecutor) : Prop :=
  ∀ a, Represents e.queue a → ∃ a', Represents e'.queue a' ∧ a'.pending = a.pending

theorem Keeps.of_queue (same : e'.queue = e.queue) : Keeps e e' :=
  fun a rep => ⟨a, same ▸ rep, rfl⟩

theorem Keeps.trans (first : Keeps e e₁) (second : Keeps e₁ e₂) : Keeps e e₂ := by
  intro a rep
  obtain ⟨a₁, rep₁, same₁⟩ := first a rep
  obtain ⟨a₂, rep₂, same₂⟩ := second a₁ rep₁
  exact ⟨a₂, rep₂, same₂.trans same₁⟩

theorem firmwareError_keeps (e : SingleTimerExecutor) (message : String) :
    Keeps e (e.firmwareError message) :=
  fun a rep => ⟨a.error message, rep.firmwareError message, rfl⟩

theorem setHardwareSchedulerTimer_keeps (nowNt setTimeNt : Tick) :
    Keeps e (setHardwareSchedulerTimer port e nowNt setTimeNt) := by
  simp only [setHardwareSchedulerTimer]
  split
  · exact firmwareError_keeps e _
  · split
    · exact (Keeps.of_queue rfl).trans (firmwareError_keeps _ _)
    · split
      · exact .of_queue rfl
      · exact .of_queue rfl

theorem scheduleTimerCallback_keeps : Keeps e (scheduleTimerCallback port e) := by
  simp only [scheduleTimerCallback]
  split
  · exact .of_queue rfl
  · split
    · exact setHardwareSchedulerTimer_keeps _ _
    · exact firmwareError_keeps _ _

theorem countRound_keeps : Keeps e e.countRound := by
  simp only [countRound]
  split
  · exact (Keeps.of_queue rfl).trans (firmwareError_keeps _ _)
  · exact .of_queue rfl

theorem leaveLoop_keeps : Keeps e e.leaveLoop := by
  simp only [leaveLoop]
  split
  · exact .of_queue rfl
  · exact (Keeps.of_queue rfl).trans (firmwareError_keeps _ _)

/-- A schedule call that is granted enters its event, any other enters nothing. -/
theorem schedule_agenda (rep : Represents e.queue a) (enough : a.pending.length < steps) :
    ∃ e' a', e.schedule port steps msg scheduling nt action = some e' ∧ Represents e'.queue a' ∧
      if e.grants port scheduling nt action = true then
        ∃ r, a.admits scheduling action = some r ∧
          a'.pending = TimedQueue.insert ⟨r, nt, action⟩ a.pending
      else a'.pending = a.pending := by
  by_cases far : nt - e.clock ≥ port.tooFarIntoFutureNt
  · have refused : e.grants port scheduling nt action = false := by
      simp [grants, not_lt.mpr far]
    refine ⟨_, _, if_pos far, rep.firmwareError _, ?_⟩
    rw [refused]
    rfl
  · obtain ⟨queue, inserted, rep'⟩ := @Represents.insertTask _ _ _ nt action scheduling rep enough
    have granted : e.grants port scheduling nt action = (a.admits scheduling action).isSome := by
      simp [grants, not_le.mp far, rep.admits]
    have pending := a.insertTask_pending scheduling nt action
    have outcome : if e.grants port scheduling nt action = true then
        ∃ r, a.admits scheduling action = some r ∧
          (a.insertTask scheduling nt action).2.pending =
            TimedQueue.insert ⟨r, nt, action⟩ a.pending
        else (a.insertTask scheduling nt action).2.pending = a.pending := by
      rw [granted]
      cases admitted : a.admits scheduling action with
      | none => simpa [admitted] using pending
      | some r => simpa [admitted] using pending
    simp only [schedule, if_neg far, inserted, Option.bind_eq_bind, Option.bind_some]
    split
    · exact ⟨_, _, rfl, rep', outcome⟩
    · exact ⟨_, _, rfl, rep', outcome⟩

theorem cancel_agenda (rep : Represents e.queue a) (enough : a.pending.length < steps) :
    ∃ e' a', e.cancel steps r = some e' ∧ Represents e'.queue a' ∧
      a'.pending = TimedQueue.erase r a.pending := by
  obtain ⟨queue, removed, rep'⟩ := rep.remove (r := r) enough
  exact ⟨{ e with queue }, a.remove r, by simp [cancel, removed], rep', rfl⟩

/-- Going on takes the first event off the agenda when it starts an action. -/
theorem proceed_agenda (rep : Represents e.queue a) :
    ∃ a', Represents (proceed port e).queue a' ∧
      match e.starting with
      | some action => ∃ first, a.pending = first :: a'.pending ∧ first.payload = action
      | none => a'.pending = a.pending := by
  match looping : e.control with
  | [] =>
    simp only [proceed, starting, looping]
    exact ⟨a, rep, rfl⟩
  | .callback :: control =>
    simp only [proceed, starting, looping]
    exact ⟨a, rep, rfl⟩
  | .finish needToResetTimer wasLocked :: control =>
    simp only [proceed, starting, looping]
    split
    · exact scheduleTimerCallback_keeps.trans (.of_queue rfl) a rep
    · exact ⟨a, rep, rfl⟩
  | .executeOne :: control =>
    simp only [proceed, starting, looping, executeOne]
    cases due : a.takeDue e.clock with
    | none =>
      simp only [rep.takeDue_none due, Option.map_none]
      have left : Keeps e ({ e.countRound with control }.leaveLoop) :=
        (countRound_keeps.trans (@Keeps.of_queue _ { e.countRound with control } rfl)).trans
          leaveLoop_keeps
      exact left a rep
    | some taken =>
      obtain ⟨first, a'⟩ := taken
      obtain ⟨queue, taken, rep'⟩ := rep.takeDue_some due
      obtain ⟨rest, shape, -, rfl⟩ := Agenda.takeDue_some due
      simp only [taken, Option.map_some]
      refine ⟨_, rep', first, ?_, rfl⟩
      exact shape.trans (congrArg (first :: ·) (Agenda.remove_pending_head shape).symm)

end SingleTimerExecutor

namespace Agenda

theorem admits_owned {a : Agenda} {id : Nat} (admitted : a.admits (some id) action = some r) :
    r = .owned id := by
  simp only [admits, Option.filter_eq_some_iff] at admitted
  exact (Option.some.inj admitted.1).symm

theorem admits_pool {a : Agenda} (admitted : a.admits none action = some r) :
    ∃ slot, r = .pool slot := by
  simp only [admits, Option.filter_eq_some_iff] at admitted
  exact a.pooled r (List.mem_of_head? admitted.1)

end Agenda

theorem Represents.pendingOn {q : EventQueue} {a : Agenda} (rep : Represents q a) :
    q.pendingOn r = some (t, action) ↔ ⟨r, t, action⟩ ∈ a.pending := by
  simp only [EventQueue.pendingOn]
  constructor
  · intro found
    split at found
    · next isSet =>
      simp only [Option.some.injEq, Prod.mk.injEq] at found
      obtain ⟨rfl, rfl⟩ := found
      have known : r ∈ a.keys := by
        by_contra unknown
        rw [rep.idle r unknown] at isSet
        contradiction
      obtain ⟨⟨key, time, payload⟩, member, rfl⟩ := List.mem_map.mp known
      obtain ⟨time', payload'⟩ := rep.stored _ member
      simpa only [time', payload'] using member
    · contradiction
  · intro member
    obtain ⟨time, payload⟩ := rep.stored _ member
    simp only at time payload
    rw [time, payload, if_pos (a.runnable _ member)]

theorem Represents.pendingOn_none {q : EventQueue} {a : Agenda} (rep : Represents q a)
    (none : q.pendingOn r = none) : r ∉ a.keys := by
  intro known
  obtain ⟨⟨key, time, payload⟩, member, rfl⟩ := List.mem_map.mp known
  rw [rep.pendingOn.mpr member] at none
  contradiction

namespace Hosted

variable {S I R : Type} {client : Client S I R} {port : Port} {steps : Nat} {s s' : Hosted S}
  {a a' : Agenda}

/-- The client is as it was. -/
structure Same (s s' : Hosted S) : Prop where
  state : s'.state = s.state
  outer : s'.outer = s.outer
  inner : s'.inner = s.inner

/-- The running code makes the first of all the calls to be made. -/
theorem calls_next {first : ExecutorCall} {rest : List ExecutorCall}
    (next : s.context.calls = first :: rest) : s.calls = first :: s.calls.tail := by
  simp only [context] at next
  split at next
  · next idle => simp [Hosted.calls, idle, next]
  · simp [Hosted.calls, next]

theorem calls_record {first : ExecutorCall} {rest : List ExecutorCall}
    (next : s.context.calls = first :: rest)
    (after : s' = { s with executor := s'.executor }.setContext (s.context.record first granted rest)) :
    s'.state = s.state ∧ s'.calls = s.calls.tail := by
  rw [after]
  simp only [setContext, context] at *
  split at next
  · next idle => simp [Hosted.calls, idle, next, Context.record]
  · simp [Hosted.calls, next, Context.record]

/-- What one event does to the client and to the agenda. -/
inductive Change (client : Client S I R) (port : Port) (steps : Nat) (s s' : Hosted S)
    (a a' : Agenda) : HostedEvent I R → Prop
  | idle (same : Same s s') (pending : a'.pending = a.pending) :
    Change client port steps s s' a a' event
  /-- Other code entered an event, or took one off, or had one run. -/
  | entered (same : Same s s') (e : Appointment) (foreign : client.owns e.payload = false)
    (record : ∀ owner, e.key = .owned owner → client.ownsRecord owner = false)
    (pending : a'.pending = TimedQueue.insert e a.pending) :
    Change client port steps s s' a a' (.other event)
  | struck (same : Same s s') (owner : Nat) (foreign : client.ownsRecord owner = false)
    (pending : a'.pending = TimedQueue.erase (.owned owner) a.pending) :
    Change client port steps s s' a a' (.other event)
  | ran (same : Same s s') (first : Appointment) (foreign : client.owns first.payload = false)
    (pending : a.pending = first :: a'.pending) :
    Change client port steps s s' a a' (.proceed readings)
  | handled (calls : List ExecutorCall) (idle : s.calls = [])
    (handled : client.handle steps input s.executor.clock s.state = some (s'.state, calls))
    (contexts : s'.outer = { calls } ∧ s'.inner = s.inner ∨
      s'.outer = s.outer ∧ s'.inner = { calls })
    (pending : a'.pending = a.pending) : Change client port steps s s' a a' (.handle input)
  | executed (first : Appointment) (calls : List ExecutorCall) (idle : s.inner.calls = [])
    (own : client.owns first.payload = true) (pending : a.pending = first :: a'.pending)
    (executed : client.execute readings s'.executor.clock first.payload s.state = (s'.state, calls))
    (outer : s'.outer = s.outer) (inner : s'.inner = { calls }) :
    Change client port steps s s' a a' (.proceed readings)
  /-- The running code made a call. -/
  | scheduled (calls : List ExecutorCall) (ready : s.ready = true)
    (next : s.context.calls = .schedule msg scheduling nt action :: calls)
    (after : s' = { s with executor := s'.executor }.setContext (s.context.record
      (.schedule msg scheduling nt action) (s.executor.grants port scheduling nt action) calls))
    (pending : if s.executor.grants port scheduling nt action = true then
        ∃ r, a.admits scheduling action = some r ∧
          a'.pending = TimedQueue.insert ⟨r, nt, action⟩ a.pending
      else a'.pending = a.pending) : Change client port steps s s' a a' .call
  | cancelled (calls : List ExecutorCall) (ready : s.ready = true)
    (next : s.context.calls = .cancel owner :: calls)
    (after : s' = { s with executor := s'.executor }.setContext
      (s.context.record (.cancel owner) true calls))
    (pending : a'.pending = TimedQueue.erase (.owned owner) a.pending) :
    Change client port steps s s' a a' .call

theorem other_change (rep : Represents s.executor.queue a) (enough : a.pending.length < steps)
    (event : ExecutorEvent) (allowed : s.allows client event = true) :
    ∃ executor a', s.executor.step port steps event = some executor ∧
      Represents executor.queue a' ∧
      Change client port steps s { s with executor } a a' (R := R) (.other event) := by
  have same : ∀ executor, Same s { s with executor } := fun _ => ⟨rfl, rfl, rfl⟩
  cases event with
  | schedule msg scheduling nt action =>
    simp only [SingleTimerExecutor.step]
    split
    · obtain ⟨e', a', called, rep', pending⟩ :=
        @SingleTimerExecutor.schedule_agenda port _ _ scheduling _ msg nt action rep enough
      refine ⟨e', a', called, rep', ?_⟩
      split at pending
      · obtain ⟨r, admitted, pending⟩ := pending
        simp only [allows, Bool.and_eq_true, Bool.not_eq_true'] at allowed
        refine .entered (same _) _ allowed.1 (fun id key => ?_) pending
        cases scheduling with
        | none =>
          obtain ⟨slot, rfl⟩ := Agenda.admits_pool admitted
          exact Ref.noConfusion key
        | some owner =>
          obtain rfl := Agenda.admits_owned admitted
          obtain rfl := Ref.owned.inj key
          simpa using allowed.2
      · exact .idle (same _) pending
    · exact ⟨_, a, rfl, rep, .idle (same _) rfl⟩
  | cancel scheduling =>
    simp only [SingleTimerExecutor.step]
    split
    · obtain ⟨e', a', called, rep', pending⟩ :=
        SingleTimerExecutor.cancel_agenda (r := scheduling) rep enough
      cases scheduling with
      | pool slot => simp [allows] at allowed
      | owned id => exact ⟨e', a', called, rep', .struck (same _) id (by simpa [allows] using allowed) pending⟩
    · exact ⟨_, a, rfl, rep, .idle (same _) rfl⟩
  | onTimerCallback =>
    refine ⟨_, a, rfl, ?_, .idle (same _) rfl⟩
    split
    · exact rep
    · exact rep
  | callbackReturns =>
    simp only [SingleTimerExecutor.step]
    split
    · next control running =>
      have counted : SingleTimerExecutor.Keeps s.executor
          { s.executor.countRound with control := .executeOne :: control } :=
        SingleTimerExecutor.countRound_keeps.trans (.of_queue rfl)
      obtain ⟨a', rep', pending⟩ := counted a rep
      exact ⟨_, a', rfl, rep', .idle (same _) pending⟩
    · exact ⟨_, a, rfl, rep, .idle (same _) rfl⟩
  | unlock =>
    simp only [SingleTimerExecutor.step]
    split
    · exact ⟨_, a, rfl, rep, .idle (same _) rfl⟩
    · exact ⟨_, a, rfl, rep, .idle (same _) rfl⟩
  | timePasses ticks => exact ⟨_, a, rfl, rep, .idle (same _) rfl⟩
  | proceed => simp [allows] at allowed

/-- Every event can happen, as long as the client copes with the input, and is one of the
changes. -/
theorem step_change (rep : Represents s.executor.queue a) (enough : a.pending.length < steps)
    (event : HostedEvent I R) (copes : ∀ input, event = .handle input →
      ∃ result, client.handle steps input s.executor.clock s.state = some result) :
    ∃ s' a', s.step client port steps event = some s' ∧ Represents s'.executor.queue a' ∧
      Change client port steps s s' a a' event := by
  have same : ∀ executor, Same s { s with executor } := fun _ => ⟨rfl, rfl, rfl⟩
  cases event with
  | handle input =>
    obtain ⟨⟨state, calls⟩, handled⟩ := copes input rfl
    simp only [step, handle]
    split
    · next possible =>
      simp only [handled, Option.bind_eq_bind, Option.bind_some]
      split
      · exact ⟨_, a, rfl, rep, .handled calls possible.1 handled (.inl ⟨rfl, rfl⟩) rfl⟩
      · exact ⟨_, a, rfl, rep, .handled calls possible.1 handled (.inr ⟨rfl, rfl⟩) rfl⟩
    · exact ⟨s, a, rfl, rep, .idle ⟨rfl, rfl, rfl⟩ rfl⟩
  | call =>
    simp only [step, call]
    split
    · next ready =>
      split
      · exact ⟨s, a, rfl, rep, .idle ⟨rfl, rfl, rfl⟩ rfl⟩
      · next msg scheduling nt action calls next =>
        obtain ⟨e', a', called, rep', pending⟩ :=
          @SingleTimerExecutor.schedule_agenda port _ _ scheduling _ msg nt action rep enough
        simp only [called, Option.bind_eq_bind, Option.bind_some]
        refine ⟨_, a', rfl, ?_, .scheduled calls ready next ?_ pending⟩
        · simp only [setContext]
          split
          · exact rep'
          · exact rep'
        · simp only [setContext]
          split <;> rfl
      · next scheduling calls next =>
        obtain ⟨e', a', called, rep', pending⟩ :=
          SingleTimerExecutor.cancel_agenda (r := .owned scheduling) rep enough
        simp only [called, Option.bind_eq_bind, Option.bind_some]
        refine ⟨_, a', rfl, ?_, .cancelled calls ready next ?_ pending⟩
        · simp only [setContext]
          split
          · exact rep'
          · exact rep'
        · simp only [setContext]
          split <;> rfl
    · exact ⟨s, a, rfl, rep, .idle ⟨rfl, rfl, rfl⟩ rfl⟩
  | other event =>
    simp only [step]
    split
    · next allowed =>
      obtain ⟨executor, a', stepped, rep', change⟩ := other_change rep enough event allowed
      exact ⟨_, a', by simp [stepped], rep', change⟩
    · exact ⟨s, a, rfl, rep, .idle ⟨rfl, rfl, rfl⟩ rfl⟩
  | proceed readings =>
    simp only [step, proceed]
    split
    · next idle =>
      obtain ⟨a', rep', pending⟩ := @SingleTimerExecutor.proceed_agenda port _ _ rep
      cases starting : s.executor.starting with
      | none =>
        rw [starting] at pending
        exact ⟨_, a', rfl, rep', .idle (same _) pending⟩
      | some action =>
        rw [starting] at pending
        obtain ⟨first, pending, rfl⟩ := pending
        cases own : client.owns first.payload with
        | false =>
          simp only [Option.filter_some, own]
          exact ⟨_, a', rfl, rep', .ran (same _) first own pending⟩
        | true =>
          simp only [Option.filter_some, own, if_true]
          exact ⟨_, a', rfl, rep', .executed first _ idle own pending rfl rfl rfl⟩
    · exact ⟨s, a, rfl, rep, .idle ⟨rfl, rfl, rfl⟩ rfl⟩

theorem agenda_length {q : EventQueue} (rep : Represents q a) (rep' : Represents q a') :
    a.pending.length = a'.pending.length := by
  have same : a.keys = a'.keys := Chain.linked_unique rep.linked rep'.linked
  simpa [Agenda.keys] using congrArg List.length same

/-- The event that leaves the agenda is the one the executor was about to run. -/
theorem step_starting {first : Appointment} (rep : Represents s.executor.queue a)
    (rep' : Represents s'.executor.queue a') (idle : s.inner.calls = [])
    (stepped : s.step client port steps (.proceed readings) = some s')
    (pending : a.pending = first :: a'.pending) :
    s.executor.starting = some first.payload ∧ s'.executor = s.executor.proceed port := by
  have executor : s'.executor = s.executor.proceed port := by
    simp only [step, proceed, if_pos idle, Option.some.injEq] at stepped
    rw [← stepped]
    split <;> rfl
  refine ⟨?_, executor⟩
  obtain ⟨a'', rep'', pending''⟩ := @SingleTimerExecutor.proceed_agenda port _ _ rep
  cases starting : s.executor.starting with
  | none =>
    rw [starting] at pending''
    have same := agenda_length (executor ▸ rep') rep''
    rw [pending'', pending, List.length_cons] at same
    omega
  | some action =>
    rw [starting] at pending''
    obtain ⟨first', pending'', rfl⟩ := pending''
    rw [pending, List.cons.injEq] at pending''
    rw [pending''.1]

theorem Change.length {event : HostedEvent I R}
    (change : Change client port steps s s' a a' event) :
    a'.pending.length ≤ a.pending.length + 1 := by
  cases change with
  | idle same pending => rw [pending]; omega
  | entered same e foreign record pending => rw [pending, (insert_perm _ _).length_eq]; rfl
  | struck same owner foreign pending =>
    rw [pending]
    exact (erase_sublist _ _).length_le.trans (Nat.le_succ _)
  | ran same first foreign pending => rw [pending, List.length_cons]; omega
  | handled calls idle handled contexts pending => rw [pending]; omega
  | executed first calls idle own pending executed outer inner => rw [pending, List.length_cons]; omega
  | scheduled calls ready next after pending =>
    split at pending
    · obtain ⟨r, -, pending⟩ := pending
      rw [pending, (insert_perm _ _).length_eq]
      rfl
    · rw [pending]; omega
  | cancelled calls ready next after pending =>
    rw [pending]
    exact (erase_sublist _ _).length_le.trans (Nat.le_succ _)

section Runs

variable {Guard : Hosted S → HostedEvent I R → Prop} {Inv : Nat → Hosted S → Agenda → Prop}
  (copes : ∀ n s a input, Inv (n + 1) s a →
    ∃ result, client.handle steps input s.executor.clock s.state = some result)
include copes

/-- What the steps keep that meet a condition holds after a run whose steps all meet it.
The number is how many steps are left. -/
theorem run_keeps_step (keeps : ∀ n s s' a a' event, Guard s event → Inv (n + 1) s a →
      Represents s.executor.queue a → Represents s'.executor.queue a' →
      s.step client port steps event = some s' → Change client port steps s s' a a' event →
      Inv n s' a')
    (events : List (HostedEvent I R)) (rep : Represents s.executor.queue a)
    (start : Inv events.length s a) (enough : a.pending.length + events.length ≤ steps)
    (supervised : Machine.Supervised (step client port steps) Guard s events) :
    ∃ s' a', Machine.run (step client port steps) s events = some s' ∧
      Represents s'.executor.queue a' ∧ a'.pending.length ≤ steps ∧ Inv 0 s' a' := by
  let Kept : Nat → Hosted S → Prop := fun n s =>
    ∃ a, Represents s.executor.queue a ∧ a.pending.length + n ≤ steps ∧ Inv n s a
  have progress : ∀ n s event, Guard s event → Kept (n + 1) s →
      ∃ s', s.step client port steps event = some s' ∧ Kept n s' := by
    rintro n s event guard ⟨a, rep, enough, inv⟩
    obtain ⟨s', a', stepped, rep', change⟩ :=
      @step_change _ _ _ client port steps _ _ rep (by omega) event
        (fun input _ => copes n s a input inv)
    have length := change.length
    exact ⟨s', stepped, a', rep', by omega, keeps n s s' a a' event guard inv rep rep' stepped
      change⟩
  obtain ⟨s', ran, a', rep', short, inv⟩ := Machine.run_supervised (n := 0) progress
    ⟨a, rep, by simpa using enough, by simpa using start⟩ supervised
  exact ⟨s', a', ran, rep', short, inv⟩

/-- The same for what every change keeps. -/
theorem run_keeps (keeps : ∀ n s s' a a' event, Guard s event → Inv (n + 1) s a →
      Represents s.executor.queue a → Change client port steps s s' a a' event → Inv n s' a')
    (events : List (HostedEvent I R)) (rep : Represents s.executor.queue a)
    (start : Inv events.length s a) (enough : a.pending.length + events.length ≤ steps)
    (supervised : Machine.Supervised (step client port steps) Guard s events) :
    ∃ s' a', Machine.run (step client port steps) s events = some s' ∧
      Represents s'.executor.queue a' ∧ a'.pending.length ≤ steps ∧ Inv 0 s' a' :=
  run_keeps_step copes (fun n s s' a a' event guard inv rep _ _ change =>
    keeps n s s' a a' event guard inv rep change) events rep start enough supervised

end Runs

end Hosted

end FomeFw.Timer
