import FomeFw.Injection.HighPressureFuelPump

/-! The record of the pump's event on the executor. A call for a moment, a cancellation and the
start of what is due do to it what they do to the pump's own copy. -/
namespace FomeFw.Injection
open Timer TimedQueue

/-- What the executor has on a record. -/
def EventRecord.onQueue (q : EventQueue) (r : Ref) : EventRecord where
  momentX := (q.memory r).momentX
  action := (q.pendingOn r).map Prod.snd

namespace EventRecord

variable {q : EventQueue} {a : Agenda} {r : Ref} {e : SingleTimerExecutor} {port : Port}
  {nt : Tick} {action : Action} {id : Nat}

theorem onQueue_free (rep : Represents q a) (absent : r ∉ a.keys) :
    onQueue q r = ⟨(q.memory r).momentX, none⟩ := by
  simp [onQueue, EventQueue.pendingOn, rep.idle r absent]

theorem onQueue_pending (rep : Represents q a) (pending : ⟨r, nt, action⟩ ∈ a.pending) :
    onQueue q r = ⟨nt, some action⟩ := by
  rw [onQueue, rep.pendingOn.mpr pending, (rep.stored _ pending).1]
  rfl

/-- A call for a moment that is not too far ahead. -/
theorem schedule_onQueue (rep : Represents e.queue a) (enough : a.pending.length < steps)
    (near : nt - e.clock < port.tooFarIntoFutureNt) (runs : action.isSet = true) :
    ∃ e', e.schedule port steps msg (some id) nt action = some e' ∧
      onQueue e'.queue (.owned id) = (onQueue e.queue (.owned id)).schedule nt action := by
  obtain ⟨e', a', called, rep', outcome⟩ :=
    @SingleTimerExecutor.schedule_agenda port e a (some id) steps msg nt action rep enough
  refine ⟨e', called, ?_⟩
  have granted : e.grants port (some id) nt action = decide (Ref.owned id ∉ a.keys) := by
    have callback : action.callback ≠ none := Option.isSome_iff_ne_none.mp runs
    have admits : e.queue.admits (some (.owned id)) action = a.admits (some id) action :=
      rep.admits (some id) action
    by_cases used : Ref.owned id ∈ a.keys <;>
      simp [SingleTimerExecutor.grants, near, admits, Agenda.admits, Option.filter_some, callback,
        used]
  rw [granted] at outcome
  by_cases used : Ref.owned id ∈ a.keys
  · obtain ⟨⟨key, time, payload⟩, pending, rfl⟩ := List.mem_map.mp used
    have unchanged : a'.pending = a.pending := by simpa [used] using outcome
    rw [onQueue_pending rep pending, onQueue_pending rep' (unchanged ▸ pending)]
    rfl
  · simp only [used, not_false_eq_true, decide_true, if_true] at outcome
    obtain ⟨r, admitted, entered⟩ := outcome
    obtain rfl := Agenda.admits_owned admitted
    have pending : ⟨.owned id, nt, action⟩ ∈ a'.pending := by
      rw [entered]
      exact (insert_perm _ _).mem_iff.mpr List.mem_cons_self
    rw [onQueue_free rep used, onQueue_pending rep' pending]
    rfl

theorem cancel_onQueue (rep : Represents e.queue a) (enough : a.pending.length < steps) :
    ∃ e', e.cancel steps r = some e' ∧ Represents e'.queue (a.remove r) ∧ e'.clock = e.clock ∧
      onQueue e'.queue r = (onQueue e.queue r).cancel := by
  obtain ⟨queue, removed, rep'⟩ := rep.remove (r := r) enough
  refine ⟨{ e with queue }, by simp [SingleTimerExecutor.cancel, removed], rep', rfl, ?_⟩
  rw [onQueue_free rep' (notMem_erase a.distinct), EventQueue.momentX_remove removed]
  rfl

/-- At its hand-over the event is cancelled and scheduled anew. -/
theorem handOver_onQueue (rep : Represents e.queue a) (enough : a.pending.length < steps)
    (near : nt - e.clock < port.tooFarIntoFutureNt) (runs : action.isSet = true) :
    ∃ e₁ e₂, e.cancel steps (.owned id) = some e₁ ∧
      e₁.schedule port steps msg (some id) nt action = some e₂ ∧
      onQueue e₂.queue (.owned id) = (onQueue e.queue (.owned id)).cancel.schedule nt action := by
  obtain ⟨e₁, cancelled, rep₁, clock, freed⟩ := @cancel_onQueue a (.owned id) e steps rep enough
  have fewer : (a.remove (.owned id)).pending.length < steps :=
    (erase_sublist _ a.pending).length_le.trans_lt enough
  obtain ⟨e₂, called, after⟩ :=
    @schedule_onQueue _ e₁ port nt action id steps msg rep₁ fewer (clock ▸ near) runs
  exact ⟨e₁, e₂, cancelled, called, freed ▸ after⟩

theorem proceed_momentX (starts : e.starting = some action) :
    ((SingleTimerExecutor.proceed port e).queue.memory r).momentX =
      (e.queue.memory r).momentX := by
  simp only [SingleTimerExecutor.starting] at starts
  split at starts
  · next control looping =>
    obtain ⟨⟨action, queue⟩, taken, -⟩ := Option.map_eq_some_iff.mp starts
    simp only [SingleTimerExecutor.proceed, looping, SingleTimerExecutor.executeOne, taken]
    exact EventQueue.momentX_takeDue taken
  · contradiction

/-- When the executor starts an action it has been on some record, which is free from then on. -/
theorem proceed_onQueue (rep : Represents e.queue a) (starts : e.starting = some action) :
    ∃ r, (onQueue e.queue r).action = some action ∧
      onQueue (SingleTimerExecutor.proceed port e).queue r = (onQueue e.queue r).cancel := by
  obtain ⟨a', rep', taken⟩ := @SingleTimerExecutor.proceed_agenda port e a rep
  rw [starts] at taken
  obtain ⟨⟨r, nt, action⟩, shape, rfl⟩ := taken
  have pending : ⟨r, nt, action⟩ ∈ a.pending := shape ▸ List.mem_cons_self
  have struck : r ∉ a'.keys := by
    have distinct := a.distinct
    rw [shape] at distinct
    exact (List.nodup_cons.mp distinct).1
  refine ⟨r, by rw [onQueue_pending rep pending], ?_⟩
  rw [onQueue_free rep' struck, proceed_momentX starts]
  rfl

end EventRecord

namespace HpfpController
open EventRecord

variable {c : HpfpController} {s : HpfpSettings} {port : Port} {r : HpfpReadings}
  {e : SingleTimerExecutor} {a : Agenda} {steps : Nat}

/-- Switching the valve on schedules its switching off. -/
theorem pinTurnOn_onQueue (same : onQueue e.queue (.owned hpfpEvent) = c.scheduling)
    (rep : Represents e.queue a) (enough : a.pending.length < steps)
    (near : c.scheduling.momentX + port.usf2nt
      (r.oneDegreeUs * (c.deadtime + s.hpfpActivationAngle)) - e.clock < port.tooFarIntoFutureNt) :
    ∃ e', e.schedule port steps "angle" (some hpfpEvent) (c.scheduling.momentX + port.usf2nt
        (r.oneDegreeUs * (c.deadtime + s.hpfpActivationAngle))) pinTurnOffAction = some e' ∧
      onQueue e'.queue (.owned hpfpEvent) = (c.pinTurnOn s port r).scheduling := by
  obtain ⟨e', called, after⟩ :=
    @schedule_onQueue a e port _ pinTurnOffAction hpfpEvent steps "angle" rep enough near rfl
  rw [same] at after
  exact ⟨e', called, after⟩

end HpfpController

end FomeFw.Injection
