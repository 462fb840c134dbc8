import Mathlib.Algebra.Order.Ring.Int
import FomeFw.Lib.Machine
import FomeFw.Timer.EventQueueProofs
import FomeFw.Timer.SingleTimerExecutor

/-! No wakeup is lost: whenever the executor is at rest and no firmware error has
been raised, the interrupt for the first pending event is outstanding. The
argument for the calls that do not arm the timer: an event that ran early was
itself the head, so the interrupt outstanding for it comes within the late delay. -/
namespace FomeFw.Timer
open TimedQueue

variable {port : Port} {e e' : SingleTimerExecutor} {a a' : Agenda} {flag : Bool} {control : List Task}

/-- The interrupt for the first appointment is outstanding. -/
def Watched (port : Port) (e : SingleTimerExecutor) (a : Agenda) : Prop :=
  ∀ first, a.pending.head? = some first → ∃ moment, e.timer.alarm = some moment ∧
    moment ≤ max first.time (e.clock + port.lateDelay)

/-- An interrupt is outstanding that suits any first appointment. -/
def Imminent (port : Port) (e : SingleTimerExecutor) : Prop :=
  ∃ moment, e.timer.alarm = some moment ∧ moment ≤ e.clock + port.lateDelay

/-- What is known at each place the executor can be. The calls never nest, because
the flag is set while a callback runs. -/
inductive Covered (port : Port) (e : SingleTimerExecutor) (a : Agenda) : Bool → List Task → Prop
  | rest (watched : Watched port e a) : Covered port e a false []
  | loop (watched : needToResetTimer = false → Watched port e a) :
    Covered port e a true [.executeOne, .finish needToResetTimer wasLocked]
  | callback (imminent : needToResetTimer = false → Imminent port e) :
    Covered port e a true [.callback, .finish needToResetTimer wasLocked]
  | finish (watched : needToResetTimer = false → Watched port e a) :
    Covered port e a false [.finish needToResetTimer wasLocked]

/-- The invariant of the executor. After a firmware error only the list is vouched for. -/
structure Attended (port : Port) (e : SingleTimerExecutor) (a : Agenda) : Prop where
  represents : Represents e.queue a
  late : a.lateDelay = port.lateDelay
  covered : a.firmwareErrors = [] → Covered port e a e.reentrantFlag e.control

theorem Watched.mono (watched : Watched port e a) (alarm : e'.timer.alarm = e.timer.alarm)
    (clock : e.clock ≤ e'.clock) (members : a'.pending ⊆ a.pending) : Watched port e' a' := by
  intro first head
  have member := members (List.mem_of_head? head)
  obtain ⟨old, oldHead⟩ : ∃ old, a.pending.head? = some old := by
    cases shape : a.pending with
    | nil => simp [shape] at member
    | cons old rest => exact ⟨old, rfl⟩
  obtain ⟨moment, outstanding, soon⟩ := watched old oldHead
  have earlier := Agenda.head_time_le oldHead member
  exact ⟨moment, alarm.trans outstanding,
    soon.trans (max_le_max earlier (add_le_add_left clock _))⟩

theorem Watched.of_head (watched : Watched port e a) (alarm : e'.timer.alarm = e.timer.alarm)
    (clock : e.clock ≤ e'.clock) (head : a'.pending.head? = a.pending.head?) :
    Watched port e' a' := by
  intro first isFirst
  obtain ⟨moment, outstanding, soon⟩ := watched first (head ▸ isFirst)
  exact ⟨moment, alarm.trans outstanding,
    soon.trans (max_le_max (le_refl _) (add_le_add_left clock _))⟩

theorem Imminent.mono (imminent : Imminent port e) (alarm : e'.timer.alarm = e.timer.alarm)
    (clock : e.clock ≤ e'.clock) : Imminent port e' := by
  obtain ⟨moment, outstanding, soon⟩ := imminent
  exact ⟨moment, alarm.trans outstanding, soon.trans (add_le_add_left clock _)⟩

/-- Time may pass, and appointments may be struck off, anywhere. -/
theorem Covered.mono (covered : Covered port e a flag control)
    (alarm : e'.timer.alarm = e.timer.alarm) (clock : e.clock ≤ e'.clock)
    (members : a'.pending ⊆ a.pending) : Covered port e' a' flag control := by
  cases covered with
  | rest watched => exact .rest (watched.mono alarm clock members)
  | loop watched => exact .loop (fun need => (watched need).mono alarm clock members)
  | callback imminent => exact .callback (fun need => (imminent need).mono alarm clock)
  | finish watched => exact .finish (fun need => (watched need).mono alarm clock members)

/-- Calls come at rest, or from a callback, during which any change of the list is covered. -/
theorem Covered.callable (covered : Covered port e a e.reentrantFlag e.control)
    (callable : e.callable = true) :
    (e.reentrantFlag = false ∧ e.control = [] ∧ Watched port e a) ∨
      (e.reentrantFlag = true ∧ ∀ e' a', e'.timer.alarm = e.timer.alarm → e'.clock = e.clock →
        Covered port e' a' true e.control) := by
  unfold SingleTimerExecutor.callable at callable
  generalize e.reentrantFlag = flag, e.control = control at covered callable
  cases covered with
  | rest watched => exact .inl ⟨rfl, rfl, watched⟩
  | loop watched => contradiction
  | callback imminent =>
    exact .inr ⟨rfl, fun e' a' alarm clock =>
      .callback (fun need => (imminent need).mono alarm clock.ge)⟩
  | finish watched => contradiction

namespace Attended

/-- Once an error is recorded there is nothing left to show. -/
theorem error (represents : Represents e.queue a) (late : a.lateDelay = port.lateDelay)
    (raised : a.firmwareErrors ≠ []) : Attended port e a :=
  ⟨represents, late, fun none => absurd none raised⟩

theorem firmwareError (att : Attended port e a) (message : String) :
    Attended port (e.firmwareError message) (a.error message) :=
  error (att.represents.firmwareError message) att.late (by simp [Agenda.error])

/-- A moment asked for is set, unless it is too near, too far or an error is active. -/
theorem setHardwareSchedulerTimer (nowNt setTimeNt : Tick) :
    ∃ timer, (SingleTimerExecutor.setHardwareSchedulerTimer port e nowNt setTimeNt = { e with timer } ∧
        (e.queue.firmwareErrors = [] → ∃ moment, timer.alarm = some moment ∧
          moment ≤ max setTimeNt (nowNt + port.lateDelay))) ∨
      ∃ message, SingleTimerExecutor.setHardwareSchedulerTimer port e nowNt setTimeNt =
        { e with timer }.firmwareError message := by
  have slack : port.us2nt 2 ≤ port.lateDelay :=
    mul_le_mul_of_nonneg_right (by decide) (Int.natCast_nonneg _)
  unfold SingleTimerExecutor.setHardwareSchedulerTimer
  split
  · exact ⟨e.timer, .inr ⟨_, rfl⟩⟩
  dsimp only
  split
  · exact ⟨(e.countSetTimer (setTimeNt - nowNt)).timer, .inr ⟨_, rfl⟩⟩
  split
  · rename_i active
    refine ⟨_, .inl ⟨rfl, fun none => ?_⟩⟩
    simp [SingleTimerExecutor.hasFirmwareError, SingleTimerExecutor.countSetTimer, none] at active
  · refine ⟨_, .inl ⟨rfl, fun _ => ⟨_, rfl, ?_⟩⟩⟩
    split
    · exact le_max_of_le_right (add_le_add_right slack nowNt)
    · exact le_max_left _ _

/-- Arming the timer for the first appointment. -/
theorem scheduleTimerCallback (represents : Represents e.queue a)
    (late : a.lateDelay = port.lateDelay) :
    ∃ timer, (SingleTimerExecutor.scheduleTimerCallback port e = { e with timer } ∧
        (a.firmwareErrors = [] → Watched port { e with timer } a)) ∨
      ∃ message, SingleTimerExecutor.scheduleTimerCallback port e =
        { e with timer }.firmwareError message := by
  simp only [SingleTimerExecutor.scheduleTimerCallback, represents.getNextEventTime]
  cases shape : a.pending with
  | nil =>
    refine ⟨e.timer, .inl ⟨by simp [Agenda.getNextEventTime, shape], fun _ first head => ?_⟩⟩
    simp [shape] at head
  | cons first rest =>
    -- the requested moment is the event's, or the late delay from now
    obtain ⟨next, asked, bound⟩ : ∃ next, a.getNextEventTime e.clock = some next ∧
        next ≤ max first.time (e.clock + port.lateDelay) := by
      simp only [Agenda.getNextEventTime, shape, late]
      by_cases past : first.time ≤ e.clock
      · exact ⟨_, if_pos past, le_max_right _ _⟩
      · exact ⟨_, if_neg past, le_max_left _ _⟩
    simp only [asked]
    by_cases ahead : next > e.clock
    swap
    · exact ⟨e.timer, .inr ⟨_, if_neg ahead⟩⟩
    rw [if_pos ahead]
    obtain ⟨timer, ⟨armed, soon⟩ | failed⟩ := @setHardwareSchedulerTimer port e e.clock next
    · refine ⟨timer, .inl ⟨armed, fun none other head => ?_⟩⟩
      obtain rfl : first = other := by simpa [shape] using head
      obtain ⟨moment, outstanding, before⟩ := soon (represents.firmwareErrors.trans none)
      exact ⟨moment, outstanding, before.trans (max_le bound (le_max_right _ _))⟩
    · exact ⟨timer, .inr failed⟩

/-- Entering the loop. -/
theorem executeAllPendingActions (represents : Represents e.queue a)
    (late : a.lateDelay = port.lateDelay) (rest : e.control = [])
    (watched : a.firmwareErrors = [] → needToResetTimer = false → Watched port e a) :
    Attended port (e.executeAllPendingActions needToResetTimer) a := by
  refine ⟨represents, late, fun none => ?_⟩
  simp only [SingleTimerExecutor.executeAllPendingActions, rest]
  exact .loop (fun need => watched none need)

theorem schedule (att : Attended port e a) (callable : e.callable = true)
    (enough : a.pending.length < steps) :
    ∃ e' a', e.schedule port steps msg scheduling nt action = some e' ∧ Attended port e' a' ∧
      a'.pending.length ≤ a.pending.length + 1 := by
  simp only [SingleTimerExecutor.schedule]
  split
  · exact ⟨_, _, rfl, att.firmwareError _, by simp [Agenda.error]⟩
  obtain ⟨queue, inserted, rep⟩ :=
    @Represents.insertTask _ _ _ nt action scheduling att.represents enough
  have late := (a.insertTask_lateDelay scheduling nt action).trans att.late
  have short := a.insertTask_length scheduling nt action
  have before : (a.insertTask scheduling nt action).2.firmwareErrors = [] →
      Covered port e a e.reentrantFlag e.control := fun none =>
    att.covered (List.prefix_nil.mp (none ▸ a.insertTask_errors scheduling nt action))
  simp only [inserted, Option.bind_eq_bind, Option.bind_some]
  by_cases errors : (a.insertTask scheduling nt action).2.firmwareErrors = []
  swap
  · split
    · exact ⟨_, _, rfl, error rep late errors, short⟩
    · exact ⟨_, _, rfl, error rep late errors, short⟩
  rcases (before errors).callable callable with ⟨clear, rest, watched⟩ | ⟨set, running⟩
  · refine ⟨_, _, if_neg (by simp [clear]), ?_, short⟩
    refine executeAllPendingActions rep late rest (fun _ behind => ?_)
    exact watched.of_head rfl (le_refl _) (Agenda.insertTask_behind behind)
  · refine ⟨_, _, if_pos set, ⟨rep, late, fun _ => ?_⟩, short⟩
    rw [set]
    exact running _ _ rfl rfl

theorem cancel (att : Attended port e a) (enough : a.pending.length < steps) :
    ∃ e' a', e.cancel steps r = some e' ∧ Attended port e' a' ∧
      a'.pending.length ≤ a.pending.length := by
  obtain ⟨queue, removed, rep⟩ := att.represents.remove (r := r) enough
  have members := erase_sublist r a.pending
  simp only [SingleTimerExecutor.cancel, removed, Option.bind_eq_bind, Option.bind_some]
  refine ⟨_, _, rfl, ⟨rep, att.late, fun none => ?_⟩, members.length_le⟩
  exact (att.covered none).mono rfl (le_refl _) members.subset

theorem onTimerCallback (att : Attended port e a) (rest : e.control = []) :
    Attended port e.onTimerCallback a :=
  executeAllPendingActions att.represents att.late rest (fun _ need => by contradiction)

/-- The count only adds an error. -/
theorem countRound (e : SingleTimerExecutor) :
    ∃ executeCounter, e.countRound = { e with executeCounter } ∨
      ∃ message, e.countRound = { e with executeCounter }.firmwareError message := by
  unfold SingleTimerExecutor.countRound
  dsimp only
  split
  · exact ⟨_, .inr ⟨_, rfl⟩⟩
  · exact ⟨_, .inl rfl⟩

theorem callbackReturns (att : Attended port e a)
    (running : e.control = .callback :: control) :
    ∃ a', Attended port { e.countRound with control := .executeOne :: control } a' ∧
      a'.pending = a.pending := by
  obtain ⟨executeCounter, counted | ⟨message, counted⟩⟩ := countRound e
  · refine ⟨a, ⟨by rw [counted]; exact att.represents, att.late, fun none => ?_⟩, rfl⟩
    have covered := att.covered none
    rw [counted]
    dsimp only
    rw [running] at covered
    generalize e.reentrantFlag = flag at covered ⊢
    cases covered with
    | callback imminent =>
      refine .loop (fun need first _ => ?_)
      obtain ⟨moment, outstanding, soon⟩ := imminent need
      exact ⟨moment, outstanding, le_max_of_le_right soon⟩
  · refine ⟨a.error message, error ?_ att.late (by simp [Agenda.error]), rfl⟩
    rw [counted]
    exact att.represents.firmwareError message

/-- The loop is left when nothing is due. -/
theorem leaveLoop (att : Attended port e a) (looping : e.control = .executeOne :: control) :
    ∃ a', Attended port { e.countRound with control }.leaveLoop a' ∧ a'.pending = a.pending := by
  obtain ⟨executeCounter, counted | ⟨message, counted⟩⟩ := countRound e
  · rw [counted]
    unfold SingleTimerExecutor.leaveLoop
    dsimp only
    split
    · refine ⟨a, ⟨att.represents, att.late, fun none => ?_⟩, rfl⟩
      have covered := att.covered none
      rw [looping] at covered
      generalize e.reentrantFlag = flag at covered
      cases covered with
      | loop watched => exact .finish (fun need => (watched need).of_head rfl (le_refl _) rfl)
    · exact ⟨a.error _, error (att.represents.firmwareError _) att.late (by simp [Agenda.error]), rfl⟩
  · rw [counted]
    unfold SingleTimerExecutor.leaveLoop
    dsimp only
    have failed := att.represents.firmwareError message
    split
    · exact ⟨a.error message, error failed att.late (by simp [Agenda.error]), rfl⟩
    · exact ⟨_, error (failed.firmwareError _) att.late (by simp [Agenda.error]), rfl⟩

/-- An event that runs was the head, so an interrupt outstanding for it is imminent. -/
theorem executeOne (att : Attended port e a) (looping : e.control = .executeOne :: control) :
    ∃ a', Attended port (e.executeOne control) a' ∧ a'.pending.length ≤ a.pending.length := by
  unfold SingleTimerExecutor.executeOne
  cases due : a.takeDue e.clock with
  | none =>
    rw [att.represents.takeDue_none due]
    obtain ⟨a', left, same⟩ := att.leaveLoop looping
    exact ⟨a', left, by rw [same]⟩
  | some taken =>
    obtain ⟨first, a'⟩ := taken
    obtain ⟨queue, taken, rep⟩ := att.represents.takeDue_some due
    obtain ⟨rest, shape, early, rfl⟩ := Agenda.takeDue_some due
    rw [taken]
    refine ⟨_, ⟨rep, att.late, fun none => ?_⟩, (erase_sublist first.key a.pending).length_le⟩
    have covered := att.covered none
    rw [looping] at covered
    generalize held : e.reentrantFlag = flag at covered
    cases covered with
    | loop watched =>
      refine .callback (fun need => ?_)
      obtain ⟨moment, outstanding, soon⟩ := watched need first (by rw [shape]; rfl)
      refine ⟨moment, outstanding, (soon.trans (max_le (early.trans ?_) (le_refl _))).trans ?_⟩
      · rw [att.late]
      · exact add_le_add_left (le_max_left _ _) _

theorem proceed (att : Attended port e a) :
    ∃ a', Attended port (SingleTimerExecutor.proceed port e) a' ∧
      a'.pending.length ≤ a.pending.length := by
  unfold SingleTimerExecutor.proceed
  split
  · rename_i control looping
    exact att.executeOne looping
  · rename_i needToResetTimer wasLocked control finishing
    dsimp only
    have last : a.firmwareErrors = [] → control = [] ∧ e.reentrantFlag = false ∧
        (needToResetTimer = false → Watched port e a) := by
      intro none
      have covered := att.covered none
      rw [finishing] at covered
      generalize e.reentrantFlag = flag at covered
      cases covered with
      | finish watched => exact ⟨rfl, rfl, watched⟩
    cases needToResetTimer with
    | false =>
      refine ⟨a, ⟨att.represents, att.late, fun none => ?_⟩, le_refl _⟩
      obtain ⟨rfl, clear, watched⟩ := last none
      simp only [Bool.false_eq_true, ↓reduceIte, clear]
      exact .rest ((watched rfl).of_head rfl (le_refl _) rfl)
    | true =>
      obtain ⟨timer, ⟨armed, watched⟩ | ⟨message, failed⟩⟩ :=
        scheduleTimerCallback att.represents att.late
      · refine ⟨a, ?_, le_refl _⟩
        rw [if_pos rfl, armed]
        refine ⟨att.represents, att.late, fun none => ?_⟩
        obtain ⟨rfl, clear, -⟩ := last none
        dsimp only
        rw [clear]
        exact .rest ((watched none).of_head rfl (le_refl _) rfl)
      · refine ⟨a.error message, ?_, le_refl _⟩
        rw [if_pos rfl, failed]
        exact error (att.represents.firmwareError message) att.late (by simp [Agenda.error])
  · exact ⟨a, att, le_refl _⟩

/-- Every event is handled, adds at most one appointment and leaves the executor attended. -/
theorem step (att : Attended port e a) (enough : a.pending.length < steps) (event : ExecutorEvent) :
    ∃ e' a', e.step port steps event = some e' ∧ Attended port e' a' ∧
      a'.pending.length ≤ a.pending.length + 1 := by
  have ignored : ∃ e' a', some e = some e' ∧ Attended port e' a' ∧
      a'.pending.length ≤ a.pending.length + 1 := ⟨e, a, rfl, att, by omega⟩
  cases event with
  | schedule msg scheduling nt action =>
    simp only [SingleTimerExecutor.step]
    split
    · rename_i callable
      exact att.schedule callable enough
    · exact ignored
  | cancel scheduling =>
    simp only [SingleTimerExecutor.step]
    split
    · obtain ⟨e', a', run, att', short⟩ := att.cancel (r := scheduling) enough
      exact ⟨e', a', run, att', by omega⟩
    · exact ignored
  | onTimerCallback =>
    simp only [SingleTimerExecutor.step]
    split
    · rename_i rest
      exact ⟨_, a, rfl, att.onTimerCallback rest.1, by omega⟩
    · exact ignored
  | callbackReturns =>
    simp only [SingleTimerExecutor.step]
    split
    · rename_i control running
      obtain ⟨a', att', same⟩ := att.callbackReturns running
      exact ⟨_, a', rfl, att', by rw [same]; omega⟩
    · exact ignored
  | unlock =>
    simp only [SingleTimerExecutor.step]
    split
    · refine ⟨_, a, rfl, ⟨att.represents, att.late, fun none => ?_⟩, by omega⟩
      exact (att.covered none).mono rfl (le_refl _) (List.Subset.refl _)
    · exact ignored
  | timePasses ticks =>
    refine ⟨_, a, rfl, ⟨att.represents, att.late, fun none => ?_⟩, by omega⟩
    exact (att.covered none).mono rfl (le_add_of_nonneg_right (Int.natCast_nonneg ticks))
      (List.Subset.refl _)
  | proceed =>
    obtain ⟨a', att', short⟩ := att.proceed
    exact ⟨_, a', rfl, att', by omega⟩

theorem construct (port : Port) (hwStarted : Bool) (clock : Tick) :
    Attended port (.construct port hwStarted clock) (.fresh port.lateDelay) :=
  ⟨Represents.construct _, rfl, fun _ => .rest (fun first head => by simp [Agenda.fresh] at head)⟩

theorem guarded (att : Attended port e a) (rest : e.control = [])
    (none : e.queue.firmwareErrors = []) : e.Guarded port := by
  have covered := att.covered (att.represents.firmwareErrors.symm.trans none)
  rw [rest] at covered
  generalize e.reentrantFlag = flag at covered
  cases covered with
  | rest watched =>
    intro head isHead
    have start := att.represents.linked.start_eq
    rw [isHead] at start
    cases shape : a.pending with
    | nil => simp [Agenda.keys, shape] at start
    | cons first others =>
      obtain rfl : head = first.key := by simpa [Agenda.keys, shape] using start
      rw [(att.represents.stored first (by simp [shape])).1]
      exact watched first (by rw [shape]; rfl)

end Attended

/-- However calls, callbacks, interrupts and the clock interleave, the executor gets
through them, and whenever it is at rest without a firmware error the first pending
event is guarded by an outstanding interrupt. -/
theorem executor_run_guarded (port : Port) (hwStarted : Bool) (clock : Tick)
    (events : List ExecutorEvent) (extra : Nat) :
    ∃ e, Machine.run (SingleTimerExecutor.step port (events.length + 1 + extra))
        (.construct port hwStarted clock) events = some e ∧
      (e.control = [] → e.queue.firmwareErrors = [] → e.Guarded port) := by
  obtain ⟨e, run, a, att, -⟩ := @Machine.run_enabled _ _
    (SingleTimerExecutor.step port (events.length + 1 + extra)) (.construct port hwStarted clock)
    events 0
    (fun n e => ∃ a, Attended port e a ∧
      a.pending.length + n < events.length + 1 + extra)
    (by
      intro n e event ⟨a, att, budget⟩
      obtain ⟨e', a', taken, att', short⟩ := @Attended.step _ _ _ (events.length + 1 + extra) att
        (by omega) event
      exact ⟨e', taken, a', att', by omega⟩)
    ⟨_, Attended.construct port hwStarted clock, by simp [Agenda.fresh]; omega⟩
  exact ⟨e, run, fun rest none => att.guarded rest none⟩

end FomeFw.Timer
