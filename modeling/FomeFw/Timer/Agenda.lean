import FomeFw.Lib.TimedQueue
import FomeFw.Timer.EventQueue

/-! What the event queue is for: a time-ordered agenda of records with actions to
run, and the pool records that are not in use. Ill-formed agendas cannot be
built. This is the specification side; `EventQueueProofs` relates the linked
lists to it. -/
namespace FomeFw.Timer
open TimedQueue

abbrev Appointment := Entry Ref Tick Action

structure Agenda where
  pending : List Appointment
  free : List Ref
  lateDelay : Tick
  firmwareErrors : List String
  sorted : Sorted pending
  distinct : Distinct pending
  runnable : ∀ e ∈ pending, e.payload.isSet = true
  pooled : ∀ r ∈ free, ∃ slot, r = .pool slot
  spare : free.Nodup
  apart : ∀ r ∈ free, r ∉ pending.map Entry.key

namespace Agenda

def keys (a : Agenda) : List Ref := a.pending.map Entry.key

theorem owned_notFree (a : Agenda) (id : Nat) : .owned id ∉ a.free := by
  intro member
  obtain ⟨slot, same⟩ := a.pooled _ member
  exact Ref.noConfusion same

def error (a : Agenda) (message : String) : Agenda :=
  { a with firmwareErrors := a.firmwareErrors ++ [message] }

/-- Enter an appointment for a record that is neither pending nor on the free list. -/
def enter (a : Agenda) (e : Appointment) (runs : e.payload.isSet = true) (fresh : e.key ∉ a.keys)
    (taken : e.key ∉ a.free) : Agenda :=
  { a with
    pending := TimedQueue.insert e a.pending
    sorted := insert_sorted a.sorted
    distinct := insert_distinct a.distinct fresh
    runnable := by
      intro b member
      rcases List.mem_cons.mp ((insert_perm e a.pending).mem_iff.mp member) with rfl | member
      · exact runs
      · exact a.runnable b member
    apart := by
      intro r member pending
      rw [((insert_perm e a.pending).map Entry.key).mem_iff, List.map_cons] at pending
      rcases List.mem_cons.mp pending with rfl | pending
      · exact taken member
      · exact a.apart r member pending }

/-- The checks a record has to pass, in the order the code makes them. -/
def enroll (a : Agenda) (r : Ref) (taken : r ∉ a.free) (timeX : Tick) (action : Action) :
    Bool × Agenda :=
  if null : action.callback = none then (false, a.error "NULL callback")
  else if scheduled : r ∈ a.keys then (false, a)
  else
    (leads timeX a.pending,
      a.enter ⟨r, timeX, action⟩ (Option.isSome_iff_ne_none.mpr null) scheduled taken)

/-- Take the first record off the free list. -/
def spend (a : Agenda) (rest : List Ref) (split : a.free = r :: rest) : Agenda :=
  { a with
    free := rest
    pooled := fun s member => a.pooled s (split ▸ List.mem_cons_of_mem r member)
    spare := (List.nodup_cons.mp (split ▸ a.spare)).2
    apart := fun s member => a.apart s (split ▸ List.mem_cons_of_mem r member) }

theorem spend_taken {a : Agenda} (split : a.free = r :: rest) : r ∉ (a.spend rest split).free :=
  (List.nodup_cons.mp (split ▸ a.spare)).1

/-- `owner` is the caller's record, or none to use one from the pool. -/
def insertTask (a : Agenda) (owner : Option Nat) (timeX : Tick) (action : Action) : Bool × Agenda :=
  match owner with
  | some id => a.enroll (.owned id) (a.owned_notFree id) timeX action
  | none =>
    match split : a.free with
    | [] => (false, a)
    | r :: rest => (a.spend rest split).enroll r (spend_taken split) timeX action

theorem insertTask_exhausted {a : Agenda} (empty : a.free = []) :
    a.insertTask none timeX action = (false, a) := by
  simp only [insertTask]
  split
  · rfl
  · rename_i split
    simp [empty] at split

theorem insertTask_pool {a : Agenda} (split : a.free = r :: rest) :
    a.insertTask none timeX action =
      (a.spend rest split).enroll r (spend_taken split) timeX action := by
  simp only [insertTask]
  split
  · rename_i empty
    simp [empty] at split
  · rename_i other
    obtain ⟨rfl, rfl⟩ := List.cons.inj (other.symm.trans split)
    rfl

/-- The record an insertion enters, if it is not refused. -/
def admits (a : Agenda) (owner : Option Nat) (action : Action) : Option Ref :=
  ((owner.map .owned).orElse fun _ => a.free.head?).filter fun r =>
    decide (action.callback ≠ none) && decide (r ∉ a.keys)

theorem admits_fresh {a : Agenda} (admitted : a.admits owner action = some r) : r ∉ a.keys := by
  simp only [admits, Option.filter_eq_some_iff, Bool.and_eq_true, decide_eq_true_eq] at admitted
  exact admitted.2.2

theorem enroll_pending (a : Agenda) (r : Ref) (taken : r ∉ a.free) (timeX : Tick) (action : Action) :
    (a.enroll r taken timeX action).2.pending =
      if action.callback ≠ none ∧ r ∉ a.keys then TimedQueue.insert ⟨r, timeX, action⟩ a.pending
      else a.pending := by
  unfold enroll
  by_cases null : action.callback = none
  · simp [null, error]
  · by_cases scheduled : r ∈ a.keys <;> simp [null, scheduled, enter]

theorem enroll_lateDelay (a : Agenda) (r : Ref) (taken : r ∉ a.free) (timeX : Tick)
    (action : Action) : (a.enroll r taken timeX action).2.lateDelay = a.lateDelay := by
  unfold enroll
  split
  · rfl
  · split <;> rfl

/-- An insertion that is not refused enters one appointment; a refused one changes
no appointment. -/
theorem insertTask_pending (a : Agenda) (owner : Option Nat) (timeX : Tick) (action : Action) :
    (a.insertTask owner timeX action).2.pending =
      match a.admits owner action with
      | none => a.pending
      | some r => TimedQueue.insert ⟨r, timeX, action⟩ a.pending := by
  cases owner with
  | some id =>
    simp only [insertTask, enroll_pending, admits]
    by_cases accepted : action.callback ≠ none ∧ Ref.owned id ∉ a.keys <;>
      simp [Option.filter_some, accepted]
  | none =>
    cases split : a.free with
    | nil => simp [insertTask_exhausted split, admits, split]
    | cons r rest =>
      have same : (a.spend rest split).keys = a.keys := rfl
      have kept : (a.spend rest split).pending = a.pending := rfl
      rw [insertTask_pool split, enroll_pending, same, kept]
      by_cases accepted : action.callback ≠ none ∧ r ∉ a.keys <;>
        simp [admits, split, Option.filter_some, accepted]

theorem insertTask_lateDelay (a : Agenda) (owner : Option Nat) (timeX : Tick) (action : Action) :
    (a.insertTask owner timeX action).2.lateDelay = a.lateDelay := by
  cases owner with
  | some id => exact enroll_lateDelay ..
  | none =>
    cases split : a.free with
    | nil => rw [insertTask_exhausted split]
    | cons r rest =>
      rw [insertTask_pool split]
      exact enroll_lateDelay ..

theorem insertTask_length (a : Agenda) (owner : Option Nat) (timeX : Tick) (action : Action) :
    (a.insertTask owner timeX action).2.pending.length ≤ a.pending.length + 1 := by
  rw [insertTask_pending]
  split
  · omega
  · rw [(insert_perm _ _).length_eq, List.length_cons]

theorem enroll_behind {a : Agenda} {taken : r ∉ a.free}
    (behind : (a.enroll r taken timeX action).1 = false) :
    (a.enroll r taken timeX action).2.pending.head? = a.pending.head? := by
  rw [enroll_pending]
  split
  · rename_i accepted
    simp only [enroll, accepted, ↓reduceDIte] at behind
    simp [insert_head, behind]
  · rfl

/-- Unless the result says so, the first appointment stays the first. -/
theorem insertTask_behind {a : Agenda} (behind : (a.insertTask owner timeX action).1 = false) :
    (a.insertTask owner timeX action).2.pending.head? = a.pending.head? := by
  cases owner with
  | some id => exact enroll_behind behind
  | none =>
    cases split : a.free with
    | nil => rw [insertTask_exhausted split]
    | cons r rest =>
      rw [insertTask_pool split] at behind ⊢
      exact enroll_behind behind

theorem enroll_errors (a : Agenda) (r : Ref) (taken : r ∉ a.free) (timeX : Tick) (action : Action) :
    a.firmwareErrors <+: (a.enroll r taken timeX action).2.firmwareErrors := by
  unfold enroll
  split
  · exact List.prefix_append _ _
  · split <;> exact List.prefix_rfl

theorem insertTask_errors (a : Agenda) (owner : Option Nat) (timeX : Tick) (action : Action) :
    a.firmwareErrors <+: (a.insertTask owner timeX action).2.firmwareErrors := by
  cases owner with
  | some id => exact enroll_errors ..
  | none =>
    cases split : a.free with
    | nil =>
      have same : (a.insertTask none timeX action).2.firmwareErrors = a.firmwareErrors :=
        congrArg (fun r => r.2.firmwareErrors) (insertTask_exhausted split)
      exact ⟨[], by rw [same, List.append_nil]⟩
    | cons r rest =>
      rw [insertTask_pool split]
      exact enroll_errors (a.spend rest split) ..

theorem head_time_le {a : Agenda} (head : a.pending.head? = some first) (pending : e ∈ a.pending) :
    first.time ≤ e.time := by
  obtain ⟨rest, shape⟩ := List.head?_eq_some_iff.mp head
  have sorted := a.sorted
  rw [shape] at sorted pending
  rcases List.mem_cons.mp pending with rfl | member
  · exact le_refl _
  · exact (List.pairwise_cons.mp sorted).1 e member

def remove (a : Agenda) (r : Ref) : Agenda :=
  { a with
    pending := erase r a.pending
    sorted := erase_sorted a.sorted
    distinct := erase_distinct a.distinct
    runnable := fun e member => a.runnable e ((erase_sublist r a.pending).subset member)
    apart := fun s member pending =>
      a.apart s member (((erase_sublist r a.pending).map Entry.key).subset pending) }

theorem remove_of_notMem {a : Agenda} (absent : r ∉ a.keys) : a.remove r = a := by
  have same := erase_of_notMem absent
  cases a
  simp_all only [remove]

/-- A record that went off the agenda returns to the free list if it is the pool's. -/
def release (free : List Ref) : Ref → List Ref
  | .pool slot => .pool slot :: free
  | .owned _ => free

theorem mem_release {free : List Ref} (member : s ∈ release free r) : s = r ∨ s ∈ free := by
  cases r with
  | owned id => exact .inr member
  | pool slot => exact List.mem_cons.mp member

def reclaim (a : Agenda) (r : Ref) (struck : r ∉ a.keys) (taken : r ∉ a.free) : Agenda :=
  { a with
    free := release a.free r
    pooled := by
      intro s member
      cases r with
      | owned id => exact a.pooled s member
      | pool slot =>
        rcases List.mem_cons.mp member with rfl | member
        · exact ⟨slot, rfl⟩
        · exact a.pooled s member
    spare := by
      cases r with
      | owned id => exact a.spare
      | pool slot => exact List.nodup_cons.mpr ⟨taken, a.spare⟩
    apart := by
      intro s member
      rcases mem_release member with rfl | member
      · exact struck
      · exact a.apart s member }

/-- An appointment leaves the agenda in order to run. -/
def begin (a : Agenda) (e : Appointment) (pending : e ∈ a.pending) : Agenda :=
  (a.remove e.key).reclaim e.key (notMem_erase a.distinct)
    (fun member => a.apart _ member (List.mem_map_of_mem pending))

/-- The appointment that may run at `now`, and the agenda without it. -/
def takeDue (a : Agenda) (now : Tick) : Option (Appointment × Agenda) :=
  match split : a.pending with
  | [] => none
  | e :: _ =>
    if e.time > now + a.lateDelay then none else some (e, a.begin e (by simp [split]))

theorem takeDue_nil {a : Agenda} (empty : a.pending = []) : a.takeDue now = none := by
  simp only [takeDue]
  split
  · rfl
  · rename_i split
    simp [empty] at split

theorem takeDue_cons {a : Agenda} (split : a.pending = e :: rest) :
    a.takeDue now =
      if e.time > now + a.lateDelay then none else some (e, a.begin e (by simp [split])) := by
  simp only [takeDue]
  split
  · rename_i empty
    simp [empty] at split
  · rename_i other
    obtain ⟨rfl, rfl⟩ := List.cons.inj (other.symm.trans split)
    rfl

theorem takeDue_some {a : Agenda} (due : a.takeDue now = some (e, a')) :
    ∃ rest, ∃ split : a.pending = e :: rest,
      e.time ≤ now + a.lateDelay ∧ a' = a.begin e (by simp [split]) := by
  by_cases empty : a.pending = []
  · simp [takeDue_nil empty] at due
  obtain ⟨first, rest, split⟩ := List.exists_cons_of_ne_nil empty
  rw [takeDue_cons split] at due
  split at due
  · contradiction
  · rename_i early
    simp only [Option.some.injEq, Prod.mk.injEq] at due
    obtain ⟨rfl, rfl⟩ := due
    exact ⟨rest, split, not_lt.mp early, rfl⟩

theorem remove_pending_head {a : Agenda} (split : a.pending = e :: rest) :
    (a.remove e.key).pending = rest := by
  simp [remove, split, erase]

/-- `EventQueue::clear` strikes everything off without returning pool records. -/
def clear (a : Agenda) : Agenda :=
  { a with
    pending := []
    sorted := .nil
    distinct := List.nodup_nil
    runnable := by simp
    apart := by simp }

def getNextEventTime (a : Agenda) (nowX : Tick) : Option Tick :=
  match a.pending with
  | [] => none
  | e :: _ => if e.time ≤ nowX then some (nowX + a.lateDelay) else some e.time

/-- The whole pool is free, nothing is pending. -/
def fresh (lateDelay : Tick) : Agenda where
  pending := []
  free := (List.finRange poolSize).reverse.map .pool
  lateDelay
  firmwareErrors := []
  sorted := .nil
  distinct := List.nodup_nil
  runnable := by simp
  pooled := by simp
  spare := (List.nodup_reverse.mpr (List.nodup_finRange poolSize)).map (fun _ _ => Ref.pool.inj)
  apart := by simp

end Agenda
end FomeFw.Timer
