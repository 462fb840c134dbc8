/-! Mailboxes of the operating system: a bounded queue of messages, which are pointers. The
library is not part of the firmware's sources; what is known of it is what its documentation
says of the calls, and the firmware uses these calls under its lock. -/
namespace FomeFw.Containers

/-- `chibios_rt::Mailbox<T, size>`: a message is taken in while there is room, and the oldest
one is given out. `queued` is what the mailbox holds, the oldest message first. -/
structure MailboxApi (α : Type) (size : Nat) where
  Mailbox : Type
  /-- The constructor. -/
  empty : Mailbox
  queued : Mailbox → List α
  /-- Whether the result is `MSG_OK`, or else `MSG_TIMEOUT`. -/
  postI : Mailbox → α → Bool × Mailbox
  /-- The message, or none for `MSG_TIMEOUT`. -/
  fetchI : Mailbox → Option α × Mailbox
  getUsedCountI : Mailbox → Nat
  queued_empty : queued empty = []
  postI_room : ∀ m a, (queued m).length < size →
    (postI m a).1 = true ∧ queued (postI m a).2 = queued m ++ [a]
  postI_full : ∀ m a, size ≤ (queued m).length →
    (postI m a).1 = false ∧ queued (postI m a).2 = queued m
  fetchI_queued : ∀ m, (fetchI m).1 = (queued m).head? ∧ queued (fetchI m).2 = (queued m).tail
  getUsedCountI_eq : ∀ m, getUsedCountI m = (queued m).length

namespace MailboxApi

variable {α : Type} {size : Nat} (api : MailboxApi α size)

theorem fetchI_nil {m : api.Mailbox} (none : api.queued m = []) :
    (api.fetchI m).1 = .none ∧ api.queued (api.fetchI m).2 = [] := by
  simp [api.fetchI_queued m, none]

theorem fetchI_cons {m : api.Mailbox} (first : api.queued m = a :: rest) :
    (api.fetchI m).1 = some a ∧ api.queued (api.fetchI m).2 = rest := by
  simp [api.fetchI_queued m, first]

/-- Posting one message after the other, as far as there is room. -/
def postEach (m : api.Mailbox) (messages : List α) : api.Mailbox :=
  messages.foldl (fun m a => (api.postI m a).2) m

theorem queued_postEach (m : api.Mailbox) (messages : List α) :
    api.queued (api.postEach m messages) =
      api.queued m ++ messages.take (size - (api.queued m).length) := by
  induction messages generalizing m with
  | nil => simp [postEach]
  | cons a messages ih =>
    have rest := ih (api.postI m a).2
    rw [postEach, List.foldl_cons, ← postEach, rest]
    by_cases room : (api.queued m).length < size
    · rw [(api.postI_room m a room).2, List.length_append, List.length_singleton,
        List.append_assoc, List.singleton_append,
        show size - (api.queued m).length = size - ((api.queued m).length + 1) + 1 by omega,
        List.take_succ_cons]
    · have full : size - (api.queued m).length = 0 := by omega
      rw [(api.postI_full m a (by omega)).2, full, List.take_zero, List.take_zero]

/-- `while (fetchI(&dummy) != MSG_TIMEOUT);`, with the number of rounds it may make. -/
def drain (m : api.Mailbox) : Nat → api.Mailbox
  | 0 => m
  | rounds + 1 =>
    match api.fetchI m with
    | (none, m) => m
    | (some _, m) => drain m rounds

theorem queued_drain (m : api.Mailbox) (enough : (api.queued m).length < rounds) :
    api.queued (api.drain m rounds) = [] := by
  induction rounds generalizing m with
  | zero => omega
  | succ rounds ih =>
    rw [drain]
    cases held : api.queued m with
    | nil =>
      have fetched := api.fetchI_nil held
      split
      · next last same => rw [same] at fetched; exact fetched.2
      · next a rest same => rw [same] at fetched; cases fetched.1
    | cons a rest =>
      have fetched := api.fetchI_cons held
      split
      · next last same => rw [same] at fetched; cases fetched.1
      · next b after same =>
        rw [same] at fetched
        refine ih after ?_
        have shorter : (api.queued after).length = rest.length := congrArg List.length fetched.2
        rw [held, List.length_cons] at enough
        omega

end MailboxApi

/-- A mailbox that is the list of its messages. -/
def listMailbox (α : Type) (size : Nat) : MailboxApi α size where
  Mailbox := List α
  empty := []
  queued := id
  postI m a := if m.length < size then (true, m ++ [a]) else (false, m)
  fetchI m := (m.head?, m.tail)
  getUsedCountI := List.length
  queued_empty := rfl
  postI_room m a room := by simp [show m.length < size from room]
  postI_full m a full := by
    have none : ¬ m.length < size := Nat.not_lt.mpr full
    simp [none]
  fetchI_queued m := ⟨rfl, rfl⟩
  getUsedCountI_eq m := rfl

end FomeFw.Containers
