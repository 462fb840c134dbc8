import FomeFw.Console.BufferUsers
import Mathlib.Data.Fintype.Card
import Mathlib.Data.List.FinRange
import Mathlib.Data.List.Perm.Basic

/-! Where the tooth logger's buffers are. Logging and reading only move them; starting the
logger puts all of them in the free list, wherever they are. -/
namespace FomeFw.Console
open Containers Trigger Machine

variable {bufferCount : Nat} {api : MailboxApi (Fin bufferCount) bufferCount}

theorem mem_take_finRange {n : Nat} (k : Nat) (b : Fin n) :
    b ∈ (List.finRange n).take k ↔ b.val < k := by
  rw [List.mem_take_iff_getElem]
  constructor
  · rintro ⟨i, inside, rfl⟩
    simp only [List.getElem_finRange, Fin.val_cast]
    omega
  · intro below
    refine ⟨b.val, ?_, ?_⟩
    · simp only [List.length_finRange]
      omega
    · simp

namespace ToothLogger

/-- The buffers in the two lists and the one that is written. -/
def held (t : ToothLogger api) : List (Fin bufferCount) :=
  api.queued t.freeBuffers ++ api.queued t.filledBuffers ++ t.currentBuffer.toList

/-- The buffers are moved, and only they are written. -/
structure Moves (t t' : ToothLogger api) : Prop where
  held : t'.held.Perm t.held
  memory : ∀ b, b ∉ t.held → t'.memory b = t.memory b

theorem Moves.trans {t t' t'' : ToothLogger api} (first : Moves t t') (second : Moves t' t'') :
    Moves t t'' where
  held := second.held.trans first.held
  memory b elsewhere := by
    rw [second.memory b (fun inside => elsewhere (first.held.mem_iff.mp inside))]
    exact first.memory b elsewhere

theorem findBuffer_moves (t : ToothLogger api) (timestamp : Int) :
    Moves t (t.findBuffer timestamp).1 ∧
      (t.findBuffer timestamp).1.currentBuffer = (t.findBuffer timestamp).2 := by
  unfold findBuffer
  cases current : t.currentBuffer with
  | some buffer => exact ⟨⟨.refl _, fun _ _ => rfl⟩, current⟩
  | none =>
    cases free : api.queued t.freeBuffers with
    | nil =>
      obtain ⟨nothing, left⟩ := api.fetchI_nil free
      rcases fetched : api.fetchI t.freeBuffers with ⟨result, freeBuffers⟩
      rw [fetched] at nothing left
      subst nothing
      refine ⟨⟨?_, fun _ _ => rfl⟩, rfl⟩
      simp [held, free, left, current]
    | cons buffer rest =>
      obtain ⟨found, left⟩ := api.fetchI_cons free
      rcases fetched : api.fetchI t.freeBuffers with ⟨result, freeBuffers⟩
      rw [fetched] at found left
      subst found
      refine ⟨⟨?_, ?_⟩, rfl⟩
      · simp only [held, free, left, current, Option.toList_none, Option.toList_some,
          List.append_nil, List.cons_append]
        exact List.perm_append_singleton buffer _
      · intro b elsewhere
        apply Function.update_of_ne
        rintro rfl
        apply elsewhere
        simp [held, free]

theorem store_moves {t : ToothLogger api} {buffer : Fin bufferCount}
    (current : t.currentBuffer = some buffer) (e : CompositeLogger) : Moves t (t.store buffer e) where
  held := .refl _
  memory b elsewhere := by
    apply Function.update_of_ne
    rintro rfl
    apply elsewhere
    simp [held, current]

theorem cycle_moves {t : ToothLogger api} {buffer : Fin bufferCount}
    (current : t.currentBuffer = some buffer) (few : t.held.length ≤ bufferCount) (nowNt : Int) :
    Moves t (t.cycle buffer nowNt) := by
  simp only [held, current, Option.toList_some, List.length_append, List.length_singleton] at few
  obtain ⟨-, posted⟩ := api.postI_room t.filledBuffers buffer (by omega)
  unfold cycle
  simp only
  split_ifs
  · refine ⟨?_, fun _ _ => rfl⟩
    simp [held, posted, current]
  · exact ⟨.refl _, fun _ _ => rfl⟩

theorem setNextCompositeEntry_moves (t : ToothLogger api) (few : t.held.length ≤ bufferCount)
    (timestamp : Int) (input : LogInput) : Moves t (t.setNextCompositeEntry timestamp input) := by
  obtain ⟨found, current⟩ := t.findBuffer_moves timestamp
  unfold setNextCompositeEntry
  split
  · next t' same =>
    rw [same] at found
    exact found
  · next t' buffer same =>
    rw [same] at found current
    have stored := store_moves current (t'.entry timestamp input.shaftSynchronized)
    have few' := few
    rw [← found.held.length_eq, ← stored.held.length_eq] at few'
    have cycled := cycle_moves (show (t'.store buffer _).currentBuffer = some buffer from current)
      few' input.nowNt
    exact (found.trans stored).trans cycled

theorem logTriggerTooth_moves (t : ToothLogger api) (few : t.held.length ≤ bufferCount)
    (input : LogInput) : Moves t (t.logTriggerTooth input) := by
  unfold logTriggerTooth
  split_ifs
  · exact ⟨.refl _, fun _ _ => rfl⟩
  · exact ⟨.refl _, fun _ _ => rfl⟩
  · exact t.setNextCompositeEntry_moves few input.timestamp input

theorem logPrimaryTriggerTooth_moves {t : ToothLogger api} (few : t.held.length ≤ bufferCount)
    (input : LogInput) (state : Bool) : Moves t (t.logPrimaryTriggerTooth input state) :=
  let noted : ToothLogger api := { t with wasSecondary := false, currentTrigger1 := state }
  have same : Moves t noted := ⟨.refl _, fun _ _ => rfl⟩
  same.trans (noted.logTriggerTooth_moves few input)

theorem logCamTriggerTooth_moves {t : ToothLogger api} (few : t.held.length ≤ bufferCount)
    (input : LogInput) (camIndex : Nat) (state : Bool) :
    Moves t (t.logCamTriggerTooth input camIndex state) :=
  let noted : ToothLogger api := { t with
    wasSecondary := true
    camStates := Function.update t.camStates camIndex state }
  have same : Moves t noted := ⟨.refl _, fun _ _ => rfl⟩
  same.trans (noted.logTriggerTooth_moves few input)

theorem logTriggerTopDeadCenter_moves {t : ToothLogger api} (few : t.held.length ≤ bufferCount)
    (input : LogInput) : Moves t (t.logTriggerTopDeadCenter input) := by
  unfold logTriggerTopDeadCenter
  split_ifs
  · exact ⟨.refl _, fun _ _ => rfl⟩
  · let raised : ToothLogger api := { t with currentTdc := true }
    let first := raised.setNextCompositeEntry input.timestamp input
    let lowered : ToothLogger api := { first with currentTdc := false }
    have up : Moves t raised := ⟨.refl _, fun _ _ => rfl⟩
    have logged : Moves t first := up.trans (raised.setNextCompositeEntry_moves few input.timestamp input)
    have down : Moves t lowered := logged.trans ⟨.refl _, fun _ _ => rfl⟩
    have few' : lowered.held.length ≤ bufferCount := by
      rw [down.held.length_eq]
      exact few
    exact down.trans (lowered.setNextCompositeEntry_moves few' (input.timestamp + 10) input)

/-- What a reader gets is no longer held. -/
theorem getToothLoggerBuffer_held (t : ToothLogger api) :
    (t.getToothLoggerBuffer.1.held ++ t.getToothLoggerBuffer.2.toList).Perm t.held ∧
      t.getToothLoggerBuffer.1.memory = t.memory := by
  unfold getToothLoggerBuffer
  cases filled : api.queued t.filledBuffers with
  | nil =>
    obtain ⟨nothing, left⟩ := api.fetchI_nil filled
    rcases fetched : api.fetchI t.filledBuffers with ⟨result, filledBuffers⟩
    rw [fetched] at nothing left
    subst nothing
    refine ⟨?_, rfl⟩
    simp [held, filled, left]
  | cons buffer rest =>
    obtain ⟨found, left⟩ := api.fetchI_cons filled
    rcases fetched : api.fetchI t.filledBuffers with ⟨result, filledBuffers⟩
    rw [fetched] at found left
    subst found
    refine ⟨?_, rfl⟩
    simp only [held, filled, left, Option.toList_some, List.append_assoc, List.cons_append]
    apply List.Perm.append_left
    rw [← List.append_assoc]
    exact List.perm_append_singleton buffer _

/-- What a reader returns is held again. -/
theorem returnToothLoggerBuffer_held {t : ToothLogger api} (few : t.held.length < bufferCount)
    (buffer : Fin bufferCount) :
    (t.returnToothLoggerBuffer buffer).held.Perm (buffer :: t.held) ∧
      (t.returnToothLoggerBuffer buffer).memory = t.memory := by
  have room : (api.queued t.freeBuffers).length < bufferCount := by
    simp only [held, List.length_append] at few
    omega
  obtain ⟨ok, posted⟩ := api.postI_room t.freeBuffers buffer room
  rcases result : api.postI t.freeBuffers buffer with ⟨done, freeBuffers⟩
  rw [result] at ok posted
  subst ok
  have back : (api.queued freeBuffers ++ api.queued t.filledBuffers ++
      t.currentBuffer.toList).Perm (buffer :: t.held) := by
    rw [posted]
    simp only [held, List.append_assoc, List.singleton_append]
    exact List.perm_middle
  unfold returnToothLoggerBuffer
  simp only [result, Bool.not_true, Bool.false_eq_true, if_false]
  split_ifs <;> exact ⟨back, rfl⟩

/-- Starting empties all places but the free list, and adds to it as many of the first
buffers as there is room for. -/
theorem start_held {t : ToothLogger api} (few : t.held.length ≤ bufferCount) (nowUs : Nat) :
    (t.start nowUs).held = api.queued t.freeBuffers ++
      (List.finRange bufferCount).take (bufferCount - (api.queued t.freeBuffers).length) := by
  have enough : (api.queued t.filledBuffers).length < bufferCount + 1 := by
    simp only [held, List.length_append] at few
    omega
  simp [held, start, api.queued_drain _ enough, api.queued_postEach]

end ToothLogger

namespace BufferUsers

variable {s : BufferUsers api}

/-- The free list, the filled list, the buffer that is written and those being read. -/
def places (s : BufferUsers api) : List (Fin bufferCount) := s.toothLogger.held ++ s.reading

/-- Once there are buffers, each is in exactly one place. -/
def Conserved (s : BufferUsers api) : Prop :=
  s.started = true → ∀ buffer, s.places.count buffer = 1

/-- The step does not write what is being read. -/
def SparesReaders (s : BufferUsers api) (e : BufferEvent bufferCount) : Prop :=
  ∀ buffer ∈ s.reading, (s.step e).toothLogger.memory buffer = s.toothLogger.memory buffer

/-- The tooth logger is started when no buffer is out, and when just the last buffers are
still in the free list. -/
def StartsWhole (s : BufferUsers api) : BufferEvent bufferCount → Prop
  | .enableToothLogger _ => s.sCurrentUser = .none →
    s.reading = [] ∧ ∀ buffer : Fin bufferCount,
      buffer ∈ api.queued s.toothLogger.freeBuffers ↔
        bufferCount - (api.queued s.toothLogger.freeBuffers).length ≤ buffer.val
  | _ => True

/-- The buffers are all there, or there are none yet. -/
def Accounted (s : BufferUsers api) : Prop :=
  s.places.Perm (if s.started then List.finRange bufferCount else [])

namespace Accounted

theorem conserved (accounted : s.Accounted) : s.Conserved := by
  intro started buffer
  rw [Accounted, started, if_pos rfl] at accounted
  rw [accounted.count_eq]
  exact List.count_eq_one_of_mem (List.nodup_finRange _) (List.mem_finRange buffer)

theorem nodup (accounted : s.Accounted) : s.places.Nodup := by
  rw [accounted.nodup_iff]
  split
  · exact List.nodup_finRange _
  · exact List.nodup_nil

theorem few (accounted : s.Accounted) : s.places.length ≤ bufferCount := by
  rw [accounted.length_eq]
  split <;> simp

theorem few_held (accounted : s.Accounted) : s.toothLogger.held.length ≤ bufferCount := by
  have few := accounted.few
  rw [places, List.length_append] at few
  omega

theorem notHeld (accounted : s.Accounted) {buffer : Fin bufferCount} (read : buffer ∈ s.reading) :
    buffer ∉ s.toothLogger.held := by
  intro held
  exact (List.nodup_append.mp accounted.nodup).2.2 buffer held buffer read rfl

/-- Of a tooth logger that moves its buffers, nothing is lost and no reader disturbed. -/
theorem moves {t' : ToothLogger api} (accounted : s.Accounted) (moved : s.toothLogger.Moves t') :
    Accounted { s with toothLogger := t' } ∧
      ∀ buffer ∈ s.reading, t'.memory buffer = s.toothLogger.memory buffer := by
  constructor
  · exact (moved.held.append_right s.reading).trans accounted
  · intro buffer read
    exact moved.memory buffer (accounted.notHeld read)

theorem getToothLoggerBuffer (accounted : s.Accounted) :
    (s.step .getToothLoggerBuffer).Accounted ∧ s.SparesReaders .getToothLoggerBuffer := by
  obtain ⟨held, memory⟩ := s.toothLogger.getToothLoggerBuffer_held
  constructor
  · have given := held.append_right s.reading
    rw [List.append_assoc] at given
    exact given.trans accounted
  · intro buffer _
    exact congrFun memory buffer

theorem returnToothLoggerBuffer (accounted : s.Accounted) (buffer : Fin bufferCount) :
    (s.step (.returnToothLoggerBuffer buffer)).Accounted ∧
      s.SparesReaders (.returnToothLoggerBuffer buffer) := by
  unfold SparesReaders
  simp only [step]
  split_ifs with read
  · have few := accounted.few
    have out := List.length_pos_of_mem read
    rw [places, List.length_append] at few
    obtain ⟨held, memory⟩ := ToothLogger.returnToothLoggerBuffer_held
      (t := s.toothLogger) (by omega) buffer
    constructor
    · have back := held.append_right (s.reading.erase buffer)
      refine back.trans (List.Perm.trans ?_ accounted)
      rw [List.cons_append]
      exact List.perm_middle.symm.trans ((List.perm_cons_erase read).symm.append_left _)
    · intro other _
      exact congrFun memory other
  · exact ⟨accounted, fun _ _ => rfl⟩

theorem enableToothLogger_taken (accounted : s.Accounted) (nowUs : Nat)
    (taken : s.sCurrentUser ≠ .none) : (s.step (.enableToothLogger nowUs)).Accounted ∧
      s.SparesReaders (.enableToothLogger nowUs) := by
  unfold SparesReaders
  simp only [step, ToothLogger.enableToothLogger_taken _ nowUs taken, Bool.or_false]
  exact ⟨accounted, fun _ _ => trivial⟩

/-- Where the buffers are when the tooth logger has started. -/
theorem started_places (accounted : s.Accounted) (nowUs : Nat) (free : s.sCurrentUser = .none) :
    (s.step (.enableToothLogger nowUs)).places = api.queued s.toothLogger.freeBuffers ++
      (List.finRange bufferCount).take (bufferCount - (api.queued s.toothLogger.freeBuffers).length) ++
      s.reading := by
  have begun := ToothLogger.start_held (t := { s.toothLogger with
    bufferHandle := { bufferPtr := true, user := .toothLogger } }) accounted.few_held nowUs
  simp only [places, step, free, ToothLogger.enableToothLogger_starts, begun]

theorem started_started (nowUs : Nat) (free : s.sCurrentUser = .none) :
    (s.step (.enableToothLogger nowUs)).started = true := by
  simp [step, free, ToothLogger.enableToothLogger_starts, ToothLogger.start]

theorem freeBuffers_nodup (accounted : s.Accounted) :
    (api.queued s.toothLogger.freeBuffers).Nodup := by
  have all := accounted.nodup
  rw [places, ToothLogger.held, List.append_assoc, List.append_assoc] at all
  exact (List.nodup_append.mp all).1

/-- Started whole, the tooth logger has each buffer in the free list once. -/
theorem enableToothLogger (accounted : s.Accounted) (nowUs : Nat) (free : s.sCurrentUser = .none)
    (whole : s.StartsWhole (.enableToothLogger nowUs)) :
    (s.step (.enableToothLogger nowUs)).Accounted := by
  obtain ⟨unread, last⟩ := whole free
  rw [Accounted, started_started nowUs free, if_pos rfl, accounted.started_places nowUs free, unread,
    List.append_nil]
  apply (List.perm_ext_iff_of_nodup _ (List.nodup_finRange _)).mpr
  · intro buffer
    rw [List.mem_append, last, mem_take_finRange]
    simp only [List.mem_finRange, iff_true]
    omega
  · apply List.nodup_append.mpr
    refine ⟨accounted.freeBuffers_nodup, (List.nodup_finRange _).sublist (List.take_sublist _ _), ?_⟩
    intro buffer held other added same
    rw [last] at held
    rw [← same, mem_take_finRange] at added
    omega

/-- Otherwise some buffer is in two places, or in none. -/
theorem startsWhole (accounted : s.Accounted) {nowUs : Nat}
    (conserved : (s.step (.enableToothLogger nowUs)).Conserved) :
    s.StartsWhole (.enableToothLogger nowUs) := by
  intro free
  have all := conserved (started_started nowUs free)
  have whole : (s.step (.enableToothLogger nowUs)).places.Perm (List.finRange bufferCount) := by
    rw [List.perm_iff_count]
    intro buffer
    rw [all buffer]
    exact (List.count_eq_one_of_mem (List.nodup_finRange _) (List.mem_finRange buffer)).symm
  rw [accounted.started_places nowUs free] at whole
  have few := List.Nodup.length_le_card accounted.freeBuffers_nodup
  rw [Fintype.card_fin] at few
  have unread : s.reading = [] := by
    have total := whole.length_eq
    simp only [List.length_append, List.length_take, List.length_finRange] at total
    apply List.eq_nil_of_length_eq_zero
    omega
  refine ⟨unread, ?_⟩
  rw [unread, List.append_nil] at whole
  intro buffer
  have once := (whole.nodup_iff.mpr (List.nodup_finRange _))
  have somewhere := whole.mem_iff.mpr (List.mem_finRange buffer)
  rw [List.mem_append, mem_take_finRange] at somewhere
  constructor
  · intro held
    by_contra first
    have added := (mem_take_finRange _ buffer).mpr (not_le.mp first)
    exact (List.nodup_append.mp once).2.2 buffer held buffer added rfl
  · intro last
    rcases somewhere with held | added
    · exact held
    · omega

theorem step (accounted : s.Accounted) {e : BufferEvent bufferCount} (whole : s.StartsWhole e) :
    (s.step e).Accounted ∧ s.SparesReaders e := by
  have few := accounted.few_held
  cases e with
  | enableToothLogger nowUs =>
    by_cases free : s.sCurrentUser = .none
    · refine ⟨accounted.enableToothLogger nowUs free whole, ?_⟩
      intro buffer read
      rw [(whole free).1] at read
      cases read
    · exact accounted.enableToothLogger_taken nowUs free
  | disableToothLogger => exact ⟨accounted, fun _ _ => rfl⟩
  | logPrimaryTriggerTooth input state =>
    exact accounted.moves (s.toothLogger.logPrimaryTriggerTooth_moves few input state)
  | logCamTriggerTooth input camIndex state =>
    exact accounted.moves (s.toothLogger.logCamTriggerTooth_moves few input camIndex state)
  | logTriggerTopDeadCenter input =>
    exact accounted.moves (s.toothLogger.logTriggerTopDeadCenter_moves few input)
  | getToothLoggerBuffer => exact accounted.getToothLoggerBuffer
  | returnToothLoggerBuffer buffer => exact accounted.returnToothLoggerBuffer buffer
  | _ => exact ⟨accounted, fun _ _ => rfl⟩

theorem startsWhole_of_conserved (accounted : s.Accounted) {e : BufferEvent bufferCount}
    (conserved : (s.step e).Conserved) : s.StartsWhole e := by
  cases e with
  | enableToothLogger nowUs => exact accounted.startsWhole conserved
  | _ => trivial

end Accounted

theorem new_accounted : ({} : BufferUsers api).Accounted := by
  simp [Accounted, places, ToothLogger.held, api.queued_empty]

/-- In whatever order edges, readers and switches come, the buffers are conserved and no
reader is disturbed just when the tooth logger is always started whole. -/
theorem conserved_iff (events : List (BufferEvent bufferCount)) :
    Always step Conserved ({} : BufferUsers api) events ∧
        Guarded step SparesReaders ({} : BufferUsers api) events ↔
      Guarded step StartsWhole ({} : BufferUsers api) events := by
  have keeps : ∀ (s : BufferUsers api) e, s.StartsWhole e → s.Accounted → (s.step e).Accounted :=
    fun _ _ whole accounted => (accounted.step whole).1
  have conserved : Always step Conserved ({} : BufferUsers api) events ↔
      Guarded step StartsWhole ({} : BufferUsers api) events :=
    always_iff_guarded (fun _ => Accounted.conserved)
      (fun _ _ accounted kept => accounted.startsWhole_of_conserved kept) keeps new_accounted
  rw [conserved]
  constructor
  · rintro ⟨whole, -⟩
    exact whole
  · intro whole
    refine ⟨whole, whole.imp ?_ keeps new_accounted⟩
    intro s e whole accounted
    exact (accounted.step whole).2

/-- The logger is switched off and on while a reader has the first buffer. -/
theorem conserved_restarted :
    ¬ ∀ events, Always step Conserved ({} : BufferUsers (listMailbox (Fin 6) 6)) events := by
  intro always
  let edge : LogInput := ⟨0, 2 ^ 33, true, true⟩
  have restarted := always [.enableToothLogger 0, .logPrimaryTriggerTooth edge true,
    .getToothLoggerBuffer, .disableToothLogger, .enableToothLogger 0]
  have twice := restarted.2.2.2.2.2 rfl 0
  exact absurd twice (by decide)

end BufferUsers

end FomeFw.Console
