import FomeFw.Console.BigBuffer
import FomeFw.Lib.Machine

/-! The users of the big buffer together, taking their steps in any order. The buffer has one
owner as long as nobody asks for it who has it, and the trigger scope asks only when it is
free. -/
namespace FomeFw.Console
open Containers Trigger Machine

/-- `reading` are the tooth logger's buffers that were given out and not returned; `started`
tells whether the tooth logger has had the big buffer. -/
structure BufferUsers {bufferCount : Nat} (api : MailboxApi (Fin bufferCount) bufferCount) where
  sCurrentUser : BigBufferUser := .none
  toothLogger : ToothLogger api := {}
  triggerScope : TriggerScope := {}
  perfTrace : PerfTrace := {}
  reading : List (Fin bufferCount) := []
  started : Bool := false

inductive BufferEvent (bufferCount : Nat) where
  | enableToothLogger (nowUs : Nat)
  | disableToothLogger
  | logPrimaryTriggerTooth (input : LogInput) (state : Bool)
  | logCamTriggerTooth (input : LogInput) (camIndex : Nat) (state : Bool)
  | logTriggerTopDeadCenter (input : LogInput)
  | getToothLoggerBuffer
  | returnToothLoggerBuffer (buffer : Fin bufferCount)
  | triggerScopeEnable (input : ScopeInput)
  | triggerScopeDisable
  | triggerScopeGetBuffer
  | restart (input : ScopeInput)
  | complete
  | perfTraceEnable
  | perfTraceGetBuffer
  | drop (i : Nat)

namespace BufferUsers

variable {bufferCount : Nat} {api : MailboxApi (Fin bufferCount) bufferCount}

def step (s : BufferUsers api) : BufferEvent bufferCount → BufferUsers api
  | .enableToothLogger nowUs =>
    let (toothLogger, sCurrentUser) := s.toothLogger.enableToothLogger nowUs s.sCurrentUser
    { s with toothLogger, sCurrentUser, started := s.started || toothLogger.bufferHandle.bufferPtr }
  | .disableToothLogger =>
    let (toothLogger, sCurrentUser) := s.toothLogger.disableToothLogger s.sCurrentUser
    { s with toothLogger, sCurrentUser }
  | .logPrimaryTriggerTooth input state =>
    { s with toothLogger := s.toothLogger.logPrimaryTriggerTooth input state }
  | .logCamTriggerTooth input camIndex state =>
    { s with toothLogger := s.toothLogger.logCamTriggerTooth input camIndex state }
  | .logTriggerTopDeadCenter input =>
    { s with toothLogger := s.toothLogger.logTriggerTopDeadCenter input }
  | .getToothLoggerBuffer =>
    let (toothLogger, buffer) := s.toothLogger.getToothLoggerBuffer
    { s with toothLogger, reading := buffer.toList ++ s.reading }
  | .returnToothLoggerBuffer buffer =>
    -- Only who holds a buffer gives it back.
    if buffer ∈ s.reading then
      { s with
        toothLogger := s.toothLogger.returnToothLoggerBuffer buffer
        reading := s.reading.erase buffer }
    else s
  | .triggerScopeEnable input =>
    let (triggerScope, sCurrentUser) := s.triggerScope.triggerScopeEnable input s.sCurrentUser
    { s with triggerScope, sCurrentUser }
  | .triggerScopeDisable =>
    let (triggerScope, sCurrentUser) := s.triggerScope.triggerScopeDisable s.sCurrentUser
    { s with triggerScope, sCurrentUser }
  | .triggerScopeGetBuffer => { s with triggerScope := s.triggerScope.triggerScopeGetBuffer.1 }
  | .restart input =>
    let (triggerScope, sCurrentUser) := s.triggerScope.restart input s.sCurrentUser
    { s with triggerScope, sCurrentUser }
  | .complete => { s with triggerScope := s.triggerScope.complete }
  | .perfTraceEnable =>
    let (perfTrace, sCurrentUser) := s.perfTrace.perfTraceEnable s.sCurrentUser
    { s with perfTrace, sCurrentUser }
  | .perfTraceGetBuffer => { s with perfTrace := s.perfTrace.perfTraceGetBuffer }
  | .drop i =>
    let (perfTrace, sCurrentUser) := s.perfTrace.drop i s.sCurrentUser
    { s with perfTrace, sCurrentUser }

/-- How many live handles a user has. -/
def holds (s : BufferUsers api) : BigBufferUser → Nat
  | .none => 0
  | .toothLogger => s.toothLogger.bufferHandle.bufferPtr.toNat
  | .perfTrace => s.perfTrace.traceBuffer.bufferPtr.toNat + s.perfTrace.handedOut.countP (·.bufferPtr)
  | .triggerScope => s.triggerScope.buffer.bufferPtr.toNat

/-- The current user has one live handle, and nobody else has any. -/
def SoleHolder (held : BigBufferUser → Nat) (sCurrentUser : BigBufferUser) : Prop :=
  ∀ user, held user = if user = sCurrentUser ∧ user ≠ .none then 1 else 0

structure OneOwner (s : BufferUsers api) : Prop where
  soleHolder : SoleHolder s.holds s.sCurrentUser
  toothLogger : s.toothLogger.toothLoggerEnabled = true → s.sCurrentUser = .toothLogger
  triggerScope : s.triggerScope.isRunning = true → s.sCurrentUser = .triggerScope

/-- The tooth logger is enabled when it does not have the big buffer, the trigger scope when
nobody has it. -/
def AsksInTurn (s : BufferUsers api) : BufferEvent bufferCount → Prop
  | .enableToothLogger _ => s.sCurrentUser ≠ .toothLogger
  | .triggerScopeEnable _ => s.sCurrentUser = .none
  | _ => True

instance (s : BufferUsers api) (e : BufferEvent bufferCount) : Decidable (s.AsksInTurn e) := by
  cases e <;> unfold AsksInTurn <;> infer_instance

namespace SoleHolder

variable {held held' : BigBufferUser → Nat} {sCurrentUser user : BigBufferUser}
  {handle : BigBufferHandle}

theorem live_iff {live : Bool} (sole : SoleHolder held sCurrentUser) (someone : user ≠ .none)
    (mine : held user = live.toNat) : live = true ↔ sCurrentUser = user := by
  have own := sole user
  rw [mine] at own
  cases live with
  | false => simpa [someone, eq_comm] using own
  | true => simpa [someone, eq_comm] using own

/-- A user gives up the handle in one of its variables. -/
theorem assign_empty (sole : SoleHolder held sCurrentUser) (user : BigBufferUser) (others : Nat)
    (mine : held user = handle.bufferPtr.toNat + others) (after : held' user = others)
    (frame : ∀ other, other ≠ user → held' other = held other) :
    SoleHolder held' (handle.destroy sCurrentUser) := by
  have own := sole user
  intro other
  cases live : handle.bufferPtr with
  | false =>
    rw [destroy_dead live, ← sole other]
    by_cases same : other = user
    · rw [same, after, mine, live, Bool.toNat_false, Nat.zero_add]
    · exact frame other same
  | true =>
    -- The handle is the only one, and its user the current one.
    rw [mine, live, Bool.toNat_true] at own
    rw [destroy_live live, if_neg (by tauto)]
    by_cases same : other = user
    · rw [same, after]
      split at own <;> omega
    · rw [frame other same, sole other, if_neg]
      rintro ⟨rfl, -⟩
      split at own
      · next owner => exact same owner.1.symm
      · omega

/-- A user assigns what it gets from `getBigBuffer` to one of its variables. -/
theorem acquire (sole : SoleHolder held sCurrentUser) (user : BigBufferUser) (others : Nat)
    (someone : user ≠ .none) (mine : held user = handle.bufferPtr.toNat + others)
    (after : held' user = (acquire user handle sCurrentUser).1.bufferPtr.toNat + others)
    (frame : ∀ other, other ≠ user → held' other = held other) :
    SoleHolder held' (acquire user handle sCurrentUser).2 := by
  by_cases free : sCurrentUser = .none
  · subst free
    have own := sole user
    rw [if_neg (by tauto), mine] at own
    have dead : handle.bufferPtr = false := by
      cases live : handle.bufferPtr with
      | false => rfl
      | true => rw [live, Bool.toNat_true] at own; omega
    rw [acquire_free user dead] at after ⊢
    intro other
    by_cases same : other = user
    · subst same
      rw [after, if_pos ⟨rfl, someone⟩, Bool.toNat_true]
      omega
    · rw [frame other same, sole other, if_neg (by tauto), if_neg (by tauto)]
  · rw [acquire_taken user handle free] at after ⊢
    exact sole.assign_empty user others mine (by simpa using after) frame

end SoleHolder

end BufferUsers

/-- What the tooth logger does with its buffers does not change whether it has them. -/
structure ToothLogger.SameOwner {bufferCount : Nat} {api : MailboxApi (Fin bufferCount) bufferCount}
    (t t' : ToothLogger api) : Prop where
  bufferHandle : t'.bufferHandle = t.bufferHandle
  toothLoggerEnabled : t'.toothLoggerEnabled = t.toothLoggerEnabled

namespace ToothLogger

variable {bufferCount : Nat} {api : MailboxApi (Fin bufferCount) bufferCount} {t t' : ToothLogger api}

theorem SameOwner.trans {t'' : ToothLogger api} (first : SameOwner t t') (second : SameOwner t' t'') :
    SameOwner t t'' :=
  ⟨second.1.trans first.1, second.2.trans first.2⟩

theorem getToothLoggerBuffer_sameOwner (t : ToothLogger api) :
    SameOwner t t.getToothLoggerBuffer.1 := by
  unfold getToothLoggerBuffer
  split <;> exact ⟨rfl, rfl⟩

theorem returnToothLoggerBuffer_sameOwner (t : ToothLogger api) (buffer : Fin bufferCount) :
    SameOwner t (t.returnToothLoggerBuffer buffer) := by
  unfold returnToothLoggerBuffer
  simp only
  split_ifs <;> exact ⟨rfl, rfl⟩

theorem findBuffer_sameOwner (t : ToothLogger api) (timestamp : Int) :
    SameOwner t (t.findBuffer timestamp).1 := by
  unfold findBuffer
  split
  · exact ⟨rfl, rfl⟩
  · split <;> exact ⟨rfl, rfl⟩

theorem cycle_sameOwner (t : ToothLogger api) (buffer : Fin bufferCount) (nowNt : Int) :
    SameOwner t (t.cycle buffer nowNt) := by
  unfold cycle
  simp only
  split_ifs <;> exact ⟨rfl, rfl⟩

theorem setNextCompositeEntry_sameOwner (t : ToothLogger api) (timestamp : Int) (input : LogInput) :
    SameOwner t (t.setNextCompositeEntry timestamp input) := by
  have found := t.findBuffer_sameOwner timestamp
  unfold setNextCompositeEntry
  split
  · next t' same => rw [same] at found; exact found
  · next t' buffer same =>
    rw [same] at found
    have stored : SameOwner t' (t'.store buffer (t'.entry timestamp input.shaftSynchronized)) :=
      ⟨rfl, rfl⟩
    exact (found.trans stored).trans (cycle_sameOwner _ buffer input.nowNt)

theorem logTriggerTooth_sameOwner (t : ToothLogger api) (input : LogInput) :
    SameOwner t (t.logTriggerTooth input) := by
  unfold logTriggerTooth
  split_ifs
  · exact ⟨rfl, rfl⟩
  · exact ⟨rfl, rfl⟩
  · exact t.setNextCompositeEntry_sameOwner input.timestamp input

theorem logPrimaryTriggerTooth_sameOwner (t : ToothLogger api) (input : LogInput) (state : Bool) :
    SameOwner t (t.logPrimaryTriggerTooth input state) :=
  have noted : SameOwner t { t with wasSecondary := false, currentTrigger1 := state } := ⟨rfl, rfl⟩
  noted.trans (logTriggerTooth_sameOwner _ input)

theorem logCamTriggerTooth_sameOwner (t : ToothLogger api) (input : LogInput) (camIndex : Nat)
    (state : Bool) : SameOwner t (t.logCamTriggerTooth input camIndex state) :=
  have noted : SameOwner t { t with
      wasSecondary := true
      camStates := Function.update t.camStates camIndex state } := ⟨rfl, rfl⟩
  noted.trans (logTriggerTooth_sameOwner _ input)

theorem logTriggerTopDeadCenter_sameOwner (t : ToothLogger api) (input : LogInput) :
    SameOwner t (t.logTriggerTopDeadCenter input) := by
  unfold logTriggerTopDeadCenter
  split_ifs
  · exact ⟨rfl, rfl⟩
  · have first := setNextCompositeEntry_sameOwner { t with currentTdc := true } input.timestamp input
    have second := setNextCompositeEntry_sameOwner
      { ({ t with currentTdc := true }.setNextCompositeEntry input.timestamp input) with
        currentTdc := false } (input.timestamp + 10) input
    constructor
    · exact second.bufferHandle.trans first.bufferHandle
    · exact second.toothLoggerEnabled.trans first.toothLoggerEnabled

end ToothLogger

namespace BufferUsers

variable {bufferCount : Nat} {api : MailboxApi (Fin bufferCount) bufferCount} {s : BufferUsers api}

theorem holds_of_sameOwner {t' : ToothLogger api} {reading : List (Fin bufferCount)}
    (same : s.toothLogger.SameOwner t') :
    holds { s with toothLogger := t', reading } = s.holds := by
  funext user
  cases user <;> simp [holds, same.bufferHandle]

theorem SoleHolder.sameOwner {t' : ToothLogger api} {reading : List (Fin bufferCount)}
    (sole : SoleHolder s.holds s.sCurrentUser) (same : s.toothLogger.SameOwner t') :
    SoleHolder (holds { s with toothLogger := t', reading }) s.sCurrentUser := by
  rw [holds_of_sameOwner same]
  exact sole

/-- The trigger scope and the current user after one of its functions. -/
def withScope (s : BufferUsers api) (result : TriggerScope × BigBufferUser) : BufferUsers api :=
  { s with triggerScope := result.1, sCurrentUser := result.2 }

theorem holds_withScope (result : TriggerScope × BigBufferUser) (other : BigBufferUser)
    (different : other ≠ .triggerScope) : (s.withScope result).holds other = s.holds other := by
  cases other <;> first | rfl | exact absurd rfl different

theorem triggerScopeDisable_soleHolder (sole : SoleHolder s.holds s.sCurrentUser) :
    SoleHolder (s.withScope (s.triggerScope.triggerScopeDisable s.sCurrentUser)).holds
      (s.triggerScope.buffer.destroy s.sCurrentUser) :=
  sole.assign_empty .triggerScope 0 rfl rfl (holds_withScope _)

theorem startSampling_soleHolder (input : ScopeInput) (sole : SoleHolder s.holds s.sCurrentUser) :
    SoleHolder (s.withScope (s.triggerScope.startSampling input s.sCurrentUser)).holds
      (s.triggerScope.startSampling input s.sCurrentUser).2 := by
  unfold TriggerScope.startSampling
  split_ifs
  · exact triggerScopeDisable_soleHolder sole
  · exact sole
  · exact sole

/-- What `triggerScopeEnable` has done when it comes to `startSampling`. -/
def asked (s : BufferUsers api) : BufferUsers api :=
  let (buffer, sCurrentUser) := acquire .triggerScope s.triggerScope.buffer s.sCurrentUser
  s.withScope ({ s.triggerScope with buffer, isRunning := true }, sCurrentUser)

theorem SoleHolder.asked (sole : SoleHolder s.holds s.sCurrentUser) :
    SoleHolder s.asked.holds s.asked.sCurrentUser :=
  sole.acquire .triggerScope 0 (by decide) rfl rfl (holds_withScope _)

theorem perfTraceEnable_soleHolder (sole : SoleHolder s.holds s.sCurrentUser) :
    SoleHolder (s.step .perfTraceEnable).holds (s.step .perfTraceEnable).sCurrentUser := by
  apply sole.acquire .perfTrace (s.perfTrace.handedOut.countP (·.bufferPtr)) (by decide) rfl rfl
  intro other different
  cases other <;> first | rfl | exact absurd rfl different

theorem drop_soleHolder (sole : SoleHolder s.holds s.sCurrentUser) (i : Nat) :
    SoleHolder (s.step (.drop i)).holds (s.step (.drop i)).sCurrentUser := by
  simp only [step, PerfTrace.drop]
  split
  · exact sole
  · next handle found =>
    obtain ⟨inside, rfl⟩ := List.getElem?_eq_some_iff.mp found
    let others := s.perfTrace.traceBuffer.bufferPtr.toNat +
      (s.perfTrace.handedOut.eraseIdx i).countP (·.bufferPtr)
    have mine : s.holds .perfTrace = s.perfTrace.handedOut[i].bufferPtr.toNat + others := by
      have removed := (List.getElem_cons_eraseIdx_perm inside).countP_eq (·.bufferPtr)
      rw [List.countP_cons] at removed
      cases live : s.perfTrace.handedOut[i].bufferPtr <;> simp [holds, others, live] at removed ⊢ <;>
        omega
    apply sole.assign_empty .perfTrace others mine rfl
    intro other different
    cases other <;> first | rfl | exact absurd rfl different

/-- Whatever the users do, at most one handle is live, the current user's. -/
theorem step_soleHolder (e : BufferEvent bufferCount) (sole : SoleHolder s.holds s.sCurrentUser) :
    SoleHolder (s.step e).holds (s.step e).sCurrentUser := by
  cases e with
  | enableToothLogger nowUs =>
    apply sole.acquire .toothLogger 0 (by decide) rfl
    · simp only [step, ToothLogger.enableToothLogger]
      split <;> rfl
    · intro other different
      cases other <;> first | rfl | exact absurd rfl different
  | disableToothLogger =>
    apply sole.assign_empty .toothLogger 0 rfl rfl
    intro other different
    cases other <;> first | rfl | exact absurd rfl different
  | logPrimaryTriggerTooth input state =>
    have same := s.toothLogger.logPrimaryTriggerTooth_sameOwner input state
    exact sole.sameOwner same
  | logCamTriggerTooth input camIndex state =>
    have same := s.toothLogger.logCamTriggerTooth_sameOwner input camIndex state
    exact sole.sameOwner same
  | logTriggerTopDeadCenter input =>
    have same := s.toothLogger.logTriggerTopDeadCenter_sameOwner input
    exact sole.sameOwner same
  | getToothLoggerBuffer =>
    have same := s.toothLogger.getToothLoggerBuffer_sameOwner
    exact sole.sameOwner same
  | returnToothLoggerBuffer buffer =>
    have same := s.toothLogger.returnToothLoggerBuffer_sameOwner buffer
    simp only [step]
    split_ifs
    · exact sole.sameOwner same
    · exact sole
  | triggerScopeEnable input =>
    exact startSampling_soleHolder input (sole.asked)
  | triggerScopeDisable => exact triggerScopeDisable_soleHolder sole
  | triggerScopeGetBuffer =>
    simp only [step, TriggerScope.triggerScopeGetBuffer]
    split_ifs <;> exact sole
  | restart input =>
    simp only [step, TriggerScope.restart]
    split_ifs
    · have waiting : SoleHolder (holds (s.withScope ({ s.triggerScope with restartTimer := false },
          s.sCurrentUser))) s.sCurrentUser := sole
      exact startSampling_soleHolder input waiting
    · exact sole
  | complete =>
    simp only [step, TriggerScope.complete]
    split_ifs <;> exact sole
  | perfTraceEnable => exact perfTraceEnable_soleHolder sole
  | perfTraceGetBuffer =>
    have moved : (s.step .perfTraceGetBuffer).holds = s.holds := by
      funext user
      cases user with
      | perfTrace =>
        cases live : s.perfTrace.traceBuffer.bufferPtr <;>
          simp [holds, step, PerfTrace.perfTraceGetBuffer, live, Nat.add_comm]
      | none => rfl
      | toothLogger => rfl
      | triggerScope => rfl
    rw [moved]
    exact sole
  | drop i => exact drop_soleHolder sole i

theorem new_soleHolder :
    SoleHolder (holds ({} : BufferUsers api)) ({} : BufferUsers api).sCurrentUser := by
  intro user
  cases user <;> rfl

/-- The handles are in order all along, whoever asks when. -/
theorem always_soleHolder (events : List (BufferEvent bufferCount)) :
    Always step (fun s => SoleHolder s.holds s.sCurrentUser) ({} : BufferUsers api) events :=
  always_of_keeps (fun _ e sole => step_soleHolder e sole) new_soleHolder

/-- The two enabled flags agree with the current user. -/
structure Flagged (s : BufferUsers api) : Prop where
  toothLogger : s.toothLogger.toothLoggerEnabled = true ↔ s.sCurrentUser = .toothLogger
  triggerScope : s.triggerScope.isRunning = true ↔ s.sCurrentUser = .triggerScope

/-- What is true while the users ask in turn. -/
structure Owned (s : BufferUsers api) : Prop where
  soleHolder : SoleHolder s.holds s.sCurrentUser
  flagged : s.Flagged

theorem Flagged.sameOwner {t' : ToothLogger api} {reading : List (Fin bufferCount)}
    (flagged : s.Flagged) (same : s.toothLogger.SameOwner t') :
    Flagged { s with toothLogger := t', reading } where
  toothLogger := by
    rw [← flagged.toothLogger]
    simp only [same.toothLoggerEnabled]
  triggerScope := flagged.triggerScope

namespace Owned

theorem oneOwner (owned : s.Owned) : s.OneOwner :=
  ⟨owned.soleHolder, owned.flagged.toothLogger.mp, owned.flagged.triggerScope.mp⟩

theorem toothLogger_live (owned : s.Owned) :
    s.toothLogger.bufferHandle.bufferPtr = true ↔ s.sCurrentUser = .toothLogger := by
  apply owned.soleHolder.live_iff (by decide)
  rfl

theorem triggerScope_live (owned : s.Owned) :
    s.triggerScope.buffer.bufferPtr = true ↔ s.sCurrentUser = .triggerScope := by
  apply owned.soleHolder.live_iff (by decide)
  rfl

theorem toothLogger_dead (owned : s.Owned) (other : s.sCurrentUser ≠ .toothLogger) :
    s.toothLogger.bufferHandle.bufferPtr = false := by
  rw [← Bool.not_eq_true, owned.toothLogger_live]
  exact other

theorem triggerScope_dead (owned : s.Owned) (other : s.sCurrentUser ≠ .triggerScope) :
    s.triggerScope.buffer.bufferPtr = false := by
  rw [← Bool.not_eq_true, owned.triggerScope_live]
  exact other

theorem enableToothLogger (owned : s.Owned) (nowUs : Nat)
    (inTurn : s.sCurrentUser ≠ .toothLogger) : (s.step (.enableToothLogger nowUs)).Flagged := by
  have dead := owned.toothLogger_dead inTurn
  by_cases free : s.sCurrentUser = .none
  · have idle := owned.flagged.triggerScope
    rw [free] at idle
    simp only [step, free, ToothLogger.enableToothLogger_free dead]
    constructor
    · simp [ToothLogger.start]
    · simpa using idle
  · simp only [step, ToothLogger.enableToothLogger_taken _ nowUs free, destroy_dead dead]
    exact ⟨owned.flagged.toothLogger, owned.flagged.triggerScope⟩

theorem disableToothLogger (owned : s.Owned) : (s.step .disableToothLogger).Flagged := by
  have idle := owned.flagged.triggerScope
  simp only [step, ToothLogger.disableToothLogger, BigBufferHandle.assign]
  by_cases owner : s.sCurrentUser = .toothLogger
  · rw [owner] at idle
    rw [destroy_live (owned.toothLogger_live.mpr owner)]
    constructor
    · simp
    · simpa using idle
  · rw [destroy_dead (owned.toothLogger_dead owner)]
    constructor
    · simpa using owner
    · exact idle

theorem triggerScopeDisable (owned : s.Owned) : (s.step .triggerScopeDisable).Flagged := by
  have idle := owned.flagged.toothLogger
  simp only [step, TriggerScope.triggerScopeDisable, BigBufferHandle.assign]
  by_cases owner : s.sCurrentUser = .triggerScope
  · rw [owner] at idle
    rw [destroy_live (owned.triggerScope_live.mpr owner)]
    constructor
    · simpa using idle
    · simp
  · rw [destroy_dead (owned.triggerScope_dead owner)]
    constructor
    · exact idle
    · simpa using owner

theorem startSampling (owned : s.Owned) (input : ScopeInput) :
    (s.withScope (s.triggerScope.startSampling input s.sCurrentUser)).Flagged := by
  unfold TriggerScope.startSampling
  split_ifs
  · exact owned.triggerScopeDisable
  · exact owned.flagged
  · exact owned.flagged

theorem triggerScopeEnable (owned : s.Owned) (input : ScopeInput) (inTurn : s.sCurrentUser = .none) :
    (s.step (.triggerScopeEnable input)).Flagged := by
  have idle := owned.flagged.toothLogger
  have dead := owned.triggerScope_dead (by rw [inTurn]; decide)
  have sole := owned.soleHolder.asked
  have now : s.asked = s.withScope ({ s.triggerScope with
      buffer := { bufferPtr := true, user := .triggerScope }, isRunning := true }, .triggerScope) := by
    simp only [asked, inTurn, acquire_free .triggerScope dead]
  have flagged : s.asked.Flagged := by
    rw [now]
    constructor
    · simpa [withScope, inTurn] using idle
    · simp [withScope]
  exact Owned.startSampling ⟨sole, flagged⟩ input

theorem restart (owned : s.Owned) (input : ScopeInput) : (s.step (.restart input)).Flagged := by
  simp only [step, TriggerScope.restart]
  split_ifs
  · have waiting : Owned (s.withScope ({ s.triggerScope with restartTimer := false },
        s.sCurrentUser)) :=
      ⟨owned.soleHolder, owned.flagged.toothLogger, owned.flagged.triggerScope⟩
    exact waiting.startSampling input
  · exact owned.flagged

/-- The performance trace takes and gives back no handle but its own. -/
theorem of_soleHolder {s' : BufferUsers api} (owned : s.Owned)
    (sole : SoleHolder s'.holds s'.sCurrentUser) (toothLogger : s'.toothLogger = s.toothLogger)
    (triggerScope : s'.triggerScope = s.triggerScope) : s'.Flagged := by
  have logger : s.toothLogger.bufferHandle.bufferPtr = true ↔ s'.sCurrentUser = .toothLogger := by
    apply sole.live_iff (by decide)
    rw [← toothLogger]
    rfl
  have scope : s.triggerScope.buffer.bufferPtr = true ↔ s'.sCurrentUser = .triggerScope := by
    apply sole.live_iff (by decide)
    rw [← triggerScope]
    rfl
  constructor
  · rw [toothLogger, owned.flagged.toothLogger, ← logger, owned.toothLogger_live]
  · rw [triggerScope, owned.flagged.triggerScope, ← scope, owned.triggerScope_live]

theorem step (owned : s.Owned) {e : BufferEvent bufferCount} (inTurn : s.AsksInTurn e) :
    (s.step e).Owned := by
  have sole := step_soleHolder e owned.soleHolder
  refine ⟨sole, ?_⟩
  have flagged := owned.flagged
  cases e with
  | enableToothLogger nowUs => exact owned.enableToothLogger nowUs inTurn
  | disableToothLogger => exact owned.disableToothLogger
  | logPrimaryTriggerTooth input state =>
    exact flagged.sameOwner (s.toothLogger.logPrimaryTriggerTooth_sameOwner input state)
  | logCamTriggerTooth input camIndex state =>
    exact flagged.sameOwner (s.toothLogger.logCamTriggerTooth_sameOwner input camIndex state)
  | logTriggerTopDeadCenter input =>
    exact flagged.sameOwner (s.toothLogger.logTriggerTopDeadCenter_sameOwner input)
  | getToothLoggerBuffer =>
    exact flagged.sameOwner s.toothLogger.getToothLoggerBuffer_sameOwner
  | returnToothLoggerBuffer buffer =>
    simp only [BufferUsers.step]
    split_ifs
    · exact flagged.sameOwner (s.toothLogger.returnToothLoggerBuffer_sameOwner buffer)
    · exact flagged
  | triggerScopeEnable input => exact owned.triggerScopeEnable input inTurn
  | triggerScopeDisable => exact owned.triggerScopeDisable
  | triggerScopeGetBuffer =>
    simp only [BufferUsers.step, TriggerScope.triggerScopeGetBuffer]
    split_ifs <;> exact ⟨flagged.toothLogger, flagged.triggerScope⟩
  | restart input => exact owned.restart input
  | complete =>
    simp only [BufferUsers.step, TriggerScope.complete]
    split_ifs <;> exact ⟨flagged.toothLogger, flagged.triggerScope⟩
  | perfTraceEnable => exact owned.of_soleHolder sole rfl rfl
  | perfTraceGetBuffer => exact ⟨flagged.toothLogger, flagged.triggerScope⟩
  | drop i => exact owned.of_soleHolder sole rfl rfl

/-- An enabling out of turn breaks the rule at once. -/
theorem asksInTurn (owned : s.Owned) {e : BufferEvent bufferCount} (kept : (s.step e).OneOwner) :
    s.AsksInTurn e := by
  cases e with
  | enableToothLogger nowUs =>
    intro owner
    have live := owned.toothLogger_live.mpr owner
    have enabled := owned.flagged.toothLogger.mpr owner
    have broken := kept.toothLogger
    simp only [BufferUsers.step, owner, ToothLogger.enableToothLogger_taken _ nowUs
      (show BigBufferUser.toothLogger ≠ .none by decide), destroy_live live] at broken
    exact absurd (broken enabled) (by decide)
  | triggerScopeEnable input =>
    by_contra taken
    have broken := kept.triggerScope
    simp only [BufferUsers.step, TriggerScope.triggerScopeEnable, TriggerScope.startSampling,
      acquire_taken .triggerScope _ taken, Bool.false_and, Bool.false_eq_true, if_false] at broken
    have after := broken trivial
    by_cases owner : s.sCurrentUser = .triggerScope
    · rw [destroy_live (owned.triggerScope_live.mpr owner)] at after
      exact absurd after (by decide)
    · rw [destroy_dead (owned.triggerScope_dead owner)] at after
      exact owner after
  | _ => trivial

end Owned

theorem new_owned : ({} : BufferUsers api).Owned := by
  refine ⟨new_soleHolder, ?_⟩
  constructor <;> simp

/-- In whatever order the users act, the big buffer has one owner all along just when the
tooth logger and the trigger scope are only enabled in turn. -/
theorem oneOwner_iff (events : List (BufferEvent bufferCount)) :
    Always step OneOwner ({} : BufferUsers api) events ↔
      Guarded step AsksInTurn ({} : BufferUsers api) events := by
  apply always_iff_guarded
  · intro s (owned : s.Owned)
    exact owned.oneOwner
  · intro s e owned kept
    exact owned.asksInTurn kept
  · intro s e inTurn owned
    exact owned.step inTurn
  · exact new_owned

/-- Enabled twice, the tooth logger logs on while the buffer is free for others. -/
theorem oneOwner_enabledTwice :
    ¬ ∀ events, Always step OneOwner ({} : BufferUsers (listMailbox (Fin 6) 6)) events := by
  intro always
  have twice := (always [.enableToothLogger 0, .enableToothLogger 0]).2.2
  have owner := twice.toothLogger rfl
  exact absurd owner (by decide)

end BufferUsers

end FomeFw.Console
