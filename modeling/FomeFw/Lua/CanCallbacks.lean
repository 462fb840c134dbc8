import FomeFw.Lib.Machine
import FomeFw.Lua.LuaCanRx
import Mathlib.Data.List.Perm.Basic

/-! Which script's callback gets a frame. The buffers only move; the filters and the frames
that wait belong to the loaded script as long as no script leaves any of them behind. -/
namespace FomeFw.Lua
open Can Containers Machine

variable {api : MailboxApi (Fin canFrameCount) canFrameCount}

section Buffers

def LuaPhase.inHand : LuaPhase → List (Fin canFrameCount)
  | .calling data => [data]
  | _ => []

def LuaCanRx.queued (c : LuaCanRx api) : List (Fin canFrameCount) :=
  api.queued c.filledBuffers ++ api.queued c.freeBuffers

/-- The buffers in the mailboxes and the one in a callback. -/
def LuaThread.held (t : LuaThread api) : List (Fin canFrameCount) :=
  t.phase.inHand ++ t.canRx.queued

/-- All buffers are somewhere, each at one place. -/
def LuaThread.Conserved (t : LuaThread api) : Prop := t.held.Perm (List.finRange canFrameCount)

theorem start_conserved : ({} : LuaThread api).Conserved := by
  have whole : (List.finRange canFrameCount).take canFrameCount = List.finRange canFrameCount :=
    List.take_of_length_le (by rw [List.length_finRange])
  simp [LuaThread.Conserved, LuaThread.held, LuaCanRx.queued, LuaCanRx.init, LuaPhase.inHand,
    api.queued_postEach, api.queued_empty, whole]

/-- A frame that comes in takes no buffer, or the next free one to the end of the filled ones. -/
inductive Received (c : LuaCanRx api) (busIndex : CanBusIndex) (frame : CanRxFrame) :
    LuaCanRx api → Prop
  | dropped (freeBuffers : api.Mailbox)
      (same : api.queued freeBuffers = api.queued c.freeBuffers) :
      Received c busIndex frame { c with freeBuffers }
  | taken (filter : CanFilter) (frameBuffer : Fin canFrameCount) (freeBuffers : api.Mailbox)
      (found : c.canFilters.getFilterForId busIndex (canId frame) = some filter)
      (free : api.queued c.freeBuffers = frameBuffer :: api.queued freeBuffers) :
      Received c busIndex frame
        { c with
          freeBuffers
          canFrames := Function.update c.canFrames frameBuffer ⟨busIndex, filter.Callback, frame⟩
          filledBuffers := (api.postI c.filledBuffers frameBuffer).2 }

theorem processLuaCan_received (c : LuaCanRx api) (busIndex : CanBusIndex) (frame : CanRxFrame) :
    Received c busIndex frame (c.processLuaCan busIndex frame) := by
  unfold LuaCanRx.processLuaCan
  cases found : c.canFilters.getFilterForId busIndex (canId frame) with
  | none => exact .dropped c.freeBuffers rfl
  | some filter =>
    cases free : api.queued c.freeBuffers with
    | nil =>
      obtain ⟨nothing, left⟩ := api.fetchI_nil free
      rcases fetched : api.fetchI c.freeBuffers with ⟨result, freeBuffers⟩
      rw [fetched] at nothing left
      subst nothing
      exact .dropped freeBuffers (left.trans free.symm)
    | cons frameBuffer rest =>
      obtain ⟨first, left⟩ := api.fetchI_cons free
      rcases fetched : api.fetchI c.freeBuffers with ⟨result, freeBuffers⟩
      rw [fetched] at first left
      subst first
      exact .taken filter frameBuffer freeBuffers found (by rw [free, left])

/-- The post at the end of a taken frame finds room. -/
theorem posted_filled {c : LuaCanRx api} {frameBuffer : Fin canFrameCount}
    {rest : List (Fin canFrameCount)} (few : c.queued.length ≤ canFrameCount)
    (free : api.queued c.freeBuffers = frameBuffer :: rest) :
    api.queued (api.postI c.filledBuffers frameBuffer).2 =
      api.queued c.filledBuffers ++ [frameBuffer] := by
  rw [LuaCanRx.queued, List.length_append, free, List.length_cons] at few
  exact (api.postI_room _ _ (by omega)).2

theorem Received.queued {c c' : LuaCanRx api} {busIndex : CanBusIndex} {frame : CanRxFrame}
    (received : Received c busIndex frame c') (few : c.queued.length ≤ canFrameCount) :
    c'.queued.Perm c.queued := by
  cases received with
  | dropped freeBuffers same => simp [LuaCanRx.queued, same]
  | taken filter frameBuffer freeBuffers found free =>
    simp [LuaCanRx.queued, posted_filled few free, free]

/-- A buffer that is given back is free again. -/
theorem returnBuffer_spec {t : LuaThread api} {data : Fin canFrameCount}
    (few : t.canRx.queued.length < canFrameCount) :
    ∃ freeBuffers, api.queued freeBuffers = api.queued t.canRx.freeBuffers ++ [data] ∧
      t.returnBuffer data = { t with canRx.freeBuffers := freeBuffers, phase := .polling } := by
  rw [LuaCanRx.queued, List.length_append] at few
  obtain ⟨done, posted⟩ := api.postI_room t.canRx.freeBuffers data (by omega)
  rcases same : api.postI t.canRx.freeBuffers data with ⟨msg, freeBuffers⟩
  rw [same] at done posted
  subst done
  exact ⟨freeBuffers, posted, by simp [LuaThread.returnBuffer, same]⟩

/-- Looking for a frame: there is none, or the first one is taken out and its buffer given
back or kept for the call. -/
inductive Polled (t : LuaThread api) (isNil : Bool) : LuaThread api → Prop
  | nothing (filledBuffers : api.Mailbox)
      (same : api.queued filledBuffers = api.queued t.canRx.filledBuffers) :
      Polled t isNil { t with canRx.filledBuffers := filledBuffers, phase := .ticking }
  | ignored (data : Fin canFrameCount) (filledBuffers : api.Mailbox)
      (first : api.queued t.canRx.filledBuffers = data :: api.queued filledBuffers) :
      Polled t isNil ({ t with canRx.filledBuffers := filledBuffers }.returnBuffer data)
  | called (data : Fin canFrameCount) (filledBuffers : api.Mailbox) (call : LuaCall)
      (first : api.queued t.canRx.filledBuffers = data :: api.queued filledBuffers)
      (made : handleCanFrame isNil (t.canRx.canFrames data) = some call) :
      Polled t isNil
        { t with
          canRx.filledBuffers := filledBuffers
          phase := .calling data
          invoked := t.invoked ++ [⟨call, t.registered⟩] }

theorem doOneLuaCanRx_polled (t : LuaThread api) (isNil : Bool) :
    Polled t isNil (t.doOneLuaCanRx isNil) := by
  unfold LuaThread.doOneLuaCanRx
  cases filled : api.queued t.canRx.filledBuffers with
  | nil =>
    obtain ⟨none, left⟩ := api.fetchI_nil filled
    rcases fetched : api.fetchI t.canRx.filledBuffers with ⟨result, filledBuffers⟩
    rw [fetched] at none left
    subst none
    exact .nothing filledBuffers (left.trans filled.symm)
  | cons data rest =>
    obtain ⟨first, left⟩ := api.fetchI_cons filled
    rcases fetched : api.fetchI t.canRx.filledBuffers with ⟨result, filledBuffers⟩
    rw [fetched] at first left
    subst first
    have taken : api.queued t.canRx.filledBuffers = data :: api.queued filledBuffers := by
      rw [filled, left]
    dsimp only
    split
    · exact .ignored data filledBuffers taken
    · next call made => exact .called data filledBuffers call taken made

variable {t t' : LuaThread api} {e : LuaEvent}

theorem LuaThread.Conserved.few (conserved : t.Conserved) :
    t.phase.inHand.length + t.canRx.queued.length = canFrameCount := by
  rw [← List.length_append, ← LuaThread.held, List.Perm.length_eq conserved, List.length_finRange]

theorem loop_conserved (conserved : t.Conserved) (free : t.phase.inHand = []) :
    t.loop.Conserved := by
  rw [LuaThread.Conserved, LuaThread.held, free] at conserved
  unfold LuaThread.loop
  split <;> exact conserved

theorem returnBuffer_conserved {data : Fin canFrameCount}
    (held : (data :: t.canRx.queued).Perm (List.finRange canFrameCount)) :
    (t.returnBuffer data).Conserved := by
  have few := held.length_eq
  rw [List.length_cons, List.length_finRange] at few
  obtain ⟨freeBuffers, posted, same⟩ := returnBuffer_spec (show t.canRx.queued.length < _ by omega)
  rw [same]
  refine List.Perm.trans ?_ held
  simp only [LuaThread.held, LuaPhase.inHand, LuaCanRx.queued, posted, List.nil_append,
    ← List.append_assoc]
  exact List.perm_append_singleton data _

theorem Polled.conserved (polled : Polled t isNil t') (conserved : t.Conserved)
    (free : t.phase.inHand = []) : t'.Conserved := by
  rw [LuaThread.Conserved, LuaThread.held, free, List.nil_append, LuaCanRx.queued] at conserved
  cases polled with
  | nothing filledBuffers same =>
    rw [← same] at conserved
    exact conserved
  | ignored data filledBuffers first =>
    rw [first] at conserved
    exact returnBuffer_conserved conserved
  | called data filledBuffers call first made =>
    rw [first] at conserved
    exact conserved

/-- What a step does, at the places where the thread takes it. -/
inductive Stepped (t : LuaThread api) : LuaEvent → LuaThread api → Prop
  | unchanged (e : LuaEvent) : Stepped t e t
  | received (busIndex : CanBusIndex) (frame : CanRxFrame) (canRx : LuaCanRx api)
      (received : Received t.canRx busIndex frame canRx) :
      Stepped t (.processLuaCan busIndex frame) { t with canRx }
  | requested : Stepped t .luareset { t with needsReset := true }
  | started (idle : t.phase = .idle) :
      Stepped t (.runOneLua true) { t with needsReset := false, phase := .loading }
  | notStarted (idle : t.phase = .idle) :
      Stepped t (.runOneLua false) { t with needsReset := false, phase := .failed }
  | added (eid mask : BitVec 32) (bus : CanBusIndex) (callback : Int) (canFilters : CanFilters)
      (runs : t.phase.runsScript = true)
      (more : canFilters.filters = t.canRx.canFilters.filters ++ [⟨eid, mask, bus, callback⟩]) :
      Stepped t (.addLuaCanRxFilter eid mask bus callback)
        { t with
          canRx.canFilters := canFilters
          registered := t.registered ++ [⟨eid, mask, bus, callback⟩] }
  | loaded (loading : t.phase = .loading) : Stepped t (.loadScript true) t.loop
  | failed (loading : t.phase = .loading) :
      Stepped t (.loadScript false) { t with phase := .failed, registered := [] }
  | polled (isNil : Bool) (t' : LuaThread api) (polling : t.phase = .polling)
      (polled : Polled t isNil t') : Stepped t (.doOneLuaCanRx isNil) t'
  | returned (data : Fin canFrameCount) (calling : t.phase = .calling data) :
      Stepped t .returnFromCallback (t.returnBuffer data)
  | ticked (ticking : t.phase = .ticking) : Stepped t .tick t.loop
  | waited (failed : t.phase = .failed) : Stepped t .wait { t with phase := .idle }

theorem step_stepped (taken : t.step e = some t') : Stepped t e t' := by
  cases e with
  | processLuaCan busIndex frame =>
    obtain rfl := Option.some.inj taken
    exact .received busIndex frame _ (processLuaCan_received t.canRx busIndex frame)
  | luareset =>
    obtain rfl := Option.some.inj taken
    exact .requested
  | runOneLua started =>
    rw [LuaThread.step] at taken
    split at taken <;> obtain rfl := Option.some.inj taken
    · next idle =>
      cases started with
      | true => exact .started idle
      | false => exact .notStarted idle
    · exact .unchanged _
  | addLuaCanRxFilter eid mask bus callback =>
    rw [LuaThread.step] at taken
    split at taken
    · next runs =>
      obtain ⟨canFilters, added, same⟩ := Option.bind_eq_some_iff.mp taken
      obtain rfl := Option.some.inj same
      apply Stepped.added eid mask bus callback canFilters runs
      rw [CanFilters.addLuaCanRxFilter] at added
      split at added
      · obtain rfl := Option.some.inj added
        rfl
      · cases added
    · obtain rfl := Option.some.inj taken
      exact .unchanged _
  | loadScript ok =>
    rw [LuaThread.step] at taken
    split at taken <;> obtain rfl := Option.some.inj taken
    · next loading =>
      cases ok with
      | true => exact .loaded loading
      | false => exact .failed loading
    · exact .unchanged _
  | doOneLuaCanRx isNil =>
    rw [LuaThread.step] at taken
    split at taken <;> obtain rfl := Option.some.inj taken
    · next polling => exact .polled isNil _ polling (doOneLuaCanRx_polled t isNil)
    · exact .unchanged _
  | returnFromCallback =>
    rw [LuaThread.step] at taken
    split at taken <;> obtain rfl := Option.some.inj taken
    · next data calling => exact .returned data calling
    · exact .unchanged _
  | tick =>
    rw [LuaThread.step] at taken
    split at taken <;> obtain rfl := Option.some.inj taken
    · next ticking => exact .ticked ticking
    · exact .unchanged _
  | wait =>
    rw [LuaThread.step] at taken
    split at taken <;> obtain rfl := Option.some.inj taken
    · next waits => exact .waited waits.1
    · exact .unchanged _

/-- No step loses a buffer or has one at two places. -/
theorem Stepped.conserved (stepped : Stepped t e t') (conserved : t.Conserved) : t'.Conserved := by
  have still (phase : LuaPhase) (before : t.phase = phase) :
      (phase.inHand ++ t.canRx.queued).Perm (List.finRange canFrameCount) := before ▸ conserved
  cases stepped with
  | unchanged => exact conserved
  | received busIndex frame canRx received =>
    have few := conserved.few
    exact ((received.queued (by omega)).append_left _).trans conserved
  | requested => exact conserved
  | started idle => exact still .idle idle
  | notStarted idle => exact still .idle idle
  | added eid mask bus callback canFilters runs more => exact conserved
  | loaded loading => exact loop_conserved conserved (by rw [loading]; rfl)
  | failed loading => exact still .loading loading
  | polled isNil t' polling polled => exact polled.conserved conserved (by rw [polling]; rfl)
  | returned data calling => exact returnBuffer_conserved (still (.calling data) calling)
  | ticked ticking => exact loop_conserved conserved (by rw [ticking]; rfl)
  | waited failed => exact still .failed failed

/-- In every run all buffers stay, each at one place. -/
theorem run_conserved (events : List LuaEvent) (conserved : t.Conserved)
    (ran : run LuaThread.step t events = some t') : t'.Conserved :=
  run_invariant (fun _ _ _ conserved taken => (step_stepped taken).conserved conserved) conserved ran

end Buffers

section Filters

variable {t t' : LuaThread api} {e : LuaEvent} {registered : List CanFilter} {id : BitVec 32}

/-- The filter accepts the frame, on the bus it came from. -/
def CanFilter.Accepts (filter : CanFilter) (bus : CanBusIndex) (id : BitVec 32) : Prop :=
  filter.accept id = true ∧ (filter.Bus = .any ∨ filter.Bus = bus)

/-- One of the filters accepts the frame, and the callback is the one it was registered with. -/
def Answers (registered : List CanFilter) (callback : Int) (bus : CanBusIndex) (id : BitVec 32) :
    Prop :=
  ∃ filter ∈ registered, filter.Accepts bus id ∧ callback = filter.Callback

instance (filter : CanFilter) (bus : CanBusIndex) (id : BitVec 32) :
    Decidable (filter.Accepts bus id) :=
  inferInstanceAs (Decidable (_ ∧ _))

instance (registered : List CanFilter) (callback : Int) (bus : CanBusIndex) (id : BitVec 32) :
    Decidable (Answers registered callback bus id) :=
  inferInstanceAs (Decidable (∃ _ ∈ _, _))

/-- The call was the script's that was loaded. -/
def Invocation.Justified (i : Invocation) : Prop :=
  Answers i.registered i.call.callback i.call.bus i.call.id

instance (i : Invocation) : Decidable i.Justified := inferInstanceAs (Decidable (Answers _ _ _ _))

def CanFrameData.Justified (data : CanFrameData) (registered : List CanFilter) : Prop :=
  Answers registered data.Callback data.BusIndex (canId data.Frame)

theorem getFilterForId_accepts {c : CanFilters} {filter : CanFilter}
    (found : c.getFilterForId busIndex id = some filter) :
    filter ∈ c.filters ∧ filter.Accepts busIndex id := by
  have accepted := List.find?_some found
  simp only [Bool.and_eq_true, Bool.or_eq_true, decide_eq_true_eq] at accepted
  exact ⟨List.mem_of_find?_eq_some found, accepted⟩

theorem Answers.mono {more : List CanFilter} (answers : Answers registered callback bus id)
    (kept : ∀ filter ∈ registered, filter ∈ more) : Answers more callback bus id := by
  obtain ⟨filter, member, accepts⟩ := answers
  exact ⟨filter, kept filter member, accepts⟩

/-- Nothing of a script is left when another one may come. -/
def LuaThread.Unspoiled (t : LuaThread api) : LuaEvent → Prop
  | .addLuaCanRxFilter _ _ _ _ => t.phase.runsScript = true →
    t.canRx.canFilters.filters.length < maxFilterCount
  | .loadScript true => t.phase = .loading → t.needsReset = true →
    api.queued t.canRx.filledBuffers = []
  | .loadScript false => t.phase = .loading → t.canRx.canFilters.filters = []
  | .tick => t.phase = .ticking → t.needsReset = true → api.queued t.canRx.filledBuffers = []
  | _ => True

instance (t : LuaThread api) : (e : LuaEvent) → Decidable (t.Unspoiled e)
  | .addLuaCanRxFilter _ _ _ _ => inferInstanceAs (Decidable (_ → _))
  | .loadScript true => inferInstanceAs (Decidable (_ → _ → _))
  | .loadScript false => inferInstanceAs (Decidable (_ → _))
  | .tick => inferInstanceAs (Decidable (_ → _ → _))
  | .processLuaCan _ _ | .luareset | .runOneLua _ | .doOneLuaCanRx _ | .returnFromCallback
  | .wait => isTrue trivial

/-- Filters, waiting frames and calls all belong to the loaded script. -/
structure Sound (t : LuaThread api) : Prop where
  conserved : t.Conserved
  filters : t.canRx.canFilters.filters = t.registered
  waiting : ∀ p ∈ api.queued t.canRx.filledBuffers, (t.canRx.canFrames p).Justified t.registered
  unloaded : t.phase = .idle ∨ t.phase = .failed → t.registered = []
  justified : ∀ i ∈ t.invoked, i.Justified

theorem start_sound : Sound ({} : LuaThread api) where
  conserved := start_conserved
  filters := rfl
  waiting p member := by simp [LuaCanRx.init, api.queued_empty] at member
  unloaded _ := rfl
  justified i member := by cases member

/-- A step goes on where the array of filters has a place for another one. -/
theorem step_goes (unspoiled : t.Unspoiled e) : ∃ t', t.step e = some t' := by
  cases e with
  | addLuaCanRxFilter eid mask bus callback =>
    rw [LuaThread.step]
    split
    · next runs =>
      simp only [LuaThread.addLuaCanRxFilter, CanFilters.addLuaCanRxFilter,
        dif_pos (unspoiled runs), Option.bind_eq_bind, Option.bind_some]
      exact ⟨_, rfl⟩
    · exact ⟨_, rfl⟩
  | returnFromCallback =>
    rw [LuaThread.step]
    split <;> exact ⟨_, rfl⟩
  | processLuaCan busIndex frame => exact ⟨_, rfl⟩
  | luareset => exact ⟨_, rfl⟩
  | runOneLua started => exact ⟨_, (apply_ite some _ _ _).symm⟩
  | loadScript ok => exact ⟨_, (apply_ite some _ _ _).symm⟩
  | doOneLuaCanRx isNil => exact ⟨_, (apply_ite some _ _ _).symm⟩
  | tick => exact ⟨_, (apply_ite some _ _ _).symm⟩
  | wait => exact ⟨_, (apply_ite some _ _ _).symm⟩

/-- The frames that wait after one has come in. -/
theorem Received.waiting {c c' : LuaCanRx api} {busIndex : CanBusIndex} {frame : CanRxFrame}
    (received : Received c busIndex frame c') (few : c.queued.length ≤ canFrameCount)
    (waiting : ∀ p ∈ api.queued c.filledBuffers, (c.canFrames p).Justified c.canFilters.filters) :
    c'.canFilters = c.canFilters ∧
      ∀ p ∈ api.queued c'.filledBuffers, (c'.canFrames p).Justified c.canFilters.filters := by
  cases received with
  | dropped freeBuffers same => exact ⟨rfl, waiting⟩
  | taken filter frameBuffer freeBuffers found free =>
    refine ⟨rfl, ?_⟩
    intro p member
    rw [posted_filled few free, List.mem_append, List.mem_singleton] at member
    dsimp only
    by_cases here : p = frameBuffer
    · obtain ⟨listed, accepts⟩ := getFilterForId_accepts found
      rw [here, Function.update_self]
      exact ⟨filter, listed, accepts, rfl⟩
    · rw [Function.update_of_ne here]
      exact waiting p (member.resolve_right here)

theorem loop_sound (sound : Sound t) (free : t.phase.inHand = [])
    (clean : t.needsReset = true → api.queued t.canRx.filledBuffers = []) : Sound t.loop := by
  have conserved := loop_conserved sound.conserved free
  unfold LuaThread.loop at conserved ⊢
  split
  · next reset =>
    rw [if_pos reset] at conserved
    refine ⟨conserved, rfl, ?_, fun _ => rfl, sound.justified⟩
    intro p member
    have none := clean reset
    rw [show api.queued t.resetLua.canRx.filledBuffers = [] from none] at member
    cases member
  · next again =>
    rw [if_neg again] at conserved
    exact ⟨conserved, sound.filters, sound.waiting, by simp, sound.justified⟩

theorem Polled.sound (polled : Polled t isNil t') (sound : Sound t) (polling : t.phase = .polling) :
    Sound t' := by
  have conserved := polled.conserved sound.conserved (by rw [polling]; rfl)
  cases polled with
  | nothing filledBuffers same =>
    refine ⟨conserved, sound.filters, ?_, by simp, sound.justified⟩
    rw [same]
    exact sound.waiting
  | ignored data filledBuffers first =>
    have waiting := sound.waiting
    rw [first] at waiting
    have few := sound.conserved.few
    rw [polling, LuaCanRx.queued, first, List.length_append, List.length_cons] at few
    let taken : LuaThread api := { t with canRx.filledBuffers := filledBuffers }
    have room : taken.canRx.queued.length < canFrameCount := by
      rw [LuaCanRx.queued, List.length_append]
      show (api.queued filledBuffers).length + (api.queued t.canRx.freeBuffers).length < _
      simp only [LuaPhase.inHand, List.length_nil] at few
      omega
    obtain ⟨freeBuffers, -, same⟩ := @returnBuffer_spec _ taken data room
    rw [same] at conserved ⊢
    exact ⟨conserved, sound.filters, fun p later => waiting p (.tail _ later), by simp,
      sound.justified⟩
  | called data filledBuffers call first made =>
    have waiting := sound.waiting
    rw [first] at waiting
    refine ⟨conserved, sound.filters, fun p later => waiting p (.tail _ later), by simp, ?_⟩
    intro i member
    rcases List.mem_append.mp member with before | now
    · exact sound.justified i before
    · obtain rfl := List.mem_singleton.mp now
      have answers := waiting data (.head _)
      unfold handleCanFrame at made
      split at made
      · cases made
      · obtain rfl := Option.some.inj made
        exact answers

theorem Stepped.sound (stepped : Stepped t e t') (unspoiled : t.Unspoiled e) (sound : Sound t) :
    Sound t' := by
  have conserved := stepped.conserved sound.conserved
  cases stepped with
  | unchanged => exact sound
  | received busIndex frame canRx received =>
    have few := sound.conserved.few
    obtain ⟨filters, waiting⟩ := received.waiting (by omega) (sound.filters ▸ sound.waiting)
    exact ⟨conserved, (congrArg _ filters).trans sound.filters, sound.filters ▸ waiting,
      sound.unloaded, sound.justified⟩
  | requested => exact ⟨conserved, sound.filters, sound.waiting, sound.unloaded, sound.justified⟩
  | started idle => exact ⟨conserved, sound.filters, sound.waiting, by simp, sound.justified⟩
  | notStarted idle =>
    exact ⟨conserved, sound.filters, sound.waiting, fun _ => sound.unloaded (.inl idle),
      sound.justified⟩
  | added eid mask bus callback canFilters runs more =>
    refine ⟨conserved, ?_, ?_, ?_, sound.justified⟩
    · rw [more, sound.filters]
    · intro p member
      exact (sound.waiting p member).mono fun filter listed => List.mem_append_left _ listed
    · rintro (idle | failed)
      · rw [show t.phase = .idle from idle] at runs
        cases runs
      · rw [show t.phase = .failed from failed] at runs
        cases runs
  | loaded loading => exact loop_sound sound (by rw [loading]; rfl) (unspoiled loading)
  | failed loading =>
    have none : t.registered = [] := sound.filters.symm.trans (unspoiled loading)
    have waiting := sound.waiting
    rw [none] at waiting
    exact ⟨conserved, unspoiled loading, waiting, fun _ => rfl, sound.justified⟩
  | polled isNil t' polling polled => exact polled.sound sound polling
  | returned data calling =>
    have few := sound.conserved.few
    rw [calling] at few
    obtain ⟨freeBuffers, -, same⟩ := @returnBuffer_spec _ t data (by
      simp only [LuaPhase.inHand, List.length_singleton] at few
      omega)
    rw [same] at conserved ⊢
    exact ⟨conserved, sound.filters, sound.waiting, by simp, sound.justified⟩
  | ticked ticking => exact loop_sound sound (by rw [ticking]; rfl) (unspoiled ticking)
  | waited failed =>
    exact ⟨conserved, sound.filters, sound.waiting, fun _ => sound.unloaded (.inr failed),
      sound.justified⟩

/-- As long as no script leaves a waiting frame or a filter behind, nor registers more filters
than there is room for, every call goes to the script that is loaded: one of its filters
accepts the frame, and the callback is the one it registered with that filter. -/
theorem run_justified (api : MailboxApi (Fin canFrameCount) canFrameCount) (events : List LuaEvent)
    (unspoiled : Supervised LuaThread.step LuaThread.Unspoiled ({} : LuaThread api) events) :
    Along LuaThread.step (fun t => ∀ i ∈ t.invoked, i.Justified) ({} : LuaThread api) events := by
  have progress : ∀ (n : Nat) (t : LuaThread api) (e : LuaEvent), t.Unspoiled e → Sound t →
      ∃ t', t.step e = some t' ∧ Sound t' := by
    intro _ t e unspoiled sound
    obtain ⟨t', taken⟩ := step_goes unspoiled
    exact ⟨t', taken, (step_stepped taken).sound unspoiled sound⟩
  exact @Supervised.along _ _ _ _ _ _ _ (fun _ => Sound) (fun _ t sound => sound.justified)
    progress start_sound unspoiled

/-- A frame with the identifier 0x100 and one byte, on the first bus. -/
def oneByteFrame : CanRxFrame := ⟨⟨1, fun _ => 7⟩, false, 0x100, 0⟩

/-- A script gets its frame before it is reset, and the next one has a filter of its own. -/
theorem run_justified_twoScripts :
    Along LuaThread.step (fun t => ∀ i ∈ t.invoked, i.Justified)
      ({} : LuaThread (listMailbox (Fin canFrameCount) canFrameCount))
      [.runOneLua true, .addLuaCanRxFilter 0x100 filterSpecific .any 4, .loadScript true,
        .processLuaCan .bus0 oneByteFrame, .doOneLuaCanRx false, .returnFromCallback,
        .doOneLuaCanRx false, .luareset, .tick, .runOneLua true,
        .addLuaCanRxFilter 0x200 filterSpecific .any 4, .loadScript true, .doOneLuaCanRx false] :=
  run_justified _ _ (by decide +kernel)

/-- The frame arrives while the first script sleeps, before it is reset: it is passed to the
callback of the second script, which has no filter for it. -/
theorem run_unjustified_staleFrame :
    ∃ final, run LuaThread.step ({} : LuaThread (listMailbox (Fin canFrameCount) canFrameCount))
        [.runOneLua true, .addLuaCanRxFilter 0x100 filterSpecific .any 4, .loadScript true,
          .doOneLuaCanRx false, .processLuaCan .bus0 oneByteFrame, .luareset, .tick,
          .runOneLua true, .addLuaCanRxFilter 0x200 filterSpecific .any 4, .loadScript true,
          .doOneLuaCanRx false] = some final ∧
      ∃ i ∈ final.invoked, ¬ i.Justified :=
  ⟨_, rfl, by decide +kernel⟩

end Filters

end FomeFw.Lua
