import FomeFw.Injection.FuelSchedule

/-! Whether every opening has its closing. An opening and its closings are separate events
of a pool of records that may be used up, and a request there is no room for is dropped
without a word. -/
namespace FomeFw.Injection
open Timer

inductive Stage where
  | primary | secondary
  deriving DecidableEq, Repr

def EnginePins.pin (pins : EnginePins) : Stage → Nat → InjectorOutputPin
  | .primary => pins.injectors
  | .secondary => pins.injectorsStage2

def Stage.endCallback : Stage → Nat
  | .primary => endInjectionCallback
  | .secondary => endInjectionStage2Callback

/-- How often an action opens an output. -/
def opens (stage : Stage) (idx : Nat) (action : Action) : Nat :=
  let ctx := InjectorContext.ofPad action.param
  if action.callback = some startInjectionCallback ∧ ctx.outputsMask.toNat.testBit idx = true ∧
    (stage = .primary ∨ ctx.stage2Active = true) then 1 else 0

def closes (stage : Stage) (idx : Nat) (action : Action) : Nat :=
  let ctx := InjectorContext.ofPad action.param
  if action.callback = some stage.endCallback ∧ ctx.outputsMask.toNat.testBit idx = true then 1 else 0

variable {port : Port} {stage : Stage} {idx : Nat} {pins : EnginePins} {ctx : InjectorContext}
  {action : Action} {nowNt : Tick}

section Outputs

@[simp] theorem opened_openPin (pin : InjectorOutputPin) : pin.openPin.opened = pin.opened + 1 := by
  simp only [InjectorOutputPin.openPin]
  split <;> rfl

@[simp] theorem closed_openPin (pin : InjectorOutputPin) : pin.openPin.closed = pin.closed := by
  simp only [InjectorOutputPin.openPin]
  split <;> rfl

@[simp] theorem opened_closePin (pin : InjectorOutputPin) : pin.closePin.opened = pin.opened := by
  simp only [InjectorOutputPin.closePin]
  split <;> split <;> rfl

@[simp] theorem closed_closePin (pin : InjectorOutputPin) : pin.closePin.closed = pin.closed + 1 := by
  simp only [InjectorOutputPin.closePin]
  split <;> split <;> rfl

theorem pin_setInjector (pins : EnginePins) (j : Nat) (f : InjectorOutputPin → InjectorOutputPin)
    (stage : Stage) (idx : Nat) :
    (pins.setInjector j f).pin stage idx =
      if stage = .primary ∧ j = idx then f (pins.pin stage idx) else pins.pin stage idx := by
  by_cases same : j = idx
  · subst same
    cases stage <;> simp [EnginePins.pin, EnginePins.setInjector]
  · cases stage <;>
      simp [EnginePins.pin, EnginePins.setInjector, same, Function.update_of_ne (Ne.symm same)]

theorem pin_setInjectorStage2 (pins : EnginePins) (j : Nat)
    (f : InjectorOutputPin → InjectorOutputPin) (stage : Stage) (idx : Nat) :
    (pins.setInjectorStage2 j f).pin stage idx =
      if stage = .secondary ∧ j = idx then f (pins.pin stage idx) else pins.pin stage idx := by
  by_cases same : j = idx
  · subst same
    cases stage <;> simp [EnginePins.pin, EnginePins.setInjectorStage2]
  · cases stage <;>
      simp [EnginePins.pin, EnginePins.setInjectorStage2, same, Function.update_of_ne (Ne.symm same)]

/-- The loops over the outputs do the same to each output of the mask. -/
theorem pin_forOutputs {body : Nat → EnginePins → EnginePins}
    {f : InjectorOutputPin → InjectorOutputPin}
    (step : ∀ j pins, (body j pins).pin stage idx =
      if j = idx then f (pins.pin stage idx) else pins.pin stage idx) :
    (forOutputs ctx body pins).pin stage idx =
      if ctx.outputsMask.toNat.testBit idx then f (pins.pin stage idx) else pins.pin stage idx :=
  Bits.visit_apply (g := fun pins : EnginePins => pins.pin stage idx) step
    (by have := ctx.outputsMask.isLt; omega)

theorem pin_startInjection : (startInjection ctx pins).pin stage idx =
    if ctx.outputsMask.toNat.testBit idx then
      if stage = .primary ∨ ctx.stage2Active = true then (pins.pin stage idx).openPin
      else pins.pin stage idx
    else pins.pin stage idx := by
  refine pin_forOutputs
    (f := fun pin => if stage = .primary ∨ ctx.stage2Active = true then pin.openPin else pin) ?_
  intro j pins
  by_cases same : j = idx
  · cases stage <;> cases second : ctx.stage2Active <;>
      simp [pin_setInjector, pin_setInjectorStage2, same]
  · cases second : ctx.stage2Active <;> simp [pin_setInjector, pin_setInjectorStage2, same]

theorem pin_closeInjectors : (closeInjectors ctx pins).pin stage idx =
    if ctx.outputsMask.toNat.testBit idx then
      if stage = .primary then (pins.pin stage idx).closePin else pins.pin stage idx
    else pins.pin stage idx := by
  refine pin_forOutputs (f := fun pin => if stage = .primary then pin.closePin else pin) ?_
  intro j pins
  rw [pin_setInjector]
  by_cases same : j = idx <;> simp [same]

theorem pin_endInjectionStage2 : (endInjectionStage2 ctx pins).pin stage idx =
    if ctx.outputsMask.toNat.testBit idx then
      if stage = .secondary then (pins.pin stage idx).closePin else pins.pin stage idx
    else pins.pin stage idx := by
  refine pin_forOutputs (f := fun pin => if stage = .secondary then pin.closePin else pin) ?_
  intro j pins
  rw [pin_setInjectorStage2]
  by_cases same : j = idx <;> simp [same]

theorem startInjection_opened : ((startInjection ctx pins).pin stage idx).opened =
    (pins.pin stage idx).opened + if ctx.outputsMask.toNat.testBit idx then
      if stage = .primary ∨ ctx.stage2Active = true then 1 else 0 else 0 := by
  rw [pin_startInjection]
  split_ifs <;> simp

theorem startInjection_closed :
    ((startInjection ctx pins).pin stage idx).closed = (pins.pin stage idx).closed := by
  rw [pin_startInjection]
  split_ifs <;> simp

theorem closeInjectors_opened :
    ((closeInjectors ctx pins).pin stage idx).opened = (pins.pin stage idx).opened := by
  rw [pin_closeInjectors]
  split_ifs <;> simp

theorem closeInjectors_closed : ((closeInjectors ctx pins).pin stage idx).closed =
    (pins.pin stage idx).closed + if ctx.outputsMask.toNat.testBit idx then
      if stage = .primary then 1 else 0 else 0 := by
  rw [pin_closeInjectors]
  split_ifs <;> simp

theorem endInjectionStage2_opened :
    ((endInjectionStage2 ctx pins).pin stage idx).opened = (pins.pin stage idx).opened := by
  rw [pin_endInjectionStage2]
  split_ifs <;> simp

theorem endInjectionStage2_closed : ((endInjectionStage2 ctx pins).pin stage idx).closed =
    (pins.pin stage idx).closed + if ctx.outputsMask.toNat.testBit idx then
      if stage = .secondary then 1 else 0 else 0 := by
  rw [pin_endInjectionStage2]
  split_ifs <;> simp

/-- Each callback does to the outputs what its action says. -/
theorem runInjection_counts :
    ((runInjection port nowNt action pins).1.pin stage idx).opened =
        (pins.pin stage idx).opened + opens stage idx action ∧
      ((runInjection port nowNt action pins).1.pin stage idx).closed =
        (pins.pin stage idx).closed + closes stage idx action := by
  rw [runInjection, opens, closes]
  by_cases start : action.callback = some startInjectionCallback
  · rw [if_pos start, startInjection_opened, startInjection_closed]
    cases stage <;> simp [start, Stage.endCallback, ← ite_and]
  · rw [if_neg start]
    by_cases close : action.callback = some endInjectionCallback
    · rw [if_pos close, endInjection, closeInjectors_opened, closeInjectors_closed]
      cases stage <;> simp [close, Stage.endCallback]
    · rw [if_neg close]
      by_cases closeStage2 : action.callback = some endInjectionStage2Callback
      · rw [if_pos closeStage2, endInjectionStage2_opened, endInjectionStage2_closed]
        cases stage <;> simp [closeStage2, Stage.endCallback]
      · rw [if_neg closeStage2]
        cases stage <;> simp [start, close, closeStage2, Stage.endCallback]

end Outputs

section Requests

variable {t : TriggerTooth} {l calls : List ExecutorCall} {call : ExecutorCall}

/-- The requests of one call: an opening with its closings, all of them later. -/
inductive Paired : List ExecutorCall → Prop
  | nothing : Paired []
  | primary {ctx : InjectorContext} (single : ctx.stage2Active = false) (later : openTime < closeTime) :
    Paired [.schedule msg none openTime (injectionAction startInjectionCallback ctx),
      .schedule closeMsg none closeTime (injectionAction endInjectionCallback ctx)]
  | both {ctx : InjectorContext} (second : ctx.stage2Active = true)
    (whole : ctx.splitDurationUs = 0) (later : openTime < closeTime) (laterStage2 : openTime < closeTimeStage2) :
    Paired [.schedule msg none openTime (injectionAction startInjectionCallback ctx),
      .schedule closeMsg none closeTime (injectionAction endInjectionCallback ctx),
      .schedule closeMsgStage2 none closeTimeStage2 (injectionAction endInjectionStage2Callback ctx)]

/-- No second pulse follows a closing of both stages. -/
def Sound (action : Action) : Prop :=
  action.callback = some endInjectionCallback →
    (InjectorContext.ofPad action.param).stage2Active = true →
    (InjectorContext.ofPad action.param).splitDurationUs = 0

/-- The count of an action, over what calls ask for. -/
def asked (count : Action → Nat) (calls : List ExecutorCall) : Nat :=
  (calls.map fun
    | .schedule _ _ _ action => count action
    | .cancel _ => 0).sum

theorem truncate_pos (least : 1 ≤ value) : 0 < truncate value := by
  have nonneg : 0 ≤ value := zero_le_one.trans least
  rw [truncate, if_pos nonneg]
  exact Int.floor_pos.mpr least

theorem us2nt_pos (positive : 0 < us) : 0 < port.us2nt us :=
  Int.mul_pos positive (Int.natCast_pos.mpr port.positive)

theorem durations_split (split : t.doSplitInjection = true) : t.durations.2 = some 0 := by
  simp [TriggerTooth.durations, split]

theorem schedule_paired (long : 50 ≤ durationUsStage1)
    (once : t.doSplitInjection = true → durationUsStage2 = 0) :
    Paired (t.schedule port durationUsStage1 durationUsStage2) := by
  have later : (t.opening port (t.context durationUsStage1 durationUsStage2)).1 < (t.opening port (t.context durationUsStage1 durationUsStage2)).1 +
      port.us2nt (truncate durationUsStage1) :=
    Int.lt_add_of_pos_right _ (us2nt_pos (truncate_pos (by linarith)))
  simp only [TriggerTooth.schedule]
  split
  · next long2 =>
    have whole : t.doSplitInjection = false := by
      cases split : t.doSplitInjection with
      | false => rfl
      | true =>
        have none := once split
        linarith
    refine .both (by simpa [TriggerTooth.context] using long2) ?_ later ?_
    · simp [TriggerTooth.context, whole]
    · exact Int.lt_add_of_pos_right _ (us2nt_pos (truncate_pos (by linarith)))
  · next short =>
    exact .primary (by simpa [TriggerTooth.context] using short) later

theorem onTriggerTooth_paired (port : Port) (t : TriggerTooth) :
    Paired (t.onTriggerTooth port) := by
  simp only [TriggerTooth.onTriggerTooth]
  split
  · exact .nothing
  split
  · next injectionDurationStage1 injectionDurationStage2 durations =>
    split
    · exact .nothing
    split
    · exact .nothing
    · next long =>
      refine schedule_paired (by linarith) fun split => ?_
      have stage2 := durations_split split
      rw [durations, Option.some.injEq] at stage2
      rw [stage2, mul_zero]
  · exact .nothing

theorem endInjection_paired (whole : ctx.stage2Active = true → ctx.splitDurationUs = 0) :
    Paired (endInjection port nowNt ctx pins).2 := by
  simp only [endInjection]
  split
  · next split =>
    refine .primary ?_ (Int.lt_add_of_pos_right _ (us2nt_pos (Int.natCast_pos.mpr split)))
    cases second : ctx.stage2Active with
    | false => rfl
    | true =>
      rw [whole second] at split
      contradiction
  · exact .nothing

theorem runInjection_paired (sound : Sound action) :
    Paired (runInjection port nowNt action pins).2 := by
  rw [runInjection]
  split
  · exact .nothing
  split
  · next close => exact endInjection_paired (sound close)
  split
  · exact .nothing
  · exact .nothing

theorem Paired.sound (paired : Paired l)
    (member : .schedule msg scheduling nt action ∈ l) :
    scheduling = none ∧ action.isSet = true ∧ Sound action := by
  cases paired with
  | nothing => simp at member
  | primary single later =>
    simp only [List.mem_cons, List.not_mem_nil, or_false, ExecutorCall.schedule.injEq] at member
    obtain ⟨-, rfl, -, rfl⟩ | ⟨-, rfl, -, rfl⟩ := member
    · exact ⟨rfl, rfl, by simp [Sound, injectionAction]⟩
    · exact ⟨rfl, rfl, by simp [Sound, injectionAction, single]⟩
  | both second whole later laterStage2 =>
    simp only [List.mem_cons, List.not_mem_nil, or_false, ExecutorCall.schedule.injEq] at member
    obtain ⟨-, rfl, -, rfl⟩ | ⟨-, rfl, -, rfl⟩ | ⟨-, rfl, -, rfl⟩ := member
    · exact ⟨rfl, rfl, by simp [Sound, injectionAction]⟩
    · exact ⟨rfl, rfl, by simp [Sound, injectionAction, whole]⟩
    · exact ⟨rfl, rfl, by simp [Sound, injectionAction]⟩

/-- The first request opens what the others close. -/
theorem Paired.opening (paired : Paired (.schedule msg scheduling nt action :: calls)) :
    opens stage idx action = asked (closes stage idx) calls ∧ closes stage idx action = 0 := by
  cases paired with
  | primary single later =>
    cases stage <;> simp [opens, closes, asked, injectionAction, Stage.endCallback, single]
  | both second whole later laterStage2 =>
    cases stage <;> simp [opens, closes, asked, injectionAction, Stage.endCallback, second]

theorem Paired.closing (paired : Paired (call :: l))
    (member : .schedule msg scheduling nt action ∈ l) : opens stage idx action = 0 := by
  cases paired with
  | primary single later =>
    simp only [List.mem_singleton, ExecutorCall.schedule.injEq] at member
    obtain ⟨-, -, -, rfl⟩ := member
    simp [opens, injectionAction]
  | both second whole later laterStage2 =>
    simp only [List.mem_cons, List.not_mem_nil, or_false, ExecutorCall.schedule.injEq] at member
    obtain ⟨-, -, -, rfl⟩ | ⟨-, -, -, rfl⟩ := member
    · simp [opens, injectionAction]
    · simp [opens, injectionAction]

theorem Paired.noCancel (paired : Paired l) : .cancel owner ∉ l := by
  cases paired <;> simp

end Requests

section Ledger

variable {c : Context} {a a' : Agenda} {s s' : Hosted EnginePins} {calls : List ExecutorCall}
  {granted : Bool}

/-- A call goes on: so far all its requests met the same answer. -/
structure Going (c : Context) : Prop where
  paired : Paired (c.made.map Prod.fst ++ c.calls)
  alike : ∃ granted, ∀ entry ∈ c.made, entry.2 = granted

/-- Closings that a granted opening still waits for. -/
def owed (stage : Stage) (idx : Nat) (c : Context) : Nat :=
  if c.made.any Prod.snd then asked (closes stage idx) c.calls else 0

theorem Going.start (paired : Paired calls) : Going { calls } :=
  ⟨paired, false, fun _ member => absurd member List.not_mem_nil⟩

theorem owed_idle (idle : c.calls = []) : owed stage idx c = 0 := by
  simp [owed, idle, asked]

theorem owed_start : owed stage idx { calls } = 0 := rfl

/-- When a closing is requested, the pool has a free record and its moment is less than ten
seconds ahead, or the opening before it was refused and that is not so. -/
def hasRoom (port : Port) (s : Hosted EnginePins) : HostedEvent TriggerTooth Unit → Bool
  | .call =>
    match s.ready, s.context.calls, s.context.made with
    | true, .schedule _ _ nt _ :: _, (_, opened) :: _ =>
      (decide (nt - s.executor.clock < port.tooFarIntoFutureNt) &&
        s.executor.queue.freelist.isSome) == opened
    | _, _, _ => true
  | _ => true

theorem grants_pool {e : SingleTimerExecutor} (rep : Represents e.queue a)
    (runs : action.isSet = true) :
    e.grants port none nt action =
      (decide (nt - e.clock < port.tooFarIntoFutureNt) && e.queue.freelist.isSome) := by
  have free : ∀ r ∈ a.free.head?, r ∉ a.keys := fun r head => a.apart r (List.mem_of_head? head)
  have callback : action.callback ≠ none := Option.isSome_iff_ne_none.mp runs
  rw [SingleTimerExecutor.grants, rep.admits none action, Agenda.admits, rep.spare.start_eq]
  cases head : a.free.head? with
  | none => simp
  | some r => simp [Option.filter_some, callback, free r head]

theorem grants_opening (rep : Represents s.executor.queue a) (runs : action.isSet = true)
    (ready : s.ready = true) (room : hasRoom port s .call = true)
    (next : s.context.calls = .schedule msg scheduling nt action :: calls)
    (made : s.context.made.head? = some opening) :
    s.executor.grants port none nt action = opening.2 := by
  obtain ⟨rest, shape⟩ := List.head?_eq_some_iff.mp made
  rw [grants_pool rep runs]
  simpa only [hasRoom, ready, next, shape, beq_iff_eq] using room

theorem Going.record (going : Going c) (next : c.calls = .schedule msg scheduling nt action :: calls)
    (room : ∀ opening, c.made.head? = some opening → granted = opening.2) :
    Going (c.record (.schedule msg scheduling nt action) granted calls) := by
  refine ⟨?_, granted, ?_⟩
  · simpa [Context.record, next] using going.paired
  · intro entry member
    obtain ⟨answer, alike⟩ := going.alike
    rcases List.mem_append.mp member with before | last
    · obtain ⟨opening, rest, shape⟩ := List.exists_cons_of_ne_nil (List.ne_nil_of_mem before)
      rw [room opening (by rw [shape]; rfl), alike entry before]
      exact (alike opening (by simp [shape])).symm
    · rw [List.mem_singleton.mp last]

/-- A granted opening is owed its closings, a granted closing is not owed any more. -/
theorem Going.owed_record (going : Going c) (stage : Stage) (idx : Nat)
    (next : c.calls = .schedule msg scheduling nt action :: calls)
    (room : ∀ opening, c.made.head? = some opening → granted = opening.2) :
    owed stage idx c + (if granted then opens stage idx action else 0) =
      owed stage idx (c.record (.schedule msg scheduling nt action) granted calls) +
        if granted then closes stage idx action else 0 := by
  have paired := going.paired
  rw [next] at paired
  cases made : c.made with
  | nil =>
    rw [made] at paired
    obtain ⟨opening, other⟩ : opens stage idx action = asked (closes stage idx) calls ∧
        closes stage idx action = 0 := Paired.opening paired
    simp only [owed, Context.record, made, opening, other]
    cases granted <;> simp
  | cons first rest =>
    obtain ⟨answer, alike⟩ := going.alike
    rw [made] at paired alike
    have closing : opens stage idx action = 0 :=
      Paired.closing paired (List.mem_append_right _ (List.mem_cons_self ..))
    have same : granted = answer := by
      rw [room first (by rw [made]; rfl), alike first (List.mem_cons_self ..)]
    have sofar : (first :: rest).any Prod.snd = answer := by
      cases answer with
      | true => simp [alike first (List.mem_cons_self ..)]
      | false =>
        refine List.any_eq_false.mpr fun entry member => ?_
        simp [alike entry member]
    simp only [owed, Context.record, made, next, closing, List.any_append, sofar, same]
    cases answer <;> simp [asked, Nat.add_comm]

def tally (count : Action → Nat) (a : Agenda) : Nat := (a.pending.map fun e => count e.payload).sum

/-- What holds between any two events. -/
structure Kept (s : Hosted EnginePins) (a : Agenda) : Prop where
  outer : Going s.outer
  inner : Going s.inner
  sound : ∀ e ∈ a.pending, isInjection e.payload = true → Sound e.payload
  pooled : ∀ e ∈ a.pending, isInjection e.payload = true → ∃ slot, e.key = .pool slot
  balance : ∀ stage idx, (s.state.pin stage idx).opened + tally (opens stage idx) a =
    (s.state.pin stage idx).closed + tally (closes stage idx) a +
      owed stage idx s.outer + owed stage idx s.inner

theorem foreign_counts (stage : Stage) (idx : Nat) (foreign : isInjection action = false) :
    opens stage idx action = 0 ∧ closes stage idx action = 0 := by
  simp only [isInjection, decide_eq_false_iff_not, not_or] at foreign
  obtain ⟨start, close, closeStage2⟩ := foreign
  cases stage <;> simp [opens, closes, Stage.endCallback, start, close, closeStage2]

theorem Kept.same (kept : Kept s a) (same : Hosted.Same s s')
    (own : ∀ e ∈ a'.pending, isInjection e.payload = true → e ∈ a.pending)
    (counts : ∀ stage idx, tally (opens stage idx) a' = tally (opens stage idx) a ∧
      tally (closes stage idx) a' = tally (closes stage idx) a) : Kept s' a' where
  outer := same.outer ▸ kept.outer
  inner := same.inner ▸ kept.inner
  sound e member injection := kept.sound e (own e member injection) injection
  pooled e member injection := kept.pooled e (own e member injection) injection
  balance stage idx := by
    rw [same.state, same.outer, same.inner, (counts stage idx).1, (counts stage idx).2]
    exact kept.balance stage idx

section Granted

variable {r : Option Nat} (pending : if granted = true then
    ∃ r, a.admits none action = some r ∧ a'.pending = TimedQueue.insert ⟨r, nt, action⟩ a.pending
  else a'.pending = a.pending)
include pending

theorem tally_granted (count : Action → Nat) :
    tally count a' = tally count a + if granted then count action else 0 := by
  split at pending
  · next yes =>
    obtain ⟨r, admitted, pending⟩ := pending
    rw [tally, pending, TimedQueue.insert_sum, Nat.add_comm, if_pos yes]
    rfl
  · next no =>
    rw [tally, pending, if_neg no]
    rfl

theorem mem_granted (member : e ∈ a'.pending) :
    e ∈ a.pending ∨ e.payload = action ∧ ∃ slot, e.key = .pool slot := by
  split at pending
  · obtain ⟨r, admitted, pending⟩ := pending
    rw [pending, (TimedQueue.insert_perm _ _).mem_iff] at member
    rcases List.mem_cons.mp member with rfl | member
    · exact .inr ⟨rfl, Agenda.admits_pool admitted⟩
    · exact .inl member
  · exact .inl (pending ▸ member)

end Granted

theorem Kept.context (kept : Kept s a) : Going s.context := by
  simp only [Hosted.context]
  split
  · exact kept.outer
  · exact kept.inner

/-- The running code makes a request. -/
theorem Kept.request (kept : Kept s a) (rep : Represents s.executor.queue a)
    (ready : s.ready = true) (room : hasRoom port s .call = true)
    (next : s.context.calls = .schedule msg scheduling nt action :: calls)
    (after : s' = { s with executor := s'.executor }.setContext (s.context.record
      (.schedule msg scheduling nt action) (s.executor.grants port scheduling nt action) calls))
    (pending : if s.executor.grants port scheduling nt action = true then
        ∃ r, a.admits scheduling action = some r ∧
          a'.pending = TimedQueue.insert ⟨r, nt, action⟩ a.pending
      else a'.pending = a.pending) : Kept s' a' := by
  have going := kept.context
  obtain ⟨rfl, runs, sound⟩ := going.paired.sound
    (List.mem_append_right _ (next ▸ List.mem_cons_self ..))
  have enough : ∀ opening, s.context.made.head? = some opening →
      s.executor.grants port none nt action = opening.2 :=
    fun opening => grants_opening rep runs ready room next
  generalize s.executor.grants port none nt action = granted at *
  have recorded := going.record next enough
  have sounds : ∀ e ∈ a'.pending, isInjection e.payload = true → Sound e.payload := by
    intro e member injection
    rcases mem_granted pending member with before | ⟨rfl, -⟩
    · exact kept.sound e before injection
    · exact sound
  have pools : ∀ e ∈ a'.pending, isInjection e.payload = true → ∃ slot, e.key = .pool slot := by
    intro e member injection
    rcases mem_granted pending member with before | ⟨-, pool⟩
    · exact kept.pooled e before injection
    · exact pool
  have balance := fun stage idx => kept.balance stage idx
  have owes := fun stage idx => going.owed_record stage idx next enough
  have opened := fun stage idx => tally_granted pending (opens stage idx)
  have closed := fun stage idx => tally_granted pending (closes stage idx)
  by_cases idle : s.inner.calls = []
  · simp only [Hosted.context, if_pos idle] at recorded owes after
    simp only [Hosted.setContext, if_pos idle] at after
    rw [after]
    refine ⟨recorded, kept.inner, sounds, pools, fun stage idx => ?_⟩
    have := balance stage idx
    have := owes stage idx
    rw [opened, closed]
    simp only
    omega
  · simp only [Hosted.context, if_neg idle] at recorded owes after
    simp only [Hosted.setContext, if_neg idle] at after
    rw [after]
    refine ⟨kept.outer, recorded, sounds, pools, fun stage idx => ?_⟩
    have := balance stage idx
    have := owes stage idx
    rw [opened, closed]
    simp only
    omega

/-- Each change keeps the balance, given room. -/
theorem Kept.change {event : HostedEvent TriggerTooth Unit} (kept : Kept s a)
    (rep : Represents s.executor.queue a) (room : hasRoom port s event = true)
    (change : Hosted.Change (fuelSchedule port) port steps s s' a a' event) : Kept s' a' := by
  cases change with
  | idle same pending =>
    refine kept.same same (fun e member _ => pending ▸ member) fun stage idx => ?_
    simp only [tally, pending, and_self]
  | entered same e foreign record pending =>
    refine kept.same same (fun other member injection => ?_) fun stage idx => ?_
    · rw [pending, (TimedQueue.insert_perm _ _).mem_iff] at member
      rcases List.mem_cons.mp member with rfl | member
      · rw [show isInjection other.payload = false from foreign] at injection
        contradiction
      · exact member
    · obtain ⟨opens, closes⟩ := foreign_counts stage idx foreign
      simp only [tally, pending, TimedQueue.insert_sum, opens, closes, Nat.zero_add, and_self]
  | struck same owner foreign pending =>
    have zero : ∀ e ∈ a.pending, e.key = .owned owner → isInjection e.payload = false := by
      intro e member key
      cases injection : isInjection e.payload with
      | false => rfl
      | true =>
        obtain ⟨slot, pool⟩ := kept.pooled e member injection
        exact Ref.noConfusion (key.symm.trans pool)
    refine kept.same same (fun e member _ => ?_) fun stage idx => ?_
    · exact (TimedQueue.erase_sublist _ _).subset (pending ▸ member)
    · simp only [tally, pending]
      exact ⟨TimedQueue.erase_sum _ fun e member key => (foreign_counts stage idx (zero e member key)).1,
        TimedQueue.erase_sum _ fun e member key => (foreign_counts stage idx (zero e member key)).2⟩
  | ran same first foreign pending =>
    refine kept.same same (fun e member _ => ?_) fun stage idx => ?_
    · exact pending ▸ List.mem_cons_of_mem _ member
    · obtain ⟨opens, closes⟩ := foreign_counts stage idx foreign
      simp only [tally, pending, List.map_cons, List.sum_cons, opens, closes, Nat.zero_add, and_self]
  | handled calls idle handled contexts pending =>
    obtain ⟨state, requests⟩ := Prod.mk.inj (Option.some.inj handled)
    obtain ⟨innerIdle, outerIdle⟩ := List.append_eq_nil_iff.mp idle
    have going : Going { calls } := .start (requests ▸ onTriggerTooth_paired port _)
    have balance := fun stage idx => kept.balance stage idx
    simp only [owed_idle innerIdle, owed_idle outerIdle, Nat.add_zero] at balance
    rcases contexts with ⟨outer, inner⟩ | ⟨outer, inner⟩
    · refine ⟨outer ▸ going, inner ▸ kept.inner, pending ▸ kept.sound, pending ▸ kept.pooled, ?_⟩
      intro stage idx
      rw [← state, outer, inner, owed_start, owed_idle innerIdle, tally, tally, pending]
      exact balance stage idx
    · refine ⟨outer ▸ kept.outer, inner ▸ going, pending ▸ kept.sound, pending ▸ kept.pooled, ?_⟩
      intro stage idx
      rw [← state, outer, inner, owed_start, owed_idle outerIdle, tally, tally, pending]
      exact balance stage idx
  | executed first calls idle own pending executed outer inner =>
    have sound := kept.sound first (pending ▸ List.mem_cons_self ..) own
    have requests : (runInjection port s'.executor.clock first.payload s.state).2 = calls :=
      congrArg Prod.snd executed
    have paired : Paired calls := requests ▸ runInjection_paired sound
    refine ⟨outer ▸ kept.outer, inner ▸ .start paired,
      fun e member => kept.sound e (pending ▸ List.mem_cons_of_mem _ member),
      fun e member => kept.pooled e (pending ▸ List.mem_cons_of_mem _ member), ?_⟩
    intro stage idx
    obtain ⟨opened, closed⟩ := @runInjection_counts port stage idx s.state first.payload
      s'.executor.clock
    have state : (runInjection port s'.executor.clock first.payload s.state).1 = s'.state :=
      congrArg Prod.fst executed
    have balance := kept.balance stage idx
    rw [owed_idle idle, tally, tally, pending, List.map_cons, List.sum_cons, List.map_cons,
      List.sum_cons] at balance
    rw [state] at opened closed
    rw [opened, closed, outer, inner, owed_start, tally, tally]
    omega
  | scheduled calls ready next after pending => exact kept.request rep ready room next after pending
  | cancelled calls ready next after pending =>
    have going : Going s.context := kept.context
    exact absurd (List.mem_append_right _ (next ▸ List.mem_cons_self ..)) going.paired.noCancel

end Ledger

section Runs

variable {c : Context} {l : List ExecutorCall} {s : Hosted EnginePins}

/-- Where an opening was granted, so were its closings, all for a later moment. -/
def Answered (c : Context) : Prop :=
  ∀ msg scheduling nt ctx,
    (.schedule msg scheduling nt (injectionAction startInjectionCallback ctx), true) ∈ c.made →
    (∃ msg' nt', nt < nt' ∧
      (.schedule msg' none nt' (injectionAction endInjectionCallback ctx), true) ∈ c.made) ∧
    (ctx.stage2Active = true → ∃ msg' nt', nt < nt' ∧
      (.schedule msg' none nt' (injectionAction endInjectionStage2Callback ctx), true) ∈ c.made)

theorem injectionAction_ctx (same : injectionAction callback ctx = injectionAction callback ctx') :
    ctx = ctx' := by
  have params := congrArg (fun action => InjectorContext.ofPad action.param) same
  simpa [injectionAction] using params

theorem Paired.answers (paired : Paired l)
    (member : .schedule msg scheduling nt (injectionAction startInjectionCallback ctx) ∈ l) :
    (∃ msg' nt', nt < nt' ∧ .schedule msg' none nt' (injectionAction endInjectionCallback ctx) ∈ l) ∧
    (ctx.stage2Active = true → ∃ msg' nt', nt < nt' ∧
      .schedule msg' none nt' (injectionAction endInjectionStage2Callback ctx) ∈ l) := by
  have apart : ∀ callback ctx', callback ≠ startInjectionCallback →
      injectionAction startInjectionCallback ctx ≠ injectionAction callback ctx' :=
    fun callback ctx' other same => other (Option.some.inj (congrArg Action.callback same)).symm
  cases paired with
  | nothing => simp at member
  | primary single later =>
    rcases List.mem_pair.mp member with start | close
    · obtain ⟨-, -, rfl, same⟩ := ExecutorCall.schedule.inj start
      obtain rfl := injectionAction_ctx same
      refine ⟨⟨_, _, later, List.mem_cons_of_mem _ (List.mem_cons_self ..)⟩, fun second => ?_⟩
      rw [single] at second
      contradiction
    · exact absurd (ExecutorCall.schedule.inj close).2.2.2 (apart _ _ (by decide))
  | both second whole later laterStage2 =>
    simp only [List.mem_cons, List.not_mem_nil, or_false] at member
    rcases member with start | close | closeStage2
    · obtain ⟨-, -, rfl, same⟩ := ExecutorCall.schedule.inj start
      obtain rfl := injectionAction_ctx same
      exact ⟨⟨_, _, later, List.mem_cons_of_mem _ (List.mem_cons_self ..)⟩, fun _ =>
        ⟨_, _, laterStage2, List.mem_cons_of_mem _ (List.mem_cons_of_mem _ (List.mem_cons_self ..))⟩⟩
    · exact absurd (ExecutorCall.schedule.inj close).2.2.2 (apart _ _ (by decide))
    · exact absurd (ExecutorCall.schedule.inj closeStage2).2.2.2 (apart _ _ (by decide))

theorem Going.answered (going : Going c) (finished : c.calls = []) : Answered c := by
  intro msg scheduling nt ctx start
  obtain ⟨answer, alike⟩ := going.alike
  have paired := going.paired
  rw [finished, List.append_nil] at paired
  have granted : ∀ call ∈ c.made.map Prod.fst, (call, true) ∈ c.made := by
    intro call member
    obtain ⟨entry, made, rfl⟩ := List.mem_map.mp member
    have yes : entry.2 = true := (alike entry made).trans (alike _ start).symm
    exact yes ▸ made
  obtain ⟨⟨msg₁, nt₁, later, close⟩, stage2⟩ :=
    paired.answers (List.mem_map.mpr ⟨_, start, rfl⟩)
  refine ⟨⟨msg₁, nt₁, later, granted _ close⟩, fun second => ?_⟩
  obtain ⟨msg₂, nt₂, laterStage2, closeStage2⟩ := stage2 second
  exact ⟨msg₂, nt₂, laterStage2, granted _ closeStage2⟩

/-- Between its calls, and with none of its events pending, the fuel schedule has closed every
output as often as it opened it. -/
def Balanced (steps : Nat) (s : Hosted EnginePins) : Prop :=
  s.calls = [] →
  (∀ r ∈ s.executor.queue.walk steps s.executor.queue.head,
    isInjection (s.executor.queue.memory r).action = false) →
  ∀ stage idx, (s.state.pin stage idx).opened = (s.state.pin stage idx).closed

def engineOff (port : Port) (hwStarted : Bool) (clock : Tick) : Hosted EnginePins where
  executor := .construct port hwStarted clock
  state := {}

theorem engineOff_kept (port : Port) (hwStarted : Bool) (clock : Tick) :
    Kept (engineOff port hwStarted clock) (.fresh port.lateDelay) where
  outer := .start .nothing
  inner := .start .nothing
  sound _ member := absurd member List.not_mem_nil
  pooled _ member := absurd member List.not_mem_nil
  balance stage idx := by cases stage <;> rfl

theorem Kept.balanced (kept : Kept s a) (rep : Represents s.executor.queue a)
    (enough : a.pending.length < steps) : Balanced steps s := by
  intro idle finished stage idx
  have walked := @EventQueue.walk_eq _ _ steps _ rep.linked (by simpa [Agenda.keys] using enough)
  rw [walked] at finished
  have foreign : ∀ e ∈ a.pending, isInjection e.payload = false := by
    intro e member
    rw [← (rep.stored e member).2]
    exact finished e.key (List.mem_map_of_mem member)
  have none : ∀ count : Action → Nat, (∀ action, isInjection action = false → count action = 0) →
      tally count a = 0 := by
    intro count zero
    refine List.sum_eq_zero fun n member => ?_
    obtain ⟨e, pending, rfl⟩ := List.mem_map.mp member
    exact zero _ (foreign e pending)
  obtain ⟨innerIdle, outerIdle⟩ := List.append_eq_nil_iff.mp idle
  have balance := kept.balance stage idx
  rw [none _ fun action other => (foreign_counts stage idx other).1,
    none _ fun action other => (foreign_counts stage idx other).2, owed_idle innerIdle,
    owed_idle outerIdle] at balance
  omega

end Runs

section FullPool

def quarterTick : Port := ⟨4, Port.four_positive⟩

/-- A tooth before an injection of five milliseconds. -/
def fiveMs : TriggerTooth where
  timestamp := 0
  currentEngPhase := 0
  nextEngPhase := 60
  engineCycle := 720
  oneDegreeUs := 100
  injectionStartAngle := 10
  ownIndex := 0
  cylinderNumber := 0
  injectionMode := .sequential
  cylindersCount := 4
  getCylinderNumberAtIndex := id
  doSplitInjection := false
  cycleMassGrams := 1
  getInjectionModeDurationMultiplier := fun _ => 1
  adjustWallFuel := id
  injectionStage2Fraction := 0
  getInjectionDuration := fun mass => some (5 * mass)
  getInjectionDurationSecondary := fun mass => some mass

/-- One injection at rest, and the executor running both events late. -/
def oneInjection : List (HostedEvent TriggerTooth Unit) :=
  [.handle fiveMs, .call, .proceed (), .proceed (), .call, .proceed (), .proceed (),
    .other (.timePasses 40000), .other .onTimerCallback, .proceed (), .proceed (),
    .other .callbackReturns, .proceed (), .other .callbackReturns, .proceed (), .proceed ()]

def otherCode : Action := { callback := some 9 }

/-- The tooth from a callback of other code that left one free record, up to its return. -/
def lastRecord : List (HostedEvent TriggerTooth Unit) :=
  [.other (.schedule "" none 0 otherCode), .proceed ()] ++
    ((List.range 63).map fun i => .other (.schedule "" none (1000 - i) otherCode)) ++
    [.handle fiveMs, .call, .call]

def runEverything : List (HostedEvent TriggerTooth Unit) :=
  .other .callbackReturns :: .other (.timePasses 40000) ::
    (List.replicate 64 [.proceed (), .other .callbackReturns]).flatten ++ [.proceed (), .proceed ()]

end FullPool

end FomeFw.Injection
