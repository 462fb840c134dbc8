import FomeFw.Ignition.Cylinders
import FomeFw.Ignition.Dwell

/-! Whether a trailing coil that is charged is fired. The charge is asked for when the leading
dwell starts, the fire only when the leading spark is fired in time: in between, the trailing
coil depends on a leading firing to come. -/
namespace FomeFw.Ignition
open Timer Trigger TimedQueue

def chargeKey (element : Nat) : Ref := .owned (trailingSparkCharge element)
def trailingKey (element : Nat) : Ref := .owned (trailingSparkFire element)

variable {config : EngineConfiguration} {port : Port} {i j c : Nat}
  {calls rest : List ExecutorCall} {a a' : Agenda} {late : Tick → Prop} {action : Action} {nt : Tick}

/-- Some call asks for a firing of the element, of either spark. -/
def asksFor (element : Nat) (calls : List ExecutorCall) : Bool :=
  calls.any fun
    | .schedule _ (some record) _ _ =>
      record = sparkScheduling element ∨ record = trailingSparkFire element
    | _ => false

/-- A fire of the trailing coil is to come: late enough, or behind a leading firing. -/
def Coming (a : Agenda) (calls : List ExecutorCall) (element : Nat) (late : Tick → Prop) : Prop :=
  asksFor element calls = true ∨ (∃ e ∈ a.pending, e.key = fireKey element) ∨
    ∃ e ∈ a.pending, e.key = trailingKey element ∧ late e.time

section Comes

theorem asksFor_cons : asksFor i (call :: calls) = true ↔
    asksFor i [call] = true ∨ asksFor i calls = true := by
  simp [asksFor]

theorem asksFor_append : asksFor i (calls ++ rest) = true ↔
    asksFor i calls = true ∨ asksFor i rest = true := by
  simp [asksFor]

theorem asksFor_schedule : asksFor i [.schedule msg (some record) nt action] = true ↔
    record = sparkScheduling i ∨ record = trailingSparkFire i := by
  simp [asksFor]

theorem asksFor_cancel : asksFor i [.cancel record] = false := rfl

theorem Coming.mono {late' : Tick → Prop} (coming : Coming a calls i late)
    (weaker : ∀ t, late t → late' t) : Coming a calls i late' := by
  rcases coming with asked | leading | ⟨e, member, key, later⟩
  · exact .inl asked
  · exact .inr (.inl leading)
  · exact .inr (.inr ⟨e, member, key, weaker _ later⟩)

theorem Coming.carry (coming : Coming a calls i late)
    (asks : asksFor i calls = true → asksFor i rest = true)
    (stays : ∀ e ∈ a.pending, e.key = fireKey i ∨ e.key = trailingKey i → e ∈ a'.pending) :
    Coming a' rest i late := by
  rcases coming with asked | ⟨e, member, key⟩ | ⟨e, member, key, later⟩
  · exact .inl (asks asked)
  · exact .inr (.inl ⟨e, stays e member (.inl key), key⟩)
  · exact .inr (.inr ⟨e, stays e member (.inr key), key, later⟩)

end Comes

section Condition

variable {s s' : Hosted SparkState} {fire : Option (Tick × Action)} {leading : Bool}

/-- Firing is put off until there is enough dwell. -/
def underdwells (port : Port) (s : SparkState) (nowNt : Tick) (ctx : IgnitionContext) : Bool :=
  let event := s.elements ctx.eventIndex.toNat
  !ctx.isOverdwellProtect &&
    (event.sparkDwell.map (8 / 10 * ·)).any (event.actualDwellMs port nowNt < ·)

/-- The leading spark is fired by overdwell protection, or the engine has just stopped. -/
def abandons (port : Port) (r : EngineReadings) (s : SparkState) (nowNt : Tick)
    (ctx : IgnitionContext) : Bool :=
  !underdwells port s nowNt ctx &&
    (ctx.isOverdwellProtect || r.dwellAngle.isNone || r.getDwell.isNone)

/-- The trailing coil of the element is off and not to be charged, unless there is a leading
firing, or a request, or a fire later than the charge. -/
def spared (config : EngineConfiguration) (s : Hosted SparkState) (element : Nat) (leading : Bool)
    (calls : List ExecutorCall) (fire : Option (Tick × Action)) : Bool :=
  leading || asksFor element calls ||
    ((!s.state.trailingCoils (config.getCylinderNumberAtIndex element) || fire.isSome) &&
      (s.executor.queue.pendingOn (chargeKey element)).all fun charge =>
        fire.any fun fire => decide (charge.1 < fire.1))

/-- The fire of a trailing coil is later than its charge, no request for a firing that it depends
on is refused, and no leading spark that it depends on is abandoned. -/
def trailingStands (config : EngineConfiguration) (port : Port) (s : Hosted SparkState) :
    HostedEvent SparkInput EngineReadings → Bool
  | .call =>
    !s.ready ||
    match s.calls with
    | .schedule _ (some record) nt action :: calls =>
      let granted := s.executor.grants port (some record) nt action
      let element := record / 4
      let leading := (s.executor.queue.pendingOn (fireKey element)).isSome
      let fire := s.executor.queue.pendingOn (trailingKey element)
      if record = trailingSparkCharge element then
        !granted || leading || asksFor element calls || fire.any fun fire => decide (nt < fire.1)
      else if record = sparkScheduling element then
        granted || spared config s element leading calls fire
      else if record = trailingSparkFire element then
        spared config s element leading calls (if granted then some (nt, action) else fire)
      else true
    | _ => true
  | .proceed r =>
    s.inner.calls ≠ [] ||
    match s.executor.starting with
    | some action =>
      let ctx := IgnitionContext.ofPad action.param
      let element := ctx.eventIndex.toNat
      action.callback ≠ some fireSparkCallback ||
        !abandons port r s.state (s.executor.proceed port).clock ctx ||
        spared config s element false s.calls (s.executor.queue.pendingOn (trailingKey element))
    | none => true
  | _ => true

theorem spared_lit (safe : spared config s i leading calls fire = true)
    (lit : s.state.trailingCoils (config.getCylinderNumberAtIndex i) = true) :
    leading = true ∨ asksFor i calls = true ∨ ∃ f, fire = some f := by
  simp only [spared, lit, Bool.or_eq_true, Bool.and_eq_true, Bool.not_true, Bool.false_eq_true,
    false_or, Option.isSome_iff_exists] at safe
  rcases safe with (now | asked) | ⟨later, -⟩
  · exact .inl now
  · exact .inr (.inl asked)
  · exact .inr (.inr later)

theorem spared_charge (safe : spared config s i leading calls fire = true)
    (charge : s.executor.queue.pendingOn (chargeKey i) = some (start, action)) :
    leading = true ∨ asksFor i calls = true ∨ ∃ f, fire = some f ∧ start < f.1 := by
  simp only [spared, charge, Bool.or_eq_true, Bool.and_eq_true, Option.all_some,
    Option.any_eq_true, decide_eq_true_eq] at safe
  rcases safe with (now | asked) | ⟨-, later⟩
  · exact .inl now
  · exact .inr (.inl asked)
  · exact .inr (.inr later)

section Requests

variable (ready : s.ready = true) (stands : trailingStands config port s .call = true)
include ready stands

theorem trailingStands_charge
    (next : s.calls = .schedule msg (some (trailingSparkCharge i)) nt action :: calls)
    (granted : s.executor.grants port (some (trailingSparkCharge i)) nt action = true) :
    (s.executor.queue.pendingOn (fireKey i)).isSome = true ∨ asksFor i calls = true ∨
      ∃ f, s.executor.queue.pendingOn (trailingKey i) = some f ∧ nt < f.1 := by
  simpa [trailingStands, ready, next, granted, Option.any_eq_true, or_assoc] using stands

theorem trailingStands_fire
    (next : s.calls = .schedule msg (some (sparkScheduling i)) nt action :: calls)
    (refused : s.executor.grants port (some (sparkScheduling i)) nt action = false) :
    spared config s i (s.executor.queue.pendingOn (fireKey i)).isSome calls
      (s.executor.queue.pendingOn (trailingKey i)) = true := by
  have other : sparkScheduling i ≠ trailingSparkCharge i := fun same =>
    (trailingSparkCharge_apart i i).2 same.symm
  simpa [trailingStands, ready, next, other, refused] using stands

theorem trailingStands_trailing
    (next : s.calls = .schedule msg (some (trailingSparkFire i)) nt action :: calls) :
    spared config s i (s.executor.queue.pendingOn (fireKey i)).isSome calls
      (if s.executor.grants port (some (trailingSparkFire i)) nt action = true then some (nt, action)
        else s.executor.queue.pendingOn (trailingKey i)) = true := by
  have other : trailingSparkFire i ≠ trailingSparkCharge i := by
    simp only [trailingSparkFire, trailingSparkCharge]
    omega
  simpa [trailingStands, ready, next, other, (trailingSparkFire_apart i i).2] using stands

end Requests

theorem trailingStands_proceed {ctx : IgnitionContext}
    (stands : trailingStands config port s (.proceed r) = true) (idle : s.inner.calls = [])
    (starting : s.executor.starting = some (ignitionAction fireSparkCallback ctx))
    (abandoned : abandons port r s.state (s.executor.proceed port).clock ctx = true) :
    spared config s ctx.eventIndex.toNat false s.calls
      (s.executor.queue.pendingOn (trailingKey ctx.eventIndex.toNat)) = true := by
  simpa [trailingStands, idle, starting, ignitionAction, abandoned] using stands

end Condition

section Callbacks

variable {s s' : SparkState} {r : EngineReadings} {ctx : IgnitionContext}

theorem Handled.of_modify {f : IgnitionEvent → IgnitionEvent} (named : Named config s)
    (keeps : ∀ event, (f event).cylinderIndex = event.cylinderIndex ∧
      ((f event).cylinderNumber = event.cylinderNumber ∨
        (f event).cylinderNumber = config.getCylinderNumberAtIndex event.cylinderIndex))
    (addressed : Remembers config s ((s.setCoils mask level).modify element f) →
      AllAddressed config ((s.setCoils mask level).modify element f) calls) :
    Handled config s ((s.setCoils mask level).modify element f) calls := by
  have remembers : Remembers config s ((s.setCoils mask level).modify element f) :=
    @Remembers.modify config (s.setCoils mask level) element f keeps
  exact ⟨rfl, remembers, named.of_remembers remembers rfl rfl, addressed remembers⟩

theorem turnSparkPinHigh_handled (named : Named config s)
    (numbered : Numbered config s ctx.eventIndex.toNat)
    (run : s.turnSparkPinHigh config port r nowNt ctx = (s', calls)) :
    Handled config s s' calls := by
  obtain ⟨rfl, rfl⟩ := Prod.mk.inj run
  refine .of_modify named (fun event => ⟨rfl, .inl rfl⟩) fun remembers => ?_
  split
  · exact .schedule (.trailing (remembers _ numbered) (trailingSparkCharge_div _)) .nothing
  · exact .nothing

/-- Firing asks for another firing, or for that of the trailing coil, or it is abandoned. -/
theorem fireSpark_handled (enabled : config.enableTrailingSparks = true) (named : Named config s)
    (numbered : Numbered config s ctx.eventIndex.toNat)
    (run : s.fireSparkAndPrepareNextSchedule config port r nowNt ctx = (s', calls)) :
    Handled config s s' calls ∧
      (abandons port r s nowNt ctx = true ∨ asksFor ctx.eventIndex.toNat calls = true) := by
  simp only [SparkState.fireSparkAndPrepareNextSchedule] at run
  split at run
  · obtain ⟨rfl, rfl⟩ := Prod.mk.inj run
    refine ⟨⟨rfl, fun _ => id, named, .schedule (.firing numbered) .nothing⟩, .inr ?_⟩
    exact asksFor_schedule.mpr (.inl rfl)
  · next dwelt =>
    have enough : underdwells port s nowNt ctx = false := Bool.not_eq_true _ ▸ dwelt
    split at run
    · split at run
      · obtain ⟨rfl, rfl⟩ := Prod.mk.inj run
        refine ⟨⟨rfl, fun _ => id, named.of_remembers (fun _ => id) rfl rfl, ?_⟩, .inr ?_⟩
        · exact .schedule (.dwell numbered) (.schedule (.firing numbered) .nothing)
        · exact asksFor_cons.mpr (.inr (asksFor_schedule.mpr (.inl rfl)))
      · obtain ⟨rfl, rfl⟩ := Prod.mk.inj run
        refine ⟨.of_modify named (fun event => ⟨rfl, .inr rfl⟩) fun remembers => ?_, ?_⟩
        · split
          · exact .schedule (Addressed.mono (.trailing numbered (trailingSparkFire_div _)) remembers)
              .nothing
          · exact .nothing
        · cases protect : ctx.isOverdwellProtect with
          | true => exact .inl (by simp [abandons, enough, protect])
          | false =>
            simp only [enabled, Bool.not_false, Bool.and_self, if_true]
            exact .inr (asksFor_schedule.mpr (.inr rfl))
    · next missing =>
      obtain ⟨rfl, rfl⟩ := Prod.mk.inj run
      refine ⟨⟨rfl, fun _ => id, named.of_remembers (fun _ => id) rfl rfl, .nothing⟩, .inl ?_⟩
      have unknown : r.dwellAngle = none ∨ r.getDwell = none := by
        rcases angle : r.dwellAngle with _ | dwellAngle
        · exact .inl rfl
        · rcases dwell : r.getDwell with _ | sparkDwell
          · exact .inr rfl
          · exact absurd dwell (missing dwellAngle sparkDwell angle)
      rcases unknown with angle | dwell
      · simp [abandons, enough, angle]
      · simp [abandons, enough, dwell]

end Callbacks

section Invariant

variable {s s' : Hosted SparkState} {r : EngineReadings}

/-- An event of the ignition is on its record, for its element. -/
structure Fits (config : EngineConfiguration) (s : SparkState) (e : Appointment) : Prop where
  inPlace : InPlace e
  addressed : ∀ record < 48, e.key = .owned record → Addressed config s record e.payload

/-- Whatever is pending or requested is in its place. -/
structure Placed (config : EngineConfiguration) (s : Hosted SparkState) (a : Agenda) : Prop where
  orderly : Orderly s.calls
  prepared : Prepared config s.state
  named : Named config s.state
  fits : ∀ e ∈ a.pending, Fits config s.state e
  addressed : AllAddressed config s.state s.calls

/-- A trailing coil that is on, and one that is to be charged, will be fired. -/
structure Trailing (config : EngineConfiguration) (s : Hosted SparkState) (a : Agenda) : Prop
    extends Placed config s a where
  lit : ∀ c, s.state.trailingCoils c = true →
    ∃ i < 12, config.getCylinderNumberAtIndex i = c ∧ Coming a s.calls i fun _ => True
  charged : ∀ e ∈ a.pending, ∀ i < 12, e.key = chargeKey i → Coming a s.calls i (e.time < ·)

theorem Fits.mono (fits : Fits config x e) (remembers : Remembers config x y) : Fits config y e :=
  ⟨fits.inPlace, fun record small key => (fits.addressed record small key).mono remembers⟩

theorem Fits.entered (proper : Proper record action) (addressed : Addressed config x record action) :
    Fits config x ⟨.owned record, nt, action⟩ where
  inPlace _ := ⟨record, rfl, proper⟩
  addressed record' _ key := by
    obtain rfl := Ref.owned.inj key
    exact addressed

/-- An event of other code. -/
theorem Fits.foreign (foreign : isIgnition e.payload = false)
    (outside : ∀ record, e.key = .owned record → decide (record < 48) = false) :
    Fits config x e :=
  ⟨(foreign_inPlace foreign outside).1, fun record small key =>
    absurd small (of_decide_eq_false (outside record key))⟩

theorem Placed.carry (placed : Placed config s a) (orderly : Orderly s'.calls)
    (prepared : Prepared config s'.state) (named : Named config s'.state)
    (remembers : Remembers config s.state s'.state)
    (own : ∀ e ∈ a'.pending, e ∈ a.pending ∨ Fits config s'.state e)
    (addressed : AllAddressed config s'.state s'.calls) : Placed config s' a' where
  orderly := orderly
  prepared := prepared
  named := named
  addressed := addressed
  fits e member := (own e member).elim (fun before => (placed.fits e before).mono remembers) id

/-- The state is as it was, and the calls are, or what is left of them. -/
theorem Placed.still (placed : Placed config s a) (state : s'.state = s.state)
    (calls : s'.calls = s.calls ∨ s'.calls = s.calls.tail)
    (own : ∀ e ∈ a'.pending, e ∈ a.pending ∨ Fits config s.state e) : Placed config s' a' := by
  have tail : Orderly s.calls.tail ∧ AllAddressed config s.state s.calls.tail := by
    have orderly := placed.orderly
    have addressed := placed.addressed
    cases calls : s.calls with
    | nil => exact ⟨.nothing, .nothing⟩
    | cons call rest =>
      rw [calls] at orderly addressed
      exact ⟨orderly.tail, addressed.tail⟩
  refine placed.carry ?_ (state ▸ placed.prepared) (state ▸ placed.named) (fun i => state ▸ id)
    (state ▸ own) ?_
  · rcases calls with same | rest
    · exact same ▸ placed.orderly
    · exact rest ▸ tail.1
  · rw [state]
    rcases calls with same | rest
    · exact same ▸ placed.addressed
    · exact rest ▸ tail.2

/-- Firings and the coils stay, and no new charge is pending. -/
theorem Trailing.carry (trailing : Trailing config s a) (placed : Placed config s' a')
    (coils : s'.state.trailingCoils = s.state.trailingCoils)
    (comes : ∀ i < 12, ∀ late, Coming a s.calls i late → Coming a' s'.calls i late)
    (own : ∀ e ∈ a'.pending, ∀ i < 12, e.key = chargeKey i → e ∈ a.pending) :
    Trailing config s' a' where
  toPlaced := placed
  lit c on := by
    obtain ⟨i, small, number, coming⟩ := trailing.lit c (coils ▸ on)
    exact ⟨i, small, number, comes i small _ coming⟩
  charged e member i small key :=
    comes i small _ (trailing.charged e (own e member i small key) i small key)

/-- A firing of an element does not come any more, but the element is spared. -/
theorem Trailing.spare (trailing : Trailing config s a) (placed : Placed config s' a')
    (rep : Represents s.executor.queue a)
    (coils : s'.state.trailingCoils = s.state.trailingCoils)
    (safe : spared config s i leading calls fire = true)
    (comes : ∀ j, j ≠ i → ∀ late, Coming a s.calls j late → Coming a' s'.calls j late)
    (own : ∀ e ∈ a'.pending, ∀ i < 12, e.key = chargeKey i → e ∈ a.pending)
    (stillLeading : leading = true → ∃ e ∈ a'.pending, e.key = fireKey i)
    (stillAsks : asksFor i calls = true → asksFor i s'.calls = true)
    (stillFires : ∀ f, fire = some f → ⟨trailingKey i, f.1, f.2⟩ ∈ a'.pending) :
    Trailing config s' a' where
  toPlaced := placed
  lit c on := by
    obtain ⟨j, small, number, coming⟩ := trailing.lit c (coils ▸ on)
    refine ⟨j, small, number, ?_⟩
    by_cases same : j = i
    · subst same
      rw [coils, ← number] at on
      rcases spared_lit safe on with now | asked | ⟨f, later⟩
      · exact .inr (.inl (stillLeading now))
      · exact .inl (stillAsks asked)
      · exact .inr (.inr ⟨_, stillFires f later, rfl, trivial⟩)
    · exact comes j same _ coming
  charged e member j small key := by
    have before := own e member j small key
    by_cases same : j = i
    · subst same
      obtain ⟨key', start, payload⟩ := e
      obtain rfl : key' = chargeKey j := key
      rcases spared_charge safe (rep.pendingOn.mpr before) with now | asked | ⟨f, later, after⟩
      · exact .inr (.inl (stillLeading now))
      · exact .inl (stillAsks asked)
      · exact .inr (.inr ⟨_, stillFires f later, rfl, after⟩)
    · exact comes j same _ (trailing.charged e before j small key)

section Keys

theorem chargeKey_inj : chargeKey i = chargeKey j ↔ i = j := by
  simp only [chargeKey, trailingSparkCharge, Ref.owned.injEq]
  omega

theorem trailingKey_inj : trailingKey i = trailingKey j ↔ i = j := by
  simp only [trailingKey, trailingSparkFire, Ref.owned.injEq]
  omega

theorem chargeKey_ne_trailingKey : chargeKey i ≠ trailingKey j := by
  simp only [chargeKey, trailingKey, trailingSparkCharge, trailingSparkFire, ne_eq, Ref.owned.injEq]
  omega

theorem chargeKey_apart : chargeKey i ≠ dwellKey j ∧ chargeKey i ≠ fireKey j := by
  simpa [chargeKey, dwellKey, fireKey] using trailingSparkCharge_apart i j

theorem trailingKey_apart : trailingKey i ≠ dwellKey j ∧ trailingKey i ≠ fireKey j := by
  simpa [trailingKey, dwellKey, fireKey] using trailingSparkFire_apart i j

end Keys

section Executed

variable {first : Appointment} (pending : a.pending = first :: a'.pending)
include pending

/-- An event that is not the firing in question leaves the agenda. -/
theorem Coming.begin (coming : Coming a rest i late) (leading : first.key ≠ fireKey i)
    (fire : first.key ≠ trailingKey i) : Coming a' (calls ++ rest) i late := by
  refine coming.carry (fun asked => asksFor_append.mpr (.inr asked)) fun e member key => ?_
  rcases List.mem_cons.mp (pending ▸ member) with rfl | later
  · rcases key with key | key
    · exact absurd key leading
    · exact absurd key fire
  · exact later

theorem Placed.ran (placed : Placed config s a) (after : s'.calls = calls ++ s.calls)
    (prepared : Prepared config s'.state) (orderly : Orderly calls) (named : Named config s'.state)
    (remembers : Remembers config s.state s'.state) (addressed : AllAddressed config s'.state calls) :
    Placed config s' a' := by
  refine placed.carry (after ▸ orderly.append placed.orderly) prepared named remembers
    (fun e member => .inl (pending ▸ List.mem_cons_of_mem _ member)) ?_
  rw [after]
  exact addressed.append (placed.addressed.mono remembers)

/-- A leading firing is abandoned, or it asks for the next. -/
theorem Trailing.fired (trailing : Trailing config s a)
    (placed : Placed config s' a') (rep : Represents s.executor.queue a)
    (after : s'.calls = calls ++ s.calls)
    (coils : s'.state.trailingCoils = s.state.trailingCoils)
    (key : first.key = fireKey i)
    (exits : asksFor i calls = true ∨ spared config s i false s.calls
      (s.executor.queue.pendingOn (trailingKey i)) = true) : Trailing config s' a' := by
  have own : ∀ e ∈ a'.pending, ∀ i < 12, e.key = chargeKey i → e ∈ a.pending :=
    fun e member _ _ _ => pending ▸ List.mem_cons_of_mem _ member
  have others : ∀ j, j ≠ i → ∀ late, Coming a s.calls j late → Coming a' s'.calls j late := by
    intro j other late coming
    rw [after]
    exact coming.begin pending (key.trans_ne (mt fireKey_inj.mp other.symm))
      (key.trans_ne trailingKey_apart.2.symm)
  rcases exits with asked | safe
  · refine trailing.carry placed coils (fun j _ late coming => ?_) own
    by_cases same : j = i
    · subst same
      exact .inl (after ▸ asksFor_append.mpr (.inl asked))
    · exact others j same late coming
  · refine trailing.spare placed rep coils safe others own (fun no => Bool.noConfusion no)
      (fun asked => after ▸ asksFor_append.mpr (.inr asked)) fun f found => ?_
    rcases List.mem_cons.mp (pending ▸ rep.pendingOn.mp found) with same | later
    · exact absurd ((congrArg Entry.key same).trans key) trailingKey_apart.2
    · exact later

/-- A trailing coil is switched on: its fire was to come. -/
theorem Trailing.lights (trailing : Trailing config s a) (placed : Placed config s' a')
    (after : s'.calls = s.calls) (small : i < 12) (key : first.key = chargeKey i)
    (coils : s'.state.trailingCoils =
      Function.update s.state.trailingCoils (config.getCylinderNumberAtIndex i) true) :
    Trailing config s' a' := by
  have comes : ∀ j late, Coming a s.calls j late → Coming a' s'.calls j late := by
    intro j late coming
    rw [after, ← List.nil_append s.calls]
    exact coming.begin pending (key.trans_ne chargeKey_apart.2) (key.trans_ne chargeKey_ne_trailingKey)
  refine ⟨placed, fun c on => ?_, fun e member j small key => ?_⟩
  · by_cases same : c = config.getCylinderNumberAtIndex i
    · have coming := trailing.charged first (pending ▸ List.mem_cons_self ..) i small key
      exact ⟨i, small, same.symm, comes i _ (coming.mono fun _ _ => trivial)⟩
    · rw [coils, Function.update_of_ne same] at on
      obtain ⟨j, small, number, coming⟩ := trailing.lit c on
      exact ⟨j, small, number, comes j _ coming⟩
  · exact comes j _ (trailing.charged e (pending ▸ List.mem_cons_of_mem _ member) j small key)

/-- A trailing coil is switched off: a charge that is still pending was not to be fired by it. -/
theorem Trailing.dims (trailing : Trailing config s a) (placed : Placed config s' a')
    (after : s'.calls = s.calls) (key : first.key = trailingKey i)
    (coils : s'.state.trailingCoils =
      Function.update s.state.trailingCoils (config.getCylinderNumberAtIndex i) false) :
    Trailing config s' a' := by
  have others : ∀ j, j ≠ i → ∀ late, Coming a s.calls j late → Coming a' s'.calls j late := by
    intro j other late coming
    rw [after, ← List.nil_append s.calls]
    exact coming.begin pending (key.trans_ne trailingKey_apart.2)
      (key.trans_ne (mt trailingKey_inj.mp other.symm))
  refine ⟨placed, fun c on => ?_, fun e member j small charge => ?_⟩
  · by_cases same : c = config.getCylinderNumberAtIndex i
    · rw [coils, same, Function.update_self] at on
      contradiction
    · rw [coils, Function.update_of_ne same] at on
      obtain ⟨j, small, number, coming⟩ := trailing.lit c on
      exact ⟨j, small, number, others j (fun equal => same (equal ▸ number.symm)) _ coming⟩
  · have coming := trailing.charged e (pending ▸ List.mem_cons_of_mem _ member) j small charge
    by_cases same : j = i
    · subst same
      rw [after]
      rcases coming with asked | ⟨f, member', leading⟩ | ⟨f, member', fire, later⟩
      · exact .inl asked
      · rcases List.mem_cons.mp (pending ▸ member') with rfl | still
        · exact absurd (key.symm.trans leading) trailingKey_apart.2
        · exact .inr (.inl ⟨f, still, leading⟩)
      · rcases List.mem_cons.mp (pending ▸ member') with rfl | still
        · have first_le : f.time ≤ e.time :=
            Agenda.head_time_le (by rw [pending]; rfl) (pending ▸ List.mem_cons_of_mem _ member)
          exact absurd later (not_lt.mpr first_le)
        · exact .inr (.inr ⟨f, still, fire, later⟩)
    · exact others j same _ coming

/-- An ignition event runs. -/
theorem Trailing.executed (trailing : Trailing config s a) (rep : Represents s.executor.queue a)
    (enabled : config.enableTrailingSparks = true) (after : s'.calls = calls ++ s.calls)
    (idle : s.inner.calls = []) (own : isIgnition first.payload = true)
    (starting : s.executor.starting = some first.payload)
    (stands : trailingStands config port s (.proceed r) = true)
    (run : runIgnition config port r (s.executor.proceed port).clock first.payload s.state =
      (s'.state, calls)) : Trailing config s' a' := by
  have fits := trailing.fits first (pending ▸ List.mem_cons_self ..)
  obtain ⟨record, key, proper⟩ := fits.inPlace (.inl own)
  have addressed := fits.addressed record proper.small key
  have earlier : ∀ e ∈ a'.pending, ∀ i < 12, e.key = chargeKey i → e ∈ a.pending :=
    fun e member _ _ _ => pending ▸ List.mem_cons_of_mem _ member
  obtain ⟨key', time, payload⟩ := first
  simp only at own run key proper starting addressed
  cases proper with
  | @dwell ctx small =>
    have numbered : Numbered config s.state ctx.eventIndex.toNat := by
      simpa using addressed.numbered
    rw [runIgnition_dwell] at run
    obtain ⟨-, prepared, orderly⟩ := turnSparkPinHigh_spec trailing.prepared small run
    have handled := turnSparkPinHigh_handled trailing.named numbered run
    have placed := trailing.toPlaced.ran pending after prepared orderly handled.named
      handled.remembers handled.addressed
    refine trailing.carry placed handled.trailingCoils (fun i _ late coming => ?_) earlier
    have apart : key' ≠ fireKey i ∧ key' ≠ trailingKey i :=
      ⟨Eq.trans_ne key dwellKey_ne_fireKey, Eq.trans_ne key trailingKey_apart.1.symm⟩
    exact after ▸ coming.begin pending apart.1 apart.2
  | @fire ctx small =>
    have numbered : Numbered config s.state ctx.eventIndex.toNat := by
      simpa using addressed.numbered
    rw [runIgnition_fire] at run
    obtain ⟨-, prepared, orderly⟩ := fireSpark_spec trailing.prepared small run
    obtain ⟨handled, exits⟩ := fireSpark_handled enabled trailing.named numbered run
    have placed := trailing.toPlaced.ran pending after prepared orderly handled.named
      handled.remembers handled.addressed
    refine trailing.fired pending placed rep after handled.trailingCoils key ?_
    rcases exits with abandoned | asked
    · exact .inr (trailingStands_proceed stands idle starting abandoned)
    · exact .inl asked
  | @charge coil element small =>
    obtain ⟨state, rfl⟩ := Prod.mk.inj run
    have number : coil = config.getCylinderNumberAtIndex element := by
      simpa [trailingAction] using addressed.coil (by simp only [trailingSparkCharge]; omega)
    subst number
    have placed := trailing.toPlaced.ran pending after
      (state ▸ ⟨trailing.prepared.queued, trailing.prepared.indexed⟩) .nothing
      (state ▸ ⟨trailing.named.ready, trailing.named.queued⟩) (state ▸ fun _ => id) .nothing
    exact trailing.lights pending placed after small key (state ▸ rfl)
  | @trailing coil element small =>
    obtain ⟨state, rfl⟩ := Prod.mk.inj run
    have number : coil = config.getCylinderNumberAtIndex element := by
      simpa [trailingAction] using addressed.coil (by simp only [trailingSparkFire]; omega)
    subst number
    have placed := trailing.toPlaced.ran pending after
      (state ▸ ⟨trailing.prepared.queued, trailing.prepared.indexed⟩) .nothing
      (state ▸ ⟨trailing.named.ready, trailing.named.queued⟩) (state ▸ fun _ => id) .nothing
    exact trailing.dims pending placed after key (state ▸ rfl)

end Executed

section Called

variable (trailing : Trailing config s a) (rep : Represents s.executor.queue a)
  (state : s'.state = s.state) (after : s'.calls = rest)
include trailing state after

/-- A call that asks for no firing and takes none off. -/
theorem Trailing.aside (next : s.calls = call :: rest) (other : ∀ i, asksFor i [call] = false)
    (own : ∀ e ∈ a'.pending, e ∈ a.pending ∨ Fits config s.state e)
    (stays : ∀ e ∈ a.pending, ∀ i, e.key = fireKey i ∨ e.key = trailingKey i → e ∈ a'.pending)
    (charges : ∀ e ∈ a'.pending, ∀ i < 12, e.key = chargeKey i → e ∈ a.pending ∨
      Coming a' rest i (e.time < ·)) : Trailing config s' a' := by
  have placed := trailing.toPlaced.still state (.inr (by rw [next, after, List.tail_cons])) own
  have comes : ∀ i late, Coming a s.calls i late → Coming a' s'.calls i late := by
    intro i late coming
    refine coming.carry (fun asked => ?_) fun e member key => stays e member i key
    rw [next] at asked
    rcases asksFor_cons.mp asked with first | later
    · rw [other i] at first
      contradiction
    · exact after ▸ later
  refine ⟨placed, fun c on => ?_, fun e member i small key => ?_⟩
  · obtain ⟨i, small, number, coming⟩ := trailing.lit c (state ▸ on)
    exact ⟨i, small, number, comes i _ coming⟩
  · rcases charges e member i small key with before | coming
    · exact comes i _ (trailing.charged e before i small key)
    · exact after ▸ coming

/-- A firing of an element, leading or trailing, is pending now, or what depends on it is spared. -/
theorem Trailing.asked (rep : Represents s.executor.queue a)
    (next : s.calls = .schedule msg (some record) nt action :: rest)
    (own : ∀ e ∈ a'.pending, e ∈ a.pending ∨ Fits config s.state e ∧ ∀ i, e.key ≠ chargeKey i)
    (stays : ∀ e ∈ a.pending, e ∈ a'.pending)
    (others : ∀ j, j ≠ i → record ≠ sparkScheduling j ∧ record ≠ trailingSparkFire j)
    (serves : (∃ e ∈ a'.pending, e.key = fireKey i) ∨
      ∃ fire, spared config s i (s.executor.queue.pendingOn (fireKey i)).isSome rest fire = true ∧
        ∀ f, fire = some f → ⟨trailingKey i, f.1, f.2⟩ ∈ a'.pending) : Trailing config s' a' := by
  have placed := trailing.toPlaced.still state (.inr (by rw [next, after, List.tail_cons]))
    (fun e member => (own e member).imp_right And.left)
  have charges : ∀ e ∈ a'.pending, ∀ i < 12, e.key = chargeKey i → e ∈ a.pending := by
    intro e member i _ key
    rcases own e member with before | ⟨-, other⟩
    · exact before
    · exact absurd key (other i)
  have comes : ∀ j, j ≠ i → ∀ late, Coming a s.calls j late → Coming a' s'.calls j late := by
    intro j other late coming
    refine coming.carry (fun asked => ?_) fun e member _ => stays e member
    rw [next] at asked
    rcases asksFor_cons.mp asked with first | later
    · rcases asksFor_schedule.mp first with same | same
      · exact absurd same (others j other).1
      · exact absurd same (others j other).2
    · exact after ▸ later
  rcases serves with leading | ⟨fire, safe, found⟩
  · refine trailing.carry placed (congrArg SparkState.trailingCoils state) (fun j _ late coming => ?_)
      charges
    by_cases same : j = i
    · subst same
      exact .inr (.inl leading)
    · exact comes j same late coming
  · refine trailing.spare placed rep (congrArg SparkState.trailingCoils state) safe comes charges
      (fun leading => ?_) (fun asked => after ▸ asked) found
    obtain ⟨⟨start, payload⟩, pending⟩ := Option.isSome_iff_exists.mp leading
    exact ⟨_, stays _ (rep.pendingOn.mp pending), rfl⟩

end Called

theorem Orderly.proper (orderly : Orderly (.schedule msg scheduling nt action :: calls)) :
    ∃ record, scheduling = some record ∧ Proper record action := by
  cases orderly with
  | dwell dwells fires mask ordered => exact ⟨_, rfl, dwells⟩
  | fire fires ordered => exact ⟨_, rfl, fires⟩
  | trailing proper apart ordered => exact ⟨_, rfl, proper⟩

/-- The running code makes a request. -/
theorem Trailing.request (trailing : Trailing config s a) (rep : Represents s.executor.queue a)
    (ready : s.ready = true) (stands : trailingStands config port s .call = true)
    (next : s.context.calls = .schedule msg scheduling nt action :: calls)
    (after : s' = { s with executor := s'.executor }.setContext (s.context.record
      (.schedule msg scheduling nt action) (s.executor.grants port scheduling nt action) calls))
    (pending : if s.executor.grants port scheduling nt action = true then
        ∃ r, a.admits scheduling action = some r ∧
          a'.pending = TimedQueue.insert ⟨r, nt, action⟩ a.pending
      else a'.pending = a.pending) : Trailing config s' a' := by
  obtain ⟨state, tail⟩ := Hosted.calls_record next after
  have shape := Hosted.calls_next next
  generalize s.calls.tail = rest at tail shape
  have orderly := trailing.orderly
  rw [shape] at orderly
  obtain ⟨record, rfl, proper⟩ := orderly.proper
  have addressed := trailing.addressed msg record nt action (shape ▸ List.mem_cons_self ..)
  have entered : s.executor.grants port (some record) nt action = true →
      a'.pending = TimedQueue.insert ⟨.owned record, nt, action⟩ a.pending := by
    intro granted
    rw [if_pos granted] at pending
    obtain ⟨r, admitted, pending⟩ := pending
    rwa [Agenda.admits_owned admitted] at pending
  have refused : s.executor.grants port (some record) nt action = false → a'.pending = a.pending := by
    intro no
    simpa [no] using pending
  have stays : ∀ e ∈ a.pending, e ∈ a'.pending := by
    intro e member
    cases granted : s.executor.grants port (some record) nt action with
    | true => exact (mem_insert _ (entered granted) e).mpr (.inr member)
    | false => exact refused granted ▸ member
  have own : ∀ e ∈ a'.pending, e ∈ a.pending ∨ e = ⟨.owned record, nt, action⟩ ∧
      s.executor.grants port (some record) nt action = true := by
    intro e member
    cases granted : s.executor.grants port (some record) nt action with
    | true =>
      rcases (mem_insert _ (entered granted) e).mp member with rfl | before
      · exact .inr ⟨rfl, rfl⟩
      · exact .inl before
    | false => exact .inl (refused granted ▸ member)
  have fits : ∀ e ∈ a'.pending, e ∈ a.pending ∨ Fits config s.state e := by
    intro e member
    rcases own e member with before | ⟨rfl, -⟩
    · exact .inl before
    · exact .inr (.entered proper addressed)
  have fitsApart : (∀ i, Ref.owned record ≠ chargeKey i) → ∀ e ∈ a'.pending,
      e ∈ a.pending ∨ Fits config s.state e ∧ ∀ i, e.key ≠ chargeKey i := by
    intro apart e member
    rcases own e member with before | ⟨rfl, -⟩
    · exact .inl before
    · exact .inr ⟨.entered proper addressed, apart⟩
  cases proper with
  | @dwell ctx small =>
    refine trailing.aside state tail shape (fun i => ?_) fits (fun e member _ _ => stays e member)
      fun e member i _ key => ?_
    · by_contra asked
      rcases asksFor_schedule.mp (Bool.not_eq_false _ ▸ asked) with same | same
      · exact dwellKey_ne_fireKey (congrArg Ref.owned same)
      · exact trailingKey_apart.1 (congrArg Ref.owned same).symm
    · rcases own e member with before | ⟨rfl, -⟩
      · exact .inl before
      · exact absurd key.symm chargeKey_apart.1
  | @fire ctx small =>
    refine trailing.asked (i := ctx.eventIndex.toNat) state tail rep shape
      (fitsApart fun i same => chargeKey_apart.2 same.symm) stays (fun j other => ⟨fun same => ?_,
        fun same => ?_⟩) ?_
    · exact other (fireKey_inj.mp (congrArg Ref.owned same)).symm
    · exact trailingKey_apart.2 (congrArg Ref.owned same).symm
    · cases granted : s.executor.grants port (some (sparkScheduling ctx.eventIndex.toNat)) nt
          (ignitionAction fireSparkCallback ctx) with
      | true => exact .inl ⟨_, (mem_insert _ (entered granted) _).mpr (.inl rfl), rfl⟩
      | false =>
        refine .inr ⟨_, trailingStands_fire ready stands shape granted, fun f found => ?_⟩
        exact stays _ (rep.pendingOn.mp found)
  | @charge coil element small =>
    refine trailing.aside state tail shape (fun i => ?_) fits (fun e member _ _ => stays e member)
      fun e member i _ key => ?_
    · by_contra asked
      rcases asksFor_schedule.mp (Bool.not_eq_false _ ▸ asked) with same | same
      · exact chargeKey_apart.2 (congrArg Ref.owned same)
      · exact chargeKey_ne_trailingKey (congrArg Ref.owned same)
    · rcases own e member with before | ⟨rfl, granted⟩
      · exact .inl before
      · obtain rfl := chargeKey_inj.mp (show chargeKey element = chargeKey i from key)
        refine .inr ?_
        rcases trailingStands_charge ready stands shape granted with leading | asked | ⟨f, found, later⟩
        · obtain ⟨⟨start, payload⟩, pending⟩ := Option.isSome_iff_exists.mp leading
          exact .inr (.inl ⟨_, stays _ (rep.pendingOn.mp pending), rfl⟩)
        · exact .inl asked
        · exact .inr (.inr ⟨_, stays _ (rep.pendingOn.mp found), rfl, later⟩)
  | @trailing coil element small =>
    refine trailing.asked (i := element) state tail rep shape
      (fitsApart fun i same => chargeKey_ne_trailingKey same.symm) stays (fun j other =>
        ⟨fun same => ?_, fun same => ?_⟩) (.inr ⟨_, trailingStands_trailing ready stands shape,
          fun f found => ?_⟩)
    · exact trailingKey_apart.2 (congrArg Ref.owned same)
    · exact other (trailingKey_inj.mp (congrArg Ref.owned same)).symm
    · split at found
      · next granted =>
        obtain rfl := Option.some.inj found
        exact (mem_insert _ (entered granted) _).mpr (.inl rfl)
      · exact stays _ (rep.pendingOn.mp found)

/-- The running code takes a firing off: the next request is for another. -/
theorem Trailing.strike (trailing : Trailing config s a)
    (next : s.context.calls = .cancel owner :: calls)
    (after : s' = { s with executor := s'.executor }.setContext
      (s.context.record (.cancel owner) true calls))
    (pending : a'.pending = erase (.owned owner) a.pending) : Trailing config s' a' := by
  obtain ⟨state, tail⟩ := Hosted.calls_record next after
  have shape := Hosted.calls_next next
  generalize s.calls.tail = rest at tail shape
  have orderly := trailing.orderly
  rw [shape] at orderly
  have earlier : ∀ e ∈ a'.pending, e ∈ a.pending :=
    fun e member => (erase_sublist _ _).subset (pending ▸ member)
  cases orderly with
  | @handOver msg nt action calls' i fires ordered =>
    have placed := trailing.toPlaced.still state (.inr (by rw [shape, tail, List.tail_cons]))
      (fun e member => .inl (earlier e member))
    refine trailing.carry placed (congrArg SparkState.trailingCoils state) (fun j _ late coming => ?_)
      fun e member _ _ _ => earlier e member
    by_cases same : j = i
    · subst same
      rw [tail]
      exact .inl (asksFor_cons.mpr (.inl (asksFor_schedule.mpr (.inl rfl))))
    · refine coming.carry (fun asked => ?_) fun e member key => ?_
      · rw [shape] at asked
        exact tail ▸ (asksFor_cons.mp asked).resolve_left (by simp [asksFor_cancel])
      · rw [pending]
        refine mem_erase_of_ne (fun struck => ?_) member
        rcases key with leading | fire
        · exact same (fireKey_inj.mp (leading.symm.trans struck))
        · exact trailingKey_apart.2 (fire.symm.trans struck)

theorem Trailing.change {event : HostedEvent SparkInput EngineReadings}
    (trailing : Trailing config s a) (enabled : config.enableTrailingSparks = true)
    (rep : Represents s.executor.queue a) (rep' : Represents s'.executor.queue a')
    (enough : 12 < steps) (stands : trailingStands config port s event = true)
    (stepped : s.step (sparkLogic config port) port steps event = some s')
    (change : Hosted.Change (sparkLogic config port) port steps s s' a a' event) :
    Trailing config s' a' := by
  have still : ∀ same : Hosted.Same s s',
      (∀ e ∈ a'.pending, e ∈ a.pending ∨ Fits config s.state e ∧ ∀ i < 12, e.key ≠ chargeKey i) →
      (∀ e ∈ a.pending, ∀ i < 12, e.key = fireKey i ∨ e.key = trailingKey i → e ∈ a'.pending) →
      Trailing config s' a' := by
    intro same own stays
    have calls : s'.calls = s.calls := by
      rw [Hosted.calls, same.inner, same.outer, Hosted.calls]
    have placed := trailing.toPlaced.still same.state (.inl calls)
      fun e member => (own e member).imp_right And.left
    refine trailing.carry placed (congrArg SparkState.trailingCoils same.state)
      (fun i small late coming => coming.carry (fun asked => calls ▸ asked) fun e member key =>
        stays e member i small key) fun e member i small key => ?_
    rcases own e member with before | ⟨-, other⟩
    · exact before
    · exact absurd key (other i small)
  cases change with
  | idle same pending =>
    exact still same (fun e member => .inl (pending ▸ member)) fun e member _ _ _ => pending ▸ member
  | entered same e foreign record pending =>
    refine still same (fun b member => ?_) fun b member _ _ _ =>
      (mem_insert e pending b).mpr (.inr member)
    rcases (mem_insert e pending b).mp member with rfl | member
    · refine .inr ⟨.foreign foreign record, fun i small key => ?_⟩
      have outside := record _ key
      simp only [sparkLogic, trailingSparkCharge, decide_eq_false_iff_not] at outside
      omega
    · exact .inl member
  | struck same owner foreign pending =>
    refine still same (fun e member => .inl ((erase_sublist _ _).subset (pending ▸ member)))
      fun e member i small key => ?_
    rw [pending]
    refine mem_erase_of_ne (fun struck => ?_) member
    have outside : ¬owner < 48 := of_decide_eq_false foreign
    rcases key with leading | fire
    · obtain rfl := Ref.owned.inj (leading.symm.trans struck)
      simp only [sparkScheduling] at outside
      omega
    · obtain rfl := Ref.owned.inj (fire.symm.trans struck)
      simp only [trailingSparkFire] at outside
      omega
  | ran same first foreign pending =>
    refine still same (fun e member => .inl (pending ▸ List.mem_cons_of_mem _ member))
      fun e member i small key => ?_
    rcases List.mem_cons.mp (pending ▸ member) with rfl | member
    · have known : ∃ record < 48, e.key = .owned record := by
        rcases key with leading | fire
        · exact ⟨_, by simp only [sparkScheduling]; omega, leading⟩
        · exact ⟨_, by simp only [trailingSparkFire]; omega, fire⟩
      obtain ⟨_, -, proper⟩ := (trailing.fits e (pending ▸ List.mem_cons_self ..)).inPlace (.inr known)
      have ignition := proper.owned
      rw [show isIgnition e.payload = false from foreign] at ignition
      contradiction
    · exact member
  | handled calls idle handled contexts pending =>
    obtain ⟨innerIdle, outerIdle⟩ := List.append_eq_nil_iff.mp idle
    have requested : s'.calls = calls := by
      rcases contexts with ⟨outer, inner⟩ | ⟨outer, inner⟩
      · simp [Hosted.calls, outer, inner, innerIdle]
      · simp [Hosted.calls, outer, inner, outerIdle]
    obtain ⟨state, calls', handled', -, prepared, orderly⟩ :=
      @handle_spec config port s.state s.executor.clock steps trailing.prepared _ enough
    have spec := handle_handled trailing.prepared trailing.named _ enough handled
    rw [handled, Option.some.injEq, Prod.mk.injEq] at handled'
    obtain ⟨rfl, rfl⟩ := handled'
    have placed := trailing.toPlaced.carry (requested ▸ orderly) prepared spec.named spec.remembers
      (fun e member => .inl (pending ▸ member)) (requested ▸ spec.addressed)
    refine trailing.carry placed spec.trailingCoils (fun i _ late coming => ?_)
      fun e member _ _ _ => pending ▸ member
    rw [idle] at coming
    exact coming.carry (fun asked => Bool.noConfusion asked) fun e member _ => pending ▸ member
  | executed first calls idle own pending executed outer inner =>
    obtain ⟨starting, executor⟩ := Hosted.step_starting rep rep' idle stepped pending
    refine trailing.executed pending rep enabled ?_ idle own starting stands (executor ▸ executed)
    simp only [Hosted.calls, inner, outer, idle, List.nil_append]
  | scheduled calls ready next after pending => exact trailing.request rep ready stands next after pending
  | cancelled calls ready next after pending => exact trailing.strike next after pending

section Runs

variable {s : Hosted SparkState}

/-- Between the calls, a pending charge is followed by a later fire of its coil, or by a leading
firing, a trailing coil that is on is waiting for one of them, and with no ignition event pending
no trailing coil is on. -/
structure TrailingFired (config : EngineConfiguration) (steps : Nat) (s : Hosted SparkState) :
    Prop where
  followed : s.calls = [] → ∀ i < 12, ∀ start charge,
    s.executor.queue.pendingOn (chargeKey i) = some (start, charge) →
    (s.executor.queue.pendingOn (fireKey i)).isSome = true ∨
      ∃ nt fire, s.executor.queue.pendingOn (trailingKey i) = some (nt, fire) ∧ start < nt ∧
        fire.param = charge.param
  waiting : s.calls = [] → ∀ c, s.state.trailingCoils c = true →
    ∃ i < 12, config.getCylinderNumberAtIndex i = c ∧
      ((s.executor.queue.pendingOn (fireKey i)).isSome = true ∨
        ∃ nt fire, s.executor.queue.pendingOn (trailingKey i) = some (nt, fire) ∧ fire.param = c)
  off : s.calls = [] →
    (∀ r ∈ s.executor.queue.walk steps s.executor.queue.head,
      isIgnition (s.executor.queue.memory r).action = false) →
    ∀ c, s.state.trailingCoils c = false

theorem engineOff_trailing (config : EngineConfiguration) (port : Port) (hwStarted : Bool)
    (clock : Tick) :
    Trailing config (engineOff port hwStarted clock) (.fresh port.lateDelay) where
  orderly := .nothing
  prepared := (engineOff_kept config port hwStarted clock).prepared
  named := by
    refine ⟨fun ready => Bool.noConfusion ready, fun l linked e member => ?_⟩
    have nothing : Chain.Linked (engineOff port hwStarted clock).state.triggerScheduler.next none [] :=
      rfl
    rw [Chain.linked_unique linked nothing] at member
    exact absurd member List.not_mem_nil
  fits _ member := absurd member List.not_mem_nil
  addressed := .nothing
  lit c on := Bool.noConfusion on
  charged _ member := absurd member List.not_mem_nil

theorem Coming.idle (coming : Coming a [] i late) (rep : Represents s.executor.queue a) :
    (s.executor.queue.pendingOn (fireKey i)).isSome = true ∨
      ∃ nt fire, s.executor.queue.pendingOn (trailingKey i) = some (nt, fire) ∧ late nt := by
  rcases coming with asked | ⟨⟨key, nt, fire⟩, member, rfl⟩ | ⟨⟨key, nt, fire⟩, member, rfl, later⟩
  · exact Bool.noConfusion asked
  · exact .inl (Option.isSome_iff_exists.mpr ⟨_, rep.pendingOn.mpr member⟩)
  · exact .inr ⟨nt, fire, rep.pendingOn.mpr member, later⟩

/-- What is pending on a trailing record is for the coil of the element's cylinder. -/
theorem Placed.coil (placed : Placed config s a) (rep : Represents s.executor.queue a)
    (small : record < 48) (onCoil : 2 ≤ record % 4)
    (pending : s.executor.queue.pendingOn (.owned record) = some (nt, action)) :
    action.param = config.getCylinderNumberAtIndex (record / 4) :=
  ((placed.fits _ (rep.pendingOn.mp pending)).addressed record small rfl).coil onCoil

theorem Trailing.trailingFired (trailing : Trailing config s a)
    (rep : Represents s.executor.queue a) (enough : a.pending.length < steps) :
    TrailingFired config steps s := by
  have fireCoil : ∀ i < 12, ∀ nt fire,
      s.executor.queue.pendingOn (trailingKey i) = some (nt, fire) →
      fire.param = config.getCylinderNumberAtIndex i := by
    intro i small nt fire pending
    have coil := trailing.toPlaced.coil rep (by simp only [trailingSparkFire]; omega)
      (by simp only [trailingSparkFire]; omega) pending
    rwa [trailingSparkFire_div] at coil
  refine ⟨fun idle i small start charge pending => ?_, fun idle c on => ?_, fun idle finished c => ?_⟩
  · have coming := trailing.charged _ (rep.pendingOn.mp pending) i small rfl
    rw [idle] at coming
    refine (coming.idle rep).imp_right ?_
    rintro ⟨nt, fire, found, later⟩
    have coil := trailing.toPlaced.coil rep (by simp only [trailingSparkCharge]; omega)
      (by simp only [trailingSparkCharge]; omega) pending
    rw [trailingSparkCharge_div] at coil
    exact ⟨nt, fire, found, later, (fireCoil i small nt fire found).trans coil.symm⟩
  · obtain ⟨i, small, number, coming⟩ := trailing.lit c on
    rw [idle] at coming
    refine ⟨i, small, number, (coming.idle rep).imp_right ?_⟩
    rintro ⟨nt, fire, found, -⟩
    exact ⟨nt, fire, found, (fireCoil i small nt fire found).trans number⟩
  · by_contra on
    obtain ⟨i, small, number, coming⟩ := trailing.lit c (Bool.not_eq_false _ ▸ on)
    rw [idle] at coming
    have walked := @EventQueue.walk_eq _ _ steps _ rep.linked (by simpa [Agenda.keys] using enough)
    rw [walked] at finished
    have owned : ∀ record < 48, ∀ nt action,
        s.executor.queue.pendingOn (.owned record) = some (nt, action) → False := by
      intro record known nt action pending
      have member := rep.pendingOn.mp pending
      have foreign := finished _ (List.mem_map_of_mem member)
      rw [(rep.stored _ member).2] at foreign
      obtain ⟨_, -, proper⟩ := (trailing.fits _ member).inPlace (.inr ⟨record, known, rfl⟩)
      rw [proper.owned] at foreign
      contradiction
    rcases coming.idle rep with leading | ⟨nt, fire, found, -⟩
    · obtain ⟨⟨nt, fire⟩, found⟩ := Option.isSome_iff_exists.mp leading
      exact owned _ (by simp only [sparkScheduling]; omega) nt fire found
    · exact owned _ (by simp only [trailingSparkFire]; omega) nt fire found

end Runs

end Invariant

section TwoPlugs

/-- One cylinder with two plugs; the trailing spark is 10 degrees behind. -/
def twoPlugs : EngineConfiguration := { oneCylinder with enableTrailingSparks := true }

def running : EngineReadings := { sparkAt 70 with trailingSparkAngle := 10 }

/-- The engine has just stopped: there is no dwell to prepare the next schedule with. -/
def stopped : EngineReadings := { running with dwellAngle := none, getDwell := none }

/-- The event that is due after a while is executed, and may make a call. -/
def serveAfter (ticks : Nat) (r : EngineReadings) : List (HostedEvent SparkInput EngineReadings) :=
  [.other (.timePasses ticks), .other .onTimerCallback] ++ List.replicate 2 (.proceed r) ++
    [.call, .other .callbackReturns] ++ List.replicate 2 (.proceed r)

def LeftOn (events : List (HostedEvent SparkInput EngineReadings)) : Prop :=
    ∃ s, Machine.run (Hosted.step (sparkLogic twoPlugs quarterTick) quarterTick 50)
        (engineOff quarterTick true 0) events = some s ∧
      s.calls = [] ∧ s.executor.control = [] ∧ s.executor.queue.head = none ∧
      s.state.trailingCoils 0 = true

theorem leftOn_of {events : List (HostedEvent SparkInput EngineReadings)}
    (ran : (Machine.run (Hosted.step (sparkLogic twoPlugs quarterTick) quarterTick 50)
      (engineOff quarterTick true 0) events).any (fun s =>
        decide (s.calls = [] ∧ s.executor.control = [] ∧ s.executor.queue.head = none ∧
          s.state.trailingCoils 0 = true)) = true) : LeftOn events := by
  simpa only [LeftOn, Option.any_eq_true, decide_eq_true_eq] using ran

end TwoPlugs

end FomeFw.Ignition
