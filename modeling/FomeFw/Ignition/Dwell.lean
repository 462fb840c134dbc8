import FomeFw.Ignition.SparkCalls
import Mathlib.Data.Rat.Floor

/-! Whether a coil that is charged is fired. A start of dwell and a charging coil have to be
covered by a firing of an element, pending or still to be requested. A request may be
refused without a word, and a pending firing may be replaced by another one. -/
namespace FomeFw.Ignition
open Timer Trigger TimedQueue

def fireKey (element : Nat) : Ref := .owned (sparkScheduling element)
def dwellKey (element : Nat) : Ref := .owned (dwellStartTimer element)

variable {config : EngineConfiguration} {port : Port} {element i j c : Nat}
  {calls rest : List ExecutorCall} {a a' : Agenda} {coils : Set Nat} {late : Tick → Prop}
  {action : Action} {nt : Tick}

section Records

theorem fireKey_inj : fireKey i = fireKey j ↔ i = j := by
  simp only [fireKey, sparkScheduling, Ref.owned.injEq]
  omega

theorem dwellKey_inj : dwellKey i = dwellKey j ↔ i = j := by
  simp only [dwellKey, dwellStartTimer, Ref.owned.injEq]
  omega

theorem dwellKey_ne_fireKey : dwellKey i ≠ fireKey j := by
  simp only [fireKey, dwellKey, dwellStartTimer, sparkScheduling, ne_eq, Ref.owned.injEq]
  omega

end Records

/-- The calls ask for a firing of the element. -/
def Requested (calls : List ExecutorCall) (element : Nat) (nt : Tick) (action : Action) : Prop :=
  ∃ msg, .schedule msg (some (sparkScheduling element)) nt action ∈ calls

/-- The coils will be fired by an element, at a moment that is late enough. -/
def Covered (a : Agenda) (calls : List ExecutorCall) (element : Nat) (coils : Set Nat)
    (late : Tick → Prop) : Prop :=
  (∃ e ∈ a.pending, e.key = fireKey element ∧ late e.time ∧ coils ⊆ coilsOf e.payload) ∨
    ∃ nt action, Requested calls element nt action ∧ late nt ∧ coils ⊆ coilsOf action

/-- Every coil that is charging is covered. -/
def Charging (a : Agenda) (calls : List ExecutorCall) (coils : Nat → Bool) : Prop :=
  ∀ c, coils c = true → ∃ i < 12, Covered a calls i {c} fun _ => True

/-- Every pending start of dwell is covered. -/
def Dwelling (a : Agenda) (calls : List ExecutorCall) : Prop :=
  ∀ d ∈ a.pending, ∀ i < 12, d.key = dwellKey i → Covered a calls i (coilsOf d.payload) (d.time < ·)

section Covers

theorem Covered.mono {coils' : Set Nat} {late' : Tick → Prop} (covered : Covered a calls i coils late)
    (fewer : coils' ⊆ coils) (weaker : ∀ t, late t → late' t) : Covered a calls i coils' late' := by
  rcases covered with ⟨e, pending, key, later, within⟩ | ⟨nt, action, requested, later, within⟩
  · exact .inl ⟨e, pending, key, weaker _ later, fewer.trans within⟩
  · exact .inr ⟨nt, action, requested, weaker _ later, fewer.trans within⟩

/-- Only firings and requests for them count. -/
theorem Covered.carry (covered : Covered a calls i coils late)
    (fires : ∀ e ∈ a.pending, e.key = fireKey i → e ∈ a'.pending)
    (requests : ∀ nt action, Requested calls i nt action → Requested rest i nt action) :
    Covered a' rest i coils late := by
  rcases covered with ⟨e, pending, key, covers⟩ | ⟨nt, action, requested, covers⟩
  · exact .inl ⟨e, fires e pending key, key, covers⟩
  · exact .inr ⟨nt, action, requests nt action requested, covers⟩

theorem Covered.idle (covered : Covered a [] i coils late) :
    ∃ e ∈ a.pending, e.key = fireKey i ∧ late e.time ∧ coils ⊆ coilsOf e.payload := by
  rcases covered with pending | ⟨nt, action, ⟨msg, member⟩, -⟩
  · exact pending
  · exact absurd member List.not_mem_nil

theorem Requested.append (requested : Requested rest i nt action) :
    Requested (calls ++ rest) i nt action := by
  obtain ⟨msg, member⟩ := requested
  exact ⟨msg, List.mem_append_right _ member⟩

/-- A request is the next one, or a later one. -/
theorem Requested.cons (requested : Requested (call :: calls) i nt action) :
    (∃ msg, call = .schedule msg (some (sparkScheduling i)) nt action) ∨
      Requested calls i nt action := by
  obtain ⟨msg, member⟩ := requested
  rcases List.mem_cons.mp member with same | later
  · exact .inl ⟨msg, same.symm⟩
  · exact .inr ⟨msg, later⟩

theorem mem_insert (e : Appointment) (pending : a'.pending = TimedQueue.insert e a.pending)
    (b : Appointment) : b ∈ a'.pending ↔ b = e ∨ b ∈ a.pending := by
  rw [pending, (insert_perm e a.pending).mem_iff, List.mem_cons]

end Covers

section Condition

def within (mask other : BitVec 12) : Bool := mask &&& other = mask

theorem within_testBit {mask other : BitVec 12} (inside : within mask other = true)
    (bit : mask.toNat.testBit c = true) : other.toNat.testBit c = true := by
  simp only [within, decide_eq_true_eq] at inside
  rw [← inside, BitVec.toNat_and, Nat.testBit_and, Bool.and_eq_true] at bit
  exact bit.2

theorem coil_small {mask : BitVec 12} (bit : mask.toNat.testBit c = true) : c < 12 := by
  by_contra beyond
  have small : mask.toNat < 2 ^ c :=
    mask.isLt.trans_le (Nat.pow_le_pow_right Nat.two_pos (not_lt.mp beyond))
  rw [Nat.testBit_lt_two_pow small] at bit
  contradiction

/-- A firing comes after the start of dwell that is pending for the element, and is for its
coils and for those of an action that are charging. Without a firing there are none. -/
def serves (s : Hosted SparkState) (element : Nat) (action : Action)
    (firing : Option (Tick × Action)) : Bool :=
  ((s.executor.queue.pendingOn (dwellKey element)).all fun dwell => firing.any fun fire =>
    decide (dwell.1 < fire.1) && within (maskOf dwell.2) (maskOf fire.2)) &&
  (List.range 12).all fun c => !(s.state.coils c && (maskOf action).toNat.testBit c) ||
    firing.any fun fire => (maskOf fire.2).toNat.testBit c

def nextRequest : List ExecutorCall → Option (Tick × Action)
  | .schedule _ _ nt action :: _ => some (nt, action)
  | _ => none

/-- The firing behind a start of dwell is for a later moment. Where a firing is refused, the
pending one serves as well, and where a pending one is cancelled, the next one does. -/
def firingStands (port : Port) (s : Hosted SparkState) : HostedEvent SparkInput EngineReadings → Bool
  | .call =>
    !s.ready ||
    match s.calls with
    | .schedule _ (some record) nt action :: calls =>
      let granted := s.executor.grants port (some record) nt action
      let element := record / 4
      if record = dwellStartTimer element then
        !granted || (nextRequest calls).any fun fire => decide (nt < fire.1)
      else if record = sparkScheduling element then
        granted || serves s element action (s.executor.queue.pendingOn (fireKey element))
      else true
    | .cancel record :: calls =>
      (s.executor.queue.pendingOn (.owned record)).all fun fire =>
        serves s (record / 4) fire.2 (nextRequest calls)
    | _ => true
  | _ => true

variable {s s' : Hosted SparkState} {firing : Option (Tick × Action)}

theorem serves_dwell (served : serves s i action firing = true)
    (rep : Represents s.executor.queue a) (pending : d ∈ a.pending) (key : d.key = dwellKey i) :
    ∃ fire, firing = some fire ∧ d.time < fire.1 ∧ coilsOf d.payload ⊆ coilsOf fire.2 := by
  obtain ⟨key', time, payload⟩ := d
  obtain rfl : key' = dwellKey i := key
  simp only [serves, rep.pendingOn.mpr pending, Bool.and_eq_true, Option.all_some,
    Option.any_eq_true, decide_eq_true_eq] at served
  obtain ⟨⟨fire, found, later, inside⟩, -⟩ := served
  exact ⟨fire, found, later, fun c bit => within_testBit inside bit⟩

theorem serves_coil (served : serves s i action firing = true) (charging : s.state.coils c = true)
    (bit : c ∈ coilsOf action) : ∃ fire, firing = some fire ∧ c ∈ coilsOf fire.2 := by
  simp only [serves, Bool.and_eq_true, List.all_eq_true] at served
  have coil := served.2 c (List.mem_range.mpr (coil_small bit))
  rw [show (maskOf action).toNat.testBit c = true from bit, charging] at coil
  simpa [Option.any_eq_true, coilsOf] using coil

variable (ready : s.ready = true) (stands : firingStands port s .call = true)
include ready stands

theorem firingStands_dwell
    (next : s.calls = .schedule msg (some (dwellStartTimer i)) nt action :: calls)
    (granted : s.executor.grants port (some (dwellStartTimer i)) nt action = true) :
    ∃ fire, nextRequest calls = some fire ∧ nt < fire.1 := by
  have element : dwellStartTimer i / 4 = i := by simp only [dwellStartTimer]; omega
  simpa [firingStands, ready, next, element, granted, Option.any_eq_true] using stands

theorem firingStands_fire
    (next : s.calls = .schedule msg (some (sparkScheduling i)) nt action :: calls)
    (refused : s.executor.grants port (some (sparkScheduling i)) nt action = false) :
    serves s i action (s.executor.queue.pendingOn (fireKey i)) = true := by
  have element : sparkScheduling i / 4 = i := by simp only [sparkScheduling]; omega
  have other : sparkScheduling i ≠ dwellStartTimer i := by
    simp only [sparkScheduling, dwellStartTimer]
    omega
  simpa [firingStands, ready, next, element, other, refused] using stands

theorem firingStands_cancel (next : s.calls = .cancel (sparkScheduling i) :: calls)
    (pending : s.executor.queue.pendingOn (fireKey i) = some fire) :
    serves s i fire.2 (nextRequest calls) = true := by
  have element : sparkScheduling i / 4 = i := by simp only [sparkScheduling]; omega
  have key : s.executor.queue.pendingOn (.owned (sparkScheduling i)) = some fire := pending
  simpa [firingStands, ready, next, element, key] using stands

end Condition

section Invariant

variable {s s' : Hosted SparkState} {r : EngineReadings}

/-- An ignition event, or one on a record of the ignition, is on the record it belongs to. -/
def InPlace (e : Appointment) : Prop :=
  (isIgnition e.payload = true ∨ ∃ record < 48, e.key = .owned record) →
    ∃ record, e.key = .owned record ∧ Proper record e.payload

/-- What holds between any two events. -/
structure Kept (config : EngineConfiguration) (s : Hosted SparkState) (a : Agenda) : Prop where
  orderly : Orderly s.calls
  proper : ∀ e ∈ a.pending, InPlace e
  prepared : Prepared config s.state
  charging : Charging a s.calls s.state.coils
  dwelling : Dwelling a s.calls

theorem fireKey_known (small : i < 12) : ∃ record < 48, fireKey i = .owned record :=
  ⟨sparkScheduling i, by simp only [sparkScheduling]; omega, rfl⟩

theorem dwellKey_known (small : i < 12) : ∃ record < 48, dwellKey i = .owned record :=
  ⟨dwellStartTimer i, by simp only [dwellStartTimer]; omega, rfl⟩

/-- As long as firings and requests for them stay, and nothing new starts to charge. -/
theorem Kept.carry (kept : Kept config s a) (orderly : Orderly s'.calls)
    (prepared : Prepared config s'.state) (coils : s'.state.coils = s.state.coils)
    (own : ∀ e ∈ a'.pending, e ∈ a.pending ∨ InPlace e ∧ ∀ i < 12, e.key ≠ dwellKey i)
    (fires : ∀ e ∈ a.pending, ∀ i < 12, e.key = fireKey i → e ∈ a'.pending)
    (requests : ∀ i nt action, Requested s.calls i nt action → Requested s'.calls i nt action) :
    Kept config s' a' where
  orderly := orderly
  prepared := prepared
  proper e member := (own e member).elim (kept.proper e) And.left
  charging c charged := by
    rw [coils] at charged
    obtain ⟨i, small, covered⟩ := kept.charging c charged
    exact ⟨i, small, covered.carry (fun e member => fires e member i small) (requests i)⟩
  dwelling d member i small key := by
    rcases own d member with before | ⟨-, other⟩
    · exact (kept.dwelling d before i small key).carry (fun e member => fires e member i small)
        (requests i)
    · exact absurd key (other i small)

/-- An event of other code. -/
theorem foreign_inPlace (foreign : isIgnition e.payload = false)
    (outside : ∀ record, e.key = .owned record → decide (record < 48) = false) :
    InPlace e ∧ ∀ i < 12, e.key ≠ dwellKey i := by
  have unknown : ¬∃ record < 48, e.key = .owned record := by
    rintro ⟨record, small, key⟩
    simpa [small] using outside record key
  refine ⟨fun known => ?_, fun i small key => ?_⟩
  · rcases known with ignition | known
    · rw [foreign] at ignition
      contradiction
    · exact absurd known unknown
  · obtain ⟨record, known, same⟩ := dwellKey_known small
    exact unknown ⟨record, known, key.trans same⟩

/-- An ignition event leaves the agenda in order to run. -/
theorem Covered.begin (covered : Covered a rest i coils late)
    (pending : a.pending = first :: a'.pending)
    (taken : first.key = fireKey i → late first.time → coils ⊆ coilsOf first.payload →
      Covered a' (calls ++ rest) i coils late) : Covered a' (calls ++ rest) i coils late := by
  rcases covered with ⟨e, member, key, later, inside⟩ | ⟨nt, action, requested, covers⟩
  · rcases List.mem_cons.mp (pending ▸ member) with rfl | member
    · exact taken key later inside
    · exact .inl ⟨e, member, key, later, inside⟩
  · exact .inr ⟨nt, action, requested.append, covers⟩

theorem runIgnition_dwell : runIgnition config port r nowNt
    (ignitionAction turnSparkPinHighCallback ctx) x = x.turnSparkPinHigh config port r nowNt ctx := by
  simp [runIgnition, ignitionAction]

theorem runIgnition_fire : runIgnition config port r nowNt (ignitionAction fireSparkCallback ctx) x =
    x.fireSparkAndPrepareNextSchedule config port r nowNt ctx := by
  simp [runIgnition, ignitionAction]

section Executed

variable (kept : Kept config s a) (pending : a.pending = first :: a'.pending)
  (before : s.calls = rest)
include kept pending before

/-- Whatever runs, no start of dwell that is still pending was to be fired by it. -/
theorem Kept.ran (after : s'.calls = calls ++ rest) (orderly : Orderly calls) (prepared : Prepared config s'.state)
    (charging : Charging a' (calls ++ rest) s'.state.coils) : Kept config s' a' where
  orderly := after ▸ orderly.append (before ▸ kept.orderly)
  prepared := prepared
  proper e member := kept.proper e (pending ▸ List.mem_cons_of_mem _ member)
  charging := after ▸ charging
  dwelling d member i small key := by
    rw [after]
    have covered := kept.dwelling d (pending ▸ List.mem_cons_of_mem _ member) i small key
    rw [before] at covered
    refine covered.begin pending fun _ later _ => ?_
    have first_le : first.time ≤ d.time :=
      Agenda.head_time_le (by rw [pending]; rfl) (pending ▸ List.mem_cons_of_mem _ member)
    exact absurd later (not_lt.mpr first_le)

theorem Kept.keepsCharging (covered : ∀ c i, s'.state.coils c = true → i < 12 →
      first.key = fireKey i → c ∈ coilsOf first.payload → Covered a' (calls ++ rest) i {c} fun _ => True)
    (started : ∀ c, s'.state.coils c = true → s.state.coils c = true ∨
      ∃ i < 12, first.key = dwellKey i ∧ c ∈ coilsOf first.payload) :
    Charging a' (calls ++ rest) s'.state.coils := by
  intro c charged
  rcases started c charged with already | ⟨i, small, key, inside⟩
  · obtain ⟨i, small, before'⟩ := kept.charging c already
    rw [before] at before'
    exact ⟨i, small, before'.begin pending fun key _ inside =>
      covered c i charged small key (inside rfl)⟩
  · have before' := kept.dwelling first (pending ▸ List.mem_cons_self ..) i small key
    rw [before] at before'
    have one : Covered a rest i {c} fun _ => True :=
      before'.mono (Set.singleton_subset_iff.mpr inside) fun _ _ => trivial
    exact ⟨i, small, one.begin pending fun fires _ _ =>
      absurd (key.symm.trans fires) dwellKey_ne_fireKey⟩

/-- An ignition event runs. -/
theorem Kept.executed (after : s'.calls = calls ++ rest) (own : isIgnition first.payload = true)
    (run : runIgnition config port r nowNt first.payload s.state = (s'.state, calls)) :
    Kept config s' a' := by
  obtain ⟨record, key, proper⟩ := kept.proper first (pending ▸ List.mem_cons_self ..) (.inl own)
  obtain ⟨key', time, payload⟩ := first
  simp only at own run key proper
  cases proper with
  | @dwell ctx small =>
    rw [runIgnition_dwell] at run
    obtain ⟨coils, prepared, orderly⟩ := turnSparkPinHigh_spec kept.prepared small run
    refine kept.ran pending before after orderly prepared
      (kept.keepsCharging pending before (fun c i _ _ fires => ?_) fun c charged => ?_)
    · exact absurd (key.symm.trans fires) dwellKey_ne_fireKey
    · rw [coils] at charged
      split at charged
      · next bit => exact .inr ⟨_, small, key, by simpa [coilsOf] using bit⟩
      · exact .inl charged
  | @fire ctx small =>
    rw [runIgnition_fire] at run
    obtain ⟨fired, prepared, orderly⟩ := fireSpark_spec kept.prepared small run
    refine kept.ran pending before after orderly prepared ?_
    cases fired with
    | underdwell mask index coils =>
      refine kept.keepsCharging pending before (fun c i charged _ fires inside => ?_)
        fun c charged => .inl (coils ▸ charged)
      obtain rfl := fireKey_inj.mp (key.symm.trans fires)
      refine .inr ⟨_, _, ⟨_, List.mem_cons_self ..⟩, trivial, Set.singleton_subset_iff.mpr ?_⟩
      simpa [coilsOf, mask] using inside
    | off coils =>
      refine kept.keepsCharging pending before (fun c i charged _ _ inside => ?_) fun c charged => ?_
      · have bit : ctx.outputsMask.toNat.testBit c = true := by simpa [coilsOf] using inside
        rw [coils, if_pos bit] at charged
        contradiction
      · rw [coils] at charged
        split at charged
        · contradiction
        · exact .inl charged
  | @charge coil element small =>
    obtain ⟨state, rfl⟩ := Prod.mk.inj run
    refine kept.ran pending before after .nothing (state ▸ ⟨kept.prepared.queued, kept.prepared.indexed⟩)
      (kept.keepsCharging pending before (fun c i _ _ fires => ?_) fun c charged => .inl ?_)
    · exact absurd (Ref.owned.inj (key.symm.trans fires)) (trailingSparkCharge_apart element i).2
    · rw [← state] at charged
      exact charged
  | @trailing coil element small =>
    obtain ⟨state, rfl⟩ := Prod.mk.inj run
    refine kept.ran pending before after .nothing (state ▸ ⟨kept.prepared.queued, kept.prepared.indexed⟩)
      (kept.keepsCharging pending before (fun c i _ _ fires => ?_) fun c charged => .inl ?_)
    · exact absurd (Ref.owned.inj (key.symm.trans fires)) (trailingSparkFire_apart element i).2
    · rw [← state] at charged
      exact charged

end Executed

section Called

variable (kept : Kept config s a) (state : s'.state = s.state) (after : s'.calls = rest)
include kept state after

/-- A start of dwell is pending now, and its firing is the next request. -/
theorem Kept.dwellGranted {firing : Action}
    (next : s.calls = .schedule msg (some (dwellStartTimer i)) nt action :: rest)
    (shape : rest = .schedule msg' (some (sparkScheduling i)) nt' firing :: calls)
    (pending : a'.pending = TimedQueue.insert ⟨dwellKey i, nt, action⟩ a.pending)
    (dwells : Proper (dwellStartTimer i) action) (later : nt < nt') (mask : maskOf firing = maskOf action) :
    Kept config s' a' := by
  have covers : ∀ j coils late, Covered a s.calls j coils late → Covered a' s'.calls j coils late := by
    intro j coils late covered
    refine covered.carry (fun e member _ => (mem_insert _ pending e).mpr (.inr member))
      fun nt'' action' requested => ?_
    rw [next] at requested
    rcases requested.cons with ⟨msg'', same⟩ | later
    · obtain ⟨-, record, -⟩ := ExecutorCall.schedule.inj same
      exact absurd (congrArg Ref.owned (Option.some.inj record)) dwellKey_ne_fireKey
    · exact after ▸ later
  refine ⟨after ▸ (next ▸ kept.orderly).tail, fun e member => ?_, state ▸ kept.prepared,
    fun c charged => ?_, fun d member j small key => ?_⟩
  · rcases (mem_insert _ pending e).mp member with rfl | member
    · exact fun _ => ⟨_, rfl, dwells⟩
    · exact kept.proper e member
  · obtain ⟨j, small, covered⟩ := kept.charging c (state ▸ charged)
    exact ⟨j, small, covers j _ _ covered⟩
  · rcases (mem_insert _ pending d).mp member with rfl | member
    · obtain rfl := dwellKey_inj.mp key
      refine .inr ⟨nt', firing, ⟨msg', ?_⟩, later, ?_⟩
      · rw [after, shape]
        exact List.mem_cons_self ..
      · simp only [coilsOf, mask, subset_refl]
    · exact covers j _ _ (kept.dwelling d member j small key)

/-- The firing that was requested is pending now. -/
theorem Kept.granted (next : s.calls = .schedule msg (some (sparkScheduling i)) nt action :: rest)
    (pending : a'.pending = TimedQueue.insert ⟨fireKey i, nt, action⟩ a.pending)
    (fires : Proper (sparkScheduling i) action) : Kept config s' a' := by
  have covers : ∀ j coils late, Covered a s.calls j coils late → Covered a' s'.calls j coils late := by
    intro j coils late covered
    rcases covered with ⟨e, member, key, covers⟩ | ⟨nt', action', requested, covers⟩
    · exact .inl ⟨e, (mem_insert _ pending e).mpr (.inr member), key, covers⟩
    · rw [next] at requested
      rcases requested.cons with ⟨msg', same⟩ | later
      · obtain ⟨-, record, rfl, rfl⟩ := ExecutorCall.schedule.inj same
        obtain rfl := fireKey_inj.mp (congrArg Ref.owned (Option.some.inj record))
        exact .inl ⟨_, (mem_insert _ pending _).mpr (.inl rfl), rfl, covers⟩
      · exact .inr ⟨nt', action', after ▸ later, covers⟩
  refine ⟨after ▸ (next ▸ kept.orderly).tail, fun e member => ?_, state ▸ kept.prepared,
    fun c charged => ?_, fun d member j small key => ?_⟩
  · rcases (mem_insert _ pending e).mp member with rfl | member
    · exact fun _ => ⟨_, rfl, fires⟩
    · exact kept.proper e member
  · obtain ⟨j, small, covered⟩ := kept.charging c (state ▸ charged)
    exact ⟨j, small, covers j _ _ covered⟩
  · rcases (mem_insert _ pending d).mp member with rfl | member
    · exact absurd key.symm dwellKey_ne_fireKey
    · exact covers j _ _ (kept.dwelling d member j small key)

/-- The firing that was requested is not entered, or the pending one is taken off: what takes
its place serves as well. -/
theorem Kept.replaced (rep : Represents s.executor.queue a) {firing : Option (Tick × Action)}
    {gone : Action} (orderly : Orderly rest) (own : ∀ e ∈ a'.pending, e ∈ a.pending)
    (served : serves s i gone firing = true)
    (stays : ∀ fire, firing = some fire → ∀ (late : Tick → Prop) coils, late fire.1 →
      coils ⊆ coilsOf fire.2 → Covered a' rest i coils late)
    (covers : ∀ j coils late, Covered a s.calls j coils late → Covered a' rest j coils late ∨
      i = j ∧ coils ⊆ coilsOf gone) : Kept config s' a' := by
  refine ⟨after ▸ orderly, fun e member => kept.proper e (own e member), state ▸ kept.prepared,
    fun c charged => ?_, fun d member j small key => ?_⟩
  · rw [state] at charged
    rw [after]
    obtain ⟨j, small, covered⟩ := kept.charging c charged
    rcases covers j _ _ covered with covered | ⟨rfl, inside⟩
    · exact ⟨j, small, covered⟩
    · obtain ⟨fire, found, bit⟩ := serves_coil served charged (inside rfl)
      exact ⟨i, small, stays fire found _ _ trivial (Set.singleton_subset_iff.mpr bit)⟩
  · rw [after]
    rcases covers j _ _ (kept.dwelling d (own d member) j small key) with covered | ⟨rfl, -⟩
    · exact covered
    · obtain ⟨fire, found, later, inside⟩ := serves_dwell served rep (own d member) key
      exact stays fire found _ _ later inside

theorem Kept.refused (rep : Represents s.executor.queue a)
    (next : s.calls = .schedule msg (some (sparkScheduling i)) nt action :: rest)
    (pending : a'.pending = a.pending)
    (served : serves s i action (s.executor.queue.pendingOn (fireKey i)) = true) :
    Kept config s' a' := by
  refine kept.replaced state after rep (next ▸ kept.orderly).tail (fun e member => by rwa [pending] at member)
    served (fun fire found late coils later inside => ?_) fun j coils late covered => ?_
  · refine .inl ⟨⟨fireKey i, fire.1, fire.2⟩, ?_, rfl, later, inside⟩
    rw [pending]
    exact rep.pendingOn.mp found
  · rcases covered with ⟨e, member, covers⟩ | ⟨nt', action', requested, later, inside⟩
    · exact .inl (.inl ⟨e, by rwa [pending], covers⟩)
    · rw [next] at requested
      rcases requested.cons with ⟨msg', same⟩ | after
      · obtain ⟨-, record, rfl, rfl⟩ := ExecutorCall.schedule.inj same
        exact .inr ⟨fireKey_inj.mp (congrArg Ref.owned (Option.some.inj record)), inside⟩
      · exact .inl (.inr ⟨nt', action', after, later, inside⟩)

theorem Kept.cancelled (rep : Represents s.executor.queue a) {fire : Tick × Action}
    (next : s.calls = .cancel (sparkScheduling i) :: rest)
    (pending : a'.pending = erase (fireKey i) a.pending)
    (before : s.executor.queue.pendingOn (fireKey i) = some fire)
    (served : serves s i fire.2 (nextRequest rest) = true)
    (shape : rest = .schedule msg (some (sparkScheduling i)) nt action :: calls) :
    Kept config s' a' := by
  refine kept.replaced state after rep (next ▸ kept.orderly).tail
    (fun e member => (erase_sublist _ _).subset (pending ▸ member)) served
    (fun fire found late coils later inside => ?_) fun j coils late covered => ?_
  · rw [shape] at found
    obtain rfl := Option.some.inj found
    exact .inr ⟨nt, action, ⟨msg, shape ▸ List.mem_cons_self ..⟩, later, inside⟩
  · rcases covered with ⟨e, member, key, later, inside⟩ | ⟨nt', action', requested, covers⟩
    · by_cases same : e.key = fireKey i
      · obtain ⟨key', time, payload⟩ := e
        obtain rfl : key' = fireKey i := same
        rw [rep.pendingOn.mpr member, Option.some.injEq] at before
        subst before
        exact .inr ⟨fireKey_inj.mp key, inside⟩
      · exact .inl (.inl ⟨e, pending ▸ mem_erase_of_ne same member, key, later, inside⟩)
    · rw [next] at requested
      rcases requested.cons with ⟨msg', same⟩ | later
      · cases same
      · exact .inl (.inr ⟨nt', action', later, covers⟩)

/-- A call that neither is nor takes off a firing, and starts no dwell. -/
theorem Kept.aside (call : ExecutorCall) (next : s.calls = call :: rest)
    (other : ∀ msg i nt action, call ≠ .schedule msg (some (sparkScheduling i)) nt action)
    (own : ∀ e ∈ a'.pending, e ∈ a.pending ∨ InPlace e ∧ ∀ i < 12, e.key ≠ dwellKey i)
    (fires : ∀ e ∈ a.pending, ∀ i < 12, e.key = fireKey i → e ∈ a'.pending) : Kept config s' a' := by
  refine kept.carry (after ▸ (next ▸ kept.orderly).tail) (state ▸ kept.prepared)
    (congrArg SparkState.coils state) own fires fun i nt action requested => ?_
  rw [next] at requested
  rcases requested.cons with ⟨msg, same⟩ | later
  · exact absurd same (other msg i nt action)
  · exact after ▸ later

end Called

/-- The running code makes a request. -/
theorem Kept.request (kept : Kept config s a) (rep : Represents s.executor.queue a)
    (ready : s.ready = true) (stands : firingStands port s .call = true)
    (next : s.context.calls = .schedule msg scheduling nt action :: calls)
    (after : s' = { s with executor := s'.executor }.setContext (s.context.record
      (.schedule msg scheduling nt action) (s.executor.grants port scheduling nt action) calls))
    (pending : if s.executor.grants port scheduling nt action = true then
        ∃ r, a.admits scheduling action = some r ∧
          a'.pending = TimedQueue.insert ⟨r, nt, action⟩ a.pending
      else a'.pending = a.pending) : Kept config s' a' := by
  obtain ⟨state, tail⟩ := Hosted.calls_record next after
  have shape := Hosted.calls_next next
  generalize s.calls.tail = rest at tail shape
  have orderly := kept.orderly
  rw [shape] at orderly
  have entered : ∀ record, scheduling = some record →
      s.executor.grants port scheduling nt action = true →
      a'.pending = TimedQueue.insert ⟨.owned record, nt, action⟩ a.pending := by
    rintro record rfl granted
    rw [if_pos granted] at pending
    obtain ⟨r, admitted, pending⟩ := pending
    rwa [Agenda.admits_owned admitted] at pending
  have refused : s.executor.grants port scheduling nt action = false → a'.pending = a.pending := by
    intro no
    simpa [no] using pending
  cases orderly with
  | @dwell _ action' _ _ msg' nt' calls' i dwells fires mask ordered =>
    cases granted : s.executor.grants port (some (dwellStartTimer i)) nt action with
    | true =>
      obtain ⟨fire, found, later⟩ := firingStands_dwell ready stands shape granted
      obtain rfl := Option.some.inj found
      exact kept.dwellGranted state tail shape rfl (entered _ rfl granted) dwells later mask
    | false =>
      have same := refused granted
      refine kept.aside state tail _ shape (fun msg j nt action call => ?_)
        (fun e member => .inl (same ▸ member)) (fun e member _ _ _ => same ▸ member)
      obtain ⟨-, record, -⟩ := ExecutorCall.schedule.inj call
      exact dwellKey_ne_fireKey (congrArg Ref.owned (Option.some.inj record))
  | @fire _ _ _ calls' i fires ordered =>
    cases granted : s.executor.grants port (some (sparkScheduling i)) nt action with
    | true => exact kept.granted state tail shape (entered _ rfl granted) fires
    | false =>
      exact kept.refused state tail rep shape (refused granted)
        (firingStands_fire ready stands shape granted)
  | @trailing _ msg nt calls' record proper apart ordered =>
    have other : ∀ msg' i nt' action', ExecutorCall.schedule msg (some record) nt action ≠
        .schedule msg' (some (sparkScheduling i)) nt' action' := by
      intro msg' i nt' action' call
      obtain ⟨-, same, -⟩ := ExecutorCall.schedule.inj call
      exact (apart i).2 (Option.some.inj same)
    cases granted : s.executor.grants port (some record) nt action with
    | true =>
      have grown := entered _ rfl granted
      refine kept.aside state tail _ shape other (fun e member => ?_)
        fun e member _ _ _ => (mem_insert _ grown e).mpr (.inr member)
      rcases (mem_insert _ grown e).mp member with rfl | member
      · exact .inr ⟨fun _ => ⟨_, rfl, proper⟩, fun i _ key => (apart i).1 (Ref.owned.inj key)⟩
      · exact .inl member
    | false =>
      have same := refused granted
      exact kept.aside state tail _ shape other (fun e member => .inl (same ▸ member))
        fun e member _ _ _ => same ▸ member

/-- The running code takes a firing off, which the next request replaces. -/
theorem Kept.strike (kept : Kept config s a) (rep : Represents s.executor.queue a)
    (ready : s.ready = true) (stands : firingStands port s .call = true)
    (next : s.context.calls = .cancel owner :: calls)
    (after : s' = { s with executor := s'.executor }.setContext
      (s.context.record (.cancel owner) true calls))
    (pending : a'.pending = erase (.owned owner) a.pending) : Kept config s' a' := by
  obtain ⟨state, tail⟩ := Hosted.calls_record next after
  have shape := Hosted.calls_next next
  generalize s.calls.tail = rest at tail shape
  have orderly := kept.orderly
  rw [shape] at orderly
  cases orderly with
  | @handOver _ _ _ calls' i fires ordered =>
    cases before : s.executor.queue.pendingOn (fireKey i) with
    | some fire =>
      exact kept.cancelled state tail rep shape pending before
        (firingStands_cancel ready stands shape before) rfl
    | none =>
      have same : a'.pending = a.pending :=
        pending.trans (erase_of_notMem (rep.pendingOn_none before))
      exact kept.aside state tail _ shape (fun _ _ _ _ call => ExecutorCall.noConfusion call)
        (fun e member => .inl (same ▸ member)) fun e member _ _ _ => same ▸ member

theorem Kept.change {event : HostedEvent SparkInput EngineReadings} (kept : Kept config s a)
    (rep : Represents s.executor.queue a) (enough : 12 < steps)
    (stands : firingStands port s event = true)
    (change : Hosted.Change (sparkLogic config port) port steps s s' a a' event) :
    Kept config s' a' := by
  have unchanged : ∀ same : Hosted.Same s s', s'.calls = s.calls := fun same => by
    rw [Hosted.calls, same.inner, same.outer, Hosted.calls]
  have still : ∀ same : Hosted.Same s s',
      (∀ e ∈ a'.pending, e ∈ a.pending ∨ InPlace e ∧ ∀ i < 12, e.key ≠ dwellKey i) →
      (∀ e ∈ a.pending, ∀ i < 12, e.key = fireKey i → e ∈ a'.pending) → Kept config s' a' := by
    intro same own fires
    have calls := unchanged same
    exact kept.carry (calls ▸ kept.orderly) (same.state ▸ kept.prepared)
      (congrArg SparkState.coils same.state) own fires fun i nt action requested => calls ▸ requested
  cases change with
  | idle same pending =>
    exact still same (fun e member => .inl (pending ▸ member)) fun e member _ _ _ => pending ▸ member
  | entered same e foreign record pending =>
    refine still same (fun b member => ?_) fun b member _ _ _ =>
      (mem_insert e pending b).mpr (.inr member)
    rcases (mem_insert e pending b).mp member with rfl | member
    · exact .inr (foreign_inPlace foreign record)
    · exact .inl member
  | struck same owner foreign pending =>
    refine still same (fun e member => .inl ((erase_sublist _ _).subset (pending ▸ member)))
      fun e member i small key => ?_
    rw [pending]
    refine mem_erase_of_ne (fun struck => ?_) member
    obtain ⟨record, known, owned⟩ := fireKey_known small
    obtain rfl := Ref.owned.inj (owned.symm.trans (key.symm.trans struck))
    exact absurd known (by simpa [sparkLogic] using foreign)
  | ran same first foreign pending =>
    refine still same (fun e member => .inl (pending ▸ List.mem_cons_of_mem _ member))
      fun e member i small key => ?_
    rcases List.mem_cons.mp (pending ▸ member) with rfl | member
    · obtain ⟨record, known, owned⟩ := fireKey_known small
      obtain ⟨_, -, proper⟩ := kept.proper e (pending ▸ List.mem_cons_self ..)
        (.inr ⟨record, known, key.trans owned⟩)
      have ignition := proper.owned
      rw [show isIgnition e.payload = false from foreign] at ignition
      contradiction
    · exact member
  | handled calls idle handled contexts pending =>
    obtain ⟨innerIdle, outerIdle⟩ := List.append_eq_nil_iff.mp idle
    have requested : s'.calls = calls := by
      rcases contexts with ⟨outer, inner⟩ | ⟨outer, inner⟩
      · simp [Hosted.calls, outer, inner, innerIdle]
      · simp [Hosted.calls, outer, inner, outerIdle]
    obtain ⟨state, calls', handled', coils, prepared, orderly⟩ :=
      @handle_spec config port s.state s.executor.clock steps kept.prepared _ enough
    rw [handled, Option.some.injEq, Prod.mk.injEq] at handled'
    obtain ⟨rfl, rfl⟩ := handled'
    refine kept.carry (requested ▸ orderly) prepared coils (fun e member => .inl (pending ▸ member))
      (fun e member _ _ _ => pending ▸ member) fun i nt action none => ?_
    rw [idle] at none
    obtain ⟨msg, member⟩ := none
    exact absurd member List.not_mem_nil
  | executed first calls idle own pending executed outer inner =>
    refine kept.executed pending rfl ?_ own executed
    simp only [Hosted.calls, inner, outer, idle, List.nil_append]
  | scheduled calls ready next after pending => exact kept.request rep ready stands next after pending
  | cancelled calls ready next after pending => exact kept.strike rep ready stands next after pending

end Invariant

section Runs

variable {s : Hosted SparkState}

/-- Between the calls, a pending start of dwell is followed by the firing of its coils, and with
no ignition event pending no coil is charging. -/
structure NeverLeftCharging (steps : Nat) (s : Hosted SparkState) : Prop where
  followed : s.calls = [] → ∀ i < 12, ∀ start dwell,
    s.executor.queue.pendingOn (dwellKey i) = some (start, dwell) →
    ∃ nt fire, s.executor.queue.pendingOn (fireKey i) = some (nt, fire) ∧ start < nt ∧
      coilsOf dwell ⊆ coilsOf fire
  off : s.calls = [] →
    (∀ r ∈ s.executor.queue.walk steps s.executor.queue.head,
      isIgnition (s.executor.queue.memory r).action = false) →
    ∀ c, s.state.coils c = false

def engineOff (port : Port) (hwStarted : Bool) (clock : Tick) : Hosted SparkState where
  executor := .construct port hwStarted clock
  state := {}

theorem engineOff_kept (config : EngineConfiguration) (port : Port) (hwStarted : Bool) (clock : Tick) :
    Kept config (engineOff port hwStarted clock) (.fresh port.lateDelay) where
  orderly := .nothing
  proper _ member := absurd member List.not_mem_nil
  prepared := ⟨⟨[], rfl, by simp⟩, fun ready => Bool.noConfusion ready⟩
  charging c charged := Bool.noConfusion charged
  dwelling _ member := absurd member List.not_mem_nil

theorem Kept.neverLeftCharging (kept : Kept config s a) (rep : Represents s.executor.queue a)
    (enough : a.pending.length < steps) : NeverLeftCharging steps s where
  followed idle i small start dwell pending := by
    have covered := kept.dwelling _ (rep.pendingOn.mp pending) i small rfl
    rw [idle] at covered
    obtain ⟨⟨key, nt, fire⟩, member, rfl, later, inside⟩ := covered.idle
    exact ⟨nt, fire, rep.pendingOn.mpr member, later, inside⟩
  off idle finished c := by
    by_contra charged
    obtain ⟨i, small, covered⟩ := kept.charging c (Bool.not_eq_false _ ▸ charged)
    rw [idle] at covered
    obtain ⟨e, member, key, -⟩ := covered.idle
    have walked := @EventQueue.walk_eq _ _ steps _ rep.linked (by simpa [Agenda.keys] using enough)
    rw [walked] at finished
    have foreign := finished e.key (List.mem_map_of_mem member)
    rw [(rep.stored e member).2] at foreign
    obtain ⟨record, known, owned⟩ := fireKey_known small
    obtain ⟨_, -, proper⟩ := kept.proper e member (.inr ⟨record, known, key.trans owned⟩)
    rw [proper.owned] at foreign
    contradiction

end Runs

section OneCylinder

def oneCylinder : EngineConfiguration where
  cylindersCount := 1
  small := by decide
  getCylinderNumberAtIndex := id
  enableTrailingSparks := false

def quarterTick : Port := ⟨4, Port.four_positive⟩

/-- Two milliseconds of dwell, which are 20 degrees, and a spark at an angle. -/
def sparkAt (angle : Angle) : EngineReadings where
  oneDegreeUs := 100
  engineCycle := 720
  phaseOffset := 0
  dwellAngle := some 20
  getDwell := some 2
  calculateSparkAngle := fun _ => angle
  timingKnown := true
  currentIgnitionMode := .individualCoils
  useOddFireWastedSpark := false
  multisparkCount := 0
  multisparkDelay := 0
  multisparkDwell := 0
  trailingSparkAngle := 0

def firstTooth : EnginePhase where
  timestamp := 0
  currentTrgPhase := 0
  nextTrgPhase := 90
  engineCycle := 720
  currentEngPhase := 0
  nextEngPhase := 90

/-- The schedule is prepared for a spark at 70 degrees, and the tooth finds another angle. -/
def sparkOnTooth (angle : Angle) : List (HostedEvent SparkInput EngineReadings) :=
  let rest := List.replicate 2 (.proceed (sparkAt angle))
  [.handle (.prepareIgnitionSchedule (sparkAt 70)),
    .handle (.onTriggerEventSparkLogic true false false 0 firstTooth (sparkAt angle)), .call] ++
    rest ++ [.call] ++ rest

/-- Time passes, and the event that is due then is executed. -/
def executeAfter (ticks : Nat) : List (HostedEvent SparkInput EngineReadings) :=
  let rest := List.replicate 2 (.proceed (sparkAt 70))
  [.other (.timePasses ticks), .other .onTimerCallback] ++ rest ++ [.other .callbackReturns] ++ rest

end OneCylinder

end FomeFw.Ignition
