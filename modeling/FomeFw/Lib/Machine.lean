/-! Deterministic machines that take one event after the other and may get stuck.
A run is the fold of the step function; invariants of steps become invariants of
runs here, once. -/
namespace FomeFw.Machine

variable {C E : Type} {step : C → E → Option C} {c c' : C} {events : List E}

def run (step : C → E → Option C) (c : C) (events : List E) : Option C :=
  events.foldlM step c

@[simp] theorem run_nil : run step c [] = some c := rfl

@[simp] theorem run_cons :
    run step c (e :: events) = (step c e).bind (fun c' => run step c' events) := rfl

/-- When every step spends one unit of a budget, is possible and keeps the
invariant, so do whole runs the budget pays for. -/
theorem run_enabled {Inv : Nat → C → Prop}
    (progress : ∀ n c e, Inv (n + 1) c → ∃ c', step c e = some c' ∧ Inv n c')
    (start : Inv (n + events.length) c) : ∃ c', run step c events = some c' ∧ Inv n c' := by
  induction events generalizing c with
  | nil => exact ⟨c, rfl, start⟩
  | cons e events ih =>
    obtain ⟨c₁, taken, inv⟩ := progress _ c e start
    obtain ⟨c', rest, inv'⟩ := ih inv
    exact ⟨c', by rw [run_cons, taken]; exact rest, inv'⟩

/-- When every step is possible where an invariant holds, and keeps it, so do whole runs. -/
theorem run_of_keeps {P : C → Prop} (keeps : ∀ c e, P c → ∃ c', step c e = some c' ∧ P c')
    (start : P c) : ∃ c', run step c events = some c' ∧ P c' :=
  @run_enabled _ _ step _ _ 0 (fun _ => P) (fun _ c e => keeps c e) start

/-- What every possible step keeps, holds after a run. -/
theorem run_invariant {P : C → Prop} (keeps : ∀ c e c', P c → step c e = some c' → P c')
    (start : P c) (ran : run step c events = some c') : P c' := by
  induction events generalizing c with
  | nil =>
    obtain rfl := Option.some.inj ran
    exact start
  | cons e events ih =>
    obtain ⟨c₁, taken, rest⟩ := Option.bind_eq_some_iff.mp ran
    exact ih (keeps c e c₁ start taken) rest

/-- Every step of a run meets a condition on the state before it. -/
def Supervised (step : C → E → Option C) (Guard : C → E → Prop) (c : C) : List E → Prop
  | [] => True
  | e :: events => Guard c e ∧ ∀ c', step c e = some c' → Supervised step Guard c' events

instance Supervised.decidable {Guard : C → E → Prop} [∀ c e, Decidable (Guard c e)] :
    (c : C) → (events : List E) → Decidable (Supervised step Guard c events)
  | _, [] => isTrue trivial
  | c, e :: events =>
    match taken : step c e with
    | none => decidable_of_iff (Guard c e) (by simp [Supervised, taken])
    | some c' =>
      have : Decidable (Supervised step Guard c' events) := Supervised.decidable c' events
      decidable_of_iff (Guard c e ∧ Supervised step Guard c' events) (by simp [Supervised, taken])

/-- The same for runs whose steps meet a condition. -/
theorem run_supervised {Guard : C → E → Prop} {Inv : Nat → C → Prop}
    (progress : ∀ n c e, Guard c e → Inv (n + 1) c → ∃ c', step c e = some c' ∧ Inv n c')
    (start : Inv (n + events.length) c) (supervised : Supervised step Guard c events) :
    ∃ c', run step c events = some c' ∧ Inv n c' := by
  induction events generalizing c with
  | nil => exact ⟨c, rfl, start⟩
  | cons e events ih =>
    obtain ⟨guard, rest⟩ := supervised
    obtain ⟨c₁, taken, inv⟩ := progress _ c e guard start
    obtain ⟨c', ran, inv'⟩ := ih inv (rest c₁ taken)
    exact ⟨c', by rw [run_cons, taken]; exact ran, inv'⟩

/-- What the steps that meet the condition keep when they are possible, holds after a run. -/
theorem Supervised.invariant {Guard : C → E → Prop} {Inv : C → Prop}
    (keeps : ∀ c e c', Guard c e → Inv c → step c e = some c' → Inv c')
    (start : Inv c) (supervised : Supervised step Guard c events) (ran : run step c events = some c') :
    Inv c' := by
  induction events generalizing c with
  | nil =>
    obtain rfl := Option.some.inj ran
    exact start
  | cons e events ih =>
    obtain ⟨guard, rest⟩ := supervised
    obtain ⟨c₁, taken, ran⟩ := Option.bind_eq_some_iff.mp ran
    exact ih (keeps c e c₁ guard start taken) (rest c₁ taken) ran

/-- A condition that another one implies wherever an invariant holds, which the other keeps. -/
theorem Supervised.imp {Guard Guard' : C → E → Prop} {Inv : C → Prop}
    (implies : ∀ c e, Guard c e → Inv c → Guard' c e)
    (keeps : ∀ c e c', Guard c e → Inv c → step c e = some c' → Inv c')
    (start : Inv c) (supervised : Supervised step Guard c events) :
    Supervised step Guard' c events := by
  induction events generalizing c with
  | nil => trivial
  | cons e events ih =>
    obtain ⟨guard, rest⟩ := supervised
    refine ⟨implies c e guard start, ?_⟩
    exact fun c' taken => ih (keeps c e c' guard start taken) (rest c' taken)

theorem Supervised.last {Guard : C → E → Prop}
    (supervised : Supervised step Guard c (events ++ [e])) (ran : run step c events = some c') :
    Guard c' e := by
  induction events generalizing c with
  | nil =>
    obtain rfl := Option.some.inj ran
    exact supervised.1
  | cons first events ih =>
    obtain ⟨c₁, taken, ran⟩ := Option.bind_eq_some_iff.mp ran
    exact ih (supervised.2 c₁ taken) ran

/-- A run goes on to its end, and a property holds at its start and after each step. -/
def Along (step : C → E → Option C) (P : C → Prop) (c : C) : List E → Prop
  | [] => P c
  | e :: events => P c ∧ ∃ c', step c e = some c' ∧ Along step P c' events

theorem Along.start {P : C → Prop} (along : Along step P c events) : P c := by
  cases events with
  | nil => exact along
  | cons e events => exact along.1

/-- Where every step is possible and keeps an invariant, what the invariant says holds all along
every run. -/
theorem along_of_keeps {P Inv : C → Prop} (holds : ∀ c, Inv c → P c)
    (keeps : ∀ c e, Inv c → ∃ c', step c e = some c' ∧ Inv c') (start : Inv c) :
    Along step P c events := by
  induction events generalizing c with
  | nil => exact holds c start
  | cons e events ih =>
    obtain ⟨c', taken, inv⟩ := keeps c e start
    exact ⟨holds c start, c', taken, ih inv⟩

/-- Where steps that meet the condition go on within a budget and keep a property, so do runs
of such steps. -/
theorem Supervised.along {P : C → Prop} {Guard : C → E → Prop} {Inv : Nat → C → Prop}
    (holds : ∀ n c, Inv n c → P c)
    (progress : ∀ n c e, Guard c e → Inv (n + 1) c → ∃ c', step c e = some c' ∧ Inv n c')
    (start : Inv events.length c) (supervised : Supervised step Guard c events) :
    Along step P c events := by
  induction events generalizing c with
  | nil => exact holds 0 c start
  | cons e events ih =>
    obtain ⟨guard, rest⟩ := supervised
    obtain ⟨c', taken, inv⟩ := progress _ c e guard start
    exact ⟨holds _ c start, c', taken, ih inv (rest c' taken)⟩

/-- Where the condition is moreover just what one step needs to keep the property, a run keeps
it when all its steps meet the condition, and only then. -/
theorem along_iff_supervised {P : C → Prop} {Guard : C → E → Prop} {Inv : Nat → C → Prop}
    (holds : ∀ n c, Inv n c → P c)
    (progress : ∀ n c e, Guard c e → Inv (n + 1) c → ∃ c', step c e = some c' ∧ Inv n c')
    (needs : ∀ n c e c', Inv (n + 1) c → step c e = some c' → P c' → Guard c e)
    (start : Inv events.length c) : Along step P c events ↔ Supervised step Guard c events := by
  refine ⟨fun along => ?_, fun supervised => supervised.along holds progress start⟩
  induction events generalizing c with
  | nil => trivial
  | cons e events ih =>
    obtain ⟨-, c₁, taken, rest⟩ := along
    have guard := needs _ c e c₁ start taken rest.start
    refine ⟨guard, ?_⟩
    intro c' same
    obtain rfl := Option.some.inj (taken.symm.trans same)
    obtain ⟨c₂, again, inv⟩ := progress _ c e guard start
    obtain rfl := Option.some.inj (taken.symm.trans again)
    exact ih inv rest

section Total

variable {step : C → E → C} {Guard : C → E → Prop} {Inv : C → Prop}

/-- Every step of a run of a machine that never gets stuck meets a condition on the state
before it. -/
def Guarded (step : C → E → C) (Guard : C → E → Prop) (c : C) : List E → Prop
  | [] => True
  | e :: events => Guard c e ∧ Guarded step Guard (step c e) events

instance Guarded.decidable [∀ c e, Decidable (Guard c e)] :
    (c : C) → (events : List E) → Decidable (Guarded step Guard c events)
  | _, [] => isTrue trivial
  | c, e :: events =>
    have : Decidable (Guarded step Guard (step c e) events) := Guarded.decidable (step c e) events
    inferInstanceAs (Decidable (Guard c e ∧ Guarded step Guard (step c e) events))

theorem guarded_of_all (all : ∀ c e, Guard c e) : Guarded step Guard c events := by
  induction events generalizing c with
  | nil => trivial
  | cons e events ih => exact ⟨all c e, ih⟩

/-- What the steps that meet the condition keep, holds after a run of such steps. -/
theorem Guarded.invariant (keeps : ∀ c e, Guard c e → Inv c → Inv (step c e)) (start : Inv c)
    (guarded : Guarded step Guard c events) : Inv (events.foldl step c) := by
  induction events generalizing c with
  | nil => exact start
  | cons e events ih => exact ih (keeps c e guarded.1 start) guarded.2

/-- Two conditions that agree wherever an invariant holds, which the second keeps. -/
theorem Guarded.iff_of_invariant {Guard' : C → E → Prop}
    (same : ∀ c e, Inv c → (Guard c e ↔ Guard' c e))
    (keeps : ∀ c e, Guard' c e → Inv c → Inv (step c e)) (start : Inv c) :
    Guarded step Guard c events ↔ Guarded step Guard' c events := by
  induction events generalizing c with
  | nil => exact Iff.rfl
  | cons e events ih =>
    simp only [Guarded, same c e start]
    exact and_congr_right fun guard => ih (keeps c e guard start)

/-- A condition that another one implies wherever an invariant holds, which the other keeps. -/
theorem Guarded.imp {Guard' : C → E → Prop} (implies : ∀ c e, Guard c e → Inv c → Guard' c e)
    (keeps : ∀ c e, Guard c e → Inv c → Inv (step c e)) (start : Inv c)
    (guarded : Guarded step Guard c events) : Guarded step Guard' c events := by
  induction events generalizing c with
  | nil => trivial
  | cons e events ih =>
    constructor
    · exact implies c e guarded.1 start
    · exact ih (keeps c e guarded.1 start) guarded.2

/-- A property holds at the start of a run and after each of its steps. -/
def Always (step : C → E → C) (P : C → Prop) (c : C) : List E → Prop
  | [] => P c
  | e :: events => P c ∧ Always step P (step c e) events

theorem Always.start {P : C → Prop} (always : Always step P c events) : P c := by
  cases events with
  | nil => exact always
  | cons e events => exact always.1

theorem Always.final {P : C → Prop} (always : Always step P c events) : P (events.foldl step c) := by
  induction events generalizing c with
  | nil => exact always
  | cons e events ih => exact ih always.2

theorem Always.mono {P Q : C → Prop} (weaker : ∀ c, P c → Q c) (always : Always step P c events) :
    Always step Q c events := by
  induction events generalizing c with
  | nil => exact weaker c always
  | cons e events ih => exact ⟨weaker c always.1, ih always.2⟩

/-- What every step keeps, holds all along every run. -/
theorem always_of_keeps (keeps : ∀ c e, Inv c → Inv (step c e)) (start : Inv c) :
    Always step Inv c events := by
  induction events generalizing c with
  | nil => exact start
  | cons e events ih => exact ⟨start, ih (keeps c e start)⟩

/-- What the steps that meet the condition keep, holds all along a run of such steps. -/
theorem Guarded.always (keeps : ∀ c e, Guard c e → Inv c → Inv (step c e)) (start : Inv c)
    (guarded : Guarded step Guard c events) : Always step Inv c events := by
  induction events generalizing c with
  | nil => exact start
  | cons e events ih => exact ⟨start, ih (keeps c e guarded.1 start) guarded.2⟩

/-- Where the condition is just what one step needs to keep a property, whole runs keep it
when all their steps meet the condition, and only then. -/
theorem always_iff_guarded {P : C → Prop} (holds : ∀ c, Inv c → P c)
    (needs : ∀ c e, Inv c → P (step c e) → Guard c e)
    (keeps : ∀ c e, Guard c e → Inv c → Inv (step c e)) (start : Inv c) :
    Always step P c events ↔ Guarded step Guard c events := by
  refine ⟨fun always => ?_, fun guarded => (guarded.always keeps start).mono holds⟩
  induction events generalizing c with
  | nil => trivial
  | cons e events ih =>
    have guard := needs c e start always.2.start
    exact ⟨guard, ih (keeps c e guard start) always.2⟩

end Total

section Outputs

variable {D O : Type} {step : C → E → C × O}

/-- What a machine answers to one event after the other. -/
def outputs (step : C → E → C × O) (c : C) : List E → List O
  | [] => []
  | e :: events => (step c e).2 :: outputs step (step c e).1 events

/-- Machines that answer alike in related states, and get into related ones, answer alike along
every run. -/
theorem outputs_eq {step' : D → E → D × O} {Related : C → D → Prop} {d : D}
    (simulates : ∀ c d e, Related c d →
      (step c e).2 = (step' d e).2 ∧ Related (step c e).1 (step' d e).1)
    (start : Related c d) : outputs step c events = outputs step' d events := by
  induction events generalizing c d with
  | nil => rfl
  | cons e events ih =>
    obtain ⟨same, next⟩ := simulates c d e start
    rw [outputs, outputs, same, ih next]

end Outputs

end FomeFw.Machine
