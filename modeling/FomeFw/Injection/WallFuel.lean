import FomeFw.Lib.Machine
import FomeFw.Lib.Reservoir
import Mathlib.Algebra.Order.Ring.Rat
import Mathlib.Data.Rat.Defs

/-! Fuel on the port walls, `wall_fuel.cpp`, in exact arithmetic. Each injection has a film of
its own; the parameters are shared. -/
namespace FomeFw.Injection
open Machine

/-- The functions of the library under the firmware. -/
structure Libfirmware where
  expf_taylor : ℚ → ℚ
  interpolate2d : ℚ → (Fin 8 → ℚ) → (Fin 8 → ℚ) → ℚ
  clampF : ℚ → ℚ → ℚ → ℚ

structure WallFuelConfig where
  complexWallModel : Bool
  wwaeTau : ℚ
  wwaeBeta : ℚ
  wwCltBins : Fin 8 → ℚ
  wwTauCltValues : Fin 8 → ℚ
  wwBetaCltValues : Fin 8 → ℚ
  wwMapBins : Fin 8 → ℚ
  wwTauMapValues : Fin 8 → ℚ
  wwBetaMapValues : Fin 8 → ℚ

/-- What the controller reads of the sensors and of the engine; no value stands for a sensor
without a valid one. -/
structure WallFuelInputs where
  isCranking : Bool
  clt : Option ℚ
  hasMap : Bool
  map : Option ℚ
  rpm : Option ℚ

structure WallFuelController where
  enable : Bool := false
  alpha : ℚ := 0
  beta : ℚ := 0

structure WallFuel where
  wallFuel : ℚ := 0
  wallFuelCorrection : ℚ := 0

namespace WallFuelController

variable (lib : Libfirmware) (config : WallFuelConfig) (inputs : WallFuelInputs)

def computeTau : ℚ :=
  if !config.complexWallModel then config.wwaeTau
  else
    let clt := inputs.clt.getD 90
    let tau := lib.interpolate2d clt config.wwCltBins config.wwTauCltValues
    if inputs.hasMap then
      tau * lib.interpolate2d (inputs.map.getD 60) config.wwMapBins config.wwTauMapValues
    else tau

def computeBeta : ℚ :=
  if !config.complexWallModel then config.wwaeBeta
  else
    let clt := inputs.clt.getD 90
    let beta := lib.interpolate2d clt config.wwCltBins config.wwBetaCltValues
    let beta :=
      if inputs.hasMap then
        beta * lib.interpolate2d (inputs.map.getD 60) config.wwMapBins config.wwBetaMapValues
      else beta
    lib.clampF 0 beta 1

/-- The parameters are left as they are where the model is disabled. -/
def onFastCallback (c : WallFuelController) : WallFuelController :=
  if inputs.isCranking then { c with enable := false }
  else
    let tau := computeTau lib config inputs
    let beta := computeBeta lib config inputs
    if tau < 1 / 100 ∨ beta < 1 / 100 then { c with enable := false }
    else
      let rpm := inputs.rpm.getD 0
      if rpm < 100 then { c with enable := false }
      else
        let alpha := lib.expf_taylor (-120 / (rpm * tau))
        let beta := if beta > alpha then alpha else beta
        { enable := true, alpha, beta }

end WallFuelController

namespace WallFuel

def resetWF (w : WallFuel) : WallFuel := { w with wallFuel := 0 }

/-- The mass to inject, and the film after. -/
def adjust (c : WallFuelController) (w : WallFuel) (desiredMassGrams : ℚ) : ℚ × WallFuel :=
  if !c.enable then (desiredMassGrams, w)
  else
    let fuelFilmMass := w.wallFuel
    let M_cmd := (desiredMassGrams - (1 - c.alpha) * fuelFilmMass) / (1 - c.beta)
    let M_cmd := if M_cmd ≤ 0 then 0 else M_cmd
    let fuelFilmMassNext := c.alpha * fuelFilmMass + c.beta * M_cmd
    (M_cmd, { wallFuel := fuelFilmMassNext, wallFuelCorrection := M_cmd - desiredMassGrams })

end WallFuel

/-- The controller and the films of the injection events. -/
structure WallWetting (ι : Type) where
  controller : WallFuelController := {}
  films : ι → WallFuel := fun _ => {}

inductive WallFuelCall (ι : Type) where
  | adjust (event : ι) (desiredMassGrams : ℚ)
  | onFastCallback (config : WallFuelConfig) (inputs : WallFuelInputs)
  | resetWF

/-- The desired mass of an adjustment is not negative. -/
def WallFuelCall.NonNegative {ι : Type} : WallFuelCall ι → Prop
  | .adjust _ desiredMassGrams => 0 ≤ desiredMassGrams
  | _ => True

namespace WallWetting

variable {ι : Type} [DecidableEq ι] (lib : Libfirmware)

def step (s : WallWetting ι) : WallFuelCall ι → WallWetting ι
  | .adjust event desiredMassGrams =>
    { s with
      films := Function.update s.films event
        (WallFuel.adjust s.controller (s.films event) desiredMassGrams).2 }
  | .onFastCallback config inputs =>
    { s with controller := s.controller.onFastCallback lib config inputs }
  | .resetWF => { s with films := fun event => (s.films event).resetWF }

/-- What an adjustment does: `commanded` is its result, and what is not on the wall is delivered. -/
structure Conserves (c : WallFuelController) (w : WallFuel) (desired commanded : ℚ)
    (after : WallFuel) : Prop where
  commanded_nonneg : 0 ≤ commanded
  film_nonneg : 0 ≤ after.wallFuel
  disabled : c.enable = false → commanded = desired ∧ after = w
  balance : c.enable = true → after.wallFuel - w.wallFuel =
    commanded - ((1 - c.beta) * commanded + (1 - c.alpha) * w.wallFuel)
  enough : c.enable = true → desired ≤ (1 - c.beta) * commanded + (1 - c.alpha) * w.wallFuel
  unclamped : c.enable = true → 0 ≤ (desired - (1 - c.alpha) * w.wallFuel) / (1 - c.beta) →
    (1 - c.beta) * commanded + (1 - c.alpha) * w.wallFuel = desired
  bounded : c.enable = true →
    c.alpha < 1 ∧ after.wallFuel ≤ max w.wallFuel (c.beta * desired / (1 - c.alpha))

end WallWetting

/-- The parameters always describe a reservoir. -/
structure WallFuelController.Damped (c : WallFuelController) : Prop where
  beta_nonneg : 0 ≤ c.beta
  beta_le_alpha : c.beta ≤ c.alpha
  alpha_lt_one : c.alpha < 1

namespace WallFuelController.Damped

variable {c : WallFuelController} {w : WallFuel} {desired : ℚ}

def reservoir (damped : c.Damped) : Reservoir ℚ where
  kept := c.alpha
  taken := c.beta
  taken_nonneg := damped.beta_nonneg
  taken_le_kept := damped.beta_le_alpha
  kept_lt_one := damped.alpha_lt_one

/-- An adjustment supplies the reservoir that the parameters describe. -/
theorem adjust_eq (damped : c.Damped) (enabled : c.enable = true) :
    w.adjust c desired =
      (damped.reservoir.supply w.wallFuel desired,
        ⟨damped.reservoir.next w.wallFuel (damped.reservoir.supply w.wallFuel desired),
          damped.reservoir.supply w.wallFuel desired - desired⟩) := by
  simp only [WallFuel.adjust, enabled, Bool.not_true, Bool.false_eq_true, if_false]
  rfl

theorem conserves (damped : c.Damped) (film : 0 ≤ w.wallFuel) (wanted : 0 ≤ desired) :
    WallWetting.Conserves c w desired (w.adjust c desired).1 (w.adjust c desired).2 := by
  cases on : c.enable with
  | false =>
    have same : w.adjust c desired = (desired, w) := by simp [WallFuel.adjust, on]
    rw [same]
    constructor
    · exact wanted
    · exact film
    · exact fun _ => ⟨rfl, rfl⟩
    all_goals
      intro enabled
      exact absurd (on.symm.trans enabled) (by decide)
  | true =>
    have supplied : 0 ≤ damped.reservoir.supply w.wallFuel desired := damped.reservoir.supply_nonneg
    have total : damped.reservoir.next w.wallFuel (damped.reservoir.supply w.wallFuel desired) +
        damped.reservoir.delivered w.wallFuel (damped.reservoir.supply w.wallFuel desired) =
        w.wallFuel + damped.reservoir.supply w.wallFuel desired :=
      damped.reservoir.next_add_delivered
    rw [damped.adjust_eq on]
    constructor
    · exact supplied
    · exact damped.reservoir.next_nonneg film supplied
    · intro off
      exact absurd (on.symm.trans off) (by decide)
    · intro _
      rw [add_comm w.wallFuel] at total
      exact sub_eq_sub_iff_add_eq_add.mpr total
    · exact fun _ => damped.reservoir.le_delivered_supply
    · exact fun _ => damped.reservoir.delivered_supply_eq
    · exact fun _ => ⟨damped.alpha_lt_one, damped.reservoir.next_supply_le_max film⟩

/-- Whatever the configuration and the inputs are, the share that hits the wall is limited to the
share that remains. -/
theorem onFastCallback {lib : Libfirmware} {config : WallFuelConfig} {inputs : WallFuelInputs}
    (negative : ∀ x < 0, 0 < lib.expf_taylor x ∧ lib.expf_taylor x < 1) (damped : c.Damped) :
    (c.onFastCallback lib config inputs).Damped := by
  rw [WallFuelController.onFastCallback]
  have kept : ({ c with enable := false } : WallFuelController).Damped :=
    ⟨damped.beta_nonneg, damped.beta_le_alpha, damped.alpha_lt_one⟩
  split
  · exact kept
  extract_lets tau beta rpm alpha limited
  split
  · exact kept
  next large =>
    obtain ⟨slow, wets⟩ := not_or.mp large
    split
    · exact kept
    next turning =>
      have product : 0 < rpm * tau := by
        apply mul_pos
        · exact lt_of_lt_of_le (by norm_num) (not_lt.mp turning)
        · exact lt_of_lt_of_le (by norm_num) (not_lt.mp slow)
      have exponent : -120 / (rpm * tau) < 0 := div_neg_of_neg_of_pos (by norm_num) product
      obtain ⟨positive, below⟩ := negative _ exponent
      have wet : 0 < beta := lt_of_lt_of_le (by norm_num) (not_lt.mp wets)
      constructor
      · show 0 ≤ if beta > alpha then alpha else beta
        split
        · exact positive.le
        · exact wet.le
      · show (if beta > alpha then alpha else beta) ≤ alpha
        split
        · exact le_rfl
        · next least => exact not_lt.mp least
      · exact below

end WallFuelController.Damped

namespace WallWetting

variable {ι : Type} [DecidableEq ι] {lib : Libfirmware} {s : WallWetting ι} {call : WallFuelCall ι}

/-- What holds between two calls. -/
structure Sound (s : WallWetting ι) : Prop where
  damped : s.controller.Damped
  film_nonneg : ∀ event, 0 ≤ (s.films event).wallFuel

theorem Sound.step (negative : ∀ x < 0, 0 < lib.expf_taylor x ∧ lib.expf_taylor x < 1)
    (sound : s.Sound) (wanted : call.NonNegative) : (s.step lib call).Sound := by
  cases call with
  | adjust event desired =>
    refine ⟨sound.damped, ?_⟩
    intro other
    by_cases same : other = event
    · subst same
      simp only [WallWetting.step, Function.update_self]
      exact (sound.damped.conserves (sound.film_nonneg other) wanted).film_nonneg
    · simp only [WallWetting.step, Function.update_of_ne same]
      exact sound.film_nonneg other
  | onFastCallback config inputs =>
    exact ⟨sound.damped.onFastCallback negative, sound.film_nonneg⟩
  | resetWF => exact ⟨sound.damped, fun _ => le_rfl⟩

theorem sound_foldl (negative : ∀ x < 0, 0 < lib.expf_taylor x ∧ lib.expf_taylor x < 1)
    {calls : List (WallFuelCall ι)} (wanted : ∀ call ∈ calls, call.NonNegative) (sound : s.Sound) :
    (calls.foldl (WallWetting.step lib) s).Sound := by
  induction calls generalizing s with
  | nil => exact sound
  | cons call calls ih =>
    rw [List.foldl_cons]
    apply ih
    · exact fun call' member => wanted call' (List.mem_cons_of_mem _ member)
    · exact sound.step negative (wanted call List.mem_cons_self)

omit [DecidableEq ι] in
theorem sound_start : ({} : WallWetting ι).Sound := ⟨⟨le_rfl, le_rfl, one_pos⟩, fun _ => le_rfl⟩

/-- After any calls the divisor is positive and no film is negative, and the next adjustment
conserves fuel. -/
theorem conserves_always (lib : Libfirmware)
    (negative : ∀ x < 0, 0 < lib.expf_taylor x ∧ lib.expf_taylor x < 1)
    (calls : List (WallFuelCall ι)) (wanted : ∀ call ∈ calls, call.NonNegative) :
    let s := calls.foldl (WallWetting.step lib) {}
    0 < 1 - s.controller.beta ∧ (∀ event, 0 ≤ (s.films event).wallFuel) ∧
    ∀ event, ∀ desired ≥ 0,
      Conserves s.controller (s.films event) desired
        ((s.films event).adjust s.controller desired).1
        ((s.step lib (.adjust event desired)).films event) := by
  intro s
  have sound : s.Sound := sound_foldl negative wanted sound_start
  refine ⟨sound.damped.reservoir.one_sub_taken_pos, sound.film_nonneg, ?_⟩
  intro event desired wants
  simp only [WallWetting.step, Function.update_self]
  exact sound.damped.conserves (sound.film_nonneg event) wants

/-- A warm engine that idles: the exponential is near its series at the inputs of the run. -/
theorem conserves_always_idle :
    let lib : Libfirmware :=
      ⟨fun x => 1 / (1 - x + x ^ 2 / 2 - x ^ 3 / 6), fun _ _ values => values 0,
        fun low x high => max low (min x high)⟩
    let config : WallFuelConfig :=
      ⟨false, 1, 1 / 2, fun _ => 0, fun _ => 0, fun _ => 0, fun _ => 0, fun _ => 0, fun _ => 0⟩
    let calls : List (WallFuelCall (Fin 2)) :=
      [.onFastCallback config ⟨false, some 90, false, none, some 1200⟩, .adjust 0 1, .adjust 1 2]
    let s := calls.foldl (WallWetting.step lib) {}
    0 < 1 - s.controller.beta ∧ (∀ event, 0 ≤ (s.films event).wallFuel) ∧
    ∀ event, ∀ desired ≥ 0,
      Conserves s.controller (s.films event) desired
        ((s.films event).adjust s.controller desired).1
        ((s.step lib (.adjust event desired)).films event) := by
  intro lib config calls
  apply conserves_always lib
  · intro x below
    have nonzero := below.ne
    have square : 0 < x ^ 2 := by positivity
    have cube : x ^ 3 < 0 := by
      have odd : x ^ 3 = x * x ^ 2 := by ring
      rw [odd]
      exact mul_neg_of_neg_of_pos below square
    have large : 1 < 1 - x + x ^ 2 / 2 - x ^ 3 / 6 := by linarith
    constructor
    · exact one_div_pos.mpr (by linarith)
    · exact (div_lt_one (by linarith)).mpr large
  · simp [calls, WallFuelCall.NonNegative]

/-- The level that an adjustment leads to stays within a bound. -/
def Within (bound : ℚ) (s : WallWetting ι) : WallFuelCall ι → Prop
  | .adjust _ desired => 0 ≤ desired ∧ (s.controller.enable = true →
      s.controller.beta * desired / (1 - s.controller.alpha) ≤ bound)
  | _ => True

/-- The films stay within a bound for good where the levels do, whatever the parameters change
to in between. -/
theorem films_le {bound : ℚ} (room : 0 ≤ bound)
    (negative : ∀ x < 0, 0 < lib.expf_taylor x ∧ lib.expf_taylor x < 1)
    {calls : List (WallFuelCall ι)} (within : Guarded (WallWetting.step lib) (Within bound) {} calls) :
    Always (WallWetting.step lib) (fun s => ∀ event, (s.films event).wallFuel ≤ bound) {} calls := by
  have keeps : ∀ (s : WallWetting ι) call, Within bound s call →
      (s.Sound ∧ ∀ event, (s.films event).wallFuel ≤ bound) →
      (s.step lib call).Sound ∧ ∀ event, ((s.step lib call).films event).wallFuel ≤ bound := by
    rintro s call within ⟨sound, films⟩
    cases call with
    | adjust event desired =>
      refine ⟨sound.step negative within.1, ?_⟩
      intro other
      by_cases same : other = event
      · subst same
        simp only [WallWetting.step, Function.update_self]
        have conserved := sound.damped.conserves (sound.film_nonneg other) within.1
        cases on : s.controller.enable with
        | false =>
          rw [(conserved.disabled on).2]
          exact films other
        | true => exact (conserved.bounded on).2.trans (max_le (films other) (within.2 on))
      · simp only [WallWetting.step, Function.update_of_ne same]
        exact films other
    | onFastCallback config inputs => exact ⟨sound.step negative trivial, films⟩
    | resetWF => exact ⟨sound.step negative trivial, fun _ => room⟩
  have both := within.always keeps ⟨sound_start, fun _ => room⟩
  exact both.mono fun _ => And.right

end WallWetting

end FomeFw.Injection
