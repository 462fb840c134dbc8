import FomeFw.Hardware.PinRepository
import FomeFw.Lib.Machine
import Mathlib.Data.Fin.Basic
import Mathlib.Logic.Function.Basic
import Mathlib.Tactic.Common

/-! The callbacks of external interrupts, `digital_input_exti.cpp`. Pins with one number on
different ports share a channel. -/
namespace FomeFw.Hardware
open Machine

/-- The number of the port, where the build has it. -/
def getHwPort (ports : Nat → Bool) (brainPin : Nat) : Option Nat :=
  if !isBrainPinValid brainPin || !brainPinIsOnchip brainPin then none
  else
    let port := (brainPin - Gpio.A0) / portSize
    if ports port then some port else none

/-- `getHwPin`, for pins on the chip: the number within the port. -/
def getHwPin (brainPin : Nat) : Fin portSize :=
  ⟨(brainPin - Gpio.A0) % portSize, Nat.mod_lt _ (by decide)⟩

/-- What a pin is enabled for. -/
structure ExtiRequest where
  msg : String
  brainPin : Nat
  mode : Nat
  cb : Nat
  cbData : Nat
  deriving DecidableEq

structure ExtiChannel where
  callback : Option Nat := none
  callbackData : Nat := 0
  name : Option String := none
  deriving DecidableEq

/-- Messages of `firmwareError`, with the names they are about. -/
inductive PinError where
  | pinAlreadyUsed (brainPin : Nat) (msg usedBy : String)
  | extiIndexAlreadyUsed (msg : String) (brainPin : Nat) (index : Nat) (usedBy : Option String)
  | invalidGpio (msg : String) (brainPin : Nat)
  deriving DecidableEq

structure Exti where
  /-- `PIN_USED`, by `brainPin_to_index`. -/
  pinUsed : Nat → Option String := fun _ => none
  channels : Fin portSize → ExtiChannel := fun _ => {}
  /-- The lines with an event, by port and number, and its mode. -/
  lineEvents : Nat × Fin portSize → Option Nat := fun _ => none
  firmwareErrors : List PinError := []

namespace Exti

def error (s : Exti) (e : PinError) : Exti := { s with firmwareErrors := s.firmwareErrors ++ [e] }

/-- The result says whether the pin was in use before. -/
def brainPinMarkUsed (s : Exti) (brainPin : Nat) (msg : String) : Bool × Exti :=
  match brainPinToIndex brainPin with
  | none => (true, s)
  | some index =>
    match s.pinUsed index with
    | some user => (true, s.error (.pinAlreadyUsed brainPin msg user))
    | none => (false, { s with pinUsed := Function.update s.pinUsed index (some msg) })

def brainPinMarkUnused (s : Exti) (brainPin : Nat) : Exti :=
  match brainPinToIndex brainPin with
  | none => s
  | some index => { s with pinUsed := Function.update s.pinUsed index none }

/-- A port that is not there, or a pin that is not on the chip. -/
def withoutPort (s : Exti) (msg : String) (brainPin : Nat) : Exti :=
  if brainPinIsOnchip brainPin then s else s.error (.invalidGpio msg brainPin)

def enableChannel (s : Exti) (port : Nat) (r : ExtiRequest) : Exti :=
  let index := getHwPin r.brainPin
  if (s.channels index).callback.isSome then
    s.error (.extiIndexAlreadyUsed r.msg r.brainPin index (s.channels index).name)
  else
    { s with
      channels := Function.update s.channels index ⟨some r.cb, r.cbData, some r.msg⟩
      lineEvents := Function.update s.lineEvents (port, index) (some r.mode) }

def efiExtiEnablePin (ports : Nat → Bool) (s : Exti) (r : ExtiRequest) : Exti :=
  if !isBrainPinValid r.brainPin then s
  else
    match getHwPort ports r.brainPin with
    | none => s.withoutPort r.msg r.brainPin
    | some port =>
      let (wasUsed, s) := s.brainPinMarkUsed r.brainPin r.msg
      if wasUsed then s else s.enableChannel port r

def disableChannel (s : Exti) (port : Nat) (brainPin : Nat) : Exti :=
  let index := getHwPin brainPin
  if (s.channels index).callback.isNone then s
  else
    { s with
      lineEvents := Function.update s.lineEvents (port, index) none
      channels := Function.update s.channels index {} }

def efiExtiDisablePin (ports : Nat → Bool) (s : Exti) (brainPin : Nat) : Exti :=
  if !isBrainPinValid brainPin then s
  else
    match getHwPort ports brainPin with
    | none => s.withoutPort "exti" brainPin
    | some port => (s.brainPinMarkUnused brainPin).disableChannel port brainPin

end Exti

inductive ExtiCall where
  | efiExtiEnablePin (r : ExtiRequest)
  | efiExtiDisablePin (brainPin : Nat)
  deriving DecidableEq

def ExtiCall.brainPin : ExtiCall → Nat
  | .efiExtiEnablePin r => r.brainPin
  | .efiExtiDisablePin brainPin => brainPin

/-- The drivers with their history: for each channel the request that succeeded last and whose pin
was not disabled since. -/
structure ExtiHistory where
  exti : Exti := {}
  owner : Fin portSize → Option ExtiRequest := fun _ => none

namespace ExtiHistory

/-- The request gets as far as the channel, and finds it free. -/
def Succeeds (ports : Nat → Bool) (s : Exti) (r : ExtiRequest) : Prop :=
  getHwPort ports r.brainPin ≠ none ∧ (brainPinToIndex r.brainPin).bind s.pinUsed = none ∧
    (s.channels (getHwPin r.brainPin)).callback = none

instance (ports : Nat → Bool) (s : Exti) (r : ExtiRequest) : Decidable (Succeeds ports s r) :=
  inferInstanceAs (Decidable (_ ∧ _))

/-- The pin owns its channel. -/
def Owns (h : ExtiHistory) (brainPin : Nat) : Prop :=
  (h.owner (getHwPin brainPin)).map ExtiRequest.brainPin = some brainPin

instance (h : ExtiHistory) (brainPin : Nat) : Decidable (h.Owns brainPin) :=
  inferInstanceAs (Decidable (_ = _))

def step (ports : Nat → Bool) (h : ExtiHistory) : ExtiCall → ExtiHistory
  | .efiExtiEnablePin r =>
    { exti := h.exti.efiExtiEnablePin ports r
      owner :=
        if Succeeds ports h.exti r then Function.update h.owner (getHwPin r.brainPin) (some r)
        else h.owner }
  | .efiExtiDisablePin brainPin =>
    { exti := h.exti.efiExtiDisablePin ports brainPin
      owner :=
        if h.Owns brainPin then Function.update h.owner (getHwPin brainPin) none else h.owner }

/-- The channels, the events of the lines and the pins in use are those of the owners. -/
structure OwnersServed (h : ExtiHistory) : Prop where
  channels : ∀ i, h.exti.channels i =
    match h.owner i with
    | none => {}
    | some r => ⟨some r.cb, r.cbData, some r.msg⟩
  lineEvents : ∀ port i, h.exti.lineEvents (port, i) =
    ((h.owner i).filter fun r => (r.brainPin - Gpio.A0) / portSize = port).map ExtiRequest.mode
  pinUsed : ∀ brainPin index, brainPinToIndex brainPin = some index →
    ((h.exti.pinUsed index).isSome ↔ h.Owns brainPin)

/-- The channel of the pin is not taken by another one. -/
def ChannelFree (ports : Nat → Bool) (h : ExtiHistory) (call : ExtiCall) : Prop :=
  getHwPort ports call.brainPin ≠ none →
    (h.exti.channels (getHwPin call.brainPin)).callback = none ∨
      (brainPinToIndex call.brainPin).bind h.exti.pinUsed ≠ none

instance (ports : Nat → Bool) (h : ExtiHistory) (call : ExtiCall) :
    Decidable (h.ChannelFree ports call) :=
  inferInstanceAs (Decidable (_ → _))

variable {ports : Nat → Bool} {h : ExtiHistory} {brainPin other : Nat} {port : Nat}

theorem getHwPort_some (there : getHwPort ports brainPin = some port) :
    isBrainPinValid brainPin = true ∧ port = (brainPin - Gpio.A0) / portSize ∧
      brainPinToIndex brainPin = some (brainPin - Gpio.A0) := by
  unfold getHwPort at there
  split at there
  · contradiction
  · next usable =>
    simp only [Bool.or_eq_true, Bool.not_eq_true', not_or, Bool.not_eq_false] at usable
    obtain ⟨valid, onchip⟩ := usable
    have range : Gpio.A0 ≤ brainPin ∧ brainPin ≤ Gpio.onchipLast := by
      unfold brainPinIsOnchip at onchip
      split at onchip
      · contradiction
      · omega
    have first : Gpio.A0 = 2 := rfl
    have last : Gpio.onchipLast = 145 := rfl
    have all : Gpio.last = 272 := rfl
    refine ⟨valid, ?_, ?_⟩
    · simp only at there
      split at there
      · exact (Option.some.inj there).symm
      · contradiction
    · rw [brainPinToIndex, if_neg (by omega)]
      exact if_neg (by omega)

/-- Whoever owns a channel has a port. -/
def Ported (ports : Nat → Bool) (h : ExtiHistory) : Prop :=
  ∀ i r, h.owner i = some r → getHwPort ports r.brainPin ≠ none

section Effects
variable {s : Exti} {r : ExtiRequest}

theorem withoutPort_errors (s : Exti) (msg : String) (brainPin : Nat) :
    ∃ firmwareErrors, s.withoutPort msg brainPin = { s with firmwareErrors } := by
  unfold Exti.withoutPort
  split
  · exact ⟨s.firmwareErrors, rfl⟩
  · exact ⟨_, rfl⟩

theorem enable_away (away : getHwPort ports r.brainPin = none) :
    ∃ firmwareErrors, s.efiExtiEnablePin ports r = { s with firmwareErrors } := by
  unfold Exti.efiExtiEnablePin
  split
  · exact ⟨s.firmwareErrors, rfl⟩
  · simp only [away]
    exact withoutPort_errors s r.msg r.brainPin

theorem disable_away (away : getHwPort ports brainPin = none) :
    ∃ firmwareErrors, s.efiExtiDisablePin ports brainPin = { s with firmwareErrors } := by
  unfold Exti.efiExtiDisablePin
  split
  · exact ⟨s.firmwareErrors, rfl⟩
  · simp only [away]
    exact withoutPort_errors s "exti" brainPin

theorem enable_marked (there : getHwPort ports r.brainPin = some port)
    (marked : s.pinUsed (r.brainPin - Gpio.A0) = some user) :
    s.efiExtiEnablePin ports r = s.error (.pinAlreadyUsed r.brainPin r.msg user) := by
  obtain ⟨valid, -, index⟩ := getHwPort_some there
  simp only [Exti.efiExtiEnablePin, valid, there, Exti.brainPinMarkUsed, index, marked]
  rfl

theorem enable_unmarked (there : getHwPort ports r.brainPin = some port)
    (unmarked : s.pinUsed (r.brainPin - Gpio.A0) = none) :
    s.efiExtiEnablePin ports r =
      Exti.enableChannel
        { s with pinUsed := Function.update s.pinUsed (r.brainPin - Gpio.A0) (some r.msg) } port r := by
  obtain ⟨valid, -, index⟩ := getHwPort_some there
  simp only [Exti.efiExtiEnablePin, valid, there, Exti.brainPinMarkUsed, index, unmarked]
  rfl

theorem disable_eq (there : getHwPort ports brainPin = some port) :
    s.efiExtiDisablePin ports brainPin =
      Exti.disableChannel
        { s with pinUsed := Function.update s.pinUsed (brainPin - Gpio.A0) none } port brainPin := by
  obtain ⟨valid, -, index⟩ := getHwPort_some there
  simp only [Exti.efiExtiDisablePin, valid, there, Exti.brainPinMarkUnused, index]
  rfl

end Effects

namespace OwnersServed
variable {r : ExtiRequest} {call : ExtiCall}

theorem errors (served : h.OwnersServed) (firmwareErrors : List PinError) :
    OwnersServed { h with exti := { h.exti with firmwareErrors } } :=
  ⟨served.channels, served.lineEvents, served.pinUsed⟩

theorem owner_none_iff (served : h.OwnersServed) (i : Fin portSize) :
    (h.exti.channels i).callback = none ↔ h.owner i = none := by
  rw [served.channels]
  cases h.owner i <;> simp

/-- Writing the mark of one pin. -/
theorem mark (served : h.OwnersServed) (there : brainPinToIndex brainPin = some index)
    {exti : Exti} {owner : Fin portSize → Option ExtiRequest} {mark : Option String}
    (used : exti.pinUsed = Function.update h.exti.pinUsed index mark)
    (own : mark.isSome ↔ Owns ⟨exti, owner⟩ brainPin)
    (others : ∀ other, other ≠ brainPin → (Owns ⟨exti, owner⟩ other ↔ h.Owns other)) :
    ∀ other place, brainPinToIndex other = some place →
      ((exti.pinUsed place).isSome ↔ Owns ⟨exti, owner⟩ other) := by
  intro other place at_
  rw [used]
  by_cases same : other = brainPin
  · subst same
    obtain rfl := Option.some.inj (at_.symm.trans there)
    rw [Function.update_self]
    exact own
  · have apart : place ≠ index := by
      rintro rfl
      exact same (brainPinToIndex_inj at_ there)
    rw [Function.update_of_ne apart, served.pinUsed other place at_]
    exact (others other same).symm

/-- A request for a channel that nobody owns. -/
theorem enable_free (served : h.OwnersServed) (there : getHwPort ports r.brainPin = some port)
    (unmarked : h.exti.pinUsed (r.brainPin - Gpio.A0) = none)
    (free : h.owner (getHwPin r.brainPin) = none) :
    OwnersServed
      { exti := h.exti.efiExtiEnablePin ports r
        owner := Function.update h.owner (getHwPin r.brainPin) (some r) } := by
  obtain ⟨-, number, index⟩ := getHwPort_some there
  have silent := (served.owner_none_iff _).mpr free
  rw [enable_unmarked there unmarked, Exti.enableChannel, if_neg (by simp [silent])]
  refine ⟨?_, ?_, ?_⟩
  · intro i
    by_cases same : i = getHwPin r.brainPin
    · simp [same]
    · simpa [same] using served.channels i
  · intro place i
    by_cases same : i = getHwPin r.brainPin
    · have before := served.lineEvents place (getHwPin r.brainPin)
      rw [free] at before
      by_cases here : place = port
      · simp [same, here, number, Option.filter_some]
      · simp [same, here, before, ← number, Ne.symm here, Option.filter_some]
    · simpa [same] using served.lineEvents place i
  · refine served.mark index rfl ?_ ?_
    · simp [Owns]
    · intro other apart
      by_cases same : getHwPin other = getHwPin r.brainPin
      · simp [Owns, same, free, Ne.symm apart]
      · simp [Owns, same]

/-- A pin that owns its channel gives it back. -/
theorem disable_owner (served : h.OwnersServed) (there : getHwPort ports brainPin = some port)
    (owns : h.Owns brainPin) :
    OwnersServed
      { exti := h.exti.efiExtiDisablePin ports brainPin
        owner := Function.update h.owner (getHwPin brainPin) none } := by
  obtain ⟨-, number, index⟩ := getHwPort_some there
  obtain ⟨r, own, rfl⟩ := Option.map_eq_some_iff.mp owns
  have busy : (h.exti.channels (getHwPin r.brainPin)).callback ≠ none :=
    fun silent => by simp [(served.owner_none_iff _).mp silent] at own
  rw [disable_eq there, Exti.disableChannel, if_neg (by simpa using busy)]
  refine ⟨?_, ?_, ?_⟩
  · intro i
    by_cases same : i = getHwPin r.brainPin
    · simp [same]
    · simpa [same] using served.channels i
  · intro place i
    by_cases same : i = getHwPin r.brainPin
    · have before := served.lineEvents place (getHwPin r.brainPin)
      rw [own] at before
      by_cases here : place = port
      · simp [same, here]
      · simp [same, here, before, ← number, Ne.symm here, Option.filter_some]
    · simpa [same] using served.lineEvents place i
  · refine served.mark index rfl ?_ ?_
    · simp [Owns]
    · intro other apart
      by_cases same : getHwPin other = getHwPin r.brainPin
      · simp [Owns, same, own, Ne.symm apart]
      · simp [Owns, same]

/-- Nobody owns the channel of the pin. -/
theorem disable_free (served : h.OwnersServed) (there : getHwPort ports brainPin = some port)
    (free : h.owner (getHwPin brainPin) = none) :
    OwnersServed { exti := h.exti.efiExtiDisablePin ports brainPin, owner := h.owner } := by
  obtain ⟨-, -, index⟩ := getHwPort_some there
  have silent := (served.owner_none_iff _).mpr free
  rw [disable_eq there, Exti.disableChannel, if_pos (by simp [silent])]
  refine ⟨served.channels, served.lineEvents, served.mark index rfl ?_ ?_⟩
  · simp [Owns, free]
  · exact fun _ _ => Iff.rfl

end OwnersServed

section Steps
variable {call : ExtiCall}

theorem step_ported (ported : h.Ported ports) : (h.step ports call).Ported ports := by
  cases call with
  | efiExtiEnablePin r =>
    intro i b own
    simp only [step] at own
    split at own
    · next success =>
      by_cases same : i = getHwPin r.brainPin
      · subst same
        rw [Function.update_self] at own
        exact Option.some.inj own ▸ success.1
      · rw [Function.update_of_ne same] at own
        exact ported i b own
    · exact ported i b own
  | efiExtiDisablePin brainPin =>
    intro i b own
    simp only [step] at own
    split at own
    · by_cases same : i = getHwPin brainPin
      · simp [same] at own
      · rw [Function.update_of_ne same] at own
        exact ported i b own
    · exact ported i b own

theorem step_served (served : h.OwnersServed) (ported : h.Ported ports)
    (guard : h.ChannelFree ports call) : (h.step ports call).OwnersServed := by
  cases call with
  | efiExtiEnablePin r =>
    cases there : getHwPort ports r.brainPin with
    | none =>
      obtain ⟨errors, same⟩ := @enable_away ports h.exti r there
      have refused : ¬Succeeds ports h.exti r := fun success => success.1 there
      rw [step, same, if_neg refused]
      exact served.errors errors
    | some port =>
      obtain ⟨-, -, index⟩ := getHwPort_some there
      cases marked : h.exti.pinUsed (r.brainPin - Gpio.A0) with
      | some user =>
        have refused : ¬Succeeds ports h.exti r := by
          rintro ⟨-, unmarked, -⟩
          simp [index, marked] at unmarked
        rw [step, enable_marked there marked, if_neg refused]
        exact served.errors _
      | none =>
        have free := (guard (by simp [ExtiCall.brainPin, there])).resolve_right
          (by simp [ExtiCall.brainPin, index, marked])
        have success : Succeeds ports h.exti r :=
          ⟨by simp [there], by simp [index, marked], free⟩
        rw [step, if_pos success]
        exact served.enable_free there marked ((served.owner_none_iff _).mp free)
  | efiExtiDisablePin brainPin =>
    cases there : getHwPort ports brainPin with
    | none =>
      obtain ⟨errors, same⟩ := @disable_away ports brainPin h.exti there
      have other : ¬h.Owns brainPin := by
        intro owns
        obtain ⟨r, own, rfl⟩ := Option.map_eq_some_iff.mp owns
        exact ported _ r own there
      rw [step, same, if_neg other]
      exact served.errors errors
    | some port =>
      obtain ⟨-, -, index⟩ := getHwPort_some there
      by_cases owns : h.Owns brainPin
      · rw [step, if_pos owns]
        exact served.disable_owner there owns
      · rw [step, if_neg owns]
        have unmarked := (served.pinUsed brainPin _ index).not.mpr owns
        have free := (guard (by simp [ExtiCall.brainPin, there])).resolve_right
          (by simpa [ExtiCall.brainPin, index] using unmarked)
        exact served.disable_free there ((served.owner_none_iff _).mp free)

/-- A call for a channel that another pin owns leaves a mark without owner, or an owner without
callback. -/
theorem step_needs (served : h.OwnersServed) (after : (h.step ports call).OwnersServed) :
    h.ChannelFree ports call := by
  intro there
  by_contra taken
  obtain ⟨busy, unmarked⟩ := not_or.mp taken
  rw [not_not] at unmarked
  obtain ⟨port, there⟩ := Option.ne_none_iff_exists'.mp there
  obtain ⟨-, -, index⟩ := getHwPort_some there
  have own : h.owner (getHwPin call.brainPin) ≠ none :=
    fun free => busy ((served.owner_none_iff _).mpr free)
  have notOwned : ¬h.Owns call.brainPin := by
    rw [index, Option.bind_some] at unmarked
    rw [← served.pinUsed _ _ index, unmarked]
    simp
  cases call with
  | efiExtiEnablePin r =>
    simp only [ExtiCall.brainPin] at *
    have refused : ¬Succeeds ports h.exti r := fun success => busy success.2.2
    rw [index, Option.bind_some] at unmarked
    rw [step, if_neg refused, enable_unmarked there unmarked, Exti.enableChannel,
      if_pos (Option.isSome_iff_ne_none.mpr busy)] at after
    have marked := (after.pinUsed r.brainPin _ index).mp (by simp [Exti.error])
    exact notOwned marked
  | efiExtiDisablePin brainPin =>
    simp only [ExtiCall.brainPin] at *
    rw [step, if_neg notOwned, disable_eq there, Exti.disableChannel,
      if_neg (by simpa using busy)] at after
    exact own ((after.owner_none_iff _).mp (by simp))

end Steps

/-- For every sequence of calls: all along, the callbacks are those of the owners and the pins in
use are the owners, just when no call is made for a channel that another pin owns. -/
theorem ownersServed_iff (ports : Nat → Bool) (calls : List ExtiCall) :
    Always (step ports) OwnersServed {} calls ↔ Guarded (step ports) (ChannelFree ports) {} calls := by
  have start : OwnersServed {} ∧ Ported ports {} := by
    refine ⟨⟨fun _ => rfl, fun _ _ => rfl, ?_⟩, ?_⟩
    · intro brainPin index _
      simp [Owns]
    · intro i r own
      cases own
  apply @always_iff_guarded _ _ _ calls (step ports) (ChannelFree ports)
    (fun h => OwnersServed h ∧ Ported ports h) OwnersServed _ _ _ start
  · rintro h ⟨served, -⟩
    exact served
  · rintro h call ⟨served, -⟩ after
    exact step_needs served after
  · rintro h call guard ⟨served, ported⟩
    exact ⟨step_served served ported guard, step_ported ported⟩

/-- PA0 is enabled, PB0 is refused and then disabled: PB0 was in use without a channel, and PA0
has lost its callback. -/
theorem ownersServed_fails :
    let pa0 : ExtiRequest := ⟨"trigger", Gpio.A0, 3, 1, 0⟩
    let pb0 : ExtiRequest := ⟨"flex", Gpio.B0, 3, 2, 0⟩
    let refused := [ExtiCall.efiExtiEnablePin pa0, .efiExtiEnablePin pb0].foldl
      (step fun _ => true) {}
    let disabled := refused.step (fun _ => true) (.efiExtiDisablePin Gpio.B0)
    refused.exti.pinUsed 16 = some "flex" ∧ ¬refused.Owns Gpio.B0 ∧
      disabled.Owns Gpio.A0 ∧ (disabled.exti.channels 0).callback = none ∧
      ¬Always (step fun _ => true) OwnersServed {}
        [.efiExtiEnablePin pa0, .efiExtiEnablePin pb0, .efiExtiDisablePin Gpio.B0] := by
  refine ⟨by decide, by decide, by decide, by decide, ?_⟩
  rintro ⟨-, -, refused, -⟩
  have marked := (refused.pinUsed Gpio.B0 16 (by decide)).mp (by decide)
  exact absurd marked (by decide)

end ExtiHistory

end FomeFw.Hardware
