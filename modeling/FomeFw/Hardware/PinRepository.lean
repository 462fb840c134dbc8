import Mathlib.Tactic.Common

/-! The pins of the chip and of the chips around it, and their places in the repository of the
pins in use, `pin_repository.cpp`. A `brain_pin_e` is a number; from `A0` on each port has 16. -/
namespace FomeFw.Hardware

namespace Gpio

abbrev Unassigned : Nat := 0
abbrev Invalid : Nat := 1
abbrev A0 : Nat := 2
abbrev B0 : Nat := 18

/-- `BRAIN_PIN_ONCHIP_LAST`, which is `I15`. -/
abbrev onchipLast : Nat := 145

/-- `BRAIN_PIN_LAST`, which is `PROTECTED_PIN_15`. -/
abbrev last : Nat := 272

end Gpio

/-- `PORT_SIZE`. -/
abbrev portSize : Nat := 16

def isBrainPinValid (brainPin : Nat) : Bool :=
  if brainPin = Gpio.Unassigned ∨ brainPin = Gpio.Invalid then false
  else if brainPin > Gpio.last then false
  else true

def brainPinIsOnchip (brainPin : Nat) : Bool :=
  if brainPin < Gpio.A0 ∨ brainPin > Gpio.onchipLast then false else true

/-- `none` where the source returns -1. -/
def brainPinToIndex (brainPin : Nat) : Option Nat :=
  if brainPin < Gpio.A0 then none
  else
    let i := brainPin - Gpio.A0
    if i ≥ Gpio.last - Gpio.A0 + 1 then none else some i

/-- Different pins have different places in the repository. -/
theorem brainPinToIndex_inj {brainPin other : Nat} (one : brainPinToIndex brainPin = some index)
    (two : brainPinToIndex other = some index) : brainPin = other := by
  have place : ∀ {b : Nat}, brainPinToIndex b = some index → b = index + Gpio.A0 := by
    intro b at_
    unfold brainPinToIndex at at_
    split at at_
    · contradiction
    · simp only at at_
      split at at_
      · contradiction
      · have same := Option.some.inj at_
        omega
  rw [place one, place two]

end FomeFw.Hardware
