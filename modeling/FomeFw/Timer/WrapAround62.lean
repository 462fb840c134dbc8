import FomeFw.Lib.Machine
import Mathlib.Data.Nat.Bitwise
import Mathlib.Logic.Function.Basic
import Mathlib.Tactic.NormNum

/-! The 64-bit clock made of a 32-bit counter, `WrapAround62` of `efitime.h`. Callers race:
each reads the quadrant, and writes the one it computed some time later. -/
namespace FomeFw.Timer.WrapAround62
open Machine

/-- `update` between its read of `m_upper` and its write. -/
def nextUpper (upper source : BitVec 32) : BitVec 32 :=
  let relative_unsigned := source - (upper <<< 30)
  upper + relative_unsigned.sshiftRight 30

/-- What `update` returns. -/
def extended (upper source : BitVec 32) : BitVec 64 :=
  ((upper >>> 2).setWidth 64 <<< 32) ||| source.setWidth 64

/-- The hardware counter. -/
def source (sample : Nat) : BitVec 32 := BitVec.ofNat 32 sample

/-- The quarter of a turn of the hardware counter that a true value falls in. -/
def quadrant (sample : Nat) : BitVec 32 := BitVec.ofNat 32 (sample / 2 ^ 30)

section Exact

variable {q sample other : Nat}

theorem shiftLeft_ofNat (q : Nat) : BitVec.ofNat 32 q <<< 30 = BitVec.ofNat 32 (q * 2 ^ 30) := by
  apply BitVec.eq_of_toNat_eq
  simp [Nat.shiftLeft_eq]

/-- The signed reading of the wrapped difference is the true difference. -/
theorem toInt_relative (below : -2 ^ 31 ≤ (sample : Int) - q * 2 ^ 30)
    (above : (sample : Int) - q * 2 ^ 30 < 2 ^ 31) :
    (source sample - (BitVec.ofNat 32 q <<< 30)).toInt = (sample : Int) - q * 2 ^ 30 := by
  rw [source, shiftLeft_ofNat, BitVec.toInt_sub, BitVec.toInt_ofNat', BitVec.toInt_ofNat',
    Int.sub_bmod_bmod, Int.bmod_sub_bmod]
  push_cast
  apply Int.bmod_eq_of_le
  · norm_num at *
    omega
  · norm_num at *
    omega

theorem nextUpper_ofNat (below : -2 ^ 31 ≤ (sample : Int) - q * 2 ^ 30)
    (above : (sample : Int) - q * 2 ^ 30 < 2 ^ 31) :
    nextUpper (BitVec.ofNat 32 q) (source sample) = quadrant sample := by
  apply BitVec.eq_of_toInt_eq
  rw [nextUpper, BitVec.toInt_add, BitVec.toInt_sshiftRight, toInt_relative below above,
    Int.shiftRight_eq_div_pow, quadrant, BitVec.toInt_ofNat', BitVec.toInt_ofNat', Int.bmod_add_bmod]
  congr 1
  push_cast
  omega

/-- From the quadrant of a sample less than a quarter turn away, on either side. -/
theorem nextUpper_quadrant (near : ((sample : Int) - other).natAbs < 2 ^ 30) :
    nextUpper (quadrant other) (source sample) = quadrant sample := by
  have floor : other / 2 ^ 30 * 2 ^ 30 ≤ other := Nat.div_mul_le_self other _
  have ceiling : other < other / 2 ^ 30 * 2 ^ 30 + 2 ^ 30 := Nat.lt_div_mul_add (by decide)
  apply nextUpper_ofNat
  · omega
  · omega

theorem extended_quadrant (fits : sample < 2 ^ 62) :
    (extended (quadrant sample) (source sample)).toNat = sample := by
  have upper : sample / 2 ^ 30 % 2 ^ 32 / 2 ^ 2 = sample / 2 ^ 32 := by omega
  have lower : sample % 2 ^ 32 < 2 ^ 32 := Nat.mod_lt sample (by decide)
  have small : sample / 2 ^ 32 < 2 ^ 30 := by omega
  rw [extended, quadrant, source, BitVec.toNat_or, BitVec.toNat_shiftLeft, BitVec.toNat_setWidth,
    BitVec.toNat_ushiftRight, BitVec.toNat_setWidth, BitVec.toNat_ofNat, BitVec.toNat_ofNat,
    Nat.shiftRight_eq_div_pow, upper, Nat.mod_eq_of_lt (a := sample / 2 ^ 32) (by omega)]
  rw [Nat.shiftLeft_eq, Nat.mod_eq_of_lt (by omega), Nat.mod_eq_of_lt (by omega), ← Nat.shiftLeft_eq,
    ← Nat.shiftLeft_add_eq_or_of_lt lower, Nat.shiftLeft_eq]
  omega

end Exact

/-- A caller inside `update`, with what it read. -/
structure Call where
  sample : Nat
  upper : BitVec 32

/-- The clock and its callers. The true counter values are not in the code: the one
`m_upper` was computed from, and those the callers sampled. -/
structure Clock (Caller : Type) where
  m_upper : BitVec 32
  computedFrom : Nat
  calls : Caller → Option Call
  returned : List (Nat × BitVec 64)

def Clock.initial {Caller : Type} : Clock Caller := ⟨0, 0, fun _ => none, []⟩

/-- The two accesses to `m_upper`. -/
inductive Access (Caller : Type)
  | read (caller : Caller) (sample : Nat)
  | write (caller : Caller)

variable {Caller : Type} [DecidableEq Caller]

def step (clock : Clock Caller) : Access Caller → Clock Caller
  | .read caller sample =>
    match clock.calls caller with
    | some _ => clock
    | none => { clock with
        calls := Function.update clock.calls caller (some ⟨sample, clock.m_upper⟩) }
  | .write caller =>
    match clock.calls caller with
    | none => clock
    | some call =>
      let upper := nextUpper call.upper (source call.sample)
      { m_upper := upper
        computedFrom := call.sample
        calls := Function.update clock.calls caller none
        returned := clock.returned ++ [(call.sample, extended upper (source call.sample))] }

/-- Every quadrant that is read comes from a sample less than a quarter turn away. -/
def Near (clock : Clock Caller) : Access Caller → Prop
  | .read _ sample => sample < 2 ^ 62 ∧ ((sample : Int) - clock.computedFrom).natAbs < 2 ^ 30
  | .write _ => True

instance (clock : Clock Caller) : (access : Access Caller) → Decidable (Near clock access)
  | .read _ _ => inferInstanceAs (Decidable (_ ∧ _))
  | .write _ => isTrue trivial

def Call.Fresh (call : Call) : Prop :=
  call.sample < 2 ^ 62 ∧ nextUpper call.upper (source call.sample) = quadrant call.sample

structure Exact (clock : Clock Caller) : Prop where
  upper : clock.m_upper = quadrant clock.computedFrom
  calls : ∀ caller call, clock.calls caller = some call → call.Fresh
  returned : ∀ r ∈ clock.returned, r.2.toNat = r.1

theorem Exact.step {clock : Clock Caller} (exact : Exact clock) (access : Access Caller)
    (near : Near clock access) : Exact (step clock access) := by
  cases access with
  | read caller sample =>
    cases busy : clock.calls caller with
    | some call => simpa [WrapAround62.step, busy] using exact
    | none =>
      obtain ⟨fits, near⟩ := near
      have fresh : Call.Fresh ⟨sample, clock.m_upper⟩ := by
        constructor
        · exact fits
        · rw [exact.upper]
          exact nextUpper_quadrant near
      simp only [WrapAround62.step, busy]
      constructor
      · exact exact.upper
      · intro other call found
        simp only [Function.update_apply] at found
        split at found
        · obtain rfl := Option.some.inj found
          exact fresh
        · exact exact.calls other call found
      · exact exact.returned
  | write caller =>
    cases busy : clock.calls caller with
    | none => simpa [WrapAround62.step, busy] using exact
    | some call =>
      obtain ⟨fits, right⟩ := exact.calls caller call busy
      simp only [WrapAround62.step, busy]
      constructor
      · exact right
      · intro other call' found
        simp only [Function.update_apply] at found
        split at found
        · cases found
        · exact exact.calls other call' found
      · intro r hr
        rcases List.mem_append.mp hr with earlier | now
        · exact exact.returned r earlier
        · obtain rfl := List.mem_singleton.mp now
          rw [right]
          exact extended_quadrant fits

omit [DecidableEq Caller] in
theorem exact_initial : Exact (Clock.initial : Clock Caller) := by
  constructor
  · simp [Clock.initial, quadrant]
  · intro caller call found
    cases found
  · intro r hr
    cases hr

/-- Whatever the callers do to each other, every call returns the value its counter reading
stands for. -/
theorem update_exact {accesses : List (Access Caller)}
    (near : Guarded step Near Clock.initial accesses) :
    ∀ r ∈ (accesses.foldl step Clock.initial).returned, r.2.toNat = r.1 :=
  (near.invariant (fun _ access near exact => exact.step access near) exact_initial).returned

/-- Two callers around the middle of a turn: the second overtakes the first, which then stores
an older quadrant. -/
def overtaken : List (Access Bool) :=
  [.read true 1000000000, .write true, .read true 1073741823, .read false 1073741824,
    .write false, .write true, .read false 2147483646, .write false]

theorem update_exact_overtaken : (overtaken.foldl step Clock.initial).returned.length = 4 ∧
    ∀ r ∈ (overtaken.foldl step Clock.initial).returned, r.2.toNat = r.1 :=
  ⟨by decide, update_exact (by decide)⟩

end FomeFw.Timer.WrapAround62
