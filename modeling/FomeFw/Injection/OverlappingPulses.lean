import FomeFw.Injection.Balance
import FomeFw.Lib.Machine

/-! Pulses that overlap. An output counts, in eight bits, the pulses that have opened and not
closed it. -/
namespace FomeFw.Injection
open Timer Machine

/-- A pulse, and which of its stages are open. -/
structure Pulse where
  ctx : InjectorContext
  isOpen : Stage → Bool

namespace Pulse

/-- `startInjection` opens the second stage only when it is active. -/
def start (ctx : InjectorContext) : Pulse where
  ctx
  isOpen stage := decide (stage = .primary) || ctx.stage2Active

/-- The pulse has the output open. -/
def holds (p : Pulse) (stage : Stage) (idx : Nat) : Bool :=
  p.isOpen stage && p.ctx.outputsMask.toNat.testBit idx

def finish (p : Pulse) (stage : Stage) : Pulse :=
  { p with isOpen := Function.update p.isOpen stage false }

end Pulse

/-- The pulses in the order in which they began. -/
structure Injectors where
  pins : EnginePins := {}
  pulses : List Pulse := []

inductive PulseEvent where
  | startInjection (ctx : InjectorContext)
  | endInjection (pulse : Nat) (nowNt : Tick)
  | endInjectionStage2 (pulse : Nat)

namespace Injectors

/-- A closing comes only for a pulse that is open. -/
def step (port : Port) (s : Injectors) : PulseEvent → Injectors
  | .startInjection ctx =>
    { pins := startInjection ctx s.pins, pulses := s.pulses ++ [.start ctx] }
  | .endInjection k nowNt =>
    match s.pulses[k]? with
    | none => s
    | some p =>
      if p.isOpen .primary then
        { pins := (endInjection port nowNt p.ctx s.pins).1
          pulses := s.pulses.set k (p.finish .primary) }
      else s
  | .endInjectionStage2 k =>
    match s.pulses[k]? with
    | none => s
    | some p =>
      if p.isOpen .secondary then
        { pins := endInjectionStage2 p.ctx s.pins, pulses := s.pulses.set k (p.finish .secondary) }
      else s

/-- How many pulses have an output open. -/
def openOn (s : Injectors) (stage : Stage) (idx : Nat) : Nat :=
  s.pulses.countP (·.holds stage idx)

/-- An output is high just while a pulse has it open, and when none has, its counter is zero. -/
def Counted (s : Injectors) : Prop :=
  ∀ stage idx, ((s.pins.pin stage idx).value = true ↔ 0 < s.openOn stage idx) ∧
    (s.openOn stage idx = 0 → (s.pins.pin stage idx).overlappingCounter = 0)

/-- No output has more than 128 pulses open at once. -/
def Few (s : Injectors) : PulseEvent → Prop
  | .startInjection ctx =>
    ∀ stage idx, (Pulse.start ctx).holds stage idx = true → s.openOn stage idx < 128
  | _ => True

end Injectors

namespace InjectorOutputPin

variable {pin : InjectorOutputPin} {n : Nat}

/-- The counter stands for `n` open pulses, as far as its width goes. -/
structure Counts (pin : InjectorOutputPin) (n : Nat) : Prop where
  counter : pin.overlappingCounter = (n : Int).bmod 256
  value : pin.value = true ↔ 0 < n

theorem Counts.openPin (counts : pin.Counts n) : pin.openPin.Counts (n + 1) := by
  obtain ⟨counter, value⟩ := counts
  have next : (pin.overlappingCounter + 1).bmod 256 = ((n + 1 : Nat) : Int).bmod 256 := by
    rw [counter, Int.bmod_add_bmod]
    push_cast
    rfl
  simp only [InjectorOutputPin.openPin]
  split
  · next overlapping =>
    have before : 0 < n := by
      apply Nat.pos_of_ne_zero
      rintro rfl
      rw [next] at overlapping
      exact absurd overlapping (by decide)
    exact ⟨next, iff_of_true (value.mpr before) n.succ_pos⟩
  · exact ⟨next, by simp⟩

theorem Counts.closePin (counts : pin.Counts (n + 1)) (few : n < 128) : pin.closePin.Counts n := by
  obtain ⟨counter, value⟩ := counts
  have next : (pin.overlappingCounter - 1).bmod 256 = n := by
    rw [counter]
    simp only [Int.bmod]
    omega
  have small : (n : Int) = (n : Int).bmod 256 := by
    simp only [Int.bmod]
    omega
  have kept : ¬ (n : Int) < 0 := by omega
  simp only [InjectorOutputPin.closePin, next]
  by_cases last : n = 0
  · subst last
    exact ⟨rfl, by simp⟩
  · have overlapping : (n : Int) > 0 := by omega
    simp only [overlapping, if_true, kept, if_false]
    exact ⟨small, by simp only [value]; omega⟩

end InjectorOutputPin

namespace Pulse

variable {p : Pulse} {stage other : Stage} {idx : Nat}

theorem start_holds (ctx : InjectorContext) (stage : Stage) (idx : Nat) :
    (start ctx).holds stage idx = true ↔
      ctx.outputsMask.toNat.testBit idx = true ∧ (stage = .primary ∨ ctx.stage2Active = true) := by
  simp [start, holds, and_comm]

theorem finish_holds : (p.finish stage).holds stage idx = false := by
  simp [finish, holds]

theorem finish_holds_other (different : other ≠ stage) :
    (p.finish stage).holds other idx = p.holds other idx := by
  simp [finish, holds, Function.update_of_ne different]

end Pulse

namespace Injectors

variable {port : Port} {s : Injectors} {stage : Stage} {idx : Nat}

/-- Every output counts its open pulses, of which there are not too many. -/
def Matches (s : Injectors) : Prop :=
  ∀ stage idx, (s.pins.pin stage idx).Counts (s.openOn stage idx) ∧ s.openOn stage idx ≤ 128

theorem Matches.counted (matching : s.Matches) : s.Counted := by
  intro stage idx
  obtain ⟨⟨counter, value⟩, -⟩ := matching stage idx
  refine ⟨value, ?_⟩
  intro closed
  rw [counter, closed]
  rfl

theorem Matches.startInjection (matching : s.Matches) {ctx : InjectorContext}
    (few : s.Few (.startInjection ctx)) : (s.step port (.startInjection ctx)).Matches := by
  intro stage idx
  have before := matching stage idx
  have room := few stage idx
  simp only [step, pin_startInjection, openOn, List.countP_append, List.countP_singleton]
  rw [Pulse.start_holds] at room
  simp only [Pulse.start_holds]
  by_cases included : ctx.outputsMask.toNat.testBit idx = true ∧
      (stage = .primary ∨ ctx.stage2Active = true)
  · rw [if_pos included.1, if_pos included.2, if_pos included]
    exact ⟨before.1.openPin, room included⟩
  · rw [if_neg included, Nat.add_zero]
    split_ifs with bit active
    · exact absurd ⟨bit, active⟩ included
    · exact before
    · exact before

/-- Closing a stage of an open pulse. -/
theorem Matches.finish (matching : s.Matches) {k : Nat} {p : Pulse} {closing : Stage}
    (found : s.pulses[k]? = some p) (isOpen : p.isOpen closing = true) {pins : EnginePins}
    (closed : ∀ stage idx, pins.pin stage idx =
      if p.ctx.outputsMask.toNat.testBit idx then
        if stage = closing then (s.pins.pin stage idx).closePin else s.pins.pin stage idx
      else s.pins.pin stage idx) :
    Matches { pins, pulses := s.pulses.set k (p.finish closing) } := by
  intro stage idx
  have before := matching stage idx
  obtain ⟨inside, rfl⟩ := List.getElem?_eq_some_iff.mp found
  have positive : s.pulses[k].holds stage idx = true → 0 < s.openOn stage idx := by
    intro held
    exact List.countP_pos_iff.mpr ⟨_, List.getElem_mem inside, held⟩
  simp only [closed, openOn, List.countP_set inside]
  simp only [openOn] at before positive
  by_cases same : stage = closing
  · subst same
    simp only [if_true, Pulse.finish_holds, Bool.false_eq_true, if_false, Nat.add_zero]
    by_cases bit : s.pulses[k].ctx.outputsMask.toNat.testBit idx = true
    · have held : s.pulses[k].holds stage idx = true := by simp [Pulse.holds, isOpen, bit]
      have one := positive held
      obtain ⟨counts, few⟩ := before
      rw [if_pos bit, if_pos held]
      refine ⟨InjectorOutputPin.Counts.closePin ?_ (by omega), by omega⟩
      rwa [Nat.sub_add_cancel one]
    · have free : ¬ s.pulses[k].holds stage idx = true := by simp [Pulse.holds, bit]
      rw [if_neg bit, if_neg free]
      exact before
  · rw [Pulse.finish_holds_other same]
    simp only [same, if_false, ite_self]
    split_ifs with held
    · rw [Nat.sub_add_cancel (positive held)]
      exact before
    · exact before

theorem Matches.step (matching : s.Matches) {e : PulseEvent} (few : s.Few e) :
    (s.step port e).Matches := by
  cases e with
  | startInjection ctx => exact matching.startInjection few
  | endInjection k nowNt =>
    simp only [Injectors.step]
    split
    · exact matching
    · next p found =>
      split
      · next isOpen =>
        apply matching.finish found isOpen
        intro stage idx
        exact pin_closeInjectors
      · exact matching
  | endInjectionStage2 k =>
    simp only [Injectors.step]
    split
    · exact matching
    · next p found =>
      split
      · next isOpen =>
        apply matching.finish found isOpen
        intro stage idx
        exact pin_endInjectionStage2
      · exact matching

theorem new_matches : Matches {} := by
  intro stage idx
  cases stage <;> exact ⟨⟨by simp [EnginePins.pin, openOn], by simp [EnginePins.pin, openOn]⟩,
    by simp [openOn]⟩

/-- In whatever order pulses open and close, each output is high just while one of them has it
open, as long as no more than 128 of them do. -/
theorem overlaps_counted (port : Port) (events : List PulseEvent)
    (few : Guarded (Injectors.step port) Few {} events) :
    Always (Injectors.step port) Counted {} events := by
  have matching : Always (Injectors.step port) Matches {} events :=
    few.always (fun _ _ few matching => matching.step few) new_matches
  apply matching.mono
  intro s matching
  exact matching.counted

/-- Two overlapping pulses of one output. -/
theorem overlaps_counted_two : Always (Injectors.step ⟨1, by decide⟩) Counted {}
    [.startInjection { outputsMask := 1 }, .startInjection { outputsMask := 1 }, .endInjection 0 0] := by
  apply overlaps_counted
  refine ⟨?_, ?_, trivial, trivial⟩
  · intro stage idx _
    simp [openOn]
  · intro stage idx _
    have short : openOn (Injectors.step ⟨1, by decide⟩ {} (.startInjection { outputsMask := 1 }))
        stage idx ≤ 1 := List.countP_le_length
    omega

theorem starts_counts (port : Port) {ctx : InjectorContext}
    (bit : ctx.outputsMask.toNat.testBit idx = true) (n : Nat) :
    let s := (List.replicate n (PulseEvent.startInjection ctx)).foldl (Injectors.step port) {}
    (s.pins.pin .primary idx).Counts n ∧ s.pulses = List.replicate n (.start ctx) := by
  induction n with
  | zero => exact ⟨⟨rfl, by simp [EnginePins.pin]⟩, rfl⟩
  | succ n ih =>
    obtain ⟨counts, pulses⟩ := ih
    simp only [List.replicate_succ', List.foldl_append, List.foldl_cons, List.foldl_nil,
      Injectors.step, pulses, pin_startInjection]
    rw [if_pos bit, if_pos (.inl trivial)]
    exact ⟨counts.openPin, trivial⟩

/-- With 129 open pulses, the first one to close takes the output low. -/
theorem overlaps_counted_wrapped :
    ¬ ∀ port events, Always (Injectors.step port) Counted {} events := by
  intro always
  let ctx : InjectorContext := { outputsMask := 1 }
  have bit : ctx.outputsMask.toNat.testBit 0 = true := by decide
  let port : Port := ⟨1, by decide⟩
  have final := (always port (List.replicate 129 (.startInjection ctx) ++ [.endInjection 0 0])).final
  obtain ⟨⟨counter, -⟩, pulses⟩ := starts_counts port bit 129
  rw [List.foldl_append, List.foldl_cons, List.foldl_nil] at final
  generalize (List.replicate 129 (PulseEvent.startInjection ctx)).foldl (Injectors.step port)
    ({} : Injectors) = s at final counter pulses
  have ended : Injectors.step port s (.endInjection 0 0) =
      { pins := closeInjectors ctx s.pins
        pulses := (Pulse.start ctx).finish .primary :: List.replicate 128 (.start ctx) } := by
    simp only [Injectors.step, pulses]
    rfl
  have low : ((closeInjectors ctx s.pins).pin .primary 0).value = false := by
    rw [pin_closeInjectors, if_pos bit, if_pos rfl]
    simp [InjectorOutputPin.closePin, counter]
  have held : (Pulse.start ctx).holds .primary 0 = true :=
    (Pulse.start_holds ctx .primary 0).mpr ⟨bit, .inl rfl⟩
  rw [ended] at final
  have high := (final .primary 0).1.mpr (List.countP_pos_iff.mpr ⟨.start ctx, by simp, held⟩)
  rw [low] at high
  exact Bool.false_ne_true high

end Injectors

end FomeFw.Injection
