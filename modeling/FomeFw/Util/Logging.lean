import FomeFw.Lib.FixedArray
import FomeFw.Lib.Machine

/-! `Logging` of `datalogging.cpp`: text is gathered in a buffer and ends with a zero. Positions
are relative to the buffer, and a write outside of it has no result. -/
namespace FomeFw.Util

structure Logging (bufferSize : Nat) where
  buffer : FixedArray bufferSize UInt8
  linePointer : Nat

/-- `chvsnprintf` of what the format and its arguments come to: at most `size - 1` bytes of it are
stored, and a zero, unless `size` is 0; the result is its length. -/
def chvsnprintf {n : Nat} (buffer : FixedArray n UInt8) (str size : Nat) (text : List UInt8) :
    Option (FixedArray n UInt8 × Nat) :=
  if size = 0 then some (buffer, text.length)
  else (buffer.storeList str (text.take (size - 1) ++ [0])).map fun buffer => (buffer, text.length)

namespace Logging

variable {bufferSize : Nat}

def loggingSize (l : Logging bufferSize) : Nat := l.linePointer

/-- The pointer is never behind the end of the buffer. -/
def remainingSize (l : Logging bufferSize) : Nat := bufferSize - l.loggingSize

def validateBuffer (l : Logging bufferSize) (extraLen : Nat) : Bool := l.remainingSize < extraLen + 1

/-- `none` is the null pointer, at which the assertion ends the function. -/
def append (l : Logging bufferSize) : Option (List UInt8) → Option (Logging bufferSize)
  | none => some l
  | some text =>
    if l.validateBuffer text.length then some l
    else do
      let buffer ← l.buffer.storeList l.linePointer (text ++ [0])
      return { buffer, linePointer := l.linePointer + text.length }

def appendPrintf (l : Logging bufferSize) (text : List UInt8) : Option (Logging bufferSize) := do
  let available := l.remainingSize
  let (buffer, written) ← chvsnprintf l.buffer l.linePointer available text
  let linePointer := l.linePointer + if written > available then available else written
  return { buffer := ← buffer.store (bufferSize - 1) 0, linePointer }

def reset (l : Logging bufferSize) : Option (Logging bufferSize) := do
  return { buffer := ← l.buffer.store 0 0, linePointer := 0 }

/-- The constructor, on a buffer with whatever is in it. -/
def new (buffer : FixedArray bufferSize UInt8) : Option (Logging bufferSize) :=
  reset { buffer, linePointer := 0 }

end Logging

inductive LoggingCall where
  | append (text : Option (List UInt8))
  | appendPrintf (text : List UInt8)
  | reset

/-- A logging object with what it was given since it was reset, as far as there was room. -/
structure Logged (bufferSize : Nat) where
  logging : Logging bufferSize
  stored : List UInt8 := []

namespace Logged

variable {bufferSize : Nat}

def apply (l : Logging bufferSize) : LoggingCall → Option (Logging bufferSize)
  | .append text => l.append text
  | .appendPrintf text => l.appendPrintf text
  | .reset => l.reset

/-- `append` refuses what does not fit, `appendPrintf` shortens it; one byte is for the zero. -/
def stores (bufferSize : Nat) (stored : List UInt8) : LoggingCall → List UInt8
  | .append none => stored
  | .append (some text) =>
    if stored.length + text.length < bufferSize then stored ++ text else stored
  | .appendPrintf text => (stored ++ text).take (bufferSize - 1)
  | .reset => []

def step (s : Logged bufferSize) (call : LoggingCall) : Option (Logged bufferSize) :=
  (apply s.logging call).map fun logging => { logging, stored := stores bufferSize s.stored call }

/-- The text stored stands at the start of the buffer, and the pointer at the zero behind it. -/
structure Terminated (s : Logged bufferSize) : Prop where
  pointer : s.logging.linePointer = s.stored.length
  begins : s.logging.buffer.Begins (s.stored ++ [0])

/-- What a call may make of the text stored: a first part of its own text is added, and all of it
where there is room. -/
def MayStore (bufferSize : Nat) (stored : List UInt8) : LoggingCall → List UInt8 → Prop
  | .append none, after => after = stored
  | .append (some text), after | .appendPrintf text, after =>
    ∃ part, part <+: text ∧ after = stored ++ part ∧
      (stored.length + text.length < bufferSize → part = text)
  | .reset, after => after = []

/-- The object is terminated, and the next call stores no other text than its own. -/
structure Usable (s : Logged bufferSize) : Prop where
  terminated : s.Terminated
  next : ∀ call, MayStore bufferSize s.stored call (stores bufferSize s.stored call)

/-- A text printed is shorter than the space that remains. -/
def Fits (s : Logged bufferSize) : LoggingCall → Prop
  | .appendPrintf text => text.length < s.logging.remainingSize
  | _ => True

variable {s s' : Logged bufferSize} {text : List UInt8}

theorem Terminated.inside (terminated : s.Terminated) : s.stored.length < bufferSize := by
  have last := terminated.begins s.stored.length (by simp)
  by_contra outside
  rw [FixedArray.load_outside (Nat.le_of_not_lt outside)] at last
  contradiction

theorem Terminated.remaining (terminated : s.Terminated) :
    s.logging.remainingSize = bufferSize - s.stored.length := by
  rw [Logging.remainingSize, Logging.loggingSize, terminated.pointer]

/-- What is stored at the pointer follows the text. -/
theorem Terminated.storeList (terminated : s.Terminated)
    (room : s.stored.length + text.length < bufferSize) :
    ∃ buffer, s.logging.buffer.storeList s.logging.linePointer (text ++ [0]) = some buffer ∧
      buffer.Begins (s.stored ++ text ++ [0]) := by
  rw [terminated.pointer, List.append_assoc]
  apply FixedArray.Begins.storeList (FixedArray.Begins.of_append terminated.begins)
  rw [List.length_append, List.length_singleton]
  omega

theorem reset_terminated (l : Logging bufferSize) (some : 0 < bufferSize) :
    ∃ l', l.reset = .some l' ∧ (⟨l', []⟩ : Logged bufferSize).Terminated := by
  obtain ⟨buffer, stored⟩ := @FixedArray.store_of_lt _ _ 0 l.buffer some 0
  refine ⟨⟨buffer, 0⟩, ?_, rfl, FixedArray.Begins.store FixedArray.begins_nil stored⟩
  rw [Logging.reset, stored]
  rfl

theorem append_terminated (terminated : s.Terminated) (text : Option (List UInt8)) :
    ∃ l', s.logging.append text = some l' ∧
      (⟨l', stores bufferSize s.stored (.append text)⟩ : Logged bufferSize).Terminated := by
  have inside := terminated.inside
  cases text with
  | none => exact ⟨s.logging, rfl, terminated⟩
  | some text =>
    have room : s.logging.validateBuffer text.length = false ↔
        s.stored.length + text.length < bufferSize := by
      simp only [Logging.validateBuffer, terminated.remaining, decide_eq_false_iff_not]
      omega
    by_cases fits : s.stored.length + text.length < bufferSize
    · obtain ⟨buffer, written, begins⟩ := terminated.storeList fits
      refine ⟨⟨buffer, s.logging.linePointer + text.length⟩, ?_, ?_⟩
      · simp [Logging.append, room.mpr fits, written]
      · rw [stores, if_pos fits]
        exact ⟨by rw [terminated.pointer, List.length_append], begins⟩
    · refine ⟨s.logging, ?_, ?_⟩
      · have refused : s.logging.validateBuffer text.length = true := by
          rw [← Bool.not_eq_false, room]
          exact fits
        simp [Logging.append, refused]
      · rw [stores, if_neg fits]
        exact terminated

/-- What `appendPrintf` does to the buffer and, by the length of the text, to the pointer. -/
theorem appendPrintf_eq (terminated : s.Terminated) (text : List UInt8) : ∃ buffer,
    s.logging.appendPrintf text =
        some ⟨buffer, s.stored.length + min text.length (bufferSize - s.stored.length)⟩ ∧
      buffer.Begins (stores bufferSize s.stored (.appendPrintf text) ++ [0]) := by
  have inside := terminated.inside
  have chars : stores bufferSize s.stored (.appendPrintf text) =
      s.stored ++ text.take (bufferSize - s.stored.length - 1) := by
    rw [stores, List.take_append, List.take_of_length_le (by omega), Nat.sub_right_comm]
  have room : s.stored.length + (text.take (bufferSize - s.stored.length - 1)).length < bufferSize := by
    rw [List.length_take]
    omega
  obtain ⟨buffer, written, begins⟩ := terminated.storeList room
  rw [terminated.pointer] at written
  obtain ⟨buffer', zero⟩ := @FixedArray.store_of_lt _ _ (bufferSize - 1) buffer (by omega) 0
  refine ⟨buffer', ?_, ?_⟩
  · have some : ¬ bufferSize - s.stored.length = 0 := by omega
    have clipped : (if text.length > bufferSize - s.stored.length then bufferSize - s.stored.length
        else text.length) = min text.length (bufferSize - s.stored.length) := by
      split <;> omega
    simp only [Logging.appendPrintf, chvsnprintf, terminated.remaining, terminated.pointer, if_neg some,
      written, Option.map_some, Option.bind_eq_bind, Option.bind_some, zero, clipped]
    rfl
  · rw [chars]
    apply begins.store_same zero
    intro last
    rw [List.length_append, List.length_singleton, List.length_append] at last
    rw [List.getElem_append_right (by rw [List.length_append]; omega)]
    simp

/-- A text printed leaves the pointer at the zero just where it is shorter than the space. -/
theorem appendPrintf_terminated (terminated : s.Terminated) (text : List UInt8) :
    ∃ l', s.logging.appendPrintf text = some l' ∧
      ((⟨l', stores bufferSize s.stored (.appendPrintf text)⟩ : Logged bufferSize).Terminated ↔
        text.length < s.logging.remainingSize) := by
  have inside := terminated.inside
  obtain ⟨buffer, printed, begins⟩ := appendPrintf_eq terminated text
  refine ⟨_, printed, ?_⟩
  rw [terminated.remaining]
  constructor
  · intro after
    have pointer := after.pointer
    simp only [stores, List.length_take, List.length_append] at pointer
    omega
  · intro fits
    refine ⟨?_, begins⟩
    simp only [stores, List.length_take, List.length_append]
    omega

theorem step_terminated (terminated : s.Terminated) (call : LoggingCall) :
    ∃ s', s.step call = some s' ∧ (s'.Terminated ↔ s.Fits call) := by
  cases call with
  | append text =>
    obtain ⟨l', appended, after⟩ := append_terminated terminated text
    exact ⟨_, by rw [step, apply, appended]; rfl, iff_of_true after trivial⟩
  | appendPrintf text =>
    obtain ⟨l', printed, after⟩ := appendPrintf_terminated terminated text
    exact ⟨_, by rw [step, apply, printed]; rfl, after⟩
  | reset =>
    have inside := terminated.inside
    obtain ⟨l', cleared, after⟩ := reset_terminated s.logging (by omega)
    exact ⟨_, by rw [step, apply, cleared]; rfl, iff_of_true after trivial⟩

theorem new_terminated {buffer : FixedArray bufferSize UInt8} {l : Logging bufferSize}
    (made : Logging.new buffer = some l) : (⟨l, []⟩ : Logged bufferSize).Terminated := by
  have present : 0 < bufferSize := by
    by_contra none
    simp [Logging.new, Logging.reset, FixedArray.store, none] at made
  obtain ⟨l', same, terminated⟩ := reset_terminated ⟨buffer, 0⟩ present
  obtain rfl := Option.some.inj (made.symm.trans same)
  exact terminated

theorem Terminated.usable (terminated : s.Terminated) : s.Usable := by
  have inside := terminated.inside
  refine ⟨terminated, ?_⟩
  intro call
  cases call with
  | append text =>
    cases text with
    | none => rfl
    | some text =>
      by_cases fits : s.stored.length + text.length < bufferSize
      · exact ⟨text, List.prefix_refl _, if_pos fits, fun _ => rfl⟩
      · refine ⟨[], List.nil_prefix, ?_, fun room => absurd room fits⟩
        rw [stores, if_neg fits, List.append_nil]
  | appendPrintf text =>
    refine ⟨text.take (bufferSize - 1 - s.stored.length), List.take_prefix _ _, ?_, ?_⟩
    · rw [stores, List.take_append, List.take_of_length_le (by omega)]
    · intro room
      exact List.take_of_length_le (by omega)
  | reset => rfl

/-- Along a run the object stays terminated, with the text stored since the last reset, just where
every text printed is shorter than the space that remains before it. -/
theorem along_iff_fits {buffer : FixedArray bufferSize UInt8} {l : Logging bufferSize}
    (made : Logging.new buffer = some l) (calls : List LoggingCall) :
    Machine.Along step Usable ⟨l, []⟩ calls ↔ Machine.Supervised step Fits ⟨l, []⟩ calls := by
  apply @Machine.along_iff_supervised _ _ _ _ _ _ _ fun _ => Terminated
  · exact fun _ _ terminated => terminated.usable
  · intro _ s call fits terminated
    obtain ⟨s', taken, after⟩ := step_terminated terminated call
    exact ⟨s', taken, after.mpr fits⟩
  · intro _ s call s' terminated taken after
    obtain ⟨s₁, same, fits⟩ := step_terminated terminated call
    obtain rfl := Option.some.inj (taken.symm.trans same)
    exact fits.mp after.terminated
  · exact new_terminated made

theorem along_iff_fits_four : ∃ l, Logging.new (.fill 0 : FixedArray 4 UInt8) = some l ∧
    (Machine.Along step Usable ⟨l, []⟩ [.append (some [1, 2]), .appendPrintf [3], .reset] ↔
      Machine.Supervised step Fits ⟨l, []⟩ [.append (some [1, 2]), .appendPrintf [3], .reset]) :=
  ⟨_, rfl, along_iff_fits rfl [.append (some [1, 2]), .appendPrintf [3], .reset]⟩

/-- A text as long as the space moves the pointer behind the buffer. -/
theorem printed_outside : ∃ l, Logging.new (.fill 0 : FixedArray 4 UInt8) = some l ∧
    ¬ Machine.Along step Usable ⟨l, []⟩ [.appendPrintf [1, 2, 3, 4]] := by
  refine ⟨_, rfl, ?_⟩
  rintro ⟨-, s', taken, after⟩
  obtain ⟨s₁, same, fits⟩ := step_terminated (@new_terminated 4 (.fill 0) _ rfl)
    (.appendPrintf [1, 2, 3, 4])
  obtain rfl := Option.some.inj (taken.symm.trans same)
  have shorter : 4 < 4 := fits.mp after.start.terminated
  omega

/-- What was printed does not matter after a reset. -/
theorem reset_reuses {s : Logged bufferSize} (present : 0 < bufferSize) :
    ∃ s', s.step .reset = some s' ∧ s'.Usable ∧ s'.stored = [] := by
  obtain ⟨l', cleared, terminated⟩ := reset_terminated s.logging present
  exact ⟨⟨l', []⟩, by rw [step, apply, cleared]; rfl, terminated.usable, rfl⟩

end Logged

namespace Logging

variable {bufferSize : Nat} {l : Logging bufferSize} {held text : List UInt8}

/-- Copies up to and with the zero of the text, and checks nothing. -/
def appendFast (l : Logging bufferSize) (text : List UInt8) : Option (Logging bufferSize) := do
  let buffer ← l.buffer.storeList l.linePointer (text ++ [0])
  return { buffer, linePointer := l.linePointer + text.length }

def appendChar (l : Logging bufferSize) (c : UInt8) : Option (Logging bufferSize) := do
  return { buffer := ← l.buffer.store l.linePointer c, linePointer := l.linePointer + 1 }

def terminate (l : Logging bufferSize) : Option (Logging bufferSize) := do
  return { l with buffer := ← l.buffer.store l.linePointer 0 }

/-- What a reader of the buffer comes to before the first zero; there is none where it runs out of
the buffer. -/
def cStringFrom (buffer : FixedArray bufferSize UInt8) (i : Nat) : Nat → Option (List UInt8)
  | 0 => none
  | rounds + 1 => do
    let c ← buffer.load i
    if c = 0 then return []
    else return c :: (← cStringFrom buffer (i + 1) rounds)

def cString (l : Logging bufferSize) : Option (List UInt8) := cStringFrom l.buffer 0 bufferSize

/-- The text is in the buffer, whether or not a zero is behind it. -/
structure Holds (l : Logging bufferSize) (held : List UInt8) : Prop where
  pointer : l.linePointer = held.length
  begins : l.buffer.Begins held

theorem holds_terminated {s : Logged bufferSize} (terminated : s.Terminated) :
    s.logging.Holds s.stored :=
  ⟨terminated.pointer, FixedArray.Begins.of_append terminated.begins⟩

theorem Holds.appendFast (holds : l.Holds held) (room : held.length + text.length < bufferSize) :
    ∃ l', l.appendFast text = some l' ∧ l'.Holds (held ++ text) := by
  have fits : held.length + (text ++ [0]).length ≤ bufferSize := by
    rw [List.length_append, List.length_singleton]
    omega
  obtain ⟨buffer, stored, begins⟩ := holds.begins.storeList fits
  rw [← holds.pointer] at stored
  rw [← List.append_assoc] at begins
  refine ⟨⟨buffer, l.linePointer + text.length⟩, by rw [Logging.appendFast, stored]; rfl, ?_, begins.of_append⟩
  rw [holds.pointer, List.length_append]

theorem Holds.appendChar (holds : l.Holds held) (room : held.length < bufferSize) (c : UInt8) :
    ∃ l', l.appendChar c = some l' ∧ l'.Holds (held ++ [c]) := by
  obtain ⟨buffer, stored⟩ := @FixedArray.store_of_lt _ _ held.length l.buffer room c
  have begins := holds.begins.store stored
  rw [← holds.pointer] at stored
  refine ⟨⟨buffer, l.linePointer + 1⟩, by rw [Logging.appendChar, stored]; rfl, ?_, begins⟩
  rw [holds.pointer, List.length_append, List.length_singleton]

theorem Holds.terminate (holds : l.Holds held) (room : held.length < bufferSize) :
    ∃ l', l.terminate = some l' ∧ (⟨l', held⟩ : Logged bufferSize).Terminated := by
  obtain ⟨buffer, stored⟩ := @FixedArray.store_of_lt _ _ held.length l.buffer room 0
  have begins := holds.begins.store stored
  rw [← holds.pointer] at stored
  exact ⟨⟨buffer, l.linePointer⟩, by rw [Logging.terminate, stored]; rfl, holds.pointer, begins⟩

theorem cStringFrom_eq {buffer : FixedArray bufferSize UInt8} {rounds : Nat}
    (begins : buffer.Begins (held ++ text ++ [0])) (nonzero : 0 ∉ text) (enough : text.length < rounds) :
    cStringFrom buffer held.length rounds = some text := by
  induction text generalizing held rounds with
  | nil =>
    obtain ⟨rounds, rfl⟩ := Nat.exists_eq_succ_of_ne_zero (Nat.ne_of_gt enough)
    have zero := begins held.length (by simp)
    rw [cStringFrom, zero]
    simp
  | cons c text ih =>
    obtain ⟨rounds, rfl⟩ := Nat.exists_eq_succ_of_ne_zero (Nat.ne_of_gt (Nat.zero_lt_of_lt enough))
    have next := begins held.length (by simp)
    have other : c ≠ 0 := fun zero => nonzero (zero ▸ List.mem_cons_self)
    have rest := @ih (held ++ [c]) rounds (by simpa using begins)
      (fun member => nonzero (List.mem_cons_of_mem c member)) (by simpa using enough)
    rw [List.length_append, List.length_singleton] at rest
    rw [cStringFrom, next, rest]
    simp [other]

/-- The text of a terminated object is what a reader gets. -/
theorem cString_terminated (terminated : (⟨l, held⟩ : Logged bufferSize).Terminated) (nonzero : 0 ∉ held) :
    l.cString = some held :=
  @cStringFrom_eq bufferSize [] held l.buffer bufferSize terminated.begins nonzero terminated.inside

end Logging

end FomeFw.Util
