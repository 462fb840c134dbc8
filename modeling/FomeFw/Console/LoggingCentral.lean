import FomeFw.Console.TunerStudio
import FomeFw.Containers.Mailbox
import FomeFw.Lib.Machine
import Mathlib.Data.Fintype.Card

/-! Text logging, `loggingcentral.cpp`: a call prints into a line buffer, the flusher copies
line buffers to the output buffer, and the console swaps that for the other one. Memory is
read by position, from the first line buffer on. -/
namespace FomeFw.Console

open Containers Machine

/-- `sizeof(LogLineBuffer)`. -/
abbrev lineBufferSize : Nat := 256

abbrev lineBufferCount : Nat := 24

/-- `LOG_DELIMITER[0]`. -/
abbrev logDelimiter : UInt8 := 0x60

def isprint (c : UInt8) : Bool := 0x20 ≤ c && c ≤ 0x7e

/-- The string at a position. -/
def cString (memory : Nat → UInt8) (position memoryEnd : Nat) : List UInt8 :=
  (bytesAt memory position (memoryEnd - position)).takeWhile (· != 0)

/-- The text is what the format and its arguments come to: at most `size - 1` bytes of it are
stored, and a zero; the result is its length. -/
def chvsnprintf (memory : Nat → UInt8) (str size : Nat) (text : List UInt8) :
    (Nat → UInt8) × Nat :=
  (storeAt memory str (text.take (size - 1) ++ [0]), text.length)

structure LogBuffer where
  m_buffer : Nat → UInt8 := fun _ => 0
  /-- Relative to `m_buffer`. -/
  m_writePtr : Nat := 0

namespace LogBuffer

def length (b : LogBuffer) : Nat := b.m_writePtr

def reset (b : LogBuffer) : LogBuffer :=
  { m_buffer := storeAt b.m_buffer 0 [0], m_writePtr := 0 }

def writeInternal (TBufferSize : Nat) (b : LogBuffer) (buffer : List UInt8) : LogBuffer :=
  let available := TBufferSize - b.length - 1
  let len := min available buffer.length
  let m_buffer := storeAt b.m_buffer (b.m_writePtr + len) [0]
  { m_buffer := storeAt m_buffer b.m_writePtr (buffer.take len), m_writePtr := b.m_writePtr + len }

end LogBuffer

/-- What the build fixes. -/
structure LoggingBuild where
  dlOutputBuffer : Nat
  dlOutputBuffer_pos : 0 < dlOutputBuffer
  efiEnableAsserts : Bool
  /-- Where the memory behind the line buffers ends. -/
  memoryEnd : Nat
  lineBuffers_fit : lineBufferCount * lineBufferSize ≤ memoryEnd

/-- Where the thread of the flusher is. -/
inductive Flusher where
  | fetching
  | writing (line : Fin lineBufferCount)
  | posting (line : Fin lineBufferCount)

/-- The line buffer that was fetched and is not written yet. -/
def Flusher.unwritten : Flusher → List (Fin lineBufferCount)
  | .writing line => [line]
  | _ => []

structure LoggingCentral (api : MailboxApi (Fin lineBufferCount) lineBufferCount) where
  memory : Nat → UInt8
  freeBuffers : api.Mailbox
  filledBuffers : api.Mailbox
  flusher : Flusher := .fetching
  writeBuffer : LogBuffer := {}
  readBuffer : LogBuffer := {}
  /-- The texts of the calls that got a line buffer. -/
  accepted : List (List UInt8) := []
  /-- What the swaps returned; none for a null pointer. -/
  returned : List (Option (List UInt8)) := []

inductive LoggingEvent where
  | efiPrintf (text : List UInt8)
  | flush
  | swapOutputBuffers

namespace LoggingCentral

variable {api : MailboxApi (Fin lineBufferCount) lineBufferCount}

def position (line : Fin lineBufferCount) : Nat := lineBufferSize * line

/-- The loop of `efiPrintfInternal` over `len` bytes. -/
def replaceUnprintable (memory : Nat → UInt8) (position len : Nat) : Nat → UInt8 :=
  fun i =>
    if position ≤ i ∧ i < position + len ∧ isprint (memory i) = false then 0x20 else memory i

/-- What `efiPrintfInternal` does to the memory, with a buffer for the line. -/
def printLine (memory : Nat → UInt8) (line : Fin lineBufferCount) (text : List UInt8) :
    Nat → UInt8 :=
  let printed := chvsnprintf memory (position line) lineBufferSize text
  let len := if printed.2 > lineBufferSize - 1 then lineBufferSize - 1 else printed.2
  replaceUnprintable (storeAt printed.1 (position line + (lineBufferSize - 1)) [logDelimiter])
    (position line) len

def efiPrintfInternal (s : LoggingCentral api) (text : List UInt8) : LoggingCentral api :=
  match api.fetchI s.freeBuffers with
  | (none, freeBuffers) => { s with freeBuffers }
  | (some line, freeBuffers) =>
    { s with
      freeBuffers
      memory := printLine s.memory line text
      filledBuffers := (api.postI s.filledBuffers line).2
      accepted := s.accepted ++ [text] }

variable (build : LoggingBuild)

/-- The flusher up to where it may wait again: for a message, for the mutex, for room. -/
def flush (s : LoggingCentral api) : LoggingCentral api :=
  match s.flusher with
  | .fetching =>
    match api.fetchI s.filledBuffers with
    | (none, filledBuffers) => { s with filledBuffers }
    | (some line, filledBuffers) => { s with filledBuffers, flusher := .writing line }
  | .writing line =>
    { s with
      writeBuffer := s.writeBuffer.writeInternal build.dlOutputBuffer
        (cString s.memory (position line) build.memoryEnd)
      flusher := .posting line }
  | .posting line =>
    match api.postI s.freeBuffers line with
    | (true, freeBuffers) => { s with freeBuffers, flusher := .fetching }
    | (false, freeBuffers) => { s with freeBuffers }

def swapOutputBuffers (s : LoggingCentral api) : LoggingCentral api :=
  let readBuffer := s.writeBuffer
  let actualOutputBufferSize := readBuffer.length
  let expectedOutputSize := (cString readBuffer.m_buffer 0 build.dlOutputBuffer).length
  { s with
    writeBuffer := s.readBuffer.reset
    readBuffer
    returned := s.returned ++
      [if build.efiEnableAsserts ∧ actualOutputBufferSize ≠ expectedOutputSize then none
        else some (bytesAt readBuffer.m_buffer 0 actualOutputBufferSize)] }

def step (s : LoggingCentral api) : LoggingEvent → LoggingCentral api
  | .efiPrintf text => s.efiPrintfInternal text
  | .flush => s.flush build
  | .swapOutputBuffers => s.swapOutputBuffers build

/-- After `startLoggingProcessor`, whatever is in the memory. -/
def start (api : MailboxApi (Fin lineBufferCount) lineBufferCount) (memory : Nat → UInt8) :
    LoggingCentral api where
  memory := memory
  freeBuffers := api.postEach api.empty (List.finRange lineBufferCount)
  filledBuffers := api.empty

/-- A text as its line has it: what does not fit the buffer is cut off, what is not printable
is replaced. -/
def ownLine (text : List UInt8) : List UInt8 :=
  (text.map fun c => if isprint c then c else 0x20).take (lineBufferSize - 1)

/-- The line buffers the flusher has still to write. -/
def inFlight (s : LoggingCentral api) : List (Fin lineBufferCount) :=
  s.flusher.unwritten ++ api.queued s.filledBuffers

/-- Lines one after the other, as far as the output buffer has room. -/
def clipped (lines : List (List UInt8)) : List UInt8 := lines.flatten.take (build.dlOutputBuffer - 1)

/-- The lines of the calls that got a line buffer, in this order, went into what the swaps
returned (a group of lines for each), are in the output buffer, or are in flight. -/
structure LinesIntact (s : LoggingCentral api) : Prop where
  intact : ∃ (groups : List (List (List UInt8))) (opened pending : List (List UInt8)),
    s.accepted.map ownLine = groups.flatten ++ opened ++ pending ∧
    s.returned = groups.map (fun lines => some (clipped build lines)) ∧
    bytesAt s.writeBuffer.m_buffer 0 s.writeBuffer.length = clipped build opened ∧
    pending.length = s.inFlight.length

/-- The text and its zero fit in front of the last byte of the line buffer. -/
def Fits (_ : LoggingCentral api) : LoggingEvent → Prop
  | .efiPrintf text => text.length + 1 < lineBufferSize
  | _ => True

instance (s : LoggingCentral api) : (e : LoggingEvent) → Decidable (s.Fits e)
  | .efiPrintf _ => inferInstanceAs (Decidable (_ < _))
  | .flush => isTrue trivial
  | .swapOutputBuffers => isTrue trivial

end LoggingCentral

section Memory

variable {memory : Nat → UInt8} {bytes : List UInt8} {position i : Nat}

theorem storeAt_outside (outside : i < position ∨ position + bytes.length ≤ i) :
    storeAt memory position bytes i = memory i := by
  rw [storeAt, if_neg]
  omega

theorem storeAt_inside (inside : i < bytes.length) :
    storeAt memory position bytes (position + i) = bytes[i] := by
  rw [storeAt, if_pos (by omega), Nat.add_sub_cancel_left]
  simp [inside]

/-- Bytes that are there, with a zero behind them, are the string. -/
theorem cString_eq {memoryEnd : Nat} (there : ∀ i (h : i < bytes.length), memory (position + i) = bytes[i])
    (ends : memory (position + bytes.length) = 0) (nonzero : 0 ∉ bytes)
    (fits : position + bytes.length < memoryEnd) : cString memory position memoryEnd = bytes := by
  have split : bytesAt memory position (memoryEnd - position) =
      bytes ++ 0 :: bytesAt memory (position + bytes.length + 1)
        (memoryEnd - position - bytes.length - 1) := by
    have size : memoryEnd - position =
        bytes.length + (1 + (memoryEnd - position - bytes.length - 1)) := by omega
    have front : bytesAt memory position bytes.length = bytes := by
      refine List.ext_getElem (by simp [bytesAt]) fun i small inside => ?_
      simp [bytesAt, there i inside]
    rw [bytesAt, size, ← List.range'_append_1, List.map_append, ← List.range'_append_1, List.map_append]
    rw [bytesAt] at front
    rw [front]
    simp [bytesAt, ends]
  have all : ∀ c ∈ bytes, (c != 0) = true := by
    intro c mem
    rw [bne_iff_ne]
    rintro rfl
    exact nonzero mem
  rw [cString, split, List.takeWhile_append_of_pos all]
  simp

end Memory

section Lines

open LoggingCentral

variable {memory : Nat → UInt8} {line other : Fin lineBufferCount} {text : List UInt8} {i : Nat}

def printed (text : List UInt8) : List UInt8 := text.map fun c => if isprint c then c else 0x20

theorem printed_nonzero (text : List UInt8) : 0 ∉ printed text := by
  intro zero
  obtain ⟨c, -, eq⟩ := List.mem_map.mp zero
  split at eq
  · next printable =>
    subst eq
    exact absurd printable (by decide)
  · exact absurd eq (by decide)

theorem ownLine_eq (fits : text.length + 1 < lineBufferSize) : ownLine text = printed text := by
  rw [ownLine, List.take_of_length_le]
  · rfl
  · rw [List.length_map]
    omega

/-- A line buffer with a text that fits. -/
structure HoldsLine (memory : Nat → UInt8) (line : Fin lineBufferCount) (text : List UInt8) : Prop where
  fits : text.length + 1 < lineBufferSize
  stored : ∀ i (h : i < (printed text).length), memory (position line + i) = (printed text)[i]
  ends : memory (position line + text.length) = 0

theorem HoldsLine.cString (holds : HoldsLine memory line text) (build : LoggingBuild) :
    cString memory (position line) build.memoryEnd = ownLine text := by
  have length : (printed text).length = text.length := List.length_map _
  have room := build.lineBuffers_fit
  have below : lineBufferSize * line + lineBufferSize ≤ lineBufferCount * lineBufferSize := by
    have := line.isLt
    rw [← Nat.mul_succ, Nat.mul_comm lineBufferCount]
    exact Nat.mul_le_mul_left _ this
  rw [ownLine_eq holds.fits]
  apply cString_eq
  · exact holds.stored
  · rw [length]
    exact holds.ends
  · exact printed_nonzero text
  · rw [length, position]
    have := holds.fits
    omega

theorem printLine_outside (outside : i < position line ∨ position line + lineBufferSize ≤ i) :
    printLine memory line text i = memory i := by
  have size : lineBufferSize = 256 := rfl
  have stored : (text.take (lineBufferSize - 1) ++ [0]).length ≤ lineBufferSize := by
    rw [List.length_append, List.length_take, List.length_singleton]
    omega
  rw [printLine, replaceUnprintable, if_neg (by split <;> omega),
    storeAt_outside (by rw [List.length_singleton]; omega), chvsnprintf]
  exact storeAt_outside (by omega)

theorem printLine_holds (fits : text.length + 1 < lineBufferSize) :
    HoldsLine (printLine memory line text) line text := by
  have size : lineBufferSize = 256 := rfl
  have whole : text.take (lineBufferSize - 1) = text := List.take_of_length_le (by omega)
  have short : ¬ text.length > lineBufferSize - 1 := by omega
  have stored : ∀ i (h : i < (text ++ [0]).length),
      storeAt (storeAt memory (position line) (text ++ [0])) (position line + (lineBufferSize - 1))
        [logDelimiter] (position line + i) = (text ++ [0])[i] := by
    intro i inside
    have before : i < lineBufferSize - 1 := by
      rw [List.length_append, List.length_singleton] at inside
      omega
    rw [storeAt_outside (by omega), storeAt_inside inside]
  constructor
  · exact fits
  · intro i inside
    have small : i < text.length := by rwa [printed, List.length_map] at inside
    have here := stored i (by rw [List.length_append]; omega)
    rw [List.getElem_append_left small] at here
    simp only [printLine, replaceUnprintable, chvsnprintf, whole, if_neg short, here, printed,
      List.getElem_map]
    cases printable : isprint text[i] with
    | true => simp
    | false =>
      rw [if_pos ⟨by omega, by omega, rfl⟩]
      simp
  · have here := stored text.length (by rw [List.length_append, List.length_singleton]; omega)
    rw [List.getElem_append_right (Nat.le_refl _)] at here
    simp only [printLine, replaceUnprintable, chvsnprintf, whole, if_neg short]
    rw [if_neg (by omega), here]
    simp

/-- Printing into another line buffer does not touch this one. -/
theorem HoldsLine.frame (holds : HoldsLine memory line text) (different : other ≠ line)
    (text' : List UInt8) : HoldsLine (printLine memory other text') line text := by
  have size : lineBufferSize = 256 := rfl
  have fits := holds.fits
  have apart : (other : Nat) < line ∨ (line : Nat) < other := by
    have := Fin.val_ne_of_ne different
    omega
  have outside : ∀ i ≤ text.length, position line + i < position other ∨
      position other + lineBufferSize ≤ position line + i := by
    intro i inside
    rw [position, position, size]
    omega
  constructor
  · exact fits
  · intro i inside
    have small : i < text.length := by rwa [printed, List.length_map] at inside
    rw [printLine_outside (outside i (by omega))]
    exact holds.stored i inside
  · rw [printLine_outside (outside _ (Nat.le_refl _))]
    exact holds.ends

end Lines

section Output

variable {b : LogBuffer} {content line : List UInt8} {TBufferSize : Nat}

/-- What an output buffer has in it, and a zero behind that. -/
structure LogBuffer.Contains (TBufferSize : Nat) (b : LogBuffer) (content : List UInt8) : Prop where
  writePtr : b.m_writePtr = content.length
  stored : ∀ i (h : i < content.length), b.m_buffer i = content[i]
  ends : b.m_buffer content.length = 0
  room : content.length < TBufferSize
  nonzero : 0 ∉ content

theorem LogBuffer.Contains.cString (contains : b.Contains TBufferSize content) :
    cString b.m_buffer 0 TBufferSize = content := by
  apply cString_eq
  · intro i inside
    rw [Nat.zero_add]
    exact contains.stored i inside
  · rw [Nat.zero_add]
    exact contains.ends
  · exact contains.nonzero
  · rw [Nat.zero_add]
    exact contains.room

theorem LogBuffer.Contains.bytes (contains : b.Contains TBufferSize content) :
    bytesAt b.m_buffer 0 b.length = content := by
  refine List.ext_getElem (by simp [bytesAt, LogBuffer.length, contains.writePtr]) fun i _ inside => ?_
  simp [bytesAt, contains.stored i inside]

theorem LogBuffer.reset_contains (room : 0 < TBufferSize) : b.reset.Contains TBufferSize [] := by
  constructor
  · rfl
  · intro i inside
    exact absurd inside (Nat.not_lt_zero i)
  · rfl
  · exact room
  · exact List.not_mem_nil

/-- As much of a line as there is room for. -/
theorem LogBuffer.Contains.writeInternal (contains : b.Contains TBufferSize content)
    (nonzero : 0 ∉ line) :
    (b.writeInternal TBufferSize line).Contains TBufferSize
      (content ++ line.take (TBufferSize - 1 - content.length)) := by
  have ptr := contains.writePtr
  have room := contains.room
  have len : min (TBufferSize - b.length - 1) line.length =
      min (TBufferSize - 1 - content.length) line.length := by
    rw [LogBuffer.length, ptr, Nat.sub_right_comm]
  have taken : line.take (min (TBufferSize - b.length - 1) line.length) =
      line.take (TBufferSize - 1 - content.length) := by
    rw [len, ← List.take_take, List.take_length]
  have taken_length : (line.take (TBufferSize - 1 - content.length)).length =
      min (TBufferSize - b.length - 1) line.length := by
    rw [List.length_take, len]
  constructor
  · rw [List.length_append, taken_length, ← ptr]
    rfl
  · intro i inside
    rw [List.length_append] at inside
    simp only [LogBuffer.writeInternal, taken]
    by_cases old : i < content.length
    · rw [storeAt_outside (by omega), storeAt_outside (by omega), contains.stored i old,
        List.getElem_append_left old]
    · obtain ⟨j, rfl⟩ := Nat.exists_eq_add_of_le (Nat.not_lt.mp old)
      have new : j < (line.take (TBufferSize - 1 - content.length)).length := by omega
      rw [ptr, storeAt_inside new, List.getElem_append_right (by omega)]
      simp only [Nat.add_sub_cancel_left]
  · simp only [LogBuffer.writeInternal, taken]
    rw [List.length_append, storeAt_outside (by omega), taken_length, ← ptr]
    exact @storeAt_inside _ [0] _ 0 (by decide)
  · rw [List.length_append, taken_length, len]
    omega
  · rw [List.mem_append, not_or]
    exact ⟨contains.nonzero, fun zero => nonzero (List.mem_of_mem_take zero)⟩

end Output

section Runs

open LoggingCentral

variable {api : MailboxApi (Fin lineBufferCount) lineBufferCount} {build : LoggingBuild}
  {s : LoggingCentral api} {groups : List (List (List UInt8))} {opened texts : List (List UInt8)}
  {text : List UInt8}

/-- The line buffer the flusher has, written or not. -/
def Flusher.held : Flusher → List (Fin lineBufferCount)
  | .fetching => []
  | .writing line => [line]
  | .posting line => [line]

theorem clipped_nil (build : LoggingBuild) : clipped build [] = [] := List.take_nil

theorem clipped_append (build : LoggingBuild) (opened : List (List UInt8)) (line : List UInt8) :
    clipped build opened ++ line.take (build.dlOutputBuffer - 1 - (clipped build opened).length) =
      clipped build (opened ++ [line]) := by
  rw [clipped, clipped, List.flatten_append, List.flatten_singleton, List.take_append,
    List.length_take]
  congr 2
  omega

theorem ownLine_nonzero (text : List UInt8) : 0 ∉ ownLine text :=
  fun zero => printed_nonzero text (List.mem_of_mem_take zero)

/-- Every line buffer has one owner; the lines in flight are in theirs. -/
structure Balanced (build : LoggingBuild) (s : LoggingCentral api)
    (groups : List (List (List UInt8))) (opened texts : List (List UInt8)) : Prop where
  owned : (api.queued s.freeBuffers ++ (s.flusher.held ++ api.queued s.filledBuffers)).Nodup
  holding : List.Forall₂ (HoldsLine s.memory) s.inFlight texts
  accepted : s.accepted.map ownLine = groups.flatten ++ opened ++ texts.map ownLine
  returned : s.returned = groups.map fun lines => some (clipped build lines)
  output : s.writeBuffer.Contains build.dlOutputBuffer (clipped build opened)

theorem Balanced.count (balanced : Balanced build s groups opened texts) :
    (api.queued s.freeBuffers).length + (s.flusher.held.length + (api.queued s.filledBuffers).length) ≤
      lineBufferCount := by
  have few := balanced.owned.length_le_card
  rwa [Fintype.card_fin, List.length_append, List.length_append] at few

theorem inFlight_subset (s : LoggingCentral api) :
    s.inFlight ⊆ s.flusher.held ++ api.queued s.filledBuffers := by
  rw [inFlight]
  cases s.flusher with
  | fetching => exact List.Subset.refl _
  | writing line => exact List.Subset.refl _
  | posting line => exact List.subset_append_right [line] _

theorem forall₂_frame {memory : Nat → UInt8} {line : Fin lineBufferCount}
    {lines : List (Fin lineBufferCount)} (holding : List.Forall₂ (HoldsLine memory) lines texts)
    (fresh : line ∉ lines) (text : List UInt8) :
    List.Forall₂ (HoldsLine (printLine memory line text)) lines texts := by
  induction holding with
  | nil => exact .nil
  | cons holds _ ih =>
    rw [List.mem_cons, not_or] at fresh
    exact .cons (holds.frame fresh.1 text) (ih fresh.2)

theorem Balanced.efiPrintf (balanced : Balanced build s groups opened texts)
    (fits : text.length + 1 < lineBufferSize) :
    ∃ texts', Balanced build (s.efiPrintfInternal text) groups opened texts' := by
  rw [efiPrintfInternal]
  cases free : api.queued s.freeBuffers with
  | nil =>
    obtain ⟨none, still⟩ := api.fetchI_nil free
    split
    · next freeBuffers fetched =>
      refine ⟨texts, ?_, balanced.holding, balanced.accepted, balanced.returned, balanced.output⟩
      have owned := balanced.owned
      rw [fetched] at still
      rwa [free, ← still] at owned
    · next line freeBuffers fetched =>
      rw [fetched] at none
      cases none
  | cons line rest =>
    obtain ⟨first, left⟩ := api.fetchI_cons free
    split
    · next freeBuffers fetched =>
      rw [fetched] at first
      cases first
    · next line' freeBuffers fetched =>
      rw [fetched] at first left
      obtain rfl := Option.some.inj first
      have count := balanced.count
      have owned := balanced.owned
      rw [free] at count owned
      rw [List.length_cons] at count
      obtain ⟨-, queued⟩ := api.postI_room s.filledBuffers line' (by omega)
      have fresh : line' ∉ s.inFlight := by
        intro mem
        exact (List.nodup_cons.mp owned).1 (List.mem_append_right _ (inFlight_subset s mem))
      refine ⟨texts ++ [text], ?_, ?_, ?_, balanced.returned, balanced.output⟩
      · dsimp only
        rw [queued, left, ← List.append_assoc, ← List.append_assoc]
        refine (List.perm_append_singleton _ _).nodup_iff.mpr ?_
        rwa [List.append_assoc]
      · rw [inFlight]
        dsimp only
        rw [queued, ← List.append_assoc]
        exact List.rel_append (forall₂_frame balanced.holding fresh text)
          (.cons (printLine_holds fits) .nil)
      · dsimp only
        rw [List.map_append, balanced.accepted, List.map_append, List.append_assoc]

theorem Balanced.flush (balanced : Balanced build s groups opened texts) :
    ∃ opened' texts', Balanced build (s.flush build) groups opened' texts' := by
  have owned := balanced.owned
  have holding := balanced.holding
  have count := balanced.count
  rw [inFlight] at holding
  rw [LoggingCentral.flush]
  cases at_ : s.flusher with
  | fetching =>
    rw [at_] at owned holding
    simp only [Flusher.held, Flusher.unwritten, List.nil_append] at owned holding
    cases filled : api.queued s.filledBuffers with
    | nil =>
      obtain ⟨none, still⟩ := api.fetchI_nil filled
      rw [filled] at owned holding
      dsimp only
      split
      · next filledBuffers fetched =>
        rw [fetched] at still
        refine ⟨opened, texts, ?_, ?_, balanced.accepted, balanced.returned, balanced.output⟩
        · dsimp only
          rw [still]
          exact owned
        · rw [inFlight]
          dsimp only
          rw [still]
          exact holding
      · next line filledBuffers fetched =>
        rw [fetched] at none
        cases none
    | cons line rest =>
      obtain ⟨first, left⟩ := api.fetchI_cons filled
      rw [filled] at owned holding
      dsimp only
      split
      · next filledBuffers fetched =>
        rw [fetched] at first
        cases first
      · next line' filledBuffers fetched =>
        rw [fetched] at first left
        obtain rfl := Option.some.inj first
        refine ⟨opened, texts, ?_, ?_, balanced.accepted, balanced.returned, balanced.output⟩
        · dsimp only
          rw [left]
          exact owned
        · rw [inFlight]
          dsimp only
          rw [left]
          exact holding
  | writing line =>
    rw [at_] at owned holding
    cases holding with
    | @cons _ text _ texts holds rest =>
      refine ⟨opened ++ [ownLine text], texts, owned, rest, ?_, balanced.returned, ?_⟩
      · rw [balanced.accepted, List.map_cons]
        simp only [List.append_assoc, List.singleton_append]
      · dsimp only
        rw [holds.cString build, ← clipped_append]
        exact balanced.output.writeInternal (ownLine_nonzero text)
  | posting line =>
    rw [at_] at owned holding count
    simp only [Flusher.held, List.length_singleton] at count
    obtain ⟨taken, queued⟩ := api.postI_room s.freeBuffers line (by omega)
    dsimp only
    split
    · next freeBuffers posted =>
      rw [posted] at queued
      refine ⟨opened, texts, ?_, holding, balanced.accepted, balanced.returned, balanced.output⟩
      dsimp only
      rw [queued, List.append_assoc]
      exact owned
    · next freeBuffers posted =>
      rw [posted] at taken
      cases taken

theorem Balanced.swapOutputBuffers (balanced : Balanced build s groups opened texts) :
    Balanced build (s.swapOutputBuffers build) (groups ++ [opened]) [] texts := by
  have size : s.writeBuffer.length = (cString s.writeBuffer.m_buffer 0 build.dlOutputBuffer).length := by
    rw [balanced.output.cString]
    exact balanced.output.writePtr
  refine ⟨balanced.owned, balanced.holding, ?_, ?_, ?_⟩
  · rw [LoggingCentral.swapOutputBuffers]
    dsimp only
    rw [balanced.accepted, List.flatten_append, List.flatten_singleton, List.append_nil]
  · rw [LoggingCentral.swapOutputBuffers]
    dsimp only
    rw [if_neg (by intro mismatch; exact mismatch.2 size), balanced.output.bytes, balanced.returned,
      List.map_append]
    rfl
  · rw [clipped_nil]
    exact LogBuffer.reset_contains build.dlOutputBuffer_pos

theorem balanced_start (build : LoggingBuild)
    (api : MailboxApi (Fin lineBufferCount) lineBufferCount) (memory : Nat → UInt8) :
    Balanced build (start api memory) [] [] [] := by
  constructor
  · simp only [start, Flusher.held, api.queued_empty, List.append_nil]
    rw [api.queued_postEach, api.queued_empty, List.nil_append]
    exact (List.nodup_finRange _).sublist (List.take_sublist _ _)
  · rw [inFlight]
    simp only [start, Flusher.unwritten, List.nil_append, api.queued_empty]
    exact .nil
  · rfl
  · rfl
  · rw [clipped_nil]
    constructor
    · rfl
    · intro i inside
      exact absurd inside (Nat.not_lt_zero i)
    · rfl
    · exact build.dlOutputBuffer_pos
    · exact List.not_mem_nil

def IsBalanced (build : LoggingBuild) (s : LoggingCentral api) : Prop :=
  ∃ groups opened texts, Balanced build s groups opened texts

theorem IsBalanced.step (balanced : IsBalanced build s) (e : LoggingEvent) (fits : s.Fits e) :
    IsBalanced build (s.step build e) := by
  obtain ⟨groups, opened, texts, balanced⟩ := balanced
  cases e with
  | efiPrintf text =>
    obtain ⟨texts', next⟩ := balanced.efiPrintf fits
    exact ⟨groups, opened, texts', next⟩
  | flush =>
    obtain ⟨opened', texts', next⟩ := balanced.flush
    exact ⟨groups, opened', texts', next⟩
  | swapOutputBuffers => exact ⟨_, [], texts, balanced.swapOutputBuffers⟩

theorem IsBalanced.intact (balanced : IsBalanced build s) : s.LinesIntact build := by
  obtain ⟨groups, opened, texts, balanced⟩ := balanced
  refine ⟨groups, opened, texts.map ownLine, balanced.accepted, balanced.returned,
    balanced.output.bytes, ?_⟩
  rw [List.length_map]
  exact balanced.holding.length_eq.symm

/-- Where every text fits its line buffer together with a zero, lines stay intact. -/
theorem linesIntact (memory : Nat → UInt8) {events : List LoggingEvent}
    (fits : Guarded (LoggingCentral.step build) Fits (start api memory) events) :
    (events.foldl (LoggingCentral.step build) (start api memory)).LinesIntact build := by
  have start : IsBalanced build (start api memory) := ⟨[], [], [], balanced_start build api memory⟩
  have balanced : IsBalanced build (events.foldl (LoggingCentral.step build) _) :=
    fits.invariant (fun s e fits balanced => IsBalanced.step balanced e fits) start
  exact balanced.intact

/-- A small build. -/
def smallLogging : LoggingBuild where
  dlOutputBuffer := 400
  dlOutputBuffer_pos := by decide
  efiEnableAsserts := true
  memoryEnd := 6144
  lineBuffers_fit := by decide

/-- The second line is printed before the first one is written. -/
def overtaking (first second : List UInt8) : List LoggingEvent :=
  [.efiPrintf first, .efiPrintf second, .flush, .flush, .flush, .flush, .flush, .flush,
    .swapOutputBuffers]

theorem linesIntact_overtaking :
    ((overtaking [0x6d, 0x60, 0x0a, 0x60] [0x6d, 0x60, 0x62, 0x60]).foldl
      (LoggingCentral.step smallLogging)
      (start (listMailbox (Fin lineBufferCount) lineBufferCount) fun _ => 0)).LinesIntact
        smallLogging :=
  linesIntact _ (by decide)

/-- What the swaps returned is no more than what was printed. -/
theorem LinesIntact.length_le (intact : s.LinesIntact build) :
    (s.returned.flatMap (·.getD [])).length ≤ (s.accepted.map ownLine).flatten.length := by
  obtain ⟨groups, opened, pending, accepted, returned, -, -⟩ := intact
  have each : ∀ groups : List (List (List UInt8)),
      ((groups.map fun lines => some (clipped build lines)).flatMap (·.getD [])).length ≤
        groups.flatten.flatten.length := by
    intro groups
    induction groups with
    | nil => exact Nat.le_refl 0
    | cons lines groups ih =>
      simp only [List.map_cons, List.flatMap_cons, List.flatten_cons, List.flatten_append,
        List.length_append, Option.getD_some, clipped, List.length_take] at ih ⊢
      omega
  rw [accepted, returned, List.flatten_append, List.flatten_append, List.length_append,
    List.length_append]
  exact (each groups).trans (by omega)

/-- A line of 255 bytes runs on into the next line buffer. -/
theorem overtaking_runsOn :
    ¬ ((overtaking (List.replicate 255 0x61) (List.replicate 20 0x62)).foldl
      (LoggingCentral.step smallLogging)
      (start (listMailbox (Fin lineBufferCount) lineBufferCount) fun _ => 0)).LinesIntact
        smallLogging := by
  intro intact
  have length := LinesIntact.length_le intact
  revert length
  decide +kernel

end Runs

end FomeFw.Console
