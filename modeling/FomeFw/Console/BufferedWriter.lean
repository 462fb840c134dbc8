import FomeFw.Lib.FixedArray
import FomeFw.Lib.Machine

/-! `buffered_writer.h`: small blocks are gathered in a buffer, which goes to the underlying
writer when it is full; what would fill an empty buffer goes there at once. -/
namespace FomeFw.Console

/-- `BufferedWriter<TBufferSize>`, with the blocks its `writeInternal` was given. -/
structure BufferedWriter (α : Type) (size : Nat) where
  buffer : FixedArray size α
  bytesUsed : Nat := 0
  blocks : List (List α) := []

/-- A call of one of the two methods. -/
inductive WriterCall (α : Type)
  | write (block : List α)
  | flush

/-- What a call adds to the text to be written. -/
def WriterCall.bytes {α : Type} : WriterCall α → List α
  | .write block => block
  | .flush => []

namespace BufferedWriter

variable {α : Type} {size : Nat} (accepted : List (List α) → List α → Nat)

/-- `accepted` is what `writeInternal` returns, after the blocks it was given before. -/
def writeInternal (w : BufferedWriter α size) (block : List α) : BufferedWriter α size × Nat :=
  ({ w with blocks := w.blocks ++ [block] }, accepted w.blocks block)

/-- The bytes still in the buffer. -/
def pending (w : BufferedWriter α size) : Option (List α) := w.buffer.loadList w.bytesUsed

/-- There is no result where the buffer is left. -/
def flush (w : BufferedWriter α size) : Option (BufferedWriter α size × Nat) :=
  if 0 < w.bytesUsed then do
    let block ← w.pending
    return { w with bytesUsed := 0 }.writeInternal accepted block
  else some (w, 0)

/-- The loop of `write`, with the number of rounds it may make. The sum of `m_bytesUsed` and
`count` does not wrap around, since the buffer and the block are in one address space. -/
def writeLoop (w : BufferedWriter α size) (bytesFlushed : Nat) :
    Nat → List α → Option (BufferedWriter α size × Nat)
  | 0, _ => none
  | _ + 1, [] => some (w, bytesFlushed)
  | rounds + 1, byte :: bytes =>
    let block := byte :: bytes
    if w.bytesUsed = 0 ∧ size ≤ block.length then
      let (w, count) := w.writeInternal accepted block
      w.writeLoop (bytesFlushed + count) rounds []
    else if w.bytesUsed + block.length < size then do
      let buffer ← w.buffer.storeList w.bytesUsed block
      { w with buffer, bytesUsed := w.bytesUsed + block.length }.writeLoop bytesFlushed rounds []
    else do
      let bytesToWrite := size - w.bytesUsed
      let buffer ← w.buffer.storeList w.bytesUsed (block.take bytesToWrite)
      let (w, count) ← { w with buffer, bytesUsed := w.bytesUsed + bytesToWrite }.flush accepted
      w.writeLoop (bytesFlushed + count) rounds (block.drop bytesToWrite)

/-- Every round but the last takes some of the block. -/
def write (w : BufferedWriter α size) (block : List α) : Option (BufferedWriter α size × Nat) :=
  w.writeLoop accepted 0 (block.length + 1) block

def call (w : BufferedWriter α size) : WriterCall α → Option (BufferedWriter α size × Nat)
  | .write block => w.write accepted block
  | .flush => w.flush accepted

def step (w : BufferedWriter α size) (c : WriterCall α) : Option (BufferedWriter α size) :=
  (w.call accepted c).map Prod.fst

/-- The buffer begins with `held`, which leaves a place free in it. -/
structure Keeps (w : BufferedWriter α size) (held : List α) : Prop where
  used : w.bytesUsed = held.length
  room : held = [] ∨ held.length < size
  begins : w.buffer.Begins held

/-- From `w` on, `blocks` were handed to `writeInternal`, and `held` is in the buffer. -/
structure Handed (w w' : BufferedWriter α size) (blocks : List (List α)) (held : List α) : Prop where
  blocks : w'.blocks = w.blocks ++ blocks
  keeps : w'.Keeps held

variable {accepted} {w w' : BufferedWriter α size} {held block : List α}

theorem Keeps.within (keeps : w.Keeps held) : w.bytesUsed ≤ size := by
  rw [keeps.used]
  rcases keeps.room with rfl | room
  · exact Nat.zero_le _
  · exact Nat.le_of_lt room

theorem Keeps.pending (keeps : w.Keeps held) : w.pending = some held := by
  rw [BufferedWriter.pending, keeps.used, keeps.begins.loadList (Nat.le_refl _), List.take_length]

/-- A flush hands over what is in the buffer, were it full. -/
theorem flush_eq (all : ∀ before block, accepted before block = block.length)
    (begins : w.buffer.Begins held) (used : w.bytesUsed = held.length) :
    ∃ w' blocks, w.flush accepted = some (w', blocks.flatten.length) ∧ w.Handed w' blocks [] ∧
      blocks.flatten = held := by
  rw [flush]
  split
  · next some =>
    have block : w.pending = .some held := by
      rw [BufferedWriter.pending, used, begins.loadList (Nat.le_refl _), List.take_length]
    refine ⟨({ w with bytesUsed := 0 }.writeInternal accepted held).1, [held], ?_, ?_, by simp⟩
    · simp [block, writeInternal, all]
    · exact ⟨rfl, rfl, .inl rfl, FixedArray.begins_nil⟩
  · next none =>
    obtain rfl : held = [] := List.eq_nil_of_length_eq_zero (by omega)
    exact ⟨w, [], rfl, ⟨(List.append_nil _).symm, used, .inl rfl, begins⟩, rfl⟩

theorem Handed.trans {first second : List (List α)} {w'' : BufferedWriter α size}
    {rest rest' : List α} (earlier : w.Handed w' first rest) (later : w'.Handed w'' second rest') :
    w.Handed w'' (first ++ second) rest' :=
  ⟨by rw [later.blocks, earlier.blocks, List.append_assoc], later.keeps⟩

theorem Keeps.storeList (keeps : w.Keeps held) (block : List α)
    (room : w.bytesUsed + block.length ≤ size) :
    ∃ buffer, w.buffer.storeList w.bytesUsed block = some buffer ∧ buffer.Begins (held ++ block) := by
  rw [keeps.used] at room ⊢
  exact keeps.begins.storeList room

theorem Keeps.free (keeps : w.Keeps held) (through : ¬ (w.bytesUsed = 0 ∧ size ≤ block.length))
    (full : ¬ w.bytesUsed + block.length < size) : w.bytesUsed < size := by
  have used := keeps.used
  rcases keeps.room with rfl | room
  · rw [List.length_nil] at used
    omega
  · omega

/-- What fills the buffer is handed over with what was in it. -/
theorem Keeps.fill (keeps : w.Keeps held) (all : ∀ before block, accepted before block = block.length)
    (fills : w.bytesUsed + block.length = size) :
    ∃ buffer w' blocks, w.buffer.storeList w.bytesUsed block = some buffer ∧
      { w with buffer, bytesUsed := size }.flush accepted = some (w', blocks.flatten.length) ∧
      w.Handed w' blocks [] ∧ blocks.flatten = held ++ block := by
  obtain ⟨buffer, stored, begins⟩ := keeps.storeList block (Nat.le_of_eq fills)
  have used : size = (held ++ block).length := by
    rw [List.length_append, ← keeps.used]
    exact fills.symm
  obtain ⟨w', blocks, flushed, handed, same⟩ :=
    @flush_eq _ _ _ { w with buffer, bytesUsed := size } _ all begins used
  exact ⟨buffer, w', blocks, stored, flushed, ⟨handed.blocks, handed.keeps⟩, same⟩

/-- What was in the buffer and in the block is handed over up to a rest, which is kept. -/
theorem writeLoop_eq (all : ∀ before block, accepted before block = block.length)
    (keeps : w.Keeps held) {rounds bytesFlushed : Nat} (enough : block.length < rounds) :
    ∃ w' blocks held', w.writeLoop accepted bytesFlushed rounds block =
        some (w', bytesFlushed + blocks.flatten.length) ∧
      w.Handed w' blocks held' ∧ blocks.flatten ++ held' = held ++ block := by
  induction rounds generalizing w held block bytesFlushed with
  | zero => omega
  | succ rounds ih =>
    cases block with
    | nil => exact ⟨w, [], held, rfl, ⟨(List.append_nil _).symm, keeps⟩, by simp⟩
    | cons byte bytes =>
      obtain ⟨last, rfl⟩ : ∃ last, rounds = last + 1 := ⟨rounds - 1, by simp at enough; omega⟩
      rw [writeLoop]
      generalize byte :: bytes = block at *
      split
      · next through =>
        obtain rfl : held = [] := List.eq_nil_of_length_eq_zero (by rw [← keeps.used]; exact through.1)
        refine ⟨(w.writeInternal accepted block).1, [block], [], ?_, ?_, by simp⟩
        · simp [writeInternal, all, writeLoop]
        · exact ⟨rfl, keeps.used, .inl rfl, keeps.begins⟩
      · next through =>
        split
        · next fits =>
          obtain ⟨buffer, stored, begins⟩ := keeps.storeList block (Nat.le_of_lt fits)
          refine ⟨{ w with buffer, bytesUsed := w.bytesUsed + block.length }, [], held ++ block,
            ?_, ⟨(List.append_nil _).symm, ?_⟩, rfl⟩
          · simp [stored, writeLoop]
          · refine ⟨?_, .inr ?_, begins⟩
            · rw [keeps.used, List.length_append]
            · rw [List.length_append, ← keeps.used]
              exact fits
        · next full =>
          -- the buffer has a free place, so that the round takes some of the block
          have free := keeps.free through full
          have whole : w.bytesUsed + (size - w.bytesUsed) = size := by omega
          obtain ⟨buffer, w₁, first, stored, flushed, handed, same⟩ :=
            @Keeps.fill _ _ _ w held (block.take (size - w.bytesUsed)) keeps all
              (by rw [List.length_take]; omega)
          obtain ⟨w₂, rest, held', looped, later, remaining⟩ :=
            @ih w₁ [] (block.drop (size - w.bytesUsed)) handed.keeps
              (bytesFlushed + first.flatten.length) (by rw [List.length_drop]; omega)
          refine ⟨w₂, first ++ rest, held', ?_, handed.trans later, ?_⟩
          · simp only [stored, whole, flushed, looped, Option.bind_eq_bind, Option.bind_some,
              List.flatten_append, List.length_append, Nat.add_assoc]
          · rw [List.flatten_append, List.append_assoc, remaining, same, List.nil_append,
              List.append_assoc, List.take_append_drop]

/-- Each call hands over what was in the buffer and in its block up to a rest, which is kept. -/
theorem call_eq (all : ∀ before block, accepted before block = block.length)
    (keeps : w.Keeps held) (c : WriterCall α) :
    ∃ w' blocks held', w.call accepted c = some (w', blocks.flatten.length) ∧
      w.Handed w' blocks held' ∧ blocks.flatten ++ held' = held ++ c.bytes := by
  cases c with
  | write block =>
    obtain ⟨w', blocks, held', written, handed, same⟩ :=
      @writeLoop_eq _ _ _ _ _ block all keeps (block.length + 1) 0 (Nat.lt_succ_self _)
    rw [Nat.zero_add] at written
    exact ⟨w', blocks, held', written, handed, same⟩
  | flush =>
    obtain ⟨w', blocks, flushed, handed, same⟩ := flush_eq all keeps.begins keeps.used
    exact ⟨w', blocks, [], flushed, handed, by simpa [WriterCall.bytes] using same⟩

/-- The text has gone to `writeInternal`, up to what is in the buffer. -/
def Delivers (w : BufferedWriter α size) (text : List α) : Prop :=
  w.bytesUsed ≤ size ∧ ∃ held, w.pending = some held ∧ w.blocks.flatten ++ held = text

theorem run_eq (all : ∀ before block, accepted before block = block.length)
    (keeps : w.Keeps held) (calls : List (WriterCall α)) :
    ∃ w' blocks held', Machine.run (step accepted) w calls = some w' ∧
      w.Handed w' blocks held' ∧
      blocks.flatten ++ held' = held ++ calls.flatMap WriterCall.bytes := by
  induction calls generalizing w held with
  | nil => exact ⟨w, [], held, rfl, ⟨(List.append_nil _).symm, keeps⟩, by simp⟩
  | cons c calls ih =>
    obtain ⟨w₁, first, held₁, called, handed, same⟩ := call_eq all keeps c
    obtain ⟨w₂, rest, held₂, ran, later, remaining⟩ := ih handed.keeps
    refine ⟨w₂, first ++ rest, held₂, ?_, handed.trans later, ?_⟩
    · rw [Machine.run_cons, step, called]
      exact ran
    · rw [List.flatten_append, List.append_assoc, remaining, ← List.append_assoc, same,
        List.flatMap_cons, List.append_assoc]

/-- After any calls what was written has been delivered in order, and the next call returns the
number of bytes that it hands over. -/
theorem run_delivers (all : ∀ before block, accepted before block = block.length)
    (buffer : FixedArray size α) (calls : List (WriterCall α)) :
    ∃ w, Machine.run (step accepted) { buffer } calls = some w ∧
      w.Delivers (calls.flatMap WriterCall.bytes) ∧
      ∀ c, ∃ w' blocks, w.call accepted c = some (w', blocks.flatten.length) ∧
        w'.blocks = w.blocks ++ blocks := by
  have new : ({ buffer } : BufferedWriter α size).Keeps [] :=
    ⟨rfl, .inl rfl, FixedArray.begins_nil⟩
  obtain ⟨w, blocks, held, ran, handed, same⟩ := run_eq all new calls
  refine ⟨w, ran, ⟨handed.keeps.within, held, handed.keeps.pending, ?_⟩, fun c => ?_⟩
  · rw [handed.blocks, List.nil_append, same, List.nil_append]
  · obtain ⟨w', more, _, called, next, _⟩ := call_eq all handed.keeps c
    exact ⟨w', more, called, next.blocks⟩

/-- A block that fills a buffer of two bytes and more, and a flush. -/
theorem run_delivers_words :
    ∃ w, Machine.run (step fun _ block => block.length)
        ({ buffer := FixedArray.fill 0 } : BufferedWriter Nat 2) [.write [1, 2, 3], .flush] = some w ∧
      w.Delivers [1, 2, 3] ∧
      ∀ c, ∃ w' blocks, w.call (fun _ block => block.length) c = some (w', blocks.flatten.length) ∧
        w'.blocks = w.blocks ++ blocks :=
  run_delivers (fun _ _ => rfl) (FixedArray.fill 0) [.write [1, 2, 3], .flush]

end BufferedWriter

end FomeFw.Console
