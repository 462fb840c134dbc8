import FomeFw.Console.OneResponse

/-! What a packet can do to the configuration. The number of bytes a write command stores
comes from its own header, and nothing compares it with the size of the packet. -/
namespace FomeFw.Console

open TunerStudio

variable {fw : Firmware} {readings : Readings} {ts : TunerStudio} {size : Nat}

/-- The packet in the scratch buffer is a chunk write or a value write. -/
def IsWrite (ts : TunerStudio) : Prop :=
  TsCommand.ofCode (ts.scratch 0) = some .chunkWrite ∨
    TsCommand.ofCode (ts.scratch 0) = some .singleWrite

/-- The number of bytes to store. -/
def TunerStudio.writeCount (ts : TunerStudio) : Nat :=
  if TsCommand.ofCode (ts.scratch 0) = some .singleWrite then 1 else ts.word 1

/-- The same packet of `size` bytes, with other bytes behind it. -/
def SamePacket (size : Nat) (ts : TunerStudio) (memory : Nat → UInt8) : Prop :=
  ∀ i < size, memory i = ts.scratch i

def TunerStudio.withScratch (ts : TunerStudio) (memory : Nat → UInt8) : TunerStudio :=
  { ts with channel.scratchBuffer := memory }

/-- Whatever is behind the packet, a byte that changes is one of those addressed, inside
the page, and its new value is that of a byte of the packet behind the header. -/
def StoresPayload (fw : Firmware) (readings : Readings) (ts : TunerStudio) (size : Nat) : Prop :=
  ∀ memory, SamePacket size ts memory →
    let ts := ts.withScratch memory
    let page := (ts.handleCrcCommand fw readings size).1.page
    ∀ address, page address ≠ ts.page address →
      ts.word 0 ≤ address ∧ address < ts.word 0 + ts.writeCount ∧ address < fw.totalConfigSize ∧
        5 + (address - ts.word 0) < size ∧
        page address = ts.scratch (5 + (address - ts.word 0))

/-- A preset was just loaded; or, whatever is behind the packet, what is to be stored is
out of range, nothing, or all in the packet. -/
def WithinPacket (fw : Firmware) (ts : TunerStudio) (size : Nat) : Prop :=
  ts.rebootForPresetPending = true ∨
    ∀ memory, SamePacket size ts memory →
      let ts := ts.withScratch memory
      fw.totalConfigSize < ts.word 0 + ts.writeCount ∨ ts.writeCount = 0 ∨
        5 + ts.writeCount ≤ size

theorem storeAt_bytesAt (memory source : Nat → UInt8) (offset position count i : Nat) :
    storeAt memory offset (bytesAt source position count) i =
      if offset ≤ i ∧ i < offset + count then source (position + (i - offset)) else memory i := by
  have length : (bytesAt source position count).length = count := by simp [bytesAt]
  rw [storeAt, length]
  split
  · next inside =>
    have bound : i - offset < count := by omega
    simp [bytesAt, bound]
  · rfl

/-- The page after a write command. -/
theorem handleCrcCommand_page (write : IsWrite ts) :
    (ts.handleCrcCommand fw readings size).1.page =
      if ts.rebootForPresetPending = true ∨ fw.totalConfigSize < ts.word 0 + ts.writeCount then
        ts.page
      else storeAt ts.page (ts.word 0) (bytesAt ts.scratch 5 ts.writeCount) := by
  rcases write with chunk | single
  · have count : ts.writeCount = ts.word 1 := by simp [writeCount, chunk]
    simp only [handleCrcCommand, chunk, handleWriteChunkCommand, validateOffsetCount, count]
    by_cases outside : fw.totalConfigSize < ts.word 0 + ts.word 1
    · simp [outside, sendErrorCode, send]
    · cases pending : ts.rebootForPresetPending <;>
        simp [outside, pending, sendOkResponse, send]
  · have count : ts.writeCount = 1 := by simp [writeCount, single]
    simp only [handleCrcCommand, single, handleWriteValueCommand, validateOffsetCount, count]
    by_cases outside : fw.totalConfigSize < ts.word 0 + 1
    · simp [outside, sendErrorCode, send]
    · cases pending : ts.rebootForPresetPending <;> simp [outside, pending, bytesAt]

@[simp] theorem withScratch_scratch (memory : Nat → UInt8) (i : Nat) :
    (ts.withScratch memory).scratch i = memory i := rfl

theorem IsWrite.withScratch {memory : Nat → UInt8} (write : IsWrite ts) (valid : 1 ≤ size)
    (same : SamePacket size ts memory) : IsWrite (ts.withScratch memory) := by
  simpa only [IsWrite, withScratch_scratch, same 0 valid] using write

/-- The header is in the first five bytes. -/
theorem header_congr {memory other : Nat → UInt8} (header : ∀ i < 5, other i = memory i) :
    (ts.withScratch other).word 0 = (ts.withScratch memory).word 0 ∧
      (ts.withScratch other).writeCount = (ts.withScratch memory).writeCount := by
  simp [word, writeCount, header]

/-- A byte that changes is addressed, and what it changes to is at its place behind the header. -/
theorem handleCrcCommand_page_changed {address : Nat} (write : IsWrite ts)
    (changed : (ts.handleCrcCommand fw readings size).1.page address ≠ ts.page address) :
    ts.rebootForPresetPending = false ∧ ts.word 0 + ts.writeCount ≤ fw.totalConfigSize ∧
      ts.word 0 ≤ address ∧ address < ts.word 0 + ts.writeCount ∧
      (ts.handleCrcCommand fw readings size).1.page address =
        ts.scratch (5 + (address - ts.word 0)) := by
  rw [handleCrcCommand_page write] at changed ⊢
  split at changed
  · exact absurd rfl changed
  · next stored =>
    rw [if_neg stored, storeAt_bytesAt]
    rw [storeAt_bytesAt] at changed
    simp only [not_or, Bool.not_eq_true, Nat.not_lt] at stored
    split at changed
    · next inside =>
      exact ⟨stored.1, stored.2, inside.1, inside.2, by rw [if_pos inside]⟩
    · exact absurd rfl changed

theorem WithinPacket.storesPayload (within : WithinPacket fw ts size) (write : IsWrite ts)
    (valid : 1 ≤ size) : StoresPayload fw readings ts size := by
  intro memory same ts' page address changed
  obtain ⟨running, fits, above, below, value⟩ :=
    handleCrcCommand_page_changed (write.withScratch valid same) changed
  refine ⟨above, below, Nat.lt_of_lt_of_le below fits, ?_, value⟩
  rcases within with pending | within
  · exact absurd (pending.symm.trans running) (by decide)
  · have inPacket : fw.totalConfigSize < ts'.word 0 + ts'.writeCount ∨ ts'.writeCount = 0 ∨
        5 + ts'.writeCount ≤ size := within memory same
    change ts'.word 0 + ts'.writeCount ≤ _ at fits
    change address < ts'.word 0 + ts'.writeCount at below
    change ts'.word 0 ≤ address at above
    omega

/-- What is stored from behind the packet can be anything. -/
theorem StoresPayload.withinPacket (stores : StoresPayload fw readings ts size) (write : IsWrite ts)
    (valid : 1 ≤ size) : WithinPacket fw ts size := by
  cases pending : ts.rebootForPresetPending with
  | true => exact .inl pending
  | false =>
    refine .inr fun memory same => ?_
    -- the first byte of the content that is not in the packet
    let k := size - 5
    let other : Nat → UInt8 := fun i =>
      if i = 5 + k then ts.page ((ts.withScratch memory).word 0 + k) + 1 else memory i
    have header : ∀ i < 5, other i = memory i := fun i small => if_neg (by omega)
    have same' : SamePacket size ts other := by
      intro i small
      rw [← same i small]
      exact if_neg (by omega)
    obtain ⟨offset, count⟩ := @header_congr ts _ _ header
    refine Decidable.byContradiction fun broken => ?_
    simp only [not_or, Nat.not_lt, Nat.not_le] at broken
    obtain ⟨fits, something, short⟩ := broken
    have byte : ((ts.withScratch other).handleCrcCommand fw readings size).1.page
        ((ts.withScratch memory).word 0 + k) = ts.page ((ts.withScratch memory).word 0 + k) + 1 := by
      rw [handleCrcCommand_page (write.withScratch valid same'), if_neg, storeAt_bytesAt, offset,
        count, if_pos (by omega), withScratch_scratch]
      · exact if_pos (by omega)
      · simpa [withScratch, pending] using Nat.not_lt.mpr (offset ▸ count ▸ fits)
    have changed : ts.page ((ts.withScratch memory).word 0 + k) + 1 ≠
        ts.page ((ts.withScratch memory).word 0 + k) := by simp
    obtain ⟨-, -, -, inside, -⟩ :=
      stores other same' ((ts.withScratch memory).word 0 + k) (byte ▸ changed)
    rw [offset] at inside
    omega

/-- A write keeps to its packet exactly if what it announces is in it. -/
theorem storesPayload_iff (write : IsWrite ts) (valid : 1 ≤ size) :
    StoresPayload fw readings ts size ↔ WithinPacket fw ts size :=
  ⟨fun stores => stores.withinPacket write valid, fun within => within.storesPayload write valid⟩

/-- A chunk write of one byte with that byte in the packet. -/
theorem storesPayload_iff_oneByte :
    IsWrite (receivedPacket [0x43, 0, 0, 1, 0, 7]) ∧
      (StoresPayload smallFirmware nothingReady (receivedPacket [0x43, 0, 0, 1, 0, 7]) 6 ↔
        WithinPacket smallFirmware (receivedPacket [0x43, 0, 0, 1, 0, 7]) 6) :=
  have chunk : IsWrite (receivedPacket [0x43, 0, 0, 1, 0, 7]) := .inl (by decide)
  ⟨chunk, storesPayload_iff chunk (by decide)⟩

/-- A chunk write of one byte in a packet that ends with the header stores the first byte
of its checksum. -/
theorem headerOnly_storesChecksum :
    ¬ StoresPayload smallFirmware nothingReady (receivedPacket [0x43, 0, 0, 1, 0, 7]) 5 := by
  intro stores
  have changed : ((receivedPacket [0x43, 0, 0, 1, 0, 7]).handleCrcCommand smallFirmware
      nothingReady 5).1.page 0 ≠ (receivedPacket [0x43, 0, 0, 1, 0, 7]).page 0 := by decide +kernel
  obtain ⟨-, -, -, inside, -⟩ := stores _ (fun _ _ => rfl) 0 changed
  exact absurd inside (by decide)

end FomeFw.Console
