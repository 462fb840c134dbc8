import FomeFw.Can.Receiver

/-! What the receiver's switch makes of the frames the sender builds. `Carries`
relates the state of the multi-frame message and the frames still to come to the
bytes they will yield; whole messages carry their bytes from any state. -/
namespace FomeFw.Can

/-- The frames to come yield `bytes` to a receiver whose message state is
`waiting` and `index`; each of them between one and seven. -/
inductive Carries : (waiting : Int) → (index : Nat) → List CanFrame → List UInt8 → Prop
  | nil : Carries waiting index [] []
  | cons {payload : Payload} (valid : 1 ≤ frame.DLC)
      (opened : ∀ s : CanStreamerState, s.waitingForNumBytes = waiting →
        s.waitingForFrameIndex = index → s.openFrame frame = some payload)
      (positive : 0 < payload.numBytesAvailable) (few : payload.numBytesAvailable ≤ 7)
      (rest : Carries (payload.waitingForNumBytes - payload.numBytesAvailable)
        payload.waitingForFrameIndex frames bytes) :
      Carries waiting index (frame :: frames)
        (frame.bytes payload.srcOffset payload.numBytesAvailable ++ bytes)

/-- Frames of whole messages: what they carry depends on no earlier frame. -/
def Stream (frames : List CanFrame) (bytes : List UInt8) : Prop :=
  ∀ waiting index, Carries waiting index frames bytes

variable {s : CanStreamerState} {frame : CanFrame} {frames more : List CanFrame}
  {header : IsoTpFrameHeader} {data bytes bytes' : List UInt8} {waiting : Int}
  {index count : Nat}

theorem stream_nil : Stream [] [] := fun _ _ => .nil

theorem Carries.append (carries : Carries waiting index frames bytes)
    (stream : Stream more bytes') : Carries waiting index (frames ++ more) (bytes ++ bytes') := by
  induction carries with
  | nil => exact stream _ _
  | cons valid opened positive few rest ih =>
    rw [List.append_assoc]
    exact .cons valid opened positive few ih

theorem Stream.append (stream : Stream frames bytes) (next : Stream more bytes') :
    Stream (frames ++ more) (bytes ++ bytes') :=
  fun waiting index => (stream waiting index).append next

theorem FrameLayout.valid (layout : FrameLayout) : 1 ≤ (layout.frame data count).DLC :=
  Nat.succ_pos 7

/-- The data bytes of a frame are read back from behind its header. -/
theorem FrameLayout.bytes_frame (layout : FrameLayout) (enough : count ≤ data.length) :
    (layout.frame data count).bytes layout.offset count = data.take count := by
  refine List.ext_getElem (by simp [enough]) fun i inside bound => ?_
  simp only [CanFrame.length_bytes] at inside
  have stored : i < data.length := by omega
  have behind : ¬ layout.offset + i < layout.offset := by omega
  simp [CanFrame.bytes, FrameLayout.frame, inside, stored, behind]

section Header

theorem nibbles : ∀ high < 16, ∀ low < 16,
    ((UInt8.ofNat (((high &&& 0xf) <<< 4) ||| low)).toNat >>> 4) &&& 0xf = high ∧
      (UInt8.ofNat (((high &&& 0xf) <<< 4) ||| low)).toNat &&& 0xf = low := by
  decide +kernel

theorem and_nibble (n : Nat) : n &&& 0xf = n % 16 :=
  Nat.and_two_pow_sub_one_eq_mod n 4

theorem and_nibble_lt (n : Nat) : n &&& 0xf < 16 := by
  rw [and_nibble]
  omega

theorem twelveBits {n : Nat} (small : n < 4096) :
    (((n >>> 8) &&& 0xf) <<< 8) ||| (UInt8.ofNat (n &&& 0xff)).toNat = n := by
  have high : (n >>> 8) &&& 0xf = n / 256 := by
    rw [Nat.shiftRight_eq_div_pow, and_nibble]
    omega
  have low : (UInt8.ofNat (n &&& 0xff)).toNat = n % 256 := by
    rw [show n &&& 0xff = n % 256 from Nat.and_two_pow_sub_one_eq_mod n 8]
    simp
  rw [high, low, ← Nat.shiftLeft_add_eq_or_of_lt (by omega), Nat.shiftLeft_eq]
  omega

theorem IsoTpFrameType.code_lt (frameType : IsoTpFrameType) : frameType.code < 16 := by
  cases frameType <;> decide

@[simp] theorem IsoTpFrameType.ofCode_code (frameType : IsoTpFrameType) :
    ofCode frameType.code = some frameType := by
  cases frameType <;> rfl

/-- The low nibble of the first byte that `sendFrame` writes. -/
def IsoTpFrameHeader.lowNibble (header : IsoTpFrameHeader) : Nat :=
  match header.frameType with
  | .single => min header.numBytes 7
  | .first => (header.numBytes >>> 8) &&& 0xf
  | .consecutive => header.index &&& 0xf
  | .flowControl => header.fcFlag &&& 0xf

theorem IsoTpFrameHeader.lowNibble_lt (header : IsoTpFrameHeader) : header.lowNibble < 16 := by
  unfold lowNibble
  split
  · omega
  all_goals exact and_nibble_lt _

theorem IsoTpFrameHeader.firstByte (header : IsoTpFrameHeader) :
    (header.layout.frame data count).data8 0 =
      UInt8.ofNat (((header.frameType.code &&& 0xf) <<< 4) ||| header.lowNibble) := by
  obtain ⟨frameType, numBytes, index, fcFlag, blockSize, separationTime⟩ := header
  cases frameType <;> simp [FrameLayout.frame, layout, lowNibble]

@[simp] theorem IsoTpFrameHeader.typeNibble_frame :
    (header.layout.frame data count).typeNibble = header.frameType.code := by
  simp only [CanFrame.typeNibble, header.firstByte]
  exact (nibbles _ header.frameType.code_lt _ header.lowNibble_lt).1

@[simp] theorem IsoTpFrameHeader.lowNibble_frame :
    (header.layout.frame data count).lowNibble = header.lowNibble := by
  simp only [CanFrame.lowNibble, header.firstByte]
  exact (nibbles _ header.frameType.code_lt _ header.lowNibble_lt).2

theorem IsoTpFrameHeader.firstLength_frame (first : header.frameType = .first)
    (small : header.numBytes < 4096) :
    (header.layout.frame data count).firstLength = header.numBytes := by
  have second : (header.layout.frame data count).data8 1 =
      UInt8.ofNat (header.numBytes &&& 0xff) := by
    simp [FrameLayout.frame, layout, first]
  simp only [CanFrame.firstLength, lowNibble_frame, second, lowNibble, first]
  exact twelveBits small

end Header

section Messages

theorem CanStreamerState.openFrame_single (single : header.frameType = .single) :
    s.openFrame (header.layout.frame data count) = some
      { frameType := .single
        srcOffset := 1
        numBytesAvailable := min header.numBytes 7
        waitingForNumBytes := -1
        waitingForFrameIndex := s.waitingForFrameIndex } := by
  simp [openFrame, single, IsoTpFrameHeader.lowNibble]

theorem CanStreamerState.openFrame_first (first : header.frameType = .first)
    (small : header.numBytes < 4096) :
    s.openFrame (header.layout.frame data count) = some
      { frameType := .first
        srcOffset := 2
        numBytesAvailable := min header.numBytes 6
        waitingForNumBytes := header.numBytes
        waitingForFrameIndex := 1 } := by
  simp [openFrame, first, header.firstLength_frame first small]

theorem CanStreamerState.openFrame_consecutive (consecutive : header.frameType = .consecutive)
    (waits : 0 ≤ s.waitingForNumBytes) (next : s.waitingForFrameIndex = header.index &&& 0xf) :
    s.openFrame (header.layout.frame data count) = some
      { frameType := .consecutive
        srcOffset := 1
        numBytesAvailable := (min s.waitingForNumBytes 7).toNat
        waitingForNumBytes := s.waitingForNumBytes
        waitingForFrameIndex := (s.waitingForFrameIndex + 1) &&& 0xf } := by
  have inSequence : ¬ (s.waitingForNumBytes < 0 ∨ s.waitingForFrameIndex ≠ header.lowNibble) := by
    simp only [IsoTpFrameHeader.lowNibble, consecutive, ← next]
    omega
  simp [openFrame, consecutive, inSequence]

/-- A short message travels in one frame. -/
theorem stream_single (single : header.frameType = .single)
    (announced : header.numBytes = data.length) (positive : 0 < data.length)
    (short : data.length ≤ 7) : Stream [header.layout.frame data data.length] data := by
  intro waiting index
  have fits : min header.numBytes 7 = data.length := by omega
  have offset : header.layout.offset = 1 := by simp [IsoTpFrameHeader.layout, single]
  have payload := header.layout.bytes_frame (Nat.le_refl data.length)
  have carried := @Carries.cons waiting index (header.layout.frame data data.length) _ _ _
    header.layout.valid
    (fun s _ sameIndex => by
      rw [s.openFrame_single single, fits, sameIndex])
    positive short .nil
  rwa [← offset, payload, List.take_length, List.append_nil] at carried

/-- The first frame of a long message, in front of the frames for its rest. -/
theorem stream_first (first : header.frameType = .first)
    (announced : header.numBytes = data.length) (long : 7 < data.length)
    (small : data.length < 4096)
    (rest : Carries ((data.drop 6).length) 1 frames (data.drop 6)) :
    Stream (header.layout.frame data 6 :: frames) data := by
  intro waiting index
  have fits : min header.numBytes 6 = 6 := by omega
  have offset : header.layout.offset = 2 := by simp [IsoTpFrameHeader.layout, first]
  have payload := @FrameLayout.bytes_frame data 6 header.layout (by omega)
  have remaining : (header.numBytes : Int) - (6 : Nat) = (data.drop 6).length := by
    simp only [List.length_drop]
    omega
  have carried := @Carries.cons waiting index (header.layout.frame data 6) _ _ _ header.layout.valid
    (fun s _ _ => by rw [s.openFrame_first first (by omega), fits])
    (Nat.succ_pos 5) (Nat.le_succ 6) (remaining ▸ rest)
  rwa [← offset, payload, List.take_append_drop] at carried

/-- A consecutive frame in front of those for the rest of its message. -/
theorem carries_consecutive (consecutive : header.frameType = .consecutive)
    (sequence : header.index = index &&& 0xf) (count_eq : count = min data.length 7)
    (positive : 0 < data.length)
    (rest : Carries ((data.drop count).length) ((index + 1) &&& 0xf) frames (data.drop count)) :
    Carries data.length (index &&& 0xf) (header.layout.frame data count :: frames) data := by
  have offset : header.layout.offset = 1 := by simp [IsoTpFrameHeader.layout, consecutive]
  have payload := @FrameLayout.bytes_frame data count header.layout (by omega)
  have remaining : (data.length : Int) - count = (data.drop count).length := by
    simp only [List.length_drop]
    omega
  have fits : (min (data.length : Int) 7).toNat = count := by omega
  have nextIndex : ((index &&& 0xf) + 1) &&& 0xf = (index + 1) &&& 0xf := by
    simp only [and_nibble]
    omega
  have carried := @Carries.cons _ _ (header.layout.frame data count) frames
    (data.drop count) _ header.layout.valid
    (fun s (waits : s.waitingForNumBytes = (data.length : Int))
        (sameIndex : s.waitingForFrameIndex = index &&& 0xf) => by
      rw [s.openFrame_consecutive consecutive (by omega)
        (by rw [sameIndex, sequence, and_nibble, and_nibble, Nat.mod_mod]), waits, sameIndex, fits,
        nextIndex])
    (by simp only; omega) (by simp only; omega) (by simpa only [remaining] using rest)
  rwa [← offset, payload, List.take_append_drop] at carried

end Messages

end FomeFw.Can
