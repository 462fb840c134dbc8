import FomeFw.Can.RoundTrip

/-! The console's side of ISO-TP, `IsoTpCanDecoder` and `IsoTpConnector`. Bytes of Java are
signed: read as an `int` they are extended by their sign. -/
namespace FomeFw.Can

/-- A `byte` where an `int` is needed. -/
def int (byte : UInt8) : BitVec 32 := byte.toBitVec.signExtend 32

inductive DecodeException where
  | abnormalSituation (waitingForNumBytes : Int) (waitingForFrameIndex frameIdx : Nat)
  | flowControl (flowStatus : Nat) (blockSize separationTime : Int)
  | unknownFrameType
  /-- `Arrays.copyOfRange`, when the range ends before it starts. -/
  | illegalArgument (first last : Int)
  | arrayIndexOutOfBounds
  deriving DecidableEq, Repr

/-- `Arrays.copyOfRange(data, first, last)`: zeros where `data` ends. -/
def copyOfRange (data : List UInt8) (first : Nat) (last : Int) : Except DecodeException (List UInt8) :=
  if last < first then .error (.illegalArgument first last)
  else if data.length < first then .error .arrayIndexOutOfBounds
  else .ok ((List.range' first (last - first).toNat).map fun i => data.getD i 0)

structure IsoTpCanDecoder where
  waitingForNumBytes : Int := 0
  waitingForFrameIndex : Nat := 0

namespace IsoTpCanDecoder

def frameType (data0 : UInt8) : Nat := (((int data0).sshiftRight 4) &&& 0xf).toNat

def lowNibble (data0 : UInt8) : Nat := (int data0 &&& 0xf).toNat

/-- `((data[0] & 0xf) << 8) | data[1]`. -/
def firstLength (data0 data1 : UInt8) : Int := (((int data0 &&& 0xf) <<< 8) ||| int data1).toInt

def decodePacket (d : IsoTpCanDecoder) (data : List UInt8) :
    IsoTpCanDecoder × Except DecodeException (List UInt8) :=
  match data with
  | [] => (d, .error .arrayIndexOutOfBounds)
  | data0 :: behind =>
    match frameType data0 with
    | 0 =>
      let numBytesAvailable := lowNibble data0
      ({ d with waitingForNumBytes := 0 }, copyOfRange data 1 (1 + numBytesAvailable))
    | 1 =>
      match behind with
      | [] => (d, .error .arrayIndexOutOfBounds)
      | data1 :: _ =>
        let waitingForNumBytes := firstLength data0 data1
        let numBytesAvailable := min waitingForNumBytes 6
        ({ waitingForNumBytes := waitingForNumBytes - numBytesAvailable, waitingForFrameIndex := 1 },
          copyOfRange data 2 (2 + numBytesAvailable))
    | 2 =>
      let frameIdx := lowNibble data0
      if d.waitingForNumBytes < 0 ∨ d.waitingForFrameIndex ≠ frameIdx then
        (d, .error (.abnormalSituation d.waitingForNumBytes d.waitingForFrameIndex frameIdx))
      else
        let numBytesAvailable := min d.waitingForNumBytes 7
        ({ waitingForNumBytes := d.waitingForNumBytes - numBytesAvailable
           waitingForFrameIndex := (d.waitingForFrameIndex + 1) &&& 0xf },
          copyOfRange data 1 (1 + numBytesAvailable))
    | 3 =>
      match behind with
      | data1 :: data2 :: _ =>
        let flowStatus := lowNibble data0
        let blockSize := (int data1).toInt
        let separationTime := (int data2).toInt
        if flowStatus = 0 ∧ blockSize = 0 ∧ separationTime = 0 then (d, .ok [])
        else (d, .error (.flowControl flowStatus blockSize separationTime))
      | _ => (d, .error .arrayIndexOutOfBounds)
    | _ => (d, .error .unknownFrameType)

/-- Frame after frame, until an exception. -/
def decodePackets (d : IsoTpCanDecoder) : List (List UInt8) → Except DecodeException (List UInt8)
  | [] => .ok []
  | packet :: packets =>
    match d.decodePacket packet with
    | (_, .error exception) => .error exception
    | (d, .ok bytes) => (d.decodePackets packets).map fun more => bytes ++ more

end IsoTpCanDecoder

namespace IsoTpConnector

def combineArrays (hdr data : List UInt8) (dataOffset dataLength : Nat) : List UInt8 :=
  hdr ++ (data.drop dataOffset).take dataLength

/-- The loop of `sendStrategy`; `fuel` is the number of iterations it may make. -/
def sendConsecutive (bytes : List UInt8) : (fuel idx offset remaining : Nat) → List (List UInt8)
  | 0, _, _, _ => []
  | fuel + 1, idx, offset, remaining =>
    if remaining > 0 then
      let len := min remaining 7
      combineArrays [UInt8.ofNat ((2 <<< 4) ||| (idx &&& 0x0f))] bytes offset len ::
        sendConsecutive bytes fuel (idx + 1) (offset + len) (remaining - len)
    else []

/-- The frames sent. The flow control frame is awaited, and not looked at. -/
def sendStrategy (bytes : List UInt8) : List (List UInt8) :=
  if bytes.length ≤ 7 then
    [combineArrays [UInt8.ofNat ((0 <<< 4) ||| bytes.length)] bytes 0 bytes.length]
  else
    combineArrays [UInt8.ofNat ((1 <<< 4) ||| ((bytes.length >>> 8) &&& 0x0f)),
        UInt8.ofNat (bytes.length &&& 0xff)] bytes 0 6 ::
      sendConsecutive bytes bytes.length 1 6 (bytes.length - 6)

end IsoTpConnector

/-- Consecutive frames for `data`, whatever stands behind the data in a frame. -/
inductive Continues : (index : Nat) → (data : List UInt8) → List (List UInt8) → Prop
  | nil {index : Nat} : Continues index [] []
  | cons {index : Nat} {data : List UInt8} {frames : List (List UInt8)} (padding : List UInt8)
      (positive : 0 < data.length) (rest : Continues (index + 1) (data.drop 7) frames) :
      Continues index data
        ((UInt8.ofNat ((2 <<< 4) ||| (index &&& 0xf)) :: (data.take 7 ++ padding)) :: frames)

/-- The frames of a whole message. -/
inductive Segmented (data : List UInt8) : List (List UInt8) → Prop
  | single (padding : List UInt8) (short : data.length ≤ 7) :
      Segmented data [UInt8.ofNat ((0 <<< 4) ||| data.length) :: (data ++ padding)]
  | first {frames : List (List UInt8)} (padding : List UInt8) (long : 7 < data.length)
      (rest : Continues 1 (data.drop 6) frames) :
      Segmented data
        ((UInt8.ofNat ((1 <<< 4) ||| ((data.length >>> 8) &&& 0xf)) ::
          UInt8.ofNat (data.length &&& 0xff) :: (data.take 6 ++ padding)) :: frames)

section Decoder

open IsoTpCanDecoder

theorem signed_nibbles : ∀ high < 3, ∀ low < 16,
    frameType (UInt8.ofNat ((high <<< 4) ||| low)) = high ∧
      lowNibble (UInt8.ofNat ((high <<< 4) ||| low)) = low := by
  decide +kernel

theorem firstLength_eq : ∀ high < 16, ∀ low < 256,
    firstLength (UInt8.ofNat ((1 <<< 4) ||| high)) (UInt8.ofNat low) =
      if low < 128 then (high * 256 + low : Int) else (low : Int) - 256 := by
  decide +kernel

variable {d : IsoTpCanDecoder} {data chunk padding : List UInt8} {frames : List (List UInt8)}
  {index : Nat}

/-- The range behind a header. -/
theorem copyOfRange_behind (hdr chunk padding : List UInt8) :
    copyOfRange (hdr ++ (chunk ++ padding)) hdr.length (hdr.length + chunk.length) = .ok chunk := by
  have length : ((hdr.length : Int) + chunk.length - hdr.length).toNat = chunk.length := by omega
  rw [copyOfRange, if_neg (by omega), if_neg (by simp), length]
  congr 1
  refine List.ext_getElem (by simp) fun i inside bound => ?_
  have there : (hdr ++ (chunk ++ padding))[hdr.length + i]? = some chunk[i] := by
    rw [List.getElem?_append_right (by omega), Nat.add_sub_cancel_left,
      List.getElem?_append_left bound, List.getElem?_eq_getElem bound]
  simp [there]

theorem decodePacket_single (short : data.length ≤ 7) :
    d.decodePacket (UInt8.ofNat ((0 <<< 4) ||| data.length) :: (data ++ padding)) =
      ({ d with waitingForNumBytes := 0 }, .ok data) := by
  obtain ⟨type, low⟩ := signed_nibbles 0 (by decide) data.length (by omega)
  have copied := copyOfRange_behind [UInt8.ofNat ((0 <<< 4) ||| data.length)] data padding
  simp only [decodePacket, type, low]
  rw [← copied]
  rfl

theorem decodePacket_consecutive (positive : 0 < data.length)
    (waits : d.waitingForNumBytes = data.length) (next : d.waitingForFrameIndex = index &&& 0xf) :
    d.decodePacket (UInt8.ofNat ((2 <<< 4) ||| (index &&& 0xf)) :: (data.take 7 ++ padding)) =
      (⟨(data.drop 7).length, (index + 1) &&& 0xf⟩, .ok (data.take 7)) := by
  obtain ⟨type, low⟩ := signed_nibbles 2 (by decide) (index &&& 0xf) (and_nibble_lt index)
  have inSequence :
      ¬ (d.waitingForNumBytes < 0 ∨ d.waitingForFrameIndex ≠ index &&& 0xf) := by omega
  have copied := copyOfRange_behind [UInt8.ofNat ((2 <<< 4) ||| (index &&& 0xf))] (data.take 7) padding
  have available : min d.waitingForNumBytes 7 = ((data.take 7).length : Int) := by
    rw [waits, List.length_take]
    omega
  have left : d.waitingForNumBytes - ((data.take 7).length : Int) = (data.drop 7).length := by
    rw [waits, List.length_take, List.length_drop]
    omega
  have wraps : ((index &&& 0xf) + 1) &&& 0xf = (index + 1) &&& 0xf := by
    simp only [and_nibble]
    omega
  simp only [decodePacket, type, low]
  rw [if_neg inSequence, available, left, next, wraps, ← copied]
  rfl

theorem Continues.decodes (continues : Continues index data frames)
    (waits : d.waitingForNumBytes = data.length) (next : d.waitingForFrameIndex = index &&& 0xf) :
    d.decodePackets frames = .ok data := by
  induction continues generalizing d with
  | nil => rfl
  | cons padding positive rest ih =>
    rw [decodePackets, decodePacket_consecutive positive waits next]
    simp only
    rw [ih rfl rfl]
    simp [Except.map, List.take_append_drop]

/-- The length as the receiver of a first frame reads it: the lower byte by its sign. -/
theorem firstLength_header {n : Nat} (small : n < 4096) :
    firstLength (UInt8.ofNat ((1 <<< 4) ||| ((n >>> 8) &&& 0xf))) (UInt8.ofNat (n &&& 0xff)) =
      if n % 256 < 128 then (n : Int) else (n % 256 : Int) - 256 := by
  have low : n &&& 0xff = n % 256 := Nat.and_two_pow_sub_one_eq_mod n 8
  have high : (n >>> 8) &&& 0xf = n / 256 := by
    rw [Nat.shiftRight_eq_div_pow, and_nibble]
    omega
  rw [firstLength_eq _ (and_nibble_lt _) _ (by omega), low, high]
  split <;> omega

theorem decodePacket_first (long : 7 < data.length) (small : data.length < 4096) :
    d.decodePacket (UInt8.ofNat ((1 <<< 4) ||| ((data.length >>> 8) &&& 0xf)) ::
      UInt8.ofNat (data.length &&& 0xff) :: (data.take 6 ++ padding)) =
      if data.length % 256 < 128 then (⟨(data.drop 6).length, 1⟩, .ok (data.take 6))
      else (⟨0, 1⟩, .error (.illegalArgument 2 (2 + ((data.length % 256 : Int) - 256)))) := by
  obtain ⟨type, -⟩ := signed_nibbles 1 (by decide) _ (and_nibble_lt (data.length >>> 8))
  simp only [decodePacket, type, firstLength_header small]
  split
  · have available : min (data.length : Int) 6 = ((data.take 6).length : Int) := by
      rw [List.length_take]
      omega
    have left : (data.length : Int) - ((data.take 6).length : Int) = (data.drop 6).length := by
      rw [List.length_take, List.length_drop]
      omega
    have copied := copyOfRange_behind [UInt8.ofNat ((1 <<< 4) ||| ((data.length >>> 8) &&& 0xf)),
      UInt8.ofNat (data.length &&& 0xff)] (data.take 6) padding
    rw [available, left]
    rw [← copied]
    rfl
  · have available : min ((data.length % 256 : Int) - 256) 6 = (data.length % 256 : Int) - 256 := by
      omega
    rw [available, Int.sub_self, copyOfRange, if_pos (by push_cast; omega)]
    rfl

/-- A whole message gets through a decoder in whatever state, but not when it is long and the
lower byte of its length is negative in Java. -/
theorem Segmented.decodes_iff (segmented : Segmented data frames) (small : data.length < 4096) :
    d.decodePackets frames = .ok data ↔ data.length ≤ 7 ∨ data.length % 256 < 128 := by
  cases segmented with
  | single padding short =>
    rw [decodePackets, decodePacket_single short]
    simp [decodePackets, Except.map, short]
  | @first frames padding long rest =>
    rw [decodePackets, decodePacket_first long small]
    by_cases positive : data.length % 256 < 128
    · have decoded := @Continues.decodes ⟨(data.drop 6).length, 1⟩ _ _ _ rest rfl rfl
      rw [if_pos positive]
      simp only [decoded, positive, or_true, iff_true]
      simp [Except.map, List.take_append_drop]
    · simp [positive]
      omega

end Decoder

section Senders

variable {data : List UInt8}

theorem sendConsecutive_continues (fuel idx offset : Nat) (bytes : List UInt8)
    (enough : bytes.length - offset ≤ fuel) :
    Continues idx (bytes.drop offset)
      (IsoTpConnector.sendConsecutive bytes fuel idx offset (bytes.length - offset)) := by
  induction fuel generalizing idx offset with
  | zero =>
    rw [List.drop_of_length_le (by omega)]
    exact .nil
  | succ fuel ih =>
    rw [IsoTpConnector.sendConsecutive]
    split
    · next remaining =>
      have rest := ih (idx + 1) (offset + min (bytes.length - offset) 7) (by omega)
      have same : bytes.drop (offset + min (bytes.length - offset) 7) = (bytes.drop offset).drop 7 := by
        rw [List.drop_drop]
        rcases Nat.le_total (bytes.length - offset) 7 with last | more
        · rw [List.drop_of_length_le (by omega), List.drop_of_length_le (by omega)]
        · rw [Nat.min_eq_right more]
      rw [same, ← Nat.sub_sub] at rest
      have positive : 0 < (bytes.drop offset).length := by
        rw [List.length_drop]
        omega
      have frame := Continues.cons [] positive rest
      rw [List.append_nil] at frame
      have chunk : (bytes.drop offset).take (min (bytes.length - offset) 7) =
          (bytes.drop offset).take 7 := by
        rw [← List.length_drop, Nat.min_comm, ← List.take_take, List.take_length]
      simp only [IsoTpConnector.combineArrays, chunk]
      exact frame
    · next none =>
      rw [List.drop_of_length_le (by omega)]
      exact .nil

theorem sendStrategy_segmented (bytes : List UInt8) :
    Segmented bytes (IsoTpConnector.sendStrategy bytes) := by
  rw [IsoTpConnector.sendStrategy]
  split
  · next short =>
    simpa [IsoTpConnector.combineArrays] using Segmented.single [] short
  · next long =>
    have rest := sendConsecutive_continues bytes.length 1 6 bytes (by omega)
    simpa [IsoTpConnector.combineArrays] using Segmented.first [] (by omega) rest

/-- What `sendFrame` puts on the bus: the header, the data and zeros. -/
def CanFrame.packet (frame : CanFrame) : List UInt8 := frame.bytes 0 frame.DLC

theorem FrameLayout.packet_frame (layout : FrameLayout) {count : Nat}
    (header : layout.header.length = layout.offset) (enough : count ≤ data.length)
    (fits : layout.offset + count ≤ 8) :
    (layout.frame data count).packet =
      layout.header ++ (data.take count ++ List.replicate (8 - layout.offset - count) 0) := by
  refine List.ext_getElem ?_ fun i inside bound => ?_
  · simp only [CanFrame.packet, CanFrame.length_bytes, FrameLayout.frame, List.length_append,
      List.length_take, List.length_replicate]
    omega
  · simp only [CanFrame.packet, CanFrame.bytes, List.getElem_map, List.getElem_range', Nat.zero_add,
      Nat.one_mul, FrameLayout.frame, List.getElem_append, header, List.length_take,
      List.getElem_take, List.getElem_replicate]
    simp only [Nat.min_eq_left enough]
    by_cases inHeader : i < layout.offset
    · simp [inHeader, header]
    · by_cases inData : i < layout.offset + count
      · have here : i - layout.offset < count := by omega
        have stored : i - layout.offset < data.length := by omega
        simp [inHeader, inData, here, stored]
      · have behind : ¬ i - layout.offset < count := by omega
        simp [inHeader, inData, behind]

/-- The firmware pads its frames. -/
theorem consecutiveFrames_continues (count index : Nat) (data : List UInt8)
    (enough : count = (data.length + 6) / 7) :
    Continues index data ((consecutiveFrames count index data).map CanFrame.packet) := by
  induction count generalizing index data with
  | zero =>
    obtain rfl : data = [] := List.eq_nil_of_length_eq_zero (by omega)
    exact .nil
  | succ count ih =>
    have rest := ih (index + 1) (data.drop 7) (by rw [List.length_drop]; omega)
    rw [consecutiveFrames, List.map_cons, consecutiveFrame, FrameLayout.packet_frame _ rfl (Nat.min_le_left _ _) (by
      simp only [IsoTpFrameHeader.layout]
      omega)]
    have chunk : data.take (min data.length 7) = data.take 7 := by
      rw [Nat.min_comm, ← List.take_take, List.take_length]
    have frame := Continues.cons
      (List.replicate (8 - 1 - min data.length 7) 0) (show 0 < data.length by omega) rest
    rw [chunk]
    simpa [IsoTpFrameHeader.layout, IsoTpFrameType.code, and_nibble] using frame

theorem messageFrames_segmented (positive : 0 < data.length) :
    Segmented data ((messageFrames data).map CanFrame.packet) := by
  unfold messageFrames
  dsimp only
  rw [if_neg (by omega)]
  split
  · next short =>
    rw [List.map_singleton, FrameLayout.packet_frame _ rfl le_rfl (by
      simp only [IsoTpFrameHeader.layout]
      omega), List.take_length]
    have fits : min data.length 7 = data.length := by omega
    have frame := Segmented.single (List.replicate (8 - 1 - data.length) 0) short
    simpa [IsoTpFrameHeader.layout, IsoTpFrameType.code, fits] using frame
  · next long =>
    rw [List.map_cons, FrameLayout.packet_frame _ rfl (by omega) (by
      simp only [IsoTpFrameHeader.layout]
      omega)]
    have rest := consecutiveFrames_continues (consecutiveCount data.length) 1 (data.drop 6)
      (by rw [consecutiveCount, List.length_drop])
    have frame := Segmented.first [] (by omega) rest
    simpa [IsoTpFrameHeader.layout, IsoTpFrameType.code] using frame

end Senders

section RoundTrip

variable {s : CanStreamerState} {d : IsoTpCanDecoder} {data : List UInt8}

/-- Both senders cut a message of up to 4095 bytes into frames that the decoder, whatever came
before, puts together again when the message fits one frame or the lower byte of its length
is not negative in Java, and only then. -/
theorem decodePackets_iff (positive : 0 < data.length) (small : data.length ≤ 4095)
    (cooperative : s.streamer.Cooperative) :
    (d.decodePackets (IsoTpConnector.sendStrategy data) = .ok data ↔
      data.length ≤ 7 ∨ data.length % 256 < 128) ∧
    ∃ s' frames, s.sendDataTimeout data = (s', data.length) ∧
      s'.streamer.ctfList = s.streamer.ctfList ++ frames ∧
      (d.decodePackets (frames.map CanFrame.packet) = .ok data ↔
        data.length ≤ 7 ∨ data.length % 256 < 128) := by
  obtain ⟨received', taken⟩ := cooperative.takes data.length s.streamer.attempts s.streamer.received
  constructor
  · exact (sendStrategy_segmented data).decodes_iff (by omega)
  · refine ⟨s.advance (messageFrames data) received', messageFrames data, sendDataTimeout_taken taken,
      rfl, ?_⟩
    exact (messageFrames_segmented positive).decodes_iff (by omega)

/-- A bus that takes everything, and a peer that lets the sender go on. -/
def patientBus : CanStreamerState where
  streamer :=
    { transmits := fun _ => true
      receives := fun _ => some ⟨8, fun i => if i = 0 then 0x30 else 0⟩ }

theorem decodePackets_iff_patientBus :
    (({} : IsoTpCanDecoder).decodePackets (IsoTpConnector.sendStrategy (List.replicate 127 0xa5)) =
        .ok (List.replicate 127 0xa5) ↔
      (List.replicate 127 (0xa5 : UInt8)).length ≤ 7 ∨
        (List.replicate 127 (0xa5 : UInt8)).length % 256 < 128) ∧
    ∃ s' frames, patientBus.sendDataTimeout (List.replicate 127 0xa5) =
        (s', (List.replicate 127 (0xa5 : UInt8)).length) ∧
      s'.streamer.ctfList = patientBus.streamer.ctfList ++ frames ∧
      (({} : IsoTpCanDecoder).decodePackets (frames.map CanFrame.packet) =
          .ok (List.replicate 127 0xa5) ↔
        (List.replicate 127 (0xa5 : UInt8)).length ≤ 7 ∨
          (List.replicate 127 (0xa5 : UInt8)).length % 256 < 128) :=
  decodePackets_iff (by simp) (by simp)
    ⟨fun _ => rfl, fun _ => ⟨_, rfl, ⟨by decide, by decide⟩⟩⟩

/-- A message of 128 bytes stops the decoder at its first frame. -/
theorem decodePackets_signed :
    ({} : IsoTpCanDecoder).decodePackets
        (IsoTpConnector.sendStrategy (List.replicate 128 0xa5)) =
      .error (.illegalArgument 2 (-126)) := by
  decide +kernel

theorem decodePackets_not_all : ¬ ∀ data : List UInt8, 1 ≤ data.length → data.length ≤ 4095 →
    ({} : IsoTpCanDecoder).decodePackets (IsoTpConnector.sendStrategy data) = .ok data := by
  intro all
  have decoded := all (List.replicate 128 0xa5) (by simp) (by simp)
  rw [decodePackets_signed] at decoded
  cases decoded

end RoundTrip

end FomeFw.Can
