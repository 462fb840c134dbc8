import FomeFw.Console.Framing
import Mathlib.Tactic.IntervalCases

/-! Packets between the console (`IoHelper`, `IncomingDataBuffer`, in Java) and the firmware
(`tunerstudio_io.cpp`, `tunerstudio.cpp`). Both ends use one CRC. -/
namespace FomeFw.Console

/-- The cast of an `int` to a `byte`. -/
def byte (value : BitVec 32) : UInt8 := ⟨value.setWidth 8⟩

/-- `get() & 255`. -/
def unsigned (b : UInt8) : BitVec 32 := b.toBitVec.setWidth 32

namespace IoHelper

/-- The four bytes that are stored. -/
def putInt (value : BitVec 32) : List UInt8 :=
  [byte (value.sshiftRight 24), byte (value.sshiftRight 16), byte (value.sshiftRight 8), byte value]

/-- The two bytes that are stored. -/
def putShort (value : BitVec 32) : List UInt8 := [byte (value.sshiftRight 8), byte value]

def swap16 (x : BitVec 32) : BitVec 32 := ((x &&& 0xff) <<< 8) ||| (x.sshiftRight 8 &&& 0xff)

def swap32 (x : BitVec 32) : BitVec 32 :=
  (x.sshiftRight 24 &&& 0xff) ||| ((x <<< 8) &&& 0xff0000) ||| (x.sshiftRight 8 &&& 0xff00) |||
    ((x <<< 24) &&& 0xff000000)

variable (getCrc32 : List UInt8 → UInt32)

def makeCrc32Packet (command : List UInt8) : List UInt8 :=
  putShort (BitVec.ofNat 32 command.length) ++ command ++ putInt (getCrc32 command).toBitVec

end IoHelper

/-! What `writeCrcPacketLocked` writes. -/

def SWAP_UINT16 (x : BitVec 16) : BitVec 16 := (x <<< 8) ||| (x >>> 8)

def SWAP_UINT32 (x : BitVec 32) : BitVec 32 :=
  ((x >>> 24) &&& 0x000000ff) ||| ((x <<< 8) &&& 0x00ff0000) ||| ((x >>> 8) &&& 0x0000ff00) |||
    ((x <<< 24) &&& 0xff000000)

/-- `*(uint16_t*)buffer = x`, on a little-endian processor. -/
def stored16 (x : BitVec 16) : List UInt8 := [⟨x.setWidth 8⟩, ⟨(x >>> 8).setWidth 8⟩]

def stored32 (x : BitVec 32) : List UInt8 :=
  [⟨x.setWidth 8⟩, ⟨(x >>> 8).setWidth 8⟩, ⟨(x >>> 16).setWidth 8⟩, ⟨(x >>> 24).setWidth 8⟩]

def Written.bytes (singleCrc : List UInt8 → UInt32) : Written → List UInt8
  | .packet responseCode buf =>
    let headerBuffer := stored16 (SWAP_UINT16 (BitVec.ofNat 16 (buf.length + 1))) ++ [responseCode]
    let crcBuffer := stored32 (SWAP_UINT32 (singleCrc (responseCode :: buf)).toBitVec)
    headerBuffer ++ buf ++ crcBuffer
  | .plain bytes => bytes

/-! `IncomingDataBuffer`: one thread adds what arrives, another is in `getPacket`. -/

/-- `BUFFER_SIZE`. -/
abbrev incomingBufferSize : Nat := 32768

/-- Where `getPacket` is. -/
inductive Reader where
  | header
  | body (packetSize : Nat)
  | returned (packet : Option (List UInt8))
  deriving DecidableEq

structure IncomingDataBuffer where
  cbb : List UInt8 := []
  reader : Reader := .header

namespace IncomingDataBuffer

def addData (b : IncomingDataBuffer) (freshData : List UInt8) : IncomingDataBuffer :=
  -- an exception in the thread of the input
  if incomingBufferSize - b.cbb.length < freshData.length then b
  else { b with cbb := b.cbb ++ freshData }

def getShort (cbb : List UInt8) : BitVec 32 :=
  unsigned (cbb.getD 0 0) ||| (unsigned (cbb.getD 1 0) <<< 8)

def getInt (cbb : List UInt8) : BitVec 32 :=
  unsigned (cbb.getD 0 0) ||| (unsigned (cbb.getD 1 0) <<< 8) ||| (unsigned (cbb.getD 2 0) <<< 16) |||
    (unsigned (cbb.getD 3 0) <<< 24)

/-- How many bytes `waitForBytes` waits for. -/
def awaited (b : IncomingDataBuffer) : Nat :=
  match b.reader with
  | .header => 2
  | .body packetSize => packetSize + 4
  | .returned _ => 0

/-- `getPacket` from one `waitForBytes` that is content to the next. -/
def advance (getCrc32 : List UInt8 → UInt32) (b : IncomingDataBuffer) : IncomingDataBuffer :=
  match b.reader with
  | .header =>
    let packetSize := (IoHelper.swap16 (getShort b.cbb)).toInt
    { cbb := b.cbb.drop 2
      reader := if packetSize < 0 then .returned none else .body packetSize.toNat }
  | .body packetSize =>
    let packet := b.cbb.take packetSize
    let packetCrc := IoHelper.swap32 (getInt (b.cbb.drop packetSize))
    let actualCrc := (getCrc32 packet).toBitVec
    { cbb := b.cbb.drop (packetSize + 4)
      reader := .returned (if actualCrc ≠ packetCrc then none else some packet) }
  | .returned _ => b

inductive Event where
  | arrives (freshData : List UInt8)
  | wakes
  | expires

def step (getCrc32 : List UInt8 → UInt32) (b : IncomingDataBuffer) : Event → IncomingDataBuffer
  | .arrives freshData => b.addData freshData
  | .wakes => if b.cbb.length < b.awaited then b else b.advance getCrc32
  | .expires => if b.cbb.length < b.awaited then { b with reader := .returned none } else b

def Event.bytes : Event → List UInt8
  | .arrives freshData => freshData
  | .wakes => []
  | .expires => []

end IncomingDataBuffer

section Words

/-- Four bytes, the highest first. -/
def joined (b0 b1 b2 b3 : UInt8) : BitVec 32 :=
  b0.toBitVec ++ b1.toBitVec ++ b2.toBitVec ++ b3.toBitVec

variable {b0 b1 b2 b3 : UInt8}

theorem exists_joined (x : BitVec 32) : ∃ b0 b1 b2 b3, x = joined b0 b1 b2 b3 := by
  refine ⟨⟨x.extractLsb' 24 8⟩, ⟨x.extractLsb' 16 8⟩, ⟨x.extractLsb' 8 8⟩, ⟨x.extractLsb' 0 8⟩, ?_⟩
  apply BitVec.eq_of_getLsbD_eq
  intro i hi
  simp only [joined, BitVec.getLsbD_append, BitVec.getLsbD_extractLsb']
  interval_cases i <;> simp

theorem toNat_joined :
    (joined b0 b1 b2 b3).toNat = [b0, b1, b2, b3].foldl (fun word b => 256 * word + b.toNat) 0 := by
  have h0 := b0.toNat_lt
  have h1 := b1.toNat_lt
  have h2 := b2.toNat_lt
  have h3 := b3.toNat_lt
  simp only [joined, BitVec.toNat_append, UInt8.toNat_toBitVec, List.foldl_cons, List.foldl_nil]
  rw [← Nat.shiftLeft_add_eq_or_of_lt h1, ← Nat.shiftLeft_add_eq_or_of_lt h2,
    ← Nat.shiftLeft_add_eq_or_of_lt h3]
  simp only [Nat.shiftLeft_eq]
  omega

theorem putInt_joined : IoHelper.putInt (joined b0 b1 b2 b3) = [b0, b1, b2, b3] := by
  simp only [IoHelper.putInt, byte, List.cons.injEq, ← UInt8.toBitVec_inj]
  refine ⟨?_, ?_, ?_, ?_, trivial⟩
  all_goals
    apply BitVec.eq_of_getLsbD_eq
    intro i hi
    simp only [joined, BitVec.getLsbD_setWidth, BitVec.getLsbD_sshiftRight, BitVec.getLsbD_append]
    interval_cases i <;> simp

theorem stored32_joined : stored32 (joined b0 b1 b2 b3) = [b3, b2, b1, b0] := by
  simp only [stored32, List.cons.injEq, ← UInt8.toBitVec_inj]
  refine ⟨?_, ?_, ?_, ?_, trivial⟩
  all_goals
    apply BitVec.eq_of_getLsbD_eq
    intro i hi
    simp only [joined, BitVec.getLsbD_setWidth, BitVec.getLsbD_ushiftRight, BitVec.getLsbD_append]
    interval_cases i <;> simp

theorem swap32_joined : IoHelper.swap32 (joined b0 b1 b2 b3) = joined b3 b2 b1 b0 := by
  apply BitVec.eq_of_getLsbD_eq
  intro i hi
  simp only [IoHelper.swap32, joined, BitVec.getLsbD_or, BitVec.getLsbD_and,
    BitVec.getLsbD_sshiftRight, BitVec.getLsbD_shiftLeft, BitVec.getLsbD_append, BitVec.msb_append]
  interval_cases i <;> simp

theorem SWAP_UINT32_joined : SWAP_UINT32 (joined b0 b1 b2 b3) = joined b3 b2 b1 b0 := by
  apply BitVec.eq_of_getLsbD_eq
  intro i hi
  simp only [SWAP_UINT32, joined, BitVec.getLsbD_or, BitVec.getLsbD_and,
    BitVec.getLsbD_ushiftRight, BitVec.getLsbD_shiftLeft, BitVec.getLsbD_append]
  interval_cases i <;> simp

theorem getInt_bytes (more : List UInt8) :
    IncomingDataBuffer.getInt (b0 :: b1 :: b2 :: b3 :: more) = joined b3 b2 b1 b0 := by
  apply BitVec.eq_of_getLsbD_eq
  intro i hi
  simp only [IncomingDataBuffer.getInt, unsigned, joined, BitVec.getLsbD_or,
    BitVec.getLsbD_shiftLeft, BitVec.getLsbD_setWidth, BitVec.getLsbD_append]
  interval_cases i <;> simp

theorem swap16_getShort (more : List UInt8) :
    IoHelper.swap16 (IncomingDataBuffer.getShort (b0 :: b1 :: more)) = joined 0 0 b0 b1 := by
  apply BitVec.eq_of_getLsbD_eq
  intro i hi
  simp only [IoHelper.swap16, IncomingDataBuffer.getShort, unsigned, joined, BitVec.getLsbD_or,
    BitVec.getLsbD_and, BitVec.getLsbD_sshiftRight, BitVec.getLsbD_shiftLeft,
    BitVec.getLsbD_setWidth, BitVec.getLsbD_append]
  interval_cases i <;> simp

theorem putShort_joined : IoHelper.putShort (joined 0 0 b0 b1) = [b0, b1] := by
  simp only [IoHelper.putShort, byte, List.cons.injEq, ← UInt8.toBitVec_inj]
  refine ⟨?_, ?_, trivial⟩
  all_goals
    apply BitVec.eq_of_getLsbD_eq
    intro i hi
    simp only [joined, BitVec.getLsbD_setWidth, BitVec.getLsbD_sshiftRight, BitVec.getLsbD_append]
    interval_cases i <;> simp

theorem stored16_append :
    stored16 (SWAP_UINT16 (b0.toBitVec ++ b1.toBitVec)) = [b0, b1] := by
  simp only [stored16, List.cons.injEq, ← UInt8.toBitVec_inj]
  refine ⟨?_, ?_, trivial⟩
  all_goals
    apply BitVec.eq_of_getLsbD_eq
    intro i hi
    simp only [SWAP_UINT16, BitVec.getLsbD_setWidth, BitVec.getLsbD_ushiftRight, BitVec.getLsbD_or,
      BitVec.getLsbD_shiftLeft, BitVec.getLsbD_append]
    interval_cases i <;> simp

end Words

section Format

variable {getCrc32 : List UInt8 → UInt32} {body crcBytes more : List UInt8} {n : Nat}

/-- A size, the higher byte first. -/
def sizeBytes (n : Nat) : List UInt8 := [UInt8.ofNat (n / 256), UInt8.ofNat n]

/-- A packet, with whatever stands for the checksum. -/
def framed (body crcBytes : List UInt8) : List UInt8 := sizeBytes body.length ++ (body ++ crcBytes)

/-- The checksum as both readers take it. -/
def crcValue (crcBytes : List UInt8) : Nat := crcBytes.foldl (fun word b => 256 * word + b.toNat) 0

/-- The reader's CRC is not the one in the packet. -/
def CrcDetects (getCrc32 : List UInt8 → UInt32) (body crcBytes : List UInt8) : Prop :=
  (getCrc32 body).toNat ≠ crcValue crcBytes

instance (getCrc32 : List UInt8 → UInt32) (body crcBytes : List UInt8) :
    Decidable (CrcDetects getCrc32 body crcBytes) := inferInstanceAs (Decidable (_ ≠ _))

@[simp] theorem length_sizeBytes (n : Nat) : (sizeBytes n).length = 2 := rfl

theorem sizeBytes_value (small : n < 65536) :
    256 * (UInt8.ofNat (n / 256)).toNat + (UInt8.ofNat n).toNat = n := by
  simp only [UInt8.toNat_ofNat']
  omega

theorem putShort_eq (small : n < 65536) : IoHelper.putShort (BitVec.ofNat 32 n) = sizeBytes n := by
  have split : BitVec.ofNat 32 n = joined 0 0 (UInt8.ofNat (n / 256)) (UInt8.ofNat n) := by
    apply BitVec.eq_of_toNat_eq
    rw [toNat_joined]
    have value := sizeBytes_value small
    simp only [List.foldl_cons, List.foldl_nil, BitVec.toNat_ofNat]
    simp only [UInt8.toNat_zero] at *
    omega
  rw [split, putShort_joined, sizeBytes]

theorem stored16_eq (small : n < 65536) :
    stored16 (SWAP_UINT16 (BitVec.ofNat 16 n)) = sizeBytes n := by
  have split : BitVec.ofNat 16 n = (UInt8.ofNat (n / 256)).toBitVec ++ (UInt8.ofNat n).toBitVec := by
    apply BitVec.eq_of_toNat_eq
    rw [BitVec.toNat_append, UInt8.toNat_toBitVec, UInt8.toNat_toBitVec,
      ← Nat.shiftLeft_add_eq_or_of_lt (UInt8.toNat_lt _), Nat.shiftLeft_eq, BitVec.toNat_ofNat]
    have value := sizeBytes_value small
    omega
  rw [split, stored16_append, sizeBytes]

theorem crcValue_putInt (x : BitVec 32) : crcValue (IoHelper.putInt x) = x.toNat := by
  obtain ⟨b0, b1, b2, b3, rfl⟩ := exists_joined x
  rw [putInt_joined, toNat_joined, crcValue]

theorem stored32_eq (x : BitVec 32) : stored32 (SWAP_UINT32 x) = IoHelper.putInt x := by
  obtain ⟨b0, b1, b2, b3, rfl⟩ := exists_joined x
  rw [SWAP_UINT32_joined, stored32_joined, putInt_joined]

theorem toNat_packetCrc (length : crcBytes.length = 4) :
    (IoHelper.swap32 (IncomingDataBuffer.getInt (crcBytes ++ more))).toNat = crcValue crcBytes := by
  match crcBytes with
  | [b0, b1, b2, b3] =>
    rw [List.cons_append, List.cons_append, List.cons_append, List.cons_append, List.nil_append,
      getInt_bytes, swap32_joined, toNat_joined, crcValue]

theorem packetSize_eq (small : n < 65536) :
    (IoHelper.swap16 (IncomingDataBuffer.getShort (sizeBytes n ++ more))).toInt = n := by
  rw [sizeBytes, List.cons_append, List.cons_append, swap16_getShort]
  have value : (joined 0 0 (UInt8.ofNat (n / 256)) (UInt8.ofNat n)).toNat = n := by
    rw [toNat_joined]
    simpa using sizeBytes_value small
  rw [BitVec.toInt_eq_toNat_of_lt (by omega), value]

/-- Both writers make the same packet. -/
theorem makeCrc32Packet_eq (small : body.length < 65536) :
    IoHelper.makeCrc32Packet getCrc32 body =
      framed body (IoHelper.putInt (getCrc32 body).toBitVec) := by
  rw [IoHelper.makeCrc32Packet, putShort_eq small, framed, List.append_assoc]

theorem bytes_packet_eq (responseCode : UInt8) (small : body.length + 1 < 65536) :
    (Written.packet responseCode body).bytes getCrc32 =
      framed (responseCode :: body)
        (IoHelper.putInt (getCrc32 (responseCode :: body)).toBitVec) := by
  simp only [Written.bytes, stored16_eq small, stored32_eq, framed, List.length_cons]
  simp

end Format

section Incoming

open IncomingDataBuffer

variable {getCrc32 : List UInt8 → UInt32} {body crcBytes arrived more : List UInt8}
  {b : IncomingDataBuffer} {event : Event} {events : List Event}

/-- What `getPacket` makes of a packet. -/
def verdict (getCrc32 : List UInt8 → UInt32) (body crcBytes : List UInt8) : Option (List UInt8) :=
  if CrcDetects getCrc32 body crcBytes then none else some body

/-- After these bytes arrived, of a stream that begins with a packet. -/
def Received (getCrc32 : List UInt8 → UInt32) (body crcBytes arrived : List UInt8)
    (b : IncomingDataBuffer) : Prop :=
  match b.reader with
  | .header => arrived = b.cbb
  | .body packetSize => packetSize = body.length ∧ arrived = sizeBytes body.length ++ b.cbb
  | .returned packet =>
    packet = verdict getCrc32 body crcBytes ∧ arrived = framed body crcBytes ++ b.cbb

theorem body_small (fits : (framed body crcBytes ++ more).length ≤ incomingBufferSize) :
    body.length < 65536 := by
  rw [show incomingBufferSize = 32768 from rfl] at fits
  simp only [framed, List.length_append, length_sizeBytes] at fits
  omega

theorem Received.length_le (received : Received getCrc32 body crcBytes arrived b) :
    b.cbb.length ≤ arrived.length := by
  unfold Received at received
  split at received
  · rw [received]
  · rw [received.2, List.length_append]
    omega
  · rw [received.2, List.length_append]
    omega

theorem Received.arrives (received : Received getCrc32 body crcBytes arrived b)
    (freshData : List UInt8) (room : (arrived ++ freshData).length ≤ incomingBufferSize) :
    Received getCrc32 body crcBytes (arrived ++ freshData)
      (b.step getCrc32 (.arrives freshData)) := by
  have length := received.length_le
  rw [List.length_append] at room
  rw [IncomingDataBuffer.step, addData, if_neg (by omega)]
  obtain ⟨cbb, reader⟩ := b
  cases reader with
  | header => exact congrArg (· ++ freshData) received
  | body packetSize =>
    obtain ⟨size, rest⟩ := received
    refine ⟨size, ?_⟩
    rw [rest, List.append_assoc]
  | returned packet =>
    obtain ⟨result, rest⟩ := received
    refine ⟨result, ?_⟩
    rw [rest, List.append_assoc]

theorem Received.advance_header (received : Received getCrc32 body crcBytes arrived b)
    (header : b.reader = .header) (begins : arrived <+: framed body crcBytes ++ more)
    (small : body.length < 65536) (enough : 2 ≤ b.cbb.length) :
    (b.advance getCrc32).reader = .body body.length ∧
      arrived = sizeBytes body.length ++ (b.advance getCrc32).cbb := by
  simp only [Received, header] at received
  subst received
  have size : sizeBytes body.length <+: b.cbb := by
    have first : sizeBytes body.length <+: framed body crcBytes ++ more := by
      rw [framed, List.append_assoc]
      exact List.prefix_append _ _
    exact List.prefix_of_prefix_length_le first begins enough
  obtain ⟨rest, cbb_eq⟩ := size
  rw [advance, header]
  simp only [← cbb_eq, packetSize_eq small]
  rw [if_neg (by omega)]
  exact ⟨rfl, rfl⟩

theorem Received.advance_body (received : Received getCrc32 body crcBytes arrived b)
    (inBody : b.reader = .body body.length) (begins : arrived <+: framed body crcBytes ++ more)
    (checksum : crcBytes.length = 4) (enough : body.length + 4 ≤ b.cbb.length) :
    (b.advance getCrc32).reader = .returned (verdict getCrc32 body crcBytes) ∧
      arrived = framed body crcBytes ++ (b.advance getCrc32).cbb := by
  simp only [Received, inBody, true_and] at received
  have packet : framed body crcBytes <+: arrived := by
    refine List.prefix_of_prefix_length_le (List.prefix_append _ more) begins ?_
    rw [received]
    simp only [framed, List.length_append, length_sizeBytes]
    omega
  obtain ⟨rest, arrived_eq⟩ := packet
  have cbb_eq : b.cbb = body ++ (crcBytes ++ rest) := by
    rw [received, framed, List.append_assoc, List.append_cancel_left_eq, List.append_assoc]
      at arrived_eq
    exact arrived_eq.symm
  have taken : b.cbb.take body.length = body := by rw [cbb_eq, List.take_left]
  have left : b.cbb.drop body.length = crcBytes ++ rest := by rw [cbb_eq, List.drop_left]
  have same : (getCrc32 body).toBitVec ≠ IoHelper.swap32 (getInt (crcBytes ++ rest)) ↔
      CrcDetects getCrc32 body crcBytes := by
    rw [CrcDetects, ← @toNat_packetCrc crcBytes rest checksum, Ne, Ne, ← BitVec.toNat_inj]
    rfl
  rw [advance, inBody]
  simp only [taken, left, same]
  constructor
  · rfl
  · rw [← arrived_eq, List.append_cancel_left_eq, ← List.drop_drop, left, ← checksum, List.drop_left]

theorem Received.step (received : Received getCrc32 body crcBytes arrived b)
    (begins : arrived ++ event.bytes <+: framed body crcBytes ++ more)
    (fits : (framed body crcBytes ++ more).length ≤ incomingBufferSize)
    (checksum : crcBytes.length = 4) (inTime : event ≠ .expires) :
    Received getCrc32 body crcBytes (arrived ++ event.bytes) (b.step getCrc32 event) := by
  have small := body_small fits
  cases event with
  | arrives freshData => exact received.arrives freshData (begins.length_le.trans fits)
  | expires => exact absurd rfl inTime
  | wakes =>
    rw [Event.bytes, List.append_nil] at begins ⊢
    rw [IncomingDataBuffer.step]
    split
    · exact received
    · next enough =>
      rw [Nat.not_lt] at enough
      cases reader : b.reader with
      | header =>
        rw [awaited, reader] at enough
        obtain ⟨inBody, cbb⟩ := received.advance_header reader begins small enough
        rw [Received, inBody]
        exact ⟨rfl, cbb⟩
      | body packetSize =>
        rw [awaited, reader] at enough
        obtain rfl : packetSize = body.length := by
          simp only [Received, reader] at received
          exact received.1
        obtain ⟨done, cbb⟩ := received.advance_body reader begins checksum enough
        rw [Received, done]
        exact ⟨rfl, cbb⟩
      | returned packet =>
        rw [advance, reader]
        exact received

theorem Received.run (received : Received getCrc32 body crcBytes arrived b)
    (begins : arrived ++ events.flatMap Event.bytes <+: framed body crcBytes ++ more)
    (fits : (framed body crcBytes ++ more).length ≤ incomingBufferSize)
    (checksum : crcBytes.length = 4) (inTime : .expires ∉ events) :
    Received getCrc32 body crcBytes (arrived ++ events.flatMap Event.bytes)
      (events.foldl (IncomingDataBuffer.step getCrc32) b) := by
  induction events generalizing arrived b with
  | nil => simpa using received
  | cons event events ih =>
    rw [List.flatMap_cons, ← List.append_assoc] at begins ⊢
    rw [List.mem_cons, not_or] at inTime
    have next := received.step ((List.prefix_append _ _).trans begins) fits checksum (Ne.symm inTime.1)
    exact ih next begins inTime.2

/-- How many waits `getPacket` has before it. -/
def Reader.waits : Reader → Nat
  | .header => 2
  | .body _ => 1
  | .returned _ => 0

/-- Where a whole packet has arrived, no wait lasts. -/
theorem Received.wakes (received : Received getCrc32 body crcBytes (framed body crcBytes ++ more) b)
    (small : body.length < 65536) (checksum : crcBytes.length = 4) :
    (b.step getCrc32 .wakes).reader.waits = b.reader.waits - 1 := by
  have length : (framed body crcBytes ++ more).length = 2 + (body.length + 4) + more.length := by
    simp only [framed, List.length_append, length_sizeBytes, checksum]
  rw [IncomingDataBuffer.step]
  cases reader : b.reader with
  | header =>
    have enough : b.awaited ≤ b.cbb.length := by
      simp only [Received, reader] at received
      rw [awaited, reader, ← received, length]
      dsimp only
      omega
    rw [if_neg (Nat.not_lt.mpr enough)]
    rw [awaited, reader] at enough
    rw [(received.advance_header reader (List.prefix_rfl) small enough).1]
    rfl
  | body packetSize =>
    have waiting := received
    simp only [Received, reader] at waiting
    obtain ⟨rfl, rest⟩ := waiting
    have enough : b.awaited ≤ b.cbb.length := by
      have lengths := congrArg List.length rest
      rw [length, List.length_append, length_sizeBytes] at lengths
      rw [awaited, reader]
      dsimp only
      omega
    rw [if_neg (Nat.not_lt.mpr enough)]
    rw [awaited, reader] at enough
    rw [(received.advance_body reader (List.prefix_rfl) checksum enough).1]
    rfl
  | returned packet =>
    rw [advance, reader]
    split
    · rw [reader]
      rfl
    · rw [reader]
      rfl

/-- However a packet is split, and whatever is behind it: once all of it has arrived,
`getPacket` returns its verdict on it, and leaves the rest. -/
theorem getPacket_returns (checksum : crcBytes.length = 4)
    (fits : (framed body crcBytes ++ more).length ≤ incomingBufferSize)
    (stream : events.flatMap Event.bytes = framed body crcBytes ++ more)
    (inTime : .expires ∉ events) :
    (events ++ [Event.wakes, Event.wakes]).foldl (IncomingDataBuffer.step getCrc32) {} =
      ⟨more, .returned (verdict getCrc32 body crcBytes)⟩ := by
  have small := body_small fits
  have start : Received getCrc32 body crcBytes [] {} := rfl
  have all := start.run ⟨[], by rw [List.nil_append, List.append_nil, stream]⟩ fits checksum inTime
  rw [List.nil_append, stream] at all
  have wake : ∀ {b}, Received getCrc32 body crcBytes (framed body crcBytes ++ more) b →
      Received getCrc32 body crcBytes (framed body crcBytes ++ more) (b.step getCrc32 .wakes) := by
    intro b received
    have next := @Received.step _ _ _ _ more _ .wakes received
      ⟨[], by rw [Event.bytes, List.append_nil, List.append_nil]⟩ fits checksum (by simp)
    rwa [Event.bytes, List.append_nil] at next
  rw [List.foldl_append]
  generalize events.foldl (IncomingDataBuffer.step getCrc32) {} = b at all
  have once := wake all
  have twice := wake once
  have waits : ((b.step getCrc32 .wakes).step getCrc32 .wakes).reader.waits = 0 := by
    rw [once.wakes small checksum, all.wakes small checksum]
    cases b.reader <;> rfl
  rw [List.foldl_cons, List.foldl_cons, List.foldl_nil]
  generalize (b.step getCrc32 .wakes).step getCrc32 .wakes = final at twice waits
  obtain ⟨cbb, reader⟩ := final
  cases reader with
  | header => cases waits
  | body packetSize => cases waits
  | returned packet =>
    obtain ⟨rfl, rest⟩ := twice
    rw [List.append_cancel_left rest]

end Incoming

section Outgoing

open TunerStudio

/-- For each of these reads enough bytes come before it times out. -/
def Supplies : (arrivals sizes : List Nat) → Prop
  | _, [] => True
  | arrivals, size :: sizes => size ≤ arrivals.headD 0 ∧ Supplies arrivals.tail sizes

instance Supplies.decidable : (arrivals sizes : List Nat) → Decidable (Supplies arrivals sizes)
  | _, [] => isTrue trivial
  | arrivals, size :: sizes =>
    have : Decidable (Supplies arrivals.tail sizes) := Supplies.decidable arrivals.tail sizes
    inferInstanceAs (Decidable (size ≤ arrivals.headD 0 ∧ Supplies arrivals.tail sizes))

/-- The reads for a packet. -/
def packetReads (inSync : Bool) (incomingPacketSize : Nat) : List Nat :=
  if inSync then [1, 1, incomingPacketSize + crcValueSize]
  else [1, 1, 1, incomingPacketSize + crcValueSize - 1]

/-- The packet is handed on as it was meant: it is in the scratch buffer, and nothing but
the channel changed. -/
structure Accepts (fw : Firmware) (around : Surroundings) (ts : TunerStudio) (line : Line)
    (payload more : List UInt8) (handed : TunerStudio) (line' : Line) : Prop where
  result : ts.tsProcessOne fw around line =
    (handed.handleCrcCommand fw around.readings payload.length, line')
  packet : bytesAt handed.scratch 0 payload.length = payload
  inSync : handed.inSync = true
  silent : handed.channel.written = ts.channel.written
  same : handed = { ts with channel := handed.channel }
  rest : line'.stream = more

/-- Nothing is handed on: nothing but the channel changes, and that is out of sync. -/
structure Refuses (fw : Firmware) (around : Surroundings) (ts : TunerStudio) (line : Line) : Prop where
  result : (ts.tsProcessOne fw around line).1.2 = false
  inSync : (ts.tsProcessOne fw around line).1.1.inSync = false
  same : (ts.tsProcessOne fw around line).1.1 =
    { ts with channel := (ts.tsProcessOne fw around line).1.1.channel }

variable {fw : Firmware} {around : Surroundings} {ts : TunerStudio} {line : Line}
  {body crcBytes more bytes : List UInt8} {arrivals sizes : List Nat}

theorem readTimeout_supplied (enough : bytes.length ≤ arrivals.headD 0) :
    Line.readTimeout ⟨bytes ++ more, arrivals⟩ bytes.length = (bytes, ⟨more, arrivals.tail⟩) := by
  rw [Line.readTimeout]
  dsimp only
  rw [Nat.min_eq_left enough, List.take_left, List.drop_left]

theorem readTimeout_byte (b : UInt8) (enough : 1 ≤ arrivals.headD 0) :
    Line.readTimeout ⟨b :: more, arrivals⟩ 1 = ([b], ⟨more, arrivals.tail⟩) :=
  @readTimeout_supplied more [b] arrivals enough

/-- The two bytes of the size. -/
theorem tsProcessOne_size (ready : around.isReady = true) (present : 0 < body.length)
    (fits : body.length + crcValueSize ≤ scratchBufferSize)
    (supplies : Supplies arrivals (1 :: 1 :: sizes)) :
    ts.tsProcessOne fw around ⟨framed body crcBytes ++ more, arrivals⟩ =
      if ts.inSync then
        ts.receiveWhole fw around.readings ⟨body ++ crcBytes ++ more, arrivals.tail.tail⟩ body.length
      else
        ts.receiveByCommand fw around.readings ⟨body ++ crcBytes ++ more, arrivals.tail.tail⟩
          body.length := by
  obtain ⟨first, second, -⟩ := supplies
  have small : body.length < 65536 := by
    have : scratchBufferSize = 1330 := rfl
    have : crcValueSize = 4 := rfl
    omega
  have possible : ¬ (body.length = 0 ∨ body.length + crcValueSize > scratchBufferSize) := by omega
  rw [framed, sizeBytes, List.append_assoc, List.cons_append, List.cons_append, List.nil_append,
    tsProcessOne, ready]
  simp only [Bool.not_true, Bool.false_eq_true, if_false, readTimeout_byte _ first,
    readTimeout_byte _ second, sizeBytes_value small]
  rw [receivePacket, if_neg possible]

theorem receiveWhole_framed (checksum : crcBytes.length = 4)
    (enough : body.length + crcValueSize ≤ arrivals.headD 0) :
    ts.receiveWhole fw around.readings ⟨body ++ crcBytes ++ more, arrivals⟩ body.length =
      (if !isKnownCommand ((ts.receive 0 (body ++ crcBytes)).scratch 0) then
        (((ts.receive 0 (body ++ crcBytes)).sendErrorCode tsResponseUnrecognizedCommand).setInSync
          false, false)
      else (ts.receive 0 (body ++ crcBytes)).processPacket fw around.readings body.length,
        ⟨more, arrivals.tail⟩) := by
  have size : (body ++ crcBytes).length = body.length + crcValueSize := by
    rw [List.length_append, checksum]
  have read := @readTimeout_supplied more (body ++ crcBytes) arrivals (size ▸ enough)
  rw [size] at read
  simp only [receiveWhole, read, size, ne_eq, not_true_eq_false, if_false]
  split <;> rfl

theorem receiveByCommand_framed (checksum : crcBytes.length = 4) (present : 0 < body.length)
    (supplies : Supplies arrivals [1, body.length + crcValueSize - 1]) :
    ∃ line', (ts.receiveByCommand fw around.readings ⟨body ++ crcBytes ++ more, arrivals⟩
        body.length) = (if !isKnownCommand (body.headD 0) then (ts.receive 0 [body.headD 0], false)
          else (ts.receive 0 (body ++ crcBytes)).processPacket fw around.readings body.length, line') ∧
      (isKnownCommand (body.headD 0) = true → line'.stream = more) := by
  obtain ⟨command, behind, rfl⟩ := List.exists_cons_of_length_pos present
  obtain ⟨one, rest, -⟩ := supplies
  have size : (behind ++ crcBytes).length = (command :: behind).length + crcValueSize - 1 := by
    rw [List.length_append, checksum, List.length_cons, crcValueSize]
    omega
  have scratch : (ts.receive 0 [command]).scratch 0 = command := scratch_receive (List.cons_ne_nil _ _)
  have read := @readTimeout_supplied more (behind ++ crcBytes) arrivals.tail (size ▸ rest)
  rw [size] at read
  simp only [receiveByCommand, List.cons_append, readTimeout_byte _ one, scratch, List.headD_cons]
  by_cases known : isKnownCommand command = true
  · refine ⟨⟨more, arrivals.tail.tail⟩, ?_, fun _ => rfl⟩
    simp only [known, Bool.not_true, Bool.false_eq_true, if_false, read, size, ne_eq,
      not_true_eq_false, receive_receive]
  · refine ⟨⟨behind ++ crcBytes ++ more, arrivals.tail⟩, ?_, fun yes => absurd yes known⟩
    simp only [known, Bool.not_false, if_true]

/-- What both reading modes come to, when a packet with a known command arrives in time. -/
theorem tsProcessOne_framed (ready : around.isReady = true) (checksum : crcBytes.length = 4)
    (known : isKnownCommand (body.headD 0) = true)
    (fits : body.length + crcValueSize ≤ scratchBufferSize)
    (supplies : Supplies arrivals (packetReads ts.inSync body.length)) :
    ∃ line', ts.tsProcessOne fw around ⟨framed body crcBytes ++ more, arrivals⟩ =
        ((ts.receive 0 (body ++ crcBytes)).processPacket fw around.readings body.length, line') ∧
      line'.stream = more := by
  obtain ⟨command, behind, rfl⟩ : ∃ command behind, body = command :: behind := by
    cases body with
    | nil => exact absurd known (by decide)
    | cons command behind => exact ⟨command, behind, rfl⟩
  have present : 0 < (command :: behind).length := Nat.succ_pos _
  cases sync : ts.inSync with
  | true =>
    rw [sync, packetReads, if_pos rfl] at supplies
    rw [tsProcessOne_size ready present fits supplies, sync, if_pos rfl,
      receiveWhole_framed checksum supplies.2.2.1,
      scratch_receive (by simp), List.cons_append, List.headD_cons]
    rw [List.headD_cons] at known
    exact ⟨_, by rw [known]; rfl, rfl⟩
  | false =>
    rw [sync, packetReads, if_neg (by simp)] at supplies
    obtain ⟨line', result, rest⟩ :=
      @receiveByCommand_framed fw around ts _ _ more _ checksum present supplies.2.2
    refine ⟨line', ?_, rest known⟩
    rw [tsProcessOne_size ready present fits supplies, sync, if_neg (by simp), result, known]
    rfl

/-- Without a known command nothing is handed on. -/
theorem tsProcessOne_unknown (ready : around.isReady = true) (checksum : crcBytes.length = 4)
    (present : 0 < body.length) (unknown : isKnownCommand (body.headD 0) = false)
    (fits : body.length + crcValueSize ≤ scratchBufferSize)
    (supplies : Supplies arrivals (packetReads ts.inSync body.length)) :
    Refuses fw around ts ⟨framed body crcBytes ++ more, arrivals⟩ := by
  have head : (body ++ crcBytes).headD 0 = body.headD 0 := by
    cases body with
    | nil => cases present
    | cons command behind => rfl
  cases sync : ts.inSync with
  | true =>
    rw [sync, packetReads, if_pos rfl] at supplies
    have result := @tsProcessOne_size fw around ts _ crcBytes more _ _ ready present fits supplies
    rw [sync, if_pos rfl, receiveWhole_framed checksum supplies.2.2.1,
      scratch_receive (by intro none; simp_all), head, unknown] at result
    constructor <;> rw [result] <;> rfl
  | false =>
    rw [sync, packetReads, if_neg (by simp)] at supplies
    obtain ⟨line', same, -⟩ :=
      @receiveByCommand_framed fw around ts _ _ more _ checksum present supplies.2.2
    have result := @tsProcessOne_size fw around ts _ crcBytes more _ _ ready present fits supplies
    rw [sync, if_neg (by simp), same, unknown] at result
    constructor
    · rw [result]
      rfl
    · rw [result]
      exact sync
    · rw [result]
      rfl

/-- A packet as the console makes it is handed on. -/
theorem tsProcessOne_accepts (ready : around.isReady = true) {payload : List UInt8}
    (known : isKnownCommand (payload.headD 0) = true)
    (fits : payload.length + crcValueSize ≤ scratchBufferSize)
    (supplies : Supplies arrivals (packetReads ts.inSync payload.length)) :
    ∃ handed line', Accepts fw around ts
      ⟨IoHelper.makeCrc32Packet fw.singleCrc payload ++ more, arrivals⟩ payload more handed line' := by
  have small : payload.length < 65536 := by
    have : scratchBufferSize = 1330 := rfl
    omega
  let crcBytes := IoHelper.putInt (fw.singleCrc payload).toBitVec
  have checksum : crcBytes.length = 4 := rfl
  obtain ⟨line', result, rest⟩ :=
    @tsProcessOne_framed fw around ts _ crcBytes more _ ready checksum known fits supplies
  have length : (payload ++ crcBytes).length = payload.length + crcValueSize := by
    rw [List.length_append, checksum]
  have right : (ts.receive 0 (payload ++ crcBytes)).crcMatches fw payload.length = true := by
    rw [crcMatches_receive length, List.take_left, List.drop_left, decide_eq_true_iff]
    exact (crcValue_putInt _).symm
  have stored : bytesAt (ts.receive 0 (payload ++ crcBytes)).scratch 0 payload.length = payload := by
    have read := @bytesAt_storeAt (payload ++ crcBytes) ts.scratch 0 payload.length (by omega)
    rwa [List.drop_zero, List.take_left] at read
  rw [processPacket_matches right] at result
  refine ⟨(ts.receive 0 (payload ++ crcBytes)).setInSync true, line', ?_⟩
  rw [makeCrc32Packet_eq small]
  constructor
  · exact result
  · exact stored
  · rfl
  · rfl
  · rfl
  · exact rest

/-- An altered packet that the CRC detects is not. -/
theorem tsProcessOne_refuses (ready : around.isReady = true) (checksum : crcBytes.length = 4)
    (present : 0 < body.length) (fits : body.length + crcValueSize ≤ scratchBufferSize)
    (detects : CrcDetects fw.singleCrc body crcBytes)
    (supplies : Supplies arrivals (packetReads ts.inSync body.length)) :
    Refuses fw around ts ⟨framed body crcBytes ++ more, arrivals⟩ := by
  cases known : isKnownCommand (body.headD 0) with
  | false => exact tsProcessOne_unknown ready checksum present known fits supplies
  | true =>
    obtain ⟨line', result, -⟩ :=
      @tsProcessOne_framed fw around ts _ crcBytes more _ ready checksum known fits supplies
    have length : (body ++ crcBytes).length = body.length + crcValueSize := by
      rw [List.length_append, checksum]
    have wrong : (ts.receive 0 (body ++ crcBytes)).crcMatches fw body.length = false := by
      rw [crcMatches_receive length, List.take_left, List.drop_left, decide_eq_false_iff_not]
      exact detects
    rw [processPacket_mismatch wrong, receive_inSync] at result
    cases sync : ts.inSync with
    | true =>
      rw [sync, if_pos rfl] at result
      constructor <;> rw [result] <;> rfl
    | false =>
      rw [sync, if_neg (by simp)] at result
      constructor
      · rw [result]
      · rw [result]
        exact sync
      · rw [result]
        rfl

end Outgoing

section Agreement

open IncomingDataBuffer

/-- The two codecs agree: what one end packs is what the other unpacks, however the bytes are
split, and what the CRC detects is not delivered. -/
structure PacketsAgree (fw : Firmware) : Prop where
  accepts : ∀ {around : Surroundings} {ts : TunerStudio} {payload more : List UInt8}
    {arrivals : List Nat}, around.isReady = true → isKnownCommand (payload.headD 0) = true →
    payload.length + crcValueSize ≤ scratchBufferSize →
    Supplies arrivals (packetReads ts.inSync payload.length) →
    ∃ handed line', Accepts fw around ts
      ⟨IoHelper.makeCrc32Packet fw.singleCrc payload ++ more, arrivals⟩ payload more handed line'
  refuses : ∀ {around : Surroundings} {ts : TunerStudio} {body crcBytes more : List UInt8}
    {arrivals : List Nat}, around.isReady = true → crcBytes.length = 4 → 0 < body.length →
    body.length + crcValueSize ≤ scratchBufferSize → CrcDetects fw.singleCrc body crcBytes →
    Supplies arrivals (packetReads ts.inSync body.length) →
    Refuses fw around ts ⟨framed body crcBytes ++ more, arrivals⟩
  delivers : ∀ {responseCode : UInt8} {buf more : List UInt8} {events : List Event},
    ((Written.packet responseCode buf).bytes fw.singleCrc ++ more).length ≤ incomingBufferSize →
    events.flatMap Event.bytes = (Written.packet responseCode buf).bytes fw.singleCrc ++ more →
    .expires ∉ events →
    (events ++ [Event.wakes, Event.wakes]).foldl (IncomingDataBuffer.step fw.singleCrc) {} =
      ⟨more, .returned (some (responseCode :: buf))⟩
  drops : ∀ {body crcBytes more : List UInt8} {events : List Event}, crcBytes.length = 4 →
    (framed body crcBytes ++ more).length ≤ incomingBufferSize →
    events.flatMap Event.bytes = framed body crcBytes ++ more → .expires ∉ events →
    CrcDetects fw.singleCrc body crcBytes →
    (events ++ [Event.wakes, Event.wakes]).foldl (IncomingDataBuffer.step fw.singleCrc) {} =
      ⟨more, .returned none⟩

theorem packets_agree (fw : Firmware) : PacketsAgree fw := by
  constructor
  · intro around ts payload more arrivals ready known fits supplies
    exact tsProcessOne_accepts ready known fits supplies
  · intro around ts body crcBytes more arrivals ready checksum present fits detects supplies
    exact tsProcessOne_refuses ready checksum present fits detects supplies
  · intro responseCode buf more events fits stream inTime
    have small : buf.length + 1 < 65536 := by
      rw [show incomingBufferSize = 32768 from rfl] at fits
      simp only [Written.bytes, List.length_append] at fits
      omega
    rw [bytes_packet_eq responseCode small] at fits stream
    have right : ¬ CrcDetects fw.singleCrc (responseCode :: buf)
        (IoHelper.putInt (fw.singleCrc (responseCode :: buf)).toBitVec) := by
      rw [CrcDetects, crcValue_putInt]
      exact not_not_intro rfl
    rw [getPacket_returns rfl fits stream inTime, verdict, if_neg right]
  · intro body crcBytes more events checksum fits stream inTime detects
    rw [getPacket_returns checksum fits stream inTime, verdict, if_pos detects]

/-- A hello, out of sync and byte by byte, and an answer in three parts. -/
theorem packets_agree_hello :
    (∃ handed line', Accepts crcFirmware readyChannel (receivedPacket [])
      ⟨IoHelper.makeCrc32Packet crc32 [0x53] ++ [], [1, 1, 1, 4]⟩ [0x53] [] handed line') ∧
    ([Event.arrives [0], Event.wakes, Event.arrives [3, 0, 0x41], Event.wakes,
        Event.arrives ([0x42] ++ IoHelper.putInt (crc32 [0, 0x41, 0x42]).toBitVec)] ++
      [Event.wakes, Event.wakes]).foldl (IncomingDataBuffer.step crc32) {} =
        ⟨[], .returned (some [0, 0x41, 0x42])⟩ := by
  have agree := packets_agree crcFirmware
  constructor
  · exact agree.accepts rfl (by decide) (by decide) (by decide)
  · exact agree.delivers (by decide +kernel) (by decide +kernel) (by simp)

/-- A packet longer than the buffer of the console is lost when it arrives at once. -/
theorem getPacket_overflow {getCrc32 : List UInt8 → UInt32} {freshData : List UInt8}
    (long : incomingBufferSize < freshData.length) :
    ([Event.arrives freshData] ++ [Event.wakes, Event.wakes]).foldl
      (IncomingDataBuffer.step getCrc32) {} = { cbb := [], reader := .header } := by
  have full : ({} : IncomingDataBuffer).addData freshData = {} := if_pos long
  rw [List.cons_append, List.foldl_cons, IncomingDataBuffer.step.eq_def]
  dsimp only
  rw [full]
  rfl

theorem length_bytes_packet {singleCrc : List UInt8 → UInt32} (responseCode : UInt8)
    (buf : List UInt8) :
    ((Written.packet responseCode buf).bytes singleCrc).length = buf.length + 7 := by
  simp only [Written.bytes, stored16, stored32, List.length_append, List.length_cons,
    List.length_nil]
  omega

/-- 32762 bytes and a code. -/
theorem getPacket_notAll : ¬ ∀ (responseCode : UInt8) (buf : List UInt8) (events : List Event),
    events.flatMap Event.bytes = (Written.packet responseCode buf).bytes crc32 →
    .expires ∉ events →
    (events ++ [Event.wakes, Event.wakes]).foldl (IncomingDataBuffer.step crc32) {} =
      ⟨[], .returned (some (responseCode :: buf))⟩ := by
  intro all
  obtain ⟨buf, length⟩ : ∃ buf : List UInt8, buf.length = 32762 := ⟨List.replicate 32762 0, List.length_replicate⟩
  have returned := all 0 buf [Event.arrives ((Written.packet 0 buf).bytes crc32)]
    (List.append_nil _) (by rw [List.mem_singleton]; exact Event.noConfusion)
  have long : incomingBufferSize < ((Written.packet 0 buf).bytes crc32).length := by
    rw [length_bytes_packet, length, incomingBufferSize]
    omega
  rw [getPacket_overflow long, IncomingDataBuffer.mk.injEq] at returned
  exact Reader.noConfusion returned.2

end Agreement

end FomeFw.Console

