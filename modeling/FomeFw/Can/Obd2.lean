import FomeFw.Can.SerialCan
import FomeFw.Lib.FixedArray
import Mathlib.Data.Rat.Floor

/-! OBD-II, `obd2.cpp`: requests for current data and for trouble codes. Floats are rationals, and
what has no meaning in C has no result: a shift by too much, an index outside of its array, a
float that does not fit an `int`. -/
namespace FomeFw.Can

inductive CanBusIndex where
  | bus0 | bus1 | any
  deriving DecidableEq, Repr

/-- A message under construction; its destructor transmits it. -/
structure CanTxMessage where
  eid : Nat
  dlc : Nat
  busIndex : CanBusIndex
  isExtended : Bool
  data8 : FixedArray 8 UInt8 := .fill 0

namespace CanTxMessage

/-- `msg[index] = byte`. -/
def put (msg : CanTxMessage) (index : Nat) (byte : UInt8) : Option CanTxMessage :=
  (msg.data8.store index byte).map fun data8 => { msg with data8 }

/-- The bytes that go on the wire. -/
def packet (msg : CanTxMessage) : Option (List UInt8) := msg.data8.loadList msg.dlc

end CanTxMessage

def obdTestRequest : Nat := 0x7DF
def obdTestResponse : Nat := 0x7E8

def obdCurrentData : UInt8 := 0x01
def obdStoredDtc : UInt8 := 0x03
def obdPendingDtc : UInt8 := 0x07
def obdPermanentDtc : UInt8 := 0x0A

/-- What every response starts from. -/
def obdResponse (busIndex : CanBusIndex) : CanTxMessage where
  eid := obdTestResponse
  dlc := 8
  busIndex := busIndex
  isExtended := false

/-- The tables of PIDs, with the entry that ends each of them. -/
structure PidTables where
  supportedPids0120 : List Int :=
    [0x01, 0x03, 0x04, 0x05, 0x06, 0x08, 0x0B, 0x0C, 0x0D, 0x0E, 0x0F, 0x11, -1]
  supportedPids2140 : List Int := [0x24, -1]
  supportedPids4160 : List Int := [0x42, 0x52, 0x5E, 0x5C, -1]

/-- What the requests read. -/
structure ObdReadings where
  errorCount : Int := 0
  fuelingLoad : ℚ := 0
  clt : ℚ := 0
  stftCorrection : Fin 2 → ℚ := fun _ => 1
  map : ℚ := 0
  rpm : ℚ := 0
  vehicleSpeed : ℚ := 0
  ignitionTimingBtdc : ℚ := 0
  iat : ℚ := 0
  maf : ℚ := 0
  tps1 : ℚ := 0
  lambda1 : ℚ := 0
  /-- `none` without the trip odometer module. -/
  consumptionGramPerSecond : Option ℚ := none
  batteryVoltage : ℚ := 0
  fuelEthanolPercent : ℚ := 0
  oilTemperature : ℚ := 0

/-- The loop of `obdSendPacket` over the `numBytes` data bytes, from index `j` on. -/
def obdPutBytes (iValue : BitVec 32) : (numBytes j : Nat) → CanTxMessage → Option CanTxMessage
  | 0, _, resp => some resp
  | left + 1, j, resp => do
    obdPutBytes iValue left (j + 1) (← resp.put j (UInt8.ofBitVec ((iValue >>> (8 * left)).setWidth 8)))

def obdSendPacket (mode pid : UInt8) (numBytes : Nat) (iValue : BitVec 32)
    (busIndex : CanBusIndex) : Option (List CanTxMessage) := do
  let resp ← (obdResponse busIndex).put 0 (UInt8.ofNat (2 + numBytes))
  let resp ← resp.put 1 (0x40 + mode)
  let resp ← resp.put 2 pid
  return [← obdPutBytes iValue numBytes 3 resp]

/-- `round` of the C library: halves go away from zero. -/
def efiRound (value : ℚ) : Int := if 0 ≤ value then ⌊value + 1 / 2⌋ else ⌈value - 1 / 2⌉

/-- The assertion on `numBytes` ends the function. -/
def obdSendValue (mode pid : UInt8) (numBytes : Nat) (value : ℚ) (busIndex : CanBusIndex) :
    Option (List CanTxMessage) :=
  if numBytes > 2 then some []
  else if efiRound value < -2 ^ 31 ∨ 2 ^ 31 ≤ efiRound value then none
  else
    let iValue := max (min (efiRound value) (if numBytes = 1 then 255 else 65535)) 0
    obdSendPacket mode pid numBytes (BitVec.ofInt 32 iValue) busIndex

/-- `1 << n` for an `int`. -/
def oneShifted (n : Int) : Option (BitVec 32) := if 0 ≤ n ∧ n < 32 then some (1#32 <<< n.toNat) else none

/-- The loop of `obdWriteSupportedPids`, with the rounds it may still make. -/
def gatherPids (bitOffset : Int) : (rounds : Nat) → List Int → BitVec 32 → Option (BitVec 32)
  | 0, _, value => some value
  | _ + 1, [], _ => none
  | rounds + 1, pid :: supportedPids, value =>
    if 0 < pid then do
      gatherPids bitOffset rounds supportedPids (value ||| (← oneShifted (31 + bitOffset - pid)))
    else some value

def obdWriteSupportedPids (pid : UInt8) (bitOffset : Int) (supportedPids : List Int)
    (busIndex : CanBusIndex) : Option (List CanTxMessage) := do
  obdSendPacket 1 pid 4 (← gatherPids bitOffset 32 supportedPids 0) busIndex

def obdStatusQuery (pid : UInt8) (errorCount : Int) (busIndex : CanBusIndex) :
    Option (List CanTxMessage) := do
  let mil : BitVec 8 := if errorCount > 0 then 1 <<< 7 else 0
  let byteA := mil ||| (0x7F &&& BitVec.ofInt 8 errorCount)
  let tx ← (obdResponse busIndex).put 0 0x6
  let tx ← tx.put 1 0x41
  let tx ← tx.put 2 pid
  let tx ← tx.put 3 (UInt8.ofBitVec byteA)
  let tx ← tx.put 4 0
  let tx ← tx.put 5 0
  return [← tx.put 6 0]

/-- The `uint16_t` of the lambda value, in the upper half. -/
def scaledLambda (lambda1 : ℚ) : BitVec 32 :=
  (BitVec.ofInt 16 ⌊max 0 (min lambda1 (199 / 100)) * 32768⌋).setWidth 32 <<< 16

def handleGetDataRequest (tables : PidTables) (r : ObdReadings) (length : UInt8) (rx : CanFrame)
    (busIndex : CanBusIndex) : Option (List CanTxMessage) :=
  if length ≠ 2 then some []
  else
    let pid := rx.data8 2
    let sendValue (numBytes : Nat) (value : ℚ) := obdSendValue 1 pid numBytes value busIndex
    match pid.toNat with
    | 0x00 => obdWriteSupportedPids pid 1 tables.supportedPids0120 busIndex
    | 0x20 => obdWriteSupportedPids pid 21 tables.supportedPids2140 busIndex
    | 0x40 => obdWriteSupportedPids pid 41 tables.supportedPids4160 busIndex
    | 0x01 => obdStatusQuery pid r.errorCount busIndex
    | 0x03 => sendValue 2 512
    | 0x04 => sendValue 1 (r.fuelingLoad * (255 / 100))
    | 0x05 => sendValue 1 (r.clt + 40)
    | 0x06 => sendValue 1 (128 * r.stftCorrection 0)
    | 0x08 => sendValue 1 (128 * r.stftCorrection 1)
    | 0x0B => sendValue 1 r.map
    | 0x0C => sendValue 2 (r.rpm * 4)
    | 0x0D => sendValue 1 r.vehicleSpeed
    | 0x0E =>
      let timing := r.ignitionTimingBtdc
      sendValue 1 (((if timing > 360 then timing - 720 else timing) + 64) * 2)
    | 0x0F => sendValue 1 (r.iat + 40)
    | 0x10 => sendValue 2 (r.maf * 100)
    | 0x11 => sendValue 1 (r.tps1 * (255 / 100))
    | 0x24 => obdSendPacket 1 pid 4 (scaledLambda r.lambda1) busIndex
    | 0x5E =>
      match r.consumptionGramPerSecond with
      | some gPerSecond => sendValue 2 (gPerSecond * 3600 * (139 / 100000) * 20)
      | none => some []
    | 0x42 => sendValue 2 (1000 * r.batteryVoltage)
    | 0x52 => sendValue 1 (255 / 100 * r.fuelEthanolPercent)
    | 0x5C => sendValue 1 (r.oilTemperature + 40)
    | _ => some []

/-- `MAX_ERROR_CODES_COUNT`. -/
def maxErrorCodesCount : Nat := 10

/-- `responseBytes`, which keeps what earlier requests left in it. -/
abbrev ResponseBytes := FixedArray (maxErrorCodesCount * 2) UInt8

/-- The two bytes of `writeDtc`. -/
def dtcHigh (code : UInt16) : UInt8 := UInt8.ofBitVec ((code.toBitVec >>> 8).setWidth 8)
def dtcLow (code : UInt16) : UInt8 := UInt8.ofBitVec (code.toBitVec.setWidth 8)

/-- `writeDtc` of code after code into a message, from position `dest` on. -/
def putDtcs (tx : CanTxMessage) (dest : Nat) : List UInt16 → Option CanTxMessage
  | [] => some tx
  | code :: dtcCode => do
    let tx ← tx.put dest (dtcHigh code)
    putDtcs (← tx.put (dest + 1) (dtcLow code)) (dest + 2) dtcCode

/-- The same for the buffer. -/
def assembleDtcs (responseBytes : ResponseBytes) (dest : Nat) : List UInt16 → Option ResponseBytes
  | [] => some responseBytes
  | code :: dtcCode => do
    let responseBytes ← responseBytes.store dest (dtcHigh code)
    assembleDtcs (← responseBytes.store (dest + 1) (dtcLow code)) (dest + 2) dtcCode

/-- `count` bytes of the buffer from `readPtr` on go into a message from `dest` on. -/
def copyResponse (responseBytes : ResponseBytes) (tx : CanTxMessage) :
    (count readPtr dest : Nat) → Option CanTxMessage
  | 0, _, _ => some tx
  | count + 1, readPtr, dest => do
    let tx ← tx.put dest (← responseBytes.load readPtr)
    copyResponse responseBytes tx count (readPtr + 1) (dest + 1)

/-- The loop over the consecutive frames, with the number of rounds it may make. -/
def sendConsecutiveDtcs (responseBytes : ResponseBytes) (busIndex : CanBusIndex) :
    (rounds : Nat) → (sequence : UInt8) → (readPtr bytesRemain : Nat) → Option (List CanTxMessage)
  | 0, _, _, _ => none
  | rounds + 1, sequence, readPtr, bytesRemain =>
    if bytesRemain = 0 then some []
    else do
      let tx ← (obdResponse busIndex).put 0 (0x20 + sequence)
      let chunkSize := if bytesRemain > 7 then 7 else bytesRemain
      let tx ← copyResponse responseBytes tx chunkSize readPtr 1
      let later ← sendConsecutiveDtcs responseBytes busIndex rounds (sequence + 1)
        (readPtr + chunkSize) (bytesRemain - chunkSize)
      return tx :: later

/-- `dtcCode` are the first `numCodes` of the codes. -/
def handleDtcRequest (responseBytes : ResponseBytes) (service : UInt8) (dtcCode : List UInt16)
    (busIndex : CanBusIndex) : Option (ResponseBytes × List CanTxMessage) :=
  let numCodes := dtcCode.length
  if numCodes = 0 then do
    let tx ← (obdResponse busIndex).put 0 0x2
    let tx ← tx.put 1 (0x40 + service)
    return (responseBytes, [← tx.put 2 0x0])
  else if numCodes ≤ 2 then do
    let tx ← (obdResponse busIndex).put 0 (UInt8.ofNat (1 + 1 + 2 * numCodes))
    let tx ← tx.put 1 (0x40 + service)
    let tx ← tx.put 2 (UInt8.ofNat numCodes)
    return (responseBytes, [← putDtcs tx 3 dtcCode])
  else do
    let responseBytes ← assembleDtcs responseBytes 0 dtcCode
    let tx ← (obdResponse busIndex).put 0 0x10
    let tx ← tx.put 1 (UInt8.ofNat (1 + 1 + 2 * numCodes))
    let tx ← tx.put 2 (0x40 + service)
    let tx ← tx.put 3 (UInt8.ofNat numCodes)
    let tx ← copyResponse responseBytes tx 4 0 4
    let bytesRemain := 2 * numCodes - 4
    let later ← sendConsecutiveDtcs responseBytes busIndex (bytesRemain + 1) 1 4 bytesRemain
    return (responseBytes, tx :: later)

/-! Responses are written byte after byte. -/

/-- A response that begins with these bytes. -/
structure Response (busIndex : CanBusIndex) (held : List UInt8) (msg : CanTxMessage) : Prop where
  eid : msg.eid = obdTestResponse
  dlc : msg.dlc = 8
  bus : msg.busIndex = busIndex
  standard : msg.isExtended = false
  begins : msg.data8.Begins held

variable {busIndex : CanBusIndex} {held : List UInt8} {msg : CanTxMessage}

theorem obdResponse_empty (busIndex : CanBusIndex) : Response busIndex [] (obdResponse busIndex) :=
  ⟨rfl, rfl, rfl, rfl, FixedArray.begins_nil⟩

theorem Response.put (response : Response busIndex held msg) (index : Nat) (byte : UInt8)
    (next : held.length = index) (room : index < 8) :
    ∃ msg', msg.put index byte = some msg' ∧ Response busIndex (held ++ [byte]) msg' := by
  subst next
  obtain ⟨data8, stored⟩ := @FixedArray.store_of_lt _ _ _ msg.data8 room byte
  refine ⟨{ msg with data8 }, ?_, ?_⟩
  · rw [CanTxMessage.put, stored]
    rfl
  · exact ⟨response.eid, response.dlc, response.bus, response.standard, response.begins.store stored⟩

/-- What is on the wire. -/
theorem Response.packet (response : Response busIndex held msg) (room : held.length ≤ 8) :
    ∃ padding, msg.packet = some (held ++ padding) ∧ (held ++ padding).length = 8 := by
  obtain ⟨padding, all, length⟩ := @FixedArray.Begins.completed _ _ _ _ (8 - held.length)
    response.begins (by omega)
  have whole : (held ++ padding).length = 8 := by
    rw [List.length_append]
    omega
  refine ⟨padding, ?_, whole⟩
  rw [CanTxMessage.packet, response.dlc, all.loadList whole.ge, ← whole, List.take_length]

/-- The lower `numBytes` bytes of a value, the most significant first. -/
def bigEndian (iValue : BitVec 32) : (numBytes : Nat) → List UInt8
  | 0 => []
  | left + 1 => UInt8.ofBitVec ((iValue >>> (8 * left)).setWidth 8) :: bigEndian iValue left

@[simp] theorem length_bigEndian (iValue : BitVec 32) (numBytes : Nat) :
    (bigEndian iValue numBytes).length = numBytes := by
  induction numBytes with
  | zero => rfl
  | succ left ih => rw [bigEndian, List.length_cons, ih]

theorem Response.putBytes (response : Response busIndex held msg) (iValue : BitVec 32)
    (numBytes j : Nat) (next : held.length = j) (room : j + numBytes ≤ 8) :
    ∃ msg', obdPutBytes iValue numBytes j msg = some msg' ∧
      Response busIndex (held ++ bigEndian iValue numBytes) msg' := by
  induction numBytes generalizing held msg j with
  | zero => exact ⟨msg, rfl, by simpa [bigEndian] using response⟩
  | succ left ih =>
    obtain ⟨msg₁, first, response₁⟩ :=
      response.put j (UInt8.ofBitVec ((iValue >>> (8 * left)).setWidth 8)) next (by omega)
    obtain ⟨msg', later, response'⟩ := ih response₁ (j + 1) (by simpa using next) (by omega)
    refine ⟨msg', ?_, ?_⟩
    · simpa only [obdPutBytes, first, Option.bind_eq_bind, Option.bind_some] using later
    · simpa [bigEndian] using response'

/-- The frame of a packet: the count of the bytes that follow, the mode, the PID and the value. -/
theorem obdSendPacket_eq (mode pid : UInt8) {numBytes : Nat} (iValue : BitVec 32)
    (busIndex : CanBusIndex) (room : numBytes ≤ 5) :
    ∃ msg, obdSendPacket mode pid numBytes iValue busIndex = some [msg] ∧
      Response busIndex (UInt8.ofNat (2 + numBytes) :: (0x40 + mode) :: pid :: bigEndian iValue numBytes)
        msg := by
  obtain ⟨msg₀, put₀, response₀⟩ :=
    (obdResponse_empty busIndex).put 0 (UInt8.ofNat (2 + numBytes)) rfl (by decide)
  obtain ⟨msg₁, put₁, response₁⟩ := response₀.put 1 (0x40 + mode) rfl (by decide)
  obtain ⟨msg₂, put₂, response₂⟩ := response₁.put 2 pid rfl (by decide)
  obtain ⟨msg, putAll, response⟩ := response₂.putBytes iValue numBytes 3 rfl (by omega)
  refine ⟨msg, ?_, by simpa using response⟩
  simp only [obdSendPacket, put₀, put₁, put₂, putAll, Option.bind_eq_bind, Option.bind_some]
  rfl

end FomeFw.Can
