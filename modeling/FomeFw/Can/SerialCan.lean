import FomeFw.Containers.FifoBuffer

/-! `serial_can.cpp`: a byte stream over CAN frames by ISO-TP. The bus side is
`CanStreamer`, which answers the `n`-th transmit and the `n`-th receive by a
fixed but arbitrary script and records the frames it took over. Loops of the
source carry the number of iterations they may make. -/
namespace FomeFw.Can

open Containers

inductive IsoTpFrameType where
  | single | first | consecutive | flowControl
  deriving DecidableEq, Repr

namespace IsoTpFrameType

def code : IsoTpFrameType → Nat
  | single => 0
  | first => 1
  | consecutive => 2
  | flowControl => 3

def ofCode : Nat → Option IsoTpFrameType
  | 0 => some single
  | 1 => some first
  | 2 => some consecutive
  | 3 => some flowControl
  | _ => none

end IsoTpFrameType

structure IsoTpFrameHeader where
  frameType : IsoTpFrameType
  numBytes : Nat := 0
  index : Nat := 0
  fcFlag : Nat := 0
  blockSize : Nat := 0
  separationTime : Nat := 0

/-- `CANTxFrame` and `CANRxFrame`. `data8` reads memory from the address of the
data on: the frame owns the first eight bytes, of which `DLC` are on the wire. -/
structure CanFrame where
  DLC : Nat
  data8 : Nat → UInt8

/-- The `count` bytes from position `offset` on. -/
def CanFrame.bytes (frame : CanFrame) (offset count : Nat) : List UInt8 :=
  (List.range' offset count).map frame.data8

/-- `ICanStreamer`: `transmits n` tells whether the `n`-th transmit succeeds,
`receives n` is what the `n`-th receive gets, `none` for a time-out. -/
structure CanStreamer where
  transmits : Nat → Bool
  receives : Nat → Option CanFrame
  attempts : Nat := 0
  received : Nat := 0
  /-- The frames transmitted so far, oldest first. -/
  ctfList : List CanFrame := []

namespace CanStreamer

def transmit (c : CanStreamer) (frame : CanFrame) : CanStreamer × Bool :=
  if c.transmits c.attempts then
    ({ c with attempts := c.attempts + 1, ctfList := c.ctfList ++ [frame] }, true)
  else ({ c with attempts := c.attempts + 1 }, false)

def receive (c : CanStreamer) : CanStreamer × Option CanFrame :=
  ({ c with received := c.received + 1 }, c.receives c.received)

end CanStreamer

/-- `CAN_FIFO_BUF_SIZE`. -/
abbrev canFifoBufSize : Nat := 76

abbrev canFlowStatusOk : Nat := 0

abbrev canFlowStatusWaitMore : Nat := 1

structure CanStreamerState where
  rxFifoBuf : FifoBuffer UInt8 canFifoBufSize := FifoBuffer.new
  txFifoBuf : FifoBuffer UInt8 canFifoBufSize := FifoBuffer.new
  waitingForNumBytes : Int := 0
  waitingForFrameIndex : Nat := 0
  streamer : CanStreamer

/-- What the switch of `sendFrame` decides: the header bytes, the offset of the
data behind them and how many data bytes fit. -/
structure FrameLayout where
  header : List UInt8
  offset : Nat
  maxNumBytes : Nat

def IsoTpFrameHeader.layout (header : IsoTpFrameHeader) : FrameLayout :=
  let dlc := 8
  let frameType := (header.frameType.code &&& 0xf) <<< 4
  match header.frameType with
  | .single =>
    let maxNumBytes := min header.numBytes (dlc - 1)
    ⟨[UInt8.ofNat (frameType ||| maxNumBytes)], 1, maxNumBytes⟩
  | .first =>
    ⟨[UInt8.ofNat (frameType ||| ((header.numBytes >>> 8) &&& 0xf)),
      UInt8.ofNat (header.numBytes &&& 0xff)], 2, min header.numBytes (dlc - 2)⟩
  | .consecutive =>
    ⟨[UInt8.ofNat (frameType ||| (header.index &&& 0xf))], 1, dlc - 1⟩
  | .flowControl =>
    ⟨[UInt8.ofNat (frameType ||| (header.fcFlag &&& 0xf)), UInt8.ofNat header.blockSize,
      UInt8.ofNat header.separationTime], 3, 0⟩

/-- The `CanTxMessage` that `sendFrame` fills: zeros but for the header and the
first `numBytes` bytes of `data`. -/
def FrameLayout.frame (layout : FrameLayout) (data : List UInt8) (numBytes : Nat) : CanFrame where
  DLC := 8
  data8 := fun i =>
    if i < layout.offset then layout.header.getD i 0
    else if i < layout.offset + numBytes then data.getD (i - layout.offset) 0
    else 0

/-- What the switch of `receiveFrame` decides: where the payload starts, how many
bytes of it to take and the state of the multi-frame message. -/
structure Payload where
  frameType : IsoTpFrameType
  srcOffset : Nat
  numBytesAvailable : Nat
  waitingForNumBytes : Int
  waitingForFrameIndex : Nat

/-- `rxmsg->data8[0] & 0xf`. -/
def CanFrame.lowNibble (rxmsg : CanFrame) : Nat := (rxmsg.data8 0).toNat &&& 0xf

/-- `(rxmsg->data8[0] >> 4) & 0xf`. -/
def CanFrame.typeNibble (rxmsg : CanFrame) : Nat := ((rxmsg.data8 0).toNat >>> 4) &&& 0xf

/-- `((rxmsg->data8[0] & 0xf) << 8) | rxmsg->data8[1]`. -/
def CanFrame.firstLength (rxmsg : CanFrame) : Nat :=
  (rxmsg.lowNibble <<< 8) ||| (rxmsg.data8 1).toNat

namespace CanStreamerState

def sendFrame (s : CanStreamerState) (header : IsoTpFrameHeader) (data : List UInt8) (num : Nat) :
    CanStreamerState × Nat :=
  let layout := header.layout
  let numBytes := min layout.maxNumBytes num
  match s.streamer.transmit (layout.frame data numBytes) with
  | (streamer, true) => ({ s with streamer }, numBytes)
  | (streamer, false) => ({ s with streamer }, 0)

def openFrame (s : CanStreamerState) (rxmsg : CanFrame) : Option Payload :=
  match IsoTpFrameType.ofCode rxmsg.typeNibble with
  | some .single => some
    { frameType := .single
      srcOffset := 1
      numBytesAvailable := rxmsg.lowNibble
      waitingForNumBytes := -1
      waitingForFrameIndex := s.waitingForFrameIndex }
  | some .first => some
    { frameType := .first
      srcOffset := 2
      numBytesAvailable := min rxmsg.firstLength 6
      waitingForNumBytes := rxmsg.firstLength
      waitingForFrameIndex := 1 }
  | some .consecutive =>
    if s.waitingForNumBytes < 0 ∨ s.waitingForFrameIndex ≠ rxmsg.lowNibble then none
    else some
      { frameType := .consecutive
        srcOffset := 1
        numBytesAvailable := (min s.waitingForNumBytes 7).toNat
        waitingForNumBytes := s.waitingForNumBytes
        waitingForFrameIndex := (s.waitingForFrameIndex + 1) &&& 0xf }
  | some .flowControl => none
  | none => none

/-- The acknowledgement of a first frame: continue to send, no limits. -/
def flowControlHeader : IsoTpFrameHeader where
  frameType := .flowControl
  fcFlag := 0
  blockSize := 0
  separationTime := 0

/-- `receiveFrame`, with the bytes it copies to `buf`; their number is the value
the source returns. `buf` is null only together with `num = 0`. -/
def receiveFrame (s : CanStreamerState) (rxmsg : CanFrame) (num : Nat) :
    CanStreamerState × List UInt8 :=
  if rxmsg.DLC < 1 then (s, [])
  else match s.openFrame rxmsg with
    | none => (s, [])
    | some payload =>
      let numBytesToCopy := min num payload.numBytesAvailable
      let copied := rxmsg.bytes payload.srcOffset numBytesToCopy
      let left := rxmsg.bytes (payload.srcOffset + numBytesToCopy)
        (payload.numBytesAvailable - numBytesToCopy)
      let s := { s with
        waitingForNumBytes := payload.waitingForNumBytes - payload.numBytesAvailable
        waitingForFrameIndex := payload.waitingForFrameIndex
        rxFifoBuf := left.foldl (fun fifo byte => (fifo.put byte).1) s.rxFifoBuf }
      if payload.frameType = .first then ((s.sendFrame flowControlHeader [] 0).1, copied)
      else (s, copied)

/-- The loop of `sendDataTimeout` that waits for flow control; `attempts` is how
often the peer may still ask to wait. -/
def awaitFlowControl (s : CanStreamerState) (attempts : Nat) : CanStreamerState × Bool :=
  match s.streamer.receive with
  | (streamer, none) => ({ s with streamer }, false)
  | (streamer, some rxmsg) =>
    let s := (receiveFrame { s with streamer } rxmsg 0).1
    let flowStatus := rxmsg.lowNibble
    if flowStatus ≠ canFlowStatusOk then
      match attempts with
      | 0 => (s, false)
      | attempts + 1 =>
        if flowStatus = canFlowStatusWaitMore then s.awaitFlowControl attempts else (s, false)
    else (s, true)

/-- The loop over consecutive frames: `txbuf` is what remains to be sent, `idx`
the next frame's index. Every iteration that goes on sends a byte, so `fuel`
need not exceed the number of bytes. -/
def sendConsecutive (s : CanStreamerState) (fuel idx : Nat) (txbuf : List UInt8)
    (totalNumSent : Nat) : CanStreamerState × Nat :=
  match fuel with
  | 0 => (s, totalNumSent)
  | fuel + 1 =>
    if txbuf.length = 0 then (s, totalNumSent)
    else
      let len := min txbuf.length 7
      let header : IsoTpFrameHeader :=
        { frameType := .consecutive, index := idx &&& 0xf, numBytes := len }
      match s.sendFrame header txbuf len with
      | (s, 0) => (s, totalNumSent)
      | (s, numSent) =>
        s.sendConsecutive fuel (idx + 1) (txbuf.drop numSent) (totalNumSent + numSent)

def sendDataTimeout (s : CanStreamerState) (txbuf : List UInt8) : CanStreamerState × Nat :=
  let numBytes := txbuf.length
  if numBytes < 1 then (s, 0)
  else if numBytes ≤ 7 then
    s.sendFrame { frameType := .single, numBytes } txbuf numBytes
  else
    let (s, numSent) := s.sendFrame { frameType := .first, numBytes } txbuf numBytes
    match s.awaitFlowControl 3 with
    | (s, false) => (s, 0)
    | (s, true) => s.sendConsecutive numBytes 1 (txbuf.drop numSent) numSent

/-- The loop of `getDataFromFifo`; `numReadFromFifo` items are still to be read. -/
def readFifo (fifo : FifoBuffer UInt8 canFifoBufSize) : Nat →
    FifoBuffer UInt8 canFifoBufSize × List UInt8
  | 0 => (fifo, [])
  | numReadFromFifo + 1 =>
    if fifo.isEmpty then (fifo, [])
    else
      let (byte, fifo) := fifo.get
      let (fifo, bytes) := readFifo fifo numReadFromFifo
      (fifo, byte :: bytes)

/-- `getDataFromFifo`, with the bytes it stores; `numBytes` goes down by their number. -/
def getDataFromFifo (s : CanStreamerState) (numBytes : Nat) : CanStreamerState × List UInt8 :=
  if s.rxFifoBuf.isEmpty then (s, [])
  else
    let (rxFifoBuf, bytes) := readFifo s.rxFifoBuf (min numBytes s.rxFifoBuf.getCount)
    ({ s with rxFifoBuf }, bytes)

/-- The loop of `streamAddToTxTimeout`, returning what remains to be put on hold.
An iteration that goes on empties the FIFO, so all but the first one use up
`CAN_FIFO_BUF_SIZE` bytes. -/
def sendFullBuffers (s : CanStreamerState) (fuel : Nat) (txbuf : List UInt8) :
    CanStreamerState × List UInt8 :=
  match fuel with
  | 0 => (s, txbuf)
  | fuel + 1 =>
    let numBytesToAdd := s.txFifoBuf.getSize - s.txFifoBuf.getCount
    if txbuf.length < numBytesToAdd then (s, txbuf)
    else
      let s := { s with txFifoBuf := (s.txFifoBuf.putItems (txbuf.take numBytesToAdd)).1 }
      match s.sendDataTimeout (s.txFifoBuf.getElements s.txFifoBuf.getCount) with
      | (s, 0) => (s, txbuf)
      | (s, _) =>
        sendFullBuffers { s with txFifoBuf := s.txFifoBuf.clear } fuel (txbuf.drop numBytesToAdd)

def streamAddToTxTimeout (s : CanStreamerState) (txbuf : List UInt8) : CanStreamerState :=
  let (s, rest) := s.sendFullBuffers (txbuf.length + 2) txbuf
  { s with txFifoBuf := (s.txFifoBuf.putItems rest).1 }

def streamFlushTx (s : CanStreamerState) : CanStreamerState :=
  let (s, _) := s.sendDataTimeout (s.txFifoBuf.getElements s.txFifoBuf.getCount)
  { s with txFifoBuf := s.txFifoBuf.clear }

/-- The loop of `streamReceiveTimeout`: every iteration that goes on receives a byte. -/
def receiveFrames (s : CanStreamerState) (fuel availableBufferSpace : Nat) :
    CanStreamerState × List UInt8 :=
  match fuel with
  | 0 => (s, [])
  | fuel + 1 =>
    if availableBufferSpace = 0 then (s, [])
    else match s.streamer.receive with
      | (streamer, none) => ({ s with streamer }, [])
      | (streamer, some rxmsg) =>
        match receiveFrame { s with streamer } rxmsg availableBufferSpace with
        | (s, []) => (s, [])
        | (s, got) =>
          let (s, more) := s.receiveFrames fuel (availableBufferSpace - got.length)
          (s, got ++ more)

/-- `streamReceiveTimeout` for `np` bytes; the bytes returned are the contents of
`rxbuf` up to the `*np` of the source. -/
def streamReceiveTimeout (s : CanStreamerState) (np : Nat) : CanStreamerState × List UInt8 :=
  let (s, stored) := s.getDataFromFifo np
  let availableBufferSpace := np - stored.length
  let (s, got) := s.receiveFrames availableBufferSpace availableBufferSpace
  (s, stored ++ got)

end CanStreamerState

end FomeFw.Can
