import FomeFw.Console.TunerStudio

/-! The receiving side of TunerStudio's protocol: `tsProcessOne` of `tunerstudio.cpp`, cut
where its two reading modes part and where they meet again. -/
namespace FomeFw.Console

/-- The bytes still to come on a channel, and for each read to come how many of them are
there before it times out. -/
structure Line where
  stream : List UInt8
  arrivals : List Nat

def Line.readTimeout (line : Line) (size : Nat) : List UInt8 × Line :=
  let received := min size (line.arrivals.headD 0)
  (line.stream.take received,
    { stream := line.stream.drop received, arrivals := line.arrivals.tail })

/-- What a call of `tsProcessOne` finds: the state of the transport, and what other modules
have done in the meantime. -/
structure Surroundings where
  isReady : Bool
  readings : Readings
  page : Nat → UInt8
  rebootForPresetPending : Bool

abbrev tsQueryCommand : UInt8 := 0x51
abbrev tsCommandF : UInt8 := 0x46
abbrev tsProtocol : List UInt8 := [0x30, 0x30, 0x31]

namespace TunerStudio

def inSync (ts : TunerStudio) : Bool := ts.channel.inSync

def setInSync (ts : TunerStudio) (value : Bool) : TunerStudio :=
  { ts with channel.inSync := value }

/-- `write` and `flush`. -/
def write (ts : TunerStudio) (bytes : List UInt8) : TunerStudio :=
  { ts with channel.written := ts.channel.written ++ [.plain bytes] }

/-- What a read leaves in the scratch buffer. -/
def receive (ts : TunerStudio) (position : Nat) (bytes : List UInt8) : TunerStudio :=
  { ts with channel.scratchBuffer := storeAt ts.scratch position bytes }

/-- `SWAP_UINT32` of the word at a position of the scratch buffer. -/
def swappedWord (ts : TunerStudio) (position : Nat) : Nat :=
  (bytesAt ts.scratch position crcValueSize).foldl (fun word byte => 256 * word + byte.toNat) 0

variable (fw : Firmware)

def handlePlainCommand (ts : TunerStudio) (command : UInt8) : TunerStudio × Bool :=
  if command = 0 then (ts, false)
  else if command = TsCommand.hello.code ∨ command = tsQueryCommand then
    (ts.write fw.signature, true)
  else if command = tsCommandF then (ts.write tsProtocol, true)
  else (ts, false)

/-- `actualCrc == expectedCrc`. -/
def crcMatches (ts : TunerStudio) (incomingPacketSize : Nat) : Bool :=
  let expectedCrc := ts.swappedWord incomingPacketSize
  let actualCrc := (fw.singleCrc (bytesAt ts.scratch 0 incomingPacketSize)).toNat
  actualCrc = expectedCrc

/-- `tsProcessOne` from where the packet is in the scratch buffer. -/
def processPacket (readings : Readings) (ts : TunerStudio) (incomingPacketSize : Nat) :
    TunerStudio × Bool :=
  if !ts.crcMatches fw incomingPacketSize then
    if ts.inSync then ((ts.sendErrorCode tsResponseCrcFailure).setInSync false, false)
    else (ts, false)
  else (ts.setInSync true).handleCrcCommand fw readings incomingPacketSize

/-- `tsProcessOne` in sync, from where the size is known: the packet by one read. -/
def receiveWhole (readings : Readings) (ts : TunerStudio) (line : Line)
    (incomingPacketSize : Nat) : (TunerStudio × Bool) × Line :=
  let expectedSize := incomingPacketSize + crcValueSize
  let (bytes, line) := line.readTimeout expectedSize
  let ts := ts.receive 0 bytes
  if bytes.length ≠ expectedSize then
    (((ts.sendErrorCode tsResponseUnderrun).setInSync false, false), line)
  else if !isKnownCommand (ts.scratch 0) then
    (((ts.sendErrorCode tsResponseUnrecognizedCommand).setInSync false, false), line)
  else (ts.processPacket fw readings incomingPacketSize, line)

/-- `tsProcessOne` out of sync, from where the size is known: the command by itself. Whether
the byte came is not checked. -/
def receiveByCommand (readings : Readings) (ts : TunerStudio) (line : Line)
    (incomingPacketSize : Nat) : (TunerStudio × Bool) × Line :=
  let expectedSize := incomingPacketSize + crcValueSize
  let (bytes, line) := line.readTimeout 1
  let ts := ts.receive 0 bytes
  if !isKnownCommand (ts.scratch 0) then ((ts, false), line)
  else
    let (bytes, line) := line.readTimeout (expectedSize - 1)
    let ts := ts.receive 1 bytes
    if bytes.length ≠ expectedSize - 1 then ((ts, false), line)
    else (ts.processPacket fw readings incomingPacketSize, line)

/-- `tsProcessOne` from where both bytes of the size are there. -/
def receivePacket (readings : Readings) (ts : TunerStudio) (line : Line)
    (incomingPacketSize : Nat) : (TunerStudio × Bool) × Line :=
  if incomingPacketSize = 0 ∨ incomingPacketSize + crcValueSize > scratchBufferSize then
    let ts := if ts.inSync then ts.sendErrorCode tsResponseUnderrun else ts
    ((ts.setInSync false, false), line)
  else if ts.inSync then ts.receiveWhole fw readings line incomingPacketSize
  else ts.receiveByCommand fw readings line incomingPacketSize

/-- One call; the flag is true for the result 0. -/
def tsProcessOne (around : Surroundings) (ts : TunerStudio) (line : Line) :
    (TunerStudio × Bool) × Line :=
  if !around.isReady then ((ts, false), line)
  else
    match line.readTimeout 1 with
    | ([firstByte], line) =>
      match line.readTimeout 1 with
      | ([secondByte], line) =>
        ts.receivePacket fw around.readings line (256 * firstByte.toNat + secondByte.toNat)
      | (_, line) =>
        match ts.handlePlainCommand fw firstByte with
        | (ts, true) => ((ts, false), line)
        | (ts, false) => ((ts.setInSync false, false), line)
    | (_, line) => ((ts.setInSync false, false), line)

end TunerStudio

end FomeFw.Console
