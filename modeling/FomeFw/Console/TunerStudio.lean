/-! TunerStudio's binary protocol: `tunerstudio_io.cpp`, `tunerstudio_commands.cpp` and
the commands of `tunerstudio.cpp`. Memory is read by position: the scratch buffer of the
channel starts at 0, and what is beyond its size is memory of somebody else. -/
namespace FomeFw.Console

/-- The commands that come in packets. -/
inductive TsCommand where
  | hello | read | output | burn | singleWrite | chunkWrite | execute | ioTest
  | setLoggerSwitch | getText | crcCheck | getFirmwareVersion | perfTraceBegin
  | perfTraceGetBuffer | getConfigError | queryBootloader
  deriving DecidableEq, Repr

namespace TsCommand

def code : TsCommand → UInt8
  | hello => 0x53
  | read => 0x52
  | output => 0x4F
  | burn => 0x42
  | singleWrite => 0x57
  | chunkWrite => 0x43
  | execute => 0x45
  | ioTest => 0x5A
  | setLoggerSwitch => 0x6C
  | getText => 0x47
  | crcCheck => 0x6B
  | getFirmwareVersion => 0x56
  | perfTraceBegin => 0x5F
  | perfTraceGetBuffer => 0x62
  | getConfigError => 0x65
  | queryBootloader => 0x4C

def all : List TsCommand :=
  [hello, read, output, burn, singleWrite, chunkWrite, execute, ioTest, setLoggerSwitch, getText,
    crcCheck, getFirmwareVersion, perfTraceBegin, perfTraceGetBuffer, getConfigError,
    queryBootloader]

def ofCode (command : UInt8) : Option TsCommand := all.find? (·.code == command)

end TsCommand

/-- `isKnownCommand`. -/
def isKnownCommand (command : UInt8) : Bool := TsCommand.all.any (·.code == command)

abbrev tsResponseOk : UInt8 := 0x00
abbrev tsResponseBurnOk : UInt8 := 0x04
abbrev tsResponseUnderrun : UInt8 := 0x80
abbrev tsResponseCrcFailure : UInt8 := 0x82
abbrev tsResponseUnrecognizedCommand : UInt8 := 0x83
abbrev tsResponseOutOfRange : UInt8 := 0x84

/-- `BLOCKING_FACTOR`. -/
abbrev blockingFactor : Nat := 1300

/-- `sizeof(scratchBuffer)`. -/
abbrev scratchBufferSize : Nat := blockingFactor + 30

/-- `CRC_VALUE_SIZE`. -/
abbrev crcValueSize : Nat := 4

/-- What the build fixes. The signature and the version come with their terminating zero. -/
structure Firmware where
  efiTextLogging : Bool
  efiToothLogger : Bool
  triggerScope : Bool
  enablePerfTrace : Bool
  efiUseOpenblt : Bool
  totalConfigSize : Nat
  totalOutputSize : Nat
  outputs_fit : totalOutputSize + 10 ≤ blockingFactor
  signature : List UInt8
  signature_small : signature.length ≤ blockingFactor + 7
  version : List UInt8
  version_small : version.length ≤ 32
  singleCrc : List UInt8 → UInt32

/-- What other modules have ready when a command asks for it. -/
structure Readings where
  outputChannels : Nat → UInt8
  outputText : List UInt8
  toothBuffer : Option (List UInt8)
  triggerScopeBuffer : Option (List UInt8)
  perfTraceBuffer : List UInt8
  criticalErrorMessage : List UInt8

/-- What goes out on a channel: packets with size and checksum, or bytes as they are. -/
inductive Written where
  | packet (responseCode : UInt8) (data : List UInt8)
  | plain (bytes : List UInt8)
  deriving DecidableEq, Repr

structure TsChannel where
  scratchBuffer : Nat → UInt8
  inSync : Bool := false
  written : List Written := []

/-- The `count` bytes from position `offset` on. -/
def bytesAt (memory : Nat → UInt8) (offset count : Nat) : List UInt8 :=
  (List.range' offset count).map memory

/-- `memcpy` of bytes to position `offset`. -/
def storeAt (memory : Nat → UInt8) (offset : Nat) (bytes : List UInt8) : Nat → UInt8 :=
  fun i => if offset ≤ i ∧ i < offset + bytes.length then bytes.getD (i - offset) 0 else memory i

namespace TsChannel

def writeCrcPacketLocked (c : TsChannel) (responseCode : UInt8) (data : List UInt8) : TsChannel :=
  { c with written := c.written ++ [.packet responseCode data] }

def writeCrcResponse (c : TsChannel) (responseCode : UInt8) : TsChannel :=
  c.writeCrcPacketLocked responseCode []

/-- `isBigPacket`. -/
def isBigPacket (size : Nat) : Bool := size > blockingFactor + 7

def copyAndWriteSmallCrcPacket (c : TsChannel) (data : List UInt8) : TsChannel :=
  if isBigPacket data.length then c
  else
    { c with scratchBuffer := storeAt c.scratchBuffer 0 data }.writeCrcPacketLocked tsResponseOk data

end TsChannel

structure TunerStudio where
  channel : TsChannel
  /-- The configuration, from `getWorkingPageAddr` on. -/
  page : Nat → UInt8
  rebootForPresetPending : Bool := false
  needToWriteConfiguration : Bool := false
  toothLoggerEnabled : Bool := false
  triggerScopeEnabled : Bool := false
  perfTraceEnabled : Bool := false
  /-- Lines given to the console, and the tests started by `executeTSCommand`. -/
  consoleLines : List (List UInt8) := []
  ioTests : List (Nat × Nat) := []

namespace TunerStudio

def scratch (ts : TunerStudio) (i : Nat) : UInt8 := ts.channel.scratchBuffer i

/-- `data16[index]` for data that starts behind the command byte. -/
def word (ts : TunerStudio) (index : Nat) : Nat :=
  (ts.scratch (1 + 2 * index)).toNat + 256 * (ts.scratch (2 + 2 * index)).toNat

/-- `SWAP_UINT16`. -/
def swapUint16 (value : Nat) : Nat := value % 256 * 256 + value / 256

def send (ts : TunerStudio) (responseCode : UInt8) (data : List UInt8) : TunerStudio :=
  { ts with channel := ts.channel.writeCrcPacketLocked responseCode data }

def sendSmall (ts : TunerStudio) (data : List UInt8) : TunerStudio :=
  { ts with channel := ts.channel.copyAndWriteSmallCrcPacket data }

def sendOkResponse (ts : TunerStudio) : TunerStudio := ts.send tsResponseOk []

def sendErrorCode (ts : TunerStudio) (code : UInt8) : TunerStudio := ts.send code []

variable (fw : Firmware)

/-- `validateOffsetCount`: true if there would be an overrun, which is then reported. -/
def validateOffsetCount (ts : TunerStudio) (offset count : Nat) : TunerStudio × Bool :=
  if offset + count > fw.totalConfigSize then (ts.sendErrorCode tsResponseOutOfRange, true)
  else (ts, false)

/-- `handleWriteChunkCommand`, on boards that force no options of their own; `content` is
the position of the data in the scratch buffer. -/
def handleWriteChunkCommand (ts : TunerStudio) (offset count content : Nat) : TunerStudio :=
  match ts.validateOffsetCount fw offset count with
  | (ts, true) => ts
  | (ts, false) =>
    let ts := if ts.rebootForPresetPending then ts
      else { ts with page := storeAt ts.page offset (bytesAt ts.scratch content count) }
    ts.sendOkResponse

def handleCrc32Check (ts : TunerStudio) (offset count : Nat) : TunerStudio :=
  match ts.validateOffsetCount fw offset count with
  | (ts, true) => ts
  | (ts, false) =>
    let crc := (fw.singleCrc (bytesAt ts.page offset count)).toNat
    ts.sendSmall ([crc >>> 24, crc >>> 16, crc >>> 8, crc].map UInt8.ofNat)

def handleWriteValueCommand (ts : TunerStudio) (offset : Nat) (value : UInt8) : TunerStudio :=
  match ts.validateOffsetCount fw offset 1 with
  | (ts, true) => ts
  | (ts, false) =>
    if ts.rebootForPresetPending then ts else { ts with page := storeAt ts.page offset [value] }

def handlePageReadCommand (ts : TunerStudio) (offset count : Nat) : TunerStudio :=
  if ts.rebootForPresetPending then ts.sendErrorCode tsResponseUnrecognizedCommand
  else match ts.validateOffsetCount fw offset count with
    | (ts, true) => ts
    | (ts, false) => ts.send tsResponseOk (bytesAt ts.page offset count)

def handleBurnCommand (ts : TunerStudio) : TunerStudio :=
  let ts := if ts.rebootForPresetPending then ts else { ts with needToWriteConfiguration := true }
  ts.send tsResponseBurnOk []

/-- `handleQueryCommand` in the format `TS_CRC`. -/
def handleQueryCommand (ts : TunerStudio) : TunerStudio := ts.sendSmall fw.signature

def handleGetVersion (ts : TunerStudio) : TunerStudio := ts.sendSmall fw.version

def cmdOutputChannels (readings : Readings) (ts : TunerStudio) (offset count : Nat) : TunerStudio :=
  if offset + count > fw.totalOutputSize then ts.sendErrorCode tsResponseOutOfRange
  else
    let data := bytesAt readings.outputChannels offset count
    { ts with channel.scratchBuffer := storeAt ts.scratch 0 data }.send tsResponseOk data

/-- `efiTrim` of the text at position 1, in place: what is left of it is the result. -/
def efiTrim (memory : Nat → UInt8) (text : List UInt8) : (Nat → UInt8) × List UInt8 :=
  let leading := (text.takeWhile (· == 0x20)).length
  let trimmed := ((text.drop leading).reverse.dropWhile (· == 0x20)).reverse
  let trailing := text.length - (leading + trimmed.length)
  (storeAt memory (1 + leading + trimmed.length) (List.replicate trailing 0), trimmed)

/-- `handleExecuteCommand`; `data` is at position 1 and `size` bytes long. -/
def handleExecuteCommand (ts : TunerStudio) (size : Nat) : TunerStudio :=
  let memory := storeAt ts.scratch (1 + size) [0]
  let (memory, trimmed) := efiTrim memory ((bytesAt memory 1 (size + 1)).takeWhile (· != 0))
  { ts with
    channel.scratchBuffer := memory
    consoleLines := ts.consoleLines ++ [trimmed] }.send tsResponseOk []

/-- The inner switch under `TS_SET_LOGGER_SWITCH`; the result is false for what it does
not know. -/
def handleLoggerSwitch (readings : Readings) (ts : TunerStudio) : TunerStudio × Bool :=
  match (ts.scratch 1).toNat with
  | 1 => ({ ts with toothLoggerEnabled := true }.sendOkResponse, true)
  | 2 => ({ ts with toothLoggerEnabled := false }.sendOkResponse, true)
  | 3 =>
    match readings.toothBuffer with
    | some buffer => ((ts.send tsResponseOk buffer).sendOkResponse, true)
    | none => ((ts.sendErrorCode tsResponseOutOfRange).sendOkResponse, true)
  | 4 =>
    if fw.triggerScope then ({ ts with triggerScopeEnabled := true }.sendOkResponse, true)
    else (ts, false)
  | 5 =>
    if fw.triggerScope then ({ ts with triggerScopeEnabled := false }.sendOkResponse, true)
    else (ts, false)
  | 6 =>
    if fw.triggerScope then
      match readings.triggerScopeBuffer with
      | some buffer => ((ts.send tsResponseOk buffer).sendOkResponse, true)
      | none => ((ts.sendErrorCode tsResponseOutOfRange).sendOkResponse, true)
    else (ts, false)
  | _ => (ts, false)

/-- The `default` of the switch. -/
def unexpectedCommand (ts : TunerStudio) : TunerStudio × Bool :=
  (ts.sendErrorCode tsResponseUnrecognizedCommand, false)

/-- `handleCrcCommand` for the packet in the scratch buffer. -/
def handleCrcCommand (readings : Readings) (ts : TunerStudio) (incomingPacketSize : Nat) :
    TunerStudio × Bool :=
  let offset := ts.word 0
  let count := ts.word 1
  match TsCommand.ofCode (ts.scratch 0) with
  | some .output =>
    if incomingPacketSize = 1 then (ts.cmdOutputChannels fw readings 0 fw.totalOutputSize, true)
    else (ts.cmdOutputChannels fw readings offset count, true)
  | some .hello => (ts.handleQueryCommand fw, true)
  | some .getFirmwareVersion => (ts.handleGetVersion fw, true)
  | some .getText =>
    if fw.efiTextLogging then (ts.send tsResponseOk readings.outputText, true)
    else ts.unexpectedCommand
  | some .execute => (ts.handleExecuteCommand (incomingPacketSize - 1), true)
  | some .chunkWrite => (ts.handleWriteChunkCommand fw offset count 5, true)
  | some .singleWrite => (ts.handleWriteValueCommand fw offset (ts.scratch 5), true)
  | some .crcCheck => (ts.handleCrc32Check fw offset count, true)
  | some .burn => (ts.handleBurnCommand, true)
  | some .read => (ts.handlePageReadCommand fw offset count, true)
  | some .ioTest =>
    ({ ts with ioTests := ts.ioTests ++ [(swapUint16 offset, swapUint16 count)] }.sendOkResponse, true)
  | some .setLoggerSwitch =>
    if fw.efiToothLogger then ts.handleLoggerSwitch fw readings else ts.unexpectedCommand
  | some .perfTraceBegin =>
    if fw.enablePerfTrace then ({ ts with perfTraceEnabled := true }.sendOkResponse, true)
    else ts.unexpectedCommand
  | some .perfTraceGetBuffer =>
    if fw.enablePerfTrace then (ts.send tsResponseOk readings.perfTraceBuffer, true)
    else ts.unexpectedCommand
  | some .getConfigError => (ts.send tsResponseOk readings.criticalErrorMessage, true)
  | some .queryBootloader => (ts.sendSmall [if fw.efiUseOpenblt then 1 else 0], true)
  | none => ts.unexpectedCommand

end TunerStudio

end FomeFw.Console
