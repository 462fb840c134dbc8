import FomeFw.Console.TsProcessOne
import FomeFw.Console.OneResponse
import FomeFw.Lib.Machine

/-! Falling out of step and getting back. The framing layer reports an error when it falls
out of sync and is silent until a packet came; only the handler of such a packet then
speaks. Out of sync the byte that is taken for the command may be an old one. -/
namespace FomeFw.Console

open TunerStudio

variable {fw : Firmware} {readings : Readings} {ts after : TunerStudio} {line line' : Line}

/-- Size, payload and checksum of a packet with a known command, and nothing else. -/
def validPacket (fw : Firmware) : List UInt8 → Bool
  | firstByte :: secondByte :: rest =>
    let size := 256 * firstByte.toNat + secondByte.toNat
    size ≠ 0 && size + crcValueSize ≤ scratchBufferSize && rest.length = size + crcValueSize &&
      isKnownCommand (rest.headD 0) &&
      (fw.singleCrc (rest.take size)).toNat =
        (rest.drop size).foldl (fun word byte => 256 * word + byte.toNat) 0
  | _ => false

/-- The errors of the framing layer. -/
def Written.isError : Written → Bool
  | .packet responseCode _ =>
    responseCode = tsResponseUnderrun ∨ responseCode = tsResponseCrcFailure ∨
      responseCode = tsResponseUnrecognizedCommand
  | .plain _ => false

def errorsSent (before after : TunerStudio) : Nat :=
  (after.channel.written.drop before.channel.written.length).countP Written.isError

/-- What was read of a line. -/
def Line.received (before after : Line) : List UInt8 :=
  before.stream.take (before.stream.length - after.stream.length)

/-- A channel, and how many errors were sent on it since the last valid packet. -/
structure Session where
  ts : TunerStudio
  line : Line
  errors : Nat

/-- Out of sync, with a size that is possible, the command byte does not come in time, and
that of an earlier call makes a packet of what comes behind it. -/
def staleCommand (fw : Firmware) (ts : TunerStudio) (line : Line) (size : Nat) : Bool :=
  !ts.inSync && size ≠ 0 && size + crcValueSize ≤ scratchBufferSize &&
    match line.readTimeout 1 with
    | ([], line) =>
      let (bytes, _) := line.readTimeout (size + crcValueSize - 1)
      isKnownCommand (ts.scratch 0) && bytes.length = size + crcValueSize - 1 &&
        (ts.receive 1 bytes).crcMatches fw size
    | _ => false

namespace Session

/-- As other modules left it. -/
def enter (s : Session) (around : Surroundings) : TunerStudio :=
  { s.ts with page := around.page, rebootForPresetPending := around.rebootForPresetPending }

def received (fw : Firmware) (s : Session) (around : Surroundings) : List UInt8 :=
  s.line.received ((s.enter around).tsProcessOne fw around s.line).2

def step (fw : Firmware) (s : Session) (around : Surroundings) : Session :=
  let result := (s.enter around).tsProcessOne fw around s.line
  { ts := result.1.1
    line := result.2
    errors :=
      if validPacket fw (s.received fw around) then 0 else s.errors + errorsSent s.ts result.1.1 }

/-- A channel that was just made. -/
def start (ts : TunerStudio) (line : Line) : Session :=
  { ts := ts.setInSync false, line, errors := 0 }

/-- In a call an error goes out only on the way out of sync; a valid packet is handed to
`handleCrcCommand`, which has all the say then, and is the only way into sync; the errors
since the last one are not many. -/
structure Quiet (fw : Firmware) (s : Session) (around : Surroundings) : Prop where
  errors : validPacket fw (s.received fw around) = false → errorsSent s.ts (s.step fw around).ts ≠ 0 →
    s.ts.inSync = true ∧ (s.step fw around).ts.inSync = false
  answer : validPacket fw (s.received fw around) = true → ∃ packet : TunerStudio, ∃ size,
    packet.channel.written = s.ts.channel.written ∧
      (s.step fw around).ts = (packet.handleCrcCommand fw around.readings size).1
  resync : s.ts.inSync = false → (s.step fw around).ts.inSync = true →
    validPacket fw (s.received fw around) = true
  atMostOne : (s.step fw around).errors ≤ 1

def StaleCommand (fw : Firmware) (s : Session) (around : Surroundings) : Prop :=
  around.isReady = true ∧ ∃ firstByte secondByte line₁ line₂,
    s.line.readTimeout 1 = ([firstByte], line₁) ∧ line₁.readTimeout 1 = ([secondByte], line₂) ∧
      staleCommand fw s.ts line₂ (256 * firstByte.toNat + secondByte.toNat) = true

end Session

section Bytes

variable {bytes more : List UInt8}

theorem storeAt_nil (memory : Nat → UInt8) (position : Nat) : storeAt memory position [] = memory := by
  funext i
  exact if_neg (by simp)

theorem storeAt_storeAt (memory : Nat → UInt8) (bytes more : List UInt8) :
    storeAt (storeAt memory 0 bytes) bytes.length more = storeAt memory 0 (bytes ++ more) := by
  funext i
  simp only [storeAt, List.getD_eq_getElem?_getD, List.getElem?_append, List.length_append]
  grind

theorem bytesAt_storeAt (memory : Nat → UInt8) {offset count : Nat}
    (inside : offset + count ≤ bytes.length) :
    bytesAt (storeAt memory 0 bytes) offset count = (bytes.drop offset).take count := by
  refine List.ext_getElem (by simp [bytesAt]; omega) fun i small _ => ?_
  have : offset + i < bytes.length := by simp [bytesAt] at small; omega
  simp [bytesAt, storeAt, this]

theorem scratch_receive (present : bytes ≠ []) : (ts.receive 0 bytes).scratch 0 = bytes.headD 0 := by
  obtain ⟨byte, bytes, rfl⟩ := List.exists_cons_of_ne_nil present
  simp [scratch, receive, storeAt]

theorem crcMatches_receive (length : bytes.length = size + crcValueSize) :
    (ts.receive 0 bytes).crcMatches fw size =
      decide ((fw.singleCrc (bytes.take size)).toNat =
        (bytes.drop size).foldl (fun word byte => 256 * word + byte.toNat) 0) := by
  have payload : bytesAt (ts.receive 0 bytes).scratch 0 size = bytes.take size :=
    bytesAt_storeAt _ (by omega)
  have checksum : bytesAt (ts.receive 0 bytes).scratch size crcValueSize = bytes.drop size := by
    rw [← List.take_length (l := bytes.drop size), List.length_drop, length, Nat.add_sub_cancel_left]
    exact bytesAt_storeAt _ (by omega)
  rw [crcMatches, swappedWord, payload, checksum]

theorem validPacket_eq (present : bytes ≠ []) (length : bytes.length = size + crcValueSize)
    (size_eq : 256 * firstByte.toNat + secondByte.toNat = size) (nonzero : size ≠ 0)
    (fits : size + crcValueSize ≤ scratchBufferSize) :
    validPacket fw (firstByte :: secondByte :: bytes) =
      (isKnownCommand ((ts.receive 0 bytes).scratch 0) && (ts.receive 0 bytes).crcMatches fw size) := by
  rw [crcMatches_receive length, scratch_receive present]
  simp [validPacket, size_eq, nonzero, fits, length]

theorem validPacket_length (short : bytes.length ≠ 256 * firstByte.toNat + secondByte.toNat + crcValueSize) :
    validPacket fw (firstByte :: secondByte :: bytes) = false := by
  simp [validPacket, short]

end Bytes

section Reads

/-- These bytes are read between two states of a line. -/
def Reads (line : Line) (bytes : List UInt8) (line' : Line) : Prop :=
  line.stream = bytes ++ line'.stream

theorem readTimeout_reads (read : line.readTimeout size = (bytes, line')) :
    Reads line bytes line' := by
  simp only [Line.readTimeout, Prod.mk.injEq] at read
  obtain ⟨rfl, rfl⟩ := read
  exact (List.take_append_drop _ _).symm

theorem readTimeout_length (read : line.readTimeout size = (bytes, line')) :
    bytes.length ≤ size := by
  simp only [Line.readTimeout, Prod.mk.injEq] at read
  obtain ⟨rfl, -⟩ := read
  simp only [List.length_take]
  omega

theorem Reads.append (first : Reads line bytes line₁) (second : Reads line₁ more line₂) :
    Reads line (bytes ++ more) line₂ := by
  rw [Reads, List.append_assoc, ← second]
  exact first

theorem Reads.received (reads : Reads line bytes line') : line.received line' = bytes := by
  rw [Line.received, reads]
  simp

end Reads

section Sync

@[simp] theorem setInSync_inSync (value : Bool) : (ts.setInSync value).inSync = value := rfl

@[simp] theorem receive_inSync : (ts.receive position bytes).inSync = ts.inSync := rfl

@[simp] theorem send_inSync : (ts.send code data).inSync = ts.inSync := rfl

@[simp] theorem sendErrorCode_inSync : (ts.sendErrorCode code).inSync = ts.inSync := rfl

@[simp] theorem sendOkResponse_inSync : ts.sendOkResponse.inSync = ts.inSync := rfl

@[simp] theorem sendSmall_inSync : (ts.sendSmall data).inSync = ts.inSync := by
  simp only [sendSmall, TsChannel.copyAndWriteSmallCrcPacket, inSync]
  split <;> rfl

@[simp] theorem ite_inSync [Decidable p] {a b : TunerStudio} :
    (if p then a else b).inSync = if p then a.inSync else b.inSync := apply_ite _ _ _ _

theorem handleLoggerSwitch_inSync : (ts.handleLoggerSwitch fw readings).1.inSync = ts.inSync := by
  rw [handleLoggerSwitch]
  split
  all_goals try rfl
  · cases readings.toothBuffer <;> rfl
  · cases fw.triggerScope <;> rfl
  · cases fw.triggerScope <;> rfl
  · cases fw.triggerScope <;> cases readings.triggerScopeBuffer <;> rfl

theorem handleExecuteCommand_inSync : (ts.handleExecuteCommand size).inSync = ts.inSync := by
  rw [handleExecuteCommand, send_inSync]
  simp only [inSync]

/-- A handler leaves the framing alone. -/
theorem handleCrcCommand_inSync :
    (ts.handleCrcCommand fw readings size).1.inSync = ts.inSync := by
  have checked : ∀ offset count,
      ts.validateOffsetCount fw offset count = (ts.sendErrorCode tsResponseOutOfRange, true) ∨
        ts.validateOffsetCount fw offset count = (ts, false) := by
    intro offset count
    rcases Nat.lt_or_ge fw.totalConfigSize (offset + count) with overrun | inside
    · exact .inl (validateOffsetCount_overrun overrun)
    · exact .inr (validateOffsetCount_inside inside)
  have outputs : ∀ offset count, (ts.cmdOutputChannels fw readings offset count).inSync = ts.inSync := by
    intro offset count
    rw [cmdOutputChannels, ite_inSync]
    split <;> rfl
  rw [handleCrcCommand]
  cases TsCommand.ofCode (ts.scratch 0) with
  | none => rfl
  | some command =>
    cases command with
    | hello | getFirmwareVersion | queryBootloader => exact sendSmall_inSync
    | execute => exact handleExecuteCommand_inSync
    | ioTest | getConfigError => rfl
    | output =>
      dsimp only
      split
      · exact outputs _ _
      · exact outputs _ _
    | chunkWrite =>
      rcases checked (ts.word 0) (ts.word 1) with refused | passed
      · simp only [handleWriteChunkCommand, refused]; rfl
      · simp only [handleWriteChunkCommand, passed, sendOkResponse_inSync, ite_inSync]
        split <;> rfl
    | singleWrite =>
      rcases checked (ts.word 0) 1 with refused | passed
      · simp only [handleWriteValueCommand, refused]; rfl
      · simp only [handleWriteValueCommand, passed, ite_inSync]
        split <;> rfl
    | crcCheck =>
      rcases checked (ts.word 0) (ts.word 1) with refused | passed
      · simp only [handleCrc32Check, refused]; rfl
      · simp only [handleCrc32Check, passed]
        exact sendSmall_inSync
    | read =>
      simp only [handlePageReadCommand, ite_inSync]
      split
      · rfl
      · rcases checked (ts.word 0) (ts.word 1) with refused | passed
        · rw [refused]; rfl
        · rw [passed]; rfl
    | burn =>
      simp only [handleBurnCommand, send_inSync, ite_inSync]
      split <;> rfl
    | getText => cases text : fw.efiTextLogging <;> rfl
    | perfTraceBegin => cases trace : fw.enablePerfTrace <;> rfl
    | perfTraceGetBuffer => cases trace : fw.enablePerfTrace <;> rfl
    | setLoggerSwitch =>
      dsimp only
      split
      · exact handleLoggerSwitch_inSync
      · rfl

end Sync

section Call

theorem errorsSent_append (written : after.channel.written = ts.channel.written ++ replies) :
    errorsSent ts after = replies.countP Written.isError := by
  simp [errorsSent, written]

/-- What reading a packet comes to: nothing is said; an error, on the way out of sync; a
packet was received and handed on; or what was handed on was not received. -/
inductive Outcome (fw : Firmware) (readings : Readings) (ts after : TunerStudio) (valid : Bool)
    (old : Prop) : Prop
  | silent (invalid : valid = false) (fresh : ¬ old) (nothing : errorsSent ts after = 0)
    (sync : after.inSync = true → ts.inSync = true)
  | error (invalid : valid = false) (fresh : ¬ old) (one : errorsSent ts after = 1)
    (before : ts.inSync = true) (now : after.inSync = false)
  | handed (packet : TunerStudio) (size : Nat) (isValid : valid = true) (fresh : ¬ old)
    (same : packet.channel.written = ts.channel.written)
    (handled : after = (packet.handleCrcCommand fw readings size).1)
  | stale (invalid : valid = false) (isOld : old) (before : ts.inSync = false)
    (now : after.inSync = true)

variable {packet : TunerStudio} {valid : Bool} {old : Prop}

theorem Outcome.failed {code : UInt8} (invalid : valid = false) (fresh : ¬ old)
    (before : ts.inSync = true) (isError : Written.isError (.packet code []) = true)
    (same : packet.channel.written = ts.channel.written) :
    Outcome fw readings ts ((packet.sendErrorCode code).setInSync false) valid old := by
  refine .error invalid fresh ?_ before rfl
  rw [@errorsSent_append _ _ [.packet code []]]
  · simp [isError]
  · rw [← same]
    rfl

theorem Outcome.nothing (invalid : valid = false) (fresh : ¬ old)
    (same : after.channel.written = ts.channel.written)
    (sync : after.inSync = true → ts.inSync = true) : Outcome fw readings ts after valid old :=
  .silent invalid fresh
    (by rw [@errorsSent_append _ _ [] (by rw [same, List.append_nil])]; rfl) sync

theorem processPacket_matches (crc : ts.crcMatches fw size = true) :
    ts.processPacket fw readings size = (ts.setInSync true).handleCrcCommand fw readings size := by
  simp [processPacket, crc]

theorem processPacket_mismatch (crc : ts.crcMatches fw size = false) :
    ts.processPacket fw readings size =
      if ts.inSync then ((ts.sendErrorCode tsResponseCrcFailure).setInSync false, false)
      else (ts, false) := by
  simp [processPacket, crc]

theorem receiveWhole_outcome (sync : ts.inSync = true)
    (size_eq : 256 * firstByte.toNat + secondByte.toNat = size) (nonzero : size ≠ 0)
    (fits : size + crcValueSize ≤ scratchBufferSize) (fresh : ¬ old) :
    ∃ bytes, Reads line bytes (ts.receiveWhole fw readings line size).2 ∧
      Outcome fw readings ts (ts.receiveWhole fw readings line size).1.1
        (validPacket fw (firstByte :: secondByte :: bytes)) old := by
  obtain ⟨bytes, line', read⟩ : ∃ bytes line', line.readTimeout (size + crcValueSize) = (bytes, line') :=
    ⟨_, _, rfl⟩
  refine ⟨bytes, ?_⟩
  simp only [receiveWhole, read]
  by_cases length : bytes.length = size + crcValueSize
  · have present : bytes ≠ [] := by
      rintro rfl
      simp at length
    have valid := @validPacket_eq fw ts _ _ _ _ present length size_eq nonzero fits
    cases known : isKnownCommand ((ts.receive 0 bytes).scratch 0) with
    | false =>
      rw [known, Bool.false_and] at valid
      simp only [length, not_true_eq_false, Bool.not_false, if_true, if_false, ne_eq]
      exact ⟨readTimeout_reads read, .failed valid fresh sync rfl rfl⟩
    | true =>
      rw [known, Bool.true_and] at valid
      simp only [length, not_true_eq_false, Bool.not_true, Bool.false_eq_true, if_false, ne_eq]
      refine ⟨readTimeout_reads read, ?_⟩
      cases crc : (ts.receive 0 bytes).crcMatches fw size with
      | false =>
        rw [processPacket_mismatch crc, receive_inSync, if_pos sync]
        exact .failed (valid.trans crc) fresh sync rfl rfl
      | true =>
        rw [processPacket_matches crc]
        exact .handed ((ts.receive 0 bytes).setInSync true) size (valid.trans crc) fresh rfl rfl
  · rw [if_pos length]
    exact ⟨readTimeout_reads read,
      .failed (validPacket_length (size_eq ▸ length)) fresh sync rfl rfl⟩

theorem receive_nil : ts.receive position [] = ts := by
  simp only [receive, storeAt_nil]
  rfl

theorem receive_receive (command : UInt8) :
    (ts.receive 0 [command]).receive 1 bytes = ts.receive 0 (command :: bytes) := by
  have stored := storeAt_storeAt ts.scratch [command] bytes
  simp only [receive]
  congr 2

theorem staleCommand_arrived (read : line.readTimeout 1 = (command :: bytes, line')) :
    ¬ staleCommand fw ts line size = true := by
  simp [staleCommand, read]

theorem staleCommand_missing (out : ts.inSync = false) (nonzero : size ≠ 0)
    (fits : size + crcValueSize ≤ scratchBufferSize) (readCommand : line.readTimeout 1 = ([], line₁))
    (read : line₁.readTimeout (size + crcValueSize - 1) = (bytes, line₂)) :
    staleCommand fw ts line size = (isKnownCommand (ts.scratch 0) &&
      bytes.length = size + crcValueSize - 1 && (ts.receive 1 bytes).crcMatches fw size) := by
  simp only [staleCommand, readCommand, read]
  simp [out, nonzero, fits]

theorem receiveByCommand_outcome (out : ts.inSync = false)
    (size_eq : 256 * firstByte.toNat + secondByte.toNat = size) (nonzero : size ≠ 0)
    (fits : size + crcValueSize ≤ scratchBufferSize) :
    ∃ bytes, Reads line bytes (ts.receiveByCommand fw readings line size).2 ∧
      Outcome fw readings ts (ts.receiveByCommand fw readings line size).1.1
        (validPacket fw (firstByte :: secondByte :: bytes)) (staleCommand fw ts line size = true) := by
  obtain ⟨command, line₁, readCommand⟩ : ∃ command line₁, line.readTimeout 1 = (command, line₁) :=
    ⟨_, _, rfl⟩
  obtain ⟨bytes, line₂, read⟩ :
      ∃ bytes line₂, line₁.readTimeout (size + crcValueSize - 1) = (bytes, line₂) := ⟨_, _, rfl⟩
  have small := readTimeout_length read
  have both := (readTimeout_reads readCommand).append (readTimeout_reads read)
  simp only [receiveByCommand, readCommand, read]
  match command with
  | [] =>
    have stale := @staleCommand_missing fw _ _ _ _ _ _ out nonzero fits readCommand read
    rw [receive_nil]
    cases known : isKnownCommand (ts.scratch 0) with
    | false =>
      refine ⟨[], readTimeout_reads readCommand, .nothing ?_ (by simp [stale, known]) rfl id⟩
      exact validPacket_length (by simp)
    | true =>
      simp only [Bool.not_true, Bool.false_eq_true, if_false]
      refine ⟨bytes, by split <;> exact both, ?_⟩
      have invalid : validPacket fw (firstByte :: secondByte :: bytes) = false :=
        validPacket_length (by rw [size_eq]; omega)
      by_cases length : bytes.length = size + crcValueSize - 1
      · rw [if_neg (not_not_intro length)]
        cases crc : (ts.receive 1 bytes).crcMatches fw size with
        | false =>
          rw [processPacket_mismatch crc, receive_inSync, if_neg (by simp [out])]
          exact .nothing invalid (by simp [stale, crc]) rfl id
        | true =>
          rw [processPacket_matches crc]
          exact .stale invalid (by simp [stale, known, length, crc]) out handleCrcCommand_inSync
      · rw [if_pos length]
        exact .nothing invalid (by rw [stale, decide_eq_false length]; simp) rfl id
  | [command] =>
    have fresh := @staleCommand_arrived fw ts _ _ _ _ size readCommand
    cases known : isKnownCommand ((ts.receive 0 [command]).scratch 0) with
    | false =>
      refine ⟨[command], readTimeout_reads readCommand, .nothing ?_ fresh rfl id⟩
      exact validPacket_length (by rw [size_eq]; change 1 ≠ size + 4; omega)
    | true =>
      simp only [Bool.not_true, Bool.false_eq_true, if_false, receive_receive]
      refine ⟨command :: bytes, by split <;> exact both, ?_⟩
      by_cases length : bytes.length = size + crcValueSize - 1
      · rw [if_neg (not_not_intro length)]
        have valid := @validPacket_eq fw ts _ _ _ _ (List.cons_ne_nil command bytes)
          (by rw [List.length_cons]; omega) size_eq nonzero fits
        rw [scratch_receive (List.cons_ne_nil _ _)] at known valid
        rw [List.headD_cons] at known valid
        rw [known, Bool.true_and] at valid
        cases crc : (ts.receive 0 (command :: bytes)).crcMatches fw size with
        | false =>
          rw [processPacket_mismatch crc, receive_inSync, if_neg (by simp [out])]
          exact .nothing (valid.trans crc) fresh rfl id
        | true =>
          rw [processPacket_matches crc]
          exact .handed ((ts.receive 0 (command :: bytes)).setInSync true) size
            (valid.trans crc) fresh rfl rfl
      · rw [if_pos length]
        refine .nothing (validPacket_length ?_) fresh rfl id
        rw [size_eq, List.length_cons]
        omega
  | _ :: _ :: _ =>
    have := readTimeout_length readCommand
    simp at this

theorem receivePacket_outcome
    (size_eq : 256 * firstByte.toNat + secondByte.toNat = size) :
    ∃ bytes, Reads line bytes (ts.receivePacket fw readings line size).2 ∧
      Outcome fw readings ts (ts.receivePacket fw readings line size).1.1
        (validPacket fw (firstByte :: secondByte :: bytes)) (staleCommand fw ts line size = true) := by
  rw [receivePacket]
  by_cases impossible : size = 0 ∨ size + crcValueSize > scratchBufferSize
  · have invalid : validPacket fw [firstByte, secondByte] = false := validPacket_length (by simp)
    have fresh : ¬ staleCommand fw ts line size = true := by
      intro stale
      simp only [staleCommand, Bool.and_eq_true, decide_eq_true_eq] at stale
      rcases impossible with zero | large
      · exact stale.1.1.2 zero
      · exact Nat.not_le.mpr large stale.1.2
    rw [if_pos impossible]
    refine ⟨[], rfl, ?_⟩
    cases sync : ts.inSync with
    | true => exact .failed invalid fresh sync rfl rfl
    | false => exact .nothing invalid fresh rfl (by simp)
  · obtain ⟨nonzero, fits⟩ := not_or.mp impossible
    rw [if_neg impossible]
    cases sync : ts.inSync with
    | true =>
      rw [if_pos rfl]
      exact receiveWhole_outcome sync size_eq nonzero (Nat.not_lt.mp fits) (by simp [staleCommand, sync])
    | false =>
      rw [if_neg (by simp)]
      exact receiveByCommand_outcome sync size_eq nonzero (Nat.not_lt.mp fits)

theorem eq_nil_of_noByte {bytes : List UInt8} (short : bytes.length ≤ 1)
    (noByte : ∀ byte, bytes = [byte] → False) : bytes = [] := by
  match bytes with
  | [] => rfl
  | [byte] => exact absurd rfl (noByte byte)
  | _ :: _ :: _ => simp at short

/-- A plain command is answered as it came, and says nothing about being in sync. -/
theorem handlePlainCommand_cases (command : UInt8) :
    (ts.handlePlainCommand fw command).2 = true ∧
        (∃ bytes, (ts.handlePlainCommand fw command).1 = ts.write bytes) ∨
      ts.handlePlainCommand fw command = (ts, false) := by
  simp only [handlePlainCommand]
  split
  · exact .inr rfl
  · split
    · exact .inl ⟨rfl, _, rfl⟩
    · split
      · exact .inl ⟨rfl, _, rfl⟩
      · exact .inr rfl

theorem Session.outcome (s : Session) (around : Surroundings) :
    Outcome fw around.readings (s.enter around) (s.step fw around).ts
      (validPacket fw (s.received fw around)) (s.StaleCommand fw around) := by
  suffices ∃ bytes, Reads s.line bytes ((s.enter around).tsProcessOne fw around s.line).2 ∧
      Outcome fw around.readings (s.enter around) ((s.enter around).tsProcessOne fw around s.line).1.1
        (validPacket fw bytes) (s.StaleCommand fw around) by
    obtain ⟨bytes, reads, outcome⟩ := this
    rwa [Session.received, reads.received]
  rw [tsProcessOne]
  cases ready : around.isReady with
  | false => exact ⟨[], rfl, .nothing rfl (by simp [Session.StaleCommand, ready]) rfl id⟩
  | true =>
    simp only [Bool.not_true, Bool.false_eq_true, if_false]
    split
    · next firstByte line₁ readFirst =>
      have first := readTimeout_reads readFirst
      split
      · next secondByte line₂ readSecond =>
        obtain ⟨bytes, reads, outcome⟩ :=
          @receivePacket_outcome fw around.readings (s.enter around) line₂ _ firstByte secondByte rfl
        refine ⟨_, (first.append (readTimeout_reads readSecond)).append reads, ?_⟩
        have same : s.StaleCommand fw around ↔ staleCommand fw (s.enter around) line₂
            (256 * firstByte.toNat + secondByte.toNat) = true := by
          simp only [Session.StaleCommand, ready, readFirst, true_and, Prod.mk.injEq, List.cons.injEq,
            and_true]
          constructor
          · rintro ⟨_, _, _, _, ⟨rfl, rfl⟩, second, stale⟩
            simp only [readSecond, Prod.mk.injEq, List.cons.injEq, and_true] at second
            obtain ⟨rfl, rfl⟩ := second
            exact stale
          · exact fun stale => ⟨_, _, _, _, ⟨rfl, rfl⟩, readSecond, stale⟩
        rwa [propext same]
      · next bytes line₂ noSecond readSecond =>
        have fresh : ¬ s.StaleCommand fw around := by
          rintro ⟨-, _, _, _, _, again, second, -⟩
          rw [readFirst, Prod.mk.injEq] at again
          obtain ⟨-, rfl⟩ := again
          rw [readSecond, Prod.mk.injEq] at second
          exact noSecond _ second.1
        have nothing : bytes = [] :=
          eq_nil_of_noByte (readTimeout_length readSecond) noSecond
        have invalid : validPacket fw ([firstByte] ++ bytes) = false := by rw [nothing]; rfl
        refine ⟨_, by split <;> exact first.append (readTimeout_reads readSecond), ?_⟩
        rcases @handlePlainCommand_cases fw (s.enter around) firstByte with
          ⟨understood, plain, wrote⟩ | unknown
        · rw [← Prod.eta ((s.enter around).handlePlainCommand fw firstByte), understood, wrote]
          exact .silent invalid fresh (@errorsSent_append _ _ [.plain plain] rfl) id
        · rw [unknown]
          exact .nothing invalid fresh rfl (by simp)
    · next bytes line₁ noFirst readFirst =>
      have fresh : ¬ s.StaleCommand fw around := by
        rintro ⟨-, _, _, _, _, again, -⟩
        rw [readFirst, Prod.mk.injEq] at again
        exact noFirst _ again.1
      have nothing : bytes = [] := eq_nil_of_noByte (readTimeout_length readFirst) noFirst
      exact ⟨bytes, readTimeout_reads readFirst, .nothing (by rw [nothing]; rfl) fresh rfl (by simp)⟩

end Call

namespace Session

/-- Whoever is in sync has nothing to be silent about yet. -/
structure Inv (s : Session) : Prop where
  atMostOne : s.errors ≤ 1
  inSync : s.ts.inSync = true → s.errors = 0

variable {s : Session} {around : Surroundings}

theorem step_errors_valid (valid : validPacket fw (s.received fw around) = true) :
    (s.step fw around).errors = 0 := if_pos valid

theorem step_errors_invalid (invalid : validPacket fw (s.received fw around) = false) :
    (s.step fw around).errors = s.errors + errorsSent s.ts (s.step fw around).ts :=
  if_neg (by simp [invalid])

theorem Inv.step (inv : s.Inv) (fresh : ¬ s.StaleCommand fw around) : (s.step fw around).Inv := by
  cases @outcome fw s around with
  | silent invalid _ nothing sync =>
    have same : (s.step fw around).errors = s.errors := by
      rw [step_errors_invalid invalid]
      exact congrArg (s.errors + ·) nothing
    exact ⟨same ▸ inv.atMostOne, fun now => same.trans (inv.inSync (sync now))⟩
  | error invalid _ one before now =>
    have once : (s.step fw around).errors = 1 := by
      rw [step_errors_invalid invalid, inv.inSync before, Nat.zero_add]
      exact one
    exact ⟨Nat.le_of_eq once, fun yes => absurd (now.symm.trans yes) (by decide)⟩
  | handed _ _ isValid _ _ _ =>
    have none := step_errors_valid isValid
    exact ⟨none ▸ Nat.zero_le 1, fun _ => none⟩
  | stale _ isOld _ _ => exact absurd isOld fresh

theorem Inv.quiet_iff (inv : s.Inv) : s.Quiet fw around ↔ ¬ s.StaleCommand fw around := by
  cases outcome : @outcome fw s around with
  | silent invalid fresh nothing sync =>
    refine iff_of_true ⟨fun _ sent => absurd nothing sent, fun valid => ?_, fun before now => ?_,
      (inv.step fresh).atMostOne⟩ fresh
    · exact absurd (invalid.symm.trans valid) (by decide)
    · exact absurd ((sync now).symm.trans before) (by decide)
  | error invalid fresh one before now =>
    refine iff_of_true ⟨fun _ _ => ⟨before, now⟩, fun valid => ?_, fun _ yes => ?_,
      (inv.step fresh).atMostOne⟩ fresh
    · exact absurd (invalid.symm.trans valid) (by decide)
    · exact absurd (now.symm.trans yes) (by decide)
  | handed packet size isValid fresh same handled =>
    refine iff_of_true ⟨fun invalid => ?_, fun _ => ⟨packet, size, same, handled⟩, fun _ _ => isValid,
      (inv.step fresh).atMostOne⟩ fresh
    exact absurd (invalid.symm.trans isValid) (by decide)
  | stale invalid isOld before now =>
    refine iff_of_false (fun quiet => ?_) (not_not_intro isOld)
    exact absurd (invalid.symm.trans (quiet.resync before now)) (by decide)

end Session

/-- A channel is quiet in every call of a run exactly if in none of them an old command
byte stands in for one that did not come. -/
theorem tsProcessOne_quiet (ts : TunerStudio) (line : Line) (calls : List Surroundings) :
    Machine.Guarded (Session.step fw) (Session.Quiet fw) (.start ts line) calls ↔
      Machine.Guarded (Session.step fw) (fun s around => ¬ s.StaleCommand fw around)
        (.start ts line) calls :=
  @Machine.Guarded.iff_of_invariant _ _ _ _ _ _ Session.Inv _ (fun _ _ inv => inv.quiet_iff)
    (fun _ _ fresh inv => inv.step fresh) ⟨Nat.zero_le 1, fun inSync => absurd inSync Bool.false_ne_true⟩

section Stale

/-- `crc32` of the library, bit by bit. -/
def crc32 (bytes : List UInt8) : UInt32 :=
  let shift (crc : UInt32) := if crc &&& 1 = 1 then crc >>> 1 ^^^ 0xEDB88320 else crc >>> 1
  bytes.foldl (fun crc byte => (List.range 8).foldl (fun crc _ => shift crc) (crc ^^^ byte.toUInt32))
    0xFFFFFFFF ^^^ 0xFFFFFFFF

example : crc32 [0x41] = 0xD3D99E8B := by decide +kernel

def crcFirmware : Firmware := { smallFirmware with singleCrc := crc32 }

def readyChannel : Surroundings where
  isReady := true
  readings := nothingReady
  page := fun _ => 0
  rebootForPresetPending := false

/-- A packet that breaks off behind its command, and one whose command is missing. -/
def brokenPackets : Line where
  stream := [0, 1, 0x53, 0, 1, 0x20, 0x60, 0xEF, 0xC3]
  arrivals := [1, 1, 1, 0, 1, 1, 0, 4]

/-- The second of two broken packets takes the command of the first and gets into sync. -/
theorem brokenPackets_enterSync :
    ¬ Machine.Guarded (Session.step crcFirmware) (Session.Quiet crcFirmware)
      (.start (receivedPacket []) brokenPackets) [readyChannel, readyChannel] := by
  rintro ⟨-, quiet, -⟩
  exact absurd (quiet.resync (by decide +kernel) (by decide +kernel)) (by decide +kernel)

end Stale

end FomeFw.Console
