import FomeFw.Console.Dialogue
import Mathlib.Data.List.Forall2

/-! `LuaScriptPanel.java` writes a script into the controller, chunk by chunk, and has it burned, with
`writeData` and `burn` of `BinaryProtocol.java`. A request can break off or be altered on its way, an
answer can be altered, be lost or come late, and the connection can be closed at any time. -/
namespace FomeFw.Console

open TunerStudio BinaryProtocol
open Java (arraycopy)

/-- What comes of a request. -/
inductive Sent where
  | whole
  /-- It breaks off: so many bytes and one more are missing. -/
  | cut (missing : Nat)
  | altered (body crcBytes : List UInt8)

/-- What `receivePacket` gets. -/
inductive Arrival where
  | next
  | altered
  | nothing
  | fails
  deriving DecidableEq

/-- One `executeCommand`, and the look at the clock before it. -/
structure Attempt where
  elapsed : Int := 0
  closesBefore : Bool := false
  closesThen : Bool := false
  /-- How many of the answers still on their way come behind `dropPending`. -/
  late : Nat := 0
  readings : Readings
  sent : Sent
  arrival : Arrival

/-- The controller and the console, and the answers between them, the oldest first. -/
structure Link where
  ts : TunerStudio
  answers : List Written := []
  isClosed : Bool := false
  isBurnPending : Bool := false

namespace Sent

/-- All that comes is there before the reads time out. -/
def line (fw : Firmware) (request : List UInt8) (sent : Sent) : Line where
  stream :=
    match sent with
    | whole => IoHelper.makeCrc32Packet fw.singleCrc request
    | cut missing =>
      let packet := IoHelper.makeCrc32Packet fw.singleCrc request
      packet.take (packet.length - (missing + 1))
    | altered body crcBytes => framed body crcBytes
  arrivals := List.replicate 4 scratchBufferSize

/-- The CRC detects what was altered. -/
def Possible (fw : Firmware) : Sent → Prop
  | whole | cut _ => True
  | altered body crcBytes => crcBytes.length = 4 ∧ 0 < body.length ∧
      body.length + crcValueSize ≤ scratchBufferSize ∧ CrcDetects fw.singleCrc body crcBytes

end Sent

def Written.response : Written → Option (List UInt8)
  | .packet responseCode data => some (responseCode :: data)
  | .plain _ => none

/-- `checkResponseCode`, and the length of an answer that is just a code. -/
def acknowledges (response : Option (List UInt8)) (code : UInt8) : Bool :=
  checkResponseCode response code && (response.getD []).length = 1

/-- `BINARY_IO_TIMEOUT`, in milliseconds. -/
abbrev binaryIoTimeout : Int := 5000

namespace Link

variable (fw : Firmware)

/-- The controller takes what comes of a request. -/
def deliver (s : Link) (a : Attempt) (request : List UInt8) : Link :=
  let around : Surroundings := ⟨true, a.readings, s.ts.page, s.ts.rebootForPresetPending⟩
  let ts := (s.ts.tsProcessOne fw around (a.sent.line fw request)).1.1
  { s with ts, answers := s.answers ++ ts.channel.written.drop s.ts.channel.written.length }

def executeCommand (s : Link) (a : Attempt) (opcode : UInt8) (packet : List UInt8) :
    Link × Option (List UInt8) :=
  if s.isClosed then (s, none)
  else
    -- dropPending
    let s := { s with answers := s.answers.drop (s.answers.length - a.late) }
    let s := s.deliver fw a (opcode :: packet)
    match a.arrival with
    | .fails => ({ s with isClosed := true }, none)
    | .nothing => (s, none)
    | .altered => ({ s with answers := s.answers.tail }, none)
    | .next => ({ s with answers := s.answers.tail }, s.answers.head?.bind Written.response)

/-- The loop of `writeData`; the flag is true if it was left by `break`. -/
def writeLoop (packet : List UInt8) : Link → List Attempt → Option (Link × Bool)
  | s, [] => if s.isClosed then some (s, false) else none
  | s, a :: attempts =>
    let s := { s with isClosed := s.isClosed || a.closesBefore }
    if !s.isClosed && a.elapsed < binaryIoTimeout then
      let (s, response) := { s with isClosed := a.closesThen }.executeCommand fw a
        TsCommand.chunkWrite.code packet
      if acknowledges response tsResponseOk then some (s, true) else writeLoop packet s attempts
    else some (s, false)

def writeData (s : Link) (content : List UInt8) (contentOffset ecuOffset size : Nat)
    (attempts : List Attempt) : Option (Link × Bool) :=
  let packet := Request.packed ecuOffset size ++ (content.drop contentOffset).take size
  writeLoop fw packet { s with isBurnPending := true } attempts

/-- The loop of `write`, with the attempts of each `writeData`, and what these came to. -/
def writeChunks (luaScript : Nat) (paddedScript : List UInt8) :
    Link → Nat → List (List Attempt) → Option (Link × List Bool)
  | _, _, [] => none
  | s, idx, attempts :: calls =>
    let remaining := paddedScript.length - idx
    let thisWrite := min remaining blockingFactor
    match s.writeData fw paddedScript idx (luaScript + idx) thisWrite attempts with
    | none => none
    | some (s, acknowledged) =>
      let idx := idx + thisWrite
      let remaining := remaining - thisWrite
      if remaining > 0 then
        (writeChunks luaScript paddedScript s idx calls).map fun (s, acknowledged') =>
          (s, acknowledged :: acknowledged')
      else some (s, [acknowledged])

/-- `write` of `LuaScriptPanel`; nothing was written when the script is too long. -/
def write (luaScript luaScriptSize : Nat) (s : Link) (script : List UInt8) (calls : List (List Attempt)) :
    Java (Option (Link × List Bool)) :=
  (arraycopy script 0 (List.replicate luaScriptSize 0) 0 script.length).map fun paddedScript =>
    s.writeChunks fw luaScript paddedScript 0 calls

/-- The loop of `burn`. -/
def burnLoop : Link → List Attempt → Option Link
  | s, [] => if s.isClosed then some s else none
  | s, a :: attempts =>
    let s := { s with isClosed := s.isClosed || a.closesBefore }
    if s.isClosed then some s
    else
      let (s, response) := { s with isClosed := a.closesThen }.executeCommand fw a TsCommand.burn.code []
      if acknowledges response tsResponseBurnOk then some { s with isBurnPending := false }
      else burnLoop s attempts

def burn (s : Link) (attempts : List Attempt) : Option Link :=
  if !s.isBurnPending then some s else s.burnLoop fw attempts

end Link

section Idle

variable {fw : Firmware} {readings : Readings} {around : Surroundings} {ts packet after : TunerStudio}
  {line : Line} {size : Nat} {code : UInt8} {value : Bool}

/-- Nothing but the channel changes, and at most errors are sent on it. -/
structure Idle (ts after : TunerStudio) : Prop where
  same : after = { ts with channel := after.channel }
  errors : ∃ replies, Replies ts after replies ∧ ∀ w ∈ replies, w.isError = true ∨ w.response = none

theorem Idle.of_silent (same : after = { ts with channel := after.channel })
    (silent : after.channel.written = ts.channel.written) : Idle ts after :=
  ⟨same, [], by rw [Replies, silent, List.append_nil], by simp⟩

theorem Idle.of_error (same : packet = { ts with channel := packet.channel })
    (silent : packet.channel.written = ts.channel.written)
    (isError : Written.isError (.packet code []) = true) :
    Idle ts ((packet.sendErrorCode code).setInSync value) := by
  refine ⟨?_, [.packet code []], ?_, by simpa using .inl isError⟩
  · rw [same]
    rfl
  · rw [Replies, ← silent]
    rfl

theorem receive_same (position : Nat) (bytes : List UInt8) :
    ts.receive position bytes = { ts with channel := (ts.receive position bytes).channel } := rfl

/-- A mismatch of the checksum. -/
theorem processPacket_idle (same : packet = { ts with channel := packet.channel })
    (silent : packet.channel.written = ts.channel.written) (crc : packet.crcMatches fw size = false) :
    Idle ts (packet.processPacket fw readings size).1 := by
  rw [processPacket_mismatch crc]
  split
  · exact .of_error same silent (by decide)
  · exact .of_silent same silent

theorem handlePlainCommand_idle (command : UInt8) :
    Idle ts (ts.handlePlainCommand fw command).1 := by
  have write (bytes : List UInt8) : Idle ts (ts.write bytes) :=
    ⟨rfl, [.plain bytes], rfl, by simp [Written.response]⟩
  have nothing : Idle ts ts := .of_silent rfl rfl
  rw [handlePlainCommand]
  split
  · exact nothing
  split
  · exact write _
  split
  · exact write _
  · exact nothing

theorem Idle.setInSync (idle : Idle ts after) : Idle ts (after.setInSync value) :=
  ⟨by rw [idle.same]; rfl, idle.errors⟩

theorem readTimeout_rest {line' : Line} {bytes : List UInt8}
    (read : line.readTimeout size = (bytes, line')) :
    line.stream.length = bytes.length + line'.stream.length := by
  have reads : line.stream = bytes ++ line'.stream := readTimeout_reads read
  rw [reads, List.length_append]

/-- A packet that does not come as a whole. -/
theorem receivePacket_idle (short : line.stream.length < size + crcValueSize)
    (prompt : 1 ≤ line.arrivals.headD 0) : Idle ts (ts.receivePacket fw readings line size).1.1 := by
  rw [receivePacket]
  split
  · dsimp only
    split
    · exact .of_error rfl rfl (by decide)
    · exact .of_silent rfl rfl
  split
  · obtain ⟨bytes, line', read⟩ : ∃ bytes line', line.readTimeout (size + crcValueSize) = (bytes, line') :=
      ⟨_, _, rfl⟩
    have rest := readTimeout_rest read
    simp only [receiveWhole, read]
    rw [if_pos (by omega)]
    exact .of_error (receive_same 0 bytes) rfl (by decide)
  · obtain ⟨bytes, line', read⟩ : ∃ bytes line', line.readTimeout 1 = (bytes, line') := ⟨_, _, rfl⟩
    obtain ⟨more, line'', read'⟩ :
        ∃ more line'', line'.readTimeout (size + crcValueSize - 1) = (more, line'') := ⟨_, _, rfl⟩
    have rest := readTimeout_rest read
    have rest' := readTimeout_rest read'
    -- the command is missing only if nothing comes at all
    have command : bytes.length = 1 ∨ line.stream.length = 0 := by
      simp only [Line.readTimeout, Prod.mk.injEq] at read
      rw [← read.1, List.length_take]
      omega
    simp only [receiveByCommand, read, read']
    split
    · exact .of_silent (receive_same 0 bytes) rfl
    · have missing : more.length ≠ size + crcValueSize - 1 := by
        have : crcValueSize = 4 := rfl
        omega
      rw [if_pos missing]
      exact .of_silent rfl rfl

/-- Of a packet that breaks off nothing is handed on. -/
theorem tsProcessOne_cut {request : List UInt8} {missing : Nat} (ready : around.isReady = true)
    (small : request.length < 65536) :
    Idle ts (ts.tsProcessOne fw around ((Sent.cut missing).line fw request)).1.1 := by
  let behind := request ++ IoHelper.putInt (fw.singleCrc request).toBitVec
  obtain ⟨count, cut, line⟩ : ∃ count < request.length + 6, (Sent.cut missing).line fw request =
      ⟨(UInt8.ofNat (request.length / 256) :: UInt8.ofNat request.length :: behind).take count,
        List.replicate 4 scratchBufferSize⟩ := by
    have length : (IoHelper.makeCrc32Packet fw.singleCrc request).length = request.length + 6 := by
      simp [IoHelper.makeCrc32Packet, IoHelper.putShort, IoHelper.putInt]
    refine ⟨request.length + 6 - (missing + 1), by omega, ?_⟩
    simp only [Sent.line, length]
    rw [makeCrc32Packet_eq small]
    rfl
  rw [line, tsProcessOne, ready]
  rcases count with - | - | count
  · exact .of_silent rfl rfl
  · simp only [List.take_succ_cons, List.take_zero, Bool.not_true, Bool.false_eq_true, if_false]
    rw [readTimeout_byte _ (by decide)]
    have plain := @handlePlainCommand_idle fw ts (UInt8.ofNat (request.length / 256))
    simp only [Line.readTimeout, List.take_nil]
    cases handled : ts.handlePlainCommand fw (UInt8.ofNat (request.length / 256)) with
    | mk after known =>
      rw [handled] at plain
      cases known with
      | true => exact plain
      | false => exact plain.setInSync
  · simp only [List.take_succ_cons, Bool.not_true, Bool.false_eq_true, if_false]
    rw [readTimeout_byte _ (by decide)]
    dsimp only
    rw [readTimeout_byte _ (by decide)]
    dsimp only
    rw [sizeBytes_value small]
    refine receivePacket_idle ?_ (by decide : 1 ≤ scratchBufferSize)
    have size : crcValueSize = 4 := rfl
    rw [List.length_take]
    exact (Nat.min_le_left _ _).trans_lt (by omega)

theorem supplies_prompt {inSync : Bool} (fits : size + crcValueSize ≤ scratchBufferSize) :
    Supplies (List.replicate 4 scratchBufferSize) (packetReads inSync size) := by
  have one : 1 ≤ scratchBufferSize := by decide
  cases inSync with
  | true => exact ⟨one, one, fits, trivial⟩
  | false => exact ⟨one, one, one, (Nat.sub_le _ _).trans fits, trivial⟩

theorem tsProcessOne_altered {request body crcBytes : List UInt8} (ready : around.isReady = true)
    (possible : (Sent.altered body crcBytes).Possible fw) :
    Idle ts (ts.tsProcessOne fw around ((Sent.altered body crcBytes).line fw request)).1.1 := by
  obtain ⟨checksum, present, fits, detects⟩ := possible
  have supplies := @supplies_prompt body.length ts.inSync fits
  rw [Sent.line, ← List.append_nil (framed body crcBytes)]
  cases known : isKnownCommand (body.headD 0) with
  | true =>
    obtain ⟨line', result, -⟩ :=
      @tsProcessOne_framed fw around ts body crcBytes [] _ ready checksum known fits supplies
    have length : (body ++ crcBytes).length = body.length + crcValueSize := by
      rw [List.length_append, checksum]
    have wrong : (ts.receive 0 (body ++ crcBytes)).crcMatches fw body.length = false := by
      rw [crcMatches_receive length, List.take_left, List.drop_left, decide_eq_false_iff_not]
      exact detects
    rw [result]
    exact processPacket_idle (receive_same 0 _) rfl wrong
  | false =>
    have head : (body ++ crcBytes).headD 0 = body.headD 0 := by
      cases body with
      | nil => cases present
      | cons command behind => rfl
    cases sync : ts.inSync with
    | true =>
      rw [sync, packetReads, if_pos rfl] at supplies
      have result := @tsProcessOne_size fw around ts body crcBytes [] _ _ ready present fits supplies
      rw [sync, if_pos rfl, receiveWhole_framed checksum supplies.2.2.1,
        scratch_receive (List.ne_nil_of_length_pos (by simp; omega)), head, known] at result
      rw [result]
      exact .of_error (receive_same 0 _) rfl (by decide)
    | false =>
      rw [sync, packetReads, if_neg Bool.false_ne_true] at supplies
      obtain ⟨line', same, -⟩ :=
        @receiveByCommand_framed fw around ts body crcBytes [] _ checksum present supplies.2.2
      have result := @tsProcessOne_size fw around ts body crcBytes [] _ _ ready present fits supplies
      rw [sync, if_neg Bool.false_ne_true, same, known] at result
      rw [result]
      exact .of_silent (receive_same 0 _) rfl

end Idle

section Progress

variable {fw : Firmware} {ts next after : TunerStudio} {r : Request} {taken taken' acknowledged : Bool}
  {s s' : Link} {a : Attempt} {attempts : List Attempt}

/-- A request was taken, once or more often, or not at all. -/
structure Progress (fw : Firmware) (r : Request) (taken : Bool) (ts after : TunerStudio) : Prop where
  page : after.page =
    if taken then lastStored fw ts.rebootForPresetPending ts.page [r] else ts.page
  preset : after.rebootForPresetPending = ts.rebootForPresetPending
  burn : after.needToWriteConfiguration =
    (ts.needToWriteConfiguration || (taken && (decide (r = .burn) && !ts.rebootForPresetPending)))

theorem Progress.refl : Progress fw r false ts ts := ⟨rfl, rfl, by simp⟩

theorem lastStored_twice {preset : Bool} {page : Nat → UInt8} :
    lastStored fw preset (lastStored fw preset page [r]) [r] = lastStored fw preset page [r] := by
  funext address
  cases preset with
  | true => rfl
  | false => cases stored : r.storedAt fw address <;> simp [lastStored, stored]

theorem Progress.trans (first : Progress fw r taken ts next) (second : Progress fw r taken' next after) :
    Progress fw r (taken || taken') ts after where
  page := by
    rw [second.page, first.page, first.preset]
    cases taken <;> cases taken' <;> simp [lastStored_twice]
  preset := second.preset.trans first.preset
  burn := by
    rw [second.burn, first.burn, first.preset]
    cases taken <;> cases taken' <;> simp

theorem Served.progress (served : Served fw ts r after) : Progress fw r true ts after :=
  ⟨served.page, served.preset, by rw [served.burn, Bool.true_and]⟩

theorem Idle.progress (idle : Idle ts after) : Progress fw r false ts after := by
  rw [idle.same]
  exact ⟨rfl, rfl, by simp⟩

/-- An error is no acknowledgement. -/
theorem not_acknowledges {replies : List Written} {code : UInt8}
    (errors : ∀ w ∈ replies, w.isError = true ∨ w.response = none)
    (good : code = tsResponseOk ∨ code = tsResponseBurnOk) :
    acknowledges (replies.head?.bind Written.response) code = false := by
  rcases replies with - | ⟨w, replies⟩
  · rfl
  rcases errors w List.mem_cons_self with isError | none
  · cases w with
    | plain bytes => rfl
    | packet responseCode data =>
      have other : responseCode ≠ code := by
        rintro rfl
        rcases good with rfl | rfl <;> simp only [Written.isError, decide_eq_true_eq] at isError <;>
          exact absurd isError (by decide)
      simp [Written.response, acknowledges, checkResponseCode, other]
  · simp [none, acknowledges, checkResponseCode]

theorem deliver_progress (fits : r.Fits) (possible : a.sent.Possible fw) :
    ∃ taken, Progress fw r taken s.ts (s.deliver fw a r.payload).ts ∧
      (taken = false → ∃ errors, (s.deliver fw a r.payload).answers = s.answers ++ errors ∧
        ∀ w ∈ errors, w.isError = true ∨ w.response = none) := by
  have small : r.payload.length < 65536 := by
    have packet := fits.packet
    have : scratchBufferSize = 1330 := rfl
    omega
  have refused (idle : Idle s.ts (s.deliver fw a r.payload).ts) :
      ∃ taken, Progress fw r taken s.ts (s.deliver fw a r.payload).ts ∧
        (taken = false → ∃ errors, (s.deliver fw a r.payload).answers = s.answers ++ errors ∧
          ∀ w ∈ errors, w.isError = true ∨ w.response = none) := by
    obtain ⟨errors, replies, areErrors⟩ := idle.errors
    refine ⟨false, idle.progress, fun _ => ⟨errors, ?_, areErrors⟩⟩
    change s.answers ++ (s.deliver fw a r.payload).ts.channel.written.drop _ = _
    rw [replies, List.drop_left]
  cases sent : a.sent with
  | whole =>
    refine ⟨true, ?_, Bool.noConfusion⟩
    let call : Call := ⟨r, ⟨true, a.readings, s.ts.page, s.ts.rebootForPresetPending⟩,
      List.replicate 4 scratchBufferSize⟩
    have prompt : call.Prompt (s.ts, call.packet fw ++ []) := ⟨rfl, fits, supplies_prompt fits.packet⟩
    obtain ⟨after, done, served⟩ := step_served prompt
    have same : (s.deliver fw a r.payload).ts = after := by
      refine Eq.trans ?_ (congrArg Prod.fst done)
      simp only [Link.deliver, Call.step, sent, Sent.line, Call.packet, List.append_nil, call]
    rw [same]
    exact served.progress
  | cut missing =>
    refine refused ?_
    simp only [Link.deliver, sent]
    exact tsProcessOne_cut rfl small
  | altered body crcBytes =>
    rw [sent] at possible
    refine refused ?_
    simp only [Link.deliver, sent]
    exact tsProcessOne_altered rfl possible

theorem executeCommand_progress {code : UInt8} (fits : r.Fits) (possible : a.sent.Possible fw)
    (good : code = tsResponseOk ∨ code = tsResponseBurnOk) :
    ∃ taken, Progress fw r taken s.ts (s.executeCommand fw a r.command.code r.arguments).1.ts ∧
      (s.executeCommand fw a r.command.code r.arguments).1.isBurnPending = s.isBurnPending ∧
      (a.late = 0 →
        acknowledges (s.executeCommand fw a r.command.code r.arguments).2 code = true → taken = true) := by
  cases isClosed : s.isClosed with
  | true =>
    simp only [Link.executeCommand, isClosed, if_true]
    exact ⟨false, .refl, trivial, fun _ => Bool.noConfusion⟩
  | false =>
    obtain ⟨taken, progress, errors⟩ := @deliver_progress fw r
      { s with answers := s.answers.drop (s.answers.length - a.late) } a fits possible
    refine ⟨taken, ?_⟩
    rw [Link.executeCommand, if_neg (by simp [isClosed])]
    dsimp only
    cases arrival : a.arrival with
    | fails | nothing | altered => exact ⟨progress, rfl, fun _ => Bool.noConfusion⟩
    | next =>
      refine ⟨progress, rfl, fun fresh acknowledged => ?_⟩
      cases taken with
      | true => rfl
      | false =>
        obtain ⟨replies, answers, areErrors⟩ := errors rfl
        have dropped : s.answers.drop (s.answers.length - a.late) = [] := by
          rw [fresh, Nat.sub_zero, List.drop_length]
        have first := answers.trans (congrArg (· ++ replies) dropped)
        have never := not_acknowledges areErrors good
        rw [List.nil_append] at first
        rw [← first] at never
        exact never.symm.trans acknowledged

theorem writeLoop_progress (fits : r.Fits) (write : r.command = .chunkWrite)
    (possible : ∀ a ∈ attempts, a.sent.Possible fw)
    (looped : Link.writeLoop fw r.arguments s attempts = some (s', acknowledged)) :
    ∃ taken, Progress fw r taken s.ts s'.ts ∧ s'.isBurnPending = s.isBurnPending ∧
      ((∀ a ∈ attempts, a.late = 0) → acknowledged = true → taken = true) := by
  induction attempts generalizing s with
  | nil =>
    rw [Link.writeLoop] at looped
    split at looped
    · obtain ⟨rfl, rfl⟩ := Prod.mk.inj (Option.some.inj looped)
      exact ⟨false, .refl, rfl, fun _ => Bool.noConfusion⟩
    · cases looped
  | cons a attempts ih =>
    have others := fun b member => possible b (List.mem_cons_of_mem a member)
    rw [Link.writeLoop] at looped
    dsimp only at looped
    split at looped
    · obtain ⟨taken, progress, pending, fresh⟩ := @executeCommand_progress fw r
        { s with isClosed := a.closesThen } a _ fits (possible a List.mem_cons_self) (.inl rfl)
      rw [write] at progress pending fresh
      split at looped
      · next good =>
        obtain ⟨rfl, rfl⟩ := Prod.mk.inj (Option.some.inj looped)
        exact ⟨taken, progress, pending, fun never _ => fresh (never a List.mem_cons_self) good⟩
      · obtain ⟨again, further, pending', fresh'⟩ := ih others looped
        refine ⟨taken || again, progress.trans further, pending'.trans pending, fun never yes => ?_⟩
        rw [fresh' (fun b member => never b (List.mem_cons_of_mem a member)) yes, Bool.or_true]
    · obtain ⟨rfl, rfl⟩ := Prod.mk.inj (Option.some.inj looped)
      exact ⟨false, .refl, rfl, fun _ => Bool.noConfusion⟩

theorem burnLoop_progress (possible : ∀ a ∈ attempts, a.sent.Possible fw)
    (looped : Link.burnLoop fw s attempts = some s') :
    ∃ taken, Progress fw .burn taken s.ts s'.ts ∧
      ((∀ a ∈ attempts, a.late = 0) → s.isBurnPending = true → s'.isBurnPending = false → taken = true) := by
  have fits : Request.burn.Fits := by decide
  induction attempts generalizing s with
  | nil =>
    rw [Link.burnLoop] at looped
    split at looped
    · obtain rfl := Option.some.inj looped
      exact ⟨false, .refl, fun _ pending done => absurd (pending.symm.trans done) (by decide)⟩
    · cases looped
  | cons a attempts ih =>
    have others := fun b member => possible b (List.mem_cons_of_mem a member)
    rw [Link.burnLoop] at looped
    dsimp only at looped
    split at looped
    · obtain rfl := Option.some.inj looped
      exact ⟨false, .refl, fun _ pending done => absurd (pending.symm.trans done) (by decide)⟩
    · obtain ⟨taken, progress, pending, fresh⟩ := @executeCommand_progress fw .burn
        { s with isClosed := a.closesThen } a _ fits (possible a List.mem_cons_self) (.inr rfl)
      split at looped
      · next good =>
        obtain rfl := Option.some.inj looped
        exact ⟨taken, progress, fun never _ _ => fresh (never a List.mem_cons_self) good⟩
      · obtain ⟨again, further, fresh'⟩ := ih others looped
        refine ⟨taken || again, progress.trans further, fun never before done => ?_⟩
        rw [fresh' (fun b member => never b (List.mem_cons_of_mem a member)) (pending.trans before) done,
          Bool.or_true]

end Progress

/-- A page with a script, as far as its chunks were taken. -/
def scriptOver (page : Nat → UInt8) (luaScript : Nat) (paddedScript : List UInt8) (taken : List Bool) :
    Nat → UInt8 :=
  fun address =>
    if luaScript ≤ address ∧ address < luaScript + paddedScript.length ∧
        taken.getD ((address - luaScript) / blockingFactor) false then
      paddedScript.getD (address - luaScript) 0
    else page address

section Chunks

variable {fw : Firmware} {page : Nat → UInt8} {luaScript idx : Nat} {paddedScript rest : List UInt8}
  {taken acknowledged : List Bool} {s s' : Link} {attempts : List Attempt} {calls : List (List Attempt)}

theorem scriptOver_nil : scriptOver page luaScript rest [] = page := by
  funext address
  simp [scriptOver]

theorem scriptOver_all (all : ∀ k, k * blockingFactor < rest.length → taken.getD k false = true) :
    scriptOver page luaScript rest taken = storeAt page luaScript rest := by
  funext address
  simp only [scriptOver, storeAt]
  by_cases inside : luaScript ≤ address ∧ address < luaScript + rest.length
  · have here : (address - luaScript) / blockingFactor * blockingFactor < rest.length :=
      (Nat.div_mul_le_self _ _).trans_lt (by omega)
    rw [if_pos ⟨inside.1, inside.2, all _ here⟩, if_pos inside]
  · rw [if_neg inside, if_neg fun stored => inside ⟨stored.1, stored.2.1⟩]

/-- The first chunk, and those behind it. -/
theorem scriptOver_cons (first : Bool) :
    scriptOver page luaScript rest (first :: taken) =
      scriptOver (if first then storeAt page luaScript (rest.take blockingFactor) else page)
        (luaScript + blockingFactor) (rest.drop blockingFactor) taken := by
  funext address
  have block : blockingFactor = 1300 := rfl
  generalize same : (if first then storeAt page luaScript (rest.take blockingFactor) else page) = page'
  rcases Nat.lt_or_ge address (luaScript + blockingFactor) with before | behind
  · have chunk : (address - luaScript) / blockingFactor = 0 := Nat.div_eq_of_lt (by omega)
    have later : scriptOver page' (luaScript + blockingFactor) (rest.drop blockingFactor) taken address =
        page' address := if_neg fun stored => absurd stored.1 (Nat.not_le.mpr before)
    rw [later, ← same, scriptOver, chunk, List.getD_cons_zero]
    cases first with
    | false => simp
    | true =>
      simp only [storeAt, List.length_take, if_true, and_true]
      by_cases inside : luaScript ≤ address ∧ address < luaScript + rest.length
      · rw [if_pos inside, if_pos ⟨inside.1, by omega⟩, List.getD_eq_getElem?_getD,
          List.getD_eq_getElem?_getD, List.getElem?_take_of_lt (by omega)]
      · rw [if_neg inside, if_neg fun stored => inside ⟨stored.1, by omega⟩]
  · have chunk : (address - luaScript) / blockingFactor =
        (address - (luaScript + blockingFactor)) / blockingFactor + 1 := by
      rw [← Nat.add_div_right _ (by decide)]
      congr 1
      omega
    have page_eq : page' address = page address := by
      rw [← same]
      cases first with
      | false => rfl
      | true =>
        simp only [storeAt, List.length_take, if_true]
        exact if_neg fun stored => by omega
    have place : blockingFactor + (address - (luaScript + blockingFactor)) = address - luaScript := by
      omega
    have above : luaScript ≤ address := (Nat.le_add_right _ _).trans behind
    have below : address < luaScript + blockingFactor + (rest.length - blockingFactor) ↔
        address < luaScript + rest.length := by omega
    simp only [scriptOver, chunk, List.getElem?_cons_succ, page_eq, List.length_drop, above, behind, below,
      true_and, List.getD_eq_getElem?_getD, List.getElem?_drop, place]

/-- One chunk of a script. -/
theorem writeData_progress {thisWrite : Nat} {acknowledged : Bool}
    (small : luaScript + paddedScript.length < 65536)
    (inside : luaScript + paddedScript.length ≤ fw.totalConfigSize)
    (within : idx + thisWrite ≤ paddedScript.length) (chunk : thisWrite ≤ blockingFactor)
    (running : s.ts.rebootForPresetPending = false) (possible : ∀ a ∈ attempts, a.sent.Possible fw)
    (wrote : s.writeData fw paddedScript idx (luaScript + idx) thisWrite attempts = some (s', acknowledged)) :
    ∃ taken, s'.ts.page = (if taken then
          storeAt s.ts.page (luaScript + idx) ((paddedScript.drop idx).take thisWrite)
        else s.ts.page) ∧
      s'.ts.rebootForPresetPending = false ∧ s'.isBurnPending = true ∧
      s'.ts.needToWriteConfiguration = s.ts.needToWriteConfiguration ∧
      ((∀ a ∈ attempts, a.late = 0) → acknowledged = true → taken = true) := by
  have length : ((paddedScript.drop idx).take thisWrite).length = thisWrite := by
    rw [List.length_take, List.length_drop]
    omega
  let r : Request := .chunkWrite (luaScript + idx) ((paddedScript.drop idx).take thisWrite)
  have range : r.range = (luaScript + idx, thisWrite) := Prod.ext rfl length
  have block : blockingFactor = 1300 := rfl
  have size : r.payload.length = 5 + thisWrite := by
    simp only [r, Request.payload, Request.arguments, packed_eq, List.length_cons, List.length_append,
      List.length_nil, length]
    omega
  have fits : r.Fits := by
    refine ⟨?_, ?_, ?_⟩
    · rw [range]
      dsimp only
      omega
    · rw [range]
      dsimp only
      omega
    · have limit : scratchBufferSize = 1330 := rfl
      have crc : crcValueSize = 4 := rfl
      omega
  have arguments : r.arguments =
      Request.packed (luaScript + idx) thisWrite ++ (paddedScript.drop idx).take thisWrite := by
    simp only [r, Request.arguments, length]
  rw [Link.writeData, ← arguments] at wrote
  obtain ⟨taken, progress, pending, fresh⟩ := writeLoop_progress fits rfl possible wrote
  have stored : r.InRange fw := by
    rw [Request.InRange, range]
    dsimp only
    omega
  refine ⟨taken, ?_, progress.preset.trans running, pending, ?_, fresh⟩
  · have stores : ¬ (s.ts.rebootForPresetPending = true ∨ fw.totalConfigSize < r.range.1 + r.range.2) := by
      rw [running]
      simpa using Nat.not_lt.mpr stored
    rw [progress.page]
    dsimp only
    rw [lastStored_write, if_neg stores, range]
    rfl
  · rw [progress.burn]
    simp [r]

/-- The state after chunks, and which of them were taken. -/
theorem writeChunks_progress (small : luaScript + paddedScript.length < 65536)
    (inside : luaScript + paddedScript.length ≤ fw.totalConfigSize) (within : idx ≤ paddedScript.length)
    (running : s.ts.rebootForPresetPending = false)
    (possible : ∀ tries ∈ calls, ∀ a ∈ tries, a.sent.Possible fw)
    (wrote : Link.writeChunks fw luaScript paddedScript s idx calls = some (s', acknowledged)) :
    ∃ taken, s'.ts.page = scriptOver s.ts.page (luaScript + idx) (paddedScript.drop idx) taken ∧
      s'.ts.rebootForPresetPending = false ∧ s'.isBurnPending = true ∧
      s'.ts.needToWriteConfiguration = s.ts.needToWriteConfiguration ∧
      (paddedScript.length - idx ≤ acknowledged.length * blockingFactor) ∧
      ((∀ tries ∈ calls, ∀ a ∈ tries, a.late = 0) →
        List.Forall₂ (fun a t => a = true → t = true) acknowledged taken) := by
  induction calls generalizing s idx acknowledged with
  | nil => cases wrote
  | cons attempts calls ih =>
    rw [Link.writeChunks] at wrote
    dsimp only at wrote
    split at wrote
    · cases wrote
    · next s₁ first done =>
      obtain ⟨taken, page, running', pending, burn, fresh⟩ := writeData_progress small inside
        (by omega) (Nat.min_le_right _ _) running (possible attempts List.mem_cons_self) done
      have block : blockingFactor = 1300 := rfl
      have others := fun tries member => possible tries (List.mem_cons_of_mem attempts member)
      have whole : (paddedScript.drop idx).take (min (paddedScript.length - idx) blockingFactor) =
          (paddedScript.drop idx).take blockingFactor := by
        rw [← List.length_drop, Nat.min_comm, ← List.take_eq_take_min]
      rw [whole] at page
      split at wrote
      · next more =>
        obtain ⟨⟨s₂, acknowledged'⟩, ran, same⟩ := Option.map_eq_some_iff.mp wrote
        dsimp only at same
        obtain ⟨rfl, rfl⟩ := Prod.mk.inj same
        have full : min (paddedScript.length - idx) blockingFactor = blockingFactor := by omega
        rw [full] at ran more
        obtain ⟨taken', page', running'', pending', burn', long, fresh'⟩ :=
          ih (by omega) running' others ran
        refine ⟨taken :: taken', ?_, running'', pending', burn'.trans burn, ?_, fun never => ?_⟩
        · rw [page', page, scriptOver_cons, List.drop_drop, Nat.add_assoc]
        · rw [List.length_cons, Nat.succ_mul]
          omega
        · exact .cons (fresh (never attempts List.mem_cons_self))
            (fresh' fun tries member => never tries (List.mem_cons_of_mem attempts member))
      · next last =>
        obtain ⟨rfl, rfl⟩ := Prod.mk.inj (Option.some.inj wrote)
        refine ⟨[taken], ?_, running', pending, burn, ?_, fun never => ?_⟩
        · rw [page, scriptOver_cons, scriptOver_nil]
        · rw [List.length_singleton, Nat.one_mul]
          omega
        · exact .cons (fresh (never attempts List.mem_cons_self)) .nil

end Chunks



section Upload

variable {fw : Firmware} {s s₁ s₂ : Link} {luaScript luaScriptSize : Nat} {script : List UInt8}
  {calls : List (List Attempt)} {attempts : List Attempt} {acknowledged : List Bool}

/-- The script as it is written. -/
def padded (luaScriptSize : Nat) (script : List UInt8) : List UInt8 :=
  script ++ List.replicate (luaScriptSize - script.length) 0

theorem write_eq {result : Option (Link × List Bool)}
    (wrote : s.write fw luaScript luaScriptSize script calls = .ok result) :
    script.length ≤ luaScriptSize ∧
      s.writeChunks fw luaScript (padded luaScriptSize script) 0 calls = result := by
  rw [Link.write, arraycopy] at wrote
  split at wrote
  · next fits =>
    have room := fits.2
    rw [Nat.zero_add, List.length_replicate] at room
    refine ⟨room, ?_⟩
    simpa [Except.map, padded] using wrote
  · cases wrote

/-- A first request breaks off and is not answered, the second gets through. -/
def secondTry : List Attempt :=
  [{ readings := nothingReady, sent := .cut 3, arrival := .nothing },
    { elapsed := 1000, readings := nothingReady, sent := .whole, arrival := .next }]

theorem secondTry_possible {attempts : List Attempt} (member : attempts ∈ [secondTry, secondTry]) :
    ∀ a ∈ attempts, a.sent.Possible crcFirmware ∧ a.late = 0 := by
  obtain rfl : attempts = secondTry := by simpa using member
  simp [secondTry, Sent.Possible]

/-- A script of one byte is written. -/
def uploadByte : Java (Option (Link × List Bool)) :=
  Link.write crcFirmware 0 4 ⟨receivedPacket [], [], false, false⟩ [7] [secondTry]

theorem uploadByte_returns : ∃ s₁ s₂, uploadByte = .ok (some (s₁, [true])) ∧
    s₁.burn crcFirmware secondTry = some s₂ ∧ s₂.isBurnPending = false := by
  have acknowledged : (uploadByte.toOption.join.map Prod.snd) = some [true] := by decide +kernel
  have burned : (uploadByte.toOption.join.bind fun result =>
      (result.1.burn crcFirmware secondTry).map Link.isBurnPending) = some false := by decide +kernel
  cases wrote : uploadByte with
  | error text =>
    rw [wrote] at acknowledged
    cases acknowledged
  | ok result =>
    rw [wrote] at acknowledged burned
    obtain ⟨⟨s₁, acks⟩, rfl, same⟩ := Option.map_eq_some_iff.mp acknowledged
    obtain rfl : acks = [true] := same
    obtain ⟨s₂, ran, done⟩ := Option.map_eq_some_iff.mp burned
    exact ⟨s₁, s₂, rfl, ran, done⟩

end Upload

end FomeFw.Console
