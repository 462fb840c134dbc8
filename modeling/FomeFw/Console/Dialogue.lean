import FomeFw.Console.PageWrites
import FomeFw.Console.ReadImage

/-! A whole conversation. What the controller answers to a request about the configuration is settled
by the requests before it: a byte is what was stored there last. -/
namespace FomeFw.Console

open TunerStudio IoHelper

/-- The commands that are about the configuration, and the two that start a conversation. -/
inductive Request where
  | hello
  | getFirmwareVersion
  | read (offset count : Nat)
  | crcCheck (offset count : Nat)
  | chunkWrite (offset : Nat) (data : List UInt8)
  | singleWrite (offset : Nat) (value : UInt8)
  | burn
  deriving DecidableEq

namespace Request

def command : Request → TsCommand
  | hello => .hello
  | getFirmwareVersion => .getFirmwareVersion
  | read _ _ => .read
  | crcCheck _ _ => .crcCheck
  | chunkWrite _ _ => .chunkWrite
  | singleWrite _ _ => .singleWrite
  | burn => .burn

def packed (offset count : Nat) : List UInt8 :=
  ByteRange.packOffsetAndSize (BitVec.ofNat 32 offset) (BitVec.ofNat 32 count)

/-- What comes behind the command. -/
def arguments : Request → List UInt8
  | read offset count | crcCheck offset count => packed offset count
  | chunkWrite offset data => packed offset data.length ++ data
  | singleWrite offset value => packed offset 1 ++ [value]
  | _ => []

def payload (r : Request) : List UInt8 := r.command.code :: r.arguments

/-- Where it is about. -/
def range : Request → Nat × Nat
  | read offset count | crcCheck offset count => (offset, count)
  | chunkWrite offset data => (offset, data.length)
  | singleWrite offset _ => (offset, 1)
  | _ => (0, 0)

/-- The words of the header have 16 bits, and the packet fits into the buffer of the channel. -/
structure Fits (r : Request) : Prop where
  offset : r.range.1 < 65536
  count : r.range.2 < 65536
  packet : r.payload.length + crcValueSize ≤ scratchBufferSize

def InRange (fw : Firmware) (r : Request) : Prop := r.range.1 + r.range.2 ≤ fw.totalConfigSize

instance (fw : Firmware) (r : Request) : Decidable (r.InRange fw) := inferInstanceAs (Decidable (_ ≤ _))

instance (r : Request) : Decidable r.Fits :=
  decidable_of_iff (r.range.1 < 65536 ∧ r.range.2 < 65536 ∧ r.payload.length + crcValueSize ≤ scratchBufferSize)
    ⟨fun fits => ⟨fits.1, fits.2.1, fits.2.2⟩, fun fits => ⟨fits.offset, fits.count, fits.packet⟩⟩

def written : Request → List UInt8
  | chunkWrite _ data => data
  | singleWrite _ value => [value]
  | _ => []

/-- What the request stores at an address. -/
def storedAt (fw : Firmware) (r : Request) (address : Nat) : Option UInt8 :=
  if r.InRange fw ∧ r.range.1 ≤ address then r.written[address - r.range.1]? else none

end Request

/-- The configuration after requests, the latest first. After a preset was loaded nothing is stored. -/
def lastStored (fw : Firmware) (preset : Bool) (page : Nat → UInt8) (past : List Request) : Nat → UInt8 :=
  fun address =>
    if preset then page address
    else (past.findSome? (Request.storedAt fw · address)).getD (page address)

/-- What the controller has to answer, with this configuration. -/
def answerTo (fw : Firmware) (preset : Bool) (page : Nat → UInt8) (r : Request) : List Written :=
  match r with
  | .hello => [.packet tsResponseOk fw.signature]
  | .getFirmwareVersion => [.packet tsResponseOk fw.version]
  | .read offset count =>
    if preset then [.packet tsResponseUnrecognizedCommand []]
    else if r.InRange fw then [.packet tsResponseOk (bytesAt page offset count)]
    else [.packet tsResponseOutOfRange []]
  | .crcCheck offset count =>
    if r.InRange fw then
      [.packet tsResponseOk (putInt (fw.singleCrc (bytesAt page offset count)).toBitVec)]
    else [.packet tsResponseOutOfRange []]
  | .chunkWrite _ _ => [.packet (if r.InRange fw then tsResponseOk else tsResponseOutOfRange) []]
  | .singleWrite _ _ => if r.InRange fw then [] else [.packet tsResponseOutOfRange []]
  | .burn => [.packet tsResponseBurnOk []]

/-- The answers to requests that come after others. -/
def answersTo (fw : Firmware) (preset : Bool) (page : Nat → UInt8) : (past requests : List Request) → List Written
  | _, [] => []
  | past, r :: requests =>
    answerTo fw preset (lastStored fw preset page past) r ++
      answersTo fw preset page (r :: past) requests

/-- A call of `tsProcessOne`, the request that is on the line, and when its bytes are there. -/
structure Call where
  request : Request
  around : Surroundings
  arrivals : List Nat

namespace Call

def packet (fw : Firmware) (call : Call) : List UInt8 := makeCrc32Packet fw.singleCrc call.request.payload

/-- On a controller, and what is still to come on its line. -/
def step (fw : Firmware) (s : TunerStudio × List UInt8) (call : Call) : TunerStudio × List UInt8 :=
  let result := s.1.tsProcessOne fw call.around ⟨s.2, call.arrivals⟩
  (result.1.1, result.2.stream)

/-- The transport is ready and the bytes come before the reads time out. -/
structure Prompt (s : TunerStudio × List UInt8) (call : Call) : Prop where
  isReady : call.around.isReady = true
  fits : call.request.Fits
  supplies : Supplies call.arrivals (packetReads s.1.inSync call.request.payload.length)

end Call

section Packets

variable {fw : Firmware} {readings : Readings} {ts : TunerStudio} {r : Request} {n offset count : Nat}

theorem putShort_swap16 : putShort (swap16 (BitVec.ofNat 32 n)) = [UInt8.ofNat n, UInt8.ofNat (n / 256)] := by
  obtain ⟨b0, b1, b2, b3, joined⟩ := exists_joined (BitVec.ofNat 32 n)
  have value := congrArg BitVec.toNat joined
  have h2 := b2.toNat_lt
  have h3 := b3.toNat_lt
  simp only [BitVec.toNat_ofNat, toNat_joined, List.foldl_cons, List.foldl_nil] at value
  rw [joined, BinaryProtocol.swap16_joined, putShort_joined, List.cons.injEq, List.cons.injEq, ← UInt8.toNat_inj,
    ← UInt8.toNat_inj, UInt8.toNat_ofNat', UInt8.toNat_ofNat']
  exact ⟨by omega, by omega, rfl⟩

theorem packed_eq : Request.packed offset count =
    [UInt8.ofNat offset, UInt8.ofNat (offset / 256), UInt8.ofNat count, UInt8.ofNat (count / 256)] := by
  rw [Request.packed, ByteRange.packOffsetAndSize, putShort_swap16, putShort_swap16]
  rfl

theorem putInt_eq (x : UInt32) : putInt x.toBitVec =
    [x.toNat >>> 24, x.toNat >>> 16, x.toNat >>> 8, x.toNat].map UInt8.ofNat := by
  obtain ⟨b0, b1, b2, b3, joined⟩ := exists_joined x.toBitVec
  have value := congrArg BitVec.toNat joined
  have h0 := b0.toNat_lt
  have h1 := b1.toNat_lt
  have h2 := b2.toNat_lt
  have h3 := b3.toNat_lt
  simp only [UInt32.toNat_toBitVec, toNat_joined, List.foldl_cons, List.foldl_nil] at value
  rw [joined, putInt_joined, value]
  simp only [List.map_cons, List.map_nil, List.cons.injEq, ← UInt8.toNat_inj, UInt8.toNat_ofNat',
    Nat.shiftRight_eq_div_pow, Nat.reducePow] at *
  exact ⟨by omega, by omega, by omega, by omega, trivial⟩

theorem command_ofCode (command : TsCommand) : TsCommand.ofCode command.code = some command := by
  cases command <;> decide

theorem isKnownCommand_code (command : TsCommand) : isKnownCommand command.code = true := by
  cases command <;> decide

/-- The packet in the scratch buffer is a request. -/
def Holds (ts : TunerStudio) (r : Request) : Prop := bytesAt ts.scratch 0 r.payload.length = r.payload

theorem Holds.scratch (holds : Holds ts r) {i : Nat} (small : i < r.payload.length) :
    ts.scratch i = r.payload.getD i 0 := by
  have same := congrArg (·.getD i 0) holds
  simpa [bytesAt, small] using same

theorem Holds.command (holds : Holds ts r) : TsCommand.ofCode (ts.scratch 0) = some r.command := by
  rw [holds.scratch (Nat.succ_pos _)]
  exact command_ofCode _

/-- The words of the header, and the bytes behind it. -/
theorem Holds.header (holds : Holds ts r) (fits : r.Fits) {more : List UInt8}
    (header : r.arguments = Request.packed r.range.1 r.range.2 ++ more) :
    ts.word 0 = r.range.1 ∧ ts.word 1 = r.range.2 ∧ bytesAt ts.scratch 5 more.length = more := by
  have small := fits.offset
  have small' := fits.count
  have payload : r.payload = r.command.code :: (Request.packed r.range.1 r.range.2 ++ more) := by
    rw [Request.payload, header]
  rw [packed_eq] at payload
  have byte {i : Nat} (inside : i < 5 + more.length) := @Holds.scratch ts r holds i (by
    rw [payload]
    simp
    omega)
  rw [payload] at byte
  refine ⟨?_, ?_, ?_⟩
  · rw [word, byte (i := 1 + 2 * 0) (by omega), byte (i := 2 + 2 * 0) (by omega)]
    simp
    omega
  · rw [word, byte (i := 1 + 2 * 1) (by omega), byte (i := 2 + 2 * 1) (by omega)]
    simp
    omega
  · refine List.ext_getElem (by simp [bytesAt]) fun i inside _ => ?_
    have inside : i < more.length := by simpa [bytesAt] using inside
    simp only [bytesAt, List.getElem_map, List.getElem_range', Nat.one_mul]
    rw [byte (by omega), Nat.add_comm 5 i]
    simp [inside]

end Packets

section Served

variable {fw : Firmware} {readings : Readings} {ts after : TunerStudio} {r : Request}
  {past requests : List Request} {page : Nat → UInt8} {preset : Bool}

/-- A request is served: it is answered, and the configuration and the wish to burn are as they should
be. -/
structure Served (fw : Firmware) (ts : TunerStudio) (r : Request) (after : TunerStudio) : Prop where
  written : Replies ts after (answerTo fw ts.rebootForPresetPending ts.page r)
  page : after.page = lastStored fw ts.rebootForPresetPending ts.page [r]
  preset : after.rebootForPresetPending = ts.rebootForPresetPending
  burn : after.needToWriteConfiguration =
    (ts.needToWriteConfiguration || (decide (r = .burn) && !ts.rebootForPresetPending))

theorem lastStored_nil : lastStored fw preset page [] = page := by
  funext address
  cases preset <;> rfl

theorem lastStored_cons :
    lastStored fw preset page (r :: past) = lastStored fw preset (lastStored fw preset page past) [r] := by
  funext address
  cases preset with
  | true => rfl
  | false => cases stored : r.storedAt fw address <;> simp [lastStored, stored]

/-- What stores nothing leaves the configuration. -/
theorem lastStored_silent (silent : r.written = []) : lastStored fw preset page [r] = page := by
  funext address
  cases preset <;> simp [lastStored, Request.storedAt, silent]

theorem lastStored_write : lastStored fw preset page [r] =
    if preset = true ∨ fw.totalConfigSize < r.range.1 + r.range.2 then page
    else storeAt page r.range.1 r.written := by
  funext address
  cases preset with
  | true => rfl
  | false =>
    by_cases outside : fw.totalConfigSize < r.range.1 + r.range.2
    · have refused : ¬ r.InRange fw := Nat.not_le.mpr outside
      simp [lastStored, Request.storedAt, refused, outside]
    · have inside : r.InRange fw := Nat.not_lt.mp outside
      simp only [lastStored, Request.storedAt, inside, true_and, outside, or_false, Bool.false_eq_true,
        if_false, storeAt, List.findSome?_cons, List.findSome?_nil]
      by_cases above : r.range.1 ≤ address
      · by_cases below : address < r.range.1 + r.written.length
        · have here : address - r.range.1 < r.written.length := by omega
          simp [above, below, here]
        · have there : r.written.length ≤ address - r.range.1 := by omega
          simp [above, below, there]
      · simp [above]

/-- A handler that does nothing but answer. -/
theorem Served.of_send {code : UInt8} {data : List UInt8} (silent : r.written = []) (other : r ≠ .burn)
    (same : answerTo fw ts.rebootForPresetPending ts.page r = [.packet code data]) :
    Served fw ts r (ts.send code data) where
  written := same ▸ rfl
  page := (lastStored_silent silent).symm
  preset := rfl
  burn := by simp [other, TunerStudio.send]

theorem Served.of_sendSmall {data : List UInt8} (silent : r.written = []) (other : r ≠ .burn)
    (small : data.length ≤ blockingFactor + 7)
    (same : answerTo fw ts.rebootForPresetPending ts.page r = [.packet tsResponseOk data]) :
    Served fw ts r (ts.sendSmall data) where
  written := same ▸ sendSmall_replies small
  page := by
    rw [lastStored_silent silent, sendSmall]
  preset := rfl
  burn := by simp [other, sendSmall]

theorem handleCrcCommand_served (holds : Holds ts r) (fits : r.Fits) :
    Served fw ts r (ts.handleCrcCommand fw readings r.payload.length).1 := by
  have command := holds.command
  cases r with
  | hello =>
    simp only [handleCrcCommand, command, Request.command]
    exact .of_sendSmall rfl (by simp) fw.signature_small rfl
  | getFirmwareVersion =>
    simp only [handleCrcCommand, command, Request.command]
    exact .of_sendSmall rfl (by simp) (fw.version_small.trans (by decide)) rfl
  | read offset count =>
    obtain ⟨first, second, -⟩ := holds.header fits (List.append_nil _).symm
    simp only [handleCrcCommand, command, Request.command, first, second]
    cases pending : ts.rebootForPresetPending with
    | true =>
      rw [handlePageReadCommand, pending, if_pos rfl]
      exact .of_send rfl (by simp) (by simp [answerTo, pending])
    | false =>
      rw [handlePageReadCommand, pending, if_neg Bool.false_ne_true]
      by_cases inside : (Request.read offset count).InRange fw
      · rw [validateOffsetCount_inside inside]
        exact .of_send rfl (by simp) (by simp [answerTo, pending, inside, Request.range])
      · rw [validateOffsetCount_overrun (Nat.not_le.mp inside)]
        exact .of_send rfl (by simp) (by simp [answerTo, pending, inside])
  | crcCheck offset count =>
    obtain ⟨first, second, -⟩ := holds.header fits (List.append_nil _).symm
    simp only [handleCrcCommand, command, Request.command, first, second, handleCrc32Check]
    by_cases inside : (Request.crcCheck offset count).InRange fw
    · rw [validateOffsetCount_inside inside]
      refine .of_sendSmall rfl (by simp) (by simp) ?_
      simp only [answerTo, inside, if_true, putInt_eq]
      rfl
    · rw [validateOffsetCount_overrun (Nat.not_le.mp inside)]
      exact .of_send rfl (by simp) (by simp [answerTo, inside])
  | chunkWrite offset data =>
    obtain ⟨first, second, content⟩ := holds.header fits rfl
    have content_eq : bytesAt ts.scratch 5 data.length = data := content
    simp only [handleCrcCommand, command, Request.command, first, second, handleWriteChunkCommand]
    rcases Nat.lt_or_ge fw.totalConfigSize (offset + data.length) with outside | inside
    · have refused : ¬ (Request.chunkWrite offset data).InRange fw := Nat.not_le.mpr outside
      simp only [Request.range, validateOffsetCount_overrun outside]
      constructor <;>
        simp [Replies, answerTo, refused, sendErrorCode, send, TsChannel.writeCrcPacketLocked,
          lastStored_write, Request.range, outside]
    · have done : (Request.chunkWrite offset data).InRange fw := inside
      simp only [Request.range, validateOffsetCount_inside inside, content_eq]
      cases pending : ts.rebootForPresetPending <;> constructor <;>
        simp [Replies, answerTo, done, pending, sendOkResponse, send, TsChannel.writeCrcPacketLocked,
          lastStored_write, Request.range, Request.written, Nat.not_lt.mpr inside]
  | singleWrite offset value =>
    obtain ⟨first, -, content⟩ := holds.header fits rfl
    have value_eq : ts.scratch 5 = value := List.head_eq_of_cons_eq content
    simp only [handleCrcCommand, command, Request.command, first, value_eq, handleWriteValueCommand]
    rcases Nat.lt_or_ge fw.totalConfigSize (offset + 1) with outside | inside
    · have refused : ¬ (Request.singleWrite offset value).InRange fw := Nat.not_le.mpr outside
      simp only [Request.range, validateOffsetCount_overrun outside]
      constructor <;>
        simp [Replies, answerTo, refused, sendErrorCode, send, TsChannel.writeCrcPacketLocked,
          lastStored_write, Request.range, outside]
    · have done : (Request.singleWrite offset value).InRange fw := inside
      simp only [Request.range, validateOffsetCount_inside inside]
      cases pending : ts.rebootForPresetPending <;> constructor <;>
        simp [Replies, answerTo, done, pending, lastStored_write, Request.range, Request.written,
          Nat.not_lt.mpr inside]
  | burn =>
    simp only [handleCrcCommand, command, Request.command, handleBurnCommand]
    cases pending : ts.rebootForPresetPending
    · exact ⟨by simp [Replies, send, answerTo, TsChannel.writeCrcPacketLocked],
        (lastStored_silent rfl).symm, by simp [send, pending], by simp [send, pending]⟩
    · exact ⟨by simp [Replies, send, answerTo, TsChannel.writeCrcPacketLocked],
        (lastStored_silent rfl).symm, by simp [send, pending], by simp [send, pending]⟩

/-- A request that arrives in time is served, and no more is read than its packet. -/
theorem step_served {call : Call} {more : List UInt8}
    (prompt : call.Prompt (ts, call.packet fw ++ more)) :
    ∃ after, Call.step fw (ts, call.packet fw ++ more) call = (after, more) ∧
      Served fw ts call.request after := by
  have known : isKnownCommand (call.request.payload.headD 0) = true := isKnownCommand_code _
  obtain ⟨handed, line', accepts⟩ := @tsProcessOne_accepts fw call.around ts more call.arrivals
    prompt.isReady call.request.payload known prompt.fits.packet prompt.supplies
  obtain ⟨written, stored, preset, burn⟩ := @handleCrcCommand_served fw call.around.readings handed
    call.request accepts.packet prompt.fits
  have page : handed.page = ts.page := (congrArg TunerStudio.page accepts.same).trans rfl
  have pending := congrArg TunerStudio.rebootForPresetPending accepts.same
  have wanted := congrArg TunerStudio.needToWriteConfiguration accepts.same
  rw [Replies, accepts.silent, page, pending] at written
  rw [page, pending] at stored
  rw [wanted, pending] at burn
  refine ⟨(handed.handleCrcCommand fw call.around.readings call.request.payload.length).1, ?_,
    ⟨written, stored, preset.trans pending, burn⟩⟩
  simp only [Call.step, Call.packet, accepts.result, accepts.rest]

/-- Where requests after others lead. -/
theorem run_served {calls : List Call} {more : List UInt8} (now : ts.page = lastStored fw preset page past)
    (same : ts.rebootForPresetPending = preset)
    (prompt : Machine.Guarded (Call.step fw) (fun s call => call.Prompt s)
      (ts, calls.flatMap (Call.packet fw) ++ more) calls) :
    ∃ last, calls.foldl (Call.step fw) (ts, calls.flatMap (Call.packet fw) ++ more) = (last, more) ∧
      Replies ts last (answersTo fw preset page past (calls.map Call.request)) ∧
      last.page = lastStored fw preset page ((calls.map Call.request).reverse ++ past) ∧
      last.needToWriteConfiguration = (ts.needToWriteConfiguration ||
        (decide (.burn ∈ calls.map Call.request) && !preset)) := by
  induction calls generalizing ts past with
  | nil => exact ⟨ts, rfl, (List.append_nil _).symm, now, by simp⟩
  | cons call calls ih =>
    rw [List.flatMap_cons, List.append_assoc] at prompt ⊢
    obtain ⟨first, rest⟩ := prompt
    obtain ⟨after, taken, served⟩ := step_served first
    have next : after.page = lastStored fw preset page (call.request :: past) := by
      rw [served.page, same, now, ← lastStored_cons]
    rw [taken] at rest
    obtain ⟨last, ran, replies, stored, burn⟩ := ih next (served.preset.trans same) rest
    refine ⟨last, by rw [List.foldl_cons, taken, ran], ?_, ?_, ?_⟩
    · have answered := served.written
      rw [same, now] at answered
      rw [Replies, replies, answered, List.append_assoc]
      rfl
    · rw [stored, List.map_cons, List.reverse_cons, List.append_assoc]
      rfl
    · rw [burn, served.burn, same, List.map_cons]
      simp only [List.mem_cons, eq_comm, Bool.decide_or, Bool.and_or_distrib_right, Bool.or_assoc]

end Served

/-- Two bytes are written, byte by byte out of sync, and read back with what is around them. -/
def twoCalls : List Call :=
  [⟨.chunkWrite 1 [7, 8], readyChannel, [1, 1, 1, 10]⟩, ⟨.read 0 4, readyChannel, [1, 1, 9]⟩]

end FomeFw.Console
