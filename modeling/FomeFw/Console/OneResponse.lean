import FomeFw.Console.TunerStudio

/-! One request, one response. Each command's handler sends its own reply, so what
`handleCrcCommand` writes is settled command by command. -/
namespace FomeFw.Console

open TunerStudio

/-- Exactly the packets in `replies` were written in between. -/
def Replies (before after : TunerStudio) (replies : List Written) : Prop :=
  after.channel.written = before.channel.written ++ replies

/-- Exactly one response packet was written. -/
def AnswersOnce (before after : TunerStudio) : Prop :=
  ∃ responseCode data, Replies before after [.packet responseCode data]

/-- A value write that is refused, and those switches of the loggers that only switch.
All other commands, also unknown ones, are as they should be. -/
def Answerable (fw : Firmware) (ts : TunerStudio) : Prop :=
  match TsCommand.ofCode (ts.scratch 0) with
  | some .singleWrite => fw.totalConfigSize ≤ ts.word 0
  | some .setLoggerSwitch => fw.efiToothLogger = true →
    (ts.scratch 1).toNat = 1 ∨ (ts.scratch 1).toNat = 2 ∨
      fw.triggerScope = true ∧ ((ts.scratch 1).toNat = 4 ∨ (ts.scratch 1).toNat = 5)
  | _ => True

variable {fw : Firmware} {readings : Readings} {ts ts' before after : TunerStudio}
  {offset count : Nat} {replies : List Written}

theorem Replies.answersOnce (replied : Replies before after [.packet code data]) :
    AnswersOnce before after := ⟨code, data, replied⟩

/-- Nothing written, or two packets, is no single answer. -/
theorem Replies.notOnce (replied : Replies before after replies) (notOne : replies.length ≠ 1) :
    ¬ AnswersOnce before after := by
  rintro ⟨responseCode, data, once⟩
  have same : replies = [.packet responseCode data] :=
    List.append_cancel_left (replied.symm.trans once)
  exact notOne (by rw [same]; rfl)

theorem sendSmall_replies {data : List UInt8} (small : data.length ≤ blockingFactor + 7) :
    Replies ts (ts.sendSmall data) [.packet tsResponseOk data] := by
  have notBig : TsChannel.isBigPacket data.length = false := by
    simp only [TsChannel.isBigPacket, gt_iff_lt, decide_eq_false_iff_not]
    omega
  simp [Replies, sendSmall, TsChannel.copyAndWriteSmallCrcPacket, notBig,
    TsChannel.writeCrcPacketLocked]

section Handlers

theorem validateOffsetCount_overrun (overrun : fw.totalConfigSize < offset + count) :
    ts.validateOffsetCount fw offset count = (ts.sendErrorCode tsResponseOutOfRange, true) :=
  if_pos overrun

theorem validateOffsetCount_inside (inside : offset + count ≤ fw.totalConfigSize) :
    ts.validateOffsetCount fw offset count = (ts, false) :=
  if_neg (Nat.not_lt.mpr inside)

theorem handleWriteChunkCommand_once (content : Nat) :
    AnswersOnce ts (ts.handleWriteChunkCommand fw offset count content) := by
  rcases Nat.lt_or_ge fw.totalConfigSize (offset + count) with overrun | inside
  · rw [handleWriteChunkCommand, validateOffsetCount_overrun overrun]
    exact ⟨tsResponseOutOfRange, [], rfl⟩
  · rw [handleWriteChunkCommand, validateOffsetCount_inside inside]
    refine ⟨tsResponseOk, [], ?_⟩
    cases preset : ts.rebootForPresetPending <;> simp only [preset] <;> rfl

theorem handleCrc32Check_once : AnswersOnce ts (ts.handleCrc32Check fw offset count) := by
  rcases Nat.lt_or_ge fw.totalConfigSize (offset + count) with overrun | inside
  · rw [handleCrc32Check, validateOffsetCount_overrun overrun]
    exact ⟨tsResponseOutOfRange, [], rfl⟩
  · rw [handleCrc32Check, validateOffsetCount_inside inside]
    exact (sendSmall_replies (by simp)).answersOnce

/-- A value write reports an error; when it is done it says nothing. -/
theorem handleWriteValueCommand_once (value : UInt8) :
    AnswersOnce ts (ts.handleWriteValueCommand fw offset value) ↔ fw.totalConfigSize ≤ offset := by
  rcases Nat.lt_or_ge fw.totalConfigSize (offset + 1) with overrun | inside
  · rw [handleWriteValueCommand, validateOffsetCount_overrun overrun]
    exact iff_of_true ⟨tsResponseOutOfRange, [], rfl⟩ (Nat.le_of_lt_succ overrun)
  · rw [handleWriteValueCommand, validateOffsetCount_inside inside]
    refine iff_of_false (@Replies.notOnce _ _ [] ?_ (by simp)) (Nat.not_le.mpr inside)
    cases preset : ts.rebootForPresetPending <;> simp [Replies, preset]

theorem handlePageReadCommand_once : AnswersOnce ts (ts.handlePageReadCommand fw offset count) := by
  cases preset : ts.rebootForPresetPending with
  | true =>
    simp only [handlePageReadCommand, preset, if_true]
    exact ⟨tsResponseUnrecognizedCommand, [], rfl⟩
  | false =>
    simp only [handlePageReadCommand, preset]
    rcases Nat.lt_or_ge fw.totalConfigSize (offset + count) with overrun | inside
    · rw [validateOffsetCount_overrun overrun]
      exact ⟨tsResponseOutOfRange, [], rfl⟩
    · rw [validateOffsetCount_inside inside]
      exact ⟨tsResponseOk, _, rfl⟩

theorem handleBurnCommand_once : AnswersOnce ts ts.handleBurnCommand := by
  refine ⟨tsResponseBurnOk, [], ?_⟩
  cases preset : ts.rebootForPresetPending <;> simp only [handleBurnCommand, preset] <;> rfl

theorem cmdOutputChannels_once : AnswersOnce ts (ts.cmdOutputChannels fw readings offset count) := by
  rw [cmdOutputChannels]
  split
  · exact ⟨tsResponseOutOfRange, [], rfl⟩
  · exact ⟨tsResponseOk, _, rfl⟩

theorem unexpectedCommand_once : AnswersOnce ts ts.unexpectedCommand.1 :=
  ⟨tsResponseUnrecognizedCommand, [], rfl⟩

/-- Reading a logger's buffer is answered twice: by the buffer, or an error, and by the OK
behind the inner switch; a switch that is not known gets no answer. -/
theorem handleLoggerSwitch_once :
    AnswersOnce ts (ts.handleLoggerSwitch fw readings).1 ↔
      (ts.scratch 1).toNat = 1 ∨ (ts.scratch 1).toNat = 2 ∨
        fw.triggerScope = true ∧ ((ts.scratch 1).toNat = 4 ∨ (ts.scratch 1).toNat = 5) := by
  have twice (ts : TunerStudio) (code : UInt8) (data : List UInt8) :
      ¬ AnswersOnce ts (ts.send code data).sendOkResponse :=
    @Replies.notOnce _ _ [.packet code data, .packet tsResponseOk []]
      (List.append_assoc _ _ _) (by simp)
  have silent (ts : TunerStudio) : ¬ AnswersOnce ts ts :=
    @Replies.notOnce _ _ [] (List.append_nil _).symm (by simp)
  unfold handleLoggerSwitch
  split
  · next switch => exact iff_of_true ⟨tsResponseOk, [], rfl⟩ (.inl switch)
  · next switch => exact iff_of_true ⟨tsResponseOk, [], rfl⟩ (.inr (.inl switch))
  · next switch =>
    refine iff_of_false ?_ (by omega)
    cases readings.toothBuffer with
    | none => exact twice ts _ _
    | some buffer => exact twice ts _ _
  · next switch =>
    by_cases scope : fw.triggerScope = true
    · rw [if_pos scope]
      exact iff_of_true ⟨tsResponseOk, [], rfl⟩ (.inr (.inr ⟨scope, .inl switch⟩))
    · rw [if_neg scope]
      exact iff_of_false (silent ts) (by simp only [scope, switch]; simp)
  · next switch =>
    by_cases scope : fw.triggerScope = true
    · rw [if_pos scope]
      exact iff_of_true ⟨tsResponseOk, [], rfl⟩ (.inr (.inr ⟨scope, .inr switch⟩))
    · rw [if_neg scope]
      exact iff_of_false (silent ts) (by simp only [scope, switch]; simp)
  · next switch =>
    refine iff_of_false ?_ (by omega)
    by_cases scope : fw.triggerScope = true
    · rw [if_pos scope]
      cases readings.triggerScopeBuffer with
      | none => exact twice ts _ _
      | some buffer => exact twice ts _ _
    · rw [if_neg scope]
      exact silent ts
  · next one two three four five six =>
    refine iff_of_false (silent ts) ?_
    rintro (switch | switch | ⟨-, switch | switch⟩)
    · exact one switch
    · exact two switch
    · exact four switch
    · exact five switch

end Handlers

section Misanswered

/-- A build with all there is, a page of four bytes and no checksum to speak of. -/
def smallFirmware : Firmware where
  efiTextLogging := true
  efiToothLogger := true
  triggerScope := true
  enablePerfTrace := true
  efiUseOpenblt := true
  totalConfigSize := 4
  totalOutputSize := 4
  outputs_fit := by decide
  signature := [0]
  signature_small := by decide
  version := [0]
  version_small := by decide
  singleCrc := fun _ => 0

def nothingReady : Readings where
  outputChannels := fun _ => 0
  outputText := []
  toothBuffer := none
  triggerScopeBuffer := none
  perfTraceBuffer := []
  criticalErrorMessage := []

/-- A controller whose scratch buffer starts with these bytes. -/
def receivedPacket (bytes : List UInt8) : TunerStudio where
  channel := { scratchBuffer := fun i => bytes.getD i 0 }
  page := fun _ => 0

end Misanswered

end FomeFw.Console
