import FomeFw.Can.SerialCan

/-! One call of the receiver: where the bytes of a frame go, and what reading the
receive FIFO leaves behind. -/
namespace FomeFw.Can

open Containers CanStreamerState

variable {s s' : CanStreamerState} {frame : CanFrame} {header : IsoTpFrameHeader}
  {data held : List UInt8} {count : Nat} {payload : Payload}

@[simp] theorem CanFrame.length_bytes (offset : Nat) :
    (frame.bytes offset count).length = count := by
  simp [CanFrame.bytes]

theorem CanFrame.take_bytes (offset n : Nat) :
    (frame.bytes offset count).take n = frame.bytes offset (min n count) :=
  List.ext_getElem (by simp) fun i _ _ => by simp [CanFrame.bytes]

theorem CanFrame.drop_bytes (offset n : Nat) :
    (frame.bytes offset count).drop n = frame.bytes (offset + n) (count - n) :=
  List.ext_getElem (by simp) fun i _ _ => by simp [CanFrame.bytes, Nat.add_assoc]

/-- Nothing the receiver waits for changes. -/
structure SameReceiver (s s' : CanStreamerState) : Prop where
  rxFifoBuf : s'.rxFifoBuf = s.rxFifoBuf
  waitingForNumBytes : s'.waitingForNumBytes = s.waitingForNumBytes
  waitingForFrameIndex : s'.waitingForFrameIndex = s.waitingForFrameIndex
  receives : s'.streamer.receives = s.streamer.receives
  received : s'.streamer.received = s.streamer.received

theorem sendFrame_sameReceiver (num : Nat) :
    SameReceiver s (s.sendFrame header data num).1 := by
  by_cases accepted : s.streamer.transmits s.streamer.attempts = true
  all_goals
    simp only [sendFrame, CanStreamer.transmit, accepted]
    exact ⟨rfl, rfl, rfl, rfl, rfl⟩

/-- The bytes of a frame the switch accepts go to the caller first; the FIFO gets
those that are left, as far as it has room. -/
theorem receiveFrame_opened (stored : s.rxFifoBuf.Holds held) (valid : 1 ≤ frame.DLC)
    (opened : s.openFrame frame = some payload) (num : Nat) :
    let bytes := frame.bytes payload.srcOffset payload.numBytesAvailable
    ∃ s', s.receiveFrame frame num = (s', bytes.take num) ∧
      s'.rxFifoBuf.Holds (held ++ (bytes.drop num).take (canFifoBufSize - held.length)) ∧
      s'.waitingForNumBytes = payload.waitingForNumBytes - payload.numBytesAvailable ∧
      s'.waitingForFrameIndex = payload.waitingForFrameIndex ∧
      s'.streamer.receives = s.streamer.receives ∧ s'.streamer.received = s.streamer.received := by
  intro bytes
  have notShort : ¬ frame.DLC < 1 := by omega
  have copied : frame.bytes payload.srcOffset (min num payload.numBytesAvailable) = bytes.take num :=
    (CanFrame.take_bytes _ _).symm
  have left : frame.bytes (payload.srcOffset + min num payload.numBytesAvailable)
      (payload.numBytesAvailable - min num payload.numBytesAvailable) = bytes.drop num := by
    rw [CanFrame.drop_bytes]
    rcases Nat.le_total num payload.numBytesAvailable with inside | outside
    · rw [Nat.min_eq_left inside]
    · rw [Nat.min_eq_right outside, Nat.sub_self, Nat.sub_eq_zero_of_le outside]
      rfl
  let s₁ : CanStreamerState := { s with
    waitingForNumBytes := payload.waitingForNumBytes - payload.numBytesAvailable
    waitingForFrameIndex := payload.waitingForFrameIndex
    rxFifoBuf := (bytes.drop num).foldl (fun fifo byte => (fifo.put byte).1) s.rxFifoBuf }
  have holds : s₁.rxFifoBuf.Holds
      (held ++ (bytes.drop num).take (canFifoBufSize - held.length)) := stored.putEach
  by_cases first : payload.frameType = .first
  · have same := @sendFrame_sameReceiver s₁ flowControlHeader [] 0
    refine ⟨(s₁.sendFrame flowControlHeader [] 0).1, ?_, same.rxFifoBuf ▸ holds,
      same.waitingForNumBytes, same.waitingForFrameIndex, same.receives, same.received⟩
    simp only [receiveFrame, notShort, if_false, opened, first, if_true, copied, left, s₁]
  · refine ⟨s₁, ?_, holds, rfl, rfl, rfl, rfl⟩
    simp only [receiveFrame, notShort, if_false, opened, first, copied, left, s₁]

theorem readFifo_holds {fifo : FifoBuffer UInt8 canFifoBufSize} (holds : fifo.Holds held)
    {count : Nat} (enough : count ≤ held.length) :
    ∃ fifo', readFifo fifo count = (fifo', held.take count) ∧ fifo'.Holds (held.drop count) := by
  induction count generalizing fifo held with
  | zero => exact ⟨fifo, rfl, holds⟩
  | succ count ih =>
    obtain ⟨byte, more, rfl⟩ := List.exists_cons_of_length_pos (Nat.lt_of_lt_of_le (Nat.succ_pos _) enough)
    obtain ⟨fifo₁, got, holds₁⟩ := holds.get_cons
    obtain ⟨fifo', loop, holds'⟩ := ih holds₁ (Nat.le_of_succ_le_succ enough)
    have notEmpty : fifo.isEmpty = false := by
      rw [Bool.eq_false_iff, ne_eq, holds.isEmpty_iff]
      exact List.cons_ne_nil _ _
    exact ⟨fifo', by simp [readFifo, notEmpty, got, loop], holds'⟩

theorem getDataFromFifo_holds (stored : s.rxFifoBuf.Holds held) (numBytes : Nat) :
    ∃ s', s.getDataFromFifo numBytes = (s', held.take numBytes) ∧
      s'.rxFifoBuf.Holds (held.drop numBytes) ∧
      (s'.waitingForNumBytes = s.waitingForNumBytes ∧
        s'.waitingForFrameIndex = s.waitingForFrameIndex) ∧ s'.streamer = s.streamer := by
  by_cases empty : held = []
  · subst empty
    have isEmpty := stored.isEmpty_iff.mpr rfl
    exact ⟨s, by simp [getDataFromFifo, isEmpty], by simpa using stored, ⟨rfl, rfl⟩, rfl⟩
  · have notEmpty : s.rxFifoBuf.isEmpty = false := by
      rw [Bool.eq_false_iff, ne_eq, stored.isEmpty_iff]
      exact empty
    have count : s.rxFifoBuf.getCount = held.length := stored.count
    obtain ⟨fifo, loop, holds⟩ :=
      @readFifo_holds _ _ stored (min numBytes held.length) (Nat.min_le_right _ _)
    rw [← List.take_eq_take_min] at loop
    rw [← List.drop_eq_drop_min] at holds
    exact ⟨{ s with rxFifoBuf := fifo }, by simp [getDataFromFifo, notEmpty, count, loop],
      holds, ⟨rfl, rfl⟩, rfl⟩

end FomeFw.Can
