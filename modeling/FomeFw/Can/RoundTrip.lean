import FomeFw.Can.Transfer
import Mathlib.Data.List.SplitLengths
import Mathlib.Data.Rat.Floor

/-! The stream over ISO-TP loses, repeats and reorders nothing: what the sender
took over is in the frames on the bus or in its FIFO, and what those frames carry
is in the receiver's FIFO, still on the bus or was read. -/
namespace FomeFw.Can

open Containers

/-- Every frame is delivered, and the peer answers each wait for flow control. -/
structure CanStreamer.Cooperative (c : CanStreamer) : Prop where
  delivers : ∀ n, c.transmits n = true
  answers : ∀ n, ∃ frame, c.receives n = some frame ∧ frame.ContinueToSend

/-- The step from `s` to `s'` puts `frames` on a cooperative bus. -/
structure Emits (s s' : CanStreamerState) (frames : List CanFrame) : Prop where
  cooperative : s'.streamer.Cooperative
  ctfList : s'.streamer.ctfList = s.streamer.ctfList ++ frames
  txFifoBuf : s'.txFifoBuf = s.txFifoBuf

variable {s s' s'' : CanStreamerState} {frame : CanFrame} {frames more pending : List CanFrame}
  {header : IsoTpFrameHeader} {data sent held rest : List UInt8}

section Sender

open CanStreamerState

/-- A cooperative bus takes every message. -/
theorem CanStreamer.Cooperative.takes {c : CanStreamer} (cooperative : c.Cooperative)
    (numBytes attempts received : Nat) :
    ∃ received', Takes c numBytes attempts received received' := by
  by_cases long : 7 < numBytes
  · obtain ⟨frame, heard, goes⟩ := cooperative.answers received
    exact ⟨received + 1, fun i _ => cooperative.delivers _, by rw [if_pos long]; exact .go heard goes⟩
  · exact ⟨received, fun i _ => cooperative.delivers _, by rw [if_neg long]⟩

/-- Messages that fit the twelve bits of the length field are sent whole. -/
theorem sendDataTimeout_emits (cooperative : s.streamer.Cooperative)
    (small : data.length < 4096) :
    ∃ s' frames, s.sendDataTimeout data = (s', data.length) ∧ Emits s s' frames ∧
      Stream frames data := by
  obtain ⟨received', taken⟩ := cooperative.takes data.length s.streamer.attempts s.streamer.received
  refine ⟨s.advance (messageFrames data) received', messageFrames data, sendDataTimeout_taken taken,
    ⟨?_, rfl, rfl⟩, stream_messageFrames small⟩
  exact ⟨cooperative.delivers, cooperative.answers⟩

/-- The frames on the bus carry `sent`; the FIFO holds `held`. -/
structure Written (s : CanStreamerState) (sent held : List UInt8) : Prop where
  cooperative : s.streamer.Cooperative
  stream : Stream s.streamer.ctfList sent
  buffered : s.txFifoBuf.HoldsFlat held
  room : held.length < canFifoBufSize

theorem sendFullBuffers_written {fuel : Nat} (written : Written s sent held)
    (enough : data.length < fuel) :
    ∃ s' rest sent' held', s.sendFullBuffers fuel data = (s', rest) ∧ Written s' sent' held' ∧
      held'.length + rest.length < canFifoBufSize ∧
      sent' ++ held' ++ rest = sent ++ held ++ data := by
  induction fuel generalizing s data sent held with
  | zero => omega
  | succ fuel ih =>
    have room := written.room
    have space : s.txFifoBuf.getSize - s.txFifoBuf.getCount = canFifoBufSize - held.length := by
      rw [FifoBuffer.getSize, FifoBuffer.getCount, written.buffered.size, written.buffered.count]
    by_cases fits : data.length < canFifoBufSize - held.length
    · exact ⟨s, data, sent, held, by simp [sendFullBuffers, space, fits], written, by omega, rfl⟩
    · let count := canFifoBufSize - held.length
      have filled : held.length + (data.take count).length ≤ canFifoBufSize := by
        simp only [List.length_take, count]
        omega
      obtain ⟨b, put, full⟩ := written.buffered.putItems filled
      have bounded : (held ++ data.take count).length ≤ 76 := full.bounded
      obtain ⟨s₁, frames, sending, emits, stream⟩ :=
        @sendDataTimeout_emits { s with txFifoBuf := b } (held ++ data.take count)
          written.cooperative
        (by omega)
      obtain ⟨n, n_eq⟩ : ∃ n, (held ++ data.take count).length = n + 1 := by
        refine ⟨(held ++ data.take count).length - 1, ?_⟩
        simp only [List.length_append, List.length_take, count]
        omega
      rw [n_eq] at sending
      have next : Written { s₁ with txFifoBuf := s₁.txFifoBuf.clear }
          (sent ++ (held ++ data.take count)) [] := {
        cooperative := emits.cooperative
        stream := by
          rw [show ({ s₁ with txFifoBuf := s₁.txFifoBuf.clear } : CanStreamerState).streamer.ctfList
            = s.streamer.ctfList ++ frames from emits.ctfList]
          exact written.stream.append stream
        buffered := by
          rw [emits.txFifoBuf]
          exact FifoBuffer.clear_holdsFlat full.toHolds
        room := by decide }
      obtain ⟨s', rest, sent', held', loop, written', short, kept⟩ := @ih _ (data.drop count) _ _ next
        (by simp only [List.length_drop, count]; omega)
      refine ⟨s', rest, sent', held', ?_, written', short, ?_⟩
      · simp only [sendFullBuffers, space, fits, if_false]
        rw [show canFifoBufSize - held.length = count from rfl, put]
        simp only [full.getElements, sending]
        exact loop
      · rw [kept]
        simp

theorem streamAddToTxTimeout_written (written : Written s sent held) (data : List UInt8) :
    ∃ sent' held', Written (s.streamAddToTxTimeout data) sent' held' ∧
      sent' ++ held' = sent ++ held ++ data := by
  obtain ⟨s', rest, sent', held', loop, written', short, kept⟩ :=
    @sendFullBuffers_written _ data _ _ (data.length + 2) written (by omega)
  obtain ⟨b, put, flat⟩ := @FifoBuffer.HoldsFlat.putItems _ _ _ _ rest written'.buffered (by omega)
  refine ⟨sent', held' ++ rest, ?_, by rw [← List.append_assoc, kept]⟩
  simp only [streamAddToTxTimeout, loop, put]
  exact {
    cooperative := written'.cooperative
    stream := written'.stream
    buffered := flat
    room := by simpa using short }

theorem streamFlushTx_written (written : Written s sent held) :
    Written s.streamFlushTx (sent ++ held) [] := by
  have room : held.length < 76 := written.room
  obtain ⟨s', frames, sending, emits, stream⟩ := @sendDataTimeout_emits _ held
    written.cooperative (by omega)
  simp only [streamFlushTx, written.buffered.getElements, sending]
  exact {
    cooperative := emits.cooperative
    stream := by
      simp only [emits.ctfList]
      exact written.stream.append stream
    buffered := by
      simp only [emits.txFifoBuf]
      exact FifoBuffer.clear_holdsFlat written.buffered.toHolds
    room := by decide }

end Sender

section Receiver

open CanStreamerState

/-- The FIFO holds `held`; the frames still to be received carry `rest`. -/
structure Reading (s : CanStreamerState) (pending : List CanFrame) (held rest : List UInt8) :
    Prop where
  stored : s.rxFifoBuf.Holds held
  carries : Carries s.waitingForNumBytes s.waitingForFrameIndex pending rest
  incoming : ∀ n, s.streamer.receives (s.streamer.received + n) = pending[n]?

@[simp] theorem receiveFrames_zero (fuel : Nat) : s.receiveFrames fuel 0 = (s, []) := by
  cases fuel <;> rfl

theorem receiveFrames_reading {fuel space : Nat} (reading : Reading s pending [] rest)
    (enough : space ≤ fuel) :
    ∃ s' pending' held' rest', s.receiveFrames fuel space = (s', rest.take space) ∧
      Reading s' pending' held' rest' ∧ held' ++ rest' = rest.drop space := by
  induction fuel generalizing s pending rest space with
  | zero =>
    obtain rfl := Nat.le_zero.mp enough
    exact ⟨s, pending, [], rest, rfl, reading, rfl⟩
  | succ fuel ih =>
    by_cases done : space = 0
    · subst done
      exact ⟨s, pending, [], rest, by simp [receiveFrames], reading, rfl⟩
    have next := reading.incoming 0
    rw [Nat.add_zero] at next
    cases reading with
    | mk stored carries incoming =>
    generalize waiting_eq : s.waitingForNumBytes = waiting at carries
    generalize index_eq : s.waitingForFrameIndex = index at carries
    cases carries with
    | nil =>
      refine ⟨{ s with streamer := s.streamer.receive.1 }, [], [], [], ?_, ⟨stored, .nil, fun n => ?_⟩,
        by simp⟩
      · simp only [List.getElem?_nil] at next
        simp [receiveFrames, done, CanStreamer.receive, next]
      · have later := incoming (1 + n)
        rw [← Nat.add_assoc] at later
        simpa [CanStreamer.receive] using later
    | @cons _ _ frame frames bytes payload valid opened positive few carried =>
      simp only [List.getElem?_cons_zero] at next
      let s₀ : CanStreamerState := { s with streamer := s.streamer.receive.1 }
      obtain ⟨s₁, received, holds, waiting₁, index₁, receives₁, received₁⟩ :=
        receiveFrame_opened (s := s₀) stored valid (opened s₀ waiting_eq index_eq) space
      let chunk := frame.bytes payload.srcOffset payload.numBytesAvailable
      have length_chunk : chunk.length = payload.numBytesAvailable := CanFrame.length_bytes _
      have fits : (chunk.drop space).take (canFifoBufSize - 0) = chunk.drop space := by
        have capacity : 7 ≤ canFifoBufSize := by decide
        refine List.take_of_length_le ?_
        rw [List.length_drop, length_chunk]
        omega
      rw [List.nil_append, List.length_nil, fits] at holds
      have reading₁ : Reading s₁ frames (chunk.drop space) bytes := {
        stored := holds
        carries := by rwa [waiting₁, index₁]
        incoming := fun n => by
          have later := incoming (1 + n)
          rw [← Nat.add_assoc, Nat.add_comm 1 n, List.getElem?_cons_succ] at later
          rw [receives₁, received₁]
          exact later }
      have step : s.receiveFrames (fuel + 1) space =
          ((s₁.receiveFrames fuel (space - (chunk.take space).length)).1,
            chunk.take space ++ (s₁.receiveFrames fuel (space - (chunk.take space).length)).2) := by
        have nonempty : (chunk.take space).length ≠ 0 := by
          rw [List.length_take, length_chunk]
          omega
        obtain ⟨byte, more, got⟩ := List.exists_cons_of_length_pos (Nat.pos_of_ne_zero nonempty)
        rw [show frame.bytes _ _ = chunk from rfl, got] at received
        have answer : s.streamer.receive = (s.streamer.receive.1, some frame) := by
          simp [CanStreamer.receive, next]
        rw [receiveFrames, if_neg done, answer, got]
        simp only [received, s₀]
      rcases Nat.le_total space chunk.length with inside | whole
      · refine ⟨s₁, frames, chunk.drop space, bytes, ?_, reading₁, ?_⟩
        · rw [step, List.length_take_of_le inside, Nat.sub_self, receiveFrames_zero,
            List.append_nil, List.take_append_of_le_length inside]
        · rw [List.drop_append_of_le_length inside]
      · rw [List.drop_of_length_le whole] at reading₁
        obtain ⟨s', pending', held', rest', loop, reading', kept⟩ := @ih _ _ _ (space - chunk.length)
          reading₁ (by omega)
        refine ⟨s', pending', held', rest', ?_, reading', ?_⟩
        · rw [step, List.take_of_length_le whole, loop, List.take_append,
            List.take_of_length_le whole]
        · rw [kept, List.drop_append, List.drop_of_length_le whole, List.nil_append]

theorem getDataFromFifo_reading (reading : Reading s pending held rest) (numBytes : Nat) :
    ∃ s', s.getDataFromFifo numBytes = (s', held.take numBytes) ∧
      Reading s' pending (held.drop numBytes) rest := by
  obtain ⟨s', got, holds, message, streamer⟩ := getDataFromFifo_holds reading.stored numBytes
  refine ⟨s', got, holds, ?_, ?_⟩
  · rw [message.1, message.2]
    exact reading.carries
  · rw [streamer]
    exact reading.incoming

/-- A read takes the next bytes, as many as asked for or all there are. -/
theorem streamReceiveTimeout_reading (reading : Reading s pending held rest) (np : Nat) :
    ∃ s' pending' held' rest', s.streamReceiveTimeout np = (s', (held ++ rest).take np) ∧
      Reading s' pending' held' rest' ∧ held' ++ rest' = (held ++ rest).drop np := by
  obtain ⟨s₁, stored, reading₁⟩ := getDataFromFifo_reading reading np
  rcases Nat.le_total np held.length with inside | drained
  · refine ⟨s₁, pending, held.drop np, rest, ?_, reading₁, ?_⟩
    · simp only [streamReceiveTimeout, stored, List.length_take_of_le inside, Nat.sub_self,
        receiveFrames_zero, List.append_nil, List.take_append_of_le_length inside]
    · rw [List.drop_append_of_le_length inside]
  · rw [List.drop_of_length_le drained] at reading₁
    rw [List.take_of_length_le drained] at stored
    obtain ⟨s', pending', held', rest', loop, reading', kept⟩ :=
      receiveFrames_reading reading₁ (Nat.le_refl (np - held.length))
    refine ⟨s', pending', held', rest', ?_, reading', ?_⟩
    · simp only [streamReceiveTimeout, stored, loop, List.take_append,
        List.take_of_length_le drained]
    · rw [kept, List.drop_append, List.drop_of_length_le drained, List.nil_append]

/-- Reads of the given sizes, one after the other. -/
def receiveAll (s : CanStreamerState) : List Nat → CanStreamerState × List (List UInt8)
  | [] => (s, [])
  | np :: reads =>
    let (s, got) := s.streamReceiveTimeout np
    let (s, more) := receiveAll s reads
    (s, got :: more)

theorem receiveAll_reading (reading : Reading s pending held rest) (reads : List Nat) :
    (receiveAll s reads).2 = reads.splitLengths (held ++ rest) := by
  induction reads generalizing s pending held rest with
  | nil => rfl
  | cons np reads ih =>
    obtain ⟨s', pending', held', rest', got, reading', kept⟩ :=
      streamReceiveTimeout_reading reading np
    simp only [receiveAll, got, ih reading', kept, List.splitLengths, List.splitAt_eq]

end Receiver

theorem writes_written (written : Written s sent held) (writes : List (List UInt8)) :
    ∃ sent' held', Written (writes.foldl CanStreamerState.streamAddToTxTimeout s) sent' held' ∧
      sent' ++ held' = sent ++ held ++ writes.flatten := by
  induction writes generalizing s sent held with
  | nil => exact ⟨sent, held, written, by simp⟩
  | cons data writes ih =>
    obtain ⟨sent₁, held₁, written₁, kept₁⟩ := streamAddToTxTimeout_written written data
    obtain ⟨sent', held', written', kept⟩ := ih written₁
    exact ⟨sent', held', written', by rw [kept, kept₁, List.flatten_cons, List.append_assoc]⟩

/-- A sender that took over `writes` and was flushed, and a receiver that gets the
frames: every read returns the next bytes written, as many as it asks for or all
that remain, and reads that ask for enough return everything. -/
theorem stream_roundTrip (bus : CanStreamer) (cooperative : bus.Cooperative)
    (idle : bus.ctfList = []) (writes : List (List UInt8)) (transmits : Nat → Bool)
    (reads : List Nat) :
    let sender : CanStreamerState := { streamer := bus }
    let sent := (writes.foldl CanStreamerState.streamAddToTxTimeout
      sender).streamFlushTx.streamer.ctfList
    let receiver : CanStreamerState := { streamer := { transmits, receives := (sent[·]?) } }
    (receiveAll receiver reads).2 = reads.splitLengths writes.flatten ∧
      (writes.flatten.length ≤ reads.sum → (receiveAll receiver reads).2.flatten = writes.flatten) := by
  intro sender sent receiver
  have start : Written sender [] [] := {
    cooperative := cooperative
    stream := by
      simp only [sender, idle]
      exact stream_nil
    buffered := FifoBuffer.new_holdsFlat (by decide) (by decide)
    room := by decide }
  obtain ⟨sent', held', written, kept⟩ := writes_written start writes
  have flushed := (streamFlushTx_written written).stream
  rw [kept, List.nil_append, List.nil_append] at flushed
  have reading : Reading receiver sent [] writes.flatten := {
    stored := (FifoBuffer.new_holdsFlat (by decide) (by decide)).toHolds
    carries := flushed _ _
    incoming := fun n => by simp [receiver] }
  have result := receiveAll_reading reading reads
  rw [List.nil_append] at result
  refine ⟨result, fun enough => ?_⟩
  rw [result]
  exact List.flatten_splitLengths _ _ enough

/-- What `receiveFrame` answers to a first frame lets the sender go on. -/
theorem flowControl_continueToSend :
    (CanStreamerState.flowControlHeader.layout.frame [] 0).ContinueToSend where
  flowControl := IsoTpFrameHeader.typeNibble_frame
  status := IsoTpFrameHeader.lowNibble_frame

/-- The bus of a test: everything is delivered and answered. -/
theorem stream_roundTrip_echo :
    let bus : CanStreamer :=
      { transmits := fun _ => true
        receives := fun _ => some (CanStreamerState.flowControlHeader.layout.frame [] 0) }
    let sender : CanStreamerState := { streamer := bus }
    let sent := ([[0x30, 0x31], [0x32]].foldl CanStreamerState.streamAddToTxTimeout
      sender).streamFlushTx.streamer.ctfList
    (receiveAll { streamer := { transmits := fun _ => true, receives := (sent[·]?) } } [1, 2]).2 =
      [[0x30], [0x31, 0x32]] :=
  (stream_roundTrip _ ⟨fun _ => rfl, fun _ => ⟨_, rfl, flowControl_continueToSend⟩⟩ rfl _ _ _).1

end FomeFw.Can
