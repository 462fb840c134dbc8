import FomeFw.Can.Transfer

/-! What becomes of the bytes when transmissions fail. Neither way of writing to the
stream ever reports a failure, so all that was accepted has to be on the bus or on hold
after every call. -/
namespace FomeFw.Can

open Containers CanStreamerState

inductive TransmitStep where
  | add (txbuf : List UInt8)
  | flush

def CanStreamerState.write (s : CanStreamerState) : TransmitStep → CanStreamerState
  | .add txbuf => s.streamAddToTxTimeout txbuf
  | .flush => s.streamFlushTx

def TransmitStep.bytes : TransmitStep → List UInt8
  | .add txbuf => txbuf
  | .flush => []

/-- All that was accepted is in the frames on the bus, and then in the FIFO, once and in order. -/
def Kept (s : CanStreamerState) (accepted : List UInt8) : Prop :=
  ∃ sent held, Stream s.streamer.ctfList sent ∧ s.txFifoBuf.HoldsFlat held ∧
    accepted = sent ++ held

/-- After each of the calls, all of which return `CAN_MSG_OK`. -/
def AllKept (s : CanStreamerState) (accepted : List UInt8) : List TransmitStep → Prop
  | [] => Kept s accepted
  | step :: steps => Kept s accepted ∧ AllKept (s.write step) (accepted ++ step.bytes) steps

/-- Not even the first frame of a long message passes, and the peer does not let the
sender go on without it. -/
def Refuses (c : CanStreamer) (attempts received : Nat) : Prop :=
  c.transmits attempts = false ∧ ∃ received', Denies c.receives 3 received received'

/-- The bus takes each full buffer that adding `numBytes` to `count` bytes on hold makes,
or refuses the last one when nothing is left to put on hold behind it. -/
inductive AddTaken (c : CanStreamer) : (count numBytes attempts received : Nat) → Prop
  | fits (room : numBytes < canFifoBufSize - count) : AddTaken c count numBytes attempts received
  | sends (full : canFifoBufSize - count ≤ numBytes)
      (taken : Takes c canFifoBufSize attempts received received')
      (rest : AddTaken c 0 (numBytes - (canFifoBufSize - count))
        (attempts + frameCount canFifoBufSize) received') :
      AddTaken c count numBytes attempts received
  | holds (exactly : numBytes = canFifoBufSize - count) (refused : Refuses c attempts received) :
      AddTaken c count numBytes attempts received

/-- The bus takes what the step has to send. -/
def StepTaken (s : CanStreamerState) : TransmitStep → Prop
  | .add txbuf => AddTaken s.streamer s.txFifoBuf.getCount txbuf.length s.streamer.attempts
      s.streamer.received
  | .flush => ∃ received', Takes s.streamer s.txFifoBuf.getCount s.streamer.attempts
      s.streamer.received received'

def AllTaken (s : CanStreamerState) : List TransmitStep → Prop
  | [] => True
  | step :: steps => StepTaken s step ∧ AllTaken (s.write step) steps

variable {s : CanStreamerState} {data sent held accepted : List UInt8}

theorem FifoBuffer.putItems_full {b : FifoBuffer UInt8 canFifoBufSize} (flat : b.HoldsFlat held)
    (full : held.length = canFifoBufSize) (items : List UInt8) : (b.putItems items).1 = b := by
  cases items with
  | nil => rfl
  | cons item items => simp [FifoBuffer.putItems, flat.toHolds.put_full full]

/-- A long message whose first frame is refused and which the peer does not ask for. -/
theorem sendDataTimeout_refused (long : 7 < data.length)
    (refused : s.streamer.transmits s.streamer.attempts = false)
    (denied : Denies s.streamer.receives 3 s.streamer.received received') :
    s.sendDataTimeout data = ({ s with streamer := { s.streamer with
      attempts := s.streamer.attempts + 1
      received := received' } }, 0) := by
  have some : ¬ data.length < 1 := by omega
  have several : ¬ data.length ≤ 7 := by omega
  have waiting := awaitFlowControl_denied
    (s := { s with streamer.attempts := s.streamer.attempts + 1 }) denied
  simp only [sendDataTimeout, some, several, if_false, sendFrame_refused refused, waiting, advance,
    List.length_nil, Nat.add_zero, List.append_nil]

theorem Takes.congr {c c' : CanStreamer} {numBytes attempts received received' : Nat}
    (taken : Takes c numBytes attempts received received') (transmits : c'.transmits = c.transmits)
    (receives : c'.receives = c.receives) : Takes c' numBytes attempts received received' :=
  ⟨by rw [transmits]; exact taken.frames, by rw [receives]; exact taken.flow⟩

/-- One round of the loop: the buffer is filled up and sent as one message. -/
theorem sendFullBuffers_succ (flat : s.txFifoBuf.HoldsFlat held) (fuel : Nat)
    (full : canFifoBufSize - held.length ≤ data.length) :
    ∃ b, b.HoldsFlat (held ++ data.take (canFifoBufSize - held.length)) ∧
      (held ++ data.take (canFifoBufSize - held.length)).length = canFifoBufSize ∧
      s.sendFullBuffers (fuel + 1) data =
        match sendDataTimeout { s with txFifoBuf := b }
          (held ++ data.take (canFifoBufSize - held.length)) with
        | (s, 0) => (s, data)
        | (s, _) => sendFullBuffers { s with txFifoBuf := s.txFifoBuf.clear } fuel
            (data.drop (canFifoBufSize - held.length)) := by
  have bounded : held.length ≤ canFifoBufSize := flat.bounded
  have whole : (held ++ data.take (canFifoBufSize - held.length)).length = canFifoBufSize := by
    rw [List.length_append, List.length_take]
    omega
  obtain ⟨b, put, filled⟩ := @FifoBuffer.HoldsFlat.putItems _ _ _ _
    (data.take (canFifoBufSize - held.length)) flat
    (by rw [← List.length_append]; exact Nat.le_of_eq whole)
  refine ⟨b, filled, whole, ?_⟩
  have space : s.txFifoBuf.getSize - s.txFifoBuf.getCount = canFifoBufSize - held.length := by
    rw [FifoBuffer.getSize, FifoBuffer.getCount, flat.size, flat.count]
  rw [sendFullBuffers, space, if_neg (Nat.not_lt.mpr full), put]
  simp only [filled.getElements] <;> rfl

/-- What the loop leaves: everything is on the bus, on hold or still to be put on hold;
and what is to be put on hold fits, or there is no room at all. -/
theorem sendFullBuffers_kept {c : CanStreamer} {fuel count numBytes attempts received : Nat}
    (taken : AddTaken c count numBytes attempts received)
    (transmits : s.streamer.transmits = c.transmits) (receives : s.streamer.receives = c.receives)
    (attempts_eq : s.streamer.attempts = attempts) (received_eq : s.streamer.received = received)
    (stream : Stream s.streamer.ctfList sent) (flat : s.txFifoBuf.HoldsFlat held)
    (count_eq : held.length = count) (length_eq : data.length = numBytes)
    (enough : numBytes + count / 76 < fuel) :
    ∃ s' rest, s.sendFullBuffers fuel data = (s', rest) ∧
      Kept { s' with txFifoBuf := (s'.txFifoBuf.putItems rest).1 } (sent ++ held ++ data) := by
  have bounded : held.length ≤ 76 := flat.bounded
  obtain ⟨fuel, rfl⟩ : ∃ k, fuel = k + 1 := ⟨fuel - 1, by omega⟩
  induction taken generalizing s data sent held fuel with
  | fits room =>
    subst count_eq length_eq
    obtain ⟨b, put, filled⟩ := @FifoBuffer.HoldsFlat.putItems _ _ _ _ data flat (by omega)
    have space : s.txFifoBuf.getSize - s.txFifoBuf.getCount = canFifoBufSize - held.length := by
      rw [FifoBuffer.getSize, FifoBuffer.getCount, flat.size, flat.count]
    refine ⟨s, data, ?_, sent, held ++ data, stream, ?_, by rw [List.append_assoc]⟩
    · simp [sendFullBuffers, space, room]
    · simpa only [put] using filled
  | @sends count numBytes attempts received received' full taken rest ih =>
    subst count_eq length_eq attempts_eq received_eq
    obtain ⟨b, filled, whole, round⟩ := sendFullBuffers_succ flat fuel full
    have sending := @sendDataTimeout_taken { s with txFifoBuf := b }
      (held ++ data.take (canFifoBufSize - held.length)) _
      (by rw [whole]; exact taken.congr transmits receives)
    rw [sending, whole] at round
    let s₁ := advance { s with txFifoBuf := b.clear }
      (messageFrames (held ++ data.take (canFifoBufSize - held.length))) received'
    have position : s₁.streamer.attempts = s.streamer.attempts + frameCount canFifoBufSize := by
      change s.streamer.attempts + List.length _ = _
      rw [length_messageFrames, whole]
    have full' : 76 - held.length ≤ data.length := full
    obtain ⟨k, rfl⟩ : ∃ k, fuel = k + 1 := ⟨fuel - 1, by omega⟩
    obtain ⟨s', rest, loop, kept⟩ := @ih s₁
      (data.drop (canFifoBufSize - held.length))
      (sent ++ (held ++ data.take (canFifoBufSize - held.length))) [] transmits receives position rfl
      (stream.append (stream_messageFrames (by rw [whole]; decide)))
      (FifoBuffer.clear_holdsFlat filled.toHolds) rfl List.length_drop (Nat.zero_le _) k (by
        change data.length - (76 - held.length) + 0 / 76 < k + 1
        omega)
    refine ⟨s', rest, round.trans loop, ?_⟩
    simpa using kept
  | holds exactly refused =>
    subst count_eq length_eq attempts_eq received_eq
    obtain ⟨b, filled, whole, round⟩ := sendFullBuffers_succ flat fuel (Nat.le_of_eq exactly.symm)
    obtain ⟨lost, received', denied⟩ := refused
    have sending := @sendDataTimeout_refused { s with txFifoBuf := b }
      (held ++ data.take (canFifoBufSize - held.length)) received'
      (by rw [whole]; decide) (by rw [transmits]; exact lost) (by rw [receives]; exact denied)
    have all : data.take (canFifoBufSize - held.length) = data :=
      List.take_of_length_le (Nat.le_of_eq exactly)
    rw [sending] at round
    rw [all] at filled whole
    refine ⟨_, data, round, sent, held ++ data, stream, ?_, by rw [List.append_assoc]⟩
    rw [FifoBuffer.putItems_full filled whole]
    exact filled

theorem write_kept (kept : Kept s accepted) (step : TransmitStep) (taken : StepTaken s step) :
    Kept (s.write step) (accepted ++ step.bytes) := by
  obtain ⟨sent, held, stream, flat, rfl⟩ := kept
  have count : s.txFifoBuf.getCount = held.length := flat.count
  cases step with
  | add txbuf =>
    simp only [StepTaken, count] at taken
    have bounded : held.length ≤ 76 := flat.bounded
    obtain ⟨s', rest, loop, kept⟩ := @sendFullBuffers_kept _ _ _ _ _ (txbuf.length + 2) _ _ _ _
      taken rfl rfl rfl rfl stream flat rfl rfl (by omega)
    simpa only [write, streamAddToTxTimeout, loop, TransmitStep.bytes] using kept
  | flush =>
    obtain ⟨received', taken⟩ := taken
    have bounded : held.length ≤ 76 := flat.bounded
    rw [count] at taken
    have sending := sendDataTimeout_taken taken
    refine ⟨sent ++ held, [], ?_, ?_, by simp [TransmitStep.bytes]⟩
    · simp only [write, streamFlushTx, flat.getElements, sending]
      exact stream.append (stream_messageFrames (by omega))
    · simp only [write, streamFlushTx, flat.getElements, sending]
      exact FifoBuffer.clear_holdsFlat flat.toHolds

theorem allKept_of_kept (steps : List TransmitStep) (kept : Kept s accepted)
    (taken : AllTaken s steps) : AllKept s accepted steps := by
  induction steps generalizing s accepted with
  | nil => exact kept
  | cons step steps ih => exact ⟨kept, ih (write_kept kept step taken.1) taken.2⟩

/-- No byte is lost in a run in which the bus takes what each call has to send. -/
theorem transmit_allKept (streamer : CanStreamer) (unused : streamer.ctfList = [])
    (steps : List TransmitStep) (taken : AllTaken { streamer } steps) :
    AllKept { streamer } [] steps := by
  refine allKept_of_kept steps ⟨[], [], ?_, FifoBuffer.new_holdsFlat (by decide) (by decide), rfl⟩
    taken
  change Stream streamer.ctfList []
  rw [unused]
  exact stream_nil

/-- A bus that takes every frame or none; nobody answers. -/
def quietBus (takes : Bool) : CanStreamer where
  transmits := fun _ => takes
  receives := fun _ => none

theorem transmit_allKept_quietBus :
    (quietBus true).ctfList = [] ∧ AllTaken { streamer := quietBus true } [.add [1], .flush] ∧
      AllKept { streamer := quietBus true } [] [.add [1], .flush] := by
  have taken : AllTaken { streamer := quietBus true } [.add [1], .flush] :=
    ⟨.fits (by decide), ⟨0, fun _ _ => rfl, rfl⟩, trivial⟩
  exact ⟨rfl, taken, transmit_allKept (quietBus true) rfl _ taken⟩

/-- The one byte on hold is dropped with the frame that should have carried it. -/
theorem flush_dropsHeld :
    ¬ AllKept { streamer := quietBus false } [] [.add [1], .flush] := by
  rintro ⟨-, -, sent, held, stream, flat, accepted⟩
  have nothing : held = [] := List.eq_nil_of_length_eq_zero flat.count.symm
  cases stream 0 0
  simp [nothing, TransmitStep.bytes] at accepted

end FomeFw.Can
