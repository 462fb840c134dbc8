import FomeFw.Can.Segments

/-! One message on the bus: the frames it is cut into, and what the sender does when
the bus takes them all over and the peer lets it go on. -/
namespace FomeFw.Can

open Containers

/-- A flow control frame that tells the sender to go on. -/
structure CanFrame.ContinueToSend (frame : CanFrame) : Prop where
  flowControl : frame.typeNibble = IsoTpFrameType.flowControl.code
  status : frame.lowNibble = canFlowStatusOk

/-- A flow control frame that asks the sender to wait for another one. -/
structure CanFrame.AsksToWait (frame : CanFrame) : Prop where
  flowControl : frame.typeNibble = IsoTpFrameType.flowControl.code
  status : frame.lowNibble = canFlowStatusWaitMore

/-- From the `received`-th receive on the peer lets the sender go on, after at most
`attempts` requests to wait. -/
inductive Grants (receives : Nat → Option CanFrame) : (attempts received received' : Nat) → Prop
  | go (heard : receives received = some frame) (goes : frame.ContinueToSend) :
      Grants receives attempts received (received + 1)
  | wait (heard : receives received = some frame) (asks : frame.AsksToWait)
      (later : Grants receives attempts (received + 1) received') :
      Grants receives (attempts + 1) received received'

/-- The peer says nothing, or that there is no room, after at most `attempts` requests
to wait. -/
inductive Denies (receives : Nat → Option CanFrame) : (attempts received received' : Nat) → Prop
  | silence (silent : receives received = none) : Denies receives attempts received (received + 1)
  | refuse (heard : receives received = some frame)
      (flowControl : frame.typeNibble = IsoTpFrameType.flowControl.code)
      (status : frame.lowNibble ≠ canFlowStatusOk)
      (last : attempts = 0 ∨ frame.lowNibble ≠ canFlowStatusWaitMore) :
      Denies receives attempts received (received + 1)
  | wait (heard : receives received = some frame) (asks : frame.AsksToWait)
      (later : Denies receives attempts (received + 1) received') :
      Denies receives (attempts + 1) received received'

/-- The frame for the next seven bytes of a message, or for those that are left. -/
def consecutiveFrame (index : Nat) (data : List UInt8) : CanFrame :=
  let len := min data.length 7
  let header : IsoTpFrameHeader :=
    { frameType := .consecutive, index := index &&& 0xf, numBytes := len }
  header.layout.frame data len

def consecutiveFrames : (count index : Nat) → List UInt8 → List CanFrame
  | 0, _, _ => []
  | count + 1, index, data =>
    consecutiveFrame index data :: consecutiveFrames count (index + 1) (data.drop 7)

/-- Frames behind the first one of a long message. -/
def consecutiveCount (numBytes : Nat) : Nat := (numBytes - 6 + 6) / 7

def messageFrames (data : List UInt8) : List CanFrame :=
  let numBytes := data.length
  if numBytes < 1 then []
  else if numBytes ≤ 7 then
    let header : IsoTpFrameHeader := { frameType := .single, numBytes }
    [header.layout.frame data numBytes]
  else
    let header : IsoTpFrameHeader := { frameType := .first, numBytes }
    header.layout.frame data 6 :: consecutiveFrames (consecutiveCount numBytes) 1 (data.drop 6)

def frameCount (numBytes : Nat) : Nat :=
  if numBytes < 1 then 0 else if numBytes ≤ 7 then 1 else consecutiveCount numBytes + 1

/-- From the given attempt on the bus takes all the frames of a message, and the peer
lets the sender go on with it. -/
structure Takes (c : CanStreamer) (numBytes attempts received received' : Nat) : Prop where
  frames : ∀ i < frameCount numBytes, c.transmits (attempts + i) = true
  flow : if 7 < numBytes then Grants c.receives 3 received received' else received' = received

/-- The state after these frames were transmitted and something was received. -/
def CanStreamerState.advance (s : CanStreamerState) (frames : List CanFrame) (received : Nat) :
    CanStreamerState :=
  { s with streamer := { s.streamer with
    attempts := s.streamer.attempts + frames.length
    ctfList := s.streamer.ctfList ++ frames
    received } }

variable {s : CanStreamerState} {frame : CanFrame} {header : IsoTpFrameHeader}
  {data : List UInt8} {attempts received received' : Nat}

@[simp] theorem length_consecutiveFrames (count index : Nat) (data : List UInt8) :
    (consecutiveFrames count index data).length = count := by
  induction count generalizing index data with
  | zero => rfl
  | succ count ih => simp [consecutiveFrames, ih]

theorem length_messageFrames (data : List UInt8) :
    (messageFrames data).length = frameCount data.length := by
  unfold messageFrames frameCount
  dsimp only
  split
  · rfl
  · split <;> simp

section Frames

theorem carries_consecutiveFrames (count index : Nat) (data : List UInt8)
    (enough : count = (data.length + 6) / 7) :
    Carries data.length (index &&& 0xf) (consecutiveFrames count index data) data := by
  induction count generalizing index data with
  | zero =>
    obtain rfl : data = [] := List.eq_nil_of_length_eq_zero (by omega)
    exact .nil
  | succ count ih =>
    have rest := ih (index + 1) (data.drop 7) (by simp only [List.length_drop]; omega)
    by_cases last : data.length ≤ 7
    · have len : min data.length 7 = data.length := by omega
      have nothing : data.drop 7 = data.drop (min data.length 7) := by
        rw [len, List.drop_length, List.drop_of_length_le last]
      rw [nothing] at rest
      refine carries_consecutive rfl rfl rfl (by omega) ?_
      simpa only [nothing] using rest
    · have len : min data.length 7 = 7 := by omega
      refine carries_consecutive rfl rfl rfl (by omega) ?_
      simpa only [len] using rest

/-- The frames of a message carry it, if its length fits the twelve bits for it. -/
theorem stream_messageFrames (small : data.length < 4096) : Stream (messageFrames data) data := by
  unfold messageFrames
  by_cases none : data.length < 1
  · obtain rfl := List.eq_nil_of_length_eq_zero (Nat.lt_one_iff.mp none)
    exact stream_nil
  · by_cases short : data.length ≤ 7
    · simp only [none, short, if_false, if_true]
      exact stream_single rfl rfl (by omega) short
    · simp only [none, short, if_false]
      refine stream_first rfl rfl (by omega) small ?_
      exact carries_consecutiveFrames _ 1 _ (by simp only [consecutiveCount, List.length_drop])

end Frames

section Sender

open CanStreamerState

theorem advance_advance (frames more : List CanFrame) :
    (s.advance frames received).advance more received' = s.advance (frames ++ more) received' := by
  simp [advance, Nat.add_assoc]

theorem CanFrame.ignored (flowControl : frame.typeNibble = IsoTpFrameType.flowControl.code)
    (num : Nat) : s.receiveFrame frame num = (s, []) := by
  have closed : s.openFrame frame = none := by simp [openFrame, flowControl]
  simp [receiveFrame, closed]

theorem sendFrame_taken (taken : s.streamer.transmits s.streamer.attempts = true) (num : Nat) :
    s.sendFrame header data num =
      (s.advance [header.layout.frame data (min header.layout.maxNumBytes num)] s.streamer.received,
        min header.layout.maxNumBytes num) := by
  simp [sendFrame, CanStreamer.transmit, taken, advance]

theorem sendFrame_refused (refused : s.streamer.transmits s.streamer.attempts = false) (num : Nat) :
    s.sendFrame header data num =
      ({ s with streamer.attempts := s.streamer.attempts + 1 }, 0) := by
  simp [sendFrame, CanStreamer.transmit, refused]

theorem awaitFlowControl_granted
    (granted : Grants s.streamer.receives attempts s.streamer.received received') :
    s.awaitFlowControl attempts = (s.advance [] received', true) := by
  generalize receives_eq : s.streamer.receives = receives at granted
  generalize received_eq : s.streamer.received = received at granted
  induction granted generalizing s with
  | go heard goes =>
    subst receives_eq received_eq
    rw [awaitFlowControl.eq_def]
    simp [CanStreamer.receive, heard, CanFrame.ignored goes.flowControl, goes.status, advance]
  | wait heard asks later ih =>
    subst receives_eq received_eq
    have next := ih (s := { s with streamer := s.streamer.receive.1 }) rfl rfl
    rw [awaitFlowControl.eq_def]
    simp only [CanStreamer.receive] at next
    simp [CanStreamer.receive, heard, CanFrame.ignored asks.flowControl, asks.status, next, advance]

theorem awaitFlowControl_denied
    (denied : Denies s.streamer.receives attempts s.streamer.received received') :
    s.awaitFlowControl attempts = (s.advance [] received', false) := by
  generalize receives_eq : s.streamer.receives = receives at denied
  generalize received_eq : s.streamer.received = received at denied
  induction denied generalizing s with
  | silence silent =>
    subst receives_eq received_eq
    rw [awaitFlowControl.eq_def]
    simp [CanStreamer.receive, silent, advance]
  | @refuse _ _ attempts heard flowControl status last =>
    subst receives_eq received_eq
    rw [awaitFlowControl.eq_def]
    cases attempts with
    | zero => simp [CanStreamer.receive, heard, CanFrame.ignored flowControl, status, advance]
    | succ attempts =>
      have other := last.resolve_left (Nat.succ_ne_zero _)
      simp [CanStreamer.receive, heard, CanFrame.ignored flowControl, status, other, advance]
  | wait heard asks later ih =>
    subst receives_eq received_eq
    have next := ih (s := { s with streamer := s.streamer.receive.1 }) rfl rfl
    rw [awaitFlowControl.eq_def]
    simp only [CanStreamer.receive] at next
    simp [CanStreamer.receive, heard, CanFrame.ignored asks.flowControl, asks.status, next, advance]

theorem sendConsecutive_taken {count fuel index total : Nat}
    (needed : count = (data.length + 6) / 7) (enough : data.length ≤ fuel)
    (taken : ∀ i < count, s.streamer.transmits (s.streamer.attempts + i) = true) :
    s.sendConsecutive fuel index data total =
      (s.advance (consecutiveFrames count index data) s.streamer.received,
        total + data.length) := by
  induction count generalizing s fuel index data total with
  | zero =>
    obtain rfl : data = [] := List.eq_nil_of_length_eq_zero (by omega)
    cases fuel <;> simp [sendConsecutive, consecutiveFrames, advance]
  | succ count ih =>
    obtain ⟨fuel, rfl⟩ : ∃ k, fuel = k + 1 := ⟨fuel - 1, by omega⟩
    have nonempty : data.length ≠ 0 := by omega
    let header : IsoTpFrameHeader :=
      { frameType := .consecutive, index := index &&& 0xf, numBytes := min data.length 7 }
    have sending := @sendFrame_taken s header data
      (taken 0 (Nat.succ_pos _)) (min data.length 7)
    have maxNumBytes : header.layout.maxNumBytes = 7 := rfl
    obtain ⟨len, len_eq⟩ : ∃ len, min data.length 7 = len + 1 :=
      ⟨min data.length 7 - 1, by omega⟩
    rw [maxNumBytes, len_eq, show min 7 (len + 1) = len + 1 by omega] at sending
    have dropped : data.drop (len + 1) = data.drop 7 := by
      rcases Nat.le_total data.length 7 with last | more
      · rw [List.drop_of_length_le (by omega), List.drop_of_length_le (by omega)]
      · rw [show len + 1 = 7 by omega]
    let s₁ := s.advance [header.layout.frame data (len + 1)] s.streamer.received
    have rest := @ih s₁ (data.drop 7) fuel (index + 1) (total + (len + 1))
      (by simp only [List.length_drop]; omega)
      (by simp only [List.length_drop]; omega) (fun i inside => by
        have later := taken (i + 1) (by omega)
        simp only [s₁, advance, List.length_singleton]
        rw [Nat.add_assoc, Nat.add_comm 1 i]
        exact later)
    have added : total + (len + 1) + (data.drop 7).length = total + data.length := by
      simp only [List.length_drop]
      omega
    simp only [header, len_eq] at sending
    simp only [sendConsecutive, nonempty, if_false, len_eq, sending, dropped]
    change s₁.sendConsecutive fuel (index + 1) (data.drop 7) (total + (len + 1)) = _
    rw [rest, advance_advance, added, consecutiveFrames, consecutiveFrame]
    simp only [s₁, header, len_eq, advance, List.singleton_append]

/-- A message that the bus takes is sent whole. -/
theorem sendDataTimeout_taken
    (taken : Takes s.streamer data.length s.streamer.attempts s.streamer.received received') :
    s.sendDataTimeout data = (s.advance (messageFrames data) received', data.length) := by
  by_cases none : data.length < 1
  · have same : received' = s.streamer.received := by
      have flow := taken.flow
      rwa [if_neg (by omega)] at flow
    obtain rfl := List.eq_nil_of_length_eq_zero (Nat.lt_one_iff.mp none)
    simp [sendDataTimeout, messageFrames, advance, same]
  have flow := taken.flow
  have frames := taken.frames
  rcases Nat.lt_or_ge 7 data.length with long | short
  · have several : ¬ data.length ≤ 7 := by omega
    rw [if_pos long] at flow
    rw [frameCount, if_neg none, if_neg several] at frames
    let header : IsoTpFrameHeader := { frameType := .first, numBytes := data.length }
    have sending := @sendFrame_taken s header data
      (frames 0 (Nat.succ_pos _)) data.length
    have six : min header.layout.maxNumBytes data.length = 6 := by
      simp only [header, IsoTpFrameHeader.layout]
      omega
    rw [six] at sending
    let s₁ := s.advance [header.layout.frame data 6] s.streamer.received
    have waiting := awaitFlowControl_granted (s := s₁) flow
    let s₂ := s₁.advance [] received'
    have loop := @sendConsecutive_taken s₂ (data.drop 6) (consecutiveCount data.length) data.length 1 6
      (by simp only [consecutiveCount, List.length_drop])
      (by simp only [List.length_drop]; omega) (fun i inside => by
        have later := frames (i + 1) (by omega)
        simp only [s₂, s₁, advance, List.length_singleton, List.length_nil, Nat.add_zero]
        rw [Nat.add_assoc, Nat.add_comm 1 i]
        exact later)
    have whole : 6 + (data.drop 6).length = data.length := by
      simp only [List.length_drop]
      omega
    simp only [header] at sending
    have granted : s₁.awaitFlowControl 3 = (s₂, true) := waiting
    simp only [s₁, header] at granted
    simp only [sendDataTimeout, none, several, if_false, sending, granted]
    rw [loop, whole, advance_advance, advance_advance, messageFrames]
    simp only [none, several, if_false]
    rfl
  · rw [if_neg (by omega)] at flow
    rw [frameCount, if_neg none, if_pos short] at frames
    let header : IsoTpFrameHeader := { frameType := .single, numBytes := data.length }
    have sending := @sendFrame_taken s header data
      (frames 0 Nat.one_pos) data.length
    have all : min header.layout.maxNumBytes data.length = data.length := by
      simp only [header, IsoTpFrameHeader.layout]
      omega
    rw [all] at sending
    simp only [header] at sending
    simp only [sendDataTimeout, messageFrames, none, short, if_false, if_true, sending, flow]

end Sender

end FomeFw.Can
