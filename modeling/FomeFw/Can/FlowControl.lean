import FomeFw.Can.Transfer
import FomeFw.Can.ReceiveBounds

/-! Who may let the sender of a long message go on. The loop that waits for flow
control hands every frame to the receiver and then reads the low nibble of whatever
frame that was, so the condition is on the other frames the peer puts in between. -/
namespace FomeFw.Can

open Containers CanStreamerState

/-- A flow control frame, of which at least the byte with its flag was on the wire. -/
def CanFrame.isFlowControl (frame : CanFrame) : Bool :=
  1 ≤ frame.DLC && frame.typeNibble == IsoTpFrameType.flowControl.code

def CanFrame.asksToWait (frame : CanFrame) : Bool :=
  frame.isFlowControl && frame.lowNibble == canFlowStatusWaitMore

/-- A flag that neither lets the sender go on nor asks it to wait. -/
def CanFrame.refuses (frame : CanFrame) : Bool :=
  frame.isFlowControl && canFlowStatusWaitMore < frame.lowNibble

namespace CanStreamerState

/-- The next frames the bus hands over, up to `count` or to the first time-out, each
with the payload that `receiveFrame` finds in it. -/
def heard (s : CanStreamerState) : (count : Nat) → List (CanFrame × List UInt8)
  | 0 => []
  | count + 1 =>
    match s.streamer.receive with
    | (_, none) => []
    | (streamer, some rxmsg) =>
      let s := { s with streamer }
      (rxmsg, (copyPositions s rxmsg).map rxmsg.data8) :: (s.receiveFrame rxmsg 0).1.heard count

/-- The state in which `sendDataTimeout` starts to wait for flow control. -/
def firstSent (s : CanStreamerState) (txbuf : List UInt8) : CanStreamerState :=
  (s.sendFrame { frameType := .first, numBytes := txbuf.length } txbuf txbuf.length).1

/-- The number of receives between two states. -/
def receivesUntil (s s' : CanStreamerState) : Nat := s'.streamer.received - s.streamer.received

/-- Frames are put on the bus after the wait is over: the consecutive ones. -/
def GoesOn (s : CanStreamerState) (txbuf : List UInt8) : Prop :=
  ((s.firstSent txbuf).awaitFlowControl 3).1.streamer.attempts <
    (s.sendDataTimeout txbuf).1.streamer.attempts

end CanStreamerState

/-- The outcome of a wait of `count` receives, in which the frames in `heard` came in after
the peer had asked to wait `waits` times: only the peer's own flow control is a permission;
only silence, a refusal or too many requests to wait make the sender give up. -/
structure Justified (goesOn : Prop) (count waits : Nat) (heard : List (CanFrame × List UInt8)) :
    Prop where
  permission : goesOn → ∃ h ∈ heard, h.1.isFlowControl ∧ h.1.lowNibble = canFlowStatusOk
  abort : ¬ goesOn → heard.length < count ∨ (∃ h ∈ heard, h.1.refuses) ∨
    3 < waits + heard.countP (·.1.asksToWait)

/-- What is asked of a call for a long message that takes the state from `s` to `s'`. -/
structure FlowHonoured (s s' : CanStreamerState) (goesOn : Prop) (count : Nat)
    (heard : List (CanFrame × List UInt8)) : Prop extends Justified goesOn count 0 heard where
  payload : ∀ held, s.rxFifoBuf.Holds held → s'.rxFifoBuf.Holds (held ++ heard.flatMap (·.2))

/-- One call of `sendDataTimeout`. -/
def SendHonours (s : CanStreamerState) (txbuf : List UInt8) : Prop :=
  let waiting := s.firstSent txbuf
  let s' := (s.sendDataTimeout txbuf).1
  let count := waiting.receivesUntil s'
  FlowHonoured s s' (s.GoesOn txbuf) count (waiting.heard count)

/-- How often the waiting loop receives. -/
def listens (receives : Nat → Option CanFrame) (attempts received : Nat) : Nat :=
  match receives received with
  | none => 1
  | some frame =>
    if frame.lowNibble = canFlowStatusWaitMore then
      match attempts with
      | 0 => 1
      | attempts + 1 => listens receives attempts (received + 1) + 1
    else 1

/-- The frame that ends the wait is flow control; and where the wait ends because it
was asked for too often, it was the peer's flow control that asked each time. `waits`
counts the requests up to now. -/
def EndsOnFlowControl (receives : Nat → Option CanFrame) (attempts received waits : Nat) : Prop :=
  match receives received with
  | none => True
  | some frame =>
    if frame.lowNibble = canFlowStatusWaitMore then
      match attempts with
      | 0 => frame.isFlowControl = true ∧ 3 ≤ waits
      | attempts + 1 => EndsOnFlowControl receives attempts (received + 1)
        (waits + if frame.asksToWait then 1 else 0)
    else frame.isFlowControl = true

/-- The peer's frames leave no doubt, and there is room for their payload. -/
structure Unmistakable (s : CanStreamerState) (txbuf : List UInt8) : Prop where
  ends : EndsOnFlowControl s.streamer.receives 3 s.streamer.received 0
  room : s.rxFifoBuf.getCount + (((s.firstSent txbuf).heard
    (listens s.streamer.receives 3 s.streamer.received)).flatMap (·.2)).length ≤ canFifoBufSize

variable {s : CanStreamerState} {frame : CanFrame} {data held : List UInt8} {attempts waits : Nat}

theorem receiveFrame_position (num : Nat) :
    (s.receiveFrame frame num).1.streamer.receives = s.streamer.receives ∧
      (s.receiveFrame frame num).1.streamer.received = s.streamer.received := by
  by_cases closed : frame.DLC < 1 ∨ s.openFrame frame = none
  · simp [(@receiveFrame_closed _ _ num closed).1]
  · obtain ⟨valid, some⟩ := not_or.mp closed
    obtain ⟨payload, opened⟩ := Option.ne_none_iff_exists'.mp some
    by_cases first : payload.frameType = .first
    · simp only [receiveFrame, valid, if_false, opened, first, if_true]
      exact ⟨(sendFrame_sameReceiver 0).receives, (sendFrame_sameReceiver 0).received⟩
    · simp [receiveFrame, valid, opened, first]

/-- The state after a frame was received and handed to `receiveFrame` without a buffer. -/
def CanStreamerState.overhear (s : CanStreamerState) (frame : CanFrame) : CanStreamerState :=
  (receiveFrame { s with streamer := s.streamer.receive.1 } frame 0).1

@[simp] theorem overhear_receives :
    (s.overhear frame).streamer.receives = s.streamer.receives :=
  (receiveFrame_position 0).1

@[simp] theorem overhear_received :
    (s.overhear frame).streamer.received = s.streamer.received + 1 :=
  (receiveFrame_position 0).2

theorem heard_silence (silent : s.streamer.receives s.streamer.received = none) (count : Nat) :
    s.heard (count + 1) = [] := by
  simp [heard, CanStreamer.receive, silent]

theorem heard_frame (heard : s.streamer.receives s.streamer.received = some frame) (count : Nat) :
    s.heard (count + 1) =
      (frame, (copyPositions s frame).map frame.data8) :: (s.overhear frame).heard count := by
  simp only [CanStreamerState.heard, CanStreamer.receive, heard]
  rfl

section Waiting

/-- What one receive does to the wait: silence ends it, and so does a frame of any kind,
by its low nibble, unless that asks to wait and may still be asked. -/
theorem awaitFlowControl_cases (s : CanStreamerState) (attempts : Nat) :
    (s.streamer.receives s.streamer.received = none ∧
        s.awaitFlowControl attempts = ({ s with streamer := s.streamer.receive.1 }, false)) ∨
      ∃ frame, s.streamer.receives s.streamer.received = some frame ∧
        ((frame.lowNibble = canFlowStatusOk ∧
            s.awaitFlowControl attempts = (s.overhear frame, true)) ∨
          (frame.lowNibble ≠ canFlowStatusOk ∧
            (frame.lowNibble = canFlowStatusWaitMore → attempts = 0) ∧
            s.awaitFlowControl attempts = (s.overhear frame, false)) ∨
          (frame.lowNibble = canFlowStatusWaitMore ∧ ∃ fewer, attempts = fewer + 1 ∧
            s.awaitFlowControl attempts = (s.overhear frame).awaitFlowControl fewer)) := by
  rw [awaitFlowControl.eq_def]
  cases heard : s.streamer.receives s.streamer.received with
  | none => exact .inl ⟨rfl, by simp only [CanStreamer.receive, heard]⟩
  | some frame =>
    refine .inr ⟨frame, rfl, ?_⟩
    simp only [CanStreamer.receive, heard, overhear]
    by_cases goes : frame.lowNibble = canFlowStatusOk
    · exact .inl ⟨goes, by simp [goes]⟩
    cases attempts with
    | zero => exact .inr (.inl ⟨goes, fun _ => rfl, by simp [goes]⟩)
    | succ fewer =>
      by_cases asks : frame.lowNibble = canFlowStatusWaitMore
      · exact .inr (.inr ⟨asks, fewer, rfl, by simp [asks]⟩)
      · exact .inr (.inl ⟨goes, fun wait => absurd wait asks, by simp [goes, asks]⟩)

theorem listens_silence (silent : s.streamer.receives s.streamer.received = none) :
    listens s.streamer.receives attempts s.streamer.received = 1 := by
  rw [listens.eq_def, silent]

theorem listens_last (heard : s.streamer.receives s.streamer.received = some frame)
    (last : frame.lowNibble = canFlowStatusWaitMore → attempts = 0) :
    listens s.streamer.receives attempts s.streamer.received = 1 := by
  rw [listens.eq_def, heard]
  by_cases asks : frame.lowNibble = canFlowStatusWaitMore
  · simp [asks, last asks]
  · simp [asks]

theorem listens_wait (heard : s.streamer.receives s.streamer.received = some frame)
    (asks : frame.lowNibble = canFlowStatusWaitMore) :
    listens s.streamer.receives (attempts + 1) s.streamer.received =
      listens (s.overhear frame).streamer.receives attempts (s.overhear frame).streamer.received
        + 1 := by
  rw [listens.eq_def, heard, overhear_receives, overhear_received]
  simp [asks, Nat.add_comm]

theorem awaitFlowControl_received :
    (s.awaitFlowControl attempts).1.streamer.received =
      s.streamer.received + listens s.streamer.receives attempts s.streamer.received := by
  induction attempts using Nat.strongRecOn generalizing s with
  | ind attempts ih =>
    obtain ⟨silent, wait⟩ | ⟨frame, heard, ⟨goes, wait⟩ | ⟨-, last, wait⟩ | ⟨asks, fewer, rfl, wait⟩⟩ :=
      awaitFlowControl_cases s attempts
    · rw [wait, listens_silence silent, CanStreamer.receive]
    · rw [wait, listens_last heard (by simp [goes]), overhear_received]
    · rw [wait, listens_last heard last, overhear_received]
    · rw [wait, listens_wait heard asks, ih fewer (Nat.lt_succ_self _), overhear_received]
      omega

theorem justified_silence (goesOn : Prop) (ends : ¬ goesOn) : Justified goesOn 1 waits [] :=
  ⟨fun goes => absurd goes ends, fun _ => .inl Nat.one_pos⟩

theorem justified_last {goesOn : Prop} (decides : goesOn ↔ frame.lowNibble = canFlowStatusOk)
    (few : waits ≤ 3) (payload : List UInt8) :
    Justified goesOn 1 waits [(frame, payload)] ↔
      frame.isFlowControl = true ∧ (frame.lowNibble = canFlowStatusWaitMore → 3 ≤ waits) := by
  constructor
  · rintro ⟨permission, abort⟩
    by_cases goes : goesOn
    · have status := decides.mp goes
      obtain ⟨flow, -⟩ : frame.isFlowControl ∧ _ := by simpa using permission goes
      exact ⟨flow, by simp [status]⟩
    · rcases abort goes with short | refused | often
      · exact absurd short (by simp)
      · obtain ⟨flow, above⟩ : frame.isFlowControl ∧ canFlowStatusWaitMore < frame.lowNibble := by
          simpa [CanFrame.refuses] using refused
        exact ⟨flow, fun asks => absurd asks (Nat.ne_of_gt above)⟩
      · rw [List.countP_singleton] at often
        by_cases asks : frame.asksToWait = true
        · obtain ⟨flow, status⟩ : frame.isFlowControl ∧ _ := by
            simpa [CanFrame.asksToWait] using asks
          rw [if_pos asks] at often
          exact ⟨flow, fun _ => by omega⟩
        · rw [if_neg asks] at often
          omega
  · rintro ⟨flow, enough⟩
    refine ⟨fun goes => ⟨_, List.mem_singleton_self _, flow, decides.mp goes⟩, fun stays => .inr ?_⟩
    have status : frame.lowNibble ≠ 0 := mt decides.mpr stays
    by_cases asks : frame.lowNibble = canFlowStatusWaitMore
    · have all := enough asks
      exact .inr (by simp [CanFrame.asksToWait, flow, asks]; omega)
    · have above : canFlowStatusWaitMore < frame.lowNibble := by
        change frame.lowNibble ≠ 1 at asks
        change 1 < frame.lowNibble
        omega
      exact .inl ⟨_, List.mem_singleton_self _, by simp [CanFrame.refuses, flow, above]⟩

theorem justified_wait {goesOn : Prop} {count : Nat} {heard : List (CanFrame × List UInt8)}
    (asks : frame.lowNibble = canFlowStatusWaitMore) (payload : List UInt8) :
    Justified goesOn (count + 1) waits ((frame, payload) :: heard) ↔
      Justified goesOn count (waits + if frame.asksToWait then 1 else 0) heard := by
  have notGo : frame.lowNibble ≠ canFlowStatusOk := by simp [asks]
  have notRefuse : frame.refuses = false := by simp [CanFrame.refuses, asks]
  have total : waits + ((frame, payload) :: heard).countP (·.1.asksToWait) =
      waits + (if frame.asksToWait then 1 else 0) + heard.countP (·.1.asksToWait) := by
    rw [List.countP_cons, Nat.add_right_comm, Nat.add_assoc]
  have goOn : (∃ h ∈ (frame, payload) :: heard, h.1.isFlowControl ∧
      h.1.lowNibble = canFlowStatusOk) ↔ ∃ h ∈ heard, h.1.isFlowControl ∧
      h.1.lowNibble = canFlowStatusOk := by simp [notGo]
  have refuse : (∃ h ∈ (frame, payload) :: heard, h.1.refuses) ↔ ∃ h ∈ heard, h.1.refuses := by
    simp [notRefuse]
  constructor
  · rintro ⟨permission, abort⟩
    rw [goOn] at permission
    rw [refuse, total, List.length_cons, Nat.succ_lt_succ_iff] at abort
    exact ⟨permission, abort⟩
  · rintro ⟨permission, abort⟩
    rw [← goOn] at permission
    rw [← refuse, ← total, ← Nat.succ_lt_succ_iff] at abort
    exact ⟨permission, abort⟩

/-- The outcome of the wait is right exactly if the frame that ends it is the peer's own. -/
theorem awaitFlowControl_iff (few : waits + attempts ≤ 3) :
    Justified ((s.awaitFlowControl attempts).2 = true)
        (listens s.streamer.receives attempts s.streamer.received) waits
        (s.heard (listens s.streamer.receives attempts s.streamer.received)) ↔
      EndsOnFlowControl s.streamer.receives attempts s.streamer.received waits := by
  induction attempts using Nat.strongRecOn generalizing s waits with
  | ind attempts ih =>
    obtain ⟨silent, wait⟩ | ⟨frame, heard, ⟨goes, wait⟩ | ⟨no, last, wait⟩ | ⟨asks, fewer, rfl, wait⟩⟩ :=
      awaitFlowControl_cases s attempts
    all_goals rw [EndsOnFlowControl.eq_def, wait]
    · rw [listens_silence silent, heard_silence silent, silent]
      exact iff_of_true (justified_silence _ (by simp)) trivial
    · rw [listens_last heard (by simp [goes]), heard_frame heard, heard]
      refine (justified_last (by simp [goes]) (by omega) _).trans ?_
      simp [goes]
    · rw [listens_last heard last, heard_frame heard, heard]
      refine (justified_last (by simp [no]) (by omega) _).trans ?_
      by_cases asks : frame.lowNibble = canFlowStatusWaitMore
      · simp [asks, last asks]
      · simp [asks]
    · rw [listens_wait heard asks, heard_frame heard, heard]
      refine (justified_wait asks _).trans ((ih fewer (Nat.lt_succ_self _) ?_).trans ?_)
      · split <;> omega
      · simp [asks]

theorem overhear_holds (stored : s.rxFifoBuf.Holds held)
    (room : held.length + (copyPositions s frame).length ≤ canFifoBufSize) :
    (s.overhear frame).rxFifoBuf.Holds (held ++ (copyPositions s frame).map frame.data8) := by
  let s₁ : CanStreamerState := { s with streamer := s.streamer.receive.1 }
  by_cases closed : frame.DLC < 1 ∨ s₁.openFrame frame = none
  · obtain ⟨same, nowhere⟩ := @receiveFrame_closed _ _ 0 closed
    change copyPositions s frame = [] at nowhere
    rw [overhear, same, nowhere, List.map_nil, List.append_nil]
    exact stored
  · obtain ⟨valid, some⟩ := not_or.mp closed
    obtain ⟨payload, opened⟩ := Option.ne_none_iff_exists'.mp some
    obtain ⟨s', received, holds, -⟩ :=
      receiveFrame_opened (s := s₁) stored (Nat.le_of_not_lt valid) opened 0
    have positions : copyPositions s frame = _ := copyPositions_opened (s := s₁) valid opened
    rw [positions] at room ⊢
    rw [List.drop_zero, List.take_of_length_le] at holds
    · rw [overhear, received]
      exact holds
    · rw [CanFrame.length_bytes]
      rw [List.length_range'] at room
      exact Nat.le_sub_of_add_le' room

/-- What came in during the wait is in the FIFO afterwards, if there is room for it. -/
theorem awaitFlowControl_holds (stored : s.rxFifoBuf.Holds held)
    (room : held.length + ((s.heard (listens s.streamer.receives attempts
      s.streamer.received)).flatMap (·.2)).length ≤ canFifoBufSize) :
    (s.awaitFlowControl attempts).1.rxFifoBuf.Holds (held ++ (s.heard
      (listens s.streamer.receives attempts s.streamer.received)).flatMap (·.2)) := by
  induction attempts using Nat.strongRecOn generalizing s held with
  | ind attempts ih =>
    obtain ⟨silent, wait⟩ | ⟨frame, heard, ⟨goes, wait⟩ | ⟨no, last, wait⟩ | ⟨asks, fewer, rfl, wait⟩⟩ :=
      awaitFlowControl_cases s attempts
    all_goals rw [wait]
    · rw [listens_silence silent, heard_silence silent]
      simpa using stored
    · rw [listens_last heard (by simp [goes]), heard_frame heard] at room ⊢
      simp only [CanStreamerState.heard, List.flatMap_cons, List.flatMap_nil, List.append_nil,
        List.length_map] at room ⊢
      exact overhear_holds stored room
    · rw [listens_last heard last, heard_frame heard] at room ⊢
      simp only [CanStreamerState.heard, List.flatMap_cons, List.flatMap_nil, List.append_nil,
        List.length_map] at room ⊢
      exact overhear_holds stored room
    · rw [listens_wait heard asks, heard_frame heard, List.flatMap_cons] at room ⊢
      rw [List.length_append, List.length_map] at room
      have first := @overhear_holds _ frame _ stored (by omega)
      have rest := ih fewer (Nat.lt_succ_self _) first
        (by rw [List.length_append, List.length_map]; omega)
      rwa [List.append_assoc] at rest

end Waiting

section Call

theorem SameReceiver.trans {s s' s'' : CanStreamerState} (first : SameReceiver s s')
    (next : SameReceiver s' s'') : SameReceiver s s'' :=
  ⟨next.rxFifoBuf.trans first.rxFifoBuf,
    next.waitingForNumBytes.trans first.waitingForNumBytes,
    next.waitingForFrameIndex.trans first.waitingForFrameIndex,
    next.receives.trans first.receives, next.received.trans first.received⟩

theorem sendFrame_attempts {header : IsoTpFrameHeader} (num : Nat) :
    (s.sendFrame header data num).1.streamer.attempts = s.streamer.attempts + 1 := by
  by_cases accepted : s.streamer.transmits s.streamer.attempts = true <;>
    simp [sendFrame, CanStreamer.transmit, accepted]

/-- The consecutive frames are sent without a look at the bus. -/
theorem sendConsecutive_sameReceiver (fuel index total : Nat) :
    SameReceiver s (s.sendConsecutive fuel index data total).1 ∧
      s.streamer.attempts ≤ (s.sendConsecutive fuel index data total).1.streamer.attempts := by
  have same : SameReceiver s s := ⟨rfl, rfl, rfl, rfl, rfl⟩
  induction fuel generalizing s index data total with
  | zero => exact ⟨same, Nat.le_refl _⟩
  | succ fuel ih =>
    simp only [sendConsecutive]
    split
    · exact ⟨same, Nat.le_refl _⟩
    · have sent := @sendFrame_sameReceiver s
        { frameType := .consecutive, index := index &&& 0xf, numBytes := min data.length 7 } data (min data.length 7)
      have attempts := @sendFrame_attempts s data
        { frameType := .consecutive, index := index &&& 0xf, numBytes := min data.length 7 } (min data.length 7)
      split
      · next s₁ none =>
        rw [none] at sent attempts
        exact ⟨sent, by rw [attempts]; omega⟩
      · next s₁ numSent _ some =>
        rw [some] at sent attempts
        obtain ⟨rest, later⟩ := @ih s₁ (data.drop numSent) (index + 1)
          (total + numSent) ⟨rfl, rfl, rfl, rfl, rfl⟩
        exact ⟨sent.trans rest, by simp only at attempts; omega⟩

theorem sendConsecutive_attempts (some : data.length ≠ 0) (fuel index total : Nat) :
    s.streamer.attempts <
      (s.sendConsecutive (fuel + 1) index data total).1.streamer.attempts := by
  simp only [sendConsecutive, some, if_false]
  have attempts := @sendFrame_attempts s data
    { frameType := .consecutive, index := index &&& 0xf, numBytes := min data.length 7 } (min data.length 7)
  split
  · next s₁ none =>
    rw [none] at attempts
    simp only at attempts ⊢
    omega
  · next s₁ numSent _ some =>
    rw [some] at attempts
    have later := (@sendConsecutive_sameReceiver s₁ (data.drop numSent) fuel (index + 1)
      (total + numSent)).2
    simp only at attempts
    omega

theorem sendDataTimeout_long (long : 7 < data.length) : ∃ numSent ≤ 6,
    s.sendDataTimeout data = match (s.firstSent data).awaitFlowControl 3 with
      | (s, false) => (s, 0)
      | (s, true) => s.sendConsecutive data.length 1 (data.drop numSent) numSent := by
  have some : ¬ data.length < 1 := by omega
  have several : ¬ data.length ≤ 7 := by omega
  refine ⟨(s.sendFrame { frameType := .first, numBytes := data.length } data data.length).2, ?_, ?_⟩
  · by_cases accepted : s.streamer.transmits s.streamer.attempts = true
    · simp only [sendFrame, CanStreamer.transmit, accepted, if_true, IsoTpFrameHeader.layout]
      omega
    · simp [sendFrame, CanStreamer.transmit, accepted]
  · simp only [sendDataTimeout, some, several, if_false]
    rfl

theorem goesOn_iff (long : 7 < data.length) :
    s.GoesOn data ↔ ((s.firstSent data).awaitFlowControl 3).2 = true := by
  obtain ⟨numSent, few, call⟩ := sendDataTimeout_long (s := s) long
  rw [GoesOn, call]
  cases wait : (s.firstSent data).awaitFlowControl 3 with | mk s₁ goes
  cases goes with
  | false => simp
  | true =>
    obtain ⟨fuel, fuel_eq⟩ : ∃ k, data.length = k + 1 := ⟨data.length - 1, by omega⟩
    have more := @sendConsecutive_attempts s₁ (data.drop numSent)
      (by rw [List.length_drop]; omega) fuel 1 numSent
    simpa [fuel_eq] using more

/-- Behind the wait neither the FIFO nor the position in the peer's frames changes. -/
theorem sendDataTimeout_sameReceiver (long : 7 < data.length) :
    SameReceiver ((s.firstSent data).awaitFlowControl 3).1 (s.sendDataTimeout data).1 := by
  obtain ⟨numSent, few, call⟩ := sendDataTimeout_long (s := s) long
  rw [call]
  cases wait : (s.firstSent data).awaitFlowControl 3 with | mk s₁ goes
  cases goes with
  | false => exact ⟨rfl, rfl, rfl, rfl, rfl⟩
  | true => exact (sendConsecutive_sameReceiver ..).1

/-- A call keeps to the peer's flow control exactly if nobody else's frame is mistaken for it. -/
theorem sendHonours_iff (long : 7 < data.length) (stored : s.rxFifoBuf.Holds held) :
    SendHonours s data ↔ Unmistakable s data := by
  have start : SameReceiver s (s.firstSent data) := sendFrame_sameReceiver _
  have after := sendDataTimeout_sameReceiver (s := s) long
  have count : (s.firstSent data).receivesUntil (s.sendDataTimeout data).1 =
      listens s.streamer.receives 3 s.streamer.received := by
    rw [receivesUntil, after.received, awaitFlowControl_received, start.received, start.receives]
    omega
  have outcome := @awaitFlowControl_iff (s.firstSent data) 3 0
    (Nat.le_refl _)
  rw [start.received, start.receives, ← goesOn_iff long] at outcome
  have stored' : (s.firstSent data).rxFifoBuf.Holds held := start.rxFifoBuf ▸ stored
  have size : s.rxFifoBuf.getCount = held.length := stored.count
  simp only [SendHonours, count]
  constructor
  · rintro ⟨justified, payload⟩
    refine ⟨outcome.mp justified, ?_⟩
    rw [size, ← List.length_append]
    exact (payload held stored).bounded
  · rintro ⟨ends, room⟩
    refine ⟨outcome.mpr ends, fun held' stored' => ?_⟩
    have size : s.rxFifoBuf.getCount = held'.length := stored'.count
    have kept := @awaitFlowControl_holds (s.firstSent data) held' 3
      (by rw [start.rxFifoBuf]; exact stored')
      (by rw [start.received, start.receives, ← size]; exact room)
    rw [start.received, start.receives, ← after.rxFifoBuf] at kept
    exact kept

/-- A bus on which one frame comes in, with the given bytes. -/
def answering (first second : UInt8) : CanStreamer where
  transmits := fun _ => true
  receives := fun n => if n = 0 then some ⟨8, fun i => [first, second].getD i 0⟩ else none

theorem sendHonours_iff_answering :
    7 < (List.replicate 8 (0 : UInt8)).length ∧
      (FifoBuffer.new : FifoBuffer UInt8 canFifoBufSize).Holds [] ∧
      (SendHonours { streamer := answering 0x30 0 } (List.replicate 8 0) ↔
        Unmistakable { streamer := answering 0x30 0 } (List.replicate 8 0)) := by
  have stored : (FifoBuffer.new : FifoBuffer UInt8 canFifoBufSize).Holds [] :=
    (FifoBuffer.new_holdsFlat (by decide) (by decide)).toHolds
  exact ⟨by decide, stored, sendHonours_iff (by decide) stored⟩

/-- The first frame of a message from the peer lets the sender go on. -/
theorem firstFrame_isNoPermission :
    ¬ SendHonours { streamer := answering 0x10 8 } (List.replicate 8 0) := by
  rintro ⟨⟨permission, -⟩, -⟩
  have goes : CanStreamerState.GoesOn { streamer := answering 0x10 8 } (List.replicate 8 0) :=
    (goesOn_iff (by decide)).mpr (by decide +kernel)
  have others : (((CanStreamerState.firstSent { streamer := answering 0x10 8 }
      (List.replicate 8 0)).heard 1).all fun h => !h.1.isFlowControl) = true := by
    decide +kernel
  obtain ⟨h, member, flowControl, -⟩ := permission goes
  simpa [flowControl] using List.all_eq_true.mp others h member

end Call

end FomeFw.Can
