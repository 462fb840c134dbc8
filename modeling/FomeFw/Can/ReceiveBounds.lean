import FomeFw.Can.Receiver

/-! What `receiveFrame` hands over, by position: for every run of the receiver, the
frames whose delivered bytes are all payload are exactly those whose claimed length
is covered by the frame itself. What is delivered of one message never exceeds the
length its header announced. -/
namespace FomeFw.Can

open Containers CanStreamerState

variable {s s' : CanStreamerState} {frame : CanFrame} {held : List UInt8} {num : Nat}
  {payload : Payload}

/-- What the receiver is asked to do: take over a frame from the bus with room for
`num` bytes, or read from its FIFO. -/
inductive ReceiverStep where
  | frame (rxmsg : CanFrame) (num : Nat)
  | fifo (numBytes : Nat)

def ReceiverStep.apply (s : CanStreamerState) : ReceiverStep → CanStreamerState
  | .frame rxmsg num => (s.receiveFrame rxmsg num).1
  | .fifo numBytes => (s.getDataFromFifo numBytes).1

/-- The bytes that can be handed over: `num` to the caller, the others to the FIFO. -/
def roomFor (s : CanStreamerState) (num : Nat) : Nat :=
  num + (s.rxFifoBuf.getSize - s.rxFifoBuf.getCount)

/-- The positions of `data8` from which `receiveFrame` copies, to whatever place. -/
def copyPositions (s : CanStreamerState) (frame : CanFrame) : List Nat :=
  if frame.DLC < 1 then []
  else match s.openFrame frame with
    | none => []
    | some payload => List.range' payload.srcOffset payload.numBytesAvailable

/-- The positions whose bytes reach the caller or are accepted by the FIFO. -/
def deliveredPositions (s : CanStreamerState) (frame : CanFrame) (num : Nat) : List Nat :=
  (copyPositions s frame).take (roomFor s num)

/-- The message being received: the length in its header, and what was delivered of it. -/
structure Message where
  announced : Nat
  delivered : Nat

def Message.after (message : Message) (s : CanStreamerState) (frame : CanFrame) (num : Nat) :
    Message :=
  let count := (deliveredPositions s frame num).length
  if frame.DLC < 1 then message
  else match s.openFrame frame with
    | none => message
    | some payload =>
      match payload.frameType with
      | .single => ⟨frame.lowNibble, count⟩
      | .first => ⟨frame.firstLength, count⟩
      | _ => ⟨message.announced, message.delivered + count⟩

/-- One frame is received as it should be. -/
structure OnlyPayload (s : CanStreamerState) (message : Message) (frame : CanFrame) (num : Nat) :
    Prop where
  accounted : ∃ held queued, s.rxFifoBuf.Holds held ∧
    (s.receiveFrame frame num).1.rxFifoBuf.Holds (held ++ queued) ∧
    (s.receiveFrame frame num).2 ++ queued = (deliveredPositions s frame num).map frame.data8
  onWire : ∀ i ∈ deliveredPositions s frame num, i < frame.DLC
  inFrame : ∀ i ∈ copyPositions s frame, i < 8
  announced : (message.after s frame num).delivered ≤ (message.after s frame num).announced

def AllOnlyPayload (s : CanStreamerState) (message : Message) : List ReceiverStep → Prop
  | [] => True
  | .frame rxmsg num :: steps => OnlyPayload s message rxmsg num ∧
    AllOnlyPayload (ReceiverStep.apply s (.frame rxmsg num)) (message.after s rxmsg num) steps
  | .fifo numBytes :: steps => AllOnlyPayload (ReceiverStep.apply s (.fifo numBytes)) message steps

/-- The frame has the bytes its header, or the message it continues, lays claim to. -/
def Covers (s : CanStreamerState) (frame : CanFrame) (num : Nat) : Prop :=
  frame.DLC < 1 ∨
    match IsoTpFrameType.ofCode frame.typeNibble with
    | some .single => frame.lowNibble ≤ 7 ∧ min frame.lowNibble (roomFor s num) < frame.DLC
    | some .first => min (min frame.firstLength 6) (roomFor s num) = 0 ∨
      min (min frame.firstLength 6) (roomFor s num) + 1 < frame.DLC
    | some .consecutive => s.waitingForNumBytes < 0 ∨
      s.waitingForFrameIndex ≠ frame.lowNibble ∨
      min (min s.waitingForNumBytes 7).toNat (roomFor s num) < frame.DLC
    | _ => True

def AllCover (s : CanStreamerState) : List ReceiverStep → Prop
  | [] => True
  | .frame rxmsg num :: steps => Covers s rxmsg num ∧
    AllCover (ReceiverStep.apply s (.frame rxmsg num)) steps
  | .fifo numBytes :: steps => AllCover (ReceiverStep.apply s (.fifo numBytes)) steps

/-- What is still awaited of a message was announced and not delivered. -/
structure Accounted (s : CanStreamerState) (message : Message) (held : List UInt8) : Prop where
  stored : s.rxFifoBuf.Holds held
  within : message.delivered ≤ message.announced
  awaited : 0 ≤ s.waitingForNumBytes →
    message.delivered + s.waitingForNumBytes ≤ message.announced

theorem roomFor_eq (stored : s.rxFifoBuf.Holds held) :
    roomFor s num = num + (canFifoBufSize - held.length) := by
  rw [roomFor, FifoBuffer.getSize, FifoBuffer.getCount, stored.size, stored.count]

theorem receiveFrame_closed (closed : frame.DLC < 1 ∨ s.openFrame frame = none) :
    s.receiveFrame frame num = (s, []) ∧ copyPositions s frame = [] := by
  rcases closed with short | closed
  · simp [receiveFrame, copyPositions, short]
  · simp [receiveFrame, copyPositions, closed]

theorem copyPositions_opened (valid : ¬ frame.DLC < 1) (opened : s.openFrame frame = some payload) :
    copyPositions s frame = List.range' payload.srcOffset payload.numBytesAvailable := by
  simp [copyPositions, valid, opened]

theorem deliveredPositions_opened (valid : ¬ frame.DLC < 1)
    (opened : s.openFrame frame = some payload) :
    deliveredPositions s frame num =
      List.range' payload.srcOffset (min payload.numBytesAvailable (roomFor s num)) := by
  rw [deliveredPositions, copyPositions_opened valid opened]
  exact List.ext_getElem (by simp [Nat.min_comm]) fun i _ _ => by simp

/-- The positions account for what `receiveFrame` really hands over. -/
theorem receiveFrame_delivered (stored : s.rxFifoBuf.Holds held) :
    ∃ queued, (s.receiveFrame frame num).1.rxFifoBuf.Holds (held ++ queued) ∧
      (s.receiveFrame frame num).2 ++ queued =
        (deliveredPositions s frame num).map frame.data8 := by
  by_cases closed : frame.DLC < 1 ∨ s.openFrame frame = none
  · obtain ⟨same, nowhere⟩ := @receiveFrame_closed _ _ num closed
    refine ⟨[], ?_, ?_⟩
    · rwa [same, List.append_nil]
    · simp [same, deliveredPositions, nowhere]
  · obtain ⟨valid, some⟩ := not_or.mp closed
    obtain ⟨payload, opened⟩ := Option.ne_none_iff_exists'.mp some
    obtain ⟨s', received, holds, -⟩ :=
      receiveFrame_opened stored (Nat.le_of_not_lt valid) opened num
    rw [received]
    refine ⟨_, holds, ?_⟩
    rw [← List.take_add, ← roomFor_eq stored, deliveredPositions,
      copyPositions_opened valid opened, List.map_take]
    rfl

theorem range_below {offset count bound : Nat} :
    (∀ i ∈ List.range' offset count, i < bound) ↔ count = 0 ∨ offset + count ≤ bound := by
  simp only [List.mem_range'_1]
  constructor
  · intro all
    rcases Nat.eq_zero_or_pos count with none | some
    · exact .inl none
    · have last := all (offset + count - 1) (by omega)
      exact .inr (by omega)
  · rintro (none | enough) i member <;> omega

theorem positions_below (valid : ¬ frame.DLC < 1) (opened : s.openFrame frame = some payload) :
    ((∀ i ∈ deliveredPositions s frame num, i < frame.DLC) ∧
        ∀ i ∈ copyPositions s frame, i < 8) ↔
      (min payload.numBytesAvailable (roomFor s num) = 0 ∨
          payload.srcOffset + min payload.numBytesAvailable (roomFor s num) ≤ frame.DLC) ∧
        (payload.numBytesAvailable = 0 ∨ payload.srcOffset + payload.numBytesAvailable ≤ 8) := by
  rw [deliveredPositions_opened valid opened, copyPositions_opened valid opened, range_below,
    range_below]

/-- Bytes that are no payload pass in two ways: a single frame of more than seven
bytes, and a length that exceeds the frame's `DLC`. -/
theorem covers_iff :
    Covers s frame num ↔
      (∀ i ∈ deliveredPositions s frame num, i < frame.DLC) ∧
        ∀ i ∈ copyPositions s frame, i < 8 := by
  by_cases short : frame.DLC < 1
  · simp [Covers, deliveredPositions, copyPositions, short]
  have ignored (closed : s.openFrame frame = none) :
      (∀ i ∈ deliveredPositions s frame num, i < frame.DLC) ∧
        ∀ i ∈ copyPositions s frame, i < 8 := by
    simp [deliveredPositions, (@receiveFrame_closed _ _ num (.inr closed)).2]
  simp only [Covers, short, false_or]
  cases kind : IsoTpFrameType.ofCode frame.typeNibble with
  | none => exact iff_of_true trivial (ignored (by simp [openFrame, kind]))
  | some frameType =>
    cases frameType with
    | single =>
      have opened : s.openFrame frame = some ⟨.single, 1, frame.lowNibble, -1,
        s.waitingForFrameIndex⟩ := by simp [openFrame, kind]
      rw [positions_below short opened]
      dsimp only
      omega
    | first =>
      have opened : s.openFrame frame = some ⟨.first, 2, min frame.firstLength 6,
        frame.firstLength, 1⟩ := by simp [openFrame, kind]
      rw [positions_below short opened]
      dsimp only
      omega
    | consecutive =>
      by_cases refused : s.waitingForNumBytes < 0 ∨ s.waitingForFrameIndex ≠ frame.lowNibble
      · exact iff_of_true (or_assoc.mp (.inl refused)) (ignored (by simp [openFrame, kind, refused]))
      · have opened : s.openFrame frame = some ⟨.consecutive, 1,
          (min s.waitingForNumBytes 7).toNat, s.waitingForNumBytes,
          (s.waitingForFrameIndex + 1) &&& 0xf⟩ := by simp [openFrame, kind, refused]
        rw [positions_below short opened]
        dsimp only
        omega
    | flowControl => exact iff_of_true trivial (ignored (by simp [openFrame, kind]))

section Runs

variable {message : Message}

theorem after_closed (closed : frame.DLC < 1 ∨ s.openFrame frame = none) :
    message.after s frame num = message := by
  rcases closed with short | closed
  · simp [Message.after, short]
  · simp [Message.after, closed]

theorem delivered_le (valid : ¬ frame.DLC < 1) (opened : s.openFrame frame = some payload) :
    (deliveredPositions s frame num).length ≤ payload.numBytesAvailable := by
  rw [deliveredPositions_opened valid opened, List.length_range']
  exact Nat.min_le_left _ _

/-- What the switch does to the state of the message, frame type by frame type. -/
theorem openFrame_cases (opened : s.openFrame frame = some payload) :
    (payload.frameType = .single ∧ payload.numBytesAvailable = frame.lowNibble ∧
        payload.waitingForNumBytes = -1) ∨
      (payload.frameType = .first ∧ payload.numBytesAvailable = min frame.firstLength 6 ∧
        payload.waitingForNumBytes = frame.firstLength) ∨
      (payload.frameType = .consecutive ∧ 0 ≤ s.waitingForNumBytes ∧
        payload.numBytesAvailable = (min s.waitingForNumBytes 7).toNat ∧
        payload.waitingForNumBytes = s.waitingForNumBytes) := by
  unfold openFrame at opened
  split at opened
  · obtain rfl := Option.some.inj opened
    exact .inl ⟨rfl, rfl, rfl⟩
  · obtain rfl := Option.some.inj opened
    exact .inr (.inl ⟨rfl, rfl, rfl⟩)
  · split at opened
    · cases opened
    · next accepted =>
      obtain rfl := Option.some.inj opened
      exact .inr (.inr ⟨rfl, Int.not_lt.mp (not_or.mp accepted).1, rfl, rfl⟩)
  · cases opened
  · cases opened

theorem receiveFrame_accounted (accounted : Accounted s message held) :
    ∃ held', Accounted (s.receiveFrame frame num).1 (message.after s frame num) held' := by
  by_cases closed : frame.DLC < 1 ∨ s.openFrame frame = none
  · rw [(receiveFrame_closed closed).1, after_closed closed]
    exact ⟨held, accounted⟩
  obtain ⟨valid, some⟩ := not_or.mp closed
  obtain ⟨payload, opened⟩ := Option.ne_none_iff_exists'.mp some
  obtain ⟨s', received, holds, waiting, -⟩ :=
    receiveFrame_opened accounted.stored (Nat.le_of_not_lt valid) opened num
  have most := @delivered_le _ _ num _ valid opened
  have within := accounted.within
  have awaited := accounted.awaited
  rw [received]
  refine ⟨_, holds, ?_, ?_⟩
  all_goals
    simp only [Message.after, valid, if_false, opened, waiting]
    rcases openFrame_cases opened with ⟨kind, available, left⟩ | ⟨kind, available, left⟩ |
      ⟨kind, waits, available, left⟩
    all_goals
      simp only [kind]
      omega

theorem getDataFromFifo_accounted (accounted : Accounted s message held) (numBytes : Nat) :
    ∃ held', Accounted (s.getDataFromFifo numBytes).1 message held' := by
  obtain ⟨s', got, holds, ⟨waiting, -⟩, -⟩ := getDataFromFifo_holds accounted.stored numBytes
  rw [got]
  exact ⟨_, holds, accounted.within, by simpa only [waiting] using accounted.awaited⟩

theorem onlyPayload_iff (accounted : Accounted s message held) :
    OnlyPayload s message frame num ↔ Covers s frame num := by
  rw [covers_iff]
  constructor
  · intro payload
    exact ⟨payload.onWire, payload.inFrame⟩
  · rintro ⟨onWire, inFrame⟩
    obtain ⟨queued, holds, copied⟩ := @receiveFrame_delivered _ frame _ num
      accounted.stored
    obtain ⟨held', accounted'⟩ := @receiveFrame_accounted _ frame _ num _ accounted
    exact ⟨⟨held, queued, accounted.stored, holds, copied⟩, onWire, inFrame, accounted'.within⟩

theorem allOnlyPayload_iff (accounted : Accounted s message held) (steps : List ReceiverStep) :
    AllOnlyPayload s message steps ↔ AllCover s steps := by
  induction steps generalizing s message held with
  | nil => rfl
  | cons step steps ih =>
    cases step with
    | frame rxmsg num =>
      obtain ⟨held', accounted'⟩ := @receiveFrame_accounted _ rxmsg _ num _ accounted
      exact and_congr (onlyPayload_iff accounted) (ih accounted')
    | fifo numBytes =>
      obtain ⟨held', accounted'⟩ := getDataFromFifo_accounted accounted numBytes
      exact ih accounted'

/-- A receiver takes over nothing but payload if and only if every frame it is
given covers the length it lays claim to. -/
theorem receiver_onlyPayload_iff (streamer : CanStreamer) (steps : List ReceiverStep) :
    AllOnlyPayload { streamer } ⟨0, 0⟩ steps ↔ AllCover { streamer } steps := by
  have start : Accounted { streamer } ⟨0, 0⟩ [] := {
    stored := (FifoBuffer.new_holdsFlat (by decide) (by decide)).toHolds
    within := Nat.le_refl 0
    awaited := fun _ => Int.le_refl 0 }
  exact allOnlyPayload_iff start steps

/-- A single frame that announces fifteen bytes makes the copy run over the end of
the frame's eight; one that announces five with two bytes on the wire delivers three
that were never sent. -/
theorem receiver_overread :
    let streamer : CanStreamer := { transmits := fun _ => true, receives := fun _ => none }
    ¬ AllOnlyPayload { streamer } ⟨0, 0⟩ [.frame ⟨8, fun _ => 0x0f⟩ 20] ∧
      ¬ AllOnlyPayload { streamer } ⟨0, 0⟩ [.frame ⟨2, fun _ => 0x05⟩ 20] := by
  refine ⟨?_, ?_⟩
  · rintro ⟨payload, -⟩
    exact absurd (payload.inFrame 8 (by decide)) (by decide)
  · rintro ⟨payload, -⟩
    exact absurd (payload.onWire 5 (by decide)) (by decide)

end Runs

end FomeFw.Can
