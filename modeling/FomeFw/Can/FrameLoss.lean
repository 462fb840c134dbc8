import FomeFw.Can.Transfer
import FomeFw.Can.ReceiveBounds

/-! What the receiver makes of a long message of which frames were lost. It knows a
consecutive frame only by four bits of its index, so the losses that show are those
after which no frame with the awaited bits comes through. -/
namespace FomeFw.Can

open Containers CanStreamerState

/-- The frames that are not dropped; `kept` goes by the index from `index` on. -/
def surviving (kept : Nat → Bool) (index : Nat) : List CanFrame → List CanFrame
  | [] => []
  | frame :: frames =>
    if kept index then frame :: surviving kept (index + 1) frames
    else surviving kept (index + 1) frames

/-- What the bus leaves of a message: its first frame, and the consecutive ones kept. -/
def survivingMessage (kept : Nat → Bool) (data : List UInt8) : List CanFrame :=
  match messageFrames data with
  | [] => []
  | first :: consecutive => first :: surviving kept 1 consecutive

/-- All that `receiveFrame` copies out of these frames, to the caller, who has room for the
number beside the frame, or to the FIFO. -/
def takenOver (s : CanStreamerState) : List (CanFrame × Nat) → List UInt8
  | [] => []
  | (rxmsg, num) :: calls =>
    (copyPositions s rxmsg).map rxmsg.data8 ++ takenOver (s.receiveFrame rxmsg num).1 calls

/-- Nothing but the beginning of a message of `numBytes` bytes comes out, whatever it says. -/
def DeliversPrefixes (s : CanStreamerState) (kept : Nat → Bool) (numBytes : Nat) : Prop :=
  ∀ data, data.length = numBytes → ∀ calls, calls.map Prod.fst = survivingMessage kept data →
    takenOver s calls <+: data

/-- Of the `count` frames from `index` on, none behind the first lost one that comes
through has its four index bits. -/
def NoAlias (kept : Nat → Bool) (index count : Nat) : Prop :=
  ∀ lost later, index ≤ lost → lost < later → later < index + count →
    (∀ i, index ≤ i → i < lost → kept i = true) → kept lost = false → kept later = true →
    later % 16 ≠ lost % 16

variable {s : CanStreamerState} {frame : CanFrame} {data : List UInt8} {kept : Nat → Bool}
  {calls : List (CanFrame × Nat)} {count index num : Nat} {payload : Payload}

theorem receiveFrame_waiting (valid : ¬ frame.DLC < 1) (opened : s.openFrame frame = some payload) :
    (s.receiveFrame frame num).1.waitingForNumBytes =
        payload.waitingForNumBytes - payload.numBytesAvailable ∧
      (s.receiveFrame frame num).1.waitingForFrameIndex = payload.waitingForFrameIndex := by
  by_cases first : payload.frameType = .first
  · simp only [receiveFrame, valid, if_false, opened, first, if_true]
    exact ⟨(sendFrame_sameReceiver 0).waitingForNumBytes,
      (sendFrame_sameReceiver 0).waitingForFrameIndex⟩
  · simp [receiveFrame, valid, opened, first]

theorem consecutiveFrame_typeNibble :
    (consecutiveFrame index data).typeNibble = IsoTpFrameType.consecutive.code :=
  IsoTpFrameHeader.typeNibble_frame

theorem consecutiveFrame_lowNibble : (consecutiveFrame index data).lowNibble = index % 16 := by
  refine IsoTpFrameHeader.lowNibble_frame.trans ?_
  simp only [IsoTpFrameHeader.lowNibble, and_nibble, Nat.mod_mod]

/-- A frame out of sequence is dropped and changes nothing. -/
theorem takenOver_outOfSequence (other : index % 16 ≠ s.waitingForFrameIndex) :
    takenOver s ((consecutiveFrame index data, num) :: calls) = takenOver s calls := by
  have closed : s.openFrame (consecutiveFrame index data) = none := by
    simp [openFrame, consecutiveFrame_typeNibble, consecutiveFrame_lowNibble, Ne.symm other]
  obtain ⟨same, nowhere⟩ := @receiveFrame_closed _ _ num (.inr closed)
  simp [takenOver, same, nowhere]

/-- A frame in sequence is taken for the next bytes of the message. -/
theorem takenOver_inSequence {left : Nat} (awaited : s.waitingForNumBytes = left)
    (inSequence : s.waitingForFrameIndex = index % 16) :
    ∃ s' : CanStreamerState, s'.waitingForNumBytes = (left - min left 7 : Nat) ∧
      s'.waitingForFrameIndex = (index + 1) % 16 ∧
      takenOver s ((consecutiveFrame index data, num) :: calls) =
        (consecutiveFrame index data).bytes 1 (min left 7) ++ takenOver s' calls := by
  let payload : Payload :=
    { frameType := .consecutive
      srcOffset := 1
      numBytesAvailable := min left 7
      waitingForNumBytes := left
      waitingForFrameIndex := (index + 1) % 16 }
  have opened : s.openFrame (consecutiveFrame index data) = some payload := by
    have fits : (min (left : Int) 7).toNat = min left 7 := by omega
    have next : (index % 16 + 1) % 16 = (index + 1) % 16 := by omega
    simp [openFrame, consecutiveFrame_typeNibble, consecutiveFrame_lowNibble, inSequence, awaited,
      and_nibble, payload, fits, next]
  have valid : ¬ (consecutiveFrame index data).DLC < 1 := Nat.not_lt.mpr (FrameLayout.valid _)
  obtain ⟨waiting, nextIndex⟩ := @receiveFrame_waiting _ _ num _ valid opened
  refine ⟨(s.receiveFrame (consecutiveFrame index data) num).1, ?_, nextIndex, ?_⟩
  · rw [waiting]
    simp only [payload]
    omega
  · rw [takenOver, copyPositions_opened valid opened]
    rfl

section Rest

theorem handed_kept (here : kept index = true) (handed : calls.map Prod.fst =
      surviving kept index (consecutiveFrames (count + 1) index data)) :
    ∃ num later, calls = (consecutiveFrame index data, num) :: later ∧ later.map Prod.fst =
      surviving kept (index + 1) (consecutiveFrames count (index + 1) (data.drop 7)) := by
  simp only [consecutiveFrames, surviving, here, if_true] at handed
  obtain ⟨⟨frame, num⟩, later, rfl, rfl, rest⟩ := List.map_eq_cons_iff.mp handed
  exact ⟨num, later, rfl, rest⟩

theorem handed_lost (here : kept index = false) (handed : calls.map Prod.fst =
      surviving kept index (consecutiveFrames (count + 1) index data)) :
    calls.map Prod.fst =
      surviving kept (index + 1) (consecutiveFrames count (index + 1) (data.drop 7)) := by
  simpa [consecutiveFrames, surviving, here] using handed

theorem NoAlias.behind (safe : NoAlias kept index (count + 1)) (here : kept index = true) :
    NoAlias kept (index + 1) count := by
  intro lost later after order before all
  refine safe lost later (by omega) order (by omega) fun i above below => ?_
  rcases Nat.eq_or_lt_of_le above with rfl | above
  · exact here
  · exact all i above below

/-- Behind a lost frame nothing is taken over until its index bits come again. -/
theorem takenOver_stuck {waits : Nat} (awaits : s.waitingForFrameIndex = waits)
    (others : ∀ j, index ≤ j → j < index + count → kept j = true → j % 16 ≠ waits)
    (handed : calls.map Prod.fst = surviving kept index (consecutiveFrames count index data)) :
    takenOver s calls = [] := by
  induction count generalizing index data calls with
  | zero =>
    obtain rfl := List.map_eq_nil_iff.mp handed
    rfl
  | succ count ih =>
    have behind : ∀ j, index + 1 ≤ j → j < index + 1 + count → kept j = true → j % 16 ≠ waits :=
      fun j after before => others j (by omega) (by omega)
    cases here : kept index with
    | true =>
      obtain ⟨num, calls, rfl, rest⟩ := handed_kept here handed
      have other := others index (Nat.le_refl _) (by omega) here
      rw [takenOver_outOfSequence (by rw [awaits]; exact other)]
      exact ih behind rest
    | false => exact ih behind (handed_lost here handed)

theorem consecutiveFrame_bytes :
    (consecutiveFrame index data).bytes 1 (min data.length 7) = data.take 7 := by
  let header : IsoTpFrameHeader :=
    { frameType := .consecutive, index := index &&& 0xf, numBytes := min data.length 7 }
  have payload := @FrameLayout.bytes_frame data _ header.layout (Nat.min_le_left data.length 7)
  refine payload.trans ?_
  rw [Nat.min_comm]
  exact List.take_eq_take_min.symm

theorem drop_min (data : List UInt8) :
    (data.length - min data.length 7) = (data.drop 7).length := by
  rw [List.length_drop]
  omega

/-- The rest of a message, from a receiver in step with the sender. -/
theorem takenOver_prefix (needed : count = (data.length + 6) / 7)
    (awaited : s.waitingForNumBytes = data.length)
    (inSequence : s.waitingForFrameIndex = index % 16) (safe : NoAlias kept index count)
    (handed : calls.map Prod.fst = surviving kept index (consecutiveFrames count index data)) :
    takenOver s calls <+: data := by
  induction count generalizing s index data calls with
  | zero =>
    obtain rfl := List.map_eq_nil_iff.mp handed
    exact List.nil_prefix
  | succ count ih =>
    cases here : kept index with
    | true =>
      obtain ⟨num, calls, rfl, rest⟩ := handed_kept here handed
      obtain ⟨s', awaited', inSequence', taken⟩ :=
        @takenOver_inSequence _ data calls _ num _ awaited inSequence
      have later := ih (by rw [List.length_drop]; omega) (by rw [awaited', drop_min]) inSequence'
        (safe.behind here) rest
      rw [taken, consecutiveFrame_bytes]
      have whole := (List.prefix_append_right_inj (data.take 7)).mpr later
      rwa [List.take_append_drop] at whole
    | false =>
      have nothing := takenOver_stuck inSequence (fun j after before keeps =>
        safe index j (Nat.le_refl _) (by omega) (by omega) (fun i above below => by omega)
          here keeps) (handed_lost here handed)
      rw [nothing]
      exact List.nil_prefix

/-- The first frame that comes through with the awaited bits is taken for the lost one. -/
theorem takenOver_alias {waits left : Nat} (awaited : s.waitingForNumBytes = left) (pending : 0 < left)
    (awaits : s.waitingForFrameIndex = waits) (needed : count = (data.length + 6) / 7)
    (again : ∃ j, index ≤ j ∧ j < index + count ∧ kept j = true ∧ j % 16 = waits)
    (handed : calls.map Prod.fst = surviving kept index (consecutiveFrames count index data)) :
    ∃ j, index ≤ j ∧ j < index + count ∧
      (takenOver s calls)[0]? = data[7 * (j - index)]? := by
  induction count generalizing index data calls with
  | zero =>
    obtain ⟨j, above, below, -⟩ := again
    omega
  | succ count ih =>
    by_cases here : kept index = true ∧ index % 16 = waits
    · obtain ⟨num, calls, rfl, rest⟩ := handed_kept here.1 handed
      obtain ⟨s', -, -, taken⟩ := @takenOver_inSequence _ data calls _ num _
        awaited (awaits.trans here.2.symm)
      refine ⟨index, Nat.le_refl _, by omega, ?_⟩
      have first (n : Nat) (positive : 0 < n) : ((consecutiveFrame index data).bytes 1 n)[0]? =
          some ((consecutiveFrame index data).data8 1) := by
        simp [CanFrame.bytes, positive]
      have head := first (min data.length 7) (by omega)
      rw [consecutiveFrame_bytes, List.getElem?_take_of_lt (by decide)] at head
      rw [taken, Nat.sub_self, Nat.mul_zero, head, List.getElem?_append_left, first _ (by omega)]
      rw [CanFrame.length_bytes]
      omega
    · have more : ∃ j, index + 1 ≤ j ∧ j < index + 1 + count ∧ kept j = true ∧ j % 16 = waits := by
        obtain ⟨j, above, below, keeps, bits⟩ := again
        rcases Nat.eq_or_lt_of_le above with rfl | above
        · exact absurd ⟨keeps, bits⟩ here
        · exact ⟨j, above, by omega, keeps, bits⟩
      have shifted (calls' : List (CanFrame × Nat)) (same : takenOver s calls = takenOver s calls')
          (rest : calls'.map Prod.fst =
            surviving kept (index + 1) (consecutiveFrames count (index + 1) (data.drop 7))) :
          ∃ j, index ≤ j ∧ j < index + (count + 1) ∧
            (takenOver s calls)[0]? = data[7 * (j - index)]? := by
        obtain ⟨j, above, below, head⟩ := ih (by rw [List.length_drop]; omega) more rest
        refine ⟨j, by omega, by omega, ?_⟩
        rw [same, head, List.getElem?_drop]
        congr 1
        omega
      cases kept_eq : kept index with
      | true =>
        obtain ⟨num, calls, rfl, rest⟩ := handed_kept kept_eq handed
        exact shifted calls (takenOver_outOfSequence (by
          rw [awaits]
          exact fun bits => here ⟨kept_eq, bits⟩)) rest
      | false => exact shifted calls rfl (handed_lost kept_eq handed)

/-- Where the bytes of a lost frame should be, those of a later one with its bits are. -/
theorem takenOver_hole {lost later : Nat} (needed : count = (data.length + 6) / 7)
    (awaited : s.waitingForNumBytes = data.length)
    (inSequence : s.waitingForFrameIndex = index % 16) (above : index ≤ lost)
    (order : lost < later) (below : later < index + count)
    (before : ∀ i, index ≤ i → i < lost → kept i = true) (loses : kept lost = false)
    (keeps : kept later = true) (bits : later % 16 = lost % 16)
    (handed : calls.map Prod.fst = surviving kept index (consecutiveFrames count index data)) :
    ∃ j, lost < j ∧ j < index + count ∧
      (takenOver s calls)[7 * (lost - index)]? = data[7 * (j - index)]? := by
  induction count generalizing s index data calls with
  | zero => omega
  | succ count ih =>
    cases here : kept index with
    | true =>
      have behind : index + 1 ≤ lost := by
        rcases Nat.eq_or_lt_of_le above with rfl | behind
        · simp [here] at loses
        · exact behind
      obtain ⟨num, calls, rfl, rest⟩ := handed_kept here handed
      obtain ⟨s', awaited', inSequence', taken⟩ :=
        @takenOver_inSequence _ data calls _ num _ awaited inSequence
      obtain ⟨j, after, inside, hole⟩ := ih (by rw [List.length_drop]; omega)
        (by rw [awaited', drop_min]) inSequence' behind (by omega)
        (fun i from_ => before i (by omega)) rest
      refine ⟨j, after, by omega, ?_⟩
      have seven : (data.take 7).length = 7 := by
        rw [List.length_take]
        omega
      have position : 7 * (lost - index) - 7 = 7 * (lost - (index + 1)) := by omega
      rw [taken, consecutiveFrame_bytes, List.getElem?_append_right (by omega), seven, position, hole,
        List.getElem?_drop]
      congr 1
      omega
    | false =>
      obtain rfl : index = lost := by
        rcases Nat.eq_or_lt_of_le above with same | behind
        · exact same
        · simp [before index (Nat.le_refl _) behind] at here
      obtain ⟨j, after, inside, hole⟩ := @takenOver_alias _ (data.drop 7) _ _ _ _ _ _ awaited (by omega)
        inSequence (by rw [List.length_drop]; omega) ⟨later, order, by omega, keeps, bits⟩
        (handed_lost here handed)
      refine ⟨j, after, by omega, ?_⟩
      rw [Nat.sub_self, Nat.mul_zero, hole, List.getElem?_drop]
      congr 1
      omega

end Rest

section Message

theorem messageFrames_long (long : 7 < data.length) :
    messageFrames data =
      ({ frameType := .first, numBytes := data.length } : IsoTpFrameHeader).layout.frame data 6 ::
        consecutiveFrames (consecutiveCount data.length) 1 (data.drop 6) := by
  have some : ¬ data.length < 1 := by omega
  have several : ¬ data.length ≤ 7 := by omega
  simp only [messageFrames, some, several, if_false]

/-- The first frame puts the receiver in step, whatever it waited for. -/
theorem takenOver_first (long : 7 < data.length) (small : data.length < 4096)
    (handed : calls.map Prod.fst = survivingMessage kept data) :
    ∃ s' : CanStreamerState, ∃ later, s'.waitingForNumBytes = (data.drop 6).length ∧
      s'.waitingForFrameIndex = 1 % 16 ∧ takenOver s calls = data.take 6 ++ takenOver s' later ∧
      later.map Prod.fst = surviving kept 1
        (consecutiveFrames (consecutiveCount data.length) 1 (data.drop 6)) := by
  rw [survivingMessage, messageFrames_long long] at handed
  obtain ⟨⟨frame, num⟩, later, rfl, rfl, rest⟩ := List.map_eq_cons_iff.mp handed
  let header : IsoTpFrameHeader := { frameType := .first, numBytes := data.length }
  have opened := @openFrame_first s header data 6 rfl small
  have valid : ¬ (header.layout.frame data 6).DLC < 1 := Nat.not_lt.mpr (FrameLayout.valid _)
  obtain ⟨waiting, index⟩ := @receiveFrame_waiting _ _ num _ valid opened
  have fits : min header.numBytes 6 = 6 := Nat.min_eq_right (by simp only [header]; omega)
  have payload := @FrameLayout.bytes_frame data 6 header.layout (by omega)
  refine ⟨_, later, ?_, index, ?_, rest⟩
  · rw [waiting, fits, List.length_drop]
    simp only [header]
    omega
  · rw [takenOver, copyPositions_opened valid opened, fits, ← payload]
    rfl

/-- What a lost frame does to a message shows exactly if none passes for it. -/
theorem deliversPrefixes_iff {numBytes : Nat} (long : 7 < numBytes) (small : numBytes < 4096) :
    DeliversPrefixes s kept numBytes ↔ NoAlias kept 1 (consecutiveCount numBytes) := by
  have needed (data : List UInt8) (length_eq : data.length = numBytes) :
      consecutiveCount numBytes = ((data.drop 6).length + 6) / 7 := by
    rw [List.length_drop, length_eq, consecutiveCount]
  constructor
  · intro delivers lost later above order below before loses keeps bits
    -- zeros up to the first byte of the lost frame, ones behind it
    let data : List UInt8 := List.replicate (7 * lost) 0 ++ List.replicate (numBytes - 7 * lost) 1
    have length_eq : data.length = numBytes := by
      simp only [data, List.length_append, List.length_replicate, consecutiveCount] at below ⊢
      omega
    let calls := (survivingMessage kept data).map fun frame => (frame, 0)
    have handed : calls.map Prod.fst = survivingMessage kept data := by simp [calls, Function.comp_def]
    have taken := delivers data length_eq calls handed
    obtain ⟨s', rest, awaited, inSequence, first, handed'⟩ :=
      takenOver_first (s := s) (by omega) (by omega) handed
    rw [length_eq] at handed'
    obtain ⟨j, after, inside, hole⟩ := takenOver_hole (needed data length_eq) awaited inSequence above
      order below before loses keeps bits handed'
    have place : 6 + 7 * (lost - 1) < 7 * lost := by omega
    have one : data[6 + 7 * (j - 1)]? = some 1 := by
      have inside : 6 + 7 * (j - 1) - 7 * lost < numBytes - 7 * lost := by
        simp only [consecutiveCount] at inside
        omega
      rw [List.getElem?_append_right (by rw [List.length_replicate]; omega), List.length_replicate,
        List.getElem?_replicate, if_pos inside]
    have zero : data[6 + 7 * (lost - 1)]? = some 0 := by
      rw [List.getElem?_append_left (by rw [List.length_replicate]; exact place),
        List.getElem?_replicate, if_pos place]
    have wrong : (takenOver s calls)[6 + 7 * (lost - 1)]? = some 1 := by
      have six : (data.take 6).length = 6 := by
        rw [List.length_take]
        omega
      rw [first, List.getElem?_append_right (by omega), six, Nat.add_sub_cancel_left, hole,
        List.getElem?_drop, one]
    obtain ⟨more, whole⟩ := taken
    obtain ⟨reached, -⟩ := List.getElem?_eq_some_iff.mp wrong
    rw [← whole, List.getElem?_append_left reached, wrong] at zero
    exact absurd zero (by decide)
  · intro safe data length_eq calls handed
    obtain ⟨s', later, awaited, inSequence, first, rest⟩ :=
      takenOver_first (s := s) (by omega) (by omega) handed
    rw [length_eq] at rest
    have tail := takenOver_prefix (needed data length_eq) awaited inSequence safe rest
    have whole := (List.prefix_append_right_inj (data.take 6)).mpr tail
    rwa [List.take_append_drop, ← first] at whole

/-- A receiver that has seen nothing yet. -/
def freshReceiver : CanStreamerState where
  streamer := { transmits := fun _ => true, receives := fun _ => none }

theorem deliversPrefixes_iff_eight : 7 < 8 ∧ 8 < 4096 ∧
    (DeliversPrefixes freshReceiver (fun _ => false) 8 ↔
      NoAlias (fun _ => false) 1 (consecutiveCount 8)) :=
  ⟨by decide, by decide, deliversPrefixes_iff (by decide) (by decide)⟩

/-- Of a message of 125 bytes the second frame is lost: its eighteenth is taken for it. -/
theorem lostFrame_leavesHole : ¬ DeliversPrefixes freshReceiver (fun index => index != 1) 125 := by
  intro delivers
  let data : List UInt8 := (List.range 125).map UInt8.ofNat
  have taken := delivers data rfl
    ((survivingMessage (fun index => index != 1) data).map fun frame => (frame, 0))
    (by simp [Function.comp_def])
  exact absurd taken (by decide +kernel)

end Message

end FomeFw.Can
