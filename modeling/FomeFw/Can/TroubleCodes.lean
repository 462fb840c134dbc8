import FomeFw.Can.IsoTpCanDecoder
import FomeFw.Can.Obd2

/-! The answer to a request for trouble codes, as a tester puts it together again. -/
namespace FomeFw.Can

/-- The rest of a segmented message, `left` bytes, in frames counted from `index` on. -/
def joinConsecutive (index left : Nat) : List (List UInt8) → Option (List UInt8)
  | [] => if left = 0 then some [] else none
  | [] :: _ => none
  | (header :: data) :: frames =>
    if 0 < left ∧ header.toNat / 16 = 2 ∧ header.toNat % 16 = index % 16 ∧
        min left 7 ≤ data.length ∧ data.length ≤ 7 then do
      return data.take left ++ (← joinConsecutive (index + 1) (left - 7) frames)
    else none

/-- ISO 15765-2: a message in a single frame, or in a first one with its length and consecutive
ones with their numbers. -/
def reassemble : List (List UInt8) → Option (List UInt8)
  | (header :: data) :: frames =>
    if header.toNat / 16 = 0 then
      let length := header.toNat % 16
      if frames = [] ∧ 0 < length ∧ length ≤ data.length ∧ data.length ≤ 7 then some (data.take length)
      else none
    else if header.toNat / 16 = 1 then
      match data with
      | low :: data => do
        let length := header.toNat % 16 * 256 + low.toNat
        if 7 < length ∧ data.length = 6 then
          return data ++ (← joinConsecutive 1 (length - 6) frames)
        else none
      | [] => none
    else none
  | _ => none

def decodeCodes : List UInt8 → Option (List UInt16)
  | [] => some []
  | [_] => none
  | high :: low :: bytes => do return UInt16.ofBitVec (high.toBitVec ++ low.toBitVec) :: (← decodeCodes bytes)

/-- The response id, the number of the codes and the codes of a message. -/
def decodeDtcs : List UInt8 → Option (UInt8 × Nat × List UInt16)
  | id :: count :: bytes => do return (id, count.toNat, ← decodeCodes bytes)
  | _ => none

section Reassembly

variable {data : List UInt8} {frames : List (List UInt8)}

theorem header_nibbles : ∀ high < 16, ∀ low < 16,
    (UInt8.ofNat ((high <<< 4) ||| low)).toNat / 16 = high ∧
      (UInt8.ofNat ((high <<< 4) ||| low)).toNat % 16 = low := by
  decide +kernel

theorem take_chunk {padding : List UInt8} (fits : (data.take 7 ++ padding).length ≤ 7) :
    (data.take 7 ++ padding).take data.length = data.take 7 := by
  simp only [List.length_append, List.length_take] at fits
  rcases Nat.lt_or_ge data.length 7 with last | more
  · have whole : data.take 7 = data := List.take_of_length_le (by omega)
    rw [whole, List.take_append_of_le_length (Nat.le_refl _), List.take_length]
  · obtain rfl : padding = [] := List.eq_nil_of_length_eq_zero (by omega)
    rw [List.append_nil, List.take_take, Nat.min_eq_right more]

theorem Continues.joins (continues : Continues index data frames)
    (wire : ∀ frame ∈ frames, frame.length ≤ 8) :
    joinConsecutive index data.length frames = some data := by
  induction continues with
  | nil => rfl
  | @cons index data frames padding positive rest ih =>
    have fits := wire _ (List.mem_cons_self ..)
    have later := ih fun frame member => wire frame (List.mem_cons_of_mem _ member)
    obtain ⟨kind, number⟩ := header_nibbles 2 (by decide) (index &&& 0xf)
      (by rw [and_nibble]; exact Nat.mod_lt _ (by decide))
    simp only [List.length_cons, List.length_append, List.length_take] at fits
    rw [joinConsecutive, if_pos, ← List.length_drop, later]
    · rw [take_chunk (by simp only [List.length_append, List.length_take]; omega)]
      exact congrArg some (List.take_append_drop 7 data)
    · refine ⟨positive, kind, by rw [number, and_nibble], ?_, ?_⟩
      · simp only [List.length_append, List.length_take]
        omega
      · simp only [List.length_append, List.length_take]
        omega

theorem Segmented.reassembles (segmented : Segmented data frames) (positive : 0 < data.length)
    (small : data.length < 4096) (wire : ∀ frame ∈ frames, frame.length ≤ 8) :
    reassemble frames = some data := by
  cases segmented with
  | single padding short =>
    have fits := wire _ (List.mem_cons_self ..)
    obtain ⟨kind, length⟩ := header_nibbles 0 (by decide) data.length (by omega)
    simp only [List.length_cons, List.length_append] at fits
    simp only [reassemble, kind, length]
    simp
    omega
  | @first frames padding long rest =>
    have fits := wire _ (List.mem_cons_self ..)
    simp only [List.length_cons, List.length_append, List.length_take] at fits
    obtain rfl : padding = [] := List.eq_nil_of_length_eq_zero (by omega)
    obtain ⟨kind, high⟩ := header_nibbles 1 (by decide) ((data.length >>> 8) &&& 0xf)
      (by rw [and_nibble]; exact Nat.mod_lt _ (by decide))
    have low : (UInt8.ofNat (data.length &&& 0xff)).toNat = data.length % 256 := by
      rw [show (0xff : Nat) = 2 ^ 8 - 1 from rfl, Nat.and_two_pow_sub_one_eq_mod]
      simp
    have length : ((data.length >>> 8) &&& 0xf) * 256 + data.length % 256 = data.length := by
      rw [and_nibble, Nat.shiftRight_eq_div_pow]
      omega
    have later := rest.joins fun frame member => wire frame (List.mem_cons_of_mem _ member)
    rw [List.length_drop] at later
    have six : (data.take 6).length = 6 := by
      rw [List.length_take]
      omega
    simp only [reassemble, kind, high, low, length, List.append_nil, six, long, later,
      Option.bind_eq_bind, Option.bind_some, pure, List.take_append_drop, and_self, if_true,
      one_ne_zero, if_false]

end Reassembly

def dtcBytes (dtcCode : List UInt16) : List UInt8 := dtcCode.flatMap fun code => [dtcHigh code, dtcLow code]

theorem length_dtcBytes (dtcCode : List UInt16) : (dtcBytes dtcCode).length = 2 * dtcCode.length := by
  induction dtcCode with
  | nil => rfl
  | cons code dtcCode ih =>
    rw [dtcBytes, List.flatMap_cons, List.length_append]
    simp only [dtcBytes] at ih
    simp only [ih, List.length_cons, List.length_nil]
    omega

theorem decodeCodes_dtcBytes (dtcCode : List UInt16) : decodeCodes (dtcBytes dtcCode) = some dtcCode := by
  induction dtcCode with
  | nil => rfl
  | cons code dtcCode ih =>
    have joined : UInt16.ofBitVec ((dtcHigh code).toBitVec ++ (dtcLow code).toBitVec) = code := by
      apply UInt16.eq_of_toBitVec_eq
      apply BitVec.eq_of_getLsbD_eq
      intro i bound
      simp only [dtcHigh, dtcLow, BitVec.getLsbD_append, BitVec.getLsbD_setWidth,
        BitVec.getLsbD_ushiftRight]
      by_cases lower : i < 8
      · simp [lower]
      · simp [lower, show i - 8 < 8 by omega, show 8 + (i - 8) = i by omega]
    change (do return UInt16.ofBitVec ((dtcHigh code).toBitVec ++ (dtcLow code).toBitVec) ::
      (← decodeCodes (dtcBytes dtcCode))) = some (code :: dtcCode)
    rw [ih, joined]
    rfl

section Sending

variable {busIndex : CanBusIndex} {held all : List UInt8} {msg : CanTxMessage}
variable {responseBytes : ResponseBytes}

theorem Response.putDtcs (response : Response busIndex held msg) (dest : Nat) (dtcCode : List UInt16)
    (next : held.length = dest) (room : dest + 2 * dtcCode.length ≤ 8) :
    ∃ msg', putDtcs msg dest dtcCode = some msg' ∧
      Response busIndex (held ++ dtcBytes dtcCode) msg' := by
  induction dtcCode generalizing held msg dest with
  | nil => exact ⟨msg, rfl, by simpa [dtcBytes] using response⟩
  | cons code dtcCode ih =>
    simp only [List.length_cons] at room
    obtain ⟨msg₁, first, response₁⟩ := response.put dest (dtcHigh code) next (by omega)
    obtain ⟨msg₂, second, response₂⟩ :=
      response₁.put (dest + 1) (dtcLow code) (by simpa using next) (by omega)
    obtain ⟨msg', later, response'⟩ := ih response₂ (dest + 2) (by simpa using next) (by omega)
    refine ⟨msg', ?_, by simpa [dtcBytes] using response'⟩
    simpa only [Can.putDtcs, first, second, Option.bind_eq_bind, Option.bind_some] using later

theorem assembleDtcs_begins (begins : responseBytes.Begins held) (dest : Nat) (dtcCode : List UInt16)
    (next : held.length = dest) (room : dest + 2 * dtcCode.length ≤ maxErrorCodesCount * 2) :
    ∃ assembled, assembleDtcs responseBytes dest dtcCode = some assembled ∧
      assembled.Begins (held ++ dtcBytes dtcCode) := by
  induction dtcCode generalizing held responseBytes dest with
  | nil => exact ⟨responseBytes, rfl, by simpa [dtcBytes] using begins⟩
  | cons code dtcCode ih =>
    subst next
    simp only [List.length_cons] at room
    obtain ⟨bytes₁, first⟩ := @FixedArray.store_of_lt _ _ _ responseBytes
      (show held.length < maxErrorCodesCount * 2 by omega) (dtcHigh code)
    have begins₁ := begins.store first
    obtain ⟨bytes₂, second⟩ := @FixedArray.store_of_lt _ _ _ bytes₁
      (show (held ++ [dtcHigh code]).length < maxErrorCodesCount * 2 by simp; omega) (dtcLow code)
    have begins₂ := begins₁.store second
    obtain ⟨assembled, later, begins'⟩ := ih begins₂ (held.length + 2) (by simp) (by omega)
    rw [List.length_append, List.length_singleton] at second
    refine ⟨assembled, ?_, by simpa [dtcBytes] using begins'⟩
    simpa only [assembleDtcs, first, second, Option.bind_eq_bind, Option.bind_some] using later

theorem Response.copy (response : Response busIndex held msg) (begins : responseBytes.Begins all)
    (count readPtr dest : Nat) (next : held.length = dest) (room : dest + count ≤ 8)
    (inside : readPtr + count ≤ all.length) :
    ∃ msg', copyResponse responseBytes msg count readPtr dest = some msg' ∧
      Response busIndex (held ++ (all.drop readPtr).take count) msg' := by
  induction count generalizing held msg readPtr dest with
  | zero => exact ⟨msg, rfl, by simpa using response⟩
  | succ count ih =>
    obtain ⟨msg₁, first, response₁⟩ := response.put dest all[readPtr] next (by omega)
    obtain ⟨msg', later, response'⟩ :=
      ih response₁ (readPtr + 1) (dest + 1) (by simpa using next) (by omega) (by omega)
    refine ⟨msg', ?_, ?_⟩
    · have read := begins readPtr (by omega)
      simpa only [copyResponse, read, first, Option.bind_eq_bind, Option.bind_some] using later
    · rw [List.drop_eq_getElem_cons (by omega), List.take_succ_cons]
      simpa using response'

/-- The messages are responses, and these are their bytes. -/
def OnWire (busIndex : CanBusIndex) : List CanTxMessage → List (List UInt8) → Prop :=
  List.Forall₂ fun msg packet => msg.eid = obdTestResponse ∧ msg.dlc = 8 ∧ msg.busIndex = busIndex ∧
    msg.isExtended = false ∧ msg.packet = some packet ∧ packet.length = 8

theorem OnWire.packets {sent : List CanTxMessage} {packets : List (List UInt8)}
    (onWire : OnWire busIndex sent packets) : ∀ packet ∈ packets, packet.length ≤ 8 := by
  intro packet member
  induction onWire with
  | nil => simp at member
  | cons here _ ih =>
    rcases List.mem_cons.mp member with rfl | later
    · exact here.2.2.2.2.2.le
    · exact ih later

theorem Response.onWire (response : Response busIndex held msg) (room : held.length ≤ 8) :
    ∃ padding, OnWire busIndex [msg] [held ++ padding] := by
  obtain ⟨padding, packet, length⟩ := response.packet room
  exact ⟨padding, .cons ⟨response.eid, response.dlc, response.bus, response.standard, packet, length⟩ .nil⟩

theorem consecutive_header : ∀ index : Nat, index < 16 →
    (0x20 : UInt8) + UInt8.ofNat index = UInt8.ofNat ((2 <<< 4) ||| (index &&& 0xf)) := by
  decide +kernel

theorem sendConsecutiveDtcs_continues (begins : responseBytes.Begins all) (rounds index readPtr : Nat)
    (enough : all.length - readPtr < rounds) (inside : readPtr ≤ all.length)
    (few : index + (all.length - readPtr + 6) / 7 ≤ 16) :
    ∃ sent packets, sendConsecutiveDtcs responseBytes busIndex rounds (UInt8.ofNat index) readPtr
        (all.length - readPtr) = some sent ∧
      OnWire busIndex sent packets ∧ Continues index (all.drop readPtr) packets := by
  induction rounds generalizing index readPtr with
  | zero => omega
  | succ rounds ih =>
    rw [sendConsecutiveDtcs]
    split
    · next none =>
      refine ⟨[], [], rfl, .nil, ?_⟩
      rw [List.drop_of_length_le (by omega)]
      exact .nil
    · next some =>
      have chunk : (if all.length - readPtr > 7 then 7 else all.length - readPtr) =
          min (all.length - readPtr) 7 := by
        split <;> omega
      obtain ⟨msg₁, put₁, response₁⟩ :=
        (obdResponse_empty busIndex).put 0 (0x20 + UInt8.ofNat index) rfl (by decide)
      obtain ⟨msg₂, put₂, response₂⟩ :=
        response₁.copy begins (min (all.length - readPtr) 7) readPtr 1 rfl (by omega) (by omega)
      obtain ⟨padding, wire⟩ := response₂.onWire (by simp)
      obtain ⟨sent, packets, later, onWire, continues⟩ :=
        ih (index + 1) (readPtr + min (all.length - readPtr) 7) (by omega) (by omega) (by omega)
      have next : UInt8.ofNat index + 1 = UInt8.ofNat (index + 1) := by simp
      have same : all.drop (readPtr + min (all.length - readPtr) 7) = (all.drop readPtr).drop 7 := by
        rw [List.drop_drop]
        rcases Nat.le_total (all.length - readPtr) 7 with last | more
        · rw [List.drop_of_length_le (by omega), List.drop_of_length_le (by omega)]
        · rw [Nat.min_eq_right more]
      have taken : (all.drop readPtr).take (min (all.length - readPtr) 7) = (all.drop readPtr).take 7 := by
        rw [← List.length_drop, Nat.min_comm, ← List.take_take, List.take_length]
      rw [same] at continues
      rw [taken] at wire
      have frame := Continues.cons padding (by rw [List.length_drop]; omega) continues
      rw [← consecutive_header index (by omega)] at frame
      refine ⟨msg₂ :: sent, _, ?_, .cons (List.forall₂_cons.mp wire).1 onWire, frame⟩
      simp only [put₁, chunk, put₂, Option.bind_eq_bind, Option.bind_some, next, Nat.sub_sub]
      rw [later]
      rfl

/-- The message of a response. -/
def dtcMessage (service : UInt8) (dtcCode : List UInt16) : List UInt8 :=
  (0x40 + service) :: UInt8.ofNat dtcCode.length :: dtcBytes dtcCode

theorem length_dtcMessage (service : UInt8) (dtcCode : List UInt16) :
    (dtcMessage service dtcCode).length = 2 + 2 * dtcCode.length := by
  rw [dtcMessage, List.length_cons, List.length_cons, length_dtcBytes]
  omega

variable {service : UInt8} {dtcCode : List UInt16}

theorem handleDtcRequest_none : ∃ sent packets,
    handleDtcRequest responseBytes service [] busIndex = some (responseBytes, sent) ∧
      OnWire busIndex sent packets ∧ Segmented (dtcMessage service []) packets := by
  obtain ⟨msg₀, put₀, response₀⟩ := (obdResponse_empty busIndex).put 0 0x2 rfl (by decide)
  obtain ⟨msg₁, put₁, response₁⟩ := response₀.put 1 (0x40 + service) rfl (by decide)
  obtain ⟨msg₂, put₂, response₂⟩ := response₁.put 2 0x0 rfl (by decide)
  obtain ⟨padding, wire⟩ := response₂.onWire (by simp)
  refine ⟨[msg₂], _, ?_, wire, ?_⟩
  · simp only [handleDtcRequest, List.length_nil, put₀, put₁, put₂, if_true, Option.bind_eq_bind,
      Option.bind_some]
    rfl
  · have frame := @Segmented.single (dtcMessage service []) padding (by rw [length_dtcMessage]; decide)
    simpa [dtcMessage, dtcBytes] using frame

theorem handleDtcRequest_single (present : 0 < dtcCode.length) (two : dtcCode.length ≤ 2) :
    ∃ sent packets,
      handleDtcRequest responseBytes service dtcCode busIndex = some (responseBytes, sent) ∧
        OnWire busIndex sent packets ∧ Segmented (dtcMessage service dtcCode) packets := by
  obtain ⟨msg₀, put₀, response₀⟩ :=
    (obdResponse_empty busIndex).put 0 (UInt8.ofNat (1 + 1 + 2 * dtcCode.length)) rfl (by decide)
  obtain ⟨msg₁, put₁, response₁⟩ := response₀.put 1 (0x40 + service) rfl (by decide)
  obtain ⟨msg₂, put₂, response₂⟩ := response₁.put 2 (UInt8.ofNat dtcCode.length) rfl (by decide)
  obtain ⟨msg₃, put₃, response₃⟩ := response₂.putDtcs 3 dtcCode rfl (by omega)
  obtain ⟨padding, wire⟩ := response₃.onWire (by simp [length_dtcBytes]; omega)
  have message := length_dtcMessage service dtcCode
  have frame := @Segmented.single (dtcMessage service dtcCode) padding (by omega)
  refine ⟨[msg₃], _, ?_, wire, ?_⟩
  · simp only [handleDtcRequest, if_neg (Nat.ne_of_gt present), if_pos two, put₀, put₁, put₂, put₃,
      Option.bind_eq_bind, Option.bind_some]
    rfl
  · rw [message, Nat.zero_shiftLeft, Nat.zero_or] at frame
    simpa [dtcMessage] using frame

theorem first_header : ∀ n < 11, UInt8.ofNat ((1 <<< 4) ||| (((2 + 2 * n) >>> 8) &&& 0xf)) = 0x10 ∧
    UInt8.ofNat ((2 + 2 * n) &&& 0xff) = UInt8.ofNat (1 + 1 + 2 * n) := by
  decide

theorem handleDtcRequest_segmented (many : 2 < dtcCode.length)
    (few : dtcCode.length ≤ maxErrorCodesCount) : ∃ assembled sent packets,
      handleDtcRequest responseBytes service dtcCode busIndex = some (assembled, sent) ∧
        OnWire busIndex sent packets ∧ Segmented (dtcMessage service dtcCode) packets := by
  have bytes := length_dtcBytes dtcCode
  rw [maxErrorCodesCount] at few
  obtain ⟨assembled, assembling, begins⟩ := assembleDtcs_begins
    (FixedArray.begins_nil : responseBytes.Begins []) 0 dtcCode rfl (by rw [maxErrorCodesCount]; omega)
  rw [List.nil_append] at begins
  obtain ⟨msg₀, put₀, response₀⟩ := (obdResponse_empty busIndex).put 0 0x10 rfl (by decide)
  obtain ⟨msg₁, put₁, response₁⟩ :=
    response₀.put 1 (UInt8.ofNat (1 + 1 + 2 * dtcCode.length)) rfl (by decide)
  obtain ⟨msg₂, put₂, response₂⟩ := response₁.put 2 (0x40 + service) rfl (by decide)
  obtain ⟨msg₃, put₃, response₃⟩ := response₂.put 3 (UInt8.ofNat dtcCode.length) rfl (by decide)
  obtain ⟨msg₄, copied, response₄⟩ := response₃.copy begins 4 0 4 rfl (by decide) (by omega)
  obtain ⟨padding, wire⟩ := response₄.onWire (by
    simp only [List.length_append, List.length_take, List.length_nil, List.length_singleton]
    omega)
  obtain ⟨sent, packets, later, onWire, continues⟩ := @sendConsecutiveDtcs_continues busIndex _ _ begins
    (2 * dtcCode.length - 4 + 1) 1 4 (by omega) (by omega) (by omega)
  have message := length_dtcMessage service dtcCode
  have rest : (dtcMessage service dtcCode).drop 6 = (dtcBytes dtcCode).drop 4 := rfl
  have frame := @Segmented.first (dtcMessage service dtcCode) packets padding (by omega)
    (by rw [rest]; exact continues)
  refine ⟨assembled, msg₄ :: sent, _, ?_, .cons (List.forall₂_cons.mp wire).1 onWire, ?_⟩
  · simp only [handleDtcRequest, if_neg (show ¬ dtcCode.length = 0 by omega),
      if_neg (show ¬ dtcCode.length ≤ 2 by omega), assembling, put₀, put₁, put₂, put₃, copied,
      Option.bind_eq_bind, Option.bind_some]
    rw [bytes] at later
    rw [show (1 : UInt8) = UInt8.ofNat 1 from rfl, later]
    rfl
  · obtain ⟨kind, length⟩ := first_header dtcCode.length (by omega)
    rw [message, kind, length] at frame
    simpa [dtcMessage] using frame

end Sending

/-- What a tester gets from the response to a request is the response id, the number of the stored
codes and the codes. -/
theorem handleDtcRequest_decodes (responseBytes : ResponseBytes) (service : UInt8)
    (dtcCode : List UInt16) (few : dtcCode.length ≤ maxErrorCodesCount) (busIndex : CanBusIndex) :
    ∃ assembled sent packets message,
      handleDtcRequest responseBytes service dtcCode busIndex = some (assembled, sent) ∧
        OnWire busIndex sent packets ∧ reassemble packets = some message ∧
        message.length = 2 + 2 * dtcCode.length ∧
        decodeDtcs message = some (0x40 + service, dtcCode.length, dtcCode) := by
  have length := length_dtcMessage service dtcCode
  have decoded : decodeDtcs (dtcMessage service dtcCode) =
      some (0x40 + service, dtcCode.length, dtcCode) := by
    rw [maxErrorCodesCount] at few
    have count : (UInt8.ofNat dtcCode.length).toNat = dtcCode.length := by
      rw [UInt8.toNat_ofNat']
      omega
    simp [dtcMessage, decodeDtcs, decodeCodes_dtcBytes, count]
  obtain ⟨assembled, sent, packets, handled, onWire, segmented⟩ : ∃ assembled sent packets,
      handleDtcRequest responseBytes service dtcCode busIndex = some (assembled, sent) ∧
        OnWire busIndex sent packets ∧ Segmented (dtcMessage service dtcCode) packets := by
    rcases Nat.lt_or_ge 2 dtcCode.length with many | two
    · exact handleDtcRequest_segmented many few
    · cases dtcCode with
      | nil =>
        obtain ⟨sent, packets, handled⟩ := handleDtcRequest_none
        exact ⟨responseBytes, sent, packets, handled⟩
      | cons code dtcCode =>
        obtain ⟨sent, packets, handled⟩ := handleDtcRequest_single (by simp) two
        exact ⟨responseBytes, sent, packets, handled⟩
  have joined := segmented.reassembles (by omega) (by rw [length]; rw [maxErrorCodesCount] at few; omega)
    onWire.packets
  exact ⟨assembled, sent, packets, _, handled, onWire, joined, length, decoded⟩

/-- Three codes, in two frames. -/
theorem handleDtcRequest_decodes_three : [0x123, 0x612, 0x176].length ≤ maxErrorCodesCount ∧
    ∃ assembled sent packets message,
      handleDtcRequest (.fill 0) obdStoredDtc [0x123, 0x612, 0x176] .bus0 = some (assembled, sent) ∧
        OnWire .bus0 sent packets ∧ reassemble packets = some message ∧ message.length = 8 ∧
        decodeDtcs message = some (0x43, 3, [0x123, 0x612, 0x176]) :=
  ⟨by decide, handleDtcRequest_decodes (.fill 0) obdStoredDtc [0x123, 0x612, 0x176] (by decide) .bus0⟩

end FomeFw.Can
