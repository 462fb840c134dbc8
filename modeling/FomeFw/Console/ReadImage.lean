import FomeFw.Console.HostPackets
import FomeFw.Console.TunerStudio
import FomeFw.Lib.Java

/-! `BinaryProtocol.java`: the console reads the configuration from the controller, chunk by chunk. -/
namespace FomeFw.Console

open IoHelper

structure ByteRange where
  offset : BitVec 32
  count : BitVec 32

namespace ByteRange

def packOffsetAndSize (offset requestSize : BitVec 32) : List UInt8 :=
  putShort (swap16 offset) ++ putShort (swap16 requestSize)

def readShort (payload : List UInt8) (i : Nat) : BitVec 32 :=
  ((payload.getD i 0).toBitVec ++ (payload.getD (i + 1) 0).toBitVec).signExtend 32

/-- The payload begins with the command. -/
def valueOf (payload : List UInt8) : ByteRange :=
  ⟨swap16 (readShort payload 1), swap16 (readShort payload 3)⟩

end ByteRange

namespace BinaryProtocol

open Java (arraycopy arraycopy_eq)

def tsReadCommand : UInt8 := 0x52

/-- `READ_IMAGE_TIMEOUT`, in milliseconds. -/
abbrev readImageTimeout : Int := 60000

/-- One round of the loop, as far as it is not up to the loop. -/
structure Round where
  /-- `System.currentTimeMillis() - start` -/
  elapsed : Int
  /-- Another thread closes the connection before the loop looks. -/
  closesBefore : Bool := false
  /-- It does so before `executeCommand` looks. -/
  closesThen : Bool := false
  /-- What `receivePacket` returns, or none for an `IOException`. -/
  received : Option (Option (List UInt8))

/-- A request and its answer. -/
abbrev Exchange := List UInt8 × List UInt8

structure Reading where
  offset : Nat
  content : List UInt8
  isClosed : Bool
  exchanges : List Exchange

inductive Result where
  | image (content : List UInt8) (exchanges : List Exchange)
  | null
  | exception (text : String)

def checkResponseCode (response : Option (List UInt8)) (code : UInt8) : Bool :=
  match response with
  | some (b :: _) => b == code
  | _ => false

def extractCode (response : Option (List UInt8)) : Int :=
  match response with
  | some (b :: _) => b.toNat
  | _ => -1

def executeCommand (s : Reading) (received : Option (Option (List UInt8))) (opcode : UInt8)
    (packet : List UInt8) : Reading × Option (List UInt8) :=
  if s.isClosed then (s, none)
  else
    match received with
    | none => ({ s with isClosed := true }, none)
    | some none => (s, none)
    | some (some response) =>
      ({ s with exchanges := s.exchanges ++ [(opcode :: packet, response)] }, some response)

/-- What is asked for at an offset. -/
def requestSizeAt (size offset : Nat) : Nat := min (size - offset) blockingFactor

def packetAt (size offset : Nat) : List UInt8 :=
  ByteRange.packOffsetAndSize (BitVec.ofNat 32 offset) (BitVec.ofNat 32 (requestSizeAt size offset))

/-- The loop's body, up to its end or a `continue`, or to a `return` or an exception. -/
def readRound (size : Nat) (s : Reading) (round : Round) : Reading ⊕ Result :=
  let isClosed := s.isClosed || round.closesBefore
  if isClosed then .inr .null
  else
    let requestSize := requestSizeAt size s.offset
    let (s, response) := executeCommand { s with isClosed := round.closesThen } round.received
      tsReadCommand (packetAt size s.offset)
    if checkResponseCode response tsResponseOk ∧ (response.getD []).length = requestSize + 1 then
      match arraycopy (response.getD []) 1 s.content s.offset requestSize with
      | .ok content => .inl { s with content := content, offset := s.offset + requestSize }
      | .error text => .inr (.exception text)
    else if extractCode response = tsResponseOutOfRange.toNat then
      .inr (.exception "TS_RESPONSE_OUT_OF_RANGE ECU/console version mismatch?")
    else .inl s

def readLoop (size : Nat) : Reading → List Round → Option Result
  | s, [] => if s.offset < size then none else some (.image s.content s.exchanges)
  | s, round :: rounds =>
    if s.offset < size ∧ round.elapsed < readImageTimeout then
      match readRound size s round with
      | .inl s => readLoop size s rounds
      | .inr result => some result
    else some (.image s.content s.exchanges)

/-- `new ConfigurationImage(size)`, and nothing read. -/
def start (size : Nat) : Reading := ⟨0, List.replicate size 0, false, []⟩

def readFullImageFromController (size : Nat) (rounds : List Round) : Option Result :=
  readLoop size (start size) rounds

/-! ## What the controller reported -/

/-- The answer is a good one to the request and has this byte for this offset. -/
def Reports (e : Exchange) (k : Nat) (b : UInt8) : Prop :=
  let range := ByteRange.valueOf e.1
  e.2.head? = some tsResponseOk ∧ e.2.length = range.count.toNat + 1 ∧
    range.offset.toNat ≤ k ∧ e.2[k - range.offset.toNat + 1]? = some b

/-- Every byte of the image is what the controller reported for its offset. -/
def Complete (size : Nat) (content : List UInt8) (exchanges : List Exchange) : Prop :=
  content.length = size ∧
    ∀ k < size, ∀ b, content[k]? = some b ↔ ∃ e ∈ exchanges, Reports e k b

/-- Each time the loop looks at the clock with bytes missing, it is before the time-out. -/
def InTime (size : Nat) : Reading → List Round → Prop
  | _, [] => True
  | s, round :: rounds => s.offset < size → round.elapsed < readImageTimeout ∧
      ∀ s', readRound size s round = .inl s' → InTime size s' rounds

section Ranges

variable {b0 b1 b2 b3 : UInt8}

theorem swap16_joined : swap16 (joined b0 b1 b2 b3) = joined 0 0 b3 b2 := by
  apply BitVec.eq_of_getLsbD_eq
  intro i hi
  simp only [swap16, joined, BitVec.getLsbD_or, BitVec.getLsbD_and, BitVec.getLsbD_sshiftRight,
    BitVec.getLsbD_shiftLeft, BitVec.getLsbD_append]
  interval_cases i <;> simp

theorem swap16_signExtend :
    swap16 ((b3.toBitVec ++ b2.toBitVec).signExtend 32) = joined 0 0 b2 b3 := by
  apply BitVec.eq_of_getLsbD_eq
  intro i hi
  simp only [swap16, joined, BitVec.getLsbD_or, BitVec.getLsbD_and, BitVec.getLsbD_sshiftRight,
    BitVec.getLsbD_shiftLeft, BitVec.getLsbD_append, BitVec.getLsbD_signExtend]
  interval_cases i <;> simp

/-- Offset and size are sent with 16 bits. -/
theorem swap16_readShort (x : BitVec 32) (before after : List UInt8) :
    (swap16 (ByteRange.readShort (before ++ (putShort (swap16 x) ++ after)) before.length)).toNat =
      x.toNat % 65536 := by
  obtain ⟨b0, b1, b2, b3, rfl⟩ := exists_joined x
  have bytes : ByteRange.readShort (before ++ ([b3, b2] ++ after)) before.length =
      (b3.toBitVec ++ b2.toBitVec).signExtend 32 := by
    simp [ByteRange.readShort]
  have h2 := b2.toNat_lt
  have h3 := b3.toNat_lt
  rw [swap16_joined, putShort_joined, bytes, swap16_signExtend, toNat_joined, toNat_joined]
  simp only [List.foldl_cons, List.foldl_nil, UInt8.toNat_zero]
  omega

theorem valueOf_packOffsetAndSize (command : UInt8) (offset requestSize : BitVec 32) :
    (ByteRange.valueOf (command :: ByteRange.packOffsetAndSize offset requestSize)).offset.toNat =
        offset.toNat % 65536 ∧
      (ByteRange.valueOf (command :: ByteRange.packOffsetAndSize offset requestSize)).count.toNat =
        requestSize.toNat % 65536 := by
  constructor
  · exact swap16_readShort offset [command] (putShort (swap16 requestSize))
  · have second := swap16_readShort requestSize (command :: putShort (swap16 offset)) []
    rw [List.append_nil] at second
    exact second

end Ranges

section Loop

variable {size k n : Nat} {b : UInt8} {s s' : Reading} {round : Round} {rounds : List Round}
  {content data : List UInt8} {exchanges : List Exchange} {e : Exchange}

/-- The request for what comes at an offset. -/
def requestAt (size offset : Nat) : List UInt8 := tsReadCommand :: packetAt size offset

def IsGood (size offset : Nat) (response : List UInt8) : Prop :=
  response.head? = some tsResponseOk ∧ response.length = requestSizeAt size offset + 1

theorem checkResponseCode_iff {response : List UInt8} {code : UInt8} :
    checkResponseCode (some response) code = true ↔ response.head? = some code := by
  cases response with
  | nil => simp [checkResponseCode]
  | cons b response => simp [checkResponseCode]

theorem executeCommand_cases (s : Reading) (received : Option (Option (List UInt8)))
    (opcode : UInt8) (packet : List UInt8) :
    ∃ isClosed, executeCommand s received opcode packet = ({ s with isClosed := isClosed }, none) ∨
      ∃ response, executeCommand s received opcode packet =
        (⟨s.offset, s.content, isClosed, s.exchanges ++ [(opcode :: packet, response)]⟩,
          some response) := by
  unfold executeCommand
  split
  · exact ⟨s.isClosed, .inl rfl⟩
  match received with
  | none => exact ⟨true, .inl rfl⟩
  | some none => exact ⟨s.isClosed, .inl rfl⟩
  | some (some response) => exact ⟨s.isClosed, .inr ⟨response, rfl⟩⟩

/-- A round goes on with a good answer copied, with one that is not good, or with none. -/
theorem readRound_cases (length : s.content.length = size) (within : s.offset < size)
    (done : readRound size s round = .inl s') :
    (∃ data, data.length = requestSizeAt size s.offset ∧
        s'.content = s.content.take s.offset ++ data ++ s.content.drop (s.offset + data.length) ∧
        s'.offset = s.offset + data.length ∧
        s'.exchanges = s.exchanges ++ [(requestAt size s.offset, tsResponseOk :: data)]) ∨
      s'.content = s.content ∧ s'.offset = s.offset ∧
        (s'.exchanges = s.exchanges ∨
          ∃ response, ¬ IsGood size s.offset response ∧
            s'.exchanges = s.exchanges ++ [(requestAt size s.offset, response)]) := by
  have fits : s.offset + requestSizeAt size s.offset ≤ size := by
    rw [requestSizeAt]
    omega
  rw [readRound] at done
  split at done
  · cases done
  obtain ⟨isClosed, none | ⟨response, some⟩⟩ := executeCommand_cases
    { s with isClosed := round.closesThen } round.received tsReadCommand (packetAt size s.offset)
  · simp only [none, checkResponseCode, Bool.false_eq_true, false_and, if_false] at done
    split at done
    · cases done
    · cases done
      exact .inr ⟨rfl, rfl, .inl rfl⟩
  · simp only [some, checkResponseCode_iff, Option.getD_some] at done
    split at done
    · next good =>
      obtain ⟨data, rfl⟩ : ∃ data, response = tsResponseOk :: data := by
        cases response with
        | nil => cases good.1
        | cons b data => exact ⟨data, by rw [Option.some.inj good.1]⟩
      have long : data.length = requestSizeAt size s.offset := Nat.succ.inj good.2
      have copied := arraycopy_eq [tsResponseOk] data [] (s.content.take s.offset)
        (s.content.drop s.offset)
      rw [List.take_append_drop, List.append_nil, List.length_take, length,
        Nat.min_eq_left within.le, List.length_drop, length, if_pos (by omega), List.drop_drop,
        long] at copied
      change arraycopy (tsResponseOk :: data) 1 _ _ _ = _ at copied
      simp only [copied] at done
      cases done
      exact .inl ⟨data, long, by rw [long], by rw [long], rfl⟩
    · next bad =>
      split at done
      · cases done
      · cases done
        exact .inr ⟨rfl, rfl, .inr ⟨response, bad, rfl⟩⟩

theorem readRound_not_image : readRound size s round ≠ .inr (.image content exchanges) := by
  intro done
  rw [readRound] at done
  split at done
  · cases done
  generalize executeCommand _ _ _ _ = answered at done
  obtain ⟨s', response⟩ := answered
  simp only at done
  split at done
  · split at done <;> cases done
  · split at done <;> cases done

structure Inv (size : Nat) (s : Reading) : Prop where
  length : s.content.length = size
  within : s.offset ≤ size
  aligned : s.offset < size → blockingFactor ∣ s.offset
  asked : ∀ e ∈ s.exchanges, ∃ n, blockingFactor * n < size ∧ e.1 = requestAt size (blockingFactor * n)
  reported : size ≤ 51 * blockingFactor → ∀ k b,
    (∃ e ∈ s.exchanges, Reports e k b) ↔ k < s.offset ∧ s.content[k]? = some b

theorem start_inv (size : Nat) : Inv size (start size) where
  length := List.length_replicate
  within := Nat.zero_le _
  aligned _ := ⟨0, rfl⟩
  asked _ member := nomatch member
  reported _ k b := by simp [start]

theorem range_requestAt (size n : Nat) :
    (ByteRange.valueOf (requestAt size n)).offset.toNat = n % 65536 ∧
      (ByteRange.valueOf (requestAt size n)).count.toNat = requestSizeAt size n := by
  have small : requestSizeAt size n ≤ blockingFactor := Nat.min_le_right _ _
  simp only [blockingFactor] at small
  obtain ⟨offset, count⟩ := valueOf_packOffsetAndSize tsReadCommand (BitVec.ofNat 32 n)
    (BitVec.ofNat 32 (requestSizeAt size n))
  refine ⟨offset.trans ?_, count.trans ?_⟩
  · rw [BitVec.toNat_ofNat]
    omega
  · rw [BitVec.toNat_ofNat]
    omega

/-- What an answer to a request reports, if its offset has 16 bits. -/
theorem reports_requestAt {response : List UInt8} (small : n < 65536) :
    Reports (requestAt size n, response) k b ↔
      IsGood size n response ∧ n ≤ k ∧ response[k - n + 1]? = some b := by
  obtain ⟨offset, count⟩ := range_requestAt size n
  simp only [Reports, IsGood, offset, count, Nat.mod_eq_of_lt small, and_assoc]

theorem copied_getElem? (length : content.length = size) (room : n + data.length ≤ size) :
    (content.take n ++ data ++ content.drop (n + data.length)).length = size ∧
      (k < n ∧ content[k]? = some b ∨ n ≤ k ∧ data[k - n]? = some b ↔
        k < n + data.length ∧
          (content.take n ++ data ++ content.drop (n + data.length))[k]? = some b) := by
  have front : (content.take n).length = n := by
    rw [List.length_take]
    omega
  constructor
  · simp only [List.length_append, front, List.length_drop]
    omega
  rw [List.append_assoc, List.getElem?_append, front]
  by_cases before : k < n
  · rw [if_pos before, List.getElem?_take_of_lt before]
    constructor
    · rintro (⟨-, here⟩ | ⟨behind, -⟩)
      · exact ⟨by omega, here⟩
      · omega
    · rintro ⟨-, here⟩
      exact .inl ⟨before, here⟩
  · rw [if_neg before, List.getElem?_append]
    by_cases inside : k - n < data.length
    · rw [if_pos inside]
      constructor
      · rintro (⟨there, -⟩ | ⟨-, here⟩)
        · omega
        · exact ⟨by omega, here⟩
      · rintro ⟨-, here⟩
        exact .inr ⟨by omega, here⟩
    · constructor
      · rintro (⟨there, -⟩ | ⟨-, here⟩)
        · omega
        · rw [List.getElem?_eq_none (by omega)] at here
          cases here
      · rintro ⟨there, -⟩
        omega

theorem Inv.chunk (inv : Inv size s) (within : s.offset < size) :
    ∃ n, s.offset = blockingFactor * n ∧ (size ≤ 51 * blockingFactor → s.offset < 65536) := by
  obtain ⟨n, aligned⟩ := inv.aligned within
  refine ⟨n, aligned, fun small => ?_⟩
  simp only [blockingFactor] at aligned small
  omega

/-- Each exchange is asked for at the offset of the round. -/
theorem Inv.asked_append (inv : Inv size s) (within : s.offset < size) (response : List UInt8) :
    ∀ e ∈ s.exchanges ++ [(requestAt size s.offset, response)],
      ∃ n, blockingFactor * n < size ∧ e.1 = requestAt size (blockingFactor * n) := by
  obtain ⟨n, aligned, -⟩ := inv.chunk within
  intro e member
  rcases List.mem_append.mp member with old | new
  · exact inv.asked e old
  · obtain rfl := List.mem_singleton.mp new
    exact ⟨n, aligned ▸ within, congrArg (requestAt size) aligned⟩

theorem reported_append {response : List UInt8} (small : n < 65536) :
    (∃ e ∈ exchanges ++ [(requestAt size n, response)], Reports e k b) ↔
      (∃ e ∈ exchanges, Reports e k b) ∨
        IsGood size n response ∧ n ≤ k ∧ response[k - n + 1]? = some b := by
  simp only [List.mem_append, List.mem_singleton, or_and_right, exists_or, exists_eq_left,
    reports_requestAt small]

theorem readRound_inv (inv : Inv size s) (within : s.offset < size)
    (done : readRound size s round = .inl s') : Inv size s' := by
  obtain ⟨n, aligned, small⟩ := inv.chunk within
  rcases readRound_cases inv.length within done with
    ⟨data, long, copied, further, asked⟩ | ⟨same, still, asked | ⟨response, bad, asked⟩⟩
  · have room : s.offset + data.length ≤ size := by
      rw [long, requestSizeAt]
      omega
    refine ⟨?_, further ▸ room, ?_, ?_, ?_⟩
    · rw [copied]
      exact (@copied_getElem? size 0 s.offset 0 s.content data inv.length room).1
    · intro more
      have full : data.length = blockingFactor := by
        rw [further, long, requestSizeAt] at more
        rw [long, requestSizeAt]
        omega
      exact ⟨n + 1, by rw [further, full, aligned, Nat.mul_add_one]⟩
    · rw [asked]
      exact inv.asked_append within _
    · intro fits k b
      have good : IsGood size s.offset (tsResponseOk :: data) := ⟨rfl, congrArg (· + 1) long⟩
      rw [asked, reported_append (small fits), inv.reported fits k b, and_iff_right good, further,
        copied, List.getElem?_cons_succ]
      exact (copied_getElem? inv.length room).2
  · exact ⟨same ▸ inv.length, still ▸ inv.within, still ▸ inv.aligned, asked ▸ inv.asked,
      by rw [same, still, asked]; exact inv.reported⟩
  · refine ⟨same ▸ inv.length, still ▸ inv.within, still ▸ inv.aligned, ?_, ?_⟩
    · rw [asked]
      exact inv.asked_append within _
    · intro fits k b
      rw [asked, reported_append (small fits), inv.reported fits k b, same, still]
      exact or_iff_left fun new => bad new.1

/-- A returned image is that of the last round. -/
theorem readLoop_returns (inv : Inv size s)
    (returned : readLoop size s rounds = some (.image content exchanges)) :
    ∃ s', Inv size s' ∧ s'.content = content ∧ s'.exchanges = exchanges ∧
      (InTime size s rounds ↔ s'.offset = size) := by
  induction rounds generalizing s with
  | nil =>
    rw [readLoop] at returned
    split at returned
    · cases returned
    · next all =>
      cases returned
      have last := inv.within
      exact ⟨s, inv, rfl, rfl, iff_of_true trivial (by omega)⟩
  | cons round rounds ih =>
    rw [readLoop] at returned
    split at returned
    · next continues =>
      cases done : readRound size s round with
      | inr result =>
        rw [done] at returned
        cases returned
        exact absurd done readRound_not_image
      | inl next =>
        rw [done] at returned
        obtain ⟨s', inv', whole, asked, inTime⟩ := ih (readRound_inv inv continues.1 done) returned
        refine ⟨s', inv', whole, asked, ?_⟩
        rw [← inTime, InTime]
        simp only [continues, forall_const, true_and, done, Sum.inl.injEq, forall_eq']
    · next stops =>
      cases returned
      refine ⟨s, inv, rfl, rfl, ?_⟩
      have last := inv.within
      rw [InTime]
      constructor
      · intro timely
        by_contra missing
        exact stops ⟨by omega, (timely (by omega)).1⟩
      · rintro rfl
        exact fun more => absurd more (Nat.lt_irrefl _)

/-- A report is within the range of the request, which has an offset with 16 bits. -/
theorem Inv.range_of_reports (inv : Inv size s) (member : e ∈ s.exchanges) (reports : Reports e k b) :
    ∃ n, blockingFactor * n < size ∧ blockingFactor * n % 65536 ≤ k ∧
      k < blockingFactor * n % 65536 + blockingFactor := by
  obtain ⟨n, below, asked⟩ := inv.asked e member
  obtain ⟨offset, count⟩ := range_requestAt size (blockingFactor * n)
  obtain ⟨-, long, from_, here⟩ := reports
  rw [asked, offset] at from_ here
  rw [asked, count] at long
  obtain ⟨inside, -⟩ := List.getElem?_eq_some_iff.mp here
  have limit : requestSizeAt size (blockingFactor * n) ≤ blockingFactor := Nat.min_le_right _ _
  exact ⟨n, below, from_, by omega⟩

/-- Of a larger image some byte is never reported: the first behind what offsets with 16 bits reach by
whole chunks, or the last, which they do not reach at all. -/
theorem Inv.not_reported (inv : Inv size s) (large : 51 * blockingFactor < size) :
    ∃ k < size, ∀ b, ¬ ∃ e ∈ s.exchanges, Reports e k b := by
  simp only [blockingFactor] at large
  by_cases huge : 65535 + 1300 < size
  · refine ⟨size - 1, by omega, ?_⟩
    rintro b ⟨e, member, reports⟩
    obtain ⟨n, -, -, reach⟩ := inv.range_of_reports member reports
    simp only [blockingFactor] at reach
    omega
  · refine ⟨51 * 1300, large, ?_⟩
    rintro b ⟨e, member, reports⟩
    obtain ⟨n, below, from_, reach⟩ := inv.range_of_reports member reports
    simp only [blockingFactor] at below from_ reach
    rcases Nat.lt_or_ge n 51 with before | behind
    · rw [Nat.mod_eq_of_lt (by omega)] at reach
      omega
    · obtain rfl : n = 51 := by omega
      exact absurd reach (by decide)

/-- A returned image is complete just when it was read in time and the offsets of its chunks have 16
bits. -/
theorem image_complete_iff
    (returned : readFullImageFromController size rounds = some (.image content exchanges)) :
    Complete size content exchanges ↔ InTime size (start size) rounds ∧ size ≤ 51 * blockingFactor := by
  obtain ⟨s, inv, rfl, rfl, inTime⟩ := readLoop_returns (start_inv size) returned
  have byte {k : Nat} (within : k < size) : ∃ b, s.content[k]? = some b :=
    ⟨_, List.getElem?_eq_getElem (inv.length.symm ▸ within)⟩
  rw [inTime]
  constructor
  · rintro ⟨-, complete⟩
    have fits : size ≤ 51 * blockingFactor := by
      by_contra large
      obtain ⟨k, within, never⟩ := inv.not_reported (not_le.mp large)
      obtain ⟨b, here⟩ := byte within
      exact never b ((complete k within b).mp here)
    refine ⟨?_, fits⟩
    by_contra missing
    have within : s.offset < size := Nat.lt_of_le_of_ne inv.within missing
    obtain ⟨b, here⟩ := byte within
    have reported := (complete _ within b).mp here
    rw [inv.reported fits] at reported
    exact Nat.lt_irrefl _ reported.1
  · rintro ⟨all, fits⟩
    refine ⟨inv.length, fun k within b => ?_⟩
    rw [inv.reported fits, all]
    exact (and_iff_right within).symm

end Loop

/-- A round in which the controller answers. -/
def answered (elapsed : Int) (response : List UInt8) : Round :=
  ⟨elapsed, false, false, some (some response)⟩

/-- A round in which it does not. -/
def silent (elapsed : Int) : Round := ⟨elapsed, false, false, some none⟩

theorem twoBytes_complete : Complete 2 [7, 8] [(requestAt 2 0, [0, 7, 8])] := by
  refine (@image_complete_iff 2 [silent 0, answered 5000 [0, 7, 8]] _ _ rfl).mpr ⟨?_, by decide⟩
  intro _
  refine ⟨by decide, fun s' done _ => ⟨by decide, fun _ _ => trivial⟩⟩

/-- After a minute of silence, zeros are returned for an image. -/
theorem silence_returned :
    readFullImageFromController 2 [silent 0, silent 60000] = some (.image [0, 0] []) ∧
      ¬ Complete 2 [0, 0] [] := by
  refine ⟨rfl, fun complete => ?_⟩
  obtain ⟨e, member, -⟩ := (complete.2 0 (by decide) 0).mp rfl
  cases member

end BinaryProtocol
end FomeFw.Console
