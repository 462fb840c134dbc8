import FomeFw.Console.HostPackets

/-! `XcpLoader.java`, which sends an image to the bootloader. -/
namespace FomeFw.Console.Xcp

abbrev Packet := List UInt8

/-- Of the bootloader's answers when it was connected to. -/
structure TargetInfo where
  bigEndian : Bool
  /-- `response[3] & 0xFF` -/
  maxProgCto : UInt8

def cmdSetMta : UInt8 := 0xF6

def cmdProgram : UInt8 := 0xD0

def cmdPidRes : UInt8 := 0xFF

/-- What is answered to each packet, or none for an `IOException`. -/
abbrev Transport := Nat → Option Packet

/-- `putInt` in the byte order of the target. -/
def TargetInfo.putInt (t : TargetInfo) (value : BitVec 32) : List UInt8 :=
  if t.bigEndian then IoHelper.putInt value else (IoHelper.putInt value).reverse

def setMtaRequest (t : TargetInfo) (address : BitVec 32) : Packet :=
  [cmdSetMta, 0, 0, 0] ++ t.putInt address

def programRequest (data : List UInt8) : Packet := [cmdProgram, UInt8.ofNat data.length] ++ data

/-- The packets sent, and the text of an exception. -/
abbrev Progress := List Packet × Option String

def sendPacket (transport : Transport) (text : String) (sent : List Packet) (request : Packet) :
    Progress :=
  (sent ++ [request],
    match transport sent.length with
    | none => some "IOException"
    | some response => if response = [cmdPidRes] then none else some text)

def sendCmdProgram (transport : Transport) (sent : List Packet) (data : List UInt8) : Progress :=
  sendPacket transport "sendCmdProgram failed" sent (programRequest data)

def setMta (t : TargetInfo) (transport : Transport) (sent : List Packet) (address : BitVec 32) :
    Progress :=
  sendPacket transport ("setMta failed for address " ++ toString address.toInt) sent
    (setMtaRequest t address)

/-- `Arrays.copyOfRange`, with zeros behind the end. -/
def copyOfRange (data : List UInt8) (start stop : Nat) : List UInt8 :=
  (data.drop start ++ List.replicate (stop - start) 0).take (stop - start)

/-- The loop of `writeData`, with the number of rounds it may make. -/
def writeLoop (t : TargetInfo) (transport : Transport) (data : List UInt8) :
    (rounds len offset : Nat) → List Packet → Option Progress
  | 0, _, _, _ => none
  | rounds + 1, len, offset, sent =>
    if len > 0 then
      let chunkSize := min t.maxProgCto.toNat len
      let chunk := copyOfRange data offset (offset + len)
      match sendCmdProgram transport sent chunk with
      | (sent, some text) => some (sent, some text)
      | (sent, none) => writeLoop t transport data rounds (len - chunkSize) (offset + chunkSize) sent
    else some (sent, none)

def writeData (t : TargetInfo) (transport : Transport) (rounds : Nat) (address : BitVec 32)
    (data : List UInt8) : Option Progress :=
  match setMta t transport [] address with
  | (sent, some text) => some (sent, some text)
  | (sent, none) => writeLoop t transport data rounds data.length 0 sent

/-- Every packet is answered well. -/
def positive : Transport := fun _ => some [cmdPidRes]

/-! ## The bootloader -/

/-- Where it writes next, and what it has written. -/
structure Bootloader where
  mta : BitVec 32 := 0
  written : List (BitVec 32 × UInt8) := []

/-- These bytes from an address on. -/
def imageAt (address : BitVec 32) : List UInt8 → List (BitVec 32 × UInt8)
  | [] => []
  | b :: bytes => (address, b) :: imageAt (address + 1) bytes

def TargetInfo.getInt (t : TargetInfo) (bytes : List UInt8) : BitVec 32 :=
  IncomingDataBuffer.getInt (if t.bigEndian then bytes.reverse else bytes)

def Bootloader.program (b : Bootloader) (bytes : List UInt8) : Bootloader where
  mta := b.mta + BitVec.ofNat 32 bytes.length
  written := b.written ++ imageAt b.mta bytes

/-- As many bytes are written as the length byte announces. -/
def Bootloader.receive (t : TargetInfo) (b : Bootloader) : Packet → Bootloader
  | command :: length :: rest =>
    if command = cmdSetMta then { b with mta := t.getInt (rest.drop 2) }
    else if command = cmdProgram then b.program (rest.take length.toNat)
    else b
  | _ => b

/-- The upload ends, its commands carry the data in order, each as much as is allowed and with its
length, and the bootloader writes the data at the address and nothing else. -/
def Uploads (t : TargetInfo) (address : BitVec 32) (data : List UInt8) : Prop :=
  ∃ (rounds : Nat) (chunks : List (List UInt8)),
    writeData t positive rounds address data =
      some (setMtaRequest t address :: chunks.map programRequest, none) ∧
    chunks.flatten = data ∧
    (∀ chunk ∈ chunks, chunk.length ≤ t.maxProgCto.toNat ∧
      (UInt8.ofNat chunk.length).toNat = chunk.length) ∧
    ((setMtaRequest t address :: chunks.map programRequest).foldl (Bootloader.receive t) {}).written =
      imageAt address data

variable {t : TargetInfo} {b : Bootloader} {address : BitVec 32} {data : List UInt8}

theorem getInt_putInt (t : TargetInfo) (value : BitVec 32) : t.getInt (t.putInt value) = value := by
  obtain ⟨b0, b1, b2, b3, rfl⟩ := exists_joined value
  rw [TargetInfo.getInt, TargetInfo.putInt, putInt_joined]
  split
  · exact getInt_bytes []
  · exact getInt_bytes []

theorem imageAt_append (address : BitVec 32) (bytes more : List UInt8) :
    imageAt address (bytes ++ more) =
      imageAt address bytes ++ imageAt (address + BitVec.ofNat 32 bytes.length) more := by
  induction bytes generalizing address with
  | nil => simp [imageAt]
  | cons x bytes ih =>
    rw [List.cons_append, imageAt, imageAt, ih, List.cons_append, List.length_cons, Nat.add_comm,
      BitVec.ofNat_add, BitVec.add_assoc]
    rfl

theorem program_program (b : Bootloader) (bytes more : List UInt8) :
    (b.program bytes).program more = b.program (bytes ++ more) := by
  simp only [Bootloader.program, imageAt_append, List.append_assoc, List.length_append,
    BitVec.ofNat_add, BitVec.add_assoc]

theorem receive_setMta (t : TargetInfo) (b : Bootloader) (address : BitVec 32) :
    b.receive t (setMtaRequest t address) = { b with mta := address } := by
  simp [Bootloader.receive, setMtaRequest, getInt_putInt]

theorem receive_program (announced : (UInt8.ofNat data.length).toNat = data.length) :
    b.receive t (programRequest data) = b.program data := by
  have other : cmdProgram ≠ cmdSetMta := by decide
  simp only [programRequest, List.cons_append, List.nil_append, Bootloader.receive, other, if_false,
    if_true, announced, List.take_length]

/-- Commands with the right lengths write what they carry. -/
theorem receive_chunks {chunks : List (List UInt8)}
    (announced : ∀ chunk ∈ chunks, (UInt8.ofNat chunk.length).toNat = chunk.length) :
    ((chunks.map programRequest).foldl (Bootloader.receive t) b).written =
      (b.program chunks.flatten).written := by
  induction chunks generalizing b with
  | nil => simp [Bootloader.program, imageAt]
  | cons chunk chunks ih =>
    rw [List.map_cons, List.foldl_cons, receive_program (announced _ (List.mem_cons_self ..)),
      ih fun c member => announced c (List.mem_cons_of_mem _ member), program_program,
      List.flatten_cons]

/-- One round of the loop. -/
theorem writeLoop_succ {rounds len offset : Nat} {sent : List Packet} (some : len > 0) :
    writeLoop t positive data (rounds + 1) len offset sent =
      writeLoop t positive data rounds (len - min t.maxProgCto.toNat len)
        (offset + min t.maxProgCto.toNat len)
        (sent ++ [programRequest (copyOfRange data offset (offset + len))]) := by
  rw [writeLoop, if_pos some]
  rfl

theorem writeLoop_zero {rounds offset : Nat} {sent : List Packet} :
    writeLoop t positive data (rounds + 1) 0 offset sent = some (sent, none) := rfl

/-- The loop only sends more. -/
theorem writeLoop_sends {rounds len offset : Nat} {sent : List Packet} {done : Progress}
    (ran : writeLoop t positive data rounds len offset sent = some done) :
    ∃ more, done.1 = sent ++ more := by
  induction rounds generalizing len offset sent with
  | zero => cases ran
  | succ rounds ih =>
    rcases Nat.eq_zero_or_pos len with rfl | some
    · rw [writeLoop_zero] at ran
      cases ran
      exact ⟨[], (List.append_nil _).symm⟩
    · rw [writeLoop_succ some] at ran
      obtain ⟨more, all⟩ := ih ran
      exact ⟨_, by rw [all, List.append_assoc]⟩

theorem copyOfRange_all (data : List UInt8) : copyOfRange data 0 (0 + data.length) = data := by
  simp [copyOfRange]

theorem programRequest_injective {more : List UInt8} (same : programRequest data = programRequest more) :
    data = more :=
  (List.cons.inj (List.cons.inj same).2).2

/-- Whatever the first round is to send, it sends all. -/
theorem Uploads.fits (uploads : Uploads t address data) : data.length ≤ t.maxProgCto.toNat := by
  obtain ⟨rounds, chunks, ran, -, allowed, -⟩ := uploads
  rcases Nat.eq_zero_or_pos data.length with empty | some
  · omega
  · change writeLoop t positive data rounds data.length 0 [setMtaRequest t address] = _ at ran
    cases rounds with
    | zero => cases ran
    | succ rounds =>
      rw [writeLoop_succ some, copyOfRange_all] at ran
      obtain ⟨more, all⟩ := writeLoop_sends ran
      rw [List.append_assoc, List.singleton_append, List.singleton_append, List.cons.injEq] at all
      cases chunks with
      | nil => cases all.2
      | cons chunk chunks =>
        have first := programRequest_injective (List.cons.inj all.2).1
        rw [← first]
        exact (allowed chunk (List.mem_cons_self ..)).1

/-- An upload succeeds just when one command can carry all of the data, or there is none. -/
theorem uploads_iff (t : TargetInfo) (address : BitVec 32) (data : List UInt8) :
    Uploads t address data ↔ data.length ≤ t.maxProgCto.toNat := by
  constructor
  · exact Uploads.fits
  · intro fits
    have announced : (UInt8.ofNat data.length).toNat = data.length := by
      have limit := t.maxProgCto.toNat_lt
      rw [UInt8.toNat_ofNat']
      omega
    have writes : ∀ chunks : List (List UInt8), chunks.flatten = data →
        (∀ chunk ∈ chunks, chunk.length ≤ t.maxProgCto.toNat ∧
          (UInt8.ofNat chunk.length).toNat = chunk.length) →
        ((setMtaRequest t address :: chunks.map programRequest).foldl
          (Bootloader.receive t) {}).written = imageAt address data := by
      intro chunks carried allowed
      rw [List.foldl_cons, receive_setMta, receive_chunks fun c member => (allowed c member).2, carried]
      rfl
    rcases Nat.eq_zero_or_pos data.length with empty | some
    · obtain rfl := List.eq_nil_of_length_eq_zero empty
      exact ⟨1, [], rfl, rfl, by simp, writes [] rfl (by simp)⟩
    · have allowed : ∀ chunk ∈ [data], chunk.length ≤ t.maxProgCto.toNat ∧
          (UInt8.ofNat chunk.length).toNat = chunk.length := by
        intro chunk member
        obtain rfl := List.mem_singleton.mp member
        exact ⟨fits, announced⟩
      refine ⟨2, [data], ?_, by simp, allowed, writes [data] (by simp) allowed⟩
      change writeLoop t positive data 2 data.length 0 [setMtaRequest t address] = _
      rw [writeLoop_succ some, copyOfRange_all, Nat.min_eq_right fits, Nat.sub_self, writeLoop_zero]
      rfl

/-- Three bytes to a bootloader that takes two at a time. -/
theorem threeBytes_sent : (writeData ⟨false, 2⟩ positive 3 0x08000000 [1, 2, 3]).map
      (fun done => done.1.tail) = some [programRequest [1, 2, 3], programRequest [3]] ∧
    ¬ Uploads ⟨false, 2⟩ 0x08000000 [1, 2, 3] := by
  refine ⟨by decide, fun uploads => ?_⟩
  have fits := uploads.fits
  contradiction

end FomeFw.Console.Xcp
