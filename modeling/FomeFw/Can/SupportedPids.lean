import FomeFw.Can.Obd2

/-! The bitmaps of the supported PIDs: what the queries for them announce. -/
namespace FomeFw.Can

/-- The blocks of 32 PIDs there is a table for. -/
inductive PidBlock where
  | first | second | third
  deriving DecidableEq, Repr

/-- The PID of the query for the block, which is the one before its PIDs. -/
def PidBlock.base : PidBlock → Nat
  | .first => 0x00
  | .second => 0x20
  | .third => 0x40

/-- The offset `handleGetDataRequest` passes on. -/
def PidBlock.bitOffset : PidBlock → Nat
  | .first => 1
  | .second => 21
  | .third => 41

def PidTables.table (tables : PidTables) : PidBlock → List Int
  | .first => tables.supportedPids0120
  | .second => tables.supportedPids2140
  | .third => tables.supportedPids4160

/-- The table lists `pids`, and the entry behind them ends it. -/
def Lists (table pids : List Int) : Prop :=
  ∃ last ≤ 0, ∃ rest, table = pids ++ last :: rest

/-- Bit `k` of the value behind the header, counted from the most significant one. -/
def announced (data : List UInt8) (k : Nat) : Bool :=
  (data.getD (3 + k / 8) 0).toBitVec.getMsbD (k % 8)

/-- One response, whose bits are those of the PIDs of the block that are listed. -/
def Announces (block : PidBlock) (pids : List Int) (busIndex : CanBusIndex)
    (sent : List CanTxMessage) : Prop :=
  ∃ msg data, sent = [msg] ∧ msg.eid = obdTestResponse ∧ msg.busIndex = busIndex ∧
    msg.packet = some data ∧ data.take 3 = [6, 0x41, UInt8.ofNat block.base] ∧
    ∀ k : Nat, k < 32 → (announced data k = true ↔ (block.base + 1 + k : Int) ∈ pids)

/-- The bits of a value are announced in their order. -/
theorem announced_eq (a b c : UInt8) (value : BitVec 32) (padding : List UInt8) {k : Nat}
    (inside : k < 32) : announced (a :: b :: c :: bigEndian value 4 ++ padding) k = value.getMsbD k := by
  have byte : k / 8 < 4 := by omega
  have place : (a :: b :: c :: bigEndian value 4 ++ padding).getD (3 + k / 8) 0 =
      UInt8.ofBitVec ((value >>> (8 * (3 - k / 8))).setWidth 8) := by
    obtain first | second | third | fourth : k / 8 = 0 ∨ k / 8 = 1 ∨ k / 8 = 2 ∨ k / 8 = 3 := by omega
    · rw [first]; rfl
    · rw [second]; rfl
    · rw [third]; rfl
    · rw [fourth]; rfl
  have bit : 8 * (3 - k / 8) + (7 - k % 8) = 31 - k := by omega
  rw [announced, place]
  simp [BitVec.getMsbD, inside, Nat.mod_lt, bit]
  omega

theorem getMsbD_oneShifted {n : Int} {bit : BitVec 32} (shifted : oneShifted n = some bit) {k : Nat}
    (inside : k < 32) : bit.getMsbD k = decide (n = 31 - k) := by
  simp only [oneShifted, Option.ite_none_right_eq_some, Option.some.injEq] at shifted
  obtain ⟨range, rfl⟩ := shifted
  rw [Bool.eq_iff_iff]
  simp [BitVec.getMsbD, inside]
  omega

variable {block : PidBlock} {bitOffset : Int} {pids rest : List Int}

/-- The loop gathers a bit for each PID that it gets to. -/
theorem gatherPids_eq (positive : ∀ pid ∈ pids, 0 < pid) (ends : last ≤ 0) {rounds : Nat}
    {value value' : BitVec 32}
    (gathered : gatherPids bitOffset rounds (pids ++ last :: rest) value = some value')
    {k : Nat} (inside : k < 32) :
    value'.getMsbD k = (value.getMsbD k || decide (k + bitOffset ∈ pids.take rounds)) := by
  induction pids generalizing rounds value with
  | nil =>
    cases rounds with
    | zero =>
      obtain rfl := Option.some.inj gathered
      simp
    | succ rounds =>
      rw [List.nil_append, gatherPids, if_neg (by omega)] at gathered
      obtain rfl := Option.some.inj gathered
      simp
  | cons pid pids ih =>
    cases rounds with
    | zero =>
      obtain rfl := Option.some.inj gathered
      simp
    | succ rounds =>
      rw [List.cons_append, gatherPids, if_pos (positive pid (List.mem_cons_self ..))] at gathered
      obtain ⟨bit, shifted, gathered⟩ := Option.bind_eq_some_iff.mp gathered
      rw [ih (fun pid member => positive pid (List.mem_cons_of_mem _ member)) gathered]
      have here : (31 + bitOffset - pid = 31 - (k : Int)) ↔ k + bitOffset = pid := by omega
      simp [getMsbD_oneShifted shifted inside, here, Bool.or_assoc]

theorem oneShifted_isSome {n : Int} : (∃ bit, oneShifted n = some bit) ↔ 0 ≤ n ∧ n < 32 := by
  rw [oneShifted]
  split
  · next range => simp [range]
  · next outside => simp [outside]

/-- It only gets on where every shift has a meaning. -/
theorem gatherPids_isSome (positive : ∀ pid ∈ pids, 0 < pid) (ends : last ≤ 0) {rounds : Nat}
    {value : BitVec 32} :
    (∃ value', gatherPids bitOffset rounds (pids ++ last :: rest) value = some value') ↔
      ∀ pid ∈ pids.take rounds, bitOffset ≤ pid ∧ pid ≤ 31 + bitOffset := by
  induction pids generalizing rounds value with
  | nil =>
    cases rounds with
    | zero => simp [gatherPids]
    | succ rounds => simp [gatherPids, not_lt.mpr ends]
  | cons pid pids ih =>
    cases rounds with
    | zero => simp [gatherPids]
    | succ rounds =>
      rw [List.cons_append, gatherPids, if_pos (positive pid (List.mem_cons_self ..))]
      have later {value : BitVec 32} := @ih (fun pid member => positive pid (List.mem_cons_of_mem _ member))
        rounds value
      have here : (0 ≤ 31 + bitOffset - pid ∧ 31 + bitOffset - pid < 32) ↔
          bitOffset ≤ pid ∧ pid ≤ 31 + bitOffset := by omega
      rw [List.take_succ_cons, List.forall_mem_cons, ← here, ← oneShifted_isSome]
      constructor
      · rintro ⟨value', gathered⟩
        obtain ⟨bit, shifted, gathered⟩ := Option.bind_eq_some_iff.mp gathered
        exact ⟨⟨bit, shifted⟩, later.mp ⟨value', gathered⟩⟩
      · rintro ⟨⟨bit, shifted⟩, inside⟩
        obtain ⟨value', gathered⟩ := later.mpr inside
        exact ⟨value', Option.bind_eq_some_iff.mpr ⟨bit, shifted, gathered⟩⟩

theorem handleGetDataRequest_block {tables : PidTables} {r : ObdReadings} {rx : CanFrame}
    {busIndex : CanBusIndex} (asks : rx.data8 2 = UInt8.ofNat block.base) :
    handleGetDataRequest tables r 2 rx busIndex =
      obdWriteSupportedPids (UInt8.ofNat block.base) block.bitOffset (tables.table block) busIndex := by
  simp only [handleGetDataRequest, asks]
  cases block with
  | first => rfl
  | second => rfl
  | third => rfl

/-- The response announces each PID of the table's first part at the distance of the offset. -/
theorem announces_offset {tables : PidTables} {r : ObdReadings} {rx : CanFrame} {busIndex : CanBusIndex}
    (asks : rx.data8 2 = UInt8.ofNat block.base) (lists : Lists (tables.table block) pids)
    (positive : ∀ pid ∈ pids, 0 < pid) :
    (∃ sent, handleGetDataRequest tables r 2 rx busIndex = some sent ∧
        Announces block pids busIndex sent) ↔
      (∀ pid ∈ pids.take 32, (block.bitOffset : Int) ≤ pid ∧ pid ≤ 31 + block.bitOffset) ∧
        ∀ k : Nat, k < 32 →
          ((k + block.bitOffset : Int) ∈ pids.take 32 ↔ (block.base + 1 + k : Int) ∈ pids) := by
  obtain ⟨last, ends, rest, table⟩ := lists
  rw [handleGetDataRequest_block asks, obdWriteSupportedPids, table,
    ← @gatherPids_isSome _ _ rest _ positive ends 32 0]
  constructor
  · rintro ⟨sent, replied, msg, data, rfl, -, -, packet, -, bits⟩
    obtain ⟨value, gathered, sending⟩ := Option.bind_eq_some_iff.mp replied
    obtain ⟨msg', sent, response⟩ := @obdSendPacket_eq 1 (UInt8.ofNat block.base) 4 value busIndex (by decide)
    obtain ⟨padding, wire, -⟩ := response.packet (by simp)
    obtain rfl := List.singleton_inj.mp (Option.some.inj (sending.symm.trans sent))
    obtain rfl := Option.some.inj (packet.symm.trans wire)
    refine ⟨⟨value, gathered⟩, ?_⟩
    intro k inside
    rw [← bits k inside, announced_eq _ _ _ _ _ inside, gatherPids_eq positive ends gathered inside]
    simp
  · rintro ⟨⟨value, gathered⟩, bits⟩
    obtain ⟨msg, sent, response⟩ := @obdSendPacket_eq 1 (UInt8.ofNat block.base) 4 value busIndex (by decide)
    obtain ⟨padding, wire, -⟩ := response.packet (by simp)
    refine ⟨[msg], ?_, msg, _, rfl, response.eid, response.bus, wire, rfl, ?_⟩
    · rw [gathered]
      exact sent
    · intro k inside
      rw [← bits k inside, announced_eq _ _ _ _ _ inside, gatherPids_eq positive ends gathered inside]
      simp

/-- Positive numbers of which each has another one below it, by a fixed lag, are none. -/
theorem eq_nil_of_lag {lag : Int} (forth : 0 < lag) (positive : ∀ pid ∈ pids, 0 < pid)
    (back : ∀ pid ∈ pids, pid - lag ∈ pids) : pids = [] := by
  have none : ∀ bound : Nat, ∀ pid ∈ pids, ¬ pid < bound := by
    intro bound
    induction bound with
    | zero =>
      intro pid member below
      have above := positive pid member
      omega
    | succ bound ih =>
      intro pid member below
      apply ih (pid - lag) (back pid member)
      omega
  apply List.eq_nil_iff_forall_not_mem.mpr
  intro pid member
  exact none (pid.toNat + 1) pid member (by omega)

/-- The bitmap of a block announces the table just for the first block, where the loop gets to
each of the PIDs, and for an empty table: the offsets of the later blocks are written in
decimal. -/
theorem announces_iff {tables : PidTables} {r : ObdReadings} {rx : CanFrame} {busIndex : CanBusIndex}
    (asks : rx.data8 2 = UInt8.ofNat block.base) (lists : Lists (tables.table block) pids)
    (belong : ∀ pid ∈ pids, (block.base : Int) < pid ∧ pid ≤ block.base + 32) :
    (∃ sent, handleGetDataRequest tables r 2 rx busIndex = some sent ∧
        Announces block pids busIndex sent) ↔
      (block = .first ∧ ∀ pid ∈ pids, pid ∈ pids.take 32) ∨ pids = [] := by
  rw [announces_offset asks lists fun pid member => by have := belong pid member; omega]
  constructor
  · rintro ⟨-, bits⟩
    -- what is announced stands before what it announces, by as much as the offset is too small
    have announcing : ∀ pid ∈ pids, pid - (block.base + 1) + block.bitOffset ∈ pids.take 32 := by
      intro pid member
      have place := belong pid member
      have here : ((pid - (block.base + 1)).toNat : Int) = pid - (block.base + 1) := by omega
      have bit := bits (pid - (block.base + 1)).toNat (by omega)
      rw [here, add_sub_cancel] at bit
      exact bit.mpr member
    have below : ∀ lag : Int, 0 < lag → (block.base : Int) + 1 - block.bitOffset = lag → pids = [] := by
      intro lag forth same
      apply eq_nil_of_lag forth fun pid member => by have := belong pid member; omega
      intro pid member
      have moved := List.mem_of_mem_take (announcing pid member)
      rwa [show pid - ((block.base : Int) + 1) + block.bitOffset = pid - lag by omega] at moved
    cases block with
    | first =>
      refine .inl ⟨rfl, ?_⟩
      intro pid member
      have moved := announcing pid member
      simpa [PidBlock.base, PidBlock.bitOffset] using moved
    | second => exact .inr (below 12 (by decide) (by decide))
    | third => exact .inr (below 24 (by decide) (by decide))
  · rintro (⟨rfl, all⟩ | rfl)
    · constructor
      · intro pid member
        have place := belong pid (List.mem_of_mem_take member)
        simp only [PidBlock.base, PidBlock.bitOffset] at place ⊢
        omega
      · intro k inside
        rw [show ((k : Int) + (PidBlock.first.bitOffset : Nat)) = PidBlock.first.base + 1 + k by
          simp [PidBlock.base, PidBlock.bitOffset]; omega]
        exact ⟨List.mem_of_mem_take, all _⟩
    · simp

/-- A query for a PID. -/
def pidQuery (pid : UInt8) : CanFrame where
  DLC := 8
  data8 := fun i => [2, obdCurrentData, pid].getD i 0

theorem announces_iff_first :
    (∃ sent, handleGetDataRequest { supportedPids0120 := [0x05, 0x0C, -1] } {} 2 (pidQuery 0x00) .bus0 =
        some sent ∧ Announces .first [0x05, 0x0C] .bus0 sent) ↔
      (PidBlock.first = .first ∧ ∀ pid ∈ ([0x05, 0x0C] : List Int), pid ∈ ([0x05, 0x0C] : List Int).take 32) ∨
        ([0x05, 0x0C] : List Int) = [] :=
  @announces_iff .first _ { supportedPids0120 := [0x05, 0x0C, -1] } {} (pidQuery 0x00) .bus0 rfl
    ⟨-1, by decide, [], rfl⟩ (by decide)

/-- The table of the second block has the PID 0x24, and what is announced is 0x30. -/
theorem lambda_notAnnounced :
    ¬ ∃ sent, handleGetDataRequest {} {} 2 (pidQuery 0x20) .bus0 = some sent ∧
      Announces .second [0x24] .bus0 sent := by
  rintro ⟨sent, replied, msg, data, rfl, -, -, packet, -, bits⟩
  have wire : (handleGetDataRequest {} {} 2 (pidQuery 0x20) .bus0).map (List.map CanTxMessage.packet) =
      some [some [6, 0x41, 0x20, 0, 1, 0, 0, 0]] := by decide +kernel
  rw [replied, Option.map_some, List.map_singleton, packet] at wire
  obtain rfl : data = [6, 0x41, 0x20, 0, 1, 0, 0, 0] := by simpa using wire
  exact absurd (bits 3 (by decide)) (by decide)

end FomeFw.Can
