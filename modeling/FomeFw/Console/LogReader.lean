import FomeFw.Console.BinaryLogging
import Mathlib.Data.Rat.Floor

/-! A reader of the logs, which knows of the fields only what the header says: the widths of their
types, in order. It gets the values back as long as the header's own length fits its field. -/
namespace FomeFw.Console

open Timer (Port)

/-! ## The format -/

def bigEndian (bytes : List UInt8) : Nat := bytes.foldl (fun value byte => value * 256 + byte.toNat) 0

def littleEndian (bytes : List UInt8) : Nat := bytes.foldr (fun byte value => value * 256 + byte.toNat) 0

theorem bigEndian_reverse (bytes : List UInt8) : bigEndian bytes.reverse = littleEndian bytes :=
  List.foldl_reverse

/-- The number that a header has at an offset. -/
def numberAt (log : List UInt8) (offset width : Nat) : Nat :=
  bigEndian ((log.drop offset).take width)

def dataBegin (log : List UInt8) : Nat := numberAt log 16 4

def recordLength (log : List UInt8) : Nat := numberAt log 20 2

def fieldsCount (log : List UInt8) : Nat := numberAt log 22 2

def LogType.ofCode (code : UInt8) : Option LogType :=
  [LogType.u08, .s08, .u16, .s16, .u32, .s32, .s64, .f32][code.toNat]?

/-- The bytes of a value in the file. -/
def LogType.width : LogType → Nat
  | .u08 | .s08 => 1
  | .u16 | .s16 => 2
  | .u32 | .s32 | .f32 => 4
  | .s64 => 8

/-- The types of the fields, from their descriptors. -/
def fieldTypes (log : List UInt8) : Option (List LogType) :=
  (List.range (fieldsCount log)).mapM fun i => do
    LogType.ofCode (← log[mlqHeaderSize + mlqFieldHeaderSize * i]?)

/-- The values in the data of a record. -/
def readValues : List LogType → List UInt8 → List Nat
  | [], _ => []
  | type :: types, data => bigEndian (data.take type.width) :: readValues types (data.drop type.width)

/-- The sum of the data, as the last byte of a block has it. -/
def checksum (data : List UInt8) : Nat := (data.map UInt8.toNat).sum % 256

/-- The records up to the end of the log, with the number of blocks there may be. A block that is
too short, of another kind or with another sum is an error. -/
def readBlocks (types : List LogType) (length : Nat) : Nat → List UInt8 → Option (List (List Nat))
  | _, [] => some []
  | 0, _ => none
  | blocks + 1, log => do
    let data := (log.drop 4).take length
    guard (log.head? = some 0)
    let sum ← log[4 + length]?
    guard (sum.toNat = checksum data)
    return readValues types data :: (← readBlocks types length blocks (log.drop (4 + length + 1)))

def readLog (log : List UInt8) : Option (List (List Nat)) := do
  readBlocks (← fieldTypes log) (recordLength log) log.length (log.drop (dataBegin log))

/-! ## What a log says of itself -/

/-- What was written: the header and the blocks. -/
structure Log where
  header : List UInt8
  blocks : List (List UInt8)

def Log.bytes (log : Log) : List UInt8 := log.header ++ log.blocks.flatten

/-- The value of a field, with the byte at its address last. -/
def LogField.raw (memory : Memory) (field : LogField) : Nat :=
  littleEndian ((List.range field.getSize).map fun i => memory (field.addr + i))

/-- The header's own length and that of a block are as the header says, every block has its sum,
and the reader gets these values. -/
structure Log.SelfDescribing (log : Log) (fields : List LogField) (values : List (List Nat)) :
    Prop where
  begins : dataBegin log.bytes = log.header.length
  length : recordLength log.bytes = (fields.map LogField.getSize).sum
  block : ∀ block ∈ log.blocks, block.length = 4 + recordLength log.bytes + 1 ∧
    block.getLast?.map UInt8.toNat =
      some (checksum ((block.drop 4).take (recordLength log.bytes)))
  recovered : readLog log.bytes = some values

/-- The texts are within the widths of a descriptor. -/
def LogField.WithinWidths (field : LogField) : Prop :=
  field.name.length ≤ 34 ∧ field.units.length ≤ 10 ∧
    ∀ category ∈ field.category, category.length ≤ 34

section Written

variable (port : Port) (packedTime : Nat) (fields : List LogField)

def writeLog (blockRollCounter : UInt8) (moments : List Moment) : Option Log := do
  let header ← writeFileHeader fields
  return ⟨header, writeSdBlocks port packedTime fields blockRollCounter moments⟩

/-- The values of the fields when a record is written. -/
def Moment.values (m : Moment) : List Nat := fields.map (LogField.raw (m.packed port packedTime))

end Written

variable {port : Port} {packedTime : Nat} {field : LogField} {fields : List LogField}
  {memory : Memory}

/-! ## The header -/

theorem length_memcpySwapend (src : Nat → UInt8) (num : Nat) :
    (memcpySwapend src num).length = num := by
  rw [memcpySwapend, List.length_map, List.length_range]

theorem length_strncpy (text : List UInt8) (n : Nat) : (strncpy text n).length = n := by
  rw [strncpy, List.length_append, List.length_take, List.length_replicate]
  omega

theorem LogField.writeCategory_eq (within : field.WithinWidths) :
    ∃ category, field.writeCategory = some category ∧ category.length = 34 := by
  obtain ⟨-, -, short⟩ := within
  rw [writeCategory]
  cases given : field.category with
  | none => exact ⟨_, rfl, List.length_replicate⟩
  | some category =>
    have fits := short category given
    refine ⟨_, if_pos fits, ?_⟩
    rw [List.length_append, List.length_replicate]
    omega

/-- A descriptor has its length, and starts with the type. -/
theorem LogField.writeHeader_eq (within : field.WithinWidths) :
    ∃ rest, field.writeHeader = some (field.type.code :: rest) ∧
      rest.length + 1 = mlqFieldHeaderSize := by
  obtain ⟨category, written, length⟩ := writeCategory_eq within
  refine ⟨_, by rw [writeHeader, written]; rfl, ?_⟩
  simp only [List.length_append, length_strncpy, copyFloat, length_memcpySwapend, length,
    List.length_singleton]

/-- The descriptors stand one behind the other. -/
theorem writeHeaders_eq (within : ∀ field ∈ fields, field.WithinWidths) :
    ∃ headers, fields.mapM LogField.writeHeader = some headers ∧
      headers.flatten.length = mlqFieldHeaderSize * fields.length ∧
      ∀ i (bound : i < fields.length),
        headers.flatten[mlqFieldHeaderSize * i]? = some fields[i].type.code := by
  induction fields with
  | nil => exact ⟨[], rfl, rfl, fun i bound => absurd bound (Nat.not_lt_zero i)⟩
  | cons field fields ih =>
    obtain ⟨first, others⟩ := List.forall_mem_cons.mp within
    obtain ⟨headers, written, length, types⟩ := ih others
    obtain ⟨rest, header, size⟩ := LogField.writeHeader_eq first
    refine ⟨(field.type.code :: rest) :: headers, ?_, ?_, ?_⟩
    · rw [List.mapM_cons, header, written]
      rfl
    · rw [List.flatten_cons, List.length_append, List.length_cons, size, length, List.length_cons,
        Nat.mul_succ, Nat.add_comm]
    · intro i bound
      cases i with
      | zero => rfl
      | succ i =>
        have later : mlqFieldHeaderSize * (i + 1) =
            (field.type.code :: rest).length + mlqFieldHeaderSize * i := by
          rw [List.length_cons, size, Nat.mul_succ, Nat.add_comm]
        rw [List.flatten_cons, later, List.getElem?_append_right (Nat.le_add_right _ _),
          Nat.add_sub_cancel_left, List.getElem_cons_succ]
        exact types i (Nat.lt_of_succ_lt_succ bound)

theorem computeFieldsRecordLength_eq (fields : List LogField) :
    computeFieldsRecordLength fields = (fields.map LogField.getSize).sum % 2 ^ 16 := by
  have counts : ∀ (fields : List LogField) (start : Nat),
      fields.foldl (fun recLength field => (recLength + field.getSize) % 2 ^ 16) (start % 2 ^ 16) =
        (start + (fields.map LogField.getSize).sum) % 2 ^ 16 := by
    intro fields
    induction fields with
    | nil => exact fun start => rfl
    | cons field fields ih =>
      intro start
      rw [List.foldl_cons, Nat.mod_add_mod, ih, List.map_cons, List.sum_cons, Nat.add_assoc]
  have whole := counts fields 0
  rwa [Nat.zero_add] at whole

theorem bigEndian_ofNat (n : Nat) : bigEndian [UInt8.ofNat (n >>> 8), UInt8.ofNat n] = n % 2 ^ 16 := by
  simp only [bigEndian, List.foldl_cons, List.foldl_nil, UInt8.toNat_ofNat', Nat.shiftRight_eq_div_pow]
  omega

theorem bigEndian_zero (bytes : List UInt8) : bigEndian (0 :: bytes) = bigEndian bytes := rfl

/-- What the header says of its length, the records and the fields. -/
structure Announces (header : List UInt8) (fields : List LogField) : Prop where
  length : header.length = mlqHeaderSize + mlqFieldHeaderSize * fields.length
  dataBegin (rest : List UInt8) : dataBegin (header ++ rest) =
    (mlqHeaderSize + mlqFieldHeaderSize * fields.length) % 2 ^ 16
  recordLength (rest : List UInt8) : recordLength (header ++ rest) =
    (fields.map LogField.getSize).sum % 2 ^ 16
  fieldsCount (rest : List UInt8) : fieldsCount (header ++ rest) = fields.length % 2 ^ 16
  types : ∀ i (bound : i < fields.length),
    header[mlqHeaderSize + mlqFieldHeaderSize * i]? = some fields[i].type.code

theorem writeFileHeader_announces (within : ∀ field ∈ fields, field.WithinWidths) :
    ∃ header, writeFileHeader fields = some header ∧ Announces header fields := by
  obtain ⟨headers, written, length, types⟩ := writeHeaders_eq within
  refine ⟨_, by rw [writeFileHeader, written]; rfl, ?_⟩
  exact {
    length := by
      rw [List.length_append, length]
      rfl
    dataBegin := fun rest => by
      rw [Nat.mul_comm, ← bigEndian_ofNat, ← bigEndian_zero, ← bigEndian_zero]
      rfl
    recordLength := fun rest => by
      have digits := bigEndian_ofNat (computeFieldsRecordLength fields)
      rw [computeFieldsRecordLength_eq, Nat.mod_mod] at digits
      rw [← digits, ← computeFieldsRecordLength_eq]
      rfl
    fieldsCount := fun rest => by
      rw [← bigEndian_ofNat]
      rfl
    types := fun i bound => by
      rw [Nat.add_comm mlqHeaderSize (mlqFieldHeaderSize * i), ← types i bound]
      rfl }

/-! ## The blocks -/

theorem memcpySwapend_eq (src : Nat → UInt8) (num : Nat) :
    memcpySwapend src num = ((List.range num).map src).reverse := by
  apply List.ext_getElem
  · rw [length_memcpySwapend, List.length_reverse, List.length_map, List.length_range]
  · intro i first second
    simp [memcpySwapend]

/-- The width of a field's type is the field's size: no field is made of 64 bits. -/
theorem LogField.width_eq (field : LogField) : field.type.width = field.getSize := by
  rw [getSize, type]
  cases field.value <;> rfl

theorem LogField.length_writeData (memory : Memory) (field : LogField) :
    (field.writeData memory).length = field.getSize :=
  length_memcpySwapend _ _

theorem LogField.bigEndian_writeData (memory : Memory) (field : LogField) :
    bigEndian (field.writeData memory) = field.raw memory := by
  rw [writeData, memcpySwapend_eq, bigEndian_reverse, raw]

/-- The data of the fields, one behind the other. -/
def entries (memory : Memory) (fields : List LogField) : List UInt8 :=
  fields.flatMap (LogField.writeData memory)

theorem length_entries (memory : Memory) (fields : List LogField) :
    (entries memory fields).length = (fields.map LogField.getSize).sum := by
  rw [entries, List.length_flatMap]
  congr 1
  exact List.map_congr_left fun field _ => field.length_writeData memory

theorem writeEntries_eq (fields : List LogField) (out : List UInt8) (sum : UInt8) :
    writeEntries memory fields (out, sum) =
      (out ++ entries memory fields, (entries memory fields).foldl (· + ·) sum) := by
  induction fields generalizing out sum with
  | nil => simp [writeEntries, entries]
  | cons field fields ih =>
    rw [writeEntries, ih, entries, entries, List.flatMap_cons, List.append_assoc, List.foldl_append]

theorem toNat_sum (data : List UInt8) : (data.foldl (· + ·) 0).toNat = checksum data := by
  have counts : ∀ (data : List UInt8) (start : UInt8),
      (data.foldl (· + ·) start).toNat = (start.toNat + (data.map UInt8.toNat).sum) % 256 := by
    intro data
    induction data with
    | nil => exact fun start => (Nat.mod_eq_of_lt start.toNat_lt).symm
    | cons byte data ih =>
      intro start
      rw [List.foldl_cons, ih, UInt8.toNat_add, List.map_cons, List.sum_cons, Nat.mod_add_mod,
        Nat.add_assoc]
  rw [counts, checksum]
  simp

/-- A block of this data. -/
structure Block (data block : List UInt8) : Prop where
  length : block.length = 4 + data.length + 1
  kind : block.head? = some 0
  holds : (block.drop 4).take data.length = data
  sum : ∃ sum : UInt8, block[4 + data.length]? = some sum ∧ sum.toNat = checksum data

theorem block_of {data : List UInt8} {a b c sum : UInt8} (counts : sum.toNat = checksum data) :
    Block data (0 :: a :: b :: c :: (data ++ [sum])) where
  length := by
    simp only [List.length_cons, List.length_append, List.length_nil]
    omega
  kind := rfl
  holds := List.take_left
  sum := by
    refine ⟨sum, ?_, counts⟩
    rw [Nat.add_comm]
    exact List.getElem?_concat_length

theorem writeSdBlock_block (blockRollCounter : UInt8) (m : Moment) :
    Block (entries (m.packed port packedTime) fields)
      (writeSdBlock port packedTime fields blockRollCounter m) := by
  rw [writeSdBlock, writeEntries_eq]
  exact block_of (toNat_sum _)

theorem Block.getLast {data block : List UInt8} (written : Block data block) :
    block.getLast?.map UInt8.toNat = some (checksum data) := by
  obtain ⟨sum, last, counts⟩ := written.sum
  rw [List.getLast?_eq_getElem?, written.length, Nat.add_sub_cancel, last, Option.map_some, counts]

/-- The reader takes one block from the front of the log. -/
theorem readBlocks_cons {types : List LogType} {data block : List UInt8} (written : Block data block)
    (blocks : Nat) (rest : List UInt8) :
    readBlocks types data.length (blocks + 1) (block ++ rest) =
      (readBlocks types data.length blocks rest).map (readValues types data :: ·) := by
  obtain ⟨sum, last, counts⟩ := written.sum
  have length := written.length
  have kind : (block ++ rest).head? = some 0 := by
    rw [List.head?_append, written.kind, Option.some_or]
  have data_eq : ((block ++ rest).drop 4).take data.length = data := by
    rw [List.drop_append_of_le_length (by omega), List.take_append_of_le_length, written.holds]
    rw [List.length_drop]
    omega
  have sum_eq : (block ++ rest)[4 + data.length]? = some sum := by
    rw [List.getElem?_append_left (by omega), last]
  have next : (block ++ rest).drop (4 + data.length + 1) = rest := List.drop_left' length
  rw [readBlocks]
  · simp only [kind, data_eq, sum_eq, next]
    cases readBlocks types data.length blocks rest with
    | none => simp
    | some values => simp [counts]
  · intro none
    simp [none] at kind

theorem readValues_eq (memory : Memory) (fields : List LogField) :
    readValues (fields.map LogField.type) (entries memory fields) =
      fields.map (LogField.raw memory) := by
  induction fields with
  | nil => rfl
  | cons field fields ih =>
    have width : field.type.width = (field.writeData memory).length := by
      rw [field.width_eq, field.length_writeData]
    rw [entries] at ih
    rw [List.map_cons, readValues, entries, List.flatMap_cons, width, List.take_left', List.drop_left',
      ih, field.bigEndian_writeData, List.map_cons]
    · rfl
    · rfl

variable (port packedTime fields) in
/-- The reader gets the values of every record. -/
theorem readBlocks_eq (moments : List Moment) (blockRollCounter : UInt8) {blocks : Nat}
    (enough : moments.length ≤ blocks) :
    readBlocks (fields.map LogField.type) (fields.map LogField.getSize).sum blocks
        (writeSdBlocks port packedTime fields blockRollCounter moments).flatten =
      some (moments.map (Moment.values port packedTime fields)) := by
  induction moments generalizing blockRollCounter blocks with
  | nil =>
    cases blocks with
    | zero => rfl
    | succ blocks => rfl
  | cons m moments ih =>
    cases blocks with
    | zero => simp at enough
    | succ blocks =>
      have written := @writeSdBlock_block port packedTime fields blockRollCounter m
      have rest := ih (blockRollCounter + 1) (Nat.le_of_succ_le_succ enough)
      rw [← length_entries (m.packed port packedTime) fields] at rest ⊢
      rw [writeSdBlocks, List.flatten_cons, readBlocks_cons written, rest, readValues_eq]
      rfl

theorem length_writeSdBlocks (moments : List Moment) (blockRollCounter : UInt8) :
    moments.length ≤
      (writeSdBlocks port packedTime fields blockRollCounter moments).flatten.length := by
  induction moments generalizing blockRollCounter with
  | nil => exact Nat.le_refl _
  | cons m moments ih =>
    have written := @writeSdBlock_block port packedTime fields blockRollCounter m
    have rest := ih (blockRollCounter + 1)
    rw [writeSdBlocks, List.flatten_cons, List.length_append, written.length, List.length_cons]
    omega

theorem block_of_mem {moments : List Moment} {blockRollCounter : UInt8} {block : List UInt8}
    (member : block ∈ writeSdBlocks port packedTime fields blockRollCounter moments) :
    ∃ memory, Block (entries memory fields) block := by
  induction moments generalizing blockRollCounter with
  | nil => simp [writeSdBlocks] at member
  | cons m moments ih =>
    rcases List.mem_cons.mp member with rfl | later
    · exact ⟨_, writeSdBlock_block blockRollCounter m⟩
    · exact ih later

theorem ofCode_code (type : LogType) : LogType.ofCode type.code = some type := by
  cases type <;> rfl

theorem mapM_range {α : Type} {read : Nat → Option α} {items : List α}
    (reads : ∀ i (bound : i < items.length), read i = some items[i]) :
    (List.range items.length).mapM read = some items := by
  induction items generalizing read with
  | nil => rfl
  | cons item items ih =>
    have first := reads 0 (Nat.succ_pos _)
    have rest := @ih (fun i => read (i + 1)) fun i bound => reads (i + 1) (Nat.succ_lt_succ bound)
    rw [List.length_cons, List.range_succ_eq_map, List.mapM_cons, List.mapM_map, first]
    change (List.range items.length).mapM (read ∘ Nat.succ) = some items at rest
    rw [rest]
    rfl

theorem fieldTypes_eq {header : List UInt8} (announces : Announces header fields)
    (few : fields.length < 2 ^ 16) (rest : List UInt8) :
    fieldTypes (header ++ rest) = some (fields.map LogField.type) := by
  have count : (fields.map LogField.type).length = fields.length := List.length_map _
  rw [fieldTypes, announces.fieldsCount, Nat.mod_eq_of_lt few, ← count]
  apply mapM_range
  intro i bound
  rw [count] at bound
  have inside : mlqHeaderSize + mlqFieldHeaderSize * i < header.length := by
    rw [announces.length]
    change 24 + 89 * i < 24 + 89 * fields.length
    omega
  rw [List.getElem?_append_left inside, announces.types i bound, List.getElem_map]
  exact ofCode_code _

theorem getSize_le (field : LogField) : field.getSize ≤ 4 := by
  rw [LogField.getSize, LogField.type]
  cases field.value <;> decide

/-- Where the header's length fits, a record's length does. -/
theorem sum_getSize_le (fields : List LogField) :
    (fields.map LogField.getSize).sum ≤ 4 * fields.length := by
  induction fields with
  | nil => exact Nat.le_refl _
  | cons field fields ih =>
    have first := getSize_le field
    rw [List.map_cons, List.sum_cons, List.length_cons]
    omega

theorem selfDescribing_of_announces {header : List UInt8} (announces : Announces header fields)
    (few : fields.length ≤ 736) (blockRollCounter : UInt8) (moments : List Moment) :
    Log.SelfDescribing ⟨header, writeSdBlocks port packedTime fields blockRollCounter moments⟩ fields
      (moments.map (Moment.values port packedTime fields)) := by
  have fits : mlqHeaderSize + mlqFieldHeaderSize * fields.length < 2 ^ 16 := by
    change 24 + 89 * fields.length < 2 ^ 16
    omega
  have sizes := sum_getSize_le fields
  have length : recordLength (header ++
      (writeSdBlocks port packedTime fields blockRollCounter moments).flatten) =
        (fields.map LogField.getSize).sum := by
    rw [announces.recordLength, Nat.mod_eq_of_lt (by omega)]
  have begins : dataBegin (header ++
      (writeSdBlocks port packedTime fields blockRollCounter moments).flatten) = header.length := by
    rw [announces.dataBegin, Nat.mod_eq_of_lt fits, announces.length]
  constructor
  · exact begins
  · exact length
  · intro block member
    obtain ⟨memory, block'⟩ := block_of_mem member
    rw [Log.bytes, length, ← length_entries memory fields, block'.holds]
    exact ⟨block'.length, block'.getLast⟩
  · rw [Log.bytes, readLog, fieldTypes_eq announces (by omega), length, begins, List.drop_left]
    apply readBlocks_eq
    rw [List.length_append]
    exact Nat.le_trans (length_writeSdBlocks moments blockRollCounter) (Nat.le_add_left _ _)

/-- The values written are read again with at most 736 fields. Behind more the data begins at `2 ^ 16`
or later, and the header has no more than the two last bytes of that. -/
theorem selfDescribing_iff (within : ∀ field ∈ fields, field.WithinWidths) (blockRollCounter : UInt8)
    (moments : List Moment) :
    ∃ log, writeLog port packedTime fields blockRollCounter moments = some log ∧
      (log.SelfDescribing fields (moments.map (Moment.values port packedTime fields)) ↔
        fields.length ≤ 736) := by
  obtain ⟨header, written, announces⟩ := writeFileHeader_announces within
  refine ⟨⟨header, _⟩, by rw [writeLog, written]; rfl, ?_⟩
  constructor
  · intro describes
    have begins := describes.begins
    rw [Log.bytes, announces.dataBegin, announces.length] at begins
    have low : 24 + 89 * fields.length < 2 ^ 16 := by
      rw [← begins]
      exact Nat.mod_lt _ (by decide)
    omega
  · intro few
    exact selfDescribing_of_announces announces few blockRollCounter moments

/-- A field named `n` of two bytes. -/
def wordField : LogField := ⟨.uint16, 0x3F800000, 0, 0, [0x6E], [], none⟩

theorem wordField_within (n : Nat) : ∀ field ∈ List.replicate n wordField, field.WithinWidths := by
  intro field member
  rw [List.eq_of_mem_replicate member]
  exact ⟨by decide, by decide, fun category given => by contradiction⟩

theorem selfDescribing_iff_two : ∃ log, writeLog ⟨4, by decide⟩ 8 (List.replicate 2 wordField) 0
      [⟨fun _ => 7, 1000⟩] = some log ∧
    (log.SelfDescribing (List.replicate 2 wordField)
      ([⟨fun _ => 7, 1000⟩].map (Moment.values ⟨4, by decide⟩ 8 (List.replicate 2 wordField))) ↔
        (List.replicate 2 wordField).length ≤ 736) :=
  selfDescribing_iff (wordField_within 2) 0 [⟨fun _ => 7, 1000⟩]

/-- With 737 fields the data begins elsewhere than the header says. -/
theorem begins_elsewhere :
    ∃ log, writeLog ⟨4, by decide⟩ 8 (List.replicate 737 wordField) 0 [] = some log ∧
      dataBegin log.bytes = 81 ∧ log.header.length = 65617 ∧
        ¬ log.SelfDescribing (List.replicate 737 wordField) [] := by
  obtain ⟨header, written, announces⟩ := writeFileHeader_announces (wordField_within 737)
  have begins : dataBegin (Log.bytes ⟨header, []⟩) = 81 := by
    rw [Log.bytes, announces.dataBegin, List.length_replicate]
    rfl
  have length : header.length = 65617 := by
    rw [announces.length, List.length_replicate]
    rfl
  refine ⟨⟨header, []⟩, by rw [writeLog, written]; rfl, begins, length, ?_⟩
  intro describes
  have same := describes.begins
  rw [begins, length] at same
  exact absurd same (by decide)

/-! ## Lines -/

/-- The records that are written, once the main loop has started. -/
def started (lines : List (Bool × Moment)) : List Moment := (lines.filter (·.1)).map (·.2)

theorem writeSdLogLines_cons {s s' : LogCounters} {mainLoopStarted : Bool} {m : Moment}
    {line : List UInt8} {lines : List (Bool × Moment)}
    (written : writeSdLogLine port packedTime fields mainLoopStarted s m = some (s', line)) :
    writeSdLogLines port packedTime fields s ((mainLoopStarted, m) :: lines) =
      (writeSdLogLines port packedTime fields s' lines).map (line ++ ·) := by
  rw [writeSdLogLines, written]
  cases found : writeSdLogLines port packedTime fields s' lines <;> simp [found]

/-- Behind the header, until the counter of lines starts anew. -/
theorem writeSdLogLines_blocks {s : LogCounters} {lines : List (Bool × Moment)}
    (positive : 0 < s.binaryLogCount.toNat)
    (few : s.binaryLogCount.toNat + (started lines).length < 2 ^ 64) :
    writeSdLogLines port packedTime fields s lines =
      some (writeSdBlocks port packedTime fields s.blockRollCounter (started lines)).flatten := by
  induction lines generalizing s with
  | nil => rfl
  | cons line lines ih =>
    obtain ⟨mainLoopStarted, m⟩ := line
    cases mainLoopStarted with
    | false =>
      rw [writeSdLogLines_cons (if_neg Bool.false_ne_true), ih positive few]
      rfl
    | true =>
      have more : (started ((true, m) :: lines)).length = (started lines).length + 1 := rfl
      have some : s.binaryLogCount ≠ 0 := by
        rintro none
        rw [none] at positive
        contradiction
      rw [more] at few
      have counts : (s.binaryLogCount + 1).toNat = s.binaryLogCount.toNat + 1 := by
        rw [UInt64.toNat_add, Nat.mod_eq_of_lt]
        · rfl
        · change s.binaryLogCount.toNat + 1 < 2 ^ 64
          omega
      have rest := @ih ⟨s.binaryLogCount + 1, s.blockRollCounter + 1⟩ (by rw [counts]; omega)
        (by rw [counts]; omega)
      rw [writeSdLogLines_cons ((if_pos rfl).trans (if_neg some)), rest]
      rfl

/-- What a log is made of, line by line. -/
theorem writeSdLogLines_eq {first : Moment} {moments : List Moment} {lines : List (Bool × Moment)}
    (records : started lines = first :: moments) (few : 1 + moments.length < 2 ^ 64) :
    writeSdLogLines port packedTime fields {} lines =
      (writeLog port packedTime fields 0 moments).map Log.bytes := by
  induction lines with
  | nil => contradiction
  | cons line lines ih =>
    obtain ⟨mainLoopStarted, m⟩ := line
    cases mainLoopStarted with
    | false =>
      rw [writeSdLogLines_cons (if_neg Bool.false_ne_true), ih records]
      cases writeLog port packedTime fields 0 moments <;> rfl
    | true =>
      have later : started lines = moments := (List.cons.inj records).2
      have blocks := @writeSdLogLines_blocks port packedTime fields ⟨1, 0⟩ lines (by decide)
        (by rw [later]; exact few)
      rw [later] at blocks
      rw [writeLog]
      cases written : writeFileHeader fields with
      | none => simp [writeSdLogLines, writeSdLogLine, written]
      | some header =>
        have line : writeSdLogLine port packedTime fields true {} m = some (⟨1, 0⟩, header) := by
          simp [writeSdLogLine, written]
        rw [writeSdLogLines_cons line, blocks]
        rfl

end FomeFw.Console
