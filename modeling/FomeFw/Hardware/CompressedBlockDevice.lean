import Mathlib.Data.List.Basic
import Mathlib.Logic.Function.Iterate
import Mathlib.Tactic.Common
import Mathlib.Data.Rat.Floor

/-! The disk behind the mass storage of the USB port, `compressed_block_device.cpp`. Its image
is stored compressed, and the decompressor can only go forwards. -/
namespace FomeFw.Hardware

/-- `BLOCK_SIZE`. -/
abbrev blockSize : Nat := 512

/-- The library `uzlib`, which is not part of the firmware's sources. -/
structure Uzlib where
  /-- `uzlib_uncomp`, with the dictionary it is given. -/
  Uncomp : Type
  uncompressInit : Uncomp → Uncomp
  /-- The fields `source`, `source_limit` and `source_read_cb`. -/
  setSource : Uncomp → List UInt8 → Uncomp
  gzipParseHeader : Uncomp → Uncomp
  /-- What is written from `dest` on, with that much room up to `dest_limit`. -/
  uncompress : Uncomp → Nat → List UInt8 × Uncomp

namespace Uzlib

variable (api : Uzlib)

/-- The decompressor at the start of the stream. -/
def start (d : api.Uncomp) (source : List UInt8) : api.Uncomp :=
  api.gzipParseHeader (api.setSource (api.uncompressInit d) source)

/-- One block further on. -/
def advance (d : api.Uncomp) : api.Uncomp := (api.uncompress d blockSize).2

end Uzlib

/-- The last 4 bytes of the gzip stream encode the total size in bytes. -/
def gzSize (image : List UInt8) : Option Nat :=
  match image.reverse with
  | b₃ :: b₂ :: b₁ :: b₀ :: _ =>
    some (256 * (256 * (256 * b₃.toNat + b₂.toNat) + b₁.toNat) + b₀.toNat)
  | _ => none

def imageBlock (image : List UInt8) (n : Nat) : List UInt8 :=
  (image.drop (blockSize * n)).take blockSize

/-- The library decompresses the stream to the image, window after window from its start, and
the stream ends with the size of the image. -/
structure Uzlib.Decompresses (api : Uzlib) (source image : List UInt8) : Prop where
  window : ∀ d n, (api.uncompress (api.advance^[n] (api.start d source)) blockSize).1 = imageBlock image n
  size : gzSize source = some (image.length % 2 ^ 32)

/-- `BLK_STOP` and `BLK_READY`. -/
inductive BlockState where
  | stop | ready
  deriving DecidableEq

structure BlockDeviceInfo where
  blkNum : Nat
  blkSize : Nat
  deriving DecidableEq

/-- `lastBlock` is an `int32_t`. -/
structure CompressedBlockDevice (api : Uzlib) where
  state : BlockState
  lastBlock : BitVec 32
  d : api.Uncomp
  source : List UInt8

namespace CompressedBlockDevice

variable {api : Uzlib}

/-- `compressedBlockDeviceObjectInit` and `compressedBlockDeviceStart`, on memory with any
content. -/
def start (d : api.Uncomp) (source : List UInt8) : CompressedBlockDevice api :=
  { state := .ready, lastBlock := -1, d := d, source := source }

/-- If we just initialized, or trying to seek backwards, (re)initialize the decompressor. -/
def rewind (cbd : CompressedBlockDevice api) (startblk : BitVec 32) : CompressedBlockDevice api :=
  if cbd.lastBlock = -1 ∨ startblk.toInt ≤ cbd.lastBlock.toInt then
    { cbd with d := api.start cbd.d cbd.source, lastBlock := -1 }
  else cbd

/-- The loop over the blocks ahead: each one is written to the buffer. -/
def decompress (d : api.Uncomp) (buffer : List UInt8) : Nat → List UInt8 × api.Uncomp
  | 0 => (buffer, d)
  | blocks + 1 =>
    let chunk := api.uncompress d blockSize
    decompress chunk.2 (chunk.1 ++ buffer.drop chunk.1.length) blocks

/-- The buffer it leaves. The number of blocks is not looked at, and the result is always
`HAL_SUCCESS`. -/
def read (cbd : CompressedBlockDevice api) (startblk : BitVec 32) (buffer : List UInt8) (_n : Nat) :
    List UInt8 × CompressedBlockDevice api :=
  let cbd := cbd.rewind startblk
  let blocksAhead := (startblk - cbd.lastBlock).toNat
  let (buffer, d) := decompress cbd.d buffer blocksAhead
  (buffer, { cbd with d := d, lastBlock := startblk })

/-- `none` for `HAL_FAILED`. -/
def getInfo (cbd : CompressedBlockDevice api) : Option BlockDeviceInfo :=
  if cbd.state ≠ .ready then none
  else do
    let size ← gzSize cbd.source
    some { blkNum := size / blockSize, blkSize := blockSize }

/-- A read of one block, into a buffer of its size. -/
structure ReadRequest where
  startblk : BitVec 32
  buffer : List UInt8
  oneBlock : buffer.length = blockSize

/-- The buffers after one read after the other. -/
def readEach (cbd : CompressedBlockDevice api) : List ReadRequest → List (List UInt8)
  | [] => []
  | r :: requests =>
    let done := cbd.read r.startblk r.buffer 1
    done.1 :: done.2.readEach requests

variable {source image buffer : List UInt8} {cbd : CompressedBlockDevice api}

theorem length_imageBlock (inside : blockSize * (n + 1) ≤ image.length) :
    (imageBlock image n).length = blockSize := by
  simp only [imageBlock, List.length_take, List.length_drop, blockSize] at inside ⊢
  omega

theorem decompress_succ (decompresses : api.Decompresses source image) (d : api.Uncomp)
    (fits : buffer.length ≤ blockSize) (inside : blockSize * (k + 1) ≤ image.length) :
    decompress (api.advance^[k] (api.start d source)) buffer (n + 1) =
      decompress (api.advance^[k + 1] (api.start d source)) (imageBlock image k) n := by
  rw [decompress, decompresses.window d k, length_imageBlock inside,
    List.drop_eq_nil_of_le fits, List.append_nil, Function.iterate_succ_apply']
  rfl

/-- The last block stays in the buffer. -/
theorem decompress_image (decompresses : api.Decompresses source image) (d : api.Uncomp)
    (fits : buffer.length ≤ blockSize) (inside : blockSize * (k + n + 1) ≤ image.length) :
    decompress (api.advance^[k] (api.start d source)) buffer (n + 1) =
      (imageBlock image (k + n), api.advance^[k + n + 1] (api.start d source)) := by
  have first : blockSize * (k + 1) ≤ image.length :=
    Nat.le_trans (Nat.mul_le_mul_left blockSize (by omega)) inside
  rw [decompress_succ decompresses d fits first]
  induction n generalizing k buffer with
  | zero => rfl
  | succ n ih =>
    have shift : k + 1 + n = k + (n + 1) := by omega
    have second : blockSize * (k + 1 + 1) ≤ image.length :=
      Nat.le_trans (Nat.mul_le_mul_left blockSize (by omega)) inside
    have short : (imageBlock image k).length ≤ blockSize := Nat.le_of_eq (length_imageBlock first)
    rw [decompress_succ decompresses d short second, @ih _ (k + 1) short (by rwa [shift]) second, shift]

/-- The decompressor has given the first `k` blocks. -/
structure Positioned (cbd : CompressedBlockDevice api) (source : List UInt8) (k : Nat) : Prop where
  stream : cbd.source = source
  last : cbd.lastBlock = BitVec.ofNat 32 k - 1
  position : ∃ d, cbd.d = api.advance^[k] (api.start d source)

/-- Between two reads: nothing was given yet, or some blocks. -/
def Usable (cbd : CompressedBlockDevice api) (source : List UInt8) : Prop :=
  cbd.source = source ∧ (cbd.lastBlock = -1 ∨ ∃ k, k < 2 ^ 31 ∧ cbd.Positioned source (k + 1))

theorem ofNat_succ_sub_one (k : Nat) : BitVec.ofNat 32 (k + 1) - 1 = BitVec.ofNat 32 k := by
  rw [BitVec.ofNat_add]
  exact BitVec.add_sub_cancel _ _

theorem toInt_last (small : k < 2 ^ 31) : (BitVec.ofNat 32 (k + 1) - 1).toInt = k := by
  have kept : (BitVec.ofNat 32 k).toNat = k := by
    rw [BitVec.toNat_ofNat, Nat.mod_eq_of_lt (by omega)]
  rw [ofNat_succ_sub_one, BitVec.toInt_eq_toNat_of_lt (by omega), kept]

theorem Usable.rewind (usable : cbd.Usable source) (startblk : BitVec 32)
    (small : startblk.toNat < 2 ^ 31) :
    ∃ k ≤ startblk.toNat, (cbd.rewind startblk).Positioned source k := by
  obtain ⟨same, usable⟩ := usable
  by_cases backwards : cbd.lastBlock = -1 ∨ startblk.toInt ≤ cbd.lastBlock.toInt
  · refine ⟨0, Nat.zero_le _, ?_⟩
    rw [CompressedBlockDevice.rewind, if_pos backwards]
    exact ⟨same, rfl, cbd.d, by rw [same]; rfl⟩
  · rw [CompressedBlockDevice.rewind, if_neg backwards]
    rw [not_or] at backwards
    obtain ⟨k, bound, positioned⟩ := usable.resolve_left backwards.1
    refine ⟨k + 1, ?_, positioned⟩
    have later := backwards.2
    rw [positioned.last, toInt_last bound, BitVec.toInt_eq_toNat_of_lt (by omega)] at later
    omega

/-- How far it is from there. -/
theorem blocksAhead_eq (startblk : BitVec 32) (ahead : k ≤ startblk.toNat)
    (small : startblk.toNat < 2 ^ 31) :
    (startblk - (BitVec.ofNat 32 k - 1)).toNat = startblk.toNat - k + 1 := by
  have kept : (BitVec.ofNat 32 k).toNat = k := by
    rw [BitVec.toNat_ofNat, Nat.mod_eq_of_lt (by omega)]
  rw [BitVec.toNat_sub, BitVec.toNat_sub, kept]
  simp
  omega

/-- A read gives the block of the image, wherever the reads before it were. -/
theorem Usable.read (decompresses : api.Decompresses source image) (usable : cbd.Usable source)
    (startblk : BitVec 32) (small : startblk.toNat < 2 ^ 31)
    (inside : blockSize * (startblk.toNat + 1) ≤ image.length) (fits : buffer.length ≤ blockSize) :
    (cbd.read startblk buffer n).1 = imageBlock image startblk.toNat ∧
      (cbd.read startblk buffer n).2.Usable source := by
  obtain ⟨k, ahead, positioned⟩ := usable.rewind startblk small
  obtain ⟨d, position⟩ := positioned.position
  have reaches : k + (startblk.toNat - k) = startblk.toNat := by omega
  have blocks := @decompress_image _ _ _ buffer k (startblk.toNat - k) decompresses d fits (by rwa [reaches])
  rw [reaches] at blocks
  simp only [CompressedBlockDevice.read, positioned.last, blocksAhead_eq startblk ahead small,
    position, blocks, true_and]
  refine ⟨positioned.stream, .inr ⟨startblk.toNat, small, positioned.stream, ?_, d, rfl⟩⟩
  rw [ofNat_succ_sub_one, BitVec.ofNat_toNat, BitVec.setWidth_eq]

theorem Usable.readEach (decompresses : api.Decompresses source image) (usable : cbd.Usable source)
    (requests : List ReadRequest)
    (inside : ∀ r ∈ requests, r.startblk.toNat < 2 ^ 31 ∧
      blockSize * (r.startblk.toNat + 1) ≤ image.length) :
    cbd.readEach requests = requests.map fun r => imageBlock image r.startblk.toNat := by
  induction requests generalizing cbd with
  | nil => rfl
  | cons r requests ih =>
    obtain ⟨small, fits⟩ := inside r List.mem_cons_self
    obtain ⟨filled, usable'⟩ :=
      @Usable.read _ _ _ r.buffer _ 1 decompresses usable r.startblk small fits (Nat.le_of_eq r.oneBlock)
    rw [CompressedBlockDevice.readEach, List.map_cons, filled, ih usable']
    intro other member
    exact inside other (List.mem_cons_of_mem r member)

/-- What `get_info` counts as blocks lies in the image. -/
theorem blkNum_inside (decompresses : api.Decompresses source image) (d : api.Uncomp)
    (info : (start d source).getInfo = some i) (before : n < i.blkNum) :
    n < 2 ^ 31 ∧ blockSize * (n + 1) ≤ image.length := by
  simp only [getInfo, start, ne_eq, not_true_eq_false, if_false, decompresses.size,
    Option.bind_eq_bind, Option.bind_some, Option.some.injEq] at info
  subst info
  have whole := Nat.mod_le image.length (2 ^ 32)
  have size := Nat.mod_lt image.length (Nat.two_pow_pos 32)
  simp only [blockSize] at before ⊢
  omega

/-- Reads of single blocks, in any order, give the blocks of the image. -/
theorem readEach_image (decompresses : api.Decompresses source image) (d : api.Uncomp)
    (info : (start d source).getInfo = some i) (requests : List ReadRequest)
    (inside : ∀ r ∈ requests, r.startblk.toNat < i.blkNum) :
    (start d source).readEach requests = requests.map fun r => imageBlock image r.startblk.toNat := by
  have usable : (start d source).Usable source := ⟨rfl, .inl rfl⟩
  exact usable.readEach decompresses requests fun r member =>
    blkNum_inside decompresses d info (inside r member)

end CompressedBlockDevice

/-! ## Images that are stored as they are -/

/-- The decompressor, as far as a stream of one stored block needs it. `curlen` is what is left
of the block, once its header was read. -/
structure StoredUncomp where
  source : List UInt8 := []
  curlen : Option Nat := none

/-- The length of the block, which its complement follows. -/
def StoredUncomp.blockHeader (d : StoredUncomp) : StoredUncomp :=
  match d.curlen, d.source with
  | none, _ :: low :: high :: _ :: _ :: source =>
    { source := source, curlen := some (256 * high.toNat + low.toNat) }
  | _, _ => d

def storedUzlib : Uzlib where
  Uncomp := StoredUncomp
  uncompressInit _ := {}
  setSource d source := { d with source := source }
  gzipParseHeader d := { d with source := d.source.drop 10 }
  uncompress d room :=
    let d := d.blockHeader
    let length := min room (d.curlen.getD 0)
    (d.source.take length,
      { source := d.source.drop length, curlen := d.curlen.map (· - length) })

variable {image : List UInt8}

def littleEndian (n : Nat) : Nat → List UInt8
  | 0 => []
  | bytes + 1 => UInt8.ofNat n :: littleEndian (n / 256) bytes

/-- What `gzip` writes for bytes that it does not compress. -/
def storedGzip (image : List UInt8) (checksum : Nat) : List UInt8 :=
  [0x1F, 0x8B, 8, 0, 0, 0, 0, 0, 0, 3] ++ [1] ++ littleEndian image.length 2 ++
    littleEndian (0xFFFF - image.length) 2 ++ image ++ littleEndian checksum 4 ++
    littleEndian image.length 4

theorem gzSize_storedGzip (image : List UInt8) (checksum : Nat) :
    gzSize (storedGzip image checksum) = some (image.length % 2 ^ 32) := by
  simp [gzSize, storedGzip, littleEndian]
  omega

theorem storedUzlib_uncompress {d : StoredUncomp} {bytes rest : List UInt8}
    (header : d.blockHeader = { source := bytes ++ rest, curlen := some bytes.length }) (room : Nat) :
    storedUzlib.uncompress d room =
      (bytes.take room, { source := bytes.drop room ++ rest, curlen := some (bytes.length - room) }) := by
  have within : min room bytes.length ≤ bytes.length := Nat.min_le_right _ _
  have left : bytes.length - min room bytes.length = bytes.length - room := by omega
  simp only [storedUzlib, header, Option.getD_some, Option.map_some, left,
    List.take_append_of_le_length within, List.drop_append_of_le_length within]
  simp [List.take_eq_take_iff, List.drop_eq_drop_iff]

/-- What follows the bytes of the image. -/
def storedTrailer (image : List UInt8) (checksum : Nat) : List UInt8 :=
  littleEndian checksum 4 ++ littleEndian image.length 4

/-- The decompressor in front of a window. -/
theorem blockHeader_stored (checksum : Nat) (short : image.length < 2 ^ 16) (d : StoredUncomp) (n : Nat) :
    (storedUzlib.advance^[n] (storedUzlib.start d (storedGzip image checksum))).blockHeader =
      { source := image.drop (blockSize * n) ++ storedTrailer image checksum
        curlen := some (image.drop (blockSize * n)).length } := by
  induction n with
  | zero =>
    have length : 256 * (image.length / 256 % 256) + image.length % 256 = image.length := by omega
    simp [Uzlib.start, storedUzlib, storedGzip, storedTrailer, littleEndian, StoredUncomp.blockHeader,
      length]
  | succ n ih =>
    rw [Function.iterate_succ_apply', Uzlib.advance, storedUzlib_uncompress ih]
    simp only [StoredUncomp.blockHeader, List.drop_drop, List.length_drop, Nat.sub_sub, Nat.mul_succ]

theorem storedUzlib_decompresses (checksum : Nat) (short : image.length < 2 ^ 16) :
    storedUzlib.Decompresses (storedGzip image checksum) image where
  size := gzSize_storedGzip image checksum
  window := by
    intro d n
    rw [storedUzlib_uncompress (blockHeader_stored checksum short d n), imageBlock]

def threeBlocks : List UInt8 :=
  List.replicate 512 0x55 ++ List.replicate 512 0xAA ++ List.replicate 512 0x33

def threeBlocksDevice : CompressedBlockDevice storedUzlib :=
  .start ({} : StoredUncomp) (storedGzip threeBlocks 0x6279BC26)

def readBlock (startblk : BitVec 32) : CompressedBlockDevice.ReadRequest :=
  ⟨startblk, List.replicate 512 0, List.length_replicate⟩

theorem length_threeBlocks : threeBlocks.length = 1536 := by
  simp only [threeBlocks, List.length_append, List.length_replicate]

theorem threeBlocksDevice_getInfo : threeBlocksDevice.getInfo = some ⟨3, 512⟩ := by
  simp [threeBlocksDevice, CompressedBlockDevice.getInfo, CompressedBlockDevice.start,
    gzSize_storedGzip, length_threeBlocks, blockSize]

/-- Forward with a gap, the same block again, backwards, and on. -/
theorem readEach_threeBlocks :
    threeBlocksDevice.readEach [readBlock 2, readBlock 2, readBlock 0, readBlock 1] =
      [imageBlock threeBlocks 2, imageBlock threeBlocks 2, imageBlock threeBlocks 0,
        imageBlock threeBlocks 1] := by
  have decompresses : storedUzlib.Decompresses (storedGzip threeBlocks 0x6279BC26) threeBlocks :=
    storedUzlib_decompresses _ (by rw [length_threeBlocks]; decide)
  refine CompressedBlockDevice.readEach_image decompresses _ threeBlocksDevice_getInfo _ ?_
  intro r member
  simp only [List.mem_cons, List.not_mem_nil, or_false] at member
  rcases member with rfl | rfl | rfl | rfl
  all_goals decide

end FomeFw.Hardware
