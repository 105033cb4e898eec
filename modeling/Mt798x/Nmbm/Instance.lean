import Mt798x.Lib.Crc
import Mt798x.Lib.TwoBit
import Mt798x.Bmt.Chip

/-!
# The NMBM instance

The data of `mtk_bmt_nmbm.c`: the on-flash headers and their checksum, the sizes that
`nmbm_init_structure` computes, the instance structure `nmbm_instance` and the block state table.

Block addresses are natural numbers (`u32` in the source, always far below `2 ^ 32`); the few
subtractions and products that can leave that range are written with `u32Sub` and `u32Mul`.
Words that live on flash are `UInt32`.  An entry of `block_mapping` is an `int32_t` in the source
and is kept here as its 32-bit pattern, so that `-1` is `0xffffffff`.
-/

namespace Nmbm

open Bytes Bmt

/-! ## Constants and 32-bit arithmetic -/

/-- `NMBM_MAGIC_SIGNATURE`. -/
def magicSignature : UInt32 := 0x304d4d4e

/-- `NMBM_MAGIC_INFO_TABLE`. -/
def magicInfoTable : UInt32 := 0x314d4d4e

/-- `NMBM_VER`: major 1, minor 0. -/
def nmbmVer : UInt32 := 1

/-- `NMBM_TRY_COUNT`. -/
def tryCount : ℕ := 3

/-- `NMBM_MGMT_DIV`. -/
def mgmtDiv : ℕ := 16

/-- `BLOCK_ST_BAD`. -/
def blockStBad : UInt32 := 0

/-- `BLOCK_ST_GOOD`. -/
def blockStGood : UInt32 := 3

/-- Subtraction of `uint32_t` values. -/
def u32Sub (a b : ℕ) : ℕ := if b ≤ a then a - b else a + 2 ^ 32 - b

/-- Multiplication of `uint32_t`. -/
def u32Mul (a b : ℕ) : ℕ := a * b % 2 ^ 32

lemma u32Sub_of_le {a b : ℕ} (h : b ≤ a) : u32Sub a b = a - b := if_pos h

/-! ## Configuration and sizes -/

/-- The chip geometry together with the device-tree settings read by `mtk_bmt_init_nmbm`. -/
structure Conf extends Geom where
  maxRatio : ℕ
  maxReservedBlocks : ℕ
  emptyPageEccOk : Bool
  forceCreate : Bool
  /-- A page holds a table header (32 bytes) and a signature (48 bytes). -/
  pg_large : 6 ≤ pgShift
  /-- Erase blocks are below 256 MiB, so that all sizes below are `u32`. -/
  blk_small : blkShift < 28

namespace Conf

variable (c : Conf)

/-- The kernel's `ALIGN`. -/
def align (x a : ℕ) : ℕ := (x + a - 1) / a * a

/-- `size2blk`: blocks needed for `size` bytes. -/
def size2blk (size : ℕ) : ℕ := (size + c.blkSize - 1) / c.blkSize

/-- `ni->block_count`. -/
def blockCount : ℕ := c.totalBlks

/-- 32-bit words of the state table, sixteen blocks to a word. -/
def stateWords : ℕ := (c.totalBlks + 15) / 16

/-- `ni->state_table_size`. -/
def stateTableSize : ℕ := c.stateWords * 4

/-- `ni->mapping_table_size`. -/
def mappingTableSize : ℕ := c.totalBlks * 4

/-- `sizeof(struct nmbm_info_table_header)`. -/
def infoHeaderSize : ℕ := 32

/-- `ni->info_table.state_table_off`. -/
def stateTableOff : ℕ := align infoHeaderSize c.pgSize

/-- `ni->info_table.mapping_table_off`. -/
def mappingTableOff : ℕ := c.stateTableOff + align c.stateTableSize c.pgSize

/-- `ni->info_table_size`. -/
def infoTableSize : ℕ := c.mappingTableOff + align c.mappingTableSize c.pgSize

/-- Blocks taken by an info table. -/
def infoTableBlocks : ℕ := c.size2blk c.infoTableSize

/-- `nmbm_get_spare_block_count`. -/
def nmbmGetSpareBlockCount (blockCount : ℕ) : ℕ := max ((blockCount + 1) / 2) 2

/-- `ni->info_table_spare_blocks`. -/
def infoTableSpareBlocks : ℕ := nmbmGetSpareBlockCount c.infoTableBlocks

/-- `ba2addr`. -/
def ba2addr (ba : ℕ) : ℕ := ba * c.blkSize

/-- `bmtd.total_blks << bmtd.blk_shift` as it is stored in the 64-bit field `nand_size`: the shift
is done in `int`, and the result is sign-extended. -/
def nandSize : ℕ :=
  let v := c.totalBlks * c.blkSize % 2 ^ 32
  if v < 2 ^ 31 then v else v + (2 ^ 64 - 2 ^ 32)

lemma pgSize_ge : 64 ≤ c.pgSize :=
  Nat.pow_le_pow_right (n := 2) (i := 6) (by decide) c.pg_large

lemma blkSize_ge : 64 ≤ c.blkSize :=
  Nat.pow_le_pow_right (n := 2) (i := 6) (by decide) (c.pg_large.trans c.pg_le_blk)

lemma ba2addr_succ (ba : ℕ) : c.ba2addr ba + c.blkSize = c.ba2addr (ba + 1) := by
  rw [ba2addr, ba2addr, Nat.add_mul, Nat.one_mul]

lemma blkSize_mod : c.blkSize % c.pgSize = 0 := by
  rw [c.blkSize_eq, Nat.mul_mod_right]

lemma ba2addr_mod (ba : ℕ) : c.ba2addr ba % c.pgSize = 0 := by
  rw [ba2addr, c.blkSize_eq, Nat.mul_left_comm, Nat.mul_mod_right]

lemma le_align {x a : ℕ} (ha : 0 < a) : x ≤ align x a := by
  have h := Nat.div_add_mod (x + a - 1) a
  have h' := Nat.mod_lt (x + a - 1) ha
  rw [align, Nat.mul_comm]
  omega

lemma align_lt {x a : ℕ} (ha : 0 < a) : align x a < x + a := by
  have h := Nat.div_mul_le_self (x + a - 1) a
  rw [align]
  omega

lemma infoTableSize_ge : 32 ≤ c.infoTableSize := by
  have h1 : infoHeaderSize ≤ c.stateTableOff := le_align c.pgSize_pos
  have h2 : infoHeaderSize = 32 := rfl
  rw [infoTableSize, mappingTableOff]
  omega

lemma infoTableSize_pos : 0 < c.infoTableSize := by
  have := c.infoTableSize_ge
  omega

lemma infoTableBlocks_mul : c.infoTableSize ≤ c.infoTableBlocks * c.blkSize ∧
    c.infoTableBlocks * c.blkSize < c.infoTableSize + c.blkSize := by
  have hpos := c.blkSize_pos
  have h := Nat.div_add_mod (c.infoTableSize + c.blkSize - 1) c.blkSize
  have h' := Nat.mod_lt (c.infoTableSize + c.blkSize - 1) hpos
  rw [Nat.mul_comm] at h
  rw [infoTableBlocks, size2blk]
  omega

lemma infoTableBlocks_pos : 0 < c.infoTableBlocks := by
  have h := c.infoTableBlocks_mul.1
  have h' := c.infoTableSize_pos
  by_contra h0
  rw [Nat.eq_zero_of_not_pos h0, Nat.zero_mul] at h
  omega

lemma infoTableSize_lt : c.infoTableSize < 2 ^ 32 := by
  have hpg : c.pgSize ≤ 2 ^ 27 := by
    have := c.pg_le_blk
    have := c.blk_small
    exact Nat.pow_le_pow_right (by decide) (by omega)
  have ht := c.total_lt
  have h1 : c.stateTableOff < infoHeaderSize + c.pgSize := align_lt c.pgSize_pos
  have h2 : align c.stateTableSize c.pgSize < c.stateTableSize + c.pgSize := align_lt c.pgSize_pos
  have h3 : align c.mappingTableSize c.pgSize < c.mappingTableSize + c.pgSize :=
    align_lt c.pgSize_pos
  have hs : c.stateTableSize ≤ c.totalBlks * 4 + 60 := by
    rw [stateTableSize, stateWords]
    omega
  have hm : c.mappingTableSize = c.totalBlks * 4 := rfl
  have hi : infoHeaderSize = 32 := rfl
  rw [infoTableSize, mappingTableOff]
  omega

end Conf

/-! ## Headers and checksums -/

/-- `struct nmbm_info_table_header`, the common `nmbm_header` included. -/
structure InfoTableHeader where
  magic : UInt32
  version : UInt32
  size : UInt32
  checksum : UInt32
  writeCount : UInt32
  stateTableOff : UInt32
  mappingTableOff : UInt32
  padding : UInt32
deriving DecidableEq, Repr

/-- The header as it lies in memory. -/
def InfoTableHeader.bytes (h : InfoTableHeader) : List Byte :=
  leWords [h.magic, h.version, h.size, h.checksum, h.writeCount, h.stateTableOff,
    h.mappingTableOff, h.padding]

/-- The header at the start of a buffer. -/
def InfoTableHeader.ofBytes (bs : List Byte) : InfoTableHeader where
  magic := rd32 bs
  version := rd32 (bs.drop 4)
  size := rd32 (bs.drop 8)
  checksum := rd32 (bs.drop 12)
  writeCount := rd32 (bs.drop 16)
  stateTableOff := rd32 (bs.drop 20)
  mappingTableOff := rd32 (bs.drop 24)
  padding := rd32 (bs.drop 28)

/-- `struct nmbm_signature`: the header, the 64-bit `nand_size` as two words, the geometry, the
start of the management area and `max_try_count`. -/
structure Signature where
  magic : UInt32
  version : UInt32
  size : UInt32
  checksum : UInt32
  nandSizeLo : UInt32
  nandSizeHi : UInt32
  blockSize : UInt32
  pageSize : UInt32
  spareSize : UInt32
  mgmtStartPb : UInt32
  maxTryCount : UInt32
  padding : UInt32
deriving DecidableEq, Repr

/-- `sizeof(struct nmbm_signature)`, with the tail padding the 64-bit field asks for. -/
def signatureSize : ℕ := 48

/-- The signature as it lies in memory. -/
def Signature.bytes (s : Signature) : List Byte :=
  leWords [s.magic, s.version, s.size, s.checksum, s.nandSizeLo, s.nandSizeHi, s.blockSize,
    s.pageSize, s.spareSize, s.mgmtStartPb, s.maxTryCount, s.padding]

/-- The signature at the start of a buffer. -/
def Signature.ofBytes (bs : List Byte) : Signature where
  magic := rd32 bs
  version := rd32 (bs.drop 4)
  size := rd32 (bs.drop 8)
  checksum := rd32 (bs.drop 12)
  nandSizeLo := rd32 (bs.drop 16)
  nandSizeHi := rd32 (bs.drop 20)
  blockSize := rd32 (bs.drop 24)
  pageSize := rd32 (bs.drop 28)
  spareSize := rd32 (bs.drop 32)
  mgmtStartPb := rd32 (bs.drop 36)
  maxTryCount := rd32 (bs.drop 40)
  padding := rd32 (bs.drop 44)

/-- `nmbm_check_header`: the size field fits the buffer, and the checksum over the header with its
checksum field cleared and the rest of the structure is the stored one. -/
def nmbmCheckHeader (data : List Byte) (size : ℕ) : Bool :=
  let hsize := (rd32 (data.drop 8)).toNat
  if hsize > size then false
  else
    let nhdr := data.take 12 ++ le32 0
    let sum := Crc.crc32Le 0 nhdr
    let sum := if hsize > 16 then Crc.crc32Le sum ((data.drop 16).take (hsize - 16)) else sum
    rd32 (data.drop 12) == sum

/-- `nmbm_update_checksum`: clear the checksum field, then store the checksum of the structure,
whose length is in its size field. -/
def nmbmUpdateChecksum (data : List Byte) : List Byte :=
  let cleared := splice data 12 (le32 0)
  let hsize := (rd32 (cleared.drop 8)).toNat
  splice cleared 12 (le32 (Crc.crc32Le 0 (cleared.take hsize)))

/-! ## The instance -/

/-- `struct nmbm_instance`, with the chip it is attached to.  The members that never change
after `nmbm_init_structure` are functions of the configuration (`Conf`); `page_cache` is only a
scratch buffer and is left out.

The last three members are not in the source: they record what the program does not look at.
`unsaved` tells that a block state changed after the table image in `infoTableCache` was made,
`lost` that `nmbm_mark_tables_clean` was called while this was so (or that
`nmbm_load_info_table` rewrites one of two tables after this was so), and `skipped` that
`nmbm_map_block` was entered with an unusable block at `mapping_blocks_top_ba`. -/
structure Inst where
  chip : Chip
  signature : Signature
  infoTableCache : List Byte
  infoTable : InfoTableHeader
  blockState : List UInt32
  blockStateChanged : ℕ
  blockMapping : List UInt32
  blockMappingChanged : ℕ
  isProtected : Bool
  dataBlockCount : ℕ
  mgmtStartBa : ℕ
  mainTableBa : ℕ
  backupTableBa : ℕ
  mappingBlocksBa : ℕ
  mappingBlocksTopBa : ℕ
  signatureBa : ℕ
  unsaved : Bool
  lost : Bool
  skipped : Bool

namespace Inst

/-- The entry of `block_mapping` for a logical block. -/
def mapping (ni : Inst) (lb : ℕ) : UInt32 := ni.blockMapping.getD lb 0xffffffff

/-- Whether the tables in memory differ from the ones last written. -/
def changed (ni : Inst) : Bool := ni.blockStateChanged != 0 || ni.blockMappingChanged != 0

end Inst

/-! ## The block state table -/

/-- `nmbm_get_block_state_raw`. -/
def nmbmGetBlockStateRaw (blockState : List UInt32) (ba : ℕ) : UInt32 := TwoBit.get blockState ba

/-- `nmbm_get_block_state`. -/
def nmbmGetBlockState (ni : Inst) (ba : ℕ) : UInt32 := nmbmGetBlockStateRaw ni.blockState ba

/-- `nmbm_set_block_state`: store the state and count the change if there is one. -/
def nmbmSetBlockState (ni : Inst) (ba : ℕ) (state : UInt32) : Inst :=
  let orig := nmbmGetBlockState ni ba
  let ni := { ni with blockState := TwoBit.set ni.blockState ba state }
  if orig ≠ state &&& 3 then
    { ni with blockStateChanged := ni.blockStateChanged + 1, unsaved := true }
  else ni

end Nmbm
