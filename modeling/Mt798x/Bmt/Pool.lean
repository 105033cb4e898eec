import Mt798x.Bmt.Desc
import Mt798x.Lib.Guard

/-!
# The tables of BMT v2

From `mtk_bmt_v2.c`.  One buffer, `bbt_buf`, holds a signature and a version in its first four
bytes, then the `u16` numbers `bb_tbl`, and from `bb_tbl[table_size]` on the entries of `bmt_tbl`,
two `u16` numbers each.  The buffer has `bufsz` bytes; every access to it is checked against that.

`mtk_bmt_init_v2` looks for a stored table in the pool at the end of the chip, from the last block
downwards, and builds a new one if there is none.  Of the chip the functions see the results of the
calls to the driver; what the calls do to the flash is not followed.
-/

namespace Bmt.V2

open Bytes Guard

/-! ## The configuration -/

/-- What `mtk_bmt_init_v2` is told about the chip by `mtk_bmt_attach` and by the device tree. -/
structure Conf where
  pgSize : ℕ
  totalBlks : ℕ
  /-- `mediatek,bmt-pool-size` -/
  bmtPoolSize : Option ℕ
  /-- `mediatek,bmt-table-size` -/
  bmtTableSize : Option ℕ
  pgSize_lt : pgSize < 2 ^ 32
  totalBlks_lt : totalBlks < 2 ^ 16
  bmtPoolSize_lt : bmtPoolSize.getD 80 < 2 ^ 32
  bmtTableSize_lt : bmtTableSize.getD 0x2000 < 2 ^ 32

namespace Conf

variable (c : Conf)

def poolSize : ℕ := c.bmtPoolSize.getD 80

def tableSize : ℕ := c.bmtTableSize.getD 0x2000

/-- `pg_shift`: `ffs(pg_size) - 1`. -/
def pgShift : ℕ := ((List.range 32).find? fun k => c.pgSize.testBit k).getD 0

/-- `pmt_block`, computed in 32 bits and stored in a `u16`. -/
def pmtBlock : ℕ := (c.totalBlks + (2 ^ 33 - c.poolSize - 2)) % 2 ^ 16

def poolLba : ℕ := (c.pmtBlock + 2) % 2 ^ 16

def bbMax : ℕ := c.totalBlks * 2 / 100

/-- `BMT_TABLE_MAX`. -/
def bmtTableMax : ℕ := c.tableSize * 2 % 2 ^ 32 / 100

/-- `round_up` of the kernel, for powers of two. -/
def roundUp (x y : ℕ) : ℕ := ((x - 1) ||| (y - 1)) + 1

/-- The size of `bbt_buf`: a 64-bit sum, stored in a `u32`. -/
def bufsz : ℕ := roundUp (4 + c.tableSize * 4) c.pgSize % 2 ^ 32

def bmtPgs : ℕ := c.bufsz >>> c.pgShift

/-- The index of `bmt_tbl[n].block` among the `u16` numbers behind the first four bytes; that of
`bb_tbl[i]` is `i`. -/
def blockOf (n : ℕ) : ℕ := c.tableSize + 2 * n

/-- The index of `bmt_tbl[n].mapped`. -/
def mappedOf (n : ℕ) : ℕ := c.tableSize + 2 * n + 1

end Conf

/-- The end of the `u16` number with index `w`, in bytes from the start of the buffer. -/
def wordEnd (w : ℕ) : ℕ := 4 + 2 * w + 2

/-- The contents of `bbt_buf`. -/
structure Table where
  signature : List Byte
  version : Byte
  word : ℕ → UInt16

namespace Table

def set (t : Table) (w v : ℕ) : Table :=
  { t with word := fun k => if k = w then UInt16.ofNat v else t.word k }

end Table

/-! ## The driver -/

/-- What `bbt_nand_read` of the whole table leaves behind. -/
structure TableRead where
  failed : Bool
  buf : Table
  fdm : List Byte

/-- The answers of the driver while the table is read and the chip is scanned. -/
structure Chip where
  /-- the table read from the first pages of a block -/
  table : ℕ → TableRead
  /-- the spare bytes of the first page of a block, `none` when it cannot be read -/
  firstPage : ℕ → Option (List Byte)

/-- The answers of the driver to one upload of the table: to the attempt with entry `n`, which
names `block`. -/
structure Driver where
  eraseFails : ℕ → ℕ → Bool
  writeFails : ℕ → ℕ → Bool

/-! ## The functions -/

section

variable (c : Conf)

def readWord (t : Table) (w : ℕ) : Except Fault ℕ := do
  touch c.bufsz (wordEnd w)
  pure (t.word w).toNat

def writeWord (t : Table) (w v : ℕ) : Except Fault Table := do
  touch c.bufsz (wordEnd w)
  pure (t.set w v)

/-- The first spare byte of a block that is not bad is `0xff`. -/
def Chip.goodBlock (chip : Chip) (block : ℕ) : Bool :=
  match chip.firstPage block with
  | none => false
  | some fdm => fdm.getD 0 0 == 0xff

/-- The loop of `find_valid_block`: `bb_max - loop` more bad blocks are accepted. -/
def findValidLoop (chip : Chip) : ℕ → ℕ → ℕ
  | 0, block => if block ≥ c.totalBlks then 0 else if chip.goodBlock block then block else 0
  | left + 1, block =>
    if block ≥ c.totalBlks then 0
    else if chip.goodBlock block then block
    else findValidLoop chip left (u16 (block + 1))

/-- `find_valid_block`. -/
def findValidBlock (chip : Chip) (block : ℕ) : ℕ := findValidLoop c chip c.bbMax (u16 block)

/-- The loop of `scan_bad_blocks` over the normal data area: `k` indices left, `i` the next one.
The result is `none` where the function returns an error. -/
def scanMain (chip : Chip) : ℕ → ℕ → Table → Except Fault (Option Table)
  | 0, _, t => pure (some t)
  | k + 1, i, t => do
    let prev ← readWord c t (i - 1)
    let t ← writeWord c t i (findValidBlock c chip (prev + 1))
    let block ← readWord c t i
    if block = 0 then pure none else scanMain chip k (i + 1) t

/-- The loop of `scan_bad_blocks` over the pool.  The result is the number of entries. -/
def scanPool (chip : Chip) : ℕ → ℕ → ℕ → Table → Except Fault (ℕ × Table)
  | 0, _, _, _ => .error .endless
  | fuel + 1, block, i, t =>
    let block := findValidBlock c chip block
    if block = 0 then pure (i, t)
    else do
      let t ← writeWord c t (c.blockOf i) block
      let t ← writeWord c t (c.mappedOf i) 0
      scanPool chip fuel (u16 (block + 1)) (i + 1) t

/-- The end of `scan_bad_blocks`: the last of the `i` entries of the pool becomes that of the
table.  The entry is marked before the test for an empty pool, whose index is `0xffff`. -/
def markTable (i : ℕ) (t : Table) : Except Fault (Option (Table × ℕ)) := do
  let bmtBlkIdx := u16 (i + (2 ^ 16 - 1))
  let t ← writeWord c t (c.mappedOf bmtBlkIdx) 2
  if i < 1 then pure none else pure (some (t, bmtBlkIdx))

/-- `scan_bad_blocks`: the table and `bmt_blk_idx`, `none` where it returns an error. -/
def scanBadBlocks (chip : Chip) (fuel : ℕ) (t : Table) : Except Fault (Option (Table × ℕ)) := do
  let t ← writeWord c t 0 0
  match ← scanMain c chip (c.poolLba - 1) 1 t with
  | none => pure none
  | some t =>
    let last ← readWord c t (c.poolLba - 1)
    let poolPba := u16 (last + 1)
    if poolPba + 2 ≥ c.totalBlks then pure none
    else
      let (i, t) ← scanPool c chip fuel poolPba 0 t
      markTable c i t

/-- `is_valid_bmt`. -/
def isValidBmt (t : Table) (fdm : List Byte) : Bool :=
  t.signature == [0x42, 0x4d, 0x54] && (fdm.drop 1).take 3 == [0x62, 0x6d, 0x74] &&
    t.version == 2

/-- `get_bmt_index`, from entry `i` on.  The `int` is cut to a `u16` on return. -/
def getBmtIndex (t : Table) : ℕ → ℕ → Except Fault ℕ
  | 0, _ => .error .endless
  | fuel + 1, i => do
    let block ← readWord c t (c.blockOf i)
    if block = 0 then pure 0
    else
      let mapped ← readWord c t (c.mappedOf i)
      if mapped = 2 then pure (u16 i) else getBmtIndex t fuel (i + 1)

/-- `upload_bmt`, with `n + 1` as the argument.  The result is the new `bmt_blk_idx`. -/
def uploadBmt (drv : Driver) : ℕ → Table → Except Fault (ℕ × Table)
  | 0, t => pure (0xffff, t)
  | n + 1, t => do
    let mapped ← readWord c t (c.mappedOf n)
    if mapped = 1 then pure (0xffff, t)
    else
      let block ← readWord c t (c.blockOf n)
      if drv.eraseFails n block then
        -- erase failed, try the previous block
        let t ← writeWord c t (c.blockOf n) 0
        uploadBmt drv n t
      else
        touch c.bufsz 4
        let t := { t with signature := [0x42, 0x4d, 0x54], version := 2 }
        -- the whole pages that `write_bmt` hands to the driver
        touch c.bufsz (c.bmtPgs <<< c.pgShift)
        if drv.writeFails n block then
          let t ← writeWord c t (c.blockOf n) 0
          uploadBmt drv n t
        else pure (n, t)

/-- The loop of `find_valid_block_in_pool`: `k` entries left, `i` the next one. -/
def findInPoolLoop : ℕ → ℕ → Table → Except Fault (ℕ × Table)
  | 0, _, t => pure (0, t)
  | k + 1, i, t => do
    let block ← readWord c t (c.blockOf i)
    if block = 0 then findInPoolLoop k (i + 1) t
    else
      let mapped ← readWord c t (c.mappedOf i)
      if mapped ≠ 0 then findInPoolLoop k (i + 1) t
      else
        let t ← writeWord c t (c.mappedOf i) 1
        let block ← readWord c t (c.blockOf i)
        pure (block, t)

/-- The table in memory and the entry it is stored in. -/
structure State where
  bbt : Table
  bmtBlkIdx : ℕ

/-- `find_valid_block_in_pool`: 0 when the pool has run out. -/
def findValidBlockInPool (s : State) : Except Fault (ℕ × Table) :=
  if s.bmtBlkIdx = 0 then pure (0, s.bbt) else findInPoolLoop c s.bmtBlkIdx 0 s.bbt

/-- `remap_block_v2`.  Erasing the new block and copying to it have no part in the table. -/
def remapBlockV2 (drv : Driver) (s : State) (block : ℕ) : Except Fault (Bool × State) := do
  let (newBlock, bbt) ← findValidBlockInPool c s
  if newBlock = 0 then pure (false, { s with bbt := bbt })
  else
    let bbt ← writeWord c bbt block newBlock
    let (idx, bbt) ← uploadBmt c drv (s.bmtBlkIdx + 1) bbt
    pure (true, ⟨bbt, idx⟩)

/-- `unmap_block_v2`. -/
def unmapBlockV2 (drv : Driver) (s : State) (block : ℕ) : Except Fault State := do
  let bbt ← writeWord c s.bbt block block
  let (idx, bbt) ← uploadBmt c drv (s.bmtBlkIdx + 1) bbt
  pure ⟨bbt, idx⟩

/-- The search of `mtk_bmt_init_v2` for a stored table, from `block` downwards.  The result is the
buffer, and `bmt_blk_idx` if a table was found. -/
def searchBmt (chip : Chip) : ℕ → ℕ → Table → Except Fault (Option ℕ × Table)
  | 0, _, _ => .error .endless
  | fuel + 1, block, t =>
    if block < c.poolLba then pure (none, t)
    else
      let r := chip.table block
      let next := u16 (block + (2 ^ 16 - 1))
      if r.failed then searchBmt chip fuel next r.buf
      else do
        touch c.bufsz 4
        if !isValidBmt r.buf r.fdm then searchBmt chip fuel next r.buf
        else
          let idx ← getBmtIndex c r.buf fuel 0
          -- index 0 ends the search without a table
          if idx = 0 then pure (none, r.buf) else pure (some idx, r.buf)

/-- `memset` of `bmt_tbl`: `table_size` entries are cleared, wherever the buffer ends. -/
def clearTbl (t : Table) : Except Fault Table := do
  if c.tableSize = 0 then pure t
  else
    touch c.bufsz (4 + 2 * c.tableSize + c.tableSize * 4)
    pure { t with
      word := fun w =>
        if c.tableSize ≤ w ∧ w < c.tableSize + 2 * c.tableSize then 0 else t.word w }

/-- The end of `mtk_bmt_init_v2` for a new table.  The number of the block is read for the log
before the test for a failed upload, whose index is `0xffff`. -/
def storeNew (drv : Driver) (t : Table) (idx : ℕ) : Except Fault (Option State) := do
  let (idx, t) ← uploadBmt c drv (idx + 1) t
  let _block ← readWord c t (c.blockOf idx)
  if idx = 0xffff then pure none else pure (some ⟨t, idx⟩)

/-- `mtk_bmt_init_v2` without a stored table. -/
def buildNew (chip : Chip) (drv : Driver) (fuel : ℕ) (t : Table) :
    Except Fault (Option State) := do
  if c.totalBlks > (c.tableSize + c.bmtTableMax) % 2 ^ 32 then pure none
  else
    let t ← clearTbl c t
    match ← scanBadBlocks c chip fuel t with
    | none => pure none
    | some (t, idx) => storeNew c drv t idx

/-- The buffer before anything is read into it. -/
def blankTable : Table := ⟨[0xff, 0xff, 0xff], 0xff, fun _ => 0xffff⟩

/-- `mtk_bmt_init_v2`.  The result is `none` where it returns an error. -/
def mtkBmtInitV2 (chip : Chip) (drv : Driver) (fuel : ℕ) : Except Fault (Option State) := do
  match ← searchBmt c chip fuel (u16 (c.totalBlks + (2 ^ 16 - 1))) blankTable with
  | (some idx, t) => pure (some ⟨t, idx⟩)
  | (none, t) => buildNew c chip drv fuel t

/-! ## Runs -/

/-- A call from the block-management layer, with the driver's answers during it. -/
inductive Call
  | remap (drv : Driver) (block : ℕ)
  | unmap (drv : Driver) (block : ℕ)

/-- The state after a call.  Block numbers are `u16`. -/
def step (s : State) : Call → Except Fault State
  | .remap drv block => do
    let r ← remapBlockV2 c drv s (u16 block)
    pure r.2
  | .unmap drv block => unmapBlockV2 c drv s (u16 block)

/-- An attachment of the chip and the calls that follow, if it succeeds. -/
def session (chip : Chip) (drv : Driver) (fuel : ℕ) (calls : List Call) :
    Except Fault (Option State) := do
  match ← mtkBmtInitV2 c chip drv fuel with
  | none => pure none
  | some s =>
    let s ← calls.foldlM (step c) s
    pure (some s)

end

end Bmt.V2
