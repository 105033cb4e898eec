import Mt798x.Nmbm.Instance

/-!
# Flash access of the NMBM layer

The retrying page and block accesses, the walks over the block state table, and the functions
that erase ranges and write signatures and management data, from `nmbm_read_phys_page` to
`nmbm_mark_tables_clean`.  A loop over block addresses is a recursion on the number of blocks
still to be visited; a loop over a buffer is a recursion on the bytes still to be moved.
-/

namespace Nmbm

open Bytes Bmt

variable (c : Conf) (env : Env)

/-! ## Pages and blocks -/

/-- The retry loop of `nmbm_read_phys_page`, `tries` attempts left, `last` the result so far. -/
def nmbmReadPhysPageTry (page : ℕ) : ℕ → ℤ → Chip → (ℤ × List Byte) × Chip
  | 0, last, chip => ((last, []), chip)
  | tries + 1, _, chip =>
    let r := chip.read c.toGeom env page
    if r.1.1 = eUCLEAN then
      ((((min (c.bitflipThreshold + 1) c.eccStrength : ℕ) : ℤ), r.1.2.data), r.2)
    else if 0 ≤ r.1.1 then ((0, r.1.2.data), r.2)
    else nmbmReadPhysPageTry page tries r.1.1 r.2

/-- `nmbm_read_phys_page`: the page at a linear address, in at most `NMBM_TRY_COUNT` attempts. -/
def nmbmReadPhysPage (ni : Inst) (addr : ℕ) : (ℤ × List Byte) × Inst :=
  let r := nmbmReadPhysPageTry c env (c.pageOf addr) tryCount 0 ni.chip
  (r.1, { ni with chip := r.2 })

/-- The retry loop of `nmbm_write_phys_page`. -/
def nmbmWritePhysPageTry (page : ℕ) (data : List Byte) : ℕ → Chip → Bool × Chip
  | 0, chip => (false, chip)
  | tries + 1, chip =>
    let r := chip.write c.toGeom env true page data 0 []
    if r.1 then (true, r.2) else nmbmWritePhysPageTry page data tries r.2

/-- `nmbm_write_phys_page`. -/
def nmbmWritePhysPage (ni : Inst) (addr : ℕ) (data : List Byte) : Bool × Inst :=
  let r := nmbmWritePhysPageTry c env (c.pageOf addr) data tryCount ni.chip
  (r.1, { ni with chip := r.2 })

/-- The retry loop of `nmbm_erase_phys_block`. -/
def nmbmErasePhysBlockTry (ba : ℕ) : ℕ → Chip → Bool × Chip
  | 0, chip => (false, chip)
  | tries + 1, chip =>
    let r := chip.erase c.toGeom env true ba
    if r.1 then (true, r.2) else nmbmErasePhysBlockTry ba tries r.2

/-- `nmbm_erase_phys_block`. -/
def nmbmErasePhysBlock (ni : Inst) (ba : ℕ) : Bool × Inst :=
  let r := nmbmErasePhysBlockTry c env ba tryCount ni.chip
  (r.1, { ni with chip := r.2 })

/-- `nmbm_check_bad_phys_block`. -/
def nmbmCheckBadPhysBlock (ni : Inst) (ba : ℕ) : Bool × Inst :=
  let r := ni.chip.isBad env ba
  (r.1, { ni with chip := r.2 })

/-- `nmbm_mark_phys_bad_block`. -/
def nmbmMarkPhysBadBlock (ni : Inst) (ba : ℕ) : Inst :=
  { ni with chip := ni.chip.markBad c.toGeom env true ba }

/-! ## Walks over the state table -/

/-- The loop of `nmbm_block_walk_asc`: `k` blocks left below the limit, `count` good blocks still
to be skipped. -/
def nmbmBlockWalkAscLoop (ni : Inst) : ℕ → ℕ → ℕ → Option ℕ
  | 0, _, _ => none
  | k + 1, ba, count =>
    if nmbmGetBlockState ni ba = blockStGood then
      if count = 0 then some ba else nmbmBlockWalkAscLoop ni k (ba + 1) (count - 1)
    else nmbmBlockWalkAscLoop ni k (ba + 1) count

/-- `nmbm_block_walk_asc`. -/
def nmbmBlockWalkAsc (ni : Inst) (ba count limit : ℕ) : Option ℕ :=
  let limit := if limit ≥ c.blockCount then c.blockCount - 1 else limit
  nmbmBlockWalkAscLoop ni (limit - ba) ba count

/-- The loop of `nmbm_block_walk_desc`: `k` blocks left above the limit. -/
def nmbmBlockWalkDescLoop (ni : Inst) : ℕ → ℕ → ℕ → Option ℕ
  | 0, _, _ => none
  | k + 1, ba, count =>
    if nmbmGetBlockState ni ba = blockStGood then
      if count = 0 then some ba else nmbmBlockWalkDescLoop ni k (ba - 1) (count - 1)
    else nmbmBlockWalkDescLoop ni k (ba - 1) count

/-- `nmbm_block_walk_desc`. -/
def nmbmBlockWalkDesc (ni : Inst) (ba count limit : ℕ) : Option ℕ :=
  let limit := if limit ≥ c.blockCount then c.blockCount - 1 else limit
  nmbmBlockWalkDescLoop ni (ba - limit) ba count

/-- The loop of `nmbm_scan_badblocks`, `k` blocks left. -/
def nmbmScanBadblocksLoop : ℕ → ℕ → Inst → Inst
  | 0, _, ni => ni
  | k + 1, ba, ni =>
    let r := nmbmCheckBadPhysBlock env ni ba
    nmbmScanBadblocksLoop k (ba + 1) (if r.1 then nmbmSetBlockState r.2 ba blockStBad else r.2)

/-- `nmbm_scan_badblocks`. -/
def nmbmScanBadblocks (ni : Inst) : Inst := nmbmScanBadblocksLoop env c.blockCount 0 ni

/-- The first loop of `nmbm_build_mapping_table`, `k` physical blocks left: the good blocks from
`pb` on become the images of the logical blocks from `lb` on. -/
def nmbmBuildMappingTableLoop : ℕ → ℕ → ℕ → Inst → Inst
  | 0, _, lb, ni => { ni with dataBlockCount := lb }
  | k + 1, pb, lb, ni =>
    if nmbmGetBlockState ni pb = blockStBad then nmbmBuildMappingTableLoop k (pb + 1) lb ni
    else nmbmBuildMappingTableLoop k (pb + 1) (lb + 1)
      { ni with blockMapping := ni.blockMapping.set lb (UInt32.ofNat pb) }

/-- `nmbm_build_mapping_table`: the rest of the table is set to `-1`. -/
def nmbmBuildMappingTable (ni : Inst) : Inst :=
  let ni := nmbmBuildMappingTableLoop ni.mgmtStartBa 0 0 ni
  { ni with blockMapping := ni.blockMapping.take ni.dataBlockCount ++
      List.replicate (c.blockCount - ni.dataBlockCount) 0xffffffff }

/-! ## Erasing -/

/-- The page loop of `nmbm_erase_block_and_check`, `k` pages left. -/
def nmbmEraseCheckLoop : ℕ → ℕ → Inst → Bool × Inst
  | 0, _, ni => (true, ni)
  | k + 1, addr, ni =>
    let r := nmbmReadPhysPage c env ni addr
    if r.1.1 = eBADMSG then (false, r.2) else nmbmEraseCheckLoop k (addr + c.pgSize) r.2

/-- `nmbm_erase_block_and_check`. -/
def nmbmEraseBlockAndCheck (ni : Inst) (ba : ℕ) : Bool × Inst :=
  let r := nmbmErasePhysBlock c env ni ba
  if !r.1 then (false, r.2)
  else if !c.emptyPageEccOk then (true, r.2)
  else nmbmEraseCheckLoop c env c.ppb (c.ba2addr ba) r.2

/-- `skip_bad_block`: mark the block bad on the chip and in the state table. -/
def skipBadBlock (ni : Inst) (ba : ℕ) : Inst :=
  nmbmSetBlockState (nmbmMarkPhysBadBlock c env ni ba) ba blockStBad

/-- The loop of `nmbm_erase_range`, `k` blocks left. -/
def nmbmEraseRangeLoop : ℕ → ℕ → Inst → Inst
  | 0, _, ni => ni
  | k + 1, ba, ni =>
    if nmbmGetBlockState ni ba ≠ blockStGood then nmbmEraseRangeLoop k (ba + 1) ni
    else
      let b := nmbmCheckBadPhysBlock env ni ba
      if b.1 then nmbmEraseRangeLoop k (ba + 1) (nmbmSetBlockState b.2 ba blockStBad)
      else
        let r := nmbmEraseBlockAndCheck c env b.2 ba
        nmbmEraseRangeLoop k (ba + 1) (if r.1 then r.2 else skipBadBlock c env r.2 ba)

/-- `nmbm_erase_range`. -/
def nmbmEraseRange (ni : Inst) (ba limit : ℕ) : Inst :=
  nmbmEraseRangeLoop c env (limit - ba) ba ni

/-! ## Writing the signature -/

/-- A page's worth of data, the unused part filled with `0xff`. -/
def padPage (data : List Byte) : List Byte := data ++ List.replicate (c.pgSize - data.length) 0xff

/-- The page loop of `nmbm_write_repeated_data`, `k` pages left. -/
def nmbmWriteRepeatedLoop (data : List Byte) : ℕ → ℕ → Inst → Bool × Inst
  | 0, _, ni => (true, ni)
  | k + 1, addr, ni =>
    let w := nmbmWritePhysPage c env ni addr (padPage c data)
    if !w.1 then (false, w.2)
    else
      let r := nmbmReadPhysPage c env w.2 addr
      if r.1.1 < 0 then (false, r.2)
      else if r.1.2.take data.length ≠ data then (false, r.2)
      else nmbmWriteRepeatedLoop data k (addr + c.pgSize) r.2

/-- `nmbm_write_repeated_data`. -/
def nmbmWriteRepeatedData (ni : Inst) (ba : ℕ) (data : List Byte) : Bool × Inst :=
  if data.length > c.pgSize then (false, ni)
  else nmbmWriteRepeatedLoop c env data c.ppb (c.ba2addr ba) ni

/-- The loop of `nmbm_write_signature`, `k` blocks left above the limit. -/
def nmbmWriteSignatureLoop (signature : Signature) : ℕ → ℕ → Inst → Option ℕ × Inst
  | 0, _, ni => (none, ni)
  | k + 1, ba, ni =>
    if nmbmGetBlockState ni ba ≠ blockStGood then nmbmWriteSignatureLoop signature k (ba - 1) ni
    else
      let b := nmbmCheckBadPhysBlock env ni ba
      if b.1 then
        nmbmWriteSignatureLoop signature k (ba - 1) (nmbmSetBlockState b.2 ba blockStBad)
      else
        let r := nmbmEraseBlockAndCheck c env b.2 ba
        if !r.1 then nmbmWriteSignatureLoop signature k (ba - 1) (skipBadBlock c env r.2 ba)
        else
          let w := nmbmWriteRepeatedData c env r.2 ba signature.bytes
          if w.1 then (some ba, w.2)
          else nmbmWriteSignatureLoop signature k (ba - 1) (skipBadBlock c env w.2 ba)

/-- `nmbm_write_signature`. -/
def nmbmWriteSignature (ni : Inst) (limit : ℕ) (signature : Signature) : Option ℕ × Inst :=
  nmbmWriteSignatureLoop c env signature (c.blockCount - 1 - limit) (c.blockCount - 1) ni

/-! ## Reading and writing byte ranges -/

/-- The loop of `nmbn_read_data`: `acc` has been read, `rem` bytes remain; `fuel` bounds the
iterations, each of which moves at least one byte. -/
def nmbnReadDataLoop : ℕ → ℕ → ℕ → List Byte → Inst → (ℤ × List Byte) × Inst
  | 0, _, _, acc, ni => ((0, acc), ni)
  | fuel + 1, off, rem, acc, ni =>
    if rem = 0 then ((0, acc), ni)
    else
      let leading := off % c.pgSize
      let chunksize := min (c.pgSize - leading) rem
      let r := nmbmReadPhysPage c env ni (off - leading)
      if r.1.1 < 0 then ((r.1.1, acc), r.2)
      else nmbnReadDataLoop fuel (off + chunksize) (rem - chunksize)
        (acc ++ (r.1.2.drop leading).take chunksize) r.2

/-- `nmbn_read_data`. -/
def nmbnReadData (ni : Inst) (addr size : ℕ) : (ℤ × List Byte) × Inst :=
  nmbnReadDataLoop c env size addr size [] ni

/-- The loop of `nmbn_write_verify_data`: `rest` is still to be written. -/
def nmbnWriteVerifyLoop : ℕ → ℕ → List Byte → Inst → Bool × Inst
  | 0, _, _, ni => (true, ni)
  | fuel + 1, off, rest, ni =>
    if rest = [] then (true, ni)
    else
      let leading := off % c.pgSize
      let chunk := rest.take (c.pgSize - leading)
      let page := List.replicate leading 0xff ++ chunk ++
        List.replicate (c.pgSize - leading - chunk.length) 0xff
      let w := nmbmWritePhysPage c env ni (off - leading) page
      if !w.1 then (false, w.2)
      else
        let r := nmbmReadPhysPage c env w.2 (off - leading)
        if r.1.1 < 0 then (false, r.2)
        else if (r.1.2.drop leading).take chunk.length ≠ chunk then (false, r.2)
        else nmbnWriteVerifyLoop fuel (off + chunk.length) (rest.drop chunk.length) r.2

/-- `nmbn_write_verify_data`. -/
def nmbnWriteVerifyData (ni : Inst) (addr : ℕ) (data : List Byte) : Bool × Inst :=
  nmbnWriteVerifyLoop c env data.length addr data ni

/-! ## Management data -/

/-- The loop of `nmbm_write_mgmt_range`, `k` blocks left below the limit: `rest` of the `size`
bytes is still to be written, `start` is the start block so far.  The result is the start block
and the block after the end. -/
def nmbmWriteMgmtRangeLoop (size : ℕ) : ℕ → ℕ → List Byte → ℕ → Inst → Option (ℕ × ℕ) × Inst
  | 0, ba, rest, start, ni => (if rest = [] then some (start, ba) else none, ni)
  | k + 1, ba, rest, start, ni =>
    if rest = [] then (some (start, ba), ni)
    else if nmbmGetBlockState ni ba ≠ blockStGood then
      nmbmWriteMgmtRangeLoop size k (ba + 1) rest start ni
    else
      let b := nmbmCheckBadPhysBlock env ni ba
      if b.1 then
        nmbmWriteMgmtRangeLoop size k (ba + 1) rest start (nmbmSetBlockState b.2 ba blockStBad)
      else
        let r := nmbmEraseBlockAndCheck c env b.2 ba
        if !r.1 then
          nmbmWriteMgmtRangeLoop size k (ba + 1) rest start (skipBadBlock c env r.2 ba)
        else
          let w := nmbnWriteVerifyData c env r.2 (c.ba2addr ba) (rest.take c.blkSize)
          if !w.1 then
            nmbmWriteMgmtRangeLoop size k (ba + 1) rest start (skipBadBlock c env w.2 ba)
          else
            nmbmWriteMgmtRangeLoop size k (ba + 1) (rest.drop c.blkSize)
              (if rest.length = size then ba else start) w.2

/-- `nmbm_write_mgmt_range`. -/
def nmbmWriteMgmtRange (ni : Inst) (ba limit : ℕ) (data : List Byte) : Option (ℕ × ℕ) × Inst :=
  nmbmWriteMgmtRangeLoop c env data.length (limit - ba) ba data 0 ni

/-- The header `nmbm_generate_info_table_cache` leaves in `ni->info_table`. -/
def generatedHeader (ni : Inst) : InfoTableHeader :=
  { ni.infoTable with
    magic := magicInfoTable
    version := nmbmVer
    size := UInt32.ofNat c.infoTableSize
    writeCount := if ni.changed then ni.infoTable.writeCount + 1 else ni.infoTable.writeCount }

/-- The image `nmbm_generate_info_table_cache` builds: state table, mapping table and header in a
buffer of `0xff`, with the checksum stored in the header. -/
def generatedImage (ni : Inst) : List Byte :=
  let buf := List.replicate c.infoTableSize 0xff
  let buf := splice buf ni.infoTable.stateTableOff.toNat (leWords ni.blockState)
  let buf := splice buf ni.infoTable.mappingTableOff.toNat (leWords ni.blockMapping)
  nmbmUpdateChecksum (splice buf 0 (generatedHeader c ni).bytes)

/-- `nmbm_generate_info_table_cache`: the result says whether there was a change. -/
def nmbmGenerateInfoTableCache (ni : Inst) : Bool × Inst :=
  (ni.changed, { ni with
    infoTableCache := generatedImage c ni
    infoTable := generatedHeader c ni
    unsaved := false })

/-- `nmbm_write_info_table`. -/
def nmbmWriteInfoTable (ni : Inst) (ba limit : ℕ) : Option (ℕ × ℕ) × Inst :=
  nmbmWriteMgmtRange c env ni ba limit ni.infoTableCache

/-- `nmbm_mark_tables_clean`. -/
def nmbmMarkTablesClean (ni : Inst) : Inst :=
  { ni with
    blockStateChanged := 0
    blockMappingChanged := 0
    lost := ni.lost || ni.unsaved }

end Nmbm
