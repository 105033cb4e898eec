import Mt798x.Bmt.Desc
import Mt798x.Nmbm.Table

/-!
# Creating, loading and using an instance

The rest of `mtk_bmt_nmbm.c`: building a new set of tables (`nmbm_create_new`), finding and
loading existing ones (`nmbm_load_info_table`), `nmbm_attach`, and the operations the common layer
calls (`remap_block_nmbm`, `get_mapping_block_index_nmbm`, `unmap_block_nmbm`).
-/

namespace Nmbm

open Bytes Bmt

variable (c : Conf) (env : Env)

/-! ## Creation -/

/-- The loop of `nmbm_create_info_table` that maps the logical blocks left over at the end of the
data area; `k` blocks left, `lb` the next one. -/
def createMapLoop : ℕ → ℕ → Inst → Inst
  | 0, _, ni => ni
  | k + 1, lb, ni =>
    match nmbmMapBlock c env ni lb with
    | (false, ni) => ni
    | (true, ni) => createMapLoop k (lb + 1) { ni with dataBlockCount := ni.dataBlockCount + 1 }

/-- `nmbm_create_info_table`. -/
def nmbmCreateInfoTable (ni : Inst) : Bool × Inst :=
  match nmbmBlockWalkDesc c ni ni.signatureBa 1 ni.mgmtStartBa with
  | none => (false, ni)
  | some top =>
    let ni := { ni with mappingBlocksTopBa := top }
    let ni := (nmbmGenerateInfoTableCache c ni).2
    match nmbmRebuildInfoTable c env ni with
    | (false, ni) => (false, ni)
    | (true, ni) =>
      -- Remap bad block(s) at end of data area
      let ni := createMapLoop c env (ni.mgmtStartBa - ni.dataBlockCount) ni.dataBlockCount ni
      -- If state table and/or mapping table changed, update info table
      nmbmUpdateInfoTable c env ni

/-- The boundary of the management blocks on a new chip. -/
def newMgmtStart : ℕ :=
  let start := u32Mul c.blockCount (u32Sub mgmtDiv c.maxRatio) / mgmtDiv
  if c.maxReservedBlocks ≠ 0 ∧ u32Sub c.blockCount start > c.maxReservedBlocks then
    u32Sub c.blockCount c.maxReservedBlocks
  else start

/-- The signature `nmbm_create_new` writes. -/
def newSignature (s : Signature) (mgmtStart : ℕ) : Signature :=
  let s := { s with
    magic := magicSignature
    version := nmbmVer
    size := UInt32.ofNat signatureSize
    nandSizeLo := UInt32.ofNat c.nandSize
    nandSizeHi := UInt32.ofNat (c.nandSize / 2 ^ 32)
    blockSize := UInt32.ofNat c.blkSize
    pageSize := UInt32.ofNat c.pgSize
    spareSize := UInt32.ofNat c.oobsize
    mgmtStartPb := UInt32.ofNat mgmtStart
    maxTryCount := UInt32.ofNat tryCount }
  Signature.ofBytes (nmbmUpdateChecksum s.bytes)

/-- `nmbm_create_new`. -/
def nmbmCreateNew (ni : Inst) : Bool × Inst :=
  let ni := { ni with mgmtStartBa := newMgmtStart c }
  -- Fill block state table & mapping table
  let ni := nmbmScanBadblocks c env ni
  let ni := nmbmBuildMappingTable c ni
  -- Write signature
  let ni := { ni with signature := newSignature c ni.signature ni.mgmtStartBa }
  match nmbmWriteSignature c env ni ni.mgmtStartBa ni.signature with
  | (none, ni) => (false, ni)
  | (some ba, ni) => nmbmCreateInfoTable c env { ni with signatureBa := ba }

/-! ## Loading -/

/-- `nmbm_check_info_table_header`. -/
def nmbmCheckInfoTableHeader (hdr : InfoTableHeader) : Bool :=
  hdr.magic == magicInfoTable &&
  hdr.size.toNat == c.infoTableSize &&
  !(u32Sub hdr.mappingTableOff.toNat hdr.stateTableOff.toNat < c.stateTableSize) &&
  !(u32Sub c.infoTableSize hdr.mappingTableOff.toNat < c.mappingTableSize)

/-- The mapping loop of `nmbm_check_info_table`: `k` entries left, `minPb` the smallest remapped
block so far. -/
def checkMappingLoop (mapping : ℕ → ℕ) (dataBlockCount signatureBa endBa : ℕ) :
    ℕ → ℕ → ℕ → Option ℕ
  | 0, _, minPb => some minPb
  | k + 1, ba, minPb =>
    let pb := mapping ba
    if (pb ≥ dataBlockCount ∧ pb < endBa) ∨ pb = signatureBa then none
    else checkMappingLoop mapping dataBlockCount signatureBa endBa k (ba + 1)
      (if pb ≥ endBa ∧ pb < minPb then pb else minPb)

/-- The state loop of `nmbm_check_info_table`: `k` blocks left. -/
def checkStateLoop (ni : Inst) (blockState : ℕ → UInt32) : ℕ → ℕ → Bool
  | 0, _ => true
  | k + 1, ba =>
    if nmbmGetBlockState ni ba ≠ blockStGood then checkStateLoop ni blockState k (ba + 1)
    else if blockState ba ≠ blockStGood then false
    else checkStateLoop ni blockState k (ba + 1)

/-- The state table in an info table. -/
def tableState (data : List Byte) : List UInt32 :=
  rdWords c.stateWords (data.drop (InfoTableHeader.ofBytes data).stateTableOff.toNat)

/-- The mapping table in an info table. -/
def tableMapping (data : List Byte) : List UInt32 :=
  rdWords c.blockCount (data.drop (InfoTableHeader.ofBytes data).mappingTableOff.toNat)

/-- `nmbm_check_info_table`: the block address below the lowest remapped block if the table is
acceptable. -/
def nmbmCheckInfoTable (ni : Inst) (startBa endBa : ℕ) (data : List Byte) : Option ℕ :=
  match checkMappingLoop (fun ba => ((tableMapping c data).getD ba 0).toNat) ni.dataBlockCount
      ni.signatureBa endBa ni.dataBlockCount 0 ni.signatureBa with
  | none => none
  | some minPb =>
    if checkStateLoop ni (nmbmGetBlockStateRaw (tableState c data)) (endBa - startBa) startBa then
      some (u32Sub minPb 1)
    else none

/-- The read loop of `nmbm_try_load_info_table`: `k` blocks left below the limit, `rem` bytes still
to be read, `start` the start block once the header has been seen.  The result is `none` when a
header is refused, otherwise the remaining size, the start block and the block after the end. -/
def tryLoadLoop : ℕ → ℕ → ℕ → Option ℕ → Inst → Option (ℕ × ℕ × ℕ) × Inst
  | 0, ba, rem, start, ni => (some (rem, start.getD 0, ba), ni)
  | k + 1, ba, rem, start, ni =>
    if rem = 0 then (some (rem, start.getD 0, ba), ni)
    else if nmbmGetBlockState ni ba ≠ blockStGood then tryLoadLoop k (ba + 1) rem start ni
    else
      let b := nmbmCheckBadPhysBlock env ni ba
      if b.1 then tryLoadLoop k (ba + 1) rem start (nmbmSetBlockState b.2 ba blockStBad)
      else
        let chunksize := min rem c.blkSize
        let r := nmbnReadData c env b.2 (c.ba2addr ba) chunksize
        -- Assume block with ECC error has no info table data
        if r.1.1 < 0 then tryLoadLoop k (ba + 1) rem start (nmbmSetBlockState r.2 ba blockStBad)
        else if r.1.1 > 0 then (none, r.2)
        else
          let off := c.infoTableSize - rem
          let ni := { r.2 with infoTableCache := splice r.2.infoTableCache off r.1.2 }
          if start = none ∧ !nmbmCheckInfoTableHeader c
              (InfoTableHeader.ofBytes (ni.infoTableCache.drop off)) then (none, ni)
          else tryLoadLoop k (ba + 1) (rem - chunksize) (some (start.getD ba)) ni

/-- The end of `nmbm_try_load_info_table`: take over the table in the cache. -/
def loadTable (ni : Inst) : Inst :=
  { ni with
    infoTable := InfoTableHeader.ofBytes ni.infoTableCache
    blockState := tableState c ni.infoTableCache
    blockMapping := tableMapping c ni.infoTableCache
    unsaved := false }

/-- `nmbm_try_load_info_table`: the block after the end of the table, its write count and the
block address below its lowest remapped block. -/
def nmbmTryLoadInfoTable (ni : Inst) (ba : ℕ) (tableLoaded : Bool) :
    Option (ℕ × UInt32 × ℕ) × Inst :=
  match tryLoadLoop c env c.infoTableBlocks ba c.infoTableSize none ni with
  | (none, ni) => (none, ni)
  | (some (rem, startBa, endBa), ni) =>
    if rem ≠ 0 then (none, ni)
    else if !nmbmCheckHeader ni.infoTableCache c.infoTableSize then (none, ni)
    else
      match nmbmCheckInfoTable c ni startBa endBa ni.infoTableCache with
      | none => (none, ni)
      | some top =>
        let wc := (InfoTableHeader.ofBytes ni.infoTableCache).writeCount
        (some (endBa, wc, top),
          if !tableLoaded || wc > ni.infoTable.writeCount then loadTable c ni else ni)

/-- The loop of `nmbm_search_info_table`, `k` start blocks left. -/
def nmbmSearchInfoTableLoop (tableLoaded : Bool) :
    ℕ → ℕ → Inst → Option (ℕ × ℕ × UInt32 × ℕ) × Inst
  | 0, _, ni => (none, ni)
  | k + 1, ba, ni =>
    match nmbmTryLoadInfoTable c env ni ba tableLoaded with
    | (some (endBa, wc, top), ni) => (some (ba, endBa, wc, top), ni)
    | (none, ni) => nmbmSearchInfoTableLoop tableLoaded k (ba + 1) ni

/-- `nmbm_search_info_table`: start and end of the first acceptable table, its write count and the
block address below its lowest remapped block. -/
def nmbmSearchInfoTable (ni : Inst) (ba limit : ℕ) (tableLoaded : Bool) :
    Option (ℕ × ℕ × UInt32 × ℕ) × Inst :=
  nmbmSearchInfoTableLoop c env tableLoaded (u32Sub limit c.infoTableBlocks - ba) ba ni

/-- The loop that sets the final `data_block_count`: the last entry of the first `i` that is not
negative. -/
def lastMapped (ni : Inst) : ℕ → Option ℕ
  | 0 => none
  | i + 1 => if (ni.mapping i).toNat < 2 ^ 31 then some (i + 1) else lastMapped ni i

/-- The end of `nmbm_load_info_table`: without spare blocks, or with only one table left, the
device becomes read-only. -/
def protectIfExhausted (success : Bool) (ni : Inst) : Inst :=
  { ni with isProtected :=
      ni.isProtected || ni.mappingBlocksBa == ni.mappingBlocksTopBa || !success }

/-- The assignments of `nmbm_load_info_table` before its searches. -/
def resetTables (ni : Inst) : Inst :=
  { ni with
    mainTableBa := 0
    backupTableBa := 0
    infoTable := { ni.infoTable with writeCount := 0 }
    mappingBlocksTopBa := u32Sub ni.signatureBa 1
    dataBlockCount := ni.signature.mgmtStartPb.toNat }

/-- The assignments of `nmbm_load_info_table` after its two searches: pick
`mapping_blocks_top_ba`, set the final `mapping_blocks_ba` and `data_block_count`.  One of two
tables that differ is going to be rewritten, so a block that turned bad after loading may miss the
other one. -/
def settleTables (ni : Inst) (mainWc : UInt32) (mainTop backupBa tableEnd : ℕ) (backupWc : UInt32)
    (backupTop : ℕ) : Inst :=
  { ni with
    backupTableBa := backupBa
    mappingBlocksTopBa :=
      if backupBa = 0 then mainTop else if mainWc ≥ backupWc then mainTop else backupTop
    mappingBlocksBa := tableEnd
    dataBlockCount :=
      (lastMapped ni ni.signature.mgmtStartPb.toNat).getD ni.dataBlockCount
    lost := ni.lost || (ni.unsaved && (backupBa == 0 || mainWc != backupWc)) }

/-- The end of `nmbm_load_info_table`: bring back the table that is missing or behind. -/
def restoreTables (ni : Inst) (mainWc backupWc : UInt32) : Bool × Inst :=
  if ni.backupTableBa = 0 then nmbmRescueSingleInfoTable c env ni
  else if mainWc ≠ backupWc then
    nmbmUpdateSingleInfoTable c env
      { ni with blockStateChanged := 1, blockMappingChanged := 1 } (decide (mainWc < backupWc))
  else (true, ni)

/-- `nmbm_load_info_table`. -/
def nmbmLoadInfoTable (ni : Inst) (ba limit : ℕ) : Bool × Inst :=
  -- Find first info table
  match nmbmSearchInfoTable c env (resetTables ni) ba limit false with
  | (none, ni) => (false, ni)
  | (some (mainBa, mainEnd, mainWc, mainTop), ni) =>
    -- Find second info table
    let second := nmbmSearchInfoTable c env { ni with mainTableBa := mainBa } mainEnd limit true
    let (backupBa, tableEnd, backupWc, backupTop) :=
      second.1.getD (0, mainEnd, mainWc, mainTop)
    let ni := settleTables second.2 mainWc mainTop backupBa tableEnd backupWc backupTop
    -- Regenerate the info table cache from the final selected info table
    let ni := (nmbmGenerateInfoTableCache c ni).2
    let r := restoreTables c env ni mainWc backupWc
    (true, protectIfExhausted r.1 r.2)

/-- `nmbm_load_existing`. -/
def nmbmLoadExisting (ni : Inst) : Bool × Inst :=
  let ni := { ni with mgmtStartBa := ni.signature.mgmtStartPb.toNat }
  -- Look for info table(s)
  match nmbmLoadInfoTable c env ni ni.mgmtStartBa ni.signatureBa with
  | (true, ni) => (true, ni)
  | (false, ni) =>
    if !c.forceCreate then (false, ni)
    else
      -- Fill block state table & mapping table
      let ni := nmbmScanBadblocks c env ni
      let ni := nmbmBuildMappingTable c ni
      nmbmCreateInfoTable c env ni

/-! ## The signature -/

/-- The page loop of `nmbm_find_signature`, `k` pages of the block left. -/
def findSignaturePages : ℕ → ℕ → Inst → Option Signature × Inst
  | 0, _, ni => (none, ni)
  | k + 1, addr, ni =>
    let r := nmbnReadData c env ni addr signatureSize
    if r.1.1 = 0 ∧ nmbmCheckHeader r.1.2 signatureSize ∧ rd32 r.1.2 = magicSignature then
      (some (Signature.ofBytes r.1.2), r.2)
    else findSignaturePages k (addr + c.pgSize) r.2

/-- The block loop of `nmbm_find_signature`: `k` blocks left, `ba` the block just above them. -/
def findSignatureBlocks : ℕ → ℕ → Inst → Option (Signature × ℕ) × Inst
  | 0, _, ni => (none, ni)
  | k + 1, ba, ni =>
    let b := nmbmCheckBadPhysBlock env ni (ba - 1)
    if b.1 then findSignatureBlocks k (ba - 1) b.2
    else
      match findSignaturePages c env c.ppb (c.ba2addr (ba - 1)) b.2 with
      | (some sig, ni) => (some (sig, ba - 1), ni)
      | (none, ni) => findSignatureBlocks k (ba - 1) ni

/-- The lowest block address at which the loop of `nmbm_find_signature` goes on. -/
def signatureLimit : ℕ :=
  let limit := u32Mul (c.blockCount / mgmtDiv) (u32Sub mgmtDiv c.maxRatio)
  if c.maxReservedBlocks ≠ 0 ∧ u32Sub c.blockCount limit > c.maxReservedBlocks then
    u32Sub c.blockCount c.maxReservedBlocks
  else limit

/-- How the search for the signature ends.  With a limit of 0 the condition `ba >= limit` of the
loop never fails: unless a signature is found first, it leaves the chip at block 0 and runs on
over wrapped addresses. -/
inductive SignatureSearch
  | found (sig : Signature) (ba : ℕ)
  | missing
  | runaway

/-- `nmbm_find_signature`. -/
def nmbmFindSignature (ni : Inst) : SignatureSearch × Inst :=
  let limit := signatureLimit c
  match findSignatureBlocks c env (min c.blockCount (c.blockCount + 1 - limit)) c.blockCount ni with
  | (some (sig, ba), ni) => (.found sig ba, ni)
  | (none, ni) => (if limit = 0 then .runaway else .missing, ni)

/-! ## Attaching -/

/-- The instance after `kzalloc` and `nmbm_init_structure`. -/
def nmbmInitStructure (chip : Chip) : Inst where
  chip := chip
  signature := ⟨0, 0, 0, 0, 0, 0, 0, 0, 0, 0, 0, 0⟩
  infoTableCache := List.replicate c.infoTableSize 0
  infoTable := ⟨0, 0, 0, 0, 0, UInt32.ofNat c.stateTableOff, UInt32.ofNat c.mappingTableOff, 0⟩
  blockState := List.replicate c.stateWords 0xffffffff
  blockStateChanged := 0
  blockMapping := List.replicate c.blockCount 0
  blockMappingChanged := 0
  isProtected := false
  dataBlockCount := 0
  mgmtStartBa := 0
  mainTableBa := 0
  backupTableBa := 0
  mappingBlocksBa := 0
  mappingBlocksTopBa := 0
  signatureBa := 0
  unsaved := false
  lost := false
  skipped := false

/-- `-ENODEV`. -/
def eNODEV : ℤ := -19

/-- `-EINVAL`. -/
def eINVAL : ℤ := -22

/-- The checks of `nmbm_attach` on the signature that was found. -/
def signatureMatches (s : Signature) : Bool :=
  s.nandSizeLo == UInt32.ofNat c.nandSize && s.nandSizeHi == UInt32.ofNat (c.nandSize / 2 ^ 32) &&
  s.blockSize == UInt32.ofNat c.blkSize && s.pageSize == UInt32.ofNat c.pgSize &&
  s.spareSize == UInt32.ofNat c.oobsize

/-- `nmbm_attach`; `none` when the search for the signature does not end. -/
def nmbmAttach (chip : Chip) : Option (ℤ × Inst) :=
  match nmbmFindSignature c env (nmbmInitStructure c chip) with
  | (.runaway, _) => none
  | (.missing, ni) =>
    if !c.forceCreate then some (eNODEV, ni)
    else
      match nmbmCreateNew c env ni with
      | (true, ni) => some (0, ni)
      | (false, ni) => some (eNODEV, ni)
  | (.found sig ba, ni) =>
    let ni := { ni with signature := sig, signatureBa := ba }
    if sig.version ≠ nmbmVer then some (eINVAL, ni)
    else if !signatureMatches c sig then some (eINVAL, ni)
    else
      match nmbmLoadExisting c env ni with
      | (true, ni) => some (0, ni)
      | (false, ni) => some (eNODEV, ni)

/-! ## Operations of the block manager -/

/-- `remap_block_nmbm`. -/
def remapBlockNmbm (ni : Inst) (block mappedBlock copyLen : ℕ) : Bool × Inst :=
  if block ≥ ni.dataBlockCount then (false, ni)
  else
    match nmbmMapBlock c env (nmbmSetBlockState ni mappedBlock blockStBad) block with
    | (false, ni) => (false, ni)
    | (true, ni) =>
      let newBlock := u16 (ni.mapping block).toNat
      let chip := (bbtNandErase c.toGeom env ni.chip newBlock).2
      let chip :=
        if copyLen > 0 then (bbtNandCopy c.toGeom env chip newBlock mappedBlock copyLen).2 else chip
      (true, (nmbmUpdateInfoTable c env { ni with chip := chip }).2)

end Nmbm
