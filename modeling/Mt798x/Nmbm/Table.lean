import Mt798x.Nmbm.Access

/-!
# Placing and updating the info tables

The functions of `mtk_bmt_nmbm.c` that put the main and the backup info table into the management
area, from `nmbm_try_reserve_blocks` to `nmbm_update_info_table`, and the allocation of spare
blocks (`nmbm_map_block`).

The loop of `nmbm_update_info_table` has no bound in the source.  Here it runs on fuel, and
`nmbmUpdateInfoTable_eq` in `Nmbm/Update.lean` shows that the fuel is never used up: the function
satisfies the equation of the `while` loop.
-/

namespace Nmbm

open Bytes Bmt

variable (c : Conf) (env : Env)

/-- The loop of `nmbm_try_reserve_blocks` with `min_count` 0: `nblocks` good blocks are to be
skipped, and fewer and fewer on failure. -/
def nmbmTryReserveLoop (ni : Inst) (ba limit : ℕ) : ℕ → Option ℕ
  | 0 => nmbmBlockWalkAsc c ni ba 0 limit
  | nblocks + 1 =>
    match nmbmBlockWalkAsc c ni ba (nblocks + 1) limit with
    | some nba => some nba
    | none => nmbmTryReserveLoop ni ba limit nblocks

/-- `nmbm_try_reserve_blocks` as all its callers use it: `info_table_spare_blocks` blocks, at
least 0, below `mapping_blocks_top_ba` less the size of a table. -/
def nmbmTryReserveBlocks (ni : Inst) (ba : ℕ) : Option ℕ :=
  nmbmTryReserveLoop c ni ba (u32Sub ni.mappingBlocksTopBa c.infoTableBlocks)
    c.infoTableSpareBlocks

/-- The loop that tries to write a table at `write_ba`, then one block earlier and so on down to
`lo`; `k` is the number of attempts left.  It stands in `nmbm_rescue_single_info_table` and twice
in `nmbm_rescue_main_info_table`. -/
def writeDownward : ℕ → ℕ → Inst → Option (ℕ × ℕ) × Inst
  | 0, _, ni => (none, ni)
  | k + 1, writeBa, ni =>
    match nmbmWriteInfoTable c env ni writeBa ni.mappingBlocksTopBa with
    | (some r, ni') => (some r, ni')
    | (none, ni') => writeDownward k (writeBa - 1) ni'

/-- `nmbm_rebuild_info_table`. -/
def nmbmRebuildInfoTable (ni : Inst) : Bool × Inst :=
  let ni := { ni with
    mainTableBa := 0
    backupTableBa := 0
    mappingBlocksBa := ni.mappingBlocksTopBa }
  -- Write main table
  match nmbmWriteInfoTable c env ni ni.mgmtStartBa ni.mappingBlocksTopBa with
  | (none, ni) => (false, { ni with isProtected := true })
  | (some (mainStart, mainEnd), ni) =>
    let ni := nmbmMarkTablesClean
      { ni with mainTableBa := mainStart, mappingBlocksBa := mainEnd }
    -- Reserve spare blocks for main info table
    match nmbmTryReserveBlocks c ni mainEnd with
    | none => (true, ni)
    | some nextStart =>
      -- Write backup info table
      match nmbmWriteInfoTable c env ni nextStart ni.mappingBlocksTopBa with
      | (none, ni) => (true, ni)
      | (some (tableStart, tableEnd), ni) =>
        let ni := { ni with backupTableBa := tableStart, mappingBlocksBa := tableEnd }
        (true, nmbmEraseRange c env ni mainEnd ni.backupTableBa)

/-- `nmbm_rescue_single_info_table`. -/
def nmbmRescueSingleInfoTable (ni : Inst) : Bool × Inst :=
  -- Try to write new info table in front of existing table
  match nmbmWriteInfoTable c env ni ni.mgmtStartBa ni.mainTableBa with
  | (some (tableStart, tableEnd), ni) =>
    let ni := { ni with backupTableBa := ni.mainTableBa, mainTableBa := tableStart }
    let ni := nmbmMarkTablesClean ni
    (true, nmbmEraseRange c env ni tableEnd ni.backupTableBa)
  | (none, ni) =>
    -- Try to reserve spare blocks for existing table
    match nmbmTryReserveBlocks c ni ni.mappingBlocksBa with
    | none => (false, ni)
    | some writeBa =>
      -- Try to write new info table next to the existing table
      match writeDownward c env (writeBa + 1 - ni.mappingBlocksBa) writeBa ni with
      | (none, ni) => (false, ni)
      | (some (tableStart, tableEnd), ni) =>
        let ni := nmbmEraseRange c env ni ni.mappingBlocksBa tableStart
        let ni := { ni with backupTableBa := tableStart, mappingBlocksBa := tableEnd }
        (true, nmbmMarkTablesClean ni)

/-- `nmbm_update_single_info_table`. -/
def nmbmUpdateSingleInfoTable (ni : Inst) (updateMainTable : Bool) : Bool × Inst :=
  if updateMainTable then
    match nmbmWriteInfoTable c env ni ni.mainTableBa ni.backupTableBa with
    | (some (tableStart, _), ni) =>
      (true, nmbmMarkTablesClean { ni with mainTableBa := tableStart })
    | (none, ni) =>
      nmbmRescueSingleInfoTable c env
        { ni with mainTableBa := ni.backupTableBa, backupTableBa := 0 }
  else
    match nmbmWriteInfoTable c env ni ni.backupTableBa ni.mappingBlocksTopBa with
    | (some (tableStart, tableEnd), ni) =>
      (true, nmbmMarkTablesClean
        { ni with backupTableBa := tableStart, mappingBlocksBa := tableEnd })
    | (none, ni) =>
      -- Only one table left
      (false, { ni with mappingBlocksBa := ni.backupTableBa, backupTableBa := 0 })

/-- The end of `nmbm_rescue_main_info_table` for a main table that reaches beyond the temporary
one: place a new backup table behind it. -/
def rescueMainNewBackup (ni : Inst) (mainEnd : ℕ) : Bool × Inst :=
  let ni := { ni with mappingBlocksBa := mainEnd }
  -- Try to reserve spare blocks for new main info table
  match nmbmTryReserveBlocks c ni mainEnd with
  | none => (true, { ni with backupTableBa := 0 })
  | some writeBa =>
    -- Write new backup info table
    match writeDownward c env (writeBa + 1 - mainEnd) writeBa ni with
    | (none, ni) => (true, { ni with backupTableBa := 0 })
    | (some (tmpStart, tmpEnd), ni) =>
      let ni := { ni with backupTableBa := tmpStart, mappingBlocksBa := tmpEnd }
      (true, nmbmEraseRange c env ni mainEnd ni.backupTableBa)

/-- `nmbm_rescue_main_info_table`. -/
def nmbmRescueMainInfoTable (ni : Inst) : Bool × Inst :=
  -- Try to reserve spare blocks for existing backup info table
  match nmbmTryReserveBlocks c ni ni.mappingBlocksBa with
  | none => (true, { ni with mainTableBa := ni.backupTableBa, backupTableBa := 0 })
  | some writeBa =>
    -- Try to write temporary info table into spare unmapped blocks
    match writeDownward c env (writeBa + 1 - ni.mappingBlocksBa) writeBa ni with
    | (none, ni) => (true, { ni with mainTableBa := ni.backupTableBa, backupTableBa := 0 })
    | (some (tmpStart, tmpEnd), ni) =>
      let ni := { ni with mappingBlocksBa := tmpEnd }
      -- Now write main info table at the beginning of management area
      match nmbmWriteInfoTable c env ni ni.mgmtStartBa tmpStart with
      | (none, ni) =>
        -- Temporary info table becomes the main table
        (true, nmbmMarkTablesClean { ni with mainTableBa := tmpStart, backupTableBa := 0 })
      | (some (mainStart, mainEnd), ni) =>
        let ni := nmbmMarkTablesClean { ni with mainTableBa := mainStart }
        -- Temporary info table becomes the new backup info table if it's not overwritten
        if mainEnd ≤ tmpStart then (true, { ni with backupTableBa := tmpStart })
        else rescueMainNewBackup c env ni mainEnd

/-- The part of `nmbm_update_info_table_once` from `write_main_table` on. -/
def updateWriteMainTable (ni : Inst) (mainTableLimit : ℕ) : Bool × Inst :=
  if ni.mainTableBa = 0 then nmbmRebuildInfoTable c env ni
  else
    -- Write main info table in its current range
    match nmbmWriteInfoTable c env ni ni.mainTableBa mainTableLimit with
    | (none, ni) =>
      if ni.backupTableBa = 0 then nmbmRebuildInfoTable c env ni
      else nmbmRescueMainInfoTable c env ni
    | (some (tableStart, tableEnd), ni) =>
      let ni := { ni with
        mainTableBa := tableStart
        mappingBlocksBa := if ni.backupTableBa = 0 then tableEnd else ni.mappingBlocksBa }
      (true, nmbmMarkTablesClean ni)

/-- `nmbm_update_info_table_once`. -/
def nmbmUpdateInfoTableOnce (ni : Inst) (force : Bool) : Bool × Inst :=
  let gen := nmbmGenerateInfoTableCache c ni
  let ni := gen.2
  -- Do nothing if there is no change
  if !gen.1 && !force then (true, ni)
  -- Check whether both two tables exist
  else if ni.backupTableBa = 0 then updateWriteMainTable c env ni ni.mappingBlocksTopBa
  else
    -- Write backup info table in its current range
    match nmbmWriteInfoTable c env ni ni.backupTableBa ni.mappingBlocksTopBa with
    | (none, ni) =>
      -- There is nothing to do if failed to write backup table
      let ni := { ni with mappingBlocksBa := ni.backupTableBa, backupTableBa := 0 }
      updateWriteMainTable c env ni ni.mappingBlocksTopBa
    | (some (tableStart, tableEnd), ni) =>
      let ni := nmbmMarkTablesClean
        { ni with backupTableBa := tableStart, mappingBlocksBa := tableEnd }
      updateWriteMainTable c env ni ni.backupTableBa

/-- The loop of `nmbm_update_info_table`. -/
def updateInfoTableLoop : ℕ → Inst → Bool × Inst
  | 0, ni => (true, ni)
  | fuel + 1, ni =>
    if ni.changed then
      match nmbmUpdateInfoTableOnce c env ni false with
      | (false, ni) => (false, ni)
      | (true, ni) => updateInfoTableLoop fuel ni
    else (true, ni)

/-- `nmbm_update_info_table`.  Every repetition needs a newly found bad block, so the number of
good blocks bounds the loop. -/
def nmbmUpdateInfoTable (ni : Inst) : Bool × Inst :=
  if ni.isProtected then (true, ni)
  else updateInfoTableLoop c env (TwoBit.count blockStGood ni.blockState + 2) ni

/-- `nmbm_map_block`. -/
def nmbmMapBlock (ni : Inst) (lb : ℕ) : Bool × Inst :=
  if ni.mappingBlocksBa = ni.mappingBlocksTopBa then (false, ni)
  else
    match nmbmBlockWalkDesc c ni ni.mappingBlocksTopBa 0 ni.mappingBlocksBa with
    | none =>
      let ni := (nmbmUpdateInfoTable c env ni).2
      (false, { ni with mappingBlocksTopBa := ni.mappingBlocksBa })
    | some pb =>
      (true, { ni with
        blockMapping := ni.blockMapping.set lb (UInt32.ofNat pb)
        mappingBlocksTopBa := ni.mappingBlocksTopBa - 1
        blockMappingChanged := ni.blockMappingChanged + 1
        skipped := ni.skipped ||
          nmbmGetBlockState ni ni.mappingBlocksTopBa != blockStGood })

end Nmbm
