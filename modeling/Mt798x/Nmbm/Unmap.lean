import Mt798x.Nmbm.Load

/-!
# Unmapping and runs with unmapping

`unmap_block_nmbm` gives a remapped logical block its old physical block back.  It is called from
the debug files of the common layer, at any time.  `Serves` are the states of a device that is
attached once and whose blocks are remapped and unmapped after that, in any order.
-/

namespace Nmbm

open Bytes Bmt

variable (c : Conf) (env : Env)

/-- The entry of `block_mapping` as the `int32_t` it is. -/
def Inst.mappingInt (ni : Inst) (lb : ℕ) : ℤ :=
  let v := (ni.mapping lb).toNat
  if v < 2 ^ 31 then v else (v : ℤ) - 2 ^ 32

/-- The first loop of `unmap_block_nmbm`: the nearest block at or below `start` that is not
remapped.  The comparison with `mapping_blocks_ba` is unsigned. -/
def unmapStart (ni : Inst) : ℕ → Option ℕ
  | 0 => if (ni.mapping 0).toNat ≥ ni.mappingBlocksBa then none else some 0
  | start + 1 =>
    if (ni.mapping (start + 1)).toNat ≥ ni.mappingBlocksBa then unmapStart ni start
    else some (start + 1)

/-- The second loop of `unmap_block_nmbm`: `k` blocks left, `block` the next one.  Here the
comparison with the new watermark is signed. -/
def unmapTopLoop (ni : Inst) : ℕ → ℕ → ℤ → ℤ
  | 0, _, top => top
  | k + 1, block, top =>
    if (ni.mapping block).toNat < ni.mappingBlocksBa then unmapTopLoop ni k (block + 1) top
    else
      unmapTopLoop ni k (block + 1)
        (if ni.mappingInt block ≤ top then ni.mappingInt block - 1 else top)

/-- The new `mapping_blocks_top_ba`: below the lowest block that is still remapped to. -/
def unmapTop (ni : Inst) : ℕ :=
  (unmapTopLoop ni ni.dataBlockCount 0 (ni.signatureBa - 1) % 2 ^ 32).toNat

/-- The state in which `unmap_block_nmbm` calls `nmbm_update_info_table`; `none` when it returns
before that. -/
def unmapped (ni : Inst) (block : ℕ) : Option Inst :=
  if block ≥ ni.dataBlockCount then none
  else
    match unmapStart ni block with
    | none => none
    | some start =>
      if start = block then none
      else
        let newBlock := UInt32.ofNat ((ni.mapping start).toNat + (block - start))
        let ni := nmbmSetBlockState ni newBlock.toNat blockStGood
        let ni := { ni with
          blockMapping := ni.blockMapping.set block newBlock
          blockMappingChanged := ni.blockMappingChanged + 1 }
        some { ni with mappingBlocksTopBa := unmapTop ni }

/-- `unmap_block_nmbm`. -/
def unmapBlockNmbm (ni : Inst) (block : ℕ) : Inst :=
  match unmapped ni block with
  | none => ni
  | some ni => (nmbmUpdateInfoTable c env ni).2

/-- The states after a successful `nmbm_attach` and any sequence of `remap_block_nmbm` and
`unmap_block_nmbm`. -/
inductive Serves (chip : Chip) : Inst → Prop
  | attach {ni : Inst} (h : nmbmAttach c env chip = some (0, ni)) : Serves chip ni
  | remap {ni : Inst} (h : Serves chip ni) (block mappedBlock copyLen : ℕ) :
      Serves chip (remapBlockNmbm c env ni block mappedBlock copyLen).2
  | unmap {ni : Inst} (h : Serves chip ni) (block : ℕ) : Serves chip (unmapBlockNmbm c env ni block)

/-- The states of `nmbm_create_info_table` in which `nmbm_update_info_table` may be called, the
rebuilt tables first and then one more mapped block each. -/
inductive Fills : Inst → Prop
  | rebuilt {ni0 ni : Inst} {top : ℕ}
      (hwalk : nmbmBlockWalkDesc c ni0 ni0.signatureBa 1 ni0.mgmtStartBa = some top)
      (hbuild : nmbmRebuildInfoTable c env
        (nmbmGenerateInfoTableCache c { ni0 with mappingBlocksTopBa := top }).2 = (true, ni)) :
      Fills ni
  | mapped {ni ni1 : Inst} {lb : ℕ} (h : Fills ni) (hmap : nmbmMapBlock c env ni lb = (true, ni1)) :
      Fills { ni1 with dataBlockCount := ni1.dataBlockCount + 1 }
  | full {ni ni1 : Inst} {lb : ℕ} (h : Fills ni) (hmap : nmbmMapBlock c env ni lb = (false, ni1)) :
      Fills ni1

/-- The states in which `nmbm_update_info_table` may be called: while the tables are created, in
any state of a device in service, in `remap_block_nmbm` after the old block was marked bad and
after the new one was filled, and at the end of `unmap_block_nmbm`. -/
inductive Saves (chip : Chip) : Inst → Prop
  | filling {ni : Inst} (h : Fills c env ni) : Saves chip ni
  | idle {ni : Inst} (h : Serves c env chip ni) : Saves chip ni
  | marked {ni : Inst} (h : Serves c env chip ni) (mappedBlock : ℕ) :
      Saves chip (nmbmSetBlockState ni mappedBlock blockStBad)
  | moved {ni ni1 : Inst} (h : Serves c env chip ni) (block mappedBlock copyLen : ℕ)
      (hmap : nmbmMapBlock c env (nmbmSetBlockState ni mappedBlock blockStBad) block =
        (true, ni1)) :
      Saves chip { ni1 with chip := movedChip c env ni1 block mappedBlock copyLen }
  | unmapped {ni ni1 : Inst} (h : Serves c env chip ni) (block : ℕ)
      (hun : unmapped ni block = some ni1) : Saves chip ni1

end Nmbm
