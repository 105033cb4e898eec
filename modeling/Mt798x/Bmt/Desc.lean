import Mt798x.Bmt.Chip

/-!
# Operations shared by the block managers

From `mtk_bmt.c` and `mtk_bmt.h`: the erase and the page copy on behalf of the user's data
(`bbt_nand_erase`, `bbt_nand_copy`), and the remap ranges of the device tree
(`mapping_block_in_range`).
-/

namespace Bmt

open Bytes

/-- `-EIO`. -/
def errIo : ℤ := -5

/-- Truncation of a block number to the `u16` parameters of the block managers. -/
def u16 (n : ℕ) : ℕ := n % 2 ^ 16

section Copy

variable (g : Geom) (env : Env)

/-- `bbt_nand_erase`. -/
def bbtNandErase (chip : Chip) (block : ℕ) : Bool × Chip := chip.erase g env false block

/-- The page loop of `bbt_nand_copy`: `k` pages left, `offset` bytes copied.  The out-of-band
bytes are not copied, because `wr_ops.ooblen` is still 0 when the page is written. -/
def bbtNandCopyLoop (dest src maxOffset : ℕ) : ℕ → ℕ → Chip → ℤ × Chip
  | 0, _, chip => (0, chip)
  | k + 1, offset, chip =>
    if offset ≥ maxOffset then (0, chip)
    else
      let r := chip.read g env (g.pageOf (src * g.blkSize + offset))
      if r.1.1 < 0 ∧ r.1.1 ≠ eUCLEAN then (r.1.1, r.2)
      else
        let w := r.2.write g env false (g.pageOf (dest * g.blkSize + offset)) r.1.2.data 0 []
        if !w.1 then (errIo, w.2)
        else bbtNandCopyLoop dest src maxOffset k (offset + g.pgSize) w.2

/-- `bbt_nand_copy`: copy the pages of `src` below `max_offset` to `dest`, up to the first page
that cannot be read or written. -/
def bbtNandCopy (chip : Chip) (dest src maxOffset : ℕ) : ℤ × Chip :=
  bbtNandCopyLoop g env dest src maxOffset g.ppb 0 chip

lemma works_bbtNandCopyLoop (dest src maxOffset k offset : ℕ) (chip : Chip)
    (hk : offset + k * g.pgSize ≤ g.blkSize) :
    Works g false dest (dest + 1) chip
      (bbtNandCopyLoop g env dest src maxOffset k offset chip).2 := by
  induction k generalizing offset chip with
  | zero => exact Works.refl _ _ _ _ _
  | succ k ih =>
    have hpg := g.pgSize_pos
    rw [Nat.add_mul, Nat.one_mul] at hk
    have hblk : g.blockOf (g.pageOf (dest * g.blkSize + offset)) = dest := by
      rw [Geom.blockOf_pageOf]
      refine Nat.div_eq_of_lt_le (Nat.le_add_right _ _) ?_
      rw [Nat.add_mul, Nat.one_mul]
      omega
    rw [bbtNandCopyLoop]
    split
    · exact Works.refl _ _ _ _ _
    · have hr : Works g false dest (dest + 1) chip
          (chip.read g env (g.pageOf (src * g.blkSize + offset))).2 :=
        Works.of_tock (Chip.read_log g env chip _) (Chip.read_flash g env chip _)
      dsimp only
      split
      · exact hr
      · have hw := Chip.works_write g env false
          (chip.read g env (g.pageOf (src * g.blkSize + offset))).2
          (g.pageOf (dest * g.blkSize + offset))
          (chip.read g env (g.pageOf (src * g.blkSize + offset))).1.2.data 0 []
        rw [hblk] at hw
        split
        · exact hr.trans hw
        · exact (hr.trans hw).trans (ih _ _ (by omega))

lemma works_bbtNandCopy (dest src maxOffset : ℕ) (chip : Chip) :
    Works g false dest (dest + 1) chip (bbtNandCopy g env chip dest src maxOffset).2 := by
  refine works_bbtNandCopyLoop g env dest src maxOffset _ 0 chip ?_
  rw [g.blkSize_eq, Nat.mul_comm]
  omega

end Copy

/-! ## Remap ranges -/

/-- The remap ranges of the device tree, as pairs of byte addresses; `none` when the property is
missing or empty. -/
abbrev RemapRange := Option (List (ℕ × ℕ))

/-- `mapping_block_in_range`: the start and end reported for the block, `none` when the block is
in no range.  Without ranges the end is a number of blocks, not of bytes. -/
def mappingBlockInRange (g : Geom) (ranges : RemapRange) (block : ℕ) : Option (ℕ × ℕ) :=
  match ranges with
  | none => some (0, g.totalBlks)
  | some rs =>
    let addr := block * g.blkSize % 2 ^ 32
    rs.find? fun r => !(addr < r.1 || addr ≥ r.2)

end Bmt
