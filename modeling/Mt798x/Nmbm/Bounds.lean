import Mt798x.Nmbm.Signature

/-!
# When creation and search agree

On a device whose operations all succeed `nmbm_create_new` succeeds as soon as one table fits
between the management start and the highest block that is not marked bad, with a block to spare.
The signature may therefore come to lie that low, and the search finds it on every chip exactly if
its limit is not above that.
-/

namespace Nmbm

open Bytes Bmt

variable {c : Conf}

/-! ## Pages and blocks -/

lemma erasePhysBlock_ideal (ni : Inst) (ba : ℕ) :
    nmbmErasePhysBlock c Env.ideal ni ba =
      (true, { ni with chip := (ni.chip.erase c.toGeom Env.ideal true ba).2 }) := rfl

/-- Erasing succeeds and leaves blank pages. -/
lemma eraseBlockAndCheck_ideal (ni : Inst) (ba : ℕ) :
    (nmbmEraseBlockAndCheck c Env.ideal ni ba).1 = true ∧
      ∀ page, c.blockOf page = ba →
        (nmbmEraseBlockAndCheck c Env.ideal ni ba).2.chip.flash.pages page = some c.blankPage := by
  have hblank : ∀ page, c.blockOf page = ba →
      (ni.chip.erase c.toGeom Env.ideal true ba).2.flash.pages page = some c.blankPage := by
    intro page hpage
    show (if c.blockOf page = ba then _ else _) = _
    rw [if_pos hpage]
    rfl
  -- the check reads blank pages
  have hloop : ∀ (k addr : ℕ) (ni : Inst),
      (∀ j < k, ni.chip.flash.pages (c.pageOf (addr + j * c.pgSize)) = some c.blankPage) →
      (nmbmEraseCheckLoop c Env.ideal k addr ni).1 = true ∧
        (nmbmEraseCheckLoop c Env.ideal k addr ni).2.chip.flash = ni.chip.flash := by
    intro k
    induction k with
    | zero => intro _ ni _; exact ⟨rfl, rfl⟩
    | succ k ih =>
      intro addr ni hpages
      have hread := readPhysPage_ideal c ni addr
      have h0 := hpages 0 (Nat.succ_pos k)
      rw [Nat.zero_mul, Nat.add_zero] at h0
      rw [h0] at hread
      rw [nmbmEraseCheckLoop, hread, if_neg (show ¬(0 : ℤ) = eBADMSG by decide)]
      obtain ⟨h1, h2⟩ := ih (addr + c.pgSize) (nmbmReadPhysPage c Env.ideal ni addr).2
        (fun j hj => by
          rw [readPhysPage_flash, show addr + c.pgSize + j * c.pgSize = addr + (j + 1) * c.pgSize by
            rw [Nat.add_mul, Nat.one_mul]; omega]
          exact hpages (j + 1) (by omega))
      exact ⟨h1, by rw [h2, readPhysPage_flash]⟩
  rw [nmbmEraseBlockAndCheck, erasePhysBlock_ideal]
  dsimp only
  rw [if_neg (by decide)]
  split
  · exact ⟨rfl, hblank⟩
  · obtain ⟨h1, h2⟩ := hloop c.ppb (c.ba2addr ba)
      { ni with chip := (ni.chip.erase c.toGeom Env.ideal true ba).2 } (fun j hj => hblank _ (by
        refine blockOf_pageOf_block c (Nat.le_add_right _ _) ?_
        rw [← c.ba2addr_succ, c.blkSize_eq, Nat.mul_comm c.pgSize]
        exact Nat.add_lt_add_left (Nat.mul_lt_mul_of_pos_right hj c.pgSize_pos) _))
    refine ⟨h1, fun page hpage => ?_⟩
    rw [h2]
    exact hblank page hpage

lemma writePhysPage_ideal {ni : Inst} {addr : ℕ} {data : List Byte}
    (h : ni.chip.flash.pages (c.pageOf addr) = some c.blankPage) :
    (nmbmWritePhysPage c Env.ideal ni addr data).1 = true ∧
      ∃ oob, (nmbmWritePhysPage c Env.ideal ni addr data).2.chip.flash.pages (c.pageOf addr) =
        some ⟨data, oob⟩ := by
  refine ⟨rfl, splice c.blankPage.oob 0 [], ?_⟩
  show (if c.pageOf addr = c.pageOf addr then _ else _) = _
  rw [if_pos rfl]
  show (if true = true ∧ ni.chip.flash.pages (c.pageOf addr) = some c.toGeom.blankPage then _
    else _) = _
  rw [if_pos ⟨rfl, h⟩]

lemma readPhysPage_written {ni : Inst} {addr : ℕ} {data : List Byte}
    (h : ni.chip.flash.pages (c.pageOf addr) = some c.blankPage) (hlen : data.length = c.pgSize) :
    (nmbmReadPhysPage c Env.ideal (nmbmWritePhysPage c Env.ideal ni addr data).2 addr).1 =
      (0, data) := by
  obtain ⟨-, oob, hpage⟩ := @writePhysPage_ideal c ni addr data h
  rw [readPhysPage_ideal, hpage]
  dsimp only
  rw [Geom.fit_of_length hlen]

lemma pageOf_ne {a b : ℕ} (hab : a + c.pgSize ≤ b) :
    c.pageOf b ≠ c.pageOf a := by
  have hle : c.pageOf (a + c.pgSize) ≤ c.pageOf b := Nat.div_le_div_right hab
  rw [Geom.pageOf, Nat.add_div_right _ c.pgSize_pos, ← Geom.pageOf] at hle
  omega

/-- A verified write to blank pages succeeds. -/
lemma writeVerifyLoop_ideal {fuel off : ℕ} {rest : List Byte} {ni : Inst}
    (halign : off % c.pgSize = 0) (hfuel : rest.length ≤ fuel)
    (hblank : ∀ a, off ≤ a → a < off + rest.length →
      ni.chip.flash.pages (c.pageOf a) = some c.blankPage) :
    (nmbnWriteVerifyLoop c Env.ideal fuel off rest ni).1 = true := by
  induction fuel generalizing off rest ni with
  | zero => rfl
  | succ fuel ih =>
    rw [nmbnWriteVerifyLoop]
    split
    · rfl
    · rename_i hne
      have hpos := List.length_pos_iff.mpr hne
      have hpg := c.pgSize_pos
      dsimp only
      rw [halign, Nat.sub_zero, Nat.sub_zero, List.replicate_zero, List.nil_append]
      generalize hchunk : rest.take c.pgSize = chunk
      have hlen : chunk.length = min c.pgSize rest.length := by rw [← hchunk, List.length_take]
      generalize hpage : chunk ++ List.replicate (c.pgSize - chunk.length) 0xff = page
      have hfull : page.length = c.pgSize := by
        rw [← hpage, List.length_append, List.length_replicate]
        omega
      have hfirst := hblank off le_rfl (by omega)
      rw [if_neg (by rw [(writePhysPage_ideal hfirst).1]; decide), readPhysPage_written hfirst hfull,
        if_neg (lt_irrefl _), if_neg (by rw [List.drop_zero, ← hpage, List.take_left' rfl]; exact not_not.mpr rfl)]
      rcases Nat.lt_or_ge rest.length c.pgSize with hshort | hlong
      · rw [List.drop_eq_nil_of_le (by omega), writeVerifyLoop_nil]
      · have hchunklen : chunk.length = c.pgSize := by omega
        rw [hchunklen]
        refine ih (by rw [Nat.add_mod_right]; exact halign) (by rw [List.length_drop]; omega)
          fun a h1 h2 => ?_
        rw [List.length_drop] at h2
        rw [readPhysPage_flash]
        refine (writePhysPageTry_pages c Env.ideal (pageOf_ne h1)).trans ?_
        exact hblank a (by omega) (by omega)

lemma writeRepeatedLoop_ideal {data : List Byte} (hdata : data.length ≤ c.pgSize) {k addr : ℕ}
    {ni : Inst} (halign : addr % c.pgSize = 0)
    (hblank : ∀ j < k, ni.chip.flash.pages (c.pageOf (addr + j * c.pgSize)) = some c.blankPage) :
    (nmbmWriteRepeatedLoop c Env.ideal data k addr ni).1 = true := by
  induction k generalizing addr ni with
  | zero => rfl
  | succ k ih =>
    have hfull : (padPage c data).length = c.pgSize := by
      rw [padPage, List.length_append, List.length_replicate]
      omega
    have hfirst := hblank 0 (Nat.succ_pos k)
    rw [Nat.zero_mul, Nat.add_zero] at hfirst
    rw [nmbmWriteRepeatedLoop]
    dsimp only
    rw [if_neg (by rw [(writePhysPage_ideal hfirst).1]; decide), readPhysPage_written hfirst hfull,
      if_neg (lt_irrefl _), if_neg (by rw [padPage, List.take_left' rfl]; exact not_not.mpr rfl)]
    refine ih (by rw [Nat.add_mod_right]; exact halign) fun j hj => ?_
    have hshift : addr + c.pgSize + j * c.pgSize = addr + (j + 1) * c.pgSize := by
      rw [Nat.add_mul, Nat.one_mul]
      omega
    rw [readPhysPage_flash, hshift]
    refine (writePhysPageTry_pages c Env.ideal (pageOf_ne ?_)).trans
      (hblank (j + 1) (by omega))
    rw [← hshift]
    exact Nat.le_add_right _ _

/-! ## Usable blocks -/

/-- The blocks from `lo` to `hi` are good in the state table and not marked. -/
def Usable (ni : Inst) (lo hi : ℕ) : Prop :=
  ∀ b, lo ≤ b → b < hi → nmbmGetBlockState ni b = blockStGood ∧ ni.chip.flash.marked b = false

lemma Usable.congr {ni ni' : Inst} {lo hi lo' hi' : ℕ} (h : Usable ni lo hi) (hlo : lo ≤ lo')
    (hhi : hi' ≤ hi) (hst : ni'.blockState = ni.blockState)
    (hm : ni'.chip.flash.marked = ni.chip.flash.marked) : Usable ni' lo' hi' := by
  intro b h1 h2
  rw [nmbmGetBlockState, hst, hm]
  exact h b (hlo.trans h1) (h2.trans_le hhi)

lemma checkBad_ideal {ni : Inst} {b : ℕ} (h : ni.chip.flash.marked b = false) :
    (nmbmCheckBadPhysBlock Env.ideal ni b).1 = false := by
  rw [nmbmCheckBadPhysBlock, Chip.isBad, h]
  rfl

lemma erased_blank (ni : Inst) (ba : ℕ) {a : ℕ} (h1 : c.ba2addr ba ≤ a)
    (h2 : a < c.ba2addr (ba + 1)) :
    (nmbmEraseBlockAndCheck c Env.ideal ni ba).2.chip.flash.pages (c.pageOf a) =
      some c.blankPage :=
  (eraseBlockAndCheck_ideal ni ba).2 _ (blockOf_pageOf_block c h1 h2)

/-- Management data that fits into usable blocks is written. -/
lemma writeMgmtRangeLoop_ideal {size k ba : ℕ} {rest : List Byte} {start : ℕ} {ni : Inst}
    (huse : Usable ni ba (ba + k)) (hfit : rest.length ≤ k * c.blkSize) :
    (nmbmWriteMgmtRangeLoop c Env.ideal size k ba rest start ni).1.isSome ∧
      (nmbmWriteMgmtRangeLoop c Env.ideal size k ba rest start ni).2.blockState = ni.blockState ∧
      (nmbmWriteMgmtRangeLoop c Env.ideal size k ba rest start ni).2.chip.flash.marked =
        ni.chip.flash.marked := by
  induction k generalizing ba rest start ni with
  | zero =>
    rw [nmbmWriteMgmtRangeLoop, if_pos (List.eq_nil_of_length_eq_zero (by omega))]
    exact ⟨rfl, rfl, rfl⟩
  | succ k ih =>
    rw [nmbmWriteMgmtRangeLoop]
    split
    · exact ⟨rfl, rfl, rfl⟩
    · obtain ⟨hstate, hmark⟩ := huse ba le_rfl (by omega)
      have herase := eraseBlockAndCheck_ideal (c := c) (nmbmCheckBadPhysBlock Env.ideal ni ba).2 ba
      have hst := blockState_eraseBlockAndCheck c Env.ideal
        (nmbmCheckBadPhysBlock Env.ideal ni ba).2 ba
      have hm := marked_eraseBlockAndCheck c Env.ideal
        (nmbmCheckBadPhysBlock Env.ideal ni ba).2 ba
      have hblank := fun a => @erased_blank c (nmbmCheckBadPhysBlock Env.ideal ni ba).2 ba a
      rw [if_neg (not_not.mpr hstate)]
      dsimp only
      rw [checkBad_ideal hmark, if_neg Bool.false_ne_true]
      generalize hr : nmbmEraseBlockAndCheck c Env.ideal (nmbmCheckBadPhysBlock Env.ideal ni ba).2 ba
        = r at *
      rw [herase.1, if_neg (by decide)]
      have hwrite : (nmbnWriteVerifyData c Env.ideal r.2 (c.ba2addr ba)
          (rest.take c.blkSize)).1 = true := by
        refine writeVerifyLoop_ideal (c.ba2addr_mod ba) le_rfl fun a h1 h2 => hblank a h1 ?_
        rw [← c.ba2addr_succ]
        rw [List.length_take] at h2
        omega
      have hst2 := blockState_writeVerifyLoop c Env.ideal (rest.take c.blkSize).length
        (c.ba2addr ba) (rest.take c.blkSize) r.2
      have hm2 := marked_writeVerifyLoop c Env.ideal (rest.take c.blkSize).length
        (c.ba2addr ba) (rest.take c.blkSize) r.2
      rw [← nmbnWriteVerifyData] at hst2 hm2
      rw [hwrite, if_neg (by decide)]
      obtain ⟨h1, h2, h3⟩ := @ih (ba + 1) (rest.drop c.blkSize) (if rest.length = size then ba else start)
        (nmbnWriteVerifyData c Env.ideal r.2 (c.ba2addr ba) (rest.take c.blkSize)).2
        (huse.congr (by omega) (by omega) (hst2.trans hst) (hm2.trans hm))
        (by rw [List.length_drop]; rw [Nat.add_mul] at hfit; omega)
      exact ⟨h1, h2.trans (hst2.trans hst), h3.trans (hm2.trans hm)⟩

/-! ## Creation -/

/-- The scan records the blocks that carry a mark. -/
lemma scanBadblocksLoop_ideal (k ba : ℕ) (ni : Inst) :
    (nmbmScanBadblocksLoop Env.ideal k ba ni).chip.flash = ni.chip.flash ∧
      ∀ b, nmbmGetBlockState (nmbmScanBadblocksLoop Env.ideal k ba ni) b =
        if ba ≤ b ∧ b < ba + k ∧ ni.chip.flash.marked b = true then blockStBad
        else nmbmGetBlockState ni b := by
  induction k generalizing ba ni with
  | zero => exact ⟨rfl, fun b => by rw [if_neg (by omega)]; rfl⟩
  | succ k ih =>
    have hcheck : (nmbmCheckBadPhysBlock Env.ideal ni ba).1 = ni.chip.flash.marked ba := by
      rw [nmbmCheckBadPhysBlock, Chip.isBad]
      exact Bool.or_false _
    have hbounds : ∀ b, b ≠ ba →
        ((ba + 1 ≤ b ↔ ba ≤ b) ∧ (b < ba + 1 + k ↔ b < ba + (k + 1))) := by
      intro b hb
      omega
    rw [nmbmScanBadblocksLoop, hcheck]
    cases hm : ni.chip.flash.marked ba
    · obtain ⟨h1, h2⟩ := ih (ba + 1) (nmbmCheckBadPhysBlock Env.ideal ni ba).2
      refine ⟨h1, fun b => (h2 b).trans ?_⟩
      by_cases hb : b = ba
      · rw [hb, if_neg (by omega), if_neg (by rw [hm]; simp)]
        rfl
      · simp only [(hbounds b hb).1, (hbounds b hb).2]
        rfl
    · obtain ⟨h1, h2⟩ := ih (ba + 1)
        (nmbmSetBlockState (nmbmCheckBadPhysBlock Env.ideal ni ba).2 ba blockStBad)
      rw [setBlockState_chip] at h1 h2
      refine ⟨h1, fun b => (h2 b).trans ?_⟩
      by_cases hb : b = ba
      · rw [hb, if_neg (by omega), if_pos ⟨le_rfl, by omega, hm⟩,
          getBlockState_setBlockState_self]
      · simp only [(hbounds b hb).1, (hbounds b hb).2, getBlockState_setBlockState_ne _ _ hb]
        rfl

lemma buildMappingTableLoop_good {k pb lb : ℕ} {ni : Inst}
    (h : ∀ b, pb ≤ b → b < pb + k → nmbmGetBlockState ni b = blockStGood) :
    (nmbmBuildMappingTableLoop k pb lb ni).dataBlockCount = lb + k := by
  induction k generalizing pb lb ni with
  | zero => rfl
  | succ k ih =>
    rw [nmbmBuildMappingTableLoop, if_neg (by rw [h pb le_rfl (by omega)]; decide)]
    refine (ih fun b h1 h2 => ?_).trans (by omega)
    exact h b (by omega) (by omega)

lemma writeSignatureLoop_skip {env : Env} {sig : Signature} {k ba p : ℕ} {ni : Inst} (hp : p ≤ ba)
    (hk : ba - p ≤ k) (h : ∀ b, p < b → b ≤ ba → nmbmGetBlockState ni b ≠ blockStGood) :
    nmbmWriteSignatureLoop c env sig k ba ni =
      nmbmWriteSignatureLoop c env sig (k - (ba - p)) p ni := by
  induction k generalizing ba with
  | zero =>
    obtain rfl : p = ba := by omega
    rw [Nat.sub_self]
  | succ k ih =>
    rcases Nat.eq_or_lt_of_le hp with rfl | hlt
    · rw [Nat.sub_self]
      rfl
    · rw [nmbmWriteSignatureLoop, if_pos (h ba hlt le_rfl),
        ih (by omega) (by omega) fun b h1 h2 => h b h1 (by omega)]
      congr 1
      omega

lemma tryReserveBlocks_full {ni : Inst} {ba : ℕ} (hba : ba = ni.mappingBlocksTopBa)
    (hn : c.infoTableBlocks ≤ ba) : nmbmTryReserveBlocks c ni ba = none := by
  have hloop : ∀ nblocks, nmbmTryReserveLoop c ni ba
      (u32Sub ni.mappingBlocksTopBa c.infoTableBlocks) nblocks = none := by
    have hwalk : ∀ count, nmbmBlockWalkAsc c ni ba count
        (u32Sub ni.mappingBlocksTopBa c.infoTableBlocks) = none := by
      intro count
      rw [← hba, u32Sub_of_le hn, nmbmBlockWalkAsc, show (if ba - c.infoTableBlocks ≥ c.blockCount then c.blockCount - 1
        else ba - c.infoTableBlocks) - ba = 0 by split <;> omega]
      rfl
    intro nblocks
    induction nblocks with
    | zero => exact hwalk 0
    | succ nblocks ih => rw [nmbmTryReserveLoop, hwalk, ih]
  exact hloop _

/-- A table that fits exactly is written, and nothing is left to be done. -/
lemma rebuildInfoTable_ideal {ni : Inst} (hlen : ni.infoTableCache.length = c.infoTableSize)
    (hroom : ni.mgmtStartBa + c.infoTableBlocks = ni.mappingBlocksTopBa)
    (huse : Usable ni ni.mgmtStartBa ni.mappingBlocksTopBa) :
    ∃ ni', nmbmRebuildInfoTable c Env.ideal ni = (true, ni') ∧ ni'.changed = false ∧
      ni'.dataBlockCount = ni.dataBlockCount ∧ ni'.mgmtStartBa = ni.mgmtStartBa := by
  have hcap : ni.infoTableCache.length ≤ c.infoTableBlocks * c.blkSize :=
    hlen.le.trans c.infoTableBlocks_mul.1
  have hne : ni.infoTableCache ≠ [] := fun h => by
    rw [h] at hlen
    exact absurd hlen c.infoTableSize_pos.ne
  set ni0 : Inst := { ni with
    mainTableBa := 0
    backupTableBa := 0
    mappingBlocksBa := ni.mappingBlocksTopBa } with hni0
  have hsome : (nmbmWriteInfoTable c Env.ideal ni0 ni.mgmtStartBa ni.mappingBlocksTopBa).1.isSome :=
    (writeMgmtRangeLoop_ideal (@Usable.congr ni ni0 _ _ ni.mgmtStartBa
      (ni.mgmtStartBa + (ni.mappingBlocksTopBa - ni.mgmtStartBa)) huse le_rfl (by omega) rfl rfl) (by
      rw [show ni.mappingBlocksTopBa - ni.mgmtStartBa = c.infoTableBlocks by omega]
      exact hcap)).1
  rw [nmbmRebuildInfoTable]
  dsimp only
  rcases hw : nmbmWriteInfoTable c Env.ideal ni0 ni.mgmtStartBa ni.mappingBlocksTopBa with
    ⟨_ | ⟨s, e⟩, ni1⟩
  · rw [hw] at hsome
    cases hsome
  · obtain ⟨-, -, hle⟩ := writeMgmtRange_bounds c Env.ideal hne (congrArg Prod.fst hw)
    have hend := (writeMgmtRangeLoop_end c Env.ideal (congrArg Prod.fst hw)).1
    rw [show ni0.infoTableCache = ni.infoTableCache from rfl, hlen, ← Conf.infoTableBlocks] at hend
    have ht := touch_writeInfoTable c Env.ideal ni0 ni.mgmtStartBa ni.mappingBlocksTopBa
    rw [hw] at ht
    have htop : ni1.mappingBlocksTopBa = ni.mappingBlocksTopBa :=
      (congrArg Inst.mappingBlocksTopBa ht.frame :)
    dsimp only
    rw [tryReserveBlocks_full (by
      show e = ni1.mappingBlocksTopBa
      omega) (by omega)]
    exact ⟨_, rfl, rfl, (congrArg Inst.dataBlockCount ht.frame :), ht.mgmtStartBa⟩

lemma createInfoTable_ideal {ni : Inst} (hs : ni.Shaped c)
    (hdata : ni.dataBlockCount = ni.mgmtStartBa)
    (hroom : ni.mgmtStartBa + c.infoTableBlocks + 1 = ni.signatureBa)
    (hlt : ni.signatureBa < c.blockCount) (huse : Usable ni ni.mgmtStartBa (ni.signatureBa + 1)) :
    (nmbmCreateInfoTable c Env.ideal ni).1 = true := by
  have hn := c.infoTableBlocks_pos
  -- the watermark is the block below the signature
  have hwalk : nmbmBlockWalkDesc c ni ni.signatureBa 1 ni.mgmtStartBa =
      some (ni.signatureBa - 1) := by
    obtain ⟨m, hm⟩ : ∃ m, ni.signatureBa - ni.mgmtStartBa = m + 2 := ⟨c.infoTableBlocks - 1, by omega⟩
    rw [nmbmBlockWalkDesc, if_neg (by omega), hm, nmbmBlockWalkDescLoop,
      if_pos (huse _ (by omega) (by omega)).1, if_neg Nat.one_ne_zero, nmbmBlockWalkDescLoop,
      if_pos (huse _ (by omega) (by omega)).1, if_pos rfl]
  set ni1 := (nmbmGenerateInfoTableCache c
    { ni with mappingBlocksTopBa := ni.signatureBa - 1 }).2 with hni1
  have hlen : ni1.infoTableCache.length = c.infoTableSize :=
    length_generatedImage ⟨hs.state, hs.mapping, hs.offsets⟩
  obtain ⟨ni2, hreb, hclean, hd, hmg⟩ := @rebuildInfoTable_ideal c ni1 hlen
    (show ni.mgmtStartBa + c.infoTableBlocks = ni.signatureBa - 1 by omega)
    (huse.congr le_rfl (show ni.signatureBa - 1 ≤ _ by omega) rfl rfl)
  have hloop : ni2.mgmtStartBa - ni2.dataBlockCount = 0 := by
    rw [hmg, hd]
    show ni.mgmtStartBa - ni.dataBlockCount = 0
    omega
  rw [nmbmCreateInfoTable, hwalk]
  dsimp only
  rw [← hni1, hreb]
  dsimp only
  rw [hloop, createMapLoop, nmbmUpdateInfoTable]
  split
  · rfl
  · rw [updateInfoTableLoop, if_neg (by rw [hclean]; decide)]

lemma writeSignature_ideal {ni : Inst} {sig : Signature} {limit p : ℕ} (hp : limit < p)
    (hlt : p < c.blockCount) (huse : Usable ni p (p + 1))
    (hbad : ∀ b, p < b → b < c.blockCount → nmbmGetBlockState ni b ≠ blockStGood) :
    ∃ ni', nmbmWriteSignature c Env.ideal ni limit sig = (some p, ni') ∧
      ni'.blockState = ni.blockState ∧ ni'.chip.flash.marked = ni.chip.flash.marked := by
  obtain ⟨hstate, hmark⟩ := huse p le_rfl (Nat.lt_succ_self p)
  obtain ⟨m, hm⟩ : ∃ m, c.blockCount - 1 - limit - (c.blockCount - 1 - p) = m + 1 :=
    ⟨p - limit - 1, by omega⟩
  have herase := eraseBlockAndCheck_ideal (c := c) (nmbmCheckBadPhysBlock Env.ideal ni p).2 p
  have hst := blockState_eraseBlockAndCheck c Env.ideal (nmbmCheckBadPhysBlock Env.ideal ni p).2 p
  have hmr := marked_eraseBlockAndCheck c Env.ideal (nmbmCheckBadPhysBlock Env.ideal ni p).2 p
  have hblank := fun a => @erased_blank c (nmbmCheckBadPhysBlock Env.ideal ni p).2 p a
  rw [nmbmWriteSignature, writeSignatureLoop_skip (by omega) (by omega)
    (fun b h1 h2 => hbad b h1 (by omega)), hm, nmbmWriteSignatureLoop, if_neg (not_not.mpr hstate)]
  dsimp only
  rw [checkBad_ideal hmark, if_neg Bool.false_ne_true]
  generalize nmbmEraseBlockAndCheck c Env.ideal (nmbmCheckBadPhysBlock Env.ideal ni p).2 p = r at *
  have hlen : ¬sig.bytes.length > c.pgSize := by
    have := c.pgSize_ge
    rw [length_signatureBytes, signatureSize]
    omega
  have hwrite : (nmbmWriteRepeatedLoop c Env.ideal sig.bytes c.ppb (c.ba2addr p) r.2).1 = true := by
    refine writeRepeatedLoop_ideal (not_lt.mp hlen) (c.ba2addr_mod p) fun j hj => ?_
    refine hblank _ (Nat.le_add_right _ _) ?_
    rw [← c.ba2addr_succ, c.blkSize_eq, Nat.mul_comm c.pgSize]
    exact Nat.add_lt_add_left (Nat.mul_lt_mul_of_pos_right hj c.pgSize_pos) _
  rw [herase.1, if_neg (by decide), nmbmWriteRepeatedData, if_neg hlen, hwrite, if_pos rfl]
  exact ⟨_, rfl, (blockState_writeRepeatedLoop c Env.ideal _ _ _ _).trans hst,
    (marked_writeRepeatedLoop c Env.ideal _ _ _ _).trans hmr⟩

/-- Creation succeeds with the signature in block `p` when the blocks above are marked and exactly
one table fits below. -/
lemma createNew_ideal {chip : Chip} {p : ℕ} (hp : newMgmtStart c + c.infoTableBlocks + 1 = p)
    (hlt : p < c.blockCount) (hm : ∀ b, chip.flash.marked b = decide (p < b)) :
    ∃ ni', nmbmCreateNew c Env.ideal (nmbmInitStructure c chip) = (true, ni') ∧
      ni'.signatureBa = p := by
  have hinit := initStructure_shaped c chip
  set ni0 : Inst := { nmbmInitStructure c chip with mgmtStartBa := newMgmtStart c } with hni0
  obtain ⟨hflash, hstates⟩ := scanBadblocksLoop_ideal c.blockCount 0 ni0
  have hscan := inspects_scanBadblocks c Env.ideal ni0
  rw [← nmbmScanBadblocks] at hflash hstates
  rw [nmbmCreateNew]
  dsimp only
  rw [← hni0]
  set ni2 := nmbmScanBadblocks c Env.ideal ni0 with hni2
  have hgood : ∀ b, b ≤ p → nmbmGetBlockState ni2 b = blockStGood ∧
      ni2.chip.flash.marked b = false := by
    intro b hb
    have hmark : ni0.chip.flash.marked b = false := (hm b).trans (decide_eq_false (by omega))
    refine ⟨?_, by rw [hflash]; exact hmark⟩
    rw [hstates, if_neg (by rw [hmark]; simp)]
    refine getBlockState_init c chip ?_
    have : c.stateWords = (c.blockCount + 15) / 16 := rfl
    omega
  have hbad : ∀ b, p < b → b < c.blockCount → nmbmGetBlockState ni2 b ≠ blockStGood := by
    intro b hb hbc
    have hmark : ni0.chip.flash.marked b = true := (hm b).trans (decide_eq_true hb)
    rw [hstates, if_pos ⟨Nat.zero_le b, by omega, hmark⟩]
    decide
  have hmg2 : ni2.mgmtStartBa = newMgmtStart c := (congrArg Inst.mgmtStartBa hscan.frame :)
  have hm2 : ni2.blockMapping = (nmbmInitStructure c chip).blockMapping :=
    (congrArg Inst.blockMapping hscan.frame :)
  have hi2 : ni2.infoTable = (nmbmInitStructure c chip).infoTable :=
    (congrArg Inst.infoTable hscan.frame :)
  have hs2 : ni2.Shaped c :=
    ⟨hscan.length.trans hinit.state, hm2 ▸ hinit.mapping, hi2 ▸ hinit.offsets⟩
  obtain ⟨hbuild, hlen, -, -⟩ := buildMappingTable_spec c hs2.mapping (by omega)
  have hdata : (nmbmBuildMappingTable c ni2).dataBlockCount = newMgmtStart c := by
    have := @buildMappingTableLoop_good ni2.mgmtStartBa 0 0 ni2
      (fun b _ hb => (hgood b (by omega)).1)
    rw [Nat.zero_add, hmg2] at this
    rw [← hmg2] at this ⊢
    exact this
  have hstb : (nmbmBuildMappingTable c ni2).blockState = ni2.blockState :=
    (congrArg Inst.blockState hbuild :)
  have hchipb : (nmbmBuildMappingTable c ni2).chip = ni2.chip := (congrArg Inst.chip hbuild :)
  have hmgb : (nmbmBuildMappingTable c ni2).mgmtStartBa = newMgmtStart c :=
    (buildMappingTable_mgmtStartBa c ni2).trans hmg2
  generalize hsig : newSignature c (nmbmBuildMappingTable c ni2).signature
    (nmbmBuildMappingTable c ni2).mgmtStartBa = sig
  set ni4 : Inst := { nmbmBuildMappingTable c ni2 with signature := sig } with hni4
  have huse4 : ∀ lo hi, hi ≤ p + 1 → Usable ni4 lo hi := by
    intro lo hi hhi b _ hb
    obtain ⟨h1, h2⟩ := hgood b (by omega)
    refine ⟨?_, ?_⟩
    · rw [← h1, nmbmGetBlockState, nmbmGetBlockState]
      exact congrArg (nmbmGetBlockStateRaw · b) hstb
    · rw [← h2]
      exact congrArg (fun ch : Chip => ch.flash.marked b) hchipb
  obtain ⟨ni5, hw, hst5, hm5⟩ := @writeSignature_ideal c ni4 sig (newMgmtStart c) p (by omega) hlt
    (huse4 _ _ le_rfl) (fun b h1 h2 => by
      have := hbad b h1 h2
      rwa [nmbmGetBlockState, ← hstb] at this)
  obtain ⟨hins, -, -⟩ := writeSignature_spec c Env.ideal hw
  rw [hmgb, hw]
  dsimp only
  have hs5 : Inst.Shaped c { ni5 with signatureBa := p } :=
    ⟨(congrArg List.length (hst5.trans hstb)).trans hs2.state,
      (congrArg (fun n : Inst => n.blockMapping.length) hins.frame :).trans hlen,
      (show ni5.infoTable = ni2.infoTable from (congrArg Inst.infoTable hins.frame :).trans
        (congrArg Inst.infoTable hbuild :)) ▸ hs2.offsets⟩
  have hmg5 : ni5.mgmtStartBa = newMgmtStart c := (congrArg Inst.mgmtStartBa hins.frame :).trans hmgb
  have hd5 : ni5.dataBlockCount = newMgmtStart c :=
    (congrArg Inst.dataBlockCount hins.frame :).trans hdata
  have htrue := createInfoTable_ideal hs5 (hd5.trans hmg5.symm)
    (show ni5.mgmtStartBa + c.infoTableBlocks + 1 = p by omega) hlt
    ((huse4 _ _ le_rfl).congr le_rfl le_rfl hst5 hm5)
  rcases hcreate : nmbmCreateInfoTable c Env.ideal { ni5 with signatureBa := p } with ⟨r, ni'⟩
  rw [hcreate] at htrue
  obtain rfl : r = true := htrue
  exact ⟨ni', rfl, (createInfoTable_agree hs5 (show ni5.mgmtStartBa < p by omega) hlt hcreate).2.2⟩

/-! ## Creation and search -/

/-- Whenever `nmbm_create_new` succeeds, the search on the flash it leaves finds the signature it
wrote: if marks take, blocks are otherwise always or never reported bad, and a page of the block of
the signature can be read. -/
def FindsCreated (c : Conf) : Prop :=
  ∀ (env env' : Env) (reported : ℕ → Bool) (chip : Chip) (ni' ni : Inst), Steady env reported →
    Steady env' reported → nmbmCreateNew c env (nmbmInitStructure c chip) = (true, ni') →
    (∃ j < c.ppb, Readable env' (c.pageOf (c.ba2addr ni'.signatureBa + j * c.pgSize))) →
    ni.chip.flash = ni'.chip.flash → SearchFinds c env' ni ni'.signature ni'.signatureBa

/-- The search ends inside the chip and finds every signature that was created. -/
structure SearchSound (c : Conf) : Prop where
  ends : ∀ env ni, SearchEnds c env ni
  finds : FindsCreated c

lemma findsCreated_of_le (hlimit : signatureLimit c ≠ 0)
    (h : signatureLimit c ≤ newMgmtStart c + c.infoTableBlocks + 2 ∨
      c.blockCount ≤ newMgmtStart c + c.infoTableBlocks + 1) : FindsCreated c := by
  intro env env' reported chip ni' ni hsteady hsteady' hcreate hread hflash
  obtain ⟨bs, hsigned, hheader, hmagic, hof, hroom⟩ := createNew_signed hsteady hcreate
  have hlt := hsigned.lt
  have hfound := @findSignatureBlocks_signed c env' bs reported hheader hmagic _ _ hsigned
    hsteady'.reports hread (c.blockCount + 1 - signatureLimit c) c.blockCount ni hflash hlt le_rfl
    (by omega)
  obtain ⟨seen, hloop, -⟩ :=
    findSignatureLoop_blocks c env' hlimit _ c.blockCount [] ni rfl
  rw [hfound, hof] at hloop
  exact ⟨_, seen, _, hloop⟩

lemma findSignatureBlocks_marked {env : Env} {k ba : ℕ} {ni : Inst} (hk : k ≤ ba)
    (h : ∀ b, ba ≤ b + k → b < ba → ni.chip.flash.marked b = true) :
    (findSignatureBlocks c env k ba ni).1 = none := by
  induction k generalizing ba ni with
  | zero => rfl
  | succ k ih =>
    have hb : (nmbmCheckBadPhysBlock env ni (ba - 1)).1 = true := by
      rw [nmbmCheckBadPhysBlock, Chip.isBad, h (ba - 1) (by omega) (by omega), Bool.true_or]
    rw [findSignatureBlocks, if_pos hb]
    exact ih (by omega) fun b h1 h2 => h b (by omega) (by omega)

lemma le_of_findsCreated (hlimit : signatureLimit c ≠ 0) (h : FindsCreated c) :
    signatureLimit c ≤ newMgmtStart c + c.infoTableBlocks + 2 ∨
      c.blockCount ≤ newMgmtStart c + c.infoTableBlocks + 1 := by
  by_contra hcon
  push Not at hcon
  -- a chip whose blocks above the lowest possible one are marked
  obtain ⟨ni', hcreate, hba⟩ := @createNew_ideal c
    ⟨⟨fun _ => none, fun b => decide (newMgmtStart c + c.infoTableBlocks + 1 < b)⟩, 0, []⟩ _ rfl
    hcon.2 fun _ => rfl
  have hsteady : Steady Env.ideal fun _ => false := ⟨fun _ _ => rfl, fun _ _ => rfl⟩
  obtain ⟨bs, hsigned, -⟩ := createNew_signed hsteady hcreate
  obtain ⟨fuel, seen, ni1, hfind⟩ := h Env.ideal Env.ideal (fun _ => false) _ ni' ni' hsteady hsteady
    hcreate ⟨0, c.ppb_pos, fun _ => Or.inl le_rfl⟩ rfl
  obtain ⟨seen', hloop, -⟩ :=
    findSignatureLoop_blocks c Env.ideal hlimit _ c.blockCount [] ni' rfl
  have hnone : (findSignatureBlocks c Env.ideal (c.blockCount + 1 - signatureLimit c) c.blockCount
      ni').1 = none := by
    refine findSignatureBlocks_marked (by omega) fun b h1 h2 => ?_
    have := hsigned.above b (by omega) h2
    rwa [Bool.or_false] at this
  rw [hnone] at hloop
  exact absurd (findSignatureLoop_fuel c Env.ideal hfind hloop) (by simp)

/-- The search is sound exactly when its limit is neither 0 nor above the lowest block that can
take the signature. -/
theorem searchSound_iff (c : Conf) :
    SearchSound c ↔ signatureLimit c ≠ 0 ∧
      (signatureLimit c ≤ newMgmtStart c + c.infoTableBlocks + 2 ∨
        c.blockCount ≤ newMgmtStart c + c.infoTableBlocks + 1) := by
  constructor
  · intro h
    have hlimit := (searchEnds_iff c).mp h.ends
    exact ⟨hlimit, le_of_findsCreated hlimit h.finds⟩
  · rintro ⟨hlimit, hbounds⟩
    exact ⟨(searchEnds_iff c).mpr hlimit, findsCreated_of_le hlimit hbounds⟩

/-- A chip of 256 blocks with `mediatek,bmt-max-ratio = <16>` and the default of at most 256
reserved blocks. -/
def fullRatioConf : Conf where
  pgShift := 11
  blkShift := 17
  oobsize := 64
  totalBlks := 256
  bitflipThreshold := 3
  eccStrength := 4
  pg_le_blk := Nat.le_add_left 11 6
  blk_lt := Nat.le_add_left 18 14
  total_lt := by decide
  maxRatio := 16
  maxReservedBlocks := 256
  emptyPageEccOk := false
  forceCreate := true
  pg_large := by decide
  blk_small := by decide

/-- With every block reserved the limit is 0, and on a chip without a signature the search does not
end. -/
theorem not_searchSound_fullRatio : ¬SearchSound fullRatioConf := by
  intro h
  have hlimit := (searchEnds_iff fullRatioConf).mp h.ends
  exact hlimit (by decide)

end Nmbm
