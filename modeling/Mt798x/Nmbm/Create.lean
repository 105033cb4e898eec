import Mt798x.Nmbm.Mapping
import Mt798x.Nmbm.Reload

/-!
# Creating the tables

`nmbm_create_new` and the forced creation in `nmbm_load_existing` build a mapping of the good data
blocks, write the tables and map the logical blocks that are left over to spare blocks.  The
result is `Consistent` and, as long as no spare block was handed out past an unusable watermark,
`Allocated`.
-/

namespace Nmbm

open Bytes Bmt

variable (c : Conf) (env : Env)

/-! ## Scanning for bad blocks -/

/-- Only the chip and the state table differ, and the state table keeps its length. -/
structure Inspects (ni ni' : Inst) : Prop where
  frame : ni' = ni.worn ni'
  length : ni'.blockState.length = ni.blockState.length

namespace Inspects

variable {ni ni' ni'' : Inst}

lemma refl (ni : Inst) : Inspects ni ni := ⟨rfl, rfl⟩

lemma trans (h : Inspects ni ni') (h' : Inspects ni' ni'') : Inspects ni ni'' := by
  refine ⟨?_, h'.length.trans h.length⟩
  calc ni'' = ni'.worn ni'' := h'.frame
    _ = (ni.worn ni').worn ni'' := by rw [← h.frame]
    _ = ni.worn ni'' := rfl

lemma of_touch {c : Conf} {lo hi : ℕ} (h : Touch c lo hi ni ni') : Inspects ni ni' :=
  ⟨h.frame, h.length⟩

lemma setBlockState (ni : Inst) (ba : ℕ) (st : UInt32) :
    Inspects ni (nmbmSetBlockState ni ba st) := by
  rw [nmbmSetBlockState]
  dsimp only
  split <;> exact ⟨rfl, TwoBit.length_set _ _ _⟩

end Inspects

lemma inspects_scanBadblocksLoop (k ba : ℕ) (ni : Inst) :
    Inspects ni (nmbmScanBadblocksLoop env k ba ni) := by
  induction k generalizing ba ni with
  | zero => exact Inspects.refl ni
  | succ k ih =>
    have hb : Inspects ni (nmbmCheckBadPhysBlock env ni ba).2 := ⟨rfl, rfl⟩
    rw [nmbmScanBadblocksLoop]
    split
    · exact (hb.trans (Inspects.setBlockState _ _ _)).trans (ih _ _)
    · exact hb.trans (ih _ _)

lemma inspects_scanBadblocks (ni : Inst) : Inspects ni (nmbmScanBadblocks c env ni) :=
  inspects_scanBadblocksLoop env _ _ ni

/-! ## Writing the signature -/

lemma inspects_writeRepeatedData (ni : Inst) (ba : ℕ) (data : List Byte) :
    Inspects ni (nmbmWriteRepeatedData c env ni ba data).2 := by
  have hloop : ∀ (k addr : ℕ) (ni : Inst),
      Inspects ni (nmbmWriteRepeatedLoop c env data k addr ni).2 := by
    intro k
    induction k with
    | zero => intro _ ni; exact Inspects.refl ni
    | succ k ih =>
      intro addr ni
      have hw : Inspects ni (nmbmWritePhysPage c env ni addr (padPage c data)).2 :=
        Inspects.of_touch (touch_writePhysPage c env ni addr _)
      have hr := hw.trans (Inspects.of_touch
        (touch_readPhysPage c env (nmbmWritePhysPage c env ni addr (padPage c data)).2 addr 0 0))
      rw [nmbmWriteRepeatedLoop]
      dsimp only
      split
      · exact hw
      · split
        · exact hr
        · split
          · exact hr
          · exact hr.trans (ih _ _)
  rw [nmbmWriteRepeatedData]
  split
  · exact Inspects.refl ni
  · exact hloop _ _ ni

/-- The signature goes into a block above the limit. -/
lemma writeSignatureLoop_spec (sig : Signature) {k ba : ℕ} {ni ni' : Inst} {r : Option ℕ}
    (hk : k ≤ ba) (h : nmbmWriteSignatureLoop c env sig k ba ni = (r, ni')) :
    Inspects ni ni' ∧ ∀ s, r = some s → ba < s + k ∧ s ≤ ba := by
  induction k generalizing ba ni with
  | zero =>
    rw [nmbmWriteSignatureLoop, Prod.mk.injEq] at h
    obtain ⟨rfl, rfl⟩ := h
    exact ⟨Inspects.refl ni, fun s h => absurd h (by simp)⟩
  | succ k ih =>
    have hnext : ∀ {ni1 : Inst}, Inspects ni ni1 →
        nmbmWriteSignatureLoop c env sig k (ba - 1) ni1 = (r, ni') →
        Inspects ni ni' ∧ ∀ s, r = some s → ba < s + (k + 1) ∧ s ≤ ba := by
      intro ni1 h1 h2
      obtain ⟨h3, h4⟩ := ih (by omega) h2
      refine ⟨h1.trans h3, fun s hs => ?_⟩
      have := h4 s hs
      omega
    have hb : Inspects ni (nmbmCheckBadPhysBlock env ni ba).2 := ⟨rfl, rfl⟩
    have he := hb.trans (Inspects.of_touch
      (touch_eraseBlockAndCheck c env (nmbmCheckBadPhysBlock env ni ba).2 ba))
    have hw := he.trans (inspects_writeRepeatedData c env _ ba sig.bytes)
    have hskip : ∀ ni1 : Inst, Inspects ni1 (skipBadBlock c env ni1 ba) := fun ni1 =>
      (Inspects.of_touch (touch_markPhysBadBlock c env ni1 ba)).trans
        (Inspects.setBlockState _ _ _)
    rw [nmbmWriteSignatureLoop] at h
    split at h
    · exact hnext (Inspects.refl ni) h
    · dsimp only at h
      split at h
      · exact hnext (hb.trans (Inspects.setBlockState _ _ _)) h
      · split at h
        · exact hnext (he.trans (hskip _)) h
        · split at h
          · rw [Prod.mk.injEq] at h
            obtain ⟨rfl, rfl⟩ := h
            refine ⟨hw, fun s hs => ?_⟩
            rw [Option.some.injEq] at hs
            omega
          · exact hnext (hw.trans (hskip _)) h

lemma writeSignature_spec {sig : Signature} {limit : ℕ} {ni ni' : Inst} {s : ℕ}
    (h : nmbmWriteSignature c env ni limit sig = (some s, ni')) :
    Inspects ni ni' ∧ limit < s ∧ s < c.blockCount := by
  obtain ⟨h1, h2⟩ := writeSignatureLoop_spec c env sig (by omega) h
  have := h2 s rfl
  exact ⟨h1, by omega, by omega⟩

/-! ## The mapping of the good data blocks -/

/-- The first `d` logical blocks are mapped injectively below the management blocks. -/
structure DataMapped (m d : ℕ) (ni : Inst) : Prop where
  below : ∀ x < d, (ni.mapping x).toNat < m
  injective : ∀ x < d, ∀ y < d, ni.mapping x = ni.mapping y → x = y

/-- The good blocks become the images of the logical blocks in ascending order. -/
lemma buildMappingTableLoop_spec {k pb lb : ℕ} {ni : Inst} (hlb : lb ≤ pb)
    (hlen : pb + k ≤ ni.blockMapping.length) (hsmall : pb + k < 2 ^ 32) (hd : DataMapped pb lb ni) :
    nmbmBuildMappingTableLoop k pb lb ni = { ni with
        blockMapping := (nmbmBuildMappingTableLoop k pb lb ni).blockMapping
        dataBlockCount := (nmbmBuildMappingTableLoop k pb lb ni).dataBlockCount } ∧
      (nmbmBuildMappingTableLoop k pb lb ni).blockMapping.length = ni.blockMapping.length ∧
      (nmbmBuildMappingTableLoop k pb lb ni).dataBlockCount ≤ pb + k ∧
      DataMapped (pb + k) (nmbmBuildMappingTableLoop k pb lb ni).dataBlockCount
        (nmbmBuildMappingTableLoop k pb lb ni) := by
  induction k generalizing pb lb ni with
  | zero => exact ⟨rfl, rfl, hlb, hd.below, hd.injective⟩
  | succ k ih =>
    rw [nmbmBuildMappingTableLoop]
    split
    · obtain ⟨h1, h2, h3, h4⟩ := @ih (pb + 1) lb ni (by omega) (by omega) (by omega)
        ⟨fun x hx => (hd.below x hx).trans (Nat.lt_succ_self _), hd.injective⟩
      exact ⟨h1, h2, by omega, by rwa [show pb + (k + 1) = pb + 1 + k by omega]⟩
    · have hpb : (UInt32.ofNat pb).toNat = pb := by
        rw [UInt32.toNat_ofNat', Nat.mod_eq_of_lt (by omega)]
      have hmap : ∀ x, ({ ni with blockMapping := ni.blockMapping.set lb (UInt32.ofNat pb) } :
          Inst).mapping x = if x = lb then UInt32.ofNat pb else ni.mapping x :=
        mapping_set rfl (by omega)
      have hd' : DataMapped (pb + 1) (lb + 1)
          { ni with blockMapping := ni.blockMapping.set lb (UInt32.ofNat pb) } := by
        refine ⟨fun x hx => ?_, fun x hx y hy hxy => ?_⟩
        · rw [hmap x]
          split
          · rw [hpb]
            omega
          · have := hd.below x (by omega)
            omega
        · rw [hmap x, hmap y] at hxy
          split at hxy <;> rename_i hx'
          · split at hxy <;> rename_i hy'
            · omega
            · have := hd.below y (by omega)
              rw [← hxy, hpb] at this
              omega
          · split at hxy <;> rename_i hy'
            · have := hd.below x (by omega)
              rw [hxy, hpb] at this
              omega
            · exact hd.injective x (by omega) y (by omega) hxy
      obtain ⟨h1, h2, h3, h4⟩ := @ih (pb + 1) (lb + 1) _ (by omega)
        (by rw [List.length_set]; omega) (by omega) hd'
      refine ⟨h1, h2.trans List.length_set, by omega, ?_⟩
      rwa [show pb + (k + 1) = pb + 1 + k by omega]

lemma buildMappingTable_spec {ni : Inst} (hlen : ni.blockMapping.length = c.blockCount)
    (hle : ni.mgmtStartBa ≤ c.blockCount) :
    nmbmBuildMappingTable c ni = { ni with
        blockMapping := (nmbmBuildMappingTable c ni).blockMapping
        dataBlockCount := (nmbmBuildMappingTable c ni).dataBlockCount } ∧
      (nmbmBuildMappingTable c ni).blockMapping.length = c.blockCount ∧
      (nmbmBuildMappingTable c ni).dataBlockCount ≤ ni.mgmtStartBa ∧
      DataMapped ni.mgmtStartBa (nmbmBuildMappingTable c ni).dataBlockCount
        (nmbmBuildMappingTable c ni) := by
  have hbc : c.blockCount < 2 ^ 16 := c.total_lt
  obtain ⟨h1, h2, h3, h4⟩ := @buildMappingTableLoop_spec ni.mgmtStartBa 0 0 ni
    le_rfl (by omega) (by omega)
    ⟨fun x hx => absurd hx (Nat.not_lt_zero x), fun x hx => absurd hx (Nat.not_lt_zero x)⟩
  rw [Nat.zero_add] at h3 h4
  rw [nmbmBuildMappingTable]
  dsimp only
  set b := nmbmBuildMappingTableLoop ni.mgmtStartBa 0 0 ni
  have hkeep : ∀ x < b.dataBlockCount, Inst.mapping { b with
      blockMapping := b.blockMapping.take b.dataBlockCount ++
        List.replicate (c.blockCount - b.dataBlockCount) 0xffffffff } x = b.mapping x := by
    intro x hx
    rw [Inst.mapping, Inst.mapping, List.getD_eq_getElem?_getD, List.getD_eq_getElem?_getD,
      List.getElem?_append_left (by rw [List.length_take]; omega),
      List.getElem?_take_of_lt hx]
  refine ⟨?_, ?_, h3, fun x hx => ?_, fun x hx y hy hxy => ?_⟩
  · rw [h1]
  · rw [List.length_append, List.length_take, List.length_replicate]
    omega
  · rw [hkeep x hx]
    exact h4.below x hx
  · rw [hkeep x hx, hkeep y hy] at hxy
    exact h4.injective x hx y hy hxy

/-! ## The tables -/

/-- The loop over the logical blocks that are left over. -/
lemma createMapLoop_spec {k : ℕ} {ni ni' : Inst} (hc : Consistent c ni)
    (hlen : ni.dataBlockCount + k ≤ ni.blockMapping.length)
    (h : createMapLoop c env k ni.dataBlockCount ni = ni') :
    Consistent c ni' ∧ (ni'.skipped = false → ni.skipped = false ∧
      (Allocated c ni.dataBlockCount ni → Allocated c ni'.dataBlockCount ni')) := by
  induction k generalizing ni with
  | zero =>
    subst h
    exact ⟨hc, fun hs => ⟨hs, id⟩⟩
  | succ k ih =>
    rw [createMapLoop] at h
    rcases hmap : nmbmMapBlock c env ni ni.dataBlockCount with ⟨r, ni1⟩
    rw [hmap] at h
    have hc1 := mapBlock_consistent c env hc hmap
    obtain ⟨e1, -⟩ := mapBlock_frame c env hc.layout hmap
    have halloc : ni1.skipped = false → Allocated c ni.dataBlockCount ni →
        (r = true → Allocated c (ni.dataBlockCount + 1) ni1) ∧
          (r = false → Allocated c ni.dataBlockCount ni1) := fun hs ha =>
      mapBlock_allocated c env _ hc.layout ha (by omega) (fun x hx => by omega) (by omega) hmap hs
    cases r with
    | false =>
      dsimp only at h
      subst h
      exact ⟨hc1, fun hs => ⟨mapBlock_skipped c env hc.layout hmap hs,
        fun ha => e1 ▸ (halloc hs ha).2 rfl⟩⟩
    | true =>
      dsimp only at h
      have hlen1 : ni1.blockMapping.length = ni.blockMapping.length :=
        hc1.shaped.mapping.trans hc.shaped.mapping.symm
      have hc2 : Consistent c { ni1 with dataBlockCount := ni1.dataBlockCount + 1 } :=
        ⟨⟨hc1.layout.mgmt_le, hc1.layout.top, hc1.layout.main, hc1.layout.backup⟩,
          ⟨hc1.shaped.state, hc1.shaped.mapping, hc1.shaped.offsets⟩, hc1.accounted,
          fun hp hl hch => (hc1.current hp hl hch).congr rfl rfl rfl rfl⟩
      rw [← e1] at h
      obtain ⟨h1, h2⟩ := ih hc2 (by dsimp only; omega) h
      refine ⟨h1, fun hs => ?_⟩
      obtain ⟨h3, h4⟩ := h2 hs
      refine ⟨mapBlock_skipped c env hc.layout hmap h3, fun ha => h4 ?_⟩
      dsimp only
      rw [e1]
      exact ((halloc h3 ha).1 rfl).congr rfl le_rfl rfl rfl

/-- The two tables of `nmbm_create_info_table` before the left-over blocks are mapped. -/
structure Rebuilt (ni ni2 : Inst) : Prop where
  consistent : Consistent c ni2
  blockMapping : ni2.blockMapping = ni.blockMapping
  dataBlockCount : ni2.dataBlockCount = ni.dataBlockCount
  mgmtStartBa : ni2.mgmtStartBa = ni.mgmtStartBa
  signatureBa : ni2.signatureBa = ni.signatureBa
  top_lt : ni2.mappingBlocksTopBa < ni.signatureBa
  signature : ni2.signature = ni.signature
  works : Works c.toGeom true ni.mgmtStartBa ni.signatureBa ni.chip ni2.chip

lemma createInfoTable_rebuilt {ni ni' : Inst} (hs : ni.Shaped c)
    (hmg : ni.mgmtStartBa < ni.signatureBa) (hsig : ni.signatureBa < c.blockCount)
    (h : nmbmCreateInfoTable c env ni = (true, ni')) :
    ∃ ni2, Rebuilt c ni ni2 ∧ nmbmUpdateInfoTable c env (createMapLoop c env
      (ni2.mgmtStartBa - ni2.dataBlockCount) ni2.dataBlockCount ni2) = (true, ni') := by
  rw [nmbmCreateInfoTable] at h
  split at h
  · exact absurd h (by simp)
  · rename_i top hw
    -- the watermark lies between the management start and the signature
    rw [nmbmBlockWalkDesc, if_neg (by omega)] at hw
    obtain ⟨h1, -, -, h2⟩ := blockWalkDescLoop_spec (by omega) hw
    have htop : top < ni.signatureBa := h2 Nat.one_pos
    set ni1 : Inst := { ni with mappingBlocksTopBa := top } with hni1
    dsimp only at h
    have hs1 : ni1.Shaped c := ⟨hs.state, hs.mapping, hs.offsets⟩
    have hsg : (nmbmGenerateInfoTableCache c ni1).2.Shaped c :=
      (updates_generateInfoTableCache c 0 0 ni1).shaped hs1
    rcases hreb : nmbmRebuildInfoTable c env (nmbmGenerateInfoTableCache c ni1).2 with ⟨r, ni2⟩
    rw [hreb] at h
    cases r with
    | false => exact absurd h (by simp)
    | true =>
      obtain ⟨hplaced, -⟩ := rebuildInfoTable_spec c env (generatedImage_ne_nil c ni1)
        (by change ni.mgmtStartBa ≤ top; omega) hreb
      obtain ⟨hr, hfresh, -⟩ := hplaced.refreshed (fun h => absurd h (by simp))
      have hacc : ni2.Accounted := hplaced.manages.accounted fun _ _ => rfl
      have hs2 := hplaced.manages.toUpdates.shaped hsg
      have hc2 : Consistent c ni2 := ⟨hr.layout, hs2, hacc, fun _ hl hch =>
        (hfresh rfl).1.holdsMemory hs2 ((hfresh rfl).2 (hacc hl hch))⟩
      refine ⟨ni2, ⟨hc2, (congrArg Inst.blockMapping hr.updates.frame :),
        (congrArg Inst.dataBlockCount hr.updates.frame :), hr.updates.mgmtStartBa,
        (congrArg Inst.signatureBa hr.updates.frame :), ?_,
        (congrArg Inst.signature hr.updates.frame :), hr.updates.works.mono le_rfl htop.le⟩, h⟩
      rw [hr.updates.mappingBlocksTopBa]
      exact htop

lemma createInfoTable_spec {ni ni' : Inst} (hs : ni.Shaped c)
    (hmg : ni.mgmtStartBa < ni.signatureBa) (hsig : ni.signatureBa < c.blockCount)
    (hd : ni.dataBlockCount ≤ ni.mgmtStartBa) (hdm : DataMapped ni.mgmtStartBa ni.dataBlockCount ni)
    (h : nmbmCreateInfoTable c env ni = (true, ni')) :
    Consistent c ni' ∧ (ni'.skipped = false → Allocated c ni'.dataBlockCount ni') := by
  obtain ⟨ni2, ⟨hc2, hm2, hd2, hmg2, hsig2, htop2, -, -⟩, h⟩ :=
    createInfoTable_rebuilt c env hs hmg hsig h
  have hs2 := hc2.shaped
  have hmap2 : ∀ x, ni2.mapping x = ni.mapping x := fun x => by
    rw [Inst.mapping, Inst.mapping, hm2]
  have ha2 : Allocated c ni2.dataBlockCount ni2 := by
    refine ⟨?_, by omega, by omega, fun x hx => ?_, fun x hx => ?_, fun x hx y hy hxy => ?_⟩
    · rw [hm2, hs.mapping]
      omega
    · rw [hmap2, hmg2]
      exact Or.inl (hdm.below x (hd2 ▸ hx))
    · rw [hmap2, hsig2]
      have := hdm.below x (hd2 ▸ hx)
      omega
    · rw [hmap2, hmap2] at hxy
      exact hdm.injective x (hd2 ▸ hx) y (hd2 ▸ hy) hxy
  obtain ⟨hc3, h3⟩ := createMapLoop_spec c env hc2
    (by rw [hs2.mapping]; omega) (k := ni2.mgmtStartBa - ni2.dataBlockCount) rfl
  refine ⟨updateInfoTable_consistent c env hc3 h, fun hskip => ?_⟩
  obtain ⟨hu, -, -⟩ := updateInfoTable_spec c env hc3.layout h
  have hs3 := (congrArg Inst.skipped hu.updates.frame).symm.trans hskip
  have hd4 : ni'.dataBlockCount = _ := (congrArg Inst.dataBlockCount hu.updates.frame :)
  rw [hd4]
  exact ((h3 hs3).2 ha2).updates hu.updates

lemma buildMappingTable_mgmtStartBa (ni : Inst) :
    (nmbmBuildMappingTable c ni).mgmtStartBa = ni.mgmtStartBa := by
  have hloop : ∀ (k pb lb : ℕ) (ni : Inst),
      (nmbmBuildMappingTableLoop k pb lb ni).mgmtStartBa = ni.mgmtStartBa := by
    intro k
    induction k with
    | zero => intro _ _ _; rfl
    | succ k ih =>
      intro pb lb ni
      rw [nmbmBuildMappingTableLoop]
      split
      · exact ih _ _ _
      · exact ih _ _ _
  exact hloop _ _ _ ni

/-- `ni1` is `ni` with the mapping built, below a signature that may have been written since. -/
structure Remapped (ni ni1 : Inst) : Prop where
  shaped : ni.Shaped c
  signature_lt : ni1.signatureBa < c.blockCount
  mgmt_lt : ni.mgmtStartBa < ni1.signatureBa
  frame : ∃ sig, ni1 = { nmbmBuildMappingTable c ni with
    chip := ni1.chip
    signature := sig
    blockState := ni1.blockState
    blockStateChanged := ni1.blockStateChanged
    unsaved := ni1.unsaved
    signatureBa := ni1.signatureBa }
  length : ni1.blockState.length = ni.blockState.length

lemma Remapped.spec {ni ni1 : Inst} (h : Remapped c ni ni1) :
    ni1.Shaped c ∧ ni1.blockMapping = (nmbmBuildMappingTable c ni).blockMapping ∧
      ni1.dataBlockCount = (nmbmBuildMappingTable c ni).dataBlockCount ∧
      ni1.mgmtStartBa = ni.mgmtStartBa ∧ ni1.dataBlockCount ≤ ni1.mgmtStartBa := by
  have := h.signature_lt
  have := h.mgmt_lt
  obtain ⟨sig, hframe⟩ := h.frame
  obtain ⟨hbuild, h1, h2, -⟩ := buildMappingTable_spec c h.shaped.mapping (by omega)
  have hm : ni1.blockMapping = (nmbmBuildMappingTable c ni).blockMapping :=
    (congrArg Inst.blockMapping hframe :)
  have hd : ni1.dataBlockCount = (nmbmBuildMappingTable c ni).dataBlockCount :=
    (congrArg Inst.dataBlockCount hframe :)
  have hmg : ni1.mgmtStartBa = ni.mgmtStartBa :=
    (congrArg Inst.mgmtStartBa hframe :).trans (buildMappingTable_mgmtStartBa c ni)
  have hinfo : ni1.infoTable = ni.infoTable :=
    (congrArg Inst.infoTable hframe :).trans (congrArg Inst.infoTable hbuild :)
  exact ⟨⟨h.length.trans h.shaped.state, hm ▸ h1, hinfo ▸ h.shaped.offsets⟩, hm, hd, hmg, by omega⟩

lemma createInfoTable_remapped {ni ni1 ni' : Inst} (h : Remapped c ni ni1)
    (hcreate : nmbmCreateInfoTable c env ni1 = (true, ni')) :
    Consistent c ni' ∧ (ni'.skipped = false → Allocated c ni'.dataBlockCount ni') := by
  have hsig := h.signature_lt
  have hlt := h.mgmt_lt
  obtain ⟨hs, hm, hd, hmg, hle⟩ := h.spec
  obtain ⟨-, -, -, h3⟩ := buildMappingTable_spec c h.shaped.mapping (by omega)
  have hmap : ∀ x, ni1.mapping x = (nmbmBuildMappingTable c ni).mapping x := fun x => by
    rw [Inst.mapping, Inst.mapping, hm]
  refine createInfoTable_spec c env hs (by omega) hsig hle
    ⟨fun x hx => ?_, fun x hx y hy hxy => ?_⟩ hcreate
  · rw [hmap, hmg]
    exact h3.below x (hd ▸ hx)
  · rw [hmap, hmap] at hxy
    exact h3.injective x (hd ▸ hx) y (hd ▸ hy) hxy

lemma createNew_cases {ni ni' : Inst} (hs : ni.Shaped c)
    (h : nmbmCreateNew c env ni = (true, ni')) :
    ∃ ni1, Remapped c (nmbmScanBadblocks c env { ni with mgmtStartBa := newMgmtStart c }) ni1 ∧
      nmbmCreateInfoTable c env ni1 = (true, ni') := by
  rw [nmbmCreateNew] at h
  dsimp only at h
  have hscan := inspects_scanBadblocks c env { ni with mgmtStartBa := newMgmtStart c }
  set ni2 := nmbmScanBadblocks c env { ni with mgmtStartBa := newMgmtStart c }
  have hm2 : ni2.blockMapping = ni.blockMapping := (congrArg Inst.blockMapping hscan.frame :)
  have hi2 : ni2.infoTable = ni.infoTable := (congrArg Inst.infoTable hscan.frame :)
  have hs2 : ni2.Shaped c :=
    ⟨hscan.length.trans hs.state, hm2 ▸ hs.mapping, hi2 ▸ hs.offsets⟩
  split at h
  · exact absurd h (by simp)
  · rename_i ba ni5 hw
    obtain ⟨hins, h1, h2⟩ := writeSignature_spec c env hw
    rw [buildMappingTable_mgmtStartBa] at h1
    have hbuild := (buildMappingTable_spec c hs2.mapping (by omega)).1
    have hst : (nmbmBuildMappingTable c ni2).blockState = ni2.blockState :=
      (congrArg Inst.blockState hbuild :)
    have hframe := congrArg (fun n : Inst => { n with signatureBa := ba }) hins.frame
    exact ⟨_, ⟨hs2, h2, h1, ⟨_, hframe⟩, hins.length.trans (by rw [hst])⟩, h⟩

end Nmbm
