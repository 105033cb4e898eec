import Mt798x.Nmbm.Update
import Mt798x.Nmbm.Image

/-!
# Mapping blocks

`nmbm_map_block` takes a spare block for a logical block, and `remap_block_nmbm` uses it.  Two
invariants are carried through them.

`Consistent` is about the tables: they are laid out in order, have their proper shape, and unless
the device is protected, a find was lost or a change is pending, the main table on flash holds the
tables in memory.

`Allocated d` is about the spare blocks: the first `d` logical blocks are mapped injectively, to
data blocks or to blocks above the watermark `mapping_blocks_top_ba`.  The watermark moves down by
one block whatever block was taken, so this invariant is kept only as long as the block at the
watermark is usable each time (`skipped = false`).
-/

namespace Nmbm

open Bytes Bmt

variable (c : Conf) (env : Env)

/-! ## The tables -/

/-- The image carries the tables in memory. -/
structure Carries (ni : Inst) (img : List Byte) : Prop where
  length : img.length = c.infoTableSize
  state : tableState c img = ni.blockState
  mapping : tableMapping c img = ni.blockMapping

/-- The table at `ba` on flash holds the tables in memory. -/
def HoldsMemory (ni : Inst) (ba : ℕ) : Prop :=
  ∃ img e, Stored c ni ba img e ∧ e ≤ ni.mappingBlocksBa ∧ Carries c ni img

variable {c} in
lemma HoldsMemory.congr {ni ni' : Inst} {ba : ℕ} (h : HoldsMemory c ni ba)
    (hchip : ni'.chip = ni.chip) (hst : ni'.blockState = ni.blockState)
    (hmap : ni'.blockMapping = ni.blockMapping)
    (hmb : ni'.mappingBlocksBa = ni.mappingBlocksBa) : HoldsMemory c ni' ba := by
  obtain ⟨img, e, hs, he, hcar⟩ := h
  exact ⟨img, e, hs.of_eq hst hchip, hmb ▸ he, hcar.length, hcar.state.trans hst.symm,
    hcar.mapping.trans hmap.symm⟩

/-- The tables in memory and on flash belong together. -/
structure Consistent (ni : Inst) : Prop where
  layout : Layout ni
  shaped : ni.Shaped c
  accounted : ni.Accounted
  current : ni.isProtected = false → ni.lost = false → ni.changed = false →
    HoldsMemory c ni ni.mainTableBa

variable {c} in
lemma Holds.holdsMemory {ni : Inst} {ba : ℕ} (hs : ni.Shaped c) (h : Holds c ni ba)
    (himg : Imaged c ni) : HoldsMemory c ni ba := by
  obtain ⟨e, hst, he⟩ := h
  obtain ⟨ni0, hcache, h1, h2, h3, h4⟩ := himg
  have hs0 : ni0.Shaped c := by
    refine ⟨h1 ▸ hs.state, h2 ▸ hs.mapping, ⟨?_, ?_, ?_⟩⟩
    · rw [h3]
      exact hs.offsets.header
    · rw [h3, h4]
      exact hs.offsets.state
    · rw [h4]
      exact hs.offsets.mapping
  refine ⟨ni.infoTableCache, e, hst, he, ?_, ?_, ?_⟩
  · rw [hcache, length_generatedImage hs0]
  · rw [hcache, tableState_generatedImage hs0, h1]
  · rw [hcache, tableMapping_generatedImage hs0, h2]

variable {c} in
lemma Updates.shaped {lo hi : ℕ} {ni ni' : Inst} (h : Updates c lo hi ni ni')
    (hs : ni.Shaped c) : ni'.Shaped c := by
  have hmap : ni'.blockMapping = ni.blockMapping := (congrArg Inst.blockMapping h.frame :)
  refine ⟨h.length.trans hs.state, hmap ▸ hs.mapping, ⟨?_, ?_, ?_⟩⟩
  · rw [h.offsets.1]
    exact hs.offsets.header
  · rw [h.offsets.1, h.offsets.2]
    exact hs.offsets.state
  · rw [h.offsets.2]
    exact hs.offsets.mapping

variable {ni ni' : Inst} {r : Bool} {lb block mappedBlock copyLen : ℕ}

lemma updateInfoTable_consistent (hc : Consistent c ni)
    (h : nmbmUpdateInfoTable c env ni = (r, ni')) : Consistent c ni' := by
  obtain ⟨hr, -, hfresh⟩ := updateInfoTable_spec c env hc.layout h
  have hacc := hr.updates.accounted hc.accounted
  have hsh := hr.updates.shaped hc.shaped
  refine ⟨hr.layout, hsh, hacc, fun hp hl hch => ?_⟩
  have hrt : r = true := by
    by_contra hne
    rw [hr.refused (by simpa using hne)] at hp
    exact absurd hp (by simp)
  rcases hfresh hrt with rfl | hf
  · exact hc.current hp hl hch
  · exact hf.1.holdsMemory hsh (hf.2 (hacc hl hch))

/-! ## The walk for a spare block -/

lemma blockWalkDescLoop_spec {k ba count r : ℕ} (hk : k ≤ ba)
    (h : nmbmBlockWalkDescLoop ni k ba count = some r) :
    ba < r + k ∧ r ≤ ba ∧ nmbmGetBlockState ni r = blockStGood ∧ (0 < count → r < ba) := by
  induction k generalizing ba count with
  | zero => exact absurd h (by simp [nmbmBlockWalkDescLoop])
  | succ k ih =>
    rw [nmbmBlockWalkDescLoop] at h
    split at h
    · rename_i hg
      split at h
      · rename_i h0
        rw [Option.some.injEq] at h
        subst h
        exact ⟨by omega, le_rfl, hg, fun hc => by omega⟩
      · obtain ⟨h1, h2, h3, -⟩ := ih (by omega) h
        exact ⟨by omega, by omega, h3, fun _ => by omega⟩
    · obtain ⟨h1, h2, h3, -⟩ := ih (by omega) h
      exact ⟨by omega, by omega, h3, fun _ => by omega⟩

lemma blockWalkDescLoop_first {k ba : ℕ} (hk : 0 < k) (h : nmbmGetBlockState ni ba = blockStGood) :
    nmbmBlockWalkDescLoop ni k ba 0 = some ba := by
  obtain ⟨m, rfl⟩ := Nat.exists_eq_succ_of_ne_zero hk.ne'
  rw [nmbmBlockWalkDescLoop, if_pos h, if_pos rfl]

/-- What `nmbm_map_block` can do: there is no spare block, none is usable, or one is taken. -/
lemma mapBlock_cases (h : nmbmMapBlock c env ni lb = (r, ni')) :
    (r = false ∧ ni' = ni) ∨
      (∃ r1 ni1, r = false ∧ nmbmUpdateInfoTable c env ni = (r1, ni1) ∧
        ni' = { ni1 with mappingBlocksTopBa := ni1.mappingBlocksBa }) ∨
      (∃ pb, r = true ∧ ni.mappingBlocksBa ≠ ni.mappingBlocksTopBa ∧
        nmbmBlockWalkDesc c ni ni.mappingBlocksTopBa 0 ni.mappingBlocksBa = some pb ∧
        ni' = { ni with
          blockMapping := ni.blockMapping.set lb (UInt32.ofNat pb)
          mappingBlocksTopBa := ni.mappingBlocksTopBa - 1
          blockMappingChanged := ni.blockMappingChanged + 1
          skipped := ni.skipped ||
            nmbmGetBlockState ni ni.mappingBlocksTopBa != blockStGood }) := by
  rw [nmbmMapBlock] at h
  split at h
  · rw [Prod.mk.injEq] at h
    exact Or.inl ⟨h.1.symm, h.2.symm⟩
  · rename_i hne
    split at h
    · rw [Prod.mk.injEq] at h
      exact Or.inr (Or.inl ⟨_, _, h.1.symm, rfl, h.2.symm⟩)
    · rename_i pb hw
      rw [Prod.mk.injEq] at h
      exact Or.inr (Or.inr ⟨pb, h.1.symm, hne, hw, h.2.symm⟩)

lemma mapBlock_consistent (hc : Consistent c ni) (h : nmbmMapBlock c env ni lb = (r, ni')) :
    Consistent c ni' := by
  rcases mapBlock_cases c env h with ⟨-, rfl⟩ | ⟨r1, ni1, -, hu, rfl⟩ | ⟨pb, -, hne, -, rfl⟩
  · exact hc
  · obtain ⟨h1, h2, h3, h4⟩ := updateInfoTable_consistent c env hc hu
    refine ⟨⟨h1.mgmt_le, le_rfl, h1.main, h1.backup⟩, ⟨h2.state, h2.mapping, h2.offsets⟩, h3,
      fun hp hl hch => ?_⟩
    exact (h4 hp hl hch).congr rfl rfl rfl rfl
  · obtain ⟨h1, h2, h3, -⟩ := hc
    have htop := h1.top
    refine ⟨⟨h1.mgmt_le, by dsimp only; omega, h1.main, h1.backup⟩,
      ⟨h2.state, (List.length_set).trans h2.mapping, h2.offsets⟩, fun _ hch => ?_, fun _ _ hch => ?_⟩
    · exact absurd hch (by simp [Inst.changed])
    · exact absurd hch (by simp [Inst.changed])

/-! ## The spare blocks -/

/-- The first `d` logical blocks are mapped injectively to data blocks and to blocks above the
watermark, and not to the signature. -/
structure Allocated (d : ℕ) (ni : Inst) : Prop where
  length : d ≤ ni.blockMapping.length
  top_lt : ni.mappingBlocksTopBa < ni.signatureBa
  signature_lt : ni.signatureBa < c.blockCount
  target : ∀ lb < d, (ni.mapping lb).toNat < ni.mgmtStartBa ∨
    ni.mappingBlocksTopBa < (ni.mapping lb).toNat
  signature : ∀ lb < d, (ni.mapping lb).toNat ≠ ni.signatureBa
  injective : ∀ lb < d, ∀ lb' < d, ni.mapping lb = ni.mapping lb' → lb = lb'

namespace Allocated

variable {c} {d : ℕ} {ni ni' : Inst}

lemma congr (h : Allocated c d ni) (hm : ni'.blockMapping = ni.blockMapping)
    (htop : ni'.mappingBlocksTopBa ≤ ni.mappingBlocksTopBa)
    (hmg : ni'.mgmtStartBa = ni.mgmtStartBa) (hsig : ni'.signatureBa = ni.signatureBa) :
    Allocated c d ni' := by
  have hmap : ∀ lb, ni'.mapping lb = ni.mapping lb := fun lb => by
    rw [Inst.mapping, Inst.mapping, hm]
  refine ⟨hm ▸ h.length, by rw [hsig]; exact htop.trans_lt h.top_lt, hsig ▸ h.signature_lt,
    fun lb hlb => ?_, fun lb hlb => ?_, fun lb hlb lb' hlb' => ?_⟩
  · rw [hmap, hmg]
    exact (h.target lb hlb).imp_right htop.trans_lt
  · rw [hmap, hsig]
    exact h.signature lb hlb
  · rw [hmap, hmap]
    exact h.injective lb hlb lb' hlb'

lemma updates {lo hi : ℕ} (h : Allocated c d ni) (hu : Updates c lo hi ni ni') :
    Allocated c d ni' :=
  h.congr (congrArg Inst.blockMapping hu.frame :) hu.mappingBlocksTopBa.le hu.mgmtStartBa
    (congrArg Inst.signatureBa hu.frame :)

end Allocated

lemma mapping_set {v : UInt32} (hm : ni'.blockMapping = ni.blockMapping.set lb v)
    (h : lb < ni.blockMapping.length) (x : ℕ) :
    ni'.mapping x = if x = lb then v else ni.mapping x := by
  rw [Inst.mapping, Inst.mapping, hm]
  by_cases hx : x = lb
  · subst hx
    rw [if_pos rfl, List.getD_eq_getElem?_getD, List.getElem?_set_self h]
    rfl
  · rw [if_neg hx, List.getD_eq_getElem?_getD, List.getElem?_set_ne (Ne.symm hx),
      List.getD_eq_getElem?_getD]

variable {c} in
/-- Taking the block at the watermark. -/
lemma Allocated.take_top {ni ni' : Inst} {lb d d' : ℕ} (ha : Allocated c d ni)
    (hmg : ni.mgmtStartBa < ni.mappingBlocksTopBa) (hlb : lb < ni.blockMapping.length)
    (hd : ∀ x < d', x = lb ∨ x < d) (hd' : d' ≤ ni.blockMapping.length)
    (hm : ni'.blockMapping = ni.blockMapping.set lb (UInt32.ofNat ni.mappingBlocksTopBa))
    (htop : ni'.mappingBlocksTopBa = ni.mappingBlocksTopBa - 1)
    (hmg' : ni'.mgmtStartBa = ni.mgmtStartBa) (hsig' : ni'.signatureBa = ni.signatureBa) :
    Allocated c d' ni' := by
  have hsig := ha.signature_lt
  have htl := ha.top_lt
  have hbc : c.blockCount < 2 ^ 16 := c.total_lt
  have hpb : (UInt32.ofNat ni.mappingBlocksTopBa).toNat = ni.mappingBlocksTopBa := by
    rw [UInt32.toNat_ofNat', Nat.mod_eq_of_lt (by omega)]
  have hmap := mapping_set hm hlb
  have hfresh : ∀ x < d, (ni.mapping x).toNat ≠ ni.mappingBlocksTopBa := fun x hx => by
    have := ha.target x hx
    omega
  refine ⟨?_, by omega, by omega, fun x hx => ?_, fun x hx => ?_, fun x hx y hy hxy => ?_⟩
  · rw [hm, List.length_set]
    exact hd'
  · rw [hmap x, htop, hmg']
    split
    · rw [hpb]
      omega
    · rename_i hne
      have := ha.target x ((hd x hx).resolve_left hne)
      omega
  · rw [hmap x, hsig']
    split
    · rw [hpb]
      omega
    · rename_i hne
      exact ha.signature x ((hd x hx).resolve_left hne)
  · rw [hmap x, hmap y] at hxy
    split at hxy <;> rename_i hx'
    · split at hxy <;> rename_i hy'
      · exact hx'.trans hy'.symm
      · exact absurd (by rw [← hxy, hpb]) (hfresh y ((hd y hy).resolve_left hy'))
    · split at hxy <;> rename_i hy'
      · exact absurd (by rw [hxy, hpb]) (hfresh x ((hd x hx).resolve_left hx'))
      · exact ha.injective x ((hd x hx).resolve_left hx') y ((hd y hy).resolve_left hy') hxy

/-- `nmbm_map_block` hands out the block at the watermark, as long as that is usable.  The first
`d'` logical blocks are the first `d` and the one that is mapped. -/
lemma mapBlock_allocated (d' : ℕ) {d : ℕ} (hlay : Layout ni) (ha : Allocated c d ni)
    (hlb : lb < ni.blockMapping.length) (hd : ∀ x < d', x = lb ∨ x < d)
    (hd' : d' ≤ ni.blockMapping.length) (h : nmbmMapBlock c env ni lb = (r, ni'))
    (hskip : ni'.skipped = false) :
    (r = true → Allocated c d' ni') ∧ (r = false → Allocated c d ni') := by
  rcases mapBlock_cases c env h with ⟨rfl, rfl⟩ | ⟨r1, ni1, rfl, hu, rfl⟩ | ⟨pb, rfl, hne, hw, rfl⟩
  · exact ⟨fun h => absurd h (by simp), fun _ => ha⟩
  · obtain ⟨hr, -, -⟩ := updateInfoTable_spec c env hlay hu
    exact ⟨fun h => absurd h (by simp),
      fun _ => (ha.updates hr.updates).congr rfl hr.layout.top rfl rfl⟩
  · refine ⟨fun _ => ?_, fun h => absurd h (by simp)⟩
    have hmb := hlay.top
    have hmg := hlay.mgmt_le
    have hsig := ha.signature_lt
    have htl := ha.top_lt
    -- the block at the watermark is good, so the walk stops there
    simp only [Bool.or_eq_false_iff, bne_eq_false_iff_eq] at hskip
    obtain rfl : pb = ni.mappingBlocksTopBa := by
      rw [nmbmBlockWalkDesc, if_neg (by omega),
        blockWalkDescLoop_first (by omega) hskip.2, Option.some.injEq] at hw
      exact hw.symm
    exact ha.take_top (by omega) hlb hd hd' rfl rfl rfl rfl

lemma mapBlock_layout (hlay : Layout ni) (h : nmbmMapBlock c env ni lb = (r, ni')) :
    Layout ni' := by
  rcases mapBlock_cases c env h with ⟨-, rfl⟩ | ⟨r1, ni1, -, hu, rfl⟩ | ⟨pb, -, hne, -, rfl⟩
  · exact hlay
  · obtain ⟨hr, -, -⟩ := updateInfoTable_spec c env hlay hu
    exact ⟨hr.layout.mgmt_le, le_rfl, hr.layout.main, hr.layout.backup⟩
  · have htop := hlay.top
    exact ⟨hlay.mgmt_le, by dsimp only; omega, hlay.main, hlay.backup⟩

lemma mapBlock_skipped (hlay : Layout ni) (h : nmbmMapBlock c env ni lb = (r, ni'))
    (hskip : ni'.skipped = false) : ni.skipped = false := by
  rcases mapBlock_cases c env h with ⟨-, rfl⟩ | ⟨r1, ni1, -, hu, rfl⟩ | ⟨pb, -, -, -, rfl⟩
  · exact hskip
  · obtain ⟨hr, -, -⟩ := updateInfoTable_spec c env hlay hu
    exact (congrArg Inst.skipped hr.updates.frame).symm.trans hskip
  · simp only [Bool.or_eq_false_iff] at hskip
    exact hskip.1

/-! ## Remapping -/

lemma setBlockState_frame (ni : Inst) (ba : ℕ) (st : UInt32) :
    nmbmSetBlockState ni ba st = { ni with
      blockState := (nmbmSetBlockState ni ba st).blockState
      blockStateChanged := (nmbmSetBlockState ni ba st).blockStateChanged
      unsaved := (nmbmSetBlockState ni ba st).unsaved } := by
  rw [nmbmSetBlockState]
  dsimp only
  split <;> rfl

/-- The data a remap moves: the chip after the erase of the new block and the copy. -/
def movedChip (ni : Inst) (block mappedBlock copyLen : ℕ) : Chip :=
  let newBlock := u16 (ni.mapping block).toNat
  let chip := (bbtNandErase c.toGeom env ni.chip newBlock).2
  if copyLen > 0 then (bbtNandCopy c.toGeom env chip newBlock mappedBlock copyLen).2 else chip

lemma remapBlock_cases (h : remapBlockNmbm c env ni block mappedBlock copyLen = (r, ni')) :
    (r = false ∧ ni.dataBlockCount ≤ block ∧ ni' = ni) ∨
      (r = false ∧ block < ni.dataBlockCount ∧
        nmbmMapBlock c env (nmbmSetBlockState ni mappedBlock blockStBad) block = (false, ni')) ∨
      (∃ ni1 r1, r = true ∧ block < ni.dataBlockCount ∧
        nmbmMapBlock c env (nmbmSetBlockState ni mappedBlock blockStBad) block = (true, ni1) ∧
        nmbmUpdateInfoTable c env
          { ni1 with chip := movedChip c env ni1 block mappedBlock copyLen } = (r1, ni')) := by
  rw [remapBlockNmbm] at h
  split at h
  · rename_i hge
    rw [Prod.mk.injEq] at h
    exact Or.inl ⟨h.1.symm, hge, h.2.symm⟩
  · rename_i hlt
    rcases hmap : nmbmMapBlock c env (nmbmSetBlockState ni mappedBlock blockStBad) block with
      ⟨r1, ni1⟩
    rw [hmap] at h
    cases r1 with
    | false =>
      rw [Prod.mk.injEq] at h
      obtain ⟨rfl, rfl⟩ := h
      exact Or.inr (Or.inl ⟨rfl, by omega, rfl⟩)
    | true =>
      rw [Prod.mk.injEq] at h
      obtain ⟨rfl, rfl⟩ := h
      exact Or.inr (Or.inr ⟨ni1, _, rfl, by omega, rfl, rfl⟩)

lemma setBlockState_bad_cases (ni : Inst) (ba : ℕ) :
    nmbmSetBlockState ni ba blockStBad = ni ∨
      (nmbmSetBlockState ni ba blockStBad).changed = true := by
  rw [nmbmSetBlockState]
  dsimp only
  split
  · right
    simp [Inst.changed]
  · rename_i h
    left
    rw [not_not] at h
    rw [TwoBit.set_get_self h]

lemma setBlockState_bad_consistent (hc : Consistent c ni) (ba : ℕ) :
    Consistent c (nmbmSetBlockState ni ba blockStBad) := by
  rcases setBlockState_bad_cases ni ba with h | h
  · rw [h]
    exact hc
  · have hframe := setBlockState_frame ni ba blockStBad
    have hlen : (nmbmSetBlockState ni ba blockStBad).blockState.length = ni.blockState.length := by
      rw [nmbmSetBlockState]
      dsimp only
      split <;> exact TwoBit.length_set _ _ _
    refine ⟨?_, ?_, fun _ hch => ?_, fun _ _ hch => ?_⟩
    · rw [hframe]
      exact ⟨hc.layout.mgmt_le, hc.layout.top, hc.layout.main, hc.layout.backup⟩
    · refine ⟨hlen.trans hc.shaped.state, ?_, ?_⟩
      · rw [hframe]
        exact hc.shaped.mapping
      · rw [hframe]
        exact hc.shaped.offsets
    · rw [h] at hch
      exact absurd hch (by simp)
    · rw [h] at hch
      exact absurd hch (by simp)

lemma works_movedChip (ni : Inst) (block mappedBlock copyLen : ℕ) :
    Works c.toGeom false (u16 (ni.mapping block).toNat) (u16 (ni.mapping block).toNat + 1) ni.chip
      (movedChip c env ni block mappedBlock copyLen) := by
  have he := Chip.works_erase c.toGeom env false ni.chip (u16 (ni.mapping block).toNat)
  rw [movedChip]
  split
  · exact he.trans (works_bbtNandCopy c.toGeom env _ _ _ _)
  · exact he

lemma mapBlock_moved_consistent {ni1 : Inst} (hc : Consistent c ni)
    (hmap : nmbmMapBlock c env ni block = (true, ni1)) (mappedBlock copyLen : ℕ) :
    Consistent c { ni1 with chip := movedChip c env ni1 block mappedBlock copyLen } := by
  obtain ⟨h1, h2, h3, -⟩ := mapBlock_consistent c env hc hmap
  have hch : ni1.changed = true := by
    rcases mapBlock_cases c env hmap with ⟨hr, -⟩ | ⟨_, _, hr, -⟩ | ⟨pb, -, -, -, rfl⟩
    · exact absurd hr (by simp)
    · exact absurd hr (by simp)
    · simp [Inst.changed]
  exact ⟨⟨h1.mgmt_le, h1.top, h1.main, h1.backup⟩, ⟨h2.state, h2.mapping, h2.offsets⟩, h3,
    fun _ _ hn => absurd (hch.symm.trans hn) (by simp)⟩

lemma remapBlock_consistent (hc : Consistent c ni)
    (h : remapBlockNmbm c env ni block mappedBlock copyLen = (r, ni')) : Consistent c ni' := by
  have hset := setBlockState_bad_consistent c hc mappedBlock
  rcases remapBlock_cases c env h with ⟨-, -, rfl⟩ | ⟨-, -, hmap⟩ | ⟨ni1, r1, -, -, hmap, hu⟩
  · exact hc
  · exact mapBlock_consistent c env hset hmap
  · exact updateInfoTable_consistent c env
      (mapBlock_moved_consistent c env hset hmap mappedBlock copyLen) hu

lemma mapBlock_frame (hlay : Layout ni) (h : nmbmMapBlock c env ni lb = (r, ni')) :
    ni'.dataBlockCount = ni.dataBlockCount ∧ ni'.signatureBa = ni.signatureBa ∧
      ni'.mgmtStartBa = ni.mgmtStartBa ∧ (r = false → ni'.blockMapping = ni.blockMapping) ∧
      Works c.toGeom true ni.mgmtStartBa ni.mappingBlocksTopBa ni.chip ni'.chip := by
  rcases mapBlock_cases c env h with ⟨-, rfl⟩ | ⟨r1, ni1, -, hu, rfl⟩ | ⟨pb, rfl, -, -, rfl⟩
  · exact ⟨rfl, rfl, rfl, fun _ => rfl, Works.refl _ _ _ _ _⟩
  · obtain ⟨hr, -, -⟩ := updateInfoTable_spec c env hlay hu
    exact ⟨(congrArg Inst.dataBlockCount hr.updates.frame :),
      (congrArg Inst.signatureBa hr.updates.frame :), hr.updates.mgmtStartBa,
      fun _ => (congrArg Inst.blockMapping hr.updates.frame :), hr.updates.works⟩
  · exact ⟨rfl, rfl, rfl, fun h => absurd h (by simp), Works.refl _ _ _ _ _⟩

/-- The entry is not one of the table management on a block that is in use. -/
def SparesData (ni : Inst) (e : Entry) : Prop :=
  e.mgmt = true → (∀ lb < ni.dataBlockCount, e.op.block ≠ (ni.mapping lb).toNat) ∧
    e.op.block ≠ ni.signatureBa

lemma SparesData.congr {e : Entry} (h : SparesData ni e)
    (hd : ni'.dataBlockCount = ni.dataBlockCount) (hm : ni'.blockMapping = ni.blockMapping)
    (hs : ni'.signatureBa = ni.signatureBa) : SparesData ni' e := by
  intro hmgmt
  obtain ⟨h1, h2⟩ := h hmgmt
  refine ⟨fun lb hlb => ?_, hs ▸ h2⟩
  rw [Inst.mapping, hm]
  exact h1 lb (hd ▸ hlb)

variable {c} in
lemma Allocated.sparesData {ni : Inst} {mgmt : Bool} {chip chip' : Chip}
    (ha : Allocated c ni.dataBlockCount ni)
    (hw : Works c.toGeom mgmt ni.mgmtStartBa ni.mappingBlocksTopBa chip chip') :
    Trace.Grows (SparesData ni) chip.log chip'.log := by
  refine hw.log.mono fun e he _ => ⟨fun lb hlb heq => ?_, fun heq => ?_⟩
  · have h1 := he.2.1.1
    have h2 := he.2.1.2
    have := ha.target lb hlb
    omega
  · have := he.2.1.2
    have := ha.top_lt
    omega

lemma setBlockState_layout (hlay : Layout ni) (ba : ℕ) (st : UInt32) :
    Layout (nmbmSetBlockState ni ba st) := by
  rw [setBlockState_frame]
  exact ⟨hlay.mgmt_le, hlay.top, hlay.main, hlay.backup⟩

lemma remapBlock_skipped (hlay : Layout ni)
    (h : remapBlockNmbm c env ni block mappedBlock copyLen = (r, ni')) (hskip : ni'.skipped = false) :
    ni.skipped = false := by
  have hlay0 := setBlockState_layout hlay mappedBlock blockStBad
  have hskip0 : (nmbmSetBlockState ni mappedBlock blockStBad).skipped = ni.skipped := by
    rw [setBlockState_frame]
  rw [← hskip0]
  rcases remapBlock_cases c env h with ⟨-, -, rfl⟩ | ⟨-, -, hmap⟩ | ⟨ni1, r1, -, -, hmap, hu⟩
  · rw [hskip0]
    exact hskip
  · exact mapBlock_skipped c env hlay0 hmap hskip
  · have hlay1 := mapBlock_layout c env hlay0 hmap
    obtain ⟨hr, -, -⟩ := updateInfoTable_spec c env
      (⟨hlay1.mgmt_le, hlay1.top, hlay1.main, hlay1.backup⟩ :
        Layout { ni1 with chip := movedChip c env ni1 block mappedBlock copyLen }) hu
    exact mapBlock_skipped c env hlay0 hmap
      ((congrArg Inst.skipped hr.updates.frame).symm.trans hskip)

/-- `remap_block_nmbm` keeps the mapping injective and its management spares the blocks in use,
as long as the block at the watermark is usable. -/
lemma remapBlock_allocated (hlay : Layout ni) (ha : Allocated c ni.dataBlockCount ni)
    (h : remapBlockNmbm c env ni block mappedBlock copyLen = (r, ni')) (hskip : ni'.skipped = false)
    :
    Allocated c ni'.dataBlockCount ni' ∧
      Trace.Grows (SparesData ni') ni.chip.log ni'.chip.log := by
  have hframe := setBlockState_frame ni mappedBlock blockStBad
  have hlay0 := setBlockState_layout hlay mappedBlock blockStBad
  have hcases := remapBlock_cases c env h
  generalize nmbmSetBlockState ni mappedBlock blockStBad = ni0 at hframe hcases hlay0
  have hd0 : ni0.dataBlockCount = ni.dataBlockCount := (congrArg Inst.dataBlockCount hframe :)
  have hchip0 : ni0.chip = ni.chip := (congrArg Inst.chip hframe :)
  have ha0 : Allocated c ni0.dataBlockCount ni0 := by
    rw [hd0]
    exact ha.congr (congrArg Inst.blockMapping hframe :)
      (congrArg Inst.mappingBlocksTopBa hframe :).le
      (congrArg Inst.mgmtStartBa hframe :) (congrArg Inst.signatureBa hframe :)
  rw [← hchip0]
  rcases hcases with ⟨-, -, rfl⟩ | ⟨-, hlt, hmap⟩ | ⟨ni1, r1, -, hlt, hmap, hu⟩
  · exact ⟨ha, hchip0 ▸ Trace.Grows.refl _ _⟩
  · have ha' := (mapBlock_allocated c env ni0.dataBlockCount hlay0 ha0 (by have := ha0.length; omega)
      (fun x hx => Or.inr hx) ha0.length hmap hskip).2 rfl
    obtain ⟨e1, e2, -, e4, hw⟩ := mapBlock_frame c env hlay0 hmap
    refine ⟨e1 ▸ ha', ?_⟩
    exact (ha0.sparesData hw).mono fun e he => he.congr e1 (e4 rfl) e2
  · have hlay1 := mapBlock_layout c env hlay0 hmap
    obtain ⟨e1, e2, e3, -, hw⟩ := mapBlock_frame c env hlay0 hmap
    obtain ⟨hr, -, -⟩ := updateInfoTable_spec c env
      (⟨hlay1.mgmt_le, hlay1.top, hlay1.main, hlay1.backup⟩ :
        Layout { ni1 with chip := movedChip c env ni1 block mappedBlock copyLen }) hu
    have hd2 : ni'.dataBlockCount = ni1.dataBlockCount :=
      (congrArg Inst.dataBlockCount hr.updates.frame :)
    have hs2 : ni'.skipped = ni1.skipped := (congrArg Inst.skipped hr.updates.frame :)
    have ha1 := (mapBlock_allocated c env ni0.dataBlockCount hlay0 ha0 (by have := ha0.length; omega)
      (fun x hx => Or.inr hx) ha0.length hmap (hs2 ▸ hskip)).1 rfl
    rw [← e1] at ha1
    have ha2 : Allocated c ni1.dataBlockCount
        { ni1 with chip := movedChip c env ni1 block mappedBlock copyLen } :=
      ha1.congr rfl le_rfl rfl rfl
    have hchip1 : ni1.chip = ni0.chip := by
      rcases mapBlock_cases c env hmap with ⟨hr, -⟩ | ⟨_, _, hr, -⟩ | ⟨pb, -, -, -, rfl⟩
      · exact absurd hr (by simp)
      · exact absurd hr (by simp)
      · rfl
    refine ⟨hd2 ▸ ha2.updates hr.updates, ?_⟩
    have hdata := (works_movedChip c env ni1 block mappedBlock copyLen).log
    rw [hchip1] at hdata
    have hmgmt := Allocated.sparesData ha2 hr.updates.works
    refine (hdata.mono fun e he hm => ?_).trans (hmgmt.mono fun e he => he.congr hd2
      (congrArg Inst.blockMapping hr.updates.frame :) (congrArg Inst.signatureBa hr.updates.frame :))
    rw [he.1] at hm
    exact absurd hm (by simp)

end Nmbm
