import Mt798x.Nmbm.Load

/-!
# Runs

A device is attached once and blocks are remapped after that, in any order and with any failures
of the chip.  The invariants of `Nmbm/Mapping.lean` hold along all such runs, those about the spare
blocks as long as `nmbm_map_block` finds a usable block at `mapping_blocks_top_ba`.

The slip is in `nmbm_map_block`: it takes the next usable block at or below
`mapping_blocks_top_ba`, but lowers this watermark by one block only.  After a bad block was
stepped over, the watermark is not below the block that was taken, which is then handed out again
or overwritten with an info table.
-/

namespace Nmbm

open Bytes Bmt

variable (c : Conf) (env : Env)

/-! ## Reachable states -/

/-- The states after a successful `nmbm_attach` and any sequence of `remap_block_nmbm`. -/
inductive Reach (chip : Chip) : Inst → Prop
  | attach {ni : Inst} (h : nmbmAttach c env chip = some (0, ni)) : Reach chip ni
  | remap {ni : Inst} (h : Reach chip ni) (block mappedBlock copyLen : ℕ) :
      Reach chip (remapBlockNmbm c env ni block mappedBlock copyLen).2

/-- `nmbm_attach`, and then the given calls of `remap_block_nmbm`. -/
def nmbmRun (chip : Chip) (calls : List (ℕ × ℕ × ℕ)) : Option Inst :=
  match nmbmAttach c env chip with
  | some (0, ni) =>
    some (calls.foldl (fun ni call => (remapBlockNmbm c env ni call.1 call.2.1 call.2.2).2) ni)
  | _ => none

variable {c env} {chip : Chip}

lemma Reach.foldl {ni : Inst} (h : Reach c env chip ni) (calls : List (ℕ × ℕ × ℕ)) :
    Reach c env chip
      (calls.foldl (fun ni call => (remapBlockNmbm c env ni call.1 call.2.1 call.2.2).2) ni) := by
  induction calls generalizing ni with
  | nil => exact h
  | cons call calls ih => exact ih (h.remap call.1 call.2.1 call.2.2)

lemma reach_run {calls : List (ℕ × ℕ × ℕ)} {ni : Inst} (h : nmbmRun c env chip calls = some ni) :
    Reach c env chip ni := by
  rw [nmbmRun] at h
  split at h
  · rename_i ni0 hattach
    rw [Option.some.injEq] at h
    subst h
    exact (Reach.attach hattach).foldl calls
  · exact absurd h (by simp)

lemma Reach.consistent (hsane : SaneFlash c chip.flash) {ni : Inst} (h : Reach c env chip ni) :
    Consistent c ni := by
  induction h with
  | attach h => exact (attach_spec c env hsane h).1
  | remap _ block mappedBlock copyLen ih => exact remapBlock_consistent c env ih rfl

lemma Reach.allocated (hsane : SaneFlash c chip.flash) {ni : Inst} (h : Reach c env chip ni)
    (hskip : ni.skipped = false) : Allocated c ni.dataBlockCount ni := by
  induction h with
  | attach h => exact (attach_spec c env hsane h).2 hskip
  | @remap ni h block mappedBlock copyLen ih =>
    have hlay := (h.consistent hsane).layout
    have hskip0 : ni.skipped = false := remapBlock_skipped c env hlay rfl hskip
    exact (remapBlock_allocated c env hlay (ih hskip0) rfl hskip).1

/-! ## An empty chip -/

lemma mem_peek_blank {f : Flash} (hblank : ∀ p, f.pages p = some c.blankPage) {addr size : ℕ}
    {d : List Byte} (h : peek c f addr size = some d) : ∀ b ∈ d, b = 0xff := by
  induction size using Nat.strong_induction_on generalizing addr d with
  | _ size ih =>
    by_cases h0 : size = 0
    · subst h0
      rw [peek_zero, Option.some.injEq] at h
      rw [← h]
      exact fun b hb => absurd hb List.not_mem_nil
    · have hpos := chunksize_pos c addr h0
      rw [peek_step c h0, hblank] at h
      obtain ⟨d', hd', rfl⟩ := Option.map_eq_some_iff.mp h
      intro b hb
      rcases List.mem_append.mp hb with hb | hb
      · have hfit := List.mem_of_mem_drop (List.mem_of_mem_take hb)
        rw [Geom.fit_of_length (by simp [Geom.blankPage])] at hfit
        exact List.eq_of_mem_replicate hfit
      · exact ih _ (by omega) hd' b hb

lemma rd32_peek_blank {f : Flash} (hblank : ∀ p, f.pages p = some c.blankPage) {addr size : ℕ}
    {d : List Byte} (hsize : 4 ≤ size) (h : peek c f addr size = some d) :
    rd32 d = 0xffffffff := by
  have hmem := mem_peek_blank hblank h
  have hlen := peek_length c h
  obtain ⟨d0, d1, d2, d3, t, rfl⟩ : ∃ d0 d1 d2 d3 t, d = d0 :: d1 :: d2 :: d3 :: t := by
    match d, hlen with
    | d0 :: d1 :: d2 :: d3 :: t, _ => exact ⟨d0, d1, d2, d3, t, rfl⟩
    | [], hl => simp at hl; omega
    | [_], hl => simp at hl; omega
    | [_, _], hl => simp at hl; omega
    | [_, _, _], hl => simp at hl; omega
  have hword : rd32 [0xff, 0xff, 0xff, 0xff] = 0xffffffff := by decide
  rw [← rd32_take_four, hmem d0 (by simp), hmem d1 (by simp), hmem d2 (by simp),
    hmem d3 (by simp)]
  exact hword

lemma saneFlash_blank {f : Flash} (hblank : ∀ p, f.pages p = some c.blankPage) :
    SaneFlash c f := by
  have hno : ∀ sb sig, ¬ SignatureAt c f sb sig := by
    rintro sb sig ⟨j, -, bs, hpeek, -, hmagic, -⟩
    rw [rd32_peek_blank hblank (by decide) hpeek] at hmagic
    exact absurd hmagic (by decide)
  exact ⟨fun sb sig h => absurd h (hno sb sig), fun sb sig h => absurd h (hno sb sig)⟩

/-- A small chip whose info table takes one block. -/
def oneBlockConf : Conf where
  pgShift := 6
  blkShift := 8
  oobsize := 2
  totalBlks := 19
  bitflipThreshold := 1
  eccStrength := 4
  pg_le_blk := by decide
  blk_lt := by decide
  total_lt := (by decide : 19 < 65536)
  maxRatio := 8
  maxReservedBlocks := 0
  emptyPageEccOk := false
  forceCreate := true
  pg_large := Nat.le.refl
  blk_small := by decide

/-- The empty chip with the given factory-bad blocks. -/
def blankChip (marked : ℕ → Bool) : Chip :=
  ⟨⟨fun _ => some oneBlockConf.blankPage, marked⟩, 0, []⟩

/-- From operation `start` on the given blocks cannot be erased any more. -/
def wornEnv (start : ℕ) (worn : ℕ → Bool) : Env :=
  { Env.ideal with eraseOk := fun t b => t < start || !worn b }

/-! ## The mapping is injective -/

/-- In every run in which `nmbm_map_block` always finds the block at `mapping_blocks_top_ba`
usable, no two logical blocks are mapped to one physical block, and none to the signature. -/
theorem mapping_injective (hsane : SaneFlash c chip.flash) {ni : Inst} (h : Reach c env chip ni)
    (hskip : ni.skipped = false) :
    (∀ lb < ni.dataBlockCount, ∀ lb' < ni.dataBlockCount,
        ni.mapping lb = ni.mapping lb' → lb = lb') ∧
      ∀ lb < ni.dataBlockCount, (ni.mapping lb).toNat ≠ ni.signatureBa :=
  ⟨(h.allocated hsane hskip).injective, (h.allocated hsane hskip).signature⟩

set_option maxRecDepth 100000 in
theorem mapping_injective_two_remaps :
    ∃ ni, nmbmRun oneBlockConf Env.ideal (blankChip fun _ => false) [(0, 0, 0), (1, 1, 0)] =
        some ni ∧ ni.dataBlockCount = 9 ∧
      (∀ lb < ni.dataBlockCount, ∀ lb' < ni.dataBlockCount,
        ni.mapping lb = ni.mapping lb' → lb = lb') ∧
      ∀ lb < ni.dataBlockCount, (ni.mapping lb).toNat ≠ ni.signatureBa := by
  have hsome : ((nmbmRun oneBlockConf Env.ideal (blankChip fun _ => false)
      [(0, 0, 0), (1, 1, 0)]).map fun ni => (ni.dataBlockCount, ni.skipped)) =
      some (9, false) := by decide +kernel
  obtain ⟨ni, hrun, hni⟩ := Option.map_eq_some_iff.mp hsome
  rw [Prod.mk.injEq] at hni
  exact ⟨ni, hrun, hni.1, mapping_injective (saneFlash_blank fun _ => rfl) (reach_run hrun) hni.2⟩

set_option maxRecDepth 100000 in
/-- With factory-bad blocks 15 and 16 the third remap gets the block of the second one. -/
theorem mapping_injective_bad_spare :
    ¬ ∀ ni, Reach oneBlockConf Env.ideal (blankChip fun b => b == 15 || b == 16) ni →
      ∀ lb < ni.dataBlockCount, ∀ lb' < ni.dataBlockCount,
        ni.mapping lb = ni.mapping lb' → lb = lb' := by
  intro hall
  have hsome : ((nmbmRun oneBlockConf Env.ideal (blankChip fun b => b == 15 || b == 16)
      [(0, 0, 0), (1, 1, 0), (2, 2, 0)]).map fun ni =>
        (ni.dataBlockCount, ni.mapping 1, ni.mapping 2)) = some (9, 14, 14) := by
    decide +kernel
  obtain ⟨ni, hrun, hni⟩ := Option.map_eq_some_iff.mp hsome
  simp only [Prod.mk.injEq] at hni
  obtain ⟨h1, h2, h3⟩ := hni
  exact absurd (hall ni (reach_run hrun) 1 (by omega) 2 (by omega) (h2.trans h3.symm)) (by decide)

/-! ## The management spares the data -/

/-- In every run in which `nmbm_map_block` always finds the block at `mapping_blocks_top_ba`
usable, the tables lie in order below the watermark, the remapped blocks lie above it, and no
remap makes the table management erase or write the signature or a block that is in use. -/
theorem management_spares_data (hsane : SaneFlash c chip.flash) {ni : Inst}
    (h : Reach c env chip ni) (hskip : ni.skipped = false) :
    (ni.mainTableBa ≠ 0 →
        ni.mgmtStartBa ≤ ni.mainTableBa ∧ ni.mainTableBa < ni.mappingBlocksBa) ∧
      (ni.backupTableBa ≠ 0 →
        ni.mainTableBa < ni.backupTableBa ∧ ni.backupTableBa < ni.mappingBlocksBa) ∧
      ni.mappingBlocksBa ≤ ni.mappingBlocksTopBa ∧
      (∀ lb < ni.dataBlockCount, (ni.mapping lb).toNat < ni.mgmtStartBa ∨
        ni.mappingBlocksTopBa < (ni.mapping lb).toNat) ∧
      ∀ block mappedBlock copyLen,
        (remapBlockNmbm c env ni block mappedBlock copyLen).2.skipped = false →
          Trace.Grows (SparesData (remapBlockNmbm c env ni block mappedBlock copyLen).2)
            ni.chip.log (remapBlockNmbm c env ni block mappedBlock copyLen).2.chip.log := by
  have hlay := (h.consistent hsane).layout
  have halloc := h.allocated hsane hskip
  exact ⟨hlay.main, fun hb => (hlay.backup hb).2, hlay.top, halloc.target,
    fun block mappedBlock copyLen hskip' =>
      (remapBlock_allocated c env hlay halloc rfl hskip').2⟩

set_option maxRecDepth 100000 in
theorem management_spares_data_remap :
    ∃ ni, nmbmRun oneBlockConf Env.ideal (blankChip fun _ => false) [] = some ni ∧
      (remapBlockNmbm oneBlockConf Env.ideal ni 0 0 0).2.skipped = false ∧
      Trace.Grows (SparesData (remapBlockNmbm oneBlockConf Env.ideal ni 0 0 0).2) ni.chip.log
        (remapBlockNmbm oneBlockConf Env.ideal ni 0 0 0).2.chip.log := by
  have hsome : ((nmbmRun oneBlockConf Env.ideal (blankChip fun _ => false) []).map fun ni =>
      (ni.skipped, (remapBlockNmbm oneBlockConf Env.ideal ni 0 0 0).2.skipped)) =
      some (false, false) := by decide +kernel
  obtain ⟨ni, hrun, hni⟩ := Option.map_eq_some_iff.mp hsome
  rw [Prod.mk.injEq] at hni
  exact ⟨ni, hrun, hni.2, (management_spares_data (saneFlash_blank fun _ => rfl) (reach_run hrun)
    hni.1).2.2.2.2 0 0 0 hni.2⟩

/-- A remap made the table management work on the block that logical block 1 is mapped to. -/
def overwrites (ni ni' : Inst) : Bool :=
  decide (1 < ni'.dataBlockCount) &&
    (ni'.chip.log.take (ni'.chip.log.length - ni.chip.log.length)).any fun e =>
      e.mgmt && e.op.block == (ni'.mapping 1).toNat

lemma not_grows_of_overwrites {ni ni' : Inst} (h : overwrites ni ni' = true) :
    ¬ Trace.Grows (SparesData ni') ni.chip.log ni'.chip.log := by
  rintro ⟨new, hlog, hnew⟩
  simp only [overwrites, Bool.and_eq_true, decide_eq_true_eq, List.any_eq_true,
    beq_iff_eq] at h
  obtain ⟨hd, e, he, hmgmt, hblock⟩ := h
  rw [hlog, List.length_append, Nat.add_sub_cancel, List.take_left] at he
  exact (hnew e he hmgmt).1 1 hd hblock

set_option maxRecDepth 100000 in
/-- With factory-bad blocks 15 and 16 the second remap takes block 14 and leaves the watermark at
15: when blocks 12 and 13 cannot be erased any more, the backup table is written to block 14. -/
theorem management_spares_data_bad_spare :
    ¬ ∀ ni, Reach oneBlockConf (wornEnv 126 fun b => b == 12 || b == 13)
        (blankChip fun b => b == 15 || b == 16) ni →
      Trace.Grows (SparesData (remapBlockNmbm oneBlockConf
          (wornEnv 126 fun b => b == 12 || b == 13) ni 1 1 0).2) ni.chip.log
        (remapBlockNmbm oneBlockConf (wornEnv 126 fun b => b == 12 || b == 13) ni 1 1 0).2.chip.log
          := by
  intro hall
  have hany : ((nmbmRun oneBlockConf (wornEnv 126 fun b => b == 12 || b == 13)
      (blankChip fun b => b == 15 || b == 16) [(0, 0, 0)]).any fun ni =>
      overwrites ni (remapBlockNmbm oneBlockConf
        (wornEnv 126 fun b => b == 12 || b == 13) ni 1 1 0).2) = true := by decide +kernel
  obtain ⟨ni, hrun, hni⟩ := (Option.any_eq_true _ _).mp hany
  exact not_grows_of_overwrites hni (hall ni (reach_run hrun))

/-! ## The main table holds the tables in memory -/

/-- The bytes stored from block `ba` on, a chunk in each good block; `k` blocks may be looked
at and `rem` bytes are missing. -/
def readStored (c : Conf) (ni : Inst) : ℕ → ℕ → ℕ → Option (List Byte)
  | 0, _, rem => if rem = 0 then some [] else none
  | k + 1, ba, rem =>
    if rem = 0 then some []
    else if nmbmGetBlockState ni ba ≠ blockStGood then readStored c ni k (ba + 1) rem
    else
      match peek c ni.chip.flash (c.ba2addr ba) (min rem c.blkSize) with
      | none => none
      | some d => (readStored c ni k (ba + 1) (rem - min rem c.blkSize)).map (d ++ ·)

/-- The block states and the block mapping in the table stored at `ba`. -/
def decodeTable (c : Conf) (ni : Inst) (ba : ℕ) : Option (List UInt32 × List UInt32) :=
  (readStored c ni (16 * c.stateWords) ba c.infoTableSize).map fun img =>
    (tableState c img, tableMapping c img)

lemma Stored.end_le {ni : Inst} {ba e : ℕ} {rest : List Byte}
    (hlen : ni.blockState.length = c.stateWords) (h : Stored c ni ba rest e) (hne : rest ≠ []) :
    e ≤ 16 * c.stateWords := by
  induction h with
  | done => exact absurd rfl hne
  | skip _ _ _ ih => exact ih hne
  | @block ba e rest _ hgood _ _ h ih =>
    by_cases hrest : rest.drop c.blkSize = []
    · rw [hrest] at h
      cases h with
      | done =>
        have := div_lt_of_good hlen hgood
        omega
      | skip h0 => exact absurd rfl h0
      | block h0 => exact absurd rfl h0
    · exact ih hrest

lemma Stored.readStored {ni : Inst} {ba e k : ℕ} {rest : List Byte} (h : Stored c ni ba rest e)
    (hk : e ≤ ba + k) : readStored c ni k ba rest.length = some rest := by
  induction h generalizing k with
  | done ba =>
    cases k with
    | zero => rfl
    | succ k => rfl
  | @skip ba e rest hrest hbad h ih =>
    have hle := h.le
    obtain ⟨k, rfl⟩ : ∃ m, k = m + 1 := ⟨k - 1, by omega⟩
    rw [Nmbm.readStored, if_neg (List.length_pos_iff.mpr hrest).ne', if_pos hbad]
    exact ih (by omega)
  | @block ba e rest hrest hgood hmark hpeek h ih =>
    have hle := h.le
    obtain ⟨k, rfl⟩ : ∃ m, k = m + 1 := ⟨k - 1, by omega⟩
    have hrec := ih (k := k) (by omega)
    rw [List.length_drop] at hrec
    rw [List.length_take, Nat.min_comm] at hpeek
    have hsub : rest.length - min rest.length c.blkSize = rest.length - c.blkSize := by omega
    rw [Nmbm.readStored, if_neg (List.length_pos_iff.mpr hrest).ne', if_neg (not_not.mpr hgood),
      hpeek, hsub, hrec]
    dsimp only
    rw [Option.map_some, List.take_append_drop]

lemma HoldsMemory.decodeTable {ni : Inst} {ba : ℕ} (hs : ni.Shaped c)
    (h : HoldsMemory c ni ba) : decodeTable c ni ba = some (ni.blockState, ni.blockMapping) := by
  obtain ⟨img, e, hst, -, hcar⟩ := h
  have hne : img ≠ [] := by
    intro hnil
    have := hcar.length
    have := c.infoTableSize_pos
    rw [hnil, List.length_nil] at *
    omega
  have hend := hst.end_le hs.state hne
  rw [Nmbm.decodeTable, ← hcar.length, hst.readStored (by omega), Option.map_some, hcar.state,
    hcar.mapping]

/-- The states in which `nmbm_update_info_table` may be called: any reachable state, and the two
places in `remap_block_nmbm`, after the old block was marked bad (when there is no spare block)
and after the new block was filled. -/
inductive AtUpdate (c : Conf) (env : Env) (chip : Chip) : Inst → Prop
  | idle {ni : Inst} (h : Reach c env chip ni) : AtUpdate c env chip ni
  | marked {ni : Inst} (h : Reach c env chip ni) (mappedBlock : ℕ) :
      AtUpdate c env chip (nmbmSetBlockState ni mappedBlock blockStBad)
  | moved {ni ni1 : Inst} (h : Reach c env chip ni) (block mappedBlock copyLen : ℕ)
      (hmap : nmbmMapBlock c env (nmbmSetBlockState ni mappedBlock blockStBad) block =
        (true, ni1)) :
      AtUpdate c env chip { ni1 with chip := movedChip c env ni1 block mappedBlock copyLen }

lemma AtUpdate.consistent (hsane : SaneFlash c chip.flash) {ni : Inst}
    (h : AtUpdate c env chip ni) : Consistent c ni := by
  cases h with
  | idle h => exact h.consistent hsane
  | marked h mappedBlock => exact setBlockState_bad_consistent c (h.consistent hsane) mappedBlock
  | moved h block mappedBlock copyLen hmap =>
    exact mapBlock_moved_consistent c env
      (setBlockState_bad_consistent c (h.consistent hsane) mappedBlock) hmap mappedBlock copyLen

/-- When `nmbm_update_info_table` succeeds on a device that is not protected, the table at
`main_table_ba` holds the block states and the block mapping in memory, in every run in which
`nmbm_mark_tables_clean` was never called after a block turned bad behind the back of the image
that was written. -/
theorem update_stores_memory (hsane : SaneFlash c chip.flash) {ni ni' : Inst}
    (h : AtUpdate c env chip ni) (hp : ni.isProtected = false)
    (hu : nmbmUpdateInfoTable c env ni = (true, ni')) (hlost : ni'.lost = false) :
    decodeTable c ni' ni'.mainTableBa = some (ni'.blockState, ni'.blockMapping) := by
  have hc := h.consistent hsane
  obtain ⟨hr, hclean, hfresh⟩ := updateInfoTable_spec c env hc.layout hu
  have hacc := hr.updates.accounted hc.accounted
  have hs := hr.updates.shaped hc.shaped
  have hch := hclean rfl hp
  have hholds : HoldsMemory c ni' ni'.mainTableBa := by
    rcases hfresh rfl with rfl | hf
    · exact hc.current hp hlost hch
    · exact hf.1.holdsMemory hs (hf.2 (hacc hlost hch))
  exact hholds.decodeTable hs

/-- The state in which `remap_block_nmbm` calls `nmbm_update_info_table`. -/
def remapUpdate (c : Conf) (env : Env) (ni : Inst) (block mappedBlock copyLen : ℕ) :
    Option Inst :=
  match nmbmMapBlock c env (nmbmSetBlockState ni mappedBlock blockStBad) block with
  | (true, ni1) => some { ni1 with chip := movedChip c env ni1 block mappedBlock copyLen }
  | (false, _) => none

lemma atUpdate_remapUpdate {ni ni1 : Inst} {block mappedBlock copyLen : ℕ}
    (h : Reach c env chip ni) (h1 : remapUpdate c env ni block mappedBlock copyLen = some ni1) :
    AtUpdate c env chip ni1 := by
  rw [remapUpdate] at h1
  split at h1
  · rename_i ni2 hmap
    rw [Option.some.injEq] at h1
    subst h1
    exact AtUpdate.moved h block mappedBlock copyLen hmap
  · exact absurd h1 (by simp)

/-- The device is not protected, the update succeeds, and the test holds afterwards. -/
def updateProbe (c : Conf) (env : Env) (test : Inst → Bool) (ni : Inst) : Bool :=
  !ni.isProtected && (nmbmUpdateInfoTable c env ni).1 && test (nmbmUpdateInfoTable c env ni).2

set_option maxRecDepth 100000 in
theorem update_stores_memory_remap :
    ∃ ni ni', AtUpdate oneBlockConf Env.ideal (blankChip fun _ => false) ni ∧
      nmbmUpdateInfoTable oneBlockConf Env.ideal ni = (true, ni') ∧
      decodeTable oneBlockConf ni' ni'.mainTableBa = some (ni'.blockState, ni'.blockMapping) := by
  have hany : ((nmbmRun oneBlockConf Env.ideal (blankChip fun _ => false) []).any fun ni =>
      (remapUpdate oneBlockConf Env.ideal ni 0 0 0).any
        (updateProbe oneBlockConf Env.ideal fun ni' => !ni'.lost)) = true := by decide +kernel
  obtain ⟨ni, hrun, hni⟩ := (Option.any_eq_true _ _).mp hany
  obtain ⟨ni1, hmoved, hni1⟩ := (Option.any_eq_true _ _).mp hni
  simp only [updateProbe, Bool.and_eq_true, Bool.not_eq_true'] at hni1
  have hat := atUpdate_remapUpdate (reach_run hrun) hmoved
  have hup : nmbmUpdateInfoTable oneBlockConf Env.ideal ni1 =
      (true, (nmbmUpdateInfoTable oneBlockConf Env.ideal ni1).2) := Prod.ext hni1.1.2 rfl
  exact ⟨ni1, _, hat, hup, update_stores_memory (saneFlash_blank fun _ => rfl) hat hni1.1.1 hup
    hni1.2⟩

set_option maxRecDepth 100000 in
/-- Block 12 turns out bad while the backup table is written: the main table that is written next
still calls it good, and nothing is left to be updated. -/
theorem update_stores_memory_bad_block :
    ¬ ∀ ni ni', AtUpdate oneBlockConf (wornEnv 105 fun b => b == 12)
        (blankChip fun b => b == 15 || b == 16) ni → ni.isProtected = false →
      nmbmUpdateInfoTable oneBlockConf (wornEnv 105 fun b => b == 12) ni = (true, ni') →
      decodeTable oneBlockConf ni' ni'.mainTableBa = some (ni'.blockState, ni'.blockMapping) := by
  intro hall
  have hany : ((nmbmRun oneBlockConf (wornEnv 105 fun b => b == 12)
      (blankChip fun b => b == 15 || b == 16) []).any fun ni =>
      (remapUpdate oneBlockConf (wornEnv 105 fun b => b == 12) ni 0 0 0).any
        (updateProbe oneBlockConf (wornEnv 105 fun b => b == 12) fun ni' =>
          decide (decodeTable oneBlockConf ni' ni'.mainTableBa ≠
            some (ni'.blockState, ni'.blockMapping)))) = true := by decide +kernel
  obtain ⟨ni, hrun, hni⟩ := (Option.any_eq_true _ _).mp hany
  obtain ⟨ni1, hmoved, hni1⟩ := (Option.any_eq_true _ _).mp hni
  simp only [updateProbe, Bool.and_eq_true, Bool.not_eq_true', decide_eq_true_eq] at hni1
  exact hni1.2 (hall ni1 _ (atUpdate_remapUpdate (reach_run hrun) hmoved) hni1.1.1
    (Prod.ext hni1.1.2 rfl))

end Nmbm
