import Mt798x.Nmbm.Reload
import Mt798x.Nmbm.Create

/-!
# Loading the tables of an existing device

`nmbm_load_existing` believes what passes its tests.  What it needs to find on the flash for the
invariants of `Nmbm/Mapping.lean` to hold afterwards is `SaneFlash`: the signature leaves room for
a table, and the mapping in every table that passes the header and checksum tests is one that this
program can have written there.
-/

namespace Nmbm

open Bytes Bmt

variable (c : Conf) (env : Env)

/-! ## Restoring the second table -/

variable {c} in
lemma Updates.not_lost {lo hi : ℕ} {ni ni' : Inst} (h : Updates c lo hi ni ni')
    (hl : ni'.lost = false) : ni.lost = false := by
  by_contra hne
  rw [h.lost (by simpa using hne)] at hl
  exact absurd hl (by simp)

variable {c} in
lemma Carries.manages {ni ni' : Inst} {lo hi : ℕ} {img : List Byte} (hcar : Carries c ni img)
    (h : Manages c lo hi ni ni') (hu : ni'.unsaved = false) : Carries c ni' img := by
  have hmap : ni'.blockMapping = ni.blockMapping := (congrArg Inst.blockMapping h.frame :)
  exact ⟨hcar.length, hcar.state.trans (h.saved hu).1.symm, hcar.mapping.trans hmap.symm⟩

variable {c} in
lemma HoldsMemory.manages {ni ni' : Inst} {lo hi ba e : ℕ} {img : List Byte}
    (hst : Stored c ni ba img e) (hcar : Carries c ni img) (h : Manages c lo hi ni ni')
    (hdis : e ≤ lo ∨ hi ≤ ba) (he : e ≤ ni'.mappingBlocksBa) (hu : ni'.unsaved = false) :
    HoldsMemory c ni' ba := by
  exact ⟨img, e, h.toUpdates.stored hst hdis, he, hcar.manages h hu⟩

/-- The outcome of a function that restores the second table: on success the main table is
current, unless a find was lost. -/
structure Restored (r : Bool) (ni ni' : Inst) : Prop where
  manages : Manages c ni.mgmtStartBa ni.mappingBlocksTopBa ni ni'
  layout : Layout ni'
  current : r = true → ni'.lost = false → ni'.unsaved = false → HoldsMemory c ni' ni'.mainTableBa

variable {c} in
lemma imaged_manages {ni ni' : Inst} {lo hi : ℕ} (himg : ni.unsaved = false → Imaged c ni)
    (h : Manages c lo hi ni ni') (hu : ni'.unsaved = false) : Imaged c ni' := by
  obtain ⟨ni0, h1, h2, h3, h4, h5⟩ := himg (h.saved hu).2
  have hmap : ni'.blockMapping = ni.blockMapping := (congrArg Inst.blockMapping h.frame :)
  exact ⟨ni0, h.infoTableCache.trans h1, h2.trans (h.saved hu).1.symm, h3.trans hmap.symm,
    h4.trans h.offsets.1.symm, h5.trans h.offsets.2.symm⟩

variable {ni ni' : Inst} {r : Bool} {ba : ℕ} {img : List Byte}

/-- `nmbm_rescue_single_info_table`. -/
lemma rescueSingleInfoTable_spec (hs : ni.Shaped c) (hlay : Layout ni)
    (hne : ni.infoTableCache ≠ []) (himg : ni.unsaved = false → Imaged c ni)
    (hmain : ni.mainTableBa ≠ 0) (hb0 : ni.backupTableBa = 0)
    (hold : ni.lost = false → ni.unsaved = false → HoldsMemory c ni ni.mainTableBa)
    (h : nmbmRescueSingleInfoTable c env ni = (r, ni')) : Restored c r ni ni' := by
  obtain ⟨h1, h2, h3, -⟩ := hlay
  obtain ⟨h4, h5⟩ := h3 hmain
  rw [nmbmRescueSingleInfoTable] at h
  split at h
  · -- the new table fits in front of the existing one
    rename_i tableStart tableEnd ni1 hw
    obtain ⟨ht, h6, h7, h8, hst⟩ := writeInfoTable_some c env hne hw
    have e1 := ht.mainTableBa
    have e3 := ht.mappingBlocksBa
    have e4 := ht.mappingBlocksTopBa
    have e5 := ht.mgmtStartBa
    rw [Prod.mk.injEq] at h
    obtain ⟨rfl, rfl⟩ := h
    set ni2 : Inst := nmbmMarkTablesClean
      { ni1 with backupTableBa := ni1.mainTableBa, mainTableBa := tableStart } with hni2
    have hm2 : Manages c ni.mgmtStartBa ni.mappingBlocksTopBa ni ni2 :=
      ((ht.manages.mono le_rfl (by omega)).trans (Manages.place c _ _ ni1 _ _ _ _)).trans
        (Manages.markTablesClean c _ _ _)
    have he := touch_eraseRange c env ni2 tableEnd ni2.backupTableBa
    have e2 : ni2.backupTableBa = ni.mainTableBa := e1
    have f1 := he.mainTableBa
    have f2 := he.backupTableBa
    have f3 := he.mappingBlocksBa
    have f4 := he.mappingBlocksTopBa
    have f5 := he.mgmtStartBa
    have g1 : ni2.mainTableBa = tableStart := rfl
    have g3 : ni2.mappingBlocksBa = ni1.mappingBlocksBa := rfl
    have g4 : ni2.mappingBlocksTopBa = ni1.mappingBlocksTopBa := rfl
    have g5 : ni2.mgmtStartBa = ni1.mgmtStartBa := rfl
    have hm3 : Manages c ni.mgmtStartBa ni.mappingBlocksTopBa ni
        (nmbmEraseRange c env ni2 tableEnd ni2.backupTableBa) :=
      hm2.trans (he.manages.mono (by omega) (by omega))
    refine ⟨hm3, ⟨by omega, by omega, fun _ => by omega, fun _ => by omega⟩, fun _ _ hu => ?_⟩
    have hst2 : Stored c ni2 tableStart ni.infoTableCache tableEnd := hst.of_eq rfl rfl
    have hst3 := he.manages.stored hst2 (Or.inl le_rfl)
    rw [← hm3.infoTableCache] at hst3
    rw [f1]
    exact Holds.holdsMemory (hm3.toUpdates.shaped hs) ⟨tableEnd, hst3, by omega⟩
      (imaged_manages himg hm3 hu)
  · rename_i ni1 hw
    have ht := writeInfoTable_none c env hw
    have e1 := ht.mainTableBa
    have e2 := ht.backupTableBa
    have e3 := ht.mappingBlocksBa
    have e4 := ht.mappingBlocksTopBa
    have e5 := ht.mgmtStartBa
    have hm1 : Manages c ni.mgmtStartBa ni.mappingBlocksTopBa ni ni1 :=
      ht.manages.mono le_rfl (by omega)
    split at h
    · rw [Prod.mk.injEq] at h
      obtain ⟨rfl, rfl⟩ := h
      exact ⟨hm1, ⟨by omega, by omega, fun _ => by omega, fun _ => by omega⟩,
        fun hr => absurd hr (by simp)⟩
    · rename_i writeBa hres
      have hge := tryReserveBlocks_ge c hres
      split at h
      · rename_i ni2 hdown
        rw [Prod.mk.injEq] at h
        obtain ⟨rfl, rfl⟩ := h
        obtain ⟨ht2, -⟩ := writeDownward_spec c env ni1.mappingBlocksBa
          (by rwa [ht.infoTableCache]) (by omega) hdown
        have f1 := ht2.mainTableBa
        have f2 := ht2.backupTableBa
        have f3 := ht2.mappingBlocksBa
        have f4 := ht2.mappingBlocksTopBa
        have f5 := ht2.mgmtStartBa
        exact ⟨hm1.trans (ht2.manages.mono (by omega) (by omega)),
          ⟨by omega, by omega, fun _ => by omega, fun _ => by omega⟩,
          fun hr => absurd hr (by simp)⟩
      · -- the new table goes behind the existing one, which stays the main table
        rename_i tableStart tableEnd ni2 hdown
        obtain ⟨ht2, hdown2⟩ := writeDownward_spec c env ni1.mappingBlocksBa
          (by rwa [ht.infoTableCache]) (by omega) hdown
        obtain ⟨h6, h7, h8, -⟩ := hdown2 _ _ rfl
        have f1 := ht2.mainTableBa
        have f3 := ht2.mappingBlocksBa
        have f4 := ht2.mappingBlocksTopBa
        have f5 := ht2.mgmtStartBa
        have he := touch_eraseRange c env ni2 ni2.mappingBlocksBa tableStart
        set ni3 := nmbmEraseRange c env ni2 ni2.mappingBlocksBa tableStart
        have k1 := he.mainTableBa
        have k4 := he.mappingBlocksTopBa
        have k5 := he.mgmtStartBa
        rw [Prod.mk.injEq] at h
        obtain ⟨rfl, rfl⟩ := h
        have hm2 : Manages c ni.mappingBlocksBa ni.mappingBlocksTopBa ni1
            (nmbmMarkTablesClean
              { ni3 with backupTableBa := tableStart, mappingBlocksBa := tableEnd }) :=
          (((ht2.manages.mono (by omega) (by omega)).trans (he.manages.mono (by omega)
            (by omega))).trans (Manages.place c _ _ ni3 _ _ _ _)).trans
            (Manages.markTablesClean c _ _ _)
        refine ⟨hm1.trans (hm2.mono (by omega) le_rfl), ⟨?_, ?_, fun _ => ?_, fun _ => ?_⟩,
          fun _ hl hu => ?_⟩
        · simp only [nmbmMarkTablesClean]
          omega
        · simp only [nmbmMarkTablesClean]
          omega
        · simp only [nmbmMarkTablesClean]
          omega
        · simp only [nmbmMarkTablesClean]
          omega
        · have hl0 : ni.lost = false := hm1.toUpdates.not_lost (hm2.toUpdates.not_lost hl)
          have hu1 := (hm2.saved hu).2
          obtain ⟨img, e, hst, he', hcar⟩ := hold hl0 (ht.manages.saved hu1).2
          have hmain' : (nmbmMarkTablesClean
              { ni3 with backupTableBa := tableStart, mappingBlocksBa := tableEnd }).mainTableBa =
              ni.mainTableBa := by
            simp only [nmbmMarkTablesClean]
            omega
          rw [hmain']
          exact HoldsMemory.manages (ht.manages.stored hst (Or.inr le_rfl))
            (hcar.manages ht.manages hu1) hm2 (Or.inl he')
            (by simp only [nmbmMarkTablesClean]; omega) hu

/-- `nmbm_update_single_info_table` for the main table: the backup table is the current one. -/
lemma updateSingleInfoTable_true (hs : ni.Shaped c) (hlay : Layout ni)
    (hne : ni.infoTableCache ≠ []) (himg : ni.unsaved = false → Imaged c ni)
    (hbackup : ni.backupTableBa ≠ 0)
    (hold : ni.lost = false → ni.unsaved = false → HoldsMemory c ni ni.backupTableBa)
    (h : nmbmUpdateSingleInfoTable c env ni true = (r, ni')) : Restored c r ni ni' := by
  obtain ⟨h1, h2, -, h3⟩ := hlay
  obtain ⟨h4, h5, h6⟩ := h3 hbackup
  rw [nmbmUpdateSingleInfoTable, if_pos rfl] at h
  split at h
  · rename_i tableStart tableEnd ni1 hw
    obtain ⟨ht, h7, h8, h9, hst⟩ := writeInfoTable_some c env hne hw
    have e2 := ht.backupTableBa
    have e3 := ht.mappingBlocksBa
    have e4 := ht.mappingBlocksTopBa
    have e5 := ht.mgmtStartBa
    rw [Prod.mk.injEq] at h
    obtain ⟨rfl, rfl⟩ := h
    have hm : Manages c ni.mgmtStartBa ni.mappingBlocksTopBa ni
        (nmbmMarkTablesClean { ni1 with mainTableBa := tableStart }) :=
      ((ht.manages.mono (by omega) (by omega)).trans (Manages.place c _ _ ni1 _ _ _ _)).trans
        (Manages.markTablesClean c _ _ _)
    rw [← ht.infoTableCache] at hst
    refine ⟨hm, ⟨?_, ?_, fun _ => ?_, fun _ => ?_⟩, fun _ _ hu => ?_⟩
    · simp only [nmbmMarkTablesClean]
      omega
    · simp only [nmbmMarkTablesClean]
      omega
    · simp only [nmbmMarkTablesClean]
      omega
    · simp only [nmbmMarkTablesClean]
      omega
    · exact Holds.holdsMemory (hm.toUpdates.shaped hs)
        ⟨tableEnd, hst.of_eq rfl rfl, by simp only [nmbmMarkTablesClean]; omega⟩
        (imaged_manages himg hm hu)
  · rename_i ni1 hw
    have ht := writeInfoTable_none c env hw
    have e2 := ht.backupTableBa
    have e3 := ht.mappingBlocksBa
    have e4 := ht.mappingBlocksTopBa
    have e5 := ht.mgmtStartBa
    set ni2 : Inst := { ni1 with mainTableBa := ni1.backupTableBa, backupTableBa := 0 }
    have g1 : ni2.mainTableBa = ni1.backupTableBa := rfl
    have g3 : ni2.mappingBlocksBa = ni1.mappingBlocksBa := rfl
    have g4 : ni2.mappingBlocksTopBa = ni1.mappingBlocksTopBa := rfl
    have g5 : ni2.mgmtStartBa = ni1.mgmtStartBa := rfl
    have hm2 : Manages c ni.mainTableBa ni.backupTableBa ni ni2 :=
      ht.manages.trans (Manages.place c _ _ ni1 _ _ _ _)
    have hm2' : Manages c ni.mgmtStartBa ni.mappingBlocksTopBa ni ni2 :=
      hm2.mono (by omega) (by omega)
    have hold2 : ni2.lost = false → ni2.unsaved = false → HoldsMemory c ni2 ni2.mainTableBa := by
      intro hl hu
      obtain ⟨img, e, hst, he, hcar⟩ := hold (hm2.toUpdates.not_lost hl) (hm2.saved hu).2
      rw [show ni2.mainTableBa = ni.backupTableBa by omega]
      exact HoldsMemory.manages hst hcar hm2 (Or.inr le_rfl) (by omega) hu
    have hr := rescueSingleInfoTable_spec c env (hm2.toUpdates.shaped hs)
      ⟨by omega, by omega, fun _ => by omega, fun hb => absurd rfl hb⟩
      (by rw [hm2.infoTableCache]; exact hne) (imaged_manages himg hm2) (by omega) rfl hold2 h
    have hm3 := hr.manages
    rw [g5, g4, e5, e4] at hm3
    exact ⟨hm2'.trans hm3, hr.layout, hr.current⟩

/-- `nmbm_update_single_info_table` for the backup table: the main table, in front of it, is the
current one. -/
lemma updateSingleInfoTable_false (hlay : Layout ni) (hne : ni.infoTableCache ≠ [])
    (hbackup : ni.backupTableBa ≠ 0)
    (hold : ni.lost = false → ni.unsaved = false → ∃ img e, Stored c ni ni.mainTableBa img e ∧
      e ≤ ni.backupTableBa ∧ Carries c ni img)
    (h : nmbmUpdateSingleInfoTable c env ni false = (r, ni')) : Restored c r ni ni' := by
  obtain ⟨h1, h2, -, h3⟩ := hlay
  obtain ⟨h4, h5, h6⟩ := h3 hbackup
  rw [nmbmUpdateSingleInfoTable, if_neg (by simp)] at h
  split at h
  · rename_i tableStart tableEnd ni1 hw
    obtain ⟨ht, h7, h8, h9, -⟩ := writeInfoTable_some c env hne hw
    have e1 := ht.mainTableBa
    have e4 := ht.mappingBlocksTopBa
    have e5 := ht.mgmtStartBa
    rw [Prod.mk.injEq] at h
    obtain ⟨rfl, rfl⟩ := h
    have hm : Manages c ni.backupTableBa ni.mappingBlocksTopBa ni (nmbmMarkTablesClean
        { ni1 with backupTableBa := tableStart, mappingBlocksBa := tableEnd }) :=
      (ht.manages.trans (Manages.place c _ _ ni1 _ _ _ _)).trans (Manages.markTablesClean c _ _ _)
    refine ⟨hm.mono (by omega) le_rfl, ⟨?_, ?_, fun _ => ?_, fun _ => ?_⟩, fun _ hl hu => ?_⟩
    · simp only [nmbmMarkTablesClean]
      omega
    · simp only [nmbmMarkTablesClean]
      omega
    · simp only [nmbmMarkTablesClean]
      omega
    · simp only [nmbmMarkTablesClean]
      omega
    · obtain ⟨img, e, hst, he, hcar⟩ := hold (hm.toUpdates.not_lost hl) (hm.saved hu).2
      have hmain' : (nmbmMarkTablesClean { ni1 with
          backupTableBa := tableStart, mappingBlocksBa := tableEnd }).mainTableBa =
          ni.mainTableBa := e1
      rw [hmain']
      exact HoldsMemory.manages hst hcar hm (Or.inl he)
        (by simp only [nmbmMarkTablesClean]; omega) hu
  · rename_i ni1 hw
    have ht := writeInfoTable_none c env hw
    have e1 := ht.mainTableBa
    have e2 := ht.backupTableBa
    have e4 := ht.mappingBlocksTopBa
    have e5 := ht.mgmtStartBa
    rw [Prod.mk.injEq] at h
    obtain ⟨rfl, rfl⟩ := h
    exact ⟨(ht.manages.mono (by omega) le_rfl).trans (Manages.place c _ _ ni1 _ _ _ _),
      ⟨by dsimp only; omega, by dsimp only; omega, fun _ => by dsimp only; omega,
        fun hb => absurd rfl hb⟩, fun hr => absurd hr (by simp)⟩

/-! ## Searching for a table -/

/-- A table that passes the tests on its header and its checksum lies at `ba`. -/
structure TableAt (f : Flash) (ba : ℕ) (img : List Byte) : Prop where
  imageAt : ImageAt c f ba img
  genuine : Genuine c img

lemma searchInfoTableLoop_none {loaded : Bool} {k ba : ℕ} {ni ni' : Inst}
    (h : nmbmSearchInfoTableLoop c env loaded k ba ni = (none, ni')) :
    Scans c ba (ba + k + c.infoTableBlocks) ni ni' := by
  induction k generalizing ba ni with
  | zero =>
    rw [nmbmSearchInfoTableLoop, Prod.mk.injEq] at h
    rw [← h.2]
    exact Scans.refl _ _ ni
  | succ k ih =>
    rw [nmbmSearchInfoTableLoop] at h
    split at h
    · exact absurd h (by simp)
    · rename_i ni1 htry
      exact ((tryLoadInfoTable_none c env htry).mono le_rfl (by omega)).trans
        ((ih h).mono (by omega) (by omega))

/-- A search that finds a table: failed attempts, and then the one that loads. -/
lemma searchInfoTableLoop_some {loaded : Bool} {k ba s e top : ℕ} {wc : UInt32} {ni ni' : Inst}
    (hlen : ni.infoTableCache.length = c.infoTableSize)
    (h : nmbmSearchInfoTableLoop c env loaded k ba ni = (some (s, e, wc, top), ni')) :
    ba ≤ s ∧ s < ba + k ∧ e = s + c.infoTableBlocks ∧ ∃ ni0 img ni1,
      Scans c ba (s + c.infoTableBlocks) ni ni0 ∧ Loads c ni0 s img top ni1 ∧
      wc = (InfoTableHeader.ofBytes img).writeCount ∧
      ni' = if !loaded || wc > ni.infoTable.writeCount then loadTable c ni1 else ni1 := by
  induction k generalizing ba ni with
  | zero => exact absurd h (by simp [nmbmSearchInfoTableLoop])
  | succ k ih =>
    rw [nmbmSearchInfoTableLoop] at h
    split at h
    · rename_i e1 wc1 top1 ni1 htry
      simp only [Prod.mk.injEq, Option.some.injEq] at h
      obtain ⟨⟨rfl, rfl, rfl, rfl⟩, rfl⟩ := h
      obtain ⟨img, ni2, hl, he, hwc, hni⟩ := tryLoadInfoTable_sound c env hlen htry
      exact ⟨le_rfl, by omega, he, ni, img, ni2, Scans.refl _ _ ni, hl, hwc, hni⟩
    · rename_i ni1 htry
      have hs := tryLoadInfoTable_none c env htry
      obtain ⟨h1, h2, h3, ni0, img, ni2, hs2, hl, hwc, hni⟩ := ih (hs.cache hlen) h
      have hinfo : ni1.infoTable = ni.infoTable := (congrArg Inst.infoTable hs.frame :)
      rw [hinfo] at hni
      exact ⟨by omega, by omega, h3, ni0, img, ni2,
        (hs.mono le_rfl (by omega)).trans (hs2.mono (by omega) le_rfl), hl, hwc, hni⟩

/-! ## The tests on a table -/

/-- The smallest remapped block that `nmbm_check_info_table` computes. -/
lemma checkMappingLoop_spec {mapping : ℕ → ℕ} {d sb e k ba minPb r : ℕ}
    (h : checkMappingLoop mapping d sb e k ba minPb = some r) :
    r ≤ minPb ∧ (r = minPb ∨ ∃ lb, ba ≤ lb ∧ lb < ba + k ∧ e ≤ mapping lb ∧ r = mapping lb) ∧
      ∀ lb, ba ≤ lb → lb < ba + k →
        (mapping lb < d ∨ r ≤ mapping lb) ∧ mapping lb ≠ sb := by
  induction k generalizing ba minPb with
  | zero =>
    rw [checkMappingLoop, Option.some.injEq] at h
    subst h
    exact ⟨le_rfl, Or.inl rfl, fun lb h1 h2 => by omega⟩
  | succ k ih =>
    rw [checkMappingLoop] at h
    split at h
    · exact absurd h (by simp)
    · rename_i hok
      obtain ⟨h1, h2, h3⟩ := ih h
      split at h1
      · rename_i hpb
        rw [if_pos hpb] at h2
        refine ⟨by omega, Or.inr ?_, fun lb h4 h5 => ?_⟩
        · rcases h2 with rfl | ⟨lb, h4, h5, h6, h7⟩
          · exact ⟨ba, le_rfl, by omega, hpb.1, rfl⟩
          · exact ⟨lb, by omega, by omega, h6, h7⟩
        · by_cases hlb : lb = ba
          · subst hlb
            clear h2
            omega
          · exact h3 lb (by omega) (by omega)
      · rename_i hpb
        rw [if_neg hpb] at h2
        refine ⟨h1, ?_, fun lb h4 h5 => ?_⟩
        · rcases h2 with rfl | ⟨lb, h4, h5, h6, h7⟩
          · exact Or.inl rfl
          · exact Or.inr ⟨lb, by omega, by omega, h6, h7⟩
        · by_cases hlb : lb = ba
          · subst hlb
            clear h2
            omega
          · exact h3 lb (by omega) (by omega)

lemma checkStateLoop_good {ni : Inst} {st : ℕ → UInt32} {k ba : ℕ}
    (h : checkStateLoop ni st k ba = true)
    (hgood : ∀ b, ba ≤ b → b < ba + k → nmbmGetBlockState ni b = blockStGood) {b : ℕ}
    (h1 : ba ≤ b) (h2 : b < ba + k) : st b = blockStGood := by
  induction k generalizing ba with
  | zero => omega
  | succ k ih =>
    rw [checkStateLoop, if_neg (not_not.mpr (hgood ba le_rfl (by omega)))] at h
    split at h
    · exact absurd h (by simp)
    · rename_i hst
      rw [not_not] at hst
      by_cases hb : b = ba
      · subst hb
        exact hst
      · exact ih h (fun b h3 h4 => hgood b (by omega) (by omega)) (by omega) (by omega)

/-- The entry for a logical block in the mapping of an image. -/
def imageEntry (img : List Byte) (lb : ℕ) : ℕ := ((tableMapping c img).getD lb 0).toNat

lemma Loads.spec {c : Conf} {ni1 : Inst} {top : ℕ} (h : Loads c ni ba img top ni1) :
    (∀ b, ba ≤ b → b < ba + c.infoTableBlocks →
        nmbmGetBlockStateRaw (tableState c img) b = blockStGood) ∧
      ∃ r, top = u32Sub r 1 ∧ r ≤ ni.signatureBa ∧
        (r = ni.signatureBa ∨ ∃ lb < ni.dataBlockCount,
          ba + c.infoTableBlocks ≤ imageEntry c img lb ∧ r = imageEntry c img lb) ∧
        ∀ lb < ni.dataBlockCount, (imageEntry c img lb < ni.dataBlockCount ∨
          r ≤ imageEntry c img lb) ∧ imageEntry c img lb ≠ ni.signatureBa := by
  have hcheck := h.check
  rw [nmbmCheckInfoTable] at hcheck
  split at hcheck
  · exact absurd hcheck (by simp)
  · rename_i r hr
    split at hcheck
    · rename_i hst
      rw [Option.some.injEq] at hcheck
      obtain ⟨h1, h2, h3⟩ := checkMappingLoop_spec hr
      rw [Nat.add_sub_cancel_left] at hst
      refine ⟨fun b h4 h5 => checkStateLoop_good hst h.good h4 h5, r, hcheck.symm, h1, ?_,
        fun lb hlb => h3 lb (Nat.zero_le _) (by omega)⟩
      refine h2.imp_right ?_
      rintro ⟨lb, -, h5, h6, h7⟩
      exact ⟨lb, by omega, h6, h7⟩
    · exact absurd hcheck (by simp)

/-! ## Taking a table over -/

/-- The instance `ni` with everything a search for a table may change taken from `ni'`. -/
def Inst.searched (ni ni' : Inst) : Inst :=
  { ni with
    chip := ni'.chip
    infoTableCache := ni'.infoTableCache
    infoTable := ni'.infoTable
    blockState := ni'.blockState
    blockStateChanged := ni'.blockStateChanged
    blockMapping := ni'.blockMapping
    unsaved := ni'.unsaved }

/-- The table at `ba` was taken over, and after that only blocks behind it were looked at. -/
structure Taken (ni : Inst) (ba : ℕ) (img : List Byte) (top : ℕ) (ni' : Inst) : Prop where
  table : TableAt c ni.chip.flash ba img
  frame : ni' = ni.searched ni'
  flash : ni'.chip.flash = ni.chip.flash
  log : ni'.chip.log = ni.chip.log
  good : ∀ b, ba ≤ b → b < ba + c.infoTableBlocks → nmbmGetBlockState ni' b = blockStGood
  saved : ni'.unsaved = false → ni'.blockState = tableState c img
  length : ni'.blockState.length = c.stateWords
  mapping : ni'.blockMapping = tableMapping c img
  infoTable : ni'.infoTable = InfoTableHeader.ofBytes img
  accounted : ni'.changed = false → ni'.unsaved = false
  cache : ni'.infoTableCache.length = c.infoTableSize
  watermark : ∃ r, top = u32Sub r 1 ∧ r ≤ ni.signatureBa ∧
    (r = ni.signatureBa ∨ ∃ lb < ni.dataBlockCount,
      ba + c.infoTableBlocks ≤ imageEntry c img lb ∧ r = imageEntry c img lb) ∧
    ∀ lb < ni.dataBlockCount, (imageEntry c img lb < ni.dataBlockCount ∨
      r ≤ imageEntry c img lb) ∧ imageEntry c img lb ≠ ni.signatureBa

variable {c} in
lemma taken_loadTable {ni ni0 ni1 : Inst} {lo hi ba top : ℕ} {img : List Byte}
    (hlen : ni.infoTableCache.length = c.infoTableSize) (hs : Scans c lo hi ni ni0)
    (hl : Loads c ni0 ba img top ni1) : Taken c ni ba img top (loadTable c ni1) := by
  have hd : ni0.dataBlockCount = ni.dataBlockCount := (congrArg Inst.dataBlockCount hs.frame :)
  have hsig : ni0.signatureBa = ni.signatureBa := (congrArg Inst.signatureBa hs.frame :)
  have hat := hl.imageAt
  rw [hs.flash] at hat
  obtain ⟨hgood, hmark⟩ := hl.spec
  rw [hd, hsig] at hmark
  have hframe : loadTable c ni1 = ni.searched (loadTable c ni1) := by
    calc loadTable c ni1 = ni1.searched (loadTable c ni1) := rfl
      _ = (ni0.scanned ni1).searched (loadTable c ni1) := by rw [← hl.scans.frame]
      _ = ni0.searched (loadTable c ni1) := rfl
      _ = (ni.scanned ni0).searched (loadTable c ni1) := by rw [← hs.frame]
      _ = ni.searched (loadTable c ni1) := rfl
  refine ⟨⟨hat, hl.genuine⟩, hframe, hl.scans.flash.trans hs.flash, hl.scans.log.trans hs.log,
    fun b h1 h2 => ?_, fun _ => ?_, length_rdWords _ _, ?_, ?_, fun _ => rfl,
    hl.scans.cache (hs.cache hlen), hmark⟩
  · have := hgood b h1 h2
    rwa [← hl.cache] at this
  · rw [loadTable, hl.cache]
  · rw [loadTable, hl.cache]
  · rw [loadTable, hl.cache]

variable {c} in
lemma Taken.scans {ni ni' ni'' : Inst} {ba top lo hi : ℕ} {img : List Byte}
    (h : Taken c ni ba img top ni') (hs : Scans c lo hi ni' ni'')
    (hlo : ba + c.infoTableBlocks ≤ lo) : Taken c ni ba img top ni'' := by
  have hmap : ni''.blockMapping = ni'.blockMapping := (congrArg Inst.blockMapping hs.frame :)
  have hinfo : ni''.infoTable = ni'.infoTable := (congrArg Inst.infoTable hs.frame :)
  have hbmc : ni''.blockMappingChanged = ni'.blockMappingChanged :=
    (congrArg Inst.blockMappingChanged hs.frame :)
  refine ⟨h.table, ?_, hs.flash.trans h.flash, hs.log.trans h.log, fun b h1 h2 => ?_,
    fun hu => ?_, hs.length.trans h.length, hmap.trans h.mapping, hinfo.trans h.infoTable,
    fun hch => ?_, hs.cache h.cache, h.watermark⟩
  · calc ni'' = ni'.scanned ni'' := hs.frame
      _ = (ni.searched ni').scanned ni'' := by rw [← h.frame]
      _ = ni.searched ni'' := by simp only [Inst.searched, Inst.scanned, hmap, hinfo]
  · rw [hs.state_eq fun hw => by have := hw.1; omega]
    exact h.good b h1 h2
  · obtain ⟨e1, e2⟩ := hs.eq_of_saved hu
    exact e1.trans (h.saved e2)
  · rcases hs.count with ⟨-, e1, e2⟩ | ⟨-, hlt, -⟩
    · rw [e2]
      refine h.accounted ?_
      rwa [Inst.changed, hbmc, e1] at hch
    · simp only [Inst.changed, Bool.or_eq_false_iff, bne_eq_false_iff_eq] at hch
      omega

variable {c} in
lemma Taken.place {ni ni' : Inst} {ba top s : ℕ} {img : List Byte}
    (h : Taken c ni ba img top ni') :
    Taken c { ni with mainTableBa := s } ba img top { ni' with mainTableBa := s } := by
  have hframe := congrArg (fun n : Inst => { n with mainTableBa := s }) h.frame
  exact ⟨h.table, hframe, h.flash, h.log, h.good, h.saved, h.length, h.mapping, h.infoTable,
    h.accounted, h.cache, h.watermark⟩

variable {c} in
lemma Taken.of_searched {ni ni' ni'' : Inst} {ba ba' top top' : ℕ} {img img' : List Byte}
    (h : Taken c ni' ba img top ni'') (h' : Taken c ni ba' img' top' ni') :
    Taken c ni ba img top ni'' := by
  have hd : ni'.dataBlockCount = ni.dataBlockCount := (congrArg Inst.dataBlockCount h'.frame :)
  have hsig : ni'.signatureBa = ni.signatureBa := (congrArg Inst.signatureBa h'.frame :)
  have htab := h.table
  have hw := h.watermark
  rw [h'.flash] at htab
  rw [hd, hsig] at hw
  refine ⟨htab, ?_, h.flash.trans h'.flash, h.log.trans h'.log, h.good, h.saved, h.length,
    h.mapping, h.infoTable, h.accounted, h.cache, hw⟩
  calc ni'' = ni'.searched ni'' := h.frame
    _ = (ni.searched ni').searched ni'' := by rw [← h'.frame]
    _ = ni.searched ni'' := rfl

variable {c} in
lemma Taken.stored {ni ni' : Inst} {ba top : ℕ} {img : List Byte}
    (h : Taken c ni ba img top ni') : Stored c ni' ba img (ba + c.infoTableBlocks) := by
  have hpeek := h.table.imageAt.peek
  have hlen := peek_length c hpeek
  rw [← h.flash, ← hlen] at hpeek
  have hst := stored_of_peek hpeek fun b h1 h2 => by
    rw [hlen] at h2
    refine ⟨h.good b h1 h2, ?_⟩
    rw [h.flash]
    exact h.table.imageAt.unmarked b h1 h2
  rwa [hlen] at hst

/-- What the two searches of `nmbm_load_info_table` find: one of the two tables is taken over, the
one with the higher write count. -/
lemma searchInfoTable_twice {ni niA niB : Inst} {m s e top : ℕ} {wc : UInt32}
    {second : Option (ℕ × ℕ × UInt32 × ℕ)}
    (hlen : ni.infoTableCache.length = c.infoTableSize)
    (hroom : c.infoTableBlocks ≤ ni.signatureBa)
    (h1 : nmbmSearchInfoTable c env ni m ni.signatureBa false = (some (s, e, wc, top), niA))
    (h2 : nmbmSearchInfoTable c env { niA with mainTableBa := s } e ni.signatureBa true =
      (second, niB)) :
    m ≤ s ∧ e = s + c.infoTableBlocks ∧ e < ni.signatureBa ∧
      (∃ img, TableAt c ni.chip.flash s img) ∧
      ((second = none ∧ ∃ img, Taken c { ni with mainTableBa := s } s img top niB) ∨
        ∃ s2 wc2 top2, second = some (s2, s2 + c.infoTableBlocks, wc2, top2) ∧ e ≤ s2 ∧
          s2 + c.infoTableBlocks < ni.signatureBa ∧ (∃ img, TableAt c ni.chip.flash s2 img) ∧
          ((wc2 ≤ wc ∧ ∃ img, Taken c { ni with mainTableBa := s } s img top niB) ∨
            (wc < wc2 ∧ ∃ img, Taken c { ni with mainTableBa := s } s2 img top2 niB))) := by
  have hlim : u32Sub ni.signatureBa c.infoTableBlocks = ni.signatureBa - c.infoTableBlocks :=
    u32Sub_of_le hroom
  rw [nmbmSearchInfoTable, hlim] at h1 h2
  obtain ⟨h3, h4, rfl, ni0, img, ni1, hs, hl, hwc, hniA⟩ :=
    searchInfoTableLoop_some c env hlen h1
  have htA : Taken c { ni with mainTableBa := s } s img top { niA with mainTableBa := s } := by
    rw [Bool.not_false, Bool.true_or, if_pos rfl] at hniA
    rw [hniA]
    exact (taken_loadTable hlen hs hl).place
  have hinfo : niA.infoTable.writeCount = wc := by
    rw [hwc]
    exact congrArg InfoTableHeader.writeCount htA.infoTable
  have hflash : niA.chip.flash = ni.chip.flash := htA.flash
  refine ⟨h3, rfl, by omega, ⟨img, htA.table⟩, ?_⟩
  cases second with
  | none =>
    have hscan := searchInfoTableLoop_none c env h2
    exact Or.inl ⟨rfl, img, htA.scans hscan le_rfl⟩
  | some r =>
    obtain ⟨s2, e2, wc2, top2⟩ := r
    obtain ⟨h5, h6, rfl, ni2, img2, ni3, hs2, hl2, hwc2, hniB⟩ :=
      searchInfoTableLoop_some c env htA.cache h2
    rw [Bool.not_true, Bool.false_or, hinfo] at hniB
    have htab2 : TableAt c ni.chip.flash s2 img2 := by
      have := hl2.imageAt
      rw [hs2.flash] at this
      exact ⟨hflash ▸ this, hl2.genuine⟩
    refine Or.inr ⟨s2, wc2, top2, rfl, h5, by omega, ⟨img2, htab2⟩, ?_⟩
    by_cases hgt : wc < wc2
    · have ht2 := taken_loadTable htA.cache hs2 hl2
      rw [if_pos (by simpa using hgt)] at hniB
      rw [hniB]
      exact Or.inr ⟨hgt, img2, ht2.of_searched htA⟩
    · rw [if_neg (by simpa using hgt)] at hniB
      refine Or.inl ⟨by simpa using hgt, img, ?_⟩
      rw [hniB]
      exact (htA.scans hs2 le_rfl).scans hl2.scans (by omega)

/-! ## What has to be found on the flash -/

/-- The mapping of the `m` data blocks in a table on the flash `f` is one that this program can
have written: the mapped blocks come first, they are mapped to different blocks, and these are
data blocks or lie behind all tables. -/
structure SaneTable (f : Flash) (m : ℕ) (img : List Byte) : Prop where
  offsets : OffsetsOk c (InfoTableHeader.ofBytes img)
  first : 0 < m → imageEntry c img 0 < 2 ^ 31
  mapped : ∀ lb lb', lb ≤ lb' → lb' < m → imageEntry c img lb' < 2 ^ 31 →
    imageEntry c img lb < 2 ^ 31
  injective : ∀ lb < m, ∀ lb' < m, imageEntry c img lb < 2 ^ 31 →
    imageEntry c img lb = imageEntry c img lb' → lb = lb'
  apart : ∀ lb < m, imageEntry c img lb < m ∨ ∀ ba img', m ≤ ba → TableAt c f ba img' →
    ba + c.infoTableBlocks < imageEntry c img lb

variable {c}

lemma mapping_eq_imageEntry (h : ni.blockMapping = tableMapping c img) {lb : ℕ}
    (hlb : lb < c.blockCount) : (ni.mapping lb).toNat = imageEntry c img lb := by
  have hlen : lb < (tableMapping c img).length := by
    rw [tableMapping, length_rdWords]
    exact hlb
  rw [Inst.mapping, imageEntry, h, List.getD_eq_getElem _ _ hlen, List.getD_eq_getElem _ _ hlen]

/-- The watermark of the table that was taken over lies behind all tables and below the blocks
the mapping uses. -/
lemma Taken.top {top : ℕ} (h : Taken c ni ba img top ni') (tableEnd : ℕ)
    (hsane : SaneTable c ni.chip.flash ni.dataBlockCount img) (hsb : ni.signatureBa < c.blockCount)
    (hba : ni.dataBlockCount ≤ ba)
    (hend : ∃ ba' img', ni.dataBlockCount ≤ ba' ∧ TableAt c ni.chip.flash ba' img' ∧
      tableEnd = ba' + c.infoTableBlocks)
    (hlt : tableEnd < ni.signatureBa) :
    tableEnd ≤ top ∧ top < ni.signatureBa ∧ ∀ lb < ni.dataBlockCount,
      imageEntry c img lb < ni.dataBlockCount ∨ top < imageEntry c img lb := by
  obtain ⟨r, htop, h1, h2, h3⟩ := h.watermark
  obtain ⟨ba', img', h4, h5, rfl⟩ := hend
  have hbc : c.blockCount < 2 ^ 16 := c.total_lt
  have hr : ba' + c.infoTableBlocks < r := by
    rcases h2 with rfl | ⟨lb, hlb, h6, rfl⟩
    · exact hlt
    · rcases hsane.apart lb hlb with h7 | h7
      · omega
      · exact h7 ba' img' h4 h5
  rw [u32Sub_of_le (by omega)] at htop
  refine ⟨by omega, by omega, fun lb hlb => ?_⟩
  have := (h3 lb hlb).1
  omega

lemma lastMapped_spec {ni : Inst} {m : ℕ} :
    (∀ d, lastMapped ni m = some d →
      0 < d ∧ d ≤ m ∧ (ni.mapping (d - 1)).toNat < 2 ^ 31) ∧
    (lastMapped ni m = none → ∀ lb < m, 2 ^ 31 ≤ (ni.mapping lb).toNat) := by
  induction m with
  | zero =>
    refine ⟨fun d h => absurd h (by simp [lastMapped]), fun _ lb hlb => by omega⟩
  | succ m ih =>
    rw [lastMapped]
    split
    · rename_i hlt
      refine ⟨fun d h => ?_, fun h => absurd h (by simp)⟩
      rw [Option.some.injEq] at h
      subst h
      exact ⟨by omega, le_rfl, hlt⟩
    · rename_i hge
      refine ⟨fun d h => ?_, fun h lb hlb => ?_⟩
      · obtain ⟨h1, h2, h3⟩ := ih.1 d h
        exact ⟨h1, by omega, h3⟩
      · by_cases hlb' : lb = m
        · subst hlb'
          omega
        · exact ih.2 h lb (by omega)

lemma lastMapped_sane {f : Flash} {d : ℕ} (hmap : ni.blockMapping = tableMapping c img)
    (hsane : SaneTable c f ni.mgmtStartBa img)
    (hd : d = (lastMapped ni ni.mgmtStartBa).getD ni.mgmtStartBa)
    (hmg : ni.mgmtStartBa < c.blockCount) :
    d ≤ ni.mgmtStartBa ∧ ∀ lb < d, imageEntry c img lb < 2 ^ 31 := by
  have hentry : ∀ lb < ni.mgmtStartBa, (ni.mapping lb).toNat = imageEntry c img lb :=
    fun lb hlb => mapping_eq_imageEntry hmap (by omega)
  cases hlast : lastMapped ni ni.mgmtStartBa with
  | none =>
    have hall := lastMapped_spec.2 hlast
    rw [hlast, Option.getD_none] at hd
    refine ⟨hd.le, fun lb hlb => ?_⟩
    have h0 := hsane.first (by omega)
    have := hall 0 (by omega)
    rw [hentry 0 (by omega)] at this
    omega
  | some d' =>
    obtain ⟨h1, h2, h3⟩ := lastMapped_spec.1 d' hlast
    rw [hlast, Option.getD_some] at hd
    subst hd
    rw [hentry _ (by omega)] at h3
    exact ⟨h2, fun lb hlb => hsane.mapped lb (d - 1) (by omega) (by omega) h3⟩

lemma allocated_of_sane {f : Flash} {d : ℕ} (hmap : ni.blockMapping = tableMapping c img)
    (hsane : SaneTable c f ni.mgmtStartBa img)
    (hd : d = (lastMapped ni ni.mgmtStartBa).getD ni.mgmtStartBa)
    (hsb : ni.signatureBa < c.blockCount) (htop : ni.mappingBlocksTopBa < ni.signatureBa)
    (hmg : ni.mgmtStartBa < c.blockCount)
    (htarget : ∀ lb < ni.mgmtStartBa,
      (imageEntry c img lb < ni.mgmtStartBa ∨ ni.mappingBlocksTopBa < imageEntry c img lb) ∧
        imageEntry c img lb ≠ ni.signatureBa) :
    Allocated c d ni := by
  have hentry : ∀ lb < ni.mgmtStartBa, (ni.mapping lb).toNat = imageEntry c img lb :=
    fun lb hlb => mapping_eq_imageEntry hmap (by omega)
  obtain ⟨hdm, hmapped⟩ := lastMapped_sane hmap hsane hd hmg
  refine ⟨?_, htop, hsb, fun lb hlb => ?_, fun lb hlb => ?_, fun lb hlb lb' hlb' he => ?_⟩
  · rw [hmap, tableMapping, length_rdWords]
    omega
  · rw [hentry lb (by omega)]
    exact (htarget lb (by omega)).1
  · rw [hentry lb (by omega)]
    exact (htarget lb (by omega)).2
  · have he' := congrArg UInt32.toNat he
    rw [hentry lb (by omega), hentry lb' (by omega)] at he'
    exact hsane.injective lb (by omega) lb' (by omega) (hmapped lb hlb) he'

lemma lastMapped_congr {ni ni' : Inst} (h : ni'.blockMapping = ni.blockMapping) (m : ℕ) :
    lastMapped ni' m = lastMapped ni m := by
  induction m with
  | zero => rfl
  | succ m ih => rw [lastMapped, lastMapped, ih, Inst.mapping, Inst.mapping, h]

/-! ## `nmbm_load_info_table` -/

/-- The instance once the table at `ba` is settled as the current one: everything but the second
table is in order. -/
structure Settled (c : Conf) (ba : ℕ) (ni : Inst) : Prop where
  layout : Layout ni
  shaped : ni.Shaped c
  accounted : ni.Accounted
  allocated : Allocated c ni.dataBlockCount ni
  main : ni.mainTableBa ≠ 0
  stored : ∃ img, Stored c ni ba img (ba + c.infoTableBlocks) ∧
    (ni.unsaved = false → Carries c ni img)

lemma Taken.settled {niB : Inst} {s top tableEnd backupBa mainTop backupTop : ℕ}
    {mainWc backupWc : UInt32} (h : Taken c { ni with mainTableBa := s } ba img top niB)
    (hsane : SaneTable c ni.chip.flash ni.mgmtStartBa img)
    (hm : ni.mgmtStartBa = ni.signature.mgmtStartPb.toNat) (hd : ni.dataBlockCount = ni.mgmtStartBa)
    (hpos : 0 < ni.mgmtStartBa) (hsb : ni.signatureBa < c.blockCount) (hba : ni.mgmtStartBa ≤ ba)
    (hs : ni.mgmtStartBa ≤ s) (hlt : s < tableEnd)
    (hbackup : backupBa ≠ 0 → s < backupBa ∧ backupBa < tableEnd)
    (hend : ∃ ba' img', ni.mgmtStartBa ≤ ba' ∧ TableAt c ni.chip.flash ba' img' ∧
      tableEnd = ba' + c.infoTableBlocks)
    (hend_lt : tableEnd < ni.signatureBa)
    (htop : (settleTables niB mainWc mainTop backupBa tableEnd backupWc
      backupTop).mappingBlocksTopBa = top)
    :
    Settled c ba (settleTables niB mainWc mainTop backupBa tableEnd backupWc backupTop) := by
  set niC := settleTables niB mainWc mainTop backupBa tableEnd backupWc backupTop with hC
  have e1 : niC.mgmtStartBa = ni.mgmtStartBa := (congrArg Inst.mgmtStartBa h.frame :)
  have e2 : niC.signatureBa = ni.signatureBa := (congrArg Inst.signatureBa h.frame :)
  have e3 : niC.mainTableBa = s := (congrArg Inst.mainTableBa h.frame :)
  have e4 : niC.mappingBlocksBa = tableEnd := rfl
  have e5 : niC.backupTableBa = backupBa := rfl
  have esig : niB.signature = ni.signature := (congrArg Inst.signature h.frame :)
  have edbc : niB.dataBlockCount = ni.dataBlockCount := (congrArg Inst.dataBlockCount h.frame :)
  have hmap : niC.blockMapping = tableMapping c img := h.mapping
  have hwater := h.watermark
  obtain ⟨r, -, -, -, hclear⟩ := hwater
  dsimp only at hclear
  rw [hd] at hclear
  obtain ⟨h1, h2, h3⟩ := h.top tableEnd (by dsimp only; rw [hd]; exact hsane) hsb
    (by dsimp only; omega) (by dsimp only; rw [hd]; exact hend) hend_lt
  dsimp only at h2 h3
  rw [hd] at h3
  have hoff := hsane.offsets
  rw [← h.infoTable] at hoff
  refine ⟨⟨by omega, by omega, fun _ => by omega, fun hb => ?_⟩, ⟨h.length, ?_, hoff⟩,
    fun _ hch => h.accounted hch, ?_, by omega, img, h.stored.of_eq rfl rfl,
    fun hu => ⟨peek_length c h.table.imageAt.peek, (h.saved hu).symm, hmap.symm⟩⟩
  · have := hbackup hb
    omega
  · rw [hmap, tableMapping, length_rdWords]
  · have hdbc : niC.dataBlockCount =
        (lastMapped niC niC.mgmtStartBa).getD niC.mgmtStartBa := by
      have hlast : lastMapped niC ni.mgmtStartBa = lastMapped niB ni.mgmtStartBa :=
        lastMapped_congr (hmap.trans h.mapping.symm) _
      rw [e1, hlast, hC, settleTables]
      dsimp only
      rw [esig, ← hm, edbc, hd]
    refine allocated_of_sane (f := ni.chip.flash) hmap (by rw [e1]; exact hsane) hdbc (by omega)
      (by omega) (by omega) fun lb hlb => ?_
    rw [e1] at hlb ⊢
    rw [htop, e2]
    exact ⟨h3 lb hlb, (hclear lb hlb).2⟩

lemma Consistent.protect {success : Bool} (hlay : Layout ni) (hs : ni.Shaped c)
    (hacc : ni.Accounted)
    (hcur : success = true → ni.lost = false → ni.changed = false →
      HoldsMemory c ni ni.mainTableBa) :
    Consistent c (protectIfExhausted success ni) := by
  refine ⟨⟨hlay.mgmt_le, hlay.top, hlay.main, hlay.backup⟩, ⟨hs.state, hs.mapping, hs.offsets⟩,
    hacc, fun hp hl hch => ?_⟩
  simp only [protectIfExhausted, Bool.or_eq_false_iff, Bool.not_eq_false'] at hp
  exact (hcur hp.2 hl hch).congr rfl rfl rfl rfl

lemma Restored.consistent (h : Restored c r ni ni') (hs : ni.Shaped c) (hacc : ni.Accounted) :
    Consistent c (protectIfExhausted r ni') :=
  have hacc' := h.manages.accounted hacc
  Consistent.protect h.layout (h.manages.toUpdates.shaped hs) hacc'
    fun hr hl hch => h.current hr hl (hacc' hl hch)

lemma Restored.allocated (h : Restored c r ni ni') (ha : Allocated c ni.dataBlockCount ni) :
    Allocated c ni'.dataBlockCount ni' := by
  have hd : ni'.dataBlockCount = ni.dataBlockCount :=
    (congrArg Inst.dataBlockCount h.manages.frame :)
  rw [hd]
  exact ha.updates h.manages.toUpdates

variable (c)

/-- The end of `nmbm_load_info_table`, from the generated image on. -/
lemma restoreTables_spec {mainWc backupWc : UInt32} (h : Settled c ba ni)
    (hsame : ni.backupTableBa = 0 → mainWc = backupWc)
    (hba : ba = if mainWc < backupWc then ni.backupTableBa else ni.mainTableBa)
    (hend : ba + c.infoTableBlocks ≤ ni.mappingBlocksBa)
    (hmain : ni.backupTableBa ≠ 0 → ni.mainTableBa + c.infoTableBlocks ≤ ni.backupTableBa)
    (hlost : ni.lost = false → ni.backupTableBa = 0 ∨ mainWc ≠ backupWc → ni.unsaved = false)
    (hr : restoreTables c env (nmbmGenerateInfoTableCache c ni).2 mainWc backupWc = (r, ni')) :
    Consistent c (protectIfExhausted r ni') ∧ Allocated c ni'.dataBlockCount ni' := by
  have hup := updates_generateInfoTableCache c ni.mgmtStartBa ni.mappingBlocksTopBa ni
  have hlay : Layout (nmbmGenerateInfoTableCache c ni).2 :=
    ⟨h.layout.mgmt_le, h.layout.top, h.layout.main, h.layout.backup⟩
  have hs := hup.shaped h.shaped
  have hacc := hup.accounted h.accounted
  have hne : (nmbmGenerateInfoTableCache c ni).2.infoTableCache ≠ [] := generatedImage_ne_nil c ni
  have himg : Imaged c (nmbmGenerateInfoTableCache c ni).2 := ⟨ni, rfl, rfl, rfl, rfl, rfl⟩
  obtain ⟨img, hst, hcar⟩ := h.stored
  have hcar' : ni.unsaved = false → Carries c (nmbmGenerateInfoTableCache c ni).2 img :=
    fun hu => ⟨(hcar hu).length, (hcar hu).state, (hcar hu).mapping⟩
  have hst' : Stored c (nmbmGenerateInfoTableCache c ni).2 ba img (ba + c.infoTableBlocks) :=
    hst.of_eq rfl rfl
  rw [restoreTables] at hr
  split at hr
  · rename_i hb0
    have hb0' : ni.backupTableBa = 0 := hb0
    have hba' : ba = ni.mainTableBa := by
      rw [hba, hsame hb0', if_neg (UInt32.lt_irrefl _)]
    have hres := rescueSingleInfoTable_spec c env hs hlay hne (fun _ => himg) h.main hb0
      (fun hl _ => ⟨img, _, hba' ▸ hst', hba' ▸ hend, hcar' (hlost hl (Or.inl hb0'))⟩) hr
    exact ⟨hres.consistent hs hacc, hres.allocated (h.allocated.updates hup)⟩
  · rename_i hb
    have hb' : ni.backupTableBa ≠ 0 := hb
    split at hr
    · rename_i hwc
      set niG : Inst := { (nmbmGenerateInfoTableCache c ni).2 with
        blockStateChanged := 1, blockMappingChanged := 1 } with hniG
      have hlayG : Layout niG := ⟨hlay.mgmt_le, hlay.top, hlay.main, hlay.backup⟩
      have hsG : niG.Shaped c := ⟨hs.state, hs.mapping, hs.offsets⟩
      have hstG : Stored c niG ba img (ba + c.infoTableBlocks) := hst'.of_eq rfl rfl
      have hcarG : ni.unsaved = false → Carries c niG img :=
        fun hu => ⟨(hcar hu).length, (hcar hu).state, (hcar hu).mapping⟩
      have hallocG : Allocated c niG.dataBlockCount niG :=
        (h.allocated.updates hup).congr rfl le_rfl rfl rfl
      have hres : Restored c r niG ni' := by
        by_cases hlt : mainWc < backupWc
        · rw [if_pos hlt] at hba
          rw [decide_eq_true hlt] at hr
          exact updateSingleInfoTable_true c env hsG hlayG hne (fun _ => himg) hb
            (fun hl _ => ⟨img, _, hba ▸ hstG, hba ▸ hend, hcarG (hlost hl (Or.inr hwc))⟩) hr
        · rw [if_neg hlt] at hba
          rw [decide_eq_false hlt] at hr
          exact updateSingleInfoTable_false c env hlayG hne hb
            (fun hl _ => ⟨img, _, hba ▸ hstG, hba ▸ hmain hb', hcarG (hlost hl (Or.inr hwc))⟩) hr
      exact ⟨hres.consistent hsG fun _ hch => absurd hch (by simp [Inst.changed, hniG]),
        hres.allocated hallocG⟩
    · rename_i hwc
      rw [not_not] at hwc
      rw [Prod.mk.injEq] at hr
      obtain ⟨rfl, rfl⟩ := hr
      have hba' : ba = ni.mainTableBa := by
        rw [hba, hwc, if_neg (UInt32.lt_irrefl _)]
      refine ⟨Consistent.protect hlay hs hacc fun _ hl hch => ?_, h.allocated.updates hup⟩
      exact ⟨img, _, hba' ▸ hst', hba' ▸ hend, hcar' (h.accounted hl hch)⟩

lemma loadInfoTable_cases {limit : ℕ} (h : nmbmLoadInfoTable c env ni ba limit = (true, ni')) :
    ∃ s e wc top niA second niB backupBa tableEnd backupWc backupTop r niR,
      nmbmSearchInfoTable c env (resetTables ni) ba limit false = (some (s, e, wc, top), niA) ∧
      nmbmSearchInfoTable c env { niA with mainTableBa := s } e limit true = (second, niB) ∧
      second.getD (0, e, wc, top) = (backupBa, tableEnd, backupWc, backupTop) ∧
      restoreTables c env (nmbmGenerateInfoTableCache c (settleTables niB wc top backupBa tableEnd
        backupWc backupTop)).2 wc backupWc = (r, niR) ∧
      ni' = protectIfExhausted r niR := by
  rw [nmbmLoadInfoTable] at h
  rcases h1 : nmbmSearchInfoTable c env (resetTables ni) ba limit false with
    ⟨_ | ⟨s, e, wc, top⟩, niA⟩
  · rw [h1] at h
    exact absurd h (by simp)
  · rw [h1] at h
    dsimp only at h
    rcases h2 : nmbmSearchInfoTable c env { niA with mainTableBa := s } e limit true with
      ⟨second, niB⟩
    rw [h2] at h
    dsimp only at h
    rcases h3 : second.getD (0, e, wc, top) with ⟨backupBa, tableEnd, backupWc, backupTop⟩
    rw [h3] at h
    dsimp only at h
    rcases h4 : restoreTables c env (nmbmGenerateInfoTableCache c (settleTables niB wc top backupBa
      tableEnd backupWc backupTop)).2 wc backupWc with ⟨r, niR⟩
    rw [h4, Prod.mk.injEq] at h
    exact ⟨s, e, wc, top, niA, second, niB, backupBa, tableEnd, backupWc, backupTop, r, niR, rfl,
      h2, h3, h4, h.2.symm⟩

/-- `nmbm_load_info_table`, when it finds a table. -/
lemma loadInfoTable_spec {ni ni' : Inst} (hlen : ni.infoTableCache.length = c.infoTableSize)
    (hm : ni.mgmtStartBa = ni.signature.mgmtStartPb.toNat) (hpos : 0 < ni.mgmtStartBa)
    (hroom : c.infoTableBlocks ≤ ni.signatureBa) (hsb : ni.signatureBa < c.blockCount)
    (hsane : ∀ ba img, ni.mgmtStartBa ≤ ba → TableAt c ni.chip.flash ba img →
      SaneTable c ni.chip.flash ni.mgmtStartBa img)
    (h : nmbmLoadInfoTable c env ni ni.mgmtStartBa ni.signatureBa = (true, ni')) :
    Consistent c ni' ∧ Allocated c ni'.dataBlockCount ni' := by
  have hblk := c.infoTableBlocks_pos
  have e1 : (resetTables ni).mgmtStartBa = ni.mgmtStartBa := rfl
  obtain ⟨s, e, wc, top, niA, second, niB, backupBa, tableEnd, backupWc, backupTop, r, niR, h1, h2,
    h3, h4, rfl⟩ := loadInfoTable_cases c env h
  obtain ⟨h5, rfl, h6, ⟨img1, htab1⟩, hcases⟩ :=
    @searchInfoTable_twice c env (resetTables ni) _ _ _ _ _ _ _ _ hlen hroom h1 h2
  have hdone : ∀ ba, Settled c ba (settleTables niB wc top backupBa tableEnd backupWc backupTop) →
      (backupBa = 0 → wc = backupWc) →
      ba = (if wc < backupWc then backupBa else s) → ba + c.infoTableBlocks ≤ tableEnd →
      (backupBa ≠ 0 → s + c.infoTableBlocks ≤ backupBa) → niB.mainTableBa = s →
      Consistent c (protectIfExhausted r niR) ∧
        Allocated c (protectIfExhausted r niR).dataBlockCount (protectIfExhausted r niR) := by
    intro ba hset hsame hba hend hmain hs
    have hlost : (settleTables niB wc top backupBa tableEnd backupWc backupTop).lost = false →
        backupBa = 0 ∨ wc ≠ backupWc → niB.unsaved = false := by
      intro hl hor
      simp only [settleTables, Bool.or_eq_false_iff, Bool.and_eq_false_iff,
        beq_eq_false_iff_ne, bne_eq_false_iff_eq] at hl
      rcases hl.2 with h7 | ⟨h7, h8⟩
      · exact h7
      · exact absurd h8 (hor.resolve_left h7)
    have hmain' : (settleTables niB wc top backupBa tableEnd backupWc backupTop).mainTableBa = s :=
      hs
    obtain ⟨h7, h8⟩ := restoreTables_spec c env hset hsame (by rw [hba, hmain']; rfl) hend
      (by rw [hmain']; exact hmain) hlost h4
    exact ⟨h7, h8.congr rfl le_rfl rfl rfl⟩
  have hs : niB.mainTableBa = s := by
    rcases hcases with ⟨-, img, ht⟩ | ⟨s2, wc2, top2, -, -, -, -, ⟨-, img, ht⟩ | ⟨-, img, ht⟩⟩
    · exact (congrArg Inst.mainTableBa ht.frame :)
    · exact (congrArg Inst.mainTableBa ht.frame :)
    · exact (congrArg Inst.mainTableBa ht.frame :)
  rcases hcases with ⟨rfl, img, ht⟩ | ⟨s2, wc2, top2, rfl, h7, h8, ⟨img2, htab2⟩, hwc⟩
  · -- one table
    simp only [Option.getD_none, Prod.mk.injEq] at h3
    obtain ⟨rfl, rfl, rfl, rfl⟩ := h3
    refine hdone s ?_ (fun _ => rfl) (by rw [if_neg (UInt32.lt_irrefl _)]) le_rfl
      (fun h => absurd rfl h) hs
    exact ht.settled (hsane s img h5 ht.table) hm hm.symm hpos hsb h5 h5 (by omega)
      (fun h => absurd rfl h) ⟨s, img1, h5, htab1, rfl⟩ h6
      (by rw [settleTables]; dsimp only; rw [if_pos rfl])
  · -- two tables
    simp only [Option.getD_some, Prod.mk.injEq] at h3
    obtain ⟨rfl, rfl, rfl, rfl⟩ := h3
    rcases hwc with ⟨hle, img, ht⟩ | ⟨hlt, img, ht⟩
    · have hnlt : ¬ wc < wc2 := by simpa using hle
      refine hdone s ?_ (fun h => absurd h (by omega)) (by rw [if_neg hnlt]) (by omega)
        (fun _ => h7) hs
      exact ht.settled (hsane s img h5 ht.table) hm hm.symm hpos hsb h5 h5 (by omega)
        (fun _ => by omega) ⟨s2, img2, by omega, htab2, rfl⟩ h8
        (by rw [settleTables]; dsimp only; rw [if_neg (by omega), if_pos hle])
    · have hnle : ¬ wc2 ≤ wc := by simpa using hlt
      refine hdone s2 ?_ (fun h => absurd h (by omega)) (by rw [if_pos hlt]) le_rfl
        (fun _ => h7) hs
      exact ht.settled (hsane s2 img (by omega) ht.table) hm hm.symm hpos hsb (by omega) h5 (by omega)
        (fun _ => by omega) ⟨s2, img2, by omega, htab2, rfl⟩ h8
        (by rw [settleTables]; dsimp only; rw [if_neg (by omega), if_neg hnle])

/-! ## The signature -/

/-- A page of block `ba` holds the signature `sig`. -/
def SignatureAt (f : Flash) (ba : ℕ) (sig : Signature) : Prop :=
  ∃ j < c.ppb, ∃ bs, peek c f (c.ba2addr ba + j * c.pgSize) signatureSize = some bs ∧
    nmbmCheckHeader bs signatureSize = true ∧ rd32 bs = magicSignature ∧
    sig = Signature.ofBytes bs

lemma findSignaturePages_spec {k addr : ℕ} {ni ni' : Inst} {r : Option Signature}
    (h : findSignaturePages c env k addr ni = (r, ni')) :
    Scans c 0 0 ni ni' ∧ ∀ sig, r = some sig → ∃ j < k, ∃ bs,
      peek c ni.chip.flash (addr + j * c.pgSize) signatureSize = some bs ∧
      nmbmCheckHeader bs signatureSize = true ∧ rd32 bs = magicSignature ∧
      sig = Signature.ofBytes bs := by
  induction k generalizing addr ni with
  | zero =>
    rw [findSignaturePages, Prod.mk.injEq] at h
    obtain ⟨rfl, rfl⟩ := h
    exact ⟨Scans.refl _ _ ni, fun sig h => absurd h (by simp)⟩
  | succ k ih =>
    have hs := scans_readData c env ni addr signatureSize 0 0
    rw [findSignaturePages] at h
    split at h
    · rename_i hok
      rw [Prod.mk.injEq] at h
      obtain ⟨rfl, rfl⟩ := h
      refine ⟨hs, fun sig hsig => ⟨0, by omega, _, ?_, hok.2.1, hok.2.2, ?_⟩⟩
      · rw [Nat.zero_mul, Nat.add_zero]
        exact readData_peek c env hok.1.ge
      · exact (Option.some.inj hsig).symm
    · obtain ⟨hs2, hr⟩ := ih h
      refine ⟨hs.trans hs2, fun sig hsig => ?_⟩
      obtain ⟨j, hj, bs, hpeek, hrest⟩ := hr sig hsig
      rw [hs.flash] at hpeek
      refine ⟨j + 1, by omega, bs, ?_, hrest⟩
      rw [← hpeek, Nat.add_mul, Nat.one_mul]
      congr 1
      omega

lemma findSignatureBlocks_spec {k ba : ℕ} {ni ni' : Inst} {r : Option (Signature × ℕ)}
    (hk : k ≤ ba) (h : findSignatureBlocks c env k ba ni = (r, ni')) :
    Scans c 0 0 ni ni' ∧
      ∀ sig sb, r = some (sig, sb) → sb < ba ∧ SignatureAt c ni.chip.flash sb sig := by
  induction k generalizing ba ni with
  | zero =>
    rw [findSignatureBlocks, Prod.mk.injEq] at h
    obtain ⟨rfl, rfl⟩ := h
    exact ⟨Scans.refl _ _ ni, fun _ _ h => absurd h (by simp)⟩
  | succ k ih =>
    have hb := scans_checkBad c env ni (ba - 1) 0 0
    have hnext : ∀ {ni1 : Inst}, Scans c 0 0 ni ni1 →
        findSignatureBlocks c env k (ba - 1) ni1 = (r, ni') → Scans c 0 0 ni ni' ∧
          ∀ sig sb, r = some (sig, sb) → sb < ba ∧ SignatureAt c ni.chip.flash sb sig := by
      intro ni1 hs h1
      obtain ⟨hs2, hr⟩ := ih (by omega) h1
      refine ⟨hs.trans hs2, fun sig sb hsb => ?_⟩
      obtain ⟨h2, h3⟩ := hr sig sb hsb
      rw [hs.flash] at h3
      exact ⟨by omega, h3⟩
    rw [findSignatureBlocks] at h
    split at h
    · exact hnext hb h
    · split at h
      · rename_i sig ni1 hpages
        obtain ⟨hs, hr⟩ := findSignaturePages_spec c env hpages
        rw [Prod.mk.injEq] at h
        obtain ⟨rfl, rfl⟩ := h
        refine ⟨hb.trans hs, fun sig' sb hsb => ?_⟩
        rw [Option.some.injEq, Prod.mk.injEq] at hsb
        obtain ⟨rfl, rfl⟩ := hsb
        exact ⟨by omega, hr sig rfl⟩
      · rename_i ni1 hpages
        obtain ⟨hs, -⟩ := findSignaturePages_spec c env hpages
        exact hnext (hb.trans hs) h

lemma findSignature_spec {r : SignatureSearch} (h : nmbmFindSignature c env ni = (r, ni')) :
    Scans c 0 0 ni ni' ∧
      ∀ sig sb, r = .found sig sb → sb < c.blockCount ∧ SignatureAt c ni.chip.flash sb sig := by
  rw [nmbmFindSignature] at h
  split at h
  · rename_i sig sb ni1 hfind
    obtain ⟨hs, hr⟩ := findSignatureBlocks_spec c env (Nat.min_le_left _ _) hfind
    rw [Prod.mk.injEq] at h
    obtain ⟨rfl, rfl⟩ := h
    refine ⟨hs, fun sig' sb' hsb => ?_⟩
    rw [SignatureSearch.found.injEq] at hsb
    obtain ⟨rfl, rfl⟩ := hsb
    exact hr sig sb rfl
  · rename_i ni1 hfind
    obtain ⟨hs, -⟩ := findSignatureBlocks_spec c env (Nat.min_le_left _ _) hfind
    rw [Prod.mk.injEq] at h
    obtain ⟨rfl, rfl⟩ := h
    refine ⟨hs, fun sig sb hsb => absurd hsb ?_⟩
    split <;> simp

/-! ## Attaching -/

/-- What `nmbm_attach` may find: the signatures leave room for data blocks and a table, and the
tables behind the data blocks are sane. -/
structure SaneFlash (f : Flash) : Prop where
  room : ∀ sb sig, SignatureAt c f sb sig → 0 < sig.mgmtStartPb.toNat ∧
    sig.mgmtStartPb.toNat < sb ∧ c.infoTableBlocks ≤ sb
  tables : ∀ sb sig, SignatureAt c f sb sig → ∀ ba img, sig.mgmtStartPb.toNat ≤ ba →
    TableAt c f ba img → SaneTable c f sig.mgmtStartPb.toNat img

lemma loadInfoTable_false {limit : ℕ} (h : nmbmLoadInfoTable c env ni ba limit = (false, ni')) :
    ∃ lo hi, Scans c lo hi (resetTables ni) ni' := by
  rw [nmbmLoadInfoTable] at h
  rcases h1 : nmbmSearchInfoTable c env (resetTables ni) ba limit false with
    ⟨_ | ⟨s, e, wc, top⟩, niA⟩
  · rw [h1, Prod.mk.injEq] at h
    obtain ⟨-, rfl⟩ := h
    rw [nmbmSearchInfoTable] at h1
    exact ⟨_, _, searchInfoTableLoop_none c env h1⟩
  · rw [h1] at h
    exact absurd (congrArg Prod.fst h) (by simp)

lemma rescanned_shaped {ni1 : Inst} {m : ℕ} (hs : ni.Shaped c)
    (hload : nmbmLoadInfoTable c env { ni with mgmtStartBa := m } m ni.signatureBa = (false, ni1)) :
    (nmbmScanBadblocks c env ni1).Shaped c ∧ (nmbmScanBadblocks c env ni1).mgmtStartBa = m ∧
      (nmbmScanBadblocks c env ni1).signatureBa = ni.signatureBa := by
  obtain ⟨lo, hi, hscan⟩ := loadInfoTable_false c env hload
  have hm1 : ni1.blockMapping = ni.blockMapping := (congrArg Inst.blockMapping hscan.frame :)
  have hi1 : ni1.infoTable = { ni.infoTable with writeCount := 0 } :=
    (congrArg Inst.infoTable hscan.frame :)
  have hmg1 : ni1.mgmtStartBa = m := (congrArg Inst.mgmtStartBa hscan.frame :)
  have hsb1 : ni1.signatureBa = ni.signatureBa := (congrArg Inst.signatureBa hscan.frame :)
  have hbad := inspects_scanBadblocks c env ni1
  set ni2 := nmbmScanBadblocks c env ni1
  have hm2 : ni2.blockMapping = ni1.blockMapping := (congrArg Inst.blockMapping hbad.frame :)
  have hi2 : ni2.infoTable = ni1.infoTable := (congrArg Inst.infoTable hbad.frame :)
  have hmg2 : ni2.mgmtStartBa = ni1.mgmtStartBa := (congrArg Inst.mgmtStartBa hbad.frame :)
  have hsb2 : ni2.signatureBa = ni1.signatureBa := (congrArg Inst.signatureBa hbad.frame :)
  have hoff : OffsetsOk c ni2.infoTable := by
    rw [hi2, hi1]
    exact ⟨hs.offsets.header, hs.offsets.state, hs.offsets.mapping⟩
  exact ⟨⟨hbad.length.trans (hscan.length.trans hs.state), by rw [hm2, hm1]; exact hs.mapping,
    hoff⟩, hmg2.trans hmg1, hsb2.trans hsb1⟩

/-- `nmbm_load_existing` loads the tables, or builds them over the mapping of a scan. -/
lemma loadExisting_cases (hs : ni.Shaped c)
    (hroom : ni.signature.mgmtStartPb.toNat < ni.signatureBa) (hsb : ni.signatureBa < c.blockCount)
    (h : nmbmLoadExisting c env ni = (true, ni')) :
    nmbmLoadInfoTable c env { ni with mgmtStartBa := ni.signature.mgmtStartPb.toNat }
        ni.signature.mgmtStartPb.toNat ni.signatureBa = (true, ni') ∨
      ∃ ni1, nmbmLoadInfoTable c env { ni with mgmtStartBa := ni.signature.mgmtStartPb.toNat }
          ni.signature.mgmtStartPb.toNat ni.signatureBa = (false, ni1) ∧
        Remapped c (nmbmScanBadblocks c env ni1)
          (nmbmBuildMappingTable c (nmbmScanBadblocks c env ni1)) ∧
        nmbmCreateInfoTable c env (nmbmBuildMappingTable c (nmbmScanBadblocks c env ni1)) =
          (true, ni') := by
  rw [nmbmLoadExisting] at h
  rcases hload : nmbmLoadInfoTable c env
      { ni with mgmtStartBa := ni.signature.mgmtStartPb.toNat } ni.signature.mgmtStartPb.toNat
      ni.signatureBa with ⟨r, ni1⟩
  dsimp only at h
  rw [hload] at h
  cases r with
  | true => exact .inl h
  | false =>
    dsimp only at h
    split at h
    · exact absurd h (by simp)
    · obtain ⟨hs2, hmg2, hsb2⟩ := rescanned_shaped c env hs hload
      obtain ⟨hbuild, -⟩ := buildMappingTable_spec c hs2.mapping (by omega)
      have hsb3 : (nmbmBuildMappingTable c (nmbmScanBadblocks c env ni1)).signatureBa =
          (nmbmScanBadblocks c env ni1).signatureBa := (congrArg Inst.signatureBa hbuild :)
      exact .inr ⟨ni1, rfl, ⟨hs2, by omega, by omega, ⟨_, rfl⟩,
        by rw [(congrArg Inst.blockState hbuild :)]⟩, h⟩

lemma loadExisting_spec (hs : ni.Shaped c) (hlen : ni.infoTableCache.length = c.infoTableSize)
    (hsb : ni.signatureBa < c.blockCount)
    (hsig : SignatureAt c ni.chip.flash ni.signatureBa ni.signature)
    (hsane : SaneFlash c ni.chip.flash) (h : nmbmLoadExisting c env ni = (true, ni')) :
    Consistent c ni' ∧ (ni'.skipped = false → Allocated c ni'.dataBlockCount ni') := by
  obtain ⟨hpos, hlt, hroom⟩ := hsane.room _ _ hsig
  rcases loadExisting_cases c env hs (by omega) hsb h with hload | ⟨ni1, -, hmapped, hcreate⟩
  · obtain ⟨h1, h2⟩ := @loadInfoTable_spec c env
      { ni with mgmtStartBa := ni.signature.mgmtStartPb.toNat } ni' hlen rfl hpos hroom hsb
      (hsane.tables _ _ hsig) hload
    exact ⟨h1, fun _ => h2⟩
  · exact createInfoTable_remapped c env hmapped hcreate

/-- What `nmbm_attach` does: it creates all anew, or goes on from the signature that it finds. -/
lemma attach_cases {chip : Chip} (h : nmbmAttach c env chip = some (0, ni)) :
    (∃ ni1, nmbmFindSignature c env (nmbmInitStructure c chip) = (.missing, ni1) ∧
      ni1.Shaped c ∧ nmbmCreateNew c env ni1 = (true, ni)) ∨
    ∃ sig sb ni1, nmbmFindSignature c env (nmbmInitStructure c chip) = (.found sig sb, ni1) ∧
      Inst.Shaped c { ni1 with signature := sig, signatureBa := sb } ∧
      ni1.infoTableCache.length = c.infoTableSize ∧ ni1.chip.flash = chip.flash ∧
      sb < c.blockCount ∧ SignatureAt c chip.flash sb sig ∧
      nmbmLoadExisting c env { ni1 with signature := sig, signatureBa := sb } = (true, ni) := by
  have hinit := initStructure_shaped c chip
  have hshaped {r : SignatureSearch} {ni1 : Inst}
      (hfind : nmbmFindSignature c env (nmbmInitStructure c chip) = (r, ni1)) : ni1.Shaped c := by
    obtain ⟨hscan, -⟩ := findSignature_spec c env hfind
    exact ⟨hscan.length.trans hinit.state,
      (congrArg (fun n : Inst => n.blockMapping.length) hscan.frame).trans hinit.mapping,
      (congrArg Inst.infoTable hscan.frame : ni1.infoTable = _) ▸ hinit.offsets⟩
  rw [nmbmAttach] at h
  split at h
  · exact absurd h (by simp)
  · rename_i ni1 hfind
    split at h
    · exact absurd h (by simp [eNODEV])
    · split at h
      · rename_i ni2 hnew
        rw [Option.some.injEq, Prod.mk.injEq] at h
        exact .inl ⟨ni1, hfind, hshaped hfind, h.2 ▸ hnew⟩
      · exact absurd h (by simp [eNODEV])
  · rename_i sig sb ni1 hfind
    obtain ⟨hscan, hsig⟩ := findSignature_spec c env hfind
    obtain ⟨hsb, hat⟩ := hsig sig sb rfl
    split at h
    · exact absurd h (by simp [eINVAL])
    · split at h
      · exact absurd h (by simp [eINVAL])
      · dsimp only at h
        split at h
        · rename_i ni2 hload
          rw [Option.some.injEq, Prod.mk.injEq] at h
          have hs1 := hshaped hfind
          exact .inr ⟨sig, sb, ni1, hfind, ⟨hs1.state, hs1.mapping, hs1.offsets⟩,
            hscan.cache List.length_replicate, hscan.flash, hsb, hat, h.2 ▸ hload⟩
        · exact absurd h (by simp [eNODEV])

lemma attach_spec {chip : Chip} (hsane : SaneFlash c chip.flash)
    (h : nmbmAttach c env chip = some (0, ni)) :
    Consistent c ni ∧ (ni.skipped = false → Allocated c ni.dataBlockCount ni) := by
  rcases attach_cases c env h with
    ⟨ni1, -, hs1, hnew⟩ | ⟨sig, sb, ni1, -, hs1, hlen, hflash, hsb, hat, hload⟩
  · obtain ⟨ni2, hmapped, hcreate⟩ := createNew_cases c env hs1 hnew
    exact createInfoTable_remapped c env hmapped hcreate
  · exact loadExisting_spec c env hs1 hlen hsb (hflash.symm ▸ hat) (hflash.symm ▸ hsane) hload

end Nmbm
