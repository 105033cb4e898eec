import Mt798x.Nmbm.Store

/-!
# Placing and updating the tables

The specification of the functions of `Nmbm/Table.lean`.  `Manages c lo hi ni ni'` extends `Touch`
by what these functions may change besides: the addresses of the two tables, the change counters
and the protection flag.  `Layout` is the order of the two tables, the mapping blocks and the
watermark in the management area.

Each function gets one lemma, of the form: it works on `[mgmt_start_ba, mapping_blocks_top_ba)`
only, it establishes `Layout`, and if it reports success then the image it was given is stored at
`main_table_ba` (`Placed`).
-/

namespace Nmbm

open Bytes Bmt

/-! ## The relation -/

/-- The number of blocks that are good according to the state table. -/
def Inst.goodCount (ni : Inst) : ℕ := TwoBit.count blockStGood ni.blockState

/-- Unless a find was lost, tables that count as unchanged hold the current block states. -/
def Inst.Accounted (ni : Inst) : Prop :=
  ni.lost = false → ni.changed = false → ni.unsaved = false

/-- The instance `ni` with everything the table management may change taken from `ni'`. -/
def Inst.managed (ni ni' : Inst) : Inst :=
  { ni with
    chip := ni'.chip
    infoTableCache := ni'.infoTableCache
    infoTable := ni'.infoTable
    blockState := ni'.blockState
    blockStateChanged := ni'.blockStateChanged
    blockMappingChanged := ni'.blockMappingChanged
    isProtected := ni'.isProtected
    mainTableBa := ni'.mainTableBa
    backupTableBa := ni'.backupTableBa
    mappingBlocksBa := ni'.mappingBlocksBa
    unsaved := ni'.unsaved
    lost := ni'.lost }

/-- From `ni` to `ni'` the tables in `[lo, hi)` were updated, perhaps several times. -/
structure Updates (c : Conf) (lo hi : ℕ) (ni ni' : Inst) : Prop where
  frame : ni' = ni.managed ni'
  works : Works c.toGeom true lo hi ni.chip ni'.chip
  length : ni'.blockState.length = ni.blockState.length
  cell : ∀ ba, nmbmGetBlockState ni' ba = nmbmGetBlockState ni ba ∨
    (Within lo hi ba ∧ nmbmGetBlockState ni ba = blockStGood ∧
      nmbmGetBlockState ni' ba = blockStBad)
  count_le : ni'.goodCount ≤ ni.goodCount
  /-- A change that was not there before is a newly found bad block. -/
  dirty : ni'.changed = true → ni.changed = true ∨ ni'.goodCount < ni.goodCount
  lost : ni.lost = true → ni'.lost = true
  accounted : ni.Accounted → ni'.Accounted
  offsets : ni'.infoTable.stateTableOff = ni.infoTable.stateTableOff ∧
    ni'.infoTable.mappingTableOff = ni.infoTable.mappingTableOff

/-- From `ni` to `ni'` the image in the cache was written to tables in `[lo, hi)`. -/
structure Manages (c : Conf) (lo hi : ℕ) (ni ni' : Inst) : Prop extends
    Updates c lo hi ni ni' where
  infoTableCache : ni'.infoTableCache = ni.infoTableCache
  saved : ni'.unsaved = false → ni'.blockState = ni.blockState ∧ ni.unsaved = false

namespace Updates

variable {c : Conf} {lo hi lo' hi' : ℕ} {ni ni' ni'' : Inst}

lemma trans (h : Updates c lo hi ni ni') (h' : Updates c lo hi ni' ni'') :
    Updates c lo hi ni ni'' where
  frame := by
    calc ni'' = ni'.managed ni'' := h'.frame
      _ = (ni.managed ni').managed ni'' := by rw [← h.frame]
      _ = ni.managed ni'' := rfl
  works := h.works.trans h'.works
  length := h'.length.trans h.length
  cell ba := by
    rcases h.cell ba with e | ⟨hw, hg, hb⟩
    · rw [← e]
      exact h'.cell ba
    · rcases h'.cell ba with e' | ⟨-, hg', -⟩
      · exact Or.inr ⟨hw, hg, e'.trans hb⟩
      · rw [hb] at hg'
        exact absurd hg' (by decide)
  count_le := h'.count_le.trans h.count_le
  dirty hc := by
    rcases h'.dirty hc with hc' | hlt
    · exact (h.dirty hc').imp_right fun hlt => h'.count_le.trans_lt hlt
    · exact Or.inr (hlt.trans_le h.count_le)
  lost hl := h'.lost (h.lost hl)
  accounted ha := h'.accounted (h.accounted ha)
  offsets := ⟨h'.offsets.1.trans h.offsets.1, h'.offsets.2.trans h.offsets.2⟩

lemma mono (h : Updates c lo hi ni ni') (hlo : lo' ≤ lo) (hhi : hi ≤ hi') :
    Updates c lo' hi' ni ni' :=
  { h with
    works := h.works.mono hlo hhi
    cell := fun ba => (h.cell ba).imp_right fun ⟨hw, hr⟩ => ⟨hw.mono hlo hhi, hr⟩ }

lemma refl (c : Conf) (lo hi : ℕ) (ni : Inst) : Updates c lo hi ni ni where
  frame := rfl
  works := Works.refl _ _ _ _ _
  length := rfl
  cell _ := Or.inl rfl
  count_le := le_rfl
  dirty := Or.inl
  lost := id
  accounted := id
  offsets := ⟨rfl, rfl⟩

lemma state_eq (h : Updates c lo hi ni ni') {ba : ℕ} (hba : ¬ Within lo hi ba) :
    nmbmGetBlockState ni' ba = nmbmGetBlockState ni ba := by
  rcases h.cell ba with e | ⟨hw, -⟩
  · exact e
  · exact absurd hw hba

lemma stored (h : Updates c lo hi ni ni') {ba e : ℕ} {data : List Byte}
    (hs : Stored c ni ba data e) (hdis : e ≤ lo ∨ hi ≤ ba) : Stored c ni' ba data e := by
  refine hs.congr (fun b h1 h2 => h.state_eq fun hw => ?_) h.works.flash hdis
  have := hw.1
  have := hw.2
  omega

lemma mgmtStartBa (h : Updates c lo hi ni ni') : ni'.mgmtStartBa = ni.mgmtStartBa :=
  (congrArg Inst.mgmtStartBa h.frame :)

lemma mappingBlocksTopBa (h : Updates c lo hi ni ni') :
    ni'.mappingBlocksTopBa = ni.mappingBlocksTopBa :=
  (congrArg Inst.mappingBlocksTopBa h.frame :)

end Updates

namespace Manages

variable {c : Conf} {lo hi lo' hi' : ℕ} {ni ni' ni'' : Inst}

lemma trans (h : Manages c lo hi ni ni') (h' : Manages c lo hi ni' ni'') :
    Manages c lo hi ni ni'' where
  toUpdates := h.toUpdates.trans h'.toUpdates
  infoTableCache := h'.infoTableCache.trans h.infoTableCache
  saved hs := by
    obtain ⟨e1, e2⟩ := h'.saved hs
    obtain ⟨e3, e4⟩ := h.saved e2
    exact ⟨e1.trans e3, e4⟩

lemma mono (h : Manages c lo hi ni ni') (hlo : lo' ≤ lo) (hhi : hi ≤ hi') :
    Manages c lo' hi' ni ni' :=
  ⟨h.toUpdates.mono hlo hhi, h.infoTableCache, h.saved⟩

lemma refl (c : Conf) (lo hi : ℕ) (ni : Inst) : Manages c lo hi ni ni :=
  ⟨Updates.refl c lo hi ni, rfl, fun h => ⟨rfl, h⟩⟩

lemma place (c : Conf) (lo hi : ℕ) (ni : Inst) (p : Bool) (main backup mb : ℕ) :
    Manages c lo hi ni { ni with
      isProtected := p, mainTableBa := main, backupTableBa := backup, mappingBlocksBa := mb } where
  toUpdates := { Updates.refl c lo hi ni with
    frame := rfl, dirty := Or.inl, accounted := id }
  infoTableCache := rfl
  saved h := ⟨rfl, h⟩

lemma markTablesClean (c : Conf) (lo hi : ℕ) (ni : Inst) :
    Manages c lo hi ni (nmbmMarkTablesClean ni) where
  toUpdates := { Updates.refl c lo hi ni with
    frame := rfl
    dirty := fun h => absurd h (by simp [Inst.changed, nmbmMarkTablesClean])
    lost := fun h => by simp [nmbmMarkTablesClean, h]
    accounted := fun _ hl _ => by
      simp only [nmbmMarkTablesClean, Bool.or_eq_false_iff] at hl
      exact hl.2 }
  infoTableCache := rfl
  saved h := ⟨rfl, h⟩

end Manages

namespace Touch

variable {c : Conf} {lo hi : ℕ} {ni ni' : Inst}

lemma mgmtStartBa (h : Touch c lo hi ni ni') : ni'.mgmtStartBa = ni.mgmtStartBa :=
  (congrArg Inst.mgmtStartBa h.frame :)

lemma mainTableBa (h : Touch c lo hi ni ni') : ni'.mainTableBa = ni.mainTableBa :=
  (congrArg Inst.mainTableBa h.frame :)

lemma backupTableBa (h : Touch c lo hi ni ni') : ni'.backupTableBa = ni.backupTableBa :=
  (congrArg Inst.backupTableBa h.frame :)

lemma mappingBlocksBa (h : Touch c lo hi ni ni') : ni'.mappingBlocksBa = ni.mappingBlocksBa :=
  (congrArg Inst.mappingBlocksBa h.frame :)

lemma mappingBlocksTopBa (h : Touch c lo hi ni ni') :
    ni'.mappingBlocksTopBa = ni.mappingBlocksTopBa :=
  (congrArg Inst.mappingBlocksTopBa h.frame :)

lemma infoTableCache (h : Touch c lo hi ni ni') : ni'.infoTableCache = ni.infoTableCache :=
  (congrArg Inst.infoTableCache h.frame :)

end Touch

variable {ni ni' : Inst} {r : Bool} {ba limit : ℕ}

lemma Touch.manages {c : Conf} {lo hi : ℕ} (h : Touch c lo hi ni ni') : Manages c lo hi ni ni' := by
  have hbmc : ni'.blockMappingChanged = ni.blockMappingChanged :=
    (congrArg Inst.blockMappingChanged h.frame :)
  have hlost : ni'.lost = ni.lost := (congrArg Inst.lost h.frame :)
  have hinfo : ni'.infoTable = ni.infoTable := (congrArg Inst.infoTable h.frame :)
  refine ⟨⟨?_, h.works, h.length, h.cell, h.count_le, fun hc => ?_, fun hl => hlost.trans hl,
    fun ha hl hc => ?_, by rw [hinfo]; exact ⟨rfl, rfl⟩⟩, h.infoTableCache, h.eq_of_saved⟩
  · calc ni' = ni.worn ni' := h.frame
      _ = ni.managed (ni.worn ni') := rfl
      _ = ni.managed ni' := by rw [← h.frame]
  · rcases h.count with ⟨-, e, -⟩ | ⟨hlt, -⟩
    · left
      rwa [Inst.changed, hbmc, e] at hc
    · exact Or.inr hlt
  · rcases h.count with ⟨-, e, e'⟩ | ⟨-, hlt, -⟩
    · rw [e']
      refine ha (hlost ▸ hl) ?_
      rwa [Inst.changed, hbmc, e] at hc
    · simp only [Inst.changed, Bool.or_eq_false_iff, bne_eq_false_iff_eq] at hc
      omega

/-! ## Where the tables lie -/

/-- The order of the tables, the mapping blocks and the watermark.  An address 0 stands for a
missing table. -/
structure Layout (ni : Inst) : Prop where
  mgmt_le : ni.mgmtStartBa ≤ ni.mappingBlocksBa
  top : ni.mappingBlocksBa ≤ ni.mappingBlocksTopBa
  main : ni.mainTableBa ≠ 0 → ni.mgmtStartBa ≤ ni.mainTableBa ∧ ni.mainTableBa < ni.mappingBlocksBa
  backup : ni.backupTableBa ≠ 0 → ni.mgmtStartBa ≤ ni.mainTableBa ∧
    ni.mainTableBa < ni.backupTableBa ∧ ni.backupTableBa < ni.mappingBlocksBa

/-- The image in the cache is stored at `ba`, in front of `mapping_blocks_ba`. -/
def Holds (c : Conf) (ni : Inst) (ba : ℕ) : Prop :=
  ∃ e, Stored c ni ba ni.infoTableCache e ∧ e ≤ ni.mappingBlocksBa

/-- The outcome of a placing function: what it worked on, where the tables are, and, on success,
that the main table holds the image and that a remaining change is a newly found bad block. -/
structure Placed (c : Conf) (r : Bool) (ni ni' : Inst) : Prop where
  manages : Manages c ni.mgmtStartBa ni.mappingBlocksTopBa ni ni'
  layout : Layout ni'
  holds : r = true → Holds c ni' ni'.mainTableBa
  settled : r = true → ni'.changed = true → ni'.goodCount < ni.goodCount

lemma Placed.after {c : Conf} {ni1 : Inst} (h : Placed c r ni1 ni')
    (hm : Manages c ni.mgmtStartBa ni.mappingBlocksTopBa ni ni1) : Placed c r ni ni' := by
  have h' := h.manages
  rw [hm.mgmtStartBa, hm.mappingBlocksTopBa] at h'
  exact ⟨hm.trans h', h.layout, h.holds, fun hr hc => (h.settled hr hc).trans_le hm.count_le⟩

lemma settled_of_clean {c : Conf} {lo hi : ℕ} {ni1 : Inst} (hle : ni1.goodCount ≤ ni.goodCount)
    (hclean : ni1.changed = false) (hm : Manages c lo hi ni1 ni') (hc : ni'.changed = true) :
    ni'.goodCount < ni.goodCount := by
  rcases hm.dirty hc with h | h
  · rw [hclean] at h
    exact absurd h (by simp)
  · exact h.trans_le hle

variable (c : Conf) (env : Env)

/-! ## Writing a table -/

lemma writeInfoTable_none (h : nmbmWriteInfoTable c env ni ba limit = (none, ni')) :
    Touch c ba limit ni ni' := by
  have ht := touch_writeInfoTable c env ni ba limit
  rwa [h] at ht

lemma writeInfoTable_some {s e : ℕ} (hne : ni.infoTableCache ≠ [])
    (h : nmbmWriteInfoTable c env ni ba limit = (some (s, e), ni')) :
    Touch c ba limit ni ni' ∧ ba ≤ s ∧ s < e ∧ e ≤ limit ∧ Stored c ni' s ni.infoTableCache e := by
  have ht := touch_writeInfoTable c env ni ba limit
  have hb := writeMgmtRange_bounds c env hne (congrArg Prod.fst h)
  rw [h] at ht
  exact ⟨ht, hb.1, hb.2.1, hb.2.2, (writeInfoTable_stored c env hne h).1⟩

/-- The downward attempts: they stay between the lowest start and the watermark. -/
lemma writeDownward_spec (lo : ℕ) {k writeBa : ℕ} {r : Option (ℕ × ℕ)}
    (hne : ni.infoTableCache ≠ []) (hk : lo + k ≤ writeBa + 1)
    (h : writeDownward c env k writeBa ni = (r, ni')) :
    Touch c lo ni.mappingBlocksTopBa ni ni' ∧ ∀ s e, r = some (s, e) →
      lo ≤ s ∧ s < e ∧ e ≤ ni.mappingBlocksTopBa ∧ Stored c ni' s ni.infoTableCache e := by
  induction k generalizing writeBa ni with
  | zero =>
    rw [writeDownward, Prod.mk.injEq] at h
    obtain ⟨rfl, rfl⟩ := h
    exact ⟨Touch.refl c _ _ ni, fun s e h => absurd h (by simp)⟩
  | succ k ih =>
    rw [writeDownward] at h
    split at h
    · rename_i r1 ni1 hw
      rw [Prod.mk.injEq] at h
      obtain ⟨rfl, rfl⟩ := h
      obtain ⟨ht, h1, h2, h3, h4⟩ := writeInfoTable_some c env hne hw
      refine ⟨ht.mono (by omega) le_rfl, fun s e he => ?_⟩
      rw [Option.some.injEq] at he
      subst he
      exact ⟨by omega, h2, h3, h4⟩
    · rename_i ni1 hw
      have ht : Touch c lo ni.mappingBlocksTopBa ni ni1 :=
        (writeInfoTable_none c env hw).mono (by omega) le_rfl
      obtain ⟨ht', hr⟩ := ih (by rwa [ht.infoTableCache]) (by omega) h
      rw [ht.mappingBlocksTopBa, ht.infoTableCache] at hr
      rw [ht.mappingBlocksTopBa] at ht'
      exact ⟨ht.trans ht', hr⟩

/-! ## Reserving blocks -/

lemma blockWalkAscLoop_ge {k count nba : ℕ} (h : nmbmBlockWalkAscLoop ni k ba count = some nba) :
    ba ≤ nba := by
  induction k generalizing ba count with
  | zero => exact absurd h (by simp [nmbmBlockWalkAscLoop])
  | succ k ih =>
    rw [nmbmBlockWalkAscLoop] at h
    split at h
    · split at h
      · exact (Option.some.inj h).le
      · exact (Nat.le_succ ba).trans (ih h)
    · exact (Nat.le_succ ba).trans (ih h)

lemma tryReserveLoop_ge {nblocks nba : ℕ} (h : nmbmTryReserveLoop c ni ba limit nblocks = some nba) :
    ba ≤ nba := by
  induction nblocks with
  | zero => exact blockWalkAscLoop_ge h
  | succ nblocks ih =>
    rw [nmbmTryReserveLoop] at h
    split at h
    · rename_i hw
      rw [Option.some.injEq] at h
      subst h
      exact blockWalkAscLoop_ge hw
    · exact ih h

lemma tryReserveBlocks_ge {nba : ℕ} (h : nmbmTryReserveBlocks c ni ba = some nba) : ba ≤ nba :=
  tryReserveLoop_ge c h

/-! ## Rebuilding -/

/-- `nmbm_rebuild_info_table`. -/
lemma rebuildInfoTable_spec (hne : ni.infoTableCache ≠ [])
    (hle : ni.mgmtStartBa ≤ ni.mappingBlocksTopBa) (h : nmbmRebuildInfoTable c env ni = (r, ni')) :
    Placed c r ni ni' ∧ (r = false → ni'.isProtected = true) := by
  rw [nmbmRebuildInfoTable] at h
  dsimp only at h
  have hp := Manages.place c ni.mgmtStartBa ni.mappingBlocksTopBa ni ni.isProtected 0 0
    ni.mappingBlocksTopBa
  split at h
  · rename_i ni1 hw
    rw [Prod.mk.injEq] at h
    obtain ⟨rfl, rfl⟩ := h
    have ht := writeInfoTable_none c env hw
    refine ⟨⟨(hp.trans ht.manages).trans (Manages.place c _ _ ni1 true _ _ _), ?_, ?_, ?_⟩,
      fun _ => rfl⟩
    · refine ⟨?_, ?_, fun hm => absurd ht.mainTableBa hm, fun hb => absurd ht.backupTableBa hb⟩
      · rw [ht.mgmtStartBa, ht.mappingBlocksBa]
        exact hle
      · rw [ht.mappingBlocksBa, ht.mappingBlocksTopBa]
    · exact fun h => absurd h (by simp)
    · exact fun h => absurd h (by simp)
  · rename_i mainStart mainEnd ni1 hw
    obtain ⟨ht, h1, h2, h3, hst⟩ := writeInfoTable_some c env (by exact hne) hw
    -- the state right after the main table was written
    set ni2 := nmbmMarkTablesClean
      { ni1 with mainTableBa := mainStart, mappingBlocksBa := mainEnd } with hni2
    have hm2 : Manages c ni.mgmtStartBa ni.mappingBlocksTopBa ni ni2 :=
      ((hp.trans ht.manages).trans (Manages.place c _ _ ni1 ni1.isProtected _ _ _)).trans
        (Manages.markTablesClean c _ _ _)
    have hmgmt : ni2.mgmtStartBa = ni.mgmtStartBa := hm2.mgmtStartBa
    have htop : ni2.mappingBlocksTopBa = ni.mappingBlocksTopBa := hm2.mappingBlocksTopBa
    have hcache : ni2.infoTableCache = ni.infoTableCache := hm2.infoTableCache
    have hclean : ni2.changed = false := by simp [hni2, Inst.changed, nmbmMarkTablesClean]
    have hmb : ni2.mappingBlocksBa = mainEnd := rfl
    have hmain : ni2.mainTableBa = mainStart := rfl
    have hbackup : ni2.backupTableBa = 0 := ht.backupTableBa
    have hst2 : Stored c ni2 mainStart ni.infoTableCache mainEnd :=
      hst.of_eq rfl rfl
    clear_value ni2
    -- whatever follows leaves the main table alone
    have hfin : ∀ {lo hi : ℕ} {ni3 : Inst}, Manages c lo hi ni2 ni3 → mainEnd ≤ lo →
        hi ≤ ni.mappingBlocksTopBa → ni3.mainTableBa = mainStart → mainEnd ≤ ni3.mappingBlocksBa →
        Layout ni3 → Placed c true ni ni3 := by
      intro lo hi ni3 hm hlo hhi hmain3 hmb3 hlay
      refine ⟨hm2.trans (hm.mono (by omega) hhi), hlay, fun _ => ⟨mainEnd, ?_, hmb3⟩,
        fun _ => settled_of_clean hm2.count_le hclean hm⟩
      rw [hmain3, hm.infoTableCache, hcache]
      exact hm.stored hst2 (Or.inl hlo)
    split at h
    · rw [Prod.mk.injEq] at h
      obtain ⟨rfl, rfl⟩ := h
      refine ⟨hfin (Manages.refl c mainEnd _ ni2) le_rfl le_rfl hmain hmb.ge ⟨?_, ?_, ?_, ?_⟩,
        fun h => absurd h (by simp)⟩
      · omega
      · omega
      · exact fun _ => by omega
      · exact fun hb => absurd hbackup hb
    · rename_i nextStart hres
      have hge := tryReserveBlocks_ge c hres
      split at h
      · rename_i ni3 hw3
        rw [Prod.mk.injEq] at h
        obtain ⟨rfl, rfl⟩ := h
        have ht3 := writeInfoTable_none c env hw3
        rw [htop] at ht3
        have hm3 := ht3.mainTableBa
        have hb3 := ht3.backupTableBa
        have hmb3 := ht3.mappingBlocksBa
        have htop3 := ht3.mappingBlocksTopBa
        have hmg3 := ht3.mgmtStartBa
        refine ⟨hfin ht3.manages hge le_rfl (hm3.trans hmain) (by omega) ⟨?_, ?_, ?_, ?_⟩,
          fun h => absurd h (by simp)⟩
        · omega
        · omega
        · exact fun _ => by omega
        · exact fun hb => absurd (hb3.trans hbackup) hb
      · rename_i tableStart tableEnd ni3 hw3
        rw [Prod.mk.injEq] at h
        obtain ⟨rfl, rfl⟩ := h
        obtain ⟨ht3, h4, h5, h6, -⟩ := writeInfoTable_some c env (by rwa [hcache]) hw3
        rw [htop] at ht3 h6
        have hte := touch_eraseRange c env
          { ni3 with backupTableBa := tableStart, mappingBlocksBa := tableEnd } mainEnd tableStart
        have hm4 := hte.mainTableBa
        have hb4 := hte.backupTableBa
        have hmb4 := hte.mappingBlocksBa
        have htop4 := hte.mappingBlocksTopBa
        have hmg4 := hte.mgmtStartBa
        dsimp only at hm4 hb4 hmb4 htop4 hmg4 ⊢
        have hm3 := ht3.mainTableBa
        have htop3 := ht3.mappingBlocksTopBa
        have hmg3 := ht3.mgmtStartBa
        have hman3 : Manages c mainEnd _ _ ni3 := ht3.manages.mono hge le_rfl
        refine ⟨hfin (hman3.trans
          ((Manages.place c _ _ ni3 _ _ _ _).trans (hte.manages.mono le_rfl (by omega))))
          le_rfl le_rfl (by omega) (by omega) ⟨?_, ?_, ?_, ?_⟩, fun h => absurd h (by simp)⟩
        · omega
        · omega
        · exact fun _ => by omega
        · exact fun _ => by omega

/-! ## Rescuing the main table -/

/-- `nmbm_rescue_main_info_table`, called when the backup table holds the image and the main table
could not be written. -/
lemma rescueMainInfoTable_spec (hne : ni.infoTableCache ≠ []) (hlay : Layout ni)
    (hb : ni.backupTableBa ≠ 0) (hholds : Holds c ni ni.backupTableBa)
    (h : nmbmRescueMainInfoTable c env ni = (r, ni')) :
    r = true ∧ Manages c ni.mgmtStartBa ni.mappingBlocksTopBa ni ni' ∧ Layout ni' ∧
      Holds c ni' ni'.mainTableBa := by
  obtain ⟨h1, h2, h3, h4⟩ := hlay
  obtain ⟨h5, h6, h7⟩ := h4 hb
  obtain ⟨e, hst, he⟩ := hholds
  have hse := hst.le
  -- the backup table becomes the only table
  have hkeep : ∀ {ni1 : Inst}, Touch c ni.mappingBlocksBa ni.mappingBlocksTopBa ni ni1 →
      Manages c ni.mgmtStartBa ni.mappingBlocksTopBa ni
          { ni1 with mainTableBa := ni1.backupTableBa, backupTableBa := 0 } ∧
        Layout { ni1 with mainTableBa := ni1.backupTableBa, backupTableBa := 0 } ∧
        Holds c { ni1 with mainTableBa := ni1.backupTableBa, backupTableBa := 0 }
          ni1.backupTableBa := by
    intro ni1 ht
    have hm := ht.mainTableBa
    have hb := ht.backupTableBa
    have hmb := ht.mappingBlocksBa
    have htop := ht.mappingBlocksTopBa
    have hmg := ht.mgmtStartBa
    refine ⟨(ht.manages.mono (by omega) le_rfl).trans (Manages.place c _ _ ni1 _ _ _ _),
      ⟨?_, ?_, fun _ => ?_, fun h => absurd rfl h⟩, e, ?_, ?_⟩
    · dsimp only
      omega
    · dsimp only
      omega
    · dsimp only
      omega
    · have hst1 := ht.manages.stored hst (Or.inl he)
      rw [← hb, ← ht.infoTableCache] at hst1
      exact hst1.of_eq rfl rfl
    · dsimp only
      omega
  rw [nmbmRescueMainInfoTable] at h
  split at h
  · rw [Prod.mk.injEq] at h
    obtain ⟨rfl, rfl⟩ := h
    exact ⟨rfl, hkeep (Touch.refl c _ _ ni)⟩
  · rename_i writeBa hres
    have hge := tryReserveBlocks_ge c hres
    split at h
    · rename_i ni1 hw
      rw [Prod.mk.injEq] at h
      obtain ⟨rfl, rfl⟩ := h
      obtain ⟨ht, -⟩ := writeDownward_spec c env ni.mappingBlocksBa hne (by omega) hw
      exact ⟨rfl, hkeep ht⟩
    · rename_i tmpStart tmpEnd ni1 hw
      obtain ⟨ht, hr⟩ := writeDownward_spec c env ni.mappingBlocksBa hne (by omega) hw
      obtain ⟨h8, h9, h10, hst1⟩ := hr _ _ rfl
      have htop1 := ht.mappingBlocksTopBa
      have hmg1 := ht.mgmtStartBa
      have hm1 : Manages c ni.mgmtStartBa ni.mappingBlocksTopBa ni
          { ni1 with mappingBlocksBa := tmpEnd } :=
        (ht.manages.mono (by omega) le_rfl).trans (Manages.place c _ _ ni1 _ _ _ _)
      dsimp only at h
      split at h
      · -- the temporary table becomes the main table
        rename_i ni2 hw2
        rw [Prod.mk.injEq] at h
        obtain ⟨rfl, rfl⟩ := h
        have ht2 := writeInfoTable_none c env hw2
        have hmb2 := ht2.mappingBlocksBa
        have htop2 := ht2.mappingBlocksTopBa
        have hmg2 := ht2.mgmtStartBa
        have hst2 : Stored c ni2 tmpStart ni.infoTableCache tmpEnd :=
          ht2.manages.stored (hst1.of_eq rfl rfl) (Or.inr le_rfl)
        have hm2 : Manages c ni.mgmtStartBa ni.mappingBlocksTopBa ni ni2 :=
          hm1.trans (ht2.manages.mono hmg1.ge (by omega))
        rw [← hm2.infoTableCache] at hst2
        dsimp only at hmb2 htop2 hmg2
        refine ⟨rfl, hm2.trans
          ((Manages.place c _ _ ni2 _ _ _ _).trans (Manages.markTablesClean c _ _ _)),
          ⟨?_, ?_, fun _ => ?_, fun h => absurd rfl h⟩, tmpEnd, ?_, ?_⟩
        · simp only [nmbmMarkTablesClean]
          omega
        · simp only [nmbmMarkTablesClean]
          omega
        · simp only [nmbmMarkTablesClean]
          omega
        · exact hst2.of_eq rfl rfl
        · simp only [nmbmMarkTablesClean]
          omega
      · rename_i mainStart mainEnd ni2 hw2
        obtain ⟨ht2, h11, h12, h13, hst2⟩ := writeInfoTable_some c env
          (by exact ht.infoTableCache ▸ hne) hw2
        have hmb2 := ht2.mappingBlocksBa
        have htop2 := ht2.mappingBlocksTopBa
        have hmg2 := ht2.mgmtStartBa
        dsimp only at hmb2 htop2 hmg2
        have hm2 : Manages c ni.mgmtStartBa ni.mappingBlocksTopBa ni ni2 :=
          hm1.trans (ht2.manages.mono hmg1.ge (by omega))
        rw [if_pos h13, Prod.mk.injEq] at h
        obtain ⟨rfl, rfl⟩ := h
        refine ⟨rfl, hm2.trans ((Manages.place c _ _ ni2 _ _ _ _).trans
          ((Manages.markTablesClean c _ _ _).trans (Manages.place c _ _ _ _ _ _ _))),
          ⟨?_, ?_, fun _ => ?_, fun _ => ?_⟩, mainEnd, ?_, ?_⟩
        · simp only [nmbmMarkTablesClean]
          omega
        · simp only [nmbmMarkTablesClean]
          omega
        · simp only [nmbmMarkTablesClean]
          omega
        · simp only [nmbmMarkTablesClean]
          omega
        · have hcache := ht2.infoTableCache
          dsimp only at hcache hst2
          rw [← hcache] at hst2
          exact hst2.of_eq rfl rfl
        · simp only [nmbmMarkTablesClean]
          omega

/-! ## Updating -/

/-- The part of `nmbm_update_info_table_once` from `write_main_table` on, called with the tables
marked clean when there is a backup table, which then holds the image. -/
lemma updateWriteMainTable_spec (hne : ni.infoTableCache ≠ []) (hlay : Layout ni)
    (hb : ni.backupTableBa ≠ 0 →
      Holds c ni ni.backupTableBa ∧ ni.changed = false ∧ limit = ni.backupTableBa)
    (hb0 : ni.backupTableBa = 0 → limit = ni.mappingBlocksTopBa)
    (h : updateWriteMainTable c env ni limit = (r, ni')) :
    Placed c r ni ni' ∧ (r = false → ni'.isProtected = true) := by
  have hlay' := hlay
  obtain ⟨h1, h2, h3, h4⟩ := hlay'
  rw [updateWriteMainTable] at h
  split at h
  · exact rebuildInfoTable_spec c env hne (by omega) h
  · rename_i hmain
    obtain ⟨h5, h6⟩ := h3 hmain
    have hlim : ni.mainTableBa < limit ∧ limit ≤ ni.mappingBlocksTopBa := by
      by_cases hb0' : ni.backupTableBa = 0
      · have := hb0 hb0'
        omega
      · have := (hb hb0').2.2
        have := h4 hb0'
        omega
    split at h
    · rename_i ni1 hw
      have ht := writeInfoTable_none c env hw
      have hm1 : Manages c ni.mgmtStartBa ni.mappingBlocksTopBa ni ni1 :=
        ht.manages.mono h5 hlim.2
      have e1 := ht.mainTableBa
      have e2 := ht.backupTableBa
      have e3 := ht.mappingBlocksBa
      have e4 := ht.mappingBlocksTopBa
      have e5 := ht.mgmtStartBa
      have hne1 : ni1.infoTableCache ≠ [] := by rwa [ht.infoTableCache]
      split at h
      · obtain ⟨hp, hf⟩ := rebuildInfoTable_spec c env hne1 (by omega) h
        exact ⟨hp.after hm1, hf⟩
      · rename_i hbk
        obtain ⟨⟨e, hst, he⟩, hclean, hlimit⟩ := hb (by omega)
        have hholds : Holds c ni1 ni1.backupTableBa := by
          refine ⟨e, ?_, by omega⟩
          rw [e2, ht.infoTableCache]
          exact ht.manages.stored hst (Or.inr (by omega))
        have hlay1 : Layout ni1 :=
          ⟨by omega, by omega, fun _ => by omega, fun _ => by have := h4 (by omega); omega⟩
        obtain ⟨rfl, hm2, hlay2, hh2⟩ := rescueMainInfoTable_spec c env hne1 hlay1 hbk hholds h
        rw [e5, e4] at hm2
        refine ⟨⟨hm1.trans hm2, hlay2, fun _ => hh2, fun _ hc => ?_⟩, fun h => absurd h (by simp)⟩
        exact settled_of_clean le_rfl hclean (hm1.trans hm2) hc
    · rename_i tableStart tableEnd ni1 hw
      obtain ⟨ht, h7, h8, h9, hst⟩ := writeInfoTable_some c env hne hw
      have e2 := ht.backupTableBa
      have e3 := ht.mappingBlocksBa
      have e4 := ht.mappingBlocksTopBa
      have e5 := ht.mgmtStartBa
      rw [Prod.mk.injEq] at h
      obtain ⟨rfl, rfl⟩ := h
      have hm1 : Manages c ni.mgmtStartBa ni.mappingBlocksTopBa ni ni1 :=
        ht.manages.mono h5 hlim.2
      have hst1 := hst
      rw [← hm1.infoTableCache] at hst1
      refine ⟨⟨hm1.trans ((Manages.place c _ _ ni1 _ _ _ _).trans (Manages.markTablesClean c _ _ _)),
        ⟨?_, ?_, fun _ => ?_, fun hb' => ?_⟩, fun _ => ⟨tableEnd, hst1.of_eq rfl rfl, ?_⟩,
        fun _ hc => absurd hc (by simp [Inst.changed, nmbmMarkTablesClean])⟩,
        fun h => absurd h (by simp)⟩
      · simp only [nmbmMarkTablesClean]
        split <;> omega
      · simp only [nmbmMarkTablesClean]
        split <;> omega
      · simp only [nmbmMarkTablesClean]
        by_cases hb0' : ni1.backupTableBa = 0
        · rw [if_pos hb0']
          omega
        · have := hb (by omega)
          have := h4 (by omega)
          rw [if_neg hb0']
          omega
      · simp only [nmbmMarkTablesClean] at hb' ⊢
        have := hb (by omega)
        have := h4 (by omega)
        rw [if_neg hb']
        omega
      · simp only [nmbmMarkTablesClean]
        by_cases hb0' : ni1.backupTableBa = 0
        · rw [if_pos hb0']
        · have := hb (by omega)
          have := h4 (by omega)
          rw [if_neg hb0']
          omega

lemma splice_ne_nil {buf chunk : List Byte} {off : ℕ} (h : chunk ≠ []) :
    splice buf off chunk ≠ [] := by
  simp [splice, h]

lemma generatedImage_ne_nil (ni : Inst) : generatedImage c ni ≠ [] :=
  splice_ne_nil (by simp [le32])

lemma updates_generateInfoTableCache (lo hi : ℕ) (ni : Inst) :
    Updates c lo hi ni (nmbmGenerateInfoTableCache c ni).2 :=
  { Updates.refl c lo hi ni with
    frame := rfl
    dirty := Or.inl
    lost := id
    accounted := fun _ _ _ => rfl
    offsets := ⟨rfl, rfl⟩ }

/-- The cache is an image of the tables in memory, up to the header. -/
def Imaged (ni : Inst) : Prop :=
  ∃ ni0 : Inst, ni.infoTableCache = generatedImage c ni0 ∧ ni0.blockState = ni.blockState ∧
    ni0.blockMapping = ni.blockMapping ∧
    ni0.infoTable.stateTableOff = ni.infoTable.stateTableOff ∧
    ni0.infoTable.mappingTableOff = ni.infoTable.mappingTableOff

/-- The main table holds the image in the cache, and unless a block turned bad since, this is the
image of the tables in memory. -/
def Fresh (ni : Inst) : Prop :=
  Holds c ni ni.mainTableBa ∧ (ni.unsaved = false → Imaged c ni)

/-- The outcome of an update. -/
structure Refreshed (r : Bool) (ni ni' : Inst) : Prop where
  updates : Updates c ni.mgmtStartBa ni.mappingBlocksTopBa ni ni'
  layout : Layout ni'
  refused : r = false → ni'.isProtected = true

variable {c}

lemma Placed.refreshed (h : Placed c r (nmbmGenerateInfoTableCache c ni).2 ni')
    (hr : r = false → ni'.isProtected = true) :
    Refreshed c r ni ni' ∧ (r = true → Fresh c ni') ∧
      (r = true → ni'.changed = true → ni'.goodCount < ni.goodCount) := by
  refine ⟨⟨(updates_generateInfoTableCache c _ _ ni).trans h.manages.toUpdates, h.layout, hr⟩,
    fun hr => ⟨h.holds hr, fun hu => ?_⟩, h.settled⟩
  obtain ⟨e1, -⟩ := h.manages.saved hu
  have hmap : ni'.blockMapping = ni.blockMapping :=
    (congrArg Inst.blockMapping h.manages.frame :)
  exact ⟨ni, h.manages.infoTableCache, e1.symm, hmap.symm, h.manages.offsets.1.symm,
    h.manages.offsets.2.symm⟩

variable (c)

/-- `nmbm_update_info_table_once`, when there is something to do. -/
lemma updateInfoTableOnce_spec {force : Bool} (hlay : Layout ni)
    (hdo : ni.changed = true ∨ force = true) (h : nmbmUpdateInfoTableOnce c env ni force = (r, ni'))
    :
    Refreshed c r ni ni' ∧ (r = true → Fresh c ni') ∧
      (r = true → ni'.changed = true → ni'.goodCount < ni.goodCount) := by
  rw [nmbmUpdateInfoTableOnce] at h
  dsimp only at h
  have hne : (nmbmGenerateInfoTableCache c ni).2.infoTableCache ≠ [] := generatedImage_ne_nil c ni
  set gen := (nmbmGenerateInfoTableCache c ni).2 with hgen
  have hlayg : Layout gen := ⟨hlay.mgmt_le, hlay.top, hlay.main, hlay.backup⟩
  have hgo : (!(nmbmGenerateInfoTableCache c ni).1 && !force) = false := by
    rcases hdo with hc | hf
    · have : (nmbmGenerateInfoTableCache c ni).1 = true := hc
      rw [this]
      rfl
    · rw [hf]
      simp
  rw [hgo, if_neg (by simp)] at h
  have hlay' := hlayg
  obtain ⟨h1, h2, h3, h4⟩ := hlay'
  split at h
  · rename_i hb0
    obtain ⟨hp, hf⟩ := updateWriteMainTable_spec c env hne hlayg (fun hb => absurd hb0 hb)
      (fun _ => rfl) h
    exact hp.refreshed hf
  · rename_i hb
    obtain ⟨h5, h6, h7⟩ := h4 hb
    split at h
    · rename_i ni1 hw
      have ht := writeInfoTable_none c env hw
      have e1 := ht.mainTableBa
      have e2 := ht.backupTableBa
      have e4 := ht.mappingBlocksTopBa
      have e5 := ht.mgmtStartBa
      have hm1 : Manages c gen.mgmtStartBa gen.mappingBlocksTopBa gen
          { ni1 with mappingBlocksBa := ni1.backupTableBa, backupTableBa := 0 } :=
        (ht.manages.mono (by omega) le_rfl).trans (Manages.place c _ _ ni1 _ _ _ _)
      obtain ⟨hp, hf⟩ := updateWriteMainTable_spec c env (by rw [hm1.infoTableCache]; exact hne)
        ⟨by dsimp only; omega, by dsimp only; omega, fun _ => by dsimp only; omega,
          fun h => absurd rfl h⟩
        (fun hb => absurd rfl hb) (fun _ => rfl) h
      exact (hp.after hm1).refreshed hf
    · rename_i tableStart tableEnd ni1 hw
      obtain ⟨ht, h8, h9, h10, hst⟩ := writeInfoTable_some c env hne hw
      have e1 := ht.mainTableBa
      have e4 := ht.mappingBlocksTopBa
      have e5 := ht.mgmtStartBa
      have hm1 : Manages c gen.mgmtStartBa gen.mappingBlocksTopBa gen (nmbmMarkTablesClean
          { ni1 with backupTableBa := tableStart, mappingBlocksBa := tableEnd }) :=
        ((ht.manages.mono (by omega) le_rfl).trans (Manages.place c _ _ ni1 _ _ _ _)).trans
          (Manages.markTablesClean c _ _ _)
      have hst1 := hst
      rw [← ht.infoTableCache] at hst1
      have hholds : Holds c (nmbmMarkTablesClean
          { ni1 with backupTableBa := tableStart, mappingBlocksBa := tableEnd }) tableStart :=
        ⟨tableEnd, hst1.of_eq rfl rfl, le_rfl⟩
      obtain ⟨hp, hf⟩ := updateWriteMainTable_spec c env (by rw [hm1.infoTableCache]; exact hne)
        ⟨by simp only [nmbmMarkTablesClean]; omega, by simp only [nmbmMarkTablesClean]; omega,
          fun _ => by simp only [nmbmMarkTablesClean]; omega,
          fun _ => by simp only [nmbmMarkTablesClean]; omega⟩
        (fun _ => ⟨hholds, by simp [Inst.changed, nmbmMarkTablesClean], rfl⟩)
        (fun hb0 => by simp only [nmbmMarkTablesClean] at hb0; omega) h
      exact (hp.after hm1).refreshed hf

/-! ## The update loop -/

/-- Every repetition of the loop needs a newly found bad block, so that fuel above the number of
good blocks is never used up, and the loop ends with clean tables or an error. -/
lemma updateInfoTableLoop_spec {fuel : ℕ} (hlay : Layout ni)
    (hfuel : ni.changed = true → ni.goodCount < fuel)
    (h : updateInfoTableLoop c env fuel ni = (r, ni')) :
    Refreshed c r ni ni' ∧ (r = true → ni'.changed = false) ∧
      (r = true → ni' = ni ∨ Fresh c ni') := by
  induction fuel generalizing ni with
  | zero =>
    rw [updateInfoTableLoop, Prod.mk.injEq] at h
    obtain ⟨rfl, rfl⟩ := h
    refine ⟨⟨Updates.refl c _ _ ni, hlay, fun h => absurd h (by simp)⟩, fun _ => ?_,
      fun _ => Or.inl rfl⟩
    by_contra hc
    exact absurd (hfuel (by simpa using hc)) (Nat.not_lt_zero _)
  | succ fuel ih =>
    rw [updateInfoTableLoop] at h
    split at h
    · rename_i hc
      split at h
      · rename_i ni1 honce
        obtain ⟨hr, -⟩ := updateInfoTableOnce_spec c env hlay (Or.inl hc) honce
        rw [Prod.mk.injEq] at h
        obtain ⟨rfl, rfl⟩ := h
        exact ⟨hr, fun h => absurd h (by simp), fun h => absurd h (by simp)⟩
      · rename_i ni1 honce
        obtain ⟨hr, hfr, hlt⟩ := updateInfoTableOnce_spec c env hlay (Or.inl hc) honce
        have hfuel1 : ni1.changed = true → ni1.goodCount < fuel := fun hc1 => by
          have := hlt rfl hc1
          have := hfuel hc
          omega
        obtain ⟨hr', hclean, hfr'⟩ := ih hr.layout hfuel1 h
        have hu := hr'.updates
        rw [hr.updates.mgmtStartBa, hr.updates.mappingBlocksTopBa] at hu
        refine ⟨⟨hr.updates.trans hu, hr'.layout, hr'.refused⟩, hclean, fun h => Or.inr ?_⟩
        rcases hfr' h with rfl | hf
        · exact hfr rfl
        · exact hf
    · rename_i hc
      rw [Prod.mk.injEq] at h
      obtain ⟨rfl, rfl⟩ := h
      exact ⟨⟨Updates.refl c _ _ ni, hlay, fun h => absurd h (by simp)⟩,
        fun _ => by simpa using hc, fun _ => Or.inl rfl⟩

/-- `nmbm_update_info_table`: unless the device is protected, success means that the tables count
as unchanged, and that they were written if they did not before. -/
lemma updateInfoTable_spec (hlay : Layout ni) (h : nmbmUpdateInfoTable c env ni = (r, ni')) :
    Refreshed c r ni ni' ∧ (r = true → ni.isProtected = false → ni'.changed = false) ∧
      (r = true → ni' = ni ∨ Fresh c ni') := by
  rw [nmbmUpdateInfoTable] at h
  split at h
  · rename_i hp
    rw [Prod.mk.injEq] at h
    obtain ⟨rfl, rfl⟩ := h
    exact ⟨⟨Updates.refl c _ _ ni, hlay, fun h => absurd h (by simp)⟩,
      fun _ h => absurd hp (by simp [h]), fun _ => Or.inl rfl⟩
  · obtain ⟨h1, h2, h3⟩ := updateInfoTableLoop_spec c env hlay
      (fun _ => by rw [Inst.goodCount]; omega) h
    exact ⟨h1, fun hr _ => h2 hr, h3⟩

end Nmbm
