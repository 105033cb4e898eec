import Mt798x.Nmbm.Run
import Mt798x.Nmbm.Unmap

/-!
# The update loop ends

The loop of `nmbm_update_info_table` goes on as long as a block state or the mapping has changed
since the tables were marked clean.  Several ways through `nmbm_update_info_table_once` report
success without marking them clean after the last write.  What makes the loop end is that such a
write has retired a good block of the management area.

`Above` is all that is needed of the state for that: the tables and the mapping blocks lie in the
management area.  Unlike `Layout` it holds whatever is found on the flash.
-/

namespace Nmbm

open Bytes Bmt

/-! ## The measure -/

/-- The number of blocks from `mgmt_start_ba` on that are good according to the state table. -/
def Inst.mgmtGood (ni : Inst) : ℕ :=
  (List.range (16 * ni.blockState.length)).countP fun ba =>
    decide (ni.mgmtStartBa ≤ ba) && (nmbmGetBlockState ni ba == blockStGood)

/-- A predicate that is counted less often on the whole, and changes on a part only, is counted
less often on that part. -/
lemma countP_part_lt {l : List ℕ} {p p' q : ℕ → Bool} (hlt : l.countP p' < l.countP p)
    (hpart : ∀ x, p' x = p x ∨ q x = true ∧ p x = true) :
    l.countP (fun x => q x && p' x) < l.countP fun x => q x && p x := by
  obtain ⟨a, ha, hpa, hpa'⟩ : ∃ a ∈ l, p a = true ∧ p' a = false := by
    by_contra hno
    refine absurd hlt (not_lt.mpr (List.countP_mono_left fun x hx hpx => ?_))
    by_contra hpx'
    exact hno ⟨x, hx, hpx, by simpa using hpx'⟩
  have hqa : q a = true := by
    rcases hpart a with h | h
    · rw [hpa, hpa'] at h
      exact absurd h (by simp)
    · exact h.1
  refine TwoBit.countP_lt_of_imp (fun x _ hx => ?_) ha (by simp [hqa, hpa]) (by simp [hpa'])
  rw [Bool.and_eq_true] at hx ⊢
  rcases hpart x with h | h
  · exact ⟨hx.1, h ▸ hx.2⟩
  · exact h

variable {ni ni' : Inst} {r : Bool}

lemma Updates.mgmtGood_lt {c : Conf} {lo hi : ℕ} (h : Updates c lo hi ni ni')
    (hlo : ni.mgmtStartBa ≤ lo) (hlt : ni'.goodCount < ni.goodCount) :
    ni'.mgmtGood < ni.mgmtGood := by
  rw [Inst.goodCount, Inst.goodCount, TwoBit.count, TwoBit.count, h.length] at hlt
  rw [Inst.mgmtGood, Inst.mgmtGood, h.length, h.mgmtStartBa]
  refine countP_part_lt hlt fun ba => ?_
  rcases h.cell ba with e | ⟨hw, hg, -⟩
  · exact Or.inl (congrArg (· == blockStGood) e)
  · right
    have := hw.1
    exact ⟨decide_eq_true (by omega), by simpa using hg⟩

/-! ## The tables lie in the management area -/

/-- The tables that exist and the mapping blocks lie in the management area. -/
structure Above (ni : Inst) : Prop where
  mapping : ni.mgmtStartBa ≤ ni.mappingBlocksBa
  main : ni.mainTableBa ≠ 0 → ni.mgmtStartBa ≤ ni.mainTableBa
  backup : ni.backupTableBa ≠ 0 → ni.mgmtStartBa ≤ ni.backupTableBa

lemma Layout.above (h : Layout ni) : Above ni :=
  ⟨h.mgmt_le, fun hm => (h.main hm).1, fun hb => by have := h.backup hb; omega⟩

/-- The outcome of a placing function as far as the update loop depends on it. -/
structure Retires (c : Conf) (r : Bool) (ni ni' : Inst) : Prop where
  updates : Updates c ni.mgmtStartBa ni.mappingBlocksTopBa ni ni'
  above : r = true → Above ni'
  refused : r = false → ni'.isProtected = true
  settled : r = true → ni'.changed = true → ni'.goodCount < ni.goodCount

lemma Retires.after {c : Conf} {ni1 : Inst} (h : Retires c r ni1 ni')
    (hu : Updates c ni.mgmtStartBa ni.mappingBlocksTopBa ni ni1) : Retires c r ni ni' := by
  have h' := h.updates
  rw [hu.mgmtStartBa, hu.mappingBlocksTopBa] at h'
  exact ⟨hu.trans h', h.above, h.refused,
    fun hr hc => (h.settled hr hc).trans_le hu.count_le⟩

variable (c : Conf) (env : Env)

lemma rebuildInfoTable_retires (hne : ni.infoTableCache ≠ [])
    (h : nmbmRebuildInfoTable c env ni = (r, ni')) : Retires c r ni ni' := by
  by_cases hle : ni.mgmtStartBa ≤ ni.mappingBlocksTopBa
  · obtain ⟨hp, hf⟩ := rebuildInfoTable_spec c env hne hle h
    exact ⟨hp.manages.toUpdates, fun _ => hp.layout.above, hf, hp.settled⟩
  · -- there is no room for the main table
    rw [nmbmRebuildInfoTable] at h
    dsimp only at h
    split at h
    · rename_i ni1 hw
      rw [Prod.mk.injEq] at h
      obtain ⟨rfl, rfl⟩ := h
      have ht := writeInfoTable_none c env hw
      have hm := (Manages.place c ni.mgmtStartBa ni.mappingBlocksTopBa ni ni.isProtected 0 0
        ni.mappingBlocksTopBa).trans ht.manages
      exact ⟨(hm.trans (Manages.place c _ _ ni1 true _ _ _)).toUpdates,
        fun h => absurd h (by simp), fun _ => rfl, fun h => absurd h (by simp)⟩
    · rename_i mainStart mainEnd ni1 hw
      obtain ⟨-, h1, h2, h3, -⟩ := writeInfoTable_some c env (by exact hne) hw
      omega

/-- `nmbm_rescue_main_info_table`. -/
lemma rescueMainInfoTable_above (hne : ni.infoTableCache ≠ []) (ha : Above ni)
    (h : nmbmRescueMainInfoTable c env ni = (r, ni')) :
    r = true ∧ Manages c ni.mgmtStartBa ni.mappingBlocksTopBa ni ni' ∧ Above ni' := by
  obtain ⟨hmb, -, hbk⟩ := ha
  -- the backup table becomes the only table
  have hkeep : ∀ {ni1 : Inst}, Touch c ni.mappingBlocksBa ni.mappingBlocksTopBa ni ni1 →
      Manages c ni.mgmtStartBa ni.mappingBlocksTopBa ni
          { ni1 with mainTableBa := ni1.backupTableBa, backupTableBa := 0 } ∧
        Above { ni1 with mainTableBa := ni1.backupTableBa, backupTableBa := 0 } := by
    intro ni1 ht
    refine ⟨(ht.manages.mono hmb le_rfl).trans (Manages.place c _ _ ni1 _ _ _ _), ?_, ?_,
      fun h => absurd rfl h⟩
    · dsimp only
      rw [ht.mgmtStartBa, ht.mappingBlocksBa]
      exact hmb
    · dsimp only
      rw [ht.mgmtStartBa, ht.backupTableBa]
      exact hbk
  rw [nmbmRescueMainInfoTable] at h
  split at h
  · rw [Prod.mk.injEq] at h
    obtain ⟨rfl, rfl⟩ := h
    exact ⟨rfl, hkeep (Touch.refl c _ _ ni)⟩
  · rename_i writeBa hres
    have hge := tryReserveBlocks_ge c hres
    split at h
    · rename_i ni1 hw
      rw [Prod.mk.injEq] at h
      obtain ⟨rfl, rfl⟩ := h
      obtain ⟨ht, -⟩ := writeDownward_spec c env ni.mappingBlocksBa hne (by omega) hw
      exact ⟨rfl, hkeep ht⟩
    · rename_i tmpStart tmpEnd ni1 hw
      obtain ⟨ht, hr⟩ := writeDownward_spec c env ni.mappingBlocksBa hne (by omega) hw
      obtain ⟨h1, h2, h3, -⟩ := hr _ _ rfl
      have e1 := ht.mgmtStartBa
      have e2 := ht.mappingBlocksTopBa
      have hm1 : Manages c ni.mgmtStartBa ni.mappingBlocksTopBa ni
          { ni1 with mappingBlocksBa := tmpEnd } :=
        (ht.manages.mono hmb le_rfl).trans (Manages.place c _ _ ni1 _ _ _ _)
      dsimp only at h
      split at h
      · -- the temporary table becomes the main table
        rename_i ni2 hw2
        rw [Prod.mk.injEq] at h
        obtain ⟨rfl, rfl⟩ := h
        have ht2 := writeInfoTable_none c env hw2
        have f1 := ht2.mgmtStartBa
        have f2 := ht2.mappingBlocksBa
        dsimp only at f1 f2
        refine ⟨rfl, hm1.trans ((ht2.manages.mono e1.ge (by omega)).trans
          ((Manages.place c _ _ ni2 _ _ _ _).trans (Manages.markTablesClean c _ _ _))), ?_, ?_, ?_⟩
        all_goals simp only [nmbmMarkTablesClean]
        · omega
        · omega
        · exact fun h => absurd rfl h
      · rename_i mainStart mainEnd ni2 hw2
        obtain ⟨ht2, h4, h5, h6, -⟩ := writeInfoTable_some c env
          (by exact ht.infoTableCache ▸ hne) hw2
        have f1 := ht2.mgmtStartBa
        have f2 := ht2.mappingBlocksBa
        dsimp only at f1 f2 h4
        -- the two tables are apart, because the main one was written in front of the other
        rw [if_pos h6, Prod.mk.injEq] at h
        obtain ⟨rfl, rfl⟩ := h
        refine ⟨rfl, hm1.trans ((ht2.manages.mono e1.ge (by omega)).trans
          ((Manages.place c _ _ ni2 _ _ _ _).trans ((Manages.markTablesClean c _ _ _).trans
          (Manages.place c _ _ _ _ _ _ _)))), ?_, ?_, ?_⟩
        all_goals simp only [nmbmMarkTablesClean]
        all_goals omega

/-- The part of `nmbm_update_info_table_once` from `write_main_table` on, called with the tables
marked clean when there is a backup table. -/
lemma updateWriteMainTable_retires {limit : ℕ} (hne : ni.infoTableCache ≠ []) (ha : Above ni)
    (hclean : ni.backupTableBa ≠ 0 → ni.changed = false) (hlimit : limit ≤ ni.mappingBlocksTopBa)
    (h : updateWriteMainTable c env ni limit = (r, ni')) : Retires c r ni ni' := by
  rw [updateWriteMainTable] at h
  split at h
  · exact rebuildInfoTable_retires c env hne h
  · rename_i hmain
    have hm := ha.main hmain
    split at h
    · rename_i ni1 hw
      have ht := writeInfoTable_none c env hw
      have e1 := ht.mainTableBa
      have e2 := ht.backupTableBa
      have e3 := ht.mappingBlocksBa
      have e4 := ht.mappingBlocksTopBa
      have e5 := ht.mgmtStartBa
      have hm1 : Manages c ni.mgmtStartBa ni.mappingBlocksTopBa ni ni1 := ht.manages.mono hm hlimit
      have hne1 : ni1.infoTableCache ≠ [] := by rwa [ht.infoTableCache]
      split at h
      · exact (rebuildInfoTable_retires c env hne1 h).after hm1.toUpdates
      · rename_i hbk
        have ha1 : Above ni1 := by
          refine ⟨?_, fun _ => ?_, fun hb => ?_⟩
          · rw [e5, e3]
            exact ha.mapping
          · rw [e5, e1]
            exact hm
          · rw [e5, e2]
            exact ha.backup (e2 ▸ hb)
        obtain ⟨rfl, hm2, ha2⟩ := rescueMainInfoTable_above c env hne1 ha1 h
        rw [e5, e4] at hm2
        have hc : ni.changed = false := hclean (e2 ▸ hbk)
        exact ⟨(hm1.trans hm2).toUpdates, fun _ => ha2, fun h => absurd h (by simp),
          fun _ => settled_of_clean le_rfl hc (hm1.trans hm2)⟩
    · rename_i tableStart tableEnd ni1 hw
      obtain ⟨ht, h1, h2, h3, -⟩ := writeInfoTable_some c env hne hw
      have e2 := ht.backupTableBa
      have e3 := ht.mappingBlocksBa
      have e5 := ht.mgmtStartBa
      rw [Prod.mk.injEq] at h
      obtain ⟨rfl, rfl⟩ := h
      have hm1 : Manages c ni.mgmtStartBa ni.mappingBlocksTopBa ni ni1 := ht.manages.mono hm hlimit
      refine ⟨(hm1.trans ((Manages.place c _ _ ni1 _ _ _ _).trans
        (Manages.markTablesClean c _ _ _))).toUpdates, fun _ => ⟨?_, fun _ => ?_, fun hb => ?_⟩,
        fun h => absurd h (by simp),
        fun _ hc => absurd hc (by simp [Inst.changed, nmbmMarkTablesClean])⟩
      all_goals simp only [nmbmMarkTablesClean] at *
      · have := ha.mapping
        split <;> omega
      · omega
      · rw [e5, e2]
        exact ha.backup (e2 ▸ hb)

/-- `nmbm_update_info_table_once`, when something has changed. -/
lemma updateInfoTableOnce_retires (ha : Above ni) (hc : ni.changed = true)
    (h : nmbmUpdateInfoTableOnce c env ni false = (r, ni')) : Retires c r ni ni' := by
  have hgen := updates_generateInfoTableCache c ni.mgmtStartBa ni.mappingBlocksTopBa ni
  have hne : (nmbmGenerateInfoTableCache c ni).2.infoTableCache ≠ [] := generatedImage_ne_nil c ni
  have hgo : (nmbmGenerateInfoTableCache c ni).1 = true := hc
  rw [nmbmUpdateInfoTableOnce] at h
  dsimp only at h
  rw [hgo, if_neg (by simp)] at h
  set gen := (nmbmGenerateInfoTableCache c ni).2 with hgendef
  have hag : Above gen := ⟨ha.mapping, ha.main, ha.backup⟩
  refine Retires.after ?_ hgen
  split at h
  · rename_i hb0
    exact updateWriteMainTable_retires c env hne hag (fun hb => absurd hb0 hb) le_rfl h
  · rename_i hb
    have hbk := hag.backup hb
    split at h
    · -- the backup table is given up
      rename_i ni1 hw
      have ht := writeInfoTable_none c env hw
      have e1 := ht.mainTableBa
      have e2 := ht.backupTableBa
      have e5 := ht.mgmtStartBa
      have hm1 : Manages c gen.mgmtStartBa gen.mappingBlocksTopBa gen
          { ni1 with mappingBlocksBa := ni1.backupTableBa, backupTableBa := 0 } :=
        (ht.manages.mono hbk le_rfl).trans (Manages.place c _ _ ni1 _ _ _ _)
      refine (updateWriteMainTable_retires c env (by rw [hm1.infoTableCache]; exact hne)
        ⟨?_, fun hm => ?_, fun h => absurd rfl h⟩ (fun h => absurd rfl h) le_rfl h).after
        hm1.toUpdates
      · dsimp only
        omega
      · dsimp only at hm ⊢
        rw [e5, e1]
        exact hag.main (e1 ▸ hm)
    · rename_i tableStart tableEnd ni1 hw
      obtain ⟨ht, h1, h2, h3, -⟩ := writeInfoTable_some c env hne hw
      have e1 := ht.mainTableBa
      have e4 := ht.mappingBlocksTopBa
      have e5 := ht.mgmtStartBa
      have hm1 : Manages c gen.mgmtStartBa gen.mappingBlocksTopBa gen (nmbmMarkTablesClean
          { ni1 with backupTableBa := tableStart, mappingBlocksBa := tableEnd }) :=
        ((ht.manages.mono hbk le_rfl).trans (Manages.place c _ _ ni1 _ _ _ _)).trans
          (Manages.markTablesClean c _ _ _)
      refine (updateWriteMainTable_retires c env (by rw [hm1.infoTableCache]; exact hne)
        ⟨?_, fun hm => ?_, fun _ => ?_⟩
        (fun _ => by simp [Inst.changed, nmbmMarkTablesClean]) ?_ h).after hm1.toUpdates
      all_goals simp only [nmbmMarkTablesClean] at *
      · omega
      · rw [e5, e1]
        exact hag.main (e1 ▸ hm)
      · omega
      · omega

/-! ## The loop -/

/-- One repetition of the loop of `nmbm_update_info_table`: something has changed, and
`nmbm_update_info_table_once` reports success. -/
def LoopStep (ni ni' : Inst) : Prop :=
  ni.changed = true ∧ nmbmUpdateInfoTableOnce c env ni false = (true, ni')

/-- The `while` loop of `nmbm_update_info_table`, from a state to the result it ends with. -/
inductive LoopEnds : Inst → Bool × Inst → Prop
  | clean {ni : Inst} (hc : ni.changed = false) : LoopEnds ni (true, ni)
  | failed {ni ni1 : Inst} (hc : ni.changed = true)
      (honce : nmbmUpdateInfoTableOnce c env ni false = (false, ni1)) : LoopEnds ni (false, ni1)
  | again {ni ni1 : Inst} {out : Bool × Inst} (hstep : LoopStep c env ni ni1)
      (h : LoopEnds ni1 out) : LoopEnds ni out

variable {c env}

lemma LoopStep.retires (h : LoopStep c env ni ni') (ha : Above ni) : Retires c true ni ni' :=
  updateInfoTableOnce_retires c env ha h.1 h.2

lemma Above.steps {ni ni' : Inst} (ha : Above ni)
    (h : Relation.ReflTransGen (LoopStep c env) ni ni') : Above ni' := by
  induction h with
  | refl => exact ha
  | tail _ hstep ih => exact (hstep.retires ih).above rfl

variable (c env)

/-- With fuel above the number of good blocks the modelled loop ends as the `while` loop does. -/
lemma updateInfoTableLoop_ends {fuel : ℕ} {ni : Inst} (ha : Above ni)
    (hfuel : ni.changed = true → ni.goodCount < fuel) :
    LoopEnds c env ni (updateInfoTableLoop c env fuel ni) := by
  induction fuel generalizing ni with
  | zero =>
    refine LoopEnds.clean ?_
    by_contra hc
    exact absurd (hfuel (by simpa using hc)) (Nat.not_lt_zero _)
  | succ fuel ih =>
    rw [updateInfoTableLoop]
    split
    · rename_i hc
      split
      · rename_i ni1 honce
        exact LoopEnds.failed hc honce
      · rename_i ni1 honce
        have hr := updateInfoTableOnce_retires c env ha hc honce
        refine LoopEnds.again ⟨hc, honce⟩ (ih (hr.above rfl) fun hc1 => ?_)
        have := hr.settled rfl hc1
        have := hfuel hc
        omega
    · rename_i hc
      exact LoopEnds.clean (by simpa using hc)

/-! ## Reachable states -/

/-- Unless the device is protected, when `nmbm_update_info_table` does nothing, its tables lie in
the management area. -/
def Guarded (ni : Inst) : Prop := ni.isProtected = false → Above ni

variable {c env}

lemma Guarded.congr {ni ni' : Inst} (h : Guarded ni) (hp : ni'.isProtected = ni.isProtected)
    (hg : ni'.mgmtStartBa = ni.mgmtStartBa) (hm : ni'.mainTableBa = ni.mainTableBa)
    (hb : ni'.backupTableBa = ni.backupTableBa) (hmb : ni'.mappingBlocksBa = ni.mappingBlocksBa) :
    Guarded ni' := by
  intro hp'
  obtain ⟨h1, h2, h3⟩ := h (hp ▸ hp')
  refine ⟨?_, ?_, ?_⟩
  · rw [hg, hmb]
    exact h1
  · rw [hg, hm]
    exact h2
  · rw [hg, hb]
    exact h3

lemma LoopEnds.guarded {ni : Inst} {out : Bool × Inst} (h : LoopEnds c env ni out)
    (ha : Above ni) : Guarded out.2 := by
  induction h with
  | clean => exact fun _ => ha
  | failed hc honce =>
    have hr := updateInfoTableOnce_retires c env ha hc honce
    exact fun hp => absurd ((hr.refused rfl).symm.trans hp) (by simp)
  | again hstep _ ih => exact ih ((hstep.retires ha).above rfl)

variable (c env)

lemma updateInfoTable_guarded (h : Guarded ni) : Guarded (nmbmUpdateInfoTable c env ni).2 := by
  rw [nmbmUpdateInfoTable]
  split
  · exact h
  · rename_i hp
    have ha := h (by simpa using hp)
    exact (updateInfoTableLoop_ends c env ha (fun _ => by rw [Inst.goodCount]; omega)).guarded ha

lemma mapBlock_guarded {lb : ℕ} (h : Guarded ni) (hmap : nmbmMapBlock c env ni lb = (r, ni')) :
    Guarded ni' := by
  rcases mapBlock_cases c env hmap with ⟨-, rfl⟩ | ⟨r1, ni1, -, hu, rfl⟩ | ⟨pb, -, -, -, rfl⟩
  · exact h
  · have h1 := updateInfoTable_guarded c env h
    rw [hu] at h1
    exact h1.congr rfl rfl rfl rfl rfl
  · exact h.congr rfl rfl rfl rfl rfl

lemma setBlockState_guarded (h : Guarded ni) (ba : ℕ) (st : UInt32) :
    Guarded (nmbmSetBlockState ni ba st) := by
  rw [setBlockState_frame]
  exact h.congr rfl rfl rfl rfl rfl

lemma remapBlock_guarded (h : Guarded ni) (block mappedBlock copyLen : ℕ) :
    Guarded (remapBlockNmbm c env ni block mappedBlock copyLen).2 := by
  rcases hr : remapBlockNmbm c env ni block mappedBlock copyLen with ⟨r, ni'⟩
  have hs := setBlockState_guarded h mappedBlock blockStBad
  rcases remapBlock_cases c env hr with ⟨-, -, rfl⟩ | ⟨-, -, hmap⟩ | ⟨ni1, r1, -, -, hmap, hu⟩
  · exact h
  · exact mapBlock_guarded c env hs hmap
  · have h1 : Guarded { ni1 with chip := movedChip c env ni1 block mappedBlock copyLen } :=
      (mapBlock_guarded c env hs hmap).congr rfl rfl rfl rfl rfl
    have h2 := updateInfoTable_guarded c env h1
    rwa [hu] at h2

lemma unmapped_guarded {block : ℕ} (h : Guarded ni) (hun : unmapped ni block = some ni') :
    Guarded ni' := by
  rw [unmapped] at hun
  split at hun
  · exact absurd hun (by simp)
  · split at hun
    · exact absurd hun (by simp)
    · rename_i start hstart
      split at hun
      · exact absurd hun (by simp)
      · rw [Option.some.injEq] at hun
        subst hun
        exact (setBlockState_guarded h _ blockStGood).congr rfl rfl rfl rfl rfl

lemma unmapBlock_guarded (h : Guarded ni) (block : ℕ) :
    Guarded (unmapBlockNmbm c env ni block) := by
  rw [unmapBlockNmbm]
  split
  · exact h
  · rename_i ni1 hun
    exact updateInfoTable_guarded c env (unmapped_guarded h hun)

/-! ### Creation -/

variable {c env}

lemma Fills.guarded {ni : Inst} (h : Fills c env ni) : Guarded ni := by
  induction h with
  | rebuilt _ hbuild =>
    have hr := rebuildInfoTable_retires c env (generatedImage_ne_nil c _) hbuild
    exact fun _ => hr.above rfl
  | mapped _ hmap ih => exact (mapBlock_guarded c env ih hmap).congr rfl rfl rfl rfl rfl
  | full _ hmap ih => exact mapBlock_guarded c env ih hmap

lemma Fills.createMapLoop {ni : Inst} (h : Fills c env ni) (k lb : ℕ) :
    Fills c env (createMapLoop c env k lb ni) := by
  induction k generalizing lb ni with
  | zero => exact h
  | succ k ih =>
    rw [Nmbm.createMapLoop]
    split
    · rename_i ni1 hmap
      exact h.full hmap
    · rename_i ni1 hmap
      exact ih (h.mapped hmap) _

variable (c env)

lemma createInfoTable_guarded (h : nmbmCreateInfoTable c env ni = (true, ni')) : Guarded ni' := by
  rw [nmbmCreateInfoTable] at h
  split at h
  · exact absurd h (by simp)
  · rename_i top hwalk
    dsimp only at h
    split at h
    · exact absurd h (by simp)
    · rename_i ni1 hbuild
      have hf := (Fills.rebuilt hwalk hbuild).createMapLoop
        (ni1.mgmtStartBa - ni1.dataBlockCount) ni1.dataBlockCount
      have hu := updateInfoTable_guarded c env hf.guarded
      rwa [h] at hu

/-! ### Loading -/

/-- `nmbm_rescue_single_info_table`. -/
lemma rescueSingleInfoTable_above (hne : ni.infoTableCache ≠ []) (ha : Above ni) :
    Above (nmbmRescueSingleInfoTable c env ni).2 := by
  obtain ⟨h1, h2, h3⟩ := ha
  rw [nmbmRescueSingleInfoTable]
  split
  · rename_i tableStart tableEnd ni1 hw
    obtain ⟨ht, h4, -⟩ := writeInfoTable_some c env hne hw
    have e1 := ht.mainTableBa
    have e2 := ht.mappingBlocksBa
    have e3 := ht.mgmtStartBa
    have hte := touch_eraseRange c env (nmbmMarkTablesClean
      { ni1 with backupTableBa := ni1.mainTableBa, mainTableBa := tableStart }) tableEnd
      ni1.mainTableBa
    have f1 := hte.mainTableBa
    have f2 := hte.mappingBlocksBa
    have f3 := hte.mgmtStartBa
    have f4 := hte.backupTableBa
    simp only [nmbmMarkTablesClean] at f1 f2 f3 f4 ⊢
    refine ⟨by omega, fun _ => by omega, fun hb => ?_⟩
    rw [f3, f4, e1, e3]
    rw [f4, e1] at hb
    exact h2 hb
  · rename_i ni1 hw
    have ht := writeInfoTable_none c env hw
    have ha1 : Above ni1 := by
      refine ⟨?_, ?_, ?_⟩
      · rw [ht.mgmtStartBa, ht.mappingBlocksBa]
        exact h1
      · rw [ht.mgmtStartBa, ht.mainTableBa]
        exact h2
      · rw [ht.mgmtStartBa, ht.backupTableBa]
        exact h3
    split
    · exact ha1
    · rename_i writeBa hres
      have hge := tryReserveBlocks_ge c hres
      split
      · rename_i ni2 hdown
        obtain ⟨ht2, -⟩ := writeDownward_spec c env ni1.mappingBlocksBa
          (by rwa [ht.infoTableCache]) (by omega) hdown
        refine ⟨?_, ?_, ?_⟩
        · rw [ht2.mgmtStartBa, ht2.mappingBlocksBa]
          exact ha1.mapping
        · rw [ht2.mgmtStartBa, ht2.mainTableBa]
          exact ha1.main
        · rw [ht2.mgmtStartBa, ht2.backupTableBa]
          exact ha1.backup
      · rename_i tableStart tableEnd ni2 hdown
        obtain ⟨ht2, hr⟩ := writeDownward_spec c env ni1.mappingBlocksBa
          (by rwa [ht.infoTableCache]) (by omega) hdown
        obtain ⟨h4, h5, -⟩ := hr _ _ rfl
        have hte := touch_eraseRange c env ni2 ni2.mappingBlocksBa tableStart
        have e1 := ht2.mainTableBa
        have e3 := ht2.mgmtStartBa
        have f1 := hte.mainTableBa
        have f3 := hte.mgmtStartBa
        have hmap := ha1.mapping
        simp only [nmbmMarkTablesClean]
        refine ⟨by dsimp only; omega, fun hm => ?_, fun _ => by dsimp only; omega⟩
        dsimp only at hm ⊢
        rw [f1, f3, e1, e3]
        rw [f1, e1] at hm
        exact ha1.main hm

/-- `nmbm_update_single_info_table`. -/
lemma updateSingleInfoTable_above {ni : Inst} (hne : ni.infoTableCache ≠ []) (ha : Above ni)
    (hmain : ni.mgmtStartBa ≤ ni.mainTableBa) (hbackup : ni.backupTableBa ≠ 0) (main : Bool) :
    Above (nmbmUpdateSingleInfoTable c env ni main).2 := by
  obtain ⟨h1, -, h3⟩ := ha
  have h3 := h3 hbackup
  rw [nmbmUpdateSingleInfoTable]
  split
  · split
    · rename_i tableStart tableEnd ni1 hw
      obtain ⟨ht, h4, -⟩ := writeInfoTable_some c env hne hw
      have e1 := ht.backupTableBa
      have e2 := ht.mappingBlocksBa
      have e3 := ht.mgmtStartBa
      simp only [nmbmMarkTablesClean]
      exact ⟨by dsimp only; omega, fun _ => by dsimp only; omega, fun _ => by dsimp only; omega⟩
    · rename_i ni1 hw
      have ht := writeInfoTable_none c env hw
      have e1 := ht.backupTableBa
      have e2 := ht.mappingBlocksBa
      have e3 := ht.mgmtStartBa
      refine rescueSingleInfoTable_above c env (by exact ht.infoTableCache ▸ hne)
        ⟨by dsimp only; omega, fun _ => by dsimp only; omega, fun h => absurd rfl h⟩
  · split
    · rename_i tableStart tableEnd ni1 hw
      obtain ⟨ht, h4, h5, -⟩ := writeInfoTable_some c env hne hw
      have e1 := ht.mainTableBa
      have e3 := ht.mgmtStartBa
      simp only [nmbmMarkTablesClean]
      exact ⟨by dsimp only; omega, fun _ => by dsimp only; omega, fun _ => by dsimp only; omega⟩
    · rename_i ni1 hw
      have ht := writeInfoTable_none c env hw
      have e1 := ht.mainTableBa
      have e2 := ht.backupTableBa
      have e3 := ht.mgmtStartBa
      exact ⟨by dsimp only; omega, fun _ => by dsimp only; omega, fun h => absurd rfl h⟩

/-- A search moves no table and finds none in front of its start. -/
lemma searchInfoTableLoop_frame {loaded : Bool} {k ba : ℕ} {r : Option (ℕ × ℕ × UInt32 × ℕ)}
    (hlen : ni.infoTableCache.length = c.infoTableSize)
    (h : nmbmSearchInfoTableLoop c env loaded k ba ni = (r, ni')) :
    ni'.mgmtStartBa = ni.mgmtStartBa ∧ ni'.mainTableBa = ni.mainTableBa ∧
      ni'.infoTableCache.length = c.infoTableSize ∧
      ∀ s e wc top, r = some (s, e, wc, top) → ba ≤ s ∧ s ≤ e := by
  cases r with
  | none =>
    have hs := searchInfoTableLoop_none c env h
    exact ⟨(congrArg Inst.mgmtStartBa hs.frame :), (congrArg Inst.mainTableBa hs.frame :),
      hs.cache hlen, fun _ _ _ _ h => absurd h (by simp)⟩
  | some r =>
    obtain ⟨s, e, wc, top⟩ := r
    obtain ⟨h1, -, rfl, ni0, img, ni1, hs, hl, -, hni'⟩ := searchInfoTableLoop_some c env hlen h
    have e1 : ni1.mgmtStartBa = ni.mgmtStartBa :=
      (congrArg Inst.mgmtStartBa hl.scans.frame :).trans (congrArg Inst.mgmtStartBa hs.frame :)
    have e2 : ni1.mainTableBa = ni.mainTableBa :=
      (congrArg Inst.mainTableBa hl.scans.frame :).trans (congrArg Inst.mainTableBa hs.frame :)
    have e3 := hl.scans.cache (hs.cache hlen)
    refine ⟨?_, ?_, ?_, fun s e wc top h => ?_⟩
    · rw [hni']
      split <;> exact e1
    · rw [hni']
      split <;> exact e2
    · rw [hni']
      split <;> exact e3
    · simp only [Option.some.injEq, Prod.mk.injEq] at h
      omega

/-- `nmbm_load_info_table`, whatever the flash holds. -/
lemma loadInfoTable_above {ni ni' : Inst} {limit : ℕ}
    (hlen : ni.infoTableCache.length = c.infoTableSize)
    (h : nmbmLoadInfoTable c env ni ni.mgmtStartBa limit = (true, ni')) : Above ni' := by
  obtain ⟨s, e, wc, top, niA, second, niB, backupBa, tableEnd, backupWc, backupTop, r, niR, h1, h2,
    h3, h4, rfl⟩ := loadInfoTable_cases c env h
  rw [nmbmSearchInfoTable] at h1 h2
  obtain ⟨a1, -, a3, a4⟩ := searchInfoTableLoop_frame c env (by exact hlen) h1
  obtain ⟨b1, b2, -, b4⟩ := searchInfoTableLoop_frame c env (by exact a3) h2
  obtain ⟨hs, he⟩ := a4 _ _ _ _ rfl
  dsimp only [resetTables] at a1 b1 b2
  have htables : (backupBa ≠ 0 → ni.mgmtStartBa ≤ backupBa) ∧ ni.mgmtStartBa ≤ tableEnd := by
    cases second with
    | none =>
      simp only [Option.getD_none, Prod.mk.injEq] at h3
      exact ⟨fun hb => absurd h3.1.symm hb, by omega⟩
    | some r =>
      obtain ⟨hs2, he2⟩ := b4 r.1 r.2.1 r.2.2.1 r.2.2.2 rfl
      simp only [Option.getD_some] at h3
      rw [h3] at hs2 he2
      dsimp only at hs2 he2
      exact ⟨fun _ => by omega, by omega⟩
  set niS := (nmbmGenerateInfoTableCache c (settleTables niB wc top backupBa tableEnd backupWc
    backupTop)).2
  have hne : niS.infoTableCache ≠ [] := generatedImage_ne_nil c _
  have s1 : niS.mgmtStartBa = ni.mgmtStartBa := b1.trans a1
  have s2 : niS.mainTableBa = s := b2
  have haS : Above niS := by
    refine ⟨?_, fun _ => by omega, ?_⟩
    · rw [s1]
      exact htables.2
    · rw [s1]
      exact htables.1
  have haR : Above niR := by
    rw [restoreTables] at h4
    split at h4
    · have h5 := rescueSingleInfoTable_above c env hne haS
      rwa [h4] at h5
    · rename_i hb
      split at h4
      · have h5 := @updateSingleInfoTable_above c env
          { niS with blockStateChanged := 1, blockMappingChanged := 1 } hne
          ⟨haS.mapping, haS.main, haS.backup⟩ (by dsimp only; omega) hb (decide (wc < backupWc))
        rwa [h4] at h5
      · rw [Prod.mk.injEq] at h4
        rw [← h4.2]
        exact haS
  exact ⟨haR.mapping, haR.main, haR.backup⟩

lemma loadExisting_guarded (hlen : ni.infoTableCache.length = c.infoTableSize)
    (h : nmbmLoadExisting c env ni = (true, ni')) : Guarded ni' := by
  rw [nmbmLoadExisting] at h
  dsimp only at h
  split at h
  · rename_i ni1 hload
    rw [Prod.mk.injEq] at h
    obtain ⟨-, rfl⟩ := h
    exact fun _ => @loadInfoTable_above c env
      { ni with mgmtStartBa := ni.signature.mgmtStartPb.toNat } _ _ hlen hload
  · split at h
    · exact absurd h (by simp)
    · exact createInfoTable_guarded c env h

lemma attach_guarded {chip : Chip} (h : nmbmAttach c env chip = some (0, ni)) : Guarded ni := by
  rcases attach_cases c env h with
    ⟨ni1, -, hs1, hnew⟩ | ⟨sig, sb, ni1, -, -, hlen, -, -, -, hload⟩
  · obtain ⟨ni2, -, hcreate⟩ := createNew_cases c env hs1 hnew
    exact createInfoTable_guarded c env hcreate
  · exact loadExisting_guarded c env (by exact hlen) hload

variable {c env}

lemma Serves.guarded {chip : Chip} {ni : Inst} (h : Serves c env chip ni) : Guarded ni := by
  induction h with
  | attach h => exact attach_guarded c env h
  | remap _ block mappedBlock copyLen ih => exact remapBlock_guarded c env ih _ _ _
  | unmap _ block ih => exact unmapBlock_guarded c env ih block

lemma Saves.guarded {chip : Chip} {ni : Inst} (h : Saves c env chip ni) : Guarded ni := by
  cases h with
  | filling h => exact h.guarded
  | idle h => exact h.guarded
  | marked h mappedBlock => exact setBlockState_guarded h.guarded _ _
  | moved h block mappedBlock copyLen hmap =>
    exact (mapBlock_guarded c env (setBlockState_guarded h.guarded _ _) hmap).congr
      rfl rfl rfl rfl rfl
  | unmapped h block hun => exact unmapped_guarded h.guarded hun

/-! ## The result -/

/-- In every state in which `nmbm_update_info_table` may be called on a device that is not
protected, and for every pattern of failures: each repetition of its loop after which something is
still changed has lowered the number of good blocks in the management area, and the loop ends,
with the result of the modelled function. -/
theorem updateLoop_ends {chip : Chip} {ni : Inst} (h : Saves c env chip ni)
    (hp : ni.isProtected = false) :
    (∀ ni1 ni2, Relation.ReflTransGen (LoopStep c env) ni ni1 → LoopStep c env ni1 ni2 →
      ni2.changed = true → ni2.mgmtGood < ni1.mgmtGood) ∧
    LoopEnds c env ni (nmbmUpdateInfoTable c env ni) := by
  have ha := h.guarded hp
  refine ⟨fun ni1 ni2 hsteps hstep hc => ?_, ?_⟩
  · have hr := hstep.retires (ha.steps hsteps)
    exact hr.updates.mgmtGood_lt le_rfl (hr.settled rfl hc)
  · rw [nmbmUpdateInfoTable, hp, if_neg (by simp)]
    exact updateInfoTableLoop_ends c env ha fun _ => by rw [Inst.goodCount]; omega

lemma Reach.serves {chip : Chip} {ni : Inst} (h : Reach c env chip ni) : Serves c env chip ni := by
  induction h with
  | attach h => exact Serves.attach h
  | remap _ block mappedBlock copyLen ih => exact ih.remap block mappedBlock copyLen

/-- Whatever was found on the flash and whatever fails, a device in service that is not protected
has its tables and its mapping blocks in the management area. -/
theorem tables_above {chip : Chip} {ni : Inst} (h : Serves c env chip ni)
    (hp : ni.isProtected = false) : Above ni :=
  h.guarded hp

set_option maxRecDepth 100000 in
theorem tables_above_blank :
    ∃ ni, Serves oneBlockConf (wornEnv 0 fun _ => false) (blankChip fun _ => false) ni ∧
      Above ni := by
  have hany : ((nmbmRun oneBlockConf (wornEnv 0 fun _ => false) (blankChip fun _ => false) []).any
      fun ni => !ni.isProtected) = true := by decide +kernel
  obtain ⟨ni, hrun, hni⟩ := (Option.any_eq_true _ _).mp hany
  have h := (reach_run hrun).serves
  exact ⟨ni, h, tables_above h (by simpa using hni)⟩

set_option maxRecDepth 100000 in
/-- The update at the end of a remap, with block 12 worn out when the backup table is written. -/
theorem updateLoop_ends_worn :
    ∃ ni, ni.changed = true ∧ LoopEnds oneBlockConf (wornEnv 105 fun b => b == 12) ni
      (nmbmUpdateInfoTable oneBlockConf (wornEnv 105 fun b => b == 12) ni) := by
  have hany : ((nmbmRun oneBlockConf (wornEnv 105 fun b => b == 12)
      (blankChip fun b => b == 15 || b == 16) []).any fun ni =>
      (remapUpdate oneBlockConf (wornEnv 105 fun b => b == 12) ni 0 0 0).any fun ni =>
        ni.changed && !ni.isProtected) = true := by decide +kernel
  obtain ⟨ni, hrun, hni⟩ := (Option.any_eq_true _ _).mp hany
  obtain ⟨ni1, hmoved, hni1⟩ := (Option.any_eq_true _ _).mp hni
  rw [Bool.and_eq_true, Bool.not_eq_true'] at hni1
  have hat : Saves oneBlockConf (wornEnv 105 fun b => b == 12)
      (blankChip fun b => b == 15 || b == 16) ni1 := by
    rw [remapUpdate] at hmoved
    split at hmoved
    · rename_i ni2 hmap
      rw [Option.some.injEq] at hmoved
      subst hmoved
      exact Saves.moved (reach_run hrun).serves 0 0 0 hmap
    · exact absurd hmoved (by simp)
  exact ⟨ni1, hni1.1, (updateLoop_ends hat hni1.2).2⟩

end Nmbm
