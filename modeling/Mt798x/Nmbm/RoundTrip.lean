import Mt798x.Nmbm.Reload
import Mt798x.Nmbm.Update

/-!
# Writing a table and loading it again

The writer passes over bad blocks wherever it meets them, the reader stops after as many blocks
as the table takes.  A table is therefore loaded again exactly when the writer did not pass over a
block between the first and the last chunk (`gapless`), and when the mapping in it keeps clear of
the blocks it lies in, which the reader checks.
-/

namespace Nmbm

open Bytes Bmt

variable (c : Conf) (env : Env)

/-! ## Attempts of the writer -/

/-- One block of the loop of `nmbm_write_mgmt_range`: whether the chunk went into it. -/
def writeBlock (ni : Inst) (ba : ℕ) (chunk : List Byte) : Bool × Inst :=
  if nmbmGetBlockState ni ba ≠ blockStGood then (false, ni)
  else
    let b := nmbmCheckBadPhysBlock env ni ba
    if b.1 then (false, nmbmSetBlockState b.2 ba blockStBad)
    else
      let r := nmbmEraseBlockAndCheck c env b.2 ba
      if !r.1 then (false, skipBadBlock c env r.2 ba)
      else
        let w := nmbnWriteVerifyData c env r.2 (c.ba2addr ba) chunk
        if !w.1 then (false, skipBadBlock c env w.2 ba) else (true, w.2)

lemma writeMgmtRangeLoop_writeBlock (size k ba : ℕ) {rest : List Byte} (start : ℕ) (ni : Inst)
    (hrest : rest ≠ []) :
    nmbmWriteMgmtRangeLoop c env size (k + 1) ba rest start ni =
      if (writeBlock c env ni ba (rest.take c.blkSize)).1 then
        nmbmWriteMgmtRangeLoop c env size k (ba + 1) (rest.drop c.blkSize)
          (if rest.length = size then ba else start)
          (writeBlock c env ni ba (rest.take c.blkSize)).2
      else nmbmWriteMgmtRangeLoop c env size k (ba + 1) rest start
        (writeBlock c env ni ba (rest.take c.blkSize)).2 := by
  rw [nmbmWriteMgmtRangeLoop, if_neg hrest, writeBlock]
  dsimp only
  by_cases h1 : nmbmGetBlockState ni ba ≠ blockStGood
  · simp only [if_pos h1, Bool.false_eq_true, if_false]
  · simp only [if_neg h1]
    by_cases h2 : (nmbmCheckBadPhysBlock env ni ba).1 = true
    · simp only [h2, if_true, Bool.false_eq_true, if_false]
    · simp only [if_neg h2]
      split
      · simp only [Bool.false_eq_true, if_false]
      · split
        · simp only [Bool.false_eq_true, if_false]
        · simp only [if_true]

/-- Whether the writer, once it has written a chunk (`started`), never passes over a block. -/
def gaplessLoop : ℕ → ℕ → List Byte → Bool → Inst → Bool
  | 0, _, _, _, _ => true
  | k + 1, ba, rest, started, ni =>
    if rest = [] then true
    else
      let w := writeBlock c env ni ba (rest.take c.blkSize)
      if w.1 then gaplessLoop k (ba + 1) (rest.drop c.blkSize) true w.2
      else !started && gaplessLoop k (ba + 1) rest false w.2

/-- Whether `nmbm_write_info_table` finds the blocks after its first one all usable. -/
def gapless (ni : Inst) (ba limit : ℕ) : Bool :=
  gaplessLoop c env (limit - ba) ba ni.infoTableCache false ni

/-! ## How far the writer gets -/

/-- The end of what is written, and when it is as near as possible: once started, if no block was
passed over. -/
lemma writeMgmtRangeLoop_end {size k ba : ℕ} {rest : List Byte} {start : ℕ} {ni : Inst} {s e : ℕ}
    (h : (nmbmWriteMgmtRangeLoop c env size k ba rest start ni).1 = some (s, e)) :
    ba + c.size2blk rest.length ≤ e ∧
      (gaplessLoop c env k ba rest true ni = true ↔ e = ba + c.size2blk rest.length) ∧
      (rest.length = size → rest ≠ [] →
        (gaplessLoop c env k ba rest false ni = true ↔ e = s + c.size2blk rest.length)) := by
  induction k generalizing ba rest start ni with
  | zero =>
    rw [nmbmWriteMgmtRangeLoop] at h
    split at h
    · rename_i hr
      simp only [Option.some.injEq, Prod.mk.injEq] at h
      obtain ⟨rfl, rfl⟩ := h
      subst hr
      simp [gaplessLoop]
    · exact absurd h (by simp)
  | succ k ih =>
    by_cases hrest : rest = []
    · rw [nmbmWriteMgmtRangeLoop, if_pos hrest] at h
      simp only [Option.some.injEq, Prod.mk.injEq] at h
      obtain ⟨rfl, rfl⟩ := h
      subst hrest
      simp [gaplessLoop]
    · have hb := writeMgmtRangeLoop_bounds c env h
      rw [writeMgmtRangeLoop_writeBlock c env size k ba start ni hrest] at h
      simp only [gaplessLoop, if_neg hrest]
      split at h
      · rename_i hw
        obtain ⟨h1, h2, -⟩ := ih h
        have hneed := size2blk_drop c hrest
        rw [if_pos hw, if_pos hw]
        refine ⟨by omega, ?_, fun hl _ => ?_⟩
        · rw [h2]
          omega
        · have hlt : (rest.drop c.blkSize).length < size := by
            have := List.length_pos_iff.mpr hrest
            have := c.blkSize_pos
            rw [List.length_drop]
            omega
          obtain rfl : s = ba := by
            rw [(writeMgmtRangeLoop_bounds c env h).2.2.2.1 hlt, if_pos hl]
          rw [h2]
          omega
      · rename_i hw
        obtain ⟨h1, -, h3⟩ := ih h
        rw [if_neg hw, if_neg hw]
        refine ⟨by omega, ?_, fun hl hne => ?_⟩
        · simp only [Bool.not_true, Bool.false_and, Bool.false_eq_true, false_iff]
          omega
        · simp only [Bool.not_false, Bool.true_and]
          exact h3 hl hne

/-! ## The round trip -/

lemma checkMappingLoop_isSome {mapping : ℕ → ℕ} {d sb e k ba minPb : ℕ} :
    (checkMappingLoop mapping d sb e k ba minPb).isSome = true ↔
      ∀ lb, ba ≤ lb → lb < ba + k → ¬ (d ≤ mapping lb ∧ mapping lb < e) ∧ mapping lb ≠ sb := by
  induction k generalizing ba minPb with
  | zero =>
    simp only [checkMappingLoop, Option.isSome_some, true_iff]
    intro lb h1 h2
    omega
  | succ k ih =>
    rw [checkMappingLoop]
    split
    · rename_i hbad
      simp only [Option.isSome_none, Bool.false_eq_true, false_iff]
      intro hall
      have := hall ba le_rfl (by omega)
      omega
    · rename_i hok
      rw [ih]
      constructor
      · intro hall lb h1 h2
        by_cases hlb : lb = ba
        · subst hlb
          omega
        · exact hall lb (by omega) (by omega)
      · intro hall lb h1 h2
        exact hall lb (by omega) (by omega)

lemma checkStateLoop_of_good {ni : Inst} {st : ℕ → UInt32} {k ba : ℕ}
    (h : ∀ b, ba ≤ b → b < ba + k → st b = blockStGood) : checkStateLoop ni st k ba = true := by
  induction k generalizing ba with
  | zero => rfl
  | succ k ih =>
    have hrest : checkStateLoop ni st k (ba + 1) = true :=
      ih fun b h1 h2 => h b (by omega) (by omega)
    rw [checkStateLoop]
    split
    · exact hrest
    · rw [if_neg (not_not.mpr (h ba le_rfl (by omega)))]
      exact hrest

/-- The mapping keeps clear of the management blocks before `e` and of the signature. -/
def ClearOf (ni : Inst) (e : ℕ) : Prop :=
  ∀ lb < ni.mgmtStartBa, ¬ (ni.mgmtStartBa ≤ (ni.blockMapping.getD lb 0).toNat ∧
    (ni.blockMapping.getD lb 0).toNat < e) ∧ (ni.blockMapping.getD lb 0).toNat ≠ ni.signatureBa

instance (ni : Inst) (e : ℕ) : Decidable (ClearOf ni e) :=
  inferInstanceAs (Decidable (∀ lb < ni.mgmtStartBa, _))

/-- An instance that starts on a flash, as `nmbm_load_info_table` has it before its first search. -/
def freshReader (ni : Inst) (f : Flash) : Inst :=
  { nmbmInitStructure c ⟨f, 0, []⟩ with
    dataBlockCount := ni.mgmtStartBa
    signatureBa := ni.signatureBa }

/-- `nmbm_try_load_info_table` at block `s` succeeds, ends at `e` and gives back the block states,
the block mapping and the write count of `ni`. -/
def Reproduces (ni : Inst) (f : Flash) (s e : ℕ) : Prop :=
  ∃ top rd, nmbmTryLoadInfoTable c Env.ideal (freshReader c ni f) s false =
      (some (e, (generatedHeader c ni).writeCount, top), rd) ∧
    rd.blockState = ni.blockState ∧ rd.blockMapping = ni.blockMapping ∧
    rd.infoTable.writeCount = (generatedHeader c ni).writeCount

lemma getBlockState_init (chip : Chip) {b : ℕ} (h : b / 16 < c.stateWords) :
    nmbmGetBlockState (nmbmInitStructure c chip) b = blockStGood := by
  have hfield : ∀ k < 16, TwoBit.field 0xffffffff k = 3 := by decide
  have hget : (List.replicate c.stateWords (0xffffffff : UInt32)).getD (b / 16) 0 = 0xffffffff := by
    rw [List.getD_eq_getElem?_getD, List.getElem?_replicate_of_lt h]
    rfl
  rw [nmbmGetBlockState, nmbmGetBlockStateRaw, nmbmInitStructure, TwoBit.get]
  dsimp only
  rw [hget]
  exact hfield _ (Nat.mod_lt _ (by decide))

lemma checkInfoTable_isSome (rd : Inst) {ni : Inst} {s e : ℕ} (hshape : ni.Shaped c)
    (hd : rd.dataBlockCount = ni.mgmtStartBa) (hs : rd.signatureBa = ni.signatureBa)
    (hst : ∀ b, s ≤ b → b < e → nmbmGetBlockState ni b = blockStGood) :
    (nmbmCheckInfoTable c rd s e (generatedImage c ni)).isSome = true ↔ ClearOf ni e := by
  have hstate : checkStateLoop rd (nmbmGetBlockStateRaw (tableState c (generatedImage c ni)))
      (e - s) s = true := by
    refine checkStateLoop_of_good fun b h1 h2 => ?_
    rw [tableState_generatedImage hshape]
    exact hst b h1 (by omega)
  have hmap : (nmbmCheckInfoTable c rd s e (generatedImage c ni)).isSome =
      (checkMappingLoop (fun ba => (ni.blockMapping.getD ba 0).toNat) ni.mgmtStartBa
        ni.signatureBa e ni.mgmtStartBa 0 ni.signatureBa).isSome := by
    rw [nmbmCheckInfoTable, tableMapping_generatedImage hshape, hd, hs]
    split
    · rename_i hnone
      rw [hnone]
    · rename_i m hsome
      rw [if_pos hstate, hsome, Option.isSome_some, Option.isSome_some]
  rw [hmap, checkMappingLoop_isSome, ClearOf]
  constructor
  · intro h lb hlb
    exact h lb (Nat.zero_le _) (by omega)
  · intro h lb _ hlb
    exact h lb (by omega)

/-- A table that was generated and written is loaded again, with its end, block states, block
mapping and write count, if and only if no block was passed over after its first one and its
mapping keeps clear of it. -/
theorem infoTable_round_trip_iff (ni : Inst) (hshape : ni.Shaped c) {ba limit s e : ℕ}
    (h : (nmbmWriteInfoTable c env (nmbmGenerateInfoTableCache c ni).2 ba limit).1 =
      some (s, e)) :
    Reproduces c ni
        (nmbmWriteInfoTable c env (nmbmGenerateInfoTableCache c ni).2 ba limit).2.chip.flash s e ↔
      gapless c env (nmbmGenerateInfoTableCache c ni).2 ba limit = true ∧ ClearOf ni e := by
  set gen := (nmbmGenerateInfoTableCache c ni).2 with hgen
  obtain ⟨ni', hni'⟩ : ∃ ni', nmbmWriteInfoTable c env gen ba limit = (some (s, e), ni') :=
    ⟨_, Prod.ext h rfl⟩
  have hne : gen.infoTableCache ≠ [] := generatedImage_ne_nil c ni
  have hcache : gen.infoTableCache = generatedImage c ni := rfl
  have hlen : gen.infoTableCache.length = c.infoTableSize := length_generatedImage hshape
  obtain ⟨ht, -, -, -, hst⟩ := writeInfoTable_some c env hne hni'
  have hgap : gapless c env gen ba limit = true ↔ e = s + c.infoTableBlocks := by
    have := (writeMgmtRangeLoop_end c env h).2.2 rfl hne
    rwa [hlen] at this
  have hrd : (freshReader c ni ni'.chip.flash).infoTableCache.length = c.infoTableSize :=
    List.length_replicate
  rw [hni', hgap]
  dsimp only
  have hgood : e = s + c.infoTableBlocks → ∀ b, s ≤ b → b < e →
      nmbmGetBlockState ni b = blockStGood := fun he b h1 h2 =>
    ht.good_of_good ((hst.contiguous (by rw [hlen]; exact he)).2 b h1 h2).1
  constructor
  · rintro ⟨top, rd, hload, -⟩
    obtain ⟨img, ni1, hl, rfl, -, -⟩ := tryLoadInfoTable_sound c Env.ideal hrd hload
    refine ⟨rfl, ?_⟩
    have himg : img = generatedImage c ni := by
      have h1 := hl.imageAt.peek
      have h2 := (hst.contiguous (by rw [hlen]; rfl)).1
      rw [hlen] at h2
      rw [hcache] at h2
      exact Option.some.inj (h1.symm.trans h2)
    rw [← checkInfoTable_isSome c (freshReader c ni ni'.chip.flash) hshape rfl rfl
      (hgood rfl), ← himg, hl.check, Option.isSome_some]
  · rintro ⟨rfl, hclear⟩
    obtain ⟨hpeek, hall⟩ := hst.contiguous (by rw [hlen]; rfl)
    rw [hlen] at hpeek
    rw [← checkInfoTable_isSome c (freshReader c ni ni'.chip.flash) hshape rfl rfl
      (hgood rfl)] at hclear
    obtain ⟨top, htop⟩ := Option.isSome_iff_exists.mp hclear
    obtain ⟨ni1, hl, hload⟩ := tryLoadInfoTable_ideal c false hrd
      ⟨hpeek, fun b h1 h2 => (hall b h1 h2).2⟩ (genuine_generatedImage hshape)
      (fun b h1 h2 => getBlockState_init c ⟨ni'.chip.flash, 0, []⟩
        (div_lt_of_good hshape.state (hgood rfl b h1 h2))) htop
    have hwc : (InfoTableHeader.ofBytes (generatedImage c ni)).writeCount =
        (generatedHeader c ni).writeCount := by
      rw [ofBytes_generatedImage hshape]
    rw [hcache, hwc] at hload
    refine ⟨top, _, hload, ?_, ?_, ?_⟩
    · simp only [Bool.not_false, Bool.true_or, if_true, loadTable]
      rw [hl.cache, hcache, tableState_generatedImage hshape]
    · simp only [Bool.not_false, Bool.true_or, if_true, loadTable]
      rw [hl.cache, hcache, tableMapping_generatedImage hshape]
    · simp only [Bool.not_false, Bool.true_or, if_true, loadTable]
      rw [hl.cache, hcache, hwc]

/-- A small chip whose info table takes two blocks. -/
def twoBlockConf : Conf where
  pgShift := 6
  blkShift := 7
  oobsize := 2
  totalBlks := 19
  bitflipThreshold := 1
  eccStrength := 4
  pg_le_blk := by decide
  blk_lt := by decide
  total_lt := by decide
  maxRatio := 8
  maxReservedBlocks := 0
  emptyPageEccOk := false
  forceCreate := true
  pg_large := by decide
  blk_small := by decide

/-- An instance on a blank chip with the given bad blocks. -/
def blankInst (c : Conf) (marked : ℕ → Bool) : Inst :=
  { nmbmInitStructure c ⟨⟨fun _ => some c.blankPage, marked⟩, 0, []⟩ with
    mgmtStartBa := 9
    signatureBa := 18 }

lemma blankInst_shaped (marked : ℕ → Bool) : (blankInst twoBlockConf marked).Shaped twoBlockConf :=
  ⟨rfl, rfl, (initStructure_shaped twoBlockConf ⟨⟨fun _ => none, marked⟩, 0, []⟩).offsets⟩

set_option maxRecDepth 100000 in
theorem infoTable_round_trip_blank :
    (nmbmWriteInfoTable twoBlockConf Env.ideal (nmbmGenerateInfoTableCache twoBlockConf
        (blankInst twoBlockConf fun _ => false)).2 9 18).1 = some (9, 11) ∧
      Reproduces twoBlockConf (blankInst twoBlockConf fun _ => false)
        (nmbmWriteInfoTable twoBlockConf Env.ideal (nmbmGenerateInfoTableCache twoBlockConf
          (blankInst twoBlockConf fun _ => false)).2 9 18).2.chip.flash 9 11 :=
  ⟨by decide +kernel, (infoTable_round_trip_iff twoBlockConf Env.ideal _ (blankInst_shaped _)
    (by decide +kernel)).mpr ⟨by decide +kernel, by decide +kernel⟩⟩

set_option maxRecDepth 100000 in
/-- With a bad block behind the first chunk the table goes to blocks 9 and 11, and is not loaded
from block 9. -/
theorem infoTable_round_trip_gap :
    (nmbmWriteInfoTable twoBlockConf Env.ideal (nmbmGenerateInfoTableCache twoBlockConf
        (blankInst twoBlockConf fun b => b == 10)).2 9 18).1 = some (9, 12) ∧
      ¬ Reproduces twoBlockConf (blankInst twoBlockConf fun b => b == 10)
        (nmbmWriteInfoTable twoBlockConf Env.ideal (nmbmGenerateInfoTableCache twoBlockConf
          (blankInst twoBlockConf fun b => b == 10)).2 9 18).2.chip.flash 9 12 := by
  refine ⟨by decide +kernel, ?_⟩
  rintro ⟨top, rd, h, -⟩
  have hnone : (nmbmTryLoadInfoTable twoBlockConf Env.ideal (freshReader twoBlockConf
      (blankInst twoBlockConf fun b => b == 10) (nmbmWriteInfoTable twoBlockConf Env.ideal
        (nmbmGenerateInfoTableCache twoBlockConf (blankInst twoBlockConf fun b => b == 10)).2
        9 18).2.chip.flash) 9 false).1 = none := by decide +kernel
  rw [h] at hnone
  exact absurd hnone (by simp)

end Nmbm
