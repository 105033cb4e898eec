import Mt798x.Nmbm.Access

/-!
# What the access functions may change

Every function that erases and writes management blocks is described by one relation,
`Touch c lo hi ni ni'`: it issues operations on blocks of `[lo, hi)` only, it may turn good blocks
of that range bad (each such find is counted), and it leaves everything else of the instance
alone.  The relation is reflexive and transitive, so each function of `Nmbm/Access.lean` gets one
lemma, and later proofs never unfold them.
-/

namespace Nmbm

open Bytes Bmt

/-! ## The relation -/

/-- Between `ni` and `ni'` some good blocks of `[lo, hi)` turned bad, and each find was counted. -/
structure Wears (lo hi : ℕ) (ni ni' : Inst) : Prop where
  length : ni'.blockState.length = ni.blockState.length
  cell : ∀ ba, nmbmGetBlockState ni' ba = nmbmGetBlockState ni ba ∨
    (Within lo hi ba ∧ nmbmGetBlockState ni ba = blockStGood ∧
      nmbmGetBlockState ni' ba = blockStBad)
  count : (ni'.blockState = ni.blockState ∧ ni'.blockStateChanged = ni.blockStateChanged ∧
      ni'.unsaved = ni.unsaved) ∨
    (TwoBit.count blockStGood ni'.blockState < TwoBit.count blockStGood ni.blockState ∧
      ni.blockStateChanged < ni'.blockStateChanged ∧ ni'.unsaved = true)

namespace Wears

variable {lo hi lo' hi' : ℕ} {ni ni' ni'' : Inst}

lemma refl (lo hi : ℕ) (ni : Inst) : Wears lo hi ni ni :=
  ⟨rfl, fun _ => Or.inl rfl, Or.inl ⟨rfl, rfl, rfl⟩⟩

lemma of_eq (hst : ni'.blockState = ni.blockState)
    (hch : ni'.blockStateChanged = ni.blockStateChanged) (hun : ni'.unsaved = ni.unsaved) :
    Wears lo hi ni ni' := by
  refine ⟨by rw [hst], fun ba => Or.inl ?_, Or.inl ⟨hst, hch, hun⟩⟩
  rw [nmbmGetBlockState, nmbmGetBlockState, hst]

lemma trans (h : Wears lo hi ni ni') (h' : Wears lo hi ni' ni'') : Wears lo hi ni ni'' := by
  refine ⟨h'.length.trans h.length, fun ba => ?_, ?_⟩
  · rcases h.cell ba with e | ⟨hw, hg, hb⟩
    · rw [← e]
      exact h'.cell ba
    · rcases h'.cell ba with e' | ⟨-, hg', -⟩
      · exact Or.inr ⟨hw, hg, e'.trans hb⟩
      · rw [hb] at hg'
        exact absurd hg' (by decide)
  · rcases h.count with ⟨e1, e2, e3⟩ | ⟨l1, l2, l3⟩
    · rw [← e1, ← e2, ← e3]
      exact h'.count
    · rcases h'.count with ⟨e1, e2, e3⟩ | ⟨m1, m2, m3⟩
      · exact Or.inr ⟨by rwa [e1], by rwa [e2], by rwa [e3]⟩
      · exact Or.inr ⟨m1.trans l1, l2.trans m2, m3⟩

lemma mono (h : Wears lo hi ni ni') (hlo : lo' ≤ lo) (hhi : hi ≤ hi') : Wears lo' hi' ni ni' :=
  ⟨h.length, fun ba => (h.cell ba).imp_right fun ⟨hw, hr⟩ => ⟨hw.mono hlo hhi, hr⟩, h.count⟩

lemma good_of_good (h : Wears lo hi ni ni') {ba : ℕ}
    (hg : nmbmGetBlockState ni' ba = blockStGood) : nmbmGetBlockState ni ba = blockStGood := by
  rcases h.cell ba with e | ⟨-, hg', -⟩
  · rwa [← e]
  · exact hg'

lemma state_eq (h : Wears lo hi ni ni') {ba : ℕ} (hba : ¬ Within lo hi ba) :
    nmbmGetBlockState ni' ba = nmbmGetBlockState ni ba := by
  rcases h.cell ba with e | ⟨hw, -⟩
  · exact e
  · exact absurd hw hba

lemma count_le (h : Wears lo hi ni ni') :
    TwoBit.count blockStGood ni'.blockState ≤ TwoBit.count blockStGood ni.blockState := by
  rcases h.count with ⟨e, -⟩ | ⟨l, -⟩
  · rw [e]
  · exact l.le

lemma eq_of_saved (h : Wears lo hi ni ni') (hs : ni'.unsaved = false) :
    ni'.blockState = ni.blockState ∧ ni.unsaved = false := by
  rcases h.count with ⟨e, -, e'⟩ | ⟨-, -, e⟩
  · exact ⟨e, e' ▸ hs⟩
  · rw [hs] at e
    exact absurd e (by simp)

end Wears

/-- The instance `ni` with the chip and the state table taken from `ni'`. -/
def Inst.worn (ni ni' : Inst) : Inst :=
  { ni with
    chip := ni'.chip
    blockState := ni'.blockState
    blockStateChanged := ni'.blockStateChanged
    unsaved := ni'.unsaved }

/-- From `ni` to `ni'` the management blocks `[lo, hi)` were worked on and nothing else changed. -/
structure Touch (c : Conf) (lo hi : ℕ) (ni ni' : Inst) : Prop extends Wears lo hi ni ni' where
  frame : ni' = ni.worn ni'
  works : Works c.toGeom true lo hi ni.chip ni'.chip

namespace Touch

variable {c : Conf} {lo hi lo' hi' : ℕ} {ni ni' ni'' : Inst}

lemma refl (c : Conf) (lo hi : ℕ) (ni : Inst) : Touch c lo hi ni ni :=
  ⟨Wears.refl lo hi ni, rfl, Works.refl _ _ _ _ _⟩

lemma trans (h : Touch c lo hi ni ni') (h' : Touch c lo hi ni' ni'') : Touch c lo hi ni ni'' := by
  refine ⟨h.toWears.trans h'.toWears, ?_, h.works.trans h'.works⟩
  calc ni'' = ni'.worn ni'' := h'.frame
    _ = (ni.worn ni').worn ni'' := by rw [← h.frame]
    _ = ni.worn ni'' := rfl

lemma mono (h : Touch c lo hi ni ni') (hlo : lo' ≤ lo) (hhi : hi ≤ hi') :
    Touch c lo' hi' ni ni' :=
  ⟨h.toWears.mono hlo hhi, h.frame, h.works.mono hlo hhi⟩

lemma of_chip {chip : Chip} (h : Works c.toGeom true lo hi ni.chip chip) :
    Touch c lo hi ni { ni with chip := chip } :=
  ⟨Wears.of_eq rfl rfl rfl, rfl, h⟩

lemma trans_mono {m m' : ℕ} (h : Touch c m m' ni ni') (h' : Touch c lo hi ni' ni'') (hlo : lo ≤ m)
    (hhi : m' ≤ hi) : Touch c lo hi ni ni'' :=
  (h.mono hlo hhi).trans h'

end Touch

/-! ## Pages and blocks -/

variable (c : Conf) (env : Env)

lemma touch_setBlockState_bad {ni : Inst} {ba : ℕ} (h : nmbmGetBlockState ni ba = blockStGood) :
    Touch c ba (ba + 1) ni (nmbmSetBlockState ni ba blockStBad) := by
  have hlen : ba / 16 < ni.blockState.length := by
    by_contra hge
    rw [nmbmGetBlockState, nmbmGetBlockStateRaw, TwoBit.get_eq_zero_of_le (by omega)] at h
    exact absurd h (by decide)
  have hne : nmbmGetBlockState ni ba ≠ blockStBad &&& 3 := by
    rw [h]
    decide
  have heq : nmbmSetBlockState ni ba blockStBad =
      { ni with
        blockState := TwoBit.set ni.blockState ba blockStBad
        blockStateChanged := ni.blockStateChanged + 1
        unsaved := true } := by
    rw [nmbmSetBlockState]
    exact if_pos hne
  rw [heq]
  refine ⟨⟨by simp, fun b => ?_, Or.inr ⟨?_, Nat.lt_succ_self _, rfl⟩⟩, rfl, Works.refl _ _ _ _ _⟩
  · by_cases hb : b = ba
    · subst hb
      exact Or.inr ⟨⟨le_rfl, Nat.lt_succ_self _⟩, h, TwoBit.get_set_self _ hlen⟩
    · exact Or.inl (TwoBit.get_set_ne _ hb)
  · exact TwoBit.count_set_lt h hlen (by decide)

lemma readPhysPageTry_chip (page tries : ℕ) (last : ℤ) (chip : Chip) :
    (nmbmReadPhysPageTry c env page tries last chip).2.log = chip.log ∧
      (nmbmReadPhysPageTry c env page tries last chip).2.flash = chip.flash := by
  induction tries generalizing last chip with
  | zero => exact ⟨rfl, rfl⟩
  | succ tries ih =>
    rw [nmbmReadPhysPageTry]
    split
    · simp
    · split
      · simp
      · have := ih (chip.read c.toGeom env page).1.1 (chip.read c.toGeom env page).2
        simpa using this

variable (k : ℕ) (ni : Inst) (addr ba : ℕ)

lemma touch_readPhysPage (lo hi : ℕ) : Touch c lo hi ni (nmbmReadPhysPage c env ni addr).2 := by
  obtain ⟨hlog, hflash⟩ := readPhysPageTry_chip c env (c.pageOf addr) tryCount 0 ni.chip
  exact Touch.of_chip (Works.of_tock hlog hflash)

lemma works_writePhysPageTry (page tries : ℕ) (data : List Byte) (chip : Chip) :
    Works c.toGeom true (c.blockOf page) (c.blockOf page + 1) chip
      (nmbmWritePhysPageTry c env page data tries chip).2 := by
  induction tries generalizing chip with
  | zero => exact Works.refl _ _ _ _ _
  | succ tries ih =>
    have hw := Chip.works_write c.toGeom env true chip page data 0 []
    rw [nmbmWritePhysPageTry]
    split
    · exact hw
    · exact hw.trans (ih _)

lemma touch_writePhysPage (data : List Byte) :
    Touch c (addr / c.blkSize) (addr / c.blkSize + 1) ni
      (nmbmWritePhysPage c env ni addr data).2 := by
  have hw := works_writePhysPageTry c env (c.pageOf addr) tryCount data ni.chip
  rw [Geom.blockOf_pageOf] at hw
  exact Touch.of_chip hw

lemma works_erasePhysBlockTry (tries : ℕ) (chip : Chip) :
    Works c.toGeom true ba (ba + 1) chip (nmbmErasePhysBlockTry c env ba tries chip).2 := by
  induction tries generalizing chip with
  | zero => exact Works.refl _ _ _ _ _
  | succ tries ih =>
    have hw := Chip.works_erase c.toGeom env true chip ba
    rw [nmbmErasePhysBlockTry]
    split
    · exact hw
    · exact hw.trans (ih _)

lemma touch_erasePhysBlock : Touch c ba (ba + 1) ni (nmbmErasePhysBlock c env ni ba).2 :=
  Touch.of_chip (works_erasePhysBlockTry c env ba tryCount ni.chip)

lemma touch_checkBadPhysBlock (lo hi : ℕ) : Touch c lo hi ni (nmbmCheckBadPhysBlock env ni ba).2 :=
  Touch.of_chip (Works.of_tock rfl rfl)

@[simp] lemma getBlockState_checkBad (b : ℕ) :
    nmbmGetBlockState (nmbmCheckBadPhysBlock env ni ba).2 b = nmbmGetBlockState ni b := rfl

lemma touch_markPhysBadBlock : Touch c ba (ba + 1) ni (nmbmMarkPhysBadBlock c env ni ba) :=
  Touch.of_chip (Chip.works_markBad c.toGeom env true ni.chip ba)

lemma touch_skipBadBlock {ni : Inst} {ba : ℕ} (h : nmbmGetBlockState ni ba = blockStGood) :
    Touch c ba (ba + 1) ni (skipBadBlock c env ni ba) :=
  (touch_markPhysBadBlock c env ni ba).trans (touch_setBlockState_bad c h)

/-! ## Erasing -/

lemma touch_eraseCheckLoop (ni : Inst) (lo hi : ℕ) :
    Touch c lo hi ni (nmbmEraseCheckLoop c env k addr ni).2 := by
  induction k generalizing addr ni with
  | zero => exact Touch.refl c lo hi ni
  | succ k ih =>
    have hr := touch_readPhysPage c env ni addr lo hi
    rw [nmbmEraseCheckLoop]
    split
    · exact hr
    · exact hr.trans (ih _ _)

lemma touch_eraseBlockAndCheck : Touch c ba (ba + 1) ni (nmbmEraseBlockAndCheck c env ni ba).2 := by
  have he := touch_erasePhysBlock c env ni ba
  rw [nmbmEraseBlockAndCheck]
  split
  · exact he
  · split
    · exact he
    · exact he.trans (touch_eraseCheckLoop c env _ _ _ _ _)

lemma blockState_eraseCheckLoop (ni : Inst) :
    (nmbmEraseCheckLoop c env k addr ni).2.blockState = ni.blockState := by
  induction k generalizing addr ni with
  | zero => rfl
  | succ k ih =>
    rw [nmbmEraseCheckLoop]
    split
    · rfl
    · exact ih _ _

lemma blockState_eraseBlockAndCheck :
    (nmbmEraseBlockAndCheck c env ni ba).2.blockState = ni.blockState := by
  rw [nmbmEraseBlockAndCheck]
  split
  · rfl
  · split
    · rfl
    · exact blockState_eraseCheckLoop c env _ _ _

lemma getBlockState_eraseBlockAndCheck (b : ℕ) :
    nmbmGetBlockState (nmbmEraseBlockAndCheck c env ni ba).2 b = nmbmGetBlockState ni b := by
  rw [nmbmGetBlockState, nmbmGetBlockState, blockState_eraseBlockAndCheck]

lemma touch_eraseRangeLoop (ni : Inst) :
    Touch c ba (ba + k) ni (nmbmEraseRangeLoop c env k ba ni) := by
  induction k generalizing ba ni with
  | zero => exact Touch.refl c _ _ ni
  | succ k ih =>
    have hrest : ∀ ni', Touch c ba (ba + (k + 1)) ni' (nmbmEraseRangeLoop c env k (ba + 1) ni') :=
      fun ni' => (ih (ba + 1) ni').mono (by omega) (by omega)
    rw [nmbmEraseRangeLoop]
    split
    · exact hrest ni
    · rename_i hgood
      rw [not_not] at hgood
      have hb := touch_checkBadPhysBlock c env ni ba ba (ba + 1)
      dsimp only
      split
      · exact (hb.trans (touch_setBlockState_bad c hgood)).trans_mono (hrest _) le_rfl (by omega)
      · have he := hb.trans (touch_eraseBlockAndCheck c env _ ba)
        split
        · exact he.trans_mono (hrest _) le_rfl (by omega)
        · have hg : nmbmGetBlockState (nmbmEraseBlockAndCheck c env
              (nmbmCheckBadPhysBlock env ni ba).2 ba).2 ba = blockStGood := by
            rw [getBlockState_eraseBlockAndCheck]
            exact hgood
          exact (he.trans (touch_skipBadBlock c env hg)).trans_mono (hrest _) le_rfl (by omega)

lemma touch_eraseRange (limit : ℕ) : Touch c ba limit ni (nmbmEraseRange c env ni ba limit) := by
  rcases Nat.le_total ba limit with h | h
  · have := touch_eraseRangeLoop c env (limit - ba) ba ni
    rwa [Nat.add_sub_cancel' h] at this
  · rw [nmbmEraseRange, Nat.sub_eq_zero_of_le h]
    exact Touch.refl c _ _ ni

/-! ## Byte ranges -/

lemma touch_readDataLoop (fuel off rem : ℕ) (acc : List Byte) (ni : Inst) (lo hi : ℕ) :
    Touch c lo hi ni (nmbnReadDataLoop c env fuel off rem acc ni).2 := by
  induction fuel generalizing off rem acc ni with
  | zero => exact Touch.refl c lo hi ni
  | succ fuel ih =>
    rw [nmbnReadDataLoop]
    split
    · exact Touch.refl c lo hi ni
    · have hr := touch_readPhysPage c env ni (off - off % c.pgSize) lo hi
      dsimp only
      split
      · exact hr
      · exact hr.trans (ih _ _ _ _)

lemma touch_readData (size lo hi : ℕ) : Touch c lo hi ni (nmbnReadData c env ni addr size).2 :=
  touch_readDataLoop c env _ _ _ _ _ _ _

lemma pageStart_div_blkSize (off : ℕ) :
    (off - off % c.pgSize) / c.blkSize = off / c.blkSize := by
  have h : off - off % c.pgSize = c.pgSize * (off / c.pgSize) := by
    have := Nat.div_add_mod off c.pgSize
    omega
  rw [h, c.blkSize_eq, ← Nat.div_div_eq_div_mul, ← Nat.div_div_eq_div_mul,
    Nat.mul_div_cancel_left _ c.pgSize_pos]

lemma touch_writeVerifyLoop (fuel off ba : ℕ) (rest : List Byte) (ni : Inst)
    (hlo : ba * c.blkSize ≤ off) (hhi : off + rest.length ≤ (ba + 1) * c.blkSize) :
    Touch c ba (ba + 1) ni (nmbnWriteVerifyLoop c env fuel off rest ni).2 := by
  induction fuel generalizing off rest ni with
  | zero => exact Touch.refl c _ _ ni
  | succ fuel ih =>
    rw [nmbnWriteVerifyLoop]
    split
    · exact Touch.refl c _ _ ni
    · rename_i hne
      have hpos : 0 < rest.length := List.length_pos_iff.mpr hne
      have hblk : off / c.blkSize = ba :=
        Nat.div_eq_of_lt_le hlo (by omega)
      dsimp only
      have hw := touch_writePhysPage c env ni (off - off % c.pgSize)
        (List.replicate (off % c.pgSize) 0xff ++ rest.take (c.pgSize - off % c.pgSize) ++
          List.replicate (c.pgSize - off % c.pgSize -
            (rest.take (c.pgSize - off % c.pgSize)).length) 0xff)
      rw [pageStart_div_blkSize, hblk] at hw
      split
      · exact hw
      · have hr := hw.trans (touch_readPhysPage c env _ (off - off % c.pgSize) ba (ba + 1))
        split
        · exact hr
        · split
          · exact hr
          · refine hr.trans (ih _ _ _ (by omega) ?_)
            rw [List.length_drop]
            have : (rest.take (c.pgSize - off % c.pgSize)).length ≤ rest.length :=
              List.length_take_le' _ _
            omega

lemma touch_writeVerifyData {ni : Inst} {ba : ℕ} {data : List Byte}
    (h : data.length ≤ c.blkSize) :
    Touch c ba (ba + 1) ni (nmbnWriteVerifyData c env ni (c.ba2addr ba) data).2 := by
  refine touch_writeVerifyLoop c env _ _ ba _ _ le_rfl ?_
  rw [Conf.ba2addr, Nat.add_mul, Nat.one_mul]
  omega

lemma blockState_writeVerifyLoop (fuel off : ℕ) (rest : List Byte) (ni : Inst) :
    (nmbnWriteVerifyLoop c env fuel off rest ni).2.blockState = ni.blockState := by
  induction fuel generalizing off rest ni with
  | zero => rfl
  | succ fuel ih =>
    rw [nmbnWriteVerifyLoop]
    split
    · rfl
    · dsimp only
      split
      · rfl
      · split
        · rfl
        · split
          · rfl
          · rw [ih]
            rfl

/-! ## Management data -/

lemma touch_writeMgmtRangeLoop (size k ba : ℕ) (rest : List Byte) (start : ℕ) (ni : Inst) :
    Touch c ba (ba + k) ni (nmbmWriteMgmtRangeLoop c env size k ba rest start ni).2 := by
  induction k generalizing ba rest start ni with
  | zero => exact Touch.refl c _ _ ni
  | succ k ih =>
    have hrest : ∀ rest start ni', Touch c ba (ba + (k + 1)) ni'
        (nmbmWriteMgmtRangeLoop c env size k (ba + 1) rest start ni').2 :=
      fun rest start ni' => (ih (ba + 1) rest start ni').mono (by omega) (by omega)
    rw [nmbmWriteMgmtRangeLoop]
    split
    · exact Touch.refl c _ _ ni
    · split
      · exact hrest _ _ _
      · rename_i hgood
        rw [not_not] at hgood
        have hb := touch_checkBadPhysBlock c env ni ba ba (ba + 1)
        dsimp only
        split
        · exact (hb.trans (touch_setBlockState_bad c hgood)).trans_mono (hrest _ _ _) le_rfl
            (by omega)
        · have he := hb.trans (touch_eraseBlockAndCheck c env _ ba)
          have hg : nmbmGetBlockState (nmbmEraseBlockAndCheck c env
              (nmbmCheckBadPhysBlock env ni ba).2 ba).2 ba = blockStGood := by
            rw [getBlockState_eraseBlockAndCheck]
            exact hgood
          split
          · exact (he.trans (touch_skipBadBlock c env hg)).trans_mono (hrest _ _ _) le_rfl
              (by omega)
          · have hw := he.trans (touch_writeVerifyData c env
              (List.length_take_le c.blkSize rest))
            split
            · refine (hw.trans (touch_skipBadBlock c env ?_)).trans_mono (hrest _ _ _) le_rfl
                (by omega)
              rw [nmbmGetBlockState, nmbnWriteVerifyData, blockState_writeVerifyLoop]
              exact hg
            · exact hw.trans_mono (hrest _ _ _) le_rfl (by omega)

lemma touch_writeMgmtRange (limit : ℕ) (data : List Byte) :
    Touch c ba limit ni (nmbmWriteMgmtRange c env ni ba limit data).2 := by
  rcases Nat.le_total ba limit with h | h
  · have := touch_writeMgmtRangeLoop c env data.length (limit - ba) ba data 0 ni
    rwa [Nat.add_sub_cancel' h] at this
  · rw [nmbmWriteMgmtRange, Nat.sub_eq_zero_of_le h]
    exact Touch.refl c _ _ ni

lemma touch_writeInfoTable (limit : ℕ) :
    Touch c ba limit ni (nmbmWriteInfoTable c env ni ba limit).2 :=
  touch_writeMgmtRange c env ni ba limit _

/-- The start block is fixed by the first chunk; it and the end stay in the range that is left. -/
lemma writeMgmtRangeLoop_bounds {size k ba : ℕ} {rest : List Byte} {start : ℕ} {ni : Inst}
    {s e : ℕ} (h : (nmbmWriteMgmtRangeLoop c env size k ba rest start ni).1 = some (s, e)) :
    ba ≤ e ∧ e ≤ ba + k ∧ (rest ≠ [] → ba < e) ∧
      (rest.length < size → s = start) ∧ (rest.length = size → rest ≠ [] → ba ≤ s ∧ s < e) := by
  induction k generalizing ba rest start ni with
  | zero =>
    rw [nmbmWriteMgmtRangeLoop] at h
    split at h
    · rename_i hr
      simp only [Option.some.injEq, Prod.mk.injEq] at h
      obtain ⟨rfl, rfl⟩ := h
      exact ⟨le_rfl, by omega, fun hne => absurd hr hne, fun _ => rfl, fun _ hne => absurd hr hne⟩
    · exact absurd h (by simp)
  | succ k ih =>
    -- the block `ba` is passed over, whatever that does to the instance
    have hskip : ∀ {ni' : Inst},
        (nmbmWriteMgmtRangeLoop c env size k (ba + 1) rest start ni').1 = some (s, e) →
        ba ≤ e ∧ e ≤ ba + (k + 1) ∧ (rest ≠ [] → ba < e) ∧
          (rest.length < size → s = start) ∧
          (rest.length = size → rest ≠ [] → ba ≤ s ∧ s < e) := by
      intro ni' h'
      obtain ⟨h1, h2, h3, h4, h5⟩ := ih h'
      refine ⟨by omega, by omega, fun _ => by omega, h4, fun hl hne => ?_⟩
      obtain ⟨h6, h7⟩ := h5 hl hne
      exact ⟨by omega, h7⟩
    rw [nmbmWriteMgmtRangeLoop] at h
    split at h
    · rename_i hr
      simp only [Option.some.injEq, Prod.mk.injEq] at h
      obtain ⟨rfl, rfl⟩ := h
      exact ⟨le_rfl, by omega, fun hne => absurd hr hne, fun _ => rfl, fun _ hne => absurd hr hne⟩
    · rename_i hne
      have hpos : 0 < rest.length := List.length_pos_iff.mpr hne
      split at h
      · exact hskip h
      · dsimp only at h
        split at h
        · exact hskip h
        · split at h
          · exact hskip h
          · split at h
            · exact hskip h
            · -- a chunk goes into block `ba`
              obtain ⟨h1, h2, h3, h4, h5⟩ := ih h
              have hdrop : (rest.drop c.blkSize).length < rest.length := by
                rw [List.length_drop]
                have := c.blkSize_pos
                omega
              refine ⟨by omega, by omega, fun _ => by omega, fun hl => ?_, fun hl _ => ?_⟩
              · rw [h4 (by omega), if_neg (by omega)]
              · rw [h4 (by omega), if_pos hl]
                exact ⟨le_rfl, by omega⟩

lemma writeMgmtRange_bounds {ni : Inst} {ba limit : ℕ} {data : List Byte} (hne : data ≠ [])
    {s e : ℕ} (h : (nmbmWriteMgmtRange c env ni ba limit data).1 = some (s, e)) :
    ba ≤ s ∧ s < e ∧ e ≤ limit := by
  obtain ⟨h1, h2, h3, -, h5⟩ := writeMgmtRangeLoop_bounds c env h
  obtain ⟨h6, h7⟩ := h5 rfl hne
  have h8 := h3 hne
  exact ⟨h6, h7, by omega⟩

end Nmbm
