import Mt798x.Bmt.PoolBounds

/-!
# The attachment of BMT v2

When every access of `mtk_bmt_init_v2` to `bbt_buf` stays inside the buffer, and every access of the
calls that follow.  The condition is on what the function finds: the stored table that is taken up,
the bad blocks of the chip and the failures of the driver.

A new table hardly ever fits.  `bufsz` is computed from the size of `bmt_tbl` and leaves out the
`bb_tbl` before it, which reaches into the last page at most; an empty pool and a failed upload use
the index `0xffff` before they test for it.
-/

namespace Bmt.V2

open Guard

variable {c : Conf} {chip : Chip} {drv : Driver} {t : Table}

/-! ## The scan -/

lemma u16_lt (n : ℕ) : u16 n < 2 ^ 16 := Nat.mod_lt _ (by decide)

lemma u16_of_lt {n : ℕ} (h : n < 2 ^ 16) : u16 n = n := Nat.mod_eq_of_lt h

/-- A block that is found is on the chip, and not before the one the search starts with. -/
lemma findValidBlock_bounds {block : ℕ} (h : findValidBlock c chip block ≠ 0) :
    u16 block ≤ findValidBlock c chip block ∧ findValidBlock c chip block < c.totalBlks := by
  have hall : ∀ left block, block < 2 ^ 16 → findValidLoop c chip left block ≠ 0 →
      block ≤ findValidLoop c chip left block ∧ findValidLoop c chip left block < c.totalBlks := by
    intro left
    induction left with
    | zero =>
      intro block _ h
      rw [findValidLoop] at h ⊢
      split_ifs at h ⊢ with h1
      · exact absurd rfl h
      · exact ⟨le_rfl, not_le.mp h1⟩
      · exact absurd rfl h
    | succ left ih =>
      intro block hblock h
      rw [findValidLoop] at h ⊢
      split_ifs at h ⊢ with h1
      · exact absurd rfl h
      · exact ⟨le_rfl, not_le.mp h1⟩
      · have hlt := c.totalBlks_lt
        have hu : u16 (block + 1) = block + 1 := u16_of_lt (by omega)
        rw [hu] at h ⊢
        have := ih (block + 1) (by omega) h
        exact ⟨by omega, this.2⟩
  exact hall c.bbMax (u16 block) (u16_lt block) h

lemma findValidBlock_lt (c : Conf) (chip : Chip) (block : ℕ) :
    findValidBlock c chip block < 2 ^ 16 := by
  by_cases h : findValidBlock c chip block = 0
  · rw [h]
    decide
  · exact (findValidBlock_bounds h).2.trans c.totalBlks_lt

/-- The physical block behind block `i` of the normal data area, as far as one is found for each of
the blocks up to it. -/
def dataBlock (c : Conf) (chip : Chip) : ℕ → ℕ
  | 0 => 0
  | i + 1 => findValidBlock c chip (dataBlock c chip i + 1)

/-- The normal data area has a good block for each of its blocks. -/
def DataFits (c : Conf) (chip : Chip) : Prop :=
  ∀ i, 1 ≤ i → i < c.poolLba → dataBlock c chip i ≠ 0

/-- Where the pool starts on the chip. -/
def poolPba (c : Conf) (chip : Chip) : ℕ := u16 (dataBlock c chip (c.poolLba - 1) + 1)

/-- Where the search for the `n`-th block of the pool starts. -/
def poolFrom (c : Conf) (chip : Chip) : ℕ → ℕ
  | 0 => poolPba c chip
  | n + 1 => u16 (findValidBlock c chip (poolFrom c chip n) + 1)

/-- The `n`-th good block of the pool, 0 when there are no more. -/
def poolBlock (c : Conf) (chip : Chip) (n : ℕ) : ℕ := findValidBlock c chip (poolFrom c chip n)

/-- The scan makes an entry `n`. -/
def HasEntry (c : Conf) (chip : Chip) (n : ℕ) : Prop := ∀ j ≤ n, poolBlock c chip j ≠ 0

lemma dataBlock_lt (c : Conf) (chip : Chip) (i : ℕ) : dataBlock c chip i < 2 ^ 16 := by
  cases i with
  | zero => exact Nat.two_pow_pos 16
  | succ i => exact findValidBlock_lt c chip _

lemma le_dataBlock (c : Conf) (chip : Chip) (i : ℕ)
    (h : ∀ j, 1 ≤ j → j ≤ i → dataBlock c chip j ≠ 0) :
    i ≤ dataBlock c chip i ∧ (dataBlock c chip i < c.totalBlks ∨ i = 0) := by
  induction i with
  | zero => exact ⟨le_rfl, .inr rfl⟩
  | succ i ih =>
    have hi := ih fun j h1 h2 => h j h1 (by omega)
    have hb := findValidBlock_bounds (h (i + 1) (by omega) le_rfl)
    have hlt := c.totalBlks_lt
    have hu : dataBlock c chip i + 1 < 2 ^ 16 := by
      rcases hi.2 with h' | rfl
      · omega
      · simp [dataBlock]
    rw [u16_of_lt hu] at hb
    exact ⟨by rw [dataBlock]; omega, .inl hb.2⟩

/-- The table that is built fits: the cleared entries and the first numbers of `bb_tbl`. -/
def ClearInside (c : Conf) : Prop := 8 ≤ c.bufsz ∧ 4 + 2 * c.tableSize + c.tableSize * 4 ≤ c.bufsz

/-- The chip is not too large for the tables. -/
def Supported (c : Conf) : Prop := c.totalBlks ≤ (c.tableSize + c.bmtTableMax) % 2 ^ 32

instance (c : Conf) : Decidable (Supported c) := inferInstanceAs (Decidable (_ ≤ _))

lemma bufsz_lt (c : Conf) : c.bufsz < 2 ^ 32 := Nat.mod_lt _ (by decide)

/-- The normal data area of a supported chip has its place in a buffer with room for the cleared
entries. -/
lemma fits_of_le (hc : ClearInside c) (hs : Supported c) {i : ℕ} (hi : i ≤ c.totalBlks ∨ i ≤ 1) :
    c.Fits i := by
  obtain ⟨h8, hclear⟩ := hc
  have hbuf := bufsz_lt c
  simp only [Supported, Conf.bmtTableMax] at hs
  simp only [Conf.Fits, wordEnd]
  -- a table size that passes is so small that nothing wraps
  rw [Nat.mod_eq_of_lt (show c.tableSize * 2 < 2 ^ 32 by omega), Nat.mod_eq_of_lt (by omega)] at hs
  rcases Nat.eq_zero_or_pos c.tableSize with h0 | hpos
  · omega
  · omega

/-- The loop over the normal data area: it finds a block for each index, or returns an error at the
first index without one. -/
lemma scanMain_cases (hc : ClearInside c) (hs : Supported c) (chip : Chip) (k i : ℕ) (t : Table)
    (hi : 1 ≤ i)
    (ht : (t.word (i - 1)).toNat = dataBlock c chip (i - 1))
    (hpast : ∀ j, 1 ≤ j → j < i → dataBlock c chip j ≠ 0) :
    (∃ t', scanMain c chip k i t = .ok (some t') ∧
      (t'.word (i + k - 1)).toNat = dataBlock c chip (i + k - 1) ∧
      ∀ j, 1 ≤ j → j < i + k → dataBlock c chip j ≠ 0) ∨
    scanMain c chip k i t = .ok none ∧ ∃ j, 1 ≤ j ∧ j < i + k ∧ dataBlock c chip j = 0 := by
  induction k generalizing i t with
  | zero => exact .inl ⟨t, rfl, ht, hpast⟩
  | succ k ih =>
    -- the index is at most the number of blocks, since a block is not before its place
    have hplace := le_dataBlock c chip (i - 1)
      fun j h1 h2 => hpast j h1 (by omega)
    have hfits : c.Fits i := fits_of_le hc hs (by omega)
    have hdata : findValidBlock c chip ((t.word (i - 1)).toNat + 1) = dataBlock c chip i := by
      rw [ht, ← dataBlock, Nat.succ_eq_add_one, Nat.sub_add_cancel hi]
    have hword : (((t.set i (dataBlock c chip i)).word i)).toNat = dataBlock c chip i := by
      rw [Table.word_set_self]
      exact UInt16.toNat_ofNat_of_lt' (dataBlock_lt c chip i)
    rw [scanMain, readWord_eq (hfits.mono (Nat.sub_le i 1)), ok_bind, hdata, writeWord_eq hfits,
      ok_bind, readWord_eq hfits, ok_bind, hword]
    split
    · next h0 => exact .inr ⟨rfl, i, hi, by omega, h0⟩
    · next h0 =>
      rw [show i + (k + 1) = i + 1 + k by omega]
      refine ih (i + 1) _ (by omega) hword fun j h1 h2 => ?_
      rcases Nat.lt_succ_iff_lt_or_eq.mp h2 with hlt | rfl
      · exact hpast j h1 hlt
      · exact h0

lemma poolFrom_lt (c : Conf) (chip : Chip) (n : ℕ) : poolFrom c chip n < 2 ^ 16 := by
  cases n with
  | zero => exact u16_lt _
  | succ n => exact u16_lt _

lemma le_poolBlock {n : ℕ} (h : HasEntry c chip n) :
    n ≤ poolBlock c chip n ∧ poolBlock c chip n < c.totalBlks := by
  induction n with
  | zero => exact ⟨Nat.zero_le _, (findValidBlock_bounds (h 0 le_rfl)).2⟩
  | succ n ih =>
    have hn := ih fun j hj => h j (by omega)
    have hb := findValidBlock_bounds (h (n + 1) le_rfl)
    have hlt := c.totalBlks_lt
    rw [u16_of_lt (poolFrom_lt c chip (n + 1)), poolFrom] at hb
    rw [← poolBlock, u16_of_lt (by omega)] at hb
    exact ⟨by rw [poolBlock, poolFrom, ← poolBlock, u16_of_lt (by omega)]; omega,
      by rw [poolBlock, poolFrom, ← poolBlock, u16_of_lt (by omega)]; exact hb.2⟩

lemma poolBlock_eq_zero (c : Conf) (chip : Chip) : ∃ n, poolBlock c chip n = 0 := by
  by_contra h
  have hall : HasEntry c chip c.totalBlks := fun j _ hj => h ⟨j, hj⟩
  have := le_poolBlock hall
  omega

/-- The number of good blocks in the pool. -/
def poolCount (c : Conf) (chip : Chip) : ℕ := Nat.find (poolBlock_eq_zero c chip)

lemma poolBlock_poolCount (c : Conf) (chip : Chip) : poolBlock c chip (poolCount c chip) = 0 :=
  Nat.find_spec (poolBlock_eq_zero c chip)

lemma hasEntry_iff {n : ℕ} : HasEntry c chip n ↔ n < poolCount c chip := by
  constructor
  · intro h
    by_contra hn
    exact h _ (not_lt.mp hn) (poolBlock_poolCount c chip)
  · intro h j hj h0
    exact Nat.find_min (poolBlock_eq_zero c chip) (lt_of_le_of_lt hj h) h0

lemma scanPool_succ (fuel n : ℕ) (t : Table) (h : poolBlock c chip n ≠ 0) :
    scanPool c chip (fuel + 1) (poolFrom c chip n) n t = (do
      let t ← writeWord c t (c.blockOf n) (poolBlock c chip n)
      let t ← writeWord c t (c.mappedOf n) 0
      scanPool c chip fuel (poolFrom c chip (n + 1)) (n + 1) t) := by
  rw [scanPool]
  exact if_neg h

/-- The first `n` entries name the good blocks of the pool and are free. -/
def Entered (c : Conf) (chip : Chip) (n : ℕ) (t : Table) : Prop :=
  ∀ j < n, t.block c j = poolBlock c chip j ∧ t.mapped c j = 0

lemma Entered.succ {n : ℕ} (h : Entered c chip n t) : Entered c chip (n + 1)
    ((t.set (c.blockOf n) (poolBlock c chip n)).set (c.mappedOf n) 0) := by
  intro j hj
  rw [Table.block_set_mappedOf, Table.block_set_blockOf, Table.mapped_set_mappedOf,
    Table.mapped_set_blockOf]
  split
  · next hjn =>
    rw [hjn]
    exact ⟨UInt16.toNat_ofNat_of_lt' (findValidBlock_lt c chip _), rfl⟩
  · exact h j (by omega)

lemma scanPool_cases (hfits : ∀ n < poolCount c chip, c.Fits (c.mappedOf n)) (fuel n : ℕ)
    (t : Table) (hn : n ≤ poolCount c chip) (ht : Entered c chip n t) :
    (fuel ≤ poolCount c chip - n ∧ scanPool c chip fuel (poolFrom c chip n) n t = .error .endless) ∨
    ∃ t', scanPool c chip fuel (poolFrom c chip n) n t = .ok (poolCount c chip, t') ∧
      Entered c chip (poolCount c chip) t' := by
  induction fuel generalizing n t with
  | zero => exact .inl ⟨Nat.zero_le _, rfl⟩
  | succ fuel ih =>
    rcases Nat.eq_or_lt_of_le hn with rfl | hlt
    · refine .inr ⟨t, ?_, ht⟩
      rw [scanPool]
      exact if_pos (poolBlock_poolCount c chip)
    · rw [scanPool_succ fuel n t (hasEntry_iff.mpr hlt n le_rfl), writeWord_eq (hfits n hlt).block,
        ok_bind, writeWord_eq (hfits n hlt), ok_bind]
      refine (ih (n + 1) _ hlt ht.succ).imp (fun h => ⟨by omega, h.2⟩) fun h => h

lemma inside_scanPool_of_add (d fuel n : ℕ) (t : Table)
    (h : Inside (scanPool c chip (fuel + d) (poolFrom c chip n) n t)) :
    Inside (scanPool c chip fuel (poolFrom c chip n) n t) := by
  induction fuel generalizing n t with
  | zero => exact inside_endless
  | succ fuel ih =>
    by_cases h0 : poolBlock c chip n = 0
    · rw [scanPool, if_pos (show findValidBlock c chip (poolFrom c chip n) = 0 from h0)]
      exact inside_ok _
    · rw [Nat.succ_add, scanPool_succ _ n t h0, inside_writeWord, inside_writeWord] at h
      rw [scanPool_succ _ n t h0, inside_writeWord, inside_writeWord]
      exact ⟨h.1, h.2.1, ih (n + 1) _ h.2.2⟩

lemma fits_of_scanPool (t : Table)
    (h : ∀ fuel, Inside (scanPool c chip fuel (poolPba c chip) 0 t)) :
    ∀ n < poolCount c chip, c.Fits (c.mappedOf n) := by
  intro n hn
  have hreach : ∃ t', ∀ fuel, Inside (scanPool c chip fuel (poolFrom c chip n) n t') := by
    induction n with
    | zero => exact ⟨t, h⟩
    | succ n ih =>
      obtain ⟨t', ht'⟩ := ih (by omega)
      refine ⟨(t'.set (c.blockOf n) (poolBlock c chip n)).set (c.mappedOf n) 0, fun fuel => ?_⟩
      have hone := ht' (fuel + 1)
      rw [scanPool_succ fuel n t' (hasEntry_iff.mpr hn n (Nat.le_succ n)), inside_writeWord,
        inside_writeWord] at hone
      exact hone.2.2
  obtain ⟨t', ht'⟩ := hreach
  have hone := ht' 1
  rw [scanPool_succ 0 n t' (hasEntry_iff.mpr hn n le_rfl), inside_writeWord,
    inside_writeWord] at hone
  exact hone.2.1

/-! ## A new table -/

lemma four_dvd_bufsz (c : Conf) : 4 ∣ c.bufsz := by
  have hround : Conf.roundUp (4 + c.tableSize * 4) c.pgSize % 4 = 0 := by
    have hor : (3 ||| ((c.pgSize - 1) % 4)) = 3 := by
      have hlt : (c.pgSize - 1) % 4 < 4 := Nat.mod_lt _ (by decide)
      interval_cases (c.pgSize - 1) % 4 <;> rfl
    have hmod : ((4 + c.tableSize * 4 - 1) ||| (c.pgSize - 1)) % 2 ^ 2 = 3 := by
      rw [Nat.or_mod_two_pow, show (4 + c.tableSize * 4 - 1) % 2 ^ 2 = 3 by omega]
      exact hor
    rw [Conf.roundUp]
    omega
  rw [Conf.bufsz]
  omega

/-- The memory that a new table needs.  Without room for the pool nothing is entered in it. -/
def BuildInside (c : Conf) (chip : Chip) (drv : Driver) : Prop :=
  ClearInside c ∧ (DataFits c chip → poolPba c chip + 2 < c.totalBlks →
    (∀ n < poolCount c chip, c.Fits (c.mappedOf n)) ∧
    (poolCount c chip = 0 → c.Fits (c.mappedOf 0xffff)) ∧
    (0 < poolCount c chip → (∀ n < poolCount c chip, drv.Fails n (poolBlock c chip n)) →
      c.Fits (c.blockOf 0xffff)))

/-- The scan of the normal data area: it leaves room for a pool, or returns an error. -/
lemma scanBadBlocks_cases (hc : ClearInside c) (hs : Supported c) (chip : Chip) (t : Table) :
    ((∃ t', ∀ fuel, scanBadBlocks c chip fuel t =
        scanPool c chip fuel (poolPba c chip) 0 t' >>= fun r => markTable c r.1 r.2) ∧
      DataFits c chip ∧ poolPba c chip + 2 < c.totalBlks) ∨
    (∀ fuel, scanBadBlocks c chip fuel t = .ok none) ∧
      (DataFits c chip → ¬ poolPba c chip + 2 < c.totalBlks) := by
  have hzero : c.Fits 0 := fits_of_le hc hs (.inr (Nat.zero_le 1))
  have hlast : 1 + (c.poolLba - 1) - 1 = c.poolLba - 1 := by omega
  have hmain := scanMain_cases hc hs chip (c.poolLba - 1) 1 (t.set 0 0) le_rfl
    (by rw [Table.word_set_self]; rfl) fun j h1 h2 => absurd h2 (by omega)
  rw [hlast] at hmain
  rcases hmain with ⟨t', heq, hword, hall⟩ | ⟨heq, j, h1, h2, h0⟩
  · have hdata : DataFits c chip := fun i h1 h2 => hall i h1 (by omega)
    have hfits : c.Fits (c.poolLba - 1) := by
      have := le_dataBlock c chip (c.poolLba - 1)
        fun j h1 h2 => hall j h1 (by omega)
      exact fits_of_le hc hs (by omega)
    have hpba : u16 ((t'.word (c.poolLba - 1)).toNat + 1) = poolPba c chip := by rw [hword, poolPba]
    have hscan : ∀ fuel, scanBadBlocks c chip fuel t =
        if poolPba c chip + 2 ≥ c.totalBlks then .ok none
        else scanPool c chip fuel (poolPba c chip) 0 t' >>= fun r => markTable c r.1 r.2 := by
      intro fuel
      rw [scanBadBlocks, writeWord_eq hzero, ok_bind, heq, ok_bind]
      dsimp only
      rw [readWord_eq hfits, ok_bind, hpba]
      rfl
    by_cases hroom : poolPba c chip + 2 ≥ c.totalBlks
    · refine .inr ⟨fun fuel => ?_, fun _ => not_lt.mpr hroom⟩
      rw [hscan fuel, if_pos hroom]
    · refine .inl ⟨⟨t', fun fuel => ?_⟩, hdata, not_le.mp hroom⟩
      rw [hscan fuel, if_neg hroom]
  · refine .inr ⟨fun fuel => ?_, fun hdata => absurd h0 (hdata j h1 (by omega))⟩
    rw [scanBadBlocks, writeWord_eq hzero, ok_bind, heq]
    rfl

lemma inside_storeNew {n : ℕ} (hfits : ∀ j < n + 1, c.Fits (c.mappedOf j)) (b : ℕ → ℕ)
    (hb : ∀ j < n + 1, t.block c j = b j) (hm : ∀ j < n + 1, t.mapped c j ≠ 1) :
    Inside (storeNew c drv t n) ↔
      ((∀ j < n + 1, drv.Fails j (b j)) → c.Fits (c.blockOf 0xffff)) := by
  obtain ⟨r, s, heq, hr⟩ := uploadBmt_fresh drv b (n + 1) t hfits hb hm
  have hread : Inside (storeNew c drv t n) ↔ c.Fits (c.blockOf r) := by
    rw [storeNew, heq, ok_bind]
    dsimp only
    rw [inside_readWord]
    refine and_iff_left ?_
    split <;> exact inside_ok _
  rw [hread]
  rcases hr with ⟨hlt, hnot⟩ | ⟨rfl, hall⟩
  · exact ⟨fun _ h => absurd (h r hlt) hnot, fun _ => (hfits r hlt).block⟩
  · exact ⟨fun h _ => h, fun h => h hall⟩

/-- The end of the build, from the entries of the pool on. -/
lemma inside_markTable {n : ℕ} (hfits : ∀ j < n, c.Fits (c.mappedOf j)) (hn : n < 2 ^ 16)
    (ht : Entered c chip n t) :
    Inside (markTable c n t >>= fun r =>
        match r with
        | none => pure none
        | some (t, idx) => storeNew c drv t idx) ↔
      (n = 0 → c.Fits (c.mappedOf 0xffff)) ∧
        (0 < n → (∀ j < n, drv.Fails j (poolBlock c chip j)) → c.Fits (c.blockOf 0xffff)) := by
  cases n with
  | zero =>
    rw [markTable, bind_assoc, inside_writeWord]
    simp [u16]
  | succ n =>
    have hidx : u16 (n + 1 + (2 ^ 16 - 1)) = n := by
      simp only [u16]
      omega
    rw [markTable, hidx, writeWord_eq (hfits n (Nat.lt_succ_self n)), ok_bind,
      if_neg (show ¬ n + 1 < 1 by omega), pure_bind]
    dsimp only
    rw [inside_storeNew hfits (poolBlock c chip)]
    · simp
    · intro j hj
      rw [Table.block_set_mappedOf]
      exact (ht j hj).1
    · intro j hj
      rw [Table.mapped_set_mappedOf]
      split
      · decide
      · rw [(ht j hj).2]
        decide

lemma poolCount_lt (c : Conf) (chip : Chip) : poolCount c chip < 2 ^ 16 := by
  have hlt := c.totalBlks_lt
  rcases Nat.eq_zero_or_pos (poolCount c chip) with h0 | hpos
  · rw [h0]
    decide
  · have := le_poolBlock (hasEntry_iff.mpr (Nat.sub_lt hpos Nat.one_pos))
    omega

/-- The branch without a stored table stays inside the buffer if and only if it has the memory.
Any amount `d` of fuel may be used up before. -/
lemma inside_buildNew (hs : Supported c) (d : ℕ) (t : Table) :
    (∀ fuel, Inside (buildNew c chip drv (fuel + d) t)) ↔ BuildInside c chip drv := by
  have hopen : ∀ fuel, buildNew c chip drv fuel t = clearTbl c t >>= fun t =>
      scanBadBlocks c chip fuel t >>= fun r =>
        match r with
        | none => pure none
        | some (t, idx) => storeNew c drv t idx := fun fuel => if_neg (not_lt.mpr hs)
  have hclear : ClearInside c → ∃ t', clearTbl c t = .ok t' := by
    rintro ⟨-, hcl⟩
    rw [clearTbl, touch_eq hcl]
    split <;> exact ⟨_, rfl⟩
  -- the scan after the clearing, with the loop over the pool for every amount of fuel
  have hrest : ClearInside c → ((∀ fuel, Inside (buildNew c chip drv (fuel + d) t)) ↔
      BuildInside c chip drv) := by
    intro hc
    obtain ⟨t1, ht1⟩ := hclear hc
    rw [BuildInside, and_iff_right hc]
    rcases scanBadBlocks_cases hc hs chip t1 with ⟨⟨t2, hscan⟩, hdata, hroom⟩ | ⟨hscan, hno⟩
    · have hbody : ∀ fuel, buildNew c chip drv fuel t =
          scanPool c chip fuel (poolPba c chip) 0 t2 >>= fun r => markTable c r.1 r.2 >>= fun r =>
            match r with
            | none => pure none
            | some (t, idx) => storeNew c drv t idx := by
        intro fuel
        rw [hopen fuel, ht1, ok_bind, hscan fuel, bind_assoc]
      have hpool : (∀ n < poolCount c chip, c.Fits (c.mappedOf n)) →
          ∀ fuel, (fuel ≤ poolCount c chip ∧
            scanPool c chip fuel (poolPba c chip) 0 t2 = .error .endless) ∨
          ∃ t', scanPool c chip fuel (poolPba c chip) 0 t2 = .ok (poolCount c chip, t') ∧
            Entered c chip (poolCount c chip) t' := fun hfits fuel =>
        scanPool_cases hfits fuel 0 t2 (Nat.zero_le _) fun j hj => absurd hj (Nat.not_lt_zero j)
      constructor
      · intro h _ _
        have hfits : ∀ n < poolCount c chip, c.Fits (c.mappedOf n) := fits_of_scanPool t2 fun fuel => by
          have hf := h fuel
          rw [hbody] at hf
          exact inside_scanPool_of_add d fuel 0 t2 ((inside_bind _ _).mp hf).1
        refine ⟨hfits, ?_⟩
        rcases hpool hfits (poolCount c chip + 1 + d) with ⟨hle, -⟩ | ⟨t3, heq, hent⟩
        · omega
        · have hf := h (poolCount c chip + 1)
          rw [hbody, heq, ok_bind] at hf
          exact (inside_markTable hfits (poolCount_lt c chip) hent).mp hf
      · intro h fuel
        obtain ⟨hfits, hend⟩ := h hdata hroom
        rw [hbody]
        rcases hpool hfits (fuel + d) with ⟨-, heq⟩ | ⟨t3, heq, hent⟩
        · rw [heq]
          exact inside_endless
        · rw [heq, ok_bind]
          exact (inside_markTable hfits (poolCount_lt c chip) hent).mpr hend
    · refine ⟨fun _ hdata hroom => absurd hroom (hno hdata), fun _ fuel => ?_⟩
      rw [hopen, ht1, ok_bind, hscan]
      exact inside_ok _
  refine ⟨fun h => ?_, fun h => (hrest h.1).mpr h⟩
  -- what is cleared and the first number that is written have to be in the buffer
  have hc : ClearInside c := by
    have h1 := h 0
    have hdvd := four_dvd_bufsz c
    rw [hopen, clearTbl] at h1
    split at h1
    · next h0 =>
      rw [pure_bind, scanBadBlocks, bind_assoc, inside_writeWord] at h1
      have h6 : 4 + 2 * 0 + 2 ≤ c.bufsz := h1.1
      refine ⟨by omega, by omega⟩
    · next h0 =>
      rw [bind_assoc, inside_touch_bind] at h1
      exact ⟨by omega, h1.1⟩
  exact (hrest hc).mp h

/-! ## The search for a stored table -/

/-- The blocks in the order in which they are tried. -/
def candidate (c : Conf) : ℕ → ℕ
  | 0 => u16 (c.totalBlks + (2 ^ 16 - 1))
  | k + 1 => u16 (candidate c k + (2 ^ 16 - 1))

/-- What is read of the `k`-th block. -/
def readAt (c : Conf) (chip : Chip) (k : ℕ) : TableRead := chip.table (candidate c k)

/-- The read holds a table, by its signatures. -/
def TableRead.Valid (r : TableRead) : Prop := r.failed = false ∧ isValidBmt r.buf r.fdm = true

/-- The search comes to the `k`-th block. -/
def Reached (c : Conf) (chip : Chip) (k : ℕ) : Prop :=
  ∀ j < k, c.poolLba ≤ candidate c j ∧ ¬ (readAt c chip j).Valid

/-- Each block in the pool that the search comes to is read into a buffer with room for the
signature; the entries of a table found there end inside the buffer. -/
def SearchInside (c : Conf) (chip : Chip) : Prop :=
  ∀ k, Reached c chip k → c.poolLba ≤ candidate c k → (readAt c chip k).failed = false →
    4 ≤ c.bufsz ∧ ((readAt c chip k).Valid → IndexInside c (readAt c chip k).buf)

/-- The search ends without a table: below the pool, or at a table whose index is 0. -/
def NoTable (c : Conf) (chip : Chip) : Prop :=
  ∃ k, Reached c chip k ∧ (candidate c k < c.poolLba ∨
    c.poolLba ≤ candidate c k ∧ (readAt c chip k).Valid ∧ IndexZero c (readAt c chip k).buf)

lemma Reached.succ {k : ℕ} (h : Reached c chip k) (hpool : c.poolLba ≤ candidate c k)
    (hno : ¬ (readAt c chip k).Valid) : Reached c chip (k + 1) := by
  intro j hj
  rcases Nat.lt_succ_iff_lt_or_eq.mp hj with hlt | rfl
  · exact h j hlt
  · exact ⟨hpool, hno⟩

lemma searchBmt_skip {k : ℕ} (hpool : c.poolLba ≤ candidate c k) (hno : ¬ (readAt c chip k).Valid)
    (hroom : (readAt c chip k).failed = false → 4 ≤ c.bufsz) (fuel : ℕ) (t : Table) :
    searchBmt c chip (fuel + 1) (candidate c k) t =
      searchBmt c chip fuel (candidate c (k + 1)) (readAt c chip k).buf := by
  rw [searchBmt, if_neg (not_lt.mpr hpool)]
  change (if (readAt c chip k).failed = true then _ else _) = _
  split
  · rfl
  · next hf =>
    have hf' : (readAt c chip k).failed = false := by simpa using hf
    have hv : isValidBmt (readAt c chip k).buf (readAt c chip k).fdm = false := by
      by_contra hv
      exact hno ⟨hf', by simpa using hv⟩
    rw [touch_eq (hroom hf'), ok_bind]
    change (if (!isValidBmt (readAt c chip k).buf (readAt c chip k).fdm) = true then _ else _) = _
    rw [hv]
    rfl

lemma searchBmt_valid {k : ℕ} (hpool : c.poolLba ≤ candidate c k) (hv : (readAt c chip k).Valid)
    (fuel : ℕ) (t : Table) : searchBmt c chip (fuel + 1) (candidate c k) t = (do
      touch c.bufsz 4
      let idx ← getBmtIndex c (readAt c chip k).buf fuel 0
      if idx = 0 then pure (none, (readAt c chip k).buf)
      else pure (some idx, (readAt c chip k).buf)) := by
  rw [searchBmt, if_neg (not_lt.mpr hpool)]
  change (if (readAt c chip k).failed = true then _ else _) = _
  rw [if_neg (by rw [hv.1]; decide)]
  change (touch c.bufsz 4 >>= fun _ =>
    if (!isValidBmt (readAt c chip k).buf (readAt c chip k).fdm) = true then _ else _) = _
  rw [hv.2]
  rfl

lemma searchBmt_reached {k : ℕ} (h : Reached c chip k)
    (hroom : ∀ j < k, (readAt c chip j).failed = false → 4 ≤ c.bufsz) (t : Table) :
    ∃ t', ∀ fuel, searchBmt c chip (fuel + k) (candidate c 0) t =
      searchBmt c chip fuel (candidate c k) t' := by
  induction k with
  | zero => exact ⟨t, fun fuel => rfl⟩
  | succ k ih =>
    obtain ⟨t', ht'⟩ := ih (fun j hj => h j (by omega)) fun j hj => hroom j (by omega)
    obtain ⟨hpool, hno⟩ := h k (Nat.lt_succ_self k)
    refine ⟨(readAt c chip k).buf, fun fuel => ?_⟩
    rw [← searchBmt_skip hpool hno (hroom k (Nat.lt_succ_self k)) fuel t', ← ht' (fuel + 1)]
    congr 1
    omega

lemma searchBmt_cases (h : SearchInside c chip) (fuel k : ℕ) (t : Table) (hk : Reached c chip k) :
    searchBmt c chip fuel (candidate c k) t = .error .endless ∨
      ∃ r, searchBmt c chip fuel (candidate c k) t = .ok r ∧ (r.1 = none → NoTable c chip) := by
  induction fuel generalizing k t with
  | zero => exact .inl rfl
  | succ fuel ih =>
    rcases lt_or_ge (candidate c k) c.poolLba with hlt | hpool
    · refine .inr ⟨(none, t), ?_, fun _ => ⟨k, hk, .inl hlt⟩⟩
      rw [searchBmt, if_pos hlt]
      rfl
    · by_cases hv : (readAt c chip k).Valid
      · obtain ⟨h4, hindex⟩ := h k hk hpool hv.1
        rw [searchBmt_valid hpool hv, touch_eq h4, ok_bind]
        rcases getBmtIndex_cases (hindex hv) fuel 0 fun j hj => absurd hj (Nat.not_lt_zero j) with
          heq | ⟨idx, heq, hzero⟩
        · rw [heq]
          exact .inl rfl
        · rw [heq, ok_bind]
          split
          · next h0 => exact .inr ⟨_, rfl, fun _ => ⟨k, hk, .inr ⟨hpool, hv, hzero h0⟩⟩⟩
          · exact .inr ⟨_, rfl, fun hnone => by cases hnone⟩
      · rw [searchBmt_skip hpool hv fun hf => (h k hk hpool hf).1]
        exact ih (k + 1) _ (hk.succ hpool hv)

/-- A search that stays inside the buffer finds what it needs there. -/
lemma searchInside_of_inside (t : Table)
    (h : ∀ fuel, Inside (searchBmt c chip fuel (candidate c 0) t)) : SearchInside c chip := by
  intro k
  induction k using Nat.strong_induction_on with
  | _ k ih =>
    intro hk hpool hf
    have hroom : ∀ j < k, (readAt c chip j).failed = false → 4 ≤ c.bufsz := fun j hj hfj =>
      (ih j hj (fun i hi => hk i (by omega)) (hk j hj).1 hfj).1
    obtain ⟨t', ht'⟩ := searchBmt_reached hk hroom t
    have hat : ∀ fuel, Inside (searchBmt c chip fuel (candidate c k) t') := fun fuel => by
      rw [← ht' fuel]
      exact h (fuel + k)
    have h4 : 4 ≤ c.bufsz := by
      have hone := hat 1
      rw [searchBmt, if_neg (not_lt.mpr hpool)] at hone
      change Inside (if (readAt c chip k).failed = true then _ else _) at hone
      rw [if_neg (by rw [hf]; decide), inside_touch_bind] at hone
      exact hone.1
    refine ⟨h4, fun hv => inside_getBmtIndex.mp fun fuel => ?_⟩
    have hnext := hat (fuel + 1)
    rw [searchBmt_valid hpool hv, inside_touch_bind] at hnext
    exact ((inside_bind _ _).mp hnext.2).1

/-! ## The attachment and the calls that follow -/

/-- What `mtk_bmt_init_v2` needs of the buffer. -/
def InitInside (c : Conf) (chip : Chip) (drv : Driver) : Prop :=
  SearchInside c chip ∧ (NoTable c chip → Supported c → BuildInside c chip drv)

lemma mtkBmtInitV2_of_search {fuel : ℕ} {t : Table}
    (h : searchBmt c chip fuel (candidate c 0) blankTable = .ok (none, t)) :
    mtkBmtInitV2 c chip drv fuel = buildNew c chip drv fuel t := by
  rw [mtkBmtInitV2, ← candidate, h]
  rfl

/-- Without a table, the search ends with the same buffer for all large amounts of fuel. -/
lemma searchBmt_none (hs : SearchInside c chip) (hno : NoTable c chip) :
    ∃ d t, ∀ fuel, searchBmt c chip (fuel + d) (candidate c 0) blankTable = .ok (none, t) := by
  obtain ⟨k, hk, hend⟩ := hno
  have hroom : ∀ j < k, (readAt c chip j).failed = false → 4 ≤ c.bufsz := fun j hj hf =>
    (hs j (fun i hi => hk i (by omega)) (hk j hj).1 hf).1
  obtain ⟨t, ht⟩ := searchBmt_reached hk hroom blankTable
  rcases hend with hbelow | ⟨hpool, hv, hzero⟩
  · refine ⟨1 + k, t, fun fuel => ?_⟩
    rw [← Nat.add_assoc, ht, searchBmt, if_pos hbelow]
    rfl
  · obtain ⟨h4, hindex⟩ := hs k hk hpool hv.1
    obtain ⟨n, hn⟩ := getBmtIndex_eq_zero (hindex hv) hzero
    refine ⟨n + 1 + k, (readAt c chip k).buf, fun fuel => ?_⟩
    rw [← Nat.add_assoc, ht, ← Nat.add_assoc, searchBmt_valid hpool hv, touch_eq h4, ok_bind, hn,
      ok_bind, if_pos rfl]
    rfl

/-- The attachment stays inside the buffer, whatever fuel it has, if and only if the buffer has
what it needs. -/
lemma inside_mtkBmtInitV2 :
    (∀ fuel, Inside (mtkBmtInitV2 c chip drv fuel)) ↔ InitInside c chip drv := by
  constructor
  · intro h
    have hs : SearchInside c chip := searchInside_of_inside blankTable fun fuel =>
      ((inside_bind _ _).mp (h fuel)).1
    refine ⟨hs, fun hno hsup => ?_⟩
    obtain ⟨d, t, ht⟩ := searchBmt_none hs hno
    refine (inside_buildNew hsup d t).mp fun fuel => ?_
    rw [← mtkBmtInitV2_of_search (ht fuel)]
    exact h (fuel + d)
  · rintro ⟨hs, hbuild⟩ fuel
    rw [mtkBmtInitV2]
    rcases searchBmt_cases hs fuel 0 blankTable fun j hj => absurd hj (Nat.not_lt_zero j) with
      heq | ⟨⟨found, t⟩, heq, hno⟩
    · rw [← candidate, heq]
      exact inside_endless
    · rw [← candidate, heq, ok_bind]
      cases found with
      | some idx => exact inside_ok _
      | none =>
        by_cases hsup : Supported c
        · exact (inside_buildNew hsup 0 t).mpr (hbuild (hno rfl) hsup) fuel
        · change Inside (buildNew c chip drv fuel t)
          rw [buildNew, if_pos (not_le.mp hsup)]
          exact inside_ok _

/-- No access to the buffer in an attachment and the calls that follow is outside of it. -/
def TableInside (c : Conf) (chip : Chip) (drv : Driver) (calls : List Call) : Prop :=
  ∀ fuel, Inside (session c chip drv fuel calls)

/-- The accesses stay inside the buffer if and only if the attachment has the memory it needs, and
the table before each call that of the call. -/
theorem tableInside_iff (c : Conf) (chip : Chip) (drv : Driver) (calls : List Call) :
    TableInside c chip drv calls ↔ InitInside c chip drv ∧
      ∀ fuel s, mtkBmtInitV2 c chip drv fuel = .ok (some s) →
        Runs.AllSteps (next c) (CallInside c) s calls := by
  rw [← inside_mtkBmtInitV2, ← forall_and]
  refine forall_congr' fun fuel => ?_
  rw [session, inside_bind]
  refine and_congr_right fun _ => ?_
  constructor
  · intro h s hs
    have hcalls := h (some s) hs
    dsimp only at hcalls
    exact (inside_calls s calls).mp ((inside_bind _ _).mp hcalls).1
  · intro h r hr
    cases r with
    | none => exact inside_ok _
    | some s =>
      dsimp only
      rw [inside_bind]
      exact ⟨(inside_calls s calls).mpr (h s hr), fun _ _ => inside_ok _⟩

/-! ## The default table size -/

lemma or_le_add (a b : ℕ) : a ||| b ≤ a + b := by
  induction a using Nat.strong_induction_on generalizing b with
  | _ a ih =>
    rcases Nat.eq_zero_or_pos a with rfl | hpos
    · rw [Nat.zero_or, Nat.zero_add]
    · have hhalf := ih (a / 2) (Nat.div_lt_self hpos (by decide)) (b / 2)
      have hodd : (a ||| b) % 2 = 1 ↔ a % 2 = 1 ∨ b % 2 = 1 := Nat.or_mod_two_eq_one
      rw [← Nat.or_div_two] at hhalf
      omega

lemma not_clearInside (hpos : 0 < c.tableSize) (h : c.pgSize ≤ 2 * c.tableSize) :
    ¬ ClearInside c := by
  rintro ⟨-, hclear⟩
  have hround : Conf.roundUp (4 + c.tableSize * 4) c.pgSize ≤
      4 + c.tableSize * 4 + (c.pgSize - 1) := by
    have := or_le_add (4 + c.tableSize * 4 - 1) (c.pgSize - 1)
    rw [Conf.roundUp]
    omega
  have hbuf : c.bufsz ≤ Conf.roundUp (4 + c.tableSize * 4) c.pgSize := Nat.mod_le _ _
  omega

lemma not_initInside (hpos : 0 < c.tableSize) (h : c.pgSize ≤ 2 * c.tableSize) (hs : Supported c)
    (hno : NoTable c chip) : ¬ InitInside c chip drv := fun hin =>
  not_clearInside hpos h (hin.2 hno hs).1

/-- A chip of 1024 blocks with pages of 2 KiB, without properties in the device tree. -/
def defaultConf : Conf where
  pgSize := 2048
  totalBlks := 1024
  bmtPoolSize := none
  bmtTableSize := none
  pgSize_lt := by decide
  totalBlks_lt := by decide
  bmtPoolSize_lt := by decide
  bmtTableSize_lt := by decide

/-- A chip that is erased and has no bad block. -/
def erasedChip : Chip where
  table := fun _ => ⟨false, blankTable, [0xff, 0xff, 0xff, 0xff]⟩
  firstPage := fun _ => some [0xff, 0xff, 0xff, 0xff]

/-- A driver whose calls all succeed. -/
def soundDriver : Driver := ⟨fun _ _ => false, fun _ _ => false⟩

lemma noTable_erasedChip : NoTable defaultConf erasedChip := by
  have hpool : ∀ j < 80, defaultConf.poolLba ≤ candidate defaultConf j := by decide +kernel
  have hvalid : isValidBmt blankTable [0xff, 0xff, 0xff, 0xff] = false := by decide
  refine ⟨80, fun j hj => ⟨hpool j hj, fun hv => ?_⟩, .inl (by decide +kernel)⟩
  exact Bool.false_ne_true (hvalid.symm.trans hv.2)

/-- The defaults are supported on this chip, and its first attachment writes behind the buffer. -/
theorem not_tableInside_default : Supported defaultConf ∧
    ¬ TableInside defaultConf erasedChip soundDriver [] := by
  have hsup : Supported defaultConf := by decide +kernel
  refine ⟨hsup, fun h => ?_⟩
  have hinit : ∀ fuel, Inside (mtkBmtInitV2 defaultConf erasedChip soundDriver fuel) := fun fuel =>
    ((inside_bind _ _).mp (h fuel)).1
  exact not_initInside (by decide) (by decide) hsup noTable_erasedChip
    (inside_mtkBmtInitV2.mp hinit)

end Bmt.V2
