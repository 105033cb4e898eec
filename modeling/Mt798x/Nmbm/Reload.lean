import Mt798x.Nmbm.Store
import Mt798x.Nmbm.Image

/-!
# Loading a table

The read loop of `nmbm_try_load_info_table` stops after as many blocks as a table takes.  It can
therefore only succeed if it takes a chunk from each of them: a table is loaded from consecutive
blocks (`ImageAt`), whatever the device does.  On a device without errors the converse holds.
-/

namespace Nmbm

open Bytes Bmt

variable (c : Conf) (env : Env)

/-! ## Scanning -/

/-- The instance `ni` with everything a scan of the flash may change taken from `ni'`. -/
def Inst.scanned (ni ni' : Inst) : Inst :=
  { ni with
    chip := ni'.chip
    infoTableCache := ni'.infoTableCache
    blockState := ni'.blockState
    blockStateChanged := ni'.blockStateChanged
    unsaved := ni'.unsaved }

/-- From `ni` to `ni'` blocks were read, into the cache perhaps, and unreadable ones of `[lo, hi)`
were found bad. -/
structure Scans (lo hi : ℕ) (ni ni' : Inst) : Prop extends Wears lo hi ni ni' where
  frame : ni' = ni.scanned ni'
  flash : ni'.chip.flash = ni.chip.flash
  log : ni'.chip.log = ni.chip.log
  cache : ni.infoTableCache.length = c.infoTableSize → ni'.infoTableCache.length = c.infoTableSize

namespace Scans

variable {c} {lo hi lo' hi' : ℕ} {ni ni' ni'' : Inst}

lemma refl (lo hi : ℕ) (ni : Inst) : Scans c lo hi ni ni :=
  ⟨Wears.refl lo hi ni, rfl, rfl, rfl, id⟩

lemma trans (h : Scans c lo hi ni ni') (h' : Scans c lo hi ni' ni'') : Scans c lo hi ni ni'' := by
  refine ⟨h.toWears.trans h'.toWears, ?_, h'.flash.trans h.flash, h'.log.trans h.log,
    fun hl => h'.cache (h.cache hl)⟩
  calc ni'' = ni'.scanned ni'' := h'.frame
    _ = (ni.scanned ni').scanned ni'' := by rw [← h.frame]
    _ = ni.scanned ni'' := rfl

lemma mono (h : Scans c lo hi ni ni') (hlo : lo' ≤ lo) (hhi : hi ≤ hi') :
    Scans c lo' hi' ni ni' :=
  ⟨h.toWears.mono hlo hhi, h.frame, h.flash, h.log, h.cache⟩

lemma of_touch (h : Touch c lo hi ni ni') (hflash : ni'.chip.flash = ni.chip.flash)
    (hlog : ni'.chip.log = ni.chip.log) : Scans c lo hi ni ni' := by
  have hcache : ni'.infoTableCache = ni.infoTableCache := (congrArg Inst.infoTableCache h.frame :)
  refine ⟨h.toWears, ?_, hflash, hlog, fun hl => hcache ▸ hl⟩
  calc ni' = ni.worn ni' := h.frame
    _ = ni.scanned (ni.worn ni') := rfl
    _ = ni.scanned ni' := by rw [← h.frame]

end Scans

lemma scans_checkBad (ni : Inst) (ba lo hi : ℕ) :
    Scans c lo hi ni (nmbmCheckBadPhysBlock env ni ba).2 :=
  Scans.of_touch (touch_checkBadPhysBlock c env ni ba lo hi) rfl rfl

variable {ni ni' : Inst} {ba : ℕ}

lemma scans_setBlockState_bad (h : nmbmGetBlockState ni ba = blockStGood) :
    Scans c ba (ba + 1) ni (nmbmSetBlockState ni ba blockStBad) := by
  have hchip : (nmbmSetBlockState ni ba blockStBad).chip = ni.chip := by
    rw [nmbmSetBlockState]
    dsimp only
    split <;> rfl
  exact Scans.of_touch (touch_setBlockState_bad c h) (by rw [hchip]) (by rw [hchip])

lemma readDataLoop_log (fuel off rem : ℕ) (acc : List Byte) (ni : Inst) :
    (nmbnReadDataLoop c env fuel off rem acc ni).2.chip.log = ni.chip.log := by
  induction fuel generalizing off rem acc ni with
  | zero => rfl
  | succ fuel ih =>
    have hr : (nmbmReadPhysPage c env ni (off - off % c.pgSize)).2.chip.log = ni.chip.log :=
      (readPhysPageTry_chip c env _ _ _ _).1
    rw [nmbnReadDataLoop]
    split
    · rfl
    · dsimp only
      split
      · exact hr
      · rw [ih]
        exact hr

lemma scans_readData (ni : Inst) (addr size lo hi : ℕ) :
    Scans c lo hi ni (nmbnReadData c env ni addr size).2 :=
  Scans.of_touch (touch_readData c env ni addr size lo hi) (readData_flash c env ni addr size)
    (readDataLoop_log c env _ _ _ _ _)

@[simp] lemma readData_blockState (ni : Inst) (addr size : ℕ) :
    (nmbnReadData c env ni addr size).2.blockState = ni.blockState := by
  have h : ∀ (fuel off rem : ℕ) (acc : List Byte) (ni : Inst),
      (nmbnReadDataLoop c env fuel off rem acc ni).2.blockState = ni.blockState := by
    intro fuel
    induction fuel with
    | zero => intro _ _ _ _; rfl
    | succ fuel ih =>
      intro off rem acc ni
      rw [nmbnReadDataLoop]
      split
      · rfl
      · dsimp only
        split
        · rfl
        · rw [ih]
          rfl
  exact h _ _ _ _ _

/-! ## The read loop -/

/-- One block of the read loop: it is passed over, refused, or taken. -/
lemma tryLoadLoop_succ {k rem : ℕ} {start : Option ℕ} {r : Option (ℕ × ℕ × ℕ)} (hrem : rem ≠ 0)
    (hle : rem ≤ c.infoTableSize) (h : tryLoadLoop c env (k + 1) ba rem start ni = (r, ni')) :
    (∃ ni1, Scans c ba (ba + 1) ni ni1 ∧ tryLoadLoop c env k (ba + 1) rem start ni1 = (r, ni')) ∨
      (r = none ∧ Scans c ba (ba + 1) ni ni') ∨
      (∃ ni1 d, nmbmGetBlockState ni ba = blockStGood ∧ ni.chip.flash.marked ba = false ∧
        peek c ni.chip.flash (c.ba2addr ba) (min rem c.blkSize) = some d ∧
        Scans c ba (ba + 1) ni ni1 ∧ ni1.blockState = ni.blockState ∧
        ni1.infoTableCache = splice ni.infoTableCache (c.infoTableSize - rem) d ∧
        (start = none → nmbmCheckInfoTableHeader c
          (InfoTableHeader.ofBytes (ni1.infoTableCache.drop (c.infoTableSize - rem))) = true) ∧
        tryLoadLoop c env k (ba + 1) (rem - min rem c.blkSize) (some (start.getD ba)) ni1 =
          (r, ni')) := by
  rw [tryLoadLoop, if_neg hrem] at h
  split at h
  · exact Or.inl ⟨ni, Scans.refl _ _ ni, h⟩
  · rename_i hgood
    rw [not_not] at hgood
    have hb := scans_checkBad c env ni ba ba (ba + 1)
    dsimp only at h
    split at h
    · exact Or.inl ⟨_, hb.trans (scans_setBlockState_bad c hgood), h⟩
    · rename_i hnotbad
      have hr := hb.trans (scans_readData c env _ (c.ba2addr ba) (min rem c.blkSize) ba (ba + 1))
      have hst : (nmbnReadData c env (nmbmCheckBadPhysBlock env ni ba).2 (c.ba2addr ba)
          (min rem c.blkSize)).2.blockState = ni.blockState := readData_blockState c env _ _ _
      have hg : nmbmGetBlockState (nmbnReadData c env (nmbmCheckBadPhysBlock env ni ba).2
          (c.ba2addr ba) (min rem c.blkSize)).2 ba = blockStGood := by
        rw [nmbmGetBlockState, hst]
        exact hgood
      split at h
      · exact Or.inl ⟨_, hr.trans (scans_setBlockState_bad c hg), h⟩
      · rename_i hneg
        split at h
        · rw [Prod.mk.injEq] at h
          obtain ⟨rfl, rfl⟩ := h
          exact Or.inr (Or.inl ⟨rfl, hr⟩)
        · have hpeek := readData_peek c env (not_lt.mp hneg)
          have hlen := peek_length c hpeek
          have hcache : Scans c ba (ba + 1) ni { (nmbnReadData c env
              (nmbmCheckBadPhysBlock env ni ba).2 (c.ba2addr ba) (min rem c.blkSize)).2 with
              infoTableCache := splice (nmbnReadData c env (nmbmCheckBadPhysBlock env ni ba).2
                (c.ba2addr ba) (min rem c.blkSize)).2.infoTableCache (c.infoTableSize - rem)
                (nmbnReadData c env (nmbmCheckBadPhysBlock env ni ba).2 (c.ba2addr ba)
                (min rem c.blkSize)).1.2 } := by
            refine hr.trans ⟨Wears.of_eq rfl rfl rfl, rfl, rfl, rfl, fun hl => ?_⟩
            dsimp only
            rw [length_splice (by rw [hl, hlen]; omega), hl]
          split at h
          · rw [Prod.mk.injEq] at h
            obtain ⟨rfl, rfl⟩ := h
            exact Or.inr (Or.inl ⟨rfl, hcache⟩)
          · rename_i hhdr
            refine Or.inr (Or.inr ⟨_, _, hgood, ?_, hpeek, hcache, hst, ?_, ?_, h⟩)
            · simp only [nmbmCheckBadPhysBlock, Chip.isBad, Bool.or_eq_true, not_or,
                Bool.not_eq_true] at hnotbad
              exact hnotbad.1
            · have hc : (nmbnReadData c env (nmbmCheckBadPhysBlock env ni ba).2 (c.ba2addr ba)
                  (min rem c.blkSize)).2.infoTableCache = ni.infoTableCache :=
                (congrArg Inst.infoTableCache (touch_readData c env _ _ _ 0 0).frame :)
              dsimp only
              rw [hc]
            · intro hs
              by_contra hn
              exact hhdr ⟨hs, by simpa using hn⟩

lemma tryLoadLoop_scans {k ba rem : ℕ} {start : Option ℕ} {ni ni' : Inst}
    {r : Option (ℕ × ℕ × ℕ)} (hle : rem ≤ c.infoTableSize)
    (h : tryLoadLoop c env k ba rem start ni = (r, ni')) : Scans c ba (ba + k) ni ni' := by
  induction k generalizing ba rem start ni with
  | zero =>
    rw [tryLoadLoop, Prod.mk.injEq] at h
    rw [← h.2]
    exact Scans.refl _ _ ni
  | succ k ih =>
    by_cases hrem : rem = 0
    · rw [tryLoadLoop, if_pos hrem, Prod.mk.injEq] at h
      rw [← h.2]
      exact Scans.refl _ _ ni
    · rcases tryLoadLoop_succ c env hrem hle h with
        ⟨ni1, hs, h1⟩ | ⟨-, hs⟩ | ⟨ni1, d, -, -, -, hs, -, -, -, h1⟩
      · exact (hs.mono le_rfl (by omega)).trans ((ih hle h1).mono (by omega) (by omega))
      · exact hs.mono le_rfl (by omega)
      · exact (hs.mono le_rfl (by omega)).trans ((ih (by omega) h1).mono (by omega) (by omega))

lemma tryLoadLoop_rem {k ba rem : ℕ} {start : Option ℕ} {ni ni' : Inst} {rem' s e : ℕ}
    (hle : rem ≤ c.infoTableSize)
    (h : tryLoadLoop c env k ba rem start ni = (some (rem', s, e), ni')) :
    rem ≤ rem' + k * c.blkSize := by
  induction k generalizing ba rem start ni with
  | zero =>
    simp only [tryLoadLoop, Prod.mk.injEq, Option.some.injEq] at h
    omega
  | succ k ih =>
    rw [Nat.add_mul, Nat.one_mul]
    by_cases hrem : rem = 0
    · omega
    · rcases tryLoadLoop_succ c env hrem hle h with
        ⟨ni1, -, h1⟩ | ⟨h0, -⟩ | ⟨ni1, d, -, -, -, -, -, -, -, h1⟩
      · have := ih hle h1
        omega
      · exact absurd h0 (by simp)
      · have := ih (by omega) h1
        omega

/-- A loop that gets as many blocks as the rest of the table needs, and delivers it, has read it
from all these blocks. -/
lemma tryLoadLoop_sound {k ba rem : ℕ} {start : Option ℕ} {ni ni' : Inst} {s e : ℕ}
    (hle : rem ≤ c.infoTableSize) (hpos : 0 < rem) (hk : k * c.blkSize < rem + c.blkSize)
    (hlen : ni.infoTableCache.length = c.infoTableSize)
    (h : tryLoadLoop c env k ba rem start ni = (some (0, s, e), ni')) :
    ∃ d, peek c ni.chip.flash (c.ba2addr ba) rem = some d ∧
      ni'.infoTableCache = splice ni.infoTableCache (c.infoTableSize - rem) d ∧
      ni'.blockState = ni.blockState ∧ s = start.getD ba ∧ e = ba + k ∧
      (∀ b, ba ≤ b → b < ba + k →
        nmbmGetBlockState ni b = blockStGood ∧ ni.chip.flash.marked b = false) ∧
      (start = none → nmbmCheckInfoTableHeader c (InfoTableHeader.ofBytes
        ((splice ni.infoTableCache (c.infoTableSize - rem) (d.take c.blkSize)).drop
          (c.infoTableSize - rem))) = true) := by
  have hblk := c.blkSize_pos
  induction k generalizing ba rem start ni with
  | zero =>
    simp only [tryLoadLoop, Prod.mk.injEq, Option.some.injEq] at h
    omega
  | succ k ih =>
    rw [Nat.add_mul, Nat.one_mul] at hk
    rcases tryLoadLoop_succ c env hpos.ne' hle h with
      ⟨ni1, -, h1⟩ | ⟨h0, -⟩ | ⟨ni1, d, hgood, hmark, hpeek, hs, hst, hcache, hhdr, h1⟩
    · -- a block that is passed over is missing at the end
      have := tryLoadLoop_rem c env hle h1
      omega
    · exact absurd h0 (by simp)
    · have hd := peek_length c hpeek
      by_cases hlast : rem ≤ c.blkSize
      · -- the last chunk
        obtain rfl : k = 0 := by
          by_contra hk0
          have : c.blkSize ≤ k * c.blkSize := Nat.le_mul_of_pos_left _ (Nat.pos_of_ne_zero hk0)
          omega
        rw [Nat.min_eq_left hlast] at hpeek hd h1
        simp only [tryLoadLoop, Prod.mk.injEq, Option.some.injEq] at h1
        obtain ⟨⟨-, rfl, rfl⟩, rfl⟩ := h1
        refine ⟨d, hpeek, hcache, hst, rfl, rfl, fun b h2 h3 => ?_, fun hs => ?_⟩
        · obtain rfl : b = ba := by omega
          exact ⟨hgood, hmark⟩
        · rw [List.take_of_length_le (by omega), ← hcache]
          exact hhdr hs
      · rw [Nat.min_eq_right (by omega)] at hpeek hd h1
        have hlen1 := hs.cache hlen
        obtain ⟨d2, hpeek2, hcache2, hst2, hs2, he2, hall, -⟩ :=
          ih (by omega) (by omega) (by omega) hlen1 h1
        rw [hs.flash] at hpeek2 hall
        have hadd : peek c ni.chip.flash (c.ba2addr ba) rem = some (d ++ d2) := by
          conv_lhs => rw [show rem = c.blkSize + (rem - c.blkSize) by omega]
          rw [peek_add c (c.ba2addr_mod ba) c.blkSize_mod, hpeek, c.ba2addr_succ, hpeek2]
          rfl
        refine ⟨d ++ d2, hadd, ?_, hst2.trans hst, ?_, by omega, fun b h2 h3 => ?_, fun hs0 => ?_⟩
        · rw [hcache2, hcache, ← splice_append (by omega), hd]
          congr 1
          omega
        · rw [hs2]
          rfl
        · by_cases hb : b = ba
          · subst hb
            exact ⟨hgood, hmark⟩
          · have := hall b (by omega) (by omega)
            rwa [nmbmGetBlockState, hst] at this
        · rw [List.take_append_of_le_length (by omega), List.take_of_length_le (by omega),
            ← hcache]
          exact hhdr hs0

/-- Without errors a good block is taken. -/
lemma tryLoadLoop_ideal_succ {k rem : ℕ} {start : Option ℕ} {d : List Byte} (hrem : rem ≠ 0)
    (hle : rem ≤ c.infoTableSize) (hgood : nmbmGetBlockState ni ba = blockStGood)
    (hmark : ni.chip.flash.marked ba = false)
    (hpeek : peek c ni.chip.flash (c.ba2addr ba) (min rem c.blkSize) = some d)
    (hhdr : start = none → nmbmCheckInfoTableHeader c (InfoTableHeader.ofBytes
      ((splice ni.infoTableCache (c.infoTableSize - rem) d).drop (c.infoTableSize - rem))) = true)
    :
    ∃ ni1, Scans c ba (ba + 1) ni ni1 ∧ ni1.blockState = ni.blockState ∧
      ni1.infoTableCache = splice ni.infoTableCache (c.infoTableSize - rem) d ∧
      tryLoadLoop c Env.ideal (k + 1) ba rem start ni =
        tryLoadLoop c Env.ideal k (ba + 1) (rem - min rem c.blkSize) (some (start.getD ba)) ni1 := by
  have hb : (nmbmCheckBadPhysBlock Env.ideal ni ba).1 = false := by
    simp [nmbmCheckBadPhysBlock, Chip.isBad, hmark, Env.ideal]
  have hread : (nmbnReadData c Env.ideal (nmbmCheckBadPhysBlock Env.ideal ni ba).2 (c.ba2addr ba)
      (min rem c.blkSize)).1 = (0, d) := readData_ideal c hpeek
  have hst : (nmbnReadData c Env.ideal (nmbmCheckBadPhysBlock Env.ideal ni ba).2 (c.ba2addr ba)
      (min rem c.blkSize)).2.blockState = ni.blockState := readData_blockState c Env.ideal _ _ _
  have hc : (nmbnReadData c Env.ideal (nmbmCheckBadPhysBlock Env.ideal ni ba).2 (c.ba2addr ba)
      (min rem c.blkSize)).2.infoTableCache = ni.infoTableCache :=
    (congrArg Inst.infoTableCache (touch_readData c Env.ideal _ _ _ 0 0).frame :)
  have hr := (scans_checkBad c Env.ideal ni ba ba (ba + 1)).trans
    (scans_readData c Env.ideal _ (c.ba2addr ba) (min rem c.blkSize) ba (ba + 1))
  have hlen := peek_length c hpeek
  refine ⟨{ (nmbnReadData c Env.ideal (nmbmCheckBadPhysBlock Env.ideal ni ba).2 (c.ba2addr ba)
      (min rem c.blkSize)).2 with
      infoTableCache := splice ni.infoTableCache (c.infoTableSize - rem) d },
    hr.trans ⟨Wears.of_eq rfl rfl rfl, rfl, rfl, rfl, fun hl => ?_⟩, hst, rfl, ?_⟩
  · dsimp only
    rw [hc] at hl
    rw [length_splice (by omega), hl]
  · have hok : ¬ (start = none ∧ (!nmbmCheckInfoTableHeader c (InfoTableHeader.ofBytes
        ((splice ni.infoTableCache (c.infoTableSize - rem) d).drop
          (c.infoTableSize - rem)))) = true) := by
      rintro ⟨hs, hn⟩
      rw [hhdr hs] at hn
      exact absurd hn (by simp)
    rw [tryLoadLoop, if_neg hrem, if_neg (not_not.mpr hgood)]
    dsimp only
    rw [hb, if_neg (by simp), hread]
    dsimp only
    rw [if_neg (lt_irrefl _), if_neg (lt_irrefl _), hc, if_neg hok]

/-- Without errors the loop loads what lies in consecutive good blocks. -/
lemma tryLoadLoop_ideal {k ba rem : ℕ} {start : Option ℕ} {ni : Inst} {d : List Byte}
    (hle : rem ≤ c.infoTableSize) (hpos : 0 < rem) (hk : k * c.blkSize < rem + c.blkSize)
    (hk' : rem ≤ k * c.blkSize) (hlen : ni.infoTableCache.length = c.infoTableSize)
    (hall : ∀ b, ba ≤ b → b < ba + k →
      nmbmGetBlockState ni b = blockStGood ∧ ni.chip.flash.marked b = false)
    (hpeek : peek c ni.chip.flash (c.ba2addr ba) rem = some d)
    (hhdr : start = none → nmbmCheckInfoTableHeader c (InfoTableHeader.ofBytes
      ((splice ni.infoTableCache (c.infoTableSize - rem) (d.take c.blkSize)).drop
        (c.infoTableSize - rem))) = true) :
    ∃ ni1, tryLoadLoop c Env.ideal k ba rem start ni = (some (0, start.getD ba, ba + k), ni1) ∧
      Scans c ba (ba + k) ni ni1 ∧ ni1.blockState = ni.blockState ∧
      ni1.infoTableCache = splice ni.infoTableCache (c.infoTableSize - rem) d := by
  have hblk := c.blkSize_pos
  induction k generalizing ba rem start ni d with
  | zero => omega
  | succ k ih =>
    rw [Nat.add_mul, Nat.one_mul] at hk hk'
    obtain ⟨hgood, hmark⟩ := hall ba le_rfl (by omega)
    have hd := peek_length c hpeek
    by_cases hlast : rem ≤ c.blkSize
    · obtain rfl : k = 0 := by
        by_contra hk0
        have : c.blkSize ≤ k * c.blkSize := Nat.le_mul_of_pos_left _ (Nat.pos_of_ne_zero hk0)
        omega
      obtain ⟨ni1, hs, hst, hcache, heq⟩ := tryLoadLoop_ideal_succ c (k := 0) hpos.ne' hle hgood
        hmark (by rw [Nat.min_eq_left hlast]; exact hpeek)
        (fun h0 => by rw [← hhdr h0, List.take_of_length_le (by omega)])
      refine ⟨ni1, ?_, hs, hst, hcache⟩
      rw [heq, Nat.min_eq_left hlast, Nat.sub_self]
      rfl
    · -- the range splits at the end of the block
      have hsplit := hpeek
      rw [show rem = c.blkSize + (rem - c.blkSize) by omega,
        peek_add c (c.ba2addr_mod ba) c.blkSize_mod, c.ba2addr_succ] at hsplit
      obtain ⟨d1, hd1, hsplit⟩ := Option.bind_eq_some_iff.mp hsplit
      obtain ⟨d2, hd2, rfl⟩ := Option.map_eq_some_iff.mp hsplit
      have hl1 := peek_length c hd1
      obtain ⟨ni1, hs, hst, hcache, heq⟩ := tryLoadLoop_ideal_succ c (k := k) hpos.ne' hle hgood
        hmark (by rw [Nat.min_eq_right (by omega)]; exact hd1)
        (fun h0 => by
          rw [← hhdr h0, List.take_append_of_le_length (by omega),
            List.take_of_length_le (by omega)])
      rw [Nat.min_eq_right (by omega)] at heq
      obtain ⟨ni2, h2, hs2, hst2, hcache2⟩ := @ih (ba + 1) (rem - c.blkSize)
        (some (start.getD ba)) ni1 d2 (by omega) (by omega) (by omega) (by omega) (hs.cache hlen)
        (fun b h3 h4 => by
          rw [nmbmGetBlockState, hst, hs.flash]
          exact hall b (by omega) (by omega))
        (by rw [hs.flash]; exact hd2) (fun h0 => absurd h0 (by simp))
      refine ⟨ni2, ?_, ?_, hst2.trans hst, ?_⟩
      · rw [heq, h2, show ba + 1 + k = ba + (k + 1) by omega]
        rfl
      · exact (hs.mono le_rfl (by omega)).trans (hs2.mono (by omega) (by omega))
      · rw [hcache2, hcache, ← splice_append (by omega), hl1]
        congr 1
        omega

/-! ## Loadable images -/

/-- The image `img` lies in consecutive unmarked blocks from `ba` on. -/
structure ImageAt (f : Flash) (ba : ℕ) (img : List Byte) : Prop where
  peek : peek c f (c.ba2addr ba) c.infoTableSize = some img
  unmarked : ∀ b, ba ≤ b → b < ba + c.infoTableBlocks → f.marked b = false

/-- The image passes the tests on its header and its checksum. -/
structure Genuine (img : List Byte) : Prop where
  header : nmbmCheckInfoTableHeader c (InfoTableHeader.ofBytes img) = true
  checksum : nmbmCheckHeader img c.infoTableSize = true

variable {c} in
lemma genuine_generatedImage {ni : Inst} (h : ni.Shaped c) : Genuine c (generatedImage c ni) :=
  ⟨checkInfoTableHeader_generatedImage h, checkHeader_generatedImage h⟩

lemma ofBytes_congr {a b : List Byte} (h : a.take 32 = b.take 32) :
    InfoTableHeader.ofBytes a = InfoTableHeader.ofBytes b := by
  have hrd : ∀ k, k + 4 ≤ 32 → rd32 (a.drop k) = rd32 (b.drop k) := by
    intro k hk
    have : ∀ l : List Byte, rd32 (l.drop k) = rd32 ((l.take 32).drop k) := by
      intro l
      rw [← rd32_take_four, ← rd32_take_four ((l.take 32).drop k), List.drop_take, List.take_take,
        Nat.min_eq_left (by omega)]
    rw [this a, this b, h]
  have h0 : rd32 a = rd32 b := hrd 0 (by decide)
  simp only [InfoTableHeader.ofBytes, h0, hrd 4 (by decide), hrd 8 (by decide),
    hrd 12 (by decide), hrd 16 (by decide), hrd 20 (by decide), hrd 24 (by decide),
    hrd 28 (by decide)]

lemma ofBytes_first_block {buf img : List Byte} (himg : img.length = c.infoTableSize) :
    InfoTableHeader.ofBytes ((splice buf (c.infoTableSize - c.infoTableSize)
      (img.take c.blkSize)).drop (c.infoTableSize - c.infoTableSize)) =
      InfoTableHeader.ofBytes img := by
  have h1 := c.blkSize_ge
  have h2 := c.infoTableSize_ge
  apply ofBytes_congr
  rw [Nat.sub_self, List.drop_zero, splice, List.take_zero, List.nil_append,
    List.take_append_of_le_length (by rw [List.length_take]; omega), List.take_take,
    Nat.min_eq_left (by omega)]

lemma checkStateLoop_congr {ni ni' : Inst} (hst : ni'.blockState = ni.blockState)
    (blockState : ℕ → UInt32) (k ba : ℕ) :
    checkStateLoop ni' blockState k ba = checkStateLoop ni blockState k ba := by
  induction k generalizing ba with
  | zero => rfl
  | succ k ih => rw [checkStateLoop, checkStateLoop, nmbmGetBlockState, hst, ih, nmbmGetBlockState]

lemma checkInfoTable_congr (hst : ni'.blockState = ni.blockState)
    (hd : ni'.dataBlockCount = ni.dataBlockCount) (hs : ni'.signatureBa = ni.signatureBa)
    (startBa endBa : ℕ) (img : List Byte) :
    nmbmCheckInfoTable c ni' startBa endBa img = nmbmCheckInfoTable c ni startBa endBa img := by
  rw [nmbmCheckInfoTable, nmbmCheckInfoTable, hd, hs, checkStateLoop_congr hst]

/-- What a successful `nmbm_try_load_info_table` has seen. -/
structure Loads (ni : Inst) (ba : ℕ) (img : List Byte) (top : ℕ) (ni1 : Inst) : Prop where
  imageAt : ImageAt c ni.chip.flash ba img
  genuine : Genuine c img
  good : ∀ b, ba ≤ b → b < ba + c.infoTableBlocks → nmbmGetBlockState ni b = blockStGood
  check : nmbmCheckInfoTable c ni ba (ba + c.infoTableBlocks) img = some top
  scans : Scans c ba (ba + c.infoTableBlocks) ni ni1
  blockState : ni1.blockState = ni.blockState
  cache : ni1.infoTableCache = img

lemma tryLoadInfoTable_sound {e top : ℕ} {wc : UInt32} {loaded : Bool}
    (hlen : ni.infoTableCache.length = c.infoTableSize)
    (h : nmbmTryLoadInfoTable c env ni ba loaded = (some (e, wc, top), ni')) :
    ∃ img ni1, Loads c ni ba img top ni1 ∧ e = ba + c.infoTableBlocks ∧
      wc = (InfoTableHeader.ofBytes img).writeCount ∧
      ni' = if !loaded || wc > ni.infoTable.writeCount then loadTable c ni1 else ni1 := by
  have hsize := c.infoTableSize_pos
  rw [nmbmTryLoadInfoTable] at h
  split at h
  · exact absurd h (by simp)
  · rename_i rem s e1 ni1 hloop
    split at h
    · exact absurd h (by simp)
    · rename_i hrem
      rw [not_not] at hrem
      subst hrem
      have hscan := tryLoadLoop_scans c env le_rfl hloop
      obtain ⟨img, hpeek, hcache, hst, rfl, rfl, hall, hhdr⟩ :=
        tryLoadLoop_sound c env le_rfl hsize c.infoTableBlocks_mul.2 hlen hloop
      have himg := peek_length c hpeek
      rw [Nat.sub_self, splice_zero_of_length (by omega)] at hcache
      have hh := hhdr rfl
      rw [ofBytes_first_block c himg] at hh
      have hd : ni1.dataBlockCount = ni.dataBlockCount :=
        (congrArg Inst.dataBlockCount hscan.frame :)
      have hs : ni1.signatureBa = ni.signatureBa := (congrArg Inst.signatureBa hscan.frame :)
      have hinfo : ni1.infoTable = ni.infoTable := (congrArg Inst.infoTable hscan.frame :)
      rw [hcache, checkInfoTable_congr c hst hd hs, hinfo] at h
      split at h
      · exact absurd h (by simp)
      · rename_i hsum
        split at h
        · exact absurd h (by simp)
        · rename_i top' hcheck
          simp only [Prod.mk.injEq, Option.some.injEq] at h
          obtain ⟨⟨rfl, rfl, rfl⟩, rfl⟩ := h
          exact ⟨img, ni1, ⟨⟨hpeek, fun b h1 h2 => (hall b h1 h2).2⟩, ⟨hh, by simpa using hsum⟩,
            fun b h1 h2 => (hall b h1 h2).1, hcheck, hscan, hst, hcache⟩, rfl, rfl, rfl⟩

lemma tryLoadInfoTable_none {loaded : Bool}
    (h : nmbmTryLoadInfoTable c env ni ba loaded = (none, ni')) :
    Scans c ba (ba + c.infoTableBlocks) ni ni' := by
  rw [nmbmTryLoadInfoTable] at h
  split at h
  · rename_i ni1 hloop
    rw [Prod.mk.injEq] at h
    rw [← h.2]
    exact tryLoadLoop_scans c env le_rfl hloop
  · rename_i rem s e1 ni1 hloop
    have hscan := tryLoadLoop_scans c env le_rfl hloop
    split at h
    · rw [Prod.mk.injEq] at h
      exact h.2 ▸ hscan
    · split at h
      · rw [Prod.mk.injEq] at h
        exact h.2 ▸ hscan
      · split at h
        · rw [Prod.mk.injEq] at h
          exact h.2 ▸ hscan
        · exact absurd h (by simp)

/-- Without errors an image in good blocks that passes the tests is loaded. -/
lemma tryLoadInfoTable_ideal (loaded : Bool) {top : ℕ} {img : List Byte}
    (hlen : ni.infoTableCache.length = c.infoTableSize) (hat : ImageAt c ni.chip.flash ba img)
    (hgen : Genuine c img)
    (hgood : ∀ b, ba ≤ b → b < ba + c.infoTableBlocks → nmbmGetBlockState ni b = blockStGood)
    (hcheck : nmbmCheckInfoTable c ni ba (ba + c.infoTableBlocks) img = some top) :
    ∃ ni1, Loads c ni ba img top ni1 ∧
      nmbmTryLoadInfoTable c Env.ideal ni ba loaded =
        (some (ba + c.infoTableBlocks, (InfoTableHeader.ofBytes img).writeCount, top),
          if !loaded || (InfoTableHeader.ofBytes img).writeCount > ni.infoTable.writeCount then
            loadTable c ni1 else ni1) := by
  have himg := peek_length c hat.peek
  obtain ⟨ni1, hloop, hscan, hst, hcache⟩ := tryLoadLoop_ideal c le_rfl
    c.infoTableSize_pos c.infoTableBlocks_mul.2 c.infoTableBlocks_mul.1 hlen
    (fun b h1 h2 => ⟨hgood b h1 h2, hat.unmarked b h1 h2⟩) hat.peek
    (fun _ : (none : Option ℕ) = none => by rw [ofBytes_first_block c himg]; exact hgen.header)
  rw [Nat.sub_self, splice_zero_of_length (by omega)] at hcache
  have hd : ni1.dataBlockCount = ni.dataBlockCount :=
    (congrArg Inst.dataBlockCount hscan.frame :)
  have hs : ni1.signatureBa = ni.signatureBa := (congrArg Inst.signatureBa hscan.frame :)
  have hinfo : ni1.infoTable = ni.infoTable := (congrArg Inst.infoTable hscan.frame :)
  refine ⟨ni1, ⟨hat, hgen, hgood, hcheck, hscan, hst, hcache⟩, ?_⟩
  rw [nmbmTryLoadInfoTable, hloop]
  dsimp only
  rw [if_neg (by simp), hcache, hgen.checksum, if_neg (by simp), Option.getD_none,
    checkInfoTable_congr c hst hd hs, hcheck, hinfo]

end Nmbm
