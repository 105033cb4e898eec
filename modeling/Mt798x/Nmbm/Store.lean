import Mt798x.Nmbm.Touch
import Mt798x.Nmbm.Attach

/-!
# What lies on flash

`peek` reads a byte range from the bare flash, without a driver that can fail.  The read
functions of the source return what `peek` sees when they succeed, and on a device without
errors they succeed whenever `peek` does.  The write functions verify what they write, so a
successful write is a fact about `peek`.

A table that `nmbm_write_mgmt_range` has written is described by `Stored`: block by block, either
unusable and passed over or holding the next chunk.
-/

namespace Nmbm

open Bytes Bmt

variable (c : Conf) (env : Env)

/-! ## Reading the bare flash -/

/-- The loop of `nmbn_read_data` on the bare flash. -/
def peekLoop (f : Flash) : ℕ → ℕ → ℕ → Option (List Byte)
  | 0, _, _ => some []
  | fuel + 1, off, rem =>
    if rem = 0 then some []
    else
      let leading := off % c.pgSize
      let chunksize := min (c.pgSize - leading) rem
      match f.pages (c.pageOf (off - leading)) with
      | none => none
      | some p => (peekLoop f fuel (off + chunksize) (rem - chunksize)).map
          (((c.fit p.data).drop leading).take chunksize ++ ·)

/-- The bytes `[addr, addr + size)` of the flash, `none` when a page cannot be corrected. -/
def peek (f : Flash) (addr size : ℕ) : Option (List Byte) := peekLoop c f size addr size

variable {rem fuel off size ba e : ℕ} {f : Flash} {rest : List Byte} (ni : Inst) (addr : ℕ)

lemma chunksize_pos (off : ℕ) (h : rem ≠ 0) : 0 < min (c.pgSize - off % c.pgSize) rem := by
  have := Nat.mod_lt off c.pgSize_pos
  omega

lemma peekLoop_fuel (h : rem ≤ fuel) : peekLoop c f fuel off rem = peek c f off rem := by
  rw [peek]
  induction fuel using Nat.strong_induction_on generalizing off rem with
  | _ fuel ih =>
    cases fuel with
    | zero =>
      obtain rfl : rem = 0 := by omega
      rfl
    | succ fuel =>
      cases rem with
      | zero => rfl
      | succ rem =>
        have hpos := chunksize_pos c off (Nat.succ_ne_zero rem)
        rw [peekLoop, peekLoop]
        dsimp only
        rw [if_neg (Nat.succ_ne_zero rem), if_neg (Nat.succ_ne_zero rem),
          ih fuel (by omega) (by omega), ih rem (by omega) (by omega)]

lemma peek_step (h : rem ≠ 0) :
    peek c f off rem =
      match f.pages (c.pageOf (off - off % c.pgSize)) with
      | none => none
      | some p =>
        (peek c f (off + min (c.pgSize - off % c.pgSize) rem)
            (rem - min (c.pgSize - off % c.pgSize) rem)).map
          (((c.fit p.data).drop (off % c.pgSize)).take (min (c.pgSize - off % c.pgSize) rem) ++ ·) := by
  obtain ⟨m, rfl⟩ := Nat.exists_eq_succ_of_ne_zero h
  have hpos := chunksize_pos c off h
  rw [peek, peekLoop]
  dsimp only
  rw [if_neg h, peekLoop_fuel c (by omega)]

@[simp] lemma peek_zero (f : Flash) (off : ℕ) : peek c f off 0 = some [] := rfl

lemma peek_length {d : List Byte} (h : peek c f off size = some d) : d.length = size := by
  induction size using Nat.strong_induction_on generalizing off d with
  | _ size ih =>
    by_cases h0 : size = 0
    · subst h0
      rw [peek_zero, Option.some.injEq] at h
      rw [← h]
      rfl
    · have hmod := Nat.mod_lt off c.pgSize_pos
      have hpos := chunksize_pos c off h0
      rw [peek_step c h0] at h
      split at h
      · exact absurd h (by simp)
      · obtain ⟨d', hd', rfl⟩ := Option.map_eq_some_iff.mp h
        rw [List.length_append, ih _ (by omega) hd', List.length_take, List.length_drop,
          Geom.length_fit]
        omega

/-- A range that starts at a page boundary splits at every page boundary. -/
lemma peek_add {a b : ℕ} (hoff : off % c.pgSize = 0) (ha : a % c.pgSize = 0) :
    peek c f off (a + b) =
      (peek c f off a).bind fun x => (peek c f (off + a) b).map (x ++ ·) := by
  have hpg := c.pgSize_pos
  induction a using Nat.strong_induction_on generalizing off with
  | _ a ih =>
    by_cases h0 : a = 0
    · subst h0
      simp
    · have hle : c.pgSize ≤ a := by
        by_contra hlt
        rw [Nat.mod_eq_of_lt (by omega)] at ha
        exact h0 ha
      rw [peek_step c (by omega : a + b ≠ 0), peek_step c h0, hoff, Nat.sub_zero, Nat.sub_zero,
        Nat.min_eq_left (by omega : c.pgSize ≤ a + b), Nat.min_eq_left hle]
      cases f.pages (c.pageOf off) with
      | none => rfl
      | some p =>
        have hsplit : a + b - c.pgSize = a - c.pgSize + b := by omega
        have hmod : (a - c.pgSize) % c.pgSize = 0 := by
          rw [← Nat.mod_eq_sub_mod hle]
          exact ha
        dsimp only
        rw [hsplit, ih (a - c.pgSize) (by omega) (by rw [Nat.add_mod_right]; exact hoff) hmod,
          show off + c.pgSize + (a - c.pgSize) = off + a by omega]
        cases peek c f (off + c.pgSize) (a - c.pgSize) with
        | none => rfl
        | some x =>
          cases peek c f (off + a) b with
          | none => rfl
          | some y => simp

lemma pageOf_pageStart (off : ℕ) : c.pageOf (off - off % c.pgSize) = c.pageOf off := by
  have h : off - off % c.pgSize = c.pgSize * (off / c.pgSize) := by
    have := Nat.div_add_mod off c.pgSize
    omega
  rw [Geom.pageOf, Geom.pageOf, h, Nat.mul_div_cancel_left _ c.pgSize_pos]

lemma peek_congr {f' : Flash}
    (h : ∀ a, off ≤ a → a < off + size → f'.pages (c.pageOf a) = f.pages (c.pageOf a)) :
    peek c f' off size = peek c f off size := by
  induction size using Nat.strong_induction_on generalizing off with
  | _ size ih =>
    by_cases h0 : size = 0
    · subst h0
      rfl
    · have hpos := chunksize_pos c off h0
      rw [peek_step c h0, peek_step c h0, pageOf_pageStart, h off le_rfl (by omega)]
      rw [ih (size - min (c.pgSize - off % c.pgSize) size) (by omega)]
      intro a ha1 ha2
      exact h a (by omega) (by omega)

lemma blockOf_pageOf_block {a : ℕ} (h1 : c.ba2addr ba ≤ a) (h2 : a < c.ba2addr (ba + 1)) :
    c.blockOf (c.pageOf a) = ba := by
  rw [Geom.blockOf_pageOf]
  exact Nat.div_eq_of_lt_le h1 h2

lemma peek_agree {f' : Flash} {lo hi : ℕ} (h : Agree c.toGeom lo hi f f') (hba : ¬ Within lo hi ba)
    (hsize : size ≤ c.blkSize) : peek c f' (c.ba2addr ba) size = peek c f (c.ba2addr ba) size := by
  refine peek_congr c fun a h1 h2 => h.pages _ ?_
  rwa [blockOf_pageOf_block c h1]
  rw [Conf.ba2addr] at h2 ⊢
  rw [Nat.add_mul, Nat.one_mul]
  omega

/-! ## Successful reads -/

/-- A read that does not fail returns the content of the page. -/
lemma readPhysPageTry_data {page tries : ℕ} {last : ℤ} {chip : Chip} (hlast : last < 0 ∨ 0 < tries)
    (h : 0 ≤ (nmbmReadPhysPageTry c env page tries last chip).1.1) :
    ∃ p, chip.flash.pages page = some p ∧
      (nmbmReadPhysPageTry c env page tries last chip).1.2 = c.fit p.data := by
  induction tries generalizing last chip with
  | zero =>
    have h' : 0 ≤ last := h
    omega
  | succ tries ih =>
    rw [nmbmReadPhysPageTry] at h ⊢
    cases hp : chip.flash.pages page with
    | none =>
      have hr : chip.read c.toGeom env page = ((eBADMSG, ⟨[], []⟩), chip.tock) := by
        rw [Chip.read, hp]
      rw [hr] at h ⊢
      dsimp only at h ⊢
      rw [if_neg (by decide), if_neg (by decide)] at h ⊢
      obtain ⟨p, h1, -⟩ := ih (Or.inl (by decide)) h
      rw [show chip.tock.flash.pages page = chip.flash.pages page from rfl, hp] at h1
      exact absurd h1 (by simp)
    | some p =>
      have hr : chip.read c.toGeom env page = ((env.readRet chip.tick page, { p with data := c.fit p.data }), chip.tock) := by
        rw [Chip.read, hp]
      rw [hr] at h ⊢
      dsimp only at h ⊢
      split
      · exact ⟨p, rfl, rfl⟩
      · rename_i hne
        rw [if_neg hne] at h
        split
        · exact ⟨p, rfl, rfl⟩
        · rename_i hneg
          rw [if_neg hneg] at h
          obtain ⟨q, h1, h2⟩ := ih (Or.inl (by omega)) h
          rw [show chip.tock.flash.pages page = chip.flash.pages page from rfl, hp] at h1
          exact ⟨q, h1, h2⟩

lemma readPhysPage_data {ni : Inst} {addr : ℕ} (h : 0 ≤ (nmbmReadPhysPage c env ni addr).1.1) :
    ∃ p, ni.chip.flash.pages (c.pageOf addr) = some p ∧
      (nmbmReadPhysPage c env ni addr).1.2 = c.fit p.data :=
  readPhysPageTry_data c env (Or.inr (by decide)) h

@[simp] lemma readPhysPage_flash : (nmbmReadPhysPage c env ni addr).2.chip.flash = ni.chip.flash :=
  (readPhysPageTry_chip c env _ _ _ _).2

/-- What `nmbn_read_data` returns with result 0 is what lies on flash. -/
lemma readDataLoop_peek {acc : List Byte} {ni : Inst} (hfuel : rem ≤ fuel)
    (h : 0 ≤ (nmbnReadDataLoop c env fuel off rem acc ni).1.1) :
    ∃ d, peek c ni.chip.flash off rem = some d ∧
      (nmbnReadDataLoop c env fuel off rem acc ni).1.2 = acc ++ d := by
  induction fuel generalizing off rem acc ni with
  | zero =>
    obtain rfl : rem = 0 := by omega
    exact ⟨[], rfl, by simp [nmbnReadDataLoop]⟩
  | succ fuel ih =>
    rw [nmbnReadDataLoop] at h ⊢
    split
    · rename_i h0
      subst h0
      exact ⟨[], rfl, by simp⟩
    · rename_i h0
      rw [if_neg h0] at h
      dsimp only at h ⊢
      have hpos := chunksize_pos c off h0
      split
      · rename_i hneg
        rw [if_pos hneg] at h
        dsimp only at h
        omega
      · rename_i hneg
        rw [if_neg hneg] at h
        obtain ⟨p, hp, hdata⟩ := readPhysPage_data c env (by omega :
          0 ≤ (nmbmReadPhysPage c env ni (off - off % c.pgSize)).1.1)
        obtain ⟨d, hd, hres⟩ := ih (by omega) h
        rw [readPhysPage_flash] at hd
        refine ⟨_, ?_, hres.trans (List.append_assoc _ _ _)⟩
        rw [peek_step c h0, hp, hdata]
        dsimp only
        rw [hd, Option.map_some]

lemma readData_peek {ni : Inst} {addr : ℕ} (h : 0 ≤ (nmbnReadData c env ni addr size).1.1) :
    peek c ni.chip.flash addr size = some (nmbnReadData c env ni addr size).1.2 := by
  obtain ⟨d, hd, hres⟩ := readDataLoop_peek c env le_rfl h
  rw [hd, nmbnReadData, hres, List.nil_append]

/-! ## A device without errors -/

lemma readPhysPage_ideal :
    (nmbmReadPhysPage c Env.ideal ni addr).1 =
      match ni.chip.flash.pages (c.pageOf addr) with
      | none => (eBADMSG, [])
      | some p => (0, c.fit p.data) := by
  rw [nmbmReadPhysPage]
  cases hp : ni.chip.flash.pages (c.pageOf addr) with
  | none =>
    have hr : ∀ chip : Chip, chip.flash.pages (c.pageOf addr) = none →
        chip.read c.toGeom Env.ideal (c.pageOf addr) = ((eBADMSG, ⟨[], []⟩), chip.tock) := by
      intro chip h
      rw [Chip.read, h]
    have htry : ∀ (tries : ℕ) (last : ℤ) (chip : Chip),
        chip.flash.pages (c.pageOf addr) = none → 0 < tries ∨ last = eBADMSG →
        (nmbmReadPhysPageTry c Env.ideal (c.pageOf addr) tries last chip).1 = (eBADMSG, []) := by
      intro tries
      induction tries with
      | zero =>
        rintro last chip - (h | rfl)
        · exact absurd h (Nat.lt_irrefl 0)
        · rfl
      | succ tries ih =>
        intro last chip h _
        rw [nmbmReadPhysPageTry, hr chip h]
        exact ih eBADMSG chip.tock h (Or.inr rfl)
    exact htry tryCount 0 ni.chip hp (Or.inl (by decide))
  | some p =>
    have hr : ni.chip.read c.toGeom Env.ideal (c.pageOf addr) =
        ((0, { p with data := c.fit p.data }), ni.chip.tock) := by
      rw [Chip.read, hp]
      rfl
    rw [tryCount, nmbmReadPhysPageTry, hr]
    rfl

/-- Without read errors `nmbn_read_data` returns what lies on flash. -/
lemma readDataLoop_ideal {acc d : List Byte} {ni : Inst} (hfuel : rem ≤ fuel)
    (h : peek c ni.chip.flash off rem = some d) :
    (nmbnReadDataLoop c Env.ideal fuel off rem acc ni).1 = (0, acc ++ d) := by
  induction fuel generalizing off rem acc d ni with
  | zero =>
    obtain rfl : rem = 0 := by omega
    rw [peek_zero, Option.some.injEq] at h
    subst h
    simp [nmbnReadDataLoop]
  | succ fuel ih =>
    rw [nmbnReadDataLoop]
    split
    · rename_i h0
      subst h0
      rw [peek_zero, Option.some.injEq] at h
      subst h
      simp
    · rename_i h0
      have hpos := chunksize_pos c off h0
      rw [peek_step c h0] at h
      have hread := readPhysPage_ideal c ni (off - off % c.pgSize)
      cases hp : ni.chip.flash.pages (c.pageOf (off - off % c.pgSize)) with
      | none =>
        rw [hp] at h
        exact absurd h (by simp)
      | some p =>
        rw [hp] at h hread
        dsimp only at h hread ⊢
        obtain ⟨d', hd', rfl⟩ := Option.map_eq_some_iff.mp h
        rw [hread, if_neg (lt_irrefl _), ih (by omega) (by rw [readPhysPage_flash]; exact hd'),
          List.append_assoc]

lemma readData_ideal {ni : Inst} {addr : ℕ} {d : List Byte}
    (h : peek c ni.chip.flash addr size = some d) :
    (nmbnReadData c Env.ideal ni addr size).1 = (0, d) := by
  rw [nmbnReadData, readDataLoop_ideal c le_rfl h, List.nil_append]

@[simp] lemma readData_flash (size : ℕ) :
    (nmbnReadData c env ni addr size).2.chip.flash = ni.chip.flash := by
  have h := (touch_readData c env ni addr size 0 0).works.flash
  have hpages : ∀ p, (nmbnReadData c env ni addr size).2.chip.flash.pages p =
      ni.chip.flash.pages p := fun p => h.pages p fun hw => by
    exact absurd hw.2 (Nat.not_lt_zero _)
  have hmarked : ∀ b, (nmbnReadData c env ni addr size).2.chip.flash.marked b =
      ni.chip.flash.marked b := fun b => h.marked b fun hw => by
    exact absurd hw.2 (Nat.not_lt_zero _)
  cases h1 : (nmbnReadData c env ni addr size).2.chip.flash with
  | mk pages marked =>
    cases h2 : ni.chip.flash with
    | mk pages' marked' =>
      rw [h1, h2] at hpages hmarked
      congr 1
      · exact funext hpages
      · exact funext hmarked

/-! ## Verified writes -/

lemma writePhysPageTry_pages {page tries : ℕ} {data : List Byte} {chip : Chip} {p : ℕ}
    (hp : p ≠ page) :
    (nmbmWritePhysPageTry c env page data tries chip).2.flash.pages p = chip.flash.pages p := by
  induction tries generalizing chip with
  | zero => rfl
  | succ tries ih =>
    have hw : (chip.write c.toGeom env true page data 0 []).2.flash.pages p =
        chip.flash.pages p := by
      simp [Chip.write, Chip.record, hp]
    rw [nmbmWritePhysPageTry]
    split
    · exact hw
    · exact ih.trans hw

@[simp] lemma writeVerifyLoop_nil (fuel off : ℕ) (ni : Inst) :
    nmbnWriteVerifyLoop c env fuel off [] ni = (true, ni) := by
  cases fuel <;> rfl

/-- Writing from an address on leaves the pages before it alone. -/
lemma writeVerifyLoop_pages {ni : Inst} {p : ℕ} (hp : p < c.pageOf off) :
    (nmbnWriteVerifyLoop c env fuel off rest ni).2.chip.flash.pages p = ni.chip.flash.pages p := by
  induction fuel generalizing off rest ni with
  | zero => rfl
  | succ fuel ih =>
    rw [nmbnWriteVerifyLoop]
    split
    · rfl
    · dsimp only
      have hne : p ≠ c.pageOf (off - off % c.pgSize) := by
        rw [pageOf_pageStart]
        omega
      have hw : ∀ data, (nmbmWritePhysPage c env ni (off - off % c.pgSize)
          data).2.chip.flash.pages p = ni.chip.flash.pages p :=
        fun data => writePhysPageTry_pages c env hne
      split
      · exact hw _
      · split
        · rw [readPhysPage_flash]
          exact hw _
        · split
          · rw [readPhysPage_flash]
            exact hw _
          · rw [ih (hp.trans_le (Nat.div_le_div_right (by omega))), readPhysPage_flash]
            exact hw _

lemma writeVerifyLoop_page_kept (fuel : ℕ) {ni : Inst} :
    (nmbnWriteVerifyLoop c env fuel (off + (rest.take (c.pgSize - off % c.pgSize)).length)
        (rest.drop (rest.take (c.pgSize - off % c.pgSize)).length) ni).2.chip.flash.pages
        (c.pageOf (off - off % c.pgSize)) =
      ni.chip.flash.pages (c.pageOf (off - off % c.pgSize)) := by
  have hmod := Nat.mod_lt off c.pgSize_pos
  by_cases hle : rest.length ≤ c.pgSize - off % c.pgSize
  · rw [List.take_of_length_le hle, List.drop_length, writeVerifyLoop_nil]
  · refine writeVerifyLoop_pages c env ?_
    rw [List.length_take, Nat.min_eq_left (by omega), pageOf_pageStart, Geom.pageOf, Geom.pageOf]
    have h1 : off + (c.pgSize - off % c.pgSize) = c.pgSize * (off / c.pgSize + 1) := by
      have := Nat.div_add_mod off c.pgSize
      rw [Nat.mul_add, Nat.mul_one]
      omega
    rw [h1, Nat.mul_div_cancel_left _ c.pgSize_pos]
    omega

/-- A write that was verified is readable afterwards. -/
lemma writeVerifyLoop_peek {ni : Inst} (hfuel : rest.length ≤ fuel)
    (h : (nmbnWriteVerifyLoop c env fuel off rest ni).1 = true) :
    peek c (nmbnWriteVerifyLoop c env fuel off rest ni).2.chip.flash off rest.length =
      some rest := by
  induction fuel generalizing off rest ni with
  | zero =>
    obtain rfl : rest = [] := List.length_eq_zero_iff.mp (by omega)
    rfl
  | succ fuel ih =>
    rw [nmbnWriteVerifyLoop] at h ⊢
    split
    · rename_i h0
      subst h0
      rfl
    · rename_i h0
      have hlen : rest.length ≠ 0 := fun e => h0 (List.length_eq_zero_iff.mp e)
      rw [if_neg h0] at h
      dsimp only at h ⊢
      have hchunk : (rest.take (c.pgSize - off % c.pgSize)).length =
          min (c.pgSize - off % c.pgSize) rest.length := List.length_take
      have hpos := chunksize_pos c off hlen
      split
      · rename_i hw
        rw [if_pos hw] at h
        exact absurd h (by simp)
      · rename_i hw
        rw [if_neg hw] at h
        split
        · rename_i hr
          rw [if_pos hr] at h
          exact absurd h (by simp)
        · rename_i hr
          rw [if_neg hr] at h
          split
          · rename_i hv
            rw [if_pos hv] at h
            exact absurd h (by simp)
          · rename_i hv
            rw [if_neg hv] at h
            rw [not_not] at hv
            obtain ⟨p, hp, hdata⟩ := readPhysPage_data c env (not_lt.mp hr)
            have hrest := ih (by rw [List.length_drop]; omega) h
            -- the page just written is not touched by the rest of the loop
            have hpage := hp
            rw [← readPhysPage_flash c env _ (off - off % c.pgSize),
              ← writeVerifyLoop_page_kept c env fuel] at hpage
            rw [hdata] at hv
            rw [peek_step c hlen, hpage]
            dsimp only
            rw [← hchunk, hv]
            rw [List.length_drop] at hrest
            rw [hrest, Option.map_some, hchunk, List.take_eq_take_min, List.take_append_drop]

lemma writeVerifyData_peek {ni : Inst} {addr : ℕ} {data : List Byte}
    (h : (nmbnWriteVerifyData c env ni addr data).1 = true) :
    peek c (nmbnWriteVerifyData c env ni addr data).2.chip.flash addr data.length = some data :=
  writeVerifyLoop_peek c env le_rfl h

/-! ## Stored tables -/

/-- From block `ba` on, up to before block `e`, the flash of `ni` holds the bytes `rest`, a chunk
to each good block. -/
inductive Stored (ni : Inst) : ℕ → List Byte → ℕ → Prop
  | done (ba : ℕ) : Stored ni ba [] ba
  | skip {ba e : ℕ} {rest : List Byte} (hrest : rest ≠ [])
      (hbad : nmbmGetBlockState ni ba ≠ blockStGood) (h : Stored ni (ba + 1) rest e) :
      Stored ni ba rest e
  | block {ba e : ℕ} {rest : List Byte} (hrest : rest ≠ [])
      (hgood : nmbmGetBlockState ni ba = blockStGood) (hmark : ni.chip.flash.marked ba = false)
      (hpeek : peek c ni.chip.flash (c.ba2addr ba) (rest.take c.blkSize).length =
        some (rest.take c.blkSize))
      (h : Stored ni (ba + 1) (rest.drop c.blkSize) e) : Stored ni ba rest e

namespace Stored

variable {c} {ni ni' : Inst} {ba e : ℕ} {rest : List Byte}

lemma le (h : Stored c ni ba rest e) : ba ≤ e := by
  induction h with
  | done => exact le_rfl
  | skip _ _ _ ih => omega
  | block _ _ _ _ _ ih => omega

/-- A stored table survives everything that is done to other blocks. -/
lemma congr {lo hi : ℕ} (h : Stored c ni ba rest e)
    (hst : ∀ b, ba ≤ b → b < e → nmbmGetBlockState ni' b = nmbmGetBlockState ni b)
    (hag : Agree c.toGeom lo hi ni.chip.flash ni'.chip.flash) (hdis : e ≤ lo ∨ hi ≤ ba) :
    Stored c ni' ba rest e := by
  induction h with
  | done ba => exact Stored.done ba
  | @skip ba e rest hrest hbad h ih =>
    have hle := h.le
    refine Stored.skip hrest ?_ (ih (fun b h1 h2 => hst b (by omega) h2) (by omega))
    rw [hst ba le_rfl (by omega)]
    exact hbad
  | @block ba e rest hrest hgood hmark hpeek h ih =>
    have hle := h.le
    have hout : ¬ Within lo hi ba := fun hw => by
      have := hw.1
      have := hw.2
      omega
    refine Stored.block hrest ?_ ?_ ?_ (ih (fun b h1 h2 => hst b (by omega) h2) (by omega))
    · rw [hst ba le_rfl (by omega)]
      exact hgood
    · rw [hag.marked ba hout]
      exact hmark
    · rw [peek_agree c hag hout (List.length_take_le _ _)]
      exact hpeek

lemma of_eq (h : Stored c ni ba rest e) (hst : ni'.blockState = ni.blockState)
    (hchip : ni'.chip = ni.chip) : Stored c ni' ba rest e := by
  refine h.congr (fun b _ _ => ?_) (?_ : Agree c.toGeom 0 0 _ _) (Or.inr (Nat.zero_le _))
  · rw [nmbmGetBlockState, nmbmGetBlockState, hst]
  · rw [hchip]
    exact Agree.refl _ 0 0 _

end Stored

lemma getBlockState_setBlockState_self (ba : ℕ) :
    nmbmGetBlockState (nmbmSetBlockState ni ba blockStBad) ba = blockStBad := by
  have hst : (nmbmSetBlockState ni ba blockStBad).blockState =
      TwoBit.set ni.blockState ba blockStBad := by
    rw [nmbmSetBlockState]
    dsimp only
    split <;> rfl
  rw [nmbmGetBlockState, nmbmGetBlockStateRaw, hst]
  by_cases hlen : ba / 16 < ni.blockState.length
  · exact TwoBit.get_set_self _ hlen
  · rw [TwoBit.get_eq_zero_of_le (by rw [TwoBit.length_set]; omega)]
    rfl

/-! Only `nmbm_mark_phys_bad_block` sets marks. -/

lemma marked_writePhysPage (data : List Byte) :
    (nmbmWritePhysPage c env ni addr data).2.chip.flash.marked = ni.chip.flash.marked := by
  have h : ∀ (tries : ℕ) (chip : Chip),
      (nmbmWritePhysPageTry c env (c.pageOf addr) data tries chip).2.flash.marked =
        chip.flash.marked := by
    intro tries
    induction tries with
    | zero => intro _; rfl
    | succ tries ih =>
      intro chip
      rw [nmbmWritePhysPageTry]
      split
      · rfl
      · rw [ih]
        rfl
  exact h tryCount ni.chip

lemma marked_erasePhysBlock (ba : ℕ) :
    (nmbmErasePhysBlock c env ni ba).2.chip.flash.marked = ni.chip.flash.marked := by
  have h : ∀ (tries : ℕ) (chip : Chip),
      (nmbmErasePhysBlockTry c env ba tries chip).2.flash.marked = chip.flash.marked := by
    intro tries
    induction tries with
    | zero => intro _; rfl
    | succ tries ih =>
      intro chip
      rw [nmbmErasePhysBlockTry]
      split
      · rfl
      · rw [ih]
        rfl
  exact h tryCount ni.chip

lemma marked_eraseCheckLoop (k addr : ℕ) (ni : Inst) :
    (nmbmEraseCheckLoop c env k addr ni).2.chip.flash.marked = ni.chip.flash.marked := by
  induction k generalizing addr ni with
  | zero => rfl
  | succ k ih =>
    rw [nmbmEraseCheckLoop]
    split
    · rw [readPhysPage_flash]
    · rw [ih, readPhysPage_flash]

lemma marked_eraseBlockAndCheck (ba : ℕ) :
    (nmbmEraseBlockAndCheck c env ni ba).2.chip.flash.marked = ni.chip.flash.marked := by
  rw [nmbmEraseBlockAndCheck]
  split
  · exact marked_erasePhysBlock c env ni ba
  · split
    · exact marked_erasePhysBlock c env ni ba
    · rw [marked_eraseCheckLoop, marked_erasePhysBlock]

lemma marked_writeVerifyLoop (fuel off : ℕ) (rest : List Byte) (ni : Inst) :
    (nmbnWriteVerifyLoop c env fuel off rest ni).2.chip.flash.marked = ni.chip.flash.marked := by
  induction fuel generalizing off rest ni with
  | zero => rfl
  | succ fuel ih =>
    rw [nmbnWriteVerifyLoop]
    split
    · rfl
    · dsimp only
      split
      · exact marked_writePhysPage c env _ _ _
      · split
        · rw [readPhysPage_flash, marked_writePhysPage]
        · split
          · rw [readPhysPage_flash, marked_writePhysPage]
          · rw [ih, readPhysPage_flash, marked_writePhysPage]

/-- One block of the write loop: it is passed over and unusable from then on, or it takes a
chunk. -/
lemma writeMgmtRangeLoop_succ {k : ℕ} {start : ℕ} {ni ni' : Inst} {r : Option (ℕ × ℕ)}
    (hrest : rest ≠ []) (h : nmbmWriteMgmtRangeLoop c env size (k + 1) ba rest start ni = (r, ni'))
    :
    (∃ ni1, Touch c ba (ba + 1) ni ni1 ∧ nmbmGetBlockState ni1 ba ≠ blockStGood ∧
        nmbmWriteMgmtRangeLoop c env size k (ba + 1) rest start ni1 = (r, ni')) ∨
      (∃ ni1, Touch c ba (ba + 1) ni ni1 ∧ ni1.blockState = ni.blockState ∧
        nmbmGetBlockState ni1 ba = blockStGood ∧ ni1.chip.flash.marked ba = false ∧
        peek c ni1.chip.flash (c.ba2addr ba) (rest.take c.blkSize).length =
          some (rest.take c.blkSize) ∧
        nmbmWriteMgmtRangeLoop c env size k (ba + 1) (rest.drop c.blkSize)
          (if rest.length = size then ba else start) ni1 = (r, ni')) := by
  have hset : ∀ ni1 : Inst,
      nmbmGetBlockState (nmbmSetBlockState ni1 ba blockStBad) ba ≠ blockStGood := by
    intro ni1
    rw [getBlockState_setBlockState_self]
    decide
  rw [nmbmWriteMgmtRangeLoop, if_neg hrest] at h
  split at h
  · rename_i hst
    exact Or.inl ⟨ni, Touch.refl c _ _ ni, hst, h⟩
  · rename_i hgood
    rw [not_not] at hgood
    dsimp only at h
    have hb := touch_checkBadPhysBlock c env ni ba ba (ba + 1)
    split at h
    · exact Or.inl ⟨_, hb.trans (touch_setBlockState_bad c hgood), hset _, h⟩
    · rename_i hnotbad
      have he := hb.trans (touch_eraseBlockAndCheck c env _ ba)
      have hg : nmbmGetBlockState (nmbmEraseBlockAndCheck c env
          (nmbmCheckBadPhysBlock env ni ba).2 ba).2 ba = blockStGood := by
        rw [getBlockState_eraseBlockAndCheck]
        exact hgood
      split at h
      · exact Or.inl ⟨_, he.trans (touch_skipBadBlock c env hg), hset _, h⟩
      · have hw := he.trans (touch_writeVerifyData c env
          (List.length_take_le c.blkSize rest))
        have hst : (nmbnWriteVerifyData c env (nmbmEraseBlockAndCheck c env
            (nmbmCheckBadPhysBlock env ni ba).2 ba).2 (c.ba2addr ba)
            (rest.take c.blkSize)).2.blockState = ni.blockState := by
          rw [nmbnWriteVerifyData, blockState_writeVerifyLoop, blockState_eraseBlockAndCheck]
          rfl
        have hg' : nmbmGetBlockState (nmbnWriteVerifyData c env (nmbmEraseBlockAndCheck c env
            (nmbmCheckBadPhysBlock env ni ba).2 ba).2 (c.ba2addr ba)
            (rest.take c.blkSize)).2 ba = blockStGood := by
          rw [nmbmGetBlockState, hst]
          exact hgood
        split at h
        · exact Or.inl ⟨_, hw.trans (touch_skipBadBlock c env hg'), hset _, h⟩
        · rename_i hok
          refine Or.inr ⟨_, hw, hst, hg', ?_, ?_, h⟩
          · rw [nmbnWriteVerifyData, marked_writeVerifyLoop, marked_eraseBlockAndCheck]
            simp only [nmbmCheckBadPhysBlock, Chip.isBad, Bool.or_eq_true, not_or,
              Bool.not_eq_true] at hnotbad
            exact hnotbad.1
          · exact writeVerifyData_peek c env (by simpa using hok)

/-- What the write loop leaves on flash. -/
lemma writeMgmtRangeLoop_stored {k : ℕ} {start : ℕ} {ni ni' : Inst} {s : ℕ}
    (h : nmbmWriteMgmtRangeLoop c env size k ba rest start ni = (some (s, e), ni')) :
    Stored c ni' ba rest e ∧ (rest.length = size → rest ≠ [] →
      Stored c ni' s rest e ∧ nmbmGetBlockState ni' s = blockStGood) := by
  induction k generalizing ba rest start ni with
  | zero =>
    rw [nmbmWriteMgmtRangeLoop] at h
    split at h
    · rename_i hr
      simp only [Prod.mk.injEq, Option.some.injEq] at h
      obtain ⟨⟨rfl, rfl⟩, rfl⟩ := h
      subst hr
      exact ⟨Stored.done _, fun _ hne => absurd rfl hne⟩
    · exact absurd h (by simp)
  | succ k ih =>
    by_cases hne : rest = []
    · rw [nmbmWriteMgmtRangeLoop, if_pos hne] at h
      simp only [Prod.mk.injEq, Option.some.injEq] at h
      obtain ⟨⟨rfl, rfl⟩, rfl⟩ := h
      subst hne
      exact ⟨Stored.done _, fun _ hne => absurd rfl hne⟩
    · have hout : ¬ Within (ba + 1) (ba + 1 + k) ba := fun hw => absurd hw.1 (by omega)
      rcases writeMgmtRangeLoop_succ c env hne h with
        ⟨ni1, -, hbad, h1⟩ | ⟨ni1, -, -, hgood, hmark, hpeek, h1⟩
      · have ht := touch_writeMgmtRangeLoop c env size k (ba + 1) rest start ni1
        rw [h1] at ht
        obtain ⟨hs, hs'⟩ := ih h1
        refine ⟨Stored.skip hne ?_ hs, hs'⟩
        rw [ht.state_eq hout]
        exact hbad
      · have ht := touch_writeMgmtRangeLoop c env size k (ba + 1) (rest.drop c.blkSize)
          (if rest.length = size then ba else start) ni1
        have hb := writeMgmtRangeLoop_bounds c env (congrArg Prod.fst h1)
        rw [h1] at ht
        have hg : nmbmGetBlockState ni' ba = blockStGood := (ht.state_eq hout).trans hgood
        have hst : Stored c ni' ba rest e := by
          refine Stored.block hne hg ?_ ?_ (ih h1).1
          · rw [ht.works.flash.marked ba hout]
            exact hmark
          · rw [peek_agree c ht.works.flash hout (List.length_take_le _ _)]
            exact hpeek
        refine ⟨hst, fun hl _ => ?_⟩
        have hlt : (rest.drop c.blkSize).length < size := by
          have := List.length_pos_iff.mpr hne
          have := c.blkSize_pos
          rw [List.length_drop]
          omega
        obtain rfl : s = ba := by
          rw [hb.2.2.2.1 hlt, if_pos hl]
        exact ⟨hst, hg⟩

lemma writeInfoTable_stored {ni ni' : Inst} {limit s : ℕ} (hne : ni.infoTableCache ≠ [])
    (h : nmbmWriteInfoTable c env ni ba limit = (some (s, e), ni')) :
    Stored c ni' s ni.infoTableCache e ∧ nmbmGetBlockState ni' s = blockStGood :=
  (writeMgmtRangeLoop_stored c env h).2 rfl hne

/-! ## Tables in consecutive blocks -/

lemma size2blk_drop (h : rest ≠ []) :
    c.size2blk rest.length = c.size2blk (rest.drop c.blkSize).length + 1 := by
  have hpos := c.blkSize_pos
  have hlen := List.length_pos_iff.mpr h
  rw [Conf.size2blk, Conf.size2blk, List.length_drop]
  rcases Nat.le_total c.blkSize rest.length with hle | hle
  · rw [show rest.length + c.blkSize - 1 = rest.length - c.blkSize + c.blkSize - 1 + c.blkSize
      by omega, Nat.add_div_right _ hpos]
  · rw [Nat.sub_eq_zero_of_le hle, Nat.zero_add, Nat.div_eq_of_lt (by omega : c.blkSize - 1 < _),
      show rest.length + c.blkSize - 1 = rest.length - 1 + c.blkSize by omega,
      Nat.add_div_right _ hpos, Nat.div_eq_of_lt (by omega)]

@[simp] lemma size2blk_zero : c.size2blk 0 = 0 := by
  rw [Conf.size2blk, Nat.zero_add]
  exact Nat.div_eq_of_lt (by have := c.blkSize_pos; omega)

lemma Stored.need_le {c : Conf} {ni : Inst} (h : Stored c ni ba rest e) :
    ba + c.size2blk rest.length ≤ e := by
  induction h with
  | done ba => simp
  | skip _ _ _ ih => omega
  | block hrest _ _ _ _ ih =>
    rw [size2blk_drop c hrest]
    omega

/-- A stored table without a gap lies in consecutive blocks. -/
lemma Stored.contiguous {c : Conf} {ni : Inst} (h : Stored c ni ba rest e)
    (he : e = ba + c.size2blk rest.length) :
    peek c ni.chip.flash (c.ba2addr ba) rest.length = some rest ∧
      ∀ b, ba ≤ b → b < e →
        nmbmGetBlockState ni b = blockStGood ∧ ni.chip.flash.marked b = false := by
  induction h with
  | done ba => exact ⟨rfl, fun b h1 h2 => by omega⟩
  | skip _ _ h ih =>
    -- a block that was passed over pushes the end up
    have := h.need_le
    omega
  | @block ba e rest hrest hgood hmark hpeek h ih =>
    have hneed := size2blk_drop c hrest
    obtain ⟨hpeek2, hall⟩ := ih (by omega)
    refine ⟨?_, fun b h1 h2 => ?_⟩
    · rcases Nat.le_total rest.length c.blkSize with hle | hle
      · rwa [List.take_of_length_le hle] at hpeek
      · rw [List.length_take, Nat.min_eq_left hle] at hpeek
        rw [List.length_drop] at hpeek2
        rw [show rest.length = c.blkSize + (rest.length - c.blkSize) by omega,
          peek_add c (c.ba2addr_mod ba) c.blkSize_mod, hpeek, c.ba2addr_succ, hpeek2]
        simp
    · by_cases hb : b = ba
      · subst hb
        exact ⟨hgood, hmark⟩
      · exact hall b (by omega) h2

/-- Bytes in consecutive good blocks are stored there. -/
lemma stored_of_peek {c : Conf} {ni : Inst}
    (hpeek : peek c ni.chip.flash (c.ba2addr ba) rest.length = some rest)
    (hall : ∀ b, ba ≤ b → b < ba + c.size2blk rest.length →
      nmbmGetBlockState ni b = blockStGood ∧ ni.chip.flash.marked b = false)
    :
    Stored c ni ba rest (ba + c.size2blk rest.length) := by
  obtain ⟨n, hn⟩ : ∃ n, c.size2blk rest.length = n := ⟨_, rfl⟩
  induction n generalizing ba rest with
  | zero =>
    have hnil : rest = [] := by
      by_contra hne
      rw [size2blk_drop c hne] at hn
      omega
    subst hnil
    rw [List.length_nil, size2blk_zero]
    exact Stored.done ba
  | succ n ih =>
    have hne : rest ≠ [] := by
      rintro rfl
      rw [List.length_nil, size2blk_zero] at hn
      omega
    have hneed := size2blk_drop c hne
    obtain ⟨hgood, hmark⟩ := hall ba le_rfl (by omega)
    -- the first block's chunk, and what lies behind it
    have hsplit : peek c ni.chip.flash (c.ba2addr ba) (rest.take c.blkSize).length =
          some (rest.take c.blkSize) ∧
        peek c ni.chip.flash (c.ba2addr (ba + 1)) (rest.drop c.blkSize).length =
          some (rest.drop c.blkSize) := by
      rcases Nat.le_total rest.length c.blkSize with hle | hle
      · rw [List.take_of_length_le hle, List.drop_of_length_le hle]
        exact ⟨hpeek, rfl⟩
      · rw [show rest.length = c.blkSize + (rest.length - c.blkSize) by omega,
          peek_add c (c.ba2addr_mod ba) c.blkSize_mod, c.ba2addr_succ] at hpeek
        obtain ⟨d1, hd1, hpeek⟩ := Option.bind_eq_some_iff.mp hpeek
        obtain ⟨d2, hd2, hcat⟩ := Option.map_eq_some_iff.mp hpeek
        have hl1 := peek_length c hd1
        rw [List.length_take, List.length_drop, Nat.min_eq_left hle, ← hcat,
          List.take_append_of_le_length hl1.ge, List.take_of_length_le hl1.le, List.drop_append,
          List.drop_of_length_le hl1.le, hl1, Nat.sub_self, List.drop_zero, List.nil_append]
        rw [hcat]
        exact ⟨hd1, hd2⟩
    have hrest := ih hsplit.2 (fun b h1 h2 => hall b (by omega) (by omega)) (by omega)
    rw [show ba + c.size2blk rest.length = ba + 1 + c.size2blk (rest.drop c.blkSize).length
      by omega]
    exact Stored.block hne hgood hmark hsplit.1 hrest

variable {c} in
lemma div_lt_of_good {ni : Inst} {b : ℕ} (hlen : ni.blockState.length = c.stateWords)
    (h : nmbmGetBlockState ni b = blockStGood) : b / 16 < c.stateWords := by
  by_contra hge
  rw [nmbmGetBlockState, nmbmGetBlockStateRaw, TwoBit.get_eq_zero_of_le (by omega)] at h
  exact absurd h (by decide)

end Nmbm
