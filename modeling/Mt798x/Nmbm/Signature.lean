import Mt798x.Nmbm.Create
import Mt798x.Nmbm.RoundTrip

/-!
# The search for the signature

`nmbm_create_new` writes the signature into the highest usable block above the management start,
`nmbm_find_signature` looks for it from the top of the chip down to a limit of its own.  The two
bounds are rounded differently: one multiplies the number of blocks before it divides, the other
afterwards, and both in 32 bits.

The loop of the search compares its counter with the limit before it is decremented.  With a limit
of 0 the comparison never fails.
-/

namespace Nmbm

open Bytes Bmt

variable (c : Conf) (env : Env)

/-! ## The loop -/

/-- The `while` loop of `nmbm_find_signature` as it stands, with the `uint32_t` counter `ba`.  The
result is the signature with its block, and the blocks that were looked at; `none` when the fuel is
used up. -/
def findSignatureLoop (limit : ℕ) :
    ℕ → ℕ → List ℕ → Inst → Option ((Option (Signature × ℕ) × List ℕ) × Inst)
  | 0, _, _, _ => none
  | fuel + 1, ba, seen, ni =>
    if ba ≥ limit then
      let ba := u32Sub ba 1
      let b := nmbmCheckBadPhysBlock env ni ba
      if b.1 then findSignatureLoop limit fuel ba (ba :: seen) b.2
      else
        match findSignaturePages c env c.ppb (c.ba2addr ba) b.2 with
        | (some sig, ni) => some ((some (sig, ba), ba :: seen), ni)
        | (none, ni) => findSignatureLoop limit fuel ba (ba :: seen) ni
    else some ((none, seen), ni)

/-- Above a limit other than 0 the loop is the recursion over the `k` blocks from the limit on. -/
lemma findSignatureLoop_blocks {limit : ℕ} (hlimit : limit ≠ 0) (k ba : ℕ) (seen : List ℕ)
    (ni : Inst) (hk : ba + 1 - limit = k) :
    ∃ seen', findSignatureLoop c env limit (k + 1) ba seen ni =
        some (((findSignatureBlocks c env k ba ni).1, seen'),
          (findSignatureBlocks c env k ba ni).2) ∧
      ∀ b ∈ seen', b ∈ seen ∨ b < ba := by
  induction k generalizing ba seen ni with
  | zero =>
    refine ⟨seen, ?_, fun b hb => Or.inl hb⟩
    rw [findSignatureLoop, if_neg (by omega)]
    rfl
  | succ k ih =>
    have hsub : u32Sub ba 1 = ba - 1 := u32Sub_of_le (by omega)
    have hnext : ∀ ni1, ∃ seen', findSignatureLoop c env limit (k + 1) (ba - 1) ((ba - 1) :: seen)
        ni1 = some (((findSignatureBlocks c env k (ba - 1) ni1).1, seen'),
          (findSignatureBlocks c env k (ba - 1) ni1).2) ∧ ∀ b ∈ seen', b ∈ seen ∨ b < ba := by
      intro ni1
      obtain ⟨seen', h1, h2⟩ := ih (ba - 1) ((ba - 1) :: seen) ni1 (by omega)
      refine ⟨seen', h1, fun b hb => ?_⟩
      rcases h2 b hb with hmem | hlt
      · rcases List.mem_cons.mp hmem with rfl | hmem
        · exact Or.inr (by omega)
        · exact Or.inl hmem
      · exact Or.inr (by omega)
    rw [findSignatureLoop, if_pos (by omega), findSignatureBlocks, hsub]
    dsimp only
    split
    · exact hnext _
    · rcases hpages : findSignaturePages c env c.ppb (c.ba2addr (ba - 1))
        (nmbmCheckBadPhysBlock env ni (ba - 1)).2 with ⟨_ | sig, ni1⟩
      · exact hnext ni1
      · refine ⟨(ba - 1) :: seen, rfl, fun b hb => ?_⟩
        rcases List.mem_cons.mp hb with rfl | hmem
        · exact Or.inr (by omega)
        · exact Or.inl hmem

lemma findSignatureLoop_bad {fuel ba : ℕ} {seen : List ℕ} {ni : Inst}
    (hbad : ∀ b, ni.chip.flash.marked b = true) :
    findSignatureLoop c env 0 fuel ba seen ni = none := by
  induction fuel generalizing ba seen ni with
  | zero => rfl
  | succ fuel ih =>
    have hb : (nmbmCheckBadPhysBlock env ni (u32Sub ba 1)).1 = true := by
      rw [nmbmCheckBadPhysBlock, Chip.isBad, hbad, Bool.true_or]
    rw [findSignatureLoop, if_pos (Nat.zero_le _)]
    dsimp only
    rw [if_pos hb]
    exact ih hbad

lemma findSignatureLoop_fuel {limit fuel fuel' ba : ℕ} {seen : List ℕ} {ni : Inst}
    {r r' : (Option (Signature × ℕ) × List ℕ) × Inst}
    (h : findSignatureLoop c env limit fuel ba seen ni = some r)
    (h' : findSignatureLoop c env limit fuel' ba seen ni = some r') : r = r' := by
  induction fuel generalizing fuel' ba seen ni with
  | zero => cases h
  | succ fuel ih =>
    cases fuel' with
    | zero => cases h'
    | succ fuel' =>
      rw [findSignatureLoop] at h h'
      split at h
      · rename_i hge
        rw [if_pos hge] at h'
        dsimp only at h h'
        split at h
        · rename_i hbad
          rw [if_pos hbad] at h'
          exact ih h h'
        · rename_i hgood
          rw [if_neg hgood] at h'
          rcases hpages : findSignaturePages c env c.ppb (c.ba2addr (u32Sub ba 1))
            (nmbmCheckBadPhysBlock env ni (u32Sub ba 1)).2 with ⟨_ | sig, ni1⟩
          · rw [hpages] at h h'
            exact ih h h'
          · rw [hpages] at h h'
            exact Option.some.inj (h.symm.trans h')
      · rename_i hlt
        rw [if_neg hlt] at h'
        exact Option.some.inj (h.symm.trans h')

/-- `nmbm_find_signature` on `ni` ends and looks at no block outside the chip. -/
def SearchEnds (ni : Inst) : Prop :=
  ∃ fuel r, findSignatureLoop c env (signatureLimit c) fuel c.blockCount [] ni = some r ∧
    ∀ b ∈ r.1.2, b < c.blockCount

/-- `nmbm_find_signature` on `ni` finds the signature `sig` in block `ba`. -/
def SearchFinds (ni : Inst) (sig : Signature) (ba : ℕ) : Prop :=
  ∃ fuel seen ni', findSignatureLoop c env (signatureLimit c) fuel c.blockCount [] ni =
    some ((some (sig, ba), seen), ni')

lemma searchEnds_iff : (∀ env ni, SearchEnds c env ni) ↔ signatureLimit c ≠ 0 := by
  constructor
  · intro h hlimit
    obtain ⟨fuel, r, hr, -⟩ := h Env.ideal (nmbmInitStructure c ⟨⟨fun _ => none, fun _ => true⟩, 0, []⟩)
    rw [hlimit, findSignatureLoop_bad c Env.ideal fun _ => rfl] at hr
    cases hr
  · intro hlimit env ni
    obtain ⟨seen, h1, h2⟩ := findSignatureLoop_blocks c env hlimit _ c.blockCount [] ni rfl
    refine ⟨_, _, h1, fun b hb => ?_⟩
    rcases h2 b hb with hmem | hlt
    · cases hmem
    · exact hlt

/-! ## Finding what was written -/

/-- Reading the page never fails. -/
def Readable (env : Env) (page : ℕ) : Prop :=
  ∀ t, 0 ≤ env.readRet t page ∨ env.readRet t page = eUCLEAN

/-- The pages of block `ba` hold the signature with the bytes `bs`, and `ba` is the highest block
that is not bad; `reported` are the blocks that the driver reports bad without a mark. -/
structure Signed (reported : ℕ → Bool) (f : Flash) (ba : ℕ) (bs : List Byte) : Prop where
  lt : ba < c.blockCount
  above : ∀ b, ba < b → b < c.blockCount → (f.marked b || reported b) = true
  good : (f.marked ba || reported ba) = false
  pages : ∀ j < c.ppb, peek c f (c.ba2addr ba + j * c.pgSize) signatureSize = some bs

section Finding

variable {c env} {bs : List Byte} {reported : ℕ → Bool}

lemma readData_readable {ni : Inst} {addr : ℕ}
    (hpeek : peek c ni.chip.flash addr signatureSize = some bs) (halign : addr % c.pgSize = 0)
    (hread : Readable env (c.pageOf addr)) :
    (nmbnReadData c env ni addr signatureSize).1.1 = 0 := by
  have hpg := c.pgSize_ge
  have hmin : min (c.pgSize - addr % c.pgSize) signatureSize = signatureSize := by
    rw [halign, signatureSize]
    omega
  have hret : 0 ≤ (nmbmReadPhysPage c env ni (addr - addr % c.pgSize)).1.1 := by
    rw [halign, Nat.sub_zero, nmbmReadPhysPage]
    rw [peek_step c (by decide), pageOf_pageStart] at hpeek
    cases hp : ni.chip.flash.pages (c.pageOf addr) with
    | none =>
      rw [hp] at hpeek
      cases hpeek
    | some p =>
      have hr : ni.chip.read c.toGeom env (c.pageOf addr) =
          ((env.readRet ni.chip.tick (c.pageOf addr), { p with data := c.fit p.data }),
            ni.chip.tock) := by
        rw [Chip.read, hp]
      rw [tryCount, nmbmReadPhysPageTry, hr]
      dsimp only
      split
      · exact Int.natCast_nonneg _
      · rename_i hne
        rw [if_pos ((hread ni.chip.tick).resolve_right hne)]
  obtain ⟨n, hn⟩ : ∃ n, signatureSize = n + 1 := ⟨47, rfl⟩
  rw [nmbnReadData]
  nth_rewrite 1 [hn]
  rw [nmbnReadDataLoop, if_neg (by decide)]
  dsimp only
  rw [if_neg (not_lt.mpr hret), hmin, Nat.sub_self]
  cases n with
  | zero => rfl
  | succ n => rw [nmbnReadDataLoop, if_pos rfl]

/-- A block whose pages hold a valid signature is accepted when one of them can be read. -/
lemma findSignaturePages_signed (hheader : nmbmCheckHeader bs signatureSize = true)
    (hmagic : rd32 bs = magicSignature) {k addr : ℕ} {ni : Inst} (halign : addr % c.pgSize = 0)
    (hpages : ∀ j < k, peek c ni.chip.flash (addr + j * c.pgSize) signatureSize = some bs)
    (hread : ∃ j < k, Readable env (c.pageOf (addr + j * c.pgSize))) :
    (findSignaturePages c env k addr ni).1 = some (Signature.ofBytes bs) := by
  induction k generalizing addr ni with
  | zero =>
    obtain ⟨j, hj, -⟩ := hread
    exact absurd hj (Nat.not_lt_zero j)
  | succ k ih =>
    have hpeek := hpages 0 (Nat.succ_pos k)
    rw [Nat.zero_mul, Nat.add_zero] at hpeek
    rw [findSignaturePages]
    by_cases h0 : (nmbnReadData c env ni addr signatureSize).1.1 = 0
    · have hdata := readData_peek c env h0.ge
      rw [hpeek, Option.some.injEq] at hdata
      rw [← hdata, if_pos ⟨h0, hheader, hmagic⟩]
    · rw [if_neg fun h => h0 h.1]
      have hshift : ∀ j, addr + c.pgSize + j * c.pgSize = addr + (j + 1) * c.pgSize := by
        intro j
        rw [Nat.add_mul, Nat.one_mul]
        omega
      refine ih (by rw [Nat.add_mod_right]; exact halign) (fun j hj => ?_) ?_
      · rw [readData_flash, hshift]
        exact hpages (j + 1) (by omega)
      · obtain ⟨j, hj, hr⟩ := hread
        cases j with
        | zero =>
          rw [Nat.zero_mul, Nat.add_zero] at hr
          exact absurd (readData_readable hpeek halign hr) h0
        | succ j => exact ⟨j, by omega, by rw [hshift]; exact hr⟩

/-- The search passes over the bad blocks and stops at the signed one. -/
lemma findSignatureBlocks_signed (hheader : nmbmCheckHeader bs signatureSize = true)
    (hmagic : rd32 bs = magicSignature) {p : ℕ} {f : Flash} (hs : Signed c reported f p bs)
    (hrep : ∀ t b, env.reportBad t b = reported b)
    (hread : ∃ j < c.ppb, Readable env (c.pageOf (c.ba2addr p + j * c.pgSize))) {k ba : ℕ}
    {ni : Inst} (hf : ni.chip.flash = f) (hp : p < ba) (hba : ba ≤ c.blockCount)
    (hk : ba ≤ p + k) :
    (findSignatureBlocks c env k ba ni).1 = some (Signature.ofBytes bs, p) := by
  induction k generalizing ba ni with
  | zero => omega
  | succ k ih =>
    have hbad : (nmbmCheckBadPhysBlock env ni (ba - 1)).1 =
        (f.marked (ba - 1) || reported (ba - 1)) := by
      rw [nmbmCheckBadPhysBlock, Chip.isBad, hrep, hf]
    rw [findSignatureBlocks]
    rcases Nat.lt_or_ge p (ba - 1) with hlt | hge
    · rw [if_pos (hbad.trans (hs.above _ hlt (by omega)))]
      exact ih hf hlt (by omega) (by omega)
    · obtain rfl : p = ba - 1 := by omega
      have hpages := @findSignaturePages_signed c env bs hheader hmagic c.ppb _
        (nmbmCheckBadPhysBlock env ni (ba - 1)).2 (c.ba2addr_mod (ba - 1))
        (fun j hj => by
          rw [show (nmbmCheckBadPhysBlock env ni (ba - 1)).2.chip.flash = f from hf]
          exact hs.pages j hj) hread
      rw [hbad, hs.good, if_neg Bool.false_ne_true]
      rcases hfind : findSignaturePages c env c.ppb (c.ba2addr (ba - 1))
        (nmbmCheckBadPhysBlock env ni (ba - 1)).2 with ⟨_ | sig, ni1⟩
      · rw [hfind] at hpages
        cases hpages
      · rw [hfind] at hpages
        dsimp only at hpages ⊢
        rw [Option.some.inj hpages]

end Finding

/-! ## What creation writes -/

lemma blockState_writeRepeatedLoop (data : List Byte) (k addr : ℕ) (ni : Inst) :
    (nmbmWriteRepeatedLoop c env data k addr ni).2.blockState = ni.blockState := by
  induction k generalizing addr ni with
  | zero => rfl
  | succ k ih =>
    rw [nmbmWriteRepeatedLoop]
    dsimp only
    split
    · rfl
    · split
      · rfl
      · split
        · rfl
        · exact ih _ _

lemma marked_writeRepeatedLoop (data : List Byte) (k addr : ℕ) (ni : Inst) :
    (nmbmWriteRepeatedLoop c env data k addr ni).2.chip.flash.marked = ni.chip.flash.marked := by
  induction k generalizing addr ni with
  | zero => rfl
  | succ k ih =>
    rw [nmbmWriteRepeatedLoop]
    dsimp only
    split
    · exact marked_writePhysPage c env _ _ _
    · split
      · rw [readPhysPage_flash, marked_writePhysPage]
      · split
        · rw [readPhysPage_flash, marked_writePhysPage]
        · rw [ih, readPhysPage_flash, marked_writePhysPage]

lemma writeRepeatedLoop_pages {data : List Byte} {k addr : ℕ} {ni : Inst} {p : ℕ}
    (hp : p < c.pageOf addr) :
    (nmbmWriteRepeatedLoop c env data k addr ni).2.chip.flash.pages p =
      ni.chip.flash.pages p := by
  induction k generalizing addr ni with
  | zero => rfl
  | succ k ih =>
    have hw : (nmbmWritePhysPage c env ni addr (padPage c data)).2.chip.flash.pages p =
        ni.chip.flash.pages p := writePhysPageTry_pages c env hp.ne
    have hnext : p < c.pageOf (addr + c.pgSize) :=
      hp.trans_le (Nat.div_le_div_right (Nat.le_add_right _ _))
    rw [nmbmWriteRepeatedLoop]
    dsimp only
    split
    · exact hw
    · split
      · rw [readPhysPage_flash, hw]
      · split
        · rw [readPhysPage_flash, hw]
        · rw [ih hnext, readPhysPage_flash, hw]

/-- After a successful write all pages hold the data. -/
lemma writeRepeatedLoop_peek {data : List Byte} (hlen : data.length = signatureSize)
    {k addr : ℕ} {ni : Inst} (halign : addr % c.pgSize = 0)
    (h : (nmbmWriteRepeatedLoop c env data k addr ni).1 = true) :
    ∀ j < k, peek c (nmbmWriteRepeatedLoop c env data k addr ni).2.chip.flash
      (addr + j * c.pgSize) signatureSize = some data := by
  induction k generalizing addr ni with
  | zero => intro j hj; exact absurd hj (Nat.not_lt_zero j)
  | succ k ih =>
    have hpg := c.pgSize_ge
    rw [nmbmWriteRepeatedLoop] at h ⊢
    dsimp only at h ⊢
    split at h
    · cases h
    · rename_i hw
      rw [if_neg hw]
      split at h
      · cases h
      · rename_i hr
        rw [if_neg hr]
        split at h
        · cases h
        · rename_i hd
          rw [if_neg hd]
          intro j hj
          cases j with
          | zero =>
            obtain ⟨p, hp, hdata⟩ := readPhysPage_data c env (not_lt.mp hr)
            rw [Nat.zero_mul, Nat.add_zero, peek_step c (by decide), halign, Nat.sub_zero,
              writeRepeatedLoop_pages c env (p := c.pageOf addr), readPhysPage_flash]
            · have hmin : min (c.pgSize - 0) signatureSize = signatureSize := by
                rw [signatureSize]
                omega
              rw [hp, hmin, Nat.sub_self]
              dsimp only
              rw [peek_zero, Option.map_some, List.append_nil, List.drop_zero, ← hdata, ← hlen]
              exact congrArg some (not_not.mp hd)
            · rw [Geom.pageOf, Geom.pageOf, Nat.add_div_right _ c.pgSize_pos]
              exact Nat.lt_succ_self _
          | succ j =>
            have := ih (by rw [Nat.add_mod_right]; exact halign) h j (by omega)
            rwa [show addr + c.pgSize + j * c.pgSize = addr + (j + 1) * c.pgSize by
              rw [Nat.add_mul, Nat.one_mul]; omega] at this

lemma Signed.agree {reported : ℕ → Bool} {f f' : Flash} {lo ba : ℕ} {bs : List Byte}
    (h : Signed c reported f ba bs) (hf : Agree c.toGeom lo ba f f') :
    Signed c reported f' ba bs := by
  have hout : ∀ b, ba ≤ b → ¬Within lo ba b := fun b hb hw => absurd hw.2 (not_lt.mpr hb)
  refine ⟨h.lt, fun b hb hbc => ?_, ?_, fun j hj => ?_⟩
  · rw [hf.marked b (hout b hb.le)]
    exact h.above b hb hbc
  · rw [hf.marked ba (hout ba le_rfl)]
    exact h.good
  · rw [← h.pages j hj]
    refine peek_congr c fun a h1 h2 => hf.pages _ (hout _ ?_)
    rw [Geom.blockOf_pageOf]
    refine (Nat.le_div_iff_mul_le c.blkSize_pos).mpr ?_
    rw [Conf.ba2addr] at h1
    omega

/-- The driver: marks take, and apart from marks a block is always or never reported bad. -/
structure Steady (reported : ℕ → Bool) : Prop where
  marks : ∀ t b, env.markOk t b = true
  reports : ∀ t b, env.reportBad t b = reported b

/-- The state table calls only those blocks unusable that the driver reports bad. -/
def Tells (reported : ℕ → Bool) (ni : Inst) : Prop :=
  ∀ b < c.blockCount, nmbmGetBlockState ni b ≠ blockStGood →
    (ni.chip.flash.marked b || reported b) = true

section Creation

variable {c env} {reported : ℕ → Bool}

lemma getBlockState_setBlockState_ne (ni : Inst) {ba b : ℕ} (st : UInt32) (hne : b ≠ ba) :
    nmbmGetBlockState (nmbmSetBlockState ni ba st) b = nmbmGetBlockState ni b := by
  have hst : (nmbmSetBlockState ni ba st).blockState = TwoBit.set ni.blockState ba st := by
    rw [nmbmSetBlockState]
    dsimp only
    split <;> rfl
  rw [nmbmGetBlockState, nmbmGetBlockStateRaw, hst]
  exact TwoBit.get_set_ne st hne

lemma setBlockState_chip (ni : Inst) (ba : ℕ) (st : UInt32) :
    (nmbmSetBlockState ni ba st).chip = ni.chip := by
  rw [nmbmSetBlockState]
  dsimp only
  split <;> rfl

lemma Tells.congr {ni ni' : Inst} (h : Tells c reported ni)
    (hst : ni'.blockState = ni.blockState)
    (hm : ni'.chip.flash.marked = ni.chip.flash.marked) : Tells c reported ni' := by
  intro b hb hne
  rw [nmbmGetBlockState, hst] at hne
  rw [hm]
  exact h b hb hne

lemma Tells.setBlockState {ni : Inst} (h : Tells c reported ni) {ba : ℕ}
    (hba : (ni.chip.flash.marked ba || reported ba) = true) :
    Tells c reported (nmbmSetBlockState ni ba blockStBad) := by
  intro b hb hne
  rw [setBlockState_chip]
  by_cases heq : b = ba
  · rw [heq]
    exact hba
  · rw [getBlockState_setBlockState_ne ni _ heq] at hne
    exact h b hb hne

lemma checkBad_reported (hsteady : Steady env reported) (ni : Inst) (ba : ℕ) :
    (nmbmCheckBadPhysBlock env ni ba).1 = (ni.chip.flash.marked ba || reported ba) := by
  rw [nmbmCheckBadPhysBlock, Chip.isBad, hsteady.reports]

lemma scanBadblocksLoop_tells (hsteady : Steady env reported) (k ba : ℕ) {ni : Inst}
    (h : Tells c reported ni) : Tells c reported (nmbmScanBadblocksLoop env k ba ni) := by
  induction k generalizing ba ni with
  | zero => exact h
  | succ k ih =>
    have hcheck : Tells c reported (nmbmCheckBadPhysBlock env ni ba).2 := h.congr rfl rfl
    rw [nmbmScanBadblocksLoop]
    split
    · rename_i hbad
      rw [checkBad_reported hsteady] at hbad
      exact ih _ (hcheck.setBlockState hbad)
    · exact ih _ hcheck

lemma marked_skipBadBlock (hsteady : Steady env reported) (ni : Inst) (ba b : ℕ) :
    (skipBadBlock c env ni ba).chip.flash.marked b =
      (ni.chip.flash.marked b || b == ba) := by
  rw [skipBadBlock, setBlockState_chip]
  show (ni.chip.flash.marked b || (b == ba && env.markOk ni.chip.tick ba)) = _
  rw [hsteady.marks, Bool.and_true]

variable {ni ni' : Inst}

lemma Tells.skipBadBlock (hsteady : Steady env reported) (h : Tells c reported ni) (ba : ℕ) :
    Tells c reported (skipBadBlock c env ni ba) := by
  refine @Tells.setBlockState c reported (nmbmMarkPhysBadBlock c env ni ba) (fun b hb hne => ?_) ba ?_
  · have := h b hb hne
    show ((ni.chip.flash.marked b || (b == ba && env.markOk ni.chip.tick ba)) || reported b) = true
    rw [Bool.or_eq_true] at this ⊢
    exact this.imp_left fun h => by rw [h, Bool.true_or]
  · show ((ni.chip.flash.marked ba || (ba == ba && env.markOk ni.chip.tick ba)) || reported ba) =
      true
    rw [hsteady.marks, beq_self_eq_true, Bool.and_true, Bool.or_true, Bool.true_or]

lemma length_signatureBytes (s : Signature) : s.bytes.length = signatureSize := by
  rw [Signature.bytes, length_leWords]
  rfl

/-- The signature goes into the highest block that is not bad afterwards. -/
lemma writeSignatureLoop_signed (hsteady : Steady env reported) {sig : Signature} {k ba p : ℕ}
    {ni ni' : Inst} (hk : k ≤ ba) (hba : ba < c.blockCount) (htell : Tells c reported ni)
    (habove : ∀ b, ba < b → b < c.blockCount → (ni.chip.flash.marked b || reported b) = true)
    (h : nmbmWriteSignatureLoop c env sig k ba ni = (some p, ni')) :
    Signed c reported ni'.chip.flash p sig.bytes := by
  induction k generalizing ba ni with
  | zero =>
    rw [nmbmWriteSignatureLoop, Prod.mk.injEq] at h
    exact absurd h.1 (by simp)
  | succ k ih =>
    -- a block that is passed over is reported bad from then on
    have hnext : ∀ {ni1 : Inst}, Tells c reported ni1 →
        (∀ b, ni.chip.flash.marked b = true → ni1.chip.flash.marked b = true) →
        (ni1.chip.flash.marked ba || reported ba) = true →
        nmbmWriteSignatureLoop c env sig k (ba - 1) ni1 = (some p, ni') →
        Signed c reported ni'.chip.flash p sig.bytes := by
      intro ni1 ht hm hbad h1
      refine ih (by omega) (by omega) ht (fun b hb hbc => ?_) h1
      rcases Nat.lt_or_ge ba b with hlt | hge
      · have := habove b hlt hbc
        rw [Bool.or_eq_true] at this ⊢
        exact this.imp_left (hm b)
      · obtain rfl : b = ba := by omega
        exact hbad
    have hcheck : Tells c reported (nmbmCheckBadPhysBlock env ni ba).2 := htell.congr rfl rfl
    rw [nmbmWriteSignatureLoop] at h
    split at h
    · rename_i hst
      exact hnext htell (fun _ h => h) (htell ba hba hst) h
    · dsimp only at h
      split at h
      · rename_i hbad
        rw [checkBad_reported hsteady] at hbad
        refine hnext (hcheck.setBlockState hbad) (fun b hb => ?_) ?_ h
        · rw [setBlockState_chip]
          exact hb
        · rw [setBlockState_chip]
          exact hbad
      · rename_i hgood
        rw [checkBad_reported hsteady, Bool.not_eq_true] at hgood
        set r := nmbmEraseBlockAndCheck c env (nmbmCheckBadPhysBlock env ni ba).2 ba with hr
        have hmr : r.2.chip.flash.marked = ni.chip.flash.marked :=
          marked_eraseBlockAndCheck c env _ ba
        have htr : Tells c reported r.2 :=
          hcheck.congr (blockState_eraseBlockAndCheck c env _ ba) hmr
        have hskip : ∀ {ni1 : Inst}, Tells c reported ni1 →
            ni1.chip.flash.marked = ni.chip.flash.marked →
            nmbmWriteSignatureLoop c env sig k (ba - 1) (skipBadBlock c env ni1 ba) =
              (some p, ni') → Signed c reported ni'.chip.flash p sig.bytes := by
          intro ni1 ht hm h1
          refine hnext (ht.skipBadBlock hsteady ba) (fun b hb => ?_) ?_ h1
          · rw [marked_skipBadBlock hsteady, hm, hb, Bool.true_or]
          · rw [marked_skipBadBlock hsteady, beq_self_eq_true, Bool.or_true, Bool.true_or]
        split at h
        · exact hskip htr hmr h
        · have hlen : ¬sig.bytes.length > c.pgSize := by
            have := c.pgSize_ge
            rw [length_signatureBytes, signatureSize]
            omega
          rw [nmbmWriteRepeatedData, if_neg hlen] at h
          have hmw := marked_writeRepeatedLoop c env sig.bytes c.ppb (c.ba2addr ba) r.2
          split at h
          · rename_i hw
            rw [Prod.mk.injEq, Option.some.injEq] at h
            obtain ⟨rfl, rfl⟩ := h
            refine ⟨hba, fun b hb hbc => ?_, ?_, ?_⟩
            · rw [hmw, hmr]
              exact habove b hb hbc
            · rw [hmw, hmr]
              exact hgood
            · exact writeRepeatedLoop_peek c env (length_signatureBytes sig) (c.ba2addr_mod ba) hw
          · exact hskip (htr.congr (blockState_writeRepeatedLoop c env _ _ _ _) hmw)
              (hmw.trans hmr) h

/-! ## The tables behind the signature -/

/-- The tables were worked on below the watermark, and the watermark did not rise. -/
structure Confined (c : Conf) (ni ni' : Inst) : Prop where
  works : Works c.toGeom true ni.mgmtStartBa ni.mappingBlocksTopBa ni.chip ni'.chip
  signature : ni'.signature = ni.signature
  signatureBa : ni'.signatureBa = ni.signatureBa
  mgmtStartBa : ni'.mgmtStartBa = ni.mgmtStartBa
  top_le : ni'.mappingBlocksTopBa ≤ ni.mappingBlocksTopBa

lemma confined_refl (ni : Inst) : Confined c ni ni := ⟨Works.refl _ _ _ _ _, rfl, rfl, rfl, le_rfl⟩

lemma Confined.trans {ni ni' ni'' : Inst} (h : Confined c ni ni') (h' : Confined c ni' ni'') :
    Confined c ni ni'' :=
  ⟨h.works.trans (h'.works.mono h.mgmtStartBa.ge h.top_le), h'.signature.trans h.signature,
    h'.signatureBa.trans h.signatureBa, h'.mgmtStartBa.trans h.mgmtStartBa,
    h'.top_le.trans h.top_le⟩

lemma confined_updateInfoTable {r : Bool} (hlay : Layout ni)
    (h : nmbmUpdateInfoTable c env ni = (r, ni')) : Confined c ni ni' := by
  obtain ⟨hr, -, -⟩ := updateInfoTable_spec c env hlay h
  exact ⟨hr.updates.works, (congrArg Inst.signature hr.updates.frame :),
    (congrArg Inst.signatureBa hr.updates.frame :), hr.updates.mgmtStartBa,
    hr.updates.mappingBlocksTopBa.le⟩

lemma confined_mapBlock {lb : ℕ} {r : Bool} (hlay : Layout ni)
    (h : nmbmMapBlock c env ni lb = (r, ni')) : Confined c ni ni' := by
  rcases mapBlock_cases c env h with ⟨-, rfl⟩ | ⟨r1, ni1, -, hu, rfl⟩ | ⟨pb, rfl, -, -, rfl⟩
  · exact confined_refl _
  · obtain ⟨hr, -, -⟩ := updateInfoTable_spec c env hlay hu
    have hc := confined_updateInfoTable hlay hu
    exact ⟨hc.works, hc.signature, hc.signatureBa, hc.mgmtStartBa, hr.layout.top.trans hc.top_le⟩
  · exact ⟨Works.refl _ _ _ _ _, rfl, rfl, rfl, Nat.sub_le _ _⟩

lemma confined_createMapLoop {k lb : ℕ} {ni : Inst} (hlay : Layout ni) :
    Confined c ni (createMapLoop c env k lb ni) ∧ Layout (createMapLoop c env k lb ni) := by
  induction k generalizing lb ni with
  | zero => exact ⟨confined_refl ni, hlay⟩
  | succ k ih =>
    rw [createMapLoop]
    rcases hmap : nmbmMapBlock c env ni lb with ⟨r, ni1⟩
    have h1 := confined_mapBlock hlay hmap
    have hlay1 := mapBlock_layout c env hlay hmap
    cases r with
    | false => exact ⟨h1, hlay1⟩
    | true =>
      have h2 : Confined c ni { ni1 with dataBlockCount := ni1.dataBlockCount + 1 } :=
        ⟨h1.works, h1.signature, h1.signatureBa, h1.mgmtStartBa, h1.top_le⟩
      obtain ⟨h3, h4⟩ := @ih (lb + 1) { ni1 with dataBlockCount := ni1.dataBlockCount + 1 }
        ⟨hlay1.mgmt_le, hlay1.top, hlay1.main, hlay1.backup⟩
      exact ⟨h2.trans h3, h4⟩

lemma createInfoTable_agree (hs : ni.Shaped c) (hmg : ni.mgmtStartBa < ni.signatureBa)
    (hsig : ni.signatureBa < c.blockCount) (h : nmbmCreateInfoTable c env ni = (true, ni')) :
    Agree c.toGeom ni.mgmtStartBa ni.signatureBa ni.chip.flash ni'.chip.flash ∧
      ni'.signature = ni.signature ∧ ni'.signatureBa = ni.signatureBa := by
  obtain ⟨ni2, hr, h⟩ := createInfoTable_rebuilt c env hs hmg hsig h
  obtain ⟨hmap, hlay⟩ := @confined_createMapLoop c env (ni2.mgmtStartBa - ni2.dataBlockCount)
    ni2.dataBlockCount ni2 hr.consistent.layout
  have hall := hmap.trans (confined_updateInfoTable hlay h)
  refine ⟨(hr.works.trans (hall.works.mono hr.mgmtStartBa.ge hr.top_lt.le)).flash,
    hall.signature.trans hr.signature, hall.signatureBa.trans hr.signatureBa⟩

lemma rebuildInfoTable_room (hne : ni.infoTableCache ≠ [])
    (h : nmbmRebuildInfoTable c env ni = (true, ni')) :
    ni.mgmtStartBa + c.size2blk ni.infoTableCache.length ≤ ni.mappingBlocksTopBa := by
  rw [nmbmRebuildInfoTable] at h
  dsimp only at h
  split at h
  · exact absurd h (by simp)
  · rename_i s e ni1 hwrite
    have hend := (writeMgmtRangeLoop_end c env (congrArg Prod.fst hwrite)).1
    obtain ⟨-, -, hle⟩ := writeMgmtRange_bounds c env hne (congrArg Prod.fst hwrite)
    exact hend.trans hle

/-- The tables take up the blocks between the management start and the block below the
signature. -/
lemma createInfoTable_room (hs : ni.Shaped c) (hsig : ni.signatureBa < c.blockCount)
    (hmg : ni.mgmtStartBa < ni.signatureBa) (h : nmbmCreateInfoTable c env ni = (true, ni')) :
    ni.mgmtStartBa + c.infoTableBlocks < ni.signatureBa := by
  rw [nmbmCreateInfoTable] at h
  split at h
  · exact absurd h (by simp)
  · rename_i top hw
    rw [nmbmBlockWalkDesc, if_neg (by omega)] at hw
    obtain ⟨-, -, -, htop⟩ := blockWalkDescLoop_spec (by omega) hw
    have htop := htop Nat.one_pos
    dsimp only at h
    have hlen : (generatedImage c { ni with mappingBlocksTopBa := top }).length =
        c.infoTableSize := length_generatedImage ⟨hs.state, hs.mapping, hs.offsets⟩
    have hne := generatedImage_ne_nil c { ni with mappingBlocksTopBa := top }
    rcases hreb : nmbmRebuildInfoTable c env
      (nmbmGenerateInfoTableCache c { ni with mappingBlocksTopBa := top }).2 with ⟨_ | _, ni1⟩
    · rw [hreb] at h
      exact absurd h (by simp)
    · have hroom := rebuildInfoTable_room hne hreb
      rw [show (nmbmGenerateInfoTableCache c { ni with mappingBlocksTopBa := top }).2.infoTableCache =
        generatedImage c { ni with mappingBlocksTopBa := top } from rfl, hlen] at hroom
      exact hroom.trans_lt htop

/-! ## The new signature -/

lemma leWords_rdWords {n : ℕ} {bs : List Byte} (h : bs.length = 4 * n) :
    leWords (rdWords n bs) = bs := by
  induction n generalizing bs with
  | zero => rw [List.eq_nil_of_length_eq_zero h]; rfl
  | succ n ih =>
    obtain ⟨a, b, d, e, rest, rfl⟩ : ∃ a b d e rest, bs = a :: b :: d :: e :: rest := by
      match bs, h with
      | a :: b :: d :: e :: rest, _ => exact ⟨a, b, d, e, rest, rfl⟩
    have hrd : rd32 (a :: b :: d :: e :: rest) = rd32 [a, b, d, e] :=
      (rd32_take_four (a :: b :: d :: e :: rest)).symm
    rw [rdWords, leWords_cons, hrd, le32_rd32,
      show (a :: b :: d :: e :: rest).drop 4 = rest from rfl, ih (by simp only [List.length_cons] at h; omega)]
    rfl

lemma bytes_ofBytes {bs : List Byte} (h : bs.length = signatureSize) :
    (Signature.ofBytes bs).bytes = bs := by
  have hwords : (Signature.ofBytes bs).bytes = leWords (rdWords 12 bs) := by
    simp only [rdWords, List.drop_drop]
    rfl
  rw [hwords, leWords_rdWords h]

/-- The bytes of the new signature pass the checks of the search. -/
lemma newSignature_valid (s : Signature) (start : ℕ) :
    nmbmCheckHeader (newSignature c s start).bytes signatureSize = true ∧
      rd32 (newSignature c s start).bytes = magicSignature ∧
      Signature.ofBytes (newSignature c s start).bytes = newSignature c s start := by
  set t : Signature := { s with
    magic := magicSignature
    version := nmbmVer
    size := UInt32.ofNat signatureSize
    nandSizeLo := UInt32.ofNat c.nandSize
    nandSizeHi := UInt32.ofNat (c.nandSize / 2 ^ 32)
    blockSize := UInt32.ofNat c.blkSize
    pageSize := UInt32.ofNat c.pgSize
    spareSize := UInt32.ofNat c.oobsize
    mgmtStartPb := UInt32.ofNat start
    maxTryCount := UInt32.ofNat tryCount } with ht
  have hnew : newSignature c s start = Signature.ofBytes (nmbmUpdateChecksum t.bytes) := rfl
  have hlen := length_signatureBytes t
  have hsize : (rd32 (t.bytes.drop 8)).toNat = t.bytes.length := by
    rw [hlen]
    have hword : rd32 (t.bytes.drop 8) = t.size := by
      rw [Signature.bytes]
      simp only [leWords_cons]
      exact rd32_le32_append _ _
    rw [hword]
    rfl
  have hsum := @updateChecksum_of_size t.bytes (by rw [hlen, signatureSize]; omega) hsize
  have hsumlen : (nmbmUpdateChecksum t.bytes).length = signatureSize := by
    rw [hsum, length_splice (by rw [hlen, length_le32, signatureSize]; omega), hlen]
  rw [hnew, bytes_ofBytes hsumlen]
  refine ⟨?_, ?_, rfl⟩
  · rw [← hlen]
    exact checkHeader_updateChecksum (by rw [hlen, signatureSize]; omega) hsize
  · have hmagic := @rd32_drop_splice_of_le t.bytes (le32 (Crc.crc32Le 0 (clearedChecksum t.bytes)))
      12 0 (by omega) (by rw [hlen, signatureSize]; omega)
    rw [hsum]
    refine hmagic.trans ?_
    rw [List.drop_zero, Signature.bytes]
    simp only [leWords_cons]
    exact rd32_le32_append _ _

/-! ## The round trip -/

/-- After `nmbm_create_new` the block of the signature is the highest one that is not bad, and its
pages hold the signature. -/
lemma createNew_signed (hsteady : Steady env reported) {chip : Chip}
    (h : nmbmCreateNew c env (nmbmInitStructure c chip) = (true, ni')) :
    ∃ bs, Signed c reported ni'.chip.flash ni'.signatureBa bs ∧
      nmbmCheckHeader bs signatureSize = true ∧ rd32 bs = magicSignature ∧
      Signature.ofBytes bs = ni'.signature ∧
      newMgmtStart c + c.infoTableBlocks < ni'.signatureBa := by
  have hinit := initStructure_shaped c chip
  rw [nmbmCreateNew] at h
  dsimp only at h
  -- a fresh table calls no block unusable
  have htell0 : Tells c reported { nmbmInitStructure c chip with mgmtStartBa := newMgmtStart c } := by
    intro b hb hne
    refine absurd (getBlockState_init c chip ?_) hne
    have : c.stateWords = (c.blockCount + 15) / 16 := rfl
    omega
  have hscan := inspects_scanBadblocks c env
    { nmbmInitStructure c chip with mgmtStartBa := newMgmtStart c }
  have htell := scanBadblocksLoop_tells hsteady c.blockCount 0 htell0
  rw [← nmbmScanBadblocks] at htell
  set ni2 := nmbmScanBadblocks c env
    { nmbmInitStructure c chip with mgmtStartBa := newMgmtStart c } with hni2
  have hm2 : ni2.blockMapping = (nmbmInitStructure c chip).blockMapping :=
    (congrArg Inst.blockMapping hscan.frame :)
  have hi2 : ni2.infoTable = (nmbmInitStructure c chip).infoTable :=
    (congrArg Inst.infoTable hscan.frame :)
  have hmg2 : ni2.mgmtStartBa = newMgmtStart c := (congrArg Inst.mgmtStartBa hscan.frame :)
  have hs2 : ni2.Shaped c :=
    ⟨hscan.length.trans hinit.state, hm2 ▸ hinit.mapping, hi2 ▸ hinit.offsets⟩
  split at h
  · exact absurd h (by simp)
  · rename_i ba ni5 hw
    obtain ⟨hins, h1, h2⟩ := writeSignature_spec c env hw
    rw [buildMappingTable_mgmtStartBa, hmg2] at h1
    obtain ⟨hbuild, hlen, -, -⟩ := buildMappingTable_spec c hs2.mapping (by omega)
    set sig := newSignature c (nmbmBuildMappingTable c ni2).signature
      (nmbmBuildMappingTable c ni2).mgmtStartBa with hsig
    set ni4 : Inst := { nmbmBuildMappingTable c ni2 with signature := sig } with hni4
    have htell4 : Tells c reported ni4 := htell.congr (congrArg Inst.blockState hbuild :)
      (congrArg (fun n : Inst => n.chip.flash.marked) hbuild :)
    have hsigned := @writeSignatureLoop_signed c env reported hsteady sig _ _ ba ni4 ni5 (by omega)
      (by omega) htell4 (fun b hb hbc => by omega) hw
    have hm5 : ni5.blockMapping = (nmbmBuildMappingTable c ni2).blockMapping :=
      (congrArg Inst.blockMapping hins.frame :)
    have hi5 : ni5.infoTable = ni2.infoTable :=
      (congrArg Inst.infoTable hins.frame :).trans (congrArg Inst.infoTable hbuild :)
    have hst5 : ni5.blockState.length = ni2.blockState.length :=
      hins.length.trans (congrArg (fun n : Inst => n.blockState.length) hbuild :)
    have hmg5 : ni5.mgmtStartBa = newMgmtStart c :=
      (congrArg Inst.mgmtStartBa hins.frame :).trans
        ((buildMappingTable_mgmtStartBa c ni2).trans hmg2)
    have hsig5 : ni5.signature = sig := (congrArg Inst.signature hins.frame :)
    have hs5 : Inst.Shaped c { ni5 with signatureBa := ba } :=
      ⟨hst5.trans hs2.state, hm5 ▸ hlen, hi5 ▸ hs2.offsets⟩
    obtain ⟨hagree, hsame, hba⟩ := createInfoTable_agree hs5 (by dsimp only; omega) h2 h
    have hroom := createInfoTable_room hs5 h2 (by dsimp only; omega) h
    obtain ⟨hheader, hmagic, hof⟩ := @newSignature_valid c (nmbmBuildMappingTable c ni2).signature
      (nmbmBuildMappingTable c ni2).mgmtStartBa
    refine ⟨sig.bytes, ?_, hheader, hmagic, hof.trans (hsig5.symm.trans hsame.symm), ?_⟩
    · rw [show ni'.signatureBa = ba from hba]
      exact hsigned.agree c hagree
    · rw [show ni'.signatureBa = ba from hba]
      dsimp only at hroom
      omega

end Creation

end Nmbm
