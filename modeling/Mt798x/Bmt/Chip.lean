import Mt798x.Lib.Bytes
import Mt798x.Lib.Trace

/-!
# The lower NAND device

The block managers reach the NAND chip through the five function pointers that
`mtk_bmt_replace_ops` saved in `bmtd`: `_read_oob`, `_write_oob`, `_erase`, `_block_isbad` and
`_block_markbad`.  The driver behind them is not part of this repository, so its behaviour is an
environment `Env`: for each operation (numbered by `tick`) it decides whether the operation
succeeds and what a failed one leaves behind.  Every failure pattern is an `Env`.

The chip keeps the content of its pages, the bad-block marks and a log of all operations that
change the flash, each with the flash it left: the log is what "stop after any prefix of the
flash steps" and "every block that is erased or written" refer to.
-/

namespace Bmt

open Bytes

/-! ## Geometry -/

/-- The geometry of the chip, as `mtk_bmt_attach` derives it from the `mtd_info`
(`pg_shift`, `blk_shift`, `oobsize`, `total_blks`), with the two ECC figures that
`nmbm_read_phys_page` looks at. -/
structure Geom where
  pgShift : ℕ
  blkShift : ℕ
  oobsize : ℕ
  totalBlks : ℕ
  bitflipThreshold : ℕ
  eccStrength : ℕ
  pg_le_blk : pgShift ≤ blkShift
  blk_lt : blkShift < 32
  /-- `total_blks` is a `u16`. -/
  total_lt : totalBlks < 2 ^ 16

namespace Geom

variable (g : Geom)

/-- Bytes in a page. -/
def pgSize : ℕ := 2 ^ g.pgShift

/-- Bytes in an erase block. -/
def blkSize : ℕ := 2 ^ g.blkShift

/-- Pages in an erase block. -/
def ppb : ℕ := 2 ^ (g.blkShift - g.pgShift)

lemma pgSize_pos : 0 < g.pgSize := Nat.two_pow_pos _

lemma blkSize_pos : 0 < g.blkSize := Nat.two_pow_pos _

lemma ppb_pos : 0 < g.ppb := Nat.two_pow_pos _

lemma blkSize_eq : g.blkSize = g.pgSize * g.ppb := by
  rw [blkSize, pgSize, ppb, ← Nat.pow_add]
  congr 1
  have := g.pg_le_blk
  omega

/-- The page of a linear address. -/
def pageOf (addr : ℕ) : ℕ := addr / g.pgSize

/-- The block of a page. -/
def blockOf (page : ℕ) : ℕ := page / g.ppb

lemma blockOf_pageOf (addr : ℕ) : g.blockOf (g.pageOf addr) = addr / g.blkSize := by
  rw [blockOf, pageOf, Nat.div_div_eq_div_mul, blkSize_eq]

end Geom

/-! ## Flash content -/

/-- The content of a page: its main data and its out-of-band bytes. -/
structure Page where
  data : List Byte
  oob : List Byte
deriving DecidableEq, Repr

/-- The content of the flash: `none` is a page that the ECC cannot correct. -/
structure Flash where
  pages : ℕ → Option Page
  marked : ℕ → Bool

/-- An erased page. -/
def Geom.blankPage (g : Geom) : Page :=
  ⟨List.replicate g.pgSize 0xff, List.replicate g.oobsize 0xff⟩

/-- The page-size buffer a read of a page fills. -/
def Geom.fit (g : Geom) (data : List Byte) : List Byte :=
  (data ++ List.replicate g.pgSize 0xff).take g.pgSize

@[simp] lemma Geom.length_fit (g : Geom) (data : List Byte) : (g.fit data).length = g.pgSize := by
  rw [fit, List.length_take, List.length_append, List.length_replicate]
  omega

lemma Geom.fit_of_length {g : Geom} {data : List Byte} (h : data.length = g.pgSize) :
    g.fit data = data := by
  rw [fit, List.take_append_of_le_length h.ge, List.take_of_length_le h.le]

/-- The operations that change the flash, with the block they work on. -/
inductive Op
  | erase (ba : ℕ)
  | write (ba page : ℕ)
  | mark (ba : ℕ)
deriving DecidableEq, Repr

/-- The block an operation works on. -/
def Op.block : Op → ℕ
  | erase ba => ba
  | write ba _ => ba
  | mark ba => ba

/-- A log entry: whether the operation was issued by the table management (and not on behalf of
the user's data), the operation, and the flash it left. -/
structure Entry where
  mgmt : Bool
  op : Op
  flash : Flash

/-! ## The environment -/

/-- The behaviour of the lower driver.  The first argument of each field is the number of the
operation, the second the page or block it works on. -/
structure Env where
  /-- Whether an erase succeeds. -/
  eraseOk : ℕ → ℕ → Bool
  /-- Whether a page write reports success. -/
  writeOk : ℕ → ℕ → Bool
  /-- Whether a bad-block mark takes. -/
  markOk : ℕ → ℕ → Bool
  /-- Whether a block that carries no mark is reported bad. -/
  reportBad : ℕ → ℕ → Bool
  /-- The result of reading a page whose content can be corrected. -/
  readRet : ℕ → ℕ → ℤ
  /-- What a failed or stray operation leaves in a page. -/
  junk : ℕ → ℕ → Option Page

/-- `-EBADMSG`: an uncorrectable page. -/
def eBADMSG : ℤ := -74

/-- `-EUCLEAN`: a page that was corrected but should be moved. -/
def eUCLEAN : ℤ := -117

/-- The environment without any failure. -/
def Env.ideal : Env where
  eraseOk _ _ := true
  writeOk _ _ := true
  markOk _ _ := true
  reportBad _ _ := false
  readRet _ _ := 0
  junk _ _ := none

/-! ## Operations -/

/-- The chip: its content, the number of operations so far and their log (newest first). -/
structure Chip where
  flash : Flash
  tick : ℕ
  log : List Entry

namespace Chip

variable (g : Geom) (env : Env)

/-- Count an operation that leaves the flash alone. -/
def tock (c : Chip) : Chip := { c with tick := c.tick + 1 }

/-- Count and log an operation that changes the flash. -/
def record (c : Chip) (mgmt : Bool) (op : Op) (f : Flash) : Chip :=
  ⟨f, c.tick + 1, ⟨mgmt, op, f⟩ :: c.log⟩

/-- The flash with every page of block `ba` replaced. -/
def setBlock (f : Flash) (ba : ℕ) (v : ℕ → Option Page) : Flash :=
  { f with pages := fun p => if g.blockOf p = ba then v p else f.pages p }

/-- `bmtd._erase`: all pages of the block become blank, or junk when the erase fails. -/
def erase (mgmt : Bool) (c : Chip) (ba : ℕ) : Bool × Chip :=
  let ok := env.eraseOk c.tick ba
  (ok, c.record mgmt (.erase ba) (setBlock g c.flash ba fun p =>
    if ok then some g.blankPage else env.junk c.tick p))

/-- `bmtd._write_oob` of one page, with `oob` placed at `ooboffs`.  Only a blank page can be
programmed: the content of any other page after the attempt is up to the environment. -/
def write (mgmt : Bool) (c : Chip) (page : ℕ) (data : List Byte) (ooboffs : ℕ)
    (oob : List Byte) : Bool × Chip :=
  let ok := env.writeOk c.tick page
  let v := if ok ∧ c.flash.pages page = some g.blankPage then
      some ⟨data, splice g.blankPage.oob ooboffs oob⟩
    else env.junk c.tick page
  (ok, c.record mgmt (.write (g.blockOf page) page)
    { c.flash with pages := fun p => if p = page then v else c.flash.pages p })

/-- `bmtd._read_oob` of one page: the result code and the content. -/
def read (c : Chip) (page : ℕ) : (ℤ × Page) × Chip :=
  match c.flash.pages page with
  | none => ((eBADMSG, ⟨[], []⟩), c.tock)
  | some p => ((env.readRet c.tick page, { p with data := g.fit p.data }), c.tock)

/-- `bmtd._block_isbad`. -/
def isBad (c : Chip) (ba : ℕ) : Bool × Chip :=
  (c.flash.marked ba || env.reportBad c.tick ba, c.tock)

/-- `bmtd._block_markbad`: the mark takes or not, and the content of the block is lost. -/
def markBad (mgmt : Bool) (c : Chip) (ba : ℕ) : Chip :=
  c.record mgmt (.mark ba)
    { setBlock g c.flash ba (env.junk c.tick) with
      marked := fun b => c.flash.marked b || (b == ba && env.markOk c.tick ba) }

end Chip

/-! ## What a piece of code may touch -/

/-- The block `b` lies in `[lo, hi)`. -/
def Within (lo hi b : ℕ) : Prop := lo ≤ b ∧ b < hi

lemma Within.mono {lo hi lo' hi' b : ℕ} (h : Within lo hi b) (hlo : lo' ≤ lo) (hhi : hi ≤ hi') :
    Within lo' hi' b := ⟨hlo.trans h.1, h.2.trans_le hhi⟩

/-- Two flash contents agree outside the blocks `[lo, hi)`. -/
structure Agree (g : Geom) (lo hi : ℕ) (f f' : Flash) : Prop where
  pages : ∀ p, ¬ Within lo hi (g.blockOf p) → f'.pages p = f.pages p
  marked : ∀ b, ¬ Within lo hi b → f'.marked b = f.marked b

namespace Agree

variable {g : Geom} {lo hi lo' hi' : ℕ} {f f' f'' : Flash}

lemma refl (g : Geom) (lo hi : ℕ) (f : Flash) : Agree g lo hi f f :=
  ⟨fun _ _ => rfl, fun _ _ => rfl⟩

lemma trans (h : Agree g lo hi f f') (h' : Agree g lo hi f' f'') : Agree g lo hi f f'' :=
  ⟨fun p hp => (h'.pages p hp).trans (h.pages p hp),
    fun b hb => (h'.marked b hb).trans (h.marked b hb)⟩

lemma mono (h : Agree g lo hi f f') (hlo : lo' ≤ lo) (hhi : hi ≤ hi') : Agree g lo' hi' f f' :=
  ⟨fun p hp => h.pages p fun hw => hp (hw.mono hlo hhi),
    fun b hb => h.marked b fun hw => hb (hw.mono hlo hhi)⟩

end Agree

/-- From `chip` to `chip'` only operations of the given origin on blocks of `[lo, hi)` were
issued, and neither the final flash nor any flash in between differs outside these blocks. -/
structure Works (g : Geom) (mgmt : Bool) (lo hi : ℕ) (chip chip' : Chip) : Prop where
  log : Trace.Grows (fun e => e.mgmt = mgmt ∧ Within lo hi e.op.block ∧
    Agree g lo hi chip.flash e.flash) chip.log chip'.log
  flash : Agree g lo hi chip.flash chip'.flash

namespace Works

variable {g : Geom} {mgmt : Bool} {lo hi lo' hi' : ℕ} {chip chip' chip'' : Chip}

lemma refl (g : Geom) (mgmt : Bool) (lo hi : ℕ) (chip : Chip) : Works g mgmt lo hi chip chip :=
  ⟨Trace.Grows.refl _ _, Agree.refl g lo hi _⟩

lemma trans (h : Works g mgmt lo hi chip chip') (h' : Works g mgmt lo hi chip' chip'') :
    Works g mgmt lo hi chip chip'' :=
  ⟨h.log.trans (h'.log.mono fun _ he => ⟨he.1, he.2.1, h.flash.trans he.2.2⟩),
    h.flash.trans h'.flash⟩

lemma mono (h : Works g mgmt lo hi chip chip') (hlo : lo' ≤ lo) (hhi : hi ≤ hi') :
    Works g mgmt lo' hi' chip chip' :=
  ⟨h.log.mono fun _ he => ⟨he.1, he.2.1.mono hlo hhi, he.2.2.mono hlo hhi⟩,
    h.flash.mono hlo hhi⟩

lemma of_tock (hlog : chip'.log = chip.log) (hflash : chip'.flash = chip.flash) :
    Works g mgmt lo hi chip chip' := by
  refine ⟨?_, ?_⟩
  · rw [hlog]
    exact Trace.Grows.refl _ _
  · rw [hflash]
    exact Agree.refl g lo hi _

lemma of_record {op : Op} {f : Flash} (hb : Within lo hi op.block)
    (hf : Agree g lo hi chip.flash f) : Works g mgmt lo hi chip (chip.record mgmt op f) :=
  ⟨Trace.Grows.cons ⟨rfl, hb, hf⟩ _, hf⟩

end Works

namespace Chip

variable (g : Geom) (env : Env) (mgmt : Bool) (chip : Chip)

lemma agree_setBlock (f : Flash) (ba : ℕ) (v : ℕ → Option Page) :
    Agree g ba (ba + 1) f (setBlock g f ba v) := by
  refine ⟨fun p hp => ?_, fun _ _ => rfl⟩
  have hne : g.blockOf p ≠ ba := fun h => hp ⟨by omega, by omega⟩
  simp [setBlock, hne]

lemma works_erase (ba : ℕ) :
    Works g mgmt ba (ba + 1) chip (chip.erase g env mgmt ba).2 :=
  Works.of_record ⟨le_rfl, Nat.lt_succ_self _⟩ (agree_setBlock g _ _ _)

lemma works_write (page : ℕ) (data : List Byte) (ooboffs : ℕ) (oob : List Byte) :
    Works g mgmt (g.blockOf page) (g.blockOf page + 1) chip
      (chip.write g env mgmt page data ooboffs oob).2 := by
  refine Works.of_record ⟨le_rfl, Nat.lt_succ_self _⟩ ⟨fun p hp => ?_, fun _ _ => rfl⟩
  have hne : p ≠ page := by
    rintro rfl
    exact hp ⟨le_rfl, Nat.lt_succ_self _⟩
  simp [hne]

lemma works_markBad (ba : ℕ) :
    Works g mgmt ba (ba + 1) chip (chip.markBad g env mgmt ba) := by
  refine Works.of_record ⟨le_rfl, Nat.lt_succ_self _⟩ ⟨fun p hp => ?_, fun b hb => ?_⟩
  · exact (agree_setBlock g _ _ _).pages p hp
  · have hne : b ≠ ba := fun h => hb ⟨by omega, by omega⟩
    simp [hne]

@[simp] lemma read_log (page : ℕ) : (chip.read g env page).2.log = chip.log := by
  rw [read]
  split <;> rfl

@[simp] lemma read_flash (page : ℕ) : (chip.read g env page).2.flash = chip.flash := by
  rw [read]
  split <;> rfl

end Chip

end Bmt
