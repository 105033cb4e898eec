import Mt798x.Bmt.Desc
import Mt798x.Lib.FlatImage

/-!
# Translated reads and writes

`mtk_bmt_read` and `mtk_bmt_write` of `mtk_bmt.c`.  Both walk through the request block by block,
ask the block manager for the physical block and hand the part of the request in that block to the
driver below.  A part that fails is tried again if the manager could remap the block.

The length of a part is computed with `min_t(u32, ..)`, so that the rest of the request is cut to
32 bits first.
-/

namespace Bmt

open Bytes FlatImage

/-! ## The functions -/

/-- The fields of `struct mtd_oob_ops` that a request sets. -/
structure OobOps where
  len : ℕ
  ooblen : ℕ
  ooboffs : ℕ

/-- What a read reports: the return code, the main bytes and the out-of-band bytes.  `retlen` and
`oobretlen` are the lengths of the two lists. -/
structure IoRead where
  ret : ℤ
  dat : List Byte
  oob : List Byte

/-- What a write reports: the return code, `retlen` and `oobretlen`. -/
structure IoWrite where
  ret : ℤ
  retlen : ℕ
  oobretlen : ℕ

/-- The driver below, with its state: `_read_oob` and `_write_oob`. -/
structure Lower (δ : Type) where
  readOob : δ → ℕ → OobOps → IoRead × δ
  writeOob : δ → ℕ → OobOps → List Byte → List Byte → IoWrite × δ

/-- The block manager, with its state: `get_mapping_block` and `remap_block`. -/
structure Manager (μ δ : Type) where
  getMappingBlock : μ → ℕ → ℤ
  remapBlock : μ × δ → ℕ → ℕ → ℕ → Bool × μ × δ

variable {μ δ : Type} (g : Geom) (ranges : RemapRange) (low : Lower δ) (ops : Manager μ δ)

/-- `mtk_bmt_remap_block`. -/
def mtkBmtRemapBlock (s : μ × δ) (block mappedBlock copyLen : ℕ) : Bool × μ × δ :=
  match mappingBlockInRange g ranges block with
  | none => (false, s)
  | some _ => ops.remapBlock s (u16 block) (u16 mappedBlock) copyLen

/-- The part of a request of which `left` bytes are left, from `offset` in a block on. -/
def partLen (offset left : ℕ) : ℕ := min ((g.blkSize - offset) % 2 ^ 32) (left % 2 ^ 32)

/-- The local variables of `mtk_bmt_read`.  The buffers of `cur_ops` start behind the bytes read so
far. -/
structure ReadCursor where
  pos : ℕ
  dat : List Byte
  oob : List Byte
  ooblen : ℕ
  ooboffs : ℕ
  retryCount : ℕ
  ret : ℤ
  maxBitflips : ℤ

/-- `ret` after a part. -/
def ReadCursor.retAfter (c : ReadCursor) (cur : IoRead) : ℤ :=
  if cur.ret < 0 then cur.ret else c.ret

/-- The local variables after a part of `len` bytes that was read. -/
def ReadCursor.next (c : ReadCursor) (offset len : ℕ) (cur : IoRead) : ReadCursor where
  pos := c.pos + if len = 0 then g.blkSize - offset else len
  dat := c.dat ++ cur.dat
  oob := c.oob ++ cur.oob
  ooblen := c.ooblen - cur.oob.length
  ooboffs := 0
  retryCount := 0
  ret := c.retAfter cur
  maxBitflips := if cur.ret < 0 then c.maxBitflips else max c.maxBitflips cur.ret

/-- The loop of `mtk_bmt_read`; `none` when the fuel is used up. -/
def mtkBmtReadLoop (req : OobOps) : ℕ → ReadCursor → μ × δ → Option (IoRead × μ × δ)
  | 0, _, _ => none
  | fuel + 1, c, s =>
    if c.dat.length < req.len ∨ c.oob.length < req.ooblen then
      let offset := c.pos % g.blkSize
      let block := c.pos / g.blkSize % 2 ^ 32
      let curBlock := ops.getMappingBlock s.1 block
      if curBlock < 0 then some (⟨errIo, c.dat, c.oob⟩, s)
      else
        let len := partLen g offset (req.len - c.dat.length)
        let cur := low.readOob s.2 (curBlock.toNat * g.blkSize + offset)
          ⟨len, c.ooblen, c.ooboffs⟩
        if cur.1.ret < 0 ∧ cur.1.ret ≠ eUCLEAN then
          let p := mtkBmtRemapBlock g ranges ops (s.1, cur.2) block curBlock.toNat g.blkSize
          if p.1 ∧ c.retryCount < 10 then
            mtkBmtReadLoop req fuel
              { c with retryCount := c.retryCount + 1, ret := c.retAfter cur.1 } p.2
          else some (⟨c.retAfter cur.1, c.dat, c.oob⟩, p.2)
        else
          -- the comparison with `bitflip_threshold` is unsigned, so `-EUCLEAN` is above it
          let s' :=
            if g.bitflipThreshold ≠ 0 ∧ (cur.1.ret < 0 ∨ (g.bitflipThreshold : ℤ) ≤ cur.1.ret) then
              (mtkBmtRemapBlock g ranges ops (s.1, cur.2) block curBlock.toNat g.blkSize).2
            else (s.1, cur.2)
          mtkBmtReadLoop req fuel (c.next g offset len cur.1) s'
    else some (⟨if c.ret < 0 then c.ret else c.maxBitflips, c.dat, c.oob⟩, s)

/-- `mtk_bmt_read`. -/
def mtkBmtRead (fuel : ℕ) (s : μ × δ) (pos : ℕ) (req : OobOps) : Option (IoRead × μ × δ) :=
  mtkBmtReadLoop g ranges low ops req fuel ⟨pos, [], [], req.ooblen, req.ooboffs, 0, 0, 0⟩ s

/-- The local variables of `mtk_bmt_write`.  `retlen` and `oobretlen` are also how far the buffers
of `cur_ops` have advanced. -/
structure WriteCursor where
  pos : ℕ
  retlen : ℕ
  oobretlen : ℕ
  ooblen : ℕ
  ooboffs : ℕ
  retryCount : ℕ

/-- The local variables after a part of `len` bytes that was written. -/
def WriteCursor.next (c : WriteCursor) (offset len : ℕ) (cur : IoWrite) : WriteCursor where
  pos := c.pos + if len = 0 then g.blkSize - offset else len
  retlen := c.retlen + cur.retlen
  oobretlen := c.oobretlen + cur.oobretlen
  ooblen := c.ooblen - cur.oobretlen
  ooboffs := 0
  retryCount := 0

/-- The loop of `mtk_bmt_write`; `none` when the fuel is used up. -/
def mtkBmtWriteLoop (req : OobOps) (dat oob : List Byte) :
    ℕ → WriteCursor → μ × δ → Option (IoWrite × μ × δ)
  | 0, _, _ => none
  | fuel + 1, c, s =>
    if c.retlen < req.len ∨ c.oobretlen < req.ooblen then
      let offset := c.pos % g.blkSize
      let block := c.pos / g.blkSize % 2 ^ 32
      let curBlock := ops.getMappingBlock s.1 block
      if curBlock < 0 then some (⟨errIo, c.retlen, c.oobretlen⟩, s)
      else
        let len := partLen g offset (req.len - c.retlen)
        let cur := low.writeOob s.2 (curBlock.toNat * g.blkSize + offset)
          ⟨len, c.ooblen, c.ooboffs⟩ ((dat.drop c.retlen).take len) (oob.drop c.oobretlen)
        if cur.1.ret < 0 then
          let p := mtkBmtRemapBlock g ranges ops (s.1, cur.2) block curBlock.toNat offset
          if p.1 ∧ c.retryCount < 10 then
            mtkBmtWriteLoop req dat oob fuel { c with retryCount := c.retryCount + 1 } p.2
          else some (⟨cur.1.ret, c.retlen, c.oobretlen⟩, p.2)
        else
          mtkBmtWriteLoop req dat oob fuel (c.next g offset len cur.1) (s.1, cur.2)
    else some (⟨0, c.retlen, c.oobretlen⟩, s)

/-- `mtk_bmt_write`. -/
def mtkBmtWrite (fuel : ℕ) (s : μ × δ) (pos : ℕ) (req : OobOps) (dat oob : List Byte) :
    Option (IoWrite × μ × δ) :=
  mtkBmtWriteLoop g ranges low ops req dat oob fuel
    ⟨pos, 0, 0, req.ooblen, req.ooboffs, 0⟩ s

/-! ## A driver without errors -/

/-- The driver below reads and writes a memory, reports no error and fewer bitflips than the
threshold, and leaves the out-of-band bytes alone when none are asked for. -/
structure Flawless (mem : δ → ℕ → Byte) : Prop where
  read_ret : ∀ d addr req, 0 ≤ (low.readOob d addr req).1.ret
  read_flips : ∀ d addr req,
    g.bitflipThreshold = 0 ∨ (low.readOob d addr req).1.ret < g.bitflipThreshold
  read_dat : ∀ d addr req, (low.readOob d addr req).1.dat = slice (mem d) addr req.len
  read_oob : ∀ d addr req, req.ooblen = 0 → (low.readOob d addr req).1.oob = []
  read_mem : ∀ d addr req, mem (low.readOob d addr req).2 = mem d
  write_ret : ∀ d addr req dat oob, 0 ≤ (low.writeOob d addr req dat oob).1.ret
  write_len : ∀ d addr req dat oob, dat.length = req.len →
    (low.writeOob d addr req dat oob).1.retlen = req.len
  write_oob : ∀ d addr req dat oob, req.ooblen = 0 →
    (low.writeOob d addr req dat oob).1.oobretlen = 0
  write_mem : ∀ d addr req dat oob, dat.length = req.len →
    mem (low.writeOob d addr req dat oob).2 = overwrite (mem d) addr dat

/-- The logical image: the mapped blocks in logical order. -/
def flatImage (mem : δ → ℕ → Byte) (s : μ × δ) : ℕ → Byte :=
  image g.blkSize (fun b => (ops.getMappingBlock s.1 b).toNat) (mem s.2)

/-- The blocks of the chip that are mapped. -/
def mappedBlocks (m : μ) : Set ℕ := {b | b < g.totalBlks ∧ 0 ≤ ops.getMappingBlock m b}

/-- A request for main bytes inside the chip all of whose blocks are mapped. -/
structure Request (m : μ) (addr : ℕ) (req : OobOps) : Prop where
  pos : 0 < req.len
  no_oob : req.ooblen = 0
  inside : addr + req.len ≤ g.totalBlks * g.blkSize
  mapped : ∀ b, addr / g.blkSize ≤ b → b * g.blkSize < addr + req.len →
    0 ≤ ops.getMappingBlock m b

section Parts

variable {g}

lemma partLen_le (offset left : ℕ) (h : offset < g.blkSize) :
    offset + partLen g offset left ≤ g.blkSize := by
  have := Nat.mod_le (g.blkSize - offset) (2 ^ 32)
  have := min_le_left ((g.blkSize - offset) % 2 ^ 32) (left % 2 ^ 32)
  rw [partLen]
  omega

lemma partLen_le_mod (offset left : ℕ) : partLen g offset left ≤ left % 2 ^ 32 := min_le_right _ _

lemma partLen_pos {offset left : ℕ} (h : offset < g.blkSize) (h0 : 0 < left)
    (h32 : left < 2 ^ 32) : 0 < partLen g offset left := by
  have hblk : g.blkSize < 2 ^ 32 := Nat.pow_lt_pow_right (by decide) g.blk_lt
  rw [partLen, Nat.mod_eq_of_lt h32, Nat.mod_eq_of_lt (by omega)]
  exact lt_min (by omega) h0

lemma le_sub_partLen {offset left : ℕ} (h : 2 ^ 32 ≤ left) :
    2 ^ 32 ≤ left - partLen g offset left := by
  have := partLen_le_mod (g := g) offset left
  have := Nat.div_add_mod left (2 ^ 32)
  have := Nat.div_pos h (by decide : 0 < 2 ^ 32)
  omega

end Parts

section Flawless

variable {g ranges low ops} {mem : δ → ℕ → Byte} {req : OobOps}

variable (ranges req) in
lemma mtkBmtReadLoop_part (hlow : Flawless g low mem) {c : ReadCursor} {s : μ × δ}
    (hmore : c.dat.length < req.len)
    (hmap : 0 ≤ ops.getMappingBlock s.1 (c.pos / g.blkSize % 2 ^ 32)) :
    ∃ cur : IoRead × δ, (∀ fuel, mtkBmtReadLoop g ranges low ops req (fuel + 1) c s =
        mtkBmtReadLoop g ranges low ops req fuel
          (c.next g (c.pos % g.blkSize)
            (partLen g (c.pos % g.blkSize) (req.len - c.dat.length)) cur.1) (s.1, cur.2)) ∧
      0 ≤ cur.1.ret ∧ mem cur.2 = mem s.2 ∧ (c.ooblen = 0 → cur.1.oob = []) ∧
      cur.1.dat = slice (mem s.2)
        ((ops.getMappingBlock s.1 (c.pos / g.blkSize % 2 ^ 32)).toNat * g.blkSize +
          c.pos % g.blkSize)
        (partLen g (c.pos % g.blkSize) (req.len - c.dat.length)) := by
  refine ⟨_, fun fuel => ?_, hlow.read_ret _ _ _, hlow.read_mem _ _ _,
    fun h => hlow.read_oob s.2 _ ⟨_, c.ooblen, c.ooboffs⟩ h, hlow.read_dat _ _ _⟩
  rw [mtkBmtReadLoop, if_pos (Or.inl hmore)]
  dsimp only
  rw [if_neg (not_lt.mpr hmap)]
  generalize hn : partLen g (c.pos % g.blkSize) (req.len - c.dat.length) = n
  generalize haddr : (ops.getMappingBlock s.1 _).toNat * g.blkSize + c.pos % g.blkSize = addr
  have hret := hlow.read_ret s.2 addr ⟨n, c.ooblen, c.ooboffs⟩
  have hflips := hlow.read_flips s.2 addr ⟨n, c.ooblen, c.ooboffs⟩
  rw [if_neg (fun h => absurd h.1 (not_lt.mpr hret)), if_neg (by omega), ← hn]
  rfl

/-- The rest of a read of less than 4 GiB: `n` bytes are left. -/
lemma mtkBmtReadLoop_rest (hlow : Flawless g low mem) (h32 : req.len < 2 ^ 32)
    (hno : req.ooblen = 0) {s : μ × δ} (n : ℕ) (c : ReadCursor)
    (hn : c.dat.length + n = req.len) (hoob : c.oob = []) (hlen : c.ooblen = 0) (hret : c.ret = 0)
    (hflips : 0 ≤ c.maxBitflips) (hin : c.pos + n ≤ g.totalBlks * g.blkSize)
    (hmap : ∀ b, c.pos / g.blkSize ≤ b → b * g.blkSize < c.pos + n →
      0 ≤ ops.getMappingBlock s.1 b) :
    ∃ fuel r, mtkBmtReadLoop g ranges low ops req fuel c s = some r ∧ 0 ≤ r.1.ret ∧
      r.1.dat = c.dat ++ slice (flatImage g ops mem s) c.pos n := by
  induction n using Nat.strong_induction_on generalizing c s with
  | _ n ih =>
    rcases Nat.eq_zero_or_pos n with rfl | hpos
    · have hdone : ¬(c.dat.length < req.len ∨ c.oob.length < req.ooblen) := by
        rw [hoob, hno, List.length_nil]
        omega
      refine ⟨1, (⟨c.maxBitflips, c.dat, c.oob⟩, s), ?_, hflips, ?_⟩
      · rw [mtkBmtReadLoop, if_neg hdone, if_neg (by omega)]
      · rw [slice_zero, List.append_nil]
    · have hblk := g.blkSize_pos
      have hmod := Nat.mod_lt c.pos hblk
      have hdecomp := Nat.div_add_mod' c.pos g.blkSize
      have hblock : c.pos / g.blkSize % 2 ^ 32 = c.pos / g.blkSize := by
        refine Nat.mod_eq_of_lt ?_
        have : c.pos / g.blkSize < g.totalBlks := (Nat.div_lt_iff_lt_mul hblk).mpr (by omega)
        have := g.total_lt
        omega
      have hmapped := hmap (c.pos / g.blkSize) le_rfl (by omega)
      have hpart0 := partLen_pos (g := g) hmod hpos (by omega)
      have hpart1 := partLen_le (g := g) (c.pos % g.blkSize) n hmod
      have hpart2 := (partLen_le_mod (g := g) (c.pos % g.blkSize) n).trans (Nat.mod_le _ _)
      obtain ⟨cur, hstep, hcur, hmem, hcuroob, hdat⟩ := mtkBmtReadLoop_part ranges req hlow
        (by omega : c.dat.length < req.len) (by rwa [hblock])
      rw [hblock, show req.len - c.dat.length = n by omega] at hdat
      rw [show req.len - c.dat.length = n by omega] at hstep
      generalize hp : partLen g (c.pos % g.blkSize) n = p at hstep hdat hpart0 hpart1 hpart2
      have hcurlen : cur.1.dat.length = p := by rw [hdat, length_slice]
      have hpos' : (c.next g (c.pos % g.blkSize) p cur.1).pos = c.pos + p := by
        rw [ReadCursor.next, if_neg hpart0.ne']
      have hdat' : (c.next g (c.pos % g.blkSize) p cur.1).dat = c.dat ++ cur.1.dat := rfl
      have himage : flatImage g ops mem (s.1, cur.2) = flatImage g ops mem s := by
        rw [flatImage, flatImage, hmem]
      have hslice : cur.1.dat = slice (flatImage g ops mem s) c.pos p := by
        have : slice (flatImage g ops mem s) (c.pos / g.blkSize * g.blkSize + c.pos % g.blkSize) p =
            _ := slice_image (mem s.2) hpart1
        rw [hdecomp] at this
        rw [hdat]
        exact this.symm
      have hmono : c.pos / g.blkSize ≤ (c.pos + p) / g.blkSize := Nat.div_le_div_right (by omega)
      obtain ⟨fuel, r, hr, hge, hrdat⟩ := ih (n - p) (by omega) (s := (s.1, cur.2))
        (c.next g (c.pos % g.blkSize) p cur.1) (by rw [hdat', List.length_append]; omega)
        (by rw [ReadCursor.next, hoob, hcuroob hlen]; rfl)
        (by rw [ReadCursor.next, hlen, Nat.zero_sub])
        (by rw [ReadCursor.next, ReadCursor.retAfter, if_neg (not_lt.mpr hcur), hret])
        (by rw [ReadCursor.next, if_neg (not_lt.mpr hcur)]; exact hflips.trans (le_max_left _ _))
        (by rw [hpos']; omega)
        (fun b hb1 hb2 => by rw [hpos'] at hb1 hb2; exact hmap b (hmono.trans hb1) (by omega))
      refine ⟨fuel + 1, r, (hstep fuel).trans hr, hge, ?_⟩
      rw [hrdat, hdat', himage, hslice, hpos', List.append_assoc, ← slice_add,
        Nat.add_sub_cancel' hpart2]

/-- With 4 GiB or more left a read never ends, or ends at a block that is not mapped: the rest
never falls below 4 GiB, and once it is a multiple of 4 GiB the parts are empty. -/
lemma mtkBmtReadLoop_large (hlow : Flawless g low mem) {s : μ × δ} {fuel : ℕ} {c : ReadCursor}
    {r : IoRead × μ × δ} (hleft : 2 ^ 32 ≤ req.len - c.dat.length)
    (h : mtkBmtReadLoop g ranges low ops req fuel c s = some r) : r.1.ret < 0 := by
  induction fuel generalizing c s with
  | zero => cases h
  | succ fuel ih =>
    by_cases hmap : ops.getMappingBlock s.1 (c.pos / g.blkSize % 2 ^ 32) < 0
    · rw [mtkBmtReadLoop, if_pos (Or.inl (by omega))] at h
      dsimp only at h
      rw [if_pos hmap] at h
      rw [← Option.some_inj.mp h]
      show errIo < 0
      decide
    · obtain ⟨cur, hstep, -, -, -, hdat⟩ := mtkBmtReadLoop_part ranges req hlow
        (by omega : c.dat.length < req.len) (not_lt.mp hmap)
      rw [hstep] at h
      refine ih ?_ h
      have := @le_sub_partLen g (c.pos % g.blkSize) _ hleft
      rw [ReadCursor.next, List.length_append, hdat, length_slice]
      omega

variable (ranges) in
lemma mtkBmtWriteLoop_part (oob : List Byte) (hlow : Flawless g low mem) {dat : List Byte} {c : WriteCursor}
    {s : μ × δ} (hdat : dat.length = req.len) (hmore : c.retlen < req.len)
    (hmap : 0 ≤ ops.getMappingBlock s.1 (c.pos / g.blkSize % 2 ^ 32)) :
    ∃ cur : IoWrite × δ, (∀ fuel, mtkBmtWriteLoop g ranges low ops req dat oob (fuel + 1) c s =
        mtkBmtWriteLoop g ranges low ops req dat oob fuel
          (c.next g (c.pos % g.blkSize)
            (partLen g (c.pos % g.blkSize) (req.len - c.retlen)) cur.1) (s.1, cur.2)) ∧
      cur.1.retlen = partLen g (c.pos % g.blkSize) (req.len - c.retlen) ∧
      (c.ooblen = 0 → cur.1.oobretlen = 0) ∧
      mem cur.2 = overwrite (mem s.2)
        ((ops.getMappingBlock s.1 (c.pos / g.blkSize % 2 ^ 32)).toNat * g.blkSize +
          c.pos % g.blkSize)
        ((dat.drop c.retlen).take (partLen g (c.pos % g.blkSize) (req.len - c.retlen))) := by
  have hlen : ((dat.drop c.retlen).take
      (partLen g (c.pos % g.blkSize) (req.len - c.retlen))).length =
      partLen g (c.pos % g.blkSize) (req.len - c.retlen) := by
    have := (partLen_le_mod (g := g) (c.pos % g.blkSize) (req.len - c.retlen)).trans
      (Nat.mod_le _ _)
    rw [List.length_take, List.length_drop]
    omega
  refine ⟨low.writeOob s.2 _ ⟨_, c.ooblen, c.ooboffs⟩ _ (oob.drop c.oobretlen), fun fuel => ?_,
    hlow.write_len _ _ _ _ _ hlen, fun h => hlow.write_oob _ _ _ _ _ h,
    hlow.write_mem _ _ _ _ _ hlen⟩
  rw [mtkBmtWriteLoop, if_pos (Or.inl hmore)]
  dsimp only
  rw [if_neg (not_lt.mpr hmap), if_neg (not_lt.mpr (hlow.write_ret _ _ _ _ _))]
  rfl

lemma flatImage_overwrite {s : μ × δ} {d : δ} {b off : ℕ} {part : List Byte}
    (hinj : Set.InjOn (ops.getMappingBlock s.1) (mappedBlocks g ops s.1))
    (hb : b ∈ mappedBlocks g ops s.1) (hoff : off + part.length ≤ g.blkSize)
    (hd : mem d = overwrite (mem s.2) ((ops.getMappingBlock s.1 b).toNat * g.blkSize + off) part) :
    Set.EqOn (flatImage g ops mem (s.1, d))
      (overwrite (flatImage g ops mem s) (b * g.blkSize + off) part)
      {x | x / g.blkSize ∈ mappedBlocks g ops s.1} := by
  intro x hx
  rw [flatImage, hd]
  refine image_overwrite (s := mappedBlocks g ops s.1) (mem s.2) g.blkSize_pos
    (fun c hc h => hinj hc hb ?_) hoff hx
  have hc0 := hc.2
  have hb0 := hb.2
  dsimp only at h
  omega

variable (ranges) in
/-- The rest of a write of less than 4 GiB: `n` bytes are left. -/
lemma mtkBmtWriteLoop_rest (oob : List Byte) (hlow : Flawless g low mem) (h32 : req.len < 2 ^ 32)
    (hno : req.ooblen = 0) {dat : List Byte} (hdat : dat.length = req.len) {s : μ × δ}
    (hinj : Set.InjOn (ops.getMappingBlock s.1) (mappedBlocks g ops s.1)) (n : ℕ) (c : WriteCursor)
    (hn : c.retlen + n = req.len) (hoob : c.oobretlen = 0) (hlen : c.ooblen = 0)
    (hin : c.pos + n ≤ g.totalBlks * g.blkSize)
    (hmap : ∀ b, c.pos / g.blkSize ≤ b → b * g.blkSize < c.pos + n →
      0 ≤ ops.getMappingBlock s.1 b) :
    ∃ fuel w, mtkBmtWriteLoop g ranges low ops req dat oob fuel c s = some w ∧ w.1.ret = 0 ∧
      w.1.retlen = req.len ∧ w.2.1 = s.1 ∧
      Set.EqOn (flatImage g ops mem w.2)
        (overwrite (flatImage g ops mem s) c.pos (dat.drop c.retlen))
        {x | x / g.blkSize ∈ mappedBlocks g ops s.1} := by
  induction n using Nat.strong_induction_on generalizing c s with
  | _ n ih =>
    rcases Nat.eq_zero_or_pos n with rfl | hpos
    · have hdone : ¬(c.retlen < req.len ∨ c.oobretlen < req.ooblen) := by
        rw [hoob, hno]
        omega
      refine ⟨1, (⟨0, c.retlen, c.oobretlen⟩, s), ?_, rfl, hn, rfl, ?_⟩
      · rw [mtkBmtWriteLoop, if_neg hdone]
      · rw [List.drop_eq_nil_of_le (by omega), overwrite_nil]
        exact Set.eqOn_refl _ _
    · have hblk := g.blkSize_pos
      have hmod := Nat.mod_lt c.pos hblk
      have hdecomp := Nat.div_add_mod' c.pos g.blkSize
      have htotal : c.pos / g.blkSize < g.totalBlks :=
        (Nat.div_lt_iff_lt_mul hblk).mpr (by omega)
      have hblock : c.pos / g.blkSize % 2 ^ 32 = c.pos / g.blkSize := by
        refine Nat.mod_eq_of_lt ?_
        have := g.total_lt
        omega
      have hmapped := hmap (c.pos / g.blkSize) le_rfl (by omega)
      have hpart0 := partLen_pos (g := g) hmod hpos (by omega)
      have hpart1 := partLen_le (g := g) (c.pos % g.blkSize) n hmod
      have hpart2 := (partLen_le_mod (g := g) (c.pos % g.blkSize) n).trans (Nat.mod_le _ _)
      obtain ⟨cur, hstep, hretlen, hoobretlen, hmem⟩ := mtkBmtWriteLoop_part ranges oob
        hlow hdat (by omega : c.retlen < req.len) (by rwa [hblock])
      rw [hblock, show req.len - c.retlen = n by omega] at hmem
      rw [show req.len - c.retlen = n by omega] at hstep hretlen
      generalize hp : partLen g (c.pos % g.blkSize) n = p at *
      have hpos' : (c.next g (c.pos % g.blkSize) p cur.1).pos = c.pos + p := by
        rw [WriteCursor.next, if_neg hpart0.ne']
      have hretlen' : (c.next g (c.pos % g.blkSize) p cur.1).retlen = c.retlen + p := by
        rw [← hretlen]
        rfl
      have hpart : ((dat.drop c.retlen).take p).length = p := by
        rw [List.length_take, List.length_drop]
        omega
      have himage := flatImage_overwrite hinj ⟨htotal, hmapped⟩ (by rwa [hpart]) hmem
      rw [hdecomp] at himage
      have hmono : c.pos / g.blkSize ≤ (c.pos + p) / g.blkSize := Nat.div_le_div_right (by omega)
      obtain ⟨fuel, w, hw, hret, hwlen, hm, hrest⟩ := ih (n - p) (by omega) (s := (s.1, cur.2)) hinj
        (c.next g (c.pos % g.blkSize) p cur.1) (by rw [hretlen']; omega)
        (by rw [WriteCursor.next, hoob, hoobretlen hlen])
        (by rw [WriteCursor.next, hlen, Nat.zero_sub])
        (by rw [hpos']; omega)
        (fun b hb1 hb2 => by rw [hpos'] at hb1 hb2; exact hmap b (hmono.trans hb1) (by omega))
      refine ⟨fuel + 1, w, (hstep fuel).trans hw, hret, hwlen, hm, hrest.trans ?_⟩
      have happend := overwrite_append (flatImage g ops mem s) c.pos
        ((dat.drop c.retlen).take p) ((dat.drop c.retlen).drop p)
      rw [List.take_append_drop, hpart, List.drop_drop] at happend
      rw [happend, hpos', hretlen']
      exact overwrite_congr himage _ _

lemma mtkBmtWriteLoop_large (hlow : Flawless g low mem) {dat oob : List Byte}
    (hdat : dat.length = req.len) {s : μ × δ} {fuel : ℕ} {c : WriteCursor} {w : IoWrite × μ × δ}
    (hleft : 2 ^ 32 ≤ req.len - c.retlen)
    (h : mtkBmtWriteLoop g ranges low ops req dat oob fuel c s = some w) : w.1.ret < 0 := by
  induction fuel generalizing c s with
  | zero => cases h
  | succ fuel ih =>
    by_cases hmap : ops.getMappingBlock s.1 (c.pos / g.blkSize % 2 ^ 32) < 0
    · rw [mtkBmtWriteLoop, if_pos (Or.inl (by omega))] at h
      dsimp only at h
      rw [if_pos hmap] at h
      rw [← Option.some_inj.mp h]
      show errIo < 0
      decide
    · obtain ⟨cur, hstep, hretlen, -, -⟩ := mtkBmtWriteLoop_part ranges oob
        hlow hdat (by omega : c.retlen < req.len) (not_lt.mp hmap)
      rw [hstep] at h
      refine ih ?_ h
      have := @le_sub_partLen g (c.pos % g.blkSize) _ hleft
      have hnext : (c.next g (c.pos % g.blkSize)
          (partLen g (c.pos % g.blkSize) (req.len - c.retlen)) cur.1).retlen =
          c.retlen + cur.1.retlen := rfl
      rw [hnext, hretlen]
      omega

end Flawless

/-! ## The flat device -/

/-- A read succeeds and returns the requested bytes of an image. -/
def ReadsImage (s : μ × δ) (addr : ℕ) (req : OobOps) (img : ℕ → Byte) : Prop :=
  ∃ fuel r, mtkBmtRead g ranges low ops fuel s addr req = some r ∧ 0 ≤ r.1.ret ∧
    r.1.dat = slice img addr req.len

/-- A read returns the bytes of the logical image; a write replaces its bytes in the image and no
others, and a read after it returns the bytes of the new image. -/
structure RefinesFlat (mem : δ → ℕ → Byte) (s : μ × δ) (dst : ℕ) (wreq : OobOps)
    (dat oob : List Byte) (src : ℕ) (rreq : OobOps) : Prop where
  read : ReadsImage g ranges low ops s src rreq (flatImage g ops mem s)
  write : ∃ fuel w, mtkBmtWrite g ranges low ops fuel s dst wreq dat oob = some w ∧
    w.1.ret = 0 ∧ w.1.retlen = wreq.len ∧
    Set.EqOn (flatImage g ops mem w.2) (overwrite (flatImage g ops mem s) dst dat)
      {x | x / g.blkSize ∈ mappedBlocks g ops s.1} ∧
    ReadsImage g ranges low ops w.2 src rreq (overwrite (flatImage g ops mem s) dst dat)

section Refinement

variable {g ranges low ops} {mem : δ → ℕ → Byte} {s : μ × δ} {addr : ℕ} {req : OobOps}

lemma Request.mem_mappedBlocks (h : Request g ops s.1 addr req) {x : ℕ} (h1 : addr ≤ x)
    (h2 : x < addr + req.len) : x / g.blkSize ∈ mappedBlocks g ops s.1 := by
  have hdecomp := Nat.div_mul_le_self x g.blkSize
  have hin := h.inside
  exact ⟨(Nat.div_lt_iff_lt_mul g.blkSize_pos).mpr (by omega),
    h.mapped _ (Nat.div_le_div_right h1) (by omega)⟩

variable (ranges) in
lemma readsImage (hlow : Flawless g low mem) (h : Request g ops s.1 addr req)
    (h32 : req.len < 2 ^ 32) :
    ReadsImage g ranges low ops s addr req (flatImage g ops mem s) :=
  mtkBmtReadLoop_rest hlow h32 h.no_oob req.len ⟨addr, [], [], req.ooblen, req.ooboffs, 0, 0, 0⟩
    (Nat.zero_add _) rfl h.no_oob rfl le_rfl h.inside h.mapped

lemma lt_of_readsImage (hlow : Flawless g low mem) {img : ℕ → Byte}
    (h : ReadsImage g ranges low ops s addr req img) : req.len < 2 ^ 32 := by
  by_contra hge
  obtain ⟨fuel, r, hr, hret, -⟩ := h
  have hneg := mtkBmtReadLoop_large (c := ⟨addr, [], [], req.ooblen, req.ooboffs, 0, 0, 0⟩) hlow
    (not_lt.mp hge) hr
  omega

/-- Reads and writes refine the flat image exactly below 4 GiB. -/
theorem refinesFlat_iff (hlow : Flawless g low mem)
    (hinj : Set.InjOn (ops.getMappingBlock s.1) (mappedBlocks g ops s.1)) {dst src : ℕ}
    {wreq rreq : OobOps} {dat oob : List Byte} (hw : Request g ops s.1 dst wreq)
    (hdat : dat.length = wreq.len) (hr : Request g ops s.1 src rreq) :
    RefinesFlat g ranges low ops mem s dst wreq dat oob src rreq ↔
      rreq.len < 2 ^ 32 ∧ wreq.len < 2 ^ 32 := by
  constructor
  · intro h
    refine ⟨lt_of_readsImage hlow h.read, ?_⟩
    by_contra hge
    obtain ⟨fuel, w, hrun, hret, -⟩ := h.write
    have hneg := mtkBmtWriteLoop_large (c := ⟨dst, 0, 0, wreq.ooblen, wreq.ooboffs, 0⟩) hlow hdat
      (not_lt.mp hge) hrun
    omega
  · rintro ⟨hr32, hw32⟩
    refine ⟨readsImage ranges hlow hr hr32, ?_⟩
    obtain ⟨fuel, w, hrun, hret, hlen, hm, himg⟩ := mtkBmtWriteLoop_rest ranges oob
      hlow hw32 hw.no_oob hdat hinj wreq.len ⟨dst, 0, 0, wreq.ooblen, wreq.ooboffs, 0⟩
      (Nat.zero_add _) rfl hw.no_oob hw.inside hw.mapped
    rw [List.drop_zero] at himg
    refine ⟨fuel, w, hrun, hret, hlen, himg, ?_⟩
    -- the mapping is the same after the write
    obtain ⟨fuel', r, hrun', hge, hrdat⟩ := readsImage (s := w.2) ranges hlow
      (by rwa [hm]) hr32
    refine ⟨fuel', r, hrun', hge, hrdat.trans (slice_congr fun x h1 h2 => himg ?_)⟩
    exact hr.mem_mappedBlocks h1 h2

end Refinement

/-- A driver that keeps its memory as a function. -/
def memoryDriver : Lower (ℕ → Byte) where
  readOob d addr req := (⟨0, slice d addr req.len, []⟩, d)
  writeOob d addr req dat _ := (⟨0, req.len, 0⟩, overwrite d addr dat)

/-- A manager that swaps the blocks 2 and 3 and never remaps. -/
def swapManager : Manager Unit (ℕ → Byte) where
  getMappingBlock _ block := if block = 2 then 3 else if block = 3 then 2 else block
  remapBlock s _ _ _ := (false, s)

/-- A chip of 8 GiB with blocks of 128 KiB. -/
def wideChip : Geom where
  pgShift := 11
  blkShift := 17
  oobsize := 64
  totalBlks := 65535
  bitflipThreshold := 3
  eccStrength := 4
  pg_le_blk := Nat.le_add_right 11 6
  blk_lt := Nat.le_add_right 18 14
  total_lt := by decide

lemma flawless_memoryDriver : Flawless wideChip memoryDriver id where
  read_ret _ _ _ := le_rfl
  read_flips _ _ _ := Or.inr (show (0 : ℤ) < 3 by decide)
  read_dat _ _ _ := rfl
  read_oob _ _ _ _ := rfl
  read_mem _ _ _ := rfl
  write_ret _ _ _ _ _ := le_rfl
  write_len _ _ _ _ _ _ := rfl
  write_oob _ _ _ _ _ _ := rfl
  write_mem _ _ _ _ _ _ := rfl

lemma swapManager_nonneg (b : ℕ) : 0 ≤ swapManager.getMappingBlock () b := by
  simp only [swapManager]
  split
  · decide
  · split <;> omega

lemma request_swapManager {addr : ℕ} {req : OobOps} (hpos : 0 < req.len) (hno : req.ooblen = 0)
    (hin : addr + req.len ≤ 65535 * 2 ^ 17) : Request wideChip swapManager () addr req :=
  ⟨hpos, hno, hin, fun b _ _ => swapManager_nonneg b⟩

/-- A write over the border of the blocks 2 and 3 and a read of both blocks. -/
theorem refinesFlat_iff_swap : RefinesFlat wideChip none memoryDriver swapManager id
    ((), fun _ => 0xff) 0x5ffff ⟨3, 0, 0⟩ [1, 2, 3] [] 0x40000 ⟨0x40000, 0, 0⟩ := by
  refine (refinesFlat_iff flawless_memoryDriver (fun b _ c _ hbc => ?_)
    (request_swapManager (by decide) rfl (by decide)) rfl
    (request_swapManager (by decide) rfl (by decide))).mpr ⟨by decide, by decide⟩
  simp only [swapManager] at hbc
  split_ifs at hbc <;> omega

/-- A read of 4 GiB does not return. -/
theorem not_refinesFlat_4gib : Request wideChip swapManager () 0 ⟨2 ^ 32, 0, 0⟩ ∧
    ¬RefinesFlat wideChip none memoryDriver swapManager id
      ((), fun _ => 0xff) 0x5ffff ⟨3, 0, 0⟩ [1, 2, 3] [] 0 ⟨2 ^ 32, 0, 0⟩ := by
  refine ⟨request_swapManager (by decide) rfl (by decide), fun h => ?_⟩
  exact absurd (lt_of_readsImage flawless_memoryDriver h.read) (lt_irrefl _)

end Bmt
