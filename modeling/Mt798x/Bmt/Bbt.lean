import Mt798x.Bmt.Desc

/-!
# The mapping of the bad-block table

`get_mapping_block_index_bbt` of `mtk_bmt_bbt.c`.  The good blocks of a remap range come first and
then the bad ones, both in ascending order.  The function finds the block at a given position in
two scans over the range that share the counters `ofs` and `bad_blocks`.

The bounds of the scans are `int`s: those of `mapping_block_in_range` shifted right by
`blk_shift`.  They are the bounds of the range only if that function reports bytes, and bytes below
2 GiB.  Without remap ranges it reports the number of blocks of the chip, so that after the shift
next to nothing is scanned.
-/

namespace Bmt

open Bytes

/-! ## The function -/

/-- `bbt_block_is_bad`: the two bits of the block in `bbt_buf`.  The parameter is a `u16`. -/
def bbtBlockIsBad (bbtBuf : List Byte) (block : ℤ) : Bool :=
  let block := (block % 2 ^ 16).toNat
  (bbtBuf.getD (block / 4) 0).toNat / 4 ^ (block % 4) % 4 != 0

/-- The first loop: `k` blocks left, `i` the next one.  The result are the values of `i`, `ofs` and
`bad_blocks` after the loop. -/
def bbtScanLoop (isBad : ℤ → Bool) : ℕ → ℤ → ℤ → ℕ → ℤ × ℤ × ℕ
  | 0, i, ofs, badBlocks => (i, ofs, badBlocks)
  | k + 1, i, ofs, badBlocks =>
    if isBad i then bbtScanLoop isBad k (i + 1) ofs (badBlocks + 1)
    else if ofs ≠ 0 then bbtScanLoop isBad k (i + 1) (ofs - 1) badBlocks
    else (i, ofs, badBlocks)

/-- The second loop, downwards from `i`.  It ends before the `k` blocks of the range are used up,
because `bad_blocks` of them are bad. -/
def bbtOverflowLoop (isBad : ℤ → Bool) (block ofs : ℤ) : ℕ → ℤ → ℕ → ℤ
  | 0, _, _ => block
  | k + 1, i, badBlocks =>
    if badBlocks = 0 then block
    else if !isBad i then bbtOverflowLoop isBad block ofs k (i - 1) badBlocks
    else if ((badBlocks - 1 : ℕ) : ℤ) ≤ ofs then i
    else bbtOverflowLoop isBad block ofs k (i - 1) (badBlocks - 1)

/-- The body of `get_mapping_block_index_bbt` for a block in the range from `start` to `stop`. -/
def bbtIndex (isBad : ℤ → Bool) (start stop block : ℤ) : ℤ :=
  let k := (stop - start).toNat
  -- skip bad blocks within the mapping range
  let (i, ofs, badBlocks) := bbtScanLoop isBad k start (block - start) 0
  if i < stop then i
  -- when overflowing, remap remaining blocks to bad ones
  else bbtOverflowLoop isBad block ofs k (stop - 1) badBlocks

/-- A bound that `mapping_block_in_range` reports, as an `int`. -/
def boundInt (n : ℕ) : ℤ := if n < 2 ^ 31 then n else (n : ℤ) - 2 ^ 32

/-- The bound shifted right by `blk_shift`. -/
def Geom.scanBound (g : Geom) (n : ℕ) : ℤ := boundInt n / g.blkSize

/-- `get_mapping_block_index_bbt`. -/
def getMappingBlockIndexBbt (g : Geom) (ranges : RemapRange) (bbtBuf : List Byte) (block : ℕ) : ℤ :=
  match mappingBlockInRange g ranges block with
  | none => block
  | some (start, stop) =>
    bbtIndex (bbtBlockIsBad bbtBuf) (g.scanBound start) (g.scanBound stop) block

/-! ## Consecutive blocks -/

/-- The `n` blocks from `lo` on. -/
def blocksFrom (lo : ℤ) (n : ℕ) : List ℤ := (List.range n).map fun k : ℕ => lo + (k : ℤ)

lemma blocksFrom_succ (lo : ℤ) (n : ℕ) : blocksFrom lo (n + 1) = lo :: blocksFrom (lo + 1) n := by
  rw [blocksFrom, blocksFrom, List.range_succ_eq_map, List.map_cons, List.map_map]
  congr 1
  · simp
  · refine List.map_congr_left fun k _ => ?_
    simp only [Function.comp_apply, Nat.cast_succ]
    ring

lemma blocksFrom_succ_last (lo : ℤ) (n : ℕ) :
    blocksFrom lo (n + 1) = blocksFrom lo n ++ [lo + n] := by
  rw [blocksFrom, blocksFrom, List.range_succ, List.map_append, List.map_singleton]

lemma mem_blocksFrom {lo x : ℤ} {n : ℕ} : x ∈ blocksFrom lo n ↔ lo ≤ x ∧ x < lo + n := by
  rw [blocksFrom, List.mem_map]
  constructor
  · rintro ⟨k, hk, rfl⟩
    rw [List.mem_range] at hk
    omega
  · rintro ⟨h1, h2⟩
    exact ⟨(x - lo).toNat, List.mem_range.mpr (by omega), by omega⟩

@[simp] lemma length_blocksFrom (lo : ℤ) (n : ℕ) : (blocksFrom lo n).length = n := by
  simp [blocksFrom]

lemma nodup_blocksFrom (lo : ℤ) (n : ℕ) : (blocksFrom lo n).Nodup := by
  refine List.Nodup.map (fun a b h => ?_) List.nodup_range
  omega

variable (isBad : ℤ → Bool)

/-- The good blocks in ascending order. -/
def goodBlocks (lo : ℤ) (n : ℕ) : List ℤ := (blocksFrom lo n).filter fun b => !isBad b

/-- The bad blocks in ascending order. -/
def badBlocks (lo : ℤ) (n : ℕ) : List ℤ := (blocksFrom lo n).filter isBad

/-- The order in which the blocks of a range are used. -/
def blockOrder (lo : ℤ) (n : ℕ) : List ℤ := goodBlocks isBad lo n ++ badBlocks isBad lo n

lemma perm_blockOrder (lo : ℤ) (n : ℕ) : (blockOrder isBad lo n).Perm (blocksFrom lo n) := by
  have h := List.filter_append_perm (fun b => !isBad b) (blocksFrom lo n)
  simp only [Bool.not_not] at h
  exact h

lemma length_blockOrder (lo : ℤ) (n : ℕ) : (blockOrder isBad lo n).length = n := by
  rw [(perm_blockOrder isBad lo n).length_eq, length_blocksFrom]

lemma length_good_add_bad (lo : ℤ) (n : ℕ) :
    (goodBlocks isBad lo n).length + (badBlocks isBad lo n).length = n := by
  rw [← List.length_append]
  exact length_blockOrder isBad lo n

lemma goodBlocks_succ (lo : ℤ) (n : ℕ) :
    goodBlocks isBad lo (n + 1) =
      if isBad lo then goodBlocks isBad (lo + 1) n else lo :: goodBlocks isBad (lo + 1) n := by
  rw [goodBlocks, blocksFrom_succ, List.filter_cons, ← goodBlocks]
  cases isBad lo <;> rfl

lemma badBlocks_succ (lo : ℤ) (n : ℕ) :
    badBlocks isBad lo (n + 1) =
      if isBad lo then lo :: badBlocks isBad (lo + 1) n else badBlocks isBad (lo + 1) n := by
  rw [badBlocks, blocksFrom_succ, List.filter_cons, ← badBlocks]

lemma badBlocks_succ_last (lo : ℤ) (n : ℕ) :
    badBlocks isBad lo (n + 1) =
      badBlocks isBad lo n ++ if isBad (lo + n) then [lo + n] else [] := by
  rw [badBlocks, blocksFrom_succ_last, List.filter_append, ← badBlocks, List.filter_singleton]
  cases isBad (lo + n) <;> rfl

lemma goodBlocks_succ_last (lo : ℤ) (n : ℕ) :
    goodBlocks isBad lo (n + 1) =
      goodBlocks isBad lo n ++ if isBad (lo + n) then [] else [lo + n] := by
  rw [goodBlocks, blocksFrom_succ_last, List.filter_append, ← goodBlocks, List.filter_singleton]
  cases isBad (lo + n) <;> rfl

lemma mem_badBlocks {lo x : ℤ} {n : ℕ} :
    x ∈ badBlocks isBad lo n ↔ (lo ≤ x ∧ x < lo + n) ∧ isBad x = true := by
  rw [badBlocks, List.mem_filter, mem_blocksFrom]

lemma mem_goodBlocks {lo x : ℤ} {n : ℕ} :
    x ∈ goodBlocks isBad lo n ↔ (lo ≤ x ∧ x < lo + n) ∧ isBad x = false := by
  rw [goodBlocks, List.mem_filter, mem_blocksFrom, Bool.not_eq_true']

/-! ## What the scans find -/

lemma bbtScanLoop_found {k ofs : ℕ} {i x : ℤ} (badBlocks : ℕ)
    (h : (goodBlocks isBad i k)[ofs]? = some x) :
    (bbtScanLoop isBad k i ofs badBlocks).1 = x := by
  induction k generalizing i ofs badBlocks with
  | zero => exact absurd h (by simp [goodBlocks, blocksFrom])
  | succ k ih =>
    rw [goodBlocks_succ] at h
    rw [bbtScanLoop]
    cases hb : isBad i
    · rw [hb, if_neg Bool.false_ne_true] at h
      cases ofs with
      | zero => simpa using h
      | succ ofs =>
        rw [List.getElem?_cons_succ] at h
        have hofs : ((ofs + 1 : ℕ) : ℤ) - 1 = ofs := by push_cast; ring
        have hne : ((ofs + 1 : ℕ) : ℤ) ≠ 0 := by omega
        simp only [Bool.false_eq_true, if_false, if_pos hne]
        rw [hofs, ih badBlocks h]
    · rw [hb, if_pos rfl] at h
      simpa using ih (badBlocks + 1) h

lemma bbtScanLoop_end {k ofs : ℕ} {i : ℤ} (b : ℕ) (h : (goodBlocks isBad i k).length ≤ ofs) :
    bbtScanLoop isBad k i ofs b =
      (i + k, ((ofs - (goodBlocks isBad i k).length : ℕ) : ℤ),
        b + (badBlocks isBad i k).length) := by
  induction k generalizing i ofs b with
  | zero => simp [bbtScanLoop, goodBlocks, badBlocks, blocksFrom]
  | succ k ih =>
    rw [goodBlocks_succ] at h ⊢
    rw [badBlocks_succ, bbtScanLoop]
    have hi : i + 1 + (k : ℤ) = i + ((k + 1 : ℕ) : ℤ) := by push_cast; ring
    cases hb : isBad i
    · rw [hb, if_neg Bool.false_ne_true, List.length_cons] at h
      obtain ⟨ofs, rfl⟩ := Nat.exists_eq_succ_of_ne_zero (by omega : ofs ≠ 0)
      have hofs : ((ofs.succ : ℕ) : ℤ) - 1 = ofs := by push_cast; ring
      have hne : ((ofs.succ : ℕ) : ℤ) ≠ 0 := by omega
      simp only [Bool.false_eq_true, if_false, if_pos hne, List.length_cons]
      rw [hofs, ih b (by omega), hi, Nat.succ_sub_succ]
    · rw [hb, if_pos rfl] at h
      simp only [if_true, List.length_cons]
      rw [ih (b + 1) h, hi, Nat.add_assoc, Nat.add_comm 1]

/-- The second loop returns the bad block at position `ofs`, the last one if there are fewer. -/
lemma bbtOverflowLoop_eq (lo block : ℤ) (ofs k : ℕ) :
    bbtOverflowLoop isBad block ofs k (lo + k - 1) (badBlocks isBad lo k).length =
      ((badBlocks isBad lo k)[min ofs ((badBlocks isBad lo k).length - 1)]?).getD block := by
  induction k with
  | zero => simp [bbtOverflowLoop, badBlocks, blocksFrom]
  | succ k ih =>
    have hi : lo + ((k + 1 : ℕ) : ℤ) - 1 = lo + k := by push_cast; ring
    rw [badBlocks_succ_last, bbtOverflowLoop, hi]
    cases hb : isBad (lo + k)
    · -- a good block is passed over
      simp only [Bool.false_eq_true, if_false, List.append_nil, Bool.not_false, if_true]
      rw [ih]
      split
      · rename_i h0
        rw [List.length_eq_zero_iff.mp h0]
        rfl
      · rfl
    · simp only [if_true, Bool.not_true, Bool.false_eq_true, if_false, List.length_append,
        List.length_singleton, Nat.add_sub_cancel, Nat.succ_ne_zero]
      by_cases hofs : (badBlocks isBad lo k).length ≤ ofs
      · rw [if_pos (by exact_mod_cast hofs), min_eq_right hofs, List.getElem?_concat_length]
        rfl
      · rw [if_neg (by exact_mod_cast hofs), ih, min_eq_left (by omega), min_eq_left (by omega),
          List.getElem?_append_left (by omega)]

/-- `bbtIndex` in closed form: the block at the position of `block` in the order of use, and the
last bad block for a position behind the end. -/
lemma bbtIndex_eq {start stop block : ℤ} (hb : start ≤ block) :
    bbtIndex isBad start stop block =
      ((blockOrder isBad start (stop - start).toNat)[(block - start).toNat]?).getD
        ((badBlocks isBad start (stop - start).toNat).getLast?.getD block) := by
  obtain ⟨ofs, hofs⟩ : ∃ ofs : ℕ, block - start = ofs := ⟨(block - start).toNat, by omega⟩
  rw [bbtIndex, hofs, Int.toNat_natCast]
  generalize hk : (stop - start).toNat = k
  have hsum := length_good_add_bad isBad start k
  by_cases hg : ofs < (goodBlocks isBad start k).length
  · have hx := List.getElem?_eq_getElem hg
    have hmem := List.getElem_mem hg
    rw [mem_goodBlocks] at hmem
    have hfound := bbtScanLoop_found isBad 0 hx
    dsimp only
    rw [hfound, if_pos (by omega), blockOrder, List.getElem?_append_left hg, hx]
    rfl
  · have hend := bbtScanLoop_end isBad (i := start) 0 (not_lt.mp hg)
    rw [hend, Nat.zero_add]
    dsimp only
    rw [if_neg (by omega), blockOrder, List.getElem?_append_right (not_lt.mp hg)]
    rcases Nat.eq_zero_or_pos k with h0 | hpos
    · subst h0
      simp [bbtOverflowLoop, badBlocks, blocksFrom]
    · rw [show stop - 1 = start + k - 1 by omega, bbtOverflowLoop_eq]
      generalize hr : ofs - (goodBlocks isBad start k).length = r
      rw [List.getLast?_eq_getElem?]
      by_cases hlt : r < (badBlocks isBad start k).length
      · rw [min_eq_left (by omega), List.getElem?_eq_getElem hlt]
        rfl
      · rw [min_eq_right (by omega), List.getElem?_eq_none (not_lt.mp hlt)]
        rfl

/-- Without a bad block among those scanned every block stays where it is. -/
lemma bbtIndex_of_good {start stop block : ℤ} (hb : start ≤ block)
    (h : ∀ x, start ≤ x → x < stop → isBad x = false) :
    bbtIndex isBad start stop block = block := by
  have hbad : badBlocks isBad start (stop - start).toNat = [] := by
    refine List.filter_eq_nil_iff.mpr fun x hx => ?_
    rw [mem_blocksFrom] at hx
    rw [h x hx.1 (by omega)]
    exact Bool.false_ne_true
  have hgood : goodBlocks isBad start (stop - start).toNat =
      blocksFrom start (stop - start).toNat := by
    refine List.filter_eq_self.mpr fun x hx => ?_
    rw [mem_blocksFrom] at hx
    rw [h x hx.1 (by omega)]
    rfl
  rw [bbtIndex_eq isBad hb, blockOrder, hbad, hgood, List.append_nil]
  by_cases hlt : (block - start).toNat < (stop - start).toNat
  · rw [blocksFrom, List.getElem?_map, List.getElem?_range hlt]
    simp only [Option.map_some, Option.getD_some]
    omega
  · rw [List.getElem?_eq_none (by rw [length_blocksFrom]; exact not_lt.mp hlt)]
    rfl

lemma bbtIndex_last {start stop block : ℤ} (hb : start ≤ block) (hlast : stop ≤ block + 1)
    (hne : badBlocks isBad start (stop - start).toNat ≠ []) :
    bbtIndex isBad start stop block =
      (badBlocks isBad start (stop - start).toNat).getLast hne := by
  rw [bbtIndex_eq isBad hb, List.getLast?_eq_some_getLast hne, Option.getD_some]
  have hlen := length_blockOrder isBad start (stop - start).toNat
  by_cases hlt : (block - start).toNat < (stop - start).toNat
  · rw [show (block - start).toNat = (blockOrder isBad start (stop - start).toNat).length - 1 by
      omega, ← List.getLast?_eq_getElem?, blockOrder, List.getLast?_append_of_ne_nil _ hne,
      List.getLast?_eq_some_getLast hne, Option.getD_some]
  · rw [List.getElem?_eq_none (by omega), Option.getD_none]

/-! ## Bijections of a range -/

/-- The blocks from `lo` to `hi` are mapped onto themselves, the first ones to the good blocks in
ascending order and the others to bad ones. -/
structure Permutes (lo hi : ℕ) (f : ℕ → ℤ) : Prop where
  bijOn : Set.BijOn f (Set.Ico lo hi) (Set.Ico (lo : ℤ) hi)
  good : ∀ k < (goodBlocks isBad lo (hi - lo)).length,
    (goodBlocks isBad lo (hi - lo))[k]? = some (f (lo + k))
  bad : ∀ k, (goodBlocks isBad lo (hi - lo)).length ≤ k → lo + k < hi → isBad (f (lo + k)) = true

/-- No good block of the range is behind a bad one. -/
def GoodFirst (lo hi : ℕ) : Prop :=
  ∀ b c : ℕ, lo ≤ b → b < c → c < hi → isBad b = true → isBad c = true

variable {isBad} {lo hi : ℕ} {f : ℕ → ℤ}

/-- The order of use is a permutation. -/
lemma Permutes.of_blockOrder
    (h : ∀ k, lo + k < hi → (blockOrder isBad lo (hi - lo))[k]? = some (f (lo + k))) :
    Permutes isBad lo hi f := by
  have hlen := length_blockOrder isBad lo (hi - lo)
  have hnodup : (blockOrder isBad lo (hi - lo)).Nodup :=
    (perm_blockOrder isBad lo (hi - lo)).nodup_iff.mpr (nodup_blocksFrom _ _)
  have hget : ∀ b ∈ Set.Ico lo hi, (blockOrder isBad lo (hi - lo))[b - lo]? = some (f b) := by
    intro b hb
    have := h (b - lo) (by have := hb.1; have := hb.2; omega)
    rwa [Nat.add_sub_cancel' hb.1] at this
  refine ⟨⟨fun b hb => ?_, fun b hb c hc hbc => ?_, fun x hx => ?_⟩, fun k hk => ?_,
    fun k hk hlt => ?_⟩
  · have hmem := List.mem_of_getElem? (hget b hb)
    rw [(perm_blockOrder isBad lo (hi - lo)).mem_iff, mem_blocksFrom] at hmem
    exact ⟨hmem.1, by omega⟩
  · have h1 := hget b hb
    have h2 := hget c hc
    rw [← hbc] at h2
    have hblt : b - lo < (blockOrder isBad lo (hi - lo)).length := by
      have := hb.1
      have := hb.2
      omega
    have := (List.getElem?_inj hblt hnodup).mp (h1.trans h2.symm)
    have := hb.1
    have := hc.1
    omega
  · have hmem : x ∈ blockOrder isBad lo (hi - lo) := by
      rw [(perm_blockOrder isBad lo (hi - lo)).mem_iff, mem_blocksFrom]
      have := hx.1
      have := hx.2
      omega
    obtain ⟨k, hk, rfl⟩ := List.getElem_of_mem hmem
    rw [hlen] at hk
    refine ⟨lo + k, ⟨by omega, by omega⟩, ?_⟩
    have := h k (by omega)
    rw [List.getElem?_eq_getElem (by omega)] at this
    exact (Option.some_inj.mp this).symm
  · have hsum := length_good_add_bad isBad lo (hi - lo)
    have := h k (by omega)
    rwa [blockOrder, List.getElem?_append_left hk] at this
  · have := h k hlt
    rw [blockOrder, List.getElem?_append_right hk] at this
    exact ((mem_badBlocks isBad).mp (List.mem_of_getElem? this)).2

/-- In a range whose good blocks come first the good blocks are the first ones. -/
lemma goodBlocks_of_goodFirst {n : ℕ} (h : GoodFirst isBad lo (lo + n)) :
    goodBlocks isBad lo n = blocksFrom lo (goodBlocks isBad lo n).length := by
  induction n with
  | zero => rfl
  | succ n ih =>
    have hn : GoodFirst isBad lo (lo + n) :=
      fun b c hb hbc hc hbad => h b c hb hbc (by omega) hbad
    rw [goodBlocks_succ_last]
    cases hlast : isBad (lo + n)
    · -- a good block at the end: none before it is bad
      have hall : goodBlocks isBad lo n = blocksFrom lo n := by
        refine List.filter_eq_self.mpr fun x hx => ?_
        rw [mem_blocksFrom] at hx
        obtain ⟨b, rfl⟩ := Int.eq_ofNat_of_zero_le (by omega : 0 ≤ x)
        cases hb : isBad (b : ℤ)
        · rfl
        · have := h b (lo + n) (by omega) (by omega) (by omega) hb
          rw [Nat.cast_add, hlast] at this
          exact absurd this Bool.false_ne_true
      simp only [Bool.false_eq_true, if_false]
      rw [hall, List.length_append, length_blocksFrom, List.length_singleton, blocksFrom_succ_last]
    · simp only [if_true, List.append_nil]
      exact ih hn

/-- A mapping that leaves the blocks of the range alone has the property exactly if the good blocks
come first. -/
lemma permutes_iff_of_self (hf : ∀ b, lo ≤ b → b < hi → f b = b) :
    Permutes isBad lo hi f ↔ GoodFirst isBad lo hi := by
  constructor
  · intro h b c hb hbc hc hbad
    have hG : (goodBlocks isBad lo (hi - lo)).length ≤ b - lo := by
      by_contra hlt
      have := h.good (b - lo) (by omega)
      rw [Nat.add_sub_cancel' hb, hf b hb (by omega)] at this
      have := ((mem_goodBlocks isBad).mp (List.mem_of_getElem? this)).2
      rw [hbad] at this
      exact absurd this.symm Bool.false_ne_true
    have := h.bad (c - lo) (by omega) (by omega)
    rwa [Nat.add_sub_cancel' (by omega), hf c (by omega) hc] at this
  · intro h
    rcases Nat.lt_or_ge hi lo with hlt | hle
    · refine Permutes.of_blockOrder fun k hk => ?_
      omega
    · have hgood : goodBlocks isBad lo (hi - lo) =
          blocksFrom lo (goodBlocks isBad lo (hi - lo)).length :=
        goodBlocks_of_goodFirst (by rwa [Nat.add_sub_cancel' hle])
      have hsum := length_good_add_bad isBad lo (hi - lo)
      refine ⟨⟨fun b hb => ?_, fun b hb c hc hbc => ?_, fun x hx => ?_⟩, fun k hk => ?_,
        fun k hk hlt => ?_⟩
      · rw [hf b hb.1 hb.2]
        exact ⟨by exact_mod_cast hb.1, by exact_mod_cast hb.2⟩
      · rw [hf b hb.1 hb.2, hf c hc.1 hc.2] at hbc
        exact_mod_cast hbc
      · have h1 := hx.1
        have h2 := hx.2
        refine ⟨x.toNat, ⟨by omega, by omega⟩, ?_⟩
        rw [hf _ (by omega) (by omega)]
        omega
      · rw [hgood, blocksFrom, List.getElem?_map, List.getElem?_range hk, Option.map_some,
          hf _ (by omega) (by omega)]
        push_cast
        rfl
      · rw [hf _ (by omega) hlt]
        cases hb : isBad ((lo + k : ℕ) : ℤ)
        · have hmem : ((lo + k : ℕ) : ℤ) ∈ goodBlocks isBad lo (hi - lo) :=
            (mem_goodBlocks isBad).mpr ⟨⟨by omega, by omega⟩, hb⟩
          rw [hgood, mem_blocksFrom] at hmem
          omega
        · rfl

/-! ## The remap configuration -/

/-- The pairs that `mapping_block_in_range` reports: bytes, or blocks without remap ranges. -/
def reportedRanges (g : Geom) : RemapRange → List (ℕ × ℕ)
  | none => [(0, g.totalBlks)]
  | some rs => rs

/-- A reported pair in blocks. -/
def effectiveRange (g : Geom) (ranges : RemapRange) (r : ℕ × ℕ) : ℕ × ℕ :=
  match ranges with
  | none => r
  | some _ => (r.1 / g.blkSize, r.2 / g.blkSize)

/-- A device tree with ranges that are aligned to blocks and disjoint. -/
structure Configured (g : Geom) (ranges : RemapRange) : Prop where
  nonempty : ranges ≠ some []
  aligned : ∀ rs, ranges = some rs → ∀ r ∈ rs, g.blkSize ∣ r.1 ∧ g.blkSize ∣ r.2
  cells : ∀ rs, ranges = some rs → ∀ r ∈ rs, r.1 ≤ r.2 ∧ r.2 < 2 ^ 32
  disjoint : ∀ rs, ranges = some rs → rs.Pairwise fun r r' => r.2 ≤ r'.1 ∨ r'.2 ≤ r.1

/-- The block is in no effective range. -/
def OutsideRanges (g : Geom) (ranges : RemapRange) (b : ℕ) : Prop :=
  ∀ r ∈ reportedRanges g ranges,
    b < (effectiveRange g ranges r).1 ∨ (effectiveRange g ranges r).2 ≤ b

/-- The mapping permutes each effective range and leaves all other blocks of the chip alone. -/
structure MapsRanges (g : Geom) (ranges : RemapRange) (bbtBuf : List Byte) : Prop where
  permutes : ∀ r ∈ reportedRanges g ranges,
    Permutes (bbtBlockIsBad bbtBuf) (effectiveRange g ranges r).1 (effectiveRange g ranges r).2
      (getMappingBlockIndexBbt g ranges bbtBuf)
  outside : ∀ b < g.totalBlks, OutsideRanges g ranges b →
    getMappingBlockIndexBbt g ranges bbtBuf b = b

/-- The bounds of the range survive the shift: they are bytes below 2 GiB, or a block is a byte. -/
def ShiftExact (g : Geom) (ranges : RemapRange) (r : ℕ × ℕ) : Prop :=
  match ranges with
  | none => g.blkShift = 0
  | some _ => r.2 < 2 ^ 31

/-- No index between the shifted bounds is marked bad. -/
def ScanGood (g : Geom) (bbtBuf : List Byte) (r : ℕ × ℕ) : Prop :=
  ∀ x, g.scanBound r.1 ≤ x → x < g.scanBound r.2 → bbtBlockIsBad bbtBuf x = false

/-- A range whose bounds do not survive the shift has no bad block among those scanned instead, and
its good blocks come first; and no bad block is scanned for a block outside the ranges that falls
into one of them when its byte address is cut to 32 bits. -/
structure ScanHarmless (g : Geom) (ranges : RemapRange) (bbtBuf : List Byte) : Prop where
  shift : ∀ r ∈ reportedRanges g ranges, ShiftExact g ranges r ∨
    ScanGood g bbtBuf r ∧ GoodFirst (bbtBlockIsBad bbtBuf)
      (effectiveRange g ranges r).1 (effectiveRange g ranges r).2
  wrapped : ∀ b < g.totalBlks, OutsideRanges g ranges b →
    ∀ r, mappingBlockInRange g ranges b = some r → ScanGood g bbtBuf r

section Ranges

variable {g : Geom} {ranges : RemapRange} {r : ℕ × ℕ} {b : ℕ}

lemma scanBound_nonneg {n : ℕ} (h : n < 2 ^ 31) : g.scanBound n = ((n / g.blkSize : ℕ) : ℤ) := by
  rw [Geom.scanBound, boundInt, if_pos h]
  norm_cast

lemma scanBound_neg {n : ℕ} (h : 2 ^ 31 ≤ n) (hn : n < 2 ^ 32) : g.scanBound n < 0 := by
  rw [Geom.scanBound, boundInt, if_neg (not_lt.mpr h)]
  exact Int.ediv_neg_of_neg_of_pos (by omega) (by exact_mod_cast g.blkSize_pos)

lemma scanBound_le {n : ℕ} (hn : n < 2 ^ 32) : g.scanBound n ≤ ((n / g.blkSize : ℕ) : ℤ) := by
  rcases Nat.lt_or_ge n (2 ^ 31) with h | h
  · exact (scanBound_nonneg h).le
  · exact (scanBound_neg h hn).le.trans (Int.natCast_nonneg _)

/-- A block of an effective range is found in that range. -/
lemma mappingBlockInRange_of_mem (hc : Configured g ranges) (hr : r ∈ reportedRanges g ranges)
    (h1 : (effectiveRange g ranges r).1 ≤ b) (h2 : b < (effectiveRange g ranges r).2) :
    mappingBlockInRange g ranges b = some r := by
  cases ranges with
  | none => rw [List.mem_singleton.mp hr]; rfl
  | some rs =>
    have hpos := g.blkSize_pos
    obtain ⟨⟨s, hs⟩, ⟨e, he⟩⟩ := hc.aligned rs rfl r hr
    have hlt := (hc.cells rs rfl r hr).2
    have hlo : r.1 ≤ b * g.blkSize := by
      have : s ≤ b := by simpa [effectiveRange, hs, hpos.ne'] using h1
      rw [hs, Nat.mul_comm]
      exact Nat.mul_le_mul_right _ this
    have hhi : b * g.blkSize < r.2 := by
      have : b < e := by simpa [effectiveRange, he, hpos.ne'] using h2
      rw [he, Nat.mul_comm g.blkSize]
      exact Nat.mul_lt_mul_of_pos_right this hpos
    have hfound : (b * g.blkSize % 2 ^ 32 < r.1 || b * g.blkSize % 2 ^ 32 ≥ r.2) = false := by
      rw [Nat.mod_eq_of_lt (by omega)]
      simp only [Bool.or_eq_false_iff, decide_eq_false_iff_not]
      omega
    rw [mappingBlockInRange]
    -- the ranges in front of `r` are disjoint from it
    obtain ⟨before, after, rfl⟩ := List.append_of_mem hr
    have hd := hc.disjoint _ rfl
    rw [List.pairwise_append] at hd
    rw [List.find?_append, List.find?_eq_none.mpr, Option.none_or, List.find?_cons_of_pos]
    · rw [hfound]
      rfl
    · intro r' hr'
      have := hd.2.2 r' hr' r List.mem_cons_self
      rw [Nat.mod_eq_of_lt (by omega)]
      simp only [Bool.not_eq_true', Bool.or_eq_false_iff, decide_eq_false_iff_not]
      omega

lemma scanBounds_le (hc : Configured g ranges) (hr : r ∈ reportedRanges g ranges) :
    g.scanBound r.1 ≤ ((effectiveRange g ranges r).1 : ℤ) ∧
      g.scanBound r.2 ≤ ((effectiveRange g ranges r).2 : ℤ) := by
  cases ranges with
  | none =>
    have ht := g.total_lt
    rw [List.mem_singleton.mp hr]
    refine ⟨?_, ?_⟩
    · rw [scanBound_nonneg (by omega), Nat.zero_div]
      rfl
    · rw [scanBound_nonneg (by omega)]
      exact_mod_cast Nat.div_le_self _ _
  | some rs =>
    obtain ⟨hle, hlt⟩ := hc.cells rs rfl r hr
    exact ⟨scanBound_le (by omega), scanBound_le hlt⟩

lemma scanBounds_eq (hc : Configured g ranges) (hr : r ∈ reportedRanges g ranges)
    (hs : ShiftExact g ranges r) :
    g.scanBound r.1 = ((effectiveRange g ranges r).1 : ℤ) ∧
      g.scanBound r.2 = ((effectiveRange g ranges r).2 : ℤ) := by
  cases ranges with
  | none =>
    have ht := g.total_lt
    have hone : g.blkSize = 1 := by rw [Geom.blkSize, show g.blkShift = 0 from hs, pow_zero]
    rw [List.mem_singleton.mp hr]
    refine ⟨?_, ?_⟩
    · rw [scanBound_nonneg (by omega), hone, Nat.div_one]
      rfl
    · rw [scanBound_nonneg (by omega), hone, Nat.div_one]
      rfl
  | some rs =>
    have hle := (hc.cells rs rfl r hr).1
    have hs : r.2 < 2 ^ 31 := hs
    exact ⟨scanBound_nonneg (by omega), scanBound_nonneg hs⟩

lemma scanBound_lt (hc : Configured g ranges) (hr : r ∈ reportedRanges g ranges)
    (hs : ¬ShiftExact g ranges r)
    (hne : (effectiveRange g ranges r).1 < (effectiveRange g ranges r).2) :
    g.scanBound r.2 < ((effectiveRange g ranges r).2 : ℤ) := by
  cases ranges with
  | none =>
    have ht := g.total_lt
    rw [List.mem_singleton.mp hr] at hne ⊢
    have htwo : 1 < g.blkSize := Nat.one_lt_two_pow hs
    rw [scanBound_nonneg (by omega)]
    exact_mod_cast Nat.div_lt_self hne htwo
  | some rs =>
    have hlt := (hc.cells rs rfl r hr).2
    have hs : ¬r.2 < 2 ^ 31 := hs
    exact (scanBound_neg (not_lt.mp hs) hlt).trans_le (Int.natCast_nonneg _)

lemma eq_of_empty (hc : Configured g ranges) (hr : r ∈ reportedRanges g ranges)
    (h : (effectiveRange g ranges r).2 ≤ (effectiveRange g ranges r).1) : r.1 = r.2 := by
  cases ranges with
  | none =>
    rw [List.mem_singleton.mp hr] at h ⊢
    exact (Nat.le_zero.mp h).symm
  | some rs =>
    have hpos := g.blkSize_pos
    obtain ⟨⟨s, hs⟩, ⟨e, he⟩⟩ := hc.aligned rs rfl r hr
    have hle := (hc.cells rs rfl r hr).1
    have hes : e ≤ s := by simpa [effectiveRange, hs, he, hpos.ne'] using h
    have := Nat.mul_le_mul_left g.blkSize hes
    omega

lemma getMappingBlockIndexBbt_of_some {bbtBuf : List Byte}
    (h : mappingBlockInRange g ranges b = some r) :
    getMappingBlockIndexBbt g ranges bbtBuf b =
      bbtIndex (bbtBlockIsBad bbtBuf) (g.scanBound r.1) (g.scanBound r.2) b := by
  rw [getMappingBlockIndexBbt, h]

lemma mem_reportedRanges (h : mappingBlockInRange g ranges b = some r) :
    r ∈ reportedRanges g ranges := by
  cases ranges with
  | none => rw [← Option.some_inj.mp h]; exact List.mem_singleton_self _
  | some rs => exact List.mem_of_find?_eq_some h

lemma effectiveRange_le_of_some (h : mappingBlockInRange g ranges b = some r) :
    (effectiveRange g ranges r).1 ≤ b := by
  have hr := mem_reportedRanges h
  cases ranges with
  | none => rw [List.mem_singleton.mp hr]; exact Nat.zero_le b
  | some rs =>
    have hfound := List.find?_some h
    simp only [Bool.not_eq_true', Bool.or_eq_false_iff, decide_eq_false_iff_not] at hfound
    have hle : r.1 ≤ b * g.blkSize := by
      have := Nat.mod_le (b * g.blkSize) (2 ^ 32)
      omega
    exact Nat.div_le_of_le_mul (by rwa [Nat.mul_comm])

lemma scanBound_le_of_some (hc : Configured g ranges)
    (h : mappingBlockInRange g ranges b = some r) : g.scanBound r.1 ≤ (b : ℤ) :=
  (scanBounds_le hc (mem_reportedRanges h)).1.trans (by exact_mod_cast effectiveRange_le_of_some h)

variable {bbtBuf : List Byte}

lemma getMappingBlockIndexBbt_of_scanGood (hc : Configured g ranges)
    (h : mappingBlockInRange g ranges b = some r) (hgood : ScanGood g bbtBuf r) :
    getMappingBlockIndexBbt g ranges bbtBuf b = b := by
  rw [getMappingBlockIndexBbt_of_some h]
  exact bbtIndex_of_good _ (scanBound_le_of_some hc h) hgood

/-- If a bad block is scanned, all blocks from the end of the scan on get the highest one. -/
lemma exists_highest (hc : Configured g ranges) (hbad : ¬ScanGood g bbtBuf r) :
    ∃ x < g.scanBound r.2, g.scanBound r.1 ≤ x ∧
      ∀ b : ℕ, mappingBlockInRange g ranges b = some r → g.scanBound r.2 ≤ b + 1 →
        getMappingBlockIndexBbt g ranges bbtBuf b = x := by
  have hne : badBlocks (bbtBlockIsBad bbtBuf) (g.scanBound r.1)
      (g.scanBound r.2 - g.scanBound r.1).toNat ≠ [] := by
    rw [ScanGood] at hbad
    push Not at hbad
    obtain ⟨x, h1, h2, hx⟩ := hbad
    refine List.ne_nil_of_mem (a := x) ((mem_badBlocks _).mpr ⟨⟨h1, by omega⟩, ?_⟩)
    exact Bool.eq_true_of_not_eq_false hx
  obtain ⟨⟨h1, h2⟩, -⟩ := (mem_badBlocks _).mp (List.getLast_mem hne)
  refine ⟨_, by omega, h1, fun b hb hstop => ?_⟩
  rw [getMappingBlockIndexBbt_of_some hb]
  exact bbtIndex_last _ (scanBound_le_of_some hc hb) hstop hne

lemma permutes_of_shiftExact (hc : Configured g ranges) (hr : r ∈ reportedRanges g ranges)
    (hs : ShiftExact g ranges r) :
    Permutes (bbtBlockIsBad bbtBuf) (effectiveRange g ranges r).1 (effectiveRange g ranges r).2
      (getMappingBlockIndexBbt g ranges bbtBuf) := by
  obtain ⟨hstart, hstop⟩ := scanBounds_eq hc hr hs
  refine Permutes.of_blockOrder fun k hk => ?_
  have hfound := mappingBlockInRange_of_mem hc hr (Nat.le_add_right _ k) hk
  have hlen := length_blockOrder (bbtBlockIsBad bbtBuf) (effectiveRange g ranges r).1
    ((effectiveRange g ranges r).2 - (effectiveRange g ranges r).1)
  rw [getMappingBlockIndexBbt_of_some hfound, hstart, hstop, bbtIndex_eq _ (by push_cast; omega),
    show (((effectiveRange g ranges r).2 : ℤ) - (effectiveRange g ranges r).1).toNat =
      (effectiveRange g ranges r).2 - (effectiveRange g ranges r).1 by omega,
    show (((((effectiveRange g ranges r).1 + k : ℕ) : ℤ)) - (effectiveRange g ranges r).1).toNat =
      k by omega, List.getElem?_eq_getElem (by omega), Option.getD_some]

/-- A range that is permuted although its bounds do not survive the shift has no bad block among
those scanned. -/
lemma scanGood_of_permutes (hc : Configured g ranges) (hr : r ∈ reportedRanges g ranges)
    (hs : ¬ShiftExact g ranges r)
    (hp : Permutes (bbtBlockIsBad bbtBuf) (effectiveRange g ranges r).1
      (effectiveRange g ranges r).2 (getMappingBlockIndexBbt g ranges bbtBuf)) :
    ScanGood g bbtBuf r := by
  by_contra hbad
  obtain ⟨x, hx2, hx1, hx⟩ := exists_highest hc hbad
  obtain ⟨hle1, hle2⟩ := scanBounds_le hc hr
  have hlt := scanBound_lt hc hr hs
  generalize hS : (effectiveRange g ranges r).1 = S at *
  generalize hE : (effectiveRange g ranges r).2 = E at *
  have hfound : ∀ b : ℕ, S ≤ b → b < E → mappingBlockInRange g ranges b = some r :=
    fun b h1 h2 => mappingBlockInRange_of_mem hc hr (by omega) (by omega)
  rcases Nat.lt_or_ge S E with hne | hge
  · have hlt := hlt hne
    -- the last block of the range gets `x`
    have hlast := hx (E - 1) (hfound _ (by omega) (by omega)) (by omega)
    have hin := hp.bijOn.mapsTo (show E - 1 ∈ Set.Ico S E from ⟨by omega, by omega⟩)
    rw [hlast] at hin
    have hin1 := hin.1
    -- and so does the last block of the scan
    have hscan := hx (g.scanBound r.2 - 1).toNat (hfound _ (by omega) (by omega)) (by omega)
    have := hp.bijOn.injOn (show E - 1 ∈ Set.Ico S E from ⟨by omega, by omega⟩)
      (show (g.scanBound r.2 - 1).toNat ∈ Set.Ico S E from ⟨by omega, by omega⟩)
      (hlast.trans hscan.symm)
    omega
  · rw [eq_of_empty hc hr (by omega)] at hx1
    omega

end Ranges

variable {g : Geom} {ranges : RemapRange} {bbtBuf : List Byte}

/-- The mapping is right exactly if the scans between the shifted bounds do no harm. -/
theorem mapsRanges_iff (hc : Configured g ranges) :
    MapsRanges g ranges bbtBuf ↔ ScanHarmless g ranges bbtBuf := by
  constructor
  · intro h
    refine ⟨fun r hr => ?_, fun b hb hout r hfound => ?_⟩
    · by_cases hs : ShiftExact g ranges r
      · exact Or.inl hs
      · have hp := h.permutes r hr
        have hgood := scanGood_of_permutes hc hr hs hp
        refine Or.inr ⟨hgood, (permutes_iff_of_self fun b h1 h2 => ?_).mp hp⟩
        exact getMappingBlockIndexBbt_of_scanGood hc (mappingBlockInRange_of_mem hc hr h1 h2) hgood
    · by_contra hbad
      obtain ⟨x, hx2, hx1, hx⟩ := exists_highest hc hbad
      have hr := mem_reportedRanges hfound
      obtain ⟨hle1, hle2⟩ := scanBounds_le hc hr
      have hbehind : (effectiveRange g ranges r).2 ≤ b :=
        (hout r hr).resolve_left (not_lt.mpr (effectiveRange_le_of_some hfound))
      have hself := hx b hfound (by omega)
      rw [h.outside b hb hout] at hself
      omega
  · intro h
    refine ⟨fun r hr => ?_, fun b hb hout => ?_⟩
    · rcases h.shift r hr with hs | ⟨hgood, hfirst⟩
      · exact permutes_of_shiftExact hc hr hs
      · refine (permutes_iff_of_self fun b h1 h2 => ?_).mpr hfirst
        exact getMappingBlockIndexBbt_of_scanGood hc (mappingBlockInRange_of_mem hc hr h1 h2) hgood
    · cases hfound : mappingBlockInRange g ranges b with
      | none => rw [getMappingBlockIndexBbt, hfound]
      | some r =>
        exact getMappingBlockIndexBbt_of_scanGood hc hfound (h.wrapped b hb hout r hfound)

/-- A chip of eight blocks of 128 KiB. -/
def eightBlocks : Geom where
  pgShift := 11
  blkShift := 17
  oobsize := 64
  totalBlks := 8
  bitflipThreshold := 0
  eccStrength := 4
  pg_le_blk := by decide
  blk_lt := by decide
  total_lt := by decide

/-- With the range from block 2 to block 6 and block 3 bad, the blocks of the range are permuted. -/
theorem mapsRanges_iff_range :
    MapsRanges eightBlocks (some [(0x40000, 0xc0000)]) [0xc0, 0x00] := by
  have hc : Configured eightBlocks (some [(0x40000, 0xc0000)]) := by
    refine ⟨by decide, fun rs hrs => ?_, fun rs hrs => ?_, fun rs hrs => ?_⟩ <;>
      obtain rfl := Option.some_inj.mp hrs
    · simp only [List.forall_mem_singleton]
      decide
    · simp only [List.forall_mem_singleton]
      decide
    · exact List.pairwise_singleton _ _
  refine (mapsRanges_iff hc).mpr ⟨fun r hr => Or.inl ?_, fun b hb hout r hr => ?_⟩
  · rw [List.mem_singleton.mp hr]
    show (0xc0000 : ℕ) < 2 ^ 31
    decide
  · have hin : ∀ b < 8, (mappingBlockInRange eightBlocks (some [(0x40000, 0xc0000)]) b).isSome →
        2 ≤ b ∧ b < 6 := by decide
    have h26 := hin b hb (by rw [hr]; rfl)
    have h := hout (0x40000, 0xc0000) (List.mem_singleton_self _)
    rw [show effectiveRange eightBlocks (some [(0x40000, 0xc0000)]) (0x40000, 0xc0000) = (2, 6) by
      decide] at h
    omega

/-- Without remap ranges nothing is scanned on such a chip: block 5 is bad and still in use. -/
theorem not_mapsRanges_none :
    Configured eightBlocks none ∧ ¬MapsRanges eightBlocks none [0x00, 0x0c] := by
  refine ⟨⟨by decide, nofun, nofun, nofun⟩, fun h => ?_⟩
  have hgood := (h.permutes (0, 8) (List.mem_singleton_self _)).good 5 (by decide)
  have hblock : getMappingBlockIndexBbt eightBlocks none [0x00, 0x0c] 5 = 5 := by decide
  rw [show (effectiveRange eightBlocks none (0, 8)).1 + 5 = 5 from rfl, hblock] at hgood
  exact absurd hgood (by decide)

end Bmt
