import Mt798x.Mtd.Blocks

/-!
# What a written image leaves on the flash

The blocks in use hold the padded image, everything else is as it was.  `mtd_write` asks for the bad
blocks without adding the offset of `-p`, so that the image is where a reader of the good blocks
expects it only if the marks in front of the blocks in use are the same with and without the offset.
-/

namespace Mtd

open Picks

variable {W : World} {dev : Dev} {g : Globals}

/-! ## The contents of the blocks -/

/-- The contents of a block. -/
def blockAt (dev : Dev) (flash : ℕ → Byte) (b : ℕ) : List Byte :=
  bytesAt flash (b * dev.erasesize) dev.erasesize

lemma blocks_apart {es b b' i : ℕ} (h : b ≠ b') (h1 : b * es ≤ i) (h2 : i < b * es + es) :
    ¬ (b' * es ≤ i ∧ i < b' * es + es) := by
  rintro ⟨h3, h4⟩
  rcases Nat.lt_or_gt_of_ne h with hlt | hlt
  · have := Nat.mul_le_mul_right es hlt
    rw [Nat.succ_mul] at this
    omega
  · have := Nat.mul_le_mul_right es hlt
    rw [Nat.succ_mul] at this
    omega

lemma put_apply_of_not {es : ℕ} {flash : ℕ → Byte} {b i : ℕ} {chunk : List Byte}
    (hlen : chunk.length = es) (h : ¬ (b * es ≤ i ∧ i < b * es + es)) :
    put es flash b chunk i = flash i := by
  rw [put, writeAt, hlen, if_neg h, eraseAt, if_neg h]

lemma putAll_apply_of_not {es : ℕ} {flash : ℕ → Byte} {bs : List ℕ} {data : List Byte} {i : ℕ}
    (hlen : data.length = bs.length * es) (h : ∀ b ∈ bs, ¬ (b * es ≤ i ∧ i < b * es + es)) :
    putAll es flash bs data i = flash i := by
  induction bs generalizing flash data with
  | nil => rfl
  | cons b bs ih =>
    rw [List.length_cons, Nat.succ_mul] at hlen
    rw [putAll, ih (by rw [List.length_drop]; omega) (fun b' hb' => h b' (by simp [hb']))]
    exact put_apply_of_not (by rw [List.length_take]; omega) (h b (by simp))

lemma blockAt_putAll_of_notMem {flash : ℕ → Byte} {bs : List ℕ} {data : List Byte} {b : ℕ}
    (hlen : data.length = bs.length * dev.erasesize) (h : b ∉ bs) :
    blockAt dev (putAll dev.erasesize flash bs data) b = blockAt dev flash b := by
  refine bytesAt_congr fun i h1 h2 => putAll_apply_of_not hlen fun b' hb' => ?_
  have hne : b ≠ b' := by
    rintro rfl
    exact h hb'
  exact blocks_apart hne h1 h2

lemma flatMap_blockAt_putAll {flash : ℕ → Byte} {bs : List ℕ} {data : List Byte}
    (hlen : data.length = bs.length * dev.erasesize) (hnodup : bs.Nodup) :
    bs.flatMap (blockAt dev (putAll dev.erasesize flash bs data)) = data := by
  induction bs generalizing flash data with
  | nil =>
    rw [List.length_nil, Nat.zero_mul] at hlen
    rw [List.eq_nil_of_length_eq_zero hlen]
    rfl
  | cons b bs ih =>
    rw [List.length_cons, Nat.succ_mul] at hlen
    obtain ⟨hb, hnodup⟩ := List.nodup_cons.mp hnodup
    have hdrop : (data.drop dev.erasesize).length = bs.length * dev.erasesize := by
      rw [List.length_drop]
      omega
    have htake : (data.take dev.erasesize).length = dev.erasesize := by
      rw [List.length_take]
      omega
    have hhead : blockAt dev (put dev.erasesize flash b (data.take dev.erasesize)) b =
        data.take dev.erasesize := by
      have h := bytesAt_writeAt_eraseAt flash (b * dev.erasesize) (data.take dev.erasesize)
      rw [htake] at h
      exact h
    rw [List.flatMap_cons, putAll, blockAt_putAll_of_notMem hdrop hb, hhead, ih hdrop hnodup,
      List.take_append_drop]

/-! ## The image on the flash -/

/-- The good blocks from `P` on. -/
def goodBlocks (dev : Dev) (P : ℕ) : List ℕ :=
  (List.range' P (dev.blocks - P)).filter fun b => dev.isBad b = false

/-- What the good blocks from `P` on hold, one after the other. -/
def goodData (dev : Dev) (flash : ℕ → Byte) (P : ℕ) : List Byte :=
  (goodBlocks dev P).flatMap (blockAt dev flash)

/-- The number of blocks of an image. -/
def imageBlocks (dev : Dev) (image : List Byte) : ℕ :=
  (padded dev.erasesize image).length / dev.erasesize

/-- The blocks that `mtd_write` puts an image into: the marks it looks at are those of the blocks
counted from the start of the device, not from its offset. -/
def usedBlocks (dev : Dev) (flag : Option Flag) (P : ℕ) (image : List Byte) : List ℕ :=
  (((List.range dev.blocks).filter fun j => seenBad dev flag j = false).take
    (imageBlocks dev image)).map (P + ·)

/-- Up to the last block in use, every block that is passed over is bad. -/
def Unshifted (dev : Dev) (flag : Option Flag) (P : ℕ) (image : List Byte) : Prop :=
  ∀ b ∈ usedBlocks dev flag P image, ∀ j, P + j < b → seenBad dev flag j = true →
    dev.isBad (P + j) = true

/-- The first good blocks hold, or are going to hold, what the image has there: a good block that
is passed over holds it already, and one in use gets the same bytes as the block that is due. -/
def Coincides (dev : Dev) (flash : ℕ → Byte) (flag : Option Flag) (P : ℕ) (image : List Byte) :
    Prop :=
  let chunk (k : ℕ) := ((padded dev.erasesize image).drop (k * dev.erasesize)).take dev.erasesize
  let used := usedBlocks dev flag P image
  ∀ k b, ((goodBlocks dev P).take (imageBlocks dev image))[k]? = some b →
    (if b ∈ used then chunk (used.idxOf b) else blockAt dev flash b) = chunk k

/-- The flash holds an image from `P` on, and it has been written block by block into erased good
blocks. -/
structure Written (dev : Dev) (P : ℕ) (image : List Byte) (flash : ℕ → Byte) (fd : Fd) : Prop where
  data : padded dev.erasesize image <+: goodData dev fd.flash P
  erased : ∀ pre post start length, fd.log = pre ++ .write start length :: post →
    .erase start length ∈ pre
  good : ∀ op ∈ fd.log, ∃ b, (op = .erase (b * dev.erasesize) dev.erasesize ∨
    op = .write (b * dev.erasesize) dev.erasesize) ∧ P ≤ b ∧ b < dev.blocks ∧ dev.isBad b = false
  wanted : ∀ start length, .erase start length ∈ fd.log → .write start length ∈ fd.log
  untouched : ∀ i, (∀ start length, .write start length ∈ fd.log → ¬ (start ≤ i ∧ i < start + length)) →
    fd.flash i = flash i

lemma length_blockAt (flash : ℕ → Byte) (b : ℕ) : (blockAt dev flash b).length = dev.erasesize :=
  length_bytesAt _ _ _

/-- Blocks that make up data are its chunks. -/
lemma flatMap_eq_iff {f : ℕ → List Byte} {es : ℕ} (hf : ∀ b, (f b).length = es) {bs : List ℕ}
    {data : List Byte} (hlen : data.length = bs.length * es) :
    bs.flatMap f = data ↔ ∀ k b, bs[k]? = some b → f b = (data.drop (k * es)).take es := by
  induction bs generalizing data with
  | nil =>
    rw [List.length_nil, Nat.zero_mul] at hlen
    simp [List.eq_nil_of_length_eq_zero hlen]
  | cons b bs ih =>
    rw [List.length_cons, Nat.succ_mul] at hlen
    have hdrop : (data.drop es).length = bs.length * es := by
      rw [List.length_drop]
      omega
    have hhead : bs.flatMap f = data.drop es ∧ f b = data.take es ↔
        (b :: bs).flatMap f = data := by
      constructor
      · rintro ⟨h1, h2⟩
        rw [List.flatMap_cons, h1, h2, List.take_append_drop]
      · rintro rfl
        rw [List.flatMap_cons, List.take_left' (hf b), List.drop_left' (hf b)]
        exact ⟨rfl, rfl⟩
    rw [← hhead, ih hdrop]
    constructor
    · rintro ⟨hrest, hb⟩ k b' hk
      cases k with
      | zero =>
        obtain rfl : b = b' := Option.some.inj hk
        rw [Nat.zero_mul, List.drop_zero]
        exact hb
      | succ k =>
        rw [List.getElem?_cons_succ] at hk
        rw [hrest k b' hk, List.drop_drop, Nat.succ_mul, Nat.add_comm]
    · intro hall
      refine ⟨fun k b' hk => ?_, ?_⟩
      · have h := hall (k + 1) b' (by rwa [List.getElem?_cons_succ])
        rw [h, List.drop_drop, Nat.succ_mul, Nat.add_comm]
      · have h := hall 0 b rfl
        rwa [Nat.zero_mul, List.drop_zero] at h

lemma length_flatMap_blockAt (flash : ℕ → Byte) (bs : List ℕ) :
    (bs.flatMap (blockAt dev flash)).length = bs.length * dev.erasesize := by
  induction bs with
  | nil => simp
  | cons b bs ih =>
    rw [List.flatMap_cons, List.length_append, length_blockAt, ih, List.length_cons, Nat.succ_mul,
      Nat.add_comm]

lemma isPrefix_flatMap_iff {flash : ℕ → Byte} {bs : List ℕ} {data : List Byte} {m : ℕ}
    (hlen : data.length = m * dev.erasesize) (hm : m ≤ bs.length) :
    data <+: bs.flatMap (blockAt dev flash) ↔ (bs.take m).flatMap (blockAt dev flash) = data := by
  have hsplit : bs.flatMap (blockAt dev flash) = (bs.take m).flatMap (blockAt dev flash) ++
      (bs.drop m).flatMap (blockAt dev flash) := by
    rw [← List.flatMap_append, List.take_append_drop]
  have htake : ((bs.take m).flatMap (blockAt dev flash)).length = data.length := by
    rw [length_flatMap_blockAt, List.length_take, Nat.min_eq_left hm, hlen]
  rw [hsplit, List.prefix_iff_eq_take, ← htake, List.take_left]
  exact eq_comm

lemma Erasable.block {b : ℕ} (h : Erasable W dev (b * dev.erasesize) dev.erasesize) :
    b < dev.blocks ∧ dev.isBad b = false := by
  obtain ⟨-, -, hfits, hgood, -⟩ := h
  have hes := dev.erasesize_pos
  constructor
  · by_contra hge
    have := Nat.mul_le_mul_right dev.erasesize (Nat.le_of_not_lt hge)
    rw [Dev.size] at hfits
    omega
  · have h0 := hgood 0 (by rw [Nat.div_self hes]; exact Nat.one_pos)
    rwa [Nat.mul_div_cancel _ hes, Nat.add_zero] at h0

lemma First.shift {dev : Dev} {flag : Option Flag} {P i : ℕ} {js : List ℕ}
    (h : First (fun j => seenBad dev flag j = false) i js)
    (hgood : ∀ j ∈ js, dev.isBad (P + j) = false)
    (hseen : ∀ j ∈ js, ∀ k, k < j → seenBad dev flag k = true → dev.isBad (P + k) = true) :
    First (fun b => dev.isBad b = false) (P + i) (js.map (P + ·)) := by
  induction js generalizing i with
  | nil => trivial
  | cons j js ih =>
    obtain ⟨hij, -, hgap, hrest⟩ := h
    refine ⟨Nat.add_le_add_left hij P, hgood j (by simp), fun k hk hkj hb => ?_, ?_⟩
    · change k < P + j at hkj
      obtain ⟨c, rfl⟩ := Nat.exists_eq_add_of_le hk
      have hc := hgap (i + c) (by omega) (by omega)
      rw [Bool.not_eq_false] at hc
      have hbad := hseen j (by simp) (i + c) (by omega) hc
      rw [← Nat.add_assoc] at hbad
      rw [hbad] at hb
      cases hb
    · exact ih hrest (fun j' hj' => hgood j' (by simp [hj'])) fun j' hj' =>
        hseen j' (by simp [hj'])

variable {flash : ℕ → Byte} {flag flag' : Option Flag} {P : ℕ} {buf : List Byte} {inp : Input}
  {fd : Fd}

/-- What a run of `mtd_write` leaves behind, in terms of the blocks in use. -/
lemma mtd_write_used (h : mtd_write W dev flash flag (P * dev.erasesize) buf inp = .ok (fd, flag'))
    (hbuf : buf.length ≤ dev.erasesize) :
    let image := buf ++ inp.rest
    let used := usedBlocks dev flag P image
    (padded dev.erasesize image).length = used.length * dev.erasesize ∧
      imageBlocks dev image = used.length ∧ used.Nodup ∧
      (∀ b ∈ used, P ≤ b ∧ b < dev.blocks ∧ dev.isBad b = false) ∧
      fd.flash = putAll dev.erasesize flash used (padded dev.erasesize image) ∧
      fd.log = used.flatMap (putOps dev.erasesize) ∧
      (Unshifted dev flag P image → used <+: goodBlocks dev P) := by
  intro image used
  obtain ⟨js, hfirst, hcount, herasable, hflash, hlog⟩ := mtd_write_spec h hbuf
  have hes := dev.erasesize_pos
  have hm : imageBlocks dev image = js.length := by
    rw [imageBlocks, ← hcount, Nat.mul_div_cancel _ hes]
  have hblock : ∀ j ∈ js, P + j < dev.blocks ∧ dev.isBad (P + j) = false :=
    fun j hj => (herasable j hj).block
  have hpre := hfirst.isPrefix_filter (N := dev.blocks) (fun j hj => by
    have := (hblock j hj).1
    omega)
  rw [Nat.sub_zero, ← List.range_eq_range'] at hpre
  have hused : used = js.map (P + ·) := by
    change (((List.range dev.blocks).filter _).take (imageBlocks dev image)).map _ = _
    rw [hm, ← List.prefix_iff_eq_take.mp hpre]
  have hlen : used.length = js.length := by rw [hused, List.length_map]
  refine ⟨by rw [hlen]; exact hcount.symm, by rw [hm, hlen], ?_, ?_, by rw [hused]; exact hflash,
    by rw [hused]; exact hlog, ?_⟩
  · rw [hused]
    exact hfirst.nodup.map (fun a b hab => Nat.add_left_cancel hab)
  · intro b hb
    rw [hused] at hb
    obtain ⟨j, hj, rfl⟩ := List.mem_map.mp hb
    exact ⟨by omega, (hblock j hj).1, (hblock j hj).2⟩
  · intro hunshifted
    have hshift := First.shift hfirst (fun j hj => (hblock j hj).2) (fun j hj k hk hseen =>
      hunshifted (P + j) (by
        change P + j ∈ used
        rw [hused]
        exact List.mem_map.mpr ⟨j, hj, rfl⟩) k (by omega) hseen)
    rw [hused]
    exact hshift.isPrefix_filter fun b hb => by
      obtain ⟨j, hj, rfl⟩ := List.mem_map.mp hb
      exact (hblock j hj).1

lemma erase_mem_of_write {es : ℕ} {bs : List ℕ} {pre post : List Op} {start length : ℕ}
    (h : bs.flatMap (putOps es) = pre ++ .write start length :: post) :
    .erase start length ∈ pre := by
  induction bs generalizing pre with
  | nil => simp at h
  | cons b bs ih =>
    rw [List.flatMap_cons, putOps] at h
    rcases pre with - | ⟨op, - | ⟨op', pre⟩⟩
    · obtain ⟨hop, -⟩ := List.cons.inj h
      cases hop
    · simp only [List.cons_append, List.nil_append, List.cons.injEq, Op.write.injEq] at h
      obtain ⟨rfl, ⟨rfl, rfl⟩, -⟩ := h
      exact List.mem_singleton.mpr rfl
    · simp only [List.cons_append, List.nil_append, List.cons.injEq] at h
      exact List.mem_cons_of_mem _ (List.mem_cons_of_mem _ (ih h.2.2))

lemma unshifted_zero (dev : Dev) (flag : Option Flag) (image : List Byte) :
    Unshifted dev flag 0 image := by
  intro b _ j _ hseen
  rw [seenBad, Bool.and_eq_true] at hseen
  rw [Nat.zero_add]
  exact hseen.2

/-- A NAND device of four blocks of four bytes. -/
def smallNand (marked : ℕ → Bool) : Dev := ⟨.MTD_NANDFLASH, 4, 4, marked, by decide, by decide⟩

/-- Hardware that carries out every request. -/
def reliable : World := ⟨fun _ => false, fun _ => false⟩

end Mtd
