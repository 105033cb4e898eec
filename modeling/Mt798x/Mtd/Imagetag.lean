import Mt798x.Mtd.Fixtrx

/-!
# Image tags

`mtd_fixtrx` of `imagetag.c`.  A tag holds the lengths of the parts of an image as texts, their
checksums, and a checksum of the tag.  Nothing but the tag is read: the command makes the kernel the
whole image.  It looks for the tag in the block of its offset, but checks the tag at the offset in
the first block, and it finds the block with the erase size of the device that was open before.
-/

namespace Mtd.Fix

open Bytes Guard FlatImage

namespace Imagetag

/-! ## Numbers in texts -/

/-- `isspace` -/
def isSpace (c : Byte) : Bool := c = 0x20 || 9 ≤ c && c ≤ 13

/-- `isdigit` -/
def isDigit (c : Byte) : Bool := 0x30 ≤ c && c ≤ 0x39

/-- `strtoul(str, NULL, 10)` for an `unsigned long` of some bits. -/
def strtoul (bits : ℕ) (str : List Byte) : ℕ :=
  let str := str.dropWhile isSpace
  let negative := str.head? = some 0x2d
  let str := if negative || str.head? = some 0x2b then str.drop 1 else str
  let value := (str.takeWhile isDigit).foldl (fun v c => 10 * v + (c.toNat - 0x30)) 0
  if 2 ^ bits ≤ value then 2 ^ bits - 1
  else if negative then (2 ^ bits - value) % 2 ^ bits
  else value

variable (s : Setup)

/-- What `strncpy` writes. -/
def padded (n : ℕ) (text : List Byte) : List Byte := text ++ List.replicate (n - text.length) 0

/-- The result of `strntoul` for the characters that it has copied. -/
def strntoul (text : List Byte) : ℕ := strtoul s.bits text % 2 ^ 32

/-! ## The command -/

/-- `CRC_START` -/
def CRC_START : UInt32 := 0xFFFFFFFF

/-- `compute_crc32`, for less than its buffer: its loop is not entered. -/
def compute_crc32 (fd : Fd) (crc : UInt32) (start compute_len : ℕ) : UInt32 :=
  crc32 crc (pread s.dev fd compute_len start)

/-- The command from the reading of the tag on. -/
def fixTag (args : Args) (fd : Fd) (buf : List Byte) : Except Fault Result := do
  let tag := args.rel
  -- `tag->cfe_length`
  let cfe_length ← text buf (tag + 84) 10
  if strntoul s cfe_length ≠ 0 then .ok (.exit fd)
  else do
    -- `tag->header_crc`
    let header_crc ← field buf (tag + 236) 4
    if compute_crc32 s fd CRC_START tag 236 ≠ get32 s.order header_crc then .ok (.exit fd)
    else do
      -- `tag->root_length`
      let root_length ← text buf (tag + 106) 10
      if strntoul s root_length = 0 then .ok (.ret fd [])
      else do
        let buf ← store buf (tag + 106) [0x30, 0]
        -- `tag->total_length`, `tag->kernel_length`
        let kernel_length ← text buf (tag + 128) 10
        let buf ← store buf (tag + 62) (padded 10 kernel_length)
        -- `tag->kernel_crc`, `tag->image_crc`, `tag->fskernel_crc`, `tag->rootfs_crc`
        let kernel_crc ← field buf (tag + 224) 4
        let buf ← store buf (tag + 216) kernel_crc
        let kernel_crc ← field buf (tag + 224) 4
        let buf ← store buf (tag + 196) kernel_crc
        let buf ← store buf (tag + 220) (put32 s.order CRC_START)
        let covered ← field buf tag 236
        let buf ← store buf (tag + 236) (put32 s.order (crc32 CRC_START covered))
        .ok (rewrite s fd args.block_offset buf [])

/-- `mtd_fixtrx` -/
def mtd_fixtrx (args : Args) (fd : Fd) : Except Fault Result :=
  match readBlock s fd args.block_offset with
  | none => .ok (.exit fd)
  | some buf => fixTag s args fd buf

/-! ## The tag in flash -/

/-- A text of at most `n` characters. -/
def textAt (flash : ℕ → Byte) (pos n : ℕ) : List Byte := (bytesAt flash pos n).takeWhile (· ≠ 0)

/-- The checksum that the tag at `offset` has of itself. -/
def headerCrcAt (flash : ℕ → Byte) (offset : ℕ) : UInt32 :=
  get32 s.order (bytesAt flash (offset + 236) 4)

/-- The tag at `offset` says that the kernel is the whole image, and carries its checksum. -/
structure Fixed (flash : ℕ → Byte) (offset : ℕ) : Prop where
  root_length : strntoul s (textAt flash (offset + 106) 10) = 0
  total_length : bytesAt flash (offset + 62) 10 = padded 10 (textAt flash (offset + 128) 10)
  image_crc : bytesAt flash (offset + 216) 4 = bytesAt flash (offset + 224) 4
  fskernel_crc : bytesAt flash (offset + 196) 4 = bytesAt flash (offset + 224) 4
  rootfs_crc : bytesAt flash (offset + 220) 4 = put32 s.order CRC_START
  header_crc : headerCrcAt s flash offset = crc32 CRC_START (bytesAt flash offset 236)

/-- The fields of the tag at `offset` for the lengths and the checksums. -/
def fields (offset i : ℕ) : Prop :=
  offset + 62 ≤ i ∧ i < offset + 72 ∨ offset + 106 ≤ i ∧ i < offset + 116 ∨
    offset + 196 ≤ i ∧ i < offset + 200 ∨ offset + 216 ≤ i ∧ i < offset + 224 ∨
      offset + 236 ≤ i ∧ i < offset + 240

/-- What the command says about the image. -/
def imagePatches (flash : ℕ → Byte) (offset : ℕ) : List Patch :=
  [(106, [0x30, 0]), (62, padded 10 (textAt flash (offset + 128) 10)),
    (216, bytesAt flash (offset + 224) 4), (196, bytesAt flash (offset + 224) 4),
    (220, put32 s.order CRC_START)]

/-- The fields that the command writes. -/
def patches (flash : ℕ → Byte) (offset : ℕ) : List Patch :=
  imagePatches s flash offset ++ [(236, put32 s.order (crc32 CRC_START
    (bytesAt (patch flash offset (imagePatches s flash offset)) offset 236)))]

/-- The text of the length of the boot loader is in the block of the tag; if it is zero then the tag
is, and if moreover the first block has the checksum at the offset of the tag, and there is no file
system, then the tag is right. -/
def Fixable (args : Args) (fd : Fd) : Prop :=
  args.block_offset + s.dev.erasesize ≤ s.dev.size →
    min 10 ((textAt fd.flash (args.offset + 84) 10).length + 1) ≤
        s.dev.erasesize - (args.rel + 84) ∧
      (strntoul s (textAt fd.flash (args.offset + 84) 10) = 0 →
        args.rel + 240 ≤ s.dev.erasesize ∧
          (compute_crc32 s fd CRC_START args.rel 236 = headerCrcAt s fd.flash args.offset →
            strntoul s (textAt fd.flash (args.offset + 106) 10) = 0 →
              Fixed s fd.flash args.offset))

variable {s} {args : Args} {fd : Fd} {flash : ℕ → Byte} {a pos n : ℕ} {chunk : List Byte}

/-! ## The block of the tag -/

/-- A text in a block, if the part that is read is in the block. -/
lemma text_bytesAt (flash : ℕ → Byte) (start len pos n : ℕ) :
    text (bytesAt flash start len) pos n =
      if min n ((textAt flash (start + pos) n).length + 1) ≤ len - pos then
        .ok (textAt flash (start + pos) n) else .error .outside := by
  induction n generalizing pos with
  | zero =>
    rw [if_pos (by omega)]
    rfl
  | succ n ih =>
    have hcons : bytesAt flash (start + pos) (n + 1) =
        flash (start + pos) :: bytesAt flash (start + pos + 1) n := by
      rw [Nat.add_comm n 1, bytesAt_add]
      rfl
    rw [text, length_bytesAt, touch]
    by_cases hin : pos + 1 ≤ len
    · have hget : (bytesAt flash start len).getD pos 0 = flash (start + pos) := by
        rw [List.getD_eq_getElem _ _ (by rw [length_bytesAt]; omega)]
        simp [bytesAt]
      rw [if_pos hin, ok_bind, hget, textAt, hcons]
      by_cases hzero : flash (start + pos) = 0
      · rw [if_pos hzero, List.takeWhile_cons_of_neg (by simpa using hzero), List.length_nil,
          if_pos (by omega)]
      · rw [if_neg hzero, List.takeWhile_cons_of_pos (by simpa using hzero), ih, textAt,
          List.length_cons, Nat.add_assoc start]
        split
        · rw [if_pos (by omega)]
          rfl
        · rw [if_neg (by omega)]
          rfl
    · rw [if_neg hin, error_bind, if_neg (by omega)]

lemma text_block (h : args.rel + pos + n ≤ s.dev.erasesize) :
    text (bytesAt flash args.block_offset s.dev.erasesize) (args.rel + pos) n =
      .ok (textAt flash (args.offset + pos) n) := by
  rw [text_bytesAt, ← Nat.add_assoc, args.block_add_rel, if_pos]
  omega

lemma field_block (h : args.rel + pos + n ≤ s.dev.erasesize) :
    field (bytesAt flash args.block_offset s.dev.erasesize) (args.rel + pos) n =
      .ok (bytesAt flash (args.offset + pos) n) := by
  rw [field_bytesAt, ← Nat.add_assoc, args.block_add_rel, if_pos h]

lemma store_block (h : args.rel + pos + chunk.length ≤ s.dev.erasesize) :
    store (bytesAt flash args.block_offset s.dev.erasesize) (args.rel + pos) chunk =
      .ok (bytesAt (overwrite flash (args.offset + pos) chunk) args.block_offset
        s.dev.erasesize) := by
  have hfit : ∀ p ∈ ([(pos, chunk)] : List Patch), args.rel + p.stop ≤ s.dev.erasesize := by
    intro p hp
    rw [List.mem_singleton.mp hp, Patch.stop, ← Nat.add_assoc]
    exact h
  have hblock := patchBuf_slice flash args.block_offset hfit
  rw [args.block_add_rel, ← bytesAt_eq_slice, ← bytesAt_eq_slice] at hblock
  rw [store_eq (by rwa [length_bytesAt])]
  exact congrArg Except.ok hblock

/-! ## What the command does -/

lemma length_padded {n : ℕ} {t : List Byte} (h : t.length ≤ n) : (padded n t).length = n := by
  rw [padded, List.length_append, List.length_replicate]
  omega

lemma length_textAt_le (flash : ℕ → Byte) (pos n : ℕ) : (textAt flash pos n).length ≤ n := by
  rw [textAt]
  exact (List.takeWhile_sublist _).length_le.trans (length_bytesAt _ _ _).le

lemma length_total (flash : ℕ → Byte) (offset : ℕ) :
    (padded 10 (textAt flash (offset + 128) 10)).length = 10 :=
  length_padded (length_textAt_le _ _ _)

lemma bytesAt_overwrite (h : a + n ≤ pos ∨ pos + chunk.length ≤ a) :
    bytesAt (overwrite flash pos chunk) a n = bytesAt flash a n := by
  rw [bytesAt_eq_slice, slice_overwrite_of_apart h, bytesAt_eq_slice]

lemma textAt_overwrite (h : a + n ≤ pos ∨ pos + chunk.length ≤ a) :
    textAt (overwrite flash pos chunk) a n = textAt flash a n := by
  rw [textAt, bytesAt_overwrite h, textAt]

/-- The command without the cases in which it does not write. -/
lemma stores_eq (h : args.rel + 240 ≤ s.dev.erasesize) :
    (do
      let buf ← store (bytesAt flash args.block_offset s.dev.erasesize) (args.rel + 106) [0x30, 0]
      let kernel_length ← text buf (args.rel + 128) 10
      let buf ← store buf (args.rel + 62) (padded 10 kernel_length)
      let kernel_crc ← field buf (args.rel + 224) 4
      let buf ← store buf (args.rel + 216) kernel_crc
      let kernel_crc ← field buf (args.rel + 224) 4
      let buf ← store buf (args.rel + 196) kernel_crc
      let buf ← store buf (args.rel + 220) (put32 s.order CRC_START)
      let covered ← field buf args.rel 236
      let buf ← store buf (args.rel + 236) (put32 s.order (crc32 CRC_START covered))
      .ok (rewrite s fd args.block_offset buf [])) =
    .ok (rewrite s fd args.block_offset
      (bytesAt (patch flash args.offset (patches s flash args.offset)) args.block_offset
        s.dev.erasesize) []) := by
  have htotal := length_total flash args.offset
  have hcrc := length_bytesAt flash (args.offset + 224) 4
  have hstart := length_put32 s.order CRC_START
  -- the flash after each of the first stores
  obtain ⟨f₁, h₁⟩ : ∃ f, overwrite flash (args.offset + 106) [0x30, 0] = f := ⟨_, rfl⟩
  obtain ⟨f₂, h₂⟩ : ∃ f, overwrite f₁ (args.offset + 62)
    (padded 10 (textAt flash (args.offset + 128) 10)) = f := ⟨_, rfl⟩
  obtain ⟨f₃, h₃⟩ : ∃ f, overwrite f₂ (args.offset + 216)
    (bytesAt flash (args.offset + 224) 4) = f := ⟨_, rfl⟩
  have htext : textAt f₁ (args.offset + 128) 10 = textAt flash (args.offset + 128) 10 := by
    rw [← h₁, textAt_overwrite (.inr (by simp))]
  have hcrc₂ : bytesAt f₂ (args.offset + 224) 4 = bytesAt flash (args.offset + 224) 4 := by
    rw [← h₂, bytesAt_overwrite (.inr (by omega)), ← h₁, bytesAt_overwrite (.inr (by simp))]
  have hcrc₃ : bytesAt f₃ (args.offset + 224) 4 = bytesAt flash (args.offset + 224) 4 := by
    rw [← h₃, bytesAt_overwrite (.inr (by omega)), hcrc₂]
  have hpatch : patch flash args.offset (imagePatches s flash args.offset) =
      overwrite (overwrite f₃ (args.offset + 196) (bytesAt flash (args.offset + 224) 4))
        (args.offset + 220) (put32 s.order CRC_START) := by
    rw [← h₃, ← h₂, ← h₁]
    rfl
  have hcovered : field (bytesAt (patch flash args.offset (imagePatches s flash args.offset))
      args.block_offset s.dev.erasesize) args.rel 236 = .ok (bytesAt (patch flash args.offset
        (imagePatches s flash args.offset)) args.offset 236) := by
    rw [field_bytesAt, args.block_add_rel, if_pos (by omega)]
  rw [store_block (by simp; omega), ok_bind, h₁, text_block (by omega), ok_bind, htext,
    store_block (by omega), ok_bind, h₂, field_block (by omega), ok_bind, hcrc₂,
    store_block (by omega), ok_bind, h₃, field_block (by omega), ok_bind, hcrc₃,
    store_block (by omega), ok_bind, store_block (by omega), ok_bind, ← hpatch, hcovered, ok_bind,
    store_block (by rw [length_put32]; omega), ok_bind, patches, patch_append]
  rfl

/-- The command, by what is in flash. -/
lemma mtd_fixtrx_eq (s : Setup) (args : Args) (fd : Fd) : mtd_fixtrx s args fd =
    if args.block_offset + s.dev.erasesize ≤ s.dev.size then
      if min 10 ((textAt fd.flash (args.offset + 84) 10).length + 1) ≤
          s.dev.erasesize - (args.rel + 84) then
        if strntoul s (textAt fd.flash (args.offset + 84) 10) = 0 then
          if args.rel + 240 ≤ s.dev.erasesize then
            if compute_crc32 s fd CRC_START args.rel 236 = headerCrcAt s fd.flash args.offset then
              if strntoul s (textAt fd.flash (args.offset + 106) 10) = 0 then .ok (.ret fd [])
              else .ok (rewrite s fd args.block_offset
                (bytesAt (patch fd.flash args.offset (patches s fd.flash args.offset))
                  args.block_offset s.dev.erasesize) [])
            else .ok (.exit fd)
          else .error .outside
        else .ok (.exit fd)
      else .error .outside
    else .ok (.exit fd) := by
  rw [mtd_fixtrx, readBlock_eq]
  by_cases hblock : args.block_offset + s.dev.erasesize ≤ s.dev.size
  swap
  · rw [if_neg hblock, if_neg hblock]
  rw [if_pos hblock, if_pos hblock]
  show fixTag s args fd (bytesAt fd.flash args.block_offset s.dev.erasesize) = _
  rw [fixTag, text_bytesAt, ← Nat.add_assoc, args.block_add_rel]
  by_cases hcfe : min 10 ((textAt fd.flash (args.offset + 84) 10).length + 1) ≤
      s.dev.erasesize - (args.rel + 84)
  swap
  · rw [if_neg hcfe, if_neg hcfe]
    rfl
  rw [if_pos hcfe, if_pos hcfe, ok_bind]
  by_cases hzero : strntoul s (textAt fd.flash (args.offset + 84) 10) = 0
  swap
  · rw [if_neg hzero]
    exact if_pos hzero
  rw [if_pos hzero]
  refine (if_neg (not_not.mpr hzero)).trans ?_
  by_cases h240 : args.rel + 240 ≤ s.dev.erasesize
  swap
  · rw [field_bytesAt, if_neg (by omega), if_neg h240]
    rfl
  rw [field_block (by omega), ok_bind, if_pos h240]
  by_cases hcrc : compute_crc32 s fd CRC_START args.rel 236 = headerCrcAt s fd.flash args.offset
  swap
  · rw [if_neg hcrc]
    exact if_pos hcrc
  rw [if_pos hcrc]
  refine (if_neg (not_not.mpr hcrc)).trans ?_
  rw [text_block (by omega), ok_bind]
  split
  · rfl
  · exact stores_eq h240

/-! ## The flash afterwards -/

variable {offset : ℕ}

/-- The flash with a new tag. -/
abbrev after (s : Setup) (flash : ℕ → Byte) (offset : ℕ) : ℕ → Byte :=
  patch flash offset (patches s flash offset)

lemma forall_patches {P : ℕ → ℕ → Prop} (h₁ : P 106 108) (h₂ : P 62 72) (h₃ : P 216 220)
    (h₄ : P 196 200) (h₅ : P 220 224) (h₆ : P 236 240) :
    ∀ p ∈ patches s flash offset, P p.1 p.stop := by
  have htotal := length_total flash offset
  simp only [patches, imagePatches, List.cons_append, List.nil_append, List.forall_mem_cons,
    List.not_mem_nil, false_imp_iff, implies_true, and_true, Patch.stop, length_put32,
    length_bytesAt, htotal]
  exact ⟨h₁, h₂, h₃, h₄, h₅, h₆⟩

lemma patches_stop_le (h : args.rel + 240 ≤ s.dev.erasesize) :
    ∀ p ∈ patches s flash offset, args.rel + p.stop ≤ s.dev.erasesize :=
  forall_patches (P := fun _ stop => args.rel + stop ≤ s.dev.erasesize) (by omega) (by omega)
    (by omega) (by omega) (by omega) (by omega)

lemma after_of_not_fields {i : ℕ} (h : ¬ fields offset i) : after s flash offset i = flash i := by
  rw [fields] at h
  exact patch_of_out (forall_patches (P := fun start stop => i < offset + start ∨
    offset + stop ≤ i) (by omega) (by omega) (by omega) (by omega) (by omega) (by omega))

lemma bytesAt_after (h : ∀ i, a ≤ i → i < a + n → ¬ fields offset i) :
    bytesAt (after s flash offset) a n = bytesAt flash a n :=
  bytesAt_congr fun i hle hlt => after_of_not_fields (h i hle hlt)

lemma patches_apart : (patches s flash offset).Pairwise Patch.Apart := by
  have htotal := length_total flash offset
  simp only [patches, imagePatches, List.cons_append, List.nil_append, List.pairwise_cons,
    List.forall_mem_cons, List.not_mem_nil, false_imp_iff, implies_true, List.Pairwise.nil,
    and_true, Patch.Apart, Patch.stop, length_put32, length_bytesAt, htotal, List.length_cons,
    List.length_nil]
  omega

lemma field_after {m : ℕ} (h : (pos, chunk) ∈ patches s flash offset) (hlen : chunk.length = m) :
    bytesAt (after s flash offset) (offset + pos) m = chunk := by
  rw [← hlen, bytesAt_eq_slice]
  exact slice_patch_self patches_apart h

lemma strntoul_zero (s : Setup) : strntoul s [0x30] = 0 := by
  have hpos : ¬ 2 ^ s.bits ≤ 0 := by simp
  have hstr : strtoul s.bits [0x30] = 0 := (if_neg hpos).trans rfl
  rw [strntoul, hstr, Nat.zero_mod]

lemma root_length_after : textAt (after s flash offset) (offset + 106) 10 = [0x30] := by
  have hroot : bytesAt (after s flash offset) (offset + 106) 2 = [0x30, 0] :=
    field_after List.mem_cons_self rfl
  rw [textAt, show 10 = 2 + 8 from rfl, bytesAt_add, hroot]
  rfl

lemma kernel_length_after : textAt (after s flash offset) (offset + 128) 10 =
    textAt flash (offset + 128) 10 := by
  rw [textAt, bytesAt_after, textAt]
  intro i hle hlt hf
  rw [fields] at hf
  omega

lemma kernel_crc_after : bytesAt (after s flash offset) (offset + 224) 4 =
    bytesAt flash (offset + 224) 4 := by
  refine bytesAt_after fun i hle hlt hf => ?_
  rw [fields] at hf
  omega

lemma cfe_length_after : textAt (after s flash offset) (offset + 84) 10 =
    textAt flash (offset + 84) 10 := by
  rw [textAt, bytesAt_after, textAt]
  intro i hle hlt hf
  rw [fields] at hf
  omega

lemma header_crc_after : headerCrcAt s (after s flash offset) offset =
    crc32 CRC_START (bytesAt (after s flash offset) offset 236) := by
  have hself : bytesAt (after s flash offset) (offset + 236) 4 = put32 s.order (crc32 CRC_START
      (bytesAt (patch flash offset (imagePatches s flash offset)) offset 236)) :=
    field_after (List.mem_append_right _ List.mem_cons_self) (length_put32 _ _)
  have hcovered : bytesAt (after s flash offset) offset 236 =
      bytesAt (patch flash offset (imagePatches s flash offset)) offset 236 := by
    rw [after, patches, patch_append]
    exact bytesAt_overwrite (.inl le_rfl)
  have hword := get32_put32_append s.order (crc32 CRC_START
    (bytesAt (patch flash offset (imagePatches s flash offset)) offset 236)) []
  rw [List.append_nil] at hword
  rw [headerCrcAt, hself, hword, hcovered]

lemma fixed_after (s : Setup) (flash : ℕ → Byte) (offset : ℕ) :
    Fixed s (after s flash offset) offset where
  root_length := by rw [root_length_after, strntoul_zero]
  total_length := by
    rw [kernel_length_after]
    exact field_after (List.mem_cons_of_mem _ List.mem_cons_self) (length_total _ _)
  image_crc := by
    rw [kernel_crc_after]
    exact field_after (by simp [patches, imagePatches]) (length_bytesAt _ _ _)
  fskernel_crc := by
    rw [kernel_crc_after]
    exact field_after (by simp [patches, imagePatches]) (length_bytesAt _ _ _)
  rootfs_crc := field_after (by simp [patches, imagePatches]) (length_put32 _ _)
  header_crc := header_crc_after

lemma again {block_offset : ℕ} (hblock : args.block_offset + s.dev.erasesize ≤ s.dev.size)
    (hcfe : min 10 ((textAt fd.flash (args.offset + 84) 10).length + 1) ≤
      s.dev.erasesize - (args.rel + 84))
    (hzero : strntoul s (textAt fd.flash (args.offset + 84) 10) = 0)
    (h240 : args.rel + 240 ≤ s.dev.erasesize) :
    ∃ r, mtd_fixtrx s args
        (patched s fd block_offset args.offset (patches s fd.flash args.offset)) = .ok r ∧
      r.fd = patched s fd block_offset args.offset (patches s fd.flash args.offset) := by
  have hcfe' : textAt (patched s fd block_offset args.offset
      (patches s fd.flash args.offset)).flash (args.offset + 84) 10 =
        textAt fd.flash (args.offset + 84) 10 := cfe_length_after
  have hroot : textAt (patched s fd block_offset args.offset
      (patches s fd.flash args.offset)).flash (args.offset + 106) 10 = [0x30] := root_length_after
  rw [mtd_fixtrx_eq, if_pos hblock, hcfe', if_pos hcfe, if_pos hzero, if_pos h240]
  split
  · rw [hroot, if_pos (strntoul_zero s)]
    exact ⟨_, rfl, rfl⟩
  · exact ⟨_, rfl, rfl⟩

variable (s args fd) in
/-- The command for an image tag. -/
lemma sound_iff : Sound (mtd_fixtrx s args) (fun flash _ => Fixed s flash args.offset)
    (fields args.offset) fd ↔ Fixable s args fd := by
  have hfix := mtd_fixtrx_eq s args fd
  rw [Fixable]
  by_cases hblock : args.block_offset + s.dev.erasesize ≤ s.dev.size
  swap
  · rw [if_neg hblock] at hfix
    exact iff_of_true (sound_of_exit hfix) fun h => absurd h hblock
  rw [imp_iff_right hblock]
  rw [if_pos hblock] at hfix
  by_cases hcfe : min 10 ((textAt fd.flash (args.offset + 84) 10).length + 1) ≤
      s.dev.erasesize - (args.rel + 84)
  swap
  · rw [if_neg hcfe] at hfix
    exact iff_of_false (not_sound_of_outside hfix) fun h => hcfe h.1
  rw [and_iff_right hcfe]
  rw [if_pos hcfe] at hfix
  by_cases hzero : strntoul s (textAt fd.flash (args.offset + 84) 10) = 0
  swap
  · rw [if_neg hzero] at hfix
    exact iff_of_true (sound_of_exit hfix) fun h => absurd h hzero
  rw [imp_iff_right hzero]
  rw [if_pos hzero] at hfix
  by_cases h240 : args.rel + 240 ≤ s.dev.erasesize
  swap
  · rw [if_neg h240] at hfix
    exact iff_of_false (not_sound_of_outside hfix) fun h => h240 h.1
  rw [and_iff_right h240]
  rw [if_pos h240] at hfix
  by_cases hcrc : compute_crc32 s fd CRC_START args.rel 236 = headerCrcAt s fd.flash args.offset
  swap
  · rw [if_neg hcrc] at hfix
    exact iff_of_true (sound_of_exit hfix) fun h => absurd h hcrc
  rw [imp_iff_right hcrc]
  rw [if_pos hcrc] at hfix
  by_cases hroot : strntoul s (textAt fd.flash (args.offset + 106) 10) = 0
  · -- the command takes the tag for a fixed one
    rw [if_pos hroot] at hfix
    rw [sound_iff_of_same hfix, imp_iff_right hroot]
  · refine iff_of_true ?_ fun h => absurd h hroot
    have hnew : bytesAt (after s fd.flash args.offset) args.block_offset s.dev.erasesize =
        patchBuf (bytesAt fd.flash args.block_offset s.dev.erasesize) args.rel
          (patches s fd.flash args.offset) := by
      rw [bytesAt_eq_slice, bytesAt_eq_slice, patchBuf_slice _ _ (patches_stop_le h240),
        args.block_add_rel]
    rw [if_neg hroot, hnew] at hfix
    by_cases hw : Rewritable s args.block_offset
    · rw [rewrite_eq hblock (patches_stop_le h240) hw, args.block_add_rel] at hfix
      exact (sound_iff_of_ret hfix (fixed_after s fd.flash args.offset) fun i hi =>
        after_of_not_fields hi).mpr (again hblock hcfe hzero h240)
    · obtain ⟨e, he⟩ : ∃ e, rewrite s fd args.block_offset
          (patchBuf (bytesAt fd.flash args.block_offset s.dev.erasesize) args.rel
            (patches s fd.flash args.offset)) [] = .exit e := rewrite_of_not _ hw
      rw [he] at hfix
      exact sound_of_exit hfix

end Imagetag

end Mtd.Fix
