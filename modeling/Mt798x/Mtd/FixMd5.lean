import Mt798x.Mtd.Fix

/-!
# Headers with an MD5 digest

`mtd_fixseama`, `mtd_fixwrg` and `mtd_fixwrgg` differ in the layout of the header only.  They read
the data at an offset that is counted from the block of the header, as many bytes as the header
says but at most `data_size`.  If they cannot be read the command gives up and returns 0.
-/

namespace Mtd.Fix

open Bytes Guard FlatImage

/-- The layout of a header: the places of its fields. -/
structure Format where
  MAGIC : UInt32
  magic : ℕ
  magic_order : Endian
  /-- The length of what stands between the header and the data. -/
  metasize : Option ℕ
  size : ℕ
  size_order : Endian
  /-- A part of the header that the digest covers. -/
  hashed : ℕ
  hashed_len : ℕ
  digest : ℕ
  header : ℕ
  magic_le : magic + 4 ≤ size
  metasize_le : ∀ m, metasize = some m → m + 2 ≤ size
  size_le : size + 4 ≤ hashed
  hashed_le : hashed + hashed_len ≤ digest
  digest_le : digest + 16 ≤ header

/-- `struct seama_entity_header` -/
def seama : Format where
  MAGIC := 0x5EA3A417
  magic := 0
  magic_order := .big
  metasize := some 6
  size := 8
  size_order := .big
  hashed := 12
  hashed_len := 0
  digest := 12
  header := 28
  magic_le := by decide
  metasize_le := by decide
  size_le := by decide
  hashed_le := by decide
  digest_le := by decide

/-- `struct wrg_header` -/
def wrg : Format where
  MAGIC := 0x20040220
  magic := 32
  magic_order := .little
  metasize := none
  size := 40
  size_order := .little
  hashed := 44
  hashed_len := 36
  digest := 80
  header := 96
  magic_le := by decide
  metasize_le := by decide
  size_le := by decide
  hashed_le := by decide
  digest_le := by decide

/-- `struct wrgg03_header`, whose size is in the byte order of the processor -/
def wrgg (order : Endian) : Format where
  MAGIC := 0x20080321
  magic := 32
  magic_order := .little
  metasize := none
  size := 104
  size_order := order
  hashed := 108
  hashed_len := 36
  digest := 144
  header := 160
  magic_le := by decide
  metasize_le := by decide
  size_le := by decide
  hashed_le := by decide
  digest_le := by decide

namespace Format

variable (f : Format) (s : Setup)

/-- `seama_fix_md5`, `wrg_fix_md5`, `wrgg_fix_md5`: the block with the new header at `shdr`, or
`none` for a result other than 0, and the data. -/
def fix_md5 (fd : Fd) (first_block : List Byte) (shdr data_offset data_size : ℕ) :
    Except Fault (Option (List Byte) × List Byte) :=
  let buf := pread s.dev fd data_size data_offset
  if buf.length ≠ data_size then .ok (none, buf)
  else do
    let hashed ← field first_block (shdr + f.hashed) f.hashed_len
    let digest := s.md5 (hashed ++ buf)
    let old ← field first_block (shdr + f.digest) 16
    if digest = old then .ok (none, buf)
    else do
      let first_block ← store first_block (shdr + f.size)
        (put32 f.size_order (UInt32.ofNat data_size))
      let first_block ← store first_block (shdr + f.digest) digest
      .ok (some first_block, buf)

/-- `ntohs(shdr->metasize)`, of a header that has the field -/
def readMeta (first_block : List Byte) (shdr : ℕ) : Except Fault ℕ :=
  match f.metasize with
  | none => .ok 0
  | some m => do
    let bs ← field first_block (shdr + m) 2
    .ok (get16 .big bs)

/-- `mtd_fixseama`, `mtd_fixwrg`, `mtd_fixwrgg` -/
def mtd_fix (args : Args) (fd : Fd) : Except Fault Result :=
  match readBlock s fd args.block_offset with
  | none => .ok (.exit fd)
  | some first_block => do
    let magic ← field first_block (args.rel + f.magic) 4
    if get32 f.magic_order magic ≠ f.MAGIC then .ok (.exit fd)
    else do
      let bs ← field first_block (args.rel + f.size) 4
      let size := (get32 f.size_order bs).toNat
      if size = 0 then .ok (.exit fd)
      else do
        let metasize ← f.readMeta first_block args.rel
        let data_offset := (args.rel + f.header + metasize) % 2 ^ s.bits
        let data_size :=
          if args.data_size = 0 then (s.dev.size + 2 ^ s.bits - data_offset) % 2 ^ s.bits
          else args.data_size
        let (new, buf) ← f.fix_md5 s fd first_block args.rel data_offset (min data_size size)
        match new with
        | none => .ok (.ret fd buf)
        | some first_block => .ok (rewrite s fd args.block_offset first_block buf)

/-! ## The header in flash -/

/-- The magic of the header at `offset`. -/
def magicAt (flash : ℕ → Byte) (offset : ℕ) : UInt32 :=
  get32 f.magic_order (bytesAt flash (offset + f.magic) 4)

/-- Its size. -/
def sizeAt (flash : ℕ → Byte) (offset : ℕ) : ℕ :=
  (get32 f.size_order (bytesAt flash (offset + f.size) 4)).toNat

/-- The length of its meta data. -/
def metaAt (flash : ℕ → Byte) (offset : ℕ) : ℕ :=
  match f.metasize with
  | none => 0
  | some m => get16 .big (bytesAt flash (offset + m) 2)

/-- Its digest. -/
def digestAt (flash : ℕ → Byte) (offset : ℕ) : List Byte := bytesAt flash (offset + f.digest) 16

/-- The digest that the header should have for some data. -/
def digestOf (flash : ℕ → Byte) (offset : ℕ) (data : List Byte) : List Byte :=
  s.md5 (bytesAt flash (offset + f.hashed) f.hashed_len ++ data)

/-- The header at `offset` carries the length and the digest of the data. -/
def Carries (offset : ℕ) (flash : ℕ → Byte) (data : List Byte) : Prop :=
  f.sizeAt flash offset = data.length ∧ f.digestAt flash offset = f.digestOf s flash offset data

/-- The fields of the header at `offset` for the length and the digest. -/
def fields (offset i : ℕ) : Prop :=
  offset + f.size ≤ i ∧ i < offset + f.size + 4 ∨
    offset + f.digest ≤ i ∧ i < offset + f.digest + 16

/-! ## The data -/

variable (args : Args)

/-- Where the command looks for the data. -/
def start (flash : ℕ → Byte) : ℕ :=
  (args.rel + f.header + f.metaAt flash args.offset) % 2 ^ s.bits

/-- How many bytes it wants to read. -/
def count (flash : ℕ → Byte) : ℕ :=
  min (if args.data_size = 0 then (s.dev.size + 2 ^ s.bits - f.start s args flash) % 2 ^ s.bits
    else args.data_size) (f.sizeAt flash args.offset)

/-- The data. -/
def data (flash : ℕ → Byte) : List Byte :=
  bytesAt flash (f.start s args flash) (f.count s args flash)

/-- The fields that the command writes. -/
def patches (flash : ℕ → Byte) : List Patch :=
  [(f.size, put32 f.size_order (UInt32.ofNat (f.count s args flash))),
    (f.digest, f.digestOf s flash args.offset (f.data s args flash))]

/-- The fields it reads are in the block of the header; the data can be read; if the digest is right
then the length is; and if the digest is not right, and the block can be written, then the new
header does not change the digest of the data. -/
def Fixable (fd : Fd) : Prop :=
  args.block_offset + s.dev.erasesize ≤ s.dev.size →
    args.rel + f.magic + 4 ≤ s.dev.erasesize ∧ (f.magicAt fd.flash args.offset = f.MAGIC →
      args.rel + f.size + 4 ≤ s.dev.erasesize ∧ (f.sizeAt fd.flash args.offset ≠ 0 →
        f.count s args fd.flash ≤ s.dev.size - f.start s args fd.flash ∧
        args.rel + f.digest + 16 ≤ s.dev.erasesize ∧
        (f.digestOf s fd.flash args.offset (f.data s args fd.flash) =
            f.digestAt fd.flash args.offset →
          f.sizeAt fd.flash args.offset = f.count s args fd.flash) ∧
        (f.digestOf s fd.flash args.offset (f.data s args fd.flash) ≠
            f.digestAt fd.flash args.offset →
          Rewritable s args.block_offset →
          f.digestOf s fd.flash args.offset (bytesAt
              (patch fd.flash args.offset (f.patches s args fd.flash)) (f.start s args fd.flash)
              (f.count s args fd.flash)) =
            f.digestOf s fd.flash args.offset (f.data s args fd.flash))))

variable {f s args} {fd : Fd}

/-! ## What the command does -/

lemma count_le (flash : ℕ → Byte) : f.count s args flash ≤ f.sizeAt flash args.offset :=
  Nat.min_le_right _ _

lemma count_lt (flash : ℕ → Byte) : f.count s args flash < 2 ^ 32 :=
  (count_le flash).trans_lt (UInt32.toNat_lt _)

lemma field_block (pos n : ℕ) :
    field (bytesAt fd.flash args.block_offset s.dev.erasesize) (args.rel + pos) n =
      if args.rel + pos + n ≤ s.dev.erasesize then .ok (bytesAt fd.flash (args.offset + pos) n)
      else .error .outside := by
  rw [field_bytesAt, ← Nat.add_assoc, args.block_add_rel]

lemma readMeta_eq (h : args.rel + f.size + 4 ≤ s.dev.erasesize) :
    f.readMeta (bytesAt fd.flash args.block_offset s.dev.erasesize) args.rel =
      .ok (f.metaAt fd.flash args.offset) := by
  rw [readMeta, metaAt]
  cases hm : f.metasize with
  | none => rfl
  | some m =>
    have hle := f.metasize_le m hm
    simp only [field_block, if_pos (show args.rel + m + 2 ≤ s.dev.erasesize by omega), ok_bind]

lemma fix_md5_of_short (block : List Byte)
    (h : ¬ f.count s args fd.flash ≤ s.dev.size - f.start s args fd.flash) :
    f.fix_md5 s fd block args.rel (f.start s args fd.flash) (f.count s args fd.flash) =
      .ok (none, pread s.dev fd (f.count s args fd.flash) (f.start s args fd.flash)) := by
  have hlen : (pread s.dev fd (f.count s args fd.flash) (f.start s args fd.flash)).length ≠
      f.count s args fd.flash := by
    rw [length_pread]
    omega
  rw [fix_md5]
  exact if_pos hlen

lemma fix_md5_eq (h : f.count s args fd.flash ≤ s.dev.size - f.start s args fd.flash) :
    f.fix_md5 s fd (bytesAt fd.flash args.block_offset s.dev.erasesize) args.rel
        (f.start s args fd.flash) (f.count s args fd.flash) =
      if args.rel + f.digest + 16 ≤ s.dev.erasesize then
        if f.digestOf s fd.flash args.offset (f.data s args fd.flash) =
            f.digestAt fd.flash args.offset then .ok (none, f.data s args fd.flash)
        else .ok (some (patchBuf (bytesAt fd.flash args.block_offset s.dev.erasesize) args.rel
          (f.patches s args fd.flash)), f.data s args fd.flash)
      else .error .outside := by
  have hbuf : pread s.dev fd (f.count s args fd.flash) (f.start s args fd.flash) =
      f.data s args fd.flash := by
    rw [pread, Nat.min_eq_left h]
    rfl
  have hlen : (f.data s args fd.flash).length = f.count s args fd.flash := length_bytesAt _ _ _
  have hhashed := f.hashed_le
  have hsize := f.size_le
  rw [fix_md5]
  simp only [hbuf, hlen, ne_eq, not_true_eq_false, if_false, field_block]
  by_cases hd : args.rel + f.digest + 16 ≤ s.dev.erasesize
  · rw [if_pos (show args.rel + f.hashed + f.hashed_len ≤ s.dev.erasesize by omega), ok_bind,
      if_pos hd, if_pos hd, ok_bind]
    split
    · rename_i heq
      exact (if_pos heq).symm
    · rename_i hne
      refine Eq.trans ?_ (if_neg hne).symm
      rw [store_eq (by rw [length_put32, length_bytesAt]; omega), ok_bind, store_eq, ok_bind]
      · rfl
      · rw [length_splice (by rw [length_put32, length_bytesAt]; omega), length_bytesAt,
          s.length_md5]
        exact hd
  · rw [if_neg hd, if_neg hd]
    split
    · rfl
    · rfl

/-- The command, by what is in flash. -/
lemma mtd_fix_eq (f : Format) (s : Setup) (args : Args) (fd : Fd) : f.mtd_fix s args fd =
    if args.block_offset + s.dev.erasesize ≤ s.dev.size then
      if args.rel + f.magic + 4 ≤ s.dev.erasesize then
        if f.magicAt fd.flash args.offset = f.MAGIC then
          if args.rel + f.size + 4 ≤ s.dev.erasesize then
            if f.sizeAt fd.flash args.offset = 0 then .ok (.exit fd)
            else if f.count s args fd.flash ≤ s.dev.size - f.start s args fd.flash then
              if args.rel + f.digest + 16 ≤ s.dev.erasesize then
                if f.digestOf s fd.flash args.offset (f.data s args fd.flash) =
                    f.digestAt fd.flash args.offset then .ok (.ret fd (f.data s args fd.flash))
                else .ok (rewrite s fd args.block_offset
                  (patchBuf (bytesAt fd.flash args.block_offset s.dev.erasesize) args.rel
                    (f.patches s args fd.flash)) (f.data s args fd.flash))
              else .error .outside
            else .ok (.ret fd
              (pread s.dev fd (f.count s args fd.flash) (f.start s args fd.flash)))
          else .error .outside
        else .ok (.exit fd)
      else .error .outside
    else .ok (.exit fd) := by
  rw [mtd_fix, readBlock_eq]
  by_cases hblock : args.block_offset + s.dev.erasesize ≤ s.dev.size
  · rw [if_pos hblock, if_pos hblock]
    simp only [field_block]
    by_cases hm : args.rel + f.magic + 4 ≤ s.dev.erasesize
    · rw [if_pos hm, if_pos hm, ok_bind]
      by_cases hmagic : f.magicAt fd.flash args.offset = f.MAGIC
      · rw [if_pos hmagic]
        refine (if_neg (not_not.mpr hmagic)).trans ?_
        by_cases hs : args.rel + f.size + 4 ≤ s.dev.erasesize
        · rw [if_pos hs, if_pos hs, ok_bind]
          by_cases hzero : f.sizeAt fd.flash args.offset = 0
          · rw [if_pos hzero]
            exact if_pos hzero
          · rw [if_neg hzero, readMeta_eq hs, ok_bind]
            refine (if_neg hzero).trans ?_
            show (f.fix_md5 s fd _ args.rel (f.start s args fd.flash) (f.count s args fd.flash) >>=
              fun r => _) = _
            by_cases hread : f.count s args fd.flash ≤ s.dev.size - f.start s args fd.flash
            · rw [fix_md5_eq hread, if_pos hread]
              split
              · split
                · rfl
                · rfl
              · rfl
            · rw [fix_md5_of_short _ hread, if_neg hread]
              rfl
        · rw [if_neg hs, if_neg hs]
          rfl
      · rw [if_neg hmagic]
        exact if_pos hmagic
    · rw [if_neg hm, if_neg hm]
      rfl
  · rw [if_neg hblock, if_neg hblock]

/-! ## The flash afterwards -/

lemma length_digestOf (flash : ℕ → Byte) (offset : ℕ) (data : List Byte) :
    (f.digestOf s flash offset data).length = 16 := s.length_md5 _

/-- The flash with a new header. -/
abbrev after (f : Format) (s : Setup) (args : Args) (flash : ℕ → Byte) : ℕ → Byte :=
  patch flash args.offset (f.patches s args flash)

variable {flash : ℕ → Byte}

lemma patches_stop_le (h : args.rel + f.digest + 16 ≤ s.dev.erasesize) :
    ∀ p ∈ f.patches s args flash, args.rel + p.stop ≤ s.dev.erasesize := by
  have hsize := f.size_le
  have hhashed := f.hashed_le
  simp only [patches, List.forall_mem_cons, List.not_mem_nil, false_imp_iff, implies_true, and_true,
    Patch.stop, length_put32, length_digestOf]
  omega

lemma bytesAt_after {a n : ℕ} (h : a + n ≤ args.offset + f.size ∨
    args.offset + f.size + 4 ≤ a ∧ a + n ≤ args.offset + f.digest) :
    bytesAt (f.after s args flash) a n = bytesAt flash a n := by
  have hsize := f.size_le
  have hhashed := f.hashed_le
  rw [bytesAt_eq_slice, bytesAt_eq_slice]
  refine slice_patch_of_apart ?_
  simp only [patches, List.forall_mem_cons, List.not_mem_nil, false_imp_iff, implies_true, and_true,
    Patch.stop, length_put32, length_digestOf]
  omega

lemma after_of_not_fields {i : ℕ} (h : ¬ f.fields args.offset i) :
    f.after s args flash i = flash i := by
  rw [fields] at h
  refine patch_of_out ?_
  simp only [patches, List.forall_mem_cons, List.not_mem_nil, false_imp_iff, implies_true, and_true,
    Patch.stop, length_put32, length_digestOf]
  omega

lemma patches_apart : (f.patches s args flash).Pairwise Patch.Apart := by
  have hsize := f.size_le
  have hhashed := f.hashed_le
  simp only [patches, List.pairwise_cons, List.mem_singleton, forall_eq, List.not_mem_nil,
    false_imp_iff, implies_true, List.Pairwise.nil, and_true, Patch.Apart, Patch.stop, length_put32]
  omega

lemma magicAt_after : f.magicAt (f.after s args flash) args.offset =
    f.magicAt flash args.offset := by
  have hmagic := f.magic_le
  rw [magicAt, bytesAt_after (.inl (by omega)), magicAt]

lemma metaAt_after : f.metaAt (f.after s args flash) args.offset = f.metaAt flash args.offset := by
  rw [metaAt, metaAt]
  cases hm : f.metasize with
  | none => rfl
  | some m =>
    have hle := f.metasize_le m hm
    simp only [bytesAt_after (.inl (show args.offset + m + 2 ≤ args.offset + f.size by omega))]

lemma sizeAt_after : f.sizeAt (f.after s args flash) args.offset = f.count s args flash := by
  have hself : slice (f.after s args flash) (args.offset + f.size)
      (put32 f.size_order (UInt32.ofNat (f.count s args flash))).length = _ :=
    slice_patch_self patches_apart List.mem_cons_self
  rw [length_put32, ← bytesAt_eq_slice] at hself
  have hword := get32_put32_append f.size_order (UInt32.ofNat (f.count s args flash)) []
  rw [List.append_nil] at hword
  rw [sizeAt, hself, hword, UInt32.toNat_ofNat', Nat.mod_eq_of_lt (count_lt flash)]

lemma digestAt_after : f.digestAt (f.after s args flash) args.offset =
    f.digestOf s flash args.offset (f.data s args flash) := by
  have hself : slice (f.after s args flash) (args.offset + f.digest)
      (f.digestOf s flash args.offset (f.data s args flash)).length = _ :=
    slice_patch_self patches_apart (List.mem_cons_of_mem _ List.mem_cons_self)
  rwa [length_digestOf, ← bytesAt_eq_slice] at hself

lemma digestOf_after (data : List Byte) : f.digestOf s (f.after s args flash) args.offset data =
    f.digestOf s flash args.offset data := by
  have hsize := f.size_le
  have hhashed := f.hashed_le
  rw [digestOf, bytesAt_after (.inr ⟨by omega, by omega⟩), digestOf]

lemma start_after : f.start s args (f.after s args flash) = f.start s args flash := by
  rw [start, metaAt_after, start]

lemma count_after : f.count s args (f.after s args flash) = f.count s args flash := by
  rw [count, start_after, sizeAt_after]
  exact Nat.min_eq_right (Nat.min_le_left _ _)

lemma data_after : f.data s args (f.after s args flash) =
    bytesAt (f.after s args flash) (f.start s args flash) (f.count s args flash) := by
  rw [data, start_after, count_after]

/-- What the next run does with a header that has been written. -/
lemma again_iff (hblock : args.block_offset + s.dev.erasesize ≤ s.dev.size)
    (hmagic : f.magicAt fd.flash args.offset = f.MAGIC)
    (hread : f.count s args fd.flash ≤ s.dev.size - f.start s args fd.flash)
    (hd : args.rel + f.digest + 16 ≤ s.dev.erasesize) (hw : Rewritable s args.block_offset) :
    (∃ r, f.mtd_fix s args
        (patched s fd args.block_offset args.offset (f.patches s args fd.flash)) = .ok r ∧
          r.fd = patched s fd args.block_offset args.offset (f.patches s args fd.flash)) ↔
      f.digestOf s fd.flash args.offset (bytesAt (f.after s args fd.flash) (f.start s args fd.flash)
          (f.count s args fd.flash)) =
        f.digestOf s fd.flash args.offset (f.data s args fd.flash) := by
  have hm := f.magic_le
  have hsize := f.size_le
  have hhashed := f.hashed_le
  rw [mtd_fix_eq, if_pos hblock, if_pos (by omega)]
  show (∃ r, (if f.magicAt (f.after s args fd.flash) args.offset = f.MAGIC then _ else _) = _ ∧
    _) ↔ _
  rw [magicAt_after, if_pos hmagic, if_pos (by omega)]
  show (∃ r, (if f.sizeAt (f.after s args fd.flash) args.offset = 0 then _
    else if f.count s args (f.after s args fd.flash) ≤
      s.dev.size - f.start s args (f.after s args fd.flash) then _ else _) = _ ∧ _) ↔ _
  rw [sizeAt_after, count_after, start_after, if_pos hread, if_pos hd]
  by_cases hzero : f.count s args fd.flash = 0
  · -- there is nothing to read, and the header says so
    rw [if_pos hzero, data, hzero]
    exact iff_of_true ⟨_, rfl, rfl⟩ rfl
  · rw [if_neg hzero]
    show (∃ r, (if f.digestOf s (f.after s args fd.flash) args.offset
        (f.data s args (f.after s args fd.flash)) =
      f.digestAt (f.after s args fd.flash) args.offset then _ else _) = _ ∧ _) ↔ _
    rw [digestOf_after, digestAt_after, data_after]
    split
    · rename_i heq
      exact iff_of_true ⟨_, rfl, rfl⟩ heq
    · rename_i hne
      refine iff_of_false ?_ hne
      rintro ⟨r, hr, hfd⟩
      cases hr
      rw [rewrite_eq hblock (patches_stop_le hd) hw] at hfd
      exact patched_ne _ _ _ _ _ hfd

variable (f s args fd) in
/-- The commands for headers with a digest. -/
lemma sound_iff : Sound (f.mtd_fix s args) (f.Carries s args.offset) (f.fields args.offset) fd ↔
    f.Fixable s args fd := by
  have hm := f.magic_le
  have hsize := f.size_le
  have hhashed := f.hashed_le
  have hfix := mtd_fix_eq f s args fd
  rw [Fixable]
  by_cases hblock : args.block_offset + s.dev.erasesize ≤ s.dev.size
  swap
  · rw [if_neg hblock] at hfix
    exact iff_of_true (sound_of_exit hfix) fun h => absurd h hblock
  rw [imp_iff_right hblock]
  rw [if_pos hblock] at hfix
  by_cases hin : args.rel + f.magic + 4 ≤ s.dev.erasesize
  swap
  · rw [if_neg hin] at hfix
    exact iff_of_false (not_sound_of_outside hfix) fun h => hin h.1
  rw [and_iff_right hin]
  rw [if_pos hin] at hfix
  by_cases hmagic : f.magicAt fd.flash args.offset = f.MAGIC
  swap
  · rw [if_neg hmagic] at hfix
    exact iff_of_true (sound_of_exit hfix) fun h => absurd h hmagic
  rw [imp_iff_right hmagic]
  rw [if_pos hmagic] at hfix
  by_cases hs : args.rel + f.size + 4 ≤ s.dev.erasesize
  swap
  · rw [if_neg hs] at hfix
    exact iff_of_false (not_sound_of_outside hfix) fun h => hs h.1
  rw [and_iff_right hs]
  rw [if_pos hs] at hfix
  by_cases hzero : f.sizeAt fd.flash args.offset = 0
  · rw [if_pos hzero] at hfix
    exact iff_of_true (sound_of_exit hfix) fun h => absurd hzero h
  rw [imp_iff_right hzero]
  rw [if_neg hzero] at hfix
  by_cases hread : f.count s args fd.flash ≤ s.dev.size - f.start s args fd.flash
  swap
  · -- the header keeps its size, which is more than has been read
    rw [if_neg hread] at hfix
    refine iff_of_false (fun h => ?_) fun h => hread h.1
    have hlen := ((sound_iff_of_same hfix).mp h).1
    have hle : f.count s args fd.flash ≤ f.sizeAt fd.flash args.offset := count_le _
    rw [length_pread] at hlen
    omega
  rw [and_iff_right hread]
  rw [if_pos hread] at hfix
  by_cases hd : args.rel + f.digest + 16 ≤ s.dev.erasesize
  swap
  · rw [if_neg hd] at hfix
    exact iff_of_false (not_sound_of_outside hfix) fun h => hd h.1
  rw [and_iff_right hd]
  rw [if_pos hd] at hfix
  have hlen : (f.data s args fd.flash).length = f.count s args fd.flash := length_bytesAt _ _ _
  by_cases hdigest : f.digestOf s fd.flash args.offset (f.data s args fd.flash) =
      f.digestAt fd.flash args.offset
  · -- the header is fixed already
    rw [if_pos hdigest] at hfix
    rw [sound_iff_of_same hfix, Carries, hlen]
    exact ⟨fun h => ⟨fun _ => h.1, fun hne => absurd hdigest hne⟩,
      fun h => ⟨h.1 hdigest, hdigest.symm⟩⟩
  · rw [if_neg hdigest] at hfix
    by_cases hw : Rewritable s args.block_offset
    · rw [rewrite_eq hblock (patches_stop_le hd) hw, args.block_add_rel] at hfix
      rw [sound_iff_of_ret hfix, again_iff hblock hmagic hread hd hw]
      · exact ⟨fun h => ⟨fun heq => absurd heq hdigest, fun _ _ => h⟩, fun h => h.2 hdigest hw⟩
      · exact ⟨sizeAt_after.trans hlen.symm, digestAt_after.trans (digestOf_after _).symm⟩
      · exact fun i hi => after_of_not_fields hi
    · obtain ⟨e, he⟩ : ∃ e, rewrite s fd args.block_offset
          (patchBuf (bytesAt fd.flash args.block_offset s.dev.erasesize) args.rel
            (f.patches s args fd.flash)) (f.data s args fd.flash) = .exit e := rewrite_of_not _ hw
      rw [he] at hfix
      exact iff_of_true (sound_of_exit hfix) ⟨fun heq => absurd heq hdigest, fun _ h => absurd h hw⟩

end Format

end Mtd.Fix
