import Mt798x.Bcm4908.Parse

/-!
# Create, parse and extract

When the parser accepts what `create` has written, and whether the parts of an accepted file make
it up.  The checksum that `create` puts into the tail covers the files but not the fill bytes of
`-a` and `-A`, while the parser computes it over everything; and the block that the parser takes
for the start of the padding is looked at for 256 bytes only.
-/

namespace Bcm4908

open Bytes

/-! ## Accepted files -/

/-- The file is an image with these parts. -/
structure Accepted (fp : List Byte) (info : Info) : Prop where
  size : 1024 ≤ fp.length
  cferom : info.cferom_offset = cferomOf fp
  tail_offset : info.tail_offset = tailOf fp
  bootfs : ∃ k, FirstAt (IsJffs2 fp) info.cferom_offset k info.bootfs_offset ∧
    info.bootfs_offset < info.tail_offset
  rootfs : ∃ k, FirstAt (IsUbi fp) info.bootfs_offset k info.rootfs_offset ∧
    info.rootfs_offset < info.tail_offset ∧
    info.padding_offset = paddingOf fp info.bootfs_offset k 0 ∧
    (info.padding_offset ≠ 0 ∨ info.rootfs_offset + 256 ≤ fp.length)
  crc32 : info.crc32 = bcm4908img_crc32 0xffffffff
    (fread fp info.cferom_offset (info.tail_offset - info.cferom_offset))
  tail : info.tail = Tail.read (fread fp info.tail_offset tailSize)
  valid : info.crc32 = info.tail.crc32

variable {fp : List Byte} {info : Info}

lemma tailOf_le (h : 1024 ≤ fp.length) : tailOf fp + tailSize ≤ fp.length := by
  have h20 : tailSize = 20 := rfl
  rw [tailOf]
  split <;> omega

/-- The parser accepts the images, and reports their parts. -/
lemma parse_ok_iff : bcm4908img_parse fp = .ok info ↔ Accepted fp info := by
  by_cases hsize : 1024 ≤ fp.length
  · have hT := tailOf_le hsize
    have h20 : tailSize = 20 := rfl
    -- how the tail is found does not matter here
    obtain ⟨T, hTof⟩ : ∃ T, tailOf fp = T := ⟨_, rfl⟩
    rw [hTof] at hT
    have hread : (fread fp 0 1024).length = 1024 := length_fread (by omega)
    have hboot : ∀ x, (bootfsLoop fp (T) (T + 1) (cferomOf fp) = .ok x ∧
        x < T) ↔ ∃ k, FirstAt (IsJffs2 fp) (cferomOf fp) k x ∧ x < T :=
      fun x => bootfsLoop_iff (by omega) (by omega)
    have hroot : ∀ b x q, (rootfsLoop fp (T) (T + 1) b 0 = .ok (x, q) ∧
        x < T) ↔ ∃ k, FirstAt (IsUbi fp) b k x ∧ x < T ∧
          q = paddingOf fp b k 0 ∧ (q ≠ 0 ∨ x + 256 ≤ fp.length) :=
      fun b x q => rootfsLoop_iff (by omega) (by omega)
    have hbytes : cferomOf fp < T →
        (readChunks fp (T - cferomOf fp) (cferomOf fp)
          (T - cferomOf fp)).1.foldl bcm4908img_crc32 0xffffffff =
          bcm4908img_crc32 0xffffffff (fread fp (cferomOf fp) (T - cferomOf fp)) ∧
        (readChunks fp (T - cferomOf fp) (cferomOf fp)
          (T - cferomOf fp)).2 = 0 := by
      intro hlt
      obtain ⟨hflat, hleft⟩ := readChunks_spec fp (T - cferomOf fp) (cferomOf fp)
        (T - cferomOf fp) le_rfl (by omega)
      exact ⟨by rw [foldl_crc32, hflat], hleft⟩
    have hend : cferomOf fp < T →
        cferomOf fp + (T - cferomOf fp) = T := by omega
    have htail : (fread fp (T) tailSize).length = tailSize := length_fread hT
    rw [bcm4908img_parse, if_neg (not_not.mpr hread), hTof]
    constructor
    · intro h
      simp only at h
      cases hb : bootfsLoop fp (T) (T + 1) (cferomOf fp) with
      | error e => simp [hb] at h
      | ok b =>
        simp only [hb] at h
        by_cases hbT : b ≥ T
        · simp [hbT] at h
        · rw [if_neg hbT] at h
          obtain ⟨k, hk, hlt⟩ := (hboot b).mp ⟨hb, by omega⟩
          have hle : cferomOf fp < T := by
            have := hk.1
            omega
          obtain ⟨hcrc, hleft⟩ := hbytes hle
          cases hr : rootfsLoop fp (T) (T + 1) b 0 with
          | error e => simp [hr] at h
          | ok rq =>
            obtain ⟨r, q⟩ := rq
            simp only [hr, hleft, hend hle, htail, hcrc] at h
            by_cases hrT : r ≥ T
            · simp [hrT] at h
            · simp only [hrT, ne_eq, not_true_eq_false, if_false] at h
              split_ifs at h with hvalid
              cases h
              obtain ⟨k', hk', hlt', hq, hreadable⟩ := (hroot b r q).mp ⟨hr, by omega⟩
              exact ⟨hsize, rfl, hTof.symm, ⟨k, hk, hlt⟩, ⟨k', hk', hlt', hq, hreadable⟩, rfl, rfl,
                hvalid⟩
    · rintro ⟨-, hcferom, htailOf, ⟨k, hk, hlt⟩, ⟨k', hk', hlt', hq, hreadable⟩, hcrc, htl, hvalid⟩
      obtain ⟨cf, bo, pa, ro, ta, crc, tl⟩ := info
      simp only at hcferom htailOf hk hlt hk' hlt' hq hreadable hcrc htl hvalid
      have hta : T = ta := hTof ▸ htailOf.symm
      subst hcferom hta
      have hle : cferomOf fp < T := by
        have := hk.1
        omega
      obtain ⟨hcrc', hleft⟩ := hbytes hle
      have hb := ((hboot bo).mpr ⟨k, hk, hlt⟩).1
      have hr := ((hroot bo ro pa).mpr ⟨k', hk', hlt', hq, hreadable⟩).1
      have hboT : ¬ bo ≥ T := by omega
      have hroT : ¬ ro ≥ T := by omega
      simp only [hb, hr, hleft, hend hle, htail, hcrc', ← hcrc, ← htl, ← hvalid, hboT, hroT, ne_eq,
        not_true_eq_false, if_false]
  · have hread : (fread fp 0 1024).length ≠ 1024 := by
      rw [fread, List.length_take, List.length_drop]
      omega
    rw [bcm4908img_parse, if_pos hread]
    exact ⟨fun h => absurd h (by simp), fun h => absurd h.size hsize⟩

/-- A file with both magics is accepted exactly if they stand in front of the tail and the checksum
is right. -/
lemma exists_parse_iff (hsize : 1024 ≤ fp.length) {kb b kr r : ℕ}
    (hb : FirstAt (IsJffs2 fp) (cferomOf fp) kb b) (hr : FirstAt (IsUbi fp) b kr r) :
    (∃ info, bcm4908img_parse fp = .ok info) ↔
      r < tailOf fp ∧ (paddingOf fp b kr 0 ≠ 0 ∨ r + 256 ≤ fp.length) ∧
        bcm4908img_crc32 0xffffffff (fread fp (cferomOf fp) (tailOf fp - cferomOf fp)) =
          (Tail.read (fread fp (tailOf fp) tailSize)).crc32 := by
  constructor
  · rintro ⟨info, h⟩
    obtain ⟨-, hcf, hT, ⟨kb', hb', -⟩, ⟨kr', hr', hrT, hpad, hreadable⟩, hcrc, htl, hvalid⟩ :=
      parse_ok_iff.mp h
    rw [hcf] at hb'
    have hbeq := (hb.unique hb').2
    rw [← hbeq] at hr' hpad
    obtain ⟨hkr, hreq⟩ := hr.unique hr'
    rw [hpad, ← hkr, ← hreq] at hreadable
    rw [← hreq, hT] at hrT
    rw [hcrc, htl, hcf, hT] at hvalid
    exact ⟨hrT, hreadable, hvalid⟩
  · rintro ⟨hrT, hreadable, hvalid⟩
    have hbT : b < tailOf fp := by
      have := hr.1
      omega
    obtain ⟨T, hT⟩ : ∃ T, tailOf fp = T := ⟨_, rfl⟩
    rw [hT] at hrT hbT hvalid
    exact ⟨⟨_, b, _, r, T, _, _⟩, parse_ok_iff.mpr
      ⟨hsize, rfl, hT.symm, ⟨kb, hb, hbT⟩, ⟨kr, hr, hrT, rfl, hreadable⟩, rfl, rfl, hvalid⟩⟩

lemma fread_append (fp : List Byte) (a n m : ℕ) :
    fread fp a n ++ fread fp (a + n) m = fread fp a (n + m) := by
  rw [fread, fread, fread, List.take_add, List.drop_drop]

/-- The start of the padding is the start of a block in front of rootfs. -/
lemma paddingOf_cases (off k : ℕ) : paddingOf fp off k 0 = 0 ∨
    ∃ i < k, paddingOf fp off k 0 = off + i * block ∧ IsPadding fp (off + i * block) := by
  induction k generalizing off with
  | zero => exact Or.inl rfl
  | succ k ih =>
    have hrest : paddingOf fp (off + block) k 0 = 0 ∨ ∃ i < k + 1,
        paddingOf fp (off + block) k 0 = off + i * block ∧ IsPadding fp (off + i * block) := by
      rcases ih (off + block) with h | ⟨i, hi, heq, hpad⟩
      · exact Or.inl h
      · have hoff : off + block + i * block = off + (i + 1) * block := by
          rw [Nat.succ_mul]
          omega
        rw [hoff] at heq hpad
        exact Or.inr ⟨i + 1, by omega, heq, hpad⟩
    rw [paddingOf]
    by_cases hpad : IsPadding fp off
    · rw [if_pos ⟨rfl, hpad⟩]
      by_cases hzero : off = 0
      · rw [hzero] at hrest ⊢
        exact hrest
      · rw [paddingOf_of_ne hzero]
        exact Or.inr ⟨0, Nat.succ_pos k, by rw [Nat.zero_mul, Nat.add_zero],
          by rwa [Nat.zero_mul, Nat.add_zero]⟩
    · rw [if_neg (fun h => hpad h.2)]
      exact hrest

/-- The order of the parts of an image. -/
structure Ordered (fp : List Byte) (info : Info) : Prop where
  cferom : info.cferom_offset ≤ info.bootfs_offset
  bootfs : info.bootfs_offset < info.rootfs_offset
  rootfs : info.rootfs_offset < info.tail_offset
  tail : info.tail_offset ≤ fp.length - tailSize
  padding : info.padding_offset = 0 ∨
    (info.bootfs_offset < info.padding_offset ∧ info.padding_offset < info.rootfs_offset)

lemma Accepted.ordered (h : Accepted fp info) : Ordered fp info := by
  obtain ⟨kb, ⟨hb, hjffs, -⟩, -⟩ := h.bootfs
  obtain ⟨kr, ⟨hr, hubi, -⟩, hrT, hpad, -⟩ := h.rootfs
  have hblock : 0 < block := by decide
  have hT := tailOf_le h.size
  have hpos : 0 < kr := by
    by_contra hzero
    obtain rfl : kr = 0 := by omega
    rw [Nat.zero_mul, Nat.add_zero] at hr
    rw [hr] at hubi
    have htake : (fread fp info.bootfs_offset 4).take 2 = fread fp info.bootfs_offset 2 :=
      fread_take (by decide)
    rw [hubi, hjffs] at htake
    exact absurd htake (by decide)
  refine ⟨by omega, ?_, hrT, ?_, ?_⟩
  · have := Nat.mul_pos hpos hblock
    omega
  · rw [h.tail_offset]
    omega
  · rw [hpad]
    have hcases := @paddingOf_cases fp info.bootfs_offset kr
    rcases hcases with hzero | ⟨i, hi, heq, hff⟩
    · exact Or.inl hzero
    · refine Or.inr ?_
      have hipos : 0 < i := by
        by_contra hzero
        obtain rfl : i = 0 := by omega
        rw [Nat.zero_mul, Nat.add_zero] at hff
        have htake : (fread fp info.bootfs_offset 256).take 2 = fread fp info.bootfs_offset 2 :=
          fread_take (by decide)
        rw [hff, hjffs] at htake
        exact absurd htake (by decide)
      have h1 := Nat.mul_pos hipos hblock
      have h2 := Nat.mul_lt_mul_of_pos_right hi hblock
      rw [heq]
      omega

/-! ## Extracting the parts -/

/-- What `extract` writes. -/
def output (r : Except Errno (List Byte)) : List Byte :=
  match r with
  | .ok bytes => bytes
  | .error _ => []

@[simp] lemma output_ok (bytes : List Byte) : output (.ok bytes) = bytes := rfl

/-- Where bootfs ends. -/
def Info.bootfsEnd (info : Info) : ℕ :=
  if info.padding_offset ≠ 0 then info.padding_offset else info.rootfs_offset

/-- The parts that `extract` writes, with padding between bootfs and rootfs, are the data of the
image. -/
def PartsMakeUp (fp : List Byte) (info : Info) : Prop :=
  output (bcm4908img_extract fp (some "cferom")) ++ output (bcm4908img_extract fp (some "bootfs"))
      ++ List.replicate (info.rootfs_offset - info.bootfsEnd) 0xff
      ++ output (bcm4908img_extract fp (some "rootfs")) =
    fread fp info.cferom_offset (info.tail_offset - info.cferom_offset)

/-- What lies between the end of bootfs and rootfs is padding. -/
def Padded (fp : List Byte) (info : Info) : Prop :=
  ∀ i, info.bootfsEnd ≤ i → i < info.rootfs_offset → fp.getD i 0 = 0xff

/-- The parts come out as adjacent ranges; there is nothing to extract where cferom is missing. -/
structure Extracted (fp : List Byte) (info : Info) : Prop where
  cferom : bcm4908img_extract fp (some "cferom") =
    if info.bootfs_offset = info.cferom_offset then .error .enoent
    else .ok (fread fp info.cferom_offset (info.bootfs_offset - info.cferom_offset))
  bootfs : bcm4908img_extract fp (some "bootfs") =
    .ok (fread fp info.bootfs_offset (info.bootfsEnd - info.bootfs_offset))
  rootfs : bcm4908img_extract fp (some "rootfs") =
    .ok (fread fp info.rootfs_offset (info.tail_offset - info.rootfs_offset))

lemma Ordered.bootfsEnd (h : Ordered fp info) :
    info.bootfs_offset < info.bootfsEnd ∧ info.bootfsEnd ≤ info.rootfs_offset := by
  have hbo := h.bootfs
  have hpad := h.padding
  rw [Info.bootfsEnd]
  split <;> omega

lemma extracted (h : bcm4908img_parse fp = .ok info) : Extracted fp info := by
  have haccepted := parse_ok_iff.mp h
  have hend := haccepted.ordered.bootfsEnd
  obtain ⟨hcf, hbo, hro, hta, hpad⟩ := haccepted.ordered
  have hsize := haccepted.size
  have hcopy : ∀ a n, a + n ≤ fp.length →
      (readChunks fp n a n).1.flatten = fread fp a n ∧ (readChunks fp n a n).2 = 0 :=
    fun a n hle => readChunks_spec fp n a n le_rfl hle
  refine ⟨?_, ?_, ?_⟩
  · obtain ⟨hflat, hleft⟩ := hcopy info.cferom_offset (info.bootfs_offset - info.cferom_offset)
      (by omega)
    simp only [bcm4908img_extract, h, if_true]
    by_cases hsame : info.bootfs_offset = info.cferom_offset
    · rw [if_pos (by omega), if_pos hsame]
    · rw [if_neg (by omega), if_neg (by omega), if_neg hsame, hleft, hflat]
      rfl
  · obtain ⟨hflat, hleft⟩ := hcopy info.bootfs_offset (info.bootfsEnd - info.bootfs_offset)
      (by omega)
    have hne : ("bootfs" = "cferom") = False := by decide
    have hfold : (if info.padding_offset ≠ 0 then info.padding_offset else info.rootfs_offset) =
        info.bootfsEnd := rfl
    simp only [bcm4908img_extract, h, hne, if_true, if_false, hfold]
    rw [if_neg (by omega), hleft, hflat]
    rfl
  · obtain ⟨hflat, hleft⟩ := hcopy info.rootfs_offset (info.tail_offset - info.rootfs_offset)
      (by omega)
    have hne : ("rootfs" = "cferom") = False := by decide
    have hne' : ("rootfs" = "bootfs") = False := by decide
    simp only [bcm4908img_extract, h, hne, hne', if_true, if_false]
    rw [if_neg (by omega), hleft, hflat]
    rfl

lemma Extracted.output_cferom (h : Extracted fp info) :
    output (bcm4908img_extract fp (some "cferom")) =
      fread fp info.cferom_offset (info.bootfs_offset - info.cferom_offset) := by
  rw [h.cferom]
  by_cases hsame : info.bootfs_offset = info.cferom_offset
  · rw [if_pos hsame, hsame, Nat.sub_self]
    simp [output, fread]
  · rw [if_neg hsame]
    rfl

/-- The parts of an accepted file make it up exactly if what lies between bootfs and rootfs is
padding throughout. -/
lemma partsMakeUp_iff (h : bcm4908img_parse fp = .ok info) :
    PartsMakeUp fp info ↔ Padded fp info := by
  have haccepted := parse_ok_iff.mp h
  obtain ⟨hcf, hbo, hro, hta, hpad⟩ := haccepted.ordered
  have hsize := haccepted.size
  have hext := extracted h
  have h1 := hext.output_cferom
  have hend := haccepted.ordered.bootfsEnd
  have hgap : (fread fp info.bootfsEnd (info.rootfs_offset - info.bootfsEnd)).length =
      info.rootfs_offset - info.bootfsEnd := length_fread (by omega)
  have hwhole : fread fp info.cferom_offset (info.tail_offset - info.cferom_offset) =
      fread fp info.cferom_offset (info.bootfs_offset - info.cferom_offset) ++
        fread fp info.bootfs_offset (info.bootfsEnd - info.bootfs_offset) ++
        fread fp info.bootfsEnd (info.rootfs_offset - info.bootfsEnd) ++
        fread fp info.rootfs_offset (info.tail_offset - info.rootfs_offset) := by
    have e1 : info.cferom_offset + (info.bootfs_offset - info.cferom_offset) =
        info.bootfs_offset := by omega
    have e2 : info.cferom_offset + (info.bootfsEnd - info.cferom_offset) = info.bootfsEnd := by
      omega
    have e3 : info.cferom_offset + (info.rootfs_offset - info.cferom_offset) =
        info.rootfs_offset := by omega
    have s1 := fread_append fp info.cferom_offset (info.bootfs_offset - info.cferom_offset)
      (info.bootfsEnd - info.bootfs_offset)
    have s2 := fread_append fp info.cferom_offset (info.bootfsEnd - info.cferom_offset)
      (info.rootfs_offset - info.bootfsEnd)
    have s3 := fread_append fp info.cferom_offset (info.rootfs_offset - info.cferom_offset)
      (info.tail_offset - info.rootfs_offset)
    rw [e1, show info.bootfs_offset - info.cferom_offset +
      (info.bootfsEnd - info.bootfs_offset) = info.bootfsEnd - info.cferom_offset by omega] at s1
    rw [e2, show info.bootfsEnd - info.cferom_offset + (info.rootfs_offset - info.bootfsEnd) =
      info.rootfs_offset - info.cferom_offset by omega] at s2
    rw [e3, show info.rootfs_offset - info.cferom_offset +
      (info.tail_offset - info.rootfs_offset) = info.tail_offset - info.cferom_offset by omega] at s3
    rw [s1, s2, s3]
  have hiff : PartsMakeUp fp info ↔
      fread fp info.bootfsEnd (info.rootfs_offset - info.bootfsEnd) =
        List.replicate (info.rootfs_offset - info.bootfsEnd) 0xff := by
    rw [PartsMakeUp, h1, hext.bootfs, hext.rootfs, output_ok, output_ok, hwhole,
      List.append_left_inj, List.append_right_inj]
    exact eq_comm
  rw [hiff, List.eq_replicate_iff, and_iff_right hgap, Padded]
  have hget : ∀ i, info.bootfsEnd ≤ i → i < info.rootfs_offset →
      (fread fp info.bootfsEnd (info.rootfs_offset - info.bootfsEnd))[i - info.bootfsEnd]? =
        some (fp.getD i 0) := by
    intro i hi hlt
    rw [fread, List.getElem?_take_of_lt (by omega), List.getElem?_drop,
      show info.bootfsEnd + (i - info.bootfsEnd) = i by omega, List.getD_eq_getElem?_getD,
      List.getElem?_eq_getElem (by omega)]
    rfl
  constructor
  · intro hall i hi hlt
    exact hall _ (List.mem_of_getElem? (hget i hi hlt))
  · intro hall b hb
    obtain ⟨j, hj, rfl⟩ := List.mem_iff_getElem.mp hb
    rw [hgap] at hj
    have hj' := hget (info.bootfsEnd + j) (by omega) (by omega)
    rw [Nat.add_sub_cancel_left, List.getElem?_eq_getElem (by omega)] at hj'
    rw [Option.some.inj hj']
    exact hall _ (by omega) (by omega)

/-! ## Created files -/

/-- What the `-f` options name, one after the other. -/
def fileData (args : List Arg) : List Byte :=
  (args.filterMap fun arg => match arg with
    | .file content => some content
    | _ => none).flatten

lemma Creation.append_file_trx (st : Creation) (content : List Byte) :
    (st.append_file content).trx = st.trx ++ content := by
  obtain ⟨hflat, -⟩ := readChunks_spec content content.length 0 content.length le_rfl (by omega)
  rw [Creation.append_file, hflat, fread, List.drop_zero, List.take_length]

/-- The checksum of `create` covers the files, whatever stands between them. -/
lemma created_crc32 (args : List Arg) :
    (created args).crc32 = bcm4908img_crc32 0xffffffff (fileData args) := by
  have hfold : ∀ (args : List Arg) (st : Creation), (args.foldl Creation.arg st).crc32 =
      bcm4908img_crc32 st.crc32 (fileData args) := by
    intro args
    induction args with
    | nil => exact fun st => rfl
    | cons arg args ih =>
      intro st
      rw [List.foldl_cons, ih]
      cases arg with
      | file content =>
        obtain ⟨hflat, -⟩ := readChunks_spec content content.length 0 content.length le_rfl
          (by omega)
        have hdata : fileData (.file content :: args) = content ++ fileData args := rfl
        rw [hdata, crc32_append, Creation.arg, Creation.append_file, foldl_crc32, hflat, fread,
          List.drop_zero, List.take_length]
      | align alignment =>
        have hdata : fileData (.align alignment :: args) = fileData args := rfl
        rw [hdata, Creation.arg]
        split <;> rfl
      | offset offset =>
        have hdata : fileData (.offset offset :: args) = fileData args := rfl
        rw [hdata]
        simp only [Creation.arg]
        split <;> rfl
  exact hfold args _

/-- The options write an image: 1024 bytes or more that do not start with a CHK header, with a JFFS2
node at the start of a block and a UBI header at the start of a later one. -/
structure Creatable (args : List Arg) : Prop where
  size : 1024 ≤ (created args).trx.length
  not_chk : get32 .big (created args).trx ≠ CHK_MAGIC
  parts : ∃ j u, j < u ∧ IsJffs2 (created args).trx (j * block) ∧
    IsUbi (created args).trx (u * block)

/-- What the parser needs of a created file.  The fill bytes must not change the checksum of the
files, and 256 bytes have to follow the start of rootfs if the parser has not met padding in front
of it; where the data end like a vendor tail, they have to be a whole image themselves. -/
def Harmless (files trx : List Byte) : Prop :=
  ∀ kb b kr r, FirstAt (IsJffs2 trx) 0 kb b → FirstAt (IsUbi trx) b kr r →
    (fread trx (trx.length - 236) 9 ≠ linksysMagic →
      (paddingOf trx b kr 0 ≠ 0 ∨ r + 236 ≤ trx.length) ∧
        bcm4908img_crc32 0xffffffff trx = bcm4908img_crc32 0xffffffff files) ∧
    (fread trx (trx.length - 236) 9 = linksysMagic →
      r < trx.length - 256 ∧ bcm4908img_crc32 0xffffffff (trx.take (trx.length - 256)) =
        rd32 (trx.drop (trx.length - 256)))

/-- The data of the options are harmless. -/
def CreateSafe (args : List Arg) : Prop := Harmless (fileData args) (created args).trx

lemma fread_append_left {a b : List Byte} {off n : ℕ} (h : off + n ≤ a.length) :
    fread (a ++ b) off n = fread a off n := by
  rw [fread, fread, List.drop_append_of_le_length (by omega), List.take_append_of_le_length]
  rw [List.length_drop]
  omega

lemma fread_append_right (a b : List Byte) (off n : ℕ) :
    fread (a ++ b) (a.length + off) n = fread b off n := by
  rw [fread, fread, List.drop_append, List.drop_eq_nil_of_le (by omega), List.nil_append,
    Nat.add_sub_cancel_left]

lemma IsJffs2.le {fp : List Byte} {off : ℕ} (h : IsJffs2 fp off) : off + 2 ≤ fp.length := by
  refine (length_fread_iff (by decide)).mp ?_
  rw [h]
  rfl

lemma IsUbi.le {fp : List Byte} {off : ℕ} (h : IsUbi fp off) : off + 4 ≤ fp.length := by
  refine (length_fread_iff (by decide)).mp ?_
  rw [h]
  rfl

/-- The first block with a property of bytes in it is the first one also in a longer file. -/
lemma FirstAt.append {P : List Byte → ℕ → Prop} {n : ℕ} {a : List Byte}
    (hle : ∀ {fp off}, P fp off → off + n ≤ fp.length)
    (happend : ∀ {off} t, off + n ≤ a.length → (P (a ++ t) off ↔ P a off)) {off k x : ℕ}
    (h : FirstAt (P a) off k x) (t : List Byte) : FirstAt (P (a ++ t)) off k x := by
  obtain ⟨hx, hP, hmin⟩ := h
  have hfits := hle hP
  refine ⟨hx, (happend t hfits).mpr hP, fun i hi hPi => hmin i hi ?_⟩
  have := Nat.mul_le_mul_right block hi.le
  exact (happend t (by omega)).mp hPi

lemma FirstAt.jffs2_append {a : List Byte} {off k x : ℕ} (h : FirstAt (IsJffs2 a) off k x)
    (t : List Byte) : FirstAt (IsJffs2 (a ++ t)) off k x :=
  h.append IsJffs2.le (fun t hfits => by rw [IsJffs2, IsJffs2, fread_append_left hfits]) t

lemma FirstAt.ubi_append {a : List Byte} {off k x : ℕ} (h : FirstAt (IsUbi a) off k x)
    (t : List Byte) : FirstAt (IsUbi (a ++ t)) off k x :=
  h.append IsUbi.le (fun t hfits => by rw [IsUbi, IsUbi, fread_append_left hfits]) t

lemma paddingOf_append {a : List Byte} (t : List Byte) {k off p : ℕ}
    (h : off + k * block ≤ a.length) : paddingOf (a ++ t) off k p = paddingOf a off k p := by
  induction k generalizing off p with
  | zero => rfl
  | succ k ih =>
    have hblock : block = 0x20000 := rfl
    rw [Nat.succ_mul] at h
    have hpad : IsPadding (a ++ t) off ↔ IsPadding a off := by
      rw [IsPadding, IsPadding, fread_append_left (by omega)]
    rw [paddingOf, paddingOf, ih (by omega)]
    simp only [hpad]

lemma length_tail_bytes (tail : Tail) : tail.bytes.length = tailSize := rfl

lemma Tail.read_bytes_crc32 (tail : Tail) : (Tail.read tail.bytes).crc32 = tail.crc32 :=
  rd32_le32_append tail.crc32 _

/-- The last 256 bytes of a created file are the last 236 of its data and the tail. -/
lemma hasLinksys_create {args : List Arg} (h : 1024 ≤ (created args).trx.length) :
    HasLinksys (bcm4908img_create args) ↔
      fread (created args).trx ((created args).trx.length - 236) 9 = linksysMagic := by
  set trx := (created args).trx with htrx
  have hlen : (bcm4908img_create args).length = trx.length + 20 := List.length_append
  have hfread : ((fread (bcm4908img_create args) ((bcm4908img_create args).length - 1024) 1024).drop
      (1024 - linksysSize)).take 9 = fread trx (trx.length - 236) 9 := by
    have hoff : trx.length + 20 - 1024 + (1024 - linksysSize) = trx.length - 236 := by
      have : linksysSize = 256 := rfl
      omega
    have hmin : min 9 (1024 - (1024 - linksysSize)) = 9 := rfl
    have hfile : bcm4908img_create args = trx ++ (createdTail (created args).crc32).bytes := rfl
    rw [fread, List.drop_take, List.drop_drop, hlen, hoff, List.take_take, hmin, hfile]
    have happ := fread_append_left (a := trx) (b := (createdTail (created args).crc32).bytes)
      (show trx.length - 236 + 9 ≤ trx.length by omega)
    rw [fread] at happ
    exact happ
  rw [HasLinksys, hfread]

/-- The parser accepts a created file exactly if the fill bytes and the end of its data are
harmless. -/
lemma parse_create_iff {args : List Arg} (h : Creatable args) :
    (∃ info, bcm4908img_parse (bcm4908img_create args) = .ok info) ↔ CreateSafe args := by
  obtain ⟨hsize, hchk, j, u, hju, hjffs, hubi⟩ := h
  have hlinksys := hasLinksys_create hsize
  have hcrc := created_crc32 args
  set trx := (created args).trx with htrx
  set tl := (createdTail (created args).crc32).bytes with htl
  have hfile : bcm4908img_create args = trx ++ tl := rfl
  have htl20 : tl.length = 20 := rfl
  have hlen : (trx ++ tl).length = trx.length + 20 := List.length_append
  have hsizes : tailSize = 20 ∧ linksysSize = 256 := ⟨rfl, rfl⟩
  rw [CreateSafe, ← htrx, hfile]
  rw [hfile] at hlinksys
  clear_value trx tl
  have hcferom : cferomOf (trx ++ tl) = 0 := by
    have hhead : get32 .big (fread (trx ++ tl) 0 1024) = get32 .big trx := by
      rw [fread_append_left (by omega), ← get32_take_four, fread_take (by decide), fread,
        List.drop_zero, get32_take_four]
    rw [cferomOf, hhead, if_neg hchk]
  -- the first blocks with the two magics, in the data and so in the file
  have hexb : ∃ k x, FirstAt (IsJffs2 trx) 0 k x :=
    exists_firstAt ⟨j, by rw [Nat.zero_add]; exact hjffs⟩
  obtain ⟨kb, b, hb⟩ := hexb
  have hkb : kb ≤ j := by
    by_contra hlt
    exact hb.2.2 j (by omega) (by rw [Nat.zero_add]; exact hjffs)
  have hu : b + (u - kb) * block = u * block := by
    rw [hb.1, Nat.zero_add, ← Nat.add_mul, Nat.add_sub_of_le (by omega)]
  have hexr : ∃ k x, FirstAt (IsUbi trx) b k x := exists_firstAt ⟨u - kb, by rw [hu]; exact hubi⟩
  obtain ⟨kr, r, hr⟩ := hexr
  have hrle := hr.2.1.le
  have hb' := hb.jffs2_append tl
  have hr' := hr.ubi_append tl
  have hbr : b ≤ r := by
    rw [hr.1]
    omega
  have hpad : paddingOf (trx ++ tl) b kr 0 = paddingOf trx b kr 0 := paddingOf_append tl (by
    rw [← hr.1]
    omega)
  have hsafe : Harmless (fileData args) trx ↔
      (fread trx (trx.length - 236) 9 ≠ linksysMagic →
        (paddingOf trx b kr 0 ≠ 0 ∨ r + 236 ≤ trx.length) ∧
          bcm4908img_crc32 0xffffffff trx = bcm4908img_crc32 0xffffffff (fileData args)) ∧
      (fread trx (trx.length - 236) 9 = linksysMagic →
        r < trx.length - 256 ∧ bcm4908img_crc32 0xffffffff (trx.take (trx.length - 256)) =
          rd32 (trx.drop (trx.length - 256))) := by
    constructor
    · intro h
      exact h kb b kr r hb hr
    · intro h kb' b' kr' r' hb' hr'
      obtain ⟨-, rfl⟩ := hb.unique hb'
      obtain ⟨rfl, rfl⟩ := hr.unique hr'
      exact h
  rw [hsafe, exists_parse_iff (by omega) (hcferom ▸ hb') hr', hcferom, hpad, hlen, Nat.sub_zero]
  by_cases hl : fread trx (trx.length - 236) 9 = linksysMagic
  · have hT : tailOf (trx ++ tl) = trx.length - 256 := by
      rw [tailOf, if_pos (hlinksys.mpr hl), hlen]
      omega
    have hdata : fread (trx ++ tl) 0 (trx.length - 256) = trx.take (trx.length - 256) := by
      rw [fread_append_left, fread, List.drop_zero]
      omega
    have htail : (Tail.read (fread (trx ++ tl) (trx.length - 256) tailSize)).crc32 =
        rd32 (trx.drop (trx.length - 256)) := by
      have happ : fread (trx ++ tl) (trx.length - 256) tailSize =
          fread trx (trx.length - 256) tailSize := by
        rw [fread_append_left]
        omega
      have htake : (fread trx (trx.length - 256) tailSize).take 4 =
          (trx.drop (trx.length - 256)).take 4 := fread_take (by decide)
      rw [happ, Tail.read, ← rd32_take_four, htake, rd32_take_four]
    rw [hT, hdata, htail, and_iff_right (fun h => absurd hl h), imp_iff_right hl]
    constructor
    · rintro ⟨hrT, -, hvalid⟩
      exact ⟨hrT, hvalid⟩
    · rintro ⟨hrT, hvalid⟩
      exact ⟨hrT, by omega, hvalid⟩
  · have hT : tailOf (trx ++ tl) = trx.length := by
      rw [tailOf, if_neg (fun h => hl (hlinksys.mp h)), hlen]
      omega
    have hdata : fread (trx ++ tl) 0 trx.length = trx := by
      rw [fread_append_left (by omega), fread, List.drop_zero, List.take_length]
    have htail : fread (trx ++ tl) trx.length tailSize = tl := by
      have happ := fread_append_right trx tl 0 tailSize
      rw [Nat.add_zero] at happ
      rw [happ, fread, List.drop_zero, hsizes.1, ← htl20, List.take_length]
    rw [hT, hdata, htail, htl, Tail.read_bytes_crc32, imp_iff_right hl,
      and_iff_left (fun h => absurd h hl)]
    change _ ∧ _ ∧ _ = (created args).crc32 ↔ _
    rw [hcrc]
    constructor
    · rintro ⟨-, hreadable, hvalid⟩
      exact ⟨by omega, hvalid⟩
    · rintro ⟨hreadable, hvalid⟩
      exact ⟨by omega, by omega, hvalid⟩

/-- The parser accepts what `create` has written exactly if it is harmless, and the parts of a file
that it accepts make it up exactly if all that lies between bootfs and rootfs is padding. -/
theorem create_parse_extract (args : List Arg) (hargs : Creatable args) :
    ((∃ info, bcm4908img_parse (bcm4908img_create args) = .ok info) ↔ CreateSafe args) ∧
    ∀ fp info, bcm4908img_parse fp = .ok info →
      Ordered fp info ∧ Extracted fp info ∧ (PartsMakeUp fp info ↔ Padded fp info) := by
  refine ⟨parse_create_iff hargs, fun fp info h => ?_⟩
  exact ⟨(parse_ok_iff.mp h).ordered, extracted h, partsMakeUp_iff h⟩

/-- An empty cferom of `m` blocks, a bootfs of one block and a rootfs of 256 bytes. -/
def plain (m : ℕ) : List Byte :=
  List.replicate (m * block) 0 ++ (([0x85, 0x19] ++ List.replicate (block - 2) 0) ++
    ([0x55, 0x42, 0x49, 0x23] ++ List.replicate 252 0))

lemma length_zeros_bootfs {n : ℕ} (k : ℕ) (hn : 2 ≤ n) : (List.replicate k (0 : Byte) ++
    ([0x85, 0x19] ++ List.replicate (n - 2) 0)).length = k + n := by
  simp only [List.length_append, List.length_replicate, List.length_cons, List.length_nil]
  omega

lemma length_plain (m : ℕ) : (plain m).length = (m + 1) * block + 256 := by
  have hblock : 2 ≤ block := by decide
  rw [plain, ← List.append_assoc, List.length_append, length_zeros_bootfs _ hblock, Nat.succ_mul,
    List.length_append, List.length_replicate]
  rfl

lemma isJffs2_plain (m : ℕ) : IsJffs2 (plain m) (m * block) := by
  have happ := fread_append_right (List.replicate (m * block) (0 : Byte))
    (([0x85, 0x19] ++ List.replicate (block - 2) 0) ++ ([0x55, 0x42, 0x49, 0x23] ++
      List.replicate 252 0)) 0 2
  rw [List.length_replicate, Nat.add_zero] at happ
  rw [IsJffs2, plain, happ, fread, List.drop_zero, List.append_assoc]
  exact List.take_left' rfl

lemma fread_plain (m off n : ℕ) : fread (plain m) ((m + 1) * block + off) n =
    fread ([0x55, 0x42, 0x49, 0x23] ++ List.replicate 252 0) off n := by
  have happ := fread_append_right
    (List.replicate (m * block) (0 : Byte) ++ ([0x85, 0x19] ++ List.replicate (block - 2) 0))
    ([0x55, 0x42, 0x49, 0x23] ++ List.replicate 252 0) off n
  have hblock : 2 ≤ block := by decide
  rw [length_zeros_bootfs _ hblock, ← Nat.succ_mul, List.append_assoc] at happ
  exact happ

lemma isUbi_plain (m : ℕ) : IsUbi (plain m) ((m + 1) * block) := by
  have h := fread_plain m 0 4
  rw [Nat.add_zero] at h
  rw [IsUbi, h]
  rfl

lemma fread_plain_head (m : ℕ) : fread (plain m) 0 4 = [0, 0, 0, 0] ∨
    fread (plain m) 0 4 = [0x85, 0x19, 0, 0] := by
  cases m with
  | zero =>
    right
    rw [plain, Nat.zero_mul]
    rfl
  | succ m =>
    left
    rw [plain, fread_append_left, fread, List.drop_zero, List.take_replicate]
    · have hblock : block = 0x20000 := rfl
      rw [Nat.succ_mul, Nat.min_eq_left (by omega)]
      rfl
    · have hblock : block = 0x20000 := rfl
      rw [List.length_replicate, Nat.succ_mul]
      omega

lemma creatable_plain {args : List Arg} {m : ℕ} (h : (created args).trx = plain m) :
    Creatable args := by
  have hblock : block = 0x20000 := rfl
  refine ⟨?_, ?_, m, m + 1, by omega, ?_, ?_⟩
  · rw [h, length_plain, Nat.succ_mul]
    omega
  · have hword : get32 .big (created args).trx = get32 .big (fread (plain m) 0 4) := by
      rw [h, fread, List.drop_zero, get32_take_four]
    rw [hword]
    rcases fread_plain_head m with hhead | hhead <;> rw [hhead] <;> decide
  · rw [h]
    exact isJffs2_plain m
  · rw [h]
    exact isUbi_plain m

lemma createSafe_plain : CreateSafe [.file (plain 0)] := by
  have htrx : (created [.file (plain 0)]).trx = plain 0 := Creation.append_file_trx _ _
  have hfiles : fileData [.file (plain 0)] = plain 0 := List.append_nil _
  have hblock : block = 0x20000 := rfl
  have hlen := length_plain 0
  rw [CreateSafe, htrx, hfiles]
  intro kb b kr r hb hr
  have hrle := hr.2.1.le
  refine ⟨fun _ => ⟨Or.inr ?_, rfl⟩, fun hmagic => ?_⟩
  · have hbm := hb.1
    have hrm := hr.1
    rw [hblock] at hbm hrm hlen
    omega
  · have hoff : (plain 0).length - 236 = (0 + 1) * block + 20 := by omega
    rw [hoff, fread_plain] at hmagic
    exact absurd hmagic (by decide)

/-- An image in one file is accepted. -/
theorem create_parse_extract_plain : ∃ info,
    bcm4908img_parse (bcm4908img_create [.file (plain 0)]) = .ok info ∧
      Ordered (bcm4908img_create [.file (plain 0)]) info := by
  have htrx : (created [.file (plain 0)]).trx = plain 0 := Creation.append_file_trx _ _
  have h := create_parse_extract _ (creatable_plain htrx)
  obtain ⟨info, hinfo⟩ := h.1.mpr createSafe_plain
  exact ⟨info, hinfo, (h.2 _ _ hinfo).1⟩

/-- One fill byte in front of the files, and the image is not accepted. -/
theorem create_not_parsed : ¬ ∀ args, Creatable args →
    ∃ info, bcm4908img_parse (bcm4908img_create args) = .ok info := by
  intro hall
  set content := List.replicate (block - 1) (0 : Byte) ++ plain 0 with hcontent
  have htrx : (created [.offset 1, .file content]).trx = plain 1 := by
    have h1 : (created [.offset 1, .file content]).trx = [0] ++ content :=
      Creation.append_file_trx _ _
    have h2 : List.replicate block (0 : Byte) = [0] ++ List.replicate (block - 1) 0 :=
      List.replicate_succ
    rw [h1, hcontent, plain, plain, Nat.zero_mul, List.replicate_zero, List.nil_append, Nat.one_mul,
      h2]
    simp only [List.append_assoc]
  have hfiles : fileData [.offset 1, .file content] = content := List.append_nil _
  have hcreatable := creatable_plain htrx
  have hsafe := (parse_create_iff hcreatable).mp (hall _ hcreatable)
  rw [CreateSafe, htrx, hfiles] at hsafe
  have hblock : block = 0x20000 := rfl
  have hlen := length_plain 1
  obtain ⟨kb, b, hb⟩ : ∃ k x, FirstAt (IsJffs2 (plain 1)) 0 k x :=
    exists_firstAt ⟨1, by rw [Nat.zero_add]; exact isJffs2_plain 1⟩
  have hub : b + (2 - kb) * block = (1 + 1) * block := by
    have hkb : kb ≤ 1 := by
      by_contra hlt
      exact hb.2.2 1 (by omega) (by rw [Nat.zero_add]; exact isJffs2_plain 1)
    rw [hb.1, Nat.zero_add, ← Nat.add_mul, Nat.add_sub_of_le (by omega)]
  obtain ⟨kr, r, hr⟩ : ∃ k x, FirstAt (IsUbi (plain 1)) b k x :=
    exists_firstAt ⟨2 - kb, by rw [hub]; exact isUbi_plain 1⟩
  have hmagic : fread (plain 1) ((plain 1).length - 236) 9 ≠ linksysMagic := by
    have hoff : (plain 1).length - 236 = (1 + 1) * block + 20 := by omega
    rw [hoff, fread_plain]
    decide
  obtain ⟨-, hcrc⟩ := (hsafe kb b kr r hb hr).1 hmagic
  -- equal checksums of the data and of the files are equal checksums of the fill byte and of nothing
  have hplain : plain 1 = 0 :: content := by
    rw [← htrx]
    exact Creation.append_file_trx _ _
  have hfold := congrArg UInt32.toNat hcrc
  rw [toNat_crc32, toNat_crc32, hplain, List.foldl_cons] at hfold
  exact absurd (Crc.foldl_crcByte_inj (by decide) (by decide) content hfold) (by decide)

end Bcm4908
