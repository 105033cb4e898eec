import Mt798x.Bcm4908.Rename
import Mt798x.Lib.Splice

/-!
# What a renaming changes

The tail is written to the last bytes of the file, so an image with a Linksys tail loses the end of
that one and keeps the old checksum; the checksum of a name is not looked at before it is replaced;
and the number of bytes of the new name is the one in the entry.  `mv_right_iff` says for which
images and names the command does what it is meant to do.
-/

namespace Bcm4908

open Bytes Guard

/-! ## When a renaming is right -/

/-- The bytes of a name in an entry of `n` bytes. -/
def entryText (name : List Byte) (n : ℕ) : List Byte := (name ++ [0]).take n

/-- The checksum of a name in an entry. -/
def entryCrc (host : Endian) (name : List Byte) (n : ℕ) : List Byte :=
  put32 host (bcm4908img_crc32 0 (entryText name n))

/-- The file with a name in an entry of `n` bytes. -/
def patched (host : Endian) (fp name : List Byte) (e n : ℕ) : List Byte :=
  splice (splice fp (e + 36) (entryCrc host name n)) (e + 40) (entryText name n)

/-- The searches of the parser end at the same places. -/
structure SameParts (fp fp' : List Byte) (info : Info) : Prop where
  linksys : HasLinksys fp' ↔ HasLinksys fp
  ubi : ∀ j, info.bootfs_offset + j * block ≤ info.rootfs_offset →
    (IsUbi fp' (info.bootfs_offset + j * block) ↔ IsUbi fp (info.bootfs_offset + j * block))
  padding : ∀ k, info.rootfs_offset = info.bootfs_offset + k * block →
    paddingOf fp' info.bootfs_offset k 0 = paddingOf fp info.bootfs_offset k 0

section Conditions

variable (host : Endian) (fp : List Byte) (info : Info) (old new : List Byte) (k : ℕ)

/-- The entries up to the node `k`, and the header of rootfs, end in front of the tail. -/
structure InFront : Prop where
  ubi : info.rootfs_offset + 4 ≤ info.tail_offset
  entries : ∀ j ≤ k, IsDirent host fp (place host fp info.bootfs_offset j) →
    place host fp info.bootfs_offset j + 40 +
      nsizeAt fp (place host fp info.bootfs_offset j) ≤ info.tail_offset

/-- The renaming of the entry `k` is right: the size of its name is the one of the names, the new
name does not make or unmake the start of a part, there is no Linksys tail (or it ends with the tail
and the checksum stays as it is), and the checksum of the old name was right. -/
structure EntrySafe (e n : ℕ) : Prop where
  size : n ≤ old.length + 1
  parts : SameParts fp (patched host fp new e n) info
  tail : HasLinksys fp → fread fp (fp.length - tailSize) tailSize = info.tail.bytes ∧
    bcm4908img_crc32 0xffffffff (fread (patched host fp new e n) info.cferom_offset
      (info.tail_offset - info.cferom_offset)) = info.crc32
  name_crc : (∀ j < k, ¬Named host (patched host fp new e n) new
      (place host fp info.bootfs_offset j)) →
    fread fp (e + 36) 4 = entryCrc host old n

/-- No node on the way has the length 0, and the first entry with the old name is in front of the
tail and can be renamed. -/
structure MvSafe : Prop where
  moves : Moves host fp old info.bootfs_offset
  entry : ∀ k, Reached host fp old info.bootfs_offset k →
    Named host fp old (place host fp info.bootfs_offset k) →
    InFront host fp info k ∧ EntrySafe host fp info old new k
      (place host fp info.bootfs_offset k) (nsizeAt fp (place host fp info.bootfs_offset k))

end Conditions

/-! ## Bytes of a file -/

section Bytes

variable {fp x y name old new : List Byte} {host : Endian} {a e n k T start : ℕ}

lemma fread_eq_iff : fread x a n = fread y a n ↔ ∀ i < n, x[a + i]? = y[a + i]? := by
  constructor
  · intro h i hi
    have hget := congrArg (fun l => l[i]?) h
    simp only [fread, List.getElem?_take_of_lt hi, List.getElem?_drop] at hget
    exact hget
  · intro h
    refine List.ext_getElem? fun i => ?_
    rcases Nat.lt_or_ge i n with hi | hi
    · rw [fread, fread, List.getElem?_take_of_lt hi, List.getElem?_take_of_lt hi,
        List.getElem?_drop, List.getElem?_drop, h i hi]
    · rw [List.getElem?_eq_none, List.getElem?_eq_none] <;>
        simp only [fread, List.length_take] <;> omega

/-- Two files have the same bytes in front of `T`. -/
def SameUpTo (x y : List Byte) (T : ℕ) : Prop := ∀ i < T, x[i]? = y[i]?

lemma SameUpTo.fread (h : SameUpTo x y T) (hle : a + n ≤ T) : fread x a n = fread y a n :=
  fread_eq_iff.mpr fun i hi => h _ (by omega)

lemma SameUpTo.mono {T' : ℕ} (h : SameUpTo x y T) (hle : T' ≤ T) : SameUpTo x y T' :=
  fun i hi => h i (by omega)

lemma SameUpTo.symm (h : SameUpTo x y T) : SameUpTo y x T := fun i hi => (h i hi).symm

lemma get16_fread (e : Endian) : get16 e (fread x a 2) = get16 e (x.drop a) :=
  get16_take le_rfl

lemma get32_fread (e : Endian) : get32 e (fread x a 4) = get32 e (x.drop a) :=
  get32_take le_rfl

/-! ## Names -/

lemma length_entryText (h : n ≤ name.length + 1) : (entryText name n).length = n := by
  rw [entryText, List.length_take, List.length_append, List.length_singleton]
  omega

lemma length_entryCrc : (entryCrc host name n).length = 4 := length_put32 _ _

lemma cstring_entryText (h0 : 0 ∉ name) (hle : name.length ≤ n) :
    cstring (entryText name n) = name := by
  have hall : ∀ b ∈ name, (decide (b ≠ 0)) = true := fun b hb =>
    decide_eq_true fun h : b = 0 => h0 (h ▸ hb)
  rw [cstring, entryText, List.take_append, List.take_of_length_le hle,
    List.takeWhile_append_of_pos hall]
  have hrest : ([0] : List Byte).take (n - name.length) = [] ∨
      ([0] : List Byte).take (n - name.length) = [0] := by
    rcases Nat.eq_zero_or_pos (n - name.length) with hz | hpos
    · exact .inl (by rw [hz, List.take_zero])
    · exact .inr (List.take_of_length_le hpos)
  rcases hrest with h | h <;> rw [h] <;> simp

/-- A text that `strcmp` takes for the name and that is not longer than the name with its NUL. -/
lemma eq_entryText {bs : List Byte} (h : cstring bs = name) (hle : bs.length ≤ name.length + 1) :
    bs = entryText name bs.length := by
  have hsplit : name ++ bs.dropWhile (fun b => b ≠ 0) = bs := by
    rw [← h, cstring]
    exact List.takeWhile_append_dropWhile
  have hlen := congrArg List.length hsplit
  rw [List.length_append] at hlen
  rw [entryText]
  cases hrest : bs.dropWhile (fun b => b ≠ 0) with
  | nil =>
    rw [hrest, List.append_nil] at hsplit
    rw [← hsplit, List.take_left' rfl]
  | cons b l =>
    have hzero : b = 0 := by
      have hhead := List.head?_dropWhile_not (fun b : Byte => decide (b ≠ 0)) bs
      rw [hrest] at hhead
      simpa using hhead
    rw [hrest] at hsplit hlen
    obtain rfl : l = [] := by
      refine List.length_eq_zero_iff.mp ?_
      rw [List.length_cons] at hlen
      omega
    rw [← hsplit, hzero, List.take_of_length_le le_rfl]

lemma length_cstring_le (bs : List Byte) : (cstring bs).length ≤ bs.length :=
  (List.takeWhile_sublist _).length_le

lemma Named.length_le {off : ℕ} (h : Named host fp name off) : name.length ≤ nsizeAt fp off := by
  have hle := length_cstring_le (nameAt fp off)
  have hin := h.inside
  rw [h.name, nameAt, length_fread hin] at hle
  exact hle

/-! ## Patched files -/

section

variable (host) (hsize : n ≤ name.length + 1) (hin : e + 40 + n ≤ fp.length)
include hin

variable (name) in
lemma length_crcWritten : (splice fp (e + 36) (entryCrc host name n)).length = fp.length :=
  length_splice (by rw [length_entryCrc]; omega)

include hsize

lemma length_patched : (patched host fp name e n).length = fp.length := by
  have hcrc := length_crcWritten name host hin
  rw [patched, length_splice (by rw [hcrc, length_entryText hsize]; exact hin), hcrc]

lemma patched_outside {i : ℕ} (hout : i < e + 36 ∨ e + 40 + n ≤ i) :
    (patched host fp name e n)[i]? = fp[i]? := by
  have htext := length_entryText hsize
  have hcrc := length_crcWritten name host hin
  rw [patched, getElem?_splice_of_not_mem (by rw [hcrc, htext]; exact hin) (by rw [htext]; omega),
    getElem?_splice_of_not_mem (by rw [length_entryCrc]; omega) (by rw [length_entryCrc]; omega)]

lemma patched_text : fread (patched host fp name e n) (e + 40) n = entryText name n := by
  have hcrc := length_crcWritten name host hin
  rw [fread, patched, drop_splice_self (by omega), List.take_left' (length_entryText hsize)]

lemma patched_crc : fread (patched host fp name e n) (e + 36) 4 = entryCrc host name n := by
  have htext := length_entryText hsize
  have hcrc := length_crcWritten name host hin
  have hsame : SameUpTo (patched host fp name e n) (splice fp (e + 36) (entryCrc host name n))
      (e + 40) := by
    intro i hi
    rw [patched, getElem?_splice_of_not_mem (by rw [hcrc, htext]; exact hin) (by omega)]
  rw [hsame.fread (by omega), fread, drop_splice_self (by omega), List.take_left' length_entryCrc]

end

end Bytes

/-! ## The file that is written -/

section Files

variable {host : Endian} {fp fp' old new : List Byte} {info info' : Info} {e n k : ℕ}

/-- The file that is written: the patched one with a tail in its last bytes. -/
def withTail (fp : List Byte) (tail : Tail) : List Byte :=
  splice fp (fp.length - tailSize) tail.bytes

/-- The checksum of the patched file. -/
def patchedCrc (host : Endian) (fp : List Byte) (info : Info) (name : List Byte) (e n : ℕ) :
    UInt32 :=
  bcm4908img_crc32 0xffffffff (fread (patched host fp name e n) info.cferom_offset
    (info.tail_offset - info.cferom_offset))

/-- The file after a renaming. -/
def rewritten (host : Endian) (fp : List Byte) (info : Info) (name : List Byte) (e n : ℕ) :
    List Byte :=
  withTail (patched host fp name e n) { info.tail with crc32 := patchedCrc host fp info name e n }

/-- The entry is in the file up to the tail, which is in the file. -/
structure Fits (fp : List Byte) (info : Info) (e n : ℕ) : Prop where
  tail : info.tail_offset + tailSize ≤ fp.length
  entry : e + 40 + n ≤ info.tail_offset
  cferom : info.cferom_offset ≤ info.tail_offset

lemma Fits.inside (h : Fits fp info e n) : e + 40 + n ≤ fp.length :=
  h.entry.trans (by have := h.tail; omega)

lemma calc_crc32_eq (h : Fits fp info e n) : bcm4908img_calc_crc32 fp info =
    some (bcm4908img_crc32 0xffffffff (fread fp info.cferom_offset
      (info.tail_offset - info.cferom_offset))) := by
  have hle := h.cferom
  have htail := h.tail
  obtain ⟨hflat, hleft⟩ := readChunks_spec fp (info.tail_offset - info.cferom_offset)
    info.cferom_offset (info.tail_offset - info.cferom_offset) le_rfl (by omega)
  rw [bcm4908img_calc_crc32, hleft, if_neg (by simp), foldl_crc32, hflat]

lemma rewriteEntry_eq (h : Fits fp info e n) (hsize : n ≤ new.length + 1) :
    rewriteEntry host fp info new e n = .ok (.ok (), rewritten host fp info new e n) := by
  have htail := h.tail
  have hlen := length_patched host hsize h.inside
  have hpatched : Fits (patched host fp new e n) info e n := ⟨by rw [hlen]; exact htail, h.entry, h.cferom⟩
  have hcalc := calc_crc32_eq hpatched
  rw [patched, entryCrc, entryText] at hcalc
  rw [rewriteEntry, touch_eq hsize, ok_bind]
  dsimp only
  rw [hcalc]
  rfl

lemma rewriteEntry_outside (hsize : new.length + 1 < n) :
    rewriteEntry host fp info new e n = .error .outside := by
  rw [rewriteEntry, touch, if_neg (by omega)]
  rfl

variable (host) in
lemma length_rewritten (h : Fits fp info e n) (hsize : n ≤ new.length + 1) :
    (rewritten host fp info new e n).length = fp.length := by
  have htail := h.tail
  have hlen := length_patched host hsize h.inside
  rw [rewritten, withTail, length_splice (by rw [length_tail_bytes]; omega), hlen]

variable (host) in
lemma rewritten_front (h : Fits fp info e n) (hsize : n ≤ new.length + 1) :
    SameUpTo (rewritten host fp info new e n) (patched host fp new e n)
      (fp.length - tailSize) := by
  have htail := h.tail
  have hlen := length_patched host hsize h.inside
  intro i hi
  rw [rewritten, withTail,
    getElem?_splice_of_not_mem (by rw [length_tail_bytes]; omega) (by omega)]

variable (host) in
lemma rewritten_tail (h : Fits fp info e n) (hsize : n ≤ new.length + 1) :
    fread (rewritten host fp info new e n) (fp.length - tailSize) tailSize =
      Tail.bytes { info.tail with crc32 := patchedCrc host fp info new e n } := by
  have htail := h.tail
  have hlen := length_patched host hsize h.inside
  rw [fread, rewritten, withTail, hlen, drop_splice_self (by omega),
    List.take_left' (length_tail_bytes _)]

lemma rewritten_outside (h : Fits fp info e n) (hsize : n ≤ new.length + 1) {i : ℕ}
    (hentry : i < e + 36 ∨ e + 40 + n ≤ i) (hi : i < fp.length - tailSize) :
    (rewritten host fp info new e n)[i]? = fp[i]? := by
  rw [rewritten_front _ h hsize i hi, patched_outside host hsize h.inside hentry]

/-! ## Nodes in front of the entry -/

variable (host) in
lemma node_congr {off : ℕ} (hlen : fp'.length = fp.length) (h : SameUpTo fp' fp (e + 36))
    (hoff : off + 4 ≤ e ∨ off = e) :
    (IsNode host fp' off ↔ IsNode host fp off) ∧ (IsDirent host fp' off ↔ IsDirent host fp off) ∧
      nsizeAt fp' off = nsizeAt fp off ∧ nextNode host fp' off = nextNode host fp off := by
  have hmagic : get16 host (fp'.drop off) = get16 host (fp.drop off) := by
    rw [← get16_fread, ← get16_fread, h.fread (by omega)]
  have htype : get16 host (fp'.drop (off + 2)) = get16 host (fp.drop (off + 2)) := by
    rw [← get16_fread, ← get16_fread, h.fread (by omega)]
  have hnext : get32 host (fp'.drop (off + 4)) = get32 host (fp.drop (off + 4)) := by
    rw [← get32_fread, ← get32_fread, h.fread (by omega)]
  refine ⟨?_, ?_, ?_, ?_⟩
  · constructor
    · rintro ⟨hin, hm⟩
      exact ⟨hlen ▸ hin, hmagic ▸ hm⟩
    · rintro ⟨hin, hm⟩
      exact ⟨hlen ▸ hin, hmagic ▸ hm⟩
  · rw [IsDirent, IsDirent, htype]
  · rw [nsizeAt, nsizeAt, List.getD_eq_getElem?_getD, List.getD_eq_getElem?_getD,
      h (off + 28) (by omega)]
  · rw [nextNode, nextNode, hnext]

/-- Up to the entry the chain of nodes is the same, and a node with another name is passed by. -/
lemma chain_congr (hlen : fp'.length = fp.length) {start : ℕ} (hmoves : Moves host fp old start)
    (hreached : Reached host fp old start k)
    (h : SameUpTo fp' fp (place host fp start k + 36)) :
    ∀ j ≤ k, place host fp' start j = place host fp start j := by
  intro j
  induction j with
  | zero => exact fun _ => rfl
  | succ j ih =>
    intro hj
    have hplace := ih (by omega)
    have hlt := hmoves.place_lt hreached (show j < k by omega)
    rw [place_succ, place_succ, hplace]
    exact (node_congr _ hlen h (.inl hlt)).2.2.2

lemma reached_congr (hlen : fp'.length = fp.length) {start : ℕ} (hmoves : Moves host fp old start)
    (hreached : Reached host fp old start k)
    (h : SameUpTo fp' fp (place host fp start k + 36))
    (hnew : ∀ j < k, ¬Named host fp' new (place host fp' start j)) :
    Reached host fp' new start k := by
  intro j hj
  have hplace := chain_congr hlen hmoves hreached h j hj.le
  have hlt := hmoves.place_lt hreached hj
  obtain ⟨hnode, hdirent, hsize, -⟩ := node_congr host hlen h (.inl hlt)
  have hpassed := hreached j hj
  have hnot := hnew j hj
  rw [hplace] at hnot ⊢
  refine ⟨hnode.mpr hpassed.node, fun hd => ?_⟩
  have hin := (hpassed.entry (hdirent.mp hd)).1
  rw [← hsize, ← hlen] at hin
  exact ⟨hin, fun hname => hnot ⟨hnode.mpr hpassed.node, hd, hin, hname⟩⟩

/-- Two files that are the same up to the tail have the same names in front of it. -/
lemma named_congr {x y name : List Byte} {off T : ℕ} (hlen : x.length = y.length)
    (h : SameUpTo x y T) (hoff : off + 40 ≤ T)
    (hend : IsDirent host y off → off + 40 + nsizeAt y off ≤ T) :
    Named host x name off ↔ Named host y name off := by
  obtain ⟨hnode, hdirent, hsize, -⟩ :=
    node_congr host (e := off) hlen (h.mono (by omega)) (.inr rfl)
  have hname : IsDirent host y off → nameAt x off = nameAt y off := by
    intro hd
    rw [nameAt, nameAt, hsize, h.fread (hend hd)]
  constructor
  · rintro ⟨hn, hd, hin, hc⟩
    have hd' := hdirent.mp hd
    exact ⟨hnode.mp hn, hd', by rw [← hsize, ← hlen]; exact hin, by rw [← hname hd']; exact hc⟩
  · rintro ⟨hn, hd, hin, hc⟩
    exact ⟨hnode.mpr hn, hdirent.mpr hd, by rw [hsize, hlen]; exact hin, by rw [hname hd]; exact hc⟩

end Files

/-! ## Parts of a changed file -/

section Parts

variable {fp fp' x y : List Byte} {info info' : Info}

lemma hasLinksys_iff (h : 1024 ≤ x.length) :
    HasLinksys x ↔ fread x (x.length - linksysSize) 9 = linksysMagic := by
  have hsize : linksysSize = 256 := rfl
  have hoff : x.length - 1024 + (1024 - 256) = x.length - 256 := by omega
  rw [HasLinksys, hsize, drop_fread, hoff, fread_take (by decide)]

lemma paddingOf_congr {off k p : ℕ}
    (h : ∀ j < k, IsPadding x (off + j * block) ↔ IsPadding y (off + j * block)) :
    paddingOf x off k p = paddingOf y off k p := by
  induction k generalizing off p with
  | zero => rfl
  | succ k ih =>
    have hfirst := h 0 (by omega)
    rw [Nat.zero_mul, Nat.add_zero] at hfirst
    have hrest : ∀ j < k, IsPadding x (off + block + j * block) ↔
        IsPadding y (off + block + j * block) := by
      intro j hj
      have hnext := h (j + 1) (by omega)
      rwa [Nat.succ_mul, ← Nat.add_assoc, Nat.add_right_comm] at hnext
    rw [paddingOf, paddingOf, ih hrest]
    simp only [hfirst]

lemma sameParts_congr (hlen : x.length = y.length) (hsize : 1024 ≤ y.length)
    (h : SameUpTo x y (y.length - tailSize)) (hT : info.rootfs_offset + 4 ≤ y.length - tailSize)
    (hx : SameParts fp x info) : SameParts fp y info := by
  have h20 : tailSize = 20 := rfl
  have h256 : linksysSize = 256 := rfl
  have hblock : block = 0x20000 := rfl
  refine ⟨?_, ?_, ?_⟩
  · have hfread := h.fread (show x.length - 256 + 9 ≤ y.length - tailSize by omega)
    rw [← hx.linksys, hasLinksys_iff hsize, hasLinksys_iff (hlen ▸ hsize), h256, hfread, hlen]
  · intro j hj
    rw [← hx.ubi j hj, IsUbi, IsUbi, h.fread (by omega)]
  · intro k hk
    rw [← hx.padding k hk]
    refine paddingOf_congr fun j hj => ?_
    have hle : (j + 1) * block ≤ k * block := Nat.mul_le_mul_right _ hj
    rw [Nat.succ_mul] at hle
    rw [IsPadding, IsPadding, h.fread (by omega)]

lemma cferomOf_congr (h : SameUpTo x y 8) : cferomOf x = cferomOf y := by
  have hread : ∀ x : List Byte, get32 .big (fread x 0 1024) = get32 .big (fread x 0 4) ∧
      get32 .big ((fread x 0 1024).drop 4) = get32 .big (fread x 4 4) := by
    intro x
    constructor
    · rw [get32_fread]
      exact get32_take (by decide)
    · rw [get32_fread, drop_fread]
      exact get32_take (by decide)
  rw [cferomOf, cferomOf, (hread x).1, (hread x).2, (hread y).1, (hread y).2,
    h.fread (by omega), h.fread (by omega)]

lemma tailOf_congr (hlen : x.length = y.length) (h : HasLinksys x ↔ HasLinksys y) :
    tailOf x = tailOf y := by
  simp only [tailOf, h, hlen]

/-- A file with the same parts and a right checksum is accepted. -/
lemma accepted_of_sameParts (h : Accepted fp info) (hparts : SameParts fp fp' info)
    (hlen : fp'.length = fp.length) (hsame : SameUpTo fp' fp (info.bootfs_offset + 36))
    (hvalid : bcm4908img_crc32 0xffffffff (fread fp' info.cferom_offset
      (info.tail_offset - info.cferom_offset)) =
        (Tail.read (fread fp' info.tail_offset tailSize)).crc32) :
    Accepted fp' { info with
      crc32 := bcm4908img_crc32 0xffffffff (fread fp' info.cferom_offset
        (info.tail_offset - info.cferom_offset))
      tail := Tail.read (fread fp' info.tail_offset tailSize) } := by
  obtain ⟨kb, ⟨hb, hjffs, hbmin⟩, hbT⟩ := h.bootfs
  obtain ⟨kr, ⟨hr, hubi, hrmin⟩, hrT, hpad, hreadable⟩ := h.rootfs
  have hboot : ∀ j ≤ kb, IsJffs2 fp' (info.cferom_offset + j * block) ↔
      IsJffs2 fp (info.cferom_offset + j * block) := by
    intro j hj
    have hle : j * block ≤ kb * block := Nat.mul_le_mul_right _ hj
    rw [IsJffs2, IsJffs2, hsame.fread (by omega)]
  have hroot : ∀ j ≤ kr, IsUbi fp' (info.bootfs_offset + j * block) ↔
      IsUbi fp (info.bootfs_offset + j * block) := by
    intro j hj
    have hle : j * block ≤ kr * block := Nat.mul_le_mul_right _ hj
    exact hparts.ubi j (by omega)
  exact
    { size := hlen ▸ h.size
      cferom := by rw [cferomOf_congr (hsame.mono (by omega))]; exact h.cferom
      tail_offset := by rw [tailOf_congr hlen hparts.linksys]; exact h.tail_offset
      bootfs := by
        refine ⟨kb, ⟨hb, ?_, fun j hj => ?_⟩, hbT⟩
        · rw [hb] at hjffs ⊢
          exact (hboot kb le_rfl).mpr hjffs
        · rw [hboot j hj.le]
          exact hbmin j hj
      rootfs := by
        refine ⟨kr, ⟨hr, ?_, fun j hj => ?_⟩, hrT, ?_, ?_⟩
        · rw [hr] at hubi ⊢
          exact (hroot kr le_rfl).mpr hubi
        · rw [hroot j hj.le]
          exact hrmin j hj
        · rw [hparts.padding kr hr]
          exact hpad
        · rw [hlen]
          exact hreadable
      crc32 := rfl
      tail := rfl
      valid := hvalid }

/-- Two accepted files with the parts at the same places. -/
lemma sameParts_of_accepted (h : Accepted fp info) (h' : Accepted fp' info')
    (hoff : SameOffsets info info') (hlen : fp'.length = fp.length) : SameParts fp fp' info := by
  obtain ⟨-, hboot, hpadding, hrootfs, htail⟩ := hoff
  obtain ⟨kr, ⟨hr, hubi, hrmin⟩, -, hpad, -⟩ := h.rootfs
  obtain ⟨kr', ⟨hr', hubi', hrmin'⟩, -, hpad', -⟩ := h'.rootfs
  have hblock : block = 0x20000 := rfl
  rw [hboot] at hr' hrmin' hpad'
  rw [hrootfs] at hr' hubi'
  have hk : kr' = kr := by
    have heq : kr' * block = kr * block := by omega
    exact Nat.eq_of_mul_eq_mul_right (by omega) heq
  rw [hk] at hr' hrmin' hpad'
  refine ⟨?_, ?_, ?_⟩
  · have hsize := h.size
    have heq : tailOf fp' = tailOf fp := by rw [← h'.tail_offset, ← h.tail_offset, htail]
    have h20 : tailSize = 20 := rfl
    have h256 : linksysSize = 256 := rfl
    rw [tailOf, tailOf, hlen] at heq
    by_cases hl : HasLinksys fp <;> by_cases hl' : HasLinksys fp' <;>
      simp only [hl, hl', if_true, if_false] at heq ⊢ <;> omega
  · intro j hj
    have hle : j ≤ kr := by
      have hmul : j * block ≤ kr * block := by omega
      exact Nat.le_of_mul_le_mul_right hmul (by omega)
    rcases Nat.lt_or_eq_of_le hle with hlt | rfl
    · exact iff_of_false (hrmin' j hlt) (hrmin j hlt)
    · rw [← hr]
      exact iff_of_true hubi' hubi
  · intro k hk'
    have hkk : k = kr := by
      have heq : k * block = kr * block := by omega
      exact Nat.eq_of_mul_eq_mul_right (by omega) heq
    rw [hkk, ← hpad', ← hpad, hpadding]

lemma Tail.read_bytes (tail : Tail) : Tail.read tail.bytes = tail := by
  obtain ⟨crc32, version, chip_id, flash_type, flags⟩ := tail
  have hread : ∀ (w : UInt32) (t : List Byte), rd32 (le32 w ++ t) = w := rd32_le32_append
  have hdrop : ∀ (k : ℕ) (w : UInt32) (t : List Byte), (le32 w ++ t).drop (4 + k) = t.drop k := by
    intro k w t
    rw [← List.drop_drop, List.drop_left' (show (le32 w).length = 4 from rfl)]
  have h4 : ∀ (w : UInt32) (t : List Byte), (le32 w ++ t).drop 4 = t := hdrop 0
  have h8 : ∀ (w : UInt32) (t : List Byte), (le32 w ++ t).drop 8 = t.drop 4 := hdrop 4
  have h12 : ∀ (w : UInt32) (t : List Byte), (le32 w ++ t).drop 12 = t.drop 8 := hdrop 8
  have h16 : ∀ (w : UInt32) (t : List Byte), (le32 w ++ t).drop 16 = t.drop 12 := hdrop 12
  simp only [Tail.read, Tail.bytes, leWords, List.flatMap_cons, h4, h8, h12, h16, hread]

lemma Tail.bytes_read {bs : List Byte} (h : bs.length = tailSize) : (Tail.read bs).bytes = bs := by
  have h20 : tailSize = 20 := rfl
  have hword : ∀ k, k + 4 ≤ 20 → le32 (rd32 (bs.drop k)) = (bs.drop k).take 4 := by
    intro k hk
    have hfour : ((bs.drop k).take 4).length = 4 := by
      rw [List.length_take, List.length_drop]
      omega
    have hput := put32_get32 .little hfour
    rw [get32_take_four] at hput
    exact hput
  have hsplit : ∀ k, k + 4 ≤ 20 → le32 (rd32 (bs.drop k)) ++ bs.drop (k + 4) = bs.drop k := by
    intro k hk
    rw [hword k hk, ← List.drop_drop, List.take_append_drop]
  have hlast : bs.drop 20 = [] := List.drop_eq_nil_of_le (by omega)
  have h16 := hsplit 16 (by omega)
  have h12 := hsplit 12 (by omega)
  have h8 := hsplit 8 (by omega)
  have h4 := hsplit 4 (by omega)
  have h0 := hsplit 0 (by omega)
  simp only [Nat.reduceAdd, hlast, List.drop_zero] at h16 h12 h8 h4 h0
  simp only [Tail.read, Tail.bytes, leWords, List.flatMap_cons, List.flatMap_nil]
  rw [h16, h12, h8, h4, h0]

end Parts

/-! ## One renaming -/

section Rename

variable {host : Endian} {fp old new : List Byte} {info info' : Info} {e n k : ℕ}

/-- A file that is renamed: it is accepted, and the search comes to an entry in front of the tail. -/
structure Target (host : Endian) (fp : List Byte) (info : Info) (old : List Byte) (k : ℕ) :
    Prop where
  accepted : Accepted fp info
  moves : Moves host fp old info.bootfs_offset
  reached : Reached host fp old info.bootfs_offset k
  named : Named host fp old (place host fp info.bootfs_offset k)
  front : InFront host fp info k

/-- The place of the entry. -/
abbrev entryAt (host : Endian) (fp : List Byte) (info : Info) (k : ℕ) : ℕ :=
  place host fp info.bootfs_offset k

/-- The size of its name. -/
abbrev nameSize (host : Endian) (fp : List Byte) (info : Info) (k : ℕ) : ℕ :=
  nsizeAt fp (entryAt host fp info k)

lemma Target.fits (h : Target host fp info old k) :
    Fits fp info (entryAt host fp info k) (nameSize host fp info k) := by
  have hord := h.accepted.ordered
  have htail := h.accepted.tail_offset
  have hle := tailOf_le h.accepted.size
  exact ⟨by omega, h.front.entries k le_rfl h.named.dirent,
    by have := hord.cferom; have := hord.bootfs; have := hord.rootfs; omega⟩

lemma Target.bootfs_le (h : Target host fp info old k) :
    info.bootfs_offset ≤ entryAt host fp info k := by
  exact le_trans (Nat.le_add_right _ _) (h.moves.place_add h.reached)

lemma Target.text (h : Target host fp info old k) (hsize : nameSize host fp info k ≤ old.length + 1) :
    fread fp (entryAt host fp info k + 40) (nameSize host fp info k) =
      entryText old (nameSize host fp info k) := by
  have hlen := length_fread h.named.inside
  have heq := eq_entryText h.named.name (by rw [nameAt, hlen]; exact hsize)
  rw [nameAt, hlen] at heq
  exact heq

lemma Target.tail_cases (h : Target host fp info old k) :
    ¬HasLinksys fp ∧ info.tail_offset = fp.length - tailSize ∨
      HasLinksys fp ∧ info.tail_offset + tailSize + linksysSize = fp.length := by
  have hsize := h.accepted.size
  have h20 : tailSize = 20 := rfl
  have h256 : linksysSize = 256 := rfl
  rw [h.accepted.tail_offset, tailOf]
  by_cases hl : HasLinksys fp
  · rw [if_pos hl]
    exact .inr ⟨hl, by omega⟩
  · rw [if_neg hl]
    exact .inl ⟨hl, rfl⟩

variable (host new) in
/-- The file after the renaming. -/
abbrev after (fp : List Byte) (info : Info) (k : ℕ) : List Byte :=
  rewritten host fp info new (entryAt host fp info k) (nameSize host fp info k)

variable (host new) in
/-- The tail that is written. -/
abbrev tailAfter (fp : List Byte) (info : Info) (k : ℕ) : Tail :=
  { info.tail with
    crc32 := patchedCrc host fp info new (entryAt host fp info k) (nameSize host fp info k) }

variable (host new) in
/-- The file with the new name and the old tail. -/
abbrev between (fp : List Byte) (info : Info) (k : ℕ) : List Byte :=
  patched host fp new (entryAt host fp info k) (nameSize host fp info k)

lemma Target.after_front (h : Target host fp info old k)
    (hsize : nameSize host fp info k ≤ new.length + 1) :
    SameUpTo (after host new fp info k) fp (entryAt host fp info k + 36) := by
  have hentry := h.fits.entry
  have htail := h.fits.tail
  exact fun i hi => rewritten_outside h.fits hsize (.inl hi) (by omega)

lemma Target.patched_front (h : Target host fp info old k)
    (hsize : nameSize host fp info k ≤ new.length + 1) :
    SameUpTo (between host new fp info k) fp (entryAt host fp info k + 36) := by
  have hentry := h.fits.entry
  have htail := h.fits.tail
  exact fun i hi => patched_outside _ hsize (by omega) (.inl hi)

/-- The names in front of the entry, in the file and in the one without a new tail. -/
lemma Target.named_iff (h : Target host fp info old k)
    (hsize : nameSize host fp info k ≤ new.length + 1) {j : ℕ} (hj : j < k) :
    Named host (after host new fp info k) new
        (place host (after host new fp info k) info.bootfs_offset j) ↔
      Named host (between host new fp info k) new (place host fp info.bootfs_offset j) := by
  have hentry := h.fits.entry
  have htail := h.fits.tail
  have hlt : place host fp info.bootfs_offset j + 4 ≤ entryAt host fp info k :=
    h.moves.place_lt h.reached hj
  have hlen := length_rewritten host h.fits hsize
  have hlen' := length_patched host hsize
    (show entryAt host fp info k + 40 + nameSize host fp info k ≤ fp.length by omega)
  rw [chain_congr hlen h.moves h.reached (h.after_front hsize) j hj.le]
  have hnode := node_congr host hlen' (h.patched_front hsize) (.inl hlt)
  refine named_congr (T := info.tail_offset) (hlen.trans hlen'.symm)
    ((rewritten_front _ h.fits hsize).mono (by omega)) (by omega) fun hd => ?_
  rw [hnode.2.2.1]
  exact h.front.entries j hj.le (hnode.2.1.mp hd)

lemma Target.mv_iff (h : Target host fp info old k) (hlen : new.length = old.length)
    (hsize : nameSize host fp info k ≤ new.length + 1) {out : Except Errno Unit × List Byte} :
    Mv host fp info old new out ↔ (.ok (), after host new fp info k) = out := by
  rw [mv_found_iff hlen h.reached h.named, rewriteEntry_eq h.fits hsize, Except.ok.injEq]

lemma Target.crc_after (h : Target host fp info old k)
    (hsize : nameSize host fp info k ≤ new.length + 1) :
    bcm4908img_crc32 0xffffffff (fread (after host new fp info k) info.cferom_offset
      (info.tail_offset - info.cferom_offset)) =
    patchedCrc host fp info new (entryAt host fp info k) (nameSize host fp info k) := by
  have htail := h.fits.tail
  have hle := h.fits.cferom
  rw [patchedCrc, (rewritten_front _ h.fits hsize).fread (by omega)]

lemma Target.named_after (h : Target host fp info old k) (h0 : 0 ∉ new)
    (hlen : new.length = old.length) (hsize : nameSize host fp info k ≤ new.length + 1) :
    Named host (after host new fp info k) new (entryAt host fp info k) := by
  have hentry := h.fits.entry
  have htail := h.fits.tail
  have hlength := length_rewritten host h.fits hsize
  obtain ⟨hnode, hdirent, hnsize, -⟩ :=
    node_congr host hlength (h.after_front hsize) (.inr rfl)
  refine ⟨hnode.mpr h.named.node, hdirent.mpr h.named.dirent, ?_, ?_⟩
  · rw [hnsize, hlength]
    exact h.named.inside
  · have hmin : old.length ≤ nameSize host fp info k := h.named.length_le
    have hin : entryAt host fp info k + 40 + nameSize host fp info k ≤ fp.length - tailSize := by
      omega
    rw [nameAt, hnsize, (rewritten_front _ h.fits hsize).fread hin, patched_text _ hsize (by omega),
      cstring_entryText h0 (by omega)]

/-- The file after the renaming is a target itself if no entry in front has the new name. -/
lemma Target.back (h : Target host fp info old k) (h0 : 0 ∉ new) (hlen : new.length = old.length)
    (hsize : nameSize host fp info k ≤ new.length + 1)
    (hacc : Accepted (after host new fp info k) info') (hoff : SameOffsets info info')
    (hnew : ∀ j < k, ¬Named host (after host new fp info k) new
      (place host (after host new fp info k) info.bootfs_offset j)) :
    Target host (after host new fp info k) info' new k ∧
      entryAt host (after host new fp info k) info' k = entryAt host fp info k ∧
      nameSize host (after host new fp info k) info' k = nameSize host fp info k := by
  obtain ⟨-, hboot, -, hroot, htail⟩ := hoff
  have hlength := length_rewritten host h.fits hsize
  have hsame := h.after_front hsize
  have hchain := chain_congr hlength h.moves h.reached hsame
  have hreached := reached_congr hlength h.moves h.reached hsame hnew
  have hnode : ∀ j ≤ k, (IsDirent host (after host new fp info k) (place host fp info.bootfs_offset j) ↔
      IsDirent host fp (place host fp info.bootfs_offset j)) ∧
      nsizeAt (after host new fp info k) (place host fp info.bootfs_offset j) =
        nsizeAt fp (place host fp info.bootfs_offset j) := by
    intro j hj
    have hoff : place host fp info.bootfs_offset j + 4 ≤ entryAt host fp info k ∨
        place host fp info.bootfs_offset j = entryAt host fp info k := by
      rcases Nat.lt_or_eq_of_le hj with hlt | rfl
      · exact .inl (h.moves.place_lt h.reached hlt)
      · exact .inr rfl
    have hcongr := node_congr host hlength hsame hoff
    exact ⟨hcongr.2.1, hcongr.2.2.1⟩
  have hplace : entryAt host (after host new fp info k) info' k = entryAt host fp info k := by
    rw [entryAt, hboot, hchain k le_rfl]
  have hnamed : Named host (after host new fp info k) new
      (place host (after host new fp info k) info.bootfs_offset k) := by
    rw [hchain k le_rfl]
    exact h.named_after h0 hlen hsize
  refine ⟨⟨hacc, ?_, ?_, ?_, ?_⟩, hplace, ?_⟩
  · rw [hboot]
    intro j hj
    -- the search does not come behind the entry
    have hjk : j < k := by
      by_contra hge
      exact (hj k (by omega)).not_named hnamed
    have hlt : place host fp info.bootfs_offset j + 4 ≤ entryAt host fp info k :=
      h.moves.place_lt h.reached hjk
    have hnext : stepAt host (after host new fp info k) (place host fp info.bootfs_offset j) =
        stepAt host fp (place host fp info.bootfs_offset j) :=
      Nat.add_left_cancel (node_congr host hlength hsame (.inl hlt)).2.2.2
    rw [hchain j hjk.le, hnext]
    exact h.moves j fun i hi => h.reached i (by omega)
  · rw [hboot]
    exact hreached
  · rw [hboot]
    exact hnamed
  · refine ⟨by rw [hroot, htail]; exact h.front.ubi, fun j hj hd => ?_⟩
    rw [hboot, hchain j hj] at hd ⊢
    rw [htail, (hnode j hj).2]
    exact h.front.entries j hj ((hnode j hj).1.mp hd)
  · rw [nameSize, hplace, (hnode k le_rfl).2]

/-! ## Back again -/

lemma Target.patched_back (h : Target host fp info old k) (hlen : new.length = old.length)
    (hsize : nameSize host fp info k ≤ old.length + 1)
    (hcrc : fread fp (entryAt host fp info k + 36) 4 =
      entryCrc host old (nameSize host fp info k)) :
    SameUpTo (patched host (after host new fp info k) old (entryAt host fp info k)
      (nameSize host fp info k)) fp (fp.length - tailSize) := by
  have hentry := h.fits.entry
  have htail := h.fits.tail
  have hsize' : nameSize host fp info k ≤ new.length + 1 := by omega
  have hlength : (after host new fp info k).length = fp.length := length_rewritten _ h.fits hsize'
  have hin : entryAt host fp info k + 40 + nameSize host fp info k ≤
      (after host new fp info k).length := by omega
  intro i hi
  by_cases hcrcpart : entryAt host fp info k + 36 ≤ i ∧ i < entryAt host fp info k + 40
  · have heq := fread_eq_iff.mp ((patched_crc host hsize hin).trans hcrc.symm)
      (i - (entryAt host fp info k + 36)) (by omega)
    rwa [Nat.add_sub_of_le hcrcpart.1] at heq
  by_cases htext : entryAt host fp info k + 40 ≤ i ∧
      i < entryAt host fp info k + 40 + nameSize host fp info k
  · have heq := fread_eq_iff.mp ((patched_text host hsize hin).trans (h.text hsize).symm)
      (i - (entryAt host fp info k + 40)) (by omega)
    rwa [Nat.add_sub_of_le htext.1] at heq
  rw [patched_outside _ hsize hin (by omega), rewritten_outside h.fits hsize' (by omega) hi]

/-- The tail that is read from the file after the renaming, with the checksum of the old file, has the
bytes that end the old file. -/
lemma Target.tail_back (h : Target host fp info old k)
    (hsize : nameSize host fp info k ≤ new.length + 1)
    (hlinksys : HasLinksys fp → fread fp (fp.length - tailSize) tailSize = info.tail.bytes) :
    Tail.bytes { Tail.read (fread (after host new fp info k) info.tail_offset tailSize) with
      crc32 := info.crc32 } = fread fp (fp.length - tailSize) tailSize := by
  have htail := h.fits.tail
  have hentry := h.fits.entry
  have hread : (fread fp info.tail_offset tailSize).length = tailSize := length_fread htail
  have hvalid : ({ info.tail with crc32 := info.crc32 } : Tail) = info.tail := by
    rw [h.accepted.valid]
  rcases h.tail_cases with ⟨-, hT⟩ | ⟨hl, hT⟩
  · rw [hT, rewritten_tail _ h.fits hsize, Tail.read_bytes]
    dsimp only
    rw [hvalid, h.accepted.tail, hT, Tail.bytes_read (hT ▸ hread)]
  · have hsame : fread (after host new fp info k) info.tail_offset tailSize =
        fread fp info.tail_offset tailSize := by
      refine fread_eq_iff.mpr fun i hi => ?_
      have h20 : tailSize = 20 := rfl
      have h256 : linksysSize = 256 := rfl
      exact rewritten_outside h.fits hsize (.inr (by omega)) (by omega)
    rw [hsame, ← h.accepted.tail, hvalid, hlinksys hl]

/-- Renaming back restores the file. -/
lemma Target.restored (h : Target host fp info old k) (hlen : new.length = old.length)
    (hsize : nameSize host fp info k ≤ old.length + 1)
    (hcrc : fread fp (entryAt host fp info k + 36) 4 = entryCrc host old (nameSize host fp info k))
    (hlinksys : HasLinksys fp → fread fp (fp.length - tailSize) tailSize = info.tail.bytes)
    (hacc : Accepted (after host new fp info k) info') (hoff : SameOffsets info info') :
    rewritten host (after host new fp info k) info' old (entryAt host fp info k)
      (nameSize host fp info k) = fp := by
  obtain ⟨hcf, hboot, -, -, hT⟩ := hoff
  have hentry := h.fits.entry
  have htail := h.fits.tail
  have hle := h.fits.cferom
  have hsize' : nameSize host fp info k ≤ new.length + 1 := by omega
  have hlength : (after host new fp info k).length = fp.length := length_rewritten _ h.fits hsize'
  have hfits : Fits (after host new fp info k) info' (entryAt host fp info k)
      (nameSize host fp info k) := ⟨by omega, by omega, by omega⟩
  have hback := h.patched_back hlen hsize hcrc
  have hsum : patchedCrc host (after host new fp info k) info' old (entryAt host fp info k)
      (nameSize host fp info k) = info.crc32 := by
    rw [patchedCrc, hT, hcf, hback.fread (by omega), ← h.accepted.crc32]
  have hbytes := rewritten_tail host hfits hsize
  rw [hsum, hacc.tail, hT, h.tail_back hsize' hlinksys, hlength] at hbytes
  have hend := fread_eq_iff.mp hbytes
  refine List.ext_getElem? fun i => ?_
  rcases Nat.lt_or_ge i (fp.length - tailSize) with hi | hi
  · have hfront := rewritten_front host hfits hsize i (by omega)
    rw [hfront, hback i hi]
  · rcases Nat.lt_or_ge i fp.length with hlt | hge
    · have heq := hend (i - (fp.length - tailSize)) (by omega)
      rwa [Nat.add_sub_of_le hi] at heq
    · rw [List.getElem?_eq_none (by rw [length_rewritten _ hfits hsize]; omega),
        List.getElem?_eq_none hge]

/-! ## What is asked for -/

lemma Target.fread_tail (h : Target host fp info old k)
    (hsize : nameSize host fp info k ≤ new.length + 1) (hl : HasLinksys fp) :
    fread (after host new fp info k) info.tail_offset tailSize =
      fread fp info.tail_offset tailSize := by
  have hentry := h.fits.entry
  have h20 : tailSize = 20 := rfl
  have h256 : linksysSize = 256 := rfl
  rcases h.tail_cases with ⟨hnot, -⟩ | ⟨-, hT⟩
  · exact absurd hl hnot
  · exact fread_eq_iff.mpr fun i hi =>
      rewritten_outside h.fits hsize (.inr (by omega)) (by omega)

lemma Target.valid_iff (h : Target host fp info old k)
    (hsize : nameSize host fp info k ≤ new.length + 1) :
    bcm4908img_crc32 0xffffffff (fread (after host new fp info k) info.cferom_offset
        (info.tail_offset - info.cferom_offset)) =
      (Tail.read (fread (after host new fp info k) info.tail_offset tailSize)).crc32 ↔
    (HasLinksys fp → patchedCrc host fp info new (entryAt host fp info k)
      (nameSize host fp info k) = info.crc32) := by
  rw [h.crc_after hsize]
  rcases h.tail_cases with ⟨hnot, hT⟩ | ⟨hl, -⟩
  · rw [hT, rewritten_tail _ h.fits hsize, Tail.read_bytes]
    exact iff_of_true rfl fun hl => absurd hl hnot
  · rw [h.fread_tail hsize hl, ← h.accepted.tail, ← h.accepted.valid]
    exact ⟨fun heq _ => heq, fun heq => heq hl⟩

/-- Only the entry and the checksum change exactly if the bytes of the tail are already there. -/
lemma Target.changed_iff (h : Target host fp info old k)
    (hsize : nameSize host fp info k ≤ new.length + 1) :
    ChangedOnly fp (after host new fp info k) (entryAt host fp info k) (nameSize host fp info k)
        info.tail_offset ↔
      (HasLinksys fp → fread fp (fp.length - tailSize) tailSize =
        (tailAfter host new fp info k).bytes) := by
  have htail := h.fits.tail
  have hentry := h.fits.entry
  have h20 : tailSize = 20 := rfl
  have h256 : linksysSize = 256 := rfl
  have hlength : (after host new fp info k).length = fp.length := length_rewritten _ h.fits hsize
  rcases h.tail_cases with ⟨hnot, hT⟩ | ⟨hl, hT⟩
  · refine iff_of_true ⟨hlength, fun i hout hcrc => ?_⟩ fun hl => absurd hl hnot
    rcases Nat.lt_or_ge i (fp.length - tailSize) with hi | hi
    · exact rewritten_outside h.fits hsize (by omega) hi
    rcases Nat.lt_or_ge i fp.length with hlt | hge
    · -- behind the checksum the tail is written as it was read
      have hold : fread fp (fp.length - tailSize) tailSize = info.tail.bytes := by
        rw [h.accepted.tail, hT, Tail.bytes_read (length_fread (by omega))]
      have hdrop : (fread (after host new fp info k) (fp.length - tailSize) tailSize).drop 4 =
          (fread fp (fp.length - tailSize) tailSize).drop 4 := by
        rw [rewritten_tail _ h.fits hsize, hold]
        rfl
      rw [drop_fread, drop_fread] at hdrop
      have heq := fread_eq_iff.mp hdrop (i - (fp.length - tailSize + 4)) (by omega)
      rwa [Nat.add_sub_of_le (by omega)] at heq
    · rw [List.getElem?_eq_none (by omega), List.getElem?_eq_none hge]
  · constructor
    · rintro ⟨-, hsame⟩ -
      rw [← rewritten_tail _ h.fits hsize]
      exact fread_eq_iff.mpr fun i hi => (hsame _ (by omega) (by omega)).symm
    · intro heq
      refine ⟨hlength, fun i hout _ => ?_⟩
      rcases Nat.lt_or_ge i (fp.length - tailSize) with hi | hi
      · exact rewritten_outside h.fits hsize (by omega) hi
      rcases Nat.lt_or_ge i fp.length with hlt | hge
      · have hbytes := fread_eq_iff.mp ((rewritten_tail host h.fits hsize).trans (heq hl).symm)
          (i - (fp.length - tailSize)) (by omega)
        rwa [Nat.add_sub_of_le hi] at hbytes
      · rw [List.getElem?_eq_none (by omega), List.getElem?_eq_none hge]

lemma Target.tail_iff (h : Target host fp info old k) :
    (HasLinksys fp → patchedCrc host fp info new (entryAt host fp info k)
        (nameSize host fp info k) = info.crc32) ∧
      (HasLinksys fp → fread fp (fp.length - tailSize) tailSize =
        (tailAfter host new fp info k).bytes) ↔
    (HasLinksys fp → fread fp (fp.length - tailSize) tailSize = info.tail.bytes ∧
      patchedCrc host fp info new (entryAt host fp info k) (nameSize host fp info k) =
        info.crc32) := by
  have hvalid : ({ info.tail with crc32 := info.crc32 } : Tail) = info.tail := by
    rw [h.accepted.valid]
  constructor
  · rintro ⟨hcrc, hbytes⟩ hl
    have heq := hbytes hl
    rw [tailAfter, hcrc hl, hvalid] at heq
    exact ⟨heq, hcrc hl⟩
  · intro hall
    refine ⟨fun hl => (hall hl).2, fun hl => ?_⟩
    rw [tailAfter, (hall hl).2, hvalid]
    exact (hall hl).1

lemma Target.parts_iff (h : Target host fp info old k)
    (hsize : nameSize host fp info k ≤ new.length + 1) :
    SameParts fp (after host new fp info k) info ↔ SameParts fp (between host new fp info k) info := by
  have hentry := h.fits.entry
  have htail := h.fits.tail
  have hubi := h.front.ubi
  have hbig := h.accepted.size
  have hlength : (after host new fp info k).length = fp.length := length_rewritten _ h.fits hsize
  have hlength' : (between host new fp info k).length = fp.length :=
    length_patched _ hsize (by omega)
  have hsame := rewritten_front host h.fits hsize
  constructor
  · exact sameParts_congr (by omega) (by omega) (by rw [hlength']; exact hsame) (by omega)
  · exact sameParts_congr (by omega) (by omega) (by rw [hlength]; exact hsame.symm) (by omega)

/-- The renaming of an entry in front of the tail is right exactly if the entry can be renamed. -/
lemma Target.renamed_iff (h : Target host fp info old k) (h0 : 0 ∉ new)
    (hlen : new.length = old.length) (hsize : nameSize host fp info k ≤ old.length + 1) :
    Renamed host fp info old new (after host new fp info k) k ↔
      EntrySafe host fp info old new k (entryAt host fp info k) (nameSize host fp info k) := by
  have hsize' : nameSize host fp info k ≤ new.length + 1 := by omega
  have hlength : (after host new fp info k).length = fp.length := length_rewritten _ h.fits hsize'
  constructor
  · rintro ⟨-, hchanged, info', hparse, hoff, hback⟩
    have hacc := parse_ok_iff.mp hparse
    have hbytes := (h.changed_iff hsize').mp hchanged
    have hcrc := (h.valid_iff hsize').mp (by
      have hv := hacc.valid
      rwa [hacc.crc32, hacc.tail, hoff.1, hoff.2.2.2.2] at hv)
    refine ⟨hsize, (h.parts_iff hsize').mp (sameParts_of_accepted h.accepted hacc hoff hlength),
      h.tail_iff.mp ⟨hcrc, hbytes⟩, fun hnew => ?_⟩
    have hnew' : ∀ j < k, ¬Named host (after host new fp info k) new
        (place host (after host new fp info k) info.bootfs_offset j) := by
      intro j hj hnamed
      exact hnew j hj ((h.named_iff hsize' hj).mp hnamed)
    obtain ⟨hb, he, hn⟩ := h.back h0 hlen hsize' hacc hoff hnew'
    have hmv := (hb.mv_iff hlen.symm (by rw [hn]; exact hsize)).mp (hback hnew')
    rw [Prod.mk.injEq, after, he, hn] at hmv
    -- what is written back is the checksum of the old name
    have hfits := hb.fits
    rw [he, hn] at hfits
    have hentry := hfits.entry
    have htail := hfits.tail
    have hin : entryAt host fp info k + 36 + 4 ≤ (after host new fp info k).length - tailSize := by
      omega
    have hread := (rewritten_front host hfits hsize).fread hin
    rw [patched_crc _ hsize (by omega), hmv.2] at hread
    exact hread
  · intro hsafe
    have htails := h.tail_iff.mpr hsafe.tail
    have hparts := (h.parts_iff hsize').mpr hsafe.parts
    have hboot := h.bootfs_le
    have hacc := accepted_of_sameParts h.accepted hparts hlength
      ((h.after_front hsize').mono (by omega)) ((h.valid_iff hsize').mpr htails.1)
    refine ⟨⟨fun j hj => (h.reached j hj).node, fun j hj => (h.reached j hj).not_named, h.named⟩,
      (h.changed_iff hsize').mpr htails.2, _, parse_ok_iff.mpr hacc, ⟨rfl, rfl, rfl, rfl, rfl⟩,
      fun hnew => ?_⟩
    obtain ⟨hb, he, hn⟩ := h.back h0 hlen hsize' hacc ⟨rfl, rfl, rfl, rfl, rfl⟩ hnew
    refine (hb.mv_iff hlen.symm (by rw [hn]; exact hsize)).mpr ?_
    rw [Prod.mk.injEq, after, he, hn]
    refine ⟨rfl, h.restored hlen hsize (hsafe.name_crc fun j hj hnamed => ?_)
      (fun hl => (hsafe.tail hl).1) hacc ⟨rfl, rfl, rfl, rfl, rfl⟩⟩
    exact hnew j hj ((h.named_iff hsize' hj).mpr hnamed)

end Rename

lemma FirstNamed.eq {host : Endian} {fp old : List Byte} {start k k' : ℕ}
    (h : FirstNamed host fp old start k') (hreached : Reached host fp old start k)
    (hnamed : Named host fp old (place host fp start k)) : k' = k := by
  rcases Nat.lt_trichotomy k' k with hlt | heq | hlt
  · exact absurd h.named (hreached k' hlt).not_named
  · exact heq
  · exact absurd hnamed (h.before k hlt)

/-- An image of a node of length 0 and a rootfs. -/
def emptyNode : List Byte := bcm4908img_create [.file (plain 0)]

lemma parse_emptyNode : ∃ info, bcm4908img_parse emptyNode = .ok info := by
  have htrx : (created [.file (plain 0)]).trx = plain 0 := Creation.append_file_trx _ _
  exact (parse_create_iff (creatable_plain htrx)).mpr createSafe_plain

lemma fread_emptyNode {off n : ℕ} (h : off + n ≤ 0x20000) :
    fread emptyNode off n = fread (plain 0) off n := by
  have htrx : (created [.file (plain 0)]).trx = plain 0 := Creation.append_file_trx _ _
  have hlen := length_plain 0
  have hblock : block = 0x20000 := rfl
  rw [emptyNode, bcm4908img_create, htrx, fread_append_left (by omega)]

lemma fread_plain_zero : fread (plain 0) 0 12 = [0x85, 0x19, 0, 0, 0, 0, 0, 0, 0, 0, 0, 0] := by
  decide +kernel

lemma bootfs_emptyNode {info : Info} (h : bcm4908img_parse emptyNode = .ok info) :
    info.bootfs_offset = 0 := by
  have hacc := parse_ok_iff.mp h
  have hread := (fread_emptyNode (show 0 + 12 ≤ 0x20000 by decide)).trans fread_plain_zero
  have hcferom : info.cferom_offset = 0 := by
    have hmagic : get32 .big (fread emptyNode 0 1024) = 0x85190000 := by
      have htake : get32 .big (fread emptyNode 0 1024) = get32 .big (fread emptyNode 0 12) := by
        rw [fread, fread, get32_take (by decide), get32_take (by decide)]
      rw [htake, hread]
      rfl
    rw [hacc.cferom, cferomOf, hmagic, if_neg (by decide)]
  obtain ⟨k, hk, -⟩ := hacc.bootfs
  have hjffs : IsJffs2 emptyNode 0 := by
    rw [IsJffs2, ← fread_take (show 2 ≤ 12 by decide), hread]
    rfl
  rw [hcferom] at hk
  have hfirst : FirstAt (IsJffs2 emptyNode) 0 0 0 := ⟨rfl, hjffs, by simp⟩
  exact (hfirst.unique hk).2.symm

end Bcm4908
