import Mt798x.Mikrotik.Lz77

/-!
# Unpacking the WLAN calibration data

The payload of the WLAN tag of hard_config comes in four shapes: raw RLE data, an ERD container
that holds an LZO blob behind a tag, and LZOR and LZ77 blobs that decompress to data in which the
ERD magic has to be searched for and behind it a tag with the RLE data.

The model of the unpacking routines keeps, besides the result, the list of all the places they
look at or hand to a decoder and of the subtractions they make on lengths.  Whether all of these
stay inside depends on a handful of lengths that the routines do not check.
-/

namespace Mikrotik.WlanData

open Bytes Lz77

def RB_MAGIC_LZOR : UInt32 := 0x524F5A4C
def RB_MAGIC_LZ77 : UInt32 := 0x4C5A3737
def RB_MAGIC_ERD : UInt32 := 0x00455244
def RB_WLAN_ERD_ID_SOLO : ℕ := 0x0001
def RB_ART_SIZE : ℕ := 0x10000

/-- `LZO_E_INPUT_NOT_CONSUMED` -/
def LZO_E_INPUT_NOT_CONSUMED : ℤ := -8

/-! ## The routines -/

/-- What a routine looks at: bytes of `hc_buf`, bytes of a decompressed block of some size, bytes
of `outbuf`, a subtraction `a - b` on a length. -/
inductive Access where
  | hc (ofs len : ℕ)
  | temp (size ofs len : ℕ)
  | out (ofs len : ℕ)
  | sub (a b : ℕ)
  deriving DecidableEq, Repr

/-- The access stays inside its block. -/
def Access.Inside (hc_buflen outlen : ℕ) : Access → Prop
  | .hc ofs len => ofs + len ≤ hc_buflen
  | .temp size ofs len => ofs + len ≤ size
  | .out ofs len => ofs + len ≤ outlen
  | .sub a b => b ≤ a

/-- The result of a routine and its accesses. -/
structure Run where
  rc : Except Errno (List Byte)
  acc : List Access

/-- Accesses in front of a run. -/
def Run.after (acc : List Access) (r : Run) : Run := { r with acc := acc ++ r.acc }

/-- The bytes a pointer and a length stand for. -/
def slice (buf : List Byte) (ofs len : ℕ) : List Byte := (buf.drop ofs).take len

/-- The loop of `routerboot_rle_decode`; a single byte at the end is ignored. -/
def rleLoop (outlen : ℕ) : ℕ → List Byte → List Byte → Except Errno (List Byte)
  | 0, _, out => .ok out
  | fuel + 1, inp, out =>
    match inp with
    | run :: byte :: rest =>
      if 0x80 ≤ run.toNat then
        let n := 256 - run.toNat
        if (byte :: rest).length < n then .error .ENOSPC
        else if outlen < out.length + n then .error .ENOSPC
        else rleLoop outlen fuel ((byte :: rest).drop n) (out ++ (byte :: rest).take n)
      else if outlen < out.length + run.toNat then .error .ENOSPC
      else rleLoop outlen fuel rest (out ++ List.replicate run.toNat byte)
    | _ => .ok out

/-- `routerboot_rle_decode` -/
def routerboot_rle_decode (inp : List Byte) (outlen : ℕ) : Except Errno (List Byte) :=
  if inp.length < 2 then .error .EINVAL else rleLoop outlen inp.length inp []

section Routines

variable (e : Endian) (lzo1x_decompress_safe : List Byte → ℕ → ℤ × List Byte)
  ( hc_lzor_prefix hc_buf : List Byte) (tag_id : ℕ)

/-- `hc_wlan_data_unpack_erd` on `inlen` bytes at offset `inbuf` of `hc_buf`. -/
def hc_wlan_data_unpack_erd (inbuf inlen outlen : ℕ) : Run :=
  let handed : List Access := [.hc inbuf inlen]
  match routerboot_tag_find e (hc_buf.drop inbuf) inlen tag_id with
  | some (.ok (lzo_ofs, lzo_len)) =>
    if inlen < lzo_len then ⟨.error .EINVAL, handed⟩
    else
      let (ret, out) := lzo1x_decompress_safe (slice hc_buf (inbuf + lzo_ofs) lzo_len) outlen
      ⟨if ret = 0 then .ok out else .error (.lzo ret),
        handed ++ [.hc (inbuf + lzo_ofs) lzo_len]⟩
  | some (.error err) => ⟨.error err, handed⟩
  | none => ⟨.error .EINVAL, handed⟩

/-- The search for `RB_MAGIC_ERD`: the accesses, and the offset behind the magic; `none` when it
has not ended after `fuel` words.  The warning prints the first word. -/
def search (temp : List Byte) : ℕ → ℕ → Option (List Access × Option ℕ)
  | 0, _ => none
  | fuel + 1, needle =>
    let here : Access := .temp temp.length needle 4
    if get32 e (temp.drop needle) = RB_MAGIC_ERD then some ([here], some (needle + 4))
    else if temp.length ≤ needle + 4 then some ([here, .temp temp.length 0 4], none)
    else (search temp fuel (needle + 4)).map fun r => (here :: r.1, r.2)

/-- `hc_wlan_data_unpack_lzor_lz77` from the decompressed block on. -/
def unpackTemp (temp : List Byte) (outlen : ℕ) : Run :=
  match search e temp (temp.length + 1) 0 with
  | none => ⟨.error .EINVAL, []⟩
  | some (acc, none) => ⟨.error .ENODATA, acc⟩
  | some (acc, some needle) =>
    let templen := temp.length - needle
    let handed : List Access := [.sub temp.length needle, .temp temp.length needle templen]
    Run.after acc <|
      match routerboot_tag_find e (temp.drop needle) templen tag_id with
      | some (.ok (rle_ofs, rle_len)) =>
        if templen < rle_len then ⟨.error .EINVAL, handed⟩
        else
          ⟨routerboot_rle_decode (slice temp (needle + rle_ofs) rle_len) outlen,
            handed ++ [.temp temp.length (needle + rle_ofs) rle_len]⟩
      | some (.error err) => ⟨.error err, handed⟩
      | none => ⟨.error .EINVAL, handed⟩

/-- The decompressed block of an LZOR blob; `LZO_E_INPUT_NOT_CONSUMED` is ignored. -/
def lzorTemp (inbuf inlen outlen : ℕ) : Except Errno (List Byte) :=
  let (ret, temp) := lzo1x_decompress_safe ( hc_lzor_prefix ++ slice hc_buf inbuf inlen) outlen
  if ret ≠ 0 ∧ ret ≠ LZO_E_INPUT_NOT_CONSUMED then .error (.lzo ret) else .ok temp

/-- The decompressed block of an LZ77 blob.  Where the decoder itself leaves its buffers the run
ends here. -/
def lz77Temp (inbuf inlen outlen : ℕ) : Except Errno (List Byte) :=
  match rb_lz77_decompress (slice hc_buf inbuf inlen) outlen with
  | some (.ret rc) => rc
  | _ => .error .EINVAL

/-- `hc_wlan_data_unpack_lzor_lz77` on `inlen` bytes at offset `inbuf` of `hc_buf`. -/
def hc_wlan_data_unpack_lzor_lz77 (inbuf inlen outlen : ℕ) (magic : UInt32) : Run :=
  let lzo_len := if magic = RB_MAGIC_LZOR then inlen + hc_lzor_prefix.length else inlen
  if outlen < lzo_len then ⟨.error .EFBIG, []⟩
  else if magic = RB_MAGIC_LZOR then
    Run.after [.hc inbuf inlen, .out 0 lzo_len] <|
      match lzorTemp lzo1x_decompress_safe hc_lzor_prefix hc_buf inbuf inlen outlen with
      | .error err => ⟨.error err, []⟩
      | .ok temp => unpackTemp e tag_id temp outlen
  else if magic = RB_MAGIC_LZ77 then
    Run.after [.hc inbuf inlen] <|
      match lz77Temp hc_buf inbuf inlen outlen with
      | .error err => ⟨.error err, []⟩
      | .ok temp => unpackTemp e tag_id temp outlen
  else ⟨.error .EINVAL, []⟩

/-- `hc_wlan_data_unpack` of the `tlen` bytes at offset `tofs`. -/
def hc_wlan_data_unpack (tofs tlen outlen : ℕ) : Run :=
  if hc_buf.length < tofs + tlen then ⟨.error Errno.EIO, []⟩
  else
    let magic := get32 e (hc_buf.drop tofs)
    Run.after [.hc tofs 4] <|
      if magic = RB_MAGIC_LZ77 ∧ tag_id = RB_WLAN_ERD_ID_SOLO then ⟨.error .ENODATA, []⟩
      else if magic = RB_MAGIC_LZ77 ∨ magic = RB_MAGIC_LZOR then
        Run.after [.sub tlen 4] <|
          hc_wlan_data_unpack_lzor_lz77 e lzo1x_decompress_safe hc_lzor_prefix hc_buf tag_id
            (tofs + 4) (tlen - 4) outlen magic
      else if magic = RB_MAGIC_ERD then
        Run.after [.sub tlen 4] <|
          hc_wlan_data_unpack_erd e lzo1x_decompress_safe hc_buf tag_id (tofs + 4) (tlen - 4)
            outlen
      else if tag_id = RB_WLAN_ERD_ID_SOLO then
        ⟨routerboot_rle_decode (slice hc_buf tofs tlen) outlen, [.hc tofs tlen]⟩
      else ⟨.error .ENODATA, []⟩

end Routines

/-- All accesses of a run stay inside. -/
def Run.Inside (hc_buflen outlen : ℕ) (r : Run) : Prop := ∀ a ∈ r.acc, a.Inside hc_buflen outlen

/-! ## What has to be true of the lengths -/

/-- The tag that is found has a payload that ends within `room` bytes, or one that the routine
turns down for being longer than `buflen`. -/
def PayloadInside (e : Endian) (tag_id : ℕ) (buf : List Byte) (buflen room : ℕ) : Prop :=
  ∀ ofs len, routerboot_tag_find e buf buflen tag_id = some (.ok (ofs, len)) → len ≤ buflen →
    ofs + len ≤ room

/-- The `j`-th word of a block is whole and the ERD magic. -/
def ErdAt (e : Endian) (temp : List Byte) (j : ℕ) : Prop :=
  4 * j + 4 ≤ temp.length ∧ get32 e (temp.drop (4 * j)) = RB_MAGIC_ERD

/-- A decompressed block that is unpacked inside: it has a first word, it has the ERD magic in a
whole word or consists of whole words, and behind the first ERD magic the payload of the tag ends
inside the block. -/
def BlockInside (e : Endian) (tag_id : ℕ) (temp : List Byte) : Prop :=
  4 ≤ temp.length ∧ ((∃ j, ErdAt e temp j) ∨ temp.length % 4 = 0) ∧
  ∀ j, ErdAt e temp j → (∀ i < j, ¬ ErdAt e temp i) →
    PayloadInside e tag_id (temp.drop (4 * j + 4)) (temp.length - (4 * j + 4))
      (temp.length - (4 * j + 4))

/-- The `tlen` bytes at offset `tofs` are unpacked inside: they are turned down at once, or the
magic lies inside `hc_buf`, a container has room for its magic, and what it holds is unpacked
inside. -/
def Placed (e : Endian) (lzo1x_decompress_safe : List Byte → ℕ → ℤ × List Byte)
    ( hc_lzor_prefix hc_buf : List Byte) (tag_id tofs tlen outlen : ℕ) : Prop :=
  hc_buf.length < tofs + tlen ∨
  (tofs + 4 ≤ hc_buf.length ∧
    (get32 e (hc_buf.drop tofs) = RB_MAGIC_LZ77 → tag_id ≠ RB_WLAN_ERD_ID_SOLO →
      4 ≤ tlen ∧ (tlen - 4 ≤ outlen →
        ∀ temp, lz77Temp hc_buf (tofs + 4) (tlen - 4) outlen = .ok temp →
          BlockInside e tag_id temp)) ∧
    (get32 e (hc_buf.drop tofs) = RB_MAGIC_LZOR →
      4 ≤ tlen ∧ (tlen - 4 + hc_lzor_prefix.length ≤ outlen →
        ∀ temp, lzorTemp lzo1x_decompress_safe hc_lzor_prefix hc_buf (tofs + 4) (tlen - 4) outlen =
          .ok temp → BlockInside e tag_id temp)) ∧
    (get32 e (hc_buf.drop tofs) = RB_MAGIC_ERD →
      4 ≤ tlen ∧ PayloadInside e tag_id (hc_buf.drop (tofs + 4)) (tlen - 4)
        (hc_buf.length - (tofs + 4))))

/-! ## The search -/

section Search

variable {e : Endian} {temp : List Byte} (hc_buflen outlen : ℕ)

lemma search_found {j : ℕ} (hj : ErdAt e temp j) (hfirst : ∀ i < j, ¬ ErdAt e temp i) {i fuel : ℕ}
    (hij : i ≤ j) (hfuel : j - i < fuel) :
    ∃ acc, search e temp fuel (4 * i) = some (acc, some (4 * j + 4)) ∧
      ∀ a ∈ acc, a.Inside hc_buflen outlen := by
  induction fuel generalizing i with
  | zero => omega
  | succ fuel ih =>
    have hlen := hj.1
    have hhere : (Access.temp temp.length (4 * i) 4).Inside hc_buflen outlen := by
      show 4 * i + 4 ≤ temp.length
      omega
    rw [search]
    by_cases hm : get32 e (temp.drop (4 * i)) = RB_MAGIC_ERD
    · have heq : i = j := by
        by_contra hne
        exact hfirst i (by omega) ⟨by omega, hm⟩
      rw [if_pos hm, heq]
      refine ⟨_, rfl, ?_⟩
      rw [heq] at hhere
      simpa using hhere
    · have hne : i ≠ j := by
        rintro rfl
        exact hm hj.2
      have hstep : 4 * i + 4 = 4 * (i + 1) := by ring
      rw [if_neg hm, if_neg (by omega), hstep]
      obtain ⟨acc, hacc, hin⟩ := ih (by omega : i + 1 ≤ j) (by omega)
      refine ⟨_, by rw [hacc]; rfl, ?_⟩
      intro a ha
      rcases List.mem_cons.mp ha with rfl | ha
      · exact hhere
      · exact hin a ha

/-- Without a magic the search ends with the block, inside it exactly when the block consists of
whole words. -/
lemma search_missing (hno : ∀ j, ¬ ErdAt e temp j) (hpos : 4 ≤ temp.length) {i fuel : ℕ}
    (hi : 4 * i < temp.length) (hfuel : temp.length - 4 * i < fuel) (hmod : temp.length % 4 = 0) :
    ∃ acc, search e temp fuel (4 * i) = some (acc, none) ∧
      ∀ a ∈ acc, a.Inside hc_buflen outlen := by
  induction fuel generalizing i with
  | zero => omega
  | succ fuel ih =>
    have hhere : (Access.temp temp.length (4 * i) 4).Inside hc_buflen outlen := by
      show 4 * i + 4 ≤ temp.length
      omega
    have hm : get32 e (temp.drop (4 * i)) ≠ RB_MAGIC_ERD := fun h => hno i ⟨by omega, h⟩
    rw [search, if_neg hm]
    by_cases hend : temp.length ≤ 4 * i + 4
    · rw [if_pos hend]
      refine ⟨_, rfl, ?_⟩
      intro a ha
      simp only [List.mem_cons, List.not_mem_nil, or_false] at ha
      rcases ha with rfl | rfl
      · exact hhere
      · show 0 + 4 ≤ temp.length
        omega
    · have hstep : 4 * i + 4 = 4 * (i + 1) := by ring
      rw [if_neg hend, hstep]
      obtain ⟨acc, hacc, hin⟩ := ih (by omega : 4 * (i + 1) < temp.length) (by omega)
      refine ⟨_, by rw [hacc]; rfl, ?_⟩
      intro a ha
      rcases List.mem_cons.mp ha with rfl | ha
      · exact hhere
      · exact hin a ha

lemma search_cut (hno : ∀ j, ¬ ErdAt e temp j) {i fuel : ℕ}
    (hi : 4 * i < temp.length ∨ i = 0) (hfuel : temp.length - 4 * i < fuel)
    (hcut : temp.length % 4 ≠ 0 ∨ temp.length < 4) :
    ∃ acc r, search e temp fuel (4 * i) = some (acc, r) ∧
      ∃ a ∈ acc, ¬ a.Inside hc_buflen outlen := by
  induction fuel generalizing i with
  | zero => omega
  | succ fuel ih =>
    by_cases hhere : 4 * i + 4 ≤ temp.length
    · have hm : get32 e (temp.drop (4 * i)) ≠ RB_MAGIC_ERD := fun h => hno i ⟨hhere, h⟩
      have hstep : 4 * i + 4 = 4 * (i + 1) := by ring
      rw [search, if_neg hm, if_neg (by omega), hstep]
      have hi' : 4 * (i + 1) < temp.length ∨ i + 1 = 0 := Or.inl (by omega)
      obtain ⟨acc, r, hacc, a, ha, hout⟩ := ih hi' (by omega)
      exact ⟨_, r, by rw [hacc]; rfl, a, List.mem_cons_of_mem _ ha, hout⟩
    · -- the word at the end of the block is broken
      have hout : ¬ (Access.temp temp.length (4 * i) 4).Inside hc_buflen outlen := hhere
      rw [search]
      split
      · exact ⟨_, _, rfl, _, List.mem_cons_self, hout⟩
      · rw [if_pos (by omega)]
        exact ⟨_, _, rfl, _, List.mem_cons_self, hout⟩

end Search

/-! ## Safety -/

section Safety

variable {e : Endian} {lzo1x_decompress_safe : List Byte → ℕ → ℤ × List Byte}
  { hc_lzor_prefix hc_buf : List Byte} {tag_id hc_buflen outlen : ℕ}

lemma Run.inside_after {acc : List Access} {r : Run} :
    (Run.after acc r).Inside hc_buflen outlen ↔
      (∀ a ∈ acc, a.Inside hc_buflen outlen) ∧ r.Inside hc_buflen outlen := by
  simp only [Run.Inside, Run.after, List.forall_mem_append]

lemma Run.inside_nil {rc : Except Errno (List Byte)} :
    (⟨rc, []⟩ : Run).Inside hc_buflen outlen := by simp [Run.Inside]

/-- What follows a successful search for a tag: the payload is turned down for its length or
handed on. -/
def handOn (found : Option (Except Errno (ℕ × ℕ))) (buflen : ℕ) (handed : List Access)
    (next : ℕ → ℕ → Except Errno (List Byte)) (place : ℕ → ℕ → Access) : Run :=
  match found with
  | some (.ok (ofs, len)) =>
    if buflen < len then ⟨.error .EINVAL, handed⟩
    else ⟨next ofs len, handed ++ [place ofs len]⟩
  | some (.error err) => ⟨.error err, handed⟩
  | none => ⟨.error .EINVAL, handed⟩

lemma handOn_inside {buf : List Byte} {buflen room : ℕ} {handed : List Access}
    {next : ℕ → ℕ → Except Errno (List Byte)} {place : ℕ → ℕ → Access}
    (hhanded : ∀ a ∈ handed, a.Inside hc_buflen outlen)
    (hplace : ∀ ofs len, (place ofs len).Inside hc_buflen outlen ↔ ofs + len ≤ room) :
    (handOn (routerboot_tag_find e buf buflen tag_id) buflen handed next place).Inside hc_buflen
      outlen ↔ PayloadInside e tag_id buf buflen room := by
  obtain ⟨found, hfound⟩ := routerboot_tag_find_ends e buf buflen tag_id
  rw [PayloadInside, hfound]
  cases found with
  | error err =>
    simp only [handOn, Run.Inside, Option.some.injEq, reduceCtorEq, false_implies, implies_true,
      iff_true]
    exact hhanded
  | ok p =>
    obtain ⟨ofs, len⟩ := p
    simp only [handOn, Option.some.injEq, Except.ok.injEq, Prod.mk.injEq]
    by_cases hlen : buflen < len
    · rw [if_pos hlen]
      refine iff_of_true hhanded ?_
      rintro ofs' len' ⟨rfl, rfl⟩ hle
      omega
    · rw [if_neg hlen]
      constructor
      · rintro h ofs' len' ⟨rfl, rfl⟩ -
        exact (hplace ofs len).mp (h _ (by simp))
      · intro h a ha
        rcases List.mem_append.mp ha with ha | ha
        · exact hhanded a ha
        · rw [List.mem_singleton.mp ha]
          exact (hplace ofs len).mpr (h ofs len ⟨rfl, rfl⟩ (by omega))

/-- Behind the magic a block is unpacked inside exactly when the payload of the tag ends in it. -/
lemma unpackTemp_found {temp : List Byte} {j : ℕ} (hj : ErdAt e temp j)
    (hfirst : ∀ i < j, ¬ ErdAt e temp i) :
    (unpackTemp e tag_id temp outlen).Inside hc_buflen outlen ↔
      PayloadInside e tag_id (temp.drop (4 * j + 4)) (temp.length - (4 * j + 4))
        (temp.length - (4 * j + 4)) := by
  have hlen := hj.1
  have hfuel : j - 0 < temp.length + 1 := by omega
  obtain ⟨acc, hacc, hin⟩ := search_found hc_buflen outlen hj hfirst (Nat.zero_le j) hfuel
  have hhanded : ∀ a ∈ ([.sub temp.length (4 * j + 4),
      .temp temp.length (4 * j + 4) (temp.length - (4 * j + 4))] : List Access),
      a.Inside hc_buflen outlen := by
    intro a ha
    simp only [List.mem_cons, List.not_mem_nil, or_false] at ha
    rcases ha with rfl | rfl
    · exact hlen
    · show 4 * j + 4 + (temp.length - (4 * j + 4)) ≤ temp.length
      omega
  have hplace : ∀ ofs len, (Access.temp temp.length (4 * j + 4 + ofs) len).Inside hc_buflen
      outlen ↔ ofs + len ≤ temp.length - (4 * j + 4) := by
    intro ofs len
    show 4 * j + 4 + ofs + len ≤ temp.length ↔ _
    omega
  rw [unpackTemp, show (0 : ℕ) = 4 * 0 from rfl, hacc]
  dsimp only
  rw [Run.inside_after, and_iff_right hin]
  exact handOn_inside hhanded hplace

/-- A decompressed block is unpacked inside exactly when its lengths are right. -/
lemma unpackTemp_inside_iff {temp : List Byte} :
    (unpackTemp e tag_id temp outlen).Inside hc_buflen outlen ↔ BlockInside e tag_id temp := by
  by_cases hsome : ∃ j, ErdAt e temp j
  · classical
    have hj := Nat.find_spec hsome
    have hfirst : ∀ i < Nat.find hsome, ¬ ErdAt e temp i := fun i hi => Nat.find_min hsome hi
    rw [unpackTemp_found hj hfirst, BlockInside]
    constructor
    · intro h
      refine ⟨by have := hj.1; omega, Or.inl hsome, fun j hj' hfirst' => ?_⟩
      have heq : j = Nat.find hsome := by
        rcases lt_trichotomy j (Nat.find hsome) with hlt | heq | hgt
        · exact absurd hj' (hfirst j hlt)
        · exact heq
        · exact absurd hj (hfirst' _ hgt)
      rw [heq]
      exact h
    · rintro ⟨-, -, h⟩
      exact h _ hj hfirst
  · have hno : ∀ j, ¬ ErdAt e temp j := fun j hj => hsome ⟨j, hj⟩
    rw [BlockInside, unpackTemp, show (0 : ℕ) = 4 * 0 from rfl]
    by_cases hwhole : 4 ≤ temp.length ∧ temp.length % 4 = 0
    · have hfuel : temp.length - 4 * 0 < temp.length + 1 := by omega
      obtain ⟨acc, hacc, hin⟩ := search_missing hc_buflen outlen hno hwhole.1
        (by omega : 4 * 0 < temp.length) hfuel hwhole.2
      rw [hacc]
      refine iff_of_true hin ⟨hwhole.1, Or.inr hwhole.2, fun j hj => absurd hj (hno j)⟩
    · have hfuel : temp.length - 4 * 0 < temp.length + 1 := by omega
      obtain ⟨acc, r, hacc, a, ha, hout⟩ := search_cut hc_buflen outlen hno
        (Or.inr rfl : 4 * 0 < temp.length ∨ 0 = 0) hfuel (by omega)
      rw [hacc]
      refine iff_of_false ?_ ?_
      · intro h
        cases r with
        | none => exact hout (h a ha)
        | some needle =>
          rw [Run.inside_after] at h
          exact hout (h.1 a ha)
      · rintro ⟨hpos, herd | hmod, -⟩
        · exact hsome herd
        · exact hwhole ⟨hpos, hmod⟩

lemma erd_inside_iff {inbuf inlen : ℕ} (hin : inbuf + inlen ≤ hc_buf.length) :
    (hc_wlan_data_unpack_erd e lzo1x_decompress_safe hc_buf tag_id inbuf inlen outlen).Inside
      hc_buf.length outlen ↔
      PayloadInside e tag_id (hc_buf.drop inbuf) inlen (hc_buf.length - inbuf) := by
  have hhanded : ∀ a ∈ ([.hc inbuf inlen] : List Access), a.Inside hc_buf.length outlen := by
    intro a ha
    rw [List.mem_singleton.mp ha]
    exact hin
  have hplace : ∀ ofs len, (Access.hc (inbuf + ofs) len).Inside hc_buf.length outlen ↔
      ofs + len ≤ hc_buf.length - inbuf := by
    intro ofs len
    show inbuf + ofs + len ≤ hc_buf.length ↔ _
    omega
  exact handOn_inside hhanded hplace

lemma decompressed_inside_iff {block : Except Errno (List Byte)} :
    (match block with
      | .error err => (⟨.error err, []⟩ : Run)
      | .ok temp => unpackTemp e tag_id temp outlen).Inside hc_buflen outlen ↔
    ∀ temp, block = .ok temp → BlockInside e tag_id temp := by
  cases block with
  | error err => simp [Run.inside_nil]
  | ok temp => simp [unpackTemp_inside_iff]

lemma lz77_inside_iff {inbuf inlen : ℕ} (hin : inbuf + inlen ≤ hc_buf.length) :
    (hc_wlan_data_unpack_lzor_lz77 e lzo1x_decompress_safe hc_lzor_prefix hc_buf tag_id inbuf
      inlen outlen RB_MAGIC_LZ77).Inside hc_buf.length outlen ↔
      (inlen ≤ outlen → ∀ temp, lz77Temp hc_buf inbuf inlen outlen = .ok temp →
        BlockInside e tag_id temp) := by
  have hne : RB_MAGIC_LZ77 ≠ RB_MAGIC_LZOR := by decide
  rw [hc_wlan_data_unpack_lzor_lz77]
  simp only [if_neg hne, if_true]
  by_cases hbig : outlen < inlen
  · rw [if_pos hbig]
    exact iff_of_true Run.inside_nil (fun h => by omega)
  · rw [if_neg hbig, Run.inside_after, decompressed_inside_iff]
    have hle : inlen ≤ outlen := by omega
    simp [Access.Inside, hin, hle]

lemma lzor_inside_iff {inbuf inlen : ℕ} (hin : inbuf + inlen ≤ hc_buf.length) :
    (hc_wlan_data_unpack_lzor_lz77 e lzo1x_decompress_safe hc_lzor_prefix hc_buf tag_id inbuf
      inlen outlen RB_MAGIC_LZOR).Inside hc_buf.length outlen ↔
      (inlen + hc_lzor_prefix.length ≤ outlen → ∀ temp,
        lzorTemp lzo1x_decompress_safe hc_lzor_prefix hc_buf inbuf inlen outlen = .ok temp →
          BlockInside e tag_id temp) := by
  rw [hc_wlan_data_unpack_lzor_lz77]
  simp only [if_true]
  by_cases hbig : outlen < inlen + hc_lzor_prefix.length
  · rw [if_pos hbig]
    exact iff_of_true Run.inside_nil (fun h => by omega)
  · rw [if_neg hbig, Run.inside_after, decompressed_inside_iff]
    have hle : inlen + hc_lzor_prefix.length ≤ outlen := by omega
    simp [Access.Inside, hin, hle]

lemma inside_sub {tlen : ℕ} {r : Run} {P : Prop}
    (h : 4 ≤ tlen → (r.Inside hc_buflen outlen ↔ P)) :
    (Run.after [.sub tlen 4] r).Inside hc_buflen outlen ↔ 4 ≤ tlen ∧ P := by
  rw [Run.inside_after]
  simp only [List.mem_singleton, forall_eq, Access.Inside]
  exact and_congr_right h

/-- **Unpacking the calibration data.**  For every buffer, tag, place of the payload, size of the
output and LZO decompressor, all that is looked at or handed to a decoder lies inside its block,
and no length becomes negative, exactly when the payload is well placed. -/
theorem unpack_inside_iff (e : Endian) (lzo1x_decompress_safe : List Byte → ℕ → ℤ × List Byte)
    ( hc_lzor_prefix hc_buf : List Byte) (tag_id tofs tlen outlen : ℕ) :
    (hc_wlan_data_unpack e lzo1x_decompress_safe hc_lzor_prefix hc_buf tag_id tofs tlen
      outlen).Inside hc_buf.length outlen ↔
    Placed e lzo1x_decompress_safe hc_lzor_prefix hc_buf tag_id tofs tlen outlen := by
  have hne1 : RB_MAGIC_LZ77 ≠ RB_MAGIC_LZOR := by decide
  have hne2 : RB_MAGIC_LZ77 ≠ RB_MAGIC_ERD := by decide
  have hne3 : RB_MAGIC_LZOR ≠ RB_MAGIC_ERD := by decide
  rw [hc_wlan_data_unpack, Placed]
  by_cases hfit : hc_buf.length < tofs + tlen
  · rw [if_pos hfit]
    exact iff_of_true Run.inside_nil (Or.inl hfit)
  · rw [if_neg hfit]
    simp only [hfit, false_or]
    rw [Run.inside_after]
    simp only [List.mem_singleton, forall_eq]
    refine and_congr_right fun _ => ?_
    by_cases h77 : get32 e (hc_buf.drop tofs) = RB_MAGIC_LZ77
    · simp only [h77, hne1, hne2, true_and, true_or, if_true, false_implies, and_true,
        forall_true_left]
      by_cases hsolo : tag_id = RB_WLAN_ERD_ID_SOLO
      · simp [hsolo, Run.inside_nil]
      · rw [if_neg hsolo, inside_sub fun h4 => lz77_inside_iff (by omega)]
        simp [hsolo]
    · by_cases hor : get32 e (hc_buf.drop tofs) = RB_MAGIC_LZOR
      · simp only [hor, hne1.symm, hne3, false_and, if_false, false_or, if_true, false_implies,
          true_and, and_true, forall_true_left]
        exact inside_sub fun h4 => lzor_inside_iff (by omega)
      · by_cases herd : get32 e (hc_buf.drop tofs) = RB_MAGIC_ERD
        · simp only [herd, hne2.symm, hne3.symm, false_and, if_false, false_or, if_true,
            false_implies, true_and, forall_true_left]
          exact inside_sub fun h4 => erd_inside_iff (by omega)
        · simp only [h77, hor, herd, false_and, if_false, false_or, false_implies, and_self,
            iff_true]
          split
          · intro a ha
            rw [List.mem_singleton.mp ha]
            show tofs + tlen ≤ hc_buf.length
            omega
          · exact Run.inside_nil

end Safety

/-- Where `rb_hardconfig_init` finds the payload of the WLAN tag. -/
def wlanPayload {e : Endian} (img : HardImage e) : Option (ℕ × ℕ) :=
  match img.find RB_ID_WLAN_DATA with
  | some (.ok (ofs, len)) => if len = 0 then none else some ((ofs + 4) % 0x10000, len)
  | _ => none

/-- An image that ends with a WLAN tag of sixteen bytes: the ERD magic and a node that claims
twelve bytes where eight are left. -/
def erdImage : HardImage .little where
  data := put32 .little RB_MAGIC_HARD ++ [0x16, 0, 16, 0] ++ put32 .little RB_MAGIC_ERD ++
    [1, 0, 12, 0, 1, 2, 3, 4, 5, 6, 7, 8]
  magic := by decide

/-- The LZO decompressor is handed twelve bytes of which the buffer has eight. -/
theorem unpack_outside_erd : wlanPayload erdImage = some (8, 16) ∧
    ¬ (hc_wlan_data_unpack .little (fun _ _ => (0, [])) [] erdImage.data RB_WLAN_ERD_ID_SOLO 8 16
      RB_ART_SIZE).Inside erdImage.data.length RB_ART_SIZE := by
  have hacc : (hc_wlan_data_unpack .little (fun _ _ => (0, [])) [] erdImage.data
      RB_WLAN_ERD_ID_SOLO 8 16 RB_ART_SIZE).acc = [.hc 8 4, .sub 16 4, .hc 12 12, .hc 16 12] := by
    decide
  refine ⟨by decide, fun h => ?_⟩
  have hend : 16 + 12 ≤ erdImage.data.length := h (.hc 16 12) (by rw [hacc]; decide)
  exact absurd hend (by decide)

end Mikrotik.WlanData
