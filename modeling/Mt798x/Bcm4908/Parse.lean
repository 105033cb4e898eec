import Mt798x.Bcm4908.Image

/-!
# What the parser accepts

The checksum of a file does not depend on the chunks it is read in; the searches find the first
block with the magic they look for; and so a file is accepted exactly if its parts are where they
have to be and its checksum is right.
-/

namespace Bcm4908

open Bytes

/-! ## Checksums -/

lemma crc32_tbl_getD : ∀ i < 256, (crc32_tbl.getD i 0).toNat = Crc.crcBit^[8] i := by
  decide +kernel

lemma split_byte (x : ℕ) : x = x % 256 ^^^ 2 ^ 8 * (x / 256) := by
  apply Nat.eq_of_testBit_eq
  intro i
  rw [Nat.testBit_xor, show (256 : ℕ) = 2 ^ 8 by rfl, Nat.testBit_mod_two_pow,
    Nat.testBit_two_pow_mul, Nat.testBit_div_two_pow]
  by_cases hi : i < 8
  · simp [hi, show ¬ 8 ≤ i by omega]
  · simp [hi, show 8 ≤ i by omega]

lemma toNat_crc32Byte (crc : UInt32) (b : Byte) :
    (crc32Byte crc b).toNat = Crc.crcByte crc.toNat b := by
  have hb : b.toNat < 2 ^ 32 := lt_trans b.toNat_lt (by decide)
  set x := crc.toNat ^^^ b.toNat with hx
  have hidx : ((crc ^^^ b.toUInt32) &&& 0xff).toNat = x % 256 := by
    rw [UInt32.toNat_and, UInt32.toNat_xor, UInt8.toNat_toUInt32, ← hx]
    exact Nat.and_two_pow_sub_one_eq_mod x 8
  have hshift : (crc >>> 8).toNat = x / 256 := by
    have hxor : x / 2 ^ 8 = crc.toNat / 2 ^ 8 ^^^ b.toNat / 2 ^ 8 := Nat.xor_div_two_pow
    have hb8 : b.toNat / 2 ^ 8 = 0 := Nat.div_eq_of_lt b.toNat_lt
    rw [hb8, Nat.xor_zero] at hxor
    rw [UInt32.toNat_shiftRight, Nat.shiftRight_eq_div_pow]
    exact hxor.symm
  rw [crc32Byte, UInt32.toNat_xor, hidx, hshift, crc32_tbl_getD _ (Nat.mod_lt _ (by decide)),
    Crc.crcByte, ← hx]
  conv_rhs => rw [split_byte x]
  rw [Crc.crcBit_iterate_xor, Crc.crcBit_iterate_two_pow_mul]

lemma toNat_crc32 (crc : UInt32) (bs : List Byte) :
    (bcm4908img_crc32 crc bs).toNat = bs.foldl Crc.crcByte crc.toNat := by
  induction bs generalizing crc with
  | nil => rfl
  | cons b bs ih =>
    have h := ih (crc32Byte crc b)
    rw [toNat_crc32Byte] at h
    exact h

lemma crc32_append (crc : UInt32) (a b : List Byte) :
    bcm4908img_crc32 crc (a ++ b) = bcm4908img_crc32 (bcm4908img_crc32 crc a) b :=
  List.foldl_append

lemma foldl_crc32 (crc : UInt32) (chunks : List (List Byte)) :
    chunks.foldl bcm4908img_crc32 crc = bcm4908img_crc32 crc chunks.flatten := by
  induction chunks generalizing crc with
  | nil => rfl
  | cons c chunks ih => rw [List.foldl_cons, ih, List.flatten_cons, crc32_append]

/-! ## Reading -/

lemma length_fread {fp : List Byte} {pos n : ℕ} (h : pos + n ≤ fp.length) :
    (fread fp pos n).length = n := by
  rw [fread, List.length_take, List.length_drop]
  omega

/-- The read loop reads what is asked of it, as far as the file goes. -/
lemma readChunks_spec (fp : List Byte) (fuel pos length : ℕ) (hfuel : length ≤ fuel)
    (h : pos + length ≤ fp.length) :
    (readChunks fp fuel pos length).1.flatten = fread fp pos length ∧
      (readChunks fp fuel pos length).2 = 0 := by
  induction fuel generalizing pos length with
  | zero =>
    obtain rfl : length = 0 := by omega
    exact ⟨by simp [readChunks, fread], rfl⟩
  | succ fuel ih =>
    rw [readChunks]
    by_cases hzero : length = 0
    · rw [if_pos hzero, hzero]
      exact ⟨by simp [fread], rfl⟩
    · have hlen : (fread fp pos (min 1024 length)).length = min 1024 length :=
        length_fread (by omega)
      obtain ⟨hflat, hleft⟩ := ih (pos + min 1024 length) (length - min 1024 length) (by omega)
        (by omega)
      rw [if_neg hzero]
      simp only [hlen]
      rw [if_neg (by omega)]
      refine ⟨?_, hleft⟩
      rw [List.flatten_cons, hflat, fread, fread, fread]
      conv_rhs => rw [← List.take_append_drop (min 1024 length) ((fp.drop pos).take length)]
      rw [List.take_take, Nat.min_eq_left (Nat.min_le_right _ _), List.drop_take, List.drop_drop]

/-! ## The searches -/

/-- A JFFS2 node starts here. -/
def IsJffs2 (fp : List Byte) (off : ℕ) : Prop := fread fp off 2 = [0x85, 0x19]

/-- A UBI erase counter header starts here. -/
def IsUbi (fp : List Byte) (off : ℕ) : Prop := fread fp off 4 = [0x55, 0x42, 0x49, 0x23]

/-- 256 bytes 0xff start here. -/
def IsPadding (fp : List Byte) (off : ℕ) : Prop := fread fp off 256 = List.replicate 256 0xff

instance (fp : List Byte) (off : ℕ) : Decidable (IsPadding fp off) :=
  inferInstanceAs (Decidable (_ = _))

/-- The block `k` behind an offset is the first one with a property. -/
def FirstAt (P : ℕ → Prop) (off k x : ℕ) : Prop :=
  x = off + k * block ∧ P x ∧ ∀ i < k, ¬ P (off + i * block)

lemma FirstAt.unique {P : ℕ → Prop} {off k k' x x' : ℕ} (h : FirstAt P off k x)
    (h' : FirstAt P off k' x') : k = k' ∧ x = x' := by
  have hk : k = k' := by
    rcases lt_trichotomy k k' with hlt | heq | hlt
    · exact absurd (h.1 ▸ h.2.1) (h'.2.2 k hlt)
    · exact heq
    · exact absurd (h'.1 ▸ h'.2.1) (h.2.2 k' hlt)
  exact ⟨hk, by rw [h.1, h'.1, hk]⟩

lemma exists_firstAt {P : ℕ → Prop} {off : ℕ} (h : ∃ k, P (off + k * block)) :
    ∃ k x, FirstAt P off k x := by
  classical
  exact ⟨Nat.find h, _, rfl, Nat.find_spec h, fun i hi => Nat.find_min h hi⟩

lemma FirstAt.succ {P : ℕ → Prop} {off k x : ℕ} (hoff : ¬ P off) :
    FirstAt P (off + block) k x ↔ FirstAt P off (k + 1) x := by
  have hstep : ∀ i, off + block + i * block = off + (i + 1) * block := by
    intro i
    rw [Nat.succ_mul]
    omega
  constructor
  · rintro ⟨hx, hP, hmin⟩
    refine ⟨by rw [hx, hstep], hP, fun i hi => ?_⟩
    cases i with
    | zero => simpa using hoff
    | succ i =>
      rw [← hstep]
      exact hmin i (by omega)
  · rintro ⟨hx, hP, hmin⟩
    refine ⟨by rw [hx, hstep], hP, fun i hi => ?_⟩
    rw [hstep]
    exact hmin (i + 1) (by omega)

lemma be16_eq_iff {bs : List Byte} (h : bs.length = 2) : be16 bs = 0x8519 ↔ bs = [0x85, 0x19] := by
  obtain ⟨a, b, rfl⟩ : ∃ a b, bs = [a, b] := by
    match bs, h with
    | [a, b], _ => exact ⟨a, b, rfl⟩
  have ha := a.toNat_lt
  have hb := b.toNat_lt
  simp only [be16, List.getD_cons_zero, List.getD_cons_succ, List.cons.injEq, and_true,
    ← UInt8.toNat_inj]
  constructor
  · intro heq
    exact ⟨show a.toNat = 0x85 by omega, show b.toNat = 0x19 by omega⟩
  · rintro ⟨h1, h2⟩
    rw [h1, h2]
    rfl

lemma get32_big_eq_iff {bs : List Byte} (h : 4 ≤ bs.length) (w : UInt32) :
    get32 .big bs = w ↔ bs.take 4 = put32 .big w := by
  constructor
  · rintro rfl
    have hlen : (bs.take 4).length = 4 := by
      rw [List.length_take]
      omega
    rw [← get32_take_four, put32_get32 _ hlen]
  · intro heq
    rw [← get32_take_four, heq, ← List.append_nil (put32 .big w), get32_put32_append]

lemma fread_take {fp : List Byte} {off n m : ℕ} (h : m ≤ n) :
    (fread fp off n).take m = fread fp off m := by
  rw [fread, fread, List.take_take, Nat.min_eq_left h]

lemma get32_eq_ubi_iff {fp : List Byte} {off n : ℕ} (hn : 4 ≤ n)
    (hlen : (fread fp off n).length = n) :
    get32 .big (fread fp off n) = UBI_EC_HDR_MAGIC ↔ IsUbi fp off := by
  rw [get32_big_eq_iff (by omega), fread_take hn]
  rfl

lemma all_ff_iff {fp : List Byte} {off : ℕ} (hlen : (fread fp off 256).length = 256) :
    bcm4908img_is_all_ff (fread fp off 256) = true ↔ IsPadding fp off := by
  rw [bcm4908img_is_all_ff, IsPadding, List.all_eq_true, List.eq_replicate_iff]
  simp [hlen]

variable {fp : List Byte} {T off x : ℕ}

lemma length_fread_iff {n : ℕ} (hn : 0 < n) :
    (fread fp off n).length = n ↔ off + n ≤ fp.length := by
  rw [fread, List.length_take, List.length_drop]
  omega

/-- The search for bootfs finds the first JFFS2 node in front of the tail. -/
lemma bootfsLoop_iff (hT : T + 2 ≤ fp.length) {fuel : ℕ} (hfuel : T < fuel + off) :
    (bootfsLoop fp T fuel off = .ok x ∧ x < T) ↔ ∃ k, FirstAt (IsJffs2 fp) off k x ∧ x < T := by
  induction fuel generalizing off with
  | zero =>
    rw [bootfsLoop]
    constructor
    · rintro ⟨heq, hlt⟩
      cases heq
      omega
    · rintro ⟨k, ⟨hx, -⟩, hlt⟩
      omega
  | succ fuel ih =>
    rw [bootfsLoop]
    by_cases hoff : off < T
    · have hlen : (fread fp off 2).length = 2 := length_fread (by omega)
      rw [if_pos hoff]
      simp only [hlen, ne_eq, not_true_eq_false, if_false]
      by_cases hmagic : be16 (fread fp off 2) = 0x8519
      · have hjffs : IsJffs2 fp off := (be16_eq_iff hlen).mp hmagic
        have hfirst : FirstAt (IsJffs2 fp) off 0 off := ⟨by omega, hjffs, by simp⟩
        rw [if_pos hmagic]
        constructor
        · rintro ⟨heq, hlt⟩
          cases heq
          exact ⟨0, hfirst, hlt⟩
        · rintro ⟨k, hk, hlt⟩
          obtain ⟨-, rfl⟩ := hfirst.unique hk
          exact ⟨rfl, hlt⟩
      · have hjffs : ¬ IsJffs2 fp off := fun h => hmagic ((be16_eq_iff hlen).mpr h)
        have hblock : 0 < block := by decide
        rw [if_neg hmagic, ih (by omega)]
        constructor
        · rintro ⟨k, hk, hlt⟩
          exact ⟨k + 1, (FirstAt.succ hjffs).mp hk, hlt⟩
        · rintro ⟨k, hk, hlt⟩
          cases k with
          | zero =>
            obtain ⟨hx, hP, -⟩ := hk
            rw [Nat.zero_mul, Nat.add_zero] at hx
            exact absurd (hx ▸ hP) hjffs
          | succ k => exact ⟨k, (FirstAt.succ hjffs).mpr hk, hlt⟩
    · rw [if_neg hoff]
      constructor
      · rintro ⟨heq, hlt⟩
        cases heq
        omega
      · rintro ⟨k, ⟨hx, -⟩, hlt⟩
        omega

/-- The padding that the search for rootfs notes in `k` blocks. -/
def paddingOf (fp : List Byte) : ℕ → ℕ → ℕ → ℕ
  | _, 0, padding_offset => padding_offset
  | off, k + 1, padding_offset =>
    paddingOf fp (off + block) k
      (if padding_offset = 0 ∧ IsPadding fp off then off else padding_offset)

lemma paddingOf_of_ne {p : ℕ} (hp : p ≠ 0) (k : ℕ) : paddingOf fp off k p = p := by
  induction k generalizing off with
  | zero => rfl
  | succ k ih =>
    rw [paddingOf, if_neg (fun h => hp h.1)]
    exact ih

/-- The search for rootfs finds the first UBI header in front of the tail, if what it reads there
is in the file. -/
lemma rootfsLoop_iff (hT : T ≤ fp.length) {fuel p q : ℕ} (hfuel : T < fuel + off) :
    (rootfsLoop fp T fuel off p = .ok (x, q) ∧ x < T) ↔
      ∃ k, FirstAt (IsUbi fp) off k x ∧ x < T ∧ q = paddingOf fp off k p ∧
        (q ≠ 0 ∨ x + 256 ≤ fp.length) := by
  induction fuel generalizing off p with
  | zero =>
    rw [rootfsLoop]
    constructor
    · rintro ⟨heq, hlt⟩
      cases heq
      omega
    · rintro ⟨k, ⟨hx, -⟩, hlt, -⟩
      omega
  | succ fuel ih =>
    have hblock : block = 0x20000 := rfl
    rw [rootfsLoop]
    by_cases hoff : off < T
    · rw [if_pos hoff]
      set n := if p ≠ 0 then 4 else 256 with hn
      have hn4 : 4 ≤ n := by
        rw [hn]
        split <;> omega
      have hn256 : n ≤ 256 := by
        rw [hn]
        split <;> omega
      by_cases hread : (fread fp off n).length = n
      · simp only [hread, ne_eq, not_true_eq_false, if_false]
        have hfits := (length_fread_iff (by omega)).mp hread
        have hff : (p = 0 ∧ bcm4908img_is_all_ff (fread fp off n) = true) ↔
            (p = 0 ∧ IsPadding fp off) := by
          refine and_congr_right fun hp => ?_
          have h256 : n = 256 := by rw [hn, if_neg (by simpa using hp)]
          rw [h256] at hread ⊢
          exact all_ff_iff hread
        simp only [hff]
        by_cases hubi : IsUbi fp off
        · have hfirst : FirstAt (IsUbi fp) off 0 off := ⟨by omega, hubi, by simp⟩
          have hnot : ¬ (p = 0 ∧ IsPadding fp off) := by
            rintro ⟨-, hpad⟩
            have htake : (fread fp off 256).take 4 = fread fp off 4 := fread_take (by decide)
            rw [hpad, hubi] at htake
            exact absurd htake (by decide)
          rw [if_pos ((get32_eq_ubi_iff hn4 hread).mpr hubi), if_neg hnot]
          constructor
          · rintro ⟨heq, hlt⟩
            obtain ⟨rfl, rfl⟩ := Prod.mk.inj (Except.ok.inj heq)
            refine ⟨0, hfirst, hlt, rfl, ?_⟩
            by_cases hp : p = 0
            · have h256 : n = 256 := by rw [hn, if_neg (by simpa using hp)]
              right
              omega
            · exact Or.inl hp
          · rintro ⟨k, hk, hlt, hq, -⟩
            obtain ⟨rfl, rfl⟩ := hfirst.unique hk
            exact ⟨by rw [hq]; rfl, hlt⟩
        · rw [if_neg (fun h => hubi ((get32_eq_ubi_iff hn4 hread).mp h)), ih (by omega)]
          constructor
          · rintro ⟨k, hk, hlt, hq, hreadable⟩
            exact ⟨k + 1, (FirstAt.succ hubi).mp hk, hlt, hq, hreadable⟩
          · rintro ⟨k, hk, hlt, hq, hreadable⟩
            cases k with
            | zero =>
              obtain ⟨hx, hP, -⟩ := hk
              rw [Nat.zero_mul, Nat.add_zero] at hx
              exact absurd (hx ▸ hP) hubi
            | succ k => exact ⟨k, (FirstAt.succ hubi).mpr hk, hlt, hq, hreadable⟩
      · simp only [ne_eq, hread, not_false_eq_true, if_true, reduceCtorEq, false_and, false_iff]
        -- a block that cannot be read is the last one, and no header can be accepted there
        have hshort : ¬ off + n ≤ fp.length := fun h => hread ((length_fread_iff (by omega)).mpr h)
        rintro ⟨k, hk, hlt, hq, hreadable⟩
        cases k with
        | zero =>
          obtain ⟨hx, hubi, -⟩ := hk
          rw [Nat.zero_mul, Nat.add_zero] at hx
          subst hx
          have h4 : x + 4 ≤ fp.length := by
            refine (length_fread_iff (by decide)).mp ?_
            rw [hubi]
            rfl
          rcases hreadable with hp | h256
          · have hpq : p = q := hq.symm
            have hn4' : n = 4 := by rw [hn, if_pos (hpq ▸ hp)]
            omega
          · omega
        | succ k =>
          have hx := hk.1
          rw [Nat.succ_mul] at hx
          omega
    · rw [if_neg hoff]
      constructor
      · rintro ⟨heq, hlt⟩
        cases heq
        omega
      · rintro ⟨k, ⟨hx, -⟩, hlt, -⟩
        omega

end Bcm4908
