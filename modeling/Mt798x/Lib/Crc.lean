import Mt798x.Lib.Bytes

/-!
# The reflected CRC-32

`crc32Le crc bs` is the bitwise reflected CRC-32 (polynomial `0xEDB88320`, no final inversion)
continued from `crc`, as the kernel's `crc32_le` computes it.  The sum of a buffer can be computed
in pieces, and buffers that differ in one 32-bit word only have different sums: the division is
linear and undone by the top bit of the polynomial.
-/

namespace Crc

open Bytes

/-- One bit of the division. -/
def crcBit (c : ℕ) : ℕ := if c % 2 = 1 then c / 2 ^^^ 0xEDB88320 else c / 2

/-- One byte of the division. -/
def crcByte (c : ℕ) (b : Byte) : ℕ := crcBit^[8] (c ^^^ b.toNat)

/-- The CRC-32 of a byte list, continued from `crc`. -/
def crc32Le (crc : UInt32) (bs : List Byte) : UInt32 := UInt32.ofNat (bs.foldl crcByte crc.toNat)

lemma crcBit_lt {c : ℕ} (h : c < 2 ^ 32) : crcBit c < 2 ^ 32 := by
  rw [crcBit]
  split
  · exact Nat.xor_lt_two_pow (by omega) (by decide)
  · omega

lemma crcBit_iterate_lt {c : ℕ} (h : c < 2 ^ 32) (n : ℕ) : crcBit^[n] c < 2 ^ 32 := by
  induction n with
  | zero => exact h
  | succ n ih => rw [Function.iterate_succ_apply']; exact crcBit_lt ih

lemma crcByte_lt {c : ℕ} (h : c < 2 ^ 32) (b : Byte) : crcByte c b < 2 ^ 32 := by
  have hb : b.toNat < 2 ^ 32 := lt_trans b.toNat_lt (by decide)
  exact crcBit_iterate_lt (Nat.xor_lt_two_pow h hb) 8

lemma foldl_crcByte_lt {c : ℕ} (h : c < 2 ^ 32) (bs : List Byte) :
    bs.foldl crcByte c < 2 ^ 32 := by
  induction bs generalizing c with
  | nil => exact h
  | cons b bs ih => exact ih (crcByte_lt h b)

/-- The sum of a buffer computed in two pieces. -/
lemma crc32Le_append (crc : UInt32) (a b : List Byte) :
    crc32Le (crc32Le crc a) b = crc32Le crc (a ++ b) := by
  have ha : a.foldl crcByte crc.toNat < 2 ^ 32 := foldl_crcByte_lt crc.toNat_lt a
  rw [crc32Le, crc32Le, crc32Le, List.foldl_append, UInt32.toNat_ofNat', Nat.mod_eq_of_lt ha]

/-! ## Different words have different sums -/

lemma crcBit_two_mul (c : ℕ) : crcBit (2 * c) = c := by
  rw [crcBit, if_neg (by omega)]
  omega

/-- The division is linear. -/
lemma crcBit_xor (a b : ℕ) : crcBit (a ^^^ b) = crcBit a ^^^ crcBit b := by
  have hdiv : (a ^^^ b) / 2 = a / 2 ^^^ b / 2 := Nat.xor_div_two
  have hmod : (a ^^^ b) % 2 = a % 2 ^^^ b % 2 := by
    simpa using @Nat.xor_mod_two_pow a b 1
  rcases Nat.mod_two_eq_zero_or_one a with ha | ha <;>
    rcases Nat.mod_two_eq_zero_or_one b with hb | hb <;>
    simp only [crcBit, hdiv, hmod, ha, hb] <;>
    simp [Nat.xor_assoc, Nat.xor_comm, Nat.xor_left_comm]

lemma crcBit_iterate_xor (n a b : ℕ) :
    crcBit^[n] (a ^^^ b) = crcBit^[n] a ^^^ crcBit^[n] b := by
  induction n generalizing a b with
  | zero => rfl
  | succ n ih =>
    rw [Function.iterate_succ_apply, Function.iterate_succ_apply, Function.iterate_succ_apply,
      crcBit_xor, ih]

lemma crcBit_iterate_two_pow_mul (n c : ℕ) : crcBit^[n] (2 ^ n * c) = c := by
  induction n with
  | zero => rw [pow_zero, one_mul]; rfl
  | succ n ih =>
    rw [Function.iterate_succ_apply, pow_succ', mul_assoc, crcBit_two_mul, ih]

/-- The top bit of the polynomial tells which way a bit was divided. -/
lemma crcBit_inj {a b : ℕ} (ha : a < 2 ^ 32) (hb : b < 2 ^ 32) (h : crcBit a = crcBit b) :
    a = b := by
  have htop : ∀ c < 2 ^ 32, (crcBit c).testBit 31 = decide (c % 2 = 1) := by
    intro c hc
    have hlow : (c / 2).testBit 31 = false := Nat.testBit_lt_two_pow (by omega)
    rw [crcBit]
    split <;> rename_i hodd
    · rw [Nat.testBit_xor, hlow, decide_eq_true hodd]
      decide
    · rw [hlow, decide_eq_false hodd]
  have hodd : a % 2 = 1 ↔ b % 2 = 1 := by
    have := htop a ha
    rw [h, htop b hb] at this
    simpa using this.symm
  by_cases h1 : a % 2 = 1
  · rw [crcBit, crcBit, if_pos h1, if_pos (hodd.mp h1), Nat.xor_left_inj] at h
    have := hodd.mp h1
    omega
  · rw [crcBit, crcBit, if_neg h1, if_neg (fun h2 => h1 (hodd.mpr h2))] at h
    have : ¬ b % 2 = 1 := fun h2 => h1 (hodd.mpr h2)
    omega

lemma crcBit_iterate_inj {a b : ℕ} (n : ℕ) (ha : a < 2 ^ 32) (hb : b < 2 ^ 32)
    (h : crcBit^[n] a = crcBit^[n] b) : a = b := by
  induction n with
  | zero => exact h
  | succ n ih =>
    rw [Function.iterate_succ_apply', Function.iterate_succ_apply'] at h
    exact ih (crcBit_inj (crcBit_iterate_lt ha n) (crcBit_iterate_lt hb n) h)

/-- The number whose little-endian bytes are given. -/
def leNat : List Byte → ℕ
  | [] => 0
  | b :: bs => b.toNat ^^^ 2 ^ 8 * leNat bs

/-- The division of a whole list at once. -/
lemma foldl_crcByte_eq (c : ℕ) (bs : List Byte) :
    bs.foldl crcByte c = crcBit^[8 * bs.length] (c ^^^ leNat bs) := by
  induction bs generalizing c with
  | nil => simp [leNat]
  | cons b bs ih =>
    have hshift : crcBit^[8] (c ^^^ b.toNat) ^^^ leNat bs =
        crcBit^[8] (c ^^^ leNat (b :: bs)) := by
      rw [leNat, ← Nat.xor_assoc, crcBit_iterate_xor 8 (c ^^^ b.toNat),
        crcBit_iterate_two_pow_mul]
    rw [List.foldl_cons, ih, crcByte, hshift, ← Function.iterate_add_apply, List.length_cons,
      show 8 * bs.length + 8 = 8 * (bs.length + 1) by omega]

lemma leNat_lt (bs : List Byte) : leNat bs < 2 ^ (8 * bs.length) := by
  induction bs with
  | nil => simp [leNat]
  | cons b bs ih =>
    have hb : b.toNat < 2 ^ (8 * (b :: bs).length) :=
      lt_of_lt_of_le b.toNat_lt (Nat.pow_le_pow_right (by decide) (by rw [List.length_cons]; omega))
    have hbs : 2 ^ 8 * leNat bs < 2 ^ (8 * (b :: bs).length) := by
      rw [List.length_cons, show 8 * (bs.length + 1) = 8 + 8 * bs.length by omega, pow_add]
      exact Nat.mul_lt_mul_of_pos_left ih (by decide)
    exact Nat.xor_lt_two_pow hb hbs

lemma leNat_inj {bs bs' : List Byte} (hlen : bs.length = bs'.length) (h : leNat bs = leNat bs') :
    bs = bs' := by
  induction bs generalizing bs' with
  | nil => exact (List.length_eq_zero_iff.mp hlen.symm).symm
  | cons b bs ih =>
    cases bs' with
    | nil => simp at hlen
    | cons b' bs' =>
      have hmod : ∀ (x : Byte) (r : ℕ), (x.toNat ^^^ 2 ^ 8 * r) % 2 ^ 8 = x.toNat := by
        intro x r
        rw [Nat.xor_mod_two_pow, Nat.mul_mod_right, Nat.xor_zero, Nat.mod_eq_of_lt x.toNat_lt]
      have hdiv : ∀ (x : Byte) (r : ℕ), (x.toNat ^^^ 2 ^ 8 * r) / 2 ^ 8 = r := by
        intro x r
        rw [Nat.xor_div_two_pow, Nat.div_eq_of_lt x.toNat_lt, Nat.zero_xor,
          Nat.mul_div_cancel_left r (by decide)]
      have hb : b.toNat = b'.toNat := by
        have := congrArg (· % 2 ^ 8) h
        simpa only [leNat, hmod] using this
      have hr : leNat bs = leNat bs' := by
        have := congrArg (· / 2 ^ 8) h
        simpa only [leNat, hdiv] using this
      rw [UInt8.toNat_inj.mp hb, ih (by simpa using hlen) hr]

lemma foldl_crcByte_inj {c c' : ℕ} (hc : c < 2 ^ 32) (hc' : c' < 2 ^ 32) (bs : List Byte)
    (h : bs.foldl crcByte c = bs.foldl crcByte c') : c = c' := by
  induction bs generalizing c c' with
  | nil => exact h
  | cons b bs ih =>
    have hb : b.toNat < 2 ^ 32 := lt_trans b.toNat_lt (by decide)
    have hbyte := ih (crcByte_lt hc b) (crcByte_lt hc' b) h
    have hx := crcBit_iterate_inj 8 (Nat.xor_lt_two_pow hc hb) (Nat.xor_lt_two_pow hc' hb) hbyte
    exact Nat.xor_left_inj.mp hx

/-- Buffers that differ in one word have different sums. -/
theorem crc32Le_word_inj {crc : UInt32} {a w w' b : List Byte} (hw : w.length = 4)
    (hw' : w'.length = 4) (h : crc32Le crc (a ++ (w ++ b)) = crc32Le crc (a ++ (w' ++ b))) :
    w = w' := by
  have hstate : a.foldl crcByte crc.toNat < 2 ^ 32 := foldl_crcByte_lt crc.toNat_lt a
  have hword : ∀ v : List Byte, v.length = 4 → leNat v < 2 ^ 32 := by
    intro v hv
    have := leNat_lt v
    rwa [hv] at this
  have hnat := congrArg UInt32.toNat h
  simp only [crc32Le, UInt32.toNat_ofNat', List.foldl_append] at hnat
  rw [Nat.mod_eq_of_lt (foldl_crcByte_lt (foldl_crcByte_lt hstate w) b),
    Nat.mod_eq_of_lt (foldl_crcByte_lt (foldl_crcByte_lt hstate w') b)] at hnat
  have hmid := foldl_crcByte_inj (foldl_crcByte_lt hstate w) (foldl_crcByte_lt hstate w') b hnat
  rw [foldl_crcByte_eq _ w, foldl_crcByte_eq _ w', hw, hw'] at hmid
  have hx := crcBit_iterate_inj _ (Nat.xor_lt_two_pow hstate (hword w hw))
    (Nat.xor_lt_two_pow hstate (hword w' hw')) hmid
  exact leNat_inj (hw.trans hw'.symm) (Nat.xor_right_inj.mp hx)

end Crc
