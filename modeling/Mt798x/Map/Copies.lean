import Mt798x.Lib.Guard
import Mt798x.Map.Address

/-!
# Checked copies of bits

The copies of `mapcalc` between objects of 16, 8, 4 and 2 bytes, by numbers of bits that come from
the options, from the interface dump and from each other.  Here each access is checked against its
object and each shift against the width of its type.
-/

namespace Map.Checked

open Bytes MsbBits Guard

/-! ## Copying and comparing bits -/

/-- An object in memory. -/
structure Obj where
  size : ℕ
  mem : Mem

/-- A shift of a type that is so many bits wide. -/
def amount (width : ℕ) (n : ℤ) : Except Fault Unit :=
  if 0 ≤ n ∧ n < width then .ok () else .error .outside

/-- A number of bits as `size_t`. -/
def size_t (bits : ℤ) : ℕ := (bits % 2 ^ 64).toNat

/-- `memcmp`: the difference at the first byte that differs. -/
def memcmp (a b : Mem) : ℕ → ℤ
  | 0 => 0
  | n + 1 => if memcmp a b n = 0 then ((a n).toNat : ℤ) - (b n).toNat else memcmp a b n

/-- The byte that is touched in part, behind the full ones. -/
def touchLast (a b : Obj) (bits : ℕ) : Except Fault Unit := do
  amount 32 (8 - (bits % 8 : ℕ))
  touch a.size (bits / 8 + 1)
  touch b.size (bits / 8 + 1)

/-- `bmemcmp` -/
def bmemcmp (a b : Obj) (bits : ℕ) : Except Fault ℤ := do
  touch a.size (bits / 8)
  touch b.size (bits / 8)
  let res := memcmp a.mem b.mem (bits / 8)
  if res = 0 ∧ 0 < bits % 8 then do
    touchLast a b bits
    pure (((a.mem (bits / 8)).toNat / 2 ^ (8 - bits % 8) : ℕ) -
      ((b.mem (bits / 8)).toNat / 2 ^ (8 - bits % 8) : ℕ))
  else pure res

/-- `bmemcpy` -/
def bmemcpy (a b : Obj) (bits : ℕ) : Except Fault Mem := do
  touch a.size (bits / 8)
  touch b.size (bits / 8)
  if 0 < bits % 8 then do
    touchLast a b bits
    pure (Map.bmemcpy a.mem b.mem bits)
  else pure (Map.bmemcpy a.mem b.mem bits)

/-- `bmemcpys64` -/
def bmemcpys64 (a b : Obj) (frombits nbits : ℕ) : Except Fault Mem := do
  let frombyte := frombits / 8
  let tobyte := (frombits + nbits) / 8
  touch 8 (tobyte - frombyte + 1)
  touch b.size (tobyte + 1)
  let buf := store zeros 0 (tobyte - frombyte + 1) fun k => b.mem (frombyte + k)
  amount 64 (frombits % 8 : ℕ)
  bmemcpy a ⟨8, ofNat 8 (beNat buf 8 <<< (frombits % 8))⟩ nbits

/-- The first bits of two memories are the same. -/
def SameBits (a b : Mem) (bits : ℕ) : Prop := ∀ i < bits, bit a i = bit b i

instance (a b : Mem) (bits : ℕ) : Decidable (SameBits a b bits) :=
  inferInstanceAs (Decidable (∀ i < bits, bit a i = bit b i))

section Copies

variable {a b : Obj} {bits frombits nbits : ℕ}

lemma amount_eq {width : ℕ} {n : ℤ} (h : 0 ≤ n ∧ n < width) : amount width n = .ok () := if_pos h

lemma size_t_of_nonneg {n : ℤ} (h : 0 ≤ n) (h64 : n < 2 ^ 64) : size_t n = n.toNat := by
  rw [size_t, Int.emod_eq_of_lt h h64]

lemma size_t_of_neg {n : ℤ} (h : n < 0) (hint : -2 ^ 31 ≤ n) : 2 ^ 63 ≤ size_t n := by
  rw [size_t]
  omega

lemma memcmp_eq_zero (a b : Mem) (n : ℕ) : memcmp a b n = 0 ↔ ∀ k < n, a k = b k := by
  induction n with
  | zero => exact ⟨fun _ k hk => absurd hk (Nat.not_lt_zero k), fun _ => rfl⟩
  | succ n ih =>
    rw [memcmp]
    split
    · rename_i hzero
      have hbefore := ih.mp hzero
      constructor
      · intro hdiff k hk
        rcases Nat.lt_succ_iff_lt_or_eq.mp hk with hlt | rfl
        · exact hbefore k hlt
        · exact UInt8.toNat_inj.mp (by omega)
      · intro hall
        rw [hall n n.lt_succ_self, Int.sub_self]
    · rename_i hne
      exact ⟨fun h => absurd h hne, fun h => absurd (ih.mpr fun k hk => h k (by omega)) hne⟩

/-- The bits are the same if the full bytes are, and the bits of the one behind them. -/
lemma sameBits_iff (a b : Mem) (bits : ℕ) : SameBits a b bits ↔ (∀ k < bits / 8, a k = b k) ∧
    (0 < bits % 8 → (a (bits / 8)).toNat / 2 ^ (8 - bits % 8) =
      (b (bits / 8)).toNat / 2 ^ (8 - bits % 8)) := by
  constructor
  · intro hsame
    refine ⟨fun k hk => byte_ext fun j hj => ?_, fun _ => Nat.eq_of_testBit_eq fun j => ?_⟩
    · have hbit := hsame (8 * k + (7 - j)) (by omega)
      rw [bit, bit, show (8 * k + (7 - j)) / 8 = k by omega,
        show 7 - (8 * k + (7 - j)) % 8 = j by omega] at hbit
      exact hbit
    · rw [Nat.testBit_div_two_pow, Nat.testBit_div_two_pow]
      by_cases hj : j + (8 - bits % 8) < 8
      · have hbit := hsame (8 * (bits / 8) + (7 - (j + (8 - bits % 8)))) (by omega)
        rw [bit, bit, show (8 * (bits / 8) + (7 - (j + (8 - bits % 8)))) / 8 = bits / 8 by omega,
          show 7 - (8 * (bits / 8) + (7 - (j + (8 - bits % 8)))) % 8 = j + (8 - bits % 8)
            by omega] at hbit
        exact hbit
      · have hpow : 2 ^ 8 ≤ 2 ^ (j + (8 - bits % 8)) := Nat.pow_le_pow_right (by decide) (by omega)
        rw [Nat.testBit_lt_two_pow ((a (bits / 8)).toNat_lt.trans_le hpow),
          Nat.testBit_lt_two_pow ((b (bits / 8)).toNat_lt.trans_le hpow)]
  · rintro ⟨hbytes, hlast⟩ i hi
    rw [bit, bit]
    by_cases hfull : i / 8 < bits / 8
    · rw [hbytes _ hfull]
    · have hbit := congrArg (fun n => n.testBit (7 - i % 8 - (8 - bits % 8))) (hlast (by omega))
      simp only [Nat.testBit_div_two_pow] at hbit
      rw [show 7 - i % 8 - (8 - bits % 8) + (8 - bits % 8) = 7 - i % 8 by omega] at hbit
      rw [show i / 8 = bits / 8 by omega]
      exact hbit

lemma touchLast_eq (ha : bits ≤ 8 * a.size) (hb : bits ≤ 8 * b.size) (hpos : 0 < bits % 8) :
    touchLast a b bits = .ok () := by
  rw [touchLast, amount_eq (by omega), ok_bind, touch_eq (by omega), ok_bind, touch_eq (by omega)]

/-- Inside the two objects the comparison tells whether the bits are the same. -/
lemma bmemcmp_spec (ha : bits ≤ 8 * a.size) (hb : bits ≤ 8 * b.size) :
    ∃ res, bmemcmp a b bits = .ok res ∧ (res = 0 ↔ SameBits a.mem b.mem bits) := by
  rw [bmemcmp, touch_eq (by omega), ok_bind, touch_eq (by omega), ok_bind]
  dsimp only
  split
  · rename_i hrest
    rw [touchLast_eq ha hb hrest.2, ok_bind]
    refine ⟨_, rfl, ?_⟩
    rw [sameBits_iff, ← memcmp_eq_zero]
    constructor
    · exact fun hdiff => ⟨hrest.1, fun _ => by omega⟩
    · exact fun hsame => by rw [hsame.2 hrest.2, Int.sub_self]
  · rename_i hrest
    refine ⟨_, rfl, ?_⟩
    rw [sameBits_iff, ← memcmp_eq_zero]
    exact ⟨fun hres => ⟨hres, fun hpos => absurd ⟨hres, hpos⟩ hrest⟩, fun hsame => hsame.1⟩

lemma bmemcmp_outside (h : a.size < bits / 8) : bmemcmp a b bits = .error .outside := by
  rw [bmemcmp, touch, if_neg (by omega)]
  rfl

lemma bmemcpy_eq (ha : bits ≤ 8 * a.size) (hb : bits ≤ 8 * b.size) :
    bmemcpy a b bits = .ok (Map.bmemcpy a.mem b.mem bits) := by
  rw [bmemcpy, touch_eq (by omega), ok_bind, touch_eq (by omega), ok_bind]
  split
  · rename_i hpos
    rw [touchLast_eq ha hb hpos, ok_bind]
    rfl
  · rfl

lemma bmemcpy_outside (h : 8 * a.size < bits) : bmemcpy a b bits = .error .outside := by
  rw [bmemcpy]
  by_cases hfull : bits / 8 ≤ a.size
  · rw [touch_eq hfull, ok_bind, touch]
    split
    · rw [ok_bind, if_pos (by omega), touchLast, amount_eq (by omega), ok_bind, touch,
        if_neg (by omega)]
      rfl
    · rfl
  · rw [touch, if_neg hfull]
    rfl

/-- At most 48 bits behind a place are copied inside the objects if they fit the target and the byte
behind the last one is part of the source. -/
lemma bmemcpys64_eq (ha : nbits ≤ 8 * a.size) (h64 : frombits % 8 + nbits < 64)
    (hb : frombits + nbits < 8 * b.size) :
    ∃ m, Map.bmemcpys64 a.mem b.mem frombits nbits = some m ∧
      bmemcpys64 a b frombits nbits = .ok m := by
  refine ⟨_, if_neg (by omega), ?_⟩
  rw [bmemcpys64, touch_eq (by omega), ok_bind, touch_eq (by omega), ok_bind,
    amount_eq (by omega), ok_bind, bmemcpy_eq ha]
  dsimp only
  omega

lemma bmemcpys64_outside (h : 8 * a.size < nbits ∨ 8 * b.size ≤ frombits + nbits) :
    bmemcpys64 a b frombits nbits = .error .outside := by
  rw [bmemcpys64]
  by_cases hbuf : (frombits + nbits) / 8 - frombits / 8 + 1 ≤ 8
  · rw [touch_eq hbuf, ok_bind]
    by_cases hb : frombits + nbits < 8 * b.size
    · rw [touch_eq (by omega), ok_bind, amount_eq (by omega), ok_bind,
        bmemcpy_outside (by omega)]
    · rw [touch, if_neg (by omega)]
      rfl
  · rw [touch, if_neg hbuf]
    rfl

end Copies

end Map.Checked
