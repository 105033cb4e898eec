import Mt798x.Lib.Bytes

/-!
# Bits of a memory, high bit first

A memory is a function from places to bytes.  Its bits are numbered in the order of the network:
bit 0 is the high bit of the byte at place 0.  A number in big-endian order is read from a memory
and stored in one, and both are said by the bits.
-/

namespace MsbBits

open Bytes

/-- A memory. -/
abbrev Mem := ℕ → Byte

/-- A memory that holds zeros. -/
def zeros : Mem := fun _ => 0

/-- A bit of a memory. -/
def bit (m : Mem) (i : ℕ) : Bool := (m (i / 8)).toNat.testBit (7 - i % 8)

/-- The number in the first n bytes of a memory. -/
def beNat (m : Mem) : ℕ → ℕ
  | 0 => 0
  | n + 1 => 2 ^ 8 * beNat m n + (m n).toNat

/-- A number in n bytes. -/
def ofNat (n v : ℕ) : Mem := fun k => if k < n then UInt8.ofNat (v / 2 ^ (8 * (n - 1 - k))) else 0

/-- `n` bytes are copied to a place of a memory. -/
def store (m : Mem) (off n : ℕ) (src : Mem) : Mem :=
  fun k => if off ≤ k ∧ k < off + n then src (k - off) else m k

variable {m src : Mem} {n v i : ℕ}

@[simp] lemma bit_zeros (i : ℕ) : bit zeros i = false := Nat.zero_testBit _

/-- Two bytes with the same bits are one. -/
lemma byte_ext {a b : Byte} (h : ∀ j < 8, a.toNat.testBit j = b.toNat.testBit j) : a = b := by
  refine UInt8.toNat_inj.mp (Nat.eq_of_testBit_eq fun j => ?_)
  by_cases hj : j < 8
  · exact h j hj
  · have hpow : 2 ^ 8 ≤ 2 ^ j := Nat.pow_le_pow_right (by decide) (by omega)
    rw [Nat.testBit_lt_two_pow (a.toNat_lt.trans_le hpow),
      Nat.testBit_lt_two_pow (b.toNat_lt.trans_le hpow)]

lemma testBit_beNat (m : Mem) {n i : ℕ} (hi : i < 8 * n) :
    (beNat m n).testBit (8 * n - 1 - i) = bit m i := by
  induction n with
  | zero => omega
  | succ n ih =>
    rw [beNat, Nat.testBit_two_pow_mul_add _ (m n).toNat_lt]
    by_cases hlast : 8 * n ≤ i
    · rw [if_pos (by omega), bit, show i / 8 = n by omega,
        show 8 * (n + 1) - 1 - i = 7 - i % 8 by omega]
    · rw [if_neg (by omega), ← ih (by omega)]
      congr 1
      omega

lemma bit_ofNat (hi : i < 8 * n) : bit (ofNat n v) i = v.testBit (8 * n - 1 - i) := by
  rw [bit, ofNat, if_pos (by omega), UInt8.toNat_ofNat', Nat.testBit_mod_two_pow,
    decide_eq_true (by omega), Bool.true_and, Nat.testBit_div_two_pow]
  congr 1
  omega

lemma bit_store (m : Mem) (off n : ℕ) (src : Mem) (i : ℕ) :
    bit (store m off n src) i =
      if 8 * off ≤ i ∧ i < 8 * (off + n) then bit src (i - 8 * off) else bit m i := by
  rw [bit, store]
  by_cases h : 8 * off ≤ i ∧ i < 8 * (off + n)
  · rw [if_pos (by omega), if_pos h, bit, show (i - 8 * off) / 8 = i / 8 - off by omega,
      show (i - 8 * off) % 8 = i % 8 by omega]
  · rw [if_neg (by omega), if_neg h, bit]

end MsbBits
