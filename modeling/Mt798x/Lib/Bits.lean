import Mt798x.Lib.Bytes

/-!
# Bits of byte strings

A byte string as the list of its bits, the low bit of each byte first, and back.  A reader that
takes bits one by one reads from `bitsOf`; a writer that fills bytes from the low bit up writes
`pack`.
-/

namespace Bits

open Bytes

/-- The eight bits of a byte, low bit first. -/
def byteBits (b : Byte) : List Bool := (List.range 8).map fun i => b.toNat.testBit i

/-- The bits of a byte string. -/
def bitsOf (bs : List Byte) : List Bool := bs.flatMap byteBits

@[simp] lemma length_byteBits (b : Byte) : (byteBits b).length = 8 := by simp [byteBits]

@[simp] lemma bitsOf_nil : bitsOf [] = [] := rfl

lemma bitsOf_cons (b : Byte) (bs : List Byte) : bitsOf (b :: bs) = byteBits b ++ bitsOf bs := rfl

@[simp] lemma length_bitsOf (bs : List Byte) : (bitsOf bs).length = 8 * bs.length := by
  induction bs with
  | nil => rfl
  | cons b bs ih =>
    rw [bitsOf_cons, List.length_append, length_byteBits, ih, List.length_cons]
    omega

/-- A bit of a byte string is a bit of one of its bytes. -/
lemma getElem?_bitsOf (bs : List Byte) (i : ℕ) :
    (bitsOf bs)[i]? = bs[i / 8]?.map fun b => b.toNat.testBit (i % 8) := by
  induction bs generalizing i with
  | nil => simp
  | cons b bs ih =>
    rw [bitsOf_cons]
    by_cases hi : i < 8
    · rw [List.getElem?_append_left (by simpa using hi), Nat.div_eq_of_lt hi,
        Nat.mod_eq_of_lt hi]
      simp [byteBits, hi]
    · rw [List.getElem?_append_right (by simpa using hi), length_byteBits, ih,
        show i / 8 = (i - 8) / 8 + 1 by omega, show i % 8 = (i - 8) % 8 by omega]
      rfl

end Bits
