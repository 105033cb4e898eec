import Mt798x.Lib.Bytes

/-!
# Halfwords

The 16-bit words that a processor of some byte order loads from a list of bytes.
-/

namespace Bytes

/-- The 16-bit word a processor loads from the start of a byte list; missing bytes read as 0. -/
def get16 (e : Endian) (bs : List Byte) : ℕ :=
  match e with
  | .little => (bs.getD 0 0).toNat + 256 * (bs.getD 1 0).toNat
  | .big => (bs.getD 1 0).toNat + 256 * (bs.getD 0 0).toNat

lemma get16_lt (e : Endian) (bs : List Byte) : get16 e bs < 2 ^ 16 := by
  have h0 := (bs.getD 0 0).toNat_lt
  have h1 := (bs.getD 1 0).toNat_lt
  cases e <;> rw [get16] <;> omega

lemma get16_ones (e f : Endian) (bs : List Byte) : get16 e bs = 0xffff ↔ get16 f bs = 0xffff := by
  have h0 := (bs.getD 0 0).toNat_lt
  have h1 := (bs.getD 1 0).toNat_lt
  have hones : ∀ g : Endian, get16 g bs = 0xffff ↔
      (bs.getD 0 0).toNat = 255 ∧ (bs.getD 1 0).toNat = 255 := by
    intro g
    cases g <;> rw [get16] <;> omega
  rw [hones e, hones f]

end Bytes
