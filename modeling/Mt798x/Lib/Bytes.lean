import Mathlib

/-!
# Byte buffers

Little-endian words in byte lists, and the copy of a block of bytes into a buffer
(`splice`, the effect of `memcpy(buf + off, chunk, chunk.length)`).  The round trips
proved here are the ones a writer and a reader of a packed table need: a word, a list of
words, and what a spliced buffer holds inside and outside the copied block.
-/

namespace Bytes

/-- A byte of a buffer. -/
abbrev Byte := UInt8

/-! ## Words -/

/-- The four little-endian bytes of a 32-bit word. -/
def le32 (w : UInt32) : List Byte :=
  [UInt8.ofNat w.toNat, UInt8.ofNat (w.toNat / 256), UInt8.ofNat (w.toNat / 65536),
    UInt8.ofNat (w.toNat / 16777216)]

/-- The little-endian 32-bit word at the start of a byte list; missing bytes read as 0. -/
def rd32 (bs : List Byte) : UInt32 :=
  UInt32.ofNat ((bs.getD 0 0).toNat + 256 * (bs.getD 1 0).toNat
    + 65536 * (bs.getD 2 0).toNat + 16777216 * (bs.getD 3 0).toNat)

@[simp] lemma length_le32 (w : UInt32) : (le32 w).length = 4 := rfl

@[simp] lemma rd32_le32_append (w : UInt32) (t : List Byte) : rd32 (le32 w ++ t) = w := by
  have hw : w.toNat < 4294967296 := w.toNat_lt
  have hsum : w.toNat % 256 + 256 * (w.toNat / 256 % 256) + 65536 * (w.toNat / 65536 % 256)
      + 16777216 * (w.toNat / 16777216 % 256) = w.toNat := by omega
  apply UInt32.toNat_inj.mp
  simp only [rd32, le32, List.cons_append, List.nil_append, List.getD_cons_zero,
    List.getD_cons_succ, UInt32.toNat_ofNat', UInt8.toNat_ofNat', Nat.reducePow]
  rw [hsum]
  exact Nat.mod_eq_of_lt hw

lemma rd32_take_four (bs : List Byte) : rd32 (bs.take 4) = rd32 bs := by
  have hget : ∀ i < 4, (bs.take 4).getD i 0 = bs.getD i 0 := by
    intro i hi
    rw [List.getD_eq_getElem?_getD, List.getD_eq_getElem?_getD, List.getElem?_take_of_lt hi]
  rw [rd32, rd32, hget 0 (by decide), hget 1 (by decide), hget 2 (by decide), hget 3 (by decide)]

/-- A list of words, one after the other. -/
def leWords (ws : List UInt32) : List Byte := ws.flatMap le32

/-- The first `n` words of a byte list. -/
def rdWords : ℕ → List Byte → List UInt32
  | 0, _ => []
  | n + 1, bs => rd32 bs :: rdWords n (bs.drop 4)

@[simp] lemma leWords_nil : leWords [] = [] := rfl

@[simp] lemma leWords_cons (w : UInt32) (ws : List UInt32) :
    leWords (w :: ws) = le32 w ++ leWords ws := rfl

@[simp] lemma length_leWords (ws : List UInt32) : (leWords ws).length = 4 * ws.length := by
  induction ws with
  | nil => rfl
  | cons w ws ih =>
    rw [leWords_cons, List.length_append, length_le32, ih, List.length_cons]
    omega

@[simp] lemma length_rdWords (n : ℕ) (bs : List Byte) : (rdWords n bs).length = n := by
  induction n generalizing bs with
  | zero => rfl
  | succ n ih => simp [rdWords, ih]

lemma rdWords_leWords_append (ws : List UInt32) (t : List Byte) :
    rdWords ws.length (leWords ws ++ t) = ws := by
  induction ws with
  | nil => rfl
  | cons w ws ih =>
    have hdrop : (le32 w ++ (leWords ws ++ t)).drop 4 = leWords ws ++ t := by
      rw [List.drop_append_of_le_length (by simp)]
      simp [le32]
    rw [leWords_cons, List.append_assoc, List.length_cons, rdWords, rd32_le32_append, hdrop, ih]

lemma rdWords_take (n : ℕ) (bs : List Byte) : rdWords n (bs.take (4 * n)) = rdWords n bs := by
  induction n generalizing bs with
  | zero => rfl
  | succ n ih =>
    have h1 : rd32 (bs.take (4 * (n + 1))) = rd32 bs := by
      rw [← rd32_take_four, ← rd32_take_four bs, List.take_take,
        Nat.min_eq_left (by omega)]
    have h2 : (bs.take (4 * (n + 1))).drop 4 = (bs.drop 4).take (4 * n) := by
      rw [List.drop_take, show 4 * (n + 1) - 4 = 4 * n by omega]
    rw [rdWords, rdWords, h1, h2, ih]

/-! ## Words in the byte order of the processor -/

/-- The byte order of a processor. -/
inductive Endian where
  | little
  | big
  deriving DecidableEq, Repr

/-- The four bytes of a 32-bit word as a processor stores them. -/
def put32 (e : Endian) (w : UInt32) : List Byte :=
  match e with
  | .little => le32 w
  | .big => (le32 w).reverse

/-- The 32-bit word a processor loads from the start of a byte list; missing bytes read as 0. -/
def get32 (e : Endian) (bs : List Byte) : UInt32 :=
  match e with
  | .little => rd32 bs
  | .big => rd32 [bs.getD 3 0, bs.getD 2 0, bs.getD 1 0, bs.getD 0 0]

@[simp] lemma length_put32 (e : Endian) (w : UInt32) : (put32 e w).length = 4 := by
  cases e <;> rfl

@[simp] lemma get32_put32_append (e : Endian) (w : UInt32) (t : List Byte) :
    get32 e (put32 e w ++ t) = w := by
  cases e with
  | little => exact rd32_le32_append w t
  | big =>
    have h := rd32_le32_append w []
    rw [List.append_nil] at h
    exact h

/-- Four bytes are the bytes of the word they hold. -/
lemma le32_rd32 (a b c d : Byte) : le32 (rd32 [a, b, c, d]) = [a, b, c, d] := by
  have ha := a.toNat_lt
  have hb := b.toNat_lt
  have hc := c.toNat_lt
  have hd := d.toNat_lt
  have hlt : a.toNat + 256 * b.toNat + 65536 * c.toNat + 16777216 * d.toNat < 2 ^ 32 := by omega
  simp only [le32, rd32, List.getD_cons_zero, List.getD_cons_succ, UInt32.toNat_ofNat',
    Nat.mod_eq_of_lt hlt, List.cons.injEq, and_true]
  refine ⟨?_, ?_, ?_, ?_⟩ <;> apply UInt8.toNat_inj.mp <;>
    simp only [UInt8.toNat_ofNat', Nat.reducePow] <;> omega

lemma put32_get32 (e : Endian) {bs : List Byte} (h : bs.length = 4) :
    put32 e (get32 e bs) = bs := by
  obtain ⟨a, b, c, d, rfl⟩ : ∃ a b c d, bs = [a, b, c, d] := by
    match bs, h with
    | [a, b, c, d], _ => exact ⟨a, b, c, d, rfl⟩
  cases e with
  | little => exact le32_rd32 a b c d
  | big =>
    show (le32 (rd32 [d, c, b, a])).reverse = _
    rw [le32_rd32]
    rfl

lemma get32_take_four (e : Endian) (bs : List Byte) : get32 e (bs.take 4) = get32 e bs := by
  cases e with
  | little => exact rd32_take_four bs
  | big =>
    have hget : ∀ i < 4, (bs.take 4).getD i 0 = bs.getD i 0 := by
      intro i hi
      rw [List.getD_eq_getElem?_getD, List.getD_eq_getElem?_getD, List.getElem?_take_of_lt hi]
    rw [get32, get32, hget 0 (by decide), hget 1 (by decide), hget 2 (by decide),
      hget 3 (by decide)]

/-! ## Copies into a buffer -/

/-- The buffer `buf` after `chunk` has been copied to offset `off`. -/
def splice (buf : List Byte) (off : ℕ) (chunk : List Byte) : List Byte :=
  buf.take off ++ chunk ++ buf.drop (off + chunk.length)

lemma length_splice {buf chunk : List Byte} {off : ℕ} (h : off + chunk.length ≤ buf.length) :
    (splice buf off chunk).length = buf.length := by
  simp only [splice, List.length_append, List.length_take, List.length_drop]
  omega

lemma drop_splice_self {buf chunk : List Byte} {off : ℕ} (h : off ≤ buf.length) :
    (splice buf off chunk).drop off = chunk ++ buf.drop (off + chunk.length) := by
  have hlen : (buf.take off).length = off := by simp [h]
  rw [splice, List.append_assoc, List.drop_append_of_le_length (by omega),
    List.drop_eq_nil_of_le (by omega), List.nil_append]

/-- A copy at or after the end of a prefix leaves the prefix alone. -/
lemma take_splice_of_le {buf chunk : List Byte} {off k : ℕ} (hk : k ≤ off)
    (h : off ≤ buf.length) : (splice buf off chunk).take k = buf.take k := by
  have hlen : (buf.take off).length = off := by simp [h]
  rw [splice, List.append_assoc, List.take_append_of_le_length (by omega), List.take_take,
    Nat.min_eq_left hk]

/-- A copy that ends before an offset leaves everything from there on alone. -/
lemma drop_splice_of_le {buf chunk : List Byte} {off k : ℕ} (hk : off + chunk.length ≤ k)
    (h : off + chunk.length ≤ buf.length) : (splice buf off chunk).drop k = buf.drop k := by
  have hlen : (buf.take off ++ chunk).length = off + chunk.length := by
    simp only [List.length_append, List.length_take]
    omega
  rw [splice, List.drop_append, List.drop_eq_nil_of_le (by omega), List.nil_append,
    List.drop_drop, hlen]
  congr 1
  omega

/-- A copy behind an offset, seen from that offset on. -/
lemma drop_splice_of_ge {buf chunk : List Byte} {off k : ℕ} (hk : k ≤ off)
    (h : off ≤ buf.length) :
    (splice buf off chunk).drop k = splice (buf.drop k) (off - k) chunk := by
  have hlen : (buf.take off).length = off := by simp [h]
  rw [splice, splice, List.append_assoc, List.append_assoc,
    List.drop_append_of_le_length (by omega), List.drop_take, List.drop_drop,
    show k + (off - k + chunk.length) = off + chunk.length by omega]

lemma rd32_drop_splice_of_le {buf chunk : List Byte} {off k : ℕ} (hk : k + 4 ≤ off)
    (h : off ≤ buf.length) : rd32 ((splice buf off chunk).drop k) = rd32 (buf.drop k) := by
  rw [← rd32_take_four, ← rd32_take_four (buf.drop k), drop_splice_of_ge (by omega) h,
    take_splice_of_le (by omega) (by rw [List.length_drop]; omega)]

/-- The second of two copies to the same place wins. -/
lemma splice_splice_same {buf a b : List Byte} {off : ℕ} (h : off ≤ buf.length)
    (hab : a.length = b.length) : splice (splice buf off a) off b = splice buf off b := by
  have htake : (splice buf off a).take off = buf.take off := take_splice_of_le le_rfl h
  have hdrop : (splice buf off a).drop (off + b.length) = buf.drop (off + b.length) := by
    rw [← List.drop_drop, drop_splice_self h, hab, List.drop_append, List.drop_eq_nil_of_le hab.le,
      List.nil_append, hab, Nat.sub_self, List.drop_zero]
  rw [splice, htake, hdrop]
  rfl

/-- Two copies one behind the other are one copy. -/
lemma splice_append {buf a b : List Byte} {off : ℕ} (h : off ≤ buf.length) :
    splice (splice buf off a) (off + a.length) b = splice buf off (a ++ b) := by
  have hlen : (buf.take off ++ a).length = off + a.length := by
    rw [List.length_append, List.length_take, Nat.min_eq_left h]
  have htake : (splice buf off a).take (off + a.length) = buf.take off ++ a := by
    rw [splice, List.take_append_of_le_length hlen.ge, List.take_of_length_le hlen.le]
  have hdrop : (splice buf off a).drop (off + a.length + b.length) =
      buf.drop (off + a.length + b.length) := by
    rw [splice, List.drop_append, List.drop_eq_nil_of_le (by omega), List.nil_append, hlen,
      List.drop_drop]
    congr 1
    omega
  rw [splice, htake, hdrop, splice, List.length_append, List.append_assoc, List.append_assoc,
    List.append_assoc, List.append_assoc, Nat.add_assoc]

lemma splice_zero_of_length {buf a : List Byte} (h : a.length = buf.length) :
    splice buf 0 a = a := by
  rw [splice, List.take_zero, List.nil_append, List.drop_eq_nil_of_le (by omega), List.append_nil]

end Bytes
