import Mt798x.Lib.Slots
import Mt798x.Lib.Splice

/-!
# Fields of a record in a memory

A program that changes fields of a record in a memory reads a block around the record, copies the
new fields into the block and writes the block back.  The memory afterwards is the old one with the
fields replaced, whatever the block is.
-/

namespace FlatImage

open Bytes

/-- The new content of a field, at its place in the record. -/
abbrev Patch := ℕ × List Byte

/-- The end of a field. -/
def Patch.stop (p : Patch) : ℕ := p.1 + p.2.length

/-- Two fields of a record that do not meet. -/
def Patch.Apart (p q : Patch) : Prop := p.stop ≤ q.1 ∨ q.stop ≤ p.1

/-- A memory with the fields of the record at `base` replaced. -/
def patch (mem : ℕ → Byte) (base : ℕ) (ps : List Patch) : ℕ → Byte :=
  ps.foldl (fun mem p => overwrite mem (base + p.1) p.2) mem

/-- A buffer with the fields of the record at `base` replaced. -/
def patchBuf (buf : List Byte) (base : ℕ) (ps : List Patch) : List Byte :=
  ps.foldl (fun buf p => splice buf (base + p.1) p.2) buf

variable {mem : ℕ → Byte} {buf chunk : List Byte} {ps : List Patch} {p : Patch}
  {a n base off i : ℕ}

@[simp] lemma patch_nil (mem : ℕ → Byte) (base : ℕ) : patch mem base [] = mem := rfl

@[simp] lemma patch_cons (mem : ℕ → Byte) (base : ℕ) (p : Patch) (ps : List Patch) :
    patch mem base (p :: ps) = patch (overwrite mem (base + p.1) p.2) base ps := rfl

lemma patch_append (mem : ℕ → Byte) (base : ℕ) (ps qs : List Patch) :
    patch mem base (ps ++ qs) = patch (patch mem base ps) base qs := List.foldl_append

@[simp] lemma patchBuf_cons (buf : List Byte) (base : ℕ) (p : Patch) (ps : List Patch) :
    patchBuf buf base (p :: ps) = patchBuf (splice buf (base + p.1) p.2) base ps := rfl

/-! ## The block -/

lemma overwrite_slice_self (mem : ℕ → Byte) (a n : ℕ) : overwrite mem a (slice mem a n) = mem := by
  funext x
  rw [overwrite]
  split
  · rename_i hle
    rcases Nat.lt_or_ge (x - a) n with hlt | hge
    · rw [slice, List.getElem?_map, List.getElem?_range hlt]
      exact congrArg mem (Nat.add_sub_of_le hle)
    · rw [List.getElem?_eq_none (by rwa [length_slice])]
      rfl
  · rfl

/-- A block with a part replaced is written as the block and then the part. -/
lemma overwrite_splice (mem : ℕ → Byte) (a : ℕ) (h : off + chunk.length ≤ buf.length) :
    overwrite mem a (splice buf off chunk) = overwrite (overwrite mem a buf) (a + off) chunk := by
  -- outside the part both sides look at the same cell of `buf`
  have hsame : ∀ x, x < a + off ∨ a + off + chunk.length ≤ x →
      overwrite mem a (splice buf off chunk) x = overwrite mem a buf x := by
    intro x hx
    rw [overwrite, overwrite]
    split
    · rw [getElem?_splice_of_not_mem h (by omega)]
    · rfl
  funext x
  rcases Nat.lt_or_ge x (a + off) with hlt | hge
  · rw [overwrite_of_lt _ hlt, hsame x (.inl hlt)]
  · rcases Nat.lt_or_ge x (a + off + chunk.length) with hin | hout
    · have hsome : x - (a + off) < chunk.length := by omega
      rw [overwrite, if_pos (by omega), getElem?_splice_of_mem h (by omega) (by omega), overwrite,
        if_pos hge, show x - a - off = x - (a + off) by omega, List.getElem?_eq_getElem hsome]
      rfl
    · exact (hsame x (.inr hout)).trans (overwrite_of_ge hout).symm

lemma length_patchBuf (h : ∀ p ∈ ps, base + p.stop ≤ buf.length) :
    (patchBuf buf base ps).length = buf.length := by
  induction ps generalizing buf with
  | nil => rfl
  | cons p ps ih =>
    have hp : base + p.1 + p.2.length ≤ buf.length := by
      have := h p List.mem_cons_self
      rw [Patch.stop] at this
      omega
    have hlen := length_splice hp
    rw [patchBuf_cons, ih fun q hq => hlen ▸ h q (List.mem_cons_of_mem _ hq), hlen]

lemma overwrite_patchBuf (a : ℕ) (h : ∀ p ∈ ps, base + p.stop ≤ buf.length) :
    overwrite mem a (patchBuf buf base ps) = patch (overwrite mem a buf) (a + base) ps := by
  induction ps generalizing buf with
  | nil => rfl
  | cons p ps ih =>
    have hp : base + p.1 + p.2.length ≤ buf.length := by
      have := h p List.mem_cons_self
      rw [Patch.stop] at this
      omega
    have hlen := length_splice hp
    rw [patchBuf_cons, ih fun q hq => hlen ▸ h q (List.mem_cons_of_mem _ hq),
      overwrite_splice _ _ hp, patch_cons, Nat.add_assoc]

/-- A block with fields replaced is a block of the memory with the fields replaced. -/
lemma patchBuf_slice (mem : ℕ → Byte) (a : ℕ) (h : ∀ p ∈ ps, base + p.stop ≤ n) :
    patchBuf (slice mem a n) base ps = slice (patch mem (a + base) ps) a n := by
  have hfit : ∀ p ∈ ps, base + p.stop ≤ (slice mem a n).length := by rwa [length_slice]
  have hwrite : overwrite mem a (patchBuf (slice mem a n) base ps) = patch mem (a + base) ps := by
    rw [overwrite_patchBuf a hfit, overwrite_slice_self]
  have hlen : (patchBuf (slice mem a n) base ps).length = n := by
    rw [length_patchBuf hfit, length_slice]
  have hself := slice_overwrite_self mem a (patchBuf (slice mem a n) base ps)
  rw [hlen, hwrite] at hself
  exact hself.symm

/-! ## The memory -/

lemma patch_of_out (h : ∀ p ∈ ps, i < base + p.1 ∨ base + p.stop ≤ i) :
    patch mem base ps i = mem i := by
  induction ps generalizing mem with
  | nil => rfl
  | cons p ps ih =>
    rw [patch_cons, ih fun q hq => h q (List.mem_cons_of_mem _ hq)]
    have hout := h p List.mem_cons_self
    rw [Patch.stop] at hout
    exact hout.elim (fun hlt => overwrite_of_lt _ hlt) fun hge => overwrite_of_ge (by omega)

lemma slice_patch_of_apart (h : ∀ p ∈ ps, a + n ≤ base + p.1 ∨ base + p.stop ≤ a) :
    slice (patch mem base ps) a n = slice mem a n :=
  slice_congr fun i hle hlt => patch_of_out fun p hp => (h p hp).elim
    (fun hend => .inl (by omega)) fun hstart => .inr (by omega)

/-- Each field holds what has been copied there. -/
lemma slice_patch_self (hps : ps.Pairwise Patch.Apart) (hp : p ∈ ps) :
    slice (patch mem base ps) (base + p.1) p.2.length = p.2 := by
  induction ps generalizing mem with
  | nil => cases hp
  | cons q ps ih =>
    obtain ⟨hhead, htail⟩ := List.pairwise_cons.mp hps
    rw [patch_cons]
    rcases List.mem_cons.mp hp with rfl | hp
    · rw [slice_patch_of_apart, slice_overwrite_self]
      intro q hq
      have hapart := hhead q hq
      rw [Patch.Apart, Patch.stop] at hapart
      omega
    · exact ih htail hp

end FlatImage
