import Mathlib

/-!
# Block translation

A memory is a function from addresses.  A translation moves whole blocks; the image of a memory
under it is the memory as seen through the translation.  Reading a part of a block through the
translation reads a part of the memory, and under an injective translation writing to the memory
writes to the image.
-/

namespace FlatImage

variable {β : Type*}

/-- The `n` cells from `a` on. -/
def slice (mem : ℕ → β) (a n : ℕ) : List β := (List.range n).map fun i => mem (a + i)

/-- The memory with the cells from `a` on replaced. -/
def overwrite (mem : ℕ → β) (a : ℕ) (data : List β) (x : ℕ) : β :=
  if a ≤ x then (data[x - a]?).getD (mem x) else mem x

/-- The memory seen through a translation of its blocks. -/
def image (blk : ℕ) (phys : ℕ → ℕ) (mem : ℕ → β) (x : ℕ) : β :=
  mem (phys (x / blk) * blk + x % blk)

@[simp] lemma length_slice (mem : ℕ → β) (a n : ℕ) : (slice mem a n).length = n := by
  rw [slice, List.length_map, List.length_range]

@[simp] lemma slice_zero (mem : ℕ → β) (a : ℕ) : slice mem a 0 = [] := rfl

lemma slice_add (mem : ℕ → β) (a m n : ℕ) :
    slice mem a (m + n) = slice mem a m ++ slice mem (a + m) n := by
  rw [slice, List.range_add, List.map_append, List.map_map]
  congr 1
  refine List.map_congr_left fun i _ => ?_
  rw [Function.comp_apply, Nat.add_assoc]

lemma slice_congr {mem mem' : ℕ → β} {a n : ℕ} (h : ∀ x, a ≤ x → x < a + n → mem x = mem' x) :
    slice mem a n = slice mem' a n :=
  List.map_congr_left fun i hi => h _ (by omega) (by have := List.mem_range.mp hi; omega)

@[simp] lemma overwrite_nil (mem : ℕ → β) (a : ℕ) : overwrite mem a [] = mem := by
  funext x
  rw [overwrite, List.getElem?_nil, Option.getD_none, ite_self]

lemma overwrite_of_lt {mem : ℕ → β} {a x : ℕ} (data : List β) (h : x < a) :
    overwrite mem a data x = mem x := if_neg (not_le.mpr h)

lemma overwrite_of_ge {mem : ℕ → β} {a x : ℕ} {data : List β} (h : a + data.length ≤ x) :
    overwrite mem a data x = mem x := by
  rw [overwrite, List.getElem?_eq_none (by omega), Option.getD_none, ite_self]

lemma overwrite_append (mem : ℕ → β) (a : ℕ) (data data' : List β) :
    overwrite mem a (data ++ data') =
      overwrite (overwrite mem a data) (a + data.length) data' := by
  funext x
  rcases Nat.lt_or_ge x a with h | h
  · rw [overwrite_of_lt _ h, overwrite_of_lt _ (by omega), overwrite_of_lt _ h]
  · rcases Nat.lt_or_ge x (a + data.length) with hx | hx
    · rw [overwrite_of_lt _ hx, overwrite, overwrite, if_pos h, if_pos h,
        List.getElem?_append_left (by omega)]
    · rw [overwrite, if_pos h, overwrite, if_pos hx, overwrite_of_ge hx,
        List.getElem?_append_right (by omega), Nat.sub_sub]

lemma overwrite_congr {mem mem' : ℕ → β} {s : Set ℕ} (h : Set.EqOn mem mem' s) (a : ℕ)
    (data : List β) : Set.EqOn (overwrite mem a data) (overwrite mem' a data) s := by
  intro x hx
  rw [overwrite, overwrite, h hx]

section Image

variable {blk : ℕ} {phys : ℕ → ℕ} (mem : ℕ → β) {b off : ℕ}

lemma image_block {i : ℕ} (h : i < blk) :
    image blk phys mem (b * blk + i) = mem (phys b * blk + i) := by
  rw [image, Nat.mul_comm b blk, Nat.mul_add_mod, Nat.mod_eq_of_lt h, Nat.mul_add_div (by omega),
    Nat.div_eq_of_lt h, Nat.add_zero]

/-- Reading a part of a block through the translation. -/
lemma slice_image {n : ℕ} (h : off + n ≤ blk) :
    slice (image blk phys mem) (b * blk + off) n = slice mem (phys b * blk + off) n := by
  refine List.map_congr_left fun i hi => ?_
  have := List.mem_range.mp hi
  rw [Nat.add_assoc, image_block mem (by omega), Nat.add_assoc]

/-- Writing a part of a block under a translation that moves no other block of `s` there. -/
lemma image_overwrite {s : Set ℕ} (hpos : 0 < blk) (hinj : ∀ c ∈ s, phys c = phys b → c = b)
    {data : List β} (h : off + data.length ≤ blk) {x : ℕ} (hx : x / blk ∈ s) :
    image blk phys (overwrite mem (phys b * blk + off) data) x =
      overwrite (image blk phys mem) (b * blk + off) data x := by
  have hmod := Nat.mod_lt x hpos
  have hdecomp := Nat.div_add_mod' x blk
  by_cases hb : x / blk = b
  · -- the same block: both sides look at the same cell of `data`
    rw [image, hb]
    rw [hb] at hdecomp
    rcases Nat.lt_or_ge (x % blk) off with hlt | hge
    · rw [overwrite_of_lt _ (by omega), overwrite_of_lt _ (by omega), image, hb]
    · rw [overwrite, if_pos (by omega), overwrite, if_pos (by omega), image, hb]
      congr 2
      omega
  · have hphys : phys (x / blk) ≠ phys b := fun heq => hb (hinj _ hx heq)
    have hside : ∀ p q : ℕ, p ≠ q → ∀ i < blk, p * blk + i < q * blk + off ∨
        q * blk + off + data.length ≤ p * blk + i := by
      intro p q hpq i hi
      rcases Nat.lt_or_gt_of_ne hpq with hlt | hgt
      · have := Nat.mul_le_mul_right blk (Nat.succ_le_of_lt hlt)
        rw [Nat.succ_mul] at this
        exact Or.inl (by omega)
      · have := Nat.mul_le_mul_right blk (Nat.succ_le_of_lt hgt)
        rw [Nat.succ_mul] at this
        exact Or.inr (by omega)
    have hout : overwrite (image blk phys mem) (b * blk + off) data x = image blk phys mem x := by
      have := hside _ _ hb _ hmod
      rw [hdecomp] at this
      exact this.elim (fun h => overwrite_of_lt _ h) fun h => overwrite_of_ge h
    rw [hout, image, image]
    exact (hside _ _ hphys _ hmod).elim (fun h => overwrite_of_lt _ h) fun h => overwrite_of_ge h

end Image

end FlatImage
