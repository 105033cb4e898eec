import Mt798x.Lib.FlatImage

/-!
# Memory in slots

Parts of a memory that do not meet a write are left alone by it, and a memory that is cut into slots
of one size has slots that do not meet.
-/

namespace FlatImage

variable {β : Type*} {mem : ℕ → β} {data : List β} {a b n i j s : ℕ}

lemma slice_overwrite_self (mem : ℕ → β) (a : ℕ) (data : List β) :
    slice (overwrite mem a data) a data.length = data := by
  refine List.ext_getElem (by simp) fun k hk hk' => ?_
  rw [length_slice] at hk
  simp [slice, overwrite, hk]

/-- A write leaves what is in front of it and what is behind it. -/
lemma slice_overwrite_of_apart (h : a + n ≤ b ∨ b + data.length ≤ a) :
    slice (overwrite mem b data) a n = slice mem a n := by
  refine slice_congr fun x hx hx' => ?_
  rcases h with h | h
  · exact overwrite_of_lt data (by omega)
  · exact overwrite_of_ge (by omega)

lemma slice_append_left {l l' : List β} (h : slice mem a n = l ++ l') :
    slice mem a l.length = l := by
  have hlen := congrArg List.length h
  rw [length_slice, List.length_append] at hlen
  rw [hlen, slice_add] at h
  exact List.append_inj_left h (length_slice _ _ _)

lemma slice_append_right {l l' : List β} (h : slice mem a n = l ++ l') :
    slice mem (a + l.length) l'.length = l' := by
  have hlen := congrArg List.length h
  rw [length_slice, List.length_append] at hlen
  rw [hlen, slice_add] at h
  exact List.append_inj_right h (length_slice _ _ _)

lemma slots_apart (h : i ≠ j) (s : ℕ) : i * s + s ≤ j * s ∨ j * s + s ≤ i * s := by
  rcases Nat.lt_or_gt_of_ne h with hlt | hlt
  · have hle := Nat.mul_le_mul_right s (Nat.succ_le_of_lt hlt)
    rw [Nat.succ_mul] at hle
    exact .inl hle
  · have hle := Nat.mul_le_mul_right s (Nat.succ_le_of_lt hlt)
    rw [Nat.succ_mul] at hle
    exact .inr hle

lemma slot_end_le (h : i < n) (s : ℕ) : i * s + s ≤ n * s := by
  have hle := Nat.mul_le_mul_right s (Nat.succ_le_of_lt h)
  rwa [Nat.succ_mul] at hle

end FlatImage
