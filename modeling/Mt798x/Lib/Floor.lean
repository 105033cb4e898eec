import Mathlib

/-!
# Counters that stop at zero

A counter goes up for some letters of a word and down for the others, but not below zero.  It ends
at most at `k` when every tail of the word has at most `k` more letters up than down.
-/

namespace Floor

variable {α : Type*} {up : α → Bool}

/-- The counter after a word. -/
def count (up : α → Bool) (l : List α) : ℕ :=
  l.foldl (fun c a => if up a then c + 1 else c - 1) 0

@[simp] lemma count_nil : count up [] = 0 := rfl

@[simp] lemma count_concat (l : List α) (a : α) :
    count up (l ++ [a]) = if up a then count up l + 1 else count up l - 1 := by
  rw [count, List.foldl_append]
  rfl

lemma count_le_iff (l : List α) (k : ℕ) :
    count up l ≤ k ↔ ∀ t, t <:+ l → t.countP up ≤ t.countP (fun a => !up a) + k := by
  induction l using List.reverseRecOn generalizing k with
  | nil => simp
  | append_singleton l a ih =>
    -- The tails of the longer word are the empty one and those that end in the new letter.
    have htails : (∀ t, t <:+ l ++ [a] → t.countP up ≤ t.countP (fun a => !up a) + k) ↔
        ∀ t, t <:+ l → (t ++ [a]).countP up ≤ (t ++ [a]).countP (fun a => !up a) + k := by
      constructor
      · intro h t ht
        obtain ⟨r, rfl⟩ := ht
        exact h (t ++ [a]) ⟨r, by simp⟩
      · intro h t ht
        rcases List.suffix_concat_iff.mp ht with rfl | ⟨t', rfl, ht'⟩
        · simp
        · exact h t' ht'
    rw [htails, count_concat]
    cases hup : up a with
    | true =>
      cases k with
      | zero =>
        simp only [if_true, Nat.le_zero_eq, Nat.add_one_ne_zero, false_iff]
        intro h
        simpa [hup] using h [] (List.nil_suffix)
      | succ k =>
        simp only [if_true, Nat.add_le_add_iff_right, ih k]
        refine forall_congr' fun t => imp_congr_right fun _ => ?_
        simp only [List.countP_append, List.countP_singleton, hup]
        simp
        omega
    | false =>
      simp only [Bool.false_eq_true, if_false, Nat.sub_le_iff_le_add, ih (k + 1)]
      refine forall_congr' fun t => imp_congr_right fun _ => ?_
      simp only [List.countP_append, List.countP_singleton, hup]
      simp
      omega

end Floor
