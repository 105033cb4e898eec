import Mathlib

/-!
# Texts that are lists of tokens

A text is cut into tokens at a separator; a text always has one token at least.  Replacing a token
of a text by one without the separator replaces it in the list of tokens.  Conversely groups that
are written without the separator can be read back from what they are written to with a separator
behind each but the last (`streamed_injective`).
-/

namespace Tokens

variable {α : Type*} {l t v : List α} {T : List (List α)} {i n : ℕ}

/-- The `i`-th token replaced, with empty tokens added up to it. -/
def putAt (T : List (List α)) (i : ℕ) (v : List α) : List (List α) :=
  (T ++ List.replicate (i + 1 - T.length) []).set i v

lemma putAt_of_lt (h : i < T.length) : putAt T i v = T.set i v := by
  have hzero : i + 1 - T.length = 0 := by omega
  rw [putAt, hzero, List.replicate_zero, List.append_nil]

lemma putAt_length : putAt T T.length v = T ++ [v] := by
  have hone : T.length + 1 - T.length = 1 := by omega
  rw [putAt, hone, List.replicate_one, List.set_append_right T.length v le_rfl, Nat.sub_self]
  rfl

lemma putAt_ne_nil : putAt T i v ≠ [] := by
  intro h
  have hlen := congrArg List.length h
  rw [putAt, List.length_set, List.length_append, List.length_replicate, List.length_nil] at hlen
  omega

section

variable [BEq α] [LawfulBEq α] {x : α}

lemma notMem_of_mem_splitOn (h : t ∈ l.splitOn x) : x ∉ t := by
  induction l generalizing t with
  | nil =>
    rw [List.splitOn_nil, List.mem_singleton] at h
    rw [h]
    exact List.not_mem_nil
  | cons a l ih =>
    rw [List.splitOn_cons_eq_if_modifyHead] at h
    split at h
    · rcases List.mem_cons.mp h with rfl | h
      · exact List.not_mem_nil
      · exact ih h
    · rename_i hne
      rcases hsplit : l.splitOn x with - | ⟨u, us⟩
      · exact absurd hsplit (List.splitOn_ne_nil x l)
      · rw [hsplit] at h ih
        rcases List.mem_cons.mp h with rfl | h
        · rintro (- | ⟨-, hx⟩)
          · exact hne (beq_self_eq_true x)
          · exact ih (List.mem_cons_self ..) hx
        · exact ih (List.mem_cons_of_mem _ h)

lemma mem_iff_splitOn {a : α} (ha : a ≠ x) : a ∈ l ↔ ∃ t ∈ l.splitOn x, a ∈ t := by
  induction l with
  | nil => simp [List.splitOn_nil]
  | cons b l ih =>
    rw [List.mem_cons, ih, List.splitOn_cons_eq_if_modifyHead]
    split
    · rename_i hb
      rw [beq_iff_eq.mp hb]
      simp [ha]
    · rcases hsplit : l.splitOn x with - | ⟨u, us⟩
      · exact absurd hsplit (List.splitOn_ne_nil x l)
      · rw [List.modifyHead_cons]
        simp [or_assoc]

/-- The tokens of a text whose elements are replaced, but none by the separator. -/
lemma splitOn_map {f : α → α} (hf : ∀ a, f a = x ↔ a = x) :
    (l.map f).splitOn x = (l.splitOn x).map (List.map f) := by
  induction l with
  | nil => simp [List.splitOn_nil]
  | cons a l ih =>
    rw [List.map_cons, List.splitOn_cons_eq_if_modifyHead, List.splitOn_cons_eq_if_modifyHead, ih]
    have hbeq : (f a == x) = (a == x) := by rw [Bool.eq_iff_iff, beq_iff_eq, beq_iff_eq, hf]
    rw [hbeq]
    split
    · rfl
    · cases l.splitOn x <;> rfl

/-- Cutting the text with one token replaced gives the tokens with that one replaced. -/
lemma splitOn_putAt (hv : x ∉ v) :
    ([x].intercalate (putAt (l.splitOn x) i v)).splitOn x = putAt (l.splitOn x) i v := by
  refine List.splitOn_intercalate x (fun u hu => ?_) putAt_ne_nil
  rcases List.mem_or_eq_of_mem_set hu with hu | rfl
  · rcases List.mem_append.mp hu with hu | hu
    · exact notMem_of_mem_splitOn hu
    · rw [List.eq_of_mem_replicate hu]
      exact List.not_mem_nil
  · exact hv

lemma splitOn_injective (h : l.splitOn x = t.splitOn x) : l = t := by
  have hl : [x].intercalate (l.splitOn x) = l := List.intercalate_splitOn x
  rw [h, List.intercalate_splitOn] at hl
  exact hl.symm

end

/-! ## Groups with a separator behind each but the last -/

section Groups

variable {β γ : Type*} {f : β → List γ} {x : γ}

/-- The groups, each written by `f`. -/
def streamed (f : β → List γ) (x : γ) (up : List β) (l : β) : List γ :=
  (up.flatMap fun k => f k ++ [x]) ++ f l

lemma takeWhile_append_stop [DecidableEq γ] {s t : List γ} (hs : x ∉ s) :
    (s ++ x :: t).takeWhile (· ≠ x) = s := by
  rw [List.takeWhile_append_of_pos]
  · simp
  · intro b hb
    have hne : b ≠ x := fun h => hs (h ▸ hb)
    simpa using hne

lemma drop_append_stop (s t : List γ) (x : γ) : (s ++ x :: t).drop (s.length + 1) = t := by
  rw [← List.drop_drop, List.drop_left' rfl]
  rfl

lemma append_cons_cancel {s s' t t' : List γ} (hs : x ∉ s) (hs' : x ∉ s')
    (h : s ++ x :: t = s' ++ x :: t') : s = s' ∧ t = t' := by
  rcases List.append_eq_append_iff.mp h with ⟨u, rfl, hu⟩ | ⟨u, rfl, hu⟩
  · cases u with
    | nil => simpa using hu
    | cons y u =>
      obtain rfl : x = y := by simpa using (List.cons.inj hu).1
      simp at hs'
  · cases u with
    | nil => simpa using hu.symm
    | cons y u =>
      obtain rfl : x = y := by simpa using (List.cons.inj hu).1
      simp at hs

/-- The groups can be read back. -/
lemma streamed_injective (hf : Function.Injective f) (hx : ∀ l, x ∉ f l) {up up' : List β}
    {l l' : β} (h : streamed f x up l = streamed f x up' l') : up = up' ∧ l = l' := by
  have hcons : ∀ k up l, streamed f x (k :: up) l = f k ++ x :: streamed f x up l := by
    intro k up l
    simp [streamed]
  have hnil : ∀ l, streamed f x [] l = f l := fun _ => rfl
  have hno : ∀ l k up l', f l ≠ streamed f x (k :: up) l' := by
    intro l k up l' heq
    refine hx l ?_
    rw [heq, hcons]
    exact List.mem_append_right _ List.mem_cons_self
  induction up generalizing up' with
  | nil =>
    cases up' with
    | nil => exact ⟨rfl, hf h⟩
    | cons k' up' => exact absurd h (hno _ _ _ _)
  | cons k up ih =>
    cases up' with
    | nil => exact absurd h.symm (hno _ _ _ _)
    | cons k' up' =>
      rw [hcons, hcons] at h
      obtain ⟨hk, hrest⟩ := append_cons_cancel (hx k) (hx k') h
      obtain ⟨rfl, rfl⟩ := ih hrest
      exact ⟨by rw [hf hk], rfl⟩

end Groups

end Tokens
