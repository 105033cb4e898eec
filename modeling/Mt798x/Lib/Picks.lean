import Mathlib

/-!
# The first indices with a property

A loop that walks upwards and stops at each index with a property picks the first such indices from
its start on.  What it picks is a prefix of the filtered range, so two loops that agree on what they
pass over pick the same.
-/

namespace Picks

variable {p q : ℕ → Prop}

/-- These are the first indices from `i` on with the property, in order. -/
def First (p : ℕ → Prop) : ℕ → List ℕ → Prop
  | _, [] => True
  | i, j :: js => i ≤ j ∧ p j ∧ (∀ k, i ≤ k → k < j → ¬ p k) ∧ First p (j + 1) js

lemma First.ge {i : ℕ} {js : List ℕ} (h : First p i js) : ∀ j ∈ js, i ≤ j := by
  induction js generalizing i with
  | nil => simp
  | cons j js ih =>
    obtain ⟨hij, -, -, hrest⟩ := h
    intro k hk
    rcases List.mem_cons.mp hk with rfl | hk
    · exact hij
    · have := ih hrest k hk
      omega

lemma First.nodup {i : ℕ} {js : List ℕ} (h : First p i js) : js.Nodup := by
  induction js generalizing i with
  | nil => exact List.nodup_nil
  | cons j js ih =>
    obtain ⟨-, -, -, hrest⟩ := h
    refine List.nodup_cons.mpr ⟨fun hj => ?_, ih hrest⟩
    have := hrest.ge j hj
    omega

/-- The picked indices are the first ones of the filtered range. -/
lemma First.isPrefix_filter [DecidablePred p] {i N : ℕ} {js : List ℕ} (h : First p i js)
    (hN : ∀ j ∈ js, j < N) : js <+: (List.range' i (N - i)).filter p := by
  induction js generalizing i with
  | nil => exact List.nil_prefix
  | cons j js ih =>
    obtain ⟨hij, hj, hgap, hrest⟩ := h
    have hjN := hN j (by simp)
    have hsplit : List.range' i (N - i) =
        List.range' i (j - i) ++ j :: List.range' (j + 1) (N - (j + 1)) := by
      have h1 : N - i = (j - i) + (N - (j + 1) + 1) := by omega
      rw [h1, ← List.range'_append_1, show i + (j - i) = j by omega, List.range'_succ]
    have hnone : (List.range' i (j - i)).filter p = [] := by
      refine List.filter_eq_nil_iff.mpr fun k hk => ?_
      have hk := List.mem_range'_1.mp hk
      simpa using hgap k hk.1 (by omega)
    rw [hsplit, List.filter_append, hnone, List.nil_append, List.filter_cons_of_pos (by simpa using hj)]
    obtain ⟨t, ht⟩ := ih hrest (fun k hk => hN k (List.mem_cons_of_mem _ hk))
    exact ⟨t, by rw [List.cons_append, ht]⟩

lemma First.congr {i : ℕ} {js : List ℕ} (h : First p i js)
    (hpq : ∀ j ∈ js, ∀ k, i ≤ k → k ≤ j → (q k ↔ p k)) : First q i js := by
  induction js generalizing i with
  | nil => trivial
  | cons j js ih =>
    obtain ⟨hij, hj, hgap, hrest⟩ := h
    refine ⟨hij, (hpq j (by simp) j hij le_rfl).mpr hj, fun k hik hkj hq => ?_, ?_⟩
    · exact hgap k hik hkj ((hpq j (by simp) k hik hkj.le).mp hq)
    · exact ih hrest fun j' hj' k hk hkj' =>
        hpq j' (List.mem_cons_of_mem _ hj') k (by omega) hkj'

end Picks
