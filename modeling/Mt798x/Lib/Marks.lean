import Mathlib

/-!
# Removing by marks

Entries of a list are removed in two passes: first a marker takes their places, so that the others
keep their positions, then the markers are dropped.  `mark` is a list after the first pass,
`without` what is left of it after the second, and `firstFree` the first place of a value that has
not been marked.
-/

namespace Marks

variable {α : Type*}

/-- The list with a marker at these positions. -/
def mark (z : α) (xs : List α) (t : List ℕ) : List α :=
  xs.zipIdx.map fun e => if e.2 ∈ t then z else e.1

/-- The list without the entries at these positions. -/
def without (xs : List α) (t : List ℕ) : List α :=
  (xs.zipIdx.filter fun e => e.2 ∉ t).map Prod.fst

/-- The first position of a value that is not among these positions. -/
def firstFree [DecidableEq α] (x : α) (xs : List α) (t : List ℕ) : Option ℕ :=
  xs.zipIdx.findIdx? fun e => e.1 = x ∧ e.2 ∉ t

variable {z x : α} {xs : List α} {t : List ℕ}

@[simp] lemma length_mark : (mark z xs t).length = xs.length := by simp [mark]

@[simp] lemma mark_nil : mark z xs [] = xs := by simp [mark]

lemma without_sublist : (without xs t).Sublist xs := by
  have hsub : (without xs t).Sublist (xs.zipIdx.map Prod.fst) := List.filter_sublist.map Prod.fst
  rwa [List.zipIdx_map_fst] at hsub

lemma set_mark (i : ℕ) : (mark z xs t).set i z = mark z xs (i :: t) := by
  refine List.ext_getElem (by simp) fun j hj hj' => ?_
  rw [List.getElem_set]
  by_cases hij : i = j
  · subst hij
    simp [mark]
  · simp [mark, hij, Ne.symm hij]

/-- Without the markers, the marked entries are gone. -/
lemma filter_mark [DecidableEq α] (h : z ∉ xs) : (mark z xs t).filter (· ≠ z) = without xs t := by
  have hmem : ∀ e ∈ xs.zipIdx, e.1 ≠ z := by
    rintro ⟨x, i⟩ he rfl
    exact h (List.fst_mem_of_mem_zipIdx he)
  rw [mark, without, List.filter_map]
  have hfilter : xs.zipIdx.filter ((fun y => decide (y ≠ z)) ∘
      fun e => if e.2 ∈ t then z else e.1) = xs.zipIdx.filter fun e => e.2 ∉ t := by
    refine List.filter_congr fun e he => ?_
    by_cases ht : e.2 ∈ t <;> simp [ht, hmem e he]
  rw [hfilter]
  refine List.map_congr_left fun e he => ?_
  have hnot := (List.mem_filter.mp he).2
  simp only [decide_eq_true_eq] at hnot
  exact if_neg hnot

lemma findIdx_mark [DecidableEq α] (hx : x ≠ z) : (mark z xs t).findIdx? (· = x) = firstFree x xs t := by
  rw [mark, firstFree, List.findIdx?_map]
  congr 1
  funext e
  by_cases ht : e.2 ∈ t
  · simp [ht, Ne.symm hx]
  · simp [ht]

/-- The first position of a value, as membership and `idxOf` say it. -/
lemma findIdx_eq_idxOf [DecidableEq α] (x : α) (xs : List α) :
    xs.findIdx? (· = x) = if x ∈ xs then some (xs.idxOf x) else none := by
  induction xs with
  | nil => simp
  | cons a xs ih =>
    rw [List.findIdx?_cons]
    by_cases hax : a = x
    · simp [hax]
    · simp only [decide_eq_true_eq, hax, if_false, ih, List.mem_cons, Ne.symm hax, false_or]
      split
      · rw [List.idxOf_cons_ne _ hax]
        rfl
      · rfl

end Marks
