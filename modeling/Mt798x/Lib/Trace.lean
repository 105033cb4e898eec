import Mathlib

/-!
# Growing logs

A log that only ever grows at its head.  `Grows P l l'` says that `l'` is `l` with further
entries in front, all of which satisfy `P`: it is the shape in which "everything this piece
of code did has property `P`" is stated, and it composes along a run.
-/

namespace Trace

variable {α : Type*} {P Q : α → Prop} {l l' l'' : List α}

/-- The log `l'` is `l` with new entries in front, each satisfying `P`. -/
def Grows (P : α → Prop) (l l' : List α) : Prop :=
  ∃ new, l' = new ++ l ∧ ∀ e ∈ new, P e

namespace Grows

lemma refl (P : α → Prop) (l : List α) : Grows P l l := ⟨[], rfl, by simp⟩

lemma cons {e : α} (h : P e) (l : List α) : Grows P l (e :: l) :=
  ⟨[e], rfl, by simpa using h⟩

lemma trans (h : Grows P l l') (h' : Grows P l' l'') : Grows P l l'' := by
  obtain ⟨new, rfl, hnew⟩ := h
  obtain ⟨new', rfl, hnew'⟩ := h'
  refine ⟨new' ++ new, by simp, fun e he => ?_⟩
  rcases List.mem_append.mp he with he | he
  · exact hnew' e he
  · exact hnew e he

lemma mono (h : Grows P l l') (hPQ : ∀ e, P e → Q e) : Grows Q l l' := by
  obtain ⟨new, hl, hnew⟩ := h
  exact ⟨new, hl, fun e he => hPQ e (hnew e he)⟩

end Grows

end Trace
