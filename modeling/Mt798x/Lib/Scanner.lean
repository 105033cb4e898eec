import Mathlib

/-!
# Scanners

A scanner looks at the front of its input and either waits for more, or passes some elements and
reports something.  What it decides with enough input in front of it more input does not change.
So the reports of a scan and what it leaves do not depend on the portions in which the input came:
a scan of a part can be continued on what it left, with more input behind.
-/

namespace Scanner

variable {α ι : Type*}

/-- What a scanner does at the front of its input. -/
inductive Verdict (ι : Type*) where
  | wait
  | pass (n : ℕ) (out : List ι)
  deriving DecidableEq, Repr

/-- A look at the front of the input that makes progress and that more input does not change. -/
structure Lawful (look : List α → Verdict ι) : Prop where
  pos : ∀ {xs n out}, look xs = .pass n out → 0 < n
  le : ∀ {xs n out}, look xs = .pass n out → n ≤ xs.length
  stable : ∀ {xs n out}, look xs = .pass n out → ∀ ys, look (xs ++ ys) = .pass n out

variable (look : List α → Verdict ι)

/-- Passes lead from an input to what is left of it, with these reports. -/
inductive Steps : List α → List ι → List α → Prop where
  | refl (xs : List α) : Steps xs [] xs
  | pass {xs : List α} {n : ℕ} {out os : List ι} {rest : List α} :
      look xs = .pass n out → Steps (xs.drop n) os rest → Steps xs (out ++ os) rest

/-- A finished scan: what is left waits for more. -/
def Scans (xs : List α) (os : List ι) (rest : List α) : Prop :=
  Steps look xs os rest ∧ look rest = .wait

variable {look} {xs ys rest rest' : List α} {os os' : List ι}

namespace Steps

lemma trans (h : Steps look xs os ys) (h' : Steps look ys os' rest) :
    Steps look xs (os ++ os') rest := by
  induction h with
  | refl xs => exact h'
  | pass hlook _ ih =>
    rw [List.append_assoc]
    exact .pass hlook (ih h')

lemma suffix (h : Steps look xs os rest) : rest <:+ xs := by
  induction h with
  | refl xs => exact List.suffix_refl xs
  | pass _ _ ih => exact ih.trans (List.drop_suffix _ _)

lemma append (hl : Lawful look) (h : Steps look xs os rest) (ys : List α) :
    Steps look (xs ++ ys) os (rest ++ ys) := by
  induction h with
  | refl xs => exact .refl _
  | pass hlook _ ih =>
    refine .pass (hl.stable hlook ys) ?_
    rwa [List.drop_append_of_le_length (hl.le hlook)]

lemma of_wait (hwait : look xs = .wait) (h : Steps look xs os rest) : os = [] ∧ rest = xs := by
  cases h with
  | refl => exact ⟨rfl, rfl⟩
  | pass hlook _ => rw [hwait] at hlook; cases hlook

/-- A finished scan goes through every place that passes lead to. -/
lemma resume (h : Steps look xs os ys) (hfin : Scans look xs os' rest) :
    ∃ os'', os' = os ++ os'' ∧ Scans look ys os'' rest := by
  induction h generalizing os' with
  | refl xs => exact ⟨os', rfl, hfin⟩
  | pass hlook _ ih =>
    obtain ⟨hsteps, hwait⟩ := hfin
    cases hsteps with
    | refl => rw [hwait] at hlook; cases hlook
    | pass hlook' hrest =>
      rw [hlook] at hlook'
      cases hlook'
      obtain ⟨os'', rfl, hscan⟩ := ih ⟨hrest, hwait⟩
      exact ⟨os'', by rw [List.append_assoc], hscan⟩

end Steps

namespace Scans

lemma of_wait (hwait : look xs = .wait) (h : Scans look xs os rest) : os = [] ∧ rest = xs :=
  h.1.of_wait hwait

lemma unique (h : Scans look xs os rest) (h' : Scans look xs os' rest') :
    os = os' ∧ rest = rest' := by
  obtain ⟨os'', rfl, hscan⟩ := h.1.resume h'
  obtain ⟨rfl, rfl⟩ := hscan.of_wait h.2
  exact ⟨(List.append_nil os).symm, rfl⟩

end Scans

/-- Every input can be scanned. -/
lemma exists_scans (hl : Lawful look) (xs : List α) : ∃ os rest, Scans look xs os rest := by
  induction hn : xs.length using Nat.strong_induction_on generalizing xs with
  | _ m ih =>
    cases hlook : look xs with
    | wait => exact ⟨[], xs, .refl xs, hlook⟩
    | pass n out =>
      have hlt : (xs.drop n).length < m := by
        have hpos := hl.pos hlook
        have hle := hl.le hlook
        rw [List.length_drop]
        omega
      obtain ⟨os, rest, hsteps, hwait⟩ := ih _ hlt (xs.drop n) rfl
      exact ⟨out ++ os, rest, .pass hlook hsteps, hwait⟩

end Scanner
