import Mathlib

/-!
# Runs of a state machine

A machine is a step function on states and events.  A run is a sequence of events; a condition on
its steps is a condition on each event and the state it meets.  An invariant that every step under
the condition keeps holds in every state of a run under the condition.
-/

namespace Runs

variable {σ ε : Type*} (step : σ → ε → σ) {cond : σ → ε → Prop} {s : σ} {es : List ε}

/-- The state after a sequence of events. -/
def run (s : σ) (es : List ε) : σ := es.foldl step s

/-- Every step of a run meets a condition on the event and the state before it. -/
def AllSteps (cond : σ → ε → Prop) : σ → List ε → Prop
  | _, [] => True
  | s, e :: es => cond s e ∧ AllSteps cond (step s e) es

variable {step}

@[simp] lemma run_nil : run step s [] = s := rfl

@[simp] lemma run_cons (e : ε) : run step s (e :: es) = run step (step s e) es := rfl

lemma run_concat (s : σ) (es : List ε) (e : ε) : run step s (es ++ [e]) = step (run step s es) e := by
  rw [run, List.foldl_append]
  rfl

/-- The steps of a run are its splits into what came before, an event, and what comes after. -/
lemma allSteps_iff : AllSteps step cond s es ↔
    ∀ es1 e es2, es = es1 ++ e :: es2 → cond (run step s es1) e := by
  induction es generalizing s with
  | nil => simp [AllSteps]
  | cons e es ih =>
    rw [AllSteps, ih]
    constructor
    · rintro ⟨hcond, hrest⟩ es1 e' es2 heq
      cases es1 with
      | nil =>
        cases heq
        exact hcond
      | cons a es1 =>
        cases heq
        exact hrest es1 e' es2 rfl
    · intro h
      refine ⟨h [] e es rfl, fun es1 e' es2 heq => ?_⟩
      exact h (e :: es1) e' es2 (by rw [heq, List.cons_append])

instance instDecidableAllSteps [∀ s e, Decidable (cond s e)] : ∀ s es, Decidable (AllSteps step cond s es)
  | _, [] => inferInstanceAs (Decidable True)
  | s, e :: es =>
    have : Decidable (AllSteps step cond (step s e) es) := instDecidableAllSteps (step s e) es
    inferInstanceAs (Decidable (cond s e ∧ AllSteps step cond (step s e) es))

lemma AllSteps.invariant {Inv : σ → Prop} (hes : AllSteps step cond s es) (h : Inv s)
    (hstep : ∀ s e, Inv s → cond s e → Inv (step s e)) : Inv (run step s es) := by
  induction es generalizing s with
  | nil => exact h
  | cons e es ih => exact ih hes.2 (hstep s e h hes.1)

lemma run_invariant {Inv : σ → Prop} (h : Inv s) (hstep : ∀ s e, Inv s → Inv (step s e))
    (es : List ε) : Inv (run step s es) := by
  induction es generalizing s with
  | nil => exact h
  | cons e es ih => exact ih (hstep s e h)

/-- Where a step that keeps a property is one under the condition, and the other way round, all
states of a run have the property exactly if all its steps are under the condition. -/
lemma allSteps_iff_states {Inv Good : σ → Prop} (h : Inv s) (hgood : Good s)
    (hinv : ∀ s e, Inv s → Good s → Inv (step s e))
    (hstep : ∀ s e, Inv s → Good s → (cond s e ↔ Good (step s e))) :
    AllSteps step cond s es ↔ ∀ es1 es2, es = es1 ++ es2 → Good (run step s es1) := by
  induction es generalizing s with
  | nil =>
    refine ⟨fun _ es1 es2 heq => ?_, fun _ => trivial⟩
    obtain ⟨rfl, -⟩ := List.append_eq_nil_iff.mp heq.symm
    exact hgood
  | cons e es ih =>
    constructor
    · rintro ⟨hcond, hrest⟩ es1 es2 heq
      have hnext := (hstep s e h hgood).mp hcond
      cases es1 with
      | nil => exact hgood
      | cons a es1 =>
        obtain ⟨rfl, htail⟩ := List.cons.inj heq
        exact (ih (hinv s e h hgood) hnext).mp hrest es1 es2 htail
    · intro hall
      have hnext : Good (step s e) := hall [e] es rfl
      refine ⟨(hstep s e h hgood).mpr hnext, (ih (hinv s e h hgood) hnext).mpr fun es1 es2 heq => ?_⟩
      exact hall (e :: es1) es2 (by rw [heq, List.cons_append])

end Runs
