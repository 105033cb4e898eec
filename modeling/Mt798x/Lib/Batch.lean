import Mathlib

/-!
# Batches

A batch is a list of changes that are made one after the other; each is checked just before it is
made, and the first one that fails stops the batch where it is.  `loop_cases` says what a batch
does; `foldl_write_eq_iff` says when a list of assignments has left everything as it was.
-/

namespace Batch

variable {σ α ρ : Type*}

/-- The outcome of one change: on to the next one, or a stop for some reason. -/
inductive Turn (σ ρ : Type*) where
  | next (s : σ)
  | stop (how : ρ) (s : σ)

variable (turn : σ → α → Turn σ ρ)

/-- A batch: the state in the end, and why it was stopped if it was. -/
def loop : σ → List α → σ × Option ρ
  | s, [] => (s, none)
  | s, a :: l =>
    match turn s a with
    | .next t => loop t l
    | .stop how t => (t, some how)

/-- All changes of a list are made, and lead to a state. -/
def Passes : σ → List α → σ → Prop
  | s, [], t => t = s
  | s, a :: l, t => ∃ m, turn s a = .next m ∧ Passes m l t

/-- The batch is stopped at a change, behind these. -/
def StopsAt (s : σ) (l pre : List α) (a : α) : Prop :=
  ∃ post t how s', l = pre ++ a :: post ∧ Passes turn s pre t ∧ turn t a = .stop how s'

variable {turn} {s t t' : σ} {l pre post : List α} {a : α}

lemma Passes.unique (h : Passes turn s l t) (h' : Passes turn s l t') : t = t' := by
  induction l generalizing s with
  | nil => exact h.trans h'.symm
  | cons a l ih =>
    obtain ⟨m, hm, hrest⟩ := h
    obtain ⟨m', hm', hrest'⟩ := h'
    rw [hm] at hm'
    cases hm'
    exact ih hrest hrest'

lemma Passes.split (h : Passes turn s (pre ++ l) t) :
    ∃ m, Passes turn s pre m ∧ Passes turn m l t := by
  induction pre generalizing s with
  | nil => exact ⟨s, rfl, h⟩
  | cons a pre ih =>
    obtain ⟨n, hn, hrest⟩ := h
    obtain ⟨m, hpre, hl⟩ := ih hrest
    exact ⟨m, ⟨n, hn, hpre⟩, hl⟩

/-- A batch makes all its changes, or it is stopped at one of them. -/
lemma loop_cases (turn : σ → α → Turn σ ρ) (s : σ) (l : List α) :
    (Passes turn s l (loop turn s l).1 ∧ (loop turn s l).2 = none) ∨
      ∃ pre a post t how, l = pre ++ a :: post ∧ Passes turn s pre t ∧
        turn t a = .stop how (loop turn s l).1 ∧ (loop turn s l).2 = some how := by
  induction l generalizing s with
  | nil => exact Or.inl ⟨rfl, rfl⟩
  | cons a l ih =>
    cases hturn : turn s a with
    | stop how t =>
      refine Or.inr ⟨[], a, l, s, how, rfl, rfl, ?_, ?_⟩
      · simp only [loop, hturn]
      · simp only [loop, hturn]
    | next m =>
      simp only [loop, hturn]
      rcases ih m with ⟨hpass, hnone⟩ | ⟨pre, b, post, t, how, rfl, hpass, hstop, hsome⟩
      · exact Or.inl ⟨⟨m, hturn, hpass⟩, hnone⟩
      · exact Or.inr ⟨a :: pre, b, post, t, how, rfl, ⟨m, hturn, hpass⟩, hstop, hsome⟩

lemma Passes.not_stopsAt (h : Passes turn s l t) : ¬ StopsAt turn s l pre a := by
  rintro ⟨post, m, how, s', rfl, hpre, hstop⟩
  obtain ⟨m', hpre', n, hn, -⟩ := h.split
  obtain rfl := hpre.unique hpre'
  rw [hstop] at hn
  cases hn

/-- A batch is stopped at one place. -/
lemma StopsAt.unique {pre' : List α} {a' : α} (h : StopsAt turn s l pre a)
    (h' : StopsAt turn s l pre' a') : pre = pre' ∧ a = a' := by
  induction l generalizing s pre pre' with
  | nil =>
    obtain ⟨post, -, -, -, hl, -⟩ := h
    simp at hl
  | cons b l ih =>
    obtain ⟨post, t, how, s', hl, hpass, hstop⟩ := h
    obtain ⟨post', t', how', s'', hl', hpass', hstop'⟩ := h'
    cases pre with
    | nil =>
      cases hpass
      cases pre' with
      | nil =>
        cases hl
        cases hl'
        exact ⟨rfl, rfl⟩
      | cons c pre' =>
        obtain ⟨m, hm, -⟩ := hpass'
        cases hl
        cases hl'
        rw [hstop] at hm
        cases hm
    | cons c pre =>
      obtain ⟨m, hm, hrest⟩ := hpass
      cases pre' with
      | nil =>
        cases hpass'
        cases hl
        cases hl'
        rw [hm] at hstop'
        cases hstop'
      | cons c' pre' =>
        obtain ⟨m', hm', hrest'⟩ := hpass'
        obtain ⟨rfl, htail⟩ := List.cons.inj hl
        obtain ⟨rfl, htail'⟩ := List.cons.inj hl'
        rw [hm] at hm'
        cases hm'
        obtain ⟨hpre, ha⟩ := ih ⟨post, t, how, s', htail, hrest, hstop⟩
          ⟨post', t', how', s'', htail', hrest', hstop'⟩
        exact ⟨by rw [hpre], ha⟩

/-! ## Conditions and specifications -/

/-- Every change whose turn comes meets a condition on the state it finds. -/
def Along (turn : σ → α → Turn σ ρ) (cond : σ → α → Prop) : σ → List α → Prop
  | _, [] => True
  | s, a :: l => cond s a ∧
    match turn s a with
    | .next t => Along turn cond t l
    | .stop _ _ => True

section

variable {cond : σ → α → Prop} {inv : σ → Prop} {f : σ → α → Option σ}

lemma along_singleton : Along turn cond s [a] ↔ cond s a := by
  rw [Along]
  cases turn s a <;> simp [Along]

lemma Passes.foldlM (h : Passes turn s l t) (hcond : Along turn cond s l) (hs : inv s)
    (hinv : ∀ s a t, inv s → f s a = some t → inv t)
    (hone : ∀ s a t, inv s → cond s a → turn s a = .next t → f s a = some t) :
    l.foldlM f s = some t := by
  induction l generalizing s with
  | nil =>
    obtain rfl : t = s := h
    rfl
  | cons a l ih =>
    obtain ⟨m, hturn, hrest⟩ := h
    obtain ⟨ha, hcond⟩ := hcond
    have hf := hone s a m hs ha hturn
    rw [hturn] at hcond
    rw [List.foldlM_cons, hf]
    exact ih hrest hcond (hinv s a m hs hf)

lemma passes_of_foldlM (h : l.foldlM f s = some t) (hcond : Along turn cond s l) (hs : inv s)
    (hinv : ∀ s a t, inv s → f s a = some t → inv t)
    (hone : ∀ s a t, inv s → cond s a → f s a = some t → turn s a = .next t) :
    Passes turn s l t := by
  induction l generalizing s with
  | nil => exact (Option.some.inj h).symm
  | cons a l ih =>
    rw [List.foldlM_cons] at h
    obtain ⟨m, hf, hrest⟩ := Option.bind_eq_some_iff.mp h
    obtain ⟨ha, hcond⟩ := hcond
    have hturn := hone s a m hs ha hf
    rw [hturn] at hcond
    exact ⟨m, hturn, ih hrest hcond (hinv s a m hs hf)⟩

lemma foldlM_inv (h : l.foldlM f s = some t) (hs : inv s)
    (hinv : ∀ s a t, inv s → f s a = some t → inv t) : inv t := by
  induction l generalizing s with
  | nil => exact (Option.some.inj h) ▸ hs
  | cons a l ih =>
    rw [List.foldlM_cons] at h
    obtain ⟨m, hf, hrest⟩ := Option.bind_eq_some_iff.mp h
    exact ih hrest (hinv s a m hs hf)

lemma foldlM_range_inv {f : σ → ℕ → Option σ} {n : ℕ} {inv : ℕ → σ → Prop}
    (h : (List.range n).foldlM f s = some t) (hs : inv 0 s)
    (hinv : ∀ i s t, i < n → inv i s → f s i = some t → inv (i + 1) t) : inv n t := by
  induction n generalizing t with
  | zero => exact (Option.some.inj h) ▸ hs
  | succ n ih =>
    rw [List.range_succ, List.foldlM_append] at h
    obtain ⟨m, hm, hlast⟩ := Option.bind_eq_some_iff.mp h
    have hone : f m n = some t := by simpa using hlast
    exact hinv n m t (Nat.lt_succ_self n)
      (ih hm fun i s t hi => hinv i s t (Nat.lt_succ_of_lt hi)) hone

/-- A batch over the numbers below a bound makes all its changes, if an invariant lets each be
made. -/
lemma foldlM_range_some {f : σ → ℕ → Option σ} {n : ℕ} {inv : ℕ → σ → Prop} (hs : inv 0 s)
    (hinv : ∀ i s, i < n → inv i s → ∃ t, f s i = some t ∧ inv (i + 1) t) :
    ∃ t, (List.range n).foldlM f s = some t ∧ inv n t := by
  induction n with
  | zero => exact ⟨s, rfl, hs⟩
  | succ n ih =>
    obtain ⟨m, hm, hinvm⟩ := ih fun i s hi => hinv i s (Nat.lt_succ_of_lt hi)
    obtain ⟨t, ht, hinvt⟩ := hinv n m (Nat.lt_succ_self n) hinvm
    refine ⟨t, ?_, hinvt⟩
    rw [List.range_succ, List.foldlM_append, hm]
    simpa using ht

lemma foldl_range_inv {f : σ → ℕ → σ} {n : ℕ} {inv : ℕ → σ → Prop} (hs : inv 0 s)
    (hinv : ∀ i s, i < n → inv i s → inv (i + 1) (f s i)) : inv n ((List.range n).foldl f s) := by
  induction n with
  | zero => exact hs
  | succ n ih =>
    rw [List.range_succ, List.foldl_append]
    exact hinv n _ (Nat.lt_succ_self n) (ih fun i s hi => hinv i s (Nat.lt_succ_of_lt hi))

end

/-! ## Assignments -/

section

variable {κ υ : Type*} [DecidableEq κ] {f : κ → υ} {ws : List (κ × υ)}

/-- Assignments to the places of a function, one after the other. -/
def write (f : κ → υ) (w : κ × υ) : κ → υ := Function.update f w.1 w.2

lemma foldl_write_of_notMem {k : κ} (h : ∀ w ∈ ws, w.1 ≠ k) : ws.foldl write f k = f k := by
  induction ws generalizing f with
  | nil => rfl
  | cons w ws ih =>
    rw [List.foldl_cons, ih fun v hv => h v (List.mem_cons_of_mem _ hv)]
    exact Function.update_of_ne (h w (List.mem_cons_self ..)).symm _ _

lemma foldl_write_last {pre post : List (κ × υ)} {w : κ × υ} (h : ∀ v ∈ post, v.1 ≠ w.1) :
    (pre ++ w :: post).foldl write f w.1 = w.2 := by
  rw [List.foldl_append, List.foldl_cons, foldl_write_of_notMem h]
  exact Function.update_self ..

lemma exists_last {k : κ} (h : ∃ w ∈ ws, w.1 = k) :
    ∃ pre w post, ws = pre ++ w :: post ∧ w.1 = k ∧ ∀ v ∈ post, v.1 ≠ k := by
  induction ws with
  | nil => simp at h
  | cons a ws ih =>
    by_cases hrest : ∃ w ∈ ws, w.1 = k
    · obtain ⟨pre, w, post, rfl, hw, hpost⟩ := ih hrest
      exact ⟨a :: pre, w, post, rfl, hw, hpost⟩
    · refine ⟨[], a, ws, rfl, ?_, fun v hv hk => hrest ⟨v, hv, hk⟩⟩
      obtain ⟨w, hw, hk⟩ := h
      rcases List.mem_cons.mp hw with rfl | hw
      · exact hk
      · exact absurd ⟨w, hw, hk⟩ hrest

/-- What all assignments to a place assign is what the place holds in the end, if there is one or
the place held it before. -/
lemma foldl_write_of_forall {k : κ} {v : υ} (h : ∀ w ∈ ws, w.1 = k → w.2 = v)
    (h' : (∃ w ∈ ws, w.1 = k) ∨ f k = v) : ws.foldl write f k = v := by
  by_cases hk : ∃ w ∈ ws, w.1 = k
  · obtain ⟨pre, w, post, rfl, rfl, hpost⟩ := exists_last hk
    rw [foldl_write_last hpost]
    exact h w (by simp) rfl
  · rw [foldl_write_of_notMem fun w hw hwk => hk ⟨w, hw, hwk⟩]
    exact h'.resolve_left hk

/-- Assignments leave a function as it was when the last one to each place assigns what the place
held. -/
lemma foldl_write_eq_iff : ws.foldl write f = f ↔
    ∀ pre w post, ws = pre ++ w :: post → (∀ v ∈ post, v.1 ≠ w.1) → f w.1 = w.2 := by
  constructor
  · rintro h pre w post rfl hlast
    have hlast' : (pre ++ w :: post).foldl write f w.1 = w.2 := foldl_write_last hlast
    rw [← hlast', h]
  · intro h
    funext k
    by_cases hk : ∃ w ∈ ws, w.1 = k
    · obtain ⟨pre, w, post, rfl, rfl, hpost⟩ := exists_last hk
      rw [foldl_write_last hpost, h pre w post rfl hpost]
    · exact foldl_write_of_notMem fun w hw hwk => hk ⟨w, hw, hwk⟩

end

end Batch
