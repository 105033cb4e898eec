import Mathlib

/-!
# Chains of linked nodes

Nodes are linked through places: the roots of the chains and the `next` field of every node.  A
chain is what is met from a place on.  Changing a place that no chain goes through leaves the chain
as it is; storing the successor of a node where the node stood takes the node out of its chain.
-/

namespace Links

variable {ρ α : Type*}

/-- Where an address can stand: a root, or the `next` field of a node. -/
inductive Place (ρ α : Type*)
  | root (r : ρ)
  | next (a : α)
  deriving DecidableEq

/-- The address at every place, if any. -/
abbrev Memory (ρ α : Type*) := Place ρ α → Option α

/-- The nodes from a place on, in order. -/
def Chain (m : Memory ρ α) : Place ρ α → List α → Prop
  | p, [] => m p = none
  | p, a :: l => m p = some a ∧ Chain m (.next a) l

/-- The place behind the last of these nodes. -/
def lastPlace : Place ρ α → List α → Place ρ α
  | p, [] => p
  | _, a :: l => lastPlace (.next a) l

section Walk

variable (m : Memory ρ α) (f : α → Bool)

/-- Follows a chain up to the first node with a property: the place it stands at, and the node. -/
def walk : ℕ → Place ρ α → Option (Place ρ α × Option α)
  | 0, _ => none
  | fuel + 1, p =>
    match m p with
    | none => some (p, none)
    | some a => if f a then some (p, some a) else walk fuel (.next a)

/-- All the nodes from a place on. -/
def nodes : ℕ → Place ρ α → Option (List α)
  | 0, _ => none
  | fuel + 1, p =>
    match m p with
    | none => some []
    | some a => (nodes fuel (.next a)).map (a :: ·)

end Walk

variable {m m' : Memory ρ α} {p q : Place ρ α} {l l1 l2 : List α} {a : α}

namespace Chain

lemma congr (h : Chain m p l) (hp : m' p = m p) (hl : ∀ b ∈ l, m' (.next b) = m (.next b)) :
    Chain m' p l := by
  induction l generalizing p with
  | nil => exact hp.trans h
  | cons b l ih =>
    exact ⟨hp.trans h.1, ih h.2 (hl b List.mem_cons_self)
      fun c hc => hl c (List.mem_cons_of_mem _ hc)⟩

lemma nodes_eq (h : Chain m p l) {fuel : ℕ} (hf : l.length < fuel) : nodes m fuel p = some l := by
  induction l generalizing p fuel with
  | nil =>
    obtain ⟨k, rfl⟩ : ∃ k, fuel = k + 1 := ⟨fuel - 1, by omega⟩
    rw [nodes, show m p = none from h]
  | cons b l ih =>
    obtain ⟨k, rfl⟩ : ∃ k, fuel = k + 1 := ⟨fuel - 1, by omega⟩
    rw [List.length_cons] at hf
    rw [nodes, h.1]
    simp only
    rw [ih h.2 (by omega)]
    rfl

lemma walk_found {f : α → Bool} (h : Chain m p (l1 ++ a :: l2)) (ha : f a = true)
    (hl : ∀ b ∈ l1, f b = false) {fuel : ℕ} (hf : l1.length < fuel) :
    walk m f fuel p = some (lastPlace p l1, some a) := by
  induction l1 generalizing p fuel with
  | nil =>
    obtain ⟨k, rfl⟩ : ∃ k, fuel = k + 1 := ⟨fuel - 1, by omega⟩
    rw [walk, h.1]
    simp [ha, lastPlace]
  | cons b l1 ih =>
    obtain ⟨k, rfl⟩ : ∃ k, fuel = k + 1 := ⟨fuel - 1, by omega⟩
    rw [List.length_cons] at hf
    rw [walk, h.1]
    simp only [hl b List.mem_cons_self, Bool.false_eq_true, if_false]
    exact ih h.2 (fun c hc => hl c (List.mem_cons_of_mem _ hc)) (by omega)

lemma walk_missing {f : α → Bool} (h : Chain m p l) (hl : ∀ b ∈ l, f b = false) {fuel : ℕ}
    (hf : l.length < fuel) : walk m f fuel p = some (lastPlace p l, none) := by
  induction l generalizing p fuel with
  | nil =>
    obtain ⟨k, rfl⟩ : ∃ k, fuel = k + 1 := ⟨fuel - 1, by omega⟩
    rw [walk, show m p = none from h]
    rfl
  | cons b l ih =>
    obtain ⟨k, rfl⟩ : ∃ k, fuel = k + 1 := ⟨fuel - 1, by omega⟩
    rw [List.length_cons] at hf
    rw [walk, h.1]
    simp only [hl b List.mem_cons_self, Bool.false_eq_true, if_false]
    exact ih h.2 (fun c hc => hl c (List.mem_cons_of_mem _ hc)) (by omega)

end Chain

lemma lastPlace_mem (p : Place ρ α) (l : List α) :
    lastPlace p l = p ∨ ∃ b ∈ l, lastPlace p l = .next b := by
  induction l generalizing p with
  | nil => exact .inl rfl
  | cons b l ih =>
    right
    rcases ih (.next b) with h | ⟨c, hc, h⟩
    · exact ⟨b, List.mem_cons_self, h⟩
    · exact ⟨c, List.mem_cons_of_mem _ hc, h⟩

section Store

variable [DecidableEq ρ] [DecidableEq α]

namespace Chain

lemma store (h : Chain m p l) {v : Option α} (hp : q ≠ p) (hl : ∀ b ∈ l, q ≠ .next b) :
    Chain (Function.update m q v) p l :=
  h.congr (Function.update_of_ne hp.symm _ _)
    fun b hb => Function.update_of_ne (hl b hb).symm _ _

/-- A node is taken out of its chain. -/
lemma unlink (h : Chain m p (l1 ++ a :: l2)) (hnodup : (l1 ++ a :: l2).Nodup)
    (hp : ∀ b ∈ l1 ++ a :: l2, p ≠ .next b) :
    Chain (Function.update m (lastPlace p l1) (m (.next a))) p (l1 ++ l2) := by
  induction l1 generalizing p with
  | nil =>
    have hrest : Chain m (.next a) l2 := h.2
    have hp2 : ∀ b ∈ l2, p ≠ .next b := fun b hb => hp b (List.mem_cons_of_mem _ hb)
    cases l2 with
    | nil =>
      show Function.update m p (m (.next a)) p = none
      rw [Function.update_self]
      exact hrest
    | cons b l2 =>
      refine ⟨?_, ?_⟩
      · show Function.update m p (m (.next a)) p = some b
        rw [Function.update_self]
        exact hrest.1
      · exact hrest.2.store (hp2 b List.mem_cons_self)
          fun c hc => hp2 c (List.mem_cons_of_mem _ hc)
  | cons b l1 ih =>
    rw [List.cons_append, List.nodup_cons] at hnodup
    have hb : ∀ c ∈ l1 ++ a :: l2, Place.next (ρ := ρ) b ≠ .next c := by
      rintro c hc heq
      cases heq
      exact hnodup.1 hc
    refine ⟨?_, ih h.2 hnodup.2 hb⟩
    -- the changed place belongs to a node of the chain
    have hne : lastPlace p (b :: l1) ≠ p := by
      rcases lastPlace_mem (.next b : Place ρ α) l1 with heq | ⟨c, hc, heq⟩
      · intro hp'
        exact hp b List.mem_cons_self (hp'.symm.trans heq)
      · intro hp'
        exact hp c (List.mem_cons_of_mem _ (List.mem_append_left _ hc)) (hp'.symm.trans heq)
    rw [Function.update_of_ne hne.symm]
    exact h.1

/-- A node is put in front of a chain. -/
lemma push (h : Chain m p l) (hp : p ≠ .next a) (ha : a ∉ l) (hl : ∀ b ∈ l, p ≠ .next b) :
    Chain (Function.update (Function.update m (.next a) (m p)) p (some a)) p (a :: l) := by
  refine ⟨Function.update_self _ _ _, ?_⟩
  have hnext : Chain (Function.update m (.next a) (m p)) (.next a) l := by
    cases l with
    | nil =>
      show Function.update m (.next a) (m p) (.next a) = none
      rw [Function.update_self]
      exact h
    | cons b l =>
      refine ⟨?_, ?_⟩
      · rw [Function.update_self]
        exact h.1
      · refine h.2.store ?_ fun c hc => ?_
        · rintro heq
          cases heq
          exact ha List.mem_cons_self
        · rintro heq
          cases heq
          exact ha (List.mem_cons_of_mem _ hc)
  exact hnext.store hp hl

end Chain

end Store

end Links
