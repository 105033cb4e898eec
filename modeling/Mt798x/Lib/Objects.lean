import Mathlib

/-!
# Objects

Objects of a scripting language: lists of keys with values, in the order in which the keys were
added.  A key that is set again keeps its place.
-/

namespace Objects

variable {κ α : Type*} [BEq κ] [LawfulBEq κ] {l : List (κ × α)} {k k' : κ} {a : α}

/-- `obj[key] = val` -/
def put [DecidableEq κ] (l : List (κ × α)) (k : κ) (a : α) : List (κ × α) :=
  if k ∈ l.map Prod.fst then l.map fun e => if e.1 = k then (k, a) else e else l ++ [(k, a)]

/-- `delete obj[key]` -/
def del [DecidableEq κ] (l : List (κ × α)) (k : κ) : List (κ × α) := l.filter fun e => e.1 ≠ k

omit [BEq κ] [LawfulBEq κ] in
lemma mem_keys (h : (k, a) ∈ l) : k ∈ l.map Prod.fst := List.mem_map_of_mem (f := Prod.fst) h

lemma mem_of_lookup (h : l.lookup k = some a) : (k, a) ∈ l := by
  obtain ⟨l1, l2, rfl, -⟩ := List.lookup_eq_some_iff.mp h
  simp

lemma lookup_of_mem (hnodup : (l.map Prod.fst).Nodup) (h : (k, a) ∈ l) : l.lookup k = some a := by
  obtain ⟨l1, l2, rfl⟩ := List.append_of_mem h
  refine List.lookup_eq_some_iff.mpr ⟨l1, l2, rfl, fun e he => ?_⟩
  rw [List.map_append, List.map_cons] at hnodup
  have hdisj := List.disjoint_of_nodup_append hnodup (List.mem_map_of_mem (f := Prod.fst) he)
  have hne : e.1 ≠ k := fun heq => hdisj (heq ▸ List.mem_cons_self)
  simpa using hne.symm

lemma lookup_eq_none (h : k ∉ l.map Prod.fst) : l.lookup k = none := by
  rw [List.lookup_eq_none_iff]
  intro e he
  have hne : k ≠ e.1 := fun heq => h (heq ▸ List.mem_map_of_mem (f := Prod.fst) he)
  simpa using hne

lemma mem_keys_iff : k ∈ l.map Prod.fst ↔ ∃ a, l.lookup k = some a := by
  constructor
  · intro h
    cases hlookup : l.lookup k with
    | some a => exact ⟨a, rfl⟩
    | none =>
      obtain ⟨e, he, rfl⟩ := List.mem_map.mp h
      have hne := List.lookup_eq_none_iff.mp hlookup e he
      simp at hne
  · rintro ⟨a, ha⟩
    exact mem_keys (mem_of_lookup ha)

variable [DecidableEq κ]

@[simp] lemma lookup_put_self : (put l k a).lookup k = some a := by
  rw [put]
  split
  · rename_i hmem
    induction l with
    | nil => simp at hmem
    | cons e l ih =>
      rw [List.map_cons]
      by_cases heq : e.1 = k
      · rw [if_pos heq, List.lookup_cons_self]
      · rw [if_neg heq]
        have hmem' : k ∈ l.map Prod.fst := (List.mem_cons.mp hmem).resolve_left (Ne.symm heq)
        have hbeq : (k == e.1) = false := by simpa using Ne.symm heq
        rw [show e = (e.1, e.2) from rfl, List.lookup_cons, hbeq]
        exact ih hmem'
  · rename_i hmem
    rw [List.lookup_append, lookup_eq_none hmem]
    simp

lemma lookup_put_ne (h : k' ≠ k) : (put l k a).lookup k' = l.lookup k' := by
  have hbeq : (k' == k) = false := by simpa using h
  rw [put]
  split
  · rename_i hmem
    clear hmem
    induction l with
    | nil => rfl
    | cons e l ih =>
      rw [List.map_cons, show e = (e.1, e.2) from rfl, List.lookup_cons]
      by_cases heq : e.1 = k
      · rw [if_pos heq, List.lookup_cons, hbeq, heq, hbeq]
        exact ih
      · rw [if_neg heq, List.lookup_cons, ih]
  · rw [List.lookup_append, List.lookup_cons, hbeq]
    simp

@[simp] lemma lookup_del_self : (del l k).lookup k = none := by
  refine lookup_eq_none fun hmem => ?_
  obtain ⟨e, he, heq⟩ := List.mem_map.mp hmem
  exact of_decide_eq_true (List.mem_filter.mp he).2 heq

lemma lookup_del_ne (h : k' ≠ k) : (del l k).lookup k' = l.lookup k' := by
  induction l with
  | nil => rfl
  | cons e l ih =>
    rw [del] at ih ⊢
    rw [List.filter_cons]
    by_cases heq : e.1 = k
    · rw [if_neg (by simpa using heq), ih, show e = (e.1, e.2) from rfl, List.lookup_cons, heq]
      have hbeq : (k' == k) = false := by simpa using h
      rw [hbeq]
    · rw [if_pos (by simpa using heq), show e = (e.1, e.2) from rfl, List.lookup_cons,
        List.lookup_cons, ih]

lemma mem_put {e : κ × α} (h : e ∈ put l k a) : e ∈ l ∨ e = (k, a) := by
  rw [put] at h
  split at h
  · obtain ⟨e', he', rfl⟩ := List.mem_map.mp h
    by_cases heq : e'.1 = k
    · exact Or.inr (if_pos heq)
    · rw [if_neg heq]
      exact Or.inl he'
  · rcases List.mem_append.mp h with h | h
    · exact Or.inl h
    · exact Or.inr (List.mem_singleton.mp h)

lemma nodup_put (h : (l.map Prod.fst).Nodup) : ((put l k a).map Prod.fst).Nodup := by
  rw [put]
  split
  · have hkeys : (l.map fun e => if e.1 = k then (k, a) else e).map Prod.fst = l.map Prod.fst := by
      rw [List.map_map]
      refine List.map_congr_left fun e _ => ?_
      by_cases heq : e.1 = k <;> simp [heq]
    rw [hkeys]
    exact h
  · rename_i hmem
    rw [List.map_append]
    exact h.append (List.nodup_singleton k) (by simpa using hmem)

omit [BEq κ] [LawfulBEq κ] in
lemma nodup_del (h : (l.map Prod.fst).Nodup) : ((del l k).map Prod.fst).Nodup :=
  h.sublist (List.filter_sublist.map _)

end Objects
