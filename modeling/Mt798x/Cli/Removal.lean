import Mt798x.Cli.Atomic

/-!
# Removing parameter values

`remove_call` goes on behind a value that names no entry: it records the error, removes what the
other values name, and only after the last parameter looks whether there have been errors.
-/

namespace Cli

open Batch

variable {entry : Entry} {obj : ℕ} {s t : Store}

/-! ## Statements -/

/-- A list without the entries that these values name one after the other. -/
def takeOut (xs : List Scalar) (vals : List String) : List Scalar :=
  vals.foldl (fun xs idx => match entryOf (.list xs) idx with
    | some n => clear xs n
    | none => xs) xs

/-- The objects when the values of a parameter have been removed. -/
def takeOutParam (entry : Entry) (obj : ℕ) (s : Store) (arg : String × List String) : Store :=
  match entry.named_args arg.1 with
  | none => s
  | some cur =>
    match s.get (cur.place obj arg.1) with
    | .list xs =>
      Function.update s (cur.place obj arg.1) (removed cur (.list (takeOut xs arg.2)))
    | .one x =>
      if (Value.one x).truthy then Function.update s (cur.place obj arg.1) (removed cur (.one x))
      else s

/-- The values of all parameters have been removed. -/
def RemoveApplied (entry : Entry) (obj : ℕ) (s : Store) (named : List (String × List String))
    (t : Store) : Prop :=
  t = named.foldl (takeOutParam entry obj) s

/-- Every value names an entry when its turn comes. -/
def AllNamed : Value → List String → Prop
  | _, [] => True
  | .one _, _ :: _ => False
  | .list xs, idx :: rest => ∃ n, entryOf (.list xs) idx = some n ∧ AllNamed (.list (clear xs n)) rest

/-- The parameter is known, and all of its values name entries of what its attribute holds, if
that counts as true. -/
def Accepted (entry : Entry) (obj : ℕ) (s : Store) (arg : String × List String) : Prop :=
  ∃ cur, entry.named_args arg.1 = some cur ∧
    ((s.get (cur.place obj arg.1)).truthy → AllNamed (s.get (cur.place obj arg.1)) arg.2)

/-- The turn of the parameter leaves its attribute alone: there is nothing in it, or it is a list
without nulls, none of whose entries the values name and which is not deleted as an empty one; or
an exception ends the turn. -/
def Untouched (entry : Entry) (obj : ℕ) (s : Store) (arg : String × List String) : Prop :=
  ∀ cur, entry.named_args arg.1 = some cur → (s.get (cur.place obj arg.1)).truthy →
    match s.get (cur.place obj arg.1) with
    | .list xs => .null ∉ xs ∧ ¬ (cur.attribute_allow_empty ∧ xs = []) ∧
        ∀ idx ∈ arg.2, ∀ n, entryOf (.list xs) idx = some n → slotOf xs n = none
    | .one x => ∃ idx ∈ arg.2, ∃ n, entryOf (.one x) idx = some n

/-- The parameters for which `remove_call` is atomic: each is accepted when its turn comes, or
each one whose turn comes is left untouched. -/
def RemoveSafe (entry : Entry) (s : Store) (named : List (String × List String)) : Prop :=
  ∀ obj, entry.edit_object = some obj →
    (∀ pre arg post t, named = pre ++ arg :: post →
      Passes (removeTurn entry obj) (s, []) pre t → Accepted entry obj t.1 arg) ∨
    (∀ pre arg post t, named = pre ++ arg :: post →
      Passes (removeTurn entry obj) (s, []) pre t → Untouched entry obj s arg)

/-! ## One parameter -/

lemma entryOf_le {xs : List Scalar} {idx : String} {n : ℤ} (h : entryOf (.list xs) idx = some n) :
    n ≤ xs.length := by
  rw [entryOf] at h
  cases hnum : number idx with
  | some m =>
    simp only [hnum] at h
    have hlen : (Value.list xs).length = xs.length := rfl
    split at h
    · cases h
    · cases h
      omega
  | none =>
    simp only [hnum] at h
    split_ifs at h with hfound
    cases h
    by_cases hmem : Scalar.str idx ∈ xs
    · have hlt := List.idxOf_lt_length_iff.mpr hmem
      simp only [Value.index, if_pos hmem, Option.getD_some]
      omega
    · simp [found, Value.index, hmem] at hfound

lemma slotOf_lt {xs : List Scalar} {n : ℤ} {i : ℕ} (h : slotOf xs n = some i)
    (hn : n ≤ xs.length) : i < xs.length := by
  simp only [slotOf] at h
  split_ifs at h <;> cases h <;> omega

/-- The list of a parameter keeps its length in the loop, and nulls in it stay; it changes exactly
if a value names an entry, and then holds a null; errors are recorded exactly if not all values
name entries. -/
lemma removeLoop_list (xs : List Scalar) (vals : List String) :
    ∃ errors, removeLoop (.list xs) vals = some (.list (takeOut xs vals), errors) ∧
      (takeOut xs vals).length = xs.length ∧
      (.null ∈ xs → .null ∈ takeOut xs vals) ∧
      ((∀ idx ∈ vals, ∀ n, entryOf (.list xs) idx = some n → slotOf xs n = none) →
        takeOut xs vals = xs) ∧
      (¬ (∀ idx ∈ vals, ∀ n, entryOf (.list xs) idx = some n → slotOf xs n = none) →
        .null ∈ takeOut xs vals) ∧
      (errors = [] ↔ AllNamed (.list xs) vals) := by
  induction vals generalizing xs with
  | nil => exact ⟨[], rfl, rfl, id, fun _ => rfl, by simp, by simp [AllNamed]⟩
  | cons idx rest ih =>
    cases hentry : entryOf (.list xs) idx with
    | none =>
      obtain ⟨errors, hloop, hlen, hnull, hsame, hhit, -⟩ := ih xs
      have htake : takeOut xs (idx :: rest) = takeOut xs rest := by
        rw [takeOut, List.foldl_cons, hentry]
        rfl
      rw [htake]
      refine ⟨.invalidValue idx :: errors, ?_, hlen, hnull, fun h => ?_, fun h => ?_, ?_⟩
      · rw [removeLoop, hentry]
        simp only [hloop, Option.map_some]
      · exact hsame fun i hi => h i (List.mem_cons_of_mem _ hi)
      · refine hhit fun hall => h fun i hi n hn => ?_
        rcases List.mem_cons.mp hi with rfl | hi
        · rw [hentry] at hn
          cases hn
        · exact hall i hi n hn
      · simp [AllNamed, hentry]
    | some n =>
      obtain ⟨errors, hloop, hlen, hnull, hsame, hhit, herrors⟩ := ih (clear xs n)
      have htake : takeOut xs (idx :: rest) = takeOut (clear xs n) rest := by
        rw [takeOut, List.foldl_cons, hentry]
        rfl
      rw [htake]
      have hclen : (clear xs n).length = xs.length := by
        rw [clear]
        split <;> simp
      refine ⟨errors, ?_, hlen.trans hclen, fun h => hnull ?_, fun h => ?_, fun h => ?_, ?_⟩
      · rw [removeLoop, hentry]
        exact hloop
      · rw [clear]
        split
        · rename_i i _
          obtain ⟨j, hj, hnullj⟩ := List.mem_iff_getElem.mp h
          by_cases hij : i = j
          · subst hij
            exact List.mem_iff_getElem.mpr ⟨i, by simpa using hj, by simp⟩
          · exact List.mem_iff_getElem.mpr ⟨j, by simpa using hj, by simp [hij, hnullj]⟩
        · exact h
      · have hclear : clear xs n = xs := by
          rw [clear, h idx (List.mem_cons_self ..) n hentry]
        rw [hclear] at hsame
        rw [hclear]
        exact hsame fun i hi => h i (List.mem_cons_of_mem _ hi)
      · cases hslot : slotOf xs n with
        | none =>
          have hclear : clear xs n = xs := by rw [clear, hslot]
          rw [hclear] at hhit ⊢
          refine hhit fun hall => h fun i hi m hm => ?_
          rcases List.mem_cons.mp hi with rfl | hi
          · rw [hentry] at hm
            cases hm
            exact hslot
          · exact hall i hi m hm
        | some i =>
          refine hnull ?_
          have hi : i < xs.length := slotOf_lt hslot (entryOf_le hentry)
          rw [clear, hslot]
          exact List.mem_iff_getElem.mpr ⟨i, by simpa using hi, by simp⟩
      · rw [herrors]
        simp [AllNamed, hentry]

lemma removeLoop_one (x : Scalar) (vals : List String) :
    (removeLoop (.one x) vals = none ∧ ∃ idx ∈ vals, ∃ n, entryOf (.one x) idx = some n) ∨
      ((∃ errors, removeLoop (.one x) vals = some (.one x, errors) ∧
        (errors = [] ↔ AllNamed (.one x) vals)) ∧
        ¬ ∃ idx ∈ vals, ∃ n, entryOf (.one x) idx = some n) := by
  induction vals with
  | nil => exact Or.inr ⟨⟨[], rfl, by simp [AllNamed]⟩, by simp⟩
  | cons idx rest ih =>
    cases hentry : entryOf (.one x) idx with
    | some n =>
      refine Or.inl ⟨?_, idx, List.mem_cons_self .., n, hentry⟩
      rw [removeLoop, hentry]
    | none =>
      rcases ih with ⟨hloop, i, hi, n, hn⟩ | ⟨⟨errors, hloop, -⟩, hnot⟩
      · refine Or.inl ⟨?_, i, List.mem_cons_of_mem _ hi, n, hn⟩
        rw [removeLoop, hentry]
        simp only [hloop, Option.map_none]
      · refine Or.inr ⟨⟨.invalidValue idx :: errors, ?_, by simp [AllNamed]⟩, ?_⟩
        · rw [removeLoop, hentry]
          simp only [hloop, Option.map_some]
        · rintro ⟨i, hi, n, hn⟩
          rcases List.mem_cons.mp hi with rfl | hi
          · rw [hentry] at hn
            cases hn
          · exact hnot ⟨i, hi, n, hn⟩

/-- How much an attribute holds; removing never adds to it. -/
def weight : Option Value → ℕ
  | none => 0
  | some (.one .null) => 1
  | some (.one _) => 2
  | some (.list xs) => xs.length + 2

/-- Nothing has been added. -/
def Shrinks (s t : Store) : Prop := ∀ p, weight (t p) ≤ weight (s p)

lemma shrinks_update {p : Place} {v : Option Value} (h : weight v ≤ weight (s p)) :
    Shrinks s (Function.update s p v) := by
  intro q
  by_cases hq : q = p
  · subst hq
    rwa [Function.update_self]
  · rw [Function.update_of_ne hq]

/-- The list that is left of a parameter's attribute is the old one if nothing has become null, and
shorter otherwise. -/
lemma filter_takeOut (xs : List Scalar) (vals : List String) :
    ((takeOut xs vals).filter (· ≠ .null) = xs ∧ .null ∉ xs ∧
        ∀ idx ∈ vals, ∀ n, entryOf (.list xs) idx = some n → slotOf xs n = none) ∨
      (((takeOut xs vals).filter (· ≠ .null)).length < xs.length ∧ ¬ (.null ∉ xs ∧
        ∀ idx ∈ vals, ∀ n, entryOf (.list xs) idx = some n → slotOf xs n = none)) := by
  obtain ⟨-, -, hlen, hnull, hsame, hhit, -⟩ := removeLoop_list xs vals
  have hshort : .null ∈ takeOut xs vals →
      ((takeOut xs vals).filter (· ≠ .null)).length < xs.length := by
    intro hmem
    rw [← hlen]
    exact List.length_filter_lt_length_iff_exists.mpr ⟨.null, hmem, by simp⟩
  by_cases hin : Scalar.null ∈ xs
  · exact Or.inr ⟨hshort (hnull hin), fun h => h.1 hin⟩
  · by_cases hall : ∀ idx ∈ vals, ∀ n, entryOf (.list xs) idx = some n → slotOf xs n = none
    · refine Or.inl ⟨?_, hin, hall⟩
      rw [hsame hall, List.filter_eq_self]
      intro x hx
      have hne : x ≠ .null := fun h => hin (h ▸ hx)
      simpa using hne
    · exact Or.inr ⟨hshort (hhit hall), fun h => hall h.2⟩

/-- A turn of `remove_call` that goes on: the values have been removed, nothing has been added,
and the store is as it was exactly if the attribute is untouched; no errors are added exactly if
the parameter is accepted. -/
lemma removeTurn_next {e : List Err} {t : Store × List Err} {arg : String × List String}
    (h : removeTurn entry obj (s, e) arg = .next t) :
    t.1 = takeOutParam entry obj s arg ∧ Shrinks s t.1 ∧
      ((Untouched entry obj s arg ∧ t.1 = s) ∨
        (¬ Untouched entry obj s arg ∧ ∃ p, weight (t.1 p) < weight (s p))) ∧
      ∃ errors, t.2 = e ++ errors ∧ (errors = [] ↔ Accepted entry obj s arg) := by
  rw [removeTurn] at h
  cases hcur : entry.named_args arg.1 with
  | none => simp [hcur] at h
  | some cur =>
    simp only [hcur] at h
    set p := cur.place obj arg.1 with hp
    have hknown : ∀ {P : Param → Prop}, (∀ cur', entry.named_args arg.1 = some cur' → P cur') ↔
        P cur := by
      intro P
      exact ⟨fun hall => hall cur hcur, fun hP cur' hcur' => by
        rw [hcur] at hcur'
        cases hcur'
        exact hP⟩
    by_cases htrue : (s.get p).truthy
    · rw [if_neg (not_not.mpr htrue)] at h
      have haccepted : Accepted entry obj s arg ↔ AllNamed (s.get p) arg.2 := by
        rw [Accepted]
        constructor
        · rintro ⟨cur', hcur', hall⟩
          obtain rfl : cur = cur' := by simpa [hcur] using hcur'
          exact hall htrue
        · exact fun hall => ⟨cur, hcur, fun _ => hall⟩
      cases hget : s.get p with
      | list xs =>
        obtain ⟨errors, hloop, -, -, -, -, herrors⟩ := removeLoop_list xs arg.2
        rw [hget, hloop] at h
        cases h
        have hsp := get_eq_list.mp hget
        have huntouched : Untouched entry obj s arg ↔ .null ∉ xs ∧
            ¬ (cur.attribute_allow_empty ∧ xs = []) ∧
            ∀ idx ∈ arg.2, ∀ n, entryOf (.list xs) idx = some n → slotOf xs n = none := by
          rw [Untouched, hknown, ← hp, hget]
          simp [Value.truthy]
        refine ⟨?_, ?_, ?_, errors, rfl, ?_⟩
        · simp only [takeOutParam, hcur, ← hp, hget]
        · refine shrinks_update ?_
          rw [hsp, removed]
          split
          · exact Nat.zero_le _
          · simp only [filtered, weight]
            rcases filter_takeOut xs arg.2 with ⟨heq, -⟩ | ⟨hlt, -⟩
            · rw [heq]
            · omega
        · rcases filter_takeOut xs arg.2 with ⟨heq, hnull, hall⟩ | ⟨hlt, hnot⟩
          · by_cases hdel : cur.attribute_allow_empty ∧ xs = []
            · refine Or.inr ⟨fun hun => (huntouched.mp hun).2.1 hdel, p, ?_⟩
              show weight (Function.update s p (removed cur (.list (takeOut xs arg.2))) p) < _
              rw [Function.update_self, removed, if_pos, hsp]
              · simp [weight]
              · simp only [filtered, heq, Value.length]
                exact ⟨hdel.1, by rw [hdel.2]; rfl⟩
            · refine Or.inl ⟨huntouched.mpr ⟨hnull, hdel, hall⟩, ?_⟩
              have hkeep : removed cur (.list (takeOut xs arg.2)) = some (.list xs) := by
                rw [removed, if_neg]
                · simp only [filtered, heq]
                · simp only [filtered, heq, Value.length]
                  exact fun hcontra => hdel ⟨hcontra.1, List.length_eq_zero_iff.mp hcontra.2⟩
              rw [hkeep, ← hsp]
              exact Function.update_eq_self ..
          · refine Or.inr ⟨fun hun => ?_, p, ?_⟩
            · have := huntouched.mp hun
              exact hnot ⟨this.1, this.2.2⟩
            · show weight (Function.update s p (removed cur (.list (takeOut xs arg.2))) p) < _
              rw [Function.update_self, removed, hsp]
              split
              · simp [weight]
              · simp only [filtered, weight]
                omega
        · rw [haccepted, hget]
          exact herrors
      | one x =>
        rcases removeLoop_one x arg.2 with ⟨hloop, -⟩ | ⟨⟨errors, hloop, herrors⟩, hnot⟩
        · rw [hget, hloop] at h
          cases h
        · rw [hget, hloop] at h
          cases h
          have hx : x ≠ .null := by
            rintro rfl
            rw [hget] at htrue
            cases htrue
          have hsp := (get_eq_one hx).mp hget
          have hlt : weight (removed cur (.one x)) < weight (s p) := by
            have htwo : weight (s p) = 2 := by
              rw [hsp]
              cases x <;> first | rfl | exact absurd rfl hx
            rw [htwo, removed]
            split <;> simp [weight, filtered]
          refine ⟨?_, shrinks_update hlt.le, Or.inr ⟨fun hun => ?_, p, ?_⟩, errors, rfl, ?_⟩
          · simp only [takeOutParam, hcur, ← hp, hget]
            rw [hget] at htrue
            rw [if_pos htrue]
          · have := hun cur hcur htrue
            rw [← hp, hget] at this
            exact hnot this
          · show weight (Function.update s p (removed cur (.one x)) p) < _
            rwa [Function.update_self]
          · rw [haccepted, hget]
            exact herrors
    · rw [if_pos htrue] at h
      cases h
      refine ⟨?_, fun q => le_refl _, Or.inl ⟨?_, rfl⟩, [], by simp, ?_⟩
      · cases hget : s.get p with
        | list xs =>
          rw [hget] at htrue
          exact absurd rfl htrue
        | one x =>
          rw [hget] at htrue
          simp only [takeOutParam, hcur, ← hp, hget]
          rw [if_neg htrue]
      · rw [Untouched, hknown]
        exact fun hcontra => absurd hcontra htrue
      · exact ⟨fun _ => ⟨cur, hcur, fun hcontra => absurd hcontra htrue⟩, fun _ => rfl⟩

/-- A turn of `remove_call` that is stopped changes nothing, and the parameter is not accepted;
at the start of the command it would have been left untouched. -/
lemma removeTurn_stop {e : List Err} {t : Store × List Err} {arg : String × List String}
    {how : Halt} (h : removeTurn entry obj (s, e) arg = .stop how t) :
    t.1 = s ∧ Untouched entry obj s arg ∧ ¬ Accepted entry obj s arg := by
  rw [removeTurn] at h
  cases hcur : entry.named_args arg.1 with
  | none =>
    simp only [hcur, Turn.stop.injEq] at h
    refine ⟨by rw [← h.2], fun cur hcur' => ?_, ?_⟩
    · rw [hcur] at hcur'
      cases hcur'
    · rintro ⟨cur, hcur', -⟩
      rw [hcur] at hcur'
      cases hcur'
  | some cur =>
    simp only [hcur] at h
    split at h
    · cases h
    · rename_i htrue
      have htrue' := not_not.mp htrue
      cases hget : s.get (cur.place obj arg.1) with
      | list xs =>
        obtain ⟨errors, hloop, -⟩ := removeLoop_list xs arg.2
        rw [hget, hloop] at h
        cases h
      | one x =>
        rcases removeLoop_one x arg.2 with ⟨hloop, hraise⟩ | ⟨⟨errors, hloop, -⟩, -⟩
        · rw [hget, hloop] at h
          cases h
          refine ⟨rfl, fun cur' hcur' _ => ?_, ?_⟩
          · obtain rfl : cur = cur' := by simpa [hcur] using hcur'
            rw [hget]
            exact hraise
          · rintro ⟨cur', hcur', hall⟩
            obtain rfl : cur = cur' := by simpa [hcur] using hcur'
            have hnamed := hall htrue'
            rw [hget] at hnamed
            obtain ⟨idx, hidx, -⟩ := hraise
            cases hvals : arg.2 with
            | nil =>
              rw [hvals] at hidx
              cases hidx
            | cons i rest =>
              rw [hvals] at hnamed
              exact hnamed
        · rw [hget, hloop] at h
          cases h

/-! ## All parameters -/

lemma remove_passes {l : List (String × List String)} {e : List Err} {t : Store × List Err}
    (h : Passes (removeTurn entry obj) (s, e) l t) :
    t.1 = l.foldl (takeOutParam entry obj) s ∧ Shrinks s t.1 := by
  induction l generalizing s e with
  | nil =>
    obtain rfl : t = (s, e) := h
    exact ⟨rfl, fun p => le_refl _⟩
  | cons arg l ih =>
    obtain ⟨⟨m, em⟩, hturn, hrest⟩ := h
    obtain ⟨heq, hshrinks, -, -⟩ := removeTurn_next hturn
    obtain ⟨heq', hshrinks'⟩ := ih hrest
    simp only at heq hshrinks
    exact ⟨by rw [heq', heq, List.foldl_cons], fun p => (hshrinks' p).trans (hshrinks p)⟩

lemma remove_errors {l : List (String × List String)} {e : List Err} {t : Store × List Err}
    (h : Passes (removeTurn entry obj) (s, e) l t) :
    ∃ errors, t.2 = e ++ errors ∧ (errors = [] ↔ ∀ pre arg post m, l = pre ++ arg :: post →
      Passes (removeTurn entry obj) (s, e) pre m → Accepted entry obj m.1 arg) := by
  induction l generalizing s e with
  | nil =>
    obtain rfl : t = (s, e) := h
    exact ⟨[], by simp, by simp⟩
  | cons arg l ih =>
    obtain ⟨⟨m, em⟩, hturn, hrest⟩ := h
    obtain ⟨-, -, -, errors, heq, herrors⟩ := removeTurn_next hturn
    obtain ⟨errors', heq', herrors'⟩ := ih hrest
    simp only at heq
    refine ⟨errors ++ errors', by rw [heq', heq, List.append_assoc], ?_⟩
    rw [List.append_eq_nil_iff, herrors, herrors']
    constructor
    · rintro ⟨harg, hall⟩ pre a post n hsplit hpass
      cases pre with
      | nil =>
        cases hsplit
        obtain rfl : n = (s, e) := hpass
        exact harg
      | cons b pre =>
        cases hsplit
        obtain ⟨k, hk, hpass⟩ := hpass
        rw [hturn] at hk
        cases hk
        exact hall pre a post n rfl hpass
    · intro hall
      refine ⟨hall [] arg l (s, e) rfl rfl, fun pre a post n hsplit hpass => ?_⟩
      exact hall (arg :: pre) a post n (by rw [hsplit, List.cons_append]) ⟨_, hturn, hpass⟩

lemma remove_same_iff {l : List (String × List String)} {e : List Err} {t : Store × List Err}
    (h : Passes (removeTurn entry obj) (s, e) l t) :
    t.1 = s ↔ ∀ arg ∈ l, Untouched entry obj s arg := by
  induction l generalizing s e with
  | nil =>
    obtain rfl : t = (s, e) := h
    simp
  | cons arg l ih =>
    obtain ⟨⟨m, em⟩, hturn, hrest⟩ := h
    obtain ⟨-, -, hcase, -⟩ := removeTurn_next hturn
    rcases hcase with ⟨hun, hm⟩ | ⟨hnot, p, hlt⟩
    · obtain rfl : m = s := hm
      rw [List.forall_mem_cons, and_iff_right hun]
      exact ih hrest
    · constructor
      · rintro rfl
        exact absurd ((remove_passes hrest).2 p) (by simpa using hlt)
      · exact fun hall => absurd (hall arg (List.mem_cons_self ..)) hnot

lemma remove_atomic_iff (entry : Entry) (s : Store) (named : List (String × List String)) :
    (∀ obj, entry.edit_object = some obj →
      Atomic entry s named (RemoveApplied entry obj s named) (remove_call entry s named)) ↔
    RemoveSafe entry s named := by
  refine forall_congr' fun obj => imp_congr_right fun hobj => ?_
  simp only [remove_call, hobj]
  rcases loop_cases (removeTurn entry obj) (s, []) named with
    ⟨hpass, hnone⟩ | ⟨pre, arg, post, m, how, hsplit, hpass, hstop, hsome⟩
  · have heq : Batch.loop (removeTurn entry obj) (s, []) named =
        ((Batch.loop (removeTurn entry obj) (s, []) named).1, none) := by rw [← hnone]
    rw [heq]
    set t := (Batch.loop (removeTurn entry obj) (s, []) named).1 with ht
    obtain ⟨errors, herrors, haccepted⟩ := remove_errors hpass
    rw [List.nil_append] at herrors
    -- in a loop that has gone through, every parameter has had its turn
    have hquiet : (∀ pre arg post m, named = pre ++ arg :: post →
        Passes (removeTurn entry obj) (s, []) pre m → Untouched entry obj s arg) ↔
        ∀ arg ∈ named, Untouched entry obj s arg := by
      constructor
      · intro hall arg harg
        obtain ⟨pre, post, hsplit⟩ := List.append_of_mem harg
        have hp := hpass
        rw [hsplit] at hp
        obtain ⟨m, hpre, -⟩ := hp.split
        exact hall pre arg post m hsplit hpre
      · intro hall pre arg post m hsplit _
        exact hall arg (by rw [hsplit]; simp)
    by_cases hnil : errors = []
    · have hzero : ¬ t.2.length > 0 := by rw [herrors, hnil]; simp
      simp only [if_neg hzero]
      rw [atomic_of_ok]
      exact ⟨fun _ => Or.inl (haccepted.mp hnil), fun _ => (remove_passes hpass).1⟩
    · have hpos : t.2.length > 0 := by
        rw [herrors]
        exact List.length_pos_iff.mpr hnil
      simp only [if_pos hpos]
      rw [atomic_of_failed (by simp) rfl, remove_same_iff hpass, hquiet]
      exact ⟨Or.inr, fun h => h.resolve_left fun hall => hnil (haccepted.mpr hall)⟩
  · have heq : Batch.loop (removeTurn entry obj) (s, []) named =
        ((Batch.loop (removeTurn entry obj) (s, []) named).1, some how) := by rw [← hsome]
    obtain ⟨m, em⟩ := m
    obtain ⟨hsame, huntouched, hnot⟩ := removeTurn_stop hstop
    rw [heq]
    simp only
    rw [atomic_of_failed (by simp) rfl, hsame, remove_same_iff hpass]
    constructor
    · intro hall
      refine Or.inr fun pre' arg' post' m' hsplit' hpass' => ?_
      have hs : m = s := (remove_same_iff hpass).mpr hall
      rw [hs] at huntouched
      by_cases hlen : pre'.length < pre.length
      · refine hall arg' ?_
        have htake := congrArg (List.take pre.length) (hsplit.symm.trans hsplit')
        rw [List.take_left, List.take_append, List.take_of_length_le hlen.le] at htake
        rw [htake, show pre.length - pre'.length = pre.length - pre'.length - 1 + 1 by omega,
          List.take_succ_cons]
        simp
      · by_cases heqlen : pre'.length = pre.length
        · obtain ⟨-, hrest⟩ := List.append_inj (hsplit.symm.trans hsplit') heqlen.symm
          cases hrest
          exact huntouched
        · -- behind the stop no parameter has a turn
          exfalso
          have htake := congrArg (List.take pre'.length) (hsplit.symm.trans hsplit')
          rw [List.take_left, List.take_append, List.take_of_length_le (by omega),
            show pre'.length - pre.length = pre'.length - pre.length - 1 + 1 by omega,
            List.take_succ_cons] at htake
          exact (htake ▸ hpass').not_stopsAt ⟨_, _, how, _, rfl, hpass, hstop⟩
    · rintro (hall | hall)
      · exact absurd (hall pre arg post (m, em) hsplit hpass) hnot
      · intro q hq
        obtain ⟨pre1, post1, rfl⟩ := List.append_of_mem hq
        obtain ⟨n, hpre1, -⟩ := hpass.split
        exact hall pre1 q (post1 ++ arg :: post) n (by rw [hsplit]; simp) hpre1

/-! ## The three commands -/

/-- `add_call` is atomic on these objects and parameters. -/
def AddAtomic (entry : Entry) (s : Store) (named : List (String × List Scalar)) : Prop :=
  Atomic entry s named (fun t => ∀ obj, entry.edit_object = some obj → AddApplied entry obj named t)
    (add_call entry s named)

/-- `set_call` is atomic on these objects and parameters. -/
def SetAtomic (entry : Entry) (s : Store) (named : List (String × Value)) : Prop :=
  Atomic entry s named (fun t => ∀ obj, entry.edit_object = some obj → SetApplied entry obj named t)
    (set_call entry s named)

/-- `remove_call` is atomic on these objects and parameters. -/
def RemoveAtomic (entry : Entry) (s : Store) (named : List (String × List String)) : Prop :=
  Atomic entry s named
    (fun t => ∀ obj, entry.edit_object = some obj → RemoveApplied entry obj s named t)
    (remove_call entry s named)

lemma atomic_edit {α : Type} {named : List α} {applied : ℕ → Store → Prop} {r : Result}
    (hnone : entry.edit_object = none → r.ended ≠ .ok ∧ r.store = s ∧ r.changes = 0) :
    Atomic entry s named (fun t => ∀ obj, entry.edit_object = some obj → applied obj t) r ↔
      ∀ obj, entry.edit_object = some obj → Atomic entry s named (applied obj) r := by
  cases hobj : entry.edit_object with
  | none =>
    obtain ⟨hended, hstore, hchanges⟩ := hnone hobj
    simp only [reduceCtorEq, false_implies, implies_true, iff_true]
    exact ⟨fun _ => ⟨hstore, hchanges⟩, fun hok => absurd hok hended⟩
  | some obj =>
    simp only [Option.some.injEq, forall_eq']

/-- An editor with a name and a list of tags. -/
def sampleEntry : Entry where
  named_args := fun name =>
    if name = "name" then some {} else if name = "tags" then some { multiple := true }
    else if name = "notes" then some { multiple := true } else none
  edit_object := some 0
  change_cb := true

/-- An object with a name and a tag. -/
def sampleStore : Store := fun p =>
  if p = (0, "name") then some (.one (.str "a"))
  else if p = (0, "tags") then some (.list [.str "x"]) else none

end Cli
