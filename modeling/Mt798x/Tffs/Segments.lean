import Mt798x.Tffs.Nand

/-!
# Collecting segments

What `find_entry` collects from the sectors of an entry, whatever their order: the segments of the
newest revision that are not cleared, the last one of each number, in as many places as one of them
announces.  The collection goes wrong exactly if a segment comes before any segment of its revision
that announces its place.
-/

namespace Tffs

/-- `find_entry` for the sectors of the entry, one after the other. -/
def gather (l : List Segment) : Except Fault Collected :=
  l.foldlM Collected.add ⟨0, 0, fun _ => none⟩

/-- The highest revision. -/
def maxRev (l : List Segment) : ℕ := l.foldr (fun r m => max r.rev m) 0

/-- The segments of the highest revision. -/
def newest (l : List Segment) : List Segment := l.filter fun r => r.rev = maxRev l

/-- Those of them that are not cleared. -/
def live (l : List Segment) : List Segment := (newest l).filter fun r => r.seg ≠ TFFS_SEGMENT_CLEARED

/-- The number of places that the segments announce. -/
def places (l : List Segment) : ℕ := l.foldr (fun r m => max r.new_num_segs m) 0

/-- The last segment with a number. -/
def lastAt (l : List Segment) (i : ℕ) : Option (List Bytes.Byte) :=
  (l.reverse.find? fun r => r.seg = i).map Segment.val

/-- Some segment of what is then the newest revision has no place yet. -/
def Overrun (l : List Segment) : Prop :=
  ∃ pre r post, l = pre ++ r :: post ∧ maxRev pre ≤ r.rev ∧ r.seg ≠ TFFS_SEGMENT_CLEARED ∧
    places (live (pre ++ [r])) ≤ r.seg

/-! ## One more sector -/

lemma maxRev_append (l l' : List Segment) : maxRev (l ++ l') = max (maxRev l) (maxRev l') := by
  induction l with
  | nil => simp [maxRev]
  | cons r l ih =>
    simp only [maxRev, List.cons_append, List.foldr_cons] at ih ⊢
    rw [ih, Nat.max_assoc]

lemma maxRev_snoc (l : List Segment) (r : Segment) : maxRev (l ++ [r]) = max (maxRev l) r.rev := by
  rw [maxRev_append]
  simp [maxRev]

lemma le_maxRev {l : List Segment} {r : Segment} (h : r ∈ l) : r.rev ≤ maxRev l := by
  obtain ⟨pre, post, rfl⟩ := List.append_of_mem h
  rw [maxRev_append]
  simp only [maxRev, List.foldr_cons]
  omega

lemma places_append (l l' : List Segment) : places (l ++ l') = max (places l) (places l') := by
  induction l with
  | nil => simp [places]
  | cons r l ih =>
    simp only [places, List.cons_append, List.foldr_cons] at ih ⊢
    rw [ih, Nat.max_assoc]

lemma newest_snoc_of_lt {l : List Segment} {r : Segment} (h : r.rev < maxRev l) :
    newest (l ++ [r]) = newest l := by
  have hmax : maxRev (l ++ [r]) = maxRev l := by
    rw [maxRev_snoc]
    omega
  rw [newest, hmax, List.filter_append, List.filter_cons_of_neg (by simp; omega), List.filter_nil,
    List.append_nil]
  rfl

lemma newest_snoc_of_eq {l : List Segment} {r : Segment} (h : r.rev = maxRev l) :
    newest (l ++ [r]) = newest l ++ [r] := by
  have hmax : maxRev (l ++ [r]) = maxRev l := by
    rw [maxRev_snoc]
    omega
  rw [newest, hmax, List.filter_append, List.filter_cons_of_pos (by simp [h]), List.filter_nil]
  rfl

lemma newest_snoc_of_gt {l : List Segment} {r : Segment} (h : maxRev l < r.rev) :
    newest (l ++ [r]) = [r] := by
  have hmax : maxRev (l ++ [r]) = r.rev := by
    rw [maxRev_snoc]
    omega
  have hold : l.filter (fun q => q.rev = r.rev) = [] := by
    refine List.filter_eq_nil_iff.mpr fun q hq => ?_
    have := le_maxRev hq
    simp only [decide_eq_true_eq]
    omega
  rw [newest, hmax, List.filter_append, hold, List.nil_append,
    List.filter_cons_of_pos (by simp), List.filter_nil]

lemma lastAt_snoc (l : List Segment) (r : Segment) (i : ℕ) :
    lastAt (l ++ [r]) i = if r.seg = i then some r.val else lastAt l i := by
  rw [lastAt, List.reverse_append, List.reverse_singleton, List.singleton_append, List.find?_cons]
  by_cases h : r.seg = i
  · simp [h]
  · simp [h, lastAt]

/-! ## The collection -/

/-- The collection holds the newest segments of these sectors. -/
structure Holds (c : Collected) (l : List Segment) : Prop where
  rev : c.rev = maxRev l
  num_segments : c.num_segments = places (live l)
  segments : ∀ i, c.segments i = lastAt (live l) i
  bounded : ∀ r ∈ live l, r.seg < places (live l)

lemma holds_nil : Holds ⟨0, 0, fun _ => none⟩ [] := by
  constructor <;> simp [maxRev, places, live, newest, lastAt]

lemma lastAt_eq_none {l : List Segment} {i : ℕ} (h : ∀ r ∈ l, r.seg ≠ i) : lastAt l i = none := by
  rw [lastAt, List.find?_eq_none.mpr fun r hr => by simpa using h r (List.mem_reverse.mp hr)]
  rfl

/-- What `find_entry` does with a segment that is not of an old revision, once the data of an older
one have been cleared. -/
def Collected.place (c : Collected) (r : Segment) : Except Fault Collected :=
  if r.seg = TFFS_SEGMENT_CLEARED then .ok c
  else
    let c := if r.new_num_segs > c.num_segments then
        { c with
          num_segments := r.new_num_segs
          segments := fun i =>
            if c.num_segments ≤ i ∧ i < r.new_num_segs then none else c.segments i }
      else c
    if r.seg < c.num_segments then
      .ok { c with segments := Function.update c.segments r.seg (some r.val) }
    else .error .outside

lemma Collected.add_eq (c : Collected) (r : Segment) : c.add r =
    if r.rev < c.rev then .ok c
    else (if r.rev > c.rev then ⟨r.rev, 0, fun _ => none⟩ else c).place r := rfl

/-- The collection of the segments `K` of the newest revision takes one more of it. -/
lemma Collected.place_spec {c : Collected} {r : Segment} {K : List Segment}
    (hnum : c.num_segments = places K) (hseg : ∀ i, c.segments i = lastAt K i)
    (hbound : ∀ q ∈ K, q.seg < places K) (hlive : r.seg ≠ TFFS_SEGMENT_CLEARED) :
    (places (K ++ [r]) ≤ r.seg ∧ c.place r = .error .outside) ∨
    (r.seg < places (K ++ [r]) ∧ ∃ c', c.place r = .ok c' ∧ c'.rev = c.rev ∧
      c'.num_segments = places (K ++ [r]) ∧ ∀ i, c'.segments i = lastAt (K ++ [r]) i) := by
  have hplaces : places (K ++ [r]) = max (places K) r.new_num_segs := by
    rw [places_append]
    simp [places]
  rw [Collected.place, if_neg hlive]
  set c2 : Collected := if r.new_num_segs > c.num_segments then
      { c with
        num_segments := r.new_num_segs
        segments := fun i => if c.num_segments ≤ i ∧ i < r.new_num_segs then none else c.segments i }
    else c with hc2
  have hrev2 : c2.rev = c.rev := by
    rw [hc2]
    split <;> rfl
  have hnum2 : c2.num_segments = places (K ++ [r]) := by
    rw [hc2, hplaces]
    split
    · simp only
      omega
    · omega
  have hseg2 : ∀ i, c2.segments i = lastAt K i := by
    intro i
    rw [hc2]
    split
    · simp only
      split
      · rename_i hnew
        refine (lastAt_eq_none fun q hq => ?_).symm
        have := hbound q hq
        omega
      · exact hseg i
    · exact hseg i
  by_cases hfits : r.seg < c2.num_segments
  · simp only [hfits, if_true]
    refine Or.inr ⟨by omega, _, rfl, hrev2, hnum2, fun i => ?_⟩
    rw [lastAt_snoc]
    by_cases hi : r.seg = i
    · simp [← hi]
    · simp only [if_neg hi]
      rw [Function.update_of_ne (Ne.symm hi), hseg2]
  · simp only [hfits, if_false]
    exact Or.inl ⟨by omega, trivial⟩

/-- One more sector is collected, if its segment has a place. -/
lemma Holds.add {c : Collected} {l : List Segment} (h : Holds c l) (r : Segment) :
    (maxRev l ≤ r.rev ∧ r.seg ≠ TFFS_SEGMENT_CLEARED ∧ places (live (l ++ [r])) ≤ r.seg ∧
      c.add r = .error .outside) ∨
    (¬ (maxRev l ≤ r.rev ∧ r.seg ≠ TFFS_SEGMENT_CLEARED ∧ places (live (l ++ [r])) ≤ r.seg) ∧
      ∃ c', c.add r = .ok c' ∧ Holds c' (l ++ [r])) := by
  obtain ⟨hrev, hnum, hseg, hbound⟩ := h
  rw [Collected.add_eq]
  by_cases hold : r.rev < c.rev
  · have hlive : live (l ++ [r]) = live l := by
      rw [live, newest_snoc_of_lt (by omega)]
      rfl
    rw [if_pos hold]
    refine Or.inr ⟨by omega, c, rfl, ?_, ?_, ?_, ?_⟩
    · rw [maxRev_snoc]
      omega
    · rw [hlive, hnum]
    · rw [hlive]
      exact hseg
    · rw [hlive]
      exact hbound
  · rw [if_neg hold]
    -- the collection of what stays of the old segments
    obtain ⟨c1, K, hc1, hrev1, hnum1, hseg1, hbound1, hnewest⟩ : ∃ c1 K,
        (if r.rev > c.rev then ⟨r.rev, 0, fun _ => none⟩ else c) = c1 ∧
        c1.rev = maxRev (l ++ [r]) ∧ c1.num_segments = places K ∧
        (∀ i, c1.segments i = lastAt K i) ∧ (∀ q ∈ K, q.seg < places K) ∧
        live (l ++ [r]) = K ++ if r.seg ≠ TFFS_SEGMENT_CLEARED then [r] else [] := by
      have hr : [r].filter (fun q => q.seg ≠ TFFS_SEGMENT_CLEARED) =
          if r.seg ≠ TFFS_SEGMENT_CLEARED then [r] else [] := by
        by_cases hcl : r.seg = TFFS_SEGMENT_CLEARED <;> simp [hcl]
      by_cases hnew : r.rev > c.rev
      · refine ⟨_, [], if_pos hnew, ?_, rfl, fun i => rfl, by simp, ?_⟩
        · rw [maxRev_snoc]
          simp only
          omega
        · rw [live, newest_snoc_of_gt (by omega), hr, List.nil_append]
      · refine ⟨_, live l, if_neg hnew, ?_, hnum, hseg, hbound, ?_⟩
        · rw [maxRev_snoc]
          omega
        · rw [live, newest_snoc_of_eq (by omega), List.filter_append, hr]
          rfl
    rw [hc1]
    by_cases hcl : r.seg = TFFS_SEGMENT_CLEARED
    · rw [if_neg (not_not.mpr hcl), List.append_nil] at hnewest
      rw [Collected.place, if_pos hcl]
      exact Or.inr ⟨fun hall => hall.2.1 hcl, c1, rfl, hrev1, by rw [hnewest, hnum1],
        by rw [hnewest]; exact hseg1, by rw [hnewest]; exact hbound1⟩
    · rw [if_pos hcl] at hnewest
      rcases Collected.place_spec hnum1 hseg1 hbound1 hcl with ⟨hover, herr⟩ | ⟨hfits, c', hc', hrev', hnum',
        hseg'⟩
      · exact Or.inl ⟨by omega, hcl, by rw [hnewest]; exact hover, herr⟩
      · refine Or.inr ⟨fun hall => ?_, c', hc', by rw [hrev', hrev1], by rw [hnewest, hnum'],
          by rw [hnewest]; exact hseg', ?_⟩
        · have := hall.2.2
          rw [hnewest] at this
          omega
        · rw [hnewest]
          intro q hq
          rcases List.mem_append.mp hq with hq | hq
          · have := hbound1 q hq
            rw [places_append]
            omega
          · rw [List.mem_singleton.mp hq]
            exact hfits

/-- The collection of all sectors of the entry fails exactly if one of them has no place. -/
lemma gather_cases (l : List Segment) :
    (Overrun l ∧ gather l = .error .outside) ∨ (¬ Overrun l ∧ ∃ c, gather l = .ok c ∧ Holds c l) := by
  induction l using List.reverseRecOn with
  | nil =>
    refine Or.inr ⟨?_, _, rfl, holds_nil⟩
    rintro ⟨pre, r, post, heq, -⟩
    simp at heq
  | append_singleton l r ih =>
    have hsnoc : gather (l ++ [r]) = (gather l).bind fun c => c.add r := by
      rw [gather, List.foldlM_append]
      change ((gather l).bind fun c => (c.add r).bind fun c => .ok c) = _
      congr 1
      funext c
      cases c.add r <;> rfl
    -- an overrun is one of the old sectors or one of the new sector
    have hover : Overrun (l ++ [r]) ↔ Overrun l ∨ (maxRev l ≤ r.rev ∧ r.seg ≠ TFFS_SEGMENT_CLEARED ∧
        places (live (l ++ [r])) ≤ r.seg) := by
      constructor
      · rintro ⟨pre, q, post, heq, hrest⟩
        rcases List.eq_nil_or_concat post with rfl | ⟨post, q', rfl⟩
        · obtain ⟨rfl, rfl⟩ := List.append_inj' heq rfl |>.imp id List.singleton_inj.mp
          exact Or.inr hrest
        · rw [List.concat_eq_append, ← List.cons_append, ← List.append_assoc] at heq
          obtain ⟨rfl, -⟩ := List.append_inj' heq rfl
          exact Or.inl ⟨pre, q, post, rfl, hrest⟩
      · rintro (⟨pre, q, post, rfl, hrest⟩ | hrest)
        · exact ⟨pre, q, post ++ [r], by simp, hrest⟩
        · exact ⟨l, r, [], rfl, hrest⟩
    rw [hsnoc, hover]
    rcases ih with ⟨hbad, herr⟩ | ⟨hgood, c, hc, hholds⟩
    · exact Or.inl ⟨Or.inl hbad, by rw [herr]; rfl⟩
    · rw [hc]
      rcases hholds.add r with ⟨h1, h2, h3, herr⟩ | ⟨hno, c', hc', hholds'⟩
      · exact Or.inl ⟨Or.inr ⟨h1, h2, h3⟩, herr⟩
      · exact Or.inr ⟨fun hor => hor.elim hgood hno, c', hc', hholds'⟩

/-! ## Values -/

/-- The values at `n` places, one after the other, if there are any places and none is empty. -/
def assembled (n : ℕ) (f : ℕ → Option (List Bytes.Byte)) : Option (List Bytes.Byte) :=
  if n ≠ 0 ∧ ∀ i < n, (f i).isSome then some ((List.range n).flatMap fun i => (f i).getD [])
  else none

lemma concatFrom_eq (f : ℕ → Option (List Bytes.Byte)) (n i : ℕ) :
    concatFrom f n i = if ∀ k < n, (f (i + k)).isSome then
      some ((List.range' i n).flatMap fun k => (f k).getD []) else none := by
  induction n generalizing i with
  | zero => simp [concatFrom]
  | succ n ih =>
    have hsplit : (∀ k < n + 1, (f (i + k)).isSome) ↔
        (f i).isSome ∧ ∀ k < n, (f (i + 1 + k)).isSome := by
      constructor
      · intro h
        refine ⟨h 0 (by omega), fun k hk => ?_⟩
        have := h (k + 1) (by omega)
        rwa [Nat.add_comm k 1, ← Nat.add_assoc] at this
      · rintro ⟨h0, h⟩ k hk
        cases k with
        | zero => exact h0
        | succ k =>
          rw [Nat.add_comm k 1, ← Nat.add_assoc]
          exact h k (by omega)
    rw [concatFrom]
    cases hi : f i with
    | none =>
      rw [if_neg]
      rw [hsplit, hi]
      simp
    | some val =>
      simp only [ih]
      by_cases hall : ∀ k < n, (f (i + 1 + k)).isSome
      · rw [if_pos hall, if_pos (hsplit.mpr ⟨by rw [hi]; rfl, hall⟩), List.range'_succ,
          List.flatMap_cons, hi]
        rfl
      · rw [if_neg hall, if_neg (fun h => hall (hsplit.mp h).2)]
        rfl

lemma Collected.value_eq (c : Collected) : c.value = assembled c.num_segments c.segments := by
  rw [Collected.value, assembled]
  by_cases hzero : c.num_segments = 0
  · rw [if_pos hzero, if_neg (fun h => h.1 hzero)]
  · rw [if_neg hzero, concatFrom_eq]
    simp only [Nat.zero_add, List.range_eq_range']
    by_cases hall : ∀ k < c.num_segments, (c.segments k).isSome
    · rw [if_pos hall, if_pos ⟨hzero, hall⟩]
    · rw [if_neg hall, if_neg (fun h => hall h.2)]

/-- What is found in these sectors. -/
def found (l : List Segment) : Option (List Bytes.Byte) :=
  assembled (places (live l)) (lastAt (live l))

lemma Holds.value {c : Collected} {l : List Segment} (h : Holds c l) : c.value = found l := by
  rw [Collected.value_eq, h.num_segments, funext h.segments, found]

/-- The number of segments that a segment announces: the number of the next one, or its own for the
last one, and one more. -/
def Segment.announced (r : Segment) : ℕ := (if r.next_seg = 0 then r.seg else r.next_seg) + 1

/-- The newest complete value: all segments that the newest revision announces, none of them
cleared. -/
def newestValue (l : List Segment) : Option (List Bytes.Byte) :=
  if ∃ r ∈ newest l, r.seg = TFFS_SEGMENT_CLEARED then none
  else assembled ((newest l).foldr (fun r m => max r.announced m) 0) (lastAt (newest l))

/-- No segment of the newest revision is cleared or announces more than 32 bits can count. -/
def Plain (l : List Segment) : Prop :=
  ∀ r ∈ newest l, r.seg < 0xffffffff ∧ r.next_seg < 0xffffffff

lemma found_eq_newestValue {l : List Segment} (h : Plain l) : found l = newestValue l := by
  have hlive : live l = newest l := by
    refine List.filter_eq_self.mpr fun r hr => ?_
    have := (h r hr).1
    have hne : r.seg ≠ TFFS_SEGMENT_CLEARED := by
      rw [TFFS_SEGMENT_CLEARED]
      omega
    simpa using hne
  have hplaces : ∀ l : List Segment, (∀ r ∈ l, r.seg < 0xffffffff ∧ r.next_seg < 0xffffffff) →
      places l = l.foldr (fun r m => max r.announced m) 0 := by
    intro l
    induction l with
    | nil => exact fun _ => rfl
    | cons r l ih =>
      intro hall
      obtain ⟨h1, h2⟩ := hall r (by simp)
      have hr : r.new_num_segs = r.announced := by
        rw [Segment.new_num_segs, Segment.announced]
        split <;> omega
      have hl := ih fun q hq => hall q (List.mem_cons_of_mem _ hq)
      simp only [places, List.foldr_cons] at hl ⊢
      rw [hl, hr]
  rw [found, newestValue, hlive, hplaces _ h, if_neg]
  rintro ⟨r, hr, hcl⟩
  have := (h r hr).1
  simp only [TFFS_SEGMENT_CLEARED] at hcl
  omega

end Tffs
