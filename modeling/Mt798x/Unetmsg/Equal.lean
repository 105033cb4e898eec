import Mathlib

/-!
# Structural comparison

`is_equal` of `unetmsg/utils.uc`, which netifd and hostapd have copies of.  It goes through the
members of the first object and takes an absent member of the second one for a null one; the keys
of the second object it only tests for a member of the first one that is not null.

So it compares the second value with `strip` of the first one, which is the first value without
the members that are null.
-/

namespace Unetmsg

/-- A value as JSON has it.  A double is finite and stands for its numerical value; an object lists
each of its keys once, in the order of a loop. -/
inductive Json where
  | null
  | bool (b : Bool)
  | int (n : ℤ)
  | double (x : ℚ)
  | str (s : String)
  | arr (n : ℕ) (elems : Fin n → Json)
  | obj (keys : List String) (nodup : keys.Nodup) (vals : {k // k ∈ keys} → Json)

namespace Json

def isNull : Json → Bool
  | null => true
  | _ => false

/-- `object[key]`, null where the key is absent. -/
def member {keys : List String} (vals : {k // k ∈ keys} → Json) (key : String) : Json :=
  if h : key ∈ keys then vals ⟨key, h⟩ else null

def is_equal : Json → Json → Bool
  | arr n elems, arr m elems' =>
    if h : n = m then (List.finRange n).all fun i => is_equal (elems i) (elems' (i.cast h))
    else false
  | obj keys _ vals, obj keys' _ vals' =>
    keys.attach.all (fun key => is_equal (vals key) (member vals' key)) &&
      keys'.all fun key => !(member vals key).isNull
  | null, null => true
  | bool b, bool c => b == c
  | int m, int n => m == n
  | double x, double y => x == y
  | str s, str t => s == t
  -- the types differ
  | _, _ => false

/-! ## Equal values -/

/-- The two are the same value: arrays element by element, objects as finite maps. -/
inductive Same : Json → Json → Prop
  | null : Same null null
  | bool (b : Bool) : Same (bool b) (bool b)
  | int (n : ℤ) : Same (int n) (int n)
  | double (x : ℚ) : Same (double x) (double x)
  | str (s : String) : Same (str s) (str s)
  | arr {n : ℕ} {elems elems' : Fin n → Json} (helems : ∀ i, Same (elems i) (elems' i)) :
      Same (arr n elems) (arr n elems')
  | obj {keys keys' : List String} {nodup : keys.Nodup} {nodup' : keys'.Nodup}
      {vals : {k // k ∈ keys} → Json} {vals' : {k // k ∈ keys'} → Json}
      (hkeys : ∀ k, k ∈ keys ↔ k ∈ keys')
      (hvals : ∀ k (h : k ∈ keys) (h' : k ∈ keys'), Same (vals ⟨k, h⟩) (vals' ⟨k, h'⟩)) :
      Same (obj keys nodup vals) (obj keys' nodup' vals')

/-- No member of an object is null. -/
def NullFree : Json → Prop
  | arr _ elems => ∀ i, (elems i).NullFree
  | obj _ _ vals => ∀ k, (vals k).isNull = false ∧ (vals k).NullFree
  | _ => True

/-- The value without the members that are null. -/
def strip : Json → Json
  | arr n elems => arr n fun i => (elems i).strip
  | obj keys nodup vals =>
    obj (keys.filter fun key => !(member vals key).isNull) (nodup.filter _)
      fun k => (vals ⟨k, List.mem_of_mem_filter k.2⟩).strip
  | j => j

variable {a b c : Json} {keys : List String} (vals : {k // k ∈ keys} → Json) {k : String}

lemma member_of_mem (h : k ∈ keys) : member vals k = vals ⟨k, h⟩ := dif_pos h

lemma mem_of_member (h : (member vals k).isNull = false) : k ∈ keys := by
  by_contra hk
  rw [member, dif_neg hk] at h
  cases h

@[simp] lemma isNull_strip (a : Json) : a.strip.isNull = a.isNull := by
  cases a <;> rfl

namespace Same

lemma refl (a : Json) : Same a a := by
  induction a with
  | null => exact .null
  | bool b => exact .bool b
  | int n => exact .int n
  | double x => exact .double x
  | str s => exact .str s
  | arr n elems ih => exact .arr ih
  | obj keys nodup vals ih => exact .obj (fun _ => Iff.rfl) fun k h _ => ih ⟨k, h⟩

lemma symm (h : Same a b) : Same b a := by
  induction h with
  | null => exact .null
  | bool b => exact .bool b
  | int n => exact .int n
  | double x => exact .double x
  | str s => exact .str s
  | arr _ ih => exact .arr ih
  | obj hkeys _ ih => exact .obj (fun k => (hkeys k).symm) fun k h h' => ih k h' h

lemma trans (h : Same a b) (h' : Same b c) : Same a c := by
  induction h generalizing c with
  | null | bool | int | double | str => exact h'
  | arr _ ih =>
    cases h' with
    | arr helems' => exact .arr fun i => ih i (helems' i)
  | obj hkeys _ ih =>
    cases h' with
    | obj hkeys' hvals' =>
      refine .obj (fun k => (hkeys k).trans (hkeys' k)) fun k h h' => ?_
      have hk := (hkeys k).mp h
      exact ih k h hk (hvals' k hk h')

lemma obj_iff {keys' : List String} {nodup : keys.Nodup} {nodup' : keys'.Nodup}
    {vals' : {k // k ∈ keys'} → Json} : Same (Json.obj keys nodup vals) (Json.obj keys' nodup' vals') ↔
      (∀ k, k ∈ keys ↔ k ∈ keys') ∧
        ∀ k (h : k ∈ keys) (h' : k ∈ keys'), Same (vals ⟨k, h⟩) (vals' ⟨k, h'⟩) :=
  ⟨fun h => by cases h with | obj hkeys hvals => exact ⟨hkeys, hvals⟩, fun h => .obj h.1 h.2⟩

lemma isNull_eq (h : Same a b) : a.isNull = b.isNull := by
  cases h <;> rfl

lemma strip_of_nullFree (h : a.NullFree) : Same a.strip a := by
  induction a with
  | null | bool | int | double | str => exact refl _
  | arr n elems ih => exact .arr fun i => ih i (h i)
  | obj keys nodup vals ih =>
    refine .obj (fun k => ⟨List.mem_of_mem_filter, fun hk => ?_⟩) fun k _ hk =>
      ih ⟨k, hk⟩ (h ⟨k, hk⟩).2
    rw [List.mem_filter, member_of_mem vals hk, (h ⟨k, hk⟩).1]
    exact ⟨hk, rfl⟩

lemma nullFree_of_strip (h : Same a.strip a) : a.NullFree := by
  induction a with
  | null | bool | int | double | str => trivial
  | arr n elems ih =>
    cases h with
    | arr helems => exact fun i => ih i (helems i)
  | obj keys nodup vals ih =>
    cases h with
    | obj hkeys hvals =>
      rintro ⟨k, hk⟩
      have hmem := (hkeys k).mpr hk
      refine ⟨?_, ih ⟨k, hk⟩ (hvals k hmem hk)⟩
      rw [← member_of_mem vals hk]
      simpa using (List.mem_filter.mp hmem).2

lemma strip_iff : Same a.strip a ↔ a.NullFree := ⟨nullFree_of_strip, strip_of_nullFree⟩

lemma nullFree (h : Same a b) (ha : a.NullFree) : b.NullFree := by
  induction h with
  | null | bool | int | double | str => trivial
  | arr _ ih => exact fun i => ih i (ha i)
  | obj hkeys hvals ih =>
    rintro ⟨k, hk⟩
    have hk' := (hkeys k).mpr hk
    exact ⟨(hvals k hk' hk).isNull_eq ▸ (ha ⟨k, hk'⟩).1, ih k hk' hk (ha ⟨k, hk'⟩).2⟩

end Same

lemma nullFree_strip (a : Json) : a.strip.NullFree := by
  induction a with
  | null | bool | int | double | str => trivial
  | arr n elems ih => exact ih
  | obj keys nodup vals ih =>
    rintro ⟨k, hk⟩
    have hk' := List.mem_of_mem_filter hk
    refine ⟨?_, ih ⟨k, hk'⟩⟩
    rw [isNull_strip, ← member_of_mem vals hk']
    simpa using (List.mem_filter.mp hk).2

/-! ## What the comparison decides -/

/-- The first value without its null members is the second one. -/
lemma is_equal_iff_same_strip : is_equal a b = true ↔ Same a.strip b := by
  induction a generalizing b with
  | null | bool | int | double | str =>
    constructor
    · intro h
      cases b <;> simp_all [is_equal, strip, Same.refl]
    · intro h
      cases h
      simp [is_equal]
  | arr n elems ih =>
    constructor
    · intro h
      cases b with
      | arr m elems' =>
        rw [is_equal] at h
        split at h
        · rename_i hn
          subst hn
          refine .arr fun i => (ih i).mp ?_
          exact List.all_eq_true.mp h i (List.mem_finRange i)
        · cases h
      | _ => cases h
    · intro h
      cases h with
      | arr helems =>
        rw [is_equal, dif_pos rfl, List.all_eq_true]
        exact fun i _ => (ih i).mpr (helems i)
  | obj keys nodup vals ih =>
    constructor
    · intro h
      cases b with
      | obj keys' nodup' vals' =>
        rw [is_equal, Bool.and_eq_true, List.all_eq_true, List.all_eq_true] at h
        obtain ⟨hfirst, hsecond⟩ := h
        have hsame : ∀ k (hk : k ∈ keys), Same (vals ⟨k, hk⟩).strip (member vals' k) :=
          fun k hk => (ih ⟨k, hk⟩).mp (hfirst ⟨k, hk⟩ (List.mem_attach _ _))
        refine .obj (fun k => ?_) fun k hk hk' => ?_
        · rw [List.mem_filter]
          constructor
          · rintro ⟨hk, hnull⟩
            refine mem_of_member vals' ?_
            rw [← (hsame k hk).isNull_eq, isNull_strip, ← member_of_mem vals hk]
            simpa using hnull
          · intro hk'
            have hnull := hsecond k hk'
            exact ⟨mem_of_member vals (by simpa using hnull), hnull⟩
        · rw [← member_of_mem vals' hk']
          exact hsame k _
      | _ => cases h
    · intro h
      cases b with
      | obj keys' nodup' vals' =>
        rw [strip, Same.obj_iff] at h
        obtain ⟨hkeys, hvals⟩ := h
        rw [is_equal, Bool.and_eq_true, List.all_eq_true, List.all_eq_true]
        refine ⟨?_, fun k hk' => (List.mem_filter.mp ((hkeys k).mpr hk')).2⟩
        rintro ⟨k, hk⟩ -
        rw [ih]
        by_cases hnull : (member vals k).isNull
        · -- the member is null, and then the other object has no such key
          have hk' : k ∉ keys' := fun hk' => by
            have hmem := (List.mem_filter.mp ((hkeys k).mpr hk')).2
            simp [hnull] at hmem
          rw [member_of_mem vals hk] at hnull
          rw [member, dif_neg hk']
          generalize vals ⟨k, hk⟩ = val at hnull ⊢
          cases val with
          | null => exact .null
          | _ => cases hnull
        · have hmem : k ∈ keys.filter fun key => !(member vals key).isNull :=
            List.mem_filter.mpr ⟨hk, by simpa using hnull⟩
          rw [member_of_mem _ ((hkeys k).mp hmem)]
          exact hvals k hmem _
      | _ => cases h

/-- The comparison is equality for two values just when no object of the first one has a null
member, or the second one is neither the first one nor what stripping leaves of it.  A value is
equal to itself just when it has no null member, and nothing else is in the way of symmetry; the
comparison is transitive. -/
theorem is_equal_equality (a b c : Json) :
    ((is_equal a b = true ↔ Same a b) ↔ a.NullFree ∨ ¬Same a b ∧ ¬Same a.strip b) ∧
      (is_equal a a = true ↔ a.NullFree) ∧
      (is_equal a b = true → (is_equal b a = true ↔ a.NullFree)) ∧
      (is_equal a b = true → is_equal b c = true → is_equal a c = true) := by
  simp only [is_equal_iff_same_strip]
  refine ⟨⟨fun h => ?_, ?_⟩, Same.strip_iff, fun hab => ⟨fun hba => ?_, fun ha => ?_⟩,
    fun hab hbc => ?_⟩
  · by_cases hab : Same a b
    · exact .inl (((h.mpr hab).trans hab.symm).nullFree a.nullFree_strip)
    · exact .inr ⟨hab, fun hstrip => hab (h.mp hstrip)⟩
  · rintro (ha | ⟨h, hstrip⟩)
    · have hself := Same.strip_of_nullFree ha
      exact ⟨hself.symm.trans, hself.trans⟩
    · exact iff_of_false hstrip h
  · exact hba.nullFree b.nullFree_strip
  · have hb := hab.nullFree a.nullFree_strip
    exact (Same.strip_of_nullFree hb).trans (hab.symm.trans (Same.strip_of_nullFree ha))
  · have hb := hab.nullFree a.nullFree_strip
    exact hab.trans ((Same.strip_of_nullFree hb).symm.trans hbc)

/-- `{ "allowed": null }` and `{}` -/
def nullMember : Json := obj ["allowed"] (by decide) fun _ => null

def noMember : Json := obj [] (by decide) fun _ => null

/-- An object with a null member is not equal to itself, and it is equal to the empty object. -/
theorem is_equal_nullMember :
    (Same nullMember nullMember ∧ is_equal nullMember nullMember = false) ∧
      ¬Same nullMember noMember ∧ is_equal nullMember noMember = true ∧
      is_equal noMember nullMember = false := by
  refine ⟨⟨Same.refl _, by decide⟩, ?_, by decide, by decide⟩
  intro h
  cases h with
  | obj hkeys _ => simpa using (hkeys "allowed").mp

end Json

end Unetmsg
