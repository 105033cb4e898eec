import Mt798x.Lib.Bytes

/-!
# The NVRAM variable table

The variables of a handle are kept in 257 hash chains.  A chain holds the variables whose names
hash to it, each name once; the two facts are fields of the table, so that a lookup in one chain is
a lookup among all the variables.  Strings are lists of bytes without their NUL.
-/

namespace Nvram

open Bytes

/-- The bytes of a C string, without the NUL. -/
abbrev Str := List Byte

/-- The bytes of a literal. -/
def str (s : String) : Str := s.toList.map fun c => UInt8.ofNat c.toNat

/-- `struct nvram_tuple` -/
structure Tuple where
  name : Str
  value : Str
  deriving DecidableEq, Repr

/-- What `*s++` adds to the 32-bit hash; `char` is signed or not. -/
def charVal (signed : Bool) (c : Byte) : ℕ :=
  if signed ∧ 128 ≤ c.toNat then c.toNat + (2 ^ 32 - 256) else c.toNat

/-- `hash` -/
def hash (signed : Bool) (s : Str) : ℕ :=
  s.foldl (fun h c => (31 * h + charVal signed c) % 2 ^ 32) 0

/-- The number of chains. -/
def NVRAM_HASH_SIZE : ℕ := 257

/-- The chain of a name.  `NVRAM_ARRAYSIZE` is not in parentheses: the remainder is taken by the
size of the array, and the division by the size of a pointer comes after. -/
def bucket (signed : Bool) (name : Str) : ℕ := hash signed name % (NVRAM_HASH_SIZE * 4) / 4

lemma bucket_lt (signed : Bool) (name : Str) : bucket signed name < NVRAM_HASH_SIZE := by
  rw [bucket, NVRAM_HASH_SIZE]
  omega

/-- The hash chains of a handle: every variable is in the chain of its name, and no chain has a
name twice. -/
structure Table (signed : Bool) where
  chains : ℕ → List Tuple
  placed : ∀ i, ∀ t ∈ chains i, bucket signed t.name = i
  nodup : ∀ i, ((chains i).map Tuple.name).Nodup

/-- The table that `_nvram_free` leaves. -/
def Table.empty (signed : Bool) : Table signed where
  chains := fun _ => []
  placed := by simp
  nodup := by simp

/-- The value of a name in a list of variables. -/
def lookup (name : Str) (ts : List Tuple) : Option Str :=
  (ts.find? fun t => t.name = name).map Tuple.value

section Lookup

variable {name : Str} {ts : List Tuple}

@[simp] lemma lookup_nil : lookup name [] = none := rfl

lemma lookup_cons (t : Tuple) :
    lookup name (t :: ts) = if t.name = name then some t.value else lookup name ts := by
  rw [lookup, List.find?_cons]
  by_cases h : t.name = name
  · simp [h]
  · simp [h, lookup]

lemma lookup_eq_none_iff : lookup name ts = none ↔ name ∉ ts.map Tuple.name := by
  simp only [lookup, Option.map_eq_none_iff, List.find?_eq_none, decide_eq_true_eq, List.mem_map,
    not_exists, not_and]

/-- Where every name stands once, looking up a name is membership. -/
lemma lookup_eq_some_iff (h : (ts.map Tuple.name).Nodup) {value : Str} :
    lookup name ts = some value ↔ ⟨name, value⟩ ∈ ts := by
  induction ts with
  | nil => simp
  | cons t ts ih =>
    rw [List.map_cons, List.nodup_cons] at h
    rw [lookup_cons, List.mem_cons]
    by_cases hname : t.name = name
    · rw [if_pos hname]
      constructor
      · rintro hval
        cases hval
        left
        rw [← hname]
      · rintro (heq | hmem)
        · rw [← heq]
        · have hin : name ∈ ts.map Tuple.name := List.mem_map.mpr ⟨_, hmem, rfl⟩
          rw [← hname] at hin
          exact absurd hin h.1
    · rw [if_neg hname, ih h.2]
      constructor
      · exact Or.inr
      · rintro (heq | hmem)
        · refine absurd ?_ hname
          rw [← heq]
        · exact hmem

end Lookup

/-! ## Get and set -/

variable {signed : Bool}

/-- `nvram_get` -/
def nvram_get (tb : Table signed) (name : Str) : Option Str :=
  lookup name (tb.chains (bucket signed name))

/-- A chain after a variable has been set: the value of its tuple is replaced, or a new tuple
stands at the head. -/
def setChain (name value : Str) (chain : List Tuple) : List Tuple :=
  if name ∈ chain.map Tuple.name then
    chain.map fun t => if t.name = name then { t with value := value } else t
  else ⟨name, value⟩ :: chain

lemma map_name_setChain_of_mem {name value : Str} {chain : List Tuple}
    (h : name ∈ chain.map Tuple.name) :
    (setChain name value chain).map Tuple.name = chain.map Tuple.name := by
  rw [setChain, if_pos h, List.map_map]
  apply List.map_congr_left
  intro t _
  simp only [Function.comp]
  split <;> rfl

lemma nodup_setChain {name value : Str} {chain : List Tuple}
    (h : (chain.map Tuple.name).Nodup) : ((setChain name value chain).map Tuple.name).Nodup := by
  by_cases hmem : name ∈ chain.map Tuple.name
  · rw [map_name_setChain_of_mem hmem]
    exact h
  · rw [setChain, if_neg hmem, List.map_cons]
    exact List.nodup_cons.mpr ⟨hmem, h⟩

lemma name_of_mem_setChain {name value : Str} {chain : List Tuple} {t : Tuple}
    (h : t ∈ setChain name value chain) : t.name = name ∨ t.name ∈ chain.map Tuple.name := by
  by_cases hmem : name ∈ chain.map Tuple.name
  · right
    have hmap := List.mem_map_of_mem (f := Tuple.name) h
    rwa [map_name_setChain_of_mem hmem] at hmap
  · rw [setChain, if_neg hmem, List.mem_cons] at h
    rcases h with rfl | h
    · exact Or.inl rfl
    · exact Or.inr (List.mem_map_of_mem h)

lemma lookup_map_set (name value : Str) (chain : List Tuple) (n : Str) :
    lookup n (chain.map fun t => if t.name = name then { t with value := value } else t) =
      (lookup n chain).map fun v => if n = name then value else v := by
  induction chain with
  | nil => rfl
  | cons t chain ih =>
    rw [List.map_cons, lookup_cons, lookup_cons, ih]
    by_cases hname : t.name = name
    · by_cases hn : t.name = n
      · simp [hn, ← hname]
      · simp [hname, hname ▸ hn]
    · by_cases hn : t.name = n
      · have : n ≠ name := hn ▸ hname
        simp [hn, this]
      · simp [hname, hn]

lemma lookup_setChain (name value : Str) (chain : List Tuple) (n : Str) :
    lookup n (setChain name value chain) = if n = name then some value else lookup n chain := by
  by_cases hmem : name ∈ chain.map Tuple.name
  · rw [setChain, if_pos hmem, lookup_map_set]
    by_cases hn : n = name
    · obtain ⟨v, hv⟩ := Option.ne_none_iff_exists'.mp (mt lookup_eq_none_iff.mp (not_not.mpr hmem))
      rw [if_pos hn, hn, hv]
      simp
    · simp [hn]
  · rw [setChain, if_neg hmem, lookup_cons]
    simp only [eq_comm]

/-- The table with one chain set. -/
def Table.set (tb : Table signed) (name value : Str) : Table signed where
  chains := fun i =>
    if i = bucket signed name then setChain name value (tb.chains i) else tb.chains i
  placed := by
    intro i t ht
    split at ht
    · rename_i hi
      rcases name_of_mem_setChain ht with hname | hname
      · rw [hname, hi]
      · obtain ⟨t', ht', heq⟩ := List.mem_map.mp hname
        rw [← heq]
        exact tb.placed i t' ht'
    · exact tb.placed i t ht
  nodup := by
    intro i
    split
    · exact nodup_setChain (tb.nodup i)
    · exact tb.nodup i

/-- `nvram_set`: a value that does not fit into the `room` behind the header is refused. -/
def nvram_set (tb : Table signed) (room : ℕ) (name value : Str) : ℤ × Table signed :=
  if room < value.length + 1 then (-12, tb) else (0, tb.set name value)

lemma nvram_get_set (tb : Table signed) (name value n : Str) :
    nvram_get (tb.set name value) n = if n = name then some value else nvram_get tb n := by
  rw [nvram_get, nvram_get, Table.set]
  dsimp only
  by_cases hb : bucket signed n = bucket signed name
  · rw [if_pos hb, lookup_setChain]
  · have hn : n ≠ name := fun h => hb (by rw [h])
    rw [if_neg hb, if_neg hn]

/-- The table without a variable. -/
def Table.unset (tb : Table signed) (name : Str) : Table signed where
  chains := fun i => (tb.chains i).filter fun t => t.name ≠ name
  placed := fun i t ht => tb.placed i t (List.mem_of_mem_filter ht)
  nodup := fun i => (tb.nodup i).sublist (List.filter_sublist.map Tuple.name)

lemma lookup_filter_ne (name : Str) (ts : List Tuple) (n : Str) :
    lookup n (ts.filter fun t => t.name ≠ name) = if n = name then none else lookup n ts := by
  induction ts with
  | nil => simp
  | cons t ts ih =>
    by_cases ht : t.name = name
    · rw [List.filter_cons_of_neg (by simp [ht]), ih, lookup_cons]
      by_cases hn : n = name
      · rw [if_pos hn, if_pos hn]
      · rw [if_neg hn, if_neg hn, if_neg fun h => hn (h.symm.trans ht)]
    · rw [List.filter_cons_of_pos (by simp [ht]), lookup_cons, lookup_cons, ih]
      by_cases hn : t.name = n
      · rw [if_pos hn, if_pos hn, if_neg fun h => ht (hn.trans h)]
      · rw [if_neg hn, if_neg hn]

lemma nvram_get_unset (tb : Table signed) (name n : Str) :
    nvram_get (tb.unset name) n = if n = name then none else nvram_get tb n :=
  lookup_filter_ne name _ n

/-! ## All the variables -/

/-- The variables in the order of the chains, as the writer walks them. -/
def Table.toList (tb : Table signed) : List Tuple :=
  (List.range NVRAM_HASH_SIZE).flatMap tb.chains

lemma mem_toList {tb : Table signed} {t : Tuple} :
    t ∈ tb.toList ↔ t ∈ tb.chains (bucket signed t.name) := by
  simp only [Table.toList, List.mem_flatMap, List.mem_range]
  constructor
  · rintro ⟨i, -, ht⟩
    rw [tb.placed i t ht]
    exact ht
  · intro ht
    exact ⟨_, bucket_lt signed t.name, ht⟩

lemma nodup_toList (tb : Table signed) : (tb.toList.map Tuple.name).Nodup := by
  rw [Table.toList, List.map_flatMap, List.nodup_flatMap]
  refine ⟨fun i _ => tb.nodup i, ?_⟩
  refine List.Pairwise.imp_of_mem ?_ (List.pairwise_lt_range)
  intro i j _ _ hij n hi hj
  obtain ⟨t, ht, rfl⟩ := List.mem_map.mp hi
  obtain ⟨t', ht', heq⟩ := List.mem_map.mp hj
  have h1 := tb.placed i t ht
  have h2 := tb.placed j t' ht'
  rw [heq, h1] at h2
  omega

lemma nvram_get_eq_lookup (tb : Table signed) (n : Str) : nvram_get tb n = lookup n tb.toList := by
  ext v
  rw [nvram_get, lookup_eq_some_iff (tb.nodup _), lookup_eq_some_iff (nodup_toList tb),
    mem_toList]

lemma mem_toList_iff_get {tb : Table signed} {t : Tuple} :
    t ∈ tb.toList ↔ nvram_get tb t.name = some t.value := by
  rw [nvram_get_eq_lookup, lookup_eq_some_iff (nodup_toList tb)]

lemma mem_toList_set {tb : Table signed} {name value : Str} {t : Tuple}
    (ht : t ∈ (tb.set name value).toList) : t = ⟨name, value⟩ ∨ t ∈ tb.toList := by
  rw [mem_toList_iff_get, nvram_get_set] at ht
  by_cases hn : t.name = name
  · rw [if_pos hn] at ht
    left
    cases t
    cases ht
    cases hn
    rfl
  · rw [if_neg hn] at ht
    right
    rwa [mem_toList_iff_get]

/-! ## Filling a table -/

/-- A table after a list of variables has been set; refused values are not reported. -/
def setAll (room : ℕ) (tb : Table signed) (ts : List Tuple) : Table signed :=
  ts.foldl (fun tb t => (nvram_set tb room t.name t.value).2) tb

lemma nvram_get_setAll {room : ℕ} {tb : Table signed} {ts : List Tuple}
    (hroom : ∀ t ∈ ts, t.value.length + 1 ≤ room) (hnodup : (ts.map Tuple.name).Nodup) (n : Str) :
    nvram_get (setAll room tb ts) n = (lookup n ts).or (nvram_get tb n) := by
  induction ts generalizing tb with
  | nil => rfl
  | cons t ts ih =>
    rw [List.map_cons, List.nodup_cons] at hnodup
    have hset : (nvram_set tb room t.name t.value).2 = tb.set t.name t.value := by
      have := hroom t List.mem_cons_self
      rw [nvram_set, if_neg (by omega)]
    rw [setAll, List.foldl_cons, ← setAll, hset,
      ih (fun t' ht' => hroom t' (List.mem_cons_of_mem t ht')) hnodup.2, lookup_cons, nvram_get_set]
    by_cases hn : t.name = n
    · have hnone : lookup n ts = none := by
        rw [lookup_eq_none_iff, ← hn]
        exact hnodup.1
      rw [if_pos hn, if_pos hn.symm, hnone]
      rfl
    · rw [if_neg hn, if_neg (fun h => hn h.symm)]

/-- A table after the variables that it lacks have been added. -/
def setMissing (room : ℕ) (tb : Table signed) (ts : List Tuple) : Table signed :=
  ts.foldl (fun tb t =>
    if nvram_get tb t.name = none then (nvram_set tb room t.name t.value).2 else tb) tb

lemma nvram_get_setMissing {room : ℕ} {tb : Table signed} {ts : List Tuple}
    (hroom : ∀ t ∈ ts, t.value.length + 1 ≤ room) (hnodup : (ts.map Tuple.name).Nodup) (n : Str) :
    nvram_get (setMissing room tb ts) n = (nvram_get tb n).or (lookup n ts) := by
  induction ts generalizing tb with
  | nil =>
    rw [lookup_nil, Option.or_none]
    rfl
  | cons t ts ih =>
    rw [List.map_cons, List.nodup_cons] at hnodup
    have hset : (nvram_set tb room t.name t.value).2 = tb.set t.name t.value := by
      have := hroom t List.mem_cons_self
      rw [nvram_set, if_neg (by omega)]
    rw [setMissing, List.foldl_cons, ← setMissing, hset,
      ih (fun t' ht' => hroom t' (List.mem_cons_of_mem t ht')) hnodup.2, lookup_cons]
    by_cases hget : nvram_get tb t.name = none
    · rw [if_pos hget, nvram_get_set]
      by_cases hn : t.name = n
      · rw [if_pos hn, if_pos hn.symm, ← hn, hget]
        rfl
      · rw [if_neg hn, if_neg (fun h => hn h.symm)]
    · rw [if_neg hget]
      by_cases hn : t.name = n
      · obtain ⟨v, hv⟩ := Option.ne_none_iff_exists'.mp hget
        rw [← hn, hv]
        rfl
      · rw [if_neg hn]

end Nvram
