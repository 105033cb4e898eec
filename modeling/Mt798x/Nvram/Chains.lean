import Mt798x.Lib.Links
import Mt798x.Nvram.Table

/-!
# The hash table of a handle as linked tuples

`nvram_get`, `nvram_set`, `nvram_unset` and `nvram_getall` on the tuples themselves: each hash chain
and the list of dead tuples is linked through the `next` fields, a value is replaced in its tuple,
and `nvram_unset` relinks a chain.  `Holds` relates a handle to a table; every call does to the table
what it says, and over any calls a table is the map of what was set last.
-/

namespace Nvram.Chains

open Links

/-- Where the chains of a handle start: `nvram_hash[i]` and `nvram_dead`. -/
inductive Root
  | hash (i : ℕ)
  | dead
  deriving DecidableEq

/-- `struct nvram_handle`, with the tuples it has allocated. -/
structure Handle where
  length : ℕ
  offset : ℕ
  links : Memory Root ℕ
  tuple : ℕ → Tuple
  /-- the address that `malloc` returns next -/
  fresh : ℕ

/-- A handle without tuples. -/
def Handle.empty (length offset : ℕ) : Handle := ⟨length, offset, fun _ => none, fun _ => ⟨[], []⟩, 0⟩

/-- A store to `nvram_hash[i]`, `nvram_dead` or the `next` field of a tuple. -/
def Handle.store (h : Handle) (p : Place Root ℕ) (v : Option ℕ) : Handle :=
  { h with links := Function.update h.links p v }

section Calls

variable (signed : Bool)

/-- `&h->nvram_hash[i]` for the hash of a name. -/
def head (name : Str) : Place Root ℕ := .root (.hash (bucket signed name))

/-- The search for the tuple of a name: the place it stands at, and the tuple. -/
def find (h : Handle) (name : Str) : Option (Place Root ℕ × Option ℕ) :=
  walk h.links (fun t => (h.tuple t).name = name) (h.fresh + 1) (head signed name)

/-- `nvram_get`; nothing if the search does not end. -/
def nvram_get (h : Handle) (name : Str) : Option (Option Str) :=
  (find signed h name).map fun r => r.2.map fun t => (h.tuple t).value

/-- `_nvram_realloc`: the tuple with the value, a new one if there was none. -/
def nvram_realloc (h : Handle) (t : Option ℕ) (name value : Str) : Option (Handle × ℕ) :=
  if value.length + 1 > h.length - h.offset then none
  else
    match t with
    | none =>
      some ({ h with
        tuple := Function.update h.tuple h.fresh ⟨name, value⟩
        fresh := h.fresh + 1 }, h.fresh)
    | some t =>
      if (h.tuple t).value ≠ value then
        some ({ h with
          tuple := Function.update h.tuple t { h.tuple t with value := value } }, t)
      else some (h, t)

/-- Moves a tuple, found at `prev`, to the dead table. -/
def moveToDead (h : Handle) (prev : Place Root ℕ) (t : ℕ) : Handle :=
  let h := h.store prev (h.links (.next t))
  let h := h.store (.next t) (h.links (.root .dead))
  h.store (.root .dead) (some t)

/-- `nvram_set` -/
def nvram_set (h : Handle) (name value : Str) : Option (ℤ × Handle) :=
  (find signed h name).map fun (prev, t) =>
    match nvram_realloc h t name value with
    | none => (-12, h)
    | some (h, u) =>
      if t = some u then (0, h)
      else
        let h := match t with
          | none => h
          | some t => moveToDead h prev t
        let h := h.store (.next u) (h.links (head signed name))
        (0, h.store (head signed name) (some u))

/-- `nvram_unset` -/
def nvram_unset (h : Handle) (name : Str) : Option Handle :=
  (find signed h name).map fun (prev, t) =>
    match t with
    | none => h
    | some t => moveToDead h prev t

/-- `nvram_getall`: every tuple is put in front of the list. -/
def nvram_getall (h : Handle) : Option (List Tuple) :=
  (List.range NVRAM_HASH_SIZE).foldlM (fun l i =>
    (nodes h.links (h.fresh + 1) (.root (.hash i))).map fun ts =>
      ts.foldl (fun l t => h.tuple t :: l) l) []

end Calls

/-! ## The table of a handle -/

variable {signed : Bool}

/-- A handle whose chains hold these tuples holds this table. -/
structure Holds (h : Handle) (addrs : ℕ → List ℕ) (tb : Table signed) : Prop where
  chain : ∀ i, Chain h.links (.root (.hash i)) (addrs i)
  tuples : ∀ i, (addrs i).map h.tuple = tb.chains i
  allocated : ∀ i, ∀ t ∈ addrs i, t < h.fresh

section Table

variable {h : Handle} {addrs : ℕ → List ℕ} {tb : Table signed} {name value : Str} {i j t u : ℕ}

namespace Holds

lemma nodup (hh : Holds h addrs tb) (i : ℕ) : (addrs i).Nodup := by
  refine List.Nodup.of_map h.tuple ?_
  rw [hh.tuples]
  exact List.Nodup.of_map Tuple.name (tb.nodup i)

lemma length_lt (hh : Holds h addrs tb) (i : ℕ) : (addrs i).length < h.fresh + 1 := by
  have hsub : addrs i ⊆ List.range h.fresh := fun t ht => List.mem_range.mpr (hh.allocated i t ht)
  have hle := ((hh.nodup i).subperm hsub).length_le
  rw [List.length_range] at hle
  omega

lemma bucket_eq (hh : Holds h addrs tb) (ht : t ∈ addrs i) : bucket signed (h.tuple t).name = i := by
  refine tb.placed i _ ?_
  rw [← hh.tuples]
  exact List.mem_map_of_mem ht

lemma eq_of_name (hh : Holds h addrs tb) (ht : t ∈ addrs i) (hu : u ∈ addrs i)
    (hname : (h.tuple t).name = (h.tuple u).name) : t = u := by
  have hnodup : ((addrs i).map fun t => (h.tuple t).name).Nodup := by
    have hn := tb.nodup i
    rwa [← hh.tuples, List.map_map] at hn
  exact List.inj_on_of_nodup_map hnodup ht hu hname

lemma mem_names_iff (hh : Holds h addrs tb) :
    name ∈ (tb.chains i).map Tuple.name ↔ ∃ t ∈ addrs i, (h.tuple t).name = name := by
  rw [← hh.tuples, List.map_map, List.mem_map]
  rfl

lemma find_spec (hh : Holds h addrs tb) (name : Str) :
    (∃ l1 t l2, addrs (bucket signed name) = l1 ++ t :: l2 ∧ (h.tuple t).name = name ∧
      find signed h name = some (lastPlace (head signed name) l1, some t)) ∨
    (name ∉ (tb.chains (bucket signed name)).map Tuple.name ∧
      find signed h name =
        some (lastPlace (head signed name) (addrs (bucket signed name)), none)) := by
  have hchain := hh.chain (bucket signed name)
  have hlen := hh.length_lt (bucket signed name)
  by_cases hmem : name ∈ (tb.chains (bucket signed name)).map Tuple.name
  · obtain ⟨t, ht, hname⟩ := hh.mem_names_iff.mp hmem
    obtain ⟨l1, l2, hsplit⟩ := List.append_of_mem ht
    have hnodup := hh.nodup (bucket signed name)
    have hothers : ∀ b ∈ l1, (h.tuple b).name ≠ name := by
      intro b hb heq
      have hbt : b = t := hh.eq_of_name (hsplit ▸ List.mem_append_left _ hb) ht (heq.trans hname.symm)
      rw [hsplit, List.nodup_append] at hnodup
      exact hnodup.2.2 b hb t List.mem_cons_self hbt
    refine .inl ⟨l1, t, l2, hsplit, hname, ?_⟩
    rw [hsplit] at hchain hlen
    rw [List.length_append] at hlen
    exact hchain.walk_found (by simpa using hname) (fun b hb => by simpa using hothers b hb)
      (by omega)
  · refine .inr ⟨hmem, hchain.walk_missing (fun b hb => ?_) hlen⟩
    have hne : (h.tuple b).name ≠ name := fun heq => hmem (hh.mem_names_iff.mpr ⟨b, hb, heq⟩)
    simpa using hne

lemma replace (hh : Holds h addrs tb) (ht : t ∈ addrs (bucket signed name))
    (hname : (h.tuple t).name = name) (value : Str) :
    Holds { h with tuple := Function.update h.tuple t { h.tuple t with value := value } } addrs
      (tb.set name value) := by
  refine ⟨hh.chain, fun i => ?_, hh.allocated⟩
  show (addrs i).map _ = if i = bucket signed name then _ else _
  split
  · rename_i hi
    have hmem : name ∈ (tb.chains i).map Tuple.name :=
      hh.mem_names_iff.mpr ⟨t, hi ▸ ht, hname⟩
    rw [setChain, if_pos hmem, ← hh.tuples, List.map_map]
    refine List.map_congr_left fun b hb => ?_
    show Function.update h.tuple t { h.tuple t with value := value } b = if _ then _ else _
    by_cases hbt : b = t
    · rw [hbt, Function.update_self, if_pos hname]
    · rw [Function.update_of_ne hbt,
        if_neg fun heq => hbt (hh.eq_of_name hb (hi ▸ ht) (heq.trans hname.symm))]
  · rename_i hi
    rw [← hh.tuples]
    refine List.map_congr_left fun b hb => Function.update_of_ne ?_ _ _
    rintro rfl
    exact hi ((hh.bucket_eq hb).symm.trans (hh.bucket_eq ht))

/-- A new tuple in front of its chain. -/
lemma push (hh : Holds h addrs tb) (hmem : name ∉ (tb.chains (bucket signed name)).map Tuple.name)
    (value : Str) {h' : Handle}
    (hlinks : h'.links = Function.update
      (Function.update h.links (.next h.fresh) (h.links (head signed name)))
      (head signed name) (some h.fresh))
    (htuple : h'.tuple = Function.update h.tuple h.fresh ⟨name, value⟩)
    (hfresh : h'.fresh = h.fresh + 1) :
    Holds h' (Function.update addrs (bucket signed name)
      (h.fresh :: addrs (bucket signed name))) (tb.set name value) := by
  have hnew : ∀ i, h.fresh ∉ addrs i := fun i hi => lt_irrefl _ (hh.allocated i _ hi)
  refine ⟨fun i => ?_, fun i => ?_, fun i t ht => ?_⟩
  · rw [hlinks]
    by_cases hi : i = bucket signed name
    · subst hi
      rw [Function.update_self]
      exact (hh.chain _).push nofun (hnew _) fun b _ => nofun
    · rw [Function.update_of_ne hi]
      refine ((hh.chain i).store ?_ fun b hb => ?_).store ?_ fun b _ => ?_
      · exact nofun
      · rintro heq
        cases heq
        exact hnew i hb
      · intro heq
        rw [head, Place.root.injEq, Root.hash.injEq] at heq
        exact hi heq.symm
      · exact nofun
  · have hothers : ∀ i, (addrs i).map h'.tuple = tb.chains i := by
      intro i
      rw [← hh.tuples, htuple]
      refine List.map_congr_left fun b hb => Function.update_of_ne ?_ _ _
      rintro rfl
      exact hnew i hb
    show _ = if i = bucket signed name then _ else _
    by_cases hi : i = bucket signed name
    · subst hi
      rw [Function.update_self, if_pos rfl, setChain, if_neg hmem, List.map_cons, hothers, htuple,
        Function.update_self]
    · rw [Function.update_of_ne hi, if_neg hi]
      exact hothers i
  · rw [hfresh]
    by_cases hi : i = bucket signed name
    · subst hi
      rw [Function.update_self] at ht
      rcases List.mem_cons.mp ht with rfl | ht
      · exact Nat.lt_succ_self _
      · exact Nat.lt_succ_of_lt (hh.allocated _ t ht)
    · rw [Function.update_of_ne hi] at ht
      exact Nat.lt_succ_of_lt (hh.allocated i t ht)

/-- A tuple moved from its chain to the dead table. -/
lemma moveToDead (hh : Holds h addrs tb) {l1 l2 : List ℕ}
    (hsplit : addrs (bucket signed name) = l1 ++ t :: l2) (hname : (h.tuple t).name = name) :
    Holds (moveToDead h (lastPlace (head signed name) l1) t)
      (Function.update addrs (bucket signed name) (l1 ++ l2)) (tb.unset name) := by
  have ht : t ∈ addrs (bucket signed name) := by
    rw [hsplit]
    exact List.mem_append_right _ List.mem_cons_self
  have hnodup := hh.nodup (bucket signed name)
  rw [hsplit] at hnodup
  have hnotin : ∀ b ∈ l1 ++ l2, b ≠ t := by
    rintro b hb rfl
    rw [List.nodup_middle, List.nodup_cons] at hnodup
    exact hnodup.1 hb
  refine ⟨fun i => ?_, fun i => ?_, fun i u hu => ?_⟩
  · -- the field of the tuple and the dead table are behind no chain
    have hdead : ∀ {m : Memory Root ℕ} {l : List ℕ} {v w : Option ℕ},
        Chain m (.root (.hash i)) l → (∀ b ∈ l, b ≠ t) →
        Chain (Function.update (Function.update m (.next t) v) (.root .dead) w)
          (.root (.hash i)) l := by
      intro m l v w hchain hl
      refine (hchain.store ?_ fun b hb => ?_).store ?_ fun b _ => ?_
      · exact nofun
      · rintro heq
        cases heq
        exact hl t hb rfl
      · exact nofun
      · exact nofun
    by_cases hi : i = bucket signed name
    · subst hi
      rw [Function.update_self]
      have hchain := hh.chain (bucket signed name)
      rw [hsplit] at hchain
      exact hdead (hchain.unlink hnodup fun b _ => nofun) hnotin
    · rw [Function.update_of_ne hi]
      have hout : ∀ b ∈ addrs i, b ∉ addrs (bucket signed name) := fun b hb hb' =>
        hi ((hh.bucket_eq hb).symm.trans (hh.bucket_eq hb'))
      refine hdead ((hh.chain i).store ?_ fun b hb => ?_) fun b hb heq => hout b hb (heq ▸ ht)
      · rcases lastPlace_mem (head signed name) l1 with heq | ⟨c, -, heq⟩
        · rw [heq]
          intro hroot
          rw [head, Place.root.injEq, Root.hash.injEq] at hroot
          exact hi hroot.symm
        · rw [heq]
          exact nofun
      · rcases lastPlace_mem (head signed name) l1 with heq | ⟨c, hc, heq⟩
        · rw [heq]
          exact nofun
        · rw [heq]
          rintro hbc
          cases hbc
          refine hout b hb ?_
          rw [hsplit]
          exact List.mem_append_left _ hc
  · show _ = (tb.chains i).filter _
    rw [← hh.tuples, List.filter_map]
    by_cases hi : i = bucket signed name
    · subst hi
      have hkeep : ∀ b ∈ l1 ++ l2, (h.tuple b).name ≠ name := by
        intro b hb heq
        refine hnotin b hb (hh.eq_of_name ?_ ht (heq.trans hname.symm))
        rw [hsplit]
        rcases List.mem_append.mp hb with hb | hb
        · exact List.mem_append_left _ hb
        · exact List.mem_append_right _ (List.mem_cons_of_mem _ hb)
      have hdrop : ¬(((fun t : Tuple => decide (t.name ≠ name)) ∘ h.tuple) t = true) := by
        simp [hname]
      rw [Function.update_self, hsplit, List.filter_append, List.filter_cons_of_neg hdrop,
        ← List.filter_append, List.filter_eq_self.mpr fun b hb => by simpa using hkeep b hb]
      rfl
    · rw [Function.update_of_ne hi, List.filter_eq_self.mpr]
      · rfl
      · intro b hb
        have hne : (h.tuple b).name ≠ name := fun heq => hi ((hh.bucket_eq hb).symm.trans (by rw [heq]))
        simpa using hne
  · refine hh.allocated i u ?_
    by_cases hi : i = bucket signed name
    · subst hi
      rw [Function.update_self] at hu
      rw [hsplit]
      rcases List.mem_append.mp hu with hu | hu
      · exact List.mem_append_left _ hu
      · exact List.mem_append_right _ (List.mem_cons_of_mem _ hu)
    · rwa [Function.update_of_ne hi] at hu

end Holds

/-! ## What the calls do to the table -/

namespace Holds

lemma nvram_get_eq (hh : Holds h addrs tb) (name : Str) :
    nvram_get signed h name = some (Nvram.nvram_get tb name) := by
  rw [nvram_get]
  rcases hh.find_spec name with ⟨l1, t, l2, hsplit, hname, hfind⟩ | ⟨hmem, hfind⟩
  · have hvalue : Nvram.nvram_get tb name = some (h.tuple t).value := by
      rw [Nvram.nvram_get, lookup_eq_some_iff (tb.nodup _), ← hh.tuples, hsplit]
      refine List.mem_map.mpr ⟨t, List.mem_append_right _ List.mem_cons_self, ?_⟩
      rw [← hname]
    rw [hfind, hvalue]
    rfl
  · rw [hfind, Nvram.nvram_get, lookup_eq_none_iff.mpr hmem]
    rfl

lemma nvram_set_refused (hh : Holds h addrs tb) (name : Str)
    (hlong : h.length - h.offset < value.length + 1) :
    nvram_set signed h name value = some (-12, h) := by
  have hnone : ∀ t, nvram_realloc h t name value = none := fun t => if_pos hlong
  rw [nvram_set]
  rcases hh.find_spec name with ⟨l1, t, l2, -, -, hfind⟩ | ⟨-, hfind⟩
  · simp [hfind, hnone]
  · simp [hfind, hnone]

lemma nvram_set_accepted (hh : Holds h addrs tb) (name : Str)
    (hshort : value.length + 1 ≤ h.length - h.offset) :
    ∃ h' addrs', nvram_set signed h name value = some (0, h') ∧
      Holds h' addrs' (tb.set name value) ∧ h'.length = h.length ∧ h'.offset = h.offset := by
  have hfits : ¬value.length + 1 > h.length - h.offset := by omega
  rw [nvram_set]
  rcases hh.find_spec name with ⟨l1, t, l2, hsplit, hname, hfind⟩ | ⟨hmem, hfind⟩
  · have ht : t ∈ addrs (bucket signed name) := by
      rw [hsplit]
      exact List.mem_append_right _ List.mem_cons_self
    have hreplace := hh.replace ht hname value
    rw [hfind]
    by_cases hvalue : (h.tuple t).value = value
    · refine ⟨h, addrs, ?_, ?_, rfl, rfl⟩
      · simp [nvram_realloc, hfits, hvalue]
      · have hsame : Function.update h.tuple t { h.tuple t with value := value } = h.tuple := by
          rw [← hvalue]
          exact Function.update_eq_self t h.tuple
        rw [hsame] at hreplace
        exact hreplace
    · exact ⟨_, addrs, by simp [nvram_realloc, hfits, hvalue], hreplace, rfl, rfl⟩
  · rw [hfind]
    exact ⟨({ h with
        tuple := Function.update h.tuple h.fresh ⟨name, value⟩
        fresh := h.fresh + 1 }.store (.next h.fresh) (h.links (head signed name))).store
          (head signed name) (some h.fresh), _, by simp [nvram_realloc, hfits],
      hh.push hmem value rfl rfl rfl, rfl, rfl⟩

lemma nvram_unset_eq (hh : Holds h addrs tb) (name : Str) :
    ∃ h' addrs', nvram_unset signed h name = some h' ∧ Holds h' addrs' (tb.unset name) ∧
      h'.length = h.length ∧ h'.offset = h.offset := by
  rw [nvram_unset]
  rcases hh.find_spec name with ⟨l1, t, l2, hsplit, hname, hfind⟩ | ⟨hmem, hfind⟩
  · rw [hfind]
    exact ⟨_, _, rfl, hh.moveToDead hsplit hname, rfl, rfl⟩
  · rw [hfind]
    refine ⟨h, addrs, rfl, ⟨hh.chain, fun i => ?_, hh.allocated⟩, rfl, rfl⟩
    -- no chain has the name
    show _ = (tb.chains i).filter _
    rw [hh.tuples, List.filter_eq_self.mpr]
    intro t ht
    have hne : t.name ≠ name := by
      rintro rfl
      rw [tb.placed i t ht] at hmem
      exact hmem (List.mem_map_of_mem ht)
    simpa using hne

lemma nvram_getall_eq (hh : Holds h addrs tb) : nvram_getall h = some tb.toList.reverse := by
  have hpush : ∀ (ts : List ℕ) (l : List Tuple),
      ts.foldl (fun l t => h.tuple t :: l) l = (ts.map h.tuple).reverse ++ l := by
    intro ts
    induction ts with
    | nil => exact fun l => rfl
    | cons t ts ih =>
      intro l
      rw [List.foldl_cons, ih, List.map_cons, List.reverse_cons, List.append_assoc]
      rfl
  have hloop : ∀ (is : List ℕ) (l : List Tuple),
      (is.foldlM (fun l i => (nodes h.links (h.fresh + 1) (.root (.hash i))).map fun ts =>
        ts.foldl (fun l t => h.tuple t :: l) l) l : Option (List Tuple)) =
      some ((is.flatMap tb.chains).reverse ++ l) := by
    intro is
    induction is with
    | nil => exact fun l => rfl
    | cons i is ih =>
      intro l
      rw [List.foldlM_cons, (hh.chain i).nodes_eq (hh.length_lt i), Option.map_some]
      show is.foldlM _ _ = _
      rw [ih, hpush, hh.tuples, List.flatMap_cons, List.reverse_append, List.append_assoc]
  rw [nvram_getall, hloop, List.append_nil]
  rfl

end Holds

end Table

/-! ## Sequences of calls -/

/-- A call on a handle. -/
inductive Call
  | get (name : Str)
  | set (name value : Str)
  | unset (name : Str)
  deriving DecidableEq, Repr

/-- What a call returns. -/
inductive Ret
  | value (v : Option Str)
  | code (rc : ℤ)
  deriving DecidableEq, Repr

/-- One call. -/
def call (signed : Bool) (h : Handle) : Call → Option (Ret × Handle)
  | .get name => (nvram_get signed h name).map fun v => (.value v, h)
  | .set name value => (nvram_set signed h name value).map fun (rc, h) => (.code rc, h)
  | .unset name => (nvram_unset signed h name).map fun h => (.code 0, h)

/-- A sequence of calls. -/
def calls (signed : Bool) (h : Handle) : List Call → Option (List Ret × Handle)
  | [] => some ([], h)
  | c :: cs =>
    (call signed h c).bind fun (r, h) => (calls signed h cs).map fun (rs, h) => (r :: rs, h)

/-- The value that the last set of a name has left, if no unset came behind it; the last call
stands first.  A value that does not fit into `room` is not set. -/
def lastSet (room : ℕ) (before : Str → Option Str) (name : Str) : List Call → Option Str
  | [] => before name
  | .get _ :: cs => lastSet room before name cs
  | .set n value :: cs =>
    if n = name ∧ value.length + 1 ≤ room then some value else lastSet room before name cs
  | .unset n :: cs => if n = name then none else lastSet room before name cs

/-- What the calls return behind some others, which stand last first. -/
def answers (room : ℕ) (before : Str → Option Str) : List Call → List Call → List Ret
  | _, [] => []
  | past, .get name :: cs =>
    .value (lastSet room before name past) :: answers room before (.get name :: past) cs
  | past, .set name value :: cs =>
    .code (if value.length + 1 ≤ room then 0 else -12) ::
      answers room before (.set name value :: past) cs
  | past, .unset name :: cs => .code 0 :: answers room before (.unset name :: past) cs

/-- A handle whose chains are those of a table, as every handle's are. -/
def Sound (signed : Bool) (h : Handle) : Prop :=
  ∃ (addrs : ℕ → List ℕ) (tb : Table signed), Holds h addrs tb

lemma sound_empty (signed : Bool) (length offset : ℕ) :
    Sound signed (Handle.empty length offset) :=
  ⟨fun _ => [], Table.empty signed, fun _ => rfl, fun _ => rfl, nofun⟩

variable {h : Handle} {addrs : ℕ → List ℕ} {tb : Table signed}

/-- One call behind others: what it returns, and the table behind it. -/
lemma call_spec (hh : Holds h addrs tb) {before : Str → Option Str} {past : List Call}
    (hmap : ∀ n, Nvram.nvram_get tb n = lastSet (h.length - h.offset) before n past) (c : Call) :
    ∃ r h' addrs', ∃ tb' : Table signed, call signed h c = some (r, h') ∧ Holds h' addrs' tb' ∧
      h'.length = h.length ∧ h'.offset = h.offset ∧
      (∀ n, Nvram.nvram_get tb' n = lastSet (h.length - h.offset) before n (c :: past)) ∧
      ∀ cs, answers (h.length - h.offset) before past (c :: cs) =
        r :: answers (h.length - h.offset) before (c :: past) cs := by
  cases c with
  | get name =>
    refine ⟨_, h, addrs, tb, by rw [call, hh.nvram_get_eq]; rfl, hh, rfl, rfl, hmap, fun cs => ?_⟩
    rw [answers, hmap]
  | set name value =>
    by_cases hfits : value.length + 1 ≤ h.length - h.offset
    · obtain ⟨h', addrs', hset, hh', hlen, hoff⟩ := hh.nvram_set_accepted name hfits
      refine ⟨_, h', addrs', tb.set name value, by rw [call, hset]; rfl, hh', hlen, hoff,
        fun n => ?_, fun cs => by rw [answers, if_pos hfits]⟩
      rw [nvram_get_set, lastSet, hmap]
      by_cases hn : n = name
      · rw [if_pos hn, if_pos ⟨hn.symm, hfits⟩]
      · rw [if_neg hn, if_neg fun h => hn h.1.symm]
    · refine ⟨_, h, addrs, tb, by rw [call, hh.nvram_set_refused name (by omega)]; rfl, hh, rfl,
        rfl, fun n => ?_, fun cs => by rw [answers, if_neg hfits]⟩
      rw [lastSet, if_neg fun h => hfits h.2, hmap]
  | unset name =>
    obtain ⟨h', addrs', hunset, hh', hlen, hoff⟩ := hh.nvram_unset_eq name
    refine ⟨_, h', addrs', tb.unset name, by rw [call, hunset]; rfl, hh', hlen, hoff,
      fun n => ?_, fun cs => rfl⟩
    rw [nvram_get_unset, lastSet, hmap]
    simp only [eq_comm]

lemma calls_spec (hh : Holds h addrs tb) {before : Str → Option Str} {past : List Call}
    (hmap : ∀ n, Nvram.nvram_get tb n = lastSet (h.length - h.offset) before n past)
    (cs : List Call) :
    ∃ h' addrs', ∃ tb' : Table signed,
      calls signed h cs = some (answers (h.length - h.offset) before past cs, h') ∧
      Holds h' addrs' tb' ∧ h'.length = h.length ∧ h'.offset = h.offset ∧
      ∀ n, Nvram.nvram_get tb' n =
        lastSet (h.length - h.offset) before n (cs.reverse ++ past) := by
  induction cs generalizing h addrs tb past with
  | nil => exact ⟨h, addrs, tb, rfl, hh, rfl, rfl, hmap⟩
  | cons c cs ih =>
    obtain ⟨r, h1, addrs1, tb1, hcall, hh1, hlen1, hoff1, hmap1, hans⟩ := call_spec hh hmap c
    have hroom : h1.length - h1.offset = h.length - h.offset := by rw [hlen1, hoff1]
    rw [← hroom] at hmap1
    obtain ⟨h', addrs', tb', hcalls, hh', hlen, hoff, hmap'⟩ := ih hh1 hmap1
    rw [hlen1, hoff1] at hcalls hmap'
    refine ⟨h', addrs', tb', ?_, hh', hlen.trans hlen1, hoff.trans hoff1, fun n => ?_⟩
    · rw [calls, hcall, hans]
      show (calls signed h1 cs).map _ = _
      rw [hcalls]
      rfl
    · rw [hmap', List.reverse_cons, List.append_assoc]
      rfl

/-- Over any calls on a handle each search ends, `nvram_get` returns the value of the last set of
the name that no unset followed, `nvram_getall` lists every name that has a value once, with that
value, and a value that is refused changes nothing. -/
theorem nvram_calls (signed : Bool) {h : Handle} (hh : Sound signed h) (cs : List Call) :
    let before := fun n => (nvram_get signed h n).join
    ∃ h', calls signed h cs = some (answers (h.length - h.offset) before [] cs, h') ∧
      (∀ n, nvram_get signed h' n =
        some (lastSet (h.length - h.offset) before n cs.reverse)) ∧
      (∃ ts, nvram_getall h' = some ts ∧ (ts.map Tuple.name).Nodup ∧ ∀ t, t ∈ ts ↔
        lastSet (h.length - h.offset) before t.name cs.reverse = some t.value) ∧
      ∀ name value, h.length - h.offset < value.length + 1 →
        nvram_set signed h' name value = some (-12, h') := by
  intro before
  obtain ⟨addrs, tb, hh⟩ := hh
  have hmap : ∀ n, Nvram.nvram_get tb n = lastSet (h.length - h.offset) before n [] := by
    intro n
    show _ = (nvram_get signed h n).join
    rw [hh.nvram_get_eq]
    rfl
  obtain ⟨h', addrs', tb', hcalls, hh', hlen, hoff, hmap'⟩ := calls_spec hh hmap cs
  rw [List.append_nil] at hmap'
  refine ⟨h', hcalls, fun n => by rw [hh'.nvram_get_eq, hmap'],
    ⟨tb'.toList.reverse, hh'.nvram_getall_eq, ?_, fun t => ?_⟩, fun name value hlong => ?_⟩
  · rw [List.map_reverse, List.nodup_reverse]
    exact nodup_toList tb'
  · rw [List.mem_reverse, mem_toList_iff_get, hmap']
  · exact hh'.nvram_set_refused name (by rwa [hlen, hoff])

/-- Two names of one chain on an empty handle, one of them unset in between. -/
theorem nvram_calls_collision :
    bucket true [1] = bucket true [2] ∧
      ∃ h', calls true (Handle.empty 0x8000 0)
          [.set [1] [97], .set [2] [98], .set [1] [99], .get [1], .unset [1], .get [1], .get [2]] =
        some ([.code 0, .code 0, .code 0, .value (some [99]), .code 0, .value none,
          .value (some [98])], h') := by
  obtain ⟨h', hcalls, -⟩ := nvram_calls true (sound_empty true 0x8000 0)
    [.set [1] [97], .set [2] [98], .set [1] [99], .get [1], .unset [1], .get [1], .get [2]]
  refine ⟨by decide, h', ?_⟩
  rw [hcalls]
  rfl

end Nvram.Chains
