import Mt798x.Lib.Batch
import Mt798x.Ap.Bssid
import Mt798x.Ap.Placed

/-!
# What runs after a reload

A reload starts from BSSes that run as the old configuration has them.  Each of its steps is an
update of a table of what runs as which BSS, and the last one is read off from the table.  The
outcome is that of a restart, but for one thing: a BSS that is carried over does not read its key
file again when this file and the one with the RxKHs are all that has changed.
-/

namespace Ap

open Batch

/-! ## Names and configurations -/

/-- The name of a BSS, if it is one. -/
def nameOf (b : Option Bss) : String := (b.map Bss.ifname).getD ""

/-- What a BSS is to run with, if it is one. -/
def confOf (b : Option Bss) : Conf := (b.map Bss.conf).getD ⟨none, none, [], [], {}⟩

/-- The BSSes of a configuration run, in its order. -/
structure Matches (bss : List Bss) (running : List Running) : Prop where
  runs : running.map (fun r => (r.ifname, r.conf)) = bss.map fun b => (b.ifname, b.conf)
  names : (bss.map Bss.ifname).Nodup
  named : ∀ b ∈ bss, b.ifname ≠ ""
  ids : (running.map Running.id).Nodup

/-- Temporary names are told apart, and are no names of BSSes. -/
structure Temporary (env : Env) (bss old : List Bss) : Prop where
  distinct : ∀ b ∈ bss, ∀ c ∈ bss, tmpName env b.ifname = tmpName env c.ifname →
    b.ifname = c.ifname
  fresh : ∀ b ∈ bss, ∀ c ∈ bss ++ old, tmpName env b.ifname ≠ c.ifname

variable {env : Env} {config : Config} {bss bss' old : List Bss} {running : List Running}
  {w w' u : Work} {i j m id cfg : ℕ}

@[simp] lemma nameOf_some (b : Bss) : nameOf (some b) = b.ifname := rfl

@[simp] lemma confOf_some (b : Bss) : confOf (some b) = b.conf := rfl

lemma SameBut.nameOf (h : SameBut bss bss') (i : ℕ) : nameOf bss[i]? = nameOf bss'[i]? := by
  cases hb : bss'[i]? with
  | some b => rw [h.get hb, nameOf_some, nameOf_some]
  | none =>
    have hlength := h.length
    have hi : bss[i]? = none := by
      rw [List.getElem?_eq_none_iff] at hb ⊢
      omega
    rw [hi]

lemma map_eq_range (bss : List Bss) :
    bss.map (fun b => (b.ifname, b.conf)) =
      (List.range bss.length).map fun i => (nameOf bss[i]?, confOf bss[i]?) := by
  refine List.ext_getElem (by simp) fun i hi hi' => ?_
  have hib : i < bss.length := by simpa using hi
  simp [List.getElem?_eq_getElem hib]

lemma nameOf_inj (h : (bss.map Bss.ifname).Nodup) (hi : i < bss.length) (hj : j < bss.length)
    (heq : nameOf bss[i]? = nameOf bss[j]?) : i = j := by
  rw [List.getElem?_eq_getElem hi, List.getElem?_eq_getElem hj, nameOf_some, nameOf_some] at heq
  refine (List.getElem?_inj (by simpa using hi) h).mp ?_
  rw [List.getElem?_map, List.getElem?_map, List.getElem?_eq_getElem hi,
    List.getElem?_eq_getElem hj, Option.map_some, Option.map_some, heq]

namespace Matches

lemma length (h : Matches bss running) : running.length = bss.length := by
  simpa using congrArg List.length h.runs

lemma get (h : Matches bss running) {b : Bss} (hb : bss[i]? = some b) :
    ∃ r, running[i]? = some r ∧ r ∈ running ∧ r.ifname = b.ifname ∧ r.conf = b.conf := by
  have hi := congrArg (fun l => l[i]?) h.runs
  simp only [List.getElem?_map, hb, Option.map_some] at hi
  obtain ⟨r, hr, heq⟩ := Option.map_eq_some_iff.mp hi
  simp only [Prod.mk.injEq] at heq
  exact ⟨r, hr, List.mem_of_getElem? hr, heq⟩

lemma running_names (h : Matches bss running) : (running.map Running.ifname).Nodup := by
  have heq : running.map Running.ifname = bss.map Bss.ifname := by
    simpa [Function.comp_def] using congrArg (List.map Prod.fst) h.runs
  rw [heq]
  exact h.names

lemma inj (h : Matches bss running) {r r' : Running} (hr : running[i]? = some r)
    (hr' : running[j]? = some r') (heq : r.id = r'.id) : i = j := by
  have hi : i < running.length := (List.getElem?_eq_some_iff.mp hr).1
  refine (List.getElem?_inj (by simpa using hi) h.ids).mp ?_
  rw [List.getElem?_map, List.getElem?_map, hr, hr', Option.map_some, Option.map_some, heq]

end Matches

lemma get_config_bss_eq {b : Bss} {r : Running} (hnodup : (running.map Running.ifname).Nodup)
    (hb : old[j]? = some b) (hne : b.ifname ≠ "") (hr : r ∈ running) (hname : r.ifname = b.ifname) :
    get_config_bss old running j = some r.id := by
  have hsome : (running.find? fun r => r.ifname = b.ifname).isSome :=
    List.find?_isSome.mpr ⟨r, hr, by simpa using hname⟩
  obtain ⟨found, hfound⟩ := Option.isSome_iff_exists.mp hsome
  have heq : found.ifname = b.ifname := by simpa using List.find?_some hfound
  have hsame : found = r :=
    List.inj_on_of_nodup_map hnodup (List.mem_of_find?_eq_some hfound) hr (heq.trans hname.symm)
  rw [get_config_bss, hb, Option.bind_some, if_neg hne, hfound, hsame]
  rfl

/-! ## Which BSSes are carried over -/

/-- The variables of a reload when step 1 has come to BSS m: the BSSes in front of it that are
carried over are different old ones, which are spoken for, and nothing runs otherwise yet. -/
structure Carried (bss old : List Bss) (running : List Running) (m : ℕ) (w : Work) : Prop where
  same : SameBut w.bss bss
  before : w.old = old ∧ w.running = running ∧ w.next = freshId running ∧ w.rename_list = []
  listed : ∀ i, w.bss_list i = (w.bss_list_cfg i).bind fun j => (running[j]?).map Running.id
  cfg : ∀ i j, w.bss_list_cfg i = some j → i < m ∧ i < bss.length ∧ j < old.length
  inj : ∀ i i' j, w.bss_list_cfg i = some j → w.bss_list_cfg i' = some j → i = i'
  length : w.prev_bss_hash.length = old.length
  hashes : ∀ j, w.prev_bss_hash[j]? = some none ↔ ∃ i, w.bss_list_cfg i = some j

namespace Carried

lemma init (env : Env) (mld : List String) (bss old : List Bss) (running : List Running) :
    Carried bss old running 0 (Work.init env mld bss old running) where
  same := rfl
  before := ⟨rfl, rfl, rfl, rfl⟩
  listed := fun i => rfl
  cfg := fun i j h => by cases h
  inj := fun i i' j h => by cases h
  length := by simp [Work.init]
  hashes := fun j => by
    constructor
    · intro h
      rw [Work.init, List.getElem?_map] at h
      obtain ⟨b, -, hb⟩ := Option.map_eq_some_iff.mp h
      cases hb
    · rintro ⟨i, h⟩
      cases h

lemma skip (h : Carried bss old running m w) : Carried bss old running (m + 1) w :=
  { h with cfg := fun i j hij => ⟨Nat.lt_succ_of_lt (h.cfg i j hij).1, (h.cfg i j hij).2⟩ }

/-- BSS i is carried over from an old one that is not spoken for. -/
lemma carry (h : Carried bss old running m w) (hi : i < bss.length) (hj : j < old.length) {n : ℕ}
    (hmn : m ≤ n) (hin : i < n) (hempty : w.bss_list_cfg i = none)
    (hfree : ∀ k, w.bss_list_cfg k ≠ some j) (hsame : SameBut w'.bss bss)
    (hbefore : w'.old = w.old ∧ w'.running = w.running ∧ w'.next = w.next ∧
      w'.rename_list = w.rename_list)
    (hlist : w'.bss_list = Function.update w.bss_list i ((running[j]?).map Running.id))
    (hcfg : w'.bss_list_cfg = Function.update w.bss_list_cfg i (some j))
    (hhash : w'.prev_bss_hash = w.prev_bss_hash.set j none) : Carried bss old running n w' := by
  have hself : w'.bss_list_cfg i = some j := by rw [hcfg, Function.update_self]
  have hne : ∀ k, k ≠ i → w'.bss_list_cfg k = w.bss_list_cfg k := fun k hk => by
    rw [hcfg, Function.update_of_ne hk]
  obtain ⟨hold, hrunning, hnext, hnames⟩ := h.before
  obtain ⟨hold', hrunning', hnext', hnames'⟩ := hbefore
  refine ⟨hsame, ⟨hold'.trans hold, hrunning'.trans hrunning, hnext'.trans hnext,
    hnames'.trans hnames⟩, fun k => ?_, fun k l hkl => ?_, fun k k' l hkl hkl' => ?_, ?_,
    fun l => ?_⟩
  · by_cases hk : k = i
    · subst hk
      rw [hself, hlist, Function.update_self]
      rfl
    · rw [hne k hk, hlist, Function.update_of_ne hk]
      exact h.listed k
  · by_cases hk : k = i
    · subst hk
      rw [hself] at hkl
      cases hkl
      exact ⟨hin, hi, hj⟩
    · rw [hne k hk] at hkl
      exact ⟨(h.cfg k l hkl).1.trans_le hmn, (h.cfg k l hkl).2⟩
  · by_cases hk : k = i <;> by_cases hk' : k' = i
    · rw [hk, hk']
    · subst hk
      rw [hself] at hkl
      cases hkl
      rw [hne k' hk'] at hkl'
      exact absurd hkl' (hfree k')
    · subst hk'
      rw [hself] at hkl'
      cases hkl'
      rw [hne k hk] at hkl
      exact absurd hkl (hfree k)
    · rw [hne k hk] at hkl
      rw [hne k' hk'] at hkl'
      exact h.inj k k' l hkl hkl'
  · rw [hhash, List.length_set, h.length]
  · rw [hhash]
    by_cases hl : l = j
    · subst hl
      rw [List.getElem?_set_self (h.length ▸ hj)]
      exact ⟨fun _ => ⟨i, hself⟩, fun _ => rfl⟩
    · rw [List.getElem?_set_ne (Ne.symm hl), h.hashes l]
      constructor
      · rintro ⟨k, hk⟩
        refine ⟨k, ?_⟩
        rw [hne k fun heq => ?_]
        · exact hk
        · rw [heq, hempty] at hk
          cases hk
      · rintro ⟨k, hk⟩
        by_cases hki : k = i
        · rw [hki, hself] at hk
          cases hk
          exact absurd rfl hl
        · exact ⟨k, by rw [← hne k hki]; exact hk⟩

lemma found (h : Carried bss old running m w) (hmatch : Matches old running)
    (hj : j < old.length) :
    get_config_bss w.old w.running j = (running[j]?).map Running.id := by
  obtain ⟨hold, hrunning, -⟩ := h.before
  have hb : old[j]? = some old[j] := List.getElem?_eq_getElem hj
  obtain ⟨r, hr, hmem, hname, -⟩ := hmatch.get hb
  rw [hold, hrunning, hr, get_config_bss_eq hmatch.running_names hb
    (hmatch.named _ (List.getElem_mem hj)) hmem hname]
  rfl

/-- The loop of step 1, for a BSS. -/
lemma step (h : Carried bss old running m w) (hmatch : Matches old running)
    (hforce : ∀ b ∈ old, b.force_reload = false) (hm : m < bss.length)
    (hreuse : reuse env w m = some w') : Carried bss old running (m + 1) w' := by
  obtain ⟨cur, hcur, hreuse⟩ := Option.bind_eq_some_iff.mp hreuse
  split at hreuse
  · cases hreuse
    exact h.skip
  · rename_i prev hfound
    obtain ⟨prev_config, hprev, hreuse⟩ := Option.bind_eq_some_iff.mp hreuse
    simp only at hprev
    have hprev' : old[prev]? = some prev_config := by rw [← h.before.1, hprev]
    have hlt : prev < old.length := (List.getElem?_eq_some_iff.mp hprev').1
    have hempty : w.bss_list_cfg m = none := by
      cases hm : w.bss_list_cfg m with
      | none => rfl
      | some j => exact absurd (h.cfg m j hm).1 (lt_irrefl m)
    have hfree : ∀ k, w.bss_list_cfg k ≠ some prev := fun k hk => by
      split at hfound
      · rename_i hfirst
        have hkm := (h.cfg k prev hk).1
        omega
      · have hnone := (h.hashes prev).mpr ⟨k, hk⟩
        rw [Found.bss_find_existing_spec hfound] at hnone
        cases hnone
    rw [if_neg (by simp [hforce _ (List.mem_of_getElem? hprev')])] at hreuse
    obtain ⟨id, hid, heq⟩ := Option.map_eq_some_iff.mp hreuse
    have hid' : (running[prev]?).map Running.id = some id := by
      rw [← h.found hmatch hlt, ← hid]
    subst heq
    refine h.carry hm hlt (Nat.le_succ m) (Nat.lt_succ_self m) hempty hfree ?_ ?_ ?_ ?_ ?_
    · split
      · exact (sameBut_setBssid ..).trans h.same
      · exact h.same
    · split <;> exact ⟨rfl, rfl, rfl, rfl⟩
    · rw [hid']
      split <;> rfl
    · split <;> rfl
    · split <;> rfl

lemma keepFirst (h : Carried bss old running m w) (hmatch : Matches old running)
    (hm : m = bss.length) (hnone : ∀ i < bss.length, w.bss_list i = none)
    (hkeep : keepFirst w = some w') : Carried bss old running m w' := by
  have hempty : ∀ i, w.bss_list_cfg i = none := fun i => by
    cases hi : w.bss_list_cfg i with
    | none => rfl
    | some j =>
      obtain ⟨-, hib, hj⟩ := h.cfg i j hi
      obtain ⟨r, hr, -⟩ := hmatch.get (List.getElem?_eq_getElem hj)
      have hlisted := h.listed i
      rw [hnone i hib, hi, Option.bind_some, hr] at hlisted
      cases hlisted
  obtain ⟨first, hfirst, hkeep⟩ := Option.bind_eq_some_iff.mp hkeep
  obtain ⟨prev_config, hprev, hkeep⟩ := Option.bind_eq_some_iff.mp hkeep
  split at hkeep
  · cases hkeep
  · have hi : 0 < bss.length := by
      rw [← h.same.length]
      exact (List.getElem?_eq_some_iff.mp hfirst).1
    have hj : 0 < old.length := by
      rw [← h.before.1]
      exact (List.getElem?_eq_some_iff.mp hprev).1
    obtain ⟨id, hid, rfl⟩ := Option.map_eq_some_iff.mp hkeep
    rw [h.found hmatch hj] at hid
    refine h.carry hi hj le_rfl (hm ▸ hi) (hempty 0) (fun k hk => ?_)
      ((sameBut_setBssid ..).trans h.same) ⟨rfl, rfl, rfl, rfl⟩ (by rw [hid]; rfl) rfl rfl
    rw [hempty k] at hk
    cases hk

end Carried

lemma findReused_carried {mld : List String} (hmatch : Matches old running)
    (hforce : ∀ b ∈ old, b.force_reload = false)
    (h : findReused env config (Work.init env mld config.bss old running) = some u) :
    Carried config.bss old running config.bss.length u := by
  obtain ⟨w, hw, h⟩ := Option.bind_eq_some_iff.mp h
  have hcarried : Carried config.bss old running config.bss.length w :=
    foldlM_range_inv hw (Carried.init ..) fun i s t hi hs hst => hs.step hmatch hforce hi hst
  split at h
  · cases h
  · split at h
    · rename_i hnone
      exact hcarried.keepFirst hmatch rfl hnone h
    · cases h
      exact hcarried

/-! ## The BSSes that are not carried over are deleted -/

/-- The old BSS that a BSS is carried over from, with the name that it has by now. -/
def Work.prev (w : Work) (i : ℕ) : Option Bss := (w.bss_list_cfg i).bind fun j => w.old[j]?

/-- The BSSes that are carried over run as their old ones, and nothing else does. -/
structure Aligned (bss : List Bss) (w : Work) : Prop where
  same : SameBut w.bss bss
  listed : ∀ i, (w.bss_list i).isSome → i < bss.length ∧ (w.prev i).isSome
  unlisted : ∀ i, w.bss_list i = none → w.bss_list_cfg i = none
  inj : ∀ i i' j, w.bss_list_cfg i = some j → w.bss_list_cfg i' = some j → i = i'
  placed : Placed w.running w.bss_list (fun i => nameOf (w.prev i)) fun i => confOf (w.prev i)

/-- Step 3 has come to old BSS m: the ones in front of it run if they are spoken for. -/
structure Swept (running : List Running) (u : Work) (m : ℕ) (w : Work) : Prop where
  frame : w = { u with running := w.running }
  sublist : w.running.Sublist running
  mem : ∀ j r, running[j]? = some r →
    (r ∈ w.running ↔ m ≤ j ∨ u.prev_bss_hash[j]? = some none)

namespace Carried

lemma deleteUnused (h : Carried bss old running bss.length u) (hmatch : Matches old running)
    (hm : m < u.prev_bss_hash.length) (hw : Swept running u m w) :
    ∃ w', deleteUnused w m = some w' ∧ Swept running u (m + 1) w' := by
  have hlt : m < old.length := h.length ▸ hm
  obtain ⟨r, hr, hmem, hname, -⟩ := hmatch.get (List.getElem?_eq_getElem hlt)
  have hhash : w.prev_bss_hash = u.prev_bss_hash := by rw [hw.frame]
  have hold : w.old = old := by rw [hw.frame, h.before.1]
  rw [Ap.deleteUnused, hhash]
  cases hm' : u.prev_bss_hash[m]? with
  | none =>
    rw [List.getElem?_eq_none_iff] at hm'
    omega
  | some hash =>
    cases hash with
    | none =>
      refine ⟨w, rfl, hw.frame, hw.sublist, fun j r' hr' => ?_⟩
      rw [hw.mem j r' hr']
      by_cases hj : j = m
      · subst hj
        exact ⟨fun _ => Or.inr hm', fun _ => Or.inr hm'⟩
      · have hle : m ≤ j ↔ m + 1 ≤ j := by omega
        rw [hle]
    | some hash =>
      have hfound : get_config_bss w.old w.running m = some r.id := by
        rw [hold]
        exact get_config_bss_eq (hmatch.running_names.sublist (hw.sublist.map _))
          (List.getElem?_eq_getElem hlt) (hmatch.named _ (List.getElem_mem hlt))
          ((hw.mem m r hr).mpr (Or.inl le_rfl)) hname
      refine ⟨{ w with running := delete w.running r.id }, ?_, ?_, ?_, fun j r' hr' => ?_⟩
      · rw [if_neg (by simp), hfound, Option.map_some, hhash]
      · exact congrArg (fun v : Work => { v with running := delete w.running r.id }) hw.frame
      · exact List.filter_sublist.trans hw.sublist
      · rw [delete, List.mem_filter, hw.mem j r' hr']
        by_cases hj : j = m
        · subst hj
          rw [hr] at hr'
          cases hr'
          simp [hm']
        · have hne : r'.id ≠ r.id := fun heq => hj (hmatch.inj hr' hr heq)
          have hle : m ≤ j ↔ m + 1 ≤ j := by omega
          simp [hne, hle]

/-- Step 3 succeeds, and only what is carried over runs on. -/
lemma aligned (h : Carried bss old running bss.length u) (hmatch : Matches old running) :
    ∃ w, (List.range u.prev_bss_hash.length).foldlM Ap.deleteUnused u = some w ∧
      w = { u with running := w.running } ∧ Aligned bss w := by
  have hstart : Swept running u 0 u :=
    ⟨rfl, by rw [h.before.2.1], fun j r hr => by
      rw [h.before.2.1]
      exact ⟨fun _ => Or.inl (Nat.zero_le j), fun _ => List.mem_of_getElem? hr⟩⟩
  obtain ⟨w, hw, hswept⟩ := foldlM_range_some hstart fun i s hi hs => h.deleteUnused hmatch hi hs
  have hcfg : w.bss_list_cfg = u.bss_list_cfg := by rw [hswept.frame]
  have hlist : w.bss_list = u.bss_list := by rw [hswept.frame]
  have hold : w.old = old := by rw [hswept.frame, h.before.1]
  have hmem : ∀ j r, running[j]? = some r → (r ∈ w.running ↔ ∃ i, u.bss_list_cfg i = some j) := by
    intro j r hr
    rw [hswept.mem j r hr, h.hashes j, or_iff_right]
    have hj : j < running.length := (List.getElem?_eq_some_iff.mp hr).1
    rw [h.length, ← hmatch.length]
    omega
  have hcases : ∀ i id, u.bss_list i = some id → i < bss.length ∧ ∃ j b r,
      u.bss_list_cfg i = some j ∧ old[j]? = some b ∧ running[j]? = some r ∧ r.id = id ∧
        r.ifname = b.ifname ∧ r.conf = b.conf := by
    intro i id hi
    rw [h.listed i] at hi
    obtain ⟨j, hj, hid⟩ := Option.bind_eq_some_iff.mp hi
    obtain ⟨r, hr, heq⟩ := Option.map_eq_some_iff.mp hid
    obtain ⟨-, hib, hjlt⟩ := h.cfg i j hj
    have hb : old[j]? = some old[j] := List.getElem?_eq_getElem hjlt
    obtain ⟨r', hr', -, hname, hconf⟩ := hmatch.get hb
    rw [hr] at hr'
    cases hr'
    exact ⟨hib, j, _, r, hj, hb, hr, heq, hname, hconf⟩
  refine ⟨w, hw, hswept.frame, ?_, fun i hi => ?_, fun i hi => ?_, ?_, ?_, fun r hr => ?_,
    fun i id hi => ?_, fun i i' id hi hi' => ?_⟩
  · rw [hswept.frame]
    exact h.same
  · rw [hlist] at hi
    obtain ⟨id, hid⟩ := Option.isSome_iff_exists.mp hi
    obtain ⟨hib, j, b, -, hj, hb, -⟩ := hcases i id hid
    refine ⟨hib, ?_⟩
    rw [Work.prev, hcfg, hj, hold, Option.bind_some, hb]
    rfl
  · rw [hlist, h.listed i] at hi
    rw [hcfg]
    cases hj : u.bss_list_cfg i with
    | none => rfl
    | some j =>
      obtain ⟨-, -, hjlt⟩ := h.cfg i j hj
      obtain ⟨r, hr, -⟩ := hmatch.get (List.getElem?_eq_getElem hjlt)
      rw [hj, Option.bind_some, hr] at hi
      cases hi
  · rw [hcfg]
    exact h.inj
  · exact hmatch.ids.sublist (hswept.sublist.map _)
  · obtain ⟨j, hj⟩ := List.getElem?_of_mem (hswept.sublist.subset hr)
    obtain ⟨i, hi⟩ := (hmem j r hj).mp hr
    refine ⟨i, ?_⟩
    rw [hlist, h.listed i, hi, Option.bind_some, hj]
    rfl
  · rw [hlist] at hi
    obtain ⟨-, j, b, r, hj, hb, hr, hid, hname, hconf⟩ := hcases i id hi
    refine ⟨r, (hmem j r hr).mpr ⟨i, hj⟩, hid, ?_, ?_⟩
    · rw [Work.prev, hcfg, hj, hold, Option.bind_some, hb, hname, nameOf_some]
    · rw [Work.prev, hcfg, hj, hold, Option.bind_some, hb, hconf, confOf_some]
  · rw [hlist] at hi hi'
    obtain ⟨-, j, -, r, hj, -, hr, hid, -⟩ := hcases i id hi
    obtain ⟨-, j', -, r', hj', -, hr', hid', -⟩ := hcases i' id hi'
    obtain rfl := hmatch.inj hr hr' (hid.trans hid'.symm)
    exact h.inj i i' j hj hj'

end Carried

/-! ## Renaming -/

/-- Renaming leaves all but names as it is. -/
structure Renamed (u w : Work) : Prop where
  bss : w.bss = u.bss
  bss_list : w.bss_list = u.bss_list
  cfg : w.bss_list_cfg = u.bss_list_cfg
  next : w.next = u.next
  old : w.old.map (fun b => { b with ifname := "" }) = u.old.map fun b => { b with ifname := "" }

lemma Renamed.trans {v : Work} (h : Renamed u v) (h' : Renamed v w) : Renamed u w :=
  ⟨h'.bss.trans h.bss, h'.bss_list.trans h.bss_list, h'.cfg.trans h.cfg, h'.next.trans h.next,
    h'.old.trans h.old⟩

namespace Aligned

lemma get (h : Aligned bss w) (hid : w.bss_list i = some id) :
    ∃ j b, w.bss_list_cfg i = some j ∧ w.old[j]? = some b ∧ w.prev i = some b := by
  obtain ⟨b, hb⟩ := Option.isSome_iff_exists.mp (h.listed i (by rw [hid]; rfl)).2
  obtain ⟨j, hj, hget⟩ := Option.bind_eq_some_iff.mp hb
  exact ⟨j, b, hj, hget, hb⟩

lemma lt (h : Aligned bss w) (hid : w.bss_list i = some id) : i < bss.length :=
  (h.listed i (by rw [hid]; rfl)).1

/-- A BSS that is carried over is renamed to a name that is not in use. -/
lemma renameTo (h : Aligned bss w) (hid : w.bss_list i = some id)
    (hcfg : w.bss_list_cfg i = some cfg) {new : String}
    (hfree : ∀ k, (w.bss_list k).isSome → nameOf (w.prev k) ≠ new) :
    ∃ w', w.renameTo id cfg new = some w' ∧ Aligned bss w' ∧ Renamed w w' ∧
      w'.rename_list = w.rename_list ∧ nameOf (w'.prev i) = new ∧
      ∀ k, k ≠ i → nameOf (w'.prev k) = nameOf (w.prev k) := by
  obtain ⟨running', hrename, hplaced⟩ := h.placed.rename hid hfree
  obtain ⟨j, b, hj, hget, -⟩ := h.get hid
  rw [hcfg] at hj
  cases hj
  refine ⟨{ w with
    running := running'
    old := w.old.modify cfg fun b => { b with ifname := new } }, ?_, ?_⟩
  · rw [Work.renameTo, hrename]
    rfl
  have hself : Work.prev { w with
      running := running'
      old := w.old.modify cfg fun b => { b with ifname := new } } i =
      some { b with ifname := new } := by
    rw [Work.prev]
    simp only [hcfg, Option.bind_some, List.getElem?_modify, hget]
    simp
  have hother : ∀ k, k ≠ i → Work.prev { w with
      running := running'
      old := w.old.modify cfg fun b => { b with ifname := new } } k = w.prev k := by
    intro k hk
    rw [Work.prev, Work.prev]
    cases hkj : w.bss_list_cfg k with
    | none => rfl
    | some j =>
      have hne : cfg ≠ j := fun heq => hk (h.inj k i j hkj (heq ▸ hcfg))
      simp only [Option.bind_some, List.getElem?_modify, if_neg hne]
      simp
  have hprev : w.prev i = some b := by rw [Work.prev, hcfg, Option.bind_some, hget]
  refine ⟨⟨h.same, fun k hk => ?_, h.unlisted, h.inj, hplaced.congr (fun k _ => ?_) fun k _ => ?_⟩,
    ⟨rfl, rfl, rfl, rfl, ?_⟩, rfl, by rw [hself]; rfl, fun k hk => by rw [hother k hk]⟩
  · refine ⟨(h.listed k hk).1, ?_⟩
    by_cases hki : k = i
    · rw [hki, hself]
      rfl
    · rw [hother k hki]
      exact (h.listed k hk).2
  · by_cases hki : k = i
    · rw [hki, hself, Function.update_self]
      rfl
    · rw [hother k hki, Function.update_of_ne hki]
  · by_cases hki : k = i
    · rw [hki, hself, hprev]
      rfl
    · rw [hother k hki]
  · refine List.ext_getElem? fun k => ?_
    rw [List.getElem?_map, List.getElem?_map, List.getElem?_modify]
    cases w.old[k]? with
    | none => rfl
    | some b => by_cases hk : cfg = k <;> simp [hk]

end Aligned

/-- Step 4 has come to BSS m: the ones in front of it have their names, or temporary ones. -/
structure Renaming (env : Env) (bss : List Bss) (u : Work) (m : ℕ) (w : Work) : Prop where
  aligned : Aligned bss w
  frame : Renamed u w
  nodup : w.rename_list.Nodup
  listed : ∀ k ∈ w.rename_list, k < m ∧ (w.bss_list k).isSome
  behind : ∀ k, m ≤ k → nameOf (w.prev k) = nameOf (u.prev k)
  before : ∀ k < m, (w.bss_list k).isSome → k ∉ w.rename_list →
    nameOf (w.prev k) = nameOf bss[k]?
  temporary : ∀ k ∈ w.rename_list, nameOf (w.prev k) = tmpName env (nameOf bss[k]?)

namespace Renaming

lemma free (h : Renaming env bss u m w) (hnames : (bss.map Bss.ifname).Nodup)
    (htemp : Temporary env bss u.old) {cur : Bss} (hcur : bss[m]? = some cur) (k : ℕ)
    (hk : (w.bss_list k).isSome) : nameOf (w.prev k) ≠ tmpName env cur.ifname := by
  have hm : m < bss.length := (List.getElem?_eq_some_iff.mp hcur).1
  have hmem : cur ∈ bss := List.mem_of_getElem? hcur
  have hkb : k < bss.length := (h.aligned.listed k hk).1
  rcases Nat.lt_or_ge k m with hkm | hkm
  · have hget : bss[k]? = some bss[k] := List.getElem?_eq_getElem hkb
    by_cases htmp : k ∈ w.rename_list
    · rw [h.temporary k htmp, hget]
      intro heq
      have hsame := htemp.distinct _ (List.getElem_mem hkb) cur hmem heq
      refine absurd (nameOf_inj hnames hkb hm ?_) (Nat.ne_of_lt hkm)
      rw [hget, hcur, nameOf_some, nameOf_some, hsame]
    · rw [h.before k hkm hk htmp, hget]
      exact (htemp.fresh cur hmem _ (List.mem_append_left _ (List.getElem_mem hkb))).symm
  · obtain ⟨id, hid⟩ := Option.isSome_iff_exists.mp hk
    obtain ⟨j, b, hj, hb, -⟩ := h.aligned.get hid
    have hlength : w.old.length = u.old.length := by simpa using congrArg List.length h.frame.old
    have hlt : j < u.old.length := hlength ▸ (List.getElem?_eq_some_iff.mp hb).1
    rw [h.behind k hkm, Work.prev, ← h.frame.cfg, hj, Option.bind_some,
      List.getElem?_eq_getElem hlt]
    exact (htemp.fresh cur hmem _ (List.mem_append_right _ (List.getElem_mem hlt))).symm

/-- The loop of step 4, for a BSS. -/
lemma step (h : Renaming env bss u m w) (hnames : (bss.map Bss.ifname).Nodup)
    (htemp : Temporary env bss u.old) (hm : m < bss.length) :
    ∃ w', renameFirst env w m = some w' ∧ Renaming env bss u (m + 1) w' := by
  have hnotin : m ∉ w.rename_list := fun hmem => absurd (h.listed m hmem).1 (lt_irrefl m)
  cases hid : w.bss_list m with
  | none =>
    refine ⟨w, by rw [renameFirst, hid], h.aligned, h.frame, h.nodup, fun k hk =>
      ⟨Nat.lt_succ_of_lt (h.listed k hk).1, (h.listed k hk).2⟩, fun k hk => h.behind k (by omega),
      fun k hk hsome hnot => ?_, h.temporary⟩
    refine h.before k (Nat.lt_of_le_of_ne (Nat.le_of_lt_succ hk) ?_) hsome hnot
    rintro rfl
    rw [hid] at hsome
    cases hsome
  | some id =>
    obtain ⟨j, prev, hcfg, hold, hprev⟩ := h.aligned.get hid
    have hget : bss[m]? = some bss[m] := List.getElem?_eq_getElem hm
    have hcur := h.aligned.same.get hget
    have hfree := h.free hnames htemp hget
    have hfirst : renameFirst env w m =
        if prev.ifname = bss[m].ifname then some w
        else if inUse w.running bss[m].ifname then
          { w with rename_list := w.rename_list ++ [m] }.renameTo id j (tmpName env bss[m].ifname)
        else w.renameTo id j bss[m].ifname := by
      rw [renameFirst, hid, hcfg]
      simp only
      rw [hcur, Option.bind_some, hold, Option.bind_some]
    rw [hfirst]
    split
    · rename_i heq
      refine ⟨w, rfl, h.aligned, h.frame, h.nodup, fun k hk =>
        ⟨Nat.lt_succ_of_lt (h.listed k hk).1, (h.listed k hk).2⟩, fun k hk => h.behind k (by omega),
        fun k hk hsome hnot => ?_, h.temporary⟩
      by_cases hkm : k = m
      · rw [hkm, hprev, hget, nameOf_some, nameOf_some, heq]
      · exact h.before k (by omega) hsome hnot
    · rename_i hne
      split
      · have haligned : Aligned bss { w with rename_list := w.rename_list ++ [m] } :=
          ⟨h.aligned.same, h.aligned.listed, h.aligned.unlisted, h.aligned.inj, h.aligned.placed⟩
        obtain ⟨w', hrename, haligned', hframe, hlist, hself, hother⟩ :=
          haligned.renameTo hid hcfg hfree
        refine ⟨w', hrename, haligned', h.frame.trans
          ⟨hframe.bss, hframe.bss_list, hframe.cfg, hframe.next, hframe.old⟩, ?_, fun k hk => ?_,
          fun k hk => ?_, fun k hk hsome hnot => ?_, fun k hk => ?_⟩
        · rw [hlist]
          exact h.nodup.append (List.nodup_singleton m) (by simpa using hnotin)
        · rw [hlist] at hk
          rw [hframe.bss_list]
          rcases List.mem_append.mp hk with hk | hk
          · exact ⟨Nat.lt_succ_of_lt (h.listed k hk).1, (h.listed k hk).2⟩
          · rw [List.mem_singleton.mp hk]
            exact ⟨Nat.lt_succ_self m, by rw [hid]; rfl⟩
        · rw [hother k (by omega)]
          exact h.behind k (by omega)
        · rw [hlist, List.mem_append, not_or, List.mem_singleton] at hnot
          rw [hframe.bss_list] at hsome
          rw [hother k hnot.2]
          exact h.before k (by omega) hsome hnot.1
        · rw [hlist] at hk
          rcases List.mem_append.mp hk with hk | hk
          · rw [hother k fun heq => hnotin (heq ▸ hk)]
            exact h.temporary k hk
          · rw [List.mem_singleton.mp hk, hself, hget, nameOf_some]
      · rename_i hnot
        have hunused : ∀ k, (w.bss_list k).isSome → nameOf (w.prev k) ≠ bss[m].ifname :=
          fun k hk heq => hnot ((h.aligned.placed.inUse_iff _).mpr ⟨k, hk, heq⟩)
        obtain ⟨w', hrename, haligned', hframe, hlist, hself, hother⟩ :=
          h.aligned.renameTo hid hcfg hunused
        refine ⟨w', hrename, haligned', h.frame.trans hframe, by rw [hlist]; exact h.nodup,
          fun k hk => ?_, fun k hk => ?_, fun k hk hsome hnot => ?_, fun k hk => ?_⟩
        · rw [hlist] at hk
          rw [hframe.bss_list]
          exact ⟨Nat.lt_succ_of_lt (h.listed k hk).1, (h.listed k hk).2⟩
        · rw [hother k (by omega)]
          exact h.behind k (by omega)
        · rw [hlist] at hnot
          rw [hframe.bss_list] at hsome
          by_cases hkm : k = m
          · rw [hkm, hself, hget, nameOf_some]
          · rw [hother k hkm]
            exact h.before k (by omega) hsome hnot
        · rw [hlist] at hk
          rw [hother k fun heq => hnotin (heq ▸ hk)]
          exact h.temporary k hk

end Renaming

/-- Step 5 succeeds: every BSS gets its name in place of the temporary one. -/
lemma renameAgain_all {l : List ℕ} (h : Aligned bss w) (hnames : (bss.map Bss.ifname).Nodup)
    (htemp : Temporary env bss old) (hnodup : l.Nodup) (hlisted : ∀ k ∈ l, (w.bss_list k).isSome)
    (hl : ∀ k ∈ l, nameOf (w.prev k) = tmpName env (nameOf bss[k]?))
    (hnot : ∀ k, (w.bss_list k).isSome → k ∉ l → nameOf (w.prev k) = nameOf bss[k]?) :
    ∃ w', l.foldlM renameAgain w = some w' ∧ Aligned bss w' ∧ Renamed w w' ∧
      ∀ k, (w'.bss_list k).isSome → nameOf (w'.prev k) = nameOf bss[k]? := by
  induction l generalizing w with
  | nil =>
    exact ⟨w, rfl, h, ⟨rfl, rfl, rfl, rfl, rfl⟩, fun k hk => hnot k hk (List.not_mem_nil)⟩
  | cons i l ih =>
    obtain ⟨hil, hnodup⟩ := List.nodup_cons.mp hnodup
    obtain ⟨id, hid⟩ := Option.isSome_iff_exists.mp (hlisted i List.mem_cons_self)
    obtain ⟨j, prev, hcfg, -, -⟩ := h.get hid
    have hib : i < bss.length := h.lt hid
    have hget : bss[i]? = some bss[i] := List.getElem?_eq_getElem hib
    -- the name of a BSS is no temporary name, and no other BSS has it
    have hfree : ∀ k, (w.bss_list k).isSome → nameOf (w.prev k) ≠ bss[i].ifname := by
      intro k hk
      have hkb : k < bss.length := (h.listed k hk).1
      have hgetk : bss[k]? = some bss[k] := List.getElem?_eq_getElem hkb
      by_cases hkl : k ∈ i :: l
      · rw [hl k hkl, hgetk]
        exact htemp.fresh _ (List.getElem_mem hkb) _ (List.mem_append_left _ (List.getElem_mem hib))
      · rw [hnot k hk hkl, hgetk]
        intro heq
        have hki : k = i := nameOf_inj hnames hkb hib (by rw [hgetk, hget]; exact heq)
        exact hkl (hki ▸ List.mem_cons_self)
    obtain ⟨w', hrename, haligned, hframe, -, hself, hother⟩ := h.renameTo hid hcfg hfree
    have hagain : renameAgain w i = some w' := by
      rw [renameAgain, hid, hcfg]
      simp only
      rw [h.same.get hget, Option.bind_some]
      exact hrename
    obtain ⟨w'', hfold, haligned', hframe', hall⟩ := ih haligned hnodup
      (fun k hk => by
        rw [hframe.bss_list]
        exact hlisted k (List.mem_cons_of_mem _ hk))
      (fun k hk => by
        rw [hother k fun heq => hil (heq ▸ hk)]
        exact hl k (List.mem_cons_of_mem _ hk))
      fun k hk hkl => by
        by_cases hki : k = i
        · rw [hki, hself, hget, nameOf_some]
        · rw [hframe.bss_list] at hk
          rw [hother k hki]
          exact hnot k hk fun hmem => (List.mem_cons.mp hmem).elim hki hkl
    refine ⟨w'', ?_, haligned', hframe.trans hframe', hall⟩
    rw [List.foldlM_cons, hagain]
    exact hfold

lemma Carried.renameAll (h : Carried config.bss old running config.bss.length u)
    (hmatch : Matches old running) (hnames : (config.bss.map Bss.ifname).Nodup)
    (htemp : Temporary env config.bss old) :
    ∃ w, renameAll env config u = some w ∧ Aligned config.bss w ∧ Renamed u w ∧
      ∀ k, (w.bss_list k).isSome → nameOf (w.prev k) = nameOf config.bss[k]? := by
  obtain ⟨v, hdelete, hv, haligned⟩ := h.aligned hmatch
  have hframe : Renamed u v := by
    rw [hv]
    exact ⟨rfl, rfl, rfl, rfl, rfl⟩
  have hold : v.old = old := by rw [hv, h.before.1]
  have hlist : v.rename_list = [] := by rw [hv, h.before.2.2.2]
  have hstart : Renaming env config.bss v 0 v :=
    ⟨haligned, ⟨rfl, rfl, rfl, rfl, rfl⟩, by rw [hlist]; exact List.nodup_nil, by simp [hlist],
      fun k _ => rfl, fun k hk => absurd hk (Nat.not_lt_zero k), by simp [hlist]⟩
  obtain ⟨w, hfirst, hw⟩ := foldlM_range_some hstart fun i s hi hs =>
    hs.step hnames (hold ▸ htemp) hi
  obtain ⟨w', hagain, haligned', hframe', hall⟩ := renameAgain_all hw.aligned hnames htemp hw.nodup
    (fun k hk => (hw.listed k hk).2) hw.temporary
    fun k hk hnot => hw.before k (hw.aligned.listed k hk).1 hk hnot
  refine ⟨w', ?_, haligned', (hframe.trans hw.frame).trans hframe', hall⟩
  rw [Ap.renameAll, hdelete, Option.bind_some, hfirst, Option.bind_some, hagain]

/-! ## New BSSes -/

/-- Step 6 changes addresses alone. -/
def Reassigned (u w : Work) : Prop :=
  SameBut w.bss u.bss ∧ w = { u with bss := w.bss, macaddr_list := w.macaddr_list }

lemma assign_reassigned {generate : ℕ → Option String} (h : Reassigned u w)
    (hassign : assign generate w i = some w') : Reassigned u w' := by
  obtain ⟨hsame, hw⟩ := h
  rw [assign] at hassign
  split at hassign
  · cases hassign
    exact ⟨hsame, hw⟩
  · obtain ⟨b, -, hassign⟩ := Option.bind_eq_some_iff.mp hassign
    simp only at hassign
    split at hassign
    · cases hassign
      exact ⟨hsame, by rw [hw]⟩
    · obtain ⟨k, -, hassign⟩ := Option.bind_eq_some_iff.mp hassign
      obtain ⟨next, -, rfl⟩ := Option.map_eq_some_iff.mp hassign
      exact ⟨(sameBut_setBssid ..).trans hsame, by rw [hw]⟩

lemma assignAll_reassigned (h : assignAll env config u = some w) : Reassigned u w := by
  have hstart : Reassigned u { u with macaddr_list := macaddr_init env.wdevs u.macaddr_list } :=
    ⟨rfl, rfl⟩
  exact foldlM_inv h hstart fun s i t hs hst => assign_reassigned hs hst

lemma lt_freshId {r : Running} (h : r ∈ running) : r.id < freshId running := by
  rw [freshId, Nat.lt_succ_iff]
  induction running with
  | nil => cases h
  | cons r' running ih =>
    rw [List.map_cons, List.foldr_cons]
    rcases List.mem_cons.mp h with rfl | h
    · exact le_max_left _ _
    · exact (ih h).trans (le_max_right _ _)

/-- Step 7 has come to BSS m: the ones in front of it run, under their names. -/
structure Filled (u : Work) (m : ℕ) (w : Work) : Prop where
  frame : w = { u with bss_list := w.bss_list, running := w.running, next := w.next }
  listed : ∀ i, (w.bss_list i).isSome ↔ (u.bss_list i).isSome ∨ i < m
  new : ∀ i id, w.bss_list i = some id → u.bss_list i = some id ∨ u.next ≤ id
  lt : ∀ i id, w.bss_list i = some id → id < w.next
  le : u.next ≤ w.next
  placed : Placed w.running w.bss_list (fun i => nameOf u.bss[i]?)
    fun i => confOf ((u.prev i).or u.bss[i]?)

/-- The loop of step 7, for a BSS. -/
lemma Filled.step (h : Filled u m w) (hu : Aligned bss u) (hnames : (u.bss.map Bss.ifname).Nodup)
    (hm : m < u.bss.length) : ∃ w', fill w m = some w' ∧ Filled u (m + 1) w' := by
  have hbss : w.bss = u.bss := by rw [h.frame]
  rw [fill]
  cases hid : w.bss_list m with
  | some id =>
    refine ⟨w, rfl, h.frame, fun i => ?_, h.new, h.lt, h.le, h.placed⟩
    rw [h.listed i]
    by_cases him : i = m
    · subst him
      have hi := (h.listed i).mp (by rw [hid]; rfl)
      exact ⟨fun _ => Or.inr (Nat.lt_succ_self i), fun _ => hi⟩
    · have hlt : i < m ↔ i < m + 1 := by omega
      rw [hlt]
  | none =>
    have hget : u.bss[m]? = some u.bss[m] := List.getElem?_eq_getElem hm
    have hnone : u.bss_list m = none := by
      rw [← Option.not_isSome_iff_eq_none]
      intro hsome
      have hw := (h.listed m).mpr (Or.inl hsome)
      rw [hid] at hw
      cases hw
    have hprev : u.prev m = none := by rw [Work.prev, hu.unlisted m hnone]; rfl
    have hfree : ∀ k, (w.bss_list k).isSome → nameOf u.bss[k]? ≠ u.bss[m].ifname := by
      intro k hk heq
      have hkb : k < u.bss.length := by
        rcases (h.listed k).mp hk with hk | hk
        · rw [hu.same.length]
          exact (hu.listed k hk).1
        · omega
      have hkm : k = m := nameOf_inj hnames hkb hm (by rw [hget, heq, nameOf_some])
      rw [hkm, hid] at hk
      cases hk
    obtain ⟨running', hadd, hplaced⟩ := h.placed.add hid
      (fun k hk => lt_irrefl _ (h.lt k w.next hk)) hfree
    have hgetw : w.bss[m]? = some u.bss[m] := by rw [hbss, hget]
    refine ⟨{ w with
      bss_list := Function.update w.bss_list m (some w.next)
      running := running'
      next := w.next + 1 }, by rw [if_neg (by simp), hgetw, Option.bind_some, hadd]; rfl,
      ?_, fun i => ?_, fun i id hi => ?_, fun i id hi => ?_, Nat.le_succ_of_le h.le, ?_⟩
    · exact congrArg (fun v : Work => { v with
        bss_list := Function.update w.bss_list m (some w.next)
        running := running'
        next := w.next + 1 }) h.frame
    · by_cases him : i = m
      · subst him
        simp
      · have hlt : i < m ↔ i < m + 1 := by omega
        simp only [Function.update_of_ne him, h.listed i, hlt]
    · replace hi : Function.update w.bss_list m (some w.next) i = some id := hi
      by_cases him : i = m
      · subst him
        rw [Function.update_self] at hi
        cases hi
        exact Or.inr h.le
      · rw [Function.update_of_ne him] at hi
        exact h.new i id hi
    · replace hi : Function.update w.bss_list m (some w.next) i = some id := hi
      by_cases him : i = m
      · subst him
        rw [Function.update_self] at hi
        cases hi
        exact Nat.lt_succ_self _
      · rw [Function.update_of_ne him] at hi
        exact Nat.lt_succ_of_lt (h.lt i id hi)
    · refine hplaced.congr (fun i _ => ?_) fun i _ => ?_
      · by_cases him : i = m
        · rw [him, Function.update_self, hget, nameOf_some]
        · rw [Function.update_of_ne him]
      · by_cases him : i = m
        · rw [him, Function.update_self, hprev, hget, Option.none_or, confOf_some]
        · rw [Function.update_of_ne him]

/-! ## Settings -/

/-- Both the key file and the one with the RxKHs have changed, and nothing else but the name. -/
def BothFiles (cur prev : Bss) : Prop :=
  cur.hash.wpa_psk_file ≠ prev.hash.wpa_psk_file ∧ cur.hash.rxkh_file ≠ prev.hash.rxkh_file ∧
    cur = { prev with
      ifname := cur.ifname
      hash := { prev.hash with
        wpa_psk_file := cur.hash.wpa_psk_file
        rxkh_file := cur.hash.rxkh_file } }

instance (cur prev : Bss) : Decidable (BothFiles cur prev) := by
  unfold BothFiles
  infer_instance

/-- What a BSS that is carried over runs with in the end. -/
def endConf (cur prev : Bss) : Conf :=
  if BothFiles cur prev then
    { cur.conf with files := { cur.conf.files with wpa_psk_file := prev.hash.wpa_psk_file } }
  else cur.conf

lemma endConf_eq_iff {cur prev : Bss} : endConf cur prev = cur.conf ↔ ¬ BothFiles cur prev := by
  rw [endConf]
  split
  · rename_i hboth
    refine ⟨fun heq => absurd ?_ hboth.1, fun hnot => absurd hboth hnot⟩
    exact (congrArg (fun c : Conf => c.files.wpa_psk_file) heq).symm
  · rename_i hnot
    exact ⟨fun _ => hnot, fun _ => rfl⟩

lemma BothFiles.congr {cur prev prev' : Bss}
    (h : { prev with ifname := "" } = { prev' with ifname := "" }) :
    BothFiles cur prev ↔ BothFiles cur prev' := by
  cases prev
  cases prev'
  simp only [Bss.mk.injEq, true_and] at h
  obtain ⟨rfl, rfl, rfl, rfl, rfl, rfl, rfl, rfl⟩ := h
  exact Iff.rfl

/-- An old BSS with the key file of the new one. -/
def Bss.withPsk (prev cur : Bss) : Bss :=
  { prev with hash := { prev.hash with wpa_psk_file := cur.hash.wpa_psk_file } }

/-- An old BSS with the RxKHs of the new one. -/
def Bss.withRxkhs (prev cur : Bss) : Bss :=
  { prev with hash := { prev.hash with rxkh_file := cur.hash.rxkh_file } }

lemma bss_reload_psk_eq (running : List Running) (id : ℕ) (cur prev : Bss) :
    bss_reload_psk running id cur prev =
      (configure running id (if prev.hash.wpa_psk_file ≠ cur.hash.wpa_psk_file ∧
        prev.withPsk cur = cur then cur.reload_wpa_psk else fun c => c), prev.withPsk cur) := by
  have hdef : bss_reload_psk running id cur prev =
      if prev.hash.wpa_psk_file = cur.hash.wpa_psk_file then (running, prev)
      else if prev.withPsk cur ≠ cur then (running, prev.withPsk cur)
      else (configure running id cur.reload_wpa_psk, prev.withPsk cur) := rfl
  rw [hdef]
  by_cases heq : prev.hash.wpa_psk_file = cur.hash.wpa_psk_file
  · have hprev : prev.withPsk cur = prev := by rw [Bss.withPsk, ← heq]
    simp [heq, hprev, configure_id]
  · by_cases hcur : prev.withPsk cur = cur
    · simp [heq, hcur]
    · simp [heq, hcur, configure_id]

lemma bss_reload_rxkhs_eq (env : Env) (running : List Running) (id : ℕ) (cur prev : Bss) :
    ∃ sent : Prop, (cur.hash.rxkh_file ≠ prev.hash.rxkh_file → prev.withRxkhs cur = cur → sent) ∧
      ∃ _ : Decidable sent, bss_reload_rxkhs env running id cur prev =
        (configure running id (if sent then cur.reload_rxkhs else fun c => c),
          prev.withRxkhs cur) := by
  have hdef : bss_reload_rxkhs env running id cur prev =
      if cur.hash.rxkh_file = some (rxkhsHash env running id) ∧
          prev.hash.rxkh_file = cur.hash.rxkh_file then (running, prev)
      else if prev.withRxkhs cur ≠ cur then (running, prev.withRxkhs cur)
      else (configure running id cur.reload_rxkhs, prev.withRxkhs cur) := rfl
  rw [hdef]
  by_cases heq : cur.hash.rxkh_file = some (rxkhsHash env running id) ∧
      prev.hash.rxkh_file = cur.hash.rxkh_file
  · refine ⟨False, fun hne _ => hne heq.2.symm, instDecidableFalse, ?_⟩
    have hprev : prev.withRxkhs cur = prev := by rw [Bss.withRxkhs, ← heq.2]
    rw [if_pos heq, if_neg not_false, configure_id, hprev]
  · rw [if_neg heq]
    by_cases hcur : prev.withRxkhs cur = cur
    · refine ⟨True, fun _ _ => trivial, instDecidableTrue, ?_⟩
      rw [if_pos trivial, if_neg (not_not.mpr hcur)]
    · refine ⟨False, fun _ h => hcur h, instDecidableFalse, ?_⟩
      rw [if_neg not_false, configure_id, if_pos hcur]

/-- Step 9 for a BSS that is carried over: it is given what is new, but for its key file where this
and the file with the RxKHs are all that has changed. -/
lemma updated_spec (env : Env) (running : List Running) (id : ℕ) (cur prev : Bss)
    (hname : prev.ifname = cur.ifname) :
    ∃ f, updated env running id cur prev = configure running id f ∧
      f prev.conf = endConf cur prev := by
  rw [updated]
  by_cases heq : cur = prev
  · refine ⟨fun c => c, by rw [if_pos heq, configure_id], ?_⟩
    rw [heq]
    exact (endConf_eq_iff.mpr fun hboth => hboth.1 rfl).symm
  rw [if_neg heq]
  by_cases hfiles : bss_remove_file_fields cur = bss_remove_file_fields prev
  · refine ⟨fun c => cur.reload_wpa_psk (cur.set_files c), by rw [if_pos hfiles, configure_configure],
      ?_⟩
    have hrxkh : (bss_remove_file_fields cur).hash.rxkh_file =
        (bss_remove_file_fields prev).hash.rxkh_file := by rw [hfiles]
    have hnot : ¬ BothFiles cur prev := fun hboth => hboth.2.1 hrxkh
    rw [endConf_eq_iff.mpr hnot]
    simp only [bss_remove_file_fields, Bss.mk.injEq] at hfiles
    obtain ⟨-, hbssid, -, -, -, hap, hmld, hdata, -⟩ := hfiles
    simp only [Bss.set_files, Bss.reload_wpa_psk, Bss.conf, hbssid, hap, hmld, hdata]
  rw [if_neg hfiles]
  simp only [bss_reload_psk_eq]
  obtain ⟨sent, hsent, _, hrxkhs⟩ := bss_reload_rxkhs_eq env (configure running id
    (if prev.hash.wpa_psk_file ≠ cur.hash.wpa_psk_file ∧
        prev.withPsk cur = cur then cur.reload_wpa_psk else fun c => c)) id cur (prev.withPsk cur)
  rw [hrxkhs]
  dsimp only
  by_cases hall : cur = (prev.withPsk cur).withRxkhs cur
  · rw [if_pos hall, configure_configure]
    refine ⟨_, rfl, ?_⟩
    replace hsent := fun h => hsent h hall.symm
    rcases cur with ⟨_, _, _, _, _, _, _, _, ⟨_, psk, _, rxkh, _⟩⟩
    rcases prev with ⟨_, _, _, _, _, _, _, _, ⟨_, psk', _, rxkh', _⟩⟩
    simp only [Bss.withPsk, Bss.withRxkhs, Bss.mk.injEq, Hash.mk.injEq, true_and] at hall
    obtain ⟨rfl, rfl, rfl, rfl, rfl, rfl, rfl, rfl, rfl, rfl, rfl⟩ := hall
    by_cases hpsk : psk' = psk <;> by_cases hrxkh : rxkh' = rxkh
    · exact absurd (by rw [hpsk, hrxkh]) heq
    · have hs : sent := hsent fun h => hrxkh h.symm
      simp [hpsk, hs, endConf, BothFiles, Bss.conf, Bss.reload_rxkhs]
    · subst hrxkh
      by_cases hs : sent
      · simp [hpsk, hs, endConf, BothFiles, Bss.conf, Bss.reload_rxkhs, Bss.reload_wpa_psk,
          Bss.withPsk]
      · simp [hpsk, hs, endConf, BothFiles, Bss.conf, Bss.reload_wpa_psk, Bss.withPsk]
    · have hs : sent := hsent fun h => hrxkh h.symm
      simp [Ne.symm hpsk, Ne.symm hrxkh, hrxkh, hs, endConf, BothFiles, Bss.conf,
        Bss.reload_rxkhs, Bss.withPsk]
  · rw [if_neg hall, configure_configure, configure_configure]
    refine ⟨_, rfl, ?_⟩
    have hnot : ¬ BothFiles cur prev := fun hboth => hall (by
      rw [Bss.withRxkhs, Bss.withPsk]
      simpa [hname] using hboth.2.2)
    rw [endConf_eq_iff.mpr hnot]
    rfl

/-- What a BSS runs with in the end. -/
def endOf (cur prev : Option Bss) : Conf :=
  match cur, prev with
  | some cur, some prev => endConf cur prev
  | cur, _ => confOf cur

/-- Step 9 has come to BSS m: the ones in front of it run with what they are to. -/
structure Updated (u : Work) (m : ℕ) (w : Work) : Prop where
  frame : w = { u with running := w.running }
  ids : w.running.map Running.id = u.running.map Running.id
  placed : Placed w.running u.bss_list (fun i => nameOf u.bss[i]?) fun i =>
    if i < m then endOf u.bss[i]? (u.prev i) else confOf ((u.prev i).or u.bss[i]?)

/-- The loop of step 9, for a BSS. -/
lemma Updated.step (h : Updated u m w) (env : Env) (hm : m < u.bss.length)
    (hlisted : (u.bss_list m).isSome) (hcfg : ∀ j, u.bss_list_cfg m = some j → (u.prev m).isSome)
    (hname : ∀ b, u.prev m = some b → b.ifname = nameOf u.bss[m]?) :
    ∃ w', update env w m = some w' ∧ Updated u (m + 1) w' := by
  obtain ⟨id, hid⟩ := Option.isSome_iff_exists.mp hlisted
  have hget : u.bss[m]? = some u.bss[m] := List.getElem?_eq_getElem hm
  have hw : w.bss_list = u.bss_list ∧ w.bss_list_cfg = u.bss_list_cfg ∧ w.bss = u.bss ∧
      w.old = u.old := by
    rw [h.frame]
    exact ⟨rfl, rfl, rfl, rfl⟩
  obtain ⟨hlist, hcfgs, hbss, hold⟩ := hw
  rw [update, hlist, hcfgs, hid]
  cases hj : u.bss_list_cfg m with
  | none =>
    have hprev : u.prev m = none := by rw [Work.prev, hj]; rfl
    refine ⟨w, rfl, h.frame, h.ids, h.placed.congr (fun _ _ => rfl) fun i _ => ?_⟩
    by_cases him : i = m
    · rw [him, if_pos (Nat.lt_succ_self m), if_neg (lt_irrefl m), hprev, hget]
      rfl
    · have hlt : i < m + 1 ↔ i < m := by omega
      simp only [hlt]
  | some j =>
    obtain ⟨prev, hprev⟩ := Option.isSome_iff_exists.mp (hcfg j hj)
    have holdj : u.old[j]? = some prev := by
      rw [Work.prev, hj] at hprev
      exact hprev
    obtain ⟨f, hf, hend⟩ := updated_spec env w.running id u.bss[m] prev
      (by rw [hname prev hprev, hget, nameOf_some])
    refine ⟨{ w with running := updated env w.running id u.bss[m] prev }, ?_, ?_, ?_, ?_⟩
    · simp only [hbss, hget, hold, holdj, hlist, hcfgs, Option.bind_some, Option.map_some]
    · exact congrArg (fun v : Work =>
        { v with running := updated env w.running id u.bss[m] prev }) h.frame
    · simp only [hf, map_id_configure, h.ids]
    · simp only [hf]
      refine (h.placed.configure hid f).congr (fun _ _ => rfl) fun i _ => ?_
      by_cases him : i = m
      · rw [him, if_pos (Nat.lt_succ_self m), Function.update_self, if_neg (lt_irrefl m), hprev,
          hget, Option.some_or, confOf_some, hend]
        rfl
      · have hlt : i < m + 1 ↔ i < m := by omega
        simp only [Function.update_of_ne him, hlt]

/-- Steps 7 to 9 succeed: all BSSes run, in order and under their names, each with what it is to
have, and what runs was carried over or is new. -/
lemma Aligned.bringUp (h : Aligned bss u) (env : Env) (hlength : u.bss.length = config.bss.length)
    (hnames : (u.bss.map Bss.ifname).Nodup) (hnext : ∀ i id, u.bss_list i = some id → id < u.next)
    (hname : ∀ k b, u.prev k = some b → b.ifname = nameOf u.bss[k]?) :
    ∃ w, bringUp env config u = some w ∧ w.bss = u.bss ∧ w.bss_list_cfg = u.bss_list_cfg ∧
      w.running.map (fun r => (r.ifname, r.conf)) =
        (List.range u.bss.length).map (fun i =>
          (nameOf u.bss[i]?, endOf u.bss[i]? (u.prev i))) ∧
      ∀ r ∈ w.running, (∃ i, u.bss_list i = some r.id) ∨ u.next ≤ r.id := by
  have hstart : Filled u 0 u := by
    refine ⟨rfl, fun i => by simp, fun i id hi => Or.inl hi, hnext, le_rfl,
      h.placed.congr (fun i hi => ?_) fun i hi => ?_⟩
    · obtain ⟨b, hb⟩ := Option.isSome_iff_exists.mp (h.listed i hi).2
      rw [hb, nameOf_some, hname i b hb]
    · obtain ⟨b, hb⟩ := Option.isSome_iff_exists.mp (h.listed i hi).2
      rw [hb, Option.some_or]
  obtain ⟨v, hfill, hv⟩ := foldlM_range_some hstart fun i s hi hs => hs.step h hnames hi
  have hlisted : ∀ i, (v.bss_list i).isSome ↔ i < u.bss.length := by
    intro i
    rw [hv.listed i]
    refine ⟨fun hi => hi.elim (fun hi => ?_) fun hi => hi, Or.inr⟩
    rw [h.same.length]
    exact (h.listed i hi).1
  obtain ⟨running', horder, hplaced, hids⟩ := hv.placed.order hlisted
  obtain ⟨hbss, hold, hcfg⟩ : v.bss = u.bss ∧ v.old = u.old ∧ v.bss_list_cfg = u.bss_list_cfg := by
    rw [hv.frame]
    exact ⟨rfl, rfl, rfl⟩
  have hprev : ∀ i, Work.prev { v with running := running' } i = u.prev i := fun i => by
    simp only [Work.prev, hcfg, hold]
  have hordered : Updated { v with running := running' } 0 { v with running := running' } := by
    refine ⟨rfl, rfl, hplaced.congr (fun i _ => by simp only [hbss]) fun i _ => ?_⟩
    rw [if_neg (Nat.not_lt_zero i), hprev i]
    simp only [hbss]
  obtain ⟨w, hupdate, hw⟩ := foldlM_range_some hordered fun i s hi hs => by
    refine hs.step env (hbss ▸ hi) ((hlisted i).mpr hi) (fun j hj => ?_) fun b hb => ?_
    · rw [hprev i]
      have hsome : (u.bss_list i).isSome := by
        rw [Option.isSome_iff_ne_none]
        intro hnone
        have hnot := h.unlisted i hnone
        rw [← hcfg] at hnot
        rw [hnot] at hj
        cases hj
      exact (h.listed i hsome).2
    · rw [hprev i] at hb
      rw [hname i b hb]
      simp only [hbss]
  obtain ⟨hbss', hcfg'⟩ : w.bss = v.bss ∧ w.bss_list_cfg = v.bss_list_cfg := by
    rw [hw.frame]
    exact ⟨rfl, rfl⟩
  refine ⟨w, ?_, hbss'.trans hbss, hcfg'.trans hcfg, ?_, fun r hr => ?_⟩
  · rw [Ap.bringUp, ← hlength, hfill, Option.bind_some, horder, Option.bind_some, hupdate]
  · rw [hw.placed.read hlisted (hw.ids.trans hids)]
    refine List.map_congr_left fun i hi => ?_
    rw [if_pos (List.mem_range.mp hi), hprev i]
    simp only [hbss]
  · obtain ⟨i, hi⟩ := hw.placed.mem r hr
    exact (hv.new i r.id hi).imp_left fun hi => ⟨i, hi⟩

/-! ## The outcome -/

/-- A reload ends where a restart would: the BSSes of the new configuration run in its order, under
their names and with what it has for them, and the old ones that were not carried over do not. -/
structure Restored (bss : List Bss) (running : List Running) (out : Outcome) : Prop where
  same : SameBut out.bss bss
  runs : out.running.map (fun r => (r.ifname, r.conf)) = out.bss.map fun b => (b.ifname, b.conf)
  deleted : ∀ j r, running[j]? = some r → (∀ i, out.reused i ≠ some j) →
    ∀ r' ∈ out.running, r'.id ≠ r.id

/-- The steps behind the first two, from the BSSes that these carry over. -/
lemma Carried.ends (h : Carried config.bss old running config.bss.length u)
    (hmatch : Matches old running) (hnames : (config.bss.map Bss.ifname).Nodup)
    (htemp : Temporary env config.bss old) :
    ∃ v, Ap.renameAll env config u = some v ∧ ∀ v', assignAll env config v = some v' →
      ∃ w, bringUp env config v' = some w ∧
        (Restored config.bss running ⟨w.bss, w.bss_list_cfg, w.running⟩ ↔
          ∀ i j cur prev, w.bss_list_cfg i = some j → w.bss[i]? = some cur → old[j]? = some prev →
            ¬ BothFiles cur prev) := by
  obtain ⟨v, hrename, haligned, hframe, hall⟩ := h.renameAll hmatch hnames htemp
  refine ⟨v, hrename, fun v' hassign => ?_⟩
  obtain ⟨hsame, hv'⟩ := assignAll_reassigned hassign
  obtain ⟨hold, hrunning, hlist, hcfg, hnext⟩ : v'.old = v.old ∧ v'.running = v.running ∧
      v'.bss_list = v.bss_list ∧ v'.bss_list_cfg = v.bss_list_cfg ∧ v'.next = v.next := by
    rw [hv']
    exact ⟨rfl, rfl, rfl, rfl, rfl⟩
  have hprev : ∀ i, v'.prev i = v.prev i := fun i => by rw [Work.prev, Work.prev, hcfg, hold]
  have hbss : SameBut v'.bss config.bss := hsame.trans haligned.same
  have haligned' : Aligned config.bss v' := by
    refine ⟨hbss, fun i hi => ?_, fun i hi => ?_, ?_, ?_⟩
    · rw [hlist] at hi
      rw [hprev i]
      exact haligned.listed i hi
    · rw [hlist] at hi
      rw [hcfg]
      exact haligned.unlisted i hi
    · rw [hcfg]
      exact haligned.inj
    · rw [hrunning, hlist]
      exact haligned.placed.congr (fun i _ => by rw [hprev i]) fun i _ => by rw [hprev i]
  have hids : ∀ i id, v'.bss_list i = some id → ∃ j r, u.bss_list_cfg i = some j ∧
      running[j]? = some r ∧ r.id = id := by
    intro i id hi
    rw [hlist, hframe.bss_list, h.listed i] at hi
    obtain ⟨j, hj, hid⟩ := Option.bind_eq_some_iff.mp hi
    obtain ⟨r, hr, heq⟩ := Option.map_eq_some_iff.mp hid
    exact ⟨j, r, hj, hr, heq⟩
  have hfresh : v'.next = freshId running := by rw [hnext, hframe.next, h.before.2.2.1]
  obtain ⟨w, hbring, hwbss, hwcfg, hruns, hfrom⟩ := haligned'.bringUp env hbss.length
    (by
      have hmap : v'.bss.map Bss.ifname = config.bss.map Bss.ifname := by
        simpa [Function.comp_def] using congrArg (List.map Bss.ifname) hbss
      rw [hmap]
      exact hnames)
    (fun i id hi => by
      obtain ⟨j, r, -, hr, rfl⟩ := hids i id hi
      rw [hfresh]
      exact lt_freshId (List.mem_of_getElem? hr))
    (fun k b hb => by
      rw [hprev k] at hb
      have hsome : (v.bss_list k).isSome := by
        rw [Option.isSome_iff_ne_none]
        intro hnone
        rw [Work.prev, haligned.unlisted k hnone] at hb
        cases hb
      have hk := hall k hsome
      rw [hb, nameOf_some] at hk
      rw [hk, hbss.nameOf k])
  -- the old BSSes differ from what they were in their names alone
  have hwas : ∀ i prev, v'.prev i = some prev ↔ ∃ j, w.bss_list_cfg i = some j ∧
      v.old[j]? = some prev := by
    intro i prev
    rw [hprev i, Work.prev, Option.bind_eq_some_iff, hwcfg, hcfg]
  have hunnamed : ∀ j : ℕ, (v.old[j]?).map (fun b => { b with ifname := "" }) =
      (old[j]?).map fun b => { b with ifname := "" } := by
    intro j
    rw [← List.getElem?_map, ← List.getElem?_map, hframe.old, h.before.1]
  refine ⟨w, hbring, ⟨fun hrestored i j cur prev hij hcur hget => ?_, fun hnot => ⟨?_, ?_, ?_⟩⟩⟩
  · have hib : i < v'.bss.length := by
      rw [← hwbss]
      exact (List.getElem?_eq_some_iff.mp hcur).1
    rw [hwbss] at hcur
    have hj := hunnamed j
    rw [hget] at hj
    obtain ⟨prev', hprev', heq⟩ := Option.map_eq_some_iff.mp hj
    rw [← BothFiles.congr heq, ← endConf_eq_iff]
    have hmap := hrestored.runs.symm.trans hruns
    simp only [hwbss] at hmap
    rw [map_eq_range] at hmap
    have hi := List.map_inj_left.mp hmap i (List.mem_range.mpr hib)
    rw [hcur, (hwas i prev').mpr ⟨j, hij, hprev'⟩] at hi
    exact (Prod.ext_iff.mp hi).2.symm
  · rw [hwbss]
    exact hbss
  · rw [hruns]
    simp only [hwbss]
    rw [map_eq_range]
    refine List.map_congr_left fun i hi => ?_
    have hlt : i < v'.bss.length := List.mem_range.mp hi
    have hget : v'.bss[i]? = some v'.bss[i] := List.getElem?_eq_getElem hlt
    rw [hget]
    cases hp : v'.prev i with
    | none => rfl
    | some prev =>
      obtain ⟨j, hij, hprev'⟩ := (hwas i prev).mp hp
      have hj := hunnamed j
      rw [hprev'] at hj
      obtain ⟨prev', hget', heq⟩ := Option.map_eq_some_iff.mp hj.symm
      have hboth := hnot i j _ prev' hij (by rw [hwbss, hget]) hget'
      rw [BothFiles.congr heq, ← endConf_eq_iff] at hboth
      rw [endOf, hboth, confOf_some]
  · intro j r hr hreused r' hr' heq
    rcases hfrom r' hr' with ⟨i, hi⟩ | hle
    · obtain ⟨j', r'', hj', hr'', hid⟩ := hids i r'.id hi
      have hjj : j' = j := hmatch.inj hr'' hr (hid.trans heq)
      have hcfgs : w.bss_list_cfg i = u.bss_list_cfg i := by rw [hwcfg, hcfg, hframe.cfg]
      exact hreused i (hcfgs.trans (by rw [hj', hjj]))
    · rw [hfresh, heq] at hle
      exact absurd (lt_freshId (List.mem_of_getElem? hr)) (Nat.not_lt.mpr hle)

/-- Three BSSes with default addresses. -/
def three : List Bss :=
  [plainBss "ap0" "00:00:00:00:00:10" true "ssid=a",
    plainBss "ap1" "00:00:00:00:00:11" true "ssid=b",
    plainBss "ap2" "00:00:00:00:00:12" true "ssid=c"]

/-- The first two have changed names, and the third one is another. -/
def threeSwapped : List Bss :=
  [plainBss "ap0" "00:00:00:00:00:10" true "ssid=b",
    plainBss "ap1" "00:00:00:00:00:11" true "ssid=a",
    plainBss "ap3" "00:00:00:00:00:12" true "ssid=d"]

/-- A BSS whose key file and whose file with the RxKHs have these contents. -/
def keyed (psk rxkh : String) : Bss :=
  { plainBss "ap0" "00:00:00:00:00:10" true "ssid=a" with
    hash := { wpa_psk_file := some psk, rxkh_file := some rxkh } }

/-- Names that are swapped in pairs. -/
def swappedNames (a b c d : String) : List Bss :=
  [plainBss a "00:00:00:00:00:10" true "ssid=a", plainBss b "00:00:00:00:00:11" true "ssid=b",
    plainBss c "00:00:00:00:00:12" true "ssid=c", plainBss d "00:00:00:00:00:13" true "ssid=d"]

end Ap
