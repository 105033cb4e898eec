import Mt798x.Lib.Batch
import Mt798x.Ap.Reload

/-!
# Addresses that are carried over

The addresses of the BSSes of a configuration, which of them are assigned, and the list in which
they are reserved.  Step 1 of a reload carries BSSes over; `Found` says which of them keep their
address, and what the list says then.
-/

namespace Ap

open Batch

/-! ## Addresses of a configuration -/

/-- The address of a BSS, if it has one. -/
def bssidAt (bss : List Bss) (i : ℕ) : Option String := (bss[i]?).bind Bss.bssid

/-- The address of a BSS is assigned by the configuration. -/
def IsAssigned (bss : List Bss) (i : ℕ) : Prop := ∃ b, bss[i]? = some b ∧ b.default_macaddr = false

/-- The address of a BSS is assigned by the configuration, and was not drawn at random. -/
def IsStatic (bss : List Bss) (i : ℕ) : Prop :=
  ∃ b, bss[i]? = some b ∧ b.default_macaddr = false ∧ b.random_macaddr = false

/-- A BSS has a default or a random address, and the old one had one of the same sort. -/
def SameSort (bss old : List Bss) (i j : ℕ) : Prop :=
  ∃ cur prev, bss[i]? = some cur ∧ old[j]? = some prev ∧
    (cur.default_macaddr = true ∨ cur.random_macaddr = true) ∧
    cur.random_macaddr = prev.random_macaddr ∧ cur.default_macaddr = prev.default_macaddr

/-- Another BSS is assigned the address that the old one had. -/
def ClaimedBy (bss old : List Bss) (i j k : ℕ) : Prop :=
  k ≠ i ∧ IsAssigned bss k ∧ bssidAt bss k = bssidAt old j

/-- The addresses that the configuration assigns are distinct and none of an MLD. -/
structure Assigned (bss : List Bss) (mld : List String) : Prop where
  has : ∀ i, IsAssigned bss i → ∃ x, bssidAt bss i = some x ∧ x ∉ mld
  distinct : ∀ i j, IsAssigned bss i → IsAssigned bss j → bssidAt bss i = bssidAt bss j → i = j

/-- The addresses of an old configuration are distinct and none of an MLD. -/
structure Distinct (old : List Bss) (mld : List String) : Prop where
  has : ∀ i < old.length, ∃ x, bssidAt old i = some x ∧ x ∉ mld
  distinct : ∀ i j, i < old.length → j < old.length → bssidAt old i = bssidAt old j → i = j

/-! ## Setting an address -/

/-- Two lists of BSSes differ in the addresses alone. -/
def SameBut (bss bss' : List Bss) : Prop :=
  bss.map (fun b => { b with bssid := none }) = bss'.map fun b => { b with bssid := none }

variable {bss bss' old : List Bss} {mld : List String} {i j : ℕ} {a : Option String}

lemma SameBut.length (h : SameBut bss bss') : bss.length = bss'.length := by
  simpa using congrArg List.length h

lemma SameBut.get (h : SameBut bss bss') {b : Bss} (hb : bss'[i]? = some b) :
    bss[i]? = some { b with bssid := bssidAt bss i } := by
  have hi := congrArg (fun l => l[i]?) h
  simp only [List.getElem?_map, hb, Option.map_some] at hi
  obtain ⟨c, hc, heq⟩ := Option.map_eq_some_iff.mp hi
  rw [bssidAt, hc]
  cases c
  cases b
  simp_all

lemma sameBut_setBssid (bss : List Bss) (i : ℕ) (a : Option String) :
    SameBut (setBssid bss i a) bss := by
  refine List.ext_getElem? fun k => ?_
  rw [setBssid, List.getElem?_map, List.getElem?_map, List.getElem?_modify]
  by_cases hik : i = k
  · cases hk : bss[k]? <;> simp [hik]
  · cases hk : bss[k]? <;> simp [hik]

lemma bssidAt_setBssid_self (hi : i < bss.length) : bssidAt (setBssid bss i a) i = a := by
  rw [bssidAt, setBssid, List.getElem?_modify, List.getElem?_eq_getElem hi]
  simp

lemma bssidAt_setBssid_ne (hij : i ≠ j) : bssidAt (setBssid bss i a) j = bssidAt bss j := by
  rw [bssidAt, setBssid, List.getElem?_modify, bssidAt]
  cases bss[j]? <;> simp [hij]

lemma bssidAt_of_get {b : Bss} (h : bss[i]? = some b) : bssidAt bss i = b.bssid := by
  rw [bssidAt, h]
  rfl

lemma lt_of_get {b : Bss} (h : bss[i]? = some b) : i < bss.length :=
  (List.getElem?_eq_some_iff.mp h).1

lemma IsAssigned.lt (h : IsAssigned bss i) : i < bss.length := lt_of_get h.choose_spec.1

lemma not_isAssigned {b : Bss} (h : bss[i]? = some b) (hb : b.default_macaddr = true) :
    ¬ IsAssigned bss i := by
  rintro ⟨c, hc, hdefault⟩
  rw [h] at hc
  cases hc
  rw [hb] at hdefault
  cases hdefault

/-! ## The reserved addresses -/

lemma enter_cases (l : List (Bss × ℕ)) (list : MacaddrList) (y : String) :
    (l.foldl enter list y = list y ∧
        ∀ e ∈ l, e.1.default_macaddr = false → macKey e.1.bssid ≠ y) ∨
      ∃ e ∈ l, e.1.default_macaddr = false ∧ macKey e.1.bssid = y ∧
        l.foldl enter list y = some (e.2 : ℤ) := by
  induction l generalizing list with
  | nil => exact Or.inl ⟨rfl, by simp⟩
  | cons e l ih =>
    rw [List.foldl_cons]
    rcases ih (enter list e) with ⟨heq, hnone⟩ | ⟨e', he', hassigned, hkey, heq⟩
    · by_cases he : e.1.default_macaddr = false ∧ macKey e.1.bssid = y
      · refine Or.inr ⟨e, List.mem_cons_self, he.1, he.2, ?_⟩
        rw [heq, enter, if_neg (by simp [he.1]), ← he.2]
        exact Function.update_self ..
      · refine Or.inl ⟨?_, List.forall_mem_cons.mpr ⟨fun hd hk => he ⟨hd, hk⟩, hnone⟩⟩
        rw [heq, enter]
        split
        · rfl
        · rename_i hdefault
          exact Function.update_of_ne (fun hk => he ⟨by simpa using hdefault, hk.symm⟩) _ _
    · exact Or.inr ⟨e', List.mem_cons_of_mem _ he', hassigned, hkey, heq⟩

lemma macaddr_list_cases (mld : List String) (bss : List Bss) (y : String) :
    (iface_config_macaddr_list mld bss y = (if y ∈ mld then some (-1) else none) ∧
        ∀ i, IsAssigned bss i → macKey (bssidAt bss i) ≠ y) ∨
      ∃ i : ℕ, IsAssigned bss i ∧ macKey (bssidAt bss i) = y ∧
        iface_config_macaddr_list mld bss y = some (i : ℤ) := by
  rcases enter_cases bss.zipIdx (fun addr => if addr ∈ mld then some (-1) else none) y with
    ⟨heq, hnone⟩ | ⟨⟨b, i⟩, he, hassigned, hkey, heq⟩
  · refine Or.inl ⟨heq, ?_⟩
    rintro i ⟨b, hb, hdefault⟩
    rw [bssidAt_of_get hb]
    exact hnone (b, i) (List.mem_zipIdx_iff_getElem?.mpr hb) hdefault
  · have hb : bss[i]? = some b := List.mem_zipIdx_iff_getElem?.mp he
    refine Or.inr ⟨i, ⟨b, hb, hassigned⟩, ?_, heq⟩
    rw [bssidAt_of_get hb]
    exact hkey

namespace Assigned

lemma listed (h : Assigned bss mld) (hi : IsAssigned bss i) {x : String}
    (hx : bssidAt bss i = some x) : iface_config_macaddr_list mld bss x = some (i : ℤ) := by
  rcases macaddr_list_cases mld bss x with ⟨-, hnone⟩ | ⟨k, hk, hkey, heq⟩
  · exact absurd (by rw [hx]; rfl) (hnone i hi)
  · obtain ⟨y, hy, -⟩ := h.has k hk
    rw [hy] at hkey
    obtain rfl : y = x := hkey
    rw [heq, h.distinct k i hk hi (hy.trans hx.symm)]

/-- An address that is no MLD's is reserved for the BSS that is assigned it, or for nobody. -/
lemma listed_cases (h : Assigned bss mld) {x : String} (hx : x ∉ mld) :
    (iface_config_macaddr_list mld bss x = none ∧
        ∀ k, IsAssigned bss k → bssidAt bss k ≠ some x) ∨
      ∃ k : ℕ, IsAssigned bss k ∧ bssidAt bss k = some x ∧
        iface_config_macaddr_list mld bss x = some (k : ℤ) := by
  rcases macaddr_list_cases mld bss x with ⟨heq, hnone⟩ | ⟨k, hk, hkey, heq⟩
  · rw [if_neg hx] at heq
    exact Or.inl ⟨heq, fun k hk hcontra => hnone k hk (by rw [hcontra]; rfl)⟩
  · obtain ⟨y, hy, -⟩ := h.has k hk
    rw [hy] at hkey
    obtain rfl : y = x := hkey
    exact Or.inr ⟨k, hk, hy, heq⟩

end Assigned

/-! ## Which BSSes are carried over -/

/-- A BSS that is carried over keeps the address of the old one. -/
def Keeps (list : MacaddrList) (bss old : List Bss) (i j : ℕ) : Prop :=
  ∃ cur prev, bss[i]? = some cur ∧ old[j]? = some prev ∧ preserves list cur prev = true

/-- What is compared of an old BSS in step 1. -/
def sortOf (b : Bss) : Option String × Bool × Bool :=
  (b.bssid, b.default_macaddr, b.random_macaddr)

/-- The variables of a reload when step 1 has come to BSS m: the BSSes in front of it that are
carried over are different old ones, and have the address of the old one where they can keep
it. -/
structure Found (list : MacaddrList) (bss old : List Bss) (m : ℕ) (w : Work) : Prop where
  same : SameBut w.bss bss
  sorts : w.old.map sortOf = old.map sortOf
  length : w.prev_bss_hash.length = old.length
  cfg : ∀ i j, w.bss_list_cfg i = some j →
    i < m ∧ i < bss.length ∧ j < old.length ∧ w.prev_bss_hash[j]? = some none
  carried : ∀ i, (w.bss_list i).isSome = (w.bss_list_cfg i).isSome
  inj : ∀ i i' j, w.bss_list_cfg i = some j → w.bss_list_cfg i' = some j → i = i'
  kept : ∀ i j, w.bss_list_cfg i = some j → Keeps list bss old i j →
    bssidAt w.bss i = bssidAt old j ∧
      ∀ x, bssidAt old j = some x → w.macaddr_list x = some (i : ℤ)
  others : ∀ i, (∀ j, w.bss_list_cfg i = some j → ¬ Keeps list bss old i j) →
    bssidAt w.bss i = bssidAt bss i
  listed : ∀ x, (∀ i j, w.bss_list_cfg i = some j → Keeps list bss old i j →
    bssidAt old j ≠ some x) → w.macaddr_list x = list x

lemma found_init (env : Env) (mld : List String) (bss old : List Bss) (running : List Running) :
    Found (iface_config_macaddr_list mld bss) bss old 0 (Work.init env mld bss old running) where
  same := rfl
  sorts := rfl
  length := by simp [Work.init]
  cfg := fun i j h => by cases h
  carried := fun i => rfl
  inj := fun i i' j h => by cases h
  kept := fun i j h => by cases h
  others := fun i _ => rfl
  listed := fun x _ => rfl

lemma preserves_congr {list list' : MacaddrList} {cur prev cur' prev' : Bss}
    (hcur : sortOf { cur with bssid := none } = sortOf { cur' with bssid := none })
    (hprev : sortOf prev = sortOf prev')
    (hlist : list (macKey prev.bssid) = list' (macKey prev'.bssid)) :
    preserves list cur prev = preserves list' cur' prev' := by
  simp only [sortOf, Prod.mk.injEq, true_and] at hcur hprev
  rw [preserves, preserves, hlist, hcur.1, hcur.2, hprev.2.1, hprev.2.2]

namespace Found

variable {env : Env} {list : MacaddrList} {m : ℕ} {w w' : Work}

lemma skip (h : Found list bss old m w) {hashes : List (Option String)} {old' : List Bss}
    (hlength : hashes.length = old.length) (hsorts : old'.map sortOf = old.map sortOf)
    (hhashes : ∀ j : ℕ, w.prev_bss_hash[j]? = some none → hashes[j]? = some none) :
    Found list bss old (m + 1) { w with prev_bss_hash := hashes, old := old' } where
  same := h.same
  sorts := hsorts
  length := hlength
  cfg := fun i j hij =>
    ⟨Nat.lt_succ_of_lt (h.cfg i j hij).1, (h.cfg i j hij).2.1, (h.cfg i j hij).2.2.1,
      hhashes j (h.cfg i j hij).2.2.2⟩
  carried := h.carried
  inj := h.inj
  kept := h.kept
  others := h.others
  listed := h.listed

/-- The loop carries a BSS over from an old one that is not spoken for. -/
lemma carry (h : Found list bss old m w) (hold : Distinct old mld) {prev id : ℕ}
    (hm : m < bss.length) (hlt : prev < old.length)
    (hfree : ∀ i, w.bss_list_cfg i ≠ some prev) (hsorts : w'.old.map sortOf = old.map sortOf)
    (hlength : w'.prev_bss_hash.length = old.length) (hhash : w'.prev_bss_hash[prev]? = some none)
    (hhashes : ∀ j : ℕ, w.prev_bss_hash[j]? = some none → w'.prev_bss_hash[j]? = some none)
    (hlist : w'.bss_list = Function.update w.bss_list m (some id))
    (hcfg : w'.bss_list_cfg = Function.update w.bss_list_cfg m (some prev))
    (hcase : (Keeps list bss old m prev ∧ w'.bss = setBssid w.bss m (bssidAt old prev) ∧
        w'.macaddr_list =
          Function.update w.macaddr_list (macKey (bssidAt old prev)) (some (m : ℤ))) ∨
      (¬ Keeps list bss old m prev ∧ w'.bss = w.bss ∧ w'.macaddr_list = w.macaddr_list)) :
    Found list bss old (m + 1) w' := by
  obtain ⟨x, hx, -⟩ := hold.has prev hlt
  have hself : w'.bss_list_cfg m = some prev := by rw [hcfg, Function.update_self]
  have hne : ∀ i, i ≠ m → w'.bss_list_cfg i = w.bss_list_cfg i := fun i hi => by
    rw [hcfg, Function.update_of_ne hi]
  -- the addresses of the others
  have hbssid : ∀ i, i ≠ m → bssidAt w'.bss i = bssidAt w.bss i := fun i hi => by
    rcases hcase with ⟨-, hbss, -⟩ | ⟨-, hbss, -⟩ <;> rw [hbss]
    exact bssidAt_setBssid_ne (Ne.symm hi)
  have hmac : ∀ y, y ≠ x → w'.macaddr_list y = w.macaddr_list y := fun y hy => by
    rcases hcase with ⟨-, -, hmac⟩ | ⟨-, -, hmac⟩ <;> rw [hmac]
    rw [hx]
    exact Function.update_of_ne hy _ _
  have hother : ∀ i j, w.bss_list_cfg i = some j → bssidAt old j ≠ some x := fun i j hij heq =>
    hfree i (hold.distinct j prev (h.cfg i j hij).2.2.1 hlt (heq.trans hx.symm) ▸ hij)
  refine ⟨?_, hsorts, hlength, ?_, ?_, ?_, ?_, ?_, ?_⟩
  · rcases hcase with ⟨-, hbss, -⟩ | ⟨-, hbss, -⟩ <;> rw [hbss]
    · exact (sameBut_setBssid ..).trans h.same
    · exact h.same
  · intro i j hij
    by_cases hi : i = m
    · subst hi
      rw [hself] at hij
      cases hij
      exact ⟨Nat.lt_succ_self _, hm, hlt, hhash⟩
    · rw [hne i hi] at hij
      obtain ⟨him, hib, hj, hnone⟩ := h.cfg i j hij
      exact ⟨Nat.lt_succ_of_lt him, hib, hj, hhashes j hnone⟩
  · intro i
    by_cases hi : i = m
    · subst hi
      rw [hself, hlist, Function.update_self]
      rfl
    · rw [hne i hi, hlist, Function.update_of_ne hi]
      exact h.carried i
  · intro i i' j hij hij'
    by_cases hi : i = m <;> by_cases hi' : i' = m
    · rw [hi, hi']
    · subst hi
      rw [hself] at hij
      cases hij
      rw [hne i' hi'] at hij'
      exact absurd hij' (hfree i')
    · subst hi'
      rw [hself] at hij'
      cases hij'
      rw [hne i hi] at hij
      exact absurd hij (hfree i)
    · rw [hne i hi] at hij
      rw [hne i' hi'] at hij'
      exact h.inj i i' j hij hij'
  · intro i j hij hkeeps
    by_cases hi : i = m
    · subst hi
      rw [hself] at hij
      cases hij
      rcases hcase with ⟨-, hbss, hmac'⟩ | ⟨hnot, -⟩
      · refine ⟨?_, fun y hy => ?_⟩
        · rw [hbss]
          exact bssidAt_setBssid_self (h.same.length ▸ hm)
        · rw [hmac', hy]
          exact Function.update_self ..
      · exact absurd hkeeps hnot
    · rw [hne i hi] at hij
      obtain ⟨haddr, hlisted⟩ := h.kept i j hij hkeeps
      refine ⟨(hbssid i hi).trans haddr, fun y hy => ?_⟩
      rw [hmac y fun heq => hother i j hij (heq ▸ hy)]
      exact hlisted y hy
  · intro i hnot
    by_cases hi : i = m
    · subst hi
      rcases hcase with ⟨hkeeps, -⟩ | ⟨-, hbss, -⟩
      · exact absurd hkeeps (hnot prev hself)
      · rw [hbss]
        exact h.others i fun j hij => absurd (h.cfg i j hij).1 (lt_irrefl i)
    · rw [hbssid i hi]
      exact h.others i fun j hij => hnot j (by rw [hne i hi]; exact hij)
  · intro y hy
    by_cases hyx : y = x
    · subst hyx
      rcases hcase with ⟨hkeeps, -⟩ | ⟨-, -, hmac'⟩
      · exact absurd hx (hy m prev hself hkeeps)
      · rw [hmac']
        exact h.listed y fun i j hij _ => hother i j hij
    · rw [hmac y hyx]
      refine h.listed y fun i j hij hkeeps => ?_
      have hi : i ≠ m := fun heq => absurd (h.cfg i j hij).1 (heq ▸ lt_irrefl m)
      exact hy i j (by rw [hne i hi]; exact hij) hkeeps

lemma bss_find_existing_spec {config : Bss} {hashes : List (Option String)} {prev : ℕ}
    (h : bss_find_existing env config hashes = some prev) :
    hashes[prev]? = some (some (bss_config_hash env config.data)) := by
  obtain ⟨hlt, heq, -⟩ := List.findIdx?_eq_some_iff_getElem.mp h
  rw [List.getElem?_eq_getElem hlt]
  simpa using heq

/-- Step 1 for a BSS. -/
lemma step (h : Found list bss old m w) (hold : Distinct old mld) (hm : m < bss.length)
    (hreuse : reuse env w m = some w') : Found list bss old (m + 1) w' := by
  rw [reuse] at hreuse
  obtain ⟨cur, hcur, hreuse⟩ := Option.bind_eq_some_iff.mp hreuse
  split at hreuse
  · cases hreuse
    exact h.skip h.length h.sorts fun _ hj => hj
  · rename_i prev hfound
    obtain ⟨prev_config, hprev, hreuse⟩ := Option.bind_eq_some_iff.mp hreuse
    have hprev' : w.old[prev]? = some prev_config := hprev
    have hsorts := h.sorts
    have hmap := congrArg (fun l => l[prev]?) hsorts
    simp only [List.getElem?_map, hprev', Option.map_some] at hmap
    obtain ⟨orig, horig, hsort⟩ := Option.map_eq_some_iff.mp hmap.symm
    have hlt : prev < old.length := lt_of_get horig
    have hset : (w.prev_bss_hash.set prev none)[prev]? = some none := by
      simp [h.length, hlt]
    have hsets : ∀ j : ℕ, w.prev_bss_hash[j]? = some none →
        (w.prev_bss_hash.set prev none)[j]? = some none := fun j hj => by
      by_cases hjp : prev = j
      · exact hjp ▸ hset
      · rwa [List.getElem?_set_ne hjp]
    split at hreuse
    · cases hreuse
      refine h.skip (by rw [List.length_set, h.length]) ?_ hsets
      rw [← hsorts]
      refine List.ext_getElem? fun k => ?_
      rw [List.getElem?_map, List.getElem?_map, List.getElem?_modify]
      cases w.old[k]? with
      | none => rfl
      | some b => by_cases hk : prev = k <;> simp [hk, sortOf]
    · obtain ⟨id, -, heq⟩ := Option.map_eq_some_iff.mp hreuse
      have hfree : ∀ i, w.bss_list_cfg i ≠ some prev := fun i hi => by
        obtain ⟨him, -, -, hnone⟩ := h.cfg i prev hi
        split at hfound
        · rename_i hfirst
          omega
        · rw [bss_find_existing_spec hfound] at hnone
          cases hnone
      obtain ⟨b, hb⟩ : ∃ b, bss[m]? = some b := ⟨_, List.getElem?_eq_getElem hm⟩
      obtain ⟨x, hx, -⟩ := hold.has prev hlt
      have hbssid : prev_config.bssid = bssidAt old prev := by
        rw [bssidAt_of_get horig]
        exact (congrArg Prod.fst hsort).symm
      have hpreserves : preserves w.macaddr_list cur prev_config = preserves list b orig := by
        have hcur' := h.same.get hb
        rw [hcur] at hcur'
        cases hcur'
        refine preserves_congr rfl hsort.symm ?_
        rw [hbssid, ← bssidAt_of_get horig, hx]
        refine h.listed x fun i j hij _ heq' => hfree i ?_
        exact hold.distinct j prev (h.cfg i j hij).2.2.1 hlt (heq'.trans hx.symm) ▸ hij
      have hkeeps : Keeps list bss old m prev ↔ preserves list b orig = true := by
        constructor
        · rintro ⟨b', orig', hb', horig', hkeep⟩
          rw [hb] at hb'
          rw [horig] at horig'
          cases hb'
          cases horig'
          exact hkeep
        · exact fun hkeep => ⟨b, orig, hb, horig, hkeep⟩
      rw [hpreserves] at heq
      by_cases hkeep : preserves list b orig = true
      · rw [if_pos hkeep] at heq
        subst heq
        refine h.carry hold hm hlt hfree hsorts (by simpa [Work.carry, Work.preserve] using h.length)
          hset hsets rfl rfl (Or.inl ⟨hkeeps.mpr hkeep, ?_, ?_⟩)
        · rw [← hbssid]
          rfl
        · rw [← hbssid]
          rfl
      · rw [if_neg hkeep] at heq
        subst heq
        exact h.carry hold hm hlt hfree hsorts (by simpa [Work.carry] using h.length) hset hsets rfl
          rfl (Or.inr ⟨fun hcontra => hkeep (hkeeps.mp hcontra), rfl, rfl⟩)

end Found

end Ap
