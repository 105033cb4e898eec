import Mt798x.Ap.Reload

/-!
# What runs as which BSS

The list of running BSSes is read as a table: as BSS i of the configuration runs an object of
hostapd, under a name and with a configuration.  Renaming, adding, configuring and ordering are
updates of the table.
-/

namespace Ap

/-- The running BSSes are the ones of a table. -/
structure Placed (running : List Running) (list : ℕ → Option ℕ) (name : ℕ → String)
    (conf : ℕ → Conf) : Prop where
  nodup : (running.map Running.id).Nodup
  mem : ∀ r ∈ running, ∃ i, list i = some r.id
  runs : ∀ i id, list i = some id → ∃ r ∈ running, r.id = id ∧ r.ifname = name i ∧ r.conf = conf i
  inj : ∀ i j id, list i = some id → list j = some id → i = j

variable {running : List Running} {id : ℕ}

lemma eq_of_id (h : (running.map Running.id).Nodup) {r r' : Running} (hr : r ∈ running)
    (hr' : r' ∈ running) (heq : r.id = r'.id) : r = r' :=
  List.inj_on_of_nodup_map h hr hr' heq

@[simp] lemma map_id_configure (f : Conf → Conf) :
    (configure running id f).map Running.id = running.map Running.id := by
  rw [configure, List.map_map]
  refine List.map_congr_left fun r _ => ?_
  simp only [Function.comp_apply]
  split <;> rfl

lemma configure_id : configure running id (fun c => c) = running := by
  refine (List.map_congr_left fun r _ => ?_).trans (List.map_id running)
  split <;> rfl

lemma configure_configure (f g : Conf → Conf) :
    configure (configure running id f) id g = configure running id fun c => g (f c) := by
  rw [configure, configure, configure, List.map_map]
  refine List.map_congr_left fun r _ => ?_
  by_cases hr : r.id = id
  · simp [hr]
  · simp [hr]

namespace Placed

variable {list : ℕ → Option ℕ} {name : ℕ → String} {conf : ℕ → Conf} {i n : ℕ}

lemma congr {name' : ℕ → String} {conf' : ℕ → Conf} (h : Placed running list name conf)
    (hname : ∀ i, (list i).isSome → name' i = name i)
    (hconf : ∀ i, (list i).isSome → conf' i = conf i) : Placed running list name' conf' where
  nodup := h.nodup
  mem := h.mem
  inj := h.inj
  runs := fun i id hi => by
    rw [hname i (by rw [hi]; rfl), hconf i (by rw [hi]; rfl)]
    exact h.runs i id hi

lemma inUse_iff (h : Placed running list name conf) (new : String) :
    inUse running new = true ↔ ∃ i, (list i).isSome ∧ name i = new := by
  rw [inUse, List.any_eq_true]
  simp only [decide_eq_true_eq]
  constructor
  · rintro ⟨r, hr, rfl⟩
    obtain ⟨i, hi⟩ := h.mem r hr
    obtain ⟨r', hr', hid, hname, -⟩ := h.runs i r.id hi
    refine ⟨i, by rw [hi]; rfl, ?_⟩
    rw [← hname, eq_of_id h.nodup hr' hr hid]
  · rintro ⟨i, hi, rfl⟩
    obtain ⟨id, hid⟩ := Option.isSome_iff_exists.mp hi
    obtain ⟨r, hr, -, hname, -⟩ := h.runs i id hid
    exact ⟨r, hr, hname⟩

/-- A BSS is renamed to a name that is not in use. -/
lemma rename (h : Placed running list name conf) (hi : list i = some id) {new : String}
    (hfree : ∀ k, (list k).isSome → name k ≠ new) :
    ∃ running', Ap.rename running id new = some running' ∧
      Placed running' list (Function.update name i new) conf := by
  have hnot : inUse running new = false := by
    rw [Bool.eq_false_iff, Ne, h.inUse_iff]
    rintro ⟨k, hk, heq⟩
    exact hfree k hk heq
  have hids : (running.map fun r => if r.id = id then { r with ifname := new } else r).map
      Running.id = running.map Running.id := by
    rw [List.map_map]
    refine List.map_congr_left fun r _ => ?_
    simp only [Function.comp_apply]
    split <;> rfl
  refine ⟨_, by rw [Ap.rename, hnot]; rfl, ?_, ?_, ?_, h.inj⟩
  · rw [hids]
    exact h.nodup
  · intro r hr
    obtain ⟨r', hr', heq⟩ := List.mem_map.mp hr
    obtain ⟨k, hk⟩ := h.mem r' hr'
    refine ⟨k, ?_⟩
    rw [hk, ← heq]
    split <;> rfl
  · intro k kid hk
    obtain ⟨r, hr, hid, hname, hconf⟩ := h.runs k kid hk
    refine ⟨_, List.mem_map.mpr ⟨r, hr, rfl⟩, ?_⟩
    by_cases hki : k = i
    · subst hki
      rw [hi] at hk
      cases hk
      simp [hid, hconf]
    · have hne : r.id ≠ id := fun heq => hki (h.inj k i id (by rw [hk, ← hid, heq]) hi)
      rw [if_neg hne]
      exact ⟨hid, by simp [hki, hname], hconf⟩

/-- A BSS is added under a name that is not in use, as a new object. -/
lemma add (h : Placed running list name conf) {bss : Bss} (hi : list i = none)
    (hnew : ∀ k, list k ≠ some id) (hfree : ∀ k, (list k).isSome → name k ≠ bss.ifname) :
    ∃ running', add_bss running id bss = some running' ∧
      Placed running' (Function.update list i (some id)) (Function.update name i bss.ifname)
        (Function.update conf i bss.conf) := by
  have hnot : inUse running bss.ifname = false := by
    rw [Bool.eq_false_iff, Ne, h.inUse_iff]
    rintro ⟨k, hk, heq⟩
    exact hfree k hk heq
  have hids : id ∉ running.map Running.id := by
    intro hmem
    obtain ⟨r, hr, heq⟩ := List.mem_map.mp hmem
    obtain ⟨k, hk⟩ := h.mem r hr
    exact hnew k (heq ▸ hk)
  have hother : ∀ k kid, list k = some kid → k ≠ i := by
    rintro k kid hk rfl
    rw [hi] at hk
    cases hk
  refine ⟨_, by rw [add_bss, hnot]; rfl, ?_, ?_, ?_, ?_⟩
  · rw [List.map_append]
    exact h.nodup.append (by simp) (by simpa using hids)
  · intro r hr
    rcases List.mem_append.mp hr with hr | hr
    · obtain ⟨k, hk⟩ := h.mem r hr
      exact ⟨k, by rw [Function.update_of_ne (hother k _ hk), hk]⟩
    · rw [List.mem_singleton.mp hr]
      exact ⟨i, Function.update_self ..⟩
  · intro k kid hk
    by_cases hki : k = i
    · subst hki
      rw [Function.update_self] at hk
      cases hk
      exact ⟨_, List.mem_append_right _ (List.mem_singleton_self _), rfl, by simp, by simp⟩
    · rw [Function.update_of_ne hki] at hk
      obtain ⟨r, hr, hid, hname, hconf⟩ := h.runs k kid hk
      exact ⟨r, List.mem_append_left _ hr, hid, by simp [hki, hname], by simp [hki, hconf]⟩
  · intro k k' kid hk hk'
    by_cases hki : k = i <;> by_cases hki' : k' = i
    · rw [hki, hki']
    · subst hki
      rw [Function.update_self] at hk
      rw [Function.update_of_ne hki'] at hk'
      cases hk
      exact absurd hk' (hnew k')
    · subst hki'
      rw [Function.update_self] at hk'
      rw [Function.update_of_ne hki] at hk
      cases hk'
      exact absurd hk (hnew k)
    · rw [Function.update_of_ne hki] at hk
      rw [Function.update_of_ne hki'] at hk'
      exact h.inj k k' kid hk hk'

lemma configure (h : Placed running list name conf) (hi : list i = some id) (f : Conf → Conf) :
    Placed (Ap.configure running id f) list name (Function.update conf i (f (conf i))) := by
  refine ⟨?_, ?_, ?_, h.inj⟩
  · rw [map_id_configure]
    exact h.nodup
  · intro r hr
    obtain ⟨r', hr', heq⟩ := List.mem_map.mp hr
    obtain ⟨k, hk⟩ := h.mem r' hr'
    refine ⟨k, ?_⟩
    rw [hk, ← heq]
    split <;> rfl
  · intro k kid hk
    obtain ⟨r, hr, hid, hname, hconf⟩ := h.runs k kid hk
    refine ⟨_, List.mem_map.mpr ⟨r, hr, rfl⟩, ?_⟩
    by_cases hki : k = i
    · subst hki
      rw [hi] at hk
      cases hk
      simp [hid, hname, hconf]
    · have hne : r.id ≠ id := fun heq => hki (h.inj k i id (by rw [hk, ← hid, heq]) hi)
      rw [if_neg hne]
      exact ⟨hid, hname, by simp [hki, hconf]⟩

lemma map_find (ids : List ℕ) (hall : ∀ id ∈ ids, ∃ r ∈ running, r.id = id) :
    (ids.filterMap fun id => running.find? fun r => r.id = id).map Running.id = ids := by
  induction ids with
  | nil => rfl
  | cons id ids ih =>
    obtain ⟨r, hr, hid⟩ := hall id List.mem_cons_self
    have hsome : (running.find? fun r => r.id = id).isSome :=
      List.find?_isSome.mpr ⟨r, hr, by simpa using hid⟩
    obtain ⟨found, hfound⟩ := Option.isSome_iff_exists.mp hsome
    have heq : found.id = id := by simpa using List.find?_some hfound
    simp only [List.filterMap_cons, hfound, List.map_cons, heq]
    rw [ih fun id h => hall id (List.mem_cons_of_mem _ h)]

/-- The BSSes are put in the order of the table. -/
lemma order (h : Placed running list name conf) (hlist : ∀ i, (list i).isSome ↔ i < n) :
    ∃ running', set_bss_order running ((List.range n).filterMap list) = some running' ∧
      Placed running' list name conf ∧
      running'.map Running.id = (List.range n).filterMap list := by
  have hmem : ∀ id, id ∈ (List.range n).filterMap list ↔ ∃ i, list i = some id := by
    intro id
    rw [List.mem_filterMap]
    constructor
    · rintro ⟨i, -, hi⟩
      exact ⟨i, hi⟩
    · rintro ⟨i, hi⟩
      exact ⟨i, List.mem_range.mpr ((hlist i).mp (by rw [hi]; rfl)), hi⟩
  have hnodup : ((List.range n).filterMap list).Nodup :=
    List.nodup_range.filterMap fun i j id hi hj => h.inj i j id hi hj
  have hall : ∀ id ∈ (List.range n).filterMap list, ∃ r ∈ running, r.id = id := fun id hid => by
    obtain ⟨i, hi⟩ := (hmem id).mp hid
    obtain ⟨r, hr, heq, -⟩ := h.runs i id hi
    exact ⟨r, hr, heq⟩
  have hperm : ((List.range n).filterMap list).Perm (running.map Running.id) := by
    refine (List.perm_ext_iff_of_nodup hnodup h.nodup).mpr fun id => ?_
    constructor
    · intro hid
      obtain ⟨r, hr, rfl⟩ := hall id hid
      exact List.mem_map_of_mem hr
    · intro hid
      obtain ⟨r, hr, rfl⟩ := List.mem_map.mp hid
      exact (hmem r.id).mpr (h.mem r hr)
  have hlength : ((List.range n).filterMap list).length = running.length := by
    rw [hperm.length_eq, List.length_map]
  have hids := map_find _ hall
  refine ⟨_, by rw [set_bss_order, if_pos ⟨hlength, hnodup, hall⟩], ⟨?_, ?_, ?_, h.inj⟩, hids⟩
  · rw [hids]
    exact hnodup
  · intro r hr
    refine (hmem r.id).mp ?_
    rw [← hids]
    exact List.mem_map_of_mem hr
  · intro i id hi
    obtain ⟨r, hr, hid, hname, hconf⟩ := h.runs i id hi
    refine ⟨r, List.mem_filterMap.mpr ⟨id, (hmem id).mpr ⟨i, hi⟩, ?_⟩, hid, hname, hconf⟩
    have hsome : (running.find? fun r => r.id = id).isSome :=
      List.find?_isSome.mpr ⟨r, hr, by simpa using hid⟩
    obtain ⟨found, hfound⟩ := Option.isSome_iff_exists.mp hsome
    have heq : found.id = id := by simpa using List.find?_some hfound
    rw [hfound, eq_of_id h.nodup (List.mem_of_find?_eq_some hfound) hr (heq.trans hid.symm)]

lemma read (h : Placed running list name conf) (hlist : ∀ i, (list i).isSome ↔ i < n)
    (hids : running.map Running.id = (List.range n).filterMap list) :
    running.map (fun r => (r.ifname, r.conf)) = (List.range n).map fun i => (name i, conf i) := by
  have hmap : (List.range n).filterMap list = (List.range n).map fun i => (list i).getD 0 := by
    rw [← List.filterMap_eq_map]
    refine List.filterMap_congr fun i hi => ?_
    obtain ⟨id, hid⟩ := Option.isSome_iff_exists.mp ((hlist i).mpr (List.mem_range.mp hi))
    simp [hid]
  rw [hmap] at hids
  have hlength : running.length = n := by simpa using congrArg List.length hids
  refine List.ext_getElem (by simp [hlength]) fun i hi hi' => ?_
  have hin : i < n := by simpa using hi'
  have hirun : i < running.length := by omega
  obtain ⟨id, hid⟩ := Option.isSome_iff_exists.mp ((hlist i).mpr hin)
  obtain ⟨r, hr, heq, hname, hconf⟩ := h.runs i id hid
  have hget := congrArg (fun l => l[i]?) hids
  simp only [List.getElem?_map, List.getElem?_eq_getElem hirun, List.getElem?_range hin,
    Option.map_some, hid, Option.getD_some, Option.some.injEq] at hget
  have hsame : running[i] = r := eq_of_id h.nodup (List.getElem_mem hirun) hr (hget.trans heq.symm)
  simp [hsame, hname, hconf]

end Placed

end Ap
