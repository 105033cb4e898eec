import Mt798x.Hnat.Track

/-!
# The places of the groups

The invariant that each bound group has a place of its own, with a flow entry for its address, and
that no other group is disturbed when one is updated.
-/

namespace Hnat

variable {cfg : Cfg} {dev : IfIndex → Option Dev} {g g' : Group} {hw hw' : Hw} {ppe idx : ℕ}
  {place : FoeRef} {groups groups' pre post : List Group}

/-- Each group has its own address and MAC; a bound group has a flow entry for its address, and no
two groups have the same. -/
structure Places (groups : List Group) (hw : Hw) : Prop where
  nodup : (groups.map Group.ip).Nodup
  mac : ∀ g ∈ groups, g.mac = getMacFromMdb g.ip
  key : ∀ g ∈ groups, ∀ ppe idx, g.At ppe idx → (hw.foe ppe idx).key = some g.ip
  apart : ∀ g ∈ groups, ∀ g' ∈ groups, ∀ ppe idx, g.At ppe idx → g'.At ppe idx → g.ip = g'.ip

namespace Places

lemma perm (h : Places groups hw) (hp : groups.Perm groups') : Places groups' hw := by
  have hmem : ∀ g, g ∈ groups' ↔ g ∈ groups := fun g => hp.mem_iff.symm
  refine ⟨(hp.map Group.ip).nodup_iff.mp h.nodup, ?_, ?_, ?_⟩
  · simpa only [hmem] using h.mac
  · simpa only [hmem] using h.key
  · simpa only [hmem] using h.apart

lemma middle (h : Places (pre ++ g :: post) hw) : Places (g :: (pre ++ post)) hw :=
  h.perm List.perm_middle

lemma ip_ne (h : Places (pre ++ g :: post) hw) : ∀ x ∈ pre ++ post, x.ip ≠ g.ip := by
  intro x hx hip
  have hnot := (List.nodup_cons.mp h.middle.nodup).1
  exact hnot (hip ▸ List.mem_map_of_mem hx)

lemma place_ne (h : Places (pre ++ g :: post) hw) :
    ∀ x ∈ pre ++ post, ∀ ppe idx, x.At ppe idx → getHwFoe g ≠ some (ppe, idx) := by
  intro x hx ppe idx hat href
  refine h.ip_ne x hx (h.middle.apart x (List.mem_cons_of_mem _ hx) g (by simp) ppe idx hat ?_)
  exact getHwFoe_eq_some.mp href

/-- The step of a group, when no other group is at the place that it changes. -/
lemma step (h : Places (pre ++ g :: post) hw) (hs : FlowStep dev place g hw g' hw')
    (hfree : ∀ x ∈ pre ++ post, ∀ ppe idx, x.At ppe idx → place ≠ some (ppe, idx)) :
    Places (pre ++ g' :: post) hw' := by
  suffices hcons : Places (g' :: (pre ++ post)) hw' from hcons.perm List.perm_middle.symm
  have h' := h.middle
  have hkey : ∀ x ∈ pre ++ post, ∀ ppe idx, x.At ppe idx → (hw'.foe ppe idx).key = some x.ip := by
    intro x hx ppe idx hat
    rw [(hs.kept ppe idx (hfree x hx ppe idx hat)).key]
    exact h'.key x (List.mem_cons_of_mem _ hx) ppe idx hat
  refine ⟨?_, ?_, ?_, ?_⟩
  · simpa [hs.same.ip] using h'.nodup
  · intro x hx
    rcases List.mem_cons.mp hx with rfl | hx
    · rw [hs.same.mac, hs.same.ip]
      exact h'.mac g (by simp)
    · exact h'.mac x (List.mem_cons_of_mem _ hx)
  · intro x hx ppe idx hat
    rcases List.mem_cons.mp hx with rfl | hx
    · rw [hs.same.ip]
      exact (hs.lands ppe idx hat).2.1
    · exact hkey x hx ppe idx hat
  · intro x hx y hy ppe idx hxat hyat
    rcases List.mem_cons.mp hx with rfl | hx' <;> rcases List.mem_cons.mp hy with rfl | hy'
    · rfl
    · exact absurd (hs.lands ppe idx hxat).1 (hfree y hy' ppe idx hyat)
    · exact absurd (hs.lands ppe idx hyat).1 (hfree x hx' ppe idx hxat)
    · exact h'.apart x (List.mem_cons_of_mem _ hx') y (List.mem_cons_of_mem _ hy') ppe idx hxat hyat

lemma congr (h : Places (pre ++ g :: post) hw) (hip : g'.ip = g.ip) (hmac : g'.mac = g.mac)
    (hstays : g.Stays g') : Places (pre ++ g' :: post) hw := by
  suffices hcons : Places (g' :: (pre ++ post)) hw from hcons.perm List.perm_middle.symm
  have h' := h.middle
  refine ⟨by simpa [hip] using h'.nodup, ?_, ?_, ?_⟩
  · have hm := h'.mac
    simp only [List.forall_mem_cons] at hm ⊢
    exact ⟨by rw [hmac, hip]; exact hm.1, hm.2⟩
  · have hk := h'.key
    simp only [List.forall_mem_cons] at hk ⊢
    exact ⟨fun ppe idx hat => by rw [hip]; exact hk.1 ppe idx (hstays.at_iff.mp hat), hk.2⟩
  · have ha := h'.apart
    simpa only [List.forall_mem_cons, hstays.at_iff, hip] using ha

lemma station (h : Places (pre ++ g :: post) hw) (type : Mdb) (ifindex : IfIndex) :
    Places (pre ++ g.station type ifindex :: post) hw := by
  refine h.congr (by simp) ?_ ?_ <;> cases type
  · rfl
  · rfl
  · exact ⟨rfl, rfl⟩
  · exact ⟨rfl, rfl⟩

lemma free (h : Places (pre ++ g :: post) hw) : Places (pre ++ post) hw := by
  have h' := h.middle
  exact ⟨(List.nodup_cons.mp h'.nodup).2, fun x hx => h'.mac x (List.mem_cons_of_mem _ hx),
    fun x hx => h'.key x (List.mem_cons_of_mem _ hx),
    fun x hx y hy => h'.apart x (List.mem_cons_of_mem _ hx) y (List.mem_cons_of_mem _ hy)⟩

lemma create_not_at (ip : Ip) (ppe idx : ℕ) : ¬ (createGroup ip).At ppe idx := by
  rintro ⟨hppe, _⟩
  cases hppe

lemma create (h : Places (pre ++ post) hw) {ip : Ip} (hip : ∀ x ∈ pre ++ post, x.ip ≠ ip) :
    Places (pre ++ createGroup ip :: post) hw := by
  suffices hcons : Places (createGroup ip :: (pre ++ post)) hw from hcons.perm List.perm_middle.symm
  refine ⟨?_, ?_, ?_, ?_⟩
  · refine List.nodup_cons.mpr ⟨fun hmem => ?_, h.nodup⟩
    obtain ⟨x, hx, hxip⟩ := List.mem_map.mp hmem
    exact hip x hx hxip
  · exact List.forall_mem_cons.mpr ⟨rfl, h.mac⟩
  · exact List.forall_mem_cons.mpr ⟨fun ppe idx hat => absurd hat (create_not_at ip ppe idx), h.key⟩
  · intro x hx y hy ppe idx hxat hyat
    rcases List.mem_cons.mp hx with rfl | hx
    · exact absurd hxat (create_not_at ip ppe idx)
    rcases List.mem_cons.mp hy with rfl | hy
    · exact absurd hyat (create_not_at ip ppe idx)
    exact h.apart x hx y hy ppe idx hxat hyat

lemma withGroup (h : Places groups hw) (ip : Ip) : Places (withGroup groups ip) hw := by
  rcases withGroup_cases groups ip with heq | ⟨hip, heq⟩
  · rwa [heq]
  · rw [heq]
    have happ : Places (groups ++ []) hw := by rwa [List.append_nil]
    exact happ.create (by simpa using hip)

/-- The table of flow entries may change as long as the entries of bound groups keep their keys. -/
lemma of_key (h : Places groups hw)
    (hkey : ∀ g ∈ groups, ∀ ppe idx, g.At ppe idx → (hw'.foe ppe idx).key = (hw.foe ppe idx).key) :
    Places groups hw' :=
  ⟨h.nodup, h.mac, fun g hg ppe idx hat => (hkey g hg ppe idx hat).trans (h.key g hg ppe idx hat),
    h.apart⟩

lemma unbind (h : Places (pre ++ g :: post) hw) (hsame : g.Same g')
    (hnot : ∀ ppe idx, ¬ g'.At ppe idx) (hkept : FoeKept none hw hw') :
    Places (pre ++ g' :: post) hw' := by
  have hs : FlowStep (fun _ => none) none g hw g' hw' :=
    ⟨hsame, hkept, fun ppe idx hat => absurd hat (hnot ppe idx)⟩
  exact h.step hs fun _ _ _ _ _ => by simp

end Places

end Hnat
