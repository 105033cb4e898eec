import Mt798x.Hnat.Rows

/-!
# Who owns a row of the multicast table

`Owned` is the invariant that each row that is not zero has one owner.  It survives every event
that does not unbind or free a group that still holds a row, and does not move such a group to
another PPE.
-/

namespace Hnat

/-! ## The invariant -/

/-- The row of a group's address with the given ports. -/
def macRow (px : Bmp) (ip : Ip) : Slot :=
  match ip with
  | .v4 _ => ⟨px, 0, dmacToLo32 (getMacFromMdb ip)⟩
  | .v6 _ _ _ _ => ⟨px, 1, dmacToLo32 (getMacFromMdb ip)⟩

lemma setHnatMtbl_mac (hw : Hw) (ip : Ip) (idx ppe : ℕ) (px : Bmp) :
    setHnatMtbl hw (getMacFromMdb ip) idx ppe px = hw.setSlot ppe idx (macRow px ip) := by
  cases ip <;> simp [setHnatMtbl, dmacToHi16, getMacFromMdb, macRow]

lemma macRow_ne_zero (px : Bmp) (ip : Ip) : macRow px ip ≠ Slot.zero := by
  intro h
  cases ip with
  | v4 ip =>
    have haddr := congrArg Slot.addr h
    simp [macRow, dmacToLo32, getMacFromMdb, Slot.zero] at haddr
  | v6 w0 w1 w2 w3 =>
    have hsel := congrArg Slot.sel h
    simp [macRow, Slot.zero] at hsel

@[simp] lemma Hw.setSlot_self (hw : Hw) (ppe idx : ℕ) (slot : Slot) :
    (hw.setSlot ppe idx slot).slots ppe idx = slot := by
  simp [Hw.setSlot]

lemma Hw.setSlot_ne (hw : Hw) {ppe idx ppe' idx' : ℕ} (slot : Slot)
    (h : ¬ (ppe' = ppe ∧ idx' = idx)) :
    (hw.setSlot ppe idx slot).slots ppe' idx' = hw.slots ppe' idx' := by
  by_cases hppe : ppe' = ppe
  · subst hppe
    have hidx : idx' ≠ idx := fun hidx => h ⟨rfl, hidx⟩
    simp [Hw.setSlot, hidx]
  · simp [Hw.setSlot, hppe]

/-- Every row that is not zero is held by one group, and a group that has a row has one that
carries its MAC. -/
structure Owned (groups : List Group) (hw : Hw) : Prop where
  nodup : (groups.map Group.ip).Nodup
  mac : ∀ g ∈ groups, g.mac = getMacFromMdb g.ip
  ppe : ∀ g ∈ groups, g.mtblIdx ≠ none → g.ppeId ≠ none
  carries : ∀ g ∈ groups, ∀ ppe idx, g.Holds ppe idx → ∃ px, hw.slots ppe idx = macRow px g.ip
  owner : ∀ ppe idx, hw.slots ppe idx ≠ Slot.zero → ∃ g ∈ groups, g.Holds ppe idx
  single : ∀ g ∈ groups, ∀ g' ∈ groups, ∀ ppe idx, g.Holds ppe idx → g'.Holds ppe idx → g.ip = g'.ip

namespace Owned

variable {groups groups' pre post : List Group} {g g' : Group} {hw hw' : Hw}

lemma perm (h : Owned groups hw) (hp : groups.Perm groups') : Owned groups' hw := by
  have hmem : ∀ g, g ∈ groups' ↔ g ∈ groups := fun g => hp.mem_iff.symm
  refine ⟨(hp.map Group.ip).nodup_iff.mp h.nodup, ?_, ?_, ?_, ?_, ?_⟩
  · simpa only [hmem] using h.mac
  · simpa only [hmem] using h.ppe
  · simpa only [hmem] using h.carries
  · simpa only [hmem] using h.owner
  · simpa only [hmem] using h.single

lemma of_slots (h : Owned groups hw) (hslots : hw'.slots = hw.slots) : Owned groups hw' :=
  ⟨h.nodup, h.mac, h.ppe, by rw [hslots]; exact h.carries, by rw [hslots]; exact h.owner, h.single⟩

lemma eq_of_ip (h : Owned groups hw) (hg : g ∈ groups) (hg' : g' ∈ groups) (hip : g.ip = g'.ip) :
    g = g' :=
  List.inj_on_of_nodup_map h.nodup hg hg' hip

/-- The invariant is about the addresses, the MACs and the rows of the groups. -/
lemma cons_congr (h : Owned (g :: groups) hw) (hip : g'.ip = g.ip) (hmac : g'.mac = g.mac)
    (hidx : g'.mtblIdx = g.mtblIdx) (hppe : g.mtblIdx ≠ none → g'.ppeId = g.ppeId) :
    Owned (g' :: groups) hw := by
  have hholds : ∀ ppe idx, g'.Holds ppe idx ↔ g.Holds ppe idx := by
    intro ppe idx
    rw [Group.Holds, Group.Holds, hidx]
    refine and_congr_right fun hg => ?_
    rw [hppe (by simp [hg])]
  refine ⟨by simpa [hip] using h.nodup, ?_, ?_, ?_, ?_, ?_⟩
  · have h' := h.mac
    simp only [List.forall_mem_cons] at h' ⊢
    exact ⟨by rw [hmac, hip]; exact h'.1, h'.2⟩
  · have h' := h.ppe
    simp only [List.forall_mem_cons] at h' ⊢
    refine ⟨fun hg => ?_, h'.2⟩
    rw [hidx] at hg
    rw [hppe hg]
    exact h'.1 hg
  · have h' := h.carries
    simp only [List.forall_mem_cons] at h' ⊢
    exact ⟨fun ppe idx hg => by rw [hip]; exact h'.1 ppe idx ((hholds ppe idx).mp hg), h'.2⟩
  · intro ppe idx hslot
    have h' := h.owner ppe idx hslot
    simpa only [List.exists_mem_cons_iff, hholds] using h'
  · have h' := h.single
    simpa only [List.forall_mem_cons, hholds, hip] using h'

lemma cons_step (h : Owned (g :: groups) hw) (hs : RowStep g hw g' hw') :
    Owned (g' :: groups) hw' := by
  have hsame := hs.same
  have hnodup : ((g' :: groups).map Group.ip).Nodup := by
    simpa [hsame.ip] using h.nodup
  have hmac : ∀ x ∈ g' :: groups, x.mac = getMacFromMdb x.ip := by
    intro x hx
    rcases List.mem_cons.mp hx with rfl | hx
    · rw [hsame.mac, hsame.ip]
      exact h.mac g (by simp)
    · exact h.mac x (List.mem_cons_of_mem _ hx)
  have hne : ∀ x ∈ groups, g.ip ≠ x.ip := by
    intro x hx hip
    have hnot := (List.nodup_cons.mp h.nodup).1
    exact hnot (hip ▸ List.mem_map_of_mem hx)
  -- The rows of the other groups are not the group's.
  have hother : ∀ x ∈ groups, ∀ ppe idx, g.Holds ppe idx → ¬ x.Holds ppe idx := fun x hx ppe idx hg hx' =>
    hne x hx (h.single g (by simp) x (List.mem_cons_of_mem _ hx) ppe idx hg hx')
  cases hs with
  | kept hk => exact (h.cons_congr hsame.ip hsame.mac hk.mtblIdx hk.ppeId).of_slots hk.slots
  | released ppe idx _ hold hidx hslots =>
    have hnone : ∀ ppe idx, ¬ g'.Holds ppe idx := by
      rintro ppe idx ⟨hidx', _⟩
      rw [hidx] at hidx'
      cases hidx'
    refine ⟨hnodup, hmac, ?_, ?_, ?_, ?_⟩
    · intro x hx hidx'
      rcases List.mem_cons.mp hx with rfl | hx
      · exact absurd hidx hidx'
      · exact h.ppe x (List.mem_cons_of_mem _ hx) hidx'
    · intro x hx p i hxh
      rcases List.mem_cons.mp hx with rfl | hx
      · exact absurd hxh (hnone p i)
      · rw [hslots, Hw.setSlot_ne]
        · exact h.carries x (List.mem_cons_of_mem _ hx) p i hxh
        · rintro ⟨rfl, rfl⟩
          exact hother x hx p i hold hxh
    · intro p i hslot
      rw [hslots] at hslot
      by_cases heq : p = ppe ∧ i = idx
      · obtain ⟨rfl, rfl⟩ := heq
        exact absurd (Hw.setSlot_self hw p i Slot.zero) hslot
      · rw [Hw.setSlot_ne hw _ heq] at hslot
        obtain ⟨x, hx, hxh⟩ := h.owner p i hslot
        rcases List.mem_cons.mp hx with rfl | hx
        · refine absurd ⟨?_, ?_⟩ heq
          · exact Option.some.inj (hxh.2.symm.trans hold.2)
          · exact Option.some.inj (hxh.1.symm.trans hold.1)
        · exact ⟨x, List.mem_cons_of_mem _ hx, hxh⟩
    · intro x hx y hy p i hxh hyh
      rcases List.mem_cons.mp hx with rfl | hx
      · exact absurd hxh (hnone p i)
      rcases List.mem_cons.mp hy with rfl | hy
      · exact absurd hyh (hnone p i)
      exact h.single x (List.mem_cons_of_mem _ hx) y (List.mem_cons_of_mem _ hy) p i hxh hyh
  | written ppe idx px _ hheld hold hslots =>
    rw [h.mac g (by simp), setHnatMtbl_mac] at hslots
    have hunique : ∀ p i, g'.Holds p i → p = ppe ∧ i = idx := fun p i hp =>
      ⟨Option.some.inj (hp.2.symm.trans hheld.2), Option.some.inj (hp.1.symm.trans hheld.1)⟩
    -- No other group holds the row that is written.
    have hfree : ∀ x ∈ groups, ¬ x.Holds ppe idx := by
      intro x hx hxh
      rcases hold with hold | ⟨_, hzero⟩
      · exact hother x hx ppe idx hold hxh
      · obtain ⟨px', hrow⟩ := h.carries x (List.mem_cons_of_mem _ hx) ppe idx hxh
        exact macRow_ne_zero px' x.ip (hrow.symm.trans hzero)
    refine ⟨hnodup, hmac, ?_, ?_, ?_, ?_⟩
    · intro x hx hidx'
      rcases List.mem_cons.mp hx with rfl | hx
      · simp [hheld.2]
      · exact h.ppe x (List.mem_cons_of_mem _ hx) hidx'
    · intro x hx p i hxh
      rcases List.mem_cons.mp hx with rfl | hx
      · obtain ⟨rfl, rfl⟩ := hunique p i hxh
        exact ⟨px, by rw [hslots, Hw.setSlot_self, hsame.ip]⟩
      · rw [hslots, Hw.setSlot_ne]
        · exact h.carries x (List.mem_cons_of_mem _ hx) p i hxh
        · rintro ⟨rfl, rfl⟩
          exact hfree x hx hxh
    · intro p i hslot
      by_cases heq : p = ppe ∧ i = idx
      · obtain ⟨rfl, rfl⟩ := heq
        exact ⟨g', by simp, hheld⟩
      · rw [hslots, Hw.setSlot_ne hw _ heq] at hslot
        obtain ⟨x, hx, hxh⟩ := h.owner p i hslot
        rcases List.mem_cons.mp hx with rfl | hx
        · rcases hold with hold | ⟨hnone, _⟩
          · refine absurd ⟨?_, ?_⟩ heq
            · exact Option.some.inj (hxh.2.symm.trans hold.2)
            · exact Option.some.inj (hxh.1.symm.trans hold.1)
          · rw [hxh.1] at hnone
            cases hnone
        · exact ⟨x, List.mem_cons_of_mem _ hx, hxh⟩
    · intro x hx y hy p i hxh hyh
      rcases List.mem_cons.mp hx with rfl | hx' <;> rcases List.mem_cons.mp hy with rfl | hy'
      · rfl
      · obtain ⟨rfl, rfl⟩ := hunique p i hxh
        exact absurd hyh (hfree y hy')
      · obtain ⟨rfl, rfl⟩ := hunique p i hyh
        exact absurd hxh (hfree x hx')
      · exact h.single x (List.mem_cons_of_mem _ hx') y (List.mem_cons_of_mem _ hy') p i hxh hyh

lemma step (h : Owned (pre ++ g :: post) hw) (hs : RowStep g hw g' hw') :
    Owned (pre ++ g' :: post) hw' :=
  ((h.perm List.perm_middle).cons_step hs).perm List.perm_middle.symm

lemma station (h : Owned (pre ++ g :: post) hw) (type : Mdb) (ifindex : IfIndex) :
    Owned (pre ++ g.station type ifindex :: post) hw := by
  refine ((h.perm List.perm_middle).cons_congr (by simp) ?_ (by simp) (by simp)).perm
    List.perm_middle.symm
  cases type <;> rfl

lemma free (h : Owned (pre ++ g :: post) hw) (hidx : g.mtblIdx = none) : Owned (pre ++ post) hw := by
  have h' : Owned (g :: (pre ++ post)) hw := h.perm List.perm_middle
  refine ⟨(List.nodup_cons.mp h'.nodup).2, fun x hx => h'.mac x (List.mem_cons_of_mem _ hx),
    fun x hx => h'.ppe x (List.mem_cons_of_mem _ hx),
    fun x hx => h'.carries x (List.mem_cons_of_mem _ hx), ?_,
    fun x hx y hy => h'.single x (List.mem_cons_of_mem _ hx) y (List.mem_cons_of_mem _ hy)⟩
  intro ppe idx hslot
  obtain ⟨x, hx, hold⟩ := h'.owner ppe idx hslot
  rcases List.mem_cons.mp hx with rfl | hx
  · rw [hold.1] at hidx
    cases hidx
  · exact ⟨x, hx, hold⟩

/-- A new group holds nothing. -/
lemma create (h : Owned groups hw) {ip : Ip} (hip : ∀ g ∈ groups, g.ip ≠ ip) :
    Owned (groups ++ [createGroup ip]) hw := by
  have hnone : ∀ ppe idx, ¬ (createGroup ip).Holds ppe idx := by
    rintro ppe idx ⟨hidx, _⟩
    cases hidx
  suffices h' : Owned (createGroup ip :: groups) hw from
    h'.perm (List.perm_append_singleton (createGroup ip) groups).symm
  refine ⟨?_, ?_, ?_, ?_, ?_, ?_⟩
  · refine List.nodup_cons.mpr ⟨fun hmem => ?_, h.nodup⟩
    obtain ⟨g, hg, hgip⟩ := List.mem_map.mp hmem
    exact hip g hg hgip
  · intro x hx
    rcases List.mem_cons.mp hx with rfl | hx
    · rfl
    · exact h.mac x hx
  · intro x hx hidx
    rcases List.mem_cons.mp hx with rfl | hx
    · exact absurd rfl hidx
    · exact h.ppe x hx hidx
  · intro x hx ppe idx hold
    rcases List.mem_cons.mp hx with rfl | hx
    · exact absurd hold (hnone ppe idx)
    · exact h.carries x hx ppe idx hold
  · intro ppe idx hslot
    obtain ⟨x, hx, hold⟩ := h.owner ppe idx hslot
    exact ⟨x, List.mem_cons_of_mem _ hx, hold⟩
  · intro x hx y hy ppe idx hxh hyh
    rcases List.mem_cons.mp hx with rfl | hx
    · exact absurd hxh (hnone ppe idx)
    rcases List.mem_cons.mp hy with rfl | hy
    · exact absurd hyh (hnone ppe idx)
    exact h.single x hx y hy ppe idx hxh hyh

end Owned

/-! ## Runs -/

/-- The event does not take its binding from a group that holds a row, free it or move it to
another PPE. -/
def RowSafe (s : St) : Event → Prop
  | .mdb type ip ifindex => ∀ g ∈ s.groups, g.ip = ip → g.mtblIdx ≠ none →
      (g.station type ifindex).members ≠ [] ∧
        ¬ (s.hook && quits s.dev s.hw (g.station type ifindex))
  | .bind ppe _ entry _ => s.hook → ¬ chkBlist s.blist entry → ∀ g ∈ s.groups,
      entry.key = some g.ip → g.offload → g.mtblIdx ≠ none → g.ppeId = some ppe
  | .blist ip mask add => add → ¬ (s.blist.any fun m => blistEntryMatch m ip mask) →
      ∀ g ∈ s.groups, ipMatchBlist g ⟨ip, checkMask mask⟩ → g.mtblIdx = none
  | .offload enable => enable = false → ∀ g ∈ s.groups, g.mtblIdx = none
  | .path groupIdx hwPath wifi => hwPath = false →
      ∀ g ∈ s.groups.find? (pathLook s groupIdx wifi), g.mtblIdx = none
  | _ => True

instance (s : St) (e : Event) : Decidable (RowSafe s e) := by
  cases e <;> unfold RowSafe <;> infer_instance

namespace Owned

variable {cfg : Cfg} {s : St} {groups pre post : List Group} {g g' : Group} {hw hw' : Hw}

lemma withGroup (h : Owned groups hw) (ip : Ip) : Owned (withGroup groups ip) hw := by
  rcases withGroup_cases groups ip with heq | ⟨hip, heq⟩
  · rwa [heq]
  · rw [heq]
    exact h.create hip

lemma others (h : Owned (pre ++ g :: post) hw) (hs : RowStep g hw g' hw') {x : Group}
    (hx : x ∈ pre ++ post) {ppe idx : ℕ} (hold : x.Holds ppe idx) :
    hw'.slots ppe idx = hw.slots ppe idx := by
  have h' : Owned (g :: (pre ++ post)) hw := h.perm List.perm_middle
  have hmem : x ∈ g :: (pre ++ post) := List.mem_cons_of_mem _ hx
  have hne : ∀ ppe idx, g.Holds ppe idx → ¬ x.Holds ppe idx := by
    intro p i hg hxh
    have hip := h'.single g (by simp) x hmem p i hg hxh
    exact (List.nodup_cons.mp h'.nodup).1 (hip ▸ List.mem_map_of_mem hx)
  cases hs with
  | kept hk => rw [hk.slots]
  | released p i _ hg _ hslots =>
    rw [hslots, Hw.setSlot_ne]
    rintro ⟨rfl, rfl⟩
    exact hne ppe idx hg hold
  | written p i px _ _ hg hslots =>
    rw [hslots, h'.mac g (by simp), setHnatMtbl_mac, Hw.setSlot_ne]
    rintro ⟨rfl, rfl⟩
    rcases hg with hg | ⟨_, hzero⟩
    · exact hne ppe idx hg hold
    · obtain ⟨px', hrow⟩ := h'.carries x hmem ppe idx hold
      exact macRow_ne_zero px' x.ip (hrow.symm.trans hzero)

lemma notify_row {type : Mdb} {ifindex : IfIndex}
    (hrow : g.mtblIdx ≠ none → ¬ (s.hook && quits s.dev s.hw (g.station type ifindex))) :
    RowStep (g.station type ifindex) s.hw
      (groupNotify cfg s.dev s.hook type ifindex g s.hw).1
      (groupNotify cfg s.dev s.hook type ifindex g s.hw).2 := by
  unfold groupNotify
  cases hhook : s.hook with
  | false => exact RowStep.refl _ _
  | true =>
    refine eventHwHandle_row (fun hidx hquit => ?_) type ifindex
    exact hrow (by simpa using hidx) (by simpa [hhook] using hquit)

lemma groupUpdate (h : Owned s.groups s.hw) {type : Mdb} {ip : Ip} {ifindex : IfIndex}
    (hsafe : RowSafe s (.mdb type ip ifindex)) :
    Owned (groupUpdate cfg s type ip ifindex).groups (groupUpdate cfg s type ip ifindex).hw := by
  obtain ⟨pre, g, post, hsplit, hip, hother, _⟩ := withGroup_split h.nodup ip
  have hwith : Owned (pre ++ g :: post) s.hw := hsplit ▸ h.withGroup ip
  -- A group that is created has no row, one that is found meets the condition.
  have hrow : g.mtblIdx ≠ none → (g.station type ifindex).members ≠ [] ∧
      ¬ (s.hook && quits s.dev s.hw (g.station type ifindex)) := by
    intro hidx
    have hmem : g ∈ Hnat.withGroup s.groups ip := by rw [hsplit]; simp
    rcases mem_withGroup hmem with hg | rfl
    · exact hsafe g hg hip hidx
    · exact absurd rfl hidx
  have hsame := groupNotify_same cfg s.dev s.hook type ifindex g s.hw
  have hstep : RowStep (g.station type ifindex) s.hw
      (groupNotify cfg s.dev s.hook type ifindex g s.hw).1
      (groupNotify cfg s.dev s.hook type ifindex g s.hw).2 := notify_row fun hidx => (hrow hidx).2
  rw [groupUpdate_eq cfg type ifindex hsplit hip hother]
  split_ifs with hmem
  · rw [hsame.members] at hmem
    have hidx : g.mtblIdx = none := by
      by_contra hidx
      exact (hrow hidx).1 hmem
    have hkept : RowsKept (g.station type ifindex) s.hw
        (groupNotify cfg s.dev s.hook type ifindex g s.hw).1
        (groupNotify cfg s.dev s.hook type ifindex g s.hw).2 := by
      unfold groupNotify
      cases s.hook with
      | false => exact RowsKept.refl _ _
      | true => exact eventHwHandle_kept (by rw [hmem]; rfl) (by simpa using hidx) s.hw type ifindex
    exact ((hwith.station type ifindex).step (.kept hkept)).free (hkept.mtblIdx.trans (by simpa using hidx))
  · exact (hwith.station type ifindex).step hstep

lemma foeBind (h : Owned s.groups s.hw) {ppe idx : ℕ} {entry : Foe} {ifindex : IfIndex}
    (hsafe : RowSafe s (.bind ppe idx entry ifindex)) :
    Owned (foeBind cfg s ppe idx entry ifindex).groups (foeBind cfg s ppe idx entry ifindex).hw := by
  unfold Hnat.foeBind
  split_ifs with hcond
  · cases hkey : entry.key with
    | none => exact h
    | some ip =>
      dsimp only
      have h' : Owned s.groups { s.hw with entry := entry } := h.of_slots rfl
      rcases onFirst_cases (fun group => group.ip = ip) (bindGroup cfg s.dev ppe idx ifindex) s.groups
        { s.hw with entry := entry } with ⟨pre, g, post, hgroups, hp, _, heq⟩ | ⟨_, heq⟩
      · rw [heq]
        rw [hgroups] at h'
        have hip : g.ip = ip := by simpa using hp
        refine h'.step (bindGroup_row cfg (fun hoff hidx => ?_) s.dev _ idx ifindex)
        simp only [Bool.and_eq_true, Bool.not_eq_true'] at hcond
        exact hsafe hcond.1 (by simp [hcond.2]) g (by rw [hgroups]; simp) (by rw [hkey, hip]) hoff hidx
      · rw [heq]
        exact h'
  · exact h

lemma ifdownHandle (h : Owned s.groups s.hw) (ifindex : IfIndex) (stopped : Bool) :
    Owned (ifdownHandle cfg s ifindex stopped).groups (ifdownHandle cfg s ifindex stopped).hw := by
  simp only [Hnat.ifdownHandle]
  split_ifs
  all_goals first
    | exact h
    | exact sweep_invariant h fun _ g _ hw _ hpre => hpre.step (ifdownGroup_row cfg _ ifindex g hw)

lemma blistHandle (h : Owned s.groups s.hw) {ip : Ip} {mask : ℕ} {add : Bool}
    (hsafe : RowSafe s (.blist ip mask add)) :
    Owned (blistHandle cfg s ip mask add).groups (blistHandle cfg s ip mask add).hw := by
  unfold Hnat.blistHandle
  split_ifs with hadd hany
  · exact h
  · exact sweep_invariant h fun _ g _ hw hg hpre =>
      hpre.step (.kept (blistGroup_kept (hsafe hadd hany g hg) hw))
  · exact h

lemma offloadHandle (h : Owned s.groups s.hw) {enable : Bool} (hsafe : RowSafe s (.offload enable)) :
    Owned (offloadHandle cfg s enable).groups (offloadHandle cfg s enable).hw :=
  sweep_invariant h fun _ g _ hw hg hpre =>
    hpre.step (.kept (groupHandle_kept (fun he => hsafe he g hg) hw))

lemma groupPathSwitch (h : Owned s.groups s.hw) {groupIdx : Option ℕ} {hwPath : Bool}
    {wifi : Option Ip} (hsafe : RowSafe s (.path groupIdx hwPath wifi)) :
    Owned (groupPathSwitch cfg s groupIdx hwPath wifi).groups
      (groupPathSwitch cfg s groupIdx hwPath wifi).hw := by
  unfold Hnat.groupPathSwitch
  rcases onFirst_cases (pathLook s groupIdx wifi) (groupPath cfg hwPath) s.groups s.hw with
    ⟨pre, g, post, hgroups, hp, hpre, heq⟩ | ⟨_, heq⟩
  · rw [heq]
    have hfind : s.groups.find? (pathLook s groupIdx wifi) = some g :=
      List.find?_eq_some_iff_append.mpr ⟨hp, pre, post, hgroups, by simpa using hpre⟩
    rw [hgroups] at h
    exact h.step (.kept (groupPath_kept (fun hsw => hsafe hsw g hfind) s.hw))
  · rw [heq]
    exact h

end Owned

/-- The invariant of a state. -/
def RowsOwned (s : St) : Prop := Owned s.groups s.hw

namespace RowsOwned

variable {s : St}

lemma init (dev : IfIndex → Option Dev) (hook : Bool) (refuse : Ip → ℕ → Bool) :
    RowsOwned (St.init dev hook refuse) := by
  refine ⟨List.nodup_nil, by simp [St.init], by simp [St.init], by simp [St.init], ?_,
    by simp [St.init]⟩
  intro ppe idx hslot
  exact absurd rfl hslot

lemma step (h : RowsOwned s) (cfg : Cfg) (e : Event) (hsafe : RowSafe s e) :
    RowsOwned (step cfg s e) := by
  cases e with
  | mdb type ip ifindex => exact Owned.groupUpdate h hsafe
  | bind ppe idx entry ifindex => exact Owned.foeBind h hsafe
  | ifdown ifindex stopped => exact Owned.ifdownHandle h ifindex stopped
  | blist ip mask add => exact Owned.blistHandle h hsafe
  | offload enable => exact Owned.offloadHandle h hsafe
  | path groupIdx hwPath wifi => exact Owned.groupPathSwitch h hsafe
  | dev ifindex d => exact h
  | flow ppe idx foe => exact Owned.of_slots h (Hw.set_slots s.hw _ foe)
  | refuse refuse => exact Owned.of_slots h rfl

end RowsOwned

/-- The row is one for the MAC. -/
def Slot.Carries (slot : Slot) (mac : List ℕ) : Prop :=
  slot.addr = dmacToLo32 mac ∧
    (dmacToHi16 mac = 0x0100 ∧ slot.sel = 0 ∨ dmacToHi16 mac = 0x3333 ∧ slot.sel = 1)

lemma macRow_carries (px : Bmp) (ip : Ip) : (macRow px ip).Carries (getMacFromMdb ip) := by
  cases ip <;> simp [Slot.Carries, macRow, dmacToHi16, getMacFromMdb]

/-- Every row that is not zero has exactly one owner among the groups, and a group with a row and
a PPE owns one that carries its own MAC. -/
def OneOwner (s : St) : Prop :=
  s.groups.Nodup ∧
  (∀ ppe idx, s.hw.slots ppe idx ≠ Slot.zero → ∃! g, g ∈ s.groups ∧ g.Holds ppe idx) ∧
  ∀ g ∈ s.groups, ∀ ppe idx, g.Holds ppe idx →
    s.hw.slots ppe idx ≠ Slot.zero ∧ (s.hw.slots ppe idx).Carries g.mac

lemma RowsOwned.oneOwner {s : St} (h : RowsOwned s) : OneOwner s := by
  refine ⟨h.nodup.of_map Group.ip, ?_, ?_⟩
  · intro ppe idx hslot
    obtain ⟨g, hg, hold⟩ := h.owner ppe idx hslot
    refine ⟨g, ⟨hg, hold⟩, ?_⟩
    rintro g' ⟨hg', hold'⟩
    exact h.eq_of_ip hg' hg (h.single g' hg' g hg ppe idx hold' hold)
  · intro g hg ppe idx hold
    obtain ⟨px, hrow⟩ := h.carries g hg ppe idx hold
    rw [hrow, h.mac g hg]
    exact ⟨macRow_ne_zero px g.ip, macRow_carries px g.ip⟩

/-- In a run in which no event unbinds, frees or moves a group that holds a row, every row that is
not zero has one owner. -/
theorem rows_owned (cfg : Cfg) (dev : IfIndex → Option Dev) (hook : Bool) (refuse : Ip → ℕ → Bool)
    (es : List Event)
    (hsafe : Runs.AllSteps (step cfg) RowSafe (St.init dev hook refuse) es) :
    OneOwner (Runs.run (step cfg) (St.init dev hook refuse) es) :=
  (hsafe.invariant (RowsOwned.init dev hook refuse) fun _ e h he => h.step cfg e he).oneOwner

/-- A switch without DSA and an NPU. -/
def sampleCfg : Cfg := ⟨true, false, 64, 2, 16, fun _ => 0⟩

/-- Two Ethernet ports and a switch port. -/
def sampleDev : IfIndex → Option Dev
  | 1 => some ⟨.gmac (some .gmac1), true⟩
  | 2 => some ⟨.gmac (some .gmac2), true⟩
  | 3 => some ⟨.dsa (some 3), true⟩
  | 4 => some ⟨.dsa (some 4), true⟩
  | _ => none

def sampleIp : Ip := .v4 0xe1010203

/-- The flow entry that is built for a packet to the sample address. -/
def sampleEntry : Foe := ⟨some sampleIp, .unbind, false, 0, ∅, 0, 0, 0, 0⟩

/-- Two ports join and the flow is bound. -/
def sampleBound : List Event :=
  [.flow 0 1 sampleEntry, .mdb .new sampleIp 1, .mdb .new sampleIp 2, .bind 0 1 sampleEntry 2]

theorem rows_owned_ifdown :
    OneOwner (Runs.run (step sampleCfg) (St.init sampleDev true fun _ _ => false)
      (sampleBound ++ [.ifdown 2 true, .offload false])) :=
  rows_owned sampleCfg sampleDev true (fun _ _ => false) _ (by decide +kernel)

/-- The row of a bound group is left behind when multicast offload is switched off. -/
theorem offload_leaks_row :
    ¬ OneOwner (Runs.run (step sampleCfg) (St.init sampleDev true fun _ _ => false)
      (sampleBound ++ [.offload false])) := by
  rintro ⟨_, howner, _⟩
  obtain ⟨g, ⟨hg, hold⟩, _⟩ := howner 0 0 (by decide +kernel)
  have hnone : ∀ g ∈ (Runs.run (step sampleCfg) (St.init sampleDev true fun _ _ => false)
      (sampleBound ++ [.offload false])).groups, ¬ g.Holds 0 0 := by decide +kernel
  exact hnone g hg hold

end Hnat
