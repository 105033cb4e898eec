import Mt798x.Lib.Floor
import Mt798x.Hnat.Rows

/-!
# Members of the multicast groups

A notification appends its port to the members of a group or erases its first occurrence, so the
members are a multiset: a port is one as often as it was added, less how often it was deleted, but
never less than zero.
-/

namespace Hnat

variable {cfg : Cfg} {s : St}

/-- A notification of the bridge: its type, address and port. -/
abbrev Note := Mdb × Ip × IfIndex

/-- The driver after a sequence of notifications. -/
def notify (cfg : Cfg) (s : St) (notes : List Note) : St :=
  notes.foldl (fun s note => groupUpdate cfg s note.1 note.2.1 note.2.2) s

/-- The notifications of a port for an address. -/
def notesOf (notes : List Note) (ip : Ip) (port : IfIndex) : List Mdb :=
  (notes.filter fun note => note.2 = (ip, port)).map Prod.fst

/-- The members of an address: those of its group, if it has one. -/
def membersOf (groups : List Group) (ip : Ip) : List IfIndex :=
  (findGroupByIp groups ip).elim [] Group.members

/-- One group for each address, and no group without members. -/
structure Grouped (groups : List Group) : Prop where
  nodup : (groups.map Group.ip).Nodup
  nonempty : ∀ g ∈ groups, g.members ≠ []

lemma membersOf_split {pre post : List Group} {g : Group} (hpre : ∀ x ∈ pre, x.ip ≠ g.ip) :
    membersOf (pre ++ g :: post) g.ip = g.members := by
  have hfind : findGroupByIp (pre ++ g :: post) g.ip = some g :=
    List.find?_eq_some_iff_append.mpr ⟨by simp, pre, post, rfl, by simpa using hpre⟩
  rw [membersOf, hfind]
  rfl

lemma membersOf_none {groups : List Group} {ip : Ip} (h : ∀ x ∈ groups, x.ip ≠ ip) :
    membersOf groups ip = [] := by
  have hfind : findGroupByIp groups ip = none := by simpa [findGroupByIp] using h
  rw [membersOf, hfind]
  rfl

lemma membersOf_other {pre post : List Group} {g : Group} {ip : Ip} (h : g.ip ≠ ip) :
    membersOf (pre ++ g :: post) ip = membersOf (pre ++ post) ip := by
  simp [membersOf, findGroupByIp, List.find?_append, h]

lemma mem_membersOf {groups : List Group} (hnodup : (groups.map Group.ip).Nodup) {ip : Ip}
    {port : IfIndex} :
    port ∈ membersOf groups ip ↔ ∃ g ∈ groups, g.ip = ip ∧ port ∈ g.members := by
  constructor
  · intro h
    unfold membersOf at h
    cases hfind : findGroupByIp groups ip with
    | none =>
      rw [hfind] at h
      cases h
    | some g =>
      rw [hfind] at h
      exact ⟨g, List.mem_of_find?_eq_some hfind, by simpa using List.find?_some hfind, h⟩
  · rintro ⟨g, hg, rfl, hport⟩
    obtain ⟨pre, post, rfl⟩ := List.append_of_mem hg
    rw [membersOf_split]
    · exact hport
    · intro x hx hip
      rw [List.map_append, List.map_cons, List.nodup_middle] at hnodup
      refine (List.nodup_cons.mp hnodup).1 (List.mem_append_left _ ?_)
      exact hip ▸ List.mem_map_of_mem hx

/-- What a notification does to the list of members. -/
def stationed (type : Mdb) (members : List IfIndex) (ifindex : IfIndex) : List IfIndex :=
  match type with
  | .new => members ++ [ifindex]
  | .del => members.erase ifindex

lemma Group.station_members (g : Group) (type : Mdb) (ifindex : IfIndex) :
    (g.station type ifindex).members = stationed type g.members ifindex := by
  cases type <;> rfl

/-- A notification keeps the groups in order and changes the members of its own address. -/
lemma groupUpdate_members (h : Grouped s.groups) (cfg : Cfg) (type : Mdb) (ip : Ip)
    (ifindex : IfIndex) :
    Grouped (groupUpdate cfg s type ip ifindex).groups ∧
    ∀ ip', membersOf (groupUpdate cfg s type ip ifindex).groups ip' =
      if ip' = ip then stationed type (membersOf s.groups ip) ifindex
      else membersOf s.groups ip' := by
  obtain ⟨pre, g, post, hsplit, hip, hother, hgroups⟩ := withGroup_split h.nodup ip
  rw [groupUpdate_eq cfg type ifindex hsplit hip hother]
  dsimp only
  set g' := (groupNotify cfg s.dev s.hook type ifindex g s.hw).1
  have hsame := groupNotify_same cfg s.dev s.hook type ifindex g s.hw
  have hip' : g'.ip = ip := by rw [hsame.ip, Group.station_ip, hip]
  have hpre : ∀ x ∈ pre, x.ip ≠ ip := fun x hx => hother x (List.mem_append_left _ hx)
  -- The group before the notification, found or created, has the members of the address.
  have hold : g.members = membersOf s.groups ip := by
    rcases hgroups with hgroups | ⟨rfl, hgroups⟩
    · rw [hgroups, ← hip, membersOf_split (by rwa [hip])]
    · rw [hgroups, membersOf_none hother]
      rfl
  have hnew : g'.members = stationed type (membersOf s.groups ip) ifindex := by
    rw [hsame.members, Group.station_members, hold]
  have hrest : ∀ ip', ip' ≠ ip → membersOf s.groups ip' = membersOf (pre ++ post) ip' := by
    intro ip' hne
    rcases hgroups with hgroups | ⟨_, hgroups⟩
    · rw [hgroups, membersOf_other (by rw [hip]; exact hne.symm)]
    · rw [hgroups]
  have hkeep : Grouped (pre ++ post) := by
    rcases hgroups with hgroups | ⟨_, hgroups⟩
    · refine ⟨?_, fun x hx => h.nonempty x ?_⟩
      · have hnodup := h.nodup
        rw [hgroups, List.map_append, List.map_cons, List.nodup_middle, ← List.map_append] at hnodup
        exact (List.nodup_cons.mp hnodup).2
      · rw [hgroups]
        rcases List.mem_append.mp hx with hx | hx
        · exact List.mem_append_left _ hx
        · exact List.mem_append_right _ (List.mem_cons_of_mem _ hx)
    · rwa [hgroups] at h
  split_ifs with hempty
  · refine ⟨hkeep, fun ip' => ?_⟩
    split_ifs with hip''
    · subst hip''
      rw [membersOf_none hother, ← hnew, hempty]
    · exact (hrest ip' hip'').symm
  · refine ⟨⟨?_, ?_⟩, fun ip' => ?_⟩
    · rw [List.map_append, List.map_cons, List.nodup_middle, ← List.map_append]
      refine List.nodup_cons.mpr ⟨fun hmem => ?_, hkeep.nodup⟩
      obtain ⟨x, hx, hxip⟩ := List.mem_map.mp hmem
      exact hother x hx (hxip.trans hip')
    · intro x hx
      rcases List.mem_append.mp hx with hx | hx
      · exact hkeep.nonempty x (List.mem_append_left _ hx)
      rcases List.mem_cons.mp hx with rfl | hx
      · exact hempty
      · exact hkeep.nonempty x (List.mem_append_right _ hx)
    · split_ifs with hip''
      · subst hip''
        rw [← hnew, ← hip', membersOf_split (by rwa [hip'])]
      · rw [membersOf_other (by rw [hip']; exact Ne.symm hip''), hrest ip' hip'']

/-- After a sequence of notifications a port is a member as often as its counter says. -/
lemma notify_members (hs : s.groups = []) (cfg : Cfg) (notes : List Note) :
    Grouped (notify cfg s notes).groups ∧ ∀ ip port,
      (membersOf (notify cfg s notes).groups ip).count port =
        Floor.count (fun type => type = .new) (notesOf notes ip port) := by
  induction notes using List.reverseRecOn with
  | nil =>
    simp only [notify, List.foldl_nil, hs]
    exact ⟨⟨List.nodup_nil, by simp⟩, fun ip port => rfl⟩
  | append_singleton notes note ih =>
    obtain ⟨type, ip, ifindex⟩ := note
    obtain ⟨hgrouped, hcount⟩ := ih
    have hstep : notify cfg s (notes ++ [(type, ip, ifindex)]) =
        groupUpdate cfg (notify cfg s notes) type ip ifindex := by
      rw [notify, List.foldl_append]
      rfl
    obtain ⟨hgrouped', hmembers⟩ := groupUpdate_members hgrouped cfg type ip ifindex
    rw [hstep]
    refine ⟨hgrouped', fun ip' port => ?_⟩
    rw [hmembers]
    by_cases hkey : ip' = ip ∧ port = ifindex
    · obtain ⟨rfl, rfl⟩ := hkey
      have hnotes : notesOf (notes ++ [(type, ip', port)]) ip' port =
          notesOf notes ip' port ++ [type] := by
        simp [notesOf]
      rw [if_pos rfl, hnotes, Floor.count_concat, ← hcount]
      cases type <;> simp [stationed]
    · have hnotes : notesOf (notes ++ [(type, ip, ifindex)]) ip' port = notesOf notes ip' port := by
        have : ¬ (ip = ip' ∧ ifindex = port) := fun h => hkey ⟨h.1.symm, h.2.symm⟩
        simp [notesOf, this]
      rw [hnotes, ← hcount]
      split_ifs with hip
      · subst hip
        have hport : port ≠ ifindex := fun h => hkey ⟨rfl, h⟩
        cases type with
        | new => simp [stationed, hport.symm]
        | del => rw [stationed, List.count_erase_of_ne hport]
      · rfl

/-- One group for each address that has members, none without members, and the members of an
address are the ports whose last notification for it was an addition. -/
def Follows (notes : List Note) (groups : List Group) : Prop :=
  (groups.map Group.ip).Nodup ∧ (∀ g ∈ groups, g.members ≠ []) ∧
  ∀ ip port, (∃ g ∈ groups, g.ip = ip ∧ port ∈ g.members) ↔
    (notesOf notes ip port).getLast? = some .new

/-- When the last notification of a port for an address is a deletion, every tail of these
notifications has at most as many additions as deletions. -/
def Balanced (notes : List Note) : Prop :=
  ∀ ip port, (notesOf notes ip port).getLast? = some .del →
    ∀ tail, tail <:+ notesOf notes ip port → tail.count .new ≤ tail.count .del

/-- The membership follows the bridge exactly when the notifications are balanced. -/
theorem membership_follows_iff (cfg : Cfg) (s : St) (hs : s.groups = []) (notes : List Note) :
    Follows notes (notify cfg s notes).groups ↔ Balanced notes := by
  obtain ⟨hgrouped, hcount⟩ := notify_members hs cfg notes
  have hmem : ∀ ip port, (∃ g ∈ (notify cfg s notes).groups, g.ip = ip ∧ port ∈ g.members) ↔
      Floor.count (fun type => type = .new) (notesOf notes ip port) ≠ 0 := by
    intro ip port
    rw [← mem_membersOf hgrouped.nodup, ← hcount, ← List.one_le_count_iff, Nat.one_le_iff_ne_zero]
  have hdel : ∀ tail : List Mdb,
      tail.countP (fun type => !decide (type = .new)) = tail.count .del := by
    intro tail
    rw [List.count]
    refine List.countP_congr fun type _ => ?_
    cases type <;> simp
  have hnew : ∀ tail : List Mdb, tail.countP (fun type => decide (type = .new)) = tail.count .new := by
    intro tail
    rw [List.count]
    refine List.countP_congr fun type _ => ?_
    cases type <;> simp
  have hzero : ∀ ip port, Floor.count (fun type => type = .new) (notesOf notes ip port) = 0 ↔
      ∀ tail, tail <:+ notesOf notes ip port → tail.count .new ≤ tail.count .del := by
    intro ip port
    rw [← Nat.le_zero, Floor.count_le_iff]
    simp only [hdel, hnew, Nat.add_zero]
  constructor
  · rintro ⟨_, _, h⟩ ip port hlast
    have hnone : ¬ ∃ g ∈ (notify cfg s notes).groups, g.ip = ip ∧ port ∈ g.members := by
      rw [h ip port, hlast]
      simp
    rw [hmem, not_not] at hnone
    exact (hzero ip port).mp hnone
  · intro h
    refine ⟨hgrouped.nodup, hgrouped.nonempty, fun ip port => ?_⟩
    rw [hmem]
    cases hlast : (notesOf notes ip port).getLast? with
    | none =>
      rw [List.getLast?_eq_none_iff.mp hlast]
      simp
    | some type =>
      cases type with
      | new =>
        obtain ⟨l, hl⟩ := List.getLast?_eq_some_iff.mp hlast
        rw [hl, Floor.count_concat]
        simp
      | del =>
        rw [(hzero ip port).mpr (h ip port hlast)]
        simp

/-- The groups are empty at the start, as in every run. -/
theorem membership_follows_init :
    Follows [(.new, .v4 1, 3), (.new, .v4 1, 3)] (notify ⟨true, true, 16, 2, 16, fun _ => 0⟩
      (St.init (fun _ => none) true fun _ _ => false) [(.new, .v4 1, 3), (.new, .v4 1, 3)]).groups ↔
    Balanced [(.new, .v4 1, 3), (.new, .v4 1, 3)] :=
  membership_follows_iff _ _ rfl _

/-- The bridge repeats an addition and deletes the port once: it stays a member. -/
theorem repeated_new_stays :
    ¬ Follows [(.new, .v4 1, 3), (.new, .v4 1, 3), (.del, .v4 1, 3)]
      (notify ⟨true, true, 16, 2, 16, fun _ => 0⟩ (St.init (fun _ => none) true fun _ _ => false)
        [(.new, .v4 1, 3), (.new, .v4 1, 3), (.del, .v4 1, 3)]).groups := by
  rintro ⟨_, _, h⟩
  have hmem := (h (.v4 1) 3).mp (by decide +kernel)
  exact absurd hmem (by decide +kernel)

end Hnat
