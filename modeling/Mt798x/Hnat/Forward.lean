import Mt798x.Hnat.Places

/-!
# A bound group forwards to its running members

The bitmap of a bound group is the ports of its running members, and its flow entry and row send
there: this holds in a run whose steps meet a condition on each event.
-/

namespace Hnat

variable {cfg : Cfg} {dev dev' : IfIndex → Option Dev} {g g' : Group} {hw hw' : Hw} {ppe idx : ℕ}
  {pre post groups : List Group} {s : St}

/-! ## The invariant -/

/-- The ports that a row is to have: when the NPU replicates for the switch, TDMA for GDMA1. -/
def rowPorts (cfg : Cfg) (bmp : Bmp) : Bmp :=
  if cfg.toNpu && Port.gdma1 ∈ bmp then insert Port.tdma (bmp.erase .gdma1) else bmp

/-- Several ports that go to the NPU have the switch's or the NPU's among them. -/
def Replicates (cfg : Cfg) (bmp : Bmp) : Prop :=
  cfg.toNpu → isMulti bmp → Port.gdma1 ∈ bmp ∨ Port.tdma ∈ bmp

instance (cfg : Cfg) (bmp : Bmp) : Decidable (Replicates cfg bmp) := by
  unfold Replicates
  infer_instance

lemma portMask_eq {bmp : Bmp} (h : Replicates cfg bmp) (hne : bmp ≠ ∅) (hs : ¬ isSingle bmp) :
    portMask bmp cfg.toNpu = rowPorts cfg bmp := by
  unfold portMask rowPorts
  cases hnpu : cfg.toNpu with
  | false => simp
  | true =>
    by_cases hgdma : Port.gdma1 ∈ bmp
    · simp [hgdma]
    · have htdma : Port.tdma ∈ bmp := (h hnpu (by simp [isMulti, hs, hne])).resolve_left hgdma
      simp [hgdma, htdma]

/-- A bound group has the bitmap of its running members and sends to them. -/
def Good (cfg : Cfg) (dev : IfIndex → Option Dev) (hw : Hw) (g : Group) : Prop :=
  ∀ ppe idx, g.At ppe idx → g.psebmp = g.ports dev ∧ Replicates cfg (g.ports dev) ∧
    Reaches cfg (g.ports dev) g hw (hw.foe ppe idx)

namespace Good

lemma of_unbound (h : ∀ ppe idx, ¬ g.At ppe idx) : Good cfg dev hw g :=
  fun ppe idx hat => absurd hat (h ppe idx)

lemma of_flow {place : FoeRef} (hs : FlowStep dev place g hw g' hw')
    (hsends : g'.SendsTo cfg (g.ports dev) hw') (hrep : Replicates cfg (g.ports dev)) :
    Good cfg dev hw' g' := by
  intro ppe idx hat
  have hports : g'.ports dev = g.ports dev := by rw [Group.ports, hs.same.members]; rfl
  rw [hports]
  exact ⟨(hs.lands ppe idx hat).2.2, hrep, hsends ppe idx hat⟩

lemma frame (h : Good cfg dev hw g)
    (hfoe : ∀ ppe idx, g.At ppe idx → (hw.foe ppe idx).Agree (hw'.foe ppe idx))
    (hrow : ∀ ppe idx, g.Holds ppe idx → hw'.slots ppe idx = hw.slots ppe idx) :
    Good cfg dev hw' g := by
  intro ppe idx hat
  obtain ⟨hpse, hrep, hne, hbears, hsingle, hmulti⟩ := h ppe idx hat
  have hagree := hfoe ppe idx hat
  refine ⟨hpse, hrep, hne, hbears, fun hs => ?_, fun hs => ?_⟩
  · rw [hagree.mcast, hagree.dp]
    exact hsingle hs
  · obtain ⟨hmcast, p, row, hold, hpx⟩ := hmulti hs
    rw [hagree.mcast]
    exact ⟨hmcast, p, row, hold, by rw [hrow p row hold]; exact hpx⟩

lemma of_ports (h : Good cfg dev hw g)
    (hports : ∀ ppe idx, g.At ppe idx → g.ports dev' = g.ports dev) : Good cfg dev' hw g := by
  intro ppe idx hat
  rw [hports ppe idx hat]
  exact h ppe idx hat

lemma congr (h : Good cfg dev hw g) (hstays : g.Stays g') (hsame : g.Same g')
    (hpse : g'.psebmp = g.psebmp) (hidx : g'.mtblIdx = g.mtblIdx) : Good cfg dev hw g' := by
  intro ppe idx hat
  have hports : g'.ports dev = g.ports dev := by rw [Group.ports, hsame.members]; rfl
  obtain ⟨hpse', hrep, hne, hbears, hsingle, hmulti⟩ := h ppe idx (hstays.at_iff.mp hat)
  rw [hports]
  refine ⟨hpse.trans hpse', hrep, hne, hbears, fun hs => ?_, fun hs => ?_⟩
  · rw [hidx]
    exact hsingle hs
  · obtain ⟨hmcast, p, row, hold, hpx⟩ := hmulti hs
    exact ⟨hmcast, p, row, ⟨hidx.trans hold.1, hstays.1.trans hold.2⟩, hpx⟩

end Good

/-- Every row has its owner, every bound group its place, and it sends to its running members; no
group is bound while the hook is off. -/
structure Forwarding (cfg : Cfg) (s : St) : Prop where
  rows : RowsOwned s
  places : Places s.groups s.hw
  good : ∀ g ∈ s.groups, Good cfg s.dev s.hw g
  unhooked : s.hook = false → ∀ g ∈ s.groups, ∀ ppe idx, ¬ g.At ppe idx

lemma Forwarding.init (cfg : Cfg) (dev : IfIndex → Option Dev) (hook : Bool)
    (refuse : Ip → ℕ → Bool) : Forwarding cfg (St.init dev hook refuse) :=
  ⟨RowsOwned.init dev hook refuse, ⟨List.nodup_nil, by simp [St.init], by simp [St.init],
    by simp [St.init]⟩, by simp [St.init], by simp [St.init]⟩

/-! ## The condition -/

/-- A bound group may go on with the ports that it gets. -/
def Group.Bound (g : Group) : Prop := g.ppeId ≠ none ∧ g.foeIdx ≠ none

instance (g : Group) : Decidable g.Bound := instDecidableAnd

lemma Group.bound_iff : g.Bound ↔ ∃ ppe idx, g.At ppe idx := by
  unfold Group.Bound Group.At
  cases g.ppeId <;> cases g.foeIdx <;> simp

/-- A bind of the group finds running members and a place that is no other group's; the entry is
committed there, or the group has the place already. -/
def BindSafe (cfg : Cfg) (s : St) (g : Group) (ppe idx : ℕ) (ifindex : IfIndex) : Prop :=
  g.ports s.dev ≠ ∅ ∧ Replicates cfg (g.ports s.dev) ∧
  (∀ x ∈ s.groups, x.ip ≠ g.ip → ¬ x.At ppe idx) ∧
  (g.At ppe idx ∨ (s.hw.foe ppe idx).state = .unbind ∧ Accepts cfg s.dev g s.hw ifindex)

/-- A member that goes down: its port is left out of the ports from then on, or still has a running
member, and in that case other ports are left. -/
def DownSafe (cfg : Cfg) (s : St) (g : Group) (ifindex : IfIndex) (stopped : Bool) : Prop :=
  (stopped ∨ g.ports (stop s.dev ifindex) = g.ports s.dev) ∧
  Replicates cfg (g.ports (stop s.dev ifindex)) ∧
  (g.psebmp \ getSingleDevPseBit s.dev ifindex ≠ ∅ ∨
    ∀ i ∈ g.members, i ≠ ifindex → livePorts s.dev i ≠ getSingleDevPseBit s.dev ifindex)

/-- The condition on an event, for the groups that are bound or are to be bound. -/
def FlowSafe (cfg : Cfg) (s : St) : Event → Prop
  | .mdb type ip ifindex => ∀ g ∈ s.groups, g.ip = ip → g.Bound →
      Replicates cfg ((g.station type ifindex).ports s.dev)
  | .bind ppe idx entry ifindex => s.hook → ¬ chkBlist s.blist entry → ∀ g ∈ s.groups,
      entry.key = some g.ip → g.offload → ¬ noNpuTeardown cfg s.dev g →
      BindSafe cfg s g ppe idx ifindex
  | .ifdown ifindex stopped => ∀ g ∈ s.groups, g.Bound → ifindex ∈ g.members →
      DownSafe cfg s g ifindex stopped
  | .dev ifindex d => ∀ g ∈ s.groups, g.Bound →
      g.ports (Function.update s.dev ifindex d) = g.ports s.dev
  | .flow ppe idx foe => ∀ g ∈ s.groups, g.At ppe idx →
      foe.key = (s.hw.foe ppe idx).key ∧ foe.mcast = (s.hw.foe ppe idx).mcast ∧
        foe.dp = (s.hw.foe ppe idx).dp
  | _ => True

instance (cfg : Cfg) (s : St) (e : Event) : Decidable (FlowSafe cfg s e) :=
  match e with
  | .mdb .. | .dev .. | .flow .. => by dsimp only [FlowSafe]; infer_instance
  | .bind .. => by dsimp only [FlowSafe, BindSafe]; infer_instance
  | .ifdown .. => by dsimp only [FlowSafe, DownSafe]; infer_instance
  | .blist .. | .offload .. | .path .. | .refuse _ => .isTrue trivial

/-! ## Notifications -/

namespace Forwarding

lemma good_withGroup (h : Forwarding cfg s) (ip : Ip) :
    ∀ g ∈ withGroup s.groups ip, Good cfg s.dev s.hw g ∧
      (s.hook = false → ∀ ppe idx, ¬ g.At ppe idx) := by
  intro g hg
  rcases mem_withGroup hg with hg | rfl
  · exact ⟨h.good g hg, fun hhook => h.unhooked hhook g hg⟩
  · exact ⟨Good.of_unbound (Places.create_not_at ip), fun _ => Places.create_not_at ip⟩

variable {ifindex : IfIndex} {stopped : Bool}

lemma groupUpdate (h : Forwarding cfg s) {type : Mdb} {ip : Ip}
    (hrow : RowSafe s (.mdb type ip ifindex)) (hflow : FlowSafe cfg s (.mdb type ip ifindex)) :
    Forwarding cfg (groupUpdate cfg s type ip ifindex) := by
  have hrows := h.rows.step cfg (.mdb type ip ifindex) hrow
  have hgood := h.good_withGroup ip
  obtain ⟨pre, g, post, hsplit, hip, hother, _⟩ := withGroup_split h.places.nodup ip
  have howned : Owned (pre ++ g :: post) s.hw := hsplit ▸ Owned.withGroup h.rows ip
  have hplaces : Places (pre ++ g :: post) s.hw := hsplit ▸ h.places.withGroup ip
  have hmem : ∀ x ∈ pre ++ post, x ∈ withGroup s.groups ip := by
    intro x hx
    rw [hsplit]
    simp only [List.mem_append, List.mem_cons] at hx ⊢
    tauto
  have hg : g ∈ withGroup s.groups ip := by rw [hsplit]; simp
  -- The step of the group itself.
  obtain ⟨hs, hsends⟩ := groupNotify_flow cfg s.dev
    (hplaces.middle.mac g (by simp)) (hplaces.middle.key g (by simp)) (hgood g hg).2 type ifindex
  have hnew : Good cfg s.dev (groupNotify cfg s.dev s.hook type ifindex g s.hw).2
      (groupNotify cfg s.dev s.hook type ifindex g s.hw).1 := by
    intro ppe idx hat
    have hat' : g.At ppe idx := getHwFoe_eq_some.mp (hs.lands ppe idx hat).1
    refine Good.of_flow hs hsends ?_ ppe idx hat
    rcases mem_withGroup hg with hg | rfl
    · exact hflow g hg hip (Group.bound_iff.mpr ⟨ppe, idx, hat'⟩)
    · exact absurd hat' (Places.create_not_at ip ppe idx)
  -- The other groups.
  have hrowstep : RowStep (g.station type ifindex) s.hw
      (groupNotify cfg s.dev s.hook type ifindex g s.hw).1
      (groupNotify cfg s.dev s.hook type ifindex g s.hw).2 := by
    refine Owned.notify_row fun hidx => ?_
    rcases mem_withGroup hg with hg | rfl
    · exact (hrow g hg hip hidx).2
    · exact absurd rfl hidx
  have hrest : ∀ x ∈ pre ++ post,
      Good cfg s.dev (groupNotify cfg s.dev s.hook type ifindex g s.hw).2 x := fun x hx =>
    (hgood x (hmem x hx)).1.frame
      (fun ppe idx hat => hs.kept ppe idx (hplaces.place_ne x hx ppe idx hat))
      (fun ppe idx hold => (howned.station type ifindex).others hrowstep hx hold)
  have hplaces' := (hplaces.station type ifindex).step hs
    fun x hx ppe idx hat => hplaces.place_ne x hx ppe idx hat
  -- No group is bound while the hook is off.
  have hunhooked : s.hook = false →
      ∀ ppe idx, ¬ (groupNotify cfg s.dev s.hook type ifindex g s.hw).1.At ppe idx :=
    fun hhook ppe idx hat =>
      (hgood g hg).2 hhook ppe idx (getHwFoe_eq_some.mp (hs.lands ppe idx hat).1)
  refine ⟨hrows, ?_, fun x hx => ?_, fun hhook x hx => ?_⟩
  · rw [groupUpdate_eq cfg type ifindex hsplit hip hother]
    dsimp only
    split_ifs
    · exact hplaces'.free
    · exact hplaces'
  · have hstate := congrArg St.hw (groupUpdate_eq cfg type ifindex hsplit hip hother)
    have hdev := congrArg St.dev (groupUpdate_eq cfg type ifindex hsplit hip hother)
    rw [hstate, hdev]
    rcases mem_groupUpdate hsplit hip hother hx with rfl | hx
    · exact hnew
    · exact hrest x hx
  · have hhook' : s.hook = false := by
      rwa [groupUpdate_eq cfg type ifindex hsplit hip hother] at hhook
    rcases mem_groupUpdate hsplit hip hother hx with rfl | hx
    · exact hunhooked hhook'
    · exact (hgood x (hmem x hx)).2 hhook'

/-! ## Binds -/

/-- What is known of a group that a packet is for. -/
lemma bindGroup (h : Forwarding cfg s) {ppe idx : ℕ} {entry : Foe} {ifindex : IfIndex}
    (hsplit : s.groups = pre ++ g :: post) (hkey : entry.key = some g.ip)
    (hrow : g.offload → g.mtblIdx ≠ none → g.ppeId = some ppe)
    (hsafe : g.offload → ¬ noNpuTeardown cfg s.dev g → BindSafe cfg s g ppe idx ifindex) :
    Places (pre ++ (bindGroup cfg s.dev ppe idx ifindex g { s.hw with entry := entry }).1 :: post)
      (bindGroup cfg s.dev ppe idx ifindex g { s.hw with entry := entry }).2 ∧
    ∀ x ∈ pre ++ (bindGroup cfg s.dev ppe idx ifindex g { s.hw with entry := entry }).1 :: post,
      Good cfg s.dev (bindGroup cfg s.dev ppe idx ifindex g { s.hw with entry := entry }).2 x := by
  have hplaces : Places (pre ++ g :: post) s.hw := hsplit ▸ h.places
  have howned : Owned (pre ++ g :: post) s.hw := by
    have := h.rows
    rw [RowsOwned, hsplit] at this
    exact this
  have hgood : ∀ x ∈ pre ++ g :: post, Good cfg s.dev s.hw x := hsplit ▸ h.good
  set hw1 : Hw := { s.hw with entry := entry }
  by_cases hgo : g.offload ∧ ¬ noNpuTeardown cfg s.dev g
  · obtain ⟨hoff, htear⟩ := hgo
    obtain ⟨hne, hrep, hfree, hland⟩ := hsafe hoff htear
    have hmac := hplaces.middle.mac g (by simp)
    have hgg : Good cfg s.dev s.hw g := hgood g (by simp)
    have hown : g.At ppe idx → (hw1.foe ppe idx).key = some g.ip ∧ g.SendsTo cfg (g.ports s.dev) hw1 :=
      fun hat => ⟨hplaces.middle.key g (by simp) ppe idx hat,
        fun p i hat' => ⟨(hgg p i hat').2.2.nonempty, (hgg p i hat').2.2.bears,
          ⟨(hgg p i hat').2.2.sends.single, (hgg p i hat').2.2.sends.multi⟩⟩⟩
    have hs : FlowStep s.dev (some (ppe, idx)) g hw1
        (Hnat.bindGroup cfg s.dev ppe idx ifindex g hw1).1
        (Hnat.bindGroup cfg s.dev ppe idx ifindex g hw1).2 :=
      bindGroup_flow hoff htear hkey hmac (fun hempty => absurd hempty hne)
        (hland.imp (fun hat => (hown hat).1) id)
    have hsends := bindGroup_sends ifindex hoff htear hkey hmac hne
      (hland.imp (fun hat => ⟨hat, (hown hat).2⟩) id)
    have hrowstep := bindGroup_row cfg hrow s.dev hw1 idx ifindex
    have hfree' : ∀ x ∈ pre ++ post, ∀ p i, x.At p i → (some (ppe, idx) : FoeRef) ≠ some (p, i) := by
      rintro x hx p i hat heq
      cases heq
      refine hfree x ?_ (hplaces.ip_ne x hx) hat
      rw [hsplit]
      simp only [List.mem_append, List.mem_cons] at hx ⊢
      tauto
    have hplaces1 : Places (pre ++ g :: post) hw1 := hplaces.of_key fun _ _ _ _ _ => rfl
    refine ⟨hplaces1.step hs hfree', fun x hx => ?_⟩
    rcases List.mem_cons.mp (List.perm_middle.mem_iff.mp hx) with rfl | hx
    · exact Good.of_flow hs hsends hrep
    · have hx' : x ∈ pre ++ g :: post := by
        simp only [List.mem_append, List.mem_cons] at hx ⊢
        tauto
      have howned1 : Owned (pre ++ g :: post) hw1 := howned.of_slots rfl
      exact (hgood x hx').frame
        (fun p i hat => hs.kept p i (hfree' x hx p i hat))
        (fun p i hold => howned1.others hrowstep hx hold)
  · rw [bindGroup_refused hgo]
    exact ⟨hplaces.of_key fun _ _ _ _ _ => rfl, fun x hx => (hgood x hx).frame
      (fun _ _ _ => Foe.Agree.refl _) fun _ _ _ => rfl⟩

lemma foeBind (h : Forwarding cfg s) {ppe idx : ℕ} {entry : Foe} {ifindex : IfIndex}
    (hrow : RowSafe s (.bind ppe idx entry ifindex))
    (hflow : FlowSafe cfg s (.bind ppe idx entry ifindex)) :
    Forwarding cfg (foeBind cfg s ppe idx entry ifindex) := by
  have hrows : RowsOwned (Hnat.foeBind cfg s ppe idx entry ifindex) :=
    h.rows.step cfg (.bind ppe idx entry ifindex) hrow
  revert hrows
  unfold Hnat.foeBind
  split_ifs with hcond
  · cases hkey : entry.key with
    | none => exact fun _ => h
    | some ip =>
      dsimp only
      simp only [Bool.and_eq_true, Bool.not_eq_true'] at hcond
      have hnb : ¬ chkBlist s.blist entry := by simp [hcond.2]
      rcases onFirst_cases (fun group => group.ip = ip) (Hnat.bindGroup cfg s.dev ppe idx ifindex)
        s.groups { s.hw with entry := entry } with ⟨pre, g, post, hgroups, hp, _, heq⟩ | ⟨_, heq⟩
      · have hip : g.ip = ip := by simpa using hp
        have hmem : g ∈ s.groups := by rw [hgroups]; simp
        have hkey' : entry.key = some g.ip := by rw [hkey, hip]
        obtain ⟨hplaces, hgood⟩ := h.bindGroup hgroups hkey' (hrow hcond.1 hnb g hmem hkey')
          (hflow hcond.1 hnb g hmem hkey')
        rw [heq]
        exact fun hrows => ⟨hrows, hplaces, hgood, fun hhook => by simp [hcond.1] at hhook⟩
      · rw [heq]
        exact fun hrows => ⟨hrows, h.places.of_key fun _ _ _ _ _ => rfl, fun x hx =>
          (h.good x hx).frame (fun _ _ _ => Foe.Agree.refl _) fun _ _ _ => rfl, h.unhooked⟩
  · exact fun _ => h

/-! ## Interfaces that go down -/

/-- The ports that the handler finds are those that are left when the interface has stopped. -/
lemma ports_handler (hsafe : DownSafe cfg s g ifindex stopped) :
    g.ports (if stopped then stop s.dev ifindex else s.dev) = g.ports (stop s.dev ifindex) := by
  cases stopped with
  | true => rfl
  | false => exact (hsafe.1.resolve_left (by simp)).symm

lemma ports_ne_empty (hsafe : DownSafe cfg s g ifindex stopped) (hmem : ifindex ∈ g.members)
    (hpse : g.psebmp = g.ports s.dev) (hleft : g.psebmp \ getSingleDevPseBit s.dev ifindex ≠ ∅) :
    g.ports (if stopped then stop s.dev ifindex else s.dev) ≠ ∅ := by
  rw [ports_handler hsafe]
  intro hempty
  refine hleft (Finset.sdiff_eq_empty_iff_subset.mpr ?_)
  have hstop := bmp_stop s.dev hmem
  rw [hpse, Group.ports, hstop]
  rw [Group.ports] at hempty
  rw [hempty, Finset.empty_union]
  exact livePorts_subset

/-- The devices as the handler sees them. -/
def handlerDev (s : St) (ifindex : IfIndex) (stopped : Bool) : IfIndex → Option Dev :=
  if stopped then stop s.dev ifindex else s.dev

/-- Another running member of the group has the port of the interface. -/
def SharesPort (s : St) (g : Group) (ifindex : IfIndex) : Prop :=
  getSingleDevPseBit s.dev ifindex ≠ ∅ ∧
    ∃ i ∈ g.members, i ≠ ifindex ∧ livePorts s.dev i = getSingleDevPseBit s.dev ifindex

/-- A group whose port is shared stays bound. -/
lemma ifdownGroup_bound (hsafe : DownSafe cfg s g ifindex stopped) (hmem : ifindex ∈ g.members)
    (hat : g.At ppe idx) (hgood : Good cfg s.dev hw g) (hshare : SharesPort s g ifindex) :
    (ifdownGroup cfg (handlerDev s ifindex stopped) ifindex g hw).1.At ppe idx := by
  obtain ⟨hpse, _, hne, hbears, hsends⟩ := hgood ppe idx hat
  obtain ⟨hport, i, hi, hii, hlive⟩ := hshare
  have hleft : g.psebmp \ getSingleDevPseBit (handlerDev s ifindex stopped) ifindex ≠ ∅ := by
    have hsingle : getSingleDevPseBit (handlerDev s ifindex stopped) ifindex =
        getSingleDevPseBit s.dev ifindex := by
      unfold handlerDev
      split_ifs <;> simp
    rw [hsingle]
    exact hsafe.2.2.resolve_right fun h => h i hi hii hlive
  -- The port of the interface is still there, so the ports are the same.
  have hports : g.ports (handlerDev s ifindex stopped) = g.ports s.dev := by
    rw [handlerDev, ports_handler hsafe, Group.ports, Group.ports, bmp_stop s.dev hmem]
    refine (Finset.union_eq_left.mpr ?_).symm
    intro port hp
    refine mem_bmp.mpr ⟨i, hi, ?_⟩
    rw [livePorts_stop, if_neg hii, hlive]
    exact livePorts_subset hp
  have hrow : isSingle (g.ports s.dev) ∨ g.mtblIdx ≠ none := by
    by_cases hs : isSingle (g.ports s.dev)
    · exact Or.inl hs
    · obtain ⟨_, p, row, hold, _⟩ := hsends.multi hs
      exact Or.inr (by simp [hold.1])
  unfold ifdownGroup
  rw [if_pos hmem, getHwFoe_eq_some.mpr hat]
  dsimp only
  rw [if_pos hleft]
  refine (Group.Stays.at_iff ?_).mpr hat
  have hports' : (getPseTxBmp (handlerDev s ifindex stopped) g.members).1 = g.ports s.dev := hports
  rw [hports']
  exact hwUpdate_stays hat.1 hbears hrow _ hw _ _ .del ifindex

/-- The walk over the groups: those behind it are good for the devices that are left, those before
it for the devices as they were, and no bound group whose port is shared has been lost. -/
structure Sweeping (cfg : Cfg) (s : St) (ifindex : IfIndex) (pre post : List Group) (hw : Hw) :
    Prop where
  rows : Owned (pre ++ post) hw
  places : Places (pre ++ post) hw
  done : ∀ g ∈ pre, Good cfg (stop s.dev ifindex) hw g
  todo : ∀ g ∈ post, Good cfg s.dev hw g
  bound : ∀ g ∈ s.groups, g ∈ post ∨ ∃ g' ∈ pre, g'.ip = g.ip ∧
    (g.Bound → ifindex ∈ g.members → SharesPort s g ifindex → g'.Bound)

lemma Sweeping.next (h : Sweeping cfg s ifindex pre (g :: post) hw)
    (hsafe : g.Bound → ifindex ∈ g.members → DownSafe cfg s g ifindex stopped) :
    Sweeping cfg s ifindex
      (pre ++ [(ifdownGroup cfg (handlerDev s ifindex stopped) ifindex g hw).1]) post
      (ifdownGroup cfg (handlerDev s ifindex stopped) ifindex g hw).2 := by
  set r := ifdownGroup cfg (handlerDev s ifindex stopped) ifindex g hw with hr
  have hrowstep : RowStep g hw r.1 r.2 := ifdownGroup_row cfg _ ifindex g hw
  have hgood : Good cfg s.dev hw g := h.todo g (by simp)
  have hkey := h.places.middle.key g (by simp)
  -- The group itself, and that no other flow entry is touched.
  have hself : Places (pre ++ r.1 :: post) r.2 ∧ Good cfg (stop s.dev ifindex) r.2 r.1 ∧
      (∀ x ∈ pre ++ post, ∀ ppe idx, x.At ppe idx → (hw.foe ppe idx).Agree (r.2.foe ppe idx)) ∧
      (g.Bound → ifindex ∈ g.members → SharesPort s g ifindex → r.1.Bound) := by
    by_cases hcase : g.Bound ∧ ifindex ∈ g.members
    · obtain ⟨hbound, hmem⟩ := hcase
      obtain ⟨ppe, idx, hat⟩ := Group.bound_iff.mp hbound
      have hdown := hsafe hbound hmem
      have hsingle : getSingleDevPseBit (handlerDev s ifindex stopped) ifindex =
          getSingleDevPseBit s.dev ifindex := by
        unfold handlerDev
        split_ifs <;> simp
      obtain ⟨hs, hsends⟩ := ifdownGroup_flow cfg (handlerDev s ifindex stopped)
        (h.places.middle.mac g (by simp)) hkey hmem
        (fun hleft => ports_ne_empty hdown hmem (hgood ppe idx hat).1 (hsingle ▸ hleft))
      have hports : g.ports (handlerDev s ifindex stopped) = g.ports (stop s.dev ifindex) :=
        ports_handler hdown
      have hrep : Replicates cfg (g.ports (handlerDev s ifindex stopped)) := by
        rw [hports]
        exact hdown.2.1
      have hports' : r.1.ports (stop s.dev ifindex) = r.1.ports (handlerDev s ifindex stopped) := by
        have hmembers : ∀ d, r.1.ports d = g.ports d := by
          intro d
          rw [Group.ports, hs.same.members]
          rfl
        rw [hmembers, hmembers, hports]
      refine ⟨h.places.step hs fun x hx p i hx' => h.places.place_ne x hx p i hx',
        (Good.of_flow hs hsends hrep).of_ports fun _ _ _ => hports',
        fun x hx p i hx' => hs.kept p i (h.places.place_ne x hx p i hx'), fun _ _ hshare => ?_⟩
      exact Group.bound_iff.mpr ⟨ppe, idx, ifdownGroup_bound hdown hmem hat hgood hshare⟩
    · -- The handler passes the group by, and its ports do not change.
      have heq : r = (g, hw) := by
        rw [hr]
        unfold ifdownGroup
        by_cases hmem : ifindex ∈ g.members
        · have hnot : getHwFoe g = none := getHwFoe_eq_none.mpr fun ppe idx hat =>
            hcase ⟨Group.bound_iff.mpr ⟨ppe, idx, hat⟩, hmem⟩
          rw [if_pos hmem, hnot]
        · rw [if_neg hmem]
      rw [heq]
      refine ⟨h.places, hgood.of_ports fun ppe idx hat => ?_, fun _ _ _ _ _ => Foe.Agree.refl _,
        fun hbound hmem _ => absurd ⟨hbound, hmem⟩ hcase⟩
      have hmem : ifindex ∉ g.members := fun hmem =>
        hcase ⟨Group.bound_iff.mpr ⟨ppe, idx, hat⟩, hmem⟩
      rw [Group.ports, getPseTxBmp_stop hmem]
      rfl
  obtain ⟨hplaces, hnew, hfoe, hkeep⟩ := hself
  have hothers : ∀ x ∈ pre ++ post, ∀ ppe idx, x.Holds ppe idx → r.2.slots ppe idx = hw.slots ppe idx :=
    fun x hx ppe idx hold => h.rows.others hrowstep hx hold
  refine ⟨by simpa using h.rows.step hrowstep, by simpa using hplaces, ?_, ?_, ?_⟩
  · intro x hx
    rcases List.mem_append.mp hx with hx | hx
    · have hx' : x ∈ pre ++ post := List.mem_append_left _ hx
      exact (h.done x hx).frame (hfoe x hx') (hothers x hx')
    · rw [List.mem_singleton.mp hx]
      exact hnew
  · intro x hx
    have hx' : x ∈ pre ++ post := List.mem_append_right _ hx
    exact (h.todo x (List.mem_cons_of_mem _ hx)).frame (hfoe x hx') (hothers x hx')
  · intro x hx
    rcases h.bound x hx with hx | ⟨x', hx', hip, hkept⟩
    · rcases List.mem_cons.mp hx with rfl | hx
      · exact Or.inr ⟨r.1, by simp, hrowstep.same.ip, hkeep⟩
      · exact Or.inl hx
    · exact Or.inr ⟨x', List.mem_append_left _ hx', hip, hkept⟩

/-- After the handler the invariant holds for the devices that are left, and a group whose port is
shared is still bound. -/
lemma ifdownHandle (h : Forwarding cfg s) {ifindex : IfIndex} {stopped : Bool}
    (hflow : FlowSafe cfg s (.ifdown ifindex stopped)) :
    Forwarding cfg (ifdownHandle cfg s ifindex stopped) ∧
    ∀ g ∈ s.groups, g.Bound → ifindex ∈ g.members → SharesPort s g ifindex →
      ∃ g' ∈ (Hnat.ifdownHandle cfg s ifindex stopped).groups, g'.ip = g.ip ∧ g'.Bound := by
  cases hhook : s.hook with
  | false =>
    have heq : Hnat.ifdownHandle cfg s ifindex stopped = { s with dev := stop s.dev ifindex } := by
      simp [Hnat.ifdownHandle, hhook]
    have hnot := h.unhooked hhook
    rw [heq]
    refine ⟨⟨h.rows, h.places, fun g hg => Good.of_unbound (hnot g hg), fun _ => hnot⟩, ?_⟩
    intro g hg hbound
    obtain ⟨ppe, idx, hat⟩ := Group.bound_iff.mp hbound
    exact absurd hat (hnot g hg ppe idx)
  | true =>
    have hend : Sweeping cfg s ifindex
        (sweep (ifdownGroup cfg (handlerDev s ifindex stopped) ifindex) s.groups s.hw).1 []
        (sweep (ifdownGroup cfg (handlerDev s ifindex stopped) ifindex) s.groups s.hw).2 :=
      sweep_rule (Q := fun pre post hw => Sweeping cfg s ifindex pre post hw)
        ⟨h.rows, h.places, by simp, h.good, fun g hg => Or.inl hg⟩
        fun _ g _ _ hg hw => hw.next fun hbound hmem => hflow g hg hbound hmem
    have heq : Hnat.ifdownHandle cfg s ifindex stopped = { s with
        groups := (sweep (ifdownGroup cfg (handlerDev s ifindex stopped) ifindex) s.groups s.hw).1
        hw := (sweep (ifdownGroup cfg (handlerDev s ifindex stopped) ifindex) s.groups s.hw).2
        dev := stop s.dev ifindex } := by
      simp [Hnat.ifdownHandle, hhook, handlerDev]
    rw [heq]
    refine ⟨⟨?_, ?_, hend.done, fun hf => by simp [hhook] at hf⟩, fun g hg hbound hmem hshare => ?_⟩
    · have hrows := hend.rows
      rwa [List.append_nil] at hrows
    · have hplaces := hend.places
      rwa [List.append_nil] at hplaces
    · rcases hend.bound g hg with hg | ⟨g', hg', hip, hkept⟩
      · cases hg
      · exact ⟨g', hg', hip, hkept hbound hmem hshare⟩

/-! ## Events that only unbind -/

/-- The group is unbound or stays as it is, and no flow entry or row is changed. -/
structure Released (g : Group) (hw : Hw) (g' : Group) (hw' : Hw) : Prop where
  same : g.Same g'
  foe : FoeKept none hw hw'
  slots : hw'.slots = hw.slots
  group : (∀ ppe idx, ¬ g'.At ppe idx) ∨
    g.Stays g' ∧ g'.psebmp = g.psebmp ∧ g'.mtblIdx = g.mtblIdx

lemma Released.refl (g : Group) (hw : Hw) : Released g hw g hw :=
  ⟨Group.Same.refl g, FoeKept.refl none hw, rfl, Or.inr ⟨⟨rfl, rfl⟩, rfl, rfl⟩⟩

lemma unbind_not_at (g : Group) (ppe idx : ℕ) : ¬ g.unbind.At ppe idx := by
  rintro ⟨hppe, _⟩
  cases hppe

lemma blistGroup_released (cfg : Cfg) (dev : IfIndex → Option Dev) (blist : Blist) (g : Group)
    (hw : Hw) : Released g hw (blistGroup cfg dev blist g hw).1 (blistGroup cfg dev blist g hw).2 := by
  unfold blistGroup
  split_ifs
  · have hnpu : FoeKept none hw (groupTeardownNpu cfg dev g hw).2 := by
      unfold groupTeardownNpu
      cases getHwFoe g with
      | none => exact FoeKept.refl none hw
      | some ref => exact FoeKept.of_eq (npuDeleteStations_only cfg hw _ _ none).foe
    have hkept := groupTeardownNpu_kept cfg dev g hw
    refine ⟨hkept.same.trans ⟨rfl, rfl, rfl⟩, hnpu.trans (entryDelete_kept cfg _ _ _ none), ?_,
      Or.inl (unbind_not_at _)⟩
    exact (entryDelete_slots cfg _ _ _).trans hkept.slots
  · exact Released.refl g hw

lemma groupHandle_released (cfg : Cfg) (dev : IfIndex → Option Dev) (enable : Bool) (g : Group)
    (hw : Hw) :
    Released g hw (groupHandle cfg dev enable g hw).1 (groupHandle cfg dev enable g hw).2 ∧
      (enable = false → ∀ ppe idx, ¬ (groupHandle cfg dev enable g hw).1.At ppe idx) := by
  unfold groupHandle
  cases href : getHwFoe g with
  | none => exact ⟨Released.refl g hw, fun _ => getHwFoe_eq_none.mp href⟩
  | some ref =>
    cases enable with
    | true => exact ⟨Released.refl g hw, fun h => by cases h⟩
    | false =>
      refine ⟨⟨⟨rfl, rfl, rfl⟩, ?_, ?_, Or.inl (unbind_not_at g)⟩, fun _ => unbind_not_at g⟩
      · exact (entryDelete_kept cfg hw _ _ none).trans
          (FoeKept.of_eq (npuDeleteStations_only cfg _ _ _ none).foe)
      · exact (npuDeleteStations_slots cfg _ _ _ none).trans (entryDelete_slots cfg hw _ _)

lemma groupPath_released (cfg : Cfg) (hwPath : Bool) (g : Group) (hw : Hw) :
    Released g hw (groupPath cfg hwPath g hw).1 (groupPath cfg hwPath g hw).2 := by
  cases hwPath with
  | true => exact ⟨⟨rfl, rfl, rfl⟩, FoeKept.refl none hw, rfl, Or.inr ⟨⟨rfl, rfl⟩, rfl, rfl⟩⟩
  | false =>
    exact ⟨⟨rfl, rfl, rfl⟩, entryDelete_kept cfg hw _ _ none, entryDelete_slots cfg hw _ _,
      Or.inl (unbind_not_at _)⟩

lemma release (hplaces : Places (pre ++ g :: post) hw)
    (hgood : ∀ x ∈ pre ++ g :: post, Good cfg dev hw x) (hr : Released g hw g' hw') :
    Places (pre ++ g' :: post) hw' ∧ ∀ x ∈ pre ++ g' :: post, Good cfg dev hw' x := by
  have hall : ∀ ppe idx, (hw.foe ppe idx).Agree (hw'.foe ppe idx) := fun ppe idx =>
    hr.foe ppe idx (by simp)
  have hframe : ∀ x, Good cfg dev hw x → Good cfg dev hw' x := fun x hx =>
    hx.frame (fun ppe idx _ => hall ppe idx) fun ppe idx _ => by rw [hr.slots]
  refine ⟨?_, fun x hx => ?_⟩
  · rcases hr.group with hnot | ⟨hstays, _, _⟩
    · exact hplaces.unbind hr.same hnot hr.foe
    · exact (hplaces.congr hr.same.ip hr.same.mac hstays).of_key
        fun _ _ ppe idx _ => (hall ppe idx).key
  · have hmem : x = g' ∨ x ∈ pre ++ post := List.mem_cons.mp (List.perm_middle.mem_iff.mp hx)
    rcases hmem with rfl | hx
    · rcases hr.group with hnot | ⟨hstays, hpse, hidx⟩
      · exact Good.of_unbound hnot
      · exact (hframe g (hgood g (by simp))).congr hstays hr.same hpse hidx
    · refine hframe x (hgood x ?_)
      simp only [List.mem_append, List.mem_cons] at hx ⊢
      tauto

lemma blistHandle (h : Forwarding cfg s) {ip : Ip} {mask : ℕ} {add : Bool}
    (hrow : RowSafe s (.blist ip mask add)) : Forwarding cfg (blistHandle cfg s ip mask add) := by
  have hrows : RowsOwned (Hnat.blistHandle cfg s ip mask add) :=
    h.rows.step cfg (.blist ip mask add) hrow
  revert hrows
  unfold Hnat.blistHandle
  split_ifs with hadd hany
  · exact fun _ => h
  · intro hrows
    have hend := sweep_invariant
      (P := fun groups hw => Places groups hw ∧ (∀ x ∈ groups, Good cfg s.dev hw x) ∧
        (s.hook = false → ∀ x ∈ groups, ∀ ppe idx, ¬ x.At ppe idx))
      (f := blistGroup cfg s.dev ⟨ip, checkMask mask⟩) ⟨h.places, h.good, h.unhooked⟩
      (by
        rintro pre g post hw _ ⟨hplaces, hgood, hnot⟩
        have hr := blistGroup_released cfg s.dev ⟨ip, checkMask mask⟩ g hw
        obtain ⟨hplaces', hgood'⟩ := release hplaces hgood hr
        refine ⟨hplaces', hgood', fun hhook x hx => ?_⟩
        rcases List.mem_cons.mp (List.perm_middle.mem_iff.mp hx) with rfl | hx
        · rcases hr.group with hun | ⟨hstays, _, _⟩
          · exact hun
          · intro ppe idx hat
            exact hnot hhook g (by simp) ppe idx (hstays.at_iff.mp hat)
        · refine hnot hhook x ?_
          simp only [List.mem_append, List.mem_cons] at hx ⊢
          tauto)
    exact ⟨hrows, hend.1, hend.2.1, hend.2.2⟩
  · exact fun _ => ⟨h.rows, h.places, h.good, h.unhooked⟩

lemma offloadHandle (h : Forwarding cfg s) {enable : Bool} (hrow : RowSafe s (.offload enable)) :
    Forwarding cfg (offloadHandle cfg s enable) := by
  have hrows : RowsOwned (Hnat.offloadHandle cfg s enable) := h.rows.step cfg (.offload enable) hrow
  have hend := sweep_rule
    (Q := fun pre post hw => Places (pre ++ post) hw ∧ (∀ x ∈ pre ++ post, Good cfg s.dev hw x) ∧
      (enable = false → ∀ x ∈ pre, ∀ ppe idx, ¬ x.At ppe idx))
    (f := groupHandle cfg s.dev enable) ⟨h.places, h.good, by simp⟩
    (by
      rintro pre g post hw _ ⟨hplaces, hgood, hnot⟩
      obtain ⟨hr, hun⟩ := groupHandle_released cfg s.dev enable g hw
      obtain ⟨hplaces', hgood'⟩ := release hplaces hgood hr
      refine ⟨by simpa using hplaces', by simpa using hgood', fun he x hx => ?_⟩
      rcases List.mem_append.mp hx with hx | hx
      · exact hnot he x hx
      · rw [List.mem_singleton.mp hx]
        exact hun he)
  rw [List.append_nil] at hend
  exact ⟨hrows, hend.1, hend.2.1, hend.2.2⟩

lemma groupPathSwitch (h : Forwarding cfg s) {groupIdx : Option ℕ} {hwPath : Bool}
    {wifi : Option Ip} (hrow : RowSafe s (.path groupIdx hwPath wifi)) :
    Forwarding cfg (groupPathSwitch cfg s groupIdx hwPath wifi) := by
  have hrows : RowsOwned (Hnat.groupPathSwitch cfg s groupIdx hwPath wifi) :=
    h.rows.step cfg (.path groupIdx hwPath wifi) hrow
  revert hrows
  unfold Hnat.groupPathSwitch
  rcases onFirst_cases (pathLook s groupIdx wifi) (groupPath cfg hwPath) s.groups s.hw with
    ⟨pre, g, post, hgroups, _, _, heq⟩ | ⟨_, heq⟩
  · rw [heq]
    intro hrows
    have hr := groupPath_released cfg hwPath g s.hw
    obtain ⟨hplaces, hgood⟩ := release (hgroups ▸ h.places) (hgroups ▸ h.good) hr
    refine ⟨hrows, hplaces, hgood, fun hhook x hx => ?_⟩
    have hnot := h.unhooked hhook
    rcases List.mem_cons.mp (List.perm_middle.mem_iff.mp hx) with rfl | hx
    · rcases hr.group with hun | ⟨hstays, _, _⟩
      · exact hun
      · intro ppe idx hat
        exact hnot g (by rw [hgroups]; simp) ppe idx (hstays.at_iff.mp hat)
    · refine hnot x ?_
      rw [hgroups]
      simp only [List.mem_append, List.mem_cons] at hx ⊢
      tauto
  · rw [heq]
    exact fun _ => h

/-! ## Runs -/

/-- The condition on an event. -/
def ForwardSafe (cfg : Cfg) (s : St) (e : Event) : Prop := RowSafe s e ∧ FlowSafe cfg s e

instance (cfg : Cfg) (s : St) (e : Event) : Decidable (ForwardSafe cfg s e) := instDecidableAnd

lemma step (h : Forwarding cfg s) (e : Event) (hsafe : ForwardSafe cfg s e) :
    Forwarding cfg (step cfg s e) := by
  obtain ⟨hrow, hflow⟩ := hsafe
  cases e with
  | mdb type ip ifindex => exact h.groupUpdate hrow hflow
  | bind ppe idx entry ifindex => exact h.foeBind hrow hflow
  | ifdown ifindex stopped => exact (h.ifdownHandle hflow).1
  | blist ip mask add => exact h.blistHandle hrow
  | offload enable => exact h.offloadHandle hrow
  | path groupIdx hwPath wifi => exact h.groupPathSwitch hrow
  | dev ifindex d =>
    refine ⟨h.rows, h.places, fun g hg => (h.good g hg).of_ports fun ppe idx hat => ?_, h.unhooked⟩
    exact hflow g hg (Group.bound_iff.mpr ⟨ppe, idx, hat⟩)
  | flow ppe idx foe =>
    have hagree : ∀ g ∈ s.groups, ∀ p i, g.At p i →
        (s.hw.foe p i).Agree ((s.hw.set (some (ppe, idx)) foe).foe p i) := by
      intro g hg p i hat
      by_cases hplace : ppe = p ∧ idx = i
      · obtain ⟨rfl, rfl⟩ := hplace
        obtain ⟨hkey, hmcast, hdp⟩ := hflow g hg hat
        have hfoe : (s.hw.set (some (ppe, idx)) foe).foe ppe idx = foe :=
          Hw.get_set s.hw (some (ppe, idx)) foe
        rw [hfoe]
        exact ⟨hkey, hmcast, hdp⟩
      · refine FoeKept.set (some (ppe, idx)) s.hw foe p i fun heq => hplace ?_
        cases heq
        exact ⟨rfl, rfl⟩
    exact ⟨Owned.of_slots h.rows (Hw.set_slots s.hw _ foe),
      h.places.of_key fun g hg p i hat => (hagree g hg p i hat).key,
      fun g hg => (h.good g hg).frame (hagree g hg) fun _ _ _ => by
        rw [Hnat.step, Hw.set_slots], h.unhooked⟩
  | refuse refuse =>
    exact ⟨Owned.of_slots h.rows rfl, h.places.of_key fun _ _ _ _ _ => rfl,
      fun g hg => (h.good g hg).frame (fun _ _ _ => Foe.Agree.refl _) fun _ _ _ => rfl, h.unhooked⟩

end Forwarding

/-- Each bound group has for its bitmap the ports of its running members, which are not none.  A
single port is the destination of the flow entry, and the group has no row; to several the entry
sends by the group's row. -/
def ForwardsToRunning (cfg : Cfg) (s : St) : Prop :=
  ∀ g ∈ s.groups, ∀ ppe idx, g.At ppe idx →
    g.psebmp = g.ports s.dev ∧ g.ports s.dev ≠ ∅ ∧
    (isSingle (g.ports s.dev) → (s.hw.foe ppe idx).mcast = false ∧
      (∃ port ∈ g.ports s.dev, port.dp = some (s.hw.foe ppe idx).dp) ∧ g.mtblIdx = none) ∧
    (¬ isSingle (g.ports s.dev) → (s.hw.foe ppe idx).mcast = true ∧
      ∃ p row, g.Holds p row ∧ (s.hw.slots p row).px = rowPorts cfg (g.ports s.dev))

/-- A bound group whose member goes down is still bound when another running member has the same
port. -/
def KeepsShared (s : St) (e : Event) (s' : St) : Prop :=
  ∀ ifindex stopped, e = .ifdown ifindex stopped → ∀ g ∈ s.groups, g.Bound → ifindex ∈ g.members →
    Forwarding.SharesPort s g ifindex → ∃ g' ∈ s'.groups, g'.ip = g.ip ∧ g'.Bound

lemma Forwarding.forwards (h : Forwarding cfg s) : ForwardsToRunning cfg s := by
  intro g hg ppe idx hat
  obtain ⟨hpse, hrep, hne, _, hsingle, hmulti⟩ := h.good g hg ppe idx hat
  refine ⟨hpse, hne, hsingle, fun hs => ?_⟩
  obtain ⟨hmcast, p, row, hold, hpx⟩ := hmulti hs
  exact ⟨hmcast, p, row, hold, by rw [hpx, portMask_eq hrep hne hs]⟩

/-- In a run whose steps meet the condition, after each event every bound group forwards to exactly
its running members, and no group with a running member on the port is torn down. -/
theorem forwards_to_running (cfg : Cfg) (dev : IfIndex → Option Dev) (hook : Bool)
    (refuse : Ip → ℕ → Bool) (es : List Event)
    (hsafe : Runs.AllSteps (step cfg) (Forwarding.ForwardSafe cfg) (St.init dev hook refuse) es) :
    Runs.AllSteps (step cfg)
      (fun s e => ForwardsToRunning cfg (step cfg s e) ∧ KeepsShared s e (step cfg s e))
      (St.init dev hook refuse) es := by
  rw [Runs.allSteps_iff] at hsafe ⊢
  intro es1 e es2 heq
  have hbefore : Forwarding cfg (Runs.run (step cfg) (St.init dev hook refuse) es1) := by
    have hsafe1 : Runs.AllSteps (step cfg) (Forwarding.ForwardSafe cfg) (St.init dev hook refuse) es1 :=
      Runs.allSteps_iff.mpr fun es3 e3 es4 h34 => hsafe es3 e3 (es4 ++ e :: es2) (by simp [heq, h34])
    exact hsafe1.invariant (Forwarding.init cfg dev hook refuse) fun _ e h he => h.step e he
  have hstep := hsafe es1 e es2 heq
  refine ⟨(hbefore.step e hstep).forwards, ?_⟩
  rintro ifindex stopped rfl g hg hbound hmem hshare
  exact (hbefore.ifdownHandle hstep.2).2 g hg hbound hmem hshare

/-- A switch with DSA and an NPU. -/
def sampleDsaCfg : Cfg := ⟨true, true, 64, 2, 16, fun _ => 0⟩

/-- Two ports of a switch and another port are members; one of the two goes down. -/
theorem forwards_shared : Runs.AllSteps (step sampleDsaCfg)
    (fun s e => ForwardsToRunning sampleDsaCfg (step sampleDsaCfg s e) ∧
      KeepsShared s e (step sampleDsaCfg s e))
    (St.init sampleDev true fun _ _ => false)
    [.flow 0 1 sampleEntry, .mdb .new sampleIp 3, .bind 0 1 sampleEntry 3, .mdb .new sampleIp 4,
      .mdb .new sampleIp 2, .ifdown 3 true] :=
  forwards_to_running sampleDsaCfg sampleDev true (fun _ _ => false) _ (by decide +kernel)

/-- Two ports of a switch are the members and the group is bound. -/
def sampleShared : List Event :=
  [.flow 0 1 sampleEntry, .mdb .new sampleIp 3, .mdb .new sampleIp 4, .bind 0 1 sampleEntry 3]

/-- When one of the two goes down, the group is torn down although the other one runs. -/
theorem shared_port_torn_down : ¬ Runs.AllSteps (step sampleDsaCfg)
    (fun s e => ForwardsToRunning sampleDsaCfg (step sampleDsaCfg s e) ∧
      KeepsShared s e (step sampleDsaCfg s e))
    (St.init sampleDev true fun _ _ => false) (sampleShared ++ [.ifdown 3 true]) := by
  intro h
  set s := Runs.run (step sampleDsaCfg) (St.init sampleDev true fun _ _ => false) sampleShared with hs
  obtain ⟨_, hkeeps⟩ := Runs.allSteps_iff.mp h sampleShared (.ifdown 3 true) [] rfl
  have hbound : ∃ g ∈ s.groups, g.Bound ∧ 3 ∈ g.members ∧ getSingleDevPseBit s.dev 3 ≠ ∅ ∧
      ∃ i ∈ g.members, i ≠ 3 ∧ livePorts s.dev i = getSingleDevPseBit s.dev 3 := by
    decide +kernel
  obtain ⟨g, hg, hb, hmem, hshare⟩ := hbound
  obtain ⟨g', hg', _, hb'⟩ := hkeeps 3 true rfl g hg hb hmem hshare
  have hnone : ∀ g ∈ (step sampleDsaCfg s (.ifdown 3 true)).groups, ¬ g.Bound := by decide +kernel
  exact hnone g' hg' hb'

end Hnat
