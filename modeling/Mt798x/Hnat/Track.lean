import Mt798x.Hnat.Flows

/-!
# Where the groups are bound

A group that is bound has a place, a flow entry for its address there, and no other group has the
same place.  The updates of a group move or clear its own place only.
-/

namespace Hnat

variable {cfg : Cfg} {dev : IfIndex → Option Dev} {g g' : Group} {hw hw' : Hw} {ppe idx : ℕ}
  {place : FoeRef} {groups groups' pre post : List Group}

/-- The group is bound to a flow entry. -/
def Group.At (g : Group) (ppe idx : ℕ) : Prop := g.ppeId = some ppe ∧ g.foeIdx = some idx

instance (g : Group) (ppe idx : ℕ) : Decidable (g.At ppe idx) := instDecidableAnd

lemma Group.At.unique {ppe' idx' : ℕ} (h : g.At ppe idx) (h' : g.At ppe' idx') :
    ppe' = ppe ∧ idx' = idx :=
  ⟨Option.some.inj (h'.1.symm.trans h.1), Option.some.inj (h'.2.symm.trans h.2)⟩

lemma getHwFoe_eq_some : getHwFoe g = some (ppe, idx) ↔ g.At ppe idx := by
  unfold getHwFoe Group.At
  cases g.ppeId <;> cases g.foeIdx <;> simp

lemma getHwFoe_eq_none : getHwFoe g = none ↔ ∀ ppe idx, ¬ g.At ppe idx := by
  constructor
  · intro h ppe idx hat
    rw [getHwFoe_eq_some.mpr hat] at h
    cases h
  · intro h
    by_contra hne
    obtain ⟨⟨ppe, idx⟩, href⟩ := Option.ne_none_iff_exists'.mp hne
    exact h ppe idx (getHwFoe_eq_some.mp href)

lemma Group.Unbound.not_at (h : g.Unbound) (ppe idx : ℕ) : ¬ g.At ppe idx := by
  rintro ⟨hppe, _⟩
  rw [h.1] at hppe
  cases hppe

lemma Group.Stays.at_iff (h : g.Stays g') : g'.At ppe idx ↔ g.At ppe idx := by
  rw [Group.At, Group.At, h.1, h.2]

@[simp] lemma Group.station_at (type : Mdb) (ifindex : IfIndex) :
    (g.station type ifindex).At ppe idx ↔ g.At ppe idx := by
  cases type <;> rfl

/-- The ports of the running members. -/
def Group.ports (g : Group) (dev : IfIndex → Option Dev) : Bmp := (getPseTxBmp dev g.members).1

/-- What an update of a group does to where the groups are bound: it changes one place of the table,
and a group that is bound afterwards is there with the ports of its running members. -/
structure FlowStep (dev : IfIndex → Option Dev) (place : FoeRef) (g : Group) (hw : Hw) (g' : Group)
    (hw' : Hw) : Prop where
  same : g.Same g'
  kept : FoeKept place hw hw'
  lands : ∀ ppe idx, g'.At ppe idx → place = some (ppe, idx) ∧
    (hw'.foe ppe idx).key = some g.ip ∧ g'.psebmp = g.ports dev

/-- A group that is bound to a place sends to the ports, which are such that it is not torn down. -/
structure Reaches (cfg : Cfg) (bmp : Bmp) (g : Group) (hw : Hw) (foe : Foe) : Prop where
  nonempty : bmp ≠ ∅
  bears : cfg.npu = false → ¬ noNpuTears cfg bmp
  sends : Sends g hw foe bmp (portMask bmp cfg.toNpu)

/-- The group, if it is bound, sends to the ports. -/
def Group.SendsTo (cfg : Cfg) (bmp : Bmp) (g : Group) (hw : Hw) : Prop :=
  ∀ ppe idx, g.At ppe idx → Reaches cfg bmp g hw (hw.foe ppe idx)

lemma FlowStep.of_unbound (hg : ∀ ppe idx, ¬ g.At ppe idx) (place : FoeRef) (hw : Hw) :
    FlowStep dev place g hw g hw :=
  ⟨Group.Same.refl g, FoeKept.refl place hw, fun ppe idx hat => absurd hat (hg ppe idx)⟩

lemma Settled.flow (hat : g.At ppe idx) (hkey : (hw.foe ppe idx).key = some g.ip) (hsame : g.Same g')
    (h : Settled cfg g hw (some (ppe, idx)) (g.ports dev) g' hw') :
    FlowStep dev (some (ppe, idx)) g hw g' hw' ∧ g'.SendsTo cfg (g.ports dev) hw' := by
  have hplace : ∀ ppe' idx', g'.At ppe' idx' → g.Stays g' ∧ ppe' = ppe ∧ idx' = idx ∧
      (hw'.foe ppe idx).key = some g.ip ∧ Reaches cfg (g.ports dev) g' hw' (hw'.foe ppe idx) := by
    intro ppe' idx' hat'
    have hbound : ¬ g'.Unbound := fun hun => hun.not_at ppe' idx' hat'
    obtain ⟨hstays, hkey', hsends⟩ := h.ends.resolve_left hbound
    obtain ⟨hne, hbears⟩ := h.bears.resolve_left hbound
    obtain ⟨hppe, hidx⟩ := hat.unique (hstays.at_iff.mp hat')
    have hget : (hw.get (some (ppe, idx))).key = some g.ip := hkey
    exact ⟨hstays, hppe, hidx, hkey'.trans hget, hne, hbears, hsends (by rw [hget]; rfl)⟩
  refine ⟨⟨hsame, h.kept, fun ppe' idx' hat' => ?_⟩, fun ppe' idx' hat' => ?_⟩
  · obtain ⟨_, rfl, rfl, hkey', _⟩ := hplace ppe' idx' hat'
    exact ⟨rfl, hkey', h.psebmp.resolve_left fun hun => hun.not_at ppe' idx' hat'⟩
  · obtain ⟨_, rfl, rfl, _, hsends⟩ := hplace ppe' idx' hat'
    exact hsends

lemma eventHwHandle_flow (hmac : g.mac = getMacFromMdb g.ip)
    (hkey : ∀ ppe idx, g.At ppe idx → (hw.foe ppe idx).key = some g.ip) (type : Mdb)
    (ifindex : IfIndex) :
    FlowStep dev (getHwFoe g) g hw (eventHwHandle cfg dev g hw type ifindex).1
      (eventHwHandle cfg dev g hw type ifindex).2 ∧
    (eventHwHandle cfg dev g hw type ifindex).1.SendsTo cfg (g.ports dev)
      (eventHwHandle cfg dev g hw type ifindex).2 := by
  have hsame := eventHwHandle_same cfg dev g hw type ifindex
  cases href : getHwFoe g with
  | none =>
    have heq : eventHwHandle cfg dev g hw type ifindex = (g, hw) := by simp [eventHwHandle, href]
    have hnot := getHwFoe_eq_none.mp href
    rw [heq]
    exact ⟨.of_unbound hnot none hw, fun ppe idx hat => absurd hat (hnot ppe idx)⟩
  | some ref =>
    obtain ⟨ppe, idx⟩ := ref
    have hat := getHwFoe_eq_some.mp href
    refine Settled.flow hat (hkey ppe idx hat) hsame ?_
    unfold eventHwHandle
    rw [href]
    dsimp only
    have hsome : ¬ (hw.get (some (ppe, idx))).key.isNone := by
      have : (hw.get (some (ppe, idx))).key = some g.ip := hkey ppe idx hat
      simp [this]
    rw [if_neg hsome]
    split_ifs with hne
    · exact hwUpdate_settled hat.1 hmac pdma_notMem_bmp hne dev hw _ _ type ifindex
    · exact ⟨⟨entryDelete_kept cfg hw _ _ _, Or.inl ⟨rfl, rfl⟩⟩, Or.inl ⟨rfl, rfl⟩, Or.inl ⟨rfl, rfl⟩⟩

lemma groupNotify_flow (cfg : Cfg) (dev : IfIndex → Option Dev) (hmac : g.mac = getMacFromMdb g.ip)
    (hkey : ∀ ppe idx, g.At ppe idx → (hw.foe ppe idx).key = some g.ip) {hook : Bool}
    (hhook : hook = false → ∀ ppe idx, ¬ g.At ppe idx) (type : Mdb) (ifindex : IfIndex) :
    FlowStep dev (getHwFoe g) (g.station type ifindex) hw
      (groupNotify cfg dev hook type ifindex g hw).1
      (groupNotify cfg dev hook type ifindex g hw).2 ∧
    (groupNotify cfg dev hook type ifindex g hw).1.SendsTo cfg ((g.station type ifindex).ports dev)
      (groupNotify cfg dev hook type ifindex g hw).2 := by
  have hplace : getHwFoe (g.station type ifindex) = getHwFoe g := by cases type <;> rfl
  rw [← hplace]
  unfold groupNotify
  cases hook with
  | false =>
    have hnot : ∀ ppe idx, ¬ (g.station type ifindex).At ppe idx := fun ppe idx hat =>
      hhook rfl ppe idx ((Group.station_at type ifindex).mp hat)
    exact ⟨.of_unbound hnot _ hw, fun ppe idx hat => absurd hat (hnot ppe idx)⟩
  | true =>
    refine eventHwHandle_flow ?_ (fun ppe idx hat => ?_) type ifindex
    · rw [Group.station_ip]
      cases type <;> exact hmac
    · rw [Group.station_ip]
      exact hkey ppe idx ((Group.station_at type ifindex).mp hat)

/-- An interface that goes down updates a group that it is a member of, or tears it down. -/
lemma ifdownGroup_flow (cfg : Cfg) (dev : IfIndex → Option Dev) (hmac : g.mac = getMacFromMdb g.ip)
    (hkey : ∀ ppe idx, g.At ppe idx → (hw.foe ppe idx).key = some g.ip) {ifindex : IfIndex}
    (hmem : ifindex ∈ g.members)
    (hne : g.psebmp \ getSingleDevPseBit dev ifindex ≠ ∅ → g.ports dev ≠ ∅) :
    FlowStep dev (getHwFoe g) g hw (ifdownGroup cfg dev ifindex g hw).1
      (ifdownGroup cfg dev ifindex g hw).2 ∧
    (ifdownGroup cfg dev ifindex g hw).1.SendsTo cfg (g.ports dev)
      (ifdownGroup cfg dev ifindex g hw).2 := by
  have hsame := (ifdownGroup_row cfg dev ifindex g hw).same
  cases href : getHwFoe g with
  | none =>
    have heq : ifdownGroup cfg dev ifindex g hw = (g, hw) := by simp [ifdownGroup, href]
    have hnot := getHwFoe_eq_none.mp href
    rw [heq]
    exact ⟨.of_unbound hnot none hw, fun ppe idx hat => absurd hat (hnot ppe idx)⟩
  | some ref =>
    obtain ⟨ppe, idx⟩ := ref
    have hat := getHwFoe_eq_some.mp href
    refine Settled.flow hat (hkey ppe idx hat) hsame ?_
    unfold ifdownGroup
    rw [if_pos hmem, href]
    dsimp only
    split_ifs with hleft
    · exact hwUpdate_settled hat.1 hmac pdma_notMem_bmp (hne hleft) dev hw _ _ .del ifindex
    · refine ⟨⟨?_, Or.inl ⟨rfl, rfl⟩⟩, Or.inl ⟨rfl, rfl⟩, Or.inl ⟨rfl, rfl⟩⟩
      exact (entryDelete_kept cfg hw _ _ _).trans (mtblTeardown_kept g _ _).1

/-! ## Binds -/

/-- The group with the place of a packet. -/
def Group.bindTo (g : Group) (ppe idx : ℕ) : Group := { g with ppeId := some ppe, foeIdx := some idx }

/-- Whether `hnat_mcast_npu_update` adds clients when the group gets a bitmap. -/
def npuAdds (psebmp bmp : Bmp) (port : Option ℕ) : Bool :=
  decide (Port.gdma1 ∈ bmp) && isMulti bmp &&
    !(decide (Port.gdma1 ∈ psebmp) && isMulti psebmp && port.isNone)

/-- The NPU takes the clients that a bind tells it: a switch port of its own is there already or is
not refused; of the ports of the group none is there or refused. -/
def Accepts (cfg : Cfg) (dev : IfIndex → Option Dev) (g : Group) (hw : Hw) (ifindex : IfIndex) : Prop :=
  cfg.toNpu → npuAdds g.psebmp (g.ports dev) (getDsaPort dev ifindex) →
    match getDsaPort dev ifindex with
    | some port => port % 2 ^ 8 ∈ hw.npu g.ip ∨ hw.refuse g.ip (port % 2 ^ 8) = false
    | none => ∀ port ∈ tagPorts (getPseTxBmp dev g.members).2.toU8,
        port ∉ hw.npu g.ip ∧ hw.refuse g.ip port = false

instance (cfg : Cfg) (dev : IfIndex → Option Dev) (g : Group) (hw : Hw) (ifindex : IfIndex) :
    Decidable (Accepts cfg dev g hw ifindex) := by
  unfold Accepts
  cases getDsaPort dev ifindex <;> infer_instance

/-- What the update of the row and the flow entry leaves alone. -/
structure RestKept (ref : FoeRef) (g : Group) (hw : Hw) (g' : Group) (hw' : Hw) : Prop where
  offload : g'.offload = g.offload
  npu : hw'.npu = hw.npu
  refuse : hw'.refuse = hw.refuse
  foe : ref = none → hw'.foe = hw.foe

lemma RestKept.set (ref : FoeRef) (g : Group) (hw : Hw) (foe : Foe) :
    RestKept ref g hw g (hw.set ref foe) := by
  cases ref with
  | none => exact ⟨rfl, rfl, rfl, fun _ => rfl⟩
  | some place => exact ⟨rfl, rfl, rfl, fun h => by cases h⟩

lemma RestKept.trans {g'' : Group} {hw'' : Hw} (h : RestKept place g hw g' hw')
    (h' : RestKept place g' hw' g'' hw'') : RestKept place g hw g'' hw'' :=
  ⟨h'.offload.trans h.offload, h'.npu.trans h.npu, h'.refuse.trans h.refuse,
    fun hn => (h'.foe hn).trans (h.foe hn)⟩

lemma mtblTeardown_rest (g : Group) (hw : Hw) (ref : FoeRef) :
    RestKept ref g hw (mtblTeardown g hw).1 (mtblTeardown g hw).2 := by
  unfold mtblTeardown
  split <;> exact ⟨rfl, rfl, rfl, fun _ => rfl⟩

lemma mtblSetup_rest (cfg : Cfg) (g : Group) (hw : Hw) (ref : FoeRef) (bmp : Bmp) (toNpu : Bool) :
    RestKept ref g hw (mtblSetup cfg g hw ref bmp toNpu).1 (mtblSetup cfg g hw ref bmp toNpu).2.1 := by
  cases hppe : g.ppeId with
  | none =>
    simp only [mtblSetup, hppe]
    exact ⟨rfl, rfl, rfl, fun _ => rfl⟩
  | some ppe =>
    cases hidx : g.mtblIdx <|> allocMtblEntry cfg hw ppe with
    | none =>
      rw [mtblSetup_of_full hppe hidx]
      exact (RestKept.set ref g hw _).trans ⟨rfl, rfl, rfl, fun _ => rfl⟩
    | some idx =>
      rw [mtblSetup_of_row hppe hidx]
      unfold setHnatMtbl
      split_ifs <;> exact ⟨rfl, rfl, rfl, fun _ => rfl⟩

lemma foeMtblUpdate_rest (cfg : Cfg) (g : Group) (hw : Hw) (ref : FoeRef) (bmp : Bmp)
    (toNpu : Bool) :
    RestKept ref g hw (foeMtblUpdate cfg g hw ref bmp toNpu).1
      (foeMtblUpdate cfg g hw ref bmp toNpu).2 := by
  unfold foeMtblUpdate
  split_ifs
  · exact (RestKept.set ref g hw _).trans (mtblTeardown_rest g _ ref)
  · have hrest := mtblSetup_rest cfg g hw ref bmp toNpu
    generalize mtblSetup cfg g hw ref bmp toNpu = r at hrest ⊢
    obtain ⟨g', hw', ok⟩ := r
    cases ok with
    | false => exact hrest
    | true => exact hrest.trans (RestKept.set ref g' hw' _)

/-- With the NPU, a group that goes to it is updated in its clients, and then in its row. -/
lemma hwUpdate_npu (h : cfg.toNpu) (dev : IfIndex → Option Dev) (g : Group) (hw : Hw) (ref : FoeRef)
    (stag : Stag) (bmp : Bmp) (type : Mdb) (ifindex : IfIndex) :
    ∃ hw1, RestKept ref g hw g hw1 ∧ (hw1.get ref).key = (hw.get ref).key ∧
      let r := npuUpdate cfg g hw1 (hw1.get ref).dst stag.toU8 bmp type (getDsaPort dev ifindex)
      (hwUpdate cfg dev g hw ref stag bmp type ifindex).1.offload = r.1.offload ∧
      (hwUpdate cfg dev g hw ref stag bmp type ifindex).2.1.npu = r.2.1.npu ∧
      (hwUpdate cfg dev g hw ref stag bmp type ifindex).2.2 = r.2.2 := by
  obtain ⟨hnpu, hdsa⟩ : cfg.npu = true ∧ cfg.dsa = true := by simpa [Cfg.toNpu] using h
  refine ⟨hw.set ref (foeStagUpdate (hw.get ref) stag.toU8), RestKept.set ref g hw _, ?_, ?_⟩
  · rw [Hw.get_set, foeStagUpdate_key]
  · have hrest := foeMtblUpdate_rest cfg
      (npuUpdate cfg g (hw.set ref (foeStagUpdate (hw.get ref) stag.toU8))
        ((hw.set ref (foeStagUpdate (hw.get ref) stag.toU8)).get ref).dst stag.toU8 bmp type
        (getDsaPort dev ifindex)).1
      (npuUpdate cfg g (hw.set ref (foeStagUpdate (hw.get ref) stag.toU8))
        ((hw.set ref (foeStagUpdate (hw.get ref) stag.toU8)).get ref).dst stag.toU8 bmp type
        (getDsaPort dev ifindex)).2.1 ref bmp true
    have heq : hwUpdate cfg dev g hw ref stag bmp type ifindex =
        npuDsaHandle cfg dev g hw ref stag.toU8 bmp type ifindex := by
      simp [hwUpdate, hnpu, hdsa]
    rw [heq]
    exact ⟨hrest.offload, hrest.npu, rfl⟩

/-- Without it, the clients are left alone, and the answer is an error only for a group that is
torn down. -/
lemma hwUpdate_rest (h : ¬ cfg.toNpu) (dev : IfIndex → Option Dev) (g : Group) (hw : Hw)
    (ref : FoeRef) (stag : Stag) (bmp : Bmp) (type : Mdb) (ifindex : IfIndex) :
    (hwUpdate cfg dev g hw ref stag bmp type ifindex).1.Unbound ∨
    (hwUpdate cfg dev g hw ref stag bmp type ifindex).2.2 = 0 ∧
      (hwUpdate cfg dev g hw ref stag bmp type ifindex).1.offload = g.offload := by
  have hgsw : ∀ hw, (npuGswHandle cfg g hw ref bmp).2.2 = 0 ∧
      (npuGswHandle cfg g hw ref bmp).1.offload = g.offload := fun hw =>
    ⟨rfl, (foeMtblUpdate_rest cfg g hw ref bmp false).offload⟩
  unfold hwUpdate
  cases hnpu : cfg.npu with
  | false =>
    simp only [Bool.not_false, if_true]
    rcases noNpuHandle_cases cfg g hw ref stag.toU8 bmp with
      ⟨_, h⟩ | ⟨_, hns, h⟩ | ⟨_, hsingle, h⟩ | ⟨_, h⟩
    · rw [h]
      exact Or.inl ⟨rfl, rfl⟩
    · rw [h, noNpuGswMultiEth_eq hns]
      exact Or.inr (hgsw hw)
    · rw [h, noNpuSingleGdma_eq hsingle cfg]
      exact Or.inr (hgsw _)
    · rw [h]
      exact Or.inr ⟨rfl, rfl⟩
  | true =>
    have hdsa : cfg.dsa = false := by simpa [Cfg.toNpu, hnpu] using h
    simp only [Bool.not_true, Bool.false_eq_true, if_false, hdsa]
    exact Or.inr (hgsw hw)

/-- The table of flow entries is left alone while an entry is being built, unless the group is torn
down. -/
lemma hwUpdate_foe (cfg : Cfg) (dev : IfIndex → Option Dev) (g : Group) (hw : Hw) (stag : Stag)
    (bmp : Bmp) (type : Mdb) (ifindex : IfIndex) :
    (hwUpdate cfg dev g hw none stag bmp type ifindex).1.Unbound ∨
      (hwUpdate cfg dev g hw none stag bmp type ifindex).2.1.foe = hw.foe := by
  have hgsw : ∀ hw1 : Hw, hw1.foe = hw.foe → (npuGswHandle cfg g hw1 none bmp).2.1.foe = hw.foe :=
    fun hw1 h1 => ((foeMtblUpdate_rest cfg g hw1 none bmp false).foe rfl).trans h1
  unfold hwUpdate
  split_ifs with hnpu hdsa
  · rcases noNpuHandle_cases cfg g hw none stag.toU8 bmp with
      ⟨_, h⟩ | ⟨_, hns, h⟩ | ⟨_, hsingle, h⟩ | ⟨_, h⟩
    · rw [h]
      exact Or.inl ⟨rfl, rfl⟩
    · rw [h, noNpuGswMultiEth_eq hns]
      exact Or.inr (hgsw hw rfl)
    · rw [h, noNpuSingleGdma_eq hsingle cfg]
      exact Or.inr (hgsw _ rfl)
    · rw [h]
      exact Or.inr rfl
  · refine Or.inr (((foeMtblUpdate_rest cfg _ _ none bmp true).foe rfl).trans ?_)
    exact (npuUpdate_only cfg g _ _ stag.toU8 bmp type _).hw.foe
  · exact Or.inr (hgsw hw rfl)

lemma foeMtblUpdate_stays {bmp : Bmp} (hppe : g.ppeId = some ppe)
    (hrow : isSingle bmp ∨ g.mtblIdx ≠ none) (cfg : Cfg) (hw : Hw) (ref : FoeRef) (toNpu : Bool) :
    g.Stays (foeMtblUpdate cfg g hw ref bmp toNpu).1 := by
  unfold foeMtblUpdate
  split_ifs with hsingle
  · exact (mtblTeardown_kept g _ ref).2.2
  · obtain ⟨row, hidx⟩ := Option.ne_none_iff_exists'.mp (hrow.resolve_left hsingle)
    have hsome : (g.mtblIdx <|> allocMtblEntry cfg hw ppe) = some row := by
      rw [hidx]
      rfl
    rw [mtblSetup_of_row hppe hsome]
    exact ⟨rfl, rfl⟩

lemma hwUpdate_stays {bmp : Bmp} (hppe : g.ppeId = some ppe)
    (hbears : cfg.npu = false → ¬ noNpuTears cfg bmp) (hrow : isSingle bmp ∨ g.mtblIdx ≠ none)
    (dev : IfIndex → Option Dev) (hw : Hw) (ref : FoeRef) (stag : Stag) (type : Mdb)
    (ifindex : IfIndex) : g.Stays (hwUpdate cfg dev g hw ref stag bmp type ifindex).1 := by
  have hgsw : ∀ hw, g.Stays (npuGswHandle cfg g hw ref bmp).1 := fun hw =>
    foeMtblUpdate_stays hppe hrow cfg hw ref false
  unfold hwUpdate
  split_ifs with hnpu hdsa
  · rcases noNpuHandle_cases cfg g hw ref stag.toU8 bmp with
      ⟨htears, _⟩ | ⟨_, hns, h⟩ | ⟨_, hsingle, h⟩ | ⟨_, h⟩
    · exact absurd htears (hbears (by simpa using hnpu))
    · rw [h, noNpuGswMultiEth_eq hns]
      exact hgsw hw
    · rw [h, noNpuSingleGdma_eq hsingle cfg]
      exact hgsw _
    · rw [h]
      exact ⟨rfl, rfl⟩
  · set hw1 := hw.set ref (foeStagUpdate (hw.get ref) stag.toU8)
    have honly := npuUpdate_only cfg g hw1 (hw1.get ref).dst stag.toU8 bmp type
      (getDsaPort dev ifindex)
    have hidx := honly.kept.mtblIdx
    have hstays := foeMtblUpdate_stays (honly.stays.1.trans hppe) (by rwa [hidx]) cfg
      (npuUpdate cfg g hw1 (hw1.get ref).dst stag.toU8 bmp type (getDsaPort dev ifindex)).2.1 ref true
    exact ⟨hstays.1.trans honly.stays.1, hstays.2.trans honly.stays.2⟩
  · exact hgsw hw

/-! ## The clients of the NPU -/

lemma npuInsert_npu {hw : Hw} {dst : Ip} {port : ℕ} (h : hw.refuse dst port = false) :
    (npuInsert hw dst port).1.npu = Function.update hw.npu dst (insert port (hw.npu dst)) := by
  unfold npuInsert
  split_ifs with hmem href
  · rw [Finset.insert_eq_self.mpr hmem, Function.update_eq_self]
  · rw [h] at href
    cases href
  · rfl

/-- The ports of a list of clients are added one by one. -/
lemma npuInsert_foldl (cfg : Cfg) (dst : Ip) (ports : List ℕ) (g : Group) (hw : Hw) (ret : ℤ)
    (h : ∀ port ∈ ports, hw.refuse dst port = false) :
    let r := ports.foldl (fun (acc : Group × Hw × ℤ) port =>
      ((acc.1.inserted cfg dst (npuInsert acc.2.1 dst port).2), (npuInsert acc.2.1 dst port).1,
        (npuInsert acc.2.1 dst port).2)) (g, hw, ret)
    r.2.1.npu = Function.update hw.npu dst (hw.npu dst ∪ ports.toFinset) ∧
    ((∀ port ∈ ports, port ∉ hw.npu dst) → ports.Nodup →
      r.1.offload = g.offload ∧ (r.2.2 = ret ∨ r.2.2 = 0)) := by
  induction ports generalizing g hw ret with
  | nil => simp
  | cons port ports ih =>
    have hport : hw.refuse dst port = false := h port (by simp)
    have hnpu := npuInsert_npu hport
    have hrefuse : (npuInsert hw dst port).1.refuse = hw.refuse := by
      rw [npuInsert_only hw dst port]
    obtain ⟨ih1, ih2⟩ := ih (g.inserted cfg dst (npuInsert hw dst port).2) (npuInsert hw dst port).1
      (npuInsert hw dst port).2
      (fun p hp => by rw [hrefuse]; exact h p (List.mem_cons_of_mem _ hp))
    rw [List.foldl_cons]
    refine ⟨?_, fun hnew hnodup => ?_⟩
    · rw [ih1, hnpu]
      simp
    · have hzero : (npuInsert hw dst port).2 = 0 := by
        simp [npuInsert, hnew port (by simp), hport]
      obtain ⟨hoff, hret⟩ := ih2
        (by
          intro p hp
          rw [hnpu, Function.update_self, Finset.mem_insert]
          rintro (rfl | hmem)
          · exact (List.nodup_cons.mp hnodup).1 hp
          · exact hnew p (List.mem_cons_of_mem _ hp) hmem)
        (List.nodup_cons.mp hnodup).2
      refine ⟨by rw [hoff, hzero]; rfl, Or.inr ?_⟩
      rcases hret with hret | hret
      · rw [hret, hzero]
      · exact hret

lemma tagPorts_nodup (stag : Stag) : (tagPorts stag).Nodup := List.nodup_range.filter _

lemma npuAddMulti_ok (cfg : Cfg) (g : Group) {hw : Hw} {dst : Ip} {stag : Stag}
    (h : ∀ port ∈ tagPorts stag, port ∉ hw.npu dst ∧ hw.refuse dst port = false) :
    (npuAddMulti cfg g hw dst stag).1.offload = g.offload ∧ (npuAddMulti cfg g hw dst stag).2.2 = 0 := by
  obtain ⟨hoff, hret⟩ := (npuInsert_foldl cfg dst (tagPorts stag) g hw 0
    fun p hp => (h p hp).2).2 (fun p hp => (h p hp).1) (tagPorts_nodup stag)
  exact ⟨hoff, hret.elim id id⟩

/-- The clients are taken, so the update of the clients of a new member succeeds. -/
lemma npuUpdate_new_ok (cfg : Cfg) (g : Group) (hw : Hw) (dst : Ip) (stag : Stag) (bmp : Bmp)
    (port : Option ℕ)
    (h : npuAdds g.psebmp bmp port → match port with
      | some port => port % 2 ^ 8 ∈ hw.npu dst ∨ hw.refuse dst (port % 2 ^ 8) = false
      | none => ∀ port ∈ tagPorts stag, port ∉ hw.npu dst ∧ hw.refuse dst port = false) :
    (npuUpdate cfg g hw dst stag bmp .new port).1.offload = g.offload ∧
      0 ≤ (npuUpdate cfg g hw dst stag bmp .new port).2.2 := by
  simp only [npuUpdate]
  split_ifs with hcur hpre
  · exact ⟨rfl, le_refl 0⟩
  · have hadds : npuAdds g.psebmp bmp port := by
      simp only [npuAdds, hcur, Bool.true_and, Bool.not_eq_true']
      exact Bool.eq_false_iff.mpr hpre
    have hok := h hadds
    cases port with
    | some port =>
      unfold npuAddStations
      cases cfg.npu with
      | false => exact ⟨rfl, le_refl 0⟩
      | true =>
        have hret : (npuInsert hw dst (port % 2 ^ 8)).2 = -17 ∨
            (npuInsert hw dst (port % 2 ^ 8)).2 = 0 := by
          unfold npuInsert
          split_ifs with hmem href
          · exact Or.inl rfl
          · rcases hok with hok | hok
            · exact absurd hok hmem
            · rw [hok] at href
              cases href
          · exact Or.inr rfl
        have hzero : (if (npuInsert hw dst (port % 2 ^ 8)).2 = -17 then 0
            else (npuInsert hw dst (port % 2 ^ 8)).2) = 0 := by
          rcases hret with hret | hret <;> rw [hret] <;> rfl
        simp only [if_true, hzero]
        exact ⟨rfl, le_refl 0⟩
    | none =>
      simp only [npuAddStations]
      split_ifs
      · exact ⟨rfl, le_refl 0⟩
      · obtain ⟨hoff, hret⟩ := npuAddMulti_ok cfg g hok
        exact ⟨hoff, by rw [hret]⟩
      · exact ⟨rfl, le_refl 0⟩
  · exact ⟨rfl, le_refl 0⟩

/-! ## The place of a bind -/

lemma bindHw_ok {ifindex : IfIndex} (hkey : hw.entry.key = some g.ip)
    (hacc : Accepts cfg dev g hw ifindex) :
    (bindHw cfg dev (g.bindTo ppe idx) hw ifindex).1.Unbound ∨
    (bindHw cfg dev (g.bindTo ppe idx) hw ifindex).1.offload = g.offload ∧
      0 ≤ (bindHw cfg dev (g.bindTo ppe idx) hw ifindex).2.2 := by
  simp only [bindHw]
  split_ifs with hne
  · by_cases hnpu : cfg.toNpu
    · obtain ⟨hw1, hrest, hkey1, hoff, _, hret⟩ := hwUpdate_npu hnpu dev (g.bindTo ppe idx) hw none
        (getPseTxBmp dev g.members).2 (getPseTxBmp dev g.members).1 .new ifindex
      have hdst : (hw1.get none).dst = g.ip := by
        have : (hw1.get none).key = some g.ip := hkey1.trans hkey
        rw [Foe.dst, this]
        rfl
      rw [hdst] at hoff hret
      have hok := npuUpdate_new_ok cfg (g.bindTo ppe idx) hw1 g.ip
        (getPseTxBmp dev g.members).2.toU8 (getPseTxBmp dev g.members).1 (getDsaPort dev ifindex) (by
          intro hadds
          rw [hrest.npu, hrest.refuse]
          exact hacc hnpu hadds)
      refine Or.inr ⟨?_, ?_⟩
      · exact hoff.trans hok.1
      · exact le_of_le_of_eq hok.2 hret.symm
    · rcases hwUpdate_rest hnpu dev (g.bindTo ppe idx) hw none (getPseTxBmp dev g.members).2
        (getPseTxBmp dev g.members).1 .new ifindex with hun | ⟨hret, hoff⟩
      · exact Or.inl hun
      · exact Or.inr ⟨hoff, le_of_eq hret.symm⟩
  · exact Or.inr ⟨rfl, le_refl 0⟩

/-- The entry that is built, in the table. -/
def Hw.commit (hw : Hw) (ppe idx : ℕ) : Hw :=
  hw.set (some (ppe, idx)) { hw.entry with state := .bind }

/-- A bind that is not refused at once updates the hardware and may commit the entry; with an entry
in the state UNBIND and an NPU that takes the clients it does. -/
lemma bindGroup_eq (ppe idx : ℕ) (ifindex : IfIndex) (hoff : g.offload)
    (htear : ¬ noNpuTeardown cfg dev g) (hkey : hw.entry.key = some g.ip) :
    let r := bindHw cfg dev (g.bindTo ppe idx) hw ifindex
    (bindGroup cfg dev ppe idx ifindex g hw).1 = r.1 ∧
    ((bindGroup cfg dev ppe idx ifindex g hw).2 = r.2.1.commit ppe idx ∨
      (bindGroup cfg dev ppe idx ifindex g hw).2 = r.2.1) ∧
    ((hw.foe ppe idx).state = .unbind → Accepts cfg dev g hw ifindex → ¬ r.1.Unbound →
      (bindGroup cfg dev ppe idx ifindex g hw).2 = r.2.1.commit ppe idx) := by
  intro r
  have heq : bindGroup cfg dev ppe idx ifindex g hw = (r.1,
      if (if r.2.2 < 0 || !r.1.offload then (-1 : ℤ) else 0) = 0 then foeEntryCommit r.2.1 ppe idx
      else r.2.1) := by
    simp only [bindGroup, foeBindHandle]
    rw [if_neg (by simp [hoff, htear])]
    rfl
  rw [heq]
  refine ⟨rfl, ?_, fun hstate hacc hbound => ?_⟩
  · dsimp only
    unfold foeEntryCommit Hw.commit
    split_ifs <;> simp
  · have hfoe : r.2.1.foe = hw.foe := by
      simp only [r, bindHw] at hbound ⊢
      split_ifs with hne
      · rw [if_pos hne] at hbound
        exact (hwUpdate_foe cfg dev _ hw _ _ .new ifindex).resolve_left hbound
      · rfl
    obtain ⟨hoff', hret⟩ := (bindHw_ok hkey hacc).resolve_left hbound
    have hcond : (decide (r.2.2 < 0) || !r.1.offload) = false := by
      have : ¬ r.2.2 < 0 := not_lt.mpr hret
      have hoff'' : r.1.offload = true := hoff'.trans hoff
      simp [this, hoff'']
    rw [hcond]
    simp only [Bool.false_eq_true, if_false, if_true]
    unfold foeEntryCommit Hw.commit
    rw [hfoe, if_pos hstate]

lemma bindHw_settled {ifindex : IfIndex} (hmac : g.mac = getMacFromMdb g.ip) (hw : Hw)
    (hne : g.ports dev ≠ ∅) :
    Settled cfg (g.bindTo ppe idx) hw none (g.ports dev)
      (bindHw cfg dev (g.bindTo ppe idx) hw ifindex).1
      (bindHw cfg dev (g.bindTo ppe idx) hw ifindex).2.1 := by
  have hne' : (getPseTxBmp dev (g.bindTo ppe idx).members).1 ≠ ∅ := hne
  have hppe : (g.bindTo ppe idx).ppeId = some ppe := rfl
  simp only [bindHw]
  rw [if_pos hne']
  exact hwUpdate_settled hppe hmac pdma_notMem_bmp hne' dev hw none _ .new ifindex

lemma bindHw_empty {ifindex : IfIndex} (hempty : g.ports dev = ∅) (hw : Hw) :
    bindHw cfg dev (g.bindTo ppe idx) hw ifindex = (g.bindTo ppe idx, hw, 0) := by
  have hempty' : ¬ (getPseTxBmp dev (g.bindTo ppe idx).members).1 ≠ ∅ := by
    simpa [Group.bindTo, Group.ports] using hempty
  simp only [bindHw]
  rw [if_neg hempty']

lemma bindHw_same (cfg : Cfg) (dev : IfIndex → Option Dev) (g : Group) (ppe idx : ℕ) (hw : Hw)
    (ifindex : IfIndex) : g.Same (bindHw cfg dev (g.bindTo ppe idx) hw ifindex).1 := by
  have hbind : g.Same (g.bindTo ppe idx) := ⟨rfl, rfl, rfl⟩
  simp only [bindHw]
  split_ifs
  · exact hbind.trans (hwUpdate_row cfg dev _ hw none _ _ .new ifindex).same
  · exact hbind

lemma FoeKept.of_none {place : FoeRef} (h : FoeKept none hw hw') : FoeKept place hw hw' :=
  fun ppe idx _ => h ppe idx (by simp)

/-- What a bind leaves: the group is bound to the place of the packet or not at all, with the ports
of its running members, and the entry that was built is still one for its address. -/
lemma bindHw_lands (cfg : Cfg) (ppe idx : ℕ) (ifindex : IfIndex) (hkey : hw.entry.key = some g.ip)
    (hmac : g.mac = getMacFromMdb g.ip) (hempty : g.ports dev = ∅ → g.psebmp = ∅) :
    let r := bindHw cfg dev (g.bindTo ppe idx) hw ifindex
    FoeKept none hw r.2.1 ∧ ∀ ppe' idx', r.1.At ppe' idx' →
      ¬ r.1.Unbound ∧ ppe' = ppe ∧ idx' = idx ∧ r.2.1.entry.key = some g.ip ∧
        r.1.psebmp = g.ports dev ∧
        (g.ports dev ≠ ∅ → Reaches cfg (g.ports dev) r.1 r.2.1 r.2.1.entry) := by
  intro r
  have hat : (g.bindTo ppe idx).At ppe idx := ⟨rfl, rfl⟩
  by_cases hports : g.ports dev = ∅
  · have hr : r = (g.bindTo ppe idx, hw, 0) := bindHw_empty hports hw
    rw [hr]
    refine ⟨FoeKept.refl none hw, fun ppe' idx' hat' => ?_⟩
    obtain ⟨rfl, rfl⟩ := hat.unique hat'
    refine ⟨fun hun => hun.not_at _ _ hat', rfl, rfl, hkey, ?_, fun hne => absurd hports hne⟩
    rw [hports]
    exact hempty hports
  · have hs : Settled cfg (g.bindTo ppe idx) hw none (g.ports dev) r.1 r.2.1 :=
      bindHw_settled hmac hw hports
    refine ⟨hs.kept, fun ppe' idx' hat' => ?_⟩
    have hbound : ¬ r.1.Unbound := fun hun => hun.not_at _ _ hat'
    obtain ⟨hstays, hkey', hsends⟩ := hs.ends.resolve_left hbound
    obtain ⟨hppe, hidx⟩ := hat.unique (hstays.at_iff.mp hat')
    obtain ⟨_, hbears⟩ := hs.bears.resolve_left hbound
    have hget : (hw.get none).key = some g.ip := hkey
    exact ⟨hbound, hppe, hidx, hkey'.trans hget, hs.psebmp.resolve_left hbound,
      fun hne => ⟨hne, hbears, hsends (by rw [hget]; rfl)⟩⟩

@[simp] lemma Hw.commit_foe (hw : Hw) (ppe idx : ℕ) :
    (hw.commit ppe idx).foe ppe idx = { hw.entry with state := .bind } := by
  simp [Hw.commit, Hw.set]

/-- A bind lands where the packet's flow entry is, if that entry is committed or is one of the
group already. -/
lemma bindGroup_flow {ifindex : IfIndex} (hoff : g.offload) (htear : ¬ noNpuTeardown cfg dev g)
    (hkey : hw.entry.key = some g.ip) (hmac : g.mac = getMacFromMdb g.ip)
    (hempty : g.ports dev = ∅ → g.psebmp = ∅)
    (hland : (hw.foe ppe idx).key = some g.ip ∨
      (hw.foe ppe idx).state = .unbind ∧ Accepts cfg dev g hw ifindex) :
    FlowStep dev (some (ppe, idx)) g hw (bindGroup cfg dev ppe idx ifindex g hw).1
      (bindGroup cfg dev ppe idx ifindex g hw).2 := by
  obtain ⟨hgroup, hcommit, hdone⟩ := bindGroup_eq ppe idx ifindex hoff htear hkey
  obtain ⟨hkept, hlands⟩ := bindHw_lands cfg ppe idx ifindex hkey hmac hempty
  set r := bindHw cfg dev (g.bindTo ppe idx) hw ifindex
  rw [hgroup]
  refine ⟨bindHw_same cfg dev g ppe idx hw ifindex, ?_, fun ppe' idx' hat => ?_⟩
  · rcases hcommit with h | h
    · rw [h]
      exact hkept.of_none.trans (FoeKept.set _ r.2.1 _)
    · rw [h]
      exact hkept.of_none
  · obtain ⟨hbound, rfl, rfl, hentry, hpse, _⟩ := hlands ppe' idx' hat
    refine ⟨rfl, ?_, hpse⟩
    have hagree := hkept ppe' idx' (by simp)
    rcases hland with hland | ⟨hstate, hacc⟩
    · rcases hcommit with h | h
      · rw [h, Hw.commit_foe]
        exact hentry
      · rw [h, hagree.key]
        exact hland
    · rw [hdone hstate hacc hbound, Hw.commit_foe]
      exact hentry

/-- A bind sends to the running members, if the entry is committed or the group sent to them from
its place already. -/
lemma bindGroup_sends (ifindex : IfIndex) (hoff : g.offload) (htear : ¬ noNpuTeardown cfg dev g)
    (hkey : hw.entry.key = some g.ip) (hmac : g.mac = getMacFromMdb g.ip) (hne : g.ports dev ≠ ∅)
    (hland : g.At ppe idx ∧ g.SendsTo cfg (g.ports dev) hw ∨
      (hw.foe ppe idx).state = .unbind ∧ Accepts cfg dev g hw ifindex) :
    (bindGroup cfg dev ppe idx ifindex g hw).1.SendsTo cfg (g.ports dev)
      (bindGroup cfg dev ppe idx ifindex g hw).2 := by
  obtain ⟨hgroup, hcommit, hdone⟩ := bindGroup_eq ppe idx ifindex hoff htear hkey
  obtain ⟨hkept, hlands⟩ := bindHw_lands cfg ppe idx ifindex hkey hmac fun h => absurd h hne
  set r := bindHw cfg dev (g.bindTo ppe idx) hw ifindex
  rw [hgroup]
  intro ppe' idx' hat
  obtain ⟨hbound, rfl, rfl, _, _, hsends⟩ := hlands ppe' idx' hat
  have hbuilt := hsends hne
  have hcommitted : Reaches cfg (g.ports dev) r.1 (r.2.1.commit ppe' idx')
      ((r.2.1.commit ppe' idx').foe ppe' idx') := by
    rw [Hw.commit_foe]
    refine ⟨hne, hbuilt.bears, hbuilt.sends.single, ?_⟩
    rw [Hw.commit, Hw.set_slots]
    exact hbuilt.sends.multi
  rcases hland with ⟨hg, hold⟩ | ⟨hstate, hacc⟩
  · rcases hcommit with h | h
    · rw [h]
      exact hcommitted
    · -- The entry of the place stays; the row was written for the bitmap.
      rw [h]
      have hagree := hkept ppe' idx' (by simp)
      have hfoe := (hold ppe' idx' hg).sends
      refine ⟨hne, hbuilt.bears, fun hs => ?_, fun hs => ?_⟩
      · rw [hagree.mcast, hagree.dp]
        exact ⟨(hfoe.single hs).1, (hfoe.single hs).2.1, (hbuilt.sends.single hs).2.2⟩
      · rw [hagree.mcast]
        exact ⟨(hfoe.multi hs).1, (hbuilt.sends.multi hs).2⟩
  · rw [hdone hstate hacc hbound]
    exact hcommitted

lemma bindGroup_refused {ifindex : IfIndex} (h : ¬ (g.offload ∧ ¬ noNpuTeardown cfg dev g)) :
    bindGroup cfg dev ppe idx ifindex g hw = (g, hw) := by
  have hcond : (!g.offload || noNpuTeardown cfg dev g) = true := by
    rw [not_and_or, not_not] at h
    rcases h with h | h
    · simp [Bool.eq_false_iff.mpr h]
    · simp [h]
  simp only [bindGroup, foeBindHandle]
  rw [if_pos hcond]
  rfl

end Hnat
