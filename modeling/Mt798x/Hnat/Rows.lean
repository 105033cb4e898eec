import Mt798x.Hnat.Events

/-!
# What the updates of a group do to the multicast table

A row is taken by scanning the table for zeros and is given back by `hnat_mcast_mtbl_teardown`
alone.  `RowStep` says everything that the update of a group can do to the rows.
-/

namespace Hnat

/-! ## What an update of a group does to the rows -/

/-- What no update of the hardware changes of a group. -/
structure Group.Same (g g' : Group) : Prop where
  ip : g'.ip = g.ip
  mac : g'.mac = g.mac
  members : g'.members = g.members

namespace Group.Same

variable {g g' g'' : Group}

lemma refl (g : Group) : g.Same g := ⟨rfl, rfl, rfl⟩

lemma trans (h : g.Same g') (h' : g'.Same g'') : g.Same g'' :=
  ⟨h'.ip.trans h.ip, h'.mac.trans h.mac, h'.members.trans h.members⟩

end Group.Same

/-- The group holds a row. -/
def Group.Holds (g : Group) (ppe idx : ℕ) : Prop := g.mtblIdx = some idx ∧ g.ppeId = some ppe

instance (g : Group) (ppe idx : ℕ) : Decidable (g.Holds ppe idx) := instDecidableAnd

/-- The rows are as before, and a group that holds one stays on its PPE. -/
structure RowsKept (g : Group) (hw : Hw) (g' : Group) (hw' : Hw) : Prop where
  same : g.Same g'
  mtblIdx : g'.mtblIdx = g.mtblIdx
  ppeId : g.mtblIdx ≠ none → g'.ppeId = g.ppeId
  slots : hw'.slots = hw.slots

namespace RowsKept

variable {g g' g'' : Group} {hw hw' hw'' : Hw}

lemma of_slots (g : Group) (h : hw'.slots = hw.slots) : RowsKept g hw g hw' :=
  ⟨Group.Same.refl g, rfl, fun _ => rfl, h⟩

lemma refl (g : Group) (hw : Hw) : RowsKept g hw g hw := of_slots g rfl

lemma trans (h : RowsKept g hw g' hw') (h' : RowsKept g' hw' g'' hw'') : RowsKept g hw g'' hw'' := by
  refine ⟨h.same.trans h'.same, h'.mtblIdx.trans h.mtblIdx, fun hg => ?_, h'.slots.trans h.slots⟩
  rw [h'.ppeId (by rwa [h.mtblIdx]), h.ppeId hg]

lemma holds (h : RowsKept g hw g' hw') {ppe idx : ℕ} : g'.Holds ppe idx ↔ g.Holds ppe idx := by
  constructor
  · rintro ⟨hidx, hppe⟩
    rw [h.mtblIdx] at hidx
    exact ⟨hidx, by rw [← h.ppeId (by simp [hidx]), hppe]⟩
  · rintro ⟨hidx, hppe⟩
    exact ⟨h.mtblIdx.trans hidx, (h.ppeId (by simp [hidx])).trans hppe⟩

lemma unbind (g : Group) (hidx : g.mtblIdx = none) (h : hw'.slots = hw.slots) :
    RowsKept g hw g.unbind hw' :=
  ⟨⟨rfl, rfl, rfl⟩, rfl, fun hg => absurd hidx hg, h⟩

end RowsKept

variable {hw' : Hw} {ppe : ℕ} (cfg : Cfg) (g : Group) (type : Mdb) (ifindex : IfIndex) (hw : Hw)
  (ref : FoeRef) (dst : Ip) (stag : Stag) (port : Option ℕ) (bmp : Bmp)

lemma setHnatMtbl_slots_congr {hw : Hw} (h : hw'.slots = hw.slots) (mac : List ℕ) (idx ppe : ℕ)
    (px : Bmp) :
    (setHnatMtbl hw' mac idx ppe px).slots = (setHnatMtbl hw mac idx ppe px).slots := by
  unfold setHnatMtbl
  split_ifs <;> simp [Hw.setSlot, h]

/-- What can happen to the rows while a group is updated: nothing; the group gives its row back;
the group writes a row that it held or that was free. -/
inductive RowStep (g : Group) (hw : Hw) (g' : Group) (hw' : Hw) : Prop where
  | kept (h : RowsKept g hw g' hw')
  | released (ppe idx : ℕ) (same : g.Same g') (h : g.Holds ppe idx) (h' : g'.mtblIdx = none)
      (hslots : hw'.slots = (hw.setSlot ppe idx Slot.zero).slots)
  | written (ppe idx : ℕ) (px : Bmp) (same : g.Same g') (h' : g'.Holds ppe idx)
      (hold : g.Holds ppe idx ∨ g.mtblIdx = none ∧ hw.slots ppe idx = Slot.zero)
      (hslots : hw'.slots = (setHnatMtbl hw g.mac idx ppe px).slots)

namespace RowStep

variable {g g' g'' : Group} {hw hw' hw'' : Hw}

lemma same (h : RowStep g hw g' hw') : g.Same g' := by
  cases h with
  | kept h => exact h.same
  | released _ _ same => exact same
  | written _ _ _ same => exact same

lemma refl (g : Group) (hw : Hw) : RowStep g hw g hw := .kept (RowsKept.refl g hw)

lemma after (h' : RowStep g' hw' g'' hw'') (h : RowsKept g hw g' hw') : RowStep g hw g'' hw'' := by
  cases h' with
  | kept h' => exact .kept (h.trans h')
  | released ppe idx same hold hidx hslots =>
    refine .released ppe idx (h.same.trans same) (h.holds.mp hold) hidx ?_
    rw [hslots]
    simp [Hw.setSlot, h.slots]
  | written ppe idx px same hheld hold hslots =>
    refine .written ppe idx px (h.same.trans same) hheld ?_ ?_
    · rwa [h.holds, h.mtblIdx, h.slots] at hold
    · rw [hslots, h.same.mac]
      exact setHnatMtbl_slots_congr h.slots _ _ _ _

lemma before (h : RowStep g hw g' hw') (h' : RowsKept g' hw' g'' hw'') : RowStep g hw g'' hw'' := by
  cases h with
  | kept h => exact .kept (h.trans h')
  | released ppe idx same hold hidx hslots =>
    exact .released ppe idx (same.trans h'.same) hold (h'.mtblIdx.trans hidx)
      (h'.slots.trans hslots)
  | written ppe idx px same hheld hold hslots =>
    exact .written ppe idx px (same.trans h'.same) (h'.holds.mpr hheld) hold
      (h'.slots.trans hslots)

end RowStep

@[simp] lemma Hw.set_slots (foe : Foe) : (hw.set ref foe).slots = hw.slots := by
  cases ref <;> rfl

@[simp] lemma entryDelete_slots (ppe idx : Option ℕ) :
    (entryDelete cfg hw ppe idx).slots = hw.slots := by
  unfold entryDelete
  split
  · rfl
  · split_ifs
    · rfl
    · split
      · rfl
      · split_ifs
        · rfl
        · rw [Hw.set_slots]

/-! The NPU's functions change its clients and, of a group, the offload flag and the number. -/

/-- Only the clients of the NPU are changed. -/
def Hw.NpuOnly (hw hw' : Hw) : Prop := hw' = { hw with npu := hw'.npu }

/-- Only the clients of the NPU, the offload flag and the number are changed. -/
structure NpuOnly (g : Group) (hw : Hw) (g' : Group) (hw' : Hw) : Prop where
  group : g' = { g with offload := g'.offload, npuGrpIdx := g'.npuGrpIdx }
  hw : hw.NpuOnly hw'

lemma Hw.NpuOnly.trans {hw hw'' : Hw} (h : hw.NpuOnly hw') (h' : hw'.NpuOnly hw'') :
    hw.NpuOnly hw'' := by
  rw [Hw.NpuOnly] at *
  rw [h', h]

namespace NpuOnly

variable {g g' g'' : Group} {hw hw' hw'' : Hw}

lemma of_hw (g : Group) (h : hw.NpuOnly hw') : NpuOnly g hw g hw' := ⟨rfl, h⟩

lemma refl (g : Group) (hw : Hw) : NpuOnly g hw g hw := of_hw g rfl

lemma trans (h : NpuOnly g hw g' hw') (h' : NpuOnly g' hw' g'' hw'') : NpuOnly g hw g'' hw'' := by
  refine ⟨?_, h.hw.trans h'.hw⟩
  rw [h'.group, h.group]

lemma kept (h : NpuOnly g hw g' hw') : RowsKept g hw g' hw' := by
  refine ⟨⟨?_, ?_, ?_⟩, ?_, fun _ => ?_, ?_⟩
  · rw [h.group]
  · rw [h.group]
  · rw [h.group]
  · rw [h.group]
  · rw [h.group]
  · rw [h.hw]

end NpuOnly

lemma npuInsert_only (port : ℕ) : hw.NpuOnly (npuInsert hw dst port).1 := by
  unfold npuInsert
  split_ifs <;> rfl

lemma npuDelete_only (port : ℕ) : hw.NpuOnly (npuDelete hw dst port).1 := by
  unfold npuDelete
  split_ifs <;> rfl

lemma npuDeleteMulti_only : hw.NpuOnly (npuDeleteMulti hw dst stag).1 := by
  unfold npuDeleteMulti
  refine List.foldlRecOn (tagPorts stag) _ (motive := fun acc : Hw × ℤ => hw.NpuOnly acc.1)
    rfl fun acc hacc port _ => ?_
  exact hacc.trans (npuDelete_only acc.1 dst port)

lemma npuDeleteStations_only : hw.NpuOnly (npuDeleteStations cfg hw dst stag port).1 := by
  unfold npuDeleteStations
  cases cfg.npu with
  | false => rfl
  | true =>
    cases port with
    | none => exact npuDeleteMulti_only hw dst stag
    | some port => exact npuDelete_only hw dst _

lemma npuDeleteStations_slots : (npuDeleteStations cfg hw dst stag port).1.slots = hw.slots := by
  rw [npuDeleteStations_only cfg hw dst stag port]

lemma NpuOnly.inserted (cfg : Cfg) (g : Group) (hw : Hw) (dst : Ip) (ret : ℤ) :
    NpuOnly g hw (g.inserted cfg dst ret) hw := by
  unfold Group.inserted
  split_ifs <;> exact ⟨rfl, rfl⟩

lemma npuAddMulti_only :
    NpuOnly g hw (npuAddMulti cfg g hw dst stag).1 (npuAddMulti cfg g hw dst stag).2.1 := by
  unfold npuAddMulti
  refine List.foldlRecOn (tagPorts stag) _
    (motive := fun acc : Group × Hw × ℤ => NpuOnly g hw acc.1 acc.2.1)
    (NpuOnly.refl g hw) fun acc hacc port _ => ?_
  exact (hacc.trans (NpuOnly.of_hw acc.1 (npuInsert_only acc.2.1 dst port))).trans
    (NpuOnly.inserted cfg acc.1 _ dst _)

lemma npuAddStations_only :
    NpuOnly g hw (npuAddStations cfg g hw dst stag port bmp).1
      (npuAddStations cfg g hw dst stag port bmp).2.1 := by
  cases port with
  | some port =>
    unfold npuAddStations
    cases cfg.npu with
    | false => exact NpuOnly.refl g hw
    | true =>
      exact (NpuOnly.of_hw g (npuInsert_only hw dst _)).trans (NpuOnly.inserted cfg g _ dst _)
  | none =>
    simp only [npuAddStations]
    split_ifs
    · exact NpuOnly.refl g hw
    · exact npuAddMulti_only cfg g hw dst stag
    · exact NpuOnly.refl g hw

lemma npuUpdate_only (type : Mdb) (port : Option ℕ) :
    NpuOnly g hw (npuUpdate cfg g hw dst stag bmp type port).1
      (npuUpdate cfg g hw dst stag bmp type port).2.1 := by
  cases type with
  | new =>
    simp only [npuUpdate]
    split_ifs
    · exact NpuOnly.refl g hw
    · exact npuAddStations_only cfg g hw dst stag port bmp
    · exact NpuOnly.refl g hw
  | del =>
    cases port with
    | none =>
      simp only [npuUpdate]
      split_ifs
      · exact NpuOnly.of_hw g (npuDeleteStations_only cfg hw dst stag none)
      · exact NpuOnly.refl g hw
      · exact NpuOnly.refl g hw
    | some port =>
      simp only [npuUpdate]
      split_ifs
      · exact NpuOnly.of_hw g (npuDeleteStations_only cfg hw dst stag (some port))
      · exact NpuOnly.refl g hw
      · exact NpuOnly.of_hw g (npuDelete_only hw dst _)
      · exact NpuOnly.refl g hw

lemma mtblTeardown_row : RowStep g hw (mtblTeardown g hw).1 (mtblTeardown g hw).2 := by
  unfold mtblTeardown
  split
  · next idx ppe hidx hppe => exact .released ppe idx ⟨rfl, rfl, rfl⟩ ⟨hidx, hppe⟩ rfl rfl
  · exact .refl g hw

lemma allocMtblEntry_zero {cfg : Cfg} {hw : Hw} {idx : ℕ} (h : allocMtblEntry cfg hw ppe = some idx) :
    hw.slots ppe idx = Slot.zero := by
  simpa using List.find?_some h

lemma mtblSetup_of_row {cfg : Cfg} {g : Group} {hw : Hw} {idx : ℕ} (hppe : g.ppeId = some ppe)
    (hidx : (g.mtblIdx <|> allocMtblEntry cfg hw ppe) = some idx) (ref : FoeRef) (bmp : Bmp)
    (toNpu : Bool) :
    mtblSetup cfg g hw ref bmp toNpu = ({ g with mtblIdx := some idx },
      setHnatMtbl hw g.mac idx ppe (if toNpu then insert Port.tdma (bmp.erase .gdma1) else bmp),
      true) := by
  simp only [mtblSetup, hppe, hidx]

lemma mtblSetup_of_full {cfg : Cfg} {g : Group} {hw : Hw} (hppe : g.ppeId = some ppe)
    (hidx : (g.mtblIdx <|> allocMtblEntry cfg hw ppe) = none) (ref : FoeRef) (bmp : Bmp)
    (toNpu : Bool) :
    mtblSetup cfg g hw ref bmp toNpu =
      ({ g with foeIdx := none, ppeId := none }, hw.set ref Foe.zero, false) := by
  simp only [mtblSetup, hppe, hidx]

lemma mtblSetup_row (toNpu : Bool) :
    RowStep g hw (mtblSetup cfg g hw ref bmp toNpu).1 (mtblSetup cfg g hw ref bmp toNpu).2.1 := by
  cases hppe : g.ppeId with
  | none =>
    simp only [mtblSetup, hppe]
    exact .refl g hw
  | some ppe =>
    cases hidx : g.mtblIdx <|> allocMtblEntry cfg hw ppe with
    | none =>
      rw [mtblSetup_of_full hppe hidx]
      refine .kept ⟨⟨rfl, rfl, rfl⟩, rfl, fun hg => ?_, Hw.set_slots hw ref _⟩
      cases hg' : g.mtblIdx with
      | none => exact absurd hg' hg
      | some idx => simp [hg'] at hidx
    | some idx =>
      rw [mtblSetup_of_row hppe hidx]
      refine .written ppe idx _ ⟨rfl, rfl, rfl⟩ ⟨rfl, hppe⟩ ?_ rfl
      cases hg : g.mtblIdx with
      | none => exact Or.inr ⟨rfl, allocMtblEntry_zero (by simpa [hg] using hidx)⟩
      | some idx' =>
        have : idx' = idx := by simpa [hg] using hidx
        exact Or.inl ⟨by rw [hg, this], hppe⟩

lemma foeMtblUpdate_row (toNpu : Bool) :
    RowStep g hw (foeMtblUpdate cfg g hw ref bmp toNpu).1
      (foeMtblUpdate cfg g hw ref bmp toNpu).2 := by
  unfold foeMtblUpdate
  split_ifs
  · exact (mtblTeardown_row g _).after (RowsKept.of_slots g (Hw.set_slots hw ref _))
  · have hrow := mtblSetup_row cfg g hw ref bmp toNpu
    generalize mtblSetup cfg g hw ref bmp toNpu = r at hrow
    obtain ⟨g', hw', ok⟩ := r
    cases ok
    · exact hrow
    · exact hrow.before (RowsKept.of_slots g' (Hw.set_slots hw' ref _))

lemma RowStep.psebmp {g g' : Group} {hw : Hw} (h : RowStep g hw g' hw') (bmp : Bmp) :
    RowStep g hw { g' with psebmp := bmp } hw' :=
  h.before ⟨⟨rfl, rfl, rfl⟩, rfl, fun _ => rfl, rfl⟩

lemma npuGswHandle_row :
    RowStep g hw (npuGswHandle cfg g hw ref bmp).1 (npuGswHandle cfg g hw ref bmp).2.1 :=
  (foeMtblUpdate_row cfg g hw ref bmp false).psebmp bmp

lemma npuDsaHandle_row (dev : IfIndex → Option Dev) (g : Group) (hw : Hw) (ref : FoeRef)
    (stag : Stag) (bmp : Bmp) (type : Mdb) (ifindex : IfIndex) :
    RowStep g hw (npuDsaHandle cfg dev g hw ref stag bmp type ifindex).1
      (npuDsaHandle cfg dev g hw ref stag bmp type ifindex).2.1 := by
  unfold npuDsaHandle
  set hw1 := hw.set ref (foeStagUpdate (hw.get ref) stag) with hhw1
  have h1 : RowsKept g hw g hw1 := RowsKept.of_slots g (Hw.set_slots hw ref _)
  have h2 := (npuUpdate_only cfg g hw1 (hw1.get ref).dst stag bmp type (getDsaPort dev ifindex)).kept
  have h3 := foeMtblUpdate_row cfg
    (npuUpdate cfg g hw1 (hw1.get ref).dst stag bmp type (getDsaPort dev ifindex)).1
    (npuUpdate cfg g hw1 (hw1.get ref).dst stag bmp type (getDsaPort dev ifindex)).2.1 ref bmp true
  exact (h3.after (h1.trans h2)).psebmp bmp

lemma teardown_row {hw : Hw} (hslots : hw'.slots = hw.slots) :
    RowStep g hw (mtblTeardown g hw').1.unbind (mtblTeardown g hw').2 := by
  refine RowStep.after ?_ (RowsKept.of_slots g hslots)
  unfold mtblTeardown
  split
  · next idx ppe hidx hppe => exact .released ppe idx ⟨rfl, rfl, rfl⟩ ⟨hidx, hppe⟩ rfl rfl
  · next hne =>
    refine .kept ⟨⟨rfl, rfl, rfl⟩, rfl, fun hidx => ?_, rfl⟩
    obtain ⟨idx, hidx'⟩ := Option.ne_none_iff_exists'.mp hidx
    cases hppe : g.ppeId with
    | none => rfl
    | some ppe => exact absurd hppe (hne idx ppe hidx')

/-- Whether a group with the bitmap is torn down when there is no NPU. -/
def noNpuTears (cfg : Cfg) (bmp : Bmp) : Bool :=
  (isSingle bmp && decide (Port.tdma ∈ bmp) || isMulti bmp) &&
    (cfg.dsa || !(isMulti bmp && decide (Port.tdma ∉ bmp)))

/-- Without an NPU, a group is torn down, spread over the Ethernet ports, sent to one of them, or
left alone when there is no port. -/
lemma noNpuHandle_cases :
    (noNpuTears cfg bmp ∧ noNpuHandle cfg g hw ref stag bmp = noNpuTeardownGroup cfg g hw) ∨
    (¬ noNpuTears cfg bmp ∧ ¬ isSingle bmp ∧
      noNpuHandle cfg g hw ref stag bmp = noNpuGswMultiEth cfg g hw ref bmp) ∨
    (¬ noNpuTears cfg bmp ∧ isSingle bmp ∧
      noNpuHandle cfg g hw ref stag bmp = noNpuSingleGdma g hw ref stag bmp) ∨
    (bmp = ∅ ∧ noNpuHandle cfg g hw ref stag bmp = (g, hw, 0)) := by
  simp only [noNpuHandle]
  split_ifs with hmulti hdsa heth hgdma
  · exact Or.inl ⟨by simp_all [noNpuTears], rfl⟩
  · exact Or.inr (Or.inl ⟨by simp_all [noNpuTears], by simp_all [isMulti], rfl⟩)
  · refine Or.inl ⟨?_, rfl⟩
    have heth' : (isMulti bmp && decide (Port.tdma ∉ bmp)) = false := Bool.eq_false_iff.mpr heth
    rw [noNpuTears, hmulti, heth']
    simp
  · exact Or.inr (Or.inr (Or.inl ⟨by simp_all [noNpuTears], by simp_all, rfl⟩))
  · refine Or.inr (Or.inr (Or.inr ⟨?_, rfl⟩))
    simp only [isMulti] at hmulti hgdma
    by_contra hbmp
    cases hsingle : isSingle bmp <;> simp_all

lemma noNpuHandle_row :
    RowStep g hw (noNpuHandle cfg g hw ref stag bmp).1 (noNpuHandle cfg g hw ref stag bmp).2.1 := by
  rcases noNpuHandle_cases cfg g hw ref stag bmp with ⟨_, h⟩ | ⟨_, _, h⟩ | ⟨_, _, h⟩ | ⟨_, h⟩
  · rw [h]
    exact teardown_row g (entryDelete_slots cfg hw _ _)
  · rw [h]
    have hrow := mtblSetup_row cfg g hw ref bmp false
    unfold noNpuGswMultiEth
    generalize mtblSetup cfg g hw ref bmp false = r at hrow
    obtain ⟨g', hw', ok⟩ := r
    cases ok
    · exact hrow.psebmp bmp
    · exact (hrow.before (RowsKept.of_slots g' (Hw.set_slots hw' ref _))).psebmp bmp
  · rw [h]
    exact ((mtblTeardown_row g _).after (RowsKept.of_slots g (Hw.set_slots hw ref _))).psebmp bmp
  · rw [h]
    exact .refl g hw

lemma hwUpdate_row (dev : IfIndex → Option Dev) (g : Group) (hw : Hw) (ref : FoeRef) (stag : Stag)
    (bmp : Bmp) (type : Mdb) (ifindex : IfIndex) :
    RowStep g hw (hwUpdate cfg dev g hw ref stag bmp type ifindex).1
      (hwUpdate cfg dev g hw ref stag bmp type ifindex).2.1 := by
  unfold hwUpdate
  split_ifs
  · exact noNpuHandle_row cfg g hw ref _ bmp
  · exact npuDsaHandle_row cfg dev g hw ref _ bmp type ifindex
  · exact npuGswHandle_row cfg g hw ref bmp

/-! ## What an event does to the rows -/

/-- The group of a notification is bound to an IP flow and has no running port. -/
def quits (dev : IfIndex → Option Dev) (hw : Hw) (g : Group) : Bool :=
  (getPseTxBmp dev g.members).1 = ∅ &&
    match getHwFoe g with
    | none => false
    | some ref => (hw.get (some ref)).key.isSome

lemma eventHwHandle_row {cfg : Cfg} {dev : IfIndex → Option Dev} {g : Group} {hw : Hw}
    (hquit : g.mtblIdx ≠ none → ¬ quits dev hw g) (type : Mdb) (ifindex : IfIndex) :
    RowStep g hw (eventHwHandle cfg dev g hw type ifindex).1
      (eventHwHandle cfg dev g hw type ifindex).2 := by
  unfold eventHwHandle
  cases href : getHwFoe g with
  | none => exact .refl g hw
  | some ref =>
    dsimp only
    split_ifs with hkey hbmp
    · exact .refl g hw
    · exact hwUpdate_row cfg dev g hw (some ref) _ _ type ifindex
    · refine .kept (RowsKept.unbind g ?_ (entryDelete_slots cfg hw _ _))
      by_contra hidx
      refine hquit hidx ?_
      simpa [quits, href, Option.isSome_iff_ne_none] using ⟨by simpa using hbmp, by simpa using hkey⟩

lemma eventHwHandle_kept {cfg : Cfg} {dev : IfIndex → Option Dev} {g : Group}
    (hbmp : (getPseTxBmp dev g.members).1 = ∅) (hidx : g.mtblIdx = none) (hw : Hw) (type : Mdb)
    (ifindex : IfIndex) :
    RowsKept g hw (eventHwHandle cfg dev g hw type ifindex).1
      (eventHwHandle cfg dev g hw type ifindex).2 := by
  unfold eventHwHandle
  cases getHwFoe g with
  | none => exact RowsKept.refl g hw
  | some ref =>
    dsimp only
    split_ifs with hkey hne
    · exact RowsKept.refl g hw
    · exact absurd hbmp hne
    · exact RowsKept.unbind g hidx (entryDelete_slots cfg hw _ _)

lemma eventHwHandle_same (dev : IfIndex → Option Dev) (g : Group) (hw : Hw) (type : Mdb)
    (ifindex : IfIndex) : g.Same (eventHwHandle cfg dev g hw type ifindex).1 := by
  unfold eventHwHandle
  cases getHwFoe g with
  | none => exact Group.Same.refl g
  | some ref =>
    dsimp only
    split_ifs
    · exact Group.Same.refl g
    · exact (hwUpdate_row cfg dev g hw (some ref) _ _ type ifindex).same
    · exact ⟨rfl, rfl, rfl⟩

lemma groupNotify_same (dev : IfIndex → Option Dev) (hook : Bool) (type : Mdb) (ifindex : IfIndex)
    (g : Group) (hw : Hw) :
    (g.station type ifindex).Same (groupNotify cfg dev hook type ifindex g hw).1 := by
  unfold groupNotify
  cases hook with
  | false => exact Group.Same.refl _
  | true => exact eventHwHandle_same cfg dev _ hw type ifindex

@[simp] lemma Group.station_ip : (g.station type ifindex).ip = g.ip := by
  cases type <;> rfl

@[simp] lemma Group.station_mtblIdx : (g.station type ifindex).mtblIdx = g.mtblIdx := by
  cases type <;> rfl

@[simp] lemma Group.station_ppeId : (g.station type ifindex).ppeId = g.ppeId := by
  cases type <;> rfl

lemma withGroup_cases (groups : List Group) (ip : Ip) :
    withGroup groups ip = groups ∨
      (∀ g ∈ groups, g.ip ≠ ip) ∧ withGroup groups ip = groups ++ [createGroup ip] := by
  unfold withGroup
  cases hfind : findGroupByIp groups ip with
  | some g => exact Or.inl (by simp)
  | none => exact Or.inr ⟨by simpa [findGroupByIp] using hfind, by simp⟩

lemma mem_withGroup {groups : List Group} {ip : Ip} {g : Group} (h : g ∈ withGroup groups ip) :
    g ∈ groups ∨ g = createGroup ip := by
  rcases withGroup_cases groups ip with heq | ⟨_, heq⟩
  · rw [heq] at h
    exact Or.inl h
  · rw [heq] at h
    simpa using h

lemma withGroup_split {groups : List Group} (hnodup : (groups.map Group.ip).Nodup) (ip : Ip) :
    ∃ pre g post, withGroup groups ip = pre ++ g :: post ∧ g.ip = ip ∧
      (∀ x ∈ pre ++ post, x.ip ≠ ip) ∧
      (groups = pre ++ g :: post ∨ g = createGroup ip ∧ groups = pre ++ post) := by
  unfold withGroup
  cases hfind : findGroupByIp groups ip with
  | some g =>
    obtain ⟨hip, pre, post, hgroups, hpre⟩ := List.find?_eq_some_iff_append.mp hfind
    have hip' : g.ip = ip := by simpa using hip
    refine ⟨pre, g, post, by simpa using hgroups, hip', ?_, Or.inl hgroups⟩
    intro x hx hxip
    rw [hgroups, List.map_append, List.map_cons, List.nodup_middle, ← List.map_append] at hnodup
    refine (List.nodup_cons.mp hnodup).1 ?_
    rw [hip', ← hxip]
    exact List.mem_map_of_mem hx
  | none =>
    have hnone : ∀ x ∈ groups, x.ip ≠ ip := by simpa [findGroupByIp] using hfind
    exact ⟨groups, createGroup ip, [], by simp, rfl, by simpa using hnone, Or.inr ⟨rfl, by simp⟩⟩

/-- A notification updates the group of its address, which is created before if need be and freed
afterwards if it has no member. -/
lemma groupUpdate_eq {s : St} {ip : Ip} {pre post : List Group} {g : Group}
    (hsplit : withGroup s.groups ip = pre ++ g :: post) (hip : g.ip = ip)
    (hother : ∀ x ∈ pre ++ post, x.ip ≠ ip) :
    groupUpdate cfg s type ip ifindex = { s with
      groups := if (groupNotify cfg s.dev s.hook type ifindex g s.hw).1.members = [] then pre ++ post
        else pre ++ (groupNotify cfg s.dev s.hook type ifindex g s.hw).1 :: post
      hw := (groupNotify cfg s.dev s.hook type ifindex g s.hw).2 } := by
  have hpre : ∀ x ∈ pre, x.ip ≠ ip := fun x hx => hother x (List.mem_append_left _ hx)
  have hpost : ∀ x ∈ post, x.ip ≠ ip := fun x hx => hother x (List.mem_append_right _ hx)
  have hip' : (groupNotify cfg s.dev s.hook type ifindex g s.hw).1.ip = ip := by
    rw [(groupNotify_same cfg s.dev s.hook type ifindex g s.hw).ip, Group.station_ip, hip]
  unfold groupUpdate groupDel
  rw [hsplit, onFirst_split (by simpa using hip) (by simpa using hpre)]
  dsimp only
  rw [List.eraseP_append_right]
  · split_ifs with hmem
    · rw [List.eraseP_cons_of_pos (by simp [hip', hmem])]
    · rw [List.eraseP_cons_of_neg (by simp [hmem]), List.eraseP_of_forall_not]
      intro x hx
      simp [hpost x hx]
  · intro x hx
    simp [hpre x hx]

lemma mem_groupUpdate {cfg : Cfg} {s : St} {type : Mdb} {ip : Ip} {ifindex : IfIndex}
    {pre post : List Group} {g x : Group} (hsplit : withGroup s.groups ip = pre ++ g :: post)
    (hip : g.ip = ip) (hother : ∀ x ∈ pre ++ post, x.ip ≠ ip)
    (hx : x ∈ (groupUpdate cfg s type ip ifindex).groups) :
    x = (groupNotify cfg s.dev s.hook type ifindex g s.hw).1 ∨ x ∈ pre ++ post := by
  rw [groupUpdate_eq cfg type ifindex hsplit hip hother] at hx
  dsimp only at hx
  split_ifs at hx
  · exact Or.inr hx
  · exact List.mem_cons.mp (List.perm_middle.mem_iff.mp hx)

lemma groupTeardownNpu_kept (dev : IfIndex → Option Dev) (g : Group) (hw : Hw) :
    RowsKept g hw (groupTeardownNpu cfg dev g hw).1 (groupTeardownNpu cfg dev g hw).2 := by
  unfold groupTeardownNpu
  cases getHwFoe g with
  | none => exact RowsKept.refl g hw
  | some ref => exact ⟨⟨rfl, rfl, rfl⟩, rfl, fun _ => rfl, npuDeleteStations_slots cfg hw _ _ none⟩

lemma blistGroup_kept {cfg : Cfg} {dev : IfIndex → Option Dev} {blist : Blist} {g : Group}
    (h : ipMatchBlist g blist → g.mtblIdx = none) (hw : Hw) :
    RowsKept g hw (blistGroup cfg dev blist g hw).1 (blistGroup cfg dev blist g hw).2 := by
  unfold blistGroup
  split_ifs with hmatch
  · have hkept := groupTeardownNpu_kept cfg dev g hw
    exact hkept.trans (RowsKept.unbind _ (hkept.mtblIdx.trans (h hmatch))
      (entryDelete_slots cfg _ _ _))
  · exact RowsKept.refl g hw

lemma groupHandle_kept {cfg : Cfg} {dev : IfIndex → Option Dev} {enable : Bool} {g : Group}
    (h : enable = false → g.mtblIdx = none) (hw : Hw) :
    RowsKept g hw (groupHandle cfg dev enable g hw).1 (groupHandle cfg dev enable g hw).2 := by
  unfold groupHandle
  cases getHwFoe g with
  | none => exact RowsKept.refl g hw
  | some ref =>
    cases enable with
    | true => exact RowsKept.refl g hw
    | false =>
      refine RowsKept.unbind g (h rfl) ?_
      exact (npuDeleteStations_slots cfg _ _ _ none).trans (entryDelete_slots cfg hw _ _)

lemma groupPath_kept {cfg : Cfg} {hwPath : Bool} {g : Group}
    (h : hwPath = false → g.mtblIdx = none) (hw : Hw) :
    RowsKept g hw (groupPath cfg hwPath g hw).1 (groupPath cfg hwPath g hw).2 := by
  cases hwPath with
  | true => exact ⟨⟨rfl, rfl, rfl⟩, rfl, fun _ => rfl, rfl⟩
  | false =>
    exact ⟨⟨rfl, rfl, rfl⟩, rfl, fun hg => absurd (h rfl) hg, entryDelete_slots cfg hw _ _⟩

lemma ifdownGroup_row (dev : IfIndex → Option Dev) (ifindex : IfIndex) (g : Group) (hw : Hw) :
    RowStep g hw (ifdownGroup cfg dev ifindex g hw).1 (ifdownGroup cfg dev ifindex g hw).2 := by
  unfold ifdownGroup
  cases getHwFoe g with
  | none =>
    dsimp only
    split_ifs <;> exact .refl g hw
  | some ref =>
    dsimp only
    split_ifs
    · exact hwUpdate_row cfg dev g hw (some ref) _ _ .del ifindex
    · exact teardown_row g (entryDelete_slots cfg hw _ _)
    · exact .refl g hw

@[simp] lemma foeEntryCommit_slots (ppe idx : ℕ) :
    (foeEntryCommit hw ppe idx).slots = hw.slots := by
  unfold foeEntryCommit
  split_ifs
  · exact Hw.set_slots hw _ _
  · rfl

lemma foeBindHandle_row {cfg : Cfg} {g : Group}
    (hppe : g.offload → g.mtblIdx ≠ none → g.ppeId = some ppe) (dev : IfIndex → Option Dev)
    (hw : Hw) (idx : ℕ) (ifindex : IfIndex) :
    RowStep g hw (foeBindHandle cfg dev g hw ppe idx ifindex).1
      (foeBindHandle cfg dev g hw ppe idx ifindex).2.1 := by
  unfold foeBindHandle
  split_ifs with hrefuse
  · exact .refl g hw
  · have hoff : g.offload := by simp_all
    set g' : Group := { g with ppeId := some ppe, foeIdx := some idx } with hg'
    have hkept : RowsKept g hw g' hw :=
      ⟨⟨rfl, rfl, rfl⟩, rfl, fun hidx => (hppe hoff hidx).symm, rfl⟩
    refine RowStep.after ?_ hkept
    simp only [bindHw]
    split_ifs
    · exact hwUpdate_row cfg dev g' hw none _ _ .new ifindex
    · exact .refl g' hw

lemma bindGroup_row {g : Group} (hppe : g.offload → g.mtblIdx ≠ none → g.ppeId = some ppe)
    (dev : IfIndex → Option Dev) (hw : Hw) (idx : ℕ) (ifindex : IfIndex) :
    RowStep g hw (bindGroup cfg dev ppe idx ifindex g hw).1
      (bindGroup cfg dev ppe idx ifindex g hw).2 := by
  refine (foeBindHandle_row hppe dev hw idx ifindex).before (RowsKept.of_slots _ ?_)
  simp only [bindGroup]
  split_ifs
  · exact foeEntryCommit_slots _ ppe idx
  · rfl

end Hnat
