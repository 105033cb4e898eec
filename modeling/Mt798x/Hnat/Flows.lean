import Mt798x.Hnat.Owner
import Mt798x.Hnat.Ports

/-!
# What the updates of a group do to the flow entries

An update of a bound group ends in one of two ways: the group is unbound, or it stays where it is,
its bitmap is the new one, and its flow entry and row send to that bitmap.  No other flow entry is
changed in where it sends to.
-/

namespace Hnat

variable {cfg : Cfg} {dev : IfIndex → Option Dev} {g : Group} {hw hw' : Hw} {ref : FoeRef}
  {bmp : Bmp}

/-! ## Flow entries that stay -/

/-- Two flow entries are for the same flow and send to the same place. -/
structure Foe.Agree (foe foe' : Foe) : Prop where
  key : foe'.key = foe.key
  mcast : foe'.mcast = foe.mcast
  dp : foe'.dp = foe.dp

lemma Foe.Agree.refl (foe : Foe) : foe.Agree foe := ⟨rfl, rfl, rfl⟩

lemma Foe.Agree.trans {foe foe' foe'' : Foe} (h : foe.Agree foe') (h' : foe'.Agree foe'') :
    foe.Agree foe'' :=
  ⟨h'.key.trans h.key, h'.mcast.trans h.mcast, h'.dp.trans h.dp⟩

/-- The entries of the table agree, apart from the one that is worked on. -/
def FoeKept (ref : FoeRef) (hw hw' : Hw) : Prop :=
  ∀ ppe idx, ref ≠ some (ppe, idx) → (hw.foe ppe idx).Agree (hw'.foe ppe idx)

namespace FoeKept

lemma of_eq (h : hw'.foe = hw.foe) : FoeKept ref hw hw' := by
  intro ppe idx _
  rw [h]
  exact Foe.Agree.refl _

lemma refl (ref : FoeRef) (hw : Hw) : FoeKept ref hw hw := of_eq rfl

lemma trans {hw'' : Hw} (h : FoeKept ref hw hw') (h' : FoeKept ref hw' hw'') :
    FoeKept ref hw hw'' :=
  fun ppe idx hne => (h ppe idx hne).trans (h' ppe idx hne)

lemma set (ref : FoeRef) (hw : Hw) (foe : Foe) : FoeKept ref hw (hw.set ref foe) := by
  intro ppe idx hne
  cases ref with
  | none => exact Foe.Agree.refl _
  | some place =>
    obtain ⟨ppe', idx'⟩ := place
    have heq : (hw.set (some (ppe', idx')) foe).foe ppe idx = hw.foe ppe idx := by
      by_cases hppe : ppe = ppe'
      · subst hppe
        have hidx : idx ≠ idx' := fun hidx => hne (by rw [hidx])
        simp [Hw.set, hidx]
      · simp [Hw.set, hppe]
    rw [heq]
    exact Foe.Agree.refl _

end FoeKept

@[simp] lemma Hw.get_set (hw : Hw) (ref : FoeRef) (foe : Foe) : (hw.set ref foe).get ref = foe := by
  cases ref with
  | none => rfl
  | some place =>
    obtain ⟨ppe, idx⟩ := place
    simp [Hw.set, Hw.get]

@[simp] lemma Hw.set_set (hw : Hw) (ref : FoeRef) (foe foe' : Foe) :
    (hw.set ref foe).set ref foe' = hw.set ref foe' := by
  cases ref with
  | none => rfl
  | some place =>
    obtain ⟨ppe, idx⟩ := place
    simp [Hw.set]

lemma entryDelete_kept (cfg : Cfg) (hw : Hw) (ppe idx : Option ℕ) (ref : FoeRef) :
    FoeKept ref hw (entryDelete cfg hw ppe idx) := by
  intro p i _
  unfold entryDelete
  split
  · exact Foe.Agree.refl _
  · next ppe =>
    split_ifs
    · exact Foe.Agree.refl _
    · split
      · by_cases hp : p = ppe
        · subst hp
          by_cases hi : i < cfg.foeNum
          · simpa [hi] using ⟨rfl, rfl, rfl⟩
          · simpa [hi] using Foe.Agree.refl _
        · simpa [hp] using Foe.Agree.refl _
      · next idx =>
        split_ifs
        · exact Foe.Agree.refl _
        · by_cases hp : p = ppe
          · subst hp
            by_cases hi : i = idx
            · subst hi
              simpa [Hw.set] using ⟨rfl, rfl, rfl⟩
            · simpa [Hw.set, hi] using Foe.Agree.refl _
          · simpa [Hw.set, hp] using Foe.Agree.refl _

@[simp] lemma Hw.setSlot_foe (hw : Hw) (ppe idx : ℕ) (slot : Slot) :
    (hw.setSlot ppe idx slot).foe = hw.foe := rfl

@[simp] lemma Hw.setSlot_get (hw : Hw) (ppe idx : ℕ) (slot : Slot) (ref : FoeRef) :
    (hw.setSlot ppe idx slot).get ref = hw.get ref := by
  cases ref <;> rfl

/-! ## Where a group sends -/

/-- The group is not bound. -/
def Group.Unbound (g : Group) : Prop := g.ppeId = none ∧ g.foeIdx = none

/-- The group is where it was. -/
def Group.Stays (g g' : Group) : Prop := g'.ppeId = g.ppeId ∧ g'.foeIdx = g.foeIdx

/-- The flow entry sends to the one port of the bitmap, or through the group's row to the mask. -/
structure Sends (g : Group) (hw : Hw) (foe : Foe) (bmp mask : Bmp) : Prop where
  single : isSingle bmp → foe.mcast = false ∧ (∃ port ∈ bmp, port.dp = some foe.dp) ∧
    g.mtblIdx = none
  multi : ¬ isSingle bmp → foe.mcast = true ∧
    ∃ ppe row, g.Holds ppe row ∧ (hw.slots ppe row).px = mask

lemma Sends.psebmp {foe : Foe} {mask : Bmp} (h : Sends g hw foe bmp mask) (pse : Bmp) :
    Sends { g with psebmp := pse } hw foe bmp mask := ⟨h.single, h.multi⟩

/-- The row mask of the driver. -/
def portMask (bmp : Bmp) (toNpu : Bool) : Bmp :=
  if toNpu then insert Port.tdma (bmp.erase .gdma1) else bmp

lemma foeMcDisable_single (hsingle : isSingle bmp) (hpdma : Port.pdma ∉ bmp) {foe : Foe}
    (hkey : foe.key.isSome) :
    (foeMcDisable foe bmp).mcast = false ∧ ∃ port ∈ bmp, port.dp = some (foeMcDisable foe bmp).dp := by
  obtain ⟨port, rfl⟩ := Finset.card_eq_one.mp (by simpa [isSingle] using hsingle)
  cases port with
  | pdma => exact absurd (Finset.mem_singleton_self _) hpdma
  | gdma3 => exact ⟨by simp [foeMcDisable, ffs, Port.dp, hkey],
      .gdma3, by simp, by simp [foeMcDisable, ffs, Port.dp, hkey]⟩
  | gdma1 => exact ⟨by simp [foeMcDisable, ffs, Port.dp, hkey],
      .gdma1, by simp, by simp [foeMcDisable, ffs, Port.dp, hkey]⟩
  | gdma2 => exact ⟨by simp [foeMcDisable, ffs, Port.dp, hkey],
      .gdma2, by simp, by simp [foeMcDisable, ffs, Port.dp, hkey]⟩
  | tdma => exact ⟨by simp [foeMcDisable, ffs, Port.dp, hkey],
      .tdma, by simp, by simp [foeMcDisable, ffs, Port.dp, hkey]⟩

@[simp] lemma foeMcDisable_key (foe : Foe) (bmp : Bmp) : (foeMcDisable foe bmp).key = foe.key := by
  unfold foeMcDisable
  split
  · rfl
  · dsimp only
    split_ifs <;> rfl

@[simp] lemma foeMcEnable_key (foe : Foe) (toNpu : Bool) : (foeMcEnable foe toNpu).key = foe.key := by
  simp only [foeMcEnable]
  split_ifs <;> rfl

lemma foeMcEnable_mcast {foe : Foe} (hkey : foe.key.isSome) (toNpu : Bool) :
    (foeMcEnable foe toNpu).mcast = true := by
  simp [foeMcEnable, hkey]

@[simp] lemma foeStagUpdate_key (foe : Foe) (stag : Stag) : (foeStagUpdate foe stag).key = foe.key := rfl

lemma mtblTeardown_kept (g : Group) (hw : Hw) (ref : FoeRef) :
    FoeKept ref hw (mtblTeardown g hw).2 ∧ (mtblTeardown g hw).2.get ref = hw.get ref ∧
      g.Stays (mtblTeardown g hw).1 := by
  unfold mtblTeardown
  split
  · exact ⟨FoeKept.of_eq rfl, Hw.setSlot_get hw _ _ _ ref, rfl, rfl⟩
  · exact ⟨FoeKept.refl ref hw, rfl, rfl, rfl⟩

lemma mtblTeardown_none {ppe : ℕ} (hppe : g.ppeId = some ppe) (hw : Hw) :
    (mtblTeardown g hw).1.mtblIdx = none := by
  unfold mtblTeardown
  cases hidx : g.mtblIdx with
  | none => simpa using hidx
  | some idx => simp [hppe]

/-- What the update of the row and the flow entry ends in. -/
structure Updated (mask : Bmp) (g : Group) (hw : Hw) (ref : FoeRef) (bmp : Bmp) (g' : Group)
    (hw' : Hw) : Prop where
  kept : FoeKept ref hw hw'
  ends : g'.Unbound ∨ (g.Stays g' ∧ (hw'.get ref).key = (hw.get ref).key ∧
    ((hw.get ref).key.isSome → Sends g' hw' (hw'.get ref) bmp mask))

lemma foeMtblUpdate_updated (cfg : Cfg) {ppe : ℕ} (hppe : g.ppeId = some ppe)
    (hmac : g.mac = getMacFromMdb g.ip) (hpdma : Port.pdma ∉ bmp) (hw : Hw) (ref : FoeRef) (toNpu : Bool) :
    Updated (portMask bmp toNpu) g hw ref bmp (foeMtblUpdate cfg g hw ref bmp toNpu).1
      (foeMtblUpdate cfg g hw ref bmp toNpu).2 := by
  unfold foeMtblUpdate
  split_ifs with hsingle
  · set hw1 := hw.set ref (foeMcDisable (hw.get ref) bmp) with hhw1
    obtain ⟨hkept, hget, hstays⟩ := mtblTeardown_kept g hw1 ref
    have hfoe : (mtblTeardown g hw1).2.get ref = foeMcDisable (hw.get ref) bmp := by
      rw [hget, hhw1, Hw.get_set]
    refine ⟨(FoeKept.set ref hw _).trans hkept, Or.inr ⟨hstays, ?_, fun hkey => ⟨fun _ => ?_, ?_⟩⟩⟩
    · rw [hfoe, foeMcDisable_key]
    · obtain ⟨hmcast, hdp⟩ := foeMcDisable_single hsingle hpdma hkey
      rw [hfoe]
      exact ⟨hmcast, hdp, mtblTeardown_none hppe hw1⟩
    · exact fun h => absurd hsingle h
  · cases hidx : g.mtblIdx <|> allocMtblEntry cfg hw ppe with
    | none =>
      rw [mtblSetup_of_full hppe hidx]
      exact ⟨FoeKept.set ref hw _, Or.inl ⟨rfl, rfl⟩⟩
    | some idx =>
      set hw1 := hw.setSlot ppe idx (macRow (portMask bmp toNpu) g.ip) with hhw1
      have hrow : setHnatMtbl hw g.mac idx ppe (portMask bmp toNpu) = hw1 := by
        rw [hmac, setHnatMtbl_mac]
      rw [mtblSetup_of_row hppe hidx, ← portMask, hrow]
      change Updated _ g hw ref bmp { g with mtblIdx := some idx }
        (hw1.set ref (foeMcEnable (hw1.get ref) toNpu))
      have hfoe : (hw1.set ref (foeMcEnable (hw1.get ref) toNpu)).get ref =
          foeMcEnable (hw.get ref) toNpu := by
        rw [Hw.get_set, hhw1, Hw.setSlot_get]
      refine ⟨(FoeKept.of_eq rfl).trans (FoeKept.set ref hw1 _), Or.inr ⟨⟨rfl, rfl⟩, ?_, ?_⟩⟩
      · rw [hfoe, foeMcEnable_key]
      · intro hkey
        refine ⟨fun h => absurd h hsingle, fun _ => ⟨?_, ppe, idx, ⟨rfl, hppe⟩, ?_⟩⟩
        · rw [hfoe]
          exact foeMcEnable_mcast hkey toNpu
        · rw [Hw.set_slots, hhw1, Hw.setSlot_self]
          cases g.ip <;> rfl

lemma Updated.psebmp {mask : Bmp} {g' : Group} (h : Updated mask g hw ref bmp g' hw') (pse : Bmp) :
    Updated mask g hw ref bmp { g' with psebmp := pse } hw' := by
  refine ⟨h.kept, ?_⟩
  rcases h.ends with hun | ⟨hstays, hkey, hsends⟩
  · exact Or.inl hun
  · exact Or.inr ⟨hstays, hkey, fun hsome => (hsends hsome).psebmp pse⟩

/-- An update after something that only touched the flow entry, the clients and the offload flag. -/
lemma Updated.after {mask : Bmp} {g1 g' : Group} {hw1 : Hw} (h : Updated mask g1 hw1 ref bmp g' hw')
    (hkept : FoeKept ref hw hw1) (hstays : g.Stays g1) (hkey : (hw1.get ref).key = (hw.get ref).key) :
    Updated mask g hw ref bmp g' hw' := by
  refine ⟨hkept.trans h.kept, ?_⟩
  rcases h.ends with hun | ⟨hstays', hkey', hsends⟩
  · exact Or.inl hun
  · refine Or.inr ⟨⟨hstays'.1.trans hstays.1, hstays'.2.trans hstays.2⟩, hkey'.trans hkey, ?_⟩
    rw [← hkey]
    exact hsends

lemma NpuOnly.stays {g' : Group} (h : NpuOnly g hw g' hw') : g.Stays g' := by
  rw [h.group]
  exact ⟨rfl, rfl⟩

lemma Hw.NpuOnly.get (h : hw.NpuOnly hw') (ref : FoeRef) : hw'.get ref = hw.get ref := by
  rw [h]
  cases ref <;> rfl

lemma Hw.NpuOnly.foe (h : hw.NpuOnly hw') : hw'.foe = hw.foe := by
  rw [h]

/-- Whether the driver sends to the NPU what goes to the switch. -/
def Cfg.toNpu (cfg : Cfg) : Bool := cfg.npu && cfg.dsa

/-- What an update of the hardware ends in: the group is unbound, or sends to the new bitmap. -/
structure Settled (cfg : Cfg) (g : Group) (hw : Hw) (ref : FoeRef) (bmp : Bmp) (g' : Group)
    (hw' : Hw) : Prop extends Updated (portMask bmp cfg.toNpu) g hw ref bmp g' hw' where
  psebmp : g'.Unbound ∨ g'.psebmp = bmp
  bears : g'.Unbound ∨ bmp ≠ ∅ ∧ (cfg.npu = false → ¬ noNpuTears cfg bmp)

lemma npuGswHandle_updated {ppe : ℕ} (hppe : g.ppeId = some ppe) (hmac : g.mac = getMacFromMdb g.ip)
    (hpdma : Port.pdma ∉ bmp) (hw : Hw) (ref : FoeRef) :
    Updated bmp g hw ref bmp (npuGswHandle cfg g hw ref bmp).1 (npuGswHandle cfg g hw ref bmp).2.1 :=
  (foeMtblUpdate_updated cfg hppe hmac hpdma hw ref false).psebmp bmp

lemma npuDsaHandle_updated {ppe : ℕ} (hppe : g.ppeId = some ppe) (hmac : g.mac = getMacFromMdb g.ip)
    (hpdma : Port.pdma ∉ bmp) (dev : IfIndex → Option Dev) (hw : Hw) (ref : FoeRef) (stag : Stag)
    (type : Mdb) (ifindex : IfIndex) :
    Updated (portMask bmp true) g hw ref bmp
      (npuDsaHandle cfg dev g hw ref stag bmp type ifindex).1
      (npuDsaHandle cfg dev g hw ref stag bmp type ifindex).2.1 := by
  unfold npuDsaHandle
  set hw1 := hw.set ref (foeStagUpdate (hw.get ref) stag) with hhw1
  set r := npuUpdate cfg g hw1 (hw1.get ref).dst stag bmp type (getDsaPort dev ifindex) with hr
  have honly : NpuOnly g hw1 r.1 r.2.1 := npuUpdate_only cfg g hw1 _ stag bmp type _
  have hkept : FoeKept ref hw r.2.1 := (FoeKept.set ref hw _).trans (FoeKept.of_eq honly.hw.foe)
  have hkey : (r.2.1.get ref).key = (hw.get ref).key := by
    rw [honly.hw.get, hhw1, Hw.get_set, foeStagUpdate_key]
  have hppe' : r.1.ppeId = some ppe := honly.stays.1.trans hppe
  have hmac' : r.1.mac = getMacFromMdb r.1.ip := by
    rw [honly.kept.same.mac, honly.kept.same.ip, hmac]
  have hupdated := foeMtblUpdate_updated cfg hppe' hmac' hpdma r.2.1 ref true
  exact (hupdated.after hkept honly.stays hkey).psebmp bmp

lemma noNpuGswMultiEth_eq (h : ¬ isSingle bmp) (cfg : Cfg) (g : Group) (hw : Hw) (ref : FoeRef) :
    noNpuGswMultiEth cfg g hw ref bmp = npuGswHandle cfg g hw ref bmp := by
  simp only [noNpuGswMultiEth, npuGswHandle, foeMtblUpdate, if_neg h]
  generalize mtblSetup cfg g hw ref bmp false = r
  obtain ⟨g', hw', ok⟩ := r
  cases ok <;> rfl

lemma noNpuSingleGdma_eq (h : isSingle bmp) (cfg : Cfg) (g : Group) (hw : Hw) (ref : FoeRef)
    (stag : Stag) :
    noNpuSingleGdma g hw ref stag bmp =
      npuGswHandle cfg g (hw.set ref (foeStagUpdate (hw.get ref) stag)) ref bmp := by
  simp only [noNpuSingleGdma, npuGswHandle, foeMtblUpdate, if_pos h, Hw.get_set, Hw.set_set]

lemma hwUpdate_settled {ppe : ℕ} (hppe : g.ppeId = some ppe) (hmac : g.mac = getMacFromMdb g.ip)
    (hpdma : Port.pdma ∉ bmp) (hne : bmp ≠ ∅) (dev : IfIndex → Option Dev) (hw : Hw) (ref : FoeRef)
    (stag : Stag) (type : Mdb) (ifindex : IfIndex) :
    Settled cfg g hw ref bmp (hwUpdate cfg dev g hw ref stag bmp type ifindex).1
      (hwUpdate cfg dev g hw ref stag bmp type ifindex).2.1 := by
  unfold hwUpdate
  cases hnpu : cfg.npu with
  | false =>
    have hmask : portMask bmp cfg.toNpu = bmp := by simp [portMask, Cfg.toNpu, hnpu]
    simp only [Bool.not_false, if_true]
    rcases noNpuHandle_cases cfg g hw ref stag.toU8 bmp with
      ⟨_, h⟩ | ⟨hbears, hns, h⟩ | ⟨hbears, hsingle, h⟩ | ⟨hempty, _⟩
    · rw [h]
      refine ⟨⟨?_, Or.inl ⟨rfl, rfl⟩⟩, Or.inl ⟨rfl, rfl⟩, Or.inl ⟨rfl, rfl⟩⟩
      exact (entryDelete_kept cfg hw g.ppeId g.foeIdx ref).trans (mtblTeardown_kept g _ ref).1
    · rw [h, noNpuGswMultiEth_eq hns]
      exact ⟨by rw [hmask]; exact npuGswHandle_updated hppe hmac hpdma hw ref, Or.inr rfl,
        Or.inr ⟨hne, fun _ => hbears⟩⟩
    · rw [h, noNpuSingleGdma_eq hsingle cfg]
      refine ⟨?_, Or.inr rfl, Or.inr ⟨hne, fun _ => hbears⟩⟩
      rw [hmask]
      exact (npuGswHandle_updated hppe hmac hpdma _ ref).after (FoeKept.set ref hw _) ⟨rfl, rfl⟩
        (by rw [Hw.get_set, foeStagUpdate_key])
    · exact absurd hempty hne
  | true =>
    simp only [Bool.not_true, Bool.false_eq_true, if_false]
    cases hdsa : cfg.dsa with
    | false =>
      have hmask : portMask bmp cfg.toNpu = bmp := by simp [portMask, Cfg.toNpu, hdsa]
      exact ⟨by rw [hmask]; exact npuGswHandle_updated hppe hmac hpdma hw ref, Or.inr rfl,
        Or.inr ⟨hne, fun h => by simp [hnpu] at h⟩⟩
    | true =>
      have hnpu' : cfg.toNpu = true := by simp [Cfg.toNpu, hnpu, hdsa]
      refine ⟨?_, Or.inr rfl, Or.inr ⟨hne, fun h => by simp [hnpu] at h⟩⟩
      rw [hnpu']
      exact npuDsaHandle_updated hppe hmac hpdma dev hw ref _ type ifindex

end Hnat
