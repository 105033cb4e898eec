import Mt798x.Mtwifi.Converter

/-!
# What a configuration leaves of the one before

A key of the profile that `convert` does not write keeps its old value when the profile is merged.
`LeftOut` lists those keys, branch by branch; two old profiles that agree on them lead to the same
profile, and two that do not agree on them do not (`residue_iff`).
-/

namespace Mtwifi

/-- The first client interface. -/
def clientOf (ifaces : List Iface) : Option IfaceConfig := (ifaces.find? Iface.isSta).map Iface.config

/-- Protected management frames are required of the access point. -/
def pmfRequired (enc_info : String × String) : Prop := enc_info.1 = "OWE" ∨ enc_info.1 = "WPA3PSK"

/-- The interface is an AP with this index. -/
def Iface.HasIdx (iface : Iface) (i : ℕ) : Prop :=
  iface.isAp = true ∧ get_vif_idx iface.mtwifi_ifname = i

/-- The keys that `convert` writes for some configuration and leaves out for this one. -/
def LeftOut (c : UciCfg) : DatKey → Prop
  | .CountryCode => countryOf c.config = none
  | .CountryRegion => countryOf c.config = none ∨ c.config.band ≠ some "2g"
  | .CountryRegionABand => countryOf c.config = none ∨ c.config.band = some "2g"
  | .BeaconPeriod | .WHNAT => c.config.dbdc_main ≠ some true
  | .ApCliPMFMFPC | .ApCliPMFMFPR => (clientOf c.interfaces).bind encInfo = none
  | .ApCliPMFSHA256 => ∀ enc_info ∈ (clientOf c.interfaces).bind encInfo, ¬ pmfRequired enc_info
  | .AccessPolicy i => MAX_MBSSID ≤ i ∧ ∀ iface ∈ c.interfaces, ¬ iface.HasIdx i
  | .AccessControlList i => MAX_MBSSID ≤ i ∧
      ∀ iface ∈ c.interfaces, iface.HasIdx i → accessControlList iface.config = none
  | .WPAPSK n => MAX_MBSSID < n ∧
      ∀ iface ∈ c.interfaces, iface.HasIdx (n - 1) → iface.config.key = none
  | .SSID n => MAX_MBSSID < n ∧
      ∀ iface ∈ c.interfaces, iface.HasIdx (n - 1) → iface.config.ssid = none
  | _ => False

/-- The keys that `convert` knows: the suffixes of `SSID` and `WPAPSK` start at 1, those of
`RADIUS_Key` end at 16 as well. -/
def Known : DatKey → Prop
  | .WPAPSK n | .SSID n => 1 ≤ n
  | .RADIUS_Key n => 1 ≤ n ∧ n ≤ MAX_MBSSID
  | _ => True

/-! ## The keys that each part of the conversion writes -/

/-- The keys that a profile has. -/
def Profile.Has (dat : Profile) (k : DatKey) : Prop := (dat k).isSome = true

namespace Profile

@[simp] lemma has_set {dat : Profile} {key k : DatKey} {val : String} :
    (dat.set key val).Has k ↔ k = key ∨ dat.Has k := by
  rw [Has, set_apply]
  split
  · simp [*]
  · simp [Has, *]

lemma has_ite {p : Prop} [Decidable p] {dat dat' : Profile} {k : DatKey} :
    (if p then dat else dat').Has k ↔ (p ∧ dat.Has k) ∨ (¬ p ∧ dat'.Has k) := by
  split <;> simp [*]

lemma has_foldl {α : Type*} {f : Profile → α → Profile} {k : DatKey} (writes : α → DatKey → Prop)
    (hf : ∀ dat a, (f dat a).Has k ↔ writes a k ∨ dat.Has k) (dat : Profile) (l : List α) :
    (l.foldl f dat).Has k ↔ (∃ a ∈ l, writes a k) ∨ dat.Has k := by
  induction l generalizing dat with
  | nil => simp
  | cons a l ih =>
    rw [List.foldl_cons, ih, hf]
    simp only [List.mem_cons, exists_eq_or_imp]
    exact or_left_comm.trans or_assoc.symm

end Profile

open Profile

variable {k : DatKey} {dat : Profile}

lemma has_radioSettings {conf : DeviceConfig} {has_apcli : Bool} :
    (radioSettings conf has_apcli dat).Has k ↔
      k ∈ [.HT_BW, .VHT_BW, .HT_BSSCoexistence, .vif .WirelessMode, .AutoChannelSelect, .Channel,
        .PERCENTAGEenable, .TxPower, .ETxBfEnCond, .ITxBfEn, .MUTxRxEnable, .TWTSupport] ∨
      dat.Has k := by
  simp only [radioSettings, has_set, List.mem_cons, List.not_mem_nil, or_false]
  tauto

lemma has_countrySettings {conf : DeviceConfig} :
    (countrySettings conf dat).Has k ↔
      ((countryOf conf).isSome = true ∧ (k = .CountryCode ∨
        (conf.band = some "2g" ∧ k = .CountryRegion) ∨
        (conf.band ≠ some "2g" ∧ k = .CountryRegionABand))) ∨ dat.Has k := by
  rw [countrySettings]
  cases countryOf conf with
  | none => simp
  | some country =>
    simp only [has_ite, has_set, Option.isSome_some, true_and]
    tauto

lemma has_chipSettings {conf : DeviceConfig} :
    (chipSettings conf dat).Has k ↔
      (conf.dbdc_main = some true ∧ (k = .BeaconPeriod ∨ k = .WHNAT)) ∨ dat.Has k := by
  simp only [chipSettings, has_ite, has_set]
  tauto

lemma has_clientSettings {c : IfaceConfig} :
    (clientSettings c dat).Has k ↔
      k ∈ [.ApCliEnable, .ApCliSsid, .ApCliBssid, .ApCliWPAPSK] ∨
      (∃ enc_info ∈ encInfo c, k ∈ [.ApCliAuthMode, .ApCliEncrypType, .ApCliPMFMFPC,
        .ApCliPMFMFPR] ∨ (pmfRequired enc_info ∧ k = .ApCliPMFSHA256)) ∨ dat.Has k := by
  rw [clientSettings]
  cases encInfo c with
  | none =>
    simp only [has_set, List.mem_cons, List.not_mem_nil, or_false, Option.not_mem_none, false_and,
      exists_false, false_or]
    tauto
  | some enc_info =>
    simp only [has_set, has_ite, List.mem_cons, List.not_mem_nil, or_false, Option.mem_some_iff,
      exists_eq_left', pmfRequired]
    tauto

lemma has_apcliSettings {ifaces : List Iface} :
    (apcliSettings ifaces dat).Has k ↔
      k ∈ [.ApCliEnable, .ApCliSsid, .ApCliBssid, .ApCliAuthMode, .ApCliEncrypType,
        .ApCliWPAPSK] ∨
      (∃ enc_info ∈ (clientOf ifaces).bind encInfo, k = .ApCliPMFMFPC ∨ k = .ApCliPMFMFPR ∨
        (pmfRequired enc_info ∧ k = .ApCliPMFSHA256)) ∨ dat.Has k := by
  rw [apcliSettings, clientOf]
  cases ifaces.find? Iface.isSta with
  | none =>
    simp only [has_set, List.mem_cons, List.not_mem_nil, or_false, Option.map_none,
      Option.bind_none, Option.not_mem_none, false_and, exists_false, false_or]
    tauto
  | some iface =>
    simp only [has_clientSettings, has_set, List.mem_cons, List.not_mem_nil, or_false,
      Option.map_some, Option.bind_some]
    cases encInfo iface.config with
    | none =>
      simp only [Option.not_mem_none, false_and, exists_false, false_or]
      tauto
    | some enc_info =>
      simp only [Option.mem_some_iff, exists_eq_left']
      tauto

lemma mem_VIF_CFGS (key : VifKey) : ∃ kv ∈ VIF_CFGS, kv.1 = key := by
  cases key <;> decide

/-- The keys with a default for each of the BSSes that the driver can have. -/
def IndexedDefault (k : DatKey) : Prop :=
  (∃ i < MAX_MBSSID, k = .AccessPolicy i ∨ k = .AccessControlList i) ∨
    ∃ n, (1 ≤ n ∧ n ≤ MAX_MBSSID) ∧ (k = .WPAPSK n ∨ k = .SSID n ∨ k = .RADIUS_Key n)

lemma has_indexedDefaults : (indexedDefaults dat).Has k ↔ IndexedDefault k ∨ dat.Has k := by
  rw [indexedDefaults, IndexedDefault,
    has_foldl (fun i k => k = .WPAPSK i ∨ k = .SSID i ∨ k = .RADIUS_Key i) fun dat i => ?_,
    has_foldl (fun i k => k = .AccessPolicy i ∨ k = .AccessControlList i) fun dat i => ?_]
  · simp only [List.mem_range, List.mem_range'_1, or_assoc]
    constructor
    · rintro (⟨n, hn, hk⟩ | h | h)
      · exact Or.inr (Or.inl ⟨n, ⟨hn.1, by omega⟩, hk⟩)
      · exact Or.inl h
      · exact Or.inr (Or.inr h)
    · rintro (h | ⟨n, hn, hk⟩ | h)
      · exact Or.inr (Or.inl h)
      · exact Or.inl ⟨n, ⟨hn.1, by omega⟩, hk⟩
      · exact Or.inr (Or.inr h)
  · simp only [has_set]
    tauto
  · simp only [has_set]
    tauto

variable {siv : String → ℕ → String → String}

lemma has_vifDefaults {count : ℕ} :
    (vifDefaults siv count dat).Has k ↔
      (∃ key, k = .vif key) ∨ IndexedDefault k ∨ dat.Has k := by
  have hvif : (VIF_CFGS.foldl (fun dat kv => dat.set (.vif kv.1) (defaultStr siv count kv.2))
      dat).Has k ↔ (∃ kv ∈ VIF_CFGS, k = .vif kv.1) ∨ dat.Has k :=
    has_foldl (fun (kv : VifKey × String) k => k = .vif kv.1) (fun dat kv => has_set) dat _
  rw [vifDefaults, has_indexedDefaults, hvif]
  have hall : (∃ kv ∈ VIF_CFGS, k = .vif kv.1) ↔ ∃ key, k = .vif key := by
    constructor
    · rintro ⟨kv, -, hk⟩
      exact ⟨kv.1, hk⟩
    · rintro ⟨key, hk⟩
      obtain ⟨kv, hkv, rfl⟩ := mem_VIF_CFGS key
      exact ⟨kv, hkv, hk⟩
  rw [hall]
  exact or_left_comm

lemma has_set_suffix {key : ℕ → DatKey} {n : ℕ} {val : Option String} :
    (set_suffix key n val dat).Has k ↔ (val.isSome = true ∧ k = key n) ∨ dat.Has k := by
  cases val <;> simp [set_suffix]

lemma has_set_token {i : ℕ} {call : VifKey × Option String} :
    (set_token siv i dat call).Has k ↔
      (call.2.isSome = true ∧ k = .vif call.1) ∨ dat.Has k := by
  rw [set_token]
  cases call.2 <;> simp

/-- The keys that an AP writes. -/
def apWrites (wmode_int : ℕ) (iface : Iface) (k : DatKey) : Prop :=
  iface.isAp = true ∧
    ((∃ call ∈ tokenCalls wmode_int iface.config, call.2.isSome = true ∧ k = .vif call.1) ∨
    (iface.config.ssid.isSome = true ∧ k = .SSID (get_vif_idx iface.mtwifi_ifname + 1)) ∨
    (iface.config.key.isSome = true ∧ k = .WPAPSK (get_vif_idx iface.mtwifi_ifname + 1)) ∨
    k = .AccessPolicy (get_vif_idx iface.mtwifi_ifname) ∨
    ((accessControlList iface.config).isSome = true ∧
      k = .AccessControlList (get_vif_idx iface.mtwifi_ifname)))

lemma has_vifSettings {wmode_int : ℕ} {iface : Iface} :
    (vifSettings siv wmode_int dat iface).Has k ↔ apWrites wmode_int iface k ∨ dat.Has k := by
  rw [vifSettings, apWrites]
  cases iface.isAp with
  | false => simp
  | true =>
    have htokens : ∀ dat : Profile, ((tokenCalls wmode_int iface.config).foldl
        (set_token siv (get_vif_idx iface.mtwifi_ifname)) dat).Has k ↔
        (∃ call ∈ tokenCalls wmode_int iface.config, call.2.isSome = true ∧ k = .vif call.1) ∨
          dat.Has k :=
      fun dat => has_foldl (fun (call : VifKey × Option String) k =>
        call.2.isSome = true ∧ k = .vif call.1) (fun dat call => has_set_token) dat _
    generalize (∃ call ∈ tokenCalls wmode_int iface.config,
      call.2.isSome = true ∧ k = .vif call.1) = tokens at htokens ⊢
    cases accessControlList iface.config with
    | none =>
      simp only [if_true, has_set, htokens, has_set_suffix, Option.isSome_none, false_and,
        Bool.false_eq_true]
      tauto
    | some acl =>
      simp only [if_true, has_set, htokens, has_set_suffix, Option.isSome_some]
      tauto

/-! ## The keys that are left out -/

lemma or_lt_iff {a : Prop} {m i : ℕ} : (a ∨ i < m) ↔ (m ≤ i → a) := by
  rw [imp_iff_not_or, Nat.not_le, or_comm]

lemma or_le_iff {a : Prop} {m n : ℕ} (h : a → 1 ≤ n) :
    (a ∨ 1 ≤ n ∧ n ≤ m) ↔ 1 ≤ n ∧ (m < n → a) := by
  constructor
  · rintro (ha | ⟨hn, hm⟩)
    · exact ⟨h ha, fun _ => ha⟩
    · exact ⟨hn, fun hlt => absurd hlt (Nat.not_lt.mpr hm)⟩
  · rintro ⟨hn, ha⟩
    by_cases hm : n ≤ m
    · exact Or.inr ⟨hn, hm⟩
    · exact Or.inl (ha (Nat.lt_of_not_le hm))

lemma exists_suffix_iff {α : Type*} {ifaces : List Iface} {option : IfaceConfig → Option α} {n : ℕ} :
    (∃ iface ∈ ifaces, iface.isAp = true ∧ (option iface.config).isSome = true ∧
        n = get_vif_idx iface.mtwifi_ifname + 1) ↔
      1 ≤ n ∧ ∃ iface ∈ ifaces, iface.HasIdx (n - 1) ∧ ¬ option iface.config = none := by
  constructor
  · rintro ⟨iface, hmem, hap, hopt, hn⟩
    refine ⟨by omega, iface, hmem, ⟨hap, by omega⟩, ?_⟩
    rwa [← ne_eq, Option.ne_none_iff_isSome]
  · rintro ⟨hn, iface, hmem, ⟨hap, hidx⟩, hopt⟩
    refine ⟨iface, hmem, hap, ?_, by omega⟩
    rwa [← ne_eq, Option.ne_none_iff_isSome] at hopt

/-- `convert` writes the keys it knows, except those it leaves out. -/
lemma has_convert {c : UciCfg} : (convert siv c).Has k ↔ Known k ∧ ¬ LeftOut c k := by
  rw [convert, has_foldl (apWrites _) fun dat iface => has_vifSettings, has_vifDefaults,
    has_apcliSettings, has_chipSettings, has_countrySettings, has_radioSettings, has_set]
  have hnone : ¬ Profile.Has (fun _ => none) k := by simp [Has]
  cases k <;> simp [Known, LeftOut, apWrites, IndexedDefault, hnone]
  case CountryCode => rw [← ne_eq, Option.ne_none_iff_isSome]
  case CountryRegion => exact fun _ => by rw [← ne_eq, Option.ne_none_iff_isSome]
  case CountryRegionABand => exact fun _ => by rw [← ne_eq, Option.ne_none_iff_isSome]
  case ApCliPMFMFPC | ApCliPMFMFPR =>
    cases clientOf c.interfaces with
    | none => simp
    | some client =>
      cases h : encInfo client with
      | none => simp [h]
      | some enc_info => exact ⟨fun _ => ⟨client, rfl, by simp [h]⟩, fun _ => ⟨_, _, h⟩⟩
  case AccessPolicy i =>
    rw [or_lt_iff]
    simp only [Iface.HasIdx, eq_comm]
  case AccessControlList i =>
    rw [or_lt_iff]
    simp only [Iface.HasIdx, Option.isSome_iff_ne_none, and_assoc, ne_eq, @eq_comm _ i]
    tauto
  case WPAPSK n =>
    rw [exists_suffix_iff, or_le_iff And.left]
    tauto
  case SSID n =>
    rw [exists_suffix_iff, or_le_iff And.left]
    tauto

/-- A configuration lets `convert` write the key. -/
def Writable (siv : String → ℕ → String → String) (k : DatKey) : Prop := ∃ c, (convert siv c).Has k

lemma LeftOut.known {c : UciCfg} (h : LeftOut c k) : Known k := by
  cases k with
  | WPAPSK n => exact Nat.one_le_of_lt h.1
  | SSID n => exact Nat.one_le_of_lt h.1
  | RADIUS_Key n => exact h.elim
  | _ => trivial

/-- A configuration that sets as much as one can, with an AP of some index. -/
def fullCfg (band : String) (i : ℕ) : UciCfg where
  config := { band := some band, country := some "US", dbdc_main := some true }
  interfaces := [
    ⟨{ mode := some "sta", encryption := some "owe" }, none⟩,
    ⟨{ mode := some "ap", ssid := some "a", key := some "k", maclist := some ["m"] },
      some ("ra" ++ toString i)⟩]

lemma fullCfg_hasIdx (band : String) (i : ℕ) : ∃ iface ∈ (fullCfg band i).interfaces,
    iface.HasIdx i ∧ iface.config.ssid ≠ none ∧ iface.config.key ≠ none ∧
      accessControlList iface.config ≠ none := by
  refine ⟨_, List.mem_cons_of_mem _ (List.mem_singleton_self _), ⟨rfl, ?_⟩, by simp, by simp, ?_⟩
  · exact get_vif_idx_append i rfl
  · simp [accessControlList]

lemma fullCfg_country (band : String) (i : ℕ) : countryOf (fullCfg band i).config ≠ none := by
  have hcountry : countryOf (fullCfg band i).config = some "US" := rfl
  simp [hcountry]

lemma fullCfg_enc (band : String) (i : ℕ) :
    (clientOf (fullCfg band i).interfaces).bind encInfo = some ("OWE", "AES") := by
  rfl

/-- Every key that is known is written for some configuration. -/
lemma writable_iff : Writable siv k ↔ Known k := by
  constructor
  · rintro ⟨c, hc⟩
    exact (has_convert.mp hc).1
  · intro hk
    have hof : ∀ c, ¬ LeftOut c k → Writable siv k := fun c hc => ⟨c, has_convert.mpr ⟨hk, hc⟩⟩
    cases k with
    | CountryCode =>
      exact hof (fullCfg "2g" 0) fun h => absurd (h : countryOf _ = none) (fullCfg_country _ _)
    | CountryRegion =>
      exact hof (fullCfg "2g" 0) fun h => h.elim (fullCfg_country _ _) fun hband => hband rfl
    | CountryRegionABand =>
      exact hof (fullCfg "5g" 0) fun h => h.elim (fullCfg_country _ _) (by decide)
    | BeaconPeriod => exact hof (fullCfg "2g" 0) (fun h => h rfl)
    | WHNAT => exact hof (fullCfg "2g" 0) (fun h => h rfl)
    | ApCliPMFMFPC =>
      refine hof (fullCfg "2g" 0) fun h => ?_
      rw [LeftOut, fullCfg_enc] at h
      cases h
    | ApCliPMFMFPR =>
      refine hof (fullCfg "2g" 0) fun h => ?_
      rw [LeftOut, fullCfg_enc] at h
      cases h
    | ApCliPMFSHA256 =>
      refine hof (fullCfg "2g" 0) fun h => ?_
      rw [LeftOut, fullCfg_enc] at h
      exact h _ rfl (Or.inl rfl)
    | AccessPolicy i =>
      obtain ⟨iface, hmem, hidx, -⟩ := fullCfg_hasIdx "2g" i
      exact hof _ fun h => h.2 iface hmem hidx
    | AccessControlList i =>
      obtain ⟨iface, hmem, hidx, -, -, hacl⟩ := fullCfg_hasIdx "2g" i
      exact hof _ fun h => hacl (h.2 iface hmem hidx)
    | WPAPSK n =>
      obtain ⟨iface, hmem, hidx, -, hkey, -⟩ := fullCfg_hasIdx "2g" (n - 1)
      exact hof _ fun h => hkey (h.2 iface hmem hidx)
    | SSID n =>
      obtain ⟨iface, hmem, hidx, hssid, -⟩ := fullCfg_hasIdx "2g" (n - 1)
      exact hof _ fun h => hssid (h.2 iface hmem hidx)
    | _ => exact hof (fullCfg "2g" 0) id

/-! ## Two old profiles -/

/-- Both old profiles lead to one new profile, as far as `convert` writes profiles at all. -/
def NoResidue (siv : String → ℕ → String → String) (p1 p2 : Profile) (c : UciCfg) : Prop :=
  ∀ k, Writable siv k → merge p1 (convert siv c) k = merge p2 (convert siv c) k

lemma merge_of_has {p dat : Profile} (h : dat.Has k) : merge p dat k = dat k := by
  obtain ⟨val, hval⟩ := Option.isSome_iff_exists.mp h
  rw [merge, hval]
  rfl

lemma merge_of_not_has {p dat : Profile} (h : ¬ dat.Has k) : merge p dat k = p k := by
  rw [merge, Option.not_isSome_iff_eq_none.mp h]
  rfl

/-- Nothing is left of the old profiles exactly if they agree on the keys that the configuration
leaves out. -/
theorem residue_iff (siv : String → ℕ → String → String) (p1 p2 : Profile) (c : UciCfg) :
    NoResidue siv p1 p2 c ↔ ∀ k, LeftOut c k → p1 k = p2 k := by
  constructor
  · intro h k hk
    have hnot : ¬ (convert siv c).Has k := fun hhas => (has_convert.mp hhas).2 hk
    have hmerge := h k (writable_iff.mpr hk.known)
    rwa [merge_of_not_has hnot, merge_of_not_has hnot] at hmerge
  · intro h k hk
    by_cases hhas : (convert siv c).Has k
    · rw [merge_of_has hhas, merge_of_has hhas]
    · rw [merge_of_not_has hhas, merge_of_not_has hhas]
      refine h k ?_
      by_contra hleft
      exact hhas (has_convert.mpr ⟨writable_iff.mp hk, hleft⟩)

/-- The country of a configuration stays when the next one names no country. -/
theorem country_stays : ¬ ∀ (siv : String → ℕ → String → String) (p1 p2 : Profile) (c : UciCfg),
    NoResidue siv p1 p2 c := by
  intro h
  have hcountry := h (fun s _ _ => s) (Profile.set (fun _ => none) .CountryCode "US")
    (fun _ => none) ⟨{}, []⟩ .CountryCode (writable_iff.mpr trivial)
  have hnot : ¬ (convert (fun s _ _ => s) ⟨{}, []⟩).Has .CountryCode := fun hhas =>
    (has_convert.mp hhas).2 (rfl : countryOf _ = none)
  rw [merge_of_not_has hnot, merge_of_not_has hnot] at hcountry
  exact absurd hcountry (by decide)

end Mtwifi
