import Mt798x.Lib.Numbers
import Mt798x.Mtwifi.Slots

/-!
# Does setting up a radio again change anything?

`setup` compares what `convert` delivers with the profile there is, by `dat_diff`.  The profile
holds texts, while some values of `convert` are numbers, truth values or null, and the comparison is
the loose one of the language.
-/

namespace Mtwifi

/-! ## The values before they are written -/

/-- A value of `convert`. -/
inductive DatValue where
  | null
  | bool (b : Bool)
  | int (n : ℤ)
  | str (s : String)
  deriving DecidableEq

namespace DatValue

/-- What `ctx.merge` writes for a value. -/
def text : DatValue → String
  | null => ""
  | bool b => if b then "true" else "false"
  | int n => toString n
  | str s => s

/-- The number that a value is compared as. -/
def number : DatValue → Script.Number
  | null => .int 0
  | bool b => .int (if b then 1 else 0)
  | int n => .int n
  | str s => Script.readNumber s.toList

/-- `v != old`: null is equal to null only, texts are compared as such, and everything else by the
numbers. -/
def differs (v : DatValue) (old : Option String) : Bool :=
  match v, old with
  | null, none => false
  | null, some _ => true
  | _, none => true
  | str s, some t => s ≠ t
  | v, some t => !v.number.eq (Script.readNumber t.toList)

end DatValue

/-- The regions of the country that is set. -/
def regionsOf (conf : DeviceConfig) : Option (ℕ × ℕ) :=
  (countryOf conf).map fun country => (COUNTRY_REGIONS.lookup country).getD (1, 0)

/-- An option of the client that is null. -/
def nullOf (c : UciCfg) (option : IfaceConfig → Option String) : Option DatValue :=
  match clientOf c.interfaces with
  | some client => if option client = none then some .null else none
  | none => none

/-- The values of `convert` that are no texts, by their keys. -/
def rawValue (c : UciCfg) : DatKey → Option DatValue
  | .BssidNum => some (.int (bssidCount c.interfaces))
  | .Channel => if c.config.channel = none then some .null else none
  | .CountryRegion => (regionsOf c.config).map fun regions => .int regions.1
  | .CountryRegionABand => (regionsOf c.config).map fun regions => .int regions.2
  | .TxPower =>
    let txp := c.config.txpower.getD 0
    if txp ≠ 0 ∧ txp < 100 then some (.int txp) else none
  | .BeaconPeriod =>
    let beacon_int := c.config.beacon_int.getD 0
    if beacon_int ≠ 0 then some (.int beacon_int) else none
  | .WHNAT => if c.config.whnat = some true then some (.bool true) else none
  | .ApCliSsid => nullOf c IfaceConfig.ssid
  | .ApCliBssid => nullOf c IfaceConfig.bssid
  | .ApCliWPAPSK => nullOf c IfaceConfig.key
  | _ => none

section

variable (siv : String → ℕ → String → String) (c : UciCfg)

/-- The value of a key that `convert` delivers. -/
def datNew (key : DatKey) : Option DatValue :=
  (convert siv c key).map fun text => (rawValue c key).getD (.str text)

/-! ## The comparison and the set-up -/

/-- The keys of `defs.REINSTALL_CFGS` that `convert` knows. -/
def REINSTALL_CFGS : List DatKey := [.BssidNum, .WHNAT, .vif .WdsEnable]

structure Diff where
  is_changed : Bool
  need_reload : Bool
  deriving DecidableEq

/-- `dat_diff`: the loop over the new values ends where the driver has to be reloaded. -/
def dat_diff (dat_old : Profile) : List (DatKey × DatValue) → Diff
  | [] => ⟨false, false⟩
  | (k, v) :: rest =>
    if v.differs (dat_old k) then
      if k ∈ REINSTALL_CFGS then ⟨true, true⟩
      else { dat_diff dat_old rest with is_changed := true }
    else dat_diff dat_old rest

/-- What a set-up does: the comparison, the profile it leaves, the devices whose interfaces are taken
down, and whether the driver is reloaded. -/
structure SetupRun where
  diff_res : Diff
  profile : Profile
  down_devnames : List String
  reload : Bool

/-- `setup` of a device with siblings, where the new values come in some order. -/
def setup (dat_new : List (DatKey × DatValue)) (cur_devname : String) (is_dbdc : Bool)
    (sib_devnames : List String) (dat_old : Profile) : SetupRun :=
  let diff_res := dat_diff dat_old dat_new
  { diff_res := diff_res
    profile := merge dat_old fun key => (dat_new.lookup key).map DatValue.text
    down_devnames :=
      cur_devname :: if is_dbdc && diff_res.is_changed then sib_devnames else []
    reload := diff_res.need_reload }

/-- The new values in some order. -/
structure Enumerates (dat_new : List (DatKey × DatValue)) : Prop where
  nodup : (dat_new.map Prod.fst).Nodup
  mem : ∀ k v, (k, v) ∈ dat_new ↔ datNew siv c k = some v

/-- The integers are those of the language, of 64 bits. -/
structure Machine : Prop where
  bssid_count : bssidCount c.interfaces ≤ Script.maxUnsigned
  txpower : ∀ n ∈ c.config.txpower, -2 ^ 63 ≤ n
  beacon_int : ∀ n ∈ c.config.beacon_int, -2 ^ 63 ≤ n ∧ n ≤ Script.maxUnsigned

end

/-- The texts of a value and of an old profile differ. -/
def TextDiffers (dat_new : List (DatKey × DatValue)) (dat_old : Profile) (k : DatKey) : Prop :=
  ∃ v, (k, v) ∈ dat_new ∧ dat_old k ≠ some v.text

/-- A second set-up changes nothing, and the driver is reloaded for a value whose text has
changed. -/
structure Idempotent (dat_new : List (DatKey × DatValue)) (cur_devname : String) (is_dbdc : Bool)
    (sib_devnames : List String) (dat_old : Profile) : Prop where
  again : ∀ run, run = setup dat_new cur_devname is_dbdc sib_devnames
      (setup dat_new cur_devname is_dbdc sib_devnames dat_old).profile →
    run.diff_res = ⟨false, false⟩ ∧ run.down_devnames = [cur_devname] ∧ run.reload = false
  need_reload : (dat_diff dat_old dat_new).need_reload = true ↔
    ∃ k ∈ REINSTALL_CFGS, TextDiffers dat_new dat_old k

/-- The values whose text is compared right: the channel is set, the client has a name, an address
and a key, and `whnat` is not written as a truth value. -/
structure Texts (c : UciCfg) : Prop where
  channel : c.config.channel ≠ none
  client : ∀ client ∈ clientOf c.interfaces,
    client.ssid ≠ none ∧ client.bssid ≠ none ∧ client.key ≠ none
  whnat : ¬ (c.config.dbdc_main = some true ∧ c.config.whnat = some true)

/-! ## The comparison -/

variable {siv : String → ℕ → String → String} {c : UciCfg} {k : DatKey} {v : DatValue}
  {dat_new : List (DatKey × DatValue)} {dat_old : Profile}

lemma is_changed_iff : (dat_diff dat_old dat_new).is_changed = true ↔
    ∃ e ∈ dat_new, e.2.differs (dat_old e.1) = true := by
  induction dat_new with
  | nil => simp [dat_diff]
  | cons e rest ih =>
    rw [dat_diff, List.exists_mem_cons_iff]
    split
    · rename_i hdiffers
      refine iff_of_true ?_ (.inl hdiffers)
      split <;> rfl
    · rename_i hsame
      rw [ih]
      exact (or_iff_right hsame).symm

lemma need_reload_iff : (dat_diff dat_old dat_new).need_reload = true ↔
    ∃ e ∈ dat_new, e.1 ∈ REINSTALL_CFGS ∧ e.2.differs (dat_old e.1) = true := by
  induction dat_new with
  | nil => simp [dat_diff]
  | cons e rest ih =>
    rw [dat_diff, List.exists_mem_cons_iff]
    split
    · rename_i hdiffers
      split
      · rename_i hkey
        exact iff_of_true rfl (.inl ⟨hkey, hdiffers⟩)
      · rename_i hkey
        rw [ih]
        exact (or_iff_right fun h => hkey h.1).symm
    · rename_i hsame
      rw [ih]
      exact (or_iff_right fun h => hsame h.2).symm

lemma dat_diff_eq_iff : dat_diff dat_old dat_new = ⟨false, false⟩ ↔
    ∀ e ∈ dat_new, e.2.differs (dat_old e.1) = false := by
  constructor
  · intro h e he
    by_contra hdiffers
    have hchanged := is_changed_iff.mpr ⟨e, he, Bool.eq_true_of_not_eq_false hdiffers⟩
    rw [h] at hchanged
    cases hchanged
  · intro h
    have hchanged : (dat_diff dat_old dat_new).is_changed = false := by
      refine Bool.eq_false_of_not_eq_true fun hc => ?_
      obtain ⟨e, he, hdiffers⟩ := is_changed_iff.mp hc
      rw [h e he] at hdiffers
      cases hdiffers
    have hreload : (dat_diff dat_old dat_new).need_reload = false := by
      refine Bool.eq_false_of_not_eq_true fun hc => ?_
      obtain ⟨e, he, -, hdiffers⟩ := need_reload_iff.mp hc
      rw [h e he] at hdiffers
      cases hdiffers
    calc dat_diff dat_old dat_new
        = ⟨(dat_diff dat_old dat_new).is_changed, (dat_diff dat_old dat_new).need_reload⟩ := rfl
      _ = ⟨false, false⟩ := by rw [hchanged, hreload]

namespace DatValue

/-- An integer of 64 bits, or a text. -/
def Plain : DatValue → Prop
  | int n => -2 ^ 63 ≤ n ∧ n ≤ Script.maxUnsigned
  | str _ => True
  | _ => False

lemma differs_str {s : String} {old : Option String} :
    (str s).differs old = true ↔ old ≠ some s := by
  cases old with
  | none => simp [differs]
  | some t => simp [differs, ne_comm]

lemma plain_iff (hint : ∀ n, v = int n → -2 ^ 63 ≤ n ∧ n ≤ Script.maxUnsigned) :
    v.differs (some v.text) = false ↔ v.Plain := by
  cases v with
  | null => exact iff_of_false (by simp [differs]) id
  | bool b => exact iff_of_false (by cases b <;> decide +kernel) id
  | int n =>
    obtain ⟨hmin, hmax⟩ := hint n rfl
    refine iff_of_true ?_ ⟨hmin, hmax⟩
    show (!(int n).number.eq (Script.readNumber (toString n).toList)) = false
    rw [Script.readNumber_toString hmin hmax, number, Script.Number.eq_self]
    rfl
  | str s => exact iff_of_true (by simp [differs, text]) trivial

end DatValue

/-! ## The values of the conversion -/

section

variable {conf : DeviceConfig} {ifaces : List Iface}

/-- The keys of the client. -/
def clientKeys : List DatKey := [
  .ApCliEnable, .ApCliSsid, .ApCliBssid, .ApCliAuthMode, .ApCliEncrypType, .ApCliWPAPSK,
  .ApCliPMFMFPC, .ApCliPMFMFPR, .ApCliPMFSHA256]

lemma apcliSettings_of_not {dat : Profile} (hk : k ∉ clientKeys) :
    apcliSettings ifaces dat k = dat k := by
  simp only [clientKeys, List.mem_cons, List.not_mem_nil, or_false, not_or] at hk
  obtain ⟨h1, h2, h3, h4, h5, h6, h7, h8, h9⟩ := hk
  have hclient : ∀ (client : IfaceConfig) (dat : Profile),
      clientSettings client dat k = dat k := by
    intro client dat
    rw [clientSettings]
    cases encInfo client with
    | none => simp [*]
    | some enc_info =>
      simp only
      split <;> simp [*]
  rw [apcliSettings]
  cases ifaces.find? Iface.isSta with
  | none => simp [*]
  | some iface => simp [*]

/-- The keys of the radio with values that may be no texts. -/
def radioKeys : List DatKey := [
  .BssidNum, .Channel, .CountryRegion, .CountryRegionABand, .TxPower, .BeaconPeriod, .WHNAT]

lemma convert_radioKey (k : DatKey) (hk : k ∈ radioKeys) :
    convert siv ⟨conf, ifaces⟩ k = chipSettings conf (countrySettings conf (radioSettings conf
      (hasApcli ifaces) (Profile.set (fun _ => none) .BssidNum (toString (bssidCount ifaces))))) k := by
  have hglobal : Global k := by
    simp only [radioKeys, List.mem_cons, List.not_mem_nil, or_false] at hk
    rcases hk with rfl | rfl | rfl | rfl | rfl | rfl | rfl <;> trivial
  have hindexed : ¬ IndexedDefault k := by
    simp only [radioKeys, List.mem_cons, List.not_mem_nil, or_false] at hk
    rcases hk with rfl | rfl | rfl | rfl | rfl | rfl | rfl <;> simp [IndexedDefault]
  have hclient : ∀ x ∈ radioKeys, x ∉ clientKeys := by decide
  have hvif : ∀ key, k ≠ .vif key := by
    rintro key rfl
    exact hglobal
  rw [convert_global hglobal, vifDefaults, indexedDefaults_of_not _ hindexed,
    (vifLoop_spec _ _ _).2 fun kv _ => hvif kv.1, radioProfile, apcliSettings_of_not (hclient k hk)]

/-- What the keys of the radio hold. -/
lemma convert_radio (siv : String → ℕ → String → String) (conf : DeviceConfig)
    (ifaces : List Iface) :
    convert siv ⟨conf, ifaces⟩ .BssidNum = some (toString (bssidCount ifaces)) ∧
      convert siv ⟨conf, ifaces⟩ .Channel =
        some (if conf.channel = some "auto" then "0" else cstr conf.channel) ∧
      convert siv ⟨conf, ifaces⟩ .TxPower =
        some (if conf.txpower.getD 0 ≠ 0 ∧ conf.txpower.getD 0 < 100 then
          toString (conf.txpower.getD 0) else "100") ∧
      convert siv ⟨conf, ifaces⟩ .CountryRegion =
        (if conf.band = some "2g" then (regionsOf conf).map (toString ·.1) else none) ∧
      convert siv ⟨conf, ifaces⟩ .CountryRegionABand =
        (if conf.band = some "2g" then none else (regionsOf conf).map (toString ·.2)) ∧
      convert siv ⟨conf, ifaces⟩ .BeaconPeriod = (if conf.dbdc_main = some true then
        some (if conf.beacon_int.getD 0 ≠ 0 then toString (conf.beacon_int.getD 0) else "100")
        else none) ∧
      convert siv ⟨conf, ifaces⟩ .WHNAT = (if conf.dbdc_main = some true then
        some (if conf.whnat = some true then "true" else "1") else none) := by
  have hcountry : ∀ dat : Profile, ∀ k ≠ .CountryCode, k ≠ .CountryRegion →
      k ≠ .CountryRegionABand → countrySettings conf dat k = dat k := by
    intro dat k h1 h2 h3
    rw [countrySettings]
    cases countryOf conf with
    | none => rfl
    | some country =>
      simp only
      split <;> simp [*]
  have hchip : ∀ dat : Profile, ∀ k ≠ .BeaconPeriod, k ≠ .WHNAT →
      chipSettings conf dat k = dat k := by
    intro dat k h1 h2
    rw [chipSettings]
    split <;> simp [*]
  refine ⟨?_, ?_, ?_, ?_, ?_, ?_, ?_⟩
  · rw [convert_radioKey .BssidNum (by decide), hchip _ .BssidNum (by decide) (by decide),
      hcountry _ .BssidNum (by decide) (by decide) (by decide)]
    simp [radioSettings]
  · rw [convert_radioKey .Channel (by decide), hchip _ .Channel (by decide) (by decide),
      hcountry _ .Channel (by decide) (by decide) (by decide)]
    simp [radioSettings]
  · rw [convert_radioKey .TxPower (by decide), hchip _ .TxPower (by decide) (by decide),
      hcountry _ .TxPower (by decide) (by decide) (by decide)]
    simp [radioSettings]
  · rw [convert_radioKey .CountryRegion (by decide), hchip _ .CountryRegion (by decide) (by decide),
      countrySettings, regionsOf]
    cases countryOf conf with
    | none => simp [radioSettings]
    | some country => by_cases hband : conf.band = some "2g" <;> simp [hband, radioSettings]
  · rw [convert_radioKey .CountryRegionABand (by decide), hchip _ .CountryRegionABand (by decide) (by decide),
      countrySettings, regionsOf]
    cases countryOf conf with
    | none => simp [radioSettings]
    | some country => by_cases hband : conf.band = some "2g" <;> simp [hband, radioSettings]
  · rw [convert_radioKey .BeaconPeriod (by decide), chipSettings]
    split
    · simp
    · rw [hcountry _ .BeaconPeriod (by decide) (by decide) (by decide)]
      simp [radioSettings]
  · rw [convert_radioKey .WHNAT (by decide), chipSettings]
    split
    · simp
    · rw [hcountry _ .WHNAT (by decide) (by decide) (by decide)]
      simp [radioSettings]

end

lemma nullOf_eq_some {option : IfaceConfig → Option String} :
    nullOf c option = some v ↔ v = .null ∧ ∃ client ∈ clientOf c.interfaces, option client = none := by
  rw [nullOf]
  cases clientOf c.interfaces with
  | none => simp
  | some client => simp [eq_comm, and_comm]

lemma datNew_eq_some : datNew siv c k = some v ↔
    ∃ text, convert siv c k = some text ∧ (rawValue c k).getD (.str text) = v :=
  Option.map_eq_some_iff

lemma regions_le {conf : DeviceConfig} {regions : ℕ × ℕ} (h : regionsOf conf = some regions) :
    regions.1 ≤ 13 ∧ regions.2 ≤ 13 := by
  have htable : ∀ e ∈ COUNTRY_REGIONS, e.2.1 ≤ 13 ∧ e.2.2 ≤ 13 := by decide
  obtain ⟨country, -, rfl⟩ := Option.map_eq_some_iff.mp h
  cases hlookup : COUNTRY_REGIONS.lookup country with
  | none => decide
  | some regions =>
    obtain ⟨l, m, hsplit, -⟩ := List.lookup_eq_some_iff.mp hlookup
    exact htable (country, regions) (by rw [hsplit]; simp)

/-- The integers of the conversion are of 64 bits. -/
lemma datNew_int (hmachine : Machine c) {n : ℤ} (h : datNew siv c k = some (.int n)) :
    -2 ^ 63 ≤ n ∧ n ≤ Script.maxUnsigned := by
  have hmax : (Script.maxUnsigned : ℤ) = 2 ^ 64 - 1 := by decide
  obtain ⟨text, -, hvalue⟩ := datNew_eq_some.mp h
  cases hraw : rawValue c k with
  | none => rw [hraw] at hvalue; cases hvalue
  | some v =>
    rw [hraw, Option.getD_some] at hvalue
    subst hvalue
    cases k with
    | BssidNum =>
      cases hraw
      have hcount := hmachine.bssid_count
      omega
    | CountryRegion =>
      obtain ⟨regions, hregions, heq⟩ := Option.map_eq_some_iff.mp hraw
      have hsmall := regions_le hregions
      cases heq
      omega
    | CountryRegionABand =>
      obtain ⟨regions, hregions, heq⟩ := Option.map_eq_some_iff.mp hraw
      have hsmall := regions_le hregions
      cases heq
      omega
    | TxPower =>
      simp only [rawValue] at hraw
      split at hraw
      · rename_i htxp
        cases hraw
        cases htx : c.config.txpower with
        | none => rw [htx] at htxp; exact absurd rfl htxp.1
        | some txp =>
          have hlow := hmachine.txpower txp htx
          rw [htx, Option.getD_some] at htxp
          rw [Option.getD_some]
          omega
      · cases hraw
    | BeaconPeriod =>
      simp only [rawValue] at hraw
      split at hraw
      · rename_i hint
        cases hraw
        cases hbeacon : c.config.beacon_int with
        | none => rw [hbeacon] at hint; exact absurd rfl hint
        | some beacon => exact hmachine.beacon_int beacon hbeacon
      · cases hraw
    | Channel | WHNAT =>
      simp only [rawValue] at hraw
      split at hraw <;> cases hraw
    | ApCliSsid | ApCliBssid | ApCliWPAPSK => cases (nullOf_eq_some.mp hraw).1
    | _ => cases hraw

lemma nullValue (h : rawValue c k = some .null) : c.config.channel = none ∨
    ∃ client ∈ clientOf c.interfaces, client.ssid = none ∨ client.bssid = none ∨
      client.key = none := by
  cases k with
  | Channel =>
    simp only [rawValue] at h
    split at h
    · rename_i hnone
      exact .inl hnone
    · cases h
  | ApCliSsid =>
    obtain ⟨-, client, hclient, hnone⟩ := nullOf_eq_some.mp h
    exact .inr ⟨client, hclient, .inl hnone⟩
  | ApCliBssid =>
    obtain ⟨-, client, hclient, hnone⟩ := nullOf_eq_some.mp h
    exact .inr ⟨client, hclient, .inr (.inl hnone)⟩
  | ApCliWPAPSK =>
    obtain ⟨-, client, hclient, hnone⟩ := nullOf_eq_some.mp h
    exact .inr ⟨client, hclient, .inr (.inr hnone)⟩
  | TxPower | BeaconPeriod | WHNAT =>
    simp only [rawValue] at h
    split at h <;> cases h
  | CountryRegion | CountryRegionABand =>
    obtain ⟨regions, -, heq⟩ := Option.map_eq_some_iff.mp h
    cases heq
  | _ => cases h

lemma boolValue {b : Bool} (h : rawValue c k = some (.bool b)) :
    k = .WHNAT ∧ c.config.whnat = some true := by
  cases k with
  | WHNAT =>
    simp only [rawValue] at h
    split at h
    · rename_i hon
      exact ⟨rfl, hon⟩
    · cases h
  | TxPower | BeaconPeriod | Channel =>
    simp only [rawValue] at h
    split at h <;> cases h
  | CountryRegion | CountryRegionABand =>
    obtain ⟨regions, -, heq⟩ := Option.map_eq_some_iff.mp h
    cases heq
  | ApCliSsid | ApCliBssid | ApCliWPAPSK => cases (nullOf_eq_some.mp h).1
  | _ => cases h

/-- All values are plain if and only if no option that is written as it is is missing, and none is a
truth value. -/
lemma plain_iff_texts (siv : String → ℕ → String → String) (hmachine : Machine c) :
    (∀ k v, datNew siv c k = some v → v.Plain) ↔ Texts c := by
  obtain ⟨conf, ifaces⟩ := c
  obtain ⟨hnum, hchannel, htx, hregion, haband, hbeacon, hwhnat⟩ := convert_radio siv conf ifaces
  constructor
  · intro h
    constructor
    case channel =>
      intro hnone
      refine h .Channel .null (datNew_eq_some.mpr ⟨_, hchannel, ?_⟩)
      simp only [rawValue, if_pos hnone, Option.getD_some]
    case client =>
      intro client hclient
      obtain ⟨iface, hfind, rfl⟩ := Option.map_eq_some_iff.mp hclient
      obtain ⟨-, hssid, hbssid, hkey, -⟩ := @convert_client siv conf ifaces iface hfind
      refine ⟨fun hnone => ?_, fun hnone => ?_, fun hnone => ?_⟩
      · refine h .ApCliSsid .null (datNew_eq_some.mpr ⟨_, hssid, ?_⟩)
        rw [rawValue, nullOf_eq_some.mpr ⟨rfl, _, hclient, hnone⟩, Option.getD_some]
      · refine h .ApCliBssid .null (datNew_eq_some.mpr ⟨_, hbssid, ?_⟩)
        rw [rawValue, nullOf_eq_some.mpr ⟨rfl, _, hclient, hnone⟩, Option.getD_some]
      · refine h .ApCliWPAPSK .null (datNew_eq_some.mpr ⟨_, hkey, ?_⟩)
        rw [rawValue, nullOf_eq_some.mpr ⟨rfl, _, hclient, hnone⟩, Option.getD_some]
    case whnat =>
      rintro ⟨hmain, hon⟩
      rw [if_pos hmain] at hwhnat
      refine h .WHNAT (.bool true) (datNew_eq_some.mpr ⟨_, hwhnat, ?_⟩)
      simp only [rawValue, if_pos hon, Option.getD_some]
  · intro h k v hv
    cases v with
    | int n => exact datNew_int hmachine hv
    | str s => exact trivial
    | null =>
      obtain ⟨text, htext, hvalue⟩ := datNew_eq_some.mp hv
      have hraw : rawValue ⟨conf, ifaces⟩ k = some .null := by
        cases hraw : rawValue ⟨conf, ifaces⟩ k with
        | none => rw [hraw] at hvalue; cases hvalue
        | some v => rw [hraw] at hvalue; cases hvalue; rfl
      rcases nullValue hraw with hnone | ⟨client, hclient, hnone⟩
      · exact h.channel hnone
      · have hset := h.client client hclient
        tauto
    | bool b =>
      obtain ⟨text, htext, hvalue⟩ := datNew_eq_some.mp hv
      have hraw : rawValue ⟨conf, ifaces⟩ k = some (.bool b) := by
        cases hraw : rawValue ⟨conf, ifaces⟩ k with
        | none => rw [hraw] at hvalue; cases hvalue
        | some v => rw [hraw] at hvalue; cases hvalue; rfl
      obtain ⟨rfl, hon⟩ := boolValue hraw
      rw [hwhnat] at htext
      split at htext
      · rename_i hmain
        exact h.whnat ⟨hmain, hon⟩
      · cases htext

/-! ## The result -/

/-- Where the number of BSSs is compared as its text is. -/
def CountSafe (c : UciCfg) (dat_new : List (DatKey × DatValue)) (dat_old : Profile) : Prop :=
  ∀ s, dat_old .BssidNum = some s → s ≠ toString (bssidCount c.interfaces) →
    (Script.Number.int (bssidCount c.interfaces)).eq (Script.readNumber s.toList) = true →
    ∃ k ∈ [DatKey.WHNAT, .vif .WdsEnable], TextDiffers dat_new dat_old k

lemma lookup_value (hnodup : (dat_new.map Prod.fst).Nodup) (h : (k, v) ∈ dat_new) :
    dat_new.lookup k = some v := by
  induction dat_new with
  | nil => cases h
  | cons e rest ih =>
    rw [List.map_cons, List.nodup_cons] at hnodup
    rcases List.mem_cons.mp h with rfl | h
    · exact List.lookup_cons_self
    · have hne : (k == e.1) = false := by
        simpa using fun hk : k = e.1 => hnodup.1 (hk ▸ List.mem_map_of_mem h)
      rw [List.lookup_cons, hne]
      exact ih hnodup.2 h

lemma profile_setup {cur_devname : String} {is_dbdc : Bool} {sib_devnames : List String}
    (hnodup : (dat_new.map Prod.fst).Nodup) (h : (k, v) ∈ dat_new) :
    (setup dat_new cur_devname is_dbdc sib_devnames dat_old).profile k = some v.text := by
  show ((dat_new.lookup k).map DatValue.text).or (dat_old k) = some v.text
  rw [lookup_value hnodup h]
  rfl

lemma again_iff {cur_devname : String} {is_dbdc : Bool} {sib_devnames : List String}
    (hmachine : Machine c) (henum : Enumerates siv c dat_new) :
    dat_diff (setup dat_new cur_devname is_dbdc sib_devnames dat_old).profile dat_new =
      ⟨false, false⟩ ↔ Texts c := by
  rw [dat_diff_eq_iff, ← plain_iff_texts siv hmachine]
  constructor
  · intro h k v hv
    have hmem := (henum.mem k v).mpr hv
    have hsame := h (k, v) hmem
    rw [profile_setup henum.nodup hmem] at hsame
    exact (DatValue.plain_iff (v := v) fun n hn => datNew_int hmachine (hn ▸ hv)).mp hsame
  · rintro h ⟨k, v⟩ hmem
    have hv := (henum.mem k v).mp hmem
    rw [profile_setup henum.nodup hmem]
    exact (DatValue.plain_iff (v := v) fun n hn => datNew_int hmachine (hn ▸ hv)).mpr (h k v hv)

lemma differs_iff_text (henum : Enumerates siv c dat_new)
    (hstr : ∀ v, datNew siv c k = some v → ∃ s, v = .str s) :
    (∃ v, (k, v) ∈ dat_new ∧ v.differs (dat_old k) = true) ↔ TextDiffers dat_new dat_old k := by
  refine exists_congr fun v => and_congr_right fun hmem => ?_
  obtain ⟨s, rfl⟩ := hstr v ((henum.mem k v).mp hmem)
  exact DatValue.differs_str

/-- The driver is reloaded for the texts that change if and only if the number of BSSs is compared
right. -/
lemma need_reload_text_iff (hmachine : Machine c) (henum : Enumerates siv c dat_new)
    (htexts : Texts c) :
    ((dat_diff dat_old dat_new).need_reload = true ↔
      ∃ k ∈ REINSTALL_CFGS, TextDiffers dat_new dat_old k) ↔ CountSafe c dat_new dat_old := by
  have hplain := (plain_iff_texts siv hmachine).mpr htexts
  have hcount : datNew siv c .BssidNum = some (.int (bssidCount c.interfaces)) :=
    datNew_eq_some.mpr ⟨_, (convert_radio siv c.config c.interfaces).1, rfl⟩
  have hmem := (henum.mem _ _).mpr hcount
  have honly : ∀ v, (DatKey.BssidNum, v) ∈ dat_new → v = .int (bssidCount c.interfaces) := fun v hv =>
    Option.some.inj (((henum.mem _ _).mp hv).symm.trans hcount)
  -- the other two keys hold texts
  have hwhnat : ∀ v, datNew siv c .WHNAT = some v → ∃ s, v = .str s := by
    intro v hv
    obtain ⟨text, -, hvalue⟩ := datNew_eq_some.mp hv
    have hv' := hplain _ _ hv
    simp only [rawValue] at hvalue
    split at hvalue
    · rw [← hvalue] at hv'
      exact hv'.elim
    · exact ⟨text, hvalue.symm⟩
  have hwds : ∀ v, datNew siv c (.vif .WdsEnable) = some v → ∃ s, v = .str s := by
    intro v hv
    obtain ⟨text, -, hvalue⟩ := datNew_eq_some.mp hv
    exact ⟨text, hvalue.symm⟩
  have hreload : (dat_diff dat_old dat_new).need_reload = true ↔
      (DatValue.int (bssidCount c.interfaces)).differs (dat_old .BssidNum) = true ∨
        TextDiffers dat_new dat_old .WHNAT ∨ TextDiffers dat_new dat_old (.vif .WdsEnable) := by
    rw [need_reload_iff, ← differs_iff_text henum hwhnat, ← differs_iff_text henum hwds]
    constructor
    · rintro ⟨⟨k, v⟩, hkv, hkey, hdiffers⟩
      simp only [REINSTALL_CFGS, List.mem_cons, List.not_mem_nil, or_false] at hkey
      rcases hkey with rfl | rfl | rfl
      · exact .inl (honly v hkv ▸ hdiffers)
      · exact .inr (.inl ⟨v, hkv, hdiffers⟩)
      · exact .inr (.inr ⟨v, hkv, hdiffers⟩)
    · rintro (hdiffers | ⟨v, hkv, hdiffers⟩ | ⟨v, hkv, hdiffers⟩)
      · exact ⟨_, hmem, by simp [REINSTALL_CFGS], hdiffers⟩
      · exact ⟨_, hkv, by simp [REINSTALL_CFGS], hdiffers⟩
      · exact ⟨_, hkv, by simp [REINSTALL_CFGS], hdiffers⟩
  have htext : (∃ k ∈ REINSTALL_CFGS, TextDiffers dat_new dat_old k) ↔
      dat_old .BssidNum ≠ some (toString (bssidCount c.interfaces)) ∨
        TextDiffers dat_new dat_old .WHNAT ∨ TextDiffers dat_new dat_old (.vif .WdsEnable) := by
    have hbssid : TextDiffers dat_new dat_old .BssidNum ↔
        dat_old .BssidNum ≠ some (toString (bssidCount c.interfaces)) := by
      constructor
      · rintro ⟨v, hv, hne⟩
        rw [honly v hv] at hne
        exact hne
      · exact fun hne => ⟨_, hmem, hne⟩
    simp only [REINSTALL_CFGS, List.mem_cons, List.not_mem_nil, or_false, exists_eq_or_imp,
      exists_eq_left, hbssid]
  rw [hreload, htext, CountSafe]
  simp only [List.mem_cons, List.not_mem_nil, or_false, exists_eq_or_imp, exists_eq_left]
  have hint := datNew_int hmachine hcount
  constructor
  · intro h s hs hne heq
    have hor := h.mpr (.inl fun hc => hne (Option.some.inj (hs.symm.trans hc)))
    refine hor.resolve_left fun hdiffers => ?_
    rw [hs, DatValue.differs] at hdiffers
    · rw [DatValue.number, heq] at hdiffers
      cases hdiffers
    all_goals exact nofun
  · intro h
    constructor
    · refine Or.imp_left fun hdiffers hold => ?_
      have hsame : (DatValue.int (bssidCount c.interfaces)).differs
          (some (DatValue.int (bssidCount c.interfaces)).text) = false :=
        (DatValue.plain_iff fun n hn => by cases hn; exact hint).mpr hint
      rw [hold] at hdiffers
      exact absurd (hdiffers.symm.trans hsame) nofun
    · rintro (hne | hor)
      · cases hold : dat_old .BssidNum with
        | none => exact .inl rfl
        | some s =>
          rw [hold] at hne
          by_cases heq : (Script.Number.int (bssidCount c.interfaces)).eq
              (Script.readNumber s.toList) = true
          · exact .inr (h s hold (fun hs => hne (by rw [hs])) heq)
          · refine .inl ?_
            show (!(DatValue.int (bssidCount c.interfaces)).number.eq
              (Script.readNumber s.toList)) = true
            rw [Bool.not_eq_true']
            exact Bool.eq_false_of_not_eq_true heq
      · exact .inr hor

lemma Idempotent.texts {cur_devname : String} {is_dbdc : Bool} {sib_devnames : List String}
    (h : Idempotent dat_new cur_devname is_dbdc sib_devnames dat_old) (hmachine : Machine c)
    (henum : Enumerates siv c dat_new) : Texts c :=
  (again_iff hmachine henum).mp (h.again _ rfl).1

/-- Setting up a radio again changes nothing, and the driver is reloaded for changed texts, if and
only if all values are compared as their texts are. -/
theorem idempotent_iff (cur_devname : String) (is_dbdc : Bool) (sib_devnames : List String)
    (hmachine : Machine c) (henum : Enumerates siv c dat_new) :
    Idempotent dat_new cur_devname is_dbdc sib_devnames dat_old ↔
      Texts c ∧ CountSafe c dat_new dat_old := by
  constructor
  · intro h
    have htexts := h.texts hmachine henum
    exact ⟨htexts, (need_reload_text_iff hmachine henum htexts).mp h.need_reload⟩
  · rintro ⟨htexts, hsafe⟩
    refine ⟨?_, (need_reload_text_iff hmachine henum htexts).mpr hsafe⟩
    rintro _ rfl
    have hdiff : (setup dat_new cur_devname is_dbdc sib_devnames
        (setup dat_new cur_devname is_dbdc sib_devnames dat_old).profile).diff_res =
          ⟨false, false⟩ := (again_iff hmachine henum).mpr htexts
    refine ⟨hdiff, ?_, congrArg Diff.need_reload hdiff⟩
    have hchanged := congrArg Diff.is_changed hdiff
    calc (setup dat_new cur_devname is_dbdc sib_devnames
          (setup dat_new cur_devname is_dbdc sib_devnames dat_old).profile).down_devnames
        = cur_devname :: if is_dbdc && (setup dat_new cur_devname is_dbdc sib_devnames
            (setup dat_new cur_devname is_dbdc sib_devnames dat_old).profile).diff_res.is_changed
          then sib_devnames else [] := rfl
      _ = [cur_devname] := by rw [hchanged, Bool.and_false]; rfl

/-! ## The values of a configuration -/

/-- The keys that `convert` knows, for the access points that a driver can have. -/
def allKeys : List DatKey :=
  radioKeys ++ clientKeys ++ [.HT_BW, .VHT_BW, .HT_BSSCoexistence, .AutoChannelSelect, .CountryCode,
    .PERCENTAGEenable, .ETxBfEnCond, .ITxBfEn, .MUTxRxEnable, .TWTSupport] ++
  VIF_CFGS.map (.vif ·.1) ++ (List.range MAX_MBSSID).flatMap fun i =>
    [.AccessPolicy i, .AccessControlList i, .WPAPSK (i + 1), .SSID (i + 1), .RADIUS_Key (i + 1)]

/-- The new values, in the order of those keys. -/
def datEntries (siv : String → ℕ → String → String) (c : UciCfg) : List (DatKey × DatValue) :=
  allKeys.filterMap fun k => (datNew siv c k).map (k, ·)

/-- The keys that are written are among them, if the driver can have the access points. -/
lemma mem_allKeys (siv : String → ℕ → String → String)
    (hidx : ∀ iface ∈ c.interfaces, get_vif_idx iface.mtwifi_ifname < MAX_MBSSID)
    (h : (convert siv c).Has k) : k ∈ allKeys := by
  obtain ⟨hknown, hwritten⟩ := has_convert.mp h
  -- an access point has a place among those of the driver
  have hplace : ∀ (i : ℕ) (p : Iface → Prop),
      ¬ (MAX_MBSSID ≤ i ∧ ∀ iface ∈ c.interfaces, iface.HasIdx i → p iface) → i < MAX_MBSSID := by
    intro i p hnot
    by_contra hi
    refine hnot ⟨not_lt.mp hi, fun iface hmem hhas => ?_⟩
    have hlt := hidx iface hmem
    rw [hhas.2] at hlt
    exact absurd hlt hi
  have hrange : ∀ i < MAX_MBSSID, ∀ key ∈ [DatKey.AccessPolicy i, .AccessControlList i,
      .WPAPSK (i + 1), .SSID (i + 1), .RADIUS_Key (i + 1)], key ∈ allKeys := fun i hi key hkey =>
    List.mem_append_right _ (List.mem_flatMap.mpr ⟨i, List.mem_range.mpr hi, hkey⟩)
  have hsuffix : ∀ (n : ℕ) (p : Iface → Prop), 1 ≤ n →
      ¬ (MAX_MBSSID < n ∧ ∀ iface ∈ c.interfaces, iface.HasIdx (n - 1) → p iface) →
      n - 1 < MAX_MBSSID ∧ n - 1 + 1 = n := fun n p hn hnot =>
    ⟨hplace (n - 1) p fun h => hnot ⟨by omega, h.2⟩, by omega⟩
  cases k with
  | vif key =>
    obtain ⟨kv, hkv, rfl⟩ := mem_VIF_CFGS key
    exact List.mem_append_left _ (List.mem_append_right _ (List.mem_map_of_mem hkv))
  | AccessPolicy i =>
    exact hrange i (hplace i (fun _ => False) hwritten) _ (by simp)
  | AccessControlList i => exact hrange i (hplace i _ hwritten) _ (by simp)
  | WPAPSK n =>
    obtain ⟨hlt, heq⟩ := hsuffix n _ hknown hwritten
    rw [← heq]
    exact hrange _ hlt _ (by simp)
  | SSID n =>
    obtain ⟨hlt, heq⟩ := hsuffix n _ hknown hwritten
    rw [← heq]
    exact hrange _ hlt _ (by simp)
  | RADIUS_Key n =>
    have heq : n - 1 + 1 = n := Nat.sub_add_cancel hknown.1
    have hle := hknown.2
    rw [← heq]
    exact hrange (n - 1) (by omega) _ (by simp)
  | _ => decide

/-- The new values of a configuration for access points of the driver. -/
lemma enumerates_datEntries
    (hidx : ∀ iface ∈ c.interfaces, get_vif_idx iface.mtwifi_ifname < MAX_MBSSID) :
    Enumerates siv c (datEntries siv c) := by
  have hnodup : allKeys.Nodup := by decide +kernel
  have hkeys : ∀ l : List DatKey, ((l.filterMap fun k => (datNew siv c k).map (k, ·)).map
      Prod.fst).Sublist l := by
    intro l
    induction l with
    | nil => exact List.Sublist.slnil
    | cons k l ih =>
      rw [List.filterMap_cons]
      cases datNew siv c k with
      | none => exact ih.cons k
      | some v => exact ih.cons_cons _
  refine ⟨hnodup.sublist (hkeys allKeys), fun k v => ?_⟩
  rw [datEntries, List.mem_filterMap]
  constructor
  · rintro ⟨k', -, heq⟩
    obtain ⟨v', hv', hpair⟩ := Option.map_eq_some_iff.mp heq
    cases hpair
    exact hv'
  · intro hv
    refine ⟨k, mem_allKeys siv hidx ?_, by rw [hv]; rfl⟩
    obtain ⟨text, htext, -⟩ := datNew_eq_some.mp hv
    rw [Profile.Has, htext]
    rfl

/-- A radio with a fixed channel and a client. -/
def clientCfg (bssid : Option String) : UciCfg where
  config := { band := some "5g", channel := some "36" }
  interfaces := [⟨{ mode := some "sta", ssid := some "net", bssid := bssid, key := some "secret" },
    some "apclix0"⟩]

lemma clientCfg_machine (bssid : Option String) : Machine (clientCfg bssid) where
  bssid_count := by
    have hcount : bssidCount (clientCfg bssid).interfaces = 1 := rfl
    rw [hcount]
    decide
  txpower := nofun
  beacon_int := nofun

lemma clientCfg_enumerates (bssid : Option String) :
    Enumerates setIndexed (clientCfg bssid) (datEntries setIndexed (clientCfg bssid)) :=
  enumerates_datEntries (by
    intro iface hmem
    obtain rfl := List.mem_singleton.mp hmem
    have hidx : get_vif_idx (some "apclix0") < MAX_MBSSID := by decide +kernel
    exact hidx)

/-- A client with an address. -/
theorem idempotent_iff_client :
    Idempotent (datEntries setIndexed (clientCfg (some "00:11:22:33:44:55"))) "MT7981_1_1" true
        ["MT7981_1_2"] (fun _ => none) ↔
      Texts (clientCfg (some "00:11:22:33:44:55")) ∧
        CountSafe (clientCfg (some "00:11:22:33:44:55"))
          (datEntries setIndexed (clientCfg (some "00:11:22:33:44:55"))) fun _ => none :=
  idempotent_iff "MT7981_1_1" true ["MT7981_1_2"] (clientCfg_machine _) (clientCfg_enumerates _)

/-- A client without an address is set up anew each time. -/
theorem null_changes : ∃ siv c dat_new cur_devname is_dbdc sib_devnames dat_old, Machine c ∧
    Enumerates siv c dat_new ∧ ¬ Idempotent dat_new cur_devname is_dbdc sib_devnames dat_old := by
  refine ⟨setIndexed, clientCfg none, datEntries setIndexed (clientCfg none), "MT7981_1_1", true,
    ["MT7981_1_2"], fun _ => none, clientCfg_machine none, clientCfg_enumerates none, fun h => ?_⟩
  exact ((h.texts (clientCfg_machine none) (clientCfg_enumerates none)).client _ rfl).2.1 rfl

end Mtwifi
