import Mathlib

/-!
# mtwifi: a radio's configuration as a driver profile

`convert` turns the configuration of a radio and of its interfaces into the settings of the driver's
profile (DAT), which are merged into the profile there is.  What the driver keeps for each BSS is a
list in one string, with `;` between the values; `set_indexed_value` of the datconf library replaces
one value of such a list and is a parameter here.  `handle_setup` builds the list of interfaces and
gives each of them its name.
-/

namespace Mtwifi

/-! ## The schema -/

/-- The keys of `defs.VIF_CFGS`, which hold a list with one value for each BSS. -/
inductive VifKey where
  | AuthMode | EncrypType | PMFMFPC | PMFMFPR | PMFSHA256 | RekeyInterval | DefaultKeyID
  | IEEE8021X | Key1Type | Key2Type | Key3Type | Key4Type | PMKCachePeriod | PreAuth
  | RADIUS_Port | RADIUS_Server | RekeyMethod | session_timeout_interval | Wapiifname | HideSSID
  | WirelessMode | NoForwarding | APSDCapable | WmmCapable | FragThreshold | RTSThreshold
  | HT_AMSDU | HT_AutoBA | HT_BAWinSize | HT_GI | HT_LDPC | HT_OpMode | HT_PROTECT | HT_STBC
  | IgmpSnEnable | RRMEnable | VHT_BW_SIGNAL | VHT_LDPC | VHT_SGI | VHT_STBC | MuMimoDlEnable
  | MuMimoUlEnable | MuOfdmaDlEnable | MuOfdmaUlEnable | DLSCapable | WdsEnable | WscConfMode
  | TxRate | DtimPeriod
  deriving DecidableEq, Repr

/-- `defs.VIF_CFGS`, with the defaults. -/
def VIF_CFGS : List (VifKey × String) := [
  (.AuthMode, "OPEN"), (.EncrypType, "NONE"), (.PMFMFPC, "0"), (.PMFMFPR, "0"),
  (.PMFSHA256, "0"), (.RekeyInterval, "3600"), (.DefaultKeyID, "1"), (.IEEE8021X, "0"),
  (.Key1Type, "0"), (.Key2Type, "0"), (.Key3Type, "0"), (.Key4Type, "0"),
  (.PMKCachePeriod, "10"), (.PreAuth, "0"), (.RADIUS_Port, "1812"), (.RADIUS_Server, "0"),
  (.RekeyMethod, "DISABLE"), (.session_timeout_interval, "0"), (.Wapiifname, ""),
  (.HideSSID, "0"), (.WirelessMode, ""), (.NoForwarding, "0"), (.APSDCapable, "1"),
  (.WmmCapable, "1"), (.FragThreshold, "2346"), (.RTSThreshold, "2347"), (.HT_AMSDU, "1"),
  (.HT_AutoBA, "1"), (.HT_BAWinSize, "256"), (.HT_GI, "1"), (.HT_LDPC, "1"), (.HT_OpMode, "0"),
  (.HT_PROTECT, "1"), (.HT_STBC, "1"), (.IgmpSnEnable, "0"), (.RRMEnable, "1"),
  (.VHT_BW_SIGNAL, "0"), (.VHT_LDPC, "1"), (.VHT_SGI, "1"), (.VHT_STBC, "1"),
  (.MuMimoDlEnable, "0"), (.MuMimoUlEnable, "0"), (.MuOfdmaDlEnable, "1"),
  (.MuOfdmaUlEnable, "1"), (.DLSCapable, "0"), (.WdsEnable, "0"), (.WscConfMode, "0"),
  (.TxRate, "0"), (.DtimPeriod, "1")]

/-- `defs.ENC_2_DAT`: AuthMode and EncrypType for the encryption of an interface. -/
def ENC_2_DAT : List (String × String × String) := [
  ("none", ("OPEN", "NONE")), ("sae", ("WPA3PSK", "AES")),
  ("sae-mixed", ("WPA2PSKWPA3PSK", "AES")), ("psk2+tkip+ccmp", ("WPA2PSK", "TKIPAES")),
  ("psk2+tkip+aes", ("WPA2PSK", "TKIPAES")), ("psk2+tkip", ("WPA2PSK", "TKIP")),
  ("psk2+ccmp", ("WPA2PSK", "AES")), ("psk2+aes", ("WPA2PSK", "AES")),
  ("psk2", ("WPA2PSK", "AES")), ("psk+tkip+ccmp", ("WPAPSK", "AES")),
  ("psk+tkip+aes", ("WPAPSK", "AES")), ("psk+tkip", ("WPAPSK", "AES")),
  ("psk+ccmp", ("WPAPSK", "AES")), ("psk+aes", ("WPAPSK", "AES")), ("psk", ("WPAPSK", "AES")),
  ("psk-mixed+tkip+ccmp", ("WPAPSKWPA2PSK", "TKIPAES")),
  ("psk-mixed+tkip+aes", ("WPAPSKWPA2PSK", "TKIPAES")),
  ("psk-mixed+tkip", ("WPAPSKWPA2PSK", "TKIP")), ("psk-mixed+ccmp", ("WPAPSKWPA2PSK", "AES")),
  ("psk-mixed+aes", ("WPAPSKWPA2PSK", "AES")), ("psk-mixed", ("WPAPSKWPA2PSK", "AES")),
  ("owe", ("OWE", "AES"))]

/-- `defs.COUNTRY_REGIONS`: the regions for 2.4 and 5 GHz. -/
def COUNTRY_REGIONS : List (String × ℕ × ℕ) := [
  ("DB", (5, 13)), ("AE", (1, 0)), ("AL", (1, 0)), ("AR", (1, 3)), ("AT", (1, 1)),
  ("AM", (1, 2)), ("AU", (1, 0)), ("AZ", (1, 2)), ("BE", (1, 1)), ("BH", (1, 0)), ("BY", (1, 0)),
  ("BO", (1, 4)), ("BR", (1, 1)), ("BN", (1, 4)), ("BG", (1, 1)), ("BZ", (1, 4)), ("CA", (0, 0)),
  ("CH", (1, 1)), ("CL", (1, 0)), ("CN", (1, 0)), ("CO", (0, 0)), ("CR", (1, 0)), ("CY", (1, 1)),
  ("CZ", (1, 2)), ("DE", (1, 1)), ("DK", (1, 1)), ("DO", (0, 0)), ("DZ", (1, 0)), ("EC", (1, 0)),
  ("EG", (1, 2)), ("EE", (1, 1)), ("ES", (1, 1)), ("FI", (1, 1)), ("FR", (1, 1)), ("GE", (1, 2)),
  ("GB", (1, 1)), ("GR", (1, 1)), ("GT", (0, 0)), ("HN", (1, 0)), ("HK", (1, 0)), ("HU", (1, 1)),
  ("HR", (1, 2)), ("IS", (1, 1)), ("IN", (1, 0)), ("ID", (1, 4)), ("IR", (1, 4)), ("IE", (1, 1)),
  ("IL", (1, 0)), ("IT", (1, 1)), ("JP", (1, 9)), ("JO", (1, 0)), ("KP", (1, 5)), ("KR", (1, 5)),
  ("KW", (1, 0)), ("KZ", (1, 0)), ("LB", (1, 0)), ("LI", (1, 1)), ("LT", (1, 1)), ("LU", (1, 1)),
  ("LV", (1, 1)), ("MA", (1, 0)), ("MC", (1, 2)), ("MO", (1, 0)), ("MK", (1, 0)), ("MX", (0, 0)),
  ("MY", (1, 0)), ("NL", (1, 1)), ("NO", (0, 0)), ("NZ", (1, 0)), ("OM", (1, 0)), ("PA", (0, 0)),
  ("PE", (1, 4)), ("PH", (1, 4)), ("PL", (1, 1)), ("PK", (1, 0)), ("PT", (1, 1)), ("PR", (0, 0)),
  ("QA", (1, 0)), ("RO", (1, 0)), ("RU", (1, 0)), ("SA", (1, 0)), ("SG", (1, 0)), ("SK", (1, 1)),
  ("SI", (1, 1)), ("SV", (1, 0)), ("SE", (1, 1)), ("SY", (1, 0)), ("TH", (1, 0)), ("TN", (1, 2)),
  ("TR", (1, 2)), ("TT", (1, 2)), ("TW", (0, 3)), ("UA", (1, 0)), ("US", (0, 0)), ("UY", (1, 5)),
  ("UZ", (0, 1)), ("VE", (1, 5)), ("VN", (1, 0)), ("YE", (1, 0)), ("ZA", (1, 1)), ("ZW", (1, 0))]

/-- `defs.MAX_MBSSID`. -/
def MAX_MBSSID : ℕ := 16

/-- The keys of a profile.  `AccessPolicy i` is `AccessPolicy0` and so on; the keys `WPAPSK`, `SSID`
and `RADIUS_Key` are counted from 1. -/
inductive DatKey where
  | BssidNum | HT_BW | VHT_BW | HT_BSSCoexistence | AutoChannelSelect | Channel
  | CountryCode | CountryRegion | CountryRegionABand | PERCENTAGEenable | TxPower
  | ETxBfEnCond | ITxBfEn | MUTxRxEnable | TWTSupport | BeaconPeriod | WHNAT
  | ApCliEnable | ApCliSsid | ApCliBssid | ApCliAuthMode | ApCliEncrypType | ApCliWPAPSK
  | ApCliPMFMFPC | ApCliPMFMFPR | ApCliPMFSHA256
  | vif (key : VifKey)
  | AccessPolicy (i : ℕ) | AccessControlList (i : ℕ)
  | WPAPSK (n : ℕ) | SSID (n : ℕ) | RADIUS_Key (n : ℕ)
  deriving DecidableEq, Repr

/-- A profile: what it holds for each of its keys.  A value that the converter leaves null is
written as the empty string. -/
abbrev Profile := DatKey → Option String

/-- `dat[key] = val`. -/
def Profile.set (dat : Profile) (key : DatKey) (val : String) : Profile :=
  Function.update dat key (some val)

@[simp] lemma Profile.set_apply (dat : Profile) (key : DatKey) (val : String) (k : DatKey) :
    dat.set key val k = if k = key then some val else dat k :=
  Function.update_apply ..

/-! ## The configuration -/

/-- A number of the configuration as it is printed. -/
structure Number where
  text : String
  plain : ';' ∉ text.toList

/-- The options of a radio. -/
structure DeviceConfig where
  band : Option String := none
  channel : Option String := none
  htmode : Option String := none
  noscan : Option Bool := none
  txpower : Option ℤ := none
  beacon_int : Option ℤ := none
  mu_beamformer : Option Bool := none
  dbdc_main : Option Bool := none
  whnat : Option Bool := none
  country : Option String := none
  twt : Option String := none

/-- The options of an interface. -/
structure IfaceConfig where
  mode : Option String := none
  encryption : Option String := none
  key : Option String := none
  ssid : Option String := none
  bssid : Option String := none
  disabled : Option String := none
  macfilter : Option String := none
  maclist : Option (List String) := none
  wpa_group_rekey : Option Number := none
  frag : Option Number := none
  rts : Option Number := none
  dtim_period : Option Number := none
  wmm : Option Bool := none
  hidden : Option Bool := none
  isolate : Option Bool := none
  ieee80211k : Option Bool := none
  mumimo_dl : Option Bool := none
  mumimo_ul : Option Bool := none
  ofdma_dl : Option Bool := none
  ofdma_ul : Option Bool := none
  amsdu : Option Bool := none
  autoba : Option Bool := none
  uapsd : Option Bool := none

/-- An interface, with the name that `handle_setup` has given to it. -/
structure Iface where
  config : IfaceConfig
  mtwifi_ifname : Option String

/-- What `convert` is given. -/
structure UciCfg where
  config : DeviceConfig
  interfaces : List Iface

/-! ## Helper functions -/

/-- A string or null, as C text. -/
def cstr (s : Option String) : String := s.getD ""

/-- A string that is set and not empty. -/
def truthy (s : Option String) : Bool := s.isSome && s ≠ some ""

def strict_bool (val : Option Bool) : Option String :=
  val.map fun b => if b then "1" else "0"

/-- The number at the end of an interface name, 0 if there is none. -/
def get_vif_idx (ifname : Option String) : ℕ :=
  match ifname with
  | none => 0
  | some name => Nat.ofDigitChars 10 (name.toList.reverse.takeWhile Char.isDigit).reverse 0

def calc_wireless_mode (band htmode : Option String) : ℕ :=
  let is_ax := "HE".toList.isPrefixOf (cstr htmode).toList
  if band = some "2g" then if is_ax then 16 else 9
  else if band = some "5g" then if is_ax then 17 else 15
  else if band = some "6g" then 18
  else 9

/-- The first run of digits of a string. -/
def firstDigits (s : String) : List Char :=
  (s.toList.dropWhile (!·.isDigit)).takeWhile Char.isDigit

/-- HT_BW, VHT_BW and HT_BSSCoexistence. -/
def calc_bandwidth (htmode : Option String) (noscan : Option Bool) : String × String × String :=
  match String.ofList (firstDigits (cstr htmode)) with
  | "40" => ("1", "0", if noscan = some true then "0" else "1")
  | "80" => ("1", "1", "1")
  | "160" => ("1", "2", "1")
  | _ => ("0", "0", "1")

/-! ## Conversion -/

namespace Iface

def isAp (iface : Iface) : Bool := iface.config.mode = some "ap"

def isSta (iface : Iface) : Bool := iface.config.mode = some "sta"

end Iface

/-- `max_ap_idx`: the greatest index of an AP, 0 if there is none. -/
def maxApIdx (ifaces : List Iface) : ℕ :=
  ifaces.foldl (fun m iface =>
    if iface.isAp ∧ m < get_vif_idx iface.mtwifi_ifname then get_vif_idx iface.mtwifi_ifname
    else m) 0

def hasApcli (ifaces : List Iface) : Bool := ifaces.any Iface.isSta

def bssidCount (ifaces : List Iface) : ℕ :=
  if ifaces.any Iface.isAp then maxApIdx ifaces + 1 else 1

/-- The settings of the radio as such. -/
def radioSettings (conf : DeviceConfig) (has_apcli : Bool) (dat : Profile) : Profile :=
  let bw_res := calc_bandwidth conf.htmode conf.noscan
  let dat := dat.set .HT_BW bw_res.1
  let dat := dat.set .VHT_BW bw_res.2.1
  let dat := dat.set .HT_BSSCoexistence bw_res.2.2
  let wmode_int := calc_wireless_mode conf.band conf.htmode
  let dat := dat.set (.vif .WirelessMode) (toString wmode_int)
  let dat := dat.set .AutoChannelSelect (if conf.channel = some "auto" then "3" else "0")
  let dat := dat.set .Channel (if conf.channel = some "auto" then "0" else cstr conf.channel)
  let txp := conf.txpower.getD 0
  let dat := dat.set .PERCENTAGEenable (if txp ≠ 0 ∧ txp < 100 then "1" else "0")
  let dat := dat.set .TxPower (if txp ≠ 0 ∧ txp < 100 then toString txp else "100")
  let beamformer := conf.mu_beamformer = some true
  let dat := dat.set .ETxBfEnCond (if beamformer then "1" else "0")
  let dat := dat.set .ITxBfEn "0"
  let dat := dat.set .MUTxRxEnable (if beamformer then if has_apcli then "3" else "1" else "0")
  dat.set .TWTSupport (if wmode_int ≥ 16 ∧ truthy conf.twt then cstr conf.twt else "0")

/-- The country that is set, if it is a code of two letters. -/
def countryOf (conf : DeviceConfig) : Option String :=
  conf.country.filter fun country => country.length = 2

def countrySettings (conf : DeviceConfig) (dat : Profile) : Profile :=
  match countryOf conf with
  | none => dat
  | some country =>
    let dat := dat.set .CountryCode country
    let regions := (COUNTRY_REGIONS.lookup country).getD (1, 0)
    if conf.band = some "2g" then dat.set .CountryRegion (toString regions.1)
    else dat.set .CountryRegionABand (toString regions.2)

/-- `defs.CHIP_CFGS`, set for the main device of a card only; 0 and false count as not set. -/
def chipSettings (conf : DeviceConfig) (dat : Profile) : Profile :=
  if conf.dbdc_main = some true then
    let beacon_int := conf.beacon_int.getD 0
    let dat := dat.set .BeaconPeriod (if beacon_int ≠ 0 then toString beacon_int else "100")
    dat.set .WHNAT (if conf.whnat = some true then "true" else "1")
  else dat

/-- `defs.ENC_2_DAT[c.encryption]`. -/
def encInfo (c : IfaceConfig) : Option (String × String) :=
  c.encryption.bind fun encryption => ENC_2_DAT.lookup encryption

/-- The client settings of one interface. -/
def clientSettings (c : IfaceConfig) (dat : Profile) : Profile :=
  let dat := dat.set .ApCliEnable (if truthy c.disabled then "0" else "1")
  let dat := dat.set .ApCliSsid (cstr c.ssid)
  let dat := dat.set .ApCliBssid (cstr c.bssid)
  let dat := dat.set .ApCliWPAPSK (cstr c.key)
  match encInfo c with
  | none => dat
  | some enc_info =>
    let dat := dat.set .ApCliAuthMode enc_info.1
    let dat := dat.set .ApCliEncrypType enc_info.2
    if enc_info.1 = "OWE" ∨ enc_info.1 = "WPA3PSK" then
      ((dat.set .ApCliPMFMFPC "1").set .ApCliPMFMFPR "1").set .ApCliPMFSHA256 "0"
    else (dat.set .ApCliPMFMFPC "0").set .ApCliPMFMFPR "0"

/-- Only the first client interface counts. -/
def apcliSettings (ifaces : List Iface) (dat : Profile) : Profile :=
  let dat := dat.set .ApCliEnable "0"
  let dat := dat.set .ApCliSsid ""
  let dat := dat.set .ApCliBssid ""
  let dat := dat.set .ApCliAuthMode ""
  let dat := dat.set .ApCliEncrypType ""
  let dat := dat.set .ApCliWPAPSK ""
  match ifaces.find? Iface.isSta with
  | none => dat
  | some iface => clientSettings iface.config dat

section

variable (set_indexed_value : String → ℕ → String → String)

/-- The default of one key, for each BSS. -/
def defaultStr (count : ℕ) (val : String) : String :=
  (List.range count).foldl (fun s i => set_indexed_value s i val) ""

/-- `defs.VIF_ACL` and `defs.VIF_CFGS_IDX`, for each of the BSSes that the driver can have. -/
def indexedDefaults (dat : Profile) : Profile :=
  let dat := (List.range MAX_MBSSID).foldl
    (fun dat i => (dat.set (.AccessPolicy i) "0").set (.AccessControlList i) "") dat
  (List.range' 1 MAX_MBSSID).foldl
    (fun dat i => ((dat.set (.WPAPSK i) "").set (.SSID i) "").set (.RADIUS_Key i) "") dat

def vifDefaults (count : ℕ) (dat : Profile) : Profile :=
  indexedDefaults (VIF_CFGS.foldl
    (fun dat kv => dat.set (.vif kv.1) (defaultStr set_indexed_value count kv.2)) dat)

def set_suffix (key : ℕ → DatKey) (suffix_key_idx : ℕ) (val : Option String) (dat : Profile) :
    Profile :=
  match val with
  | none => dat
  | some val => dat.set (key suffix_key_idx) val

def set_token (vif_idx : ℕ) (dat : Profile) (call : VifKey × Option String) : Profile :=
  match call.2 with
  | none => dat
  | some val =>
    dat.set (.vif call.1) (cstr ((dat (.vif call.1)).map (set_indexed_value · vif_idx val)))

/-- AuthMode and EncrypType of an AP; an encryption that is not in the table counts as none. -/
def encDef (c : IfaceConfig) : String × String := (encInfo c).getD ("OPEN", "NONE")

/-- The calls of `set_token` for an AP, in their order. -/
def tokenCalls (wmode_int : ℕ) (c : IfaceConfig) : List (VifKey × Option String) :=
  let authmode := (encDef c).1
  let pmf : Option (String × String) :=
    if authmode = "OWE" ∨ authmode = "WPA3PSK" then some ("1", "1")
    else if authmode = "WPA2PSKWPA3PSK" then some ("1", "0")
    else none
  [(.WirelessMode, some (toString wmode_int)),
    (.NoForwarding, strict_bool c.isolate),
    (.HideSSID, strict_bool c.hidden),
    (.WmmCapable, strict_bool c.wmm),
    (.APSDCapable, strict_bool c.uapsd),
    (.RTSThreshold, c.rts.map Number.text),
    (.FragThreshold, c.frag.map Number.text),
    (.DtimPeriod, c.dtim_period.map Number.text),
    (.RekeyInterval, c.wpa_group_rekey.map Number.text),
    (.RRMEnable, strict_bool c.ieee80211k),
    (.HT_AMSDU, strict_bool c.amsdu),
    (.HT_AutoBA, strict_bool c.autoba),
    (.HT_BAWinSize, some (if wmode_int ≥ 16 then "256" else "64")),
    (.MuMimoDlEnable, strict_bool c.mumimo_dl),
    (.MuMimoUlEnable, strict_bool c.mumimo_ul),
    (.MuOfdmaDlEnable, strict_bool c.ofdma_dl),
    (.MuOfdmaUlEnable, strict_bool c.ofdma_ul),
    (.AuthMode, some authmode),
    (.EncrypType, some (encDef c).2),
    (.PMFMFPC, pmf.map Prod.fst),
    (.PMFMFPR, pmf.map Prod.snd),
    (.PMFSHA256, pmf.map fun _ => "0"),
    (.RekeyMethod, if authmode ≠ "OPEN" ∧ authmode ≠ "OWE" then some "TIME" else none)]

/-- The policy of the MAC filter. -/
def accessPolicy (c : IfaceConfig) : String :=
  if c.macfilter = some "allow" then "1"
  else if c.macfilter = some "deny" then "2"
  else "0"

/-- The list of the MAC filter, if there is one that is not empty. -/
def accessControlList (c : IfaceConfig) : Option String :=
  (c.maclist.filter (· ≠ [])).map (";".intercalate ·)

/-- The settings of one AP. -/
def vifSettings (wmode_int : ℕ) (dat : Profile) (iface : Iface) : Profile :=
  let c := iface.config
  if iface.isAp then
    let vif_idx := get_vif_idx iface.mtwifi_ifname
    let suffix_key_idx := vif_idx + 1
    let dat := set_suffix .SSID suffix_key_idx c.ssid dat
    let dat := set_suffix .WPAPSK suffix_key_idx c.key dat
    let dat := (tokenCalls wmode_int c).foldl (set_token set_indexed_value vif_idx) dat
    let dat := dat.set (.AccessPolicy vif_idx) (accessPolicy c)
    match accessControlList c with
    | none => dat
    | some acl => dat.set (.AccessControlList vif_idx) acl
  else dat

def convert (uci_cfg : UciCfg) : Profile :=
  let conf := uci_cfg.config
  let ifaces := uci_cfg.interfaces
  let bssid_count := bssidCount ifaces
  let dat : Profile := Profile.set (fun _ => none) .BssidNum (toString bssid_count)
  let dat := radioSettings conf (hasApcli ifaces) dat
  let dat := chipSettings conf (countrySettings conf dat)
  let dat := apcliSettings ifaces dat
  let dat := vifDefaults set_indexed_value bssid_count dat
  ifaces.foldl (vifSettings set_indexed_value (calc_wireless_mode conf.band conf.htmode)) dat

end

/-- `ctx.merge(dat_new)`: overwrites exactly the keys that are given. -/
def merge (dat_old dat_new : Profile) : Profile := fun key => (dat_new key).or (dat_old key)

lemma get_vif_idx_append { ap_prefix : String} (n : ℕ)
    (h : ap_prefix.toList.getLast?.any Char.isDigit = false) :
    get_vif_idx (some ( ap_prefix ++ toString n)) = n := by
  have hdigits : ∀ c ∈ (Nat.toDigits 10 n).reverse, c.isDigit = true := fun c hc =>
    Nat.isDigit_of_mem_toDigits (by decide) (by decide) (List.mem_reverse.mp hc)
  have hrest : ap_prefix.toList.reverse.takeWhile Char.isDigit = [] := by
    rcases hl : ap_prefix.toList.reverse with - | ⟨c, l⟩
    · rfl
    · have hlast : ap_prefix.toList.getLast? = some c := by
        rw [← List.head?_reverse, hl]
        rfl
      rw [hlast] at h
      exact List.takeWhile_cons_of_neg (ne_true_of_eq_false h)
  have hname : ( ap_prefix ++ toString n).toList = ap_prefix.toList ++ Nat.toDigits 10 n := by
    rw [String.toList_append, Nat.toString_eq_ofList_toDigits, String.toList_ofList]
  simp only [get_vif_idx, hname, List.reverse_append]
  rw [List.takeWhile_append_of_pos hdigits, hrest, List.append_nil, List.reverse_reverse]
  exact Nat.ofDigitChars_ten_toDigits

/-! ## The interfaces of a radio -/

/-- A section `wifi-iface` of the configuration. -/
structure UciSection where
  name : String
  device : String
  mode : Option String := none
  encryption : Option String := none
  key : Option String := none
  ssid : Option String := none
  disabled : Option String := none

/-- The configuration made of a section that netifd has left out. -/
def UciSection.config (sec : UciSection) : IfaceConfig where
  mode := sec.mode
  encryption := sec.encryption
  key := sec.key
  ssid := sec.ssid
  disabled := sec.disabled

/-- `complete_ifaces`: the sections of this radio, with the options from netifd where it has
them. -/
def completeIfaces (cur_devname : String) (netifd_ifaces : String → Option IfaceConfig)
    (secs : List UciSection) : List IfaceConfig :=
  (secs.filter fun sec => sec.device = cur_devname).map
    fun sec => (netifd_ifaces sec.name).getD sec.config

def MAX_AP_IDX : ℕ := 15

def MAX_APCLI_IDX : ℕ := 0

/-- Gives names to interfaces from the indices on that are free; one that gets no name any more
stays in the list. -/
def numberIfaces ( ap_prefix apcli_prefix : String) : ℕ → ℕ → List IfaceConfig → List Iface
  | _, _, [] => []
  | ap_idx, apcli_idx, config :: configs =>
    if config.mode = some "ap" then
      if ap_idx ≤ MAX_AP_IDX then
        ⟨config, some ( ap_prefix ++ toString ap_idx)⟩ ::
          numberIfaces ap_prefix apcli_prefix (ap_idx + 1) apcli_idx configs
      else ⟨config, none⟩ :: numberIfaces ap_prefix apcli_prefix ap_idx apcli_idx configs
    else if config.mode = some "sta" then
      if apcli_idx ≤ MAX_APCLI_IDX then
        ⟨config, some ( apcli_prefix ++ toString apcli_idx)⟩ ::
          numberIfaces ap_prefix apcli_prefix ap_idx (apcli_idx + 1) configs
      else ⟨config, none⟩ :: numberIfaces ap_prefix apcli_prefix ap_idx apcli_idx configs
    else ⟨config, none⟩ :: numberIfaces ap_prefix apcli_prefix ap_idx apcli_idx configs

/-- The interfaces that `handle_setup` passes on, with the prefixes of the L1 profile or the default
ones. -/
def handle_setup (cur_devname : String) (ext_ifname apcli_ifname : Option String)
    (netifd_ifaces : String → Option IfaceConfig) (secs : List UciSection) : List Iface :=
  numberIfaces (if truthy ext_ifname then cstr ext_ifname else "ra")
    (if truthy apcli_ifname then cstr apcli_ifname else "apcli") 0 0
    (completeIfaces cur_devname netifd_ifaces secs)

end Mtwifi
