import Mt798x.Ap.Macaddr

/-!
# Reloading the access points of an interface

When the configuration of a hostapd interface changes and its radio part does not,
`iface_reload_config` carries the running BSSes over to the new configuration: it finds old BSSes
with the same settings, deletes the others, renames, gives addresses, adds what is new, puts all in
order and updates settings.  It gives up, and the interface is restarted, where that cannot be done.

hostapd is modelled by the list of BSSes that run on the interface.  Its operations do what their
names say; renaming a BSS to a name in use and adding one under a name in use fail, and an order
must be one of all BSSes.  An exception of the interpreter ends a reload like a return of false, as
the caller catches it.
-/

namespace Ap

/-! ## Configurations -/

/-- The hashes of the files of a BSS; `others` are those that are only compared. -/
structure Hash where
  vlan_file : Option String := none
  wpa_psk_file : Option String := none
  sae_password_file : Option String := none
  rxkh_file : Option String := none
  others : List (String × String) := []
  deriving DecidableEq, Repr

/-- The configuration of a BSS. -/
structure Bss where
  ifname : String
  bssid : Option String
  default_macaddr : Bool := false
  random_macaddr : Bool := false
  force_reload : Bool := false
  mld_ap : Bool := false
  mld_bssid : Option String := none
  data : List String := []
  hash : Hash := {}
  deriving DecidableEq, Repr

/-- The configuration of an interface. -/
structure Config where
  radio : List String
  bss : List Bss
  num_global_macaddr : Option ℤ := none
  macaddr_base : Option String := none
  mbssid : Option ℤ := none
  deriving DecidableEq, Repr

/-- The key of a line, `split(line, "=")[0]`. -/
def lineKey (line : String) : String := String.ofList (line.toList.takeWhile (· ≠ '='))

/-- `hostapd.data.file_fields` -/
def file_fields : List String :=
  ["vlan_file", "wpa_psk_file", "sae_password_file", "rxkh_file", "accept_mac_file",
    "deny_mac_file", "eap_user_file", "ca_cert", "server_cert", "server_cert2", "private_key",
    "private_key2", "dh_file", "eap_sim_db"]

/-- `hostapd.data.iface_fields` -/
def iface_fields : List String :=
  ["ft_iface", "upnp_iface", "snoop_iface", "bridge", "iapp_interface"]

/-- A blank of a regular expression, `\s`. -/
def isBlank (c : Char) : Bool := c = ' ' ∨ ('\t' ≤ c ∧ c ≤ '\r')

/-- A line that is empty or a comment. -/
def idle (line : String) : Bool :=
  match line.toList.dropWhile isBlank with
  | [] => true
  | c :: _ => c = '#'

/-- `remove_file_fields` -/
def remove_file_fields (config : List String) : List String :=
  config.filter fun line => ¬ idle line ∧ lineKey line ∉ file_fields

/-- The lines that name files. -/
def fileLines (config : List String) : List String :=
  config.filter fun line => ¬ idle line ∧ lineKey line ∈ file_fields

/-- `bss_remove_file_fields` -/
def bss_remove_file_fields (config : Bss) : Bss :=
  { config with
    data := remove_file_fields config.data
    hash := { config.hash with
      wpa_psk_file := none, sae_password_file := none, vlan_file := none } }

/-- What a reload finds outside: SHA-1, of texts and of lines that are printed as an array with a
text behind them; the indexes of interfaces; whether the phy is a full-MAC one; and the addresses
of its interfaces when BSSIDs are assigned. -/
structure Env where
  phy : Phy
  fullmac : Bool
  sha1 : String → String
  sha1_lines : List String → String → String
  ifindex : String → String
  wdevs : List String

/-- `bss_ifindex_list` -/
def bss_ifindex_list (env : Env) (config : List String) : String :=
  ",".intercalate ((config.filter fun line => lineKey line ∈ iface_fields).map fun line =>
    env.ifindex (String.ofList (((line.toList.splitOn '=').getD 1 []))))

/-- `bss_config_hash` -/
def bss_config_hash (env : Env) (config : List String) : String :=
  env.sha1_lines (remove_file_fields config) (bss_ifindex_list env config)

/-! ## Addresses in use -/

/-- The key of an address in an object. -/
def macKey (bssid : Option String) : String := bssid.getD "null"

/-- The address is entered as the one of this BSS if it is assigned by the configuration. -/
def enter (list : MacaddrList) (e : Bss × ℕ) : MacaddrList :=
  if e.1.default_macaddr then list
  else Function.update list (macKey e.1.bssid) (some (e.2 : ℤ))

/-- `iface_config_macaddr_list`, with the addresses of `hostapd.data.mld` -/
def iface_config_macaddr_list (mld : List String) (bss : List Bss) : MacaddrList :=
  bss.zipIdx.foldl enter fun addr => if addr ∈ mld then some (-1) else none

/-- The options that `iface_macaddr_init` gives to the address generator. -/
def Config.macaddr_data (config : Config) : MacaddrOptions where
  num_global := config.num_global_macaddr.getD 1
  macaddr_base := config.macaddr_base
  mbssid := config.mbssid.getD 0

/-- The address generator for a configuration. -/
def generate (env : Env) (config : Config) : ℕ → Option String :=
  macaddr_generate env.phy config.macaddr_data

/-! ## hostapd -/

/-- What a BSS runs with. -/
structure Conf where
  bssid : Option String
  mld_bssid : Option String
  settings : List String
  fileLines : List String
  files : Hash
  deriving DecidableEq, Repr

/-- The part of the generated configuration that is about a BSS, and the contents of its files. -/
def Bss.conf (bss : Bss) : Conf where
  bssid := bss.bssid
  mld_bssid := if bss.mld_ap then bss.mld_bssid else none
  settings := remove_file_fields bss.data
  fileLines := fileLines bss.data
  files := bss.hash

/-- A BSS of hostapd, an object with a name. -/
structure Running where
  id : ℕ
  ifname : String
  conf : Conf
  deriving DecidableEq, Repr

section

variable (running : List Running)

/-- A BSS of this name runs. -/
def inUse (name : String) : Bool := running.any fun r => r.ifname = name

/-- `bss.rename(name)` -/
def rename (id : ℕ) (name : String) : Option (List Running) :=
  if inUse running name then none
  else some (running.map fun r => if r.id = id then { r with ifname := name } else r)

/-- `bss.delete()` -/
def delete (id : ℕ) : List Running := running.filter fun r => r.id ≠ id

/-- A number that no BSS has. -/
def freshId : ℕ := (running.map Running.id).foldr max 0 + 1

/-- `iface.add_bss(config, i)`, where the new BSS is this object. -/
def add_bss (id : ℕ) (bss : Bss) : Option (List Running) :=
  if inUse running bss.ifname then none
  else some (running ++ [⟨id, bss.ifname, bss.conf⟩])

/-- `iface.set_bss_order(bss_list)` -/
def set_bss_order (ids : List ℕ) : Option (List Running) :=
  if ids.length = running.length ∧ ids.Nodup ∧ ∀ id ∈ ids, ∃ r ∈ running, r.id = id then
    some (ids.filterMap fun id => running.find? fun r => r.id = id)
  else none

/-- A BSS is given something else to run with. -/
def configure (id : ℕ) (f : Conf → Conf) : List Running :=
  running.map fun r => if r.id = id then { r with conf := f r.conf } else r

end

/-- `bss.set_config(config, i)` -/
def Bss.set_config (bss : Bss) (_ : Conf) : Conf := bss.conf

/-- `bss.set_config(config, i, true)`: the files alone, and their contents. -/
def Bss.set_files (bss : Bss) (conf : Conf) : Conf :=
  { conf with fileLines := bss.conf.fileLines, files := bss.conf.files }

/-- `bss.ctrl("RELOAD_WPA_PSK")` -/
def Bss.reload_wpa_psk (bss : Bss) (conf : Conf) : Conf :=
  { conf with files := { conf.files with wpa_psk_file := bss.hash.wpa_psk_file } }

/-- `bss.ctrl("RELOAD_RXKHS")` -/
def Bss.reload_rxkhs (bss : Bss) (conf : Conf) : Conf :=
  { conf with files := { conf.files with rxkh_file := bss.hash.rxkh_file } }

/-! ## The reload -/

/-- The variables of a reload: `config.bss` and `old_config.bss`, the reserved addresses, the hashes
of the old BSSes that are not spoken for, what runs or will run as each BSS, the old BSS it was, the
number of the next new object of hostapd, and the BSSes with a temporary name. -/
structure Work where
  bss : List Bss
  old : List Bss
  macaddr_list : MacaddrList
  prev_bss_hash : List (Option String)
  bss_list : ℕ → Option ℕ
  bss_list_cfg : ℕ → Option ℕ
  running : List Running
  next : ℕ
  rename_list : List ℕ

/-- `config.bss[i].bssid = addr` -/
def setBssid (bss : List Bss) (i : ℕ) (addr : Option String) : List Bss :=
  bss.modify i fun b => { b with bssid := addr }

/-- `get_config_bss` for a BSS of the old configuration. -/
def get_config_bss (old : List Bss) (running : List Running) (idx : ℕ) : Option ℕ :=
  (old[idx]?).bind fun b =>
    if b.ifname = "" then none else (running.find? fun r => r.ifname = b.ifname).map Running.id

/-- `bss_find_existing`: an old BSS with the same hash that is not spoken for. -/
def bss_find_existing (env : Env) (config : Bss) (prev_hash : List (Option String)) : Option ℕ :=
  prev_hash.findIdx? fun h => h = some (bss_config_hash env config.data)

/-- A BSS keeps the address that the old one had: both have one of the same sort, which is not
assigned, and the list has none or BSS 0 for it. -/
def preserves (list : MacaddrList) (cur_config prev_config : Bss) : Bool :=
  (cur_config.default_macaddr ∨ cur_config.random_macaddr) ∧
    cur_config.random_macaddr = prev_config.random_macaddr ∧
    cur_config.default_macaddr = prev_config.default_macaddr ∧
    (list (macKey prev_config.bssid)).getD 0 = 0

/-- BSS i gets the address that the old one had. -/
def Work.preserve (w : Work) (i : ℕ) (bssid : Option String) : Work :=
  { w with
    macaddr_list := Function.update w.macaddr_list (macKey bssid) (some (i : ℤ))
    bss := setBssid w.bss i bssid }

/-- BSS i is carried over. -/
def Work.carry (w : Work) (i bss prev : ℕ) : Work :=
  { w with
    bss_list := Function.update w.bss_list i (some bss)
    bss_list_cfg := Function.update w.bss_list_cfg i (some prev) }

/-- Step 1 for BSS i. -/
def reuse (env : Env) (w : Work) (i : ℕ) : Option Work :=
  (w.bss[i]?).bind fun cur_config =>
    match if i = 0 ∧ env.fullmac then some 0
      else bss_find_existing env cur_config w.prev_bss_hash with
    | none => some w
    | some prev =>
      let w := { w with prev_bss_hash := w.prev_bss_hash.set prev none }
      (w.old[prev]?).bind fun prev_config =>
        if prev_config.force_reload then
          some { w with old := w.old.modify prev fun b => { b with force_reload := false } }
        else
          (get_config_bss w.old w.running prev).map fun prev_bss =>
            (if preserves w.macaddr_list cur_config prev_config
              then w.preserve i prev_config.bssid else w).carry i prev_bss prev

/-- Step 2: the first BSS is kept if no other is. -/
def keepFirst (w : Work) : Option Work :=
  (w.bss[0]?).bind fun first => (w.old[0]?).bind fun prev_config =>
    if first.bssid ≠ prev_config.bssid ∧ ¬ first.default_macaddr then none
    else
      (get_config_bss w.old w.running 0).map fun prev_bss =>
        { (w.preserve 0 prev_config.bssid).carry 0 prev_bss 0 with
          prev_bss_hash := w.prev_bss_hash.set 0 none }

/-- Step 3 for an old BSS. -/
def deleteUnused (w : Work) (i : ℕ) : Option Work :=
  if (w.prev_bss_hash[i]?).join.isNone then some w
  else
    (get_config_bss w.old w.running i).map fun prev_bss =>
      { w with running := delete w.running prev_bss }

/-- The temporary name of a BSS that is to have this name. -/
def tmpName (env : Env) (new_ifname : String) : String :=
  "tmp_" ++ String.ofList ((env.sha1 new_ifname).toList.take 8)

/-- The BSS that runs as BSS i is renamed. -/
def Work.renameTo (w : Work) (bss cfg : ℕ) (name : String) : Option Work :=
  (rename w.running bss name).map fun running =>
    { w with
      running := running
      old := w.old.modify cfg fun b => { b with ifname := name } }

/-- Step 4 for BSS i. -/
def renameFirst (env : Env) (w : Work) (i : ℕ) : Option Work :=
  match w.bss_list i, w.bss_list_cfg i with
  | some bss, some cfg =>
    (w.bss[i]?).bind fun cur => (w.old[cfg]?).bind fun prev =>
      if prev.ifname = cur.ifname then some w
      else if inUse w.running cur.ifname then
        { w with rename_list := w.rename_list ++ [i] }.renameTo bss cfg (tmpName env cur.ifname)
      else w.renameTo bss cfg cur.ifname
  | _, _ => some w

/-- Step 5 for BSS i. -/
def renameAgain (w : Work) (i : ℕ) : Option Work :=
  match w.bss_list i, w.bss_list_cfg i with
  | some bss, some cfg => (w.bss[i]?).bind fun cur => w.renameTo bss cfg cur.ifname
  | _, _ => none

/-- The entry of an array of this length at an index, from the end if it is negative. -/
def entryAt (length : ℕ) (idx : ℤ) : Option ℕ :=
  let i := if idx < 0 then idx + length else idx
  if 0 ≤ i ∧ i < length then some i.toNat else none

/-- Step 6 for BSS i. -/
def assign (generate : ℕ → Option String) (w : Work) (i : ℕ) : Option Work :=
  if (w.bss_list i).isSome then some w
  else
    (w.bss[i]?).bind fun bsscfg =>
      let mac_idx := w.macaddr_list (macKey bsscfg.bssid)
      let list := if mac_idx.getD 0 < 0
        then Function.update w.macaddr_list (macKey bsscfg.bssid) (some (i : ℤ))
        else w.macaddr_list
      if mac_idx = some (i : ℤ) then some { w with macaddr_list := list }
      else
        -- `!mac_idx < 0` compares a truth value with 0 and does not hold
        (if bsscfg.default_macaddr then some i
          else mac_idx.bind (entryAt w.bss.length)).bind fun k =>
          (macaddr_next generate list i).map fun next =>
            { w with bss := setBssid w.bss k (some next.1), macaddr_list := next.2 }

/-- Step 7 for BSS i. -/
def fill (w : Work) (i : ℕ) : Option Work :=
  if (w.bss_list i).isSome then some w
  else
    (w.bss[i]?).bind fun bss => (add_bss w.running w.next bss).map fun running =>
      { w with
        bss_list := Function.update w.bss_list i (some w.next)
        running := running
        next := w.next + 1 }

/-- `bss_reload_psk`: what runs, and the old configuration. -/
def bss_reload_psk (running : List Running) (bss : ℕ) (config old_config : Bss) :
    List Running × Bss :=
  if old_config.hash.wpa_psk_file = config.hash.wpa_psk_file then (running, old_config)
  else
    let old_config := { old_config with
      hash := { old_config.hash with wpa_psk_file := config.hash.wpa_psk_file } }
    if old_config ≠ config then (running, old_config)
    else (configure running bss config.reload_wpa_psk, old_config)

/-- The hash of what `bss.ctrl("GET_RXKHS")` replies; without keys that is an empty text. -/
def rxkhsHash (env : Env) (running : List Running) (bss : ℕ) : String :=
  ((running.find? fun r => r.id = bss).bind fun r => r.conf.files.rxkh_file).getD (env.sha1 "")

/-- `bss_reload_rxkhs`: what runs, and the old configuration. -/
def bss_reload_rxkhs (env : Env) (running : List Running) (bss : ℕ) (config old_config : Bss) :
    List Running × Bss :=
  if config.hash.rxkh_file = some (rxkhsHash env running bss) ∧
      old_config.hash.rxkh_file = config.hash.rxkh_file then (running, old_config)
  else
    let old_config := { old_config with
      hash := { old_config.hash with rxkh_file := config.hash.rxkh_file } }
    if old_config ≠ config then (running, old_config)
    else (configure running bss config.reload_rxkhs, old_config)

/-- Step 9 for a BSS that was carried over from an old one. -/
def updated (env : Env) (running : List Running) (bss : ℕ) (config old_config : Bss) :
    List Running :=
  if config = old_config then running
  else if bss_remove_file_fields config = bss_remove_file_fields old_config then
    configure (configure running bss config.set_files) bss config.reload_wpa_psk
  else
    let psk := bss_reload_psk running bss config old_config
    let rxkhs := bss_reload_rxkhs env psk.1 bss config psk.2
    if config = rxkhs.2 then rxkhs.1 else configure rxkhs.1 bss config.set_config

/-- Step 9 for BSS i. -/
def update (env : Env) (w : Work) (i : ℕ) : Option Work :=
  match w.bss_list i, w.bss_list_cfg i with
  | some bss, some cfg =>
    (w.bss[i]?).bind fun cur => (w.old[cfg]?).map fun prev =>
      { w with running := updated env w.running bss cur prev }
  | _, _ => some w

/-- The variables at the start. -/
def Work.init (env : Env) (mld : List String) (bss old : List Bss) (running : List Running) :
    Work where
  bss := bss
  old := old
  macaddr_list := iface_config_macaddr_list mld bss
  prev_bss_hash := old.map fun b => some (bss_config_hash env b.data)
  bss_list := fun _ => none
  bss_list_cfg := fun _ => none
  running := running
  next := freshId running
  rename_list := []

/-- Steps 1 and 2. -/
def findReused (env : Env) (config : Config) (w : Work) : Option Work :=
  ((List.range config.bss.length).foldlM (reuse env) w).bind fun w =>
    if config.mbssid.getD 0 ≠ 0 ∧ w.bss_list_cfg 0 = none then none
    else if ∀ i < config.bss.length, w.bss_list i = none then keepFirst w else some w

/-- Steps 3 to 5. -/
def renameAll (env : Env) (config : Config) (w : Work) : Option Work :=
  ((List.range w.prev_bss_hash.length).foldlM deleteUnused w).bind fun w =>
    ((List.range config.bss.length).foldlM (renameFirst env) w).bind fun w =>
      w.rename_list.foldlM renameAgain w

/-- Step 6. -/
def assignAll (env : Env) (config : Config) (w : Work) : Option Work :=
  (List.range config.bss.length).foldlM (assign (generate env config))
    { w with macaddr_list := macaddr_init env.wdevs w.macaddr_list }

/-- Steps 7 to 9. -/
def bringUp (env : Env) (config : Config) (w : Work) : Option Work :=
  ((List.range config.bss.length).foldlM fill w).bind fun w =>
    (set_bss_order w.running ((List.range config.bss.length).filterMap w.bss_list)).bind
      fun running => (List.range config.bss.length).foldlM (update env) { w with running := running }

/-- What a reload leaves: the new configuration with its addresses, the old BSS that each BSS was,
and what runs. -/
structure Outcome where
  bss : List Bss
  reused : ℕ → Option ℕ
  running : List Running

/-- `iface_reload_config`; `none` if it returns false.  `pending` says whether a bring-up is
registered for the interface, and `iface`, if there is one, whether its state is `ENABLED`. -/
def iface_reload_config (env : Env) (mld : List String) (pending : Bool) (iface : Option Bool)
    (config : Config) (old_config : Option Config) (running : List Running) : Option Outcome :=
  old_config.bind fun old_config =>
    if old_config.radio ≠ config.radio then none
    else if old_config.bss = config.bss then
      some ⟨config.bss, fun i => if i < config.bss.length then some i else none, running⟩
    else if pending ∨ iface ≠ some true ∨ get_config_bss old_config.bss running 0 = none then none
    else
      (findReused env config (Work.init env mld config.bss old_config.bss running)).bind fun w =>
        (renameAll env config w).bind fun w =>
          (assignAll env config w).bind fun w =>
            (bringUp env config w).map fun w => ⟨w.bss, w.bss_list_cfg, w.running⟩

/-- A BSS with a default address gets the next one. -/
def restartOne (generate : ℕ → Option String) (s : List Bss × MacaddrList) (i : ℕ) :
    List Bss × MacaddrList :=
  match s.1[i]? with
  | none => s
  | some bss =>
    if bss.default_macaddr then
      match macaddr_next generate s.2 (-1) with
      | some (addr, list) => (setBssid s.1 i (some addr), list)
      | none => (setBssid s.1 i none, s.2)
    else s

/-- The addresses that `iface_restart` assigns. -/
def restartBssids (env : Env) (mld : List String) (config : Config) : List Bss :=
  ((List.range config.bss.length).foldl (restartOne (generate env config))
    (config.bss, macaddr_init env.wdevs (iface_config_macaddr_list mld config.bss))).1

end Ap
