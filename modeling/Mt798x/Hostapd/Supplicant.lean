import Mt798x.Lib.Objects

/-!
# Multi-link interfaces of the supplicant

wpa_supplicant.uc keeps the interfaces of each phy and the multi-link (MLD) interfaces, which use
several radios of one phy.  For each MLD interface three bit masks say which radios it may use, on
which of them it is to be brought up (`radio_mask_present`), and on which it is
(`radio_mask_up`).

Addresses and the list of frequencies do not matter here.  Whether a phy can be opened and whether
wpa_supplicant accepts an interface is up to the world (`Env`).
-/

namespace Wpas

/-- A configuration of an interface; `data` stands for its other fields, with the file it names. -/
structure Config where
  iface : String
  mlo : Bool
  data : ℕ
  deriving DecidableEq

/-- A configuration of an MLD interface; `data` stands for its other fields. -/
structure MldConfig where
  phy : String
  radios : List (Option ℕ)
  data : ℕ
  deriving DecidableEq

structure Mld where
  config : MldConfig
  phy_config : ℕ → Option Config
  radio_mask : BitVec 64
  radio_mask_up : BitVec 64
  radio_mask_present : BitVec 64

def Mld.phy (d : Mld) : String := d.config.phy

/-- An interface of a phy that is not an MLD interface. -/
structure Iface where
  config : Config
  running : Bool

structure Phy where
  name : String
  radio : Option ℕ
  data : List (String × Iface)

/-- How an interface has come into the table of wpa_supplicant: as an MLD interface, with its
`radio_mask_present` of that moment, or as another one. -/
inductive Added where
  | mld (present : BitVec 64)
  | plain
  deriving DecidableEq

/-- An MLD interface has been started or removed, and the phy for which this was requested. -/
structure Entry where
  name : String
  phy : String
  request : Option String
  deriving DecidableEq

/-- `wpas.interfaces`, and what has been done to MLD interfaces; the last entry is first. -/
structure Table where
  interfaces : String → Option Added
  log : List Entry

structure World where
  config : String → Option Phy
  mld : List (String × Mld)
  mld_pending : Bool
  table : Table

structure Env where
  /-- `phy_open` works for the phy of this configuration. -/
  opened : String → Bool
  /-- wpa_supplicant accepts the interface. -/
  added : String → Bool

/-! ## Interfaces of a phy -/

/-- The interface as it stands after `iface_cb` with its old one. -/
def iface_cb (new_if : Iface) : Option Iface → Iface
  | none => new_if
  | some old_if => if old_if.config = new_if.config then { new_if with running := old_if.running }
    else new_if

/-- `iface_cb` leads to `iface_stop` of the old interface, which is running. -/
def iface_cb_stops (new_if : Option Iface) (old_if : Option Iface) : Bool :=
  match new_if, old_if with
  | some new_if, some old_if => old_if.config ≠ new_if.config && old_if.running
  | none, some old_if => old_if.running
  | _, none => false

/-- `update` of a vlist: the new data, and the interfaces that are stopped. -/
def vlist_update (values data : List (String × Iface)) : List (String × Iface) × List String :=
  let acc := values.foldl
    (fun (old_data, new_data, data) (cur_key, cur_obj) =>
      (Function.update old_data cur_key (data.lookup cur_key), Objects.put new_data cur_key cur_obj,
        Objects.del data cur_key))
    ((fun _ => none : String → Option Iface), ([] : List (String × Iface)), data)
  let removed := acc.2.2.filter fun e => iface_cb_stops none (some e.2)
  let changed := acc.2.1.filter fun e => iface_cb_stops (some e.2) (acc.1 e.1)
  (acc.2.1.map fun e => (e.1, iface_cb e.2 (acc.1 e.1)), (removed ++ changed).map Prod.fst)

namespace Table

/-- `wpas.remove_iface` -/
def remove_iface (t : Table) (name : String) : Table :=
  { t with interfaces := Function.update t.interfaces name none }

/-- `wpas.add_iface`, if wpa_supplicant accepts the interface. -/
def insert (t : Table) (name : String) (how : Added) : Table :=
  { t with interfaces := Function.update t.interfaces name (some how) }

/-- `wpas.add_iface`; without a configuration it fails. -/
def add_iface (env : Env) (t : Table) (how : Added) : Option Config → Table
  | none => t
  | some cfg => if env.added cfg.iface then t.insert cfg.iface how else t

def note (t : Table) (name : String) (data : Mld) (request : Option String) : Table :=
  { t with log := ⟨name, data.phy, request⟩ :: t.log }

end Table

/-! ## MLD interfaces -/

/-- `1 << radio` -/
def bit : Option ℕ → BitVec 64
  | none => 1#64
  | some r => 1#64 <<< r

section

variable (env : Env) (config : String → Option Phy) (request : Option String)

def mld_remove (name : String) (data : Mld) (t : Table) : Mld × Table :=
  if data.radio_mask_up = 0#64 then (data, t)
  else ({ data with radio_mask_up := 0#64 }, (t.note name data request).remove_iface name)

/-- The lowest radio that is present. -/
def mld_first_phy (data : Mld) : Option ℕ :=
  (List.range 64).find? fun i => data.radio_mask_present.getLsbD i

def phy_dev_open (phy_name : String) : Bool := (config phy_name).isSome && env.opened phy_name

def mld_add (name : String) (data : Mld) (t : Table) : Mld × Table :=
  match mld_first_phy data with
  | none => (data, t)
  | some radio =>
    if !phy_dev_open env config (data.phy ++ "." ++ toString radio) then (data, t)
    else
      let t := (t.note name data request).add_iface env (.mld data.radio_mask_present)
        (data.phy_config radio)
      if (t.interfaces name).isNone then (data, t.remove_iface name)
      else ({ data with radio_mask_up := data.radio_mask_present }, t)

def mld_remove_links (name : String) (data : Mld) (t : Table) : Mld × Table :=
  mld_remove request name data t

def mld_add_links (name : String) (data : Mld) (t : Table) : Mld × Table :=
  let r := mld_remove request name data t
  mld_add env config request name r.1 r.2

def mld_set_iface_config (data : Mld) (radio : Option ℕ) (cfg : Option Config) : Mld :=
  { data with
    phy_config := match radio with
      | none => data.phy_config
      | some r => Function.update data.phy_config r cfg
    radio_mask_present :=
      if cfg.isSome then data.radio_mask_present ||| bit radio
      else data.radio_mask_present &&& ~~~bit radio }

def mld_update_iface (name : String) (data : Mld) (t : Table) : Mld × Table :=
  if data.radio_mask_up = 0#64 then (data, t)
  else if data.radio_mask_present = 0#64 then mld_remove request name data t
  else if data.radio_mask_up &&& ~~~data.radio_mask_present = 0#64 then (data, t)
  else mld_remove_links request name data t

/-- `for (let name, data in wpas.data.mld)` -/
def forMld (f : String → Mld → Table → Mld × Table) :
    List (String × Mld) → Table → List (String × Mld) × Table
  | [], t => ([], t)
  | (name, data) :: rest, t =>
    let r := f name data t
    let rs := forMld f rest r.2
    ((name, r.1) :: rs.1, rs.2)

/-- One turn of the loop of `mld_start`. -/
def mld_start_one (name : String) (data : Mld) (t : Table) : Mld × Table :=
  if data.radio_mask_present &&& ~~~data.radio_mask_up = 0#64 then (data, t)
  else if data.radio_mask_up = 0#64 then mld_add env config request name data t
  else mld_add_links env config request name data t

/-- One turn of the loop of `mld_update_phy`. -/
def mld_update_phy_one (phy_name : String) (radio : Option ℕ) (ifaces : String → Option Config)
    (name : String) (data : Mld) (t : Table) : Mld × Table :=
  if data.phy ≠ phy_name then (data, t)
  else mld_update_iface request name (mld_set_iface_config data radio (ifaces name)) t

/-- One turn of the loop of `phy_set_state` with `stop`. -/
def phy_stop_one (radio_mask : BitVec 64) (name : String) (data : Mld) (t : Table) : Mld × Table :=
  let data := { data with radio_mask_present := data.radio_mask_present &&& ~~~radio_mask }
  if data.radio_mask_up &&& radio_mask = 0#64 then (data, t)
  else mld_update_iface request name data t

end

/-- What `phy_set_state` without `stop` does to the mask of an MLD interface. -/
def phy_start_mask (radio_mask : BitVec 64) (data : Mld) : Mld :=
  if data.radio_mask &&& radio_mask = 0#64 then data
  else { data with radio_mask_present := data.radio_mask_present ||| radio_mask }

/-! ## Requests -/

namespace World

def mld_start (env : Env) (request : Option String) (s : World) : World :=
  if s.mld_pending then s
  else
    let r := forMld (mld_start_one env s.config request) s.mld s.table
    { s with mld := r.1, table := r.2 }

def start_pending (env : Env) (phy_name : String) (s : World) : World :=
  match s.config phy_name with
  | none => s
  | some phy =>
    if !env.opened phy_name then s
    else
      let started := phy.data.filter fun e => !e.2.running
      { s with
        config := Function.update s.config phy_name
          (some { phy with data := phy.data.map fun e => (e.1, { e.2 with running := true }) })
        table := started.foldl (fun t e => t.add_iface env .plain (some e.2.config)) s.table }

/-- `iface_stop` for all interfaces of a phy. -/
def iface_stop_all (phy_name : String) (phy : Phy) (s : World) : World :=
  { s with
    config := Function.update s.config phy_name
      (some { phy with data := phy.data.map fun e => (e.1, { e.2 with running := false }) })
    table := (phy.data.filter fun e => e.2.running).foldl (fun t e => t.remove_iface e.1) s.table }

end World

/-- `phy_name` for a phy that is not empty, with a radio that is not negative. -/
def name_of (phy : String) : Option ℕ → String
  | none => phy
  | some r => phy ++ "." ++ toString r

/-- A negative radio is none. -/
def radio_of : Option ℤ → Option ℕ
  | some (.ofNat r) => some r
  | _ => none

/-- `mlo_ifaces`: of the configurations of one name the last one counts. -/
def mlo_ifaces (config_list : List Config) (name : String) : Option Config :=
  config_list.reverse.find? fun c => c.mlo && c.iface = name

/-- The object of a phy, with its radio; a new one has no interfaces yet. -/
def phy_object (old : Option Phy) (phy_name : String) (radio : Option ℕ) : Phy :=
  match old with
  | none => ⟨phy_name, radio, []⟩
  | some phy => { phy with radio := radio }

def set_config (config_name phy_name : String) (radio : Option ℕ) (config_list : List Config)
    (s : World) : World :=
  let phy := phy_object (s.config config_name) phy_name radio
  let values := (config_list.filter fun c => !c.mlo).map fun c => (c.iface, Iface.mk c false)
  let r := forMld (mld_update_phy_one (some phy_name) phy.name phy.radio (mlo_ifaces config_list))
    s.mld s.table
  let u := vlist_update values phy.data
  { s with
    config := Function.update s.config config_name (some { phy with data := u.1 })
    mld := r.1
    table := u.2.foldl Table.remove_iface r.2 }

/-- The keys of an object are different. -/
abbrev MldObject := { entries : List (String × MldConfig) // (entries.map Prod.fst).Nodup }

def new_mld (data : MldConfig) : Mld where
  config := data
  phy_config _ := none
  radio_mask := data.radios.foldl (fun mask r => if r.isSome then mask ||| bit r else mask) 0#64
  radio_mask_up := 0#64
  radio_mask_present := 0#64

/-- The MLD interface that a configuration leaves as it is. -/
def kept (mld : List (String × Mld)) (name : String) (data : MldConfig) : Option Mld :=
  (mld.lookup name).filter fun prev => prev.config = data

def mld_set_config (config : MldObject) (s : World) : World :=
  let prev_mld := s.mld.filter fun e => !(config.1.lookup e.1).any fun data => e.2.config = data
  { s with
    mld := config.1.map fun e => (e.1, (kept s.mld e.1 e.2).getD (new_mld e.2))
    table := (forMld (mld_remove none) prev_mld s.table).2 }

/-- The requests; `timer` is the one that `config_set` starts if it is not deferred. -/
inductive Event where
  | mld_set (config : MldObject)
  | config_set (phy : String) (radio : Option ℤ) (config : Option (List Config))
  | timer (name : String) (env : Env)
  | phy_set_state (phy : String) (radio : Option ℤ) (stop : Option Bool) (env : Env)
  | mld_start (env : Env)

/-- `phy.radio != null ? (1 << phy.radio) : 0` -/
def radio_mask_of (cfg : Phy) : BitVec 64 :=
  match cfg.radio with
  | none => 0#64
  | some r => bit (some r)

/-- `phy_set_state` with `stop`. -/
def phy_stop (phy name : String) (cfg : Phy) (s : World) : World :=
  let radio_mask := radio_mask_of cfg
  let s := s.iface_stop_all name cfg
  let r := forMld (phy_stop_one (some phy) radio_mask) s.mld s.table
  { s with mld := r.1, table := r.2 }

/-- `phy_set_state` without `stop`. -/
def phy_start (phy name : String) (cfg : Phy) (env : Env) (s : World) : World :=
  let radio_mask := radio_mask_of cfg
  let s := s.start_pending env name
  let found := s.mld.any fun e => e.2.radio_mask &&& radio_mask ≠ 0#64
  let s := { s with mld := s.mld.map fun e => (e.1, phy_start_mask radio_mask e.2) }
  if found then s.mld_start env (some phy) else s

def phy_set_state (phy : String) (radio : Option ℤ) (stop : Option Bool) (env : Env) (s : World) :
    World :=
  let name := name_of phy (radio_of radio)
  match s.config name with
  | none => s
  | some cfg =>
    match stop with
    | none => s
    | some true => phy_stop phy name cfg s
    | some false => phy_start phy name cfg env s

def step (s : World) : Event → World
  | .mld_set config => mld_set_config config { s with mld_pending := true }
  | .config_set phy radio config =>
    match config with
    | none => s
    | some config_list =>
      if phy = "" then s
      else set_config (name_of phy (radio_of radio)) phy (radio_of radio) config_list s
  | .timer name env => s.start_pending env name
  | .phy_set_state phy radio stop env =>
    if phy = "" then s else phy_set_state phy radio stop env s
  | .mld_start env => { s with mld_pending := false }.mld_start env none

/-- wpa_supplicant after its start. -/
def World.init : World where
  config _ := none
  mld := []
  mld_pending := false
  table := ⟨fun _ => none, []⟩

end Wpas
