import Mt798x.Lib.Objects

/-!
# Wireless devices

wireless-device.uc runs the handler scripts of the wireless devices.  Here is what happens to one
device: each function gives the device afterwards, the operation that it queues for it
(`run_handler`), and the calls of `interface_handle_link`.

`run_handler` is always the last thing a function does, so that running the next handler is a step
of its own (see `Mt798x.Wireless.Handlers`).  Of the parts of a configuration only the networks
matter; what netifd knows of the networks is up to the world (`Env`).
-/

namespace Wireless

inductive State where
  | down | setup | up | teardown
  deriving DecidableEq, Repr

/-- The operations of a handler script. -/
inductive Op where
  | setup | teardown
  deriving DecidableEq, Repr

/-- The configuration of a vif or a vlan; `rest` stands for its other fields. -/
structure IfConfig where
  network : List String
  rest : ℕ
  deriving DecidableEq

structure Vlan where
  name : String
  config : IfConfig
  deriving DecidableEq

structure Vif where
  name : String
  config : IfConfig
  vlan : List Vlan
  sta : ℕ
  deriving DecidableEq

/-- The data of a device. -/
structure DevData where
  config : ℕ
  vif : List Vif
  deriving DecidableEq

/-- What a handler script is run with; `bridge` stands for what `interface_get_bridge` has added.
The key of an interface, and of a vlan in it, is its position. -/
structure HandlerConfig where
  config : ℕ
  interfaces : List Vif
  bridge : ℕ

/-- What has been reported for the device, a vif or a vlan; the device has no configuration. -/
structure HData where
  ifname : Option String
  config : Option IfConfig
  deriving DecidableEq

/-- A call of `interface_handle_link`. -/
structure Link where
  net : String
  ifname : String
  up : Bool
  deriving DecidableEq

structure Env where
  /-- `interface_get_enabled`, with 0 for no interface index. -/
  enabled : String → Option (Bool × ℕ)
  bridge : ℕ

/-- A device.  `started` and `ran` say whether it has been started, and with what its last setup
script was run. -/
structure Wdev where
  name : String
  data : DevData
  autostart : Bool
  state : State
  delete : Bool
  config_change : Bool
  cancel_setup : Bool
  retry : ℤ
  retry_setup_failed : Bool
  disabled_vifs : Finset String
  ifindex_cache : String → Option ℕ
  handler_config : HandlerConfig
  handler_data : List (String × HData)
  procs : List ℕ
  started : Bool
  ran : Option HandlerConfig

/-- The device afterwards, unless it is deleted, the operation queued for it, and the calls of
`interface_handle_link`, the first one first. -/
structure Outcome where
  dev : Option Wdev
  queued : Option Op
  links : List Link

/-- Only the device changes. -/
def Wdev.only (d : Wdev) : Outcome := ⟨some d, none, []⟩

def Outcome.after (links : List Link) (r : Outcome) : Outcome := { r with links := links ++ r.links }

def DEFAULT_RETRY : ℤ := 3

/-! ## Links -/

/-- `handle_link`; without a configuration it raises an exception. -/
def handle_link (dev : String) (data : HData) (up : Bool) : Option (List Link) :=
  data.config.map fun config => config.network.map fun net => ⟨net, dev, up⟩

/-- `handle_link` for all that has been reported; an exception ends it. -/
def handle_links (up : Bool) : List (String × HData) → Bool × List Link
  | [] => (true, [])
  | (_, data) :: rest =>
    match data.ifname with
    | none => handle_links up rest
    | some ifname =>
      match handle_link ifname data up with
      | none => (false, [])
      | some links =>
        let r := handle_links up rest
        (r.1, links ++ r.2)

/-! ## Configuration -/

/-- The vifs of a device, each followed by its vlans, with their configurations. -/
def DevData.vifs (data : DevData) : List (String × IfConfig) :=
  data.vif.flatMap fun vif => (vif.name, vif.config) :: vif.vlan.map fun vlan => (vlan.name, vlan.config)

/-- Whether one of the networks is enabled, if any of them is known, and the interface index. -/
def network_state (env : Env) (network : List String) : Option Bool × Option ℕ :=
  network.foldl
    (fun (enabled, ifindex) net =>
      match env.enabled net with
      | none => (enabled, ifindex)
      | some (on, idx) =>
        (if on then some true else if enabled.isNone then some false else enabled,
          if idx ≠ 0 then some idx else ifindex))
    (none, none)

def wdev_update_disabled_vifs (env : Env) (d : Wdev) : Wdev :=
  let acc := d.data.vifs.foldl
    (fun (disabled, cache, changed) vif =>
      let (enabled, ifindex) := network_state env vif.2.network
      (if enabled = some false then insert vif.1 disabled else disabled,
        Function.update cache vif.1 ifindex,
        changed || (enabled ≠ some false && ifindex ≠ cache vif.1)))
    ((∅ : Finset String), d.ifindex_cache, false)
  { d with
    disabled_vifs := acc.1
    ifindex_cache := acc.2.1
    config_change := d.config_change || acc.2.2 || d.disabled_vifs ≠ acc.1 }

def wdev_config_init (env : Env) (d : Wdev) : Wdev :=
  { d with
    handler_config := ⟨d.data.config, d.data.vif.filter fun vif => vif.name ∉ d.disabled_vifs, env.bridge⟩
    handler_data := (d.handler_data.lookup d.name).toList.map fun data => (d.name, data) }

/-! ## Setup and teardown -/

def setup (d : Wdev) : Outcome :=
  if d.state ≠ .up ∧ d.state ≠ .down then d.only
  else if !d.autostart || d.retry_setup_failed then d.only
  else ⟨some { d with procs := [], config_change := false, state := .setup }, some .setup, []⟩

def teardown (d : Wdev) : Outcome :=
  let d := { d with cancel_setup := false }
  if d.state = .teardown ∨ d.state = .down then d.only
  else ⟨some { d with procs := [], state := .teardown }, some .teardown, []⟩

def wdev_setup_cb (env : Env) (d : Wdev) : Outcome :=
  if d.state ≠ .setup then
    if d.state = .up ∧ d.config_change then setup (wdev_config_init env d) else d.only
  else if d.retry > 0 then teardown { d with retry := d.retry - 1 }
  else teardown { d with retry_setup_failed := true }

def wdev_teardown_cb (d : Wdev) : Outcome :=
  let r := handle_links false d.handler_data
  if !r.1 then d.only.after r.2
  else
    let d := { d with handler_data := [], state := .down }
    if d.delete then ⟨none, none, r.2⟩ else (setup d).after r.2

/-! ## Calls -/

def wdev_reset (d : Wdev) : Wdev := { d with retry := DEFAULT_RETRY, retry_setup_failed := false }

def check (env : Env) (d : Wdev) : Outcome :=
  let d := wdev_update_disabled_vifs env d
  if !d.config_change then d.only else setup (wdev_config_init env d)

/-- `update`; `reconf` calls it without data. -/
def update (env : Env) (data : Option DevData) (d : Wdev) : Outcome :=
  match data with
  | none => check env { wdev_reset d with config_change := true }
  | some data =>
    if d.data = data then d.only
    else check env { wdev_reset { d with
      data := data, ifindex_cache := fun _ => none, delete := false } with config_change := true }

def start (env : Env) (d : Wdev) : Outcome :=
  if d.delete then d.only
  else
    let d := wdev_reset { d with autostart := true, started := true }
    if d.state ≠ .down then d.only
    else
      let d := wdev_update_disabled_vifs env d
      setup (if d.config_change then wdev_config_init env d else d)

def retry_setup (env : Env) (d : Wdev) : Outcome :=
  if d.delete then d.only
  else if d.state ≠ .down ∨ !d.autostart then d.only
  else start env d

def stop (d : Wdev) : Outcome :=
  let d := { d with autostart := false }
  match d.state with
  | .setup => { d with cancel_setup := true }.only
  | .up => teardown d
  | _ => d.only

def destroy (d : Wdev) : Outcome :=
  let d := { d with autostart := false, delete := true }
  if d.state ≠ .down then stop d else ⟨none, none, []⟩

/-! ## Notifications -/

def wdev_mark_up (d : Wdev) : Outcome :=
  if d.state ≠ .setup then d.only
  else
    let r := handle_links true d.handler_data
    if !r.1 then d.only.after r.2 else { d with state := .up }.only.after r.2

/-- The key under which something is reported, with its configuration. -/
def report_key (d : Wdev) (vif vlan : Option ℕ) : Option (String × Option IfConfig) :=
  match vif, vlan with
  | none, none => some (d.name, none)
  | none, some _ => none
  | some i, none => d.handler_config.interfaces[i]?.map fun vif => (vif.name, some vif.config)
  | some i, some j => d.handler_config.interfaces[i]?.bind fun vif =>
    vif.vlan[j]?.map fun vlan => (vif.name ++ "/" ++ vlan.name, some vlan.config)

def wdev_set_data (vif vlan : Option ℕ) (ifname : Option String) (d : Wdev) : Wdev :=
  match report_key d vif vlan with
  | none => d
  | some (key, config) => { d with handler_data := Objects.put d.handler_data key ⟨ifname, config⟩ }

/-- The notifications of a script, with the interface and the vlan that they are about. -/
inductive Notify where
  | up (vif vlan : Option ℕ)
  | set_data (vif vlan : Option ℕ) (ifname : Option String)
  | process_add (pid : Option ℕ)
  | set_retry (retry : Option ℤ)
  | other

def notify (req : Notify) (d : Wdev) : Outcome :=
  match req with
  | .up vif vlan => if vif.isSome ∨ vlan.isSome ∨ d.state ≠ .setup then d.only else wdev_mark_up d
  | .set_data vif vlan ifname => (wdev_set_data vif vlan ifname d).only
  | .process_add pid =>
    if d.state ≠ .setup ∧ d.state ≠ .up then d.only else { d with procs := d.procs ++ pid.toList }.only
  | .set_retry retry => { d with retry := retry.getD DEFAULT_RETRY }.only
  | .other => d.only

/-- `wdev_proc_check` finds that a process is not there any more. -/
def proc_dead (pid : ℕ) (d : Wdev) : Outcome := if pid ∈ d.procs then teardown d else d.only

/-- `new` -/
def new_wdev (env : Env) (name : String) (data : DevData) : Wdev :=
  wdev_config_init env (wdev_update_disabled_vifs env {
    name := name
    data := data
    autostart := true
    state := .down
    delete := false
    config_change := false
    cancel_setup := false
    retry := 0
    retry_setup_failed := false
    disabled_vifs := ∅
    ifindex_cache := fun _ => none
    handler_config := ⟨0, [], 0⟩
    handler_data := []
    procs := []
    started := false
    ran := none })

end Wireless
