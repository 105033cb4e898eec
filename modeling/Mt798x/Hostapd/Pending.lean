import Mathlib

/-!
# Bringing up the access points of a phy

hostapd asks wpa_supplicant for the state of a phy before it adds its interfaces, and stops the
supplicant's interfaces for the time of it if they are not connected.  A bring-up is an object that
waits for the reply to one request after the other; a new configuration aborts it.  Requests are
deferred calls, each with a callback that an abort takes away.

What wpa_supplicant replies, whether a call can be made at all, whether an interface can be added
and where an exception is raised is up to the world (`Env`).
-/

namespace Hostapd

/-- The states of a bring-up. -/
inductive PState where
  | init | create_bss | check_phy | wpas_stopped | done
  deriving DecidableEq, Repr

/-- What the world does while a bring-up runs. -/
structure Env where
  /-- An exception is raised in this state. -/
  throws : PState → Bool
  /-- `ubus.defer` gives a request in this state. -/
  deferred : PState → Bool
  /-- `iface_add` succeeds in this state. -/
  added : PState → Bool
  /-- The error of `wdev_create`, if there is one. -/
  create : Option String

/-- A bring-up.  Of its configuration only the first BSS matters. -/
structure Pending where
  phy : String
  mld_ap : Bool
  next_state : Option PState
  defer : Option ℕ
  deriving DecidableEq

/-- The bring-ups that there have been, with the one that is registered for each phy, and the calls
that have been made, with those whose callback is there. -/
@[ext]
structure World where
  pending_config : String → Option ℕ
  objs : ℕ → Pending
  nextObj : ℕ
  owner : ℕ → ℕ
  nextCall : ℕ
  outstanding : Finset ℕ
  /-- The requests `phy_set_state`, with the phy and `stop`; the last one is first. -/
  log : List (String × Bool)

namespace World

def update (s : World) (o : ℕ) (f : Pending → Pending) : World :=
  { s with objs := Function.update s.objs o (f (s.objs o)) }

def setState (s : World) (o : ℕ) (st : Option PState) : World :=
  s.update o fun p => { p with next_state := st }

/-- `pending.defer.abort()` and `delete pending.defer`. -/
def abortDefer (s : World) (o : ℕ) : World :=
  match (s.objs o).defer with
  | none => s
  | some c =>
    { s with outstanding := s.outstanding.erase c }.update o fun p => { p with defer := none }

/-- `hostapd.printf` apart, the request as such. -/
def phy_set_state (s : World) (o : ℕ) (stop : Bool) : World :=
  { s with log := ((s.objs o).phy, stop) :: s.log }

end World

/-- A deferred call; without a request nothing will call back. -/
def iface_pending_ubus_call (s : World) (o : ℕ) (deferred : Bool) : World :=
  if deferred then
    { s with
      owner := Function.update s.owner s.nextCall o
      nextCall := s.nextCall + 1
      outstanding := insert s.nextCall s.outstanding }.update o
        fun p => { p with defer := some s.nextCall }
  else s

/-- `wdev_add` of a phy device: it calls `wdev_create` and returns nothing. -/
def wdev_add (_err : Option String) : Option String := none

/-- `__iface_pending_next`: one state of a bring-up, and the state that follows, if there is one.
An exception leaves what has been done so far. -/
def iface_pending_next_in (env : Env) (completed : Bool) (o : ℕ) (state : PState) (s : World) :
    Except World (World × Option PState) :=
  let s := s.abortDefer o
  if env.throws state && state ≠ .done then .error s
  else
    match state with
    | .init => .ok (s, some .create_bss)
    | .create_bss =>
      if !(s.objs o).mld_ap && (wdev_add env.create).isSome then .ok (s, none)
      else .ok (iface_pending_ubus_call s o (env.deferred .create_bss), some .check_phy)
    | .check_phy =>
      if completed && env.added .check_phy then .ok (s, some .done)
      else
        .ok (iface_pending_ubus_call (s.phy_set_state o true) o (env.deferred .check_phy),
          some .wpas_stopped)
    | .wpas_stopped =>
      .ok (iface_pending_ubus_call (s.phy_set_state o false) o (env.deferred .wpas_stopped), none)
    | .done =>
      .ok ({ s with pending_config := Function.update s.pending_config (s.objs o).phy none }, none)

/-- `__iface_pending_next(cfg, "done")`. -/
def iface_pending_done (o : ℕ) (s : World) : World :=
  let s := s.abortDefer o
  { s with pending_config := Function.update s.pending_config (s.objs o).phy none }

/-- The loop of `iface_pending_next`: it goes on as long as no call is outstanding. -/
def iface_pending_loop (env : Env) (completed : Bool) (o : ℕ) : ℕ → World → World
  | 0, s => s
  | turns + 1, s =>
    match (s.objs o).next_state with
    | none => iface_pending_done o (iface_pending_done o s)
    | some state =>
      match iface_pending_next_in env completed o state s with
      | .error s => s
      | .ok (s, none) => iface_pending_done o (s.setState o none)
      | .ok (s, some next_state) =>
        let s := s.setState o (some next_state)
        if (s.objs o).defer.isSome then s else iface_pending_loop env completed o turns s

/-- `pending.next()`; no state comes twice, so that five turns are enough. -/
def iface_pending_next (env : Env) (completed : Bool) (o : ℕ) (s : World) : World :=
  iface_pending_loop env completed o 5 s

def iface_pending_abort (env : Env) (o : ℕ) (s : World) : World :=
  iface_pending_next env false o (s.setState o (some .done))

/-- The callback of a call: `delete pending.defer; pending.next(ret, data)`. -/
def iface_pending_reply (env : Env) (completed : Bool) (c : ℕ) (s : World) : World :=
  let o := s.owner c
  iface_pending_next env completed o
    ({ s with outstanding := s.outstanding.erase c }.update o fun p => { p with defer := none })

def iface_pending_init (env : Env) (phy : String) (mld_ap : Bool) (s : World) : World :=
  let o := s.nextObj
  iface_pending_next env false o { s with
    objs := Function.update s.objs o ⟨phy, mld_ap, some .init, none⟩
    nextObj := o + 1
    pending_config := Function.update s.pending_config phy (some o) }

/-- Brings up the interfaces of a configuration anew.  The addresses and the interfaces themselves
are not part of the model; `throws` says that something on the way raises an exception. -/
def iface_restart (env : Env) (throws : Bool) (phy : String) (mld_ap : Bool) (s : World) : World :=
  let s := match s.pending_config phy with
    | none => s
    | some o => iface_pending_abort env o s
  if throws then s else iface_pending_init env phy mld_ap s

/-- How a configuration differs from the one before. -/
inductive Change where
  /-- No configuration before, or another radio part. -/
  | radio
  /-- The same BSSes. -/
  | same
  /-- Other BSSes; whether they can be reloaded is the rest of `iface_reload_config`. -/
  | bss (reloaded : Bool)
  deriving DecidableEq

def iface_reload_config (change : Change) (phy : String) (s : World) : Bool :=
  match change with
  | .radio => false
  | .same => true
  | .bss reloaded => if (s.pending_config phy).isSome then false else reloaded

/-- What happens: a new configuration (whether the phy can be opened, the BSSes that are left after
`iface_check_mld`, each with `mld_ap`), or the reply to a call. -/
inductive Event where
  | set_config (phy : String) (opened : Bool) (bss : List Bool) (change : Change) (throws : Bool)
    (env : Env)
  | reply (c : ℕ) (completed : Bool) (env : Env)

def iface_set_config (phy : String) (opened : Bool) (bss : List Bool) (change : Change)
    (throws : Bool) (env : Env) (s : World) : World :=
  if !opened then s
  else
    match bss with
    | [] => s
    | mld_ap :: _ =>
      if iface_reload_config change phy s then s else iface_restart env throws phy mld_ap s

/-- A callback that has been taken away is not called any more. -/
def step (s : World) : Event → World
  | .set_config phy opened bss change throws env =>
    iface_set_config phy opened bss change throws env s
  | .reply c completed env =>
    if c ∈ s.outstanding then iface_pending_reply env completed c s else s

/-- hostapd after its start. -/
def World.init : World where
  pending_config _ := none
  objs _ := ⟨"", false, none, none⟩
  nextObj := 0
  owner _ := 0
  nextCall := 0
  outstanding := ∅
  log := []

end Hostapd
