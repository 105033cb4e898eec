import Mathlib

/-!
# The tables of unetmsgd

The daemon keeps two tables of handles that local clients have registered (`publish` and
`subscribe`), two tables of what the peers have registered (`remote_publish` and
`remote_subscribe`), and the channels to and from the peers of its networks.  This file has the
state and the functions of `unetmsgd.uc`.

An object of the language is an association list or, where only single keys are read and written,
a function.  The order in which an object is walked is not that of the source; nothing that is
modelled depends on it but the walk over the peers of a network, which are given in their order.
A message that is requested on a channel to another daemon waits in `txOut` or `rxOut` until that
daemon reads it; what is requested on the channel of a local client is recorded in `delivered`.
-/

namespace Unetmsg

abbrev Name := String
abbrev Host := String
abbrev Net := String

/-- `gen_id()` of a client, a handle, and the identity of a `sock_data` object. -/
abbrev Client := ℕ
abbrev HandleId := ℕ
abbrev SockId := ℕ

/-- The `gen_id()` that is sent with a hello. -/
abbrev Id := ℕ

/-- An object with keys in `κ`. -/
abbrev Obj (κ α : Type) := AList fun _ : κ => α

inductive Kind where
  | publish
  | subscribe
  deriving DecidableEq, Repr

/-- `req.info.acl` of a client. -/
structure AclInfo where
  user : String
  group : Option String
  deriving DecidableEq, Repr

/-- A client of unetmsgd-client: its rights, and its handles by name. -/
structure ClientData where
  acl : AclInfo
  handles : Kind → Obj Name HandleId

/-- A handle in `core.publish` or `core.subscribe`, under its `_id`. -/
structure Handle where
  id : HandleId
  client : Client
  deriving DecidableEq, Repr

/-- The data of a message or request.  The host and the network are those of the connection it
came in on.  The tag is not in the source: it tells one client message from another. -/
structure Data where
  name : Name
  type : String
  data : String
  host : Option Host
  network : Option Net
  tag : ℕ
  deriving DecidableEq, Repr

inductive Method where
  | message
  | request
  | publish
  deriving DecidableEq, Repr

/-- What is requested on the channel of a local client. -/
structure Delivery where
  client : Client
  method : Method
  data : Data
  deriving DecidableEq, Repr

/-- What is requested on a channel between two daemons.  An `auth` and a `reply` carry the token
that unetd has made for a network, a target and an id. -/
inductive Packet where
  | hello (id : Id)
  | auth (network : Net) (target : Host) (id : Option Id)
  | reply (network : Net) (target : Host) (id : Option Id)
  | set (kind : Kind) (name : Name) (enabled : Bool)
  | call (method : Method) (data : Data)
  deriving DecidableEq, Repr

structure Peer where
  address : String
  allowed : Option (List String)
  deriving DecidableEq, Repr

/-- The `sock_data` of an incoming connection, with the names registered over it. -/
structure RxSock where
  network : Net
  name : Host
  id : Option Id
  auth : Bool
  registered : Kind → List Name
  isOpen : Bool

/-- The `sock_data` of an outgoing connection.  Its `id` is never set. -/
structure TxSock where
  network : Net
  name : Host
  auth : Bool
  isOpen : Bool
  deriving DecidableEq, Repr

structure Network where
  localHost : Host
  localAddress : String
  peers : Obj Host Peer
  rxChannels : Obj Host SockId
  txChannels : Obj Host SockId

/-- The state of a daemon.  `names` are the keys of `core.publish` and `core.subscribe`, which
stay when their last handle goes, and `remoteNames` the keys of `core.remote_publish`. -/
structure Daemon where
  acl : Kind → String → List String
  clients : Client → Option ClientData
  names : Kind → List Name
  table : Kind → Name → List Handle
  remoteNames : List Name
  remote : Kind → Name → Obj Host Net
  networks : Obj Net Network
  rx : SockId → RxSock
  tx : SockId → TxSock
  rxOut : SockId → List Packet
  txOut : SockId → List Packet
  delivered : List Delivery
  next : ℕ

/-- The state in which the daemon starts. -/
def Daemon.init : Daemon where
  acl := fun _ _ => []
  clients := fun _ => none
  names := fun _ => []
  table := fun _ _ => []
  remoteNames := []
  remote := fun _ _ => ∅
  networks := ∅
  rx := fun _ => ⟨"", "", none, false, fun _ => [], false⟩
  tx := fun _ => ⟨"", "", false, false⟩
  rxOut := fun _ => []
  txOut := fun _ => []
  delivered := []
  next := 0

/-! ## Access rules -/

section Acl

-- `wildcard(subject, pattern, nocase)` of the language.
variable (wildcard : String → String → Bool → Bool)

/-- `__acl_check` -/
def aclMatch (list : List String) (name : Name) : Bool := list.any fun cur => wildcard name cur true

/-- The patterns for a user and its group. -/
def aclList (acl : Kind → String → List String) (kind : Kind) (info : AclInfo) : List String :=
  match info.group with
  | some group => if group = "" then acl kind info.user
      else acl kind info.user ++ acl kind (":" ++ group)
  | none => acl kind info.user

/-- `acl_check` -/
def aclCheck (acl : Kind → String → List String) (kind : Kind) (info : AclInfo)
    (names : List Name) : Bool :=
  info.user = "root" || names.all fun name => aclMatch wildcard (aclList acl kind info) name

/-- The test of a name against the `allowed` list of a peer. -/
def allowedBy (allowed : Option (List String)) (name : Name) : Bool :=
  match allowed with
  | none => true
  | some list => list.any fun cur => wildcard name cur false

/-- A rights object as ubus gives it. -/
structure AclEntry where
  obj : String
  user : Option String
  group : Option String
  publish : List String
  subscribe : List String

/-- `add_acl`; the list that is looked up in the list is not found there, so every entry is
added. -/
def addAcl (acl : String → List String) (user : Option String) (data : List String) :
    String → List String :=
  match user with
  | some user => if user = "" then acl else Function.update acl user (acl user ++ data)
  | none => acl

/-- One turn of the loop of `acl_set`. -/
def aclSetEntry (acl : Kind → String → List String) (cur : AclEntry) :
    Kind → String → List String :=
  if cur.obj = "unetmsg" then
    let group := cur.group.map fun group => if group = "" then "" else ":" ++ group
    [cur.user, group].foldl (fun acl user => fun kind =>
      match kind with
      | .publish => addAcl (acl .publish) user cur.publish
      | .subscribe => addAcl (addAcl (acl .subscribe) user cur.publish) user cur.subscribe) acl
  else acl

/-- `acl_set` -/
def aclSet (d : Daemon) (data : List AclEntry) : Daemon :=
  { d with acl := data.foldl aclSetEntry fun _ _ => [] }

end Acl

/-! ## Handles -/

/-- A channel that the loops of `pubsub_set` reach: the tx channel of a network to a host, when it
has been authenticated. -/
def Daemon.txReady (d : Daemon) (s : SockId) : Bool :=
  (d.tx s).auth && d.networks.entries.any fun net =>
    net.2.txChannels.entries.any fun chan => chan.2 = s

/-- `remote.pubsub_set` -/
def pubsubSet (d : Daemon) (kind : Kind) (name : Name) (enabled : Bool) : Daemon :=
  { d with txOut := fun s =>
      if d.txReady s then d.txOut s ++ [.set kind name enabled] else d.txOut s }

/-- `list[name] ??= {}` in one of the tables. -/
def addName (names : Kind → List Name) (kind : Kind) (name : Name) : Kind → List Name :=
  if name ∈ names kind then names else Function.update names kind (names kind ++ [name])

/-- The table with the handles of one name replaced. -/
def setTable (table : Kind → Name → List Handle) (kind : Kind) (name : Name)
    (list : List Handle) : Kind → Name → List Handle :=
  Function.update table kind (Function.update (table kind) name list)

/-- `new_handle` -/
def newHandle (d : Daemon) (kind : Kind) (name : Name) (client : Client) : Daemon :=
  { d with
    names := addName d.names kind name
    table := setTable d.table kind name (d.table kind name ++ [⟨d.next, client⟩])
    next := d.next + 1 }

/-- `pubsub_add`; the handle is the last one of its name. -/
def pubsubAdd (d : Daemon) (kind : Kind) (name : Name) (client : Client) : Daemon :=
  let d := if d.table kind name = [] ∨ kind = .publish then
      pubsubSet { d with names := addName d.names kind name } kind name true
    else d
  newHandle d kind name client

/-- `pubsub_del` -/
def pubsubDel (d : Daemon) (kind : Kind) (name : Name) (id : HandleId) : Daemon :=
  let list := (d.table kind name).filter fun h => h.id ≠ id
  let d := { d with table := setTable d.table kind name list }
  if list = [] ∨ kind = .publish then pubsubSet d kind name (list ≠ []) else d

/-! ## Delivery -/

/-- `get_handles`: the local handles and the remote ones.  A handle of the sender is given by its
client; `handle.id` is never set. -/
def getHandles (handle : Option Client) (locals : List Handle) (remote : Option (Obj Host Net))
    (host : Option Host) : List Handle × List (Host × Net) :=
  let remote := if host = some "" then some ∅ else remote
  let locals := if host = some "" ∨ host = none then locals else []
  let handles := locals.filter fun cur => handle ≠ some cur.client
  match remote with
  | none => (handles, [])
  | some remote =>
    (handles, (remote.entries.filter fun cur => host = none ∨ host = some cur.1).map
      fun cur => (cur.1, cur.2))

/-- What the handles of local clients are sent; a client that is gone has no channel. -/
def localDeliveries (d : Daemon) (method : Method) (data : Data) (handles : List Handle) :
    List Delivery :=
  (handles.filter fun h => (d.clients h.client).isSome).map fun h => ⟨h.client, method, data⟩

/-- `get_channel` of a remote handle. -/
def txChannel (d : Daemon) (remote : Host × Net) : Option SockId :=
  (d.networks.lookup remote.2).bind fun net => net.txChannels.lookup remote.1

/-- Requests on the channel of an outgoing connection. -/
def pushTx (d : Daemon) (s : SockId) (ps : List Packet) : Daemon :=
  { d with txOut := Function.update d.txOut s (d.txOut s ++ ps) }

/-- A request on the channel of a remote handle. -/
def sendRemote (d : Daemon) (p : Packet) (remote : Host × Net) : Daemon :=
  match txChannel d remote with
  | some s => pushTx d s [p]
  | none => d

/-- The common part of `handle_request` and `handle_message`: the receivers are the handles of one
kind, and the peers are included when `remote` is set. -/
def handleCall (kind : Kind) (method : Method) (d : Daemon) (handle : Option Client) (data : Data)
    (remote : Bool) (host : Option Host) : Daemon :=
  let handles := getHandles handle (d.table kind data.name)
    (if remote then some (d.remote kind data.name) else none) host
  let d := { d with delivered := d.delivered ++ localDeliveries d method data handles.1 }
  handles.2.foldl (fun d cur => sendRemote d (.call method data) cur) d

/-- `handle_request`, without the way of the replies. -/
def handleRequest : Daemon → Option Client → Data → Bool → Option Host → Daemon :=
  handleCall .publish .request

/-- `handle_message` -/
def handleMessage : Daemon → Option Client → Data → Bool → Option Host → Daemon :=
  handleCall .subscribe .message

/-- `handle_publish` -/
def handlePublish (d : Daemon) (handle : Option Client) (name : Name) : Daemon :=
  let handles := getHandles handle (d.table .subscribe name) none none
  { d with delivered := d.delivered ++
      localDeliveries d .publish ⟨name, "", "", none, none, 0⟩ handles.1 }

end Unetmsg
