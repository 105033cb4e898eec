import Mt798x.Unetmsg.Core
import Mt798x.Lib.Runs

/-!
# The daemon as a state machine

The functions of `unetmsgd-client.uc` and `unetmsgd-remote.uc`, and the step of a daemon for
every callback that can reach it.  An event carries the answers of the programs that the daemon
calls: what unetd's `token_parse` says about a token, whether `token_create` and the creation of a
socket succeed, and the networks that unetd reports.  Timers are events that can come at any time.
-/

namespace Unetmsg

/-! ## Clients -/

section Clients

variable (wildcard : String → String → Bool → Bool)

/-- `new` of unetmsgd-client. -/
def clientNew (d : Daemon) (acl : AclInfo) : Daemon :=
  { d with
    clients := Function.update d.clients d.next (some ⟨acl, fun _ => ∅⟩)
    next := d.next + 1 }

/-- One turn of the loop of `client_pubsub`. -/
def clientPubsubName (kind : Kind) (id : Client) (d : Daemon) (name : Name) : Daemon :=
  match d.clients id with
  | none => d
  | some cl =>
    if ((cl.handles kind).lookup name).isSome then d
    else
      let handle := d.next
      let d := pubsubAdd d kind name id
      let cl := { cl with
        handles := Function.update cl.handles kind ((cl.handles kind).insert name handle) }
      let d := { d with clients := Function.update d.clients id (some cl) }
      match kind with
      | .publish => handlePublish d (some id) name
      | .subscribe => d

/-- `client_pubsub`; the names are `none` when they are not an array of strings. -/
def clientPubsub (kind : Kind) (d : Daemon) (id : Client) (names : Option (List Name)) : Daemon :=
  match d.clients id, names with
  | some cl, some names =>
    if aclCheck wildcard d.acl kind cl.acl names then
      names.foldl (clientPubsubName kind id) d
    else d
  | _, _ => d

/-- `client_request` for a message; a client sends under a name that it has registered. -/
def clientMessage (d : Daemon) (id : Client) (data : Data) (host : Option Host) : Daemon :=
  match d.clients id with
  | none => d
  | some cl =>
    if ((cl.handles .publish).lookup data.name).isSome then
      handleMessage d (some id) data true host
    else d

/-- `client_request` for a request. -/
def clientRequest (d : Daemon) (id : Client) (data : Data) (host : Option Host) : Daemon :=
  match d.clients id with
  | none => d
  | some cl =>
    if ((cl.handles .subscribe).lookup data.name).isSome ∨
        aclCheck wildcard d.acl .subscribe cl.acl [data.name] then
      handleRequest d (some id) data true host
    else d

/-- One turn of the loops of `client_disconnect`. -/
def clientDropHandle (id : Client) (kind : Kind) (d : Daemon) (name : Name) (handle : HandleId) :
    Daemon :=
  match kind with
  | .publish => pubsubDel (handlePublish d (some id) name) .publish name handle
  | .subscribe => pubsubDel d .subscribe name handle

/-- `client_disconnect` -/
def clientDisconnect (d : Daemon) (id : Client) : Daemon :=
  match d.clients id with
  | none => d
  | some cl =>
    let d := [Kind.publish, Kind.subscribe].foldl (fun d kind =>
      (cl.handles kind).entries.foldl (fun d cur => clientDropHandle id kind d cur.1 cur.2) d) d
    { d with clients := Function.update d.clients id none }

end Clients

/-! ## Incoming connections -/

/-- What `token_parse` says about a token. -/
structure TokenData where
  host : Host
  user : String
  id : Option Id
  deriving DecidableEq, Repr

/-- A request on an incoming connection.  An `auth` has the answer of `token_parse` for its token
(`none` also when there is no token), the `id` of its arguments, and whether `token_create`
succeeds for the reply. -/
inductive RxMsg where
  | hello (id : Option Id)
  | auth (data : Option TokenData) (id : Option Id) (created : Bool)
  | set (kind : Kind) (name : Option Name) (enabled : Bool)
  | call (method : Method) (data : Data)
  | other
  deriving DecidableEq, Repr

def setRx (d : Daemon) (s : SockId) (sock : RxSock) : Daemon :=
  { d with rx := Function.update d.rx s sock }

def setTx (d : Daemon) (s : SockId) (sock : TxSock) : Daemon :=
  { d with tx := Function.update d.tx s sock }

/-- A request on the channel of an incoming connection. -/
def pushRx (d : Daemon) (s : SockId) (p : Packet) : Daemon :=
  { d with rxOut := Function.update d.rxOut s (d.rxOut s ++ [p]) }

def setNetwork (d : Daemon) (net : Net) (n : Network) : Daemon :=
  { d with networks := d.networks.insert net n }

/-- `network_rx_cleanup_state` -/
def networkRxCleanupState (d : Daemon) (host : Host) : Daemon :=
  (d.remoteNames.filter fun cur => ((d.remote .publish cur).lookup host).isSome).foldl
    (fun d cur => handlePublish d none cur)
    { d with remote := fun kind name => (d.remote kind name).erase host }

/-- `network_socket_close` of an incoming connection. -/
def closeRx (d : Daemon) (s : SockId) : Daemon := setRx d s { d.rx s with isOpen := false }

def closeTx (d : Daemon) (s : SockId) : Daemon := setTx d s { d.tx s with isOpen := false }

/-- `network_rx_socket_close` of a connection. -/
def rxSocketClose (d : Daemon) (s : SockId) : Daemon :=
  let net := (d.rx s).network
  let host := (d.rx s).name
  match d.networks.lookup net with
  | some n =>
    if n.rxChannels.lookup host = some s then
      closeRx (networkRxCleanupState
        (setNetwork d net { n with rxChannels := n.rxChannels.erase host }) host) s
    else closeRx d s
  | none => closeRx d s

/-- `network_rx_socket_close` -/
def networkRxSocketClose (d : Daemon) : Option SockId → Daemon
  | some s => rxSocketClose d s
  | none => d

/-- `network_tx_socket_close` of a connection. -/
def txSocketClose (d : Daemon) (s : SockId) : Daemon :=
  let net := (d.tx s).network
  let host := (d.tx s).name
  match d.networks.lookup net with
  | some n =>
    if n.txChannels.lookup host = some s then
      closeTx (setNetwork d net { n with txChannels := n.txChannels.erase host }) s
    else closeTx d s
  | none => closeTx d s

/-- `network_tx_socket_close` -/
def networkTxSocketClose (d : Daemon) : Option SockId → Daemon
  | some s => txSocketClose d s
  | none => d

/-- `network_auth_valid` -/
def networkAuthValid (host : Host) (id : Option Id) (data : Option TokenData) : Bool :=
  match data with
  | none => false
  | some data => data.host = host && data.user = "root" && data.id = id

/-- `network_check_auth` -/
def networkCheckAuth (d : Daemon) (s : SockId) (data : Option TokenData) : Daemon :=
  let net := (d.rx s).network
  let host := (d.rx s).name
  if networkAuthValid host (d.rx s).id data then
    match d.networks.lookup net with
    | none => d
    | some n =>
      if (n.peers.lookup host).isNone then d
      else
        let d := networkRxSocketClose d (n.rxChannels.lookup host)
        let d := networkRxCleanupState (setRx d s { d.rx s with auth := true }) host
        match d.networks.lookup net with
        | some n => setNetwork d net { n with rxChannels := n.rxChannels.insert host s }
        | none => d
  else d

section Requests

variable (wildcard : String → String → Bool → Bool)

/-- `tx_chan && tx_chan.auth` -/
def txAuth (d : Daemon) (n : Network) (host : Host) : Bool :=
  match n.txChannels.lookup host with
  | some t => (d.tx t).auth
  | none => false

/-- `handle_publish(null, name)` under a condition. -/
def notifyIf (cond : Bool) (d : Daemon) (name : Name) : Daemon :=
  if cond then handlePublish d none name else d

/-- The table of a name with the entry of a host changed. -/
def setRemote (d : Daemon) (kind : Kind) (name : Name) (obj : Obj Host Net) : Daemon :=
  { d with
    remoteNames := if kind = .publish ∧ name ∉ d.remoteNames then d.remoteNames ++ [name]
      else d.remoteNames
    remote := Function.update d.remote kind (Function.update (d.remote kind) name obj) }

/-- The list of a connection changed. -/
def setRegistered (d : Daemon) (s : SockId) (kind : Kind) (list : List Name) : Daemon :=
  setRx d s { d.rx s with registered := Function.update (d.rx s).registered kind list }

/-- A registration on an authenticated connection.  Without an entry for the peer the source
raises an exception. -/
def remoteSet (d : Daemon) (s : SockId) (n : Network) (kind : Kind) (name : Name) (enabled : Bool) :
    Daemon :=
  let sock := d.rx s
  let notify := txAuth d n sock.name && kind = .publish
  if enabled then
    if name ∈ sock.registered kind then notifyIf notify d name
    else
      match n.peers.lookup sock.name with
      | none => d
      | some peer =>
        if allowedBy wildcard peer.allowed name then
          let d := setRemote d kind name ((d.remote kind name).insert sock.name sock.network)
          setRegistered (notifyIf notify d name) s kind (name :: sock.registered kind)
        else d
  else if name ∈ sock.registered kind then
    let d := notifyIf (kind = .publish) d name
    let d := setRemote d kind name ((d.remote kind name).erase sock.name)
    setRegistered d s kind ((sock.registered kind).filter fun n => n ≠ name)
  else d

/-- `network_socket_handle_request` -/
def networkSocketHandleRequest (d : Daemon) (s : SockId) (msg : RxMsg) : Daemon :=
  let sock := d.rx s
  match d.networks.lookup sock.network with
  | none => d
  | some n =>
    match msg with
    | .set kind (some name) enabled =>
      if name = "" then d else remoteSet wildcard d s n kind name enabled
    | .call .request data =>
      handleRequest d none { data with host := some sock.name, network := some sock.network } false
        none
    | .call .message data =>
      handleMessage d none { data with host := some sock.name, network := some sock.network } false
        none
    | _ => d

/-- The request callback of an incoming connection. -/
def rxCallback (d : Daemon) (s : SockId) (msg : RxMsg) : Daemon :=
  if (d.rx s).isOpen then
    if (d.rx s).auth then networkSocketHandleRequest wildcard d s msg
    else
      match msg with
      | .hello id => setRx d s { d.rx s with id := id }
      | .auth data id created =>
        let d := networkCheckAuth d s data
        if (d.rx s).auth then
          if created then pushRx d s (.reply (d.rx s).network (d.rx s).name id) else d
        else rxSocketClose d s
      | _ => rxSocketClose d s
  else d

end Requests

/-- `network_accept`: the peer is the last one with the address. -/
def networkAccept (d : Daemon) (net : Net) (n : Network) (address : String) (id : Id) : Daemon :=
  match (n.peers.entries.filter fun cur => cur.2.address = address).getLast? with
  | none => d
  | some peer =>
    { setRx d d.next ⟨net, peer.1, some id, false, fun _ => [], true⟩ with
      rxOut := Function.update d.rxOut d.next [.hello id]
      next := d.next + 1 }

/-! ## Outgoing connections -/

/-- The new connection of `network_open_channel`. -/
def newTx (d : Daemon) (net : Net) (host : Host) : Daemon :=
  match d.networks.lookup net with
  | none => d
  | some n =>
    { setNetwork (setTx d d.next ⟨net, host, false, true⟩) net
        { n with txChannels := n.txChannels.insert host d.next } with
      txOut := Function.update d.txOut d.next []
      next := d.next + 1 }

/-- `network_open_channel`; `created` is whether a socket could be made. -/
def networkOpenChannel (d : Daemon) (net : Net) (host : Host) (created : Bool) : Daemon :=
  let d := networkTxSocketClose d (txChannel d (host, net))
  if created then newTx d net host else d

/-- The names that a channel is told when it comes up: all keys of the two tables. -/
def announcements (d : Daemon) : List Packet :=
  (d.names .publish).map (fun name => Packet.set .publish name true) ++
    (d.names .subscribe).map (fun name => Packet.set .subscribe name true)

/-- A channel comes up: it is authenticated and told the names. -/
def channelUp (d : Daemon) (s : SockId) : Daemon :=
  pushTx (setTx d s { d.tx s with auth := true }) s (announcements d)

/-- The names that the peer has published are notified when the channel to it comes up. -/
def notifyPublished (d : Daemon) (net : Net) (host : Host) : Daemon :=
  match (d.networks.lookup net).bind fun n => n.rxChannels.lookup host with
  | some r => ((d.rx r).registered .publish).foldl (fun d name => handlePublish d none name) d
  | none => d

/-- `auth_data_cb`; the `id` of an outgoing connection is never set. -/
def authDataCb (d : Daemon) (s : SockId) (data : Option TokenData) : Daemon :=
  if networkAuthValid (d.tx s).name none data then
    notifyPublished (channelUp d s) (d.tx s).network (d.tx s).name
  else d

/-- What an outgoing connection is told: a hello with the answer of `token_create`, any other
request, the answer to its `auth` with the answer of `token_parse`, the end of the `auth` request,
and the end of the connection. -/
inductive TxMsg where
  | hello (id : Option Id) (created : Bool)
  | other
  | reply (data : Option TokenData)
  | done
  | closed
  | timeout
  deriving DecidableEq, Repr

/-- The callbacks of an outgoing connection. -/
def txCallback (d : Daemon) (s : SockId) (msg : TxMsg) : Daemon :=
  if (d.tx s).isOpen then
    match msg with
    | .hello id created =>
      if (d.tx s).auth then d
      else if created then
        pushTx d s [.auth (d.tx s).network (d.tx s).name id]
      else txSocketClose d s
    | .other => if (d.tx s).auth then d else txSocketClose d s
    | .reply data => authDataCb d s data
    | .done => if (d.tx s).auth then d else txSocketClose d s
    | .closed => txSocketClose d s
    | .timeout => if (d.tx s).auth then d else txSocketClose d s
  else d

/-- One turn of the first loop of `network_connect_peers`. -/
def connectPeer (net : Net) (created : Host → Bool) (d : Daemon) (host : Host) : Daemon :=
  match txChannel d (host, net) with
  | some s => if (d.tx s).auth then d else networkOpenChannel d net host (created host)
  | none => networkOpenChannel d net host (created host)

/-- `network_connect_peers`; `created` tells for which hosts a socket could be made. -/
def networkConnectPeers (d : Daemon) (net : Net) (created : Host → Bool) : Daemon :=
  match d.networks.lookup net with
  | none => d
  | some n =>
    let d := n.peers.keys.foldl (connectPeer net created) d
    match d.networks.lookup net with
    | none => d
    | some n =>
      let d := (n.txChannels.entries.filter fun cur => cur.1 ∉ n.peers).foldl
        (fun d cur => txSocketClose d cur.2) d
      (n.rxChannels.entries.filter fun cur => cur.1 ∉ n.peers).foldl
        (fun d cur => rxSocketClose d cur.2) d

/-! ## Networks -/

structure Service where
  type : String
  members : List Host
  allowed : Option (List String)
  deriving DecidableEq, Repr

/-- A network as unetd reports it. -/
structure Info where
  localHost : Host
  localAddress : String
  peers : Obj Host Peer
  services : List Service

/-- `unetd_network_check_peers` -/
def unetdNetworkCheckPeers (info : Info) : Obj Host Peer :=
  let services := info.services.filter fun data => data.type = "unetmsg"
  if services = [] then info.peers
  else
    let services := services.filter fun data => info.localHost ∈ data.members
    info.peers.keys.foldl (fun peers name =>
      let allowed := ((services.filter fun data => name ∈ data.members).flatMap
        fun data => data.allowed.getD ["*"]).foldl
          (fun list cur => if cur ∈ list then list else list ++ [cur]) []
      match peers.lookup name with
      | none => peers
      | some peer =>
        if allowed = [] then peers.erase name
        else peers.replace name { peer with allowed := some allowed }) info.peers

/-- `network_open`; `listening` is whether the socket could be opened. -/
def networkOpen (d : Daemon) (net : Net) (info : Info) (peers : Obj Host Peer) (listening : Bool) :
    Daemon :=
  if listening then setNetwork d net ⟨info.localHost, info.localAddress, peers, ∅, ∅⟩ else d

/-- `network_close` -/
def networkClose (d : Daemon) (net : Net) : Daemon :=
  match d.networks.lookup net with
  | none => d
  | some n =>
    let d := n.rxChannels.entries.foldl (fun d cur => rxSocketClose d cur.2) d
    let d := n.txChannels.entries.foldl (fun d cur => txSocketClose d cur.2) d
    { d with networks := d.networks.erase net }

/-- `network_update` -/
def networkUpdate (d : Daemon) (net : Net) (info : Info) (peers : Obj Host Peer)
    (listening : Bool) : Daemon :=
  match d.networks.lookup net with
  | none => d
  | some n =>
    if n.localHost ≠ info.localHost ∨ n.localAddress ≠ info.localAddress then
      networkOpen (networkClose d net) net info peers listening
    else
      let changed := n.peers.entries.filter fun cur =>
        cur.2.allowed ≠ (peers.lookup cur.1).bind fun peer => peer.allowed
      let d := changed.foldl (fun d cur =>
        networkTxSocketClose (networkRxSocketClose d (n.rxChannels.lookup cur.1))
          (n.txChannels.lookup cur.1)) d
      match d.networks.lookup net with
      | some n => setNetwork d net { n with peers := peers }
      | none => d

/-- One turn of the first loop of `unetd_network_update`. -/
def updateNetwork (d : Daemon) (net : Net) (info : Info) (listening : Bool) : Daemon :=
  if info.localHost = "" then d
  else
    let peers := unetdNetworkCheckPeers info
    if (d.networks.lookup net).isSome then networkUpdate d net info peers listening
    else networkOpen d net info peers listening

/-- `unetd_network_update`; `listening` tells for which networks a socket could be opened. -/
def unetdNetworkUpdate (d : Daemon) (networks : Obj Net Info) (listening : Net → Bool) : Daemon :=
  let d := networks.entries.foldl (fun d cur => updateNetwork d cur.1 cur.2 (listening cur.1)) d
  (d.networks.keys.filter fun net => net ∉ networks).foldl networkClose d

/-! ## Steps -/

/-- Everything that can call into the daemon. -/
inductive Event where
  | connect (acl : AclInfo)
  | disconnect (id : Client)
  | pubsub (kind : Kind) (id : Client) (names : Option (List Name))
  | message (id : Client) (data : Data) (host : Option Host)
  | request (id : Client) (data : Data) (host : Option Host)
  /-- The `request` method of the ubus object, which any ubus client may call. -/
  | ubusRequest (data : Data) (host : Option Host)
  | aclSet (data : List AclEntry)
  | accept (net : Net) (address : String) (id : Id)
  | rx (s : SockId) (msg : RxMsg)
  | rxClosed (s : SockId)
  | rxTimeout (s : SockId)
  | connectPeers (net : Net) (created : Host → Bool)
  | tx (s : SockId) (msg : TxMsg)
  | unetd (networks : Obj Net Info) (listening : Net → Bool)

/-- The daemon after an event. -/
def step (wildcard : String → String → Bool → Bool) (d : Daemon) : Event → Daemon
  | .connect acl => clientNew d acl
  | .disconnect id => clientDisconnect d id
  | .pubsub kind id names => clientPubsub wildcard kind d id names
  | .message id data host => clientMessage d id data host
  | .request id data host => clientRequest wildcard d id data host
  | .ubusRequest data host => handleRequest d none data true host
  | .aclSet data => aclSet d data
  | .accept net address id =>
    match d.networks.lookup net with
    | some n => networkAccept d net n address id
    | none => d
  | .rx s msg => rxCallback wildcard d s msg
  | .rxClosed s => rxSocketClose d s
  | .rxTimeout s => if (d.rx s).auth then d else closeRx d s
  | .connectPeers net created => networkConnectPeers d net created
  | .tx s msg => txCallback d s msg
  | .unetd networks listening => unetdNetworkUpdate d networks listening

/-- The daemon after a sequence of events. -/
abbrev run (wildcard : String → String → Bool → Bool) (d : Daemon) (es : List Event) : Daemon :=
  Runs.run (step wildcard) d es

end Unetmsg
