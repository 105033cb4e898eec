import Mt798x.Unetmsg.Daemon

/-!
# Relations between states

A reflexive and transitive relation between the states of a daemon holds around each of its
functions if it holds for the few changes that the functions are made of.  Here the functions are
taken apart, once for all such relations: what a state has in common with the one before, what has
been sent, which connections are new.
-/

namespace Unetmsg

/-- A reflexive and transitive relation that holds for a notice to local clients. -/
structure Frame (R : Daemon → Daemon → Prop) : Prop where
  refl : ∀ d, R d d
  trans : ∀ {d d' d''}, R d d' → R d' d'' → R d d''
  publish : ∀ d handle name, R d (handlePublish d handle name)

/-- It holds for the changes that a client makes to the tables. -/
structure ClientFrame (R : Daemon → Daemon → Prop) : Prop extends Frame R where
  add : ∀ d kind name client, R d (pubsubAdd d kind name client)
  del : ∀ d kind name id, R d (pubsubDel d kind name id)
  clients : ∀ d clients, R d { d with clients := clients }

/-- It holds for the ways of a message or request. -/
structure CallFrame (R : Daemon → Daemon → Prop) : Prop extends Frame R where
  deliver : ∀ d delivered, R d { d with delivered := delivered }
  send : ∀ d method data remote, R d (sendRemote d (.call method data) remote)

/-- It holds when outgoing connections are closed and opened. -/
structure OpenFrame (R : Daemon → Daemon → Prop) : Prop extends Frame R where
  eraseTx : ∀ {d net n} host, d.networks.lookup net = some n →
    R d (setNetwork d net { n with txChannels := n.txChannels.erase host })
  closeTx : ∀ d s, R d (closeTx d s)
  newTx : ∀ d net host, R d (newTx d net host)

/-- It holds also when one of them is authenticated. -/
structure UpFrame (R : Daemon → Daemon → Prop) : Prop extends OpenFrame R where
  up : ∀ d s, R d (channelUp d s)
  auth : ∀ d s net host id, R d (pushTx d s [.auth net host id])

/-- It holds when connections of both kinds are closed, outgoing ones are opened, and networks
change. -/
structure NetFrame (R : Daemon → Daemon → Prop) : Prop extends Frame R where
  erasePeer : ∀ d host, R d { d with remote := fun kind name => (d.remote kind name).erase host }
  network : ∀ {d net n},
    (∀ host t, n.txChannels.lookup host = some t → txChannel d (host, net) = some t) →
      R d (setNetwork d net n)
  eraseNetwork : ∀ d net, R d { d with networks := d.networks.erase net }
  closeRx : ∀ d s, R d (closeRx d s)
  closeTx : ∀ d s, R d (closeTx d s)
  newTx : ∀ d net host, R d (newTx d net host)
  setRemote : ∀ d kind name obj, R d (setRemote d kind name obj)
  setRegistered : ∀ d s kind list, R d (setRegistered d s kind list)

variable {R : Daemon → Daemon → Prop} (d : Daemon)

lemma Frame.foldl (h : Frame R) {α : Type} {f : Daemon → α → Daemon} (hf : ∀ d a, R d (f d a))
    (l : List α) : R d (l.foldl f d) :=
  List.foldlRecOn l f (motive := R d) (h.refl d) fun _ hb a _ => h.trans hb (hf _ a)

lemma Frame.publish_all (h : Frame R) (l : List Name) :
    R d (l.foldl (fun d cur => handlePublish d none cur) d) :=
  h.foldl d (fun d cur => h.publish d none cur) l

lemma Frame.notify_if (h : Frame R) (cond : Bool) (name : Name) : R d (notifyIf cond d name) := by
  rw [notifyIf]
  split
  · exact h.publish d none name
  · exact h.refl d

/-! ## Clients -/

section Client

variable (wildcard : String → String → Bool → Bool)

lemma ClientFrame.pubsub (h : ClientFrame R) (kind : Kind) (id : Client)
    (names : Option (List Name)) : R d (clientPubsub wildcard kind d id names) := by
  have hname : ∀ d name, R d (clientPubsubName kind id d name) := by
    intro d name
    rw [clientPubsubName]
    split
    · exact h.refl d
    · split
      · exact h.refl d
      · have hadd := fun clients => h.trans (h.add d kind name id) (h.clients _ clients)
        cases kind
        · exact h.trans (hadd _) (h.publish _ _ _)
        · exact hadd _
  unfold clientPubsub
  split
  · split
    · exact h.foldl d hname _
    · exact h.refl d
  · exact h.refl d

lemma ClientFrame.disconnect (h : ClientFrame R) (id : Client) : R d (clientDisconnect d id) := by
  have hdrop : ∀ kind d (cur : Sigma fun _ : Name => HandleId),
      R d (clientDropHandle id kind d cur.1 cur.2) := by
    intro kind d cur
    cases kind
    · exact h.trans (h.publish d _ _) (h.del _ _ _ _)
    · exact h.del d _ _ _
  rw [clientDisconnect]
  split
  · exact h.refl d
  · exact h.trans (h.foldl d (fun d kind => h.foldl d (hdrop kind) _) _) (h.clients _ _)

lemma CallFrame.call (h : CallFrame R) (kind : Kind) (method : Method) (handle : Option Client)
    (data : Data) (remote : Bool) (host : Option Host) :
    R d (handleCall kind method d handle data remote host) := by
  rw [handleCall]
  exact h.trans (h.deliver d _) (h.foldl _ (fun d cur => h.send d method data cur) _)

lemma CallFrame.client_message (h : CallFrame R) (id : Client) (data : Data) (host : Option Host) :
    R d (clientMessage d id data host) := by
  rw [clientMessage]
  split
  · exact h.refl d
  · split
    · exact h.call d _ _ _ _ _ _
    · exact h.refl d

lemma CallFrame.client_request (h : CallFrame R) (id : Client) (data : Data) (host : Option Host) :
    R d (clientRequest wildcard d id data host) := by
  rw [clientRequest]
  split
  · exact h.refl d
  · split
    · exact h.call d _ _ _ _ _ _
    · exact h.refl d

end Client

/-! ## Outgoing connections -/

lemma OpenFrame.tx_close (h : OpenFrame R) (s : SockId) : R d (txSocketClose d s) := by
  rw [txSocketClose]
  split
  · rename_i n hn
    split
    · exact h.trans (h.eraseTx _ hn) (h.closeTx _ s)
    · exact h.closeTx d s
  · exact h.closeTx d s

lemma OpenFrame.network_tx_close (h : OpenFrame R) (data : Option SockId) :
    R d (networkTxSocketClose d data) := by
  cases data
  · exact h.refl d
  · exact h.tx_close d _

lemma OpenFrame.connect_peer (h : OpenFrame R) (net : Net) (created : Host → Bool) (host : Host) :
    R d (connectPeer net created d host) := by
  have hopen : R d (networkOpenChannel d net host (created host)) := by
    rw [networkOpenChannel]
    have hclose := h.network_tx_close d (txChannel d (host, net))
    split
    · exact h.trans hclose (h.newTx _ net host)
    · exact hclose
  rw [connectPeer]
  split
  · split
    · exact h.refl d
    · exact hopen
  · exact hopen

lemma UpFrame.auth_data (h : UpFrame R) (s : SockId) (data : Option TokenData) :
    R d (authDataCb d s data) := by
  rw [authDataCb]
  split
  · refine h.trans (h.up d s) ?_
    rw [notifyPublished]
    split
    · exact h.publish_all _ _
    · exact h.refl _
  · exact h.refl d

lemma UpFrame.tx_callback (h : UpFrame R) (s : SockId) (msg : TxMsg) :
    R d (txCallback d s msg) := by
  have hclose := h.tx_close d s
  unfold txCallback
  split
  · cases msg with
    | reply data => exact h.auth_data d s data
    | closed => exact hclose
    | hello id created =>
      dsimp only
      split_ifs
      · exact h.refl d
      · exact h.auth d s _ _ _
      · exact hclose
    | other | done | timeout =>
      dsimp only
      split_ifs
      · exact h.refl d
      · exact hclose
  · exact h.refl d

/-! ## Networks -/

namespace NetFrame

lemma of_lookup (h : NetFrame R) {net : Net} {n n' : Network} (hn : d.networks.lookup net = some n)
    (htx : ∀ host t, n'.txChannels.lookup host = some t → n.txChannels.lookup host = some t) :
    R d (setNetwork d net n') :=
  h.network fun host t ht => by
    rw [txChannel, hn]
    exact htx host t ht

lemma toOpen (h : NetFrame R) : OpenFrame R where
  toFrame := h.toFrame
  closeTx := h.closeTx
  newTx := h.newTx
  eraseTx := by
    intro d net n host hn
    refine h.of_lookup d hn fun host' t ht => ?_
    dsimp only at ht
    by_cases hhost : host' = host
    · rw [hhost, AList.lookup_erase] at ht
      cases ht
    · rwa [AList.lookup_erase_ne hhost] at ht

lemma cleanup (h : NetFrame R) (host : Host) : R d (networkRxCleanupState d host) :=
  h.trans (h.erasePeer d host) (h.publish_all _ _)

lemma rx_close (h : NetFrame R) (s : SockId) : R d (rxSocketClose d s) := by
  rw [rxSocketClose]
  split
  · rename_i n hn
    split
    · refine h.trans ?_ (h.closeRx _ s)
      refine h.trans ?_ (h.cleanup _ _)
      exact h.of_lookup d hn fun _ _ ht => ht
    · exact h.closeRx d s
  · exact h.closeRx d s

lemma network_rx_close (h : NetFrame R) (data : Option SockId) :
    R d (networkRxSocketClose d data) := by
  cases data
  · exact h.refl d
  · exact h.rx_close d _

lemma close_all (h : NetFrame R) (close : Daemon → SockId → Daemon) (hc : ∀ d s, R d (close d s))
    (l : List (Sigma fun _ : Host => SockId)) : R d (l.foldl (fun d cur => close d cur.2) d) :=
  h.foldl d (fun d cur => hc d cur.2) l

lemma connect_peers (h : NetFrame R) (net : Net) (created : Host → Bool) :
    R d (networkConnectPeers d net created) := by
  unfold networkConnectPeers
  split
  · exact h.refl d
  · rename_i n _
    have hpeers := h.foldl d (fun d host => h.toOpen.connect_peer d net created host) n.peers.keys
    dsimp only
    split
    · exact hpeers
    · refine h.trans hpeers ?_
      refine h.trans ?_ (h.close_all _ rxSocketClose h.rx_close _)
      exact h.close_all _ txSocketClose h.toOpen.tx_close _

lemma network_open (h : NetFrame R) (net : Net) (info : Info) (peers : Obj Host Peer)
    (listening : Bool) : R d (networkOpen d net info peers listening) := by
  rw [networkOpen]
  split
  · exact h.network fun host t ht => by cases ht
  · exact h.refl d

lemma network_close (h : NetFrame R) (net : Net) : R d (networkClose d net) := by
  rw [networkClose]
  split
  · exact h.refl d
  · refine h.trans ?_ (h.eraseNetwork _ net)
    refine h.trans ?_ (h.close_all _ txSocketClose h.toOpen.tx_close _)
    exact h.close_all _ rxSocketClose h.rx_close _

lemma network_update (h : NetFrame R) (net : Net) (info : Info) (peers : Obj Host Peer)
    (listening : Bool) : R d (networkUpdate d net info peers listening) := by
  unfold networkUpdate
  split
  · exact h.refl d
  · rename_i n _
    split
    · exact h.trans (h.network_close d net) (h.network_open _ _ _ _ _)
    · dsimp only
      have hloop : ∀ l : List (Sigma fun _ : Host => Peer), R d (l.foldl (fun d cur =>
          networkTxSocketClose (networkRxSocketClose d (n.rxChannels.lookup cur.1))
            (n.txChannels.lookup cur.1)) d) :=
        h.foldl d fun d cur => h.trans (h.network_rx_close d _) (h.toOpen.network_tx_close _ _)
      split
      · rename_i n' hn'
        exact h.trans (hloop _) (h.of_lookup _ hn' fun _ _ ht => ht)
      · exact hloop _

lemma unetd_update (h : NetFrame R) (networks : Obj Net Info) (listening : Net → Bool) :
    R d (unetdNetworkUpdate d networks listening) := by
  unfold unetdNetworkUpdate
  refine h.trans (h.foldl d (fun d cur => ?_) _) (h.foldl _ h.network_close _)
  unfold updateNetwork
  split
  · exact h.refl d
  · dsimp only
    split
    · exact h.network_update d _ _ _ _
    · exact h.network_open d _ _ _ _

/-! ## Incoming connections -/

lemma check_auth (h : NetFrame R) (hrx : ∀ d s sock, R d (setRx d s sock)) (s : SockId)
    (data : Option TokenData) : R d (networkCheckAuth d s data) := by
  unfold networkCheckAuth
  dsimp only
  split
  · split
    · exact h.refl d
    · rename_i n _
      split
      · exact h.refl d
      · have hin := fun sock => h.trans (h.trans
          (h.network_rx_close d (n.rxChannels.lookup (d.rx s).name)) (hrx _ s sock))
            (h.cleanup _ (d.rx s).name)
        split
        · rename_i n' hn'
          exact h.trans (hin _) (h.of_lookup _ hn' fun _ _ ht => ht)
        · exact hin _
  · exact h.refl d

lemma remote_set (h : NetFrame R) (wildcard : String → String → Bool → Bool) (s : SockId)
    (n : Network) (kind : Kind) (name : Name) (enabled : Bool) :
    R d (remoteSet wildcard d s n kind name enabled) := by
  unfold remoteSet
  dsimp only
  split
  · split
    · exact h.notify_if d _ name
    · split
      · exact h.refl d
      · split
        · exact h.trans (h.trans (h.setRemote d _ _ _) (h.notify_if _ _ _))
            (h.setRegistered _ _ _ _)
        · exact h.refl d
  · split
    · exact h.trans (h.trans (h.notify_if d _ _) (h.setRemote _ _ _ _)) (h.setRegistered _ _ _ _)
    · exact h.refl d

end NetFrame

end Unetmsg
