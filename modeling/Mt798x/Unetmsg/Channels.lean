import Mt798x.Unetmsg.Frames

/-!
# Incoming connections

What each function of the daemon does to the incoming connections and the tables of the peers:
most of them nothing (`RxSame`), and one lemma for each of the others (closing a connection,
authenticating one, registering a name on one).
-/

namespace Unetmsg

/-! ## Objects -/

section Obj

variable {κ α : Type} [DecidableEq κ]

lemma lookup_insert_ite (s : Obj κ α) (k k' : κ) (v : α) :
    (s.insert k v).lookup k' = if k' = k then some v else s.lookup k' := by
  by_cases h : k' = k
  · rw [if_pos h, h, AList.lookup_insert]
  · rw [if_neg h, AList.lookup_insert_ne h]

lemma lookup_erase_ite (s : Obj κ α) (k k' : κ) :
    (s.erase k).lookup k' = if k' = k then none else s.lookup k' := by
  by_cases h : k' = k
  · rw [if_pos h, h, AList.lookup_erase]
  · rw [if_neg h, AList.lookup_erase_ne h]

lemma mem_entries_iff {s : Obj κ α} {k : κ} {v : α} :
    (⟨k, v⟩ : Sigma fun _ : κ => α) ∈ s.entries ↔ s.lookup k = some v :=
  AList.mem_lookup_iff.symm

end Obj

/-- `networks[net].rx_channels[host]` -/
def rxAt (d : Daemon) (net : Net) (host : Host) : Option SockId :=
  (d.networks.lookup net).bind fun n => n.rxChannels.lookup host

/-! ## What does not concern incoming connections -/

/-- Two states agree in everything about incoming connections. -/
structure RxSame (d d' : Daemon) : Prop where
  rx : d'.rx = d.rx
  remote : d'.remote = d.remote
  rxAt : ∀ net host, rxAt d' net host = rxAt d net host
  next : d.next ≤ d'.next

namespace RxSame

variable {d d' d'' : Daemon}

lemma refl (d : Daemon) : RxSame d d := ⟨rfl, rfl, fun _ _ => rfl, le_rfl⟩

lemma trans (h : RxSame d d') (h' : RxSame d' d'') : RxSame d d'' where
  rx := h'.rx.trans h.rx
  remote := h'.remote.trans h.remote
  rxAt := fun net host => (h'.rxAt net host).trans (h.rxAt net host)
  next := h.next.trans h'.next

lemma of_eq (hrx : d'.rx = d.rx) (hremote : d'.remote = d.remote)
    (hnet : d'.networks = d.networks) (hnext : d.next ≤ d'.next) : RxSame d d' :=
  ⟨hrx, hremote, fun net host => by rw [Unetmsg.rxAt, hnet, Unetmsg.rxAt], hnext⟩

lemma setNetwork {net : Net} {n : Network}
    (h : ∀ host, n.rxChannels.lookup host = Unetmsg.rxAt d net host) :
    RxSame d (setNetwork d net n) := by
  refine ⟨rfl, rfl, fun net' host => ?_, le_rfl⟩
  rw [Unetmsg.rxAt, Unetmsg.setNetwork]
  dsimp only
  rw [lookup_insert_ite]
  by_cases hn : net' = net
  · rw [if_pos hn, hn]
    exact h host
  · rw [if_neg hn, Unetmsg.rxAt]

lemma frame : Frame RxSame := ⟨refl, trans, fun _ _ _ => of_eq rfl rfl rfl le_rfl⟩

lemma clientFrame : ClientFrame RxSame where
  toFrame := frame
  add := by
    intro d kind name client
    rw [pubsubAdd]
    split
    · exact of_eq rfl rfl rfl (Nat.le_succ _)
    · exact of_eq rfl rfl rfl (Nat.le_succ _)
  del := by
    intro d kind name id
    rw [pubsubDel]
    split
    · exact of_eq rfl rfl rfl le_rfl
    · exact of_eq rfl rfl rfl le_rfl
  clients := fun _ _ => of_eq rfl rfl rfl le_rfl

lemma callFrame : CallFrame RxSame where
  toFrame := frame
  deliver := fun _ _ => of_eq rfl rfl rfl le_rfl
  send := by
    intro d method data remote
    rw [sendRemote]
    split
    · exact of_eq rfl rfl rfl le_rfl
    · exact refl d

lemma upFrame : UpFrame RxSame where
  toFrame := frame
  eraseTx := fun host hn => setNetwork fun host => by
    rw [Unetmsg.rxAt, hn]
    rfl
  closeTx := fun _ _ => of_eq rfl rfl rfl le_rfl
  newTx := by
    intro d net host
    rw [newTx]
    split
    · exact refl d
    · rename_i n hn
      have htx : RxSame d (setTx d d.next ⟨net, host, false, true⟩) := of_eq rfl rfl rfl le_rfl
      refine (htx.trans (setNetwork fun host => ?_)).trans (of_eq rfl rfl rfl (Nat.le_succ _))
      show _ = (d.networks.lookup net).bind _
      rw [hn]
      rfl
  up := fun _ _ => of_eq rfl rfl rfl le_rfl
  auth := fun _ _ _ _ _ => of_eq rfl rfl rfl le_rfl

end RxSame

lemma networkOpen_same (d : Daemon) {net : Net} (hnet : d.networks.lookup net = none) (info : Info)
    (peers : Obj Host Peer) (listening : Bool) :
    RxSame d (networkOpen d net info peers listening) := by
  rw [networkOpen]
  split
  · refine RxSame.setNetwork fun host => ?_
    rw [rxAt, hnet]
    rfl
  · exact RxSame.refl d

/-! ## Closing a connection -/

section Close

variable {d : Daemon} {s : SockId}

lemma cleanup_same (d : Daemon) (host : Host) :
    RxSame { d with remote := fun kind name => (d.remote kind name).erase host }
      (networkRxCleanupState d host) :=
  RxSame.frame.publish_all _ _

lemma rxSocketClose_rx (d : Daemon) (s : SockId) :
    (rxSocketClose d s).rx = Function.update d.rx s { d.rx s with isOpen := false } := by
  rw [rxSocketClose]
  split
  · split
    · rename_i n hn hs
      have hrx := (cleanup_same (setNetwork d (d.rx s).network
        { n with rxChannels := n.rxChannels.erase (d.rx s).name }) (d.rx s).name).rx
      rw [closeRx, setRx, hrx]
      rfl
    · rfl
  · rfl

lemma rxSocketClose_next (d : Daemon) (s : SockId) : d.next ≤ (rxSocketClose d s).next := by
  rw [rxSocketClose]
  split
  · split
    · rename_i n _ _
      exact (cleanup_same (setNetwork d (d.rx s).network
        { n with rxChannels := n.rxChannels.erase (d.rx s).name }) (d.rx s).name).next
    · exact le_rfl
  · exact le_rfl

/-- Closing the current connection of a host takes it from its network and drops everything under
the name of the host. -/
lemma rxSocketClose_current (h : rxAt d (d.rx s).network (d.rx s).name = some s) :
    (∀ kind name, (rxSocketClose d s).remote kind name =
      (d.remote kind name).erase (d.rx s).name) ∧
    ∀ net host, rxAt (rxSocketClose d s) net host =
      if net = (d.rx s).network ∧ host = (d.rx s).name then none else rxAt d net host := by
  rw [rxAt, Option.bind_eq_some_iff] at h
  obtain ⟨n, hn, hs⟩ := h
  have heq : rxSocketClose d s = closeRx (networkRxCleanupState (setNetwork d (d.rx s).network
      { n with rxChannels := n.rxChannels.erase (d.rx s).name }) (d.rx s).name) s := by
    rw [rxSocketClose, hn]
    dsimp only
    rw [if_pos hs]
  have hsame := cleanup_same (setNetwork d (d.rx s).network
    { n with rxChannels := n.rxChannels.erase (d.rx s).name }) (d.rx s).name
  rw [heq]
  refine ⟨fun kind name => congrFun (congrFun hsame.remote kind) name, fun net host => ?_⟩
  refine (hsame.rxAt net host).trans ?_
  show ((d.networks.insert _ _).lookup net).bind _ = _
  rw [lookup_insert_ite]
  by_cases hnet : net = (d.rx s).network
  · rw [if_pos hnet]
    show (n.rxChannels.erase (d.rx s).name).lookup host = _
    rw [lookup_erase_ite]
    by_cases hhost : host = (d.rx s).name
    · rw [if_pos hhost, if_pos ⟨hnet, hhost⟩]
    · rw [if_neg hhost, if_neg (fun h => hhost h.2), hnet, rxAt, hn]
      rfl
  · rw [if_neg hnet, if_neg (fun h => hnet h.1), rxAt]

lemma rxSocketClose_other (h : rxAt d (d.rx s).network (d.rx s).name ≠ some s) :
    rxSocketClose d s = closeRx d s := by
  rw [rxSocketClose]
  split
  · rename_i n hn
    rw [if_neg]
    intro hs
    apply h
    rw [rxAt, hn]
    exact hs
  · rfl

/-- A network without its incoming connections. -/
def netBase (d : Daemon) (net : Net) : Option (Host × String × Obj Host Peer × Obj Host SockId) :=
  (d.networks.lookup net).map fun n => (n.localHost, n.localAddress, n.peers, n.txChannels)

lemma netBase_of_networks {d d' : Daemon} (h : d'.networks = d.networks) (net : Net) :
    netBase d' net = netBase d net := by
  rw [netBase, netBase, h]

lemma foldl_handlePublish_networks (l : List Name) (d : Daemon) :
    (l.foldl (fun d cur => handlePublish d none cur) d).networks = d.networks :=
  List.foldlRecOn l _ (motive := fun d' : Daemon => d'.networks = d.networks) rfl fun _ hb _ _ => hb

lemma cleanup_networks (d : Daemon) (host : Host) :
    (networkRxCleanupState d host).networks = d.networks :=
  foldl_handlePublish_networks _ _

lemma rxSocketClose_netBase (d : Daemon) (s : SockId) (net : Net) :
    netBase (rxSocketClose d s) net = netBase d net := by
  rw [rxSocketClose]
  split
  · rename_i n hn
    split
    · have hnet : (closeRx (networkRxCleanupState (setNetwork d (d.rx s).network
          { n with rxChannels := n.rxChannels.erase (d.rx s).name }) (d.rx s).name) s).networks =
          d.networks.insert (d.rx s).network
            { n with rxChannels := n.rxChannels.erase (d.rx s).name } := cleanup_networks _ _
      rw [netBase, hnet, lookup_insert_ite, netBase]
      by_cases hnet' : net = (d.rx s).network
      · rw [if_pos hnet', hnet', hn]
        rfl
      · rw [if_neg hnet']
    · exact netBase_of_networks rfl net
  · exact netBase_of_networks rfl net

lemma networkRxSocketClose_netBase (d : Daemon) (data : Option SockId) (net : Net) :
    netBase (networkRxSocketClose d data) net = netBase d net := by
  cases data
  · rfl
  · exact rxSocketClose_netBase d _ net

end Close

/-! ## Authentication -/

/-- What `network_check_auth` does when it accepts a token: the connection that was current is
closed, and the new one takes its place. -/
structure CheckedIn (d : Daemon) (s : SockId) (d' : Daemon) : Prop where
  network : ∃ n, d.networks.lookup (d.rx s).network = some n ∧
    (n.peers.lookup (d.rx s).name).isSome = true
  rx : d'.rx = Function.update
    (networkRxSocketClose d (rxAt d (d.rx s).network (d.rx s).name)).rx s
    { (networkRxSocketClose d (rxAt d (d.rx s).network (d.rx s).name)).rx s with auth := true }
  remote : ∀ kind name, d'.remote kind name =
    ((networkRxSocketClose d (rxAt d (d.rx s).network (d.rx s).name)).remote kind name).erase
      (d.rx s).name
  rxAt : ∀ net host, Unetmsg.rxAt d' net host =
    if net = (d.rx s).network ∧ host = (d.rx s).name then some s
    else Unetmsg.rxAt (networkRxSocketClose d (Unetmsg.rxAt d (d.rx s).network (d.rx s).name))
      net host
  next : (networkRxSocketClose d (Unetmsg.rxAt d (d.rx s).network (d.rx s).name)).next ≤ d'.next
  netBase : ∀ net, netBase d' net = Unetmsg.netBase d net

lemma networkCheckAuth_cases (d : Daemon) (s : SockId) (data : Option TokenData) :
    networkCheckAuth d s data = d ∨
      (networkAuthValid (d.rx s).name (d.rx s).id data = true ∧
        CheckedIn d s (networkCheckAuth d s data)) := by
  rw [networkCheckAuth]
  dsimp only
  split
  · rename_i hvalid
    split
    · exact Or.inl rfl
    · rename_i n hn
      split
      · exact Or.inl rfl
      · rename_i hpeer
        right
        have hlookup : n.rxChannels.lookup (d.rx s).name =
            rxAt d (d.rx s).network (d.rx s).name := by
          rw [rxAt, hn]
          rfl
        rw [hlookup]
        set d1 := networkRxSocketClose d (rxAt d (d.rx s).network (d.rx s).name) with hd1
        set d2 := networkRxCleanupState (setRx d1 s { d1.rx s with auth := true }) (d.rx s).name
          with hd2
        have hsame := cleanup_same (setRx d1 s { d1.rx s with auth := true }) (d.rx s).name
        have hnets : d2.networks = d1.networks := cleanup_networks _ _
        have hbase : ∀ net, netBase d2 net = netBase d net := by
          intro net
          rw [netBase_of_networks hnets, hd1]
          exact networkRxSocketClose_netBase d _ net
        have hsome : ∃ n2, d2.networks.lookup (d.rx s).network = some n2 := by
          have := hbase (d.rx s).network
          rw [netBase, netBase, hn] at this
          obtain ⟨n2, hn2, -⟩ := Option.map_eq_some_iff.mp this
          exact ⟨n2, hn2⟩
        obtain ⟨n2, hn2⟩ := hsome
        rw [hn2]
        refine ⟨hvalid, ⟨n, hn, by simpa [Option.isSome_iff_ne_none] using hpeer⟩, hsame.rx,
          fun kind name => congrFun (congrFun hsame.remote kind) name, fun net host => ?_,
          hsame.next, fun net => ?_⟩
        · show ((d2.networks.insert _ _).lookup net).bind _ = _
          rw [lookup_insert_ite]
          have hat : ∀ net host, rxAt d2 net host = rxAt d1 net host := hsame.rxAt
          by_cases hnet : net = (d.rx s).network
          · rw [if_pos hnet]
            show (n2.rxChannels.insert (d.rx s).name s).lookup host = _
            rw [lookup_insert_ite]
            by_cases hhost : host = (d.rx s).name
            · rw [if_pos hhost, if_pos ⟨hnet, hhost⟩]
            · rw [if_neg hhost, if_neg (fun h => hhost h.2), ← hat, hnet, rxAt, hn2]
              rfl
          · rw [if_neg hnet, if_neg (fun h => hnet h.1), ← hat]
            rfl
        · rw [← hbase, netBase, netBase]
          show ((d2.networks.insert _ _).lookup net).map _ = _
          rw [lookup_insert_ite]
          by_cases hnet : net = (d.rx s).network
          · rw [if_pos hnet, hnet, hn2]
            rfl
          · rw [if_neg hnet]
  · exact Or.inl rfl

/-! ## Registrations -/

section Registrations

variable (wildcard : String → String → Bool → Bool)

/-- What a registration does to the connection and the table. -/
structure Registered (d : Daemon) (s : SockId) (kind : Kind) (name : Name) (list : List Name)
    (entry : Option Net) (d' : Daemon) : Prop where
  rx : d'.rx = Function.update d.rx s
    { d.rx s with registered := Function.update (d.rx s).registered kind list }
  remote : ∀ kind' name' host, (d'.remote kind' name').lookup host =
    if kind' = kind ∧ name' = name ∧ host = (d.rx s).name then entry
    else (d.remote kind' name').lookup host
  networks : d'.networks = d.networks
  next : d'.next = d.next

lemma lookup_update_update (remote : Kind → Name → Obj Host Net) (kind kind' : Kind)
    (name name' : Name) (obj : Obj Host Net) (host : Host) :
    (Function.update remote kind (Function.update (remote kind) name obj) kind' name').lookup host =
      if kind' = kind ∧ name' = name then obj.lookup host else (remote kind' name').lookup host := by
  by_cases hk : kind' = kind
  · rw [hk, Function.update_self]
    by_cases hn : name' = name
    · rw [hn, Function.update_self, if_pos ⟨rfl, rfl⟩]
    · rw [Function.update_of_ne hn, if_neg (fun h => hn h.2)]
  · rw [Function.update_of_ne hk, if_neg (fun h => hk h.1)]

lemma notifyIf_eq (cond : Bool) (d : Daemon) (name : Name) :
    ∃ l, notifyIf cond d name = { d with delivered := l } := by
  rw [notifyIf]
  split
  · exact ⟨_, rfl⟩
  · exact ⟨d.delivered, rfl⟩

lemma registered_of_set {d : Daemon} {s : SockId} {kind : Kind} {name : Name} {list : List Name}
    {entry : Option Net} {obj : Obj Host Net} {l l' : List Delivery}
    (hobj : ∀ host, obj.lookup host =
      if host = (d.rx s).name then entry else (d.remote kind name).lookup host) :
    Registered d s kind name list entry
      (setRegistered { setRemote { d with delivered := l } kind name obj with delivered := l' }
        s kind list) where
  rx := rfl
  remote := by
    intro kind' name' host
    refine (lookup_update_update d.remote kind kind' name name' obj host).trans ?_
    by_cases h : kind' = kind ∧ name' = name
    · obtain ⟨rfl, rfl⟩ := h
      rw [if_pos ⟨rfl, rfl⟩, hobj]
      simp only [true_and]
    · rw [if_neg h, if_neg (fun hc => h ⟨hc.1, hc.2.1⟩)]
  networks := rfl
  next := rfl

/-- The cases of a registration: nothing changes, the name is added, or it is taken away. -/
lemma remoteSet_cases (d : Daemon) (s : SockId) (n : Network) (kind : Kind) (name : Name)
    (enabled : Bool) :
    (RxSame d (remoteSet wildcard d s n kind name enabled) ∧
      (remoteSet wildcard d s n kind name enabled).networks = d.networks ∧
      (enabled = true → name ∈ (d.rx s).registered kind ∨
        ∀ peer, n.peers.lookup (d.rx s).name = some peer →
          allowedBy wildcard peer.allowed name = false) ∧
      (enabled = false → name ∉ (d.rx s).registered kind)) ∨
    (enabled = true ∧ (∃ peer, n.peers.lookup (d.rx s).name = some peer ∧
        allowedBy wildcard peer.allowed name = true) ∧
      Registered d s kind name (name :: (d.rx s).registered kind) (some (d.rx s).network)
        (remoteSet wildcard d s n kind name enabled)) ∨
    (enabled = false ∧
      Registered d s kind name (((d.rx s).registered kind).filter fun n => n ≠ name) none
        (remoteSet wildcard d s n kind name enabled)) := by
  unfold remoteSet
  cases enabled
  · simp only [Bool.false_eq_true, if_false]
    split
    · right
      right
      obtain ⟨l, hl⟩ := notifyIf_eq (kind = .publish) d name
      rw [hl]
      exact ⟨trivial, registered_of_set fun host => lookup_erase_ite _ _ _⟩
    · rename_i hname
      left
      exact ⟨RxSame.refl d, rfl, by simp, fun _ => hname⟩
  · simp only [if_true]
    split
    · rename_i hname
      left
      refine ⟨RxSame.frame.notify_if d _ name, ?_, fun _ => Or.inl hname, by simp⟩
      obtain ⟨l, hl⟩ := notifyIf_eq (txAuth d n (d.rx s).name && kind = .publish) d name
      rw [hl]
    · split
      · rename_i hpeer
        left
        refine ⟨RxSame.refl d, rfl, fun _ => Or.inr fun peer hp => ?_, by simp⟩
        rw [hpeer] at hp
        cases hp
      · rename_i peer hpeer
        split
        · rename_i hallowed
          right
          left
          refine ⟨trivial, ⟨peer, hpeer, hallowed⟩, ?_⟩
          set d1 := setRemote d kind name
            ((d.remote kind name).insert (d.rx s).name (d.rx s).network) with hd1
          obtain ⟨l, hl⟩ := notifyIf_eq (txAuth d n (d.rx s).name && kind = .publish) d1 name
          rw [hl, hd1]
          exact registered_of_set (l := d.delivered) fun host => lookup_insert_ite _ _ _ _
        · rename_i hallowed
          left
          refine ⟨RxSame.refl d, rfl, fun _ => Or.inr fun peer' hp => ?_, by simp⟩
          rw [hpeer, Option.some.injEq] at hp
          rw [← hp]
          exact Bool.eq_false_iff.mpr hallowed

end Registrations

end Unetmsg
