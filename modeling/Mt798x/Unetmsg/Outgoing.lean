import Mt798x.Unetmsg.Registry

/-!
# Outgoing connections

What the functions of the daemon do to the messages and requests that wait on its outgoing
connections: only `handle_message` and `handle_request` add one.  A connection keeps the name of
its host, and is found under that name in the network it belongs to.
-/

namespace Unetmsg

/-- The messages and requests among what waits on a connection. -/
def callPackets (ps : List Packet) : List Data :=
  ps.filterMap fun p =>
    match p with
    | .call _ data => some data
    | _ => none

@[simp] lemma callPackets_append (ps qs : List Packet) :
    callPackets (ps ++ qs) = callPackets ps ++ callPackets qs := by
  rw [callPackets, List.filterMap_append]
  rfl

/-- No message or request is added to an outgoing connection, and new connections are in their
networks under the name of their host. -/
structure TxFrame (d d' : Daemon) : Prop where
  next : d.next ≤ d'.next
  name : ∀ t, t < d.next → (d'.tx t).name = (d.tx t).name
  out : ∀ t, (callPackets (d'.txOut t)).Sublist (callPackets (d.txOut t))
  chan : ∀ net host t, txChannel d' (host, net) = some t →
    txChannel d (host, net) = some t ∨ (d.next ≤ t ∧ t < d'.next ∧ (d'.tx t).name = host)

namespace TxFrame

variable {d d' d'' : Daemon}

lemma refl (d : Daemon) : TxFrame d d :=
  ⟨le_rfl, fun _ _ => rfl, fun _ => List.Sublist.refl _, fun _ _ _ h => Or.inl h⟩

lemma trans (h : TxFrame d d') (h' : TxFrame d' d'') : TxFrame d d'' where
  next := h.next.trans h'.next
  name := fun t ht => (h'.name t (ht.trans_le h.next)).trans (h.name t ht)
  out := fun t => (h'.out t).trans (h.out t)
  chan := by
    intro net host t ht
    rcases h'.chan net host t ht with ht | ⟨hlo, hhi, hname⟩
    · rcases h.chan net host t ht with ht | ⟨hlo, hhi, hname⟩
      · exact Or.inl ht
      · exact Or.inr ⟨hlo, hhi.trans_le h'.next, (h'.name t hhi).trans hname⟩
    · exact Or.inr ⟨h.next.trans hlo, hhi, hname⟩

lemma of_eq (htx : d'.tx = d.tx) (hout : d'.txOut = d.txOut) (hnet : d'.networks = d.networks)
    (hnext : d.next ≤ d'.next) : TxFrame d d' :=
  ⟨hnext, fun t _ => by rw [htx], fun t => by rw [hout],
    fun net host t h => Or.inl (by rwa [txChannel, hnet] at h)⟩

lemma setNetwork {net : Net} {n : Network}
    (h : ∀ host t, n.txChannels.lookup host = some t → txChannel d (host, net) = some t) :
    TxFrame d (setNetwork d net n) := by
  refine ⟨le_rfl, fun _ _ => rfl, fun _ => List.Sublist.refl _, fun net' host t ht => Or.inl ?_⟩
  rw [txChannel, Unetmsg.setNetwork] at ht
  dsimp only at ht
  rw [lookup_insert_ite] at ht
  by_cases hn : net' = net
  · rw [if_pos hn, Option.bind_some] at ht
    rw [hn]
    exact h host t ht
  · rw [if_neg hn] at ht
    exact ht

lemma setTx {s : SockId} {sock : TxSock} (h : sock.name = (d.tx s).name) :
    TxFrame d (setTx d s sock) := by
  refine ⟨le_rfl, fun t _ => ?_, fun _ => List.Sublist.refl _, fun _ _ _ ht => Or.inl ht⟩
  by_cases ht : t = s
  · rw [ht, ← h]
    exact congrArg TxSock.name (Function.update_self _ _ _)
  · exact congrArg TxSock.name (Function.update_of_ne ht _ _)

lemma pushTx {s : SockId} {ps : List Packet} (h : callPackets ps = []) :
    TxFrame d (pushTx d s ps) := by
  refine ⟨le_rfl, fun _ _ => rfl, fun t => ?_, fun _ _ _ ht => Or.inl ht⟩
  by_cases ht : t = s
  · rw [ht]
    have hself : (Unetmsg.pushTx d s ps).txOut s = d.txOut s ++ ps := Function.update_self _ _ _
    rw [hself, callPackets_append, h, List.append_nil]
  · have hother : (Unetmsg.pushTx d s ps).txOut t = d.txOut t := Function.update_of_ne ht _ _
    rw [hother]

end TxFrame

section Changes

variable (d : Daemon)

lemma pubsubSet_tx (kind : Kind) (name : Name) (enabled : Bool) :
    TxFrame d (pubsubSet d kind name enabled) := by
  refine ⟨le_rfl, fun _ _ => rfl, fun t => ?_, fun _ _ _ ht => Or.inl ht⟩
  rw [pubsubSet]
  dsimp only
  split
  · rw [callPackets_append, show callPackets [.set kind name enabled] = [] from rfl,
      List.append_nil]
  · exact List.Sublist.refl _

lemma newTx_tx (net : Net) (host : Host) : TxFrame d (newTx d net host) := by
  rw [newTx]
  split
  · exact TxFrame.refl d
  · rename_i n hn
    refine ⟨Nat.le_succ _, fun t ht => ?_, fun t => ?_, fun net' host' t ht => ?_⟩
    · exact congrArg TxSock.name (Function.update_of_ne (Nat.ne_of_lt ht) _ _)
    · by_cases ht : t = d.next
      · rw [ht]
        have hself : Function.update d.txOut d.next [] d.next = [] := Function.update_self _ _ _
        show (callPackets (Function.update d.txOut d.next [] d.next)).Sublist _
        rw [hself]
        exact List.nil_sublist _
      · have hother : Function.update d.txOut d.next [] t = d.txOut t :=
          Function.update_of_ne ht _ _
        show (callPackets (Function.update d.txOut d.next [] t)).Sublist _
        rw [hother]
    · have hlook : ((d.networks.insert net { n with
          txChannels := n.txChannels.insert host d.next }).lookup net').bind
            (fun n => n.txChannels.lookup host') = some t := ht
      rw [lookup_insert_ite] at hlook
      by_cases hnet : net' = net
      · rw [if_pos hnet, Option.bind_some, lookup_insert_ite] at hlook
        by_cases hhost : host' = host
        · rw [if_pos hhost, Option.some.injEq] at hlook
          right
          rw [← hlook, hhost]
          have hself : Function.update d.tx d.next ⟨net, host, false, true⟩ d.next =
              ⟨net, host, false, true⟩ := Function.update_self _ _ _
          exact ⟨le_rfl, Nat.lt_succ_self _, congrArg TxSock.name hself⟩
        · rw [if_neg hhost] at hlook
          left
          rw [txChannel, hnet, hn]
          exact hlook
      · rw [if_neg hnet] at hlook
        exact Or.inl hlook

lemma callPackets_announcements : callPackets (announcements d) = [] := by
  rw [callPackets, List.filterMap_eq_nil_iff]
  intro p hp
  rw [announcements, List.mem_append, List.mem_map, List.mem_map] at hp
  rcases hp with ⟨name, -, rfl⟩ | ⟨name, -, rfl⟩
  · rfl
  · rfl

end Changes

namespace TxFrame

lemma frame : Frame TxFrame := ⟨refl, trans, fun _ _ _ => of_eq rfl rfl rfl le_rfl⟩

lemma clientFrame : ClientFrame TxFrame where
  toFrame := frame
  add := by
    intro d kind name client
    rw [pubsubAdd]
    split
    · have hnames : TxFrame d { d with names := addName d.names kind name } :=
        of_eq rfl rfl rfl le_rfl
      exact (hnames.trans (pubsubSet_tx _ kind name true)).trans
        (of_eq rfl rfl rfl (Nat.le_succ _))
    · exact of_eq rfl rfl rfl (Nat.le_succ _)
  del := by
    intro d kind name id
    rw [pubsubDel]
    have hdel : ∀ list, TxFrame d { d with table := setTable d.table kind name list } :=
      fun list => of_eq rfl rfl rfl le_rfl
    split
    · exact (hdel _).trans (pubsubSet_tx _ _ _ _)
    · exact hdel _
  clients := fun _ _ => of_eq rfl rfl rfl le_rfl

lemma netFrame : NetFrame TxFrame where
  toFrame := frame
  erasePeer := fun _ _ => of_eq rfl rfl rfl le_rfl
  network := setNetwork
  eraseNetwork := by
    refine fun d net => ⟨le_rfl, fun _ _ => rfl, fun _ => List.Sublist.refl _,
      fun net' host t ht => Or.inl ?_⟩
    rw [txChannel] at ht ⊢
    dsimp only at ht
    rw [lookup_erase_ite] at ht
    split at ht
    · cases ht
    · exact ht
  closeRx := fun _ _ => of_eq rfl rfl rfl le_rfl
  closeTx := fun _ _ => setTx rfl
  newTx := newTx_tx
  setRemote := fun _ _ _ _ => of_eq rfl rfl rfl le_rfl
  setRegistered := fun _ _ _ _ => of_eq rfl rfl rfl le_rfl

lemma upFrame : UpFrame TxFrame where
  toOpenFrame := netFrame.toOpen
  up := by
    intro d s
    have hset : TxFrame d (Unetmsg.setTx d s { d.tx s with auth := true }) := setTx rfl
    exact hset.trans (pushTx (callPackets_announcements d))
  auth := fun _ _ _ _ _ => pushTx rfl

end TxFrame

section Frames

variable (d : Daemon) (wildcard : String → String → Bool → Bool)

lemma handleCall_local_tx (kind : Kind) (method : Method) (handle : Option Client) (data : Data) :
    TxFrame d (handleCall kind method d handle data false none) :=
  TxFrame.of_eq rfl rfl rfl le_rfl

lemma rxCallback_tx (s : SockId) (msg : RxMsg) : TxFrame d (rxCallback wildcard d s msg) := by
  unfold rxCallback
  split
  · split
    · unfold networkSocketHandleRequest
      dsimp only
      split
      · exact TxFrame.refl d
      · split
        · split
          · exact TxFrame.refl d
          · exact TxFrame.netFrame.remote_set d wildcard _ _ _ _ _
        · exact handleCall_local_tx d _ _ _ _
        · exact handleCall_local_tx d _ _ _ _
        · exact TxFrame.refl d
    · split
      · exact TxFrame.of_eq rfl rfl rfl le_rfl
      · rename_i data id created
        have hin := TxFrame.netFrame.check_auth d (fun _ _ _ => TxFrame.of_eq rfl rfl rfl le_rfl) s data
        dsimp only
        split
        · split
          · exact hin.trans (TxFrame.of_eq rfl rfl rfl le_rfl)
          · exact hin
        · exact hin.trans (TxFrame.netFrame.rx_close _ s)
      · exact TxFrame.netFrame.rx_close d s
  · exact TxFrame.refl d

lemma networkAccept_tx (net : Net) (n : Network) (address : String) (id : Id) :
    TxFrame d (networkAccept d net n address id) := by
  rw [networkAccept]
  split
  · exact TxFrame.refl d
  · exact TxFrame.of_eq rfl rfl rfl (Nat.le_succ _)

end Frames

/-- The events by which a client, or a caller of the ubus object, sends something. -/
def Event.isSend : Event → Bool
  | .message _ _ _ | .request _ _ _ | .ubusRequest _ _ => true
  | _ => false

/-- Only these events put messages and requests on outgoing connections. -/
lemma step_tx (wildcard : String → String → Bool → Bool) (d : Daemon) {e : Event}
    (he : e.isSend = false) : TxFrame d (step wildcard d e) := by
  cases e with
  | message id data host | request id data host | ubusRequest data host => cases he
  | connect acl => exact TxFrame.of_eq rfl rfl rfl (Nat.le_succ _)
  | disconnect id => exact TxFrame.clientFrame.disconnect d id
  | pubsub kind id names => exact TxFrame.clientFrame.pubsub d wildcard kind id names
  | aclSet data => exact TxFrame.of_eq rfl rfl rfl le_rfl
  | accept net address id =>
    unfold step
    dsimp only
    split
    · exact networkAccept_tx d _ _ _ _
    · exact TxFrame.refl d
  | rx s msg => exact rxCallback_tx d wildcard s msg
  | rxClosed s => exact TxFrame.netFrame.rx_close d s
  | rxTimeout s =>
    unfold step
    dsimp only
    split
    · exact TxFrame.refl d
    · exact TxFrame.of_eq rfl rfl rfl le_rfl
  | connectPeers net created => exact TxFrame.netFrame.connect_peers d net created
  | tx s msg => exact TxFrame.upFrame.tx_callback d s msg
  | unetd networks listening => exact TxFrame.netFrame.unetd_update d networks listening

end Unetmsg
