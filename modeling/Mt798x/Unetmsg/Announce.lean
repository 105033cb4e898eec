import Mt798x.Unetmsg.Outgoing

/-!
# What a daemon tells its peers

A name is announced to the peers when its first handle comes and when its last one goes, and a
channel that comes up is told all keys of the tables.  This file follows what waits on an outgoing
connection: after every change of the tables the packets on an authenticated channel say of every
name whether it has a handle.
-/

namespace Unetmsg

/-! ## Reading the packets -/

def Packet.isSet : Packet → Bool
  | .set _ _ _ => true
  | _ => false

/-- Whether the other end has a name after it has read a packet.  An empty name is not read. -/
def toldBy (kind : Kind) (name : Name) (r : Bool) : Packet → Bool
  | .set kind' name' enabled => if kind' = kind ∧ name' = name ∧ name ≠ "" then enabled else r
  | _ => r

/-- Whether the other end has a name after it has read the packets that wait. -/
def told (kind : Kind) (name : Name) (r : Bool) (ps : List Packet) : Bool :=
  ps.foldl (toldBy kind name) r

section Told

variable (kind : Kind) (name : Name) (r : Bool)

@[simp] lemma told_nil : told kind name r [] = r := rfl

@[simp] lemma told_cons (p : Packet) (ps : List Packet) :
    told kind name r (p :: ps) = told kind name (toldBy kind name r p) ps := rfl

lemma told_append (ps qs : List Packet) :
    told kind name r (ps ++ qs) = told kind name (told kind name r ps) qs := List.foldl_append

lemma told_of_no_set {ps : List Packet} (h : ∀ p ∈ ps, p.isSet = false) :
    told kind name r ps = r := by
  induction ps with
  | nil => rfl
  | cons p ps ih =>
    have hp : toldBy kind name r p = r := by
      cases p with
      | set kind' name' enabled => cases h _ (List.mem_cons_self ..)
      | _ => rfl
    rw [told_cons, hp]
    exact ih fun q hq => h q (List.mem_cons_of_mem _ hq)

lemma told_map_set (kind' : Kind) (names : List Name) :
    told kind name r (names.map fun n => Packet.set kind' n true) =
      if kind' = kind ∧ name ∈ names ∧ name ≠ "" then true else r := by
  induction names generalizing r with
  | nil => simp
  | cons n names ih =>
    rw [List.map_cons, told_cons, ih]
    simp only [toldBy, List.mem_cons]
    by_cases hk : kind' = kind
    · by_cases hn : n = name
      · by_cases hempty : name = ""
        · simp [hk, hempty]
        · simp [hk, hn, hempty]
      · simp [hk, hn, Ne.symm hn]
    · simp [hk]

lemma told_announcements (d : Daemon) :
    told kind name r (announcements d) =
      if name ∈ d.names kind ∧ name ≠ "" then true else r := by
  rw [announcements, told_append, told_map_set, told_map_set]
  cases kind
  · simp
  · simp

end Told

/-! ## The tables -/

/-- Whether a name that the peers can be told of has a handle. -/
def listed (d : Daemon) (kind : Kind) (name : Name) : Bool :=
  decide (d.table kind name ≠ [] ∧ name ≠ "")

lemma txReady_iff (d : Daemon) (t : SockId) :
    d.txReady t = true ↔ (d.tx t).auth = true ∧ ∃ net host, txChannel d (host, net) = some t := by
  rw [Daemon.txReady, Bool.and_eq_true, List.any_eq_true]
  refine and_congr_right fun _ => ?_
  constructor
  · rintro ⟨⟨net, n⟩, hn, hany⟩
    obtain ⟨⟨host, s⟩, hs, heq⟩ := List.any_eq_true.mp hany
    have hst : s = t := by simpa using heq
    refine ⟨net, host, ?_⟩
    rw [txChannel, mem_entries_iff.mp hn, ← hst]
    exact mem_entries_iff.mp hs
  · rintro ⟨net, host, ht⟩
    rw [txChannel, Option.bind_eq_some_iff] at ht
    obtain ⟨n, hn, ht⟩ := ht
    refine ⟨⟨net, n⟩, mem_entries_iff.mpr hn, List.any_eq_true.mpr ⟨⟨host, t⟩, ?_, by simp⟩⟩
    exact mem_entries_iff.mpr ht

/-- The tables change, and every authenticated channel is told so. -/
structure Tracks (d d' : Daemon) : Prop where
  tx : d'.tx = d.tx
  networks : d'.networks = d.networks
  next : d.next ≤ d'.next
  quiet : ∀ t, d.txReady t = false →
    ∃ ps, d'.txOut t = d.txOut t ++ ps ∧ ∀ p ∈ ps, p.isSet = false
  told : ∀ t kind name r, d.txReady t = true →
    told kind name r (d.txOut t) = listed d kind name →
    told kind name r (d'.txOut t) = listed d' kind name

namespace Tracks

variable {d d' d'' : Daemon}

lemma ready (h : Tracks d d') (t : SockId) : d'.txReady t = d.txReady t := by
  rw [Daemon.txReady, h.tx, h.networks, Daemon.txReady]

lemma refl (d : Daemon) : Tracks d d :=
  ⟨rfl, rfl, le_rfl, fun _ _ => ⟨[], by simp, by simp⟩, fun _ _ _ _ _ h => h⟩

lemma trans (h : Tracks d d') (h' : Tracks d' d'') : Tracks d d'' where
  tx := h'.tx.trans h.tx
  networks := h'.networks.trans h.networks
  next := h.next.trans h'.next
  quiet := by
    intro t ht
    obtain ⟨ps, hps, hset⟩ := h.quiet t ht
    obtain ⟨qs, hqs, hset'⟩ := h'.quiet t ((h.ready t).trans ht)
    refine ⟨ps ++ qs, by rw [hqs, hps, List.append_assoc], fun p hp => ?_⟩
    rcases List.mem_append.mp hp with hp | hp
    · exact hset p hp
    · exact hset' p hp
  told := fun t kind name r ht heq =>
    h'.told t kind name r ((h.ready t).trans ht) (h.told t kind name r ht heq)

lemma of_eq (htx : d'.tx = d.tx) (hout : d'.txOut = d.txOut) (hnet : d'.networks = d.networks)
    (htable : d'.table = d.table) (hnext : d.next ≤ d'.next) : Tracks d d' where
  tx := htx
  networks := hnet
  next := hnext
  quiet := fun t _ => ⟨[], by rw [hout, List.append_nil], by simp⟩
  told := by
    intro t kind name r _ heq
    rw [hout, heq, listed, listed, htable]

/-- The handles of one name change.  The channels are told whether any are left, or nothing when
there were some and still are. -/
lemma of_table {kind : Kind} {name : Name} {list : List Handle} (htx : d'.tx = d.tx)
    (hnet : d'.networks = d.networks) (hnext : d.next ≤ d'.next)
    (htable : ∀ kind' name', d'.table kind' name' =
      if kind' = kind ∧ name' = name then list else d.table kind' name')
    (hquiet : ∀ t, d.txReady t = false → d'.txOut t = d.txOut t)
    (hout : (∀ t, d.txReady t = true →
        d'.txOut t = d.txOut t ++ [.set kind name (decide (list ≠ []))]) ∨
      (d.table kind name ≠ [] ∧ list ≠ [] ∧ ∀ t, d'.txOut t = d.txOut t)) : Tracks d d' where
  tx := htx
  networks := hnet
  next := hnext
  quiet := fun t ht => ⟨[], by rw [hquiet t ht, List.append_nil], by simp⟩
  told := by
    intro t kind' name' r ht heq
    rw [listed, htable]
    by_cases hsame : kind' = kind ∧ name' = name
    · obtain ⟨rfl, rfl⟩ := hsame
      rw [if_pos ⟨rfl, rfl⟩]
      rcases hout with hout | ⟨hold, hlist, hout⟩
      · rw [hout t ht, told_append, heq, told_cons, told_nil]
        by_cases hempty : name' = ""
        · simp [toldBy, listed, hempty]
        · simp [toldBy, hempty]
      · rw [hout t, heq, listed]
        simp [hold, hlist]
    · rw [if_neg hsame]
      rcases hout with hout | ⟨-, -, hout⟩
      · rw [hout t ht, told_append, heq, told_cons, told_nil, toldBy, if_neg, listed]
        exact fun hc => hsame ⟨hc.1.symm, hc.2.1.symm⟩
      · rw [hout t, heq, listed]

end Tracks

section Tables

variable (d : Daemon)

lemma pubsubSet_ready (kind : Kind) (name : Name) (enabled : Bool) (t : SockId) :
    (d.txReady t = true → (pubsubSet d kind name enabled).txOut t =
        d.txOut t ++ [.set kind name enabled]) ∧
      (d.txReady t = false → (pubsubSet d kind name enabled).txOut t = d.txOut t) := by
  rw [pubsubSet]
  dsimp only
  constructor
  · exact fun ht => if_pos ht
  · intro ht
    rw [ht]
    rfl

lemma pubsubAdd_tracks (kind : Kind) (name : Name) (c : Client) :
    Tracks d (pubsubAdd d kind name c) := by
  have htable := pubsubAdd_table d kind name c
  have hsome : d.table kind name ++ [(⟨d.next, c⟩ : Handle)] ≠ [] := by simp
  unfold pubsubAdd at htable ⊢
  split
  · rename_i hset
    rw [if_pos hset] at htable
    set d1 : Daemon := { d with names := addName d.names kind name }
    refine Tracks.of_table rfl rfl (Nat.le_succ _) htable
      (fun t ht => (pubsubSet_ready d1 kind name true t).2 ht) (Or.inl fun t ht => ?_)
    rw [decide_eq_true hsome]
    exact (pubsubSet_ready d1 kind name true t).1 ht
  · rename_i hset
    rw [if_neg hset] at htable
    rw [not_or] at hset
    exact Tracks.of_table rfl rfl (Nat.le_succ _) htable (fun _ _ => rfl)
      (Or.inr ⟨hset.1, hsome, fun _ => rfl⟩)

lemma pubsubDel_tracks (kind : Kind) (name : Name) (id : HandleId) :
    Tracks d (pubsubDel d kind name id) := by
  have htable := pubsubDel_table d kind name id
  unfold pubsubDel at htable ⊢
  dsimp only at htable ⊢
  set list := (d.table kind name).filter fun h => h.id ≠ id with hlist
  set d1 : Daemon := { d with table := setTable d.table kind name list }
  split
  · rename_i hset
    rw [if_pos hset] at htable
    exact Tracks.of_table rfl rfl le_rfl htable
      (fun t ht => (pubsubSet_ready d1 kind name _ t).2 ht)
      (Or.inl fun t ht => (pubsubSet_ready d1 kind name _ t).1 ht)
  · rename_i hset
    rw [if_neg hset] at htable
    rw [not_or] at hset
    refine Tracks.of_table rfl rfl le_rfl htable (fun _ _ => rfl)
      (Or.inr ⟨fun hnil => hset.1 ?_, hset.1, fun _ => rfl⟩)
    rw [hlist, hnil, List.filter_nil]

lemma sendRemote_tracks (method : Method) (data : Data) (remote : Host × Net) :
    Tracks d (sendRemote d (.call method data) remote) := by
  rw [sendRemote]
  split
  · rename_i s _
    have hout : ∀ t, ∃ ps, (pushTx d s [.call method data]).txOut t = d.txOut t ++ ps ∧
        ∀ p ∈ ps, p.isSet = false := by
      intro t
      by_cases ht : t = s
      · refine ⟨[.call method data], ?_, by simp [Packet.isSet]⟩
        rw [ht]
        exact Function.update_self _ _ _
      · exact ⟨[], (Function.update_of_ne ht _ _).trans (List.append_nil _).symm, by simp⟩
    refine ⟨rfl, rfl, le_rfl, fun t _ => hout t, fun t kind name r _ heq => ?_⟩
    obtain ⟨ps, hps, hset⟩ := hout t
    rw [hps, told_append, told_of_no_set _ _ _ hset, heq]
    rfl
  · exact Tracks.refl d

namespace Tracks

lemma frame : Frame Tracks := ⟨refl, trans, fun _ _ _ => of_eq rfl rfl rfl rfl le_rfl⟩

lemma clientFrame : ClientFrame Tracks where
  toFrame := frame
  add := pubsubAdd_tracks
  del := pubsubDel_tracks
  clients := fun _ _ => of_eq rfl rfl rfl rfl le_rfl

lemma callFrame : CallFrame Tracks where
  toFrame := frame
  deliver := fun _ _ => of_eq rfl rfl rfl rfl le_rfl
  send := sendRemote_tracks

end Tracks

lemma step_tracks (wildcard : String → String → Bool → Bool) {e : Event}
    (he : e.isLocal = true ∨ e.isSend = true) : Tracks d (step wildcard d e) := by
  cases e with
  | connect acl => exact Tracks.of_eq rfl rfl rfl rfl (Nat.le_succ _)
  | disconnect id => exact Tracks.clientFrame.disconnect d id
  | pubsub kind id names => exact Tracks.clientFrame.pubsub d wildcard kind id names
  | aclSet data => exact Tracks.of_eq rfl rfl rfl rfl le_rfl
  | message id data host => exact Tracks.callFrame.client_message d id data host
  | request id data host => exact Tracks.callFrame.client_request d wildcard id data host
  | ubusRequest data host => exact Tracks.callFrame.call d _ _ _ _ _ _
  | _ => rcases he with he | he <;> cases he

end Tables

/-! ## The channels -/

/-- Connections are closed and opened.  What waits on the old ones stays, and the new ones are not
authenticated and have nothing. -/
structure Reopened (d d' : Daemon) : Prop where
  next : d.next ≤ d'.next
  table : d'.table = d.table
  sock : ∀ t, ((d'.tx t).auth = (d.tx t).auth ∧ (d'.tx t).name = (d.tx t).name ∧
      d'.txOut t = d.txOut t) ∨
    (d.next ≤ t ∧ (d'.tx t).auth = false ∧ d'.txOut t = [])
  chan : ∀ net host t, txChannel d' (host, net) = some t →
    txChannel d (host, net) = some t ∨ (d'.tx t).auth = false

namespace Reopened

variable {d d' d'' : Daemon}

lemma refl (d : Daemon) : Reopened d d :=
  ⟨le_rfl, rfl, fun _ => Or.inl ⟨rfl, rfl, rfl⟩, fun _ _ _ h => Or.inl h⟩

lemma trans (h : Reopened d d') (h' : Reopened d' d'') : Reopened d d'' where
  next := h.next.trans h'.next
  table := h'.table.trans h.table
  sock := by
    intro t
    rcases h'.sock t with ⟨hauth', hname', hout'⟩ | ⟨hlt, hauth', hout'⟩
    · rw [hauth', hname', hout']
      exact h.sock t
    · exact Or.inr ⟨h.next.trans hlt, hauth', hout'⟩
  chan := by
    intro net host t ht
    rcases h'.chan net host t ht with ht | hauth
    · rcases h.chan net host t ht with ht | hauth
      · exact Or.inl ht
      · rcases h'.sock t with ⟨hauth', -, -⟩ | ⟨-, hauth', -⟩
        · exact Or.inr (hauth'.trans hauth)
        · exact Or.inr hauth'
    · exact Or.inr hauth

lemma of_eq (htx : d'.tx = d.tx) (hout : d'.txOut = d.txOut) (hnet : d'.networks = d.networks)
    (htable : d'.table = d.table) (hnext : d.next ≤ d'.next) : Reopened d d' :=
  ⟨hnext, htable, fun t => Or.inl ⟨by rw [htx], by rw [htx], by rw [hout]⟩,
    fun net host t h => Or.inl (by rwa [txChannel, hnet] at h)⟩

lemma setNetwork {net : Net} {n : Network}
    (h : ∀ host t, n.txChannels.lookup host = some t → txChannel d (host, net) = some t) :
    Reopened d (setNetwork d net n) :=
  ⟨le_rfl, rfl, fun _ => Or.inl ⟨rfl, rfl, rfl⟩,
    fun net' host t ht => Or.inl (((TxFrame.setNetwork h).chan net' host t ht).resolve_right
      fun hc => absurd (hc.1.trans_lt hc.2.1) (lt_irrefl _))⟩

/-- A connection is authenticated after the changes only if it was, and then it is still the
channel of its host. -/
lemma ready (h : Reopened d d') {t : SockId} (ht : d'.txReady t = true) : d.txReady t = true := by
  rw [txReady_iff] at ht ⊢
  obtain ⟨hauth, net, host, hchan⟩ := ht
  rcases h.sock t with ⟨hauth', -, -⟩ | ⟨-, hauth', -⟩
  · rcases h.chan net host t hchan with hchan' | hfalse
    · exact ⟨hauth'.symm.trans hauth, net, host, hchan'⟩
    · rw [hfalse] at hauth
      cases hauth
  · rw [hauth'] at hauth
    cases hauth

lemma out (h : Reopened d d') {t : SockId} (ht : d'.txReady t = true) :
    d'.txOut t = d.txOut t ∧ (d'.tx t).name = (d.tx t).name := by
  rcases h.sock t with ⟨-, hname, hout⟩ | ⟨-, hauth, -⟩
  · exact ⟨hout, hname⟩
  · rw [txReady_iff, hauth] at ht
    cases ht.1

end Reopened

section Channels

variable (d : Daemon)

lemma closeTx_reopened (s : SockId) : Reopened d (closeTx d s) := by
  refine ⟨le_rfl, rfl, fun t => Or.inl ?_, fun _ _ _ h => Or.inl h⟩
  by_cases ht : t = s
  · have hself : (closeTx d s).tx s = { d.tx s with isOpen := false } := Function.update_self _ _ _
    rw [ht, hself]
    exact ⟨rfl, rfl, rfl⟩
  · have hother : (closeTx d s).tx t = d.tx t := Function.update_of_ne ht _ _
    rw [hother]
    exact ⟨rfl, rfl, rfl⟩

lemma newTx_reopened (net : Net) (host : Host) : Reopened d (newTx d net host) := by
  rcases hn : d.networks.lookup net with _ | n
  · have heq : newTx d net host = d := by
      rw [newTx, hn]
    rw [heq]
    exact Reopened.refl d
  · have heq : newTx d net host =
        { setNetwork (setTx d d.next ⟨net, host, false, true⟩) net
            { n with txChannels := n.txChannels.insert host d.next } with
          txOut := Function.update d.txOut d.next []
          next := d.next + 1 } := by
      rw [newTx, hn]
    have hnew : ((newTx d net host).tx d.next).auth = false ∧
        (newTx d net host).txOut d.next = [] := by
      rw [heq]
      refine ⟨?_, Function.update_self _ _ _⟩
      exact congrArg TxSock.auth (Function.update_self d.next _ d.tx)
    refine ⟨(newTx_tx d net host).next, ?_, fun t => ?_, fun net' host' t ht => ?_⟩
    · rw [heq]
      rfl
    · by_cases ht : t = d.next
      · rw [ht]
        exact Or.inr ⟨le_rfl, hnew⟩
      · left
        rw [heq]
        have htx : Function.update d.tx d.next ⟨net, host, false, true⟩ t = d.tx t :=
          Function.update_of_ne ht _ _
        exact ⟨congrArg TxSock.auth htx, congrArg TxSock.name htx, Function.update_of_ne ht _ _⟩
    · rcases (newTx_tx d net host).chan net' host' t ht with hold | ⟨hlo, hhi, -⟩
      · exact Or.inl hold
      · have hnext : (newTx d net host).next = d.next + 1 := by
          rw [heq]
        rw [hnext] at hhi
        rw [show t = d.next from le_antisymm (Nat.lt_succ_iff.mp hhi) hlo]
        exact Or.inr hnew.1

lemma Reopened.netFrame : NetFrame Reopened where
  refl := refl
  trans := trans
  publish := fun _ _ _ => of_eq rfl rfl rfl rfl le_rfl
  erasePeer := fun _ _ => of_eq rfl rfl rfl rfl le_rfl
  network := setNetwork
  eraseNetwork := fun d net => ⟨le_rfl, rfl, fun _ => Or.inl ⟨rfl, rfl, rfl⟩,
    fun net' host t ht => Or.inl (((TxFrame.netFrame.eraseNetwork d net).chan net' host t
      ht).resolve_right fun hc => absurd (hc.1.trans_lt hc.2.1) (lt_irrefl _))⟩
  closeRx := fun _ _ => of_eq rfl rfl rfl rfl le_rfl
  closeTx := closeTx_reopened
  newTx := newTx_reopened
  setRemote := fun _ _ _ _ => of_eq rfl rfl rfl rfl le_rfl
  setRegistered := fun _ _ _ _ => of_eq rfl rfl rfl rfl le_rfl

/-- What a channel that comes up changes. -/
structure CameUp (d : Daemon) (s : SockId) (d' : Daemon) : Prop where
  tx : d'.tx = Function.update d.tx s { d.tx s with auth := true }
  out : d'.txOut = Function.update d.txOut s (d.txOut s ++ announcements d)
  networks : d'.networks = d.networks
  table : d'.table = d.table
  next : d'.next = d.next

lemma cameUp_notifyPublished (s : SockId) :
    CameUp d s (notifyPublished (channelUp d s) (d.tx s).network (d.tx s).name) := by
  have hup : CameUp d s (channelUp d s) := ⟨rfl, rfl, rfl, rfl, rfl⟩
  rw [notifyPublished]
  split
  · exact List.foldlRecOn _ _ (motive := CameUp d s) hup
      fun _ h _ _ => ⟨h.tx, h.out, h.networks, h.table, h.next⟩
  · exact hup

/-- The callbacks of an outgoing connection: it is closed, it sends an `auth`, or it comes up. -/
lemma txCallback_cases (s : SockId) (msg : TxMsg) :
    Reopened d (txCallback d s msg) ∨
      ((d.tx s).auth = false ∧ ∃ p, p.isSet = false ∧ txCallback d s msg = pushTx d s [p]) ∨
      ∃ data, msg = .reply data ∧ (d.tx s).isOpen = true ∧
        networkAuthValid (d.tx s).name none data = true ∧ CameUp d s (txCallback d s msg) := by
  have hclose := Or.inl (b := ((d.tx s).auth = false ∧ ∃ p : Packet, p.isSet = false ∧
    txSocketClose d s = pushTx d s [p]) ∨ ∃ data, msg = .reply data ∧ (d.tx s).isOpen = true ∧
    networkAuthValid (d.tx s).name none data = true ∧ CameUp d s (txSocketClose d s))
    (Reopened.netFrame.toOpen.tx_close d s)
  unfold txCallback
  split
  · rename_i hopen
    cases msg with
    | reply data =>
      dsimp only
      unfold authDataCb
      split
      · rename_i hvalid
        exact Or.inr (Or.inr ⟨data, rfl, hopen, hvalid, cameUp_notifyPublished d s⟩)
      · exact Or.inl (Reopened.refl d)
    | closed => exact hclose
    | hello id created =>
      dsimp only
      split
      · exact Or.inl (Reopened.refl d)
      · rename_i hauth
        split
        · exact Or.inr (Or.inl ⟨by simpa using hauth, _, rfl, rfl⟩)
        · exact hclose
    | other | done | timeout =>
      dsimp only
      split
      · exact Or.inl (Reopened.refl d)
      · exact hclose
  · exact Or.inl (Reopened.refl d)

end Channels

end Unetmsg
