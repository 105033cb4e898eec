import Mt798x.Unetmsg.Access
import Mt798x.Unetmsg.Outgoing

/-!
# Delivery between hosts

Any number of daemons, each known by the name of its host in all its networks, with connections
between them on which messages wait, are delivered in order or are lost.  A message that a client
sends is delivered to the local handles at once, and one copy goes to every host that the table of
the name has; a host that receives a copy gives it to its clients and does not send it on.  So a
client gets a message at most once, and its sender not at all.
-/

namespace Unetmsg

variable {wildcard : String → String → Bool → Bool}

/-! ## One daemon -/

/-- Outgoing connections are in their networks under the name of their host. -/
def TxNames (d : Daemon) : Prop :=
  ∀ net host t, txChannel d (host, net) = some t → t < d.next ∧ (d.tx t).name = host

lemma TxNames.frame {d d' : Daemon} (h : TxNames d) (hframe : TxFrame d d') : TxNames d' := by
  intro net host t ht
  rcases hframe.chan net host t ht with ht | ⟨-, hlt, hname⟩
  · obtain ⟨hlt, hname⟩ := h net host t ht
    exact ⟨hlt.trans_le hframe.next, (hframe.name t hlt).trans hname⟩
  · exact ⟨hlt, hname⟩

/-- What a message or request does to a daemon: it goes to local clients, each of them at most
once, and one copy of it to connections of certain hosts. -/
structure CallSpec (d : Daemon) (tag : ℕ) (toClient : Client → Prop) (toHost : Host → Prop)
    (d' : Daemon) : Prop where
  core : CoreSame d d'
  tx : d'.tx = d.tx
  networks : d'.networks = d.networks
  next : d'.next = d.next
  calls : ∃ l, calls d' = calls d ++ l ∧ (l.map Delivery.client).Nodup ∧
    ∀ x ∈ l, x.data.tag = tag ∧ toClient x.client
  out : ∀ t, callPackets (d'.txOut t) = callPackets (d.txOut t) ∨
    ∃ data, callPackets (d'.txOut t) = callPackets (d.txOut t) ++ [data] ∧ data.tag = tag ∧
      t < d.next ∧ toHost (d.tx t).name
  single : ∀ t t', callPackets (d'.txOut t) ≠ callPackets (d.txOut t) →
    callPackets (d'.txOut t') ≠ callPackets (d.txOut t') → (d.tx t).name = (d.tx t').name → t = t'

lemma CallSpec.refl (d : Daemon) (tag : ℕ) (toClient : Client → Prop) (toHost : Host → Prop) :
    CallSpec d tag toClient toHost d :=
  ⟨CoreSame.refl d, rfl, rfl, rfl, ⟨[], by simp, by simp, by simp⟩, fun _ => Or.inl rfl,
    fun _ _ h => absurd rfl h⟩

lemma nodup_localDeliveries {d : Daemon} {kind : Kind} {name : Name} (hreg : Registry d)
    (method : Method) (data : Data) {handles : List Handle}
    (hsub : handles.Sublist (d.table kind name)) :
    ((localDeliveries d method data handles).map Delivery.client).Nodup := by
  have hmap : (localDeliveries d method data handles).map Delivery.client =
      (handles.filter fun h => (d.clients h.client).isSome).map Handle.client := by
    rw [localDeliveries, List.map_map]
    rfl
  rw [hmap]
  exact List.Nodup.sublist ((List.filter_sublist.trans hsub).map Handle.client)
    (hreg.nodup_clients kind name)

lemma getHandles_sublist (handle : Option Client) (locals : List Handle)
    (remote : Option (Obj Host Net)) (host : Option Host) :
    (getHandles handle locals remote host).1.Sublist locals := by
  rw [getHandles_local]
  split
  · exact List.filter_sublist
  · simp

/-- The hosts that `get_handles` gives: each once, the one that is asked for if there is one. -/
lemma getHandles_remote (handle : Option Client) (locals : List Handle)
    (remote : Option (Obj Host Net)) (host : Option Host) :
    ((getHandles handle locals remote host).2.map Prod.fst).Nodup ∧
      ∀ cur ∈ (getHandles handle locals remote host).2,
        remote.isSome = true ∧ host ≠ some "" ∧ (host = none ∨ host = some cur.1) := by
  unfold getHandles
  dsimp only
  by_cases hempty : host = some ""
  · rw [if_pos hempty]
    simp
  · rw [if_neg hempty]
    cases remote with
    | none => simp
    | some remote =>
      dsimp only
      refine ⟨?_, ?_⟩
      · rw [List.map_map]
        have hkeys : (remote.entries.map Sigma.fst).Nodup := remote.keys_nodup
        exact List.Nodup.sublist (List.filter_sublist.map Sigma.fst) hkeys
      · intro cur hcur
        obtain ⟨c, hc, rfl⟩ := List.mem_map.mp hcur
        refine ⟨rfl, hempty, ?_⟩
        simpa using (List.mem_filter.mp hc).2

/-- The copies of a call that wait on a connection: one for each remote handle of the
connection. -/
lemma foldl_sendRemote (method : Method) (data : Data) (l : List (Host × Net)) (d : Daemon) :
    let d' := l.foldl (fun d cur => sendRemote d (.call method data) cur) d
    d'.tx = d.tx ∧ d'.networks = d.networks ∧ d'.next = d.next ∧
      ∀ t, callPackets (d'.txOut t) = callPackets (d.txOut t) ++
        List.replicate (l.countP fun cur => txChannel d cur = some t) data := by
  induction l generalizing d with
  | nil => exact ⟨rfl, rfl, rfl, fun t => by simp⟩
  | cons cur l ih =>
    obtain ⟨htx, hnet, hnext, hout⟩ := ih (sendRemote d (.call method data) cur)
    have hsend : (sendRemote d (.call method data) cur).tx = d.tx ∧
        (sendRemote d (.call method data) cur).networks = d.networks ∧
        (sendRemote d (.call method data) cur).next = d.next := by
      rw [sendRemote]
      split <;> exact ⟨rfl, rfl, rfl⟩
    have hchan : ∀ cur', txChannel (sendRemote d (.call method data) cur) cur' =
        txChannel d cur' := by
      intro cur'
      rw [txChannel, hsend.2.1, txChannel]
    refine ⟨htx.trans hsend.1, hnet.trans hsend.2.1, hnext.trans hsend.2.2, fun t => ?_⟩
    rw [List.foldl_cons, hout, List.countP_cons]
    simp only [hchan]
    have hone : callPackets ((sendRemote d (.call method data) cur).txOut t) =
        callPackets (d.txOut t) ++ List.replicate (if txChannel d cur = some t then 1 else 0)
          data := by
      rw [sendRemote]
      split
      · rename_i s hs
        rw [hs]
        by_cases ht : t = s
        · have hself : (pushTx d s [.call method data]).txOut s =
              d.txOut s ++ [.call method data] := Function.update_self _ _ _
          rw [ht, hself, callPackets_append, if_pos rfl]
          rfl
        · have hother : (pushTx d s [.call method data]).txOut t = d.txOut t :=
            Function.update_of_ne ht _ _
          rw [hother, if_neg (fun h => ht (Option.some.inj h).symm)]
          simp
      · rename_i hs
        rw [hs]
        simp
    rw [hone, List.append_assoc, ← List.replicate_add]
    congr 2
    simp only [decide_eq_true_eq]
    omega

lemma countP_le_one {α β : Type} [DecidableEq α] {l : List (α × β)} (hnodup : (l.map Prod.fst).Nodup)
    {p : α × β → Bool} {k : α} (hp : ∀ cur ∈ l, p cur = true → cur.1 = k) : l.countP p ≤ 1 := by
  calc l.countP p ≤ l.countP fun cur => cur.1 == k :=
        List.countP_mono_left fun cur hcur h => by simpa using hp cur hcur h
    _ = (l.map Prod.fst).count k := by
        rw [List.count, List.countP_map]
        rfl
    _ ≤ 1 := List.nodup_iff_count_le_one.mp hnodup k

lemma handleCall_spec {d : Daemon} (hreg : Registry d) (hnames : TxNames d) (kind : Kind)
    (method : Method) (hmethod : method ≠ .publish) (handle : Option Client) (data : Data)
    (remote : Bool) (host : Option Host) :
    CallSpec d data.tag (fun c => handle ≠ some c ∧ (host = some "" ∨ host = none))
      (fun h => remote = true ∧ host ≠ some "" ∧ (host = none ∨ host = some h))
      (handleCall kind method d handle data remote host) := by
  set handles := getHandles handle (d.table kind data.name)
    (if remote then some (d.remote kind data.name) else none) host with hhandles
  set d1 : Daemon := { d with
    delivered := d.delivered ++ localDeliveries d method data handles.1 } with hd1
  obtain ⟨hnodup, hremote⟩ := getHandles_remote handle (d.table kind data.name)
    (if remote then some (d.remote kind data.name) else none) host
  obtain ⟨htx, hnet, hnext, hout⟩ := foldl_sendRemote method data handles.2 d1
  -- the remote handles of a connection have the name of its host
  have hsame : ∀ t, ∀ cur ∈ handles.2, txChannel d1 cur = some t →
      t < d.next ∧ cur.1 = (d.tx t).name := by
    intro t cur _ ht
    obtain ⟨hlt, hname⟩ := hnames cur.2 cur.1 t ht
    exact ⟨hlt, hname.symm⟩
  have hpos : ∀ t, 0 < (handles.2.countP fun cur => txChannel d1 cur = some t) →
      ∃ cur ∈ handles.2, txChannel d1 cur = some t := by
    intro t ht
    obtain ⟨cur, hcur, ht⟩ := List.countP_pos_iff.mp ht
    exact ⟨cur, hcur, by simpa using ht⟩
  refine ⟨CoreSame.callFrame.call d _ _ _ _ _ _, htx, hnet, hnext, ?_, fun t => ?_, fun t t' ht ht' heq => ?_⟩
  · refine ⟨localDeliveries d method data handles.1, calls_handleCall hmethod _ _ _ _,
      nodup_localDeliveries hreg method data (getHandles_sublist _ _ _ _), fun x hx => ?_⟩
    obtain ⟨-, hdata, hhost, -, -, -, hne⟩ := mem_localDeliveries_call hx
    exact ⟨by rw [hdata], hne, hhost⟩
  · have hle : (handles.2.countP fun cur => txChannel d1 cur = some t) ≤ 1 :=
      countP_le_one hnodup fun cur hcur h => (hsame t cur hcur (by simpa using h)).2
    rcases Nat.le_one_iff_eq_zero_or_eq_one.mp hle with hzero | hone
    · left
      refine (hout t).trans ?_
      rw [hzero, List.replicate_zero, List.append_nil]
    · right
      refine ⟨data, (hout t).trans (by rw [hone]; rfl), rfl, ?_⟩
      obtain ⟨cur, hcur, ht⟩ := hpos t (by rw [hone]; exact Nat.one_pos)
      obtain ⟨hlt, hname⟩ := hsame t cur hcur ht
      obtain ⟨hsome, hne, hhost⟩ := hremote cur hcur
      refine ⟨hlt, ?_, hne, ?_⟩
      · cases remote
        · cases hsome
        · rfl
      · rw [← hname]
        exact hhost
  · -- the table has one handle of a host
    have hgrown : ∀ t, callPackets ((handleCall kind method d handle data remote host).txOut t) ≠
        callPackets (d.txOut t) → ∃ cur ∈ handles.2, txChannel d1 cur = some t := by
      intro t ht
      refine hpos t (Nat.pos_of_ne_zero fun hzero => ht ?_)
      refine (hout t).trans ?_
      rw [hzero, List.replicate_zero, List.append_nil]
    obtain ⟨cur, hcur, hchan⟩ := hgrown t ht
    obtain ⟨cur', hcur', hchan'⟩ := hgrown t' ht'
    have hfst : cur.1 = cur'.1 := by
      rw [(hsame t cur hcur hchan).2, (hsame t' cur' hcur' hchan').2, heq]
    have hcc := List.inj_on_of_nodup_map hnodup hcur hcur' hfst
    rw [hcc, hchan', Option.some.injEq] at hchan
    exact hchan.symm

/-! ## Sending and receiving -/

/-- The client that an event comes from. -/
def Event.sender : Event → Option Client
  | .message id _ _ | .request id _ _ => some id
  | _ => none

/-- The `host` argument of an event. -/
def Event.target : Event → Option Host
  | .message _ _ host | .request _ _ host | .ubusRequest _ host => host
  | _ => none

/-- What an event sends, with its tag set. -/
def Event.retag (tag : ℕ) : Event → Event
  | .message id data host => .message id { data with tag := tag } host
  | .request id data host => .request id { data with tag := tag } host
  | .ubusRequest data host => .ubusRequest { data with tag := tag } host
  | e => e

/-- A client, or a caller of the ubus object, sends something. -/
lemma send_spec (wildcard : String → String → Bool → Bool) {d : Daemon} (hreg : Registry d) (hnames : TxNames d) {e : Event}
    (he : e.isSend = true) (tag : ℕ) :
    CallSpec d tag (fun c => e.sender ≠ some c ∧ (e.target = some "" ∨ e.target = none))
      (fun h => e.target ≠ some "" ∧ (e.target = none ∨ e.target = some h))
      (step wildcard d (e.retag tag)) := by
  have hcall : ∀ {kind method} (_ : method ≠ Method.publish) (data : Data),
      CallSpec d tag (fun c => e.sender ≠ some c ∧ (e.target = some "" ∨ e.target = none))
        (fun h => e.target ≠ some "" ∧ (e.target = none ∨ e.target = some h))
        (handleCall kind method d e.sender { data with tag := tag } true e.target) := by
    intro kind method hmethod data
    have hspec := handleCall_spec hreg hnames kind method hmethod e.sender
      { data with tag := tag } true e.target
    exact ⟨hspec.core, hspec.tx, hspec.networks, hspec.next, hspec.calls, fun t =>
      (hspec.out t).imp_right fun ⟨data, h1, h2, h3, h4⟩ => ⟨data, h1, h2, h3, h4.2⟩,
      hspec.single⟩
  cases e with
  | message id data host =>
    simp only [Event.retag, step, clientMessage]
    split
    · exact CallSpec.refl _ _ _ _
    · split
      · exact hcall (by decide) data
      · exact CallSpec.refl _ _ _ _
  | request id data host =>
    simp only [Event.retag, step, clientRequest]
    split
    · exact CallSpec.refl _ _ _ _
    · split
      · exact hcall (by decide) data
      · exact CallSpec.refl _ _ _ _
  | ubusRequest data host => exact hcall (by decide) data
  | _ => cases he

lemma receive_spec (wildcard : String → String → Bool → Bool) {d : Daemon} (hreg : Registry d) (hnames : TxNames d) (s : SockId)
    (method : Method) (data : Data) :
    ∃ l, calls (rxCallback wildcard d s (.call method data)) = calls d ++ l ∧
      (l.map Delivery.client).Nodup ∧ ∀ x ∈ l, x.data.tag = data.tag := by
  rcases rxCallback_cases d wildcard s (.call method data) with
    hq | ⟨data', n, -, -, -, ⟨hmsg, heq⟩ | ⟨hmsg, heq⟩⟩
  · exact ⟨[], by rw [hq.calls, List.append_nil], by simp, by simp⟩
  · cases hmsg
    rw [heq]
    obtain ⟨l, hl, hnodup, hmem⟩ := (handleCall_spec hreg hnames .publish .request
      (by decide) none
      { data with host := some (d.rx s).name, network := some (d.rx s).network } false none).calls
    exact ⟨l, hl, hnodup, fun x hx => (hmem x hx).1⟩
  · cases hmsg
    rw [heq]
    obtain ⟨l, hl, hnodup, hmem⟩ := (handleCall_spec hreg hnames .subscribe .message
      (by decide) none
      { data with host := some (d.rx s).name, network := some (d.rx s).network } false none).calls
    exact ⟨l, hl, hnodup, fun x hx => (hmem x hx).1⟩

/-! ## Many daemons -/

lemma nodup_of_length_le_one {α : Type} {l : List α} (h : l.length ≤ 1) : l.Nodup := by
  rcases l with _ | ⟨x, _ | ⟨y, l⟩⟩
  · exact List.nodup_nil
  · exact List.nodup_singleton x
  · simp at h

/-- What a client has sent: from which host, by which client, and to which host. -/
structure Sent where
  host : Host
  client : Option Client
  target : Option Host
  deriving DecidableEq, Repr

/-- Daemons and the connections between them.  `link` gives the incoming connection at the other
end of an outgoing one; the tag of what is sent is its place in `sent`. -/
structure World where
  daemon : Host → Daemon
  link : Host → SockId → Option (Host × SockId)
  sent : List Sent

def World.init : World := ⟨fun _ => Daemon.init, fun _ _ => none, []⟩

def World.set (w : World) (b : Host) (d : Daemon) : World :=
  { w with daemon := Function.update w.daemon b d }

section Set

variable (w : World) (b : Host) (d : Daemon)

lemma World.set_self : (w.set b d).daemon b = d := Function.update_self _ _ _

lemma World.set_of_ne {a : Host} (h : a ≠ b) : (w.set b d).daemon a = w.daemon a :=
  Function.update_of_ne h _ _

variable {w b d}

lemma World.forall_set {P : Host → Daemon → Prop} (hb : P b d) (hother : ∀ a, P a (w.daemon a))
    (a : Host) : P a ((w.set b d).daemon a) := by
  by_cases ha : a = b
  · rw [ha, World.set_self]
    exact hb
  · rw [World.set_of_ne w b d ha]
    exact hother a

end Set

/-- What a daemon reads of a packet.  An `auth` has what `token_parse` and `token_create` answer. -/
def received (parsed : Option TokenData) (created : Bool) : Packet → RxMsg
  | .hello id => .hello (some id)
  | .auth _ _ _ => .auth parsed none created
  | .reply _ _ _ => .other
  | .set kind name enabled => .set kind (some name) enabled
  | .call method data => .call method data

/-- What can happen: something at one host, a client that sends something, a connection that is
accepted, and a packet that is read or lost. -/
inductive Move where
  | event (b : Host) (e : Event)
  | send (b : Host) (e : Event)
  | accept (a : Host) (t : SockId) (b : Host) (net : Net) (address : String) (id : Id)
  | deliver (a : Host) (t : SockId) (parsed : Option TokenData) (created : Bool)
  | lose (a : Host) (t : SockId)

/-- The first packet of a connection is taken off. -/
def pop (d : Daemon) (t : SockId) : Daemon :=
  { d with txOut := Function.update d.txOut t (d.txOut t).tail }

def move (wildcard : String → String → Bool → Bool) (w : World) : Move → World
  | .event b e => w.set b (step wildcard (w.daemon b) e)
  | .send b e =>
    { w.set b (step wildcard (w.daemon b) (e.retag w.sent.length)) with
      sent := w.sent ++ [⟨b, e.sender, e.target⟩] }
  | .accept a t b net address id =>
    let d := step wildcard (w.daemon b) (.accept net address id)
    { w.set b d with
      link := if d.next = (w.daemon b).next then w.link
        else Function.update w.link a (Function.update (w.link a) t (some (b, (w.daemon b).next))) }
  | .deliver a t parsed created =>
    match (w.daemon a).txOut t, w.link a t with
    | p :: _, some (b, s) =>
      let w := w.set a (pop (w.daemon a) t)
      w.set b (rxCallback wildcard (w.daemon b) s (received parsed created p))
    | _, _ => w
  | .lose a t => w.set a (pop (w.daemon a) t)

/-- A message or request on an incoming connection. -/
def Event.isRemoteCall : Event → Bool
  | .rx _ (.call _ _) => true
  | _ => false

/-- Messages and requests come from clients or from the connections, and a connection to a host is
accepted by the daemon of that host, which is another one: a host is not its own peer. -/
def Plausible (w : World) : Move → Prop
  | .event _ e => e.isSend = false ∧ e.isRemoteCall = false
  | .send _ e => e.isSend = true
  | .accept a t b _ _ _ => t < (w.daemon a).next ∧ ((w.daemon a).tx t).name = b ∧ a ≠ b
  | _ => True

instance (w : World) : (m : Move) → Decidable (Plausible w m)
  | .event _ e => inferInstanceAs (Decidable (e.isSend = false ∧ e.isRemoteCall = false))
  | .send _ e => inferInstanceAs (Decidable (e.isSend = true))
  | .accept a t b _ _ _ => inferInstanceAs
    (Decidable (t < (w.daemon a).next ∧ ((w.daemon a).tx t).name = b ∧ a ≠ b))
  | .deliver _ _ _ _ => inferInstanceAs (Decidable True)
  | .lose _ _ => inferInstanceAs (Decidable True)

/-- The messages and requests that wait on a connection. -/
def World.waiting (w : World) (a : Host) (t : SockId) : List Data :=
  callPackets ((w.daemon a).txOut t)

/-- The host that a connection goes to. -/
def World.goesTo (w : World) (a : Host) (t : SockId) : Host := ((w.daemon a).tx t).name

/-- What holds in every state: where the copies of a message are, and whom it has reached. -/
structure Orderly (w : World) : Prop where
  registry : ∀ b, Registry (w.daemon b)
  names : ∀ b, TxNames (w.daemon b)
  link : ∀ a t b s, w.link a t = some (b, s) →
    t < (w.daemon a).next ∧ w.goesTo a t = b ∧ a ≠ b
  used : ∀ a t, w.waiting a t ≠ [] → t < (w.daemon a).next
  waits : ∀ a t, ∀ data ∈ w.waiting a t, ∃ r, w.sent[data.tag]? = some r ∧ r.host = a ∧
    r.target ≠ some "" ∧ (r.target = none ∨ r.target = some (w.goesTo a t))
  single : ∀ a t t', ∀ data ∈ w.waiting a t, ∀ data' ∈ w.waiting a t', data.tag = data'.tag →
    w.goesTo a t = w.goesTo a t' → t = t'
  once : ∀ a t, ((w.waiting a t).map Data.tag).Nodup
  got : ∀ b, ∀ x ∈ calls (w.daemon b), ∃ r, w.sent[x.data.tag]? = some r ∧
    ((r.host = b ∧ r.client ≠ some x.client ∧ (r.target = some "" ∨ r.target = none)) ∨
      (r.host ≠ b ∧ r.target ≠ some "" ∧ (r.target = none ∨ r.target = some b)))
  gone : ∀ b, ∀ x ∈ calls (w.daemon b), ∀ a t, ∀ data ∈ w.waiting a t,
    data.tag = x.data.tag → w.goesTo a t = b → a = b
  distinct : ∀ b c, (((calls (w.daemon b)).filter fun x => x.client = c).map
    fun x => x.data.tag).Nodup

namespace Orderly

variable {w w' : World}

lemma init : Orderly World.init where
  registry := fun _ => Registry.init
  names := fun _ _ _ _ h => by cases h
  link := fun _ _ _ _ h => by cases h
  used := fun _ _ h => absurd rfl h
  waits := fun _ _ _ h => by cases h
  single := fun _ _ _ _ h => by cases h
  once := fun _ _ => List.nodup_nil
  got := fun _ _ h => by cases h
  gone := fun _ _ h => by cases h
  distinct := fun _ _ => List.nodup_nil

/-- Deliveries are added: each of something that was sent, to a host that no further copy of it
goes to, and to different clients that have not had it. -/
lemma grow (h : Orderly w) (hreg : ∀ a, Registry (w'.daemon a))
    (htx : ∀ a, TxFrame (w.daemon a) (w'.daemon a)) (new : Host → List Delivery)
    (hcalls : ∀ a, calls (w'.daemon a) = calls (w.daemon a) ++ new a)
    (hgot : ∀ b, ∀ x ∈ new b, ∃ r, w.sent[x.data.tag]? = some r ∧
      ((r.host = b ∧ r.client ≠ some x.client ∧ (r.target = some "" ∨ r.target = none)) ∨
        (r.host ≠ b ∧ r.target ≠ some "" ∧ (r.target = none ∨ r.target = some b))))
    (hgone : ∀ b, ∀ x ∈ new b, ∀ a t, ∀ data ∈ w.waiting a t, data.tag = x.data.tag →
      w.goesTo a t = b → a = b)
    (hclients : ∀ b, ((new b).map Delivery.client).Nodup)
    (hfresh : ∀ b, ∀ x ∈ new b, ∀ y ∈ calls (w.daemon b), y.data.tag ≠ x.data.tag)
    (hlink : ∀ a t b s, w'.link a t = some (b, s) → w.link a t = some (b, s) ∨
      (t < (w.daemon a).next ∧ w.goesTo a t = b ∧ a ≠ b))
    (hsent : w'.sent = w.sent) : Orderly w' := by
  have hsub : ∀ a t, (w'.waiting a t).Sublist (w.waiting a t) := fun a t => (htx a).out t
  -- a connection with something on it is an old one, which keeps its name
  have hold : ∀ a t, ∀ data ∈ w'.waiting a t, data ∈ w.waiting a t ∧
      w'.goesTo a t = w.goesTo a t := by
    intro a t data hdata
    have hmem := (hsub a t).subset hdata
    exact ⟨hmem, (htx a).name t (h.used a t (List.ne_nil_of_mem hmem))⟩
  refine ⟨hreg, fun b => (h.names b).frame (htx b), ?_, ?_, ?_, ?_, ?_, ?_, ?_, ?_⟩
  · intro a t b s hs
    have hcase : t < (w.daemon a).next ∧ w.goesTo a t = b ∧ a ≠ b := by
      rcases hlink a t b s hs with hs | hnew
      · exact h.link a t b s hs
      · exact hnew
    obtain ⟨hlt, hto, hne⟩ := hcase
    exact ⟨hlt.trans_le (htx a).next, ((htx a).name t hlt).trans hto, hne⟩
  · intro a t hne
    obtain ⟨data, hdata⟩ := List.exists_mem_of_ne_nil _ hne
    exact (h.used a t (List.ne_nil_of_mem ((hsub a t).subset hdata))).trans_le (htx a).next
  · intro a t data hdata
    obtain ⟨hmem, hto⟩ := hold a t data hdata
    rw [hsent, hto]
    exact h.waits a t data hmem
  · intro a t t' data hdata data' hdata' htag hname
    obtain ⟨hmem, hto⟩ := hold a t data hdata
    obtain ⟨hmem', hto'⟩ := hold a t' data' hdata'
    rw [hto, hto'] at hname
    exact h.single a t t' data hmem data' hmem' htag hname
  · exact fun a t => List.Nodup.sublist ((hsub a t).map Data.tag) (h.once a t)
  · intro b x hx
    rw [hcalls, List.mem_append] at hx
    rw [hsent]
    rcases hx with hx | hx
    · exact h.got b x hx
    · exact hgot b x hx
  · intro b x hx a t data hdata htag hname
    rw [hcalls, List.mem_append] at hx
    obtain ⟨hmem, hto⟩ := hold a t data hdata
    rw [hto] at hname
    rcases hx with hx | hx
    · exact h.gone b x hx a t data hmem htag hname
    · exact hgone b x hx a t data hmem htag hname
  · intro b c
    rw [hcalls, List.filter_append, List.map_append, List.nodup_append]
    refine ⟨h.distinct b c, ?_, ?_⟩
    · -- a client is among the new receivers at most once
      have hlen : ((new b).filter fun x => x.client = c).length ≤ 1 := by
        have hcount := List.nodup_iff_count_le_one.mp (hclients b) c
        rw [List.count, List.countP_map, List.countP_eq_length_filter] at hcount
        exact hcount
      exact nodup_of_length_le_one (by rwa [List.length_map])
    · intro g hg g' hg' heq
      obtain ⟨y, hy, rfl⟩ := List.mem_map.mp hg
      obtain ⟨x, hx, rfl⟩ := List.mem_map.mp hg'
      exact hfresh b x (List.mem_filter.mp hx).1 y (List.mem_filter.mp hy).1 heq

lemma frame (h : Orderly w) (hreg : ∀ a, Registry (w'.daemon a))
    (htx : ∀ a, TxFrame (w.daemon a) (w'.daemon a))
    (hcalls : ∀ a, calls (w'.daemon a) = calls (w.daemon a))
    (hlink : ∀ a t b s, w'.link a t = some (b, s) → w.link a t = some (b, s) ∨
      (t < (w.daemon a).next ∧ w.goesTo a t = b ∧ a ≠ b))
    (hsent : w'.sent = w.sent) : Orderly w' :=
  h.grow hreg htx (fun _ => []) (fun a => by rw [hcalls, List.append_nil])
    (fun _ _ hx => by cases hx) (fun _ _ hx => by cases hx) (fun _ => List.nodup_nil)
    (fun _ _ hx => by cases hx) hlink hsent

lemma set_frame (h : Orderly w) {b : Host} {d : Daemon} (hreg : Registry d)
    (htx : TxFrame (w.daemon b) d) (hcalls : calls d = calls (w.daemon b)) :
    Orderly (w.set b d) :=
  h.frame (World.forall_set (P := fun _ d' => Registry d') hreg h.registry)
    (World.forall_set (P := fun a d' => TxFrame (w.daemon a) d') htx fun _ => TxFrame.refl _)
    (World.forall_set (P := fun a d' => calls d' = calls (w.daemon a)) hcalls fun _ => rfl)
    (fun _ _ _ _ hs => Or.inl hs) rfl

/-- One host delivers something to its clients that has not reached it before. -/
lemma deliver (h : Orderly w) {b : Host} {d : Daemon} {l : List Delivery} {tag : ℕ} {r : Sent}
    (hreg : Registry d) (htx : TxFrame (w.daemon b) d) (hcalls : calls d = calls (w.daemon b) ++ l)
    (hnodup : (l.map Delivery.client).Nodup) (htag : ∀ x ∈ l, x.data.tag = tag)
    (hr : w.sent[tag]? = some r)
    (hgot : ∀ x ∈ l,
      (r.host = b ∧ r.client ≠ some x.client ∧ (r.target = some "" ∨ r.target = none)) ∨
        (r.host ≠ b ∧ r.target ≠ some "" ∧ (r.target = none ∨ r.target = some b)))
    (hgone : ∀ a t, ∀ data ∈ w.waiting a t, data.tag = tag → w.goesTo a t = b → a = b)
    (hfresh : ∀ y ∈ calls (w.daemon b), y.data.tag ≠ tag) : Orderly (w.set b d) := by
  have hin : ∀ a, ∀ x ∈ (if a = b then l else []), a = b ∧ x ∈ l := by
    intro a x hx
    split at hx
    · rename_i ha
      exact ⟨ha, hx⟩
    · cases hx
  refine h.grow (World.forall_set (P := fun _ d' => Registry d') hreg h.registry)
    (World.forall_set (P := fun a d' => TxFrame (w.daemon a) d') htx fun _ => TxFrame.refl _)
    (fun a => if a = b then l else []) (fun a => ?_) ?_ ?_ ?_ ?_ (fun _ _ _ _ hs => Or.inl hs) rfl
  · by_cases ha : a = b
    · rw [ha, World.set_self, if_pos rfl]
      exact hcalls
    · rw [World.set_of_ne w b d ha, if_neg ha, List.append_nil]
  · intro a x hx
    obtain ⟨rfl, hx'⟩ := hin a x hx
    rw [htag x hx']
    exact ⟨r, hr, hgot x hx'⟩
  · intro a x hx
    obtain ⟨rfl, hx'⟩ := hin a x hx
    rw [htag x hx']
    exact hgone
  · intro a
    split
    · exact hnodup
    · exact List.nodup_nil
  · intro a x hx
    obtain ⟨rfl, hx'⟩ := hin a x hx
    rw [htag x hx']
    exact hfresh

lemma extend (h : Orderly w) (r : Sent) : Orderly { w with sent := w.sent ++ [r] } := by
  have hget : ∀ {g : ℕ} {r' : Sent}, w.sent[g]? = some r' → (w.sent ++ [r])[g]? = some r' := by
    intro g r' hg
    rw [List.getElem?_append_left (List.getElem?_eq_some_iff.mp hg).1]
    exact hg
  refine ⟨h.registry, h.names, h.link, h.used, ?_, h.single, h.once, ?_, h.gone, h.distinct⟩
  · intro a t data hdata
    obtain ⟨r', hr', hrest⟩ := h.waits a t data hdata
    exact ⟨r', hget hr', hrest⟩
  · intro b x hx
    obtain ⟨r', hr', hrest⟩ := h.got b x hx
    exact ⟨r', hget hr', hrest⟩

/-- One host puts copies of something on its connections that it has not sent before. -/
lemma push (h : Orderly w) {a : Host} {d : Daemon} {tag : ℕ} {r : Sent}
    (hcore : CoreSame (w.daemon a) d) (htx : d.tx = (w.daemon a).tx)
    (hnet : d.networks = (w.daemon a).networks) (hnext : d.next = (w.daemon a).next)
    (hcalls : calls d = calls (w.daemon a))
    (hout : ∀ t, callPackets (d.txOut t) = w.waiting a t ∨
      ∃ data, callPackets (d.txOut t) = w.waiting a t ++ [data] ∧ data.tag = tag ∧
        t < (w.daemon a).next ∧ r.target ≠ some "" ∧
          (r.target = none ∨ r.target = some (w.goesTo a t)))
    (hsingle : ∀ t t', callPackets (d.txOut t) ≠ w.waiting a t →
      callPackets (d.txOut t') ≠ w.waiting a t' → w.goesTo a t = w.goesTo a t' → t = t')
    (hr : w.sent[tag]? = some r) (hhost : r.host = a)
    (hfresh : ∀ t, ∀ data ∈ w.waiting a t, data.tag ≠ tag)
    (hgot : ∀ b, ∀ x ∈ calls (w.daemon b), x.data.tag = tag → b = a) : Orderly (w.set a d) := by
  have hself := World.set_self w a d
  have hother : ∀ b, b ≠ a → (w.set a d).daemon b = w.daemon b :=
    fun b hb => World.set_of_ne w a d hb
  have hto : ∀ b t, (w.set a d).goesTo b t = w.goesTo b t := by
    intro b t
    by_cases hb : b = a
    · rw [hb, World.goesTo, hself, htx, World.goesTo]
    · rw [World.goesTo, hother b hb, World.goesTo]
  have hnext' : ∀ b, ((w.set a d).daemon b).next = (w.daemon b).next :=
    World.forall_set (P := fun b d' => d'.next = (w.daemon b).next) hnext fun _ => rfl
  have hcalls' : ∀ b, calls ((w.set a d).daemon b) = calls (w.daemon b) :=
    World.forall_set (P := fun b d' => calls d' = calls (w.daemon b)) hcalls fun _ => rfl
  -- what waits is old, or the new copy
  have hcases : ∀ b t, ∀ data ∈ (w.set a d).waiting b t, data ∈ w.waiting b t ∨
      (b = a ∧ data.tag = tag ∧ t < (w.daemon a).next ∧ r.target ≠ some "" ∧
        (r.target = none ∨ r.target = some (w.goesTo a t)) ∧
        callPackets (d.txOut t) ≠ w.waiting a t) := by
    intro b t data hdata
    by_cases hb : b = a
    · rw [hb, World.waiting, hself] at hdata
      rw [hb]
      rcases hout t with heq | ⟨data', heq, htag, hrest⟩
      · rw [heq] at hdata
        exact Or.inl hdata
      · rw [heq, List.mem_append, List.mem_singleton] at hdata
        rcases hdata with hdata | rfl
        · exact Or.inl hdata
        · obtain ⟨h1, h2, h3⟩ := hrest
          exact Or.inr ⟨rfl, htag, h1, h2, h3, by rw [heq]; simp⟩
    · rw [World.waiting, hother b hb] at hdata
      exact Or.inl hdata
  refine ⟨?_, ?_, ?_, ?_, ?_, ?_, ?_, ?_, ?_, ?_⟩
  · exact World.forall_set (P := fun _ d' => Registry d') ((h.registry a).congr hcore) h.registry
  · refine World.forall_set (P := fun _ d' => TxNames d') (fun net host t ht => ?_) h.names
    rw [txChannel, hnet] at ht
    rw [hnext, htx]
    exact h.names a net host t ht
  · intro b t c s hs
    rw [hnext', hto]
    exact h.link b t c s hs
  · intro b t hne
    rw [hnext']
    obtain ⟨data, hdata⟩ := List.exists_mem_of_ne_nil _ hne
    rcases hcases b t data hdata with hold | ⟨rfl, -, hlt, -⟩
    · exact h.used b t (List.ne_nil_of_mem hold)
    · exact hlt
  · intro b t data hdata
    rw [hto]
    rcases hcases b t data hdata with hold | ⟨rfl, htag, -, hne, htarget, -⟩
    · exact h.waits b t data hold
    · rw [htag]
      exact ⟨r, hr, hhost, hne, htarget⟩
  · intro b t t' data hdata data' hdata' htags hname
    rw [hto, hto] at hname
    rcases hcases b t data hdata with hold | ⟨rfl, htag, -, -, -, hgrown⟩
    · rcases hcases b t' data' hdata' with hold' | ⟨rfl, htag', -⟩
      · exact h.single b t t' data hold data' hold' htags hname
      · exact absurd (htags.trans htag') (hfresh t data hold)
    · rcases hcases b t' data' hdata' with hold' | ⟨-, -, -, -, -, hgrown'⟩
      · exact absurd (htags.symm.trans htag) (hfresh t' data' hold')
      · exact hsingle t t' hgrown hgrown' hname
  · intro b t
    by_cases hb : b = a
    · rw [hb, World.waiting, hself]
      rcases hout t with heq | ⟨data, heq, htag, -⟩
      · rw [heq]
        exact h.once a t
      · rw [heq, List.map_append, List.nodup_append]
        refine ⟨h.once a t, by simp, ?_⟩
        intro g hg g' hg' hgg
        obtain ⟨y, hy, rfl⟩ := List.mem_map.mp hg
        rw [List.map_singleton, List.mem_singleton] at hg'
        exact hfresh t y hy (hgg.trans (hg'.trans htag))
    · rw [World.waiting, hother b hb]
      exact h.once b t
  · intro b x hx
    rw [hcalls'] at hx
    exact h.got b x hx
  · intro b x hx c t data hdata htags hname
    rw [hcalls'] at hx
    rw [hto] at hname
    rcases hcases c t data hdata with hold | ⟨rfl, htag, -⟩
    · exact h.gone b x hx c t data hold htags hname
    · exact (hgot b x hx (htags.symm.trans htag)).symm
  · intro b c
    rw [hcalls']
    exact h.distinct b c

lemma pop_frame (d : Daemon) (t : SockId) : TxFrame d (pop d t) := by
  refine ⟨le_rfl, fun _ _ => rfl, fun t' => ?_, fun _ _ _ ht => Or.inl ht⟩
  by_cases ht : t' = t
  · have hself : (pop d t).txOut t = (d.txOut t).tail := Function.update_self _ _ _
    rw [ht, hself, callPackets, callPackets]
    exact (List.tail_sublist _).filterMap _
  · have hother : (pop d t).txOut t' = d.txOut t' := Function.update_of_ne ht _ _
    rw [hother]

lemma pop (h : Orderly w) (a : Host) (t : SockId) : Orderly (w.set a (pop (w.daemon a) t)) :=
  h.set_frame ((h.registry a).congr ⟨rfl, rfl, rfl, rfl, le_rfl⟩) (pop_frame _ _) rfl

lemma tag_lt (h : Orderly w) :
    (∀ a t, ∀ data ∈ w.waiting a t, data.tag < w.sent.length) ∧
      ∀ b, ∀ x ∈ calls (w.daemon b), x.data.tag < w.sent.length := by
  refine ⟨fun a t data hdata => ?_, fun b x hx => ?_⟩
  · obtain ⟨r, hr, -⟩ := h.waits a t data hdata
    exact (List.getElem?_eq_some_iff.mp hr).1
  · obtain ⟨r, hr, -⟩ := h.got b x hx
    exact (List.getElem?_eq_some_iff.mp hr).1

/-- A client sends something. -/
lemma send (h : Orderly w) (a : Host) {e : Event} (he : e.isSend = true) :
    Orderly (move wildcard w (.send a e)) := by
  have hspec := send_spec wildcard (h.registry a) (h.names a) he w.sent.length
  set d := step wildcard (w.daemon a) (e.retag w.sent.length) with hd
  obtain ⟨l, hcalls, hnodup, hl⟩ := hspec.calls
  obtain ⟨hlt, hlt'⟩ := h.tag_lt
  set r : Sent := ⟨a, e.sender, e.target⟩ with hr
  have hext := h.extend r
  have hget : (w.sent ++ [r])[w.sent.length]? = some r := by
    rw [List.getElem?_append_right le_rfl, Nat.sub_self]
    rfl
  -- the local deliveries first, then the copies for the other hosts
  set d1 : Daemon := { w.daemon a with delivered := d.delivered } with hd1
  have hcalls1 : calls d1 = calls (w.daemon a) ++ l := hcalls
  have hlocal := hext.deliver (b := a) (d := d1) (r := r)
    ((h.registry a).congr ⟨rfl, rfl, rfl, rfl, le_rfl⟩) (TxFrame.of_eq rfl rfl rfl le_rfl)
    hcalls1 hnodup (fun x hx => (hl x hx).1) hget
    (fun x hx => Or.inl ⟨rfl, (hl x hx).2⟩)
    (fun b t data hdata htag _ => absurd htag (hlt b t data hdata).ne)
    (fun y hy htag => (hlt' a y hy).ne htag)
  set w1 : World := World.set { w with sent := w.sent ++ [r] } a d1 with hw1
  have hself : w1.daemon a = d1 := World.set_self _ _ _
  have hpush := hlocal.push (a := a) (d := d) (r := r)
    (by rw [hself]; exact ⟨hspec.core.acl, hspec.core.clients, hspec.core.names, hspec.core.table,
      hspec.core.next⟩)
    (by rw [hself]; exact hspec.tx) (by rw [hself]; exact hspec.networks)
    (by rw [hself]; exact hspec.next) (by rw [hself]; rfl)
    (fun t => by
      rw [World.waiting, World.goesTo, hself]
      exact hspec.out t)
    (fun t t' => by
      rw [World.waiting, World.waiting, World.goesTo, World.goesTo, hself]
      exact hspec.single t t')
    hget rfl
    (fun t data hdata htag => by
      rw [World.waiting, hself] at hdata
      exact (hlt a t data hdata).ne htag)
    (fun b x hx htag => by
      by_contra hb
      rw [hw1, World.set_of_ne _ _ _ hb] at hx
      exact (hlt' b x hx).ne htag)
  have heq : w1.set a d = move wildcard w (.send a e) := by
    rw [hw1, move, World.set, World.set, World.set]
    dsimp only
    rw [Function.update_idem]
  rwa [heq] at hpush

/-- A daemon reads a packet. -/
lemma receive (h : Orderly w) {a b : Host} {t s : SockId} {p : Packet} {ps : List Packet}
    (hout : (w.daemon a).txOut t = p :: ps) (hlink : w.link a t = some (b, s))
    (parsed : Option TokenData) (created : Bool) :
    Orderly ((w.set a (Unetmsg.pop (w.daemon a) t)).set b
      (rxCallback wildcard ((w.set a (Unetmsg.pop (w.daemon a) t)).daemon b) s
        (received parsed created p))) := by
  have hpop := h.pop a t
  obtain ⟨hlt, hto, hne⟩ := h.link a t b s hlink
  set w1 := w.set a (Unetmsg.pop (w.daemon a) t) with hw1
  have hreg : Registry (rxCallback wildcard (w1.daemon b) s (received parsed created p)) :=
    (hpop.registry b).congr (rxCallback_core _ wildcard s _)
  have htx : TxFrame (w1.daemon b)
      (rxCallback wildcard (w1.daemon b) s (received parsed created p)) :=
    rxCallback_tx _ wildcard s _
  have hb : w1.daemon b = w.daemon b := World.set_of_ne w a _ (Ne.symm hne)
  cases p with
  | call method data =>
    obtain ⟨l, hcalls, hnodup, htag⟩ := receive_spec wildcard (hpop.registry b)
      (hpop.names b) s method data
    have hwait : w.waiting a t = data :: callPackets ps := by
      rw [World.waiting, hout]
      rfl
    have hin : data ∈ w.waiting a t := by
      rw [hwait]
      exact List.mem_cons_self
    obtain ⟨r, hr, hhost, htarget, hthis⟩ := h.waits a t data hin
    have hpops : ∀ t', w1.waiting a t' = if t' = t then callPackets ps else w.waiting a t' := by
      intro t'
      rw [World.waiting, hw1, World.set_self, Unetmsg.pop]
      dsimp only
      by_cases ht : t' = t
      · rw [ht, Function.update_self, if_pos rfl, hout]
        rfl
      · rw [Function.update_of_ne ht, if_neg ht, World.waiting]
    refine hpop.deliver hreg htx hcalls hnodup htag hr
      (fun x hx => Or.inr ⟨by rw [hhost]; exact hne, htarget, ?_⟩) ?_ ?_
    · rw [← hto]
      exact hthis
    · -- this was the only copy for the host
      intro a' t' data' hdata' htag' hto'
      have hmem : data' ∈ w.waiting a' t' ∧ w1.goesTo a' t' = w.goesTo a' t' := by
        by_cases ha : a' = a
        · rw [ha, hpops] at hdata'
          rw [ha]
          refine ⟨?_, by rw [World.goesTo, hw1, World.set_self]; rfl⟩
          split at hdata'
          · rename_i ht
            rw [ht, hwait]
            exact List.mem_cons_of_mem _ hdata'
          · exact hdata'
        · have hkeep : w1.daemon a' = w.daemon a' := World.set_of_ne w a _ ha
          rw [World.waiting, hkeep] at hdata'
          exact ⟨hdata', by rw [World.goesTo, hkeep, World.goesTo]⟩
      obtain ⟨r', hr', hhost', -⟩ := h.waits a' t' data' hmem.1
      rw [htag', hr, Option.some.injEq] at hr'
      rw [← hr', hhost] at hhost'
      subst hhost'
      rw [hmem.2] at hto'
      have htt := h.single a t t' data hin data' hmem.1 htag'.symm (hto.trans hto'.symm)
      rw [hpops, if_pos htt.symm] at hdata'
      have honce := h.once a t
      rw [hwait, List.map_cons, List.nodup_cons] at honce
      exact absurd (List.mem_map.mpr ⟨data', hdata', htag'⟩) honce.1
    · intro y hy hytag
      rw [hb] at hy
      exact hne (h.gone b y hy a t data hin hytag.symm hto)
  | hello id | auth net target id | reply net target id | set kind name enabled =>
    refine hpop.set_frame hreg htx ?_
    rcases rxCallback_cases (w1.daemon b) wildcard s (received parsed created _) with
      hq | ⟨data', n, -, -, -, ⟨hmsg, -⟩ | ⟨hmsg, -⟩⟩
    · exact hq.calls
    · cases hmsg
    · cases hmsg

lemma move (h : Orderly w) {m : Move} (hm : Plausible w m) : Orderly (move wildcard w m) := by
  cases m with
  | event b e =>
    obtain ⟨hsend, hrx⟩ := hm
    refine h.set_frame ((h.registry b).step e) (step_tx wildcard _ hsend) ?_
    cases hlocal : e.isLocal with
    | true => exact calls_step_local hlocal
    | false =>
      cases hcall : e.isCall with
      | false => exact (step_quiet wildcard _ hlocal hcall).calls
      | true =>
        cases e with
        | rx s msg =>
          rcases rxCallback_cases (w.daemon b) wildcard s msg with
            hq | ⟨data', n, -, -, -, ⟨hmsg, -⟩ | ⟨hmsg, -⟩⟩
          · exact hq.calls
          · rw [hmsg] at hrx
            cases hrx
          · rw [hmsg] at hrx
            cases hrx
        | message id data host | request id data host | ubusRequest data host => cases hsend
        | _ => cases hcall
  | send b e => exact h.send b hm
  | accept a t b net address id =>
    refine h.frame
      (World.forall_set (P := fun _ d' => Registry d') ((h.registry b).step _) h.registry)
      (World.forall_set (P := fun a d' => TxFrame (w.daemon a) d') (step_tx wildcard _ rfl)
        fun _ => TxFrame.refl _)
      (World.forall_set (P := fun a d' => calls d' = calls (w.daemon a))
        (step_quiet wildcard _ rfl rfl).calls fun _ => rfl) ?_ rfl
    intro a' t' b' s' hs
    have hs' : (if (step wildcard (w.daemon b) (.accept net address id)).next = (w.daemon b).next
      then w.link else Function.update w.link a (Function.update (w.link a) t
        (some (b, (w.daemon b).next)))) a' t' = some (b', s') := hs
    split at hs'
    · exact Or.inl hs'
    by_cases ha : a' = a
    · rw [ha, Function.update_self] at hs'
      by_cases ht : t' = t
      · rw [ht, Function.update_self] at hs'
        cases hs'
        rw [ha, ht]
        exact Or.inr hm
      · rw [Function.update_of_ne ht] at hs'
        rw [ha]
        exact Or.inl hs'
    · rw [Function.update_of_ne ha] at hs'
      exact Or.inl hs'
  | deliver a t parsed created =>
    unfold Unetmsg.move
    dsimp only
    split
    · rename_i p ps b s hout hlink
      exact h.receive hout hlink parsed created
    · exact h
  | lose a t => exact h.pop a t

end Orderly

/-! ## At most once -/

/-- What is sent reaches a client at most once and its sender not at all, is sent on by no other
host, stays local when the host is empty, and reaches only the host that is asked for. -/
structure AtMostOnce (w : World) : Prop where
  once : ∀ b c tag,
    ((calls (w.daemon b)).filter fun x => x.client = c ∧ x.data.tag = tag).length ≤ 1
  reached : ∀ b, ∀ x ∈ calls (w.daemon b), ∃ r, w.sent[x.data.tag]? = some r ∧
    (r.host = b → r.client ≠ some x.client) ∧ (r.target = some "" → b = r.host) ∧
    ∀ h, r.target = some h → h ≠ "" → b = h
  notForwarded : ∀ b t, ∀ data ∈ w.waiting b t, ∃ r, w.sent[data.tag]? = some r ∧ r.host = b

lemma Orderly.atMostOnce {w : World} (h : Orderly w) : AtMostOnce w where
  once := by
    intro b c tag
    have hcount := List.nodup_iff_count_le_one.mp (h.distinct b c) tag
    rw [List.count, List.countP_map, List.countP_filter, List.countP_eq_length_filter] at hcount
    refine le_trans (le_of_eq ?_) hcount
    congr 1
    refine List.filter_congr fun x _ => ?_
    simp [Bool.and_comm, Bool.decide_and, beq_eq_decide]
  reached := by
    intro b x hx
    obtain ⟨r, hr, hcase⟩ := h.got b x hx
    refine ⟨r, hr, ?_, ?_, ?_⟩
    · rintro hb
      rcases hcase with ⟨-, hne, -⟩ | ⟨hne, -⟩
      · exact hne
      · exact absurd hb hne
    · intro htarget
      rcases hcase with ⟨hb, -⟩ | ⟨-, hne, -⟩
      · exact hb.symm
      · exact absurd htarget hne
    · intro host htarget hne
      rcases hcase with ⟨-, -, hempty | hnone⟩ | ⟨-, -, hnone | hsome⟩
      · rw [htarget, Option.some.injEq] at hempty
        exact absurd hempty hne
      · rw [htarget] at hnone
        cases hnone
      · rw [htarget] at hnone
        cases hnone
      · rw [htarget, Option.some.injEq] at hsome
        exact hsome.symm
  notForwarded := by
    intro b t data hdata
    obtain ⟨r, hr, hhost, -⟩ := h.waits b t data hdata
    exact ⟨r, hr, hhost⟩

/-- A network with one other host in it. -/
def pairNet (me address peer peerAddress : String) : Event :=
  .unetd (AList.singleton "lan" ⟨me, address, AList.singleton peer ⟨peerAddress, none⟩, []⟩)
    (fun _ => true)

/-- A connection from one host to the other comes up. -/
def pairConnect (a : Host) (t : SockId) (b : Host) (address : String) (id : Id) : List Move :=
  [.event a (.connectPeers "lan" fun _ => true), .accept a t b "lan" address id,
    .event a (.tx t (.hello (some id) true)), .deliver a t (some ⟨a, "root", some id⟩) true,
    .event a (.tx t (.reply (some ⟨b, "root", none⟩)))]

/-- A client at `b` subscribes to a name, and a client at `a` sends a message under it. -/
def pairRun : List Move :=
  [.event "a" (pairNet "a" "fd00::1" "b" "fd00::2"), .event "b" (pairNet "b" "fd00::2" "a" "fd00::1"),
    .event "b" (.connect ⟨"root", none⟩), .event "b" (.pubsub .subscribe 0 (some ["x"]))] ++
  (pairConnect "b" 2 "a" "fd00::2" 7 ++
  (.deliver "b" 2 none false :: .event "a" (.connect ⟨"root", none⟩) ::
    .event "a" (.pubsub .publish 1 (some ["x"])) ::
  (pairConnect "a" 3 "b" "fd00::1" 8 ++
  [.deliver "a" 3 none false, .send "a" (.message 1 ⟨"x", "t", "d", none, none, 0⟩ none),
    .deliver "a" 3 none false])))

end Unetmsg
