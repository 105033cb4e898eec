import Mt798x.Unetmsg.Announce
import Mt798x.Unetmsg.Mirror

/-!
# Authentication

A connection is authenticated by a token that unetd of the other host has made.  Tokens cannot be
forged, but whoever has seen one can send it again on any connection.  This file follows which
token has authenticated which connection: on an incoming connection the one that was made for the
id of that connection, as long as nobody sends a hello with another id first, and on an outgoing
one any token without an id that the host has ever made.
-/

namespace Unetmsg

/-! ## What leaves the authentication alone -/

/-- No connection is authenticated or changes its host or its id. -/
structure AuthKeep (d d' : Daemon) : Prop where
  next : d.next ≤ d'.next
  rx : ∀ s, (d'.rx s).auth = (d.rx s).auth ∧ (d'.rx s).name = (d.rx s).name ∧
    (d'.rx s).id = (d.rx s).id ∧ ((d'.rx s).isOpen = true → (d.rx s).isOpen = true)
  tx : ∀ t, ((d'.tx t).auth = (d.tx t).auth ∧ (d'.tx t).name = (d.tx t).name ∧
      ((d'.tx t).isOpen = true → (d.tx t).isOpen = true)) ∨
    (d.next ≤ t ∧ t < d'.next ∧ (d'.tx t).auth = false)

namespace AuthKeep

variable {d d' d'' : Daemon}

lemma of_eq (hrx : d'.rx = d.rx) (htx : d'.tx = d.tx) (hnext : d.next ≤ d'.next) :
    AuthKeep d d' :=
  ⟨hnext, fun s => by rw [hrx]; exact ⟨rfl, rfl, rfl, id⟩,
    fun t => Or.inl (by rw [htx]; exact ⟨rfl, rfl, id⟩)⟩

lemma refl (d : Daemon) : AuthKeep d d := of_eq rfl rfl le_rfl

lemma trans (h : AuthKeep d d') (h' : AuthKeep d' d'') : AuthKeep d d'' where
  next := h.next.trans h'.next
  rx := by
    intro s
    obtain ⟨ha, hn, hi, ho⟩ := h.rx s
    obtain ⟨ha', hn', hi', ho'⟩ := h'.rx s
    exact ⟨ha'.trans ha, hn'.trans hn, hi'.trans hi, fun hs => ho (ho' hs)⟩
  tx := by
    intro t
    rcases h'.tx t with ⟨ha', hn', ho'⟩ | ⟨hlo, hhi, ha'⟩
    · rcases h.tx t with ⟨ha, hn, ho⟩ | ⟨hlo, hhi, ha⟩
      · exact Or.inl ⟨ha'.trans ha, hn'.trans hn, fun ht => ho (ho' ht)⟩
      · exact Or.inr ⟨hlo, hhi.trans_le h'.next, ha'.trans ha⟩
    · exact Or.inr ⟨h.next.trans hlo, hhi, ha'⟩

lemma of_update {s : SockId} {sock : RxSock} (hrx : d'.rx = Function.update d.rx s sock)
    (htx : d'.tx = d.tx) (hauth : sock.auth = (d.rx s).auth) (hname : sock.name = (d.rx s).name)
    (hid : sock.id = (d.rx s).id) (hopen : sock.isOpen = true → (d.rx s).isOpen = true)
    (hnext : d.next ≤ d'.next) : AuthKeep d d' := by
  refine ⟨hnext, fun u => ?_, fun t => Or.inl (by rw [htx]; exact ⟨rfl, rfl, id⟩)⟩
  by_cases hu : u = s
  · rw [hu, hrx, Function.update_self]
    exact ⟨hauth, hname, hid, hopen⟩
  · rw [hrx, Function.update_of_ne hu]
    exact ⟨rfl, rfl, rfl, id⟩

end AuthKeep

/-- Connections are authenticated, and nothing else of them changes. -/
structure AuthStep (d d' : Daemon) : Prop where
  next : d.next ≤ d'.next
  rx : ∀ s, ((d.rx s).auth = true → (d'.rx s).auth = true) ∧ (d'.rx s).name = (d.rx s).name ∧
    (d'.rx s).id = (d.rx s).id ∧ ((d'.rx s).isOpen = true → (d.rx s).isOpen = true)
  tx : ∀ t, (((d.tx t).auth = true → (d'.tx t).auth = true) ∧ (d'.tx t).name = (d.tx t).name ∧
      ((d'.tx t).isOpen = true → (d.tx t).isOpen = true)) ∨
    (d.next ≤ t ∧ t < d'.next ∧ (d'.tx t).auth = false)

lemma AuthKeep.toStep {d d' : Daemon} (h : AuthKeep d d') : AuthStep d d' :=
  ⟨h.next, fun s => ⟨fun hs => (h.rx s).1.trans hs, (h.rx s).2⟩,
    fun t => (h.tx t).imp_left fun ht => ⟨fun hs => ht.1.trans hs, ht.2⟩⟩

section Keep

variable (d : Daemon)

lemma handlePublish_foldl_tx (l : List Name) :
    (l.foldl (fun d cur => handlePublish d none cur) d).tx = d.tx :=
  List.foldlRecOn l _ (motive := fun d' : Daemon => d'.tx = d.tx) rfl fun _ hb _ _ => hb

lemma rxSocketClose_tx_eq (s : SockId) : (rxSocketClose d s).tx = d.tx := by
  rw [rxSocketClose]
  split
  · split
    · exact handlePublish_foldl_tx _ _
    · rfl
  · rfl

lemma closeTx_auth (s : SockId) : AuthKeep d (closeTx d s) := by
  refine ⟨le_rfl, fun _ => ⟨rfl, rfl, rfl, id⟩, fun t => Or.inl ?_⟩
  by_cases ht : t = s
  · have hself : (closeTx d s).tx s = { d.tx s with isOpen := false } := Function.update_self _ _ _
    rw [ht, hself]
    exact ⟨rfl, rfl, fun h => by cases h⟩
  · have hother : (closeTx d s).tx t = d.tx t := Function.update_of_ne ht _ _
    rw [hother]
    exact ⟨rfl, rfl, id⟩

lemma newTx_auth (net : Net) (host : Host) : AuthKeep d (newTx d net host) := by
  rw [newTx]
  split
  · exact AuthKeep.refl d
  · refine ⟨Nat.le_succ _, fun _ => ⟨rfl, rfl, rfl, id⟩, fun t => ?_⟩
    by_cases ht : t = d.next
    · right
      rw [ht]
      refine ⟨le_rfl, Nat.lt_succ_self _, ?_⟩
      exact congrArg TxSock.auth (Function.update_self d.next _ d.tx)
    · left
      have hother : Function.update d.tx d.next ⟨net, host, false, true⟩ t = d.tx t :=
        Function.update_of_ne ht _ _
      exact ⟨congrArg TxSock.auth hother, congrArg TxSock.name hother,
        fun h => by rw [← h]; exact (congrArg TxSock.isOpen hother).symm⟩

namespace AuthKeep

lemma frame : Frame AuthKeep := ⟨refl, trans, fun _ _ _ => of_eq rfl rfl le_rfl⟩

lemma netFrame : NetFrame AuthKeep where
  toFrame := frame
  erasePeer := fun _ _ => of_eq rfl rfl le_rfl
  network := fun _ => of_eq rfl rfl le_rfl
  eraseNetwork := fun _ _ => of_eq rfl rfl le_rfl
  closeRx := fun _ _ => of_update rfl rfl rfl rfl rfl (fun h => by cases h) le_rfl
  closeTx := closeTx_auth
  newTx := newTx_auth
  setRemote := fun _ _ _ _ => of_eq rfl rfl le_rfl
  setRegistered := fun _ _ _ _ => of_update rfl rfl rfl rfl rfl id le_rfl

lemma clientFrame : ClientFrame AuthKeep where
  toFrame := frame
  add := fun d kind name client => of_eq (RxSame.clientFrame.add d kind name client).rx
    (pubsubAdd_tracks d kind name client).tx (pubsubAdd_tracks d kind name client).next
  del := fun d kind name id => of_eq (RxSame.clientFrame.del d kind name id).rx
    (pubsubDel_tracks d kind name id).tx (pubsubDel_tracks d kind name id).next
  clients := fun _ _ => of_eq rfl rfl le_rfl

lemma callFrame : CallFrame AuthKeep where
  toFrame := frame
  deliver := fun _ _ => of_eq rfl rfl le_rfl
  send := fun d method data remote => of_eq (RxSame.callFrame.send d method data remote).rx
    (sendRemote_tracks d method data remote).tx (sendRemote_tracks d method data remote).next

end AuthKeep

variable (wildcard : String → String → Bool → Bool)

lemma networkSocketHandleRequest_auth (s : SockId) (msg : RxMsg) :
    AuthKeep d (networkSocketHandleRequest wildcard d s msg) := by
  unfold networkSocketHandleRequest
  dsimp only
  split
  · exact AuthKeep.refl d
  · split
    · split
      · exact AuthKeep.refl d
      · exact AuthKeep.netFrame.remote_set d wildcard s _ _ _ _
    · exact AuthKeep.of_eq rfl rfl le_rfl
    · exact AuthKeep.of_eq rfl rfl le_rfl
    · exact AuthKeep.refl d

lemma networkCheckAuth_invalid {s : SockId} {data : Option TokenData}
    (h : networkAuthValid (d.rx s).name (d.rx s).id data = false) :
    networkCheckAuth d s data = d := by
  rcases networkCheckAuth_cases d s data with heq | ⟨hvalid, -⟩
  · exact heq
  · rw [h] at hvalid
    cases hvalid

/-- The request callback without a token that passes: the only other thing that changes is the id,
by a hello. -/
lemma rxCallback_auth (s : SockId) (msg : RxMsg)
    (hhello : ∀ id, msg = .hello id → (d.rx s).isOpen = true → (d.rx s).auth = false →
      id = (d.rx s).id)
    (hinvalid : ∀ data id created, msg = .auth data id created → (d.rx s).isOpen = true →
      (d.rx s).auth = false → networkAuthValid (d.rx s).name (d.rx s).id data = false) :
    AuthKeep d (rxCallback wildcard d s msg) := by
  unfold rxCallback
  split
  · rename_i hopen
    split
    · exact networkSocketHandleRequest_auth d wildcard s msg
    · rename_i hauth
      rw [Bool.not_eq_true] at hauth
      split
      · rename_i hello
        exact AuthKeep.of_update rfl rfl rfl rfl (hhello hello rfl hopen hauth) id le_rfl
      · rename_i data id created
        dsimp only
        rw [networkCheckAuth_invalid d (hinvalid data id created rfl hopen hauth), hauth]
        exact AuthKeep.netFrame.rx_close d s
      · exact AuthKeep.netFrame.rx_close d s
  · exact AuthKeep.refl d

lemma networkCheckAuth_tx_eq (s : SockId) (data : Option TokenData) :
    (networkCheckAuth d s data).tx = d.tx := by
  have hclose : ∀ data, (networkRxSocketClose d data).tx = d.tx := by
    intro data
    cases data
    · rfl
    · exact rxSocketClose_tx_eq d _
  unfold networkCheckAuth
  dsimp only
  split
  · split
    · rfl
    · split
      · rfl
      · split
        · exact (handlePublish_foldl_tx _ _).trans (hclose _)
        · exact (handlePublish_foldl_tx _ _).trans (hclose _)
  · rfl

/-- A token on an incoming connection: it passes, and the connection is authenticated, or nothing
is. -/
lemma rxCallback_token (s : SockId) (data : Option TokenData) (id : Option Id) (created : Bool) :
    AuthKeep d (rxCallback wildcard d s (.auth data id created)) ∨
      ((d.rx s).isOpen = true ∧ (d.rx s).auth = false ∧
        networkAuthValid (d.rx s).name (d.rx s).id data = true ∧
        ∃ d1, AuthKeep d d1 ∧ (rxCallback wildcard d s (.auth data id created)).rx =
            Function.update d1.rx s { d1.rx s with auth := true } ∧
          (rxCallback wildcard d s (.auth data id created)).tx = d1.tx ∧
          d1.next ≤ (rxCallback wildcard d s (.auth data id created)).next) := by
  by_cases hopen : (d.rx s).isOpen = true
  · cases hauth : (d.rx s).auth with
    | true =>
      left
      exact rxCallback_auth d wildcard s _ (fun _ h => by cases h)
        fun _ _ _ _ _ hfalse => by rw [hauth] at hfalse; cases hfalse
    | false =>
      cases hvalid : networkAuthValid (d.rx s).name (d.rx s).id data with
      | false =>
        left
        refine rxCallback_auth d wildcard s _ (fun _ h => by cases h) fun _ _ _ h _ _ => ?_
        cases h
        exact hvalid
      | true =>
        rcases networkCheckAuth_cases d s data with heq | ⟨-, hin⟩
        · left
          have hclose : rxCallback wildcard d s (.auth data id created) = rxSocketClose d s := by
            unfold rxCallback
            rw [if_pos hopen, hauth]
            dsimp only
            rw [if_neg Bool.false_ne_true, heq, hauth]
            rfl
          rw [hclose]
          exact AuthKeep.netFrame.rx_close d s
        · right
          have hpass : ((networkCheckAuth d s data).rx s).auth = true := by
            rw [hin.rx, Function.update_self]
          have heq : (rxCallback wildcard d s (.auth data id created)).rx =
              (networkCheckAuth d s data).rx ∧
              (rxCallback wildcard d s (.auth data id created)).tx =
                (networkCheckAuth d s data).tx ∧
              (rxCallback wildcard d s (.auth data id created)).next =
                (networkCheckAuth d s data).next := by
            unfold rxCallback
            rw [if_pos hopen, hauth]
            dsimp only
            rw [if_neg Bool.false_ne_true, if_pos hpass]
            split
            · exact ⟨rfl, rfl, rfl⟩
            · exact ⟨rfl, rfl, rfl⟩
          obtain ⟨hrx, htx, hnext⟩ := heq
          have hkeep := AuthKeep.netFrame.network_rx_close d (rxAt d (d.rx s).network (d.rx s).name)
          refine ⟨hopen, rfl, rfl, _, hkeep, hrx.trans hin.rx, ?_, hin.next.trans hnext.ge⟩
          rw [htx, networkCheckAuth_tx_eq]
          cases rxAt d (d.rx s).network (d.rx s).name with
          | none => rfl
          | some old => exact (rxSocketClose_tx_eq d old).symm
  · left
    rw [rxCallback, if_neg hopen]
    exact AuthKeep.refl d

/-- The callbacks of an outgoing connection without a token that passes. -/
lemma txCallback_auth (t : SockId) (msg : TxMsg)
    (hinvalid : ∀ data, msg = .reply data → (d.tx t).isOpen = true →
      networkAuthValid (d.tx t).name none data = false) : AuthKeep d (txCallback d t msg) := by
  have hclose := AuthKeep.netFrame.toOpen.tx_close d t
  unfold txCallback
  split
  · rename_i hopen
    cases msg with
    | reply data =>
      dsimp only
      rw [authDataCb, hinvalid data rfl hopen]
      exact AuthKeep.refl d
    | closed => exact hclose
    | hello id created =>
      dsimp only
      split_ifs
      · exact AuthKeep.refl d
      · exact AuthKeep.of_eq rfl rfl le_rfl
      · exact hclose
    | other | done | timeout =>
      dsimp only
      split_ifs
      · exact AuthKeep.refl d
      · exact hclose
  · exact AuthKeep.refl d

/-- An event without its token. -/
def Event.unsigned : Event → Event
  | .rx s (.auth _ id created) => .rx s (.auth none id created)
  | .tx t (.reply _) => .tx t (.reply none)
  | e => e

/-- Only an accepted connection, a hello and a token change anything of the authentication. -/
lemma step_auth {e : Event} (haccept : ∀ net address id, e ≠ .accept net address id)
    (hhello : ∀ s id, e = .rx s (.hello id) → (d.rx s).isOpen = true → (d.rx s).auth = false →
      id = (d.rx s).id) : AuthKeep d (step wildcard d e.unsigned) := by
  cases e with
  | connect acl => exact AuthKeep.of_eq rfl rfl (Nat.le_succ _)
  | disconnect id => exact AuthKeep.clientFrame.disconnect d id
  | pubsub kind id names => exact AuthKeep.clientFrame.pubsub d wildcard kind id names
  | message id data host => exact AuthKeep.callFrame.client_message d id data host
  | request id data host => exact AuthKeep.callFrame.client_request d wildcard id data host
  | ubusRequest data host => exact AuthKeep.callFrame.call d _ _ _ _ _ _
  | aclSet data => exact AuthKeep.of_eq rfl rfl le_rfl
  | accept net address id => exact absurd rfl (haccept net address id)
  | rx s msg =>
    cases msg with
    | auth data id created =>
      refine rxCallback_auth d wildcard s _ (fun _ h => by cases h) fun data' _ _ h _ _ => ?_
      cases h
      rfl
    | hello id =>
      refine rxCallback_auth d wildcard s _ (fun id' h => ?_) (fun _ _ _ h => by cases h)
      cases h
      exact hhello s id rfl
    | _ => exact rxCallback_auth d wildcard s _ (fun _ h => by cases h) (fun _ _ _ h => by cases h)
  | rxClosed s => exact AuthKeep.netFrame.rx_close d s
  | rxTimeout s =>
    unfold step Event.unsigned
    dsimp only
    split
    · exact AuthKeep.refl d
    · exact AuthKeep.of_update rfl rfl rfl rfl rfl (fun h => by cases h) le_rfl
  | connectPeers net created => exact AuthKeep.netFrame.connect_peers d net created
  | tx t msg =>
    cases msg with
    | reply data =>
      refine txCallback_auth d t (.reply none) fun data' h _ => ?_
      cases h
      rfl
    | hello id created => exact txCallback_auth d t (.hello id created) fun _ h => by cases h
    | other => exact txCallback_auth d t .other fun _ h => by cases h
    | done => exact txCallback_auth d t .done fun _ h => by cases h
    | closed => exact txCallback_auth d t .closed fun _ h => by cases h
    | timeout => exact txCallback_auth d t .timeout fun _ h => by cases h
  | unetd networks listening => exact AuthKeep.netFrame.unetd_update d networks listening

end Keep

/-! ## Tokens -/

/-- A token for this host: which host has made it, for which user and id, and the outgoing
connection of this host that it answers, if it answers one. -/
structure Token where
  host : Host
  user : String
  id : Option Id
  answers : Option SockId
  deriving DecidableEq, Repr

/-- What `token_parse` says about a token. -/
def Token.data (k : Token) : TokenData := ⟨k.host, k.user, k.id⟩

/-- A daemon and all tokens for it that exist.  For every connection it is kept which id was
generated when it was accepted, how many tokens there were when it began, and which token has
authenticated it. -/
structure Watch where
  d : Daemon
  log : List Token
  ids : SockId → Option Id
  born : SockId → ℕ
  rxBy : SockId → Option ℕ
  txBy : SockId → Option ℕ

def Watch.init : Watch := ⟨Daemon.init, [], fun _ => none, fun _ => 0, fun _ => none, fun _ => none⟩

/-- What can happen.  A host makes a token for this one; somebody sends a token that exists, on
any connection that can be reached; or anything else, without a token or with a forged one. -/
inductive Deed where
  | create (k : Token)
  | auth (s : SockId) (j : ℕ) (id : Option Id) (created : Bool)
  | reply (t : SockId) (j : ℕ)
  | event (e : Event)

/-- The daemon goes on to another state, in an event with the token `j`. -/
def Watch.record (w : Watch) (d : Daemon) (j : Option ℕ) : Watch :=
  { w with
    d := d
    born := fun s => if w.d.next ≤ s ∧ s < d.next then w.log.length else w.born s
    rxBy := fun s => if (w.d.rx s).auth = false ∧ (d.rx s).auth = true then j else w.rxBy s
    txBy := fun t => if (w.d.tx t).auth = false ∧ (d.tx t).auth = true then j else w.txBy t }

def Watch.step (wildcard : String → String → Bool → Bool) (w : Watch) : Deed → Watch
  | .create k => if k.answers.all (· < w.d.next) then { w with log := w.log ++ [k] } else w
  | .auth s j id created =>
    w.record (Unetmsg.step wildcard w.d (.rx s (.auth (w.log[j]?.map Token.data) id created)))
      (some j)
  | .reply t j =>
    w.record (Unetmsg.step wildcard w.d (.tx t (.reply (w.log[j]?.map Token.data)))) (some j)
  | .event (.accept net address id) =>
    let d := Unetmsg.step wildcard w.d (.accept net address id)
    { w.record d none with
      ids := if d.next = w.d.next then w.ids else Function.update w.ids w.d.next (some id) }
  | .event e => w.record (Unetmsg.step wildcard w.d e.unsigned) none

/-- `gen_id` reads 12 random bytes: the id of a new connection is none that a token has been made
for or that another connection has. -/
def GenId (w : Watch) : Deed → Prop
  | .event (.accept _ _ id) => (∀ k ∈ w.log, k.id ≠ some id) ∧ ∀ s, w.ids s ≠ some id
  | _ => True

/-- No hello with another id comes in on a connection before it is authenticated; and when a reply
comes in on an outgoing connection, the host has made no token without an id but in answer to that
connection. -/
def Unspoiled (w : Watch) : Deed → Prop
  | .event (.rx s (.hello id)) =>
    (w.d.rx s).isOpen = true → (w.d.rx s).auth = false → id = w.ids s
  | .reply t _ => ∀ k ∈ w.log, k.host = (w.d.tx t).name → k.id = none → k.answers = some t
  | _ => True

/-- Authentication is fresh and bound to the connection. -/
structure Bound (w : Watch) : Prop where
  incoming : ∀ s, (w.d.rx s).auth = true → ∃ j k id, w.rxBy s = some j ∧ w.log[j]? = some k ∧
    k.host = (w.d.rx s).name ∧ w.ids s = some id ∧ k.id = some id
  outgoing : ∀ t, (w.d.tx t).auth = true → ∃ j k, w.txBy t = some j ∧ w.log[j]? = some k ∧
    k.host = (w.d.tx t).name ∧ k.answers = some t
  rxFresh : ∀ s j, w.rxBy s = some j → w.born s ≤ j
  txFresh : ∀ t j, w.txBy t = some j → w.born t ≤ j
  rxOnce : ∀ s s' j, w.rxBy s = some j → w.rxBy s' = some j → s = s'
  txOnce : ∀ t t' j, w.txBy t = some j → w.txBy t' = some j → t = t'
  cross : ∀ s t j, w.rxBy s = some j → w.txBy t ≠ some j

/-! ## The invariant -/

/-- What holds in every state: the tokens that have authenticated connections, and the ids of the
connections that wait for one. -/
structure Bonded (w : Watch) : Prop where
  rxNew : ∀ s, w.d.next ≤ s → (w.d.rx s).auth = false ∧ (w.d.rx s).isOpen = false
  txNew : ∀ t, w.d.next ≤ t → (w.d.tx t).auth = false ∧ (w.d.tx t).isOpen = false
  ids : ∀ s id, w.ids s = some id → s < w.d.next ∧
    ∀ j k, w.log[j]? = some k → k.id = some id → w.born s ≤ j
  inj : ∀ s s' id, w.ids s = some id → w.ids s' = some id → s = s'
  waits : ∀ s, (w.d.rx s).isOpen = true → (w.d.rx s).auth = false →
    ∃ id, (w.d.rx s).id = some id ∧ w.ids s = some id
  born : ∀ s, w.born s ≤ w.log.length
  answers : ∀ j k t, w.log[j]? = some k → k.answers = some t → t < w.d.next ∧ w.born t ≤ j
  rxBy : ∀ s j, w.rxBy s = some j → ∃ k id, w.log[j]? = some k ∧ w.ids s = some id ∧ k.id = some id
  txBy : ∀ t j, w.txBy t = some j → ∃ k, w.log[j]? = some k ∧ k.answers = some t ∧ k.id = none
  incoming : ∀ s, (w.d.rx s).auth = true → ∃ j k, w.rxBy s = some j ∧ w.log[j]? = some k ∧
    k.host = (w.d.rx s).name
  outgoing : ∀ t, (w.d.tx t).auth = true → ∃ j k, w.txBy t = some j ∧ w.log[j]? = some k ∧
    k.host = (w.d.tx t).name

namespace Bonded

variable {wildcard : String → String → Bool → Bool} {w : Watch}

lemma bound (h : Bonded w) : Bound w where
  incoming := by
    intro s hs
    obtain ⟨j, k, hby, hk, hhost⟩ := h.incoming s hs
    obtain ⟨k', id, hk', hid, hkid⟩ := h.rxBy s j hby
    rw [hk, Option.some.injEq] at hk'
    exact ⟨j, k, id, hby, hk, hhost, hid, by rw [hk']; exact hkid⟩
  outgoing := by
    intro t ht
    obtain ⟨j, k, hby, hk, hhost⟩ := h.outgoing t ht
    obtain ⟨k', hk', hans, -⟩ := h.txBy t j hby
    rw [hk, Option.some.injEq] at hk'
    exact ⟨j, k, hby, hk, hhost, by rw [hk']; exact hans⟩
  rxFresh := by
    intro s j hby
    obtain ⟨k, id, hk, hid, hkid⟩ := h.rxBy s j hby
    exact (h.ids s id hid).2 j k hk hkid
  txFresh := by
    intro t j hby
    obtain ⟨k, hk, hans, -⟩ := h.txBy t j hby
    exact (h.answers j k t hk hans).2
  rxOnce := by
    intro s s' j hby hby'
    obtain ⟨k, id, hk, hid, hkid⟩ := h.rxBy s j hby
    obtain ⟨k', id', hk', hid', hkid'⟩ := h.rxBy s' j hby'
    rw [hk, Option.some.injEq] at hk'
    rw [← hk', hkid, Option.some.injEq] at hkid'
    rw [← hkid'] at hid'
    exact h.inj s s' id hid hid'
  txOnce := by
    intro t t' j hby hby'
    obtain ⟨k, hk, hans, -⟩ := h.txBy t j hby
    obtain ⟨k', hk', hans', -⟩ := h.txBy t' j hby'
    rw [hk, Option.some.injEq] at hk'
    rw [← hk', hans, Option.some.injEq] at hans'
    exact hans'
  cross := by
    intro s t j hby hby'
    obtain ⟨k, id, hk, -, hkid⟩ := h.rxBy s j hby
    obtain ⟨k', hk', -, hnone⟩ := h.txBy t j hby'
    rw [hk, Option.some.injEq] at hk'
    rw [← hk', hkid] at hnone
    cases hnone

lemma init : Bonded Watch.init where
  rxNew := fun _ _ => ⟨rfl, rfl⟩
  txNew := fun _ _ => ⟨rfl, rfl⟩
  ids := fun _ _ h => by cases h
  inj := fun _ _ _ h => by cases h
  waits := fun _ h => by cases h
  born := fun _ => le_rfl
  answers := fun j k t h => by cases h
  rxBy := fun _ _ h => by cases h
  txBy := fun _ _ h => by cases h
  incoming := fun _ h => by cases h
  outgoing := fun _ h => by cases h

lemma record_born {d : Daemon} {j : Option ℕ} {s : SockId} (hs : s < w.d.next) :
    (w.record d j).born s = w.born s :=
  if_neg fun h => absurd hs (not_lt.mpr h.1)

/-- A step in which the connections that are authenticated have a token for it. -/
lemma marked (h : Bonded w) {d : Daemon} {j : Option ℕ} (hstep : AuthStep w.d d)
    (hrx : ∀ s, (w.d.rx s).auth = false → (d.rx s).auth = true → ∃ i k id, j = some i ∧
      w.log[i]? = some k ∧ w.ids s = some id ∧ k.id = some id ∧ k.host = (w.d.rx s).name)
    (htx : ∀ t, (w.d.tx t).auth = false → (d.tx t).auth = true → ∃ i k, j = some i ∧
      w.log[i]? = some k ∧ k.answers = some t ∧ k.id = none ∧ k.host = (w.d.tx t).name) :
    Bonded (w.record d j) := by
  refine ⟨fun s hs => ?_, fun t ht => ?_, fun s id hs => ?_, h.inj, fun s hopen hauth => ?_,
    fun s => ?_, fun i k t hk hans => ?_, fun s i hi => ?_, fun t i hi => ?_, fun s hs => ?_,
    fun t ht => ?_⟩
  · obtain ⟨-, -, -, hopen⟩ := hstep.rx s
    have hlt : w.d.next ≤ s := hstep.next.trans hs
    obtain ⟨hauth', hopen'⟩ := h.rxNew s hlt
    refine ⟨Bool.eq_false_iff.mpr fun ha => ?_, Bool.eq_false_iff.mpr fun ho => ?_⟩
    · obtain ⟨i, k, id, -, -, hids, -⟩ := hrx s hauth' ha
      exact absurd (h.ids s id hids).1 (not_lt.mpr hlt)
    · rw [hopen ho] at hopen'
      cases hopen'
  · have hlt : w.d.next ≤ t := hstep.next.trans ht
    obtain ⟨hauth', hopen'⟩ := h.txNew t hlt
    rcases hstep.tx t with ⟨-, -, hopen⟩ | ⟨-, hlt', -⟩
    · refine ⟨Bool.eq_false_iff.mpr fun ha => ?_, Bool.eq_false_iff.mpr fun ho => ?_⟩
      · obtain ⟨i, k, -, hk, hans, -⟩ := htx t hauth' ha
        exact absurd (h.answers i k t hk hans).1 (not_lt.mpr hlt)
      · rw [hopen ho] at hopen'
        cases hopen'
    · exact absurd hlt' (not_lt.mpr ht)
  · obtain ⟨hlt, hafter⟩ := h.ids s id hs
    rw [record_born hlt]
    exact ⟨hlt.trans_le hstep.next, hafter⟩
  · obtain ⟨hauth', -, hid, hopen'⟩ := hstep.rx s
    have hold : (w.d.rx s).auth = false := by
      rw [Bool.eq_false_iff]
      intro ha
      have hfalse : (d.rx s).auth = false := hauth
      rw [hauth' ha] at hfalse
      cases hfalse
    obtain ⟨id, hid', hids⟩ := h.waits s (hopen' hopen) hold
    exact ⟨id, hid.trans hid', hids⟩
  · show (if _ then w.log.length else w.born s) ≤ w.log.length
    split
    · exact le_rfl
    · exact h.born s
  · obtain ⟨hlt, hborn⟩ := h.answers i k t hk hans
    rw [record_born hlt]
    exact ⟨hlt.trans_le hstep.next, hborn⟩
  · have hi' : (if (w.d.rx s).auth = false ∧ (d.rx s).auth = true then j else w.rxBy s) = some i := hi
    split at hi'
    · rename_i hflip
      obtain ⟨i', k, id, hj, hk, hids, hkid, -⟩ := hrx s hflip.1 hflip.2
      rw [hi', Option.some.injEq] at hj
      rw [hj]
      exact ⟨k, id, hk, hids, hkid⟩
    · exact h.rxBy s i hi'
  · have hi' : (if (w.d.tx t).auth = false ∧ (d.tx t).auth = true then j else w.txBy t) = some i := hi
    split at hi'
    · rename_i hflip
      obtain ⟨i', k, hj, hk, hans, hkid, -⟩ := htx t hflip.1 hflip.2
      rw [hi', Option.some.injEq] at hj
      rw [hj]
      exact ⟨k, hk, hans, hkid⟩
    · exact h.txBy t i hi'
  · obtain ⟨-, hname, -, -⟩ := hstep.rx s
    have hname' : ((w.record d j).d.rx s).name = (w.d.rx s).name := hname
    rw [hname']
    cases hold : (w.d.rx s).auth with
    | true =>
      rw [show (w.record d j).rxBy s = w.rxBy s from if_neg fun hf => by
        rw [hold] at hf; cases hf.1]
      exact h.incoming s hold
    | false =>
      obtain ⟨i, k, id, rfl, hk, -, -, hhost⟩ := hrx s hold hs
      exact ⟨i, k, if_pos ⟨hold, hs⟩, hk, hhost⟩
  · have ht' : (d.tx t).auth = true := ht
    rcases hstep.tx t with ⟨-, hname, -⟩ | ⟨-, -, hauth⟩
    · have hname' : ((w.record d j).d.tx t).name = (w.d.tx t).name := hname
      rw [hname']
      cases hold : (w.d.tx t).auth with
      | true =>
        rw [show (w.record d j).txBy t = w.txBy t from if_neg fun hf => by
          rw [hold] at hf; cases hf.1]
        exact h.outgoing t hold
      | false =>
        obtain ⟨i, k, rfl, hk, -, -, hhost⟩ := htx t hold ht
        exact ⟨i, k, if_pos ⟨hold, ht⟩, hk, hhost⟩
    · rw [hauth] at ht'
      cases ht'

lemma record (h : Bonded w) {d : Daemon} (hkeep : AuthKeep w.d d) (j : Option ℕ) :
    Bonded (w.record d j) := by
  refine h.marked hkeep.toStep (fun s hold hnew => ?_) (fun t hold hnew => ?_)
  · rw [(hkeep.rx s).1, hold] at hnew
    cases hnew
  · rcases hkeep.tx t with ⟨hauth, -⟩ | ⟨-, -, hauth⟩
    · rw [hauth, hold] at hnew
      cases hnew
    · rw [hauth] at hnew
      cases hnew

/-- Another token is made. -/
lemma create (h : Bonded w) {k : Token} (hk : k.answers.all (· < w.d.next) = true) :
    Bonded { w with log := w.log ++ [k] } := by
  have hold : ∀ {j : ℕ} {k' : Token}, w.log[j]? = some k' → (w.log ++ [k])[j]? = some k' := by
    intro j k' hj
    rw [List.getElem?_append_left (List.getElem?_eq_some_iff.mp hj).1, hj]
  have hnew : ∀ (j : ℕ) (k' : Token), (w.log ++ [k])[j]? = some k' →
      w.log[j]? = some k' ∨ (j = w.log.length ∧ k' = k) := by
    intro j k' hj
    by_cases hlt : j < w.log.length
    · rw [List.getElem?_append_left hlt] at hj
      exact Or.inl hj
    · rw [List.getElem?_append_right (not_lt.mp hlt), List.getElem?_singleton] at hj
      split at hj
      · rename_i hzero
        rw [Option.some.injEq] at hj
        exact Or.inr ⟨by omega, hj.symm⟩
      · cases hj
  refine ⟨h.rxNew, h.txNew, fun s id hs => ⟨(h.ids s id hs).1, fun j k' hj hid => ?_⟩, h.inj,
    h.waits, fun s => (h.born s).trans (by simp), fun j k' t hj hans => ?_, fun s j hj => ?_,
    fun t j hj => ?_, fun s hs => ?_, fun t ht => ?_⟩
  · rcases hnew j k' hj with hj | ⟨rfl, -⟩
    · exact (h.ids s id hs).2 j k' hj hid
    · exact h.born s
  · rcases hnew j k' hj with hj | ⟨rfl, rfl⟩
    · exact h.answers j k' t hj hans
    · rw [hans, Option.all_some, decide_eq_true_eq] at hk
      exact ⟨hk, h.born t⟩
  · obtain ⟨k', id, hk', hrest⟩ := h.rxBy s j hj
    exact ⟨k', id, hold hk', hrest⟩
  · obtain ⟨k', hk', hrest⟩ := h.txBy t j hj
    exact ⟨k', hold hk', hrest⟩
  · obtain ⟨j, k', hby, hk', hrest⟩ := h.incoming s hs
    exact ⟨j, k', hby, hold hk', hrest⟩
  · obtain ⟨j, k', hby, hk', hrest⟩ := h.outgoing t ht
    exact ⟨j, k', hby, hold hk', hrest⟩

/-- A connection is accepted with an id that nobody has used. -/
lemma accept (h : Bonded w) (net : Net) (n : Network) (address : String) {id : Id}
    (hlog : ∀ k ∈ w.log, k.id ≠ some id) (hids : ∀ s, w.ids s ≠ some id) :
    Bonded { w.record (networkAccept w.d net n address id) none with
      ids := if (networkAccept w.d net n address id).next = w.d.next then w.ids
        else Function.update w.ids w.d.next (some id) } := by
  unfold networkAccept
  split
  · dsimp only
    rw [if_pos rfl]
    exact h.record (AuthKeep.refl _) none
  · rename_i peer _
    -- the number of the connection is used up first, and then the connection gets its data
    set d0 : Daemon := { w.d with next := w.d.next + 1 } with hd0
    have hkeep : AuthKeep w.d d0 := AuthKeep.of_eq rfl rfl (Nat.le_succ _)
    have h0 : Bonded (w.record d0 none) := h.record hkeep none
    set sock : RxSock := ⟨net, peer.1, some id, false, fun _ => [], true⟩ with hsock
    set d : Daemon := { setRx w.d w.d.next sock with
      rxOut := Function.update w.d.rxOut w.d.next [.hello id]
      next := w.d.next + 1 } with hd
    have hself : d.rx w.d.next = sock := Function.update_self _ _ _
    have hother : ∀ s, s ≠ w.d.next → d.rx s = w.d.rx s := fun s hs => Function.update_of_ne hs _ _
    have hauth : ∀ s, (d.rx s).auth = true → (w.d.rx s).auth = true ∧ s ≠ w.d.next := by
      intro s hs
      have hne : s ≠ w.d.next := by
        rintro rfl
        rw [hself] at hs
        cases hs
      rw [hother s hne] at hs
      exact ⟨hs, hne⟩
    have hrxBy : (w.record d none).rxBy = (w.record d0 none).rxBy := by
      funext s
      rw [show (w.record d0 none).rxBy s = w.rxBy s from if_neg fun hf => by
        rw [show (d0.rx s).auth = false from hf.1] at hf
        cases hf.2]
      exact if_neg fun hf => by rw [(hauth s hf.2).1] at hf; cases hf.1
    set ids := Function.update w.ids w.d.next (some id) with hidsdef
    have hidSelf : ids w.d.next = some id := Function.update_self _ _ _
    have hidOther : ∀ s, s ≠ w.d.next → ids s = w.ids s := fun s hs => Function.update_of_ne hs _ _
    have hbefore : ∀ {s i}, w.ids s = some i → ids s = some i := by
      intro s i hs
      rw [hidOther s (Nat.ne_of_lt (h.ids s i hs).1), hs]
    have hafter : ∀ {s i}, ids s = some i → (s = w.d.next ∧ i = id) ∨ w.ids s = some i := by
      intro s i hs
      by_cases hnew : s = w.d.next
      · rw [hnew, hidSelf, Option.some.injEq] at hs
        exact Or.inl ⟨hnew, hs.symm⟩
      · rw [hidOther s hnew] at hs
        exact Or.inr hs
    dsimp only
    rw [if_neg (Nat.succ_ne_self _)]
    refine ⟨fun s hs => ?_, h0.txNew, fun s i hs => ?_, fun s s' i hs hs' => ?_,
      fun s hopen hunauth => ?_, h0.born, h0.answers, fun s j hj => ?_, h0.txBy, fun s hs => ?_,
      h0.outgoing⟩
    · have hlt : w.d.next < s := hs
      show (d.rx s).auth = false ∧ (d.rx s).isOpen = false
      rw [hother s (Nat.ne_of_gt hlt)]
      exact h.rxNew s hlt.le
    · rcases hafter hs with ⟨rfl, rfl⟩ | hold
      · exact ⟨Nat.lt_succ_self _, fun j k hk hkid => absurd hkid (hlog k (List.mem_of_getElem? hk))⟩
      · exact h0.ids s i hold
    · rcases hafter hs with ⟨rfl, rfl⟩ | hold
      · rcases hafter hs' with ⟨rfl, -⟩ | hold'
        · rfl
        · exact absurd hold' (hids s')
      · rcases hafter hs' with ⟨rfl, rfl⟩ | hold'
        · exact absurd hold (hids s)
        · exact h.inj s s' i hold hold'
    · have hopen' : (d.rx s).isOpen = true := hopen
      have hunauth' : (d.rx s).auth = false := hunauth
      show ∃ i, (d.rx s).id = some i ∧ ids s = some i
      by_cases hnew : s = w.d.next
      · rw [hnew, hself]
        exact ⟨id, rfl, hidSelf⟩
      · rw [hother s hnew] at hopen' hunauth' ⊢
        obtain ⟨i, hi, hids'⟩ := h.waits s hopen' hunauth'
        exact ⟨i, hi, hbefore hids'⟩
    · have hj' : (w.record d0 none).rxBy s = some j := by rw [← hrxBy]; exact hj
      obtain ⟨k, i, hk, hi, hkid⟩ := h0.rxBy s j hj'
      exact ⟨k, i, hk, hbefore hi, hkid⟩
    · obtain ⟨hs', hne⟩ := hauth s hs
      obtain ⟨j, k, hby, hk, hhost⟩ := h0.incoming s hs'
      refine ⟨j, k, ?_, hk, ?_⟩
      · show (w.record d none).rxBy s = some j
        rw [hrxBy]
        exact hby
      · show k.host = (d.rx s).name
        rw [hother s hne]
        exact hhost

/-- A token on an incoming connection. -/
lemma auth (h : Bonded w) (s : SockId) (j : ℕ) (id : Option Id) (created : Bool) :
    Bonded (w.record (rxCallback wildcard w.d s (.auth (w.log[j]?.map Token.data) id created))
      (some j)) := by
  rcases rxCallback_token w.d wildcard s (w.log[j]?.map Token.data) id created with
    hkeep | ⟨hopen, hauth, hvalid, d1, hkeep, hrx, htx, hnext⟩
  · exact h.record hkeep _
  · set d := rxCallback wildcard w.d s (.auth (w.log[j]?.map Token.data) id created)
    -- a token that passes exists, and is for the id of the connection
    cases hk : w.log[j]? with
    | none =>
      rw [hk] at hvalid
      cases hvalid
    | some k =>
      rw [hk, Option.map_some, networkAuthValid, Bool.and_eq_true, Bool.and_eq_true,
        decide_eq_true_eq, decide_eq_true_eq, decide_eq_true_eq] at hvalid
      obtain ⟨⟨hhost, -⟩, hid⟩ := hvalid
      obtain ⟨i, hi, hids⟩ := h.waits s hopen hauth
      have hother : ∀ u, u ≠ s → d.rx u = d1.rx u := fun u hu => by
        rw [hrx, Function.update_of_ne hu]
      have hself : d.rx s = { d1.rx s with auth := true } := by
        rw [hrx, Function.update_self]
      refine h.marked ⟨hkeep.next.trans hnext, fun u => ?_, fun t => ?_⟩ (fun u hold hnew => ?_)
        (fun t hold hnew => ?_)
      · obtain ⟨ha, hn, hi, ho⟩ := hkeep.rx u
        by_cases hu : u = s
        · rw [hu, hself]
          rw [hu] at hn hi ho
          exact ⟨fun _ => rfl, hn, hi, ho⟩
        · rw [hother u hu]
          exact ⟨fun hold => ha.trans hold, hn, hi, ho⟩
      · rw [htx]
        rcases hkeep.tx t with ⟨ha, hn, ho⟩ | ⟨hlo, hhi, ha⟩
        · exact Or.inl ⟨fun hold => ha.trans hold, hn, ho⟩
        · exact Or.inr ⟨hlo, hhi.trans_le hnext, ha⟩
      · have hu : u = s := by
          by_contra hu
          rw [hother u hu, (hkeep.rx u).1, hold] at hnew
          cases hnew
        rw [hu]
        exact ⟨j, k, i, rfl, hk, hids, hid.trans hi, hhost⟩
      · rw [htx] at hnew
        rcases hkeep.tx t with ⟨ha, -⟩ | ⟨-, -, ha⟩
        · rw [ha, hold] at hnew
          cases hnew
        · rw [ha] at hnew
          cases hnew

/-- A token on an outgoing connection, when the tokens without an id that its host has made answer
that connection. -/
lemma reply (h : Bonded w) (t : SockId) (j : ℕ)
    (honly : ∀ k ∈ w.log, k.host = (w.d.tx t).name → k.id = none → k.answers = some t) :
    Bonded (w.record (txCallback w.d t (.reply (w.log[j]?.map Token.data))) (some j)) := by
  by_cases hpass : (w.d.tx t).isOpen = true ∧
      networkAuthValid (w.d.tx t).name none (w.log[j]?.map Token.data) = true
  · obtain ⟨hopen, hvalid⟩ := hpass
    set d := txCallback w.d t (.reply (w.log[j]?.map Token.data)) with hd
    have hup : CameUp w.d t d := by
      have heq : d = notifyPublished (channelUp w.d t) (w.d.tx t).network (w.d.tx t).name := by
        rw [hd, txCallback, if_pos hopen, authDataCb, if_pos hvalid]
      rw [heq]
      exact cameUp_notifyPublished w.d t
    have hrx : d.rx = w.d.rx := (RxSame.upFrame.tx_callback w.d t _).rx
    have hself : d.tx t = { w.d.tx t with auth := true } := by
      rw [hup.tx, Function.update_self]
    have hother : ∀ u, u ≠ t → d.tx u = w.d.tx u := fun u hu => by
      rw [hup.tx, Function.update_of_ne hu]
    refine h.marked ⟨hup.next.ge, fun s => ?_, fun u => Or.inl ?_⟩ (fun s hold hnew => ?_)
      (fun u hold hnew => ?_)
    · rw [hrx]
      exact ⟨id, rfl, rfl, id⟩
    · by_cases hu : u = t
      · rw [hu, hself]
        exact ⟨fun _ => rfl, rfl, id⟩
      · rw [hother u hu]
        exact ⟨id, rfl, id⟩
    · rw [hrx, hold] at hnew
      cases hnew
    · have hu : u = t := by
        by_contra hu
        rw [hother u hu, hold] at hnew
        cases hnew
      cases hk : w.log[j]? with
      | none =>
        rw [hk] at hvalid
        cases hvalid
      | some k =>
        rw [hk, Option.map_some, networkAuthValid, Bool.and_eq_true, Bool.and_eq_true,
          decide_eq_true_eq, decide_eq_true_eq, decide_eq_true_eq] at hvalid
        obtain ⟨⟨hhost, -⟩, hid⟩ := hvalid
        rw [hu]
        exact ⟨j, k, rfl, hk, honly k (List.mem_of_getElem? hk) hhost hid, hid, hhost⟩
  · refine h.record (txCallback_auth w.d t _ fun data heq hopen => ?_) _
    cases heq
    rw [Bool.eq_false_iff]
    exact fun hvalid => hpass ⟨hopen, hvalid⟩

lemma step (h : Bonded w) {m : Deed} (hgen : GenId w m) (hm : Unspoiled w m) :
    Bonded (w.step wildcard m) := by
  cases m with
  | create k =>
    rw [Watch.step]
    split
    · rename_i hk
      exact h.create hk
    · exact h
  | auth s j id created => exact h.auth s j id created
  | reply t j => exact h.reply t j hm
  | event e =>
    by_cases haccept : ∃ net address id, e = .accept net address id
    · obtain ⟨net, address, id, rfl⟩ := haccept
      rw [Watch.step, Unetmsg.step]
      split
      · exact h.accept net _ address hgen.1 hgen.2
      · rw [if_pos rfl]
        exact h.record (AuthKeep.refl _) none
    · have heq : w.step wildcard (.event e) =
          w.record (Unetmsg.step wildcard w.d e.unsigned) none := by
        cases e with
        | accept net address id => exact absurd ⟨net, address, id, rfl⟩ haccept
        | _ => rfl
      rw [heq]
      refine h.record (step_auth w.d wildcard (fun net address id he => haccept ⟨_, _, _, he⟩)
        fun s id he hopen hauth => ?_) none
      subst he
      obtain ⟨i, hi, hids⟩ := h.waits s hopen hauth
      rw [hm hopen hauth, hids, hi]

end Bonded

theorem authentication_bound (wildcard : String → String → Bool → Bool) (ms : List Deed)
    (hms : Runs.AllSteps (Watch.step wildcard) (fun w m => GenId w m ∧ Unspoiled w m)
      Watch.init ms) : Bound (Runs.run (Watch.step wildcard) Watch.init ms) :=
  (hms.invariant Bonded.init fun _ _ h hm => h.step hm.1 hm.2).bound

/-- A network with the peer `h`. -/
def sampleLan : Event :=
  .unetd (AList.singleton "lan" ⟨"me", "fd00::1", AList.singleton "h" ⟨"fd00::2", none⟩, []⟩)
    fun _ => true

/-- A connection from `h` with the id 7 and one to `h`; the host makes a token for the first and
one in answer to the second. -/
def sampleDeeds : List Deed :=
  [.event sampleLan, .event (.accept "lan" "fd00::2" 7), .create ⟨"h", "root", some 7, none⟩,
    .auth 0 0 none true, .event (.connectPeers "lan" fun _ => true),
    .create ⟨"h", "root", none, some 1⟩, .reply 1 1]

theorem authentication_bound_sample :
    let w := Runs.run (Watch.step sameName) Watch.init sampleDeeds
    (w.d.rx 0).auth = true ∧ (w.d.tx 1).auth = true ∧ Bound w := by
  refine ⟨by decide, by decide, authentication_bound sameName sampleDeeds ?_⟩
  refine ⟨⟨trivial, trivial⟩, ⟨⟨by decide, fun s h => by cases h⟩, trivial⟩, ⟨trivial, trivial⟩,
    ⟨trivial, trivial⟩, ⟨trivial, trivial⟩, ⟨trivial, trivial⟩, ⟨trivial, ?_⟩, trivial⟩
  show ∀ k ∈ [(⟨"h", "root", some 7, none⟩ : Token), ⟨"h", "root", none, some 1⟩],
    k.host = "h" → k.id = none → k.answers = some 1
  decide

/-- The token that `h` made for the id 7 of its first connection comes again on a second one, after
a hello with that id. -/
def sampleReplay : List Deed :=
  [.event sampleLan, .event (.accept "lan" "fd00::2" 7), .create ⟨"h", "root", some 7, none⟩,
    .auth 0 0 none true, .event (.rxClosed 0), .event (.accept "lan" "fd00::2" 8),
    .event (.rx 1 (.hello (some 7))), .auth 1 0 none true]

theorem sampleReplay_not_bound :
    Runs.AllSteps (Watch.step sameName) GenId Watch.init sampleReplay ∧
      ((Runs.run (Watch.step sameName) Watch.init sampleReplay).d.rx 1).auth = true ∧
      ¬ Bound (Runs.run (Watch.step sameName) Watch.init sampleReplay) := by
  refine ⟨?_, by decide, fun h => ?_⟩
  · refine ⟨trivial, ⟨by decide, fun s h => by cases h⟩, trivial, trivial, trivial,
      ⟨by decide, fun s => ?_⟩, trivial, trivial, trivial⟩
    show Function.update (fun _ => none) 0 (some 7) s ≠ some 8
    by_cases hs : s = 0
    · rw [hs, Function.update_self]
      decide
    · rw [Function.update_of_ne hs]
      simp
  · have hsame := h.rxOnce 0 1 0 (by decide) (by decide)
    cases hsame

end Unetmsg
