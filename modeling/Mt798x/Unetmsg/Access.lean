import Mt798x.Unetmsg.Registry

/-!
# Who may reach a client

A client registers names that its rights permit, and what it is sent comes to one of these names.
The other side is the sender.  A local client needs the rights too, at the registration or at the
request; a peer needs the name in its `allowed` list when it registers a name, but not when it
sends a message or a request, and a caller of the `request` method of the ubus object needs
nothing.  These are the steps in which the access rules are passed by.
-/

namespace Unetmsg

variable (wildcard : String → String → Bool → Bool)

/-! ## Registrations of a run -/

/-- A client has registered a name in a run, and its rights permitted it then. -/
def RegisteredBy (es : List Event) (kind : Kind) (c : Client) (name : Name) : Prop :=
  ∃ es1 names es2 cl, es = es1 ++ Event.pubsub kind c (some names) :: es2 ∧ name ∈ names ∧
    (run wildcard Daemon.init es1).clients c = some cl ∧
    aclCheck wildcard (run wildcard Daemon.init es1).acl kind cl.acl [name] = true

variable {wildcard}

variable {kind : Kind} {c : Client} {name : Name} {d : Daemon}

lemma RegisteredBy.concat {es : List Event} (h : RegisteredBy wildcard es kind c name) (e : Event) :
    RegisteredBy wildcard (es ++ [e]) kind c name := by
  obtain ⟨es1, names, es2, cl, rfl, hrest⟩ := h
  refine ⟨es1, names, es2 ++ [e], cl, ?_, hrest⟩
  rw [List.append_assoc, List.cons_append]

lemma aclCheck_of_mem {acl : Kind → String → List String} {info : AclInfo} {names : List Name}
    (h : aclCheck wildcard acl kind info names = true) (hname : name ∈ names) :
    aclCheck wildcard acl kind info [name] = true := by
  rw [aclCheck, Bool.or_eq_true, List.all_eq_true] at h
  rw [aclCheck, Bool.or_eq_true]
  rcases h with h | h
  · exact Or.inl h
  · right
    rw [List.all_cons, h name hname]
    rfl

/-- Whether a client holds a handle for a name. -/
def Holds (d : Daemon) (kind : Kind) (c : Client) (name : Name) : Prop :=
  ∃ cl, d.clients c = some cl ∧ ((cl.handles kind).lookup name).isSome = true

lemma holds_of_mem (hreg : Registry d) {h : Handle} (hmem : h ∈ d.table kind name) :
    Holds d kind h.client name := by
  obtain ⟨cl, hcl, hlook⟩ := (hreg.mem kind name h.id h.client).mp hmem
  exact ⟨cl, hcl, by rw [hlook]; rfl⟩

lemma holds_of_clientPubsubName {kind' : Kind} {id : Client} {name' : Name}
    (h : Holds (clientPubsubName kind id d name) kind' c name') :
    Holds d kind' c name' ∨ (kind' = kind ∧ c = id ∧ name' = name) := by
  unfold clientPubsubName at h
  split at h
  · exact Or.inl h
  · rename_i cl hcl
    split at h
    · exact Or.inl h
    · have hnew : Holds { pubsubAdd d kind name id with
          clients := Function.update (pubsubAdd d kind name id).clients id (some { cl with
            handles := Function.update cl.handles kind
              ((cl.handles kind).insert name d.next) }) } kind' c name' := by
        cases kind
        · exact h
        · exact h
      obtain ⟨cl', hcl', hsome⟩ := hnew
      dsimp only at hcl'
      by_cases hc : c = id
      · rw [hc, Function.update_self, Option.some.injEq] at hcl'
        rw [← hcl'] at hsome
        dsimp only at hsome
        by_cases hk : kind' = kind
        · rw [hk, Function.update_self, lookup_insert_ite] at hsome
          by_cases hn : name' = name
          · exact Or.inr ⟨hk, hc, hn⟩
          · rw [if_neg hn] at hsome
            rw [hk, hc]
            exact Or.inl ⟨cl, hcl, hsome⟩
        · rw [Function.update_of_ne hk] at hsome
          rw [hc]
          exact Or.inl ⟨cl, hcl, hsome⟩
      · rw [Function.update_of_ne hc, pubsubAdd_clients] at hcl'
        exact Or.inl ⟨cl', hcl', hsome⟩

lemma holds_of_foldl_clientPubsubName {d : Daemon} {kind kind' : Kind} {id c : Client}
    {names : List Name} {name : Name}
    (h : Holds (names.foldl (clientPubsubName kind id) d) kind' c name) :
    Holds d kind' c name ∨ (kind' = kind ∧ c = id ∧ name ∈ names) := by
  induction names generalizing d with
  | nil => exact Or.inl h
  | cons n names ih =>
    rcases ih h with hd | ⟨hk, hc, hn⟩
    · rcases holds_of_clientPubsubName hd with hd | ⟨hk, hc, hn⟩
      · exact Or.inl hd
      · exact Or.inr ⟨hk, hc, hn ▸ List.mem_cons_self⟩
    · exact Or.inr ⟨hk, hc, List.mem_cons_of_mem n hn⟩

lemma clients_clientDisconnect {id : Client} {cl : ClientData}
    (h : (clientDisconnect d id).clients c = some cl) : d.clients c = some cl := by
  unfold clientDisconnect at h
  split at h
  · exact h
  · rename_i cl' hcl
    have hdrop := ((foldl_clientDropHandle_dropped (cl'.handles .publish).entries d id
      .publish).trans (foldl_clientDropHandle_dropped (cl'.handles .subscribe).entries _ id
      .subscribe)).clients
    dsimp only [List.foldl_cons, List.foldl_nil] at h
    rw [hdrop] at h
    by_cases hc : c = id
    · rw [hc, Function.update_self] at h
      cases h
    · rwa [Function.update_of_ne hc] at h

/-- A handle is old, or comes from a registration that the rights permit. -/
lemma holds_of_step {e : Event} (h : Holds (step wildcard d e) kind c name) :
    Holds d kind c name ∨ ∃ names cl, e = .pubsub kind c (some names) ∧ name ∈ names ∧
      d.clients c = some cl ∧ aclCheck wildcard d.acl kind cl.acl [name] = true := by
  cases he : e.isLocal with
  | false =>
    obtain ⟨cl, hcl, hsome⟩ := h
    rw [(step_core wildcard d he).clients] at hcl
    exact Or.inl ⟨cl, hcl, hsome⟩
  | true =>
    cases e with
    | connect acl =>
      obtain ⟨cl, hcl, hsome⟩ := h
      by_cases hc : c = d.next
      · rw [hc] at hcl
        have hself : (clientNew d acl).clients d.next = some ⟨acl, fun _ => ∅⟩ :=
          Function.update_self _ _ _
        rw [step, hself] at hcl
        cases hcl
        cases hsome
      · have hother : (clientNew d acl).clients c = d.clients c := Function.update_of_ne hc _ _
        rw [step, hother] at hcl
        exact Or.inl ⟨cl, hcl, hsome⟩
    | disconnect id =>
      obtain ⟨cl, hcl, hsome⟩ := h
      exact Or.inl ⟨cl, clients_clientDisconnect hcl, hsome⟩
    | pubsub kind' id names =>
      unfold step clientPubsub at h
      dsimp only at h
      split at h
      · rename_i cl names hcl
        split at h
        · rename_i hacl
          rcases holds_of_foldl_clientPubsubName h with hd | ⟨rfl, rfl, hn⟩
          · exact Or.inl hd
          · exact Or.inr ⟨names, cl, rfl, hn, hcl, aclCheck_of_mem hacl hn⟩
        · exact Or.inl h
      · exact Or.inl h
    | aclSet data => exact Or.inl h
    | _ => cases he

lemma registeredBy_of_holds {es : List Event} {kind : Kind} {c : Client} {name : Name}
    (h : Holds (run wildcard Daemon.init es) kind c name) :
    RegisteredBy wildcard es kind c name := by
  induction es using List.reverseRecOn with
  | nil =>
    obtain ⟨cl, hcl, -⟩ := h
    cases hcl
  | append_singleton es e ih =>
    rw [run, Runs.run_concat] at h
    rcases holds_of_step h with h | ⟨names, cl, rfl, hn, hcl, hacl⟩
    · exact (ih h).concat e
    · exact ⟨es, names, [], cl, rfl, hn, hcl, hacl⟩

/-! ## Deliveries of a step -/

section Calls

variable {d : Daemon}

lemma delivered_foldl_sendRemote (p : Packet) (l : List (Host × Net)) (d : Daemon) :
    (l.foldl (fun d cur => sendRemote d p cur) d).delivered = d.delivered := by
  refine List.foldlRecOn l _ (motive := fun d' : Daemon => d'.delivered = d.delivered) rfl
    fun b hb cur _ => ?_
  rw [← hb, sendRemote]
  split
  · rfl
  · rfl

lemma calls_handleCall {kind : Kind} {method : Method} (hmethod : method ≠ .publish)
    (handle : Option Client) (data : Data) (remote : Bool) (host : Option Host) :
    calls (handleCall kind method d handle data remote host) = calls d ++
      localDeliveries d method data (getHandles handle (d.table kind data.name)
        (if remote then some (d.remote kind data.name) else none) host).1 := by
  rw [calls, handleCall, delivered_foldl_sendRemote, List.filter_append, calls]
  congr 1
  rw [List.filter_eq_self]
  intro x hx
  obtain ⟨h, -, rfl⟩ := List.mem_map.mp hx
  simpa using hmethod

lemma getHandles_local (handle : Option Client) (locals : List Handle)
    (remote : Option (Obj Host Net)) (host : Option Host) :
    (getHandles handle locals remote host).1 =
      (if host = some "" ∨ host = none then locals else []).filter
        fun cur => handle ≠ some cur.client := by
  unfold getHandles
  dsimp only
  generalize (if host = some "" then some ∅ else remote) = remote
  cases remote
  · rfl
  · rfl

/-- A delivery of a call: its method and data, and a receiver that has a handle for the name. -/
lemma mem_localDeliveries_call {kind : Kind} {method : Method} {handle : Option Client}
    {data : Data} {remote : Option (Obj Host Net)} {host : Option Host} {x : Delivery}
    (hx : x ∈ localDeliveries d method data
      (getHandles handle (d.table kind data.name) remote host).1) :
    x.method = method ∧ x.data = data ∧ (host = some "" ∨ host = none) ∧
      ∃ h ∈ d.table kind data.name, h.client = x.client ∧ handle ≠ some x.client := by
  obtain ⟨h, hh, rfl⟩ := List.mem_map.mp hx
  rw [List.mem_filter, getHandles_local, List.mem_filter] at hh
  obtain ⟨⟨hmem, hne⟩, -⟩ := hh
  refine ⟨rfl, rfl, ?_⟩
  split at hmem
  · rename_i hhost
    exact ⟨hhost, h, hmem, rfl, by simpa using hne⟩
  · cases hmem

lemma calls_pubsubAdd (d : Daemon) (kind : Kind) (name : Name) (c : Client) :
    calls (pubsubAdd d kind name c) = calls d := by
  rw [pubsubAdd]
  split
  · rfl
  · rfl

lemma calls_pubsubDel (d : Daemon) (kind : Kind) (name : Name) (id : HandleId) :
    calls (pubsubDel d kind name id) = calls d := by
  rw [pubsubDel]
  split
  · rfl
  · rfl

lemma calls_clientPubsubName (d : Daemon) (kind : Kind) (c : Client) (name : Name) :
    calls (clientPubsubName kind c d name) = calls d := by
  unfold clientPubsubName
  split
  · rfl
  · split
    · rfl
    · cases kind
      · exact (calls_handlePublish _ _ _).trans (calls_pubsubAdd d .publish name c)
      · exact calls_pubsubAdd d .subscribe name c

lemma calls_clientDropHandle (d : Daemon) (kind : Kind) (c : Client) (name : Name)
    (id : HandleId) : calls (clientDropHandle c kind d name id) = calls d := by
  cases kind
  · exact (calls_pubsubDel _ _ _ _).trans (calls_handlePublish d _ _)
  · exact calls_pubsubDel d _ _ _

lemma calls_foldl {α : Type} {f : Daemon → α → Daemon} (hf : ∀ d a, calls (f d a) = calls d)
    (l : List α) (d : Daemon) : calls (l.foldl f d) = calls d :=
  List.foldlRecOn l f (motive := fun d' => calls d' = calls d) rfl
    fun _ hb a _ => (hf _ a).trans hb

lemma calls_step_local {e : Event} (he : e.isLocal = true) :
    calls (step wildcard d e) = calls d := by
  cases e with
  | connect acl => rfl
  | disconnect id =>
    unfold step clientDisconnect
    dsimp only
    split
    · rfl
    · rename_i cl _
      exact calls_foldl (fun d kind => calls_foldl (fun d (cur : Sigma fun _ : Name => HandleId) =>
        calls_clientDropHandle d kind id cur.1 cur.2) (cl.handles kind).entries d)
          [Kind.publish, Kind.subscribe] d
  | pubsub kind id names =>
    unfold step clientPubsub
    dsimp only
    split
    · split
      · exact calls_foldl (fun d name => calls_clientPubsubName d kind id name) _ d
      · rfl
    · rfl
  | aclSet data => rfl
  | _ => cases he

end Calls

/-! ## The access rules -/

variable (wildcard)

/-- The kind of handle under which a client receives. -/
def receiverKind : Method → Kind
  | .request => .publish
  | _ => .subscribe

/-- The messages and requests that a step gives to local clients. -/
def newCalls (d : Daemon) (e : Event) : List Delivery :=
  (calls (step wildcard d e)).drop (calls d).length

/-- The peer of a connection may use a name. -/
def PeerAllowed (d : Daemon) (s : SockId) (name : Name) : Prop :=
  ∃ n peer, d.networks.lookup (d.rx s).network = some n ∧
    n.peers.lookup (d.rx s).name = some peer ∧ allowedBy wildcard peer.allowed name = true

/-- The sender of what an event delivers after a run is entitled to send it. -/
def SenderPermitted (es : List Event) (x : Delivery) : Event → Prop
  | .message id data _ =>
    x.data.name = data.name ∧ RegisteredBy wildcard es .publish id data.name
  | .request id data _ =>
    x.data.name = data.name ∧ (RegisteredBy wildcard es .subscribe id data.name ∨
      ∃ cl, (run wildcard Daemon.init es).clients id = some cl ∧
        aclCheck wildcard (run wildcard Daemon.init es).acl .subscribe cl.acl [data.name] = true)
  | .rx s (.call _ data) =>
    x.data.name = data.name ∧ ((run wildcard Daemon.init es).rx s).auth = true ∧
      PeerAllowed wildcard (run wildcard Daemon.init es) s data.name
  | _ => False

/-- Sender and receiver of a delivery are entitled to it. -/
def Permitted (es : List Event) (e : Event) (x : Delivery) : Prop :=
  SenderPermitted wildcard es x e ∧
    RegisteredBy wildcard es (receiverKind x.method) x.client x.data.name

/-- A message or request of a peer is one that the peer may send, or nobody is there for it. -/
def RemoteChecked (d : Daemon) (s : SockId) (kind : Kind) (name : Name) : Prop :=
  (d.rx s).isOpen = true → (d.rx s).auth = true →
    (d.networks.lookup (d.rx s).network).isSome = true →
      PeerAllowed wildcard d s name ∨ d.table kind name = []

/-- The steps that do not pass by the access rules. -/
def Checked (d : Daemon) : Event → Prop
  | .rx s (.call .message data) => RemoteChecked wildcard d s .subscribe data.name
  | .rx s (.call .request data) => RemoteChecked wildcard d s .publish data.name
  | .ubusRequest data host => host = some "" ∨ host = none → d.table .publish data.name = []
  | _ => True

variable {wildcard}

section Steps

variable {es : List Event} {x : Delivery}

lemma newCalls_eq {d : Daemon} {e : Event} {l : List Delivery}
    (h : calls (step wildcard d e) = calls d ++ l) : newCalls wildcard d e = l := by
  rw [newCalls, h, List.drop_left]

lemma receiver_of_mem {kind : Kind} {name : Name} {h : Handle}
    (hmem : h ∈ (run wildcard Daemon.init es).table kind name) :
    RegisteredBy wildcard es kind h.client name :=
  registeredBy_of_holds (holds_of_mem (Registry.init.run es) hmem)

lemma newCalls_remote {d : Daemon} {s : SockId} {method : Method} {kind : Kind} {data : Data}
    (hmethod : (method = .message ∧ kind = .subscribe) ∨ (method = .request ∧ kind = .publish))
    (hopen : (d.rx s).isOpen = true) (hauth : (d.rx s).auth = true)
    (hnet : (d.networks.lookup (d.rx s).network).isSome = true) :
    newCalls wildcard d (.rx s (.call method data)) = localDeliveries d method
      { data with host := some (d.rx s).name, network := some (d.rx s).network }
        (d.table kind data.name) := by
  obtain ⟨n, hn⟩ := Option.isSome_iff_exists.mp hnet
  apply newCalls_eq
  have hcall : step wildcard d (.rx s (.call method data)) = handleCall kind method d none
      { data with host := some (d.rx s).name, network := some (d.rx s).network } false none := by
    rcases hmethod with ⟨rfl, rfl⟩ | ⟨rfl, rfl⟩
    · simp [step, rxCallback, hopen, hauth, networkSocketHandleRequest, hn, handleMessage]
    · simp [step, rxCallback, hopen, hauth, networkSocketHandleRequest, hn, handleRequest]
  have hne : method ≠ .publish := by
    rcases hmethod with ⟨rfl, -⟩ | ⟨rfl, -⟩ <;> decide
  rw [hcall, calls_handleCall hne, getHandles_local]
  simp

/-- A remote call is permitted when it is checked. -/
lemma remote_permitted_iff {s : SockId} {method : Method} {kind : Kind} {data : Data}
    (hmethod : (method = .message ∧ kind = .subscribe) ∨ (method = .request ∧ kind = .publish)) :
    (∀ x ∈ newCalls wildcard (run wildcard Daemon.init es) (.rx s (.call method data)),
        Permitted wildcard es (.rx s (.call method data)) x) ↔
      RemoteChecked wildcard (run wildcard Daemon.init es) s kind data.name := by
  set d := run wildcard Daemon.init es with hd
  have hkind : receiverKind method = kind := by
    rcases hmethod with ⟨rfl, rfl⟩ | ⟨rfl, rfl⟩ <;> rfl
  constructor
  · intro h hopen hauth hnet
    rw [or_iff_not_imp_right]
    intro hne
    obtain ⟨hh, hmem⟩ := List.exists_mem_of_ne_nil _ hne
    obtain ⟨cl, hcl, -⟩ := holds_of_mem (Registry.init.run es) hmem
    have hin : (⟨hh.client, method, { data with
        host := some (d.rx s).name, network := some (d.rx s).network }⟩ : Delivery) ∈
        newCalls wildcard d (.rx s (.call method data)) := by
      rw [newCalls_remote hmethod hopen hauth hnet]
      refine List.mem_map.mpr ⟨hh, List.mem_filter.mpr ⟨hmem, ?_⟩, rfl⟩
      rw [hd, hcl]
      rfl
    exact (h _ hin).1.2.2
  · intro h x hx
    by_cases hon : (d.rx s).isOpen = true ∧ (d.rx s).auth = true ∧
        (d.networks.lookup (d.rx s).network).isSome = true
    · obtain ⟨hopen, hauth, hnet⟩ := hon
      rw [newCalls_remote hmethod hopen hauth hnet] at hx
      obtain ⟨hh, hfil, rfl⟩ := List.mem_map.mp hx
      have hmem := (List.mem_filter.mp hfil).1
      rcases h hopen hauth hnet with hallowed | hnil
      · refine ⟨⟨rfl, hauth, hallowed⟩, ?_⟩
        rw [hkind]
        exact receiver_of_mem hmem
      · rw [hnil] at hmem
        cases hmem
    · -- a connection that is closed, not authenticated, or of a network that is gone
      have hquiet : newCalls wildcard d (.rx s (.call method data)) = [] := by
        apply newCalls_eq
        rw [List.append_nil]
        rcases rxCallback_cases d wildcard s (.call method data) with
          hq | ⟨data', n, hopen, hauth, hn, -⟩
        · exact hq.calls
        · exact absurd ⟨hopen, hauth, by rw [hn]; rfl⟩ hon
      rw [hquiet] at hx
      cases hx

lemma not_mem_newCalls {d : Daemon} {e : Event} (h : calls (step wildcard d e) = calls d)
    (x : Delivery) : x ∉ newCalls wildcard d e := by
  rw [newCalls_eq (l := []) (by rw [h, List.append_nil])]
  exact List.not_mem_nil

lemma message_permitted {id : Client} {data : Data} {host : Option Host}
    (hx : x ∈ newCalls wildcard (run wildcard Daemon.init es) (.message id data host)) :
    Permitted wildcard es (.message id data host) x := by
  set d := run wildcard Daemon.init es with hd
  cases hcl : d.clients id with
  | none =>
    refine absurd hx (not_mem_newCalls ?_ x)
    simp [step, clientMessage, hcl]
  | some cl =>
    by_cases hhold : ((cl.handles .publish).lookup data.name).isSome = true
    · have hstep : step wildcard d (.message id data host) =
          handleMessage d (some id) data true host := by
        simp [step, clientMessage, hcl, hhold]
      rw [newCalls_eq (by rw [hstep]; exact calls_handleCall (by decide) _ _ _ _)] at hx
      obtain ⟨hm, hdata, -, h, hmem, hc, -⟩ := mem_localDeliveries_call hx
      refine ⟨⟨by rw [hdata], registeredBy_of_holds ⟨cl, hcl, hhold⟩⟩, ?_⟩
      rw [hm, hdata, ← hc]
      exact receiver_of_mem hmem
    · refine absurd hx (not_mem_newCalls ?_ x)
      simp [step, clientMessage, hcl, hhold]

lemma request_permitted {id : Client} {data : Data} {host : Option Host}
    (hx : x ∈ newCalls wildcard (run wildcard Daemon.init es) (.request id data host)) :
    Permitted wildcard es (.request id data host) x := by
  set d := run wildcard Daemon.init es with hd
  cases hcl : d.clients id with
  | none =>
    refine absurd hx (not_mem_newCalls ?_ x)
    simp [step, clientRequest, hcl]
  | some cl =>
    by_cases hright : ((cl.handles .subscribe).lookup data.name).isSome = true ∨
        aclCheck wildcard d.acl .subscribe cl.acl [data.name] = true
    · have hstep : step wildcard d (.request id data host) =
          handleRequest d (some id) data true host := by
        simp only [step, clientRequest, hcl]
        rw [if_pos hright]
      rw [newCalls_eq (by rw [hstep]; exact calls_handleCall (by decide) _ _ _ _)] at hx
      obtain ⟨hm, hdata, -, h, hmem, hc, -⟩ := mem_localDeliveries_call hx
      refine ⟨⟨by rw [hdata], ?_⟩, ?_⟩
      · rcases hright with hhold | hacl
        · exact Or.inl (registeredBy_of_holds ⟨cl, hcl, hhold⟩)
        · exact Or.inr ⟨cl, hcl, hacl⟩
      · rw [hm, hdata, ← hc]
        exact receiver_of_mem hmem
    · refine absurd hx (not_mem_newCalls ?_ x)
      simp only [step, clientRequest, hcl]
      rw [if_neg hright]

/-- Nothing that comes through the ubus object is permitted. -/
lemma ubusRequest_permitted_iff {data : Data} {host : Option Host} :
    (∀ x ∈ newCalls wildcard (run wildcard Daemon.init es) (.ubusRequest data host),
        Permitted wildcard es (.ubusRequest data host) x) ↔
      (host = some "" ∨ host = none →
        (run wildcard Daemon.init es).table .publish data.name = []) := by
  set d := run wildcard Daemon.init es with hd
  have hnew : newCalls wildcard d (.ubusRequest data host) = localDeliveries d .request data
      (getHandles none (d.table .publish data.name) (some (d.remote .publish data.name)) host).1 :=
    newCalls_eq (calls_handleCall (by decide) _ _ _ _)
  constructor
  · intro h hhost
    by_contra hne
    obtain ⟨hh, hmem⟩ := List.exists_mem_of_ne_nil _ hne
    obtain ⟨cl, hcl, -⟩ := holds_of_mem (Registry.init.run es) hmem
    have hin : (⟨hh.client, .request, data⟩ : Delivery) ∈
        newCalls wildcard d (.ubusRequest data host) := by
      rw [hnew, getHandles_local, if_pos hhost]
      refine List.mem_map.mpr ⟨hh, List.mem_filter.mpr ⟨?_, by rw [hd, hcl]; rfl⟩, rfl⟩
      exact List.mem_filter.mpr ⟨hmem, by simp⟩
    exact (h _ hin).1
  · intro h x hx
    rw [hnew] at hx
    obtain ⟨-, -, hhost, hh, hmem, -⟩ := mem_localDeliveries_call hx
    rw [h hhost] at hmem
    cases hmem

/-- A step delivers what is permitted when it is checked. -/
lemma step_permitted_iff (es : List Event) (e : Event) :
    (∀ x ∈ newCalls wildcard (run wildcard Daemon.init es) e, Permitted wildcard es e x) ↔
      Checked wildcard (run wildcard Daemon.init es) e := by
  set d := run wildcard Daemon.init es with hd
  have hnothing : calls (step wildcard d e) = calls d → Checked wildcard d e →
      ((∀ x ∈ newCalls wildcard d e, Permitted wildcard es e x) ↔ Checked wildcard d e) :=
    fun hcalls hchecked =>
      iff_of_true (fun x hx => absurd hx (not_mem_newCalls hcalls x)) hchecked
  cases hcall : e.isCall with
  | false =>
    have hchecked : Checked wildcard d e := by
      cases e with
      | message id data host | request id data host | ubusRequest data host | rx s msg =>
        cases hcall
      | _ => trivial
    cases hlocal : e.isLocal with
    | true => exact hnothing (calls_step_local hlocal) hchecked
    | false => exact hnothing (step_quiet wildcard d hlocal hcall).calls hchecked
  | true =>
    cases e with
    | message id data host => exact iff_of_true (fun x hx => message_permitted hx) trivial
    | request id data host => exact iff_of_true (fun x hx => request_permitted hx) trivial
    | ubusRequest data host => exact ubusRequest_permitted_iff
    | rx s msg =>
      have hother : (∀ data, msg ≠ .call .request data ∧ msg ≠ .call .message data) →
          calls (step wildcard d (.rx s msg)) = calls d := by
        intro hne
        rcases rxCallback_cases d wildcard s msg with
          hq | ⟨data, n, -, -, -, ⟨hmsg, -⟩ | ⟨hmsg, -⟩⟩
        · exact hq.calls
        · exact absurd hmsg (hne data).1
        · exact absurd hmsg (hne data).2
      cases msg with
      | call method data =>
        cases method with
        | message => exact remote_permitted_iff (Or.inl ⟨rfl, rfl⟩)
        | request => exact remote_permitted_iff (Or.inr ⟨rfl, rfl⟩)
        | publish => exact hnothing (hother fun data => ⟨by simp, by simp⟩) trivial
      | _ => exact hnothing (hother fun data => ⟨by simp, by simp⟩) trivial
    | _ => cases hcall

end Steps

theorem deliveries_permitted_iff (wildcard : String → String → Bool → Bool) (es : List Event) :
    (∀ es1 e es2, es = es1 ++ e :: es2 →
        ∀ x ∈ newCalls wildcard (run wildcard Daemon.init es1) e, Permitted wildcard es1 e x) ↔
      Runs.AllSteps (step wildcard) (Checked wildcard) Daemon.init es := by
  rw [Runs.allSteps_iff]
  constructor
  · intro h es1 e es2 heq
    exact (step_permitted_iff es1 e).mp (h es1 e es2 heq)
  · intro h es1 e es2 heq
    exact (step_permitted_iff es1 e).mpr (h es1 e es2 heq)

/-- A comparison in place of patterns. -/
def exactMatch (name pattern : String) (_ : Bool) : Bool := name = pattern

/-- A peer that may only use the name `a`, and a local client that has subscribed to `secret`. -/
def narrowPeer : List Event :=
  [.unetd (AList.singleton "lan" ⟨"me", "fd00::1", AList.singleton "h" ⟨"fd00::2", none⟩,
      [⟨"unetmsg", ["me", "h"], some ["a"]⟩]⟩) (fun _ => true),
    .connect ⟨"root", none⟩, .pubsub .subscribe 0 (some ["secret"]),
    .accept "lan" "fd00::2" 7, .rx 2 (.auth (some ⟨"h", "root", some 7⟩) none true)]

theorem foreign_name_delivered :
    (⟨0, .message, ⟨"secret", "t", "d", some "h", some "lan", 0⟩⟩ : Delivery) ∈
        newCalls exactMatch (run exactMatch Daemon.init narrowPeer)
          (.rx 2 (.call .message ⟨"secret", "t", "d", none, none, 0⟩)) ∧
      ¬ Permitted exactMatch narrowPeer (.rx 2 (.call .message ⟨"secret", "t", "d", none, none, 0⟩))
        ⟨0, .message, ⟨"secret", "t", "d", some "h", some "lan", 0⟩⟩ := by
  refine ⟨by decide, ?_⟩
  rintro ⟨⟨-, -, n, peer, hn, hpeer, hallowed⟩, -⟩
  have hlookup : ((run exactMatch Daemon.init narrowPeer).networks.lookup
      ((run exactMatch Daemon.init narrowPeer).rx 2).network).bind
        (fun n => n.peers.lookup ((run exactMatch Daemon.init narrowPeer).rx 2).name) =
      some ⟨"fd00::2", some ["a"]⟩ := by decide
  rw [hn, Option.bind_some, hpeer, Option.some.injEq] at hlookup
  rw [hlookup] at hallowed
  revert hallowed
  decide

end Unetmsg
