import Mt798x.Unetmsg.Channels

/-!
# Local registrations

The tables of the daemon hold exactly the handles that its clients hold, each client at most one
for a name.  Only three events touch them: a client that connects, registers names or goes.
-/

namespace Unetmsg

/-! ## What does not concern local clients -/

/-- Two states agree in the rights, the clients and their tables. -/
structure CoreSame (d d' : Daemon) : Prop where
  acl : d'.acl = d.acl
  clients : d'.clients = d.clients
  names : d'.names = d.names
  table : d'.table = d.table
  next : d.next ≤ d'.next

namespace CoreSame

variable {d d' d'' : Daemon}

lemma refl (d : Daemon) : CoreSame d d := ⟨rfl, rfl, rfl, rfl, le_rfl⟩

lemma trans (h : CoreSame d d') (h' : CoreSame d' d'') : CoreSame d d'' where
  acl := h'.acl.trans h.acl
  clients := h'.clients.trans h.clients
  names := h'.names.trans h.names
  table := h'.table.trans h.table
  next := h.next.trans h'.next

lemma callFrame : CallFrame CoreSame where
  refl := refl
  trans := trans
  publish := fun _ _ _ => ⟨rfl, rfl, rfl, rfl, le_rfl⟩
  deliver := fun _ _ => ⟨rfl, rfl, rfl, rfl, le_rfl⟩
  send := by
    intro d method data remote
    rw [sendRemote]
    split
    · exact ⟨rfl, rfl, rfl, rfl, le_rfl⟩
    · exact refl d

end CoreSame

/-- The messages and requests that local clients have received. -/
def calls (d : Daemon) : List Delivery := d.delivered.filter fun x => x.method ≠ .publish

/-- Two states agree also in the messages and requests that local clients have received. -/
structure Quiet (d d' : Daemon) : Prop extends CoreSame d d' where
  calls : calls d' = calls d

namespace Quiet

variable {d d' d'' : Daemon}

lemma refl (d : Daemon) : Quiet d d := ⟨CoreSame.refl d, rfl⟩

lemma trans (h : Quiet d d') (h' : Quiet d' d'') : Quiet d d'' :=
  ⟨h.toCoreSame.trans h'.toCoreSame, h'.calls.trans h.calls⟩

lemma of_eq (hacl : d'.acl = d.acl) (hclients : d'.clients = d.clients) (hnames : d'.names = d.names)
    (htable : d'.table = d.table) (hdelivered : d'.delivered = d.delivered)
    (hnext : d.next ≤ d'.next) : Quiet d d' :=
  ⟨⟨hacl, hclients, hnames, htable, hnext⟩, by rw [Unetmsg.calls, hdelivered, Unetmsg.calls]⟩

end Quiet

lemma calls_localDeliveries (d : Daemon) (data : Data) (handles : List Handle) :
    (localDeliveries d .publish data handles).filter (fun x => x.method ≠ .publish) = [] := by
  rw [List.filter_eq_nil_iff]
  intro x hx
  obtain ⟨h, -, rfl⟩ := List.mem_map.mp hx
  simp

lemma calls_handlePublish (d : Daemon) (handle : Option Client) (name : Name) :
    calls (handlePublish d handle name) = calls d := by
  rw [calls, handlePublish]
  dsimp only
  rw [List.filter_append, calls_localDeliveries, List.append_nil, calls]

namespace Quiet

lemma frame : Frame Quiet :=
  ⟨refl, trans, fun d handle name =>
    ⟨⟨rfl, rfl, rfl, rfl, le_rfl⟩, calls_handlePublish d handle name⟩⟩

lemma newTx (d : Daemon) (net : Net) (host : Host) : Quiet d (newTx d net host) := by
  rw [Unetmsg.newTx]
  split
  · exact refl d
  · exact of_eq rfl rfl rfl rfl rfl (Nat.le_succ _)

lemma netFrame : NetFrame Quiet where
  toFrame := frame
  erasePeer := fun _ _ => of_eq rfl rfl rfl rfl rfl le_rfl
  network := fun _ => of_eq rfl rfl rfl rfl rfl le_rfl
  eraseNetwork := fun _ _ => of_eq rfl rfl rfl rfl rfl le_rfl
  closeRx := fun _ _ => of_eq rfl rfl rfl rfl rfl le_rfl
  closeTx := fun _ _ => of_eq rfl rfl rfl rfl rfl le_rfl
  newTx := newTx
  setRemote := fun _ _ _ _ => of_eq rfl rfl rfl rfl rfl le_rfl
  setRegistered := fun _ _ _ _ => of_eq rfl rfl rfl rfl rfl le_rfl

lemma upFrame : UpFrame Quiet where
  toOpenFrame := netFrame.toOpen
  up := fun _ _ => of_eq rfl rfl rfl rfl rfl le_rfl
  auth := fun _ _ _ _ _ => of_eq rfl rfl rfl rfl rfl le_rfl

end Quiet

section Same

variable (d : Daemon) (wildcard : String → String → Bool → Bool)

/-- An incoming message or request that is passed on is a call of `handle_message` or
`handle_request`; everything else on an incoming connection leaves local clients alone. -/
lemma rxCallback_cases (s : SockId) (msg : RxMsg) :
    Quiet d (rxCallback wildcard d s msg) ∨
      ∃ data n, (d.rx s).isOpen = true ∧ (d.rx s).auth = true ∧
        d.networks.lookup (d.rx s).network = some n ∧
        ((msg = .call .request data ∧ rxCallback wildcard d s msg = handleRequest d none
            { data with host := some (d.rx s).name, network := some (d.rx s).network } false none) ∨
          (msg = .call .message data ∧ rxCallback wildcard d s msg = handleMessage d none
            { data with host := some (d.rx s).name, network := some (d.rx s).network }
              false none)) := by
  unfold rxCallback
  split
  · rename_i hopen
    split
    · rename_i hauth
      unfold networkSocketHandleRequest
      dsimp only
      split
      · exact Or.inl (Quiet.refl d)
      · rename_i n hn
        split
        · split
          · exact Or.inl (Quiet.refl d)
          · exact Or.inl (Quiet.netFrame.remote_set d wildcard _ _ _ _ _)
        · exact Or.inr ⟨_, n, hopen, hauth, hn, Or.inl ⟨rfl, rfl⟩⟩
        · exact Or.inr ⟨_, n, hopen, hauth, hn, Or.inr ⟨rfl, rfl⟩⟩
        · exact Or.inl (Quiet.refl d)
    · left
      split
      · exact Quiet.of_eq rfl rfl rfl rfl rfl le_rfl
      · rename_i data id created
        have hin := Quiet.netFrame.check_auth d (fun _ _ _ => Quiet.of_eq rfl rfl rfl rfl rfl le_rfl) s data
        dsimp only
        split
        · split
          · exact hin.trans (Quiet.of_eq rfl rfl rfl rfl rfl le_rfl)
          · exact hin
        · exact hin.trans (Quiet.netFrame.rx_close _ s)
      · exact Quiet.netFrame.rx_close d s
  · exact Or.inl (Quiet.refl d)

lemma rxCallback_core (s : SockId) (msg : RxMsg) : CoreSame d (rxCallback wildcard d s msg) := by
  rcases rxCallback_cases d wildcard s msg with hq | ⟨data, n, -, -, -, ⟨-, heq⟩ | ⟨-, heq⟩⟩
  · exact hq.toCoreSame
  · rw [heq]
    exact CoreSame.callFrame.call d _ _ _ _ _ _
  · rw [heq]
    exact CoreSame.callFrame.call d _ _ _ _ _ _

lemma networkAccept_quiet (net : Net) (n : Network) (address : String) (id : Id) :
    Quiet d (networkAccept d net n address id) := by
  rw [networkAccept]
  split
  · exact Quiet.refl d
  · exact Quiet.of_eq rfl rfl rfl rfl rfl (Nat.le_succ _)

end Same

/-- The events that touch the clients and their tables. -/
def Event.isLocal : Event → Bool
  | .connect _ | .disconnect _ | .pubsub _ _ _ | .aclSet _ => true
  | _ => false

/-- The events that can carry a message or a request. -/
def Event.isCall : Event → Bool
  | .message _ _ _ | .request _ _ _ | .ubusRequest _ _ | .rx _ _ => true
  | _ => false

lemma step_quiet (wildcard : String → String → Bool → Bool) (d : Daemon) {e : Event}
    (he : e.isLocal = false) (hcall : e.isCall = false) : Quiet d (step wildcard d e) := by
  cases e with
  | connect acl | disconnect id | pubsub kind id names | aclSet data => cases he
  | message id data host | request id data host | ubusRequest data host | rx s msg => cases hcall
  | accept net address id =>
    unfold step
    dsimp only
    split
    · exact networkAccept_quiet d _ _ _ _
    · exact Quiet.refl d
  | rxClosed s => exact Quiet.netFrame.rx_close d s
  | rxTimeout s =>
    unfold step
    dsimp only
    split
    · exact Quiet.refl d
    · exact Quiet.of_eq rfl rfl rfl rfl rfl le_rfl
  | connectPeers net created => exact Quiet.netFrame.connect_peers d net created
  | tx s msg => exact Quiet.upFrame.tx_callback d s msg
  | unetd networks listening => exact Quiet.netFrame.unetd_update d networks listening

/-- Every event but those of the clients and the rights leaves the clients and their tables
alone. -/
lemma step_core (wildcard : String → String → Bool → Bool) (d : Daemon) {e : Event}
    (he : e.isLocal = false) : CoreSame d (step wildcard d e) := by
  cases hcall : e.isCall with
  | false => exact (step_quiet wildcard d he hcall).toCoreSame
  | true =>
    cases e with
    | message id data host => exact CoreSame.callFrame.client_message d id data host
    | request id data host => exact CoreSame.callFrame.client_request d wildcard id data host
    | ubusRequest data host => exact CoreSame.callFrame.call d _ _ _ _ _ _
    | rx s msg => exact rxCallback_core d wildcard s msg
    | _ => cases hcall

/-! ## The registry -/

/-- The tables hold the handles of the clients. -/
structure Registry (d : Daemon) : Prop where
  mem : ∀ kind name i c, (⟨i, c⟩ : Handle) ∈ d.table kind name ↔
    ∃ cl, d.clients c = some cl ∧ (cl.handles kind).lookup name = some i
  nodup : ∀ kind name, (d.table kind name).Nodup
  inj : ∀ kind name i c c', (⟨i, c⟩ : Handle) ∈ d.table kind name →
    (⟨i, c'⟩ : Handle) ∈ d.table kind name → c = c'
  fresh : ∀ kind name, ∀ h ∈ d.table kind name, h.id < d.next
  client : ∀ c, d.clients c ≠ none → c < d.next
  names : ∀ kind name, d.table kind name ≠ [] → name ∈ d.names kind

namespace Registry

variable {d d' : Daemon}

lemma init : Registry Daemon.init where
  mem := by
    intro kind name i c
    constructor
    · intro h
      cases h
    · rintro ⟨cl, hcl, -⟩
      cases hcl
  nodup := fun _ _ => List.nodup_nil
  inj := fun _ _ _ _ _ h => by cases h
  fresh := fun _ _ _ h => by cases h
  client := fun _ h => absurd rfl h
  names := fun _ _ h => absurd rfl h

lemma congr (h : Registry d) (hsame : CoreSame d d') : Registry d' where
  mem := by
    rw [hsame.table, hsame.clients]
    exact h.mem
  nodup := by
    rw [hsame.table]
    exact h.nodup
  inj := by
    rw [hsame.table]
    exact h.inj
  fresh := by
    rw [hsame.table]
    exact fun kind name hd hmem => (h.fresh kind name hd hmem).trans_le hsame.next
  client := by
    rw [hsame.clients]
    exact fun c hc => (h.client c hc).trans_le hsame.next
  names := by
    rw [hsame.table, hsame.names]
    exact h.names

lemma nodup_clients (h : Registry d) (kind : Kind) (name : Name) :
    ((d.table kind name).map Handle.client).Nodup := by
  refine List.Nodup.map_on ?_ (h.nodup kind name)
  rintro ⟨i, c⟩ hi ⟨j, c'⟩ hj (rfl : c = c')
  obtain ⟨cl, hcl, hlook⟩ := (h.mem kind name i c).mp hi
  obtain ⟨cl', hcl', hlook'⟩ := (h.mem kind name j c).mp hj
  rw [hcl, Option.some.injEq] at hcl'
  rw [← hcl', hlook, Option.some.injEq] at hlook'
  rw [hlook']

lemma table_ne_nil_iff (h : Registry d) (kind : Kind) (name : Name) :
    d.table kind name ≠ [] ↔
      ∃ c cl, d.clients c = some cl ∧ ((cl.handles kind).lookup name).isSome = true := by
  constructor
  · intro hne
    obtain ⟨⟨i, c⟩, hmem⟩ := List.exists_mem_of_ne_nil _ hne
    obtain ⟨cl, hcl, hlook⟩ := (h.mem kind name i c).mp hmem
    exact ⟨c, cl, hcl, by rw [hlook]; rfl⟩
  · rintro ⟨c, cl, hcl, hsome⟩
    obtain ⟨i, hi⟩ := Option.isSome_iff_exists.mp hsome
    exact List.ne_nil_of_mem ((h.mem kind name i c).mpr ⟨cl, hcl, hi⟩)

lemma connect (h : Registry d) (acl : AclInfo) : Registry (clientNew d acl) := by
  have hnone : d.clients d.next = none := by
    by_contra hne
    exact absurd (h.client d.next hne) (lt_irrefl _)
  have hself : (clientNew d acl).clients d.next = some ⟨acl, fun _ => ∅⟩ :=
    Function.update_self _ _ _
  have hother : ∀ c, c ≠ d.next → (clientNew d acl).clients c = d.clients c :=
    fun c hc => Function.update_of_ne hc _ _
  refine ⟨?_, h.nodup, h.inj, fun kind name hd hmem => ?_, fun c hc => ?_, h.names⟩
  · intro kind name i c
    refine (h.mem kind name i c).trans ?_
    by_cases hc : c = d.next
    · rw [hc, hself, hnone]
      constructor
      · rintro ⟨cl, hcl, -⟩
        cases hcl
      · rintro ⟨cl, hcl, hlook⟩
        cases hcl
        cases hlook
    · rw [hother c hc]
  · exact (h.fresh kind name hd hmem).trans (Nat.lt_succ_self _)
  · show c < d.next + 1
    by_cases hcn : c = d.next
    · rw [hcn]
      exact Nat.lt_succ_self _
    · rw [hother c hcn] at hc
      exact (h.client c hc).trans (Nat.lt_succ_self _)

end Registry

/-! ## Adding and deleting handles -/

section Handles

variable (d : Daemon) (kind : Kind) (name : Name)

lemma setTable_apply (table : Kind → Name → List Handle) (list : List Handle) (kind' : Kind)
    (name' : Name) : setTable table kind name list kind' name' =
      if kind' = kind ∧ name' = name then list else table kind' name' := by
  rw [setTable]
  by_cases hk : kind' = kind
  · rw [hk, Function.update_self]
    by_cases hn : name' = name
    · rw [hn, Function.update_self, if_pos ⟨rfl, rfl⟩]
    · rw [Function.update_of_ne hn, if_neg (fun h => hn h.2)]
  · rw [Function.update_of_ne hk, if_neg (fun h => hk h.1)]

lemma mem_addName (names : Kind → List Name) (kind' : Kind) (name' : Name) :
    name' ∈ addName names kind name kind' ↔ name' ∈ names kind' ∨ (kind' = kind ∧ name' = name) := by
  rw [addName]
  split
  · rename_i hmem
    constructor
    · exact Or.inl
    · rintro (h | ⟨rfl, rfl⟩)
      · exact h
      · exact hmem
  · by_cases hk : kind' = kind
    · rw [hk, Function.update_self]
      simp
    · rw [Function.update_of_ne hk]
      simp [hk]

lemma pubsubAdd_table (client : Client) (kind' : Kind) (name' : Name) :
    (pubsubAdd d kind name client).table kind' name' =
      if kind' = kind ∧ name' = name then d.table kind name ++ [⟨d.next, client⟩]
      else d.table kind' name' := by
  rw [pubsubAdd]
  split
  · exact setTable_apply kind name _ _ _ _
  · exact setTable_apply kind name _ _ _ _

lemma mem_pubsubAdd_names (client : Client) (kind' : Kind) (name' : Name) :
    name' ∈ (pubsubAdd d kind name client).names kind' ↔
      name' ∈ d.names kind' ∨ (kind' = kind ∧ name' = name) := by
  rw [pubsubAdd]
  split
  · show name' ∈ addName (addName d.names kind name) kind name kind' ↔ _
    rw [mem_addName, mem_addName]
    tauto
  · exact mem_addName kind name _ _ _

lemma pubsubAdd_clients (client : Client) : (pubsubAdd d kind name client).clients = d.clients := by
  rw [pubsubAdd]
  split
  · rfl
  · rfl

lemma pubsubAdd_next (client : Client) : (pubsubAdd d kind name client).next = d.next + 1 := by
  rw [pubsubAdd]
  split
  · rfl
  · rfl

lemma pubsubDel_table (id : HandleId) (kind' : Kind) (name' : Name) :
    (pubsubDel d kind name id).table kind' name' =
      if kind' = kind ∧ name' = name then (d.table kind name).filter fun h => h.id ≠ id
      else d.table kind' name' := by
  rw [pubsubDel]
  split
  · exact setTable_apply kind name _ _ _ _
  · exact setTable_apply kind name _ _ _ _

lemma pubsubDel_clients (id : HandleId) : (pubsubDel d kind name id).clients = d.clients ∧
    (pubsubDel d kind name id).names = d.names ∧ (pubsubDel d kind name id).next = d.next := by
  rw [pubsubDel]
  split
  · exact ⟨rfl, rfl, rfl⟩
  · exact ⟨rfl, rfl, rfl⟩

end Handles

namespace Registry

variable {d : Daemon}

/-- A client that holds no handle for a name gets one. -/
lemma add (h : Registry d) (kind : Kind) (name : Name) {c : Client} {cl : ClientData}
    (hcl : d.clients c = some cl) (hnone : (cl.handles kind).lookup name = none) :
    Registry { pubsubAdd d kind name c with
      clients := Function.update d.clients c (some { cl with
        handles := Function.update cl.handles kind ((cl.handles kind).insert name d.next) }) } := by
  have hmem : ∀ kind' name' (hd : Handle), hd ∈ (pubsubAdd d kind name c).table kind' name' ↔
      hd ∈ d.table kind' name' ∨ (kind' = kind ∧ name' = name ∧ hd = ⟨d.next, c⟩) := by
    intro kind' name' hd
    rw [pubsubAdd_table]
    by_cases heq : kind' = kind ∧ name' = name
    · rw [if_pos heq, heq.1, heq.2, List.mem_append, List.mem_singleton]
      simp
    · rw [if_neg heq]
      constructor
      · exact Or.inl
      · rintro (hd | ⟨hk, hn, -⟩)
        · exact hd
        · exact absurd ⟨hk, hn⟩ heq
  have hlt : ∀ kind' name' i c', (⟨i, c'⟩ : Handle) ∈ d.table kind' name' → i < d.next :=
    fun kind' name' i c' hd => h.fresh kind' name' _ hd
  refine ⟨?_, ?_, ?_, ?_, ?_, ?_⟩
  · intro kind' name' i c'
    dsimp only
    rw [hmem, h.mem kind' name' i c']
    by_cases hc : c' = c
    · subst hc
      rw [Function.update_self]
      simp only [hcl, Option.some.injEq, exists_eq_left', Handle.mk.injEq, and_true]
      by_cases hk : kind' = kind
      · subst hk
        rw [Function.update_self, lookup_insert_ite]
        by_cases hn : name' = name
        · subst hn
          rw [if_pos rfl, hnone]
          simp [eq_comm]
        · rw [if_neg hn]
          simp [hn]
      · rw [Function.update_of_ne hk]
        simp [hk]
    · rw [Function.update_of_ne hc]
      simp [hc]
  · intro kind' name'
    dsimp only
    rw [pubsubAdd_table]
    split
    · rw [List.nodup_append]
      refine ⟨h.nodup kind name, List.nodup_singleton _, ?_⟩
      rintro ⟨i, c'⟩ hi b hb rfl
      rw [List.mem_singleton] at hb
      cases hb
      exact absurd (hlt _ _ _ _ hi) (lt_irrefl _)
    · exact h.nodup kind' name'
  · intro kind' name' i c1 c2 h1 h2
    dsimp only at h1 h2
    rw [hmem] at h1 h2
    rcases h1 with h1 | ⟨-, -, h1⟩ <;> rcases h2 with h2 | ⟨-, -, h2⟩
    · exact h.inj _ _ _ _ _ h1 h2
    · cases h2
      exact absurd (hlt _ _ _ _ h1) (lt_irrefl _)
    · cases h1
      exact absurd (hlt _ _ _ _ h2) (lt_irrefl _)
    · cases h1
      cases h2
      rfl
  · intro kind' name' hd hin
    dsimp only at hin ⊢
    rw [pubsubAdd_next]
    rw [hmem] at hin
    rcases hin with hin | ⟨-, -, rfl⟩
    · exact (h.fresh _ _ _ hin).trans (Nat.lt_succ_self _)
    · exact Nat.lt_succ_self _
  · intro c' hc'
    dsimp only at hc' ⊢
    rw [pubsubAdd_next]
    refine Nat.lt_succ_of_lt (h.client c' ?_)
    by_cases hc : c' = c
    · rw [hc, hcl]
      exact Option.some_ne_none _
    · rwa [Function.update_of_ne hc] at hc'
  · intro kind' name' hne
    dsimp only at hne ⊢
    rw [mem_pubsubAdd_names]
    rw [pubsubAdd_table] at hne
    split at hne
    · rename_i heq
      exact Or.inr heq
    · exact Or.inl (h.names kind' name' hne)

lemma clientPubsubName (h : Registry d) (kind : Kind) (c : Client) (name : Name) :
    Registry (clientPubsubName kind c d name) := by
  unfold Unetmsg.clientPubsubName
  split
  · exact h
  · rename_i cl hcl
    split
    · exact h
    · rename_i hnone
      have hadd := h.add kind name hcl (by simpa using hnone)
      dsimp only
      rw [pubsubAdd_clients]
      cases kind
      · exact hadd.congr (Quiet.frame.publish _ _ _).toCoreSame
      · exact hadd

lemma clientPubsub (h : Registry d) (wildcard : String → String → Bool → Bool) (kind : Kind)
    (c : Client) (names : Option (List Name)) :
    Registry (clientPubsub wildcard kind d c names) := by
  unfold Unetmsg.clientPubsub
  split
  · split
    · exact List.foldlRecOn _ _ (motive := Registry) h
        fun d hd name _ => hd.clientPubsubName kind c name
    · exact h
  · exact h

end Registry

/-! ## A client goes -/

section Disconnect

variable {d : Daemon} {c : Client} {kind : Kind}

/-- What the loops of `client_disconnect` change: they take handles out of the tables. -/
structure Dropped (d : Daemon) (gone : Kind → Name → HandleId → Prop) (d' : Daemon) : Prop where
  clients : d'.clients = d.clients
  names : d'.names = d.names
  next : d'.next = d.next
  mem : ∀ kind name h, h ∈ d'.table kind name ↔ h ∈ d.table kind name ∧ ¬ gone kind name h.id
  sub : ∀ kind name, (d'.table kind name).Sublist (d.table kind name)

lemma Dropped.refl (d : Daemon) : Dropped d (fun _ _ _ => False) d :=
  ⟨rfl, rfl, rfl, fun _ _ _ => by simp, fun _ _ => List.Sublist.refl _⟩

lemma Dropped.trans {d' d'' : Daemon} {gone gone' : Kind → Name → HandleId → Prop}
    (h : Dropped d gone d') (h' : Dropped d' gone' d'') :
    Dropped d (fun kind name id => gone kind name id ∨ gone' kind name id) d'' where
  clients := h'.clients.trans h.clients
  names := h'.names.trans h.names
  next := h'.next.trans h.next
  mem := fun kind name hd => by
    rw [h'.mem, h.mem]
    tauto
  sub := fun kind name => (h'.sub kind name).trans (h.sub kind name)

lemma Dropped.iff {d' : Daemon} {gone : Kind → Name → HandleId → Prop}
    (h : Dropped d gone d') (gone' : Kind → Name → HandleId → Prop) (hiff : ∀ kind name id, gone kind name id ↔ gone' kind name id) :
    Dropped d gone' d' :=
  ⟨h.clients, h.names, h.next, fun kind name hd => by rw [h.mem, hiff], h.sub⟩

lemma pubsubDel_dropped (d : Daemon) (kind : Kind) (name : Name) (id : HandleId) :
    Dropped d (fun kind' name' id' => kind' = kind ∧ name' = name ∧ id' = id)
      (pubsubDel d kind name id) := by
  obtain ⟨hclients, hnames, hnext⟩ := pubsubDel_clients d kind name id
  refine ⟨hclients, hnames, hnext, fun kind' name' hd => ?_, fun kind' name' => ?_⟩
  · rw [pubsubDel_table]
    split
    · rename_i heq
      rw [heq.1, heq.2, List.mem_filter]
      simp
    · rename_i hne
      constructor
      · exact fun hmem => ⟨hmem, fun hc => hne ⟨hc.1, hc.2.1⟩⟩
      · exact fun hmem => hmem.1
  · rw [pubsubDel_table]
    split
    · rename_i heq
      rw [heq.1, heq.2]
      exact List.filter_sublist
    · exact List.Sublist.refl _

lemma clientDropHandle_dropped (d : Daemon) (c : Client) (kind : Kind) (name : Name)
    (id : HandleId) :
    Dropped d (fun kind' name' id' => kind' = kind ∧ name' = name ∧ id' = id)
      (clientDropHandle c kind d name id) := by
  cases kind
  · have hdel := pubsubDel_dropped (handlePublish d (some c) name) .publish name id
    exact ⟨hdel.clients, hdel.names, hdel.next, hdel.mem, hdel.sub⟩
  · exact pubsubDel_dropped d _ _ _

lemma foldl_clientDropHandle_dropped (l : List (Sigma fun _ : Name => HandleId)) (d : Daemon)
    (c : Client) (kind : Kind) :
    Dropped d (fun kind' name' id' => kind' = kind ∧ ⟨name', id'⟩ ∈ l)
      (l.foldl (fun d cur => clientDropHandle c kind d cur.1 cur.2) d) := by
  induction l generalizing d with
  | nil => exact (Dropped.refl d).iff _ (by simp)
  | cons cur l ih =>
    refine ((clientDropHandle_dropped d c kind cur.1 cur.2).trans (ih _)).iff _ fun kind' name' id' => ?_
    rw [List.mem_cons]
    constructor
    · rintro (⟨hk, rfl, rfl⟩ | ⟨hk, hmem⟩)
      · exact ⟨hk, Or.inl rfl⟩
      · exact ⟨hk, Or.inr hmem⟩
    · rintro ⟨hk, hcur | hmem⟩
      · left
        rw [← hcur]
        exact ⟨hk, rfl, rfl⟩
      · exact Or.inr ⟨hk, hmem⟩

lemma Registry.clientDisconnect (h : Registry d) (c : Client) :
    Registry (clientDisconnect d c) := by
  unfold Unetmsg.clientDisconnect
  split
  · exact h
  · rename_i cl hcl
    have hdrop := ((foldl_clientDropHandle_dropped (cl.handles .publish).entries d c
      .publish).trans (foldl_clientDropHandle_dropped (cl.handles .subscribe).entries _ c
      .subscribe)).iff (fun kind name id => (cl.handles kind).lookup name = some id) (by
        intro kind name id
        rw [mem_entries_iff, mem_entries_iff]
        cases kind <;> simp)
    simp only [List.foldl_cons, List.foldl_nil]
    set d1 := (cl.handles .subscribe).entries.foldl
      (fun d cur => clientDropHandle c .subscribe d cur.1 cur.2)
        ((cl.handles .publish).entries.foldl
          (fun d cur => clientDropHandle c .publish d cur.1 cur.2) d)
    refine ⟨?_, ?_, ?_, ?_, ?_, ?_⟩
    · intro kind name i c'
      dsimp only
      rw [hdrop.mem, h.mem, hdrop.clients]
      by_cases hc : c' = c
      · subst hc
        rw [Function.update_self]
        simp [hcl]
      · rw [Function.update_of_ne hc]
        constructor
        · exact fun hx => hx.1
        · intro hx
          refine ⟨hx, fun hgone => hc ?_⟩
          exact h.inj kind name i c' c ((h.mem kind name i c').mpr hx)
            ((h.mem kind name i c).mpr ⟨cl, hcl, hgone⟩)
    · exact fun kind name => List.Nodup.sublist (hdrop.sub kind name) (h.nodup kind name)
    · exact fun kind name i c1 c2 h1 h2 => h.inj kind name i c1 c2
        ((hdrop.sub kind name).subset h1) ((hdrop.sub kind name).subset h2)
    · intro kind name hd hmem
      dsimp only at hmem ⊢
      rw [hdrop.next]
      exact h.fresh kind name hd ((hdrop.sub kind name).subset hmem)
    · intro c' hc'
      dsimp only at hc' ⊢
      rw [hdrop.next]
      rw [hdrop.clients] at hc'
      apply h.client c'
      by_cases hc : c' = c
      · rw [hc, Function.update_self] at hc'
        exact absurd rfl hc'
      · rwa [Function.update_of_ne hc] at hc'
    · intro kind name hne
      dsimp only at hne ⊢
      rw [hdrop.names]
      obtain ⟨hd, hmem⟩ := List.exists_mem_of_ne_nil _ hne
      exact h.names kind name (List.ne_nil_of_mem ((hdrop.sub kind name).subset hmem))

end Disconnect

/-! ## Every step -/

namespace Registry

variable {wildcard : String → String → Bool → Bool} {d : Daemon}

lemma step (h : Registry d) (e : Event) : Registry (step wildcard d e) := by
  cases he : e.isLocal with
  | false => exact h.congr (step_core wildcard d he)
  | true =>
    cases e with
    | connect acl => exact h.connect acl
    | disconnect id => exact h.clientDisconnect id
    | pubsub kind id names => exact h.clientPubsub wildcard kind id names
    | aclSet data => exact ⟨h.mem, h.nodup, h.inj, h.fresh, h.client, h.names⟩
    | _ => cases he

lemma run (h : Registry d) (es : List Event) : Registry (run wildcard d es) :=
  Runs.run_invariant h (fun _ e hd => hd.step e) es

end Registry

/-- In every run a table holds a client once, under an id of its own, exactly while the client is
connected and has the handle. -/
theorem table_run (wildcard : String → String → Bool → Bool) (es : List Event) (kind : Kind)
    (name : Name) :
    (((run wildcard Daemon.init es).table kind name).map Handle.client).Nodup ∧
      (((run wildcard Daemon.init es).table kind name).map Handle.id).Nodup ∧
      ∀ i c, (⟨i, c⟩ : Handle) ∈ (run wildcard Daemon.init es).table kind name ↔
        ∃ cl, (run wildcard Daemon.init es).clients c = some cl ∧
          (cl.handles kind).lookup name = some i := by
  have h : Registry (run wildcard Daemon.init es) := Registry.init.run es
  refine ⟨h.nodup_clients kind name, (h.nodup kind name).map_on ?_, h.mem kind name⟩
  rintro ⟨i, c⟩ hc ⟨j, c'⟩ hc' (rfl : i = j)
  rw [h.inj kind name i c c' hc hc']

end Unetmsg
