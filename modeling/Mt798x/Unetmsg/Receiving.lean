import Mt798x.Unetmsg.Announce
import Mt798x.Unetmsg.Hosts
import Mt798x.Unetmsg.Mirror

/-!
# Reading the packets of a peer

What an incoming connection has registered after it has read a packet of the other end, and what
that leaves of the other connections.
-/

namespace Unetmsg

variable {wildcard : String → String → Bool → Bool}

/-- The current connection of a host is open. -/
def Live (d : Daemon) : Prop :=
  ∀ net host s, rxAt d net host = some s → (d.rx s).isOpen = true

/-- Whether a connection has registered a name. -/
def registers (d : Daemon) (s : SockId) (kind : Kind) (name : Name) : Bool :=
  decide (name ∈ (d.rx s).registered kind)

lemma registers_of_eq {d d' : Daemon} {s : SockId}
    (h : (d'.rx s).registered = (d.rx s).registered) (kind : Kind) (name : Name) :
    registers d' s kind name = registers d s kind name := by
  rw [registers, registers, h]

/-- The `allowed` list of a peer lets a name pass. -/
def Permits (wildcard : String → String → Bool → Bool) (d : Daemon) (net : Net) (host : Host)
    (name : Name) : Prop :=
  ∃ n peer, d.networks.lookup net = some n ∧ n.peers.lookup host = some peer ∧
    allowedBy wildcard peer.allowed name = true

lemma permits_of_netBase {d d' : Daemon} {net : Net} (h : netBase d' net = netBase d net)
    {host : Host} {name : Name} (hp : Permits wildcard d' net host name) :
    Permits wildcard d net host name := by
  obtain ⟨n, peer, hn, hpeer, hallowed⟩ := hp
  rw [netBase, netBase, hn] at h
  obtain ⟨n', hn', heq⟩ := Option.map_eq_some_iff.mp h.symm
  simp only [Prod.mk.injEq] at heq
  exact ⟨n', peer, hn', by rw [heq.2.2.1]; exact hpeer, hallowed⟩

/-- Connections may close, and only one of them may register names. -/
structure OthersKeep (d : Daemon) (s : SockId) (d' : Daemon) : Prop where
  next : d.next ≤ d'.next
  base : ∀ net, netBase d' net = netBase d net
  sock : ∀ t, (d'.rx t).network = (d.rx t).network ∧ (d'.rx t).name = (d.rx t).name ∧
    ((d'.rx t).isOpen = true → (d.rx t).isOpen = true)
  reg : ∀ t, t ≠ s → (d'.rx t).registered = (d.rx t).registered

namespace OthersKeep

variable {d d' d'' : Daemon} {s : SockId}

lemma refl (d : Daemon) (s : SockId) : OthersKeep d s d :=
  ⟨le_rfl, fun _ => rfl, fun _ => ⟨rfl, rfl, id⟩, fun _ _ => rfl⟩

lemma trans (h : OthersKeep d s d') (h' : OthersKeep d' s d'') : OthersKeep d s d'' where
  next := h.next.trans h'.next
  base := fun net => (h'.base net).trans (h.base net)
  sock := fun t => ⟨(h'.sock t).1.trans (h.sock t).1, (h'.sock t).2.1.trans (h.sock t).2.1,
    fun ht => (h.sock t).2.2 ((h'.sock t).2.2 ht)⟩
  reg := fun t ht => (h'.reg t ht).trans (h.reg t ht)

lemma of_same (h : RxSame d d') (hnet : d'.networks = d.networks) (s : SockId) :
    OthersKeep d s d' :=
  ⟨h.next, netBase_of_networks hnet, fun t => by rw [h.rx]; exact ⟨rfl, rfl, id⟩,
    fun t _ => by rw [h.rx]⟩

lemma of_update {sock : RxSock} (hrx : d'.rx = Function.update d.rx s sock)
    (hnet : sock.network = (d.rx s).network) (hname : sock.name = (d.rx s).name)
    (hopen : sock.isOpen = true → (d.rx s).isOpen = true) (hnext : d.next ≤ d'.next)
    (hbase : ∀ net, netBase d' net = netBase d net) : OthersKeep d s d' := by
  refine ⟨hnext, hbase, fun t => ?_, fun t ht => ?_⟩
  · by_cases ht : t = s
    · rw [ht, hrx, Function.update_self]
      exact ⟨hnet, hname, hopen⟩
    · rw [hrx, Function.update_of_ne ht]
      exact ⟨rfl, rfl, id⟩
  · rw [hrx, Function.update_of_ne ht]

lemma of_close (t s : SockId) : OthersKeep d s (rxSocketClose d t) ∧
    ∀ u, ((rxSocketClose d t).rx u).registered = (d.rx u).registered := by
  have hkeep : OthersKeep d t (rxSocketClose d t) :=
    of_update (rxSocketClose_rx d t) rfl rfl (fun h => by cases h) (rxSocketClose_next d t)
      (rxSocketClose_netBase d t)
  have hreg : ∀ u, ((rxSocketClose d t).rx u).registered = (d.rx u).registered := by
    intro u
    by_cases hu : u = t
    · rw [hu, rxSocketClose_rx, Function.update_self]
    · exact hkeep.reg u hu
  exact ⟨⟨hkeep.next, hkeep.base, hkeep.sock, fun u _ => hreg u⟩, hreg⟩

end OthersKeep

section Receive

variable {d : Daemon} {s : SockId}

lemma networkCheckAuth_keep (d : Daemon) (s : SockId) (data : Option TokenData) :
    OthersKeep d s (networkCheckAuth d s data) ∧
      ((networkCheckAuth d s data).rx s).registered = (d.rx s).registered := by
  rcases networkCheckAuth_cases d s data with heq | ⟨-, hin⟩
  · rw [heq]
    exact ⟨OthersKeep.refl d s, rfl⟩
  · have hclose : OthersKeep d s (networkRxSocketClose d
        (rxAt d (d.rx s).network (d.rx s).name)) ∧
        ((networkRxSocketClose d (rxAt d (d.rx s).network (d.rx s).name)).rx s).registered =
          (d.rx s).registered := by
      cases rxAt d (d.rx s).network (d.rx s).name with
      | none => exact ⟨OthersKeep.refl d s, rfl⟩
      | some old => exact ⟨(OthersKeep.of_close old s).1, (OthersKeep.of_close old s).2 s⟩
    obtain ⟨hkeep, hreg⟩ := hclose
    refine ⟨hkeep.trans (OthersKeep.of_update hin.rx rfl rfl id hin.next fun net => ?_), ?_⟩
    · rw [hin.netBase, hkeep.base]
    · rw [hin.rx, Function.update_self]
      exact hreg

lemma remoteSet_keep (d : Daemon) (s : SockId) (n : Network) (kind : Kind) (name : Name)
    (enabled : Bool) : OthersKeep d s (remoteSet wildcard d s n kind name enabled) := by
  rcases remoteSet_cases wildcard d s n kind name enabled with
    ⟨hsame, hnet, -⟩ | ⟨-, -, hreg⟩ | ⟨-, hreg⟩
  · exact OthersKeep.of_same hsame hnet s
  · exact OthersKeep.of_update hreg.rx rfl rfl id hreg.next.ge (netBase_of_networks hreg.networks)
  · exact OthersKeep.of_update hreg.rx rfl rfl id hreg.next.ge (netBase_of_networks hreg.networks)

lemma networkSocketHandleRequest_keep (d : Daemon) (s : SockId) (msg : RxMsg) :
    OthersKeep d s (networkSocketHandleRequest wildcard d s msg) := by
  unfold networkSocketHandleRequest
  dsimp only
  split
  · exact OthersKeep.refl d s
  · split
    · split
      · exact OthersKeep.refl d s
      · exact remoteSet_keep d s _ _ _ _
    · exact OthersKeep.of_same (RxSame.callFrame.call d _ _ _ _ _ _) rfl s
    · exact OthersKeep.of_same (RxSame.callFrame.call d _ _ _ _ _ _) rfl s
    · exact OthersKeep.refl d s

lemma rxCallback_keep (d : Daemon) (s : SockId) (msg : RxMsg) :
    OthersKeep d s (rxCallback wildcard d s msg) := by
  unfold rxCallback
  split
  · split
    · exact networkSocketHandleRequest_keep d s msg
    · split
      · exact OthersKeep.of_update rfl rfl rfl id le_rfl fun net => netBase_of_networks rfl net
      · rename_i data id created
        have hin := (networkCheckAuth_keep d s data).1
        dsimp only
        split
        · split
          · have hpush : RxSame (networkCheckAuth d s data) (pushRx (networkCheckAuth d s data) s
                (.reply ((networkCheckAuth d s data).rx s).network
                  ((networkCheckAuth d s data).rx s).name id)) := RxSame.of_eq rfl rfl rfl le_rfl
            exact hin.trans (OthersKeep.of_same hpush rfl s)
          · exact hin
        · exact hin.trans (OthersKeep.of_close s s).1
      · exact (OthersKeep.of_close s s).1
  · exact OthersKeep.refl d s

lemma Registered.mem_registered {kind : Kind} {name : Name} {list : List Name} {entry : Option Net}
    {d' : Daemon} (h : Registered d s kind name list entry d') (kind' : Kind) (name' : Name) :
    name' ∈ (d'.rx s).registered kind' ↔
      name' ∈ if kind = kind' then list else (d.rx s).registered kind' := by
  rw [h.rx, Function.update_self]
  dsimp only
  by_cases hk : kind = kind'
  · rw [if_pos hk, hk, Function.update_self]
  · rw [if_neg hk, Function.update_of_ne (Ne.symm hk)]

/-- What a registration leaves in the list of the connection. -/
lemma registers_remoteSet (d : Daemon) (s : SockId) {n : Network} (kind : Kind) {name : Name}
    (hempty : name ≠ "") (enabled : Bool) (kind' : Kind) {name' : Name} {peer : Peer}
    (hpeer : n.peers.lookup (d.rx s).name = some peer)
    (hallowed : allowedBy wildcard peer.allowed name' = true) :
    registers (remoteSet wildcard d s n kind name enabled) s kind' name' =
      toldBy kind' name' (registers d s kind' name') (.set kind name enabled) := by
  rw [toldBy, registers, registers]
  rcases remoteSet_cases wildcard d s n kind name enabled with
    ⟨hsame, -, hon, hoff⟩ | ⟨rfl, -, hreg⟩ | ⟨rfl, hreg⟩
  · rw [hsame.rx]
    split
    · rename_i heq
      obtain ⟨rfl, rfl, -⟩ := heq
      cases enabled with
      | false => exact decide_eq_false (hoff rfl)
      | true =>
        rcases hon rfl with hmem | hno
        · exact decide_eq_true hmem
        · rw [hno peer hpeer] at hallowed
          cases hallowed
    · rfl
  · simp only [hreg.mem_registered kind' name']
    by_cases hk : kind = kind'
    · by_cases hn : name = name'
      · have hempty' : name' ≠ "" := hn ▸ hempty
        simp [hk, hn, hempty']
      · simp [hk, hn, Ne.symm hn]
    · simp [hk]
  · simp only [hreg.mem_registered kind' name']
    by_cases hk : kind = kind'
    · by_cases hn : name = name'
      · have hempty' : name' ≠ "" := hn ▸ hempty
        simp [hk, hn, hempty']
      · simp [hk, hn, Ne.symm hn]
    · simp [hk]

lemma registers_handleRequest (parsed : Option TokenData) (created : Bool) (p : Packet)
    (kind : Kind) {name : Name} (hp : Permits wildcard d (d.rx s).network (d.rx s).name name) :
    registers (networkSocketHandleRequest wildcard d s (received parsed created p)) s kind name =
      toldBy kind name (registers d s kind name) p := by
  obtain ⟨n, peer, hn, hpeer, hallowed⟩ := hp
  unfold networkSocketHandleRequest
  dsimp only
  rw [hn]
  cases p with
  | set kind' name' enabled =>
    dsimp only [received]
    split
    · rename_i hempty
      rw [toldBy, if_neg]
      rintro ⟨-, heq, hne⟩
      exact hne (heq.symm.trans hempty)
    · rename_i hempty
      exact registers_remoteSet d s kind' hempty enabled kind hpeer hallowed
  | call method data =>
    cases method
    · rfl
    · rfl
    · rfl
  | hello id => rfl
  | auth net target id => rfl
  | reply net target id => rfl

/-- A connection that is still open after a packet has read it. -/
lemma registers_rxCallback (parsed : Option TokenData) (created : Bool) (p : Packet) (kind : Kind)
    {name : Name} (hp : Permits wildcard d (d.rx s).network (d.rx s).name name)
    (hopen : ((rxCallback wildcard d s (received parsed created p)).rx s).isOpen = true) :
    registers (rxCallback wildcard d s (received parsed created p)) s kind name =
      toldBy kind name (registers d s kind name) p := by
  have hclosed : ∀ d : Daemon, ((rxSocketClose d s).rx s).isOpen ≠ true := by
    intro d
    rw [rxSocketClose_rx, Function.update_self]
    simp
  have hkeep : OthersKeep d s (rxCallback wildcard d s (received parsed created p)) :=
    rxCallback_keep d s _
  have hwas := (hkeep.sock s).2.2 hopen
  unfold rxCallback at hopen ⊢
  rw [if_pos hwas] at hopen ⊢
  by_cases hauth : (d.rx s).auth = true
  · rw [if_pos hauth]
    exact registers_handleRequest parsed created p kind hp
  · rw [if_neg hauth] at hopen ⊢
    cases p with
    | hello id =>
      have hself : (setRx d s { d.rx s with id := some id }).rx s = { d.rx s with id := some id } :=
        Function.update_self _ _ _
      have hreg : ((setRx d s { d.rx s with id := some id }).rx s).registered =
          (d.rx s).registered := by rw [hself]
      exact registers_of_eq hreg kind name
    | auth net target id =>
      obtain ⟨-, hreg⟩ := networkCheckAuth_keep d s parsed
      dsimp only [received] at hopen ⊢
      split
      · split
        · exact registers_of_eq hreg kind name
        · exact registers_of_eq hreg kind name
      · rename_i hno
        rw [if_neg hno] at hopen
        exact absurd hopen (hclosed _)
    | set kind' name' enabled => exact absurd hopen (hclosed d)
    | call method data => exact absurd hopen (hclosed d)
    | reply net target id => exact absurd hopen (hclosed d)

lemma live_of_update {d d' : Daemon} (h : Live d) (hat : ∀ net host t, rxAt d' net host = some t →
    rxAt d net host = some t) (hopen : ∀ net host t, rxAt d' net host = some t →
      (d'.rx t).isOpen = (d.rx t).isOpen) : Live d' := by
  intro net host t ht
  rw [hopen net host t ht]
  exact h net host t (hat net host t ht)

lemma live_same {d d' : Daemon} (h : Live d) (hsame : RxSame d d') : Live d' :=
  live_of_update h (fun net host t ht => (hsame.rxAt net host).symm.trans ht)
    fun net host t _ => by rw [hsame.rx]

lemma live_update {d' : Daemon} {sock : RxSock} (h : Live d)
    (hrx : d'.rx = Function.update d.rx s sock) (hopen : sock.isOpen = (d.rx s).isOpen)
    (hat : ∀ net host, rxAt d' net host = rxAt d net host) : Live d' := by
  refine live_of_update h (fun net host t ht => (hat net host).symm.trans ht)
    fun net host t _ => ?_
  rw [hrx]
  by_cases ht : t = s
  · rw [ht, Function.update_self, hopen]
  · rw [Function.update_of_ne ht]

lemma live_rxSocketClose (hm : Mirrored d) (h : Live d) (s : SockId) : Live (rxSocketClose d s) := by
  refine live_of_update h (fun net host t ht => (hm.rxAt_rxSocketClose ht).1)
    fun net host t ht => ?_
  rw [rxSocketClose_rx, Function.update_of_ne (hm.rxAt_rxSocketClose ht).2]

lemma live_networkCheckAuth (hm : Mirrored d) (h : Live d) (hauth : (d.rx s).auth = false)
    (hopen : (d.rx s).isOpen = true) (data : Option TokenData) :
    Live (networkCheckAuth d s data) := by
  rcases networkCheckAuth_cases d s data with heq | ⟨-, hin⟩
  · rw [heq]
    exact h
  · set d1 := networkRxSocketClose d (rxAt d (d.rx s).network (d.rx s).name) with hd1
    have hlive : Live d1 := by
      cases hold : rxAt d (d.rx s).network (d.rx s).name with
      | none =>
        rw [hd1, hold]
        exact h
      | some old =>
        rw [hd1, hold]
        exact live_rxSocketClose hm h old
    have hs : (d1.rx s).isOpen = true := by
      cases hold : rxAt d (d.rx s).network (d.rx s).name with
      | none =>
        rw [hd1, hold]
        exact hopen
      | some old =>
        have hne : s ≠ old := by
          rintro rfl
          rw [(hm.own _ _ s hold).2.2] at hauth
          cases hauth
        have hclose : d1 = rxSocketClose d old := by
          rw [hd1, hold]
          rfl
        rw [hclose, rxSocketClose_rx, Function.update_of_ne hne]
        exact hopen
    intro net host t ht
    rw [hin.rxAt] at ht
    rw [hin.rx]
    by_cases hts : t = s
    · rw [hts, Function.update_self]
      exact hs
    · rw [Function.update_of_ne hts]
      split at ht
      · cases ht
        exact absurd rfl hts
      · exact hlive net host t ht

lemma live_remoteSet (h : Live d) (s : SockId) (n : Network) (kind : Kind) (name : Name)
    (enabled : Bool) : Live (remoteSet wildcard d s n kind name enabled) := by
  have hreg : ∀ {list entry d'}, Registered d s kind name list entry d' → Live d' := by
    intro list entry d' hreg
    refine live_update h hreg.rx rfl fun net host => ?_
    rw [rxAt, hreg.networks, rxAt]
  rcases remoteSet_cases wildcard d s n kind name enabled with
    ⟨hsame, -⟩ | ⟨-, -, hset⟩ | ⟨-, hset⟩
  · exact live_same h hsame
  · exact hreg hset
  · exact hreg hset

lemma live_rxCallback (hm : Mirrored d) (h : Live d) {msg : RxMsg}
    (hclash : NoClash d (.rx s msg)) : Live (rxCallback wildcard d s msg) := by
  unfold rxCallback
  split
  · rename_i hopen
    split
    · unfold networkSocketHandleRequest
      dsimp only
      split
      · exact h
      · split
        · split
          · exact h
          · exact live_remoteSet h s _ _ _ _
        · exact live_same h (RxSame.callFrame.call d _ _ _ _ _ _)
        · exact live_same h (RxSame.callFrame.call d _ _ _ _ _ _)
        · exact h
    · rename_i hauth
      rw [Bool.not_eq_true] at hauth
      split
      · exact live_update h rfl rfl fun _ _ => rfl
      · rename_i data id created
        have hin := live_networkCheckAuth hm h hauth hopen data
        have hmin := hm.networkCheckAuth hauth hopen (hclash hopen hauth)
        dsimp only
        split
        · split
          · exact hin
          · exact hin
        · exact live_rxSocketClose hmin hin s
      · exact live_rxSocketClose hm h s
  · exact h

lemma live_closeRx (hm : Mirrored d) (h : Live d) (hauth : (d.rx s).auth = false) :
    Live (closeRx d s) := by
  refine live_of_update h (fun _ _ _ ht => ht) fun net host t ht => ?_
  have hts : t ≠ s := by
    rintro rfl
    rw [(hm.own net host t ht).2.2] at hauth
    cases hauth
  exact congrArg RxSock.isOpen (Function.update_of_ne hts _ _)

lemma networkAccept_cases (d : Daemon) (net : Net) (n : Network) (address : String) (id : Id) :
    networkAccept d net n address id = d ∨
      ∃ sock : RxSock, sock.network = net ∧ sock.registered = (fun _ => []) ∧
        (networkAccept d net n address id).rx = Function.update d.rx d.next sock ∧
        (networkAccept d net n address id).networks = d.networks ∧
        (networkAccept d net n address id).next = d.next + 1 := by
  unfold networkAccept
  split
  · exact Or.inl rfl
  · exact Or.inr ⟨_, rfl, rfl, rfl, rfl, rfl⟩

lemma live_networkAccept (hm : Mirrored d) (h : Live d) (net : Net) (n : Network)
    (address : String) (id : Id) : Live (networkAccept d net n address id) := by
  rcases networkAccept_cases d net n address id with heq | ⟨sock, -, -, hrx, hnet, -⟩
  · rw [heq]
    exact h
  · refine live_of_update h (fun net host t ht => by rwa [rxAt, hnet] at ht) fun net host t ht => ?_
    have ht' : rxAt d net host = some t := by rwa [rxAt, hnet] at ht
    have hne : t ≠ d.next := by
      rintro rfl
      have hauth := (hm.own net host _ ht').2.2
      rw [(hm.fresh d.next le_rfl).1] at hauth
      cases hauth
    rw [hrx, Function.update_of_ne hne]

end Receive

end Unetmsg
