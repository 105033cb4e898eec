import Mt798x.Unetmsg.Receiving

/-!
# Agreement on registrations

Two daemons A and B with a network in common.  A opens a channel to B, B accepts it, and the
packets of A arrive in order; the channel can go down at either end at any time and is opened
again.  B has a name of A when a client of A holds a handle for it, as long as the keys that A
announces to a new channel are those of names that have a handle.
-/

namespace Unetmsg

/-- The network that the two daemons have in common, as unetd reports it to each of them, and the
address from which B sees A connect. -/
structure Ends where
  net : Net
  infoA : Info
  infoB : Info
  address : String

def Ends.hostA (p : Ends) : Host := p.infoA.localHost

def Ends.hostB (p : Ends) : Host := p.infoB.localHost

/-- The two daemons, and the connection of B at the other end of one of A. -/
structure Pair where
  a : Daemon
  b : Daemon
  link : SockId → Option SockId

/-- Both daemons have opened the network. -/
def Pair.start (p : Ends) : Pair where
  a := updateNetwork Daemon.init p.net p.infoA true
  b := updateNetwork Daemon.init p.net p.infoB true
  link := fun _ => none

/-- What can happen: a client of A, the timer of A, an outgoing connection of A; at B, a connection
of A is accepted, a packet of A is read, and a connection is closed or times out. -/
inductive Act where
  | client (e : Event)
  | timer (created : Host → Bool)
  | tx (t : SockId) (msg : TxMsg)
  | accept (t : SockId) (id : Id)
  | deliver (t : SockId) (parsed : Option TokenData) (created : Bool)
  | closed (s : SockId)
  | timeout (s : SockId)

def Pair.step (wildcard : String → String → Bool → Bool) (p : Ends) (w : Pair) : Act → Pair
  | .client e => if e.isLocal || e.isSend then { w with a := Unetmsg.step wildcard w.a e } else w
  | .timer created => { w with a := networkConnectPeers w.a p.net created }
  | .tx t msg => { w with a := txCallback w.a t msg }
  | .accept t id =>
    if t < w.a.next ∧ (w.a.tx t).name = p.hostB ∧ w.link t = none then
      let b := Unetmsg.step wildcard w.b (.accept p.net p.address id)
      { w with
        b := b
        link := if b.next = w.b.next then w.link else Function.update w.link t (some w.b.next) }
    else w
  | .deliver t parsed created =>
    match w.a.txOut t, w.link t with
    | q :: _, some s =>
      { w with a := pop w.a t, b := rxCallback wildcard w.b s (received parsed created q) }
    | _, _ => w
  | .closed s => { w with b := rxSocketClose w.b s }
  | .timeout s => { w with b := Unetmsg.step wildcard w.b (.rxTimeout s) }

section Agree

variable (wildcard : String → String → Bool → Bool) (p : Ends)

/-- When the channel from A to B is authenticated at both ends and nothing of A is in flight, B
has the names that clients of A hold. -/
def Agree (w : Pair) : Prop :=
  ∀ t s, txChannel w.a (p.hostB, p.net) = some t → (w.a.tx t).auth = true → w.link t = some s →
    rxAt w.b p.net p.hostA = some s → (w.b.rx s).auth = true → w.a.txOut t = [] →
    ∀ kind name, Permits wildcard w.b p.net p.hostA name →
      (((w.b.remote kind name).lookup p.hostA).isSome = true ↔
        ∃ c cl, w.a.clients c = some cl ∧ ((cl.handles kind).lookup name).isSome = true)

/-- A step that keeps the daemons in agreement: a channel to B comes up while every key of the
tables that B lets pass has a handle, and no client registers an empty name that B lets pass. -/
def Settled (w : Pair) : Act → Prop
  | .client (.pubsub _ _ (some names)) =>
    "" ∈ names → ¬ Permits wildcard w.b p.net p.hostA ""
  | .tx t (.reply data) =>
    (w.a.tx t).isOpen = true → (w.a.tx t).name = p.hostB →
      networkAuthValid p.hostB none data = true →
        ∀ kind, ∀ name ∈ w.a.names kind, Permits wildcard w.b p.net p.hostA name →
          w.a.table kind name ≠ []
  | _ => True

end Agree

/-! ## The invariant -/

/-- What B has of a name over a connection of A. -/
def Pair.known (w : Pair) (t : SockId) (kind : Kind) (name : Name) : Bool :=
  match w.link t with
  | some s => registers w.b s kind name
  | none => false

/-- The other end of a connection, if there is one, is open and named after A. -/
def Pair.Usable (p : Ends) (w : Pair) (t : SockId) : Prop :=
  ∀ s, w.link t = some s → (w.b.rx s).isOpen = true ∧ (w.b.rx s).name = p.hostA

/-- What holds in every state.  A connection that is not authenticated has told nothing; one that
is tells B, with what waits on it, which names have handles. -/
structure InStep (wildcard : String → String → Bool → Bool) (p : Ends) (w : Pair) : Prop where
  registry : Registry w.a
  txNames : TxNames w.a
  mirrored : Mirrored w.b
  live : Live w.b
  base : ∀ net, netBase w.b net = netBase (Pair.start p).b net
  link : ∀ t s, w.link t = some s →
    t < w.a.next ∧ s < w.b.next ∧ (w.b.rx s).network = p.net
  inj : ∀ t t' s, w.link t = some s → w.link t' = some s → t = t'
  new : ∀ t, (w.a.tx t).auth = false → (∀ q ∈ w.a.txOut t, q.isSet = false) ∧
    (w.Usable p t → ∀ kind name, Permits wildcard w.b p.net p.hostA name →
      w.known t kind name = false)
  told : ∀ t, w.a.txReady t = true → (w.a.tx t).name = p.hostB → w.Usable p t →
    ∀ kind name, Permits wildcard w.b p.net p.hostA name →
      told kind name (w.known t kind name) (w.a.txOut t) = listed w.a kind name
  named : ∀ kind, "" ∈ w.a.names kind → ¬ Permits wildcard w.b p.net p.hostA ""

namespace InStep

variable {wildcard : String → String → Bool → Bool} {p : Ends} {w : Pair}

lemma agree (h : InStep wildcard p w) : Agree wildcard p w := by
  intro t s hchan hauth hlink hat _ hout kind name hp
  have hready : w.a.txReady t = true := (txReady_iff w.a t).mpr ⟨hauth, p.net, p.hostB, hchan⟩
  have husable : w.Usable p t := by
    intro s' hs'
    rw [hlink, Option.some.injEq] at hs'
    rw [← hs']
    exact ⟨h.live _ _ s hat, (h.mirrored.own _ _ s hat).2.1⟩
  have htold := h.told t hready (h.txNames _ _ t hchan).2 husable kind name hp
  rw [hout, told_nil, Pair.known, hlink] at htold
  -- the entry of A in the table is what its current connection has registered
  have hentry : ((w.b.remote kind name).lookup p.hostA).isSome = true ↔
      name ∈ (w.b.rx s).registered kind := by
    rw [Option.isSome_iff_exists]
    constructor
    · rintro ⟨net, hnet⟩
      obtain ⟨s', hs', hname⟩ := (h.mirrored.mirror kind name p.hostA net).mp hnet
      rw [h.mirrored.single _ _ _ _ _ hs' hat, hat, Option.some.injEq] at hs'
      rw [hs']
      exact hname
    · exact fun hname => ⟨p.net, (h.mirrored.mirror kind name p.hostA p.net).mpr ⟨s, hat, hname⟩⟩
  rw [hentry, ← h.registry.table_ne_nil_iff kind name]
  have hiff : name ∈ (w.b.rx s).registered kind ↔ w.a.table kind name ≠ [] ∧ name ≠ "" :=
    decide_eq_decide.mp htold
  rw [hiff]
  constructor
  · exact fun hboth => hboth.1
  · intro hne
    refine ⟨hne, ?_⟩
    rintro rfl
    exact h.named kind (h.registry.names kind "" hne) hp

lemma stepA (h : InStep wildcard p w) {a : Daemon} (hreg : Registry a) (htx : TxNames a)
    (hnext : w.a.next ≤ a.next)
    (hnew : ∀ t, (a.tx t).auth = false → (∀ q ∈ a.txOut t, q.isSet = false) ∧
      ((w.a.tx t).auth = false ∨ w.a.next ≤ t))
    (htold : ∀ t, a.txReady t = true → (a.tx t).name = p.hostB → w.Usable p t →
      ∀ kind name, Permits wildcard w.b p.net p.hostA name →
        Unetmsg.told kind name (w.known t kind name) (a.txOut t) = listed a kind name)
    (hnamed : ∀ kind, "" ∈ a.names kind → ¬ Permits wildcard w.b p.net p.hostA "") :
    InStep wildcard p { w with a := a } where
  registry := hreg
  txNames := htx
  mirrored := h.mirrored
  live := h.live
  base := h.base
  link := fun t s hs => ⟨(h.link t s hs).1.trans_le hnext, (h.link t s hs).2⟩
  inj := h.inj
  new := by
    intro t ht
    obtain ⟨hset, hold | hlt⟩ := hnew t ht
    · exact ⟨hset, (h.new t hold).2⟩
    · refine ⟨hset, fun _ kind name _ => ?_⟩
      have hnone : w.link t = none := by
        rw [Option.eq_none_iff_forall_ne_some]
        intro s hs
        exact absurd hlt (not_le.mpr (h.link t s hs).1)
      show (match w.link t with | some s => registers w.b s kind name | none => false) = false
      rw [hnone]
  told := htold
  named := hnamed

lemma reopened (h : InStep wildcard p w) {a : Daemon} (hre : Reopened w.a a) (hcore : CoreSame w.a a)
    (hframe : TxFrame w.a a) : InStep wildcard p { w with a := a } := by
  refine h.stepA (h.registry.congr hcore) (h.txNames.frame hframe) hre.next (fun t ht => ?_)
    (fun t hready hname husable kind name hp => ?_) (by rw [hcore.names]; exact h.named)
  · rcases hre.sock t with ⟨hauth, -, hout⟩ | ⟨hlt, -, hout⟩
    · rw [hauth] at ht
      rw [hout]
      exact ⟨(h.new t ht).1, Or.inl ht⟩
    · rw [hout]
      exact ⟨by simp, Or.inr hlt⟩
  · obtain ⟨hout, hsame⟩ := hre.out hready
    rw [hout, listed, hcore.table]
    exact h.told t (hre.ready hready) (hsame.symm.trans hname) husable kind name hp

lemma tracks (h : InStep wildcard p w) {a : Daemon} (htr : Tracks w.a a) (hreg : Registry a)
    (hnamed : ∀ kind, "" ∈ a.names kind → ¬ Permits wildcard w.b p.net p.hostA "") :
    InStep wildcard p { w with a := a } := by
  have htx : TxNames a := by
    intro net host t ht
    rw [txChannel, htr.networks] at ht
    rw [htr.tx]
    exact ⟨(h.txNames net host t ht).1.trans_le htr.next, (h.txNames net host t ht).2⟩
  refine h.stepA hreg htx htr.next (fun t ht => ?_)
    (fun t hready hname husable kind name hp => ?_) hnamed
  · rw [htr.tx] at ht
    refine ⟨fun q hq => ?_, Or.inl ht⟩
    have hready : w.a.txReady t = false := by
      rw [Daemon.txReady, ht]
      rfl
    obtain ⟨ps, hps, hset⟩ := htr.quiet t hready
    rw [hps, List.mem_append] at hq
    rcases hq with hq | hq
    · exact (h.new t ht).1 q hq
    · exact hset q hq
  · rw [htr.ready] at hready
    rw [htr.tx] at hname
    exact htr.told t kind name _ hready (h.told t hready hname husable kind name hp)

lemma pushed (h : InStep wildcard p w) {t : SockId} {q : Packet} (hauth : (w.a.tx t).auth = false)
    (hq : q.isSet = false) : InStep wildcard p { w with a := pushTx w.a t [q] } := by
  have hself : (pushTx w.a t [q]).txOut t = w.a.txOut t ++ [q] := Function.update_self _ _ _
  have hother : ∀ t', t' ≠ t → (pushTx w.a t [q]).txOut t' = w.a.txOut t' :=
    fun t' ht => Function.update_of_ne ht _ _
  refine h.stepA (h.registry.congr ⟨rfl, rfl, rfl, rfl, le_rfl⟩) h.txNames le_rfl
    (fun t' ht => ⟨fun q' hq' => ?_, Or.inl ht⟩) (fun t' hready hname husable kind name hp => ?_)
    h.named
  · by_cases htt : t' = t
    · rw [htt, hself, List.mem_append, List.mem_singleton] at hq'
      rcases hq' with hq' | rfl
      · exact (h.new t hauth).1 q' hq'
      · exact hq
    · rw [hother t' htt] at hq'
      exact (h.new t' ht).1 q' hq'
  · have htt : t' ≠ t := by
      rintro rfl
      have hon := ((txReady_iff _ _).mp hready).1
      rw [show ((pushTx w.a t' [q]).tx t').auth = false from hauth] at hon
      cases hon
    rw [hother t' htt]
    exact h.told t' hready hname husable kind name hp

/-- A channel of A comes up while the keys that B lets pass have handles. -/
lemma cameUp (h : InStep wildcard p w) {t : SockId} {a : Daemon} (hup : CameUp w.a t a)
    (hcore : CoreSame w.a a) (hsettled : (w.a.tx t).name = p.hostB → ∀ kind,
      ∀ name ∈ w.a.names kind, Permits wildcard w.b p.net p.hostA name → w.a.table kind name ≠ []) :
    InStep wildcard p { w with a := a } := by
  have hself : a.tx t = { w.a.tx t with auth := true } := by
    rw [hup.tx, Function.update_self]
  have hother : ∀ t', t' ≠ t → a.tx t' = w.a.tx t' ∧ a.txOut t' = w.a.txOut t' := by
    intro t' ht
    rw [hup.tx, hup.out, Function.update_of_ne ht, Function.update_of_ne ht]
    exact ⟨rfl, rfl⟩
  have hname : ∀ t', (a.tx t').name = (w.a.tx t').name := by
    intro t'
    by_cases ht : t' = t
    · rw [ht, hself]
    · rw [(hother t' ht).1]
  have htx : TxNames a := by
    intro net host t' ht'
    rw [txChannel, hup.networks] at ht'
    rw [hname, hup.next]
    exact h.txNames net host t' ht'
  refine h.stepA (h.registry.congr hcore) htx hup.next.ge (fun t' ht' => ?_)
    (fun t' hready hhost husable kind name hp => ?_) (by rw [hcore.names]; exact h.named)
  · by_cases htt : t' = t
    · rw [htt, hself] at ht'
      cases ht'
    · rw [(hother t' htt).1] at ht'
      rw [(hother t' htt).2]
      exact ⟨(h.new t' ht').1, Or.inl ht'⟩
  · obtain ⟨hauth, net, host, hchan⟩ := (txReady_iff _ _).mp hready
    rw [txChannel, hup.networks] at hchan
    rw [hname] at hhost
    rw [listed, hcore.table]
    by_cases htt : t' = t
    · subst htt
      rw [hup.out, Function.update_self, told_append, told_announcements]
      -- what B would have without the announcements
      have hbefore : name ∉ w.a.names kind ∨ name = "" →
          Unetmsg.told kind name (w.known t' kind name) (w.a.txOut t') = false := by
        intro hno
        have hlisted : listed w.a kind name = false := by
          refine decide_eq_false ?_
          rintro ⟨hne, hempty⟩
          rcases hno with hno | hno
          · exact hno (h.registry.names kind name hne)
          · exact hempty hno
        cases hold : (w.a.tx t').auth with
        | true =>
          have hready' : w.a.txReady t' = true := (txReady_iff _ _).mpr ⟨hold, net, host, hchan⟩
          rw [h.told t' hready' hhost husable kind name hp, hlisted]
        | false =>
          obtain ⟨hset, hknown⟩ := h.new t' hold
          rw [told_of_no_set _ _ _ hset, hknown husable kind name hp]
      by_cases hmem : name ∈ w.a.names kind ∧ name ≠ ""
      · rw [if_pos hmem]
        exact (decide_eq_true ⟨hsettled hhost kind name hmem.1 hp, hmem.2⟩).symm
      · rw [if_neg hmem]
        have hno : name ∉ w.a.names kind ∨ name = "" := by tauto
        rw [hbefore hno]
        refine (decide_eq_false ?_).symm
        rintro ⟨hne, hempty⟩
        exact hmem ⟨h.registry.names kind name hne, hempty⟩
    · rw [(hother t' htt).1] at hauth
      rw [(hother t' htt).2]
      exact h.told t' ((txReady_iff _ _).mpr ⟨hauth, net, host, hchan⟩) hhost husable kind name hp

lemma stepB (h : InStep wildcard p w) {b : Daemon} {s : SockId} (hkeep : OthersKeep w.b s b)
    (hreg : (b.rx s).registered = (w.b.rx s).registered) (hm : Mirrored b) (hlive : Live b) :
    InStep wildcard p { w with b := b } := by
  have hknown : ∀ t kind name, Pair.known { w with b := b } t kind name = w.known t kind name := by
    intro t kind name
    rw [Pair.known, Pair.known]
    dsimp only
    cases w.link t with
    | none => rfl
    | some u =>
      by_cases hu : u = s
      · rw [hu]
        exact registers_of_eq hreg kind name
      · exact registers_of_eq (hkeep.reg u hu) kind name
  have husable : ∀ t, Pair.Usable p { w with b := b } t → w.Usable p t := by
    intro t ht u hu
    obtain ⟨hopen, hname⟩ := ht u hu
    obtain ⟨-, hname', hopen'⟩ := hkeep.sock u
    exact ⟨hopen' hopen, hname'.symm.trans hname⟩
  have hpermits : ∀ {name}, Permits wildcard b p.net p.hostA name →
      Permits wildcard w.b p.net p.hostA name := permits_of_netBase (hkeep.base _)
  refine ⟨h.registry, h.txNames, hm, hlive, fun net => (hkeep.base net).trans (h.base net),
    fun t u hu => ?_, h.inj, fun t ht => ⟨(h.new t ht).1, fun hus kind name hp => ?_⟩,
    fun t hready hname hus kind name hp => ?_, fun kind hmem hp => h.named kind hmem (hpermits hp)⟩
  · obtain ⟨ht, hlt, hnet⟩ := h.link t u hu
    exact ⟨ht, hlt.trans_le hkeep.next, (hkeep.sock u).1.trans hnet⟩
  · rw [hknown]
    exact (h.new t ht).2 (husable t hus) kind name (hpermits hp)
  · rw [hknown]
    exact h.told t hready hname (husable t hus) kind name (hpermits hp)

lemma rxAt_none (h : InStep wildcard p w) {net : Net} (hnet : net ≠ p.net) (host : Host) :
    rxAt w.b net host = none := by
  have hstart : (Pair.start p).b.networks.lookup net = none := by
    show (updateNetwork Daemon.init p.net p.infoB true).networks.lookup net = none
    unfold updateNetwork
    split
    · rfl
    · have hnew : (Daemon.init.networks.lookup p.net).isSome = false := rfl
      dsimp only
      rw [hnew]
      exact AList.lookup_insert_ne hnet
  have hbase := h.base net
  rw [netBase, netBase, hstart, Option.map_none, Option.map_eq_none_iff] at hbase
  rw [rxAt, hbase]
  rfl

/-- B reads the first packet on a connection of A. -/
lemma delivered (h : InStep wildcard p w) {t s : SockId} {q : Packet} {qs : List Packet}
    (hout : w.a.txOut t = q :: qs) (hlink : w.link t = some s) (parsed : Option TokenData)
    (created : Bool) :
    InStep wildcard p { w with
      a := pop w.a t, b := rxCallback wildcard w.b s (received parsed created q) } := by
  set b := rxCallback wildcard w.b s (received parsed created q) with hb
  have hkeep : OthersKeep w.b s b := rxCallback_keep w.b s _
  obtain ⟨-, -, hnet⟩ := h.link t s hlink
  have hclash : NoClash w.b (.rx s (received parsed created q)) := by
    cases q with
    | auth net target id =>
      intro _ _ _ net' hne
      rw [hnet] at hne
      exact h.rxAt_none hne _
    | _ => trivial
  have hpop : (pop w.a t).txOut t = qs := by
    have hself : (pop w.a t).txOut t = (w.a.txOut t).tail := Function.update_self _ _ _
    rw [hself, hout, List.tail_cons]
  have hother : ∀ t', t' ≠ t → (pop w.a t).txOut t' = w.a.txOut t' :=
    fun t' ht => Function.update_of_ne ht _ _
  have hpermits : ∀ {name}, Permits wildcard b p.net p.hostA name →
      Permits wildcard w.b p.net p.hostA name := permits_of_netBase (hkeep.base _)
  set w' : Pair := { w with a := pop w.a t, b := b } with hw'
  have husable : ∀ t', w'.Usable p t' → w.Usable p t' := by
    intro t' ht u hu
    obtain ⟨hopen, hname⟩ := ht u hu
    obtain ⟨-, hname', hopen'⟩ := hkeep.sock u
    exact ⟨hopen' hopen, hname'.symm.trans hname⟩
  -- B has read the packet on this connection, and the others are as before
  have hknown : w'.Usable p t → ∀ kind name, Permits wildcard b p.net p.hostA name →
      w'.known t kind name = toldBy kind name (w.known t kind name) q := by
    intro hus kind name hp
    obtain ⟨hopen, hname⟩ := hus s hlink
    have hhost : (w.b.rx s).name = p.hostA := (hkeep.sock s).2.1.symm.trans hname
    have hknown' : w'.known t kind name = registers b s kind name := by
      rw [Pair.known, hw', hlink]
    rw [hknown', Pair.known, hlink]
    refine registers_rxCallback parsed created q kind ?_ hopen
    rw [hnet, hhost]
    exact hpermits hp
  have hknown' : ∀ t', t' ≠ t → ∀ kind name, w'.known t' kind name = w.known t' kind name := by
    intro t' ht kind name
    rw [Pair.known, Pair.known]
    show (match w.link t' with | some u => registers b u kind name | none => false) = _
    cases hu : w.link t' with
    | none => rfl
    | some u =>
      have hne : u ≠ s := by
        rintro rfl
        exact ht (h.inj t' t u hu hlink)
      exact registers_of_eq (hkeep.reg u hne) kind name
  refine ⟨h.registry.congr ⟨rfl, rfl, rfl, rfl, le_rfl⟩, h.txNames, h.mirrored.rxCallback hclash,
    live_rxCallback h.mirrored h.live hclash, fun net => (hkeep.base net).trans (h.base net),
    fun t' u hu => ?_, h.inj, fun t' ht' => ?_, fun t' hready hname hus kind name hp => ?_,
    fun kind hmem hp => h.named kind hmem (hpermits hp)⟩
  · obtain ⟨ht, hlt, hnet'⟩ := h.link t' u hu
    exact ⟨ht, hlt.trans_le hkeep.next, (hkeep.sock u).1.trans hnet'⟩
  · obtain ⟨hset, hfalse⟩ := h.new t' ht'
    by_cases htt : t' = t
    · subst htt
      rw [hout] at hset
      refine ⟨fun q' hq' => ?_, fun hus kind name hp => ?_⟩
      · rw [show w'.a.txOut t' = qs from hpop] at hq'
        exact hset q' (List.mem_cons_of_mem _ hq')
      · rw [hknown hus kind name hp, hfalse (husable t' hus) kind name (hpermits hp)]
        have hq := hset q (List.mem_cons_self ..)
        cases q with
        | set kind' name' enabled => cases hq
        | _ => rfl
    · refine ⟨fun q' hq' => ?_, fun hus kind name hp => ?_⟩
      · rw [show w'.a.txOut t' = w.a.txOut t' from hother t' htt] at hq'
        exact hset q' hq'
      · rw [hknown' t' htt]
        exact hfalse (husable t' hus) kind name (hpermits hp)
  · have hbefore := h.told t' hready hname (husable t' hus) kind name (hpermits hp)
    by_cases htt : t' = t
    · subst htt
      rw [show w'.a.txOut t' = qs from hpop, hknown hus kind name hp, ← told_cons, ← hout]
      exact hbefore
    · rw [show w'.a.txOut t' = w.a.txOut t' from hother t' htt, hknown' t' htt]
      exact hbefore

/-- B accepts a connection of A. -/
lemma accepted (h : InStep wildcard p w) {t : SockId} (ht : t < w.a.next) (hnone : w.link t = none)
    {n : Network} (id : Id) :
    InStep wildcard p { w with
      b := networkAccept w.b p.net n p.address id
      link := if (networkAccept w.b p.net n p.address id).next = w.b.next then w.link
        else Function.update w.link t (some w.b.next) } := by
  have hm := h.mirrored.networkAccept p.net n p.address id
  have hlive := live_networkAccept h.mirrored h.live p.net n p.address id
  rcases networkAccept_cases w.b p.net n p.address id with
    heq | ⟨sock, hnet, hreg, hrx, hnets, hnext⟩
  · rw [heq, if_pos rfl]
    exact h
  · set b := networkAccept w.b p.net n p.address id with hb
    rw [if_neg (by rw [hnext]; exact Nat.succ_ne_self _)]
    set w' : Pair := { w with b := b, link := Function.update w.link t (some w.b.next) } with hw'
    have hself : w'.link t = some w.b.next := Function.update_self _ _ _
    have hother : ∀ t', t' ≠ t → w'.link t' = w.link t' := fun t' ht => Function.update_of_ne ht _ _
    have hold : ∀ u, u < w.b.next → b.rx u = w.b.rx u := by
      intro u hu
      rw [hrx, Function.update_of_ne (Nat.ne_of_lt hu)]
    have hbase : ∀ net, netBase b net = netBase w.b net := netBase_of_networks hnets
    have hpermits : ∀ {name}, Permits wildcard b p.net p.hostA name →
        Permits wildcard w.b p.net p.hostA name := permits_of_netBase (hbase _)
    -- the new connection has registered nothing, and there was none before
    have hknown : ∀ t' kind name, w'.known t' kind name = w.known t' kind name := by
      intro t' kind name
      rw [Pair.known, Pair.known]
      by_cases htt : t' = t
      · rw [htt, hself, hnone]
        show registers b w.b.next kind name = false
        rw [registers, hrx, Function.update_self, hreg]
        simp
      · rw [hother t' htt]
        cases hu : w.link t' with
        | none => rfl
        | some u =>
          have hu' : w'.b.rx u = w.b.rx u := hold u (h.link t' u hu).2.1
          exact registers_of_eq (by rw [hu']) kind name
    have husable : ∀ t', w'.Usable p t' → w.Usable p t' := by
      intro t' hus u hu
      have htt : t' ≠ t := by
        rintro rfl
        rw [hnone] at hu
        cases hu
      have hopen := hus u ((hother t' htt).trans hu)
      rwa [show w'.b.rx u = w.b.rx u from hold u (h.link t' u hu).2.1] at hopen
    refine ⟨h.registry, h.txNames, hm, hlive, fun net => (hbase net).trans (h.base net),
      fun t' u hu => ?_, fun t1 t2 u h1 h2 => ?_, fun t' ht' => ⟨(h.new t' ht').1,
        fun hus kind name hp => ?_⟩, fun t' hready hname hus kind name hp => ?_,
      fun kind hmem hp => h.named kind hmem (hpermits hp)⟩
    · have hlast : w.b.next < b.next := by
        rw [hnext]
        exact Nat.lt_succ_self _
      by_cases htt : t' = t
      · rw [htt, hself, Option.some.injEq] at hu
        rw [htt, ← hu]
        refine ⟨ht, hlast, ?_⟩
        show (b.rx w.b.next).network = p.net
        rw [hrx, Function.update_self, hnet]
      · rw [hother t' htt] at hu
        obtain ⟨hlt, hlt', hnet'⟩ := h.link t' u hu
        refine ⟨hlt, hlt'.trans hlast, ?_⟩
        rw [show w'.b.rx u = w.b.rx u from hold u hlt']
        exact hnet'
    · by_cases ht1 : t1 = t
      · by_cases ht2 : t2 = t
        · rw [ht1, ht2]
        · rw [ht1, hself, Option.some.injEq] at h1
          rw [hother t2 ht2, ← h1] at h2
          exact absurd (h.link t2 _ h2).2.1 (lt_irrefl _)
      · by_cases ht2 : t2 = t
        · rw [ht2, hself, Option.some.injEq] at h2
          rw [hother t1 ht1, ← h2] at h1
          exact absurd (h.link t1 _ h1).2.1 (lt_irrefl _)
        · rw [hother t1 ht1] at h1
          rw [hother t2 ht2] at h2
          exact h.inj t1 t2 u h1 h2
    · rw [hknown]
      exact (h.new t' ht').2 (husable t' hus) kind name (hpermits hp)
    · rw [hknown]
      exact h.told t' hready hname (husable t' hus) kind name (hpermits hp)

end InStep

/-! ## Every step -/

section Names

variable (wildcard : String → String → Bool → Bool) (d : Daemon)

lemma clientDisconnect_names (id : Client) : (clientDisconnect d id).names = d.names := by
  rw [clientDisconnect]
  split
  · rfl
  · rename_i cl _
    have hloops := (foldl_clientDropHandle_dropped (cl.handles .publish).entries d id
      .publish).trans (foldl_clientDropHandle_dropped (cl.handles .subscribe).entries _ id .subscribe)
    exact hloops.names

lemma mem_clientPubsubName_names (kind : Kind) (id : Client) (name : Name) {kind' : Kind}
    {name' : Name} (h : name' ∈ (clientPubsubName kind id d name).names kind') :
    name' ∈ d.names kind' ∨ name' = name := by
  rw [clientPubsubName] at h
  split at h
  · exact Or.inl h
  · split at h
    · exact Or.inl h
    · have hadd : name' ∈ (pubsubAdd d kind name id).names kind' := by
        cases kind
        · exact h
        · exact h
      exact ((mem_pubsubAdd_names d kind name id kind' name').mp hadd).imp_right fun heq => heq.2

/-- A key comes into the tables when a client registers the name. -/
lemma mem_step_names {e : Event} (he : e.isLocal = true ∨ e.isSend = true) {kind : Kind}
    {name : Name} (h : name ∈ (step wildcard d e).names kind) :
    name ∈ d.names kind ∨
      ∃ kind' id names, e = .pubsub kind' id (some names) ∧ name ∈ names := by
  cases e with
  | connect acl => exact Or.inl h
  | disconnect id =>
    left
    have hnames : name ∈ (clientDisconnect d id).names kind := h
    rwa [clientDisconnect_names] at hnames
  | pubsub kind' id names =>
    unfold step clientPubsub at h
    dsimp only at h
    split at h
    · rename_i cl names _
      split at h
      · refine Or.imp_right (fun hmem => ⟨kind', id, names, rfl, hmem⟩) ?_
        refine List.foldlRecOn names (clientPubsubName kind' id) (motive := fun d' : Daemon =>
          name ∈ d'.names kind → name ∈ d.names kind ∨ name ∈ names) Or.inl ?_ h
        intro d' hd' name' hname' hmem
        rcases mem_clientPubsubName_names d' kind' id name' hmem with hmem | rfl
        · exact hd' hmem
        · exact Or.inr hname'
      · exact Or.inl h
    · exact Or.inl h
  | aclSet data => exact Or.inl h
  | message id data host =>
    rw [(step_core wildcard d (e := .message id data host) rfl).names] at h
    exact Or.inl h
  | request id data host =>
    rw [(step_core wildcard d (e := .request id data host) rfl).names] at h
    exact Or.inl h
  | ubusRequest data host =>
    rw [(step_core wildcard d (e := .ubusRequest data host) rfl).names] at h
    exact Or.inl h
  | _ => rcases he with he | he <;> cases he

end Names

lemma updateNetwork_init (net : Net) (info : Info) :
    let d := updateNetwork Daemon.init net info true
    Quiet Daemon.init d ∧ RxSame Daemon.init d ∧ TxFrame Daemon.init d ∧
      d.tx = Daemon.init.tx ∧ d.txOut = Daemon.init.txOut := by
  unfold updateNetwork
  dsimp only
  split
  · exact ⟨Quiet.refl _, RxSame.refl _, TxFrame.refl _, rfl, rfl⟩
  · have hnew : (Daemon.init.networks.lookup net).isSome = false := rfl
    rw [hnew, if_neg Bool.false_ne_true]
    exact ⟨Quiet.netFrame.network_open _ _ _ _ _, networkOpen_same _ rfl _ _ _, TxFrame.netFrame.network_open _ _ _ _ _,
      rfl, rfl⟩

namespace InStep

variable {wildcard : String → String → Bool → Bool} {p : Ends} {w : Pair}

lemma start : InStep wildcard p (Pair.start p) := by
  obtain ⟨hquiet, -, hframe, htx, hout⟩ := updateNetwork_init p.net p.infoA
  obtain ⟨-, hsame, -, -, -⟩ := updateNetwork_init p.net p.infoB
  refine ⟨Registry.init.congr hquiet.toCoreSame, TxNames.frame (fun _ _ _ h => by cases h) hframe,
    Mirrored.init.congr hsame, live_same (fun _ _ _ h => by cases h) hsame, fun _ => rfl,
    fun t s h => ?_, fun t t' s h => ?_, fun t _ => ⟨fun q hq => ?_, fun _ _ _ _ => rfl⟩,
    fun t hready => ?_, fun kind hmem => ?_⟩
  · cases h
  · cases h
  · rw [show (Pair.start p).a.txOut = Daemon.init.txOut from hout] at hq
    cases hq
  · have hauth := ((txReady_iff _ _).mp hready).1
    rw [show (Pair.start p).a.tx = Daemon.init.tx from htx] at hauth
    cases hauth
  · rw [show (Pair.start p).a.names = Daemon.init.names from hquiet.names] at hmem
    cases hmem

lemma step (h : InStep wildcard p w) {act : Act} (hact : Settled wildcard p w act) :
    InStep wildcard p (w.step wildcard p act) := by
  cases act with
  | client e =>
    rw [Pair.step]
    split
    · rename_i he
      rw [Bool.or_eq_true] at he
      refine h.tracks (step_tracks w.a wildcard he) (h.registry.step e) fun kind hmem hp => ?_
      rcases mem_step_names wildcard w.a he hmem with hmem | ⟨kind', id, names, rfl, hnew⟩
      · exact h.named kind hmem hp
      · exact hact hnew hp
    · exact h
  | timer created =>
    exact h.reopened (Reopened.netFrame.connect_peers w.a p.net created)
      (Quiet.netFrame.connect_peers w.a p.net created).toCoreSame
      (TxFrame.netFrame.connect_peers w.a p.net created)
  | tx t msg =>
    have hcore := (Quiet.upFrame.tx_callback w.a t msg).toCoreSame
    rcases txCallback_cases w.a t msg with hre | ⟨hauth, q, hq, heq⟩ | ⟨data, rfl, hopen, hvalid, hup⟩
    · exact h.reopened hre hcore (TxFrame.upFrame.tx_callback w.a t msg)
    · rw [Pair.step, heq]
      exact h.pushed hauth hq
    · refine h.cameUp hup hcore fun hname => hact hopen hname ?_
      rw [← hname]
      exact hvalid
  | accept t id =>
    rw [Pair.step]
    split
    · rename_i hguard
      obtain ⟨ht, -, hnone⟩ := hguard
      rw [Unetmsg.step]
      split
      · exact h.accepted ht hnone id
      · dsimp only
        rw [if_pos rfl]
        exact h
    · exact h
  | deliver t parsed created =>
    rw [Pair.step]
    split
    · rename_i q qs s hout hlink
      exact h.delivered hout hlink parsed created
    · exact h
  | closed s =>
    obtain ⟨hkeep, hreg⟩ := OthersKeep.of_close (d := w.b) s s
    exact h.stepB hkeep (hreg s) (h.mirrored.rxSocketClose s) (live_rxSocketClose h.mirrored h.live s)
  | timeout s =>
    rw [Pair.step, Unetmsg.step]
    split
    · exact h
    · rename_i hauth
      have hself : ((closeRx w.b s).rx s).registered = (w.b.rx s).registered := by
        rw [show (closeRx w.b s).rx s = { w.b.rx s with isOpen := false } from
          Function.update_self _ _ _]
      exact h.stepB (OthersKeep.of_update rfl rfl rfl (fun hopen => by cases hopen) le_rfl
        fun _ => rfl) hself (h.mirrored.closeRx s)
        (live_closeRx h.mirrored h.live (by simpa using hauth))

end InStep

theorem registrations_agree (wildcard : String → String → Bool → Bool) (p : Ends) (acts : List Act)
    (hacts : Runs.AllSteps (Pair.step wildcard p) (Settled wildcard p) (Pair.start p) acts) :
    Agree wildcard p (Runs.run (Pair.step wildcard p) (Pair.start p) acts) :=
  (hacts.invariant InStep.start fun _ _ h hact => h.step hact).agree

/-- Two hosts that know each other, and B lets everything of A pass. -/
def sampleEnds : Ends where
  net := "lan"
  infoA := ⟨"a", "fd00::1", AList.singleton "b" ⟨"fd00::2", none⟩, []⟩
  infoB := ⟨"b", "fd00::2", AList.singleton "a" ⟨"fd00::1", none⟩, []⟩
  address := "fd00::1"

/-- A opens its connection `t` to B, and both ends authenticate it. -/
def comesUp (t : SockId) (id : Id) : List Act :=
  [.timer (fun _ => true), .accept t id, .tx t (.hello (some id) true),
    .deliver t (some ⟨"a", "root", some id⟩) true, .tx t (.reply (some ⟨"b", "root", none⟩))]

/-- A client of A subscribes to a name, and the channel comes up. -/
def sampleUp : List Act :=
  [.client (.connect ⟨"root", none⟩), .client (.pubsub .subscribe 0 (some ["x"]))] ++
    comesUp 2 7 ++ [.deliver 2 none true]

theorem registrations_agree_up :
    let w := Runs.run (Pair.step sameName sampleEnds) (Pair.start sampleEnds) sampleUp
    (w.b.remote .subscribe "x").lookup "a" = some "lan" ∧ Agree sameName sampleEnds w := by
  refine ⟨by decide, registrations_agree sameName sampleEnds sampleUp ?_⟩
  refine ⟨trivial, ?_, trivial, trivial, trivial, trivial, ?_, trivial, trivial⟩
  · exact fun h => absurd h (by decide)
  · intro _ _ _ kind name hname _
    cases kind with
    | publish => cases hname
    | subscribe =>
      rw [List.mem_singleton.mp hname]
      decide

/-- The client is gone before the channel comes up. -/
def sampleStale : List Act :=
  [.client (.connect ⟨"root", none⟩), .client (.pubsub .subscribe 0 (some ["x"])),
    .client (.disconnect 0)] ++ comesUp 2 7 ++ [.deliver 2 none true]

theorem sampleStale_disagree :
    ¬ Agree sameName sampleEnds
      (Runs.run (Pair.step sameName sampleEnds) (Pair.start sampleEnds) sampleStale) := by
  intro h
  have hiff := h 2 0 (by decide) (by decide) (by decide) (by decide) (by decide) (by decide)
    .subscribe "x" ⟨_, ⟨"fd00::1", none⟩, rfl, rfl, rfl⟩
  obtain ⟨c, cl, hcl, -⟩ := hiff.mp (by decide)
  have hnone : ∀ c, (Runs.run (Pair.step sameName sampleEnds) (Pair.start sampleEnds)
      sampleStale).a.clients c = none := by
    intro c
    show Function.update (Function.update (Function.update Daemon.init.clients 0 _) 0 _) 0 none c =
      none
    by_cases hc : c = 0
    · rw [hc, Function.update_self]
    · rw [Function.update_of_ne hc, Function.update_of_ne hc, Function.update_of_ne hc]
      rfl
  rw [hnone c] at hcl
  cases hcl

end Unetmsg
