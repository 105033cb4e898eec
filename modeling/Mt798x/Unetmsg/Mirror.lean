import Mt798x.Unetmsg.Channels

/-!
# Remote tables and live channels

A registration of a peer is kept twice: in the list of the connection it came in on, and in the
table of its name, under the name of the host.  The connections are kept by network and host, the
table by host alone, and everything under a host is dropped when one of its connections goes.  As
long as a host has a connection on one network at a time, the two agree in every state of every
run.
-/

namespace Unetmsg

/-! ## The invariant -/

/-- The table of a name has a host with a network when the current connection of the host on that
network has registered the name. -/
def Mirror (d : Daemon) : Prop :=
  ∀ kind name host net, (d.remote kind name).lookup host = some net ↔
    ∃ s, rxAt d net host = some s ∧ (d.rx s).auth = true ∧ name ∈ (d.rx s).registered kind

/-- What keeps the tables and the channels in step. -/
structure Mirrored (d : Daemon) : Prop where
  own : ∀ net host s, rxAt d net host = some s →
    (d.rx s).network = net ∧ (d.rx s).name = host ∧ (d.rx s).auth = true
  current : ∀ s, (d.rx s).isOpen = true → (d.rx s).auth = true →
    rxAt d (d.rx s).network (d.rx s).name = some s
  single : ∀ host net net' s s', rxAt d net host = some s → rxAt d net' host = some s' →
    net = net'
  unused : ∀ s, (d.rx s).auth = false → ∀ kind, (d.rx s).registered kind = []
  fresh : ∀ s, d.next ≤ s → (d.rx s).auth = false ∧ (d.rx s).isOpen = false
  mirror : ∀ kind name host net, (d.remote kind name).lookup host = some net ↔
    ∃ s, rxAt d net host = some s ∧ name ∈ (d.rx s).registered kind

/-- When a connection from a host is authenticated, no other network has one from a host of the
same name. -/
def NoClash (d : Daemon) : Event → Prop
  | .rx s (.auth data _ _) =>
    (d.rx s).isOpen = true → (d.rx s).auth = false →
      networkAuthValid (d.rx s).name (d.rx s).id data = true →
        ∀ net, net ≠ (d.rx s).network → rxAt d net (d.rx s).name = none
  | _ => True

namespace Mirrored

variable {d d' : Daemon}

lemma toMirror (h : Mirrored d) : Mirror d := by
  intro kind name host net
  rw [h.mirror]
  constructor
  · rintro ⟨s, hs, hname⟩
    exact ⟨s, hs, (h.own net host s hs).2.2, hname⟩
  · rintro ⟨s, hs, -, hname⟩
    exact ⟨s, hs, hname⟩

lemma init : Mirrored Daemon.init where
  own := fun _ _ _ h => by cases h
  current := fun _ h => by cases h
  single := fun _ _ _ _ _ h => by cases h
  unused := fun _ _ _ => rfl
  fresh := fun _ _ => ⟨rfl, rfl⟩
  mirror := by
    intro kind name host net
    constructor
    · intro h
      cases h
    · rintro ⟨s, hs, -⟩
      cases hs

lemma congr (h : Mirrored d) (hsame : RxSame d d') : Mirrored d' where
  own := by
    intro net host s hs
    rw [hsame.rx]
    rw [hsame.rxAt] at hs
    exact h.own net host s hs
  current := by
    intro s
    rw [hsame.rx, hsame.rxAt]
    exact h.current s
  single := by
    intro host net net' s s' hs hs'
    rw [hsame.rxAt] at hs hs'
    exact h.single host net net' s s' hs hs'
  unused := by
    rw [hsame.rx]
    exact h.unused
  fresh := by
    intro s hs
    rw [hsame.rx]
    exact h.fresh s (hsame.next.trans hs)
  mirror := by
    intro kind name host net
    rw [hsame.remote, hsame.rx, hsame.rxAt]
    exact h.mirror kind name host net

/-- A connection changes in what the tables do not depend on. -/
lemma setRx (h : Mirrored d) {s : SockId} {sock : RxSock} (hnet : sock.network = (d.rx s).network)
    (hname : sock.name = (d.rx s).name) (hauth : sock.auth = (d.rx s).auth)
    (hreg : sock.registered = (d.rx s).registered)
    (hopen : sock.isOpen = true → (d.rx s).isOpen = true) : Mirrored (setRx d s sock) := by
  have hsock : ∀ t, ((Unetmsg.setRx d s sock).rx t).network = (d.rx t).network ∧
      ((Unetmsg.setRx d s sock).rx t).name = (d.rx t).name ∧
      ((Unetmsg.setRx d s sock).rx t).auth = (d.rx t).auth ∧
      ((Unetmsg.setRx d s sock).rx t).registered = (d.rx t).registered ∧
      (((Unetmsg.setRx d s sock).rx t).isOpen = true → (d.rx t).isOpen = true) := by
    intro t
    by_cases ht : t = s
    · have hself : (Unetmsg.setRx d s sock).rx t = sock := by
        rw [Unetmsg.setRx, ht]
        exact Function.update_self _ _ _
      rw [hself, ht]
      exact ⟨hnet, hname, hauth, hreg, hopen⟩
    · have hother : (Unetmsg.setRx d s sock).rx t = d.rx t := Function.update_of_ne ht _ _
      rw [hother]
      exact ⟨rfl, rfl, rfl, rfl, id⟩
  refine ⟨?_, ?_, h.single, ?_, ?_, ?_⟩
  · intro net host t ht
    obtain ⟨e1, e2, e3, -, -⟩ := hsock t
    rw [e1, e2, e3]
    exact h.own net host t ht
  · intro t ht ha
    obtain ⟨e1, e2, e3, -, e5⟩ := hsock t
    rw [e3] at ha
    rw [e1, e2]
    exact h.current t (e5 ht) ha
  · intro t ht
    obtain ⟨-, -, e3, e4, -⟩ := hsock t
    rw [e3] at ht
    rw [e4]
    exact h.unused t ht
  · intro t ht
    obtain ⟨-, -, e3, -, e5⟩ := hsock t
    obtain ⟨ha, ho⟩ := h.fresh t ht
    rw [e3]
    refine ⟨ha, Bool.eq_false_iff.mpr fun ht' => ?_⟩
    rw [e5 ht'] at ho
    cases ho
  · intro kind name host net
    have hreg' : ∀ t, ((Unetmsg.setRx d s sock).rx t).registered = (d.rx t).registered :=
      fun t => (hsock t).2.2.2.1
    simp only [hreg']
    exact h.mirror kind name host net

lemma closeRx (h : Mirrored d) (s : SockId) : Mirrored (closeRx d s) :=
  h.setRx rfl rfl rfl rfl fun hopen => by cases hopen

/-- The current connection of a host, which has been closed, is taken from its network, and
everything under the name of the host is dropped. -/
lemma drop {s : SockId} (h : Mirrored d) (hcur : rxAt d (d.rx s).network (d.rx s).name = some s)
    (hclosed : (d.rx s).isOpen = false) (hrx : d'.rx = d.rx) (hnext : d.next ≤ d'.next)
    (hremote : ∀ kind name, d'.remote kind name = (d.remote kind name).erase (d.rx s).name)
    (hat : ∀ net host, rxAt d' net host =
      if net = (d.rx s).network ∧ host = (d.rx s).name then none else rxAt d net host) :
    Mirrored d' := by
  -- Another connection of the same host would be on another network.
  have hback : ∀ net host t, rxAt d' net host = some t →
      rxAt d net host = some t ∧ host ≠ (d.rx s).name := by
    intro net host t ht
    rw [hat] at ht
    split at ht
    · cases ht
    · rename_i hne
      refine ⟨ht, fun hhost => hne ⟨?_, hhost⟩⟩
      rw [hhost] at ht
      exact h.single _ _ _ _ _ ht hcur
  refine ⟨?_, ?_, ?_, ?_, ?_, ?_⟩
  · intro net host t ht
    rw [hrx]
    exact h.own net host t (hback net host t ht).1
  · intro t ht hauth
    rw [hrx] at ht hauth ⊢
    have htcur := h.current t ht hauth
    rw [hat, if_neg]
    · exact htcur
    · rintro ⟨hn, hh⟩
      rw [hn, hh, hcur, Option.some.injEq] at htcur
      rw [htcur, ht] at hclosed
      cases hclosed
  · intro host net net' t t' ht ht'
    exact h.single host net net' t t' (hback _ _ _ ht).1 (hback _ _ _ ht').1
  · rw [hrx]
    exact h.unused
  · intro t ht
    rw [hrx]
    exact h.fresh t (hnext.trans ht)
  · intro kind name host net
    rw [hremote, lookup_erase_ite, hrx]
    constructor
    · intro hl
      split at hl
      · cases hl
      · rename_i hhost
        obtain ⟨t, ht, hname⟩ := (h.mirror kind name host net).mp hl
        refine ⟨t, ?_, hname⟩
        rw [hat, if_neg (fun hc => hhost hc.2)]
        exact ht
    · rintro ⟨t, ht, hname⟩
      obtain ⟨ht', hhost⟩ := hback net host t ht
      rw [if_neg hhost]
      exact (h.mirror kind name host net).mpr ⟨t, ht', hname⟩

lemma rxSocketClose (h : Mirrored d) (s : SockId) : Mirrored (rxSocketClose d s) := by
  by_cases hcur : rxAt d (d.rx s).network (d.rx s).name = some s
  · have hself : (Unetmsg.closeRx d s).rx s = { d.rx s with isOpen := false } :=
      Function.update_self _ _ _
    obtain ⟨hremote, hat⟩ := rxSocketClose_current hcur
    refine (h.closeRx s).drop (s := s) ?_ ?_ ?_ (rxSocketClose_next d s) ?_ ?_
    · rw [hself]
      exact hcur
    · rw [hself]
    · exact rxSocketClose_rx d s
    · rw [hself]
      exact hremote
    · rw [hself]
      exact hat
  · rw [rxSocketClose_other hcur]
    exact h.closeRx s

lemma networkRxSocketClose (h : Mirrored d) (data : Option SockId) :
    Mirrored (networkRxSocketClose d data) := by
  cases data
  · exact h
  · exact h.rxSocketClose _

lemma rxAt_rxSocketClose (h : Mirrored d) {s t : SockId} {net : Net} {host : Host}
    (ht : rxAt (Unetmsg.rxSocketClose d s) net host = some t) :
    rxAt d net host = some t ∧ t ≠ s := by
  by_cases hcur : rxAt d (d.rx s).network (d.rx s).name = some s
  · rw [(rxSocketClose_current hcur).2] at ht
    split at ht
    · cases ht
    · rename_i hne
      refine ⟨ht, ?_⟩
      rintro rfl
      obtain ⟨hn, hh, -⟩ := h.own net host t ht
      exact hne ⟨hn.symm, hh.symm⟩
  · rw [rxSocketClose_other hcur] at ht
    refine ⟨ht, ?_⟩
    rintro rfl
    obtain ⟨hn, hh, -⟩ := h.own net host t ht
    rw [← hn, ← hh] at ht
    exact hcur ht

lemma foldl_rxSocketClose (h : Mirrored d) (l : List (Sigma fun _ : Host => SockId)) :
    Mirrored (l.foldl (fun d cur => Unetmsg.rxSocketClose d cur.2) d) ∧
      ∀ net host t, rxAt (l.foldl (fun d cur => Unetmsg.rxSocketClose d cur.2) d) net host = some t →
        rxAt d net host = some t ∧ ∀ cur ∈ l, t ≠ cur.2 := by
  induction l generalizing d with
  | nil => exact ⟨h, fun net host t ht => ⟨ht, by simp⟩⟩
  | cons cur l ih =>
    obtain ⟨hm, hat⟩ := ih (h.rxSocketClose cur.2)
    refine ⟨hm, fun net host t ht => ?_⟩
    obtain ⟨ht', hl⟩ := hat net host t ht
    obtain ⟨ht'', hne⟩ := h.rxAt_rxSocketClose ht'
    refine ⟨ht'', fun c hc => ?_⟩
    rcases List.mem_cons.mp hc with rfl | hc
    · exact hne
    · exact hl c hc

/-- A connection that was not authenticated becomes the current one of its host, and everything
under the name of the host is dropped.  No network has a connection from the host then. -/
lemma authenticate {s : SockId} (h : Mirrored d) (hauth : (d.rx s).auth = false)
    (hopen : (d.rx s).isOpen = true) (hnone : ∀ net, rxAt d net (d.rx s).name = none)
    (hrx : d'.rx = Function.update d.rx s { d.rx s with auth := true }) (hnext : d.next ≤ d'.next)
    (hremote : ∀ kind name, d'.remote kind name = (d.remote kind name).erase (d.rx s).name)
    (hat : ∀ net host, rxAt d' net host =
      if net = (d.rx s).network ∧ host = (d.rx s).name then some s else rxAt d net host) :
    Mirrored d' := by
  have hself : d'.rx s = { d.rx s with auth := true } := by
    rw [hrx, Function.update_self]
  have hother : ∀ t, t ≠ s → d'.rx t = d.rx t := fun t ht => by
    rw [hrx, Function.update_of_ne ht]
  have hne : ∀ net host t, rxAt d net host = some t → t ≠ s := by
    rintro net host t ht rfl
    rw [(h.own net host t ht).2.2] at hauth
    cases hauth
  have hback : ∀ net host t, rxAt d' net host = some t →
      (net = (d.rx s).network ∧ host = (d.rx s).name ∧ t = s) ∨
        (host ≠ (d.rx s).name ∧ t ≠ s ∧ rxAt d net host = some t) := by
    intro net host t ht
    rw [hat] at ht
    split at ht
    · rename_i heq
      cases ht
      exact Or.inl ⟨heq.1, heq.2, rfl⟩
    · refine Or.inr ⟨?_, hne net host t ht, ht⟩
      rintro rfl
      rw [hnone] at ht
      cases ht
  refine ⟨?_, ?_, ?_, ?_, ?_, ?_⟩
  · intro net host t ht
    rcases hback net host t ht with ⟨rfl, rfl, rfl⟩ | ⟨-, hts, ht⟩
    · rw [hself]
      exact ⟨rfl, rfl, rfl⟩
    · rw [hother t hts]
      exact h.own net host t ht
  · intro t ht ha
    by_cases hts : t = s
    · rw [hts, hself, hat, if_pos ⟨rfl, rfl⟩]
    · rw [hother t hts] at ht ha ⊢
      have htcur := h.current t ht ha
      rw [hat, if_neg]
      · exact htcur
      · rintro ⟨-, hh⟩
        rw [hh, hnone] at htcur
        cases htcur
  · intro host net net' t t' ht ht'
    rcases hback net host t ht with ⟨hn, hh, -⟩ | ⟨hh, -, ht⟩
    · rcases hback net' host t' ht' with ⟨hn', -, -⟩ | ⟨hh', -, -⟩
      · rw [hn, hn']
      · exact absurd hh hh'
    · rcases hback net' host t' ht' with ⟨-, hh', -⟩ | ⟨-, -, ht'⟩
      · exact absurd hh' hh
      · exact h.single host net net' t t' ht ht'
  · intro t ht
    by_cases hts : t = s
    · rw [hts, hself] at ht
      cases ht
    · rw [hother t hts] at ht ⊢
      exact h.unused t ht
  · intro t ht
    have hts : t ≠ s := by
      rintro rfl
      rw [(h.fresh t (hnext.trans ht)).2] at hopen
      cases hopen
    rw [hother t hts]
    exact h.fresh t (hnext.trans ht)
  · intro kind name host net
    rw [hremote, lookup_erase_ite]
    constructor
    · intro hl
      split at hl
      · cases hl
      · rename_i hhost
        obtain ⟨t, ht, hname⟩ := (h.mirror kind name host net).mp hl
        refine ⟨t, ?_, ?_⟩
        · rw [hat, if_neg (fun hc => hhost hc.2)]
          exact ht
        · rw [hother t (hne net host t ht)]
          exact hname
    · rintro ⟨t, ht, hname⟩
      rcases hback net host t ht with ⟨-, -, rfl⟩ | ⟨hhost, hts, ht⟩
      · -- a new connection has registered nothing
        rw [hself] at hname
        dsimp only at hname
        rw [h.unused t hauth kind] at hname
        cases hname
      · rw [hother t hts] at hname
        rw [if_neg hhost]
        exact (h.mirror kind name host net).mpr ⟨t, ht, hname⟩

/-- A connection is authenticated while no other network has one from its host. -/
lemma networkCheckAuth (h : Mirrored d) {s : SockId} {data : Option TokenData}
    (hauth : (d.rx s).auth = false) (hopen : (d.rx s).isOpen = true)
    (hclash : networkAuthValid (d.rx s).name (d.rx s).id data = true →
      ∀ net, net ≠ (d.rx s).network → rxAt d net (d.rx s).name = none) :
    Mirrored (networkCheckAuth d s data) := by
  rcases networkCheckAuth_cases d s data with heq | ⟨hvalid, hin⟩
  · rw [heq]
    exact h
  · have hm := h.networkRxSocketClose (rxAt d (d.rx s).network (d.rx s).name)
    have hnone : ∀ net, rxAt (Unetmsg.networkRxSocketClose d
        (rxAt d (d.rx s).network (d.rx s).name)) net (d.rx s).name = none := by
      intro net
      cases hold : rxAt d (d.rx s).network (d.rx s).name with
      | none =>
        by_cases hnet : net = (d.rx s).network
        · rw [hnet]
          exact hold
        · exact hclash hvalid net hnet
      | some old =>
        rw [Option.eq_none_iff_forall_ne_some]
        intro t ht
        obtain ⟨ht', hne⟩ := h.rxAt_rxSocketClose ht
        by_cases hnet : net = (d.rx s).network
        · rw [hnet, hold, Option.some.injEq] at ht'
          exact hne ht'.symm
        · rw [hclash hvalid net hnet] at ht'
          cases ht'
    have hkeep : (Unetmsg.networkRxSocketClose d
        (rxAt d (d.rx s).network (d.rx s).name)).rx s = d.rx s := by
      cases hold : rxAt d (d.rx s).network (d.rx s).name with
      | none => rfl
      | some old =>
        have hne : s ≠ old := by
          rintro rfl
          rw [(h.own _ _ s hold).2.2] at hauth
          cases hauth
        show (Unetmsg.rxSocketClose d old).rx s = d.rx s
        rw [rxSocketClose_rx, Function.update_of_ne hne]
    refine hm.authenticate (s := s) ?_ ?_ ?_ hin.rx hin.next ?_ ?_
    · rw [hkeep]
      exact hauth
    · rw [hkeep]
      exact hopen
    · rw [hkeep]
      exact hnone
    · rw [hkeep]
      exact hin.remote
    · rw [hkeep]
      exact hin.rxAt

/-- The current connection of a host registers or gives up a name. -/
lemma register {s : SockId} {kind : Kind} {name : Name} {list : List Name} {entry : Option Net}
    (h : Mirrored d) (hcur : rxAt d (d.rx s).network (d.rx s).name = some s)
    (hlist : ∀ n, n ≠ name → (n ∈ list ↔ n ∈ (d.rx s).registered kind))
    (hentry : entry = if name ∈ list then some (d.rx s).network else none)
    (hrx : d'.rx = Function.update d.rx s
      { d.rx s with registered := Function.update (d.rx s).registered kind list })
    (hnext : d.next ≤ d'.next) (hat : ∀ net host, rxAt d' net host = rxAt d net host)
    (hremote : ∀ kind' name' host, (d'.remote kind' name').lookup host =
      if kind' = kind ∧ name' = name ∧ host = (d.rx s).name then entry
      else (d.remote kind' name').lookup host) : Mirrored d' := by
  have hauth : (d.rx s).auth = true := (h.own _ _ s hcur).2.2
  have hself : d'.rx s = { d.rx s with
      registered := Function.update (d.rx s).registered kind list } := by
    rw [hrx, Function.update_self]
  have hother : ∀ t, t ≠ s → d'.rx t = d.rx t := fun t ht => by
    rw [hrx, Function.update_of_ne ht]
  have hsock : ∀ t, (d'.rx t).network = (d.rx t).network ∧ (d'.rx t).name = (d.rx t).name ∧
      (d'.rx t).auth = (d.rx t).auth ∧ (d'.rx t).isOpen = (d.rx t).isOpen := by
    intro t
    by_cases ht : t = s
    · rw [ht, hself]
      exact ⟨rfl, rfl, rfl, rfl⟩
    · rw [hother t ht]
      exact ⟨rfl, rfl, rfl, rfl⟩
  -- what the connections have registered, but for the one name of the one connection
  have hreg : ∀ t kind' name', ¬ (t = s ∧ kind' = kind ∧ name' = name) →
      (name' ∈ (d'.rx t).registered kind' ↔ name' ∈ (d.rx t).registered kind') := by
    intro t kind' name' hne
    by_cases ht : t = s
    · rw [ht, hself]
      dsimp only
      by_cases hk : kind' = kind
      · rw [hk, Function.update_self]
        exact hlist name' fun hn => hne ⟨ht, hk, hn⟩
      · rw [Function.update_of_ne hk]
    · rw [hother t ht]
  refine ⟨?_, ?_, ?_, ?_, ?_, ?_⟩
  · intro net host t ht
    obtain ⟨e1, e2, e3, -⟩ := hsock t
    rw [hat] at ht
    rw [e1, e2, e3]
    exact h.own net host t ht
  · intro t ht ha
    obtain ⟨e1, e2, e3, e4⟩ := hsock t
    rw [e4] at ht
    rw [e3] at ha
    rw [e1, e2, hat]
    exact h.current t ht ha
  · intro host net net' t t' ht ht'
    rw [hat] at ht ht'
    exact h.single host net net' t t' ht ht'
  · intro t ht
    by_cases hts : t = s
    · rw [hts, (hsock s).2.2.1, hauth] at ht
      cases ht
    · rw [hother t hts] at ht ⊢
      exact h.unused t ht
  · intro t ht
    obtain ⟨-, -, e3, e4⟩ := hsock t
    rw [e3, e4]
    exact h.fresh t (hnext.trans ht)
  · intro kind' name' host net
    simp only [hremote, hat]
    by_cases heq : kind' = kind ∧ name' = name ∧ host = (d.rx s).name
    · obtain ⟨rfl, rfl, rfl⟩ := heq
      rw [if_pos ⟨rfl, rfl, rfl⟩, hentry]
      have hmem : name' ∈ (d'.rx s).registered kind' ↔ name' ∈ list := by
        rw [hself]
        dsimp only
        rw [Function.update_self]
      constructor
      · intro hl
        split at hl
        · rename_i hname
          cases hl
          exact ⟨s, hcur, hmem.mpr hname⟩
        · cases hl
      · rintro ⟨t, ht, hname⟩
        have hnet := h.single _ _ _ _ _ ht hcur
        rw [hnet, hcur, Option.some.injEq] at ht
        rw [← ht] at hname
        rw [if_pos (hmem.mp hname), hnet]
    · rw [if_neg heq, h.mirror kind' name' host net]
      refine exists_congr fun t => and_congr_right fun ht => (hreg t kind' name' ?_).symm
      rintro ⟨rfl, hk, hn⟩
      exact heq ⟨hk, hn, ((h.own net host t ht).2.1).symm⟩

end Mirrored

/-! ## Every step -/

namespace Mirrored

variable {wildcard : String → String → Bool → Bool} {d d' : Daemon}

lemma remoteSet (h : Mirrored d) {s : SockId}
    (hcur : rxAt d (d.rx s).network (d.rx s).name = some s) (n : Network) (kind : Kind)
    (name : Name) (enabled : Bool) : Mirrored (remoteSet wildcard d s n kind name enabled) := by
  rcases remoteSet_cases wildcard d s n kind name enabled with
    ⟨hsame, -⟩ | ⟨-, -, hreg⟩ | ⟨-, hreg⟩
  · exact h.congr hsame
  · refine h.register hcur ?_ ?_ hreg.rx hreg.next.ge ?_ hreg.remote
    · intro n hn
      simp [hn]
    · simp
    · intro net host
      rw [rxAt, hreg.networks, rxAt]
  · refine h.register hcur ?_ ?_ hreg.rx hreg.next.ge ?_ hreg.remote
    · intro n hn
      simp [hn]
    · simp
    · intro net host
      rw [rxAt, hreg.networks, rxAt]

lemma networkSocketHandleRequest (h : Mirrored d) {s : SockId}
    (hcur : rxAt d (d.rx s).network (d.rx s).name = some s) (msg : RxMsg) :
    Mirrored (networkSocketHandleRequest wildcard d s msg) := by
  unfold Unetmsg.networkSocketHandleRequest
  dsimp only
  split
  · exact h
  · split
    · split
      · exact h
      · exact h.remoteSet hcur _ _ _ _
    · exact h.congr (RxSame.callFrame.call d _ _ _ _ _ _)
    · exact h.congr (RxSame.callFrame.call d _ _ _ _ _ _)
    · exact h

lemma rxCallback (h : Mirrored d) {s : SockId} {msg : RxMsg} (hclash : NoClash d (.rx s msg)) :
    Mirrored (rxCallback wildcard d s msg) := by
  unfold Unetmsg.rxCallback
  split
  · rename_i hopen
    split
    · rename_i hauth
      exact h.networkSocketHandleRequest (h.current s hopen hauth) msg
    · rename_i hauth
      rw [Bool.not_eq_true] at hauth
      split
      · exact h.setRx rfl rfl rfl rfl id
      · have hm := h.networkCheckAuth hauth hopen (hclash hopen hauth)
        dsimp only
        split
        · split
          · exact hm.congr (RxSame.of_eq rfl rfl rfl le_rfl)
          · exact hm
        · exact hm.rxSocketClose s
      · exact h.rxSocketClose s
  · exact h

lemma networkAccept (h : Mirrored d) (net : Net) (n : Network) (address : String) (id : Id) :
    Mirrored (networkAccept d net n address id) := by
  unfold Unetmsg.networkAccept
  split
  · exact h
  · rename_i peer _
    obtain ⟨hauth, hopen⟩ := h.fresh d.next le_rfl
    have hne : ∀ net host t, rxAt d net host = some t → t ≠ d.next := by
      rintro net host t ht rfl
      rw [(h.own net host _ ht).2.2] at hauth
      cases hauth
    set d' : Daemon := { Unetmsg.setRx d d.next ⟨net, peer.1, some id, false, fun _ => [], true⟩ with
      rxOut := Function.update d.rxOut d.next [.hello id]
      next := d.next + 1 } with hd'
    have hself : d'.rx d.next = ⟨net, peer.1, some id, false, fun _ => [], true⟩ :=
      Function.update_self _ _ _
    have hother : ∀ t, t ≠ d.next → d'.rx t = d.rx t := fun t ht => Function.update_of_ne ht _ _
    refine ⟨?_, ?_, h.single, ?_, ?_, ?_⟩
    · intro net host t ht
      rw [hother t (hne net host t ht)]
      exact h.own net host t ht
    · intro t ht ha
      by_cases hts : t = d.next
      · rw [hts, hself] at ha
        cases ha
      · rw [hother t hts] at ht ha ⊢
        exact h.current t ht ha
    · intro t ht kind
      by_cases hts : t = d.next
      · rw [hts, hself]
      · rw [hother t hts] at ht ⊢
        exact h.unused t ht kind
    · intro t ht
      have ht' : d.next + 1 ≤ t := ht
      rw [hother t (by omega)]
      exact h.fresh t (by omega)
    · intro kind name host net
      refine (h.mirror kind name host net).trans (exists_congr fun t => and_congr_right fun ht => ?_)
      rw [hother t (hne net host t ht)]

lemma foldl_txSocketClose_same (l : List (Sigma fun _ : Host => SockId)) (d : Daemon) :
    RxSame d (l.foldl (fun d cur => txSocketClose d cur.2) d) :=
  RxSame.frame.foldl d (fun d cur => RxSame.upFrame.tx_close d cur.2) l

lemma networkClose (h : Mirrored d) (net : Net) :
    Mirrored (networkClose d net) ∧ (Unetmsg.networkClose d net).networks.lookup net = none := by
  unfold Unetmsg.networkClose
  split
  · rename_i hn
    exact ⟨h, hn⟩
  · rename_i n hn
    obtain ⟨hm, hat⟩ := h.foldl_rxSocketClose n.rxChannels.entries
    set d1 := n.rxChannels.entries.foldl (fun d cur => Unetmsg.rxSocketClose d cur.2) d
    have htx := foldl_txSocketClose_same n.txChannels.entries d1
    set d2 := n.txChannels.entries.foldl (fun d cur => txSocketClose d cur.2) d1
    -- every connection of the network has been closed
    have hnone : ∀ host, rxAt d2 net host = none := by
      intro host
      rw [htx.rxAt, Option.eq_none_iff_forall_ne_some]
      intro t ht
      obtain ⟨ht', hl⟩ := hat net host t ht
      rw [rxAt, hn, Option.bind_some] at ht'
      exact hl ⟨host, t⟩ (mem_entries_iff.mpr ht') rfl
    refine ⟨hm.congr (htx.trans ⟨rfl, rfl, fun net' host => ?_, le_rfl⟩), AList.lookup_erase _ _⟩
    show ((d2.networks.erase net).lookup net').bind _ = _
    rw [lookup_erase_ite]
    by_cases hnet : net' = net
    · rw [if_pos hnet, hnet, hnone]
      rfl
    · rw [if_neg hnet, rxAt]

lemma networkUpdate (h : Mirrored d) (net : Net) (info : Info) (peers : Obj Host Peer)
    (listening : Bool) : Mirrored (networkUpdate d net info peers listening) := by
  unfold Unetmsg.networkUpdate
  split
  · exact h
  · rename_i n hn
    split
    · obtain ⟨hm, hnone⟩ := h.networkClose net
      exact hm.congr (networkOpen_same _ hnone info peers listening)
    · dsimp only
      set d1 := List.foldl (fun d (cur : Sigma fun _ : Host => Peer) =>
        networkTxSocketClose (Unetmsg.networkRxSocketClose d (n.rxChannels.lookup cur.1))
          (n.txChannels.lookup cur.1)) d _ with hd1
      have hm : Mirrored d1 := by
        refine List.foldlRecOn _ _ (motive := Mirrored) h fun d hd cur _ => ?_
        exact (hd.networkRxSocketClose _).congr (RxSame.upFrame.network_tx_close _ _)
      split
      · rename_i n' hn'
        refine hm.congr (RxSame.setNetwork fun host => ?_)
        rw [rxAt, hn']
        rfl
      · exact hm

lemma unetdNetworkUpdate (h : Mirrored d) (networks : Obj Net Info) (listening : Net → Bool) :
    Mirrored (unetdNetworkUpdate d networks listening) := by
  unfold Unetmsg.unetdNetworkUpdate
  refine List.foldlRecOn _ _ (motive := Mirrored) ?_ fun d hd net _ => (hd.networkClose net).1
  refine List.foldlRecOn _ _ (motive := Mirrored) h fun d hd cur _ => ?_
  unfold updateNetwork
  split
  · exact hd
  · dsimp only
    split
    · exact hd.networkUpdate _ _ _ _
    · rename_i hnone
      exact hd.congr (networkOpen_same d (by simpa using hnone) _ _ _)

lemma networkConnectPeers (h : Mirrored d) (net : Net) (created : Host → Bool) :
    Mirrored (networkConnectPeers d net created) := by
  unfold Unetmsg.networkConnectPeers
  split
  · exact h
  · rename_i n hn
    have hm := h.congr (RxSame.frame.foldl d
      (fun d host => RxSame.upFrame.connect_peer d net created host) n.peers.keys)
    dsimp only
    split
    · exact hm
    · exact ((hm.congr (foldl_txSocketClose_same _ _)).foldl_rxSocketClose _).1

lemma step (h : Mirrored d) {e : Event} (hclash : NoClash d e) : Mirrored (step wildcard d e) := by
  cases e with
  | connect acl => exact h.congr (RxSame.of_eq rfl rfl rfl (Nat.le_succ _))
  | disconnect id => exact h.congr (RxSame.clientFrame.disconnect d id)
  | pubsub kind id names => exact h.congr (RxSame.clientFrame.pubsub d wildcard kind id names)
  | message id data host => exact h.congr (RxSame.callFrame.client_message d id data host)
  | request id data host => exact h.congr (RxSame.callFrame.client_request d wildcard id data host)
  | ubusRequest data host => exact h.congr (RxSame.callFrame.call d _ _ _ _ _ _)
  | aclSet data => exact h.congr (RxSame.of_eq rfl rfl rfl le_rfl)
  | accept net address id =>
    unfold Unetmsg.step
    dsimp only
    split
    · exact h.networkAccept net _ address id
    · exact h
  | rx s msg => exact h.rxCallback hclash
  | rxClosed s => exact h.rxSocketClose s
  | rxTimeout s =>
    unfold Unetmsg.step
    dsimp only
    split
    · exact h
    · exact h.closeRx s
  | connectPeers net created => exact h.networkConnectPeers net created
  | tx s msg => exact h.congr (RxSame.upFrame.tx_callback d s msg)
  | unetd networks listening => exact h.unetdNetworkUpdate networks listening

end Mirrored

theorem remote_mirrors_channels (wildcard : String → String → Bool → Bool) (es : List Event)
    (hes : Runs.AllSteps (step wildcard) NoClash Daemon.init es) :
    Mirror (run wildcard Daemon.init es) :=
  (hes.invariant Mirrored.init fun _ _ h hclash => h.step hclash).toMirror

/-- A network with the peer `h` that may do everything. -/
def sampleNet (address : String) : Info :=
  ⟨"me", "fd00::1", AList.singleton "h" ⟨address, none⟩, []⟩

/-- A connection from `h` that is authenticated and subscribes to a name. -/
def sampleJoin (net : Net) (address : String) (s : SockId) (id : Id) : List Event :=
  [.accept net address id, .rx s (.auth (some ⟨"h", "root", some id⟩) none true),
    .rx s (.set .subscribe (some "x") true)]

/-- A comparison in place of patterns. -/
def sameName (name pattern : String) (_ : Bool) : Bool := name = pattern

/-- One network, with a connection from its peer. -/
def oneNetwork : List Event :=
  .unetd (AList.singleton "lan" (sampleNet "fd00::2")) (fun _ => true) ::
    sampleJoin "lan" "fd00::2" 0 7

theorem remote_mirrors_channels_one :
    rxAt (run sameName Daemon.init oneNetwork) "lan" "h" = some 0 ∧
      "x" ∈ ((run sameName Daemon.init oneNetwork).rx 0).registered .subscribe ∧
      Mirror (run sameName Daemon.init oneNetwork) := by
  refine ⟨by decide, by decide, ?_⟩
  refine remote_mirrors_channels sameName oneNetwork ⟨trivial, trivial, ?_, trivial, trivial⟩
  intro _ _ _ net hnet
  have hnet' : net ≠ "lan" := hnet
  have hnone : ((∅ : Obj Net Network).insert "lan" ⟨"me", "fd00::1",
      AList.singleton "h" ⟨"fd00::2", none⟩, ∅, ∅⟩).lookup net = none := by
    rw [AList.lookup_insert_ne hnet']
    rfl
  exact congrArg (fun o => Option.bind o fun n : Network => n.rxChannels.lookup "h") hnone

/-- Two networks with a peer of the same name; the second connection takes away what the first
one has registered. -/
def twoNetworks : List Event :=
  .unetd ((AList.singleton "lan" (sampleNet "fd00::2")).insert "wan" (sampleNet "fd00::3"))
      (fun _ => true) ::
    (sampleJoin "lan" "fd00::2" 0 7 ++
      [.accept "wan" "fd00::3" 8, .rx 1 (.auth (some ⟨"h", "root", some 8⟩) none true)])

theorem twoNetworks_not_mirror : ¬ Mirror (run sameName Daemon.init twoNetworks) := by
  intro h
  have hentry := (h .subscribe "x" "h" "lan").mpr ⟨0, by decide, by decide, by decide⟩
  revert hentry
  decide

end Unetmsg
