import Mt798x.Detect.Sysnet

/-!
# The names that `hnat-detect` writes

The selection of `detect.uc` from the zones of the firewall, and when the names for WAN, LAN and
LAN2 are endpoints that no device shares.
-/

namespace Detect

open Net

/-! ## Zones -/

/-- A network of a zone. -/
structure Network where
  val : Option Name
  device : Option Name

structure Zone where
  name : Name
  masq : Bool
  masq6 : Bool
  network : List Network
  relatedPhysdevs : List Name
  matchDevices : List Name

/-- A section `forwarding` of the firewall's configuration. -/
structure Forwarding where
  enabled : Option Name
  src : Option Name
  dest : Option Name

/-- What a run of the script finds. -/
structure Setup where
  net : Net
  /-- `is_hnat_present` -/
  present : Bool
  action : Option Name
  interface : Option Name
  /-- the zones of the firewall's state, when it can be read -/
  zones : Option (List Zone)
  forwardings : List Forwarding

/-- The devices of the three zones. -/
structure Devices where
  nat : List Name
  lan : List Name
  lan2 : List Name

/-- `zmap`: the last zone of the name -/
def zmap (zones : List Zone) (name : Name) : Option Zone :=
  (zones.filter (·.name = name)).getLast?

/-- `zone_devices` -/
def zoneDevices : Option Zone → List Name
  | none => []
  | some zone =>
    if zone.relatedPhysdevs ≠ [] then zone.relatedPhysdevs.eraseDups
    else zone.matchDevices.eraseDups

/-- `zone_has_iface` -/
def zoneHasIface (z : Zone) (ifname : Name) : Bool :=
  z.network.any fun n => n.val = some ifname ∨ n.device = some ifname

/-- `pick_nat_zone` -/
def pickNatZone (zones : List Zone) (ifname : Name) : Option Zone :=
  let masq := zones.filter fun z => z.masq || z.masq6
  ((masq.find? (·.name = "wan".toList)).or (masq.find? (zoneHasIface · ifname))).or masq.head?

/-- `forward_src_zones` -/
def forwardSrcZones (forwardings : List Forwarding) (destZone : Name) : List Name :=
  (forwardings.filterMap fun s =>
    if s.enabled ≠ some ['0'] ∧ s.dest = some destZone then s.src.filter (· ≠ [])
    else none).eraseDups

/-- `pick_best` -/
def pickBest (cands prefer : List Name) : Option Name :=
  (prefer.find? (· ∈ cands)).or cands.head?

/-- The script up to the devices of the zones; `none` is an exit. -/
def Setup.devices (s : Setup) : Option Devices := do
  guard (s.present ∧ s.action = some "ifup".toList)
  let interface ← s.interface
  guard (interface ≠ [] ∧ interface ≠ "loopback".toList)
  let zones ← s.zones
  guard (s.net.getGmacRoots ≠ [])
  let natZone ← pickNatZone zones interface
  let srcZones := forwardSrcZones s.forwardings natZone.name
  let lanZone := pickBest srcZones ["lan".toList]
  let lan2Zone :=
    if 1 < srcZones.length then
      pickBest (srcZones.filter (some · ≠ lanZone))
        ["lan2".toList, "dmz".toList, "guest".toList]
    else none
  return {
    nat := zoneDevices (zmap zones natZone.name)
    lan := zoneDevices (lanZone.bind (zmap zones))
    lan2 := zoneDevices (lan2Zone.bind (zmap zones)) }

/-! ## The selection -/

/-- What is chosen; a `wan` or `ppd` that is missing is not written. -/
structure Selection where
  ppd : Option Name
  wan : Option Name
  lan : Name
  lan2 : Name
deriving DecidableEq

/-- `filter(l, p)[0] || filter(l, q)[0] || ... || null` -/
def pick : List (Name → Bool) → List Name → Option Name
  | [], _ => none
  | p :: ps, l => (l.filter p).head?.or (pick ps l)

variable (g : Net) (z : Devices)

/-- `zone_eps` -/
def zoneEps (devs : List Name) : List Name :=
  (devs.flatMap (g.resolveEndpoints g.getGmacRoots 13)).eraseDups

/-- `is_gmac` -/
def isGmac (d : Name) : Bool := d ∈ g.getGmacRoots

/-- `is_phy_root` -/
def isPhyRoot (d : Name) : Bool := isGmac g d && g.hasPhy d

/-- `is_sw_port` -/
def isSwPort (d : Name) : Bool := g.isSwitchPortOnGmac g.getGmacRoots d

/-- `all_sw` -/
def allSw : List Name := (zoneEps g z.lan).filter (isSwPort g)

/-- `wan_name` -/
def wanName : Option Name := pick [isPhyRoot g, isSwPort g, isGmac g] (zoneEps g z.nat)

/-- `lan_name`, where the LAN zone reaches switch ports without a usable prefix -/
def lanFallback (wan : Option Name) : Option Name :=
  pick [fun d => isSwPort g d && some d ≠ wan, fun d => isGmac g d && some d ≠ wan,
    fun d => some d ≠ wan] (zoneEps g z.lan)

/-- `lan_name` -/
def lanName (wan : Option Name) : Option Name :=
  if allSw g z = [] then pick [isGmac g] (zoneEps g z.lan)
  else
    match g.getSwitchPrefix (allSw g z) with
    | some pref => if wan.any (pref <+: ·) then lanFallback g z wan else some pref
    | none => lanFallback g z wan

/-- `block_lan2`, or there is one root only -/
def noLan2 (wan : Option Name) : Bool :=
  (allSw g z = [] ∧ (g.getGmacRoots.length = 2 ∧ (g.getGmacRoots.filter g.hasPhy).length = 2) ∧
    wan.isSome) ∨ g.getGmacRoots.length < 2

/-- `lan2_name` -/
def lan2Name (wan : Option Name) (lan : Name) : Name :=
  if noLan2 g z wan then ['/']
  else
    ((pick [fun d => isPhyRoot g d && some d ≠ wan && d ≠ lan] (zoneEps g z.lan2)).or
      (pick [fun r => g.hasPhy r && some r ≠ wan && r ≠ lan] g.getGmacRoots)).getD ['/']

/-- `ppd_name` -/
def ppdName : Option Name :=
  match allSw g z with
  | port :: _ => g.resolveGmacEndpoint g.getGmacRoots port
  | [] => pick [isGmac g] (zoneEps g z.lan)

def select : Option Selection :=
  (lanName g z (wanName g z)).map fun lan =>
    { ppd := ppdName g z, wan := wanName g z, lan, lan2 := lan2Name g z (wanName g z) lan }

/-- `detect.uc`; nothing is written without a name for LAN. -/
def detect (s : Setup) : Option Selection := s.devices.bind (select s.net)

/-! ## What the names are to be -/

/-- The names are endpoints of their zones, and no device has two of them: the driver takes the
name for LAN as a prefix. -/
structure Safe (sel : Selection) : Prop where
  wan : ∀ w ∈ sel.wan, g.Endpoint w ∧ g.Reached z.nat w
  lan : g.Endpoint sel.lan ∧ g.Reached z.lan sel.lan ∨
    ∀ d ∈ g.devs, sel.lan <+: d → g.OnGmac d
  lan2 : sel.lan2 = ['/'] ∨ g.Root sel.lan2 ∧ g.hasPhy sel.lan2
  ppd : ∀ p ∈ sel.ppd, g.Root p
  wan_lan : ∀ d ∈ g.devs, some d = sel.wan → ¬ sel.lan <+: d
  wan_lan2 : ∀ d ∈ g.devs, some d = sel.wan → d ≠ sel.lan2
  lan_lan2 : ∀ d ∈ g.devs, sel.lan <+: d → d ≠ sel.lan2

/-- Whenever the script writes, it writes safe names. -/
def WritesSafe (s : Setup) : Prop :=
  ∀ sel ∈ detect s, ∃ z ∈ s.devices, Safe s.net z sel

/-! ## When they are -/

/-- The first of a list with a property. -/
def First (p : Name → Prop) (l : List Name) (x : Name) : Prop :=
  p x ∧ ∃ a b, l = a ++ x :: b ∧ ∀ y ∈ a, ¬ p y

/-- The first of the first kind that the list has. -/
def Leads : List (Name → Prop) → List Name → Name → Prop
  | [], _, _ => False
  | p :: ps, l, x => First p l x ∨ (∀ y ∈ l, ¬ p y) ∧ Leads ps l x

/-- The endpoint of the NAT zone that leads: a PHY root, else a switch port, else a root. -/
def NatLeads (w : Name) : Prop :=
  Leads [fun d => g.Root d ∧ g.hasPhy d, (isSwPort g ·), g.Root] (zoneEps g z.nat) w

/-- The prefix of the LAN's switch ports, when the NAT's endpoint does not start with it. -/
def Common (p : Name) : Prop :=
  g.getSwitchPrefix (allSw g z) = some p ∧ ∀ w, NatLeads g z w → ¬ p <+: w

/-- A single endpoint stands for the LAN: the first root without switch ports, and the first of
the others where the switch ports have no prefix. -/
def Single (l : Name) : Prop :=
  if allSw g z = [] then First g.Root (zoneEps g z.lan) l
  else (∀ p, ¬ Common g z p) ∧
    Leads [fun d => isSwPort g d ∧ ¬ NatLeads g z d, fun d => g.Root d ∧ ¬ NatLeads g z d,
      fun d => ¬ NatLeads g z d] (zoneEps g z.lan) l

/-- The PHY root that is left for LAN2 beside the name for LAN. -/
def Left (l x : Name) : Prop :=
  let free := fun r => g.hasPhy r ∧ ¬ NatLeads g z r ∧ r ≠ l
  2 ≤ g.getGmacRoots.length ∧
  ¬ (allSw g z = [] ∧ g.getGmacRoots.length = 2 ∧ (∀ r, g.Root r → g.hasPhy r) ∧
    ∃ w, NatLeads g z w) ∧
  (First (fun d => g.Root d ∧ free d) (zoneEps g z.lan2) x ∨
    (∀ y ∈ zoneEps g z.lan2, ¬ (g.Root y ∧ free y)) ∧ First free g.getGmacRoots x)

/-- The condition on the devices and the zones. -/
structure Separate : Prop where
  /-- a single LAN endpoint does not begin the name of the NAT's -/
  nat : ∀ l w, Single g z l → NatLeads g z w → ¬ l <+: w
  /-- neither it nor the prefix begins the name of the PHY root that is left -/
  left : ∀ l x, Single g z l ∨ Common g z l → Left g z l x → ¬ l <+: x
  /-- a switch port with the prefix is on a GMAC, or the prefix is itself an endpoint -/
  common : ∀ p, Common g z p → (∀ d ∈ g.devs, g.isSwitchPort d → p <+: d → g.OnGmac d) ∨
    g.Endpoint p ∧ g.Reached z.lan p

variable {g z}

/-! ## Endpoints -/

lemma isGmac_iff {d : Name} : isGmac g d = true ↔ g.Root d := by
  simp [isGmac, mem_getGmacRoots]

lemma isPhyRoot_iff {d : Name} : isPhyRoot g d = true ↔ g.Root d ∧ g.hasPhy d := by
  simp [isPhyRoot, isGmac_iff]

lemma mem_zoneEps {devs : List Name} {d : Name} (h : d ∈ zoneEps g devs) :
    g.Endpoint d ∧ g.Reached devs d ∧ (isSwPort g d = true ∨ g.Root d) := by
  obtain ⟨dev, hdev, hd⟩ := List.mem_flatMap.mp (List.mem_eraseDups.mp h)
  obtain ⟨hunder, hmem, hkind⟩ := resolveEndpoints_spec hd
  rw [mem_getGmacRoots] at hkind
  exact ⟨⟨hmem, hkind.symm.imp_right onGmac_of_isSwitchPortOnGmac⟩, ⟨dev, hdev, hunder⟩, hkind⟩

/-! ## The first of a kind -/

lemma First.mem {p : Name → Prop} {l : List Name} {x : Name} (h : First p l x) : x ∈ l := by
  obtain ⟨-, a, b, rfl, -⟩ := h
  simp

lemma Leads.mem {ps : List (Name → Prop)} {l : List Name} {x : Name} (h : Leads ps l x) :
    x ∈ l := by
  induction ps with
  | nil => exact h.elim
  | cons p ps ih => exact h.elim First.mem fun h => ih h.2

lemma head?_filter_eq_some {p : Name → Bool} {q : Name → Prop} (h : ∀ y, p y = true ↔ q y)
    {l : List Name} {x : Name} : (l.filter p).head? = some x ↔ First q l x := by
  simp [List.head?_filter, List.find?_eq_some_iff_append, First, ← h]

lemma head?_filter_eq_none {p : Name → Bool} {q : Name → Prop} (h : ∀ y, p y = true ↔ q y)
    {l : List Name} : (l.filter p).head? = none ↔ ∀ y ∈ l, ¬ q y := by
  simp [List.head?_filter, ← h]

lemma pick_eq_some {ps : List (Name → Bool)} {qs : List (Name → Prop)}
    (h : List.Forall₂ (fun p q => ∀ y, p y = true ↔ q y) ps qs) {l : List Name} {x : Name} :
    pick ps l = some x ↔ Leads qs l x := by
  induction h with
  | nil => simp [pick, Leads]
  | cons hpq _ ih =>
    rw [pick, Option.or_eq_some_iff, ih, head?_filter_eq_some hpq, head?_filter_eq_none hpq, Leads]

lemma pick_one_eq_some {p : Name → Bool} {q : Name → Prop} (h : ∀ y, p y = true ↔ q y)
    {l : List Name} {x : Name} : pick [p] l = some x ↔ First q l x := by
  rw [pick, pick, Option.or_none, head?_filter_eq_some h]

/-! ## The names -/

lemma wanName_eq_some {w : Name} : wanName g z = some w ↔ NatLeads g z w :=
  pick_eq_some (.cons (fun _ => isPhyRoot_iff) (.cons (fun _ => Iff.rfl)
    (.cons (fun _ => isGmac_iff) .nil)))

lemma ne_wanName {d : Name} : some d ≠ wanName g z ↔ ¬ NatLeads g z d := by
  rw [ne_comm, ne_eq, wanName_eq_some]

lemma not_common {p : Name} (h : allSw g z = []) : ¬ Common g z p := by
  simp [Common, h, getSwitchPrefix, sharedStem]

lemma lanFallback_eq_some {l : Name} (h : allSw g z ≠ []) (hp : ∀ p, ¬ Common g z p) :
    lanFallback g z (wanName g z) = some l ↔ Single g z l := by
  rw [Single, if_neg h, and_iff_right hp]
  refine pick_eq_some (.cons (fun d => ?_) (.cons (fun d => ?_) (.cons (fun d => ?_) .nil)))
  · simp [← ne_wanName]
  · simp [← ne_wanName, isGmac_iff]
  · simp [← ne_wanName]

lemma lanName_eq_some {l : Name} :
    lanName g z (wanName g z) = some l ↔ Single g z l ∨ Common g z l := by
  unfold lanName
  split_ifs with hsw
  · rw [Single, if_pos hsw, or_iff_left (not_common hsw)]
    exact pick_one_eq_some fun _ => isGmac_iff
  split
  · rename_i pref hpref
    split_ifs with hany
    · -- the NAT's endpoint starts with the prefix
      obtain ⟨w, hw, hp⟩ := (Option.any_eq_true _ _).mp hany
      have hnone : ∀ p, ¬ Common g z p := fun p h => by
        obtain rfl := Option.some.inj (hpref.symm.trans h.1)
        exact h.2 w (wanName_eq_some.mp hw) (by simpa using hp)
      rw [lanFallback_eq_some hsw hnone, or_iff_left (hnone l)]
    · have hcommon : Common g z pref := ⟨hpref, fun w hw hp => hany (by
        simp [wanName_eq_some.mpr hw, hp])⟩
      have hsingle : ¬ Single g z l := fun h => by
        rw [Single, if_neg hsw] at h
        exact h.1 pref hcommon
      rw [or_iff_right hsingle]
      constructor
      · rintro ⟨⟩
        exact hcommon
      · exact fun h => hpref.symm.trans h.1
  · rename_i hpref
    have hnone : ∀ p, ¬ Common g z p := fun p h => by
      cases hpref.symm.trans h.1
    rw [lanFallback_eq_some hsw hnone, or_iff_left (hnone l)]

lemma noLan2_iff : noLan2 g z (wanName g z) = false ↔ 2 ≤ g.getGmacRoots.length ∧
    ¬ (allSw g z = [] ∧ g.getGmacRoots.length = 2 ∧ (∀ r, g.Root r → g.hasPhy r) ∧
      ∃ w, NatLeads g z w) := by
  have hall : (g.getGmacRoots.filter g.hasPhy).length = g.getGmacRoots.length ↔
      ∀ r, g.Root r → g.hasPhy r := by
    simp [List.length_filter_eq_length_iff, mem_getGmacRoots]
  rw [← hall]
  simp only [← wanName_eq_some, ← Option.isSome_iff_exists, noLan2]
  rw [decide_eq_false_iff_not]
  constructor
  · intro h
    refine ⟨by omega, fun ⟨h1, h2, h3, h4⟩ => h (.inl ⟨h1, ⟨h2, h3.trans h2⟩, h4⟩)⟩
  · rintro ⟨hlen, h⟩ (⟨h1, ⟨h2, h3⟩, h4⟩ | h1)
    · exact h ⟨h1, h2, h3.trans h2.symm, h4⟩
    · omega

lemma left_iff {l x : Name} : Left g z l x ↔ noLan2 g z (wanName g z) = false ∧
    (pick [fun d => isPhyRoot g d && some d ≠ wanName g z && d ≠ l] (zoneEps g z.lan2)).or
      (pick [fun r => g.hasPhy r && some r ≠ wanName g z && r ≠ l] g.getGmacRoots) = some x := by
  have hfree : ∀ d, (g.hasPhy d && some d ≠ wanName g z && d ≠ l) = true ↔
      g.hasPhy d ∧ ¬ NatLeads g z d ∧ d ≠ l := fun d => by
    simp [← ne_wanName, and_assoc]
  have hroot : ∀ d, (isPhyRoot g d && some d ≠ wanName g z && d ≠ l) = true ↔
      g.Root d ∧ g.hasPhy d ∧ ¬ NatLeads g z d ∧ d ≠ l := fun d => by
    simp [← ne_wanName, ← isGmac_iff, isPhyRoot, and_assoc]
  rw [noLan2_iff, Option.or_eq_some_iff, pick_one_eq_some hroot, pick_one_eq_some hfree, pick, pick,
    Option.or_none, head?_filter_eq_none hroot, and_assoc, Left]

lemma lan2Name_eq {l x : Name} (h : Left g z l x) : lan2Name g z (wanName g z) l = x := by
  obtain ⟨hno, hx⟩ := left_iff.mp h
  rw [lan2Name, hno, hx]
  rfl

lemma lan2Name_cases (l : Name) : lan2Name g z (wanName g z) l = ['/'] ∨
    Left g z l (lan2Name g z (wanName g z) l) := by
  rw [lan2Name]
  split_ifs with hno
  · exact .inl rfl
  · cases hx : (pick _ (zoneEps g z.lan2)).or (pick _ g.getGmacRoots) with
    | none => exact .inl rfl
    | some x => exact .inr (left_iff.mpr ⟨by simpa using hno, hx⟩)

lemma left_of_lan2Name {l d : Name} (hd : d ∈ g.devs) (h : d = lan2Name g z (wanName g z) l) :
    Left g z l d := by
  rw [h] at hd ⊢
  refine (lan2Name_cases l).resolve_left fun hslash => slash_not_mem hd ?_
  rw [hslash]
  exact List.mem_singleton_self '/'

lemma Left.root {l x : Name} (h : Left g z l x) :
    g.Root x ∧ g.hasPhy x ∧ ¬ NatLeads g z x := by
  obtain ⟨-, -, h | ⟨-, h⟩⟩ := h
  · exact ⟨h.1.1, h.1.2.1, h.1.2.2.1⟩
  · exact ⟨mem_getGmacRoots.mp h.mem, h.1.1, h.1.2.1⟩

lemma NatLeads.endpoint {w : Name} (h : NatLeads g z w) :
    g.Endpoint w ∧ g.Reached z.nat w :=
  (mem_zoneEps h.mem).imp_right And.left

lemma Single.endpoint {l : Name} (h : Single g z l) : g.Endpoint l ∧ g.Reached z.lan l := by
  have hmem : l ∈ zoneEps g z.lan := by
    unfold Single at h
    split_ifs at h
    · exact h.mem
    · exact h.2.mem
  exact (mem_zoneEps hmem).imp_right And.left

lemma ppdName_root {p : Name} (h : ppdName g z = some p) : g.Root p := by
  unfold ppdName at h
  split at h
  · exact resolveGmacEndpoint_root h
  · exact ((pick_one_eq_some fun _ => isGmac_iff).mp h).1

/-! ## When the names are safe -/

variable (g z) in
/-- What is chosen beside a name for LAN. -/
def chosen (l : Name) : Selection :=
  { ppd := ppdName g z, wan := wanName g z, lan := l, lan2 := lan2Name g z (wanName g z) l }

lemma select_eq_some {sel : Selection} :
    select g z = some sel ↔ ∃ l, (Single g z l ∨ Common g z l) ∧ chosen g z l = sel := by
  simp [select, chosen, Option.map_eq_some_iff, lanName_eq_some]

lemma Separate.safe (h : Separate g z) {l : Name} (hl : Single g z l ∨ Common g z l) :
    Safe g z (chosen g z l) where
  wan w hw := (wanName_eq_some.mp hw).endpoint
  lan := by
    rcases hl with hl | hl
    · exact .inl hl.endpoint
    · refine (h.common l hl).symm.imp_right fun hports d hd hp => hports d hd ?_ hp
      exact (getSwitchPrefix_spec hl.1).2 d hd hp
  lan2 := (lan2Name_cases l).imp_right fun hx => ⟨hx.root.1, hx.root.2.1⟩
  ppd p hp := ppdName_root hp
  wan_lan d _ hw hp := by
    have hnat := wanName_eq_some.mp hw.symm
    rcases hl with hl | hl
    · exact h.nat l d hl hnat hp
    · exact hl.2 d hnat hp
  wan_lan2 d hd hw heq :=
    (left_of_lan2Name hd heq).root.2.2 (wanName_eq_some.mp hw.symm)
  lan_lan2 d hd hp heq := h.left l d hl (left_of_lan2Name hd heq) hp

lemma separate_of_safe (h : ∀ l, Single g z l ∨ Common g z l → Safe g z (chosen g z l)) :
    Separate g z where
  nat l w hl hw := (h l (.inl hl)).wan_lan w hw.endpoint.1.1 (wanName_eq_some.mpr hw).symm
  left l x hl hx hp := (h l hl).lan_lan2 x hx.root.1.1 hp (lan2Name_eq hx).symm
  common p hp := ((h p (.inr hp)).lan.symm).imp_left fun hports d hd _ => hports d hd

/-- The names are safe exactly when the condition holds of the zones. -/
theorem writesSafe_iff (s : Setup) : WritesSafe s ↔ ∀ z ∈ s.devices, Separate s.net z := by
  constructor
  · intro h z hz
    refine separate_of_safe fun l hl => ?_
    have hsel : select s.net z = some (chosen s.net z l) := select_eq_some.mpr ⟨l, hl, rfl⟩
    obtain ⟨z', hz', hsafe⟩ := h (chosen s.net z l) (by simp [detect, Option.mem_def.mp hz, hsel])
    obtain rfl := Option.some.inj (hz'.symm.trans hz)
    exact hsafe
  · intro h sel hsel
    obtain ⟨z, hz, hsel⟩ := Option.bind_eq_some_iff.mp hsel
    obtain ⟨l, hl, rfl⟩ := select_eq_some.mp hsel
    exact ⟨z, hz, (h z hz).safe hl⟩

/-- A GMAC whose VLANs are the two zones. -/
def oneGmac : Setup where
  net := {
    dir := [
      ("eth0".toList, { compatible := some "mediatek,eth-mac".toList, phydev := true }),
      ("eth0.1".toList, { entries := ["lower_eth0".toList] }),
      ("eth0.2".toList, { entries := ["lower_eth0".toList] })]
    named := by decide }
  present := true
  action := some "ifup".toList
  interface := some "wan".toList
  zones := some [
    { name := "lan".toList, masq := false, masq6 := false, network := []
      relatedPhysdevs := ["eth0.1".toList], matchDevices := [] },
    { name := "wan".toList, masq := true, masq6 := false, network := []
      relatedPhysdevs := ["eth0.2".toList], matchDevices := [] }]
  forwardings := [{ enabled := none, src := some "lan".toList, dest := some "wan".toList }]

/-- The GMAC is written for WAN and for LAN. -/
theorem oneGmac_shared : ¬ WritesSafe oneGmac := by
  have hsel : detect oneGmac = some { ppd := some "eth0".toList, wan := some "eth0".toList
                                      lan := "eth0".toList, lan2 := ['/'] } := by
    decide
  intro h
  obtain ⟨z, -, hsafe⟩ := h _ hsel
  exact hsafe.wan_lan "eth0".toList (by decide) rfl List.prefix_rfl

end Detect
