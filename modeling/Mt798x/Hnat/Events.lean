import Mt798x.Hnat.Mcast
import Mt798x.Lib.Runs

/-!
# The events of the multicast driver

The state of the driver and what each event does to it: notifications of the bridge, binds of
flow entries, interfaces that go down, the blacklist, the offload switch and the path switches of
the NPU.  Three more events are the world's: a network device changes, the flow of another
connection or the hardware rewrites a flow entry, the NPU changes which clients it refuses.
-/

namespace Hnat

/-! ## Walks over the groups -/

/-- A `list_for_each_entry_safe` over the groups. -/
def sweep (f : Group → Hw → Group × Hw) : List Group → Hw → List Group × Hw
  | [], hw => ([], hw)
  | group :: groups, hw =>
    let (group, hw) := f group hw
    let (groups, hw) := sweep f groups hw
    (group :: groups, hw)

/-- A walk that stops at the first group that is looked for. -/
def onFirst (p : Group → Bool) (f : Group → Hw → Group × Hw) :
    List Group → Hw → List Group × Hw
  | [], hw => ([], hw)
  | group :: groups, hw =>
    if p group then
      let (group, hw) := f group hw
      (group :: groups, hw)
    else
      let (groups, hw) := onFirst p f groups hw
      (group :: groups, hw)

/-! ## Notifications of the bridge -/

/-- `hnat_mcast_create_group` -/
def createGroup (ip : Ip) : Group := ⟨ip, getMacFromMdb ip, [], none, none, none, ∅, true, none⟩

/-- `hnat_mcast_group_add_station` -/
def groupAddStation (group : Group) (ifindex : IfIndex) : Group :=
  { group with members := group.members ++ [ifindex] }

/-- `hnat_mcast_group_del_station` -/
def groupDelStation (group : Group) (ifindex : IfIndex) : Group :=
  { group with members := group.members.erase ifindex }

/-- The stations of a group after a notification. -/
def Group.station (group : Group) (type : Mdb) (ifindex : IfIndex) : Group :=
  match type with
  | .new => groupAddStation group ifindex
  | .del => groupDelStation group ifindex

/-- `hnat_mcast_group_del` -/
def groupDel (groups : List Group) (ip : Ip) : List Group :=
  groups.eraseP fun group => group.ip = ip && group.members.isEmpty

/-- `hnat_mcast_group_update`, for the group that is found or created. -/
def groupNotify (cfg : Cfg) (dev : IfIndex → Option Dev) (hook : Bool) (type : Mdb)
    (ifindex : IfIndex) (group : Group) (hw : Hw) : Group × Hw :=
  let group := group.station type ifindex
  if hook then eventHwHandle cfg dev group hw type ifindex else (group, hw)

/-- The groups in which the group of an address is found or created. -/
def withGroup (groups : List Group) (ip : Ip) : List Group :=
  if (findGroupByIp groups ip).isSome then groups else groups ++ [createGroup ip]

/-! ## The blacklist -/

/-- `struct mcast_blist_data` -/
structure Blist where
  ip : Ip
  mask : ℕ
  deriving DecidableEq, Repr

/-- The field `dip`, which is zero in a group of the other family. -/
def Ip.dip : Ip → ℕ
  | .v4 ip => ip
  | .v6 _ _ _ _ => 0

/-- The field `dip6`. -/
def Ip.dip6 : Ip → List ℕ
  | .v4 _ => [0, 0, 0, 0]
  | .v6 w0 w1 w2 w3 => [w0, w1, w2, w3]

/-- The loop over the words of two addresses. -/
def wordsMatch : ℕ → List ℕ → List ℕ → Bool
  | remaining, group :: groups, word :: words =>
    if remaining = 0 then true
    else
      let mask := if 32 ≤ remaining then 0xffffffff else (0xffffffff <<< (32 - remaining)) % 2 ^ 32
      decide (group &&& mask = word &&& mask) && wordsMatch (remaining - 32) groups words
  | _, _, _ => true

/-- `hnat_mcast_ip_match_blist` -/
def ipMatchBlist (group : Group) (blist : Blist) : Bool :=
  match blist.ip with
  | .v4 ip => group.ip.dip &&& blist.mask = ip &&& blist.mask
  | .v6 _ _ _ _ => wordsMatch blist.mask group.ip.dip6 blist.ip.dip6

/-- `0xffffffff << (32 - mask)`, with the count of the shift modulo 32 as the CPU takes it. -/
def checkMask (mask : ℕ) : ℕ := (0xffffffff <<< ((32 - (mask : ℤ)) % 32).toNat) % 2 ^ 32

/-- `hnat_mcast_blist_entry_match` -/
def blistEntryMatch (blist : Blist) (ip : Ip) (mask : ℕ) : Bool :=
  blist.ip = ip && blist.mask = checkMask mask

/-- `hnat_mcast_group_teardown_npu` -/
def groupTeardownNpu (cfg : Cfg) (dev : IfIndex → Option Dev) (group : Group) (hw : Hw) :
    Group × Hw :=
  match getHwFoe group with
  | none => (group, hw)
  | some ref =>
    let stag := (getPseTxBmp dev group.members).2
    let (hw, _) := npuDeleteStations cfg hw (hw.get (some ref)).dst stag none
    ({ group with psebmp := ∅ }, hw)

/-- What an addition to the blacklist does to a group. -/
def blistGroup (cfg : Cfg) (dev : IfIndex → Option Dev) (blist : Blist) (group : Group) (hw : Hw) :
    Group × Hw :=
  if ipMatchBlist group blist then
    let (group, hw) := groupTeardownNpu cfg dev group hw
    (group.unbind, entryDelete cfg hw group.ppeId group.foeIdx)
  else (group, hw)

/-- `hnat_mcast_chk_blist` -/
def chkBlist (blist : List Blist) (entry : Foe) : Bool :=
  blist.any fun m =>
    match entry.key, m.ip with
    | some (.v4 ip), .v4 ip' => ip' &&& m.mask = ip &&& m.mask
    | some (.v6 a b c d), .v6 a' b' c' d' => [a', b', c', d'] = [a, b, c, d]
    | _, _ => false

/-! ## Switches -/

/-- `hnat_mcast_group_handle` -/
def groupHandle (cfg : Cfg) (dev : IfIndex → Option Dev) (enable : Bool) (group : Group) (hw : Hw) :
    Group × Hw :=
  match getHwFoe group with
  | none => (group, hw)
  | some ref =>
    let dst := (hw.get (some ref)).dst
    let stag := (getPseTxBmp dev group.members).2
    if enable then (group, hw)
    else
      let hw := entryDelete cfg hw group.ppeId group.foeIdx
      (group.unbind, (npuDeleteStations cfg hw dst stag none).1)

/-- What a path switch does to its group. -/
def groupPath (cfg : Cfg) (hwPath : Bool) (group : Group) (hw : Hw) : Group × Hw :=
  let group := { group with offload := hwPath }
  if hwPath then (group, hw) else (group.unbind, entryDelete cfg hw group.ppeId group.foeIdx)

/-! ## Interfaces and flow entries -/

/-- What `hnat_mcast_ifdown_handle` does to a group. -/
def ifdownGroup (cfg : Cfg) (dev : IfIndex → Option Dev) (ifindex : IfIndex) (group : Group)
    (hw : Hw) : Group × Hw :=
  if ifindex ∈ group.members then
    match getHwFoe group with
    | none => (group, hw)
    | some ref =>
      if group.psebmp \ getSingleDevPseBit dev ifindex ≠ ∅ then
        let (bmp, stag) := getPseTxBmp dev group.members
        let (group, hw, _) := hwUpdate cfg dev group hw (some ref) stag bmp .del ifindex
        (group, hw)
      else
        let (group, hw) := mtblTeardown group (entryDelete cfg hw group.ppeId group.foeIdx)
        (group.unbind, hw)
  else (group, hw)

/-- The update of the hardware for the flow entry that is being built. -/
def bindHw (cfg : Cfg) (dev : IfIndex → Option Dev) (group : Group) (hw : Hw) (ifindex : IfIndex) :
    Group × Hw × ℤ :=
  let (bmp, stag) := getPseTxBmp dev group.members
  if bmp ≠ ∅ then hwUpdate cfg dev group hw none stag bmp .new ifindex else (group, hw, 0)

/-- `hnat_mcast_foe_bind_handle` for the group that is found; the flow entry is the one that is
being built. -/
def foeBindHandle (cfg : Cfg) (dev : IfIndex → Option Dev) (group : Group) (hw : Hw) (ppe idx : ℕ)
    (ifindex : IfIndex) : Group × Hw × ℤ :=
  if !group.offload || noNpuTeardown cfg dev group then (group, hw, -1)
  else
    let group := { group with ppeId := some ppe, foeIdx := some idx }
    let (group, hw, ret) := bindHw cfg dev group hw ifindex
    (group, hw, if ret < 0 || !group.offload then -1 else 0)

/-- `hnat_foe_entry_commit`, after the final check of the entry's state. -/
def foeEntryCommit (hw : Hw) (ppe idx : ℕ) : Hw :=
  if (hw.foe ppe idx).state = .unbind then hw.set (some (ppe, idx)) { hw.entry with state := .bind }
  else hw

/-- The bind of a group by a caller of `hnat_mcast_foe_bind_handle`. -/
def bindGroup (cfg : Cfg) (dev : IfIndex → Option Dev) (ppe idx : ℕ) (ifindex : IfIndex)
    (group : Group) (hw : Hw) : Group × Hw :=
  let (group, hw, ret) := foeBindHandle cfg dev group hw ppe idx ifindex
  (group, if ret = 0 then foeEntryCommit hw ppe idx else hw)

/-! ## The state and its steps -/

structure St where
  groups : List Group
  hw : Hw
  dev : IfIndex → Option Dev
  hook : Bool
  blist : List Blist

/-- The driver after `hnat_mcast_enable`. -/
def St.init (dev : IfIndex → Option Dev) (hook : Bool) (refuse : Ip → ℕ → Bool) : St where
  groups := []
  hw := ⟨fun _ _ => Slot.zero, fun _ _ => Foe.zero, Foe.zero, fun _ => ∅, refuse⟩
  dev := dev
  hook := hook
  blist := []

/-- `netif_running` of a device that has been closed. -/
def stop (dev : IfIndex → Option Dev) (ifindex : IfIndex) : IfIndex → Option Dev :=
  Function.update dev ifindex ((dev ifindex).map fun d => { d with running := false })

inductive Event where
  /-- a notification of the bridge -/
  | mdb (type : Mdb) (ip : Ip) (ifindex : IfIndex)
  /-- a packet whose flow entry, built as given, is to be bound -/
  | bind (ppe idx : ℕ) (entry : Foe) (ifindex : IfIndex)
  /-- an interface is closed; it has stopped running before or after its notifier runs -/
  | ifdown (ifindex : IfIndex) (stopped : Bool)
  | blist (ip : Ip) (mask : ℕ) (add : Bool)
  | offload (enable : Bool)
  /-- a path switch, with the address that Wi-Fi knows the group by -/
  | path (groupIdx : Option ℕ) (hwPath : Bool) (wifi : Option Ip)
  | dev (ifindex : IfIndex) (d : Option Dev)
  | flow (ppe idx : ℕ) (foe : Foe)
  | refuse (refuse : Ip → ℕ → Bool)

/-- `hnat_mcast_group_update` -/
def groupUpdate (cfg : Cfg) (s : St) (type : Mdb) (ip : Ip) (ifindex : IfIndex) : St :=
  let (groups, hw) := onFirst (fun group => group.ip = ip)
    (groupNotify cfg s.dev s.hook type ifindex) (withGroup s.groups ip) s.hw
  { s with groups := groupDel groups ip, hw := hw }

/-- The bind of a flow entry, from the checks of the caller on. -/
def foeBind (cfg : Cfg) (s : St) (ppe idx : ℕ) (entry : Foe) (ifindex : IfIndex) : St :=
  if s.hook && !chkBlist s.blist entry then
    match entry.key with
    | none => s
    | some ip =>
      let (groups, hw) := onFirst (fun group => group.ip = ip)
        (bindGroup cfg s.dev ppe idx ifindex) s.groups { s.hw with entry := entry }
      { s with groups := groups, hw := hw }
  else s

/-- The notifier of an interface that goes down: `hnat_mcast_ifdown_handle`. -/
def ifdownHandle (cfg : Cfg) (s : St) (ifindex : IfIndex) (stopped : Bool) : St :=
  let dev := if stopped then stop s.dev ifindex else s.dev
  let (groups, hw) :=
    if s.hook then sweep (ifdownGroup cfg dev ifindex) s.groups s.hw else (s.groups, s.hw)
  { s with groups := groups, hw := hw, dev := stop s.dev ifindex }

/-- `hnat_mcast_blist_handle` -/
def blistHandle (cfg : Cfg) (s : St) (ip : Ip) (mask : ℕ) (add : Bool) : St :=
  if add then
    if s.blist.any fun m => blistEntryMatch m ip mask then s
    else
      let m : Blist := ⟨ip, checkMask mask⟩
      let (groups, hw) := sweep (blistGroup cfg s.dev m) s.groups s.hw
      { s with groups := groups, hw := hw, blist := m :: s.blist }
  else { s with blist := s.blist.eraseP fun m => blistEntryMatch m ip mask }

/-- `hnat_mcast_offload_handle` -/
def offloadHandle (cfg : Cfg) (s : St) (enable : Bool) : St :=
  let (groups, hw) := sweep (groupHandle cfg s.dev enable) s.groups s.hw
  { s with groups := groups, hw := hw, hook := enable }

/-- The group of a path switch: by the number that the NPU gave it, else by its address. -/
def pathLook (s : St) (groupIdx : Option ℕ) (wifi : Option Ip) (group : Group) : Bool :=
  if s.groups.any fun group => group.npuGrpIdx = groupIdx then group.npuGrpIdx = groupIdx
  else wifi = some group.ip

/-- `hnat_mcast_group_path_switch`, with `hnat_mcast_update_path_from_wifi` -/
def groupPathSwitch (cfg : Cfg) (s : St) (groupIdx : Option ℕ) (hwPath : Bool) (wifi : Option Ip) :
    St :=
  let (groups, hw) := onFirst (pathLook s groupIdx wifi) (groupPath cfg hwPath) s.groups s.hw
  { s with groups := groups, hw := hw }

def step (cfg : Cfg) (s : St) : Event → St
  | .mdb type ip ifindex => groupUpdate cfg s type ip ifindex
  | .bind ppe idx entry ifindex => foeBind cfg s ppe idx entry ifindex
  | .ifdown ifindex stopped => ifdownHandle cfg s ifindex stopped
  | .blist ip mask add => blistHandle cfg s ip mask add
  | .offload enable => offloadHandle cfg s enable
  | .path groupIdx hwPath wifi => groupPathSwitch cfg s groupIdx hwPath wifi
  | .dev ifindex d => { s with dev := Function.update s.dev ifindex d }
  | .flow ppe idx foe => { s with hw := s.hw.set (some (ppe, idx)) foe }
  | .refuse refuse => { s with hw := { s.hw with refuse := refuse } }

/-! ## Rules for the walks -/

section Walks

variable {p : Group → Bool} {f : Group → Hw → Group × Hw} {P : List Group → Hw → Prop}
  {groups : List Group} {hw : Hw}

lemma sweep_rule {Q : List Group → List Group → Hw → Prop} (h : Q [] groups hw)
    (hf : ∀ pre group post hw, group ∈ groups → Q pre (group :: post) hw →
      Q (pre ++ [(f group hw).1]) post (f group hw).2) :
    Q (sweep f groups hw).1 [] (sweep f groups hw).2 := by
  suffices h' : ∀ pre, Q pre groups hw → Q (pre ++ (sweep f groups hw).1) [] (sweep f groups hw).2 from
    h' [] h
  clear h
  induction groups generalizing hw with
  | nil =>
    intro pre h
    simpa [sweep] using h
  | cons group groups ih =>
    intro pre h
    have hstep := hf pre group groups hw (by simp) h
    have hrest := ih (fun pre g post hw hg => hf pre g post hw (List.mem_cons_of_mem _ hg)) _ hstep
    simpa [sweep] using hrest

/-- What holds of the groups and the hardware before a walk holds after it, when it is kept for
each group that the walk comes to. -/
lemma sweep_invariant (h : P groups hw)
    (hf : ∀ pre group post hw, group ∈ groups → P (pre ++ group :: post) hw →
      P (pre ++ (f group hw).1 :: post) (f group hw).2) :
    P (sweep f groups hw).1 (sweep f groups hw).2 := by
  have hrule := sweep_rule (Q := fun pre post hw => P (pre ++ post) hw) (f := f) h
    fun pre group post hw hg hpre => by simpa using hf pre group post hw hg hpre
  simpa using hrule

lemma onFirst_split {pre post : List Group} {group : Group} (hp : p group)
    (hpre : ∀ g ∈ pre, ¬ p g) (f : Group → Hw → Group × Hw) (hw : Hw) :
    onFirst p f (pre ++ group :: post) hw = (pre ++ (f group hw).1 :: post, (f group hw).2) := by
  induction pre with
  | nil => simp [onFirst, hp]
  | cons g pre ih =>
    have hg : ¬ p g := hpre g (by simp)
    have hrest := ih fun x hx => hpre x (List.mem_cons_of_mem _ hx)
    simp [onFirst, hg, hrest]

lemma onFirst_cases (p : Group → Bool) (f : Group → Hw → Group × Hw) (groups : List Group)
    (hw : Hw) :
    (∃ pre group post, groups = pre ++ group :: post ∧ p group ∧ (∀ g ∈ pre, ¬ p g) ∧
      onFirst p f groups hw = (pre ++ (f group hw).1 :: post, (f group hw).2)) ∨
    ((∀ g ∈ groups, ¬ p g) ∧ onFirst p f groups hw = (groups, hw)) := by
  cases hfind : groups.find? p with
  | some group =>
    obtain ⟨hp, pre, post, rfl, hpre⟩ := List.find?_eq_some_iff_append.mp hfind
    have hpre' : ∀ g ∈ pre, ¬ p g := by simpa using hpre
    exact Or.inl ⟨pre, group, post, rfl, hp, hpre', onFirst_split hp hpre' f hw⟩
  | none =>
    have hnone : ∀ g ∈ groups, ¬ p g := by simpa using hfind
    refine Or.inr ⟨hnone, ?_⟩
    clear hfind
    induction groups with
    | nil => rfl
    | cons g groups ih =>
      have hg : ¬ p g := hnone g (by simp)
      have hrest := ih fun x hx => hnone x (List.mem_cons_of_mem _ hx)
      simp [onFirst, hg, hrest]

end Walks

end Hnat
