import Mathlib

/-!
# Multicast groups of the hardware NAT

The functions of `hnat_mcast.c` and the state they work on: the groups with their member
interfaces, the multicast tables and the flow entries of the PPEs, and the clients of the NPU.

A PSE bitmap is a set of PSE ports and a tag bitmap a set of switch ports; an index of -1 is
`none`.  The hardware cache, the time stamps of flow entries and the return codes that no caller
reads are left out, and memory can always be allocated.
-/

namespace Hnat

/-! ## Data -/

/-- `enum ppe_mcast_port`, in the order of the bits. -/
inductive Port where
  | gdma3
  | pdma
  | gdma1
  | gdma2
  | tdma
  deriving DecidableEq, Repr

abbrev Bmp := Finset Port

/-- `BMP_IS_SINGLE_PORT` -/
def isSingle (bmp : Bmp) : Bool := bmp.card = 1

/-- Switch ports, as in a tag bitmap. -/
abbrev Stag := Finset ℕ

/-- The bits of a `u32` that are left in a `u8`. -/
def Stag.toU8 (stag : Stag) : Stag := stag.filter fun port => port < 8

abbrev IfIndex := ℕ

/-- A multicast address: one word or four, in host order. -/
inductive Ip where
  | v4 (ip : ℕ)
  | v6 (w0 w1 w2 w3 : ℕ)
  deriving DecidableEq, Repr

inductive Gmac where
  | gmac1
  | gmac2
  | gmac3
  deriving DecidableEq, Repr

/-- What the driver takes a network device for, in the order of its tests: a switch port with the
`reg` property of its node, a Wi-Fi interface, an interface of a GMAC, or none of these. -/
inductive DevKind where
  | dsa (reg : Option ℕ)
  | whnat
  | gmac (fp : Option Gmac)
  | other
  deriving DecidableEq, Repr

structure Dev where
  kind : DevKind
  running : Bool
  deriving DecidableEq, Repr

/-- A row of a multicast table: the ports, the selector of the MAC prefix and the rest of the
MAC. -/
structure Slot where
  px : Bmp
  sel : ℕ
  addr : ℕ
  deriving DecidableEq

def Slot.zero : Slot := ⟨∅, 0, 0⟩

inductive FoeState where
  | invalid
  | unbind
  | bind
  deriving DecidableEq, Repr

/-- A flow entry.  The key is the destination of an IPv4 or IPv6 entry. -/
structure Foe where
  key : Option Ip
  state : FoeState
  mcast : Bool
  dp : ℕ
  spTag : Stag
  vlanLayer : ℕ
  vpm : ℕ
  topsEntry : ℕ
  tportId : ℕ
  deriving DecidableEq

/-- An entry of zeros is one of type IPv4. -/
def Foe.zero : Foe := ⟨some (.v4 0), .invalid, false, 0, ∅, 0, 0, 0, 0⟩

/-- `struct ppe_mcast_group` -/
structure Group where
  ip : Ip
  mac : List ℕ
  members : List IfIndex
  mtblIdx : Option ℕ
  ppeId : Option ℕ
  foeIdx : Option ℕ
  psebmp : Bmp
  offload : Bool
  npuGrpIdx : Option ℕ
  deriving DecidableEq

/-- What the driver is built for and runs on. -/
structure Cfg where
  /-- the NPU has registered its operations -/
  npu : Bool
  /-- `hnat_mcast_is_mtk_dsa("eth0")` -/
  dsa : Bool
  maxEntry : ℕ
  ppeNum : ℕ
  foeNum : ℕ
  /-- the number that the NPU gives a group -/
  npuIdx : Ip → ℕ

/-- The hardware.  `entry` is the flow entry that is being built for a packet; the NPU keeps the
clients of every address and may refuse one. -/
structure Hw where
  slots : ℕ → ℕ → Slot
  foe : ℕ → ℕ → Foe
  entry : Foe
  npu : Ip → Finset ℕ
  refuse : Ip → ℕ → Bool

/-- A flow entry: one of the table or, without a place, the one that is being built. -/
abbrev FoeRef := Option (ℕ × ℕ)

def Hw.get (hw : Hw) : FoeRef → Foe
  | some (ppe, idx) => hw.foe ppe idx
  | none => hw.entry

def Hw.set (hw : Hw) (ref : FoeRef) (foe : Foe) : Hw :=
  match ref with
  | some (ppe, idx) => { hw with foe := Function.update hw.foe ppe (Function.update (hw.foe ppe) idx foe) }
  | none => { hw with entry := foe }

def Hw.setSlot (hw : Hw) (ppe idx : ℕ) (slot : Slot) : Hw :=
  { hw with slots := Function.update hw.slots ppe (Function.update (hw.slots ppe) idx slot) }

/-! ## The multicast table -/

/-- `DMAC_TO_HI16` -/
def dmacToHi16 (mac : List ℕ) : ℕ := mac.getD 0 0 * 2 ^ 8 + mac.getD 1 0

/-- `DMAC_TO_LO32` -/
def dmacToLo32 (mac : List ℕ) : ℕ :=
  mac.getD 2 0 * 2 ^ 24 + mac.getD 3 0 * 2 ^ 16 + mac.getD 4 0 * 2 ^ 8 + mac.getD 5 0

/-- `set_hnat_mtbl` -/
def setHnatMtbl (hw : Hw) (mac : List ℕ) (index ppe : ℕ) (bmp : Bmp) : Hw :=
  if dmacToHi16 mac = 0x0100 then hw.setSlot ppe index ⟨bmp, 0, dmacToLo32 mac⟩
  else if dmacToHi16 mac = 0x3333 then hw.setSlot ppe index ⟨bmp, 1, dmacToLo32 mac⟩
  else hw

/-- `clr_hnat_mtbl` -/
def clrHnatMtbl (hw : Hw) (ppe index : ℕ) : Hw := hw.setSlot ppe index Slot.zero

/-- `hnat_mcast_get_mac_from_mdb` -/
def getMacFromMdb : Ip → List ℕ
  | .v4 ip => [0x01, 0x00, 0x5e, (ip >>> 16) % 2 ^ 7, (ip >>> 8) % 2 ^ 8, ip % 2 ^ 8]
  | .v6 _ _ _ ip =>
    [0x33, 0x33, (ip >>> 24) % 2 ^ 8, (ip >>> 16) % 2 ^ 8, (ip >>> 8) % 2 ^ 8, ip % 2 ^ 8]

/-- `hnat_mcast_find_group_by_ip` -/
def findGroupByIp (groups : List Group) (ip : Ip) : Option Group :=
  groups.find? fun group => group.ip = ip

/-! ## Flow entries -/

/-- `hnat_mcast_foe_mc_enable` -/
def foeMcEnable (foe : Foe) (toNpu : Bool) : Foe :=
  let foe := if foe.key.isSome then
      { foe with
        tportId := 0
        topsEntry := if toNpu then 30 else foe.topsEntry
        mcast := true
        dp := 0 }
    else foe
  { foe with vlanLayer := 0, vpm := 0 }

/-- `hnat_mcast_foe_stag_update` -/
def foeStagUpdate (foe : Foe) (stag : Stag) : Foe :=
  { foe with spTag := if foe.key.isSome then stag else foe.spTag, vlanLayer := 1 }

/-- The lowest bit of a bitmap. -/
def ffs (bmp : Bmp) : Option Port :=
  [Port.gdma3, .pdma, .gdma1, .gdma2, .tdma].find? fun port => port ∈ bmp

/-- The destination port of a flow entry for a bit of a bitmap. -/
def Port.dp : Port → Option ℕ
  | .gdma1 => some 1
  | .gdma2 => some 2
  | .gdma3 => some 15
  | .tdma => some 10
  | .pdma => none

/-- `hnat_mcast_foe_mc_disable` -/
def foeMcDisable (foe : Foe) (bmp : Bmp) : Foe :=
  match (ffs bmp).bind Port.dp with
  | none => foe
  | some dp =>
    let foe := if foe.key.isSome then
        { foe with dp := dp, mcast := false, tportId := 0, topsEntry := if dp = 10 then 30 else 0 }
      else foe
    { foe with vpm := 0, vlanLayer := if dp = 1 then 1 else 0 }

/-- `hnat_mcast_alloc_mtbl_entry` -/
def allocMtblEntry (cfg : Cfg) (hw : Hw) (ppe : ℕ) : Option ℕ :=
  (List.range cfg.maxEntry).find? fun idx => hw.slots ppe idx = Slot.zero

/-- `hnat_mcast_mtbl_setup`; the last component is whether the table has a row. -/
def mtblSetup (cfg : Cfg) (group : Group) (hw : Hw) (ref : FoeRef) (bmp : Bmp) (toNpu : Bool) :
    Group × Hw × Bool :=
  let mask := if toNpu then insert Port.tdma (bmp.erase .gdma1) else bmp
  match group.ppeId with
  | none => (group, hw, false)
  | some ppe =>
    match group.mtblIdx <|> allocMtblEntry cfg hw ppe with
    | none => ({ group with foeIdx := none, ppeId := none }, hw.set ref Foe.zero, false)
    | some idx => ({ group with mtblIdx := some idx }, setHnatMtbl hw group.mac idx ppe mask, true)

/-- `hnat_mcast_mtbl_teardown` -/
def mtblTeardown (group : Group) (hw : Hw) : Group × Hw :=
  match group.mtblIdx, group.ppeId with
  | some idx, some ppe => ({ group with mtblIdx := none }, clrHnatMtbl hw ppe idx)
  | _, _ => (group, hw)

/-- `hnat_mcast_get_hw_foe` -/
def getHwFoe (group : Group) : FoeRef :=
  match group.ppeId, group.foeIdx with
  | some ppe, some idx => some (ppe, idx)
  | _, _ => none

/-- `__entry_delete` -/
def Foe.delete (foe : Foe) : Foe := { foe with state := .invalid }

/-- `entry_delete` -/
def entryDelete (cfg : Cfg) (hw : Hw) (ppe idx : Option ℕ) : Hw :=
  match ppe with
  | none => hw
  | some ppe =>
    if cfg.ppeNum ≤ ppe then hw
    else
      match idx with
      | none => { hw with foe := Function.update hw.foe ppe fun idx =>
          if idx < cfg.foeNum then (hw.foe ppe idx).delete else hw.foe ppe idx }
      | some idx =>
        if cfg.foeNum ≤ idx then hw else hw.set (some (ppe, idx)) (hw.foe ppe idx).delete

/-- The group has no flow entry any more. -/
def Group.unbind (group : Group) : Group := { group with psebmp := ∅, ppeId := none, foeIdx := none }

/-! ## Members -/

/-- The PSE port of a device. -/
def DevKind.bmp : DevKind → Bmp
  | .dsa (some _) => {.gdma1}
  | .whnat => {.tdma}
  | .gmac (some .gmac1) => {.gdma1}
  | .gmac (some .gmac2) => {.gdma2}
  | .gmac (some .gmac3) => {.gdma3}
  | _ => ∅

/-- The switch port of a device. -/
def DevKind.stag : DevKind → Stag
  | .dsa (some reg) => {reg}
  | _ => ∅

/-- `hnat_mcast_get_single_dev_pse_bit` -/
def getSingleDevPseBit (dev : IfIndex → Option Dev) (ifindex : IfIndex) : Bmp :=
  match dev ifindex with
  | some d => d.kind.bmp
  | none => ∅

/-- `hnat_mcast_get_pse_tx_bmp`, with the tag bitmap. -/
def getPseTxBmp (dev : IfIndex → Option Dev) (members : List IfIndex) : Bmp × Stag :=
  members.foldl (fun acc ifindex =>
    match dev ifindex with
    | some d => if d.running then (acc.1 ∪ d.kind.bmp, acc.2 ∪ d.kind.stag) else acc
    | none => acc) (∅, ∅)

/-- `hnat_mcast_get_dsa_port` -/
def getDsaPort (dev : IfIndex → Option Dev) (ifindex : IfIndex) : Option ℕ :=
  match dev ifindex with
  | some ⟨.dsa reg, _⟩ => reg
  | _ => none

/-! ## The NPU -/

/-- The address that the NPU is told: that of the flow entry, or zero. -/
def Foe.dst (foe : Foe) : Ip := foe.key.getD (.v4 0)

/-- `npu_mcast_client_insert` for a switch port: 0, -EEXIST, or an error. -/
def npuInsert (hw : Hw) (dst : Ip) (port : ℕ) : Hw × ℤ :=
  if port ∈ hw.npu dst then (hw, -17)
  else if hw.refuse dst port then (hw, -12)
  else ({ hw with npu := Function.update hw.npu dst (insert port (hw.npu dst)) }, 0)

/-- `npu_mcast_client_delete` for a switch port: 0 or -ENOENT. -/
def npuDelete (hw : Hw) (dst : Ip) (port : ℕ) : Hw × ℤ :=
  if port ∈ hw.npu dst then
    ({ hw with npu := Function.update hw.npu dst ((hw.npu dst).erase port) }, 0)
  else (hw, -2)

/-- The ports of the loops over a tag bitmap. -/
def tagPorts (stag : Stag) : List ℕ := (List.range 8).filter fun port => port ∈ stag

/-- `hnat_mcast_npu_delete_multi` -/
def npuDeleteMulti (hw : Hw) (dst : Ip) (stag : Stag) : Hw × ℤ :=
  (tagPorts stag).foldl (fun acc port => npuDelete acc.1 dst port) (hw, 0)

/-- `hnat_mcast_npu_delete_stations`; `port` is that of the interface, if it is a switch port. -/
def npuDeleteStations (cfg : Cfg) (hw : Hw) (dst : Ip) (stag : Stag) (port : Option ℕ) : Hw × ℤ :=
  if cfg.npu then
    match port with
    | some port => npuDelete hw dst (port % 2 ^ 8)
    | none => npuDeleteMulti hw dst stag
  else (hw, 0)

/-- What an answer of the NPU to an insert does to the group. -/
def Group.inserted (cfg : Cfg) (group : Group) (dst : Ip) (ret : ℤ) : Group :=
  if ret = 0 then { group with npuGrpIdx := some (cfg.npuIdx dst) } else { group with offload := false }

/-- `hnat_mcast_npu_add_multi` -/
def npuAddMulti (cfg : Cfg) (group : Group) (hw : Hw) (dst : Ip) (stag : Stag) : Group × Hw × ℤ :=
  (tagPorts stag).foldl (fun acc port =>
    let (hw, ret) := npuInsert acc.2.1 dst port
    (acc.1.inserted cfg dst ret, hw, ret)) (group, hw, 0)

/-- `hnat_mcast_npu_add_stations` -/
def npuAddStations (cfg : Cfg) (group : Group) (hw : Hw) (dst : Ip) (stag : Stag)
    (port : Option ℕ) (bmp : Bmp) : Group × Hw × ℤ :=
  if cfg.npu then
    match port with
    | some port =>
      let (hw, ret) := npuInsert hw dst (port % 2 ^ 8)
      let ret := if ret = -17 then 0 else ret
      (group.inserted cfg dst ret, hw, ret)
    | none => if isSingle bmp then (group, hw, 0) else npuAddMulti cfg group hw dst stag
  else (group, hw, 0)

/-- The type of a notification of the bridge. -/
inductive Mdb where
  | new
  | del
  deriving DecidableEq, Repr

/-- A bitmap of more than one port. -/
def isMulti (bmp : Bmp) : Bool := !isSingle bmp && bmp ≠ ∅

/-- `hnat_mcast_npu_update` -/
def npuUpdate (cfg : Cfg) (group : Group) (hw : Hw) (dst : Ip) (stag : Stag) (bmp : Bmp)
    (type : Mdb) (port : Option ℕ) : Group × Hw × ℤ :=
  let inPre := decide (Port.gdma1 ∈ group.psebmp)
  let inCur := decide (Port.gdma1 ∈ bmp)
  match type with
  | .new =>
    if inCur && isMulti bmp then
      if inPre && isMulti group.psebmp && port.isNone then (group, hw, 0)
      else npuAddStations cfg group hw dst stag port bmp
    else (group, hw, 0)
  | .del =>
    if isSingle bmp then
      if inPre && isMulti group.psebmp then
        let (hw, ret) := npuDeleteStations cfg hw dst stag port
        (group, hw, ret)
      else (group, hw, 0)
    else
      match port with
      | some port =>
        if (inCur || inPre) && cfg.npu then
          let (hw, ret) := npuDelete hw dst (port % 2 ^ 8)
          (group, hw, ret)
        else (group, hw, 0)
      | none => (group, hw, 0)

/-! ## Updates of a bound group -/

/-- The row and the flow entry for a bitmap: `hnat_mcast_foe_mtbl_update` and, without the NPU as
destination, the same steps of `hnat_mcast_npu_gsw_handle`. -/
def foeMtblUpdate (cfg : Cfg) (group : Group) (hw : Hw) (ref : FoeRef) (bmp : Bmp)
    (toNpu : Bool) : Group × Hw :=
  if isSingle bmp then
    mtblTeardown group (hw.set ref (foeMcDisable (hw.get ref) bmp))
  else
    match mtblSetup cfg group hw ref bmp toNpu with
    | (group, hw, true) => (group, hw.set ref (foeMcEnable (hw.get ref) toNpu))
    | (group, hw, false) => (group, hw)

/-- `hnat_mcast_npu_gsw_handle` -/
def npuGswHandle (cfg : Cfg) (group : Group) (hw : Hw) (ref : FoeRef) (bmp : Bmp) :
    Group × Hw × ℤ :=
  let (group, hw) := foeMtblUpdate cfg group hw ref bmp false
  ({ group with psebmp := bmp }, hw, 0)

/-- `hnat_mcast_npu_dsa_handle` -/
def npuDsaHandle (cfg : Cfg) (dev : IfIndex → Option Dev) (group : Group) (hw : Hw) (ref : FoeRef)
    (stag : Stag) (bmp : Bmp) (type : Mdb) (ifindex : IfIndex) : Group × Hw × ℤ :=
  let hw := hw.set ref (foeStagUpdate (hw.get ref) stag)
  let (group, hw, ret) := npuUpdate cfg group hw (hw.get ref).dst stag bmp type
    (getDsaPort dev ifindex)
  let (group, hw) := foeMtblUpdate cfg group hw ref bmp true
  ({ group with psebmp := bmp }, hw, ret)

/-- `hnat_mcast_no_npu_teardown_group` -/
def noNpuTeardownGroup (cfg : Cfg) (group : Group) (hw : Hw) : Group × Hw × ℤ :=
  let (group, hw) := mtblTeardown group (entryDelete cfg hw group.ppeId group.foeIdx)
  (group.unbind, hw, -1)

/-- `hnat_mcast_no_npu_gsw_multi_eth` -/
def noNpuGswMultiEth (cfg : Cfg) (group : Group) (hw : Hw) (ref : FoeRef) (bmp : Bmp) :
    Group × Hw × ℤ :=
  match mtblSetup cfg group hw ref bmp false with
  | (group, hw, true) =>
    ({ group with psebmp := bmp }, hw.set ref (foeMcEnable (hw.get ref) false), 0)
  | (group, hw, false) => ({ group with psebmp := bmp }, hw, 0)

/-- `hnat_mcast_no_npu_single_gdma` -/
def noNpuSingleGdma (group : Group) (hw : Hw) (ref : FoeRef) (stag : Stag) (bmp : Bmp) :
    Group × Hw × ℤ :=
  let hw := hw.set ref (foeMcDisable (foeStagUpdate (hw.get ref) stag) bmp)
  let (group, hw) := mtblTeardown group hw
  ({ group with psebmp := bmp }, hw, 0)

/-- `hnat_mcast_no_npu_handle`, when there is no NPU; `hnat_mcast_no_npu_multi_handle` is its
first branch. -/
def noNpuHandle (cfg : Cfg) (group : Group) (hw : Hw) (ref : FoeRef) (stag : Stag) (bmp : Bmp) :
    Group × Hw × ℤ :=
  let isWifiOnly := isSingle bmp && Port.tdma ∈ bmp
  let isGdmaOnly := isSingle bmp && !isWifiOnly
  let isMultiEth := isMulti bmp && Port.tdma ∉ bmp
  if isWifiOnly || isMulti bmp then
    if cfg.dsa then noNpuTeardownGroup cfg group hw
    else if isMultiEth then noNpuGswMultiEth cfg group hw ref bmp
    else noNpuTeardownGroup cfg group hw
  else if isGdmaOnly then noNpuSingleGdma group hw ref stag bmp
  else (group, hw, 0)

/-- `hnat_mcast_hw_update` -/
def hwUpdate (cfg : Cfg) (dev : IfIndex → Option Dev) (group : Group) (hw : Hw) (ref : FoeRef)
    (stag : Stag) (bmp : Bmp) (type : Mdb) (ifindex : IfIndex) : Group × Hw × ℤ :=
  if !cfg.npu then noNpuHandle cfg group hw ref stag.toU8 bmp
  else if cfg.dsa then npuDsaHandle cfg dev group hw ref stag.toU8 bmp type ifindex
  else npuGswHandle cfg group hw ref bmp

/-- `hnat_mcast_event_hw_handle` -/
def eventHwHandle (cfg : Cfg) (dev : IfIndex → Option Dev) (group : Group) (hw : Hw) (type : Mdb)
    (ifindex : IfIndex) : Group × Hw :=
  match getHwFoe group with
  | none => (group, hw)
  | some ref =>
    if (hw.get (some ref)).key.isNone then (group, hw)
    else
      let (bmp, stag) := getPseTxBmp dev group.members
      if bmp ≠ ∅ then
        let (group, hw, _) := hwUpdate cfg dev group hw (some ref) stag bmp type ifindex
        (group, hw)
      else (group.unbind, entryDelete cfg hw group.ppeId group.foeIdx)

/-- `hnat_mcast_no_npu_teardown` -/
def noNpuTeardown (cfg : Cfg) (dev : IfIndex → Option Dev) (group : Group) : Bool :=
  let bmp := (getPseTxBmp dev group.members).1
  let isWifiOnly := isSingle bmp && Port.tdma ∈ bmp
  !cfg.npu && (isWifiOnly || isMulti bmp) && group.foeIdx.isNone && group.ppeId.isNone

end Hnat
