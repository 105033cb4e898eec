import Mathlib.Data.List.Infix
import Mathlib.Logic.Relation

/-!
# The network devices that `hnat-detect` reads

What `sysnet.uc` reads of `/sys/class/net`, and the way from a device down to the GMAC roots and
the switch ports on them.
-/

namespace Detect

abbrev Name := List Char

instance : LawfulBEq Name := inferInstance

/-- The directory of a device. -/
structure Dev where
  /-- `of_node/compatible` -/
  compatible : Option Name := none
  /-- `device/of_node/compatible` -/
  deviceCompatible : Option Name := none
  /-- its entries; the one of a lower device is `lower_` and the name of that device -/
  entries : List Name := []
  bridge : Bool := false
  brif : List Name := []
  phydev : Bool := false
  physSwitchId : Option Name := none
  physPortName : Option Name := none

/-- `/sys/class/net`; an entry of a directory has a name, without a slash. -/
structure Net where
  dir : List (Name × Dev)
  named : ∀ x ∈ dir, x.1 ≠ [] ∧ '/' ∉ x.1

namespace Net

variable (g : Net) (roots : List Name)

def devs : List Name := g.dir.map Prod.fst

/-- The directory of a device; there is nothing to read below one that is missing. -/
def dev (d : Name) : Dev := (g.dir.lookup d).getD {}

/-- `is_gmac_root` -/
def isGmacRoot (d : Name) : Bool :=
  (((g.dev d).compatible.filter (· ≠ [])).or (g.dev d).deviceCompatible).any
    fun c => "mediatek,eth-mac".toList <:+: c

/-- `get_gmac_roots` -/
def getGmacRoots : List Name := (g.devs.filter g.isGmacRoot).eraseDups

/-- `get_lower_devs` -/
def getLowerDevs (d : Name) : List Name :=
  (((g.dev d).entries.filter fun n => "lower_".toList <+: n).map (·.drop 6)).eraseDups

/-- `has_phy` -/
def hasPhy (d : Name) : Bool := (g.dev d).phydev

/-- `is_switch_port` -/
def isSwitchPort (d : Name) : Bool :=
  (g.dev d).physSwitchId.isSome && (g.dev d).physPortName.isSome

/-- `get_switch_master_on_gmac`, with the depths that are left -/
def getSwitchMasterOnGmac : ℕ → Name → Option Name
  | 0, _ => none
  | left + 1, d => ((g.getLowerDevs d).find? (· ∈ roots)).or
      ((g.getLowerDevs d).findSome? (getSwitchMasterOnGmac left))

/-- `is_switch_port_on_gmac`: the depths are 0 to 8 -/
def isSwitchPortOnGmac (d : Name) : Bool :=
  g.isSwitchPort d && (g.getSwitchMasterOnGmac roots 9 d).isSome

/-- `resolve_endpoints`, with the depths that are left of 0 to 12 -/
def resolveEndpoints : ℕ → Name → List Name
  | 0, _ => []
  | left + 1, d =>
    if d ∉ g.devs then []
    else if (g.dev d).bridge then ((g.dev d).brif.flatMap (resolveEndpoints left)).eraseDups
    else if g.isSwitchPortOnGmac roots d then [d]
    else if d ∈ roots then [d]
    else ((g.getLowerDevs d).flatMap (resolveEndpoints left)).eraseDups

/-- `resolve_gmac_endpoint` -/
def resolveGmacEndpoint (d : Name) : Option Name :=
  if d ∈ roots then some d
  else if g.isSwitchPort d then g.getSwitchMasterOnGmac roots 9 d else none

/-- `/^([A-Za-z_-]+)[0-9]+$/`, the part in parentheses -/
def stem (port : Name) : Option Name :=
  let isStem := fun c : Char => c.isAlpha || c = '_' || c = '-'
  let digits := port.dropWhile isStem
  if port.takeWhile isStem ≠ [] ∧ digits ≠ [] ∧ digits.all Char.isDigit then
    some (port.takeWhile isStem)
  else none

/-- The loop over the ports of `get_switch_prefix`. -/
def sharedStem : Option Name → List Name → Option Name
  | pref, [] => pref
  | pref, port :: rest =>
    match stem port with
    | none => none
    | some s => if pref.getD s ≠ s then none else sharedStem (some s) rest

/-- `get_switch_prefix` -/
def getSwitchPrefix (ports : List Name) : Option Name :=
  (sharedStem none ports).filter fun pref => g.devs.all fun d => ¬ pref <+: d ∨ g.isSwitchPort d

/-! ## Endpoints -/

/-- A GMAC root. -/
def Root (d : Name) : Prop := d ∈ g.devs ∧ g.isGmacRoot d

/-- A switch port with a chain of lower devices to a GMAC root. -/
def OnGmac (d : Name) : Prop :=
  g.isSwitchPort d ∧ ∃ r, g.Root r ∧ Relation.TransGen (fun a b => b ∈ g.getLowerDevs a) d r

/-- What may be written for HNAT. -/
def Endpoint (d : Name) : Prop := d ∈ g.devs ∧ (g.Root d ∨ g.OnGmac d)

/-- A bridge stands on its members, another device on its lower ones. -/
def Under (a b : Name) : Prop :=
  if (g.dev a).bridge then b ∈ (g.dev a).brif else b ∈ g.getLowerDevs a

/-- A device that the devices of a zone stand on. -/
def Reached (devs : List Name) (e : Name) : Prop :=
  ∃ d ∈ devs, Relation.ReflTransGen g.Under d e

variable {g roots}

lemma mem_getGmacRoots {d : Name} : d ∈ g.getGmacRoots ↔ g.Root d := by
  simp [getGmacRoots, Root]

lemma slash_not_mem {d : Name} (h : d ∈ g.devs) : '/' ∉ d := by
  obtain ⟨x, hx, rfl⟩ := List.mem_map.mp h
  exact (g.named x hx).2

lemma getSwitchMasterOnGmac_chain {left : ℕ} {d r : Name}
    (h : g.getSwitchMasterOnGmac roots left d = some r) :
    r ∈ roots ∧ Relation.TransGen (fun a b => b ∈ g.getLowerDevs a) d r := by
  induction left generalizing d with
  | zero => simp [getSwitchMasterOnGmac] at h
  | succ left ih =>
    rw [getSwitchMasterOnGmac, Option.or_eq_some_iff] at h
    rcases h with h | ⟨-, h⟩
    · exact ⟨by simpa using List.find?_some h, .single (List.mem_of_find?_eq_some h)⟩
    · obtain ⟨l, hl, h⟩ := List.exists_of_findSome?_eq_some h
      obtain ⟨hr, hchain⟩ := ih h
      exact ⟨hr, .head hl hchain⟩

lemma onGmac_of_isSwitchPortOnGmac {d : Name}
    (h : g.isSwitchPortOnGmac g.getGmacRoots d = true) : g.OnGmac d := by
  rw [isSwitchPortOnGmac, Bool.and_eq_true, Option.isSome_iff_exists] at h
  obtain ⟨hport, r, hr⟩ := h
  obtain ⟨hroot, hchain⟩ := getSwitchMasterOnGmac_chain hr
  exact ⟨hport, r, mem_getGmacRoots.mp hroot, hchain⟩

/-- What a device resolves to: devices that it stands on, roots and switch ports on them. -/
lemma resolveEndpoints_spec {left : ℕ} {d e : Name}
    (h : e ∈ g.resolveEndpoints roots left d) :
    Relation.ReflTransGen g.Under d e ∧ e ∈ g.devs ∧
      (g.isSwitchPortOnGmac roots e = true ∨ e ∈ roots) := by
  induction left generalizing d with
  | zero => simp [resolveEndpoints] at h
  | succ left ih =>
    rw [resolveEndpoints] at h
    split_ifs at h with hdev hbridge hport hroot
    · obtain ⟨m, hm, he⟩ := List.mem_flatMap.mp (List.mem_eraseDups.mp h)
      obtain ⟨hunder, hrest⟩ := ih he
      exact ⟨.head (by simpa [Under, hbridge] using hm) hunder, hrest⟩
    · obtain rfl := List.mem_singleton.mp h
      exact ⟨.refl, hdev, .inl hport⟩
    · obtain rfl := List.mem_singleton.mp h
      exact ⟨.refl, hdev, .inr hroot⟩
    · obtain ⟨m, hm, he⟩ := List.mem_flatMap.mp (List.mem_eraseDups.mp h)
      obtain ⟨hunder, hrest⟩ := ih he
      exact ⟨.head (by simpa [Under, hbridge] using hm) hunder, hrest⟩
    · simp at h

lemma resolveGmacEndpoint_root {d r : Name}
    (h : g.resolveGmacEndpoint g.getGmacRoots d = some r) : g.Root r := by
  rw [resolveGmacEndpoint] at h
  split_ifs at h with hroot hport
  · obtain rfl := Option.some.inj h
    exact mem_getGmacRoots.mp hroot
  · exact mem_getGmacRoots.mp (getSwitchMasterOnGmac_chain h).1

/-! ## The prefix of the switch ports -/

lemma stem_prefix {port s : Name} (h : stem port = some s) : s <+: port := by
  unfold stem at h
  dsimp only at h
  split_ifs at h
  obtain rfl := Option.some.inj h
  exact List.takeWhile_prefix _

lemma sharedStem_prefix {pref : Option Name} {ports : List Name} {p : Name}
    (h : sharedStem pref ports = some p) : (∀ q ∈ pref, q = p) ∧ ∀ port ∈ ports, p <+: port := by
  induction ports generalizing pref with
  | nil => exact ⟨fun q hq => Option.some.inj (hq.symm.trans h), by simp⟩
  | cons port rest ih =>
    rw [sharedStem] at h
    split at h
    · cases h
    · rename_i s hs
      split_ifs at h with hpref
      obtain ⟨hp, hrest⟩ := ih h
      obtain rfl := hp s rfl
      refine ⟨fun q hq => ?_, fun x hx => ?_⟩
      · simpa [Option.mem_def.mp hq] using hpref
      · rcases List.mem_cons.mp hx with rfl | hx
        · exact stem_prefix hs
        · exact hrest x hx

lemma getSwitchPrefix_spec {ports : List Name} {p : Name}
    (h : g.getSwitchPrefix ports = some p) :
    (∀ port ∈ ports, p <+: port) ∧ ∀ d ∈ g.devs, p <+: d → g.isSwitchPort d = true := by
  obtain ⟨h, hall⟩ := Option.filter_eq_some_iff.mp h
  refine ⟨( sharedStem_prefix h).2, fun d hd hp => ?_⟩
  have := List.all_eq_true.mp hall d hd
  simpa [hp] using this

end Net

end Detect
