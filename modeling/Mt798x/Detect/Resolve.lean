import Mt798x.Detect.Select

/-!
# The endpoints of a zone

`resolve_endpoints` and `get_switch_master_on_gmac` search to a depth.  What they find is stated
without the search: the ends of the chains of at most so many devices.
-/

namespace Detect

namespace Net

variable (g : Net)

/-- `n` steps of `r` lead from `a` to `b`. -/
def Down (r : Name → Name → Prop) : ℕ → Name → Name → Prop
  | 0, a, b => a = b
  | n + 1, a, b => ∃ c, r a c ∧ Down r n c b

/-- The resolution stops at a device that is no bridge, and that is a root or a switch port with a
root one to nine lower devices down. -/
def Stops (d : Name) : Prop :=
  d ∈ g.devs ∧ ¬ (g.dev d).bridge ∧ (g.Root d ∨ g.isSwitchPort d ∧
    ∃ n < 9, ∃ r, g.Root r ∧ Down (fun a b => b ∈ g.getLowerDevs a) (n + 1) d r)

/-- The resolution passes from a device at which it does not stop to what this one stands on. -/
def Passes (a b : Name) : Prop := a ∈ g.devs ∧ ¬ g.Stops a ∧ g.Under a b

variable {g} {left : ℕ} {d e : Name}

lemma getSwitchMasterOnGmac_isSome {roots : List Name} :
    (g.getSwitchMasterOnGmac roots left d).isSome ↔
      ∃ n < left, ∃ r ∈ roots, Down (fun a b => b ∈ g.getLowerDevs a) (n + 1) d r := by
  induction left generalizing d with
  | zero => simp [getSwitchMasterOnGmac]
  | succ left ih =>
    have hstep : (g.getSwitchMasterOnGmac roots (left + 1) d).isSome ↔
        (∃ l ∈ g.getLowerDevs d, l ∈ roots) ∨
          ∃ l ∈ g.getLowerDevs d, (g.getSwitchMasterOnGmac roots left l).isSome := by
      rw [getSwitchMasterOnGmac, Option.isSome_or, Bool.or_eq_true, List.find?_isSome,
        List.findSome?_isSome_iff]
      simp
    rw [hstep]
    constructor
    · rintro (⟨l, hl, hroot⟩ | ⟨l, hl, h⟩)
      · exact ⟨0, by omega, l, hroot, l, hl, rfl⟩
      · obtain ⟨n, hn, r, hr, hdown⟩ := ih.mp h
        exact ⟨n + 1, by omega, r, hr, l, hl, hdown⟩
    · rintro ⟨n, hn, r, hr, l, hl, hdown⟩
      cases n with
      | zero =>
        obtain rfl : l = r := hdown
        exact .inl ⟨l, hl, hr⟩
      | succ n => exact .inr ⟨l, hl, ih.mpr ⟨n, by omega, r, hr, hdown⟩⟩

lemma stops_iff : g.Stops d ↔ d ∈ g.devs ∧ ¬ (g.dev d).bridge ∧
    (g.isSwitchPortOnGmac g.getGmacRoots d ∨ d ∈ g.getGmacRoots) := by
  simp only [Stops, isSwitchPortOnGmac, Bool.and_eq_true, getSwitchMasterOnGmac_isSome,
    mem_getGmacRoots, or_comm]

/-- The search ends at the first device at which it stops. -/
lemma mem_resolveEndpoints : e ∈ g.resolveEndpoints g.getGmacRoots left d ↔
    g.Stops e ∧ ∃ n < left, Down g.Passes n d e := by
  induction left generalizing d with
  | zero => simp [resolveEndpoints]
  | succ left ih =>
    have hpass (hdev : d ∈ g.devs) (hstop : ¬ g.Stops d) :
        (∃ m, g.Under d m ∧ e ∈ g.resolveEndpoints g.getGmacRoots left m) ↔
          g.Stops e ∧ ∃ n < left + 1, Down g.Passes n d e := by
      constructor
      · rintro ⟨m, hm, he⟩
        obtain ⟨hend, n, hn, hdown⟩ := ih.mp he
        exact ⟨hend, n + 1, by omega, m, ⟨hdev, hstop, hm⟩, hdown⟩
      · rintro ⟨hend, _ | n, hn, hdown⟩
        · obtain rfl : d = e := hdown
          exact absurd hend hstop
        · obtain ⟨m, hm, hdown⟩ := hdown
          exact ⟨m, hm.2.2, ih.mpr ⟨hend, n, by omega, hdown⟩⟩
    have hstay (hstop : g.Stops d) :
        e = d ↔ g.Stops e ∧ ∃ n < left + 1, Down g.Passes n d e := by
      constructor
      · rintro rfl
        exact ⟨hstop, 0, by omega, rfl⟩
      · rintro ⟨-, _ | n, -, hdown⟩
        · exact Eq.symm hdown
        · obtain ⟨m, hm, -⟩ := hdown
          exact absurd hstop hm.2.1
    rw [resolveEndpoints]
    split_ifs with hdev hbridge hport hroot
    · rw [← hpass hdev fun h => h.2.1 hbridge]
      simp [Under, hbridge]
    · rw [List.mem_singleton, hstay (stops_iff.mpr ⟨hdev, hbridge, .inl hport⟩)]
    · rw [List.mem_singleton, hstay (stops_iff.mpr ⟨hdev, hbridge, .inr hroot⟩)]
    · rw [← hpass hdev fun h => (stops_iff.mp h).2.2.elim hport hroot]
      simp [Under, hbridge]
    · -- nothing stands below a device that is missing
      simp only [List.not_mem_nil, false_iff, not_and]
      rintro hend ⟨_ | n, -, hdown⟩
      · obtain rfl : d = e := hdown
        exact hdev hend.1
      · obtain ⟨m, hm, -⟩ := hdown
        exact hdev hm.1

end Net

open Net

/-- The endpoints of a zone: where a chain from a device of the zone first stops, within twelve
steps. -/
theorem mem_zoneEps_iff (g : Net) (devs : List Name) (e : Name) :
    e ∈ zoneEps g devs ↔ g.Stops e ∧ ∃ d ∈ devs, ∃ n ≤ 12, Down g.Passes n d e := by
  rw [zoneEps, List.mem_eraseDups, List.mem_flatMap]
  simp only [mem_resolveEndpoints, Nat.lt_succ_iff]
  constructor
  · rintro ⟨d, hd, hend, n, hn, hdown⟩
    exact ⟨hend, d, hd, n, hn, hdown⟩
  · rintro ⟨hend, d, hd, n, hn, hdown⟩
    exact ⟨d, hd, hend, n, hn, hdown⟩

end Detect
