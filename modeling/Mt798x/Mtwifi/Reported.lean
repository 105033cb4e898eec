import Mt798x.Mtwifi.Slots
import Mt798x.Wireless.Device

/-!
# The interfaces that are reported to netifd

netifd numbers the interfaces that it passes to the handler; `handle_setup` walks over all sections
of the radio, also those that netifd has left out, and counts the numbers on its own.  The two
counts agree as long as the sections that are reported are the first ones of those passed
(`reported_iff`).

This is `handle_setup` for a radio that is enabled and stands in the L1 profile; otherwise it
returns before it makes a call.
-/

namespace Mtwifi

/-! ## What netifd passes -/

/-- The sections `wifi-iface` of the configuration, in its order. -/
structure Sections where
  list : List UciSection
  nodup : (list.map UciSection.name).Nodup
  name_ne : ∀ sec ∈ list, sec.name ≠ ""

def parse_bool (val : Option String) : Option Bool :=
  if val = some "1" ∨ val = some "true" then some true
  else if val = some "0" ∨ val = some "false" then some false
  else none

/-- The words of an option; empty parts have no use here. -/
def parse_array (val : String) : List String :=
  (val.toList.splitOnP Char.isWhitespace).map String.ofList

/-- `parse_attribute_list` of a section.  The schema has no `disabled`; what it has beside the
options of `UciSection` is in `options`. -/
def netifdConfig (options : IfaceConfig) (sec : UciSection) : IfaceConfig :=
  { options with
    mode := sec.mode
    encryption := sec.encryption
    key := sec.key
    ssid := sec.ssid
    disabled := none }

section

variable (cur_devname : String) (options : String → IfaceConfig)

/-- The vifs that `config_init` adds to the device for a section. -/
def config_vifs (sec : UciSection) : List (String × IfaceConfig) :=
  if parse_bool sec.disabled = some true then []
  else ((parse_array sec.device).filter fun dev => dev = cur_devname).map
    fun _ => (sec.name, netifdConfig (options sec.name) sec)

/-- `data.interfaces`, as `wdev_config_init` makes it.  The number of an interface is its position,
from 1 on. -/
def interfaces (disabled_vifs : Finset String) (secs : List UciSection) :
    List (String × IfaceConfig) :=
  (secs.flatMap (config_vifs cur_devname options)).filter fun vif => vif.1 ∉ disabled_vifs

end

/-! ## What is reported -/

/-- `netifd_ifaces`: the interfaces by their names, the last one of a name. -/
def netifdIfaces (ifaces : List (String × IfaceConfig)) (name : String) : Option IfaceConfig :=
  if name = "" then none else ifaces.reverse.lookup name

/-- The calls of `set_vif`, from the number `netifd_idx` on. -/
def setVifCalls : ℕ → List Iface → List (ℕ × String)
  | _, [] => []
  | netifd_idx, iface :: ifaces =>
    match iface.mtwifi_ifname with
    | none => setVifCalls netifd_idx ifaces
    | some calc_ifname =>
      if truthy iface.config.disabled then setVifCalls netifd_idx ifaces
      else (netifd_idx, calc_ifname) :: setVifCalls (netifd_idx + 1) ifaces

/-- The interfaces that `cfg.setup` brings up. -/
def ifupVifs (ifaces : List Iface) : List String :=
  ifaces.filterMap fun iface => if truthy iface.config.disabled then none else iface.mtwifi_ifname

/-- The sections of the radio, each with the interface made of it. -/
def rows (cur_devname : String) (secs : List UciSection) (ifaces : List Iface) :
    List (UciSection × Iface) :=
  (secs.filter fun sec => sec.device = cur_devname).zip ifaces

/-- The right interfaces are reported: `passed` are the names of the sections that netifd passes. -/
structure Reported (passed : List String) (rows : List (UciSection × Iface)) : Prop where
  number : ∀ call ∈ setVifCalls 1 (rows.map Prod.snd), ∃ row ∈ rows,
    row.2.mtwifi_ifname = some call.2 ∧ 1 ≤ call.1 ∧ passed[call.1 - 1]? = some row.1.name
  numbers : ((setVifCalls 1 (rows.map Prod.snd)).map Prod.fst).Nodup
  names : ((setVifCalls 1 (rows.map Prod.snd)).map Prod.snd).Nodup
  once : ∀ row ∈ rows, row.1.name ∈ passed → ∀ ifname, row.2.mtwifi_ifname = some ifname →
    ((setVifCalls 1 (rows.map Prod.snd)).map Prod.snd).count ifname = 1
  leftOut : ∀ row ∈ rows, row.1.name ∉ passed → ∀ ifname, row.2.mtwifi_ifname = some ifname →
    ifname ∉ (setVifCalls 1 (rows.map Prod.snd)).map Prod.snd ∧
      ifname ∉ ifupVifs (rows.map Prod.snd)

/-! ## The two counts -/

lemma filter_isPrefix_iff {α : Type*} (p : α → Bool) (l : List α) :
    l.filter p <+: l ↔ l.Pairwise fun a b => p b → p a := by
  induction l with
  | nil => simp
  | cons a l ih =>
    rw [List.pairwise_cons, ← ih]
    cases ha : p a with
    | true =>
      rw [List.filter_cons_of_pos ha, List.cons_prefix_cons]
      simp
    | false =>
      rw [List.filter_cons_of_neg (by simp [ha])]
      constructor
      · intro h
        have hnil : l.filter p = [] := by
          rcases hl : l.filter p with - | ⟨b, t⟩
          · rfl
          · rw [hl] at h
            have hb : b ∈ l.filter p := by rw [hl]; exact List.mem_cons_self ..
            obtain ⟨rfl, -⟩ := List.cons_prefix_cons.mp h
            rw [(List.mem_filter.mp hb).2] at ha
            cases ha
        rw [hnil]
        refine ⟨fun b hb hp => ?_, List.nil_prefix⟩
        exact absurd (List.mem_filter.mpr ⟨hb, hp⟩) (by rw [hnil]; exact List.not_mem_nil)
      · rintro ⟨hall, -⟩
        have hnil : l.filter p = [] := List.filter_eq_nil_iff.mpr fun b hb hp => by
          cases hall b hb hp
        rw [hnil]
        exact List.nil_prefix

lemma setVifCalls_eq (ifaces : List Iface) (n : ℕ) :
    setVifCalls n ifaces = ((ifupVifs ifaces).zipIdx n).map Prod.swap := by
  induction ifaces generalizing n with
  | nil => rfl
  | cons iface ifaces ih =>
    rw [setVifCalls, ifupVifs, List.filterMap_cons]
    rcases hname : iface.mtwifi_ifname with - | ifname
    · simp [ih, ifupVifs]
    · cases hdis : truthy iface.config.disabled
      · simp [ih, ifupVifs]
      · simp [ih, ifupVifs]

/-- A row is reported or not by what netifd makes of its section: a section that is passed has no
option `disabled`, and those passed and named come in the order in which they are passed. -/
structure Passing (passed : List String) (rows : List (UciSection × Iface)) : Prop where
  nodup : (rows.map fun row => row.1.name).Nodup
  enabled : ∀ row ∈ rows, row.1.name ∈ passed → row.2.config.disabled = none
  disabled : ∀ row ∈ rows, row.1.name ∉ passed → row.2.config.disabled = row.1.disabled
  order : (passed.filter fun name =>
      rows.any fun row => row.1.name = name ∧ row.2.mtwifi_ifname.isSome) =
    (rows.filter fun row => row.1.name ∈ passed ∧ row.2.mtwifi_ifname.isSome).map
      fun row => row.1.name

/-- When the right interfaces are reported, said of the rows. -/
structure RowSafe (passed : List String) (rows : List (UciSection × Iface)) : Prop where
  leftOut : ∀ row ∈ rows, row.2.mtwifi_ifname.isSome → row.1.name ∉ passed →
    truthy row.1.disabled = true
  leading : passed.Pairwise fun a b =>
    (rows.any fun row => row.1.name = b ∧ row.2.mtwifi_ifname.isSome) →
      rows.any fun row => row.1.name = a ∧ row.2.mtwifi_ifname.isSome
  distinct : ∀ row ∈ rows, ∀ row' ∈ rows, row ≠ row' →
    row.2.mtwifi_ifname = row'.2.mtwifi_ifname → row.2.mtwifi_ifname.isSome →
      row.1.name ∉ passed

section

variable {passed : List String} {rows : List (UciSection × Iface)}

/-- The rows that are to be reported. -/
def due (passed : List String) (rows : List (UciSection × Iface)) : List (UciSection × Iface) :=
  rows.filter fun row => row.1.name ∈ passed ∧ row.2.mtwifi_ifname.isSome

def ifnameOf (row : UciSection × Iface) : String := row.2.mtwifi_ifname.getD ""

lemma mem_due {row : UciSection × Iface} : row ∈ due passed rows ↔
    row ∈ rows ∧ row.1.name ∈ passed ∧ row.2.mtwifi_ifname.isSome := by
  rw [due, List.mem_filter, decide_eq_true_eq]

lemma ifname_of_due {row : UciSection × Iface} (h : row ∈ due passed rows) :
    row.2.mtwifi_ifname = some (ifnameOf row) := by
  obtain ⟨ifname, hname⟩ := Option.isSome_iff_exists.mp (mem_due.mp h).2.2
  rw [ifnameOf, hname]
  rfl

lemma names_eq :
    (setVifCalls 1 (rows.map Prod.snd)).map Prod.snd = ifupVifs (rows.map Prod.snd) := by
  rw [setVifCalls_eq, List.map_map]
  exact List.zipIdx_map_fst 1 _

lemma mem_calls {k : ℕ} {ifname : String} : (k, ifname) ∈ setVifCalls 1 (rows.map Prod.snd) ↔
    1 ≤ k ∧ (ifupVifs (rows.map Prod.snd))[k - 1]? = some ifname := by
  rw [setVifCalls_eq, List.mem_map]
  constructor
  · rintro ⟨⟨name, j⟩, hmem, heq⟩
    obtain ⟨rfl, rfl⟩ := Prod.mk.inj heq
    exact List.mem_zipIdx_iff_le_and_getElem?_sub.mp hmem
  · intro h
    exact ⟨(ifname, k), List.mem_zipIdx_iff_le_and_getElem?_sub.mpr h, rfl⟩

/-- Where no other section is reported, the interfaces brought up are those of the sections due. -/
lemma ifupVifs_eq (hp : Passing passed rows) (h : ∀ row ∈ rows, row.2.mtwifi_ifname.isSome →
    row.1.name ∉ passed → truthy row.1.disabled = true) :
    ifupVifs (rows.map Prod.snd) = (due passed rows).map ifnameOf := by
  rw [ifupVifs, List.filterMap_map, due, ← List.filterMap_eq_map, List.filterMap_filter]
  refine List.filterMap_congr fun row hrow => ?_
  by_cases hin : row.1.name ∈ passed
  · rcases hname : row.2.mtwifi_ifname with - | ifname
    · simp [hname]
    · simp [hname, hin, hp.enabled row hrow hin, ifnameOf, truthy]
  · rcases hname : row.2.mtwifi_ifname with - | ifname
    · simp [hname]
    · have htruthy := h row hrow (by rw [hname]; rfl) hin
      simp [hin, hp.disabled row hrow hin, htruthy]

lemma nodup_rows (hp : Passing passed rows) : rows.Nodup := hp.nodup.of_map _

lemma nodup_due (hp : Passing passed rows) (h : RowSafe passed rows) :
    ((due passed rows).map ifnameOf).Nodup := by
  refine List.Nodup.map_on (fun row hrow row' hrow' heq => ?_) ((nodup_rows hp).filter _)
  by_contra hne
  have hdue := mem_due.mp hrow
  refine h.distinct row hdue.1 row' (mem_due.mp hrow').1 hne ?_ hdue.2.2 hdue.2.1
  rw [ifname_of_due hrow, ifname_of_due hrow', heq]

lemma reported_of_safe (hp : Passing passed rows) (h : RowSafe passed rows) :
    Reported passed rows := by
  have hup := ifupVifs_eq hp h.leftOut
  have hnodup := nodup_due hp h
  have hnames : (setVifCalls 1 (rows.map Prod.snd)).map Prod.snd = (due passed rows).map ifnameOf :=
    names_eq.trans hup
  have hleft : ∀ row ∈ rows, row.1.name ∉ passed → ∀ ifname, row.2.mtwifi_ifname = some ifname →
      ifname ∉ (due passed rows).map ifnameOf := by
    intro row hrow hout ifname hname hmem
    obtain ⟨row', hrow', rfl⟩ := List.mem_map.mp hmem
    have hdue := mem_due.mp hrow'
    refine h.distinct row' hdue.1 row hrow ?_ ?_ hdue.2.2 hdue.2.1
    · rintro rfl
      exact hout hdue.2.1
    · rw [ifname_of_due hrow', hname]
  refine ⟨?_, ?_, ?_, ?_, ?_⟩
  · rintro ⟨k, ifname⟩ hcall
    obtain ⟨hk, hget⟩ := mem_calls.mp hcall
    rw [hup, List.getElem?_map, Option.map_eq_some_iff] at hget
    obtain ⟨row, hrow, rfl⟩ := hget
    -- the names of the rows due are the first ones that are passed
    have hpre := (filter_isPrefix_iff _ passed).mpr h.leading
    rw [hp.order] at hpre
    have hat : ((due passed rows).map fun row => row.1.name)[k - 1]? = some row.1.name := by
      rw [List.getElem?_map, hrow]
      rfl
    obtain ⟨hlt, heq⟩ := List.getElem?_eq_some_iff.mp hat
    refine ⟨row, (mem_due.mp (List.mem_of_getElem? hrow)).1,
      ifname_of_due (List.mem_of_getElem? hrow), hk, ?_⟩
    rw [← heq]
    exact List.prefix_iff_getElem?.mp hpre (k - 1) hlt
  · rw [setVifCalls_eq, List.map_map]
    change (((ifupVifs (rows.map Prod.snd)).zipIdx 1).map Prod.snd).Nodup
    rw [List.zipIdx_map_snd]
    exact List.nodup_range'
  · rw [hnames]
    exact hnodup
  · intro row hrow hin ifname hname
    have hdue : row ∈ due passed rows := mem_due.mpr ⟨hrow, hin, by rw [hname]; rfl⟩
    rw [hnames]
    refine List.count_eq_one_of_mem hnodup (List.mem_map.mpr ⟨row, hdue, ?_⟩)
    rw [ifnameOf, hname]
    rfl
  · intro row hrow hout ifname hname
    rw [hnames, hup]
    exact ⟨hleft row hrow hout ifname hname, hleft row hrow hout ifname hname⟩

lemma safe_of_reported (hp : Passing passed rows) (h : Reported passed rows) :
    RowSafe passed rows := by
  have hleft : ∀ row ∈ rows, row.2.mtwifi_ifname.isSome → row.1.name ∉ passed →
      truthy row.1.disabled = true := by
    intro row hrow hname hout
    obtain ⟨ifname, hname⟩ := Option.isSome_iff_exists.mp hname
    by_contra hdis
    refine (h.leftOut row hrow hout ifname hname).2 (List.mem_filterMap.mpr ⟨row.2, ?_, ?_⟩)
    · exact List.mem_map_of_mem hrow
    · rw [hp.disabled row hrow hout, if_neg hdis, hname]
  have hup := ifupVifs_eq hp hleft
  have hnames : (setVifCalls 1 (rows.map Prod.snd)).map Prod.snd = (due passed rows).map ifnameOf :=
    names_eq.trans hup
  have hdistinct : ∀ row ∈ rows, ∀ row' ∈ rows, row ≠ row' →
      row.2.mtwifi_ifname = row'.2.mtwifi_ifname → row.2.mtwifi_ifname.isSome →
        row.1.name ∉ passed := by
    intro row hrow row' hrow' hne heq hsome hin
    have hdue : row ∈ due passed rows := mem_due.mpr ⟨hrow, hin, hsome⟩
    have hmem := List.mem_map_of_mem (f := ifnameOf) hdue
    have hname' : row'.2.mtwifi_ifname = some (ifnameOf row) := by rw [← heq, ifname_of_due hdue]
    by_cases hin' : row'.1.name ∈ passed
    · have hdue' : row' ∈ due passed rows := mem_due.mpr ⟨hrow', hin', by rw [hname']; rfl⟩
      have hnodup := h.names
      rw [hnames] at hnodup
      refine hne (List.inj_on_of_nodup_map hnodup hdue hdue' ?_)
      exact Option.some.inj ((ifname_of_due hdue).symm.trans (heq.trans (ifname_of_due hdue')))
    · refine (h.leftOut row' hrow' hin' _ hname').1 ?_
      rw [hnames]
      exact hmem
  refine ⟨hleft, (filter_isPrefix_iff _ passed).mp ?_, hdistinct⟩
  rw [hp.order]
  refine List.prefix_iff_getElem?.mpr fun m hm => ?_
  have hlt : m < (due passed rows).length := by rwa [List.length_map] at hm
  -- the call with this number is that of the `m`-th row due
  have hcall : (m + 1, ifnameOf (due passed rows)[m]) ∈ setVifCalls 1 (rows.map Prod.snd) := by
    refine mem_calls.mpr ⟨Nat.le_add_left 1 m, ?_⟩
    rw [hup, Nat.add_sub_cancel, List.getElem?_map, List.getElem?_eq_getElem hlt]
    rfl
  obtain ⟨row, hrow, hname, -, hget⟩ := h.number _ hcall
  have hdue : (due passed rows)[m] ∈ due passed rows := List.getElem_mem hlt
  have hsame : (due passed rows)[m] = row := by
    by_contra hne
    have hmem := mem_due.mp hdue
    refine hdistinct _ hmem.1 row hrow hne ?_ hmem.2.2 hmem.2.1
    rw [ifname_of_due hdue, hname]
  rw [List.getElem_map]
  change passed[m]? = some (due passed rows)[m].1.name
  rw [hsame]
  exact hget

end

/-! ## The sections that get a name -/

def aps (own : List UciSection) : List UciSection := own.filter fun sec => sec.mode = some "ap"

def clients (own : List UciSection) : List UciSection := own.filter fun sec => sec.mode = some "sta"

/-- The section is one of the first access points, or the first client. -/
def Served (own : List UciSection) (sec : UciSection) : Prop :=
  sec ∈ (aps own).take (MAX_AP_IDX + 1) ∨ sec ∈ (clients own).take (MAX_APCLI_IDX + 1)

/-- A section of a list, by its place from some index on. -/
def PlacedAt (l : List UciSection) (start bound : ℕ) (sec : UciSection) (n : ℕ) : Prop :=
  start ≤ n ∧ n ≤ bound ∧ l[n - start]? = some sec

variable {l : List UciSection} {bound n start : ℕ} {sec : UciSection}

lemma placedAt_zero : PlacedAt l 0 bound sec n ↔ n ≤ bound ∧ l[n]? = some sec := by
  simp [PlacedAt]

lemma placedAt_cons {head : UciSection} (hne : sec ≠ head) :
    PlacedAt (head :: l) start bound sec n ↔ PlacedAt l (start + 1) bound sec n := by
  constructor
  · rintro ⟨h1, h2, hget⟩
    obtain ⟨k, hk⟩ : ∃ k, n - start = k + 1 := by
      cases hd : n - start with
      | zero =>
        rw [hd] at hget
        exact absurd (Option.some.inj hget).symm hne
      | succ k => exact ⟨k, rfl⟩
    refine ⟨by omega, h2, ?_⟩
    rw [hk, List.getElem?_cons_succ] at hget
    rwa [show n - (start + 1) = k by omega]
  · rintro ⟨h1, h2, hget⟩
    refine ⟨by omega, h2, ?_⟩
    rwa [show n - start = n - (start + 1) + 1 by omega, List.getElem?_cons_succ]

lemma placedAt_self (h : sec ∉ l) :
    PlacedAt (sec :: l) start bound sec n ↔ n = start ∧ start ≤ bound := by
  constructor
  · rintro ⟨h1, h2, hget⟩
    cases hd : n - start with
    | zero => exact ⟨by omega, by omega⟩
    | succ k =>
      rw [hd, List.getElem?_cons_succ] at hget
      exact absurd (List.mem_of_getElem? hget) h
  · rintro ⟨rfl, h2⟩
    refine ⟨le_rfl, h2, ?_⟩
    rw [Nat.sub_self]
    rfl

lemma not_placedAt (h : sec ∉ l) :
    ¬ PlacedAt l start bound sec n := fun hp => h (List.mem_of_getElem? hp.2.2)

lemma placedAt_of_lt (h : bound < start) : ¬ PlacedAt l start bound sec n := fun hp => by
  have := hp.1
  have := hp.2.1
  omega

/-- The name of an interface is made of the place of its section. -/
lemma numberIfaces_spec { ap_prefix apcli_prefix : String} {cfg : UciSection → IfaceConfig}
    (own : List UciSection) (hmode : ∀ sec ∈ own, (cfg sec).mode = sec.mode) (hnodup : own.Nodup)
    (ap_idx apcli_idx : ℕ) {sec : UciSection} {iface : Iface}
    (hmem : (sec, iface) ∈ own.zip
      (numberIfaces ap_prefix apcli_prefix ap_idx apcli_idx (own.map cfg))) :
    iface.config = cfg sec ∧ ∀ ifname, iface.mtwifi_ifname = some ifname ↔
      (∃ n, PlacedAt (aps own) ap_idx MAX_AP_IDX sec n ∧ ifname = ap_prefix ++ toString n) ∨
      ∃ n, PlacedAt (clients own) apcli_idx MAX_APCLI_IDX sec n ∧
        ifname = apcli_prefix ++ toString n := by
  induction own generalizing ap_idx apcli_idx with
  | nil => cases hmem
  | cons head own ih =>
    obtain ⟨hnot, hnodup⟩ := List.nodup_cons.mp hnodup
    have hrest := fun a b => ih (fun s hs => hmode s (List.mem_cons_of_mem _ hs)) hnodup a b
    have hhead := hmode head (List.mem_cons_self ..)
    have hne : ∀ {l : List Iface}, (sec, iface) ∈ own.zip l → sec ≠ head := by
      rintro l hz rfl
      exact hnot (List.of_mem_zip hz).1
    have hap : head ∉ aps own := fun h => hnot (List.mem_of_mem_filter h)
    have hsta : head ∉ clients own := fun h => hnot (List.mem_of_mem_filter h)
    rw [List.map_cons, numberIfaces, hhead] at hmem
    by_cases hmap : head.mode = some "ap"
    · have hnsta : ¬ head.mode = some "sta" := by rw [hmap]; decide
      have haps : aps (head :: own) = head :: aps own :=
        List.filter_cons_of_pos (by simpa using hmap)
      have hcl : clients (head :: own) = clients own :=
        List.filter_cons_of_neg (by simpa using hnsta)
      rw [if_pos hmap] at hmem
      rw [haps, hcl]
      split at hmem
      · next hle =>
        rcases List.mem_cons.mp hmem with heq | hz
        · obtain ⟨rfl, rfl⟩ := Prod.mk.inj heq
          refine ⟨rfl, fun ifname => ?_⟩
          simp [placedAt_self hap, not_placedAt hsta, hle, eq_comm]
        · simpa only [placedAt_cons (hne hz)] using hrest (ap_idx + 1) apcli_idx hz
      · next hle =>
        rcases List.mem_cons.mp hmem with heq | hz
        · obtain ⟨rfl, rfl⟩ := Prod.mk.inj heq
          refine ⟨rfl, fun ifname => ?_⟩
          simp [placedAt_self hap, not_placedAt hsta, hle]
        · have hmore : ∀ l n, ¬ PlacedAt l ap_idx MAX_AP_IDX sec n :=
            fun l n => placedAt_of_lt (not_le.mp hle)
          simpa [hmore] using hrest ap_idx apcli_idx hz
    · have haps : aps (head :: own) = aps own := List.filter_cons_of_neg (by simpa using hmap)
      rw [if_neg hmap] at hmem
      rw [haps]
      by_cases hmsta : head.mode = some "sta"
      · have hcl : clients (head :: own) = head :: clients own :=
          List.filter_cons_of_pos (by simpa using hmsta)
        rw [if_pos hmsta] at hmem
        rw [hcl]
        split at hmem
        · next hle =>
          rcases List.mem_cons.mp hmem with heq | hz
          · obtain ⟨rfl, rfl⟩ := Prod.mk.inj heq
            refine ⟨rfl, fun ifname => ?_⟩
            simp [placedAt_self hsta, not_placedAt hap, hle, eq_comm]
          · simpa only [placedAt_cons (hne hz)] using hrest ap_idx (apcli_idx + 1) hz
        · next hle =>
          rcases List.mem_cons.mp hmem with heq | hz
          · obtain ⟨rfl, rfl⟩ := Prod.mk.inj heq
            refine ⟨rfl, fun ifname => ?_⟩
            simp [placedAt_self hsta, not_placedAt hap, hle]
          · have hmore : ∀ l n, ¬ PlacedAt l apcli_idx MAX_APCLI_IDX sec n :=
              fun l n => placedAt_of_lt (not_le.mp hle)
            simpa [hmore] using hrest ap_idx apcli_idx hz
      · have hcl : clients (head :: own) = clients own :=
          List.filter_cons_of_neg (by simpa using hmsta)
        rw [if_neg hmsta] at hmem
        rw [hcl]
        rcases List.mem_cons.mp hmem with heq | hz
        · obtain ⟨rfl, rfl⟩ := Prod.mk.inj heq
          exact ⟨rfl, fun ifname => by simp [not_placedAt hap, not_placedAt hsta]⟩
        · exact hrest ap_idx apcli_idx hz

/-! ## The sections that netifd passes -/

lemma netifdIfaces_eq_none {ifaces : List (String × IfaceConfig)} {name : String}
    (h : name ∉ ifaces.map Prod.fst) : netifdIfaces ifaces name = none := by
  rw [netifdIfaces]
  split
  · rfl
  · refine List.lookup_eq_none_iff.mpr fun vif hvif => ?_
    rw [bne_iff_ne]
    rintro rfl
    exact h (List.mem_map_of_mem (List.mem_reverse.mp hvif))

lemma netifdIfaces_mem {ifaces : List (String × IfaceConfig)} {name : String} (hne : name ≠ "")
    (h : name ∈ ifaces.map Prod.fst) :
    ∃ config, netifdIfaces ifaces name = some config ∧ (name, config) ∈ ifaces := by
  rw [netifdIfaces, if_neg hne]
  cases hl : ifaces.reverse.lookup name with
  | none =>
    obtain ⟨vif, hvif, rfl⟩ := List.mem_map.mp h
    have := List.lookup_eq_none_iff.mp hl vif (List.mem_reverse.mpr hvif)
    simp at this
  | some config =>
    obtain ⟨l1, l2, heq, -⟩ := List.lookup_eq_some_iff.mp hl
    refine ⟨config, rfl, List.mem_reverse.mp ?_⟩
    rw [heq]
    exact List.mem_append_right _ (List.mem_cons_self ..)

/-- A list of words names a text of several words in none of them. -/
lemma filter_parse_array_self (s : String) :
    (parse_array s).filter (fun dev => dev = s) = [s] ∨
      (parse_array s).filter (fun dev => dev = s) = [] := by
  by_cases hws : ∀ ch ∈ s.toList, ch.isWhitespace = false
  · left
    rw [parse_array, List.splitOnP_eq_singleton hws]
    simp
  · right
    have hpart : ∀ (l t : List Char), t ∈ l.splitOnP Char.isWhitespace →
        ∀ ch ∈ t, ch.isWhitespace = false := by
      intro l
      induction l with
      | nil =>
        intro t ht
        rw [List.splitOnP_nil, List.mem_singleton] at ht
        rw [ht]
        exact fun ch hch => absurd hch List.not_mem_nil
      | cons a l ih =>
        intro t ht
        rw [List.splitOnP_cons_eq_if_modifyHead] at ht
        split at ht
        · rcases List.mem_cons.mp ht with rfl | ht
          · exact fun ch hch => absurd hch List.not_mem_nil
          · exact ih t ht
        · next ha =>
          rcases hsplit : l.splitOnP Char.isWhitespace with - | ⟨u, us⟩
          · exact absurd hsplit (List.splitOnP_ne_nil _ l)
          · rw [hsplit] at ht ih
            rcases List.mem_cons.mp ht with rfl | ht
            · exact List.forall_mem_cons.mpr ⟨by simpa using ha, ih u (List.mem_cons_self ..)⟩
            · exact ih t (List.mem_cons_of_mem _ ht)
    refine List.filter_eq_nil_iff.mpr fun dev hdev heq => hws ?_
    obtain ⟨t, ht, rfl⟩ := List.mem_map.mp hdev
    rw [← of_decide_eq_true heq, String.toList_ofList]
    exact hpart _ t ht

lemma flatMap_ite {α β : Type*} (c : α → Prop) [DecidablePred c] (f : α → β) (l : List α) :
    (l.flatMap fun a => if c a then [f a] else []) = (l.filter fun a => c a).map f := by
  induction l with
  | nil => rfl
  | cons a l ih =>
    rw [List.flatMap_cons, ih]
    by_cases h : c a <;> simp [h]

lemma Sections.eq_of_name {secs : Sections} {sec' : UciSection} (h : sec ∈ secs.list)
    (h' : sec' ∈ secs.list) (heq : sec.name = sec'.name) : sec = sec' :=
  List.inj_on_of_nodup_map secs.nodup h h' heq

/-- What a setup of a radio depends on: the configuration, the options of the sections that the
setup does not look at, what netifd has left out because of the networks, and the prefixes of the
L1 profile. -/
structure Setup where
  cur_devname : String
  ext_ifname : Option String
  apcli_ifname : Option String
  options : String → IfaceConfig
  disabled_vifs : Finset String
  secs : Sections

/-- The prefix of clients, which the L1 profile gives. -/
def apcliPrefix (apcli_ifname : Option String) : String :=
  if truthy apcli_ifname then cstr apcli_ifname else "apcli"

namespace Setup

variable (r : Setup)

def interfaces : List (String × IfaceConfig) :=
  Mtwifi.interfaces r.cur_devname r.options r.disabled_vifs r.secs.list

/-- The names of the sections that netifd passes. -/
def passed : List String := r.interfaces.map Prod.fst

/-- The names that netifd passes for one section. -/
def passedNames (sec : UciSection) : List String :=
  ((config_vifs r.cur_devname r.options sec).filter fun vif => vif.1 ∉ r.disabled_vifs).map Prod.fst

/-- The sections of this radio alone. -/
def own : List UciSection := r.secs.list.filter fun sec => sec.device = r.cur_devname

/-- The options of the interface that is made of a section. -/
def configOf (sec : UciSection) : IfaceConfig :=
  (netifdIfaces r.interfaces sec.name).getD sec.config

/-- The interfaces that `handle_setup` makes of the configuration and of what netifd passes. -/
def ifaces : List Iface :=
  handle_setup r.cur_devname r.ext_ifname r.apcli_ifname (netifdIfaces r.interfaces) r.secs.list

/-- The rows of the radio. -/
def rows : List (UciSection × Iface) := Mtwifi.rows r.cur_devname r.secs.list r.ifaces

variable {r}

lemma map_interfaces (r : Setup) :
    r.interfaces.map Prod.fst = r.secs.list.flatMap r.passedNames := by
  rw [interfaces, Mtwifi.interfaces, List.filter_flatMap, List.map_flatMap]
  rfl

variable {sec : UciSection}

lemma mem_config_vifs {vif : String × IfaceConfig}
    (h : vif ∈ config_vifs r.cur_devname r.options sec) :
    vif = (sec.name, netifdConfig (r.options sec.name) sec) := by
  rw [config_vifs] at h
  split at h
  · cases h
  · obtain ⟨_, -, rfl⟩ := List.mem_map.mp h
    rfl

lemma mem_passedNames {name : String} (h : name ∈ r.passedNames sec) : name = sec.name := by
  obtain ⟨vif, hvif, rfl⟩ := List.mem_map.mp h
  rw [mem_config_vifs (List.mem_of_mem_filter hvif)]

lemma passedNames_own {sec : UciSection} (h : sec.device = r.cur_devname) :
    r.passedNames sec = [sec.name] ∨ r.passedNames sec = [] := by
  rw [passedNames, config_vifs]
  split
  · exact .inr rfl
  · rw [← h]
    rcases filter_parse_array_self sec.device with heq | heq
    · rw [heq]
      by_cases hd : sec.name ∈ r.disabled_vifs
      · right
        simp [hd]
      · left
        simp [hd]
    · rw [heq]
      exact .inr rfl

lemma mem_interfaces_iff (h : sec ∈ r.secs.list) :
    sec.name ∈ r.interfaces.map Prod.fst ↔ sec.name ∈ r.passedNames sec := by
  rw [map_interfaces, List.mem_flatMap]
  constructor
  · rintro ⟨sec', hsec', hmem⟩
    rwa [← Sections.eq_of_name h hsec' (mem_passedNames hmem)] at hmem
  · exact fun hmem => ⟨sec, h, hmem⟩

/-! ## The rows of a radio -/

lemma mem_own : sec ∈ r.own ↔ sec ∈ r.secs.list ∧ sec.device = r.cur_devname := by
  rw [own, List.mem_filter, decide_eq_true_eq]

lemma nodup_own (r : Setup) : (r.own.map UciSection.name).Nodup :=
  r.secs.nodup.sublist (List.filter_sublist.map _)

lemma length_numberIfaces { ap_prefix apcli_prefix : String} (configs : List IfaceConfig)
    (ap_idx apcli_idx : ℕ) :
    (numberIfaces ap_prefix apcli_prefix ap_idx apcli_idx configs).length = configs.length := by
  induction configs generalizing ap_idx apcli_idx with
  | nil => rfl
  | cons config configs ih =>
    rw [numberIfaces]
    split_ifs <;> exact congrArg (· + 1) (ih _ _)

lemma configOf_passed (h : sec ∈ r.secs.list) (hin : sec.name ∈ r.passed) :
    r.configOf sec = netifdConfig (r.options sec.name) sec := by
  obtain ⟨config, heq, hmem⟩ := netifdIfaces_mem (r.secs.name_ne sec h) hin
  rw [configOf, heq]
  obtain ⟨sec', hsec', hvif⟩ := List.mem_flatMap.mp (List.mem_of_mem_filter hmem)
  obtain ⟨hname, rfl⟩ := Prod.mk.inj (mem_config_vifs hvif)
  rw [Sections.eq_of_name h hsec' hname]
  rfl

lemma configOf_leftOut (hout : sec.name ∉ r.passed) : r.configOf sec = sec.config := by
  rw [configOf, netifdIfaces_eq_none hout]
  rfl

lemma configOf_mode (h : sec ∈ r.secs.list) : (r.configOf sec).mode = sec.mode := by
  by_cases hin : sec.name ∈ r.passed
  · rw [configOf_passed h hin]
    rfl
  · rw [configOf_leftOut hin]
    rfl

lemma rows_eq (r : Setup) : r.rows =
    r.own.zip (numberIfaces (apPrefix r.ext_ifname) (apcliPrefix r.apcli_ifname) 0 0
      (r.own.map r.configOf)) := rfl

lemma map_fst_rows (r : Setup) : r.rows.map Prod.fst = r.own := by
  rw [rows_eq]
  refine List.map_fst_zip ?_
  rw [length_numberIfaces, List.length_map]

lemma mem_own_of_row {row : UciSection × Iface} (h : row ∈ r.rows) : row.1 ∈ r.own := by
  have := List.mem_map_of_mem (f := Prod.fst) h
  rwa [map_fst_rows] at this

lemma exists_row (h : sec ∈ r.own) : ∃ iface, (sec, iface) ∈ r.rows := by
  have hsec := h
  rw [← map_fst_rows] at hsec
  obtain ⟨row, hrow, rfl⟩ := List.mem_map.mp hsec
  exact ⟨row.2, hrow⟩

lemma nodup_names (r : Setup) : (r.rows.map fun row => row.1.name).Nodup := by
  have := nodup_own r
  rwa [← map_fst_rows, List.map_map] at this

lemma row_spec {row : UciSection × Iface} (h : row ∈ r.rows) :
    row.2.config = r.configOf row.1 ∧
      ∀ ifname, row.2.mtwifi_ifname = some ifname ↔
        (∃ n ≤ MAX_AP_IDX, (aps r.own)[n]? = some row.1 ∧
          ifname = apPrefix r.ext_ifname ++ toString n) ∨
        ∃ n ≤ MAX_APCLI_IDX, (clients r.own)[n]? = some row.1 ∧
          ifname = apcliPrefix r.apcli_ifname ++ toString n := by
  rw [rows_eq] at h
  have hspec := numberIfaces_spec r.own
    (fun sec hsec => configOf_mode (mem_own.mp hsec).1) ((nodup_own r).of_map _) 0 0 h
  simpa only [placedAt_zero, and_assoc] using hspec

lemma isSome_iff_served {row : UciSection × Iface} (h : row ∈ r.rows) :
    row.2.mtwifi_ifname.isSome ↔ Served r.own row.1 := by
  have htake : ∀ (l : List UciSection) (bound : ℕ), row.1 ∈ l.take (bound + 1) ↔
      ∃ n ≤ bound, l[n]? = some row.1 := by
    intro l bound
    rw [List.mem_iff_getElem?]
    constructor
    · rintro ⟨n, hn⟩
      rw [List.getElem?_take] at hn
      split at hn
      · exact ⟨n, by omega, hn⟩
      · cases hn
    · rintro ⟨n, hle, hn⟩
      exact ⟨n, by rw [List.getElem?_take_of_lt (by omega)]; exact hn⟩
  rw [Option.isSome_iff_exists, Served, htake, htake]
  constructor
  · rintro ⟨ifname, hname⟩
    exact (((row_spec h).2 ifname).mp hname).imp (fun ⟨n, hle, hget, _⟩ => ⟨n, hle, hget⟩)
      fun ⟨n, hle, hget, _⟩ => ⟨n, hle, hget⟩
  · rintro (⟨n, hle, hget⟩ | ⟨n, hle, hget⟩)
    · exact ⟨_, ((row_spec h).2 _).mpr (.inl ⟨n, hle, hget, rfl⟩)⟩
    · exact ⟨_, ((row_spec h).2 _).mpr (.inr ⟨n, hle, hget, rfl⟩)⟩

lemma any_row_iff {name : String} :
    (r.rows.any fun row => row.1.name = name ∧ row.2.mtwifi_ifname.isSome) = true ↔
      ∃ sec ∈ r.own, Served r.own sec ∧ sec.name = name := by
  rw [List.any_eq_true]
  constructor
  · rintro ⟨row, hrow, h⟩
    obtain ⟨hname, hsome⟩ := of_decide_eq_true h
    exact ⟨row.1, mem_own_of_row hrow, (isSome_iff_served hrow).mp hsome, hname⟩
  · rintro ⟨sec, hsec, hserved, hname⟩
    obtain ⟨iface, hrow⟩ := exists_row hsec
    exact ⟨_, hrow, decide_eq_true ⟨hname, (isSome_iff_served hrow).mpr hserved⟩⟩

/-- The sections passed and named come in the order in which they are passed. -/
lemma order_rows (q : String → Bool)
    (hq : ∀ name, q name = true → ∃ sec ∈ r.own, sec.name = name) :
    r.passed.filter q =
      (r.own.filter fun sec => sec.name ∈ r.passed ∧ q sec.name).map UciSection.name := by
  have hsec : ∀ sec ∈ r.secs.list, (r.passedNames sec).filter q =
      if sec.device = r.cur_devname ∧ sec.name ∈ r.passed ∧ q sec.name = true then [sec.name]
      else [] := by
    intro sec hmem
    by_cases hown : sec.device = r.cur_devname
    · have hin : sec.name ∈ r.passed ↔ sec.name ∈ r.passedNames sec := mem_interfaces_iff hmem
      rcases @passedNames_own r _ hown with h | h
      · rw [h] at hin ⊢
        by_cases hqs : q sec.name = true <;> simp [hown, hin, hqs]
      · rw [h] at hin ⊢
        simp [hin]
    · rw [if_neg fun h => hown h.1]
      refine List.filter_eq_nil_iff.mpr fun name hname hqn => ?_
      rw [mem_passedNames hname] at hqn
      obtain ⟨sec', hown', heq⟩ := hq _ hqn
      obtain ⟨hmem', hdev⟩ := mem_own.mp hown'
      rw [Sections.eq_of_name hmem' hmem heq] at hdev
      exact hown hdev
  rw [passed, map_interfaces, List.filter_flatMap, List.flatMap_congr hsec, flatMap_ite, own,
    List.filter_filter]
  congr 1
  refine List.filter_congr fun sec _ => ?_
  rw [← map_interfaces, ← passed]
  simp only [Bool.decide_and, Bool.and_comm, Bool.decide_eq_true]

/-- What netifd passes and what `handle_setup` makes of it belong together. -/
lemma passing_rows (r : Setup) : Passing r.passed r.rows where
  nodup := r.nodup_names
  enabled row hrow hin := by
    rw [(row_spec hrow).1, configOf_passed (mem_own.mp (mem_own_of_row hrow)).1 hin]
    rfl
  disabled row hrow hout := by
    rw [(row_spec hrow).1, configOf_leftOut hout]
    rfl
  order := by
    have hq : ∀ row ∈ r.rows,
        (r.rows.any fun row' => row'.1.name = row.1.name ∧ row'.2.mtwifi_ifname.isSome) =
        row.2.mtwifi_ifname.isSome := by
      intro row hrow
      rw [Bool.eq_iff_iff, any_row_iff, isSome_iff_served hrow]
      have hown := mem_own.mp (mem_own_of_row hrow)
      constructor
      · rintro ⟨sec, hsec, hserved, hname⟩
        rwa [← Sections.eq_of_name (mem_own.mp hsec).1 hown.1 hname]
      · exact fun hserved => ⟨row.1, mem_own_of_row hrow, hserved, rfl⟩
    rw [order_rows _ fun name hname => by
        obtain ⟨sec, hsec, -, heq⟩ := any_row_iff.mp hname
        exact ⟨sec, hsec, heq⟩,
      ← map_fst_rows, List.filter_map, List.map_map]
    refine congrArg _ (List.filter_congr fun row hrow => ?_)
    simp only [Function.comp_apply, hq row hrow]

/-! ## When the right interfaces are reported -/

/-- A section that gets a name and is left out has an option `disabled`; of those that netifd
passes, the ones that get a name are the first; and the prefixes of the L1 profile do not make the
name of the client that of an access point, unless netifd passes neither. -/
structure ReportSafe ( ap_prefix apcli_prefix : String) (passed : List String)
    (own : List UciSection) : Prop where
  leftOut : ∀ sec ∈ own, Served own sec → sec.name ∉ passed → truthy sec.disabled = true
  leading : passed.Pairwise fun a b => (∃ sec ∈ own, Served own sec ∧ sec.name = b) →
    ∃ sec ∈ own, Served own sec ∧ sec.name = a
  distinct : ∀ n ≤ MAX_AP_IDX, ∀ ap client, (aps own)[n]? = some ap →
    (clients own)[0]? = some client → ap_prefix ++ toString n = apcli_prefix ++ "0" →
      ap.name ∉ passed ∧ client.name ∉ passed

/-- Two rows of one name. -/
lemma distinct_rows (r : Setup) : (∀ row ∈ r.rows, ∀ row' ∈ r.rows, row ≠ row' →
        row.2.mtwifi_ifname = row'.2.mtwifi_ifname → row.2.mtwifi_ifname.isSome →
          row.1.name ∉ r.passed) ↔
    ∀ n ≤ MAX_AP_IDX, ∀ ap client, (aps r.own)[n]? = some ap →
      (clients r.own)[0]? = some client →
        apPrefix r.ext_ifname ++ toString n = apcliPrefix r.apcli_ifname ++ "0" →
          ap.name ∉ r.passed ∧ client.name ∉ r.passed := by
  have hinj : ∀ row ∈ r.rows, ∀ row' ∈ r.rows, row.1 = row'.1 → row = row' :=
    fun row hrow row' hrow' heq =>
    List.inj_on_of_nodup_map r.nodup_names hrow hrow' (congrArg UciSection.name heq)
  constructor
  · intro h n hn ap client hap hclient hname
    have hapmem := List.mem_of_getElem? hap
    have hclmem := List.mem_of_getElem? hclient
    obtain ⟨i, hi⟩ := exists_row (List.mem_of_mem_filter hapmem)
    obtain ⟨j, hj⟩ := exists_row (List.mem_of_mem_filter hclmem)
    have hni := ((row_spec hi).2 _).mpr (.inl ⟨n, hn, hap, rfl⟩)
    have hnj := ((row_spec hj).2 _).mpr (.inr ⟨0, le_rfl, hclient, rfl⟩)
    have hne : (ap, i) ≠ (client, j) := by
      intro heq
      have hmode := of_decide_eq_true (List.mem_filter.mp hapmem).2
      rw [(Prod.mk.inj heq).1, of_decide_eq_true (List.mem_filter.mp hclmem).2] at hmode
      exact absurd hmode (by decide)
    have hsame : i.mtwifi_ifname = j.mtwifi_ifname := by
      rw [hni, hnj, hname]
      rfl
    exact ⟨h _ hi _ hj hne hsame (by rw [hni]; rfl),
      h _ hj _ hi (Ne.symm hne) hsame.symm (by rw [hnj]; rfl)⟩
  · intro h row hrow row' hrow' hne heq hsome
    obtain ⟨ifname, hname⟩ := Option.isSome_iff_exists.mp hsome
    rcases ((row_spec hrow).2 ifname).mp hname with ⟨n, hn, hget, rfl⟩ | ⟨n, hn, hget, rfl⟩
    · rcases ((row_spec hrow').2 _).mp (heq ▸ hname) with
        ⟨m, hm, hget', hpre⟩ | ⟨m, hm, hget', hpre⟩
      · have hnm : n = m := Nat.repr_injective (String.append_right_inj _ |>.mp hpre)
        rw [← hnm, hget] at hget'
        exact absurd (hinj _ hrow _ hrow' (Option.some.inj hget')) hne
      · obtain rfl := Nat.le_zero.mp hm
        exact (h n hn _ _ hget hget' hpre).1
    · obtain rfl := Nat.le_zero.mp hn
      rcases ((row_spec hrow').2 _).mp (heq ▸ hname) with
        ⟨m, hm, hget', hpre⟩ | ⟨m, hm, hget', hpre⟩
      · exact (h m hm _ _ hget' hget hpre.symm).2
      · obtain rfl := Nat.le_zero.mp hm
        exact absurd (hinj _ hrow _ hrow' (Option.some.inj (hget.symm.trans hget'))) hne

/-- When `handle_setup` reports the right interfaces. -/
def Safe (r : Setup) : Prop :=
  ReportSafe (apPrefix r.ext_ifname) (apcliPrefix r.apcli_ifname) r.passed r.own

end Setup

/-- The right interfaces are reported to netifd if and only if the sections that it leaves out are
disabled in the configuration, those that it passes without a name are the last ones, and the
prefixes keep the names apart. -/
theorem reported_iff (r : Setup) : Reported r.passed r.rows ↔ r.Safe := by
  have hrows : Reported r.passed r.rows ↔ RowSafe r.passed r.rows :=
    ⟨safe_of_reported r.passing_rows, reported_of_safe r.passing_rows⟩
  rw [hrows]
  constructor
  · rintro ⟨hleft, hleading, hdistinct⟩
    refine ⟨fun sec hsec hserved hout => ?_, ?_, r.distinct_rows.mp hdistinct⟩
    · obtain ⟨iface, hrow⟩ := Setup.exists_row hsec
      exact hleft _ hrow ((Setup.isSome_iff_served hrow).mpr hserved) hout
    · simpa only [Setup.any_row_iff] using hleading
  · rintro ⟨hleft, hleading, hdistinct⟩
    refine ⟨fun row hrow hsome hout => ?_, ?_, r.distinct_rows.mpr hdistinct⟩
    · exact hleft row.1 (Setup.mem_own_of_row hrow) ((Setup.isSome_iff_served hrow).mp hsome) hout
    · simpa only [Setup.any_row_iff] using hleading

/-- Two access points of `radio0`, of which the first one's network is disabled. -/
def twoAps : Setup where
  cur_devname := "radio0"
  ext_ifname := some "ra"
  apcli_ifname := some "apcli"
  options := fun _ => {}
  disabled_vifs := { "guest"}
  secs.list := [
    { name := "guest", device := "radio0", mode := some "ap" },
    { name := "home", device := "radio0", mode := some "ap" }]
  secs.nodup := by decide
  secs.name_ne := by decide

/-- netifd passes the second one, with the number 1; the first one is reported under it. -/
theorem not_reported_twoAps : ¬ Reported twoAps.passed twoAps.rows := by
  intro h
  have hguest : twoAps.secs.list[0] ∈ twoAps.own := List.mem_cons_self ..
  have hserved : Served twoAps.own twoAps.secs.list[0] := .inl (List.mem_cons_self ..)
  have hout : twoAps.secs.list[0].name ∉ twoAps.passed := by decide +kernel
  obtain ⟨iface, hrow⟩ := Setup.exists_row hguest
  have hdisabled : truthy twoAps.secs.list[0].disabled = true :=
    (safe_of_reported twoAps.passing_rows h).leftOut _ hrow
      ((Setup.isSome_iff_served hrow).mpr hserved) hout
  exact absurd hdisabled (by decide)

end Mtwifi
