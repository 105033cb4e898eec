import Mt798x.Wireless.LifeCycle

/-!
# The links of a wireless device

A device brings the links of its interfaces up when it is set up, and takes them down when it has
been torn down, each time for what has been reported since its configuration was built last.  A link
is up if the last call for it said so.  When this agrees with the state of the device, after every
event of a run, is a condition on the steps of the run (`links_balanced_iff`).
-/

namespace Wireless

open Runs Objects World

/-- The keys of the vifs and vlans of a configuration, with what they are configured as. -/
def HandlerConfig.keys (config : HandlerConfig) : List (String × IfConfig) :=
  config.interfaces.flatMap fun vif =>
    (vif.name, vif.config) :: vif.vlan.map fun vlan => (vif.name ++ "/" ++ vlan.name, vlan.config)

/-- The pairs that are handled when the device comes up or goes down. -/
def Wdev.handled (d : Wdev) (net ifname : String) : Prop :=
  ∃ e ∈ d.handler_data, e.2.ifname = some ifname ∧ ∃ c ∈ e.2.config, net ∈ c.network

/-- The pairs that have been reported for a vif or vlan of the current configuration. -/
def Wdev.reported (d : Wdev) (net ifname : String) : Prop :=
  ∃ e ∈ d.handler_data, e.2.ifname = some ifname ∧
    ∃ c ∈ e.2.config, (e.1, c) ∈ d.handler_config.keys ∧ net ∈ c.network

lemma Wdev.reported.handled {d : Wdev} {net ifname : String} (h : d.reported net ifname) :
    d.handled net ifname := by
  obtain ⟨e, he, hif, c, hc, -, hnet⟩ := h
  exact ⟨e, he, hif, c, hc, hnet⟩

/-- The last call for a pair says that it is up. -/
def World.live (s : World) (name net ifname : String) : Prop :=
  ((s.links.find? fun e => e.1 = name && e.2.net = net && e.2.ifname = ifname).map
    fun e => e.2.up) = some true

/-- The links after some calls, the first one first. -/
def after (links : List Link) (live : String → String → Prop) (net ifname : String) : Prop :=
  ((links.reverse.find? fun link => link.net = net && link.ifname = ifname).map Link.up).elim
    (live net ifname) (· = true)

/-- The links agree with the state of a device, which may have been removed. -/
def Agree (live : String → String → Prop) : Option Wdev → Prop
  | none => ∀ net ifname, ¬ live net ifname
  | some d => (d.state = .down → ∀ net ifname, ¬ live net ifname) ∧
    (d.state = .up → ∀ net ifname, live net ifname ↔ d.reported net ifname)

/-- The links of all devices agree with their states. -/
def Balanced (s : World) : Prop := ∀ name, Agree (s.live name) (s.devices.lookup name)

/-! ## Calls of `interface_handle_link` -/

section

variable {s : World} {r : Outcome} {name name' : String} {live : String → String → Prop}
  {links : List Link}

@[simp] lemma after_nil : after [] live = live := rfl

lemma live_apply : (s.apply name r).live name = after r.links (s.live name) := by
  funext net ifname
  have hfind : ((r.links.map fun link => (name, link)).reverse.find? fun e =>
      e.1 = name && e.2.net = net && e.2.ifname = ifname) =
      (r.links.reverse.find? fun link => link.net = net && link.ifname = ifname).map
        fun link => (name, link) := by
    rw [← List.map_reverse, List.find?_map]
    congr 2
    funext link
    simp
  rw [World.live, after, World.apply, List.find?_append, hfind]
  cases r.links.reverse.find? fun link => link.net = net && link.ifname = ifname with
  | none => rfl
  | some link => simp

lemma live_apply_ne (h : name' ≠ name) : (s.apply name r).live name' = s.live name' := by
  funext net ifname
  have hfind : ((r.links.map fun link => (name, link)).reverse.find? fun e =>
      e.1 = name' && e.2.net = net && e.2.ifname = ifname) = none := by
    rw [List.find?_eq_none]
    intro e he
    rw [List.mem_reverse, List.mem_map] at he
    obtain ⟨link, -, rfl⟩ := he
    simp [Ne.symm h]
  rw [World.live, World.live, World.apply, List.find?_append, hfind, Option.none_or]

lemma after_iff {up : Bool} (hup : ∀ link ∈ links, link.up = up) {net ifname : String} :
    after links live net ifname ↔
      ((∃ link ∈ links, link.net = net ∧ link.ifname = ifname) ∧ up = true) ∨
      ((¬ ∃ link ∈ links, link.net = net ∧ link.ifname = ifname) ∧ live net ifname) := by
  rw [after]
  cases hfind : links.reverse.find? fun link => link.net = net && link.ifname = ifname with
  | none =>
    rw [List.find?_eq_none] at hfind
    have hnot : ¬ ∃ link ∈ links, link.net = net ∧ link.ifname = ifname := by
      rintro ⟨link, hmem, rfl, rfl⟩
      exact absurd (hfind link (List.mem_reverse.mpr hmem)) (by simp)
    simp [hnot]
  | some link =>
    have hmem := List.mem_reverse.mp (List.mem_of_find?_eq_some hfind)
    have hpair := List.find?_some hfind
    simp only [Bool.and_eq_true, decide_eq_true_eq] at hpair
    have hex : ∃ link ∈ links, link.net = net ∧ link.ifname = ifname := ⟨link, hmem, hpair⟩
    simp [hex, hup link hmem]

lemma handle_links_up {up : Bool} {l : List (String × HData)} :
    ∀ link ∈ (handle_links up l).2, link.up = up := by
  induction l with
  | nil => simp [handle_links]
  | cons e l ih =>
    rw [handle_links]
    cases e.2.ifname with
    | none => exact ih
    | some ifname =>
      cases hcfg : e.2.config with
      | none => simp [handle_link, hcfg]
      | some config =>
        simp only [handle_link, hcfg, Option.map_some, List.mem_append]
        rintro link (hlink | hlink)
        · obtain ⟨net, -, rfl⟩ := List.mem_map.mp hlink
          rfl
        · exact ih link hlink

lemma handle_links_pairs {up : Bool} {l : List (String × HData)} (hok : (handle_links up l).1 = true)
    {net ifname : String} : (∃ link ∈ (handle_links up l).2, link.net = net ∧ link.ifname = ifname) ↔
      ∃ e ∈ l, e.2.ifname = some ifname ∧ ∃ c ∈ e.2.config, net ∈ c.network := by
  induction l with
  | nil => simp [handle_links]
  | cons e l ih =>
    rw [handle_links] at hok ⊢
    cases hif : e.2.ifname with
    | none =>
      rw [hif] at hok
      rw [ih hok]
      simp [hif]
    | some i =>
      rw [hif] at hok
      cases hcfg : e.2.config with
      | none => simp [handle_link, hcfg] at hok
      | some config =>
        simp only [handle_link, hcfg, Option.map_some] at hok
        have hrest := ih hok
        simp only [handle_link, hcfg, Option.map_some, List.mem_append, List.mem_map, List.mem_cons,
          or_and_right, exists_or, exists_eq_left, hif, hrest]
        simp only [Option.some.injEq, Option.mem_def, exists_eq_left']
        constructor
        · rintro (⟨link, ⟨net', hnet', rfl⟩, rfl, rfl⟩ | h)
          · exact Or.inl ⟨rfl, hnet'⟩
          · exact Or.inr h
        · rintro (⟨rfl, hnet⟩ | h)
          · exact Or.inl ⟨_, ⟨net, hnet, rfl⟩, rfl, rfl⟩
          · exact Or.inr h

end

/-! ## One device -/

/-- `setup` of a device that is up or down does nothing. -/
def Refused (d : Wdev) : Prop := d.autostart = false ∨ d.retry_setup_failed = true

/-- No exception is raised when the links are handled. -/
def Handles (d : Wdev) : Prop := ∀ e ∈ d.handler_data, e.2.config = none → e.2.ifname = none

/-- A new configuration is not only built for a device that is up, and stays up, or it reports the
same pairs. -/
def Rebuilds (env : Env) (d : Wdev) : Prop := d.state = .up → Refused d →
  ∀ net ifname, (wdev_config_init env d).reported net ifname ↔ d.reported net ifname

/-- The condition of a check. -/
def Checks (env : Env) (d : Wdev) : Prop :=
  (wdev_update_disabled_vifs env d).config_change = true →
    Rebuilds env (wdev_update_disabled_vifs env d)

/-- The device with new data, before it is checked. -/
def Wdev.updated (d : Wdev) (data : DevData) : Wdev :=
  { wdev_reset { d with data := data, ifindex_cache := fun _ => none, delete := false } with
    config_change := true }

section

variable {d d' : Wdev} {env : Env} {live : String → String → Prop} {r : Outcome}

/-- The links agree with the state of a device after a call. -/
def Fits (live : String → String → Prop) (r : Outcome) : Prop := Agree (after r.links live) r.dev

lemma fits_only : Fits live d.only ↔ Agree live (some d) := Iff.rfl

lemma agree_congr (hstate : d'.state = d.state) (hdata : d'.handler_data = d.handler_data)
    (hconfig : d'.handler_config = d.handler_config) :
    Agree live (some d') ↔ Agree live (some d) := by
  have hreported : ∀ net ifname, d'.reported net ifname ↔ d.reported net ifname := fun net ifname => by
    rw [Wdev.reported, Wdev.reported, hdata, hconfig]
  simp only [Agree, hstate, hreported]

lemma agree_of_state (hdown : d.state ≠ .down) (hup : d.state ≠ .up) : Agree live (some d) :=
  ⟨fun h => absurd h hdown, fun h => absurd h hup⟩

lemma fits_setup : Fits live (setup d) ↔ (Refused d → Agree live (some d)) := by
  rcases setup_cases d with ⟨heq, hwhy⟩ | ⟨-, hauto, hfailed, heq⟩
  · rw [heq, fits_only]
    refine ⟨fun h _ => h, fun h => ?_⟩
    rcases hwhy with hstate | hrefused
    · exact agree_of_state hstate.2 hstate.1
    · exact h hrefused
  · rw [heq]
    refine iff_of_true (agree_of_state (by simp) (by simp)) fun hrefused => ?_
    rcases hrefused with hoff | hfail
    · rw [hauto] at hoff
      cases hoff
    · rw [hfailed] at hfail
      cases hfail

lemma fits_teardown (h : Agree live (some d)) : Fits live (teardown d) := by
  rw [teardown]
  simp only
  split
  · exact (agree_congr rfl rfl rfl).mpr h
  · exact agree_of_state (by simp) (by simp)

lemma fits_rebuild (h : Agree live (some d)) :
    Fits live (setup (wdev_config_init env d)) ↔ Rebuilds env d := by
  rw [fits_setup]
  have hstate : (wdev_config_init env d).state = d.state := rfl
  constructor
  · intro hfits hup hrefused net ifname
    rw [← (hfits hrefused).2 (hstate.trans hup), h.2 hup]
  · intro hrebuilds hrefused
    refine ⟨fun hdown => h.1 (hstate ▸ hdown), fun hup net ifname => ?_⟩
    rw [hrebuilds (hstate ▸ hup) hrefused, h.2 (hstate ▸ hup)]

lemma agree_update_disabled_vifs :
    Agree live (some (wdev_update_disabled_vifs env d)) ↔ Agree live (some d) := by
  obtain ⟨disabled, cache, changed, heq⟩ := update_disabled_vifs_eq env d
  rw [heq]
  exact agree_congr rfl rfl rfl

lemma fits_check (h : Agree live (some d)) : Fits live (check env d) ↔ Checks env d := by
  have h' : Agree live (some (wdev_update_disabled_vifs env d)) := agree_update_disabled_vifs.mpr h
  rw [check, Checks]
  split
  · rename_i hsame
    exact iff_of_true h' fun hchange => absurd hsame (by simp [hchange])
  · rename_i hchange
    rw [fits_rebuild h']
    exact ⟨fun hr _ => hr, fun hr => hr (by simpa using hchange)⟩

lemma fits_update (h : Agree live (some d)) {data : DevData} :
    Fits live (update env (some data) d) ↔ (d.data ≠ data → Checks env (d.updated data)) := by
  rw [update]
  split
  · rename_i hsame
    exact iff_of_true h fun hne => absurd hsame hne
  · rename_i hne
    have h' : Agree live (some (d.updated data)) := (agree_congr rfl rfl rfl).mpr h
    exact (fits_check h').trans ⟨fun hc _ => hc, fun hc => hc hne⟩

lemma fits_start (h : Agree live (some d)) : Fits live (start env d) := by
  rw [start]
  split
  · exact h
  · simp only
    split
    · exact (agree_congr rfl rfl rfl).mpr h
    · rename_i hstate
      have hdown : d.state = .down := not_not.mp hstate
      have h' : Agree live (some (wdev_update_disabled_vifs env
          (wdev_reset { d with autostart := true, started := true }))) :=
        agree_update_disabled_vifs.mpr ((agree_congr rfl rfl rfl).mpr h)
      have hdown' : (wdev_update_disabled_vifs env
          (wdev_reset { d with autostart := true, started := true })).state = .down := by
        obtain ⟨disabled, cache, changed, heq⟩ := update_disabled_vifs_eq env
          (wdev_reset { d with autostart := true, started := true })
        rw [heq]
        exact hdown
      split
      · refine (fits_rebuild h').mpr fun hup => ?_
        rw [hdown'] at hup
        cases hup
      · exact fits_setup.mpr fun _ => h'

lemma fits_stop (h : Agree live (some d)) : Fits live (stop d) := by
  have h' : Agree live (some { d with autostart := false }) := (agree_congr rfl rfl rfl).mpr h
  rw [stop]
  simp only
  split
  · rename_i hstate
    exact agree_of_state (by simp [hstate]) (by simp [hstate])
  · exact fits_teardown h'
  · exact h'

lemma fits_destroy (h : Agree live (some d)) : Fits live (destroy d) := by
  rw [destroy]
  simp only
  split
  · exact fits_stop ((agree_congr rfl rfl rfl).mpr h)
  · rename_i hstate
    exact h.1 (not_not.mp hstate)

lemma handle_links_ok_iff {up : Bool} {l : List (String × HData)} :
    (handle_links up l).1 = true ↔ ∀ e ∈ l, e.2.config = none → e.2.ifname = none := by
  refine ⟨fun hok => ?_, handle_links_ok⟩
  induction l with
  | nil => simp
  | cons e l ih =>
    rw [handle_links] at hok
    cases hif : e.2.ifname with
    | none =>
      rw [hif] at hok
      exact List.forall_mem_cons.mpr ⟨fun _ => hif, ih hok⟩
    | some i =>
      rw [hif] at hok
      cases hcfg : e.2.config with
      | none => simp [handle_link, hcfg] at hok
      | some config =>
        simp only [handle_link, hcfg, Option.map_some] at hok
        refine List.forall_mem_cons.mpr ⟨fun hnone => ?_, ih hok⟩
        rw [hcfg] at hnone
        cases hnone

lemma fits_mark_up (hstate : d.state = .setup) : Fits live (wdev_mark_up d) ↔
    (Handles d → ∀ net ifname, live net ifname ∨ d.handled net ifname → d.reported net ifname) := by
  rw [wdev_mark_up, if_neg (by simp [hstate])]
  simp only
  split
  · rename_i hthrown
    have hnot : ¬ Handles d := fun hd => by
      rw [handle_links_ok hd] at hthrown
      cases hthrown
    exact iff_of_true (agree_of_state (by simp [hstate]) (by simp [hstate])) fun hd => absurd hd hnot
  · rename_i hok
    have hok : (handle_links true d.handler_data).1 = true := by simpa using hok
    have hafter : ∀ net ifname, after (handle_links true d.handler_data).2 live net ifname ↔
        live net ifname ∨ d.handled net ifname := fun net ifname => by
      rw [after_iff handle_links_up, handle_links_pairs hok, ← Wdev.handled]
      by_cases hhandled : d.handled net ifname <;> simp [hhandled]
    rw [Fits, Outcome.after, Wdev.only]
    simp only [List.append_nil]
    constructor
    · intro hagree _ net ifname hpair
      exact (hagree.2 rfl net ifname).mp ((hafter net ifname).mpr hpair)
    · intro hcond
      refine ⟨fun hdown => absurd hdown (by simp), fun _ net ifname => (hafter net ifname).trans ?_⟩
      exact ⟨hcond (handle_links_ok_iff.mp hok) net ifname, fun hr => Or.inr hr.handled⟩

/-- The teardown script ends. -/
lemma fits_teardown_cb (hstate : d.state = .teardown) : Fits live (wdev_teardown_cb d) ↔
    (Handles d → d.delete = true ∨ Refused d →
      ∀ net ifname, live net ifname → d.handled net ifname) := by
  rw [wdev_teardown_cb]
  simp only
  split
  · rename_i hthrown
    have hnot : ¬ Handles d := fun hd => by
      rw [handle_links_ok hd] at hthrown
      cases hthrown
    exact iff_of_true (agree_of_state (by simp [hstate]) (by simp [hstate])) fun hd => absurd hd hnot
  · rename_i hok
    have hok : (handle_links false d.handler_data).1 = true := by simpa using hok
    have hafter : (∀ net ifname, ¬ after (handle_links false d.handler_data).2 live net ifname) ↔
        ∀ net ifname, live net ifname → d.handled net ifname := by
      refine forall_congr' fun net => forall_congr' fun ifname => ?_
      rw [after_iff handle_links_up, handle_links_pairs hok, ← Wdev.handled]
      by_cases hhandled : d.handled net ifname <;> simp [hhandled]
    have hhandles : Handles d := handle_links_ok_iff.mp hok
    split
    · rename_i hdelete
      rw [Fits, Agree, hafter]
      exact ⟨fun hall _ _ => hall, fun hall => hall hhandles (Or.inl hdelete)⟩
    · rename_i hdelete
      have hlinks : ∀ d' : Wdev, (setup d').links = [] := fun d' => by
        rcases setup_cases d' with ⟨heq, -⟩ | ⟨-, -, -, heq⟩ <;> rw [heq]
        rfl
      have hfits : Fits live ((setup { d with handler_data := [], state := .down }).after
          (handle_links false d.handler_data).2) ↔
          Fits (after (handle_links false d.handler_data).2 live)
            (setup { d with handler_data := [], state := .down }) := by
        rw [Fits, Fits, Outcome.after, hlinks]
        simp
      rw [hfits, fits_setup]
      constructor
      · rintro hagree - (hdel | hrefused)
        · exact absurd hdel hdelete
        · exact hafter.mp ((hagree hrefused).1 rfl)
      · intro hcond hrefused
        exact ⟨fun _ => hafter.mpr (hcond hhandles (Or.inr hrefused)),
          fun hup => absurd hup (by simp)⟩

lemma fits_setup_cb (h : Agree live (some d)) : Fits live (wdev_setup_cb env d) ↔
    (d.config_change = true → Rebuilds env d) := by
  rw [wdev_setup_cb]
  split
  · split
    · rename_i hchange
      rw [fits_rebuild h]
      exact ⟨fun hr _ => hr, fun hr => hr hchange.2⟩
    · rename_i hsame
      exact iff_of_true h fun hchange hup => absurd ⟨hup, hchange⟩ hsame
  · rename_i hstate
    have hset : d.state = .setup := not_not.mp hstate
    have hright : d.config_change = true → Rebuilds env d := fun _ hup => by
      rw [hset] at hup
      cases hup
    refine iff_of_true ?_ hright
    split
    · exact fits_teardown ((agree_congr rfl rfl rfl).mpr h)
    · exact fits_teardown ((agree_congr rfl rfl rfl).mpr h)

end

/-! ## Runs -/

/-- The condition on an event. -/
def LinkCond (s : World) : Event → Prop
  | .update name data env => ∀ d, s.devices.lookup name = some d → d.data ≠ data →
      Checks env (d.updated data)
  | .reconf name env => ∀ d, s.devices.lookup name = some d →
      Checks env { wdev_reset d with config_change := true }
  | .check name env => ∀ d, s.devices.lookup name = some d → Checks env d
  | .notify name (.up vif vlan) => ∀ d, s.devices.lookup name = some d → vif = none → vlan = none →
      d.state = .setup → Handles d →
      ∀ net ifname, s.live name net ifname ∨ d.handled net ifname → d.reported net ifname
  | .notify name (.set_data vif vlan ifname) => ∀ d, s.devices.lookup name = some d → d.state = .up →
      ∀ net i, (wdev_set_data vif vlan ifname d).reported net i ↔ d.reported net i
  | .complete name .setup env => (name, .setup) ∈ s.running → ∀ d, s.devices.lookup name = some d →
      d.config_change = true → Rebuilds env d
  | .complete name .teardown _ => (name, .teardown) ∈ s.running →
      ∀ d, s.devices.lookup name = some d → Handles d → d.delete = true ∨ Refused d →
      ∀ net ifname, s.live name net ifname → d.handled net ifname
  | _ => True

section

variable {s s' : World} {name : String} {env : Env}

lemma balanced_call (h : Balanced s) {f : Wdev → Outcome} : Balanced (s.call name f) ↔
    ∀ d, s.devices.lookup name = some d → Fits (s.live name) (f d) := by
  rw [World.call]
  cases hd : s.devices.lookup name with
  | none => exact iff_of_true h fun d hd' => by cases hd'
  | some d =>
    simp only [Option.some.injEq, forall_eq']
    constructor
    · intro hall
      have hself := hall name
      rw [lookup_apply, live_apply] at hself
      exact hself
    · intro hfits name'
      by_cases heq : name' = name
      · subst heq
        rw [lookup_apply, live_apply]
        exact hfits
      · rw [lookup_apply_ne heq, live_apply_ne heq]
        exact h name'

lemma agree_of (h : Balanced s) {d : Wdev} (hd : s.devices.lookup name = some d) :
    Agree (s.live name) (some d) := by
  have hname := h name
  rw [hd] at hname
  exact hname

lemma balanced_call_of (h : Balanced s) {f : Wdev → Outcome}
    (hf : ∀ d, Agree (s.live name) (some d) → Fits (s.live name) (f d)) :
    Balanced (s.call name f) := (balanced_call h).mpr fun d hd => hf d (agree_of h hd)

lemma balanced_call_iff (h : Balanced s) {f : Wdev → Outcome} {cond : Wdev → Prop}
    (hf : ∀ d, s.devices.lookup name = some d → (Fits (s.live name) (f d) ↔ cond d)) :
    (∀ d, s.devices.lookup name = some d → cond d) ↔ Balanced (s.call name f) := by
  rw [balanced_call h]
  exact forall_congr' fun d => ⟨fun hc hd => (hf d hd).mpr (hc hd), fun hc hd => (hf d hd).mp (hc hd)⟩

lemma balanced_next (h : Balanced s) : Balanced (run_next_handler name s) := by
  rw [run_next_handler.eq_def]
  split
  · rename_i op _ _
    intro name'
    cases hd : s.devices.lookup name with
    | none => exact h name'
    | some d =>
      by_cases heq : name' = name
      · subst heq
        simp only
        rw [lookup_put_self]
        have hrun : Agree (s.live name') (some d) ↔ Agree (s.live name') (some (d.run op)) := by
          cases op <;> exact (agree_congr rfl rfl rfl).symm
        exact hrun.mp (agree_of h hd)
      · simp only
        rw [lookup_put_ne heq]
        exact h name'
  · exact h

lemma balanced_new (h : Balanced s) (hnone : s.devices.lookup name = none) {data : DevData} :
    Balanced { s with devices := put s.devices name (new_wdev env name data) } := by
  intro name'
  by_cases heq : name' = name
  · subst heq
    have hlive := h name'
    rw [hnone] at hlive
    simp only
    rw [lookup_put_self, new_wdev]
    refine ⟨fun _ => hlive, fun hup => ?_⟩
    obtain ⟨disabled, cache, changed, heq⟩ := update_disabled_vifs_eq env
      (⟨name', data, true, .down, false, false, false, 0, false, ∅, fun _ => none, ⟨0, [], 0⟩, [], [],
        false, none⟩ : Wdev)
    rw [heq] at hup
    cases hup
  · simp only
    rw [lookup_put_ne heq]
    exact h name'

lemma complete_eq (env : Env) (h : s.All (Inv False False)) {op : Op} (hrun : (name, op) ∈ s.running) :
    ∃ s' : World, run_handler_cb env name op s = s'.call name (handler_cb env op) ∧
      s'.devices = s.devices ∧ s'.links = s.links ∧ s.runs name = some op := by
  have hcur : s.cur = some (name, op) := by
    rw [h.running, Option.mem_toList] at hrun
    exact hrun
  refine ⟨{ s with running := s.running.erase (name, op), cur := none }, ?_, rfl, rfl, ?_⟩
  · rw [run_handler_cb.eq_def, if_neg (by simpa using hrun)]
    simp [hcur]
  · rw [runs_of_cur hcur, if_pos rfl]

/-- One event. -/
lemma linkCond_iff (hall : s.All (Inv False False)) (h : Balanced s) (e : Event) :
    LinkCond s e ↔ Balanced (step s e) := by
  cases e with
  | update name data env =>
    rw [step, update_config_one]
    cases hd : s.devices.lookup name with
    | none => exact iff_of_true (fun d hd' => by rw [hd] at hd'; cases hd') (balanced_new h hd)
    | some d => exact balanced_call_iff h fun d hd => fits_update (agree_of h hd)
  | reconf name env =>
    refine balanced_call_iff h fun d hd => ?_
    have hagree := agree_of h hd
    rw [update]
    exact fits_check ((agree_congr rfl rfl rfl).mpr hagree)
  | start name env => exact iff_of_true trivial (balanced_call_of h fun _ hd => fits_start hd)
  | stop name => exact iff_of_true trivial (balanced_call_of h fun _ hd => fits_stop hd)
  | retry_setup name env =>
    refine iff_of_true trivial (balanced_call_of h fun d hd => ?_)
    rw [retry_setup]
    split
    · exact hd
    · split
      · exact hd
      · exact fits_start hd
  | check name env => exact balanced_call_iff h fun d hd => fits_check (agree_of h hd)
  | destroy name => exact iff_of_true trivial (balanced_call_of h fun _ hd => fits_destroy hd)
  | notify name req =>
    cases req with
    | up vif vlan =>
      refine balanced_call_iff h fun d hd => ?_
      rw [notify]
      split
      · rename_i hargs
        refine iff_of_true (agree_of h hd) fun hvif hvlan hstate => ?_
        subst hvif hvlan
        simp [hstate] at hargs
      · rename_i hargs
        simp only [not_or, Option.not_isSome_iff_eq_none, not_not] at hargs
        rw [fits_mark_up hargs.2.2]
        exact ⟨fun hc _ _ _ => hc, fun hc => hc hargs.1 hargs.2.1 hargs.2.2⟩
    | set_data vif vlan ifname =>
      refine balanced_call_iff h fun d hd => ?_
      have hagree := agree_of h hd
      have hstate : (wdev_set_data vif vlan ifname d).state = d.state := by
        rw [wdev_set_data]
        split <;> rfl
      rw [notify, fits_only]
      constructor
      · intro hnew hup net i
        rw [← hnew.2 (hstate.trans hup), hagree.2 hup]
      · intro hc
        refine ⟨fun hdown => hagree.1 (hstate ▸ hdown), fun hup net i => ?_⟩
        rw [hagree.2 (hstate ▸ hup), hc (hstate ▸ hup)]
    | process_add pid =>
      refine iff_of_true trivial (balanced_call_of h fun d hd => ?_)
      rw [notify]
      split
      · exact hd
      · exact (agree_congr rfl rfl rfl).mpr hd
    | set_retry retry =>
      refine iff_of_true trivial (balanced_call_of h fun d hd => ?_)
      exact (agree_congr rfl rfl rfl).mpr hd
    | other => exact iff_of_true trivial (balanced_call_of h fun d hd => hd)
  | proc_dead name pid =>
    refine iff_of_true trivial (balanced_call_of h fun d hd => ?_)
    rw [proc_dead]
    split
    · exact fits_teardown hd
    · exact hd
  | next name => exact iff_of_true trivial (balanced_next h)
  | complete name op env =>
    by_cases hrun : (name, op) ∈ s.running
    · obtain ⟨s', heq, hdevices, hlinks, hruns⟩ := complete_eq env hall hrun
      have hlive : s'.live name = s.live name := by
        funext net ifname
        rw [World.live, World.live, hlinks]
      have h' : Balanced s' := fun name' => by
        have hname := h name'
        rw [← hdevices] at hname
        have hlive' : s'.live name' = s.live name' := by
          funext net ifname
          rw [World.live, World.live, hlinks]
        rw [hlive']
        exact hname
      rw [step, heq]
      cases op with
      | setup =>
        have hiff : (∀ d, s'.devices.lookup name = some d → d.config_change = true →
            Rebuilds env d) ↔ Balanced (s'.call name (handler_cb env .setup)) :=
          balanced_call_iff h' fun d hd => fits_setup_cb (agree_of h' hd)
        rw [← hiff, hdevices]
        exact ⟨fun hc => hc hrun, fun hc _ => hc⟩
      | teardown =>
        have hstate : ∀ d, s.devices.lookup name = some d → d.state = .teardown := fun d hd => by
          have hslots := ((hall.one name).dev d hd).slots
          rw [hruns] at hslots
          cases hs : d.state <;> rw [hs] at hslots
          · cases hslots.2
          · rcases hslots with hslots | hslots
            · exact absurd rfl hslots.2
            · cases hslots.2
          · exact absurd rfl hslots.2
        have hiff : (∀ d, s'.devices.lookup name = some d → Handles d → d.delete = true ∨ Refused d →
            ∀ net ifname, s'.live name net ifname → d.handled net ifname) ↔
            Balanced (s'.call name (handler_cb env .teardown)) :=
          balanced_call_iff h' fun d hd => fits_teardown_cb (hstate d (hdevices ▸ hd))
        rw [← hiff, hdevices, hlive]
        exact ⟨fun hc => hc hrun, fun hc _ => hc⟩
    · have heq : run_handler_cb env name op s = s := by rw [run_handler_cb.eq_def, if_pos hrun]
      rw [step, heq]
      refine iff_of_true ?_ h
      cases op
      · exact fun hin => absurd hin hrun
      · exact fun hin => absurd hin hrun

end

/-- Exactly when the links agree with the states of the devices in every state of a run. -/
theorem links_balanced_iff (es : List Event) : AllSteps step LinkCond World.init es ↔
    ∀ es1 es2, es = es1 ++ es2 → Balanced (run step World.init es1) := by
  have hinit : Balanced World.init := fun name net ifname hlive => by cases hlive
  have hall : World.init.All (Inv False False) := init_ok
  refine allSteps_iff_states hall hinit ?_ ?_
  · intro s e hall _
    refine step_ok hall ?_
    cases e with
    | notify name req =>
      intro d _
      cases req with
      | up vif vlan => exact fun _ _ _ => ⟨False.elim, False.elim⟩
      | set_data vif vlan ifname => exact False.elim
      | _ => trivial
    | _ => trivial
  · intro s e hall h
    exact linkCond_iff hall h e

/-- A device with one interface in a network. -/
def oneVif (net : String) : DevData := ⟨0, [⟨"wifinet0", ⟨[net], 0⟩, [], 0⟩]⟩

/-- The setup script runs, reports the interface and the device up, and ends. -/
def settingUp : List Event :=
  [.next "radio0", .notify "radio0" (.set_data (some 0) none (some "wlan0")),
    .notify "radio0" (.up none none), .complete "radio0" .setup quiet]

/-- The interface moves to another network while the device is up: it stays linked to the old one. -/
theorem moved_while_up : ¬ Balanced (run step World.init
    (.update "radio0" (oneVif "lan") quiet :: .start "radio0" quiet :: settingUp ++
      .update "radio0" (oneVif "guest") quiet :: settingUp)) := by
  intro h
  generalize hes : (Event.update "radio0" (oneVif "lan") quiet :: .start "radio0" quiet :: settingUp ++
      .update "radio0" (oneVif "guest") quiet :: settingUp) = es at h
  have hdev : ((run step World.init es).devices.lookup "radio0").map
      (fun d => (d.state, d.handler_data)) =
      some (.up, [("wifinet0", ⟨some "wlan0", some ⟨["guest"], 0⟩⟩)]) := by
    subst hes
    decide +kernel
  have hlive : (run step World.init es).live "radio0" "lan" "wlan0" := by
    subst hes
    rw [World.live]
    decide +kernel
  obtain ⟨d, hd, heq⟩ := Option.map_eq_some_iff.mp hdev
  obtain ⟨hup, hdata⟩ := Prod.mk.inj heq
  obtain ⟨e, he, -, c, hc, -, hnet⟩ := ((agree_of h hd).2 hup "lan" "wlan0").mp hlive
  rw [hdata, List.mem_singleton] at he
  subst he
  cases hc
  exact absurd hnet (by decide)

end Wireless
