import Mt798x.Wireless.Handlers

/-!
# The life cycle of a wireless device

What is queued and what runs for a device depends on its state (`Slots`).  With what is known of the
configuration that its last setup script was run with, this is an invariant of each device
(`Inv`), which every call keeps.  It has three strengths: the weakest one needs nothing; if it is
`safe`, a device is not being removed when it is reported up, and no exception leaves it stuck; if it
is `strict`, a device that is reported up has not been stopped (`life_cycle`).
-/

namespace Wireless

open Runs Objects World

/-- What can be queued and what can run for a device in a state; an exception at the end of the
teardown leaves it stuck. -/
def Slots (safe : Prop) : State → Option Op → Option Op → Prop
  | .down, q, c => q = none ∧ c = none
  | .setup, q, c => (q = some .setup ∧ c ≠ some .teardown) ∨ (q = none ∧ c = some .setup)
  | .up, q, c => q ≠ some .teardown ∧ c ≠ some .teardown
  | .teardown, q, c => (q = some .teardown ∧ c ≠ some .teardown) ∨ (q = none ∧ c = some .teardown) ∨
    (¬ safe ∧ q = none ∧ c = none)

/-- What `setup` has to find. -/
structure Pre (safe strict : Prop) (d : Wdev) (q c : Option Op) : Prop where
  slots : Slots safe d.state q c
  failed : d.state = .setup ∨ d.state = .up → d.retry_setup_failed = false
  delete : d.delete = true → d.autostart = false
  alive : safe → d.state = .up → d.delete = false
  gone : d.state = .down → d.delete = false
  reported : safe → ∀ e ∈ d.handler_data, e.2.config = none → e.2.ifname = none
  autostart : strict → d.state = .up → d.autostart = true
  ran_setup : strict → d.state = .setup → q = none →
    d.config_change = true ∨ d.ran = some d.handler_config

/-- The invariant of a device. -/
structure Inv (safe strict : Prop) (d : Wdev) (q c : Option Op) : Prop extends Pre safe strict d q c where
  ran_up : strict → d.state = .up → q = some .setup ∨
    (c = some .setup ∧ (d.config_change = true ∨ d.ran = some d.handler_config)) ∨
    (c = none ∧ d.ran = some d.handler_config)
  started : strict → d.state = .down → d.started = true →
    d.autostart = false ∨ d.retry_setup_failed = true

variable {safe strict : Prop} {d : Wdev} {q c : Option Op} {env : Env}

/-! ## Setup and teardown -/

lemma setup_cases (d : Wdev) :
    (setup d = d.only ∧ ((d.state ≠ .up ∧ d.state ≠ .down) ∨
      d.autostart = false ∨ d.retry_setup_failed = true)) ∨
    ((d.state = .up ∨ d.state = .down) ∧ d.autostart = true ∧ d.retry_setup_failed = false ∧
      setup d =
        ⟨some { d with procs := [], config_change := false, state := .setup }, some .setup, []⟩) := by
  rw [setup]
  split
  · rename_i hstate
    exact Or.inl ⟨rfl, Or.inl hstate⟩
  · rename_i hstate
    split
    · rename_i hrefused
      refine Or.inl ⟨rfl, Or.inr ?_⟩
      simpa using hrefused
    · rename_i hgoes
      refine Or.inr ⟨by tauto, ?_, ?_, rfl⟩
      · simp only [Bool.or_eq_true, not_or] at hgoes
        simpa using hgoes.1
      · simp only [Bool.or_eq_true, not_or] at hgoes
        simpa using hgoes.2

lemma slots_setup (h : Slots safe d.state q c) (hstate : d.state = .up ∨ d.state = .down) :
    Slots safe .setup (some .setup) c := by
  refine Or.inl ⟨rfl, ?_⟩
  rcases hstate with hstate | hstate <;> rw [hstate] at h
  · exact h.2
  · rw [h.2]
    simp

lemma setup_ok (h : Pre safe strict d q c) : (setup d).Ok (Inv safe strict) q c := by
  rcases setup_cases d with ⟨heq, hwhy⟩ | ⟨hstate, hauto, hfailed, heq⟩
  · rw [heq]
    refine ok_only ⟨h, fun hs hup => ?_, fun _ hdown _ => ?_⟩
    · rcases hwhy with hwhy | hoff | hfailed
      · exact absurd hup hwhy.1
      · rw [h.autostart hs hup] at hoff
        cases hoff
      · rw [h.failed (Or.inr hup)] at hfailed
        cases hfailed
    · rcases hwhy with hwhy | hwhy
      · exact absurd hdown hwhy.2
      · exact hwhy
  · rw [heq]
    have hdelete : d.delete ≠ true := fun hdel => by
      rw [h.delete hdel] at hauto
      cases hauto
    refine ok_some ⟨⟨slots_setup h.slots hstate, fun _ => hfailed, h.delete, ?_, ?_, h.reported, ?_, ?_⟩,
      ?_, ?_⟩
    · simp
    · simp
    · simp
    · simp
    · simp
    · simp

lemma slots_teardown (h : Slots safe d.state q c) (hstate : d.state = .up ∨ d.state = .setup) :
    Slots safe .teardown (some .teardown) c := by
  refine Or.inl ⟨rfl, ?_⟩
  rcases hstate with hstate | hstate <;> rw [hstate] at h
  · exact h.2
  · rcases h with h | h
    · exact h.2
    · rw [h.2]
      simp

lemma teardown_ok_of_slots (hstate : d.state = .up ∨ d.state = .setup)
    (hslots : Slots safe .teardown (some .teardown) c) (hdelete : d.delete = true → d.autostart = false)
    (hreported : safe → ∀ e ∈ d.handler_data, e.2.config = none → e.2.ifname = none) :
    (teardown d).Ok (Inv safe strict) q c := by
  have heq : teardown d = ⟨some { d with cancel_setup := false, procs := [], state := .teardown },
      some .teardown, []⟩ := by
    rw [teardown]
    rcases hstate with hstate | hstate <;> simp [hstate]
  rw [heq]
  refine ok_some ⟨⟨hslots, ?_, hdelete, ?_, ?_, hreported, ?_, ?_⟩, ?_, ?_⟩
  all_goals simp

lemma teardown_ok (h : Inv safe strict d q c) : (teardown d).Ok (Inv safe strict) q c := by
  by_cases hstate : d.state = .up ∨ d.state = .setup
  · exact teardown_ok_of_slots hstate (slots_teardown h.slots hstate) h.delete h.reported
  · have heq : teardown d = { d with cancel_setup := false }.only := by
      rw [teardown]
      cases hs : d.state <;> simp_all
    rw [heq]
    exact ok_only ⟨⟨h.slots, h.failed, h.delete, h.alive, h.gone, h.reported, h.autostart,
      h.ran_setup⟩, h.ran_up, h.started⟩

/-! ## Callbacks -/

lemma reported_config_init (h : ∀ e ∈ d.handler_data, e.2.config = none → e.2.ifname = none) :
    ∀ e ∈ (wdev_config_init env d).handler_data, e.2.config = none → e.2.ifname = none := by
  intro e he
  rw [wdev_config_init] at he
  obtain ⟨data, hdata, rfl⟩ := List.mem_map.mp he
  exact h _ (mem_of_lookup (Option.mem_toList.mp hdata))

/-- The setup script ends. -/
lemma wdev_setup_cb_ok (h : Inv safe strict d q (some .setup)) :
    (wdev_setup_cb env d).Ok (Inv safe strict) q none := by
  have hslots := h.slots
  rw [wdev_setup_cb]
  cases hstate : d.state with
  | setup =>
    simp only [ne_eq, not_true_eq_false, if_false]
    split
    · exact teardown_ok_of_slots (Or.inr rfl) (Or.inl ⟨rfl, by simp⟩) h.delete h.reported
    · exact teardown_ok_of_slots (Or.inr rfl) (Or.inl ⟨rfl, by simp⟩) h.delete h.reported
  | down =>
    rw [hstate] at hslots
    cases hslots.2
  | teardown =>
    rw [hstate] at hslots
    have hq : q = some .teardown := by
      rcases hslots with hslots | hslots | hslots
      · exact hslots.1
      · cases hslots.2
      · cases hslots.2.2
    refine ok_only ⟨⟨?_, ?_, h.delete, ?_, ?_, h.reported, ?_, ?_⟩, ?_, ?_⟩
    · rw [hstate]
      exact Or.inl ⟨hq, by simp⟩
    all_goals simp [hstate]
  | up =>
    rw [hstate] at hslots
    have hslots' : Slots safe d.state q none := by
      rw [hstate]
      exact ⟨hslots.1, by simp⟩
    simp only [ne_eq, reduceCtorEq, not_false_eq_true, if_true, true_and]
    split
    · -- the configuration has changed while the script was running
      have hpre : Pre safe strict (wdev_config_init env d) q none :=
        ⟨hslots', h.failed, h.delete, h.alive, h.gone, fun hs => reported_config_init (h.reported hs),
          h.autostart, fun _ hs => by rw [wdev_config_init, hstate] at hs; cases hs⟩
      exact setup_ok hpre
    · rename_i hsame
      refine ok_only ⟨⟨hslots', h.failed, h.delete, h.alive, h.gone, h.reported, h.autostart,
        fun _ hs => by rw [hstate] at hs; cases hs⟩, fun hs hup => ?_,
        fun _ hs => by rw [hstate] at hs; cases hs⟩
      rcases h.ran_up hs hup with hq | ⟨-, hran⟩ | ⟨hc, -⟩
      · exact Or.inl hq
      · exact Or.inr (Or.inr ⟨rfl, hran.resolve_left hsame⟩)
      · cases hc

lemma handle_links_ok {up : Bool} {l : List (String × HData)}
    (h : ∀ e ∈ l, e.2.config = none → e.2.ifname = none) : (handle_links up l).1 = true := by
  induction l with
  | nil => rfl
  | cons e l ih =>
    have hrest := ih fun e' he' => h e' (List.mem_cons_of_mem _ he')
    rw [handle_links]
    cases hif : e.2.ifname with
    | none => exact hrest
    | some ifname =>
      cases hcfg : e.2.config with
      | none =>
        rw [h e List.mem_cons_self hcfg] at hif
        cases hif
      | some config => simpa [handle_link, hcfg] using hrest

/-- The teardown script ends. -/
lemma wdev_teardown_cb_ok (h : Inv safe strict d q (some .teardown)) :
    (wdev_teardown_cb d).Ok (Inv safe strict) q none := by
  have hslots := h.slots
  obtain ⟨hstate, rfl⟩ : d.state = .teardown ∧ q = none := by
    cases hstate : d.state <;> rw [hstate] at hslots
    · cases hslots.2
    · rcases hslots with hslots | hslots
      · exact absurd rfl hslots.2
      · cases hslots.2
    · exact absurd rfl hslots.2
    · rcases hslots with hslots | hslots | hslots
      · exact absurd rfl hslots.2
      · exact ⟨rfl, hslots.1⟩
      · cases hslots.2.2
  rw [wdev_teardown_cb]
  simp only
  split
  · rename_i hthrown
    have hunsafe : ¬ safe := fun hs => by
      rw [handle_links_ok (h.reported hs)] at hthrown
      cases hthrown
    refine Outcome.Ok.after (ok_only ⟨⟨?_, h.failed, h.delete, h.alive, h.gone, h.reported,
      h.autostart, ?_⟩, ?_, h.started⟩) _
    · rw [hstate]
      exact Or.inr (Or.inr ⟨ hunsafe, rfl, rfl⟩)
    · simp [hstate]
    · simp [hstate]
  · split
    · exact ⟨by simp, fun _ => ⟨rfl, rfl⟩⟩
    · rename_i hdelete
      refine (setup_ok ?_).after _
      refine ⟨⟨rfl, rfl⟩, ?_, h.delete, ?_, fun _ => by simpa using hdelete, ?_, ?_, ?_⟩
      all_goals simp

/-! ## Calls -/

lemma update_disabled_vifs_eq (env : Env) (d : Wdev) : ∃ disabled cache changed,
    wdev_update_disabled_vifs env d = { d with
      disabled_vifs := disabled
      ifindex_cache := cache
      config_change := d.config_change || changed } := by
  rw [wdev_update_disabled_vifs]
  simp only [Bool.or_assoc]
  exact ⟨_, _, _, rfl⟩

lemma Pre.config_init (h : Pre safe strict d q c) (hchange : d.config_change = true) :
    Pre safe strict (wdev_config_init env d) q c :=
  ⟨h.slots, h.failed, h.delete, h.alive, h.gone,
    fun hs => reported_config_init (h.reported hs), h.autostart, fun _ _ _ => Or.inl hchange⟩

lemma Pre.update_disabled_vifs (h : Pre safe strict d q c) :
    Pre safe strict (wdev_update_disabled_vifs env d) q c := by
  obtain ⟨disabled, cache, changed, heq⟩ := update_disabled_vifs_eq env d
  rw [heq]
  refine ⟨h.slots, h.failed, h.delete, h.alive, h.gone, h.reported, h.autostart, fun hs hset hq => ?_⟩
  rcases h.ran_setup hs hset hq with hch | hran
  · exact Or.inl (by simp [hch])
  · exact Or.inr hran

/-- `check` after something may have changed; nothing is asked of a device whose configuration is
marked as changed already. -/
lemma check_ok (h : Pre safe strict d q c) (hinv : d.config_change = false → Inv safe strict d q c) :
    (check env d).Ok (Inv safe strict) q c := by
  rw [check]
  have hpre : Pre safe strict (wdev_update_disabled_vifs env d) q c := h.update_disabled_vifs
  obtain ⟨disabled, cache, changed, heq⟩ := update_disabled_vifs_eq env d
  split
  · rename_i hsame
    rw [heq] at hsame hpre ⊢
    have hsame : d.config_change = false := by
      simp only [Bool.not_eq_true', Bool.or_eq_false_iff] at hsame
      exact hsame.1
    have hinv := hinv hsame
    refine ok_only ⟨hpre, fun hs hup => ?_, hinv.started⟩
    rcases hinv.ran_up hs hup with hq | ⟨hc, hran⟩ | hran
    · exact Or.inl hq
    · exact Or.inr (Or.inl ⟨hc, Or.inr (hran.resolve_left (by simp [hsame]))⟩)
    · exact Or.inr (Or.inr hran)
  · rename_i hchange
    exact setup_ok (hpre.config_init (by simpa using hchange))

lemma update_ok (h : Inv safe strict d q c) (data : Option DevData) :
    (update env data d).Ok (Inv safe strict) q c := by
  cases data with
  | none =>
    rw [update]
    refine check_ok ?_ fun hch => ?_
    · exact ⟨h.slots, fun _ => rfl, h.delete, h.alive, h.gone, h.reported, h.autostart,
        fun _ _ _ => Or.inl rfl⟩
    · cases hch
  | some data =>
    rw [update]
    split
    · exact ok_only h
    · refine check_ok ?_ fun hch => ?_
      · exact ⟨h.slots, fun _ => rfl, fun hdel => absurd hdel (by simp [wdev_reset]), fun _ _ => rfl,
          fun _ => rfl, h.reported, h.autostart, fun _ _ _ => Or.inl rfl⟩
      · cases hch

lemma start_ok (h : Inv safe strict d q c) : (start env d).Ok (Inv safe strict) q c := by
  rw [start]
  split
  · exact ok_only h
  · rename_i hdelete
    have hpre : Pre safe strict (wdev_reset { d with autostart := true, started := true }) q c :=
      ⟨h.slots, fun _ => rfl, fun hdel => absurd hdel hdelete, h.alive, h.gone, h.reported,
        fun _ _ => rfl, h.ran_setup⟩
    simp only
    split
    · rename_i hstate
      exact ok_only ⟨hpre, h.ran_up, fun _ hdown => absurd hdown hstate⟩
    · have hpre' : Pre safe strict (wdev_update_disabled_vifs env
          (wdev_reset { d with autostart := true, started := true })) q c := hpre.update_disabled_vifs
      split
      · rename_i hchange
        exact setup_ok (hpre'.config_init hchange)
      · exact setup_ok hpre'

lemma retry_setup_ok (h : Inv safe strict d q c) : (retry_setup env d).Ok (Inv safe strict) q c := by
  rw [retry_setup]
  split
  · exact ok_only h
  · split
    · exact ok_only h
    · exact start_ok h

lemma stop_ok (h : Inv safe strict d q c) (delete : Bool) (hdown : d.state = .down → delete = false) :
    (stop { d with delete := delete }).Ok (Inv safe strict) q c := by
  rw [stop]
  have hslots := h.slots
  cases hstate : d.state with
  | setup =>
    rw [hstate] at hslots
    refine ok_only ⟨⟨hslots, fun _ => h.failed (Or.inl hstate), fun _ => rfl, ?_, ?_, h.reported, ?_,
      fun hs _ => h.ran_setup hs hstate⟩, ?_, ?_⟩
    all_goals simp
  | up =>
    rw [hstate] at hslots
    exact teardown_ok_of_slots (Or.inl rfl) (slots_teardown (d := d) (hstate ▸ hslots) (Or.inl hstate))
      (fun _ => rfl) h.reported
  | down =>
    rw [hstate] at hslots
    refine ok_only ⟨⟨hslots, ?_, fun _ => rfl, ?_, fun _ => hdown hstate, h.reported, ?_, ?_⟩, ?_,
      fun _ _ _ => Or.inl rfl⟩
    all_goals simp
  | teardown =>
    rw [hstate] at hslots
    refine ok_only ⟨⟨hslots, ?_, fun _ => rfl, ?_, ?_, h.reported, ?_, ?_⟩, ?_, ?_⟩
    all_goals simp

lemma destroy_ok (h : Inv safe strict d q c) : (destroy d).Ok (Inv safe strict) q c := by
  rw [destroy]
  simp only
  split
  · rename_i hstate
    have hstop : stop { d with autostart := false, delete := true } = stop { d with delete := true } :=
      rfl
    rw [hstop]
    exact stop_ok h true fun hdown => absurd hdown hstate
  · rename_i hstate
    have hslots := h.slots
    rw [not_not.mp hstate] at hslots
    exact ⟨by simp, fun _ => hslots⟩

/-! ## Notifications -/

/-- A notification that the device is set up is for a device that is not being removed, and has not
been stopped; nothing is reported for the device itself. -/
def Accepts (safe strict : Prop) (d : Wdev) : Notify → Prop
  | .up vif vlan => vif = none → vlan = none → d.state = .setup →
      (safe → d.delete = false) ∧ (strict → d.autostart = true)
  | .set_data vif vlan ifname => safe → vif = none → vlan = none → ifname = none
  | _ => True

lemma report_key_config {i : ℕ} {vlan : Option ℕ} {key : String} {config : Option IfConfig}
    (h : report_key d (some i) vlan = some (key, config)) : config ≠ none := by
  cases vlan with
  | none =>
    obtain ⟨vif, -, heq⟩ := Option.map_eq_some_iff.mp h
    cases heq
    simp
  | some j =>
    obtain ⟨vif, -, hvlan⟩ := Option.bind_eq_some_iff.mp h
    obtain ⟨v, -, heq⟩ := Option.map_eq_some_iff.mp hvlan
    cases heq
    simp

lemma notify_ok (h : Inv safe strict d q c) {req : Notify} (hreq : Accepts safe strict d req) :
    (notify req d).Ok (Inv safe strict) q c := by
  rw [notify.eq_def]
  cases req with
  | up vif vlan =>
    simp only
    split
    · exact ok_only h
    · rename_i hargs
      simp only [not_or, Option.not_isSome_iff_eq_none, not_not] at hargs
      obtain ⟨hvif, hvlan, hstate⟩ := hargs
      obtain ⟨hdelete, hauto⟩ := hreq hvif hvlan hstate
      rw [wdev_mark_up, if_neg (by simp [hstate])]
      simp only
      split
      · exact Outcome.Ok.after (ok_only h) _
      · have hslots := h.slots
        rw [hstate] at hslots
        refine Outcome.Ok.after (ok_only ?_) _
        refine ⟨⟨?_, fun _ => h.failed (Or.inl hstate), h.delete, fun hs _ => hdelete hs, ?_,
          h.reported, fun hs _ => hauto hs, ?_⟩, fun hs _ => ?_, ?_⟩
        · rcases hslots with ⟨hq, hc⟩ | ⟨hq, hc⟩
          · exact ⟨by rw [hq]; simp, hc⟩
          · exact ⟨by rw [hq]; simp, by rw [hc]; simp⟩
        · simp
        · simp
        · rcases hslots with ⟨hq, hc⟩ | ⟨hq, hc⟩
          · exact Or.inl hq
          · exact Or.inr (Or.inl ⟨hc, h.ran_setup hs hstate hq⟩)
        · simp
  | set_data vif vlan ifname =>
    refine ok_only ?_
    have hreported : safe → ∀ e ∈ (wdev_set_data vif vlan ifname d).handler_data,
        e.2.config = none → e.2.ifname = none := by
      intro hs e he hcfg
      rw [wdev_set_data] at he
      cases hkey : report_key d vif vlan with
      | none =>
        rw [hkey] at he
        exact h.reported hs e he hcfg
      | some entry =>
        obtain ⟨key, config⟩ := entry
        rw [hkey] at he
        rcases mem_put he with he | rfl
        · exact h.reported hs e he hcfg
        · cases vif with
          | none =>
            cases vlan with
            | none => exact hreq hs rfl rfl
            | some j => cases hkey
          | some i => exact absurd hcfg (report_key_config hkey)
    rw [wdev_set_data] at hreported ⊢
    cases hkey : report_key d vif vlan with
    | none => exact h
    | some entry =>
      rw [hkey] at hreported
      exact ⟨⟨h.slots, h.failed, h.delete, h.alive, h.gone, hreported, h.autostart, h.ran_setup⟩,
        h.ran_up, h.started⟩
  | process_add pid =>
    simp only
    split
    · exact ok_only h
    · exact ok_only ⟨⟨h.slots, h.failed, h.delete, h.alive, h.gone, h.reported, h.autostart,
        h.ran_setup⟩, h.ran_up, h.started⟩
  | set_retry retry =>
    exact ok_only ⟨⟨h.slots, h.failed, h.delete, h.alive, h.gone, h.reported, h.autostart,
      h.ran_setup⟩, h.ran_up, h.started⟩
  | other => exact ok_only h

/-! ## Runs -/

lemma new_wdev_ok (env : Env) (name : String) (data : DevData) :
    Inv safe strict (new_wdev env name data) none none := by
  rw [new_wdev]
  obtain ⟨disabled, cache, changed, heq⟩ := update_disabled_vifs_eq env
    (⟨name, data, true, .down, false, false, false, 0, false, ∅, fun _ => none, ⟨0, [], 0⟩, [], [],
      false, none⟩ : Wdev)
  rw [heq]
  refine ⟨⟨⟨rfl, rfl⟩, ?_, ?_, ?_, fun _ => rfl, ?_, ?_, ?_⟩, ?_, ?_⟩
  all_goals simp [wdev_config_init]

/-- A queued operation is run. -/
lemma run_ok {op : Op} (h : Inv safe strict d (some op) none) :
    Inv safe strict (d.run op) none (some op) := by
  have hslots := h.slots
  cases op with
  | setup =>
    refine ⟨⟨?_, h.failed, h.delete, h.alive, h.gone, h.reported, h.autostart, fun _ _ _ => Or.inr rfl⟩,
      fun _ _ => Or.inr (Or.inl ⟨rfl, Or.inr rfl⟩), h.started⟩
    have hstate : (d.run .setup).state = d.state := rfl
    rw [hstate]
    cases hs : d.state <;> rw [hs] at hslots
    · cases hslots.1
    · exact Or.inr ⟨rfl, rfl⟩
    · exact ⟨by simp, by simp⟩
    · rcases hslots with hslots | hslots | hslots
      · cases hslots.1
      · cases hslots.1
      · cases hslots.2.1
  | teardown =>
    have hs : d.state = .teardown := by
      cases hs : d.state <;> rw [hs] at hslots
      · cases hslots.1
      · rcases hslots with hslots | hslots
        · cases hslots.1
        · cases hslots.1
      · exact absurd rfl hslots.1
    have hrun : d.run .teardown = d := rfl
    rw [hrun]
    refine ⟨⟨?_, h.failed, h.delete, h.alive, h.gone, h.reported, h.autostart, ?_⟩, ?_, h.started⟩
    · rw [hs]
      exact Or.inr (Or.inl ⟨rfl, rfl⟩)
    · simp [hs]
    · simp [hs]

/-- The condition on an event. -/
def Cond (safe strict : Prop) (s : World) : Event → Prop
  | .notify name req => ∀ d, s.devices.lookup name = some d → Accepts safe strict d req
  | _ => True

lemma cond_false (s : World) (e : Event) : Cond False False s e := by
  cases e with
  | notify name req => cases req <;> simp [Cond, Accepts]
  | _ => trivial

lemma step_ok {s : World} (h : s.All (Inv safe strict)) {e : Event} (hc : Cond safe strict s e) :
    (step s e).All (Inv safe strict) := by
  cases e with
  | update name data env =>
    rw [step, update_config_one]
    cases hd : s.devices.lookup name with
    | none => exact h.new hd (new_wdev_ok env name data)
    | some d => exact h.call fun _ _ hinv => update_ok hinv (some data)
  | reconf name env => exact h.call fun _ _ hinv => update_ok hinv none
  | start name env => exact h.call fun _ _ hinv => start_ok hinv
  | stop name =>
    refine h.call fun d _ hinv => ?_
    exact stop_ok hinv d.delete hinv.gone
  | retry_setup name env => exact h.call fun _ _ hinv => retry_setup_ok hinv
  | check name env => exact h.call fun _ _ hinv => check_ok hinv.toPre fun _ => hinv
  | destroy name => exact h.call fun _ _ hinv => destroy_ok hinv
  | notify name req => exact h.call fun d hd hinv => notify_ok hinv (hc d hd)
  | proc_dead name pid =>
    refine h.call fun d _ hinv => ?_
    rw [proc_dead]
    split
    · exact teardown_ok hinv
    · exact ok_only hinv
  | next name => exact h.next fun _ _ hinv => run_ok hinv
  | complete name op env =>
    refine h.complete fun d _ hinv => ?_
    cases op with
    | setup => exact wdev_setup_cb_ok hinv
    | teardown => exact wdev_teardown_cb_ok hinv

lemma init_ok : World.init.All (Inv safe strict) where
  devices := List.nodup_nil
  queue := List.nodup_nil
  running := rfl
  one name := ⟨fun d hd => absurd hd (by simp [World.init]), fun _ => ⟨rfl, rfl⟩⟩

/-- Nothing is queued and no script runs for a device. -/
def Idle (s : World) (name : String) : Prop :=
  s.queued name = none ∧ ∀ op, (name, op) ∉ s.running

/-- What is promised of the devices. -/
structure LifeCycle (s : World) : Prop where
  one_script : s.running.length ≤ 1
  one_queued : (s.queue.map Prod.fst).Nodup
  idle : ∀ name d, s.devices.lookup name = some d → Idle s name → d.state = .up ∨ d.state = .down
  up : ∀ name d, s.devices.lookup name = some d → Idle s name → d.state = .up →
    d.autostart = true ∧ d.delete = false ∧ d.ran = some d.handler_config
  down : ∀ name d, s.devices.lookup name = some d → Idle s name → d.state = .down →
    d.started = true → d.autostart = false ∨ d.retry_setup_failed = true

lemma Idle.runs {s : World} {name : String} (h : Idle s name) (hall : s.All (Inv safe strict)) :
    s.runs name = none := by
  cases hcur : s.cur with
  | none => exact runs_of_cur_none hcur
  | some cur =>
    obtain ⟨name', op⟩ := cur
    rw [runs_of_cur hcur, if_neg]
    rintro rfl
    refine h.2 op ?_
    rw [hall.running, hcur]
    simp

/-- In every run at most one script runs, a device has one operation queued, and its state says
which of the two it can have; nothing is left of a device that is gone. -/
theorem slots_run (es : List Event) :
    (run step World.init es).running.length ≤ 1 ∧
      ((run step World.init es).queue.map Prod.fst).Nodup ∧
      ∀ name, One (fun d => Slots False d.state) (run step World.init es) name := by
  have h : (run step World.init es).All (Inv False False) :=
    run_invariant init_ok (fun s e hall => step_ok hall (cond_false s e)) es
  refine ⟨?_, h.queue, fun name => ⟨fun d hd => ((h.one name).dev d hd).slots, (h.one name).gone⟩⟩
  rw [h.running]
  cases (run step World.init es).cur <;> simp

/-- Every run in which a device that has been stopped is not reported up. -/
theorem life_cycle (es : List Event) (hes : AllSteps step (Cond True True) World.init es) :
    LifeCycle (run step World.init es) := by
  have h : (run step World.init es).All (Inv True True) :=
    hes.invariant init_ok fun _ _ hall hc => step_ok hall hc
  have hdev : ∀ name d, (run step World.init es).devices.lookup name = some d →
      Idle (run step World.init es) name → Inv True True d none none := fun name d hd hidle => by
    have hinv := (h.one name).dev d hd
    rw [hidle.1, hidle.runs h] at hinv
    exact hinv
  refine ⟨?_, h.queue, fun name d hd hidle => ?_, fun name d hd hidle hup => ?_,
    fun name d hd hidle => (hdev name d hd hidle).started trivial⟩
  · rw [h.running]
    cases (run step World.init es).cur <;> simp
  · have hslots := (hdev name d hd hidle).slots
    cases hs : d.state <;> rw [hs] at hslots
    · exact Or.inr rfl
    · simp [Slots] at hslots
    · exact Or.inl rfl
    · simp [Slots] at hslots
  · have hinv := hdev name d hd hidle
    refine ⟨hinv.autostart trivial hup, hinv.alive trivial hup, ?_⟩
    rcases hinv.ran_up trivial hup with hq | ⟨hc, -⟩ | ⟨-, hran⟩
    · cases hq
    · cases hc
    · exact hran

/-- No network is known to netifd. -/
def quiet : Env := ⟨fun _ => none, 0⟩

/-- A device is configured and started, and its setup script runs. -/
def starting : List Event :=
  [.update "radio0" ⟨0, []⟩ quiet, .start "radio0" quiet, .next "radio0"]

/-- The script reports the device up and ends. -/
def reporting : List Event :=
  [.notify "radio0" (.up none none), .complete "radio0" .setup quiet]

theorem life_cycle_started : LifeCycle (run step World.init (starting ++ reporting)) := by
  refine life_cycle _ ⟨trivial, trivial, trivial, fun d hd => ?_, trivial, trivial⟩
  cases hd
  exact fun _ _ _ => ⟨fun _ => rfl, fun _ => rfl⟩

/-- A device that is stopped while its setup script runs comes up all the same. -/
theorem stop_during_setup :
    ¬ LifeCycle (run step World.init (starting ++ .stop "radio0" :: reporting)) := by
  intro h
  have hdev : ((run step World.init (starting ++ .stop "radio0" :: reporting)).devices.lookup
      "radio0").map (fun d => (d.state, d.autostart)) = some (.up, false) := by decide +kernel
  obtain ⟨d, hd, heq⟩ := Option.map_eq_some_iff.mp hdev
  have hidle : Idle (run step World.init (starting ++ .stop "radio0" :: reporting)) "radio0" := by
    refine ⟨by decide +kernel, fun op => ?_⟩
    have hrunning : (run step World.init (starting ++ .stop "radio0" :: reporting)).running = [] := by
      decide +kernel
    rw [hrunning]
    exact List.not_mem_nil
  obtain ⟨hup, hoff⟩ := Prod.mk.inj heq
  rw [(h.up "radio0" d hd hidle hup).1] at hoff
  cases hoff

end Wireless
