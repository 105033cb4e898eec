import Mt798x.Wireless.LifeCycle

/-!
# Reloading the configuration

A reload destroys the devices that are not in the new configuration, updates or makes the others,
and starts those that are to be started.  Removing a device takes until its teardown script has
ended.  If no device that is still being removed is in a new configuration, the devices are those of
the last configuration once all scripts have ended (`follows_config`).
-/

namespace Wireless

open Runs Objects World

/-- A configuration; the keys of an object are different. -/
abbrev Config := { entries : List (String × DevData) // (entries.map Prod.fst).Nodup }

/-- `update_config` -/
def update_config (env : Env) (new_devices : Config) (s : World) : World :=
  let s := (s.devices.filter fun e => e.1 ∉ new_devices.1.map Prod.fst).foldl
    (fun s e => s.call e.1 destroy) s
  new_devices.1.foldl (fun s e => update_config_one env e.1 e.2 s) s

/-- One turn of the loop of `config_start`. -/
def config_start_one (env : Env) (d : Wdev) : Outcome :=
  if d.autostart then start env d else d.only

def config_start (env : Env) (s : World) : World :=
  s.devices.foldl (fun s e => s.call e.1 (config_start_one env)) s

/-- The devices, the last configuration, and what the user has asked for last; a device that comes
into the configuration is wanted. -/
structure Net where
  world : World
  config : List (String × DevData)
  want : String → Bool

/-- An event that is not part of a reload. -/
def Event.Outside : Event → Prop
  | .update .. | .destroy .. => False
  | _ => True

inductive Act where
  | reload (config : Config) (env : Env)
  | event (e : Event) (h : e.Outside)

/-- What the user asks for. -/
def Event.wants (want : String → Bool) : Event → String → Bool
  | .start name _ => Function.update want name true
  | .stop name => Function.update want name false
  | _ => want

def act (n : Net) : Act → Net
  | .reload config env =>
    { world := config_start env (update_config env config n.world)
      config := config.1
      want := fun name => (n.config.lookup name).isNone || n.want name }
  | .event e _ => { n with world := step n.world e, want := e.wants n.want }

def Net.init : Net := ⟨World.init, [], fun _ => true⟩

/-- No device of a new configuration is still being removed. -/
def ActCond (n : Net) : Act → Prop
  | .reload config _ => ∀ name ∈ config.1.map Prod.fst, ∀ d,
    n.world.devices.lookup name = some d → d.delete = false
  | .event e _ => Cond True False n.world e

/-! ## What calls keep -/

/-- What the configuration and the user say of a device. -/
def Wdev.said (d : Wdev) : DevData × Bool × Bool := (d.data, d.delete, d.autostart)

/-- Only a device that is being removed is deleted. -/
structure Keeps (d : Wdev) (r : Outcome) : Prop where
  dev : ∀ d' ∈ r.dev, d'.said = d.said
  gone : r.dev = none → d.delete = true

variable {d d' : Wdev} {env : Env} {name : String} {s : World}

lemma keeps_only (h : d'.said = d.said) : Keeps d d'.only :=
  ⟨by rintro d'' ⟨⟩; exact h, fun hnone => by cases hnone⟩

lemma Keeps.of_said {r : Outcome} (hr : Keeps d' r) (h : d'.said = d.said) : Keeps d r :=
  ⟨fun d'' hd => (hr.dev d'' hd).trans h, fun hnone => by
    rw [← hr.gone hnone]
    exact (congrArg (fun p => p.2.1) h).symm⟩

lemma Keeps.after {r : Outcome} (h : Keeps d r) (links : List Link) : Keeps d (r.after links) :=
  ⟨h.dev, h.gone⟩

lemma setup_keeps (d : Wdev) : Keeps d (setup d) := by
  rcases setup_cases d with ⟨heq, -⟩ | ⟨-, -, -, heq⟩
  · rw [heq]
    exact keeps_only rfl
  · rw [heq]
    exact ⟨by rintro d' ⟨⟩; rfl, by simp⟩

lemma teardown_keeps (d : Wdev) : Keeps d (teardown d) := by
  rw [teardown]
  simp only
  split
  · exact keeps_only rfl
  · exact ⟨by rintro d' ⟨⟩; rfl, by simp⟩

lemma said_update_disabled_vifs (env : Env) (d : Wdev) :
    (wdev_update_disabled_vifs env d).said = d.said := by
  obtain ⟨disabled, cache, changed, heq⟩ := update_disabled_vifs_eq env d
  rw [heq]
  rfl

lemma check_keeps (d : Wdev) : Keeps d (check env d) := by
  rw [check]
  split
  · exact keeps_only (said_update_disabled_vifs env d)
  · have hsaid : (wdev_config_init env (wdev_update_disabled_vifs env d)).said = d.said :=
      said_update_disabled_vifs env d
    exact (setup_keeps _).of_said hsaid

lemma setup_cb_keeps (d : Wdev) : Keeps d (wdev_setup_cb env d) := by
  rw [wdev_setup_cb]
  split
  · split
    · exact (setup_keeps (wdev_config_init env d)).of_said rfl
    · exact keeps_only rfl
  · split
    · exact (teardown_keeps { d with retry := d.retry - 1 }).of_said rfl
    · exact (teardown_keeps { d with retry_setup_failed := true }).of_said rfl

lemma teardown_cb_keeps (d : Wdev) : Keeps d (wdev_teardown_cb d) := by
  rw [wdev_teardown_cb]
  simp only
  split
  · exact Keeps.after (keeps_only rfl) _
  · split
    · rename_i hdelete
      exact ⟨by simp, fun _ => hdelete⟩
    · refine Keeps.after ?_ _
      exact (setup_keeps { d with handler_data := [], state := .down }).of_said rfl

lemma notify_keeps (d : Wdev) (req : Notify) : Keeps d (notify req d) := by
  rw [notify.eq_def]
  cases req with
  | up vif vlan =>
    simp only
    split
    · exact keeps_only rfl
    · rw [wdev_mark_up]
      split
      · exact keeps_only rfl
      · simp only
        split
        · exact Keeps.after (keeps_only rfl) _
        · refine Keeps.after ?_ _
          exact keeps_only rfl
  | set_data vif vlan ifname =>
    refine keeps_only ?_
    rw [wdev_set_data]
    split <;> rfl
  | process_add pid =>
    simp only
    split <;> exact keeps_only rfl
  | set_retry retry => exact keeps_only rfl
  | other => exact keeps_only rfl

/-- Starting a device that is not being removed sets `autostart`, and nothing else. -/
lemma start_keeps (hdelete : d.delete = false) :
    Keeps { d with autostart := true } (start env d) := by
  rw [start, if_neg (by simp [hdelete])]
  simp only
  split
  · exact keeps_only rfl
  · split
    · have hsaid : (wdev_config_init env (wdev_update_disabled_vifs env
          (wdev_reset { d with autostart := true, started := true }))).said =
          { d with autostart := true }.said := said_update_disabled_vifs env _
      exact (setup_keeps _).of_said hsaid
    · have hsaid : (wdev_update_disabled_vifs env
          (wdev_reset { d with autostart := true, started := true })).said =
          { d with autostart := true }.said := said_update_disabled_vifs env _
      exact (setup_keeps _).of_said hsaid

lemma start_keeps_of (hauto : d.delete = false → d.autostart = true) : Keeps d (start env d) := by
  cases hdelete : d.delete with
  | true =>
    rw [start, if_pos hdelete]
    exact keeps_only rfl
  | false =>
    have hsame : { d with autostart := true } = d := by rw [← hauto hdelete]
    have hkeeps : Keeps { d with autostart := true } (start env d) := start_keeps hdelete
    rw [hsame] at hkeeps
    exact hkeeps

lemma retry_setup_keeps (d : Wdev) : Keeps d (retry_setup env d) := by
  rw [retry_setup]
  split
  · exact keeps_only rfl
  · split
    · exact keeps_only rfl
    · rename_i hstart
      refine start_keeps_of fun _ => ?_
      simp only [not_or, not_not, Bool.not_eq_true', Bool.not_eq_false] at hstart
      exact hstart.2

lemma stop_keeps (d : Wdev) : Keeps { d with autostart := false } (stop d) := by
  rw [stop]
  cases hstate : d.state with
  | up => exact (teardown_keeps _).of_said rfl
  | _ => exact keeps_only rfl

lemma config_start_one_keeps (d : Wdev) : Keeps d (config_start_one env d) := by
  rw [config_start_one]
  split
  · rename_i hauto
    exact start_keeps_of fun _ => hauto
  · exact keeps_only rfl

lemma destroy_delete (d : Wdev) : ∀ d' ∈ (destroy d).dev, d'.delete = true := by
  rw [destroy]
  simp only
  split
  · intro d' hd'
    have hsaid := (stop_keeps { d with autostart := false, delete := true }).dev d' hd'
    exact congrArg (fun p => p.2.1) hsaid
  · simp

lemma update_said {data : DevData} (hdelete : d.delete = false) :
    Keeps { d with data := data } (update env (some data) d) := by
  rw [update]
  split
  · rename_i hsame
    exact keeps_only (by rw [← hsame])
  · refine (check_keeps _).of_said ?_
    simp [Wdev.said, wdev_reset, hdelete]

/-! ## Devices of the configuration -/

namespace World

lemma lookup_call_self {f : Wdev → Outcome} :
    (s.call name f).devices.lookup name = (s.devices.lookup name).bind fun d => (f d).dev := by
  rw [call]
  cases hd : s.devices.lookup name with
  | none => exact hd
  | some d => exact lookup_apply

lemma lookup_call_ne {f : Wdev → Outcome} {name' : String} (h : name' ≠ name) :
    (s.call name f).devices.lookup name' = s.devices.lookup name' := by
  rw [call]
  cases s.devices.lookup name with
  | none => rfl
  | some d => exact lookup_apply_ne h

end World

/-- What the configuration and the user say of a name. -/
structure Says (config : List (String × DevData)) (want : String → Bool) (s : World)
    (name : String) : Prop where
  present : ∀ data, config.lookup name = some data →
    ∃ d, s.devices.lookup name = some d ∧ d.said = (data, false, want name)
  absent : config.lookup name = none → ∀ d, s.devices.lookup name = some d → d.delete = true

variable {config : List (String × DevData)} {want : String → Bool} {s' : World}

lemma Says.same (h : Says config want s name)
    (heq : s'.devices.lookup name = s.devices.lookup name) : Says config want s' name :=
  ⟨fun data hdata => by rw [heq]; exact h.present data hdata,
    fun hnone d hd => h.absent hnone d (by rw [← heq]; exact hd)⟩

lemma Says.keeps {r : Outcome} (h : Says config want s name) (hd : s.devices.lookup name = some d)
    (heq : s'.devices.lookup name = r.dev) (hr : Keeps d r) : Says config want s' name := by
  refine ⟨fun data hdata => ?_, fun hnone d' hd' => ?_⟩
  · obtain ⟨d0, hd0, hsaid⟩ := h.present data hdata
    cases hd.symm.trans hd0
    cases hdev : r.dev with
    | none =>
      have hdelete := hr.gone hdev
      have hkept := congrArg (fun p => p.2.1) hsaid
      exact absurd (hdelete.symm.trans hkept) (by simp)
    | some d' => exact ⟨d', heq.trans hdev, (hr.dev d' hdev).trans hsaid⟩
  · have hsaid := congrArg (fun p => p.2.1) (hr.dev d' (heq ▸ hd'))
    exact hsaid.trans (h.absent hnone d hd)

lemma Says.call {f : Wdev → Outcome} {name' : String} (h : Says config want s name')
    (hf : ∀ d, Keeps d (f d)) : Says config want (s.call name f) name' := by
  by_cases heq : name' = name
  · subst heq
    cases hd : s.devices.lookup name' with
    | none =>
      refine h.same ?_
      rw [lookup_call_self, hd]
      rfl
    | some d =>
      refine h.keeps hd ?_ (hf d)
      rw [lookup_call_self, hd]
      rfl
  · exact h.same (lookup_call_ne heq)

lemma Says.call_want {f : Wdev → Outcome} {name' : String} {on : Bool}
    (h : Says config want s name')
    (hf : ∀ d, d.delete = false → Keeps { d with autostart := on } (f d))
    (hdel : ∀ d, d.delete = true → ∀ d' ∈ (f d).dev, d'.delete = true) :
    Says config (Function.update want name on) (s.call name f) name' := by
  by_cases heq : name' = name
  · subst heq
    refine ⟨fun data hdata => ?_, fun hnone d' hd' => ?_⟩
    · obtain ⟨d, hd, hsaid⟩ := h.present data hdata
      have hdelete : d.delete = false := congrArg (fun p => p.2.1) hsaid
      have hkeeps := hf d hdelete
      cases hdev : (f d).dev with
      | none =>
        have hdelete' : d.delete = true := hkeeps.gone hdev
        rw [hdelete] at hdelete'
        cases hdelete'
      | some d' =>
        refine ⟨d', by rw [lookup_call_self, hd]; exact hdev, ?_⟩
        rw [hkeeps.dev d' hdev, Function.update_self]
        have hdata' : d.data = data := congrArg Prod.fst hsaid
        rw [Wdev.said, hdata', hdelete]
    · rw [lookup_call_self] at hd'
      obtain ⟨d, hd, hdev⟩ := Option.bind_eq_some_iff.mp hd'
      exact hdel d (h.absent hnone d hd) d' hdev
  · have hwant : Function.update want name on name' = want name' := Function.update_of_ne heq _ _
    have hsame : Says config want (s.call name f) name' := h.same (lookup_call_ne heq)
    exact ⟨fun data hdata => by rw [hwant]; exact hsame.present data hdata, hsame.absent⟩

/-- An event that is not part of a reload. -/
lemma Says.step {e : Event} (h : Says config want s name) (he : e.Outside) :
    Says config (e.wants want) (step s e) name := by
  cases e with
  | update => exact he.elim
  | destroy => exact he.elim
  | reconf name' env =>
    refine h.call fun d => ?_
    rw [update]
    exact (check_keeps _).of_said rfl
  | start name' env =>
    refine h.call_want (fun d hd => start_keeps hd) fun d hd d' hd' => ?_
    rw [start, if_pos hd] at hd'
    cases hd'
    exact hd
  | stop name' =>
    refine h.call_want (fun d _ => stop_keeps d) fun d hd d' hd' => ?_
    exact (congrArg (fun p => p.2.1) ((stop_keeps d).dev d' hd')).trans hd
  | retry_setup name' env => exact h.call retry_setup_keeps
  | check name' env => exact h.call check_keeps
  | notify name' req => exact h.call fun d => notify_keeps d req
  | proc_dead name' pid =>
    refine h.call fun d => ?_
    rw [proc_dead]
    split
    · exact teardown_keeps d
    · exact keeps_only rfl
  | next name' =>
    rw [Wireless.step, run_next_handler.eq_def]
    split
    · rename_i op _ _
      cases hd : s.devices.lookup name' with
      | none => exact h.same rfl
      | some d =>
        by_cases heq : name = name'
        · subst heq
          refine h.keeps (r := ⟨some (d.run op), none, []⟩) hd lookup_put_self ⟨?_, by simp⟩
          rintro d' ⟨⟩
          cases op <;> rfl
        · exact h.same (lookup_put_ne heq)
    · exact h
  | complete name' op env =>
    rw [Wireless.step, run_handler_cb.eq_def]
    split
    · exact h
    · simp only
      split
      · exact h.same rfl
      · split
        · exact h.same rfl
        · refine Says.call (h.same rfl) fun d => ?_
          cases op with
          | setup => exact setup_cb_keeps d
          | teardown => exact teardown_cb_keeps d

/-! ## Reloads -/

lemma foldl_lookup {β : Type} {f : World → String × β → World}
    (hf : ∀ s e name, name ≠ e.1 → (f s e).devices.lookup name = s.devices.lookup name)
    {l : List (String × β)} (hnodup : (l.map Prod.fst).Nodup) (s : World) :
    (∀ name, name ∉ l.map Prod.fst → (l.foldl f s).devices.lookup name = s.devices.lookup name) ∧
    ∀ e ∈ l, ∃ s', s'.devices.lookup e.1 = s.devices.lookup e.1 ∧
      (l.foldl f s).devices.lookup e.1 = (f s' e).devices.lookup e.1 := by
  induction l generalizing s with
  | nil => exact ⟨fun _ _ => rfl, by simp⟩
  | cons e l ih =>
    obtain ⟨hnot, hnodup⟩ := List.nodup_cons.mp hnodup
    obtain ⟨hothers, hturns⟩ := ih hnodup (f s e)
    rw [List.foldl_cons]
    refine ⟨fun name hname => ?_, fun e' he' => ?_⟩
    · obtain ⟨hne, hname⟩ := not_or.mp fun h => hname (List.mem_cons.mpr h)
      rw [hothers name hname, hf s e name hne]
    · rcases List.mem_cons.mp he' with rfl | he'
      · exact ⟨s, rfl, hothers e'.1 hnot⟩
      · obtain ⟨s', hs', hturn⟩ := hturns e' he'
        refine ⟨s', hs'.trans (hf s e e'.1 fun heq => hnot ?_), hturn⟩
        rw [← heq]
        exact List.mem_map_of_mem he'

lemma update_config_one_ne {data : DevData} {name' : String} (h : name' ≠ name) :
    (update_config_one env name data s).devices.lookup name' = s.devices.lookup name' := by
  rw [update_config_one]
  cases s.devices.lookup name with
  | none => exact lookup_put_ne h
  | some d => exact lookup_call_ne h

/-- The devices after `update_config`: those of the new configuration, and those that are still
being removed. -/
lemma update_config_names {new : Config} (htidy : s.Tidy) (h : ∀ name, Says config want s name)
    (hnew : ∀ name ∈ new.1.map Prod.fst, ∀ d, s.devices.lookup name = some d → d.delete = false)
    (name : String) :
    Says new.1 (fun name => (config.lookup name).isNone || want name) (update_config env new s)
      name := by
  rw [update_config]
  set gone := s.devices.filter fun e => e.1 ∉ new.1.map Prod.fst with hgone
  have hnodup : (gone.map Prod.fst).Nodup := htidy.devices.sublist (List.filter_sublist.map _)
  obtain ⟨hkept, hdestroyed⟩ := foldl_lookup (f := fun s (e : String × Wdev) => s.call e.1 destroy)
    (fun s e name hne => lookup_call_ne hne) hnodup s
  set s1 := gone.foldl (fun s e => s.call e.1 destroy) s with hs1
  obtain ⟨hothers, hupdated⟩ := foldl_lookup
    (f := fun s (e : String × DevData) => update_config_one env e.1 e.2 s)
    (fun s e name hne => update_config_one_ne hne) new.2 s1
  refine ⟨fun data hdata => ?_, fun hnone d hd => ?_⟩
  · have hmem := mem_of_lookup hdata
    have hkey := mem_keys hmem
    have hnot : name ∉ gone.map Prod.fst := fun hin => by
      obtain ⟨e, he, rfl⟩ := List.mem_map.mp hin
      exact of_decide_eq_true (List.mem_filter.mp he).2 hkey
    obtain ⟨s', hs', hturn⟩ := hupdated (name, data) hmem
    rw [hkept name hnot] at hs'
    simp only at hs' hturn
    rw [hturn, update_config_one, hs']
    cases hd : s.devices.lookup name with
    | none =>
      have hold : config.lookup name = none := by
        cases hold : config.lookup name with
        | none => rfl
        | some data0 =>
          obtain ⟨d, hd', -⟩ := (h name).present data0 hold
          rw [hd] at hd'
          cases hd'
      refine ⟨_, lookup_put_self, ?_⟩
      rw [hold, new_wdev]
      exact said_update_disabled_vifs env _
    | some d =>
      have hdelete := hnew name hkey d hd
      cases hold : config.lookup name with
      | none =>
        rw [(h name).absent hold d hd] at hdelete
        cases hdelete
      | some data0 =>
        obtain ⟨d0, hd0, hsaid⟩ := (h name).present data0 hold
        cases hd.symm.trans hd0
        have hkeeps : Keeps { d with data := data } (update env (some data) d) := update_said hdelete
        simp only
        rw [lookup_call_self, hs', hd]
        cases hdev : (update env (some data) d).dev with
        | none =>
          have hdelete' : d.delete = true := hkeeps.gone hdev
          rw [hdelete] at hdelete'
          cases hdelete'
        | some d' =>
          refine ⟨d', hdev, (hkeeps.dev d' hdev).trans ?_⟩
          have hauto : d.autostart = want name := congrArg (fun p => p.2.2) hsaid
          simp [Wdev.said, hdelete, hauto]
  · have hkey : name ∉ new.1.map Prod.fst := fun hin => by
      obtain ⟨data, hdata⟩ := mem_keys_iff.mp hin
      rw [hnone] at hdata
      cases hdata
    rw [hothers name hkey] at hd
    by_cases hin : name ∈ gone.map Prod.fst
    · obtain ⟨e, he, rfl⟩ := List.mem_map.mp hin
      obtain ⟨s', hs', hturn⟩ := hdestroyed e he
      rw [hturn, lookup_call_self] at hd
      obtain ⟨d0, -, hdev⟩ := Option.bind_eq_some_iff.mp hd
      exact destroy_delete d0 d hdev
    · rw [hkept name hin] at hd
      refine absurd (mem_keys (List.mem_filter.mpr ⟨mem_of_lookup hd, ?_⟩)) hin
      simpa using hkey

lemma foldl_all {β : Type} {P : Wdev → Option Op → Option Op → Prop} {f : World → β → World}
    (hf : ∀ s e, s.All P → (f s e).All P) {l : List β} (h : s.All P) : (l.foldl f s).All P := by
  induction l generalizing s with
  | nil => exact h
  | cons e l ih => exact ih (hf s e h)

lemma update_config_all {new : Config} (h : s.All (Inv True False)) :
    (update_config env new s).All (Inv True False) := by
  rw [update_config]
  refine foldl_all (fun s e hall => ?_) (foldl_all (fun s e hall => ?_) h)
  · exact step_ok (e := .update e.1 e.2 env) hall trivial
  · exact step_ok (e := .destroy e.1) hall trivial

lemma config_start_all (h : s.All (Inv True False)) : (config_start env s).All (Inv True False) := by
  refine foldl_all (fun s e hall => hall.call fun d _ hinv => ?_) h
  rw [config_start_one]
  split
  · exact start_ok hinv
  · exact ok_only hinv

lemma config_start_names (h : Says config want s name) :
    Says config want (config_start env s) name := by
  have hfold : ∀ (l : List (String × Wdev)) (s : World), Says config want s name →
      Says config want (l.foldl (fun s e => s.call e.1 (config_start_one env)) s) name := by
    intro l
    induction l with
    | nil => exact fun s h => h
    | cons e l ih => exact fun s h => ih _ (h.call config_start_one_keeps)
  exact hfold s.devices s h

/-- The invariant of devices, scripts and configuration. -/
structure NetInv (n : Net) : Prop where
  all : n.world.All (Inv True False)
  names : ∀ name, Says n.config n.want n.world name

lemma NetInv.act {n : Net} (h : NetInv n) {a : Act} (hc : ActCond n a) : NetInv (act n a) := by
  cases a with
  | reload config env =>
    exact ⟨config_start_all (update_config_all h.all), fun name =>
      config_start_names (update_config_names h.all.toTidy h.names hc name)⟩
  | event e he => exact ⟨step_ok h.all hc, fun name => (h.names name).step he⟩

/-- The devices are those of the configuration, as the user wants them. -/
structure Follows (n : Net) : Prop where
  same : ∀ name, (n.world.devices.lookup name).isSome = (n.config.lookup name).isSome
  dev : ∀ name d data, n.world.devices.lookup name = some d → n.config.lookup name = some data →
    d.data = data ∧ d.autostart = n.want name

/-- Once nothing is queued and no script runs, the devices follow the last configuration, if no
device came back while it was being removed. -/
theorem follows_config (as : List Act) (has : AllSteps act ActCond Net.init as)
    (hqueue : (run act Net.init as).world.queue = [])
    (hrunning : (run act Net.init as).world.running = []) : Follows (run act Net.init as) := by
  have hinv : NetInv (run act Net.init as) :=
    has.invariant ⟨init_ok, fun name => ⟨by simp [Net.init], by simp [Net.init, World.init]⟩⟩
      fun _ _ h hc => h.act hc
  have hidle : ∀ name, Idle (run act Net.init as).world name := fun name =>
    ⟨by rw [queued, hqueue]; rfl, by simp [hrunning]⟩
  refine ⟨fun name => ?_, fun name d data hd hdata => ?_⟩
  · cases hdata : (run act Net.init as).config.lookup name with
    | some data =>
      obtain ⟨d, hd, -⟩ := (hinv.names name).present data hdata
      rw [hd]
      rfl
    | none =>
      cases hd : (run act Net.init as).world.devices.lookup name with
      | none => rfl
      | some d =>
        -- a device that is being removed is not up or down once its scripts have ended
        have hdelete := (hinv.names name).absent hdata d hd
        have hdev := (hinv.all.one name).dev d hd
        rw [(hidle name).1, (hidle name).runs hinv.all] at hdev
        have hslots := hdev.slots
        cases hs : d.state <;> rw [hs] at hslots
        · rw [hdev.gone hs] at hdelete
          cases hdelete
        · simp [Slots] at hslots
        · rw [hdev.alive trivial hs] at hdelete
          cases hdelete
        · simp [Slots] at hslots
  · obtain ⟨d0, hd0, hsaid⟩ := (hinv.names name).present data hdata
    cases hd.symm.trans hd0
    exact ⟨congrArg Prod.fst hsaid, congrArg (fun p => p.2.2) hsaid⟩

/-- One device. -/
def oneDevice : Config := ⟨[("radio0", ⟨0, []⟩)], by simp⟩

/-- No device. -/
def noDevice : Config := ⟨[], by simp⟩

/-- The device is configured and comes up. -/
def configured : List Act :=
  [.reload oneDevice quiet, .event (.next "radio0") trivial,
    .event (.notify "radio0" (.up none none)) trivial,
    .event (.complete "radio0" .setup quiet) trivial]

/-- The teardown script runs and ends. -/
def tornDown : List Act :=
  [.event (.next "radio0") trivial, .event (.complete "radio0" .teardown quiet) trivial]

theorem follows_config_removed :
    Follows (run act Net.init (configured ++ .reload noDevice quiet :: tornDown)) := by
  refine follows_config _ ⟨?_, trivial, fun d hd => ?_, trivial, ?_, trivial, trivial, trivial⟩
    (by decide +kernel) (by decide +kernel)
  · intro name _ d hd
    cases hd
  · cases hd
    exact fun _ _ _ => ⟨fun _ => rfl, fun hs => hs.elim⟩
  · intro name hname
    exact absurd hname List.not_mem_nil

/-- A device that is removed and put back while its teardown is under way is gone for good. -/
theorem put_back_too_early : (run act Net.init (configured ++
      .reload noDevice quiet :: .reload oneDevice quiet :: tornDown)).world.queue = [] ∧
    (run act Net.init (configured ++
      .reload noDevice quiet :: .reload oneDevice quiet :: tornDown)).world.running = [] ∧
    ¬ Follows (run act Net.init (configured ++
      .reload noDevice quiet :: .reload oneDevice quiet :: tornDown)) := by
  refine ⟨by decide +kernel, by decide +kernel, fun h => ?_⟩
  have hsame := h.same "radio0"
  exact absurd hsame (by decide +kernel)

end Wireless
