import Mt798x.Lib.Runs
import Mt798x.Wireless.Device

/-!
# Handler scripts

The devices with the operations that are queued and the handler scripts that run.  A queued
operation is run when no script runs; which one, if several are queued, depends on the time, and may
be any of them.  A script that cannot be started completes at once, which is a completion right
after the step that starts it.

A device is removed only when nothing is queued or running for it (`Base`), so that its name stands
for it.
-/

namespace Wireless

open Objects

/-- `wireless.devices`, `wdev_handler`, `wdev_cur`, the scripts that run, and the calls of
`interface_handle_link` that were made for each device; the last one is first. -/
structure World where
  devices : List (String × Wdev)
  queue : List (String × Op)
  cur : Option (String × Op)
  running : List (String × Op)
  links : List (String × Link)

namespace World

def apply (s : World) (name : String) (r : Outcome) : World :=
  { s with
    devices := match r.dev with
      | none => del s.devices name
      | some d => put s.devices name d
    queue := match r.queued with
      | none => s.queue
      | some op => put s.queue name op
    links := (r.links.map fun link => (name, link)).reverse ++ s.links }

/-- A call for a device, if there is one of this name. -/
def call (s : World) (name : String) (f : Wdev → Outcome) : World :=
  match s.devices.lookup name with
  | none => s
  | some d => s.apply name (f d)

end World

/-- What the device is run with is kept in it. -/
def Wdev.run (d : Wdev) (op : Op) : Wdev :=
  if op = .setup then { d with ran := some d.handler_config } else d

/-- `__run_next_handler` -/
def run_next_handler (name : String) (s : World) : World :=
  match s.cur, s.queue.lookup name with
  | none, some op =>
    { s with
      devices := match s.devices.lookup name with
        | none => s.devices
        | some d => put s.devices name (d.run op)
      queue := del s.queue name
      cur := some (name, op)
      running := (name, op) :: s.running }
  | _, _ => s

/-- The callback of an operation. -/
def handler_cb (env : Env) : Op → Wdev → Outcome
  | .setup => wdev_setup_cb env
  | .teardown => wdev_teardown_cb

/-- `run_handler_cb`, when a script ends or is cancelled. -/
def run_handler_cb (env : Env) (name : String) (op : Op) (s : World) : World :=
  if (name, op) ∉ s.running then s
  else
    let s := { s with running := s.running.erase (name, op) }
    match s.cur with
    | none => s
    | some (cur_name, _) =>
      if cur_name ≠ name then s
      else
        let s := { s with cur := none }
        s.call name (handler_cb env op)

/-- The loop body of `update_config` for a device of the configuration. -/
def update_config_one (env : Env) (name : String) (data : DevData) (s : World) : World :=
  match s.devices.lookup name with
  | some _ => s.call name (update env (some data))
  | none => { s with devices := put s.devices name (new_wdev env name data) }

/-- What happens to the devices and their scripts. -/
inductive Event where
  | update (name : String) (data : DevData) (env : Env)
  | reconf (name : String) (env : Env)
  | start (name : String) (env : Env)
  | stop (name : String)
  | retry_setup (name : String) (env : Env)
  | check (name : String) (env : Env)
  | destroy (name : String)
  | notify (name : String) (req : Notify)
  | proc_dead (name : String) (pid : ℕ)
  | next (name : String)
  | complete (name : String) (op : Op) (env : Env)

def step (s : World) : Event → World
  | .update name data env => update_config_one env name data s
  | .reconf name env => s.call name (update env none)
  | .start name env => s.call name (start env)
  | .stop name => s.call name stop
  | .retry_setup name env => s.call name (retry_setup env)
  | .check name env => s.call name (check env)
  | .destroy name => s.call name destroy
  | .notify name req => s.call name (notify req)
  | .proc_dead name pid => s.call name (proc_dead pid)
  | .next name => run_next_handler name s
  | .complete name op env => run_handler_cb env name op s

def World.init : World where
  devices := []
  queue := []
  cur := none
  running := []
  links := []

namespace World

/-- The operation that is queued for a device. -/
def queued (s : World) (name : String) : Option Op := s.queue.lookup name

/-- The operation that runs for a device. -/
def runs (s : World) (name : String) : Option Op :=
  (s.cur.filter fun cur => cur.1 = name).map Prod.snd

/-- What holds of one device, with the operations that are queued and that run for it. -/
structure One (P : Wdev → Option Op → Option Op → Prop) (s : World) (name : String) : Prop where
  dev : ∀ d, s.devices.lookup name = some d → P d (s.queued name) (s.runs name)
  gone : s.devices.lookup name = none → s.queued name = none ∧ s.runs name = none

/-- No name comes twice, and the scripts that run are those that are known. -/
structure Tidy (s : World) : Prop where
  devices : (s.devices.map Prod.fst).Nodup
  queue : (s.queue.map Prod.fst).Nodup
  running : s.running = s.cur.toList

/-- What holds of all devices. -/
structure All (P : Wdev → Option Op → Option Op → Prop) (s : World) : Prop extends Tidy s where
  one : ∀ name, One P s name

end World

/-- What holds of a device after a call; it is only deleted when nothing is queued or runs. -/
structure Outcome.Ok (P : Wdev → Option Op → Option Op → Prop) (q c : Option Op) (r : Outcome) :
    Prop where
  dev : ∀ d ∈ r.dev, P d (r.queued.or q) c
  gone : r.dev = none → r.queued.or q = none ∧ c = none

variable {P : Wdev → Option Op → Option Op → Prop} {q c : Option Op} {d : Wdev} {r : Outcome}

lemma Outcome.Ok.after (h : r.Ok P q c) (links : List Link) : (r.after links).Ok P q c := ⟨h.dev, h.gone⟩

lemma ok_some {op : Option Op} {links : List Link} (h : P d (op.or q) c) :
    Outcome.Ok P q c ⟨some d, op, links⟩ :=
  ⟨by rintro d' ⟨⟩; exact h, by simp⟩

lemma ok_only (h : P d q c) : d.only.Ok P q c := ok_some h

namespace World

variable {s : World} {name : String}

lemma queued_apply : (s.apply name r).queued name = r.queued.or (s.queued name) := by
  rw [queued, apply]
  cases r.queued with
  | none => rfl
  | some op => simp

lemma queued_apply_ne {name' : String} (h : name' ≠ name) :
    (s.apply name r).queued name' = s.queued name' := by
  rw [queued, apply]
  cases r.queued with
  | none => rfl
  | some op => exact lookup_put_ne h

lemma lookup_apply : (s.apply name r).devices.lookup name = r.dev := by
  rw [apply]
  cases r.dev <;> simp

lemma lookup_apply_ne {name' : String} (h : name' ≠ name) :
    (s.apply name r).devices.lookup name' = s.devices.lookup name' := by
  rw [apply]
  cases r.dev with
  | none => exact lookup_del_ne h
  | some d => exact lookup_put_ne h

lemma Tidy.apply (h : s.Tidy) : (s.apply name r).Tidy := by
  refine ⟨?_, ?_, h.running⟩
  · rw [World.apply]
    cases r.dev with
    | none => exact nodup_del h.devices
    | some d => exact nodup_put h.devices
  · rw [World.apply]
    cases r.queued with
    | none => exact h.queue
    | some op => exact nodup_put h.queue

lemma One.apply_ne {name' : String} (h : One P s name') (hne : name' ≠ name) :
    One P (s.apply name r) name' := by
  have hruns : (s.apply name r).runs name' = s.runs name' := rfl
  refine ⟨fun d hd => ?_, fun hnone => ?_⟩
  · rw [lookup_apply_ne hne] at hd
    rw [queued_apply_ne hne, hruns]
    exact h.dev d hd
  · rw [lookup_apply_ne hne] at hnone
    rw [queued_apply_ne hne, hruns]
    exact h.gone hnone

lemma One.apply (hr : r.Ok P (s.queued name) (s.runs name)) : One P (s.apply name r) name := by
  have hruns : (s.apply name r).runs name = s.runs name := rfl
  refine ⟨fun d hd => ?_, fun hnone => ?_⟩
  · rw [lookup_apply] at hd
    rw [queued_apply, hruns]
    exact hr.dev d hd
  · rw [lookup_apply] at hnone
    rw [queued_apply, hruns]
    exact hr.gone hnone

lemma All.apply (h : s.All P) (hr : r.Ok P (s.queued name) (s.runs name)) :
    (s.apply name r).All P where
  toTidy := h.toTidy.apply
  one name' := by
    by_cases heq : name' = name
    · rw [heq]
      exact One.apply hr
    · exact (h.one name').apply_ne heq

lemma All.call {f : Wdev → Outcome} (h : s.All P)
    (hf : ∀ d, s.devices.lookup name = some d → P d (s.queued name) (s.runs name) →
      (f d).Ok P (s.queued name) (s.runs name)) : (s.call name f).All P := by
  rw [World.call]
  cases hd : s.devices.lookup name with
  | none => exact h
  | some d => exact h.apply (hf d hd ((h.one name).dev d hd))

lemma All.new (h : s.All P) (hnone : s.devices.lookup name = none) (hd : P d none none) :
    All P { s with devices := put s.devices name d } := by
  have hgone := (h.one name).gone hnone
  exact h.apply (r := ⟨some d, none, []⟩) (ok_some (by rw [hgone.1, hgone.2]; exact hd))

lemma runs_of_cur_none (h : s.cur = none) : s.runs name = none := by
  rw [runs, h]
  rfl

lemma runs_of_cur {name' : String} {op : Op} (h : s.cur = some (name', op)) :
    s.runs name = if name' = name then some op else none := by
  rw [runs, h]
  by_cases heq : name' = name <;> simp [heq]

/-- A queued operation is run. -/
lemma All.next (h : s.All P)
    (hrun : ∀ d op, P d (some op) none → P (d.run op) none (some op)) :
    (run_next_handler name s).All P := by
  rw [run_next_handler.eq_def]
  cases hcur : s.cur with
  | some cur => exact h
  | none =>
    cases hq : s.queue.lookup name with
    | none => exact h
    | some op =>
      have hruns : ∀ name', s.runs name' = none := fun name' => runs_of_cur_none hcur
      cases hd : s.devices.lookup name with
      | none =>
        have hgone := ((h.one name).gone hd).1
        rw [queued, hq] at hgone
        cases hgone
      | some d =>
        simp only
        have hrunning : s.running = [] := by rw [h.running, hcur]; rfl
        refine ⟨⟨nodup_put h.devices, nodup_del h.queue, by rw [hrunning]; rfl⟩, fun name' => ?_⟩
        by_cases heq : name' = name
        · subst heq
          refine ⟨fun d' hd' => ?_, fun hnone => ?_⟩
          · rw [lookup_put_self] at hd'
            cases hd'
            rw [runs_of_cur rfl, queued, lookup_del_self, if_pos rfl]
            have hP := (h.one name').dev d hd
            rw [hruns, queued, hq] at hP
            exact hrun d op hP
          · rw [lookup_put_self] at hnone
            cases hnone
        · have hone := h.one name'
          refine ⟨fun d' hd' => ?_, fun hnone => ?_⟩
          · rw [lookup_put_ne heq] at hd'
            rw [runs_of_cur rfl, queued, lookup_del_ne heq, if_neg (Ne.symm heq)]
            have hP := hone.dev d' hd'
            rw [hruns] at hP
            exact hP
          · rw [lookup_put_ne heq] at hnone
            rw [runs_of_cur rfl, queued, lookup_del_ne heq, if_neg (Ne.symm heq)]
            exact ⟨(hone.gone hnone).1, rfl⟩

/-- A script ends. -/
lemma All.complete {env : Env} {op : Op} (h : s.All P)
    (hcb : ∀ d, s.devices.lookup name = some d → P d (s.queued name) (some op) →
      (handler_cb env op d).Ok P (s.queued name) none) :
    (run_handler_cb env name op s).All P := by
  rw [run_handler_cb.eq_def]
  split
  · exact h
  · rename_i hrun
    have hcur : s.cur = some (name, op) := by
      have hmem := not_not.mp hrun
      rw [h.running, Option.mem_toList] at hmem
      exact hmem
    have hruns : s.runs name = some op := by rw [runs_of_cur hcur, if_pos rfl]
    simp only [hcur, ne_eq, not_true_eq_false, if_false]
    have hrunning : s.running.erase (name, op) = [] := by rw [h.running, hcur]; simp
    rw [hrunning]
    have htidy : Tidy { s with running := [], cur := none } := ⟨h.devices, h.queue, rfl⟩
    have hothers : ∀ name', name' ≠ name → One P { s with running := [], cur := none } name' :=
      fun name' hne => by
        have hnone : s.runs name' = none := by rw [runs_of_cur hcur, if_neg (Ne.symm hne)]
        have hone := h.one name'
        refine ⟨fun d hd => ?_, fun hd => ⟨(hone.gone hd).1, rfl⟩⟩
        have hP := hone.dev d hd
        rw [hnone] at hP
        exact hP
    rw [World.call]
    simp only
    cases hd : s.devices.lookup name with
    | none =>
      have hgone := ((h.one name).gone hd).2
      rw [hruns] at hgone
      cases hgone
    | some d =>
      have hP := (h.one name).dev d hd
      rw [hruns] at hP
      refine ⟨htidy.apply, fun name' => ?_⟩
      by_cases heq : name' = name
      · rw [heq]
        exact One.apply (hcb d hd hP)
      · exact (hothers name' heq).apply_ne heq

end World

end Wireless
