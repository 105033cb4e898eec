import Mt798x.Lib.Runs
import Mt798x.Hostapd.Pending

/-!
# The supplicant is started again

What one call of `pending.next()` comes to: the bring-up waits for a reply, is stuck in a state
after an exception, or has ended, and has sent some requests `phy_set_state` (`next_eq`).  From this
follows that there is at most one bring-up that waits for each phy, that replies to aborted ones
have no effect, and when the supplicant is left stopped (`supplicant_resumed_iff`).
-/

namespace Hostapd

open Runs

/-! ## What a call comes to -/

/-- How a call of `pending.next()` ends; an ended bring-up may have used up a call. -/
inductive Result where
  | waits (st : PState)
  | stuck (st : PState)
  | ended (called : Bool)
  deriving DecidableEq

/-- How a bring-up goes on from a state, and the requests it sends, the last one first. -/
def result (env : Env) (completed : Bool) : PState → Result × List Bool
  | .done => (.ended false, [])
  | .wpas_stopped => stopped
  | .check_phy => check
  | .create_bss => create
  | .init => if env.throws .init then (.stuck .init, []) else create
where
  stopped : Result × List Bool :=
    if env.throws .wpas_stopped then (.stuck .wpas_stopped, [])
    else (.ended (env.deferred .wpas_stopped), [false])
  check : Result × List Bool :=
    if env.throws .check_phy then (.stuck .check_phy, [])
    else if completed && env.added .check_phy then (.ended false, [])
    else if env.deferred .check_phy then (.waits .wpas_stopped, [true])
    else (stopped.1, stopped.2 ++ [true])
  create : Result × List Bool :=
    if env.throws .create_bss then (.stuck .create_bss, [])
    else if env.deferred .create_bss then (.waits .check_phy, [])
    else check

namespace World

/-- Requests of the phy of a bring-up. -/
def sends (s : World) (o : ℕ) (stops : List Bool) : World :=
  { s with log := stops.map ((s.objs o).phy, ·) ++ s.log }

/-- The next call is made, and its callback is there. -/
def waits (s : World) (o : ℕ) (st : PState) : World :=
  { s with
    owner := Function.update s.owner s.nextCall o
    nextCall := s.nextCall + 1
    outstanding := insert s.nextCall s.outstanding
    objs := Function.update s.objs o
      { s.objs o with next_state := some st, defer := some s.nextCall } }

/-- The bring-up is over; the call it has made last, if any, has no callback. -/
def ended (s : World) (o : ℕ) (called : Bool) : World :=
  { s with
    owner := if called then Function.update s.owner s.nextCall o else s.owner
    nextCall := if called then s.nextCall + 1 else s.nextCall
    objs := Function.update s.objs o { s.objs o with next_state := none, defer := none }
    pending_config := Function.update s.pending_config (s.objs o).phy none }

def apply (s : World) (o : ℕ) (r : Result × List Bool) : World :=
  match r.1 with
  | .waits st => (s.sends o r.2).waits o st
  | .stuck st => (s.sends o r.2).setState o (some st)
  | .ended called => (s.sends o r.2).ended o called

variable {s : World} {o : ℕ}

lemma abortDefer_of_none (h : (s.objs o).defer = none) : s.abortDefer o = s := by
  rw [abortDefer, h]

@[simp] lemma update_objs_self (f : Pending → Pending) : (s.update o f).objs o = f (s.objs o) :=
  Function.update_self ..

end World

attribute [local simp] World.setState World.update World.sends World.waits World.ended

variable {env : Env} {completed : Bool} {o turns : ℕ} {s : World} {st : PState}

lemma setState_self (h : (s.objs o).next_state = some st) : s.setState o (some st) = s := by
  have hobj : ({ s.objs o with next_state := some st } : Pending) = s.objs o := by rw [← h]
  rw [World.setState, World.update, hobj, Function.update_eq_self]

/-- Without an outstanding call a bring-up in the state "wpas_stopped" ends or gets stuck. -/
lemma loop_stopped (hfresh : s.nextCall ∉ s.outstanding) (hdefer : (s.objs o).defer = none)
    (hstate : (s.objs o).next_state = some .wpas_stopped) :
    iface_pending_loop env completed o (turns + 1) s = s.apply o (result.stopped env) := by
  rw [iface_pending_loop, hstate]
  simp only [iface_pending_next_in, World.abortDefer_of_none hdefer, result.stopped]
  cases hthrows : env.throws .wpas_stopped with
  | true =>
    simp only [Bool.true_and, decide_true, if_true, ne_eq, reduceCtorEq, not_false_eq_true]
    exact (setState_self hstate).symm
  | false =>
    simp only [Bool.false_and, Bool.false_eq_true, if_false]
    rw [World.apply]
    simp only
    cases hdeferred : env.deferred .wpas_stopped with
    | true =>
      simp [iface_pending_done, iface_pending_ubus_call, World.phy_set_state, World.abortDefer,
        hfresh]
    | false =>
      simp [iface_pending_done, iface_pending_ubus_call, World.phy_set_state, World.abortDefer,
        hdefer]

lemma setState_apply (s : World) (o : ℕ) (st : Option PState) (r : Result × List Bool) :
    (s.setState o st).apply o r = s.apply o r := by
  rw [World.apply, World.apply]
  cases r.1 <;> simp

lemma phy_set_state_apply (s : World) (o : ℕ) (stop : Bool) (r : Result) (l : List Bool) :
    (s.phy_set_state o stop).apply o (r, l) = s.apply o (r, l ++ [stop]) := by
  rw [World.apply, World.apply]
  cases r <;> simp [World.phy_set_state]

lemma loop_check (hfresh : s.nextCall ∉ s.outstanding) (hdefer : (s.objs o).defer = none)
    (hstate : (s.objs o).next_state = some .check_phy) :
    iface_pending_loop env completed o (turns + 2) s = s.apply o (result.check env completed) := by
  rw [iface_pending_loop, hstate]
  simp only [iface_pending_next_in, World.abortDefer_of_none hdefer, result.check]
  cases hthrows : env.throws .check_phy with
  | true =>
    simp only [Bool.true_and, decide_true, if_true, ne_eq, reduceCtorEq, not_false_eq_true]
    exact (setState_self hstate).symm
  | false =>
    simp only [Bool.false_and, Bool.false_eq_true, if_false]
    cases hadded : completed && env.added .check_phy with
    | true =>
      -- the interfaces are up at the supplicant's frequency
      simp [iface_pending_loop, iface_pending_next_in, World.abortDefer, World.apply,
        iface_pending_done, hdefer]
    | false =>
      simp only [Bool.false_eq_true, if_false]
      cases hdeferred : env.deferred .check_phy with
      | true =>
        simp [iface_pending_ubus_call, World.apply, World.phy_set_state]
      | false =>
        have hdefer' : (((s.phy_set_state o true).setState o (some .wpas_stopped)).objs o).defer =
            none := by simpa [World.phy_set_state] using hdefer
        simp only [iface_pending_ubus_call, Bool.false_eq_true, if_false, hdefer',
          Option.isSome_none]
        rw [loop_stopped (s := (s.phy_set_state o true).setState o (some .wpas_stopped)) hfresh
          hdefer' (by simp), setState_apply, ← phy_set_state_apply]

lemma loop_create (hfresh : s.nextCall ∉ s.outstanding) (hdefer : (s.objs o).defer = none)
    (hstate : (s.objs o).next_state = some .create_bss) :
    iface_pending_loop env completed o (turns + 3) s = s.apply o (result.create env completed) := by
  rw [iface_pending_loop, hstate]
  simp only [iface_pending_next_in, World.abortDefer_of_none hdefer, result.create, wdev_add,
    Option.isSome_none, Bool.and_false]
  cases hthrows : env.throws .create_bss with
  | true =>
    simp only [Bool.true_and, decide_true, if_true, ne_eq, reduceCtorEq, not_false_eq_true]
    exact (setState_self hstate).symm
  | false =>
    simp only [Bool.false_and, Bool.false_eq_true, if_false]
    cases hdeferred : env.deferred .create_bss with
    | true =>
      simp [iface_pending_ubus_call, World.apply]
    | false =>
      have hdefer' : ((s.setState o (some .check_phy)).objs o).defer = none := by
        simpa using hdefer
      simp only [iface_pending_ubus_call, Bool.false_eq_true, if_false, hdefer',
        Option.isSome_none]
      rw [loop_check (s := s.setState o (some .check_phy)) hfresh hdefer'
        (by simp), setState_apply]

lemma loop_init (hfresh : s.nextCall ∉ s.outstanding) (hdefer : (s.objs o).defer = none)
    (hstate : (s.objs o).next_state = some .init) :
    iface_pending_loop env completed o (turns + 4) s =
      s.apply o (result env completed .init) := by
  rw [iface_pending_loop, hstate]
  simp only [iface_pending_next_in, World.abortDefer_of_none hdefer, result]
  cases hthrows : env.throws .init with
  | true =>
    simp only [Bool.true_and, decide_true, if_true, ne_eq, reduceCtorEq, not_false_eq_true]
    exact (setState_self hstate).symm
  | false =>
    have hdefer' : ((s.setState o (some .create_bss)).objs o).defer = none := by
      simpa using hdefer
    simp only [Bool.false_and, Bool.false_eq_true, if_false, hdefer', Option.isSome_none]
    rw [loop_create (s := s.setState o (some .create_bss)) hfresh hdefer'
      (by simp), setState_apply]

lemma next_eq (hfresh : s.nextCall ∉ s.outstanding) (hdefer : (s.objs o).defer = none)
    (hstate : (s.objs o).next_state = some st) (hst : st ≠ .done) :
    iface_pending_loop env completed o (turns + 5) s = s.apply o (result env completed st) := by
  cases st with
  | init => exact loop_init hfresh hdefer hstate
  | create_bss => exact loop_create hfresh hdefer hstate
  | check_phy => exact loop_check hfresh hdefer hstate
  | wpas_stopped => exact loop_stopped hfresh hdefer hstate
  | done => exact absurd rfl hst

/-! ## Bring-ups and their calls -/

/-- The `stop` of the last request `phy_set_state` for a phy, if there was one. -/
def World.lastStop (s : World) (phy : String) : Option Bool :=
  (s.log.find? fun entry => entry.1 = phy).map Prod.snd

/-- The phy of the bring-up that has made a call. -/
def World.phyOf (s : World) (c : ℕ) : String := (s.objs (s.owner c)).phy

/-- Calls with a callback are those that the registered bring-ups wait for. -/
structure WF (s : World) : Prop where
  lt : ∀ c ∈ s.outstanding, c < s.nextCall
  defer : ∀ c ∈ s.outstanding, (s.objs (s.owner c)).defer = some c
  out : ∀ o c, (s.objs o).defer = some c → c ∈ s.outstanding ∧ s.owner c = o
  registered : ∀ c ∈ s.outstanding, s.pending_config (s.phyOf c) = some (s.owner c)
  state : ∀ c ∈ s.outstanding, ∃ st, (s.objs (s.owner c)).next_state = some st ∧ st ≠ .done
  phy : ∀ phy o, s.pending_config phy = some o → (s.objs o).phy = phy ∧ o < s.nextObj

section

variable {r : Result × List Bool} {phy : String} {o' c : ℕ}

lemma apply_objs_ne (h : o' ≠ o) : (s.apply o r).objs o' = s.objs o' := by
  rw [World.apply]
  cases r.1 <;> simp [h]

lemma apply_phy (o' : ℕ) : ((s.apply o r).objs o').phy = (s.objs o').phy := by
  by_cases h : o' = o
  · subst h
    rw [World.apply]
    cases r.1 <;> simp
  · rw [apply_objs_ne h]

lemma apply_pending_ne (h : phy ≠ (s.objs o).phy) :
    (s.apply o r).pending_config phy = s.pending_config phy := by
  rw [World.apply]
  cases r.1 <;> simp [h]

lemma apply_owner (h : c ≠ s.nextCall) : (s.apply o r).owner c = s.owner c := by
  rw [World.apply]
  cases r.1 with
  | ended called =>
    cases called <;> simp [h]
  | _ => simp [h]

lemma mem_apply_outstanding : c ∈ (s.apply o r).outstanding ↔
    c ∈ s.outstanding ∨ (c = s.nextCall ∧ ∃ st, r.1 = .waits st) := by
  rw [World.apply]
  cases r.1 <;> simp [or_comm]

lemma apply_of_waits {st : PState} (h : r.1 = .waits st) :
    (s.apply o r).owner s.nextCall = o ∧ s.nextCall < (s.apply o r).nextCall ∧
      ((s.apply o r).objs o).defer = some s.nextCall ∧
      ((s.apply o r).objs o).next_state = some st ∧
      (s.apply o r).pending_config = s.pending_config := by
  rw [World.apply, h]
  simp

lemma apply_of_not_waits (hdefer : (s.objs o).defer = none) (h : ∀ st, r.1 ≠ .waits st) :
    ((s.apply o r).objs o).defer = none := by
  rw [World.apply]
  cases hr : r.1 with
  | waits st => exact absurd hr (h st)
  | stuck st => simpa using hdefer
  | ended called => simp

lemma apply_nextCall_le : s.nextCall ≤ (s.apply o r).nextCall := by
  rw [World.apply]
  cases r.1 with
  | ended called => cases called <;> simp
  | _ => simp

lemma apply_nextObj : (s.apply o r).nextObj = s.nextObj := by
  rw [World.apply]
  cases r.1 <;> rfl

lemma apply_pending_self : (s.apply o r).pending_config (s.objs o).phy =
    s.pending_config (s.objs o).phy ∨
      (s.apply o r).pending_config (s.objs o).phy = none := by
  rw [World.apply]
  cases r.1 <;> simp

lemma lastStop_apply : (s.apply o r).lastStop phy =
    if (s.objs o).phy = phy then r.2.head?.or (s.lastStop phy) else s.lastStop phy := by
  have hsends : (s.sends o r.2).lastStop phy =
      if (s.objs o).phy = phy then r.2.head?.or (s.lastStop phy) else s.lastStop phy := by
    rw [World.lastStop, World.sends, List.find?_append]
    split
    · rename_i heq
      cases r.2 with
      | nil => rfl
      | cons stop stops => simp [heq]
    · rename_i hne
      have hnone : ((r.2.map ((s.objs o).phy, ·)).find? fun entry => entry.1 = phy) = none := by
        rw [List.find?_eq_none]
        intro entry hentry
        obtain ⟨stop, -, rfl⟩ := List.mem_map.mp hentry
        simpa using hne
      rw [hnone, Option.none_or, World.lastStop]
  rw [← hsends, World.apply]
  cases r.1 <;> rfl

end

namespace WF

variable {r : Result × List Bool} {phy : String}

lemma fresh (h : WF s) : s.nextCall ∉ s.outstanding := fun hmem => (h.lt _ hmem).false

lemma init : WF World.init where
  lt c hc := absurd hc (Finset.notMem_empty c)
  defer c hc := absurd hc (Finset.notMem_empty c)
  out o c hdefer := by cases hdefer
  registered c hc := absurd hc (Finset.notMem_empty c)
  state c hc := absurd hc (Finset.notMem_empty c)
  phy phy o hphy := by cases hphy

lemma owner_ne (h : WF s) (hdefer : (s.objs o).defer = none) {c : ℕ} (hc : c ∈ s.outstanding) :
    s.owner c ≠ o := by
  rintro rfl
  rw [h.defer c hc] at hdefer
  cases hdefer

lemma phyOf_ne (h : WF s) (hdefer : (s.objs o).defer = none)
    (hreg : s.pending_config (s.objs o).phy = some o) {c : ℕ} (hc : c ∈ s.outstanding) :
    s.phyOf c ≠ (s.objs o).phy := by
  intro heq
  have hcfg := h.registered c hc
  rw [heq, hreg] at hcfg
  exact h.owner_ne hdefer hc (Option.some_injective _ hcfg).symm

/-- Whatever a call of `pending.next()` comes to, calls and bring-ups belong together. -/
lemma apply (h : WF s) (hdefer : (s.objs o).defer = none)
    (hreg : s.pending_config (s.objs o).phy = some o)
    (hdone : r.1 ≠ .waits .done) : WF (s.apply o r) := by
  have howner : ∀ c ∈ s.outstanding, (s.apply o r).owner c = s.owner c := fun c hc =>
    apply_owner (h.lt c hc).ne
  have hobjs : ∀ c ∈ s.outstanding, (s.apply o r).objs ((s.apply o r).owner c) =
      s.objs (s.owner c) := fun c hc => by
    rw [howner c hc, apply_objs_ne (h.owner_ne hdefer hc)]
  constructor
  · intro c hc
    rcases mem_apply_outstanding.mp hc with hc | ⟨rfl, st, hst⟩
    · exact (h.lt c hc).trans_le apply_nextCall_le
    · exact (apply_of_waits hst).2.1
  · intro c hc
    rcases mem_apply_outstanding.mp hc with hc | ⟨rfl, st, hst⟩
    · rw [hobjs c hc, h.defer c hc]
    · obtain ⟨hown, -, hdef, -⟩ := apply_of_waits (s := s) (o := o) hst
      rw [hown, hdef]
  · intro o' c hc
    rw [mem_apply_outstanding]
    by_cases ho : o' = o
    · subst ho
      by_cases hwaits : ∃ st, r.1 = .waits st
      · obtain ⟨st, hst⟩ := hwaits
        obtain ⟨hown, -, hdef, -⟩ := apply_of_waits (s := s) (o := o') hst
        obtain rfl := Option.some_injective _ (hc.symm.trans hdef)
        exact ⟨Or.inr ⟨rfl, st, hst⟩, hown⟩
      · rw [apply_of_not_waits hdefer fun st hst => hwaits ⟨st, hst⟩] at hc
        cases hc
    · rw [apply_objs_ne ho] at hc
      obtain ⟨hmem, hown⟩ := h.out o' c hc
      exact ⟨Or.inl hmem, (howner c hmem).trans hown⟩
  · intro c hc
    rcases mem_apply_outstanding.mp hc with hc | ⟨rfl, st, hst⟩
    · rw [World.phyOf, howner c hc, apply_phy, ← World.phyOf,
        apply_pending_ne (h.phyOf_ne hdefer hreg hc)]
      exact h.registered c hc
    · obtain ⟨hown, -, -, -, hcfg⟩ := apply_of_waits (s := s) (o := o) hst
      rw [World.phyOf, hown, apply_phy, hcfg, hreg]
  · intro c hc
    rcases mem_apply_outstanding.mp hc with hc | ⟨rfl, st, hst⟩
    · rw [hobjs c hc]
      exact h.state c hc
    · obtain ⟨hown, -, -, hstate, -⟩ := apply_of_waits (s := s) (o := o) hst
      exact ⟨st, by rw [hown, hstate], fun heq => hdone (by rw [hst, heq])⟩
  · intro phy o' hcfg
    rw [apply_phy, apply_nextObj]
    by_cases hphy : phy = (s.objs o).phy
    · subst hphy
      rcases apply_pending_self (s := s) (o := o) (r := r) with hsame | hnone
      · exact h.phy _ _ (hsame ▸ hcfg)
      · rw [hnone] at hcfg
        cases hcfg
    · rw [apply_pending_ne hphy] at hcfg
      exact h.phy _ _ hcfg

end WF

/-! ## Aborting and starting -/

section

variable {c o' : ℕ} {phy : String} {mld_ap : Bool}

lemma abortDefer_objs_ne (h : o' ≠ o) : (s.abortDefer o).objs o' = s.objs o' := by
  rw [World.abortDefer]
  cases (s.objs o).defer <;> simp [h]

lemma abortDefer_self : (s.abortDefer o).objs o = { s.objs o with defer := none } := by
  rw [World.abortDefer]
  cases hdefer : (s.objs o).defer with
  | none => simp [← hdefer]
  | some c => simp

lemma abortDefer_phy (o' : ℕ) : ((s.abortDefer o).objs o').phy = (s.objs o').phy := by
  by_cases h : o' = o
  · rw [h, abortDefer_self]
  · rw [abortDefer_objs_ne h]

lemma abortDefer_rest : (s.abortDefer o).pending_config = s.pending_config ∧
    (s.abortDefer o).owner = s.owner ∧ (s.abortDefer o).nextCall = s.nextCall ∧
    (s.abortDefer o).nextObj = s.nextObj ∧ (s.abortDefer o).log = s.log := by
  rw [World.abortDefer]
  cases (s.objs o).defer <;> simp

lemma mem_abortDefer_outstanding (h : WF s) :
    c ∈ (s.abortDefer o).outstanding ↔ c ∈ s.outstanding ∧ s.owner c ≠ o := by
  rw [World.abortDefer]
  cases hdefer : (s.objs o).defer with
  | none => exact ⟨fun hc => ⟨hc, h.owner_ne hdefer hc⟩, And.left⟩
  | some c' =>
    obtain ⟨-, hown⟩ := h.out o c' hdefer
    simp only [World.update, Finset.mem_erase, ne_eq]
    constructor
    · rintro ⟨hne, hc⟩
      refine ⟨hc, fun heq => hne ?_⟩
      have hdef := h.defer c hc
      rw [heq, hdefer] at hdef
      exact (Option.some_injective _ hdef).symm
    · rintro ⟨hc, hne⟩
      exact ⟨fun heq => hne (heq ▸ hown), hc⟩

lemma WF.abortDefer (h : WF s) (o : ℕ) : WF (s.abortDefer o) := by
  obtain ⟨hcfg, hown, hcall, hobj, -⟩ := abortDefer_rest (s := s) (o := o)
  have hmem : ∀ c, c ∈ (s.abortDefer o).outstanding ↔ c ∈ s.outstanding ∧ s.owner c ≠ o := fun c =>
    mem_abortDefer_outstanding h
  constructor
  · intro c hc
    rw [hcall]
    exact h.lt c ((hmem c).mp hc).1
  · intro c hc
    rw [hown, abortDefer_objs_ne ((hmem c).mp hc).2]
    exact h.defer c ((hmem c).mp hc).1
  · intro o' c hdefer
    by_cases ho : o' = o
    · subst ho
      rw [abortDefer_self] at hdefer
      cases hdefer
    · rw [abortDefer_objs_ne ho] at hdefer
      obtain ⟨hc, hown'⟩ := h.out o' c hdefer
      rw [hmem, hown, hown']
      exact ⟨⟨hc, ho⟩, rfl⟩
  · intro c hc
    rw [World.phyOf, abortDefer_phy, hcfg, hown]
    exact h.registered c ((hmem c).mp hc).1
  · intro c hc
    rw [hown, abortDefer_objs_ne ((hmem c).mp hc).2]
    exact h.state c ((hmem c).mp hc).1
  · intro phy o' hphy
    rw [abortDefer_phy, hobj]
    rw [hcfg] at hphy
    exact h.phy phy o' hphy

lemma abort_eq : iface_pending_abort env o s = (s.abortDefer o).apply o (.ended false, []) := by
  rw [iface_pending_abort, iface_pending_next, iface_pending_loop]
  cases hdefer : (s.objs o).defer with
  | none =>
    simp [iface_pending_next_in, World.abortDefer, hdefer, World.apply, iface_pending_done]
  | some c =>
    simp [iface_pending_next_in, World.abortDefer, hdefer, World.apply, iface_pending_done]

lemma reply_eq (h : WF s) (hc : c ∈ s.outstanding) : iface_pending_reply env completed c s =
    iface_pending_next env completed (s.owner c) (s.abortDefer (s.owner c)) := by
  rw [iface_pending_reply, World.abortDefer, h.defer c hc]

/-- The state in which a new bring-up starts. -/
def World.started (s : World) (phy : String) (mld_ap : Bool) : World :=
  { s with
    objs := Function.update s.objs s.nextObj ⟨phy, mld_ap, some .init, none⟩
    nextObj := s.nextObj + 1
    pending_config := Function.update s.pending_config phy (some s.nextObj) }

lemma WF.owner_lt (h : WF s) (hc : c ∈ s.outstanding) : s.owner c < s.nextObj :=
  (h.phy _ _ (h.registered c hc)).2

lemma WF.started (h : WF s) (hnone : s.pending_config phy = none) : WF (s.started phy mld_ap) := by
  have hobjs : ∀ o', o' < s.nextObj → (s.started phy mld_ap).objs o' = s.objs o' := fun o' ho =>
    Function.update_of_ne ho.ne _ _
  have hself : (s.started phy mld_ap).objs s.nextObj = ⟨phy, mld_ap, some .init, none⟩ :=
    Function.update_self ..
  constructor
  · exact h.lt
  · intro c hc
    rw [show (s.started phy mld_ap).owner c = s.owner c from rfl, hobjs _ (h.owner_lt hc)]
    exact h.defer c hc
  · intro o' c hdefer
    by_cases ho : o' = s.nextObj
    · subst ho
      rw [hself] at hdefer
      cases hdefer
    · have hsame : (s.started phy mld_ap).objs o' = s.objs o' := Function.update_of_ne ho _ _
      rw [hsame] at hdefer
      exact h.out o' c hdefer
  · intro c hc
    have hphy : (s.started phy mld_ap).phyOf c = s.phyOf c := by
      rw [World.phyOf, World.phyOf, show (s.started phy mld_ap).owner c = s.owner c from rfl,
        hobjs _ (h.owner_lt hc)]
    have hcfg := h.registered c hc
    have hne : s.phyOf c ≠ phy := by
      rintro rfl
      rw [hnone] at hcfg
      cases hcfg
    rw [hphy]
    exact (Function.update_of_ne hne _ _).trans hcfg
  · intro c hc
    rw [show (s.started phy mld_ap).owner c = s.owner c from rfl, hobjs _ (h.owner_lt hc)]
    exact h.state c hc
  · intro q o' hcfg
    by_cases hq : q = phy
    · subst hq
      have hcfg' : (s.started q mld_ap).pending_config q = some s.nextObj :=
        Function.update_self ..
      obtain rfl := Option.some_injective _ (hcfg'.symm.trans hcfg)
      exact ⟨by rw [hself], Nat.lt_succ_self _⟩
    · have hcfg' : (s.started phy mld_ap).pending_config q = s.pending_config q :=
        Function.update_of_ne hq _ _
      have hold := h.phy q o' (hcfg'.symm.trans hcfg)
      rw [hobjs o' hold.2]
      exact ⟨hold.1, hold.2.trans (Nat.lt_succ_self _)⟩

end

/-! ## The supplicant -/

/-- A bring-up waits for a phy. -/
def World.Waiting (s : World) (phy : String) : Prop := ∃ c ∈ s.outstanding, s.phyOf c = phy

/-- What hostapd promises of its bring-ups. -/
structure Sound (s : World) : Prop where
  /-- At most one bring-up waits for each phy. -/
  one : ∀ c ∈ s.outstanding, ∀ c' ∈ s.outstanding, s.phyOf c = s.phyOf c' → c = c'
  /-- The reply to a call of a bring-up that is not registered any more has no effect. -/
  stale : ∀ c < s.nextCall, s.pending_config (s.phyOf c) ≠ some (s.owner c) →
    ∀ completed env, step s (.reply c completed env) = s
  /-- The supplicant of a phy for which no bring-up waits has not been left stopped. -/
  resumed : ∀ phy, ¬ s.Waiting phy → s.lastStop phy ≠ some true

/-- A bring-up that goes on from a state does not end with the supplicant stopped. -/
def Resumed (env : Env) (completed : Bool) (stopped : Prop) : PState → Prop
  | .wpas_stopped => stopping stopped
  | .check_phy => check
  | .create_bss => create
  | .init => if env.throws .init then ¬ stopped else create
  | .done => ¬ stopped
where
  stopping (stopped : Prop) : Prop := env.throws .wpas_stopped = true → ¬ stopped
  check : Prop :=
    if env.throws .check_phy then ¬ stopped
    else if completed && env.added .check_phy then ¬ stopped
    else if env.deferred .check_phy then True
    else stopping True
  create : Prop :=
    if env.throws .create_bss then ¬ stopped
    else if env.deferred .create_bss then True
    else check

/-- The event leads to a new bring-up. -/
def Restarts (s : World) (phy : String) (opened : Bool) (bss : List Bool) (change : Change) : Prop :=
  opened = true ∧ bss ≠ [] ∧ iface_reload_config change phy s = false

/-- A bring-up does not end while the supplicant is stopped, unless it starts the supplicant. -/
def Resumes (s : World) : Event → Prop
  | .set_config phy opened bss change throws env => Restarts s phy opened bss change →
      if throws then s.lastStop phy ≠ some true
      else Resumed env false (s.lastStop phy = some true) .init
  | .reply c completed env => c ∈ s.outstanding → ∀ st ∈ (s.objs (s.owner c)).next_state,
      Resumed env completed (s.lastStop (s.phyOf c) = some true) st

/-- A call of `pending.next()` leads to waiting, or the last request says whether the supplicant
is stopped. -/
lemma result_cases {st : PState} (hst : st ≠ .done) (stopped : Prop) :
    ((∃ st', (result env completed st).1 = .waits st' ∧ st' ≠ .done) ∧
      Resumed env completed stopped st) ∨
    ((∀ st', (result env completed st).1 ≠ .waits st') ∧
      (Resumed env completed stopped st ↔
        ¬ ((result env completed st).2.head?.map (· = true)).getD stopped)) := by
  have hstopping : ∀ stopped : Prop, (∀ st', (result.stopped env).1 ≠ .waits st') ∧
      (Resumed.stopping env stopped ↔
        ¬ ((result.stopped env).2.head?.map (· = true)).getD stopped) := by
    intro stopped
    rw [result.stopped, Resumed.stopping]
    cases env.throws .wpas_stopped <;> simp
  have hcheck : ((∃ st', (result.check env completed).1 = .waits st' ∧ st' ≠ .done) ∧
      Resumed.check env completed stopped) ∨
      ((∀ st', (result.check env completed).1 ≠ .waits st') ∧
        (Resumed.check env completed stopped ↔
          ¬ ((result.check env completed).2.head?.map (· = true)).getD stopped)) := by
    rw [result.check, Resumed.check]
    split
    · exact Or.inr ⟨by simp, by simp⟩
    · split
      · exact Or.inr ⟨by simp, by simp⟩
      · split
        · exact Or.inl ⟨⟨_, rfl, by simp⟩, trivial⟩
        · refine Or.inr ⟨(hstopping True).1, (hstopping True).2.trans ?_⟩
          cases (result.stopped env).2 <;> simp
  have hcreate : ((∃ st', (result.create env completed).1 = .waits st' ∧ st' ≠ .done) ∧
      Resumed.create env completed stopped) ∨
      ((∀ st', (result.create env completed).1 ≠ .waits st') ∧
        (Resumed.create env completed stopped ↔
          ¬ ((result.create env completed).2.head?.map (· = true)).getD stopped)) := by
    rw [result.create, Resumed.create]
    split
    · exact Or.inr ⟨by simp, by simp⟩
    · split
      · exact Or.inl ⟨⟨_, rfl, by simp⟩, trivial⟩
      · exact hcheck
  cases st with
  | init =>
    rw [result, Resumed]
    split
    · exact Or.inr ⟨by simp, by simp⟩
    · exact hcreate
  | create_bss => exact hcreate
  | check_phy => exact hcheck
  | wpas_stopped => exact Or.inr (hstopping stopped)
  | done => exact absurd rfl hst

section

variable {c : ℕ} {phy : String} {mld_ap : Bool} {st : PState}

lemma WF.not_waiting (h : WF s) (hnone : s.pending_config phy = none) : ¬ s.Waiting phy := by
  rintro ⟨c, hc, rfl⟩
  rw [h.registered c hc] at hnone
  cases hnone

lemma waiting_apply (h : WF s) {r : Result × List Bool} :
    (s.apply o r).Waiting phy ↔
      s.Waiting phy ∨ ((s.objs o).phy = phy ∧ ∃ st, r.1 = .waits st) := by
  have hphy : ∀ c ∈ s.outstanding, (s.apply o r).phyOf c = s.phyOf c := fun c hc => by
    rw [World.phyOf, World.phyOf, apply_phy, apply_owner (h.lt c hc).ne]
  constructor
  · rintro ⟨c, hc, hc'⟩
    rcases mem_apply_outstanding.mp hc with hc | ⟨rfl, st, hst⟩
    · exact Or.inl ⟨c, hc, (hphy c hc).symm.trans hc'⟩
    · rw [World.phyOf, (apply_of_waits hst).1, apply_phy] at hc'
      exact Or.inr ⟨hc', st, hst⟩
  · rintro (⟨c, hc, hc'⟩ | ⟨hc', st, hst⟩)
    · exact ⟨c, mem_apply_outstanding.mpr (Or.inl hc), (hphy c hc).trans hc'⟩
    · refine ⟨s.nextCall, mem_apply_outstanding.mpr (Or.inr ⟨rfl, st, hst⟩), ?_⟩
      rw [World.phyOf, (apply_of_waits hst).1, apply_phy, hc']

/-- What a call of `pending.next()` does to the promises. -/
lemma next_spec (h : WF s) (hdefer : (s.objs o).defer = none)
    (hreg : s.pending_config (s.objs o).phy = some o)
    (hstate : (s.objs o).next_state = some st) (hst : st ≠ .done)
    (hothers : ∀ q, q ≠ (s.objs o).phy → ¬ s.Waiting q → s.lastStop q ≠ some true) :
    WF (iface_pending_next env completed o s) ∧
      ((∀ q, ¬ (iface_pending_next env completed o s).Waiting q →
          (iface_pending_next env completed o s).lastStop q ≠ some true) ↔
        Resumed env completed (s.lastStop (s.objs o).phy = some true) st) := by
  have heq : iface_pending_next env completed o s = s.apply o (result env completed st) :=
    next_eq h.fresh hdefer hstate hst
  have hnot : ¬ s.Waiting (s.objs o).phy := by
    rintro ⟨c, hc, hphy⟩
    exact h.phyOf_ne hdefer hreg hc hphy
  rw [heq]
  rcases result_cases hst (s.lastStop (s.objs o).phy = some true) with
    ⟨⟨st', hwaits, hst'⟩, hresumed⟩ | ⟨hends, hresumed⟩
  · refine ⟨h.apply hdefer hreg (by rw [hwaits]; simpa using hst'), iff_of_true ?_ hresumed⟩
    intro q hq
    rw [waiting_apply h, not_or] at hq
    have hne : (s.objs o).phy ≠ q := fun heq => hq.2 ⟨heq, st', hwaits⟩
    rw [lastStop_apply, if_neg hne]
    exact hothers q hne.symm hq.1
  · refine ⟨h.apply hdefer hreg (hends .done), ?_⟩
    have hwaiting : ∀ q, (s.apply o (result env completed st)).Waiting q ↔ s.Waiting q := fun q => by
      rw [waiting_apply h]
      exact or_iff_left fun hq => hq.2.elim fun st' hst' => hends st' hst'
    have hself : (s.apply o (result env completed st)).lastStop (s.objs o).phy ≠ some true ↔
        Resumed env completed (s.lastStop (s.objs o).phy = some true) st := by
      rw [hresumed, lastStop_apply, if_pos rfl]
      cases (result env completed st).2.head? <;> simp
    rw [← hself]
    refine ⟨fun hall => hall _ ((hwaiting _).not.mpr hnot), fun hphy q hq => ?_⟩
    by_cases hqphy : (s.objs o).phy = q
    · rwa [← hqphy]
    · rw [lastStop_apply, if_neg hqphy]
      exact hothers q (Ne.symm hqphy) ((hwaiting q).not.mp hq)

lemma lastStop_abortDefer : (s.abortDefer o).lastStop phy = s.lastStop phy := by
  rw [World.lastStop, abortDefer_rest.2.2.2.2, World.lastStop]

lemma waiting_abortDefer (h : WF s) (hreg : s.pending_config (s.objs o).phy = some o)
    (hphy : phy ≠ (s.objs o).phy) : (s.abortDefer o).Waiting phy ↔ s.Waiting phy := by
  have hof : ∀ c, (s.abortDefer o).phyOf c = s.phyOf c := fun c => by
    rw [World.phyOf, World.phyOf, abortDefer_phy, abortDefer_rest.2.1]
  constructor
  · rintro ⟨c, hc, hc'⟩
    exact ⟨c, ((mem_abortDefer_outstanding h).mp hc).1, (hof c).symm.trans hc'⟩
  · rintro ⟨c, hc, hc'⟩
    refine ⟨c, (mem_abortDefer_outstanding h).mpr ⟨hc, ?_⟩, (hof c).trans hc'⟩
    rintro rfl
    exact hphy hc'.symm

lemma abort_spec (h : WF s) (hreg : s.pending_config phy = some o) :
    WF (iface_pending_abort env o s) ∧ (iface_pending_abort env o s).pending_config phy = none ∧
      (∀ q, (iface_pending_abort env o s).lastStop q = s.lastStop q) ∧
      ∀ q, q ≠ phy → ((iface_pending_abort env o s).Waiting q ↔ s.Waiting q) := by
  obtain ⟨rfl, -⟩ := h.phy phy o hreg
  have hdefer : ((s.abortDefer o).objs o).defer = none := by rw [abortDefer_self]
  have hphy := abortDefer_phy (s := s) (o := o) o
  have hreg' : (s.abortDefer o).pending_config ((s.abortDefer o).objs o).phy = some o := by
    rw [hphy, abortDefer_rest.1, hreg]
  rw [abort_eq]
  refine ⟨(h.abortDefer o).apply hdefer hreg' (by simp), ?_, fun q => ?_, fun q hq => ?_⟩
  · rw [← hphy]
    simp [World.apply]
  · rw [lastStop_apply, lastStop_abortDefer]
    simp
  · rw [waiting_apply (h.abortDefer o), waiting_abortDefer h hreg hq]
    simp

lemma started_spec (h : WF s) :
    (∀ q, (s.started phy mld_ap).lastStop q = s.lastStop q) ∧
      ∀ q, (s.started phy mld_ap).Waiting q ↔ s.Waiting q := by
  refine ⟨fun q => rfl, fun q => ?_⟩
  have hof : ∀ c ∈ s.outstanding, (s.started phy mld_ap).phyOf c = s.phyOf c := fun c hc => by
    have hobj : (s.started phy mld_ap).objs (s.owner c) = s.objs (s.owner c) :=
      Function.update_of_ne (h.owner_lt hc).ne _ _
    exact congrArg Pending.phy hobj
  constructor
  · rintro ⟨c, hc, hc'⟩
    exact ⟨c, hc, (hof c hc).symm.trans hc'⟩
  · rintro ⟨c, hc, hc'⟩
    exact ⟨c, hc, (hof c hc).trans hc'⟩

lemma init_spec (h : WF s) (hnone : s.pending_config phy = none)
    (hothers : ∀ q, q ≠ phy → ¬ s.Waiting q → s.lastStop q ≠ some true) :
    WF (iface_pending_init env phy mld_ap s) ∧
      ((∀ q, ¬ (iface_pending_init env phy mld_ap s).Waiting q →
          (iface_pending_init env phy mld_ap s).lastStop q ≠ some true) ↔
        Resumed env false (s.lastStop phy = some true) .init) := by
  have hwf : WF (s.started phy mld_ap) := h.started hnone
  have hself : (s.started phy mld_ap).objs s.nextObj = ⟨phy, mld_ap, some .init, none⟩ :=
    Function.update_self ..
  have hphy : ((s.started phy mld_ap).objs s.nextObj).phy = phy := by rw [hself]
  obtain ⟨hlast, hwaiting⟩ : (∀ q, (s.started phy mld_ap).lastStop q = s.lastStop q) ∧
      ∀ q, (s.started phy mld_ap).Waiting q ↔ s.Waiting q := started_spec h
  have hspec : WF (iface_pending_next env false s.nextObj (s.started phy mld_ap)) ∧ _ :=
    next_spec hwf (by rw [hself]) (by rw [hphy]; exact Function.update_self ..)
      (congrArg Pending.next_state hself) (by simp) (fun q hq hw => by
        rw [hlast q]
        exact hothers q (hphy ▸ hq) ((hwaiting q).not.mp hw))
  rw [hphy, hlast phy] at hspec
  exact hspec

/-- A restart: the bring-up that is registered is aborted, and unless something goes wrong on the
way there is a new one. -/
lemma restart_spec {throws : Bool} (h : WF s)
    (hothers : ∀ q, ¬ s.Waiting q → s.lastStop q ≠ some true) :
    WF (iface_restart env throws phy mld_ap s) ∧
      ((∀ q, ¬ (iface_restart env throws phy mld_ap s).Waiting q →
          (iface_restart env throws phy mld_ap s).lastStop q ≠ some true) ↔
        if throws then s.lastStop phy ≠ some true
        else Resumed env false (s.lastStop phy = some true) .init) := by
  obtain ⟨s', hs', hwf, hnone, hlast, hwaiting⟩ : ∃ s',
      iface_restart env throws phy mld_ap s =
        (if throws then s' else iface_pending_init env phy mld_ap s') ∧
      WF s' ∧ s'.pending_config phy = none ∧ (∀ q, s'.lastStop q = s.lastStop q) ∧
      ∀ q, q ≠ phy → (s'.Waiting q ↔ s.Waiting q) := by
    rw [iface_restart]
    cases hcfg : s.pending_config phy with
    | none => exact ⟨s, rfl, h, hcfg, fun q => rfl, fun q hq => Iff.rfl⟩
    | some o => exact ⟨iface_pending_abort env o s, rfl, abort_spec h hcfg⟩
  have hothers' : ∀ q, q ≠ phy → ¬ s'.Waiting q → s'.lastStop q ≠ some true := fun q hq hw => by
    rw [hlast q]
    exact hothers q ((hwaiting q hq).not.mp hw)
  rw [hs']
  cases throws with
  | true =>
    simp only [if_true]
    refine ⟨hwf, fun hall => ?_, fun hphy q hw => ?_⟩
    · rw [← hlast]
      exact hall phy (hwf.not_waiting hnone)
    · by_cases hq : q = phy
      · rw [hq, hlast]
        exact hphy
      · exact hothers' q hq hw
  | false =>
    have hinit : WF (iface_pending_init env phy mld_ap s') ∧ _ := init_spec hwf hnone hothers'
    rw [hlast phy] at hinit
    exact hinit

lemma reply_spec (h : WF s) (hc : c ∈ s.outstanding)
    (hothers : ∀ q, ¬ s.Waiting q → s.lastStop q ≠ some true) :
    WF (iface_pending_reply env completed c s) ∧
      ((∀ q, ¬ (iface_pending_reply env completed c s).Waiting q →
          (iface_pending_reply env completed c s).lastStop q ≠ some true) ↔
        ∀ st ∈ (s.objs (s.owner c)).next_state,
          Resumed env completed (s.lastStop (s.phyOf c) = some true) st) := by
  obtain ⟨st, hst, hdone⟩ := h.state c hc
  have hreg : s.pending_config (s.objs (s.owner c)).phy = some (s.owner c) := h.registered c hc
  have hphy : ((s.abortDefer (s.owner c)).objs (s.owner c)).phy = (s.objs (s.owner c)).phy :=
    abortDefer_phy (s.owner c)
  have hspec : WF (iface_pending_next env completed (s.owner c) (s.abortDefer (s.owner c))) ∧ _ :=
    next_spec (h.abortDefer (s.owner c)) (by rw [abortDefer_self])
      (by rw [hphy, abortDefer_rest.1, hreg]) (by rw [abortDefer_self]; exact hst) hdone
      (fun q hq hw => by
        rw [hphy] at hq
        rw [lastStop_abortDefer]
        exact hothers q ((waiting_abortDefer h hreg hq).not.mp hw))
  rw [hphy, lastStop_abortDefer] at hspec
  rw [reply_eq h hc]
  refine ⟨hspec.1, hspec.2.trans ?_⟩
  simp [hst, World.phyOf]

lemma WF.sound_iff (h : WF s) :
    Sound s ↔ ∀ q, ¬ s.Waiting q → s.lastStop q ≠ some true := by
  refine ⟨Sound.resumed, fun hresumed => ⟨fun c hc c' hc' hphy => ?_, fun c hc hreg completed env => ?_,
    hresumed⟩⟩
  · have howner : s.owner c = s.owner c' := by
      have hcfg := h.registered c hc
      rw [hphy, h.registered c' hc'] at hcfg
      exact (Option.some_injective _ hcfg).symm
    have hdefer := h.defer c hc
    rw [howner, h.defer c' hc'] at hdefer
    exact (Option.some_injective _ hdefer).symm
  · have hout : c ∉ s.outstanding := fun hc' => hreg (h.registered c hc')
    rw [step, if_neg hout]

/-- One event, and the supplicants that are left stopped. -/
lemma step_spec (h : WF s) (hothers : ∀ q, ¬ s.Waiting q → s.lastStop q ≠ some true) (e : Event) :
    WF (step s e) ∧
      ((∀ q, ¬ (step s e).Waiting q → (step s e).lastStop q ≠ some true) ↔ Resumes s e) := by
  cases e with
  | set_config phy opened bss change throws env =>
    rw [step, Resumes]
    by_cases hrestarts : Restarts s phy opened bss change
    · obtain ⟨rfl, hbss, hreload⟩ := hrestarts
      obtain ⟨mld_ap, rest, rfl⟩ := List.exists_cons_of_ne_nil hbss
      have heq : iface_set_config phy true (mld_ap :: rest) change throws env s =
          iface_restart env throws phy mld_ap s := by
        simp [iface_set_config.eq_def, hreload]
      rw [heq]
      have hspec : WF (iface_restart env throws phy mld_ap s) ∧ _ := restart_spec h hothers
      exact ⟨hspec.1, hspec.2.trans ⟨fun hr _ => hr, fun hr => hr ⟨rfl, hbss, hreload⟩⟩⟩
    · have heq : iface_set_config phy opened bss change throws env s = s := by
        rw [iface_set_config.eq_def]
        cases opened with
        | false => rfl
        | true =>
          cases bss with
          | nil => rfl
          | cons mld_ap rest =>
            have hreload : iface_reload_config change phy s = true := by
              by_contra hne
              exact hrestarts ⟨rfl, by simp, Bool.eq_false_iff.mpr hne⟩
            simp [hreload]
      rw [heq]
      exact ⟨h, iff_of_true hothers fun hr => absurd hr hrestarts⟩
  | reply c completed env =>
    rw [step, Resumes]
    split
    · rename_i hc
      have hspec : WF (iface_pending_reply env completed c s) ∧ _ := reply_spec h hc hothers
      exact ⟨hspec.1, hspec.2.trans ⟨fun hr _ => hr, fun hr => hr hc⟩⟩
    · rename_i hc
      exact ⟨h, iff_of_true hothers fun hr => absurd hr hc⟩

end

/-- Exactly when hostapd keeps its promises in every state of a run: no bring-up ends while the
supplicant is stopped without starting it. -/
theorem supplicant_resumed_iff (es : List Event) :
    AllSteps step Resumes World.init es ↔
      ∀ es1 es2, es = es1 ++ es2 → Sound (run step World.init es1) := by
  have hinit : Sound World.init := WF.init.sound_iff.mpr fun q _ => by simp [World.lastStop, World.init]
  refine allSteps_iff_states WF.init hinit ?_ ?_
  · intro s e h hsound
    exact (step_spec h hsound.resumed e).1
  · intro s e h hsound
    obtain ⟨hwf, hiff⟩ := step_spec h hsound.resumed e
    rw [← hiff, hwf.sound_iff]

/-- Nothing fails: every request is answered, and interfaces can be added. -/
def working : Env where
  throws _ := false
  deferred _ := true
  added _ := true
  create := none

/-- A new configuration arrives while the supplicant is stopped for the first one.  When the second
bring-up asks, the supplicant is connected, so that its bring-up ends without starting it again. -/
theorem reconfigured_while_stopped :
    ¬ Sound (run step World.init
      [.set_config "phy0" true [false] .radio false working,
        .reply 0 false working,
        .set_config "phy0" true [false] .radio false working,
        .reply 2 true working]) := by
  intro h
  refine h.resumed "phy0" ?_ (by decide +kernel)
  have hout : (run step World.init
      [.set_config "phy0" true [false] .radio false working,
        .reply 0 false working,
        .set_config "phy0" true [false] .radio false working,
        .reply 2 true working]).outstanding = ∅ := by decide +kernel
  rintro ⟨c, hc, -⟩
  rw [hout] at hc
  exact absurd hc (Finset.notMem_empty c)

end Hostapd
