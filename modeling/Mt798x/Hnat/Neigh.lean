import Mt798x.Lib.Runs

/-!
# The queue of neighbour updates

`nf_hnat_netevent_handler` queues an update of a neighbour and schedules a delayed work that deletes
the flow entries of the neighbour.  A cleanup empties the queue and cancels the work.  A step of the
model is a section under `neigh_update.lock`, or the start or end of the work or of a cancel; any
number of cleanups may run.

An update that is queued between the section of a cleanup that found the work pending and the end of
its cancel can be left in the queue without a work that takes it (`neighbours_stranded`).  The
callers of the cleanup unregister the notifier first.  In every run without such an update nothing is
stranded or lost (`neighbours_served`).
-/

namespace Hnat.Neigh

open Runs

/-! ## The state -/

/-- What the notifier reads of a neighbour. -/
structure Neighbour where
  dev : Bool
  nud_state : ℕ
  ha : List ℕ
  family : ℕ
  primary_key : List ℕ
  deriving DecidableEq, Repr

/-- `struct hnat_neigh_update_event` -/
structure Update where
  ha : List ℕ
  dip : List ℕ
  nud_state : ℕ
  tbl_family : ℕ
  deriving DecidableEq, Repr

/-- Where the work is: it has not started, has started, clears the flow entries of the updates it
took, is about to look at the queue again, or has done so. -/
inductive Handler where
  | idle
  | started
  | clearing (local_list : List Update)
  | looking
  | ending
  deriving DecidableEq, Repr

/-- `struct hnat_neigh_update`, the work and the cleanups that are under way.  The last three fields
record what happened to the updates. -/
structure St where
  head : List Update := []
  pending_cnt : ℤ := 0
  /-- the delayed work is scheduled -/
  pending : Bool := false
  handler : Handler := .idle
  /-- the cleanups that found the work pending and have not cancelled it yet -/
  armed : ℕ := 0
  /-- the cleanups that have cancelled the work and wait for its end -/
  cancelling : ℕ := 0
  queued : List Update := []
  processed : List Update := []
  discarded : List Update := []
  deriving DecidableEq

/-- `NEIGH_PROCESS_BUDGET` -/
def budget : ℕ := 128

/-- `schedule_delayed_work`.  While a cancel is under way the kernel may refuse. -/
def schedule (granted : Bool) (s : St) : St :=
  if s.cancelling = 0 ∨ granted then { s with pending := true } else s

/-! ## The sections -/

/-- `NUD_CONNECTED | NUD_FAILED`, the states that are of interest. -/
def nudMask : ℕ := 0x80 ||| 0x40 ||| 0x02 ||| 0x20

/-- The update that a notification queues: the neighbour has a device and is connected or failed,
the queue is below its limit and there is memory. -/
def accepted (s : St) (n : Neighbour) (arp nd : ℕ) (alloc : Bool) : Option Update :=
  let pending_max : ℕ := max 4096 ((arp + nd) * 2)
  if !n.dev ∨ n.nud_state &&& nudMask = 0 then none
  else if (pending_max : ℤ) ≤ s.pending_cnt ∨ !alloc then none
  else some ⟨n.ha, n.primary_key, n.nud_state, n.family⟩

/-- `nf_hnat_netevent_handler` -/
def nf_hnat_netevent_handler (granted : Bool) (s : St) : Option Update → St
  | none => s
  | some e =>
    let s := { s with
      head := s.head ++ [e], pending_cnt := s.pending_cnt + 1, queued := s.queued ++ [e] }
    if s.pending then s else schedule granted s

/-- The first section of `hnat_neigh_update_work_handler`. -/
def takeUpdates (s : St) : St :=
  match s.handler with
  | .started =>
    let taken := s.head.take budget
    { s with head := s.head.drop budget, pending_cnt := s.pending_cnt - taken.length
             handler := .clearing taken }
  | _ => s

/-- `foe_clear_entry` and the loop that frees the updates. -/
def clearUpdates (s : St) : St :=
  match s.handler with
  | .clearing local_list =>
    { s with processed := s.processed ++ local_list, handler := .looking }
  | _ => s

/-- The last section of `hnat_neigh_update_work_handler`. -/
def lookAgain (granted : Bool) (s : St) : St :=
  match s.handler with
  | .looking =>
    let s := { s with handler := .ending }
    if s.head = [] then s else schedule granted s
  | _ => s

/-- The section of `hnat_neigh_update_cleanup`. -/
def hnat_neigh_update_cleanup (s : St) : St :=
  { s with head := [], pending_cnt := 0, discarded := s.discarded ++ s.head
           armed := if s.pending then s.armed + 1 else s.armed }

/-- What happens. -/
inductive Event where
  /-- a notification; `arp` and `nd` are the limits of the tables -/
  | netevent (n : Neighbour) (arp nd : ℕ) (alloc granted : Bool)
  /-- the work starts: it is no longer scheduled -/
  | start
  | take
  | clear
  | look (granted : Bool)
  /-- the work ends -/
  | finish
  | cleanup
  /-- `cancel_delayed_work_sync` takes the work off -/
  | cancel
  /-- `cancel_delayed_work_sync` returns: the work does not run -/
  | cancelled
  deriving DecidableEq

/-- One step; one that cannot happen changes nothing. -/
def step (s : St) : Event → St
  | .netevent n arp nd alloc granted =>
    nf_hnat_netevent_handler granted s (accepted s n arp nd alloc)
  | .start => if s.pending ∧ s.handler = .idle then { s with pending := false, handler := .started }
    else s
  | .take => takeUpdates s
  | .clear => clearUpdates s
  | .look granted => lookAgain granted s
  | .finish => if s.handler = .ending then { s with handler := .idle } else s
  | .cleanup => hnat_neigh_update_cleanup s
  | .cancel =>
    if 0 < s.armed then
      { s with armed := s.armed - 1, cancelling := s.cancelling + 1, pending := false }
    else s
  | .cancelled => if s.handler = .idle then { s with cancelling := s.cancelling - 1 } else s

/-! ## What is asked for -/

/-- The updates that the work has taken and not processed. -/
def Handler.held : Handler → List Update
  | .clearing local_list => local_list
  | _ => []

/-- The work will look at the queue again. -/
def Handler.WillLook : Handler → Prop
  | .started => True
  | .clearing _ => True
  | .looking => True
  | _ => False

/-- No update is stranded, lost or processed twice. -/
structure Served (s : St) : Prop where
  count : s.pending_cnt = s.head.length
  taken : s.head ≠ [] → s.pending = true ∨ s.handler.WillLook
  once : s.queued.Perm (s.processed ++ s.discarded ++ s.handler.held ++ s.head)

/-- No update is queued from the section of a cleanup that found the work pending to the end of its
cancel. -/
def Unregistered (s : St) : Event → Prop
  | .netevent n arp nd alloc _ =>
    (accepted s n arp nd alloc).isSome → s.armed = 0 ∧ s.cancelling = 0
  | _ => True

/-! ## Steps -/

/-- The invariant: while a work that was pending is cancelled the queue is empty. -/
structure Inv (s : St) : Prop where
  served : Served s
  empty : s.head ≠ [] → s.armed = 0 ∧ s.cancelling = 0

section Steps

variable {s : St}

@[simp] lemma schedule_head (granted : Bool) (s : St) : (schedule granted s).head = s.head := by
  unfold schedule
  split <;> rfl

@[simp] lemma schedule_frame (granted : Bool) (s : St) :
    (schedule granted s).pending_cnt = s.pending_cnt ∧ (schedule granted s).handler = s.handler ∧
      (schedule granted s).armed = s.armed ∧ (schedule granted s).cancelling = s.cancelling ∧
      (schedule granted s).queued = s.queued ∧ (schedule granted s).processed = s.processed ∧
      (schedule granted s).discarded = s.discarded := by
  unfold schedule
  split <;> exact ⟨rfl, rfl, rfl, rfl, rfl, rfl, rfl⟩

lemma schedule_pending (granted : Bool) (h : s.cancelling = 0) :
    (schedule granted s).pending = true := by
  rw [schedule, if_pos (.inl h)]

lemma inv_schedule (granted : Bool) (hcount : s.pending_cnt = s.head.length)
    (hempty : s.head ≠ [] → s.armed = 0 ∧ s.cancelling = 0)
    (honce : s.queued.Perm (s.processed ++ s.discarded ++ s.handler.held ++ s.head)) :
    Inv (schedule granted s) := by
  obtain ⟨h1, h2, h3, h4, h5, h6, h7⟩ := schedule_frame granted s
  refine ⟨⟨?_, ?_, ?_⟩, ?_⟩
  · rw [h1, schedule_head, hcount]
  · rw [schedule_head]
    exact fun h => .inl (schedule_pending granted (hempty h).2)
  · rwa [h2, h5, h6, h7, schedule_head]
  · rwa [h3, h4, schedule_head]

lemma inv_netevent (h : Inv s) (granted : Bool) {o : Option Update}
    (ho : o.isSome → s.armed = 0 ∧ s.cancelling = 0) :
    Inv (nf_hnat_netevent_handler granted s o) := by
  cases o with
  | none => exact h
  | some e =>
    have hcount : s.pending_cnt + 1 = (s.head ++ [e]).length := by
      rw [h.served.count, List.length_append, List.length_singleton]
      push_cast
      rfl
    have honce : (s.queued ++ [e]).Perm
        (s.processed ++ s.discarded ++ s.handler.held ++ (s.head ++ [e])) := by
      rw [← List.append_assoc]
      exact h.served.once.append_right [e]
    unfold nf_hnat_netevent_handler
    dsimp only
    split
    · rename_i hpending
      exact ⟨⟨hcount, fun _ => .inl hpending, honce⟩, fun _ => ho rfl⟩
    · exact inv_schedule granted hcount (fun _ => ho rfl) honce

lemma inv_take (h : Inv s) : Inv (takeUpdates s) := by
  obtain ⟨⟨hcount, htaken, honce⟩, hempty⟩ := h
  unfold takeUpdates
  cases hhandler : s.handler with
  | started =>
    rw [hhandler] at honce
    refine ⟨⟨?_, fun _ => .inr trivial, ?_⟩, fun hne => hempty fun h0 => hne ?_⟩
    · dsimp only
      rw [hcount, List.length_take, List.length_drop]
      omega
    · dsimp only [Handler.held]
      rw [List.append_assoc _ _ (s.head.drop budget), List.take_append_drop]
      simpa [Handler.held] using honce
    · dsimp only
      rw [h0, List.drop_nil]
  | _ => exact ⟨⟨hcount, htaken, honce⟩, hempty⟩

lemma inv_clear (h : Inv s) : Inv (clearUpdates s) := by
  obtain ⟨⟨hcount, htaken, honce⟩, hempty⟩ := h
  unfold clearUpdates
  cases hhandler : s.handler with
  | clearing taken =>
    rw [hhandler] at honce
    refine ⟨⟨hcount, fun _ => .inr trivial, honce.trans ?_⟩, hempty⟩
    dsimp only [Handler.held]
    rw [List.append_nil]
    refine List.Perm.append_right _ ?_
    rw [List.append_assoc, List.append_assoc]
    exact List.perm_append_comm.append_left _
  | _ => exact ⟨⟨hcount, htaken, honce⟩, hempty⟩

lemma inv_look (h : Inv s) (granted : Bool) : Inv (lookAgain granted s) := by
  obtain ⟨⟨hcount, htaken, honce⟩, hempty⟩ := h
  unfold lookAgain
  cases hhandler : s.handler with
  | looking =>
    rw [hhandler] at honce
    dsimp only
    split
    · rename_i h0
      exact ⟨⟨hcount, fun hne => absurd h0 hne, honce⟩, hempty⟩
    · exact inv_schedule granted hcount hempty honce
  | _ => exact ⟨⟨hcount, htaken, honce⟩, hempty⟩

lemma inv_cleanup (h : Inv s) : Inv (hnat_neigh_update_cleanup s) := by
  refine ⟨⟨rfl, fun hne => absurd rfl hne, h.served.once.trans ?_⟩, fun hne => absurd rfl hne⟩
  dsimp only [hnat_neigh_update_cleanup]
  rw [List.append_nil, List.append_assoc, List.append_assoc, List.append_assoc, List.append_assoc]
  exact (List.perm_append_comm.append_left _).append_left _

/-- One step. -/
lemma inv_step (h : Inv s) (e : Event) (he : Unregistered s e) : Inv (step s e) := by
  cases e with
  | netevent n arp nd alloc granted => exact inv_netevent h granted he
  | start =>
    rw [step]
    split
    · rename_i hstart
      obtain ⟨⟨hcount, -, honce⟩, hempty⟩ := h
      rw [hstart.2] at honce
      exact ⟨⟨hcount, fun _ => .inr trivial, honce⟩, hempty⟩
    · exact h
  | take => exact inv_take h
  | clear => exact inv_clear h
  | look granted => exact inv_look h granted
  | finish =>
    rw [step]
    split
    · rename_i hend
      obtain ⟨⟨hcount, htaken, honce⟩, hempty⟩ := h
      rw [hend] at htaken honce
      exact ⟨⟨hcount, htaken, honce⟩, hempty⟩
    · exact h
  | cleanup => exact inv_cleanup h
  | cancel =>
    rw [step]
    split
    · rename_i harmed
      obtain ⟨⟨hcount, -, honce⟩, hempty⟩ := h
      have h0 : s.head = [] := by
        by_contra hne
        exact harmed.ne' (hempty hne).1
      exact ⟨⟨hcount, fun hne => absurd h0 hne, honce⟩, fun hne => absurd h0 hne⟩
    · exact h
  | cancelled =>
    rw [step]
    split
    · obtain ⟨⟨hcount, htaken, honce⟩, hempty⟩ := h
      exact ⟨⟨hcount, htaken, honce⟩, fun hne => ⟨(hempty hne).1, by
        dsimp only
        rw [(hempty hne).2]⟩⟩
    · exact h

end Steps

/-! ## Runs -/

/-- The steps of the work. -/
def Event.IsWork : Event → Prop
  | .start => True
  | .take => True
  | .clear => True
  | .look _ => True
  | .finish => True
  | _ => False

/-- The work has ended and left nothing in the queue. -/
structure Drained (s t : St) : Prop where
  head : t.head = []
  handler : t.handler = .idle
  queued : t.queued = s.queued
  once : s.queued.Perm (t.processed ++ t.discarded)

section Drain

variable {s : St}

lemma inv_work (h : Inv s) {es : List Event} (hes : ∀ e ∈ es, e.IsWork) : Inv (run step s es) := by
  induction es generalizing s with
  | nil => exact h
  | cons e es ih =>
    obtain ⟨he, hrest⟩ := List.forall_mem_cons.mp hes
    refine ih (inv_step h e ?_) hrest
    cases e with
    | netevent => exact he.elim
    | _ => trivial

/-- The work goes on to its end. -/
def restOfWork : List Event := [.take, .clear, .look true, .finish]

/-- The steps of the work from where it is. -/
lemma run_rest (s : St) : (run step s restOfWork).handler = .idle ∧
    (run step s restOfWork).queued = s.queued ∧
    (run step s restOfWork).head = match s.handler with
      | .started => s.head.drop budget
      | _ => s.head := by
  have hsched : ∀ (granted : Bool) (t : St), (schedule granted t).handler = t.handler ∧
      (schedule granted t).queued = t.queued := fun granted t =>
    ⟨(schedule_frame granted t).2.1, (schedule_frame granted t).2.2.2.2.1⟩
  have hlook : ∀ t : St, t.handler = .looking →
      (lookAgain true t).handler = .ending ∧ (lookAgain true t).queued = t.queued ∧
        (lookAgain true t).head = t.head := by
    intro t ht
    rw [lookAgain, ht]
    dsimp only
    split
    · exact ⟨rfl, rfl, rfl⟩
    · exact ⟨(hsched _ _).1, (hsched _ _).2, schedule_head _ _⟩
  have hfinish : ∀ t : St, t.handler = .ending → (step t .finish).handler = .idle ∧
      (step t .finish).queued = t.queued ∧ (step t .finish).head = t.head := by
    intro t ht
    rw [step, if_pos ht]
    exact ⟨rfl, rfl, rfl⟩
  have hend : ∀ t : St, t.handler = .looking → (run step t [.look true, .finish]).handler = .idle ∧
      (run step t [.look true, .finish]).queued = t.queued ∧
      (run step t [.look true, .finish]).head = t.head := by
    intro t ht
    obtain ⟨hh, hq, hd⟩ := hlook t ht
    obtain ⟨hh', hq', hd'⟩ := hfinish _ hh
    exact ⟨hh', hq'.trans hq, hd'.trans hd⟩
  cases hhandler : s.handler with
  | idle => simp [restOfWork, step, takeUpdates, clearUpdates, lookAgain, hhandler]
  | started =>
    have ht : step s .take = takeUpdates s := rfl
    have hrest := hend (clearUpdates (takeUpdates s)) (by
      simp [takeUpdates, clearUpdates, hhandler])
    have hmid : (clearUpdates (takeUpdates s)).queued = s.queued ∧
        (clearUpdates (takeUpdates s)).head = s.head.drop budget := by
      simp [takeUpdates, clearUpdates, hhandler]
    rw [hmid.1, hmid.2] at hrest
    exact hrest
  | clearing taken =>
    have hrest := hend (clearUpdates (takeUpdates s)) (by
      simp [takeUpdates, clearUpdates, hhandler])
    have hmid : (clearUpdates (takeUpdates s)).queued = s.queued ∧
        (clearUpdates (takeUpdates s)).head = s.head := by
      simp [takeUpdates, clearUpdates, hhandler]
    rw [hmid.1, hmid.2] at hrest
    exact hrest
  | looking =>
    have hmid : clearUpdates (takeUpdates s) = s := by
      simp [takeUpdates, clearUpdates, hhandler]
    have hrun : run step s restOfWork =
        run step (clearUpdates (takeUpdates s)) [.look true, .finish] := rfl
    rw [hrun, hmid]
    exact hend s hhandler
  | ending => simp [restOfWork, step, takeUpdates, clearUpdates, lookAgain, hhandler]

/-- The work alone empties the queue. -/
lemma exists_drained (h : Inv s) : ∃ es, (∀ e ∈ es, e.IsWork) ∧ Drained s (run step s es) := by
  have hwork : ∀ e ∈ restOfWork, e.IsWork := by simp [restOfWork, Event.IsWork]
  -- from a work that does not run, by the length of the queue
  have hidle : ∀ (n : ℕ) (t : St), t.head.length ≤ n → Inv t → t.handler = .idle →
      ∃ es, (∀ e ∈ es, e.IsWork) ∧ Drained t (run step t es) := by
    intro n
    induction n with
    | zero =>
      intro t hn ht hh
      have h0 : t.head = [] := List.length_eq_zero_iff.mp (Nat.le_zero.mp hn)
      have honce := ht.served.once
      rw [hh, h0] at honce
      exact ⟨[], by simp, h0, hh, rfl, by simpa [Handler.held] using honce⟩
    | succ n ih =>
      intro t hn ht hh
      by_cases h0 : t.head = []
      · have honce := ht.served.once
        rw [hh, h0] at honce
        exact ⟨[], by simp, h0, hh, rfl, by simpa [Handler.held] using honce⟩
      · have hpending : t.pending = true := by
          rcases ht.served.taken h0 with hp | hw
          · exact hp
          · rw [hh] at hw
            exact hw.elim
        have hstart : step t .start = { t with pending := false, handler := .started } := by
          rw [step, if_pos ⟨hpending, hh⟩]
        obtain ⟨hh', hq', hd'⟩ := run_rest (step t .start)
        have hd : (run step (step t .start) restOfWork).head = t.head.drop budget := by
          rw [hd', hstart]
        have hq : (run step (step t .start) restOfWork).queued = t.queued := by
          rw [hq', hstart]
        have hinv : Inv (run step (step t .start) restOfWork) :=
          inv_work (inv_step ht .start trivial) hwork
        have hlen : (run step (step t .start) restOfWork).head.length ≤ n := by
          rw [hd, List.length_drop, budget]
          have hpos := List.length_pos_of_ne_nil h0
          omega
        obtain ⟨es, hes, hdrained⟩ := ih _ hlen hinv hh'
        refine ⟨.start :: (restOfWork ++ es), ?_, ?_⟩
        · intro e he
          rcases List.mem_cons.mp he with rfl | he
          · trivial
          · rcases List.mem_append.mp he with he | he
            · exact hwork e he
            · exact hes e he
        · have hrun : run step t (.start :: (restOfWork ++ es)) =
              run step (run step (step t .start) restOfWork) es := by
            rw [run_cons, run, List.foldl_append]
            rfl
          rw [hrun]
          exact ⟨hdrained.head, hdrained.handler, hdrained.queued.trans hq, hq ▸ hdrained.once⟩
  obtain ⟨hh, hq, -⟩ := run_rest s
  obtain ⟨es, hes, hdrained⟩ := hidle _ _ le_rfl (inv_work h hwork) hh
  refine ⟨restOfWork ++ es, fun e he => ?_, ?_⟩
  · rcases List.mem_append.mp he with he | he
    · exact hwork e he
    · exact hes e he
  · have hrun : run step s (restOfWork ++ es) = run step (run step s restOfWork) es := by
      rw [run, List.foldl_append]
      rfl
    rw [hrun]
    exact ⟨hdrained.head, hdrained.handler, hdrained.queued.trans hq, hq ▸ hdrained.once⟩

end Drain

instance : ∀ (s : St) (e : Event), Decidable (Unregistered s e)
  | _, .netevent _ _ _ _ _ => inferInstanceAs (Decidable (_ → _))
  | _, .start | _, .take | _, .clear | _, .look _ | _, .finish | _, .cleanup | _, .cancel
  | _, .cancelled => inferInstanceAs (Decidable True)

/-- In every run in which no update is queued while a cleanup cancels a pending work, the counter is
the length of the queue, a queue that is not empty has a work that will look at it, every update is
once in the queue, in the hands of the work, processed or discarded, and the work alone can empty the
queue. -/
theorem neighbours_served (es : List Event) (h : AllSteps step Unregistered {} es) :
    Served (run step {} es) ∧
      ∃ fs, (∀ e ∈ fs, e.IsWork) ∧ Drained (run step {} es) (run step (run step {} es) fs) := by
  have hinit : Inv {} :=
    ⟨⟨rfl, fun hne => absurd rfl hne, .refl _⟩, fun hne => absurd rfl hne⟩
  have hinv : Inv (run step {} es) := h.invariant hinit fun s e hs he => inv_step hs e he
  exact ⟨hinv.served, exists_drained hinv⟩

/-- A neighbour that is reachable. -/
def sampleNeighbour : Neighbour := ⟨true, 2, [2, 0, 0, 0, 0, 1], 2, [192, 168, 1, 2]⟩

/-- Two updates, of which one is discarded. -/
def sampleRun : List Event :=
  [.netevent sampleNeighbour 1024 1024 true true, .start, .take, .clear, .look true, .finish,
    .netevent sampleNeighbour 1024 1024 true true, .cleanup, .cancel, .cancelled]

theorem neighbours_served_sample : AllSteps step Unregistered {} sampleRun ∧
    Served (run step {} sampleRun) ∧
      ∃ fs, (∀ e ∈ fs, e.IsWork) ∧
        Drained (run step {} sampleRun) (run step (run step {} sampleRun) fs) :=
  have h : AllSteps step Unregistered {} sampleRun := by decide
  ⟨h, neighbours_served sampleRun h⟩

/-- An update that is queued before the cancel of a cleanup stays in the queue without a work. -/
theorem neighbours_stranded : ¬Served (run step {}
    [.netevent sampleNeighbour 1024 1024 true true, .cleanup,
      .netevent sampleNeighbour 1024 1024 true true, .cancel, .cancelled]) := by
  intro h
  have hne : (run step {}
      [.netevent sampleNeighbour 1024 1024 true true, .cleanup,
        .netevent sampleNeighbour 1024 1024 true true, .cancel, .cancelled]).head ≠ [] := by decide
  rcases h.taken hne with hp | hw
  · exact absurd hp (by decide)
  · exact hw

end Hnat.Neigh
