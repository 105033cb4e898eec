import Mt798x.Cli.ObjectEditor

/-!
# Are the commands of the object editor atomic?

Each command checks a parameter just before it applies it, so that a parameter that fails finds
the ones in front of it applied.  `add_call` and `remove_call` moreover touch an attribute before
they know whether its values are good.  The theorem says on which objects and parameters a command
that fails has nevertheless left everything as it was, and one that succeeds has done all it was
told.
-/

namespace Cli

open Batch

variable {entry : Entry} {obj : ℕ} {s t : Store}

/-- What is asked of a command: if it does not end in `ctx.ok()` the objects are as they were and
`change_cb` has not been called; if it does, its parameters have been applied, and `change_cb` has
been called once if there was one. -/
def Atomic {α : Type} (entry : Entry) (s : Store) (named : List α) (applied : Store → Prop)
    (r : Result) : Prop :=
  (r.ended ≠ .ok → r.store = s ∧ r.changes = 0) ∧
    (r.ended = .ok → applied r.store ∧
      r.changes = if named ≠ [] ∧ entry.change_cb then 1 else 0)

lemma call_change_cb_eq {α : Type} (entry : Entry) (named : List α) :
    call_change_cb entry named = if named ≠ [] ∧ entry.change_cb then 1 else 0 := by
  rw [call_change_cb]
  by_cases hnamed : named = []
  · simp [hnamed]
  · cases entry.change_cb <;> simp [hnamed]

lemma atomic_of_failed {α : Type} {named : List α} {applied : Store → Prop} {r : Result}
    (hended : r.ended ≠ .ok) (hchanges : r.changes = 0) :
    Atomic entry s named applied r ↔ r.store = s :=
  ⟨fun h => (h.1 hended).1, fun h => ⟨fun _ => ⟨h, hchanges⟩, fun hok => absurd hok hended⟩⟩

lemma atomic_of_ok {α : Type} {named : List α} {applied : Store → Prop} (errors : List Err) :
    Atomic entry s named applied ⟨t, errors, .ok, call_change_cb entry named⟩ ↔ applied t :=
  ⟨fun h => (h.2 rfl).1, fun h => ⟨fun hne => absurd rfl hne, fun _ => ⟨h, call_change_cb_eq _ _⟩⟩⟩

@[simp] lemma Halt.result_store (how : Halt) (s : Store) : (how.result s).store = s := by
  cases how <;> rfl

lemma Halt.result_failed (how : Halt) (s : Store) :
    (how.result s).ended ≠ .ok ∧ (how.result s).changes = 0 := by
  cases how <;> simp [Halt.result]

/-! ## add -/

/-- The values of every parameter stand in its attribute. -/
def AddApplied (entry : Entry) (obj : ℕ) (named : List (String × List Scalar)) (t : Store) :
    Prop :=
  ∀ arg ∈ named, ∀ cur, entry.named_args arg.1 = some cur → ∀ v ∈ arg.2,
    ∃ xs, t (cur.place obj arg.1) = some (.list xs) ∧ v ∈ xs

/-- Adding the parameter changes nothing: its attribute is there, and there is no value to be
added, or no list to add it to. -/
def AddIdle (entry : Entry) (obj : ℕ) (s : Store) (arg : String × List Scalar) : Prop :=
  ∀ cur, entry.named_args arg.1 = some cur → s.get (cur.place obj arg.1) ≠ .one .null ∧
    ∀ xs, s.get (cur.place obj arg.1) = .list xs → arg.2 = []

/-- The attribute of the parameter is there, if the parameter is known. -/
def Present (entry : Entry) (obj : ℕ) (s : Store) (arg : String × List Scalar) : Prop :=
  ∀ cur, entry.named_args arg.1 = some cur → s.get (cur.place obj arg.1) ≠ .one .null

/-- There is a list to add the values to, or room for one, or no value. -/
def Addable (entry : Entry) (obj : ℕ) (s : Store) (arg : String × List Scalar) : Prop :=
  ∀ cur, entry.named_args arg.1 = some cur → arg.2 = [] ∨
    s.get (cur.place obj arg.1) = .one .null ∨ ∃ xs, s.get (cur.place obj arg.1) = .list xs

/-- The parameters for which `add_call` is atomic: when one is the first that fails, those in
front of it change nothing and its own attribute is there; when none fails, their attributes are
lists. -/
def AddSafe (entry : Entry) (s : Store) (named : List (String × List Scalar)) : Prop :=
  ∀ obj, entry.edit_object = some obj →
    (∀ pre arg, StopsAt (addTurn entry obj) s named pre arg →
      (∀ q ∈ pre, AddIdle entry obj s q) ∧ Present entry obj s arg) ∧
    ((∀ pre arg, ¬ StopsAt (addTurn entry obj) s named pre arg) →
      ∀ arg ∈ named, Addable entry obj s arg)

/-- Lists grow, and other values stay. -/
structure Grows (s t : Store) : Prop where
  list : ∀ p xs, s p = some (.list xs) → ∃ ys, t p = some (.list (xs ++ ys))
  one : ∀ p x, x ≠ .null → s p = some (.one x) → t p = some (.one x)

namespace Grows

lemma refl (s : Store) : Grows s s where
  list := fun _ xs h => ⟨[], by rw [h, List.append_nil]⟩
  one := fun _ _ _ h => h

lemma trans {u : Store} (h : Grows s t) (h' : Grows t u) : Grows s u where
  list := by
    intro p xs hp
    obtain ⟨ys, hys⟩ := h.list p xs hp
    obtain ⟨zs, hzs⟩ := h'.list p (xs ++ ys) hys
    exact ⟨ys ++ zs, by rw [hzs, List.append_assoc]⟩
  one := fun p x hx hp => h'.one p x hx (h.one p x hx hp)

end Grows

lemma get_eq_list {p : Place} {xs : List Scalar} : s.get p = .list xs ↔ s p = some (.list xs) := by
  rw [Store.get]
  cases s p <;> simp

lemma get_eq_one {p : Place} {x : Scalar} (hx : x ≠ .null) :
    s.get p = .one x ↔ s p = some (.one x) := by
  rw [Store.get]
  cases hp : s p with
  | none => simpa using hx.symm
  | some v => simp

lemma orEmpty_push (s : Store) (p : Place) (val : List Scalar) :
    (s.get p = .one .null ∧
        (s.orEmpty p).push p val = Function.update s p (some (.list val))) ∨
      (∃ xs, s.get p = .list xs ∧
        (s.orEmpty p).push p val = Function.update s p (some (.list (xs ++ val)))) ∨
      ∃ x, x ≠ .null ∧ s.get p = .one x ∧ (s.orEmpty p).push p val = s := by
  cases hget : s.get p with
  | list xs =>
    refine Or.inr (Or.inl ⟨xs, rfl, ?_⟩)
    have horEmpty : s.orEmpty p = s := if_neg (by rw [hget]; simp)
    rw [horEmpty, Store.push, hget]
  | one x =>
    by_cases hx : x = .null
    · subst hx
      refine Or.inl ⟨rfl, ?_⟩
      have horEmpty : s.orEmpty p = Function.update s p (some (.list [])) := if_pos hget
      have hempty : Store.get (Function.update s p (some (.list []))) p = .list [] := by
        simp [Store.get]
      rw [horEmpty, Store.push, hempty]
      simp
    · refine Or.inr (Or.inr ⟨x, hx, rfl, ?_⟩)
      have horEmpty : s.orEmpty p = s := if_neg (by rw [hget]; simpa using hx)
      rw [horEmpty, Store.push, hget]

lemma orEmpty_of_ne {p : Place} (h : s.get p ≠ .one .null) : s.orEmpty p = s := if_neg h

lemma grows_orEmpty (s : Store) (p : Place) : Grows s (s.orEmpty p) := by
  by_cases h : s.get p = .one .null
  · have horEmpty : s.orEmpty p = Function.update s p (some (.list [])) := if_pos h
    rw [horEmpty]
    refine ⟨fun q xs hq => ?_, fun q x hx hq => ?_⟩ <;> by_cases hqp : q = p
    · subst hqp
      rw [get_eq_list.mpr hq] at h
      simp at h
    · exact ⟨[], by rw [Function.update_of_ne hqp, hq, List.append_nil]⟩
    · subst hqp
      rw [(get_eq_one hx).mpr hq] at h
      exact absurd (Value.one.inj h) hx
    · rw [Function.update_of_ne hqp, hq]
  · rw [orEmpty_of_ne h]
    exact Grows.refl s

lemma grows_orEmpty_push (s : Store) (p : Place) (val : List Scalar) :
    Grows s ((s.orEmpty p).push p val) := by
  refine (grows_orEmpty s p).trans ?_
  rw [Store.push]
  cases hget : (s.orEmpty p).get p with
  | one x => exact Grows.refl _
  | list xs =>
    show Grows _ (Function.update (s.orEmpty p) p (some (.list (xs ++ val))))
    refine ⟨fun q ys hq => ?_, fun q x hx hq => ?_⟩ <;> by_cases hqp : q = p
    · subst hqp
      rw [get_eq_list, hq] at hget
      cases hget
      exact ⟨val, Function.update_self ..⟩
    · exact ⟨[], by rw [Function.update_of_ne hqp, hq, List.append_nil]⟩
    · subst hqp
      rw [get_eq_list, hq] at hget
      cases hget
    · rw [Function.update_of_ne hqp, hq]

lemma addTurn_next {arg : String × List Scalar} (h : addTurn entry obj s arg = .next t) :
    ∃ cur, entry.named_args arg.1 = some cur ∧
      t = (s.orEmpty (cur.place obj arg.1)).push (cur.place obj arg.1) arg.2 := by
  rw [addTurn] at h
  cases hcur : entry.named_args arg.1 with
  | none => simp [hcur] at h
  | some cur =>
    simp only [hcur] at h
    split at h
    · cases h
    · cases h
      exact ⟨cur, rfl, rfl⟩

lemma addTurn_stop {arg : String × List Scalar} {how : Halt}
    (h : addTurn entry obj s arg = .stop how t) :
    (entry.named_args arg.1 = none ∧ t = s) ∨
      ∃ cur, entry.named_args arg.1 = some cur ∧ t = s.orEmpty (cur.place obj arg.1) := by
  rw [addTurn] at h
  cases hcur : entry.named_args arg.1 with
  | none =>
    simp only [hcur, Turn.stop.injEq] at h
    exact Or.inl ⟨rfl, h.2.symm⟩
  | some cur =>
    simp only [hcur] at h
    split at h
    · cases h
      exact Or.inr ⟨cur, rfl, rfl⟩
    · cases h

lemma grows_of_passes {l : List (String × List Scalar)} (h : Passes (addTurn entry obj) s l t) :
    Grows s t := by
  induction l generalizing s with
  | nil =>
    obtain rfl : t = s := h
    exact Grows.refl _
  | cons arg l ih =>
    obtain ⟨m, hturn, hrest⟩ := h
    obtain ⟨cur, -, rfl⟩ := addTurn_next hturn
    exact (grows_orEmpty_push s _ _).trans (ih hrest)

lemma ne_of_grows {m : Store} {p : Place} {xs : List Scalar} (hm : m p = some (.list xs))
    (hs : s p ≠ some (.list xs)) (hlen : ∀ ys, s p = some (.list ys) → ys.length ≤ xs.length)
    (h : Grows m t) : t ≠ s := by
  rintro rfl
  obtain ⟨ys, hys⟩ := h.list p xs hm
  have hle := hlen _ hys
  rw [List.length_append] at hle
  have hnil : ys = [] := List.length_eq_zero_iff.mp (by omega)
  rw [hnil, List.append_nil] at hys
  exact hs hys

/-- A turn of `add_call` that goes on changes nothing, or something for good. -/
lemma addTurn_idle {m : Store} {arg : String × List Scalar}
    (h : addTurn entry obj s arg = .next m) :
    (AddIdle entry obj s arg ∧ m = s) ∨
      (¬ AddIdle entry obj s arg ∧ ∀ t, Grows m t → t ≠ s) := by
  obtain ⟨cur, hcur, rfl⟩ := addTurn_next h
  rcases orEmpty_push s (cur.place obj arg.1) arg.2 with
    ⟨hget, heq⟩ | ⟨xs, hget, heq⟩ | ⟨x, hx, hget, heq⟩
  · refine Or.inr ⟨fun hidle => (hidle cur hcur).1 hget, fun t hgrows => ?_⟩
    have hnot : ∀ ys, s (cur.place obj arg.1) ≠ some (.list ys) := by
      intro ys hys
      rw [get_eq_list.mpr hys] at hget
      cases hget
    rw [heq] at hgrows
    exact ne_of_grows (Function.update_self ..) (hnot _) (fun ys hys => absurd hys (hnot ys)) hgrows
  · by_cases hval : arg.2 = []
    · refine Or.inl ⟨fun cur' hcur' => ?_, ?_⟩
      · obtain rfl : cur = cur' := by simpa [hcur] using hcur'
        exact ⟨by rw [hget]; simp, fun _ _ => hval⟩
      · rw [heq, hval, List.append_nil, ← get_eq_list.mp hget]
        exact Function.update_eq_self ..
    · refine Or.inr ⟨fun hidle => hval ((hidle cur hcur).2 xs hget), fun t hgrows => ?_⟩
      have hxs := get_eq_list.mp hget
      have hpos := List.length_pos_iff.mpr hval
      rw [heq] at hgrows
      refine ne_of_grows (Function.update_self ..) ?_ (fun ys hys => ?_) hgrows
      · rw [hxs]
        intro hcontra
        have hlen := congrArg List.length (Value.list.inj (Option.some.inj hcontra))
        rw [List.length_append] at hlen
        omega
      · rw [hxs] at hys
        cases hys
        rw [List.length_append]
        omega
  · refine Or.inl ⟨fun cur' hcur' => ?_, heq⟩
    obtain rfl : cur = cur' := by simpa [hcur] using hcur'
    rw [hget]
    exact ⟨by simpa using hx, fun ys hys => by cases hys⟩

/-- A stop of `add_call` leaves the store as it was at the start when nothing in front of it
changes anything and the attribute it is about is there. -/
lemma add_stopped_iff {pre : List (String × List Scalar)} {arg : String × List Scalar}
    {how : Halt} {m : Store} (hpass : Passes (addTurn entry obj) s pre m)
    (hstop : addTurn entry obj m arg = .stop how t) :
    t = s ↔ (∀ q ∈ pre, AddIdle entry obj s q) ∧ Present entry obj s arg := by
  have hgrows : Grows m t := by
    rcases addTurn_stop hstop with ⟨-, rfl⟩ | ⟨cur, -, rfl⟩
    · exact Grows.refl _
    · exact grows_orEmpty m _
  induction pre generalizing s with
  | nil =>
    cases hpass
    rcases addTurn_stop hstop with ⟨hnone, rfl⟩ | ⟨cur, hcur, rfl⟩
    · exact ⟨fun _ => ⟨by simp, fun cur hcur => by rw [hnone] at hcur; cases hcur⟩, fun _ => rfl⟩
    · constructor
      · intro heq
        refine ⟨by simp, fun cur' hcur' hget => ?_⟩
        obtain rfl : cur = cur' := by simpa [hcur] using hcur'
        have hplace := congrFun heq (cur.place obj arg.1)
        rw [Store.orEmpty, if_pos hget, Function.update_self] at hplace
        rw [get_eq_list.mpr hplace.symm] at hget
        cases hget
      · rintro ⟨-, hpresent⟩
        exact orEmpty_of_ne (hpresent cur hcur)
  | cons q pre ih =>
    obtain ⟨n, hturn, hrest⟩ := hpass
    rcases addTurn_idle hturn with ⟨hidle, rfl⟩ | ⟨hnot, hne⟩
    · rw [List.forall_mem_cons, and_iff_right hidle]
      exact ih hrest
    · constructor
      · intro heq
        exact absurd heq (hne t ((grows_of_passes hrest).trans hgrows))
      · rintro ⟨hall, -⟩
        exact absurd (hall q (List.mem_cons_self ..)) hnot

/-- An attribute that is not there can only become a list. -/
lemma null_or_list_of_passes {l : List (String × List Scalar)} {p : Place}
    (h : Passes (addTurn entry obj) s l t) (hnull : s.get p = .one .null) :
    t.get p = .one .null ∨ ∃ ys, t.get p = .list ys := by
  induction l generalizing s with
  | nil =>
    obtain rfl : t = s := h
    exact Or.inl hnull
  | cons q l ih =>
    obtain ⟨m, hturn, hrest⟩ := h
    obtain ⟨cur, -, rfl⟩ := addTurn_next hturn
    rcases orEmpty_push s (cur.place obj q.1) q.2 with
      ⟨-, heq⟩ | ⟨xs, hget, heq⟩ | ⟨x, -, -, heq⟩ <;> rw [heq] at hrest
    · by_cases hp : p = cur.place obj q.1
      · subst hp
        obtain ⟨zs, hzs⟩ := (grows_of_passes hrest).list _ _ (Function.update_self ..)
        exact Or.inr ⟨_, get_eq_list.mpr hzs⟩
      · refine ih hrest ?_
        rw [Store.get, Function.update_of_ne hp]
        exact hnull
    · by_cases hp : p = cur.place obj q.1
      · subst hp
        rw [hnull] at hget
        cases hget
      · refine ih hrest ?_
        rw [Store.get, Function.update_of_ne hp]
        exact hnull
    · exact ih hrest hnull

/-- When all parameters have been added, their values stand in their attributes if these were
lists or not there. -/
lemma addApplied_iff {named : List (String × List Scalar)}
    (hpass : Passes (addTurn entry obj) s named t) :
    AddApplied entry obj named t ↔ ∀ arg ∈ named, Addable entry obj s arg := by
  constructor
  · intro happlied arg harg cur hcur
    cases hget : s.get (cur.place obj arg.1) with
    | list xs => exact Or.inr (Or.inr ⟨xs, rfl⟩)
    | one x =>
      by_cases hx : x = .null
      · exact Or.inr (Or.inl (by rw [hx]))
      · refine Or.inl (List.eq_nil_iff_forall_not_mem.mpr fun v hv => ?_)
        obtain ⟨xs, hxs, -⟩ := happlied arg harg cur hcur v hv
        rw [(grows_of_passes hpass).one _ x hx ((get_eq_one hx).mp hget)] at hxs
        cases hxs
  · intro hall arg harg cur hcur v hv
    obtain ⟨pre, post, rfl⟩ := List.append_of_mem harg
    obtain ⟨m, hpre, n, hturn, hpost⟩ := hpass.split
    obtain ⟨cur', hcur', rfl⟩ := addTurn_next hturn
    obtain rfl : cur = cur' := by simpa [hcur] using hcur'
    have hgrown := grows_of_passes hpre
    have hlater := grows_of_passes hpost
    -- the attribute is a list once the parameter has been added
    have hlist : ∃ xs, (m.orEmpty (cur.place obj arg.1)).push (cur.place obj arg.1) arg.2
        (cur.place obj arg.1) = some (.list xs) ∧ v ∈ xs := by
      rcases orEmpty_push m (cur.place obj arg.1) arg.2 with
        ⟨-, heq⟩ | ⟨xs, -, heq⟩ | ⟨x, hx, hget, -⟩
      · exact ⟨arg.2, by rw [heq, Function.update_self], hv⟩
      · exact ⟨xs ++ arg.2, by rw [heq, Function.update_self], List.mem_append_right _ hv⟩
      · exfalso
        rcases hall arg harg cur hcur with hnil | hnull | ⟨xs, hxs⟩
        · rw [hnil] at hv
          cases hv
        · rcases null_or_list_of_passes hpre hnull with h | ⟨ys, h⟩
          · rw [hget] at h
            exact hx (Value.one.inj h)
          · rw [hget] at h
            cases h
        · obtain ⟨ys, hys⟩ := hgrown.list _ xs (get_eq_list.mp hxs)
          rw [get_eq_list.mpr hys] at hget
          cases hget
    obtain ⟨xs, hxs, hmem⟩ := hlist
    obtain ⟨ys, hys⟩ := hlater.list _ xs hxs
    exact ⟨xs ++ ys, hys, List.mem_append_left _ hmem⟩

lemma add_atomic_iff (entry : Entry) (s : Store) (named : List (String × List Scalar)) :
    (∀ obj, entry.edit_object = some obj →
      Atomic entry s named (AddApplied entry obj named) (add_call entry s named)) ↔
    AddSafe entry s named := by
  refine forall_congr' fun obj => imp_congr_right fun hobj => ?_
  simp only [add_call, hobj]
  rcases loop_cases (addTurn entry obj) s named with
    ⟨hpass, hnone⟩ | ⟨pre, arg, post, m, how, hsplit, hpass, hstop, hsome⟩
  · have heq : Batch.loop (addTurn entry obj) s named =
        ((Batch.loop (addTurn entry obj) s named).1, none) := by rw [← hnone]
    rw [heq]
    simp only
    rw [atomic_of_ok, addApplied_iff hpass]
    exact ⟨fun h => ⟨fun pre arg hstop => absurd hstop hpass.not_stopsAt, fun _ => h⟩,
      fun h => h.2 fun pre arg => hpass.not_stopsAt⟩
  · have heq : Batch.loop (addTurn entry obj) s named =
        ((Batch.loop (addTurn entry obj) s named).1, some how) := by rw [← hsome]
    have hstops : StopsAt (addTurn entry obj) s named pre arg :=
      ⟨post, m, how, _, hsplit, hpass, hstop⟩
    rw [heq]
    simp only
    rw [atomic_of_failed (how.result_failed _).1 (how.result_failed _).2, Halt.result_store,
      add_stopped_iff hpass hstop]
    refine ⟨fun h => ⟨fun pre' arg' hstop' => ?_, fun hnot => absurd hstops (hnot pre arg)⟩,
      fun h => h.1 pre arg hstops⟩
    obtain ⟨rfl, rfl⟩ := hstops.unique hstop'
    exact h

/-! ## set -/

/-- The assignment that a parameter of `set_call` makes; a name without specification makes
none. -/
def setWrite (entry : Entry) (obj : ℕ) (arg : String × Value) : Option (Place × Option Value) :=
  (entry.named_args arg.1).map fun cur =>
    (cur.place obj arg.1, if arg.2 = .one .null then none else some arg.2)

/-- What the last of some assignments to each place assigns is what the place holds. -/
def Held (s : Store) (ws : List (Place × Option Value)) : Prop :=
  ∀ pre w post, ws = pre ++ w :: post → (∀ v ∈ post, v.1 ≠ w.1) → s w.1 = w.2

/-- The attributes hold what the parameters say, where several edit one attribute the last. -/
def SetApplied (entry : Entry) (obj : ℕ) (named : List (String × Value)) (t : Store) : Prop :=
  Held t (named.filterMap (setWrite entry obj))

/-- The parameters for which `set_call` is atomic: when one is the first that fails, the
attributes hold already what those in front of it say. -/
def SetSafe (entry : Entry) (s : Store) (named : List (String × Value)) : Prop :=
  ∀ obj, entry.edit_object = some obj → ∀ pre arg, StopsAt (setTurn entry obj) s named pre arg →
    Held s (pre.filterMap (setWrite entry obj))

lemma setTurn_next {arg : String × Value} (h : setTurn entry obj s arg = .next t) :
    t = (setWrite entry obj arg).toList.foldl write s := by
  rw [setTurn] at h
  cases hcur : entry.named_args arg.1 with
  | none =>
    simp only [hcur, Turn.next.injEq] at h
    simp [setWrite, hcur, h]
  | some cur =>
    simp only [hcur] at h
    by_cases hnull : arg.2 = .one .null
    · rw [if_pos hnull] at h
      cases h
      simp [setWrite, hcur, hnull, write]
    · rw [if_neg hnull] at h
      split at h
      · cases h
      · cases h
        simp [setWrite, hcur, hnull, write]

lemma setTurn_stop {arg : String × Value} {how : Halt}
    (h : setTurn entry obj s arg = .stop how t) : t = s := by
  rw [setTurn] at h
  cases hcur : entry.named_args arg.1 with
  | none => simp [hcur] at h
  | some cur =>
    simp only [hcur] at h
    by_cases hnull : arg.2 = .one .null
    · rw [if_pos hnull] at h
      cases h
    · rw [if_neg hnull] at h
      split at h <;> cases h
      rfl

lemma set_passes {l : List (String × Value)} (h : Passes (setTurn entry obj) s l t) :
    t = (l.filterMap (setWrite entry obj)).foldl write s := by
  induction l generalizing s with
  | nil => exact h
  | cons arg l ih =>
    obtain ⟨m, hturn, hrest⟩ := h
    obtain rfl := setTurn_next hturn
    rw [ih hrest, List.filterMap_cons]
    cases setWrite entry obj arg with
    | none => rfl
    | some w => rfl

lemma held_foldl (s : Store) (ws : List (Place × Option Value)) :
    Held (ws.foldl write s) ws := by
  rintro pre w post rfl hlast
  exact foldl_write_last hlast

lemma set_atomic_iff (entry : Entry) (s : Store) (named : List (String × Value)) :
    (∀ obj, entry.edit_object = some obj →
      Atomic entry s named (SetApplied entry obj named) (set_call entry s named)) ↔
    SetSafe entry s named := by
  refine forall_congr' fun obj => imp_congr_right fun hobj => ?_
  simp only [set_call, hobj]
  rcases loop_cases (setTurn entry obj) s named with
    ⟨hpass, hnone⟩ | ⟨pre, arg, post, m, how, hsplit, hpass, hstop, hsome⟩
  · have heq : Batch.loop (setTurn entry obj) s named =
        ((Batch.loop (setTurn entry obj) s named).1, none) := by rw [← hnone]
    have happlied : SetApplied entry obj named (Batch.loop (setTurn entry obj) s named).1 := by
      rw [set_passes hpass]
      exact held_foldl s _
    rw [heq]
    simp only
    rw [atomic_of_ok]
    exact ⟨fun _ pre arg hstop => absurd hstop hpass.not_stopsAt, fun _ => happlied⟩
  · have heq : Batch.loop (setTurn entry obj) s named =
        ((Batch.loop (setTurn entry obj) s named).1, some how) := by rw [← hsome]
    have hstops : StopsAt (setTurn entry obj) s named pre arg :=
      ⟨post, m, how, _, hsplit, hpass, hstop⟩
    have hsame : (Batch.loop (setTurn entry obj) s named).1 = s ↔
        Held s (pre.filterMap (setWrite entry obj)) := by
      rw [setTurn_stop hstop, set_passes hpass]
      exact foldl_write_eq_iff
    rw [heq]
    simp only
    rw [atomic_of_failed (how.result_failed _).1 (how.result_failed _).2, Halt.result_store, hsame]
    refine ⟨fun h pre' arg' hstop' => ?_, fun h => h pre arg hstops⟩
    obtain ⟨rfl, rfl⟩ := hstops.unique hstop'
    exact h

end Cli
