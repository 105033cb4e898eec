import Mt798x.Cli.Removal
import Mt798x.Lib.Marks
import Mt798x.Lib.Runs

/-!
# Editable lists and values

The object editor makes the commands `add`, `set`, `remove` and `show` of the parameters of an
object.  The reference semantics says what becomes of an attribute without markers and without
looking at other objects: `set` replaces it, `add` appends, and `remove` resolves all its values
against the list before the command.  Runs of successful commands follow the reference as long as
the commands stay off the places where the editor does something else.
-/

namespace Cli

open Batch Marks Runs

/-! ## The editor -/

/-- The specification of a parameter: what the commands look at, whether it may be left empty, and
what `show` reports when it is not there. -/
structure Spec where
  param : Param
  allow_empty : Bool := false
  default : Value := .one .null

/-- The editor of an object: `info.named_args`, `info.edit_object`, and whether there is an
`info.change_cb`. -/
structure Editor where
  params : String → Option Spec
  edit_object : Option ℕ
  change_cb : Bool

/-- `add_params` -/
def add_params (params : String → Option Spec) (name : String) : Option Param :=
  ((params name).filter fun val => val.param.multiple).map fun val => val.param

/-- `set_params` -/
def set_params (params : String → Option Spec) (name : String) : Option Param :=
  (params name).map fun val => val.param

/-- `remove_params` -/
def remove_params (params : String → Option Spec) (name : String) : Option Param :=
  ((params name).filter fun val => val.param.multiple).map fun val =>
    { val.param with attribute_allow_empty := val.allow_empty }

/-- The commands that edit. -/
inductive Command where
  | add (named : List (String × List Scalar))
  | set (named : List (String × Value))
  | remove (named : List (String × List String))

namespace Editor

variable (ed : Editor)

/-- The entry of the editor with these parameters. -/
def entry (named_args : String → Option Param) : Entry :=
  ⟨named_args, ed.edit_object, ed.change_cb⟩

/-- What a command comes to. -/
def call (s : Store) : Command → Result
  | .add named => add_call (ed.entry (add_params ed.params)) s named
  | .set named => set_call (ed.entry (set_params ed.params)) s named
  | .remove named => remove_call (ed.entry (remove_params ed.params)) s named

/-- The objects after a command. -/
def step (s : Store) (c : Command) : Store := (ed.call s c).store

/-- The value that `show_call` reports for a parameter, null if none. -/
def show_call (s : Store) (name : String) : Value :=
  match ed.edit_object, ed.params name with
  | some obj, some spec =>
    let val := s.get (spec.param.get_object.getD obj, spec.param.attr.getD name)
    if val = .one .null then spec.default else val
  | _, _ => .one .null

end Editor

/-! ## The reference semantics -/

namespace Reference

/-- The list of a parameter whose attribute holds a list or nothing. -/
def items : Value → Option (List Scalar)
  | .list xs => some xs
  | .one .null => some []
  | .one _ => none

/-- The value is one for the parameter: a list if it is a list parameter, and no list otherwise. -/
def Fits (cur : Param) : Value → Prop
  | .one x => x = .null ∨ ¬ cur.multiple
  | .list _ => cur.multiple

instance (cur : Param) : (v : Value) → Decidable (Fits cur v)
  | .one x => inferInstanceAs (Decidable (x = .null ∨ ¬ cur.multiple))
  | .list _ => inferInstanceAs (Decidable (cur.multiple = true))

/-- The value repeats nothing. -/
def Plain : Value → Prop
  | .one _ => True
  | .list xs => xs.Nodup

instance : (v : Value) → Decidable (Plain v)
  | .one _ => inferInstanceAs (Decidable True)
  | .list xs => inferInstanceAs (Decidable xs.Nodup)

/-- The position that a value names in a list some of whose positions are taken already: the
number it is the text of, counted from 1, or the first equal element. -/
def resolve (xs : List Scalar) (taken : List ℕ) (idx : String) : Option ℕ :=
  match number idx with
  | some n => if 1 ≤ n ∧ n ≤ xs.length then some (n - 1).toNat else none
  | none => firstFree (.str idx) xs taken

/-- The positions that values name, with these taken already. -/
def positions (xs : List Scalar) : List ℕ → List String → Option (List ℕ)
  | taken, [] => some taken
  | taken, idx :: rest => (resolve xs taken idx).bind fun i => positions xs (i :: taken) rest

variable (ed : Editor) (obj : ℕ)

/-- The values are appended to the list of the parameter. -/
def add (s : Store) (arg : String × List Scalar) : Option Store :=
  (add_params ed.params arg.1).bind fun cur =>
    (items (s.get (cur.place obj arg.1))).bind fun xs =>
      if cur.allow_duplicate ∨ (xs ++ arg.2).Nodup then
        some (Function.update s (cur.place obj arg.1) (some (.list (xs ++ arg.2))))
      else none

/-- The value replaces the one of the parameter, and null deletes it; a parameter that is not
known is passed over. -/
def set (s : Store) (arg : String × Value) : Option Store :=
  match set_params ed.params arg.1 with
  | none => some s
  | some cur =>
    if Fits cur arg.2 ∧ (cur.multiple → cur.allow_duplicate ∨ Plain arg.2) then
      some (Function.update s (cur.place obj arg.1)
        (if arg.2 = .one .null then none else some arg.2))
    else none

/-- The entries that the values name are taken out of the list of the parameter, which is deleted
with its last entry if it may be left empty. -/
def remove (s : Store) (arg : String × List String) : Option Store :=
  (remove_params ed.params arg.1).bind fun cur =>
    match s.get (cur.place obj arg.1) with
    | .list xs => (positions xs [] arg.2).map fun taken =>
      Function.update s (cur.place obj arg.1)
        (if cur.attribute_allow_empty ∧ without xs taken = [] then none
          else some (.list (without xs taken)))
    | .one x => if x = .null ∧ arg.2 = [] then some s else none

end Reference

namespace Editor

variable (ed : Editor)

/-- The reference semantics of a command; `none` if it is rejected. -/
def reference (s : Store) (c : Command) : Option Store :=
  ed.edit_object.bind fun obj =>
    match c with
    | .add named => named.foldlM (Reference.add ed obj) s
    | .set named => named.foldlM (Reference.set ed obj) s
    | .remove named => named.foldlM (Reference.remove ed obj) s

/-- What is to be reported for a parameter: what its attribute holds, or the default. -/
def reported (s : Store) (name : String) : Value :=
  match ed.edit_object, ed.params name with
  | some obj, some spec =>
    if s.get (spec.param.place obj name) = .one .null then spec.default
    else s.get (spec.param.place obj name)
  | _, _ => .one .null

/-! ## Conditions -/

/-- The parameters say clearly what they edit: no attribute has the empty name, and list parameters
of one attribute agree whether it may hold a value twice. -/
structure Regular : Prop where
  attr : ∀ name spec, ed.params name = some spec → spec.param.attr ≠ some ""
  agree : ∀ obj name spec name' spec', ed.edit_object = some obj → ed.params name = some spec →
    ed.params name' = some spec' → spec.param.multiple → spec'.param.multiple →
    spec.param.place obj name = spec'.param.place obj name' →
    spec.param.allow_duplicate = spec'.param.allow_duplicate

/-- List parameters without `allow_duplicate` hold no value twice. -/
def Unique (s : Store) : Prop :=
  ∀ obj name spec, ed.edit_object = some obj → ed.params name = some spec →
    spec.param.multiple → ¬ spec.param.allow_duplicate →
    ∀ xs, s.get (spec.param.place obj name) = .list xs → xs.Nodup

variable (obj : ℕ)

/-- The condition on a parameter of `add`: its attribute holds a list or nothing, and the values
that the list has already are found where duplicates are looked for. -/
def AddMet (s : Store) (arg : String × List Scalar) : Prop :=
  ∀ cur, add_params ed.params arg.1 = some cur →
    (Reference.items (s.get (cur.place obj arg.1))).isSome ∧
      (¬ cur.allow_duplicate → ∀ xs, s.get (cur.place obj arg.1) = .list xs →
        ∀ v ∈ arg.2, v ∈ xs → (s.get (cur.objPlace obj arg.1)).truthy ∧
          found (s.get (cur.objPlace obj arg.1)) v)

/-- The condition on a parameter of `set`: a list parameter is given a list, another one none, and
a list without duplicates has no value that is found where duplicates are looked for. -/
def SetMet (s : Store) (arg : String × Value) : Prop :=
  ∀ cur, set_params ed.params arg.1 = some cur → Reference.Fits cur arg.2 ∧
    (cur.multiple → ¬ cur.allow_duplicate → ∀ xs, arg.2 = .list xs → xs.Nodup →
      ∀ v ∈ xs, ¬ ((s.get (cur.objPlace obj arg.1)).truthy ∧
        found (s.get (cur.objPlace obj arg.1)) v))

/-- The condition on a parameter of `remove`: its attribute holds a list without nulls, and no
position is zero or negative; or there is nothing, and nothing to be removed. -/
def RemoveMet (s : Store) (arg : String × List String) : Prop :=
  ∀ cur, remove_params ed.params arg.1 = some cur →
    (∃ xs, s.get (cur.place obj arg.1) = .list xs ∧ .null ∉ xs ∧
      ∀ idx ∈ arg.2, ∀ n, number idx = some n → 1 ≤ n) ∨
    (s.get (cur.place obj arg.1) = .one .null ∧ arg.2 = [])

/-- The condition on a command: each of its parameters meets the one on it when its turn comes. -/
def Met (s : Store) (c : Command) : Prop :=
  ∀ obj, ed.edit_object = some obj →
    match c with
    | .add named => Along (addTurn (ed.entry (add_params ed.params)) obj) (ed.AddMet obj) s named
    | .set named => Along (setTurn (ed.entry (set_params ed.params)) obj) (ed.SetMet obj) s named
    | .remove named =>
      Along (removeTurn (ed.entry (remove_params ed.params)) obj)
        (fun t => ed.RemoveMet obj t.1) (s, []) named

variable {ed obj} {s t : Store}

/-! ## Values are not repeated -/

lemma get_update (s : Store) (p q : Place) (v : Option Value) :
    Store.get (Function.update s p v) q = if q = p then v.getD (.one .null) else s.get q := by
  by_cases h : q = p
  · subst h
    simp [Store.get]
  · simp [Store.get, h]

lemma Unique.update (hs : ed.Unique s) (hed : ed.Regular) (hobj : ed.edit_object = some obj)
    {name : String} {spec : Spec} (hspec : ed.params name = some spec) {v : Option Value}
    (hv : ∀ ys, v = some (.list ys) → spec.param.multiple ∧
      (¬ spec.param.allow_duplicate → ys.Nodup)) :
    ed.Unique (Function.update s (spec.param.place obj name) v) := by
  intro obj' name' spec' hobj' hspec' hmultiple hallow xs hget
  obtain rfl : obj = obj' := by simpa [hobj] using hobj'
  rw [get_update] at hget
  split at hget
  · rename_i heq
    cases v with
    | none => cases hget
    | some v =>
      obtain rfl : v = .list xs := hget
      obtain ⟨hlist, hnodup⟩ := hv xs rfl
      have hagree := hed.agree obj name spec name' spec' hobj hspec hspec' hlist hmultiple heq.symm
      exact hnodup (hagree ▸ hallow)
  · exact hs obj name' spec' hobj hspec' hmultiple hallow xs hget

lemma add_params_eq_some {params : String → Option Spec} {name : String} {cur : Param} :
    add_params params name = some cur ↔
      ∃ spec, params name = some spec ∧ spec.param.multiple = true ∧ spec.param = cur := by
  simp [add_params, Option.filter_eq_some_iff, and_assoc]

lemma set_params_eq_some {params : String → Option Spec} {name : String} {cur : Param} :
    set_params params name = some cur ↔ ∃ spec, params name = some spec ∧ spec.param = cur := by
  simp [set_params]

lemma remove_params_eq_some {params : String → Option Spec} {name : String} {cur : Param} :
    remove_params params name = some cur ↔
      ∃ spec, params name = some spec ∧ spec.param.multiple = true ∧
        { spec.param with attribute_allow_empty := spec.allow_empty } = cur := by
  simp [remove_params, Option.filter_eq_some_iff, and_assoc]

lemma Unique.add (hs : ed.Unique s) (hed : ed.Regular) (hobj : ed.edit_object = some obj)
    {arg : String × List Scalar} (h : Reference.add ed obj s arg = some t) : ed.Unique t := by
  rw [Reference.add] at h
  obtain ⟨cur, hcur, h⟩ := Option.bind_eq_some_iff.mp h
  obtain ⟨xs, hxs, h⟩ := Option.bind_eq_some_iff.mp h
  obtain ⟨spec, hspec, hmultiple, rfl⟩ := add_params_eq_some.mp hcur
  split at h
  · rename_i hallow
    cases h
    refine hs.update hed hobj hspec fun ys hys => ?_
    cases hys
    exact ⟨hmultiple, fun hnot => hallow.resolve_left hnot⟩
  · cases h

lemma Unique.set (hs : ed.Unique s) (hed : ed.Regular) (hobj : ed.edit_object = some obj)
    {arg : String × Value} (h : Reference.set ed obj s arg = some t) : ed.Unique t := by
  rw [Reference.set] at h
  split at h
  · cases h
    exact hs
  · rename_i cur hcur
    obtain ⟨spec, hspec, rfl⟩ := set_params_eq_some.mp hcur
    split at h
    · rename_i hfits
      cases h
      refine hs.update hed hobj hspec fun ys hys => ?_
      split at hys
      · cases hys
      · obtain heq : arg.2 = .list ys := Option.some.inj hys
        rw [heq] at hfits
        have hmultiple : spec.param.multiple = true := hfits.1
        exact ⟨hmultiple, fun hnot => (hfits.2 hmultiple).resolve_left hnot⟩
    · cases h

lemma Unique.remove (hs : ed.Unique s) (hed : ed.Regular) (hobj : ed.edit_object = some obj)
    {arg : String × List String} (h : Reference.remove ed obj s arg = some t) : ed.Unique t := by
  rw [Reference.remove] at h
  obtain ⟨cur, hcur, h⟩ := Option.bind_eq_some_iff.mp h
  obtain ⟨spec, hspec, hmultiple, rfl⟩ := remove_params_eq_some.mp hcur
  split at h
  · rename_i xs hget
    obtain ⟨taken, -, rfl⟩ := Option.map_eq_some_iff.mp h
    refine hs.update hed hobj hspec fun ys hys => ?_
    split at hys
    · cases hys
    · cases hys
      exact ⟨hmultiple, fun hnot =>
        (hs obj arg.1 spec hobj hspec hmultiple hnot xs hget).sublist without_sublist⟩
  · split at h
    · cases h
      exact hs
    · cases h

lemma Unique.reference (hs : ed.Unique s) (hed : ed.Regular) {c : Command}
    (h : ed.reference s c = some t) : ed.Unique t := by
  rw [Editor.reference] at h
  obtain ⟨obj, hobj, h⟩ := Option.bind_eq_some_iff.mp h
  cases c with
  | add named => exact foldlM_inv h hs fun s arg t hs => hs.add hed hobj
  | set named => exact foldlM_inv h hs fun s arg t hs => hs.set hed hobj
  | remove named => exact foldlM_inv h hs fun s arg t hs => hs.remove hed hobj

/-! ## One parameter -/

lemma duplicateFrom_eq_none {val : Value} {seen vs : List Scalar} :
    duplicateFrom val seen vs = none ↔
      (∀ v ∈ vs, ¬ (val.truthy ∧ found val v)) ∧ vs.Nodup ∧ ∀ v ∈ vs, v ∉ seen := by
  induction vs generalizing seen with
  | nil => simp [duplicateFrom]
  | cons v vs ih =>
    have hseen : (seen ≠ [] ∧ v ∈ seen) ↔ v ∈ seen :=
      ⟨And.right, fun h => ⟨List.ne_nil_of_mem h, h⟩⟩
    rw [duplicateFrom]
    simp only [hseen]
    split
    · rename_i hdup
      simp only [reduceCtorEq, false_iff]
      rintro ⟨hfound, -, hnot⟩
      rcases hdup with h | h
      · exact hfound v List.mem_cons_self h
      · exact hnot v List.mem_cons_self h
    · rename_i hdup
      rw [not_or] at hdup
      rw [ih]
      simp only [List.forall_mem_cons, List.nodup_cons, List.mem_append, List.mem_singleton, not_or]
      constructor
      · rintro ⟨hfound, hnodup, hnot⟩
        exact ⟨⟨hdup.1, hfound⟩, ⟨fun h => (hnot v h).2 rfl, hnodup⟩, hdup.2, fun w hw => (hnot w hw).1⟩
      · rintro ⟨⟨-, hfound⟩, ⟨hmem, hnodup⟩, -, hnot⟩
        exact ⟨hfound, hnodup, fun w hw => ⟨hnot w hw, fun heq => hmem (heq ▸ hw)⟩⟩

lemma check_duplicate_eq_none {val : Value} {vs : List Scalar} :
    check_duplicate val (.list vs) = none ↔
      (∀ v ∈ vs, ¬ (val.truthy ∧ found val v)) ∧ vs.Nodup := by
  rw [check_duplicate, Option.map_eq_none_iff, duplicateFrom_eq_none]
  simp

/-- A turn of `add_call` that goes on appends the values. -/
lemma AddMet.turn {arg : String × List Scalar} (hmet : ed.AddMet obj s arg) (hs : ed.Unique s)
    (hobj : ed.edit_object = some obj)
    (h : addTurn (ed.entry (add_params ed.params)) obj s arg = .next t) :
    Reference.add ed obj s arg = some t := by
  rw [addTurn, entry] at h
  cases hcur : add_params ed.params arg.1 with
  | none => simp [hcur] at h
  | some cur =>
    obtain ⟨spec, hspec, hmultiple, rfl⟩ := add_params_eq_some.mp hcur
    obtain ⟨hitems, hfound⟩ := hmet spec.param hcur
    simp only [hcur] at h
    split at h
    · cases h
    · rename_i hdup
      cases h
      set p := spec.param.place obj arg.1 with hp
      rw [Reference.add, hcur, Option.bind_some, ← hp]
      rcases orEmpty_push s p arg.2 with ⟨hget, heq⟩ | ⟨xs, hget, heq⟩ | ⟨x, hx, hget, -⟩
      · have hallow : spec.param.allow_duplicate = true ∨ arg.2.Nodup := by
          by_cases hallow : spec.param.allow_duplicate = true
          · exact Or.inl hallow
          · rw [if_neg hallow, check_duplicate_eq_none] at hdup
            exact Or.inr hdup.2
        rw [heq, hget]
        exact if_pos hallow
      · have hlist : s.orEmpty p = s := orEmpty_of_ne (by rw [hget]; simp)
        have hallow : spec.param.allow_duplicate = true ∨ (xs ++ arg.2).Nodup := by
          by_cases hallow : spec.param.allow_duplicate = true
          · exact Or.inl hallow
          · rw [if_neg hallow, check_duplicate_eq_none, hlist] at hdup
            refine Or.inr (List.nodup_append.mpr
              ⟨hs obj arg.1 spec hobj hspec hmultiple hallow xs hget, hdup.2, ?_⟩)
            rintro v hv w hw rfl
            exact hdup.1 v hw (hfound hallow xs hget v hw hv)
        rw [heq, hget]
        exact if_pos hallow
      · rw [hget] at hitems
        cases x <;> first | exact absurd rfl hx | cases hitems

/-- `set_call` goes on behind a parameter exactly if the reference takes it, and replaces the
value. -/
lemma SetMet.turn {arg : String × Value} (hmet : ed.SetMet obj s arg) :
    setTurn (ed.entry (set_params ed.params)) obj s arg = .next t ↔
      Reference.set ed obj s arg = some t := by
  rw [setTurn, Reference.set, entry]
  cases hcur : set_params ed.params arg.1 with
  | none => simp [hcur]
  | some cur =>
    obtain ⟨hfits, hfound⟩ := hmet cur hcur
    simp only [hcur]
    by_cases hnull : arg.2 = .one .null
    · rw [if_pos hnull, if_pos hnull, if_pos ⟨hfits, fun _ => Or.inr (by rw [hnull]; trivial)⟩]
      simp
    · rw [if_neg hnull, if_neg hnull]
      have hdup : (if cur.multiple = true ∧ ¬ cur.allow_duplicate = true then
            check_duplicate (s.get (cur.objPlace obj arg.1)) arg.2 else none) = none ↔
          (cur.multiple = true → cur.allow_duplicate = true ∨ Reference.Plain arg.2) := by
        by_cases hmultiple : cur.multiple = true
        · by_cases hallow : cur.allow_duplicate = true
          · simp [hallow]
          · rw [if_pos ⟨hmultiple, hallow⟩]
            cases hval : arg.2 with
            | one x =>
              rw [hval] at hfits hnull
              rcases hfits with rfl | hnot
              · exact absurd rfl hnull
              · exact absurd hmultiple hnot
            | list xs =>
              rw [check_duplicate_eq_none]
              have hplain : Reference.Plain (.list xs) ↔ xs.Nodup := Iff.rfl
              simp only [hmultiple, hallow, true_implies, false_or, hplain, Bool.false_eq_true]
              exact ⟨And.right, fun h => ⟨hfound hmultiple hallow xs hval h, h⟩⟩
        · simp [hmultiple]
      split
      · rename_i how hsome
        rw [hsome] at hdup
        simp only [reduceCtorEq, false_iff] at hdup ⊢
        rw [if_neg fun h => hdup h.2]
        simp
      · rename_i hnone
        rw [if_pos ⟨hfits, hdup.mp hnone⟩]
        simp

end Editor

/-! ## Positions -/

/-- In a list with marked entries, a value names the position that it has in the list before. -/
lemma entryOf_mark (xs : List Scalar) (taken : List ℕ) {idx : String}
    (h : ∀ n, number idx = some n → 1 ≤ n) :
    entryOf (.list (mark .null xs taken)) idx =
      (Reference.resolve xs taken idx).map fun i : ℕ => (i : ℤ) + 1 := by
  rw [entryOf, Reference.resolve]
  cases hnum : number idx with
  | some n =>
    have hone := h n hnum
    have hlen : (Value.list (mark .null xs taken)).length = xs.length := length_mark
    simp only [hlen]
    by_cases hle : n ≤ xs.length
    · rw [if_neg (by omega), if_pos ⟨hone, hle⟩, Option.map_some, Int.toNat_of_nonneg (by omega)]
      congr 1
      omega
    · rw [if_pos (by omega), if_neg fun hcontra => hle hcontra.2]
      rfl
  | none =>
    have hne : Scalar.str idx ≠ .null := by simp
    simp only
    rw [← findIdx_mark hne, findIdx_eq_idxOf, found, Value.index]
    by_cases hmem : Scalar.str idx ∈ mark .null xs taken
    · simp [hmem]
    · simp [hmem]

lemma clear_mark (xs : List Scalar) (taken : List ℕ) (i : ℕ) :
    clear (mark .null xs taken) (i + 1) = mark .null xs (i :: taken) := by
  have hslot : slotOf (mark .null xs taken) (i + 1) = some i := by
    have hnot : ¬ (i : ℤ) < 0 := by omega
    simp [slotOf, hnot]
  rw [clear, hslot]
  exact set_mark i

/-- Values that all name entries while the entries are marked name positions of the list, and
these are marked in the end. -/
lemma positions_of_allNamed (xs : List Scalar) (taken : List ℕ) {vals : List String}
    (hpos : ∀ idx ∈ vals, ∀ n, number idx = some n → 1 ≤ n)
    (h : AllNamed (.list (mark .null xs taken)) vals) :
    ∃ taken', Reference.positions xs taken vals = some taken' ∧
      takeOut (mark .null xs taken) vals = mark .null xs taken' := by
  induction vals generalizing taken with
  | nil => exact ⟨taken, rfl, rfl⟩
  | cons idx rest ih =>
    obtain ⟨n, hentry, hrest⟩ := h
    have hmark := entryOf_mark xs taken (hpos idx List.mem_cons_self)
    obtain ⟨i, hi, rfl⟩ := Option.map_eq_some_iff.mp (hmark.symm.trans hentry)
    rw [clear_mark] at hrest
    obtain ⟨taken', htaken, hout⟩ := ih _ (fun idx h => hpos idx (List.mem_cons_of_mem _ h)) hrest
    refine ⟨taken', ?_, ?_⟩
    · rw [Reference.positions, hi]
      exact htaken
    · rw [takeOut, List.foldl_cons, hentry]
      simp only
      rw [clear_mark]
      exact hout

namespace Editor

variable {ed : Editor} {obj : ℕ} {s t : Store}

/-- A parameter of `remove` all of whose values name entries has these entries taken out. -/
lemma RemoveMet.turn {arg : String × List String} (hmet : ed.RemoveMet obj s arg)
    (h : Accepted (ed.entry (remove_params ed.params)) obj s arg) :
    Reference.remove ed obj s arg =
      some (takeOutParam (ed.entry (remove_params ed.params)) obj s arg) := by
  obtain ⟨cur, hcur, hnamed⟩ := h
  have hcur' : remove_params ed.params arg.1 = some cur := hcur
  rw [Reference.remove, hcur', Option.bind_some, takeOutParam, hcur]
  rcases hmet cur hcur' with ⟨xs, hget, hnull, hpos⟩ | ⟨hget, hnil⟩
  · rw [hget] at hnamed
    obtain ⟨taken, htaken, hout⟩ := positions_of_allNamed xs [] hpos (by
      rw [mark_nil]
      exact hnamed rfl)
    rw [mark_nil] at hout
    have hfilter : filtered (.list (takeOut xs arg.2)) = .list (without xs taken) := by
      rw [hout, filtered, filter_mark hnull]
    have hlen : (Value.list (without xs taken)).length = 0 ↔ without xs taken = [] :=
      List.length_eq_zero_iff
    simp only [hget]
    rw [htaken, removed, hfilter]
    simp only [hlen]
    rfl
  · simp only [hget, hnil]
    rfl

/-- When the loop of `remove_call` has recorded no error, every parameter had its values taken
out. -/
lemma remove_reference {l : List (String × List String)} {e : List Err} {t : Store × List Err}
    (h : Passes (removeTurn (ed.entry (remove_params ed.params)) obj) (s, e) l t)
    (hmet : Along (removeTurn (ed.entry (remove_params ed.params)) obj)
      (fun t => ed.RemoveMet obj t.1) (s, e) l) (hnone : t.2 = []) :
    l.foldlM (Reference.remove ed obj) s = some t.1 := by
  induction l generalizing s e with
  | nil =>
    obtain rfl : t = (s, e) := h
    rfl
  | cons arg l ih =>
    obtain ⟨⟨m, em⟩, hturn, hrest⟩ := h
    obtain ⟨harg, hmet⟩ := hmet
    rw [hturn] at hmet
    obtain ⟨hm, -, -, errors, hem, herrors⟩ := removeTurn_next hturn
    obtain ⟨errors', hlater, -⟩ := remove_errors hrest
    simp only at hm hem
    rw [hnone, hem, List.append_assoc] at hlater
    have hnil : errors = [] := (List.append_eq_nil_iff.mp
      (List.append_eq_nil_iff.mp hlater.symm).2).1
    rw [List.foldlM_cons, harg.turn (herrors.mp hnil), ← hm]
    exact ih hrest hmet

/-! ## Commands -/

lemma add_call_ok {entry : Entry} {named : List (String × List Scalar)}
    (h : (add_call entry s named).ended = .ok) : ∃ obj, entry.edit_object = some obj ∧
      Passes (addTurn entry obj) s named (add_call entry s named).store := by
  rw [add_call] at h ⊢
  cases hobj : entry.edit_object with
  | none => simp [hobj] at h
  | some obj =>
    refine ⟨obj, rfl, ?_⟩
    simp only [hobj] at h ⊢
    rcases loop_cases (addTurn entry obj) s named with
      ⟨hpass, hnone⟩ | ⟨-, -, -, -, how, -, -, -, hsome⟩
    · rw [← Prod.mk.eta (p := Batch.loop (addTurn entry obj) s named), hnone]
      exact hpass
    · rw [← Prod.mk.eta (p := Batch.loop (addTurn entry obj) s named), hsome] at h
      exact absurd h (how.result_failed _).1

lemma set_call_ok (entry : Entry) {named : List (String × Value)}
    (hobj : entry.edit_object = some obj) :
    Passes (setTurn entry obj) s named t ↔
      (set_call entry s named).ended = .ok ∧ (set_call entry s named).store = t := by
  rw [set_call]
  simp only [hobj]
  rcases loop_cases (setTurn entry obj) s named with
    ⟨hpass, hnone⟩ | ⟨pre, arg, post, m, how, hsplit, hpass, hstop, hsome⟩
  · rw [← Prod.mk.eta (p := Batch.loop (setTurn entry obj) s named), hnone]
    exact ⟨fun h => ⟨rfl, hpass.unique h⟩, fun h => h.2 ▸ hpass⟩
  · rw [← Prod.mk.eta (p := Batch.loop (setTurn entry obj) s named), hsome]
    constructor
    · intro h
      exact absurd ⟨post, m, how, _, hsplit, hpass, hstop⟩ h.not_stopsAt
    · intro h
      exact absurd h.1 (how.result_failed _).1

lemma remove_call_ok {entry : Entry} {named : List (String × List String)}
    (h : (remove_call entry s named).ended = .ok) : ∃ obj, entry.edit_object = some obj ∧
      Passes (removeTurn entry obj) (s, []) named ((remove_call entry s named).store, []) := by
  rw [remove_call] at h ⊢
  cases hobj : entry.edit_object with
  | none => simp [hobj] at h
  | some obj =>
    refine ⟨obj, rfl, ?_⟩
    simp only [hobj] at h ⊢
    rcases loop_cases (removeTurn entry obj) (s, []) named with
      ⟨hpass, hnone⟩ | ⟨-, -, -, -, how, -, -, -, hsome⟩
    · rw [← Prod.mk.eta (p := Batch.loop (removeTurn entry obj) (s, []) named), hnone] at h ⊢
      simp only at h ⊢
      split at h
      · cases h
      · rename_i herrors
        have hnil : (Batch.loop (removeTurn entry obj) (s, []) named).1.2 = [] :=
          List.length_eq_zero_iff.mp (by omega)
        have hpair : (Batch.loop (removeTurn entry obj) (s, []) named).1 =
            ((Batch.loop (removeTurn entry obj) (s, []) named).1.1, []) := Prod.ext rfl hnil
        rw [hpair] at hpass
        rw [if_neg herrors]
        exact hpass
    · rw [← Prod.mk.eta (p := Batch.loop (removeTurn entry obj) (s, []) named), hsome] at h
      cases h

lemma reference_of_ok {c : Command} (hed : ed.Regular) (hs : ed.Unique s) (hmet : ed.Met s c)
    (h : (ed.call s c).ended = .ok) : ed.reference s c = some (ed.step s c) := by
  cases c with
  | add named =>
    obtain ⟨obj, hobj, hpass⟩ := add_call_ok h
    have hobj' : ed.edit_object = some obj := hobj
    rw [reference, hobj', Option.bind_some]
    exact hpass.foldlM (hmet obj hobj') hs (fun s arg t hs => hs.add hed hobj')
      fun s arg t hs harg => harg.turn hs hobj'
  | set named =>
    have hmet' := hmet
    cases hobj : ed.edit_object with
    | none => simp [call, set_call, entry, hobj] at h
    | some obj =>
      have hpass := (set_call_ok (ed.entry (set_params ed.params)) hobj).mpr ⟨h, rfl⟩
      rw [reference, hobj, Option.bind_some]
      exact hpass.foldlM (hmet obj hobj) hs (fun s arg t hs => hs.set hed hobj)
        fun s arg t _ harg => harg.turn.mp
  | remove named =>
    obtain ⟨obj, hobj, hpass⟩ := remove_call_ok h
    have hobj' : ed.edit_object = some obj := hobj
    rw [reference, hobj', Option.bind_some]
    exact remove_reference hpass (hmet obj hobj') rfl

lemma set_ok_of_reference {named : List (String × Value)} (hed : ed.Regular) (hs : ed.Unique s)
    (hmet : ed.Met s (.set named)) (h : ed.reference s (.set named) = some t) :
    (ed.call s (.set named)).ended = .ok := by
  rw [reference] at h
  obtain ⟨obj, hobj, h⟩ := Option.bind_eq_some_iff.mp h
  have hpass := passes_of_foldlM h (hmet obj hobj) hs (fun s arg t hs => hs.set hed hobj)
    fun s arg t _ harg => harg.turn.mpr
  exact ((set_call_ok (ed.entry (set_params ed.params)) hobj).mp hpass).1

lemma show_call_eq (hed : ed.Regular) (s : Store) (name : String) :
    ed.show_call s name = ed.reported s name := by
  rw [show_call, reported]
  cases hobj : ed.edit_object with
  | none => rfl
  | some obj =>
    cases hspec : ed.params name with
    | none => rfl
    | some spec =>
      have hplace : (spec.param.get_object.getD obj, spec.param.attr.getD name) =
          spec.param.place obj name := by
        rw [Param.place]
        cases hattr : spec.param.attr with
        | none => rfl
        | some a =>
          have hne : a ≠ "" := fun heq => hed.attr name spec hspec (heq ▸ hattr)
          simp [hne]
      simp only [hplace]

/-! ## Runs of commands -/

/-- What is asked of an object behind a run of successful commands, and of the next command: the
reference takes the run and leaves the same, `show` reports what it says, no list that must not
repeats a value; what the editor accepts next the reference accepts, and what the reference lets
be set the editor lets be set. -/
structure Refines (ed : Editor) (s : Store) (es : List Command) (c : Command) : Prop where
  store : es.foldlM ed.reference s = some (run ed.step s es)
  shown : ∀ name, ed.show_call (run ed.step s es) name = ed.reported (run ed.step s es) name
  unique : ed.Unique (run ed.step s es)
  sound : (ed.call (run ed.step s es) c).ended = .ok →
    (ed.reference (run ed.step s es) c).isSome
  set : ∀ named, c = .set named → (ed.reference (run ed.step s es) c).isSome →
    (ed.call (run ed.step s es) c).ended = .ok

/-- An editor of an object with a list of tags. -/
def tagEditor : Editor where
  params := fun name => if name = "tags" then some { param := { multiple := true } } else none
  edit_object := some 0
  change_cb := false

/-- `set tags x y` and `remove tags 1`. -/
def tagged : List Command :=
  [.set [("tags", .list [.str "x", .str "y"])], .remove [("tags", ["1"])]]

lemma tagEditor_params {name : String} {spec : Spec} (h : tagEditor.params name = some spec) :
    name = "tags" ∧ spec = { param := { multiple := true } } := by
  simp only [tagEditor] at h
  split at h
  · rename_i hname
    exact ⟨hname, (Option.some.inj h).symm⟩
  · cases h

end Editor

end Cli
