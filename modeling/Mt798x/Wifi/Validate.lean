import Mt798x.Lib.Numbers
import Mt798x.Lib.Objects

/-!
# Does validation establish the schema?

`validate` of `validate.uc`: aliases are renamed, defaults are set, and the values are converted to
their types and held to their bounds.  The notes about options that are not in the schema are left
out.  The theorem says which options have to be given how for the result to be what the schema
describes; validating a result again never changes it.
-/

namespace Validate

open Script

/-! ## Schemas -/

/-- What a schema says of the values of a property: its `type`, with the fields that are read for
it.  The items of an array may have a type or not. -/
inductive Kind where
  | number (minimum maximum : Option ℚ) (enum : Option (List Value))
  | boolean
  | string (enum : Option (List Value))
  | array
  | arrayOf (items : Kind)

/-- A property of a schema: another name of an option, or an option with a default, which is null
if there is none. -/
inductive Property where
  | aliasOf (default : Option String)
  | option (kind : Kind) (default : Value)

abbrev Schema := List (String × Property)

abbrev Dict := List (String × Value)

/-- Why a validation is given up, with the option it is about. -/
inductive Abort where
  | lower (key : String) (value : Value)
  | larger (key : String) (value : Value)
  | notOneOf (key : String) (value : Value) (enum : List Value)
  | noDefault (key : String)
  deriving DecidableEq

/-! ## `validate_value` -/

/-- The elements of a value that is to be an array; another value is its only element. -/
def elems : Value → List Value
  | .arr l => l
  | v => [v]

/-- The check against the values that are allowed. -/
def checkEnum (enum : Option (List Value)) (key : String) (value : Value) : Except Abort Value :=
  match enum with
  | some l => if value ∈ l then .ok value else .error (.notOneOf key value l)
  | none => .ok value

/-- `validate_value`; a bound of 0 counts as none. -/
def validate_value (key : String) : Kind → Value → Except Abort Value
  | .number minimum maximum enum, value =>
    let n := value.toNumber
    if minimum.any fun m => m ≠ 0 && n.lt (.float m) then .error (.lower key (.num n))
    else if maximum.any fun m => m ≠ 0 && (Number.float m).lt n then .error (.larger key (.num n))
    else checkEnum enum key (.num n)
  | .boolean, value => .ok (.bool value.toNumber.truthy)
  | .string enum, value => checkEnum enum key value
  | .array, value => .ok (.arr (elems value))
  | .arrayOf items, value => ((elems value).mapM (validate_value key items)).map .arr

/-! ## `validate` -/

/-- One turn of the loop over the aliases. -/
def renameTurn (schema : Schema) (dict : Dict) (entry : String × Value) : Except Abort Dict :=
  match schema.lookup entry.1 with
  | some (.aliasOf none) => .error (.noDefault entry.1)
  | some (.aliasOf (some name)) => .ok (Objects.del (Objects.put dict name entry.2) entry.1)
  | _ => .ok dict

/-- The loop over the aliases.  The options it adds are no aliases, so that it is enough to go
through those that were there at its start. -/
def renameAliases (schema : Schema) (dict : Dict) : Except Abort Dict :=
  dict.foldlM (renameTurn schema) dict

/-- One turn of the loop over the defaults. -/
def defaultTurn (dict : Dict) (prop : String × Property) : Dict :=
  match prop.2 with
  | .aliasOf _ => dict
  | .option _ default =>
    if (dict.lookup prop.1).getD .null ≠ .null ∨ default = .null then dict
    else Objects.put dict prop.1 default

def setDefaults (schema : Schema) (dict : Dict) : Dict := schema.foldl defaultTurn dict

/-- One turn of the loop over the values. -/
def valueTurn (schema : Schema) (entry : String × Value) : Except Abort (String × Value) :=
  match schema.lookup entry.1 with
  | some (.option kind _) => (validate_value entry.1 kind entry.2).map (entry.1, ·)
  | _ => .ok entry

def validateValues (schema : Schema) (dict : Dict) : Except Abort Dict :=
  dict.mapM (valueTurn schema)

/-- `validate` -/
def validate (schema : Schema) (dict : Dict) : Except Abort Dict :=
  (renameAliases schema dict).bind fun dict => validateValues schema (setDefaults schema dict)

/-! ## What a schema describes -/

namespace Kind

/-- The value has the type and is inside the bounds. -/
def Within : Kind → Value → Prop
  | number minimum maximum enum, v => ∃ n, v = .num n ∧ n ≠ .nan ∧
      (∀ m ∈ minimum, (Number.float m).le n = true) ∧ (∀ m ∈ maximum, n.le (.float m) = true) ∧
      ∀ l ∈ enum, v ∈ l
  | boolean, v => ∃ b, v = .bool b
  | string enum, v => (∃ s, v = .str s) ∧ ∀ l ∈ enum, v ∈ l
  | array, v => ∃ l, v = .arr l
  | arrayOf items, v => ∃ l, v = .arr l ∧ ∀ x ∈ l, items.Within x

/-- The second value is the first one, converted to the type. -/
def Keeps : Kind → Value → Value → Prop
  | number .., v, w => w = .num v.toNumber
  | boolean, v, w => (v = .str "1" ∨ v = .str "true" → w = .bool true) ∧
      (v = .str "0" ∨ v = .str "false" → w = .bool false)
  | string _, v, w => w = v
  | array, v, w => w = .arr (elems v)
  | arrayOf items, v, w => ∃ l, w = .arr l ∧ List.Forall₂ items.Keeps (elems v) l

/-- The value is one that the validation handles right: a number that is one and respects a bound
of 0, no truth value spelled `true`, a text that is one. -/
def Clean : Kind → Value → Prop
  | number minimum maximum _, v => v.toNumber ≠ .nan ∧
      (minimum = some 0 → (Number.float 0).le v.toNumber = true) ∧
      (maximum = some 0 → v.toNumber.le (.float 0) = true)
  | boolean, v => v ≠ .str "true"
  | string _, v => ∃ s, v = .str s
  | array, _ => True
  | arrayOf items, v => ∀ x ∈ elems v, items.Clean x

end Kind

/-- The first name is an alias of the second. -/
def isAliasOf (schema : Schema) (k' k : String) : Bool :=
  match schema.lookup k' with
  | some (.aliasOf (some name)) => name = k
  | _ => false

/-- The value under the last alias of an option. -/
def lastAlias (schema : Schema) (dict : Dict) (k : String) : Option Value :=
  (dict.reverse.find? fun e => isAliasOf schema e.1 k).map Prod.snd

/-- The value of an option, with the default where there is none or null. -/
def orDefault (default : Value) (v : Option Value) : Option Value :=
  if v.getD .null = .null ∧ default ≠ .null then some default else v

/-- The value that a dictionary gives to an option: under its last alias, under its own name, or by
default. -/
def given (schema : Schema) (dict : Dict) (k : String) (default : Value) : Option Value :=
  orDefault default ((lastAlias schema dict k).or (dict.lookup k))

/-- Only this alias of the option is given. -/
def Alone (schema : Schema) (dict : Dict) (k name : String) : Prop :=
  dict.lookup name = none ∧ ∀ k', k' ≠ k → schema.lookup k' = some (.aliasOf (some name)) →
    dict.lookup k' = none

/-- The dictionary is what the schema describes, made of the one that was given. -/
structure Establishes (schema : Schema) (dict dict' : Dict) : Prop where
  within : ∀ k kind default v, schema.lookup k = some (.option kind default) →
    dict'.lookup k = some v → kind.Within v
  defaults : ∀ k kind default, schema.lookup k = some (.option kind default) → default ≠ .null →
    (dict'.lookup k).isSome = true
  aliases : ∀ k default, schema.lookup k = some (.aliasOf default) → dict'.lookup k = none
  renamed : ∀ k name kind default v, schema.lookup k = some (.aliasOf (some name)) →
    schema.lookup name = some (.option kind default) → dict.lookup k = some v → v ≠ .null →
    Alone schema dict k name → ∃ w, dict'.lookup name = some w ∧ kind.Keeps v w
  keeps : ∀ k kind default v, schema.lookup k = some (.option kind default) →
    given schema dict k default = some v → ∃ w, dict'.lookup k = some w ∧ kind.Keeps v w
  outside : ∀ k, schema.lookup k = none → dict'.lookup k = dict.lookup k
  again : validate schema dict' = .ok dict'

/-- Schemas of objects whose aliases name options. -/
structure Schema.Plain (schema : Schema) : Prop where
  nodup : (schema.map Prod.fst).Nodup
  aliases : ∀ k name, schema.lookup k = some (.aliasOf (some name)) →
    ∃ kind default, schema.lookup name = some (.option kind default)

/-! ## Values -/

section Values

variable {key : String} {kind : Kind} {v w : Value}

lemma checkEnum_ok {enum : Option (List Value)} :
    checkEnum enum key v = .ok w ↔ w = v ∧ ∀ l ∈ enum, v ∈ l := by
  cases enum with
  | none => simp [checkEnum, eq_comm]
  | some l =>
    rw [checkEnum]
    split <;> simp [*, eq_comm]

lemma forall₂_of_mapM {α β : Type*} {f : α → Except Abort β} {l : List α} {l' : List β} :
    l.mapM f = .ok l' ↔ List.Forall₂ (fun a b => f a = .ok b) l l' := by
  induction l generalizing l' with
  | nil => simp [pure, Except.pure, eq_comm]
  | cons a l ih =>
    rw [List.mapM_cons]
    cases ha : f a with
    | error e =>
      refine ⟨fun h => by simp [bind, Except.bind] at h, fun h => ?_⟩
      cases h with
      | cons hb _ => rw [ha] at hb; cases hb
    | ok b =>
      cases hl : l.mapM f with
      | error e =>
        refine ⟨fun h => by simp [bind, Except.bind] at h, fun h => ?_⟩
        cases h with
        | cons _ hrest => rw [ih.mpr hrest] at hl; cases hl
      | ok bs =>
        simp only [bind, Except.bind, pure, Except.pure, Except.ok.injEq]
        constructor
        · rintro rfl
          exact .cons ha (ih.mp hl)
        · rintro h
          cases h with
          | cons hb hrest =>
            rw [ha] at hb
            cases hb
            rw [ih.mpr hrest] at hl
            cases hl
            rfl

/-- A value that was validated is inside the bounds and says what it said, if it was clean. -/
lemma within_iff (h : validate_value key kind v = .ok w) :
    kind.Within w ∧ kind.Keeps v w ↔ kind.Clean v := by
  induction kind generalizing v w with
  | number minimum maximum enum =>
    simp only [validate_value] at h
    split at h
    · cases h
    · rename_i hmin
      split at h
      · cases h
      · rename_i hmax
        obtain ⟨rfl, henum⟩ := checkEnum_ok.mp h
        constructor
        · rintro ⟨⟨n, hn, hnan, hlow, hhigh, -⟩, -⟩
          cases hn
          exact ⟨hnan, fun h0 => hlow 0 h0, fun h0 => hhigh 0 h0⟩
        · rintro ⟨hnan, hlow, hhigh⟩
          refine ⟨⟨_, rfl, hnan, fun m hm => ?_, fun m hm => ?_, henum⟩, rfl⟩
          · rw [hm] at hmin
            by_cases h0 : m = 0
            · rw [h0]
              exact hlow (by rw [hm, h0])
            · exact Number.le_of_not_lt hnan nofun (by simpa [h0] using hmin)
          · rw [hm] at hmax
            by_cases h0 : m = 0
            · rw [h0]
              exact hhigh (by rw [hm, h0])
            · exact Number.le_of_not_lt nofun hnan (by simpa [h0] using hmax)
  | boolean =>
    cases h
    constructor
    · rintro ⟨-, htrue, -⟩ rfl
      exact absurd (htrue (.inr rfl)) (by decide +kernel)
    · intro hclean
      refine ⟨⟨_, rfl⟩, ?_, ?_⟩
      · rintro (rfl | rfl)
        · decide +kernel
        · exact absurd rfl hclean
      · rintro (rfl | rfl) <;> decide +kernel
  | string enum =>
    obtain ⟨rfl, henum⟩ := checkEnum_ok.mp h
    exact ⟨fun hw => hw.1.1, fun hs => ⟨⟨hs, henum⟩, rfl⟩⟩
  | array =>
    cases h
    exact ⟨fun _ => trivial, fun _ => ⟨⟨_, rfl⟩, rfl⟩⟩
  | arrayOf items ih =>
    rw [validate_value] at h
    cases hl : (elems v).mapM (validate_value key items) with
    | error e => rw [hl] at h; cases h
    | ok l =>
      rw [hl] at h
      cases h
      have hall := forall₂_of_mapM.mp hl
      have hstep : (∀ y ∈ l, items.Within y) ∧ List.Forall₂ items.Keeps (elems v) l ↔
          ∀ x ∈ elems v, items.Clean x := by
        clear hl
        generalize elems v = as at hall
        induction hall with
        | nil => simp
        | @cons a b as bs hab _ hrest =>
          rw [List.forall_mem_cons, List.forall_mem_cons, List.forall₂_cons, ← hrest, ← ih hab]
          tauto
      rw [Kind.Clean, ← hstep]
      constructor
      · rintro ⟨⟨l', hl', hw⟩, l'', hl'', hk⟩
        cases hl'
        cases hl''
        exact ⟨hw, hk⟩
      · rintro ⟨hw, hk⟩
        exact ⟨⟨l, rfl, hw⟩, l, rfl, hk⟩

/-- Validating a value again changes nothing. -/
lemma validate_value_again (h : validate_value key kind v = .ok w) :
    validate_value key kind w = .ok w := by
  induction kind generalizing v w with
  | number minimum maximum enum =>
    simp only [validate_value] at h
    split at h
    · cases h
    · rename_i hmin
      split at h
      · cases h
      · rename_i hmax
        obtain ⟨rfl, henum⟩ := checkEnum_ok.mp h
        rw [validate_value, Value.toNumber, if_neg hmin, if_neg hmax]
        exact checkEnum_ok.mpr ⟨rfl, henum⟩
  | boolean =>
    cases h
    cases v.toNumber.truthy <;> rfl
  | string enum =>
    obtain ⟨rfl, henum⟩ := checkEnum_ok.mp h
    exact h
  | array =>
    cases h
    rfl
  | arrayOf items ih =>
    rw [validate_value] at h
    cases hl : (elems v).mapM (validate_value key items) with
    | error e => rw [hl] at h; cases h
    | ok l =>
      rw [hl] at h
      cases h
      have hall := forall₂_of_mapM.mp hl
      have hagain : l.mapM (validate_value key items) = .ok l := by
        rw [forall₂_of_mapM, List.forall₂_same]
        clear hl
        generalize elems v = as at hall
        induction hall with
        | nil => simp
        | cons hab _ hrest => exact List.forall_mem_cons.mpr ⟨ih hab, hrest⟩
      rw [validate_value, elems, hagain]
      rfl

lemma validate_value_ne_null (h : validate_value key kind v = .ok w) (hv : v ≠ .null) :
    w ≠ .null := by
  cases kind with
  | number minimum maximum enum =>
    simp only [validate_value] at h
    split at h
    · cases h
    · split at h
      · cases h
      · rw [(checkEnum_ok.mp h).1]
        simp
  | boolean => cases h; simp
  | string enum => rwa [(checkEnum_ok.mp h).1]
  | array => cases h; simp
  | arrayOf items =>
    rw [validate_value] at h
    cases hl : (elems v).mapM (validate_value key items) with
    | error e => rw [hl] at h; cases h
    | ok l => rw [hl] at h; cases h; simp

end Values

/-! ## Dictionaries -/

section Dictionaries

variable {schema : Schema} {dict dict' : Dict} {k : String} {kind : Kind} {v default : Value}

lemma isAliasOf_iff {k' : String} :
    isAliasOf schema k' k = true ↔ schema.lookup k' = some (.aliasOf (some k)) := by
  rw [isAliasOf]
  split
  · simp [*]
  · rename_i hnot
    exact ⟨nofun, fun h => (hnot k h).elim⟩

lemma isAliasOf_eq_false {k' : String} (h : ∀ name, schema.lookup k' ≠ some (.aliasOf (some name))) :
    isAliasOf schema k' k = false :=
  Bool.eq_false_of_not_eq_true fun hc => h k (isAliasOf_iff.mp hc)

lemma lastAlias_cons (e : String × Value) (es : Dict) :
    lastAlias schema (e :: es) k =
      (lastAlias schema es k).or (if isAliasOf schema e.1 k then some e.2 else none) := by
  rw [lastAlias, List.reverse_cons, List.find?_append, lastAlias]
  cases es.reverse.find? fun e => isAliasOf schema e.1 k with
  | some f => rfl
  | none =>
    rw [List.find?_singleton]
    split <;> simp [*]

lemma mem_keys_cons {e : String × Value} {es : Dict} (hne : k ≠ e.1) :
    k ∈ (e :: es).map Prod.fst ↔ k ∈ es.map Prod.fst := by
  rw [List.map_cons, List.mem_cons, or_iff_right hne]

/-- What the loop over the aliases has done behind some of the entries. -/
lemma renameLoop (hplain : schema.Plain) (es : Dict) (dict : Dict)
    (h : es.foldlM (renameTurn schema) dict = .ok dict') :
    (∀ k, (∀ d, schema.lookup k ≠ some (.aliasOf d)) →
      dict'.lookup k = (lastAlias schema es k).or (dict.lookup k)) ∧
    ∀ k d, schema.lookup k = some (.aliasOf d) →
      dict'.lookup k = if k ∈ es.map Prod.fst then none else dict.lookup k := by
  induction es generalizing dict with
  | nil =>
    cases h
    exact ⟨fun k _ => rfl, fun k d _ => rfl⟩
  | cons e es ih =>
    rw [List.foldlM_cons] at h
    cases hturn : renameTurn schema dict e with
    | error a => rw [hturn] at h; cases h
    | ok m =>
      rw [hturn] at h
      obtain ⟨hother, halias⟩ := ih m h
      rw [renameTurn] at hturn
      -- an entry that is an alias is moved to its option, any other stays
      rcases hlookup : schema.lookup e.1 with - | (- | name) | ⟨kind, default⟩ <;>
        rw [hlookup] at hturn
      · cases hturn
        refine ⟨fun k hk => ?_, fun k d hd => ?_⟩
        · rw [hother k hk, lastAlias_cons, isAliasOf_eq_false (by simp [hlookup])]
          simp
        · have hne : k ≠ e.1 := by rintro rfl; rw [hd] at hlookup; cases hlookup
          rw [halias k d hd, if_congr (mem_keys_cons hne) rfl rfl]
      · cases hturn
      · cases hturn
        obtain ⟨kind, default, hname⟩ := hplain.aliases _ _ hlookup
        refine ⟨fun k hk => ?_, fun k d hd => ?_⟩
        · have hne : k ≠ e.1 := by rintro rfl; exact hk _ hlookup
          rw [hother k hk, lastAlias_cons, Objects.lookup_del_ne hne]
          by_cases heq : k = name
          · rw [heq, Objects.lookup_put_self, if_pos (isAliasOf_iff.mpr hlookup)]
            cases lastAlias schema es name <;> rfl
          · rw [Objects.lookup_put_ne heq, if_neg fun hc => heq ?_]
            · cases lastAlias schema es k <;> rfl
            · have hc := isAliasOf_iff.mp hc
              rw [hlookup] at hc
              cases hc
              rfl
        · rw [halias k d hd]
          by_cases heq : k = e.1
          · simp [heq]
          · have hne : k ≠ name := by rintro rfl; rw [hname] at hd; cases hd
            rw [Objects.lookup_del_ne heq, Objects.lookup_put_ne hne,
              if_congr (mem_keys_cons heq) rfl rfl]
      · cases hturn
        refine ⟨fun k hk => ?_, fun k d hd => ?_⟩
        · rw [hother k hk, lastAlias_cons, isAliasOf_eq_false (by simp [hlookup])]
          simp
        · have hne : k ≠ e.1 := by rintro rfl; rw [hd] at hlookup; cases hlookup
          rw [halias k d hd, if_congr (mem_keys_cons hne) rfl rfl]

lemma lookup_defaultTurn_ne {p : String × Property} (h : k ≠ p.1) :
    (defaultTurn dict p).lookup k = dict.lookup k := by
  rw [defaultTurn]
  split
  · rfl
  · split
    · rfl
    · exact Objects.lookup_put_ne h

lemma lookup_defaultTurns (hk : k ∉ schema.map Prod.fst) :
    (schema.foldl defaultTurn dict).lookup k = dict.lookup k := by
  induction schema generalizing dict with
  | nil => rfl
  | cons p schema ih =>
    rw [List.map_cons, List.mem_cons, not_or] at hk
    rw [List.foldl_cons, ih hk.2, lookup_defaultTurn_ne hk.1]

lemma lookup_setDefaults (hnodup : (schema.map Prod.fst).Nodup) (dict : Dict) (k : String) :
    (setDefaults schema dict).lookup k =
      match schema.lookup k with
      | some (.option _ default) => orDefault default (dict.lookup k)
      | _ => dict.lookup k := by
  rw [setDefaults]
  induction schema generalizing dict with
  | nil => rfl
  | cons p schema ih =>
    rw [List.map_cons, List.nodup_cons] at hnodup
    rw [List.foldl_cons]
    obtain ⟨name, prop⟩ := p
    by_cases heq : k = name
    · subst heq
      rw [List.lookup_cons_self, lookup_defaultTurns hnodup.1, defaultTurn]
      cases prop with
      | aliasOf d => rfl
      | option kind default =>
        dsimp only [orDefault]
        by_cases hset : (dict.lookup k).getD .null ≠ .null ∨ default = .null
        · rw [if_pos hset, if_neg (by tauto)]
        · rw [if_neg hset, if_pos (by tauto), Objects.lookup_put_self]
    · have hbeq : (k == name) = false := by simpa using heq
      rw [ih hnodup.2, lookup_defaultTurn_ne heq, List.lookup_cons, hbeq]

lemma valueTurn_key {e e' : String × Value} (h : valueTurn schema e = .ok e') : e'.1 = e.1 := by
  rw [valueTurn] at h
  split at h
  · cases hv : validate_value e.1 _ e.2 with
    | error a => rw [hv] at h; cases h
    | ok w => rw [hv] at h; cases h; rfl
  · cases h
    rfl

lemma valueTurn_again {e e' : String × Value} (h : valueTurn schema e = .ok e') :
    valueTurn schema e' = .ok e' := by
  have hkey := valueTurn_key h
  rw [valueTurn] at h ⊢
  rw [hkey]
  split at h
  · rename_i kind default heq
    cases hv : validate_value e.1 kind e.2 with
    | error a => rw [hv] at h; cases h
    | ok w =>
      rw [hv] at h
      cases h
      dsimp only
      rw [validate_value_again hv]
      rfl
  · cases h
    rfl

lemma given_alone {name : String} (hdict : (dict.map Prod.fst).Nodup)
    (hk : schema.lookup k = some (.aliasOf (some name)))
    (hv : dict.lookup k = some v) (hnull : v ≠ .null) (halone : Alone schema dict k name) :
    given schema dict name default = some v := by
  have hlast : lastAlias schema dict name = some v := by
    rw [lastAlias]
    cases hfind : dict.reverse.find? fun e => isAliasOf schema e.1 name with
    | none =>
      have hmem := List.mem_reverse.mpr (Objects.mem_of_lookup hv)
      exact absurd (isAliasOf_iff.mpr hk) (List.find?_eq_none.mp hfind _ hmem)
    | some e =>
      have hmem := List.mem_reverse.mp (List.mem_of_find?_eq_some hfind)
      have hlookup : dict.lookup e.1 = some e.2 := Objects.lookup_of_mem hdict hmem
      by_cases heq : e.1 = k
      · rw [heq, hv] at hlookup
        exact hlookup.symm
      · have halias := List.find?_some (p := fun e : String × Value => isAliasOf schema e.1 name) hfind
        rw [halone.2 e.1 heq (isAliasOf_iff.mp halias)] at hlookup
        cases hlookup
  rw [given, hlast, orDefault, if_neg (by simp [hnull])]
  rfl

lemma lookup_validateValues (h : validateValues schema dict = .ok dict') (k : String) :
    (dict.lookup k = none → dict'.lookup k = none) ∧ ∀ v, dict.lookup k = some v →
      ∃ w, dict'.lookup k = some w ∧ valueTurn schema (k, v) = .ok (k, w) := by
  have hall := forall₂_of_mapM.mp h
  clear h
  induction hall with
  | nil => exact ⟨fun _ => rfl, fun v hv => by cases hv⟩
  | @cons e e' es es' hturn _ ih =>
    obtain ⟨name, v⟩ := e
    obtain ⟨name', w⟩ := e'
    obtain rfl : name' = name := valueTurn_key hturn
    by_cases heq : k = name'
    · subst heq
      rw [List.lookup_cons_self, List.lookup_cons_self]
      refine ⟨nofun, fun u hu => ?_⟩
      cases hu
      exact ⟨w, rfl, hturn⟩
    · have hbeq : (k == name') = false := by simpa using heq
      rw [List.lookup_cons, List.lookup_cons, hbeq]
      exact ih

lemma validate_ok (h : validate schema dict = .ok dict') :
    ∃ d, renameAliases schema dict = .ok d ∧
      validateValues schema (setDefaults schema d) = .ok dict' := by
  rw [validate] at h
  cases hd : renameAliases schema dict with
  | error a => rw [hd] at h; cases h
  | ok d => rw [hd] at h; exact ⟨d, rfl, h⟩

lemma validate_option (hplain : schema.Plain) (h : validate schema dict = .ok dict')
    (hk : schema.lookup k = some (.option kind default)) :
    (given schema dict k default = none → dict'.lookup k = none) ∧
      ∀ v, given schema dict k default = some v →
        ∃ w, dict'.lookup k = some w ∧ validate_value k kind v = .ok w := by
  obtain ⟨d, hd, hvalues⟩ := validate_ok h
  have hlookup : (setDefaults schema d).lookup k = given schema dict k default := by
    rw [lookup_setDefaults hplain.nodup, hk, given, (renameLoop hplain dict dict hd).1 k (by simp [hk])]
  rw [← hlookup]
  obtain ⟨hnone, hsome⟩ := lookup_validateValues hvalues k
  refine ⟨hnone, fun v hv => ?_⟩
  obtain ⟨w, hw, hturn⟩ := hsome v hv
  refine ⟨w, hw, ?_⟩
  rw [valueTurn, hk] at hturn
  dsimp only at hturn
  cases hval : validate_value k kind v with
  | error a => rw [hval] at hturn; cases hturn
  | ok u => rw [hval] at hturn; cases hturn; rfl

lemma validate_aliasOf {d : Option String} (hplain : schema.Plain)
    (h : validate schema dict = .ok dict') (hk : schema.lookup k = some (.aliasOf d)) :
    dict'.lookup k = none := by
  obtain ⟨m, hm, hvalues⟩ := validate_ok h
  refine (lookup_validateValues hvalues k).1 ?_
  rw [lookup_setDefaults hplain.nodup, hk]
  dsimp only
  rw [(renameLoop hplain dict dict hm).2 k d hk]
  split
  · rfl
  · rename_i hmem
    exact Objects.lookup_eq_none hmem

lemma validate_outside (hplain : schema.Plain) (h : validate schema dict = .ok dict')
    (hk : schema.lookup k = none) : dict'.lookup k = dict.lookup k := by
  obtain ⟨m, hm, hvalues⟩ := validate_ok h
  have hnot : lastAlias schema dict k = none := by
    rw [lastAlias, List.find?_eq_none.mpr, Option.map_none]
    intro e _ he
    obtain ⟨kind, default, hname⟩ := hplain.aliases _ _ (isAliasOf_iff.mp he)
    rw [hk] at hname
    cases hname
  have hlookup : (setDefaults schema m).lookup k = dict.lookup k := by
    rw [lookup_setDefaults hplain.nodup, hk, (renameLoop hplain dict dict hm).1 k (by simp [hk]), hnot,
      Option.none_or]
  obtain ⟨hnone, hsome⟩ := lookup_validateValues hvalues k
  rw [hlookup] at hnone hsome
  cases hdict : dict.lookup k with
  | none => exact hnone hdict
  | some v =>
    obtain ⟨w, hw, hturn⟩ := hsome v hdict
    rw [valueTurn, hk] at hturn
    cases hturn
    exact hw

/-- A dictionary without aliases in which every option has its default and its type is left as it
is. -/
lemma validate_eq_self (haliases : ∀ e ∈ dict, ∀ d, schema.lookup e.1 ≠ some (.aliasOf d))
    (hdefaults : ∀ p ∈ schema, ∀ kind default, p.2 = .option kind default → default ≠ .null →
      (dict.lookup p.1).getD .null ≠ .null)
    (hvalues : ∀ e ∈ dict, valueTurn schema e = .ok e) : validate schema dict = .ok dict := by
  have hrename : renameAliases schema dict = .ok dict := by
    rw [renameAliases]
    have hall : ∀ es : Dict, (∀ e ∈ es, ∀ d, schema.lookup e.1 ≠ some (.aliasOf d)) →
        es.foldlM (renameTurn schema) dict = .ok dict := by
      intro es
      induction es with
      | nil => exact fun _ => rfl
      | cons e es ih =>
        intro hes
        have hturn : renameTurn schema dict e = .ok dict := by
          rw [renameTurn]
          split
          · rename_i heq
            exact absurd heq (hes e (List.mem_cons_self ..) _)
          · rename_i heq
            exact absurd heq (hes e (List.mem_cons_self ..) _)
          · rfl
        rw [List.foldlM_cons, hturn]
        exact ih fun f hf => hes f (List.mem_cons_of_mem _ hf)
    exact hall dict haliases
  have hset : setDefaults schema dict = dict := by
    rw [setDefaults]
    clear hrename haliases hvalues
    induction schema with
    | nil => rfl
    | cons p schema ih =>
      have hturn : defaultTurn dict p = dict := by
        rw [defaultTurn]
        split
        · rfl
        · rename_i kind default heq
          by_cases hnull : default = .null
          · rw [if_pos (.inr hnull)]
          · rw [if_pos (.inl (hdefaults p (List.mem_cons_self ..) kind default heq hnull))]
      rw [List.foldl_cons, hturn]
      exact ih fun q hq => hdefaults q (List.mem_cons_of_mem _ hq)
  rw [validate, hrename]
  show validateValues schema (setDefaults schema dict) = .ok dict
  rw [hset, validateValues, forall₂_of_mapM, List.forall₂_same]
  exact hvalues

/-- Validating a result again changes nothing. -/
lemma validate_again (hplain : schema.Plain) (h : validate schema dict = .ok dict') :
    validate schema dict' = .ok dict' := by
  refine validate_eq_self (fun e he d hd => ?_) (fun p hp kind default heq hnull => ?_) ?_
  · obtain ⟨v, hv⟩ := Objects.mem_keys_iff.mp (Objects.mem_keys (k := e.1) (a := e.2) he)
    rw [validate_aliasOf hplain h hd] at hv
    cases hv
  · have hk : schema.lookup p.1 = some (.option kind default) := by
      rw [← heq]
      exact Objects.lookup_of_mem hplain.nodup hp
    obtain ⟨-, hsome⟩ := validate_option hplain h hk
    -- the value that is given is not null, and so the validated one is none either
    have hgiven : ∃ v, given schema dict p.1 default = some v ∧ v ≠ .null := by
      rw [given, orDefault]
      split
      · exact ⟨default, rfl, hnull⟩
      · rename_i hnot
        have hvalue := fun h => hnot ⟨h, hnull⟩
        cases hor : (lastAlias schema dict p.1).or (dict.lookup p.1) with
        | none => rw [hor] at hvalue; exact absurd rfl hvalue
        | some v => rw [hor] at hvalue; exact ⟨v, rfl, hvalue⟩
    obtain ⟨v, hv, hne⟩ := hgiven
    obtain ⟨w, hw, hval⟩ := hsome v hv
    rw [hw]
    exact validate_value_ne_null hval hne
  · obtain ⟨d, -, hvalues⟩ := validate_ok h
    have hall := forall₂_of_mapM.mp hvalues
    clear hvalues h
    generalize setDefaults schema d = m at hall
    induction hall with
    | nil => simp
    | cons hturn _ ih => exact List.forall_mem_cons.mpr ⟨valueTurn_again hturn, ih⟩

end Dictionaries

/-! ## The result -/

/-- Validation establishes the schema if and only if every option that has a value has a clean
one. -/
theorem establishes_iff {schema : Schema} {dict dict' : Dict} (hplain : schema.Plain)
    (hdict : (dict.map Prod.fst).Nodup) (h : validate schema dict = .ok dict') :
    Establishes schema dict dict' ↔ ∀ k kind default v,
      schema.lookup k = some (.option kind default) → given schema dict k default = some v →
      kind.Clean v := by
  constructor
  · intro hest k kind default v hk hv
    obtain ⟨w, hw, hval⟩ := (validate_option hplain h hk).2 v hv
    obtain ⟨w', hw', hkeeps⟩ := hest.keeps k kind default v hk hv
    obtain rfl : w = w' := by rw [hw] at hw'; exact Option.some.inj hw'
    exact (within_iff hval).mp ⟨hest.within k kind default w hk hw, hkeeps⟩
  · intro hclean
    -- an option with a value holds it validated, within the bounds and with its meaning
    have hoption : ∀ k kind default v, schema.lookup k = some (.option kind default) →
        given schema dict k default = some v →
        ∃ w, dict'.lookup k = some w ∧ kind.Within w ∧ kind.Keeps v w := by
      intro k kind default v hk hv
      obtain ⟨w, hw, hval⟩ := (validate_option hplain h hk).2 v hv
      exact ⟨w, hw, (within_iff hval).mpr (hclean k kind default v hk hv)⟩
    constructor
    case within =>
      intro k kind default w hk hw
      cases hgiven : given schema dict k default with
      | none =>
        rw [(validate_option hplain h hk).1 hgiven] at hw
        cases hw
      | some v =>
        obtain ⟨w', hw', hwithin, -⟩ := hoption k kind default v hk hgiven
        obtain rfl : w = w' := by rw [hw] at hw'; exact Option.some.inj hw'
        exact hwithin
    case defaults =>
      intro k kind default hk hnull
      obtain ⟨v, hv⟩ : ∃ v, given schema dict k default = some v := by
        rw [given, orDefault]
        split
        · exact ⟨default, rfl⟩
        · rename_i hnot
          cases hor : (lastAlias schema dict k).or (dict.lookup k) with
          | none => rw [hor] at hnot; exact absurd ⟨rfl, hnull⟩ hnot
          | some v => exact ⟨v, rfl⟩
      obtain ⟨w, hw, -⟩ := hoption k kind default v hk hv
      rw [hw]
      rfl
    case aliases => exact fun k d hk => validate_aliasOf hplain h hk
    case renamed =>
      intro k name kind default v hk hname hv hnull halone
      obtain ⟨w, hw, -, hkeeps⟩ := hoption name kind default v hname (given_alone hdict hk hv hnull halone)
      exact ⟨w, hw, hkeeps⟩
    case keeps =>
      intro k kind default v hk hv
      obtain ⟨w, hw, -, hkeeps⟩ := hoption k kind default v hk hv
      exact ⟨w, hw, hkeeps⟩
    case outside => exact fun k hk => validate_outside hplain h hk
    case again => exact validate_again hplain h

/-- Two properties of the schema of an interface. -/
def sample : Schema := [
  ("access_network_type", .option (.number (some 0) (some 15) none) .null),
  ("iw_access_network_type", .aliasOf (some "access_network_type"))]

lemma sample_plain : sample.Plain where
  nodup := by decide
  aliases := by
    intro k name hk
    have hmem := Objects.mem_of_lookup hk
    simp only [sample, List.mem_cons, Prod.mk.injEq, reduceCtorEq, and_false, List.not_mem_nil,
      or_false, false_or, Property.aliasOf.injEq, Option.some.injEq] at hmem
    rw [hmem.2]
    exact ⟨_, _, rfl⟩

/-- An option with a value inside its bounds. -/
theorem establishes_iff_inside :
    Establishes sample [("iw_access_network_type", .str "3")]
        [("access_network_type", .num (.int 3))] ↔
      ∀ k kind default v, sample.lookup k = some (.option kind default) →
        given sample [("iw_access_network_type", .str "3")] k default = some v → kind.Clean v :=
  establishes_iff sample_plain (by decide) (by decide +kernel)

/-- A value below a minimum of 0 passes. -/
theorem below_zero_passes :
    ∃ schema : Schema, ∃ dict dict' : Dict, schema.Plain ∧ (dict.map Prod.fst).Nodup ∧
      validate schema dict = .ok dict' ∧ ¬ Establishes schema dict dict' := by
  refine ⟨sample, [("iw_access_network_type", .str "-1")],
    [("access_network_type", .num (.int (-1)))], sample_plain, by decide, by decide +kernel, ?_⟩
  intro hest
  obtain ⟨n, hn, -, hlow, -⟩ := hest.within "access_network_type" _ _ _ rfl rfl
  cases hn
  exact absurd (hlow 0 rfl) (by decide +kernel)

end Validate
