import Mt798x.Lib.Batch

/-!
# The object editor of the command line

`add_call`, `set_call` and `remove_call` edit the attributes of an object, one named parameter
after the other.  Objects are references into a store that maps an object and an attribute name to
what the attribute holds; `get_object` of a parameter delivers such a reference.  Specifications
with callbacks `add`, `set` and `remove` of their own are not modelled.
-/

namespace Cli

/-! ## Values -/

/-- A value that is no list; numbers are integers. -/
inductive Scalar where
  | null
  | bool (b : Bool)
  | int (n : ℤ)
  | str (s : String)
  deriving DecidableEq, Repr

/-- What an attribute or a named parameter holds. -/
inductive Value where
  | one (x : Scalar)
  | list (xs : List Scalar)
  deriving DecidableEq, Repr

namespace Value

/-- The value counts as true; a list always does. -/
def truthy : Value → Bool
  | .one .null => false
  | .one (.bool b) => b
  | .one (.int n) => n ≠ 0
  | .one (.str s) => s ≠ ""
  | .list _ => true

/-- `index(val, v)`: the place in a list, the offset in a string, -1 if there is none; null for
other values. -/
def index (val : Value) (v : Scalar) : Option ℤ :=
  match val with
  | .list xs => some (if v ∈ xs then xs.idxOf v else -1)
  | .one (.str s) =>
    match v with
    | .str t =>
      match s.toList.tails.findIdx? (t.toList.isPrefixOf ·) with
      | some k => some k
      | none => some (-1)
    | _ => some (-1)
  | .one _ => none

/-- `length(val)`; null, which compares like 0, for what has no length. -/
def length : Value → ℕ
  | .list xs => xs.length
  | .one (.str s) => s.utf8ByteSize
  | .one _ => 0

end Value

/-- `index(val, v) >= 0`, where null compares like 0. -/
def found (val : Value) (v : Scalar) : Bool := 0 ≤ (val.index v).getD 0

/-- The digits are the text of a natural number. -/
def Canonical (ds : List Char) : Prop :=
  ds ≠ [] ∧ (ds.all fun c => 48 ≤ c.toNat ∧ c.toNat ≤ 57) ∧ (ds.head? = some '0' → ds = ['0'])

instance (ds : List Char) : Decidable (Canonical ds) := inferInstanceAs (Decidable (_ ∧ _ ∧ _))

/-- The number that digits are the text of. -/
def digitsValue (ds : List Char) : ℕ := ds.foldl (fun n c => 10 * n + (c.toNat - 48)) 0

/-- The number that a string is the text of, `+idx` where `idx == "" + +idx`. -/
def number (idx : String) : Option ℤ :=
  match idx.toList with
  | '-' :: ds => if Canonical ds ∧ ds ≠ ['0'] then some (-digitsValue ds) else none
  | ds => if Canonical ds then some (digitsValue ds) else none

/-! ## Objects and specifications -/

/-- An attribute of an object. -/
abbrev Place := ℕ × String

/-- What the attributes of all objects hold; `none` for an attribute that is not there. -/
abbrev Store := Place → Option Value

/-- `obj[name]`, null if it is not there. -/
def Store.get (s : Store) (p : Place) : Value := (s p).getD (.one .null)

/-- The properties of a named parameter that the editor looks at: `attribute`, here `attr`, the
object that the callback `get_object` delivers, and three flags. -/
structure Param where
  attr : Option String := none
  get_object : Option ℕ := none
  multiple : Bool := false
  allow_duplicate : Bool := false
  attribute_allow_empty : Bool := false
  deriving DecidableEq, Repr

/-- An entry of the editor: its parameters, the object being edited, and whether it has a
`change_cb`. -/
structure Entry where
  named_args : String → Option Param
  edit_object : Option ℕ
  change_cb : Bool

/-- The attribute that a parameter of this name edits. -/
def Param.place (cur : Param) (obj : ℕ) (name : String) : Place :=
  (cur.get_object.getD obj,
    match cur.attr with
    | some a => if a ≠ "" then a else name
    | none => name)

/-- The same attribute name in the edited object itself, where duplicates are looked for. -/
def Param.objPlace (cur : Param) (obj : ℕ) (name : String) : Place :=
  (obj, (cur.place obj name).2)

/-- The errors the editor records. -/
inductive Err where
  | invalidArgument
  | duplicateValue (v : Scalar)
  | invalidValue (idx : String)
  deriving DecidableEq, Repr

/-- Why a loop over the parameters is left: a recorded error, or an exception of the
interpreter. -/
inductive Halt where
  | error (e : Err)
  | raised
  deriving DecidableEq, Repr

/-- How a command ends. -/
inductive Ended where
  | ok
  | returned
  | raised
  deriving DecidableEq, Repr

/-- What a command leaves behind: the objects, the recorded errors, how it ended, and how often it
called `change_cb`. -/
structure Result where
  store : Store
  errors : List Err
  ended : Ended
  changes : ℕ

/-- `call_change_cb` -/
def call_change_cb {α : Type} (entry : Entry) (named : List α) : ℕ :=
  if named.length = 0 ∨ ¬ entry.change_cb then 0 else 1

/-! ## Duplicates -/

/-- The loop of `check_duplicate` over a list, behind these elements of it: the first value that
is found in `val` or among the elements before it. -/
def duplicateFrom (val : Value) : List Scalar → List Scalar → Option Scalar
  | _, [] => none
  | seen, v :: vs =>
    if (val.truthy ∧ found val v) ∨ (seen ≠ [] ∧ v ∈ seen) then some v
    else duplicateFrom val (seen ++ [v]) vs

/-- `check_duplicate`; indexing a string raises an exception, and other values have no length. -/
def check_duplicate (val new_val : Value) : Option Halt :=
  match new_val with
  | .list vs => (duplicateFrom val [] vs).map fun v => .error (.duplicateValue v)
  | .one (.str s) => if s = "" then none else some .raised
  | .one _ => none

/-! ## add -/

/-- `cur_obj[name] ??= []` -/
def Store.orEmpty (s : Store) (p : Place) : Store :=
  if s.get p = .one .null then Function.update s p (some (.list [])) else s

/-- `push(cur_obj[name], ...val)`: what is no list is left alone. -/
def Store.push (s : Store) (p : Place) (val : List Scalar) : Store :=
  match s.get p with
  | .list xs => Function.update s p (some (.list (xs ++ val)))
  | .one _ => s

/-- A turn of the loop of `add_call`.  A name without specification is a property of null. -/
def addTurn (entry : Entry) (obj : ℕ) (s : Store) (arg : String × List Scalar) :
    Batch.Turn Store Halt :=
  match entry.named_args arg.1 with
  | none => .stop .raised s
  | some cur =>
    let s := s.orEmpty (cur.place obj arg.1)
    let dup := if cur.allow_duplicate then none
      else check_duplicate (s.get (cur.objPlace obj arg.1)) (.list arg.2)
    match dup with
    | some how => .stop how s
    | none => .next (s.push (cur.place obj arg.1) arg.2)

/-- How a stopped loop ends the command. -/
def Halt.result (how : Halt) (s : Store) : Result :=
  match how with
  | .error e => ⟨s, [e], .returned, 0⟩
  | .raised => ⟨s, [], .raised, 0⟩

/-- `add_call` -/
def add_call (entry : Entry) (s : Store) (named : List (String × List Scalar)) : Result :=
  match entry.edit_object with
  | none => ⟨s, [.invalidArgument], .returned, 0⟩
  | some obj =>
    match Batch.loop (addTurn entry obj) s named with
    | (t, some how) => how.result t
    | (t, none) => ⟨t, [], .ok, call_change_cb entry named⟩

/-! ## set -/

/-- A turn of the loop of `set_call`. -/
def setTurn (entry : Entry) (obj : ℕ) (s : Store) (arg : String × Value) :
    Batch.Turn Store Halt :=
  match entry.named_args arg.1 with
  | none => .next s
  | some cur =>
    if arg.2 = .one .null then .next (Function.update s (cur.place obj arg.1) none)
    else
      let dup := if cur.multiple ∧ ¬ cur.allow_duplicate then
          check_duplicate (s.get (cur.objPlace obj arg.1)) arg.2
        else none
      match dup with
      | some how => .stop how s
      | none => .next (Function.update s (cur.place obj arg.1) (some arg.2))

/-- `set_call` -/
def set_call (entry : Entry) (s : Store) (named : List (String × Value)) : Result :=
  match entry.edit_object with
  | none => ⟨s, [.invalidArgument], .returned, 0⟩
  | some obj =>
    match Batch.loop (setTurn entry obj) s named with
    | (t, some how) => how.result t
    | (t, none) => ⟨t, [], .ok, call_change_cb entry named⟩

/-! ## remove -/

/-- The entry that a value names, counted from 1: a position, or the first equal entry; `none` if
it is invalid. -/
def entryOf (data : Value) (idx : String) : Option ℤ :=
  match number idx with
  | none => if found data (.str idx) then some ((data.index (.str idx)).getD 0 + 1) else none
  | some n => if n > data.length then none else some n

/-- The slot of `data[n - 1]`; a negative index counts from the end of the list. -/
def slotOf (xs : List Scalar) (n : ℤ) : Option ℕ :=
  let i := if n - 1 < 0 then n - 1 + xs.length else n - 1
  if 0 ≤ i then some i.toNat else none

/-- `data[n - 1] = null` -/
def clear (xs : List Scalar) (n : ℤ) : List Scalar :=
  match slotOf xs n with
  | some i => xs.set i .null
  | none => xs

/-- The loop of `remove_call` over the values of a parameter: what has become of the list and the
errors recorded; `none` for the exception of an assignment into what is no list. -/
def removeLoop (data : Value) : List String → Option (Value × List Err)
  | [] => some (data, [])
  | idx :: rest =>
    match entryOf data idx with
    | none => (removeLoop data rest).map fun r => (r.1, .invalidValue idx :: r.2)
    | some n =>
      match data with
      | .list xs => removeLoop (.list (clear xs n)) rest
      | .one _ => none

/-- `filter(data, (v) => v != null)`, null for what is no list. -/
def filtered : Value → Value
  | .list xs => .list (xs.filter (· ≠ .null))
  | .one _ => .one .null

/-- What becomes of the attribute when the values have been removed. -/
def removed (cur : Param) (data : Value) : Option Value :=
  if cur.attribute_allow_empty ∧ (filtered data).length = 0 then none else some (filtered data)

/-- A turn of the loop of `remove_call`, with the errors recorded so far. -/
def removeTurn (entry : Entry) (obj : ℕ) (s : Store × List Err) (arg : String × List String) :
    Batch.Turn (Store × List Err) Halt :=
  match entry.named_args arg.1 with
  | none => .stop .raised s
  | some cur =>
    let data := s.1.get (cur.place obj arg.1)
    if ¬ data.truthy then .next s
    else
      match removeLoop data arg.2 with
      | none => .stop .raised s
      | some (data, errors) =>
        .next (Function.update s.1 (cur.place obj arg.1) (removed cur data), s.2 ++ errors)

/-- `remove_call` -/
def remove_call (entry : Entry) (s : Store) (named : List (String × List String)) : Result :=
  match entry.edit_object with
  | none => ⟨s, [.invalidArgument], .returned, 0⟩
  | some obj =>
    match Batch.loop (removeTurn entry obj) (s, []) named with
    | (t, some _) => ⟨t.1, t.2, .raised, 0⟩
    | (t, none) =>
      if t.2.length > 0 then ⟨t.1, t.2, .returned, 0⟩
      else ⟨t.1, [], .ok, call_change_cb entry named⟩

end Cli
