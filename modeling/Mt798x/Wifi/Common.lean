import Mathlib

/-!
# Writing a hostapd configuration

The values and the dictionary of options of `wifi-scripts`, and the functions of `common.uc` that
change the dictionary and write lines.  What the generator of a BSS works on is a `Section`: the
options, the lines written so far, the reasons reported to netifd and the files written beside.
-/

namespace Wifi

/-- The values of an option. -/
inductive Value
  | null
  | bool (b : Bool)
  | int (n : ℤ)
  | str (s : String)
  | arr (l : List String)
  deriving DecidableEq

namespace Value

def truthy : Value → Bool
  | null => false
  | bool b => b
  | int n => n != 0
  | str s => s != ""
  | arr _ => true

/-- A value as a part of a text. -/
def text : Value → String
  | null => "null"
  | bool b => if b then "true" else "false"
  | int n => toString n
  | str s => s
  | arr l => "[ " ++ ", ".intercalate l ++ " ]"

/-- The number that a comparison sees. -/
def num : Value → ℤ
  | bool b => if b then 1 else 0
  | int n => n
  | _ => 0

/-- What `for (let x in value)` goes through. -/
def elems : Value → List String
  | arr l => l
  | _ => []

/-- The value as `append` writes it. -/
def printed : Value → Value
  | arr l => str (" ".intercalate l)
  | bool b => int (if b then 1 else 0)
  | v => v

/-- `a ?? b`. -/
def orElse (a b : Value) : Value := if a = null then b else a

end Value

/-- A dictionary of options; an option that it does not have is null. -/
abbrev Config := String → Value

/-- `set_default`, and `??=`. -/
def setDefault (c : Config) (key : String) (v : Value) : Config :=
  if c key = .null then Function.update c key v else c

/-- `split(text, sep, limit)`: at most `limit` parts, the last one with what is left. -/
def splitParts (sep : Char) : ℕ → List Char → List (List Char)
  | _, [] => [[]]
  | limit, c :: t =>
    if c = sep ∧ 1 < limit then [] :: splitParts sep (limit - 1) t
    else match splitParts sep limit t with
      | [] => [[c]]
      | part :: parts => (c :: part) :: parts

def split (text : String) (sep : Char) (limit : ℕ) : List String :=
  (splitParts sep limit text.toList).map String.ofList

/-- `substr(text, 0, n)` -/
def substr (text : String) (n : ℕ) : String := String.ofList (text.toList.take n)

/-- A line of a configuration: an option with its value, or raw text. -/
inductive Line
  | opt (key : String) (value : Value)
  | raw (text : String)
  deriving DecidableEq

structure Section where
  config : Config
  lines : List Line
  failed : List String
  files : List (String × String)

namespace Section

variable (s : Section) (key : String) (v : Value)

def set : Section := { s with config := Function.update s.config key v }

def default : Section := { s with config := setDefault s.config key v }

def append : Section :=
  if v = .null then s else { s with lines := s.lines ++ [.opt key v.printed] }

def appendVars (keys : List String) : Section :=
  keys.foldl (fun t key => t.append key (s.config key)) s

/-- `netifd.setup_failed` -/
def setupFailed (reason : String) : Section := { s with failed := s.failed ++ [reason] }

end Section

/-! ## The lines that are written -/

namespace Section

variable {s : Section} {key k : String} {v w : Value}

@[simp] lemma append_config : (s.append key v).config = s.config := by
  rw [append]
  split <;> rfl

lemma mem_append :
    .opt k w ∈ (s.append key v).lines ↔ .opt k w ∈ s.lines ∨ v ≠ .null ∧ k = key ∧ w = v.printed := by
  rw [append]
  split
  · next h => simp [h]
  · next h => simp [h]

lemma mem_appendVars {keys : List String} :
    .opt k w ∈ (s.appendVars keys).lines ↔
      .opt k w ∈ s.lines ∨ k ∈ keys ∧ s.config k ≠ .null ∧ w = (s.config k).printed := by
  have hfold : ∀ t : Section, .opt k w ∈
      (keys.foldl (fun t key => t.append key (s.config key)) t).lines ↔
        .opt k w ∈ t.lines ∨ k ∈ keys ∧ s.config k ≠ .null ∧ w = (s.config k).printed := by
    induction keys with
    | nil => simp
    | cons key keys ih =>
      intro t
      rw [List.foldl_cons, ih, mem_append, List.mem_cons]
      constructor
      · rintro ((h | ⟨h, rfl, hw⟩) | ⟨hk, h⟩)
        · exact .inl h
        · exact .inr ⟨.inl rfl, h, hw⟩
        · exact .inr ⟨.inr hk, h⟩
      · rintro (h | ⟨rfl | hk, h, hw⟩)
        · exact .inl (.inl h)
        · exact .inl (.inr ⟨h, rfl, hw⟩)
        · exact .inr ⟨hk, h, hw⟩
  exact hfold s

end Section

end Wifi
