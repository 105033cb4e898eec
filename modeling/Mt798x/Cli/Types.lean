import Mt798x.Lib.Numbers
import Mt798x.Lib.Tokens

/-!
# Do the argument types accept their language?

The types `int`, `host`, `macaddr` and `cidr4` of `types.uc`, and `parse_arg` of `context.uc`,
which hands an argument to its type.  The recogniser of addresses, `iptoarr`, is a parameter.  A
text is a list of characters, one for each byte; a regular expression sees it up to a zero byte.
-/

namespace ArgTypes

open Script

abbrev Text := List Char

/-! ## Parsing -/

/-- A recorded error: its code, its message and what is put into the message. -/
structure Failure where
  code : String
  msg : String
  args : List Text
  deriving DecidableEq

/-- What an argument is parsed to. -/
inductive Parsed where
  | num (n : Number)
  | text (s : Text)
  deriving DecidableEq

/-- What a parser returns, and the errors it records. -/
structure Outcome where
  value : Option Parsed
  errors : List Failure
  deriving DecidableEq

def returns (v : Parsed) : Outcome := ⟨some v, []⟩

def invalid_argument (msg : String) (args : List Text) : Outcome :=
  ⟨none, [⟨"INVALID_ARGUMENT", msg, args⟩]⟩

/-- A bound as a part of a message. -/
def shown : Option ℤ → String
  | some m => toString m
  | none => "null"

/-- `types.int` -/
def int (min max : Option ℤ) (name strval : Text) : Outcome :=
  let val := readNumber strval
  let strval := if strval.take 1 = ['-'] then strval.drop 1 else strval
  if (cstr strval).any (!·.isDigit) then invalid_argument "value for %s is not a number" [name]
  else if min.all (fun m => (Number.int m).le val) && max.all (fun m => val.le (.int m)) then
    returns (.num val)
  else if min.isSome && max.isSome then
    invalid_argument ("value for %s must be between " ++ shown min ++ " and " ++ shown max) [name]
  else if min.isSome then
    invalid_argument ("value for %s must be at least " ++ shown min) [name]
  else invalid_argument ("value for %s must not be bigger than " ++ shown max) [name]

/-- The expression for a label: a letter or digit, or two of them with at most 61 letters, digits
and hyphens between them. -/
def matchLabel (s : Text) : Bool :=
  match cstr s with
  | [] => false
  | [c] => c.isAlphanum
  | c :: d :: rest =>
    c.isAlphanum && ((d :: rest).dropLast.all fun c => c.isAlphanum || c = '-') &&
      (d :: rest).dropLast.length ≤ 61 && ((d :: rest).getLast?.any Char.isAlphanum)

variable (iptoarr : Text → Option (List ℕ))

/-- `types.host`; the length of null is null, which is not equal to 0. -/
def host (name val : Text) : Outcome :=
  if (iptoarr val).map List.length ≠ some 0 then returns (.text val)
  else if 255 < val.length then ⟨none, []⟩
  else
    let labels := val.splitOn '.'
    if (labels.filter (!matchLabel ·)).length = 0 ∧ 0 < labels.length then returns (.text val)
    else invalid_argument "value for %s is not an valid IP or hostname" [name]

/-- `lc` -/
def lc (s : Text) : Text := s.map Char.toLower

def isLowerHex (c : Char) : Bool := c.isDigit || ('a' ≤ c && c ≤ 'f')

/-- The expression for a group of an address. -/
def matchGroup (s : Text) : Bool := (cstr s).length = 2 && (cstr s).all isLowerHex

/-- `types.macaddr` -/
def macaddr (name val : Text) : Outcome :=
  let val := lc val
  let arr := val.splitOn ':'
  if arr.length ≠ 6 ∨ (arr.filter (!matchGroup ·)).length ≠ 0 then
    invalid_argument "value for %s is not an MAC address" [name]
  else returns (.text val)

/-- `split(val, '/', 2)`: the first part, and the second one if there is a slash. -/
def splitSlash (val : Text) : Text × Option Text :=
  match val.dropWhile (· ≠ '/') with
  | [] => (val, none)
  | _ :: rest => (val.takeWhile (· ≠ '/'), some rest)

/-- `+val`, which is 0 for null. -/
def toNumber (val : Option Text) : Number := (val.map readNumber).getD (.int 0)

/-- `types.cidr4` -/
def cidr4 (allow_auto : Bool) (name val : Text) : Outcome :=
  let m := splitSlash val
  if (toNumber m.2).le (.int 32) ∧
      ((m.1 = "auto".toList ∧ allow_auto) ∨ (iptoarr m.1).map List.length = some 4) then
    returns (.text val)
  else invalid_argument "value for %s is not cidr4 (e.g. 192.168.1.1/24)" [name]

/-- A specification of an argument with one of the types. -/
inductive ArgType where
  | int (min max : Option ℤ)
  | host
  | macaddr
  | cidr4 (allow_auto : Bool)

def ArgType.parse (type : ArgType) (name val : Text) : Outcome :=
  match type with
  | int min max => ArgTypes.int min max name val
  | host => ArgTypes.host iptoarr name val
  | macaddr => ArgTypes.macaddr name val
  | cidr4 allow_auto => ArgTypes.cidr4 iptoarr allow_auto name val

/-- `parse_arg` of a value, or of none, with its type, or with an unknown one. -/
def parse_arg (name : Text) (type : Option ArgType) (val : Option Text) : Outcome :=
  match val with
  | none => invalid_argument "Missing argument %s" [name]
  | some val =>
    match type with
    | none => invalid_argument "Invalid type in argument: %s" [name]
    | some type => type.parse iptoarr name val

/-! ## The languages -/

/-- At least one decimal digit. -/
def Decimal (ds : Text) : Prop := ds ≠ [] ∧ ∀ c ∈ ds, c.isDigit = true

/-- The number that digits, or digits behind a minus, stand for. -/
def Denotes (val : Text) (n : ℤ) : Prop :=
  (Decimal val ∧ n = digits 10 val) ∨ ∃ ds, val = '-' :: ds ∧ Decimal ds ∧ n = -digits 10 ds

def Inside (min max : Option ℤ) (n : ℤ) : Prop := (∀ m ∈ min, m ≤ n) ∧ ∀ m ∈ max, n ≤ m

/-- 1 to 63 letters, digits and inner hyphens. -/
def Label (s : Text) : Prop :=
  1 ≤ s.length ∧ s.length ≤ 63 ∧ (∀ c ∈ s, c.isAlphanum = true ∨ c = '-') ∧
    s.head? ≠ some '-' ∧ s.getLast? ≠ some '-'

/-- Two hexadecimal digits. -/
def Group (s : Text) : Prop := s.length = 2 ∧ ∀ c ∈ s, isLowerHex c.toLower = true

/-- What the recogniser of addresses does: it tells the literals of the two kinds by the number of
bytes, and an IPv4 literal is made of digits and dots. -/
structure Recognises (Ipv4 Ipv6 : Text → Prop) : Prop where
  four : ∀ s, (iptoarr s).map List.length = some 4 ↔ Ipv4 s
  sixteen : ∀ s, (iptoarr s).map List.length = some 16 ↔ Ipv6 s
  length : ∀ s a, iptoarr s = some a → a.length = 4 ∨ a.length = 16
  dotted : ∀ s, Ipv4 s → ∀ c ∈ s, c.isDigit = true ∨ c = '.'

variable (Ipv4 Ipv6 : Text → Prop)

/-- An IPv4 address, or `auto` where it is allowed. -/
def Address (allow_auto : Bool) (s : Text) : Prop :=
  Ipv4 s ∨ (s = "auto".toList ∧ allow_auto = true)

namespace ArgType

/-- The documented language of a type. -/
def Lang (val : Text) : ArgType → Prop
  | int min max => ∃ n, Denotes val n ∧ Inside min max n
  | host => Ipv4 val ∨ Ipv6 val ∨ (val.length ≤ 255 ∧ ∃ labels, labels ≠ [] ∧
      (∀ label ∈ labels, Label label) ∧ val = ['.'].intercalate labels)
  | macaddr => ∃ groups : List Text, groups.length = 6 ∧ (∀ g ∈ groups, Group g) ∧
      val = [':'].intercalate groups
  | cidr4 allow_auto => ∃ addr mask, val = addr ++ '/' :: mask ∧ Address Ipv4 allow_auto addr ∧
      Decimal mask ∧ digits 10 mask ≤ 32

/-- The value that stands for an argument. -/
def Means (val : Text) (v : Parsed) : ArgType → Prop
  | int _ _ => ∃ n, Denotes val n ∧ v = .num (.int n)
  | host | cidr4 _ => v = .text val
  | macaddr => v = .text (lc val)

end ArgType

/-- An argument is accepted if and only if it is in the language, with the value it stands for, and
refused with an error. -/
structure Exact (type : ArgType) (val : Text) (out : Outcome) : Prop where
  accepts : out.value.isSome = true ↔ type.Lang Ipv4 Ipv6 val
  value : ∀ v, out.value = some v → type.Means val v
  records : out.value = none → out.errors ≠ []

/-! ## The arguments that are parsed right -/

/-- What stands behind an optional minus. -/
def unsigned (val : Text) : Text := if val.take 1 = ['-'] then val.drop 1 else val

/-- What 64 bits keep of the number in front of a zero byte; it is 0 without digits. -/
def kept (val : Text) : ℤ :=
  if val.take 1 = ['-'] then max (-digits 10 (cstr (unsigned val))) (-2 ^ 63)
  else min (digits 10 (cstr (unsigned val))) (2 ^ 64 - 1)

/-- Six groups of two hexadecimal digits, as far as there is no zero byte. -/
def SixGroups (val : Text) : Prop :=
  (val.splitOn ':').length = 6 ∧ ∀ g ∈ val.splitOn ':', Group (cstr g)

/-- The arguments that a type parses as documented. -/
def ArgType.Clean (val : Text) : ArgType → Prop
  | int min max => (∃ c ∈ cstr (unsigned val), c.isDigit = false) ∨ Denotes val (kept val) ∨
      (¬ Inside min max (kept val) ∧ ∀ n, Denotes val n → ¬ Inside min max n)
  | host => host.Lang Ipv4 Ipv6 val
  | macaddr => SixGroups val → '\x00' ∉ val
  | cidr4 allow_auto => Address Ipv4 allow_auto (val.takeWhile (· ≠ '/')) →
      ∃ mask, val = val.takeWhile (· ≠ '/') ++ '/' :: mask ∧
        (Decimal mask ∨ (readNumber mask).le (.int 32) = false)

/-! ## Outcomes -/

section

variable {iptoarr : Text → Option (List ℕ)} {Ipv4 Ipv6 : Text → Prop} {type : ArgType}
  {name val : Text}

lemma exact_returns {v : Parsed} :
    Exact Ipv4 Ipv6 type val (returns v) ↔ type.Lang Ipv4 Ipv6 val ∧ type.Means val v := by
  constructor
  · intro h
    exact ⟨h.accepts.mp rfl, h.value v rfl⟩
  · rintro ⟨hlang, hmeans⟩
    refine ⟨iff_of_true rfl hlang, fun w hw => ?_, nofun⟩
    cases hw
    exact hmeans

lemma exact_invalid {msg : String} {args : List Text} :
    Exact Ipv4 Ipv6 type val (invalid_argument msg args) ↔ ¬ type.Lang Ipv4 Ipv6 val := by
  constructor
  · intro h hlang
    exact absurd (h.accepts.mpr hlang) (by simp [invalid_argument])
  · intro hlang
    exact ⟨iff_of_false (by simp [invalid_argument]) hlang, nofun, fun _ => by simp [invalid_argument]⟩

/-! ## Integers -/

lemma cstr_cstr (s : Text) : cstr (cstr s) = cstr s := by
  rw [cstr, cstr, List.takeWhile_takeWhile]
  simp

lemma readNumber_cstr (s : Text) : readNumber (cstr s) = readNumber s := by
  rw [readNumber, cstr_cstr, readNumber]

lemma take_one_iff {s : Text} {c : Char} : s.take 1 = [c] ↔ ∃ t, s = c :: t := by
  cases s with
  | nil => simp
  | cons d t => simp [eq_comm]

lemma readNumber_kept (h : ∀ c ∈ cstr (unsigned val), c.isDigit = true) :
    readNumber val = .int (kept val) := by
  rw [kept, ← readNumber_cstr]
  by_cases hminus : val.take 1 = ['-']
  · obtain ⟨t, rfl⟩ := take_one_iff.mp hminus
    rw [if_pos hminus]
    rw [unsigned, if_pos hminus, List.drop_one, List.tail_cons] at h ⊢
    rw [cstr, List.takeWhile_cons_of_pos (by decide), ← cstr, readNumber_minus h, negate, maxUnsigned]
    congr 1
    push_cast
    split <;> omega
  · rw [if_neg hminus]
    rw [unsigned, if_neg hminus] at h ⊢
    rw [readNumber_digits h, maxUnsigned]
    push_cast
    rfl

lemma inside_iff {min max : Option ℤ} {n : ℤ} :
    (min.all (fun m => (Number.int m).le (.int n)) && max.all (fun m => (Number.int n).le (.int m)))
      = true ↔ Inside min max n := by
  simp [Option.all_eq_true, Inside]

lemma Denotes.digits {n : ℤ} (h : Denotes val n) : ∀ c ∈ unsigned val, c.isDigit = true := by
  rcases h with ⟨⟨_, hall⟩, -⟩ | ⟨ds, rfl, ⟨_, hall⟩, -⟩
  · rw [unsigned, if_neg]
    · exact hall
    · intro hminus
      obtain ⟨t, rfl⟩ := take_one_iff.mp hminus
      exact absurd (hall '-' (by simp)) (by decide)
  · exact hall

lemma Denotes.unique {n m : ℤ} (hn : Denotes val n) (hm : Denotes val m) : n = m := by
  have hminus : ∀ ds, ¬ Decimal ('-' :: ds) := fun ds h => absurd (h.2 '-' (by simp)) (by decide)
  rcases hn with ⟨hdec, rfl⟩ | ⟨ds, rfl, -, rfl⟩
  · rcases hm with ⟨-, rfl⟩ | ⟨ds, rfl, -, -⟩
    · rfl
    · exact absurd hdec (hminus ds)
  · rcases hm with ⟨hdec, -⟩ | ⟨ds', heq, -, rfl⟩
    · exact absurd hdec (hminus ds)
    · rw [List.cons.inj heq |>.2]

lemma int_exact_iff {min max : Option ℤ} :
    Exact Ipv4 Ipv6 (.int min max) val (int min max name val) ↔
      (ArgType.int min max).Clean Ipv4 Ipv6 val := by
  rw [int, ← unsigned]
  split
  · rename_i hother
    rw [exact_invalid]
    obtain ⟨c, hc, hdigit⟩ := List.any_eq_true.mp hother
    refine iff_of_true ?_ (.inl ⟨c, hc, by simpa using hdigit⟩)
    rintro ⟨n, hn, -⟩
    have hc' := hn.digits c (List.takeWhile_sublist _ |>.subset hc)
    rw [hc'] at hdigit
    cases hdigit
  · rename_i hnone
    have hall : ∀ c ∈ cstr (unsigned val), c.isDigit = true := by simpa using hnone
    have hno : ¬ ∃ c ∈ cstr (unsigned val), c.isDigit = false := by
      rintro ⟨c, hc, hdigit⟩
      rw [hall c hc] at hdigit
      cases hdigit
    rw [readNumber_kept hall, ArgType.Clean]
    split
    · rename_i hinside
      have hkept := inside_iff.mp hinside
      rw [exact_returns]
      constructor
      · rintro ⟨-, n, hn, heq⟩
        cases heq
        exact .inr (.inl hn)
      · rintro (h | h | h)
        · exact absurd h hno
        · exact ⟨⟨_, h, hkept⟩, _, h, rfl⟩
        · exact absurd hkept h.1
    · rename_i hinside
      have hkept : ¬ Inside min max (kept val) := fun h => hinside (inside_iff.mpr h)
      have hrefused : ¬ (∃ n, Denotes val n ∧ Inside min max n) ↔
          (∃ c ∈ cstr (unsigned val), c.isDigit = false) ∨ Denotes val (kept val) ∨
            (¬ Inside min max (kept val) ∧ ∀ n, Denotes val n → ¬ Inside min max n) := by
        constructor
        · intro h
          exact .inr (.inr ⟨hkept, fun n hn hin => h ⟨n, hn, hin⟩⟩)
        · rintro (h | h | h) ⟨n, hn, hin⟩
          · exact hno h
          · exact hkept (h.unique hn ▸ hin)
          · exact h.2 n hn hin
      rw [← hrefused]
      split
      · exact exact_invalid
      · split <;> exact exact_invalid

/-! ## Addresses of the link layer -/

lemma toLower_eq_iff {c d : Char} (hd : d.isAlpha = false) : c.toLower = d ↔ c = d := by
  rw [Char.toLower]
  split
  · rename_i hupper
    have hc : c.isUpper = true := by simpa [Char.isUpper] using hupper
    constructor
    · rintro rfl
      obtain ⟨hlow, hhigh⟩ := hupper
      rw [Char.isAlpha, Bool.or_eq_false_iff] at hd
      have hlower := hd.2
      rw [UInt32.le_iff_toNat_le] at hhigh
      rw [ge_iff_le, UInt32.le_iff_toNat_le] at hlow
      simp only [Char.isLower, Bool.and_eq_false_iff, decide_eq_false_iff_not, UInt32.not_le,
        ge_iff_le, UInt32.lt_iff_toNat_lt, UInt32.toNat_add] at hlower
      change 65 ≤ _ at hlow
      change _ ≤ 90 at hhigh
      change (c.val.toNat + 32) % 2 ^ 32 < 97 ∨ 122 < (c.val.toNat + 32) % 2 ^ 32 at hlower
      omega
    · rintro rfl
      rw [Char.isAlpha, hc] at hd
      cases hd
  · rfl

lemma cstr_lc (s : Text) : cstr (lc s) = lc (cstr s) := by
  rw [cstr, lc, List.takeWhile_map, lc, cstr]
  congr 2
  funext c
  simp [toLower_eq_iff (c := c) (d := '\x00') (by decide)]

lemma matchGroup_lc {g : Text} : matchGroup (lc g) = true ↔ Group (cstr g) := by
  rw [matchGroup, cstr_lc, Group, lc]
  simp

lemma splitOn_lc (s : Text) : (lc s).splitOn ':' = (s.splitOn ':').map lc :=
  Tokens.splitOn_map fun _ => toLower_eq_iff (by decide)

lemma sixGroups_iff : SixGroups val ↔ ((lc val).splitOn ':').length = 6 ∧
    (((lc val).splitOn ':').filter (!matchGroup ·)).length = 0 := by
  rw [SixGroups, splitOn_lc, List.length_map, List.length_eq_zero_iff, List.filter_eq_nil_iff]
  simp [matchGroup_lc]

lemma notMem_group {g : Text} {c : Char} (hg : Group g) (hc : isLowerHex c.toLower = false) :
    c ∉ g := by
  intro hmem
  rw [hg.2 c hmem] at hc
  cases hc

lemma lang_macaddr_iff : ArgType.macaddr.Lang Ipv4 Ipv6 val ↔ SixGroups val ∧ '\x00' ∉ val := by
  rw [Tokens.mem_iff_splitOn (x := ':') (by decide)]
  constructor
  · rintro ⟨groups, hlen, hall, rfl⟩
    have hsplit := List.splitOn_intercalate ':' (fun g hg => notMem_group (hall g hg) (by decide))
      (List.ne_nil_of_length_pos (by omega))
    rw [SixGroups, hsplit]
    have hzero : ∀ g ∈ groups, '\x00' ∉ g := fun g hg => notMem_group (hall g hg) (by decide)
    refine ⟨⟨hlen, fun g hg => ?_⟩, fun ⟨g, hg, hmem⟩ => hzero g hg hmem⟩
    rw [cstr, List.takeWhile_eq_self_iff.mpr fun c hc => by
      simpa using ne_of_mem_of_not_mem hc (hzero g hg)]
    exact hall g hg
  · rintro ⟨⟨hlen, hall⟩, hzero⟩
    refine ⟨_, hlen, fun g hg => ?_, (List.intercalate_splitOn ':').symm⟩
    have hg' := hall g hg
    rwa [cstr, List.takeWhile_eq_self_iff.mpr fun c hc => by
      simpa using fun h : c = '\x00' => hzero ⟨g, hg, h ▸ hc⟩] at hg'

lemma macaddr_exact_iff :
    Exact Ipv4 Ipv6 .macaddr val (macaddr name val) ↔ ArgType.macaddr.Clean Ipv4 Ipv6 val := by
  rw [macaddr, ArgType.Clean]
  split
  · rename_i hnot
    have hsix : ¬ SixGroups val := by
      rw [sixGroups_iff]
      tauto
    rw [exact_invalid, lang_macaddr_iff]
    exact iff_of_true (fun h => hsix h.1) fun h => absurd h hsix
  · rename_i hsix
    rw [not_or, not_not, not_not, ← sixGroups_iff] at hsix
    rw [exact_returns, lang_macaddr_iff]
    exact ⟨fun h _ => h.1.2, fun h => ⟨⟨hsix, h hsix⟩, rfl⟩⟩

/-! ## Addresses with a mask -/

lemma splitSlash_cases (val : Text) :
    ('/' ∉ val ∧ val.takeWhile (· ≠ '/') = val ∧ splitSlash val = (val, none)) ∨
      ∃ mask, val = val.takeWhile (· ≠ '/') ++ '/' :: mask ∧
        splitSlash val = (val.takeWhile (· ≠ '/'), some mask) := by
  have happend := List.takeWhile_append_dropWhile (p := fun c => decide (c ≠ '/')) (l := val)
  rw [splitSlash]
  cases hdrop : val.dropWhile (· ≠ '/') with
  | nil =>
    have hall := List.dropWhile_eq_nil_iff.mp hdrop
    refine .inl ⟨fun hmem => ?_, List.takeWhile_eq_self_iff.mpr hall, rfl⟩
    exact absurd (hall '/' hmem) (by decide)
  | cons c rest =>
    have hc : c = '/' := by
      have hhead := List.head?_dropWhile_not (fun c => decide (c ≠ '/')) val
      rw [hdrop] at hhead
      simpa using hhead
    rw [hdrop, hc] at happend
    exact .inr ⟨rest, happend.symm, rfl⟩

lemma address_iff {allow_auto : Bool} (hrec : Recognises iptoarr Ipv4 Ipv6) {s : Text} :
    (s = "auto".toList ∧ allow_auto = true) ∨ (iptoarr s).map List.length = some 4 ↔
      Address Ipv4 allow_auto s := by
  rw [hrec.four, Address, or_comm]

lemma Address.notMem {allow_auto : Bool} (hrec : Recognises iptoarr Ipv4 Ipv6) {s : Text}
    (h : Address Ipv4 allow_auto s) : '/' ∉ s := by
  rcases h with h | ⟨rfl, -⟩
  · intro hmem
    exact absurd (hrec.dotted s h '/' hmem) (by decide)
  · decide

lemma readNumber_le {mask : Text} (h : Decimal mask) {n : ℕ} (hn : n < maxUnsigned) :
    (readNumber mask).le (.int n) = true ↔ digits 10 mask ≤ n := by
  rw [readNumber_digits h.2, Number.int_le_int]
  omega

lemma lang_cidr4_iff {allow_auto : Bool} (hrec : Recognises iptoarr Ipv4 Ipv6) :
    (ArgType.cidr4 allow_auto).Lang Ipv4 Ipv6 val ↔
      Address Ipv4 allow_auto (val.takeWhile (· ≠ '/')) ∧
        ∃ mask, val = val.takeWhile (· ≠ '/') ++ '/' :: mask ∧ Decimal mask ∧
          digits 10 mask ≤ 32 := by
  constructor
  · rintro ⟨addr, mask, rfl, haddr, hmask⟩
    rw [Tokens.takeWhile_append_stop (haddr.notMem hrec)]
    exact ⟨haddr, mask, rfl, hmask⟩
  · rintro ⟨haddr, mask, hval, hmask⟩
    exact ⟨_, mask, hval, haddr, hmask⟩

lemma exact_cidr4 {allow_auto : Bool} (hrec : Recognises iptoarr Ipv4 Ipv6) :
    Exact Ipv4 Ipv6 (.cidr4 allow_auto) val (cidr4 iptoarr allow_auto name val) ↔
      ((toNumber (splitSlash val).2).le (.int 32) = true ∧ Address Ipv4 allow_auto (splitSlash val).1 ↔
        (ArgType.cidr4 allow_auto).Lang Ipv4 Ipv6 val) := by
  rw [cidr4, ← address_iff hrec]
  split
  · rename_i hacc
    rw [exact_returns, iff_true_left hacc]
    exact and_iff_left rfl
  · rename_i hrej
    rw [exact_invalid, iff_false_left hrej]

lemma cidr4_exact_iff {allow_auto : Bool} (hrec : Recognises iptoarr Ipv4 Ipv6) :
    Exact Ipv4 Ipv6 (.cidr4 allow_auto) val (cidr4 iptoarr allow_auto name val) ↔
      (ArgType.cidr4 allow_auto).Clean Ipv4 Ipv6 val := by
  rw [exact_cidr4 hrec, lang_cidr4_iff hrec, ArgType.Clean]
  rcases splitSlash_cases val with ⟨hslash, htake, hsplit⟩ | ⟨mask, hval, hsplit⟩
  · have hnot : ∀ mask, val ≠ val ++ '/' :: mask := by
      intro mask hval
      exact hslash (hval ▸ by simp)
    have hzero : (toNumber none).le (.int 32) = true := by decide +kernel
    rw [hsplit, htake, and_iff_right hzero]
    constructor
    · intro h haddr
      obtain ⟨-, mask, hval, -⟩ := h.mp haddr
      exact absurd hval (hnot mask)
    · intro h
      refine ⟨fun haddr => ?_, And.left⟩
      obtain ⟨mask, hval, -⟩ := h haddr
      exact absurd hval (hnot mask)
  · have hmask : ∀ mask', val = val.takeWhile (· ≠ '/') ++ '/' :: mask' → mask' = mask := by
      intro mask' hval'
      have heq := hval'.symm.trans hval
      exact (List.cons.inj (List.append_cancel_left heq)).2
    rw [hsplit, show toNumber (some mask) = readNumber mask from rfl]
    constructor
    · intro h haddr
      refine ⟨mask, hval, ?_⟩
      by_cases hle : (readNumber mask).le (.int 32) = true
      · obtain ⟨-, mask', hval', hdec, -⟩ := h.mp ⟨hle, haddr⟩
        exact .inl (hmask mask' hval' ▸ hdec)
      · exact .inr (Bool.eq_false_of_not_eq_true hle)
    · intro h
      constructor
      · rintro ⟨hle, haddr⟩
        obtain ⟨mask', hval', hor⟩ := h haddr
        obtain rfl := hmask mask' hval'
        rcases hor with hdec | hno
        · exact ⟨haddr, mask', hval, hdec, (readNumber_le hdec (by decide)).mp hle⟩
        · rw [hno] at hle
          cases hle
      · rintro ⟨haddr, mask', hval', hdec, hle⟩
        obtain rfl := hmask mask' hval'
        exact ⟨(readNumber_le hdec (by decide)).mpr hle, haddr⟩

/-! ## The result -/

lemma host_eq (hrec : Recognises iptoarr Ipv4 Ipv6) : host iptoarr name val = returns (.text val) := by
  rw [host, if_pos]
  intro hzero
  obtain ⟨a, ha, hlen⟩ := Option.map_eq_some_iff.mp hzero
  have hfour := hrec.length val a ha
  omega

end

/-- A type accepts exactly its language if and only if the argument is one that it parses right. -/
theorem parse_arg_exact_iff {iptoarr : Text → Option (List ℕ)} {Ipv4 Ipv6 : Text → Prop}
    (hrec : Recognises iptoarr Ipv4 Ipv6) (type : ArgType) (name val : Text) :
    Exact Ipv4 Ipv6 type val (parse_arg iptoarr name (some type) (some val)) ↔
      type.Clean Ipv4 Ipv6 val := by
  cases type with
  | int min max => exact int_exact_iff
  | host =>
    rw [parse_arg, ArgType.parse, host_eq hrec, exact_returns]
    exact and_iff_left rfl
  | macaddr => exact macaddr_exact_iff
  | cidr4 allow_auto => exact cidr4_exact_iff hrec

/-- Four decimal numbers up to 255 with dots between them. -/
def quad (s : Text) : Option (List ℕ) :=
  let parts := s.splitOn '.'
  if parts.length = 4 ∧ ∀ part ∈ parts, part ≠ [] ∧ (∀ c ∈ part, c.isDigit = true) ∧
      digits 10 part ≤ 255 ∧ (part.head? = some '0' → part = ['0']) then
    some (parts.map (digits 10))
  else none

lemma quad_recognises : Recognises quad (fun s => (quad s).isSome = true) fun _ => False := by
  have hlength : ∀ s a, quad s = some a → a.length = 4 := by
    intro s a h
    rw [quad] at h
    split at h
    · rename_i hparts
      cases h
      rw [List.length_map, hparts.1]
    · cases h
  constructor
  case four =>
    intro s
    cases h : quad s with
    | none => simp
    | some a => simp [hlength s a h]
  case sixteen =>
    intro s
    cases h : quad s with
    | none => simp
    | some a => simp [hlength s a h]
  case length => exact fun s a h => .inl (hlength s a h)
  case dotted =>
    intro s h c hc
    by_cases hdot : c = '.'
    · exact .inr hdot
    · rw [quad] at h
      split at h
      · rename_i hparts
        obtain ⟨part, hpart, hmem⟩ := (Tokens.mem_iff_splitOn hdot).mp hc
        exact .inl ((hparts.2 part hpart).2.1 c hmem)
      · cases h

/-- A network with its mask. -/
theorem parse_arg_exact_network :
    Exact (fun s => (quad s).isSome = true) (fun _ => False) (.cidr4 false)
        "10.0.0.1/24".toList (parse_arg quad "address".toList (some (.cidr4 false))
          (some "10.0.0.1/24".toList)) ↔
      (ArgType.cidr4 false).Clean (fun s => (quad s).isSome = true) (fun _ => False)
        "10.0.0.1/24".toList :=
  parse_arg_exact_iff quad_recognises _ _ _

/-- The empty text is taken for the number 0. -/
theorem empty_is_number :
    ∃ iptoarr : Text → Option (List ℕ), ∃ Ipv4 Ipv6 : Text → Prop, Recognises iptoarr Ipv4 Ipv6 ∧
      ∃ type name val, ¬ Exact Ipv4 Ipv6 type val
        (parse_arg iptoarr name (some type) (some val)) := by
  refine ⟨quad, _, _, quad_recognises, .int none none, "channel".toList, [], fun h => ?_⟩
  obtain ⟨n, hn, -⟩ := h.accepts.mp (by decide +kernel)
  rcases hn with ⟨hdec, -⟩ | ⟨ds, hds, -⟩
  · exact hdec.1 rfl
  · cases hds

end ArgTypes
