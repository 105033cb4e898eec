import Mathlib

/-!
# Numbers and values of a scripting language

Integers of 64 bits and floating-point numbers, how a text is read as a number, and the values that
texts, numbers and lists make up.
-/

namespace Script

/-! ## Numbers -/

/-- A number: an integer, or a floating-point number, which is a rational number, infinite or not a
number. -/
inductive Number where
  | int (n : ℤ)
  | float (x : ℚ)
  | inf (neg : Bool)
  | nan
  deriving DecidableEq, Repr

namespace Number

/-- The value of a finite number. -/
def rat : Number → ℚ
  | int n => n
  | float x => x
  | _ => 0

/-- `a <= b` -/
def le : Number → Number → Bool
  | nan, _ => false
  | _, nan => false
  | inf true, _ => true
  | _, inf false => true
  | inf false, _ => false
  | _, inf true => false
  | a, b => a.rat ≤ b.rat

/-- `a < b` -/
def lt (a b : Number) : Bool := a.le b && !b.le a

/-- `a == b` -/
def eq (a b : Number) : Bool := a.le b && b.le a

def neg : Number → Number
  | int n => int (-n)
  | float x => float (-x)
  | inf b => inf !b
  | nan => nan

def truthy : Number → Bool
  | int n => n ≠ 0
  | float x => x ≠ 0
  | inf _ => true
  | nan => false

@[simp] lemma int_le_int {a b : ℤ} : (int a).le (int b) = true ↔ a ≤ b := by
  rw [show (int a).le (int b) = decide ((a : ℚ) ≤ b) from rfl, decide_eq_true_iff, Int.cast_le]

lemma eq_self (n : ℤ) : (int n).eq (int n) = true := by simp [eq]

/-- Of two numbers one is at most the other. -/
lemma le_of_not_lt {a b : Number} (ha : a ≠ nan) (hb : b ≠ nan) (h : a.lt b = false) :
    b.le a = true := by
  rw [lt, Bool.and_eq_false_iff] at h
  rcases h with h | h
  · rcases a with a | a | (_ | _) | _ <;> rcases b with b | b | (_ | _) | _ <;>
      simp_all only [le, rat, ne_eq, not_true_eq_false, reduceCtorEq, not_false_eq_true] <;>
      exact decide_eq_true (not_le.mp (of_decide_eq_false h)).le
  · simpa using h

end Number

/-! ## Reading a number -/

def isSpace (c : Char) : Bool := c = ' ' || (9 ≤ c.toNat && c.toNat ≤ 13)

/-- The value of a digit of any radix up to 36; 36 for what is no digit. -/
def digitVal (c : Char) : ℕ :=
  if '0' ≤ c ∧ c ≤ '9' then c.toNat - 48
  else if 'a' ≤ c ∧ c ≤ 'z' then c.toNat - 87
  else if 'A' ≤ c ∧ c ≤ 'Z' then c.toNat - 55
  else 36

/-- The value of digits. -/
def digits (radix : ℕ) (ds : List Char) : ℕ := ds.foldl (fun n c => radix * n + digitVal c) 0

/-- The greatest unsigned integer of 64 bits, to which greater ones are cut. -/
def maxUnsigned : ℕ := 2 ^ 64 - 1

/-- The floating-point number next to a rational number; of two that are equally near, the even
one. -/
def roundFloat (x : ℚ) : Number :=
  if x = 0 then .float 0
  else
    let unit : ℚ := 2 ^ (max (Int.log 2 |x|) (-1022) - 52)
    let n := ⌊x / unit⌋
    let rest := x / unit - n
    let m := if rest < 1 / 2 ∨ (rest = 1 / 2 ∧ n % 2 = 0) then n else n + 1
    if 2 ^ 1024 ≤ |m * unit| then .inf (x < 0) else .float (m * unit)

/-! ## Arithmetic with integers -/

namespace Number

end Number

/-! ## Texts of numbers -/

/-- Digits with a fraction or an exponent. -/
def readFloat (s : List Char) : Number :=
  let whole := s.takeWhile Char.isDigit
  let s := s.dropWhile Char.isDigit
  let (part, s) := match s with
    | '.' :: t => (t.takeWhile Char.isDigit, t.dropWhile Char.isDigit)
    | t => ([], t)
  let mantissa : ℚ := digits 10 (whole ++ part) / 10 ^ part.length
  if whole ++ part = [] then .nan
  else
    match s with
    | [] => roundFloat mantissa
    | e :: t =>
      let (down, t) := match t with
        | '-' :: t => (true, t)
        | '+' :: t => (false, t)
        | t => (false, t)
      if (e = 'e' ∨ e = 'E') ∧ t ≠ [] ∧ t.all Char.isDigit then
        if down then roundFloat (mantissa / 10 ^ digits 10 t)
        else roundFloat (mantissa * 10 ^ digits 10 t)
      else .nan

/-- Decimal digits, with a fraction or an exponent or without; no digit at all is 0. -/
def readDecimal (s : List Char) : Number :=
  match s.dropWhile Char.isDigit with
  | [] => .int (min (digits 10 s) maxUnsigned)
  | c :: _ => if c = '.' ∨ c = 'e' ∨ c = 'E' then readFloat s else .nan

/-- Digits of another radix, behind its prefix. -/
def readRadix (radix : ℕ) (ds : List Char) : Number :=
  if ds ≠ [] ∧ ds.all (digitVal · < radix) then .int (min (digits radix ds) maxUnsigned) else .nan

/-- A number without a sign. -/
def readUnsigned (s : List Char) : Number :=
  match s with
  | '0' :: c :: ds =>
    if c = 'x' ∨ c = 'X' then readRadix 16 ds
    else if c = 'o' ∨ c = 'O' then readRadix 8 ds
    else if c = 'b' ∨ c = 'B' then readRadix 2 ds
    else readDecimal s
  | _ => readDecimal s

/-- The opposite of a number that was read; integers stay in the signed range. -/
def negate : Number → Number
  | .int n => .int (if 2 ^ 63 ≤ n then -2 ^ 63 else -n)
  | n => n.neg

/-- What C sees of a text: the part in front of a zero byte. -/
def cstr (s : List Char) : List Char := s.takeWhile (· ≠ '\x00')

/-- `+s` for a text. -/
def readNumber (s : List Char) : Number :=
  match (cstr s).dropWhile isSpace with
  | '-' :: t => negate (readUnsigned t)
  | '+' :: t => readUnsigned t
  | t => readUnsigned t

/-! ## Decimal texts -/

section

variable {ds : List Char}

lemma toNat_of_isDigit {c : Char} (h : c.isDigit = true) : 48 ≤ c.toNat ∧ c.toNat ≤ 57 :=
  Char.isDigit_iff_toNat.mp h

lemma ne_of_isDigit {c d : Char} (h : c.isDigit = true) (hd : d.isDigit = false) : c ≠ d := by
  rintro rfl
  rw [h] at hd
  cases hd

lemma isSpace_of_isDigit {c : Char} (h : c.isDigit = true) : isSpace c = false := by
  have hc := toNat_of_isDigit h
  have hne := ne_of_isDigit h (d := ' ') (by decide)
  simp only [isSpace, decide_eq_false hne, Bool.false_or, Bool.and_eq_false_iff,
    decide_eq_false_iff_not]
  omega

lemma readDecimal_digits (h : ∀ c ∈ ds, c.isDigit = true) :
    readDecimal ds = .int (min (digits 10 ds) maxUnsigned) := by
  rw [readDecimal, List.dropWhile_eq_nil_iff.mpr h]

lemma readUnsigned_digits (h : ∀ c ∈ ds, c.isDigit = true) :
    readUnsigned ds = .int (min (digits 10 ds) maxUnsigned) := by
  rw [← readDecimal_digits h]
  rcases ds with - | ⟨a, - | ⟨c, ds⟩⟩
  · rfl
  · rw [readUnsigned]
    simp
  · have hc : c.isDigit = true := h c (by simp)
    have hne : ∀ d : Char, d.isDigit = false → c ≠ d := fun d hd => ne_of_isDigit hc hd
    unfold readUnsigned
    split
    · rename_i heq
      cases heq
      rw [if_neg (not_or.mpr ⟨hne _ (by decide), hne _ (by decide)⟩),
        if_neg (not_or.mpr ⟨hne _ (by decide), hne _ (by decide)⟩),
        if_neg (not_or.mpr ⟨hne _ (by decide), hne _ (by decide)⟩)]
    · rfl

lemma cstr_digits (h : ∀ c ∈ ds, c.isDigit = true) : cstr ds = ds :=
  List.takeWhile_eq_self_iff.mpr fun c hc => by
    simpa using ne_of_isDigit (h c hc) (d := '\x00') (by decide)

lemma dropSpace_digits (h : ∀ c ∈ ds, c.isDigit = true) : ds.dropWhile isSpace = ds := by
  cases ds with
  | nil => rfl
  | cons c ds =>
    exact List.dropWhile_cons_of_neg (ne_true_of_eq_false (isSpace_of_isDigit (h c (by simp))))

/-- Decimal digits are read as their value, if it fits. -/
lemma readNumber_digits (h : ∀ c ∈ ds, c.isDigit = true) :
    readNumber ds = .int (min (digits 10 ds) maxUnsigned) := by
  rw [readNumber, cstr_digits h, dropSpace_digits h, ← readUnsigned_digits h]
  split
  · exact absurd (h '-' (by simp)) (by decide)
  · exact absurd (h '+' (by simp)) (by decide)
  · rfl

lemma readNumber_minus (h : ∀ c ∈ ds, c.isDigit = true) :
    readNumber ('-' :: ds) = negate (.int (min (digits 10 ds) maxUnsigned)) := by
  have hcstr : cstr ('-' :: ds) = '-' :: ds := by
    rw [cstr, List.takeWhile_cons_of_pos (by decide), ← cstr, cstr_digits h]
  rw [readNumber, hcstr, List.dropWhile_cons_of_neg (by decide), ← readUnsigned_digits h]
  rfl

lemma digits_append (radix : ℕ) (s : List Char) (c : Char) :
    digits radix (s ++ [c]) = radix * digits radix s + digitVal c := by
  rw [digits, List.foldl_append]
  rfl

/-- The digits of a number have it as their value. -/
lemma digits_toDigits (n : ℕ) : digits 10 (Nat.toDigits 10 n) = n := by
  induction n using Nat.strong_induction_on with
  | _ n ih =>
    have hdigit : ∀ m < 10, digitVal m.digitChar = m := by decide
    rw [Nat.toDigits_eq_if (by decide)]
    split
    · rename_i hn
      simp [digits, hdigit n hn]
    · rename_i hn
      rw [digits_append, ih (n / 10) (by omega), hdigit _ (Nat.mod_lt n (by decide))]
      omega

/-- An integer of 64 bits is read back from its text. -/
lemma readNumber_toString {n : ℤ} (hmin : -2 ^ 63 ≤ n) (hmax : n ≤ maxUnsigned) :
    readNumber (toString n).toList = .int n := by
  have hall : ∀ m : ℕ, ∀ c ∈ Nat.toDigits 10 m, c.isDigit = true := fun m c hc =>
    Nat.isDigit_of_mem_toDigits (by decide) (by decide) hc
  cases n with
  | ofNat m =>
    have htext : (toString (Int.ofNat m)).toList = Nat.toDigits 10 m := Nat.toList_repr
    rw [htext, readNumber_digits (hall m), digits_toDigits]
    have hm : m ≤ maxUnsigned := Int.ofNat_le.mp hmax
    simp [hm]
  | negSucc m =>
    have htext : (toString (Int.negSucc m)).toList = '-' :: Nat.toDigits 10 (m + 1) := by
      show ("-" ++ (m + 1).repr).toList = _
      rw [String.toList_append, Nat.toList_repr]
      rfl
    rw [htext, readNumber_minus (hall (m + 1)), digits_toDigits, negate]
    have hm : (m : ℤ) + 1 ≤ 2 ^ 63 := by omega
    have hle : min ((m + 1 : ℕ) : ℤ) maxUnsigned = m + 1 := by
      rw [maxUnsigned]
      omega
    rw [hle, Number.int.injEq]
    split <;> omega

end

/-! ## Values -/

/-- A value without fields: null, a truth value, a number, a text or a list. -/
inductive Value where
  | null
  | bool (b : Bool)
  | num (n : Number)
  | str (s : String)
  | arr (l : List Value)
  deriving Repr

namespace Value

mutual

/-- Equality of values. -/
def decEq : (a b : Value) → Decidable (a = b)
  | null, null => isTrue rfl
  | bool b, bool c => decidable_of_iff (b = c) (by rw [bool.injEq])
  | num m, num n => decidable_of_iff (m = n) (by rw [num.injEq])
  | str s, str t => decidable_of_iff (s = t) (by rw [str.injEq])
  | arr l, arr m => match decEqList l m with
    | isTrue h => isTrue (by rw [h])
    | isFalse h => isFalse fun heq => h (arr.inj heq)
  | null, bool _ | null, num _ | null, str _ | null, arr _ => isFalse nofun
  | bool _, null | bool _, num _ | bool _, str _ | bool _, arr _ => isFalse nofun
  | num _, null | num _, bool _ | num _, str _ | num _, arr _ => isFalse nofun
  | str _, null | str _, bool _ | str _, num _ | str _, arr _ => isFalse nofun
  | arr _, null | arr _, bool _ | arr _, num _ | arr _, str _ => isFalse nofun

def decEqList : (l m : List Value) → Decidable (l = m)
  | [], [] => isTrue rfl
  | [], _ :: _ => isFalse nofun
  | _ :: _, [] => isFalse nofun
  | a :: l, b :: m => match decEq a b, decEqList l m with
    | isTrue ha, isTrue hl => isTrue (by rw [ha, hl])
    | isFalse ha, _ => isFalse fun heq => ha (List.cons.inj heq).1
    | _, isFalse hl => isFalse fun heq => hl (List.cons.inj heq).2

end

instance : DecidableEq Value := decEq

/-- `+value` -/
def toNumber : Value → Number
  | null => .int 0
  | bool b => .int (if b then 1 else 0)
  | num n => n
  | str s => readNumber s.toList
  | arr _ => .nan

end Value

end Script
