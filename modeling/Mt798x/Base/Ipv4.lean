import Mt798x.Lib.Numbers

/-!
# The functions of `ipv4.sh`

Checked decimal numbers, dotted quads and netmasks. A variable of the shell that holds a result of
its arithmetic is a number here; where a function checks such a variable again, its decimal text is
checked.
-/

namespace Ipv4

open Script

def uint_max : ℕ := 4294967295

/-! ## Decimal numbers -/

/-- `$((n))` for digits: behind a leading zero they are octal. -/
def arithmetic : List Char → Option ℕ
  | '0' :: ds => if ds.all (digitVal · < 8) then some (digits 8 ds) else none
  | ds => some (digits 10 ds)

def assert_uint32 (n : List Char) : Option ℕ :=
  if n = [] ∨ ¬ n.all Char.isDigit then none
  else if uint_max < digits 10 n then none
  else if (arithmetic n).map (Nat.toDigits 10) ≠ some n then none
  else some (digits 10 n)

/-- `assert_uint32` for a variable that holds a number. -/
def assertNat (n : ℕ) : Option ℕ := assert_uint32 (Nat.toDigits 10 n)

lemma head_toDigits {n : ℕ} (h : 0 < n) (ds : List Char) : Nat.toDigits 10 n ≠ '0' :: ds := by
  induction n using Nat.strong_induction_on generalizing ds with
  | _ n ih =>
    have hdigit : ∀ m < 10, 0 < m → m.digitChar ≠ '0' := by decide
    rw [Nat.toDigits_eq_if (by decide)]
    split
    · rename_i hn
      exact fun heq => hdigit n hn h (List.cons.inj heq).1
    · rename_i hn
      rcases hds : Nat.toDigits 10 (n / 10) with - | ⟨c, t⟩
      · exact absurd hds Nat.toDigits_ne_nil
      · intro heq
        obtain ⟨rfl, -⟩ := List.cons.inj heq
        exact ih (n / 10) (by omega) (by omega) t hds

lemma arithmetic_toDigits (n : ℕ) : arithmetic (Nat.toDigits 10 n) = some n := by
  rcases Nat.eq_zero_or_pos n with rfl | hn
  · rfl
  · unfold arithmetic
    split
    · rename_i ds heq
      exact absurd heq (head_toDigits hn ds)
    · rw [digits_toDigits]

lemma isDigit_toDigits (n : ℕ) : ∀ c ∈ Nat.toDigits 10 n, c.isDigit = true := fun _ hc =>
  Nat.isDigit_of_mem_toDigits (by decide) (by decide) hc

lemma assert_uint32_iff {s : List Char} {n : ℕ} :
    assert_uint32 s = some n ↔ n ≤ uint_max ∧ s = Nat.toDigits 10 n := by
  constructor
  · intro h
    unfold assert_uint32 at h
    split_ifs at h with hd hmax htext
    obtain rfl := Option.some.inj h
    obtain ⟨m, hm, rfl⟩ := Option.map_eq_some_iff.mp (not_not.mp htext)
    rw [digits_toDigits] at hmax ⊢
    exact ⟨not_lt.mp hmax, rfl⟩
  · rintro ⟨hmax, rfl⟩
    have hall : (Nat.toDigits 10 n).all Char.isDigit = true :=
      List.all_eq_true.mpr (isDigit_toDigits n)
    simp [assert_uint32, hall, Nat.toDigits_ne_nil, digits_toDigits, arithmetic_toDigits, hmax]

lemma assertNat_iff {n m : ℕ} : assertNat n = some m ↔ n ≤ uint_max ∧ m = n := by
  rw [assertNat, assert_uint32_iff]
  constructor
  · rintro ⟨hm, h⟩
    obtain rfl : n = m := by rw [← digits_toDigits n, h, digits_toDigits]
    exact ⟨hm, rfl⟩
  · rintro ⟨hn, rfl⟩
    exact ⟨hn, rfl⟩

lemma assertNat_of_le {n : ℕ} (h : n ≤ uint_max) : assertNat n = some n :=
  assertNat_iff.mpr ⟨h, rfl⟩

/-! ## Dotted quads -/

/-- The pattern `[lo-hi]`. -/
def inRange (lo hi c : Char) : Bool := lo.toNat ≤ c.toNat && c.toNat ≤ hi.toNat

/-- The patterns `[0-9]`, `[1-9][0-9]` and `1[0-9][0-9]|2[0-4][0-9]|25[0-5]`. -/
def isOctet : List Char → Bool
  | [a] => inRange '0' '9' a
  | [a, b] => inRange '1' '9' a && inRange '0' '9' b
  | [a, b, c] =>
    (a = '1' && inRange '0' '9' b && inRange '0' '9' c) ||
    (a = '2' && inRange '0' '4' b && inRange '0' '9' c) ||
    (a = '2' && b = '5' && inRange '0' '5' c)
  | _ => false

/-- One of the first three `case`s: the number in front of the first dot and the text behind it. -/
def octet (ip : List Char) : Option (ℕ × List Char) :=
  match ip.dropWhile (· ≠ '.') with
  | _ :: rest =>
    if isOctet (ip.takeWhile (· ≠ '.')) then some (digits 10 (ip.takeWhile (· ≠ '.')), rest)
    else none
  | [] => none

/-- The last `case`, after which no text is left. -/
def lastOctet (ip : List Char) : Option ℕ := if isOctet ip then some (digits 10 ip) else none

def str2ip (ip : List Char) : Option ℕ := do
  let (a, ip) ← octet ip
  let (b, ip) ← octet ip
  let (c, ip) ← octet ip
  let d ← lastOctet ip
  return (a <<< 24) + (b <<< 16) + (c <<< 8) + d

/-- `a.b.c.d` -/
def dotted (a b c d : ℕ) : List Char :=
  Nat.toDigits 10 a ++ '.' :: (Nat.toDigits 10 b ++ '.' ::
    (Nat.toDigits 10 c ++ '.' :: Nat.toDigits 10 d))

def ip2str (n : ℕ) : Option (List Char) :=
  (assertNat n).map fun n => dotted (n >>> 24) (n >>> 16 &&& 255) (n >>> 8 &&& 255) (n &&& 255)

lemma digitChar_of_inRange {lo hi c : Char} (h : inRange lo hi c = true) (hlo : 48 ≤ lo.toNat)
    (hhi : hi.toNat ≤ 57) : ∃ n < 10, c = Nat.digitChar n := by
  rw [inRange, Bool.and_eq_true, decide_eq_true_iff, decide_eq_true_iff] at h
  refine ⟨c.toNat - 48, by omega, Char.toNat_inj.mp ?_⟩
  rw [Nat.toNat_digitChar_of_lt_ten (by omega)]
  omega

lemma digitChar_of_isOctet {w : List Char} (h : isOctet w = true) :
    ∀ c ∈ w, ∃ n < 10, c = Nat.digitChar n := by
  have hr : ∀ {lo hi c}, inRange lo hi c = true → 48 ≤ lo.toNat → hi.toNat ≤ 57 →
      ∃ n < 10, c = Nat.digitChar n := digitChar_of_inRange
  have hall : ∀ {P : Char → Prop} {a b c : Char}, P a → P b → P c → ∀ x ∈ [a, b, c], P x := by
    intro P a b c ha hb hc
    simp [ha, hb, hc]
  unfold isOctet at h
  split at h
  · simpa using hr h (by decide) (by decide)
  · rw [Bool.and_eq_true] at h
    simpa using ⟨hr h.1 (by decide) (by decide), hr h.2 (by decide) (by decide)⟩
  · simp only [Bool.or_eq_true, Bool.and_eq_true, decide_eq_true_iff] at h
    rcases h with (⟨⟨rfl, hb⟩, hc⟩ | ⟨⟨rfl, hb⟩, hc⟩) | ⟨⟨rfl, rfl⟩, hc⟩
    · exact hall ⟨1, by decide, rfl⟩ (hr hb (by decide) (by decide)) (hr hc (by decide) (by decide))
    · exact hall ⟨2, by decide, rfl⟩ (hr hb (by decide) (by decide)) (hr hc (by decide) (by decide))
    · exact hall ⟨2, by decide, rfl⟩ ⟨5, by decide, rfl⟩ (hr hc (by decide) (by decide))
  · cases h

/-- The octets are the decimal texts of the numbers below 256. -/
lemma isOctet_iff {w : List Char} :
    isOctet w = true ↔ ∃ n < 256, w = Nat.toDigits 10 n := by
  constructor
  · intro h
    have hdigit := digitChar_of_isOctet h
    have hone : ∀ x < 10, isOctet [Nat.digitChar x] = true →
        x < 256 ∧ [Nat.digitChar x] = Nat.toDigits 10 x := by decide +kernel
    have htwo : ∀ x < 10, ∀ y < 10, isOctet [Nat.digitChar x, Nat.digitChar y] = true →
        10 * x + y < 256 ∧ [Nat.digitChar x, Nat.digitChar y] = Nat.toDigits 10 (10 * x + y) := by
      decide +kernel
    have hthree : ∀ x < 10, ∀ y < 10, ∀ z < 10,
        isOctet [Nat.digitChar x, Nat.digitChar y, Nat.digitChar z] = true →
        100 * x + 10 * y + z < 256 ∧ [Nat.digitChar x, Nat.digitChar y, Nat.digitChar z] =
          Nat.toDigits 10 (100 * x + 10 * y + z) := by decide +kernel
    rcases w with - | ⟨a, - | ⟨b, - | ⟨c, - | ⟨d, w⟩⟩⟩⟩
    · cases h
    · obtain ⟨x, hx, rfl⟩ := hdigit a (by simp)
      exact ⟨x, hone x hx h⟩
    · obtain ⟨x, hx, rfl⟩ := hdigit a (by simp)
      obtain ⟨y, hy, rfl⟩ := hdigit b (by simp)
      exact ⟨_, htwo x hx y hy h⟩
    · obtain ⟨x, hx, rfl⟩ := hdigit a (by simp)
      obtain ⟨y, hy, rfl⟩ := hdigit b (by simp)
      obtain ⟨z, hz, rfl⟩ := hdigit c (by simp)
      exact ⟨_, hthree x hx y hy z hz h⟩
    · cases h
  · have hall : ∀ n < 256, isOctet (Nat.toDigits 10 n) = true := by decide +kernel
    rintro ⟨n, hn, rfl⟩
    exact hall n hn

lemma ne_dot_of_mem_toDigits (n : ℕ) : ∀ c ∈ Nat.toDigits 10 n, decide (c ≠ '.') = true :=
  fun c hc => decide_eq_true (ne_of_isDigit (isDigit_toDigits n c hc) (by decide))

lemma octet_iff {ip t : List Char} {n : ℕ} :
    octet ip = some (n, t) ↔ n < 256 ∧ ip = Nat.toDigits 10 n ++ '.' :: t := by
  constructor
  · intro h
    unfold octet at h
    split at h
    · rename_i c rest hdrop
      split at h
      · rename_i hoctet
        obtain ⟨m, hm, hword⟩ := isOctet_iff.mp hoctet
        have hc : c = '.' := by
          have := List.head?_dropWhile_not (· ≠ '.') ip
          rw [hdrop] at this
          simpa using this
        rw [hword, digits_toDigits, Option.some.injEq, Prod.mk.injEq] at h
        obtain ⟨rfl, rfl⟩ := h
        refine ⟨hm, ?_⟩
        rw [← hword, ← hc, ← hdrop, hc, List.takeWhile_append_dropWhile]
      · cases h
    · cases h
  · rintro ⟨hn, rfl⟩
    have hdrop : (Nat.toDigits 10 n ++ '.' :: t).dropWhile (· ≠ '.') = '.' :: t := by
      rw [List.dropWhile_append_of_pos (ne_dot_of_mem_toDigits n)]
      rfl
    have htake : (Nat.toDigits 10 n ++ '.' :: t).takeWhile (· ≠ '.') = Nat.toDigits 10 n := by
      rw [List.takeWhile_append_of_pos (ne_dot_of_mem_toDigits n),
        List.takeWhile_cons_of_neg (by decide), List.append_nil]
    rw [octet, hdrop, htake]
    simp only [digits_toDigits, isOctet_iff.mpr ⟨n, hn, rfl⟩, if_true]

lemma lastOctet_iff {ip : List Char} {n : ℕ} :
    lastOctet ip = some n ↔ n < 256 ∧ ip = Nat.toDigits 10 n := by
  unfold lastOctet
  constructor
  · intro h
    split at h
    · rename_i hoctet
      obtain ⟨m, hm, rfl⟩ := isOctet_iff.mp hoctet
      rw [digits_toDigits, Option.some.injEq] at h
      exact h ▸ ⟨hm, rfl⟩
    · cases h
  · rintro ⟨hn, rfl⟩
    rw [if_pos (isOctet_iff.mpr ⟨n, hn, rfl⟩), digits_toDigits]

lemma str2ip_iff {s : List Char} {v : ℕ} :
    str2ip s = some v ↔ ∃ a b c d, a < 256 ∧ b < 256 ∧ c < 256 ∧ d < 256 ∧
      v = a * 2 ^ 24 + b * 2 ^ 16 + c * 2 ^ 8 + d ∧ s = dotted a b c d := by
  simp only [str2ip, Option.bind_eq_bind, Option.bind_eq_some_iff, Prod.exists, octet_iff,
    lastOctet_iff, Option.pure_def, Option.some.injEq, Nat.shiftLeft_eq]
  constructor
  · rintro ⟨a, _, ⟨ha, rfl⟩, b, _, ⟨hb, rfl⟩, c, _, ⟨hc, rfl⟩, d, ⟨hd, rfl⟩, rfl⟩
    exact ⟨a, b, c, d, ha, hb, hc, hd, rfl, rfl⟩
  · rintro ⟨a, b, c, d, ha, hb, hc, hd, rfl, rfl⟩
    exact ⟨a, _, ⟨ha, rfl⟩, b, _, ⟨hb, rfl⟩, c, _, ⟨hc, rfl⟩, d, ⟨hd, rfl⟩, rfl⟩

lemma ip2str_iff {v : ℕ} {s : List Char} : ip2str v = some s ↔ v ≤ uint_max ∧
    s = dotted (v / 2 ^ 24) (v / 2 ^ 16 % 256) (v / 2 ^ 8 % 256) (v % 256) := by
  have hand : ∀ x : ℕ, x &&& 255 = x % 256 := fun x => Nat.and_two_pow_sub_one_eq_mod x 8
  simp only [ip2str, Option.map_eq_some_iff, assertNat_iff, hand, Nat.shiftRight_eq_div_pow]
  constructor
  · rintro ⟨_, ⟨hv, rfl⟩, rfl⟩
    exact ⟨hv, rfl⟩
  · rintro ⟨hv, rfl⟩
    exact ⟨v, ⟨hv, rfl⟩, rfl⟩

lemma str2ip_iff_ip2str {s : List Char} {v : ℕ} : str2ip s = some v ↔ ip2str v = some s := by
  rw [str2ip_iff, ip2str_iff, uint_max]
  constructor
  · rintro ⟨a, b, c, d, ha, hb, hc, hd, rfl, rfl⟩
    refine ⟨by omega, ?_⟩
    congr 1 <;> omega
  · rintro ⟨hv, rfl⟩
    exact ⟨_, _, _, _, by omega, by omega, by omega, by omega, by omega, rfl⟩

/-! ## Netmasks -/

/-- `~x & uint_max`, with 64 bits. -/
def complement (x : ℕ) : ℕ := (~~~BitVec.ofNat 64 x &&& BitVec.ofNat 64 uint_max).toNat

def prefix2netmask (n : ℕ) : Option ℕ := do
  let n ← assertNat n
  if 32 < n then none else some (complement (uint_max >>> n))

def is_contiguous (x : ℕ) : Option Bool := do
  let x ← assertNat x
  let y := complement x
  let z := (y + 1) &&& uint_max
  return z &&& y = 0

def bitcount (c : ℕ) : Option ℕ := do
  let c ← assertNat c
  let c := (c >>> 1 &&& 0x55555555) + (c &&& 0x55555555)
  let c := (c >>> 2 &&& 0x33333333) + (c &&& 0x33333333)
  let c := (c >>> 4 &&& 0x0f0f0f0f) + (c &&& 0x0f0f0f0f)
  let c := (c >>> 8 &&& 0x00ff00ff) + (c &&& 0x00ff00ff)
  let c := (c >>> 16 &&& 0x0000ffff) + (c &&& 0x0000ffff)
  return c

def netmask2prefix (n : ℕ) : Option ℕ := do
  let n ← assertNat n
  let cont ← is_contiguous n
  if cont then bitcount n else none

/-- The mask whose first `p` bits are set. -/
def maskOf (p : ℕ) : ℕ := 2 ^ 32 - 2 ^ (32 - p)

lemma complement_eq {x : ℕ} (h : x ≤ uint_max) : complement x = uint_max - x := by
  have hmax : uint_max = 2 ^ 32 - 1 := rfl
  rw [complement, BitVec.toNat_and, BitVec.toNat_not, BitVec.toNat_ofNat, BitVec.toNat_ofNat,
    Nat.mod_eq_of_lt (b := 2 ^ 64) (by omega), Nat.mod_eq_of_lt (b := 2 ^ 64) (by omega), hmax,
    Nat.and_two_pow_sub_one_eq_mod]
  omega

lemma maskOf_le (p : ℕ) : maskOf p ≤ uint_max := by
  have := Nat.two_pow_pos (32 - p)
  rw [maskOf, uint_max]
  omega

lemma prefix2netmask_iff {p m : ℕ} : prefix2netmask p = some m ↔ p ≤ 32 ∧ m = maskOf p := by
  have hmask : ∀ p ≤ 32, complement (uint_max >>> p) = maskOf p := by decide +kernel
  simp only [prefix2netmask, Option.bind_eq_bind, Option.bind_eq_some_iff, assertNat_iff]
  constructor
  · rintro ⟨_, ⟨-, rfl⟩, h⟩
    split_ifs at h with hp
    exact ⟨not_lt.mp hp, by rw [← Option.some.inj h, hmask _ (not_lt.mp hp)]⟩
  · rintro ⟨hp, rfl⟩
    exact ⟨p, ⟨hp.trans (by decide), rfl⟩, by rw [if_neg (not_lt.mpr hp), hmask p hp]⟩

/-- The complement of a contiguous mask is one less than a power of two. -/
lemma is_contiguous_iff {x : ℕ} : is_contiguous x = some true ↔ ∃ p ≤ 32, x = maskOf p := by
  have hmasks : ∀ p ≤ 32, is_contiguous (maskOf p) = some true := by decide +kernel
  constructor
  · intro h
    simp only [is_contiguous, Option.bind_eq_bind, Option.bind_eq_some_iff, assertNat_iff,
      Option.pure_def, Option.some.injEq, decide_eq_true_iff] at h
    obtain ⟨x, ⟨hx, rfl⟩, h⟩ := h
    rw [complement_eq hx, show uint_max = 2 ^ 32 - 1 from rfl,
      Nat.and_two_pow_sub_one_eq_mod] at h
    rw [uint_max] at hx
    by_cases h0 : x = 0
    · exact ⟨0, by decide, h0⟩
    · rw [Nat.mod_eq_of_lt (by omega)] at h
      obtain ⟨k, hk⟩ := (Nat.and_sub_one_eq_zero_iff_isPowerOfTwo
        (n := 2 ^ 32 - 1 - x + 1) (by omega)).mp h
      have hk32 : k < 32 := (Nat.pow_lt_pow_iff_right (a := 2) (by decide)).mp (by omega)
      refine ⟨32 - k, Nat.sub_le _ _, ?_⟩
      rw [maskOf, Nat.sub_sub_self hk32.le]
      omega
  · rintro ⟨p, hp, rfl⟩
    exact hmasks p hp

/-- `netmask2prefix` accepts the contiguous masks, and is the inverse of `prefix2netmask`. -/
lemma netmask2prefix_iff {m p : ℕ} : netmask2prefix m = some p ↔ p ≤ 32 ∧ m = maskOf p := by
  have hcount : ∀ p ≤ 32, bitcount (maskOf p) = some p := by decide +kernel
  have hsome : ∀ p ≤ 32, netmask2prefix (maskOf p) = some p := by
    intro p hp
    simp [ netmask2prefix, assertNat_of_le (maskOf_le p), is_contiguous_iff.mpr ⟨p, hp, rfl⟩,
      hcount p hp]
  constructor
  · intro h
    have hcont : is_contiguous m = some true := by
      simp only [ netmask2prefix, Option.bind_eq_bind, Option.bind_eq_some_iff, assertNat_iff] at h
      obtain ⟨_, ⟨-, rfl⟩, cont, hcont, h⟩ := h
      cases cont
      · cases h
      · exact hcont
    obtain ⟨q, hq, rfl⟩ := is_contiguous_iff.mp hcont
    rw [hsome q hq, Option.some.injEq] at h
    exact h ▸ ⟨hq, rfl⟩
  · rintro ⟨hp, rfl⟩
    exact hsome p hp

end Ipv4
