import Mathlib

/-!
# Packed tables of two-bit fields

A table of two-bit values stored sixteen to a 32-bit word.  `get` and `set` are the shift and
mask operations on the packed words; the lemmas say that they behave like reading and writing
one cell of an array.  `count` is the number of cells that hold a given value, and
`count_set_lt` is the measure argument for programs that overwrite such cells.
-/

namespace TwoBit

/-! ## One word -/

/-- Field `k` of a word. -/
def field (w : UInt32) (k : ℕ) : UInt32 := (w >>> UInt32.ofNat (k * 2)) &&& 3

/-- The word with field `k` replaced by the two low bits of `v`. -/
def put (w : UInt32) (k : ℕ) (v : UInt32) : UInt32 :=
  (w &&& ~~~(3 <<< UInt32.ofNat (k * 2))) ||| ((v &&& 3) <<< UInt32.ofNat (k * 2))

lemma shift_toNat {k : ℕ} (hk : k < 16) :
    ((UInt32.ofNat (k * 2)).toBitVec % 32).toNat = k * 2 := by
  simp only [UInt32.toBitVec_ofNat', BitVec.toNat_umod, BitVec.toNat_ofNat, Nat.reducePow,
    BitVec.ofNat_eq_ofNat, Nat.reduceMod]
  omega

lemma field_toBitVec (w : UInt32) {k : ℕ} (hk : k < 16) :
    (field w k).toBitVec = (w.toBitVec >>> (k * 2)) &&& 3#32 := by
  simp only [field, UInt32.toBitVec_and, UInt32.toBitVec_shiftRight, BitVec.ushiftRight_eq',
    shift_toNat hk]
  rfl

lemma put_toBitVec (w v : UInt32) {k : ℕ} (hk : k < 16) :
    (put w k v).toBitVec =
      (w.toBitVec &&& ~~~(3#32 <<< (k * 2))) ||| ((v.toBitVec &&& 3#32) <<< (k * 2)) := by
  simp only [put, UInt32.toBitVec_or, UInt32.toBitVec_and, UInt32.toBitVec_not,
    UInt32.toBitVec_shiftLeft, BitVec.shiftLeft_eq', shift_toNat hk]
  rfl

lemma getLsbD_three (i : ℕ) : (3#32).getLsbD i = decide (i < 2) := by
  rcases i with _ | _ | i
  · rfl
  · rfl
  · have hpow : 2 ^ 2 ≤ 2 ^ (i + 2) := Nat.pow_le_pow_right (by decide) (by omega)
    have hbit : Nat.testBit 3 (i + 2) = false := Nat.testBit_eq_false_of_lt (by omega)
    simp [BitVec.getLsbD, hbit]

lemma field_put_self (w v : UInt32) {k : ℕ} (hk : k < 16) : field (put w k v) k = v &&& 3 := by
  apply UInt32.toBitVec_inj.mp
  rw [field_toBitVec _ hk, put_toBitVec _ _ hk, UInt32.toBitVec_and,
    show UInt32.toBitVec 3 = 3#32 from rfl]
  apply BitVec.eq_of_getLsbD_eq
  intro i hi
  simp only [BitVec.getLsbD_and, BitVec.getLsbD_ushiftRight, BitVec.getLsbD_or,
    BitVec.getLsbD_not, BitVec.getLsbD_shiftLeft, getLsbD_three]
  by_cases h2 : i < 2
  · have h1 : k * 2 + i < 32 := by omega
    simp [h2, h1]
  · simp [h2]

lemma field_put_ne (w v : UInt32) {k j : ℕ} (hk : k < 16) (hj : j < 16) (hne : j ≠ k) :
    field (put w k v) j = field w j := by
  apply UInt32.toBitVec_inj.mp
  rw [field_toBitVec _ hj, put_toBitVec _ _ hk, field_toBitVec _ hj]
  apply BitVec.eq_of_getLsbD_eq
  intro i hi
  simp only [BitVec.getLsbD_and, BitVec.getLsbD_ushiftRight, BitVec.getLsbD_or,
    BitVec.getLsbD_not, BitVec.getLsbD_shiftLeft, getLsbD_three]
  by_cases h2 : i < 2
  · have h1 : j * 2 + i < 32 := by omega
    by_cases h3 : j * 2 + i < k * 2
    · simp [h2, h1, h3]
    · have h4 : ¬ j * 2 + i - k * 2 < 2 := by omega
      simp [h2, h1, h3, h4]
  · simp [h2]

/-- Replacing a field by its own value changes nothing. -/
lemma put_field_self (w v : UInt32) {k : ℕ} (hk : k < 16) (h : field w k = v &&& 3) :
    put w k v = w := by
  have h' : w.toBitVec >>> (k * 2) &&& 3#32 = v.toBitVec &&& 3#32 := by
    rw [← field_toBitVec w hk, h, UInt32.toBitVec_and]
    rfl
  apply UInt32.toBitVec_inj.mp
  rw [put_toBitVec _ _ hk, ← h']
  apply BitVec.eq_of_getLsbD_eq
  intro i hi
  simp only [BitVec.getLsbD_or, BitVec.getLsbD_and, BitVec.getLsbD_not, BitVec.getLsbD_shiftLeft,
    BitVec.getLsbD_ushiftRight, getLsbD_three]
  by_cases h1 : i < k * 2
  · simp [h1, hi]
  · have h2 : k * 2 + (i - k * 2) = i := by omega
    by_cases h3 : i - k * 2 < 2
    · simp [h1, hi, h2, h3]
    · simp [h1, hi, h2, h3]

/-! ## Tables -/

/-- The cell `i` of a packed table; a cell outside the table reads as 0. -/
def get (ws : List UInt32) (i : ℕ) : UInt32 := field (ws.getD (i / 16) 0) (i % 16)

/-- The table with cell `i` set to the two low bits of `v`. -/
def set (ws : List UInt32) (i : ℕ) (v : UInt32) : List UInt32 :=
  ws.set (i / 16) (put (ws.getD (i / 16) 0) (i % 16) v)

@[simp] lemma length_set (ws : List UInt32) (i : ℕ) (v : UInt32) :
    (set ws i v).length = ws.length := by
  simp [set]

lemma get_eq_zero_of_le {ws : List UInt32} {i : ℕ} (h : ws.length ≤ i / 16) : get ws i = 0 := by
  have hw : ws.getD (i / 16) 0 = 0 := List.getD_eq_default _ _ h
  apply UInt32.toBitVec_inj.mp
  rw [get, hw, field_toBitVec _ (Nat.mod_lt _ (by decide))]
  simp

lemma get_set_self {ws : List UInt32} {i : ℕ} (v : UInt32) (h : i / 16 < ws.length) :
    get (set ws i v) i = v &&& 3 := by
  have hw : (set ws i v).getD (i / 16) 0 = put (ws.getD (i / 16) 0) (i % 16) v := by
    simp [set, List.getD_eq_getElem?_getD, h]
  rw [get, hw, field_put_self _ _ (Nat.mod_lt _ (by decide))]

lemma get_set_ne {ws : List UInt32} {i j : ℕ} (v : UInt32) (hne : j ≠ i) :
    get (set ws i v) j = get ws j := by
  by_cases hu : j / 16 = i / 16
  · -- the two cells share a word
    by_cases hlen : i / 16 < ws.length
    · have hw : (set ws i v).getD (j / 16) 0 = put (ws.getD (i / 16) 0) (i % 16) v := by
        simp [set, List.getD_eq_getElem?_getD, hlen, hu]
      rw [get, get, hw, hu, field_put_ne _ _ (Nat.mod_lt _ (by decide))
        (Nat.mod_lt _ (by decide)) (by omega)]
    · rw [get_eq_zero_of_le (by rw [length_set]; omega), get_eq_zero_of_le (by omega)]
  · have hw : (set ws i v).getD (j / 16) 0 = ws.getD (j / 16) 0 := by
      simp [set, List.getD_eq_getElem?_getD, Ne.symm hu]
    rw [get, get, hw]

/-- Writing the value a cell has changes nothing. -/
lemma set_get_self {ws : List UInt32} {i : ℕ} {v : UInt32} (h : get ws i = v &&& 3) :
    set ws i v = ws := by
  rw [set, put_field_self _ _ (Nat.mod_lt _ (by decide)) h]
  by_cases hlen : i / 16 < ws.length
  · rw [List.getD_eq_getElem _ _ hlen, List.set_getElem_self]
  · exact List.set_eq_of_length_le (by omega)

/-! ## Counting cells -/

/-- The number of cells of a table that hold `v`. -/
def count (v : UInt32) (ws : List UInt32) : ℕ :=
  (List.range (16 * ws.length)).countP fun i => get ws i == v

/-- A predicate that loses an element of a list and gains none is counted less often. -/
lemma countP_lt_of_imp {l : List ℕ} {p q : ℕ → Bool} (himp : ∀ x ∈ l, p x → q x) {a : ℕ}
    (ha : a ∈ l) (hq : q a) (hp : p a = false) : l.countP p < l.countP q := by
  induction l with
  | nil => simp at ha
  | cons x l ih =>
    have hmono : l.countP p ≤ l.countP q :=
      List.countP_mono_left fun y hy => himp y (List.mem_cons_of_mem _ hy)
    rw [List.countP_cons, List.countP_cons]
    rcases List.mem_cons.mp ha with rfl | ha'
    · rw [hq, hp]
      simp only [if_true, Bool.false_eq_true, if_false]
      omega
    · have hlt := ih (fun y hy => himp y (List.mem_cons_of_mem _ hy)) ha'
      have hx := himp x List.mem_cons_self
      cases hpx : p x with
      | false =>
        simp only [Bool.false_eq_true, if_false]
        omega
      | true =>
        rw [hx hpx]
        omega

/-- Overwriting a cell that holds `v` with another value lowers the count of `v`. -/
lemma count_set_lt {ws : List UInt32} {i : ℕ} {v u : UInt32} (h : get ws i = v)
    (hlen : i / 16 < ws.length) (hu : u &&& 3 ≠ v) : count v (set ws i u) < count v ws := by
  rw [count, count, length_set]
  refine countP_lt_of_imp (fun x _ hx => ?_) (a := i) (List.mem_range.mpr (by omega)) ?_ ?_
  · by_cases hxi : x = i
    · subst hxi
      rw [get_set_self _ hlen] at hx
      exact absurd (by simpa using hx) hu
    · rwa [get_set_ne _ hxi] at hx
  · simpa using h
  · rw [get_set_self _ hlen]
    simpa using hu

end TwoBit
