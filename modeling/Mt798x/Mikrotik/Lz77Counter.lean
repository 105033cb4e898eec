import Mt798x.Mikrotik.Lz77Format

/-!
# The counters of the LZ77 format

`rb_lz77_decode_count` reads a counter just when the counter is written there by `encodeCount` and
ends within the limit.  So the strings it reads are the values of `encodeCount`, one for each
number, and none of them begins another one.

With the limit of 27 bits that all callers pass, a counter is less than 2 ^ 16, and no bit of one
is shifted by more than 30.
-/

namespace Mikrotik.Lz77

open Bytes Bits

/-! ## Numbers from their bits -/

lemma msb_congr {k x y : ℕ} (h : ∀ i < k, x.testBit i = y.testBit i) : msb k x = msb k y := by
  induction k with
  | zero => rfl
  | succ k ih => rw [msb, msb, h k (Nat.lt_succ_self k), ih fun i hi => h i (by omega)]

lemma cons_msb {k x : ℕ} (b : Bool) (hx : x < 2 ^ k) :
    b :: msb k x = msb (k + 1) (2 ^ k * b.toNat + x) := by
  have hbit := Nat.testBit_two_pow_mul_add b.toNat hx
  have hlow : msb k (2 ^ k * b.toNat + x) = msb k x :=
    msb_congr fun i hi => by rw [hbit, if_pos hi]
  rw [msb, hlow, hbit, if_neg (lt_irrefl k), Nat.sub_self]
  cases b <;> rfl

lemma msb_injective {k x y : ℕ} (hx : x < 2 ^ k) (hy : y < 2 ^ k) (h : msb k x = msb k y) :
    x = y := by
  refine Nat.eq_of_testBit_eq fun i => ?_
  by_cases hi : i < k
  · have hget := congrArg (·[k - 1 - i]?) h
    simp only [getElem?_msb _ (show k - 1 - i < k by omega), Option.some.injEq] at hget
    rwa [show k - 1 - (k - 1 - i) = i by omega] at hget
  · have hpow : 2 ^ k ≤ 2 ^ i := Nat.pow_le_pow_right (by decide) (by omega)
    rw [Nat.testBit_lt_two_pow (hx.trans_le hpow), Nat.testBit_lt_two_pow (hy.trans_le hpow)]

/-! ## The strings that are read -/

section Reading

variable {inp : List Byte} {pos left count v p : ℕ}

lemma drop_of_get_bit {b : Bool} (h : rb_lz77_get_bit inp pos = some b) :
    (bitsOf inp).drop pos = b :: (bitsOf inp).drop (pos + 1) := by
  rw [rb_lz77_get_bit_eq] at h
  obtain ⟨hlt, rfl⟩ := List.getElem?_eq_some_iff.mp h
  exact List.drop_eq_getElem_cons hlt

/-- The falling part ends behind a number of as many bits as there are shifts. -/
lemma countLoop_down_inv {k : ℕ} (h : countLoop inp left pos k false count = some (.ok (v, p))) :
    ∃ x rest, x < 2 ^ (k + 1) ∧ k + 1 ≤ left ∧
      (bitsOf inp).drop pos = msb (k + 1) x ++ rest ∧ v = count + x ∧ p = pos + (k + 1) := by
  induction left generalizing pos k count with
  | zero => cases h
  | succ left ih =>
    obtain ⟨bit, hbit, h⟩ := Option.bind_eq_some_iff.mp h
    have hcount : (if bit then count + 2 ^ k else count) = count + 2 ^ k * bit.toNat := by
      cases bit <;> simp
    simp only [Bool.false_and, Bool.false_eq_true, if_false, hcount] at h
    cases k with
    | zero =>
      simp only [if_pos, Option.some.injEq, Except.ok.injEq, Prod.mk.injEq] at h
      refine ⟨bit.toNat, (bitsOf inp).drop (pos + 1), bit.toNat_lt, by omega, ?_, by omega,
        h.2.symm⟩
      rw [drop_of_get_bit hbit]
      cases bit <;> rfl
    | succ k =>
      rw [if_neg (Nat.succ_ne_zero k), Nat.add_sub_cancel] at h
      obtain ⟨x, rest, hx, hleft, hdrop, rfl, rfl⟩ := ih h
      refine ⟨2 ^ (k + 1) * bit.toNat + x, rest, ?_, by omega, ?_, by omega, by omega⟩
      · have hle := Nat.mul_le_mul_left (2 ^ (k + 1)) (Nat.le_of_lt_succ bit.toNat_lt)
        rw [pow_succ _ (k + 1)]
        omega
      · rw [drop_of_get_bit hbit, hdrop, ← cons_msb bit hx, List.cons_append]

/-- A counter is a number of set bits, an unset one, and the rest of its value. -/
lemma countLoop_up_inv {s : ℕ} (h : countLoop inp left pos s true count = some (.ok (v, p))) :
    ∃ u x rest, x < 2 ^ (s + u) ∧ 2 * u + s + 1 ≤ left ∧
      (bitsOf inp).drop pos = List.replicate u true ++ (false :: (msb (s + u) x ++ rest)) ∧
      v + 2 ^ s = count + 2 ^ (s + u) + x ∧ p = pos + (2 * u + s + 1) := by
  induction left generalizing pos s count with
  | zero => cases h
  | succ left ih =>
    obtain ⟨bit, hbit, h⟩ := Option.bind_eq_some_iff.mp h
    cases bit with
    | true =>
      simp only [Bool.and_self, if_true] at h
      obtain ⟨u, x, rest, hx, hleft, hdrop, hv, rfl⟩ := ih h
      have hsu : s + 1 + u = s + (u + 1) := by omega
      rw [hsu] at hx hdrop hv
      rw [pow_succ] at hv
      refine ⟨u + 1, x, rest, hx, by omega, ?_, by omega, by omega⟩
      rw [drop_of_get_bit hbit, hdrop]
      rfl
    | false =>
      simp only [Bool.and_false, Bool.false_eq_true, if_false] at h
      cases s with
      | zero =>
        simp only [if_pos, Option.some.injEq, Except.ok.injEq, Prod.mk.injEq] at h
        exact ⟨0, 0, _, by simp, by omega, drop_of_get_bit hbit, by simp [h.1], h.2.symm⟩
      | succ s =>
        rw [if_neg (Nat.succ_ne_zero s), Nat.add_sub_cancel] at h
        obtain ⟨x, rest, hx, hleft, hdrop, rfl, rfl⟩ := countLoop_down_inv h
        refine ⟨0, x, rest, hx, by omega, ?_, by rw [Nat.add_zero]; omega, by omega⟩
        rw [drop_of_get_bit hbit, hdrop]
        rfl

lemma encodeCount_eq {s u x n : ℕ} (hx : x < 2 ^ (s + u)) (hn : n + 2 ^ s = 2 ^ (s + u) + x) :
    encodeCount s n = List.replicate u true ++ (false :: msb (s + u) x) := by
  have hlog : Nat.log2 (n + 2 ^ s) = s + u := by
    rw [hn, Nat.log2_eq_iff (by positivity), pow_succ]
    omega
  rw [encodeCount, hlog, Nat.add_sub_cancel_left, hn, Nat.add_sub_cancel_left]

lemma decode_count_iff {s c max_bits used : ℕ} :
    rb_lz77_decode_count inp pos s c max_bits = some (.ok (v, used)) ↔
      ∃ n rest, v = c + n ∧ used = (encodeCount s n).length ∧ used ≤ max_bits ∧
        (bitsOf inp).drop pos = encodeCount s n ++ rest := by
  constructor
  · intro h
    obtain ⟨r, hr, hmap⟩ := Option.map_eq_some_iff.mp h
    obtain ⟨⟨v', p⟩, rfl, heq⟩ := map_eq_ok_iff.mp hmap
    obtain ⟨u, x, rest, hx, hleft, hdrop, hv, rfl⟩ := countLoop_up_inv hr
    obtain ⟨rfl, rfl⟩ := Prod.mk.inj heq
    have hpow : 2 ^ s ≤ 2 ^ (s + u) := Nat.pow_le_pow_right (by decide) (by omega)
    have henc := encodeCount_eq hx (show 2 ^ (s + u) + x - 2 ^ s + 2 ^ s = 2 ^ (s + u) + x by omega)
    refine ⟨2 ^ (s + u) + x - 2 ^ s, rest, by omega, ?_, by omega, ?_⟩
    · rw [henc, List.length_append, List.length_replicate, List.length_cons, length_msb]
      omega
    · rw [hdrop, henc, List.append_assoc, List.cons_append]
  · rintro ⟨n, rest, rfl, rfl, hfits, hdrop⟩
    exact decode_count_of_drop c hdrop hfits

end Reading

/-! ## The code -/

lemma replicate_prefix {u u' : ℕ} {l l' : List Bool}
    (h : List.replicate u true ++ (false :: l) <+: List.replicate u' true ++ (false :: l')) :
    u = u' ∧ l <+: l' := by
  induction u generalizing u' with
  | zero =>
    cases u' with
    | zero => exact ⟨rfl, by simpa using h⟩
    | succ u' => simp [List.replicate_succ] at h
  | succ u ih =>
    cases u' with
    | zero => simp [List.replicate_succ] at h
    | succ u' =>
      simp only [List.replicate_succ, List.cons_append, List.cons_prefix_cons, true_and] at h
      obtain ⟨rfl, hl⟩ := ih h
      exact ⟨rfl, hl⟩

lemma encodeCount_prefix {s m n : ℕ} (h : encodeCount s m <+: encodeCount s n) : m = n := by
  obtain ⟨u, x, hx, hm, henc⟩ := encodeCount_spec s m
  obtain ⟨u', y, hy, hn, henc'⟩ := encodeCount_spec s n
  rw [henc, henc'] at h
  obtain ⟨rfl, hmsb⟩ := replicate_prefix h
  have hxy := msb_injective hx hy (hmsb.eq_of_length (by rw [length_msb, length_msb]))
  omega

lemma lt_of_length_encodeCount {s n : ℕ} (hs : s = 0 ∨ s = 4)
    (h : (encodeCount s n).length ≤ MIKRO_LZ77_MAX_COUNT_BIT_LEN) : n < 2 ^ 16 := by
  obtain ⟨u, x, hx, hn, henc⟩ := encodeCount_spec s n
  rw [henc, List.length_append, List.length_replicate, List.length_cons, length_msb,
    MIKRO_LZ77_MAX_COUNT_BIT_LEN] at h
  have hpow : 2 ^ (s + u) ≤ 2 ^ 15 := Nat.pow_le_pow_right (by decide) (by omega)
  calc n ≤ n + 2 ^ s := Nat.le_add_right n _
    _ = 2 ^ (s + u) + x := hn
    _ < 2 ^ (s + u) + 2 ^ (s + u) := Nat.add_lt_add_left hx _
    _ ≤ 2 ^ 15 + 2 ^ 15 := Nat.add_le_add hpow hpow

end Mikrotik.Lz77
