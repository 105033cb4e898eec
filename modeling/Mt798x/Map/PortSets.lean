import Mt798x.Map.Rule

/-!
# Port sets

The loop of `mapcalc` that prints `PORTSETS`.  A port consists of `offset` bits, `psidlen` bits of
PSID and the bits that are left; the loop runs over the values `k` of the first part and prints the
range of ports that start with `k` and the PSID.

Nothing relates `offset + psidlen` to the 16 bits of a port, so the last shift amount of the loop
may be negative.  A shift by a negative amount has no meaning in C, and `shl` gives `none` for it.
-/

namespace Map

/-! ## The loop -/

/-- `x << n` for an `int` shift amount: undefined unless `0 ≤ n < 32`. -/
def shl (x : ℕ) (n : ℤ) : Option ℕ :=
  if 0 ≤ n ∧ n < 32 then some (x <<< n.toNat) else none

/-- The range printed for `k`, or nothing if it is empty. -/
def portRange (offset psidlen psid k : ℕ) : Option (List (ℕ × ℕ)) := do
  let high ← shl k (16 - offset)
  let start := high ||| (psid >>> offset)
  let size ← shl 1 (16 - offset - psidlen)
  let stop := start + size - 1
  let start := if start = 0 then 1 else start
  return if start ≤ stop then [(start, stop)] else []

/-- The turns of the loop from `k` on, `n` of them. -/
def portLoop (offset psidlen psid k : ℕ) : ℕ → Option (List (ℕ × ℕ))
  | 0 => some []
  | n + 1 => do
    let r ← portRange offset psidlen psid k
    let rs ← portLoop offset psidlen psid (k + 1) n
    return r ++ rs

/-- The value of `k` the loop starts from. -/
def firstK (offset : ℕ) : ℕ := if offset = 0 then 0 else 1

/-- The ranges of `PORTSETS`. -/
def portSets (offset psidlen psid : ℕ) : Option (List (ℕ × ℕ)) :=
  portLoop offset psidlen psid (firstK offset) (2 ^ offset - firstK offset)

/-- A PSID of `psidlen` bits, left-justified to 16 bits. -/
def justified (psidlen p : ℕ) : ℕ := p <<< (16 - psidlen)

/-! ## The ports of a PSID -/

/-- The ports that belong to a PSID: the first bits are not all zero, unless there are none, and
the bits that follow are the PSID. -/
def InPortSet (a q p x : ℕ) : Prop :=
  1 ≤ x ∧ x ≤ 65535 ∧ x / 2 ^ (16 - a - q) % 2 ^ q = p ∧ (0 < a → x / 2 ^ (16 - a) ≠ 0)

/-- A port is in one of the printed ranges. -/
def Printed (l : List (ℕ × ℕ)) (x : ℕ) : Prop := ∃ r ∈ l, r.1 ≤ x ∧ x ≤ r.2

/-- What the printed ranges of a PSID have to be. -/
structure PortSetsOk (a q p : ℕ) (l : List (ℕ × ℕ)) : Prop where
  /-- the union -/
  ports : ∀ x, Printed l x ↔ InPortSet a q p x
  nonempty : ∀ r ∈ l, r.1 ≤ r.2
  /-- disjoint and increasing -/
  increasing : l.Pairwise fun r s => r.2 < s.1

/-- The port sets for an offset and a PSID length: for every PSID the loop does no undefined shift
and prints the ports of the PSID, and no port of another one. -/
def PortSetsSound (a q : ℕ) : Prop :=
  ∀ p < 2 ^ q, ∃ l, portSets a q (justified q p) = some l ∧ PortSetsOk a q p l ∧
    ∀ p' < 2 ^ q, p' ≠ p → ∀ l', portSets a q (justified q p') = some l' →
      ∀ x, Printed l x → ¬ Printed l' x

section Fits

variable {a q : ℕ}

/-- The first port of the range of `k`. -/
private def base (a q p k : ℕ) : ℕ := (k * 2 ^ q + p) * 2 ^ (16 - a - q)

lemma or_eq_base (h : a + q ≤ 16) {p : ℕ} (hp : p < 2 ^ q) (k : ℕ) :
    k <<< (16 - a) ||| justified q p >>> a = base a q p k := by
  have hsplit : 16 - a = q + (16 - a - q) := by omega
  have hshift : justified q p >>> a = p * 2 ^ (16 - a - q) := by
    have h16 : 16 - q = (16 - a - q) + a := by omega
    rw [justified, Nat.shiftRight_eq_div_pow, Nat.shiftLeft_eq, h16, pow_add, ← mul_assoc,
      Nat.mul_div_cancel _ (by positivity)]
  have hlt : p * 2 ^ (16 - a - q) < 2 ^ (16 - a) := by
    calc p * 2 ^ (16 - a - q) < 2 ^ q * 2 ^ (16 - a - q) := by gcongr
      _ = 2 ^ (16 - a) := by rw [← pow_add, ← hsplit]
  rw [hshift, ← Nat.shiftLeft_add_eq_or_of_lt hlt, Nat.shiftLeft_eq, base, add_mul, mul_assoc,
    ← pow_add, ← hsplit]

lemma portRange_eq (h : a + q ≤ 16) {p : ℕ} (hp : p < 2 ^ q) (k : ℕ) :
    portRange a q (justified q p) k =
      some (if max 1 (base a q p k) ≤ base a q p k + 2 ^ (16 - a - q) - 1 then
        [(max 1 (base a q p k), base a q p k + 2 ^ (16 - a - q) - 1)] else []) := by
  have h1 : shl k (16 - a) = some (k <<< (16 - a)) := by
    rw [shl, if_pos (by omega)]
    congr 2
    omega
  have h2 : shl 1 (16 - a - q) = some (2 ^ (16 - a - q)) := by
    rw [shl, if_pos (by omega), Nat.one_shiftLeft]
    congr 2
    omega
  have hmax : (if base a q p k = 0 then 1 else base a q p k) = max 1 (base a q p k) := by
    split <;> omega
  simp only [portRange, h1, h2, Option.bind_eq_bind, Option.bind_some, or_eq_base h hp, hmax]
  rfl

lemma mem_range_iff (p k x : ℕ) :
    (max 1 (base a q p k) ≤ x ∧ x ≤ base a q p k + 2 ^ (16 - a - q) - 1) ↔
      1 ≤ x ∧ x / 2 ^ (16 - a - q) = k * 2 ^ q + p := by
  have hpos : 0 < 2 ^ (16 - a - q) := by positivity
  rw [Nat.div_eq_iff hpos, base]
  omega

/-- What the turns from `k` on print. -/
structure LoopOk (a q p k n : ℕ) (l : List (ℕ × ℕ)) : Prop where
  ports : ∀ x, Printed l x ↔ 1 ≤ x ∧ ∃ j, k ≤ j ∧ j < k + n ∧ x / 2 ^ (16 - a - q) = j * 2 ^ q + p
  nonempty : ∀ r ∈ l, r.1 ≤ r.2
  above : ∀ r ∈ l, base a q p k ≤ r.1
  increasing : l.Pairwise fun r s => r.2 < s.1

lemma base_succ_ge (p k : ℕ) :
    base a q p k + 2 ^ (16 - a - q) ≤ base a q p (k + 1) := by
  have hq : 0 < 2 ^ q := by positivity
  rw [base, base]
  calc (k * 2 ^ q + p) * 2 ^ (16 - a - q) + 2 ^ (16 - a - q)
      = (k * 2 ^ q + p + 1) * 2 ^ (16 - a - q) := by ring
    _ ≤ ((k + 1) * 2 ^ q + p) * 2 ^ (16 - a - q) := by
      apply Nat.mul_le_mul_right
      rw [add_mul, one_mul]
      omega

/-- The loop, by induction on the turns that are left. -/
lemma portLoop_spec (h : a + q ≤ 16) {p : ℕ} (hp : p < 2 ^ q) :
    ∀ n k, ∃ l, portLoop a q (justified q p) k n = some l ∧ LoopOk a q p k n l := by
  intro n
  induction n with
  | zero =>
    intro k
    refine ⟨[], rfl, ?_, by simp, by simp, List.Pairwise.nil⟩
    intro x
    constructor
    · rintro ⟨r, hr, -⟩
      cases hr
    · rintro ⟨-, j, h1, h2, -⟩
      omega
  | succ n ih =>
    intro k
    obtain ⟨l, hl, hok⟩ := ih (k + 1)
    have hstep := base_succ_ge (a := a) (q := q) p k
    have hpos : 0 < 2 ^ (16 - a - q) := by positivity
    -- the ports of the turns from `k` on: those of `k`, and those behind it
    have hsplit : ∀ x, (1 ≤ x ∧ ∃ j, k ≤ j ∧ j < k + (n + 1) ∧
          x / 2 ^ (16 - a - q) = j * 2 ^ q + p) ↔
        (max 1 (base a q p k) ≤ x ∧ x ≤ base a q p k + 2 ^ (16 - a - q) - 1) ∨ Printed l x := by
      intro x
      rw [mem_range_iff, hok.ports]
      constructor
      · rintro ⟨hx, j, h1, h2, hj⟩
        rcases Nat.eq_or_lt_of_le h1 with rfl | hlt
        · exact Or.inl ⟨hx, hj⟩
        · exact Or.inr ⟨hx, j, hlt, by omega, hj⟩
      · rintro (⟨hx, hj⟩ | ⟨hx, j, h1, h2, hj⟩)
        · exact ⟨hx, k, le_rfl, by omega, hj⟩
        · exact ⟨hx, j, by omega, by omega, hj⟩
    rw [portLoop, portRange_eq h hp, hl]
    split
    · rename_i hne
      refine ⟨_, rfl, ?_, ?_, ?_, ?_⟩
      · intro x
        rw [hsplit]
        simp [Printed]
      · intro r hr
        rcases List.mem_cons.mp hr with rfl | hr
        · exact hne
        · exact hok.nonempty r hr
      · intro r hr
        rcases List.mem_cons.mp hr with rfl | hr
        · exact le_max_right _ _
        · have := hok.above r hr
          omega
      · refine List.pairwise_cons.mpr ⟨?_, hok.increasing⟩
        intro s hs
        have := hok.above s hs
        show base a q p k + 2 ^ (16 - a - q) - 1 < s.1
        omega
    · rename_i hempty
      refine ⟨l, rfl, ?_, hok.nonempty, ?_, hok.increasing⟩
      · intro x
        rw [hsplit]
        constructor
        · exact Or.inr
        · rintro (⟨h1, h2⟩ | hx)
          · exact absurd (h1.trans h2) hempty
          · exact hx
      · intro r hr
        have := hok.above r hr
        omega

/-- The bits in front of the rest of a port are its first bits and the bits that follow them. -/
lemma exists_firstK_iff (h : a + q ≤ 16) {p : ℕ} (hp : p < 2 ^ q) (x : ℕ) :
    (1 ≤ x ∧ ∃ j, firstK a ≤ j ∧ j < firstK a + (2 ^ a - firstK a) ∧
        x / 2 ^ (16 - a - q) = j * 2 ^ q + p) ↔ InPortSet a q p x := by
  have hq : 0 < 2 ^ q := by positivity
  have hk : firstK a ≤ 2 ^ a := by
    rw [firstK]
    split
    · exact Nat.zero_le _
    · exact Nat.one_le_two_pow
  have hhigh : x / 2 ^ (16 - a) = x / 2 ^ (16 - a - q) / 2 ^ q := by
    rw [Nat.div_div_eq_div_mul, ← pow_add]
    congr 2
    omega
  have hfirst : ∀ j, firstK a ≤ j ↔ (0 < a → j ≠ 0) := by
    intro j
    rw [firstK]
    split <;> omega
  have hsize : x ≤ 65535 ↔ x / 2 ^ (16 - a) < 2 ^ a := by
    rw [Nat.div_lt_iff_lt_mul (by positivity), ← pow_add]
    have h16 : a + (16 - a) = 16 := by omega
    rw [h16]
    omega
  rw [InPortSet, hsize, hhigh]
  refine and_congr_right fun _ => ?_
  constructor
  · rintro ⟨j, h1, h2, hj⟩
    have hdiv : (j * 2 ^ q + p) / 2 ^ q = j := by
      rw [mul_comm, Nat.mul_add_div hq, Nat.div_eq_of_lt hp, add_zero]
    rw [hj, hdiv]
    refine ⟨by omega, ?_, (hfirst j).mp h1⟩
    rw [mul_comm, Nat.mul_add_mod, Nat.mod_eq_of_lt hp]
  · rintro ⟨h1, hmod, h0⟩
    refine ⟨x / 2 ^ (16 - a - q) / 2 ^ q, (hfirst _).mpr h0, by omega, ?_⟩
    rw [← hmod, mul_comm]
    exact (Nat.div_add_mod _ _).symm

lemma portSets_ok (h : a + q ≤ 16) {p : ℕ} (hp : p < 2 ^ q) :
    ∃ l, portSets a q (justified q p) = some l ∧ PortSetsOk a q p l := by
  obtain ⟨l, hl, hok⟩ := portLoop_spec h hp (2 ^ a - firstK a) (firstK a)
  exact ⟨l, hl, fun x => (hok.ports x).trans (exists_firstK_iff h hp x), hok.nonempty,
    hok.increasing⟩

lemma InPortSet.unique {p p' x : ℕ} (h : InPortSet a q p x) (h' : InPortSet a q p' x) :
    p = p' := h.2.2.1.symm.trans h'.2.2.1

end Fits

lemma portSets_eq_none {a q : ℕ} (h : 16 < a + q) (psid : ℕ) : portSets a q psid = none := by
  have hturns : 2 ^ a - firstK a = (2 ^ a - firstK a - 1) + 1 := by
    have h2 : 0 < a → 2 ≤ 2 ^ a := fun ha => by
      calc 2 = 2 ^ 1 := rfl
        _ ≤ 2 ^ a := Nat.pow_le_pow_right (by decide) ha
    have h1 : 1 ≤ 2 ^ a := Nat.one_le_two_pow
    rw [firstK]
    split <;> omega
  have hshift : shl 1 (16 - a - q) = none := by
    rw [shl, if_neg (by omega)]
  rw [portSets, hturns, portLoop, portRange, hshift]
  cases shl (firstK a) (16 - a) <;> rfl

/-- The port sets are the ones of the PSIDs exactly if the offset and the PSID fit into the 16 bits
of a port. -/
theorem portSets_sound_iff (a q : ℕ) : PortSetsSound a q ↔ a + q ≤ 16 := by
  constructor
  · intro h
    by_contra hgt
    obtain ⟨l, hl, -⟩ := h 0 (by positivity)
    rw [portSets_eq_none (by omega)] at hl
    cases hl
  · intro h p hp
    obtain ⟨l, hl, hok⟩ := portSets_ok h hp
    refine ⟨l, hl, hok, ?_⟩
    intro p' hp' hne l' hl' x hx hx'
    obtain ⟨l2, hl2, hok2⟩ := portSets_ok h hp'
    rw [hl2] at hl'
    cases hl'
    exact hne (InPortSet.unique ((hok2.ports x).mp hx') ((hok.ports x).mp hx))

/-- The ranges of PSID 0 with an offset of 2 bits and a PSID of 12 bits. -/
example : portSets 2 12 (justified 12 0) =
    some [(16384, 16387), (32768, 32771), (49152, 49155)] := by
  decide

/-- An offset of 6 bits and a PSID of 12 bits are accepted, and the first turn of the loop shifts
by `-2`. -/
theorem portSets_six_twelve :
    (∃ opts r, evalRule ⟨false, -1, 0⟩ opts = some r ∧ r.offset = 6 ∧ r.psidlen = 12 ∧
      r.psid = justified 12 1) ∧
    portSets 6 12 (justified 12 1) = none ∧ ¬ PortSetsSound 6 12 := by
  have hnone : portSets 6 12 (justified 12 1) = none := by decide
  refine ⟨?_, hnone, ?_⟩
  · exact ⟨[.fmr, .num .prefix6len 0 false, .num .ealen 12 false, .num .offset 6 false,
      .num .psidlen 12 false, .num .psid 16 false], _, rfl, rfl, rfl, rfl⟩
  · intro h
    obtain ⟨l, hl, -⟩ := h 1 (by decide)
    rw [hnone] at hl
    cases hl

end Map
