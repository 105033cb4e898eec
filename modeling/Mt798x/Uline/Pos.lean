import Mathlib

/-!
# Positions on the screen

`struct pos` of `uline.c` holds a column and a row in 16 bits each.  `pos_add_ofs` moves a position
by a number of columns, with one wrap at the end of the row, and the sum of the two columns is put
into 16 bits before it is compared with the width.

A position stands for the offset `x + y * cols`.  The step is exact for every width of up to
16384 columns, and for the widths whose 16 bits are those of 32768 (`posAddOfs_exact`).
-/

namespace Uline

/-- A conversion to `int16_t`. -/
def int16 (n : ℤ) : ℤ := (n + 2 ^ 15) % 2 ^ 16 - 2 ^ 15

/-- `struct pos` -/
@[ext]
structure Pos where
  x : ℤ
  y : ℤ
  deriving DecidableEq, Repr

/-- `pos_convert` -/
def pos_convert (cols offset : ℕ) : Pos :=
  let y := int16 ((offset / cols : ℕ) : ℤ)
  ⟨int16 (offset - y * cols), y⟩

/-- `pos_add` -/
def pos_add (cols : ℕ) (pos add : Pos) : Pos :=
  let pos : Pos := ⟨int16 (pos.x + add.x), int16 (pos.y + add.y)⟩
  let pos : Pos :=
    if int16 cols ≤ pos.x then ⟨int16 (pos.x - cols), int16 (pos.y + 1)⟩ else pos
  let pos : Pos := if pos.x < 0 then ⟨int16 (pos.x + cols), int16 (pos.y - 1)⟩ else pos
  if pos.y < 0 then ⟨pos.x, 0⟩ else pos

/-- `pos_add_ofs` -/
def pos_add_ofs (cols : ℕ) (pos : Pos) (offset : ℕ) : Pos :=
  pos_add cols pos (pos_convert cols offset)

/-- `pos_add_newline` -/
def pos_add_newline (pos : Pos) : Pos := ⟨0, int16 (pos.y + 1)⟩

/-! ## Exact positions -/

namespace Pos

/-- A position on a screen of some width. -/
structure On (cols : ℕ) (p : Pos) : Prop where
  x : 0 ≤ p.x ∧ p.x < cols
  y : 0 ≤ p.y

/-- The values of a position fit 16 bits. -/
structure Fits (p : Pos) : Prop where
  x : p.x < 2 ^ 15
  y : p.y < 2 ^ 15

/-- The offset that a position stands for. -/
def offset (cols : ℕ) (p : Pos) : ℤ := p.x + p.y * cols

/-- The position of an offset behind another one. -/
def advance (cols : ℕ) (p : Pos) (n : ℕ) : Pos := ⟨(p.x + n) % cols, p.y + (p.x + n) / cols⟩

/-- The start of the next row. -/
def newline (p : Pos) : Pos := ⟨0, p.y + 1⟩

end Pos

/-- The widths for which the step is exact. -/
def ExactWidth (cols : ℕ) : Prop := cols ≤ 16384 ∨ cols % 2 ^ 16 = 2 ^ 15

instance (cols : ℕ) : Decidable (ExactWidth cols) :=
  inferInstanceAs (Decidable (_ ∨ _))

variable {cols : ℕ} {p : Pos}

lemma int16_of_fits {n : ℤ} (h : -2 ^ 15 ≤ n ∧ n < 2 ^ 15) : int16 n = n := by
  rw [int16]
  omega

lemma int16_congr {m n : ℤ} (h : (m - n) % 2 ^ 16 = 0) : int16 m = int16 n := by
  rw [int16, int16]
  omega

namespace Pos

lemma offset_advance (cols : ℕ) (p : Pos) (n : ℕ) :
    (p.advance cols n).offset cols = p.offset cols + n := by
  have hdiv := Int.emod_add_mul_ediv (p.x + n) cols
  rw [offset, offset, advance]
  dsimp only
  rw [Int.add_mul]
  linarith

lemma On.advance (hcols : 0 < cols) (h : p.On cols) (n : ℕ) : (p.advance cols n).On cols := by
  have hpos : (0 : ℤ) < cols := by exact_mod_cast hcols
  refine ⟨⟨Int.emod_nonneg _ hpos.ne', Int.emod_lt_of_pos _ hpos⟩, ?_⟩
  have hnn := h.x.1
  exact Int.add_nonneg h.y (Int.ediv_nonneg (by omega) hpos.le)

lemma On.newline (hcols : 0 < cols) (h : p.On cols) : p.newline.On cols :=
  ⟨⟨le_rfl, (Int.natCast_pos.mpr hcols : (0 : ℤ) < cols)⟩, Int.add_nonneg h.y (by decide)⟩

lemma advance_advance (hcols : 0 < cols) (p : Pos) (m n : ℕ) :
    (p.advance cols m).advance cols n = p.advance cols (m + n) := by
  have hpos : (cols : ℤ) ≠ 0 := by exact_mod_cast hcols.ne'
  have hsum : p.x + ((m + n : ℕ) : ℤ) = p.x + m + n := by
    push_cast
    omega
  ext
  · rw [advance, advance, advance, hsum]
    exact Int.emod_add_emod _ _ _
  · have hdiv := Int.emod_add_mul_ediv (p.x + m) cols
    have hsplit : p.x + m + n = ((p.x + m) % cols + n) + cols * ((p.x + m) / cols) := by
      linarith
    rw [advance, advance, advance, hsum]
    dsimp only
    rw [hsplit, Int.add_mul_ediv_left _ _ hpos]
    omega

lemma advance_eq (hcols : 0 < cols) (h : p.On cols) (n : ℕ) : p.advance cols n =
    if p.x + (n % cols : ℕ) < cols then ⟨p.x + (n % cols : ℕ), p.y + (n / cols : ℕ)⟩
    else ⟨p.x + (n % cols : ℕ) - cols, p.y + (n / cols : ℕ) + 1⟩ := by
  have hpos : (0 : ℤ) < cols := by exact_mod_cast hcols
  have hr : ((n % cols : ℕ) : ℤ) < cols := by exact_mod_cast Nat.mod_lt n hcols
  have hr0 : (0 : ℤ) ≤ (n % cols : ℕ) := Int.natCast_nonneg _
  have hn : (n : ℤ) = (n % cols : ℕ) + cols * (n / cols : ℕ) := by
    exact_mod_cast (Nat.mod_add_div n cols).symm
  obtain ⟨h0, hlt⟩ := h.x
  generalize ((n % cols : ℕ) : ℤ) = r at hr hr0 hn ⊢
  generalize ((n / cols : ℕ) : ℤ) = q at hn ⊢
  have hsum : p.x + n = p.x + r + cols * q := by rw [hn, Int.add_assoc]
  rw [advance, hsum, Int.add_mul_emod_self_left, Int.add_mul_ediv_left _ _ hpos.ne']
  split
  · rename_i hrow
    rw [Int.emod_eq_of_lt (by omega) hrow, Int.ediv_eq_zero_of_lt (by omega) hrow, Int.zero_add]
  · rename_i hrow
    have hmod : (p.x + r) % cols = p.x + r - cols := by
      rw [← Int.sub_emod_right, Int.emod_eq_of_lt (by omega) (by omega)]
    have hdiv : (p.x + r) / cols = 1 := by
      rw [Int.ediv_eq_iff_of_pos hpos]
      omega
    rw [hmod, hdiv, Int.add_comm 1 q, ← Int.add_assoc]

end Pos

lemma pos_convert_eq (n : ℕ) (h : ((n / cols : ℕ) : ℤ) < 2 ^ 15) :
    pos_convert cols n = ⟨int16 (n % cols : ℕ), (n / cols : ℕ)⟩ := by
  have hn : (n : ℤ) = (n % cols : ℕ) + cols * (n / cols : ℕ) := by
    exact_mod_cast (Nat.mod_add_div n cols).symm
  have hq0 : (0 : ℤ) ≤ (n / cols : ℕ) := Int.natCast_nonneg _
  generalize hq : ((n / cols : ℕ) : ℤ) = q at h hn hq0
  rw [pos_convert, hq, int16_of_fits ⟨by omega, h⟩, hn, Int.mul_comm, Int.add_sub_cancel]

section Exits

variable {x y a b : ℤ}

lemma pos_add_keep (hlt : int16 (x + a) < int16 cols) (h0 : 0 ≤ int16 (x + a))
    (hy : 0 ≤ int16 (y + b)) :
    pos_add cols ⟨x, y⟩ ⟨a, b⟩ = ⟨int16 (x + a), int16 (y + b)⟩ := by
  rw [pos_add]
  dsimp only
  rw [if_neg (not_le.mpr hlt), if_neg (not_lt.mpr h0)]
  exact if_neg (not_lt.mpr hy)

lemma pos_add_wrap (hge : int16 cols ≤ int16 (x + a)) (h0 : 0 ≤ int16 (int16 (x + a) - cols))
    (hy : 0 ≤ int16 (int16 (y + b) + 1)) :
    pos_add cols ⟨x, y⟩ ⟨a, b⟩ = ⟨int16 (int16 (x + a) - cols), int16 (int16 (y + b) + 1)⟩ := by
  rw [pos_add]
  dsimp only
  rw [if_pos hge, if_neg (not_lt.mpr h0)]
  exact if_neg (not_lt.mpr hy)

lemma pos_add_both (hge : int16 cols ≤ int16 (x + a)) (hneg : int16 (int16 (x + a) - cols) < 0)
    (hy : 0 ≤ int16 (int16 (int16 (y + b) + 1) - 1)) : pos_add cols ⟨x, y⟩ ⟨a, b⟩ =
      ⟨int16 (int16 (int16 (x + a) - cols) + cols), int16 (int16 (int16 (y + b) + 1) - 1)⟩ := by
  rw [pos_add]
  dsimp only
  rw [if_pos hge, if_pos hneg]
  exact if_neg (not_lt.mpr hy)

lemma pos_add_back (hlt : int16 (x + a) < int16 cols) (hneg : int16 (x + a) < 0) :
    (pos_add cols ⟨x, y⟩ ⟨a, b⟩).y = max 0 (int16 (int16 (y + b) - 1)) := by
  rw [pos_add]
  dsimp only
  rw [if_neg (not_le.mpr hlt), if_pos hneg]
  dsimp only
  split
  · rename_i hy
    exact (max_eq_left hy.le).symm
  · rename_i hy
    exact (max_eq_right (not_lt.mp hy)).symm

end Exits

/-- For an exact width the step gives the position of the sum, if its values fit. -/
lemma posAddOfs_exact (hw : ExactWidth cols) (hcols : 0 < cols) (h : p.On cols) (hp : p.Fits)
    {n : ℕ} (hfit : (p.advance cols n).Fits) : pos_add_ofs cols p n = p.advance cols n := by
  have hr : ((n % cols : ℕ) : ℤ) < cols := by exact_mod_cast Nat.mod_lt n hcols
  have hr0 : (0 : ℤ) ≤ (n % cols : ℕ) := Int.natCast_nonneg _
  have hq0 : (0 : ℤ) ≤ (n / cols : ℕ) := Int.natCast_nonneg _
  rw [Pos.advance_eq hcols h] at hfit ⊢
  obtain ⟨⟨h0, hlt⟩, hy⟩ := h
  obtain ⟨hpx, hpy⟩ := hp
  -- the values of the sum, on the same row or with one wrap
  have hrange : p.x + (n % cols : ℕ) < cols ∧ p.x + (n % cols : ℕ) < 2 ^ 15 ∧
        p.y + (n / cols : ℕ) < 2 ^ 15 ∨
      cols ≤ p.x + (n % cols : ℕ) ∧ p.x + (n % cols : ℕ) - cols < 2 ^ 15 ∧
        p.y + (n / cols : ℕ) + 1 < 2 ^ 15 := by
    split at hfit
    · rename_i hrow
      exact .inl ⟨hrow, hfit.x, hfit.y⟩
    · rename_i hrow
      exact .inr ⟨not_lt.mp hrow, hfit.x, hfit.y⟩
  rw [pos_add_ofs, pos_convert_eq n (by omega)]
  clear hfit
  generalize ((n % cols : ℕ) : ℤ) = r at *
  generalize ((n / cols : ℕ) : ℤ) = q at *
  have hsum : int16 (p.x + int16 r) = int16 (p.x + r) := int16_congr (by rw [int16]; omega)
  have hrow : int16 (p.y + q) = p.y + q := int16_of_fits (by omega)
  obtain ⟨x, y⟩ := p
  dsimp only at *
  rcases hw with hnarrow | hwide
  · -- the sum of the columns fits
    have hcol : int16 cols = cols := int16_of_fits (by omega)
    have hx : int16 (x + r) = x + r := int16_of_fits (by omega)
    rcases hrange with ⟨hlt', -, -⟩ | ⟨hle, -, hy1⟩
    · rw [if_pos hlt', pos_add_keep (by omega) (by omega) (by omega), hsum, hx, hrow]
    · have hcols' : int16 (x + r - cols) = x + r - cols := int16_of_fits (by omega)
      have hrow' : int16 (y + q + 1) = y + q + 1 := int16_of_fits (by omega)
      rw [if_neg (not_lt.mpr hle), pos_add_wrap (by rw [hsum]; omega)
        (by rw [hsum, hx]; omega) (by rw [hrow]; omega), hsum, hx, hrow, hcols', hrow']
  · -- every column is at least the width, which is -2 ^ 15
    have hcol : int16 cols = -2 ^ 15 := by
      rw [int16]
      omega
    have hge : int16 cols ≤ int16 (x + int16 r) := by
      rw [hcol, int16]
      omega
    rcases hrange with ⟨hlt', hx, hy1⟩ | ⟨hle, hx, hy1⟩
    · have hforth : int16 (int16 (x + r) - cols) < 0 := by
        rw [int16, int16]
        omega
      have hback : int16 (int16 (int16 (x + r) - cols) + cols) = x + r := by
        rw [int16, int16, int16]
        omega
      have hrow' : int16 (int16 (y + q + 1) - 1) = y + q := by
        rw [int16, int16]
        omega
      rw [if_pos hlt', pos_add_both hge (by rwa [hsum]) (by rw [hrow]; omega), hsum, hrow, hback,
        hrow']
    · have hforth : int16 (int16 (x + r) - cols) = x + r - cols := by
        rw [int16, int16]
        omega
      have hrow' : int16 (y + q + 1) = y + q + 1 := int16_of_fits (by omega)
      rw [if_neg (not_lt.mpr hle), pos_add_wrap hge (by rw [hsum]; omega) (by rw [hrow]; omega),
        hsum, hrow, hforth, hrow']

/-! ## The other widths -/

/-- Two steps that do not end where one step for both ends, although all values fit. -/
structure Diverges (cols : ℕ) (p : Pos) (m n : ℕ) : Prop where
  pos : 0 < m ∧ 0 < n
  on : p.On cols
  fits : p.Fits
  mid : (p.advance cols m).Fits
  sum : (p.advance cols (m + n)).Fits
  differ : pos_add_ofs cols (pos_add_ofs cols p m) n ≠ pos_add_ofs cols p (m + n)

section Diverge

variable {x y : ℤ}

lemma pos_add_ofs_lt {n : ℕ} (h : n < cols) (p : Pos) :
    pos_add_ofs cols p n = pos_add cols p ⟨int16 n, 0⟩ := by
  rw [pos_add_ofs, pos_convert_eq n (by rw [Nat.div_eq_of_lt h]; decide), Nat.mod_eq_of_lt h,
    Nat.div_eq_of_lt h]
  rfl

lemma pos_add_ofs_row {n : ℕ} (hcols : 0 < cols) (h : n < cols) (p : Pos) :
    pos_add_ofs cols p (cols + n) = pos_add cols p ⟨int16 n, 1⟩ := by
  have hdiv : (cols + n) / cols = 1 := by
    rw [Nat.add_div_left n hcols, Nat.div_eq_of_lt h]
  have hmod : (cols + n) % cols = n := by rw [Nat.add_mod_left, Nat.mod_eq_of_lt h]
  rw [pos_add_ofs, pos_convert_eq _ (by rw [hdiv]; decide), hmod, hdiv]
  rfl

lemma advance_lt {n : ℕ} (hx : 0 ≤ x) (h : x + n < cols) :
    (⟨x, y⟩ : Pos).advance cols n = ⟨x + n, y⟩ := by
  have h0 : 0 ≤ x + (n : ℤ) := by omega
  rw [Pos.advance, Int.emod_eq_of_lt h0 h, Int.ediv_eq_zero_of_lt h0 h, Int.add_zero]

lemma advance_row {n k : ℕ} (hcols : 0 < cols) (h : x + n = cols + k) (hk : k < cols) :
    (⟨x, y⟩ : Pos).advance cols n = ⟨k, y + 1⟩ := by
  have hpos : (0 : ℤ) < cols := by exact_mod_cast hcols
  have hk' : (k : ℤ) < cols := by exact_mod_cast hk
  rw [Pos.advance]
  dsimp only
  rw [h, Int.add_emod_left, Int.emod_eq_of_lt (by omega) hk']
  have hdiv : ((cols : ℤ) + k) / cols = 1 := by
    rw [Int.ediv_eq_iff_of_pos hpos]
    omega
  rw [hdiv]

lemma diverges_wide (h : 16384 < cols) (h15 : cols < 2 ^ 15) :
    Diverges cols ⟨0, 0⟩ (cols - 1) (cols - 1) := by
  have hm : ((cols - 1 : ℕ) : ℤ) = cols - 1 := by omega
  have hsum : cols - 1 + (cols - 1) = cols + (cols - 2) := by omega
  have hfirst : pos_add_ofs cols ⟨0, 0⟩ (cols - 1) = ⟨cols - 1, 0⟩ := by
    rw [pos_add_ofs_lt (by omega), hm, pos_add_keep (by simp only [int16]; omega)
      (by simp only [int16]; omega) (by decide)]
    ext
    · simp only [int16]
      omega
    · rfl
  refine ⟨by omega, ⟨⟨le_rfl, by dsimp only; omega⟩, le_rfl⟩, ⟨by decide, by decide⟩, ?_, ?_, ?_⟩
  · rw [advance_lt le_rfl (by omega)]
    exact ⟨by dsimp only; omega, by dsimp only; decide⟩
  · rw [hsum, advance_row (k := cols - 2) (by omega) (by omega) (by omega)]
    exact ⟨by dsimp only; omega, by dsimp only; decide⟩
  · intro heq
    rw [hfirst, hsum, pos_add_ofs_row (by omega) (by omega), pos_add_ofs_lt (by omega),
      pos_add_keep (x := 0) (by simp only [int16]; omega) (by simp only [int16]; omega)
        (by decide)] at heq
    have hy := congrArg Pos.y heq
    rw [pos_add_back (by simp only [int16]; omega) (by simp only [int16]; omega)] at hy
    dsimp only at hy
    exact absurd hy (by decide)

lemma diverges_neg (h : 2 ^ 15 < cols) (hneg : int16 cols < 0) (hmod : cols % 2 ^ 16 ≠ 2 ^ 15) :
    Diverges cols ⟨0, 0⟩ 32767 (cols - 32767) := by
  have hsum : 32767 + (cols - 32767) = cols + 0 := by omega
  have hn : ((cols - 32767 : ℕ) : ℤ) = cols - 32767 := by omega
  have hfirst : pos_add_ofs cols ⟨0, 0⟩ 32767 = ⟨32767, 0⟩ := by
    simp only [int16] at hneg
    rw [pos_add_ofs_lt (by omega), pos_add_both (by simp only [int16]; omega)
      (by simp only [int16]; omega) (by decide)]
    ext
    · simp only [int16]
      omega
    · rfl
  refine ⟨by omega, ⟨⟨le_rfl, by dsimp only; omega⟩, le_rfl⟩, ⟨by decide, by decide⟩, ?_, ?_, ?_⟩
  · rw [advance_lt le_rfl (by omega)]
    exact ⟨by decide, by decide⟩
  · rw [hsum, advance_row (k := 0) (by omega) (by omega) (by omega)]
    exact ⟨by decide, by decide⟩
  · intro heq
    simp only [int16] at hneg
    rw [hfirst, hsum, pos_add_ofs_row (by omega) (by omega), pos_add_ofs_lt (by omega), hn,
      pos_add_wrap (x := 32767) (by simp only [int16]; omega) (by simp only [int16]; omega)
        (by decide),
      pos_add_wrap (x := 0) (by simp only [int16]; omega) (by simp only [int16]; omega)
        (by decide)] at heq
    have hy := congrArg Pos.y heq
    dsimp only at hy
    exact absurd hy (by decide)

lemma diverges_zero (hcols : 0 < cols) (hzero : int16 cols = 0) : Diverges cols ⟨0, 0⟩ 1 1 := by
  simp only [int16] at hzero
  have hfirst : pos_add_ofs cols ⟨0, 0⟩ 1 = ⟨1, 1⟩ := by
    rw [pos_add_ofs_lt (by omega), pos_add_wrap (by simp only [int16]; omega)
      (by simp only [int16]; omega) (by decide)]
    ext
    · simp only [int16]
      omega
    · rfl
  refine ⟨by omega, ⟨⟨le_rfl, by dsimp only; omega⟩, le_rfl⟩, ⟨by decide, by decide⟩, ?_, ?_, ?_⟩
  · rw [advance_lt le_rfl (by omega)]
    exact ⟨by decide, by decide⟩
  · rw [advance_lt le_rfl (by omega)]
    exact ⟨by decide, by decide⟩
  · intro heq
    rw [hfirst, pos_add_ofs_lt (by omega), pos_add_ofs_lt (by omega),
      pos_add_wrap (x := 1) (by simp only [int16]; omega) (by simp only [int16]; omega) (by decide),
      pos_add_wrap (x := 0) (by simp only [int16]; omega) (by simp only [int16]; omega)
        (by decide)] at heq
    have hy := congrArg Pos.y heq
    dsimp only at hy
    exact absurd hy (by decide)

lemma wrap_first (h16 : 2 ^ 16 ≤ cols) (hpos : 0 < int16 cols) :
    pos_add_ofs cols ⟨32767, 0⟩ (cols - 32767) = ⟨0, 1⟩ ∧
      (⟨32767, 0⟩ : Pos).advance cols (cols - 32767) = ⟨0, 1⟩ := by
  have hn : ((cols - 32767 : ℕ) : ℤ) = cols - 32767 := by omega
  simp only [int16] at hpos
  constructor
  · rw [pos_add_ofs_lt (by omega), hn, pos_add_wrap (by simp only [int16]; omega)
      (by simp only [int16]; omega) (by decide)]
    ext
    · simp only [int16]
      omega
    · rfl
  · exact advance_row (k := 0) (by omega) (by omega) (by omega)

lemma diverges_over (h16 : 2 ^ 16 ≤ cols) (hlow : 0 < cols % 2 ^ 16)
    (hhigh : cols % 2 ^ 16 < 32767) :
    Diverges cols ⟨32767, 0⟩ (cols - 32767) (cols % 2 ^ 16) := by
  have hcol : int16 cols = (cols % 2 ^ 16 : ℕ) := by
    simp only [int16]
    omega
  obtain ⟨hfirst, hmid⟩ := wrap_first h16 (by rw [hcol]; omega)
  generalize hk : cols % 2 ^ 16 = k at hlow hhigh hcol ⊢
  have hn : ((cols - 32767 + k : ℕ) : ℤ) = cols - 32767 + k := by omega
  refine ⟨by omega, ⟨⟨by decide, by dsimp only; omega⟩, le_rfl⟩, ⟨by decide, by decide⟩, ?_, ?_, ?_⟩
  · rw [hmid]
    exact ⟨by decide, by decide⟩
  · rw [advance_row (k := k) (by omega) (by omega) (by omega)]
    exact ⟨by dsimp only; omega, by dsimp only; decide⟩
  · intro heq
    rw [hfirst, pos_add_ofs_lt (by omega), pos_add_ofs_lt (by omega), hn,
      pos_add_wrap (x := 0) (by simp only [int16]; omega) (by simp only [int16]; omega)
        (by decide)] at heq
    have hy := congrArg Pos.y heq
    by_cases hfit : 2 * k < 2 ^ 15
    · rw [pos_add_wrap (by simp only [int16]; omega) (by simp only [int16]; omega)
        (by decide)] at hy
      dsimp only at hy
      exact absurd hy (by decide)
    · rw [pos_add_back (by simp only [int16]; omega) (by simp only [int16]; omega)] at hy
      dsimp only at hy
      exact absurd hy (by decide)

lemma diverges_last (h16 : 2 ^ 16 ≤ cols) (hlast : cols % 2 ^ 16 = 32767) :
    Diverges cols ⟨32767, 0⟩ (cols - 32767) 2 := by
  obtain ⟨hfirst, hmid⟩ := wrap_first h16 (by simp only [int16]; omega)
  have hn : ((cols - 32767 + 2 : ℕ) : ℤ) = cols - 32765 := by omega
  refine ⟨by omega, ⟨⟨by decide, by dsimp only; omega⟩, le_rfl⟩, ⟨by decide, by decide⟩, ?_, ?_, ?_⟩
  · rw [hmid]
    exact ⟨by decide, by decide⟩
  · rw [advance_row (k := 2) (by omega) (by omega) (by omega)]
    exact ⟨by decide, by decide⟩
  · intro heq
    rw [hfirst, pos_add_ofs_lt (by omega), pos_add_ofs_lt (by omega), hn,
      pos_add_keep (x := 0) (by simp only [int16]; omega) (by simp only [int16]; omega)
        (by decide)] at heq
    have hy := congrArg Pos.y heq
    rw [pos_add_back (by simp only [int16]; omega) (by simp only [int16]; omega)] at hy
    dsimp only at hy
    exact absurd hy (by decide)

end Diverge

lemma exists_diverges (hcols : 0 < cols) (h : ¬ExactWidth cols) :
    ∃ p m n, Diverges cols p m n := by
  rw [ExactWidth, not_or, not_le] at h
  obtain ⟨h14, hmod⟩ := h
  by_cases h15 : cols < 2 ^ 15
  · exact ⟨_, _, _, diverges_wide h14 h15⟩
  by_cases hneg : int16 cols < 0
  · exact ⟨_, _, _, diverges_neg (by omega) hneg hmod⟩
  by_cases hzero : int16 cols = 0
  · exact ⟨_, _, _, diverges_zero hcols hzero⟩
  have h16 : 2 ^ 16 ≤ cols := by
    simp only [int16] at hneg
    omega
  simp only [int16] at hneg hzero
  by_cases hlast : cols % 2 ^ 16 = 32767
  · exact ⟨_, _, _, diverges_last h16 hlast⟩
  · exact ⟨_, _, _, diverges_over h16 (by omega) (by omega)⟩

end Uline
