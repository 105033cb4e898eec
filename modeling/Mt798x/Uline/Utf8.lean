import Mt798x.Lib.Bytes

/-!
# The symbols of a text

`utf8_nsyms` of `utf8.c` counts the columns of a text.  It decodes one symbol after the other with
`mbtowc`; a byte that does not start a symbol counts like a letter.  The widths of the symbols
behind Latin-1 come from tables, which are a parameter here.

A text may be cut between two of its symbols: what is decoded in front of the cut does not depend
on what follows (`nsyms_append`).
-/

namespace Uline

open Bytes

/-! ## Decoding -/

/-- `R(a,b)`: the interval from `a` up to `b`, as an offset in the upper six bits. -/
def rangeBits (a b : UInt32) : UInt32 := (if a = 0x80 then 0x40 - b else 0 - a) <<< 23

/-- The table of lead bytes, from `SA` to `SB`: the macros `C`, `D`, `E` and `F`. -/
def bittab : List UInt32 :=
  let c := fun x : UInt32 => rangeBits 0x80 0xc0 ||| x
  let e := fun x : UInt32 =>
    (if x = 0 then rangeBits 0xa0 0xc0
      else if x = 0xd then rangeBits 0x80 0xa0 else rangeBits 0x80 0xc0) |||
      rangeBits 0x80 0xc0 >>> 6 ||| x
  let f := fun x : UInt32 =>
    (if 5 ≤ x then 0 else if x = 0 then rangeBits 0x90 0xc0
      else if x = 4 then rangeBits 0x80 0x90 else rangeBits 0x80 0xc0) |||
      rangeBits 0x80 0xc0 >>> 6 ||| rangeBits 0x80 0xc0 >>> 12 ||| x
  ((List.range 30).map fun k => c (UInt32.ofNat (k + 2))) ++
    ((List.range 16).map fun k => e (UInt32.ofNat k)) ++
    (List.range 5).map fun k => f (UInt32.ofNat k)

/-- `OOB(c,b)`: the byte is not in the interval of the state. -/
def outOfBounds (c : UInt32) (b : Byte) : Bool :=
  let high : UInt32 := b.toUInt32 >>> 3
  let state : UInt32 := (c.toInt32 >>> 26).toUInt32
  ((high - 0x10) ||| (high + state)) &&& ~~~7 != 0

/-- `c & (1U<<31)`: more bytes follow. -/
def more (c : UInt32) : Bool := c &&& 0x80000000 != 0

/-- One more byte. -/
def shiftIn (c : UInt32) (b : Byte) : UInt32 := c <<< 6 ||| (b.toUInt32 - 0x80)

/-- The bytes behind a lead byte. -/
def decodeTail (c : UInt32) : List Byte → Option (ℕ × UInt32)
  | [] => none
  | b1 :: t =>
    if outOfBounds c b1 then none
    else
      let c := shiftIn c b1
      if ¬more c then some (2, c)
      else match t with
        | [] => none
        | b2 :: t =>
          if 0x40 ≤ b2.toUInt32 - 0x80 then none
          else
            let c := shiftIn c b2
            if ¬more c then some (3, c)
            else match t with
              | [] => none
              | b3 :: _ => if 0x40 ≤ b3.toUInt32 - 0x80 then none else some (4, shiftIn c b3)

/-- `mbtowc` on a text: the number of bytes and the character, or an error. -/
def mbtowc : List Byte → Option (ℕ × UInt32)
  | [] => none
  | b0 :: t =>
    if b0 < 0x80 then some (if b0 = 0 then 0 else 1, b0.toUInt32)
    else if 0xf4 - 0xc2 < b0.toUInt32 - 0xc2 then none
    else
      let n := t.length + 1
      let c := bittab.getD (b0.toUInt32 - 0xc2).toNat 0
      if n < 4 ∧ more (c <<< UInt32.ofNat (6 * n - 6)) then none
      else decodeTail c t

/-- `wcwidth`; the tables for the characters behind Latin-1 are a parameter. -/
def wcwidth (table : UInt32 → ℤ) (wc : UInt32) : ℤ :=
  if wc < 0xff then if 0x21 ≤ (wc + 1) &&& 0x7f then 1 else if wc ≠ 0 then -1 else 0
  else table wc

/-- The symbol at the start of a text: its bytes, and the character it counts like. -/
def symbol (s : List Byte) : ℕ × UInt32 :=
  match mbtowc s with
  | some (ret, wc) => if ret = 0 then (1, 65) else (ret, wc)
  | none => (1, 65)

/-- The loop of `utf8_nsyms`. -/
def nsymsLoop (table : UInt32 → ℤ) : ℕ → List Byte → ℕ
  | 0, _ => 0
  | fuel + 1, s =>
    if s = [] then 0
    else (wcwidth table (symbol s).2).toNat + nsymsLoop table fuel (s.drop (symbol s).1)

/-- `utf8_nsyms` -/
def utf8_nsyms (table : UInt32 → ℤ) (s : List Byte) : ℕ := nsymsLoop table s.length s

/-- A text that goes on is cut at the end of one of its symbols. -/
inductive SymbolCut : List Byte → List Byte → Prop
  | start (t : List Byte) : SymbolCut [] t
  | step {s t u : List Byte} (hs : s ≠ []) (hsym : (symbol (s ++ t ++ u)).1 = s.length)
      (hrest : SymbolCut t u) : SymbolCut (s ++ t) u

/-! ## What is decoded does not depend on what follows -/

lemma more_eq (c : UInt32) : more c = c.toNat.testBit 31 := by
  have hand := UInt32.toNat_and c 0x80000000
  have hbit : (0x80000000 : UInt32).toNat = 2 ^ 31 := by decide
  rw [hbit, Nat.and_two_pow] at hand
  have hzero : c &&& 0x80000000 = 0 ↔ c.toNat.testBit 31 = false := by
    rw [← UInt32.toNat_inj, hand]
    cases c.toNat.testBit 31
    · simp
    · simp
  rw [more, bne, Bool.eq_iff_iff, Bool.not_eq_true', beq_eq_false_iff_ne, ne_eq, hzero,
    Bool.not_eq_false]

variable {c : UInt32} {b : Byte} {s : List Byte}

lemma bittab_bits (hc : c ∈ bittab) : c.toNat.testBit 31 = true ∧
    (c.toNat.testBit 25 = false → c.toNat.testBit 19 = false) := by
  have hall : bittab.all (fun c => c.toNat.testBit 31 &&
      (c.toNat.testBit 25 || !c.toNat.testBit 19)) = true := by decide +kernel
  have hbits := List.all_eq_true.mp hall c hc
  rw [Bool.and_eq_true, Bool.or_eq_true, Bool.not_eq_true'] at hbits
  refine ⟨hbits.1, fun h25 => hbits.2.resolve_left ?_⟩
  rw [h25]
  exact Bool.false_ne_true

/-- A continuation byte has six bits. -/
def contByte (b : Byte) : Bool := b.toUInt32 - 0x80 < 0x40

lemma testBit_shiftIn (hb : contByte b = true) {i : ℕ} (h6 : 6 ≤ i) (hi : i < 32) :
    (shiftIn c b).toNat.testBit i = c.toNat.testBit (i - 6) := by
  have hlow : (b.toUInt32 - 0x80).toNat < 2 ^ i :=
    (UInt32.lt_iff_toNat_lt.mp (of_decide_eq_true hb)).trans_le
      (Nat.pow_le_pow_right (show 0 < 2 by decide) h6)
  rw [shiftIn, UInt32.toNat_or, Nat.testBit_or, Nat.testBit_lt_two_pow hlow, Bool.or_false,
    UInt32.toNat_shiftLeft, Nat.testBit_mod_two_pow]
  simp [hi, h6, Nat.testBit_shiftLeft]

lemma contByte_of_outOfBounds (h : outOfBounds c b = false) : contByte b = true := by
  have hhigh : ((b.toUInt32 >>> 3) - 0x10) &&& ~~~7 = 0 := by
    rw [outOfBounds, bne_eq_false_iff_eq] at h
    have hdist : ∀ x y m : UInt32, (x ||| y) &&& m = (x &&& m) ||| (y &&& m) := by
      intro x y m
      rw [← UInt32.toNat_inj, UInt32.toNat_and, UInt32.toNat_or, UInt32.toNat_or,
        UInt32.toNat_and, UInt32.toNat_and, Nat.and_or_distrib_right]
    rw [hdist, UInt32.or_eq_zero_iff] at h
    exact h.1
  have hall : (List.range 256).all (fun n => decide (((UInt8.ofNat n).toUInt32 >>> 3) - 0x10 &&&
      ~~~7 ≠ 0) || contByte (UInt8.ofNat n)) = true := by decide +kernel
  have hb := List.all_eq_true.mp hall b.toNat (List.mem_range.mpr b.toNat_lt)
  rw [UInt8.ofNat_toNat, Bool.or_eq_true, decide_eq_true_iff] at hb
  exact hb.resolve_left fun hne => hne hhigh

lemma lead_long (hc : c ∈ bittab) {n : ℕ}
    (hn : c.toNat.testBit 25 = false ∧ 2 ≤ n ∨
    c.toNat.testBit 19 = false ∧ 3 ≤ n ∨ 4 ≤ n) :
    ¬(n < 4 ∧ more (c <<< UInt32.ofNat (6 * n - 6)) = true) := by
  rintro ⟨hlt, hmore⟩
  rw [more_eq, UInt32.toNat_shiftLeft, Nat.testBit_mod_two_pow] at hmore
  have h25 := (bittab_bits hc).2
  have hcases : n = 2 ∨ n = 3 := by omega
  rcases hcases with rfl | rfl
  · have h := hn.resolve_right (by omega)
    simp [Nat.testBit_shiftLeft, h.1] at hmore
  · have h19 : c.toNat.testBit 19 = false := by
      rcases hn with h | h | h
      · exact h25 h.1
      · exact h.1
      · omega
    simp [Nat.testBit_shiftLeft, h19] at hmore

lemma contByte_of_not (h : ¬0x40 ≤ b.toUInt32 - 0x80) : contByte b = true :=
  decide_eq_true (UInt32.not_le.mp h)

lemma more_shiftIn (hb : contByte b = true) : more (shiftIn c b) = c.toNat.testBit 25 := by
  rw [more_eq, testBit_shiftIn hb (by decide) (by decide)]

/-- The bytes that are decoded behind a lead byte decide what is decoded. -/
lemma decodeTail_eq {t : List Byte} {k : ℕ} {wc : UInt32} (h : decodeTail c t = some (k, wc)) :
    ∃ s u, t = s ++ u ∧ s.length + 1 = k ∧
      (c.toNat.testBit 25 = false ∧ 2 ≤ k ∨ c.toNat.testBit 19 = false ∧ 3 ≤ k ∨ 4 ≤ k) ∧
      ∀ v, decodeTail c (s ++ v) = some (k, wc) := by
  cases t with
  | nil => cases h
  | cons b1 t =>
    simp only [decodeTail] at h
    split_ifs at h with hoob htwo
    · have h1 := contByte_of_outOfBounds (Bool.eq_false_of_not_eq_true hoob)
      cases t with
      | nil => cases h
      | cons b2 t =>
        simp only at h
        split_ifs at h with hcont hthree
        · cases t with
          | nil => cases h
          | cons b3 t =>
            simp only at h
            split_ifs at h with hlast
            cases h
            refine ⟨[b1, b2, b3], t, rfl, rfl, .inr (.inr le_rfl), fun v => ?_⟩
            rw [List.cons_append, List.cons_append, List.cons_append, List.nil_append]
            simp only [decodeTail]
            rw [if_neg hoob, if_neg (not_not_intro htwo), if_neg hcont,
              if_neg (not_not_intro hthree), if_neg hlast]
        · have h2 := contByte_of_not hcont
          have hmore : c.toNat.testBit 19 = false := by
            rw [← testBit_shiftIn h1 (show 6 ≤ 25 by decide) (by decide), ← more_shiftIn h2]
            exact Bool.eq_false_of_not_eq_true hthree
          cases h
          refine ⟨[b1, b2], t, rfl, rfl, .inr (.inl ⟨hmore, le_rfl⟩), fun v => ?_⟩
          rw [List.cons_append, List.cons_append, List.nil_append]
          simp only [decodeTail]
          rw [if_neg hoob, if_neg (not_not_intro htwo), if_neg hcont, if_pos hthree]
    · have hmore : c.toNat.testBit 25 = false := by
        rw [← more_shiftIn (contByte_of_outOfBounds (Bool.eq_false_of_not_eq_true hoob))]
        exact Bool.eq_false_of_not_eq_true htwo
      cases h
      refine ⟨[b1], t, rfl, rfl, .inl ⟨hmore, le_rfl⟩, fun v => ?_⟩
      rw [List.singleton_append]
      simp only [decodeTail]
      rw [if_neg hoob, if_pos htwo]

/-- What is decoded is decided by the bytes of the symbol. -/
lemma mbtowc_eq {k : ℕ} {wc : UInt32} (h : mbtowc s = some (k, wc)) :
    ∃ t u, s = t ++ u ∧ t.length = max k 1 ∧ ∀ v, mbtowc (t ++ v) = some (k, wc) := by
  cases s with
  | nil => cases h
  | cons b0 s =>
    rw [mbtowc] at h
    by_cases hascii : b0 < 0x80
    · rw [if_pos hascii] at h
      cases h
      refine ⟨[b0], s, rfl, ?_, fun v => ?_⟩
      · split <;> rfl
      · rw [List.singleton_append, mbtowc, if_pos hascii]
    · rw [if_neg hascii] at h
      by_cases hlead : 0xf4 - 0xc2 < b0.toUInt32 - 0xc2
      · rw [if_pos hlead] at h
        cases h
      · rw [if_neg hlead] at h
        dsimp only at h
        split at h
        · cases h
        · obtain ⟨t, u, rfl, hlen, hbits, htail⟩ := decodeTail_eq h
          have hc : bittab.getD (b0.toUInt32 - 0xc2).toNat 0 ∈ bittab := by
            have hidx : (b0.toUInt32 - 0xc2).toNat < bittab.length :=
              (UInt32.le_iff_toNat_le.mp (UInt32.not_lt.mp hlead)).trans_lt (by decide +kernel)
            rw [List.getD_eq_getElem _ _ hidx]
            exact List.getElem_mem hidx
          refine ⟨b0 :: t, u, rfl, ?_, fun v => ?_⟩
          · rw [List.length_cons]
            omega
          · have hge : k ≤ (t ++ v).length + 1 := by
              rw [List.length_append]
              omega
            have hlong := lead_long hc (n := (t ++ v).length + 1)
              (hbits.imp (And.imp_right hge.trans') (Or.imp (And.imp_right hge.trans') hge.trans'))
            rw [List.cons_append, mbtowc, if_neg hascii, if_neg hlead]
            dsimp only
            rw [if_neg hlong, htail]

/-! ## Columns -/

lemma symbol_of_some {k : ℕ} {wc : UInt32} (h : mbtowc s = some (k, wc)) :
    symbol s = if k = 0 then (1, 65) else (k, wc) := by
  rw [symbol, h]

lemma symbol_of_none (h : mbtowc s = none) : symbol s = (1, 65) := by
  rw [symbol, h]

lemma symbol_pos (s : List Byte) : 0 < (symbol s).1 := by
  cases h : mbtowc s with
  | none =>
    rw [symbol_of_none h]
    exact Nat.one_pos
  | some r =>
    obtain ⟨k, wc⟩ := r
    rw [symbol_of_some h]
    split
    · exact Nat.one_pos
    · omega

/-- A symbol in front of the cut is the same without what follows the cut. -/
lemma symbol_cut {t u : List Byte} (h : (symbol (s ++ t ++ u)).1 = s.length) :
    symbol (s ++ t) = symbol (s ++ t ++ u) := by
  cases hdec : mbtowc (s ++ t ++ u) with
  | some r =>
    obtain ⟨k, wc⟩ := r
    obtain ⟨s', u', hsplit, hlen, hsame⟩ := mbtowc_eq hdec
    rw [symbol_of_some hdec] at h ⊢
    have hs : s = s' := by
      rw [List.append_assoc] at hsplit
      refine (List.append_inj hsplit ?_).1
      rw [hlen, ← h]
      split
      · subst k
        rfl
      · exact (Nat.max_eq_left (by omega)).symm
    rw [symbol_of_some (hs ▸ hsame t)]
  | none =>
    rw [symbol_of_none hdec]
    refine symbol_of_none ?_
    cases hcut : mbtowc (s ++ t) with
    | none => rfl
    | some r =>
      obtain ⟨k, wc⟩ := r
      obtain ⟨s', u', hsplit, -, hsame⟩ := mbtowc_eq hcut
      have hfull := hsame (u' ++ u)
      rw [← List.append_assoc, ← hsplit, hdec] at hfull
      cases hfull

lemma nsymsLoop_eq (table : UInt32 → ℤ) {fuel : ℕ} {s : List Byte} (h : s.length ≤ fuel) :
    nsymsLoop table fuel s = utf8_nsyms table s := by
  rw [utf8_nsyms]
  induction fuel using Nat.strong_induction_on generalizing s with
  | _ fuel ih =>
    cases s with
    | nil => cases fuel <;> rfl
    | cons c s =>
      obtain ⟨fuel, rfl⟩ : ∃ f, fuel = f + 1 := ⟨fuel - 1, by rw [List.length_cons] at h; omega⟩
      rw [List.length_cons, nsymsLoop, nsymsLoop, if_neg (List.cons_ne_nil c s),
        if_neg (List.cons_ne_nil c s)]
      have hpos := symbol_pos (c :: s)
      have hdrop : ((c :: s).drop (symbol (c :: s)).1).length ≤ s.length := by
        rw [List.length_drop, List.length_cons]
        omega
      rw [List.length_cons] at h
      rw [ih fuel (by omega) (hdrop.trans (by omega)), ih s.length (by omega) hdrop]

lemma nsyms_step (table : UInt32 → ℤ) (h : s ≠ []) : utf8_nsyms table s =
    (wcwidth table (symbol s).2).toNat + utf8_nsyms table (s.drop (symbol s).1) := by
  obtain ⟨c, s, rfl⟩ := List.exists_cons_of_ne_nil h
  have hpos := symbol_pos (c :: s)
  have hdrop : ((c :: s).drop (symbol (c :: s)).1).length ≤ s.length := by
    rw [List.length_drop, List.length_cons]
    omega
  rw [utf8_nsyms, List.length_cons, nsymsLoop, if_neg h, nsymsLoop_eq table hdrop]

lemma nsyms_append (table : UInt32 → ℤ) {t u : List Byte} (h : SymbolCut t u) :
    utf8_nsyms table (t ++ u) = utf8_nsyms table t + utf8_nsyms table u := by
  induction h with
  | start t => exact (Nat.zero_add _).symm
  | @step s t u hs hsym hrest ih =>
    have hsame := symbol_cut hsym
    have hne : s ++ t ≠ [] := fun h => hs (List.append_eq_nil_iff.mp h).1
    rw [nsyms_step table (s := s ++ t ++ u) fun h => hne (List.append_eq_nil_iff.mp h).1,
      nsyms_step table hne, hsame, hsym, List.drop_left' rfl, List.append_assoc,
      List.drop_left' rfl, ih, Nat.add_assoc]

end Uline
