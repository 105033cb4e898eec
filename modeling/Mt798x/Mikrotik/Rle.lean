import Mt798x.Lib.Guard
import Mt798x.Mikrotik.WlanData

/-!
# The RouterBOOT RLE decoder

`routerboot_rle_decode` with its two cursors, every access checked.  The number of decoded bytes is
kept in an `int` and compared with the capacity as a `size_t`, so an output of `2 ^ 31` bytes or more
is refused although there is room (`decode_huge`).  Below that the decoder does what the groups of
the input say: `routerboot_rle_decode_spec` compares it with the greedy reading of the groups.
-/

namespace Mikrotik.Rle

open Bytes Guard

/-! ## The decoder -/

/-- What the decoder returns: the errno, the length it stores, and what it has written. -/
structure Decoded where
  ret : Option Errno
  outlen : ℕ
  out : List Byte
  deriving DecidableEq, Repr

/-- The variables of the decoder: the place in the input, the bytes left of it, the number of
decoded bytes and the bytes themselves. -/
structure St where
  pos : ℕ
  inlen : ℕ
  nbytes : ℤ
  out : List Byte
  deriving DecidableEq, Repr

/-- An `int` after an addition. -/
def int32 (x : ℤ) : ℤ := Int.bmod x (2 ^ 32)

/-- An `int` as a `size_t` of this many bits. -/
def asSize (bits : ℕ) (x : ℤ) : ℕ := (x % 2 ^ bits).toNat

section Decoder

variable (bits : ℕ) (inp : List Byte) (cap : ℕ)

/-- `*in`, for `in` at this place. -/
def readByte (pos : ℕ) : Except Fault Byte := do
  touch inp.length (pos + 1)
  pure (inp.getD pos 0)

/-- `*out++ = byte` -/
def writeByte (out : List Byte) (byte : Byte) : Except Fault (List Byte) := do
  touch cap (out.length + 1)
  pure (out ++ [byte])

/-- `while (run-- > 0) *out++ = *in++;` -/
def copyLoop : ℕ → ℕ → List Byte → Except Fault (ℕ × List Byte)
  | 0, pos, out => pure (pos, out)
  | run + 1, pos, out => do
    let byte ← readByte inp pos
    let out ← writeByte cap out byte
    copyLoop run (pos + 1) out

/-- `while (run-- > 0) *out++ = byte;` -/
def fillLoop (byte : Byte) : ℕ → List Byte → Except Fault (List Byte)
  | 0, out => pure out
  | run + 1, out => do
    let out ← writeByte cap out byte
    fillLoop byte run out

/-- One turn of the loop: the end of the routine or the next state. -/
def turn (s : St) : Except Fault (Decoded ⊕ St) := do
  let run ← readByte inp s.pos
  let inlen := s.inlen - 1
  if run &&& 0x80 ≠ 0 then
    let run := (~~~run).toNat + 1
    if run > inlen then pure (.inl ⟨some .ENOSPC, asSize bits s.nbytes, s.out⟩)
    else
      let nbytes := int32 (s.nbytes + run)
      if asSize bits nbytes > cap then pure (.inl ⟨some .ENOSPC, asSize bits nbytes, s.out⟩)
      else
        let (pos, out) ← copyLoop inp cap run (s.pos + 1) s.out
        pure (.inr ⟨pos, inlen - run, nbytes, out⟩)
  else
    let byte ← readByte inp (s.pos + 1)
    let nbytes := int32 (s.nbytes + run.toNat)
    if asSize bits nbytes > cap then pure (.inl ⟨some .ENOSPC, asSize bits nbytes, s.out⟩)
    else
      let out ← fillLoop cap byte run.toNat s.out
      pure (.inr ⟨s.pos + 2, inlen - 1, nbytes, out⟩)

/-- The loop, on `fuel`. -/
def decodeLoop : ℕ → St → Except Fault Decoded
  | 0, _ => .error .endless
  | fuel + 1, s =>
    if s.inlen < 2 then pure ⟨none, asSize bits s.nbytes, s.out⟩
    else do
      match ← turn bits inp cap s with
      | .inl r => pure r
      | .inr s => decodeLoop fuel s

/-- `routerboot_rle_decode` into an output of `cap` bytes. -/
def routerboot_rle_decode : Except Fault Decoded :=
  if inp.length < 2 then pure ⟨some .EINVAL, cap, []⟩
  else decodeLoop bits inp cap (inp.length + 1) ⟨0, inp.length, 0, []⟩

end Decoder

/-! ## The groups of an input -/

/-- The first group of an input: what it stands for, and the rest of the input. -/
def nextGroup : List Byte → Option (List Byte × List Byte)
  | run :: byte :: rest =>
    if run.toNat < 128 then some (List.replicate run.toNat byte, rest)
    else if 256 - run.toNat ≤ rest.length + 1 then
      some ((byte :: rest).take (256 - run.toNat), (byte :: rest).drop (256 - run.toNat))
    else none
  | _ => none

lemma nextGroup_shorter {inp e rest : List Byte} (h : nextGroup inp = some (e, rest)) :
    rest.length < inp.length := by
  match inp with
  | [] => cases h
  | [_] => cases h
  | run :: byte :: tail =>
    rw [nextGroup] at h
    split_ifs at h
    · cases h
      simp only [List.length_cons]
      omega
    · cases h
      simp only [List.length_drop, List.length_cons]
      omega

lemma nextGroup_length {inp e rest : List Byte} (h : nextGroup inp = some (e, rest)) :
    e.length ≤ 128 := by
  match inp with
  | [] => cases h
  | [_] => cases h
  | run :: byte :: tail =>
    rw [nextGroup] at h
    split_ifs at h
    · cases h
      rw [List.length_replicate]
      omega
    · cases h
      rw [List.length_take]
      omega

/-- The groups of an input, read one after the other: what they stand for, and what is left. -/
def groups (inp : List Byte) : List Byte × List Byte :=
  match _h : nextGroup inp with
  | none => ([], inp)
  | some (e, rest) => (e ++ (groups rest).1, (groups rest).2)
termination_by inp.length
decreasing_by exact nextGroup_shorter _h

lemma groups_none {inp : List Byte} (h : nextGroup inp = none) : groups inp = ([], inp) := by
  rw [groups]
  split
  · rfl
  · rename_i h'
    rw [h] at h'
    cases h'

lemma groups_some {inp e rest : List Byte} (h : nextGroup inp = some (e, rest)) :
    groups inp = (e ++ (groups rest).1, (groups rest).2) := by
  rw [groups]
  split
  · rename_i h'
    rw [h] at h'
    cases h'
  · rename_i h'
    rw [h] at h'
    cases h'
    rfl

/-! ## One turn -/

lemma high_bit (run : Byte) : run &&& 0x80 ≠ 0 ↔ 128 ≤ run.toNat := by
  have hlt := run.toNat_lt
  have hand : (run &&& 0x80).toNat = (run.toNat.testBit 7).toNat * 2 ^ 7 :=
    Nat.and_two_pow run.toNat 7
  rw [ne_eq, ← UInt8.toNat_inj, hand, Nat.testBit_eq_decide_div_mod_eq]
  by_cases h : 128 ≤ run.toNat
  · have hdiv : run.toNat / 128 % 2 = 1 := by omega
    simp [hdiv, h]
  · have hdiv : run.toNat / 128 % 2 = 0 := by omega
    simp [hdiv, h]

lemma inverted (run : Byte) : (~~~run).toNat + 1 = 256 - run.toNat := by
  have hlt := run.toNat_lt
  rw [UInt8.toNat_not]
  simp only [UInt8.size]
  omega

section Turn

variable {bits : ℕ} {inp : List Byte} {cap : ℕ}

lemma readByte_eq {pos : ℕ} {b : Byte} {rest : List Byte} (h : inp.drop pos = b :: rest) :
    readByte inp pos = .ok b ∧ inp.drop (pos + 1) = rest := by
  have hlen := congrArg List.length h
  rw [List.length_drop, List.length_cons] at hlen
  have hget : inp.getD pos 0 = b := by
    have h0 : (inp.drop pos).getD 0 0 = b := by rw [h]; rfl
    rwa [List.getD_eq_getElem?_getD, List.getElem?_drop, Nat.add_zero,
      ← List.getD_eq_getElem?_getD] at h0
  refine ⟨?_, ?_⟩
  · rw [readByte, touch_eq (by omega), hget]
    rfl
  · rw [← List.drop_drop, h]
    rfl

lemma copyLoop_eq {n pos : ℕ} {out lit rest : List Byte} (h : inp.drop pos = lit ++ rest)
    (hlit : lit.length = n) (hcap : out.length + n ≤ cap) :
    copyLoop inp cap n pos out = .ok (pos + n, out ++ lit) ∧ inp.drop (pos + n) = rest := by
  induction n generalizing pos out lit with
  | zero =>
    obtain rfl := List.length_eq_zero_iff.mp hlit
    exact ⟨by simp [copyLoop, pure, Except.pure], by simpa using h⟩
  | succ n ih =>
    cases lit with
    | nil => cases hlit
    | cons b lit =>
      rw [List.length_cons, Nat.add_right_cancel_iff] at hlit
      obtain ⟨hread, hnext⟩ := readByte_eq h
      have hlen : (out ++ [b]).length + n ≤ cap := by
        simp only [List.length_append, List.length_cons, List.length_nil]
        omega
      obtain ⟨hloop, hrest⟩ : copyLoop inp cap n (pos + 1) (out ++ [b]) =
          .ok (pos + 1 + n, out ++ [b] ++ lit) ∧ inp.drop (pos + 1 + n) = rest :=
        ih hnext hlit hlen
      refine ⟨?_, by rw [← hrest, Nat.add_assoc, Nat.add_comm 1 n]⟩
      rw [copyLoop, hread, ok_bind, writeByte, touch_eq (by omega), ok_bind]
      show copyLoop inp cap n (pos + 1) (out ++ [b]) = _
      rw [hloop, List.append_assoc, Nat.add_assoc, Nat.add_comm 1 n]
      rfl

lemma fillLoop_eq {n : ℕ} {b : Byte} {out : List Byte} (hcap : out.length + n ≤ cap) :
    fillLoop cap b n out = .ok (out ++ List.replicate n b) := by
  induction n generalizing out with
  | zero => simp [fillLoop, pure, Except.pure]
  | succ n ih =>
    have hlen : (out ++ [b]).length + n ≤ cap := by
      simp only [List.length_append, List.length_cons, List.length_nil]
      omega
    rw [fillLoop, writeByte, touch_eq (by omega), ok_bind]
    show fillLoop cap b n (out ++ [b]) = _
    rw [ih hlen, List.append_assoc, List.replicate_succ]
    rfl

lemma turn_none {s : St} (hlen : s.inlen = (inp.drop s.pos).length) (h2 : 2 ≤ s.inlen)
    (h : nextGroup (inp.drop s.pos) = none) :
    turn bits inp cap s = .ok (.inl ⟨some .ENOSPC, asSize bits s.nbytes, s.out⟩) := by
  match hrest : inp.drop s.pos with
  | [] =>
    rw [hlen, hrest] at h2
    simp at h2
  | [_] =>
    rw [hlen, hrest] at h2
    simp at h2
  | run :: byte :: rest =>
    rw [hrest, nextGroup] at h
    split_ifs at h with hfill hcopy
    rw [hrest] at hlen
    simp only [List.length_cons] at hlen
    have hbig : (~~~run).toNat + 1 > s.inlen - 1 := by
      rw [inverted]
      omega
    rw [turn, (readByte_eq hrest).1, ok_bind]
    simp only
    rw [if_pos ((high_bit run).mpr (by omega)), if_pos hbig]
    rfl

variable (bits) in
/-- A whole group is decoded, unless there is too much of it. -/
lemma turn_some {s : St} {e rest : List Byte} (hlen : s.inlen = (inp.drop s.pos).length)
    (h : nextGroup (inp.drop s.pos) = some (e, rest))
    (hroom : asSize bits (int32 (s.nbytes + e.length)) ≤ cap → s.out.length + e.length ≤ cap) :
    (cap < asSize bits (int32 (s.nbytes + e.length)) ∧ turn bits inp cap s =
      .ok (.inl ⟨some .ENOSPC, asSize bits (int32 (s.nbytes + e.length)), s.out⟩)) ∨
    (asSize bits (int32 (s.nbytes + e.length)) ≤ cap ∧ ∃ pos, inp.drop pos = rest ∧
      turn bits inp cap s =
        .ok (.inr ⟨pos, rest.length, int32 (s.nbytes + e.length), s.out ++ e⟩)) := by
  match hdrop : inp.drop s.pos with
  | [] => rw [hdrop] at h; cases h
  | [_] => rw [hdrop] at h; cases h
  | run :: byte :: tail =>
    obtain ⟨hread, hnext⟩ := readByte_eq hdrop
    rw [hdrop, nextGroup] at h
    rw [hdrop] at hlen
    simp only [List.length_cons] at hlen
    rw [turn, hread, ok_bind]
    simp only
    by_cases hrun : run.toNat < 128
    · rw [if_pos hrun] at h
      cases h
      rw [List.length_replicate] at hroom ⊢
      obtain ⟨hread2, hnext2⟩ := readByte_eq hnext
      rw [if_neg (fun hb => absurd ((high_bit run).mp hb) (by omega)), hread2, ok_bind]
      by_cases hbig : cap < asSize bits (int32 (s.nbytes + run.toNat))
      · rw [if_pos hbig]
        exact .inl ⟨hbig, rfl⟩
      · rw [if_neg hbig, fillLoop_eq (hroom (by omega)), ok_bind]
        refine .inr ⟨by omega, s.pos + 2, hnext2, ?_⟩
        have hleft : s.inlen - 1 - 1 = rest.length := by omega
        rw [hleft]
        rfl
    · rw [if_neg hrun] at h
      split_ifs at h with hcopy
      cases h
      have hlit : ((byte :: tail).take (256 - run.toNat)).length = 256 - run.toNat :=
        List.length_take_of_le hcopy
      rw [hlit] at hroom ⊢
      have hsmall : ¬256 - run.toNat > s.inlen - 1 := by omega
      rw [if_pos ((high_bit run).mpr (by omega)), inverted, if_neg hsmall]
      by_cases hbig : cap < asSize bits (int32 (s.nbytes + (256 - run.toNat : ℕ)))
      · rw [if_pos hbig]
        exact .inl ⟨hbig, rfl⟩
      · have hsplit : inp.drop (s.pos + 1) =
            (byte :: tail).take (256 - run.toNat) ++ (byte :: tail).drop (256 - run.toNat) := by
          rw [hnext, List.take_append_drop]
        obtain ⟨hloop, hrest⟩ := copyLoop_eq hsplit hlit (hroom (by omega))
        rw [if_neg hbig, hloop, ok_bind]
        refine .inr ⟨by omega, _, hrest, ?_⟩
        have hleft : s.inlen - 1 - (256 - run.toNat) =
            ((byte :: tail).drop (256 - run.toNat)).length := by
          rw [List.length_drop, List.length_cons]
          omega
        rw [hleft]
        rfl

/-! ## The whole routine -/

lemma asSize_of_lt (hbits : 32 ≤ bits) {n : ℕ} (hn : n < 2 ^ 31) :
    int32 n = n ∧ asSize bits n = n := by
  have hpow : (2 : ℤ) ^ 32 ≤ 2 ^ bits := pow_le_pow_right₀ (by decide) hbits
  refine ⟨?_, ?_⟩
  · rw [int32, Int.bmod_eq_of_le (by omega) (by omega)]
  · rw [asSize, Int.emod_eq_of_lt (by omega) (by omega), Int.toNat_natCast]

lemma le_asSize (hbits : 32 ≤ bits) {n : ℕ} (h31 : 2 ^ 31 ≤ n) (hn : n < 2 ^ 32) :
    2 ^ 31 ≤ asSize bits (int32 n) := by
  have hpow : (2 : ℤ) ^ 32 ≤ 2 ^ bits := pow_le_pow_right₀ (by decide) hbits
  have hneg : int32 n = n - 2 ^ 32 := by
    rw [int32, Int.bmod_def, Int.emod_eq_of_lt (by omega) (by omega), if_neg (by omega)]
    rfl
  have hmod : ((n : ℤ) - 2 ^ 32) % 2 ^ bits = n - 2 ^ 32 + 2 ^ bits := by
    rw [← Int.add_emod_right, Int.emod_eq_of_lt (by omega) (by omega)]
  rw [hneg, asSize, hmod]
  omega

/-- The outcome that the groups of the input ask for: `e` is what they stand for and `left` what is
left behind them. -/
structure Meets (cap : ℕ) (e left : List Byte) (r : Decoded) : Prop where
  ret : r.ret = none ↔ left.length ≤ 1 ∧ e.length ≤ cap
  out : r.ret = none → r.out = e ∧ r.outlen = e.length
  written : r.out <+: e
  room : r.out.length ≤ cap

lemma decodeLoop_spec (hbits : 32 ≤ bits) (hcap : cap < 2 ^ 31) {fuel : ℕ} {s : St}
    (hlen : s.inlen = (inp.drop s.pos).length) (hn : s.nbytes = s.out.length)
    (hroom : s.out.length ≤ cap) (hfuel : s.inlen < fuel) :
    ∃ r, decodeLoop bits inp cap fuel s = .ok r ∧
      Meets cap (s.out ++ (groups (inp.drop s.pos)).1) (groups (inp.drop s.pos)).2 r := by
  induction fuel generalizing s with
  | zero => omega
  | succ fuel ih =>
    rw [decodeLoop]
    by_cases hshort : s.inlen < 2
    · have hnone : nextGroup (inp.drop s.pos) = none := by
        match hd : inp.drop s.pos with
        | [] => rfl
        | [_] => rfl
        | _ :: _ :: _ =>
          rw [hd] at hlen
          simp only [List.length_cons] at hlen
          omega
      rw [if_pos hshort, groups_none hnone, List.append_nil]
      refine ⟨_, rfl, ?_, fun _ => ⟨rfl, ?_⟩, List.prefix_refl _, hroom⟩
      · simp only [true_iff]
        omega
      · rw [hn]
        exact (asSize_of_lt hbits (by omega)).2
    · rw [if_neg hshort]
      cases hgroup : nextGroup (inp.drop s.pos) with
      | none =>
        rw [turn_none hlen (by omega) hgroup, groups_none hgroup, List.append_nil]
        refine ⟨_, rfl, ?_, nofun, List.prefix_refl _, hroom⟩
        simp only [reduceCtorEq, false_iff]
        omega
      | some x =>
        obtain ⟨e, rest⟩ := x
        have hshorter := nextGroup_shorter hgroup
        have he : e.length ≤ 128 := nextGroup_length hgroup
        have hsum : s.nbytes + e.length = ((s.out.length + e.length : ℕ) : ℤ) := by
          rw [hn]
          push_cast
          rfl
        -- the `int` exceeds the capacity exactly when the output would
        have hfits : asSize bits (int32 (s.nbytes + e.length)) ≤ cap ↔
            s.out.length + e.length ≤ cap := by
          rw [hsum]
          by_cases h31 : s.out.length + e.length < 2 ^ 31
          · rw [(asSize_of_lt hbits h31).1, (asSize_of_lt hbits h31).2]
          · have hbig := le_asSize hbits (by omega)
              (show s.out.length + e.length < 2 ^ 32 by omega)
            omega
        rw [groups_some hgroup]
        rcases turn_some bits hlen hgroup hfits.mp with ⟨hbig, hturn⟩ | ⟨hfit, pos, hpos, hturn⟩
        · rw [hturn]
          refine ⟨_, rfl, ?_, nofun, List.prefix_append _ _, hroom⟩
          simp only [reduceCtorEq, false_iff, List.length_append]
          omega
        · have hout := hfits.mp hfit
          have hint : int32 (s.nbytes + e.length) = ((s.out ++ e).length : ℕ) := by
            rw [hsum, (asSize_of_lt hbits (by omega)).1, List.length_append]
          obtain ⟨r, hloop, hmeets⟩ := ih
            (s := ⟨pos, rest.length, int32 (s.nbytes + e.length), s.out ++ e⟩) (by rw [hpos]) hint
            (by rw [List.length_append]; exact hout) (by simp only; omega)
          rw [hturn]
          rw [hpos, List.append_assoc] at hmeets
          exact ⟨r, hloop, hmeets⟩

end Turn

lemma routerboot_rle_decode_meets {bits : ℕ} (hbits : 32 ≤ bits) {inp : List Byte}
    (h2 : 2 ≤ inp.length) {cap : ℕ} (hcap : cap < 2 ^ 31) :
    ∃ r, routerboot_rle_decode bits inp cap = .ok r ∧
      Meets cap (groups inp).1 (groups inp).2 r := by
  rw [routerboot_rle_decode, if_neg (by omega)]
  exact decodeLoop_spec (s := ⟨0, inp.length, 0, []⟩) hbits hcap rfl rfl (Nat.zero_le cap)
    (Nat.lt_succ_self _)

/-- Into an output of less than `2 ^ 31` bytes the decoder does what the groups of the input ask
for, and no access is outside the input or the output. -/
theorem routerboot_rle_decode_spec {bits : ℕ} (hbits : 32 ≤ bits) {inp : List Byte}
    (h2 : 2 ≤ inp.length) {cap : ℕ} (hcap : cap < 2 ^ 31) :
    ∃ r, routerboot_rle_decode bits inp cap = .ok r ∧
      Meets cap (groups inp).1 (groups inp).2 r :=
  routerboot_rle_decode_meets hbits h2 hcap

/-- Two bytes by a run and one verbatim. -/
theorem routerboot_rle_decode_three :
    routerboot_rle_decode 64 [2, 7, 255, 9] 3 = .ok ⟨none, 3, [7, 7, 9]⟩ ∧
      ∃ r, routerboot_rle_decode 64 [2, 7, 255, 9] 3 = .ok r ∧
        Meets 3 (groups [2, 7, 255, 9]).1 (groups [2, 7, 255, 9]).2 r :=
  ⟨by decide +kernel, routerboot_rle_decode_spec (by decide) (by decide) (by decide)⟩

/-! ## A large output -/

/-- Groups of 127 equal bytes each. -/
def fills (n : ℕ) : List Byte := (List.replicate n [127, 0]).flatten

lemma length_fills (n : ℕ) : (fills n).length = 2 * n := by
  simp [fills, Nat.mul_comm]

lemma nextGroup_fills (n : ℕ) :
    nextGroup (fills (n + 1)) = some (List.replicate 127 0, fills n) := rfl

lemma groups_fills (n : ℕ) : groups (fills n) = (List.replicate (127 * n) 0, []) := by
  induction n with
  | zero => exact groups_none rfl
  | succ n ih =>
    rw [groups_some (nextGroup_fills n), ih, ← List.replicate_add, Nat.mul_succ, Nat.add_comm]

/-- The decoder stops where the `int` overflows. -/
lemma decodeLoop_fills {inp : List Byte} {cap n fuel : ℕ} {s : St} (hdrop : inp.drop s.pos = fills n)
    (hlen : s.inlen = (fills n).length) (hn : s.nbytes = s.out.length)
    (hlow : s.out.length < 2 ^ 31) (hhigh : 2 ^ 31 ≤ s.out.length + 127 * n)
    (hroom : s.out.length + 127 * n ≤ cap) (hcap : cap ≤ 2 ^ 32) (hfuel : s.inlen < fuel) :
    ∃ r, decodeLoop 64 inp cap fuel s = .ok r ∧ r.ret = some .ENOSPC := by
  induction n generalizing s fuel with
  | zero => omega
  | succ n ih =>
    obtain ⟨fuel, rfl⟩ : ∃ k, fuel = k + 1 := ⟨fuel - 1, by omega⟩
    have hlong : s.inlen = (fills n).length + 2 := hlen
    have hgroup : nextGroup (inp.drop s.pos) = some (List.replicate 127 0, fills n) := by
      rw [hdrop]
      exact nextGroup_fills n
    have hsum : s.nbytes + (List.replicate 127 (0 : Byte)).length =
        ((s.out.length + 127 : ℕ) : ℤ) := by
      rw [hn, List.length_replicate]
      push_cast
      rfl
    have hspace : s.out.length + (List.replicate 127 (0 : Byte)).length ≤ cap := by
      rw [List.length_replicate]
      omega
    have hturn := turn_some 64 (by rw [hlen, hdrop]) hgroup fun _ => hspace
    rw [hsum] at hturn
    rw [decodeLoop, if_neg (by omega)]
    by_cases h31 : s.out.length + 127 < 2 ^ 31
    · obtain ⟨hint, hsize⟩ := asSize_of_lt (show 32 ≤ 64 by decide) h31
      rw [hint, hsize] at hturn
      rcases hturn with ⟨hbig, -⟩ | ⟨-, pos, hpos, hturn⟩
      · omega
      · rw [hturn]
        refine ih hpos rfl ?_ ?_ ?_ ?_ ?_
        all_goals simp only [List.length_append, List.length_replicate]
        all_goals omega
    · -- the sum is negative, and as a `size_t` beyond every capacity
      have hneg : int32 ((s.out.length + 127 : ℕ) : ℤ) = s.out.length + 127 - 2 ^ 32 := by
        rw [int32, Int.bmod_def, Int.emod_eq_of_lt (by omega) (by omega), if_neg (by omega)]
        push_cast
        rfl
      have hbig : cap < asSize 64 (int32 ((s.out.length + 127 : ℕ) : ℤ)) := by
        rw [hneg, asSize]
        omega
      rcases hturn with ⟨-, hturn⟩ | ⟨hfit, -⟩
      · rw [hturn]
        exact ⟨_, rfl, rfl⟩
      · omega

lemma decode_fills {n : ℕ} (h31 : 2 ^ 31 ≤ 127 * n) (h32 : 127 * n ≤ 2 ^ 32) :
    ∃ r, routerboot_rle_decode 64 (fills n) (2 ^ 32) = .ok r ∧ r.ret = some .ENOSPC := by
  have hlen := length_fills n
  rw [routerboot_rle_decode, if_neg (by omega)]
  refine decodeLoop_fills (n := n) List.drop_zero rfl rfl ?_ ?_ ?_ le_rfl (Nat.lt_succ_self _)
  all_goals simp only [List.length_nil]
  all_goals omega

lemma not_meets_fills {n : ℕ} (h31 : 2 ^ 31 ≤ 127 * n) (h32 : 127 * n ≤ 2 ^ 32) :
    ¬∃ r, routerboot_rle_decode 64 (fills n) (2 ^ 32) = .ok r ∧
      Meets (2 ^ 32) (groups (fills n)).1 (groups (fills n)).2 r := by
  obtain ⟨r, hr, hret⟩ := decode_fills h31 h32
  rintro ⟨r', hr', hmeets⟩
  rw [hr] at hr'
  cases hr'
  have hok := hmeets.ret.mpr (by
    rw [groups_fills, List.length_replicate]
    exact ⟨Nat.zero_le 1, h32⟩)
  rw [hret] at hok
  cases hok

/-- An output of `2 ^ 31` bytes or more is refused, though there is room for it. -/
theorem decode_huge :
    (groups (fills 16909321)).2 = [] ∧ (groups (fills 16909321)).1.length = 2147483767 ∧
      ¬∃ r, routerboot_rle_decode 64 (fills 16909321) (2 ^ 32) = .ok r ∧
        Meets (2 ^ 32) (groups (fills 16909321)).1 (groups (fills 16909321)).2 r := by
  refine ⟨by rw [groups_fills], ?_, not_meets_fills (by norm_num) (by norm_num)⟩
  rw [groups_fills, List.length_replicate]

end Mikrotik.Rle
