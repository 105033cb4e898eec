import Mt798x.Mikrotik.Lz77

/-!
# The format that the LZ77 decoder reads

A compressed blob is a sequence of groups: a literal byte, a non-matching run of at least twelve
bytes, a match with an offset of its own, a match with the previous offset.  The groups are
written with a prefix of one or two bits and with counters whose width grows with their value; an
empty non-matching run ends the blob.

The decoder expands every such blob, with one exception.  The end marker and a run of exactly
twelve bytes are written alike, and the decoder takes every one of them for the end unless the
*byte* length of the input exceeds its *bit* position by the bits of the run.
-/

namespace Mikrotik.Lz77

open Bytes Bits

/-! ## The format -/

/-- The low `k` bits of a number, high bit first. -/
def msb : ℕ → ℕ → List Bool
  | 0, _ => []
  | k + 1, x => x.testBit k :: msb k x

/-- A counter that starts at `shift`: set bits as long as the width grows, an unset bit, and the
rest of the value. -/
def encodeCount (shift v : ℕ) : List Bool :=
  let k := Nat.log2 (v + 2 ^ shift)
  List.replicate (k - shift) true ++ (false :: msb k (v + 2 ^ shift - 2 ^ k))

/-- A group of the format. -/
inductive Group where
  | literal (b : Byte)
  | run (bs : List Byte)
  | copy (offset length : ℕ)
  | again (length : ℕ)
  deriving DecidableEq, Repr

/-- The bits of a group. -/
def Group.bits : Group → List Bool
  | .literal b => false :: msb 8 b.toNat
  | .run bs => [true, true] ++ (encodeCount 4 0 ++
      (encodeCount 4 (bs.length - 12) ++ bs.flatMap fun b => msb 8 b.toNat))
  | .copy offset length => [true, true] ++ (encodeCount 4 offset ++ encodeCount 0 (length - 2))
  | .again length => [true, false] ++ encodeCount 0 (length - 1)

/-- The end marker: an empty non-matching run. -/
def endMarker : List Bool := [true, true] ++ (encodeCount 4 0 ++ encodeCount 4 0)

/-- A byte string is the encoding of a sequence of groups. -/
def Encodes (gs : List Group) (inp : List Byte) : Prop :=
  ∃ pad : List Bool, pad.length < 8 ∧ bitsOf inp = gs.flatMap Group.bits ++ (endMarker ++ pad)

/-- A counter keeps within `MIKRO_LZ77_MAX_COUNT_BIT_LEN`. -/
def CountFits (shift v : ℕ) : Prop := (encodeCount shift v).length ≤ MIKRO_LZ77_MAX_COUNT_BIT_LEN

instance (shift v : ℕ) : Decidable (CountFits shift v) :=
  inferInstanceAs (Decidable ((encodeCount shift v).length ≤ MIKRO_LZ77_MAX_COUNT_BIT_LEN))

/-- A group that may stand behind `w` bytes of output when the last match offset is `prev`. -/
def Group.Allowed (w prev : ℕ) : Group → Prop
  | .literal _ => True
  | .run bs => 12 ≤ bs.length ∧ CountFits 4 (bs.length - 12)
  | .copy offset length =>
    1 ≤ offset ∧ offset ≤ w ∧ 2 ≤ length ∧ CountFits 4 offset ∧ CountFits 0 (length - 2)
  | .again length => 1 ≤ length ∧ prev ≠ 0 ∧ CountFits 0 (length - 1)

/-- What a group expands to, behind the output so far. -/
def Group.expand (out : List Byte) (prev : ℕ) : Group → List Byte
  | .literal b => out ++ [b]
  | .run bs => out ++ bs
  | .copy offset length => expandMatch offset length out
  | .again length => expandMatch prev length out

/-- The match offset behind a group. -/
def Group.offset (prev : ℕ) : Group → ℕ
  | .copy offset _ => offset
  | _ => prev

/-- The reference expansion of a sequence of groups. -/
def expand : List Group → List Byte → ℕ → List Byte
  | [], out, _ => out
  | g :: gs, out, prev => expand gs (g.expand out prev) (g.offset prev)

/-- Every group of a sequence may stand where it does. -/
def WellFormed : List Group → List Byte → ℕ → Prop
  | [], _, _ => True
  | g :: gs, out, prev =>
    g.Allowed out.length prev ∧ WellFormed gs (g.expand out prev) (g.offset prev)

/-- Every run of exactly twelve bytes ends, counted in bits from its counters on, at a number that
is at most the length of the input in bytes. -/
def TwelveClear (in_len : ℕ) : ℕ → List Group → Prop
  | _, [] => True
  | pos, g :: gs =>
    (∀ bs, g = .run bs → bs.length = 12 → pos + 12 + 12 * 8 ≤ in_len) ∧
      TwelveClear in_len (pos + g.bits.length) gs

/-! ## Reading what was written -/

@[simp] lemma length_msb (k x : ℕ) : (msb k x).length = k := by
  induction k with
  | zero => rfl
  | succ k ih => rw [msb, List.length_cons, ih]

lemma getElem?_msb {k i : ℕ} (x : ℕ) (hi : i < k) :
    (msb k x)[i]? = some (x.testBit (k - 1 - i)) := by
  induction k generalizing i with
  | zero => omega
  | succ k ih =>
    cases i with
    | zero => rfl
    | succ i =>
      rw [msb, List.getElem?_cons_succ, ih (by omega), show k - 1 - i = k + 1 - 1 - (i + 1) by omega]

section Counters

variable {inp : List Byte} {pos : ℕ} {rest : List Bool}

lemma get_bit_of_drop {b : Bool} (h : (bitsOf inp).drop pos = b :: rest) :
    rb_lz77_get_bit inp pos = some b := by
  rw [rb_lz77_get_bit_eq, ← Nat.add_zero pos, ← List.getElem?_drop, h]
  rfl

lemma drop_of_cons {b : Bool} (h : (bitsOf inp).drop pos = b :: rest) :
    (bitsOf inp).drop (pos + 1) = rest := by
  rw [← List.drop_drop, h]
  rfl

lemma drop_of_append {a : List Bool} (h : (bitsOf inp).drop pos = a ++ rest) :
    (bitsOf inp).drop (pos + a.length) = rest := by
  rw [← List.drop_drop, h, List.drop_left]

lemma length_of_drop {a : List Bool} (h : (bitsOf inp).drop pos = a ++ rest)
    (ha : a ≠ []) : pos + a.length ≤ 8 * inp.length := by
  have hlen := congrArg List.length h
  have hpos : 0 < a.length := List.length_pos_iff.mpr ha
  rw [List.length_drop, length_bitsOf, List.length_append] at hlen
  omega

lemma countLoop_down {k left count x : ℕ} (h : (bitsOf inp).drop pos = msb (k + 1) x ++ rest)
    (hleft : k + 1 ≤ left) :
    countLoop inp left pos k false count =
      some (.ok (count + x % 2 ^ (k + 1), pos + (k + 1))) := by
  induction k generalizing left pos count with
  | zero =>
    obtain ⟨left, rfl⟩ : ∃ l, left = l + 1 := ⟨left - 1, by omega⟩
    have hbit := get_bit_of_drop (show (bitsOf inp).drop pos = x.testBit 0 :: rest from h)
    rw [countLoop, hbit, Nat.testBit_zero]
    rcases Nat.mod_two_eq_zero_or_one x with hx | hx <;> simp [hx]
  | succ k ih =>
    obtain ⟨left, rfl⟩ : ∃ l, left = l + 1 := ⟨left - 1, by omega⟩
    have hcons : (bitsOf inp).drop pos = x.testBit (k + 1) :: (msb (k + 1) x ++ rest) := h
    rw [countLoop, get_bit_of_drop hcons]
    simp only [Option.bind_some, Bool.false_and, Bool.false_eq_true, if_false, Nat.add_sub_cancel,
      Nat.add_eq_zero_iff, one_ne_zero, and_false]
    have hmod : x % 2 ^ (k + 1 + 1) = x % 2 ^ (k + 1) + 2 ^ (k + 1) * (x / 2 ^ (k + 1) % 2) :=
      Nat.mod_pow_succ
    rw [ih (drop_of_cons hcons) (by omega), hmod, Nat.testBit_eq_decide_div_mod_eq]
    rcases Nat.mod_two_eq_zero_or_one (x / 2 ^ (k + 1)) with hbit | hbit <;> simp [hbit] <;> omega

/-- A counter from its first bit on. -/
lemma countLoop_up {s u left count x : ℕ}
    (h : (bitsOf inp).drop pos = List.replicate u true ++ (false :: (msb (s + u) x ++ rest)))
    (hx : x < 2 ^ (s + u)) (hleft : 2 * u + s + 1 ≤ left) :
    countLoop inp left pos s true count =
      some (.ok (count + (2 ^ (s + u) - 2 ^ s) + x, pos + (2 * u + s + 1))) := by
  induction u generalizing s left pos count with
  | zero =>
    obtain ⟨left, rfl⟩ : ∃ l, left = l + 1 := ⟨left - 1, by omega⟩
    have hcons : (bitsOf inp).drop pos = false :: (msb s x ++ rest) := h
    rw [countLoop, get_bit_of_drop hcons]
    cases s with
    | zero =>
      have hx0 : x = 0 := by simpa using hx
      simp [hx0]
    | succ s =>
      simp only [Option.bind_some, Bool.and_false, Bool.false_eq_true, if_false,
        Nat.add_sub_cancel, Nat.add_eq_zero_iff, one_ne_zero, and_false]
      rw [countLoop_down (drop_of_cons hcons) (by omega), Nat.mod_eq_of_lt hx]
      simp
      omega
  | succ u ih =>
    obtain ⟨left, rfl⟩ : ∃ l, left = l + 1 := ⟨left - 1, by omega⟩
    have hcons : (bitsOf inp).drop pos =
        true :: (List.replicate u true ++ (false :: (msb (s + (u + 1)) x ++ rest))) := by
      rw [h, List.replicate_succ]
      rfl
    have hsu : s + (u + 1) = s + 1 + u := by omega
    have hpow : 2 ^ (s + 1) ≤ 2 ^ (s + 1 + u) := Nat.pow_le_pow_right (by decide) (by omega)
    have hdouble : 2 ^ (s + 1) = 2 * 2 ^ s := by rw [pow_succ, mul_comm]
    rw [countLoop, get_bit_of_drop hcons]
    simp only [Option.bind_some, Bool.and_self, if_true]
    rw [hsu] at hcons hx ⊢
    rw [ih (drop_of_cons hcons) hx (by omega)]
    simp
    omega

/-- A counter is given by the number of its set bits and by the rest of its value. -/
lemma encodeCount_spec (shift v : ℕ) : ∃ u x, x < 2 ^ (shift + u) ∧
    v + 2 ^ shift = 2 ^ (shift + u) + x ∧ encodeCount shift v =
      List.replicate u true ++ (false :: msb (shift + u) x) := by
  have hpos : 0 < v + 2 ^ shift := Nat.add_pos_right v (Nat.two_pow_pos shift)
  have hle : 2 ^ Nat.log2 (v + 2 ^ shift) ≤ v + 2 ^ shift := Nat.log2_self_le hpos.ne'
  have hlt : v + 2 ^ shift < 2 ^ (Nat.log2 (v + 2 ^ shift) + 1) := Nat.lt_log2_self
  have hk : shift ≤ Nat.log2 (v + 2 ^ shift) := by
    rw [Nat.le_log2 hpos.ne']
    omega
  have hsplit : shift + (Nat.log2 (v + 2 ^ shift) - shift) = Nat.log2 (v + 2 ^ shift) := by omega
  refine ⟨Nat.log2 (v + 2 ^ shift) - shift, v + 2 ^ shift - 2 ^ Nat.log2 (v + 2 ^ shift),
    ?_, ?_, ?_⟩
  · rw [hsplit]
    rw [pow_succ] at hlt
    omega
  · rw [hsplit]
    omega
  · rw [hsplit, encodeCount]

/-- A counter that keeps within a limit and the input reads back as its value. -/
lemma decode_count_of_drop {shift v max_bits : ℕ} (count : ℕ)
    (h : (bitsOf inp).drop pos = encodeCount shift v ++ rest)
    (hfits : (encodeCount shift v).length ≤ max_bits) :
    rb_lz77_decode_count inp pos shift count max_bits =
      some (.ok (count + v, (encodeCount shift v).length)) := by
  obtain ⟨u, x, hx, hv, henc⟩ := encodeCount_spec shift v
  have hlen : (encodeCount shift v).length = 2 * u + shift + 1 := by
    rw [henc, List.length_append, List.length_replicate, List.length_cons, length_msb]
    omega
  have hend := length_of_drop h (by simp [encodeCount])
  have hpow : 2 ^ shift ≤ 2 ^ (shift + u) := Nat.pow_le_pow_right (by decide) (by omega)
  have hleft : 2 * u + shift + 1 ≤ min (pos + max_bits) (8 * inp.length) - pos := by omega
  rw [hlen]
  rw [henc, List.append_assoc, List.cons_append] at h
  rw [rb_lz77_decode_count, countLoop_up h hx hleft]
  simp only [Option.map_some, Except.map, Option.some.injEq, Except.ok.injEq, Prod.mk.injEq]
  omega

lemma decode_encodeCount {shift v : ℕ} (count : ℕ)
    (h : (bitsOf inp).drop pos = encodeCount shift v ++ rest) (hfits : CountFits shift v) :
    rb_lz77_decode_count inp pos shift count MIKRO_LZ77_MAX_COUNT_BIT_LEN =
      some (.ok (count + v, (encodeCount shift v).length)) :=
  decode_count_of_drop count h hfits

lemma sum_bits (b : Byte) :
    (List.range 8).foldl (fun (buf : Byte) i =>
      buf + UInt8.ofNat (if b.toNat.testBit (7 - i) then 2 ^ (7 - i) else 0)) 0 = b := by
  have hall : ∀ n < 256, (List.range 8).foldl (fun (buf : Byte) i =>
      buf + UInt8.ofNat (if n.testBit (7 - i) then 2 ^ (7 - i) else 0)) 0 = UInt8.ofNat n := by
    decide +kernel
  rw [hall b.toNat b.toNat_lt, UInt8.ofNat_toNat]

lemma get_byte_of_drop {b : Byte} (h : (bitsOf inp).drop pos = msb 8 b.toNat ++ rest) :
    rb_lz77_get_byte inp pos = some b := by
  have hbit : ∀ i < 8, rb_lz77_get_bit inp (pos + i) = some (b.toNat.testBit (7 - i)) := by
    intro i hi
    rw [rb_lz77_get_bit_eq, ← List.getElem?_drop, h,
      List.getElem?_append_left (by simpa using hi), getElem?_msb _ hi]
  rw [← sum_bits b]
  simp only [rb_lz77_get_byte, List.range, List.range.loop, List.foldlM_cons, List.foldlM_nil,
    List.foldl_cons, List.foldl_nil, hbit 0 (by decide), hbit 1 (by decide), hbit 2 (by decide),
    hbit 3 (by decide), hbit 4 (by decide), hbit 5 (by decide), hbit 6 (by decide),
    hbit 7 (by decide)]
  rfl

lemma copyBytes_of_drop {bs out : List Byte} {cap : ℕ}
    (h : (bitsOf inp).drop pos = (bs.flatMap fun b => msb 8 b.toNat) ++ rest)
    (hcap : out.length + bs.length ≤ cap) :
    copyBytes inp cap bs.length pos out = some (pos + 8 * bs.length, out ++ bs) := by
  induction bs generalizing pos out with
  | nil => simp [copyBytes]
  | cons b bs ih =>
    have hb : (bitsOf inp).drop pos =
        msb 8 b.toNat ++ ((bs.flatMap fun b => msb 8 b.toNat) ++ rest) := by
      rw [h, List.flatMap_cons, List.append_assoc]
    have hnext := drop_of_append hb
    rw [List.length_cons] at hcap
    rw [length_msb] at hnext
    rw [List.length_cons, copyBytes, get_byte_of_drop hb, Option.bind_some, if_pos (by omega),
      ih hnext (by rw [List.length_append, List.length_singleton]; omega), List.append_assoc]
    congr 2
    omega

lemma length_encodeCount_four_zero : (encodeCount 4 0).length = 5 := by decide

@[simp] lemma length_flatMap_msb (bs : List Byte) :
    (bs.flatMap fun b => msb 8 b.toNat).length = 8 * bs.length := by
  induction bs with
  | nil => rfl
  | cons b bs ih =>
    rw [List.flatMap_cons, List.length_append, length_msb, ih, List.length_cons]
    omega

/-- The instruction that the decoder reads for a group: the bits in front of the bytes of a
literal or a run, all bits of a match. -/
def Group.opcode (prev : ℕ) : Group → Opcode
  | .literal _ => ⟨.LITERAL_BYTE, 0, 1, 1⟩
  | .run bs => ⟨.LONG, 0, bs.length, 7 + (encodeCount 4 (bs.length - 12)).length⟩
  | .copy offset length =>
    ⟨.LONG, offset, length,
      2 + (encodeCount 4 offset).length + (encodeCount 0 (length - 2)).length⟩
  | .again length => ⟨.PREVIOUS_OFFSET, prev, length, 2 + (encodeCount 0 (length - 1)).length⟩

lemma prefix_of_drop {b₁ b₂ : Bool} (h : (bitsOf inp).drop pos = [b₁, b₂] ++ rest) :
    rb_lz77_get_bit inp pos = some b₁ ∧ rb_lz77_get_bit inp (pos + 1) = some b₂ ∧
      (bitsOf inp).drop (pos + 2) = rest := by
  have h1 : (bitsOf inp).drop pos = b₁ :: (b₂ :: rest) := h
  exact ⟨get_bit_of_drop h1, get_bit_of_drop (drop_of_cons h1), drop_of_cons (drop_of_cons h1)⟩

lemma operators_nonmatch {v prev : ℕ} (h : (bitsOf inp).drop pos =
    [true, true] ++ (encodeCount 4 0 ++ (encodeCount 4 v ++ rest))) (hfits : CountFits 4 v) :
    rb_lz77_decode_instruction_operators inp pos prev =
      some (.ok ⟨.LONG, 0, 12 + v, 7 + (encodeCount 4 v).length⟩) := by
  obtain ⟨hb1, hb2, hrest⟩ := prefix_of_drop h
  have hc1 := decode_encodeCount 0 hrest (by decide)
  have hc2 := decode_encodeCount 12 (drop_of_append hrest) hfits
  rw [length_encodeCount_four_zero] at hc1 hc2
  simp only [rb_lz77_decode_instruction_operators, rb_lz77_decode_instruction, hb1, hb2, hc1, hc2,
    Option.bind_some, Option.map_some, if_true, Except.map, Nat.add_zero]

/-- Every group is decoded to its instruction. -/
lemma operators_of_drop {g : Group} {w prev : ℕ} (h : (bitsOf inp).drop pos = g.bits ++ rest)
    (hg : g.Allowed w prev) :
    rb_lz77_decode_instruction_operators inp pos prev = some (.ok (g.opcode prev)) := by
  cases g with
  | literal b =>
    have hbit := get_bit_of_drop (show (bitsOf inp).drop pos = false :: (msb 8 b.toNat ++ rest)
      from h)
    simp [rb_lz77_decode_instruction_operators, rb_lz77_decode_instruction, hbit, Group.opcode]
  | run bs =>
    obtain ⟨hlen, hfits⟩ := hg
    have hsplit : (bitsOf inp).drop pos = [true, true] ++ (encodeCount 4 0 ++
        (encodeCount 4 (bs.length - 12) ++ ((bs.flatMap fun b => msb 8 b.toNat) ++ rest))) := by
      rw [h]
      simp only [Group.bits, List.append_assoc]
    rw [operators_nonmatch hsplit hfits, show 12 + (bs.length - 12) = bs.length by omega]
    rfl
  | copy offset length =>
    obtain ⟨hoff, -, hlen, hfits1, hfits2⟩ := hg
    obtain ⟨hb1, hb2, hrest⟩ := prefix_of_drop
      (show (bitsOf inp).drop pos = [true, true] ++
        ((encodeCount 4 offset ++ encodeCount 0 (length - 2)) ++ rest) from h)
    rw [List.append_assoc] at hrest
    have hc1 := decode_encodeCount 0 hrest hfits1
    have hc2 := decode_encodeCount 2 (drop_of_append hrest) hfits2
    simp only [rb_lz77_decode_instruction_operators, rb_lz77_decode_instruction, hb1, hb2, hc1, hc2,
      Option.bind_some, Option.map_some, if_true, Except.map, Nat.zero_add]
    rw [if_neg (by omega), show 2 + (length - 2) = length by omega]
    rfl
  | again length =>
    obtain ⟨hlen, -, hfits⟩ := hg
    obtain ⟨hb1, hb2, hrest⟩ := prefix_of_drop
      (show (bitsOf inp).drop pos = [true, false] ++ (encodeCount 0 (length - 1) ++ rest) from h)
    have hc := decode_encodeCount 1 hrest hfits
    simp only [rb_lz77_decode_instruction_operators, rb_lz77_decode_instruction, hb1, hb2, hc,
      Option.bind_some, Option.map_some, if_true, Bool.false_eq_true, if_false, Except.map]
    rw [show 1 + (length - 1) = length by omega]
    rfl

end Counters

/-! ## Decoding a sequence of groups -/

/-- A run of twelve bytes that the decoder takes for the end marker. -/
def Group.Misread (in_len pos : ℕ) (g : Group) : Prop :=
  ∃ bs, g = .run bs ∧ bs.length = 12 ∧ in_len < pos + 12 + 12 * 8

lemma length_expand {g : Group} (out : List Byte) {prev w : ℕ} (hg : g.Allowed w prev) :
    out.length < (g.expand out prev).length := by
  cases g with
  | literal b => simp [Group.expand]
  | run bs =>
    have := hg.1
    rw [Group.expand, List.length_append]
    omega
  | copy offset length =>
    have := hg.2.2.1
    rw [Group.expand, length_expandMatch]
    omega
  | again length =>
    have := hg.1
    rw [Group.expand, length_expandMatch]
    omega

lemma length_le_expand {gs : List Group} {out : List Byte} {prev : ℕ}
    (hgs : WellFormed gs out prev) : out.length ≤ (expand gs out prev).length := by
  induction gs generalizing out prev with
  | nil => exact le_rfl
  | cons g gs ih =>
    have h1 := length_expand out hgs.1
    have h2 := ih hgs.2
    rw [expand]
    omega

section Decoding

variable {inp : List Byte} {cap pos prev : ℕ} {out : List Byte} {rest : List Bool} {g : Group}

/-- A group that is not misread is expanded. -/
lemma turn_group (h : (bitsOf inp).drop pos = g.bits ++ rest) (hg : g.Allowed out.length prev)
    (hprev : prev ≤ out.length) (hcap : (g.expand out prev).length ≤ cap)
    (hread : ¬ g.Misread inp.length pos) :
    turn inp cap ⟨pos, out, prev⟩ =
      .next ⟨pos + g.bits.length, g.expand out prev, g.offset prev⟩ := by
  have hend := length_of_drop h (by cases g <;> simp [Group.bits])
  have hgrow := length_expand out hg
  have hop := operators_of_drop h hg
  have hpos : pos ≤ 8 * inp.length := by omega
  cases g with
  | literal b =>
    have hbyte : (bitsOf inp).drop (pos + 1) =
        (([b] : List Byte).flatMap fun b => msb 8 b.toNat) ++ rest := by
      rw [List.flatMap_singleton]
      exact drop_of_cons (show (bitsOf inp).drop pos = false :: (msb 8 b.toNat ++ rest) from h)
    have hcopy := copyBytes_of_drop hbyte
      (show out.length + ([b] : List Byte).length ≤ cap by simpa [Group.expand] using hcap)
    rw [turn_nonmatch hpos (by dsimp only; omega) hop ⟨by simp [Group.opcode], rfl⟩
      (by simp [Group.opcode, Opcode.EndMarker]) hcopy]
    simp [Group.bits, Group.expand, Group.offset]
  | run bs =>
    have hbytes : (bitsOf inp).drop (pos + (7 + (encodeCount 4 (bs.length - 12)).length)) =
        (bs.flatMap fun b => msb 8 b.toNat) ++ rest := by
      have hsplit : (bitsOf inp).drop pos = ([true, true] ++ (encodeCount 4 0 ++
          encodeCount 4 (bs.length - 12))) ++ ((bs.flatMap fun b => msb 8 b.toNat) ++ rest) := by
        rw [h]
        simp only [Group.bits, List.append_assoc]
      have hdrop := drop_of_append hsplit
      simp only [List.length_append, length_encodeCount_four_zero, List.length_cons,
        List.length_nil] at hdrop
      rw [show 7 + (encodeCount 4 (bs.length - 12)).length =
        0 + 1 + 1 + (5 + (encodeCount 4 (bs.length - 12)).length) by omega]
      exact hdrop
    have hcopy := copyBytes_of_drop hbytes
      (show out.length + bs.length ≤ cap by simpa [Group.expand] using hcap)
    have hmark : ¬ (Group.opcode prev (.run bs)).EndMarker inp.length
        (pos + (Group.opcode prev (.run bs)).bits_used) := by
      rintro ⟨hlen, hpast⟩
      have hlen' : bs.length = 12 := hlen
      refine hread ⟨bs, rfl, hlen', ?_⟩
      simp only [Group.opcode, hlen', Nat.sub_self, length_encodeCount_four_zero] at hpast
      omega
    rw [turn_nonmatch hpos (by dsimp only; omega) hop ⟨by simp [Group.opcode], rfl⟩ hmark hcopy]
    simp only [Group.bits, Group.expand, Group.offset, List.length_append, List.length_cons,
      List.length_nil, length_encodeCount_four_zero, length_flatMap_msb, Turn.next.injEq,
      Dec.mk.injEq, and_true]
    omega
  | copy offset length =>
    obtain ⟨hoff, hle, -, -, -⟩ := hg
    have hnm : ¬ (Group.opcode prev (.copy offset length)).NonMatch := by
      simp only [Group.opcode, Opcode.NonMatch]
      omega
    have hcap' : out.length + length ≤ cap := by simpa [Group.expand] using hcap
    have hoff0 : offset ≠ 0 := by omega
    have hturn : turn inp cap ⟨pos, out, prev⟩ = _ := turn_match hpos hcap' hop hnm hoff0 hle
    rw [hturn]
    simp [Group.opcode, Group.bits, Group.expand, Group.offset]
    omega
  | again length =>
    obtain ⟨-, hprev0, -⟩ := hg
    have hnm : ¬ (Group.opcode prev (.again length)).NonMatch := by
      simp [Group.opcode, Opcode.NonMatch]
    have hcap' : out.length + length ≤ cap := by simpa [Group.expand] using hcap
    have hturn : turn inp cap ⟨pos, out, prev⟩ = _ := turn_match hpos hcap' hop hnm hprev0 hprev
    rw [hturn]
    simp [Group.opcode, Group.bits, Group.expand, Group.offset]
    omega

lemma turn_misread (h : (bitsOf inp).drop pos = g.bits ++ rest) (hg : g.Allowed out.length prev)
    (hcap : out.length ≤ cap) (hread : g.Misread inp.length pos) :
    turn inp cap ⟨pos, out, prev⟩ = .ret (.ok out) := by
  have hend := length_of_drop h (by cases g <;> simp [Group.bits])
  obtain ⟨bs, rfl, hlen, hpast⟩ := hread
  have hmark : (Group.opcode prev (.run bs)).EndMarker inp.length
      (pos + (Group.opcode prev (.run bs)).bits_used) := by
    refine ⟨hlen, ?_⟩
    simp only [Group.opcode, hlen, Nat.sub_self, length_encodeCount_four_zero]
    omega
  exact turn_marker (by dsimp only; omega) hcap (operators_of_drop h hg)
    ⟨by simp [Group.opcode], rfl⟩ hmark

lemma turn_endMarker {pad : List Bool} (h : (bitsOf inp).drop pos = endMarker ++ pad)
    (hpad : pad.length < 8) (hcap : out.length ≤ cap) :
    turn inp cap ⟨pos, out, prev⟩ = .ret (.ok out) := by
  have hend := length_of_drop h (by simp [endMarker])
  have hlen := congrArg List.length h
  have hop : rb_lz77_decode_instruction_operators inp pos prev =
      some (.ok ⟨.LONG, 0, 12, 12⟩) := by
    rw [endMarker, List.append_assoc, List.append_assoc] at h
    exact operators_nonmatch h (by decide)
  have hmark : (⟨.LONG, 0, 12, 12⟩ : Opcode).EndMarker inp.length (pos + 12) := by
    rw [List.length_drop, length_bitsOf, List.length_append,
      show endMarker.length = 12 by decide] at hlen
    exact ⟨rfl, by dsimp only; omega⟩
  exact turn_marker (by dsimp only; omega) hcap hop ⟨by simp, rfl⟩ hmark

lemma offset_le_expand (hg : g.Allowed out.length prev) (hprev : prev ≤ out.length) :
    g.offset prev ≤ (g.expand out prev).length := by
  have hgrow := length_expand out hg
  cases g with
  | copy offset length => exact le_trans hg.2.1 hgrow.le
  | literal b => exact le_trans hprev hgrow.le
  | run bs => exact le_trans hprev hgrow.le
  | again length => exact le_trans hprev hgrow.le

/-- The rest of a run over well-formed groups: it expands them all when no run of twelve bytes is
misread, and stops short of their expansion when one is. -/
lemma loop_groups {gs : List Group} {pad : List Bool} {fuel : ℕ}
    (h : (bitsOf inp).drop pos = gs.flatMap Group.bits ++ (endMarker ++ pad))
    (hpad : pad.length < 8) (hgs : WellFormed gs out prev) (hprev : prev ≤ out.length)
    (hcap : (expand gs out prev).length ≤ cap) (hfuel : 8 * inp.length - pos < fuel) :
    (TwelveClear inp.length pos gs →
      loop inp cap fuel ⟨pos, out, prev⟩ = some (.ret (.ok (expand gs out prev)))) ∧
    (¬ TwelveClear inp.length pos gs → ∃ out', out'.length < (expand gs out prev).length ∧
      loop inp cap fuel ⟨pos, out, prev⟩ = some (.ret (.ok out'))) := by
  induction gs generalizing pos out prev fuel with
  | nil =>
    obtain ⟨fuel, rfl⟩ : ∃ f, fuel = f + 1 := ⟨fuel - 1, by omega⟩
    have hcap' : out.length ≤ cap := hcap
    rw [loop, turn_endMarker h hpad hcap']
    exact ⟨fun _ => rfl, fun hclear => absurd trivial hclear⟩
  | cons g gs ih =>
    obtain ⟨fuel, rfl⟩ : ∃ f, fuel = f + 1 := ⟨fuel - 1, by omega⟩
    have hrest : (bitsOf inp).drop pos =
        g.bits ++ (gs.flatMap Group.bits ++ (endMarker ++ pad)) := by
      rw [h, List.flatMap_cons, List.append_assoc]
    have hne : g.bits ≠ [] := by cases g <;> simp [Group.bits]
    have hend := length_of_drop hrest hne
    have hpos := List.length_pos_iff.mpr hne
    have hgrow := length_expand out hgs.1
    have hlater := length_le_expand hgs.2
    rw [expand] at hcap ⊢
    by_cases hread : g.Misread inp.length pos
    · have hnot : ¬ TwelveClear inp.length pos (g :: gs) := by
        obtain ⟨bs, rfl, hlen, hpast⟩ := hread
        intro hclear
        have := hclear.1 bs rfl hlen
        omega
      rw [loop, turn_misread hrest hgs.1 (by omega) hread]
      exact ⟨fun hclear => absurd hclear hnot, fun _ => ⟨out, by omega, rfl⟩⟩
    · have hhead : ∀ bs, g = .run bs → bs.length = 12 → pos + 12 + 12 * 8 ≤ inp.length := by
        intro bs hbs hlen
        by_contra hpast
        exact hread ⟨bs, hbs, hlen, by omega⟩
      rw [loop, turn_group hrest hgs.1 hprev (by omega) hread, TwelveClear, and_iff_right hhead]
      exact ih (drop_of_append hrest) hgs.2 (offset_le_expand hgs.1 hprev) hcap (by omega)

end Decoding

/-- **The decoder and its format.**  On the encoding of a well-formed sequence of groups, with an
output buffer large enough, the decoder returns exactly the expansion of the sequence if and only
if every run of exactly twelve bytes is clear of the test of the end marker. -/
theorem decompress_expand_iff {gs : List Group} {inp : List Byte} {cap : ℕ}
    (hgs : WellFormed gs [] 0) (hinp : Encodes gs inp) (hcap : (expand gs [] 0).length ≤ cap) :
    rb_lz77_decompress inp cap = some (.ret (.ok (expand gs [] 0))) ↔
      TwelveClear inp.length 0 gs := by
  obtain ⟨pad, hpad, hbits⟩ := hinp
  have hdrop : (bitsOf inp).drop 0 = gs.flatMap Group.bits ++ (endMarker ++ pad) := hbits
  have hfuel : 8 * inp.length - 0 < 8 * inp.length + 1 := by omega
  obtain ⟨hclear, hshort⟩ := loop_groups hdrop hpad hgs le_rfl hcap hfuel
  constructor
  · intro hexp
    by_contra hnot
    obtain ⟨out, hlen, hout⟩ := hshort hnot
    rw [rb_lz77_decompress, hout] at hexp
    cases hexp
    exact lt_irrefl _ hlen
  · exact hclear

/-- A literal byte, a match that overlaps itself and a match with the same offset. -/
def sampleGroups : List Group := [.literal 0x41, .copy 1 3, .again 2]

theorem decompress_sample : TwelveClear 5 0 sampleGroups ∧
    rb_lz77_decompress [0x04, 0x87, 0x29, 0x03, 0x00] 64 =
      some (.ret (.ok (expand sampleGroups [] 0))) ∧
    expand sampleGroups [] 0 = [0x41, 0x41, 0x41, 0x41, 0x41, 0x41] := by
  have hgs : WellFormed sampleGroups [] 0 :=
    ⟨trivial, ⟨by decide, by decide, by decide, by decide, by decide⟩,
      ⟨by decide, by decide, by decide⟩, trivial⟩
  have hinp : Encodes sampleGroups [0x04, 0x87, 0x29, 0x03, 0x00] :=
    ⟨[false, false, false, false], by decide, by decide⟩
  have hcap : (expand sampleGroups [] 0).length ≤ 64 := by decide
  have hclear : TwelveClear 5 0 sampleGroups := ⟨nofun, nofun, nofun, trivial⟩
  exact ⟨hclear, (decompress_expand_iff hgs hinp hcap).mpr hclear, by decide⟩

/-- One run of twelve zero bytes, and the blob that encodes it. -/
def twelveZeros : List Group := [.run (List.replicate 12 0)]

def twelveZerosBlob : List Byte := 0x03 :: (List.replicate 12 0 ++ [0x30, 0x00])

/-- The run is taken for the end marker: the decoder reports success and no output. -/
theorem decompress_twelve_lost : WellFormed twelveZeros [] 0 ∧
    Encodes twelveZeros twelveZerosBlob ∧ (expand twelveZeros [] 0).length = 12 ∧
    rb_lz77_decompress twelveZerosBlob 64 = some (.ret (.ok [])) ∧
    rb_lz77_decompress twelveZerosBlob 64 ≠ some (.ret (.ok (expand twelveZeros [] 0))) := by
  have hrun : rb_lz77_decompress twelveZerosBlob 64 = some (.ret (.ok [])) := by rfl
  refine ⟨⟨⟨by decide, by decide⟩, trivial⟩, ⟨[], by decide, by decide⟩, by decide, hrun, ?_⟩
  rw [hrun]
  intro h
  cases h

end Mikrotik.Lz77
