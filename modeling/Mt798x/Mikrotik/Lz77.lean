import Mt798x.Lib.Bits
import Mt798x.Mikrotik.Tags

/-!
# The RouterBOOT LZ77 decoder

`rb_lz77_decompress` reads a compressed calibration blob bit by bit.  The model checks every
access: a bit is read from a byte of the input, a byte is written below the capacity of the output
and copied from what has been written, and an access anywhere else is a fault of the run.

The counters check the end of the input, the copies check the end of the output; the prefix of a
group, a literal byte and a non-matching run check neither.  `Fits` says, group by group, what has
to be true of an input and a capacity for these to stay inside, and it decides safety.
-/

namespace Mikrotik.Lz77

open Bytes Bits

/-! ## Reading -/

/-- `MIKRO_LZ77_MAX_COUNT_BIT_LEN` -/
def MIKRO_LZ77_MAX_COUNT_BIT_LEN : ℕ := 27

/-- `rb_lz77_get_bit`; a bit behind the input is not there. -/
def rb_lz77_get_bit (inp : List Byte) (in_offset_bit : ℕ) : Option Bool :=
  inp[in_offset_bit / 8]?.map fun b => b.toNat.testBit (in_offset_bit % 8)

/-- `rb_lz77_get_byte`: eight bits, the high bit first. -/
def rb_lz77_get_byte (inp : List Byte) (in_offset_bit : ℕ) : Option Byte :=
  (List.range 8).foldlM (fun (buf : Byte) i =>
    (rb_lz77_get_bit inp (in_offset_bit + i)).map fun bit =>
      buf + UInt8.ofNat (if bit then 2 ^ (7 - i) else 0)) 0

/-- The loop of `rb_lz77_decode_count` with `left` bits to `max_pos`: the count and the bit
behind it. -/
def countLoop (inp : List Byte) : ℕ → ℕ → ℕ → Bool → ℕ → Option (Except Errno (ℕ × ℕ))
  | 0, _, _, _, _ => some (.error .EFBIG)
  | left + 1, pos, shift, up, count =>
    (rb_lz77_get_bit inp pos).bind fun bit =>
      let count := if bit then count + 2 ^ shift else count
      let up := up && bit
      if up then countLoop inp left (pos + 1) (shift + 1) up count
      else if shift = 0 then some (.ok (count, pos + 1))
      else countLoop inp left (pos + 1) (shift - 1) up count

/-- `rb_lz77_decode_count`: the count and the number of bits it took. -/
def rb_lz77_decode_count (inp : List Byte) (in_offset_bit shift count max_bits : ℕ) :
    Option (Except Errno (ℕ × ℕ)) :=
  let max_pos := min (in_offset_bit + max_bits) (8 * inp.length)
  (countLoop inp (max_pos - in_offset_bit) in_offset_bit shift true count).map fun r =>
    r.map fun (count, pos) => (count, pos - in_offset_bit)

/-- `enum rb_lz77_instruction`; `INSTR_ERROR` is never decoded. -/
inductive Instr where
  | LITERAL_BYTE
  | PREVIOUS_OFFSET
  | LONG
  deriving DecidableEq, Repr

/-- `rb_lz77_decode_instruction`: the instruction and the number of bits it took. -/
def rb_lz77_decode_instruction (inp : List Byte) (in_offset_bit : ℕ) : Option (Instr × ℕ) :=
  (rb_lz77_get_bit inp in_offset_bit).bind fun bit =>
    if bit then
      (rb_lz77_get_bit inp (in_offset_bit + 1)).map fun bit =>
        if bit then (.LONG, 2) else (.PREVIOUS_OFFSET, 2)
    else some (.LITERAL_BYTE, 1)

/-- `struct rb_lz77_instr_opcodes` -/
structure Opcode where
  instruction : Instr
  offset : ℕ
  length : ℕ
  bits_used : ℕ
  deriving DecidableEq, Repr

/-- `rb_lz77_decode_instruction_operators` -/
def rb_lz77_decode_instruction_operators (inp : List Byte) (in_offset_bit previous_offset : ℕ) :
    Option (Except Errno Opcode) :=
  (rb_lz77_decode_instruction inp in_offset_bit).bind fun (instruction, bits_used) =>
    match instruction with
    | .LITERAL_BYTE => some (.ok ⟨instruction, 0, 1, bits_used⟩)
    | .PREVIOUS_OFFSET =>
      (rb_lz77_decode_count inp (in_offset_bit + bits_used) 0 1
        MIKRO_LZ77_MAX_COUNT_BIT_LEN).map fun r =>
          r.map fun (length, n) => ⟨instruction, previous_offset, length, bits_used + n⟩
    | .LONG =>
      (rb_lz77_decode_count inp (in_offset_bit + bits_used) 4 0
        MIKRO_LZ77_MAX_COUNT_BIT_LEN).bind fun r =>
          match r with
          | .error err => some (.error err)
          | .ok (offset, n) =>
            if offset = 0 then
              (rb_lz77_decode_count inp (in_offset_bit + bits_used + n) 4 12
                MIKRO_LZ77_MAX_COUNT_BIT_LEN).map fun r =>
                  r.map fun (length, m) => ⟨instruction, offset, length, bits_used + n + m⟩
            else
              (rb_lz77_decode_count inp (in_offset_bit + bits_used + n) 0 2
                MIKRO_LZ77_MAX_COUNT_BIT_LEN).map fun r =>
                  r.map fun (length, m) => ⟨instruction, offset, length, bits_used + n + m⟩

/-! ## Writing -/

/-- The loop over the bytes of a non-matching group. -/
def copyBytes (inp : List Byte) (cap : ℕ) : ℕ → ℕ → List Byte → Option (ℕ × List Byte)
  | 0, input_bit, out => some (input_bit, out)
  | i + 1, input_bit, out =>
    (rb_lz77_get_byte inp input_bit).bind fun b =>
      if out.length < cap then copyBytes inp cap i (input_bit + 8) (out ++ [b]) else none

/-- `memcpy(output_ptr, output_ptr - offset, n)`, from written bytes to bytes of the buffer. -/
def memcpyBack (cap offset n : ℕ) (out : List Byte) : Option (List Byte) :=
  if offset ≤ out.length ∧ n ≤ offset ∧ out.length + n ≤ cap then
    some (out ++ (out.drop (out.length - offset)).take n)
  else none

/-- The copy of a match, in chunks of its offset. -/
def matchCopy (cap offset : ℕ) : ℕ → ℕ → List Byte → Option (List Byte)
  | 0, _, _ => none
  | fuel + 1, match_length, out =>
    if offset < match_length then
      (memcpyBack cap offset offset out).bind (matchCopy cap offset fuel (match_length - offset))
    else memcpyBack cap offset match_length out

/-! ## The decoder -/

/-- The variables of the decoder: the input position in bits, the bytes written, and the last
match offset. -/
structure Dec where
  input_bit : ℕ
  out : List Byte
  match_offset : ℕ

/-- How a turn of the loop ends. -/
inductive Turn where
  | fault
  | ret (rc : Except Errno (List Byte))
  | next (st : Dec)

/-- A group without a match offset: the bytes of the group stand in the input. -/
def Opcode.NonMatch (op : Opcode) : Prop := op.instruction ≠ .PREVIOUS_OFFSET ∧ op.offset = 0

instance (op : Opcode) : Decidable op.NonMatch :=
  inferInstanceAs (Decidable (op.instruction ≠ .PREVIOUS_OFFSET ∧ op.offset = 0))

/-- The test of the end marker; `input_bit` counts bits and `in_len` bytes. -/
def Opcode.EndMarker (op : Opcode) (in_len input_bit : ℕ) : Prop :=
  op.length = 0xc ∧ in_len < input_bit + op.length * 8

instance (op : Opcode) (in_len input_bit : ℕ) : Decidable (op.EndMarker in_len input_bit) :=
  inferInstanceAs (Decidable (op.length = 0xc ∧ in_len < input_bit + op.length * 8))

/-- One turn of the loop of `rb_lz77_decompress`. -/
def turn (inp : List Byte) (cap : ℕ) (st : Dec) : Turn :=
  if cap < st.out.length then .ret (.error .EOVERFLOW)
  else if 8 * inp.length < st.input_bit then .ret (.error .ENODATA)
  else
    match rb_lz77_decode_instruction_operators inp st.input_bit st.match_offset with
    | none => .fault
    | some (.error err) => .ret (.error err)
    | some (.ok opcode) =>
      let input_bit := st.input_bit + opcode.bits_used
      if opcode.NonMatch then
        if opcode.EndMarker inp.length input_bit then .ret (.ok st.out)
        else
          match copyBytes inp cap opcode.length input_bit st.out with
          | none => .fault
          | some (input_bit, out) => .next ⟨input_bit, out, st.match_offset⟩
      else if opcode.offset = 0 then .ret (.error .EBADMSG)
      else if cap < st.out.length + opcode.length then .ret (.error .ENOBUFS)
      else if st.out.length < opcode.offset then .ret (.error .ESPIPE)
      else
        match matchCopy cap opcode.offset (opcode.length + 1) opcode.length st.out with
        | none => .fault
        | some out => .next ⟨input_bit, out, opcode.offset⟩

/-- How a run of the decoder ends. -/
inductive Outcome where
  | fault
  | ret (rc : Except Errno (List Byte))

/-- The loop of `rb_lz77_decompress`; `none` when it has not ended after `fuel` turns. -/
def loop (inp : List Byte) (cap : ℕ) : ℕ → Dec → Option Outcome
  | 0, _ => none
  | fuel + 1, st =>
    match turn inp cap st with
    | .fault => some .fault
    | .ret rc => some (.ret rc)
    | .next st => loop inp cap fuel st

/-- `rb_lz77_decompress` with an output buffer of `cap` bytes; on success the bytes written, whose
number is the new `*out_len`. -/
def rb_lz77_decompress (inp : List Byte) (cap : ℕ) : Option Outcome :=
  loop inp cap (8 * inp.length + 1) ⟨0, [], 0⟩

/-! ## What the readers do -/

lemma map_eq_ok_iff {ε α β : Type} {f : α → β} {r : Except ε α} {b : β} :
    r.map f = .ok b ↔ ∃ a, r = .ok a ∧ f a = b := by
  cases r <;> simp [Except.map]

section Reading

variable {inp : List Byte} {pos : ℕ}

lemma rb_lz77_get_bit_eq (inp : List Byte) (pos : ℕ) :
    rb_lz77_get_bit inp pos = (bitsOf inp)[pos]? := (getElem?_bitsOf inp pos).symm

lemma rb_lz77_get_bit_isSome : (rb_lz77_get_bit inp pos).isSome ↔ pos < 8 * inp.length := by
  rw [rb_lz77_get_bit_eq]
  simp

lemma foldlM_map_isSome {α β : Type} (g : ℕ → Option β) (h : α → ℕ → β → α) (l : List ℕ) (a : α) :
    (l.foldlM (fun a i => (g i).map (h a i)) a).isSome ↔ ∀ i ∈ l, (g i).isSome := by
  induction l generalizing a with
  | nil => simp
  | cons i l ih =>
    rw [List.foldlM_cons]
    cases hg : g i with
    | none => simp [hg]
    | some b => simp [ih, hg]

lemma rb_lz77_get_byte_isSome :
    (rb_lz77_get_byte inp pos).isSome ↔ pos + 8 ≤ 8 * inp.length := by
  rw [rb_lz77_get_byte, foldlM_map_isSome (fun i => rb_lz77_get_bit inp (pos + i))
    (fun buf i bit => buf + UInt8.ofNat (if bit then 2 ^ (7 - i) else 0))]
  simp only [rb_lz77_get_bit_isSome, List.mem_range]
  constructor
  · intro h
    have := h 7 (by omega)
    omega
  · intro h i hi
    omega

/-- A counter that stays in front of its limit never leaves the input. -/
lemma countLoop_spec {left : ℕ} (shift : ℕ) (up : Bool) (count : ℕ)
    (h : pos + left ≤ 8 * inp.length) :
    ∃ r, countLoop inp left pos shift up count = some r ∧
      ∀ c p, r = .ok (c, p) → pos + 1 ≤ p ∧ p ≤ pos + left := by
  induction left generalizing pos shift up count with
  | zero => exact ⟨_, rfl, by simp⟩
  | succ left ih =>
    obtain ⟨bit, hbit⟩ := Option.isSome_iff_exists.mp
      (rb_lz77_get_bit_isSome.mpr (by omega : pos < 8 * inp.length))
    have hnext : pos + 1 + left ≤ 8 * inp.length := by omega
    rw [countLoop, hbit, Option.bind_some]
    dsimp only
    split
    · obtain ⟨r, hr, hend⟩ := ih _ _ _ hnext
      refine ⟨r, hr, fun c p hok => ?_⟩
      have := hend c p hok
      omega
    · split
      · refine ⟨_, rfl, ?_⟩
        rintro c p hok
        cases hok
        omega
      · obtain ⟨r, hr, hend⟩ := ih _ _ _ hnext
        refine ⟨r, hr, fun c p hok => ?_⟩
        have := hend c p hok
        omega

lemma rb_lz77_decode_count_spec (inp : List Byte) (pos shift count max_bits : ℕ) :
    ∃ r, rb_lz77_decode_count inp pos shift count max_bits = some r ∧
      ∀ c n, r = .ok (c, n) → 1 ≤ n ∧ pos + n ≤ 8 * inp.length := by
  rw [rb_lz77_decode_count]
  by_cases hpos : pos ≤ 8 * inp.length
  · obtain ⟨r, hr, hend⟩ := countLoop_spec shift true count
      (show pos + (min (pos + max_bits) (8 * inp.length) - pos) ≤ 8 * inp.length by omega)
    refine ⟨_, by rw [hr]; rfl, ?_⟩
    intro c n hok
    cases r with
    | error err => simp [Except.map] at hok
    | ok cp =>
      obtain ⟨c', p⟩ := cp
      simp only [Except.map, Except.ok.injEq, Prod.mk.injEq] at hok
      have := hend c' p rfl
      omega
  · rw [show min (pos + max_bits) (8 * inp.length) - pos = 0 by omega]
    exact ⟨_, rfl, by simp [Except.map]⟩

/-- The prefix of the group at a position lies inside the input. -/
def PrefixInside (inp : List Byte) (pos : ℕ) : Prop :=
  pos < 8 * inp.length ∧ (rb_lz77_get_bit inp pos = some true → pos + 1 < 8 * inp.length)

lemma counted_spec (inp : List Byte) (pos shift count : ℕ) (instr : Instr) (offset used : ℕ) :
    ∃ r, ((rb_lz77_decode_count inp (pos + used) shift count
        MIKRO_LZ77_MAX_COUNT_BIT_LEN).map fun r =>
          r.map fun (length, n) => (⟨instr, offset, length, used + n⟩ : Opcode)) = some r ∧
      ∀ op, r = .ok op → 1 ≤ op.bits_used ∧ pos + op.bits_used ≤ 8 * inp.length := by
  obtain ⟨r, hr, hlen⟩ := rb_lz77_decode_count_spec inp (pos + used) shift count
    MIKRO_LZ77_MAX_COUNT_BIT_LEN
  refine ⟨_, by rw [hr]; rfl, ?_⟩
  rintro op hop
  obtain ⟨⟨c, n⟩, rfl, rfl⟩ := map_eq_ok_iff.mp hop
  have := hlen c n rfl
  dsimp only
  omega

/-- Decoding an instruction reads outside of the input exactly when its prefix is cut off; a
decoded instruction has at least one bit and ends inside the input. -/
lemma rb_lz77_decode_instruction_operators_spec (inp : List Byte) (pos prev : ℕ) :
    (¬ PrefixInside inp pos ∧ rb_lz77_decode_instruction_operators inp pos prev = none) ∨
    (PrefixInside inp pos ∧ ∃ r, rb_lz77_decode_instruction_operators inp pos prev = some r ∧
      ∀ op, r = .ok op → 1 ≤ op.bits_used ∧ pos + op.bits_used ≤ 8 * inp.length) := by
  rw [rb_lz77_decode_instruction_operators, rb_lz77_decode_instruction]
  cases hbit : rb_lz77_get_bit inp pos with
  | none =>
    have hcut : ¬ pos < 8 * inp.length := by
      rw [← rb_lz77_get_bit_isSome, hbit]
      simp
    exact Or.inl ⟨fun h => hcut h.1, rfl⟩
  | some bit =>
    have hpos : pos < 8 * inp.length := by
      rw [← rb_lz77_get_bit_isSome, hbit]
      rfl
    cases bit with
    | false =>
      refine Or.inr ⟨⟨hpos, by simp [hbit]⟩, _, rfl, ?_⟩
      rintro op hop
      cases hop
      exact ⟨le_rfl, hpos⟩
    | true =>
      cases hbit2 : rb_lz77_get_bit inp (pos + 1) with
      | none =>
        have hcut : ¬ pos + 1 < 8 * inp.length := by
          rw [← rb_lz77_get_bit_isSome, hbit2]
          simp
        refine Or.inl ⟨fun h => hcut (h.2 hbit), by simp⟩
      | some bit2 =>
        have hpos2 : pos + 1 < 8 * inp.length := by
          rw [← rb_lz77_get_bit_isSome, hbit2]
          rfl
        refine Or.inr ⟨⟨hpos, fun _ => hpos2⟩, ?_⟩
        cases bit2 with
        | false =>
          obtain ⟨r, hr, hlen⟩ := counted_spec inp pos 0 1 .PREVIOUS_OFFSET prev 2
          exact ⟨r, by simpa using hr, hlen⟩
        | true =>
          obtain ⟨r, hr, hlen⟩ := rb_lz77_decode_count_spec inp (pos + 2) 4 0
            MIKRO_LZ77_MAX_COUNT_BIT_LEN
          cases r with
          | error err => exact ⟨.error err, by simp [hr], by simp⟩
          | ok cn =>
            obtain ⟨offset, n⟩ := cn
            by_cases hzero : offset = 0
            · obtain ⟨r, hr', hlen'⟩ := counted_spec inp pos 4 12 .LONG offset (2 + n)
              refine ⟨r, ?_, hlen'⟩
              simpa [hr, hzero, Nat.add_assoc] using hr'
            · obtain ⟨r, hr', hlen'⟩ := counted_spec inp pos 0 2 .LONG offset (2 + n)
              refine ⟨r, ?_, hlen'⟩
              simpa [hr, hzero, Nat.add_assoc] using hr'

end Reading

/-! ## What the writers do -/

/-- The bytes of a group are copied when they stand in the input and fit into the output. -/
lemma copyBytes_some {inp : List Byte} {cap n pos : ℕ} {out : List Byte}
    (hin : pos + 8 * n ≤ 8 * inp.length) (hout : out.length + n ≤ cap) :
    ∃ bs, bs.length = n ∧ copyBytes inp cap n pos out = some (pos + 8 * n, out ++ bs) := by
  induction n generalizing pos out with
  | zero => exact ⟨[], rfl, by simp [copyBytes]⟩
  | succ n ih =>
    obtain ⟨b, hb⟩ := Option.isSome_iff_exists.mp
      (rb_lz77_get_byte_isSome.mpr (by omega : pos + 8 ≤ 8 * inp.length))
    have hin' : pos + 8 + 8 * n ≤ 8 * inp.length := by omega
    have hout' : (out ++ [b]).length + n ≤ cap := by
      rw [List.length_append, List.length_singleton]
      omega
    obtain ⟨bs, hlen, hbs⟩ := ih hin' hout'
    refine ⟨b :: bs, by simp [hlen], ?_⟩
    rw [copyBytes, hb, Option.bind_some, if_pos (by omega), hbs,
      show pos + 8 + 8 * n = pos + 8 * (n + 1) by omega, List.append_assoc]
    rfl

lemma copyBytes_none {inp : List Byte} {cap n pos : ℕ} {out : List Byte}
    (hpos : pos ≤ 8 * inp.length) (hcap : out.length ≤ cap)
    (h : ¬ (pos + 8 * n ≤ 8 * inp.length ∧ out.length + n ≤ cap)) :
    copyBytes inp cap n pos out = none := by
  induction n generalizing pos out with
  | zero => exact absurd ⟨hpos, hcap⟩ h
  | succ n ih =>
    rw [copyBytes]
    cases hb : rb_lz77_get_byte inp pos with
    | none => rfl
    | some b =>
      have hpos' : pos + 8 ≤ 8 * inp.length := by
        rw [← rb_lz77_get_byte_isSome, hb]
        rfl
      rw [Option.bind_some]
      split
      · refine ih hpos' ?_ ?_
        · rw [List.length_append, List.length_singleton]
          omega
        · rw [List.length_append, List.length_singleton]
          omega
      · rfl

/-- The reference for a match: one byte after the other, each from `offset` bytes back. -/
def expandMatch (offset : ℕ) : ℕ → List Byte → List Byte
  | 0, out => out
  | n + 1, out => expandMatch offset n (out ++ [out.getD (out.length - offset) 0])

@[simp] lemma length_expandMatch (offset n : ℕ) (out : List Byte) :
    (expandMatch offset n out).length = out.length + n := by
  induction n generalizing out with
  | zero => rfl
  | succ n ih =>
    rw [expandMatch, ih, List.length_append, List.length_singleton]
    omega

lemma expandMatch_add (offset m n : ℕ) (out : List Byte) :
    expandMatch offset (m + n) out = expandMatch offset n (expandMatch offset m out) := by
  induction m generalizing out with
  | zero => rw [Nat.zero_add]; rfl
  | succ m ih => rw [Nat.add_right_comm, expandMatch, ih, expandMatch]

lemma expandMatch_of_le {offset n : ℕ} {out : List Byte} (hn : n ≤ offset)
    (hout : offset ≤ out.length) :
    expandMatch offset n out = out ++ (out.drop (out.length - offset)).take n := by
  induction n with
  | zero => simp [expandMatch]
  | succ n ih =>
    have hlt : out.length - offset + n < out.length := by omega
    have hlen : (out ++ (out.drop (out.length - offset)).take n).length = out.length + n := by
      rw [← ih (by omega), length_expandMatch]
    rw [expandMatch_add, ih (by omega), expandMatch, expandMatch, hlen, List.append_assoc,
      List.take_add_one, List.getElem?_drop, List.getElem?_eq_getElem hlt,
      show out.length + n - offset = out.length - offset + n by omega,
      List.getD_eq_getElem?_getD, List.getElem?_append_left hlt, List.getElem?_eq_getElem hlt]
    rfl

lemma memcpyBack_eq {cap offset n : ℕ} {out : List Byte} (hn : n ≤ offset)
    (hout : offset ≤ out.length) (hcap : out.length + n ≤ cap) :
    memcpyBack cap offset n out = some (expandMatch offset n out) := by
  rw [memcpyBack, if_pos ⟨hout, hn, hcap⟩, expandMatch_of_le hn hout]

lemma matchCopy_eq {cap offset fuel len : ℕ} {out : List Byte} (hpos : 0 < offset)
    (hout : offset ≤ out.length) (hcap : out.length + len ≤ cap) (hfuel : len < fuel) :
    matchCopy cap offset fuel len out = some (expandMatch offset len out) := by
  induction fuel generalizing len out with
  | zero => omega
  | succ fuel ih =>
    rw [matchCopy]
    by_cases hlt : offset < len
    · have hlen : (expandMatch offset offset out).length = out.length + offset :=
        length_expandMatch offset offset out
      rw [if_pos hlt, memcpyBack_eq le_rfl hout (by omega), Option.bind_some,
        ih (by omega) (by omega) (by omega), ← expandMatch_add,
        show offset + (len - offset) = len by omega]
    · rw [if_neg hlt, memcpyBack_eq (by omega) hout hcap]

/-! ## Safety -/

/-- The groups from a position on stay inside the buffers, `w` bytes having been written and
`prev` being the last match offset: up to the end marker or a group that the decoder turns down
(a counter over its limit, a match without an offset, beyond the output or its start), every
group has its prefix inside the input, and every literal byte and non-matching run has its bytes
inside the input and room in the output. -/
def Fits (inp : List Byte) (cap : ℕ) : ℕ → ℕ → ℕ → ℕ → Prop
  | 0, _, _, _ => True
  | fuel + 1, pos, w, prev =>
    PrefixInside inp pos ∧
    match rb_lz77_decode_instruction_operators inp pos prev with
    | some (.ok op) =>
      let start := pos + op.bits_used
      if op.NonMatch then
        op.EndMarker inp.length start ∨
          (start + 8 * op.length ≤ 8 * inp.length ∧ w + op.length ≤ cap ∧
            Fits inp cap fuel (start + 8 * op.length) (w + op.length) prev)
      else
        op.offset = 0 ∨ cap < w + op.length ∨ w < op.offset ∨
          Fits inp cap fuel start (w + op.length) op.offset
    | _ => True

/-- The decoder stays inside its buffers and ends: it returns an error, or the bytes written,
which are at most the capacity. -/
def Safe (inp : List Byte) (cap : ℕ) : Prop :=
  ∃ rc, rb_lz77_decompress inp cap = some (.ret rc) ∧ ∀ out, rc = .ok out → out.length ≤ cap

section Safety

variable {inp : List Byte} {cap : ℕ} {st : Dec} {op : Opcode}

/-- Inside its buffers the decoder goes on to decode an instruction. -/
lemma turn_eq (hpos : st.input_bit ≤ 8 * inp.length) (hcap : st.out.length ≤ cap) :
    turn inp cap st =
      match rb_lz77_decode_instruction_operators inp st.input_bit st.match_offset with
      | none => .fault
      | some (.error err) => .ret (.error err)
      | some (.ok op) =>
        if op.NonMatch then
          if op.EndMarker inp.length (st.input_bit + op.bits_used) then .ret (.ok st.out)
          else
            match copyBytes inp cap op.length (st.input_bit + op.bits_used) st.out with
            | none => .fault
            | some (input_bit, out) => .next ⟨input_bit, out, st.match_offset⟩
        else if op.offset = 0 then .ret (.error .EBADMSG)
        else if cap < st.out.length + op.length then .ret (.error .ENOBUFS)
        else if st.out.length < op.offset then .ret (.error .ESPIPE)
        else .next ⟨st.input_bit + op.bits_used, expandMatch op.offset op.length st.out,
          op.offset⟩ := by
  rw [turn, if_neg (by omega), if_neg (by omega)]
  split
  · rfl
  · rfl
  · rename_i op _
    dsimp only
    split
    · rfl
    · split
      · rfl
      · split
        · rfl
        · split
          · rfl
          · rw [matchCopy_eq (by omega) (by omega) (by omega) (by omega)]

lemma turn_match (hpos : st.input_bit ≤ 8 * inp.length) (hcap : st.out.length + op.length ≤ cap)
    (hop : rb_lz77_decode_instruction_operators inp st.input_bit st.match_offset = some (.ok op))
    (hnm : ¬ op.NonMatch) (h0 : op.offset ≠ 0) (hle : op.offset ≤ st.out.length) :
    turn inp cap st = .next ⟨st.input_bit + op.bits_used,
      expandMatch op.offset op.length st.out, op.offset⟩ := by
  rw [turn_eq hpos (by omega), hop]
  dsimp only
  rw [if_neg hnm, if_neg h0, if_neg (by omega), if_neg (by omega)]

lemma turn_nonmatch (hpos : st.input_bit ≤ 8 * inp.length) (hcap : st.out.length ≤ cap)
    (hop : rb_lz77_decode_instruction_operators inp st.input_bit st.match_offset = some (.ok op))
    (hnm : op.NonMatch) (hmark : ¬ op.EndMarker inp.length (st.input_bit + op.bits_used))
    {p : ℕ} {out : List Byte}
    (hcopy : copyBytes inp cap op.length (st.input_bit + op.bits_used) st.out = some (p, out)) :
    turn inp cap st = .next ⟨p, out, st.match_offset⟩ := by
  rw [turn_eq hpos hcap, hop]
  dsimp only
  rw [if_pos hnm, if_neg hmark, hcopy]

lemma turn_marker (hpos : st.input_bit ≤ 8 * inp.length) (hcap : st.out.length ≤ cap)
    (hop : rb_lz77_decode_instruction_operators inp st.input_bit st.match_offset = some (.ok op))
    (hnm : op.NonMatch) (hmark : op.EndMarker inp.length (st.input_bit + op.bits_used)) :
    turn inp cap st = .ret (.ok st.out) := by
  rw [turn_eq hpos hcap, hop]
  dsimp only
  rw [if_pos hnm, if_pos hmark]

/-- The rest of a run is safe exactly when the groups it meets stay inside the buffers. -/
lemma loop_safe_iff {fuel : ℕ} (hpos : st.input_bit ≤ 8 * inp.length)
    (hcap : st.out.length ≤ cap) (hfuel : 8 * inp.length - st.input_bit < fuel) :
    (∃ rc, loop inp cap fuel st = some (.ret rc) ∧ ∀ out, rc = .ok out → out.length ≤ cap) ↔
      Fits inp cap fuel st.input_bit st.out.length st.match_offset := by
  induction fuel generalizing st with
  | zero => omega
  | succ fuel ih =>
    rw [loop, turn_eq hpos hcap, Fits]
    rcases rb_lz77_decode_instruction_operators_spec inp st.input_bit st.match_offset with
      ⟨hcut, hnone⟩ | ⟨hinside, r, hr, hlen⟩
    · simp [hnone, hcut]
    · rw [hr]
      simp only [hinside, true_and]
      cases r with
      | error err => simp
      | ok op =>
        obtain ⟨hbits, hend⟩ := hlen op rfl
        dsimp only
        by_cases hnm : op.NonMatch
        · rw [if_pos hnm, if_pos hnm]
          by_cases hmark : op.EndMarker inp.length (st.input_bit + op.bits_used)
          · rw [if_pos hmark]
            simpa [hmark] using hcap
          · rw [if_neg hmark]
            simp only [hmark, false_or]
            by_cases hroom : st.input_bit + op.bits_used + 8 * op.length ≤ 8 * inp.length ∧
                st.out.length + op.length ≤ cap
            · obtain ⟨bs, hbs, hcopy⟩ := copyBytes_some hroom.1 hroom.2
              have hlen' : (st.out ++ bs).length = st.out.length + op.length := by
                rw [List.length_append, hbs]
              rw [hcopy]
              simp only [hroom, true_and]
              rw [← hlen']
              exact ih hroom.1 (by rw [hlen']; exact hroom.2) (by dsimp only; omega)
            · rw [copyBytes_none hend hcap hroom]
              simp only [reduceCtorEq, Option.some.injEq, false_and, exists_false, false_iff]
              exact fun h => hroom ⟨h.1, h.2.1⟩
        · rw [if_neg hnm, if_neg hnm]
          by_cases h0 : op.offset = 0
          · simp [h0]
          · by_cases h1 : cap < st.out.length + op.length
            · simp [h0, h1]
            · by_cases h2 : st.out.length < op.offset
              · simp [h0, h1, h2]
              · simp only [h0, h1, h2, if_false, false_or]
                have hlen' := length_expandMatch op.offset op.length st.out
                rw [← hlen']
                exact ih hend (by rw [hlen']; omega) (by dsimp only; omega)

end Safety

/-- **Memory safety of the decoder.**  The decoder stays inside its buffers, and ends, exactly on
the inputs and capacities whose groups fit. -/
theorem decompress_safe_iff (inp : List Byte) (cap : ℕ) :
    Safe inp cap ↔ Fits inp cap (8 * inp.length + 1) 0 0 0 := by
  have hpos : (⟨0, [], 0⟩ : Dec).input_bit ≤ 8 * inp.length := Nat.zero_le _
  have hcap : (⟨0, [], 0⟩ : Dec).out.length ≤ cap := Nat.zero_le _
  exact loop_safe_iff hpos hcap (by dsimp only; omega)

/-- A literal byte that is cut off by the end of the input is read behind it; a literal byte
behind a full output buffer is written behind it. -/
theorem decompress_unsafe : ¬ Safe [0x00] 16 ∧ ¬ Safe [0x00, 0x00, 0x00] 1 := by
  have hread : rb_lz77_decompress [0x00] 16 = some .fault := by rfl
  have hwrite : rb_lz77_decompress [0x00, 0x00, 0x00] 1 = some .fault := by rfl
  constructor
  · rintro ⟨rc, hrc, -⟩
    rw [hread] at hrc
    exact absurd hrc (by simp)
  · rintro ⟨rc, hrc, -⟩
    rw [hwrite] at hrc
    exact absurd hrc (by simp)

end Mikrotik.Lz77
