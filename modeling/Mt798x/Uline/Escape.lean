import Mt798x.Lib.Bytes

/-!
# Reading a string for its width

`pos_add_string` walks over a string to find out where the cursor is behind it, line by line, and
skips escape sequences.  Here are the reads of this walk: `b` is the memory the string lies in, the
string starts at offset `str` and is `len` bytes long, and a read outside of `b` gives `none`.

The loop that skips a sequence does not look at the length.  When it runs past the end of the
string, `len -= next - str` wraps around, and `memchr` is then called with a length that no
allocation has; this is counted as a read outside of `b`, too.
-/

namespace Uline

open Bytes

/-- `KEY_ESC`. -/
def keyEsc : Byte := 27

/-- `memchr(str, c, len)`: the offset of the first `c`. -/
def memchr (b : List Byte) (c : Byte) (str : ℕ) : ℕ → Option (Option ℕ)
  | 0 => some none
  | len + 1 => do
    let x ← b[str]?
    if x = c then some (some str) else memchr b c (str + 1) len

/-- The test `*next <= 63`, for a `char` that may be signed. -/
def isParam (signedChar : Bool) (c : Byte) : Bool := c ≤ 63 || (signedChar && 128 ≤ c)

/-- The loop over the parameters of a sequence, on `fuel`. -/
def skipParams (signedChar : Bool) (b : List Byte) (next : ℕ) : ℕ → Option ℕ
  | 0 => none
  | fuel + 1 => do
    let x ← b[next]?
    if isParam signedChar x then skipParams signedChar b (next + 1) fuel else some next

/-- The end of the sequence whose ESC is in front of `next`. -/
def skipSequence (signedChar : Bool) (b : List Byte) (next : ℕ) : Option ℕ := do
  let c ← b[next]?
  if c = 91 ∨ c = 79 then (skipParams signedChar b (next + 1) (b.length + 1)).map (· + 1)
  else some (next + 1)

/-- The reads of `__pos_add_string`, on `fuel`. -/
def scanEscapes (signedChar : Bool) (b : List Byte) (str len : ℕ) : ℕ → Option Unit
  | 0 => none
  | fuel + 1 => do
    match ← memchr b keyEsc str len with
    | none => some ()
    | some e =>
      let next ← skipSequence signedChar b (e + 1)
      if next - str ≤ len then scanEscapes signedChar b next (len - (next - str)) fuel else none

/-- The reads of `pos_add_string`, on `fuel`. -/
def scanLines (signedChar : Bool) (b : List Byte) (str len : ℕ) : ℕ → Option Unit
  | 0 => none
  | fuel + 1 => do
    match ← memchr b 10 str len with
    | none => scanEscapes signedChar b str len (len + 1)
    | some nl => do
      scanEscapes signedChar b str (nl - str) (nl - str + 1)
      scanLines signedChar b (nl + 1) (len - (nl - str + 1)) fuel

/-- The reads of `pos_add_string`. -/
def posAddString (signedChar : Bool) (b : List Byte) (str len : ℕ) : Option Unit :=
  scanLines signedChar b str len (len + 1)

/-! ## Complete sequences -/

/-- Where a reader of the text is. -/
inductive EscMode
  | text
  | esc
  | params
  /-- a line ended inside a sequence -/
  | broken
  deriving DecidableEq, Repr

/-- One byte of text. -/
def EscMode.step (signedChar : Bool) : EscMode → Byte → EscMode
  | .broken, _ => .broken
  | .text, c => if c = keyEsc then .esc else .text
  | .esc, c => if c = 10 then .broken else if c = 91 ∨ c = 79 then .params else .text
  | .params, c =>
    if c = 10 then .broken else if isParam signedChar c then .params else .text

/-- The state after a text. -/
def EscMode.after (signedChar : Bool) (m : EscMode) (t : List Byte) : EscMode :=
  t.foldl (EscMode.step signedChar) m

/-- Every escape sequence ends in the line in which it starts. -/
def EscClosed (signedChar : Bool) (t : List Byte) : Prop :=
  EscMode.after signedChar .text t = .text

instance (signedChar : Bool) (t : List Byte) : Decidable (EscClosed signedChar t) :=
  inferInstanceAs (Decidable (_ = _))

variable {sc : Bool} {b : List Byte}

lemma EscMode.after_append (m : EscMode) (s t : List Byte) :
    EscMode.after sc m (s ++ t) = EscMode.after sc (EscMode.after sc m s) t :=
  List.foldl_append

lemma EscMode.after_cons (m : EscMode) (c : Byte) (t : List Byte) :
    EscMode.after sc m (c :: t) = EscMode.after sc (EscMode.step sc m c) t := rfl

lemma EscMode.after_broken (t : List Byte) : EscMode.after sc .broken t = .broken := by
  induction t with
  | nil => rfl
  | cons c t ih => exact ih

lemma EscMode.after_text_of_not_mem {t : List Byte} (h : keyEsc ∉ t) :
    EscMode.after sc .text t = .text := by
  induction t with
  | nil => rfl
  | cons c t ih =>
    rw [List.mem_cons, not_or] at h
    rw [EscMode.after_cons, EscMode.step, if_neg (Ne.symm h.1)]
    exact ih h.2

lemma EscMode.after_params {t : List Byte} (h : ∀ c ∈ t, isParam sc c = true)
    (h10 : (10 : Byte) ∉ t) : EscMode.after sc .params t = .params := by
  induction t with
  | nil => rfl
  | cons c t ih =>
    rw [List.mem_cons, not_or] at h10
    rw [EscMode.after_cons, EscMode.step, if_neg (Ne.symm h10.1),
      if_pos (h c List.mem_cons_self)]
    exact ih (fun d hd => h d (List.mem_cons_of_mem _ hd)) h10.2

/-! ## The walk -/

/-- The bytes of a string. -/
def seg (b : List Byte) (str len : ℕ) : List Byte := (b.drop str).take len

lemma seg_succ {str len : ℕ} (h : str < b.length) :
    seg b str (len + 1) = b[str] :: seg b (str + 1) len := by
  rw [seg, List.drop_eq_getElem_cons h, List.take_succ_cons]
  rfl

lemma seg_append (str m n : ℕ) : seg b str (m + n) = seg b str m ++ seg b (str + m) n := by
  rw [seg, seg, seg, List.take_add, List.drop_drop]

/-- The first occurrence of a byte in a string inside the memory. -/
lemma memchr_spec (c : Byte) (len : ℕ) : ∀ str, str + len ≤ b.length →
    (memchr b c str len = some none ∧ c ∉ seg b str len) ∨
    ∃ k < len, memchr b c str len = some (some (str + k)) ∧ c ∉ seg b str k ∧
      b[str + k]? = some c := by
  induction len with
  | zero =>
    intro str _
    exact Or.inl ⟨rfl, by simp [seg]⟩
  | succ len ih =>
    intro str h
    have hlt : str < b.length := by omega
    rw [memchr, List.getElem?_eq_getElem hlt, seg_succ hlt]
    simp only [Option.bind_eq_bind, Option.bind_some]
    split
    · rename_i heq
      refine Or.inr ⟨0, by omega, rfl, by simp [seg], ?_⟩
      rw [Nat.add_zero, List.getElem?_eq_getElem hlt, heq]
    · rename_i hne
      rcases ih (str + 1) (by omega) with ⟨h1, h2⟩ | ⟨k, hk, h1, h2, h3⟩
      · exact Or.inl ⟨h1, by simp [h2, Ne.symm hne]⟩
      · refine Or.inr ⟨k + 1, by omega, ?_, ?_, ?_⟩
        · rw [h1, Nat.add_assoc, Nat.add_comm 1 k]
        · rw [seg_succ hlt]
          simp [h2, Ne.symm hne]
        · rw [← h3, Nat.add_assoc, Nat.add_comm 1 k]

variable (sc b) in
/-- The loop over the parameters ends at the first byte that is none. -/
lemma skipParams_spec (fuel : ℕ) : ∀ next, b.length < next + fuel →
    (∃ k, skipParams sc b next fuel = some (next + k) ∧
      (∀ c ∈ seg b next k, isParam sc c = true) ∧
      ∃ y, b[next + k]? = some y ∧ isParam sc y = false) ∨
    (skipParams sc b next fuel = none ∧ ∀ k, ∀ c ∈ seg b next k, isParam sc c = true) := by
  induction fuel with
  | zero =>
    intro next h
    refine Or.inr ⟨rfl, ?_⟩
    intro k c hc
    rw [seg, List.drop_eq_nil_of_le (by omega)] at hc
    simp at hc
  | succ fuel ih =>
    intro next h
    rw [skipParams]
    rcases Nat.lt_or_ge next b.length with hlt | hge
    · rw [List.getElem?_eq_getElem hlt]
      simp only [Option.bind_eq_bind, Option.bind_some]
      split
      · rename_i hp
        rcases ih (next + 1) (by omega) with ⟨k, h1, h2, y, h3, h4⟩ | ⟨h1, h2⟩
        · refine Or.inl ⟨k + 1, ?_, ?_, y, ?_, h4⟩
          · rw [h1, Nat.add_assoc, Nat.add_comm 1 k]
          · intro c hc
            rw [seg_succ hlt] at hc
            rcases List.mem_cons.mp hc with rfl | hc
            · exact hp
            · exact h2 c hc
          · rw [← h3, Nat.add_assoc, Nat.add_comm 1 k]
        · refine Or.inr ⟨h1, ?_⟩
          intro k c hc
          cases k with
          | zero => simp [seg] at hc
          | succ k =>
            rw [seg_succ hlt] at hc
            rcases List.mem_cons.mp hc with rfl | hc
            · exact hp
            · exact h2 k c hc
      · rename_i hp
        refine Or.inl ⟨0, rfl, by simp [seg], b[next], List.getElem?_eq_getElem hlt, ?_⟩
        simpa using hp
    · rw [List.getElem?_eq_none hge]
      refine Or.inr ⟨rfl, ?_⟩
      intro k c hc
      rw [seg, List.drop_eq_nil_of_le hge] at hc
      simp at hc

lemma seg_split {str len k : ℕ} {y : Byte} (hk : k < len) (hy : b[str + k]? = some y) :
    seg b str len = seg b str k ++ y :: seg b (str + k + 1) (len - (k + 1)) := by
  obtain ⟨hlt, hval⟩ := List.getElem?_eq_some_iff.mp hy
  have hlen : len = k + ((len - (k + 1)) + 1) := by omega
  conv_lhs => rw [hlen]
  rw [seg_append, seg_succ hlt, hval]

variable (sc) in
/-- A sequence is skipped within a string exactly if it is complete there; what follows it is then
read as text. -/
lemma skipSequence_spec {next n : ℕ} (h : next + n ≤ b.length) (h10 : (10 : Byte) ∉ seg b next n) :
    (∃ k ≤ n, 0 < k ∧ skipSequence sc b next = some (next + k) ∧
      EscMode.after sc .esc (seg b next n) = EscMode.after sc .text (seg b (next + k) (n - k))) ∨
    (EscMode.after sc .esc (seg b next n) ≠ .text ∧
      ∀ r, skipSequence sc b next = some r → next + n < r) := by
  cases n with
  | zero =>
    refine Or.inr ⟨by simp [seg, EscMode.after], ?_⟩
    intro r hr
    rw [skipSequence, Option.bind_eq_bind, Option.bind_eq_some_iff] at hr
    obtain ⟨c, hc, hr⟩ := hr
    split at hr
    · rcases skipParams_spec sc b (b.length + 1) (next + 1) (by omega) with
        ⟨k, h1, -⟩ | ⟨h1, -⟩
      · rw [h1, Option.map_some, Option.some.injEq] at hr
        omega
      · rw [h1] at hr
        cases hr
    · cases hr
      omega
  | succ n =>
    have hlt : next < b.length := by omega
    rw [seg_succ hlt] at h10 ⊢
    rw [List.mem_cons, not_or] at h10
    rw [skipSequence, List.getElem?_eq_getElem hlt, EscMode.after_cons, EscMode.step,
      if_neg (Ne.symm h10.1)]
    simp only [Option.bind_eq_bind, Option.bind_some]
    split
    · -- a sequence with parameters
      rcases skipParams_spec sc b (b.length + 1) (next + 1) (by omega) with
        ⟨k, h1, h2, y, h3, h4⟩ | ⟨h1, h2⟩
      · rw [h1]
        rcases Nat.lt_or_ge k n with hk | hk
        · refine Or.inl ⟨k + 2, by omega, by omega, ?_, ?_⟩
          · simp only [Option.map_some, Option.some.injEq]
            omega
          · have hsplit := seg_split hk h3
            rw [hsplit] at h10 ⊢
            have hy : y ≠ 10 := fun hy => h10.2 (by simp [hy])
            have hpar : EscMode.after sc .params (seg b (next + 1) k) = .params :=
              EscMode.after_params h2 fun hm => h10.2 (List.mem_append_left _ hm)
            rw [EscMode.after_append, hpar, EscMode.after_cons, EscMode.step, if_neg hy, h4]
            simp only [Bool.false_eq_true, if_false]
            congr 2 <;> omega
        · refine Or.inr ⟨?_, ?_⟩
          · have hall : ∀ c ∈ seg b (next + 1) n, isParam sc c = true := by
              intro c hc
              refine h2 c ?_
              have hk' : k = n + (k - n) := by omega
              rw [hk', seg_append]
              exact List.mem_append_left _ hc
            rw [EscMode.after_params hall h10.2]
            decide
          · intro r hr
            simp only [Option.map_some, Option.some.injEq] at hr
            omega
      · rw [h1]
        refine Or.inr ⟨?_, ?_⟩
        · rw [EscMode.after_params (h2 n) h10.2]
          decide
        · intro r hr
          cases hr
    · -- a sequence of two bytes
      exact Or.inl ⟨1, by omega, by omega, rfl, by simp⟩

variable (sc b) in
/-- Within a line, the walk reads only the string exactly if the sequences in it are complete. -/
lemma scanEscapes_isSome (fuel : ℕ) : ∀ str len, str + len ≤ b.length → len < fuel →
    (10 : Byte) ∉ seg b str len →
    ((scanEscapes sc b str len fuel).isSome ↔ EscClosed sc (seg b str len)) := by
  induction fuel with
  | zero =>
    intro str len _ h
    omega
  | succ fuel ih =>
    intro str len hb hf h10
    rw [scanEscapes]
    rcases memchr_spec keyEsc len str hb with ⟨h1, h2⟩ | ⟨k, hk, h1, h2, h3⟩
    · rw [h1]
      simpa [EscClosed] using EscMode.after_text_of_not_mem h2
    · rw [h1]
      have hsplit := seg_split hk h3
      rw [hsplit, List.mem_append, List.mem_cons, not_or, not_or] at h10
      have hesc : EscMode.after sc .text (seg b str len) =
          EscMode.after sc .esc (seg b (str + k + 1) (len - (k + 1))) := by
        rw [hsplit, EscMode.after_append, EscMode.after_text_of_not_mem h2, EscMode.after_cons,
          EscMode.step, if_pos rfl]
      rw [EscClosed, hesc]
      simp only [Option.bind_eq_bind, Option.bind_some]
      rcases skipSequence_spec sc (show str + k + 1 + (len - (k + 1)) ≤ b.length by omega)
        h10.2.2 with ⟨j, hj, hj0, hs, hafter⟩ | ⟨hopen, hskip⟩
      · rw [hs, hafter]
        simp only [Option.bind_some]
        rw [if_pos (by omega)]
        have hlen : len - (str + k + 1 + j - str) = len - (k + 1) - j := by omega
        rw [hlen]
        refine ih _ _ (by omega) (by omega) ?_
        intro hmem
        refine h10.2.2 ?_
        have hsum : len - (k + 1) = j + (len - (k + 1) - j) := by omega
        rw [hsum, seg_append]
        exact List.mem_append_right _ hmem
      · constructor
        · intro hsome
          cases hs : skipSequence sc b (str + k + 1) with
          | none =>
            rw [hs] at hsome
            cases hsome
          | some r =>
            have hr := hskip r hs
            rw [hs] at hsome
            simp only [Option.bind_some] at hsome
            rw [if_neg (by omega)] at hsome
            cases hsome
        · intro hclosed
          exact absurd hclosed hopen

lemma escClosed_newline {s t : List Byte} :
    EscClosed sc (s ++ 10 :: t) ↔ EscClosed sc s ∧ EscClosed sc t := by
  rw [EscClosed, EscClosed, EscClosed, EscMode.after_append, EscMode.after_cons]
  cases EscMode.after sc .text s with
  | text => simp [EscMode.step, keyEsc]
  | esc => simp [EscMode.step, EscMode.after_broken]
  | params => simp [EscMode.step, EscMode.after_broken]
  | broken => simp [EscMode.step, EscMode.after_broken]

lemma scanLines_isSome (fuel : ℕ) : ∀ str len, str + len ≤ b.length → len < fuel →
    ((scanLines sc b str len fuel).isSome ↔ EscClosed sc (seg b str len)) := by
  induction fuel with
  | zero =>
    intro str len _ h
    omega
  | succ fuel ih =>
    intro str len hb hf
    rw [scanLines]
    rcases memchr_spec 10 len str hb with ⟨h1, h2⟩ | ⟨k, hk, h1, h2, h3⟩
    · rw [h1]
      exact scanEscapes_isSome sc b (len + 1) str len hb (Nat.lt_succ_self _) h2
    · rw [h1, seg_split hk h3, escClosed_newline]
      simp only [Option.bind_eq_bind, Option.bind_some, Nat.add_sub_cancel_left]
      have hfirst := scanEscapes_isSome sc b (k + 1) str k (by omega)
        (Nat.lt_succ_self _) h2
      have hrest := ih (str + k + 1) (len - (k + 1)) (by omega) (by omega)
      rw [← hfirst, ← hrest]
      cases scanEscapes sc b str k (k + 1) <;> simp

/-- The walk over a string reads only the string exactly if the escape sequences in it are
complete. -/
lemma posAddString_isSome {str len : ℕ} (h : str + len ≤ b.length) :
    (posAddString sc b str len).isSome ↔ EscClosed sc (seg b str len) :=
  scanLines_isSome (len + 1) str len h (Nat.lt_succ_self _)

end Uline
