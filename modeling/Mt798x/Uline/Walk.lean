import Mt798x.Lib.Guard
import Mt798x.Lib.Tokens
import Mt798x.Uline.Pos
import Mt798x.Uline.Safety
import Mt798x.Uline.Utf8

/-!
# The position behind a string

`pos_add_string` moves a position over a string, line by line and piece by piece between the escape
sequences.  The loop that skips a sequence does not look at the length of the piece.  Here a read
behind the end of a line stops the walk.

A line is made of texts with a complete escape sequence behind each but the last (`Line`), if every
sequence in it ends in it.  Then the walk stays inside and counts the symbols of these texts
(`pos_add_string_iff`).
-/

namespace Uline

open Bytes Guard Tokens

/-! ## The walk -/

/-- What the position behind a string depends on. -/
structure Screen where
  mode : Mode
  /-- the widths of the characters behind Latin-1 -/
  table : UInt32 → ℤ
  cols : ℕ

/-- `nsyms` -/
def nsyms (scr : Screen) (buf : List Byte) : ℕ :=
  if scr.mode.utf8 then utf8_nsyms scr.table buf else buf.length

/-- The loop over the parameters of a sequence and the byte that ends it; what is left of the
line. -/
def skipParameters (signedChar : Bool) : List Byte → Except Fault (List Byte)
  | [] => .error .outside
  | next :: str => if isParam signedChar next then skipParameters signedChar str else .ok str

/-- What is left of the line behind the sequence whose ESC is in front. -/
def skipEscape (signedChar : Bool) : List Byte → Except Fault (List Byte)
  | [] => .error .outside
  | next :: str => if next = 91 ∨ next = 79 then skipParameters signedChar str else .ok str

/-- The loop of `__pos_add_string`, on `fuel`. -/
def addPieces (scr : Screen) : ℕ → Pos → List Byte → Except Fault Pos
  | 0, _, _ => .error .endless
  | fuel + 1, pos, str =>
    if keyEsc ∈ str then do
      let cur := str.takeWhile (· ≠ keyEsc)
      let str ← skipEscape scr.mode.signedChar (str.drop (cur.length + 1))
      addPieces scr fuel (pos_add_ofs scr.cols pos (nsyms scr cur)) str
    else .ok (pos_add_ofs scr.cols pos (nsyms scr str))

/-- `__pos_add_string` -/
def _pos_add_string (scr : Screen) (pos : Pos) (str : List Byte) : Except Fault Pos :=
  addPieces scr (str.length + 1) pos str

/-- A line, if it is not empty. -/
def addLine (scr : Screen) (pos : Pos) (str : List Byte) : Except Fault Pos :=
  if str = [] then .ok pos else _pos_add_string scr pos str

/-- The loop of `pos_add_string`, on `fuel`. -/
def addLines (scr : Screen) : ℕ → Pos → List Byte → Except Fault Pos
  | 0, _, _ => .error .endless
  | fuel + 1, pos, str =>
    if 10 ∈ str then do
      let cur := str.takeWhile (· ≠ 10)
      let pos ← addLine scr pos cur
      addLines scr fuel (pos_add_newline pos) (str.drop (cur.length + 1))
    else addLine scr pos str

/-- `pos_add_string` -/
def pos_add_string (scr : Screen) (pos : Pos) (str : List Byte) : Except Fault Pos :=
  addLines scr (str.length + 1) pos str

/-! ## What a string is made of -/

/-- A part of a string that moves the position. -/
inductive Mark
  | text (t : List Byte)
  | newline

/-- A line and the texts in it: behind each but the last there is an escape sequence of two bytes,
or one with parameters. -/
inductive Line (signedChar : Bool) : List Byte → List (List Byte) → Prop
  | last {t : List Byte} (ht : keyEsc ∉ t) : Line signedChar t [t]
  | short {t s : List Byte} {ts : List (List Byte)} {c : Byte} (ht : keyEsc ∉ t)
      (hc : ¬(c = 91 ∨ c = 79)) (hs : Line signedChar s ts) :
      Line signedChar (t ++ keyEsc :: c :: s) (t :: ts)
  | long {t ps s : List Byte} {ts : List (List Byte)} {c f : Byte} (ht : keyEsc ∉ t)
      (hc : c = 91 ∨ c = 79) (hps : ∀ b ∈ ps, isParam signedChar b = true)
      (hf : isParam signedChar f = false) (hs : Line signedChar s ts) :
      Line signedChar (t ++ keyEsc :: c :: (ps ++ f :: s)) (t :: ts)

/-- A string and its texts and ends of lines.  An empty line has no text. -/
inductive Parts (signedChar : Bool) : List Byte → List Mark → Prop
  | done : Parts signedChar [] []
  | line {s : List Byte} {ts : List (List Byte)} (h10 : 10 ∉ s) (hs : s ≠ [])
      (h : Line signedChar s ts) : Parts signedChar s (ts.map .text)
  | blank {r : List Byte} {es : List Mark} (h : Parts signedChar r es) :
      Parts signedChar (10 :: r) (.newline :: es)
  | next {s r : List Byte} {ts : List (List Byte)} {es : List Mark} (h10 : 10 ∉ s) (hs : s ≠ [])
      (hl : Line signedChar s ts) (h : Parts signedChar r es) :
      Parts signedChar (s ++ 10 :: r) (ts.map .text ++ .newline :: es)

/-- The position behind one part. -/
def addMark (scr : Screen) (pos : Pos) : Mark → Pos
  | .text t => pos_add_ofs scr.cols pos (nsyms scr t)
  | .newline => pos_add_newline pos

/-- The position behind the parts of a string. -/
def counted (scr : Screen) (pos : Pos) (es : List Mark) : Pos := es.foldl (addMark scr) pos

section Walk

variable {scr : Screen} {sc : Bool} {pos : Pos} {s r : List Byte} {fuel : ℕ}

lemma skipParameters_long {ps : List Byte} {f : Byte} (hps : ∀ b ∈ ps, isParam sc b = true)
    (hf : isParam sc f = false) : skipParameters sc (ps ++ f :: r) = .ok r := by
  induction ps with
  | nil => rw [List.nil_append, skipParameters, hf, if_neg Bool.false_ne_true]
  | cons b ps ih =>
    rw [List.cons_append, skipParameters, hps b List.mem_cons_self, if_pos rfl]
    exact ih fun d hd => hps d (List.mem_cons_of_mem _ hd)

lemma skipParameters_open (h : ∀ b ∈ s, isParam sc b = true) :
    skipParameters sc s = .error .outside := by
  induction s with
  | nil => rfl
  | cons b s ih =>
    rw [skipParameters, h b List.mem_cons_self, if_pos rfl]
    exact ih fun d hd => h d (List.mem_cons_of_mem _ hd)

lemma exists_final (sc : Bool) (s : List Byte) : (∀ b ∈ s, isParam sc b = true) ∨
    ∃ ps f r, s = ps ++ f :: r ∧ (∀ b ∈ ps, isParam sc b = true) ∧ isParam sc f = false := by
  induction s with
  | nil => exact .inl fun b hb => absurd hb List.not_mem_nil
  | cons c s ih =>
    cases hc : isParam sc c with
    | false => exact .inr ⟨[], c, s, rfl, fun b hb => absurd hb List.not_mem_nil, hc⟩
    | true =>
      have hcons : ∀ l : List Byte, (∀ b ∈ l, isParam sc b = true) →
          ∀ b ∈ c :: l, isParam sc b = true := by
        intro l hl b hb
        rcases List.mem_cons.mp hb with rfl | hb
        · exact hc
        · exact hl b hb
      rcases ih with hall | ⟨ps, f, r, rfl, hps, hf⟩
      · exact .inl (hcons s hall)
      · exact .inr ⟨c :: ps, f, r, rfl, hcons ps hps, hf⟩

lemma addPieces_esc {t : List Byte} (ht : keyEsc ∉ t) :
    addPieces scr (fuel + 1) pos (t ++ keyEsc :: r) =
      skipEscape scr.mode.signedChar r >>=
        addPieces scr fuel (pos_add_ofs scr.cols pos (nsyms scr t)) := by
  rw [addPieces, if_pos (List.mem_append_right _ List.mem_cons_self), takeWhile_append_stop ht]
  dsimp only
  rw [drop_append_stop]

lemma addPieces_text (h : keyEsc ∉ s) :
    addPieces scr (fuel + 1) pos s = .ok (pos_add_ofs scr.cols pos (nsyms scr s)) := by
  rw [addPieces, if_neg h]

lemma Line.addPieces {ts : List (List Byte)} (h : Line scr.mode.signedChar s ts)
    (hfuel : s.length < fuel) :
    addPieces scr fuel pos s = .ok (counted scr pos (ts.map .text)) := by
  induction h generalizing fuel pos with
  | last ht =>
    obtain ⟨fuel, rfl⟩ : ∃ f, fuel = f + 1 := ⟨fuel - 1, by omega⟩
    exact addPieces_text ht
  | short ht hc hs ih =>
    obtain ⟨fuel, rfl⟩ : ∃ f, fuel = f + 1 := ⟨fuel - 1, by omega⟩
    rw [List.length_append, List.length_cons, List.length_cons] at hfuel
    rw [addPieces_esc ht, skipEscape, if_neg hc, ok_bind, ih (by omega)]
    rfl
  | long ht hc hps hf hs ih =>
    obtain ⟨fuel, rfl⟩ : ∃ f, fuel = f + 1 := ⟨fuel - 1, by omega⟩
    simp only [List.length_append, List.length_cons] at hfuel
    rw [addPieces_esc ht, skipEscape, if_pos hc, skipParameters_long hps hf, ok_bind,
      ih (by omega)]
    rfl

/-- A line whose sequences are complete has texts; from another one the walk leaves the line. -/
lemma line_or_outside (scr : Screen) (h10 : 10 ∉ s) :
    (EscClosed scr.mode.signedChar s ∧ ∃ ts, Line scr.mode.signedChar s ts) ∨
      ¬EscClosed scr.mode.signedChar s ∧
        ∀ fuel pos, s.length < fuel → addPieces scr fuel pos s = .error .outside := by
  induction hn : s.length using Nat.strong_induction_on generalizing s with
  | _ n ih =>
    by_cases hesc : keyEsc ∈ s
    · obtain ⟨t, r, rfl, ht⟩ := List.eq_append_cons_of_mem hesc
      rw [List.mem_append, List.mem_cons, not_or, not_or] at h10
      have hclosed : EscClosed scr.mode.signedChar (t ++ keyEsc :: r) ↔
          EscMode.after scr.mode.signedChar .esc r = .text := by
        rw [EscClosed, EscMode.after_append, EscMode.after_text_of_not_mem ht, EscMode.after_cons,
          EscMode.step, if_pos rfl]
      -- the walk over the line is the one over what the sequence leaves
      have hwalk : ∀ fuel pos, (t ++ keyEsc :: r).length < fuel → ∃ f p,
          r.length < f ∧ Uline.addPieces scr fuel pos (t ++ keyEsc :: r) =
            skipEscape scr.mode.signedChar r >>= Uline.addPieces scr f p := by
        intro fuel pos hfuel
        rw [List.length_append, List.length_cons] at hfuel
        obtain ⟨fuel, rfl⟩ : ∃ f, fuel = f + 1 := ⟨fuel - 1, by omega⟩
        exact ⟨fuel, _, by omega, addPieces_esc ht⟩
      rw [hclosed]
      cases r with
      | nil =>
        refine .inr ⟨(by decide : ¬EscMode.esc = .text), fun fuel pos hfuel => ?_⟩
        obtain ⟨f, p, -, hrun⟩ := hwalk fuel pos (hn ▸ hfuel)
        exact hrun
      | cons c r =>
        rw [List.mem_cons, not_or] at h10
        rw [EscMode.after_cons, EscMode.step, if_neg (Ne.symm h10.2.2.1)]
        by_cases hc : c = 91 ∨ c = 79
        · rw [if_pos hc]
          rcases exists_final scr.mode.signedChar r with hall | ⟨ps, f, r, rfl, hps, hf⟩
          · refine .inr ⟨?_, fun fuel pos hfuel => ?_⟩
            · rw [EscMode.after_params hall h10.2.2.2]
              decide
            · obtain ⟨f, p, -, hrun⟩ := hwalk fuel pos (hn ▸ hfuel)
              rw [hrun, skipEscape, if_pos hc, skipParameters_open hall]
              rfl
          · rw [List.mem_append, List.mem_cons, not_or, not_or] at h10
            have hafter : EscMode.after scr.mode.signedChar .params (ps ++ f :: r) =
                EscMode.after scr.mode.signedChar .text r := by
              rw [EscMode.after_append, EscMode.after_params hps h10.2.2.2.1, EscMode.after_cons,
                EscMode.step, if_neg (Ne.symm h10.2.2.2.2.1), hf, if_neg Bool.false_ne_true]
            rw [hafter]
            simp only [List.length_append, List.length_cons] at hn
            refine (ih r.length (by omega) h10.2.2.2.2.2 rfl).imp
              (And.imp_right (Exists.imp' (List.cons t) fun _ hts => .long ht hc hps hf hts))
              (And.imp_right fun hout fuel pos hfuel => ?_)
            obtain ⟨f', p, hf', hrun⟩ := hwalk fuel pos (by
              simp only [List.length_append, List.length_cons]
              omega)
            simp only [List.length_append, List.length_cons] at hf'
            rw [hrun, skipEscape, if_pos hc, skipParameters_long hps hf, ok_bind,
              hout f' p (by omega)]
        · rw [if_neg hc]
          simp only [List.length_append, List.length_cons] at hn
          refine (ih r.length (by omega) h10.2.2.2 rfl).imp
            (And.imp_right (Exists.imp' (List.cons t) fun _ hts => .short ht hc hts))
            (And.imp_right fun hout fuel pos hfuel => ?_)
          obtain ⟨f', p, hf', hrun⟩ := hwalk fuel pos (by
            simp only [List.length_append, List.length_cons]
            omega)
          rw [List.length_cons] at hf'
          rw [hrun, skipEscape, if_neg hc, ok_bind, hout f' p (by omega)]
    · exact .inl ⟨EscMode.after_text_of_not_mem hesc, [s], .last hesc⟩

lemma addLine_of_ne (hs : s ≠ []) : addLine scr pos s = addPieces scr (s.length + 1) pos s :=
  if_neg hs

lemma addLines_newline (h10 : 10 ∉ s) : addLines scr (fuel + 1) pos (s ++ 10 :: r) =
    addLine scr pos s >>= fun pos => addLines scr fuel (pos_add_newline pos) r := by
  rw [addLines, if_pos (List.mem_append_right _ List.mem_cons_self), takeWhile_append_stop h10]
  dsimp only
  rw [drop_append_stop]

lemma addLines_last (h10 : 10 ∉ s) : addLines scr (fuel + 1) pos s = addLine scr pos s := by
  rw [addLines, if_neg h10]

lemma counted_append (scr : Screen) (pos : Pos) (es fs : List Mark) :
    counted scr pos (es ++ fs) = counted scr (counted scr pos es) fs := List.foldl_append

lemma Parts.addLines {es : List Mark} (h : Parts scr.mode.signedChar s es)
    (hfuel : s.length < fuel) : addLines scr fuel pos s = .ok (counted scr pos es) := by
  induction h generalizing fuel pos with
  | done =>
    obtain ⟨fuel, rfl⟩ : ∃ f, fuel = f + 1 := ⟨fuel - 1, by omega⟩
    rfl
  | line h10 hs hl =>
    obtain ⟨fuel, rfl⟩ : ∃ f, fuel = f + 1 := ⟨fuel - 1, by omega⟩
    rw [addLines_last h10, addLine_of_ne hs, hl.addPieces (Nat.lt_succ_self _)]
  | blank h ih =>
    obtain ⟨fuel, rfl⟩ : ∃ f, fuel = f + 1 := ⟨fuel - 1, by omega⟩
    rw [List.length_cons] at hfuel
    exact (addLines_newline (s := []) List.not_mem_nil).trans (ih (by omega))
  | next h10 hs hl h ih =>
    obtain ⟨fuel, rfl⟩ : ∃ f, fuel = f + 1 := ⟨fuel - 1, by omega⟩
    rw [List.length_append, List.length_cons] at hfuel
    rw [addLines_newline h10, addLine_of_ne hs, hl.addPieces (Nat.lt_succ_self _), ok_bind,
      ih (by omega), counted_append]
    rfl

/-- A string whose sequences are complete has parts; from another one the walk leaves a line. -/
lemma parts_or_outside (scr : Screen) (s : List Byte) :
    (EscClosed scr.mode.signedChar s ∧ ∃ es, Parts scr.mode.signedChar s es) ∨
      ¬EscClosed scr.mode.signedChar s ∧
        ∀ fuel pos, s.length < fuel → addLines scr fuel pos s = .error .outside := by
  induction hn : s.length using Nat.strong_induction_on generalizing s with
  | _ n ih =>
    have hempty : EscClosed scr.mode.signedChar [] := rfl
    by_cases hnl : 10 ∈ s
    · obtain ⟨l, r, rfl, h10⟩ := List.eq_append_cons_of_mem hnl
      have hwalk : ∀ fuel pos, (l ++ 10 :: r).length < fuel → ∃ f, r.length < f ∧
          Uline.addLines scr fuel pos (l ++ 10 :: r) = addLine scr pos l >>= fun pos =>
            Uline.addLines scr f (pos_add_newline pos) r := by
        intro fuel pos hfuel
        rw [List.length_append, List.length_cons] at hfuel
        obtain ⟨fuel, rfl⟩ : ∃ f, fuel = f + 1 := ⟨fuel - 1, by omega⟩
        exact ⟨fuel, by omega, addLines_newline h10⟩
      rw [List.length_append, List.length_cons] at hn
      rw [escClosed_newline]
      rcases line_or_outside scr h10 with ⟨hclosed, ts, hts⟩ | ⟨hopen, hout⟩
      · refine (ih r.length (by omega) r rfl).imp
          (fun ⟨hr, es, hes⟩ => ⟨⟨hclosed, hr⟩, ?_⟩)
          (fun ⟨hr, hrun⟩ => ⟨fun h => hr h.2, fun fuel pos hfuel => ?_⟩)
        · by_cases hl : l = []
          · subst hl
            exact ⟨_, .blank hes⟩
          · exact ⟨_, .next h10 hl hts hes⟩
        · obtain ⟨f, hf, hsplit⟩ := hwalk fuel pos (by
            rw [List.length_append, List.length_cons]
            omega)
          rw [hsplit]
          by_cases hl : l = []
          · rw [addLine, if_pos hl, ok_bind, hrun f _ hf]
          · rw [addLine_of_ne hl, hts.addPieces (Nat.lt_succ_self _), ok_bind, hrun f _ hf]
      · refine .inr ⟨fun h => hopen h.1, fun fuel pos hfuel => ?_⟩
        obtain ⟨f, -, hsplit⟩ := hwalk fuel pos (by
          rw [List.length_append, List.length_cons]
          omega)
        have hl : l ≠ [] := fun h => hopen (h ▸ hempty)
        rw [hsplit, addLine_of_ne hl, hout _ _ (Nat.lt_succ_self _)]
        rfl
    · by_cases hs : s = []
      · exact .inl ⟨hs ▸ hempty, [], hs ▸ .done⟩
      · refine (line_or_outside scr hnl).imp
          (And.imp_right fun ⟨ts, hts⟩ => ⟨_, .line hnl hs hts⟩)
          (And.imp_right fun hout fuel pos hfuel => ?_)
        obtain ⟨fuel, rfl⟩ : ∃ f, fuel = f + 1 := ⟨fuel - 1, by omega⟩
        rw [addLines_last hnl, addLine_of_ne hs, hout _ _ (Nat.lt_succ_self _)]

end Walk

lemma Parts.run {scr : Screen} {s : List Byte} {es : List Mark}
    (h : Parts scr.mode.signedChar s es) (pos : Pos) :
    pos_add_string scr pos s = .ok (counted scr pos es) :=
  h.addLines (Nat.lt_succ_self _)

/-- The walk stays inside each line of a string, ends, and counts exactly the symbols outside the
escape sequences, if and only if every escape sequence ends in its line. -/
theorem pos_add_string_iff (scr : Screen) (pos : Pos) (str : List Byte) :
    (∃ es, Parts scr.mode.signedChar str es ∧
        pos_add_string scr pos str = .ok (counted scr pos es)) ↔
      EscClosed scr.mode.signedChar str := by
  rcases parts_or_outside scr str with ⟨hclosed, es, hes⟩ | ⟨hopen, hout⟩
  · exact ⟨fun _ => hclosed, fun _ => ⟨es, hes, hes.run pos⟩⟩
  · refine ⟨fun ⟨es, hes, _⟩ => ?_, fun hclosed => absurd hclosed hopen⟩
    have hrun := hes.run pos
    rw [pos_add_string, hout _ _ (Nat.lt_succ_self _)] at hrun
    cases hrun

/-- An ESC at the end of a line is followed by a read behind the line. -/
theorem pos_add_string_esc : ¬∃ es, Parts true [keyEsc] es ∧
    pos_add_string ⟨⟨false, true⟩, fun _ => 1, 80⟩ ⟨0, 0⟩ [keyEsc] =
      .ok (counted ⟨⟨false, true⟩, fun _ => 1, 80⟩ ⟨0, 0⟩ es) := by
  rintro ⟨es, -, hrun⟩
  have hout : pos_add_string ⟨⟨false, true⟩, fun _ => 1, 80⟩ ⟨0, 0⟩ [keyEsc] =
      .error .outside := rfl
  rw [hout] at hrun
  cases hrun

end Uline
