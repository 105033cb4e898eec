import Mt798x.Uline.Text

/-!
# Incremental redraw

`display_update_line` repaints a line from `update_pos` on and leaves what the terminal shows in
front of it.  So `update_pos` has to stay within a prefix that the buffer shares with the text at
the last redraw.

Insertion, deletion and reset lower `update_pos` to the cursor.  `__uline_set_line` instead sets it
to the prefix that the new string shares with the buffer, although earlier edits of the buffer may
not have been painted yet.  The redraw is right in every run in which no such call raises
`update_pos`.
-/

namespace Uline

open Bytes LineBuf

/-- A line and its text at the last redraw. -/
structure Shown where
  line : LineBuf := {}
  shown : List Byte := []

/-- What happens to a line. -/
inductive Edit
  | insert (c : List Byte) (junk : ℕ → Byte)
  | delete (n : ℕ)
  | reset
  | setLine (str : List Byte) (junk : ℕ → Byte)
  | cursor (p : ℕ)
  | redraw

/-- One edit of a line. -/
def applyEdit (utf8 : Bool) (s : Shown) : Edit → Option Shown
  | .insert c junk => (linebufInsert junk s.line c).map fun l => { s with line := l }
  | .delete n => (linebufDelete s.line n).map fun l => { s with line := l }
  | .reset => (linebufReset s.line).map fun l => { s with line := l }
  | .setLine str junk => (setLine utf8 junk s.line str).map fun l => { s with line := l }
  | .cursor p => some { s with line := { s.line with pos := min p s.line.len } }
  | .redraw => some { line := { s.line with updatePos := s.line.len }, shown := s.line.text }

/-- A sequence of edits. -/
def runEdits (utf8 : Bool) : Shown → List Edit → Option Shown
  | s, [] => some s
  | s, e :: es => (applyEdit utf8 s e).bind fun s' => runEdits utf8 s' es

/-- The text on the terminal if the line is repainted from `update_pos` on. -/
def Shown.repainted (s : Shown) : List Byte :=
  s.shown.take s.line.updatePos ++ s.line.text.drop s.line.updatePos

/-- The line can be repainted from `update_pos` on. -/
structure RedrawOk (s : Shown) : Prop where
  shown : s.line.updatePos ≤ s.shown.length
  len : s.line.updatePos ≤ s.line.len
  agree : s.line.text.take s.line.updatePos = s.shown.take s.line.updatePos
  repainted : s.repainted = s.line.text

/-- A replacement of the line does not raise `update_pos`: what it keeps of the buffer is not
waiting to be painted. -/
def Edit.Keeps (utf8 : Bool) (l : LineBuf) : Edit → Prop
  | .setLine str _ => keptLen utf8 l.text str ≤ l.updatePos
  | _ => True

/-- All edits of a run keep what is painted. -/
def AllKeep (utf8 : Bool) : Shown → List Edit → Prop
  | _, [] => True
  | s, e :: es => e.Keeps utf8 s.line ∧ ∀ s', applyEdit utf8 s e = some s' → AllKeep utf8 s' es

/-! ## The invariant -/

/-- `update_pos` ends a prefix that the buffer shares with the text at the last redraw. -/
structure Redrawable (s : Shown) : Prop where
  fits : s.line.Fits
  shown : s.line.updatePos ≤ s.shown.length
  len : s.line.updatePos ≤ s.line.len
  agree : s.line.text.take s.line.updatePos = s.shown.take s.line.updatePos

variable {s : Shown} {l : LineBuf}

lemma Redrawable.redrawOk (h : Redrawable s) : RedrawOk s := by
  refine ⟨h.shown, h.len, h.agree, ?_⟩
  rw [Shown.repainted, ← h.agree, List.take_append_drop]

/-- The invariant holds after an edit that changes the buffer only from `k` on and lowers
`update_pos` to `k`. -/
lemma Redrawable.edit (h : Redrawable s) (hfits : l.Fits) {k : ℕ} (hkl : k ≤ l.len)
    (hupd : l.updatePos = min s.line.updatePos k) (htext : l.text.take k = s.line.text.take k) :
    Redrawable { s with line := l } := by
  have h1 := h.shown
  have hle : l.updatePos ≤ k := by omega
  refine ⟨hfits, ?_, ?_, ?_⟩
  · show l.updatePos ≤ s.shown.length
    omega
  · show l.updatePos ≤ l.len
    omega
  · show l.text.take l.updatePos = s.shown.take l.updatePos
    calc l.text.take l.updatePos
        = (l.text.take k).take l.updatePos := by rw [List.take_take, Nat.min_eq_left hle]
      _ = (s.line.text.take s.line.updatePos).take l.updatePos := by
          rw [htext, List.take_take, List.take_take, Nat.min_eq_left hle,
            Nat.min_eq_left (by omega)]
      _ = s.shown.take l.updatePos := by
          rw [h.agree, List.take_take, Nat.min_eq_left (by omega)]

/-! ## One edit -/

lemma linebufDelete_min (l : LineBuf) (n : ℕ) :
    linebufDelete l n = linebufDelete l (min n (l.len - l.pos)) := by
  have hmin : (if l.len - l.pos < n then l.len - l.pos else n) = min n (l.len - l.pos) := by
    split <;> omega
  have hmin2 : (if l.len - l.pos < min n (l.len - l.pos) then l.len - l.pos
      else min n (l.len - l.pos)) = min n (l.len - l.pos) := by
    rw [if_neg (by omega)]
  rw [linebufDelete, linebufDelete, hmin, hmin2]

lemma redrawable_insert {c : List Byte} {junk : ℕ → Byte} (h : Redrawable s)
    (hl : linebufInsert junk s.line c = some l) : Redrawable { s with line := l } := by
  obtain ⟨rest, heq⟩ := linebufInsert_spec junk h.fits c
  rw [hl] at heq
  cases heq
  have hpos := h.fits.pos
  have htake : (s.line.text.take s.line.pos).length = s.line.pos := by
    rw [List.length_take, h.fits.length_text, Nat.min_eq_left hpos]
  have hlen : (s.line.text.take s.line.pos ++ c ++ s.line.text.drop s.line.pos).length =
      s.line.len + c.length := by
    simp only [List.length_append, htake, List.length_drop, h.fits.length_text]
    omega
  refine h.edit ⟨?_, ?_⟩ (k := s.line.pos) ?_ rfl ?_
  · show s.line.pos + c.length ≤ s.line.len + c.length
    omega
  · show s.line.len + c.length ≤ _
    rw [bufsize_mk, List.length_append, hlen]
    omega
  · show s.line.pos ≤ s.line.len + c.length
    omega
  · rw [text_of_append hlen, List.append_assoc, List.take_append_of_le_length htake.ge,
      List.take_take, Nat.min_self]

lemma redrawable_delete {n : ℕ} (h : Redrawable s) (hl : linebufDelete s.line n = some l) :
    Redrawable { s with line := l } := by
  rw [linebufDelete_min] at hl
  set m := min n (s.line.len - s.line.pos) with hm
  have hmle : m ≤ s.line.len - s.line.pos := by omega
  have hpos := h.fits.pos
  rcases Nat.lt_or_ge (s.line.len + m) s.line.bufsize with hroom | hroom
  · obtain ⟨nul, rest, -, heq⟩ := linebufDelete_of_lt h.fits hmle hroom
    rw [hl] at heq
    cases heq
    have htake : (s.line.text.take s.line.pos).length = s.line.pos := by
      rw [List.length_take, h.fits.length_text, Nat.min_eq_left hpos]
    have hlen : (s.line.text.take s.line.pos ++ s.line.text.drop (s.line.pos + m)).length =
        s.line.len - m := by
      simp only [List.length_append, htake, List.length_drop, h.fits.length_text]
      omega
    refine h.edit ⟨?_, ?_⟩ (k := s.line.pos) ?_ rfl ?_
    · show s.line.pos ≤ s.line.len - m
      omega
    · show s.line.len - m ≤ _
      rw [bufsize_mk, List.length_append, hlen]
      omega
    · show s.line.pos ≤ s.line.len - m
      omega
    · rw [text_of_append hlen, List.take_append_of_le_length htake.ge, List.take_take,
        Nat.min_self]
  · rw [linebufDelete_of_ge h.fits hmle hroom] at hl
    cases hl

lemma redrawable_reset (h : Redrawable s) (hl : linebufReset s.line = some l) :
    Redrawable { s with line := l } := by
  rcases Nat.eq_zero_or_pos s.line.bufsize with hz | hp
  · rw [linebufReset_of_zero hz] at hl
    cases hl
  · rw [linebufReset_of_pos hp] at hl
    cases hl
    exact h.edit ⟨le_rfl, Nat.zero_le _⟩ (k := 0) le_rfl (Nat.min_zero _).symm rfl

lemma redrawable_setLine {utf8 : Bool} {str : List Byte} {junk : ℕ → Byte} (h : Redrawable s)
    (hl : setLine utf8 junk s.line str = some l)
    (hkeep : keptLen utf8 s.line.text str ≤ s.line.updatePos) :
    Redrawable { s with line := l } := by
  obtain ⟨extra, -, hroom, heq⟩ := setLine_spec utf8 junk h.fits str
  rw [hl] at heq
  cases heq
  have hkept := keptLen_le utf8 s.line.text str
  have hcommon := take_commonLen s.line.text str
  have hle := commonLen_le_left s.line.text str
  rw [h.fits.length_text] at hle
  have hlen : commonLen s.line.text str ≤ str.length := by
    have := congrArg List.length hcommon
    rw [List.length_take, List.length_take, h.fits.length_text] at this
    omega
  refine h.edit ⟨?_, ?_⟩ (k := keptLen utf8 s.line.text str) ?_
    (Nat.min_eq_right hkeep).symm ?_
  · exact Nat.min_le_right _ _
  · rw [bufsize_mk, List.length_append, List.length_drop, List.length_append]
    show str.length ≤ _
    omega
  · show _ ≤ str.length
    omega
  · rw [text_of_append rfl]
    have := congrArg (List.take (keptLen utf8 s.line.text str)) hcommon
    rw [List.take_take, List.take_take, Nat.min_eq_left hkept] at this
    exact this.symm

lemma redrawable_applyEdit {utf8 : Bool} {s' : Shown} {e : Edit} (h : Redrawable s)
    (hkeep : e.Keeps utf8 s.line) (hs : applyEdit utf8 s e = some s') : Redrawable s' := by
  cases e with
  | insert c junk =>
    obtain ⟨l, hl, rfl⟩ := Option.map_eq_some_iff.mp hs
    exact redrawable_insert h hl
  | delete n =>
    obtain ⟨l, hl, rfl⟩ := Option.map_eq_some_iff.mp hs
    exact redrawable_delete h hl
  | reset =>
    obtain ⟨l, hl, rfl⟩ := Option.map_eq_some_iff.mp hs
    exact redrawable_reset h hl
  | setLine str junk =>
    obtain ⟨l, hl, rfl⟩ := Option.map_eq_some_iff.mp hs
    exact redrawable_setLine h hl hkeep
  | cursor p =>
    cases hs
    exact ⟨⟨Nat.min_le_right _ _, h.fits.len⟩, h.shown, h.len, h.agree⟩
  | redraw =>
    cases hs
    exact ⟨⟨h.fits.pos, h.fits.len⟩, h.fits.length_text.ge, le_rfl, rfl⟩

/-! ## Runs -/

lemma redrawable_runEdits {utf8 : Bool} (es : List Edit) :
    ∀ {s s' : Shown}, Redrawable s → AllKeep utf8 s es → runEdits utf8 s es = some s' →
      Redrawable s' := by
  induction es with
  | nil =>
    intro s s' h _ hs
    cases hs
    exact h
  | cons e es ih =>
    intro s s' h hkeep hs
    rw [runEdits, Option.bind_eq_some_iff] at hs
    obtain ⟨s1, h1, h2⟩ := hs
    exact ih (redrawable_applyEdit h hkeep.1 h1) (hkeep.2 s1 h1) h2

/-- In every run in which no replacement of the line raises `update_pos`, every redraw from
`update_pos` on shows the text of the buffer. -/
theorem redraw_sound (utf8 : Bool) (es : List Edit) (s : Shown)
    (hrun : runEdits utf8 {} es = some s) (hkeep : AllKeep utf8 {} es) : RedrawOk s := by
  have hinit : Redrawable {} := ⟨⟨le_rfl, le_rfl⟩, le_rfl, le_rfl, rfl⟩
  exact (redrawable_runEdits es hinit hkeep hrun).redrawOk

/-- `ab` is typed and painted, then replaced by `ac`. -/
theorem redraw_sound_replace :
    ∃ s, runEdits true {} [.insert [97, 98] fun _ => 0, .redraw, .setLine [97, 99] fun _ => 0] =
      some s ∧ s.line.updatePos = 1 ∧ RedrawOk s := by
  refine ⟨_, rfl, rfl, redraw_sound true
    [.insert [97, 98] fun _ => 0, .redraw, .setLine [97, 99] fun _ => 0] _ rfl ?_⟩
  refine ⟨trivial, fun s1 h1 => ⟨trivial, fun s2 h2 => ⟨?_, fun _ _ => trivial⟩⟩⟩
  cases h1
  cases h2
  exact (by decide : keptLen true [97, 98] [97, 99] ≤ 2)

/-- `ab` is painted, `x` is typed in front of it, and the line is replaced by the text it has by
then: `update_pos` is 3 although only `ab` is on the terminal, and the `x` is never painted. -/
theorem redraw_pending_insert :
    ∃ s, runEdits true {} [.insert [97, 98] fun _ => 0, .redraw, .cursor 0,
        .insert [120] fun _ => 0, .setLine [120, 97, 98] fun _ => 0] = some s ∧
      s.shown = [97, 98] ∧ s.line.text = [120, 97, 98] ∧ s.line.updatePos = 3 ∧
      s.repainted = [97, 98] ∧ ¬ RedrawOk s := by
  refine ⟨_, rfl, rfl, rfl, rfl, rfl, ?_⟩
  intro h
  exact absurd h.shown (by decide)

end Uline
