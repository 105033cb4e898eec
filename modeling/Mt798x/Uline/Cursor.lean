import Mt798x.Uline.Walk

/-!
# Cursor arithmetic

A string that is cut between two symbols moves the position as its two parts do one after the other,
for every width that is exact, and for no other width (`additive_iff`).  Then a redraw of a line
from `update_pos` on leaves the cursor where a full redraw leaves it.
-/

namespace Uline

open Bytes Guard

/-! ## Exact positions of strings -/

/-- The position behind one part, without a limit. -/
def exactMark (scr : Screen) (p : Pos) : Mark → Pos
  | .text t => p.advance scr.cols (nsyms scr t)
  | .newline => p.newline

/-- The position behind the parts of a string, without a limit. -/
def exactAt (scr : Screen) (p : Pos) (es : List Mark) : Pos := es.foldl (exactMark scr) p

/-- The values of all positions between the parts fit 16 bits. -/
def FitsAlong (scr : Screen) (p : Pos) (es : List Mark) : Prop :=
  ∀ fs, fs <+: es → (exactAt scr p fs).Fits

/-- No symbol goes from the last text of one string into the first text of the next. -/
def CutAt (scr : Screen) (es fs : List Mark) : Prop :=
  ∀ ds t u gs, es = ds ++ [.text t] → fs = .text u :: gs → scr.mode.utf8 = true → SymbolCut t u

section Exact

variable {scr : Screen} {p : Pos} {es fs gs : List Mark}

lemma exactAt_append (scr : Screen) (p : Pos) (es fs : List Mark) :
    exactAt scr p (es ++ fs) = exactAt scr (exactAt scr p es) fs := List.foldl_append

lemma FitsAlong.fits (h : FitsAlong scr p es) : p.Fits := h [] List.nil_prefix

lemma FitsAlong.left (h : FitsAlong scr p (es ++ fs)) : FitsAlong scr p es :=
  fun ds hds => h ds (hds.trans (List.prefix_append es fs))

lemma FitsAlong.right (h : FitsAlong scr p (es ++ fs)) : FitsAlong scr (exactAt scr p es) fs := by
  intro ds hds
  rw [← exactAt_append]
  exact h _ ((List.prefix_append_right_inj es).mpr hds)

lemma On.exactMark (hcols : 0 < scr.cols) (h : p.On scr.cols) (e : Mark) :
    (exactMark scr p e).On scr.cols := by
  cases e with
  | text t => exact h.advance hcols _
  | newline => exact h.newline hcols

lemma On.exactAt (hcols : 0 < scr.cols) (h : p.On scr.cols) (es : List Mark) :
    (exactAt scr p es).On scr.cols := by
  induction es generalizing p with
  | nil => exact h
  | cons e es ih => exact ih (On.exactMark hcols h e)

lemma newline_exact {cols : ℕ} (h : p.On cols) (hfit : p.newline.Fits) :
    pos_add_newline p = p.newline := by
  have hy : p.y + 1 < 2 ^ 15 := hfit.y
  have h0 := h.y
  rw [pos_add_newline, int16_of_fits ⟨by omega, hy⟩]
  rfl

lemma counted_exact (hw : ExactWidth scr.cols) (hcols : 0 < scr.cols) (h : p.On scr.cols)
    (hfit : FitsAlong scr p es) : counted scr p es = exactAt scr p es := by
  induction es generalizing p with
  | nil => rfl
  | cons e es ih =>
    have hstep : addMark scr p e = exactMark scr p e := by
      have hnext : (exactMark scr p e).Fits := hfit [e] (List.prefix_append [e] es)
      cases e with
      | text t => exact posAddOfs_exact hw hcols h hfit.fits hnext
      | newline => exact newline_exact h hnext
    have hrest : FitsAlong scr (exactMark scr p e) es :=
      @FitsAlong.right scr p [e] es hfit
    have hcons : counted scr p (e :: es) = counted scr (addMark scr p e) es := rfl
    rw [hcons, hstep, ih (On.exactMark hcols h e) hrest]
    rfl

end Exact

/-! ## Two strings -/

/-- The parts of two strings one behind the other: where a text ends the first and one starts the
second, they are one text. -/
inductive Joined : List Mark → List Mark → List Mark → Prop
  | apart (es fs : List Mark) : Joined es fs (es ++ fs)
  | together (es : List Mark) (t u : List Byte) (fs : List Mark) :
      Joined (es ++ [.text t]) (.text u :: fs) (es ++ .text (t ++ u) :: fs)

section Join

variable {scr : Screen} {sc : Bool} {p : Pos} {ds es fs gs : List Mark} {a b s r : List Byte}

lemma Joined.prepend (ds : List Mark) (h : Joined es fs gs) : Joined (ds ++ es) fs (ds ++ gs) := by
  cases h with
  | apart =>
    rw [← List.append_assoc]
    exact .apart _ _
  | together es t u fs =>
    rw [← List.append_assoc, ← List.append_assoc]
    exact .together _ _ _ _

/-- The last text of a line goes on with the first text of the next one. -/
lemma Line.append {ts us : List (List Byte)} (hl : Line sc s ts) (hr : Line sc r us) :
    ∃ vs, Line sc (s ++ r) vs ∧
      ∃ ts' t u us', ts = ts' ++ [t] ∧ us = u :: us' ∧ vs = ts' ++ (t ++ u) :: us' := by
  induction hl with
  | last ht =>
    rename_i t
    cases hr with
    | last hu =>
      refine ⟨_, .last ?_, [], t, r, [], rfl, rfl, rfl⟩
      rw [List.mem_append, not_or]
      exact ⟨ht, hu⟩
    | short hu hc hs =>
      rename_i u s' ts' c
      rw [← List.append_assoc]
      refine ⟨_, .short ?_ hc hs, [], t, u, ts', rfl, rfl, rfl⟩
      rw [List.mem_append, not_or]
      exact ⟨ht, hu⟩
    | long hu hc hps hf hs =>
      rename_i u ps s' ts' c f
      rw [← List.append_assoc]
      refine ⟨_, .long ?_ hc hps hf hs, [], t, u, ts', rfl, rfl, rfl⟩
      rw [List.mem_append, not_or]
      exact ⟨ht, hu⟩
  | short ht hc hs ih =>
    rename_i t s' ts c
    obtain ⟨vs, hvs, ts', t', u, us', rfl, rfl, rfl⟩ := ih
    refine ⟨_, ?_, t :: ts', t', u, us', rfl, rfl, rfl⟩
    have hline := Line.short ht hc hvs
    rwa [List.append_assoc, List.cons_append, List.cons_append]
  | long ht hc hps hf hs ih =>
    rename_i t ps s' ts c f
    obtain ⟨vs, hvs, ts', t', u, us', rfl, rfl, rfl⟩ := ih
    refine ⟨_, ?_, t :: ts', t', u, us', rfl, rfl, rfl⟩
    have hline := Line.long ht hc hps hf hvs
    rwa [List.append_assoc, List.cons_append, List.cons_append, List.append_assoc,
      List.cons_append]

lemma Line.joined {ts us : List (List Byte)} (hl : Line sc s ts) (hr : Line sc r us) :
    ∃ vs, Line sc (s ++ r) vs ∧ ∀ fs, Joined (ts.map .text) (us.map .text ++ fs)
      (vs.map .text ++ fs) := by
  obtain ⟨vs, hvs, ts', t, u, us', rfl, rfl, rfl⟩ := hl.append hr
  refine ⟨_, hvs, fun fs => ?_⟩
  simp only [List.map_append, List.map_cons, List.map_nil, List.append_assoc, List.cons_append]
  exact .together _ _ _ _

/-- The parts of two strings one behind the other. -/
lemma Parts.append (ha : Parts sc a es) (hb : Parts sc b fs) :
    ∃ gs, Parts sc (a ++ b) gs ∧ Joined es fs gs := by
  induction ha with
  | done => exact ⟨fs, hb, .apart [] fs⟩
  | line h10 hs h =>
    rename_i s ts
    cases hb with
    | done =>
      rw [List.append_nil]
      exact ⟨_, .line h10 hs h, by simpa using Joined.apart (ts.map .text) []⟩
    | line h10' hs' h' =>
      obtain ⟨vs, hvs, hjoin⟩ := h.joined h'
      refine ⟨_, .line ?_ (fun h => hs (List.append_eq_nil_iff.mp h).1) hvs, by simpa using hjoin []⟩
      rw [List.mem_append, not_or]
      exact ⟨h10, h10'⟩
    | blank hr => exact ⟨_, .next h10 hs h hr, .apart _ _⟩
    | next h10' hs' h' hr =>
      obtain ⟨vs, hvs, hjoin⟩ := h.joined h'
      rw [← List.append_assoc]
      refine ⟨_, .next ?_ (fun h => hs (List.append_eq_nil_iff.mp h).1) hvs hr, hjoin _⟩
      rw [List.mem_append, not_or]
      exact ⟨h10, h10'⟩
  | blank h ih =>
    obtain ⟨gs, hgs, hjoin⟩ := ih
    exact ⟨_, .blank hgs, hjoin.prepend [.newline]⟩
  | next h10 hs hl h ih =>
    rename_i s r ts es
    obtain ⟨gs, hgs, hjoin⟩ := ih
    have hjoin' := hjoin.prepend (ts.map .text ++ [.newline])
    rw [List.append_assoc, List.append_assoc, List.singleton_append, List.singleton_append] at hjoin'
    rw [List.append_assoc, List.cons_append]
    exact ⟨_, .next h10 hs hl hgs, hjoin'⟩

lemma nsyms_cut {t u : List Byte} (h : scr.mode.utf8 = true → SymbolCut t u) :
    nsyms scr (t ++ u) = nsyms scr t + nsyms scr u := by
  rw [nsyms, nsyms, nsyms]
  split
  · rename_i hutf8
    exact nsyms_append scr.table (h hutf8)
  · exact List.length_append

lemma Joined.exactAt (hcols : 0 < scr.cols) (h : Joined es fs gs) (hcut : CutAt scr es fs)
    (p : Pos) : exactAt scr p gs = exactAt scr p (es ++ fs) := by
  cases h with
  | apart => rfl
  | together es t u fs =>
    have hsum : ∀ q : Pos, exactMark scr q (.text (t ++ u)) =
        exactMark scr (exactMark scr q (.text t)) (.text u) := by
      intro q
      rw [exactMark, exactMark, exactMark, nsyms_cut (hcut es t u fs rfl rfl),
        Pos.advance_advance hcols]
    rw [exactAt_append, List.append_assoc, exactAt_append]
    simp only [Uline.exactAt, List.foldl_cons, List.cons_append, List.nil_append, hsum]

/-- A prefix of the joined parts leads where a prefix of the two lists leads. -/
lemma Joined.fitsAlong (hcols : 0 < scr.cols) (h : Joined es fs gs) (hcut : CutAt scr es fs)
    (hfit : FitsAlong scr p (es ++ fs)) : FitsAlong scr p gs := by
  intro ds hds
  cases h with
  | apart => exact hfit ds hds
  | together es t u fs =>
    obtain ⟨ks, hks⟩ := hds
    rcases List.append_eq_append_iff.mp hks with ⟨as, hes, hrest⟩ | ⟨cs, hds, hrest⟩
    · exact hfit ds ⟨as ++ .text t :: .text u :: fs, by simp [hes]⟩
    · cases cs with
      | nil =>
        exact hfit ds ⟨.text t :: .text u :: fs, by simp [hds]⟩
      | cons c cs =>
        rw [List.cons_append, List.cons.injEq] at hrest
        obtain ⟨rfl, hfs⟩ := hrest
        have hjoin : Joined (es ++ [.text t]) (.text u :: cs) ds := by
          rw [hds]
          exact .together es t u cs
        have hcut' : CutAt scr (es ++ [.text t]) (.text u :: cs) := by
          intro ds' t' u' gs' hl hr
          cases hr
          exact hcut ds' t' u fs hl rfl
        rw [hjoin.exactAt hcols hcut' p]
        exact hfit _ ⟨ks, by simp [hfs]⟩

end Join

/-! ## Additivity -/

/-- The position behind two strings is the one behind the second from the one behind the first, if
they are cut between two symbols and outside the escape sequences, and all values fit. -/
def Additive (scr : Screen) : Prop :=
  ∀ p a b es fs, p.On scr.cols → Parts scr.mode.signedChar a es → Parts scr.mode.signedChar b fs →
    CutAt scr es fs → FitsAlong scr p (es ++ fs) →
    ∃ q, pos_add_string scr p (a ++ b) = .ok q ∧
      (do let r ← pos_add_string scr p a; pos_add_string scr r b) = .ok q

section Exact

variable {scr : Screen} {p : Pos} {es fs : List Mark} {a b s : List Byte}

lemma run_exact (hw : ExactWidth scr.cols) (hcols : 0 < scr.cols) (h : p.On scr.cols)
    (hs : Parts scr.mode.signedChar s es) (hfit : FitsAlong scr p es) :
    pos_add_string scr p s = .ok (exactAt scr p es) := by
  rw [hs.run, counted_exact hw hcols h hfit]

lemma run_append (hw : ExactWidth scr.cols) (hcols : 0 < scr.cols) (h : p.On scr.cols)
    (ha : Parts scr.mode.signedChar a es) (hb : Parts scr.mode.signedChar b fs)
    (hcut : CutAt scr es fs) (hfit : FitsAlong scr p (es ++ fs)) :
    pos_add_string scr p (a ++ b) = .ok (exactAt scr p (es ++ fs)) ∧
      pos_add_string scr p a = .ok (exactAt scr p es) ∧
      pos_add_string scr (exactAt scr p es) b = .ok (exactAt scr p (es ++ fs)) := by
  obtain ⟨gs, hgs, hjoin⟩ := ha.append hb
  refine ⟨?_, run_exact hw hcols h ha hfit.left, ?_⟩
  · rw [run_exact hw hcols h hgs (hjoin.fitsAlong hcols hcut hfit), hjoin.exactAt hcols hcut]
  · rw [run_exact hw hcols (On.exactAt hcols h es) hb hfit.right, exactAt_append]

lemma additive_of_exact (hw : ExactWidth scr.cols) (hcols : 0 < scr.cols) : Additive scr := by
  intro p a b es fs h ha hb hcut hfit
  obtain ⟨hboth, hfirst, hsecond⟩ := run_append hw hcols h ha hb hcut hfit
  exact ⟨_, hboth, by rw [hfirst]; exact hsecond⟩

end Exact

/-! ## Texts of letters -/

/-- A text of `n` letters. -/
def letters (n : ℕ) : List Byte := List.replicate n 97

lemma letters_add (m n : ℕ) : letters m ++ letters n = letters (m + n) :=
  List.replicate_append_replicate

lemma symbol_letter (s : List Byte) : symbol (97 :: s) = (1, 97) := rfl

lemma nsyms_letters (scr : Screen) (n : ℕ) : nsyms scr (letters n) = n := by
  rw [nsyms]
  split
  · induction n with
    | zero => rfl
    | succ n ih =>
      rw [letters, List.replicate_succ, nsyms_step scr.table (List.cons_ne_nil _ _), symbol_letter]
      show (wcwidth scr.table 97).toNat + utf8_nsyms scr.table (letters n) = n + 1
      have hone : wcwidth scr.table 97 = 1 := by
        rw [wcwidth, if_pos (by decide), if_pos (by decide)]
      rw [ih, hone, Nat.add_comm]
      rfl
  · exact List.length_replicate

lemma symbolCut_letters (m : ℕ) (u : List Byte) : SymbolCut (letters m) u := by
  induction m with
  | zero => exact .start u
  | succ m ih =>
    have hone : letters (m + 1) = [97] ++ letters m := rfl
    rw [hone]
    exact .step (List.cons_ne_nil _ _) rfl ih

lemma parts_letters (sc : Bool) {n : ℕ} (h : 0 < n) : Parts sc (letters n) [.text (letters n)] := by
  have hmem : ∀ b ∈ letters n, b = 97 := fun b hb => List.eq_of_mem_replicate hb
  have hne : letters n ≠ [] := fun h0 => by
    rw [letters, List.replicate_eq_nil_iff] at h0
    omega
  refine .line (fun h10 => absurd (hmem _ h10) (by decide)) hne (.last fun hesc => ?_)
  exact absurd (hmem _ hesc) (by decide)

/-- Two steps that do not end where one step for both ends are taken by two texts. -/
lemma Diverges.not_additive {scr : Screen} {p : Pos} {m n : ℕ} (h : Diverges scr.cols p m n) :
    ¬Additive scr := by
  intro hadd
  have hm := parts_letters scr.mode.signedChar h.pos.1
  have hn := parts_letters scr.mode.signedChar h.pos.2
  have hmn := parts_letters scr.mode.signedChar (Nat.add_pos_left h.pos.1 n)
  have hcols : 0 < scr.cols := by
    have hx := h.on.x
    omega
  have hcut : CutAt scr [.text (letters m)] [.text (letters n)] := by
    intro ds t u gs hl hr _
    have ht : t = letters m := by
      have hlast := congrArg List.getLast? hl
      rw [List.getLast?_append] at hlast
      simpa using hlast.symm
    cases hr
    rw [ht]
    exact symbolCut_letters m _
  have hsum : (p.advance scr.cols m).advance scr.cols n = p.advance scr.cols (m + n) :=
    Pos.advance_advance hcols p m n
  have hfit : FitsAlong scr p ([.text (letters m)] ++ [.text (letters n)]) := by
    intro ds hds
    rcases ds with - | ⟨d, - | ⟨d', ds⟩⟩
    · exact h.fits
    · obtain ⟨k, hk⟩ := hds
      cases hk
      show (p.advance scr.cols (nsyms scr (letters m))).Fits
      rw [nsyms_letters]
      exact h.mid
    · obtain ⟨k, hk⟩ := hds
      simp only [List.cons_append, List.cons.injEq, List.nil_append, List.append_eq_nil_iff] at hk
      obtain ⟨rfl, rfl, rfl, rfl⟩ := hk
      show ((p.advance scr.cols (nsyms scr (letters m))).advance scr.cols
        (nsyms scr (letters n))).Fits
      rw [nsyms_letters, nsyms_letters, hsum]
      exact h.sum
  obtain ⟨q, hboth, htwo⟩ := hadd p _ _ _ _ h.on hm hn hcut hfit
  have hone : ∀ (r : Pos) (k : ℕ), counted scr r [.text (letters k)] = pos_add_ofs scr.cols r k := by
    intro r k
    show pos_add_ofs scr.cols r (nsyms scr (letters k)) = _
    rw [nsyms_letters]
  rw [letters_add, hmn.run, hone] at hboth
  rw [hm.run, Guard.ok_bind, hn.run, hone, hone, ← hboth] at htwo
  exact h.differ (Except.ok.inj htwo)

/-! ## Redraws -/

/-- A line after it was painted: the cursor is behind its text, `pos` behind its prompt. -/
structure Painted where
  line : LineBuf
  cursor : Pos
  pos : Pos
  deriving DecidableEq

/-- The prompt of a line: a full update writes it, a partial one only moves `pos` behind it. -/
def drawPrompt (scr : Screen) (full_update : Bool) (line : LineBuf) (cursor pos : Pos) :
    Except Fault Painted :=
  if full_update then do
    let cursor ← pos_add_string scr cursor (line.prompt.getD [])
    .ok ⟨{ line with updatePos := 0 }, cursor, cursor⟩
  else do
    let pos ← pos_add_string scr pos (line.prompt.getD [])
    .ok ⟨line, cursor, pos⟩

/-- A move over a string, if there is something to move over. -/
def moveIf (scr : Screen) (some_left : Bool) (pos : Pos) (str : List Byte) : Except Fault Pos :=
  if some_left then pos_add_string scr pos str else .ok pos

/-- `display_update_line`, for what it makes of the positions. -/
def display_update_line (scr : Screen) (full_update : Bool) (line : LineBuf) (cursor pos : Pos) :
    Except Fault Painted := do
  let start ← drawPrompt scr full_update line cursor pos
  let line := start.line
  let update_pos ← moveIf scr (line.updatePos != 0) start.pos (line.text.take line.updatePos)
  let rest := line.text.drop line.updatePos
  let cursor ← moveIf scr (!rest.isEmpty) update_pos rest
  .ok ⟨{ line with updatePos := line.len }, cursor, start.pos⟩

/-- The lines behind a redraw, the end of what is painted and the cursor. -/
structure Display where
  line : LineBuf
  line2 : Option LineBuf
  end_pos : Pos
  cursor : Pos
  deriving DecidableEq

/-- `display_update`, for what it makes of the positions. -/
def display_update (scr : Screen) (full_update : Bool) (cursor : Pos) (line : LineBuf)
    (line2 : Option LineBuf) : Except Fault Display := do
  let cursor := if full_update then ⟨0, 0⟩ else cursor
  let first ← display_update_line scr full_update line cursor ⟨0, 0⟩
  match line2 with
  | none =>
    let edit_pos ← pos_add_string scr first.pos (first.line.text.take first.line.pos)
    .ok ⟨first.line, none, first.cursor, edit_pos⟩
  | some line2 =>
    let cursor := if first.cursor.x ≠ 0 then pos_add_newline first.cursor else first.cursor
    let second ← display_update_line scr full_update line2 cursor cursor
    let edit_pos ← pos_add_string scr second.pos (second.line.text.take second.line.pos)
    .ok ⟨first.line, some second.line, second.cursor, edit_pos⟩

/-- A line that can be drawn from `p` to `q`: its prompt and the two parts of its text are whole, the
text is cut at `update_pos` between two symbols, and all values fit. -/
structure Drawn (scr : Screen) (p : Pos) (l : LineBuf) (ps es fs : List Mark) (q : Pos) : Prop where
  prompt : Parts scr.mode.signedChar (l.prompt.getD []) ps
  shown : Parts scr.mode.signedChar (l.text.take l.updatePos) es
  rest : Parts scr.mode.signedChar (l.text.drop l.updatePos) fs
  cut : CutAt scr es fs
  fits : FitsAlong scr p (ps ++ (es ++ fs))
  stop : q = exactAt scr p (ps ++ (es ++ fs))

/-- The row behind a line: the next one, unless the line ends at the start of one. -/
def rowBehind (q : Pos) : Pos := if q.x ≠ 0 then q.newline else q

/-- A partial redraw gives what a full one gives. -/
def Redraws (scr : Screen) : Prop :=
  ∀ cursor line line2 ps es fs q, Drawn scr ⟨0, 0⟩ line ps es fs q →
    (∀ l, line2 = some l → ∃ ps es fs r, Drawn scr (rowBehind q) l ps es fs r) →
    display_update scr false cursor line line2 = display_update scr true cursor line line2

section Redraw

variable {scr : Screen} {p q : Pos} {l : LineBuf} {ps es fs : List Mark}

lemma run_nil (scr : Screen) (p : Pos) : pos_add_string scr p [] = .ok p := rfl

lemma moveIf_eq {b : Bool} {s : List Byte} (h : b = false → s = []) :
    moveIf scr b p s = pos_add_string scr p s := by
  cases b with
  | true => rfl
  | false =>
    rw [h rfl, run_nil]
    rfl

/-- What is drawn of a line, from `update_pos` on and from its start on. -/
lemma Drawn.painted (hw : ExactWidth scr.cols) (hcols : 0 < scr.cols) (hp : p.On scr.cols)
    (h : Drawn scr p l ps es fs q) (r : Pos) :
    display_update_line scr false l r p =
        .ok ⟨{ l with updatePos := l.len }, q, exactAt scr p ps⟩ ∧
      display_update_line scr true l p r =
        .ok ⟨{ l with updatePos := l.len }, q, exactAt scr p ps⟩ := by
  have hprompt := run_exact hw hcols hp h.prompt h.fits.left
  obtain ⟨hboth, hshown, hrest⟩ := run_append hw hcols (On.exactAt hcols hp ps) h.shown h.rest h.cut
    h.fits.right
  rw [List.take_append_drop, ← exactAt_append, ← h.stop] at hboth
  rw [← exactAt_append scr p ps (es ++ fs), ← h.stop] at hrest
  constructor
  · rw [display_update_line, drawPrompt, if_neg Bool.false_ne_true, hprompt, Guard.ok_bind,
      Guard.ok_bind]
    dsimp only
    rw [moveIf_eq fun h0 => ?_, hshown, Guard.ok_bind, moveIf_eq fun h0 => ?_, hrest]
    · rfl
    · simpa using h0
    · have hzero : l.updatePos = 0 := by simpa using h0
      rw [hzero, List.take_zero]
  · have htext : ({ l with updatePos := 0 } : LineBuf).text = l.text := rfl
    rw [display_update_line, drawPrompt, if_pos rfl, hprompt, Guard.ok_bind, Guard.ok_bind]
    dsimp only
    rw [htext, moveIf_eq fun _ => List.take_zero, List.take_zero, run_nil, Guard.ok_bind,
      List.drop_zero, moveIf_eq fun h0 => ?_, hboth]
    · rfl
    · simpa using h0

lemma Drawn.on (hcols : 0 < scr.cols) (hp : p.On scr.cols) (h : Drawn scr p l ps es fs q) :
    q.On scr.cols := by
  rw [h.stop]
  exact On.exactAt hcols hp _

lemma rowBehind_eq {r : Pos} (hcols : 0 < scr.cols) (hq : q.On scr.cols)
    (h : Drawn scr (rowBehind q) l ps es fs r) :
    (if q.x ≠ 0 then pos_add_newline q else q) = rowBehind q ∧ (rowBehind q).On scr.cols := by
  have hfit := h.fits.fits
  unfold rowBehind at *
  split
  · rename_i hx
    rw [if_pos hx] at hfit
    exact ⟨newline_exact hq hfit, hq.newline hcols⟩
  · exact ⟨rfl, hq⟩

lemma redraws_of_exact (hw : ExactWidth scr.cols) (hcols : 0 < scr.cols) : Redraws scr := by
  intro cursor line line2 ps es fs q h h2
  have h0 : (⟨0, 0⟩ : Pos).On scr.cols := ⟨⟨le_rfl, by dsimp only; omega⟩, le_rfl⟩
  have hpart := (h.painted hw hcols h0 cursor).1
  have hfull := (h.painted hw hcols h0 ⟨0, 0⟩).2
  cases line2 with
  | none =>
    simp only [display_update, Bool.false_eq_true, if_false, if_true]
    rw [hpart, hfull]
  | some l =>
    obtain ⟨ps', es', fs', r, hl⟩ := h2 l rfl
    obtain ⟨hrow, hon⟩ := rowBehind_eq hcols (h.on hcols h0) hl
    obtain ⟨hpart2, hfull2⟩ := hl.painted hw hcols hon (rowBehind q)
    simp only [display_update, Bool.false_eq_true, if_false, if_true]
    rw [hpart, hfull, Guard.ok_bind, Guard.ok_bind]
    dsimp only
    rw [hrow, hpart2, hfull2]

end Redraw

/-- Positions behind strings are additive, and a partial redraw leaves the cursor where a full one
leaves it, exactly for the widths for which no sum of two columns leaves 16 bits. -/
theorem additive_iff (scr : Screen) (hcols : 0 < scr.cols) :
    Additive scr ∧ Redraws scr ↔ ExactWidth scr.cols := by
  constructor
  · rintro ⟨hadd, -⟩
    by_contra hw
    obtain ⟨p, m, n, hdiv⟩ := exists_diverges hcols hw
    exact hdiv.not_additive hadd
  · exact fun hw => ⟨additive_of_exact hw hcols, redraws_of_exact hw hcols⟩

/-- A screen of 80 columns. -/
theorem additive_eighty : 0 < 80 ∧
    (Additive ⟨⟨true, true⟩, fun _ => 1, 80⟩ ∧ Redraws ⟨⟨true, true⟩, fun _ => 1, 80⟩ ↔
      ExactWidth 80) :=
  ⟨by decide, additive_iff ⟨⟨true, true⟩, fun _ => 1, 80⟩ (by decide)⟩

/-- A screen of 20000 columns: two texts of 19999 letters. -/
theorem additive_wide : ¬(Additive ⟨⟨true, true⟩, fun _ => 1, 20000⟩ ∧
    Redraws ⟨⟨true, true⟩, fun _ => 1, 20000⟩) := by
  rintro ⟨hadd, -⟩
  have hdiv : Diverges (Screen.cols ⟨⟨true, true⟩, fun _ => 1, 20000⟩) ⟨0, 0⟩ 19999 19999 :=
    @diverges_wide 20000 (by decide) (by decide)
  exact hdiv.not_additive hadd

end Uline
