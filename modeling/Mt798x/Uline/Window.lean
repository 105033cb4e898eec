import Mt798x.Lib.Runs
import Mt798x.Uline.Cursor
import Mt798x.Uline.Session

/-!
# The width of the window

The width of the screen comes from the kernel (`update_window_size`) or from the terminal, which
reports a cursor position after an ESC.  The decoder takes every report, also one with a column of
0.  In every run the coordinates are valid in all states exactly if every width that was reported is
at least 1 and one for which the step is exact (`coordinates_iff`).
-/

namespace Uline

open Bytes Guard Runs

/-! ## Changes of the size -/

/-- A session and the way it asks for the size of the window. -/
structure Window where
  sess : Sess
  ioctl_winsize : Bool

/-- `struct winsize` -/
structure Winsize where
  ws_row : UInt16
  ws_col : UInt16
  deriving DecidableEq, Repr

/-- The size that `update_window_size` takes, and if the ioctl gave it.  `none` is an ioctl that
failed. -/
def windowSize (ioctl_winsize : Bool) : Option Winsize → ℕ × ℕ × Bool
  | some ws =>
    if ioctl_winsize ∧ ws.ws_col ≠ 0 ∧ ws.ws_row ≠ 0 then (ws.ws_row.toNat, ws.ws_col.toNat, true)
    else (25, 80, false)
  | none => (25, 80, false)

/-- `update_window_size`; `event` is what the callback does. -/
def update_window_size (md : Mode) (w : Window) (ws : Option Winsize) (event : List Call) : Window :=
  let (rows, cols, ioctl_winsize) := windowSize w.ioctl_winsize ws
  if w.sess.cols = cols ∧ w.sess.rows = rows then { w with ioctl_winsize := ioctl_winsize }
  else
    { sess := calls md { w.sess with rows := rows, cols := cols, fullUpdate := true } event
      ioctl_winsize := ioctl_winsize }

/-- What happens to a session in a window. -/
inductive WindowStep
  | session (e : Step)
  /-- the size was asked for before the next byte -/
  | winch (ws : Option Winsize) (event : List Call)

/-- One step. -/
def windowStep (md : Mode) (cb : Callbacks) (w : Window) : WindowStep → Window
  | .session e => { w with sess := step md cb w.sess e }
  | .winch ws event => update_window_size md w ws event

/-- `uline_init`: the first size is asked for. -/
def openWindow (md : Mode) (ws : Option Winsize) (event : List Call) : Window :=
  update_window_size md { sess := { rows := 0, cols := 0 }, ioctl_winsize := true } ws event

/-- The width that a step reports. -/
def reported (w : Window) : WindowStep → Option ℕ
  | .session (.char c _) =>
    match w.sess.escSeq with
    | some seq =>
      let (esc, data) := vt100EscDecode (seq ++ [c])
      if esc = .cursorPos then some (data / 2 ^ 16) else none
    | none => none
  | .session _ => none
  | .winch ws _ => some (windowSize w.ioctl_winsize ws).2.1

/-- A width that is at least 1 and exact. -/
def GoodWidth (cols : ℕ) : Prop := 0 < cols ∧ ExactWidth cols

/-- A step reports no bad width. -/
def ReportsGood (w : Window) (e : WindowStep) : Prop :=
  ∀ cols, reported w e = some cols → GoodWidth cols

/-! ## Valid coordinates -/

/-- The coordinates of a screen are valid: there is a column, and every addition to a position on
the screen gives the position on the screen that stands for the sum of the offsets, if the values
fit. -/
structure Coordinates (cols : ℕ) : Prop where
  column : 0 < cols
  add : ∀ p a : Pos, p.On cols → p.Fits → a.On cols → a.Fits → ∀ q : Pos, q.On cols → q.Fits →
    q.offset cols = p.offset cols + a.offset cols → pos_add cols p a = q
  add_ofs : ∀ (p : Pos) (n : ℕ), p.On cols → p.Fits → ∀ q : Pos, q.On cols → q.Fits →
    q.offset cols = p.offset cols + n → pos_add_ofs cols p n = q
  add_string : ∀ (md : Mode) (table : UInt32 → ℤ) (p : Pos) (s : List Byte) (es : List Mark),
    p.On cols → Parts md.signedChar s es → FitsAlong ⟨md, table, cols⟩ p es →
      pos_add_string ⟨md, table, cols⟩ p s = .ok (exactAt ⟨md, table, cols⟩ p es) ∧
        (exactAt ⟨md, table, cols⟩ p es).On cols

section Coordinates

variable {cols : ℕ} {p q : Pos}

lemma eq_of_offset (hp : p.On cols) (hq : q.On cols) (h : p.offset cols = q.offset cols) :
    p = q := by
  have hpx := hp.x
  have hqx := hq.x
  rw [Pos.offset, Pos.offset] at h
  have hy : p.y = q.y := by
    have hmul : p.x - q.x = (q.y - p.y) * cols := by linarith
    by_contra hne
    rcases lt_or_gt_of_ne hne with hlt | hlt
    · nlinarith
    · nlinarith
  refine Pos.ext ?_ hy
  rw [hy] at h
  linarith

lemma eq_advance (hcols : 0 < cols) (hp : p.On cols) (hq : q.On cols) {n : ℕ}
    (h : q.offset cols = p.offset cols + n) : q = p.advance cols n := by
  refine eq_of_offset hq (hp.advance hcols n) ?_
  rw [h, Pos.offset_advance]

lemma pos_convert_offset {a : Pos} (hcols : 0 < cols) (ha : a.On cols) (hfit : a.Fits) :
    ∃ n : ℕ, (n : ℤ) = a.offset cols ∧ pos_convert cols n = ⟨int16 a.x, a.y⟩ := by
  obtain ⟨⟨hx0, hx⟩, hy0⟩ := ha
  obtain ⟨x, hx'⟩ := Int.eq_ofNat_of_zero_le hx0
  obtain ⟨y, hy'⟩ := Int.eq_ofNat_of_zero_le hy0
  have hlt : x < cols := by omega
  have hdiv : (x + y * cols) / cols = y := by
    rw [Nat.add_mul_div_right _ _ hcols, Nat.div_eq_of_lt hlt, Nat.zero_add]
  have hmod : (x + y * cols) % cols = x := by
    rw [Nat.add_mul_mod_self_right, Nat.mod_eq_of_lt hlt]
  refine ⟨x + y * cols, ?_, ?_⟩
  · rw [Pos.offset, hx', hy']
    push_cast
    ring
  · rw [pos_convert_eq _ (by rw [hdiv, ← hy']; exact hfit.y), hdiv, hmod, hx', hy']

/-- The coordinates of a screen of a good width are valid, and those of no other. -/
lemma coordinates_iff_width : Coordinates cols ↔ GoodWidth cols := by
  constructor
  · intro h
    refine ⟨h.column, ?_⟩
    by_contra hw
    obtain ⟨p, m, n, hdiv⟩ := exists_diverges h.column hw
    have hon := hdiv.on.advance h.column
    have hexact : ∀ (r : Pos) (k : ℕ), r.On cols → r.Fits → (r.advance cols k).Fits →
        pos_add_ofs cols r k = r.advance cols k := fun r k hr hfit hk =>
      h.add_ofs r k hr hfit _ (hr.advance h.column k) hk (Pos.offset_advance cols r k)
    refine hdiv.differ ?_
    have hsum := Pos.advance_advance h.column p m n
    rw [hexact p m hdiv.on hdiv.fits hdiv.mid,
      hexact _ n (hon m) hdiv.mid (by rw [hsum]; exact hdiv.sum), hsum,
      hexact p _ hdiv.on hdiv.fits hdiv.sum]
  · rintro ⟨hcols, hw⟩
    have hofs : ∀ (p : Pos) (n : ℕ), p.On cols → p.Fits → ∀ q : Pos, q.On cols → q.Fits →
        q.offset cols = p.offset cols + n → pos_add_ofs cols p n = q := by
      intro p n hp hpfit q hq hqfit hsum
      have heq := eq_advance hcols hp hq hsum
      rw [posAddOfs_exact hw hcols hp hpfit (by rw [← heq]; exact hqfit), heq]
    refine ⟨hcols, ?_, hofs, ?_⟩
    · intro p a hp hpfit ha hafit q hq hqfit hsum
      obtain ⟨n, hn, hconv⟩ := pos_convert_offset hcols ha hafit
      have ha' : pos_convert cols n = a := by
        have hx := ha.x
        have hxfit := hafit.x
        rw [hconv, int16_of_fits (by omega)]
      rw [← hofs p n hp hpfit q hq hqfit (by rw [hn]; exact hsum), pos_add_ofs, ha']
    · intro md table p s es hp hs hfit
      exact ⟨@run_exact ⟨md, table, cols⟩ p es s hw hcols hp hs hfit,
        @On.exactAt ⟨md, table, cols⟩ p hcols hp es⟩

end Coordinates

/-! ## What a step does to the width -/

section Width

variable {md : Mode} {cb : Callbacks} {r : Reply} {s : Sess}

@[simp] lemma cols_put (w : Which) (l : LineBuf) : (s.put w l).cols = s.cols := by
  cases w <;> rfl

@[simp] lemma cols_finish (w : Which) (o : Option (LineBuf × Bool)) :
    (s.finish w o).1.cols = s.cols := by
  cases o with
  | none => rfl
  | some x => exact cols_put w x.1

@[simp] lemma cols_doOp (w : Which) (op : Op) : (s.doOp md w op).1.cols = s.cols := by
  rw [Sess.doOp]
  split
  · rfl
  · exact cols_finish _ _

@[simp] lemma cols_call (k : Call) : (call md s k).cols = s.cols := by
  cases k with
  | setLine str junk => exact cols_doOp _ _
  | setLine2 str junk =>
    rw [call]
    split
    · exact cols_doOp _ _
    · rfl
  | setPrompt str =>
    rw [call, ulineSetPrompt]
    split <;> rfl
  | setLine2Prompt str =>
    cases str with
    | none => rfl
    | some str =>
      rw [call, ulineSetLine2Prompt]
      split <;> rfl

@[simp] lemma cols_calls (cs : List Call) : (calls md s cs).cols = s.cols := by
  induction cs generalizing s with
  | nil => rfl
  | cons k cs ih =>
    show (calls md (call md s k) cs).cols = s.cols
    rw [ih, cols_call]

@[simp] lemma cols_displayUpdate : (displayUpdate md s).cols = s.cols := by
  rw [displayUpdate]
  dsimp only
  rw [cols_doOp]
  split <;> simp only [cols_doOp]

@[simp] lemma cols_escTarget (esc : Vt100Escape) : (escTarget md cb r s esc).1.cols = s.cols := by
  rw [escTarget]
  split
  · split
    · rfl
    · split
      · exact cols_calls _
      · rfl
  · rfl

lemma cols_processEsc (esc : Vt100Escape) (data : ℕ) : (processEsc md cb r s esc data).1.cols =
    if esc = .cursorPos then data / 2 ^ 16 else s.cols := by
  rw [processEsc]
  cases esc with
  | cursorPos =>
    dsimp only
    split
    · rename_i hsame
      exact hsame.2
    · exact cols_calls _
  | cursorUp => simp
  | cursorDown => simp
  | _ => simp

@[simp] lemma cols_resetLine : (resetLine md s).cols = s.cols := by
  rw [resetLine]
  split
  · rfl
  · exact cols_doOp _ _

@[simp] lemma cols_acceptLine : (acceptLine md r s).cols = s.cols := by
  rw [acceptLine]
  split
  · rw [cols_resetLine, cols_calls]
    rfl
  · rw [cols_doOp, cols_calls]
    rfl

@[simp] lemma cols_processNewline (drop : Bool) :
    (processNewline md cb r s drop).1.cols = s.cols := by
  rw [processNewline]
  split
  · exact cols_resetLine
  · split
    · dsimp only
      split
      · exact cols_calls _
      · rw [cols_acceptLine, cols_calls]
    · exact cols_acceptLine

@[simp] lemma cols_line2Updated : (line2Updated md cb r s).cols = s.cols := by
  rw [line2Updated]
  split
  · exact cols_calls _
  · rfl

@[simp] lemma cols_processCtrl (c : Byte) : (processCtrl md cb r s c).1.cols = s.cols := by
  rw [processCtrl]
  dsimp only
  repeat' split
  all_goals simp [cols_processEsc]

@[simp] lemma cols_handleUtf8 (c : Byte) : (handleUtf8 md s c).1.cols = s.cols := by
  rw [handleUtf8]
  repeat' split
  all_goals rfl

@[simp] lemma cols_plainChar (c : Byte) : (plainChar md cb r s c).1.cols = s.cols := by
  rw [plainChar]
  split
  · exact cols_processCtrl c
  · rw [insertChar]
    dsimp only
    split
    · rw [cols_handleUtf8, cols_doOp]
    · rw [cols_line2Updated, cols_handleUtf8, cols_doOp]

/-- The width behind a byte is the one it reports, if it reports one. -/
lemma cols_processChar (w : Window) (c : Byte) : (processChar md cb r w.sess c).cols =
    (reported w (.session (.char c r))).getD w.sess.cols := by
  have hshow : ∀ x : Sess × Bool,
      (if x.2 && !x.1.stop then displayUpdate md x.1 else x.1).cols = x.1.cols := by
    intro x
    split
    · exact cols_displayUpdate
    · rfl
  rw [processChar]
  refine (hshow (dispatchChar md cb r w.sess c)).trans ?_
  cases hseq : w.sess.escSeq with
  | none =>
    simp only [dispatchChar, reported, hseq]
    split
    · split
      · exact cols_calls _
      · rw [cols_plainChar, cols_calls]
        rfl
    · exact cols_plainChar c
  | some seq =>
    simp only [dispatchChar, reported, hseq, processSeq]
    split
    · rename_i hinc
      rw [if_neg (by rw [hinc.1]; decide)]
      rfl
    · rw [cols_processEsc]
      split <;> rfl

lemma cols_step (w : Window) (e : WindowStep) :
    (windowStep md cb w e).sess.cols = (reported w e).getD w.sess.cols := by
  cases e with
  | session e =>
    cases e with
    | char c r => exact cols_processChar w c
    | call k => exact cols_call k
    | poll => exact cols_displayUpdate
  | winch ws event =>
    rw [windowStep, update_window_size]
    dsimp only
    split
    · rename_i hsame
      exact hsame.1
    · exact cols_calls _

end Width

/-! ## Runs -/

lemma cols_openWindow (md : Mode) (ws : Option Winsize) (event : List Call) :
    (openWindow md ws event).sess.cols = (windowSize true ws).2.1 := by
  rw [openWindow, update_window_size]
  dsimp only
  split
  · rename_i hsame
    exact hsame.1
  · exact cols_calls _

/-- In every run the coordinates are valid in all states, if and only if no width that was reported
is 0 or one for which the step is not exact. -/
theorem coordinates_iff (md : Mode) (cb : Callbacks) (ws : Option Winsize) (event : List Call)
    (steps : List WindowStep) :
    (∀ es1 es2, steps = es1 ++ es2 →
        Coordinates (run (windowStep md cb) (openWindow md ws event) es1).sess.cols) ↔
      GoodWidth (windowSize true ws).2.1 ∧
        AllSteps (windowStep md cb) ReportsGood (openWindow md ws event) steps := by
  have hopen : Coordinates (openWindow md ws event).sess.cols ↔
      GoodWidth (windowSize true ws).2.1 := by
    rw [coordinates_iff_width, cols_openWindow]
  have hstep : ∀ (w : Window) (e : WindowStep), True → Coordinates w.sess.cols →
      (ReportsGood w e ↔ Coordinates (windowStep md cb w e).sess.cols) := by
    intro w e _ hgood
    rw [coordinates_iff_width, cols_step, ReportsGood]
    cases reported w e with
    | none => exact iff_of_true nofun (coordinates_iff_width.mp hgood)
    | some cols =>
      exact ⟨fun h => h cols rfl, fun h cols' hcols' => Option.some.inj hcols' ▸ h⟩
  have hrun : GoodWidth (windowSize true ws).2.1 →
      (AllSteps (windowStep md cb) ReportsGood (openWindow md ws event) steps ↔
        ∀ es1 es2, steps = es1 ++ es2 →
          Coordinates (run (windowStep md cb) (openWindow md ws event) es1).sess.cols) := fun hw =>
    @allSteps_iff_states _ _ (windowStep md cb) ReportsGood _ steps (fun _ => True)
      (fun w => Coordinates w.sess.cols) trivial (hopen.mpr hw) (fun _ _ _ _ => trivial) hstep
  constructor
  · intro h
    have hw := hopen.mp (h [] steps rfl)
    exact ⟨hw, (hrun hw).mpr h⟩
  · rintro ⟨hw, hall⟩
    exact (hrun hw).mp hall

/-- What the callbacks do for a byte if they do nothing. -/
def Reply.quiet : Reply := ⟨([], false), [], ([], false), [], ([], false), ([], false), fun _ => 0⟩

/-- The terminal reports the column 0: ESC `[1;0R`. -/
def zeroReport : List WindowStep :=
  [27, 91, 49, 59, 48, 82].map fun c => .session (.char c .quiet)

theorem zeroReport_not : ¬∀ es1 es2, zeroReport = es1 ++ es2 →
    Coordinates (run (windowStep ⟨true, true⟩ ⟨false, false, false, false⟩)
      (openWindow ⟨true, true⟩ none []) es1).sess.cols := by
  intro h
  have hcols := (h zeroReport [] (List.append_nil _).symm).column
  exact absurd hcols (by decide +kernel)

end Uline
