import Mt798x.Uline.Safety
import Mt798x.Uline.Vt100

/-!
# Editing sessions

A session feeds bytes to `process_char` and calls `uline_set_line`, `uline_set_line2`,
`uline_set_prompt` and `uline_set_line2_prompt` in any order, also from inside the callbacks.  What
a callback does and returns is given by the environment (`Reply`).

The session records every operation on a line together with the line it was applied to.  When an
operation leaves the allocation, the session stops (`fault`).
-/

namespace Uline

open Bytes

/-! ## The state -/

/-- One of the two lines. -/
inductive Which
  | line | line2
  deriving DecidableEq, Repr

/-- An operation and the line it was applied to; `none` if it was applied to the second line when
there was none. -/
structure Event where
  buf : Option LineBuf
  op : Op

/-- The part of `struct uline_state` the lines depend on. -/
structure Sess where
  line : LineBuf := {}
  line2 : Option LineBuf := none
  rows : ℕ := 25
  cols : ℕ := 80
  fullUpdate : Bool := true
  stop : Bool := false
  /-- the bytes behind an ESC; `none` if `esc_idx` is -1 -/
  escSeq : Option (List Byte) := none
  utf8Cont : ℕ := 0
  fault : Bool := false
  log : List Event := []

namespace Sess

/-- The buffer of a line. -/
def get (s : Sess) : Which → Option LineBuf
  | .line => some s.line
  | .line2 => s.line2

/-- Stores the buffer of a line. -/
def put (s : Sess) (w : Which) (l : LineBuf) : Sess :=
  match w with
  | .line => { s with line := l }
  | .line2 => { s with line2 := some l }

/-- The line that is edited. -/
def edited (s : Sess) : Which := if s.line2.isSome then .line2 else .line

/-- The session after an operation that stayed inside the allocation or did not. -/
def finish (s : Sess) (w : Which) : Option (LineBuf × Bool) → Sess × Bool
  | none => ({ s with fault := true }, false)
  | some (l, r) => (s.put w l, r)

/-- An operation on a line, and what it returns. -/
def doOp (md : Mode) (s : Sess) (w : Which) (op : Op) : Sess × Bool :=
  if s.fault then (s, false)
  else
    finish { s with log := s.log ++ [Event.mk (s.get w) op] } w
      ((s.get w).bind fun l => op.run md l)

end Sess

/-! ## Calls from outside -/

/-- The calls the user of the library makes. -/
inductive Call
  | setLine (str : List Byte) (junk : ℕ → Byte)
  | setLine2 (str : List Byte) (junk : ℕ → Byte)
  | setPrompt (str : List Byte)
  | setLine2Prompt (str : Option (List Byte))

/-- `free_line2`. -/
def freeLine2 (s : Sess) : Sess := { s with line2 := none }

/-- `uline_set_prompt`. -/
def ulineSetPrompt (s : Sess) (str : List Byte) : Sess :=
  if s.line.prompt = some str then s
  else { s with line := { s.line with prompt := some str }, fullUpdate := true }

/-- `uline_set_line2_prompt`. -/
def ulineSetLine2Prompt (s : Sess) : Option (List Byte) → Sess
  | none => freeLine2 s
  | some str =>
    let l := s.line2.getD {}
    if l.prompt = some str then { s with line2 := some l }
    else { s with line2 := some { l with prompt := some str }, fullUpdate := true }

/-- A call. -/
def call (md : Mode) (s : Sess) : Call → Sess
  | .setLine str junk => (s.doOp md .line (.setLine str junk)).1
  | .setLine2 str junk => if s.line2.isSome then (s.doOp md .line2 (.setLine str junk)).1 else s
  | .setPrompt str => ulineSetPrompt s str
  | .setLine2Prompt str => ulineSetLine2Prompt s str

/-- The calls made by a callback. -/
def calls (md : Mode) (s : Sess) (cs : List Call) : Sess := cs.foldl (call md) s

/-- The callbacks that are set; `event` and `line` always are. -/
structure Callbacks where
  keyInput : Bool
  line2Update : Bool
  line2Cursor : Bool
  line2Newline : Bool

/-- What the callbacks do and return while one byte is processed, and what the allocator adds to a
line when the byte is inserted.  No callback is called twice for one byte. -/
structure Reply where
  keyInput : List Call × Bool
  event : List Call
  line : List Call × Bool
  line2Update : List Call
  line2Cursor : List Call × Bool
  line2Newline : List Call × Bool
  junk : ℕ → Byte

/-! ## Redraw -/

/-- `display_update`. -/
def displayUpdate (md : Mode) (s : Sess) : Sess :=
  let full := s.fullUpdate
  let s := (s.doOp md .line (.display full)).1
  let s := if s.line2.isSome then (s.doOp md .line2 (.display full)).1 else s
  let s := (s.doOp md s.edited .place).1
  { s with fullUpdate := false }

/-! ## Input -/

section Input

variable (md : Mode) (cb : Callbacks) (r : Reply)

/-- The line an escape sequence is for. -/
def escTarget (s : Sess) (esc : Vt100Escape) : Sess × Which :=
  if s.line2.isSome then
    if esc = .delete then (s, .line2)
    else if cb.line2Cursor then
      (calls md s r.line2Cursor.1, if r.line2Cursor.2 then .line2 else .line)
    else (s, .line)
  else (s, .line)

/-- `process_esc`. -/
def processEsc (s : Sess) (esc : Vt100Escape) (data : ℕ) : Sess × Bool :=
  let (s, w) := escTarget md cb r s esc
  match esc with
  | .cursorLeft => s.doOp md w .moveLeft
  | .cursorWordLeft => s.doOp md w .moveWordLeft
  | .cursorRight => s.doOp md w .moveRight
  | .cursorWordRight => s.doOp md w .moveWordRight
  | .cursorPos =>
    if s.rows = data % 2 ^ 16 ∧ s.cols = data / 2 ^ 16 then (s, false)
    else
      (calls md { s with rows := data % 2 ^ 16, cols := data / 2 ^ 16, fullUpdate := true } r.event,
        true)
  | .home => s.doOp md w .home
  | .toEnd => s.doOp md w .toEnd
  | .cursorUp => (calls md s r.event, true)
  | .cursorDown => (calls md s r.event, true)
  | .delete => s.doOp md w .deleteSymbol
  | _ => (s, false)

/-- The end of `process_newline`: the line is cleared. -/
def resetLine (s : Sess) : Sess :=
  let s := { s with fullUpdate := true }
  if s.line.len = 0 then s else (s.doOp md .line .reset).1

/-- `process_newline` with `drop` false, behind the second line's callback. -/
def acceptLine (s : Sess) : Sess :=
  let s := calls md (freeLine2 s) r.line.1
  if r.line.2 then resetLine md s
  else (s.doOp md .line (.insert [10] r.junk)).1

/-- `process_newline`. -/
def processNewline (s : Sess) (drop : Bool) : Sess × Bool :=
  if drop then (resetLine md s, true)
  else if s.line2.isSome && cb.line2Newline then
    let s := calls md s r.line2Newline.1
    if r.line2Newline.2 then (s, true) else (acceptLine md r s, true)
  else (acceptLine md r s, true)

/-- Tells the user that the second line changed. -/
def line2Updated (s : Sess) : Sess :=
  if s.line2.isSome && cb.line2Update then calls md s r.line2Update else s

/-- `process_ctrl`. -/
def processCtrl (s : Sess) (c : Byte) : Sess × Bool :=
  let w := s.edited
  if c = 10 ∨ c = 13 then processNewline md cb r s false
  else if c = 3 then
    let s := (processNewline md cb r (calls md s r.event) true).1
    ({ s with stop := true }, true)
  else if c = 4 then
    if s.line.len ≠ 0 then (s, false)
    else ({ calls md s r.event with stop := true }, true)
  else if c = 8 ∨ c = 127 then
    let (s, moved) := s.doOp md w .moveLeft
    if moved then (line2Updated md cb r (s.doOp md w .deleteSymbol).1, true) else (s, false)
  else if c = 12 then ({ s with fullUpdate := true }, true)
  else if c = 21 then ((s.doOp md w .reset).1, true)
  else if c = 1 then processEsc md cb r s .home 0
  else if c = 5 then processEsc md cb r s .toEnd 0
  else if c = 23 then s.doOp md w .backword
  else if c = 27 then ({ s with escSeq := some [] }, false)
  else (s, false)

/-- `check_utf8`. -/
def checkUtf8 (s : Sess) (c : Byte) : Bool :=
  md.utf8 && (s.utf8Cont ≠ 0 || c &&& 0xc0 == 0xc0)

/-- The bytes that follow a lead byte, counted by shifting it. -/
def contCount : ℕ → Byte → ℕ
  | 0, _ => 0
  | n + 1, c => if c &&& 0x80 ≠ 0 then contCount n (c <<< 1) + 1 else 0

/-- `handle_utf8`: `true` inside a symbol. -/
def handleUtf8 (s : Sess) (c : Byte) : Sess × Bool :=
  if md.utf8 then
    if s.utf8Cont = 0 then
      if c &&& 0xc0 ≠ 0xc0 then (s, false)
      else ({ s with utf8Cont := contCount 8 ((c &&& 0xf0) <<< 1) }, true)
    else if c &&& 0xc0 ≠ 0x80 then ({ s with utf8Cont := 0 }, false)
    else ({ s with utf8Cont := s.utf8Cont - 1 }, s.utf8Cont - 1 ≠ 0)
  else (s, false)

/-- A byte behind an ESC; the sequence is at most 31 bytes long. -/
def processSeq (s : Sess) (seq : List Byte) (c : Byte) : Sess × Bool :=
  let seq := seq ++ [c]
  let (esc, data) := vt100EscDecode seq
  if esc = .incomplete ∧ seq.length < 31 then ({ s with escSeq := some seq }, false)
  else processEsc md cb r { s with escSeq := none } esc data

/-- A byte of text. -/
def insertChar (s : Sess) (c : Byte) : Sess × Bool :=
  let s := (s.doOp md s.edited (.insert [c] r.junk)).1
  let (s, inside) := handleUtf8 md s c
  if inside then (s, false) else (line2Updated md cb r s, true)

/-- A byte outside of an escape sequence that no callback took. -/
def plainChar (s : Sess) (c : Byte) : Sess × Bool :=
  if c < 32 ∨ c = 127 then processCtrl md cb r s c else insertChar md cb r s c

/-- The branches of `process_char`; `true` if the lines are to be displayed. -/
def dispatchChar (s : Sess) (c : Byte) : Sess × Bool :=
  match s.escSeq with
  | some seq => processSeq md cb r s seq c
  | none =>
    if cb.keyInput && !checkUtf8 md s c then
      let s := calls md s r.keyInput.1
      if r.keyInput.2 then (s, true) else plainChar md cb r s c
    else plainChar md cb r s c

/-- `process_char`. -/
def processChar (s : Sess) (c : Byte) : Sess :=
  let (s, update) := dispatchChar md cb r s c
  if update && !s.stop then displayUpdate md s else s

end Input

/-! ## Runs -/

/-- One step of a session. -/
inductive Step
  | char (c : Byte) (r : Reply)
  | call (k : Call)
  /-- the start of `uline_poll` -/
  | poll

/-- One step. -/
def step (md : Mode) (cb : Callbacks) (s : Sess) : Step → Sess
  | .char c r => processChar md cb r s c
  | .call k => call md s k
  | .poll => { displayUpdate md s with stop := false }

/-- A session in a window of the given size. -/
def session (md : Mode) (cb : Callbacks) (rows cols : ℕ) (steps : List Step) : Sess :=
  steps.foldl (step md cb) { rows := rows, cols := cols }

/-! ## What a session keeps -/

/-- Operations that type nothing but the line feed of a line that is not accepted. -/
def Op.Edits : Op → Prop
  | .insert c _ => c = [10]
  | _ => True

/-- A property of sessions that everything keeps which happens to the lines; of the text that is
typed only the bytes of the kind `T`. -/
structure Kept (md : Mode) (T : Byte → Prop) (P : Sess → Prop) : Prop where
  op : ∀ {s : Sess}, P s → ∀ (w : Which) (op : Op), op.Edits → P (s.doOp md w op).1
  text : ∀ {s : Sess} {c : Byte} (junk : ℕ → Byte), T c → P s →
    P (handleUtf8 md (s.doOp md s.edited (.insert [c] junk)).1 c).1
  prompt : ∀ {s : Sess} (str : List Byte), P s → P (ulineSetPrompt s str)
  prompt2 : ∀ {s : Sess} (str : Option (List Byte)), P s → P (ulineSetLine2Prompt s str)
  other : ∀ {s s' : Sess}, P s → s'.log = s.log → s'.fault = s.fault → s'.line = s.line →
    s'.line2 = s.line2 → s'.utf8Cont = s.utf8Cont → P s'

/-- The byte is not typed into a line unless it is of the kind `T`: it belongs to an escape
sequence, a callback takes it, or it is a control character. -/
def Taken (md : Mode) (cb : Callbacks) (r : Reply) (T : Byte → Prop) (s : Sess) (c : Byte) :
    Prop :=
  s.escSeq ≠ none ∨ (cb.keyInput && !checkUtf8 md s c) = true ∧ r.keyInput.2 = true ∨
    (c < 32 ∨ c = 127) ∨ T c

section Kept

variable {md : Mode} {cb : Callbacks} {r : Reply} {T : Byte → Prop} {P : Sess → Prop} {s : Sess}

namespace Kept

lemma call (hk : Kept md T P) (h : P s) (k : Call) : P (Uline.call md s k) := by
  cases k with
  | setLine str junk => exact hk.op h _ _ trivial
  | setLine2 str junk =>
    rw [Uline.call]
    split
    · exact hk.op h _ _ trivial
    · exact h
  | setPrompt str => exact hk.prompt str h
  | setLine2Prompt str => exact hk.prompt2 str h

lemma calls (hk : Kept md T P) (h : P s) (cs : List Call) : P (Uline.calls md s cs) := by
  induction cs generalizing s with
  | nil => exact h
  | cons k cs ih => exact ih (hk.call h k)

lemma displayUpdate (hk : Kept md T P) (h : P s) : P (Uline.displayUpdate md s) := by
  rw [Uline.displayUpdate]
  refine hk.other (hk.op ?_ _ .place trivial) rfl rfl rfl rfl rfl
  split
  · exact hk.op (hk.op h _ (.display _) trivial) _ _ trivial
  · exact hk.op h _ _ trivial

lemma escTarget (hk : Kept md T P) (h : P s) (esc : Vt100Escape) :
    P (Uline.escTarget md cb r s esc).1 := by
  rw [Uline.escTarget]
  split
  · split
    · exact h
    · split
      · exact hk.calls h _
      · exact h
  · exact h

lemma processEsc (hk : Kept md T P) (h : P s) (esc : Vt100Escape) (data : ℕ) :
    P (Uline.processEsc md cb r s esc data).1 := by
  have ht : P (Uline.escTarget md cb r s esc).1 := hk.escTarget h esc
  rw [Uline.processEsc]
  cases esc with
  | cursorPos =>
    dsimp only
    split
    · exact ht
    · refine hk.calls ?_ _
      exact hk.other ht rfl rfl rfl rfl rfl
  | cursorUp => exact hk.calls ht _
  | cursorDown => exact hk.calls ht _
  | _ => first | exact ht | exact hk.op ht _ _ trivial

lemma resetLine (hk : Kept md T P) (h : P s) : P (Uline.resetLine md s) := by
  have h1 : P { s with fullUpdate := true } := hk.other h rfl rfl rfl rfl rfl
  rw [Uline.resetLine]
  split
  · exact h1
  · exact hk.op h1 _ _ trivial

lemma acceptLine (hk : Kept md T P) (h : P s) : P (Uline.acceptLine md r s) := by
  have h1 := hk.calls (hk.prompt2 none h) r.line.1
  rw [Uline.acceptLine]
  split
  · exact hk.resetLine h1
  · exact hk.op h1 _ _ rfl

lemma processNewline (hk : Kept md T P) (h : P s) (drop : Bool) :
    P (Uline.processNewline md cb r s drop).1 := by
  rw [Uline.processNewline]
  split
  · exact hk.resetLine h
  · split
    · dsimp only
      split
      · exact hk.calls h _
      · exact hk.acceptLine (hk.calls h _)
    · exact hk.acceptLine h

lemma line2Updated (hk : Kept md T P) (h : P s) : P (Uline.line2Updated md cb r s) := by
  rw [Uline.line2Updated]
  split
  · exact hk.calls h _
  · exact h

lemma processCtrl (hk : Kept md T P) (h : P s) (c : Byte) :
    P (Uline.processCtrl md cb r s c).1 := by
  rw [Uline.processCtrl]
  dsimp only
  split_ifs
  · exact hk.processNewline h _
  · exact hk.other (hk.processNewline (hk.calls h _) _) rfl rfl rfl rfl rfl
  · exact h
  · exact hk.other (hk.calls h _) rfl rfl rfl rfl rfl
  · exact hk.line2Updated (hk.op (hk.op h _ .moveLeft trivial) _ _ trivial)
  · exact hk.op h _ _ trivial
  · exact hk.other h rfl rfl rfl rfl rfl
  · exact hk.op h _ _ trivial
  · exact hk.processEsc h _ _
  · exact hk.processEsc h _ _
  · exact hk.op h _ _ trivial
  · exact hk.other h rfl rfl rfl rfl rfl
  · exact h

lemma insertChar (hk : Kept md T P) (h : P s) {c : Byte} (hc : T c) :
    P (Uline.insertChar md cb r s c).1 := by
  have h1 := hk.text r.junk hc h
  rw [Uline.insertChar]
  dsimp only
  split
  · exact h1
  · exact hk.line2Updated h1

lemma plainChar (hk : Kept md T P) (h : P s) {c : Byte} (hc : (c < 32 ∨ c = 127) ∨ T c) :
    P (Uline.plainChar md cb r s c).1 := by
  rw [Uline.plainChar]
  split
  · exact hk.processCtrl h c
  · rename_i hctrl
    exact hk.insertChar h (hc.resolve_left hctrl)

lemma dispatchChar (hk : Kept md T P) (h : P s) {c : Byte} (hc : Taken md cb r T s c) :
    P (Uline.dispatchChar md cb r s c).1 := by
  rw [Uline.dispatchChar]
  split
  · rw [processSeq]
    dsimp only
    split
    · exact hk.other h rfl rfl rfl rfl rfl
    · refine hk.processEsc ?_ _ _
      exact hk.other h rfl rfl rfl rfl rfl
  · rename_i hesc
    have htext := hc.resolve_left (not_not.mpr hesc)
    split
    · dsimp only
      split
      · exact hk.calls h _
      · rename_i hnot
        exact hk.plainChar (hk.calls h _) (htext.resolve_left fun hkey => hnot hkey.2)
    · rename_i hnot
      exact hk.plainChar h (htext.resolve_left fun hkey => hnot hkey.1)

lemma processChar (hk : Kept md T P) (h : P s) {c : Byte} (hc : Taken md cb r T s c) :
    P (Uline.processChar md cb r s c) := by
  have hd := hk.dispatchChar h hc
  rw [Uline.processChar]
  dsimp only
  split
  · exact hk.displayUpdate hd
  · exact hd

lemma step (hk : Kept md T P) (h : P s) {st : Step}
    (hc : ∀ c r, st = .char c r → Taken md cb r T s c) : P (Uline.step md cb s st) := by
  cases st with
  | char c r => exact hk.processChar h (hc c r rfl)
  | call k => exact hk.call h k
  | poll => exact hk.other (hk.displayUpdate h) rfl rfl rfl rfl rfl

end Kept

end Kept

/-! ## Safe sessions -/

/-- The condition of a recorded operation was met. -/
def Event.Cond (md : Mode) (e : Event) : Prop := ∃ l, e.buf = some l ∧ e.op.Cond md l

/-- A recorded operation was safe. -/
def Event.Safe (md : Mode) (e : Event) : Prop := ∃ l, e.buf = some l ∧ e.op.Safe md l

/-- A session without an access outside of an allocation, in which every operation left a sound
line. -/
structure SessionSafe (md : Mode) (s : Sess) : Prop where
  fault : s.fault = false
  ops : ∀ e ∈ s.log, e.Safe md
  line : s.line.Sound
  line2 : ∀ l, s.line2 = some l → l.Sound

/-- The invariant: as long as all conditions are met, or all operations are safe, both hold. -/
def Good (md : Mode) (s : Sess) : Prop :=
  ((∀ e ∈ s.log, e.Cond md) ∨ ∀ e ∈ s.log, e.Safe md) →
    SessionSafe md s ∧ ∀ e ∈ s.log, e.Cond md

section Invariant

variable {md : Mode} {cb : Callbacks} {s s' : Sess}

lemma Good.congr (h : Good md s) (hlog : s'.log = s.log) (hfault : s'.fault = s.fault)
    (hline : s.line.Sound → s'.line.Sound)
    (hline2 : (∀ l, s.line2 = some l → l.Sound) → ∀ l, s'.line2 = some l → l.Sound) :
    Good md s' := by
  intro hor
  rw [hlog] at hor ⊢
  obtain ⟨hs, hc⟩ := h hor
  exact ⟨⟨hfault.trans hs.fault, hlog ▸ hs.ops, hline hs.line, hline2 hs.line2⟩, hc⟩

lemma SessionSafe.get (h : SessionSafe md s) {w : Which} {l : LineBuf} (hl : s.get w = some l) :
    l.Sound := by
  cases w with
  | line =>
    cases hl
    exact h.line
  | line2 => exact h.line2 l hl

lemma log_finish (s : Sess) (w : Which) (x : Option (LineBuf × Bool)) :
    (s.finish w x).1.log = s.log := by
  cases x with
  | none => rfl
  | some p => cases w <;> rfl

/-- One operation. -/
lemma good_doOp (h : Good md s) (w : Which) (op : Op) : Good md (s.doOp md w op).1 := by
  rw [Sess.doOp]
  split
  · exact h
  intro hor
  set e : Event := Event.mk (s.get w) op with he
  rw [log_finish] at hor ⊢
  have hmem : ∀ d ∈ s.log, d ∈ s.log ++ [e] := fun d hd => List.mem_append_left _ hd
  have hlast : e ∈ s.log ++ [e] := by simp
  have hold : SessionSafe md s ∧ ∀ d ∈ s.log, d.Cond md := by
    refine h ?_
    rcases hor with hc | hs
    · exact Or.inl fun d hd => hc d (hmem d hd)
    · exact Or.inr fun d hd => hs d (hmem d hd)
  obtain ⟨hsafe, hcond⟩ := hold
  have hboth : e.Cond md ∧ e.Safe md := by
    rcases hor with hc | hs
    · obtain ⟨l, hl, hop⟩ := hc e hlast
      exact ⟨⟨l, hl, hop⟩, l, hl, (safe_iff md (hsafe.get hl) op).mpr hop⟩
    · obtain ⟨l, hl, hop⟩ := hs e hlast
      exact ⟨⟨l, hl, (safe_iff md (hsafe.get hl) op).mp hop⟩, l, hl, hop⟩
  obtain ⟨l, hl, l', ret, hrun, hsound⟩ := hboth.2
  have hget : s.get w = some l := hl
  rw [hget, Option.bind_some, hrun]
  have hall : ∀ d ∈ s.log ++ [e], d.Safe md ∧ d.Cond md := by
    intro d hd
    rcases List.mem_append.mp hd with hd | hd
    · exact ⟨hsafe.ops d hd, hcond d hd⟩
    · rw [List.mem_singleton.mp hd]
      exact ⟨hboth.2, hboth.1⟩
  refine ⟨?_, fun d hd => (hall d hd).2⟩
  cases w with
  | line => exact ⟨hsafe.fault, fun d hd => (hall d hd).1, hsound, hsafe.line2⟩
  | line2 =>
    refine ⟨hsafe.fault, fun d hd => (hall d hd).1, hsafe.line, ?_⟩
    intro l2 hl2
    cases hl2
    exact hsound

lemma Good.other (h : Good md s) (hlog : s'.log = s.log) (hfault : s'.fault = s.fault)
    (hline : s'.line = s.line) (hline2 : s'.line2 = s.line2) : Good md s' :=
  h.congr hlog hfault (fun hs => hline ▸ hs) fun hs l hl => hs l (hline2 ▸ hl)

lemma good_freeLine2 (h : Good md s) : Good md (freeLine2 s) :=
  h.congr rfl rfl id fun _ l hl => by cases hl

lemma sound_empty : LineBuf.Sound {} := ⟨le_rfl, le_rfl, Or.inl ⟨rfl, rfl⟩⟩

lemma good_handleUtf8 (h : Good md s) (c : Byte) : Good md (handleUtf8 md s c).1 := by
  rw [handleUtf8]
  split_ifs
  · exact h
  · exact Good.other h rfl rfl rfl rfl
  · exact Good.other h rfl rfl rfl rfl
  · exact Good.other h rfl rfl rfl rfl
  · exact h

lemma good_setPrompt (h : Good md s) (str : List Byte) : Good md (ulineSetPrompt s str) := by
  rw [ulineSetPrompt]
  split
  · exact h
  · exact h.congr rfl rfl (fun hs => ⟨hs.pos, hs.updatePos, hs.ended⟩) fun hs => hs

lemma good_setLine2Prompt (h : Good md s) (str : Option (List Byte)) :
    Good md (ulineSetLine2Prompt s str) := by
  cases str with
  | none => exact good_freeLine2 h
  | some str =>
    -- a second line that is created is empty
    have hsound : (∀ l, s.line2 = some l → l.Sound) → (s.line2.getD {}).Sound := by
      intro hs
      cases hl : s.line2 with
      | none => exact sound_empty
      | some l => exact hs l hl
    rw [ulineSetLine2Prompt]
    split
    · refine h.congr rfl rfl id ?_
      intro hs l hl
      cases hl
      exact hsound hs
    · refine h.congr rfl rfl id ?_
      intro hs l hl
      cases hl
      exact ⟨(hsound hs).pos, (hsound hs).updatePos, (hsound hs).ended⟩

lemma kept_good : Kept md (fun _ => True) (Good md) where
  op h w _ _ := good_doOp h w _
  text _ _ h := good_handleUtf8 (good_doOp h _ _) _
  prompt str h := good_setPrompt h str
  prompt2 str h := good_setLine2Prompt h str
  other h hlog hfault hline hline2 _ := h.other hlog hfault hline hline2

lemma good_session (rows cols : ℕ) (steps : List Step) :
    Good md (session md cb rows cols steps) := by
  have hinit : Good md { rows := rows, cols := cols } := by
    intro _
    refine ⟨⟨rfl, ?_, sound_empty, ?_⟩, ?_⟩
    · intro e he
      cases he
    · intro l hl
      cases hl
    · intro e he
      cases he
  suffices h : ∀ s, Good md s → Good md (steps.foldl (step md cb) s) from h _ hinit
  induction steps with
  | nil => exact fun s h => h
  | cons st steps ih =>
    exact fun s h => ih _ (kept_good.step h fun _ _ _ => Or.inr (Or.inr (Or.inr trivial)))

end Invariant

/-- A session stays inside the allocations and keeps both lines sound exactly if every operation
on a line meets its condition. -/
theorem session_safe_iff (md : Mode) (cb : Callbacks) (rows cols : ℕ) (steps : List Step) :
    SessionSafe md (session md cb rows cols steps) ↔
      ∀ e ∈ (session md cb rows cols steps).log, e.Cond md := by
  constructor
  · intro h
    exact (good_session rows cols steps (Or.inr h.ops)).2
  · intro h
    exact (good_session rows cols steps (Or.inl h)).1

/-- Callbacks that do nothing and accept every line. -/
def quietReply : Reply := ⟨([], false), [], ([], true), [], ([], false), ([], false), fun _ => 0⟩

/-- Three sessions on a UTF-8 terminal that are not safe: `^U` before anything was typed writes
through the NULL pointer; replacing `abc` by `ab` leaves the line without its NUL; and after 40
characters `^W` reads 80 bytes of an allocation of 64. -/
theorem session_unsafe :
    ¬ SessionSafe ⟨true, false⟩ (session ⟨true, false⟩ ⟨false, false, false, false⟩ 25 80
      [.char 21 quietReply]) ∧
    ¬ SessionSafe ⟨true, false⟩ (session ⟨true, false⟩ ⟨false, false, false, false⟩ 25 80
      [.char 97 quietReply, .char 98 quietReply, .char 99 quietReply,
        .call (.setLine [97, 98] fun _ => 0)]) ∧
    ¬ SessionSafe ⟨true, false⟩ (session ⟨true, false⟩ ⟨false, false, false, false⟩ 25 80
      (List.replicate 40 (.char 97 quietReply) ++ [.char 23 quietReply])) := by
  refine ⟨?_, ?_, ?_⟩
  · intro h
    exact absurd h.fault (by decide)
  · intro h
    rcases h.line.ended with ⟨h1, -⟩ | h1
    · exact absurd h1 (by decide)
    · exact absurd h1 (by decide)
  · intro h
    exact absurd h.fault (by decide +kernel)

end Uline
