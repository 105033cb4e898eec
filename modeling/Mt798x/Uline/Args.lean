import Mt798x.Uline.LineBuf

/-!
# Splitting a line into arguments

`uc_uline_parse_args` of `ucode.c`: a scanner with five states that takes whole runs of characters
at a time.  A line separator (0 for none) starts a new list of arguments.  With `check` no lists are
made, and only the missing part is returned.

For proofs there is a second scanner that takes one character at a time and emits the arguments as
a stream (`Out`); `scan_emits` says that the two agree.
-/

namespace Uline

open Bytes

/-! ## The scanner -/

/-- The states of the scanner. -/
inductive QState
  | unquoted | backslash | singleQuote | doubleQuote | doubleQuoteBackslash
  deriving DecidableEq, Repr

/-- `state_str`: what is missing in a state. -/
def QState.str : QState → Option (List Byte)
  | .unquoted => none
  | .backslash => some [92]
  | .singleQuote => some [39]
  | .doubleQuote => some [34]
  | .doubleQuoteBackslash => some [92, 34]

/-- The variables of the scanner. -/
structure Scan where
  state : QState := .unquoted
  buf : Option (List Byte) := none
  /-- the current list, and the ones in front of it -/
  list : List (List Byte) := []
  lines : List (List (List Byte)) := []
  posList : List (ℤ × ℤ) := []
  posLines : List (List (ℤ × ℤ)) := []
  startIdx : ℤ := -1
  endIdx : ℤ := 0
  deriving DecidableEq, Repr

/-- A parser: its line separator, and whether it only checks. -/
structure ArgParser where
  sep : Byte
  check : Bool

namespace Scan

/-- `add_str`. -/
def addStr (p : ArgParser) (s : Scan) (str : List Byte) : Scan :=
  if p.check ∨ str = [] then s else { s with buf := some (s.buf.getD [] ++ str) }

/-- Ends an argument. -/
def pushArg (p : ArgParser) (s : Scan) : Scan :=
  if p.check then { s with buf := none, startIdx := -1 }
  else { s with
    list := s.list ++ [s.buf.getD []]
    posList := s.posList ++ [(s.startIdx, s.endIdx)]
    buf := none
    startIdx := -1 }

/-- The line separator. -/
def newLine (p : ArgParser) (s : Scan) : Scan :=
  if p.check then s
  else
    let s := if s.buf.isSome then s.pushArg p else s
    { s with
      buf := none
      lines := s.lines ++ [s.list]
      list := []
      posLines := s.posLines ++ [s.posList]
      posList := [] }

/-- Notes the start of an argument. -/
def mark (s : Scan) (idx : ℤ) : Scan := if s.startIdx < 0 then { s with startIdx := idx } else s

/-- A quote or backslash outside of quotes. -/
def enter (s : Scan) (q : QState) : Scan := { s with state := q, buf := some (s.buf.getD []) }

end Scan

section Scanner

variable (p : ArgParser)

/-- A character that `strcspn(str, unquote_tok)` passes over. -/
def isPlain (c : Byte) : Bool :=
  !(c == 32 || c == 9 || c == 13 || c == 10 || c == 39 || c == 34 || c == 92 || c == p.sep ||
    c == 0)

/-- A run of unquoted characters that starts at index `idx`. -/
def takeRun (s : Scan) (idx : ℤ) (run : List Byte) : Scan :=
  { (s.mark idx).addStr p run with endIdx := idx + run.length }

/-- The character that ends a run of unquoted ones. -/
def scanToken (s : Scan) (str : List Byte) : Scan × List Byte :=
  match str.headD 0 with
  | 0 => (s, str)
  | 39 => (s.enter .singleQuote, str.drop 1)
  | 34 => (s.enter .doubleQuote, str.drop 1)
  | 92 => (s.enter .backslash, str.drop 1)
  | c => if p.sep ≠ 0 ∧ c = p.sep then (s.newLine p, str.drop 1) else (s, str)

/-- The case `UNQUOTED` at index `idx`. -/
def scanUnquoted (s : Scan) (idx : ℤ) (str : List Byte) : Scan × List Byte :=
  if isSpace (str.headD 0) then
    (if s.buf.isSome then s.pushArg p else s, str.dropWhile isSpace)
  else
    scanToken p (takeRun p s idx (str.takeWhile (isPlain p))) (str.dropWhile (isPlain p))

/-- The cases `BACKSLASH` and `DOUBLE_QUOTE_BACKSLASH`; `q` is the state in front. -/
def scanBackslash (s : Scan) (q : QState) (idx : ℤ) (str : List Byte) : Scan × List Byte :=
  let s := s.mark idx
  let s := if str.headD 0 ≠ 10 then s.addStr p (str.take 1) else s
  ({ s with state := q, endIdx := idx + 1 }, str.drop 1)

/-- The case `SINGLE_QUOTE`. -/
def scanSingle (s : Scan) (idx : ℤ) (str : List Byte) : Scan × List Byte :=
  let run := str.takeWhile fun c => c ≠ 39 ∧ c ≠ 0
  let str := str.dropWhile fun c => c ≠ 39 ∧ c ≠ 0
  let s := (s.mark idx).addStr p run
  if str.headD 0 = 39 then
    ({ s with state := .unquoted, endIdx := idx + run.length + 1 }, str.drop 1)
  else ({ s with endIdx := idx + run.length }, str)

/-- The case `DOUBLE_QUOTE`. -/
def scanDouble (s : Scan) (idx : ℤ) (str : List Byte) : Scan × List Byte :=
  let run := str.takeWhile fun c => c ≠ 34 ∧ c ≠ 92 ∧ c ≠ 0
  let str := str.dropWhile fun c => c ≠ 34 ∧ c ≠ 92 ∧ c ≠ 0
  let s := (s.mark idx).addStr p run
  if str.headD 0 = 34 then
    ({ s with state := .unquoted, endIdx := idx + run.length + 1 }, str.drop 1)
  else if str.headD 0 = 92 then
    ({ s with state := .doubleQuoteBackslash, endIdx := idx + run.length + 1 }, str.drop 1)
  else ({ s with endIdx := idx + run.length }, str)

/-- One turn of the loop. -/
def scanTurn (s : Scan) (idx : ℤ) (str : List Byte) : Scan × List Byte :=
  match s.state with
  | .unquoted => scanUnquoted p s idx str
  | .backslash => scanBackslash p s .unquoted idx str
  | .doubleQuoteBackslash => scanBackslash p s .doubleQuote idx str
  | .singleQuote => scanSingle p s idx str
  | .doubleQuote => scanDouble p s idx str

/-- The loop over the string, which is `total` characters long, on `fuel`. -/
def scanLoop (total : ℕ) (s : Scan) (str : List Byte) : ℕ → Scan
  | 0 => s
  | fuel + 1 =>
    if str.headD 0 = 0 then s
    else
      let (s', str') := scanTurn p s (total - str.length) str
      scanLoop total s' str' fuel

/-- The scanner over a whole string. -/
def scanAll (str : List Byte) : Scan :=
  let s := scanLoop p str.length {} (str.dropWhile isSpace) str.length
  if s.buf.isSome then { s.pushArg p with startIdx := s.startIdx } else s

end Scanner

/-- The arguments: one list, or a list for every line if there is a separator. -/
inductive Args
  | flat (args : List (List Byte))
  | lines (args : List (List (List Byte)))
  deriving DecidableEq, Repr

/-- `uc_uline_argp_parse`: the arguments and what is missing. -/
def argpParse (sep : Byte) (str : List Byte) : Args × Option (List Byte) :=
  let s := scanAll ⟨sep, false⟩ str
  (if sep = 0 then .flat s.list else .lines (s.lines ++ [s.list]), s.state.str)

/-! ## One character at a time -/

/-- What the scanner emits: a character of an argument, the end of an argument, the end of a
line. -/
inductive Out
  | ch (c : Byte) | arg | line
  deriving DecidableEq, Repr

/-- The states of the scanner, with the inside of an unquoted run apart. -/
inductive AState
  | start | word | backslash | single | double | doubleBackslash
  deriving DecidableEq, Repr

/-- A state, and whether there is an argument to end. -/
structure Auto where
  st : AState
  isOpen : Bool
  deriving DecidableEq, Repr

/-- The end of an argument, if there is one. -/
def Auto.close (a : Auto) : List Out := if a.isOpen then [.arg] else []

/-- A character inside an unquoted run. -/
def wordStep (sep : Byte) (a : Auto) (c : Byte) : Auto × List Out :=
  if c = 39 then (⟨.single, true⟩, [])
  else if c = 34 then (⟨.double, true⟩, [])
  else if c = 92 then (⟨.backslash, true⟩, [])
  else if sep ≠ 0 ∧ c = sep then (⟨.start, false⟩, a.close ++ [.line])
  else if c = 32 ∨ c = 9 ∨ c = 13 ∨ c = 10 then (⟨.start, false⟩, a.close)
  else (⟨.word, true⟩, [.ch c])

/-- One character. -/
def Auto.step (sep : Byte) (a : Auto) (c : Byte) : Auto × List Out :=
  match a.st with
  | .start => if isSpace c then (⟨.start, false⟩, a.close) else wordStep sep a c
  | .word => wordStep sep a c
  | .backslash => (⟨.start, true⟩, if c = 10 then [] else [.ch c])
  | .doubleBackslash => (⟨.double, true⟩, if c = 10 then [] else [.ch c])
  | .single => if c = 39 then (⟨.start, true⟩, []) else (⟨.single, true⟩, [.ch c])
  | .double =>
    if c = 34 then (⟨.start, true⟩, [])
    else if c = 92 then (⟨.doubleBackslash, true⟩, []) else (⟨.double, true⟩, [.ch c])

/-- A string, and the end of the last argument. -/
def Auto.run (sep : Byte) (a : Auto) : List Byte → Auto × List Out
  | [] => (a, [])
  | c :: str =>
    let (a', out) := a.step sep c
    let (b, outs) := Auto.run sep a' str
    (b, out ++ outs)

lemma Auto.run_cons (sep : Byte) (a : Auto) (c : Byte) (str : List Byte) :
    a.run sep (c :: str) =
      (((a.step sep c).1.run sep str).1, (a.step sep c).2 ++ ((a.step sep c).1.run sep str).2) :=
  rfl

lemma Auto.run_append (sep : Byte) (a : Auto) (s t : List Byte) :
    a.run sep (s ++ t) =
      (((a.run sep s).1.run sep t).1, (a.run sep s).2 ++ ((a.run sep s).1.run sep t).2) := by
  induction s generalizing a with
  | nil => rfl
  | cons c s ih => rw [List.cons_append, Auto.run_cons, ih, Auto.run_cons, List.append_assoc]

/-! ## The two scanners agree -/

/-- The arguments of a line as a stream. -/
def emitArgs (l : List (List Byte)) : List Out := l.flatMap fun s => s.map .ch ++ [.arg]

/-- Everything that was scanned, as a stream. -/
def Scan.emitted (s : Scan) : List Out :=
  (s.lines.flatMap fun l => emitArgs l ++ [.line]) ++ emitArgs s.list ++ (s.buf.getD []).map .ch

/-- The state of the second scanner between two turns of the first. -/
def QState.auto : QState → AState
  | .unquoted => .start
  | .backslash => .backslash
  | .singleQuote => .single
  | .doubleQuote => .double
  | .doubleQuoteBackslash => .doubleBackslash

/-- The second scanner for a state of the first. -/
def Scan.auto (s : Scan) : Auto := ⟨s.state.auto, s.buf.isSome⟩

/-- The state of the first scanner. -/
def AState.quote : AState → QState
  | .start => .unquoted
  | .word => .unquoted
  | .backslash => .backslash
  | .single => .singleQuote
  | .double => .doubleQuote
  | .doubleBackslash => .doubleQuoteBackslash

/-- Going on with the second scanner from `s` and `str` is the same as from `s'` and `str'`. -/
structure Agrees (sep : Byte) (s : Scan) (str : List Byte) (s' : Scan) (str' : List Byte) :
    Prop where
  out : s.emitted ++ (s.auto.run sep str).2 = s'.emitted ++ (s'.auto.run sep str').2
  quote : (s.auto.run sep str).1.st.quote = (s'.auto.run sep str').1.st.quote
  isOpen : (s.auto.run sep str).1.isOpen = (s'.auto.run sep str').1.isOpen

lemma Agrees.trans {sep : Byte} {s1 s2 s3 : Scan} {str1 str2 str3 : List Byte}
    (h : Agrees sep s1 str1 s2 str2) (h' : Agrees sep s2 str2 s3 str3) :
    Agrees sep s1 str1 s3 str3 :=
  ⟨h.out.trans h'.out, h.quote.trans h'.quote, h.isOpen.trans h'.isOpen⟩

section Agree

variable {sep : Byte}

variable {c : Byte} (s : Scan) (idx : ℤ)

lemma Scan.emitted_addStr (str : List Byte) :
    (s.addStr ⟨sep, false⟩ str).emitted = s.emitted ++ str.map .ch := by
  rw [addStr]
  split
  · rename_i h
    have hnil : str = [] := by simpa using h
    simp [hnil]
  · simp [emitted, List.append_assoc]

lemma Scan.emitted_pushArg : (s.pushArg ⟨sep, false⟩).emitted = s.emitted ++ [.arg] := by
  simp [pushArg, emitted, emitArgs, List.append_assoc]

lemma Scan.emitted_newLine :
    (s.newLine ⟨sep, false⟩).emitted = s.emitted ++ (s.auto.close ++ [.line]) := by
  cases hb : s.buf with
  | none => simp [newLine, emitted, emitArgs, hb, auto, Auto.close]
  | some b => simp [newLine, pushArg, emitted, emitArgs, hb, auto, Auto.close, List.append_assoc]

@[simp] lemma Scan.emitted_mark : (s.mark idx).emitted = s.emitted := by
  rw [mark]
  split <;> rfl

@[simp] lemma Scan.buf_mark : (s.mark idx).buf = s.buf := by
  rw [mark]
  split <;> rfl

@[simp] lemma Scan.state_mark : (s.mark idx).state = s.state := by
  rw [mark]
  split <;> rfl

@[simp] lemma Scan.state_addStr (p : ArgParser) (s : Scan) (str : List Byte) :
    (s.addStr p str).state = s.state := by
  rw [addStr]
  split <;> rfl

lemma Scan.isSome_addStr (str : List Byte) :
    (s.addStr ⟨sep, false⟩ str).buf.isSome = (s.buf.isSome || !str.isEmpty) := by
  rw [addStr]
  split
  · rename_i h
    have hnil : str = [] := by simpa using h
    simp [hnil]
  · rename_i h
    cases str with
    | nil => simp at h
    | cons c t => simp

lemma run_spaces (str : List Byte) :
    Auto.run sep ⟨.start, false⟩ str = Auto.run sep ⟨.start, false⟩ (str.dropWhile isSpace) := by
  induction str with
  | nil => rfl
  | cons c str ih =>
    rw [List.dropWhile_cons]
    split
    · rename_i hc
      have hstep : Auto.step sep ⟨.start, false⟩ c = (⟨.start, false⟩, []) := by
        simp [Auto.step, hc, Auto.close]
      rw [Auto.run_cons, hstep, ← ih]
      rfl
    · rfl

lemma run_chars {a : Auto} {t : List Byte} (h : ∀ c ∈ t, a.step sep c = (a, [.ch c]))
    (str : List Byte) :
    a.run sep (t ++ str) = ((a.run sep str).1, t.map .ch ++ (a.run sep str).2) := by
  induction t with
  | nil => rfl
  | cons c t ih =>
    rw [List.cons_append, Auto.run_cons, h c List.mem_cons_self,
      ih fun d hd => h d (List.mem_cons_of_mem _ hd)]
    rfl

lemma wordStep_plain (a : Auto) (h : isPlain ⟨sep, false⟩ c = true) :
    wordStep sep a c = (⟨.word, true⟩, [.ch c]) := by
  simp only [isPlain, Bool.not_eq_true', Bool.or_eq_false_iff, beq_eq_false_iff_ne, ne_eq] at h
  obtain ⟨⟨⟨⟨⟨⟨⟨⟨h1, h2⟩, h3⟩, h4⟩, h5⟩, h6⟩, h7⟩, h8⟩, -⟩ := h
  rw [wordStep, if_neg h5, if_neg h6, if_neg h7, if_neg (fun hs => h8 hs.2), if_neg]
  rintro (h | h | h | h)
  · exact h1 h
  · exact h2 h
  · exact h3 h
  · exact h4 h

lemma run_plain {o : Bool} {t : List Byte} (h : ∀ c ∈ t, isPlain ⟨sep, false⟩ c = true)
    (hhead : ∀ c, t.head? = some c → isSpace c = false) (str : List Byte) :
    Auto.run sep ⟨.start, o⟩ (t ++ str) =
      ((Auto.run sep (if t = [] then ⟨.start, o⟩ else ⟨.word, true⟩) str).1,
        t.map .ch ++ (Auto.run sep (if t = [] then ⟨.start, o⟩ else ⟨.word, true⟩) str).2) := by
  cases t with
  | nil => rfl
  | cons c t =>
    have hfirst : Auto.step sep ⟨.start, o⟩ c = (⟨.word, true⟩, [.ch c]) := by
      rw [Auto.step]
      simp only [hhead c rfl, Bool.false_eq_true, if_false]
      exact wordStep_plain _ (h c List.mem_cons_self)
    have hrest : ∀ d ∈ t, Auto.step sep ⟨.word, true⟩ d = (⟨.word, true⟩, [.ch d]) :=
      fun d hd => wordStep_plain _ (h d (List.mem_cons_of_mem _ hd))
    rw [List.cons_append, Auto.run_cons, hfirst, run_chars hrest, if_neg (List.cons_ne_nil _ _)]
    rfl

lemma head_dropWhile {f : Byte → Bool} {str rest : List Byte} (h : str.dropWhile f = c :: rest) :
    f c = false := by
  have hne : str.dropWhile f ≠ [] := by
    rw [h]
    exact List.cons_ne_nil _ _
  have hnot := List.head_dropWhile_not f hne
  simpa [h] using hnot

lemma Scan.emitted_enter (q : QState) : (s.enter q).emitted = s.emitted := by
  simp [enter, emitted]

lemma Scan.emitted_takeRun (t : List Byte) :
    (takeRun ⟨sep, false⟩ s idx t).emitted = s.emitted ++ t.map .ch := by
  show ((s.mark idx).addStr ⟨sep, false⟩ t).emitted = _
  rw [emitted_addStr, emitted_mark]

variable (sep) in
lemma Scan.auto_takeRun {s : Scan} (hs : s.state = .unquoted) (idx : ℤ) (t : List Byte) :
    (takeRun ⟨sep, false⟩ s idx t).auto = ⟨.start, s.buf.isSome || !t.isEmpty⟩ := by
  have hstate : ((s.mark idx).addStr ⟨sep, false⟩ t).state = .unquoted := by
    rw [state_addStr, state_mark, hs]
  show Auto.mk ((s.mark idx).addStr ⟨sep, false⟩ t).state.auto
    ((s.mark idx).addStr ⟨sep, false⟩ t).buf.isSome = _
  rw [hstate, isSome_addStr, buf_mark]
  rfl

lemma agrees_space {s : Scan} (hs : s.state = .unquoted) (hc : isSpace c = true) (str : List Byte) :
    Agrees sep s (c :: str) (if s.buf.isSome then s.pushArg ⟨sep, false⟩ else s)
      ((c :: str).dropWhile isSpace) := by
  have hauto : s.auto = ⟨.start, s.buf.isSome⟩ := by rw [Scan.auto, hs]; rfl
  have hstep : s.auto.step sep c = (⟨.start, false⟩, s.auto.close) := by
    rw [hauto]
    simp [Auto.step, hc]
  have hnext : (if s.buf.isSome then s.pushArg ⟨sep, false⟩ else s).auto = ⟨.start, false⟩ ∧
      (if s.buf.isSome then s.pushArg ⟨sep, false⟩ else s).emitted =
        s.emitted ++ s.auto.close := by
    cases hb : s.buf.isSome with
    | true =>
      simp only [if_true]
      rw [Scan.emitted_pushArg]
      simp [Scan.pushArg, Scan.auto, hs, hb, Auto.close, QState.auto]
    | false =>
      simp only [Bool.false_eq_true, if_false]
      simp [hauto, hb, Auto.close]
  have hdrop : (c :: str).dropWhile isSpace = str.dropWhile isSpace := by
    rw [List.dropWhile_cons, if_pos hc]
  refine ⟨?_, ?_, ?_⟩
  · rw [Auto.run_cons, hstep, hnext.1, hnext.2, hdrop, ← run_spaces, List.append_assoc]
  · rw [Auto.run_cons, hstep, hnext.1, hdrop, ← run_spaces]
  · rw [Auto.run_cons, hstep, hnext.1, hdrop, ← run_spaces]

/-- Where the second scanner stands when the first looks at the character behind a run. -/
structure Behind (sep : Byte) (a : Auto) (s : Scan) (str : List Byte) : Prop where
  unquoted : s.state = .unquoted
  isOpen : a.isOpen = s.buf.isSome
  nul : (0 : Byte) ∉ str
  quote : a.st.quote = .unquoted
  /-- the run ends at the first character that is not plain, and only a run ends at white space -/
  stop : ∀ d rest, str = d :: rest →
    isPlain ⟨sep, false⟩ d = false ∧ a.step sep d = wordStep sep a d

/-- What ends a run and is neither the end of the string, nor a quote, a backslash or the
separator. -/
lemma space_of_not_plain {d : Byte} (hplain : isPlain ⟨sep, false⟩ d = false) (hd0 : d ≠ 0)
    (hq : d ≠ 39 ∧ d ≠ 34 ∧ d ≠ 92) (hsep : ¬(sep ≠ 0 ∧ d = sep)) :
    d = 32 ∨ d = 9 ∨ d = 13 ∨ d = 10 := by
  obtain ⟨h39, h34, h92⟩ := hq
  by_contra hnot
  have : isPlain ⟨sep, false⟩ d = true := by
    simp only [isPlain, Bool.not_eq_true', Bool.or_eq_false_iff, beq_eq_false_iff_ne, ne_eq]
    push Not at hnot
    refine ⟨⟨⟨⟨⟨⟨⟨⟨hnot.1, hnot.2.1⟩, hnot.2.2.1⟩, hnot.2.2.2⟩, h39⟩, h34⟩, h92⟩, ?_⟩, hd0⟩
    intro heq
    exact hsep ⟨fun h => hd0 (heq.trans h), heq⟩
  rw [hplain] at this
  cases this

/-- The character behind a run. -/
lemma agrees_token {a : Auto} {s : Scan} {str : List Byte} (h : Behind sep a s str) :
    (a.run sep str).1.st.quote = ((scanToken ⟨sep, false⟩ s str).1.auto.run sep
        (scanToken ⟨sep, false⟩ s str).2).1.st.quote ∧
      (a.run sep str).1.isOpen =
        ((scanToken ⟨sep, false⟩ s str).1.auto.run sep (scanToken ⟨sep, false⟩ s str).2).1.isOpen ∧
      s.emitted ++ (a.run sep str).2 = (scanToken ⟨sep, false⟩ s str).1.emitted ++
        ((scanToken ⟨sep, false⟩ s str).1.auto.run sep (scanToken ⟨sep, false⟩ s str).2).2 := by
  have hauto : s.auto = ⟨.start, s.buf.isSome⟩ := by rw [Scan.auto, h.unquoted]; rfl
  cases str with
  | nil =>
    refine ⟨?_, ?_, rfl⟩
    · show a.st.quote = s.auto.st.quote
      rw [h.quote, hauto]
      rfl
    · show a.isOpen = s.auto.isOpen
      rw [h.isOpen, hauto]
  | cons d rest =>
    obtain ⟨hplain, hstep⟩ := h.stop d rest rfl
    have hd0 : d ≠ 0 := fun h0 => h.nul (by simp [h0])
    rw [Auto.run_cons, hstep, scanToken, List.headD_cons]
    split
    · exact absurd rfl hd0
    · exact ⟨rfl, rfl, by rw [Scan.emitted_enter]; rfl⟩
    · exact ⟨rfl, rfl, by rw [Scan.emitted_enter]; rfl⟩
    · exact ⟨rfl, rfl, by rw [Scan.emitted_enter]; rfl⟩
    · rename_i h0 h39 h34 h92
      split
      · rename_i hsep
        have hclose : a.close = s.auto.close := by
          rw [Auto.close, Auto.close, h.isOpen, hauto]
        have hauto2 : (s.newLine ⟨sep, false⟩).auto = ⟨.start, false⟩ := by
          cases hb : s.buf <;>
            simp [Scan.newLine, Scan.pushArg, Scan.auto, h.unquoted, hb, QState.auto]
        rw [wordStep, if_neg h39, if_neg h34, if_neg h92, if_pos hsep, hauto2,
          Scan.emitted_newLine, hclose]
        exact ⟨rfl, rfl, by simp only [List.drop_one, List.tail_cons, List.append_assoc]⟩
      · -- white space that ends the run is looked at again in the next turn
        rename_i hsep
        have hws := space_of_not_plain hplain hd0 ⟨h39, h34, h92⟩ hsep
        have hsp : isSpace d = true := by
          rcases hws with rfl | rfl | rfl | rfl <;> rfl
        have hstep1 : wordStep sep a d = s.auto.step sep d := by
          rw [wordStep, if_neg h39, if_neg h34, if_neg h92, if_neg hsep, if_pos hws, hauto,
            Auto.step]
          simp [hsp, Auto.close, h.isOpen]
        rw [hstep1, Auto.run_cons]
        exact ⟨rfl, rfl, rfl⟩

variable (sep) in
lemma behind_takeRun {s : Scan} (hs : s.state = .unquoted) (idx : ℤ) {c : Byte} {str : List Byte}
    (hnul : (0 : Byte) ∉ c :: str) (hc : isSpace c = false) {t : List Byte}
    (ht : t = (c :: str).takeWhile (isPlain ⟨sep, false⟩)) :
    Behind sep (if t = [] then ⟨.start, s.buf.isSome⟩ else ⟨.word, true⟩)
      (takeRun ⟨sep, false⟩ s idx t) ((c :: str).dropWhile (isPlain ⟨sep, false⟩)) := by
  set rest := (c :: str).dropWhile (isPlain ⟨sep, false⟩) with hrest
  have hsplit : c :: str = t ++ rest := by
    rw [ht, hrest, List.takeWhile_append_dropWhile]
  have hauto1 := Scan.auto_takeRun sep hs idx t
  refine ⟨?_, ?_, ?_, ?_, ?_⟩
  · show ((s.mark idx).addStr ⟨sep, false⟩ t).state = _
    rw [Scan.state_addStr, Scan.state_mark, hs]
  · show _ = (takeRun ⟨sep, false⟩ s idx t).auto.isOpen
    rw [hauto1]
    cases t <;> simp
  · intro h0
    refine hnul ?_
    rw [hsplit]
    exact List.mem_append_right _ h0
  · split <;> rfl
  · intro d rest' hcons
    refine ⟨head_dropWhile (hrest.symm.trans hcons), ?_⟩
    by_cases ht0 : t = []
    · rw [ht0, List.nil_append, hcons] at hsplit
      cases hsplit
      rw [if_pos ht0, Auto.step]
      simp [hc]
    · rw [if_neg ht0]
      rfl

lemma head_takeRun (hc : isSpace c = false) (str : List Byte) (f : Byte → Bool) :
    ∀ d, ((c :: str).takeWhile f).head? = some d → isSpace d = false := by
  intro d hd
  rw [List.takeWhile_cons] at hd
  split at hd
  · cases hd
    exact hc
  · cases hd

lemma agrees_unquoted {s : Scan} (hs : s.state = .unquoted) (idx : ℤ) {str : List Byte}
    (hnul : (0 : Byte) ∉ c :: str) :
    Agrees sep s (c :: str) (scanUnquoted ⟨sep, false⟩ s idx (c :: str)).1
      (scanUnquoted ⟨sep, false⟩ s idx (c :: str)).2 := by
  have hauto : s.auto = ⟨.start, s.buf.isSome⟩ := by rw [Scan.auto, hs]; rfl
  rw [scanUnquoted, List.headD_cons]
  split
  · rename_i hc
    exact agrees_space hs hc str
  · rename_i hc
    have hc' : isSpace c = false := by simpa using hc
    have hbehind := behind_takeRun sep hs idx hnul hc' rfl
    have hhead := head_takeRun hc' str (isPlain ⟨sep, false⟩)
    set t := (c :: str).takeWhile (isPlain ⟨sep, false⟩) with ht
    set rest := (c :: str).dropWhile (isPlain ⟨sep, false⟩) with hrest
    have hsplit : c :: str = t ++ rest := (List.takeWhile_append_dropWhile).symm
    have hplain : ∀ d ∈ t, isPlain ⟨sep, false⟩ d = true := fun d hd =>
      List.mem_takeWhile_imp hd
    set a : Auto := if t = [] then ⟨.start, s.buf.isSome⟩ else ⟨.word, true⟩ with ha
    have hrun : s.auto.run sep (c :: str) =
        ((a.run sep rest).1, t.map .ch ++ (a.run sep rest).2) := by
      rw [hsplit, hauto, run_plain hplain hhead]
    obtain ⟨h1, h2, h3⟩ := agrees_token hbehind
    refine ⟨?_, ?_, ?_⟩
    · rw [← h3, Scan.emitted_takeRun, hrun, List.append_assoc]
    · rw [← h1, hrun]
    · rw [← h2, hrun]

/-! ### Quotes -/

/-- What a turn inside quotes takes off the string, the characters of it that belong to the
argument, and the state behind it. -/
inductive InQuotes (sep : Byte) (s : Scan) : List Byte → List Byte → QState → Prop
  | chars {t} (ht : ∀ d ∈ t, s.auto.step sep d = (s.auto, [.ch d])) : InQuotes sep s t t s.state
  | closed {t c q} (ht : ∀ d ∈ t, s.auto.step sep d = (s.auto, [.ch d]))
      (hc : s.auto.step sep c = (⟨q.auto, true⟩, [])) : InQuotes sep s (t ++ [c]) t q
  | escaped {c q} (hc : s.auto.step sep c = (⟨q.auto, true⟩, [.ch c])) : InQuotes sep s [c] [c] q

/-- A turn inside quotes at index `idx`. -/
def QuotedTurn (sep : Byte) (s : Scan) (idx : ℤ) (str : List Byte) (r : Scan × List Byte) : Prop :=
  ∃ w t q, InQuotes sep s w t q ∧ w ≠ [] ∧ str = w ++ r.2 ∧
    r.1 = { (s.mark idx).addStr ⟨sep, false⟩ t with state := q, endIdx := idx + w.length }

section Quotes

variable {s : Scan} {idx : ℤ} {str : List Byte} {r : Scan × List Byte}

lemma InQuotes.run {w t : List Byte} {q : QState} (h : InQuotes sep s w t q) (hb : s.buf.isSome) :
    s.auto.run sep w = (⟨q.auto, true⟩, t.map .ch) := by
  cases h with
  | chars ht =>
    have hrun := run_chars ht []
    rw [List.append_nil] at hrun
    rw [hrun, Scan.auto, hb]
    simp [Auto.run]
  | closed ht hc =>
    rw [run_chars ht, Auto.run_cons, hc]
    simp [Auto.run]
  | escaped hc =>
    rw [Auto.run_cons, hc]
    rfl

lemma QuotedTurn.opened (h : QuotedTurn sep s idx str r) (hb : s.buf.isSome) :
    r.1.buf.isSome = true := by
  obtain ⟨w, t, q, -, -, -, hr⟩ := h
  rw [hr]
  show ((s.mark idx).addStr ⟨sep, false⟩ t).buf.isSome = true
  rw [Scan.isSome_addStr, Scan.buf_mark, hb]
  rfl

lemma QuotedTurn.agrees (h : QuotedTurn sep s idx str r) (hb : s.buf.isSome) :
    Agrees sep s str r.1 r.2 := by
  have hopen := h.opened hb
  obtain ⟨w, t, q, hw, -, hstr, hr⟩ := h
  have hauto : r.1.auto = ⟨q.auto, true⟩ := by rw [Scan.auto, hopen, hr]
  have hemit : r.1.emitted = s.emitted ++ t.map .ch := by
    rw [hr]
    show ((s.mark idx).addStr ⟨sep, false⟩ t).emitted = _
    rw [Scan.emitted_addStr, Scan.emitted_mark]
  refine ⟨?_, ?_, ?_⟩
  · rw [hstr, Auto.run_append, hw.run hb, hauto, hemit, List.append_assoc]
  · rw [hstr, Auto.run_append, hw.run hb, hauto]
  · rw [hstr, Auto.run_append, hw.run hb, hauto]

/-- A run of quoted characters and what stops it. -/
lemma quotedTurn_of_run {f : Byte → Bool} (hnul : (0 : Byte) ∉ str) (hne : str ≠ [])
    (hf : ∀ c, f c = true → s.auto.step sep c = (s.auto, [.ch c]))
    (hend : str.dropWhile f = [] → r = ({ (s.mark idx).addStr ⟨sep, false⟩ (str.takeWhile f) with
      endIdx := idx + (str.takeWhile f).length }, []))
    (hstop : ∀ c rest, str.dropWhile f = c :: rest → f c = false → c ≠ 0 → ∃ q : QState,
      s.auto.step sep c = (⟨q.auto, true⟩, []) ∧
        r = ({ (s.mark idx).addStr ⟨sep, false⟩ (str.takeWhile f) with
          state := q, endIdx := idx + (str.takeWhile f).length + 1 }, rest)) :
    QuotedTurn sep s idx str r := by
  have hsplit : str.takeWhile f ++ str.dropWhile f = str := List.takeWhile_append_dropWhile
  have hchars : ∀ d ∈ str.takeWhile f, s.auto.step sep d = (s.auto, [.ch d]) := fun d hd =>
    hf d (List.mem_takeWhile_imp hd)
  cases hd : str.dropWhile f with
  | nil =>
    rw [hd, List.append_nil] at hsplit
    have hstate : ((s.mark idx).addStr ⟨sep, false⟩ str).state = s.state := by
      rw [Scan.state_addStr, Scan.state_mark]
    rw [hsplit] at hchars hend
    refine ⟨str, str, s.state, .chars hchars, hne, ?_, ?_⟩
    · rw [hend hd, List.append_nil]
    · rw [hend hd, ← hstate]
  | cons c rest =>
    rw [hd] at hsplit
    have h0 : c ≠ 0 := by
      rintro rfl
      exact hnul (by rw [← hsplit]; simp)
    obtain ⟨q, hc, hr⟩ := hstop c rest hd (head_dropWhile hd) h0
    refine ⟨_, _, q, .closed hchars hc, by simp, ?_, ?_⟩
    · rw [hr, List.append_assoc]
      exact hsplit.symm
    · rw [hr, List.length_append, List.length_singleton]
      push_cast
      rw [add_assoc]

lemma quotedTurn_single (hs : s.state = .singleQuote) (hb : s.buf.isSome)
    (hnul : (0 : Byte) ∉ str) (hne : str ≠ []) :
    QuotedTurn sep s idx str (scanSingle ⟨sep, false⟩ s idx str) := by
  have hauto : s.auto = ⟨.single, true⟩ := by rw [Scan.auto, hs, hb]; rfl
  refine quotedTurn_of_run (f := fun c => c ≠ 39 ∧ c ≠ 0) hnul hne (fun c hc => ?_)
    (fun hd => ?_) fun c rest hd hc h0 => ⟨.unquoted, ?_⟩
  · have hne : c ≠ 39 ∧ c ≠ 0 := by simpa using hc
    rw [hauto, Auto.step]
    simp [hne.1]
  · rw [scanSingle, hd]
    rfl
  · obtain rfl : c = 39 := by simpa [h0] using hc
    refine ⟨by rw [hauto]; rfl, ?_⟩
    rw [scanSingle, hd]
    rfl

lemma quotedTurn_double (hs : s.state = .doubleQuote) (hb : s.buf.isSome)
    (hnul : (0 : Byte) ∉ str) (hne : str ≠ []) :
    QuotedTurn sep s idx str (scanDouble ⟨sep, false⟩ s idx str) := by
  have hauto : s.auto = ⟨.double, true⟩ := by rw [Scan.auto, hs, hb]; rfl
  refine quotedTurn_of_run (f := fun c => c ≠ 34 ∧ c ≠ 92 ∧ c ≠ 0) hnul hne (fun c hc => ?_)
    (fun hd => ?_) fun c rest hd hc h0 => ?_
  · have hne : c ≠ 34 ∧ c ≠ 92 ∧ c ≠ 0 := by simpa using hc
    rw [hauto, Auto.step]
    simp [hne.1, hne.2.1]
  · rw [scanDouble, hd]
    rfl
  · rw [scanDouble, hd]
    by_cases h34 : c = 34
    · subst h34
      exact ⟨.unquoted, by rw [hauto]; rfl, rfl⟩
    · obtain rfl : c = 92 := by simpa [h0, h34] using hc
      exact ⟨.doubleQuoteBackslash, by rw [hauto]; rfl, rfl⟩

lemma quotedTurn_backslash {q : QState}
    (hstep : ∀ c, s.auto.step sep c = (⟨q.auto, true⟩, if c = 10 then [] else [.ch c])) (c : Byte) :
    QuotedTurn sep s idx (c :: str) (scanBackslash ⟨sep, false⟩ s q idx (c :: str)) := by
  have hc := hstep c
  by_cases h10 : c = 10
  · rw [if_pos h10] at hc
    exact ⟨[c], [], q, .closed (t := []) (by simp) hc, by simp, rfl,
      by simp [scanBackslash, Scan.addStr, h10]⟩
  · rw [if_neg h10] at hc
    exact ⟨[c], [c], q, .escaped hc, by simp, rfl, by simp [scanBackslash, h10]⟩

variable (sep idx) in
lemma quotedTurn (hs : s.state ≠ .unquoted) (hb : s.buf.isSome) {c : Byte}
    (hnul : (0 : Byte) ∉ c :: str) :
    QuotedTurn sep s idx (c :: str) (scanTurn ⟨sep, false⟩ s idx (c :: str)) := by
  have hbackslash {q q' : QState} (hq : s.state = q) (h : ∀ d, Auto.step sep ⟨q.auto, true⟩ d =
      (⟨q'.auto, true⟩, if d = 10 then [] else [.ch d])) :
      QuotedTurn sep s idx (c :: str) (scanBackslash ⟨sep, false⟩ s q' idx (c :: str)) :=
    quotedTurn_backslash (fun d => by rw [Scan.auto, hq, hb, h d]) c
  rw [scanTurn]
  cases hq : s.state with
  | unquoted => exact absurd hq hs
  | backslash => exact hbackslash hq fun d => rfl
  | doubleQuoteBackslash => exact hbackslash hq fun d => rfl
  | singleQuote => exact quotedTurn_single hq hb hnul (List.cons_ne_nil c str)
  | doubleQuote => exact quotedTurn_double hq hb hnul (List.cons_ne_nil c str)

end Quotes

/-- Inside quotes and behind a backslash there is an argument. -/
def Scan.Opened (s : Scan) : Prop := s.state ≠ .unquoted → s.buf.isSome = true

/-- What is left after a turn: a proper end of the string. -/
def Shorter (str' str : List Byte) : Prop := str' <:+ str ∧ str'.length < str.length

lemma Shorter.of_suffix {str'' str' str : List Byte} (h : Shorter str' str) (hs : str'' <:+ str') :
    Shorter str'' str := ⟨hs.trans h.1, hs.length_le.trans_lt h.2⟩

lemma shorter_tail (c : Byte) (str : List Byte) : Shorter str (c :: str) :=
  ⟨List.suffix_cons c str, Nat.lt_succ_self _⟩

lemma shorter_dropWhile {f : Byte → Bool} {str : List Byte} (h : f c = true) :
    Shorter ((c :: str).dropWhile f) (c :: str) := by
  rw [List.dropWhile_cons, if_pos h]
  exact (shorter_tail c str).of_suffix (List.dropWhile_suffix f)

lemma scanToken_suffix (p : ArgParser) (s : Scan) (str : List Byte) :
    (scanToken p s str).2 <:+ str := by
  rw [scanToken]
  split
  · exact List.suffix_rfl
  · exact List.drop_suffix 1 str
  · exact List.drop_suffix 1 str
  · exact List.drop_suffix 1 str
  · split
    · exact List.drop_suffix 1 str
    · exact List.suffix_rfl

lemma shorter_unquoted {str : List Byte} (h0 : c ≠ 0) :
    Shorter (scanUnquoted ⟨sep, false⟩ s idx (c :: str)).2 (c :: str) := by
  rw [scanUnquoted, List.headD_cons]
  split
  · rename_i hc
    exact shorter_dropWhile hc
  · rename_i hc
    cases hp : isPlain ⟨sep, false⟩ c with
    | true => exact (shorter_dropWhile hp).of_suffix (scanToken_suffix _ _ _)
    | false =>
      -- then the character is a quote, a backslash or the separator
      have hdrop : (c :: str).dropWhile (isPlain ⟨sep, false⟩) = c :: str := by
        rw [List.dropWhile_cons, if_neg (by simp [hp])]
      rw [hdrop, scanToken, List.headD_cons]
      split
      · exact absurd rfl h0
      · exact shorter_tail _ _
      · exact shorter_tail _ _
      · exact shorter_tail _ _
      · rename_i h39 h34 h92
        split
        · exact shorter_tail _ _
        · rename_i hsep
          exfalso
          have hnsp : ∀ d : Byte, isSpace d = true → c ≠ d := fun d hd heq => hc (heq ▸ hd)
          simp only [isPlain, Bool.not_eq_false', Bool.or_eq_true, beq_iff_eq] at hp
          rcases hp with (((((((h | h) | h) | h) | h) | h) | h) | h) | h
          · exact hnsp 32 rfl h
          · exact hnsp 9 rfl h
          · exact hnsp 13 rfl h
          · exact hnsp 10 rfl h
          · exact h39 h
          · exact h34 h
          · exact h92 h
          · exact hsep ⟨fun hs => h0 (h.trans hs), h⟩
          · exact h0 h

lemma shorter_single {str : List Byte} (h0 : c ≠ 0) :
    Shorter (scanSingle ⟨sep, false⟩ s idx (c :: str)).2 (c :: str) := by
  rw [scanSingle]
  by_cases hc : c = 39
  · subst hc
    exact shorter_tail _ _
  · have hdrop : Shorter ((c :: str).dropWhile fun c => c ≠ 39 ∧ c ≠ 0) (c :: str) :=
      shorter_dropWhile (by simp [hc, h0])
    split
    · exact hdrop.of_suffix (List.drop_suffix 1 _)
    · exact hdrop

lemma shorter_double {str : List Byte} (h0 : c ≠ 0) :
    Shorter (scanDouble ⟨sep, false⟩ s idx (c :: str)).2 (c :: str) := by
  rw [scanDouble]
  by_cases hc : c = 34
  · subst hc
    exact shorter_tail _ _
  · by_cases hc2 : c = 92
    · subst hc2
      exact shorter_tail _ _
    · have hdrop : Shorter ((c :: str).dropWhile fun c => c ≠ 34 ∧ c ≠ 92 ∧ c ≠ 0) (c :: str) :=
        shorter_dropWhile (by simp [hc, hc2, h0])
      split
      · exact hdrop.of_suffix (List.drop_suffix 1 _)
      · split
        · exact hdrop.of_suffix (List.drop_suffix 1 _)
        · exact hdrop

lemma opened_unquoted {s : Scan} (hs : s.state = .unquoted) (idx : ℤ) (str : List Byte) :
    (scanUnquoted ⟨sep, false⟩ s idx str).1.Opened := by
  have hrun : ∀ t, (takeRun ⟨sep, false⟩ s idx t).state = .unquoted := by
    intro t
    show ((s.mark idx).addStr ⟨sep, false⟩ t).state = _
    rw [Scan.state_addStr, Scan.state_mark, hs]
  intro hne
  rw [scanUnquoted] at hne ⊢
  split at hne
  · exfalso
    dsimp only at hne
    split at hne
    · exact hne hs
    · exact hne hs
  · rename_i hsp
    rw [if_neg hsp, scanToken]
    rw [scanToken] at hne
    split at hne <;> try rfl
    · exact absurd (hrun _) hne
    · exfalso
      split at hne
      · refine hne ?_
        simp only [Scan.newLine, Bool.false_eq_true, if_false]
        split
        · exact hrun _
        · exact hrun _
      · exact hne (hrun _)

lemma shorter_turn (str : List Byte) (h0 : c ≠ 0) :
    Shorter (scanTurn ⟨sep, false⟩ s idx (c :: str)).2 (c :: str) := by
  rw [scanTurn]
  split
  · exact shorter_unquoted s idx h0
  · exact shorter_tail c str
  · exact shorter_tail c str
  · exact shorter_single s idx h0
  · exact shorter_double s idx h0

variable (sep) in
lemma scanTurn_spec {s : Scan} (hb : s.Opened) (idx : ℤ) {c : Byte} {str : List Byte}
    (hnul : (0 : Byte) ∉ c :: str) :
    Agrees sep s (c :: str) (scanTurn ⟨sep, false⟩ s idx (c :: str)).1
      (scanTurn ⟨sep, false⟩ s idx (c :: str)).2 ∧
    Shorter (scanTurn ⟨sep, false⟩ s idx (c :: str)).2 (c :: str) ∧
    (scanTurn ⟨sep, false⟩ s idx (c :: str)).1.Opened := by
  have h0 : c ≠ 0 := fun h => hnul (by simp [h])
  have hshort : Shorter (scanTurn ⟨sep, false⟩ s idx (c :: str)).2 (c :: str) :=
    shorter_turn s idx str h0
  by_cases hs : s.state = .unquoted
  · rw [scanTurn, hs] at hshort ⊢
    exact ⟨agrees_unquoted hs idx hnul, hshort, opened_unquoted hs idx _⟩
  · have hturn := quotedTurn sep idx hs (hb hs) hnul
    exact ⟨hturn.agrees (hb hs), hshort, fun _ => hturn.opened (hb hs)⟩

lemma scanLoop_spec (total fuel : ℕ) {s : Scan} {str : List Byte} (hb : s.Opened)
    (hnul : (0 : Byte) ∉ str) (hf : str.length ≤ fuel) :
    Agrees sep s str (scanLoop ⟨sep, false⟩ total s str fuel) [] := by
  induction fuel generalizing s str with
  | zero =>
    have hnil : str = [] := List.length_eq_zero_iff.mp (by omega)
    subst hnil
    exact ⟨rfl, rfl, rfl⟩
  | succ fuel ih =>
    rw [scanLoop]
    cases str with
    | nil => exact ⟨rfl, rfl, rfl⟩
    | cons c str =>
      have h0 : c ≠ 0 := fun h => hnul (by simp [h])
      obtain ⟨hagree, hshort, hopen⟩ :=
        scanTurn_spec sep hb (total - (c :: str).length) hnul
      rw [List.headD_cons, if_neg h0]
      refine hagree.trans (ih hopen ?_ ?_)
      · intro hmem
        exact hnul (hshort.1.subset hmem)
      · have := hshort.2
        omega

variable (sep) in
/-- What the scanner returns, from the stream of the second one. -/
lemma scanAll_spec {str : List Byte} (hnul : (0 : Byte) ∉ str) :
    (scanAll ⟨sep, false⟩ str).emitted =
        (Auto.run sep ⟨.start, false⟩ str).2 ++ (Auto.run sep ⟨.start, false⟩ str).1.close ∧
      (scanAll ⟨sep, false⟩ str).state = (Auto.run sep ⟨.start, false⟩ str).1.st.quote ∧
      (scanAll ⟨sep, false⟩ str).buf = none := by
  set s := scanLoop ⟨sep, false⟩ str.length {} (str.dropWhile isSpace) str.length with hs
  have hsuf : str.dropWhile isSpace <:+ str := List.dropWhile_suffix isSpace
  have hagree : Agrees sep {} (str.dropWhile isSpace) s [] :=
    scanLoop_spec str.length str.length (fun h => absurd rfl h)
      (fun h => hnul (hsuf.subset h)) hsuf.length_le
  have hinit : Scan.auto {} = ⟨.start, false⟩ := rfl
  have hquote : s.state.auto.quote = s.state := by
    cases s.state <;> rfl
  have hout := hagree.out
  have hq := hagree.quote
  have ho := hagree.isOpen
  rw [hinit, ← run_spaces] at hout hq ho
  have hemit : s.emitted = (Auto.run sep ⟨.start, false⟩ str).2 := by
    simpa [Scan.emitted, emitArgs, Auto.run] using hout.symm
  have hopen : s.buf.isSome = (Auto.run sep ⟨.start, false⟩ str).1.isOpen := ho.symm
  have hstate : s.state = (Auto.run sep ⟨.start, false⟩ str).1.st.quote := by
    rw [hq]
    exact hquote.symm
  have hall : scanAll ⟨sep, false⟩ str =
      if s.buf.isSome then { s.pushArg ⟨sep, false⟩ with startIdx := s.startIdx } else s := rfl
  rw [hall, ← hemit, Auto.close, ← hopen, ← hstate]
  cases hb : s.buf.isSome with
  | true =>
    simp only [if_true]
    refine ⟨?_, rfl, rfl⟩
    show (s.pushArg ⟨sep, false⟩).emitted = _
    rw [Scan.emitted_pushArg]
  | false =>
    simp only [Bool.false_eq_true, if_false]
    refine ⟨(List.append_nil _).symm, trivial, ?_⟩
    cases h : s.buf with
    | none => rfl
    | some b => simp [h] at hb

lemma emit_cons_inj {s s' : List Byte} {x x' : List Out}
    (h : s.map Out.ch ++ .arg :: x = s'.map Out.ch ++ .arg :: x') : s = s' ∧ x = x' := by
  induction s generalizing s' with
  | nil =>
    cases s' with
    | nil => simpa using h
    | cons c s' => simp at h
  | cons c s ih =>
    cases s' with
    | nil => simp at h
    | cons c' s' =>
      simp only [List.map_cons, List.cons_append, List.cons.injEq, Out.ch.injEq] at h
      obtain ⟨rfl, hx⟩ := ih h.2
      exact ⟨by rw [h.1], hx⟩

lemma emitArgs_cons (s : List Byte) (l : List (List Byte)) :
    emitArgs (s :: l) = s.map .ch ++ .arg :: emitArgs l := by
  simp [emitArgs]

lemma emitArgs_injective {l l' : List (List Byte)} (h : emitArgs l = emitArgs l') : l = l' := by
  induction l generalizing l' with
  | nil =>
    cases l' with
    | nil => rfl
    | cons s' l' =>
      rw [emitArgs_cons] at h
      simp [emitArgs] at h
  | cons s l ih =>
    cases l' with
    | nil =>
      rw [emitArgs_cons] at h
      simp [emitArgs] at h
    | cons s' l' =>
      rw [emitArgs_cons, emitArgs_cons] at h
      obtain ⟨rfl, hl⟩ := emit_cons_inj h
      rw [ih hl]

lemma line_not_mem_emitArgs (l : List (List Byte)) : Out.line ∉ emitArgs l := by
  simp [emitArgs]

lemma line_not_mem_close (a : Auto) : Out.line ∉ a.close := by
  rw [Auto.close]
  split <;> simp

/-- Without a separator there is one line. -/
lemma line_not_mem_run (a : Auto) (str : List Byte) : Out.line ∉ (a.run 0 str).2 := by
  induction str generalizing a with
  | nil => simp [Auto.run]
  | cons c str ih =>
    rw [Auto.run_cons]
    have hclose := line_not_mem_close a
    have hword : Out.line ∉ (wordStep 0 a c).2 := by
      rw [wordStep]
      split_ifs <;> simp_all
    have hstep : Out.line ∉ (a.step 0 c).2 := by
      rw [Auto.step]
      cases a.st with
      | start =>
        dsimp only
        split
        · exact hclose
        · exact hword
      | word => exact hword
      | backslash =>
        dsimp only
        split <;> simp
      | doubleBackslash =>
        dsimp only
        split <;> simp
      | single =>
        dsimp only
        split <;> simp
      | double =>
        dsimp only
        split
        · simp
        · split <;> simp
    simp [hstep, ih]

lemma lines_eq_nil {str : List Byte} (hnul : (0 : Byte) ∉ str) (h0 : sep = 0) :
    (scanAll ⟨sep, false⟩ str).lines = [] := by
  subst h0
  by_contra hne
  obtain ⟨x, xs, hx⟩ := List.exists_cons_of_ne_nil hne
  have hmem : Out.line ∈ (scanAll ⟨0, false⟩ str).emitted := by
    rw [Scan.emitted, hx]
    simp
  rw [(scanAll_spec 0 hnul).1, List.mem_append] at hmem
  rcases hmem with hmem | hmem
  · exact line_not_mem_run _ _ hmem
  · exact line_not_mem_close _ hmem

/-- The result of a parser for the arguments of one line. -/
def oneLine (sep : Byte) (l : List (List Byte)) : Args := if sep = 0 then .flat l else .lines [l]

/-- A string is parsed to the arguments of one line if their stream is emitted and no quote is
left open. -/
lemma argpParse_eq_iff {str : List Byte} (hnul : (0 : Byte) ∉ str) (l : List (List Byte)) :
    argpParse sep str = (oneLine sep l, none) ↔
      (Auto.run sep ⟨.start, false⟩ str).2 ++ (Auto.run sep ⟨.start, false⟩ str).1.close =
        emitArgs l ∧ (Auto.run sep ⟨.start, false⟩ str).1.st.quote = .unquoted := by
  obtain ⟨hemit, hstate, hbuf⟩ := scanAll_spec sep hnul
  have hmissing : ∀ q : QState, q.str = none ↔ q = .unquoted := by
    intro q
    cases q <;> simp [QState.str]
  have hlines : (scanAll ⟨sep, false⟩ str).emitted = emitArgs l ↔
      (scanAll ⟨sep, false⟩ str).lines = [] ∧ (scanAll ⟨sep, false⟩ str).list = l := by
    constructor
    · intro h
      have hnil : (scanAll ⟨sep, false⟩ str).lines = [] := by
        by_contra hne
        obtain ⟨x, xs, hx⟩ := List.exists_cons_of_ne_nil hne
        refine line_not_mem_emitArgs l ?_
        rw [← h, Scan.emitted, hx]
        simp
      refine ⟨hnil, emitArgs_injective ?_⟩
      rw [← h, Scan.emitted, hnil, hbuf]
      simp
    · rintro ⟨h1, h2⟩
      rw [Scan.emitted, h1, h2, hbuf]
      simp
  have hnoline : sep = 0 → (scanAll ⟨sep, false⟩ str).lines = [] := lines_eq_nil hnul
  rw [argpParse, Prod.mk.injEq, hmissing, ← hstate, ← hemit, hlines, oneLine]
  refine and_congr_left fun _ => ?_
  split
  · rename_i h0
    simp [hnoline h0]
  · rw [Args.lines.injEq]
    constructor
    · intro h
      have hlen := congrArg List.length h
      have hnil : (scanAll ⟨sep, false⟩ str).lines = [] := by
        rw [List.length_append, List.length_singleton, List.length_singleton] at hlen
        exact List.length_eq_zero_iff.mp (by omega)
      rw [hnil] at h
      exact ⟨hnil, by simpa using h⟩
    · rintro ⟨h1, h2⟩
      rw [h1, h2]
      rfl

end Agree

end Uline
