import Mt798x.Uline.Missing

/-!
# Where the arguments stand

The scanner notes for every argument where it starts and ends.  For proofs there is a reader that
takes one character at a time and knows the same two places (`Reader`); `places_scanAll` says that
the scanner reports what the reader does.
-/

namespace Uline

open Bytes

/-- The places of the arguments: one list, or a list for every line if there is a separator. -/
inductive Spans
  | flat (pos : List (ℤ × ℤ))
  | lines (pos : List (List (ℤ × ℤ)))
  deriving DecidableEq, Repr

/-- `uc_uline_argp_parse`: the places of the arguments. -/
def argpPos (sep : Byte) (str : List Byte) : Spans :=
  let s := scanAll ⟨sep, false⟩ str
  if sep = 0 then .flat s.posList else .lines (s.posLines ++ [s.posList])

/-! ## One character at a time -/

/-- A reader: its state, the argument so far, the first place of it and the one behind it, and the
place in the string. -/
structure Reader where
  auto : Auto := ⟨.start, false⟩
  word : List Byte := []
  start : ℤ := -1
  last : ℤ := 0
  idx : ℤ := 0
  deriving DecidableEq, Repr

/-- What a reader reports: an argument with its place, and the end of a line. -/
inductive Piece
  | arg (word : List Byte) (start last : ℤ)
  | line
  deriving DecidableEq, Repr

namespace Reader

/-- White space between arguments or behind a quote. -/
def skips (r : Reader) (c : Byte) : Bool := r.auto.st = .start && isSpace c

/-- The start of the argument, if the character belongs to one. -/
def mark (r : Reader) : ℤ := if r.start < 0 then r.idx else r.start

/-- The place behind the argument.  A quote outside of quotes does not move it. -/
def behind (r : Reader) (c : Byte) (out : List Out) : ℤ :=
  if (r.auto.st = .start ∨ r.auto.st = .word) ∧ out ≠ [.ch c] then r.idx else r.idx + 1

/-- The end of the string. -/
def finish (r : Reader) : List Piece :=
  if r.auto.isOpen then [.arg r.word r.start r.last] else []

/-- One character. -/
def step (sep : Byte) (r : Reader) (c : Byte) : Reader × List Piece :=
  let (a, out) := r.auto.step sep c
  let start := if r.skips c then r.start else r.mark
  let last := if r.skips c then r.last else r.behind c out
  ({ auto := a
     word := if .arg ∈ out then [] else r.word ++ if .ch c ∈ out then [c] else []
     start := if .arg ∈ out then -1 else start
     last := last
     idx := r.idx + 1 },
    (if .arg ∈ out then [.arg r.word start last] else []) ++ if .line ∈ out then [.line] else [])

/-- A string. -/
def run (sep : Byte) (r : Reader) : List Byte → Reader × List Piece
  | [] => (r, [])
  | c :: str =>
    let (r', out) := r.step sep c
    let (q, outs) := run sep r' str
    (q, out ++ outs)

/-- A string up to its end. -/
def pieces (sep : Byte) (r : Reader) (str : List Byte) : List Piece :=
  (r.run sep str).2 ++ (r.run sep str).1.finish

variable (sep : Byte) (r : Reader) (c : Byte)

lemma run_cons (str : List Byte) :
    r.run sep (c :: str) =
      (((r.step sep c).1.run sep str).1, (r.step sep c).2 ++ ((r.step sep c).1.run sep str).2) :=
  rfl

lemma run_append (sep : Byte) (r : Reader) (s t : List Byte) :
    r.run sep (s ++ t) =
      (((r.run sep s).1.run sep t).1, (r.run sep s).2 ++ ((r.run sep s).1.run sep t).2) := by
  induction s generalizing r with
  | nil => rfl
  | cons c s ih => rw [List.cons_append, run_cons, ih, run_cons, List.append_assoc]

lemma pieces_append (s t : List Byte) :
    r.pieces sep (s ++ t) = (r.run sep s).2 ++ (r.run sep s).1.pieces sep t := by
  rw [pieces, run_append, List.append_assoc]
  rfl

lemma pieces_cons (str : List Byte) :
    r.pieces sep (c :: str) = (r.step sep c).2 ++ (r.step sep c).1.pieces sep str := by
  rw [pieces, run_cons, List.append_assoc]
  rfl

@[simp] lemma auto_step : (r.step sep c).1.auto = (r.auto.step sep c).1 := rfl

@[simp] lemma idx_step : (r.step sep c).1.idx = r.idx + 1 := rfl

@[simp] lemma auto_run (sep : Byte) (r : Reader) (str : List Byte) :
    (r.run sep str).1.auto = (r.auto.run sep str).1 := by
  induction str generalizing r with
  | nil => rfl
  | cons c str ih => rw [run_cons, ih, Auto.run_cons, auto_step]

@[simp] lemma idx_run (sep : Byte) (r : Reader) (str : List Byte) :
    (r.run sep str).1.idx = r.idx + str.length := by
  induction str generalizing r with
  | nil => simp [run]
  | cons c str ih =>
    rw [run_cons, ih, idx_step, List.length_cons]
    push_cast
    ring

section Steps

variable {sep : Byte} {r : Reader} {c : Byte} {a : Auto}

lemma step_ch (hs : r.skips c = false) (h : r.auto.step sep c = (a, [.ch c])) :
    r.step sep c = (⟨a, r.word ++ [c], r.mark, r.idx + 1, r.idx + 1⟩, []) := by
  simp [step, h, hs, behind]

lemma step_quoted (hq : r.auto.st ≠ .start ∧ r.auto.st ≠ .word)
    (h : r.auto.step sep c = (a, [])) :
    r.step sep c = (⟨a, r.word, r.mark, r.idx + 1, r.idx + 1⟩, []) := by
  have hs : r.skips c = false := by simp [skips, hq.1]
  simp [step, h, hs, behind, hq.1, hq.2]

lemma step_enter (hs : r.skips c = false) (hq : r.auto.st = .start ∨ r.auto.st = .word)
    (h : r.auto.step sep c = (a, [])) :
    r.step sep c = (⟨a, r.word, r.mark, r.idx, r.idx + 1⟩, []) := by
  simp [step, h, hs, behind, hq]

lemma step_skip (hs : r.skips c = true) :
    r.step sep c = if r.auto.isOpen
      then (⟨⟨.start, false⟩, [], -1, r.last, r.idx + 1⟩, [.arg r.word r.start r.last])
      else (⟨⟨.start, false⟩, r.word, r.start, r.last, r.idx + 1⟩, []) := by
  have hstep : r.auto.step sep c = (⟨.start, false⟩, r.auto.close) := by
    have h : r.auto.st = .start ∧ isSpace c = true := by simpa [skips] using hs
    simp [Auto.step, h.1, h.2]
  cases ho : r.auto.isOpen <;> simp [step, hstep, hs, Auto.close, ho]

lemma step_line (hs : r.skips c = false) (hq : r.auto.st = .start ∨ r.auto.st = .word)
    (h : r.auto.step sep c = (⟨.start, false⟩, r.auto.close ++ [.line])) :
    r.step sep c = if r.auto.isOpen
      then (⟨⟨.start, false⟩, [], -1, r.idx, r.idx + 1⟩, [.arg r.word r.mark r.idx, .line])
      else (⟨⟨.start, false⟩, r.word, r.mark, r.idx, r.idx + 1⟩, [.line]) := by
  cases ho : r.auto.isOpen <;> simp [step, h, hs, Auto.close, ho, behind, hq]

lemma step_space (hq : r.auto.st = .word) (ho : r.auto.isOpen = true)
    (h : r.auto.step sep c = (⟨.start, false⟩, r.auto.close)) :
    r.step sep c = (⟨⟨.start, false⟩, [], -1, r.idx, r.idx + 1⟩, [.arg r.word r.mark r.idx]) := by
  have hs : r.skips c = false := by simp [skips, hq]
  simp [step, h, hs, Auto.close, ho, behind, hq]

lemma mark_nonneg (h : 0 ≤ r.idx) : 0 ≤ r.mark := by
  rw [mark]
  split
  · exact h
  · omega

lemma mark_of_nonneg (h : 0 ≤ r.start) : r.mark = r.start := if_neg (not_lt.mpr h)

lemma run_chars {t : List Byte} (hne : t ≠ []) (hidx : 0 ≤ r.idx)
    (h : ∀ c ∈ t, r.auto.step sep c = (r.auto, [.ch c])) (hs : ∀ c ∈ t, r.skips c = false) :
    r.run sep t =
      (⟨r.auto, r.word ++ t, r.mark, r.idx + t.length, r.idx + t.length⟩, []) := by
  induction t generalizing r with
  | nil => exact absurd rfl hne
  | cons c t ih =>
    rw [run_cons, step_ch (hs c List.mem_cons_self) (h c List.mem_cons_self)]
    have hmark : 0 ≤ r.mark := mark_nonneg hidx
    set r' : Reader := ⟨r.auto, r.word ++ [c], r.mark, r.idx + 1, r.idx + 1⟩ with hr'
    by_cases ht : t = []
    · subst ht
      simp [run, hr']
    · have hmark' : r'.mark = r.mark := mark_of_nonneg (r := r') hmark
      have hidx' : 0 ≤ r'.idx := by
        show 0 ≤ r.idx + 1
        omega
      rw [ih ht hidx' (fun d hd => h d (List.mem_cons_of_mem _ hd))
        fun d hd => hs d (List.mem_cons_of_mem _ hd), hmark']
      simp only [hr', List.append_assoc, List.singleton_append, List.length_cons, List.append_nil,
        Prod.mk.injEq, mk.injEq, true_and, and_true]
      push_cast
      omega

lemma run_quoted {t : List Byte} (hidx : 0 ≤ r.idx) (hq : r.auto.st ≠ .start ∧ r.auto.st ≠ .word)
    (h : ∀ c ∈ t, r.auto.step sep c = (r.auto, [.ch c])) (hc : r.auto.step sep c = (a, [])) :
    r.run sep (t ++ [c]) =
      (⟨a, r.word ++ t, r.mark, r.idx + t.length + 1, r.idx + t.length + 1⟩, []) := by
  cases t with
  | nil => simp [run, step_quoted hq hc]
  | cons d t =>
    have hs : ∀ e ∈ d :: t, r.skips e = false := fun e _ => by simp [skips, hq.1]
    rw [run_append, run_chars (List.cons_ne_nil d t) hidx h hs]
    have hmark : 0 ≤ r.mark := mark_nonneg hidx
    set r' : Reader := ⟨r.auto, r.word ++ d :: t, r.mark, r.idx + (d :: t).length,
      r.idx + (d :: t).length⟩ with hr'
    have hmark' : r'.mark = r.mark := mark_of_nonneg (r := r') hmark
    have hstep : r'.step sep c = (⟨a, r'.word, r'.mark, r'.idx + 1, r'.idx + 1⟩, []) :=
      step_quoted hq hc
    show ((r'.step sep c).1, (r'.step sep c).2 ++ []) = _
    rw [hstep, hmark']
    rfl

lemma run_plain {o : Bool} {t : List Byte} (hr : r.auto = ⟨.start, o⟩) (hidx : 0 ≤ r.idx)
    (hne : t ≠ []) (h : ∀ c ∈ t, isPlain ⟨sep, false⟩ c = true)
    (hhead : ∀ c, t.head? = some c → isSpace c = false) :
    r.run sep t =
      (⟨⟨.word, true⟩, r.word ++ t, r.mark, r.idx + t.length, r.idx + t.length⟩, []) := by
  cases t with
  | nil => exact absurd rfl hne
  | cons c t =>
    have hs : r.skips c = false := by simp [skips, hhead c rfl]
    have hfirst : r.auto.step sep c = (⟨.word, true⟩, [.ch c]) := by
      rw [hr, Auto.step]
      simp only [hhead c rfl, Bool.false_eq_true, if_false]
      exact wordStep_plain _ (h c List.mem_cons_self)
    rw [run_cons, step_ch hs hfirst]
    have hmark : 0 ≤ r.mark := mark_nonneg hidx
    set r' : Reader := ⟨⟨.word, true⟩, r.word ++ [c], r.mark, r.idx + 1, r.idx + 1⟩ with hr'
    by_cases ht : t = []
    · subst ht
      simp [run, hr']
    · have hrest : ∀ d ∈ t, r'.auto.step sep d = (r'.auto, [.ch d]) :=
        fun d hd => wordStep_plain _ (h d (List.mem_cons_of_mem _ hd))
      have hmark' : r'.mark = r.mark := mark_of_nonneg (r := r') hmark
      have hidx' : 0 ≤ r'.idx := by
        show 0 ≤ r.idx + 1
        omega
      rw [run_chars ht hidx' hrest fun d _ => rfl, hmark']
      simp only [hr', List.append_assoc, List.singleton_append, List.length_cons, List.append_nil,
        Prod.mk.injEq, mk.injEq, true_and, and_true]
      push_cast
      omega

lemma run_spaces {t : List Byte} (hr : r.auto = ⟨.start, false⟩) (ht : ∀ c ∈ t, isSpace c = true) :
    r.run sep t = ({ r with idx := r.idx + t.length }, []) := by
  induction t generalizing r with
  | nil => simp [run]
  | cons c t ih =>
    have hs : r.skips c = true := by simp [skips, hr, ht c List.mem_cons_self]
    rw [run_cons, step_skip hs, hr]
    simp only [Bool.false_eq_true, if_false]
    rw [ih rfl fun d hd => ht d (List.mem_cons_of_mem _ hd)]
    simp only [List.length_cons, List.append_nil, Prod.mk.injEq, mk.injEq, true_and, and_true]
    push_cast
    omega

end Steps

end Reader

/-! ## The scanner reports what the reader does -/

/-- The reader for a state of the scanner at a place. -/
def Scan.reader (s : Scan) (idx : ℤ) : Reader := ⟨s.auto, s.buf.getD [], s.startIdx, s.endIdx, idx⟩

/-- The place of an argument; none for the end of a line. -/
def Piece.place : Piece → Option (ℤ × ℤ)
  | .arg _ b e => some (b, e)
  | .line => none

/-- Lists of places as a stream. -/
def placeLines (up : List (List (ℤ × ℤ))) (l : List (ℤ × ℤ)) : List (Option (ℤ × ℤ)) :=
  Tokens.streamed (List.map some) none up l

lemma placeLines_injective {up up' : List (List (ℤ × ℤ))} {l l' : List (ℤ × ℤ)}
    (h : placeLines up l = placeLines up' l') : up = up' ∧ l = l' :=
  Tokens.streamed_injective (List.map_injective_iff.mpr (Option.some_injective _))
    (fun l => by simp) h

/-- All places that were noted, as a stream. -/
def Scan.places (s : Scan) : List (Option (ℤ × ℤ)) := placeLines s.posLines s.posList

section Agree

variable {sep : Byte}

variable {total : ℕ} {str : List Byte} (s : Scan)

@[simp] lemma Scan.places_mark (idx : ℤ) : (s.mark idx).places = s.places := by
  rw [mark]
  split <;> rfl

@[simp] lemma Scan.places_addStr (p : ArgParser) (s : Scan) (str : List Byte) :
    (s.addStr p str).places = s.places := by
  rw [addStr]
  split <;> rfl

@[simp] lemma Scan.startIdx_addStr (p : ArgParser) (s : Scan) (str : List Byte) :
    (s.addStr p str).startIdx = s.startIdx := by
  rw [addStr]
  split <;> rfl

lemma Scan.startIdx_mark (idx : ℤ) : (s.mark idx).startIdx = (s.reader idx).mark := by
  rw [mark]
  show _ = if s.startIdx < 0 then idx else s.startIdx
  split <;> rfl

lemma Scan.getD_addStr (str : List Byte) :
    (s.addStr ⟨sep, false⟩ str).buf.getD [] = s.buf.getD [] ++ str := by
  rw [addStr]
  split
  · rename_i h
    have hnil : str = [] := by simpa using h
    simp [hnil]
  · rfl

variable (sep) in
lemma Scan.places_pushArg (s : Scan) :
    (s.pushArg ⟨sep, false⟩).places = s.places ++ [some (s.startIdx, s.endIdx)] := by
  simp [pushArg, places, placeLines, Tokens.streamed]

lemma Scan.places_newLine :
    (s.newLine ⟨sep, false⟩).places =
      s.places ++ ((if s.buf.isSome then [some (s.startIdx, s.endIdx)] else []) ++ [none]) := by
  cases hb : s.buf with
  | none => simp [newLine, places, placeLines, Tokens.streamed, hb]
  | some b => simp [newLine, pushArg, places, placeLines, Tokens.streamed, hb]

/-- Going on with the reader from `s` and `str` notes the same places as from `s'` and `str'`, both
at the end of a string of `total` characters. -/
def SamePlaces (sep : Byte) (total : ℕ) (s : Scan) (str : List Byte) (s' : Scan)
    (str' : List Byte) : Prop :=
  s.places ++ ((s.reader (total - str.length)).pieces sep str).map Piece.place =
    s'.places ++ ((s'.reader (total - str'.length)).pieces sep str').map Piece.place

lemma samePlaces_of_run {s s' : Scan} {w : List Byte} {o : List Piece} {r : Reader}
    (hrun : (s.reader (total - (w ++ str).length)).run sep w = (r, o))
    (hrest : r.pieces sep str = (s'.reader (total - str.length)).pieces sep str)
    (hplaces : s'.places = s.places ++ o.map Piece.place) :
    SamePlaces sep total s (w ++ str) s' str := by
  rw [SamePlaces, Reader.pieces_append, hrun, hplaces, hrest, List.map_append, List.append_assoc]

/-- White space ends an argument. -/
lemma samePlaces_space {s : Scan} (hs : s.state = .unquoted) {c : Byte} (hc : isSpace c = true)
    (str : List Byte) :
    SamePlaces sep total s (c :: str) (if s.buf.isSome then s.pushArg ⟨sep, false⟩ else s)
      ((c :: str).dropWhile isSpace) := by
  set w := str.takeWhile isSpace with hw
  set rest := str.dropWhile isSpace with hrest
  have hdrop : (c :: str).dropWhile isSpace = rest := by
    rw [List.dropWhile_cons, if_pos hc]
  have hsplit : c :: str = (c :: w) ++ rest := by
    rw [List.cons_append, hw, hrest, List.takeWhile_append_dropWhile]
  have hspaces : ∀ d ∈ w, isSpace d = true := fun d hd => List.mem_takeWhile_imp hd
  rw [hdrop, hsplit]
  set r := s.reader (total - ((c :: w) ++ rest).length) with hr
  have hskip : r.skips c = true := by simp [Reader.skips, hr, Scan.reader, Scan.auto, hs,
    QState.auto, hc]
  have hidx : r.idx + 1 + w.length = total - rest.length := by
    simp only [hr, Scan.reader, List.length_append, List.length_cons]
    push_cast
    ring
  have hopen : r.auto.isOpen = s.buf.isSome := rfl
  cases hb : s.buf.isSome with
  | true =>
    refine samePlaces_of_run (o := [.arg r.word r.start r.last])
      (r := ⟨⟨.start, false⟩, [], -1, r.last, total - rest.length⟩) ?_ ?_ ?_
    · rw [Reader.run_cons, Reader.step_skip hskip, if_pos (hopen.trans hb)]
      simp only
      rw [Reader.run_spaces rfl hspaces]
      simp only [hidx, List.append_nil]
    · simp only [if_true]
      congr 1
      simp [Scan.reader, Scan.pushArg, Scan.auto, hs, QState.auto, hr]
    · simp only [if_true]
      rw [Scan.places_pushArg]
      rfl
  | false =>
    refine samePlaces_of_run (o := []) (r := s.reader (total - rest.length)) ?_ rfl ?_
    · rw [Reader.run_cons, Reader.step_skip hskip, if_neg (by rw [hopen, hb]; simp)]
      simp only
      rw [Reader.run_spaces rfl hspaces]
      simp only [hidx, List.append_nil]
      simp [Scan.reader, Scan.auto, hs, QState.auto, hr, hb]
    · simp

lemma QState.auto_quoted {q : QState} (h : q ≠ .unquoted) : q.auto ≠ .start ∧ q.auto ≠ .word := by
  cases q with
  | unquoted => exact absurd rfl h
  | backslash => exact ⟨nofun, nofun⟩
  | singleQuote => exact ⟨nofun, nofun⟩
  | doubleQuote => exact ⟨nofun, nofun⟩
  | doubleQuoteBackslash => exact ⟨nofun, nofun⟩

/-- The scanner behind a block of an argument: the reader of its parts. -/
lemma reader_block {s s' : Scan} {idx e : ℤ} {q : QState} {t : List Byte} (hb : s.buf.isSome = true)
    (hs' : s' = { (s.mark idx).addStr ⟨sep, false⟩ t with state := q, endIdx := e }) :
    s'.reader e = ⟨⟨q.auto, true⟩, s.buf.getD [] ++ t, (s.reader idx).mark, e, e⟩ ∧
      s'.places = s.places := by
  have hopen : s'.buf.isSome = true := by
    rw [hs']
    show ((s.mark idx).addStr ⟨sep, false⟩ t).buf.isSome = true
    rw [Scan.isSome_addStr, Scan.buf_mark, hb]
    rfl
  have hword : s'.buf.getD [] = s.buf.getD [] ++ t := by
    rw [hs']
    show ((s.mark idx).addStr ⟨sep, false⟩ t).buf.getD [] = _
    rw [Scan.getD_addStr, Scan.buf_mark]
  have hstart : s'.startIdx = (s.reader idx).mark := by
    rw [hs']
    show ((s.mark idx).addStr ⟨sep, false⟩ t).startIdx = _
    rw [Scan.startIdx_addStr, Scan.startIdx_mark]
  refine ⟨?_, ?_⟩
  · rw [Scan.reader, Scan.auto, hopen, hword, hstart, hs']
  · rw [hs']
    show ((s.mark idx).addStr ⟨sep, false⟩ t).places = _
    simp

lemma InQuotes.reader {s : Scan} {w t : List Byte} {q : QState} (h : InQuotes sep s w t q)
    (hs : s.state ≠ .unquoted) (hb : s.buf.isSome = true) (hne : w ≠ []) {idx : ℤ}
    (hidx : 0 ≤ idx) :
    (s.reader idx).run sep w = (⟨⟨q.auto, true⟩, s.buf.getD [] ++ t, (s.reader idx).mark,
      idx + w.length, idx + w.length⟩, []) := by
  have hquoted := QState.auto_quoted hs
  have hskips : ∀ d ∈ w, (s.reader idx).skips d = false := fun d _ => by
    simp [Reader.skips, Scan.reader, Scan.auto, hquoted.1]
  cases h with
  | chars ht =>
    rw [Reader.run_chars (r := s.reader idx) hne hidx ht hskips]
    simp [Scan.reader, Scan.auto, hb]
  | closed ht hc =>
    rw [Reader.run_quoted (r := s.reader idx) hidx hquoted ht hc]
    simp [Scan.reader, add_assoc]
  | escaped hc =>
    have hstep := Reader.step_ch (r := s.reader idx) (hskips _ List.mem_cons_self) hc
    exact congrArg (fun x => (x.1, x.2 ++ [])) hstep

lemma QuotedTurn.samePlaces {s : Scan} {r : Scan × List Byte}
    (h : QuotedTurn sep s (total - str.length) str r) (hs : s.state ≠ .unquoted)
    (hb : s.buf.isSome = true) (hlen : str.length ≤ total) :
    SamePlaces sep total s str r.1 r.2 := by
  obtain ⟨w, t, q, hw, hne, hstr, hr⟩ := h
  obtain ⟨hreader, hplaces⟩ := reader_block hb hr
  have hend : (total - str.length : ℤ) + w.length = total - r.2.length := by
    rw [hstr, List.length_append]
    push_cast
    ring
  rw [hend] at hreader
  rw [hstr] at hlen hreader hend ⊢
  refine samePlaces_of_run (o := []) (r := r.1.reader (total - r.2.length)) ?_ rfl ?_
  · rw [hreader, ← hend]
    exact hw.reader hs hb hne (by omega)
  · rw [hplaces, List.map_nil, List.append_nil]

/-- Where the reader stands when the scanner looks at the character behind a run. -/
structure BehindRun (sep : Byte) (r : Reader) (s : Scan) (str : List Byte) : Prop where
  behind : Behind sep r.auto s str
  unquoted : r.auto.st = .start ∨ r.auto.st = .word
  word : r.word = s.buf.getD []
  mark : r.mark = s.startIdx
  idx : r.idx = s.endIdx
  nonneg : 0 ≤ r.idx
  /-- a character was taken, unless the run is empty -/
  taken : r.auto.st = .word → r.auto.isOpen = true ∧ r.start = s.startIdx ∧ r.last = s.endIdx
  /-- white space stands behind a run only -/
  space : r.auto.st = .start → ∀ d rest, str = d :: rest → isSpace d = false

/-- The character behind a run. -/
lemma pieces_token {r : Reader} {s : Scan} {d : Byte} {rest : List Byte}
    (h : BehindRun sep r s (d :: rest)) (hr : r.idx = total - (d :: rest).length) :
    s.places ++ (r.pieces sep (d :: rest)).map Piece.place =
      (scanToken ⟨sep, false⟩ s (d :: rest)).1.places ++
        (((scanToken ⟨sep, false⟩ s (d :: rest)).1.reader
          (total - (scanToken ⟨sep, false⟩ s (d :: rest)).2.length)).pieces sep
            (scanToken ⟨sep, false⟩ s (d :: rest)).2).map Piece.place := by
  obtain ⟨hplain, hstep⟩ := h.behind.stop d rest rfl
  have hd0 : d ≠ 0 := fun h0 => h.behind.nul (by simp [h0])
  have hnext : r.idx + 1 = total - rest.length := by
    rw [hr, List.length_cons]
    push_cast
    ring
  have hskips : isSpace d = false ∨ r.auto.st = .word → r.skips d = false := by
    rintro (hs | hs)
    · simp [Reader.skips, hs]
    · simp [Reader.skips, hs]
  -- a quote or a backslash
  have henter : ∀ q : QState, isSpace d = false → wordStep sep r.auto d = (⟨q.auto, true⟩, []) →
      s.places ++ (r.pieces sep (d :: rest)).map Piece.place = (s.enter q).places ++
        (((s.enter q).reader (total - rest.length)).pieces sep rest).map Piece.place := by
    intro q hsp hword
    rw [Reader.pieces_cons,
      Reader.step_enter (hskips (.inl hsp)) h.unquoted (hstep.trans hword), hnext, h.mark, h.word,
      h.idx]
    rfl
  rw [scanToken, List.headD_cons]
  split
  · exact absurd rfl hd0
  · exact henter .singleQuote rfl rfl
  · exact henter .doubleQuote rfl rfl
  · exact henter .backslash rfl rfl
  · rename_i h0 h39 h34 h92
    split
    · rename_i hsep
      have hword : wordStep sep r.auto d = (⟨.start, false⟩, r.auto.close ++ [.line]) := by
        rw [wordStep, if_neg h39, if_neg h34, if_neg h92, if_pos hsep]
      have hskip : r.skips d = false := by
        rcases h.unquoted with hst | hst
        · exact hskips (.inl (h.space hst d rest rfl))
        · exact hskips (.inr hst)
      rw [Reader.pieces_cons, Reader.step_line hskip h.unquoted (hstep.trans hword), h.mark, h.word,
        h.idx, Scan.places_newLine, h.behind.isOpen, ← h.idx, hnext]
      cases hb : s.buf with
      | none =>
        simp [Scan.newLine, hb, Piece.place, Scan.reader, Scan.auto, h.behind.unquoted,
          QState.auto, h.idx]
      | some b =>
        simp [Scan.newLine, Scan.pushArg, hb, Piece.place, Scan.reader, Scan.auto,
          h.behind.unquoted, QState.auto, h.idx]
    · -- white space that ends the run is looked at again in the next turn
      rename_i hsep
      have hws := space_of_not_plain hplain hd0 ⟨h39, h34, h92⟩ hsep
      have hsp : isSpace d = true := by
        rcases hws with rfl | rfl | rfl | rfl <;> rfl
      have hst : r.auto.st = .word := by
        rcases h.unquoted with hst | hst
        · have hnot := h.space hst d rest rfl
          rw [hsp] at hnot
          cases hnot
        · exact hst
      obtain ⟨hopen, hstart, hlast⟩ := h.taken hst
      have hword : wordStep sep r.auto d = (⟨.start, false⟩, r.auto.close) := by
        rw [wordStep, if_neg h39, if_neg h34, if_neg h92, if_neg hsep, if_pos hws]
      have hskip : (s.reader (total - (d :: rest).length)).skips d = true := by
        simp [Reader.skips, Scan.reader, Scan.auto, h.behind.unquoted, QState.auto, hsp]
      have hopen' : (s.reader (total - (d :: rest).length)).auto.isOpen = true :=
        h.behind.isOpen.symm.trans hopen
      rw [Reader.pieces_cons, Reader.step_space hst hopen (hstep.trans hword), Reader.pieces_cons,
        Reader.step_skip hskip, if_pos hopen', h.mark, h.word, h.idx, ← hr, h.idx]
      rfl

variable (sep) in
lemma takeRun_spec (s : Scan) (idx : ℤ) (t : List Byte) :
    (takeRun ⟨sep, false⟩ s idx t).buf.getD [] = s.buf.getD [] ++ t ∧
      (takeRun ⟨sep, false⟩ s idx t).startIdx = (s.reader idx).mark ∧
      (takeRun ⟨sep, false⟩ s idx t).places = s.places := by
  refine ⟨?_, ?_, ?_⟩
  · show ((s.mark idx).addStr ⟨sep, false⟩ t).buf.getD [] = _
    rw [Scan.getD_addStr, Scan.buf_mark]
  · show ((s.mark idx).addStr ⟨sep, false⟩ t).startIdx = _
    rw [Scan.startIdx_addStr, Scan.startIdx_mark]
  · show ((s.mark idx).addStr ⟨sep, false⟩ t).places = _
    simp

/-- The case `UNQUOTED`. -/
lemma samePlaces_unquoted {s : Scan} (hs : s.state = .unquoted) {c : Byte}
    (hlen : (c :: str).length ≤ total) (hnul : (0 : Byte) ∉ c :: str) :
    SamePlaces sep total s (c :: str)
      (scanUnquoted ⟨sep, false⟩ s (total - (c :: str).length) (c :: str)).1
      (scanUnquoted ⟨sep, false⟩ s (total - (c :: str).length) (c :: str)).2 := by
  set idx : ℤ := total - (c :: str).length with hidx
  have hnonneg : 0 ≤ idx := by omega
  rw [scanUnquoted, List.headD_cons]
  split
  · rename_i hc
    exact samePlaces_space hs hc str
  · rename_i hc
    have hc' : isSpace c = false := by simpa using hc
    have hbehind := behind_takeRun sep hs idx hnul hc' rfl
    have hhead := head_takeRun hc' str (isPlain ⟨sep, false⟩)
    set t := (c :: str).takeWhile (isPlain ⟨sep, false⟩) with ht
    set rest := (c :: str).dropWhile (isPlain ⟨sep, false⟩) with hrest
    have hsplit : c :: str = t ++ rest := (List.takeWhile_append_dropWhile).symm
    have hplain : ∀ d ∈ t, isPlain ⟨sep, false⟩ d = true := fun d hd =>
      List.mem_takeWhile_imp hd
    set s1 := takeRun ⟨sep, false⟩ s idx t with hs1
    obtain ⟨hword, hstart, hplaces⟩ := takeRun_spec sep s idx t
    rw [← hs1] at hword hstart hplaces
    have hstart0 : 0 ≤ s1.startIdx := by
      rw [hstart]
      exact Reader.mark_nonneg hnonneg
    have hlast : s1.endIdx = idx + t.length := rfl
    have hauto : s.auto = ⟨.start, s.buf.isSome⟩ := by rw [Scan.auto, hs]; rfl
    have hend : idx + t.length = total - rest.length := by
      rw [hidx, hsplit, List.length_append]
      push_cast
      ring
    -- the reader behind the run
    obtain ⟨r, hrun, hridx, hr, hfin⟩ : ∃ r : Reader, (s.reader idx).run sep t = (r, []) ∧
        r.idx = total - rest.length ∧ BehindRun sep r s1 rest ∧
        (rest = [] → r.finish = (s1.reader total).finish) := by
      by_cases ht0 : t = []
      · rw [if_pos ht0, ← hauto] at hbehind
        have hrest0 : rest = c :: str := by rw [hsplit, ht0, List.nil_append]
        refine ⟨s.reader idx, by rw [ht0]; rfl, ?_, ?_, ?_⟩
        · rw [← hend, ht0]
          simp [Scan.reader]
        · refine ⟨hbehind, .inl (by rw [Scan.reader, hauto]), ?_, hstart.symm, ?_, hnonneg, ?_, ?_⟩
          · rw [hword, ht0, List.append_nil]
            rfl
          · rw [hlast, ht0]
            simp [Scan.reader]
          · intro hst
            rw [Scan.reader, hauto] at hst
            cases hst
          · intro _ d rest' hcons
            rw [hrest0] at hcons
            cases hcons
            exact hc'
        · intro hnil
          rw [hrest0] at hnil
          cases hnil
      · rw [if_neg ht0] at hbehind
        refine ⟨_, Reader.run_plain hauto hnonneg ht0 hplain hhead, hend, ?_, fun _ => ?_⟩
        · refine ⟨hbehind, .inr rfl, hword.symm, ?_, hlast.symm, ?_, ?_, fun h => by cases h⟩
          · exact (Reader.mark_of_nonneg (r := ⟨_, _, (s.reader idx).mark, _, _⟩)
              (hstart ▸ hstart0)).trans hstart.symm
          · show 0 ≤ idx + (t.length : ℤ)
            omega
          · exact fun _ => ⟨rfl, hstart.symm, hlast.symm⟩
        · have hopen : s1.buf.isSome = true := hbehind.isOpen.symm
          show [Piece.arg (s.buf.getD [] ++ t) (s.reader idx).mark (idx + t.length)] =
            if s1.buf.isSome then [.arg (s1.buf.getD []) s1.startIdx s1.endIdx] else []
          rw [if_pos hopen, hword, hstart, hlast]
    have hfirst : s.places ++ ((s.reader idx).pieces sep (c :: str)).map Piece.place =
        s1.places ++ (r.pieces sep rest).map Piece.place := by
      rw [hsplit, Reader.pieces_append, hrun, hplaces]
      rfl
    rw [SamePlaces, ← hidx, hfirst]
    cases hcases : rest with
    | nil =>
      show _ = s1.places ++ ((s1.reader (total - 0)).finish).map Piece.place
      rw [sub_zero, ← hfin hcases]
      rfl
    | cons d rest' =>
      rw [hcases] at hr hridx
      exact pieces_token hr hridx

lemma samePlaces_turn {s : Scan} (hb : s.Opened) {c : Byte} (hlen : (c :: str).length ≤ total)
    (hnul : (0 : Byte) ∉ c :: str) :
    SamePlaces sep total s (c :: str) (scanTurn ⟨sep, false⟩ s (total - (c :: str).length) (c :: str)).1
      (scanTurn ⟨sep, false⟩ s (total - (c :: str).length) (c :: str)).2 := by
  by_cases hs : s.state = .unquoted
  · rw [scanTurn, hs]
    exact samePlaces_unquoted hs hlen hnul
  · exact (quotedTurn sep _ hs (hb hs) hnul).samePlaces hs (hb hs) hlen

lemma samePlaces_loop (total fuel : ℕ) {s : Scan} {str : List Byte} (hb : s.Opened)
    (hlen : str.length ≤ total) (hnul : (0 : Byte) ∉ str) (hf : str.length ≤ fuel) :
    SamePlaces sep total s str (scanLoop ⟨sep, false⟩ total s str fuel) [] := by
  induction fuel generalizing s str with
  | zero =>
    have hnil : str = [] := List.length_eq_zero_iff.mp (by omega)
    subst hnil
    rfl
  | succ fuel ih =>
    rw [scanLoop]
    cases str with
    | nil => rfl
    | cons c str =>
      have h0 : c ≠ 0 := fun h => hnul (by simp [h])
      obtain ⟨-, hshort, hopen⟩ := scanTurn_spec sep hb (total - (c :: str).length) hnul
      rw [List.headD_cons, if_neg h0]
      have hshort2 := hshort.2
      refine (samePlaces_turn hb hlen hnul).trans (ih hopen ?_ ?_ ?_)
      · omega
      · intro hmem
        exact hnul (hshort.1.subset hmem)
      · omega

variable (sep) in
/-- The places that the scanner returns. -/
lemma places_scanAll {str : List Byte} (hnul : (0 : Byte) ∉ str) :
    (scanAll ⟨sep, false⟩ str).places = (Reader.pieces sep {} str).map Piece.place := by
  set s := scanLoop ⟨sep, false⟩ str.length {} (str.dropWhile isSpace) str.length with hs
  have hsuf : str.dropWhile isSpace <:+ str := List.dropWhile_suffix isSpace
  have hsame : SamePlaces sep str.length {} (str.dropWhile isSpace) s [] :=
    samePlaces_loop str.length str.length (fun h => absurd rfl h) hsuf.length_le
      (fun h => hnul (hsuf.subset h)) hsuf.length_le
  have hspaces : ∀ d ∈ str.takeWhile isSpace, isSpace d = true := fun d hd =>
    List.mem_takeWhile_imp hd
  have hidx : (0 : ℤ) + (str.takeWhile isSpace).length =
      str.length - (str.dropWhile isSpace).length := by
    have hlen := congrArg List.length (List.takeWhile_append_dropWhile (p := isSpace) (l := str))
    rw [List.length_append] at hlen
    omega
  have hinit : Reader.pieces sep {} str =
      (Scan.reader {} (str.length - (str.dropWhile isSpace).length)).pieces sep
        (str.dropWhile isSpace) := by
    conv_lhs => rw [← List.takeWhile_append_dropWhile (p := isSpace) (l := str)]
    rw [Reader.pieces_append, Reader.run_spaces rfl hspaces, List.nil_append, ← hidx]
    rfl
  have hend : s.places ++ ((s.reader (str.length - 0)).finish).map Piece.place =
      (Reader.pieces sep {} str).map Piece.place := by
    rw [hinit]
    exact hsame.symm
  have hall : scanAll ⟨sep, false⟩ str =
      if s.buf.isSome then { s.pushArg ⟨sep, false⟩ with startIdx := s.startIdx } else s := rfl
  rw [← hend, hall]
  show _ = s.places ++ (if s.buf.isSome then [.arg _ _ _] else []).map Piece.place
  split
  · exact s.places_pushArg sep
  · exact (List.append_nil _).symm

end Agree

end Uline
