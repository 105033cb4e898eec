import Mt798x.Lib.Tokens
import Mt798x.Uline.Args

/-!
# Incomplete lines

`check` and `parse` run the same scanner, once without lists.  The state and the rest of the string
after a turn do not depend on the lists, so both report the same missing part.  Behind a string
that lacks something, the missing part closes what was open: it adds at most a backslash to the
last argument.
-/

namespace Uline

open Bytes

/-- `uc_uline_argp_check`: what is missing. -/
def argpCheck (sep : Byte) (str : List Byte) : Option (List Byte) :=
  (scanAll ⟨sep, true⟩ str).state.str

/-- The loop ends: from `s` and `str` its turns lead to `s'`, where no character is left. -/
inductive ScanEnds (p : ArgParser) (total : ℕ) : Scan → List Byte → Scan → Prop
  | done {s : Scan} {str : List Byte} : str.headD 0 = 0 → ScanEnds p total s str s
  | turn {s s' : Scan} {str : List Byte} : str.headD 0 ≠ 0 →
      ScanEnds p total (scanTurn p s (total - str.length) str).1
        (scanTurn p s (total - str.length) str).2 s' → ScanEnds p total s str s'

/-- The same arguments, but for characters behind the last one. -/
inductive Args.Extends : Args → Args → Prop
  | flat (front : List (List Byte)) (a t : List Byte) :
      Extends (.flat (front ++ [a])) (.flat (front ++ [a ++ t]))
  | lines (up : List (List (List Byte))) (front : List (List Byte)) (a t : List Byte) :
      Extends (.lines (up ++ [front ++ [a]])) (.lines (up ++ [front ++ [a ++ t]]))

/-! ## The lists do not matter for the state -/

section Check

variable {sep : Byte} {s s' : Scan}

@[simp] lemma Scan.state_pushArg (p : ArgParser) (s : Scan) : (s.pushArg p).state = s.state := by
  rw [pushArg]
  split <;> rfl

@[simp] lemma Scan.state_newLine (p : ArgParser) (s : Scan) : (s.newLine p).state = s.state := by
  rw [newLine]
  split
  · rfl
  · show (if s.buf.isSome then s.pushArg p else s).state = _
    split
    · exact state_pushArg p s
    · rfl

@[simp] lemma Scan.state_takeRun (p : ArgParser) (s : Scan) (idx : ℤ) (run : List Byte) :
    (takeRun p s idx run).state = s.state := by
  show ((s.mark idx).addStr p run).state = _
  rw [state_addStr, state_mark]

/-- Two scanners with the same state and rest. -/
def SameTurn (x y : Scan × List Byte) : Prop := x.1.state = y.1.state ∧ x.2 = y.2

lemma sameTurn_token (h : s.state = s'.state) (str : List Byte) :
    SameTurn (scanToken ⟨sep, true⟩ s str) (scanToken ⟨sep, false⟩ s' str) := by
  rw [scanToken, scanToken]
  split
  · exact ⟨h, rfl⟩
  · exact ⟨rfl, rfl⟩
  · exact ⟨rfl, rfl⟩
  · exact ⟨rfl, rfl⟩
  · dsimp only
    split
    · exact ⟨by simpa using h, rfl⟩
    · exact ⟨h, rfl⟩

lemma sameTurn_unquoted (h : s.state = s'.state) (idx : ℤ) (str : List Byte) :
    SameTurn (scanUnquoted ⟨sep, true⟩ s idx str) (scanUnquoted ⟨sep, false⟩ s' idx str) := by
  have hpush : ∀ (p : ArgParser) (u : Scan),
      (if u.buf.isSome then u.pushArg p else u).state = u.state := by
    intro p u
    split
    · exact Scan.state_pushArg p u
    · rfl
  rw [scanUnquoted, scanUnquoted]
  split
  · refine ⟨?_, rfl⟩
    dsimp only
    rw [hpush, hpush, h]
  · exact sameTurn_token (by simpa using h) _

variable (sep s s') in
lemma sameTurn_backslash (q : QState) (idx : ℤ) (str : List Byte) :
    SameTurn (scanBackslash ⟨sep, true⟩ s q idx str) (scanBackslash ⟨sep, false⟩ s' q idx str) :=
  ⟨rfl, rfl⟩

lemma sameTurn_single (h : s.state = s'.state) (idx : ℤ) (str : List Byte) :
    SameTurn (scanSingle ⟨sep, true⟩ s idx str) (scanSingle ⟨sep, false⟩ s' idx str) := by
  rw [scanSingle, scanSingle]
  split
  · exact ⟨rfl, rfl⟩
  · exact ⟨by simpa using h, rfl⟩

lemma sameTurn_double (h : s.state = s'.state) (idx : ℤ) (str : List Byte) :
    SameTurn (scanDouble ⟨sep, true⟩ s idx str) (scanDouble ⟨sep, false⟩ s' idx str) := by
  rw [scanDouble, scanDouble]
  split
  · exact ⟨rfl, rfl⟩
  · split
    · exact ⟨rfl, rfl⟩
    · exact ⟨by simpa using h, rfl⟩

variable (sep) in
lemma sameTurn (h : s.state = s'.state) (idx : ℤ) (str : List Byte) :
    SameTurn (scanTurn ⟨sep, true⟩ s idx str) (scanTurn ⟨sep, false⟩ s' idx str) := by
  rw [scanTurn, scanTurn, ← h]
  split
  · exact sameTurn_unquoted h idx str
  · exact sameTurn_backslash sep s s' _ idx str
  · exact sameTurn_backslash sep s s' _ idx str
  · exact sameTurn_single h idx str
  · exact sameTurn_double h idx str

lemma state_scanLoop (total fuel : ℕ) (h : s.state = s'.state) (str : List Byte) :
    (scanLoop ⟨sep, true⟩ total s str fuel).state =
      (scanLoop ⟨sep, false⟩ total s' str fuel).state := by
  induction fuel generalizing s s' str with
  | zero => exact h
  | succ fuel ih =>
    rw [scanLoop, scanLoop]
    split
    · exact h
    · obtain ⟨hstate, hrest⟩ := sameTurn sep h (total - str.length) str
      dsimp only
      rw [hrest]
      exact ih hstate _

lemma Scan.state_scanAll (p : ArgParser) (str : List Byte) :
    (scanAll p str).state =
      (scanLoop p str.length {} (str.dropWhile isSpace) str.length).state := by
  rw [scanAll]
  dsimp only
  split
  · exact state_pushArg p _
  · rfl

variable (sep) in
lemma argpCheck_eq (str : List Byte) : argpCheck sep str = (argpParse sep str).2 := by
  show (scanAll ⟨sep, true⟩ str).state.str = (scanAll ⟨sep, false⟩ str).state.str
  rw [Scan.state_scanAll, Scan.state_scanAll, state_scanLoop _ _ rfl]

variable (sep) in
lemma shorter_turn_check (check : Bool) (s : Scan) (idx : ℤ) {c : Byte} (str : List Byte)
    (h0 : c ≠ 0) : Shorter (scanTurn ⟨sep, check⟩ s idx (c :: str)).2 (c :: str) := by
  cases check with
  | false => exact shorter_turn s idx str h0
  | true =>
    rw [(sameTurn sep rfl idx (c :: str)).2]
    exact shorter_turn s idx str h0

variable (sep) in
lemma scanEnds_loop (check : Bool) (total fuel : ℕ) (s : Scan) {str : List Byte}
    (hf : str.length ≤ fuel) :
    ScanEnds ⟨sep, check⟩ total s str (scanLoop ⟨sep, check⟩ total s str fuel) := by
  induction fuel generalizing s str with
  | zero =>
    have hnil : str = [] := List.length_eq_zero_iff.mp (by omega)
    subst hnil
    exact .done rfl
  | succ fuel ih =>
    rw [scanLoop]
    split
    · rename_i h
      exact .done h
    · rename_i h
      refine .turn h (ih _ ?_)
      cases str with
      | nil => exact absurd rfl h
      | cons c str =>
        have h0 : c ≠ 0 := h
        have hlt := (shorter_turn_check sep check s (total - (c :: str).length) str h0).2
        omega

end Check

/-! ## The missing part closes what is open -/

section Stream

variable {sep : Byte}

/-- Lists of arguments as a stream. -/
def emitLines (up : List (List (List Byte))) (l : List (List Byte)) : List Out :=
  Tokens.streamed emitArgs .line up l

lemma emitLines_injective {up up' : List (List (List Byte))} {l l' : List (List Byte)}
    (h : emitLines up l = emitLines up' l') : up = up' ∧ l = l' :=
  Tokens.streamed_injective (fun _ _ => emitArgs_injective) line_not_mem_emitArgs h

lemma emitLines_last {up : List (List (List Byte))} {l : List (List Byte)} {x : List Out}
    (h : emitLines up l = x ++ [.arg]) :
    ∃ front a, l = front ++ [a] ∧ x = emitLines up front ++ a.map .ch := by
  rcases List.eq_nil_or_concat l with rfl | ⟨front, a, rfl⟩
  · exfalso
    rcases List.eq_nil_or_concat up with rfl | ⟨up, k, rfl⟩
    · simp [emitLines, Tokens.streamed, emitArgs] at h
    · have hlast := congrArg List.getLast? h
      simp [emitLines, Tokens.streamed, emitArgs] at hlast
  · refine ⟨front, a, by simp, ?_⟩
    have hemit : emitLines up (front ++ [a]) = emitLines up front ++ a.map .ch ++ [.arg] := by
      simp [emitLines, Tokens.streamed, emitArgs]
    rw [List.concat_eq_append, hemit] at h
    exact (List.append_cancel_right h).symm

lemma isOpen_run {a : Auto} (ha : a.st.quote ≠ .unquoted → a.isOpen = true) (str : List Byte)
    (h : (a.run sep str).1.st.quote ≠ .unquoted) : (a.run sep str).1.isOpen = true := by
  induction str generalizing a with
  | nil => exact ha h
  | cons c str ih =>
    rw [Auto.run_cons] at h ⊢
    refine ih (a := (a.step sep c).1) (fun hq => ?_) h
    have hword : (wordStep sep a c).1.st.quote ≠ .unquoted → (wordStep sep a c).1.isOpen = true := by
      rw [wordStep]
      split_ifs <;> simp [AState.quote]
    revert hq
    rw [Auto.step]
    split
    · split
      · exact fun h => absurd rfl h
      · exact hword
    · exact hword
    · exact fun _ => rfl
    · exact fun _ => rfl
    · split <;> exact fun _ => rfl
    · split_ifs <;> exact fun _ => rfl

variable (sep) in
lemma run_missing {a : Auto} {m : List Byte} (hm : a.st.quote.str = some m)
    (ha : a.isOpen = true) :
    ∃ t : List Byte, a.run sep m = (⟨.start, true⟩, t.map .ch) ∧ (0 : Byte) ∉ m := by
  obtain ⟨st, o⟩ := a
  cases st with
  | start => simp [AState.quote, QState.str] at hm
  | word => simp [AState.quote, QState.str] at hm
  | backslash =>
    obtain rfl : [92] = m := Option.some.inj hm
    exact ⟨[92], rfl, by decide⟩
  | single =>
    obtain rfl : [39] = m := Option.some.inj hm
    exact ⟨[], rfl, by decide⟩
  | double =>
    obtain rfl : [34] = m := Option.some.inj hm
    exact ⟨[], rfl, by decide⟩
  | doubleBackslash =>
    obtain rfl : [92, 34] = m := Option.some.inj hm
    exact ⟨[92], rfl, by decide⟩

variable (sep) in
lemma emitLines_scanAll {str : List Byte} (hnul : (0 : Byte) ∉ str) :
    emitLines (scanAll ⟨sep, false⟩ str).lines (scanAll ⟨sep, false⟩ str).list =
      (Auto.run sep ⟨.start, false⟩ str).2 ++ (Auto.run sep ⟨.start, false⟩ str).1.close := by
  obtain ⟨hemit, -, hbuf⟩ := scanAll_spec sep hnul
  rw [← hemit, Scan.emitted, hbuf]
  simp [emitLines, Tokens.streamed]

variable (sep) in
/-- With the missing part behind it nothing is missing, and only the last argument is longer. -/
lemma missing_spec {str m : List Byte} (hnul : (0 : Byte) ∉ str)
    (hm : (argpParse sep str).2 = some m) :
    (argpParse sep (str ++ m)).2 = none ∧
      (argpParse sep str).1.Extends (argpParse sep (str ++ m)).1 := by
  obtain ⟨-, hstate, -⟩ := scanAll_spec sep hnul
  set a := (Auto.run sep ⟨.start, false⟩ str).1 with ha
  have hm' : a.st.quote.str = some m := by
    rw [← hstate]
    exact hm
  have hopen : a.isOpen = true := by
    refine isOpen_run (fun h => absurd rfl h) str fun h => ?_
    rw [ha, h] at hm'
    cases hm'
  obtain ⟨t, hrun, hm0⟩ := run_missing sep hm' hopen
  have hnul' : (0 : Byte) ∉ str ++ m := by
    simp [hnul, hm0]
  have hlong := Auto.run_append sep ⟨.start, false⟩ str m
  rw [← ha, hrun] at hlong
  obtain ⟨-, hstate', -⟩ := scanAll_spec sep hnul'
  have hnone : (argpParse sep (str ++ m)).2 = none := by
    show (scanAll ⟨sep, false⟩ (str ++ m)).state.str = none
    rw [hstate', hlong]
    rfl
  -- the stream of the longer string has `t` in front of its last end of an argument
  have hemit := emitLines_scanAll sep hnul
  have hemit' := emitLines_scanAll sep hnul'
  rw [← ha, Auto.close, if_pos hopen] at hemit
  obtain ⟨front, b, hlist, hout⟩ := emitLines_last hemit
  have hlong' : emitLines (scanAll ⟨sep, false⟩ (str ++ m)).lines
      (scanAll ⟨sep, false⟩ (str ++ m)).list =
      emitLines (scanAll ⟨sep, false⟩ str).lines (front ++ [b ++ t]) := by
    rw [hemit', hlong, hout]
    simp [Auto.close, emitLines, Tokens.streamed, emitArgs]
  obtain ⟨hlines', hlist'⟩ := emitLines_injective hlong'
  refine ⟨hnone, ?_⟩
  rw [argpParse, argpParse]
  dsimp only
  rw [hlines', hlist', hlist]
  split
  · exact .flat front b t
  · exact .lines _ front b t

end Stream

/-- `check` returns what `parse` says is missing, both scans end, and a string with its missing part
behind it lacks nothing and has the same arguments, but for a longer last one. -/
theorem check_parse (sep : Byte) {str : List Byte} (hnul : (0 : Byte) ∉ str) :
    argpCheck sep str = (argpParse sep str).2 ∧
      (∀ check, ScanEnds ⟨sep, check⟩ str.length {} (str.dropWhile isSpace)
        (scanLoop ⟨sep, check⟩ str.length {} (str.dropWhile isSpace) str.length)) ∧
      ∀ m, argpCheck sep str = some m →
        argpCheck sep (str ++ m) = none ∧
          (argpParse sep str).1.Extends (argpParse sep (str ++ m)).1 := by
  refine ⟨argpCheck_eq sep str, fun check => ?_, fun m hm => ?_⟩
  · exact scanEnds_loop sep check str.length str.length {}
      (List.dropWhile_suffix isSpace).length_le
  · rw [argpCheck_eq] at hm ⊢
    exact missing_spec sep hnul hm

/-- The line `a; b "c` with the separator `;` lacks a quote. -/
theorem check_parse_quote :
    argpCheck 59 [97, 59, 32, 98, 32, 34, 99] = some [34] ∧
      (argpParse 59 [97, 59, 32, 98, 32, 34, 99]).1.Extends
        (argpParse 59 ([97, 59, 32, 98, 32, 34, 99] ++ [34])).1 :=
  have hm : argpCheck 59 [97, 59, 32, 98, 32, 34, 99] = some [34] := by decide
  ⟨hm, ((check_parse 59 (by decide)).2.2 _ hm).2⟩

end Uline
