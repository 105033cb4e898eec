import Mt798x.Uline.Args

/-!
# Quoting arguments

`uc_uline_argp_escape` quotes a string so that the parser gives it back, and strings quoted one by
one are joined with spaces.  The parser reads a backslash inside double quotes, but the quoting
does not escape it; a string that is not quoted may still hold characters that the parser splits
at.  `args_round_trip_iff` says which lists of strings come back.

The proof that the other lists do not come back compares two positions in the stream of the
arguments: how far the strings have been read and how far they have been emitted.  Once a character
is lost, the emitted part never catches up again (`Spoiled`).
-/

namespace Uline

open Bytes

/-! ## The encoder -/

/-- There is one of the characters `"\n\t '\""`. -/
def needsQuote (s : List Byte) : Bool :=
  s.any fun c => c == 10 || c == 9 || c == 32 || c == 39 || c == 34

/-- The quote that is used, anything else for none; `q` is the one that was asked for. -/
def escapeRef (q : Byte) (s : List Byte) : Byte :=
  if q ≠ 34 ∧ q ≠ 39 then if needsQuote s then 34 else q else q

/-- A character inside the quote `ref`. -/
def escapeChar (ref c : Byte) : List Byte :=
  if c = ref then if ref = 39 then [39, 92, 39, 39] else [92, 34] else [c]

/-- `uc_uline_argp_escape`. -/
def argpEscape (q : Byte) (s : List Byte) : List Byte :=
  let ref := escapeRef q s
  if ref ≠ 34 ∧ ref ≠ 39 then s else ref :: (s.flatMap (escapeChar ref) ++ [ref])

/-- The quoted strings, joined with single spaces. -/
def joinEscaped (q : Byte) : List (List Byte) → List Byte
  | [] => []
  | [s] => argpEscape q s
  | s :: t :: l => argpEscape q s ++ 32 :: joinEscaped q (t :: l)

/-! ## The strings that come back -/

/-- The string is put in quotes. -/
def Quoted (q : Byte) (s : List Byte) : Prop := escapeRef q s = 34 ∨ escapeRef q s = 39

instance (q : Byte) (s : List Byte) : Decidable (Quoted q s) := inferInstanceAs (Decidable (_ ∨ _))

/-- A string survives quoting: in single quotes always, in double quotes without a backslash, and
without quotes if it is not empty, does not start with white space and has no character the parser
stops at. -/
def Quotable (sep q : Byte) (s : List Byte) : Prop :=
  if escapeRef q s = 39 then True
  else if escapeRef q s = 34 then 92 ∉ s
  else s ≠ [] ∧ (∀ c ∈ s, isPlain ⟨sep, false⟩ c = true) ∧
    ∀ c, s.head? = some c → isSpace c = false

/-- A list of strings survives quoting and joining; if the separator is the space itself, all but
the last string have to be in quotes. -/
def Joinable (sep q : Byte) : List (List Byte) → Prop
  | [] => True
  | [s] => Quotable sep q s
  | s :: t :: l =>
    Quotable sep q s ∧ (sep = 32 → Quoted q s) ∧ Joinable sep q (t :: l)

variable {sep q : Byte}

/-! ## Strings that survive -/

lemma run_single (s : List Byte) (str : List Byte) :
    Auto.run sep ⟨.single, true⟩ (s.flatMap (escapeChar 39) ++ str) =
      ((Auto.run sep ⟨.single, true⟩ str).1,
        s.map .ch ++ (Auto.run sep ⟨.single, true⟩ str).2) := by
  induction s with
  | nil => rfl
  | cons c s ih =>
    rw [List.flatMap_cons, List.append_assoc]
    by_cases hc : c = 39
    · subst hc
      have hesc : Auto.run sep ⟨.single, true⟩ (escapeChar 39 39) =
          (⟨.single, true⟩, [.ch 39]) := rfl
      rw [Auto.run_append, hesc, ih]
      rfl
    · have hesc : Auto.run sep ⟨.single, true⟩ (escapeChar 39 c) =
          (⟨.single, true⟩, [.ch c]) := by
        simp [escapeChar, hc, Auto.run, Auto.step]
      rw [Auto.run_append, hesc, ih]
      rfl

lemma run_double {s : List Byte} (h : (92 : Byte) ∉ s) (str : List Byte) :
    Auto.run sep ⟨.double, true⟩ (s.flatMap (escapeChar 34) ++ str) =
      ((Auto.run sep ⟨.double, true⟩ str).1,
        s.map .ch ++ (Auto.run sep ⟨.double, true⟩ str).2) := by
  induction s with
  | nil => rfl
  | cons c s ih =>
    rw [List.mem_cons, not_or] at h
    rw [List.flatMap_cons, List.append_assoc]
    by_cases hc : c = 34
    · subst hc
      have hesc : Auto.run sep ⟨.double, true⟩ (escapeChar 34 34) =
          (⟨.double, true⟩, [.ch 34]) := rfl
      rw [Auto.run_append, hesc, ih h.2]
      rfl
    · have hesc : Auto.run sep ⟨.double, true⟩ (escapeChar 34 c) =
          (⟨.double, true⟩, [.ch c]) := by
        simp [escapeChar, hc, Auto.run, Auto.step, Ne.symm h.1]
      rw [Auto.run_append, hesc, ih h.2]
      rfl

variable {s : List Byte} {u : List Out} {c : Byte}

lemma argpEscape_of_quoted (h : Quoted q s) :
    argpEscape q s =
      escapeRef q s :: (s.flatMap (escapeChar (escapeRef q s)) ++ [escapeRef q s]) := by
  rw [argpEscape, if_neg]
  rintro ⟨h1, h2⟩
  rcases h with h | h
  · exact h1 h
  · exact h2 h

lemma argpEscape_of_not_quoted (h : ¬ Quoted q s) : argpEscape q s = s := by
  rw [Quoted, not_or] at h
  rw [argpEscape, if_pos h]

lemma run_escape (h : Quotable sep q s) :
    Auto.run sep ⟨.start, false⟩ (argpEscape q s) =
      (⟨if Quoted q s then .start else .word, true⟩, s.map .ch) := by
  rw [Quotable] at h
  by_cases hq : Quoted q s
  · rw [if_pos hq, argpEscape_of_quoted hq]
    rcases hq with hr | hr
    · rw [hr, if_neg (by decide), if_pos rfl] at h
      have hopen : Auto.step sep ⟨.start, false⟩ 34 = (⟨.double, true⟩, []) := rfl
      rw [hr, Auto.run_cons, hopen, run_double h]
      simp [Auto.run, Auto.step]
    · have hopen : Auto.step sep ⟨.start, false⟩ 39 = (⟨.single, true⟩, []) := rfl
      rw [hr, Auto.run_cons, hopen, run_single]
      simp [Auto.run, Auto.step]
  · rw [if_neg hq, argpEscape_of_not_quoted hq]
    rw [Quoted, not_or] at hq
    rw [if_neg hq.2, if_neg hq.1] at h
    have hrun := run_plain (o := false) h.2.1 h.2.2 []
    rw [List.append_nil, if_neg h.1] at hrun
    rw [hrun]
    simp [Auto.run]

lemma step_space (h : sep = 32 → Quoted q s) :
    Auto.step sep ⟨if Quoted q s then .start else .word, true⟩ 32 = (⟨.start, false⟩, [.arg]) := by
  by_cases hq : Quoted q s
  · rw [if_pos hq]
    rfl
  · rw [if_neg hq]
    show wordStep sep ⟨.word, true⟩ 32 = _
    rw [wordStep, if_neg (by decide), if_neg (by decide), if_neg (by decide), if_neg,
      if_pos (Or.inl rfl)]
    · rfl
    · rintro ⟨-, hs⟩
      exact hq (h hs.symm)

lemma run_joinEscaped {l : List (List Byte)} (h : Joinable sep q l) :
    (Auto.run sep ⟨.start, false⟩ (joinEscaped q l)).2 ++
        (Auto.run sep ⟨.start, false⟩ (joinEscaped q l)).1.close = emitArgs l ∧
      (Auto.run sep ⟨.start, false⟩ (joinEscaped q l)).1.st.quote = .unquoted := by
  induction l with
  | nil => exact ⟨rfl, rfl⟩
  | cons s l ih =>
    cases l with
    | nil =>
      rw [joinEscaped, run_escape h]
      refine ⟨by simp [Auto.close, emitArgs], ?_⟩
      dsimp only
      split <;> rfl
    | cons t l =>
      obtain ⟨h1, h2⟩ := ih h.2.2
      rw [joinEscaped, Auto.run_append, run_escape h.1, Auto.run_cons, step_space h.2.1]
      refine ⟨?_, h2⟩
      rw [emitArgs_cons, ← h1]
      simp

/-! ## Lost characters -/

/-- The strings are read up to position `i` of their stream `S`, and what was emitted is `n` long:
it is behind, by two behind a backslash.  Inside single quotes it is stuck in front of the quote
that opened them, which cannot be emitted there. -/
def Spoiled (S : List Out) (i : ℕ) (a : Auto) (n : ℕ) : Prop :=
  match a.st with
  | .start => n < i
  | .word => n < i
  | .double => n < i
  | .backslash => n + 2 ≤ i
  | .doubleBackslash => n + 2 ≤ i
  | .single => ∃ p < i, S[p]? = some (.ch 39) ∧ n ≤ p

variable {S T : List Out} {i : ℕ} {a : Auto}

lemma getElem?_of_emitted {x : Out} {more : List Out} (h : T ++ x :: more <+: S) :
    S[T.length]? = some x := by
  obtain ⟨u, hu⟩ := h
  rw [← hu, List.append_assoc, List.getElem?_append_right le_rfl]
  simp

lemma emitted_of_append (h : T ++ u <+: S) : T <+: S :=
  (List.prefix_append T u).trans h

lemma spoiled_single_char (hc : c ≠ 39) (h : ∃ p < i, S[p]? = some (.ch 39) ∧ T.length ≤ p)
    (hpre : T ++ [Out.ch c] <+: S) :
    ∃ p < i, S[p]? = some (.ch 39) ∧ (T ++ [Out.ch c]).length ≤ p := by
  obtain ⟨p, hp, hS, hn⟩ := h
  refine ⟨p, hp, hS, ?_⟩
  have hne : T.length ≠ p := by
    rintro rfl
    rw [getElem?_of_emitted hpre] at hS
    cases hS
    exact hc rfl
  rw [List.length_append, List.length_singleton]
  omega

lemma spoiled_wordStep (hline : Out.line ∉ S) (hn : T.length < i)
    (hquote : c = 39 → S[i]? = some (.ch 39)) (hpre : T ++ (wordStep sep a c).2 <+: S) :
    Spoiled S (i + 1) (wordStep sep a c).1 (T ++ (wordStep sep a c).2).length := by
  have hclose : a.close.length ≤ 1 := by
    rw [Auto.close]
    split <;> simp
  rw [wordStep] at hpre ⊢
  split_ifs at hpre ⊢ with h1 h2 h3 h4 h5
  · exact ⟨i, Nat.lt_succ_self i, hquote h1, by simpa using hn.le⟩
  · show (T ++ []).length < i + 1
    simp
    omega
  · show (T ++ []).length + 2 ≤ i + 1
    simp
    omega
  · exfalso
    exact hline (hpre.subset (by simp))
  · show (T ++ a.close).length < i + 1
    rw [List.length_append]
    omega
  · show (T ++ [Out.ch c]).length < i + 1
    simp
    omega

/-- One character of the strings is read. -/
lemma spoiled_step (hline : Out.line ∉ S) (h : Spoiled S i a T.length)
    (hquote : c = 39 → S[i]? = some (.ch 39)) (hpre : T ++ (a.step sep c).2 <+: S) :
    Spoiled S (i + 1) (a.step sep c).1 (T ++ (a.step sep c).2).length := by
  obtain ⟨st, o⟩ := a
  have hone : ∀ x : Out, (T ++ if c = 10 then [] else [x]).length ≤ T.length + 1 := by
    intro x
    split <;> simp
  cases st with
  | start =>
    rw [Auto.step] at hpre ⊢
    dsimp only at hpre ⊢
    split_ifs at hpre ⊢ with hsp
    · show (T ++ Auto.close ⟨.start, o⟩).length < i + 1
      have hn : T.length < i := h
      cases o <;> simp [Auto.close] <;> omega
    · exact spoiled_wordStep hline h hquote hpre
  | word => exact spoiled_wordStep hline h hquote hpre
  | backslash =>
    have hn : T.length + 2 ≤ i := h
    have := hone (.ch c)
    show (T ++ if c = 10 then [] else [Out.ch c]).length < i + 1
    omega
  | doubleBackslash =>
    have hn : T.length + 2 ≤ i := h
    have := hone (.ch c)
    show (T ++ if c = 10 then [] else [Out.ch c]).length < i + 1
    omega
  | single =>
    rw [Auto.step] at hpre ⊢
    dsimp only at hpre ⊢
    split_ifs at hpre ⊢ with hc
    · obtain ⟨p, hp, -, hn⟩ := h
      show (T ++ []).length < i + 1
      simp
      omega
    · obtain ⟨p, hp, hrest⟩ := spoiled_single_char hc h hpre
      exact ⟨p, hp.trans (Nat.lt_succ_self i), hrest⟩
  | double =>
    have hn : T.length < i := h
    rw [Auto.step] at hpre ⊢
    dsimp only at hpre ⊢
    split_ifs with hc hc2
    · show (T ++ []).length < i + 1
      simp
      omega
    · show (T ++ []).length + 2 ≤ i + 1
      simp
      omega
    · show (T ++ [Out.ch c]).length < i + 1
      simp
      omega

lemma spoiled_quote (h : Spoiled S i a T.length) (hpre : T ++ (a.step sep 34).2 <+: S) :
    Spoiled S i (a.step sep 34).1 (T ++ (a.step sep 34).2).length := by
  obtain ⟨st, o⟩ := a
  cases st with
  | start => simpa [Auto.step, wordStep, isSpace, Spoiled] using h
  | word => simpa [Auto.step, wordStep, Spoiled] using h
  | backslash =>
    have hn : T.length + 2 ≤ i := h
    show (T ++ [Out.ch 34]).length < i
    simp
    omega
  | doubleBackslash =>
    have hn : T.length + 2 ≤ i := h
    show (T ++ [Out.ch 34]).length < i
    simp
    omega
  | single => exact spoiled_single_char (by decide) h hpre
  | double => simpa [Auto.step, Spoiled] using h

/-- A double quote of one of the strings, with the backslash in front of it. -/
lemma spoiled_escaped (h : Spoiled S i a T.length) (hpre : T ++ (a.run sep [92, 34]).2 <+: S) :
    Spoiled S (i + 1) (a.run sep [92, 34]).1 (T ++ (a.run sep [92, 34]).2).length := by
  obtain ⟨st, o⟩ := a
  have hone : ∀ x : Out, (T ++ [x]).length = T.length + 1 := fun x => by simp
  cases st with
  | start =>
    have hn : T.length < i := h
    show (T ++ [Out.ch 34]).length < i + 1
    rw [hone]
    omega
  | word =>
    have hn : T.length < i := h
    show (T ++ [Out.ch 34]).length < i + 1
    rw [hone]
    omega
  | backslash =>
    have hn : T.length + 2 ≤ i := h
    show (T ++ [Out.ch 92]).length < i + 1
    rw [hone]
    omega
  | doubleBackslash =>
    have hn : T.length + 2 ≤ i := h
    show (T ++ [Out.ch 92]).length < i + 1
    rw [hone]
    omega
  | single =>
    have hpre' : (T ++ [Out.ch 92]) ++ [Out.ch 34] <+: S := by
      simpa [Auto.run, Auto.step] using hpre
    have h1 := spoiled_single_char (by decide) h (emitted_of_append hpre')
    have h2 := spoiled_single_char (by decide) h1 hpre'
    obtain ⟨p, hp, hrest⟩ := h2
    refine ⟨p, hp.trans (Nat.lt_succ_self i), hrest.1, ?_⟩
    simpa [Auto.run, Auto.step] using hrest.2
  | double =>
    have hn : T.length < i := h
    show (T ++ [Out.ch 34]).length < i + 1
    rw [hone]
    omega

/-- The rest of a text completes the stream and leaves no quote open. -/
structure Completes (sep : Byte) (S : List Out) (a : Auto) (T : List Out) (text : List Byte) :
    Prop where
  out : T ++ (a.run sep text).2 ++ (a.run sep text).1.close = S
  quote : (a.run sep text).1.st.quote = .unquoted

lemma Completes.append {x more : List Byte} (h : Completes sep S a T (x ++ more)) :
    Completes sep S (a.run sep x).1 (T ++ (a.run sep x).2) more := by
  obtain ⟨h1, h2⟩ := h
  rw [Auto.run_append] at h1 h2
  exact ⟨by rw [← h1]; simp only [List.append_assoc], h2⟩

lemma Completes.cons {c : Byte} {more : List Byte} (h : Completes sep S a T (c :: more)) :
    Completes sep S (a.step sep c).1 (T ++ (a.step sep c).2) more := by
  have := Completes.append (x := [c]) h
  simpa [Auto.run] using this

lemma Completes.isPrefix {text : List Byte} (h : Completes sep S a T text) : T <+: S := by
  rw [← h.out, List.append_assoc]
  exact List.prefix_append _ _

lemma getElem?_of_drop {x : Out} (h : S.drop i = x :: u) : S[i]? = some x := by
  have := congrArg (fun l => l[0]?) h
  simpa [List.getElem?_drop] using this

lemma drop_succ {x : Out} (h : S.drop i = x :: u) : S.drop (i + 1) = u := by
  rw [← List.drop_drop, h]
  rfl

/-- A string is read, with or without double quotes around it. -/
lemma spoiled_body {f : Byte → List Byte} (hf : ∀ c, f c = [c] ∨ c = 34 ∧ f c = [92, 34])
    (hline : Out.line ∉ S) (s : List Byte) {u : List Out} {more : List Byte}
    (h : Spoiled S i a T.length) (hS : S.drop i = s.map .ch ++ u)
    (hc : Completes sep S a T (s.flatMap f ++ more)) :
    ∃ a' T', Spoiled S (i + s.length) a' T'.length ∧ S.drop (i + s.length) = u ∧
      Completes sep S a' T' more := by
  induction s generalizing i a T with
  | nil => exact ⟨a, T, h, hS, hc⟩
  | cons c s ih =>
    rw [List.map_cons, List.cons_append] at hS
    rw [List.flatMap_cons, List.append_assoc] at hc
    have hpos : i + (c :: s).length = i + 1 + s.length := by
      rw [List.length_cons]
      omega
    rw [hpos]
    have hc1 := hc.append
    rcases hf c with hfc | ⟨rfl, hfc⟩
    · have hrun : a.run sep [c] = ((a.step sep c).1, (a.step sep c).2) := by
        rw [Auto.run_cons]
        simp [Auto.run]
      rw [hfc, hrun] at hc1
      refine ih (spoiled_step hline h ?_ hc1.isPrefix) (drop_succ hS) hc1
      intro h39
      rw [getElem?_of_drop hS, h39]
    · rw [hfc] at hc1
      exact ih (spoiled_escaped h hc1.isPrefix) (drop_succ hS) hc1

/-- What stands for a character of a string. -/
def escapeIf (quoted : Bool) (c : Byte) : List Byte := if quoted then escapeChar 34 c else [c]

lemma escapeIf_cases (b : Bool) (c : Byte) :
    escapeIf b c = [c] ∨ c = 34 ∧ escapeIf b c = [92, 34] := by
  cases b with
  | false => exact Or.inl rfl
  | true =>
    by_cases hc : c = 34
    · exact Or.inr ⟨hc, by subst hc; rfl⟩
    · exact Or.inl (by simp [escapeIf, escapeChar, hc])

lemma argpEscape_eq (hq : q ≠ 39) (s : List Byte) :
    argpEscape q s = (if Quoted q s then [34] else []) ++
      (s.flatMap (escapeIf (Quoted q s)) ++ if Quoted q s then [34] else []) := by
  have hne : escapeRef q s ≠ 39 := by
    rw [escapeRef]
    split_ifs
    · decide
    · exact hq
    · exact hq
  by_cases h : Quoted q s
  · have href : escapeRef q s = 34 := h.resolve_right hne
    have hf : escapeIf true = escapeChar 34 := rfl
    rw [argpEscape_of_quoted h, href, if_pos h, decide_eq_true h, hf]
    rfl
  · have hf : escapeIf false = fun c => [c] := rfl
    rw [argpEscape_of_not_quoted h, if_neg h, decide_eq_false h, hf]
    simp

lemma spoiled_quoteIf {b : Prop} [Decidable b] {more : List Byte} (h : Spoiled S i a T.length)
    (hc : Completes sep S a T ((if b then [34] else []) ++ more)) :
    ∃ a' T', Spoiled S i a' T'.length ∧ Completes sep S a' T' more := by
  split at hc
  · have hc1 := Completes.cons hc
    exact ⟨_, _, spoiled_quote h hc1.isPrefix, hc1⟩
  · exact ⟨a, T, h, hc⟩

lemma spoiled_end (h : Spoiled S i a T.length) (hS : S.drop i = .arg :: u)
    (hc : Completes sep S a T []) : False := by
  have hlen : i < S.length := by
    by_contra hge
    rw [List.drop_eq_nil_of_le (by omega)] at hS
    cases hS
  have hout := congrArg List.length hc.out
  have hclose : a.close.length ≤ 1 := by
    rw [Auto.close]
    split <;> simp
  simp only [Auto.run, List.append_nil, List.length_append] at hout
  obtain ⟨st, o⟩ := a
  have hquote := hc.quote
  cases st with
  | start =>
    have hn : T.length < i := h
    omega
  | word =>
    have hn : T.length < i := h
    omega
  | backslash => cases hquote
  | single => cases hquote
  | double => cases hquote
  | doubleBackslash => cases hquote

/-- What follows a string. -/
def tailText (q : Byte) : List (List Byte) → List Byte
  | [] => []
  | t :: l => 32 :: joinEscaped q (t :: l)

lemma joinEscaped_cons (s : List Byte) (l : List (List Byte)) :
    joinEscaped q (s :: l) = argpEscape q s ++ tailText q l := by
  cases l with
  | nil => rw [joinEscaped, tailText, List.append_nil]
  | cons t l => rfl

lemma spoiled_escape (hq : q ≠ 39) (hline : Out.line ∉ S) (s : List Byte) {more : List Byte}
    (h : Spoiled S i a T.length) (hS : S.drop i = s.map .ch ++ u)
    (hc : Completes sep S a T (argpEscape q s ++ more)) :
    ∃ i' a' T', Spoiled S i' a' T'.length ∧ S.drop i' = u ∧ Completes sep S a' T' more := by
  rw [argpEscape_eq hq, List.append_assoc, List.append_assoc] at hc
  obtain ⟨a1, T1, h1, hc1⟩ := spoiled_quoteIf h hc
  obtain ⟨a2, T2, h2, hS2, hc2⟩ := spoiled_body (escapeIf_cases _) hline s h1 hS hc1
  obtain ⟨a3, T3, h3, hc3⟩ := spoiled_quoteIf h2 hc2
  exact ⟨_, a3, T3, h3, hS2, hc3⟩

lemma spoiled_tail (hq : q ≠ 39) (hline : Out.line ∉ S) (l : List (List Byte))
    (h : Spoiled S i a T.length) (hS : S.drop i = .arg :: emitArgs l)
    (hc : Completes sep S a T (tailText q l)) : False := by
  induction l generalizing i a T with
  | nil => exact spoiled_end h hS hc
  | cons s l ih =>
    have hc1 := hc.cons
    have h1 := spoiled_step hline h (fun h39 => by cases h39) hc1.isPrefix
    have hS1 := drop_succ hS
    rw [joinEscaped_cons] at hc1
    rw [emitArgs_cons] at hS1
    obtain ⟨i', a', T', h', hS', hc'⟩ := spoiled_escape hq hline s h1 hS1 hc1
    exact ih h' hS' hc'

/-! ## The first string that is lost -/

lemma spoiled_string (hq : q ≠ 39) (hline : Out.line ∉ S) (quoted : Bool) (s : List Byte)
    (l : List (List Byte)) (h : Spoiled S i a T.length)
    (hS : S.drop i = s.map .ch ++ .arg :: emitArgs l)
    (hc : Completes sep S a T
      (s.flatMap (escapeIf quoted) ++ ((if quoted then [34] else []) ++ tailText q l))) :
    False := by
  obtain ⟨a1, T1, h1, hS1, hc1⟩ := spoiled_body (escapeIf_cases quoted) hline s h hS hc
  obtain ⟨a2, T2, h2, hc2⟩ := spoiled_quoteIf h1 hc1
  exact spoiled_tail hq hline l h2 hS1 hc2

/-- A string in double quotes comes back only if it has no backslash. -/
lemma not_mem_of_completes (hq : q ≠ 39) (hline : Out.line ∉ S) (s : List Byte)
    (l : List (List Byte)) (hT : T.length = i) (hS : S.drop i = s.map .ch ++ .arg :: emitArgs l)
    (hc : Completes sep S ⟨.double, true⟩ T
      (s.flatMap (escapeIf true) ++ ([34] ++ tailText q l))) : (92 : Byte) ∉ s := by
  induction s generalizing i T with
  | nil => simp
  | cons c s ih =>
    rw [List.map_cons, List.cons_append] at hS
    rw [List.flatMap_cons, List.append_assoc] at hc
    have hS1 := drop_succ hS
    have hat := getElem?_of_drop hS
    rw [← hT] at hat
    by_cases hc92 : c = 92
    · -- the backslash takes the next character with it
      exfalso
      subst hc92
      have hc1 : Completes sep S ⟨.doubleBackslash, true⟩ T
          (s.flatMap (escapeIf true) ++ ([34] ++ tailText q l)) := by
        have := hc.append
        simpa [escapeIf, escapeChar, Auto.run, Auto.step] using this
      cases s with
      | nil =>
        have hc2 := Completes.cons (c := 34) hc1
        rw [getElem?_of_emitted hc2.isPrefix] at hat
        cases hat
      | cons d s =>
        rw [List.map_cons, List.cons_append] at hS1
        rw [List.flatMap_cons, List.append_assoc] at hc1
        have hc2 := hc1.append
        have hS2 := drop_succ hS1
        by_cases hd : d = 34
        · subst hd
          refine spoiled_string hq hline true s l (T := T ++ [.ch 92]) ?_ hS2 hc2
          show (T ++ [Out.ch 92]).length < i + 1 + 1
          simp [hT]
        · have hesc : escapeIf true d = [d] := by simp [escapeIf, escapeChar, hd]
          rw [hesc] at hc2
          by_cases hd10 : d = 10
          · subst hd10
            refine spoiled_string hq hline true s l (T := T ++ []) ?_ hS2 hc2
            show (T ++ ([] : List Out)).length < i + 1 + 1
            simp [hT]
          · have hout : (Auto.run sep ⟨.doubleBackslash, true⟩ [d]) =
                (⟨.double, true⟩, [.ch d]) := by
              simp [Auto.run, Auto.step, hd10]
            rw [hout] at hc2
            refine spoiled_string hq hline true s l ?_ hS2 hc2
            show (T ++ [Out.ch d]).length < i + 1 + 1
            simp [hT]
    · have hstep : Auto.run sep ⟨.double, true⟩ (escapeIf true c) =
          (⟨.double, true⟩, [.ch c]) := by
        by_cases hc34 : c = 34
        · subst hc34
          rfl
        · simp [escapeIf, escapeChar, hc34, Auto.run, Auto.step, hc92]
      have hc1 := hc.append
      rw [hstep] at hc1
      have := ih (T := T ++ [.ch c]) (by simp [hT]) hS1 hc1
      rw [List.mem_cons, not_or]
      exact ⟨Ne.symm hc92, this⟩

lemma not_needsQuote (h : ¬ Quoted q s) : ∀ c ∈ s, c ≠ 10 ∧ c ≠ 9 ∧ c ≠ 32 ∧ c ≠ 39 ∧ c ≠ 34 := by
  have hneed : needsQuote s = false := by
    rw [Quoted, not_or, escapeRef] at h
    by_contra hn
    have hn' : needsQuote s = true := by simpa using hn
    rw [hn'] at h
    by_cases h1 : q ≠ 34 ∧ q ≠ 39
    · rw [if_pos h1, if_pos rfl] at h
      exact h.1 rfl
    · rw [if_neg h1] at h
      exact h1 h
  intro c hc
  rw [needsQuote, List.any_eq_false] at hneed
  have := hneed c hc
  simpa [not_or, and_assoc] using this

lemma step_plain (ha : a = ⟨.start, false⟩ ∨ a = ⟨.word, true⟩)
    (hplain : isPlain ⟨sep, false⟩ c = true) (hsp : a.st = .start → isSpace c = false) :
    a.step sep c = (⟨.word, true⟩, [.ch c]) := by
  rcases ha with rfl | rfl
  · rw [Auto.step]
    simp only [hsp rfl, Bool.false_eq_true, if_false]
    exact wordStep_plain _ hplain
  · exact wordStep_plain _ hplain

/-- A string without quotes comes back only if it has no character the parser stops at. -/
lemma plain_of_completes (hq : q ≠ 39) (hline : Out.line ∉ S) (s : List Byte)
    (l : List (List Byte)) (hchars : ∀ c ∈ s, c ≠ 10 ∧ c ≠ 9 ∧ c ≠ 32 ∧ c ≠ 39 ∧ c ≠ 34)
    (hnul : (0 : Byte) ∉ s) (ha : a = ⟨.start, false⟩ ∨ a = ⟨.word, true⟩) (hT : T.length = i)
    (hS : S.drop i = s.map .ch ++ .arg :: emitArgs l)
    (hc : Completes sep S a T (s ++ tailText q l)) :
    (∀ c ∈ s, isPlain ⟨sep, false⟩ c = true) ∧
      (a.st = .start → s ≠ [] ∧ ∀ c, s.head? = some c → isSpace c = false) := by
  -- what follows a lost character
  have hlost : ∀ (s : List Byte) {i : ℕ} {a : Auto} {T : List Out}, Spoiled S i a T.length →
      S.drop i = s.map .ch ++ .arg :: emitArgs l →
      Completes sep S a T (s ++ tailText q l) → False := by
    intro s i a T h hS hc
    have hf : escapeIf false = fun c => [c] := rfl
    have hc' : Completes sep S a T
        (s.flatMap (escapeIf false) ++ ((if false then [34] else []) ++ tailText q l)) := by
      rw [hf]
      simpa using hc
    exact spoiled_string hq hline false s l h hS hc'
  induction s generalizing i a T with
  | nil =>
    refine ⟨by simp, ?_⟩
    intro hst
    exfalso
    rcases ha with rfl | rfl
    · cases l with
      | nil =>
        -- nothing is emitted for an empty string
        have hout := congrArg List.length hc.out
        have hlen := congrArg List.length hS
        simp [tailText, Auto.run, Auto.close, emitArgs] at hout hlen
        omega
      | cons t l =>
        have hc1 := Completes.cons hc
        have hstep : Auto.step sep ⟨.start, false⟩ 32 = (⟨.start, false⟩, []) := rfl
        rw [hstep, List.append_nil] at hc1
        have hS1 := drop_succ hS
        rw [joinEscaped_cons] at hc1
        rw [emitArgs_cons] at hS1
        have h1 : Spoiled S (i + 1) ⟨.start, false⟩ T.length := by
          show T.length < i + 1
          omega
        obtain ⟨i', a', T', h', hS', hc'⟩ := spoiled_escape hq hline t h1 hS1 hc1
        exact spoiled_tail hq hline l h' hS' hc'
    · cases hst
  | cons c s ih =>
    rw [List.map_cons, List.cons_append] at hS
    have hS1 := drop_succ hS
    have hat := getElem?_of_drop hS
    rw [← hT] at hat
    have hc1 := Completes.cons hc
    obtain ⟨hne10, hne9, hne32, hne39, hne34⟩ := hchars c List.mem_cons_self
    rw [List.mem_cons, not_or] at hnul
    by_cases hsp : a.st = .start ∧ isSpace c = true
    · -- white space in front of the string is skipped
      exfalso
      have hstep : a.step sep c = (⟨.start, false⟩, []) := by
        rcases ha with rfl | rfl
        · simp [Auto.step, hsp.2, Auto.close]
        · cases hsp.1
      rw [hstep, List.append_nil] at hc1
      refine hlost s (i := i + 1) ?_ hS1 hc1
      show T.length < i + 1
      omega
    · have hsp' : a.st = .start → isSpace c = false := by
        intro hst
        by_contra hn
        exact hsp ⟨hst, by simpa using hn⟩
      cases hp : isPlain ⟨sep, false⟩ c with
      | true =>
        rw [step_plain ha hp hsp'] at hc1
        have hih := (ih (fun d hd => hchars d (List.mem_cons_of_mem _ hd)) hnul.2 (Or.inr rfl)
          (i := i + 1) (by simp [hT]) hS1 hc1).1
        refine ⟨?_, ?_⟩
        · intro d hd
          rcases List.mem_cons.mp hd with rfl | hd
          · exact hp
          · exact hih d hd
        · intro hst
          refine ⟨List.cons_ne_nil _ _, ?_⟩
          intro d hd
          cases hd
          exact hsp' hst
      | false =>
        exfalso
        have hword : a.step sep c = wordStep sep a c := by
          rcases ha with rfl | rfl
          · rw [Auto.step]
            simp [hsp' rfl]
          · rfl
        rw [hword, wordStep, if_neg hne39, if_neg hne34] at hc1
        split_ifs at hc1 with h92 hsep hws
        · -- a backslash takes the next character with it
          rw [List.append_nil] at hc1
          cases s with
          | nil =>
            cases l with
            | nil => exact absurd hc1.quote (by simp [tailText, Auto.run, AState.quote])
            | cons t l =>
              have hc2 := Completes.cons (c := 32) hc1
              rw [getElem?_of_emitted hc2.isPrefix, h92] at hat
              cases hat
          | cons d s =>
            have hd10 := (hchars d (by simp)).1
            have hc2 := Completes.cons hc1
            have hstep : Auto.step sep ⟨.backslash, true⟩ d = (⟨.start, true⟩, [.ch d]) := by
              simp [Auto.step, hd10]
            rw [hstep] at hc2
            rw [List.map_cons, List.cons_append] at hS1
            refine hlost s (i := i + 1 + 1) ?_ (drop_succ hS1) hc2
            show (T ++ [Out.ch d]).length < i + 1 + 1
            simp [hT]
        · refine hline (hc1.isPrefix.subset ?_)
          simp
        · -- only white space behind a character is left
          have hopen : a.close = [.arg] := by
            rcases ha with rfl | rfl
            · have : isSpace c = true := by
                rcases hws with rfl | rfl | rfl | rfl <;> rfl
              rw [hsp' rfl] at this
              cases this
            · rfl
          rw [hopen] at hc1
          rw [getElem?_of_emitted hc1.isPrefix] at hat
          cases hat
        · rw [isPlain] at hp
          simp only [Bool.not_eq_false', Bool.or_eq_true, beq_iff_eq] at hp
          rcases hp with (((((((h | h) | h) | h) | h) | h) | h) | h) | h
          · exact hws (Or.inl h)
          · exact hws (Or.inr (Or.inl h))
          · exact hws (Or.inr (Or.inr (Or.inl h)))
          · exact hws (Or.inr (Or.inr (Or.inr h)))
          · exact hne39 h
          · exact hne34 h
          · exact h92 h
          · exact hsep ⟨fun h0 => hnul.1 (h.trans h0).symm, h⟩
          · exact hnul.1 h.symm

/-! ## Lists of strings -/

lemma quotable_single (s : List Byte) : Quotable sep 39 s := by
  rw [Quotable, if_pos]
  · trivial
  · simp [escapeRef]

lemma joinable_single (l : List (List Byte)) : Joinable sep 39 l := by
  induction l with
  | nil => trivial
  | cons s l ih =>
    cases l with
    | nil => exact quotable_single s
    | cons t l => exact ⟨quotable_single s, fun _ => Or.inr (by simp [escapeRef]), ih⟩

lemma quotable_of_completes (hq : q ≠ 39) (hline : Out.line ∉ S) {l : List (List Byte)}
    (hnul : (0 : Byte) ∉ s) (hT : T.length = i) (hS : S.drop i = s.map .ch ++ .arg :: emitArgs l)
    (hc : Completes sep S ⟨.start, false⟩ T (argpEscape q s ++ tailText q l)) :
    Quotable sep q s := by
  have hne : escapeRef q s ≠ 39 := by
    rw [escapeRef]
    split_ifs
    · decide
    · exact hq
    · exact hq
  rw [Quotable, if_neg hne]
  by_cases h : Quoted q s
  · rw [if_pos (h.resolve_right hne)]
    rw [argpEscape_eq hq, decide_eq_true h, if_pos h, List.append_assoc, List.append_assoc] at hc
    have hc1 := Completes.cons hc
    have hstep : Auto.step sep ⟨.start, false⟩ 34 = (⟨.double, true⟩, []) := rfl
    rw [hstep, List.append_nil] at hc1
    exact not_mem_of_completes hq hline s l hT hS hc1
  · rw [argpEscape_of_not_quoted h] at hc
    obtain ⟨h1, h2⟩ := plain_of_completes hq hline s l (not_needsQuote h) hnul (Or.inl rfl) hT hS hc
    rw [Quoted, not_or] at h
    rw [if_neg h.1]
    exact ⟨(h2 rfl).1, h1, (h2 rfl).2⟩

/-- Strings that come back survive quoting and joining. -/
lemma joinable_of_completes (hq : q ≠ 39) (hline : Out.line ∉ S) (l : List (List Byte))
    (hnul : ∀ s ∈ l, (0 : Byte) ∉ s) (hT : T.length = i) (hS : S.drop i = emitArgs l)
    (hc : Completes sep S ⟨.start, false⟩ T (joinEscaped q l)) : Joinable sep q l := by
  induction l generalizing i T with
  | nil => trivial
  | cons s l ih =>
    rw [joinEscaped_cons] at hc
    rw [emitArgs_cons] at hS
    have hgood := quotable_of_completes hq hline (hnul s List.mem_cons_self) hT hS hc
    cases l with
    | nil => exact hgood
    | cons t l =>
      have hc1 := hc.append
      rw [run_escape hgood] at hc1
      have hS1 : S.drop (i + s.length) = .arg :: emitArgs (t :: l) := by
        rw [← List.drop_drop, hS]
        simp
      have hsp : sep = 32 → Quoted q s := by
        intro hsep
        by_contra hn
        rw [if_neg hn] at hc1
        have hc2 := Completes.cons hc1
        have hstep : Auto.step sep ⟨.word, true⟩ 32 = (⟨.start, false⟩, [.arg, .line]) := by
          subst hsep
          rfl
        rw [hstep] at hc2
        exact hline (hc2.isPrefix.subset (by simp))
      have hc2 := Completes.cons hc1
      rw [step_space hsp] at hc2
      refine ⟨hgood, hsp, ih (fun u hu => hnul u (List.mem_cons_of_mem _ hu))
        (i := i + s.length + 1) ?_ (drop_succ hS1) hc2⟩
      simp [hT, Nat.add_assoc]

lemma nul_not_mem_argpEscape (hs : (0 : Byte) ∉ s) : (0 : Byte) ∉ argpEscape q s := by
  by_cases hquoted : Quoted q s
  · have href : (0 : Byte) ≠ escapeRef q s := by
      rcases hquoted with h | h
      · rw [h]
        decide
      · rw [h]
        decide
    have hchar : ∀ c ∈ s, (0 : Byte) ∉ escapeChar (escapeRef q s) c := by
      intro c hc
      rw [escapeChar]
      split_ifs
      · decide
      · decide
      · rw [List.mem_singleton]
        rintro rfl
        exact hs hc
    rw [argpEscape_of_quoted hquoted]
    simp only [List.mem_cons, List.mem_append, List.mem_flatMap, List.not_mem_nil, or_false,
      not_or, not_exists, not_and]
    exact ⟨href, hchar, href⟩
  · rw [argpEscape_of_not_quoted hquoted]
    exact hs

lemma nul_not_mem_joinEscaped {l : List (List Byte)} (h : ∀ s ∈ l, (0 : Byte) ∉ s) :
    (0 : Byte) ∉ joinEscaped q l := by
  induction l with
  | nil => simp [joinEscaped]
  | cons s l ih =>
    rw [joinEscaped_cons, List.mem_append, not_or]
    refine ⟨nul_not_mem_argpEscape (h s List.mem_cons_self), ?_⟩
    cases l with
    | nil => simp [tailText]
    | cons t l =>
      have := ih fun u hu => h u (List.mem_cons_of_mem _ hu)
      simpa [tailText] using this

/-- A list of strings comes back from quoting, joining and parsing exactly if it survives. -/
theorem args_round_trip_iff (sep q : Byte) (l : List (List Byte)) (hnul : ∀ s ∈ l, (0 : Byte) ∉ s) :
    argpParse sep (joinEscaped q l) = (oneLine sep l, none) ↔ Joinable sep q l := by
  rw [argpParse_eq_iff (nul_not_mem_joinEscaped hnul)]
  constructor
  · rintro ⟨h1, h2⟩
    by_cases hq : q = 39
    · subst hq
      exact joinable_single l
    · exact joinable_of_completes hq (line_not_mem_emitArgs l) l hnul (T := []) rfl rfl ⟨h1, h2⟩
  · exact run_joinEscaped

/-- Two strings of which one needs quotes. -/
theorem args_round_trip_two :
    argpParse 59 (joinEscaped 0 [[97, 32, 98], [99]]) =
      (oneLine 59 [[97, 32, 98], [99]], none) := by
  refine (args_round_trip_iff 59 0 [[97, 32, 98], [99]] (by decide)).mpr ⟨?_, by decide, ?_⟩
  · rw [Quotable, if_neg (by decide), if_pos (by decide)]
    decide
  · rw [Joinable, Quotable, if_neg (by decide), if_neg (by decide)]
    refine ⟨by decide, ?_, ?_⟩
    · intro c hc
      rw [List.mem_singleton.mp hc]
      rfl
    · intro c hc
      cases hc
      rfl

/-- The string `a\ b` is put in double quotes and loses its backslash; the empty string is lost
without quotes; a backslash at the end takes the space or the quote behind it; and the separator is
not quoted. -/
theorem args_round_trip_lost :
    argpParse 0 (joinEscaped 0 [[97, 92, 32, 98]]) ≠ (oneLine 0 [[97, 92, 32, 98]], none) ∧
    argpParse 0 (joinEscaped 0 [[97, 92, 32, 98]]) = (.flat [[97, 32, 98]], none) ∧
    argpParse 0 (joinEscaped 0 [[]]) = (.flat [], none) ∧
    argpParse 0 (joinEscaped 0 [[97, 92], [98]]) = (.flat [[97, 32, 98]], none) ∧
    argpParse 0 (joinEscaped 34 [[97, 92]]) = (.flat [[97, 34]], some [34]) ∧
    argpParse 59 (joinEscaped 0 [[97, 59, 98]]) = (.lines [[[97]], [[98]]], none) := by
  decide

end Uline
