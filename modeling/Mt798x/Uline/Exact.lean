import Mt798x.Uline.Spans

/-!
# Which places are exact

A separator that ends no argument is noted as the start of the next one, and a quote or backslash
that is alone at the end of the string is an argument without a character.  Apart from these two
the places are exact (`spansExact_iff`): the characters of an argument's place are read to that
argument alone, and only white space and separators stand between the places.
-/

namespace Uline

open Bytes

/-! ## What a character does -/

/-- What a character does in a state: the next state and what is emitted. -/
inductive Auto.Kind (sep : Byte) (a : Auto) (c : Byte) : Auto → List Out → Prop
  /-- it belongs to an argument -/
  | char (q : AState) : (a.st = .start → isSpace c = false) → Kind sep a c ⟨q, true⟩ [.ch c]
  /-- it stands for nothing inside of quotes or behind a backslash -/
  | quoted (q : AState) : a.st ≠ .start ∧ a.st ≠ .word → Kind sep a c ⟨q, true⟩ []
  | enter (q : QState) : a.st = .start ∨ a.st = .word → c = 39 ∨ c = 34 ∨ c = 92 →
      q ≠ .unquoted → Kind sep a c ⟨q.auto, true⟩ []
  | space {out : List Out} : a.st = .start ∨ a.st = .word → isSpace c = true → out = a.close →
      Kind sep a c ⟨.start, false⟩ out
  | line {out : List Out} : a.st = .start ∨ a.st = .word → sep ≠ 0 ∧ c = sep →
      c ≠ 39 ∧ c ≠ 34 ∧ c ≠ 92 → (a.st = .start → isSpace c = false) → out = a.close ++ [.line] →
      Kind sep a c ⟨.start, false⟩ out

section Kinds

variable {sep : Byte}

lemma wordStep_kind {a : Auto} {c : Byte} (hst : a.st = .start ∨ a.st = .word)
    (hsp : a.st = .start → isSpace c = false) :
    a.Kind sep c (wordStep sep a c).1 (wordStep sep a c).2 := by
  rw [wordStep]
  split_ifs with h39 h34 h92 hsep hws
  · exact .enter .singleQuote hst (.inl h39) (by decide)
  · exact .enter .doubleQuote hst (.inr (.inl h34)) (by decide)
  · exact .enter .backslash hst (.inr (.inr h92)) (by decide)
  · exact .line hst hsep ⟨h39, h34, h92⟩ hsp rfl
  · refine .space hst ?_ rfl
    rcases hws with rfl | rfl | rfl | rfl <;> rfl
  · exact .char .word hsp

variable (sep) in
lemma Auto.step_kind (a : Auto) (c : Byte) : a.Kind sep c (a.step sep c).1 (a.step sep c).2 := by
  cases hst : a.st with
  | start =>
    rw [Auto.step, hst]
    dsimp only
    split
    · rename_i hsp
      exact .space (.inl hst) hsp rfl
    · rename_i hsp
      exact wordStep_kind (.inl hst) fun _ => by simpa using hsp
  | word =>
    rw [Auto.step, hst]
    exact wordStep_kind (.inr hst) fun h => by cases hst.symm.trans h
  | backslash =>
    rw [Auto.step, hst]
    dsimp only
    split
    · exact .quoted .start (by simp [hst])
    · exact .char .start (by simp [hst])
  | doubleBackslash =>
    rw [Auto.step, hst]
    dsimp only
    split
    · exact .quoted .double (by simp [hst])
    · exact .char .double (by simp [hst])
  | single =>
    rw [Auto.step, hst]
    dsimp only
    split
    · exact .quoted .start (by simp [hst])
    · exact .char .single (by simp [hst])
  | double =>
    rw [Auto.step, hst]
    dsimp only
    split_ifs
    · exact .quoted .start (by simp [hst])
    · exact .quoted .doubleBackslash (by simp [hst])
    · exact .char .double (by simp [hst])

/-- What a character does to a reader: the next reader and what it reports. -/
inductive Reader.Kind (sep : Byte) (r : Reader) (c : Byte) : Reader → List Piece → Prop
  | char (q : AState) : r.auto.step sep c = (⟨q, true⟩, [.ch c]) →
      Kind sep r c ⟨⟨q, true⟩, r.word ++ [c], r.mark, r.idx + 1, r.idx + 1⟩ []
  | quoted (q : AState) : r.auto.step sep c = (⟨q, true⟩, []) → r.auto.st ≠ .start →
      Kind sep r c ⟨⟨q, true⟩, r.word, r.mark, r.idx + 1, r.idx + 1⟩ []
  | enter (q : QState) : r.auto.step sep c = (⟨q.auto, true⟩, []) → c = 39 ∨ c = 34 ∨ c = 92 →
      q ≠ .unquoted → Kind sep r c ⟨⟨q.auto, true⟩, r.word, r.mark, r.idx, r.idx + 1⟩ []
  /-- white space behind a run -/
  | behind : r.auto.step sep c = (⟨.start, false⟩, [.arg]) → r.auto.isOpen = true →
      r.auto.st = .word → isSpace c = true →
      Kind sep r c ⟨⟨.start, false⟩, [], -1, r.idx, r.idx + 1⟩ [.arg r.word r.mark r.idx]
  /-- white space behind a quote -/
  | ends : r.auto.step sep c = (⟨.start, false⟩, [.arg]) → r.auto.isOpen = true →
      r.auto.st = .start → isSpace c = true →
      Kind sep r c ⟨⟨.start, false⟩, [], -1, r.last, r.idx + 1⟩ [.arg r.word r.start r.last]
  | blank : r.auto.step sep c = (⟨.start, false⟩, []) → r.auto.isOpen = false →
      isSpace c = true → Kind sep r c { r with auto := ⟨.start, false⟩, idx := r.idx + 1 } []
  | line : r.auto.step sep c = (⟨.start, false⟩, [.arg, .line]) → r.auto.isOpen = true →
      r.auto.st = .start ∨ r.auto.st = .word → sep ≠ 0 ∧ c = sep →
      Kind sep r c ⟨⟨.start, false⟩, [], -1, r.idx, r.idx + 1⟩ [.arg r.word r.mark r.idx, .line]
  /-- a separator that ends no argument -/
  | idle : r.auto.step sep c = (⟨.start, false⟩, [.line]) → r.auto.isOpen = false →
      sep ≠ 0 ∧ c = sep → c ≠ 39 ∧ c ≠ 34 ∧ c ≠ 92 →
      Kind sep r c ⟨⟨.start, false⟩, r.word, r.mark, r.idx, r.idx + 1⟩ [.line]

/-- A reader without an argument is between arguments, and has no characters of one. -/
def Reader.Sound (r : Reader) : Prop := r.auto.isOpen = false → r.auto.st = .start ∧ r.word = []

lemma Reader.Sound.auto {r : Reader} (h : r.Sound) (ho : r.auto.isOpen = false) :
    r.auto = ⟨.start, false⟩ := by
  show (⟨r.auto.st, r.auto.isOpen⟩ : Auto) = _
  rw [(h ho).1, ho]

variable (sep) in
lemma Reader.step_kind {r : Reader} (h : r.Sound) (c : Byte) :
    r.Kind sep c (r.step sep c).1 (r.step sep c).2 := by
  have hk := r.auto.step_kind sep c
  generalize hstep : r.auto.step sep c = x at hk
  obtain ⟨a, out⟩ := x
  have hskips : (r.auto.st = .start → isSpace c = false) → r.skips c = false := by
    intro hsp
    by_cases hst : r.auto.st = .start
    · simp [skips, hsp hst]
    · simp [skips, hst]
  cases hk with
  | char q hsp =>
    rw [step_ch (hskips hsp) hstep]
    exact .char q hstep
  | quoted q hq =>
    rw [step_quoted hq hstep]
    exact .quoted q hstep hq.1
  | enter q hst hc hq =>
    have hsp : r.skips c = false := hskips fun _ => by rcases hc with rfl | rfl | rfl <;> rfl
    rw [step_enter hsp hst hstep]
    exact .enter q hstep hc hq
  | space hst hsp hout =>
    obtain rfl : out = r.auto.close := hout
    have hstep' := hstep
    rw [Auto.close] at hstep
    by_cases hskip : r.auto.st = .start
    · rw [step_skip (by simp [skips, hskip, hsp])]
      split
      · rename_i ho
        rw [if_pos ho] at hstep
        exact .ends hstep ho hskip hsp
      · rename_i ho
        rw [if_neg ho] at hstep
        exact .blank hstep (by simpa using ho) hsp
    · have hword : r.auto.st = .word := hst.resolve_left hskip
      have ho : r.auto.isOpen = true := by
        by_contra ho
        exact hskip (h (by simpa using ho)).1
      rw [step_space hword ho hstep']
      rw [if_pos ho] at hstep
      exact .behind hstep ho hword hsp
  | line hst hsep hc hsp hout =>
    obtain rfl : out = r.auto.close ++ [.line] := hout
    rw [step_line (hskips hsp) hst hstep]
    rw [Auto.close] at hstep
    split
    · rename_i ho
      rw [if_pos ho] at hstep
      exact .line hstep ho hst hsep
    · rename_i ho
      rw [if_neg ho] at hstep
      exact .idle hstep (by simpa using ho) hsep hc

lemma Reader.Kind.sound {r r' : Reader} {c : Byte} {out : List Piece} (h : r.Sound)
    (hk : r.Kind sep c r' out) : r'.Sound := by
  cases hk with
  | char => exact nofun
  | quoted => exact nofun
  | enter => exact nofun
  | behind => exact fun _ => ⟨rfl, rfl⟩
  | ends => exact fun _ => ⟨rfl, rfl⟩
  | blank _ ho => exact fun _ => ⟨rfl, (h ho).2⟩
  | line => exact fun _ => ⟨rfl, rfl⟩
  | idle _ ho => exact fun _ => ⟨rfl, (h ho).2⟩

/-- A piece as a stream. -/
def Piece.emit : Piece → List Out
  | .arg w _ _ => w.map .ch ++ [.arg]
  | .line => [.line]

lemma Reader.Kind.emit {r r' : Reader} {c : Byte} {out : List Piece} (h : r.Sound)
    (hk : r.Kind sep c r' out) :
    out.flatMap Piece.emit ++ r'.word.map .ch = r.word.map .ch ++ (r.auto.step sep c).2 := by
  cases hk with
  | char q hstep => simp [hstep]
  | quoted q hstep => simp [hstep]
  | enter q hstep => simp [hstep]
  | behind hstep => simp [hstep, Piece.emit]
  | ends hstep => simp [hstep, Piece.emit]
  | blank hstep => simp [hstep]
  | line hstep => simp [hstep, Piece.emit]
  | idle hstep ho => simp [hstep, Piece.emit, (h ho).2]

variable (sep) in
lemma emit_pieces {r : Reader} (hr : r.Sound) (str : List Byte) :
    (r.pieces sep str).flatMap Piece.emit =
      r.word.map .ch ++ (r.auto.run sep str).2 ++ (r.auto.run sep str).1.close := by
  induction str generalizing r with
  | nil =>
    show r.finish.flatMap Piece.emit = r.word.map .ch ++ [] ++ r.auto.close
    rw [Reader.finish, Auto.close]
    cases ho : r.auto.isOpen with
    | true => simp [Piece.emit]
    | false => simp [(hr ho).2]
  | cons c str ih =>
    have hk := r.step_kind sep hr c
    have hemit := hk.emit hr
    rw [Reader.pieces_cons, List.flatMap_append, ih (hk.sound hr), Auto.run_cons, Reader.auto_step,
      ← List.append_assoc, ← List.append_assoc, hemit]
    simp only [List.append_assoc]

end Kinds

/-! ## The lists of the parser from the pieces -/

section Lists

variable {sep : Byte}

/-- An argument and its place. -/
def Piece.placed : Piece → Option (List Byte × ℤ × ℤ)
  | .arg w b e => some (w, b, e)
  | .line => none

/-- Lists of arguments with their places as pieces. -/
def group (up : List (List (List Byte × ℤ × ℤ))) (l : List (List Byte × ℤ × ℤ)) : List Piece :=
  Tokens.streamed (List.map fun x => Piece.arg x.1 x.2.1 x.2.2) .line up l

lemma exists_group (ps : List Piece) : ∃ up l, ps = group up l := by
  induction ps with
  | nil => exact ⟨[], [], rfl⟩
  | cons p ps ih =>
    obtain ⟨up, l, rfl⟩ := ih
    cases p with
    | line => exact ⟨[] :: up, l, rfl⟩
    | arg w b e =>
      cases up with
      | nil => exact ⟨[], (w, b, e) :: l, rfl⟩
      | cons k up => exact ⟨((w, b, e) :: k) :: up, l, rfl⟩

lemma placed_group (up : List (List (List Byte × ℤ × ℤ))) (l : List (List Byte × ℤ × ℤ)) :
    (group up l).filterMap Piece.placed = up.flatten ++ l := by
  have hmap : ∀ k : List (List Byte × ℤ × ℤ),
      (k.map fun x => Piece.arg x.1 x.2.1 x.2.2).filterMap Piece.placed = k := by
    intro k
    simp [List.filterMap_map, Function.comp_def, Piece.placed]
  induction up with
  | nil => exact hmap l
  | cons k up ih =>
    have hcons : group (k :: up) l =
        (k.map fun x => Piece.arg x.1 x.2.1 x.2.2) ++ .line :: group up l := by
      simp [group, Tokens.streamed]
    rw [hcons, List.filterMap_append, hmap, List.filterMap_cons_none rfl, ih]
    simp

lemma scanAll_group {str : List Byte} (hnul : (0 : Byte) ∉ str)
    {up : List (List (List Byte × ℤ × ℤ))} {l : List (List Byte × ℤ × ℤ)}
    (h : Reader.pieces sep {} str = group up l) :
    (scanAll ⟨sep, false⟩ str).lines = up.map (·.map Prod.fst) ∧
      (scanAll ⟨sep, false⟩ str).list = l.map Prod.fst ∧
      (scanAll ⟨sep, false⟩ str).posLines = up.map (·.map Prod.snd) ∧
      (scanAll ⟨sep, false⟩ str).posList = l.map Prod.snd := by
  have hemit := emitLines_scanAll sep hnul
  have hplaces := places_scanAll sep hnul
  have hpieces := emit_pieces sep (r := {}) (fun _ => ⟨rfl, rfl⟩) str
  rw [h] at hpieces hplaces
  have h1 : (group up l).flatMap Piece.emit =
      emitLines (up.map (·.map Prod.fst)) (l.map Prod.fst) := by
    simp [group, emitLines, Tokens.streamed, List.flatMap_append, List.flatMap_assoc,
      List.flatMap_map, emitArgs, Piece.emit]
  have h2 : (group up l).map Piece.place =
      placeLines (up.map (·.map Prod.snd)) (l.map Prod.snd) := by
    simp [group, placeLines, Tokens.streamed, List.map_flatMap, List.flatMap_map, Piece.place,
      Function.comp_def]
  obtain ⟨hlines, hlist⟩ := emitLines_injective (hemit.trans (hpieces.symm.trans h1))
  obtain ⟨hposLines, hposList⟩ := placeLines_injective (hplaces.trans h2)
  exact ⟨hlines, hlist, hposLines, hposList⟩

end Lists

/-! ## Exact places -/

/-- The characters of a string from `b` up to `e`. -/
def slice (str : List Byte) (b e : ℤ) : List Byte := (str.take e.toNat).drop b.toNat

lemma slice_append (x w y : List Byte) :
    slice (x ++ w ++ y) x.length (x.length + w.length) = w := by
  have hlen : ((x.length : ℤ) + w.length).toNat = (x ++ w).length := by
    rw [List.length_append]
    omega
  rw [slice, hlen, List.take_left' rfl, Int.toNat_natCast, List.drop_left' rfl]

/-- White space or the separator. -/
def Blank (sep c : Byte) : Prop := isSpace c = true ∨ c = sep

/-- The characters of this place are read to this argument alone. -/
def ExactAt (sep : Byte) (str w : List Byte) (b e : ℤ) : Prop :=
  ∃ x v y, str = x ++ v ++ y ∧ b = x.length ∧ e = x.length + v.length ∧ v ≠ [] ∧
    (Auto.run sep ⟨.start, false⟩ v).1.isOpen = true ∧
      (Auto.run sep ⟨.start, false⟩ v).2 = w.map .ch

/-- The places of these pieces follow each other from `e` on, with nothing but white space and
separators between them, and are exact. -/
def Laid (sep : Byte) (str : List Byte) : ℤ → List Piece → Prop
  | _, [] => True
  | e, .line :: ps => Laid sep str e ps
  | e, .arg w b l :: ps =>
    (e ≤ b ∧ ∀ c ∈ slice str e b, Blank sep c) ∧ ExactAt sep str w b l ∧ Laid sep str l ps

/-- The separators that end no argument stand behind all arguments, and no quote or backslash
starts an argument at the end of the string. -/
structure Clear (sep : Byte) (str : List Byte) : Prop where
  idle : ∀ s c t, str = s ++ c :: t → (Auto.run sep ⟨.start, false⟩ s).1 = ⟨.start, false⟩ →
    Auto.step sep ⟨.start, false⟩ c = (⟨.start, false⟩, [.line]) → ∀ d ∈ t, Blank sep d
  lone : ∀ s c, str = s ++ [c] → (Auto.run sep ⟨.start, false⟩ s).1 = ⟨.start, false⟩ →
    c ≠ 39 ∧ c ≠ 34 ∧ c ≠ 92

section Reading

variable {sep : Byte} {e : ℤ} {done str rest p g w : List Byte} {r r' : Reader} {c : Byte}
  {out : List Piece}

/-- Where the reader stands behind `done`: an argument ended behind `p`, then `g` was passed over,
and `w` belongs to the next argument. -/
structure Reads (sep : Byte) (e : ℤ) (done : List Byte) (r : Reader) (p g w : List Byte) :
    Prop where
  split : done = p ++ g ++ w
  bound : e = p.length
  blank : ∀ c ∈ g, Blank sep c
  idx : r.idx = done.length
  before : (Auto.run sep ⟨.start, false⟩ (p ++ g)).1 = ⟨.start, false⟩
  run : Auto.run sep ⟨.start, false⟩ w = (r.auto, r.word.map .ch)
  isOpen : r.auto.isOpen = !w.isEmpty
  start : r.start = if w = [] then -1 else ((p ++ g).length : ℤ)
  /-- between quotes the place behind the argument has been moved -/
  last : w ≠ [] → r.auto.st = .start ∨ r.auto.st = .word → r.last = r.idx
  /-- a quote or backslash outside of quotes has not moved it -/
  entered : w ≠ [] → r.last ≠ r.idx → ∃ v d, w = v ++ [d] ∧ r.last + 1 = r.idx ∧
    (d = 39 ∨ d = 34 ∨ d = 92) ∧ (Auto.run sep ⟨.start, false⟩ v).1.isOpen = !v.isEmpty ∧
      (Auto.run sep ⟨.start, false⟩ v).2 = r.word.map .ch

namespace Reads

lemma sound (h : Reads sep e done r p g w) : r.Sound := by
  intro ho
  have hw : w = [] := by
    have := h.isOpen
    rw [ho] at this
    simpa using this.symm
  have hrun := h.run
  rw [hw] at hrun
  have hauto : (⟨.start, false⟩ : Auto) = r.auto := congrArg Prod.fst hrun
  have hword : [] = r.word.map Out.ch := congrArg Prod.snd hrun
  exact ⟨by rw [← hauto], by simpa using hword.symm⟩

lemma auto_eq (h : Reads sep e done r p g w) :
    (Auto.run sep ⟨.start, false⟩ done).1 = r.auto := by
  rw [h.split, Auto.run_append, h.before, h.run]

lemma mark_eq (h : Reads sep e done r p g w) : r.mark = (p ++ g).length := by
  have hstart := h.start
  by_cases hw : w = []
  · rw [if_pos hw] at hstart
    rw [Reader.mark, hstart, if_pos (by decide), h.idx, h.split, hw, List.append_nil]
  · rw [if_neg hw] at hstart
    rw [Reader.mark_of_nonneg (by omega), hstart]

lemma grow (h : Reads sep e done r p g w) {a : Auto} {t : List Byte}
    (hstep : r.auto.step sep c = (a, t.map .ch)) (ha : a.isOpen = true) {l : ℤ}
    (hl : l = r.idx + 1 ∨ l = r.idx ∧ t = [] ∧ (c = 39 ∨ c = 34 ∨ c = 92) ∧
      ¬(a.st = .start ∨ a.st = .word)) :
    Reads sep e (done ++ [c]) ⟨a, r.word ++ t, r.mark, l, r.idx + 1⟩ p g (w ++ [c]) := by
  refine ⟨?_, h.bound, h.blank, ?_, h.before, ?_, ?_, ?_, ?_, ?_⟩
  · rw [h.split]
    simp
  · simp [h.idx]
  · rw [Auto.run_append, h.run]
    simp [Auto.run, hstep]
  · simp [ha]
  · simp only [List.append_eq_nil_iff, List.cons_ne_nil, and_false, if_false]
    exact h.mark_eq
  · intro _ hst
    rcases hl with hl | ⟨-, -, -, hl⟩
    · exact hl
    · exact absurd hst hl
  · intro _ hne
    rcases hl with hl | ⟨hl, ht, hc, -⟩
    · exact absurd hl hne
    · refine ⟨w, c, rfl, ?_, hc, ?_, ?_⟩
      · show l + 1 = r.idx + 1
        rw [hl]
      · rw [h.run]
        exact h.isOpen
      · rw [h.run, ht, List.append_nil]

lemma close (h : Reads sep e done r p g w) (hc : Blank sep c)
    (hstep : (r.auto.step sep c).1 = ⟨.start, false⟩) {l : ℤ} (hl : l = r.idx) :
    Reads sep l (done ++ [c]) ⟨⟨.start, false⟩, [], -1, l, r.idx + 1⟩ done [c] [] := by
  refine ⟨by simp, hl.trans h.idx, ?_, ?_, ?_, rfl, rfl, rfl, fun hne => absurd rfl hne,
    fun hne => absurd rfl hne⟩
  · intro d hd
    rw [List.mem_singleton.mp hd]
    exact hc
  · simp [h.idx]
  · rw [Auto.run_append, h.auto_eq]
    exact hstep

lemma exactAt (h : Reads sep e done r p g w) (ho : r.auto.isOpen = true)
    (hst : r.last = r.idx) (rest : List Byte) :
    ExactAt sep (done ++ rest) r.word r.mark r.last := by
  have hw : w ≠ [] := by
    rintro rfl
    rw [h.isOpen] at ho
    cases ho
  refine ⟨p ++ g, w, rest, by rw [h.split], h.mark_eq, ?_, hw, ?_, ?_⟩
  · rw [hst, h.idx, h.split, List.length_append]
    push_cast
    ring
  · rw [h.run]
    exact ho
  · rw [h.run]

lemma nil_of_closed (h : Reads sep e done r p g w) (ho : r.auto.isOpen = false) : w = [] := by
  have hw := h.isOpen
  rw [ho] at hw
  simpa using hw.symm

lemma ne_nil_of_open (h : Reads sep e done r p g w) (ho : r.auto.isOpen = true) : w ≠ [] := by
  rintro rfl
  rw [h.isOpen] at ho
  cases ho

lemma start_eq (h : Reads sep e done r p g w) (ho : r.auto.isOpen = true) : r.start = r.mark := by
  rw [h.mark_eq, h.start, if_neg (h.ne_nil_of_open ho)]

lemma wide (h : Reads sep e done r p g w) (ho : r.auto.isOpen = false) (hc : Blank sep c)
    (hstep : (r.auto.step sep c).1 = ⟨.start, false⟩) :
    Reads sep e (done ++ [c]) { r with auto := ⟨.start, false⟩, idx := r.idx + 1 } p (g ++ [c])
      [] := by
  obtain rfl := h.nil_of_closed ho
  have hdone := h.split
  rw [List.append_nil] at hdone
  refine ⟨?_, h.bound, ?_, ?_, ?_, ?_, rfl, h.start, fun hne => absurd rfl hne,
    fun hne => absurd rfl hne⟩
  · rw [hdone]
    simp
  · intro d hd
    rcases List.mem_append.mp hd with hd | hd
    · exact h.blank d hd
    · rw [List.mem_singleton.mp hd]
      exact hc
  · simp [h.idx]
  · rw [← List.append_assoc, ← hdone, Auto.run_append, h.auto_eq]
    exact hstep
  · rw [(h.sound ho).2]
    rfl

lemma gap (h : Reads sep e done r p g w) (rest : List Byte) :
    e ≤ r.mark ∧ ∀ c ∈ slice (done ++ rest) e r.mark, Blank sep c := by
  have hsplit : done ++ rest = p ++ g ++ (w ++ rest) := by rw [h.split, List.append_assoc]
  have hmark : r.mark = p.length + g.length := by
    rw [h.mark_eq, List.length_append]
    push_cast
    rfl
  refine ⟨?_, ?_⟩
  · rw [hmark, h.bound]
    omega
  · rw [hmark, h.bound, hsplit, slice_append]
    exact h.blank

end Reads

/-- Behind a separator that ended no argument nothing but ends of lines is reported. -/
lemma laid_blank {str : List Byte} {e : ℤ} (hr : r.auto = ⟨.start, false⟩) (hword : r.word = [])
    (hsep : Auto.step sep ⟨.start, false⟩ sep = (⟨.start, false⟩, [.line]))
    (hrest : ∀ c ∈ rest, Blank sep c) : Laid sep str e (r.pieces sep rest) := by
  induction rest generalizing r with
  | nil =>
    show Laid sep str e r.finish
    rw [Reader.finish, hr]
    exact trivial
  | cons c rest ih =>
    have hsound : r.Sound := fun _ => ⟨by rw [hr], hword⟩
    have hauto : (r.auto.step sep c).1 = ⟨.start, false⟩ := by
      rw [hr]
      rcases hrest c List.mem_cons_self with hc | rfl
      · simp [Auto.step, hc]
      · rw [hsep]
    have hkind := r.step_kind sep hsound c
    have hih : (r.step sep c).1.word = [] → Laid sep str e ((r.step sep c).1.pieces sep rest) :=
      fun hw => ih hauto hw fun d hd => hrest d (List.mem_cons_of_mem _ hd)
    rw [Reader.pieces_cons]
    generalize r.step sep c = x at hkind hih
    obtain ⟨r', out⟩ := x
    cases hkind with
    | char q hstep => simp [hstep] at hauto
    | quoted q hstep => simp [hstep] at hauto
    | enter q hstep => simp [hstep] at hauto
    | behind _ ho => rw [hr] at ho; cases ho
    | ends _ ho => rw [hr] at ho; cases ho
    | blank => exact hih hword
    | line _ ho => rw [hr] at ho; cases ho
    | idle => exact hih hword

/-- The places of a clear string are exact. -/
lemma laid_pieces (hclear : Clear sep (done ++ rest)) (h : Reads sep e done r p g w) :
    Laid sep (done ++ rest) e (r.pieces sep rest) := by
  induction rest generalizing done r e p g w with
  | nil =>
    show Laid sep (done ++ []) e r.finish
    rw [Reader.finish]
    cases ho : r.auto.isOpen with
    | false => exact trivial
    | true =>
      refine ⟨h.start_eq ho ▸ h.gap [], ?_, trivial⟩
      rw [h.start_eq ho]
      by_cases hlast : r.last = r.idx
      · exact h.exactAt ho hlast []
      · obtain ⟨v, d, rfl, hnext, hd, hopen, hrun⟩ := h.entered (h.ne_nil_of_open ho) hlast
        have hv : v ≠ [] := by
          rintro rfl
          have hlone := hclear.lone (p ++ g) d (by rw [h.split]; simp) h.before
          rcases hd with hd | hd | hd
          · exact hlone.1 hd
          · exact hlone.2.1 hd
          · exact hlone.2.2 hd
        refine ⟨p ++ g, v, [d], by rw [h.split]; simp, h.mark_eq, ?_, hv, ?_, hrun⟩
        · have hidx := h.idx
          rw [h.split] at hidx
          simp only [List.length_append, List.length_cons, List.length_nil] at hidx ⊢
          push_cast at hidx ⊢
          omega
        · rw [hopen]
          simpa using hv
  | cons c rest ih =>
    have hassoc : done ++ c :: rest = done ++ [c] ++ rest := by simp
    have hkind := r.step_kind sep h.sound c
    have hclear' : Clear sep (done ++ [c] ++ rest) := hassoc ▸ hclear
    have hgap := h.gap (c :: rest)
    rw [Reader.pieces_cons]
    generalize r.step sep c = x at hkind
    obtain ⟨r', out⟩ := x
    cases hkind with
    | char q hstep =>
      rw [hassoc]
      exact ih hclear' (h.grow (t := [c]) hstep rfl (.inl rfl))
    | quoted q hstep =>
      rw [hassoc]
      have hgrow := h.grow (t := []) hstep rfl (.inl rfl)
      rw [List.append_nil] at hgrow
      exact ih hclear' hgrow
    | enter q hstep hc hq =>
      rw [hassoc]
      have hgrow := h.grow (t := []) hstep rfl (.inr ⟨rfl, rfl, hc, fun hst =>
        hst.elim (QState.auto_quoted hq).1 (QState.auto_quoted hq).2⟩)
      rw [List.append_nil] at hgrow
      exact ih hclear' hgrow
    | behind hstep ho hst hsp =>
      have hlast := h.last (h.ne_nil_of_open ho) (.inr hst)
      refine ⟨hgap, hlast ▸ h.exactAt ho hlast (c :: rest), ?_⟩
      rw [hassoc]
      exact ih hclear' (h.close (.inl hsp) (by rw [hstep]) rfl)
    | ends hstep ho hst hsp =>
      have hlast := h.last (h.ne_nil_of_open ho) (.inl hst)
      refine ⟨h.start_eq ho ▸ hgap, h.start_eq ho ▸ h.exactAt ho hlast (c :: rest), ?_⟩
      rw [hassoc]
      exact ih hclear' (h.close (.inl hsp) (by rw [hstep]) hlast)
    | blank hstep ho hsp =>
      rw [hassoc]
      exact ih hclear' (h.wide ho (.inl hsp) (by rw [hstep]))
    | line hstep ho hst hsep =>
      have hlast := h.last (h.ne_nil_of_open ho) hst
      refine ⟨hgap, hlast ▸ h.exactAt ho hlast (c :: rest), ?_⟩
      rw [hassoc]
      exact ih hclear' (h.close (.inr hsep.2) (by rw [hstep]) rfl)
    | idle hstep ho hsep =>
      have hst : r.auto = ⟨.start, false⟩ := by
        rw [← h.auto_eq, h.split, h.nil_of_closed ho, List.append_nil, h.before]
      rw [hst] at hstep
      have hblank := hclear.idle done c rest rfl (by rw [h.auto_eq, hst]) hstep
      rw [hsep.2] at hstep
      exact laid_blank rfl (h.sound ho).2 hstep hblank

/-- An open argument is reported at its start. -/
lemma start_mem_pieces (hr : r.Sound) (ho : r.auto.isOpen = true) (h0 : 0 ≤ r.start)
    (str : List Byte) : ∃ w l, Piece.arg w r.start l ∈ r.pieces sep str := by
  induction str generalizing r with
  | nil =>
    refine ⟨r.word, r.last, ?_⟩
    show _ ∈ r.finish
    rw [Reader.finish, if_pos ho]
    exact List.mem_singleton_self _
  | cons c str ih =>
    have hkind := r.step_kind sep hr c
    have hsound := hkind.sound hr
    have hmark : r.mark = r.start := Reader.mark_of_nonneg h0
    have hnext : (r.step sep c).1.auto.isOpen = true → (r.step sep c).1.start = r.start →
        ∃ w l, Piece.arg w r.start l ∈ r.pieces sep (c :: str) := by
      intro ho' hstart
      obtain ⟨w, l, hmem⟩ := ih hsound ho' (hstart ▸ h0)
      rw [hstart] at hmem
      exact ⟨w, l, by rw [Reader.pieces_cons]; exact List.mem_append_right _ hmem⟩
    have hnow : ∀ w l, Piece.arg w r.start l ∈ (r.step sep c).2 →
        ∃ w l, Piece.arg w r.start l ∈ r.pieces sep (c :: str) :=
      fun w l hmem => ⟨w, l, by rw [Reader.pieces_cons]; exact List.mem_append_left _ hmem⟩
    generalize r.step sep c = x at hkind hnext hnow
    obtain ⟨r', out⟩ := x
    cases hkind with
    | char q hstep => exact hnext rfl hmark
    | quoted q hstep => exact hnext rfl hmark
    | enter q hstep => exact hnext rfl hmark
    | behind => exact hnow r.word r.idx (by simp [hmark])
    | ends => exact hnow r.word r.last (by simp)
    | blank _ hclosed =>
      rw [ho] at hclosed
      cases hclosed
    | line => exact hnow r.word r.idx (by simp [hmark])
    | idle _ hclosed =>
      rw [ho] at hclosed
      cases hclosed

/-- A start that was noted too early is reported with the next argument. -/
lemma start_mem_of_closed (hr : r.Sound) (ho : r.auto.isOpen = false) (h0 : 0 ≤ r.start)
    {str : List Byte} (hstr : ∃ d ∈ str, ¬Blank sep d) :
    ∃ w l, Piece.arg w r.start l ∈ r.pieces sep str := by
  induction str generalizing r with
  | nil =>
    obtain ⟨d, hd, -⟩ := hstr
    cases hd
  | cons c str ih =>
    have hkind := r.step_kind sep hr c
    have hsound := hkind.sound hr
    have hmark : r.mark = r.start := Reader.mark_of_nonneg h0
    have hlater : ∀ w l, Piece.arg w r.start l ∈ (r.step sep c).1.pieces sep str →
        ∃ w l, Piece.arg w r.start l ∈ r.pieces sep (c :: str) :=
      fun w l hmem => ⟨w, l, by rw [Reader.pieces_cons]; exact List.mem_append_right _ hmem⟩
    have hopen : (r.step sep c).1.auto.isOpen = true → (r.step sep c).1.start = r.start →
        ∃ w l, Piece.arg w r.start l ∈ r.pieces sep (c :: str) := by
      intro ho' hstart
      obtain ⟨w, l, hmem⟩ := start_mem_pieces hsound ho' (hstart ▸ h0) str
      exact hlater w l (hstart ▸ hmem)
    have hclosed : Blank sep c → (r.step sep c).1.auto.isOpen = false →
        (r.step sep c).1.start = r.start →
        ∃ w l, Piece.arg w r.start l ∈ r.pieces sep (c :: str) := by
      intro hc ho' hstart
      obtain ⟨d, hd, hne⟩ := hstr
      rcases List.mem_cons.mp hd with rfl | hd
      · exact absurd hc hne
      · obtain ⟨w, l, hmem⟩ := ih hsound ho' (hstart ▸ h0) ⟨d, hd, hne⟩
        exact hlater w l (hstart ▸ hmem)
    generalize r.step sep c = x at hkind hopen hclosed
    obtain ⟨r', out⟩ := x
    cases hkind with
    | char q hstep => exact hopen rfl hmark
    | quoted q hstep => exact hopen rfl hmark
    | enter q hstep => exact hopen rfl hmark
    | behind _ h => rw [ho] at h; cases h
    | ends _ h => rw [ho] at h; cases h
    | blank _ _ hsp => exact hclosed (.inl hsp) rfl rfl
    | line _ h => rw [ho] at h; cases h
    | idle _ _ hsep => exact hclosed (.inr hsep.2) rfl hmark

/-- Between arguments no start is noted, or that of a separator. -/
def Early (sep : Byte) (done : List Byte) (r : Reader) : Prop :=
  r.auto.isOpen = false → r.start = -1 ∨ ∃ x y, done = x ++ sep :: y ∧ r.start = x.length ∧
    Auto.step sep ⟨.start, false⟩ sep = (⟨.start, false⟩, [.line])

lemma Early.snoc (h : Early sep done r) (x : Byte) (hopen : r.auto.isOpen = false) :
    r.start = -1 ∨ ∃ u v, done ++ [x] = u ++ sep :: v ∧ r.start = u.length ∧
      Auto.step sep ⟨.start, false⟩ sep = (⟨.start, false⟩, [.line]) := by
  rcases h hopen with h | ⟨u, v, hdone, hstart, hsep⟩
  · exact .inl h
  · exact .inr ⟨u, v ++ [x], by rw [hdone]; simp, hstart, hsep⟩

variable (sep) in
/-- The reader behind a string. -/
lemma early_run (s : List Byte) :
    (Reader.run sep {} s).1.Sound ∧ Early sep s (Reader.run sep {} s).1 := by
  induction s using List.reverseRecOn with
  | nil => exact ⟨fun _ => ⟨rfl, rfl⟩, fun _ => .inl rfl⟩
  | append_singleton s c ih =>
    obtain ⟨hsound, hearly⟩ := ih
    have hidx : (Reader.run sep {} s).1.idx = s.length := by simp
    have hrun : (Reader.run sep {} (s ++ [c])).1 = ((Reader.run sep {} s).1.step sep c).1 := by
      rw [Reader.run_append]
      rfl
    rw [hrun]
    set r := (Reader.run sep {} s).1 with hr
    have hkind := r.step_kind sep hsound c
    refine ⟨hkind.sound hsound, ?_⟩
    generalize r.step sep c = x at hkind
    obtain ⟨r', out⟩ := x
    cases hkind with
    | char => exact nofun
    | quoted => exact nofun
    | enter => exact nofun
    | behind => exact fun _ => .inl rfl
    | ends => exact fun _ => .inl rfl
    | blank _ ho => exact fun _ => hearly.snoc c ho
    | line => exact fun _ => .inl rfl
    | idle hstep ho hsep =>
      intro _
      show r.mark = -1 ∨ _
      rcases hearly.snoc c ho with hstart | ⟨u, v, hdone, hstart, hline⟩
      · refine .inr ⟨s, [], by rw [hsep.2], ?_, ?_⟩
        · show r.mark = _
          rw [Reader.mark, hstart, if_pos (by decide), hidx]
        · rw [hsound.auto ho, hsep.2] at hstep
          exact hstep
      · refine .inr ⟨u, v, hdone, ?_, hline⟩
        show r.mark = _
        rw [Reader.mark_of_nonneg (by omega), hstart]

end Reading

/-! ## The parser -/

/-- The lists of arguments. -/
def Args.toLines : Args → List (List (List Byte))
  | .flat l => [l]
  | .lines ls => ls

/-- The lists of places. -/
def Spans.toLines : Spans → List (List (ℤ × ℤ))
  | .flat l => [l]
  | .lines ls => ls

/-- Whether there are lines, and the lengths of the lists. -/
def Args.shape : Args → Bool × List ℕ
  | .flat l => (false, [l.length])
  | .lines ls => (true, ls.map List.length)

/-- Whether there are lines, and the lengths of the lists. -/
def Spans.shape : Spans → Bool × List ℕ
  | .flat l => (false, [l.length])
  | .lines ls => (true, ls.map List.length)

/-- The places that are returned with the arguments are exact: there is one for every argument,
parsing its characters alone gives that argument, the places are in order and do not overlap, and
only white space and separators stand between them. -/
structure SpansExact (sep : Byte) (str : List Byte) : Prop where
  shape : (argpParse sep str).1.shape = (argpPos sep str).shape
  exact : ∀ x ∈ (argpParse sep str).1.toLines.flatten.zip (argpPos sep str).toLines.flatten,
    0 ≤ x.2.1 ∧ x.2.1 < x.2.2 ∧ x.2.2 ≤ str.length ∧
      (argpParse sep (slice str x.2.1 x.2.2)).1 = oneLine sep [x.1]
  apart : (argpPos sep str).toLines.flatten.IsChain fun x y =>
    x.2 ≤ y.1 ∧ ∀ c ∈ slice str x.2 y.1, Blank sep c

section Parser

variable {sep : Byte} {str : List Byte}

lemma argpParse_fst_iff (hnul : (0 : Byte) ∉ str) (l : List (List Byte)) :
    (argpParse sep str).1 = oneLine sep l ↔
      (Auto.run sep ⟨.start, false⟩ str).2 ++ (Auto.run sep ⟨.start, false⟩ str).1.close =
        emitArgs l := by
  have hnil : emitLines [] l = emitArgs l := rfl
  rw [← emitLines_scanAll sep hnul, ← hnil, argpParse, oneLine]
  have hlines : sep = 0 → (scanAll ⟨sep, false⟩ str).lines = [] := lines_eq_nil hnul
  split
  · rename_i h0
    rw [hlines h0, Args.flat.injEq]
    exact ⟨fun h => by rw [h], fun h => (emitLines_injective h).2⟩
  · rw [Args.lines.injEq]
    constructor
    · intro h
      have hlen := congrArg List.length h
      rw [List.length_append, List.length_singleton, List.length_singleton] at hlen
      have hup : (scanAll ⟨sep, false⟩ str).lines = [] := List.length_eq_zero_iff.mp (by omega)
      rw [hup] at h ⊢
      rw [show (scanAll ⟨sep, false⟩ str).list = l by simpa using h]
    · intro h
      obtain ⟨hup, hl⟩ := emitLines_injective h
      rw [hup, hl]
      rfl

variable (sep) in
lemma toLines_eq (hnul : (0 : Byte) ∉ str) :
    (argpParse sep str).1.shape = (argpPos sep str).shape ∧
      (argpParse sep str).1.toLines.flatten =
        ((Reader.pieces sep {} str).filterMap Piece.placed).map Prod.fst ∧
      (argpPos sep str).toLines.flatten =
        ((Reader.pieces sep {} str).filterMap Piece.placed).map Prod.snd := by
  obtain ⟨up, l, hgroup⟩ := exists_group (Reader.pieces sep {} str)
  obtain ⟨hlines, hlist, hposLines, hposList⟩ := scanAll_group hnul hgroup
  rw [hgroup, placed_group, argpParse, argpPos]
  dsimp only
  rw [hlist, hposLines, hposList]
  split
  · rename_i h0
    have hup : up = [] := by
      rw [lines_eq_nil hnul h0] at hlines
      simpa using hlines.symm
    subst hup
    simp [Args.shape, Spans.shape, Args.toLines, Spans.toLines]
  · rw [hlines]
    simp [Args.shape, Spans.shape, Args.toLines, Spans.toLines, List.map_flatten]

lemma argpParse_cons_sep {v : List Byte} (hnul : (0 : Byte) ∉ sep :: v)
    (hsep : Auto.step sep ⟨.start, false⟩ sep = (⟨.start, false⟩, [.line])) (w : List Byte) :
    (argpParse sep (sep :: v)).1 ≠ oneLine sep [w] := by
  rw [ne_eq, argpParse_fst_iff hnul, Auto.run_cons, hsep]
  intro h
  refine line_not_mem_emitArgs [w] ?_
  rw [← h]
  simp

lemma Laid.exactAt {e : ℤ} {ps : List Piece} (h : Laid sep str e ps) :
    ∀ x ∈ ps.filterMap Piece.placed, ExactAt sep str x.1 x.2.1 x.2.2 := by
  induction ps generalizing e with
  | nil => simp
  | cons q ps ih =>
    cases q with
    | line => exact ih (e := e) h
    | arg w b l =>
      obtain ⟨-, hexact, hrest⟩ := h
      intro x hx
      rcases List.mem_cons.mp hx with rfl | hx
      · exact hexact
      · exact ih hrest x hx

/-- The relation between the places of two arguments, one behind the other. -/
def Apart (sep : Byte) (str : List Byte) (x y : ℤ × ℤ) : Prop :=
  x.2 ≤ y.1 ∧ ∀ c ∈ slice str x.2 y.1, Blank sep c

lemma Laid.isChain {e : ℤ} {ps : List Piece} (h : Laid sep str e ps) (b : ℤ) :
    ((b, e) :: (ps.filterMap Piece.placed).map Prod.snd).IsChain (Apart sep str) := by
  induction ps generalizing e b with
  | nil => exact List.isChain_singleton _
  | cons q ps ih =>
    cases q with
    | line => exact ih (e := e) h b
    | arg w b' l =>
      obtain ⟨hgap, -, hrest⟩ := h
      exact List.IsChain.cons_cons hgap (ih hrest b')

lemma slice_subset (str : List Byte) (b e : ℤ) : slice str b e ⊆ str := fun _ hc =>
  List.mem_of_mem_take (List.mem_of_mem_drop hc)

lemma ExactAt.parse {w : List Byte} {b e : ℤ} (hnul : (0 : Byte) ∉ str)
    (h : ExactAt sep str w b e) :
    0 ≤ b ∧ b < e ∧ e ≤ str.length ∧ (argpParse sep (slice str b e)).1 = oneLine sep [w] := by
  have hslice := slice_subset str b e
  obtain ⟨x, v, y, rfl, rfl, rfl, hv, hopen, hrun⟩ := h
  rw [slice_append] at hslice ⊢
  have hpos : 0 < v.length := List.length_pos_iff.mpr hv
  refine ⟨by omega, by omega, ?_, ?_⟩
  · simp only [List.length_append]
    push_cast
    omega
  · rw [argpParse_fst_iff fun h0 => hnul (hslice h0), hrun, Auto.close, if_pos hopen]
    simp [emitArgs]

lemma not_exact_of_sep (hnul : (0 : Byte) ∉ str) {x y w : List Byte} {l : ℤ}
    (hstr : str = x ++ sep :: y)
    (hsep : Auto.step sep ⟨.start, false⟩ sep = (⟨.start, false⟩, [.line])) (hl : x.length < l) :
    (argpParse sep (slice str x.length l)).1 ≠ oneLine sep [w] := by
  have hslice := slice_subset str x.length l
  obtain ⟨n, hn⟩ : ∃ n, l.toNat = x.length + (n + 1) := ⟨l.toNat - x.length - 1, by omega⟩
  have hcons : slice str x.length l = sep :: y.take n := by
    rw [slice, hn, hstr, List.take_length_add_append, Int.toNat_natCast, List.drop_left' rfl,
      List.take_succ_cons]
  rw [hcons] at hslice ⊢
  exact argpParse_cons_sep (fun h0 => hnul (hslice h0)) hsep w

lemma SpansExact.pieces (hnul : (0 : Byte) ∉ str) (h : SpansExact sep str) {w : List Byte} {b e : ℤ}
    (hmem : Piece.arg w b e ∈ Reader.pieces sep {} str) :
    b < e ∧ (argpParse sep (slice str b e)).1 = oneLine sep [w] := by
  obtain ⟨-, hargs, hpos⟩ := toLines_eq sep hnul
  have hx := h.exact (w, b, e) ?_
  · exact ⟨hx.2.1, hx.2.2.2⟩
  · rw [hargs, hpos, List.zip_map', List.mem_map]
    exact ⟨(w, b, e), List.mem_filterMap.mpr ⟨_, hmem, rfl⟩, rfl⟩

lemma clear_of_spansExact (hnul : (0 : Byte) ∉ str) (h : SpansExact sep str) : Clear sep str := by
  -- no place starts at a separator
  have hbad : ∀ x y w l, str = x ++ sep :: y →
      Auto.step sep ⟨.start, false⟩ sep = (⟨.start, false⟩, [.line]) →
      Piece.arg w (x.length : ℤ) l ∉ Reader.pieces sep {} str := by
    intro x y w l hstr hsep hmem
    obtain ⟨hlt, hparse⟩ := h.pieces hnul hmem
    exact not_exact_of_sep hnul hstr hsep hlt hparse
  refine ⟨fun s c t hstr hauto hstep => ?_, fun s c hstr hauto => ?_⟩
  · by_contra hne
    push Not at hne
    obtain ⟨d, hd, hnb⟩ := hne
    obtain ⟨hsound, hearly⟩ := early_run sep s
    set r := (Reader.run sep {} s).1 with hr
    have hidx : r.idx = s.length := by simp [hr]
    have hra : r.auto = ⟨.start, false⟩ := by
      rw [hr, Reader.auto_run]
      exact hauto
    have ho : r.auto.isOpen = false := by rw [hra]
    have hkind := r.step_kind sep hsound c
    have hnext := hkind.sound hsound
    have hpieces : Reader.pieces sep {} str =
        (Reader.run sep {} s).2 ++ ((r.step sep c).2 ++ (r.step sep c).1.pieces sep t) := by
      rw [hstr, Reader.pieces_append, Reader.pieces_cons]
    have hra' : (r.step sep c).1.auto.isOpen = false := by
      rw [Reader.auto_step, hra, hstep]
    have hstart : (r.step sep c).1.start = r.mark ∧ c = sep := by
      rw [← hra] at hstep
      generalize r.step sep c = x at hkind
      obtain ⟨r', out⟩ := x
      cases hkind with
      | char q h => simp [hstep] at h
      | quoted q h => simp [hstep] at h
      | enter q h => simp [hstep] at h
      | behind h => simp [hstep] at h
      | ends h => simp [hstep] at h
      | blank h => simp [hstep] at h
      | line h => simp [hstep] at h
      | idle _ _ hsep => exact ⟨rfl, hsep.2⟩
    obtain ⟨hstart, rfl⟩ := hstart
    have hmark : ∃ x y, str = x ++ c :: y ∧ r.mark = x.length := by
      rcases hearly ho with hr1 | ⟨x, y, hs, hr1, -⟩
      · refine ⟨s, t, hstr, ?_⟩
        rw [Reader.mark, hr1, if_pos (by decide), hidx]
      · refine ⟨x, y ++ c :: t, ?_, ?_⟩
        · rw [hstr, hs]
          simp
        · rw [Reader.mark_of_nonneg (by omega), hr1]
    obtain ⟨x, y, hx, hxmark⟩ := hmark
    obtain ⟨w, l, hmem⟩ := start_mem_of_closed hnext hra' (by omega) ⟨d, hd, hnb⟩
    rw [hstart, hxmark] at hmem
    refine hbad x y w l hx hstep ?_
    rw [hpieces]
    exact List.mem_append_right _ (List.mem_append_right _ hmem)
  · by_contra hne
    have hc : c = 39 ∨ c = 34 ∨ c = 92 := by
      by_contra hnot
      push Not at hnot
      exact hne hnot
    obtain ⟨q, hstep⟩ : ∃ q : QState,
        Auto.step sep ⟨.start, false⟩ c = (⟨q.auto, true⟩, []) := by
      rcases hc with rfl | rfl | rfl
      · exact ⟨.singleQuote, rfl⟩
      · exact ⟨.doubleQuote, rfl⟩
      · exact ⟨.backslash, rfl⟩
    have hsp : isSpace c = false := by
      rcases hc with rfl | rfl | rfl <;> rfl
    obtain ⟨hsound, hearly⟩ := early_run sep s
    set r := (Reader.run sep {} s).1 with hr
    have hidx : r.idx = s.length := by simp [hr]
    have hra : r.auto = ⟨.start, false⟩ := by
      rw [hr, Reader.auto_run]
      exact hauto
    have hmem : Piece.arg r.word r.mark r.idx ∈ Reader.pieces sep {} str := by
      have hskip : r.skips c = false := by simp [Reader.skips, hsp]
      have hst : r.auto.st = .start ∨ r.auto.st = .word := .inl (by rw [hra])
      rw [hstr, Reader.pieces_append, Reader.pieces_cons, ← hr,
        Reader.step_enter hskip hst (hra ▸ hstep)]
      exact List.mem_append_right _ (List.mem_singleton_self _)
    rcases hearly (by rw [hra]) with hr1 | ⟨x, y, hs, hr1, hsep⟩
    · rw [Reader.mark, hr1, if_pos (by decide)] at hmem
      exact lt_irrefl _ (h.pieces hnul hmem).1
    · rw [Reader.mark_of_nonneg (by omega), hr1] at hmem
      refine hbad x (y ++ [c]) _ _ ?_ hsep hmem
      rw [hstr, hs]
      simp

lemma spansExact_of_clear (hnul : (0 : Byte) ∉ str) (h : Clear sep str) : SpansExact sep str := by
  have hstart : Reads sep 0 [] {} [] [] [] :=
    ⟨rfl, rfl, nofun, rfl, rfl, rfl, rfl, rfl, fun hne => absurd rfl hne, fun hne => absurd rfl hne⟩
  have hlaid : Laid sep ([] ++ str) 0 (Reader.pieces sep {} str) := laid_pieces h hstart
  rw [List.nil_append] at hlaid
  obtain ⟨hshape, hargs, hpos⟩ := toLines_eq sep hnul
  refine ⟨hshape, fun x hx => ?_, ?_⟩
  · rw [hargs, hpos, List.zip_map', List.mem_map] at hx
    obtain ⟨y, hy, rfl⟩ := hx
    exact (hlaid.exactAt y hy).parse hnul
  · rw [hpos]
    exact (hlaid.isChain 0).tail

end Parser

/-- The places of the arguments are exact if and only if no separator that ends no argument stands
in front of an argument, and no quote or backslash is alone at the end of the string. -/
theorem spansExact_iff (sep : Byte) {str : List Byte} (hnul : (0 : Byte) ∉ str) :
    SpansExact sep str ↔ Clear sep str :=
  ⟨clear_of_spansExact hnul, spansExact_of_clear hnul⟩

/-- The line `a;'b'` with the separator `;`. -/
theorem spansExact_iff_line : SpansExact 59 [97, 59, 39, 98, 39] ↔ Clear 59 [97, 59, 39, 98, 39] :=
  spansExact_iff 59 (by decide)

/-- In the line `;a` the place of the argument starts at the separator. -/
theorem spans_swallow_separator :
    argpParse 59 [59, 97] = (.lines [[], [[97]]], none) ∧
      argpPos 59 [59, 97] = .lines [[], [(0, 2)]] ∧ ¬SpansExact 59 [59, 97] := by
  refine ⟨by decide, by decide, fun h => ?_⟩
  have hplace := h.exact ([97], 0, 2) (by decide)
  exact absurd hplace.2.2.2 (by decide)

end Uline
