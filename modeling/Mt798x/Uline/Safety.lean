import Mt798x.Uline.Text
import Mt798x.Uline.Escape

/-!
# Safe operations

`LineBuf.Sound` is what the operations on a line rely on: the two positions are inside the text,
and behind the text there is a NUL inside the allocation, unless nothing was allocated yet.

For each operation there is a condition on the line before it (`Op.Cond`), and from a sound line
the operation stays inside the allocation and leaves a sound line exactly if the condition is met
(`safe_iff`).  Insertion and the movements of the cursor have no condition.
-/

namespace Uline

open Bytes

/-- A line that can be worked on. -/
structure LineBuf.Sound (l : LineBuf) : Prop where
  pos : l.pos ≤ l.len
  updatePos : l.updatePos ≤ l.len
  ended : (l.buf = none ∧ l.len = 0) ∨ l.read l.len = some 0

/-- The operations on one line. -/
inductive Op
  | insert (c : List Byte) (junk : ℕ → Byte)
  | deleteSymbol
  | backword
  | moveLeft
  | moveRight
  | moveWordLeft
  | moveWordRight
  | home
  | toEnd
  | reset
  | setLine (str : List Byte) (junk : ℕ → Byte)
  /-- `display_update_line`; the flag is `full_update` -/
  | display (full : Bool)
  /-- the walk over the text in front of the cursor at the end of `display_update` -/
  | place

/-- How a line is edited: in UTF-8 mode or not, and on a machine whose `char` is signed or not. -/
structure Mode where
  utf8 : Bool
  signedChar : Bool

/-- The accesses of `display_update_line`, and the new `update_pos`. -/
def displayUpdateLine (md : Mode) (full : Bool) (l : LineBuf) : Option LineBuf := do
  let l := if full then { l with updatePos := 0 } else l
  posAddString md.signedChar l.bytes 0 l.updatePos
  if l.updatePos < l.len then
    let _ ← l.readRange l.updatePos (l.len - l.updatePos)
    posAddString md.signedChar l.bytes l.updatePos (l.len - l.updatePos)
    let _ ← l.read (l.len - 1)
    return { l with updatePos := l.len }
  else
    return { l with updatePos := l.len }

/-- An operation; the `Bool` is what the function returns, `true` for a `void` one. -/
def Op.run (md : Mode) (l : LineBuf) : Op → Option (LineBuf × Bool)
  | .insert c junk => (linebufInsert junk l c).map fun l => (l, true)
  | .deleteSymbol => Uline.deleteSymbol md.utf8 l
  | .backword => processBackword md.utf8 l
  | .moveLeft => Uline.moveLeft md.utf8 l
  | .moveRight => Uline.moveRight md.utf8 l
  | .moveWordLeft => Uline.moveWordLeft md.utf8 l
  | .moveWordRight => Uline.moveWordRight l
  | .home => some ({ l with pos := 0 }, true)
  | .toEnd => some ({ l with pos := l.len }, true)
  | .reset => (linebufReset l).map fun l => (l, true)
  | .setLine str junk => (Uline.setLine md.utf8 junk l str).map fun l => (l, true)
  | .display full => (displayUpdateLine md full l).map fun l => (l, true)
  | .place => (posAddString md.signedChar l.bytes 0 l.pos).map fun _ => (l, true)

/-- The condition under which an operation is safe. -/
def Op.Cond (md : Mode) (l : LineBuf) : Op → Prop
  -- as many bytes as are deleted lie behind the NUL
  | .deleteSymbol => l.pos < l.len →
      ∃ n, symbolLen md.utf8 l = some n ∧ l.len + n < l.bufsize
  | .backword => 0 < l.pos →
      ∃ l', Uline.moveWordLeft md.utf8 l = some (l', true) ∧ l.len + (l.pos - l'.pos) < l.bufsize
  -- something was typed before
  | .reset => l.buf ≠ none
  -- there is a NUL behind the place of the new text, or behind the bytes that are allocated for it
  | .setLine str junk => (str.length < l.bufsize ∧ l.read str.length = some 0) ∨
      (l.bufsize ≤ str.length ∧ (str.length - l.bufsize) % linebufChunk ≠ 0 ∧ junk str.length = 0)
  -- the walks over the text end between escape sequences
  | .display full => EscClosed md.signedChar (l.text.take (if full then 0 else l.updatePos)) ∧
      EscClosed md.signedChar (l.text.drop (if full then 0 else l.updatePos))
  | .place => EscClosed md.signedChar (l.text.take l.pos)
  | _ => True

/-- The operation stays inside the allocation and leaves a sound line. -/
def Op.Safe (md : Mode) (l : LineBuf) (op : Op) : Prop :=
  ∃ l' r, op.run md l = some (l', r) ∧ l'.Sound

namespace LineBuf

lemma Sound.len_le {l : LineBuf} (h : l.Sound) : l.len ≤ l.bufsize := by
  rcases h.ended with ⟨-, hlen⟩ | hread
  · rw [hlen]
    exact Nat.zero_le _
  · exact (List.getElem?_eq_some_iff.mp hread).1.le

lemma Sound.fits {l : LineBuf} (h : l.Sound) : l.Fits := ⟨h.pos, h.len_le⟩

lemma Sound.len_lt {l : LineBuf} (h : l.Sound) (hlen : 0 < l.len) : l.len < l.bufsize := by
  rcases h.ended with ⟨-, h0⟩ | hread
  · omega
  · exact (List.getElem?_eq_some_iff.mp hread).1

lemma Sound.setPos {l : LineBuf} (h : l.Sound) {p : ℕ} (hp : p ≤ l.len) :
    LineBuf.Sound { l with pos := p } := ⟨hp, h.updatePos, h.ended⟩

lemma sound_of_append {t rest : List Byte} {len pos updatePos : ℕ}
    {prompt : Option (List Byte)} (hlen : t.length = len) (hpos : pos ≤ len)
    (hupd : updatePos ≤ len) :
    LineBuf.Sound ⟨some (t ++ 0 :: rest), len, pos, updatePos, prompt⟩ := by
  refine ⟨hpos, hupd, Or.inr ?_⟩
  rw [read, bytes_mk, ← hlen, List.getElem?_append_right le_rfl]
  simp

lemma read_of_lt {l : LineBuf} {i : ℕ} (h : i < l.bufsize) : ∃ c, l.read i = some c :=
  ⟨_, List.getElem?_eq_getElem h⟩

end LineBuf

open LineBuf

/-! ## The loops over symbols and words -/

lemma utf8MoveLeft_spec {l : LineBuf} (p : ℕ) (h : p ≤ l.bufsize) :
    ∃ q ≤ p - 1, utf8MoveLeft l p = some q := by
  induction p using Nat.strong_induction_on with
  | _ p ih =>
    match p with
    | 0 => exact ⟨0, le_rfl, rfl⟩
    | 1 => exact ⟨0, le_rfl, rfl⟩
    | p + 2 =>
      obtain ⟨c, hc⟩ := read_of_lt (l := l) (i := p + 1) (by omega)
      rw [utf8MoveLeft, hc]
      simp only [Option.bind_eq_bind, Option.bind_some]
      split
      · obtain ⟨q, hq, heq⟩ := ih (p + 1) (by omega) (by omega)
        exact ⟨q, by omega, heq⟩
      · exact ⟨p + 1, by omega, rfl⟩

lemma utf8Right_spec {l : LineBuf} (n p : ℕ) (h : p + n ≤ l.bufsize) :
    ∃ q, p ≤ q ∧ q ≤ p + n ∧ utf8Right l p n = some q := by
  induction n generalizing p with
  | zero => exact ⟨p, le_rfl, le_rfl, rfl⟩
  | succ n ih =>
    obtain ⟨c, hc⟩ := read_of_lt (l := l) (i := p) (by omega)
    rw [utf8Right, hc]
    simp only [Option.bind_eq_bind, Option.bind_some]
    split
    · obtain ⟨q, h1, h2, heq⟩ := ih (p + 1) (by omega)
      exact ⟨q, by omega, by omega, heq⟩
    · exact ⟨p, le_rfl, by omega, rfl⟩

variable {l : LineBuf} {n : ℕ} (utf8 : Bool) (md : Mode)

lemma utf8MoveRight_spec {p : ℕ} (hp : p < n) (h : n ≤ l.bufsize) :
    ∃ q, p < q ∧ q ≤ n ∧ utf8MoveRight l p n = some q := by
  obtain ⟨q, h1, h2, heq⟩ := utf8Right_spec (l := l) (n - (p + 1)) (p + 1) (by omega)
  exact ⟨q, h1, by omega, by rw [utf8MoveRight, if_neg (by omega)]; exact heq⟩

lemma scanLeft_spec (f : Byte → Bool) {l : LineBuf} (p : ℕ) (h : p < l.bufsize) :
    ∃ q ≤ p, scanLeft f l p = some q := by
  induction p with
  | zero => exact ⟨0, le_rfl, rfl⟩
  | succ p ih =>
    obtain ⟨c, hc⟩ := read_of_lt h
    rw [scanLeft, hc]
    simp only [Option.bind_eq_bind, Option.bind_some]
    split
    · obtain ⟨q, hq, heq⟩ := ih (by omega)
      exact ⟨q, by omega, heq⟩
    · exact ⟨p + 1, le_rfl, rfl⟩

lemma scanRight_spec (f : Byte → Bool) {l : LineBuf} (n p : ℕ) (h : p + n < l.bufsize) :
    ∃ q, p ≤ q ∧ q ≤ p + n ∧ scanRight f l p n = some q := by
  induction n generalizing p with
  | zero =>
    obtain ⟨c, hc⟩ := read_of_lt (l := l) (i := p) (by omega)
    exact ⟨p, le_rfl, le_rfl, by rw [scanRight, hc]; rfl⟩
  | succ n ih =>
    obtain ⟨c, hc⟩ := read_of_lt (l := l) (i := p) (by omega)
    rw [scanRight, hc]
    simp only [Option.bind_eq_bind, Option.bind_some]
    split
    · obtain ⟨q, h1, h2, heq⟩ := ih (p + 1) (by omega)
      exact ⟨q, by omega, by omega, heq⟩
    · exact ⟨p, le_rfl, by omega, rfl⟩

/-! ## Movements -/

/-- A movement of the cursor: nothing else changes. -/
def Moves (l : LineBuf) (r : Option (LineBuf × Bool)) : Prop :=
  ∃ p ≤ l.len, ∃ moved, r = some ({ l with pos := p }, moved)

lemma Moves.safe {r : Option (LineBuf × Bool)} (h : l.Sound) (hm : Moves l r) :
    ∃ l' b, r = some (l', b) ∧ l'.Sound := by
  obtain ⟨p, hp, moved, rfl⟩ := hm
  exact ⟨_, _, rfl, h.setPos hp⟩

lemma moveLeft_spec (h : l.Sound) :
    (l.pos = 0 ∧ moveLeft utf8 l = some (l, false)) ∨
    ∃ p < l.pos, moveLeft utf8 l = some ({ l with pos := p }, true) := by
  rw [moveLeft]
  split
  · rename_i h0
    exact Or.inl ⟨h0, rfl⟩
  · cases utf8 with
    | false => exact Or.inr ⟨l.pos - 1, by omega, rfl⟩
    | true =>
      obtain ⟨q, hq, heq⟩ := utf8MoveLeft_spec l.pos (h.pos.trans h.len_le)
      refine Or.inr ⟨q, by omega, ?_⟩
      simp [heq]

lemma moves_moveRight (h : l.Sound) : Moves l (moveRight utf8 l) := by
  rw [moveRight]
  split
  · exact ⟨l.pos, h.pos, false, rfl⟩
  · rename_i hlt
    cases utf8 with
    | false => exact ⟨l.pos + 1, by omega, true, rfl⟩
    | true =>
      obtain ⟨q, -, hq, heq⟩ := utf8MoveRight_spec (l := l) (show l.pos < l.len by omega) h.len_le
      exact ⟨q, hq, true, by simp [heq]⟩

lemma moveWordLeft_spec (h : l.Sound) :
    (l.pos = 0 ∧ moveWordLeft utf8 l = some (l, false)) ∨
    ∃ p ≤ l.pos, moveWordLeft utf8 l = some ({ l with pos := p }, true) := by
  have hlen := h.pos
  rw [moveWordLeft]
  rcases moveLeft_spec utf8 h with ⟨h0, heq⟩ | ⟨p, hp, heq⟩
  · rw [heq]
    exact Or.inl ⟨h0, rfl⟩
  · right
    have hsize := h.len_lt (by omega)
    -- the two loops only go to the left
    obtain ⟨q, hq, hscan⟩ := scanLeft_spec isSpace (l := { l with pos := p }) p
      (show p < l.bufsize by omega)
    obtain ⟨r, hr, hscan2⟩ := scanLeft_spec (fun c => !isSpace c) (l := { l with pos := p }) q
      (show q < l.bufsize by omega)
    obtain ⟨c, hc⟩ := read_of_lt (l := { l with pos := p }) (i := r) (show r < l.bufsize by omega)
    rw [heq]
    simp only [Option.bind_eq_bind, Option.bind_some, if_true, hscan, hscan2, hc]
    exact ⟨if isSpace c then r + 1 else r, by split <;> omega, rfl⟩

lemma moves_moveWordRight (h : l.Sound) : Moves l (moveWordRight l) := by
  have hpos := h.pos
  rw [moveWordRight]
  split
  · exact ⟨l.pos, hpos, false, rfl⟩
  · have hsize := h.len_lt (by omega)
    obtain ⟨p, hp, hp2, hscan⟩ := scanRight_spec (fun c => !isSpace c) (l := l) (l.len - l.pos)
      l.pos (by omega)
    obtain ⟨q, hq, hq2, hscan2⟩ := scanRight_spec isSpace (l := l) (l.len - p) p (by omega)
    rw [hscan]
    simp only [Option.bind_eq_bind, Option.bind_some, hscan2]
    exact ⟨q, by omega, true, rfl⟩

/-! ## Operations that change the text -/

lemma safe_insert (h : l.Sound) (c : List Byte) (junk : ℕ → Byte) :
    (Op.insert c junk).Safe md l := by
  obtain ⟨rest, heq⟩ := linebufInsert_spec junk h.fits c
  have hpos := h.pos
  have hlen : (l.text.take l.pos ++ c ++ l.text.drop l.pos).length = l.len + c.length := by
    simp only [List.length_append, List.length_take, List.length_drop, h.fits.length_text]
    omega
  refine ⟨_, true, by rw [Op.run, heq, Option.map_some], sound_of_append hlen ?_ ?_⟩
  · omega
  · omega

lemma linebufDelete_safe_iff (h : l.Sound) (hn : n ≤ l.len - l.pos) (hlen : 0 < l.len) :
    (∃ l', linebufDelete l n = some l' ∧ l'.Sound) ↔ l.len + n < l.bufsize := by
  constructor
  · rintro ⟨l', heq, -⟩
    by_contra hge
    rw [linebufDelete_of_ge h.fits hn (by omega)] at heq
    cases heq
  · intro hroom
    obtain ⟨nul, rest, hnul, heq⟩ := linebufDelete_of_lt h.fits hn hroom
    have hpos := h.pos
    have hzero : nul = 0 := by
      rcases h.ended with ⟨-, h0⟩ | hread
      · omega
      · rw [hread] at hnul
        exact (Option.some.inj hnul).symm
    subst hzero
    refine ⟨_, heq, sound_of_append ?_ ?_ ?_⟩
    · simp only [List.length_append, List.length_take, List.length_drop, h.fits.length_text]
      omega
    · omega
    · omega

lemma symbolLen_spec (h : l.Sound) (hlt : l.pos < l.len) :
    ∃ n ≤ l.len - l.pos, symbolLen utf8 l = some n := by
  cases utf8 with
  | false => exact ⟨1, by omega, rfl⟩
  | true =>
    obtain ⟨q, hq, hq2, heq⟩ := utf8MoveRight_spec (l := l) hlt h.len_le
    exact ⟨q - l.pos, by omega, by simp [symbolLen, heq]⟩

lemma deleteSymbol_safe_iff (h : l.Sound) :
    Op.deleteSymbol.Safe md l ↔ Op.deleteSymbol.Cond md l := by
  have hpos := h.pos
  rw [Op.Safe, Op.Cond, Op.run, deleteSymbol]
  split
  · rename_i heq
    constructor
    · intro _ hlt
      omega
    · intro _
      exact ⟨l, false, rfl, h⟩
  · have hlt : l.pos < l.len := by omega
    obtain ⟨n, hn, hsym⟩ := symbolLen_spec md.utf8 h hlt
    have hiff := linebufDelete_safe_iff h hn (by omega)
    rw [hsym]
    simp only [Option.bind_eq_bind, Option.bind_some]
    constructor
    · rintro ⟨l', r, heq, hs⟩ -
      obtain ⟨l1, h1, h2⟩ := Option.bind_eq_some_iff.mp heq
      cases h2
      exact ⟨n, rfl, hiff.mp ⟨l', h1, hs⟩⟩
    · intro hcond
      obtain ⟨m, hm, hroom⟩ := hcond hlt
      cases hm
      obtain ⟨l', h1, hs⟩ := hiff.mpr hroom
      exact ⟨l', true, by rw [h1]; rfl, hs⟩

lemma backword_safe_iff (h : l.Sound) : Op.backword.Safe md l ↔ Op.backword.Cond md l := by
  have hpos := h.pos
  rw [Op.Safe, Op.Cond, Op.run, processBackword]
  rcases moveWordLeft_spec md.utf8 h with ⟨h0, heq⟩ | ⟨p, hp, heq⟩
  · rw [heq]
    constructor
    · intro _ hlt
      omega
    · intro _
      exact ⟨l, false, rfl, h⟩
  · rw [heq]
    simp only [Option.bind_eq_bind, Option.bind_some, if_true]
    rcases Nat.eq_zero_or_pos l.pos with h0 | hlt
    · -- `move_word_left` does not report success at the start of the line
      have hfalse : moveWordLeft md.utf8 l = some (l, false) := by
        rw [moveWordLeft, moveLeft, if_pos h0]
        rfl
      rw [hfalse, Option.some.injEq, Prod.mk.injEq] at heq
      exact absurd heq.2 Bool.false_ne_true
    · have hiff := linebufDelete_safe_iff (h.setPos (p := p) (by omega)) (n := l.pos - p)
        (show l.pos - p ≤ l.len - p by omega) (show 0 < l.len by omega)
      constructor
      · rintro ⟨l', r, hrun, hs⟩ -
        obtain ⟨l1, h1, h2⟩ := Option.bind_eq_some_iff.mp hrun
        cases h2
        exact ⟨_, rfl, hiff.mp ⟨l', h1, hs⟩⟩
      · intro hcond
        obtain ⟨l1, hl1, hroom⟩ := hcond hlt
        cases hl1
        obtain ⟨l', h1, hs⟩ := hiff.mpr hroom
        exact ⟨l', true, by rw [h1]; rfl, hs⟩

lemma reset_safe_iff (h : l.Sound) : Op.reset.Safe md l ↔ Op.reset.Cond md l := by
  rw [Op.Safe, Op.Cond, Op.run]
  constructor
  · rintro ⟨l', r, hrun, -⟩ hnone
    have hz : l.bufsize = 0 := by simp [bufsize, bytes, hnone]
    rw [linebufReset_of_zero hz] at hrun
    cases hrun
  · intro hne
    have hp : 0 < l.bufsize := by
      rcases h.ended with ⟨hnone, -⟩ | hread
      · exact absurd hnone hne
      · exact (Nat.zero_le _).trans_lt (List.getElem?_eq_some_iff.mp hread).1
    refine ⟨_, true, by rw [linebufReset_of_pos hp, Option.map_some], le_rfl, le_rfl, Or.inr rfl⟩

lemma lt_growSize_iff (size tailroom : ℕ) :
    size - tailroom < growSize size tailroom ↔ (size - tailroom) % linebufChunk ≠ 0 := by
  simp only [growSize, linebufChunk]
  omega

/-- The byte behind the place of a text in the extended allocation. -/
lemma linebufExtend_getElem? (junk : ℕ → Byte) (l : LineBuf) (n : ℕ) :
    (linebufExtend junk { l with len := 0 } n).bytes[n]? = some 0 ↔
      (n < l.bufsize ∧ l.read n = some 0) ∨
      (l.bufsize ≤ n ∧ (n - l.bufsize) % linebufChunk ≠ 0 ∧ junk n = 0) := by
  have hb : (LineBuf.bytes { l with len := 0 }) = l.bytes := rfl
  have hsize : (LineBuf.bufsize { l with len := 0 }) = l.bufsize := rfl
  rw [linebufExtend, hb, hsize, Nat.sub_zero]
  split
  · rename_i hroom
    constructor
    · intro h
      exact Or.inl ⟨hroom.2, h⟩
    · rintro (⟨-, h⟩ | ⟨h, -⟩)
      · exact h
      · omega
  · rename_i hroom
    rcases Nat.lt_or_ge n l.bufsize with hlt | hge
    · -- then there is an allocation with room
      have hsome : l.buf.isSome = true := by
        cases hbuf : l.buf with
        | none => simp [bufsize, bytes, hbuf] at hlt
        | some b => rfl
      exact absurd ⟨hsome, hlt⟩ hroom
    · have hget : (l.bytes ++ (List.range (growSize n l.bufsize)).map
          fun i => junk (l.bufsize + i))[n]? = some 0 ↔
          n - l.bufsize < growSize n l.bufsize ∧ junk n = 0 := by
        rw [List.getElem?_append_right hge, List.getElem?_map]
        show Option.map _ (List.range (growSize n l.bufsize))[n - l.bufsize]? = some 0 ↔ _
        by_cases hlt : n - l.bufsize < growSize n l.bufsize
        · rw [List.getElem?_range hlt]
          have hsum : l.bufsize + (n - l.bufsize) = n := by omega
          simp [hlt, hsum]
        · rw [List.getElem?_eq_none (by simpa using hlt)]
          simp [hlt]
      rw [bytes_mk, hget, lt_growSize_iff]
      constructor
      · rintro ⟨h1, h2⟩
        exact Or.inr ⟨hge, h1, h2⟩
      · rintro (⟨h1, -⟩ | ⟨-, h1, h2⟩)
        · omega
        · exact ⟨h1, h2⟩

lemma setLine_safe_iff (h : l.Sound) (str : List Byte) (junk : ℕ → Byte) :
    (Op.setLine str junk).Safe md l ↔ (Op.setLine str junk).Cond md l := by
  obtain ⟨extra, hext, hroom, heq⟩ := setLine_spec md.utf8 junk h.fits str
  have hnul : ((str ++ (l.bytes ++ extra).drop str.length)[str.length]? = some 0) ↔
      (Op.setLine str junk).Cond md l := by
    rw [Op.Cond, ← linebufExtend_getElem?, hext, bytes_mk, List.getElem?_append_right le_rfl,
      List.getElem?_drop]
    simp
  rw [Op.Safe, Op.run, heq, Option.map_some, ← hnul]
  constructor
  · rintro ⟨l', r, hrun, hs⟩
    cases hrun
    rcases hs.ended with ⟨hnone, -⟩ | hread
    · cases hnone
    · exact hread
  · intro hread
    refine ⟨_, true, rfl, Nat.min_le_right _ _, ?_, Or.inr hread⟩
    have hkept := keptLen_le md.utf8 l.text str
    have hcommon := congrArg List.length (take_commonLen l.text str)
    have hle := commonLen_le_left l.text str
    rw [List.length_take, List.length_take, Nat.min_eq_left hle] at hcommon
    show keptLen md.utf8 l.text str ≤ str.length
    omega

/-! ## Redraws -/

lemma posAddString_text_take (sc : Bool) (h : l.Sound) (hn : n ≤ l.len) :
    (posAddString sc l.bytes 0 n).isSome ↔ EscClosed sc (l.text.take n) := by
  have hlen := h.len_le
  rw [posAddString_isSome (show 0 + n ≤ l.bytes.length by rw [Nat.zero_add]; exact hn.trans hlen),
    seg, List.drop_zero, text, List.take_take, Nat.min_eq_left hn]

lemma posAddString_text_drop (sc : Bool) (h : l.Sound) (hn : n ≤ l.len) :
    (posAddString sc l.bytes n (l.len - n)).isSome ↔ EscClosed sc (l.text.drop n) := by
  have hlen : l.len ≤ l.bytes.length := h.len_le
  rw [posAddString_isSome (by omega), seg, l.take_drop_bytes]

lemma display_safe_iff (h : l.Sound) (full : Bool) :
    (Op.display full).Safe md l ↔ (Op.display full).Cond md l := by
  set l1 := if full then { l with updatePos := 0 } else l with hl1
  have hbuf : l1.buf = l.buf := by rw [hl1]; split <;> rfl
  have hlen : l1.len = l.len := by rw [hl1]; split <;> rfl
  have hupd : l1.updatePos = if full then 0 else l.updatePos := by rw [hl1]; split <;> rfl
  have hs1 : l1.Sound := by
    rw [hl1]
    split
    · exact ⟨h.pos, Nat.zero_le _, h.ended⟩
    · exact h
  have htext : l1.text = l.text := by rw [text, text, bytes, bytes, hbuf, hlen]
  have hdone : LineBuf.Sound { l1 with updatePos := l1.len } := ⟨hs1.pos, le_rfl, hs1.ended⟩
  have hsize := hs1.len_le
  have hle := hs1.updatePos
  have htake := posAddString_text_take md.signedChar hs1 hle
  have hdrop := posAddString_text_drop md.signedChar hs1 hle
  rw [Op.Safe, Op.run, Op.Cond, displayUpdateLine, ← hl1, ← hupd, ← htext, ← htake, ← hdrop]
  cases hp : posAddString md.signedChar l1.bytes 0 l1.updatePos with
  | none => simp
  | some u =>
    simp only [Option.bind_eq_bind, Option.bind_some, Option.isSome_some, true_and]
    split
    · rename_i hlt
      rw [readRange_of_le (by omega)]
      obtain ⟨c, hc⟩ := read_of_lt (l := l1) (i := l1.len - 1) (by omega)
      simp only [Option.bind_some, hc]
      cases hq : posAddString md.signedChar l1.bytes l1.updatePos (l1.len - l1.updatePos) with
      | none => simp
      | some v =>
        simp only [Option.isSome_some, iff_true]
        exact ⟨_, true, rfl, hdone⟩
    · rename_i hge
      have h0 : l1.len - l1.updatePos = 0 := by omega
      rw [h0]
      constructor
      · intro _
        rfl
      · intro _
        exact ⟨_, true, rfl, hdone⟩

lemma place_safe_iff (h : l.Sound) : Op.place.Safe md l ↔ Op.place.Cond md l := by
  rw [Op.Safe, Op.run, Op.Cond, ← posAddString_text_take md.signedChar h h.pos]
  cases posAddString md.signedChar l.bytes 0 l.pos with
  | none => simp
  | some u => exact ⟨fun _ => rfl, fun _ => ⟨l, true, rfl, h⟩⟩

/-! ## All operations -/

/-- From a sound line, an operation is safe exactly if its condition is met. -/
lemma safe_iff (h : l.Sound) (op : Op) : op.Safe md l ↔ op.Cond md l := by
  cases op with
  | insert c junk => exact ⟨fun _ => trivial, fun _ => safe_insert md h c junk⟩
  | deleteSymbol => exact deleteSymbol_safe_iff md h
  | backword => exact backword_safe_iff md h
  | moveLeft =>
    refine ⟨fun _ => trivial, fun _ => ?_⟩
    rcases moveLeft_spec md.utf8 h with ⟨-, heq⟩ | ⟨p, hp, heq⟩
    · exact ⟨l, false, heq, h⟩
    · exact ⟨_, true, heq, h.setPos (by have := h.pos; omega)⟩
  | moveRight => exact ⟨fun _ => trivial, fun _ => (moves_moveRight md.utf8 h).safe h⟩
  | moveWordLeft =>
    refine ⟨fun _ => trivial, fun _ => ?_⟩
    rcases moveWordLeft_spec md.utf8 h with ⟨-, heq⟩ | ⟨p, hp, heq⟩
    · exact ⟨l, false, heq, h⟩
    · exact ⟨_, true, heq, h.setPos (by have := h.pos; omega)⟩
  | moveWordRight => exact ⟨fun _ => trivial, fun _ => (moves_moveWordRight h).safe h⟩
  | home => exact ⟨fun _ => trivial, fun _ => ⟨_, true, rfl, h.setPos (Nat.zero_le _)⟩⟩
  | toEnd => exact ⟨fun _ => trivial, fun _ => ⟨_, true, rfl, h.setPos le_rfl⟩⟩
  | reset => exact reset_safe_iff md h
  | setLine str junk => exact setLine_safe_iff md h str junk
  | display full => exact display_safe_iff md h full
  | place => exact place_safe_iff md h

end Uline
