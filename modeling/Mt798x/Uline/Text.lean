import Mt798x.Uline.LineBuf

/-!
# What the operations do to the text

One lemma for each operation on a line buffer whose cursor is inside the text and whose text is
inside the allocation: when the accesses of the operation stay inside the allocation, and what the
buffer holds afterwards.
-/

namespace Uline

open Bytes

namespace LineBuf

/-- The cursor is inside the text and the text inside the allocation. -/
structure Fits (l : LineBuf) : Prop where
  pos : l.pos ≤ l.len
  len : l.len ≤ l.bufsize

@[simp] lemma bytes_mk (b : List Byte) (len pos updatePos : ℕ) (prompt : Option (List Byte)) :
    bytes ⟨some b, len, pos, updatePos, prompt⟩ = b := rfl

@[simp] lemma bufsize_mk (b : List Byte) (len pos updatePos : ℕ) (prompt : Option (List Byte)) :
    bufsize ⟨some b, len, pos, updatePos, prompt⟩ = b.length := rfl

lemma Fits.length_text {l : LineBuf} (h : l.Fits) : l.text.length = l.len := by
  rw [text, List.length_take]
  exact Nat.min_eq_left h.len

lemma text_of_append {t : List Byte} {len : ℕ} (h : t.length = len) (rest : List Byte)
    (pos updatePos : ℕ) (prompt : Option (List Byte)) :
    text ⟨some (t ++ rest), len, pos, updatePos, prompt⟩ = t := by
  rw [text, bytes_mk, ← h]
  exact List.take_left

lemma touch_eq (l : LineBuf) : l.touch = { l with updatePos := min l.updatePos l.pos } := by
  rw [touch]
  split
  · rw [Nat.min_eq_right (by omega)]
  · rw [Nat.min_eq_left (by omega)]

lemma readRange_of_le {l : LineBuf} {off n : ℕ} (h : off + n ≤ l.bufsize) :
    l.readRange off n = some ((l.bytes.drop off).take n) := if_pos h

lemma writeRange_of_le {l : LineBuf} {off : ℕ} {chunk : List Byte}
    (h : off + chunk.length ≤ l.bufsize) :
    l.writeRange off chunk = some { l with buf := some (splice l.bytes off chunk) } := if_pos h

lemma take_drop_bytes (l : LineBuf) (off : ℕ) :
    (l.bytes.drop off).take (l.len - off) = l.text.drop off := by
  rw [text, List.drop_take]

end LineBuf

open LineBuf

/-! ## Allocation -/

lemma le_growSize (size tailroom : ℕ) : size - tailroom ≤ growSize size tailroom := by
  have h := Nat.mod_lt (size - tailroom + (linebufChunk - 1)) (show 0 < linebufChunk by decide)
  simp only [growSize]
  simp only [linebufChunk] at h ⊢
  omega

variable {l : LineBuf}

/-- After `linebuf_extend` there is an allocation with the requested room; the old bytes are
kept. -/
lemma linebufExtend_spec (junk : ℕ → Byte) (h : l.len ≤ l.bufsize) (size : ℕ) :
    ∃ extra, linebufExtend junk l size = { l with buf := some (l.bytes ++ extra) } ∧
      l.len + size ≤ l.bufsize + extra.length := by
  rw [linebufExtend]
  split
  · rename_i hroom
    obtain ⟨b, hb⟩ := Option.isSome_iff_exists.mp hroom.1
    refine ⟨[], ?_, by omega⟩
    cases l
    simp only at hb
    subst hb
    simp
  · refine ⟨_, rfl, ?_⟩
    have := le_growSize size (l.bufsize - l.len)
    rw [List.length_map, List.length_range]
    omega

/-! ## Insertion -/

/-- Three copies that make room at `pos`, fill it and put a NUL behind the text. -/
lemma splice_insert {b c : List Byte} {pos len : ℕ} (hp : pos ≤ len)
    (hb : len + c.length + 1 ≤ b.length) :
    ∃ rest, splice (splice (splice b (pos + c.length) ((b.drop pos).take (len - pos))) pos c)
        (len + c.length) [0] =
      (b.take pos ++ c ++ (b.drop pos).take (len - pos)) ++ 0 :: rest := by
  have ht : ((b.drop pos).take (len - pos)).length = len - pos := by
    rw [List.length_take, List.length_drop]
    omega
  set t := (b.drop pos).take (len - pos) with htdef
  have hlen1 : (splice b (pos + c.length) t).length = b.length := length_splice (by omega)
  have htake : (splice b (pos + c.length) t).take pos = b.take pos :=
    take_splice_of_le (by omega) (by omega)
  have hdrop : (splice b (pos + c.length) t).drop (pos + c.length) =
      t ++ b.drop (pos + c.length + t.length) := drop_splice_self (by omega)
  have hstart : (b.take pos ++ c ++ t).length = len + c.length := by
    simp only [List.length_append, List.length_take, ht]
    omega
  have h2 : splice (splice b (pos + c.length) t) pos c =
      (b.take pos ++ c ++ t) ++ b.drop (pos + c.length + t.length) := by
    rw [splice, htake, hdrop, List.append_assoc (b.take pos ++ c)]
  refine ⟨(b.drop (pos + c.length + t.length)).drop 1, ?_⟩
  rw [h2, splice, List.take_append_of_le_length (by omega), List.take_of_length_le (by omega),
    List.drop_append, List.drop_eq_nil_of_le (by simp; omega), hstart]
  simp

/-- Insertion never leaves the allocation. -/
lemma linebufInsert_spec (junk : ℕ → Byte) (h : l.Fits) (c : List Byte) :
    ∃ rest, linebufInsert junk l c = some { l with
      buf := some ((l.text.take l.pos ++ c ++ l.text.drop l.pos) ++ 0 :: rest)
      len := l.len + c.length
      pos := l.pos + c.length
      updatePos := min l.updatePos l.pos } := by
  have hpos := h.pos
  obtain ⟨extra, hext, hroom⟩ := linebufExtend_spec junk h.len (c.length + 1)
  have hlen := h.len
  set b := l.bytes ++ extra with hbdef
  have hblen : b.length = l.bufsize + extra.length := by rw [hbdef, List.length_append]; rfl
  have htake : b.take l.pos = l.text.take l.pos := by
    rw [hbdef, List.take_append_of_le_length (hpos.trans hlen), text, List.take_take,
      Nat.min_eq_left hpos]
  have hdrop : (b.drop l.pos).take (l.len - l.pos) = l.text.drop l.pos := by
    rw [← l.take_drop_bytes, hbdef, List.drop_append_of_le_length (hpos.trans hlen),
      List.take_append_of_le_length]
    rw [List.length_drop]
    exact Nat.sub_le_sub_right hlen _
  obtain ⟨rest, hrest⟩ := splice_insert (b := b) (c := c) hpos (by omega)
  rw [htake, hdrop] at hrest
  -- the first copy: the text behind the cursor, or only the NUL if there is none
  have hfirst : ∀ chunk : List Byte, l.pos + c.length + chunk.length ≤ b.length →
      ({ l with buf := some b } : LineBuf).writeRange (l.pos + c.length) chunk =
        some { l with buf := some (splice b (l.pos + c.length) chunk) } := by
    intro chunk hchunk
    exact writeRange_of_le hchunk
  have hmid : ∀ b1 : List Byte, b1.length = b.length →
      (do
        let l2 ← (LineBuf.touch { l with buf := some b1 }).writeRange
          (LineBuf.touch { l with buf := some b1 }).pos c
        let l3 : LineBuf := { l2 with len := l2.len + c.length, pos := l2.pos + c.length }
        l3.writeRange l3.len [0]) =
      some { l with
        buf := some (splice (splice b1 l.pos c) (l.len + c.length) [0])
        len := l.len + c.length
        pos := l.pos + c.length
        updatePos := min l.updatePos l.pos } := by
    intro b1 hb1
    rw [touch_eq]
    dsimp only
    have hw : l.pos + c.length ≤ b1.length := by omega
    rw [writeRange_of_le hw]
    have hw2 : l.len + c.length + [(0 : Byte)].length ≤ (splice b1 l.pos c).length := by
      rw [length_splice hw, List.length_singleton]
      omega
    exact writeRange_of_le hw2
  rw [linebufInsert, hext]
  dsimp only
  split
  · have hread : l.pos + (l.len - l.pos) ≤ b.length := by omega
    have hchunk : l.pos + c.length + (l.text.drop l.pos).length ≤ b.length := by
      rw [List.length_drop, h.length_text]
      omega
    rw [readRange_of_le hread]
    simp only [bytes_mk, Option.bind_eq_bind, Option.bind_some]
    rw [hdrop, hfirst _ hchunk]
    refine ⟨rest, ?_⟩
    rw [← hrest]
    exact hmid _ (length_splice hchunk)
  · -- the cursor is at the end: only a NUL is written behind the room
    have heq : l.pos = l.len := by omega
    have hone : l.pos + c.length + [(0 : Byte)].length ≤ b.length := by
      rw [List.length_singleton]
      omega
    rw [hfirst _ hone]
    have hempty : l.text.drop l.pos = [] :=
      List.drop_eq_nil_of_le (by rw [h.length_text]; omega)
    set b1 := splice b (l.pos + c.length) [0] with hb1def
    have hb1 : b1.length = b.length := length_splice hone
    have hcopy : (splice b1 l.pos c).take (l.len + c.length) = l.text.take l.pos ++ c := by
      rw [splice, hb1def, take_splice_of_le (by omega) (by omega), htake,
        List.take_append_of_le_length (by simp [h.length_text]; omega),
        List.take_of_length_le (by simp [h.length_text])]
    refine ⟨(splice b1 l.pos c).drop (l.len + c.length + 1), ?_⟩
    rw [hempty, List.append_nil, ← hcopy]
    refine (hmid b1 hb1).trans ?_
    simp [splice]

/-! ## Deletion -/

/-- The allocation behind an offset in the text: the rest of the text, the byte that ends it and
what follows. -/
lemma drop_bytes_eq {off : ℕ} {nul : Byte} (ho : off ≤ l.len) (hnul : l.read l.len = some nul) :
    l.bytes.drop off = l.text.drop off ++ nul :: l.bytes.drop (l.len + 1) := by
  obtain ⟨hlt, hval⟩ := List.getElem?_eq_some_iff.mp hnul
  calc l.bytes.drop off
      = (l.bytes.drop off).take (l.len - off) ++ (l.bytes.drop off).drop (l.len - off) :=
        (List.take_append_drop _ _).symm
    _ = l.text.drop off ++ l.bytes.drop l.len := by
        rw [l.take_drop_bytes, List.drop_drop, Nat.add_sub_cancel' ho]
    _ = _ := by rw [List.drop_eq_getElem_cons hlt, hval]

/-- What a deletion reads ends `n` bytes behind the text, so there must be that many bytes in the
allocation and one more. -/
lemma linebufDelete_of_lt (h : l.Fits) {n : ℕ} (hn : n ≤ l.len - l.pos)
    (hroom : l.len + n < l.bufsize) :
    ∃ nul rest, l.read l.len = some nul ∧ linebufDelete l n = some { l with
      buf := some ((l.text.take l.pos ++ l.text.drop (l.pos + n)) ++ nul :: rest)
      len := l.len - n
      updatePos := min l.updatePos l.pos } := by
  have hpos := h.pos
  have hsize : l.bytes.length = l.bufsize := rfl
  obtain ⟨nul, hnul⟩ : ∃ nul, l.read l.len = some nul :=
    ⟨_, List.getElem?_eq_getElem (show l.len < l.bytes.length by omega)⟩
  have hread : l.pos + n + (l.len - l.pos + 1) ≤ l.bufsize := by omega
  set t := (l.bytes.drop (l.pos + n)).take (l.len - l.pos + 1) with htdef
  have ht : t.length = l.len - l.pos + 1 := by
    rw [htdef, List.length_take, List.length_drop]
    omega
  -- what is moved: the text behind the deleted bytes, the NUL and what follows it
  have hdroplen : (l.text.drop (l.pos + n)).length = l.len - l.pos - n := by
    rw [List.length_drop, h.length_text]
    omega
  have hmoved : t = l.text.drop (l.pos + n) ++ nul :: (l.bytes.drop (l.len + 1)).take n := by
    have hcount : l.len - l.pos + 1 - (l.len - l.pos - n) = n + 1 := by omega
    rw [htdef, drop_bytes_eq (by omega) hnul, List.take_append, hdroplen, hcount,
      List.take_of_length_le (by omega), List.take_succ_cons]
  have hwrite : l.pos + t.length ≤ l.bufsize := by omega
  refine ⟨nul, (l.bytes.drop (l.len + 1)).take n ++ l.bytes.drop (l.pos + t.length), hnul, ?_⟩
  have htake : l.bytes.take l.pos = l.text.take l.pos := by
    rw [text, List.take_take, Nat.min_eq_left hpos]
  have hsplice : splice l.bytes l.pos t = (l.text.take l.pos ++ l.text.drop (l.pos + n)) ++
      nul :: ((l.bytes.drop (l.len + 1)).take n ++ l.bytes.drop (l.pos + t.length)) := by
    rw [splice, htake]
    conv_lhs => rw [hmoved]
    simp [hmoved]
  rw [linebufDelete, touch_eq]
  dsimp only
  rw [if_neg (by omega), ← hsplice]
  -- lowering `update_pos` leaves the allocation alone
  have hread' : LineBuf.readRange { l with updatePos := min l.updatePos l.pos } (l.pos + n)
      (l.len - l.pos + 1) = some t := readRange_of_le hread
  have hwrite' : LineBuf.writeRange { l with updatePos := min l.updatePos l.pos } l.pos t =
      some { l with updatePos := min l.updatePos l.pos, buf := some (splice l.bytes l.pos t) } :=
    writeRange_of_le hwrite
  rw [hread']
  simp only [Option.bind_eq_bind, Option.bind_some]
  rw [hwrite']
  rfl

lemma linebufDelete_of_ge (h : l.Fits) {n : ℕ} (hn : n ≤ l.len - l.pos)
    (hroom : l.bufsize ≤ l.len + n) : linebufDelete l n = none := by
  have hpos := h.pos
  have hread : ¬ (l.pos + n + (l.len - l.pos + 1) ≤ l.bufsize) := by omega
  rw [linebufDelete, touch_eq]
  dsimp only
  rw [if_neg (by omega)]
  exact congrArg (fun o => Option.bind o _) (if_neg hread)

/-! ## Reset -/

lemma linebufReset_of_pos (h : 0 < l.bufsize) :
    linebufReset l = some { l with
      buf := some (0 :: l.bytes.drop 1), len := 0, pos := 0, updatePos := 0 } := by
  have hwrite : 0 + [(0 : Byte)].length ≤ (LineBuf.bufsize { l with pos := 0, len := 0 }) := h
  rw [linebufReset]
  exact congrArg (fun o => Option.bind o _) (writeRange_of_le hwrite)

lemma linebufReset_of_zero (h : l.bufsize = 0) : linebufReset l = none := by
  rw [linebufReset]
  exact congrArg (fun o => Option.bind o _) (if_neg (by simp [bufsize, bytes] at h ⊢; exact h))

/-! ## Replacement -/

/-- The length of the longest common prefix. -/
def commonLen : List Byte → List Byte → ℕ
  | a :: as, b :: bs => if a = b then commonLen as bs + 1 else 0
  | _, _ => 0

lemma commonLen_le_left (a b : List Byte) : commonLen a b ≤ a.length := by
  fun_induction commonLen a b with
  | case1 a as bs ih => simpa using ih
  | case2 => exact Nat.zero_le _
  | case3 => exact Nat.zero_le _

lemma take_commonLen (a b : List Byte) : a.take (commonLen a b) = b.take (commonLen a b) := by
  fun_induction commonLen a b with
  | case1 a as bs ih => simpa using ih
  | case2 => rfl
  | case3 => rfl

lemma symbolStart_le (str : List Byte) (i : ℕ) : symbolStart str i ≤ i := by
  induction i with
  | zero => exact le_rfl
  | succ i ih =>
    rw [symbolStart]
    split
    · exact ih.trans (Nat.le_succ i)
    · exact le_rfl

/-- The length of the prefix of `str` that the buffer already holds, up to the start of a symbol. -/
def keptLen (utf8 : Bool) (text str : List Byte) : ℕ :=
  if utf8 then symbolStart str (commonLen text str) else commonLen text str

lemma keptLen_le (utf8 : Bool) (text str : List Byte) :
    keptLen utf8 text str ≤ commonLen text str := by
  rw [keptLen]
  split
  · exact symbolStart_le _ _
  · exact le_rfl

/-- The comparing loop finds the common prefix of the old text and the string. -/
lemma matchLen_eq {l : LineBuf} {prevLen : ℕ} (h : prevLen ≤ l.bufsize) (str : List Byte) (i : ℕ)
    (hi : i ≤ prevLen) :
    matchLen l prevLen str i = some (i + commonLen ((l.bytes.take prevLen).drop i) str) := by
  induction str generalizing i with
  | nil =>
    rw [matchLen]
    cases (l.bytes.take prevLen).drop i <;> rfl
  | cons c str ih =>
    rw [matchLen]
    have hlen : (l.bytes.take prevLen).length = prevLen := by
      rw [List.length_take]
      exact Nat.min_eq_left h
    split
    · rename_i hlt
      have hlt' : i < (l.bytes.take prevLen).length := by omega
      have hread : l.read i = some ((l.bytes.take prevLen).get ⟨i, hlt'⟩) := by
        rw [LineBuf.read, List.get_eq_getElem, List.getElem_take]
        exact List.getElem?_eq_getElem _
      rw [hread, List.drop_eq_getElem_cons hlt']
      simp only [Option.bind_eq_bind, Option.bind_some, List.get_eq_getElem, commonLen]
      by_cases heq : (l.bytes.take prevLen)[i] = c
      · rw [if_neg (not_not.mpr heq), if_pos heq, ih (i + 1) hlt]
        congr 1
        omega
      · rw [if_pos heq, if_neg heq]
        rfl
    · rw [List.drop_eq_nil_of_le (by omega)]
      rfl

/-- Replacing the line stays inside the allocation, but puts no NUL behind the text. -/
lemma setLine_spec (utf8 : Bool) (junk : ℕ → Byte) (h : l.Fits) (str : List Byte) :
    ∃ extra, linebufExtend junk { l with len := 0 } str.length =
        { l with len := 0, buf := some (l.bytes ++ extra) } ∧
      str.length ≤ l.bufsize + extra.length ∧
      setLine utf8 junk l str = some { l with
        buf := some (str ++ (l.bytes ++ extra).drop str.length)
        len := str.length
        pos := min l.pos str.length
        updatePos := keptLen utf8 l.text str } := by
  obtain ⟨extra, hext, hroom⟩ :=
    linebufExtend_spec junk (l := { l with len := 0 }) (Nat.zero_le _) str.length
  have hroom' : str.length ≤ l.bufsize + extra.length := by simpa [bufsize, bytes] using hroom
  refine ⟨extra, hext, hroom', ?_⟩
  have hb : (LineBuf.bytes { l with len := 0 }) = l.bytes := rfl
  rw [hb] at hext
  set b := l.bytes ++ extra with hbdef
  have hblen : b.length = l.bufsize + extra.length := by rw [hbdef, List.length_append]; rfl
  have hlen := h.len
  have htext : b.take l.len = l.text := by
    rw [hbdef, List.take_append_of_le_length hlen, text]
  have hmatch : matchLen { l with len := 0, buf := some b } l.len str 0 =
      some (commonLen l.text str) := by
    rw [matchLen_eq (by rw [bufsize_mk]; omega) str 0 (Nat.zero_le _), bytes_mk, List.drop_zero,
      htext, Nat.zero_add]
  have hle : commonLen l.text str ≤ l.len := by
    have := commonLen_le_left l.text str
    rwa [h.length_text] at this
  have hsplice : splice b 0 str = str ++ b.drop str.length := by
    rw [splice, List.take_zero, List.nil_append, Nat.zero_add]
  rw [setLine, hext]
  dsimp only
  rw [hmatch]
  simp only [Option.bind_eq_bind, Option.bind_some]
  have hnot : ¬ (l.len < commonLen l.text str) := by omega
  rw [if_neg hnot, ← keptLen, writeRange_of_le (by rw [bufsize_mk]; omega), bytes_mk, hsplice]
  simp only [Option.bind_some, Option.pure_def, Option.some.injEq]
  split
  · rw [Nat.min_eq_right (by omega)]
  · rw [Nat.min_eq_left (by omega)]

end Uline
