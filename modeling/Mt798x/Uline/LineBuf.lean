import Mt798x.Lib.Bytes

/-!
# Line buffers

The buffer of an edited line (`struct linebuf` of `uline.c`) and the operations on it.  Every
access of the source to `buf` is an access of the model that is checked: an operation gives `none`
if it reads or writes outside the allocation or through a NULL pointer.

`buf` holds all bytes of the allocation, so `bufsize` is its length.  What `realloc` adds is
indeterminate; the bytes come from `junk`, which every operation that may allocate takes as an
argument.  Allocation succeeds, also for a size of 0.
-/

namespace Uline

open Bytes

/-- A line that is edited. -/
structure LineBuf where
  /-- `none` is the NULL pointer -/
  buf : Option (List Byte) := none
  len : ℕ := 0
  pos : ℕ := 0
  updatePos : ℕ := 0
  prompt : Option (List Byte) := none
  deriving DecidableEq, Repr

namespace LineBuf

/-- The bytes of the allocation. -/
def bytes (l : LineBuf) : List Byte := l.buf.getD []

/-- The size of the allocation. -/
def bufsize (l : LineBuf) : ℕ := l.bytes.length

/-- The text of the line. -/
def text (l : LineBuf) : List Byte := l.bytes.take l.len

/-! ## Checked accesses -/

/-- `buf[i]`. -/
def read (l : LineBuf) (i : ℕ) : Option Byte := l.bytes[i]?

/-- The `n` bytes from offset `off` on. -/
def readRange (l : LineBuf) (off n : ℕ) : Option (List Byte) :=
  if off + n ≤ l.bufsize then some ((l.bytes.drop off).take n) else none

/-- A copy of `chunk` to offset `off`. -/
def writeRange (l : LineBuf) (off : ℕ) (chunk : List Byte) : Option LineBuf :=
  if off + chunk.length ≤ l.bufsize then some { l with buf := some (splice l.bytes off chunk) }
  else none

end LineBuf

/-! ## UTF-8 symbols -/

/-- A continuation byte. -/
def isUtf8Cont (c : Byte) : Bool := c &&& 0xc0 == 0x80

/-- `isspace` in the C locale. -/
def isSpace (c : Byte) : Bool := c == 32 || (9 ≤ c && c ≤ 13)

/-- The start of the symbol in front of `pos`. -/
def utf8MoveLeft (l : LineBuf) : ℕ → Option ℕ
  | 0 => some 0
  | 1 => some 0
  | pos + 2 => do
    let c ← l.read (pos + 1)
    if isUtf8Cont c then utf8MoveLeft l (pos + 1) else some (pos + 1)

/-- The loop of `utf8_move_right` at `pos`, with `n` bytes up to the end of the line. -/
def utf8Right (l : LineBuf) (pos : ℕ) : ℕ → Option ℕ
  | 0 => some pos
  | n + 1 => do
    let c ← l.read pos
    if isUtf8Cont c then utf8Right l (pos + 1) n else some pos

/-- The end of the symbol at `pos`. -/
def utf8MoveRight (l : LineBuf) (pos len : ℕ) : Option ℕ :=
  if pos = len then some pos else utf8Right l (pos + 1) (len - (pos + 1))

/-! ## Changing the text -/

/-- `LINEBUF_CHUNK`. -/
def linebufChunk : ℕ := 64

/-- The bytes `realloc` adds for a request of `size` bytes when `tailroom` are free. -/
def growSize (size tailroom : ℕ) : ℕ :=
  let size := size - tailroom + (linebufChunk - 1)
  size - size % linebufChunk

/-- Makes room for `size` bytes behind the text. -/
def linebufExtend (junk : ℕ → Byte) (l : LineBuf) (size : ℕ) : LineBuf :=
  let tailroom := l.bufsize - l.len
  if l.buf.isSome ∧ size < tailroom then l
  else
    { l with buf := some (l.bytes ++
        (List.range (growSize size tailroom)).map fun i => junk (l.bufsize + i)) }

/-- Lowers `update_pos` to the cursor. -/
def LineBuf.touch (l : LineBuf) : LineBuf :=
  if l.pos < l.updatePos then { l with updatePos := l.pos } else l

/-- Inserts `c` at the cursor. -/
def linebufInsert (junk : ℕ → Byte) (l : LineBuf) (c : List Byte) : Option LineBuf := do
  let l := linebufExtend junk l (c.length + 1)
  let tail := l.len - l.pos
  let l ← if 0 < tail then do
      let t ← l.readRange l.pos tail
      l.writeRange (l.pos + c.length) t
    else l.writeRange (l.pos + c.length) [0]
  let l := l.touch
  let l ← l.writeRange l.pos c
  let l := { l with len := l.len + c.length, pos := l.pos + c.length }
  l.writeRange l.len [0]

/-- Deletes `n` bytes at the cursor.  The `memmove` moves as many bytes as there were behind the
cursor and one more, however many are deleted. -/
def linebufDelete (l : LineBuf) (n : ℕ) : Option LineBuf := do
  let tail := l.len - l.pos
  let l := l.touch
  let n := if tail < n then tail else n
  let t ← l.readRange (l.pos + n) (tail + 1)
  let l ← l.writeRange l.pos t
  return { l with len := l.len - n }

/-- Clears the line. -/
def linebufReset (l : LineBuf) : Option LineBuf := do
  let l := { l with pos := 0, len := 0 }
  let l ← l.writeRange 0 [0]
  return { l with updatePos := 0 }

/-- The loop of `__uline_set_line` that compares the buffer with the rest of the string, from `i`
on. -/
def matchLen (l : LineBuf) (prevLen : ℕ) : List Byte → ℕ → Option ℕ
  | [], i => some i
  | c :: str, i =>
    if i < prevLen then do
      let b ← l.read i
      if b ≠ c then some i else matchLen l prevLen str (i + 1)
    else some i

/-- Moves `i` back to the beginning of a symbol of `str`, which ends with a NUL. -/
def symbolStart (str : List Byte) : ℕ → ℕ
  | 0 => 0
  | i + 1 => if isUtf8Cont (str.getD (i + 1) 0) then symbolStart str i else i + 1

/-- Replaces the line by `str`. -/
def setLine (utf8 : Bool) (junk : ℕ → Byte) (l : LineBuf) (str : List Byte) : Option LineBuf := do
  let prevLen := l.len
  let l := linebufExtend junk { l with len := 0 } str.length
  let i ← matchLen l prevLen str 0
  let i := if prevLen < i then i - 1 else i
  let i := if utf8 then symbolStart str i else i
  let l ← { l with updatePos := i }.writeRange 0 str
  let l := { l with len := str.length }
  return if l.len < l.pos then { l with pos := l.len } else l

/-! ## Moving the cursor -/

/-- One symbol to the left; the `Bool` says whether the cursor moved. -/
def moveLeft (utf8 : Bool) (l : LineBuf) : Option (LineBuf × Bool) :=
  if l.pos = 0 then some (l, false)
  else do
    let p ← if utf8 then utf8MoveLeft l l.pos else some (l.pos - 1)
    return ({ l with pos := p }, true)

/-- One symbol to the right. -/
def moveRight (utf8 : Bool) (l : LineBuf) : Option (LineBuf × Bool) :=
  if l.len ≤ l.pos then some (l, false)
  else do
    let p ← if utf8 then utf8MoveRight l l.pos l.len else some (l.pos + 1)
    return ({ l with pos := p }, true)

/-- The loop `while (pos > 0 && p(buf[pos])) pos--`. -/
def scanLeft (p : Byte → Bool) (l : LineBuf) : ℕ → Option ℕ
  | 0 => some 0
  | pos + 1 => do
    let c ← l.read (pos + 1)
    if p c then scanLeft p l pos else some (pos + 1)

/-- The loop `while (p(buf[pos]) && pos < len) pos++`, with `n` bytes up to the end of the line. -/
def scanRight (p : Byte → Bool) (l : LineBuf) (pos : ℕ) : ℕ → Option ℕ
  | 0 => do
    let _ ← l.read pos
    return pos
  | n + 1 => do
    let c ← l.read pos
    if p c then scanRight p l (pos + 1) n else some pos

/-- To the beginning of the word in front of the cursor. -/
def moveWordLeft (utf8 : Bool) (l : LineBuf) : Option (LineBuf × Bool) := do
  let (l, moved) ← moveLeft utf8 l
  if moved then
    let pos ← scanLeft isSpace l l.pos
    let pos ← scanLeft (fun c => !isSpace c) l pos
    let c ← l.read pos
    let pos := if isSpace c then pos + 1 else pos
    return ({ l with pos := pos }, true)
  else
    return (l, false)

/-- Behind the word at the cursor and the white space that follows it. -/
def moveWordRight (l : LineBuf) : Option (LineBuf × Bool) :=
  if l.pos = l.len then some (l, false)
  else do
    let pos ← scanRight (fun c => !isSpace c) l l.pos (l.len - l.pos)
    let pos ← scanRight isSpace l pos (l.len - pos)
    return ({ l with pos := pos }, true)

/-! ## Deleting symbols and words -/

/-- The length of the symbol at the cursor. -/
def symbolLen (utf8 : Bool) (l : LineBuf) : Option ℕ :=
  if utf8 then do
    let p ← utf8MoveRight l l.pos l.len
    return p - l.pos
  else some 1

/-- Deletes the symbol at the cursor. -/
def deleteSymbol (utf8 : Bool) (l : LineBuf) : Option (LineBuf × Bool) :=
  if l.pos = l.len then some (l, false)
  else do
    let n ← symbolLen utf8 l
    let l ← linebufDelete l n
    return (l, true)

/-- Deletes the word in front of the cursor. -/
def processBackword (utf8 : Bool) (l : LineBuf) : Option (LineBuf × Bool) := do
  let pos := l.pos
  let (l, moved) ← moveWordLeft utf8 l
  if moved then
    let l ← linebufDelete l (pos - l.pos)
    return (l, true)
  else
    return (l, false)

end Uline
