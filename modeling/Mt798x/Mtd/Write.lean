import Mt798x.Mtd.Device

/-!
# Writing an image

`mtd_write` for one device, with erasing and without jffs2 integration: the blocks of an image are
written one after the other, each to the next block that is not reported as bad, which is erased
before.  The size and the type of the device are globals that `mtd_check_open` sets, also when the
helper that writes the recovery flag opens the partition of the flag.
-/

namespace Mtd

/-- How the program ends without returning: with `exit(1)`, or by writing behind a buffer.  `fuel`
stands for a loop that would not end. -/
inductive Stop where
  | exit
  | overflow
  | fuel
  deriving DecidableEq, Repr

/-- The globals that `mtd_check_open` sets. -/
structure Globals where
  mtdsize : ℕ
  erasesize : ℕ
  mtdtype : MtdType
  deriving DecidableEq, Repr

/-- `mtd_check_open` of a device that can be opened. -/
def mtd_check_open (dev : Dev) : Globals := ⟨dev.size, dev.erasesize, dev.type⟩

/-- `mtd_block_is_bad`: the driver knows no block behind the end. -/
def mtd_block_is_bad (g : Globals) (dev : Dev) (offset : ℕ) : Except Stop Bool :=
  if g.mtdtype = .MTD_NANDFLASH then
    if offset < dev.size then .ok (dev.isBad (offset / dev.erasesize)) else .error .exit
  else .ok false

/-- `mtd_erase_block` -/
def mtd_erase_block (W : World) (g : Globals) (dev : Dev) (fd : Fd) (offset : ℕ) : Option Fd :=
  fd.erase W dev offset g.erasesize

/-! ## The recovery flag -/

/-- The partition of the recovery flag and what its hardware refuses. -/
structure Flag where
  dev : Dev
  flash : ℕ → Byte
  world : World

def TPL_RECOVER_MAGIC : List Byte := [0xef, 0xcd, 0xab, 0x89]

def TPL_NO_RECOVER_MAGIC : List Byte := [0, 0, 0, 0]

/-- `mtd_tpl_recoverflag_write`: the partition afterwards, or `none` for a result below zero.  The
buffer has the size that the globals say before the partition is opened. -/
def mtd_tpl_recoverflag_write (g : Globals) (flag : Flag) (recovery_active : Bool) :
    Except Stop (Option Flag) :=
  let es := (mtd_check_open flag.dev).erasesize
  if g.erasesize < max es 4 then .error .overflow
  else
    let args := bytesAt flag.flash 0 es
    let magic := if recovery_active then TPL_RECOVER_MAGIC else TPL_NO_RECOVER_MAGIC
    if args.take 4 = magic then .ok (some flag)
    else
      match (Fd.mk flag.flash 0 []).erase flag.world flag.dev 0 es with
      | none => .ok none
      | some fd =>
        match fd.pwrite flag.world flag.dev (magic ++ args.drop 4) 0 with
        | none => .ok none
        | some (fd, _) => .ok (some { flag with flash := fd.flash })

/-! ## The image -/

/-- What is still to be read of the image, and how much each read delivers at most, less one. -/
structure Input where
  rest : List Byte
  sizes : List ℕ

/-- `read` with room for `n` bytes; a file that has no more to say returns nothing. -/
def Input.read (inp : Input) (n : ℕ) : List Byte × Input :=
  let r := match inp.sizes with
    | [] => n
    | size :: _ => min n (size + 1)
  (inp.rest.take r, ⟨inp.rest.drop r, inp.sizes.tail⟩)

/-- The loop that fills the buffer to `erasesize` bytes. -/
def fillBuf (erasesize : ℕ) : ℕ → Input → List Byte → Input × List Byte
  | 0, inp, buf => (inp, buf)
  | fuel + 1, inp, buf =>
    if buf.length < erasesize then
      let r := inp.read (erasesize - buf.length)
      if r.1 = [] then (r.2, buf) else fillBuf erasesize fuel r.2 (buf ++ r.1)
    else (inp, buf)

/-! ## The write loop -/

/-- The variables of `mtd_write`. -/
structure Wr where
  fd : Fd
  inp : Input
  w : ℕ
  e : ℕ
  skip_bad_blocks : ℕ

/-- The loop that erases the next block. -/
def eraseLoop (W : World) (g : Globals) (dev : Dev) (part_offset buflen : ℕ) :
    ℕ → Wr → Except Stop Wr
  | 0, _ => .error .fuel
  | fuel + 1, s =>
    if s.w + buflen > s.e - s.skip_bad_blocks then
      match mtd_block_is_bad g dev s.e with
      | .error stop => .error stop
      | .ok true =>
        eraseLoop W g dev part_offset buflen fuel
          { s with skip_bad_blocks := s.skip_bad_blocks + g.erasesize, e := s.e + g.erasesize,
                   fd := s.fd.lseek dev (s.fd.pos + g.erasesize) }
      | .ok false =>
        match mtd_erase_block W g dev s.fd (s.e + part_offset) with
        | none => .error .exit
        | some fd =>
          eraseLoop W g dev part_offset buflen fuel { s with fd, e := s.e + g.erasesize }
    else .ok s

/-- The loop of `mtd_write`; `buf` is what the buffer holds already. -/
def writeLoop (W : World) (g : Globals) (dev : Dev) (part_offset : ℕ) :
    ℕ → Wr → List Byte → Except Stop Wr
  | 0, _, _ => .error .fuel
  | fuel + 1, s, buf =>
    let r := fillBuf g.erasesize g.erasesize s.inp buf
    if r.2 = [] then .ok { s with inp := r.1 }
    else
      -- pad the block
      let buf := r.2 ++ List.replicate (g.erasesize - r.2.length) 0xff
      match eraseLoop W g dev part_offset buf.length (dev.size + 1) { s with inp := r.1 } with
      | .error stop => .error stop
      | .ok s =>
        match s.fd.write W dev buf with
        | none => .error .exit
        | some (fd, n) =>
          if n < buf.length then .error .exit
          else writeLoop W g dev part_offset fuel { s with fd, w := s.w + buf.length } []

/-- The recovery flag is written, if there is a partition for it; then the globals are the ones of
that partition. -/
def recoverflag (g : Globals) (recovery_active : Bool) : Option Flag →
    Except Stop (Globals × Option Flag)
  | none => .ok (g, none)
  | some flag =>
    match mtd_tpl_recoverflag_write g flag recovery_active with
    | .error stop => .error stop
    | .ok none => .error .exit
    | .ok (some flag) => .ok (mtd_check_open flag.dev, some flag)

/-- `mtd_write`: `buf` is what the check of the image has read, `inp` the rest of it. -/
def mtd_write (W : World) (dev : Dev) (flash : ℕ → Byte) (flag : Option Flag) (part_offset : ℕ)
    (buf : List Byte) (inp : Input) : Except Stop (Fd × Option Flag) :=
  let g := mtd_check_open dev
  let fd := Fd.mk flash 0 []
  let fd := if part_offset > 0 then fd.lseek dev part_offset else fd
  match recoverflag g true flag with
  | .error stop => .error stop
  | .ok (g, flag) =>
    match writeLoop W g dev part_offset (buf.length + inp.rest.length + 1) ⟨fd, inp, 0, 0, 0⟩ buf with
    | .error stop => .error stop
    | .ok s =>
      match recoverflag g false flag with
      | .error stop => .error stop
      | .ok (_, flag) => .ok (s.fd, flag)

end Mtd
