import Mt798x.Lib.Crc
import Mt798x.Lib.FlatImage
import Mt798x.Lib.Guard
import Mt798x.Lib.Halfwords

/-!
# Broadcom whole flash images

A whole flash image keeps the boot loader and the kernel as files of a jffs2 file system whose
blocks start with the entry of the file, and a UBI volume behind them.  The parser finds the files
by walking over the entries of each block, and splits an image at the blocks of the files.  A flash
holds two images, and a flag in the name of the boot loader, or in a partition of its own, says
which of them is active.
-/

namespace Mtdsplit.Wfi

open Bytes Guard FlatImage

def EINVAL : ℤ := 22

def ENOENT : ℤ := 2

/-- A flash device: its contents, and what `mtd_read` of some bytes at an offset returns, which is
an error or zero, and how many bytes it has read.  `cferam` is the name of the boot loader, by the
property `brcm,cferam` or by default. -/
structure Mtd where
  size : ℕ
  erasesize : ℕ
  flash : ℕ → Byte
  mtd_read : ℕ → ℕ → ℤ × ℕ
  host : Endian
  cferam : List Byte
  erasesize_pos : 0 < erasesize
  mtd_read_nonpos : ∀ offs len, (mtd_read offs len).1 ≤ 0

/-- A partition. -/
structure Part where
  name : String
  mask_flags : ℕ
  offset : ℕ
  size : ℕ
  deriving DecidableEq, Repr

/-- `MTD_WRITEABLE` -/
def MTD_WRITEABLE : ℕ := 0x400

def JFFS2_MAGIC_BITMASK : ℕ := 0x1985

def JFFS2_NODETYPE_DIRENT : ℕ := 0xe001

def UBI_MAGIC : UInt32 := 0x55424923

/-- `CFERAM_NAME`, "cferam" -/
def CFERAM_NAME : List Byte := [99, 102, 101, 114, 97, 109]

/-- `KERNEL_NAME`, "vmlinux.lz" -/
def KERNEL_NAME : List Byte := [118, 109, 108, 105, 110, 117, 120, 46, 108, 122]

/-- `OPENWRT_NAME`, "1-openwrt" -/
def OPENWRT_NAME : List Byte := [49, 45, 111, 112, 101, 110, 119, 114, 116]

/-- `CFE_MAGIC_PFX`, "cferam." -/
def CFE_MAGIC_PFX : List Byte := [99, 102, 101, 114, 97, 109, 46]

/-- `SERCOMM_MAGIC_PFX`, "eRcOmM." -/
def SERCOMM_MAGIC_PFX : List Byte := [101, 82, 99, 79, 109, 77, 46]

/-! ## Directory entries

A buffer with a block of the flash, and the place of a `struct jffs2_raw_dirent` in it. -/

section Dirent

variable (host : Endian) (buf : List Byte) (offs : ℕ)

def magic : ℕ := get16 host (buf.drop offs)

def nodetype : ℕ := get16 host (buf.drop (offs + 2))

def totlen : ℕ := (get32 host (buf.drop (offs + 4))).toNat

def ino : UInt32 := get32 host (buf.drop (offs + 20))

def nsize : ℕ := (buf.getD (offs + 28) 0).toNat

def node_crc : UInt32 := get32 host (buf.drop (offs + 32))

/-- The first `n` characters of the name. -/
def name (n : ℕ) : List Byte := (buf.drop (offs + 40)).take n

/-- `jffs2_dirent_crc` -/
def jffs2_dirent_crc : UInt32 := Crc.crc32Le 0 ((buf.drop offs).take 32)

/-- `jffs2_dirent_valid` -/
def jffs2_dirent_valid : Except Fault Bool := do
  touch buf.length (offs + 2)
  if magic host buf offs ≠ JFFS2_MAGIC_BITMASK then .ok false
  else do
    touch buf.length (offs + 4)
    if nodetype host buf offs ≠ JFFS2_NODETYPE_DIRENT then .ok false
    else do
      touch buf.length (offs + 24)
      if ino host buf offs = 0 then .ok false
      else do
        touch buf.length (offs + 36)
        .ok (node_crc host buf offs = jffs2_dirent_crc buf offs)

/-- The place behind an entry, on 32 bits. -/
def next : ℕ := ((offs + totlen host buf offs) % 2 ^ 32 + 3) % 2 ^ 32 / 4 * 4

/-- `kstrndup` of the name, and its length as the entry says. -/
def dupName : Except Fault (List Byte × ℕ) := do
  touch buf.length (offs + 29)
  let text ← text buf (offs + 40) (nsize buf offs)
  .ok (text, nsize buf offs)

end Dirent

/-! ## Finding a file -/

/-- How the walk over a block ends: behind the block, at the file, or at a file that no entry of the
firmware precedes. -/
inductive Walked where
  | next (valid : Bool)
  | found (out : Option (List Byte × ℕ))
  | invalid
  deriving DecidableEq, Repr

/-- The walk over the block in `buf`, on `fuel`.  With `out` the caller asks for the name. -/
def walk (host : Endian) (buf want : List Byte) (out : Bool) :
    ℕ → ℕ → Bool → Except Fault Walked
  | 0, _, _ => .error .endless
  | fuel + 1, block_offs, valid =>
    if buf.length ≤ block_offs then .ok (.next valid)
    else do
      let dirent ← jffs2_dirent_valid host buf block_offs
      if dirent = false then walk host buf want out fuel ((block_offs + 4) % 2 ^ 32) valid
      else do
        touch buf.length (block_offs + 40 + OPENWRT_NAME.length)
        if name buf block_offs OPENWRT_NAME.length = OPENWRT_NAME then
          walk host buf want out fuel (next host buf block_offs) true
        else do
          touch buf.length (block_offs + 40 + want.length)
          if name buf block_offs want.length = want then
            if valid = false then .ok .invalid
            else if out then do
              let dup ← dupName buf block_offs
              .ok (.found (some dup))
            else .ok (.found none)
          else walk host buf want out fuel (next host buf block_offs) valid

/-- The result of `jffs2_find_file`: an error, or the offset of the block with the file, and its
name if it has been asked for. -/
inductive Found where
  | error (rc : ℤ)
  | file (offs : ℕ) (out : Option (List Byte × ℕ))
  deriving DecidableEq, Repr

/-- The loop of `jffs2_find_file` over the blocks from `offs` to `stop`. -/
def findLoop (mtd : Mtd) (want : List Byte) (out : Bool) (fuel offs stop : ℕ) (valid : Bool) :
    Except Fault Found :=
  if stop ≤ offs then .ok (.error (-ENOENT))
  else
    let (rc, retlen) := mtd.mtd_read offs 2
    if rc ≠ 0 ∨ retlen ≠ 2 then findLoop mtd want out fuel (offs + mtd.erasesize) stop valid
    else if get16 mtd.host (slice mtd.flash offs 2) ≠ JFFS2_MAGIC_BITMASK then
      findLoop mtd want out fuel (offs + mtd.erasesize) stop valid
    else
      let (rc, retlen) := mtd.mtd_read offs mtd.erasesize
      if rc ≠ 0 then .ok (.error rc)
      else if retlen ≠ mtd.erasesize then .ok (.error (-EINVAL))
      else do
        match ← walk mtd.host (slice mtd.flash offs mtd.erasesize) want out fuel 0 valid with
        | .next valid => findLoop mtd want out fuel (offs + mtd.erasesize) stop valid
        | .invalid => .ok (.error (-EINVAL))
        | .found name => .ok (.file offs name)
termination_by stop - offs
decreasing_by
  all_goals
    have := mtd.erasesize_pos
    omega

/-- `jffs2_find_file` in the flash between two offsets. -/
def jffs2_find_file (mtd : Mtd) (want : List Byte) (out : Bool) (offs stop fuel : ℕ) :
    Except Fault Found := findLoop mtd want out fuel offs stop false

/-- `ubifs_find` -/
def ubifs_find (mtd : Mtd) (offs stop : ℕ) : Option ℕ :=
  if stop ≤ offs then none
  else
    let (rc, retlen) := mtd.mtd_read offs 4
    if rc ≠ 0 ∨ retlen ≠ 4 then ubifs_find mtd (offs + mtd.erasesize) stop
    else if get32 .big (slice mtd.flash offs 4) = UBI_MAGIC then some offs
    else ubifs_find mtd (offs + mtd.erasesize) stop
termination_by stop - offs
decreasing_by
  all_goals
    have := mtd.erasesize_pos
    omega

/-! ## Splitting an image -/

/-- What a parser returns, and the partitions it leaves. -/
structure Parsed where
  ret : ℤ
  parts : List Part
  deriving DecidableEq, Repr

/-- `parse_bcm_wfi` from the kernel on, for an image of `size` bytes at `off`; `front` is the
partition in front of the kernel, which is looked for from `kernel_off` on. -/
def parseKernel (mtd : Mtd) (off size kernel_off fuel : ℕ) (front : ℕ → List Part) :
    Except Fault Parsed := do
  match ← jffs2_find_file mtd KERNEL_NAME false kernel_off (off + size) fuel with
  | .error ret => .ok ⟨ret, []⟩
  | .file kernel_off _ =>
    match ubifs_find mtd (kernel_off + mtd.erasesize) (off + size) with
    | none => .ok ⟨-ENOENT, []⟩
    | some rootfs_off =>
      let parts := front kernel_off ++
        [⟨"firmware", 0, kernel_off, size - (kernel_off - off)⟩,
          ⟨"kernel", 0, kernel_off, rootfs_off - kernel_off⟩,
          ⟨"ubi", 0, rootfs_off, size - (rootfs_off - off)⟩]
      .ok ⟨parts.length, parts⟩

/-- The name of the boot loader that `parse_bcm_wfi` looks for. -/
def cferamPrefix (mtd : Mtd) : List Byte := (mtd.cferam.take 32).dropLast

/-- `parse_bcm_wfi` -/
def parse_bcm_wfi (mtd : Mtd) (off size : ℕ) (cfe_part : Bool) (fuel : ℕ) : Except Fault Parsed :=
  if cfe_part then do
    match ← jffs2_find_file mtd (cferamPrefix mtd) false off (off + size) fuel with
    | .error ret => .ok ⟨ret, []⟩
    | .file cfe_off _ =>
      parseKernel mtd off size (cfe_off + mtd.erasesize) fuel fun kernel_off =>
        [⟨"cferam", MTD_WRITEABLE, cfe_off, kernel_off - cfe_off⟩]
  else parseKernel mtd off size off fuel fun _ => []

/-! ## Choosing an image -/

/-- `char_to_num` -/
def char_to_num (c : Byte) : ℤ := if 0x30 ≤ c ∧ c ≤ 0x39 then c.toNat - 0x30 else 0

/-- The number of three digits at an offset. -/
def flagNumber (bs : List Byte) (offs : ℕ) : ℤ :=
  char_to_num (bs.getD offs 0) * 100 + char_to_num (bs.getD (offs + 1) 0) * 10 +
    char_to_num (bs.getD (offs + 2) 0)

/-- `cferam_bootflag_value`, whose name is a copy with a NUL at its end. -/
def cferam_bootflag_value (found : Found) : Except Fault ℤ :=
  match found with
  | .file _ (some (text, name_len)) =>
    if 10 ≤ name_len then do
      let name := text ++ [0]
      touch name.length 7
      if name.take 7 = CFE_MAGIC_PFX then do
        touch name.length 10
        .ok (flagNumber name 7)
      else .ok (-ENOENT)
    else .ok (-ENOENT)
  | _ => .ok (-ENOENT)

/-- `sercomm_bootflag_value`, which reads into a buffer of `room` bytes. -/
def bootflagLoop (mtd : Mtd) (room offs : ℕ) : Except Fault ℤ :=
  if mtd.size ≤ offs then .ok (-ENOENT)
  else if room < 10 then .error .outside
  else
    let (rc, retlen) := mtd.mtd_read offs 10
    if rc ≠ 0 ∨ retlen ≠ 10 then bootflagLoop mtd room (offs + mtd.erasesize)
    else
      let buf := slice mtd.flash offs 10
      if buf.take 7 ≠ SERCOMM_MAGIC_PFX then bootflagLoop mtd room (offs + mtd.erasesize)
      else .ok (flagNumber buf 7)
termination_by mtd.size - offs
decreasing_by
  all_goals
    have := mtd.erasesize_pos
    omega

/-- `sercomm_bootflag_value` -/
def sercomm_bootflag_value (mtd : Mtd) (room : ℕ) : Except Fault ℤ := bootflagLoop mtd room 0

/-- One of the two halves of the flash. -/
structure Half where
  name : String
  off : ℕ
  size : ℕ
  deriving DecidableEq, Repr

def img1 (mtd : Mtd) : Half := ⟨"img1", 0, mtd.size / 2⟩

def img2 (mtd : Mtd) : Half := ⟨"img2", mtd.size / 2, mtd.size - mtd.size / 2⟩

/-- The half with the active image, by the flags. -/
def active (mtd : Mtd) (bf1 bf2 : ℤ) : Half := if bf1 ≥ bf2 then img1 mtd else img2 mtd

/-- The other half. -/
def inactive (mtd : Mtd) (bf1 bf2 : ℤ) : Half := if bf1 ≥ bf2 then img2 mtd else img1 mtd

/-- A half as a partition. -/
def Half.part (h : Half) : Part := ⟨h.name, 0, h.off, h.size⟩

/-- The partitions of the active image and the other half, or both halves if the image cannot be
split. -/
def addInactive (mtd : Mtd) (bf1 bf2 : ℤ) (parsed : Parsed) : Parsed :=
  if parsed.ret > 0 then ⟨parsed.ret + 1, parsed.parts ++ [(inactive mtd bf1 bf2).part]⟩
  else ⟨parsed.ret, [(img1 mtd).part, (img2 mtd).part]⟩

/-- `mtdsplit_parse_bcm_wfi_split` and `mtdsplit_parse_ser_wfi` once the flags are known. -/
def splitActive (mtd : Mtd) (bf1 bf2 : ℤ) (cfe_part : Bool) (fuel : ℕ) : Except Fault Parsed := do
  let parsed ← parse_bcm_wfi mtd (active mtd bf1 bf2).off (active mtd bf1 bf2).size cfe_part fuel
  .ok (addInactive mtd bf1 bf2 parsed)

/-- The flags of the two boot loaders. -/
def cferamFlags (mtd : Mtd) (fuel : ℕ) : Except Fault (ℤ × ℤ) := do
  let cfe1 ← jffs2_find_file mtd CFERAM_NAME true 0 (mtd.size / 2) fuel
  let cfe2 ← jffs2_find_file mtd CFERAM_NAME true (mtd.size / 2) mtd.size fuel
  let bf1 ← cferam_bootflag_value cfe1
  let bf2 ← cferam_bootflag_value cfe2
  .ok (bf1, bf2)

/-- `mtdsplit_parse_bcm_wfi_split` -/
def mtdsplit_parse_bcm_wfi_split (mtd : Mtd) (fuel : ℕ) : Except Fault Parsed := do
  let (bf1, bf2) ← cferamFlags mtd fuel
  splitActive mtd bf1 bf2 true fuel

/-- The flags of the partitions `bootflag1` and `bootflag2`.  If they are the same the second one is
erased. -/
def sercommFlags (mtd mtd_bf1 mtd_bf2 : Mtd) : Except Fault (ℤ × ℤ) := do
  let bf1 ← sercomm_bootflag_value mtd_bf1 mtd.erasesize
  let bf2 ← sercomm_bootflag_value mtd_bf2 mtd.erasesize
  if bf1 = bf2 ∧ bf2 ≥ 0 then .ok (bf1, -ENOENT) else .ok (bf1, bf2)

/-- `mtdsplit_parse_ser_wfi`; a partition with a flag may be missing. -/
def mtdsplit_parse_ser_wfi (mtd : Mtd) (mtd_bf1 mtd_bf2 : Option Mtd) (fuel : ℕ) :
    Except Fault Parsed :=
  match mtd_bf1, mtd_bf2 with
  | some mtd_bf1, some mtd_bf2 => do
    let (bf1, bf2) ← sercommFlags mtd mtd_bf1 mtd_bf2
    splitActive mtd bf1 bf2 false fuel
  | _, _ => .ok ⟨-ENOENT, []⟩

end Mtdsplit.Wfi
