import Mt798x.Lib.Bytes
import Mt798x.Lib.Crc

/-!
# BCM4908 firmware images

An image is an optional vendor header, an optional cferom, a bootfs that starts with a JFFS2 node,
padding, a rootfs that starts with a UBI header, a tail with a checksum, and an optional vendor
tail; bootfs, padding and rootfs start at multiples of 128 KiB.  `bcm4908img_create` writes such an
image, `bcm4908img_parse` finds its parts, `bcm4908img_extract` copies one of them out.
-/

namespace Bcm4908

open Bytes

/-! ## Checksums -/

/-- `crc32_tbl` -/
def crc32_tbl : List UInt32 := [
    0x00000000, 0x77073096, 0xee0e612c, 0x990951ba, 0x076dc419, 0x706af48f, 0xe963a535,
    0x9e6495a3, 0x0edb8832, 0x79dcb8a4, 0xe0d5e91e, 0x97d2d988, 0x09b64c2b, 0x7eb17cbd,
    0xe7b82d07, 0x90bf1d91, 0x1db71064, 0x6ab020f2, 0xf3b97148, 0x84be41de, 0x1adad47d,
    0x6ddde4eb, 0xf4d4b551, 0x83d385c7, 0x136c9856, 0x646ba8c0, 0xfd62f97a, 0x8a65c9ec,
    0x14015c4f, 0x63066cd9, 0xfa0f3d63, 0x8d080df5, 0x3b6e20c8, 0x4c69105e, 0xd56041e4,
    0xa2677172, 0x3c03e4d1, 0x4b04d447, 0xd20d85fd, 0xa50ab56b, 0x35b5a8fa, 0x42b2986c,
    0xdbbbc9d6, 0xacbcf940, 0x32d86ce3, 0x45df5c75, 0xdcd60dcf, 0xabd13d59, 0x26d930ac,
    0x51de003a, 0xc8d75180, 0xbfd06116, 0x21b4f4b5, 0x56b3c423, 0xcfba9599, 0xb8bda50f,
    0x2802b89e, 0x5f058808, 0xc60cd9b2, 0xb10be924, 0x2f6f7c87, 0x58684c11, 0xc1611dab,
    0xb6662d3d, 0x76dc4190, 0x01db7106, 0x98d220bc, 0xefd5102a, 0x71b18589, 0x06b6b51f,
    0x9fbfe4a5, 0xe8b8d433, 0x7807c9a2, 0x0f00f934, 0x9609a88e, 0xe10e9818, 0x7f6a0dbb,
    0x086d3d2d, 0x91646c97, 0xe6635c01, 0x6b6b51f4, 0x1c6c6162, 0x856530d8, 0xf262004e,
    0x6c0695ed, 0x1b01a57b, 0x8208f4c1, 0xf50fc457, 0x65b0d9c6, 0x12b7e950, 0x8bbeb8ea,
    0xfcb9887c, 0x62dd1ddf, 0x15da2d49, 0x8cd37cf3, 0xfbd44c65, 0x4db26158, 0x3ab551ce,
    0xa3bc0074, 0xd4bb30e2, 0x4adfa541, 0x3dd895d7, 0xa4d1c46d, 0xd3d6f4fb, 0x4369e96a,
    0x346ed9fc, 0xad678846, 0xda60b8d0, 0x44042d73, 0x33031de5, 0xaa0a4c5f, 0xdd0d7cc9,
    0x5005713c, 0x270241aa, 0xbe0b1010, 0xc90c2086, 0x5768b525, 0x206f85b3, 0xb966d409,
    0xce61e49f, 0x5edef90e, 0x29d9c998, 0xb0d09822, 0xc7d7a8b4, 0x59b33d17, 0x2eb40d81,
    0xb7bd5c3b, 0xc0ba6cad, 0xedb88320, 0x9abfb3b6, 0x03b6e20c, 0x74b1d29a, 0xead54739,
    0x9dd277af, 0x04db2615, 0x73dc1683, 0xe3630b12, 0x94643b84, 0x0d6d6a3e, 0x7a6a5aa8,
    0xe40ecf0b, 0x9309ff9d, 0x0a00ae27, 0x7d079eb1, 0xf00f9344, 0x8708a3d2, 0x1e01f268,
    0x6906c2fe, 0xf762575d, 0x806567cb, 0x196c3671, 0x6e6b06e7, 0xfed41b76, 0x89d32be0,
    0x10da7a5a, 0x67dd4acc, 0xf9b9df6f, 0x8ebeeff9, 0x17b7be43, 0x60b08ed5, 0xd6d6a3e8,
    0xa1d1937e, 0x38d8c2c4, 0x4fdff252, 0xd1bb67f1, 0xa6bc5767, 0x3fb506dd, 0x48b2364b,
    0xd80d2bda, 0xaf0a1b4c, 0x36034af6, 0x41047a60, 0xdf60efc3, 0xa867df55, 0x316e8eef,
    0x4669be79, 0xcb61b38c, 0xbc66831a, 0x256fd2a0, 0x5268e236, 0xcc0c7795, 0xbb0b4703,
    0x220216b9, 0x5505262f, 0xc5ba3bbe, 0xb2bd0b28, 0x2bb45a92, 0x5cb36a04, 0xc2d7ffa7,
    0xb5d0cf31, 0x2cd99e8b, 0x5bdeae1d, 0x9b64c2b0, 0xec63f226, 0x756aa39c, 0x026d930a,
    0x9c0906a9, 0xeb0e363f, 0x72076785, 0x05005713, 0x95bf4a82, 0xe2b87a14, 0x7bb12bae,
    0x0cb61b38, 0x92d28e9b, 0xe5d5be0d, 0x7cdcefb7, 0x0bdbdf21, 0x86d3d2d4, 0xf1d4e242,
    0x68ddb3f8, 0x1fda836e, 0x81be16cd, 0xf6b9265b, 0x6fb077e1, 0x18b74777, 0x88085ae6,
    0xff0f6a70, 0x66063bca, 0x11010b5c, 0x8f659eff, 0xf862ae69, 0x616bffd3, 0x166ccf45,
    0xa00ae278, 0xd70dd2ee, 0x4e048354, 0x3903b3c2, 0xa7672661, 0xd06016f7, 0x4969474d,
    0x3e6e77db, 0xaed16a4a, 0xd9d65adc, 0x40df0b66, 0x37d83bf0, 0xa9bcae53, 0xdebb9ec5,
    0x47b2cf7f, 0x30b5ffe9, 0xbdbdf21c, 0xcabac28a, 0x53b39330, 0x24b4a3a6, 0xbad03605,
    0xcdd70693, 0x54de5729, 0x23d967bf, 0xb3667a2e, 0xc4614ab8, 0x5d681b02, 0x2a6f2b94,
    0xb40bbe37, 0xc30c8ea1, 0x5a05df1b, 0x2d02ef8d]

/-- One byte of `bcm4908img_crc32`. -/
def crc32Byte (crc : UInt32) (b : Byte) : UInt32 :=
  crc32_tbl.getD ((crc ^^^ b.toUInt32) &&& 0xff).toNat 0 ^^^ (crc >>> 8)

/-- `bcm4908img_crc32` -/
def bcm4908img_crc32 (crc : UInt32) (buf : List Byte) : UInt32 := buf.foldl crc32Byte crc

/-! ## Files -/

/-- The error numbers of the program: `EIO`, `EPROTO`, `EINVAL`, `ENOENT`. -/
inductive Errno where
  | eio
  | eproto
  | einval
  | enoent
  deriving DecidableEq, Repr

/-- `fread(buf, 1, n, fp)` at an offset: as many bytes as the file has there. -/
def fread (fp : List Byte) (pos n : ℕ) : List Byte := (fp.drop pos).take n

/-- The read loop of the parser and of `bcm4908img_extract`, in at most `fuel` turns: the chunks of
`length` bytes from `pos` on, and how many bytes are left to be read when the file ends. -/
def readChunks (fp : List Byte) : ℕ → ℕ → ℕ → List (List Byte) × ℕ
  | 0, _, length => ([], length)
  | fuel + 1, pos, length =>
    if length = 0 then ([], 0)
    else
      let buf := fread fp pos (min 1024 length)
      if buf.length = 0 then ([], length)
      else
        let r := readChunks fp fuel (pos + buf.length) (length - buf.length)
        (buf :: r.1, r.2)

/-! ## Structures -/

/-- `struct bcm4908img_tail`, in the byte order of the processor. -/
structure Tail where
  crc32 : UInt32
  version : UInt32
  chip_id : UInt32
  flash_type : UInt32
  flags : UInt32
  deriving DecidableEq, Repr

/-- `sizeof(struct bcm4908img_tail)` -/
def tailSize : ℕ := 20

/-- `sizeof(struct linksys_tail)` -/
def linksysSize : ℕ := 256

/-- The little-endian bytes of a tail. -/
def Tail.bytes (tail : Tail) : List Byte :=
  leWords [tail.crc32, tail.version, tail.chip_id, tail.flash_type, tail.flags]

/-- The tail that starts these bytes. -/
def Tail.read (bs : List Byte) : Tail :=
  ⟨rd32 bs, rd32 (bs.drop 4), rd32 (bs.drop 8), rd32 (bs.drop 12), rd32 (bs.drop 16)⟩

/-- `struct bcm4908img_info` -/
structure Info where
  cferom_offset : ℕ
  bootfs_offset : ℕ
  padding_offset : ℕ
  rootfs_offset : ℕ
  tail_offset : ℕ
  crc32 : UInt32
  tail : Tail
  deriving DecidableEq, Repr

/-! ## The parser -/

/-- The step of the searches for bootfs and rootfs. -/
def block : ℕ := 0x20000

def CHK_MAGIC : UInt32 := 0x2a23245e

def UBI_EC_HDR_MAGIC : UInt32 := 0x55424923

/-- `".LINKSYS."` -/
def linksysMagic : List Byte := [0x2e, 0x4c, 0x49, 0x4e, 0x4b, 0x53, 0x59, 0x53, 0x2e]

/-- `be16_to_cpu` of the first two bytes. -/
def be16 (bs : List Byte) : ℕ := 256 * (bs.getD 0 0).toNat + (bs.getD 1 0).toNat

/-- `bcm4908img_is_all_ff` -/
def bcm4908img_is_all_ff (buf : List Byte) : Bool := buf.all (· = 0xff)

/-- The search for bootfs, in at most `fuel` turns. -/
def bootfsLoop (fp : List Byte) (tail_offset : ℕ) : ℕ → ℕ → Except Errno ℕ
  | 0, bootfs_offset => .ok bootfs_offset
  | fuel + 1, bootfs_offset =>
    if bootfs_offset < tail_offset then
      let tmp16 := fread fp bootfs_offset 2
      if tmp16.length ≠ 2 then .error .eio
      else if be16 tmp16 = 0x8519 then .ok bootfs_offset
      else bootfsLoop fp tail_offset fuel (bootfs_offset + block)
    else .ok bootfs_offset

/-- The search for rootfs, which notes the first block that starts with 256 bytes 0xff. -/
def rootfsLoop (fp : List Byte) (tail_offset : ℕ) : ℕ → ℕ → ℕ → Except Errno (ℕ × ℕ)
  | 0, rootfs_offset, padding_offset => .ok (rootfs_offset, padding_offset)
  | fuel + 1, rootfs_offset, padding_offset =>
    if rootfs_offset < tail_offset then
      let length := if padding_offset ≠ 0 then 4 else 256
      let buf := fread fp rootfs_offset length
      if buf.length ≠ length then .error .eio
      else
        let padding_offset := if padding_offset = 0 ∧ bcm4908img_is_all_ff buf then rootfs_offset
          else padding_offset
        if get32 .big buf = UBI_EC_HDR_MAGIC then .ok (rootfs_offset, padding_offset)
        else rootfsLoop fp tail_offset fuel (rootfs_offset + block) padding_offset
    else .ok (rootfs_offset, padding_offset)

/-- The start of cferom: behind a CHK header if there is one. -/
def cferomOf (fp : List Byte) : ℕ :=
  if get32 .big (fread fp 0 1024) = CHK_MAGIC then (get32 .big ((fread fp 0 1024).drop 4)).toNat
  else 0

/-- The file ends with a Linksys tail. -/
def HasLinksys (fp : List Byte) : Prop :=
  ((fread fp (fp.length - 1024) 1024).drop (1024 - linksysSize)).take 9 = linksysMagic

instance (fp : List Byte) : Decidable (HasLinksys fp) := inferInstanceAs (Decidable (_ = _))

/-- The start of the tail: in front of a Linksys tail if there is one. -/
def tailOf (fp : List Byte) : ℕ :=
  if HasLinksys fp then fp.length - tailSize - linksysSize else fp.length - tailSize

/-- `bcm4908img_parse` -/
def bcm4908img_parse (fp : List Byte) : Except Errno Info :=
  if (fread fp 0 1024).length ≠ 1024 then .error .eio
  else
    let cferom_offset := cferomOf fp
    let tail_offset := tailOf fp
    match bootfsLoop fp tail_offset (tail_offset + 1) cferom_offset with
    | .error e => .error e
    | .ok bootfs_offset =>
      if bootfs_offset ≥ tail_offset then .error .eproto
      else
        match rootfsLoop fp tail_offset (tail_offset + 1) bootfs_offset 0 with
        | .error e => .error e
        | .ok (rootfs_offset, padding_offset) =>
          if rootfs_offset ≥ tail_offset then .error .eproto
          else
            let length := tail_offset - cferom_offset
            let r := readChunks fp length cferom_offset length
            let crc32 := r.1.foldl bcm4908img_crc32 0xffffffff
            if r.2 ≠ 0 then .error .eio
            else
              let tail := fread fp (cferom_offset + length) tailSize
              if tail.length ≠ tailSize then .error .eio
              else if crc32 ≠ (Tail.read tail).crc32 then .error .eproto
              else .ok { cferom_offset, bootfs_offset, padding_offset, rootfs_offset, tail_offset,
                         crc32, tail := Tail.read tail }

/-! ## Creating an image -/

/-- An option of `create`: `-f` with the contents of the file, `-a`, `-A`. -/
inductive Arg where
  | file (content : List Byte)
  | align (alignment : ℕ)
  | offset (offset : ℤ)
  deriving DecidableEq, Repr

/-- What has been written, the checksum of it so far, and `cur_offset`. -/
structure Creation where
  trx : List Byte
  crc32 : UInt32
  cur_offset : ℕ
  deriving DecidableEq, Repr

/-- `bcm4908img_create_append_file` -/
def Creation.append_file (st : Creation) (content : List Byte) : Creation :=
  let chunks := (readChunks content content.length 0 content.length).1
  { trx := st.trx ++ chunks.flatten
    crc32 := chunks.foldl bcm4908img_crc32 st.crc32
    cur_offset := st.cur_offset + chunks.flatten.length }

/-- `bcm4908img_create_append_zeros` -/
def Creation.append_zeros (st : Creation) (length : ℕ) : Creation :=
  { st with trx := st.trx ++ List.replicate length 0, cur_offset := st.cur_offset + length }

/-- One option of `bcm4908img_create`. -/
def Creation.arg (st : Creation) : Arg → Creation
  | .file content => st.append_file content
  | .align alignment =>
    if st.cur_offset &&& (alignment - 1) ≠ 0 then
      st.append_zeros (alignment - st.cur_offset % alignment)
    else st
  | .offset offset =>
    let bytes := offset - st.cur_offset
    if bytes < 0 then st else st.append_zeros bytes.toNat

/-- What the options write. -/
def created (args : List Arg) : Creation := args.foldl Creation.arg ⟨[], 0xffffffff, 0⟩

/-- The tail of an image that `create` writes: `WFI_VERSION`, `WFI_NAND128_FLASH` and
`WFI_FLAG_SUPPORTS_BTRM` for the chip 0x4908. -/
def createdTail (crc32 : UInt32) : Tail :=
  { crc32, version := 0x5732, chip_id := 0x4908, flash_type := 3, flags := 2 }

/-- `bcm4908img_create` -/
def bcm4908img_create (args : List Arg) : List Byte :=
  (created args).trx ++ (createdTail (created args).crc32).bytes

/-! ## Extracting a part -/

/-- `bcm4908img_extract` with the argument of `-t`. -/
def bcm4908img_extract (fp : List Byte) (type : Option String) : Except Errno (List Byte) :=
  match bcm4908img_parse fp with
  | .error e => .error e
  | .ok info =>
    let copy (offset length : ℕ) : Except Errno (List Byte) :=
      if length = 0 then .error .einval
      else
        let r := readChunks fp length offset length
        if r.2 ≠ 0 then .error .eio else .ok r.1.flatten
    match type with
    | none => .error .einval
    | some type =>
      if type = "cferom" then
        if info.bootfs_offset - info.cferom_offset = 0 then .error .enoent
        else copy info.cferom_offset (info.bootfs_offset - info.cferom_offset)
      else if type = "bootfs" then
        copy info.bootfs_offset
          ((if info.padding_offset ≠ 0 then info.padding_offset else info.rootfs_offset)
            - info.bootfs_offset)
      else if type = "rootfs" then copy info.rootfs_offset (info.tail_offset - info.rootfs_offset)
      else if type = "firmware" then copy info.bootfs_offset (info.tail_offset - info.bootfs_offset)
      else .error .einval

end Bcm4908
