import Mt798x.Lib.Bytes

/-!
# TFFS on NAND

The flash is a row of sectors with out-of-band data.  Each block starts with a header sector; the
other sectors hold segments of entries.  `scan_mtd` marks the sectors that must not be used,
`find_entry` collects the segments of an entry and remembers the ids of the sectors it has read.
-/

namespace Tffs

open Bytes

def TFFS_ID_END : ℕ := 0xffffffff

def TFFS_SEGMENT_CLEARED : ℕ := 0xffffffff

def TFFS_SECTOR_SIZE : ℕ := 0x800

def TFFS_ENTRY_HEADER_SIZE : ℕ := 0x18

def TFFS_MAXIMUM_SEGMENT_SIZE : ℕ := TFFS_SECTOR_SIZE - TFFS_ENTRY_HEADER_SIZE

def TFFS_SECTORS_PER_PAGE : ℕ := 2

def TFFS_BLOCK_HEADER_MAGIC : ℕ := 0x41564d5f54464653

/-- The contents of the flash, the order of the bytes in its words, and the options `-b` and `-o`. -/
structure Nand where
  num_sectors : ℕ
  /-- The sectors of a block. -/
  perBlock : ℕ
  data : ℕ → List Byte
  oob : ℕ → List Byte
  order : Endian
  read_oob_sector_health : Bool
  perBlock_pos : 0 < perBlock

/-- An access outside of an array. -/
inductive Fault where
  | outside
  deriving DecidableEq, Repr

/-! ## Reading -/

/-- `read_uint32` -/
def read_uint32 (order : Endian) (buf : List Byte) (off : ℕ) : ℕ := (get32 order (buf.drop off)).toNat

/-- `read_uint64` -/
def read_uint64 (order : Endian) (buf : List Byte) (off : ℕ) : ℕ :=
  match order with
  | .little => read_uint32 .little buf off + 2 ^ 32 * read_uint32 .little buf (off + 4)
  | .big => 2 ^ 32 * read_uint32 .big buf off + read_uint32 .big buf (off + 4)

namespace Nand

variable (nand : Nand) (s : ℕ)

/-- The id in the header of a sector. -/
def id : ℕ := read_uint32 nand.order (nand.data s) 0x00

def len : ℕ := read_uint32 nand.order (nand.data s) 0x04

def rev : ℕ := read_uint32 nand.order (nand.data s) 0x0c

/-- The out-of-band data say the same as the header, if they are to be looked at. -/
def consistent : Bool :=
  !nand.read_oob_sector_health ||
    (read_uint32 nand.order (nand.oob s) 0x02 = nand.id s &&
      read_uint32 nand.order (nand.oob s) 0x06 = nand.len s &&
      read_uint32 nand.order (nand.oob s) 0x0a = nand.rev s)

end Nand

/-! ## The scan -/

/-- What the scan leaves behind: the bits of `sectors` and the ids of the sectors it has read. -/
structure Scan where
  sectors : ℕ → Bool
  sector_ids : ℕ → ℕ
  block_ok : Bool
  valid_blocks : ℕ

/-- `sector_mark_bad` -/
def sector_mark_bad (nand : Nand) (sectors : ℕ → Bool) (num : ℕ) : Except Fault (ℕ → Bool) :=
  if num / 8 < (nand.num_sectors + 7) / 8 then .ok (Function.update sectors num false)
  else .error .outside

/-- `check_sector` -/
def check_sector (nand : Nand) (s : ℕ) : Bool :=
  !nand.read_oob_sector_health ||
    ((nand.oob s).getD 0 0 = 0xff && (nand.oob s).getD 1 0 = 0xff)

/-- The loop of `check_block` over the bad sectors that the header lists. -/
def markListed (nand : Nand) (sector : ℕ) : List ℕ → (ℕ → Bool) → Except Fault (ℕ → Bool)
  | [], sectors => .ok sectors
  | i :: is, sectors =>
    let bad := (sector + read_uint64 nand.order (nand.data sector) (0x1c + 8 * i)) % 2 ^ 32
    match sector_mark_bad nand sectors bad with
    | .error f => .error f
    | .ok sectors => markListed nand sector is sectors

/-- `check_block` -/
def check_block (nand : Nand) (sector : ℕ) (sc : Scan) : Except Fault Scan :=
  if !check_sector nand sector then .ok { sc with block_ok := false }
  else
    let sc := { sc with sector_ids := Function.update sc.sector_ids sector (nand.id sector) }
    if read_uint64 nand.order (nand.data sector) 0x00 ≠ TFFS_BLOCK_HEADER_MAGIC then
      .ok { sc with block_ok := false }
    else if read_uint32 nand.order (nand.data sector) 0x0c ≠ TFFS_SECTORS_PER_PAGE then
      .ok { sc with block_ok := false }
    else
      let num_hdr_bad := read_uint32 nand.order (nand.data sector) 0x0c
      match markListed nand sector (List.range num_hdr_bad) sc.sectors with
      | .error f => .error f
      | .ok sectors => .ok { sc with sectors, block_ok := true }

/-- One turn of the loop of `scan_mtd`. -/
def scanSector (nand : Nand) (sc : Scan) (sector : ℕ) : Except Fault Scan :=
  if sector % nand.perBlock = 0 then
    match check_block nand sector sc with
    | .error f => .error f
    | .ok sc =>
      match sector_mark_bad nand sc.sectors sector with
      | .error f => .error f
      | .ok sectors =>
        .ok { sc with sectors, valid_blocks := sc.valid_blocks + if sc.block_ok then 1 else 0 }
  else if !sc.block_ok || !sc.sectors sector || !check_sector nand sector then
    match sector_mark_bad nand sc.sectors sector with
    | .error f => .error f
    | .ok sectors => .ok { sc with sectors }
  else .ok sc

/-- `scan_mtd` -/
def scan_mtd (nand : Nand) : Except Fault Scan :=
  (List.range nand.num_sectors).foldlM (scanSector nand) ⟨fun _ => true, fun _ => 0, false, 0⟩

/-! ## The lookup -/

/-- The header and the value of a sector that belongs to the entry. -/
structure Segment where
  rev : ℕ
  seg : ℕ
  next_seg : ℕ
  val : List Byte
  deriving DecidableEq, Repr

/-- The segment in a sector. -/
def Nand.segment (nand : Nand) (s : ℕ) : Segment where
  rev := nand.rev s
  seg := read_uint32 nand.order (nand.data s) 0x10
  next_seg := read_uint32 nand.order (nand.data s) 0x14
  val := ((nand.data s).drop TFFS_ENTRY_HEADER_SIZE).take (nand.len s)

/-- What `find_entry` has collected. -/
structure Collected where
  rev : ℕ
  num_segments : ℕ
  segments : ℕ → Option (List Byte)

/-- `new_num_segs`, a 32-bit number. -/
def Segment.new_num_segs (r : Segment) : ℕ :=
  if r.next_seg = 0 then (r.seg + 1) % 2 ^ 32 else (r.next_seg + 1) % 2 ^ 32

/-- `find_entry` for one sector of the entry. -/
def Collected.add (c : Collected) (r : Segment) : Except Fault Collected :=
  if r.rev < c.rev then .ok c
  else
    -- a newer revision clears the old data
    let c := if r.rev > c.rev then ⟨r.rev, 0, fun _ => none⟩ else c
    if r.seg = TFFS_SEGMENT_CLEARED then .ok c
    else
      let c := if r.new_num_segs > c.num_segments then
          { c with
            num_segments := r.new_num_segs
            segments := fun i =>
              if c.num_segments ≤ i ∧ i < r.new_num_segs then none else c.segments i }
        else c
      if r.seg < c.num_segments then
        .ok { c with segments := Function.update c.segments r.seg (some r.val) }
      else .error .outside

/-- The loop variables of `find_entry`. -/
structure Walk where
  block_end : Bool
  collected : Collected
  sector_ids : ℕ → ℕ

/-- One turn of the loop of `find_entry`. -/
def findSector (nand : Nand) (sectors : ℕ → Bool) (id : ℕ) (w : Walk) (sector : ℕ) :
    Except Fault Walk :=
  if w.block_end then .ok { w with block_end := sector % nand.perBlock ≠ 0 }
  else if sectors sector then
    if w.sector_ids sector ≠ 0 ∧ w.sector_ids sector = TFFS_ID_END then
      .ok { w with block_end := true }
    else if w.sector_ids sector ≠ 0 ∧ w.sector_ids sector ≠ id then .ok w
    else
      -- the sector is read, and its id remembered
      let w := { w with sector_ids := Function.update w.sector_ids sector (nand.id sector) }
      if !nand.consistent sector then .ok w
      else if nand.id sector = TFFS_ID_END then .ok { w with block_end := true }
      else if nand.len sector > TFFS_MAXIMUM_SEGMENT_SIZE then .ok w
      else if nand.id sector = id then
        match w.collected.add (nand.segment sector) with
        | .error f => .error f
        | .ok collected => .ok { w with collected }
      else .ok w
  else .ok w

/-- The segments from `i` on, one after the other, if none of the next `n` is missing. -/
def concatFrom (segments : ℕ → Option (List Byte)) : ℕ → ℕ → Option (List Byte)
  | 0, _ => some []
  | n + 1, i =>
    match segments i with
    | none => none
    | some val => (concatFrom segments n (i + 1)).map (val ++ ·)

/-- The value that `find_entry` makes of what it has collected. -/
def Collected.value (c : Collected) : Option (List Byte) :=
  if c.num_segments = 0 then none else concatFrom c.segments c.num_segments 0

/-- `find_entry`: the value of the entry, if there is one, and the remembered ids. -/
def find_entry (nand : Nand) (sectors : ℕ → Bool) (sector_ids : ℕ → ℕ) (id : ℕ) :
    Except Fault (Option (List Byte) × (ℕ → ℕ)) :=
  match (List.range nand.num_sectors).foldlM (findSector nand sectors id)
      ⟨false, ⟨0, 0, fun _ => none⟩, sector_ids⟩ with
  | .error f => .error f
  | .ok w => .ok (w.collected.value, w.sector_ids)

/-- Lookups one after the other. -/
def lookups (nand : Nand) (sectors : ℕ → Bool) : List ℕ → (ℕ → ℕ) → Except Fault (ℕ → ℕ)
  | [], sector_ids => .ok sector_ids
  | id :: ids, sector_ids =>
    match find_entry nand sectors sector_ids id with
    | .error f => .error f
    | .ok r => lookups nand sectors ids r.2

end Tffs
