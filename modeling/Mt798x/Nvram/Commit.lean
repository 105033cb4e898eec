import Mt798x.Lib.Tokens
import Mt798x.Nvram.Table

/-!
# Committing and reopening the NVRAM

`nvram_commit` writes the variables of a handle into its partition: a header of twenty bytes, the
variables as `name=value` strings, and an end of NULs; `nvram_open` looks for the header and reads
the variables back.  The writer leaves out the rest of a chain when a variable does not fit, and
says nothing; the reader refuses a partition that is filled to its last word.

The round trip is decided by what the writer keeps.  The four `sdram_*` variables are an exception,
for their values are also kept in the header and come back from there in one spelling.
-/

namespace Nvram

open Bytes Tokens

def NVRAM_MIN_SPACE : ℕ := 0x8000
def NVRAM_MAGIC : UInt32 := 0x48534C46
def NVRAM_CRC_START_POSITION : ℕ := 9

/-- `sizeof(nvram_header_t)` -/
def HEADER_SIZE : ℕ := 20

/-- `NVRAM_ROUNDUP(x, 4)` -/
def NVRAM_ROUNDUP (x : ℕ) : ℕ := (x + 3) / 4 * 4

/-! ## Checksum -/

/-- `crc8_table` -/
def crc8_table : List Byte :=
  [0x00, 0xF7, 0xB9, 0x4E, 0x25, 0xD2, 0x9C, 0x6B, 0x4A, 0xBD, 0xF3, 0x04,
    0x6F, 0x98, 0xD6, 0x21, 0x94, 0x63, 0x2D, 0xDA, 0xB1, 0x46, 0x08, 0xFF,
    0xDE, 0x29, 0x67, 0x90, 0xFB, 0x0C, 0x42, 0xB5, 0x7F, 0x88, 0xC6, 0x31,
    0x5A, 0xAD, 0xE3, 0x14, 0x35, 0xC2, 0x8C, 0x7B, 0x10, 0xE7, 0xA9, 0x5E,
    0xEB, 0x1C, 0x52, 0xA5, 0xCE, 0x39, 0x77, 0x80, 0xA1, 0x56, 0x18, 0xEF,
    0x84, 0x73, 0x3D, 0xCA, 0xFE, 0x09, 0x47, 0xB0, 0xDB, 0x2C, 0x62, 0x95,
    0xB4, 0x43, 0x0D, 0xFA, 0x91, 0x66, 0x28, 0xDF, 0x6A, 0x9D, 0xD3, 0x24,
    0x4F, 0xB8, 0xF6, 0x01, 0x20, 0xD7, 0x99, 0x6E, 0x05, 0xF2, 0xBC, 0x4B,
    0x81, 0x76, 0x38, 0xCF, 0xA4, 0x53, 0x1D, 0xEA, 0xCB, 0x3C, 0x72, 0x85,
    0xEE, 0x19, 0x57, 0xA0, 0x15, 0xE2, 0xAC, 0x5B, 0x30, 0xC7, 0x89, 0x7E,
    0x5F, 0xA8, 0xE6, 0x11, 0x7A, 0x8D, 0xC3, 0x34, 0xAB, 0x5C, 0x12, 0xE5,
    0x8E, 0x79, 0x37, 0xC0, 0xE1, 0x16, 0x58, 0xAF, 0xC4, 0x33, 0x7D, 0x8A,
    0x3F, 0xC8, 0x86, 0x71, 0x1A, 0xED, 0xA3, 0x54, 0x75, 0x82, 0xCC, 0x3B,
    0x50, 0xA7, 0xE9, 0x1E, 0xD4, 0x23, 0x6D, 0x9A, 0xF1, 0x06, 0x48, 0xBF,
    0x9E, 0x69, 0x27, 0xD0, 0xBB, 0x4C, 0x02, 0xF5, 0x40, 0xB7, 0xF9, 0x0E,
    0x65, 0x92, 0xDC, 0x2B, 0x0A, 0xFD, 0xB3, 0x44, 0x2F, 0xD8, 0x96, 0x61,
    0x55, 0xA2, 0xEC, 0x1B, 0x70, 0x87, 0xC9, 0x3E, 0x1F, 0xE8, 0xA6, 0x51,
    0x3A, 0xCD, 0x83, 0x74, 0xC1, 0x36, 0x78, 0x8F, 0xE4, 0x13, 0x5D, 0xAA,
    0x8B, 0x7C, 0x32, 0xC5, 0xAE, 0x59, 0x17, 0xE0, 0x2A, 0xDD, 0x93, 0x64,
    0x0F, 0xF8, 0xB6, 0x41, 0x60, 0x97, 0xD9, 0x2E, 0x45, 0xB2, 0xFC, 0x0B,
    0xBE, 0x49, 0x07, 0xF0, 0x9B, 0x6C, 0x22, 0xD5, 0xF4, 0x03, 0x4D, 0xBA,
    0xD1, 0x26, 0x68, 0x9F]

/-- `hndcrc8` -/
def hndcrc8 (pdata : List Byte) (crc : Byte) : Byte :=
  pdata.foldl (fun crc b => crc8_table.getD (crc ^^^ b).toNat 0) crc

/-! ## Numbers in text -/

/-- The value of a digit in some base. -/
def digitVal (c : Byte) : ℕ :=
  let n := c.toNat
  if 48 ≤ n ∧ n ≤ 57 then n - 48
  else if 97 ≤ n ∧ n ≤ 122 then n - 87
  else if 65 ≤ n ∧ n ≤ 90 then n - 55
  else 36

/-- A value with its sign as a 32-bit `unsigned long`; out of range it is the largest one. -/
def toULong (neg : Bool) (v : ℕ) : ℕ :=
  if 2 ^ 32 ≤ v then 2 ^ 32 - 1
  else if neg then (2 ^ 32 - v) % 2 ^ 32
  else v

/-- `strtoul(s, NULL, 0)`: blanks, a sign, the base by its mark, and the digits up to the first
character that is none. -/
def strtoul (s : Str) : ℕ :=
  let s := s.dropWhile fun c => c.toNat = 32 ∨ (9 ≤ c.toNat ∧ c.toNat ≤ 13)
  let neg : Bool := s.head? = some 45
  let s := if neg ∨ s.head? = some 43 then s.drop 1 else s
  let hex := s.head? = some 48 ∧ (s[1]? = some 120 ∨ s[1]? = some 88) ∧
    (s[2]?.map digitVal).getD 36 < 16
  let base := if hex then 16 else if s.head? = some 48 then 8 else 10
  let s := if hex then s.drop 2 else s
  toULong neg
    ((s.takeWhile fun c => digitVal c < base).foldl (fun v c => base * v + digitVal c) 0)

/-- A digit of `%X`. -/
def hexDigit (n : ℕ) : Byte := UInt8.ofNat (if n < 10 then 48 + n else 55 + n)

/-- `%0wX` -/
def hexUpper : ℕ → ℕ → Str
  | 0, _ => []
  | w + 1, x => hexUpper w (x / 16) ++ [hexDigit (x % 16)]

/-! ## The header -/

/-- The SDRAM values that the header keeps. -/
structure Sdram where
  init : ℕ
  config : ℕ
  refresh : ℕ
  ncdl : ℕ
  deriving DecidableEq, Repr

def sdram_init : Str := str "sdram_init"
def sdram_config : Str := str "sdram_config"
def sdram_refresh : Str := str "sdram_refresh"
def sdram_ncdl : Str := str "sdram_ncdl"

variable {signed : Bool}

/-- The SDRAM values that `nvram_commit` puts into the header. -/
def sdramOf (tb : Table signed) : Sdram :=
  match nvram_get tb sdram_init, nvram_get tb sdram_config, nvram_get tb sdram_refresh,
      nvram_get tb sdram_ncdl with
  | some init, some config, some refresh, some ncdl =>
    ⟨strtoul init % 0x10000, strtoul config % 0x10000, strtoul refresh % 0x10000, strtoul ncdl⟩
  | _, _, _, _ => ⟨0x419, 0, 0x8040, 0⟩

/-- The header: magic, length, CRC with version and `sdram_init`, `sdram_config` with
`sdram_refresh`, and `sdram_ncdl`. -/
def headerBytes (len : ℕ) (sd : Sdram) (crc : Byte) : List Byte :=
  le32 NVRAM_MAGIC ++ (le32 (UInt32.ofNat len) ++
    (le32 (UInt32.ofNat (crc.toNat + 0x100 + 0x10000 * sd.init)) ++
      (le32 (UInt32.ofNat (sd.config + 0x10000 * sd.refresh)) ++ le32 (UInt32.ofNat sd.ncdl))))

/-- A handle: the mapped partition, where its header is, and the variables. -/
structure Handle (signed : Bool) where
  mmap : List Byte
  offset : ℕ
  table : Table signed

/-- The bytes from the header to the end of the partition. -/
def Handle.space (h : Handle signed) : ℕ := h.mmap.length - h.offset

/-- `header->len` -/
def headerLen (mmap : List Byte) (offset : ℕ) : ℕ := (rd32 (mmap.drop (offset + 4))).toNat

/-- The SDRAM values in the header of a partition. -/
def headerSdram (mmap : List Byte) (offset : ℕ) : Sdram where
  init := (rd32 (mmap.drop (offset + 8))).toNat / 0x10000
  config := (rd32 (mmap.drop (offset + 12))).toNat % 0x10000
  refresh := (rd32 (mmap.drop (offset + 12))).toNat / 0x10000
  ncdl := (rd32 (mmap.drop (offset + 16))).toNat

/-! ## Reading the variables -/

/-- The loop over the `name=value` strings; a string without a `=` ends it. -/
def parse : ℕ → List Byte → List Tuple
  | 0, _ => []
  | fuel + 1, data =>
    let s := data.takeWhile (· ≠ 0)
    if s = [] then []
    else if 61 ∈ s then
      let name := s.takeWhile (· ≠ 61)
      ⟨name, s.drop (name.length + 1)⟩ :: parse fuel (data.drop (s.length + 1))
    else []

/-- The `sdram_*` variables as the header has them. -/
def sdramVars (sd : Sdram) : List Tuple :=
  [⟨sdram_init, str "0x" ++ hexUpper 4 sd.init⟩, ⟨sdram_config, str "0x" ++ hexUpper 4 sd.config⟩,
    ⟨sdram_refresh, str "0x" ++ hexUpper 4 sd.refresh⟩,
    ⟨sdram_ncdl, str "0x" ++ hexUpper 8 sd.ncdl⟩]

/-- `_nvram_rehash` -/
def _nvram_rehash (signed : Bool) (mmap : List Byte) (offset : ℕ) : Table signed :=
  let room := mmap.length - offset
  let data := mmap.drop (offset + HEADER_SIZE)
  setMissing room (setAll room (Table.empty signed) (parse data.length data))
    (sdramVars (headerSdram mmap offset))

/-! ## Writing the variables -/

/-- `sprintf(ptr, "%s=%s", ..)` with its NUL. -/
def entry (t : Tuple) : List Byte := t.name ++ 61 :: (t.value ++ [0])

/-- The strings of some variables. -/
def image (ts : List Tuple) : List Byte := ts.flatMap entry

/-- The loop over one chain, behind the variables already written: it stops at the first variable
that does not leave room for a double NUL. -/
def writeChain (space : ℕ) : List Tuple → List Tuple → List Tuple
  | done, [] => done
  | done, t :: ts =>
    if space < HEADER_SIZE + (image done).length + t.name.length + 1 + t.value.length + 1 + 2 then
      done
    else writeChain space (done ++ [t]) ts

/-- The variables that are written. -/
def written (space : ℕ) (tb : Table signed) : List Tuple :=
  (List.range NVRAM_HASH_SIZE).foldl (fun done i => writeChain space done (tb.chains i)) []

/-- The zero bytes that are put behind the first NUL; the mapping starts at a page. -/
def padding (ptr : ℕ) : ℕ := if ptr % 4 = 0 then 0 else 4 - ptr % 4

/-- `nvram_commit`; `none` when it leaves the mapping.  It returns 0 otherwise. -/
def nvram_commit (h : Handle signed) : Option (Handle signed) :=
  let body := image (written h.space h.table)
  let ptr := HEADER_SIZE + body.length
  let pad := padding (h.offset + ptr + 1)
  let len := NVRAM_ROUNDUP (ptr + 2)
  let sd := sdramOf h.table
  if h.space < ptr + 1 + pad ∨ h.space < len then none
  else
    let data := splice (List.replicate (h.space - HEADER_SIZE) 0xFF) 0
      (body ++ 0 :: List.replicate pad 0)
    let crc := hndcrc8 (data.take (len - HEADER_SIZE))
      (hndcrc8 ((headerBytes len sd 0).drop NVRAM_CRC_START_POSITION) 0xff)
    let mmap := splice h.mmap h.offset (headerBytes len sd crc ++ data)
    some ⟨mmap, h.offset, _nvram_rehash signed mmap h.offset⟩

/-! ## Opening -/

/-- The last word at which the magic is looked for, in the arithmetic of a 32-bit `size_t`. -/
def lastWord (part_size : ℕ) : ℕ := (part_size + 2 ^ 32 - NVRAM_MIN_SPACE) % 2 ^ 32 / 4

/-- The search for the magic; it does not leave the mapping. -/
def magicLoop (mmap : List Byte) : ℕ → ℕ → Option ℕ
  | 0, _ => none
  | fuel + 1, i =>
    if lastWord mmap.length < i ∨ mmap.length < 4 * i + 4 then none
    else if rd32 (mmap.drop (4 * i)) = NVRAM_MAGIC then some (4 * i)
    else magicLoop mmap fuel (i + 1)

def findMagic (mmap : List Byte) : Option ℕ := magicLoop mmap (mmap.length + 1) 0

/-- `nvram_open` of a mapped partition. -/
def nvram_open (signed : Bool) (mmap : List Byte) (rdonly : Bool) : Option (Handle signed) :=
  (findMagic mmap).bind fun offset =>
    if rd32 (mmap.drop offset) = NVRAM_MAGIC ∧
        (rdonly ∨ headerLen mmap offset < mmap.length - offset) then
      some ⟨mmap, offset, _nvram_rehash signed mmap offset⟩
    else none

/-- The CRC that `do_info` computes. -/
def infoCrc (h : Handle signed) : Byte :=
  hndcrc8 ((h.mmap.drop (h.offset + NVRAM_CRC_START_POSITION)).take
    (headerLen h.mmap h.offset - NVRAM_CRC_START_POSITION)) 0xff

/-- The CRC in `crc_ver_init`. -/
def storedCrc (h : Handle signed) : Byte := h.mmap.getD (h.offset + 8) 0

/-! ## The search -/

section Search

variable {mmap mmap' : List Byte} {offset : ℕ}

/-- A word is the first one that is the magic, and the search gets to it. -/
def IsFirstMagic (mmap : List Byte) (i j : ℕ) : Prop :=
  j ≤ lastWord mmap.length ∧ 4 * j + 4 ≤ mmap.length ∧ rd32 (mmap.drop (4 * j)) = NVRAM_MAGIC ∧
    ∀ k, i ≤ k → k < j → rd32 (mmap.drop (4 * k)) ≠ NVRAM_MAGIC

lemma magicLoop_of_first {i j fuel : ℕ} (hj : IsFirstMagic mmap i j) (hij : i ≤ j)
    (hfuel : j < i + fuel) : magicLoop mmap fuel i = some (4 * j) := by
  obtain ⟨hlast, hlen, hword, hfirst⟩ := hj
  induction fuel generalizing i with
  | zero => omega
  | succ fuel ih =>
    rw [magicLoop, if_neg (by omega)]
    by_cases heq : i = j
    · rw [heq, if_pos hword]
    · rw [if_neg (hfirst i le_rfl (by omega))]
      exact ih (by omega) (by omega) fun k hk hkj => hfirst k (by omega) hkj

lemma first_of_magicLoop {i fuel : ℕ} (h : magicLoop mmap fuel i = some offset) :
    ∃ j, i ≤ j ∧ offset = 4 * j ∧ IsFirstMagic mmap i j := by
  induction fuel generalizing i with
  | zero => exact absurd h (by simp [magicLoop])
  | succ fuel ih =>
    rw [magicLoop] at h
    split at h
    · exact absurd h (by simp)
    · rename_i hin
      rw [not_or] at hin
      split at h
      · rename_i hword
        cases h
        exact ⟨i, le_rfl, rfl, by omega, by omega, hword, fun k hk hki => by omega⟩
      · rename_i hword
        obtain ⟨j, hij, hoff, hlast, hlen, hj, hfirst⟩ := ih h
        refine ⟨j, by omega, hoff, hlast, hlen, hj, fun k hk hkj => ?_⟩
        by_cases hki : k = i
        · rw [hki]
          exact hword
        · exact hfirst k (by omega) hkj

lemma rd32_drop_of_take {k : ℕ} (htake : mmap'.take offset = mmap.take offset)
    (hk : 4 * k + 4 ≤ offset) : rd32 (mmap'.drop (4 * k)) = rd32 (mmap.drop (4 * k)) := by
  have hword : ∀ m : List Byte, (m.drop (4 * k)).take 4 = ((m.take offset).drop (4 * k)).take 4 := by
    intro m
    rw [List.drop_take, List.take_take, Nat.min_eq_left (by omega)]
  rw [← rd32_take_four, ← rd32_take_four (mmap.drop _), hword mmap', hword mmap, htake]

lemma findMagic_of_take (h : findMagic mmap = some offset) (hlen : mmap'.length = mmap.length)
    (htake : mmap'.take offset = mmap.take offset)
    (hmagic : rd32 (mmap'.drop offset) = NVRAM_MAGIC) : findMagic mmap' = some offset := by
  obtain ⟨j, -, rfl, hlast, hroom, -, hfirst⟩ := first_of_magicLoop h
  refine magicLoop_of_first ⟨by rwa [hlen], by rwa [hlen], hmagic, fun k hk hkj => ?_⟩
    (Nat.zero_le j) (by omega)
  rw [rd32_drop_of_take htake (by omega)]
  exact hfirst k hk hkj

end Search

/-! ## What is written -/

section Written

variable {space : ℕ} {tb : Table signed}

@[simp] lemma image_nil : image [] = [] := rfl

lemma image_append (a b : List Tuple) : image (a ++ b) = image a ++ image b := by
  simp [image]

lemma length_le_image (ts : List Tuple) : ts.length ≤ (image ts).length := by
  induction ts with
  | nil => exact le_rfl
  | cons t ts ih =>
    have : (image (t :: ts)).length = (entry t).length + (image ts).length := by simp [image]
    rw [this, List.length_cons, entry, List.length_append, List.length_cons]
    omega

lemma length_entry_le_image {t : Tuple} {ts : List Tuple} (h : t ∈ ts) :
    (entry t).length ≤ (image ts).length := by
  obtain ⟨a, b, rfl⟩ := List.append_of_mem h
  simp only [image, List.flatMap_append, List.flatMap_cons, List.length_append]
  omega

lemma length_entry (t : Tuple) : (entry t).length = t.name.length + 1 + t.value.length + 1 := by
  simp only [entry, List.length_append, List.length_cons, List.length_nil]
  omega

lemma writeChain_spec (space : ℕ) (done chain : List Tuple) :
    ∃ k, writeChain space done chain = done ++ chain.take k := by
  induction chain generalizing done with
  | nil => exact ⟨0, by simp [writeChain]⟩
  | cons t ts ih =>
    rw [writeChain]
    split
    · exact ⟨0, by simp⟩
    · obtain ⟨k, hk⟩ := ih (done ++ [t])
      refine ⟨k + 1, ?_⟩
      rw [hk, List.take_succ_cons, List.append_assoc]
      rfl

lemma writeChain_room {done chain : List Tuple}
    (h : done = [] ∨ HEADER_SIZE + (image done).length + 2 ≤ space) :
    writeChain space done chain = [] ∨
      HEADER_SIZE + (image (writeChain space done chain)).length + 2 ≤ space := by
  induction chain generalizing done with
  | nil => exact h
  | cons t ts ih =>
    rw [writeChain]
    split
    · exact h
    · rename_i hroom
      apply ih
      right
      rw [image_append, List.length_append]
      have : (image [t]).length = t.name.length + 1 + t.value.length + 1 := by
        rw [← length_entry]
        simp [image]
      omega

lemma foldl_writeChain_sublist (is : List ℕ) (done : List Tuple) :
    ∃ l, l.Sublist (is.flatMap tb.chains) ∧
      is.foldl (fun done i => writeChain space done (tb.chains i)) done = done ++ l := by
  induction is generalizing done with
  | nil => exact ⟨[], List.Sublist.refl _, by simp⟩
  | cons i is ih =>
    obtain ⟨k, hk⟩ := writeChain_spec space done (tb.chains i)
    obtain ⟨l, hl, hfold⟩ := ih (done ++ (tb.chains i).take k)
    refine ⟨(tb.chains i).take k ++ l, ?_, ?_⟩
    · rw [List.flatMap_cons]
      exact List.Sublist.append (List.take_sublist k _) hl
    · rw [List.foldl_cons, hk, hfold, List.append_assoc]

lemma written_sublist (space : ℕ) (tb : Table signed) : (written space tb).Sublist tb.toList := by
  obtain ⟨l, hl, hfold⟩ := foldl_writeChain_sublist (List.range NVRAM_HASH_SIZE) []
  rw [written, hfold, List.nil_append]
  exact hl

lemma written_room (space : ℕ) (tb : Table signed) : written space tb = [] ∨
    HEADER_SIZE + (image (written space tb)).length + 2 ≤ space := by
  have hfold : ∀ (is : List ℕ) (done : List Tuple),
      (done = [] ∨ HEADER_SIZE + (image done).length + 2 ≤ space) →
      is.foldl (fun done i => writeChain space done (tb.chains i)) done = [] ∨
        HEADER_SIZE + (image (is.foldl (fun done i => writeChain space done (tb.chains i))
          done)).length + 2 ≤ space := by
    intro is
    induction is with
    | nil => exact fun done h => h
    | cons i is ih => exact fun done h => ih _ (writeChain_room h)
  exact hfold _ [] (Or.inl rfl)

lemma writeChain_of_room {done chain : List Tuple}
    (h : HEADER_SIZE + (image (done ++ chain)).length + 2 ≤ space) :
    writeChain space done chain = done ++ chain := by
  induction chain generalizing done with
  | nil => simp [writeChain]
  | cons t ts ih =>
    have hsplit : done ++ t :: ts = (done ++ [t]) ++ ts := by simp
    have hlen : (image (done ++ t :: ts)).length =
        (image done).length + (entry t).length + (image ts).length := by
      simp only [image, List.flatMap_append, List.flatMap_cons, List.length_append]
      omega
    rw [length_entry] at hlen
    rw [writeChain, if_neg (by omega), hsplit]
    rw [hsplit] at h
    exact ih h

lemma foldl_writeChain_of_room {is : List ℕ} {done : List Tuple}
    (h : HEADER_SIZE + (image (done ++ is.flatMap tb.chains)).length + 2 ≤ space) :
    is.foldl (fun done i => writeChain space done (tb.chains i)) done =
      done ++ is.flatMap tb.chains := by
  induction is generalizing done with
  | nil => simp
  | cons i is ih =>
    rw [List.flatMap_cons, ← List.append_assoc] at h
    have hchain : HEADER_SIZE + (image (done ++ tb.chains i)).length + 2 ≤ space := by
      rw [image_append, List.length_append] at h
      omega
    rw [List.foldl_cons, writeChain_of_room hchain, ih h, List.flatMap_cons, List.append_assoc]

lemma written_of_room (h : HEADER_SIZE + (image tb.toList).length + 2 ≤ space) :
    written space tb = tb.toList := by
  rw [written, foldl_writeChain_of_room (by simpa [Table.toList] using h), List.nil_append]
  rfl

lemma nodup_written (space : ℕ) (tb : Table signed) :
    ((written space tb).map Tuple.name).Nodup :=
  List.Nodup.sublist ((written_sublist space tb).map Tuple.name) (nodup_toList tb)

end Written

/-! ## Reading back what was written -/

/-- A variable that can be written as a string: no NUL, and no `=` in its name. -/
structure Tuple.Clean (t : Tuple) : Prop where
  name_nul : (0 : Byte) ∉ t.name
  name_eq : (61 : Byte) ∉ t.name
  value_nul : (0 : Byte) ∉ t.value

/-- Strings read back as the variables they were written for. -/
lemma parse_image {ts : List Tuple} (hclean : ∀ t ∈ ts, t.Clean) (rest : List Byte) {fuel : ℕ}
    (hfuel : ts.length < fuel) : parse fuel (image ts ++ 0 :: rest) = ts := by
  induction ts generalizing fuel with
  | nil =>
    obtain ⟨fuel, rfl⟩ : ∃ f, fuel = f + 1 := ⟨fuel - 1, by omega⟩
    rw [parse]
    simp [image]
  | cons t ts ih =>
    obtain ⟨fuel, rfl⟩ : ∃ f, fuel = f + 1 := ⟨fuel - 1, by omega⟩
    have ht := hclean t List.mem_cons_self
    have hsplit : image (t :: ts) ++ 0 :: rest =
        (t.name ++ 61 :: t.value) ++ 0 :: (image ts ++ 0 :: rest) := by
      simp [image, entry]
    have hnul : (0 : Byte) ∉ t.name ++ 61 :: t.value := by
      simp only [List.mem_append, List.mem_cons, not_or]
      exact ⟨ht.name_nul, by decide, ht.value_nul⟩
    have hs := takeWhile_append_stop (t := image ts ++ 0 :: rest) hnul
    have hdrop : ((t.name ++ 61 :: t.value) ++ 0 :: (image ts ++ 0 :: rest)).drop
        ((t.name ++ 61 :: t.value).length + 1) = image ts ++ 0 :: rest := by
      rw [← List.drop_drop, List.drop_left]
      rfl
    have hvalue : (t.name ++ 61 :: t.value).drop (t.name.length + 1) = t.value := by
      rw [← List.drop_drop, List.drop_left]
      rfl
    rw [hsplit, parse]
    simp only [hs, hdrop]
    rw [if_neg (by simp), if_pos (by simp), takeWhile_append_stop ht.name_eq, hvalue,
      ih (fun t' ht' => hclean t' (List.mem_cons_of_mem t ht')) (by simpa using hfuel)]

/-! ## The header in the partition -/

section Header

variable {len : ℕ} {sd : Sdram} {crc : Byte} {rest : List Byte}

@[simp] lemma length_headerBytes (len : ℕ) (sd : Sdram) (crc : Byte) :
    (headerBytes len sd crc).length = HEADER_SIZE := rfl

lemma words_headerBytes (len : ℕ) (sd : Sdram) (crc : Byte) (rest : List Byte) :
    rd32 (headerBytes len sd crc ++ rest) = NVRAM_MAGIC ∧
    rd32 ((headerBytes len sd crc ++ rest).drop 4) = UInt32.ofNat len ∧
    rd32 ((headerBytes len sd crc ++ rest).drop 8) =
      UInt32.ofNat (crc.toNat + 0x100 + 0x10000 * sd.init) ∧
    rd32 ((headerBytes len sd crc ++ rest).drop 12) =
      UInt32.ofNat (sd.config + 0x10000 * sd.refresh) ∧
    rd32 ((headerBytes len sd crc ++ rest).drop 16) = UInt32.ofNat sd.ncdl ∧
    (headerBytes len sd crc ++ rest).drop 20 = rest := by
  simp only [headerBytes, List.append_assoc]
  refine ⟨rd32_le32_append _ _, rd32_le32_append _ _, rd32_le32_append _ _,
    rd32_le32_append _ _, rd32_le32_append _ _, rfl⟩

/-- The SDRAM values fit into their fields. -/
structure Sdram.Fits (sd : Sdram) : Prop where
  init : sd.init < 0x10000
  config : sd.config < 0x10000
  refresh : sd.refresh < 0x10000
  ncdl : sd.ncdl < 2 ^ 32

lemma toULong_lt (neg : Bool) (v : ℕ) : toULong neg v < 2 ^ 32 := by
  rw [toULong]
  split
  · omega
  · split
    · exact Nat.mod_lt _ (by decide)
    · omega

lemma strtoul_lt (s : Str) : strtoul s < 2 ^ 32 := toULong_lt _ _

lemma sdramOf_fits (tb : Table signed) : (sdramOf tb).Fits := by
  rw [sdramOf]
  split
  · exact ⟨Nat.mod_lt _ (by decide), Nat.mod_lt _ (by decide), Nat.mod_lt _ (by decide),
      strtoul_lt _⟩
  · exact ⟨by decide, by decide, by decide, by decide⟩

lemma header_of_drop {mmap : List Byte} {offset : ℕ}
    (h : mmap.drop offset = headerBytes len sd crc ++ rest) (hlen : len < 2 ^ 32)
    (hsd : sd.Fits) :
    rd32 (mmap.drop offset) = NVRAM_MAGIC ∧ headerLen mmap offset = len ∧
      headerSdram mmap offset = sd ∧ mmap.drop (offset + HEADER_SIZE) = rest := by
  obtain ⟨h0, h4, h8, h12, h16, h20⟩ := words_headerBytes len sd crc rest
  have hcrc := crc.toNat_lt
  have hi := hsd.init
  have hc := hsd.config
  have hr := hsd.refresh
  have hn := hsd.ncdl
  have hdrop : ∀ k, mmap.drop (offset + k) = (headerBytes len sd crc ++ rest).drop k := by
    intro k
    rw [← List.drop_drop, h]
  refine ⟨by rw [h]; exact h0, ?_, ?_, by rw [HEADER_SIZE, hdrop]; exact h20⟩
  · rw [headerLen, hdrop, h4, UInt32.toNat_ofNat', Nat.mod_eq_of_lt hlen]
  · have e8 : (crc.toNat + 0x100 + 0x10000 * sd.init) % 2 ^ 32 =
        crc.toNat + 0x100 + 0x10000 * sd.init := Nat.mod_eq_of_lt (by omega)
    have e12 : (sd.config + 0x10000 * sd.refresh) % 2 ^ 32 = sd.config + 0x10000 * sd.refresh :=
      Nat.mod_eq_of_lt (by omega)
    rw [headerSdram, hdrop, hdrop, hdrop, h8, h12, h16, UInt32.toNat_ofNat', UInt32.toNat_ofNat',
      UInt32.toNat_ofNat', Nat.mod_eq_of_lt hn, e8, e12,
      show (crc.toNat + 0x100 + 0x10000 * sd.init) / 0x10000 = sd.init by omega,
      show (sd.config + 0x10000 * sd.refresh) % 0x10000 = sd.config by omega,
      show (sd.config + 0x10000 * sd.refresh) / 0x10000 = sd.refresh by omega]

lemma drop_headerBytes (len : ℕ) (sd : Sdram) (crc : Byte) :
    (headerBytes len sd crc).drop NVRAM_CRC_START_POSITION =
      (headerBytes len sd 0).drop NVRAM_CRC_START_POSITION := by
  have hcrc := crc.toNat_lt
  have hword : (le32 (UInt32.ofNat (crc.toNat + 0x100 + 0x10000 * sd.init))).drop 1 =
      (le32 (UInt32.ofNat (0 + 0x100 + 0x10000 * sd.init))).drop 1 := by
    have h1 : (crc.toNat + 0x100 + 0x10000 * sd.init) % 2 ^ 32 / 256 =
        (0 + 0x100 + 0x10000 * sd.init) % 2 ^ 32 / 256 := by omega
    have h2 : (crc.toNat + 0x100 + 0x10000 * sd.init) % 2 ^ 32 / 65536 =
        (0 + 0x100 + 0x10000 * sd.init) % 2 ^ 32 / 65536 := by omega
    have h3 : (crc.toNat + 0x100 + 0x10000 * sd.init) % 2 ^ 32 / 16777216 =
        (0 + 0x100 + 0x10000 * sd.init) % 2 ^ 32 / 16777216 := by omega
    simp only [le32, List.drop_succ_cons, List.drop_zero, UInt32.toNat_ofNat', h1, h2, h3]
  exact congrArg (fun w => w ++ (le32 (UInt32.ofNat (sd.config + 0x10000 * sd.refresh)) ++
    le32 (UInt32.ofNat sd.ncdl))) hword

lemma getD_headerBytes (len : ℕ) (sd : Sdram) (crc : Byte) (rest : List Byte) :
    (headerBytes len sd crc ++ rest).getD 8 0 = crc := by
  have hcrc := crc.toNat_lt
  show UInt8.ofNat (UInt32.ofNat (crc.toNat + 0x100 + 0x10000 * sd.init)).toNat = crc
  apply UInt8.toNat_inj.mp
  rw [UInt8.toNat_ofNat', UInt32.toNat_ofNat']
  omega

end Header

/-! ## The round trip -/

/-- A handle as `nvram_open` makes it: its header is where the magic is found first, and the size
of the partition has been read as an `int`. -/
structure Handle.Valid (h : Handle signed) : Prop where
  found : findMagic h.mmap = some h.offset
  size : h.mmap.length < 2 ^ 31

/-- The variables of a handle that are written. -/
def Handle.kept (h : Handle signed) : List Tuple := written h.space h.table

/-- The length that goes into the header. -/
def Handle.newLen (h : Handle signed) : ℕ :=
  NVRAM_ROUNDUP (HEADER_SIZE + (image h.kept).length + 2)

lemma Handle.Valid.offset_le {h : Handle signed} (hv : h.Valid) : h.offset ≤ h.mmap.length := by
  obtain ⟨j, -, hoff, -, hlen, -, -⟩ := first_of_magicLoop hv.found
  omega

/-- What a commit leaves in the partition. -/
structure Committed (h : Handle signed) (mmap : List Byte) (crc : Byte) (data : List Byte) :
    Prop where
  length_eq : mmap.length = h.mmap.length
  take_eq : mmap.take h.offset = h.mmap.take h.offset
  drop_eq : mmap.drop h.offset = headerBytes h.newLen (sdramOf h.table) crc ++ data
  data_eq : ∃ rest, data = image h.kept ++ 0 :: rest
  crc_eq : crc = hndcrc8 (data.take (h.newLen - HEADER_SIZE))
    (hndcrc8 ((headerBytes h.newLen (sdramOf h.table) 0).drop NVRAM_CRC_START_POSITION) 0xff)
  len_le : h.newLen ≤ h.space

lemma committed_of_commit {h h' : Handle signed} (hv : h.Valid) (hc : nvram_commit h = some h') :
    ∃ crc data, Committed h h'.mmap crc data := by
  have hoff := hv.offset_le
  simp only [nvram_commit] at hc
  split at hc
  · exact absurd hc (by simp)
  · rename_i hroom
    rw [not_or] at hroom
    obtain ⟨hroom, hlen⟩ := hroom
    cases hc
    set pad := padding (h.offset + (HEADER_SIZE + (image (written h.space h.table)).length) + 1)
      with hpad
    set data := splice (List.replicate (h.space - HEADER_SIZE) 0xFF) 0
      (image (written h.space h.table) ++ 0 :: List.replicate pad 0) with hdata
    have hchunk : (image (written h.space h.table) ++ 0 :: List.replicate pad 0).length =
        (image (written h.space h.table)).length + 1 + pad := by
      simp only [List.length_append, List.length_cons, List.length_replicate]
      omega
    have hdlen : data.length = h.space - HEADER_SIZE := by
      rw [hdata, length_splice, List.length_replicate]
      rw [hchunk, List.length_replicate]
      omega
    have hspace : h.space = h.mmap.length - h.offset := rfl
    have hnew : ∀ len crc, h.offset + (headerBytes len (sdramOf h.table) crc ++ data).length =
        h.mmap.length := by
      intro len crc
      rw [List.length_append, length_headerBytes, hdlen]
      omega
    refine ⟨_, data, ⟨?_, ?_, ?_, ?_, rfl, by simpa [Handle.newLen, Handle.kept] using hlen⟩⟩
    · exact length_splice (hnew _ _).le
    · exact take_splice_of_le le_rfl hoff
    · refine (drop_splice_self hoff).trans ?_
      rw [List.drop_eq_nil_of_le (hnew _ _).ge, List.append_nil]
      rfl
    · refine ⟨List.replicate pad 0 ++ (List.replicate (h.space - HEADER_SIZE) 0xFF).drop
        (0 + (image (written h.space h.table) ++ 0 :: List.replicate pad 0).length), ?_⟩
      rw [hdata, splice, List.take_zero, List.nil_append, List.append_assoc, List.cons_append]
      rfl

lemma nvram_commit_of_words {h : Handle signed} (hoff : h.offset % 4 = 0) (hword : h.space % 4 = 0)
    (hmin : 24 ≤ h.space) : ∃ h', nvram_commit h = some h' := by
  have hroom : HEADER_SIZE + (image (written h.space h.table)).length + 2 ≤ h.space := by
    rcases written_room h.space h.table with hnil | hroom
    · rw [hnil, image_nil, HEADER_SIZE]
      simp only [List.length_nil]
      omega
    · exact hroom
  simp only [nvram_commit]
  rw [if_neg]
  · exact ⟨_, rfl⟩
  · rw [padding, NVRAM_ROUNDUP, not_or]
    split <;> omega

@[simp] lemma length_hexUpper (w x : ℕ) : (hexUpper w x).length = w := by
  induction w generalizing x with
  | zero => rfl
  | succ w ih => rw [hexUpper, List.length_append, ih, List.length_singleton]

lemma nodup_sdramVars (sd : Sdram) : ((sdramVars sd).map Tuple.name).Nodup := by
  show ([sdram_init, sdram_config, sdram_refresh, sdram_ncdl] : List Str).Nodup
  decide

lemma length_sdramVars {sd : Sdram} {t : Tuple} (ht : t ∈ sdramVars sd) :
    t.value.length + 1 ≤ 11 := by
  simp only [sdramVars, List.mem_cons, List.not_mem_nil, or_false] at ht
  rcases ht with rfl | rfl | rfl | rfl <;>
    simp [show (str "0x").length = 2 from rfl]

section RoundTrip

variable {h : Handle signed} {mmap data : List Byte} {crc : Byte}

/-- The variables of a committed partition: those that were written, and the `sdram_*` variables
of the header where they are missing. -/
lemma nvram_get_rehash (hm : Committed h mmap crc data) (hv : h.Valid)
    (hclean : ∀ t ∈ h.table.toList, t.Clean) (n : Str) :
    nvram_get (_nvram_rehash signed mmap h.offset) n =
      (lookup n h.kept).or (lookup n (sdramVars (sdramOf h.table))) := by
  obtain ⟨rest, hdata⟩ := hm.data_eq
  have hspace : h.space = h.mmap.length - h.offset := rfl
  have hlen : h.newLen ≤ h.space := hm.len_le
  have hmin : 22 + (image h.kept).length ≤ h.newLen := by
    rw [Handle.newLen, NVRAM_ROUNDUP, HEADER_SIZE]
    omega
  have hsmall : h.newLen < 2 ^ 32 := by
    have := hv.size
    omega
  obtain ⟨-, -, hsd, hdrop⟩ := header_of_drop hm.drop_eq hsmall (sdramOf_fits h.table)
  have hparse : parse data.length data = h.kept := by
    have hcount := length_le_image h.kept
    have hfuel : h.kept.length < (image h.kept ++ 0 :: rest).length := by
      rw [List.length_append, List.length_cons]
      omega
    rw [hdata]
    exact parse_image (fun t ht => hclean t ((written_sublist _ _).subset ht)) rest hfuel
  have hroom : ∀ t ∈ h.kept, t.value.length + 1 ≤ mmap.length - h.offset := by
    intro t ht
    have hle := length_entry_le_image ht
    rw [length_entry] at hle
    rw [hm.length_eq]
    omega
  have hroom' : ∀ t ∈ sdramVars (sdramOf h.table), t.value.length + 1 ≤ mmap.length - h.offset := by
    intro t ht
    have := length_sdramVars ht
    rw [hm.length_eq]
    omega
  simp only [_nvram_rehash]
  rw [hdrop, hsd, hparse, nvram_get_setMissing hroom' (nodup_sdramVars _),
    nvram_get_setAll hroom (nodup_written _ _)]
  have hempty : nvram_get (Table.empty signed) n = none := rfl
  rw [hempty, Option.or_none]

/-- The checksum of a committed partition is right. -/
lemma infoCrc_committed (hm : Committed h mmap crc data) (hv : h.Valid) (tb : Table signed) :
    infoCrc ⟨mmap, h.offset, tb⟩ = storedCrc ⟨mmap, h.offset, tb⟩ := by
  have hspace : h.space = h.mmap.length - h.offset := rfl
  have hmin : HEADER_SIZE ≤ h.newLen := by
    rw [Handle.newLen, NVRAM_ROUNDUP, HEADER_SIZE]
    omega
  have hsmall : h.newLen < 2 ^ 32 := by
    have := hv.size
    have := hm.len_le
    omega
  obtain ⟨-, hlen, -, -⟩ := header_of_drop hm.drop_eq hsmall (sdramOf_fits h.table)
  have hstored : mmap.getD (h.offset + 8) 0 = crc := by
    rw [List.getD_eq_getElem?_getD, ← List.getElem?_drop, hm.drop_eq,
      ← List.getD_eq_getElem?_getD, getD_headerBytes]
  have htail : (headerBytes h.newLen (sdramOf h.table) crc).drop NVRAM_CRC_START_POSITION =
      (headerBytes h.newLen (sdramOf h.table) 0).drop NVRAM_CRC_START_POSITION :=
    drop_headerBytes _ _ _
  have htl : ((headerBytes h.newLen (sdramOf h.table) 0).drop NVRAM_CRC_START_POSITION).length =
      11 := rfl
  have hsplit : (mmap.drop (h.offset + NVRAM_CRC_START_POSITION)).take
      (h.newLen - NVRAM_CRC_START_POSITION) =
      (headerBytes h.newLen (sdramOf h.table) 0).drop NVRAM_CRC_START_POSITION ++
        data.take (h.newLen - HEADER_SIZE) := by
    rw [← List.drop_drop, hm.drop_eq, List.drop_append_of_le_length (by
      rw [length_headerBytes]; decide), htail, List.take_append, htl,
      List.take_of_length_le (by
        rw [htl, NVRAM_CRC_START_POSITION]
        rw [HEADER_SIZE] at hmin
        omega),
      show h.newLen - NVRAM_CRC_START_POSITION - 11 = h.newLen - HEADER_SIZE by
        rw [NVRAM_CRC_START_POSITION, HEADER_SIZE]
        omega]
  rw [infoCrc, storedCrc]
  dsimp only
  rw [hlen, hsplit, hstored, hm.crc_eq, hndcrc8, List.foldl_append]
  rfl

/-- A committed partition can be opened for writing when it is not filled to the last word. -/
lemma nvram_open_committed (hm : Committed h mmap crc data) (hv : h.Valid) :
    nvram_open signed mmap false =
      if h.newLen < h.space then some ⟨mmap, h.offset, _nvram_rehash signed mmap h.offset⟩
      else none := by
  have hspace : h.space = h.mmap.length - h.offset := rfl
  have hsmall : h.newLen < 2 ^ 32 := by
    have := hv.size
    have := hm.len_le
    omega
  obtain ⟨hmagic, hlen, -, -⟩ := header_of_drop hm.drop_eq hsmall (sdramOf_fits h.table)
  have hfound := findMagic_of_take hv.found hm.length_eq hm.take_eq hmagic
  rw [nvram_open, hfound, Option.bind_some, hlen, hm.length_eq, ← hspace]
  simp [hmagic]

/-- The claim of a commit: the partition opens for writing, with the variables of the handle and a
right checksum. -/
def RoundTrip (h h' : Handle signed) : Prop :=
  ∃ h2, nvram_open signed h'.mmap false = some h2 ∧
    (∀ n, nvram_get h2.table n = nvram_get h.table n) ∧ infoCrc h2 = storedCrc h2

/-- The variables fit: the partition is not filled to its last word, and a variable that finds no
room is an `sdram_*` variable in the spelling of the header. -/
def Handle.Fits (h : Handle signed) : Prop :=
  h.newLen < h.space ∧
    ∀ t ∈ h.table.toList, t ∉ h.kept → t ∈ sdramVars (sdramOf h.table)

/-- The variables that come back are those of the handle when the lost ones are in the header; the
four names of the header are names of the handle. -/
lemma lookup_kept_iff
    (hsd : ∀ t ∈ sdramVars (sdramOf h.table), nvram_get h.table t.name ≠ none) :
    (∀ n, (lookup n h.kept).or (lookup n (sdramVars (sdramOf h.table))) = nvram_get h.table n) ↔
      ∀ t ∈ h.table.toList, t ∉ h.kept → t ∈ sdramVars (sdramOf h.table) := by
  have hkept : (h.kept.map Tuple.name).Nodup := nodup_written _ _
  have hsub := (written_sublist h.space h.table).subset
  constructor
  · intro hall t ht hlost
    have hn := hall t.name
    have hin : nvram_get h.table t.name = some t.value := mem_toList_iff_get.mp ht
    rw [hin, Option.or_eq_some_iff] at hn
    rcases hn with hn | ⟨-, hn⟩
    · rw [lookup_eq_some_iff hkept] at hn
      exact absurd hn hlost
    · rwa [lookup_eq_some_iff (nodup_sdramVars _)] at hn
  · intro hlost n
    cases hn : nvram_get h.table n with
    | none =>
      have hnot : lookup n h.kept = none := by
        rw [lookup_eq_none_iff]
        intro hmem
        obtain ⟨t, ht, rfl⟩ := List.mem_map.mp hmem
        rw [nvram_get_eq_lookup, lookup_eq_none_iff] at hn
        exact hn (List.mem_map_of_mem (hsub ht))
      have hnot' : lookup n (sdramVars (sdramOf h.table)) = none := by
        rw [lookup_eq_none_iff]
        intro hmem
        obtain ⟨t, ht, rfl⟩ := List.mem_map.mp hmem
        exact hsd t ht hn
      rw [hnot, hnot']
      rfl
    | some v =>
      have hin : (⟨n, v⟩ : Tuple) ∈ h.table.toList := mem_toList_iff_get.mpr hn
      rw [Option.or_eq_some_iff]
      by_cases hk : (⟨n, v⟩ : Tuple) ∈ h.kept
      · left
        rwa [lookup_eq_some_iff hkept]
      · right
        refine ⟨?_, ?_⟩
        · rw [lookup_eq_none_iff]
          intro hmem
          obtain ⟨t, ht, hname⟩ := List.mem_map.mp hmem
          have heq : t = ⟨n, v⟩ := by
            refine List.inj_on_of_nodup_map (nodup_toList h.table) (hsub ht) hin ?_
            exact hname
          rw [heq] at ht
          exact hk ht
        · rw [lookup_eq_some_iff (nodup_sdramVars _)]
          exact hlost _ hin hk

end RoundTrip

/-! ## A partition of the lowest used size -/

/-- The header of an empty partition, with its magic only. -/
def blank : List Byte := le32 NVRAM_MAGIC ++ List.replicate 0x7FFC 0xFF

/-- The four `sdram_*` variables. -/
def sdramTable : Table true :=
  setAll 0x8000 (Table.empty true) (sdramVars ⟨0x419, 0, 0x8040, 0⟩)

/-- A handle of an empty partition, with the variables of the header and one more. -/
def sample (value : Str) : Handle true := ⟨blank, 0, sdramTable.set (str "a") value⟩

lemma length_blank : blank.length = 0x8000 := by
  rw [blank, List.length_append, List.length_replicate]
  rfl

lemma sample_valid (value : Str) : (sample value).Valid := by
  refine ⟨?_, ?_⟩
  · refine magicLoop_of_first (j := 0) ⟨Nat.zero_le _, ?_, ?_, ?_⟩ le_rfl (by omega)
    · show 4 * 0 + 4 ≤ blank.length
      rw [length_blank]
      omega
    · exact rd32_le32_append _ _
    · intro k _ hk
      omega
  · show blank.length < 2 ^ 31
    rw [length_blank]
    omega

lemma sample_space (value : Str) : (sample value).space = 0x8000 := by
  show blank.length - 0 = 0x8000
  rw [length_blank]

lemma sample_commit (value : Str) : ∃ h', nvram_commit (sample value) = some h' := by
  refine nvram_commit_of_words rfl ?_ ?_
  · rw [sample_space]
  · rw [sample_space]
    omega

instance (t : Tuple) : Decidable t.Clean :=
  decidable_of_iff ((0 : Byte) ∉ t.name ∧ (61 : Byte) ∉ t.name ∧ (0 : Byte) ∉ t.value)
    ⟨fun h => ⟨h.1, h.2.1, h.2.2⟩, fun h => ⟨h.name_nul, h.name_eq, h.value_nul⟩⟩

lemma nvram_get_sdramTable (n : Str) :
    nvram_get sdramTable n = lookup n (sdramVars ⟨0x419, 0, 0x8040, 0⟩) := by
  rw [sdramTable, nvram_get_setAll (by decide) (nodup_sdramVars _)]
  have hempty : nvram_get (Table.empty true) n = none := rfl
  rw [hempty, Option.or_none]

lemma sample_clean {value : Str} (hval : (0 : Byte) ∉ value) :
    ∀ t ∈ (sample value).table.toList, t.Clean := by
  intro t ht
  rcases mem_toList_set ht with rfl | ht
  · exact ⟨show (0 : Byte) ∉ str "a" by decide, show (61 : Byte) ∉ str "a" by decide, hval⟩
  · rw [mem_toList_iff_get, nvram_get_sdramTable, lookup_eq_some_iff (nodup_sdramVars _)] at ht
    have hall : ∀ t ∈ sdramVars ⟨0x419, 0, 0x8040, 0⟩, t.Clean := by decide
    exact hall t ht

lemma sample_sdram (value : Str) : ∀ n ∈ [sdram_init, sdram_config, sdram_refresh, sdram_ncdl],
    nvram_get (sample value).table n ≠ none := by
  intro n hn
  have hne : n ≠ str "a" := by
    revert n
    decide
  show nvram_get (sdramTable.set (str "a") value) n ≠ none
  rw [nvram_get_set, if_neg hne, nvram_get_sdramTable]
  revert n
  decide

/-- A value that `nvram_set` takes and that no commit has room for. -/
def longValue : Str := List.replicate 0x7FF0 120

lemma longValue_lost : (⟨str "a", longValue⟩ : Tuple) ∉ (sample longValue).kept := by
  intro hmem
  have hlen := length_entry_le_image hmem
  have hval : longValue.length = 0x7FF0 := List.length_replicate
  rw [length_entry] at hlen
  dsimp only at hlen
  rcases written_room (sample longValue).space (sample longValue).table with hnil | hroom
  · rw [Handle.kept, hnil] at hmem
    cases hmem
  · rw [sample_space, HEADER_SIZE] at hroom
    rw [Handle.kept, sample_space] at hlen
    omega

set_option maxRecDepth 100000 in
lemma length_image_sample : (image (sample (str "b")).table.toList).length = 85 := by
  decide +kernel

end Nvram
