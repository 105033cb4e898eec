import Mt798x.Bcm4908.Image
import Mt798x.Mtd.Fix

/-!
# Trx headers

`mtd_fixtrx` of `trx.c`.  The device is opened before the block of the header is looked for, and the
data starts behind the checksum, at an offset that is counted from the start of the device.  Blocks
that are bad are left out of the data, and the check against the size of the device adds words, so
the sum may wrap around.
-/

namespace Mtd.Fix

open Bytes Guard FlatImage

/-- `crc32`, whose table is the one of `bcm4908img`. -/
def crc32 (val : UInt32) (s : List Byte) : UInt32 := Bcm4908.bcm4908img_crc32 val s

/-- `crc32buf` -/
def crc32buf (buf : List Byte) : UInt32 := crc32 0xFFFFFFFF buf

/-- `TRX_CRC32_DATA_OFFSET` -/
def TRX_CRC32_DATA_OFFSET : ℕ := 12

/-- `TRX_CRC32_DATA_SIZE` -/
def TRX_CRC32_DATA_SIZE : ℕ := 16

namespace Trx

variable (s : Setup)

/-- How much of the block at `data_offset` is read. -/
def chunk (data_offset data_size : ℕ) : ℕ :=
  min (s.dev.erasesize - (data_offset &&& (s.dev.erasesize - 1))) data_size

lemma chunk_pos {data_size : ℕ} (data_offset : ℕ) (h : data_size ≠ 0) :
    0 < chunk s data_offset data_size := by
  have hpos := s.dev.erasesize_pos
  have hle : data_offset &&& (s.dev.erasesize - 1) ≤ s.dev.erasesize - 1 := Nat.and_le_right
  rw [chunk]
  omega

/-- The loop that reads the data into a buffer of `size` bytes, and `none` for `exit(1)`.  The
offset of a block is an `int`. -/
def readData (fd : Fd) (size data_offset data_size : ℕ) (buf : List Byte) :
    Except Fault (Option (List Byte)) :=
  if _hzero : data_size = 0 then .ok (some buf)
  else
    let read_block_offset := alignDown s.dev.erasesize data_offset
    let read_chunk := chunk s data_offset data_size
    match mtd_block_is_bad (mtd_check_open s.dev) s.dev (read_block_offset % 2 ^ 32) with
    | .error _ => .ok none
    | .ok true =>
      readData fd size ((data_offset + read_chunk) % 2 ^ s.bits) (data_size - read_chunk) buf
    | .ok false =>
      let res := pread s.dev fd read_chunk data_offset
      if size < buf.length + res.length then .error .outside
      else if res.length ≠ read_chunk then .ok none
      else readData fd size ((data_offset + read_chunk) % 2 ^ s.bits) (data_size - read_chunk)
        (buf ++ res)
termination_by data_size
decreasing_by
  all_goals
    have := chunk_pos s data_offset _hzero
    omega

/-- `trx->len == STORE32_LE(…) && trx->crc32 == STORE32_LE(…)` -/
def fixedAlready (first_block : List Byte) (trx : ℕ) (buf : List Byte) : Except Fault Bool := do
  let len ← field first_block (trx + 4) 4
  if get32 .little len = UInt32.ofNat (buf.length + TRX_CRC32_DATA_OFFSET) then do
    let crc ← field first_block (trx + 8) 4
    .ok (get32 .little crc = crc32buf buf)
  else .ok false

/-- The arguments once the device has been opened. -/
def opened (args : Args) : Args := { args with erasesize := (mtd_check_open s.dev).erasesize }

/-- The offset of the data. -/
def data_offset (args : Args) : ℕ := (args.offset + TRX_CRC32_DATA_OFFSET) % 2 ^ s.bits

/-- How many bytes of the device the data takes. -/
def data_size (args : Args) : ℕ :=
  if args.data_size ≠ 0 then (args.data_size + TRX_CRC32_DATA_SIZE) % 2 ^ s.bits
  else (s.dev.erasesize + 2 ^ s.bits - TRX_CRC32_DATA_OFFSET) % 2 ^ s.bits

/-- The command from the check for a fixed header on. -/
def fixHeader (args : Args) (fd : Fd) (first_block buf : List Byte) : Except Fault Result := do
  let trx := (opened s args).rel
  let fixed ← fixedAlready first_block trx buf
  if fixed then .ok (.ret fd buf)
  else do
    let first_block ← store first_block (trx + 4)
      (le32 (UInt32.ofNat (buf.length + TRX_CRC32_DATA_OFFSET)))
    let first_block ← store first_block (trx + 8) (le32 (crc32buf buf))
    .ok (rewrite s fd (opened s args).block_offset first_block buf)

/-- The command from the check for the magic on. -/
def fixBlock (args : Args) (fd : Fd) (first_block : List Byte) : Except Fault Result := do
  let magic ← field first_block (opened s args).rel 4
  if get32 .big magic ≠ s.opt_trxmagic then .ok (.exit fd)
  else do
    match ← readData s fd (data_size s args) (data_offset s args) (data_size s args) [] with
    | none => .ok (.exit fd)
    | some buf => fixHeader s args fd first_block buf

/-- `mtd_fixtrx` -/
def mtd_fixtrx (args : Args) (fd : Fd) : Except Fault Result :=
  let g := mtd_check_open s.dev
  if g.mtdsize < (data_offset s args + data_size s args) % 2 ^ s.bits then .ok (.exit fd)
  else
    let first_block := pread s.dev fd g.erasesize (opened s args).block_offset
    if first_block.length ≠ g.erasesize then .ok (.exit fd) else fixBlock s args fd first_block

/-! ## Reading the data -/

variable {s} {fd fd' : Fd} {size d n : ℕ} {buf data : List Byte}

lemma next_lt (hes : s.dev.erasesize ≤ s.dev.size) {n : ℕ}
    (h : alignDown s.dev.erasesize d < s.dev.size) :
    d + chunk s d n ≤ s.dev.size + s.dev.erasesize ∧ d + chunk s d n < 2 ^ 32 ∧
      (d + chunk s d n) % 2 ^ s.bits = d + chunk s d n := by
  have hlt : s.dev.size < 2 ^ 31 := s.dev.size_lt
  have hand : d &&& (s.dev.erasesize - 1) ≤ d := Nat.and_le_left
  have hmask : d &&& (s.dev.erasesize - 1) ≤ s.dev.erasesize - 1 := Nat.and_le_right
  have hpos := s.dev.erasesize_pos
  have hpow : 2 ^ 32 ≤ 2 ^ s.bits := Nat.pow_le_pow_right (by decide) s.bits_ge
  have hle : d + chunk s d n ≤ s.dev.size + s.dev.erasesize := by
    rw [alignDown, if_neg s.dev.erasesize_pos.ne'] at h
    rw [chunk]
    omega
  exact ⟨hle, by omega, Nat.mod_eq_of_lt (by omega)⟩

lemma alignDown_lt_of_bad {b : Bool} (hd : d < 2 ^ 32)
    (h : mtd_block_is_bad (mtd_check_open s.dev) s.dev
      (alignDown s.dev.erasesize d % 2 ^ 32) = .ok b) (hb : b = true) :
    alignDown s.dev.erasesize d < s.dev.size := by
  have hle := alignDown_le s.dev.erasesize d
  rw [Nat.mod_eq_of_lt (by omega), mtd_block_is_bad] at h
  split at h
  · split at h
    · assumption
    · cases h
  · cases h
    cases hb

lemma readData_of_bad (fd : Fd) (size : ℕ) (buf : List Byte) (hzero : n ≠ 0)
    (h : mtd_block_is_bad (mtd_check_open s.dev) s.dev
      (alignDown s.dev.erasesize d % 2 ^ 32) = .ok true) :
    readData s fd size d n buf =
      readData s fd size ((d + chunk s d n) % 2 ^ s.bits) (n - chunk s d n) buf := by
  rw [readData, dif_neg hzero]
  simp only [h]

lemma readData_of_good (fd : Fd) (size : ℕ) (buf : List Byte) (hzero : n ≠ 0)
    (h : mtd_block_is_bad (mtd_check_open s.dev) s.dev
      (alignDown s.dev.erasesize d % 2 ^ 32) = .ok false)
    (hin : ¬ size < buf.length + (pread s.dev fd (chunk s d n) d).length)
    (hread : (pread s.dev fd (chunk s d n) d).length = chunk s d n) :
    readData s fd size d n buf =
      readData s fd size ((d + chunk s d n) % 2 ^ s.bits) (n - chunk s d n)
        (buf ++ pread s.dev fd (chunk s d n) d) := by
  rw [readData, dif_neg hzero]
  simp only [h, if_neg hin, if_neg (not_not.mpr hread)]

lemma readData_ok (h : buf.length + n ≤ size) : ∃ r, readData s fd size d n buf = .ok r := by
  fun_induction readData s fd size d n buf with
  | case1 d buf => exact ⟨_, rfl⟩
  | case2 => exact ⟨_, rfl⟩
  | case3 d n buf hzero _ read_chunk _ ih => exact ih (by omega)
  | case4 d n buf hzero _ read_chunk _ res hlt =>
    have hle : read_chunk ≤ n := Nat.min_le_right _ _
    have hres : res.length ≤ read_chunk := (length_pread _ _ _ _).trans_le (Nat.min_le_left _ _)
    omega
  | case5 => exact ⟨_, rfl⟩
  | case6 d n buf hzero _ read_chunk _ res hlt heq ih =>
    have hle : read_chunk ≤ n := Nat.min_le_right _ _
    refine ih ?_
    rw [List.length_append]
    omega

/-- Data that lies on the device can be read. -/
lemma readData_of_le (h : d + n ≤ s.dev.size) (hbuf : buf.length + n ≤ size) :
    ∃ data, readData s fd size d n buf = .ok (some data) := by
  have hlt : s.dev.size < 2 ^ 31 := s.dev.size_lt
  have hpow : 2 ^ 32 ≤ 2 ^ s.bits := Nat.pow_le_pow_right (by decide) s.bits_ge
  fun_induction readData s fd size d n buf with
  | case1 d buf => exact ⟨_, rfl⟩
  | case2 d n buf hzero read_block_offset e he =>
    have hle : read_block_offset ≤ d := alignDown_le _ _
    rw [Nat.mod_eq_of_lt (by omega), mtd_block_is_bad] at he
    split at he
    · rw [if_pos (by omega)] at he
      cases he
    · cases he
  | case3 d n buf hzero _ read_chunk _ ih =>
    have hle : read_chunk ≤ n := Nat.min_le_right _ _
    rw [Nat.mod_eq_of_lt (by omega)] at ih
    rw [Nat.mod_eq_of_lt (by omega)]
    exact ih (by omega) (by omega)
  | case4 d n buf hzero _ read_chunk _ res hover =>
    have hle : read_chunk ≤ n := Nat.min_le_right _ _
    have hres : res.length ≤ read_chunk := (length_pread _ _ _ _).trans_le (Nat.min_le_left _ _)
    omega
  | case5 d n buf hzero _ read_chunk _ res hin hne =>
    have hle : read_chunk ≤ n := Nat.min_le_right _ _
    have hres : res.length = min read_chunk (s.dev.size - d) := length_pread _ _ _ _
    omega
  | case6 d n buf hzero _ read_chunk _ res hin heq ih =>
    have hle : read_chunk ≤ n := Nat.min_le_right _ _
    rw [Nat.mod_eq_of_lt (by omega)] at ih
    rw [Nat.mod_eq_of_lt (by omega)]
    refine ih (by omega) ?_
    rw [List.length_append]
    omega

/-- What is known of a loop that comes to its end. -/
structure Ends (s : Setup) (fd fd' : Fd) (size d n : ℕ) (buf data : List Byte) : Prop where
  le : n ≠ 0 → d + n ≤ s.dev.size + s.dev.erasesize
  length_le : data.length ≤ buf.length + n
  same : (∀ i, d ≤ i → fd'.flash i = fd.flash i) → readData s fd' size d n buf = .ok (some data)

/-- The loop comes to its end without wrapping around, so it depends on what is behind its start
only. -/
lemma readData_ends (hes : s.dev.erasesize ≤ s.dev.size) (fd' : Fd) (hd : d < 2 ^ 32)
    (h : readData s fd size d n buf = .ok (some data)) : Ends s fd fd' size d n buf data := by
  fun_induction readData s fd size d n buf with
  | case1 d buf =>
    cases h
    refine ⟨fun hne => absurd rfl hne, le_rfl, fun _ => ?_⟩
    rw [readData]
    rfl
  | case2 => cases h
  | case3 d n buf hzero _ read_chunk hbad ih =>
    have hle : read_chunk ≤ n := Nat.min_le_right _ _
    obtain ⟨hin, hlt, hmod⟩ := next_lt hes (alignDown_lt_of_bad hd hbad rfl)
    have hmod' : (d + read_chunk) % 2 ^ s.bits = d + read_chunk := hmod
    rw [hmod'] at ih h
    have hrest := ih hlt h
    refine ⟨fun _ => ?_, ?_, fun hsame => ?_⟩
    · have hle' := hrest.le
      omega
    · have hlen := hrest.length_le
      omega
    · rw [readData_of_bad _ _ _ hzero hbad, hmod]
      exact hrest.same fun i hi => hsame i (by omega)
  | case4 => cases h
  | case5 => cases h
  | case6 d n buf hzero _ read_chunk hgood res hin heq ih =>
    have hle : read_chunk ≤ n := Nat.min_le_right _ _
    have hpos : 0 < read_chunk := chunk_pos s d hzero
    have hres : res.length = min read_chunk (s.dev.size - d) := length_pread _ _ _ _
    have hsize : alignDown s.dev.erasesize d < s.dev.size :=
      (alignDown_le _ _).trans_lt (by omega)
    obtain ⟨hend, hlt, hmod⟩ := next_lt hes hsize
    have hmod' : (d + read_chunk) % 2 ^ s.bits = d + read_chunk := hmod
    rw [hmod'] at ih h
    have hrest := ih hlt h
    refine ⟨fun _ => ?_, ?_, fun hsame => ?_⟩
    · have hle' := hrest.le
      omega
    · have hlen := hrest.length_le
      rw [List.length_append] at hlen
      omega
    · -- the next chunk is what it has been
      have hchunk : pread s.dev fd' (chunk s d n) d = pread s.dev fd (chunk s d n) d :=
        bytesAt_congr fun i hi _ => hsame i hi
      rw [readData_of_good _ _ _ hzero hgood (by rwa [hchunk])
        (by rw [hchunk]; exact not_not.mp heq), hmod, hchunk]
      exact hrest.same fun i hi => hsame i (by omega)

/-! ## The header in flash -/

/-- The magic of the header at `offset`. -/
def magicAt (flash : ℕ → Byte) (offset : ℕ) : UInt32 := get32 .big (bytesAt flash offset 4)

/-- Its length. -/
def lenAt (flash : ℕ → Byte) (offset : ℕ) : UInt32 := get32 .little (bytesAt flash (offset + 4) 4)

/-- Its checksum. -/
def crcAt (flash : ℕ → Byte) (offset : ℕ) : UInt32 := get32 .little (bytesAt flash (offset + 8) 4)

/-- The header at `offset` carries the length, which counts three words of the header, and the
checksum of the data. -/
def Carries (offset : ℕ) (flash : ℕ → Byte) (data : List Byte) : Prop :=
  (lenAt flash offset).toNat = data.length + TRX_CRC32_DATA_OFFSET ∧
    crcAt flash offset = crc32buf data

/-- The fields of the header at `offset` for the length and the checksum. -/
def fields (offset i : ℕ) : Prop := offset + 4 ≤ i ∧ i < offset + 12

/-- The fields that the command writes. -/
def patches (data : List Byte) : List Patch :=
  [(4, le32 (UInt32.ofNat (data.length + TRX_CRC32_DATA_OFFSET))), (8, le32 (crc32buf data))]

/-- The magic is in the block of the header, and if it is right and the data is on the device then
so are the length and the checksum. -/
def Fixable (s : Setup) (args : Args) (fd : Fd) : Prop :=
  (data_offset s args + data_size s args) % 2 ^ s.bits ≤ s.dev.size →
    (opened s args).block_offset + s.dev.erasesize ≤ s.dev.size →
      (opened s args).rel + 4 ≤ s.dev.erasesize ∧
        (magicAt fd.flash args.offset = s.opt_trxmagic →
          data_offset s args + data_size s args ≤ s.dev.size →
            (opened s args).rel + 12 ≤ s.dev.erasesize)

/-! ## What the command does -/

variable {args : Args}

lemma opened_add_rel (s : Setup) (args : Args) :
    (opened s args).block_offset + (opened s args).rel = args.offset :=
  (opened s args).block_add_rel

lemma field_block (pos n : ℕ) :
    field (bytesAt fd.flash (opened s args).block_offset s.dev.erasesize)
        ((opened s args).rel + pos) n =
      if (opened s args).rel + pos + n ≤ s.dev.erasesize then
        .ok (bytesAt fd.flash (args.offset + pos) n) else .error .outside := by
  rw [field_bytesAt, ← Nat.add_assoc, opened_add_rel]

lemma field_magic : field (bytesAt fd.flash (opened s args).block_offset s.dev.erasesize)
    (opened s args).rel 4 = if (opened s args).rel + 4 ≤ s.dev.erasesize then
      .ok (bytesAt fd.flash args.offset 4) else .error .outside := by
  rw [field_bytesAt, opened_add_rel]

lemma patches_stop_le (h : (opened s args).rel + 12 ≤ s.dev.erasesize) :
    ∀ p ∈ patches data, (opened s args).rel + p.stop ≤ s.dev.erasesize := by
  simp only [patches, List.forall_mem_cons, List.not_mem_nil, false_imp_iff, implies_true, and_true,
    Patch.stop, length_le32]
  omega

/-- The end of the command. -/
def finish (s : Setup) (args : Args) (fd : Fd) (data : List Byte) : Result :=
  if lenAt fd.flash args.offset = UInt32.ofNat (data.length + TRX_CRC32_DATA_OFFSET) ∧
      crcAt fd.flash args.offset = crc32buf data then .ret fd data
  else rewrite s fd (opened s args).block_offset
    (patchBuf (bytesAt fd.flash (opened s args).block_offset s.dev.erasesize) (opened s args).rel
      (patches data)) data

lemma fixBlock_of_outside (h : ¬ (opened s args).rel + 4 ≤ s.dev.erasesize) :
    fixBlock s args fd (bytesAt fd.flash (opened s args).block_offset s.dev.erasesize) =
      .error .outside := by
  rw [fixBlock, field_magic, if_neg h]
  rfl

lemma fixBlock_of_ne (hin : (opened s args).rel + 4 ≤ s.dev.erasesize)
    (h : magicAt fd.flash args.offset ≠ s.opt_trxmagic) :
    fixBlock s args fd (bytesAt fd.flash (opened s args).block_offset s.dev.erasesize) =
      .ok (.exit fd) := by
  rw [fixBlock, field_magic, if_pos hin, ok_bind]
  exact if_pos h

lemma fixedAlready_eq (h : (opened s args).rel + 8 ≤ s.dev.erasesize) :
    fixedAlready (bytesAt fd.flash (opened s args).block_offset s.dev.erasesize)
        (opened s args).rel data =
      if lenAt fd.flash args.offset = UInt32.ofNat (data.length + TRX_CRC32_DATA_OFFSET) then
        if (opened s args).rel + 12 ≤ s.dev.erasesize then
          .ok (crcAt fd.flash args.offset = crc32buf data) else .error .outside
      else .ok false := by
  rw [fixedAlready, field_block, if_pos h, ok_bind]
  refine ite_congr rfl (fun _ => ?_) fun _ => rfl
  rw [field_block]
  split
  · rfl
  · rfl

/-- The header is fixed already, or it is written again. -/
lemma fixHeader_eq : fixHeader s args fd
    (bytesAt fd.flash (opened s args).block_offset s.dev.erasesize) data =
      if (opened s args).rel + 12 ≤ s.dev.erasesize then .ok (finish s args fd data)
      else .error .outside := by
  have hlen : (bytesAt fd.flash (opened s args).block_offset s.dev.erasesize).length =
      s.dev.erasesize := length_bytesAt _ _ _
  rw [fixHeader]
  by_cases h8 : (opened s args).rel + 8 ≤ s.dev.erasesize
  · rw [fixedAlready_eq h8]
    by_cases h12 : (opened s args).rel + 12 ≤ s.dev.erasesize
    · -- both stores are inside
      have hstores : (store (bytesAt fd.flash (opened s args).block_offset s.dev.erasesize)
            ((opened s args).rel + 4)
            (le32 (UInt32.ofNat (data.length + TRX_CRC32_DATA_OFFSET))) >>= fun first_block =>
          store first_block ((opened s args).rel + 8) (le32 (crc32buf data)) >>= fun first_block =>
            .ok (rewrite s fd (opened s args).block_offset first_block data)) =
          .ok (rewrite s fd (opened s args).block_offset (patchBuf (bytesAt fd.flash
            (opened s args).block_offset s.dev.erasesize) (opened s args).rel (patches data))
              data) := by
        rw [store_eq (by rw [length_le32, hlen]; omega), ok_bind, store_eq, ok_bind]
        · rfl
        · rw [length_splice (by rw [length_le32, hlen]; omega), hlen, length_le32]
          omega
      rw [if_pos h12, if_pos h12, finish]
      by_cases hl : lenAt fd.flash args.offset =
          UInt32.ofNat (data.length + TRX_CRC32_DATA_OFFSET)
      · rw [if_pos hl, ok_bind]
        by_cases hc : crcAt fd.flash args.offset = crc32buf data
        · refine (if_pos (decide_eq_true hc)).trans ?_
          rw [if_pos ⟨hl, hc⟩]
        · refine (if_neg (by simpa using hc)).trans ?_
          rw [if_neg fun h => hc h.2]
          exact hstores
      · rw [if_neg hl, if_neg fun h => hl h.1, ok_bind]
        exact (if_neg (by decide)).trans hstores
    · rw [if_neg h12, if_neg h12]
      split
      · rfl
      · rw [ok_bind]
        refine (if_neg (by decide)).trans ?_
        rw [store_eq (by rw [length_le32, hlen]; omega), ok_bind, store, length_splice
          (by rw [length_le32, hlen]; omega), hlen, length_le32, touch, if_neg (by omega)]
        rfl
  · rw [fixedAlready, field_block, if_neg (by omega), if_neg (by omega)]
    rfl

lemma fixBlock_of_none (hin : (opened s args).rel + 4 ≤ s.dev.erasesize)
    (h : magicAt fd.flash args.offset = s.opt_trxmagic)
    (hr : readData s fd (data_size s args) (data_offset s args) (data_size s args) [] = .ok none) :
    fixBlock s args fd (bytesAt fd.flash (opened s args).block_offset s.dev.erasesize) =
      .ok (.exit fd) := by
  rw [fixBlock, field_magic, if_pos hin, ok_bind]
  refine (if_neg (not_not.mpr h)).trans ?_
  rw [hr]
  rfl

lemma fixBlock_of_some (hin : (opened s args).rel + 4 ≤ s.dev.erasesize)
    (h : magicAt fd.flash args.offset = s.opt_trxmagic)
    (hr : readData s fd (data_size s args) (data_offset s args) (data_size s args) [] =
      .ok (some data)) :
    fixBlock s args fd (bytesAt fd.flash (opened s args).block_offset s.dev.erasesize) =
      if (opened s args).rel + 12 ≤ s.dev.erasesize then .ok (finish s args fd data)
      else .error .outside := by
  rw [fixBlock, field_magic, if_pos hin, ok_bind]
  refine (if_neg (not_not.mpr h)).trans ?_
  rw [hr]
  exact fixHeader_eq

lemma mtd_fixtrx_eq (s : Setup) (args : Args) (fd : Fd) : mtd_fixtrx s args fd =
    if (data_offset s args + data_size s args) % 2 ^ s.bits ≤ s.dev.size then
      if (opened s args).block_offset + s.dev.erasesize ≤ s.dev.size then
        fixBlock s args fd (bytesAt fd.flash (opened s args).block_offset s.dev.erasesize)
      else .ok (.exit fd)
    else .ok (.exit fd) := by
  have hpos := s.dev.erasesize_pos
  rw [mtd_fixtrx]
  by_cases hsum : (data_offset s args + data_size s args) % 2 ^ s.bits ≤ s.dev.size
  · rw [if_pos hsum]
    refine (if_neg (not_lt.mpr hsum)).trans ?_
    by_cases hblock : (opened s args).block_offset + s.dev.erasesize ≤ s.dev.size
    · rw [if_pos hblock]
      show (if (pread s.dev fd s.dev.erasesize _).length ≠ s.dev.erasesize then _
        else fixBlock s args fd (pread s.dev fd s.dev.erasesize _)) = _
      rw [pread_of_le hblock]
      exact if_neg (not_not.mpr (length_bytesAt _ _ _))
    · rw [if_neg hblock]
      refine if_pos ?_
      show (pread s.dev fd s.dev.erasesize _).length ≠ s.dev.erasesize
      rw [length_pread]
      omega
  · rw [if_neg hsum]
    exact if_pos (not_le.mp hsum)

/-! ## The flash afterwards -/

variable {flash : ℕ → Byte} {offset : ℕ}

lemma patches_apart (data : List Byte) : (patches data).Pairwise Patch.Apart := by
  simp only [patches, List.pairwise_cons, List.mem_singleton, forall_eq, List.not_mem_nil,
    false_imp_iff, implies_true, List.Pairwise.nil, and_true, Patch.Apart, Patch.stop, length_le32]
  omega

lemma patch_of_not_fields {i : ℕ} (h : ¬ fields offset i) :
    patch flash offset (patches data) i = flash i := by
  rw [fields] at h
  refine patch_of_out ?_
  simp only [patches, List.forall_mem_cons, List.not_mem_nil, false_imp_iff, implies_true, and_true,
    Patch.stop, length_le32]
  omega

lemma word_patch {pos : ℕ} {w : UInt32} (h : (pos, le32 w) ∈ patches data) :
    get32 .little (bytesAt (patch flash offset (patches data)) (offset + pos) 4) = w := by
  have hself : slice (patch flash offset (patches data)) (offset + pos) (le32 w).length = le32 w :=
    slice_patch_self (patches_apart data) h
  rw [length_le32, ← bytesAt_eq_slice] at hself
  have hword := rd32_le32_append w []
  rw [List.append_nil] at hword
  rw [hself]
  exact hword

lemma lenAt_patch : lenAt (patch flash offset (patches data)) offset =
    UInt32.ofNat (data.length + TRX_CRC32_DATA_OFFSET) := word_patch List.mem_cons_self

lemma crcAt_patch : crcAt (patch flash offset (patches data)) offset = crc32buf data :=
  word_patch (List.mem_cons_of_mem _ List.mem_cons_self)

lemma magicAt_patch :
    magicAt (patch flash offset (patches data)) offset = magicAt flash offset := by
  have hsame : bytesAt (patch flash offset (patches data)) offset 4 = bytesAt flash offset 4 :=
    bytesAt_congr fun i hle hlt => patch_of_not_fields fun hf => by
      rw [fields] at hf
      omega
  rw [magicAt, hsame, magicAt]

lemma again {block_offset : ℕ} (hsum : (data_offset s args + data_size s args) % 2 ^ s.bits ≤
      s.dev.size)
    (hblock : (opened s args).block_offset + s.dev.erasesize ≤ s.dev.size)
    (h12 : (opened s args).rel + 12 ≤ s.dev.erasesize)
    (hmagic : magicAt fd.flash args.offset = s.opt_trxmagic)
    (hread : readData s (patched s fd block_offset args.offset (patches data)) (data_size s args)
      (data_offset s args) (data_size s args) [] = .ok (some data)) :
    mtd_fixtrx s args (patched s fd block_offset args.offset (patches data)) =
      .ok (.ret (patched s fd block_offset args.offset (patches data)) data) := by
  have hmagic' : magicAt (patched s fd block_offset args.offset (patches data)).flash args.offset =
      s.opt_trxmagic := by
    rw [patched, magicAt_patch, hmagic]
  have hlen : lenAt (patched s fd block_offset args.offset (patches data)).flash args.offset =
      UInt32.ofNat (data.length + TRX_CRC32_DATA_OFFSET) := by
    rw [patched, lenAt_patch]
  have hcrc : crcAt (patched s fd block_offset args.offset (patches data)).flash args.offset =
      crc32buf data := by
    rw [patched, crcAt_patch]
  rw [mtd_fixtrx_eq, if_pos hsum, if_pos hblock, fixBlock_of_some (by omega) hmagic' hread,
    if_pos h12, finish, if_pos ⟨hlen, hcrc⟩]

variable (s args fd) in
/-- The command for a trx header. -/
lemma sound_iff : Sound (mtd_fixtrx s args) (Carries args.offset) (fields args.offset) fd ↔
    Fixable s args fd := by
  have hsize : s.dev.size < 2 ^ 31 := s.dev.size_lt
  have hpow : 2 ^ 32 ≤ 2 ^ s.bits := Nat.pow_le_pow_right (by decide) s.bits_ge
  have hoff := opened_add_rel s args
  have hfix := mtd_fixtrx_eq s args fd
  rw [Fixable]
  by_cases hsum : (data_offset s args + data_size s args) % 2 ^ s.bits ≤ s.dev.size
  swap
  · rw [if_neg hsum] at hfix
    exact iff_of_true (sound_of_exit hfix) fun h => absurd h hsum
  rw [imp_iff_right hsum]
  rw [if_pos hsum] at hfix
  by_cases hblock : (opened s args).block_offset + s.dev.erasesize ≤ s.dev.size
  swap
  · rw [if_neg hblock] at hfix
    exact iff_of_true (sound_of_exit hfix) fun h => absurd h hblock
  rw [imp_iff_right hblock]
  rw [if_pos hblock] at hfix
  by_cases hin : (opened s args).rel + 4 ≤ s.dev.erasesize
  swap
  · rw [fixBlock_of_outside hin] at hfix
    exact iff_of_false (not_sound_of_outside hfix) fun h => hin h.1
  rw [and_iff_right hin]
  by_cases hmagic : magicAt fd.flash args.offset = s.opt_trxmagic
  swap
  · rw [fixBlock_of_ne hin hmagic] at hfix
    exact iff_of_true (sound_of_exit hfix) fun h => absurd h hmagic
  rw [imp_iff_right hmagic]
  have hstart : data_offset s args = args.offset + TRX_CRC32_DATA_OFFSET := by
    rw [data_offset, Nat.mod_eq_of_lt]
    rw [TRX_CRC32_DATA_OFFSET]
    omega
  have hstart' : data_offset s args = args.offset + 12 := hstart
  obtain ⟨r, hr⟩ : ∃ r, readData s fd (data_size s args) (data_offset s args)
      (data_size s args) [] = .ok r := readData_ok (by rw [List.length_nil]; omega)
  by_cases htotal : data_offset s args + data_size s args ≤ s.dev.size
  swap
  · -- the sum has wrapped around
    cases r with
    | none =>
      rw [fixBlock_of_none hin hmagic hr] at hfix
      exact iff_of_true (sound_of_exit hfix) fun h => absurd h htotal
    | some data =>
      have hle := (readData_ends (by omega) fd (by omega) hr).le
      rcases Nat.eq_zero_or_pos (data_size s args) with hzero | hpos
      · rw [hzero, Nat.mod_eq_of_lt (by omega)] at hsum
        omega
      · rw [Nat.mod_eq_of_lt (by omega)] at hsum
        exact absurd hsum htotal
  rw [imp_iff_right htotal]
  obtain ⟨data, hdata⟩ : ∃ data, readData s fd (data_size s args) (data_offset s args)
      (data_size s args) [] = .ok (some data) :=
    readData_of_le htotal (by rw [List.length_nil]; omega)
  rw [fixBlock_of_some hin hmagic hdata] at hfix
  have hends := readData_ends (show s.dev.erasesize ≤ s.dev.size by omega)
    (patched s fd (opened s args).block_offset args.offset (patches data)) (by omega) hdata
  have hlen := hends.length_le
  rw [List.length_nil] at hlen
  have hword : (UInt32.ofNat (data.length + TRX_CRC32_DATA_OFFSET)).toNat =
      data.length + TRX_CRC32_DATA_OFFSET := by
    rw [UInt32.toNat_ofNat', Nat.mod_eq_of_lt]
    rw [TRX_CRC32_DATA_OFFSET]
    omega
  by_cases h12 : (opened s args).rel + 12 ≤ s.dev.erasesize
  swap
  · rw [if_neg h12] at hfix
    exact iff_of_false (not_sound_of_outside hfix) h12
  refine iff_of_true ?_ h12
  rw [if_pos h12, finish] at hfix
  split at hfix
  · rename_i hfixed
    exact (sound_iff_of_same hfix).mpr ⟨by rw [hfixed.1, hword], hfixed.2⟩
  · rename_i hne
    by_cases hw : Rewritable s (opened s args).block_offset
    · rw [rewrite_eq hblock (patches_stop_le h12) hw, hoff] at hfix
      have hcarries : Carries args.offset
          (patched s fd (opened s args).block_offset args.offset (patches data)).flash data := by
        rw [patched, Carries, lenAt_patch, hword]
        exact ⟨rfl, crcAt_patch⟩
      refine (sound_iff_of_ret hfix hcarries fun i hi => patch_of_not_fields hi).mpr
        ⟨_, again hsum hblock h12 hmagic (hends.same fun i hi => patch_of_not_fields ?_), rfl⟩
      rw [fields]
      omega
    · obtain ⟨e, he⟩ : ∃ e, rewrite s fd (opened s args).block_offset
          (patchBuf (bytesAt fd.flash (opened s args).block_offset s.dev.erasesize)
            (opened s args).rel (patches data)) data = .exit e := rewrite_of_not _ hw
      rw [he] at hfix
      exact sound_of_exit hfix

end Trx

end Mtd.Fix
