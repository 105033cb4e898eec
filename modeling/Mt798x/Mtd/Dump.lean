import Mt798x.Mtd.Written

/-!
# Dumping and verifying

`mtd_dump` leaves out the bad blocks, but counts them from the start of the device when it has been
told to start at an offset; `mtd_verify` leaves none out.  So the two agree with `mtd_write` only on
some devices.
-/

namespace Mtd

/-- `read` at a position: as much as there is up to the end of the device. -/
def readDev (dev : Dev) (flash : ℕ → Byte) (pos n : ℕ) : List Byte :=
  bytesAt flash pos (min n (dev.size - pos))

/-- The loop of `mtd_dump`. -/
def dumpLoop (g : Globals) (dev : Dev) (flash : ℕ → Byte) :
    ℕ → (pos offset size : ℕ) → List Byte → Except Stop (List Byte)
  | 0, _, _, _, _ => .error .fuel
  | fuel + 1, pos, offset, size, out =>
    let len := if size > g.erasesize then g.erasesize else size
    let buf := readDev dev flash pos len
    if buf.length = 0 ∨ buf.length ≠ len then .ok out
    else
      match mtd_block_is_bad g dev offset with
      | .error stop => .error stop
      | .ok true => dumpLoop g dev flash fuel (pos + buf.length) (offset + buf.length) size out
      | .ok false =>
        if size - buf.length > 0 then
          dumpLoop g dev flash fuel (pos + buf.length) (offset + buf.length) (size - buf.length)
            (out ++ buf)
        else .ok (out ++ buf)

/-- `mtd_dump`: what it writes to the standard output. -/
def mtd_dump (dev : Dev) (flash : ℕ → Byte) (part_offset size : ℕ) : Except Stop (List Byte) :=
  let g := mtd_check_open dev
  let size := if size = 0 then g.mtdsize else size
  let fd := Fd.mk flash 0 []
  let fd := if part_offset ≠ 0 then fd.lseek dev part_offset else fd
  dumpLoop g dev flash (dev.size + 1) fd.pos 0 size []

/-- The loop of `mtd_verify`: what it hashes. -/
def verifyLoop (dev : Dev) (flash : ℕ → Byte) : ℕ → (pos st_size : ℕ) → List Byte → List Byte
  | 0, _, _, hashed => hashed
  | fuel + 1, pos, st_size, hashed =>
    let len := if st_size > 256 then 256 else st_size
    let buf := readDev dev flash pos len
    if buf.length = 0 then hashed
    else if st_size - buf.length > 0 then
      verifyLoop dev flash fuel (pos + buf.length) (st_size - buf.length) (hashed ++ buf)
    else hashed ++ buf

/-- `mtd_verify` of a file that can be read: whether it reports success. -/
def mtd_verify {α : Type} [DecidableEq α] (md5 : List Byte → α) (dev : Dev) (flash : ℕ → Byte)
    (file : List Byte) : Bool :=
  md5 file = md5 (verifyLoop dev flash file.length 0 file.length [])

variable {W : World} {dev : Dev} {flash : ℕ → Byte}

/-! ## What is dumped -/

/-- The blocks that `mtd_dump` writes out when it starts with block `p`: the marks it looks at are
those of the blocks counted from the start of the device. -/
def dumpBlocks (dev : Dev) (p : ℕ) : List ℕ :=
  ((List.range (dev.blocks - p)).filter fun i => dev.isBad i = false).map (p + ·)

/-- The marks behind an offset are the ones at the start of the device. -/
def MarksRepeat (dev : Dev) (p : ℕ) : Prop :=
  ∀ i < dev.blocks - p, dev.isBad i = dev.isBad (p + i)

lemma mtd_block_is_bad_of_lt {i : ℕ} (h : i < dev.blocks) :
    mtd_block_is_bad (mtd_check_open dev) dev (i * dev.erasesize) = .ok (dev.isBad i) := by
  have hes := dev.erasesize_pos
  have hlt : i * dev.erasesize < dev.size := Nat.mul_lt_mul_of_pos_right h hes
  have htype : (mtd_check_open dev).mtdtype = dev.type := rfl
  by_cases hnand : (mtd_check_open dev).mtdtype = .MTD_NANDFLASH
  · rw [mtd_block_is_bad, if_pos hnand, if_pos hlt, Nat.mul_div_cancel _ hes]
  · rw [mtd_block_is_bad, if_neg hnand, Dev.isBad, ← htype]
    simp [hnand]

/-- The loop writes out the good blocks, as far as the size goes. -/
lemma dumpLoop_spec {p i m fuel : ℕ} {out : List Byte} (hle : p + i ≤ dev.blocks)
    (hfuel : dev.blocks < fuel + (p + i)) :
    dumpLoop (mtd_check_open dev) dev flash fuel ((p + i) * dev.erasesize) (i * dev.erasesize)
        (m * dev.erasesize) out =
      .ok (out ++ (((List.range' i (dev.blocks - p - i)).filter fun k =>
        dev.isBad k = false).take m).flatMap fun k => blockAt dev flash (p + k)) := by
  have hes := dev.erasesize_pos
  have hg : (mtd_check_open dev).erasesize = dev.erasesize := rfl
  induction fuel generalizing i m out with
  | zero => omega
  | succ fuel ih =>
    rw [dumpLoop, hg]
    cases m with
    | zero =>
      have hlen : (if 0 > dev.erasesize then dev.erasesize else 0) = 0 := by
        split <;> omega
      have hnone : (readDev dev flash ((p + i) * dev.erasesize) 0).length = 0 := by
        rw [readDev, Nat.zero_min, length_bytesAt]
      simp only [Nat.zero_mul, hlen]
      rw [if_pos (Or.inl hnone)]
      simp
    | succ m =>
      have hm : (m + 1) * dev.erasesize = m * dev.erasesize + dev.erasesize := Nat.succ_mul _ _
      have hlen : (if (m + 1) * dev.erasesize > dev.erasesize then dev.erasesize
          else (m + 1) * dev.erasesize) = dev.erasesize := by
        split <;> omega
      simp only [hlen]
      have hsize : dev.size - (p + i) * dev.erasesize = (dev.blocks - (p + i)) * dev.erasesize := by
        rw [Dev.size, Nat.sub_mul]
      by_cases hend : p + i = dev.blocks
      · have hnone : dev.blocks - p - i = 0 := by omega
        have hbuf : (readDev dev flash ((p + i) * dev.erasesize) dev.erasesize).length = 0 := by
          rw [readDev, length_bytesAt, hsize, hend, Nat.sub_self, Nat.zero_mul, Nat.min_zero]
        rw [if_pos (Or.inl hbuf), hnone]
        simp
      · have hfull : readDev dev flash ((p + i) * dev.erasesize) dev.erasesize =
            blockAt dev flash (p + i) := by
          have : dev.erasesize ≤ (dev.blocks - (p + i)) * dev.erasesize :=
            Nat.le_mul_of_pos_left _ (by omega)
          rw [readDev, hsize, Nat.min_eq_left this]
          rfl
        have hrange : List.range' i (dev.blocks - p - i) =
            i :: List.range' (i + 1) (dev.blocks - p - (i + 1)) := by
          rw [show dev.blocks - p - i = dev.blocks - p - (i + 1) + 1 by omega, List.range'_succ]
        have hnext : (p + i) * dev.erasesize + dev.erasesize = (p + (i + 1)) * dev.erasesize := by
          rw [← Nat.succ_mul]
          rfl
        have hnext' : i * dev.erasesize + dev.erasesize = (i + 1) * dev.erasesize :=
          (Nat.succ_mul _ _).symm
        simp only [hfull, length_blockAt]
        rw [if_neg (by omega), mtd_block_is_bad_of_lt (by omega), hrange, hnext, hnext']
        cases hbad : dev.isBad i with
        | true =>
          simp only
          rw [ih (by omega) (by omega), List.filter_cons_of_neg (by simp [hbad])]
        | false =>
          simp only
          rw [List.filter_cons_of_pos (by simp [hbad]), List.take_succ_cons, List.flatMap_cons,
            ← List.append_assoc, show (m + 1) * dev.erasesize - dev.erasesize = m * dev.erasesize by
              omega]
          by_cases hzero : m * dev.erasesize > 0
          · rw [if_pos hzero, ih (by omega) (by omega)]
          · have hm0 : m = 0 := by
              by_contra hne
              exact hzero (Nat.mul_pos (by omega) hes)
            rw [if_neg hzero, hm0]
            simp

/-- What `mtd_dump` writes when it starts at a block of the device. -/
lemma mtd_dump_eq {p : ℕ} (hp : p ≤ dev.blocks) (m : ℕ) :
    mtd_dump dev flash (p * dev.erasesize) (m * dev.erasesize) =
      .ok (((dumpBlocks dev p).take (if m = 0 then dev.blocks else m)).flatMap
        (blockAt dev flash)) := by
  have hes := dev.erasesize_pos
  have hsize : (if m * dev.erasesize = 0 then dev.size else m * dev.erasesize) =
      (if m = 0 then dev.blocks else m) * dev.erasesize := by
    by_cases hm : m = 0
    · rw [if_pos hm, hm, Nat.zero_mul, if_pos rfl]
      rfl
    · have := Nat.mul_pos (Nat.pos_of_ne_zero hm) hes
      rw [if_neg hm, if_neg (by omega)]
  have hpos : (if p * dev.erasesize ≠ 0 then (Fd.mk flash 0 []).lseek dev (p * dev.erasesize)
      else Fd.mk flash 0 []).pos = p * dev.erasesize := by
    split
    · have hle : p * dev.erasesize ≤ dev.size := Nat.mul_le_mul_right _ hp
      rw [Fd.lseek, if_pos hle]
    · rename_i hzero
      rw [not_not.mp hzero]
  have hspec := @dumpLoop_spec dev flash p 0 (if m = 0 then dev.blocks else m) (dev.size + 1) []
    hp (by
      have := Nat.le_mul_of_pos_right dev.blocks hes
      rw [Dev.size]
      omega)
  rw [Nat.zero_mul, Nat.add_zero p, List.nil_append, Nat.sub_zero, ← List.range_eq_range'] at hspec
  rw [mtd_dump]
  change dumpLoop _ dev flash _ _ 0 (if m * dev.erasesize = 0 then dev.size else _) [] = _
  rw [hsize, hpos, hspec, dumpBlocks, ← List.map_take, List.flatMap_map]

lemma dumpBlocks_zero (dev : Dev) : dumpBlocks dev 0 = goodBlocks dev 0 := by
  rw [dumpBlocks, goodBlocks, Nat.sub_zero, ← List.range_eq_range']
  simp

lemma length_dumpBlocks_le (dev : Dev) (p : ℕ) : (dumpBlocks dev p).length ≤ dev.blocks := by
  rw [dumpBlocks, List.length_map]
  refine (List.length_filter_le _ _).trans ?_
  rw [List.length_range]
  omega

lemma dumpBlocks_of_marksRepeat {p : ℕ} (h : MarksRepeat dev p) :
    dumpBlocks dev p = goodBlocks dev p := by
  have hfilter : (List.range (dev.blocks - p)).filter (fun i => dev.isBad i = false) =
      (List.range (dev.blocks - p)).filter (fun i => dev.isBad (p + i) = false) := by
    refine List.filter_congr fun i hi => ?_
    rw [h i (List.mem_range.mp hi)]
  rw [dumpBlocks, goodBlocks, hfilter, List.range'_eq_map_range, List.filter_map]
  rfl

/-! ## What is verified -/

lemma verifyLoop_spec {fuel pos n : ℕ} {hashed : List Byte} (hfuel : n ≤ fuel)
    (hfits : pos + n ≤ dev.size) :
    verifyLoop dev flash fuel pos n hashed = hashed ++ bytesAt flash pos n := by
  induction fuel generalizing pos n hashed with
  | zero =>
    obtain rfl : n = 0 := by omega
    simp [verifyLoop, bytesAt]
  | succ fuel ih =>
    rw [verifyLoop]
    set len := if n > 256 then 256 else n with hlen
    have hle : len ≤ n := by
      rw [hlen]
      split <;> omega
    have hread : readDev dev flash pos len = bytesAt flash pos len := by
      rw [readDev, Nat.min_eq_left (by omega)]
    simp only [hread, length_bytesAt]
    by_cases hzero : len = 0
    · have hn : n = 0 := by
        rw [hlen] at hzero
        split at hzero <;> omega
      rw [if_pos hzero, hn]
      simp [bytesAt]
    · rw [if_neg hzero]
      by_cases hmore : n - len > 0
      · rw [if_pos hmore, ih (by omega) (by omega), List.append_assoc, ← bytesAt_add,
          Nat.add_sub_of_le hle]
      · rw [if_neg hmore, show len = n by omega]

/-! ## Write, dump, verify -/

lemma flatMap_blockAt_inj {bs bs' : List ℕ}
    (h : bs.flatMap (blockAt dev flash) = bs'.flatMap (blockAt dev flash)) :
    bs.map (blockAt dev flash) = bs'.map (blockAt dev flash) := by
  have hes := dev.erasesize_pos
  have hlen := congrArg List.length h
  rw [length_flatMap_blockAt, length_flatMap_blockAt] at hlen
  have hlen' : bs.length = bs'.length := Nat.eq_of_mul_eq_mul_right hes hlen
  induction bs generalizing bs' with
  | nil =>
    rw [List.length_nil] at hlen'
    rw [List.eq_nil_of_length_eq_zero hlen'.symm]
  | cons b bs ih =>
    cases bs' with
    | nil => simp at hlen'
    | cons b' bs' =>
      rw [List.flatMap_cons, List.flatMap_cons] at h
      obtain ⟨hb, hrest⟩ := List.append_inj h (by rw [length_blockAt, length_blockAt])
      have hrec := ih hrest (by
        rw [List.length_cons, List.length_cons] at hlen'
        rw [Nat.succ.inj hlen']) (by simpa using hlen')
      rw [List.map_cons, List.map_cons, hb, hrec]

lemma flatMap_range_blockAt (m : ℕ) :
    (List.range m).flatMap (blockAt dev flash) = bytesAt flash 0 (m * dev.erasesize) := by
  induction m with
  | zero => simp [bytesAt]
  | succ m ih =>
    rw [List.range_succ, List.flatMap_append, ih, Nat.succ_mul, bytesAt_add, Nat.zero_add]
    simp [blockAt]

lemma goodBlocks_take {m : ℕ} (hm : m ≤ dev.blocks)
    (hgood : ∀ b < m, dev.isBad b = false) : (goodBlocks dev 0).take m = List.range m := by
  have hrange : List.range dev.blocks =
      List.range m ++ List.range' m (dev.blocks - m) := by
    rw [List.range_eq_range', List.range_eq_range']
    conv_lhs => rw [← Nat.add_sub_of_le hm, ← List.range'_append_1, Nat.zero_add]
  have hall : (List.range m).filter (fun b => dev.isBad b = false) = List.range m :=
    List.filter_eq_self.mpr fun b hb => by simpa using hgood b (List.mem_range.mp hb)
  rw [goodBlocks, Nat.sub_zero, ← List.range_eq_range', hrange, List.filter_append, hall]
  exact List.take_left' List.length_range

variable {flag flag' : Option Flag} {buf : List Byte} {inp : Input} {fd : Fd}

end Mtd
