import Mt798x.Lib.Guard
import Mt798x.Lib.Halfwords
import Mt798x.Lib.Patches
import Mt798x.Mtd.Write

/-!
# Commands that fix a header

An image in flash starts with a header that holds the length and a checksum of what follows.  When
the file system behind the image is in use the checksum is no longer right, so `mtd` has a command
for each format that reads the data again and rewrites the header, with the erase block around it.

Here is what the commands share: the block around the header, its fields, and what is expected of a
command.
-/

namespace Mtd.Fix

open Bytes Guard FlatImage

/-- What a run depends on besides the flash and the arguments: the processor with the bits of a
`size_t`, the hardware, the magic of the option `-M`, and MD5. -/
structure Setup where
  bits : ℕ
  order : Endian
  world : World
  dev : Dev
  opt_trxmagic : UInt32
  md5 : List Byte → List Byte
  bits_ge : 32 ≤ bits
  length_md5 : ∀ m, (md5 m).length = 16

/-- The arguments, and the global `erasesize` that the last device opened has left, which is zero
before the first one. -/
structure Args where
  offset : ℕ
  data_size : ℕ
  erasesize : ℕ

/-- How a command ends.  With `ret` it returns 0, and `data` is what it has read for the
checksum. -/
inductive Result where
  | ret (fd : Fd) (data : List Byte)
  | exit (fd : Fd)

/-- The descriptor at the end. -/
def Result.fd : Result → Fd
  | .ret fd _ => fd
  | .exit fd => fd

/-- `offset & ~(erasesize - 1)`.  Without an erase size the mask is zero. -/
def alignDown (erasesize offset : ℕ) : ℕ :=
  if erasesize = 0 then 0 else offset - (offset &&& (erasesize - 1))

lemma alignDown_le (erasesize offset : ℕ) : alignDown erasesize offset ≤ offset := by
  rw [alignDown]
  split <;> omega

/-- The block of the header. -/
def Args.block_offset (args : Args) : ℕ := alignDown args.erasesize args.offset

/-- The offset of the header in its block. -/
def Args.rel (args : Args) : ℕ := args.offset - args.block_offset

lemma Args.block_add_rel (args : Args) : args.block_offset + args.rel = args.offset :=
  Nat.add_sub_of_le (alignDown_le _ _)

/-! ## Buffers -/

/-- A field of a header in a buffer. -/
def field (buf : List Byte) (pos n : ℕ) : Except Fault (List Byte) := do
  touch buf.length (pos + n)
  .ok ((buf.drop pos).take n)

/-- A new content for a field. -/
def store (buf : List Byte) (pos : ℕ) (chunk : List Byte) : Except Fault (List Byte) := do
  touch buf.length (pos + chunk.length)
  .ok (splice buf pos chunk)

lemma bytesAt_eq_slice (flash : ℕ → Byte) (pos n : ℕ) :
    bytesAt flash pos n = slice flash pos n := by
  rw [bytesAt, List.range'_eq_map_range, List.map_map, slice]
  rfl

lemma drop_take_bytesAt {flash : ℕ → Byte} {start len pos n : ℕ} (h : pos + n ≤ len) :
    ((bytesAt flash start len).drop pos).take n = bytesAt flash (start + pos) n := by
  obtain ⟨k, rfl⟩ := Nat.exists_eq_add_of_le h
  rw [Nat.add_assoc, bytesAt_add, List.drop_left' (length_bytesAt _ _ _),
    bytesAt_take _ _ (by omega)]

lemma field_bytesAt (flash : ℕ → Byte) (start len pos n : ℕ) :
    field (bytesAt flash start len) pos n =
      if pos + n ≤ len then .ok (bytesAt flash (start + pos) n) else .error .outside := by
  rw [field, length_bytesAt, touch]
  by_cases h : pos + n ≤ len
  · rw [if_pos h, if_pos h, ok_bind, drop_take_bytesAt h]
  · rw [if_neg h, if_neg h, error_bind]

lemma store_eq {buf chunk : List Byte} {pos : ℕ} (h : pos + chunk.length ≤ buf.length) :
    store buf pos chunk = .ok (splice buf pos chunk) := by
  rw [store, touch_eq h, ok_bind]

/-! ## The block around the header -/

/-- `pread`: as much as there is. -/
def pread (dev : Dev) (fd : Fd) (count pos : ℕ) : List Byte :=
  bytesAt fd.flash pos (min count (dev.size - pos))

/-- The block at `block_offset`, as most of the commands read it. -/
def readBlock (s : Setup) (fd : Fd) (block_offset : ℕ) : Option (List Byte) :=
  let g := mtd_check_open s.dev
  if g.mtdsize < (block_offset + g.erasesize) % 2 ^ s.bits then none
  else
    let first_block := pread s.dev fd g.erasesize block_offset
    if first_block.length = g.erasesize then some first_block else none

/-- The end of a command: the block is erased and written again. -/
def rewrite (s : Setup) (fd : Fd) (block_offset : ℕ) (first_block data : List Byte) : Result :=
  let g := mtd_check_open s.dev
  match mtd_erase_block s.world g s.dev fd block_offset with
  | none => .exit fd
  | some fd =>
    match fd.pwrite s.world s.dev first_block block_offset with
    | none => .exit fd
    | some (fd, res) => if res = g.erasesize then .ret fd data else .exit fd

/-- The hardware erases and writes the block. -/
def Rewritable (s : Setup) (block_offset : ℕ) : Prop :=
  Erasable s.world s.dev block_offset s.dev.erasesize ∧ s.world.writeFails block_offset = false

instance (s : Setup) (block_offset : ℕ) : Decidable (Rewritable s block_offset) :=
  inferInstanceAs (Decidable (_ ∧ _))

/-- The descriptor after fields of the header at `offset` have been replaced. -/
def patched (s : Setup) (fd : Fd) (block_offset offset : ℕ) (ps : List Patch) : Fd :=
  ⟨patch fd.flash offset ps, fd.pos, fd.log ++ [.erase block_offset s.dev.erasesize] ++
    [.write block_offset s.dev.erasesize]⟩

variable {s : Setup} {fd fd' : Fd} {block_offset offset : ℕ} {data : List Byte}

lemma length_pread (dev : Dev) (fd : Fd) (count pos : ℕ) :
    (pread dev fd count pos).length = min count (dev.size - pos) := length_bytesAt _ _ _

lemma pread_of_le {dev : Dev} {count pos : ℕ} (h : pos + count ≤ dev.size) :
    pread dev fd count pos = bytesAt fd.flash pos count := by
  rw [pread, Nat.min_eq_left (by omega)]

lemma readBlock_eq (s : Setup) (fd : Fd) (block_offset : ℕ) : readBlock s fd block_offset =
    if block_offset + s.dev.erasesize ≤ s.dev.size then
      some (bytesAt fd.flash block_offset s.dev.erasesize) else none := by
  have hpos := s.dev.erasesize_pos
  rw [readBlock]
  show (if s.dev.size < (block_offset + s.dev.erasesize) % 2 ^ s.bits then none
    else if (pread s.dev fd s.dev.erasesize block_offset).length =
    s.dev.erasesize then some (pread s.dev fd s.dev.erasesize block_offset) else none) = _
  by_cases h : block_offset + s.dev.erasesize ≤ s.dev.size
  · have hle : (block_offset + s.dev.erasesize) % 2 ^ s.bits ≤ s.dev.size :=
      (Nat.mod_le _ _).trans h
    rw [if_neg (not_lt.mpr hle), pread_of_le h, if_pos (length_bytesAt _ _ _), if_pos h]
  · have hshort : ¬ (pread s.dev fd s.dev.erasesize block_offset).length = s.dev.erasesize := by
      rw [length_pread]
      omega
    rw [if_neg hshort, if_neg h, ite_self]

lemma writeAt_eraseAt (flash : ℕ → Byte) (pos : ℕ) {n : ℕ} {data : List Byte}
    (h : data.length = n) :
    writeAt (eraseAt flash pos n) pos data = overwrite flash pos data := by
  subst h
  funext i
  rw [writeAt]
  by_cases hin : pos ≤ i ∧ i < pos + data.length
  · have hlt : i - pos < data.length := by omega
    rw [if_pos hin, eraseAt, if_pos hin, overwrite, if_pos hin.1, List.getElem?_eq_getElem hlt,
      List.getD_eq_getElem _ _ hlt]
    exact UInt8.neg_one_and
  · rw [if_neg hin, eraseAt, if_neg hin]
    rcases Nat.lt_or_ge i pos with hlt | hge
    · exact (overwrite_of_lt _ hlt).symm
    · exact (overwrite_of_ge (by omega)).symm

/-- The block is written again with new fields, if the hardware does it. -/
lemma rewrite_eq {ps : List Patch} {base : ℕ} (hblock : block_offset + s.dev.erasesize ≤ s.dev.size)
    (hps : ∀ p ∈ ps, base + p.stop ≤ s.dev.erasesize) (h : Rewritable s block_offset) :
    rewrite s fd block_offset (patchBuf (bytesAt fd.flash block_offset s.dev.erasesize) base ps)
      data = .ret (patched s fd block_offset (block_offset + base) ps) data := by
  have hpos := s.dev.erasesize_pos
  have hlen : (patchBuf (bytesAt fd.flash block_offset s.dev.erasesize) base ps).length =
      s.dev.erasesize := by
    rw [length_patchBuf (by rwa [length_bytesAt]), length_bytesAt]
  have hfit : (patchBuf (bytesAt fd.flash block_offset s.dev.erasesize) base ps).take
      (s.dev.size - block_offset) =
        patchBuf (bytesAt fd.flash block_offset s.dev.erasesize) base ps :=
    List.take_of_length_le (by omega)
  have hflash : writeAt (eraseAt fd.flash block_offset s.dev.erasesize) block_offset
      (patchBuf (bytesAt fd.flash block_offset s.dev.erasesize) base ps) =
        patch fd.flash (block_offset + base) ps := by
    rw [writeAt_eraseAt _ _ hlen, overwrite_patchBuf _ (by rwa [length_bytesAt]),
      bytesAt_eq_slice, overwrite_slice_self]
  have hcall : mtd_erase_block s.world (mtd_check_open s.dev) s.dev fd block_offset =
      fd.erase s.world s.dev block_offset s.dev.erasesize := rfl
  have hw : block_offset < s.dev.size ∧ s.world.writeFails block_offset = false := ⟨by omega, h.2⟩
  simp only [rewrite, hcall, Fd.erase, if_pos h.1, Fd.pwrite, if_pos hw, hfit, hflash, hlen]
  exact if_pos rfl

lemma rewrite_of_not (first_block : List Byte)
    (h : ¬ Rewritable s block_offset) :
    ∃ e, rewrite s fd block_offset first_block data = .exit e := by
  have hcall : mtd_erase_block s.world (mtd_check_open s.dev) s.dev fd block_offset =
      fd.erase s.world s.dev block_offset s.dev.erasesize := rfl
  by_cases herase : Erasable s.world s.dev block_offset s.dev.erasesize
  · have hw : ¬ (block_offset < s.dev.size ∧ s.world.writeFails block_offset = false) :=
      fun hw => h ⟨herase, hw.2⟩
    simp only [rewrite, hcall, Fd.erase, if_pos herase, Fd.pwrite, if_neg hw]
    exact ⟨_, rfl⟩
  · simp only [rewrite, hcall, Fd.erase, if_neg herase]
    exact ⟨_, rfl⟩

/-! ## What is expected of a command -/

/-- A command stays inside its buffers, and if it returns 0 then the header carries what it has to
say about the data, the flash has changed in the fields of the header only, and the same command
leaves the flash alone. -/
structure Sound (fix : Fd → Except Fault Result) (Carries : (ℕ → Byte) → List Byte → Prop)
    (fields : ℕ → Prop) (fd : Fd) : Prop where
  inside : Inside (fix fd)
  carries : ∀ fd' data, fix fd = .ok (.ret fd' data) → Carries fd'.flash data
  frame : ∀ fd' data, fix fd = .ok (.ret fd' data) → ∀ i, ¬ fields i → fd'.flash i = fd.flash i
  again : ∀ fd' data, fix fd = .ok (.ret fd' data) → ∃ r, fix fd' = .ok r ∧ r.fd = fd'

section Sound

variable {fix : Fd → Except Fault Result} {Carries : (ℕ → Byte) → List Byte → Prop}
  {fields : ℕ → Prop}

lemma not_sound_of_outside (h : fix fd = .error .outside) : ¬ Sound fix Carries fields fd :=
  fun hs => hs.inside h

lemma sound_of_exit {e : Fd} (h : fix fd = .ok (.exit e)) : Sound fix Carries fields fd where
  inside := by
    rw [h]
    exact inside_ok _
  carries := by
    intro fd' data hret
    cases h.symm.trans hret
  frame := by
    intro fd' data hret
    cases h.symm.trans hret
  again := by
    intro fd' data hret
    cases h.symm.trans hret

lemma sound_iff_of_same (h : fix fd = .ok (.ret fd data)) :
    Sound fix Carries fields fd ↔ Carries fd.flash data := by
  refine ⟨fun hs => hs.carries fd data h, fun hc => ⟨?_, ?_, ?_, ?_⟩⟩
  · rw [h]
    exact inside_ok _
  · intro fd' data' hret
    cases h.symm.trans hret
    exact hc
  · intro fd' data' hret
    cases h.symm.trans hret
    exact fun i _ => rfl
  · intro fd' data' hret
    cases h.symm.trans hret
    exact ⟨_, h, rfl⟩

lemma sound_iff_of_ret (h : fix fd = .ok (.ret fd' data)) (hc : Carries fd'.flash data)
    (hframe : ∀ i, ¬ fields i → fd'.flash i = fd.flash i) :
    Sound fix Carries fields fd ↔ ∃ r, fix fd' = .ok r ∧ r.fd = fd' := by
  refine ⟨fun hs => hs.again fd' data h, fun hr => ⟨?_, ?_, ?_, ?_⟩⟩
  · rw [h]
    exact inside_ok _
  · intro fd'' data' hret
    cases h.symm.trans hret
    exact hc
  · intro fd'' data' hret
    cases h.symm.trans hret
    exact hframe
  · intro fd'' data' hret
    cases h.symm.trans hret
    exact hr

end Sound

lemma patched_ne (s : Setup) (fd : Fd) (block_offset offset : ℕ) (ps : List Patch) :
    patched s fd block_offset offset ps ≠ fd := by
  intro h
  have hlog := congrArg (fun fd => fd.log.length) h
  simp [patched] at hlog

end Mtd.Fix
