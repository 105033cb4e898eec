import Mt798x.Mtd.FixMd5
import Mt798x.Mtd.Imagetag

/-!
# The fix commands

For each format of a header, when its command does what it should: it stays inside its buffers, the
header that it leaves carries the length and the checksum of the data, nothing else in flash has
changed, and running it again changes nothing (`fix_sound_iff`).

What goes wrong is a header that is not in its block, because the block has been looked for with the
erase size of another device or none, or because it ends behind the block; data that cannot be
read, for the formats with a digest; and a header that only looks as if it were fixed.
-/

namespace Mtd.Fix

open Guard

/-- The formats of headers. -/
inductive Header where
  | trx
  | imagetag
  | seama
  | wrg
  | wrgg
  deriving DecidableEq, Repr

/-- `mtd_fixseama` -/
def mtd_fixseama (s : Setup) : Args → Fd → Except Fault Result := seama.mtd_fix s

/-- `mtd_fixwrg` -/
def mtd_fixwrg (s : Setup) : Args → Fd → Except Fault Result := wrg.mtd_fix s

/-- `mtd_fixwrgg` -/
def mtd_fixwrgg (s : Setup) : Args → Fd → Except Fault Result := (wrgg s.order).mtd_fix s

namespace Header

/-- The command for a format. -/
def fix (s : Setup) : Header → Args → Fd → Except Fault Result
  | .trx => Trx.mtd_fixtrx s
  | .imagetag => Imagetag.mtd_fixtrx s
  | .seama => mtd_fixseama s
  | .wrg => mtd_fixwrg s
  | .wrgg => mtd_fixwrgg s

/-- The header at `offset` carries the length and the checksum of the data; an image tag those of
the kernel, and its own checksum. -/
def Carries (s : Setup) (offset : ℕ) (flash : ℕ → Byte) (data : List Byte) : Header → Prop
  | .trx => Trx.Carries offset flash data
  | .imagetag => Imagetag.Fixed s flash offset
  | .seama => Fix.seama.Carries s offset flash data
  | .wrg => Fix.wrg.Carries s offset flash data
  | .wrgg => (Fix.wrgg s.order).Carries s offset flash data

/-- The places of the length and the checksum of the header at `offset`. -/
def fields (offset i : ℕ) : Header → Prop
  | .trx => Trx.fields offset i
  | .imagetag => Imagetag.fields offset i
  | .seama => Fix.seama.fields offset i
  | .wrg => Fix.wrg.fields offset i
  | .wrgg => (Fix.wrgg .little).fields offset i

/-- When the command does what it should. -/
def Fixable (s : Setup) (args : Args) (fd : Fd) : Header → Prop
  | .trx => Trx.Fixable s args fd
  | .imagetag => Imagetag.Fixable s args fd
  | .seama => Fix.seama.Fixable s args fd
  | .wrg => Fix.wrg.Fixable s args fd
  | .wrgg => (Fix.wrgg s.order).Fixable s args fd

end Header

/-- When the fix commands are sound and idempotent. -/
theorem fix_sound_iff (header : Header) (s : Setup) (args : Args) (fd : Fd) :
    Sound (header.fix s args) (fun flash data => header.Carries s args.offset flash data)
      (fun i => header.fields args.offset i) fd ↔ header.Fixable s args fd := by
  cases header with
  | trx => exact Trx.sound_iff s fd args
  | imagetag => exact Imagetag.sound_iff s args fd
  | seama => exact seama.sound_iff s args fd
  | wrg => exact wrg.sound_iff s args fd
  | wrgg => exact (wrgg s.order).sound_iff s args fd

/-- A NOR device of two blocks of 256 bytes. -/
def twoBlocks : Setup where
  bits := 32
  order := .big
  world := ⟨fun _ => false, fun _ => false⟩
  dev := ⟨.MTD_NORFLASH, 256, 2, fun _ => false, by decide, by decide⟩
  opt_trxmagic := 0x48445230
  md5 := fun _ => List.replicate 16 0
  bits_ge := le_rfl
  length_md5 := fun _ => rfl

/-- An image tag in the second block of the only device that is opened is looked for behind the
first block. -/
theorem fix_second_block : ¬ Sound (Header.imagetag.fix twoBlocks ⟨256, 0, 0⟩)
    (fun flash data => Header.imagetag.Carries twoBlocks 256 flash data)
    (fun i => Header.imagetag.fields 256 i) ⟨fun _ => 0xff, 0, []⟩ := by
  have hfix := Imagetag.mtd_fixtrx_eq twoBlocks ⟨256, 0, 0⟩ ⟨fun _ => 0xff, 0, []⟩
  have hbehind : ¬ min 10 ((Imagetag.textAt (fun _ => 0xff) (256 + 84) 10).length + 1) ≤
      256 - (256 + 84) := by omega
  rw [if_pos (by decide)] at hfix
  exact not_sound_of_outside (hfix.trans (if_neg hbehind))

end Mtd.Fix
