import Mathlib

/-!
# Flash devices

A flash device behind a descriptor of the MTD character device: what `MEMGETINFO` and
`MEMGETBADBLOCK` report, the contents, the position of the descriptor, and a log of what has been
erased and written.  An erase request has to cover whole blocks, none of them bad; it sets all bits.
A write clears bits.  Reads return what is there, in bad blocks as well.
-/

namespace Mtd

/-- A byte of the flash. -/
abbrev Byte := UInt8

/-- `MTD_NORFLASH`, `MTD_NANDFLASH` -/
inductive MtdType where
  | MTD_NORFLASH
  | MTD_NANDFLASH
  deriving DecidableEq, Repr

/-- A device of `blocks` erase blocks, whose size in bytes is an `int` of the program. -/
structure Dev where
  type : MtdType
  erasesize : ℕ
  blocks : ℕ
  /-- The marks of the blocks; only those of a NAND device count. -/
  marked : ℕ → Bool
  erasesize_pos : 0 < erasesize
  size_lt : blocks * erasesize < 2 ^ 31

def Dev.size (dev : Dev) : ℕ := dev.blocks * dev.erasesize

def Dev.isBad (dev : Dev) (i : ℕ) : Bool := dev.type = .MTD_NANDFLASH && dev.marked i

/-- A request that has changed the flash. -/
inductive Op where
  | erase (start length : ℕ)
  | write (start length : ℕ)
  deriving DecidableEq, Repr

/-- A descriptor: the contents of its device, its position and the requests so far. -/
structure Fd where
  flash : ℕ → Byte
  pos : ℕ
  log : List Op

/-- The requests that the hardware does not carry out, by their start. -/
structure World where
  eraseFails : ℕ → Bool
  writeFails : ℕ → Bool

/-! ## Contents -/

/-- `n` bytes from a position on. -/
def bytesAt (flash : ℕ → Byte) (pos n : ℕ) : List Byte := (List.range' pos n).map flash

def eraseAt (flash : ℕ → Byte) (start length : ℕ) : ℕ → Byte := fun i =>
  if start ≤ i ∧ i < start + length then 0xff else flash i

def writeAt (flash : ℕ → Byte) (start : ℕ) (data : List Byte) : ℕ → Byte := fun i =>
  if start ≤ i ∧ i < start + data.length then flash i &&& data.getD (i - start) 0 else flash i

@[simp] lemma length_bytesAt (flash : ℕ → Byte) (pos n : ℕ) : (bytesAt flash pos n).length = n := by
  rw [bytesAt, List.length_map, List.length_range']

lemma bytesAt_congr {fl fl' : ℕ → Byte} {pos n : ℕ}
    (h : ∀ i, pos ≤ i → i < pos + n → fl i = fl' i) : bytesAt fl pos n = bytesAt fl' pos n := by
  refine List.map_congr_left fun i hi => ?_
  obtain ⟨k, hk, rfl⟩ := List.mem_range'.mp hi
  exact h _ (by omega) (by omega)

lemma bytesAt_add (flash : ℕ → Byte) (pos n m : ℕ) :
    bytesAt flash pos (n + m) = bytesAt flash pos n ++ bytesAt flash (pos + n) m := by
  rw [bytesAt, ← List.range'_append_1, List.map_append]
  rfl

lemma bytesAt_take (flash : ℕ → Byte) (pos : ℕ) {n m : ℕ} (h : m ≤ n) :
    (bytesAt flash pos n).take m = bytesAt flash pos m := by
  obtain ⟨k, rfl⟩ := Nat.exists_eq_add_of_le h
  rw [bytesAt_add, List.take_left' (length_bytesAt _ _ _)]

lemma bytesAt_writeAt_eraseAt (flash : ℕ → Byte) (pos : ℕ) (data : List Byte) :
    bytesAt (writeAt (eraseAt flash pos data.length) pos data) pos data.length = data := by
  apply List.ext_getElem
  · rw [length_bytesAt]
  · intro i _ hi
    have hin : pos ≤ pos + 1 * i ∧ pos + 1 * i < pos + data.length := by omega
    simp only [bytesAt, List.getElem_map, List.getElem_range']
    rw [writeAt, if_pos hin, eraseAt, if_pos hin, show pos + 1 * i - pos = i by omega,
      List.getD_eq_getElem _ _ hi]
    exact UInt8.neg_one_and

/-! ## Requests -/

/-- `lseek`: a position behind the end is refused. -/
def Fd.lseek (fd : Fd) (dev : Dev) (pos : ℕ) : Fd := if pos ≤ dev.size then { fd with pos } else fd

/-- What the driver carries out as an erase. -/
def Erasable (W : World) (dev : Dev) (start length : ℕ) : Prop :=
  start % dev.erasesize = 0 ∧ length % dev.erasesize = 0 ∧ start + length ≤ dev.size ∧
    (∀ i < length / dev.erasesize, dev.isBad (start / dev.erasesize + i) = false) ∧
    W.eraseFails start = false

instance (W : World) (dev : Dev) (start length : ℕ) : Decidable (Erasable W dev start length) :=
  inferInstanceAs (Decidable (_ ∧ _ ∧ _ ∧ _ ∧ _))

/-- `ioctl(fd, MEMERASE, …)` -/
def Fd.erase (W : World) (dev : Dev) (fd : Fd) (start length : ℕ) : Option Fd :=
  if Erasable W dev start length then
    some { fd with flash := eraseAt fd.flash start length, log := fd.log ++ [.erase start length] }
  else none

/-- `pwrite`: as much as fits on the device, and how much that is. -/
def Fd.pwrite (W : World) (dev : Dev) (fd : Fd) (data : List Byte) (pos : ℕ) : Option (Fd × ℕ) :=
  if pos < dev.size ∧ W.writeFails pos = false then
    let data := data.take (dev.size - pos)
    some ({ fd with flash := writeAt fd.flash pos data, log := fd.log ++ [.write pos data.length] },
      data.length)
  else none

/-- `write` -/
def Fd.write (W : World) (dev : Dev) (fd : Fd) (data : List Byte) : Option (Fd × ℕ) :=
  match fd.pwrite W dev data fd.pos with
  | none => none
  | some (fd, n) => some ({ fd with pos := fd.pos + n }, n)

end Mtd
