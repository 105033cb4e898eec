import Mt798x.Lib.Bytes
import Mt798x.Lib.Guard

/-!
# Rewriting the FIS directory

The FIS directory is an erase block of descriptors of flash images.  `fis_remap` replaces the
descriptors of some partitions by those of new ones, which are laid out one behind the other from
the start of the old ones on.

The first and the last old descriptor in the table are taken for the outermost ones in flash, the
space there is for a partition without a size ends where the last old one starts if nothing comes
behind it, and the length that is filled behind a table that has become shorter is negative.
`remap_iff` says which tables are rewritten as they should be.
-/

namespace Mtd.Fis

open Bytes Guard

/-! ## The source -/

/-- `struct fis_image_desc` -/
structure Desc where
  name : List Bytes.Byte
  flash_base : UInt32
  mem_base : UInt32
  size : UInt32
  entry_point : UInt32
  data_length : UInt32
  pad : List Bytes.Byte
  crc_desc : UInt32
  crc_file : UInt32
deriving DecidableEq, Repr

/-- `struct fis_part` -/
structure Part where
  name : List Bytes.Byte
  loadaddr : UInt32
  size : UInt32
  length : UInt32
  crc : UInt32
deriving DecidableEq, Repr

/-- A descriptor of bytes 0xff. -/
def Desc.erased : Desc :=
  ⟨List.replicate 16 0xff, 0xffffffff, 0xffffffff, 0xffffffff, 0xffffffff, 0xffffffff,
    List.replicate 212 0xff, 0xffffffff, 0xffffffff⟩

/-- The name of the descriptor does not end the table. -/
def Desc.live (d : Desc) : Bool := d.name.headD 0 != 0 && d.name.headD 0 != 0xff

/-- `!strncmp(a, b, sizeof(desc->hdr.name))` -/
def sameName (a b : List Bytes.Byte) : Bool :=
  (a.take 16).takeWhile (fun c => c != 0) == (b.take 16).takeWhile (fun c => c != 0)

/-- One of the old partitions has the name of the descriptor. -/
def isOld (old : List Part) (d : Desc) : Bool := old.any fun p => sameName d.name p.name

/-- `fis_validate` on a directory block. -/
def fis_validate (block : List Desc) (old new : List Part) : ℤ :=
  if new.dropLast.any (fun p => p.size == 0) then -1
  else if (block.takeWhile Desc.live).countP (isOld old) = old.length then 1
  else -1

/-- What the first loop of `fis_remap` has found: `offset`, `first` and `last`. -/
structure Scan where
  offset : UInt32 := 0
  first : Option ℕ := none
  last : Option ℕ := none

/-- A turn of the first loop, with the number of the descriptor. -/
def Scan.turn (old : List Part) (s : Scan) (d : Desc × ℕ) : Scan :=
  let offset := if s.offset < d.1.flash_base then d.1.flash_base else s.offset
  if isOld old d.1 then ⟨offset, s.first.or (some d.2), some d.2⟩ else { s with offset := offset }

/-- A turn of the second loop. -/
def limitTurn (last_fb : UInt32) (offset : UInt32) (d : Desc) : UInt32 :=
  if last_fb < d.flash_base ∧ d.flash_base < offset then d.flash_base else offset

/-- `memmove` of descriptors.  A negative length is a very large one. -/
def memmove (block : List Desc) (dst src : ℕ) (n : ℤ) : Except Fault (List Desc) := do
  if n < 0 then .error .outside
  else do
    touch block.length (dst + n.toNat)
    touch block.length (src + n.toNat)
    .ok (block.take dst ++ (block.drop src).take n.toNat ++ block.drop (dst + n.toNat))

/-- `memset` of descriptors with 0xff. -/
def memset (block : List Desc) (dst : ℕ) (n : ℤ) : Except Fault (List Desc) := do
  if n < 0 then .error .outside
  else do
    touch block.length (dst + n.toNat)
    .ok (block.take dst ++ List.replicate n.toNat .erased ++ block.drop (dst + n.toNat))

/-- A new descriptor. -/
def newDesc (part : Part) (offset size : UInt32) : Desc :=
  let hdr_size := if 0 < part.size then part.size else size
  { name := part.name.take 16
    flash_base := offset
    mem_base := part.loadaddr
    size := hdr_size
    entry_point := part.loadaddr
    data_length := if 0 < part.length then part.length else hdr_size
    pad := List.replicate 212 0
    crc_desc := 0
    crc_file := part.crc }

/-- The last loop: the new descriptors from `offset` on, with `size` bytes of space. -/
def newDescs : List Part → UInt32 → UInt32 → List Desc
  | [], _, _ => []
  | part :: parts, offset, size =>
    newDesc part offset size ::
      newDescs parts (offset + (newDesc part offset size).size)
        (size - (newDesc part offset size).size)

/-- The descriptors from `last` on are moved to `desc`. -/
def moveTail (block : List Desc) (desc last : ℕ) : Except Fault (List Desc) :=
  if desc ≠ last then do
    let tmp := if last < desc then desc else last
    let moved ← memmove block desc last (block.length - tmp)
    if desc < last then do
      let tmp : ℤ := block.length - (last - desc : ℕ)
      -- `tmp - end` is negative
      memset moved tmp.toNat (tmp - block.length)
    else .ok moved
  else .ok block

/-- `fis_remap` on a directory block. -/
def fis_remap (block : List Desc) (old new : List Part) : Except Fault (List Desc) := do
  let table := block.takeWhile Desc.live
  let scan := table.zipIdx.foldl (Scan.turn old) {}
  match scan.first, scan.last with
  | some first, some last => do
    let first_base := (block.getD first .erased).flash_base
    let last_base := (block.getD last .erased).flash_base
    let first_fb := if last_base < first_base then last_base else first_base
    let last_fb := if last_base < first_base then first_base else last_base
    let limit := table.foldl (limitTurn last_fb) scan.offset
    let size := limit - first_fb
    let last := last + 1
    let desc := first + new.length
    let moved ← moveTail block desc last
    touch block.length (first + new.length)
    .ok (moved.take first ++ newDescs new first_fb size ++ moved.drop (first + new.length))
  -- a null pointer
  | _, _ => .error .outside

/-! ## What is asked for -/

/-- A directory block with the old partitions in a row. -/
structure Directory (old : List Part) where
  before : List Desc
  olds : List Desc
  after : List Desc
  rest : List Desc
  live : ∀ d ∈ before ++ olds ++ after, d.live = true
  stop : ∀ d ∈ rest.head?, d.live = false
  matched : ∀ d ∈ olds, isOld old d = true
  kept : ∀ d ∈ before ++ after, isOld old d = false
  some_old : olds ≠ []

namespace Directory

variable {old : List Part} (t : Directory old) (new : List Part)

/-- The descriptors of the block. -/
def block : List Desc := t.before ++ t.olds ++ t.after ++ t.rest

/-- The partitions that remain. -/
def remaining : List Desc := t.before ++ t.after

/-- The new descriptors lie in flash one behind the other, from an address to another. -/
def Consecutive : List Desc → ℕ → ℕ → Prop
  | [], base, stop => base = stop
  | d :: ds, base, stop => d.flash_base.toNat = base ∧ Consecutive ds (base + d.size.toNat) stop

/-- A descriptor of a new partition, of its size if it has one. -/
def Describes (part : Part) (d : Desc) : Prop :=
  d.name = part.name.take 16 ∧ d.mem_base = part.loadaddr ∧ d.entry_point = part.loadaddr ∧
    d.crc_file = part.crc ∧ (0 < part.size → d.size = part.size)

/-- The lowest address of the old partitions. -/
def IsLowest (a : ℕ) : Prop :=
  (∃ d ∈ t.olds, d.flash_base.toNat = a) ∧ ∀ d ∈ t.olds, a ≤ d.flash_base.toNat

/-- The new flash ranges: consecutive from the lowest old address on, inside 32 bits, and in front of
the partitions that remain behind that address. -/
def RangesRight (news : List Desc) : Prop :=
  ∃ lowest stop, t.IsLowest lowest ∧ Consecutive news lowest stop ∧ stop ≤ 2 ^ 32 ∧
    ∀ d ∈ t.remaining, lowest ≤ d.flash_base.toNat → stop ≤ d.flash_base.toNat

/-- The block after the rewriting: the descriptors in front of the old ones and behind them, the new
ones between them, and behind them what was there and 0xff where descriptors have gone. -/
def RemapRight : Prop :=
  ∃ news, fis_remap t.block old new = .ok (t.before ++ news ++ t.after ++
      (t.rest.take (t.olds.length + t.rest.length - new.length) ++
        List.replicate (t.olds.length - new.length) .erased)) ∧
    List.Forall₂ Describes new news ∧ t.RangesRight news

/-! ## When it is so -/

/-- The base of the first and of the last old partition in the table, in order. -/
def firstBase : ℕ := min ((t.olds.head t.some_old).flash_base.toNat)
  ((t.olds.getLast t.some_old).flash_base.toNat)

/-- The higher one of the two. -/
def lastBase : ℕ := max ((t.olds.head t.some_old).flash_base.toNat)
  ((t.olds.getLast t.some_old).flash_base.toNat)

/-- Where the space for a partition without a size ends: at the next base above the higher one of the
two, or there if there is none. -/
def IsLimit (a : ℕ) : Prop :=
  ((∃ d ∈ t.before ++ t.olds ++ t.after, d.flash_base.toNat = a ∧ t.lastBase < a) ∨
    a = t.lastBase ∧ ∀ d ∈ t.before ++ t.olds ++ t.after, d.flash_base.toNat ≤ t.lastBase) ∧
  ∀ d ∈ t.before ++ t.olds ++ t.after, t.lastBase < d.flash_base.toNat → a ≤ d.flash_base.toNat

/-- The sum of the sizes that are given. -/
def fixedSize (new : List Part) : ℕ := (new.map fun p => p.size.toNat).sum

/-- The last new partition has no size. -/
def Automatic (new : List Part) : Prop := ∃ p ∈ new.getLast?, p.size = 0

/-- The new partitions are in front of what remains. -/
structure RangeSafe : Prop where
  fixed : ¬Automatic new → t.firstBase + fixedSize new ≤ 2 ^ 32 ∧
    ∀ d ∈ t.remaining, t.firstBase ≤ d.flash_base.toNat →
      t.firstBase + fixedSize new ≤ d.flash_base.toNat
  -- the space may also be all 32 bits, if everything starts at 0
  automatic : Automatic new → ∀ limit, t.IsLimit limit →
    (t.firstBase + fixedSize new ≤ limit ∧
      ∀ d ∈ t.remaining, t.firstBase ≤ d.flash_base.toNat → limit ≤ d.flash_base.toNat) ∨
    (limit = 0 ∧ 0 < fixedSize new ∧ fixedSize new < 2 ^ 32 ∧ t.remaining = [])

/-- There are not fewer new partitions than old ones, the lowest old partition is the first or the
last one in the table, and the sizes fit. -/
structure RemapSafe : Prop where
  enough : t.olds.length ≤ new.length
  lowest : t.IsLowest t.firstBase
  ranges : t.RangeSafe new

/-! ## The scans -/

section Scan

variable {old : List Part} {l : List Desc} {s : Scan} {k : ℕ}

/-- The highest base of some descriptors, or a start value. -/
def maxBase (l : List Desc) (o : UInt32) : UInt32 :=
  l.foldl (fun o d => if o < d.flash_base then d.flash_base else o) o

lemma le_maxBase (l : List Desc) (o : UInt32) : o ≤ maxBase l o ∧
    ∀ d ∈ l, d.flash_base ≤ maxBase l o := by
  induction l generalizing o with
  | nil => exact ⟨UInt32.le_refl o, by simp⟩
  | cons d l ih =>
    obtain ⟨hle, hall⟩ := ih (if o < d.flash_base then d.flash_base else o)
    have hstep : o ≤ (if o < d.flash_base then d.flash_base else o) ∧
        d.flash_base ≤ (if o < d.flash_base then d.flash_base else o) := by
      split
      · rename_i hlt
        exact ⟨UInt32.le_of_lt hlt, UInt32.le_refl _⟩
      · rename_i hnot
        exact ⟨UInt32.le_refl _, UInt32.not_lt.mp hnot⟩
    refine ⟨UInt32.le_trans hstep.1 hle, fun d' hd' => ?_⟩
    rcases List.mem_cons.mp hd' with rfl | hmem
    · exact UInt32.le_trans hstep.2 hle
    · exact hall d' hmem

lemma maxBase_mem (l : List Desc) (o : UInt32) :
    maxBase l o = o ∨ ∃ d ∈ l, d.flash_base = maxBase l o := by
  induction l generalizing o with
  | nil => exact .inl rfl
  | cons d l ih =>
    rcases ih (if o < d.flash_base then d.flash_base else o) with heq | ⟨d', hd', heq⟩
    · by_cases hlt : o < d.flash_base
      · rw [if_pos hlt] at heq
        exact .inr ⟨d, List.mem_cons_self, by rw [maxBase, List.foldl_cons, if_pos hlt]; exact heq.symm⟩
      · rw [if_neg hlt] at heq
        exact .inl (by rw [maxBase, List.foldl_cons, if_neg hlt]; exact heq)
    · exact .inr ⟨d', List.mem_cons_of_mem _ hd', heq⟩

lemma scan_kept (h : ∀ d ∈ l, isOld old d = false) :
    (l.zipIdx k).foldl (Scan.turn old) s = { s with offset := maxBase l s.offset } := by
  induction l generalizing s k with
  | nil => rfl
  | cons d l ih =>
    have hd := h d List.mem_cons_self
    rw [List.zipIdx_cons, List.foldl_cons, ih fun d' hd' => h d' (List.mem_cons_of_mem _ hd')]
    simp only [Scan.turn, hd, Bool.false_eq_true, if_false]
    rfl

lemma scan_olds (h : ∀ d ∈ l, isOld old d = true) (hne : l ≠ []) :
    (l.zipIdx k).foldl (Scan.turn old) s =
      ⟨maxBase l s.offset, s.first.or (some k), some (k + l.length - 1)⟩ := by
  induction l generalizing s k with
  | nil => exact absurd rfl hne
  | cons d l ih =>
    have hd := h d List.mem_cons_self
    rw [List.zipIdx_cons, List.foldl_cons]
    have hturn : Scan.turn old s (d, k) =
        ⟨if s.offset < d.flash_base then d.flash_base else s.offset, s.first.or (some k), some k⟩ := by
      simp only [Scan.turn, hd, if_true]
    rw [hturn]
    by_cases hl : l = []
    · subst hl
      rfl
    · rw [ih (fun d' hd' => h d' (List.mem_cons_of_mem _ hd')) hl]
      have hlast : k + 1 + l.length - 1 = k + (d :: l).length - 1 := by
        rw [List.length_cons]
        omega
      simp only [Option.or_assoc, Option.some_or, hlast]
      rfl

lemma limit_spec (b : UInt32) (l : List Desc) (o : UInt32) :
    (l.foldl (limitTurn b) o = o ∨ ∃ d ∈ l, d.flash_base = l.foldl (limitTurn b) o ∧
      b < l.foldl (limitTurn b) o) ∧ l.foldl (limitTurn b) o ≤ o ∧
      ∀ d ∈ l, b < d.flash_base → l.foldl (limitTurn b) o ≤ d.flash_base := by
  induction l generalizing o with
  | nil => exact ⟨.inl rfl, UInt32.le_refl o, by simp⟩
  | cons d l ih =>
    obtain ⟨hmem, hle, hall⟩ := ih (limitTurn b o d)
    rw [List.foldl_cons]
    by_cases hlt : b < d.flash_base ∧ d.flash_base < o
    · have hturn : limitTurn b o d = d.flash_base := if_pos hlt
      rw [hturn] at hmem hle hall ⊢
      refine ⟨.inr ?_, UInt32.le_trans hle (UInt32.le_of_lt hlt.2), fun d' hd' hb => ?_⟩
      · rcases hmem with heq | ⟨d', hd', heq, hb⟩
        · exact ⟨d, List.mem_cons_self, heq.symm, heq.symm ▸ hlt.1⟩
        · exact ⟨d', List.mem_cons_of_mem _ hd', heq, hb⟩
      · rcases List.mem_cons.mp hd' with rfl | hmem'
        · exact hle
        · exact hall d' hmem' hb
    · have hturn : limitTurn b o d = o := if_neg hlt
      rw [hturn] at hmem hle hall ⊢
      refine ⟨?_, hle, fun d' hd' hb => ?_⟩
      · rcases hmem with heq | ⟨d', hd', heq, hb⟩
        · exact .inl heq
        · exact .inr ⟨d', List.mem_cons_of_mem _ hd', heq, hb⟩
      · rcases List.mem_cons.mp hd' with rfl | hmem'
        · have hge : o ≤ d'.flash_base := UInt32.not_lt.mp fun h => hlt ⟨hb, h⟩
          exact UInt32.le_trans hle hge
        · exact hall d' hmem' hb

end Scan

/-! ## The block -/

section Block

variable {old new : List Part} (t : Directory old)

/-- The descriptors of the table. -/
def table : List Desc := t.before ++ t.olds ++ t.after

lemma takeWhile_block : t.block.takeWhile Desc.live = t.table := by
  rw [block, List.takeWhile_append_of_pos t.live, ← table]
  cases hrest : t.rest with
  | nil => exact List.append_nil _
  | cons d l =>
    have hd := t.stop d (by rw [hrest]; rfl)
    rw [List.takeWhile_cons_of_neg (by rw [hd]; exact Bool.false_ne_true), List.append_nil]

lemma scan_table : t.table.zipIdx.foldl (Scan.turn old) {} =
    ⟨maxBase t.table 0, some t.before.length, some (t.before.length + t.olds.length - 1)⟩ := by
  have hbefore : ∀ d ∈ t.before, isOld old d = false := fun d hd =>
    t.kept d (List.mem_append_left _ hd)
  have hafter : ∀ d ∈ t.after, isOld old d = false := fun d hd =>
    t.kept d (List.mem_append_right _ hd)
  have hmax : maxBase t.table 0 = maxBase t.after (maxBase t.olds (maxBase t.before 0)) := by
    rw [table, maxBase, List.foldl_append, List.foldl_append]
    rfl
  rw [hmax, table, List.zipIdx_append, List.zipIdx_append, List.foldl_append, List.foldl_append,
    scan_kept hbefore, scan_olds t.matched t.some_old, scan_kept hafter]
  simp

lemma length_olds_pos : 0 < t.olds.length := List.length_pos_iff.mpr t.some_old

lemma getD_first (d : Desc) : t.block.getD t.before.length d = t.olds.head t.some_old := by
  rw [block, List.append_assoc, List.append_assoc, List.getD_eq_getElem?_getD,
    List.getElem?_append_right le_rfl, Nat.sub_self,
    List.getElem?_append_left t.length_olds_pos, ← List.head?_eq_getElem?,
    List.head?_eq_some_head t.some_old, Option.getD_some]

lemma getD_last (d : Desc) : t.block.getD (t.before.length + t.olds.length - 1) d =
    t.olds.getLast t.some_old := by
  have hpos := t.length_olds_pos
  rw [block, List.append_assoc, List.append_assoc, List.getD_eq_getElem?_getD,
    List.getElem?_append_right (by omega), List.getElem?_append_left (by omega),
    show t.before.length + t.olds.length - 1 - t.before.length = t.olds.length - 1 by omega,
    ← List.getLast?_eq_getElem?, List.getLast?_eq_some_getLast t.some_old, Option.getD_some]

/-- The base the new partitions start at. -/
def fb : UInt32 :=
  if (t.olds.getLast t.some_old).flash_base < (t.olds.head t.some_old).flash_base then
    (t.olds.getLast t.some_old).flash_base
  else (t.olds.head t.some_old).flash_base

/-- The base behind which the end of the space is looked for. -/
def lb : UInt32 :=
  if (t.olds.getLast t.some_old).flash_base < (t.olds.head t.some_old).flash_base then
    (t.olds.head t.some_old).flash_base
  else (t.olds.getLast t.some_old).flash_base

/-- The end of the space. -/
def limit : UInt32 := t.table.foldl (limitTurn t.lb) (maxBase t.table 0)

lemma fb_toNat : t.fb.toNat = t.firstBase := by
  rw [fb, firstBase]
  split
  · rename_i hlt
    have := UInt32.lt_iff_toNat_lt.mp hlt
    omega
  · rename_i hnot
    have := UInt32.le_iff_toNat_le.mp (UInt32.not_lt.mp hnot)
    omega

lemma lb_toNat : t.lb.toNat = t.lastBase := by
  rw [lb, lastBase]
  split
  · rename_i hlt
    have := UInt32.lt_iff_toNat_lt.mp hlt
    omega
  · rename_i hnot
    have := UInt32.le_iff_toNat_le.mp (UInt32.not_lt.mp hnot)
    omega

lemma firstBase_le : t.firstBase ≤ t.lastBase := by
  rw [firstBase, lastBase]
  omega

lemma isLimit_limit : t.IsLimit t.limit.toNat := by
  obtain ⟨hmem, hle, hall⟩ := limit_spec t.lb t.table (maxBase t.table 0)
  rw [← limit] at hmem hle hall
  have hmax := (le_maxBase t.table 0).2
  have hlb : ∃ d ∈ t.table, d.flash_base = t.lb := by
    rw [lb]
    split
    · exact ⟨t.olds.head t.some_old, List.mem_append_left _
        (List.mem_append_right _ (List.head_mem t.some_old)), rfl⟩
    · exact ⟨t.olds.getLast t.some_old, List.mem_append_left _
        (List.mem_append_right _ (List.getLast_mem t.some_old)), rfl⟩
  obtain ⟨d₀, hd₀, hbase⟩ := hlb
  have hlbmax : t.lb ≤ maxBase t.table 0 := hbase ▸ hmax d₀ hd₀
  refine ⟨?_, fun d hd hlt => ?_⟩
  · rcases hmem with heq | ⟨d, hd, heq, hlt⟩
    · by_cases hlt : t.lb < maxBase t.table 0
      · rcases maxBase_mem t.table 0 with hzero | ⟨d, hd, hd'⟩
        · rw [hzero] at hlt
          exact absurd (UInt32.lt_iff_toNat_lt.mp hlt) (Nat.not_lt_zero _)
        · refine .inl ⟨d, hd, by rw [heq, hd'], ?_⟩
          rw [← lb_toNat, heq]
          exact UInt32.lt_iff_toNat_lt.mp hlt
      · have heqb : maxBase t.table 0 = t.lb := UInt32.le_antisymm (UInt32.not_lt.mp hlt) hlbmax
        rw [heqb] at heq hmax
        refine .inr ⟨by rw [heq, lb_toNat], fun d hd => ?_⟩
        rw [← lb_toNat]
        exact UInt32.le_iff_toNat_le.mp (hmax d hd)
    · refine .inl ⟨d, hd, by rw [heq], ?_⟩
      rw [← lb_toNat]
      exact UInt32.lt_iff_toNat_lt.mp hlt
  · rw [← lb_toNat] at hlt
    exact UInt32.le_iff_toNat_le.mp (hall d hd (UInt32.lt_iff_toNat_lt.mpr hlt))

variable {t} in
lemma IsLimit.unique {a b : ℕ} (ha : t.IsLimit a) (hb : t.IsLimit b) : a = b := by
  obtain ⟨hmem, hmin⟩ := ha
  obtain ⟨hmem', hmin'⟩ := hb
  rcases hmem with ⟨d, hd, rfl, hlt⟩ | ⟨rfl, hall⟩
  · rcases hmem' with ⟨d', hd', rfl, hlt'⟩ | ⟨rfl, hall'⟩
    · exact le_antisymm (hmin d' hd' hlt') (hmin' d hd hlt)
    · exact absurd (hall' d hd) (by omega)
  · rcases hmem' with ⟨d', hd', rfl, hlt'⟩ | ⟨rfl, -⟩
    · exact absurd (hall d' hd') (by omega)
    · rfl

variable {t} in
lemma IsLimit.le {a : ℕ} (h : t.IsLimit a) : t.lastBase ≤ a := by
  rcases h.1 with ⟨d, -, -, hlt⟩ | ⟨rfl, -⟩
  · omega
  · exact le_rfl

/-! ## The rewriting -/

lemma fis_remap_eq : fis_remap t.block old new = (do
    let moved ← moveTail t.block (t.before.length + new.length) (t.before.length + t.olds.length)
    touch t.block.length (t.before.length + new.length)
    .ok (moved.take t.before.length ++ newDescs new t.fb (t.limit - t.fb) ++
      moved.drop (t.before.length + new.length))) := by
  have hlast : t.before.length + t.olds.length - 1 + 1 = t.before.length + t.olds.length := by
    have := t.length_olds_pos
    omega
  rw [fis_remap, takeWhile_block]
  simp only [scan_table, getD_first, getD_last, hlast]
  rfl

lemma length_block : t.block.length =
    t.before.length + t.olds.length + t.after.length + t.rest.length := by
  simp only [block, List.length_append]

variable (new) in
lemma moveTail_shrink (h : new.length < t.olds.length) :
    ∃ e, moveTail t.block (t.before.length + new.length) (t.before.length + t.olds.length) =
      .error e := by
  have hlen := t.length_block
  rw [moveTail, if_pos (by omega), if_neg (by omega : ¬_ < t.before.length + new.length)]
  dsimp only
  cases hmoved : memmove t.block (t.before.length + new.length)
      (t.before.length + t.olds.length)
      (t.block.length - (t.before.length + t.olds.length : ℕ)) with
  | error e => exact ⟨e, rfl⟩
  | ok moved =>
    refine ⟨.outside, ?_⟩
    rw [ok_bind, if_pos (by omega), memset, if_pos (by omega)]

/-- What a table that does not become shorter has behind the new descriptors. -/
lemma moveTail_grow (h : t.olds.length ≤ new.length)
    (hfits : t.before.length + new.length + t.after.length ≤ t.block.length) :
    ∃ moved, moveTail t.block (t.before.length + new.length) (t.before.length + t.olds.length) =
      .ok moved ∧ moved.take t.before.length = t.before ∧
      moved.drop (t.before.length + new.length) =
        t.after ++ t.rest.take (t.olds.length + t.rest.length - new.length) := by
  have hlen := t.length_block
  have hbefore : t.block.take t.before.length = t.before := by
    rw [block, List.append_assoc, List.append_assoc, List.take_left' rfl]
  have hbehind : t.block.drop (t.before.length + t.olds.length) = t.after ++ t.rest := by
    rw [block, List.append_assoc, List.drop_left' (by rw [List.length_append])]
  rw [moveTail]
  by_cases heq : t.before.length + new.length = t.before.length + t.olds.length
  · rw [if_neg (not_not.mpr heq)]
    refine ⟨_, rfl, hbefore, ?_⟩
    rw [heq, hbehind, List.take_of_length_le (by omega)]
  · have hn : ((t.block.length : ℤ) - (t.before.length + new.length : ℕ)).toNat =
        t.block.length - (t.before.length + new.length) := by omega
    rw [if_pos heq, if_pos (by omega : t.before.length + t.olds.length < _)]
    dsimp only
    rw [memmove, if_neg (by omega), hn, touch_eq (by omega), ok_bind, touch_eq (by omega), ok_bind,
      ok_bind, if_neg (by omega)]
    refine ⟨_, rfl, ?_, ?_⟩
    · rw [List.append_assoc, List.take_append_of_le_length (by rw [List.length_take]; omega),
        List.take_take, Nat.min_eq_left (by omega), hbefore]
    · have hfront : (t.block.take (t.before.length + new.length)).length =
          t.before.length + new.length := by
        rw [List.length_take]
        omega
      rw [List.append_assoc, List.drop_left' hfront, hbehind,
        List.drop_eq_nil_of_le (by omega), List.append_nil, List.take_append]
      congr 1
      · exact List.take_of_length_le (by omega)
      · congr 1
        omega

end Block

/-! ## The flash ranges -/

section Ranges

variable {old new parts : List Part} {o size : UInt32} {base stop : ℕ} {a b : List Desc}

lemma consecutive_append : Consecutive (a ++ b) base stop ↔
    ∃ mid, Consecutive a base mid ∧ Consecutive b mid stop := by
  induction a generalizing base with
  | nil => simp [Consecutive]
  | cons d a ih =>
    rw [List.cons_append, Consecutive, ih]
    constructor
    · rintro ⟨hd, mid, ha, hb⟩
      exact ⟨mid, ⟨hd, ha⟩, hb⟩
    · rintro ⟨mid, ⟨hd, ha⟩, hb⟩
      exact ⟨hd, mid, ha, hb⟩

lemma newDescs_describes (parts : List Part) (o size : UInt32) :
    List.Forall₂ Describes parts (newDescs parts o size) := by
  induction parts generalizing o size with
  | nil => exact .nil
  | cons part parts ih =>
    refine .cons ⟨rfl, rfl, rfl, rfl, fun hpos => ?_⟩ (ih _ _)
    rw [newDesc, if_pos hpos]

/-- All the partitions have a size. -/
def AllSized (parts : List Part) : Prop := ∀ p ∈ parts, 0 < p.size

/-- The sum of the sizes, as the code adds them up. -/
def wordSize (parts : List Part) : UInt32 := (parts.map Part.size).sum

lemma wordSize_cons (part : Part) (parts : List Part) :
    wordSize (part :: parts) = part.size + wordSize parts := by
  rw [wordSize, List.map_cons, List.sum_cons]
  rfl

lemma fixedSize_cons (part : Part) (parts : List Part) :
    fixedSize (part :: parts) = part.size.toNat + fixedSize parts := by
  rw [fixedSize, List.map_cons, List.sum_cons]
  rfl

lemma newDesc_size {part : Part} (h : 0 < part.size) : (newDesc part o size).size = part.size := by
  rw [newDesc, if_pos h]

lemma newDescs_append (h : AllSized parts) (more : List Part) :
    newDescs (parts ++ more) o size =
      newDescs parts o size ++ newDescs more (o + wordSize parts) (size - wordSize parts) := by
  induction parts generalizing o size with
  | nil =>
    rw [List.nil_append, newDescs, List.nil_append, wordSize, List.map_nil, List.sum_nil,
      UInt32.add_zero, UInt32.sub_zero]
  | cons part parts ih =>
    have hsub : size - part.size - wordSize parts = size - (part.size + wordSize parts) := by
      apply UInt32.toNat_inj.mp
      simp only [UInt32.toNat_sub, UInt32.toNat_add]
      have hlt := part.size.toNat_lt
      have hlt' := (wordSize parts).toNat_lt
      omega
    rw [List.cons_append, newDescs, newDescs, newDesc_size (h part List.mem_cons_self),
      ih fun p hp => h p (List.mem_cons_of_mem _ hp), wordSize_cons, List.cons_append,
      UInt32.add_assoc, hsub]

lemma wordSize_toNat (parts : List Part) : (wordSize parts).toNat = fixedSize parts % 2 ^ 32 := by
  induction parts with
  | nil => rfl
  | cons part parts ih =>
    rw [wordSize_cons, UInt32.toNat_add, ih, fixedSize_cons, Nat.add_mod_mod]

lemma stop_eq (h : AllSized parts) (hc : Consecutive (newDescs parts o size) base stop) :
    stop = base + fixedSize parts := by
  induction parts generalizing o size base with
  | nil =>
    rw [newDescs, Consecutive] at hc
    rw [← hc, fixedSize, List.map_nil, List.sum_nil, Nat.add_zero]
  | cons part parts ih =>
    obtain ⟨-, hrest⟩ := hc
    rw [newDesc_size (h part List.mem_cons_self)] at hrest
    rw [ih (fun p hp => h p (List.mem_cons_of_mem _ hp)) hrest, fixedSize_cons, Nat.add_assoc]

/-- The ranges of partitions with sizes are consecutive as long as they are inside 32 bits. -/
lemma consecutive_sized (h : AllSized parts) (hle : o.toNat + fixedSize parts ≤ 2 ^ 32) :
    Consecutive (newDescs parts o size) o.toNat (o.toNat + fixedSize parts) := by
  induction parts generalizing o size with
  | nil => rfl
  | cons part parts ih =>
    have hsum := fixedSize_cons part parts
    refine ⟨rfl, ?_⟩
    rw [newDesc_size (h part List.mem_cons_self), hsum, ← Nat.add_assoc]
    cases parts with
    | nil => rfl
    | cons p ps =>
      -- the next partition has a size, so it starts inside
      have hp : 0 < p.size.toNat :=
        UInt32.lt_iff_toNat_lt.mp (h p (List.mem_cons_of_mem _ List.mem_cons_self))
      have hsum' := fixedSize_cons p ps
      have hadd : (o + part.size).toNat = o.toNat + part.size.toNat := by
        rw [UInt32.toNat_add, Nat.mod_eq_of_lt (by omega)]
      rw [← hadd]
      exact ih (fun p hp => h p (List.mem_cons_of_mem _ hp)) (by omega)

/-- The ranges if the last partition has no size: its range is the rest of the space. -/
lemma consecutive_automatic (h : AllSized parts) {p : Part} (hp : p.size = 0) :
    Consecutive (newDescs (parts ++ [p]) o size) o.toNat stop ↔
      o.toNat + fixedSize parts < 2 ^ 32 ∧
      stop = o.toNat + fixedSize parts + (size - wordSize parts).toNat := by
  have hsize : (newDesc p (o + wordSize parts) (size - wordSize parts)).size =
      size - wordSize parts := by
    rw [newDesc, hp, if_neg (UInt32.lt_irrefl 0)]
  have hbase : (newDesc p (o + wordSize parts) (size - wordSize parts)).flash_base.toNat =
      (o.toNat + fixedSize parts) % 2 ^ 32 := by
    rw [newDesc, UInt32.toNat_add, wordSize_toNat, Nat.add_mod_mod]
  rw [newDescs_append h, consecutive_append]
  constructor
  · rintro ⟨mid, hmid, hlast⟩
    have heq := stop_eq h hmid
    obtain ⟨hb, hstop⟩ := hlast
    rw [hbase] at hb
    rw [hsize] at hstop
    have hend : mid + (size - wordSize parts).toNat = stop := hstop
    omega
  · rintro ⟨hlt, rfl⟩
    refine ⟨_, consecutive_sized h (by omega), ?_, ?_⟩
    · rw [hbase, Nat.mod_eq_of_lt hlt]
    · rw [hsize]
      rfl

lemma Consecutive.base_eq (hne : parts ≠ [])
    (hc : Consecutive (newDescs parts o size) base stop) : base = o.toNat := by
  cases parts with
  | nil => exact absurd rfl hne
  | cons p ps => exact hc.1.symm

end Ranges

/-! ## The directory -/

section Remap

variable {old new : List Part} (t : Directory old)

/-- A layout that the check accepts: the last partition is the only one without a size. -/
lemma layout_cases (hvalid : fis_validate t.block old new = 1) (hne : new ≠ []) :
    AllSized new ∧ ¬Automatic new ∨
      ∃ parts p, new = parts ++ [p] ∧ AllSized parts ∧ p.size = 0 ∧ Automatic new := by
  have hinit : AllSized new.dropLast := by
    intro p hp
    rw [UInt32.pos_iff_ne_zero]
    intro hzero
    have hany : new.dropLast.any (fun p => p.size == 0) = true :=
      List.any_eq_true.mpr ⟨p, hp, by rw [hzero]; rfl⟩
    rw [fis_validate, if_pos hany] at hvalid
    cases hvalid
  have hsplit := List.dropLast_append_getLast hne
  have hlast : new.getLast? = some (new.getLast hne) := List.getLast?_eq_some_getLast hne
  by_cases hzero : (new.getLast hne).size = 0
  · exact .inr ⟨new.dropLast, new.getLast hne, hsplit.symm, hinit, hzero, _, hlast, hzero⟩
  · refine .inl ⟨fun p hp => ?_, ?_⟩
    · rw [← hsplit] at hp
      rcases List.mem_append.mp hp with hp | hp
      · exact hinit p hp
      · rw [List.mem_singleton.mp hp]
        exact UInt32.pos_iff_ne_zero.mpr hzero
    · rintro ⟨p, hp, hpz⟩
      rw [hlast] at hp
      cases hp
      exact hzero hpz

lemma fixedSize_concat (parts : List Part) {p : Part} (hp : p.size = 0) :
    fixedSize (parts ++ [p]) = fixedSize parts := by
  simp [fixedSize, hp]

/-- The new ranges are right exactly if they start at the lowest base and fit. -/
lemma ranges_iff (hvalid : fis_validate t.block old new = 1) (hne : new ≠ []) :
    t.RangesRight (newDescs new t.fb (t.limit - t.fb)) ↔
      t.IsLowest t.firstBase ∧ t.RangeSafe new := by
  have hfb := t.fb_toNat
  have hlimit := t.isLimit_limit
  have hfblt := t.fb.toNat_lt
  have hlimitlt := t.limit.toNat_lt
  have hle : t.firstBase ≤ t.limit.toNat := t.firstBase_le.trans hlimit.le
  rcases t.layout_cases hvalid hne with ⟨hsized, hnot⟩ | ⟨parts, p, rfl, hsized, hp, hauto⟩
  · constructor
    · rintro ⟨lowest, stop, hlowest, hc, hword, hfree⟩
      have hstop := stop_eq hsized hc
      have hbase := hc.base_eq hne
      rw [hfb] at hbase
      subst hbase hstop
      exact ⟨hlowest, ⟨fun _ => ⟨hword, hfree⟩, fun h => absurd h hnot⟩⟩
    · rintro ⟨hlowest, hsafe⟩
      obtain ⟨hword, hfree⟩ := hsafe.fixed hnot
      refine ⟨t.firstBase, t.firstBase + fixedSize new, hlowest, ?_, hword, hfree⟩
      have hc : Consecutive (newDescs new t.fb (t.limit - t.fb)) t.fb.toNat
          (t.fb.toNat + fixedSize new) := consecutive_sized hsized (by omega)
      rwa [hfb] at hc
  · have hrest : (t.limit - t.fb - wordSize parts).toNat =
        (2 ^ 32 - fixedSize parts % 2 ^ 32 + (t.limit.toNat - t.firstBase)) % 2 ^ 32 := by
      rw [UInt32.toNat_sub, UInt32.toNat_sub, wordSize_toNat, hfb]
      omega
    have hiff : ∀ stop, Consecutive (newDescs (parts ++ [p]) t.fb (t.limit - t.fb)) t.firstBase stop ↔
        t.firstBase + fixedSize parts < 2 ^ 32 ∧ stop = t.firstBase + fixedSize parts +
          (2 ^ 32 - fixedSize parts % 2 ^ 32 + (t.limit.toNat - t.firstBase)) % 2 ^ 32 := by
      intro stop
      rw [← hfb, consecutive_automatic hsized hp, hrest, hfb]
    have hsum := fixedSize_concat parts hp
    constructor
    · rintro ⟨lowest, stop, hlowest, hc, hword, hfree⟩
      have hbase := hc.base_eq hne
      rw [hfb] at hbase
      subst hbase
      obtain ⟨hlt, rfl⟩ := (hiff stop).mp hc
      refine ⟨hlowest, ⟨fun h => absurd hauto h, fun _ limit hlim => ?_⟩⟩
      obtain rfl := hlim.unique hlimit
      rw [hsum]
      by_cases hfits : t.firstBase + fixedSize parts ≤ t.limit.toNat
      · have hend : t.firstBase + fixedSize parts +
            (2 ^ 32 - fixedSize parts % 2 ^ 32 + (t.limit.toNat - t.firstBase)) % 2 ^ 32 =
              t.limit.toNat := by omega
        rw [hend] at hfree
        exact .inl ⟨hfits, hfree⟩
      · have hend : t.firstBase + fixedSize parts +
            (2 ^ 32 - fixedSize parts % 2 ^ 32 + (t.limit.toNat - t.firstBase)) % 2 ^ 32 =
              2 ^ 32 + t.limit.toNat := by omega
        rw [hend] at hfree hword
        refine .inr ⟨by omega, by omega, by omega, List.eq_nil_iff_forall_not_mem.mpr fun d hd => ?_⟩
        have hbase := hfree d hd (by omega)
        have hlt := d.flash_base.toNat_lt
        omega
    · rintro ⟨hlowest, hsafe⟩
      rcases hsafe.automatic hauto _ hlimit with ⟨hfits, hfree⟩ | ⟨hzero, hpos, hlt, hnone⟩
      · rw [hsum] at hfits
        refine ⟨t.firstBase, t.limit.toNat, hlowest, (hiff _).mpr ⟨by omega, by omega⟩, by omega, hfree⟩
      · rw [hsum] at hpos hlt
        refine ⟨t.firstBase, 2 ^ 32, hlowest, (hiff _).mpr ⟨by omega, by omega⟩, le_rfl, ?_⟩
        rw [hnone]
        exact fun d hd => absurd hd List.not_mem_nil

lemma length_newDescs (parts : List Part) (o size : UInt32) :
    (newDescs parts o size).length = parts.length :=
  (newDescs_describes parts o size).length_eq.symm

/-- The directory is rewritten as it should be exactly if there are not fewer new partitions than old
ones, the lowest old partition is the first or the last one in the table, and the sizes fit. -/
theorem remap_iff (new : List Part) (hvalid : fis_validate t.block old new = 1)
    (hfits : t.before.length + new.length + t.after.length ≤ t.block.length) :
    t.RemapRight new ↔ t.RemapSafe new := by
  by_cases hshrink : new.length < t.olds.length
  · -- the fill behind the table does not end inside
    constructor
    · rintro ⟨news, hremap, -⟩
      obtain ⟨e, he⟩ := t.moveTail_shrink new hshrink
      rw [fis_remap_eq, he] at hremap
      cases hremap
    · intro h
      have := h.enough
      omega
  have hgrow : t.olds.length ≤ new.length := by omega
  have hne : new ≠ [] := by
    rintro rfl
    have := t.length_olds_pos
    rw [List.length_nil] at hgrow
    omega
  obtain ⟨moved, hmoved, htake, hdrop⟩ := t.moveTail_grow hgrow hfits
  have hremap : fis_remap t.block old new = .ok (t.before ++ newDescs new t.fb (t.limit - t.fb) ++
      t.after ++ (t.rest.take (t.olds.length + t.rest.length - new.length) ++
        List.replicate (t.olds.length - new.length) .erased)) := by
    rw [fis_remap_eq, hmoved, ok_bind, touch_eq (by omega), ok_bind, htake, hdrop,
      Nat.sub_eq_zero_of_le hgrow, List.replicate_zero, List.append_nil, List.append_assoc,
      List.append_assoc, List.append_assoc]
  constructor
  · rintro ⟨news, hnews, hdescribes, hranges⟩
    have hlen : news.length = new.length := hdescribes.length_eq.symm
    have heq := Except.ok.inj (hremap.symm.trans hnews)
    simp only [List.append_assoc] at heq
    have hnews' := (List.append_inj (List.append_cancel_left heq)
      (by rw [length_newDescs, hlen])).1
    rw [← hnews', t.ranges_iff hvalid hne] at hranges
    exact ⟨hgrow, hranges.1, hranges.2⟩
  · intro h
    exact ⟨_, hremap, newDescs_describes _ _ _, (t.ranges_iff hvalid hne).mpr ⟨h.lowest, h.ranges⟩⟩

end Remap

/-! ## A table of three partitions -/

/-- A descriptor with a name of one letter. -/
def sampleDesc (letter : Bytes.Byte) (flash_base size : UInt32) : Desc :=
  newDesc ⟨letter :: List.replicate 15 0, 0, size, 0, 0⟩ flash_base 0

/-- A partition with a name of one letter. -/
def samplePart (letter : Bytes.Byte) (size : UInt32) : Part :=
  ⟨letter :: List.replicate 15 0, 0x80060000, size, 0, 0⟩

/-- The partitions `a`, `b` and `c`; `a` and `b` are the old ones. -/
def sample : Directory [samplePart 0x61 0, samplePart 0x62 0] where
  before := []
  olds := [sampleDesc 0x61 0x1000 0x1000, sampleDesc 0x62 0x2000 0x1000]
  after := [sampleDesc 0x63 0x3000 0x1000]
  rest := [.erased, .erased]
  live := by decide
  stop := by decide
  matched := by decide
  kept := by decide
  some_old := by decide

/-- Three new partitions in the place of two. -/
theorem remap_sample :
    sample.RemapRight [samplePart 0x64 0x400, samplePart 0x65 0x400, samplePart 0x66 0x1800] := by
  refine (remap_iff sample _ (by decide +kernel) (by decide)).mpr ⟨by decide, ⟨?_, by decide⟩, ?_, ?_⟩
  · exact ⟨_, List.mem_cons_self, by decide⟩
  · exact fun _ => ⟨by decide, by decide⟩
  · rintro ⟨p, hp, hzero⟩
    cases hp
    exact absurd hzero (by decide)

/-- One new partition in the place of two: the fill behind the table leaves the block. -/
theorem remap_sample_shrink :
    fis_validate sample.block [samplePart 0x61 0, samplePart 0x62 0] [samplePart 0x64 0x2000] = 1 ∧
      ¬sample.RemapRight [samplePart 0x64 0x2000] := by
  refine ⟨by decide +kernel, ?_⟩
  rintro ⟨news, hremap, -⟩
  obtain ⟨e, he⟩ := sample.moveTail_shrink [samplePart 0x64 0x2000] (by decide)
  rw [fis_remap_eq, he] at hremap
  cases hremap

end Directory

end Mtd.Fis
