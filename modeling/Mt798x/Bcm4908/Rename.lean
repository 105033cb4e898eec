import Mt798x.Bcm4908.RoundTrip
import Mt798x.Lib.Guard
import Mt798x.Lib.Halfwords

/-!
# Renaming a file of the bootfs

`bcm4908img_bootfs_mv` walks over the JFFS2 nodes of an image from the start of its bootfs.  The
first directory entry with the old name gets the new one and its checksum, in place; then the
checksum of the image is computed anew and written into the last bytes of the file.

This file has the program, what is asked of it and the walk: it ends exactly if no node on the way
has the length 0.
-/

namespace Bcm4908

open Bytes Guard

/-! ## The source -/

/-- `JFFS2_MAGIC_BITMASK` -/
def JFFS2_MAGIC_BITMASK : ℕ := 0x1985

/-- `JFFS2_NODETYPE_DIRENT` -/
def JFFS2_NODETYPE_DIRENT : ℕ := 0xe001

/-- `FILENAME_MAX` -/
def FILENAME_MAX : ℕ := 4096

/-- `(je32_to_cpu(node.totlen) + 0x03) & ~0x03`, on 32 bits. -/
def nodeStep (totlen : UInt32) : ℕ := (totlen.toNat + 3) % 2 ^ 32 / 4 * 4

/-- A text as `strcmp` sees it: up to a NUL. -/
def cstring (bs : List Byte) : List Byte := bs.takeWhile fun b => b ≠ 0

/-- How a turn of the search ends. -/
inductive Turn
  | fail (e : Errno)
  | next
  | found (nsize : ℕ)
deriving DecidableEq, Repr

/-- One turn of the search in `bcm4908img_bootfs_mv`. -/
def turn (host : Endian) (fp oldname : List Byte) (offset : ℕ) : Turn :=
  let node := fread fp offset 12
  if node.length ≠ 12 then .fail .eio
  else if get16 host node ≠ JFFS2_MAGIC_BITMASK then .fail .enoent
  else if get16 host (node.drop 2) ≠ JFFS2_NODETYPE_DIRENT then .next
  else
    let dirent := fread fp (offset + 12) 28
    if dirent.length ≠ 28 then .fail .eio
    else
      let nsize := (dirent.getD 16 0).toNat
      if FILENAME_MAX < nsize + 1 then .next
      else
        let name := fread fp (offset + 40) nsize
        if name.length ≠ nsize then .fail .eio
        else if cstring name ≠ oldname then .next
        else .found nsize

/-- `bcm4908img_calc_crc32`; `none` if the file ends early. -/
def bcm4908img_calc_crc32 (fp : List Byte) (info : Info) : Option UInt32 :=
  let length := info.tail_offset - info.cferom_offset
  let r := readChunks fp length info.cferom_offset length
  if r.2 ≠ 0 then none else some (r.1.foldl bcm4908img_crc32 0xffffffff)

/-- What `bcm4908img_bootfs_mv` does to the entry it has found, with a name of `nsize` bytes. -/
def rewriteEntry (host : Endian) (fp : List Byte) (info : Info) (newname : List Byte)
    (offset nsize : ℕ) : Except Fault (Except Errno Unit × List Byte) := do
  -- the name is read up to the size in the entry
  touch (newname.length + 1) nsize
  let text := (newname ++ [0]).take nsize
  let fp := splice fp (offset + 36) (put32 host (bcm4908img_crc32 0 text))
  let fp := splice fp (offset + 40) text
  match bcm4908img_calc_crc32 fp info with
  | none => .ok (.error .eio, fp)
  | some crc32 =>
    let tail := { info.tail with crc32 := crc32 }
    .ok (.ok (), splice fp (fp.length - tailSize) tail.bytes)

/-- The search from an offset on, on `fuel`: the result and the file. -/
def mvLoop (host : Endian) (fp : List Byte) (info : Info) (oldname newname : List Byte) :
    ℕ → ℕ → Except Fault (Except Errno Unit × List Byte)
  | 0, _ => .error .endless
  | fuel + 1, offset =>
    match turn host fp oldname offset with
    | .fail e => .ok (.error e, fp)
    | .next =>
      mvLoop host fp info oldname newname fuel
        (offset + nodeStep (get32 host ((fread fp offset 12).drop 4)))
    | .found nsize => rewriteEntry host fp info newname offset nsize

/-- `bcm4908img_bootfs_mv` with two names ends with a result and a file. -/
def Mv (host : Endian) (fp : List Byte) (info : Info) (oldname newname : List Byte)
    (out : Except Errno Unit × List Byte) : Prop :=
  if newname.length ≠ oldname.length then out = (.error .einval, fp)
  else ∃ fuel, mvLoop host fp info oldname newname fuel info.bootfs_offset = .ok out

/-! ## What is asked for -/

section Nodes

variable (host : Endian) (fp : List Byte)

/-- There is a node at an offset. -/
structure IsNode (off : ℕ) : Prop where
  inside : off + 12 ≤ fp.length
  magic : get16 host (fp.drop off) = JFFS2_MAGIC_BITMASK

/-- The node is a directory entry. -/
def IsDirent (off : ℕ) : Prop := get16 host (fp.drop (off + 2)) = JFFS2_NODETYPE_DIRENT

/-- The size of the name. -/
def nsizeAt (off : ℕ) : ℕ := (fp.getD (off + 28) 0).toNat

/-- The bytes of the name. -/
def nameAt (off : ℕ) : List Byte := fread fp (off + 40) (nsizeAt fp off)

/-- A directory entry with a name. -/
structure Named (name : List Byte) (off : ℕ) : Prop where
  node : IsNode host fp off
  dirent : IsDirent host fp off
  inside : off + 40 + nsizeAt fp off ≤ fp.length
  name : cstring (nameAt fp off) = name

/-- The node behind a node. -/
def nextNode (off : ℕ) : ℕ := off + nodeStep (get32 host (fp.drop (off + 4)))

/-- The place of a node in the chain of nodes. -/
def place (start k : ℕ) : ℕ := (nextNode host fp)^[k] start

/-- The first directory entry with a name is the node `k`. -/
structure FirstNamed (name : List Byte) (start k : ℕ) : Prop where
  node : ∀ j < k, IsNode host fp (place host fp start j)
  before : ∀ j < k, ¬Named host fp name (place host fp start j)
  named : Named host fp name (place host fp start k)

end Nodes

/-- The same parts at the same places. -/
def SameOffsets (info info' : Info) : Prop :=
  info'.cferom_offset = info.cferom_offset ∧ info'.bootfs_offset = info.bootfs_offset ∧
    info'.padding_offset = info.padding_offset ∧ info'.rootfs_offset = info.rootfs_offset ∧
    info'.tail_offset = info.tail_offset

/-- The file has changed in the name and the checksum of an entry and in the checksum of the tail
only. -/
def ChangedOnly (fp fp' : List Byte) (e n T : ℕ) : Prop :=
  fp'.length = fp.length ∧ ∀ i, ¬(e + 36 ≤ i ∧ i < e + 40 + n) → ¬(T ≤ i ∧ i < T + 4) →
    fp'[i]? = fp[i]?

/-- A successful renaming: the first entry with the old name has changed and nothing else, the file
is accepted with its parts at the same places, and renaming back restores it. -/
structure Renamed (host : Endian) (fp : List Byte) (info : Info) (old new : List Byte)
    (fp' : List Byte) (k : ℕ) : Prop where
  first : FirstNamed host fp old info.bootfs_offset k
  changed : ChangedOnly fp fp' (place host fp info.bootfs_offset k)
    (nsizeAt fp (place host fp info.bootfs_offset k)) info.tail_offset
  accepted : ∃ info', bcm4908img_parse fp' = .ok info' ∧ SameOffsets info info' ∧
    ((∀ j < k, ¬Named host fp' new (place host fp' info.bootfs_offset j)) →
      Mv host fp' info' new old (.ok (), fp))

/-- The command ends; if it succeeds it has renamed the file, and if not it has left the image
alone. -/
def MvRight (host : Endian) (fp : List Byte) (info : Info) (old new : List Byte) : Prop :=
  ∃ out, Mv host fp info old new out ∧
    ((out.1 = .ok () → ∃ k, Renamed host fp info old new out.2 k) ∧
      ((∃ e, out.1 = .error e) → out.2 = fp))

/-! ## The walk -/

section Walk

variable {host : Endian} {fp old new : List Byte} {info : Info} {off start n k : ℕ}

/-- A node that the search passes by. -/
structure Passed (host : Endian) (fp old : List Byte) (off : ℕ) : Prop where
  node : IsNode host fp off
  entry : IsDirent host fp off →
    off + 40 + nsizeAt fp off ≤ fp.length ∧ cstring (nameAt fp off) ≠ old

/-- The search comes to the node `k`. -/
def Reached (host : Endian) (fp old : List Byte) (start k : ℕ) : Prop :=
  ∀ j < k, Passed host fp old (place host fp start j)

lemma get16_take {e : Endian} {bs : List Byte} (h : 2 ≤ n) : get16 e (bs.take n) = get16 e bs := by
  have hget : ∀ i < 2, (bs.take n).getD i 0 = bs.getD i 0 := by
    intro i hi
    rw [List.getD_eq_getElem?_getD, List.getD_eq_getElem?_getD, List.getElem?_take_of_lt (by omega)]
  cases e <;> rw [get16, get16, hget 0 (by decide), hget 1 (by decide)]

lemma get32_take {e : Endian} {bs : List Byte} (h : 4 ≤ n) : get32 e (bs.take n) = get32 e bs := by
  rw [← get32_take_four, List.take_take, Nat.min_eq_left h, get32_take_four]

lemma drop_fread (m : ℕ) : (fread fp off n).drop m = fread fp (off + m) (n - m) := by
  rw [fread, fread, List.drop_take, List.drop_drop]

instance : Decidable (IsDirent host fp off) := inferInstanceAs (Decidable (_ = _))

/-- What the turn does, in terms of the file. -/
lemma turn_eq (host : Endian) (fp old : List Byte) (off : ℕ) : turn host fp old off =
    if fp.length < off + 12 then .fail .eio
    else if get16 host (fp.drop off) ≠ JFFS2_MAGIC_BITMASK then .fail .enoent
    else if ¬IsDirent host fp off then .next
    else if fp.length < off + 40 + nsizeAt fp off then .fail .eio
    else if cstring (nameAt fp off) ≠ old then .next
    else .found (nsizeAt fp off) := by
  rw [turn]
  by_cases hnode : fp.length < off + 12
  · have hlen : (fread fp off 12).length ≠ 12 := by
      rw [Ne, length_fread_iff (by decide)]
      omega
    rw [if_pos hnode]
    simp only [ne_eq, hlen, not_false_eq_true, if_true]
  have hlen : (fread fp off 12).length = 12 := length_fread (by omega)
  have hmagic : get16 host (fread fp off 12) = get16 host (fp.drop off) := get16_take (by decide)
  have htype : get16 host ((fread fp off 12).drop 2) = get16 host (fp.drop (off + 2)) := by
    rw [drop_fread]
    exact get16_take (by decide)
  rw [if_neg hnode]
  simp only [hlen, ne_eq, not_true_eq_false, if_false, hmagic, htype]
  refine if_congr Iff.rfl rfl (if_congr Iff.rfl rfl ?_)
  by_cases hdirent : fp.length < off + 40
  · have hlen28 : (fread fp (off + 12) 28).length ≠ 28 := by
      rw [Ne, length_fread_iff (by decide)]
      omega
    rw [if_pos hlen28, if_pos (by omega)]
  have hlen28 : (fread fp (off + 12) 28).length = 28 := length_fread (by omega)
  have hsize : ((fread fp (off + 12) 28).getD 16 0).toNat = nsizeAt fp off := by
    rw [nsizeAt, fread, List.getD_eq_getElem?_getD, List.getElem?_take_of_lt (by decide),
      List.getElem?_drop, ← List.getD_eq_getElem?_getD, show off + 12 + 16 = off + 28 by omega]
  have hlt : nsizeAt fp off < 256 := UInt8.toNat_lt _
  have hmax : ¬FILENAME_MAX < nsizeAt fp off + 1 := by
    rw [FILENAME_MAX]
    omega
  simp only [hlen28, not_true_eq_false, if_false, hsize, hmax]
  have hname : (fread fp (off + 40) (nsizeAt fp off)).length = nsizeAt fp off ↔
      ¬fp.length < off + 40 + nsizeAt fp off := by
    rw [fread, List.length_take, List.length_drop]
    omega
  simp only [hname, not_not]
  rfl

lemma turn_next_iff : turn host fp old off = .next ↔ Passed host fp old off := by
  rw [turn_eq]
  constructor
  · intro h
    split_ifs at h with hlen hmagic htype hsize hname
    · exact ⟨⟨by omega, not_not.mp hmagic⟩, fun _ => ⟨by omega, hname⟩⟩
    · exact ⟨⟨by omega, not_not.mp hmagic⟩, fun hd => absurd hd htype⟩
  · rintro ⟨⟨hlen, hmagic⟩, hentry⟩
    rw [if_neg (by omega), if_neg (not_not.mpr hmagic)]
    by_cases htype : IsDirent host fp off
    · obtain ⟨hsize, hname⟩ := hentry htype
      rw [if_neg (not_not.mpr htype), if_neg (by omega), if_pos hname]
    · rw [if_pos htype]

lemma turn_found_iff : turn host fp old off = .found n ↔
    Named host fp old off ∧ nsizeAt fp off = n := by
  rw [turn_eq]
  constructor
  · intro h
    split_ifs at h with hlen hmagic htype hsize hname
    cases h
    exact ⟨⟨⟨by omega, not_not.mp hmagic⟩, htype, by omega, not_not.mp hname⟩, rfl⟩
  · rintro ⟨⟨⟨hlen, hmagic⟩, htype, hsize, hname⟩, rfl⟩
    rw [if_neg (by omega), if_neg (not_not.mpr hmagic), if_neg (not_not.mpr htype),
      if_neg (by omega), if_neg (not_not.mpr hname)]

lemma Passed.not_named (h : Passed host fp old off) : ¬Named host fp old off :=
  fun hnamed => (h.entry hnamed.dirent).2 hnamed.name

lemma passed_or (host : Endian) (fp old : List Byte) (off : ℕ) : Passed host fp old off ∨
    Named host fp old off ∨ ∃ e, turn host fp old off = .fail e := by
  cases hturn : turn host fp old off with
  | fail e => exact .inr (.inr ⟨e, rfl⟩)
  | next => exact .inl (turn_next_iff.mp hturn)
  | found n => exact .inr (.inl (turn_found_iff.mp hturn).1)

lemma place_succ (k : ℕ) : place host fp start (k + 1) =
    nextNode host fp (place host fp start k) := Function.iterate_succ_apply' _ _ _

/-- The length of a node. -/
def stepAt (host : Endian) (fp : List Byte) (off : ℕ) : ℕ :=
  nodeStep (get32 host (fp.drop (off + 4)))

lemma nodeStep_dvd (w : UInt32) : 4 ∣ nodeStep w := Dvd.intro_left _ rfl

lemma mvLoop_next (h : Passed host fp old off) (fuel : ℕ) :
    mvLoop host fp info old new (fuel + 1) off =
      mvLoop host fp info old new fuel (nextNode host fp off) := by
  have htot : get32 host ((fread fp off 12).drop 4) = get32 host (fp.drop (off + 4)) := by
    rw [drop_fread]
    exact get32_take (by decide)
  rw [mvLoop, turn_next_iff.mpr h]
  dsimp only
  rw [htot, nextNode]

lemma mvLoop_found (h : Named host fp old off) (fuel : ℕ) :
    mvLoop host fp info old new (fuel + 1) off =
      rewriteEntry host fp info new off (nsizeAt fp off) := by
  rw [mvLoop, turn_found_iff.mpr ⟨h, rfl⟩]

variable (info new) in
lemma mvLoop_reached (h : Reached host fp old start k) (fuel : ℕ) :
    mvLoop host fp info old new (k + fuel) start =
      mvLoop host fp info old new fuel (place host fp start k) := by
  induction k generalizing fuel with
  | zero => rw [Nat.zero_add, place, Function.iterate_zero_apply]
  | succ k ih =>
    rw [Nat.add_right_comm, Nat.add_assoc, ih (fun j hj => h j (by omega)),
      mvLoop_next (h k k.lt_succ_self), place_succ]

lemma walk_cases (host : Endian) (fp old : List Byte) (start : ℕ) :
    (∀ k, Reached host fp old start k) ∨ ∃ k, Reached host fp old start k ∧
      (Named host fp old (place host fp start k) ∨
        ∃ e, turn host fp old (place host fp start k) = .fail e) := by
  by_cases hall : ∀ k, Passed host fp old (place host fp start k)
  · exact .inl fun k j _ => hall j
  · right
    classical
    have hex : ∃ k, ¬Passed host fp old (place host fp start k) := not_forall.mp hall
    refine ⟨Nat.find hex, fun j hj => not_not.mp (Nat.find_min hex hj), ?_⟩
    rcases passed_or host fp old (place host fp start (Nat.find hex)) with h | h
    · exact absurd h (Nat.find_spec hex)
    · exact h

/-- No node on the way has the length 0. -/
def Moves (host : Endian) (fp old : List Byte) (start : ℕ) : Prop :=
  ∀ k, Reached host fp old start (k + 1) → stepAt host fp (place host fp start k) ≠ 0

lemma Moves.place_add (h : Moves host fp old start) (hk : Reached host fp old start k) :
    start + 4 * k ≤ place host fp start k := by
  induction k with
  | zero => exact le_rfl
  | succ k ih =>
    have hle := ih fun j hj => hk j (by omega)
    have hstep := h k hk
    have hdvd := nodeStep_dvd (get32 host (fp.drop (place host fp start k + 4)))
    rw [place_succ, nextNode]
    rw [stepAt] at hstep
    omega

lemma Moves.place_lt {j : ℕ} (h : Moves host fp old start) (hk : Reached host fp old start k)
    (hj : j < k) : place host fp start j + 4 ≤ place host fp start k := by
  induction k with
  | zero => omega
  | succ k ih =>
    have hstep := h k hk
    have hdvd := nodeStep_dvd (get32 host (fp.drop (place host fp start k + 4)))
    rw [stepAt] at hstep
    rw [place_succ, nextNode]
    rcases Nat.lt_succ_iff_lt_or_eq.mp hj with hlt | rfl
    · have hle := ih (fun i hi => hk i (by omega)) hlt
      omega
    · omega

/-- Where each node has a length the search ends, at a node it finds or one it fails at. -/
lemma Moves.ends (h : Moves host fp old start) : ∃ k, Reached host fp old start k ∧
    (Named host fp old (place host fp start k) ∨
      ∃ e, turn host fp old (place host fp start k) = .fail e) := by
  rcases walk_cases host fp old start with hall | hend
  · have hle := h.place_add (hall (fp.length + 1))
    have hnode := (hall (fp.length + 2) (fp.length + 1) (by omega)).node.inside
    omega
  · exact hend

lemma place_of_stepAt_eq_zero {j : ℕ} (h : stepAt host fp (place host fp start k) = 0)
    (hj : k ≤ j) : place host fp start j = place host fp start k := by
  induction j, hj using Nat.le_induction with
  | base => rfl
  | succ j _ ih => rw [place_succ, ih, nextNode, ← stepAt, h, Nat.add_zero]

lemma mvLoop_endless (h : ∀ k, Reached host fp old start k) (fuel : ℕ) :
    mvLoop host fp info old new fuel start = .error .endless := by
  have hloop := mvLoop_reached new info (h fuel) 0
  rwa [Nat.add_zero] at hloop

variable {out : Except Errno Unit × List Byte}

lemma moves_of_mvLoop {fuel : ℕ} (h : mvLoop host fp info old new fuel start = .ok out) :
    Moves host fp old start := by
  intro k hk hzero
  have hall : ∀ j, Reached host fp old start j := by
    intro j i hi
    rcases Nat.lt_or_ge i (k + 1) with hlt | hge
    · exact hk i hlt
    · rw [place_of_stepAt_eq_zero hzero (by omega)]
      exact hk k k.lt_succ_self
  rw [mvLoop_endless hall] at h
  cases h

lemma mvLoop_iff (h : Reached host fp old start k)
    {r : Except Fault (Except Errno Unit × List Byte)}
    (hlast : ∀ fuel, mvLoop host fp info old new (fuel + 1) (place host fp start k) = r) :
    (∃ fuel, mvLoop host fp info old new fuel start = .ok out) ↔ r = .ok out := by
  constructor
  · rintro ⟨fuel, hfuel⟩
    rcases Nat.lt_or_ge k fuel with hlt | hge
    · have hreached := mvLoop_reached new info h (fuel - k - 1 + 1)
      rw [hlast, show k + (fuel - k - 1 + 1) = fuel by omega, hfuel] at hreached
      exact hreached.symm
    · have hloop := mvLoop_reached new info
        (k := fuel) (fun j hj => h j (by omega)) 0
      rw [Nat.add_zero, hfuel] at hloop
      cases hloop
  · intro hr
    exact ⟨k + 1, by rw [mvLoop_reached _ _ h, hlast 0, hr]⟩

lemma mv_found_iff (hlen : new.length = old.length) (h : Reached host fp old info.bootfs_offset k)
    (hnamed : Named host fp old (place host fp info.bootfs_offset k)) :
    Mv host fp info old new out ↔
      rewriteEntry host fp info new (place host fp info.bootfs_offset k)
        (nsizeAt fp (place host fp info.bootfs_offset k)) = .ok out := by
  rw [Mv, if_neg (not_not.mpr hlen)]
  exact mvLoop_iff h fun fuel => mvLoop_found hnamed fuel

lemma mv_fail_iff (hlen : new.length = old.length) (h : Reached host fp old info.bootfs_offset k)
    {e : Errno} (hfail : turn host fp old (place host fp info.bootfs_offset k) = .fail e) :
    Mv host fp info old new out ↔
      (.error e, fp) = out := by
  rw [Mv, if_neg (not_not.mpr hlen), mvLoop_iff (r := .ok (.error e, fp)) h fun fuel => ?_,
    Except.ok.injEq]
  rw [mvLoop, hfail]

end Walk

end Bcm4908
