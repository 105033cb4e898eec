import Mt798x.Lib.Guard
import Mt798x.Lib.Halfwords

/-!
# Reading a JFFS2 log

Before `mtd` appends a file it looks through the erase blocks of the JFFS2 partition for the inode of
a directory and for the greatest inode and version numbers.  `mtd_parse_jffs2data` walks over one
block: the length of a node leads to the next one, and a directory entry is compared with the name
that is looked for, up to the length of the entry's own name.

The length comes from flash and is not checked, so the walk may leave the block or never end; and a
name that is only the start of the wanted one is taken for it (`parse_right_iff`).
-/

namespace Mtd.Jffs2

open Bytes Guard

/-! ## The source -/

/-- A load of 16 bits from the block. -/
def load16 (e : Endian) (buf : List Bytes.Byte) (ofs : ℕ) : Except Fault ℕ := do
  touch buf.length (ofs + 2)
  .ok (get16 e (buf.drop ofs))

/-- A load of 32 bits from the block. -/
def load32 (e : Endian) (buf : List Bytes.Byte) (ofs : ℕ) : Except Fault UInt32 := do
  touch buf.length (ofs + 4)
  .ok (get32 e (buf.drop ofs))

/-- `JFFS2_MAGIC_BITMASK` -/
def magicBitmask : ℕ := 0x1985

/-- `JFFS2_NODETYPE_DIRENT` -/
def nodetypeDirent : ℕ := 0xe001

/-- `PAD`, on 32 bits. -/
def PAD (x : ℕ) : ℕ := (x + 3) % 2 ^ 32 / 4 * 4

/-- What the walk has found: `target_ino`, `last_ino` and `last_version`. -/
structure Found where
  target_ino : UInt32 := 0
  last_ino : UInt32 := 0
  last_version : UInt32 := 0
  deriving DecidableEq, Repr

/-- `!strncmp(name, dir, n)` for the name at `pos`; `dir` is followed by a NUL. -/
def strncmp (buf : List Bytes.Byte) (pos : ℕ) (dir : List Bytes.Byte) : ℕ → Except Fault Bool
  | 0 => .ok true
  | n + 1 =>
    match buf[pos]? with
    | none => .error .outside
    | some c =>
      if c ≠ dir.headD 0 then .ok false
      else if c = 0 then .ok true
      else strncmp buf (pos + 1) dir.tail n

/-- The test for the directory: an entry of the root directory with the name. -/
def isTarget (e : Endian) (buf dir : List Bytes.Byte) (ofs : ℕ) : Except Fault Bool :=
  if dir = [] then .ok false
  else do
    let pino ← load32 e buf (ofs + 12)
    if pino ≠ 1 then .ok false
    else do
      touch buf.length (ofs + 29)
      strncmp buf (ofs + 40) dir (buf.getD (ofs + 28) 0).toNat

/-- The body of the loop for a directory entry. -/
def readDirent (e : Endian) (buf dir : List Bytes.Byte) (ofs : ℕ) (st : Found) : Except Fault Found := do
  let found ← isTarget e buf dir ofs
  let ino ← load32 e buf (ofs + 20)
  let version ← load32 e buf (ofs + 16)
  .ok
    { target_ino := if found then ino else st.target_ino
      last_ino := if st.last_ino < ino then ino else st.last_ino
      last_version := if st.last_version < version then version else st.last_version }

/-- The body of the loop behind the test of the magic number. -/
def readNode (e : Endian) (buf dir : List Bytes.Byte) (ofs : ℕ) (st : Found) : Except Fault Found := do
  let nodetype ← load16 e buf (ofs + 2)
  if nodetype = nodetypeDirent then readDirent e buf dir ofs st else .ok st

/-- The loop of `mtd_parse_jffs2data` from `ofs` on, on `fuel`. -/
def parseLoop (e : Endian) (buf dir : List Bytes.Byte) : ℕ → ℕ → Found → Except Fault Found
  | 0, _, _ => .error .endless
  | fuel + 1, ofs, st =>
    if buf.length ≤ ofs then .ok st
    else do
      let magic ← load16 e buf ofs
      if magic ≠ magicBitmask then .ok st
      else do
        let totlen ← load32 e buf (ofs + 4)
        let st ← readNode e buf dir ofs st
        parseLoop e buf dir fuel ((ofs + PAD totlen.toNat) % 2 ^ 32) st

/-- `mtd_parse_jffs2data` ends, without having left the block. -/
def Parses (e : Endian) (dir buf : List Bytes.Byte) (st st' : Found) : Prop :=
  ∃ fuel, parseLoop e buf dir fuel 0 st = .ok st'

/-- `mtd_parse_jffs2data` on the blocks of a log. -/
inductive ParsesLog (e : Endian) (dir : List Bytes.Byte) : List (List Bytes.Byte) → Found → Found → Prop
  | nil (st : Found) : ParsesLog e dir [] st st
  | cons {buf : List Bytes.Byte} {bufs : List (List Bytes.Byte)} {st st1 st2 : Found}
      (h : Parses e dir buf st st1) (hrest : ParsesLog e dir bufs st1 st2) :
      ParsesLog e dir (buf :: bufs) st st2

/-! ## Well-formed blocks -/

/-- A directory entry. -/
structure Dirent where
  pino : UInt32
  version : UInt32
  ino : UInt32
  name : List Bytes.Byte
  deriving DecidableEq, Repr

/-- A node with a header lies in the block, and behind it the next one. -/
structure NodeAt (e : Endian) (buf : List Bytes.Byte) (ofs next : ℕ) : Prop where
  magic : get16 e (buf.drop ofs) = magicBitmask
  long : 12 ≤ (get32 e (buf.drop (ofs + 4))).toNat
  stop : next = ofs + ((get32 e (buf.drop (ofs + 4))).toNat + 3) / 4 * 4
  inside : next ≤ buf.length

/-- The node at `ofs` is a directory entry. -/
structure DirentAt (e : Endian) (buf : List Bytes.Byte) (ofs : ℕ) (d : Dirent) : Prop where
  nodetype : get16 e (buf.drop (ofs + 2)) = nodetypeDirent
  pino : get32 e (buf.drop (ofs + 12)) = d.pino
  version : get32 e (buf.drop (ofs + 16)) = d.version
  ino : get32 e (buf.drop (ofs + 20)) = d.ino
  nsize : (buf.getD (ofs + 28) 0).toNat = d.name.length
  totlen : (get32 e (buf.drop (ofs + 4))).toNat = 40 + d.name.length
  name : (buf.drop (ofs + 40)).take d.name.length = d.name
  letters : d.name ≠ [] ∧ 0 ∉ d.name

/-- A block is filled with nodes from `ofs` on, up to its end or to a place without a node; the
directory entries among them. -/
inductive Laid (e : Endian) (buf : List Bytes.Byte) : ℕ → List Dirent → Prop
  | stop : Laid e buf buf.length []
  | blank {ofs : ℕ} (hin : ofs + 2 ≤ buf.length) (h : get16 e (buf.drop ofs) ≠ magicBitmask) :
      Laid e buf ofs []
  | other {ofs next : ℕ} {ds : List Dirent} (h : NodeAt e buf ofs next)
      (hother : get16 e (buf.drop (ofs + 2)) ≠ nodetypeDirent) (hrest : Laid e buf next ds) :
      Laid e buf ofs ds
  | dirent {ofs next : ℕ} {d : Dirent} {ds : List Dirent} (h : NodeAt e buf ofs next)
      (hd : DirentAt e buf ofs d) (hrest : Laid e buf next ds) : Laid e buf ofs (d :: ds)

/-- The inode of the last entry of the root directory whose name is `dir`, or 0. -/
def wantedIno (ds : List Dirent) (dir : List Bytes.Byte) : UInt32 :=
  ((ds.filter fun d => d.pino = 1 ∧ d.name = dir).getLast?.map Dirent.ino).getD 0

/-- The greatest of some numbers, or 0. -/
def IsMax (xs : List UInt32) (m : UInt32) : Prop := (∀ x ∈ xs, x ≤ m) ∧ (m = 0 ∨ m ∈ xs)

/-- The walk over the log ends inside the blocks, and in a log of well-formed blocks it finds the
directory and the greatest numbers. -/
def ParsesRight (e : Endian) (dir : List Bytes.Byte) (bufs : List (List Bytes.Byte)) : Prop :=
  ∃ st, ParsesLog e dir bufs {} st ∧
    ∀ dss, List.Forall₂ (fun buf ds => Laid e buf 0 ds) bufs dss →
      st.target_ino = wantedIno dss.flatten dir ∧
        IsMax (dss.flatten.map Dirent.ino) st.last_ino ∧
        IsMax (dss.flatten.map Dirent.version) st.last_version

/-! ## When it is right -/

/-- What is compared of the name at `pos` lies in the block. -/
def NameInside (buf : List Bytes.Byte) (pos : ℕ) (dir : List Bytes.Byte) (n : ℕ) : Prop :=
  n = 0 ∨ pos + n ≤ buf.length ∨ ¬buf.drop pos <+: dir

/-- What is read of the directory entry at `ofs` lies in the block. -/
def DirentInside (e : Endian) (buf dir : List Bytes.Byte) (ofs : ℕ) : Prop :=
  ofs + 24 ≤ buf.length ∧ (dir ≠ [] → get32 e (buf.drop (ofs + 12)) = 1 →
    ofs + 29 ≤ buf.length ∧ NameInside buf (ofs + 40) dir (buf.getD (ofs + 28) 0).toNat)

/-- From `ofs` on a chain of finitely many nodes leads to the end of the block or to a place without
a node, and what is read of them lies in the block. -/
inductive Walks (e : Endian) (buf dir : List Bytes.Byte) : ℕ → Prop
  | stop {ofs : ℕ} (h : buf.length ≤ ofs) : Walks e buf dir ofs
  | blank {ofs : ℕ} (hin : ofs + 2 ≤ buf.length) (h : get16 e (buf.drop ofs) ≠ magicBitmask) :
      Walks e buf dir ofs
  | node {ofs : ℕ} (hin : ofs + 8 ≤ buf.length) (hmagic : get16 e (buf.drop ofs) = magicBitmask)
      (hdirent : get16 e (buf.drop (ofs + 2)) = nodetypeDirent → DirentInside e buf dir ofs)
      (hnext : Walks e buf dir ((ofs + PAD (get32 e (buf.drop (ofs + 4))).toNat) % 2 ^ 32)) :
      Walks e buf dir ofs

/-- Each entry of the root directory that is named by a shorter start of `dir` is followed by
another one that is named by a start of `dir`, or leads to the inode that is wanted. -/
def Unmistaken (ds : List Dirent) (dir : List Bytes.Byte) : Prop :=
  ∀ l d r, ds = l ++ d :: r → d.pino = 1 → d.name <+: dir → d.name ≠ dir →
    (∃ d' ∈ r, d'.pino = 1 ∧ d'.name <+: dir) ∨ d.ino = wantedIno ds dir

/-! ## The walk over a block -/

section Block

variable {e : Endian} {buf dir : List Bytes.Byte} {ofs : ℕ} {st st' : Found}

lemma load16_eq (h : ofs + 2 ≤ buf.length) : load16 e buf ofs = .ok (get16 e (buf.drop ofs)) := by
  rw [load16, touch_eq h]
  rfl

lemma load32_eq (h : ofs + 4 ≤ buf.length) : load32 e buf ofs = .ok (get32 e (buf.drop ofs)) := by
  rw [load32, touch_eq h]
  rfl

lemma touch_outside {size stop : ℕ} (h : ¬stop ≤ size) : touch size stop = .error .outside :=
  if_neg h

lemma load32_outside (h : ¬ofs + 4 ≤ buf.length) : load32 e buf ofs = .error .outside := by
  rw [load32, touch_outside h]
  rfl

/-- The comparison of a name that lies in the block, up to where it is decided. -/
lemma strncmp_inside (hdir : 0 ∉ dir) (n : ℕ) {pos : ℕ} :
    (NameInside buf pos dir n → ∃ b, strncmp buf pos dir n = .ok b) ∧
      (¬NameInside buf pos dir n → strncmp buf pos dir n = .error .outside) := by
  induction n generalizing pos dir with
  | zero => exact ⟨fun _ => ⟨true, rfl⟩, fun h => absurd (.inl rfl) h⟩
  | succ n ih =>
    rw [strncmp]
    rcases Nat.lt_or_ge pos buf.length with hlt | hge
    · have hdrop : buf.drop pos = buf[pos] :: buf.drop (pos + 1) := List.drop_eq_getElem_cons hlt
      rw [List.getElem?_eq_getElem hlt]
      dsimp only
      split
      · -- a difference decides
        rename_i hne
        refine ⟨fun _ => ⟨false, rfl⟩, fun h => absurd (.inr (.inr fun hpre => hne ?_)) h⟩
        rw [hdrop] at hpre
        obtain ⟨t, ht⟩ := hpre
        rw [← ht]
        rfl
      · rename_i heq
        rw [not_not] at heq
        split
        · -- the end of both decides
          rename_i h0
          refine ⟨fun _ => ⟨true, rfl⟩, fun h => absurd (.inr (.inr fun hpre => hdir ?_)) h⟩
          rw [hdrop, h0] at hpre
          exact hpre.subset List.mem_cons_self
        · rename_i h0
          obtain ⟨d, ds, rfl⟩ : ∃ d ds, dir = d :: ds := by
            cases dir with
            | nil => exact absurd heq h0
            | cons d ds => exact ⟨d, ds, rfl⟩
          rw [List.headD_cons] at heq
          have hstep : NameInside buf pos (d :: ds) (n + 1) ↔ NameInside buf (pos + 1) ds n := by
            rw [NameInside, NameInside, hdrop, heq, List.cons_prefix_cons]
            constructor
            · rintro (h | h | h)
              · exact absurd h (Nat.succ_ne_zero n)
              · exact .inr (.inl (by omega))
              · exact .inr (.inr fun hpre => h ⟨rfl, hpre⟩)
            · rintro (h | h | h)
              · exact .inr (.inl (by omega))
              · exact .inr (.inl (by omega))
              · exact .inr (.inr fun hpre => h hpre.2)
          rw [hstep]
          exact ih fun hmem => hdir (List.mem_cons_of_mem d hmem)
    · rw [List.getElem?_eq_none hge]
      refine ⟨fun h => ?_, fun _ => rfl⟩
      have hnil : buf.drop pos = [] := List.drop_eq_nil_of_le hge
      rcases h with h | h | h
      · exact absurd h (Nat.succ_ne_zero n)
      · omega
      · exact absurd (hnil ▸ List.nil_prefix) h

/-- A name in the block that has no NUL is compared as a start of the wanted one. -/
lemma strncmp_name (hdir : 0 ∉ dir) {pos : ℕ} {name : List Bytes.Byte}
    (hname : (buf.drop pos).take name.length = name) (h0 : 0 ∉ name) :
    strncmp buf pos dir name.length = .ok (decide (name <+: dir)) := by
  induction name generalizing pos dir with
  | nil =>
    rw [List.length_nil, strncmp, decide_eq_true List.nil_prefix]
  | cons c name ih =>
    have hlt : pos < buf.length := by
      by_contra hge
      rw [List.drop_eq_nil_of_le (by omega), List.take_nil] at hname
      cases hname
    rw [List.drop_eq_getElem_cons hlt, List.length_cons, List.take_succ_cons,
      List.cons.injEq] at hname
    obtain ⟨hc, hrest⟩ := hname
    rw [List.mem_cons, not_or] at h0
    rw [List.length_cons, strncmp, List.getElem?_eq_getElem hlt, hc]
    dsimp only
    cases dir with
    | nil =>
      have hne : c ≠ ([] : List Bytes.Byte).headD 0 := fun h => h0.1 h.symm
      rw [if_pos hne, decide_eq_false (by rw [List.prefix_nil]; exact List.cons_ne_nil c name)]
    | cons d ds =>
      rw [List.headD_cons]
      by_cases hcd : c = d
      · rw [if_neg (not_not.mpr hcd), if_neg fun h => h0.1 h.symm, List.tail_cons,
          ih (fun hmem => hdir (List.mem_cons_of_mem d hmem)) hrest h0.2]
        congr 1
        rw [decide_eq_decide, hcd, List.cons_prefix_cons]
        exact ⟨fun h => ⟨rfl, h⟩, fun h => h.2⟩
      · rw [if_pos hcd, decide_eq_false]
        rw [List.cons_prefix_cons]
        exact fun h => hcd h.1

/-- A directory entry is read inside the block exactly if what is read of it lies there. -/
lemma readDirent_inside (hdir : 0 ∉ dir) (st : Found) :
    (∃ st', readDirent e buf dir ofs st = .ok st') ↔ DirentInside e buf dir ofs := by
  have htarget : ofs + 24 ≤ buf.length →
      ((∃ b, isTarget e buf dir ofs = .ok b) ↔ (dir ≠ [] → get32 e (buf.drop (ofs + 12)) = 1 →
        ofs + 29 ≤ buf.length ∧ NameInside buf (ofs + 40) dir (buf.getD (ofs + 28) 0).toNat)) := by
    intro hin
    rw [isTarget]
    split
    · rename_i hnil
      exact iff_of_true ⟨false, rfl⟩ fun hne => absurd hnil hne
    · rename_i hne
      rw [load32_eq (by omega), ok_bind]
      split
      · rename_i hpino
        exact iff_of_true ⟨false, rfl⟩ fun _ h => absurd h hpino
      · rename_i hpino
        rw [not_not] at hpino
        by_cases hin' : ofs + 29 ≤ buf.length
        · rw [touch_eq hin', ok_bind]
          obtain ⟨hok, hout⟩ :=
            @strncmp_inside buf dir hdir (buf.getD (ofs + 28) 0).toNat (ofs + 40)
          constructor
          · rintro ⟨b, hb⟩ - -
            refine ⟨hin', ?_⟩
            by_contra hname
            rw [hout hname] at hb
            cases hb
          · exact fun h => hok (h hne hpino).2
        · rw [touch_outside hin', error_bind]
          exact iff_of_false nofun fun h => hin' (h hne hpino).1
  constructor
  · rintro ⟨st', h⟩
    rw [readDirent] at h
    cases hfound : isTarget e buf dir ofs with
    | error err =>
      rw [hfound] at h
      cases h
    | ok found =>
      rw [hfound, ok_bind] at h
      by_cases hin : ofs + 24 ≤ buf.length
      · exact ⟨hin, (htarget hin).mp ⟨found, hfound⟩⟩
      · rw [load32_outside (by omega)] at h
        cases h
  · rintro ⟨hin, hname⟩
    obtain ⟨b, hb⟩ := (htarget hin).mpr hname
    rw [readDirent, hb, ok_bind, load32_eq (by omega), ok_bind, load32_eq (by omega), ok_bind]
    exact ⟨_, rfl⟩

lemma readNode_inside (hdir : 0 ∉ dir) (hin : ofs + 4 ≤ buf.length) (st : Found) :
    (∃ st', readNode e buf dir ofs st = .ok st') ↔
      (get16 e (buf.drop (ofs + 2)) = nodetypeDirent → DirentInside e buf dir ofs) := by
  rw [readNode, load16_eq (by omega), ok_bind]
  split
  · rename_i htype
    rw [readDirent_inside hdir]
    exact ⟨fun h _ => h, fun h => h htype⟩
  · rename_i htype
    exact iff_of_true ⟨st, rfl⟩ fun h => absurd h htype

/-- The walk ends inside the block exactly if there is a chain of nodes that does. -/
lemma walks_iff (hdir : 0 ∉ dir) :
    (∃ fuel st', parseLoop e buf dir fuel ofs st = .ok st') ↔ Walks e buf dir ofs := by
  constructor
  · rintro ⟨fuel, st', h⟩
    induction fuel generalizing ofs st with
    | zero => cases h
    | succ fuel ih =>
      rw [parseLoop] at h
      split at h
      · rename_i hge
        exact .stop hge
      · rename_i hlt
        by_cases hin2 : ofs + 2 ≤ buf.length
        · rw [load16_eq hin2, ok_bind] at h
          split at h
          · rename_i hmagic
            exact .blank hin2 hmagic
          · rename_i hmagic
            by_cases hin : ofs + 4 + 4 ≤ buf.length
            · rw [load32_eq hin, ok_bind] at h
              cases hnode : readNode e buf dir ofs st with
              | error err =>
                rw [hnode] at h
                cases h
              | ok st1 =>
                rw [hnode, ok_bind] at h
                exact .node hin (not_not.mp hmagic)
                  ((readNode_inside hdir (by omega) st).mp ⟨st1, hnode⟩) (ih h)
            · rw [load32_outside hin] at h
              cases h
        · rw [load16, touch_outside hin2] at h
          cases h
  · intro h
    induction h generalizing st with
    | stop h => exact ⟨1, st, by rw [parseLoop, if_pos h]⟩
    | blank hin h =>
      refine ⟨1, st, ?_⟩
      rw [parseLoop, if_neg (by omega), load16_eq hin, ok_bind, if_pos h]
    | node hin hmagic hdirent hnext ih =>
      obtain ⟨st1, hnode⟩ := (readNode_inside hdir (by omega) st).mpr hdirent
      obtain ⟨fuel, st', hrest⟩ := @ih st1
      refine ⟨fuel + 1, st', ?_⟩
      rw [parseLoop, if_neg (by omega), load16_eq (by omega), ok_bind, if_neg (not_not.mpr hmagic),
        load32_eq (by omega), ok_bind, hnode, ok_bind, hrest]

/-- The result does not depend on the fuel. -/
lemma parseLoop_unique {fuel fuel' : ℕ} {st1 st2 : Found}
    (h : parseLoop e buf dir fuel ofs st = .ok st1)
    (h' : parseLoop e buf dir fuel' ofs st = .ok st2) : st1 = st2 := by
  induction fuel generalizing ofs st fuel' with
  | zero => cases h
  | succ fuel ih =>
    cases fuel' with
    | zero => cases h'
    | succ fuel' =>
      rw [parseLoop] at h h'
      split at h
      · rename_i hge
        rw [if_pos hge] at h'
        exact Except.ok.inj (h.symm.trans h')
      · rename_i hlt
        rw [if_neg hlt] at h'
        cases hmagic : load16 e buf ofs with
        | error err =>
          rw [hmagic] at h
          cases h
        | ok magic =>
          rw [hmagic, ok_bind] at h h'
          split at h
          · rename_i hne
            rw [if_pos hne] at h'
            exact Except.ok.inj (h.symm.trans h')
          · rename_i heq
            rw [if_neg heq] at h'
            cases htotlen : load32 e buf (ofs + 4) with
            | error err =>
              rw [htotlen] at h
              cases h
            | ok totlen =>
              rw [htotlen, ok_bind] at h h'
              cases hnode : readNode e buf dir ofs st with
              | error err =>
                rw [hnode] at h
                cases h
              | ok st3 =>
                rw [hnode, ok_bind] at h h'
                exact ih h h'

end Block

/-! ## Well-formed logs -/

/-- An entry that the walk takes for the directory. -/
def Taken (dir : List Bytes.Byte) (d : Dirent) : Prop := d.pino = 1 ∧ d.name <+: dir

instance (dir : List Bytes.Byte) (d : Dirent) : Decidable (Taken dir d) :=
  inferInstanceAs (Decidable (_ ∧ _))

/-- What the walk makes of an entry. -/
def note (dir : List Bytes.Byte) (st : Found) (d : Dirent) : Found :=
  { target_ino := if Taken dir d then d.ino else st.target_ino
    last_ino := if st.last_ino < d.ino then d.ino else st.last_ino
    last_version := if st.last_version < d.version then d.version else st.last_version }

section Log

variable {e : Endian} {buf dir : List Bytes.Byte} {ofs next : ℕ} {st : Found} {d : Dirent}
  {ds : List Dirent} {bufs : List (List Bytes.Byte)}

lemma DirentAt.isTarget (hdir : 0 ∉ dir) (h : DirentAt e buf ofs d) (hin : ofs + 41 ≤ buf.length) :
    isTarget e buf dir ofs = .ok (decide (Taken dir d)) := by
  rw [Jffs2.isTarget]
  split
  · rename_i hnil
    rw [decide_eq_false]
    rintro ⟨-, hpre⟩
    rw [hnil, List.prefix_nil] at hpre
    exact h.letters.1 hpre
  · rw [load32_eq (by omega), ok_bind, h.pino]
    split
    · rename_i hpino
      rw [decide_eq_false fun htaken => hpino htaken.1]
    · rename_i hpino
      rw [touch_eq (by omega), ok_bind, h.nsize, strncmp_name hdir h.name h.letters.2]
      congr 1
      rw [decide_eq_decide]
      exact ⟨fun hpre => ⟨not_not.mp hpino, hpre⟩, fun htaken => htaken.2⟩

lemma DirentAt.readDirent (hdir : 0 ∉ dir) (h : DirentAt e buf ofs d)
    (hin : ofs + 41 ≤ buf.length) (st : Found) :
    readDirent e buf dir ofs st = .ok (note dir st d) := by
  rw [Jffs2.readDirent, h.isTarget hdir hin, ok_bind, load32_eq (by omega), ok_bind,
    load32_eq (by omega), ok_bind, h.ino, h.version]
  simp only [note, decide_eq_true_eq]

lemma NodeAt.parseLoop (hsize : buf.length < 2 ^ 31) (h : NodeAt e buf ofs next) {st1 : Found}
    (hnode : readNode e buf dir ofs st = .ok st1) (fuel : ℕ) :
    parseLoop e buf dir (fuel + 1) ofs st = parseLoop e buf dir fuel next st1 := by
  have hlong := h.long
  have hstop := h.stop
  have hinside := h.inside
  have hnext : (ofs + PAD (get32 e (buf.drop (ofs + 4))).toNat) % 2 ^ 32 = next := by
    rw [PAD]
    omega
  rw [Jffs2.parseLoop, if_neg (by omega), load16_eq (by omega), ok_bind,
    if_neg (not_not.mpr h.magic), load32_eq (by omega), ok_bind, hnode, ok_bind, hnext]

lemma Laid.parses (hdir : 0 ∉ dir) (hsize : buf.length < 2 ^ 31) (h : Laid e buf ofs ds)
    (st : Found) : ∃ fuel, parseLoop e buf dir fuel ofs st = .ok (ds.foldl (note dir) st) := by
  induction h generalizing st with
  | stop => exact ⟨1, by rw [parseLoop, if_pos le_rfl, List.foldl_nil]⟩
  | blank hin h =>
    refine ⟨1, ?_⟩
    rw [parseLoop, if_neg (by omega), load16_eq hin, ok_bind, if_pos h, List.foldl_nil]
  | @other ofs next ds h hother _ ih =>
    have hlong := h.long
    have hstop := h.stop
    have hinside := h.inside
    have hnode : readNode e buf dir ofs st = .ok st := by
      rw [readNode, load16_eq (by omega), ok_bind, if_neg hother]
    obtain ⟨fuel, hrest⟩ := ih st
    exact ⟨fuel + 1, by rw [h.parseLoop hsize hnode, hrest]⟩
  | @dirent ofs next d ds h hd _ ih =>
    have hstop := h.stop
    have hinside := h.inside
    have hpos := List.length_pos_of_ne_nil hd.letters.1
    rw [hd.totlen] at hstop
    have hnode : readNode e buf dir ofs st = .ok (note dir st d) := by
      rw [readNode, load16_eq (by omega), ok_bind, if_pos hd.nodetype,
        hd.readDirent hdir (by omega)]
    obtain ⟨fuel, hrest⟩ := ih (note dir st d)
    exact ⟨fuel + 1, by rw [h.parseLoop hsize hnode, hrest, List.foldl_cons]⟩

lemma parsesLog_of_laid (hdir : 0 ∉ dir) (hsize : ∀ buf ∈ bufs, buf.length < 2 ^ 31)
    {dss : List (List Dirent)} (h : List.Forall₂ (fun buf ds => Laid e buf 0 ds) bufs dss)
    (st : Found) : ParsesLog e dir bufs st (dss.flatten.foldl (note dir) st) := by
  induction h generalizing st with
  | nil => exact .nil st
  | cons hlaid _ ih =>
    obtain ⟨hbuf, hbufs⟩ := List.forall_mem_cons.mp hsize
    rw [List.flatten_cons, List.foldl_append]
    exact .cons (hlaid.parses hdir hbuf st) (ih hbufs _)

lemma ParsesLog.unique {st1 st2 : Found} (h : ParsesLog e dir bufs st st1)
    (h' : ParsesLog e dir bufs st st2) : st1 = st2 := by
  induction h with
  | nil =>
    cases h'
    rfl
  | cons hbuf _ ih =>
    cases h' with
    | cons hbuf' hrest' =>
      obtain ⟨fuel, hfuel⟩ := hbuf
      obtain ⟨fuel', hfuel'⟩ := hbuf'
      obtain rfl := parseLoop_unique hfuel hfuel'
      exact ih hrest'

lemma exists_parsesLog (hdir : 0 ∉ dir) (st : Found) :
    (∃ st', ParsesLog e dir bufs st st') ↔ ∀ buf ∈ bufs, Walks e buf dir 0 := by
  constructor
  · rintro ⟨st', h⟩
    induction h with
    | nil => simp
    | @cons buf bufs st st1 st2 hbuf _ ih =>
      obtain ⟨fuel, hfuel⟩ := hbuf
      exact List.forall_mem_cons.mpr ⟨(walks_iff hdir).mp ⟨fuel, st1, hfuel⟩, ih⟩
  · intro h
    induction bufs generalizing st with
    | nil => exact ⟨st, .nil st⟩
    | cons buf bufs ih =>
      obtain ⟨hbuf, hbufs⟩ := List.forall_mem_cons.mp h
      obtain ⟨fuel, st1, hfuel⟩ := (@walks_iff e buf dir 0 st hdir).mpr hbuf
      obtain ⟨st2, hrest⟩ := ih st1 hbufs
      exact ⟨st2, .cons ⟨fuel, hfuel⟩ hrest⟩

/-! ## What is found -/

lemma last_filter (P : Dirent → Prop) [DecidablePred P] {l r : List Dirent} (hd : P d)
    (hr : ∀ x ∈ r, ¬P x) : ((l ++ d :: r).filter fun x => P x).getLast? = some d := by
  have hnone : r.filter (fun x => P x) = [] := List.filter_eq_nil_iff.mpr fun x hx => by
    simpa using hr x hx
  rw [List.filter_append, List.filter_cons_of_pos (by simpa using hd), hnone,
    List.getLast?_append]
  rfl

lemma exists_last (P : Dirent → Prop) (ds : List Dirent) : (∀ x ∈ ds, ¬P x) ∨
    ∃ l d r, ds = l ++ d :: r ∧ P d ∧ ∀ x ∈ r, ¬P x := by
  induction ds with
  | nil => exact .inl (by simp)
  | cons d ds ih =>
    rcases ih with hnone | ⟨l, d', r, rfl, hd', hr⟩
    · by_cases hd : P d
      · exact .inr ⟨[], d, ds, rfl, hd, hnone⟩
      · exact .inl (List.forall_mem_cons.mpr ⟨hd, hnone⟩)
    · exact .inr ⟨d :: l, d', r, rfl, hd', hr⟩

lemma foldl_target (ds : List Dirent) (st : Found) : (ds.foldl (note dir) st).target_ino =
    ((ds.filter fun d => Taken dir d).getLast?.map Dirent.ino).getD st.target_ino := by
  induction ds using List.reverseRecOn with
  | nil => rfl
  | append_singleton ds d ih =>
    rw [List.foldl_append, List.foldl_cons, List.foldl_nil]
    show (if Taken dir d then d.ino else _) = _
    split
    · rename_i htaken
      rw [last_filter (Taken dir) (l := ds) (r := []) htaken (by simp)]
      rfl
    · rename_i htaken
      rw [List.filter_append, List.filter_cons_of_neg (by simpa using htaken), List.filter_nil,
        List.append_nil, ih]

lemma isMax_step {xs : List UInt32} {m x : UInt32} (h : IsMax xs m) :
    IsMax (xs ++ [x]) (if m < x then x else m) := by
  obtain ⟨hall, hmem⟩ := h
  split
  · rename_i hlt
    refine ⟨fun y hy => ?_, .inr (by simp)⟩
    rcases List.mem_append.mp hy with hy | hy
    · exact UInt32.le_trans (hall y hy) (UInt32.le_of_lt hlt)
    · rw [List.mem_singleton.mp hy]
      exact UInt32.le_refl x
  · rename_i hle
    refine ⟨fun y hy => ?_, hmem.imp_right fun h => List.mem_append_left _ h⟩
    rcases List.mem_append.mp hy with hy | hy
    · exact hall y hy
    · rw [List.mem_singleton.mp hy]
      exact UInt32.not_lt.mp hle

lemma foldl_max (dir : List Bytes.Byte) (ds : List Dirent) :
    IsMax (ds.map Dirent.ino) (ds.foldl (note dir) {}).last_ino ∧
      IsMax (ds.map Dirent.version) (ds.foldl (note dir) {}).last_version := by
  induction ds using List.reverseRecOn with
  | nil => exact ⟨⟨by simp, .inl rfl⟩, ⟨by simp, .inl rfl⟩⟩
  | append_singleton ds d ih =>
    rw [List.foldl_append, List.foldl_cons, List.foldl_nil, List.map_append, List.map_append]
    exact ⟨isMax_step ih.1, isMax_step ih.2⟩

/-- The walk finds the wanted inode exactly if no entry is mistaken for the directory. -/
lemma target_iff : (ds.foldl (note dir) {}).target_ino = wantedIno ds dir ↔ Unmistaken ds dir := by
  have hfound : ∀ l d r, ds = l ++ d :: r → Taken dir d → (∀ x ∈ r, ¬Taken dir x) →
      (ds.foldl (note dir) {}).target_ino = d.ino := by
    rintro l d r rfl hd hr
    rw [foldl_target, last_filter (Taken dir) hd hr]
    rfl
  constructor
  · intro h l d r hds hpino hpre hne
    by_cases hlater : ∃ d' ∈ r, d'.pino = 1 ∧ d'.name <+: dir
    · exact .inl hlater
    · right
      rw [← h]
      exact (hfound l d r hds ⟨hpino, hpre⟩ fun x hx htaken => hlater ⟨x, hx, htaken⟩).symm
  · intro h
    rcases exists_last (Taken dir) ds with hnone | ⟨l, d, r, hds, hd, hr⟩
    · have htaken : ds.filter (fun d => Taken dir d) = [] :=
        List.filter_eq_nil_iff.mpr fun x hx => by simpa using hnone x hx
      have hwanted : ds.filter (fun d => d.pino = 1 ∧ d.name = dir) = [] := by
        refine List.filter_eq_nil_iff.mpr fun x hx => ?_
        simpa using fun hpino (hname : x.name = dir) => hnone x hx ⟨hpino, by rw [hname]⟩
      rw [foldl_target, wantedIno, htaken, hwanted]
    · rw [hfound l d r hds hd hr]
      by_cases hname : d.name = dir
      · rw [wantedIno, hds, last_filter (fun d => d.pino = 1 ∧ d.name = dir) ⟨hd.1, hname⟩
          fun x hx hx' => hr x hx ⟨hx'.1, by rw [hx'.2]⟩]
        rfl
      · rcases h l d r hds hd.1 hd.2 hname with ⟨d', hd', htaken⟩ | heq
        · exact absurd htaken (hr d' hd')
        · exact heq

end Log

/-- A node of length 0: the walk stays where it is. -/
def zeroNode : List Bytes.Byte := [0x85, 0x19, 0x03, 0x20, 0, 0, 0, 0, 0xff, 0xff, 0xff, 0xff]

end Mtd.Jffs2
