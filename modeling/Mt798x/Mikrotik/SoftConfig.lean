import Mt798x.Lib.Crc
import Mt798x.Mikrotik.Tags

/-!
# The soft_config driver

The driver keeps the soft_config partition in a buffer, lets the tags in it be changed one by one
and writes the buffer back on a commit.  The CRC field of the buffer doubles as the dirty flag: a
changed tag clears it, a commit fills it in.

Every section under the lock is one step, and so is the clearing of the CRC field by a failed
commit, which takes no lock.  A commit is therefore three steps that others may come between: the
dirty test, the section that rereads or writes the partition, and, when that failed, the clearing.
The commits that are between two of their steps are part of the state, and so is a log of the
buffers that were written.
-/

namespace Mikrotik.SoftConfig

open Bytes Crc

/-! ## The texts written to sysfs -/

/-- `sysfs_streq`: equality up to one newline at the end of either string. -/
def sysfs_streq (s1 s2 : String) : Bool :=
  s1 == s2 || s2 == s1 ++ "\n" || s1 == s2 ++ "\n"

/-- `kstrtobool`. -/
def kstrtobool (s : String) : Except Errno Bool :=
  match s.toList with
  | c :: rest =>
    if c ∈ ['y', 'Y', 't', 'T', '1'] then .ok true
    else if c ∈ ['n', 'N', 'f', 'F', '0'] then .ok false
    else if c ∈ ['o', 'O'] then
      match rest with
      | d :: _ =>
        if d ∈ ['n', 'N'] then .ok true
        else if d ∈ ['f', 'F'] then .ok false
        else .error .EINVAL
      | [] => .error .EINVAL
    else .error .EINVAL
  | [] => .error .EINVAL

/-- `kstrtou32` in base 10: an optional sign `+`, digits, and one newline at the end. -/
def kstrtou32 (s : String) : Except Errno UInt32 :=
  let body := match s.toList with
    | '+' :: cs => cs
    | cs => cs
  let digits := body.takeWhile Char.isDigit
  let rest := body.dropWhile Char.isDigit
  let value := digits.foldl (fun n c => 10 * n + (c.toNat - '0'.toNat)) 0
  if digits = [] then .error .EINVAL
  else if rest ≠ [] ∧ rest ≠ ['\n'] then .error .EINVAL
  else if value < 2 ^ 32 then .ok (UInt32.ofNat value)
  else .error .ERANGE

/-! ## The tags -/

/-- `struct sc_u32tvs`: a value of a tag and the text that stands for it. -/
structure U32tvs where
  val : UInt32
  str : String
  deriving DecidableEq, Repr

def sc_uartspeeds : List U32tvs :=
  [⟨8, "off"⟩, ⟨7, "1200"⟩, ⟨6, "2400"⟩, ⟨5, "4800"⟩, ⟨4, "9600"⟩, ⟨3, "19200"⟩, ⟨2, "38400"⟩,
    ⟨1, "57600"⟩, ⟨0, "115200"⟩]

def sc_bootdevices : List U32tvs :=
  [⟨0, "eth"⟩, ⟨1, "flasheth"⟩, ⟨3, "ethonce"⟩, ⟨5, "flash"⟩, ⟨7, "cfg"⟩, ⟨8, "cfgonce"⟩]

def sc_cpufreq_indexes_ath79_9x : List U32tvs :=
  [⟨0, "a"⟩, ⟨0x8, "b"⟩, ⟨0x10, "c"⟩, ⟨0x18, "d"⟩, ⟨0x20, "e"⟩, ⟨0x28, "f"⟩]

def sc_cpufreq_indexes_ath79_7x : List U32tvs :=
  [⟨0, "a"⟩, ⟨0x90, "b"⟩, ⟨0x120, "c"⟩, ⟨0x1b0, "d"⟩, ⟨0x240, "e"⟩, ⟨0x2d0, "f"⟩, ⟨0x360, "g"⟩,
    ⟨0x3f0, "h"⟩]

/-- The chips that the CPU frequency tag tells apart. -/
inductive Soc where
  | ar7161
  | ar71xx
  | ar724x
  | ar9344
  | qca953x
  | qca9556
  | qca9558
  | other
  deriving DecidableEq, Repr

/-- `sc_tag_cpufreq_ath79_arraysize`. -/
def sc_tag_cpufreq_ath79_arraysize : Soc → Except Errno ℕ
  | .ar7161 => .ok 8
  | .ar724x => .ok 4
  | .ar9344 => .ok 6
  | .qca953x => .ok 5
  | .qca9556 => .ok 3
  | .qca9558 => .ok 4
  | .ar71xx => .error .EOPNOTSUPP
  | .other => .error .EOPNOTSUPP

/-- The store routine of a tag. -/
inductive TStore where
  | u32tvs (tvs : List U32tvs) (tvselmts : Except Errno ℕ)
  | boolts (strfalse strtrue : String)
  | bootdelays

/-- `sc_tag_store_cpufreq_indexes`; absent on other platforms than ath79. -/
def sc_tag_store_cpufreq_indexes : Option Soc → Option TStore
  | none => none
  | some soc =>
    let tvs := if soc ∈ [Soc.ar7161, .ar71xx, .ar724x] then sc_cpufreq_indexes_ath79_7x
      else sc_cpufreq_indexes_ath79_9x
    some (.u32tvs tvs (sc_tag_cpufreq_ath79_arraysize soc))

/-- `sc_tag_store_u32tvs` up to its locked section: the word to store. -/
def sc_tag_store_u32tvs (tvs : List U32tvs) (tvselmts : Except Errno ℕ) (pld_len : ℕ)
    (buf : String) : Except Errno UInt32 :=
  match tvselmts with
  | .error err => .error err
  | .ok n =>
    if pld_len ≠ 4 then .error .EINVAL
    else
      match (tvs.take n).find? (fun tv => sysfs_streq buf tv.str) with
      | some tv => .ok tv.val
      | none => .error .EINVAL

/-- `sc_tag_store_boolts` up to its locked section. -/
def sc_tag_store_boolts (strfalse strtrue : String) (pld_len : ℕ) (buf : String) :
    Except Errno UInt32 :=
  if pld_len ≠ 4 then .error .EINVAL
  else if sysfs_streq buf strfalse then .ok 0
  else if sysfs_streq buf strtrue then .ok 1
  else .error .EINVAL

/-- `sc_tag_store_bootdelays` up to its locked section. -/
def sc_tag_store_bootdelays (pld_len : ℕ) (buf : String) : Except Errno UInt32 :=
  if pld_len ≠ 4 then .error .EINVAL
  else
    match kstrtou32 buf with
    | .error err => .error err
    | .ok data => if data < 1 ∨ 9 < data then .error .EINVAL else .ok data

/-- The word a store routine puts into the payload of its tag. -/
def TStore.value : TStore → ℕ → String → Except Errno UInt32
  | .u32tvs tvs tvselmts => sc_tag_store_u32tvs tvs tvselmts
  | .boolts strfalse strtrue => sc_tag_store_boolts strfalse strtrue
  | .bootdelays => sc_tag_store_bootdelays

/-- `struct sc_attr`: a tag, its store routine and where its payload was found. -/
structure ScAttr where
  tag_id : ℕ
  tstore : Option TStore
  pld_ofs : ℕ := 0
  pld_len : ℕ := 0

/-- `sc_attrs`, before the tags are located. -/
def sc_attrs (soc : Option Soc) : List ScAttr :=
  [{ tag_id := 0x01, tstore := some (.u32tvs sc_uartspeeds (.ok 9)) },
    { tag_id := 0x02, tstore := some .bootdelays },
    { tag_id := 0x03, tstore := some (.u32tvs sc_bootdevices (.ok 6)) },
    { tag_id := 0x04, tstore := some (.boolts "any" "del") },
    { tag_id := 0x05, tstore := some (.boolts "powersave" "regular") },
    { tag_id := 0x06, tstore := none },
    { tag_id := 0x09, tstore := some (.boolts "bootp" "dhcp") },
    { tag_id := 0x0C, tstore := sc_tag_store_cpufreq_indexes soc },
    { tag_id := 0x0D, tstore := some (.boolts "regular" "backup") },
    { tag_id := 0x0F, tstore := some (.boolts "off" "on") }]

/-! ## The buffer -/

/-- `*(u32 *)(sc_buf + ofs) = v`; bytes behind the buffer are not its own. -/
def poke32 (e : Endian) (b : List Byte) (ofs : ℕ) (v : UInt32) : List Byte :=
  splice b ofs ((put32 e v).take (b.length - ofs))

/-- `RB_SC_CRC32_OFFSET` -/
def RB_SC_CRC32_OFFSET : ℕ := 4

/-- `RB_SC_GETCRC` -/
def getcrc (e : Endian) (b : List Byte) : UInt32 := get32 e (b.drop RB_SC_CRC32_OFFSET)

/-- `RB_SC_SETCRC` -/
def setcrc (e : Endian) (crc : UInt32) (b : List Byte) : List Byte :=
  poke32 e b RB_SC_CRC32_OFFSET crc

/-- `RB_SC_CLRCRC` -/
def clrcrc (e : Endian) (b : List Byte) : List Byte := setcrc e 0 b

/-- `~crc32(~0, sc_buf, sc_buflen)` -/
def fcs (b : List Byte) : UInt32 := ~~~ crc32Le 0xFFFFFFFF b

/-- The CRC field of a buffer is the CRC32 of the buffer with the CRC field zeroed. -/
def Valid (e : Endian) (b : List Byte) : Prop := getcrc e b = fcs (clrcrc e b)

instance (e : Endian) (b : List Byte) : Decidable (Valid e b) :=
  inferInstanceAs (Decidable (getcrc e b = fcs (clrcrc e b)))

/-! ## The state and its steps -/

/-- A commit that has not returned: it has passed the dirty test and goes on to reread or to
flush, or its section has failed and it goes on to clear the CRC field. -/
inductive Phase where
  | ready (flush : Bool)
  | mtdfail
  deriving DecidableEq, Repr

/-- A write of the partition: the buffer the section found, and the buffer it wrote. -/
structure Flush where
  found : List Byte
  written : List Byte
  deriving DecidableEq, Repr

/-- The driver and its partition. -/
structure Sc where
  attrs : List ScAttr
  sc_buf : List Byte
  part : List Byte
  flight : List Phase
  log : List Flush

/-- What `mtd_read` does: the whole content, or a failure (an error or a short count) that
leaves some bytes in the buffer. -/
inductive ReadResult where
  | ok
  | fail (got : List Byte)

/-- What `mtd_erase` and `mtd_write` do: the erase fails, the write returns an error, it returns
0 with a short count, or it writes everything.  `p` is what a failure leaves in the partition. -/
inductive WriteResult where
  | eraseFail (p : List Byte)
  | writeFail (p : List Byte)
  | short (p : List Byte)
  | ok

/-- A step: a store to an attribute, the dirty test of a commit, the locked section of a commit
in flight, the clearing of the CRC field by a failed one. -/
inductive Action where
  | store (i : ℕ) (capable : Bool) (buf : String)
  | commit (buf : String) (mtd : Bool)
  | locked (k : ℕ) (r : ReadResult) (w : WriteResult)
  | clear (k : ℕ)

/-- Some bytes over the start of others. -/
def overwrite (new old : List Byte) : List Byte := new.take old.length ++ old.drop new.length

/-- `sc_attr_store` -/
def sc_attr_store (e : Endian) (s : Sc) (i : ℕ) (capable : Bool) (buf : String) :
    Except Errno Sc :=
  match s.attrs[i]? with
  | none => .error .ENOENT
  | some attr =>
    if !capable then .error .EACCES
    else
      match attr.tstore with
      | none => .error .EOPNOTSUPP
      | some tstore =>
        if attr.pld_len = 0 then .error .ENOENT
        else
          match tstore.value attr.pld_len buf with
          | .error err => .error err
          | .ok v => .ok { s with sc_buf := clrcrc e (poke32 e s.sc_buf attr.pld_ofs v) }

/-- `sc_commit_show` -/
def sc_commit_show (e : Endian) (s : Sc) : String :=
  if getcrc e s.sc_buf ≠ 0 then "clean\n" else "dirty\n"

/-- `sc_commit_store` up to its locked section. -/
def commitEnter (e : Endian) (s : Sc) (buf : String) (mtd : Bool) : Except Errno Sc :=
  if getcrc e s.sc_buf ≠ 0 then .ok s
  else
    match kstrtobool buf with
    | .error err => .error err
    | .ok flush =>
      if mtd then .ok { s with flight := s.flight ++ [.ready flush] } else .error .ENODEV

/-- The locked section of a reread. -/
def reread (s : Sc) (k : ℕ) : ReadResult → Sc
  | .ok => { s with sc_buf := s.part, flight := s.flight.eraseIdx k }
  | .fail got => { s with sc_buf := overwrite got s.sc_buf, flight := s.flight.set k .mtdfail }

/-- The locked section of a flush. -/
def flush (e : Endian) (s : Sc) (k : ℕ) (w : WriteResult) : Sc :=
  let b := setcrc e (fcs s.sc_buf) s.sc_buf
  let entry : Flush := ⟨s.sc_buf, b⟩
  match w with
  | .eraseFail p | .writeFail p =>
    { s with sc_buf := b, part := overwrite p s.part, flight := s.flight.set k .mtdfail }
  | .short p =>
    { s with
      sc_buf := b, part := overwrite p s.part, flight := s.flight.set k .mtdfail,
      log := entry :: s.log }
  | .ok =>
    { s with sc_buf := b, part := b, flight := s.flight.eraseIdx k, log := entry :: s.log }

/-- One step; a call that fails before it changes anything leaves the state as it is. -/
def step (e : Endian) (s : Sc) : Action → Sc
  | .store i capable buf =>
    match sc_attr_store e s i capable buf with
    | .ok s' => s'
    | .error _ => s
  | .commit buf mtd =>
    match commitEnter e s buf mtd with
    | .ok s' => s'
    | .error _ => s
  | .locked k r w =>
    match s.flight[k]? with
    | some (.ready false) => reread s k r
    | some (.ready true) => flush e s k w
    | _ => s
  | .clear k =>
    match s.flight[k]? with
    | some .mtdfail =>
      { s with sc_buf := clrcrc e s.sc_buf, flight := s.flight.eraseIdx k }
    | _ => s

/-- A whole history of steps. -/
def run (e : Endian) (s : Sc) (as : List Action) : Sc := as.foldl (step e) s

/-- A soft_config image: it starts with `RB_MAGIC_SOFT` and has a CRC field. -/
structure SoftImage (e : Endian) where
  data : List Byte
  magic : get32 e data = 0x74666F53
  room : 8 ≤ data.length

/-- A tag of the image, located by `rb_softconfig_init`. -/
def locate (e : Endian) (data : List Byte) (attr : ScAttr) : ScAttr :=
  match routerboot_tag_find e (data.drop 8) (data.length - 8) attr.tag_id with
  | some (.ok (ofs, len)) => { attr with pld_ofs := (ofs + 8) % 0x10000, pld_len := len }
  | _ => { attr with pld_ofs := 0, pld_len := 0 }

/-- `rb_softconfig_init` of an image it accepts. -/
def rb_softconfig_init {e : Endian} (soc : Option Soc) (img : SoftImage e) : Sc where
  attrs := (sc_attrs soc).map (locate e img.data)
  sc_buf := img.data
  part := img.data
  flight := []
  log := []

/-! ## The CRC field -/

section Field

variable {e : Endian} {b : List Byte} {v w : UInt32} {ofs : ℕ}

@[simp] lemma length_poke32 (e : Endian) (b : List Byte) (ofs : ℕ) (v : UInt32) :
    (poke32 e b ofs v).length = b.length := by
  by_cases h : ofs ≤ b.length
  · apply length_splice
    rw [List.length_take, length_put32]
    omega
  · rw [poke32, show b.length - ofs = 0 by omega, List.take_zero]
    simp only [splice, List.append_nil, List.length_nil, Nat.add_zero, List.take_append_drop]

@[simp] lemma length_setcrc (e : Endian) (v : UInt32) (b : List Byte) :
    (setcrc e v b).length = b.length := length_poke32 e b _ v

@[simp] lemma length_clrcrc (e : Endian) (b : List Byte) :
    (clrcrc e b).length = b.length := length_setcrc e 0 b

lemma setcrc_eq (h : 8 ≤ b.length) : setcrc e v b = splice b 4 (put32 e v) := by
  rw [setcrc, poke32, RB_SC_CRC32_OFFSET, List.take_of_length_le]
  rw [length_put32]
  omega

lemma getcrc_setcrc (h : 8 ≤ b.length) : getcrc e (setcrc e v b) = v := by
  rw [setcrc_eq h, getcrc, RB_SC_CRC32_OFFSET, drop_splice_self (by omega), get32_put32_append]

lemma getcrc_clrcrc (h : 8 ≤ b.length) : getcrc e (clrcrc e b) = 0 := getcrc_setcrc h

lemma setcrc_setcrc (h : 8 ≤ b.length) : setcrc e w (setcrc e v b) = setcrc e w b := by
  rw [setcrc_eq (by rwa [length_setcrc]), setcrc_eq h, setcrc_eq h]
  exact splice_splice_same (by omega) (by simp)

lemma split_crc (h : 8 ≤ b.length) :
    b = b.take 4 ++ (put32 e (getcrc e b) ++ b.drop 8) := by
  have hfour : ((b.drop 4).take 4).length = 4 := by
    rw [List.length_take, List.length_drop]
    omega
  have hfield : put32 e (getcrc e b) = (b.drop 4).take 4 := by
    rw [getcrc, RB_SC_CRC32_OFFSET, ← get32_take_four, put32_get32 e hfour]
  rw [hfield, show b.drop 8 = (b.drop 4).drop 4 by rw [List.drop_drop], List.take_append_drop,
    List.take_append_drop]

lemma setcrc_getcrc (h : 8 ≤ b.length) : setcrc e (getcrc e b) b = b := by
  rw [setcrc_eq h, splice, length_put32, List.append_assoc]
  exact (split_crc h).symm

lemma fcs_clrcrc_iff (h : 8 ≤ b.length) : fcs b = fcs (clrcrc e b) ↔ getcrc e b = 0 := by
  constructor
  · intro hsum
    have hcrc : crc32Le 0xFFFFFFFF b = crc32Le 0xFFFFFFFF (clrcrc e b) := by
      have := congrArg (~~~ ·) hsum
      simpa only [fcs, UInt32.not_not] using this
    have hclr : clrcrc e b = b.take 4 ++ (put32 e 0 ++ b.drop 8) := by
      rw [clrcrc, setcrc_eq h, splice, length_put32, List.append_assoc]
    rw [hclr] at hcrc
    conv at hcrc => lhs; rw [split_crc (e := e) h]
    have hword := crc32Le_word_inj (length_put32 e _) (length_put32 e _) hcrc
    have hget := congrArg (fun w => get32 e (w ++ [])) hword
    simpa only [get32_put32_append] using hget
  · intro hzero
    have : clrcrc e b = b := by
      have hid := setcrc_getcrc (e := e) h
      rwa [hzero] at hid
    rw [this]

/-- A flush writes a valid buffer exactly when it found the CRC field clear. -/
theorem valid_flush_iff (h : 8 ≤ b.length) :
    Valid e (setcrc e (fcs b) b) ↔ getcrc e b = 0 := by
  rw [Valid, getcrc_setcrc h, clrcrc, setcrc_setcrc h]
  exact fcs_clrcrc_iff h

end Field

/-! ## Runs -/

/-- What every state of a run satisfies.  The buffer is the partition, or it is marked dirty, or
the mark is still owed by a commit whose section has failed. -/
structure Inv (e : Endian) (s : Sc) : Prop where
  room : 8 ≤ s.sc_buf.length
  size : s.part.length = s.sc_buf.length
  sync : getcrc e s.sc_buf ≠ 0 → s.sc_buf = s.part ∨ .mtdfail ∈ s.flight
  log : ∀ f ∈ s.log, 8 ≤ f.found.length ∧ f.written = setcrc e (fcs f.found) f.found

@[simp] lemma length_overwrite (new old : List Byte) : (overwrite new old).length = old.length := by
  simp only [overwrite, List.length_append, List.length_take, List.length_drop]
  omega

lemma inv_init {e : Endian} (soc : Option Soc) (img : SoftImage e) :
    Inv e (rb_softconfig_init soc img) where
  room := img.room
  size := rfl
  sync := fun _ => Or.inl rfl
  log := by simp [rb_softconfig_init]

lemma sc_attr_store_cases {e : Endian} {s s' : Sc} {i : ℕ} {capable : Bool} {buf : String}
    (h : sc_attr_store e s i capable buf = .ok s') :
    ∃ ofs v, s' = { s with sc_buf := clrcrc e (poke32 e s.sc_buf ofs v) } := by
  simp only [sc_attr_store] at h
  repeat' split at h
  all_goals first | contradiction | skip
  exact ⟨_, _, (Except.ok.inj h).symm⟩

lemma commitEnter_cases {e : Endian} {s s' : Sc} {buf : String} {mtd : Bool}
    (h : commitEnter e s buf mtd = .ok s') :
    s' = s ∨ getcrc e s.sc_buf = 0 ∧ ∃ fl, s' = { s with flight := s.flight ++ [.ready fl] } := by
  rw [commitEnter] at h
  by_cases hcrc : getcrc e s.sc_buf ≠ 0
  · rw [if_pos hcrc] at h
    exact Or.inl (Except.ok.inj h).symm
  · rw [if_neg hcrc] at h
    split at h
    · contradiction
    · split at h
      · exact Or.inr ⟨not_not.mp hcrc, _, (Except.ok.inj h).symm⟩
      · contradiction

variable {e : Endian} {s : Sc}

lemma mtdfail_mem_set {k : ℕ} {p : Phase} (h : s.flight[k]? = some p) :
    Phase.mtdfail ∈ s.flight.set k .mtdfail := by
  apply List.mem_set
  exact (List.getElem?_eq_some_iff.mp h).1

lemma inv_reread (hi : Inv e s) {k : ℕ} {p : Phase} (h : s.flight[k]? = some p)
    (r : ReadResult) : Inv e (reread s k r) := by
  cases r with
  | ok =>
    exact ⟨by rw [reread, hi.size]; exact hi.room, rfl, fun _ => Or.inl rfl, hi.log⟩
  | fail got =>
    refine ⟨?_, ?_, fun _ => Or.inr (mtdfail_mem_set h), hi.log⟩
    · simpa [reread] using hi.room
    · simpa [reread] using hi.size

lemma inv_flush (hi : Inv e s) {k : ℕ} {p : Phase} (h : s.flight[k]? = some p)
    (w : WriteResult) : Inv e (flush e s k w) := by
  have hlog : ∀ f ∈ (⟨s.sc_buf, setcrc e (fcs s.sc_buf) s.sc_buf⟩ : Flush) :: s.log,
      8 ≤ f.found.length ∧ f.written = setcrc e (fcs f.found) f.found := by
    intro f hf
    rcases List.mem_cons.mp hf with rfl | hf
    · exact ⟨hi.room, rfl⟩
    · exact hi.log f hf
  have hroom : 8 ≤ (setcrc e (fcs s.sc_buf) s.sc_buf).length := by simpa using hi.room
  have hsize : ∀ p, (overwrite p s.part).length = (setcrc e (fcs s.sc_buf) s.sc_buf).length := by
    intro p
    simpa using hi.size
  cases w with
  | eraseFail p => exact ⟨hroom, hsize p, fun _ => Or.inr (mtdfail_mem_set h), hi.log⟩
  | writeFail p => exact ⟨hroom, hsize p, fun _ => Or.inr (mtdfail_mem_set h), hi.log⟩
  | short p => exact ⟨hroom, hsize p, fun _ => Or.inr (mtdfail_mem_set h), hlog⟩
  | ok => exact ⟨hroom, rfl, fun _ => Or.inl rfl, hlog⟩

/-- Every step keeps the invariant. -/
lemma inv_step (hi : Inv e s) (a : Action) : Inv e (step e s a) := by
  cases a with
  | store i capable buf =>
    rw [step]
    cases h : sc_attr_store e s i capable buf with
    | error err => exact hi
    | ok s' =>
      obtain ⟨ofs, v, rfl⟩ := sc_attr_store_cases h
      have hroom : 8 ≤ (poke32 e s.sc_buf ofs v).length := by simpa using hi.room
      refine ⟨by simpa using hroom, by simpa using hi.size, fun hne => ?_, hi.log⟩
      exact absurd (getcrc_clrcrc hroom) hne
  | commit buf mtd =>
    rw [step]
    cases h : commitEnter e s buf mtd with
    | error err => exact hi
    | ok s' =>
      rcases commitEnter_cases h with rfl | ⟨hzero, fl, rfl⟩
      · exact hi
      · exact ⟨hi.room, hi.size, fun hne => absurd hzero hne, hi.log⟩
  | locked k r w =>
    rw [step]
    split
    · rename_i h
      exact inv_reread hi h r
    · rename_i h
      exact inv_flush hi h w
    · exact hi
  | clear k =>
    rw [step]
    split
    · refine ⟨by simpa using hi.room, by simpa using hi.size, fun hne => ?_, hi.log⟩
      exact absurd (getcrc_clrcrc hi.room) hne
    · exact hi

lemma inv_run (hi : Inv e s) (as : List Action) : Inv e (run e s as) := by
  induction as generalizing s with
  | nil => exact hi
  | cons a as ih => exact ih (inv_step hi a)

/-- A buffer that reads "clean" while no commit is in flight is the partition. -/
theorem clean_sync {soc : Option Soc} {img : SoftImage e} {as : List Action}
    (hclean : sc_commit_show e (run e (rb_softconfig_init soc img) as) = "clean\n")
    (hflight : (run e (rb_softconfig_init soc img) as).flight = []) :
    (run e (rb_softconfig_init soc img) as).sc_buf =
      (run e (rb_softconfig_init soc img) as).part := by
  have hi := inv_run (inv_init soc img) as
  have hne : getcrc e (run e (rb_softconfig_init soc img) as).sc_buf ≠ 0 := by
    intro hzero
    rw [sc_commit_show, if_neg (by simpa using hzero)] at hclean
    exact absurd hclean (by decide)
  rcases hi.sync hne with h | h
  · exact h
  · rw [hflight] at h
    simp at h

/-- What the driver promises of a run: every buffer it has written is valid, and the buffer is
the partition whenever it reads "clean" and no commit is in flight. -/
def Kept (e : Endian) (s : Sc) : Prop :=
  (∀ f ∈ s.log, Valid e f.written) ∧
  (sc_commit_show e s = "clean\n" → s.flight = [] → s.sc_buf = s.part)

/-- Every section that has written the partition found the buffer still dirty. -/
def StillDirty (e : Endian) (s : Sc) : Prop := ∀ f ∈ s.log, getcrc e f.found = 0

/-- **Commits of the soft configuration.**  In every interleaving of stores and commits, with
any failures, the promise is kept exactly when every section that wrote the partition found the
CRC field still clear, as the dirty test of its commit had. -/
theorem commit_kept_iff (soc : Option Soc) (img : SoftImage e) (as : List Action) :
    Kept e (run e (rb_softconfig_init soc img) as) ↔
      StillDirty e (run e (rb_softconfig_init soc img) as) := by
  have hi := inv_run (inv_init soc img) as
  have hvalid : ∀ f ∈ (run e (rb_softconfig_init soc img) as).log,
      (Valid e f.written ↔ getcrc e f.found = 0) := by
    intro f hf
    obtain ⟨hroom, hwritten⟩ := hi.log f hf
    rw [hwritten]
    exact valid_flush_iff hroom
  constructor
  · rintro ⟨hkept, -⟩ f hf
    exact (hvalid f hf).mp (hkept f hf)
  · intro hdirty
    exact ⟨fun f hf => (hvalid f hf).mpr (hdirty f hf), clean_sync⟩

/-- A little-endian image with an uart_speed tag. -/
def uartImage : SoftImage .little where
  data := [0x53, 0x6F, 0x66, 0x74, 1, 0, 0, 0, 1, 0, 4, 0, 0, 0, 0, 0, 0, 0, 0, 0]
  magic := by decide
  room := by decide

/-- Two openers commit the same change: both pass the dirty test before either takes the lock. -/
def twoCommits : List Action :=
  [.store 0 true "9600\n", .commit "1\n" true, .commit "1\n" true, .locked 0 .ok .ok,
    .locked 0 .ok .ok]

set_option maxRecDepth 100000 in
/-- The second of two commits sums the buffer with the CRC of the first in it. -/
theorem commit_twice_invalid :
    ¬ Kept .little (run .little (rb_softconfig_init none uartImage) twoCommits) := by
  rintro ⟨hvalid, -⟩
  have hbad : ¬ ∀ f ∈ (run .little (rb_softconfig_init none uartImage) twoCommits).log,
      Valid .little f.written := by decide +kernel
  exact hbad hvalid

end Mikrotik.SoftConfig
