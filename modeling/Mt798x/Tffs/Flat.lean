import Mt798x.Lib.Guard
import Mt798x.Lib.Halfwords

/-!
# Reading a flat TFFS dump

`fritz_tffs_read` walks over a dump from entry to entry, each a header with an identifier and a
length and a value that is padded to four bytes.  The entry 0x1ff holds the names of the identifiers,
each a word and a text that ends with a NUL.  Both loops test their bound behind the element they
use, so an element that is cut off by the end of the dump, or of the name table, is used too.

A lookup is right exactly if the headers it visits, the value it prints and the pairs of the name
table lie inside (`reads_right`).
-/

namespace Tffs.Flat

open Bytes Guard

/-- `TFFS_ID_END` -/
def TFFS_ID_END : ℕ := 0xffff

/-- `TFFS_ID_TABLE_NAME` -/
def TFFS_ID_TABLE_NAME : ℕ := 0x01ff

/-- A dump, and how it is read: the byte order of the processor and `swap_bytes`. -/
structure Dump where
  buffer : List Byte
  host : Endian
  swap_bytes : Bool
  -- `tffs_size` is a word
  word : buffer.length < 2 ^ 32

namespace Dump

variable (t : Dump)

/-- `tffs_size` -/
def size : ℕ := t.buffer.length

/-- The byte order that is selected: `ntohs` reads big-endian words. -/
def order : Endian := if t.swap_bytes then .big else t.host

/-- `get_header_id` -/
def get_header_id (pos : ℕ) : ℕ := get16 t.order (t.buffer.drop pos)

/-- The field `id`, as it is. -/
def rawId (pos : ℕ) : ℕ := get16 t.host (t.buffer.drop pos)

/-- `get_header_len` -/
def get_header_len (pos : ℕ) : ℕ := get16 t.order (t.buffer.drop (pos + 2))

/-- `get_walk_size`, on 32 bits. -/
def get_walk_size (entry_len : ℕ) : ℕ := (entry_len + 3) % 2 ^ 32 / 4 * 4

/-- The loop of `find_entry` from `pos` on, on `fuel`: the position of the header. -/
def findLoop (id : ℕ) : ℕ → ℕ → Except Fault (Option ℕ)
  | 0, _ => .error .endless
  | fuel + 1, pos => do
    touch t.size (pos + 2)
    if t.get_header_id pos = id then .ok (some pos)
    else do
      touch t.size (pos + 4)
      let next := (pos + 4 + get_walk_size (t.get_header_len pos)) % 2 ^ 32
      if next < t.size ∧ t.rawId pos ≠ TFFS_ID_END then findLoop id fuel next else .ok none

/-- `find_entry` ends inside the dump, with a header or without one. -/
def Finds (id : ℕ) (r : Option ℕ) : Prop := ∃ fuel, t.findLoop id fuel 0 = .ok r

/-- `print_entry_value` of the entry at `pos`. -/
def print_entry_value (pos : ℕ) : Except Fault (List Byte) := do
  touch t.size (pos + 4)
  touch t.size (pos + 4 + t.get_header_len pos)
  .ok ((t.buffer.drop (pos + 4)).take (t.get_header_len pos))

/-- The word at an item of the name table, and its name. -/
abbrev Pair := UInt32 × List Byte

/-- `strlen` of the text at `start`. -/
def strlen (start : ℕ) : Except Fault ℕ := do
  let stop ← seek t.buffer (fun c => c == 0) (t.size + 1) start
  .ok (stop - start)

/-- The loop of `parse_key_names` from `pos` on, for a table whose value starts at `val`. -/
def namesLoop (val len : ℕ) : ℕ → ℕ → Except Fault (List Pair)
  | 0, _ => .error .endless
  | fuel + 1, pos => do
    let n ← t.strlen (val + pos + 4)
    let item : Pair :=
      (get32 t.host (t.buffer.drop (val + pos)), (t.buffer.drop (val + pos + 4)).take n)
    let next := (pos + 4 + get_walk_size ((n + 1) % 2 ^ 32)) % 2 ^ 32
    if next < len then do
      let items ← namesLoop val len fuel next
      .ok (item :: items)
    else .ok [item]

/-- `parse_key_names` of the entry at `pos` ends inside the dump. -/
def Names (pos : ℕ) (items : List Pair) : Prop :=
  ∃ fuel, (do
    touch t.size (pos + 4)
    t.namesLoop (pos + 4) (t.get_header_len pos) fuel 0) = .ok items

/-! ## What is asked for -/

/-- The position behind an entry. -/
def next (pos : ℕ) : ℕ := pos + 4 + (t.get_header_len pos + 3) / 4 * 4

/-- There is an entry at `pos`, not the end marker. -/
def IsEntry (pos : ℕ) : Prop := pos + 4 ≤ t.size ∧ t.get_header_id pos ≠ TFFS_ID_END

/-- The first entry with an identifier in the chain of entries in front of the end marker. -/
def FirstEntry (id pos : ℕ) : Prop :=
  ∃ n, pos = t.next^[n] 0 ∧ (∀ m ≤ n, t.IsEntry (t.next^[m] 0)) ∧ t.get_header_id pos = id ∧
    ∀ m < n, t.get_header_id (t.next^[m] 0) ≠ id

/-- `find_entry` ends inside the dump and reports the first entry with the identifier. -/
def FindsFirst (id : ℕ) : Prop := ∃ r, t.Finds id r ∧ ∀ pos, r = some pos ↔ t.FirstEntry id pos

/-- An item of a name table at `o` that lies inside the value. -/
structure ItemAt (val len o : ℕ) (name : List Byte) : Prop where
  inside : o + 4 + name.length + 1 ≤ len
  bytes : (t.buffer.drop (val + o + 4)).take (name.length + 1) = name ++ [0]
  letters : 0 ∉ name

/-- The pairs that are stored inside the value of a name table, from `o` on. -/
inductive Stored (val len : ℕ) : ℕ → List Pair → Prop
  | nil {o : ℕ} (h : ∀ name, ¬t.ItemAt val len o name) : Stored val len o []
  | cons {o : ℕ} {name : List Byte} {items : List Pair} (h : t.ItemAt val len o name)
      (hrest : Stored val len (o + 4 + (name.length + 1 + 3) / 4 * 4) items) :
      Stored val len o ((get32 t.host (t.buffer.drop (val + o)), name) :: items)

/-- The functions end inside the dump and give what is stored: the name table and its pairs, and the
entry that is looked up and its value. -/
structure ReadsRight (id : ℕ) : Prop where
  table : t.FindsFirst TFFS_ID_TABLE_NAME
  names : ∀ pos, t.FirstEntry TFFS_ID_TABLE_NAME pos →
    ∃ items, t.Names pos items ∧ t.Stored (pos + 4) (t.get_header_len pos) 0 items
  entry : t.FindsFirst id
  value : ∀ pos, t.FirstEntry id pos → Inside (t.print_entry_value pos)

/-! ## When it is so -/

/-- The headers from `pos` on lie inside, none has the identifier, and they come to the end marker or
to a position outside; the position is a word and wraps. -/
inductive Missed (id : ℕ) : ℕ → Prop
  | marker {pos : ℕ} (hin : pos + 4 ≤ t.size) (hid : t.get_header_id pos ≠ id)
      (hend : t.get_header_id pos = TFFS_ID_END) : Missed id pos
  | last {pos : ℕ} (hin : pos + 4 ≤ t.size) (hid : t.get_header_id pos ≠ id)
      (hend : t.get_header_id pos ≠ TFFS_ID_END) (hlast : t.size ≤ t.next pos % 2 ^ 32) :
      Missed id pos
  | more {pos : ℕ} (hin : pos + 4 ≤ t.size) (hid : t.get_header_id pos ≠ id)
      (hend : t.get_header_id pos ≠ TFFS_ID_END) (hnext : t.next pos % 2 ^ 32 < t.size)
      (hrest : Missed id (t.next pos % 2 ^ 32)) : Missed id pos

/-- The headers that are visited from `pos` on lie inside, up to the first entry with the identifier,
the end marker or the end of the dump.  In a dump of nearly 4 GiB the position behind the last entry
wraps, and then nothing is found from there on. -/
inductive Chained (id : ℕ) : ℕ → Prop
  | found {pos : ℕ} (hin : pos + 4 ≤ t.size) (hid : t.get_header_id pos = id)
      (hend : id ≠ TFFS_ID_END) : Chained id pos
  | marker {pos : ℕ} (hin : pos + 4 ≤ t.size) (hid : t.get_header_id pos ≠ id)
      (hend : t.get_header_id pos = TFFS_ID_END) : Chained id pos
  | last {pos : ℕ} (hin : pos + 4 ≤ t.size) (hid : t.get_header_id pos ≠ id)
      (hend : t.get_header_id pos ≠ TFFS_ID_END) (hlast : t.size ≤ t.next pos)
      (hwrap : t.next pos % 2 ^ 32 < t.size → t.Missed id (t.next pos % 2 ^ 32)) : Chained id pos
  | more {pos : ℕ} (hin : pos + 4 ≤ t.size) (hid : t.get_header_id pos ≠ id)
      (hend : t.get_header_id pos ≠ TFFS_ID_END) (hnext : t.next pos < t.size)
      (hrest : Chained id (t.next pos)) : Chained id pos

/-- The value of a name table is filled with items from `o` on. -/
inductive Tiled (val len : ℕ) : ℕ → Prop
  | last {o : ℕ} {name : List Byte} (h : t.ItemAt val len o name)
      (hlast : len ≤ o + 4 + (name.length + 1 + 3) / 4 * 4) : Tiled val len o
  | more {o : ℕ} {name : List Byte} (h : t.ItemAt val len o name)
      (hnext : o + 4 + (name.length + 1 + 3) / 4 * 4 < len)
      (hrest : Tiled val len (o + 4 + (name.length + 1 + 3) / 4 * 4)) : Tiled val len o

/-- Everything that is visited lies inside. -/
structure WithinDump (id : ℕ) : Prop where
  table : t.Chained TFFS_ID_TABLE_NAME 0
  names : ∀ pos, t.FirstEntry TFFS_ID_TABLE_NAME pos →
    t.Tiled (pos + 4) (t.get_header_len pos) 0
  entry : t.Chained id 0
  value : ∀ pos, t.FirstEntry id pos → pos + 4 + t.get_header_len pos ≤ t.size

/-! ## Lookups -/

section Lookup

variable {t : Dump} {id pos n m : ℕ}

lemma rawId_end (t : Dump) (pos : ℕ) : t.rawId pos = TFFS_ID_END ↔
    t.get_header_id pos = TFFS_ID_END := get16_ones t.host t.order (t.buffer.drop pos)

lemma next_mod (h : t.next pos < t.size) : t.next pos % 2 ^ 32 = t.next pos :=
  Nat.mod_eq_of_lt (h.trans t.word)

lemma findLoop_step (hin : pos + 4 ≤ t.size) (hid : t.get_header_id pos ≠ id) (fuel : ℕ) :
    t.findLoop id (fuel + 1) pos =
      if t.next pos % 2 ^ 32 < t.size ∧ t.get_header_id pos ≠ TFFS_ID_END then
        t.findLoop id fuel (t.next pos % 2 ^ 32)
      else .ok none := by
  have hlen : t.get_header_len pos < 2 ^ 16 := get16_lt t.order (t.buffer.drop (pos + 2))
  have hnext : pos + 4 + get_walk_size (t.get_header_len pos) = t.next pos := by
    have hmod : (t.get_header_len pos + 3) % 2 ^ 32 = t.get_header_len pos + 3 :=
      Nat.mod_eq_of_lt (by omega)
    rw [get_walk_size, hmod, next]
  rw [findLoop, touch_eq (by omega), ok_bind, if_neg hid, touch_eq hin, ok_bind]
  simp only [hnext, ne_eq, rawId_end]

lemma findLoop_outside {fuel : ℕ} {r : Option ℕ} (h : t.findLoop id (fuel + 1) pos = .ok r)
    (hid : t.get_header_id pos ≠ id) : pos + 4 ≤ t.size := by
  by_contra hin
  rw [findLoop] at h
  by_cases hin2 : pos + 2 ≤ t.size
  · rw [touch_eq hin2, ok_bind, if_neg hid, touch, if_neg hin] at h
    cases h
  · rw [touch, if_neg hin2] at h
    cases h

lemma missed_iff : (∃ fuel, t.findLoop id fuel pos = .ok none) ↔ t.Missed id pos := by
  constructor
  · rintro ⟨fuel, h⟩
    induction fuel generalizing pos with
    | zero => cases h
    | succ fuel ih =>
      by_cases hid : t.get_header_id pos = id
      · rw [findLoop] at h
        by_cases hin2 : pos + 2 ≤ t.size
        · rw [touch_eq hin2, ok_bind, if_pos hid] at h
          cases h
        · rw [touch, if_neg hin2] at h
          cases h
      · have hin := findLoop_outside h hid
        rw [findLoop_step hin hid] at h
        by_cases hend : t.get_header_id pos = TFFS_ID_END
        · exact .marker hin hid hend
        · by_cases hlt : t.next pos % 2 ^ 32 < t.size
          · rw [if_pos ⟨hlt, hend⟩] at h
            exact .more hin hid hend hlt (ih h)
          · exact .last hin hid hend (by omega)
  · intro h
    induction h with
    | marker hin hid hend => exact ⟨1, by rw [findLoop_step hin hid, if_neg fun h => h.2 hend]⟩
    | last hin hid hend hlast =>
      exact ⟨1, by rw [findLoop_step hin hid, if_neg fun h => absurd h.1 (by omega)]⟩
    | more hin hid hend hnext _ ih =>
      obtain ⟨fuel, hfuel⟩ := ih
      exact ⟨fuel + 1, by rw [findLoop_step hin hid, if_pos ⟨hnext, hend⟩, hfuel]⟩

/-- The entries in front of a place of the chain, none with the identifier. -/
def Passed (t : Dump) (id n : ℕ) : Prop :=
  ∀ m < n, t.IsEntry (t.next^[m] 0) ∧ t.get_header_id (t.next^[m] 0) ≠ id

lemma Passed.succ (h : t.Passed id n) (hentry : t.IsEntry (t.next^[n] 0))
    (hid : t.get_header_id (t.next^[n] 0) ≠ id) : t.Passed id (n + 1) := by
  intro m hm
  rcases Nat.lt_succ_iff_lt_or_eq.mp hm with hlt | rfl
  · exact h m hlt
  · exact ⟨hentry, hid⟩

lemma Passed.no_entry (h : t.Passed id n) (hid : t.get_header_id (t.next^[n] 0) ≠ id)
    (hstop : ¬t.IsEntry (t.next^[n] 0) ∨ t.size ≤ t.next^[n + 1] 0) : ¬t.FirstEntry id pos := by
  rintro ⟨k, rfl, hentries, hkid, -⟩
  rcases Nat.lt_trichotomy k n with hlt | rfl | hlt
  · exact (h k hlt).2 hkid
  · exact hid hkid
  · rcases hstop with hnot | hout
    · exact hnot (hentries n hlt.le)
    · have hin := (hentries (n + 1) hlt).1
      omega

/-- The walk from a place that is reached without an entry with the identifier. -/
lemma Chained.finds (h : t.Chained id pos) (n : ℕ) (hpos : t.next^[n] 0 = pos)
    (hbefore : t.Passed id n) :
    ∃ fuel r, t.findLoop id fuel pos = .ok r ∧ ∀ p, r = some p ↔ t.FirstEntry id p := by
  induction h generalizing n with
  | @found pos hin hid hend =>
    subst hpos
    refine ⟨1, _, by rw [findLoop, touch_eq (by omega), ok_bind, if_pos hid], fun p => ⟨?_, ?_⟩⟩
    · rintro ⟨rfl⟩
      refine ⟨n, rfl, fun m hm => ?_, hid, fun m hm => (hbefore m hm).2⟩
      rcases Nat.lt_or_eq_of_le hm with hlt | rfl
      · exact (hbefore m hlt).1
      · exact ⟨hin, by rwa [hid]⟩
    · rintro ⟨k, rfl, -, hkid, hkbefore⟩
      rcases Nat.lt_trichotomy k n with hlt | rfl | hlt
      · exact absurd hkid (hbefore k hlt).2
      · rfl
      · exact absurd hid (hkbefore n hlt)
  | @marker pos hin hid hend =>
    subst hpos
    refine ⟨1, none, ?_, fun p => ⟨nofun, fun hp => ?_⟩⟩
    · rw [findLoop_step hin hid, if_neg fun h => h.2 hend]
    · exact absurd hp (hbefore.no_entry hid (.inl fun hentry => hentry.2 hend))
  | @last pos hin hid hend hlast hwrap =>
    subst hpos
    have hnone : ∃ fuel, t.findLoop id fuel (t.next^[n] 0) = .ok none := by
      by_cases hlt : t.next (t.next^[n] 0) % 2 ^ 32 < t.size
      · exact missed_iff.mpr (.more hin hid hend hlt (hwrap hlt))
      · exact missed_iff.mpr (.last hin hid hend (by omega))
    obtain ⟨fuel, hfuel⟩ := hnone
    refine ⟨fuel, none, hfuel, fun p => ⟨nofun, fun hp => ?_⟩⟩
    have hout : t.size ≤ t.next^[n + 1] 0 := by rwa [Function.iterate_succ_apply']
    exact absurd hp (hbefore.no_entry hid (.inr hout))
  | @more pos hin hid hend hnext _ ih =>
    subst hpos
    obtain ⟨fuel, r, hr, hfirst⟩ :=
      ih (n + 1) (Function.iterate_succ_apply' _ _ _) (hbefore.succ ⟨hin, hend⟩ hid)
    refine ⟨fuel + 1, r, ?_, hfirst⟩
    rw [findLoop_step hin hid, next_mod hnext, if_pos ⟨hnext, hend⟩, hr]

/-- A walk that gives the first entry visits headers inside. -/
lemma chained_of_findLoop {fuel : ℕ} {r : Option ℕ} (h : t.findLoop id fuel pos = .ok r)
    (hr : ∀ p, r = some p ↔ t.FirstEntry id p) (n : ℕ) (hpos : t.next^[n] 0 = pos)
    (hbefore : t.Passed id n) : t.Chained id pos := by
  subst hpos
  induction fuel generalizing n with
  | zero => cases h
  | succ fuel ih =>
    by_cases hid : t.get_header_id (t.next^[n] 0) = id
    · rw [findLoop] at h
      by_cases hin2 : t.next^[n] 0 + 2 ≤ t.size
      · rw [touch_eq hin2, ok_bind, if_pos hid] at h
        cases h
        obtain ⟨k, hk, hentries, -, -⟩ := (hr _).mp rfl
        have hentry := hentries k le_rfl
        rw [← hk] at hentry
        exact .found hentry.1 hid (hid ▸ hentry.2)
      · rw [touch, if_neg hin2] at h
        cases h
    · have hin := findLoop_outside h hid
      by_cases hend : t.get_header_id (t.next^[n] 0) = TFFS_ID_END
      · exact .marker hin hid hend
      · rw [findLoop_step hin hid] at h
        by_cases hlt : t.next (t.next^[n] 0) < t.size
        · rw [next_mod hlt, if_pos ⟨hlt, hend⟩, ← Function.iterate_succ_apply' t.next] at h
          have hrest := ih (n + 1) (hbefore.succ ⟨hin, hend⟩ hid) h
          rw [Function.iterate_succ_apply'] at hrest
          exact .more hin hid hend hlt hrest
        · refine .last hin hid hend (by omega) fun hwrap => missed_iff.mp ⟨fuel, ?_⟩
          rw [if_pos ⟨hwrap, hend⟩] at h
          -- behind the end of the dump there is no first entry to be found
          cases r with
          | none => exact h
          | some p =>
            have hout : t.size ≤ t.next^[n + 1] 0 := by
              rw [Function.iterate_succ_apply']
              omega
            exact absurd ((hr p).mp rfl) (hbefore.no_entry hid (.inr hout))

lemma findsFirst_iff : t.FindsFirst id ↔ t.Chained id 0 := by
  constructor
  · rintro ⟨r, ⟨fuel, hr⟩, hfirst⟩
    exact chained_of_findLoop hr hfirst 0 rfl (by simp [Passed])
  · intro h
    obtain ⟨fuel, r, hr, hfirst⟩ := h.finds 0 rfl (by simp [Passed])
    exact ⟨r, ⟨fuel, hr⟩, hfirst⟩

end Lookup

/-! ## Name tables -/

section Names

variable {t : Dump} {val len o : ℕ} {name name' : List Byte}

lemma strlen_eq (hbytes : (t.buffer.drop o).take (name.length + 1) = name ++ [0]) (h0 : 0 ∉ name) :
    t.strlen o = .ok name.length := by
  have hsplit : t.buffer.drop o = name ++ 0 :: (t.buffer.drop o).drop (name.length + 1) := by
    calc t.buffer.drop o
        = (t.buffer.drop o).take (name.length + 1) ++ (t.buffer.drop o).drop (name.length + 1) :=
          (List.take_append_drop _ _).symm
      _ = name ++ 0 :: (t.buffer.drop o).drop (name.length + 1) := by
          rw [hbytes, List.append_assoc, List.singleton_append]
  have hlen : name.length < t.size + 1 := by
    have hle := congrArg List.length hsplit
    rw [List.length_drop, List.length_append, List.length_cons] at hle
    rw [size]
    omega
  have hfound : seek t.buffer (fun c => c == 0) (t.size + 1) o = .ok (o + name.length) :=
    seek_found hsplit (fun b hb => by simpa using fun h : b = 0 => h0 (h ▸ hb)) rfl hlen
  rw [strlen, hfound, ok_bind, Nat.add_sub_cancel_left]

lemma ItemAt.take (h : t.ItemAt val len o name) :
    (t.buffer.drop (val + o + 4)).take name.length = name := by
  have hbytes := congrArg (List.take name.length) h.bytes
  rw [List.take_take, Nat.min_eq_left (Nat.le_succ _), List.take_left' rfl] at hbytes
  exact hbytes

lemma namesLoop_step (hlen : len < 2 ^ 16) (h : t.ItemAt val len o name) (fuel : ℕ) :
    t.namesLoop val len (fuel + 1) o =
      if o + 4 + (name.length + 1 + 3) / 4 * 4 < len then do
        let items ← t.namesLoop val len fuel (o + 4 + (name.length + 1 + 3) / 4 * 4)
        .ok ((get32 t.host (t.buffer.drop (val + o)), name) :: items)
      else .ok [(get32 t.host (t.buffer.drop (val + o)), name)] := by
  have hin := h.inside
  have hnext : (o + 4 + get_walk_size ((name.length + 1) % 2 ^ 32)) % 2 ^ 32 =
      o + 4 + (name.length + 1 + 3) / 4 * 4 := by
    have hmod : (name.length + 1) % 2 ^ 32 = name.length + 1 := Nat.mod_eq_of_lt (by omega)
    have hmod3 : (name.length + 1 + 3) % 2 ^ 32 = name.length + 1 + 3 :=
      Nat.mod_eq_of_lt (by omega)
    rw [get_walk_size, hmod, hmod3, Nat.mod_eq_of_lt (by omega)]
  rw [namesLoop, strlen_eq h.bytes h.letters, ok_bind]
  dsimp only
  rw [hnext, h.take]

lemma Tiled.names (hlen : len < 2 ^ 16) (h : t.Tiled val len o) :
    ∃ fuel items, t.namesLoop val len fuel o = .ok items ∧ t.Stored val len o items := by
  induction h with
  | @last o name h hlast =>
    refine ⟨1, _, ?_, .cons h (.nil fun name' h' => ?_)⟩
    · rw [namesLoop_step hlen h, if_neg (by omega)]
    · have hin := h'.inside
      omega
  | @more o name h hnext _ ih =>
    obtain ⟨fuel, items, hitems, hstored⟩ := ih
    refine ⟨fuel + 1, _, ?_, .cons h hstored⟩
    rw [namesLoop_step hlen h, if_pos hnext, hitems]
    rfl

lemma tiled_of_names (hlen : len < 2 ^ 16) {fuel : ℕ} {items : List Pair}
    (h : t.namesLoop val len fuel o = .ok items) (hstored : t.Stored val len o items) :
    t.Tiled val len o := by
  induction fuel generalizing o items with
  | zero => cases h
  | succ fuel ih =>
    cases hstored with
    | nil hnone =>
      -- the code lists at least one item
      rw [namesLoop] at h
      cases hn : t.strlen (val + o + 4) with
      | error err =>
        rw [hn] at h
        cases h
      | ok n =>
        rw [hn, ok_bind] at h
        dsimp only at h
        split at h
        · cases hrest : t.namesLoop val len fuel
              ((o + 4 + get_walk_size ((n + 1) % 2 ^ 32)) % 2 ^ 32) with
          | error err =>
            rw [hrest] at h
            cases h
          | ok rest =>
            rw [hrest] at h
            cases h
        · cases h
    | cons hitem hrest =>
      rw [namesLoop_step hlen hitem] at h
      split at h
      · rename_i hnext
        cases hmore : t.namesLoop val len fuel _ with
        | error err =>
          rw [hmore] at h
          cases h
        | ok rest =>
          rw [hmore, ok_bind, Except.ok.injEq, List.cons.injEq] at h
          obtain ⟨-, rfl⟩ := h
          exact .more hitem hnext (ih hmore hrest)
      · rename_i hlast
        exact .last hitem (by omega)

lemma names_iff {pos : ℕ} (hin : pos + 4 ≤ t.size) :
    (∃ items, t.Names pos items ∧ t.Stored (pos + 4) (t.get_header_len pos) 0 items) ↔
      t.Tiled (pos + 4) (t.get_header_len pos) 0 := by
  have hlen : t.get_header_len pos < 2 ^ 16 := get16_lt t.order (t.buffer.drop (pos + 2))
  constructor
  · rintro ⟨items, ⟨fuel, hitems⟩, hstored⟩
    rw [touch_eq hin, ok_bind] at hitems
    exact tiled_of_names hlen hitems hstored
  · intro h
    obtain ⟨fuel, items, hitems, hstored⟩ := h.names hlen
    exact ⟨items, ⟨fuel, by rw [touch_eq hin, ok_bind]; exact hitems⟩, hstored⟩

end Names

/-! ## Dumps -/

section Reads

variable {t : Dump} {id pos : ℕ}

lemma FirstEntry.inside (h : t.FirstEntry id pos) : pos + 4 ≤ t.size := by
  obtain ⟨n, rfl, hentries, -, -⟩ := h
  exact (hentries n le_rfl).1

lemma print_iff (h : t.FirstEntry id pos) : Inside (t.print_entry_value pos) ↔
    pos + 4 + t.get_header_len pos ≤ t.size := by
  rw [print_entry_value, inside_touch_bind, inside_touch_bind]
  exact ⟨fun hin => hin.2.1, fun hin => ⟨h.inside, hin, inside_ok _⟩⟩

end Reads

/-- A lookup in a dump is right exactly if everything that is visited lies inside. -/
theorem reads_right_iff (t : Dump) (id : ℕ) : t.ReadsRight id ↔ t.WithinDump id := by
  constructor
  · intro h
    exact
      { table := findsFirst_iff.mp h.table
        names := fun pos hpos => (names_iff hpos.inside).mp (h.names pos hpos)
        entry := findsFirst_iff.mp h.entry
        value := fun pos hpos => (print_iff hpos).mp (h.value pos hpos) }
  · intro h
    exact
      { table := findsFirst_iff.mpr h.table
        names := fun pos hpos => (names_iff hpos.inside).mpr (h.names pos hpos)
        entry := findsFirst_iff.mpr h.entry
        value := fun pos hpos => (print_iff hpos).mpr (h.value pos hpos) }

/-- An entry and an end marker whose header is cut off by the end of the dump: the length of the
marker is read behind it. -/
theorem reads_right_cut : ¬(⟨[0x00, 0x01, 0x04, 0x00, 0x31, 0x32, 0x33, 0x34, 0xff, 0xff], .little,
    false, by decide⟩ : Dump).ReadsRight 0x100 := by
  intro h
  obtain ⟨r, ⟨fuel, hr⟩, -⟩ := h.table
  match fuel with
  | 0 => cases hr
  | 1 => cases hr
  | fuel + 2 => cases hr

end Dump

end Tffs.Flat
