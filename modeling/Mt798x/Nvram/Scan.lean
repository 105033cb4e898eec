import Mt798x.Lib.Guard
import Mt798x.Nvram.Commit

/-!
# The scan of the strings in the partition

`_nvram_rehash` walks over the `name=value` strings behind the header with `strchr` and `strlen`,
and nothing but a string ends the walk: an empty one, or one without a `=`.  The length in the
header is not looked at.  So the scan stays inside the mapping if and only if there is such a string
(`nvram_open_scan_iff`), and then it reads the variables that the list model reads.
-/

namespace Nvram

open Bytes Guard Tokens

/-! ## The scan -/

/-- `strlen`: the place of the NUL behind `i`. -/
def strlen (mmap : List Byte) (i : ℕ) : Except Fault ℕ :=
  seek mmap (fun b => b == 0) (mmap.length + 1) i

/-- `strchr`: the place of the character behind `i`, if it stands in the string. -/
def strchr (mmap : List Byte) (i : ℕ) (c : Byte) : Except Fault (Option ℕ) := do
  let j ← seek mmap (fun b => b == c || b == 0) (mmap.length + 1) i
  pure (if mmap[j]? = some c then some j else none)

/-- The bytes from one place up to another. -/
def between (mmap : List Byte) (i j : ℕ) : Str := (mmap.take j).drop i

/-- The loop of `_nvram_rehash` over the strings from `name` on: the variables that are set. -/
def scanLoop (mmap : List Byte) : ℕ → ℕ → Except Fault (List Tuple)
  | 0, _ => .error .endless
  | fuel + 1, name =>
    match mmap[name]? with
    | none => .error .outside
    | some c =>
      if c = 0 then pure []
      else do
        match ← strchr mmap name 61 with
        | none => pure []
        | some eq =>
          let value := eq + 1
          let nul ← strlen mmap value
          let ts ← scanLoop mmap fuel (nul + 1)
          pure (⟨between mmap name eq, between mmap value nul⟩ :: ts)

/-- The scan behind the header. -/
def rehashScan (mmap : List Byte) (offset : ℕ) : Except Fault (List Tuple) :=
  scanLoop mmap (mmap.length + 1) (offset + HEADER_SIZE)

/-! ## What the scan needs -/

/-- The NUL-terminated strings that some data consists of; what stands behind the last NUL is
none. -/
def strings (data : List Byte) : List Str := (data.splitOn 0).dropLast

/-- One of the strings ends the scan. -/
def Ends (data : List Byte) : Prop := ∃ s ∈ strings data, (61 : Byte) ∉ s

section Scan

variable {mmap data s rest : List Byte} {i fuel : ℕ}

lemma strings_cons (hs : (0 : Byte) ∉ s) : strings (s ++ 0 :: rest) = s :: strings rest := by
  rw [strings, List.splitOn_append_cons_self_of_not_mem hs,
    List.dropLast_cons_of_ne_nil (List.splitOn_ne_nil 0 rest)]
  rfl

lemma strings_nil (h : (0 : Byte) ∉ data) : strings data = [] := by
  rw [strings, List.splitOn_eq_singleton h]
  rfl

lemma ends_cons (hs : (0 : Byte) ∉ s) (heq : (61 : Byte) ∈ s) :
    Ends (s ++ 0 :: rest) ↔ Ends rest := by
  rw [Ends, strings_cons hs]
  constructor
  · rintro ⟨t, ht, hno⟩
    rcases List.mem_cons.mp ht with rfl | ht
    · exact absurd heq hno
    · exact ⟨t, ht, hno⟩
  · rintro ⟨t, ht, hno⟩
    exact ⟨t, List.mem_cons_of_mem _ ht, hno⟩

lemma exists_string (data : List Byte) :
    (0 : Byte) ∉ data ∨ ∃ s rest, data = s ++ 0 :: rest ∧ (0 : Byte) ∉ s := by
  by_cases h : (0 : Byte) ∈ data
  · obtain ⟨s, rest, hdata, hs⟩ := List.eq_append_cons_of_mem h
    exact .inr ⟨s, rest, hdata, hs⟩
  · exact .inl h

lemma between_eq {x : Str} (h : mmap.drop i = x ++ rest) : between mmap i (i + x.length) = x := by
  rw [between, List.drop_take, Nat.add_sub_cancel_left, h, List.take_left' rfl]

lemma strlen_found (h : mmap.drop i = s ++ 0 :: rest) (hs : (0 : Byte) ∉ s) :
    strlen mmap i = .ok (i + s.length) := by
  have hlen := congrArg List.length h
  rw [List.length_drop, List.length_append] at hlen
  refine seek_found h (fun b hb => ?_) rfl (by omega)
  have hne : b ≠ 0 := fun h0 => hs (h0 ▸ hb)
  simpa using hne

lemma strlen_outside (h : (0 : Byte) ∉ mmap.drop i) : strlen mmap i = .error .outside := by
  refine seek_outside (fun b hb => ?_) ?_
  · have hne : b ≠ 0 := fun h0 => h (h0 ▸ hb)
    simpa using hne
  · rw [List.length_drop]
    omega

lemma strchr_stops {c b : Byte} (h : mmap.drop i = s ++ b :: rest) (hb : b = c ∨ b = 0)
    (hc : c ∉ s) (hs : (0 : Byte) ∉ s) :
    strchr mmap i c = .ok (if b = c then some (i + s.length) else none) := by
  have hlen := congrArg List.length h
  rw [List.length_drop, List.length_append] at hlen
  have hget : mmap[i + s.length]? = some b := by
    rw [← List.getElem?_drop, h, List.getElem?_append_right le_rfl, Nat.sub_self]
    rfl
  have hseek : seek mmap (fun b => b == c || b == 0) (mmap.length + 1) i = .ok (i + s.length) := by
    refine seek_found h (fun b hb => ?_) (by simpa using hb) (by omega)
    have hne : b ≠ c ∧ b ≠ 0 := ⟨fun h0 => hc (h0 ▸ hb), fun h0 => hs (h0 ▸ hb)⟩
    simpa using hne
  rw [strchr, hseek, ok_bind, hget]
  simp only [Option.some.injEq]
  split_ifs <;> rfl

lemma strchr_found {c : Byte} (h : mmap.drop i = s ++ c :: rest) (hc : c ∉ s)
    (hs : (0 : Byte) ∉ s) : strchr mmap i c = .ok (some (i + s.length)) := by
  rw [strchr_stops h (.inl rfl) hc hs, if_pos rfl]

lemma strchr_missing {c : Byte} (h : mmap.drop i = s ++ 0 :: rest) (hc : c ∉ s) (h0 : c ≠ 0)
    (hs : (0 : Byte) ∉ s) : strchr mmap i c = .ok none := by
  rw [strchr_stops h (.inr rfl) hc hs, if_neg h0.symm]

lemma strchr_outside {c : Byte} (hc : c ∉ mmap.drop i) (h : (0 : Byte) ∉ mmap.drop i) :
    strchr mmap i c = .error .outside := by
  have hseek : seek mmap (fun b => b == c || b == 0) (mmap.length + 1) i = .error .outside := by
    refine seek_outside (fun b hb => ?_) ?_
    · have hne : b ≠ c ∧ b ≠ 0 := ⟨fun h0 => hc (h0 ▸ hb), fun h0 => h (h0 ▸ hb)⟩
      simpa using hne
    · rw [List.length_drop]
      omega
  rw [strchr, hseek]
  rfl

lemma parse_string {k : ℕ} (h : data = s ++ 0 :: rest) (hs : (0 : Byte) ∉ s) :
    parse (k + 1) data =
      if s = [] then [] else if 61 ∈ s then
        ⟨s.takeWhile (· ≠ 61), s.drop ((s.takeWhile (· ≠ 61)).length + 1)⟩ :: parse k rest
      else [] := by
  have htake : data.takeWhile (· ≠ 0) = s := by
    rw [h]
    exact takeWhile_append_stop hs
  have hdrop : data.drop (s.length + 1) = rest := by rw [h, drop_append_stop]
  rw [parse]
  simp only [htake, hdrop]

/-- The scan from the start of a string: it stays inside if a string ends it, and reads what the
list model reads. -/
lemma scanLoop_spec {k : ℕ} (hfuel : (mmap.drop i).length < fuel) (hk : (mmap.drop i).length ≤ k) :
    (Ends (mmap.drop i) → scanLoop mmap fuel i = .ok (parse k (mmap.drop i))) ∧
      (¬Ends (mmap.drop i) → scanLoop mmap fuel i = .error .outside) := by
  induction fuel generalizing i k with
  | zero => omega
  | succ fuel ih =>
    rcases exists_string (mmap.drop i) with hno | ⟨s, rest, hdata, hs⟩
    · -- no string at all
      have hout : scanLoop mmap (fuel + 1) i = .error .outside := by
        rw [scanLoop]
        cases hget : mmap[i]? with
        | none => rfl
        | some c =>
          have hc : c ≠ 0 := by
            rintro rfl
            refine hno (List.mem_of_mem_head? ?_)
            rw [List.head?_drop, hget]
            rfl
          simp only [hc, if_false]
          by_cases heq : (61 : Byte) ∈ mmap.drop i
          · obtain ⟨n, v, hsplit, hn⟩ := List.eq_append_cons_of_mem heq
            have hn0 : (0 : Byte) ∉ n := fun h => hno (hsplit ▸ List.mem_append_left _ h)
            have hv : mmap.drop (i + n.length + 1) = v := by
              rw [Nat.add_assoc, ← List.drop_drop, hsplit, drop_append_stop]
            have hv0 : (0 : Byte) ∉ mmap.drop (i + n.length + 1) := by
              rw [hv]
              exact fun h => hno (hsplit ▸ List.mem_append_right _ (List.mem_cons_of_mem _ h))
            rw [strchr_found hsplit hn hn0, ok_bind]
            simp only
            rw [strlen_outside hv0]
            rfl
          · rw [strchr_outside heq hno]
            rfl
      refine ⟨fun hends => ?_, fun _ => hout⟩
      obtain ⟨t, ht, -⟩ := hends
      rw [strings_nil hno] at ht
      cases ht
    · obtain ⟨k, rfl⟩ : ∃ j, k = j + 1 := by
        refine ⟨k - 1, ?_⟩
        have hpos := congrArg List.length hdata
        rw [List.length_append, List.length_cons] at hpos
        omega
      rw [parse_string hdata hs, scanLoop]
      cases s with
      | nil =>
        have hget : mmap[i]? = some 0 := by
          rw [← List.head?_drop, hdata]
          rfl
        have hends : Ends (mmap.drop i) := by
          refine ⟨[], ?_, List.not_mem_nil⟩
          rw [hdata, strings_cons hs]
          exact List.mem_cons_self
        rw [hget]
        exact ⟨fun _ => rfl, fun h => absurd hends h⟩
      | cons c s =>
        have hget : mmap[i]? = some c := by
          rw [← List.head?_drop, hdata]
          rfl
        have hc : c ≠ 0 := fun h0 => hs (h0 ▸ List.mem_cons_self)
        rw [hget, if_neg (List.cons_ne_nil c s)]
        simp only [hc, if_false]
        by_cases heq : (61 : Byte) ∈ c :: s
        · obtain ⟨n, v, hsplit, hn⟩ := List.eq_append_cons_of_mem heq
          rw [hsplit] at hs hdata
          have hn0 : (0 : Byte) ∉ n := fun h => hs (List.mem_append_left _ h)
          have hv0 : (0 : Byte) ∉ v := fun h =>
            hs (List.mem_append_right _ (List.mem_cons_of_mem _ h))
          have hdata' : mmap.drop i = n ++ 61 :: (v ++ 0 :: rest) := by
            rw [hdata, List.append_assoc]
            rfl
          have hvalue : mmap.drop (i + n.length + 1) = v ++ 0 :: rest := by
            rw [Nat.add_assoc, ← List.drop_drop, hdata', drop_append_stop]
          have hrest : mmap.drop (i + n.length + 1 + v.length + 1) = rest := by
            rw [Nat.add_assoc (i + n.length + 1), ← List.drop_drop, hvalue, drop_append_stop]
          have hlen := congrArg List.length hdata
          simp only [List.length_append, List.length_cons] at hlen
          obtain ⟨hok, hbad⟩ := ih (i := i + n.length + 1 + v.length + 1) (k := k)
            (by rw [hrest]; omega) (by rw [hrest]; omega)
          rw [hrest] at hok hbad
          have hiff : Ends (mmap.drop i) ↔ Ends rest := by
            rw [hdata]
            exact ends_cons hs (List.mem_append_right _ List.mem_cons_self)
          rw [hiff, if_pos heq, hsplit, takeWhile_append_stop hn, drop_append_stop, strchr_found hdata' hn hn0, ok_bind]
          simp only
          rw [strlen_found hvalue hv0, ok_bind, between_eq hdata', between_eq hvalue]
          refine ⟨fun hends => ?_, fun hends => ?_⟩
          · rw [hok hends]
            rfl
          · rw [hbad hends]
            rfl
        · have hends : Ends (mmap.drop i) := by
            refine ⟨c :: s, ?_, heq⟩
            rw [hdata, strings_cons hs]
            exact List.mem_cons_self
          rw [if_neg heq, strchr_missing hdata heq (by decide) hs]
          exact ⟨fun _ => rfl, fun h => absurd hends h⟩

lemma rehashScan_eq {offset : ℕ} (h : Ends (mmap.drop (offset + HEADER_SIZE))) :
    rehashScan mmap offset =
      .ok (parse (mmap.drop (offset + HEADER_SIZE)).length (mmap.drop (offset + HEADER_SIZE))) :=
  (scanLoop_spec (by rw [List.length_drop]; omega) le_rfl).1 h

lemma rehashScan_iff (mmap : List Byte) (offset : ℕ) :
    (∃ ts, rehashScan mmap offset = .ok ts) ↔ Ends (mmap.drop (offset + HEADER_SIZE)) := by
  constructor
  · rintro ⟨ts, hts⟩
    by_contra hno
    have hout : rehashScan mmap offset = .error .outside :=
      (scanLoop_spec (by rw [List.length_drop]; omega) le_rfl).2 hno
    rw [hout] at hts
    cases hts
  · exact fun hends => ⟨_, rehashScan_eq hends⟩

end Scan

/-- `_nvram_rehash`, with the accesses of the scan checked. -/
def rehashChecked (signed : Bool) (mmap : List Byte) (offset : ℕ) :
    Except Fault (Table signed) := do
  let ts ← rehashScan mmap offset
  let room := mmap.length - offset
  pure (setMissing room (setAll room (Table.empty signed) ts)
    (sdramVars (headerSdram mmap offset)))

/-- `nvram_open` of a mapped partition, with the accesses of the scan checked. -/
def nvram_open_checked (signed : Bool) (mmap : List Byte) (rdonly : Bool) :
    Except Fault (Option (Handle signed)) :=
  (findMagic mmap).elim (pure none) fun offset =>
    if rd32 (mmap.drop offset) = NVRAM_MAGIC ∧
        (rdonly ∨ headerLen mmap offset < mmap.length - offset) then do
      let table ← rehashChecked signed mmap offset
      pure (some ⟨mmap, offset, table⟩)
    else pure none

lemma rehashChecked_eq {signed : Bool} {mmap : List Byte} {offset : ℕ}
    (h : Ends (mmap.drop (offset + HEADER_SIZE))) :
    rehashChecked signed mmap offset = .ok (_nvram_rehash signed mmap offset) := by
  rw [rehashChecked, rehashScan_eq h, ok_bind, _nvram_rehash]
  rfl

lemma rehashChecked_iff {signed : Bool} {mmap : List Byte} {offset : ℕ} :
    (∃ table, rehashChecked signed mmap offset = .ok table) ↔
      Ends (mmap.drop (offset + HEADER_SIZE)) := by
  constructor
  · rintro ⟨table, hok⟩
    rw [← rehashScan_iff]
    rw [rehashChecked] at hok
    cases hscan : rehashScan mmap offset with
    | ok ts => exact ⟨ts, rfl⟩
    | error e =>
      rw [hscan, error_bind] at hok
      exact absurd hok (by simp only [reduceCtorEq, not_false_eq_true])
  · exact fun hends => ⟨_, rehashChecked_eq hends⟩

lemma nvram_open_checked_iff {signed : Bool} {mmap : List Byte} {rdonly : Bool}
    {h : Handle signed} (hopen : nvram_open signed mmap rdonly = some h) :
    nvram_open_checked signed mmap rdonly = .ok (some h) ↔
      Ends (mmap.drop (h.offset + HEADER_SIZE)) := by
  rw [nvram_open, Option.bind_eq_some_iff] at hopen
  obtain ⟨offset, hfind, hopen⟩ := hopen
  by_cases haccept : rd32 (mmap.drop offset) = NVRAM_MAGIC ∧
      (rdonly ∨ headerLen mmap offset < mmap.length - offset)
  · rw [if_pos haccept, Option.some_inj] at hopen
    subst hopen
    rw [nvram_open_checked, hfind, Option.elim_some, if_pos haccept, ← rehashChecked_iff]
    constructor
    · intro hok
      cases htable : rehashChecked signed mmap offset with
      | ok table => exact ⟨table, rfl⟩
      | error e =>
        rw [htable, error_bind] at hok
        exact absurd hok (by simp only [reduceCtorEq, not_false_eq_true])
    · intro hok
      rw [rehashChecked_eq (rehashChecked_iff.mp hok), ok_bind]
      rfl
  · rw [if_neg haccept] at hopen
    exact absurd hopen (by simp only [reduceCtorEq, not_false_eq_true])

/-- In a partition that `nvram_open` accepts the scan of the variables reads inside the partition
and ends if and only if one of the NUL-terminated strings behind the header has no `=`. -/
theorem nvram_open_scan_iff (signed : Bool) {mmap : List Byte} {rdonly : Bool} {h : Handle signed}
    (hopen : nvram_open signed mmap rdonly = some h) :
    nvram_open_checked signed mmap rdonly = .ok (some h) ↔
      Ends (mmap.drop (h.offset + HEADER_SIZE)) :=
  nvram_open_checked_iff hopen

/-- A partition with the magic in front and one byte repeated behind it. -/
def filled (b : Byte) (n : ℕ) : List Byte := le32 NVRAM_MAGIC ++ List.replicate n b

lemma length_filled (b : Byte) (n : ℕ) : (filled b n).length = 4 + n := by
  rw [filled, List.length_append, List.length_replicate, length_le32]

lemma findMagic_filled (b : Byte) {n : ℕ} (hn : 0x8000 ≤ 4 + n) (h32 : 4 + n < 2 ^ 32) :
    findMagic (filled b n) = some 0 ∧ rd32 ((filled b n).drop 0) = NVRAM_MAGIC := by
  have hmagic : rd32 ((filled b n).drop 0) = NVRAM_MAGIC := rd32_le32_append _ _
  refine ⟨magicLoop_of_first (j := 0) ⟨Nat.zero_le _, ?_, hmagic, ?_⟩ le_rfl (by omega), hmagic⟩
  · rw [length_filled]
    omega
  · intro k _ hk
    omega

lemma data_filled (b : Byte) (n : ℕ) :
    (filled b (16 + n)).drop (0 + HEADER_SIZE) = List.replicate n b := by
  rw [filled, List.replicate_add, ← List.append_assoc]
  refine List.drop_left' ?_
  rw [List.length_append, List.length_replicate, length_le32]
  rfl

lemma headerLen_filled (n : ℕ) : headerLen (filled 0 (16 + n)) 0 = 0 := by
  have hdrop : (filled 0 (16 + n)).drop (0 + 4) = le32 0 ++ List.replicate (12 + n) 0 := by
    rw [filled, List.drop_left' (length_le32 _), show 16 + n = 4 + (12 + n) by omega,
      List.replicate_add]
    rfl
  rw [headerLen, hdrop, rd32_le32_append]
  rfl

lemma nvram_open_filled {b : Byte} {n : ℕ} {rdonly : Bool} (hn : 0x8000 ≤ 20 + n)
    (h32 : 20 + n < 2 ^ 32)
    (haccept : rdonly ∨ headerLen (filled b (16 + n)) 0 < (filled b (16 + n)).length - 0) :
    ∃ h, nvram_open true (filled b (16 + n)) rdonly = some h ∧ h.offset = 0 := by
  obtain ⟨hfind, hmagic⟩ := findMagic_filled b (n := 16 + n) (by omega) (by omega)
  refine ⟨⟨filled b (16 + n), 0, _nvram_rehash true (filled b (16 + n)) 0⟩, ?_, rfl⟩
  rw [nvram_open, hfind, Option.bind_some, if_pos ⟨hmagic, haccept⟩]

lemma ends_filled_zero (n : ℕ) : Ends ((filled 0 (16 + (n + 1))).drop (0 + HEADER_SIZE)) := by
  have hdata : (filled 0 (16 + (n + 1))).drop (0 + HEADER_SIZE) = [] ++ 0 :: List.replicate n 0 := by
    rw [data_filled, List.replicate_succ]
    rfl
  refine ⟨[], ?_, List.not_mem_nil⟩
  rw [hdata, strings_cons List.not_mem_nil]
  exact List.mem_cons_self

lemma not_ends_filled {b : Byte} (hb : b ≠ 0) (n : ℕ) :
    ¬Ends ((filled b (16 + n)).drop (0 + HEADER_SIZE)) := by
  rintro ⟨s, hs, -⟩
  rw [data_filled, strings_nil fun h0 => hb (List.eq_of_mem_replicate h0).symm] at hs
  cases hs

/-- Zeros behind the magic are accepted, and the scan ends at the first one. -/
theorem nvram_open_scan_zeros : ∃ h, nvram_open true (filled 0 (16 + (0x7FEB + 1))) false = some h ∧
    nvram_open_checked true (filled 0 (16 + (0x7FEB + 1))) false = .ok (some h) := by
  have hspace : headerLen (filled 0 (16 + (0x7FEB + 1))) 0 <
      (filled 0 (16 + (0x7FEB + 1))).length - 0 := by
    rw [headerLen_filled, length_filled]
    norm_num
  obtain ⟨h, hopen, hoffset⟩ := nvram_open_filled (b := 0) (n := 0x7FEB + 1) (by norm_num)
    (by norm_num) (.inr hspace)
  have hends := ends_filled_zero 0x7FEB
  rw [← hoffset] at hends
  exact ⟨h, hopen, (nvram_open_scan_iff true hopen).mpr hends⟩

/-- Erased flash behind the magic is accepted, and no string ends the scan. -/
theorem nvram_open_scan_erased : ∃ h, nvram_open true (filled 0xFF (16 + 0x7FEC)) true = some h ∧
    nvram_open_checked true (filled 0xFF (16 + 0x7FEC)) true ≠ .ok (some h) := by
  obtain ⟨h, hopen, hoffset⟩ := nvram_open_filled (b := 0xFF) (n := 0x7FEC) (by norm_num)
    (by norm_num) (.inl rfl)
  have hno := not_ends_filled (b := 0xFF) (by decide) 0x7FEC
  rw [← hoffset] at hno
  exact ⟨h, hopen, fun hok => hno ((nvram_open_checked_iff hopen).mp hok)⟩

end Nvram
