import Mt798x.Nmbm.Run

/-!
# The offsets of an info table

`nmbm_check_info_table_header` compares the two table offsets of a header by subtracting them as
`u32`.  The offsets are then used, without another look at them, by `nmbm_check_info_table`, by
the copies at the end of `nmbm_try_load_info_table` and by every later
`nmbm_generate_info_table_cache`.  This file collects these accesses to `info_table_cache` and
says for which accepted headers they stay inside it.
-/

namespace Nmbm

open Bytes Bmt

variable (c : Conf)

/-- The state table ends before the mapping table, and the mapping table ends inside the info
table. -/
def TablesFit (hdr : InfoTableHeader) : Prop :=
  hdr.stateTableOff.toNat + c.stateTableSize ≤ hdr.mappingTableOff.toNat ∧
    hdr.mappingTableOff.toNat + c.mappingTableSize ≤ c.infoTableSize

/-- The offset and the length of an access to `info_table_cache`. -/
abbrev Access := ℕ × ℕ

/-- What `nmbm_check_info_table` reads: an entry of the mapping table for each data block, and
the word of the state table with each block of the table itself. -/
def checkAccesses (hdr : InfoTableHeader) (dataBlockCount startBa endBa : ℕ) : List Access :=
  (List.range dataBlockCount).map (fun ba => (hdr.mappingTableOff.toNat + ba * 4, 4)) ++
    (List.range' startBa (endBa - startBa)).map
      (fun ba => (hdr.stateTableOff.toNat + ba / 16 * 4, 4))

/-- The two tables as they are copied out of the cache and into it. -/
def tableAccesses (hdr : InfoTableHeader) : List Access :=
  [(hdr.stateTableOff.toNat, c.stateTableSize), (hdr.mappingTableOff.toNat, c.mappingTableSize)]

/-- The copies at the end of `nmbm_try_load_info_table`. -/
def loadAccesses (hdr : InfoTableHeader) : List Access :=
  (0, Conf.infoHeaderSize) :: tableAccesses c hdr

/-- The `memset` and the copies of `nmbm_generate_info_table_cache` once the header has been
loaded. -/
def generateAccesses (hdr : InfoTableHeader) : List Access :=
  (0, c.infoTableSize) :: (tableAccesses c hdr ++ [(0, Conf.infoHeaderSize)])

/-- Every access of the three functions to a table that was found in front of the end of the chip
stays inside `info_table_cache`.  `nmbm_search_info_table` looks for tables from the end of the
data blocks on and up to the signature, so that neither the data blocks nor the blocks of the
table reach beyond the chip. -/
def AccessesInside (hdr : InfoTableHeader) : Prop :=
  ∀ dataBlockCount startBa endBa, dataBlockCount ≤ c.blockCount → endBa ≤ c.blockCount →
    ∀ a ∈ checkAccesses hdr dataBlockCount startBa endBa ++ loadAccesses c hdr ++
      generateAccesses c hdr, a.1 + a.2 ≤ c.infoTableSize

variable {c}

lemma stateWord_lt {ba : ℕ} (h : ba < c.blockCount) : ba / 16 * 4 + 4 ≤ c.stateTableSize := by
  rw [Conf.blockCount] at h
  rw [Conf.stateTableSize, Conf.stateWords]
  omega

lemma checkAccesses_le {hdr : InfoTableHeader} {dataBlockCount startBa endBa : ℕ}
    (hn : dataBlockCount ≤ c.blockCount) (he : endBa ≤ c.blockCount) {a : Access}
    (ha : a ∈ checkAccesses hdr dataBlockCount startBa endBa) :
    a.1 + a.2 ≤ max (hdr.stateTableOff.toNat + c.stateTableSize)
      (hdr.mappingTableOff.toNat + c.mappingTableSize) := by
  rw [checkAccesses, List.mem_append, List.mem_map, List.mem_map] at ha
  rcases ha with ⟨ba, hba, rfl⟩ | ⟨ba, hba, rfl⟩
  · rw [List.mem_range] at hba
    refine le_max_of_le_right ?_
    rw [Conf.blockCount] at hn
    rw [Conf.mappingTableSize]
    omega
  · rw [List.mem_range'_1] at hba
    refine le_max_of_le_left ?_
    have hword : ba / 16 * 4 + 4 ≤ c.stateTableSize := stateWord_lt (by omega)
    omega

lemma accessesInside_iff (hdr : InfoTableHeader) :
    AccessesInside c hdr ↔
      hdr.stateTableOff.toNat + c.stateTableSize ≤ c.infoTableSize ∧
        hdr.mappingTableOff.toNat + c.mappingTableSize ≤ c.infoTableSize := by
  have hheader : Conf.infoHeaderSize ≤ c.infoTableSize := c.infoTableSize_ge
  constructor
  · intro h
    have hload : ∀ a ∈ loadAccesses c hdr, a.1 + a.2 ≤ c.infoTableSize := fun a ha =>
      h 0 0 0 (Nat.zero_le _) (Nat.zero_le _) a
        (List.mem_append_left _ (List.mem_append_right _ ha))
    refine ⟨hload (hdr.stateTableOff.toNat, c.stateTableSize) ?_,
      hload (hdr.mappingTableOff.toNat, c.mappingTableSize) ?_⟩
    all_goals simp [loadAccesses, tableAccesses]
  · rintro ⟨hs, hm⟩ n startBa endBa hn he a ha
    simp only [loadAccesses, generateAccesses, tableAccesses, List.mem_append, List.mem_cons,
      List.not_mem_nil, or_false] at ha
    rcases ha with (h | rfl | rfl | rfl) | rfl | (rfl | rfl) | rfl
    · exact (checkAccesses_le hn he h).trans (max_le hs hm)
    all_goals omega

/-- What an accepted header guarantees: each difference is large enough, or the subtraction has
wrapped. -/
lemma checkInfoTableHeader_sizes {hdr : InfoTableHeader}
    (h : nmbmCheckInfoTableHeader c hdr = true) :
    c.stateTableSize ≤ u32Sub hdr.mappingTableOff.toNat hdr.stateTableOff.toNat ∧
      c.mappingTableSize ≤ u32Sub c.infoTableSize hdr.mappingTableOff.toNat := by
  simp only [nmbmCheckInfoTableHeader, Bool.and_eq_true, Bool.not_eq_true', decide_eq_false_iff_not,
    not_lt] at h
  exact ⟨h.1.2, h.2⟩

lemma tablesFit_iff {hdr : InfoTableHeader} (h : nmbmCheckInfoTableHeader c hdr = true) :
    TablesFit c hdr ↔ hdr.stateTableOff.toNat ≤ hdr.mappingTableOff.toNat ∧
      hdr.mappingTableOff.toNat ≤ c.infoTableSize := by
  obtain ⟨hs, hm⟩ := checkInfoTableHeader_sizes h
  constructor
  · rintro ⟨h1, h2⟩
    omega
  · rintro ⟨h1, h2⟩
    rw [u32Sub_of_le h1] at hs
    rw [u32Sub_of_le h2] at hm
    exact ⟨by omega, by omega⟩

/-- The tables of an accepted header fit, and every later access to `info_table_cache` stays
inside it, if and only if the offsets are in order. -/
theorem acceptedTables_inside_iff (hdr : InfoTableHeader)
    (h : nmbmCheckInfoTableHeader c hdr = true) :
    (TablesFit c hdr ∧ AccessesInside c hdr) ↔
      hdr.stateTableOff.toNat ≤ hdr.mappingTableOff.toNat ∧
        hdr.mappingTableOff.toNat ≤ c.infoTableSize := by
  rw [← tablesFit_iff h, accessesInside_iff, and_iff_left_iff_imp]
  rintro ⟨h1, h2⟩
  exact ⟨by omega, h2⟩

/-- The header that creation writes on the small chip of `Nmbm/Run.lean`. -/
def createdHeader : InfoTableHeader := ⟨magicInfoTable, nmbmVer, 256, 0, 1, 64, 128, 0⟩

theorem acceptedTables_inside_iff_created :
    TablesFit oneBlockConf createdHeader ∧ AccessesInside oneBlockConf createdHeader :=
  (acceptedTables_inside_iff createdHeader (by decide)).mpr (by decide)

/-- A header whose mapping table begins behind the end of the info table is accepted: the size
check wraps. -/
theorem acceptedTables_outside : ¬ ∀ hdr, nmbmCheckInfoTableHeader oneBlockConf hdr = true →
    TablesFit oneBlockConf hdr ∧ AccessesInside oneBlockConf hdr := by
  intro h
  have hfit := (h { createdHeader with mappingTableOff := 0xfffff000 } (by decide)).1
  exact absurd hfit.2 (by decide)

/-! ## Damage -/

lemma checkHeader_sum {hd x : List Byte} {size : ℕ} (hhd : hd.length = 16)
    (hlt : 16 < (rd32 (hd.drop 8)).toNat) (h : nmbmCheckHeader (hd ++ x) size = true) :
    (rd32 (hd.drop 8)).toNat ≤ size ∧ rd32 (hd.drop 12) =
      Crc.crc32Le 0 (hd.take 12 ++ le32 0 ++ x.take ((rd32 (hd.drop 8)).toNat - 16)) := by
  have hrd : ∀ k ≤ 12, rd32 ((hd ++ x).drop k) = rd32 (hd.drop k) := by
    intro k hk
    rw [← rd32_take_four, ← rd32_take_four (hd.drop k), List.drop_append_of_le_length (by omega),
      List.take_append_of_le_length (by rw [List.length_drop]; omega)]
  simp only [nmbmCheckHeader] at h
  rw [hrd 8 (by omega), hrd 12 le_rfl, if_pos hlt, List.take_append_of_le_length (by omega),
    List.drop_left' hhd, Crc.crc32Le_append] at h
  split at h
  · cases h
  · exact ⟨by omega, beq_iff_eq.mp h⟩

/-- An accepted structure in which any four bytes in a row under its checksum, behind the header,
are damaged is refused. -/
theorem checkHeader_damage {hd a w w' b : List Byte} {size : ℕ} (hhd : hd.length = 16)
    (hw : w.length = 4) (hw' : w'.length = 4) (hne : w ≠ w')
    (hin : 16 + (a.length + 4) ≤ (rd32 (hd.drop 8)).toNat)
    (h : nmbmCheckHeader (hd ++ (a ++ (w ++ b))) size = true) :
    nmbmCheckHeader (hd ++ (a ++ (w' ++ b))) size = false := by
  refine Bool.eq_false_iff.mpr fun h' => hne ?_
  have hsum := (checkHeader_sum hhd (by omega) h).2.symm.trans (checkHeader_sum hhd (by omega) h').2
  simp only [List.take_append] at hsum
  rw [List.take_of_length_le (l := a) (by omega), List.take_of_length_le (l := w) (by omega),
    List.take_of_length_le (l := w') (by omega), ← List.append_assoc _ a (w ++ _),
    ← List.append_assoc _ a (w' ++ _), hw, hw'] at hsum
  exact Crc.crc32Le_word_inj hw hw' hsum

theorem checkHeader_damage_bit :
    nmbmCheckHeader ([7, 0, 0, 0, 1, 0, 0, 0, 20, 0, 0, 0, 80, 197, 74, 215] ++
      ([] ++ ([1, 2, 3, 5] ++ []))) 20 = false :=
  checkHeader_damage (w := [1, 2, 3, 4]) rfl rfl rfl (by decide) (by decide) (by decide +kernel)

end Nmbm
