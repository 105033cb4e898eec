import Mt798x.Nmbm.Attach

/-!
# The image of an info table

`nmbm_generate_info_table_cache` builds the image, `nmbm_try_load_info_table` takes it apart.  For
an instance whose tables have their proper length and whose offsets lie in the image
(`Inst.Shaped`), the image passes the header and checksum tests and gives back the block states,
the block mapping and the write count.
-/

namespace Nmbm

open Bytes Bmt

variable (c : Conf)

/-- The two tables lie one after the other behind the header and inside the image. -/
structure OffsetsOk (h : InfoTableHeader) : Prop where
  header : Conf.infoHeaderSize ≤ h.stateTableOff.toNat
  state : h.stateTableOff.toNat + c.stateTableSize ≤ h.mappingTableOff.toNat
  mapping : h.mappingTableOff.toNat + c.mappingTableSize ≤ c.infoTableSize

/-- The tables have the length that belongs to the chip, and the offsets are in order. -/
structure Inst.Shaped (ni : Inst) : Prop where
  state : ni.blockState.length = c.stateWords
  mapping : ni.blockMapping.length = c.blockCount
  offsets : OffsetsOk c ni.infoTable

lemma initStructure_shaped (chip : Chip) : (nmbmInitStructure c chip).Shaped c := by
  have hlt := c.infoTableSize_lt
  have h1 : c.stateTableOff + c.stateTableSize ≤ c.mappingTableOff :=
    Nat.add_le_add_left (Conf.le_align c.pgSize_pos) _
  have h2 : c.mappingTableOff + c.mappingTableSize ≤ c.infoTableSize :=
    Nat.add_le_add_left (Conf.le_align c.pgSize_pos) _
  have e1 : (UInt32.ofNat c.stateTableOff).toNat = c.stateTableOff := by
    rw [UInt32.toNat_ofNat', Nat.mod_eq_of_lt (by omega)]
  have e2 : (UInt32.ofNat c.mappingTableOff).toNat = c.mappingTableOff := by
    rw [UInt32.toNat_ofNat', Nat.mod_eq_of_lt (by omega)]
  refine ⟨List.length_replicate, List.length_replicate, ⟨?_, ?_, ?_⟩⟩
  · simp only [nmbmInitStructure, e1]
    exact Conf.le_align c.pgSize_pos
  · simp only [nmbmInitStructure, e1, e2]
    exact h1
  · simp only [nmbmInitStructure, e2]
    exact h2

/-! ## The checksum -/

/-- The structure with its checksum field cleared. -/
def clearedChecksum (data : List Byte) : List Byte := splice data 12 (le32 0)

lemma updateChecksum_eq (data : List Byte) :
    nmbmUpdateChecksum data = splice (clearedChecksum data) 12
      (le32 (Crc.crc32Le 0 ((clearedChecksum data).take
        (rd32 ((clearedChecksum data).drop 8)).toNat))) := rfl

lemma updateChecksum_of_size {data : List Byte} (h16 : 16 ≤ data.length)
    (hsize : (rd32 (data.drop 8)).toNat = data.length) :
    nmbmUpdateChecksum data = splice data 12 (le32 (Crc.crc32Le 0 (clearedChecksum data))) := by
  have hclear : (clearedChecksum data).length = data.length :=
    length_splice (by rw [length_le32]; omega)
  have hrd : rd32 ((clearedChecksum data).drop 8) = rd32 (data.drop 8) :=
    rd32_drop_splice_of_le (by omega) (by omega)
  have hsame : ∀ w, splice (clearedChecksum data) 12 (le32 w) = splice data 12 (le32 w) :=
    fun w => splice_splice_same (by omega) rfl
  rw [updateChecksum_eq, hrd, hsize, hsame, List.take_of_length_le hclear.le]

lemma checkHeader_updateChecksum {data : List Byte} (h16 : 16 < data.length)
    (hsize : (rd32 (data.drop 8)).toNat = data.length) :
    nmbmCheckHeader (nmbmUpdateChecksum data) data.length = true := by
  have hcat : data.take 12 ++ le32 0 ++ data.drop 16 = clearedChecksum data := rfl
  have hdrop : ∀ w, (splice data 12 (le32 w)).drop 16 = data.drop 16 := fun w =>
    drop_splice_of_le (by rw [length_le32]) (by rw [length_le32]; omega)
  have htake : (data.drop 16).take (data.length - 16) = data.drop 16 :=
    List.take_of_length_le (by rw [List.length_drop])
  rw [updateChecksum_of_size h16.le hsize, nmbmCheckHeader]
  dsimp only
  rw [rd32_drop_splice_of_le (by omega) (by omega), hsize, if_neg (by omega), if_pos h16,
    take_splice_of_le le_rfl (by omega), hdrop, htake, Crc.crc32Le_append, hcat, drop_splice_self (by omega), rd32_le32_append]
  simp

/-! ## Taking the image apart -/

section Decode

variable {ni : Inst}

/-- The buffer with the state table and the mapping table in it. -/
def tablesBuf (ni : Inst) : List Byte :=
  splice (splice (List.replicate c.infoTableSize 0xff) ni.infoTable.stateTableOff.toNat
    (leWords ni.blockState)) ni.infoTable.mappingTableOff.toNat (leWords ni.blockMapping)

/-- The image before its checksum is computed. -/
def unsummed (ni : Inst) : List Byte := splice (tablesBuf c ni) 0 (generatedHeader c ni).bytes

lemma generatedImage_eq (ni : Inst) : generatedImage c ni = nmbmUpdateChecksum (unsummed c ni) :=
  rfl

@[simp] lemma length_headerBytes (h : InfoTableHeader) : h.bytes.length = 32 := rfl

lemma headerSize_le (h : OffsetsOk c ni.infoTable) : 32 ≤ c.infoTableSize := by
  have h1 : 32 ≤ ni.infoTable.stateTableOff.toNat := h.header
  have h2 := h.state
  have h3 := h.mapping
  omega

variable {c}

lemma length_tablesBuf (h : ni.Shaped c) : (tablesBuf c ni).length = c.infoTableSize := by
  obtain ⟨hs, hm, ho⟩ := h
  have h2 := ho.state
  have h3 := ho.mapping
  have hst : (leWords ni.blockState).length = c.stateTableSize := by
    rw [length_leWords, hs, Conf.stateTableSize]
    omega
  have hmp : (leWords ni.blockMapping).length = c.mappingTableSize := by
    rw [length_leWords, hm, Conf.mappingTableSize, Conf.blockCount]
    omega
  have h4 : (splice (List.replicate c.infoTableSize 0xff) ni.infoTable.stateTableOff.toNat
      (leWords ni.blockState)).length = c.infoTableSize := by
    rw [length_splice (by rw [hst, List.length_replicate]; omega), List.length_replicate]
  rw [tablesBuf, length_splice (by rw [hmp, h4]; omega), h4]

lemma length_unsummed (h : ni.Shaped c) : (unsummed c ni).length = c.infoTableSize := by
  have h32 := headerSize_le c h.offsets
  rw [unsummed, length_splice (by rw [length_tablesBuf h, length_headerBytes]; omega),
    length_tablesBuf h]

lemma unsummed_eq (ni : Inst) :
    unsummed c ni = (generatedHeader c ni).bytes ++ (tablesBuf c ni).drop 32 := by
  rw [unsummed, splice, List.take_zero, List.nil_append, length_headerBytes, Nat.zero_add]

lemma ofBytes_bytes_append (h : InfoTableHeader) (t : List Byte) :
    InfoTableHeader.ofBytes (h.bytes ++ t) = h := by
  obtain ⟨h0, h1, h2, h3, h4, h5, h6, h7⟩ := h
  rw [InfoTableHeader.ofBytes, InfoTableHeader.mk.injEq]
  exact ⟨rd32_le32_append h0 (leWords [h1, h2, h3, h4, h5, h6, h7] ++ t),
    rd32_le32_append h1 (leWords [h2, h3, h4, h5, h6, h7] ++ t),
    rd32_le32_append h2 (leWords [h3, h4, h5, h6, h7] ++ t),
    rd32_le32_append h3 (leWords [h4, h5, h6, h7] ++ t),
    rd32_le32_append h4 (leWords [h5, h6, h7] ++ t),
    rd32_le32_append h5 (leWords [h6, h7] ++ t),
    rd32_le32_append h6 (leWords [h7] ++ t),
    rd32_le32_append h7 t⟩

lemma splice_checksum (h : InfoTableHeader) (t : List Byte) (w : UInt32) :
    splice (h.bytes ++ t) 12 (le32 w) = { h with checksum := w }.bytes ++ t := rfl

/-- The checksum of the generated image. -/
def imageChecksum (c : Conf) (ni : Inst) : UInt32 :=
  Crc.crc32Le 0 (clearedChecksum (unsummed c ni))

lemma size_unsummed (h : ni.Shaped c) :
    (rd32 ((unsummed c ni).drop 8)).toNat = (unsummed c ni).length := by
  have hh := congrArg InfoTableHeader.size
    (ofBytes_bytes_append (generatedHeader c ni) ((tablesBuf c ni).drop 32))
  rw [← unsummed_eq] at hh
  have hrd : rd32 ((unsummed c ni).drop 8) = UInt32.ofNat c.infoTableSize := hh
  rw [hrd, length_unsummed h, UInt32.toNat_ofNat', Nat.mod_eq_of_lt c.infoTableSize_lt]

lemma generatedImage_bytes (h : ni.Shaped c) :
    generatedImage c ni =
      { generatedHeader c ni with checksum := imageChecksum c ni }.bytes ++
        (tablesBuf c ni).drop 32 := by
  have h32 := headerSize_le c h.offsets
  rw [generatedImage_eq, updateChecksum_of_size (by rw [length_unsummed h]; omega)
    (size_unsummed h), imageChecksum]
  nth_rewrite 1 [unsummed_eq]
  exact splice_checksum _ _ _

lemma length_generatedImage (h : ni.Shaped c) : (generatedImage c ni).length = c.infoTableSize := by
  have h32 := headerSize_le c h.offsets
  rw [generatedImage_bytes h, List.length_append, length_headerBytes, List.length_drop,
    length_tablesBuf h]
  omega

lemma ofBytes_generatedImage (h : ni.Shaped c) :
    InfoTableHeader.ofBytes (generatedImage c ni) =
      { generatedHeader c ni with checksum := imageChecksum c ni } := by
  rw [generatedImage_bytes h, ofBytes_bytes_append]

lemma checkHeader_generatedImage (h : ni.Shaped c) :
    nmbmCheckHeader (generatedImage c ni) c.infoTableSize = true := by
  have h32 := headerSize_le c h.offsets
  rw [generatedImage_eq, ← length_unsummed h]
  exact checkHeader_updateChecksum (by rw [length_unsummed h]; omega) (size_unsummed h)

lemma checkInfoTableHeader_generatedImage (h : ni.Shaped c) :
    nmbmCheckInfoTableHeader c (InfoTableHeader.ofBytes (generatedImage c ni)) = true := by
  have h1 := h.offsets.state
  have h2 := h.offsets.mapping
  have h3 := c.infoTableSize_lt
  have e1 : u32Sub ni.infoTable.mappingTableOff.toNat ni.infoTable.stateTableOff.toNat =
      ni.infoTable.mappingTableOff.toNat - ni.infoTable.stateTableOff.toNat :=
    u32Sub_of_le (by omega)
  have e2 : u32Sub c.infoTableSize ni.infoTable.mappingTableOff.toNat =
      c.infoTableSize - ni.infoTable.mappingTableOff.toNat := u32Sub_of_le (by omega)
  rw [ofBytes_generatedImage h]
  simp only [nmbmCheckInfoTableHeader, generatedHeader, UInt32.toNat_ofNat',
    Nat.mod_eq_of_lt h3, e1, e2, beq_self_eq_true, Bool.true_and, Bool.and_eq_true,
    Bool.not_eq_true', decide_eq_false_iff_not]
  omega

lemma drop_generatedImage (h : ni.Shaped c) {k : ℕ} (hk : 32 ≤ k) :
    (generatedImage c ni).drop k = (tablesBuf c ni).drop k := by
  rw [generatedImage_bytes h, List.drop_append, List.drop_eq_nil_of_le
    (by rw [length_headerBytes]; exact hk), List.nil_append, length_headerBytes, List.drop_drop,
    show 32 + (k - 32) = k by omega]

lemma tableState_generatedImage (h : ni.Shaped c) :
    tableState c (generatedImage c ni) = ni.blockState := by
  have h1 : 32 ≤ ni.infoTable.stateTableOff.toNat := h.offsets.header
  have h2 := h.offsets.state
  have h3 := h.offsets.mapping
  have hsize : 4 * c.stateWords = c.stateTableSize := by
    rw [Conf.stateTableSize]
    omega
  have hst : (leWords ni.blockState).length = c.stateTableSize := by
    rw [length_leWords, h.state, hsize]
  have hlen : (splice (List.replicate c.infoTableSize 0xff) ni.infoTable.stateTableOff.toNat
      (leWords ni.blockState)).length = c.infoTableSize := by
    rw [length_splice (by rw [hst, List.length_replicate]; omega), List.length_replicate]
  rw [tableState, ofBytes_generatedImage h]
  dsimp only [generatedHeader]
  -- the mapping table starts behind the bytes that are read
  rw [drop_generatedImage h h1, tablesBuf, drop_splice_of_ge (by omega) (by omega),
    ← rdWords_take, take_splice_of_le (by omega) (by rw [List.length_drop]; omega), rdWords_take,
    drop_splice_self (by rw [List.length_replicate]; omega), ← h.state, rdWords_leWords_append]

lemma tableMapping_generatedImage (h : ni.Shaped c) :
    tableMapping c (generatedImage c ni) = ni.blockMapping := by
  have h1 : 32 ≤ ni.infoTable.stateTableOff.toNat := h.offsets.header
  have h2 := h.offsets.state
  have h3 := h.offsets.mapping
  have hst : (leWords ni.blockState).length = c.stateTableSize := by
    rw [length_leWords, h.state, Conf.stateTableSize]
    omega
  have hlen : (splice (List.replicate c.infoTableSize 0xff) ni.infoTable.stateTableOff.toNat
      (leWords ni.blockState)).length = c.infoTableSize := by
    rw [length_splice (by rw [hst, List.length_replicate]; omega), List.length_replicate]
  rw [tableMapping, ofBytes_generatedImage h]
  dsimp only [generatedHeader]
  rw [drop_generatedImage h (by omega), tablesBuf, drop_splice_self (by omega), ← h.mapping,
    rdWords_leWords_append]

end Decode

end Nmbm
