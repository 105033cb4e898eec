import Mt798x.Lib.Bytes

/-!
# RouterBOOT tag lists

A RouterBOOT configuration is a list of tag nodes: a 32-bit word in the byte order of the
processor, the tag number in its low half and the payload length in its high half, followed by
the payload, padded to the next word.  A null node ends the list.  Two drivers walk such a list:
`routerboot_tag_find` looks for one tag, `rb_add_cells` registers a cell for every tag it knows.

Both walks are compared with `tlvs`, the list of the nodes of an image as the format defines
them.  They keep step with it, and so with each other, up to a node whose padded length does not
fit into 16 bits; what they report of a node differs where the node is the last one of the image.
-/

namespace Mikrotik

open Bytes

/-! ## Constants -/

/-- `RB_MAGIC_HARD`: the word every hard_config image starts with. -/
def RB_MAGIC_HARD : UInt32 := 0x64726148

def RB_ID_FLASH_INFO : ℕ := 0x03
def RB_ID_MAC_ADDRESS_PACK : ℕ := 0x04
def RB_ID_BOARD_PRODUCT_CODE : ℕ := 0x05
def RB_ID_BIOS_VERSION : ℕ := 0x06
def RB_ID_SERIAL_NUMBER : ℕ := 0x0B
def RB_ID_MEMORY_SIZE : ℕ := 0x0D
def RB_ID_MAC_ADDRESS_COUNT : ℕ := 0x0E
def RB_ID_HW_OPTIONS : ℕ := 0x15
def RB_ID_WLAN_DATA : ℕ := 0x16
def RB_ID_BOARD_IDENTIFIER : ℕ := 0x17
def RB_ID_PRODUCT_NAME : ℕ := 0x21
def RB_ID_DEFCONF : ℕ := 0x26
def RB_ID_BOARD_REVISION : ℕ := 0x27

/-- `ETH_ALEN`: the bytes of a MAC address. -/
def ETH_ALEN : ℕ := 6

/-- The error numbers of the drivers. -/
inductive Errno where
  | EINVAL
  | ENOENT
  | ENOMEM
  | EIO
  | ENODATA
  | EFBIG
  | ENOSPC
  | ENODEV
  | ERANGE
  | EACCES
  | EOPNOTSUPP
  | EOVERFLOW
  | EBADMSG
  | ENOBUFS
  | ESPIPE
  | lzo (ret : ℤ)
  deriving DecidableEq, Repr

/-- `ALIGN(len, sizeof(u32))`, computed in `int`. -/
def ALIGN (len : ℕ) : ℕ := (len + 3) / 4 * 4

lemma le_ALIGN (len : ℕ) : len ≤ ALIGN len := by
  rw [ALIGN]
  omega

/-! ## The two walkers -/

/-- The loop of `routerboot_tag_find`; `none` when it has not ended after `fuel` nodes.  The
padded length goes back into the `u16 len`.  A node that is cut off by the end of the buffer is
read all the same; the bytes behind the buffer do not decide anything. -/
def tagFindLoop (e : Endian) (bufhead : List Byte) (buflen tag_id : ℕ) :
    ℕ → ℕ → Option (Except Errno (ℕ × ℕ))
  | 0, _ => none
  | fuel + 1, datum =>
    if datum < buflen then
      let node := (get32 e (bufhead.drop datum)).toNat
      if node = 0 then some (.error .ENOENT)
      else
        let id := node % 0x10000
        let len := node / 0x10000
        if tag_id = id then
          if buflen ≤ datum + 4 then some (.error .ENOENT)
          else some (.ok ((datum + 4) % 0x10000, len))
        else
          tagFindLoop e bufhead buflen tag_id fuel (datum + 4 + ALIGN len % 0x10000 / 4 * 4)
    else some (.error .ENOENT)

/-- `routerboot_tag_find`: the offset and the length of the payload of a tag. -/
def routerboot_tag_find (e : Endian) (bufhead : List Byte) (buflen tag_id : ℕ) :
    Option (Except Errno (ℕ × ℕ)) :=
  if tag_id = 0 then some (.error .EINVAL)
  else tagFindLoop e bufhead buflen tag_id (buflen + 1) 0

/-- The cases of the `switch` of `rb_tlv_cell_name`. -/
def tlvCellNames : List (ℕ × String) :=
  [(RB_ID_FLASH_INFO, "flash-info"), (RB_ID_MAC_ADDRESS_PACK, "base-mac-address"),
    (RB_ID_BOARD_PRODUCT_CODE, "board-product-code"), (RB_ID_BIOS_VERSION, "booter-version"),
    (RB_ID_SERIAL_NUMBER, "board-serial"), (RB_ID_MEMORY_SIZE, "mem-size"),
    (RB_ID_MAC_ADDRESS_COUNT, "mac-count"), (RB_ID_HW_OPTIONS, "hw-options"),
    (RB_ID_WLAN_DATA, "wlan-data"), (RB_ID_BOARD_IDENTIFIER, "board-identifier"),
    (RB_ID_PRODUCT_NAME, "product-name"), (RB_ID_DEFCONF, "defconf"),
    (RB_ID_BOARD_REVISION, "board-revision")]

/-- `rb_tlv_cell_name`: the name of the cell of a tag. -/
def rb_tlv_cell_name (tag : ℕ) : Option String := tlvCellNames.lookup tag

/-- `struct nvmem_cell_info`, as far as the walk decides it. -/
structure CellInfo where
  name : String
  offset : ℕ
  bytes : ℕ
  deriving DecidableEq, Repr

/-- The nvmem core behind the driver: whether the device has a layout container, and what
`nvmem_add_one_cell` returns for a cell. -/
structure Nvmem where
  layout : Bool
  nvmem_add_one_cell : CellInfo → ℤ

/-- The core has a layout container and takes every cell. -/
structure Nvmem.Works (nv : Nvmem) : Prop where
  layout : nv.layout = true
  add : ∀ cell, nv.nvmem_add_one_cell cell = 0

/-- The cell `rb_add_cells` fills in for a known tag. -/
def cellFor (name : String) (tlv_tag offset tlv_len : ℕ) : CellInfo where
  name := name
  offset := offset
  bytes := if tlv_tag = RB_ID_MAC_ADDRESS_PACK then ETH_ALEN else tlv_len

/-- The loop of `rb_add_cells`: the return value and the cells registered.  Image and offsets
are far below the range of the `u32 offset`, for the image is one `kmalloc` buffer. -/
def addCellsLoop (e : Endian) (nv : Nvmem) (data : List Byte) :
    ℕ → ℕ → List CellInfo → Option (ℤ × List CellInfo)
  | 0, _, _ => none
  | fuel + 1, offset, cells =>
    if offset + 4 ≤ data.length then
      let node := (get32 e (data.drop offset)).toNat
      if node = 0 then some (0, cells)
      else
        let tlv_tag := node % 0x10000
        let tlv_len := node / 0x10000
        if data.length < offset + 4 + tlv_len then some (0, cells)
        else
          match rb_tlv_cell_name tlv_tag with
          | none => addCellsLoop e nv data fuel (offset + 4 + ALIGN tlv_len) cells
          | some name =>
            let cell := cellFor name tlv_tag (offset + 4) tlv_len
            if nv.nvmem_add_one_cell cell = 0 then
              addCellsLoop e nv data fuel (offset + 4 + ALIGN tlv_len) (cells ++ [cell])
            else some (nv.nvmem_add_one_cell cell, cells)
    else some (0, cells)

/-- `rb_add_cells`; the walk starts behind the magic. -/
def rb_add_cells (e : Endian) (nv : Nvmem) (data : List Byte) : Option (ℤ × List CellInfo) :=
  if nv.layout then addCellsLoop e nv data (data.length - 4 + 1) 4 []
  else some (-2, [])

/-- An image that both drivers accept: it starts with `RB_MAGIC_HARD`. -/
structure HardImage (e : Endian) where
  data : List Byte
  magic : get32 e data = RB_MAGIC_HARD

/-- `routerboot_tag_find` as `rb_hardconfig_init` calls it, past the magic. -/
def HardImage.find {e : Endian} (img : HardImage e) (tag_id : ℕ) :
    Option (Except Errno (ℕ × ℕ)) :=
  routerboot_tag_find e (img.data.drop 4) (img.data.length - 4) tag_id

/-! ## The nodes of an image -/

/-- A node of a tag list: where its payload starts, its tag and its length. -/
structure Tlv where
  pos : ℕ
  id : ℕ
  len : ℕ
  deriving DecidableEq, Repr

/-- The nodes from an offset on, at most `fuel` many. -/
def chain (e : Endian) (data : List Byte) : ℕ → ℕ → List Tlv
  | 0, _ => []
  | fuel + 1, o =>
    if o + 4 ≤ data.length then
      let node := (get32 e (data.drop o)).toNat
      if node = 0 then []
      else ⟨o + 4, node % 0x10000, node / 0x10000⟩ ::
        chain e data fuel (o + 4 + ALIGN (node / 0x10000))
    else []

/-- The nodes of an image, behind its magic. -/
def tlvs (e : Endian) (data : List Byte) : List Tlv := chain e data (data.length - 4 + 1) 4

/-- The node at an offset that holds a whole word. -/
def tlvAt (e : Endian) (data : List Byte) (o : ℕ) : Tlv where
  pos := o + 4
  id := (get32 e (data.drop o)).toNat % 0x10000
  len := (get32 e (data.drop o)).toNat / 0x10000

section Walk

variable {e : Endian} {data : List Byte} {fuel o : ℕ}

lemma chain_of_short (h : data.length < o + 4) : chain e data fuel o = [] := by
  cases fuel with
  | zero => rfl
  | succ fuel => rw [chain, if_neg (by omega)]

lemma chain_of_null (h : (get32 e (data.drop o)).toNat = 0) : chain e data fuel o = [] := by
  cases fuel with
  | zero => rfl
  | succ fuel =>
    by_cases ho : o + 4 ≤ data.length
    · rw [chain, if_pos ho, if_pos h]
    · rw [chain, if_neg ho]

lemma chain_succ (ho : o + 4 ≤ data.length) (h : (get32 e (data.drop o)).toNat ≠ 0) :
    chain e data (fuel + 1) o =
      tlvAt e data o :: chain e data fuel (o + 4 + ALIGN (tlvAt e data o).len) := by
  rw [chain, if_pos ho, if_neg h]
  rfl

lemma chain_of_cut (ho : o + 4 ≤ data.length) (h : (get32 e (data.drop o)).toNat ≠ 0)
    (hcut : data.length < o + 4 + (tlvAt e data o).len) :
    chain e data (fuel + 1) o = [tlvAt e data o] := by
  have hle : (tlvAt e data o).len ≤ ALIGN (tlvAt e data o).len := le_ALIGN _
  rw [chain_succ ho h, chain_of_short (by omega)]

end Walk

/-- Every node lies behind the offset the walk starts at, and its word inside the image. -/
lemma pos_of_mem_chain {e : Endian} {data : List Byte} {fuel o : ℕ} {nd : Tlv}
    (h : nd ∈ chain e data fuel o) : o + 4 ≤ nd.pos ∧ nd.pos ≤ data.length := by
  induction fuel generalizing o with
  | zero => simp [chain] at h
  | succ fuel ih =>
    by_cases hlen : o + 4 ≤ data.length
    · by_cases hnull : (get32 e (data.drop o)).toNat = 0
      · rw [chain_of_null hnull] at h
        simp at h
      · rw [chain_succ hlen hnull, List.mem_cons] at h
        rcases h with rfl | h
        · exact ⟨le_rfl, hlen⟩
        · have := ih h
          omega
    · rw [chain_of_short (by omega)] at h
      simp at h

lemma pairwise_chain (e : Endian) (data : List Byte) (fuel o : ℕ) :
    (chain e data fuel o).Pairwise fun a b => a.pos + a.len + 4 ≤ b.pos := by
  induction fuel generalizing o with
  | zero => exact List.Pairwise.nil
  | succ fuel ih =>
    by_cases hlen : o + 4 ≤ data.length
    · by_cases hnull : (get32 e (data.drop o)).toNat = 0
      · rw [chain_of_null hnull]
        exact List.Pairwise.nil
      · rw [chain_succ hlen hnull]
        refine List.Pairwise.cons (fun b hb => ?_) (ih _)
        have hpos := pos_of_mem_chain hb
        have hle := le_ALIGN (tlvAt e data o).len
        show o + 4 + (tlvAt e data o).len + 4 ≤ b.pos
        omega
    · rw [chain_of_short (by omega)]
      exact List.Pairwise.nil

/-! ## What the walkers report -/

/-- What `routerboot_tag_find` makes of the first node of the tag. -/
def report (len : ℕ) : Option Tlv → Except Errno (ℕ × ℕ)
  | none => .error .ENOENT
  | some nd => if nd.pos < len then .ok ((nd.pos - 4) % 0x10000, nd.len) else .error .ENOENT

/-- The nodes in front of the first node of a tag. -/
def before (t : ℕ) (nds : List Tlv) : List Tlv := nds.takeWhile (fun nd => nd.id ≠ t)

/-- The padded length of no node in front of the tag overflows the `u16` it is kept in. -/
def Short (t : ℕ) (nds : List Tlv) : Prop := ∀ nd ∈ before t nds, nd.len < 65533

/-- The first node of a tag. -/
def first (t : ℕ) (nds : List Tlv) : Option Tlv := nds.find? (fun nd => nd.id = t)

/-- The cell of a node: its tag is known and its payload lies inside the image. -/
def cellOf (len : ℕ) (nd : Tlv) : Option CellInfo :=
  if nd.pos + nd.len ≤ len then
    (rb_tlv_cell_name nd.id).map fun name => cellFor name nd.id nd.pos nd.len
  else none

variable {t : ℕ} {nd : Tlv} {nds : List Tlv}

lemma Short.head (h : Short t (nd :: nds)) (hid : nd.id ≠ t) : nd.len < 65533 := by
  apply h
  simp [before, hid]

lemma Short.tail (h : Short t (nd :: nds)) (hid : nd.id ≠ t) : Short t nds := by
  intro nd' hnd'
  apply h
  simp only [before, hid, ne_eq, not_false_eq_true, decide_true, List.takeWhile_cons_of_pos,
    List.mem_cons]
  exact Or.inr hnd'

/-- At the end of the image there is nothing to find: a node without room for a payload is not
reported, and every other one is stepped over. -/
lemma tagFindLoop_end {e : Endian} {buf : List Byte} {buflen t fuel datum : ℕ}
    (hend : buflen ≤ datum + 4) (hfuel : buflen - datum < fuel) :
    tagFindLoop e buf buflen t fuel datum = some (.error .ENOENT) := by
  induction fuel generalizing datum with
  | zero => omega
  | succ fuel ih =>
    rw [tagFindLoop]
    by_cases hlt : datum < buflen
    · rw [if_pos hlt]
      dsimp only
      split
      · rfl
      · split
        · rfl
        · exact ih (by omega) (by omega)
    · rw [if_neg hlt]

lemma tagFindLoop_ends {e : Endian} {buf : List Byte} {buflen t fuel datum : ℕ}
    (hfuel : buflen - datum < fuel) :
    ∃ found, tagFindLoop e buf buflen t fuel datum = some found := by
  induction fuel generalizing datum with
  | zero => omega
  | succ fuel ih =>
    rw [tagFindLoop]
    by_cases hlt : datum < buflen
    · rw [if_pos hlt]
      dsimp only
      split
      · exact ⟨_, rfl⟩
      · split
        · split <;> exact ⟨_, rfl⟩
        · exact ih (by omega)
    · rw [if_neg hlt]
      exact ⟨_, rfl⟩

/-- `routerboot_tag_find` returns on every buffer. -/
theorem routerboot_tag_find_ends (e : Endian) (buf : List Byte) (buflen t : ℕ) :
    ∃ found, routerboot_tag_find e buf buflen t = some found := by
  rw [routerboot_tag_find]
  split
  · exact ⟨_, rfl⟩
  · exact tagFindLoop_ends (by omega)

/-- As long as no padded length overflows, `routerboot_tag_find` walks the nodes of the image. -/
theorem tagFindLoop_eq {e : Endian} {data : List Byte} {t fuel o : ℕ} (ho : 4 ≤ o)
    (hfuel : data.length - o < fuel) (hshort : Short t (chain e data fuel o)) :
    tagFindLoop e (data.drop 4) (data.length - 4) t fuel (o - 4) =
      some (report data.length (first t (chain e data fuel o))) := by
  induction fuel generalizing o with
  | zero => omega
  | succ fuel ih =>
    by_cases hlen : o + 4 ≤ data.length
    · have hdrop : (data.drop 4).drop (o - 4) = data.drop o := by
        rw [List.drop_drop, show 4 + (o - 4) = o by omega]
      rw [tagFindLoop, if_pos (by omega), hdrop]
      by_cases hnull : (get32 e (data.drop o)).toNat = 0
      · rw [chain_of_null hnull, if_pos hnull]
        rfl
      · rw [if_neg hnull]
        rw [chain_succ hlen hnull] at hshort ⊢
        by_cases hid : t = (get32 e (data.drop o)).toNat % 0x10000
        · have hfirst : first t (tlvAt e data o ::
              chain e data fuel (o + 4 + ALIGN (tlvAt e data o).len)) =
              some (tlvAt e data o) := by
            rw [first, List.find?_cons_of_pos]
            simp [tlvAt, ← hid]
          rw [if_pos hid, hfirst, report]
          by_cases hroom : (tlvAt e data o).pos < data.length
          · have hroom' : o + 4 < data.length := hroom
            rw [if_neg (by omega), if_pos hroom, tlvAt,
              show o - 4 + 4 = o + 4 - 4 by omega]
          · have hroom' : ¬ o + 4 < data.length := hroom
            rw [if_pos (by omega), if_neg hroom]
        · have hid' : (tlvAt e data o).id ≠ t := fun h => hid h.symm
          have hlt : (tlvAt e data o).len < 65533 := hshort.head hid'
          have hnext : o - 4 + 4 + ALIGN (tlvAt e data o).len % 0x10000 / 4 * 4 =
              o + 4 + ALIGN (tlvAt e data o).len - 4 := by
            rw [ALIGN]
            omega
          have hfirst : first t (tlvAt e data o ::
              chain e data fuel (o + 4 + ALIGN (tlvAt e data o).len)) =
              first t (chain e data fuel (o + 4 + ALIGN (tlvAt e data o).len)) := by
            rw [first, List.find?_cons_of_neg (by simpa using hid')]
            rfl
          rw [if_neg hid, hfirst]
          show tagFindLoop e (data.drop 4) (data.length - 4) t fuel
            (o - 4 + 4 + ALIGN (tlvAt e data o).len % 0x10000 / 4 * 4) = _
          rw [hnext]
          exact ih (by omega) (by omega) (hshort.tail hid')
    · rw [chain_of_short (by omega), tagFindLoop_end (by omega) (by omega)]
      rfl

lemma addCellsLoop_succ {e : Endian} {nv : Nvmem} {data : List Byte} {fuel o : ℕ}
    {cells : List CellInfo} (hnv : nv.Works) (hlen : o + 4 ≤ data.length)
    (hnull : (get32 e (data.drop o)).toNat ≠ 0) :
    addCellsLoop e nv data (fuel + 1) o cells =
      if data.length < o + 4 + (tlvAt e data o).len then some (0, cells)
      else addCellsLoop e nv data fuel (o + 4 + ALIGN (tlvAt e data o).len)
        (cells ++ ((rb_tlv_cell_name (tlvAt e data o).id).map fun name =>
          cellFor name (tlvAt e data o).id (o + 4) (tlvAt e data o).len).toList) := by
  rw [addCellsLoop, if_pos hlen, if_neg hnull]
  simp only [tlvAt]
  congr 1
  cases hname : rb_tlv_cell_name ((get32 e (data.drop o)).toNat % 0x10000) with
  | none => simp
  | some name => simp [hnv.add]

/-- `rb_add_cells` registers the cells of the nodes of the image. -/
theorem addCellsLoop_eq {e : Endian} {nv : Nvmem} {data : List Byte} {fuel o : ℕ}
    {cells : List CellInfo} (hnv : nv.Works) (hfuel : data.length - o < fuel) :
    addCellsLoop e nv data fuel o cells =
      some (0, cells ++ (chain e data fuel o).filterMap (cellOf data.length)) := by
  induction fuel generalizing o cells with
  | zero => omega
  | succ fuel ih =>
    by_cases hlen : o + 4 ≤ data.length
    · by_cases hnull : (get32 e (data.drop o)).toNat = 0
      · rw [addCellsLoop, if_pos hlen, chain_of_null hnull, if_pos hnull]
        simp
      · rw [addCellsLoop_succ hnv hlen hnull]
        by_cases hcut : data.length < o + 4 + (tlvAt e data o).len
        · have hnone : cellOf data.length (tlvAt e data o) = none := by
            rw [cellOf, if_neg]
            show ¬ o + 4 + (tlvAt e data o).len ≤ data.length
            omega
          rw [chain_of_cut hlen hnull hcut, if_pos hcut]
          simp [hnone]
        · have hcell : cellOf data.length (tlvAt e data o) =
              (rb_tlv_cell_name (tlvAt e data o).id).map fun name =>
                cellFor name (tlvAt e data o).id (o + 4) (tlvAt e data o).len := by
            rw [cellOf, if_pos]
            · rfl
            · show o + 4 + (tlvAt e data o).len ≤ data.length
              omega
          rw [if_neg hcut, chain_succ hlen hnull, ih (by omega), List.append_assoc, ← hcell]
          cases h : cellOf data.length (tlvAt e data o) with
          | none => rw [List.filterMap_cons_none h]; rfl
          | some c => rw [List.filterMap_cons_some h]; rfl
    · rw [addCellsLoop, if_neg hlen, chain_of_short (by omega)]
      simp

/-! ## Agreement of the two walkers -/

lemma rb_tlv_cell_name_zero : rb_tlv_cell_name 0 = none := by decide

lemma mem_tlvCellNames {name : String} (h : rb_tlv_cell_name t = some name) :
    (t, name) ∈ tlvCellNames := by
  obtain ⟨l₁, l₂, hl, -⟩ := List.lookup_eq_some_iff.mp h
  rw [hl]
  simp

lemma rb_tlv_cell_name_inj {t' : ℕ} {name : String} (h : rb_tlv_cell_name t = some name)
    (h' : rb_tlv_cell_name t' = some name) : t = t' := by
  have hinj : ∀ p ∈ tlvCellNames, ∀ q ∈ tlvCellNames, p.2 = q.2 → p.1 = q.1 := by decide
  exact hinj (t, name) (mem_tlvCellNames h) (t', name) (mem_tlvCellNames h') rfl

/-- The cells registered for a tag, in order. -/
def cellsFor (t : ℕ) (cells : List CellInfo) : List CellInfo :=
  cells.filter (fun c => rb_tlv_cell_name t = some c.name)

/-- The two walkers agree about a tag: both end; one finds the tag exactly when the other
registers a cell for it; the first cell has the offset and, but for the MAC tag, the length that
was found; and all the payloads they report lie inside the image. -/
def Agree {e : Endian} (nv : Nvmem) (img : HardImage e) (t : ℕ) : Prop :=
  ∃ found ret cells, img.find t = some found ∧ rb_add_cells e nv img.data = some (ret, cells) ∧
    ((∃ ofs len, found = .ok (ofs, len)) ↔ cellsFor t cells ≠ []) ∧
    (∀ ofs len, found = .ok (ofs, len) →
      (∀ c, (cellsFor t cells).head? = some c →
        c.offset = 4 + ofs ∧ (t ≠ RB_ID_MAC_ADDRESS_PACK → c.bytes = len)) ∧
      4 + ofs + len ≤ img.data.length) ∧
    ∀ c ∈ cellsFor t cells, c.offset + c.bytes ≤ img.data.length

/-- The nodes of a tag whose payload lies inside the image. -/
def fitting (len t : ℕ) (nds : List Tlv) : List Tlv :=
  nds.filter fun nd => nd.id = t ∧ nd.pos + nd.len ≤ len

lemma mem_fitting {len : ℕ} :
    nd ∈ fitting len t nds ↔ nd ∈ nds ∧ nd.id = t ∧ nd.pos + nd.len ≤ len := by
  simp [fitting]

/-- The cells of a tag are those of its fitting nodes. -/
lemma cellsFor_filterMap {t : ℕ} {name : String} (ht : rb_tlv_cell_name t = some name) (len : ℕ)
    (nds : List Tlv) : cellsFor t (nds.filterMap (cellOf len)) =
      (fitting len t nds).map fun nd => cellFor name t nd.pos nd.len := by
  induction nds with
  | nil => rfl
  | cons nd nds ih =>
    by_cases hfits : nd.pos + nd.len ≤ len
    · cases hname : rb_tlv_cell_name nd.id with
      | none =>
        have hid : nd.id ≠ t := by
          rintro rfl
          rw [ht] at hname
          exact absurd hname (by simp)
        have hcell : cellOf len nd = none := by
          rw [cellOf, if_pos hfits, hname]
          rfl
        rw [List.filterMap_cons_none hcell, ih, fitting, fitting,
          List.filter_cons_of_neg (by simp [hid])]
      | some name' =>
        have hcell : cellOf len nd = some (cellFor name' nd.id nd.pos nd.len) := by
          rw [cellOf, if_pos hfits, hname]
          rfl
        rw [List.filterMap_cons_some hcell, cellsFor]
        by_cases hid : nd.id = t
        · have hsame : name' = name := by
            rw [hid, ht] at hname
            exact (Option.some.inj hname).symm
          rw [List.filter_cons_of_pos (by simp [cellFor, hsame, ht]), ← cellsFor, ih, fitting,
            fitting, List.filter_cons_of_pos (by simp [hid, hfits]), List.map_cons, hid, hsame]
        · have hdiff : rb_tlv_cell_name t ≠ some name' :=
            fun h => hid (rb_tlv_cell_name_inj hname h)
          rw [List.filter_cons_of_neg (by simp [cellFor, hdiff]), ← cellsFor, ih, fitting,
            fitting, List.filter_cons_of_neg (by simp [hid])]
    · have hcell : cellOf len nd = none := by rw [cellOf, if_neg hfits]
      rw [List.filterMap_cons_none hcell, ih, fitting, fitting,
        List.filter_cons_of_neg (by simp [hfits])]

lemma fitting_of_first {len : ℕ} (h : first t nds = some nd) (hfits : nd.pos + nd.len ≤ len) :
    ∃ rest, fitting len t nds = nd :: rest := by
  obtain ⟨hid, as, bs, rfl, has⟩ := List.find?_eq_some_iff_append.mp h
  have hnone : fitting len t as = [] := by
    rw [fitting, List.filter_eq_nil_iff]
    intro a ha
    have := has a ha
    simp_all
  refine ⟨fitting len t bs, ?_⟩
  rw [fitting, List.filter_append, ← fitting, hnone, List.nil_append,
    List.filter_cons_of_pos (by simp_all)]
  rfl

/-- If the first node of a tag is cut off by the end of the image, no node of the tag fits. -/
lemma fitting_of_first_cut {e : Endian} {data : List Byte} (h : first t (tlvs e data) = some nd)
    (hcut : data.length < nd.pos + nd.len) : fitting data.length t (tlvs e data) = [] := by
  obtain ⟨hid, as, bs, hl, has⟩ := List.find?_eq_some_iff_append.mp h
  have hpair : (as ++ nd :: bs).Pairwise fun a b => a.pos + a.len + 4 ≤ b.pos := by
    rw [← hl]
    exact pairwise_chain e data _ 4
  rw [fitting, List.filter_eq_nil_iff, hl]
  intro a ha
  rcases List.mem_append.mp ha with ha | ha
  · have := has a ha
    simp_all
  · rcases List.mem_cons.mp ha with rfl | hb
    · simp [hcut]
    · -- a node behind the cut one would lie behind the image
      have hmem : a ∈ chain e data (data.length - 4 + 1) 4 := by
        rw [← tlvs, hl]
        exact ha |> List.mem_append_right as
      have hpos := (pos_of_mem_chain hmem).2
      have hlt := List.rel_of_pairwise_cons (List.pairwise_append.mp hpair).2.1 hb
      omega

lemma fitting_of_first_none {len : ℕ} (h : first t nds = none) : fitting len t nds = [] := by
  rw [first, List.find?_eq_none] at h
  rw [fitting, List.filter_eq_nil_iff]
  intro a ha
  have := h a ha
  simp_all

/-- What the image has to be like: the first node of the tag, if there is one, has a payload
that starts before the end of the image, within reach of a 16-bit offset, and ends inside the
image (or it is the last word of the image and claims bytes behind it), and every MAC node has
room for the six bytes of its cell. -/
def WellPlaced (len t : ℕ) (nds : List Tlv) : Prop :=
  (∀ nd ∈ first t nds,
    (nd.pos < len ∧ nd.pos + nd.len ≤ len ∧ nd.pos < 0x10004) ∨ (nd.pos = len ∧ 0 < nd.len)) ∧
  (t = RB_ID_MAC_ADDRESS_PACK →
    ∀ nd ∈ nds, nd.id = t → nd.pos + nd.len ≤ len → nd.pos + ETH_ALEN ≤ len)

instance (t : ℕ) (nds : List Tlv) : Decidable (Short t nds) :=
  inferInstanceAs (Decidable (∀ nd ∈ before t nds, nd.len < 65533))

instance (len t : ℕ) (nds : List Tlv) : Decidable (WellPlaced len t nds) :=
  inferInstanceAs (Decidable (_ ∧ (t = RB_ID_MAC_ADDRESS_PACK →
    ∀ nd ∈ nds, nd.id = t → nd.pos + nd.len ≤ len → nd.pos + ETH_ALEN ≤ len)))

section Agreement

variable {e : Endian} {nv : Nvmem} {img : HardImage e} {t : ℕ} {name : String}

lemma HardImage.find_eq (ht : rb_tlv_cell_name t = some name)
    (hshort : Short t (tlvs e img.data)) :
    img.find t = some (report img.data.length (first t (tlvs e img.data))) := by
  have ht0 : t ≠ 0 := by
    rintro rfl
    rw [rb_tlv_cell_name_zero] at ht
    exact absurd ht (by simp)
  rw [HardImage.find, routerboot_tag_find, if_neg ht0]
  exact tagFindLoop_eq le_rfl (by omega) hshort

lemma rb_add_cells_eq (hnv : nv.Works) (data : List Byte) :
    rb_add_cells e nv data = some (0, (tlvs e data).filterMap (cellOf data.length)) := by
  rw [rb_add_cells, if_pos hnv.layout, addCellsLoop_eq hnv (by omega), List.nil_append]
  rfl

/-- The cells of a tag lie inside the image exactly when, for the MAC tag, its nodes have room
for six bytes. -/
lemma cells_inside_iff (name : String) {len : ℕ} {nds : List Tlv} :
    (∀ c ∈ (fitting len t nds).map (fun nd => cellFor name t nd.pos nd.len),
      c.offset + c.bytes ≤ len) ↔
    (t = RB_ID_MAC_ADDRESS_PACK →
      ∀ nd ∈ nds, nd.id = t → nd.pos + nd.len ≤ len → nd.pos + ETH_ALEN ≤ len) := by
  simp only [List.forall_mem_map, mem_fitting, cellFor]
  constructor
  · rintro h rfl nd hnd hid hfits
    have := h nd ⟨hnd, hid, hfits⟩
    rwa [if_pos rfl] at this
  · rintro h nd ⟨hnd, hid, hfits⟩
    split
    · rename_i hmac
      exact h hmac nd hnd hid hfits
    · exact hfits

/-- The agreement of the walkers in terms of the nodes of the image. -/
lemma agree_iff_nodes (hnv : nv.Works) (ht : rb_tlv_cell_name t = some name)
    (hshort : Short t (tlvs e img.data)) :
    Agree nv img t ↔
      ((∃ ofs len, report img.data.length (first t (tlvs e img.data)) = .ok (ofs, len)) ↔
        fitting img.data.length t (tlvs e img.data) ≠ []) ∧
      (∀ ofs len, report img.data.length (first t (tlvs e img.data)) = .ok (ofs, len) →
        (∀ nd, (fitting img.data.length t (tlvs e img.data)).head? = some nd →
          nd.pos = 4 + ofs ∧ (t ≠ RB_ID_MAC_ADDRESS_PACK → nd.len = len)) ∧
        4 + ofs + len ≤ img.data.length) ∧
      (t = RB_ID_MAC_ADDRESS_PACK → ∀ nd ∈ tlvs e img.data, nd.id = t →
        nd.pos + nd.len ≤ img.data.length → nd.pos + ETH_ALEN ≤ img.data.length) := by
  have hcells := cellsFor_filterMap ht img.data.length (tlvs e img.data)
  have hhead : ∀ ofs len, (∀ c, ((fitting img.data.length t (tlvs e img.data)).map fun nd =>
        cellFor name t nd.pos nd.len).head? = some c →
        c.offset = 4 + ofs ∧ (t ≠ RB_ID_MAC_ADDRESS_PACK → c.bytes = len)) ↔
      (∀ nd, (fitting img.data.length t (tlvs e img.data)).head? = some nd →
        nd.pos = 4 + ofs ∧ (t ≠ RB_ID_MAC_ADDRESS_PACK → nd.len = len)) := by
    intro ofs len
    rw [List.head?_map]
    cases (fitting img.data.length t (tlvs e img.data)).head? with
    | none => simp
    | some nd =>
      simp only [Option.map_some, Option.some.injEq, forall_eq', cellFor]
      refine and_congr_right fun _ => forall_congr' fun hmac => ?_
      rw [if_neg hmac]
  rw [← cells_inside_iff name]
  constructor
  · rintro ⟨found, ret, cells, hfind, hadd, hiff, hsame, hin⟩
    rw [HardImage.find_eq ht hshort] at hfind
    rw [rb_add_cells_eq hnv] at hadd
    cases hfind
    cases hadd
    rw [hcells] at hiff hsame hin
    simp only [hhead] at hsame
    exact ⟨by simpa using hiff, hsame, hin⟩
  · rintro ⟨hiff, hsame, hin⟩
    refine ⟨_, _, _, HardImage.find_eq ht hshort, rb_add_cells_eq hnv _, ?_, ?_, ?_⟩
    · rw [hcells]
      simpa using hiff
    · rw [hcells]
      simp only [hhead]
      exact hsame
    · rw [hcells]
      exact hin

/-- Without an overflowing length in front of the tag, the walkers agree exactly when the nodes
of the tag are well placed. -/
lemma agree_iff_wellPlaced (hnv : nv.Works) (ht : rb_tlv_cell_name t = some name)
    (hshort : Short t (tlvs e img.data)) :
    Agree nv img t ↔ WellPlaced img.data.length t (tlvs e img.data) := by
  rw [agree_iff_nodes hnv ht hshort, WellPlaced, ← and_assoc]
  refine and_congr_left fun _ => ?_
  cases hfirst : first t (tlvs e img.data) with
  | none => simp [report, fitting_of_first_none hfirst]
  | some nd =>
    have hpos : 4 + 4 ≤ nd.pos ∧ nd.pos ≤ img.data.length :=
      pos_of_mem_chain (List.mem_of_find?_eq_some hfirst)
    by_cases hfits : nd.pos + nd.len ≤ img.data.length
    · obtain ⟨rest, hrest⟩ := fitting_of_first hfirst hfits
      by_cases hroom : nd.pos < img.data.length
      · -- both report the node; the offsets have to be the same
        simp only [report, if_pos hroom, hrest, Except.ok.injEq, Prod.mk.injEq, List.head?_cons,
          Option.mem_def, Option.some.injEq, forall_eq']
        constructor
        · rintro ⟨-, h⟩
          have := (h _ _ ⟨rfl, rfl⟩).1.1
          exact Or.inl ⟨hroom, hfits, by omega⟩
        · rintro (⟨-, -, hreach⟩ | ⟨heq, -⟩)
          · refine ⟨by simp, ?_⟩
            rintro ofs len ⟨rfl, rfl⟩
            exact ⟨⟨by omega, fun _ => rfl⟩, by omega⟩
          · omega
      · -- an empty payload at the very end has a cell and is not found
        simp only [report, if_neg hroom, hrest, reduceCtorEq, exists_false, false_iff,
          List.cons_ne_nil, ne_eq, not_false_eq_true, not_true, false_and]
        intro h
        have := h nd rfl
        omega
    · have hnone := fitting_of_first_cut hfirst (by omega)
      by_cases hroom : nd.pos < img.data.length
      · -- a payload that runs out of the image is found and has no cell
        simp only [report, if_pos hroom, hnone, Except.ok.injEq, Prod.mk.injEq, ne_eq, not_true,
          iff_false]
        constructor
        · rintro ⟨h, -⟩
          exact absurd ⟨_, _, rfl, rfl⟩ h
        · intro h
          have := h nd rfl
          omega
      · simp only [report, if_neg hroom, hnone, reduceCtorEq, exists_false, ne_eq, not_true,
          iff_self, false_implies, implies_true, and_self, true_iff]
        rintro nd' hnd'
        cases hnd'
        exact Or.inr ⟨by omega, by omega⟩

/-- **Agreement of the tag walkers.**  Both walks end on every image.  When no node in front of
the tag has a length whose padding overflows 16 bits, they agree about the tag exactly when its
nodes are well placed in the image. -/
theorem walkers_agree_iff (hnv : nv.Works) (ht : rb_tlv_cell_name t = some name) :
    (∃ found, img.find t = some found) ∧ (∃ r, rb_add_cells e nv img.data = some r) ∧
    (Short t (tlvs e img.data) →
      (Agree nv img t ↔ WellPlaced img.data.length t (tlvs e img.data))) :=
  ⟨routerboot_tag_find_ends e _ _ t, ⟨_, rb_add_cells_eq hnv img.data⟩,
    agree_iff_wellPlaced hnv ht⟩

end Agreement

/-- An nvmem core that takes every cell. -/
def acceptAll : Nvmem where
  layout := true
  nvmem_add_one_cell := fun _ => 0

lemma acceptAll_works : acceptAll.Works := ⟨rfl, fun _ => rfl⟩

/-- An image with a flash-info node of one word. -/
def wholeImage : HardImage .little where
  data := put32 .little RB_MAGIC_HARD ++ [3, 0, 4, 0, 1, 2, 3, 4, 0, 0, 0, 0]
  magic := by decide

theorem walkers_agree_whole : Short RB_ID_FLASH_INFO (tlvs .little wholeImage.data) ∧
    WellPlaced wholeImage.data.length RB_ID_FLASH_INFO (tlvs .little wholeImage.data) ∧
    Agree acceptAll wholeImage RB_ID_FLASH_INFO := by
  have hshort : Short RB_ID_FLASH_INFO (tlvs .little wholeImage.data) := by decide
  have hplaced : WellPlaced wholeImage.data.length RB_ID_FLASH_INFO
      (tlvs .little wholeImage.data) := by decide
  have hname : rb_tlv_cell_name RB_ID_FLASH_INFO = some "flash-info" := by decide
  exact ⟨hshort, hplaced, ((walkers_agree_iff acceptAll_works hname).2.2 hshort).mpr hplaced⟩

/-- An image whose last node claims eight bytes of which it has four. -/
def cutImage : HardImage .little where
  data := put32 .little RB_MAGIC_HARD ++ [3, 0, 8, 0, 1, 2, 3, 4]
  magic := by decide

/-- Of a node that runs out of the image `routerboot_tag_find` reports a payload behind its end,
and `rb_add_cells` registers no cell. -/
theorem walkers_disagree_cut : rb_tlv_cell_name RB_ID_FLASH_INFO = some "flash-info" ∧
    cutImage.find RB_ID_FLASH_INFO = some (.ok (4, 8)) ∧ cutImage.data.length = 12 ∧
    rb_add_cells .little acceptAll cutImage.data = some (0, []) ∧
    ¬ Agree acceptAll cutImage RB_ID_FLASH_INFO := by
  have hfind : cutImage.find RB_ID_FLASH_INFO = some (.ok (4, 8)) := by decide
  have hadd : rb_add_cells .little acceptAll cutImage.data = some (0, []) := by decide
  refine ⟨by decide, hfind, by decide, hadd, ?_⟩
  rintro ⟨found, ret, cells, hfind', hadd', hiff, -, -⟩
  rw [hfind] at hfind'
  rw [hadd] at hadd'
  cases hfind'
  cases hadd'
  exact hiff.mp ⟨4, 8, rfl⟩ rfl

end Mikrotik
