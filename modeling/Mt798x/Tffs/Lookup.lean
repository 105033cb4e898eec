import Mt798x.Tffs.Segments

/-!
# Looking up an entry

`find_entry` stops reading a block at its end sector.  It recognises that sector by its header and
its out-of-band data when it reads it, but by the remembered id alone when it has read it before;
so what it finds may depend on earlier lookups.
-/

namespace Tffs

open Bytes

variable {nand : Nand} {sectors : ℕ → Bool} {ids : ℕ → ℕ} {id : ℕ}

/-! ## Which sectors are read -/

/-- The sectors that `find_entry` takes for the end of their block, with these ids remembered. -/
def isEnd (nand : Nand) (sectors : ℕ → Bool) (ids : ℕ → ℕ) (s : ℕ) : Bool :=
  sectors s && nand.id s = TFFS_ID_END && (ids s ≠ 0 || nand.consistent s)

/-- An end sector comes before this one in its block. -/
def behind (nand : Nand) (sectors : ℕ → Bool) (ids : ℕ → ℕ) (s : ℕ) : Bool :=
  (List.range s).any fun t =>
    t / nand.perBlock = s / nand.perBlock && isEnd nand sectors ids t

/-- The sector is good, comes before the end of its block, and holds a segment of the entry. -/
def holdsSegment (nand : Nand) (sectors : ℕ → Bool) (ids : ℕ → ℕ) (id s : ℕ) : Bool :=
  sectors s && !behind nand sectors ids s && nand.consistent s && nand.id s ≠ TFFS_ID_END &&
    nand.len s ≤ TFFS_MAXIMUM_SEGMENT_SIZE && nand.id s = id

/-- The segments of the entry in the order of the flash, with these ids remembered. -/
def segmentsOf (nand : Nand) (sectors : ℕ → Bool) (ids : ℕ → ℕ) (id : ℕ) : List Segment :=
  ((List.range nand.num_sectors).filter (holdsSegment nand sectors ids id)).map nand.segment

/-- The segments in the usable sectors of the entry: those that are found when no id is
remembered. -/
def usable (nand : Nand) (sectors : ℕ → Bool) (id : ℕ) : List Segment :=
  segmentsOf nand sectors (fun _ => 0) id

/-- The remembered ids are those of the sectors. -/
def Remembers (nand : Nand) (ids : ℕ → ℕ) : Prop := ∀ s, ids s ≠ 0 → ids s = nand.id s

/-- The first sector of a block is never used. -/
def HeadersMarked (nand : Nand) (sectors : ℕ → Bool) : Prop :=
  ∀ s < nand.num_sectors, s % nand.perBlock = 0 → sectors s = false

/-- What the loop of `find_entry` knows in front of a sector. -/
structure WalkInv (nand : Nand) (sectors : ℕ → Bool) (ids : ℕ → ℕ) (s : ℕ) (w : Walk) : Prop where
  block_end : s % nand.perBlock ≠ 0 → w.block_end = behind nand sectors ids s
  ahead : ∀ t, s ≤ t → w.sector_ids t = ids t
  remembers : Remembers nand w.sector_ids

lemma div_succ_of_mod_ne {s m : ℕ} (h : (s + 1) % m ≠ 0) : (s + 1) / m = s / m := by
  rw [Nat.succ_div, if_neg (fun hd => h (Nat.mod_eq_zero_of_dvd hd)), Nat.add_zero]

lemma behind_succ {s : ℕ} (h : (s + 1) % nand.perBlock ≠ 0) :
    behind nand sectors ids (s + 1) = (behind nand sectors ids s || isEnd nand sectors ids s) := by
  rw [behind, behind, List.range_succ, List.any_append, div_succ_of_mod_ne h]
  simp

lemma behind_of_mod_eq {s : ℕ} (h : s % nand.perBlock = 0) : behind nand sectors ids s = false := by
  rw [behind, List.any_eq_false]
  intro t ht
  have hlt := List.mem_range.mp ht
  have hne : t / nand.perBlock ≠ s / nand.perBlock := by
    intro heq
    have h1 := Nat.div_add_mod s nand.perBlock
    have h2 := Nat.div_mul_le_self t nand.perBlock
    rw [heq, Nat.mul_comm] at h2
    omega
  simp [hne]

/-! ## One sector -/

/-- One turn of the loop collects the segment of the sector, if it holds one of the entry. -/
lemma findSector_spec (id : ℕ) (hids : Remembers nand ids) (hheaders : HeadersMarked nand sectors) {s : ℕ}
    (hs : s < nand.num_sectors) {w : Walk} (h : WalkInv nand sectors ids s w) :
    ∃ w', w'.collected = w.collected ∧ WalkInv nand sectors ids (s + 1) w' ∧
      findSector nand sectors id w s =
        if holdsSegment nand sectors ids id s then
          match w.collected.add (nand.segment s) with
          | .error f => .error f
          | .ok collected => .ok { w' with collected }
        else .ok w' := by
  obtain ⟨hend, hahead, hrem⟩ := h
  have hnext : ∀ {w' : Walk}, w'.sector_ids = w.sector_ids →
      ((s + 1) % nand.perBlock ≠ 0 →
        w'.block_end = (behind nand sectors ids s || isEnd nand sectors ids s)) →
      WalkInv nand sectors ids (s + 1) w' := by
    intro w' hsame hbe
    refine ⟨fun hmod => ?_, fun t ht => ?_, ?_⟩
    · rw [behind_succ hmod, hbe hmod]
    · rw [hsame]
      exact hahead t (by omega)
    · rw [hsame]
      exact hrem
  by_cases hmod : s % nand.perBlock = 0
  · -- the header of a block ends what is left of the block in front of it
    have hbad := hheaders s hs hmod
    have hno : holdsSegment nand sectors ids id s = false := by simp [holdsSegment, hbad]
    have hisEnd : isEnd nand sectors ids s = false := by simp [isEnd, hbad]
    refine ⟨{ w with block_end := false }, rfl, hnext rfl fun _ => ?_, ?_⟩
    · rw [behind_of_mod_eq hmod, hisEnd]
      rfl
    · rw [hno, if_neg (by simp), findSector]
      cases hw : w.block_end with
      | true => simp [hmod]
      | false =>
        simp only [Bool.false_eq_true, if_false, hbad]
        rw [← hw]
  · have hbe := hend hmod
    have hcache := hahead s le_rfl
    rw [findSector, hbe, hcache]
    cases hbehind : behind nand sectors ids s with
    | true =>
      have hno : holdsSegment nand sectors ids id s = false := by simp [holdsSegment, hbehind]
      refine ⟨{ w with block_end := true }, rfl, hnext rfl fun _ => by simp [hbehind], ?_⟩
      simp [hno, hmod]
    | false =>
      rw [hbehind] at hbe
      cases hgood : sectors s with
      | false =>
        have hno : holdsSegment nand sectors ids id s = false := by simp [holdsSegment, hgood]
        refine ⟨w, rfl, hnext rfl fun _ => ?_, by simp [hno]⟩
        simp [hbehind, isEnd, hgood, hbe]
      | true =>
        simp only [Bool.false_eq_true, if_false, if_true]
        by_cases hcEnd : ids s ≠ 0 ∧ ids s = TFFS_ID_END
        · -- an end that is remembered
          have hid : nand.id s = TFFS_ID_END := (hids s hcEnd.1).symm.trans hcEnd.2
          have hno : holdsSegment nand sectors ids id s = false := by simp [holdsSegment, hid]
          refine ⟨{ w with block_end := true }, rfl, hnext rfl fun _ => ?_, ?_⟩
          · simp [isEnd, hgood, hid, hcEnd.1]
          · rw [if_pos hcEnd]
            simp [hno]
        · rw [if_neg hcEnd]
          by_cases hcOther : ids s ≠ 0 ∧ ids s ≠ id
          · have hid := hids s hcOther.1
            have hne : nand.id s ≠ TFFS_ID_END := fun heq => hcEnd ⟨hcOther.1, hid.trans heq⟩
            have hno : holdsSegment nand sectors ids id s = false := by
              simp [holdsSegment, ← hid, hcOther.2]
            refine ⟨w, rfl, hnext rfl fun _ => ?_, ?_⟩
            · simp [hbehind, isEnd, hne, hbe]
            · rw [if_pos hcOther]
              simp [hno]
          · -- the sector is read
            rw [if_neg hcOther]
            set w1 : Walk := ⟨false, w.collected, Function.update w.sector_ids s (nand.id s)⟩ with hw1
            have hids1 : w1.sector_ids = Function.update w.sector_ids s (nand.id s) := rfl
            have hnext1 : ∀ {w' : Walk}, w'.sector_ids = w1.sector_ids →
                ((s + 1) % nand.perBlock ≠ 0 → w'.block_end = isEnd nand sectors ids s) →
                WalkInv nand sectors ids (s + 1) w' := by
              intro w' hsame hbe'
              refine ⟨fun hmod' => ?_, fun t ht => ?_, fun t => ?_⟩
              · rw [behind_succ hmod', hbe' hmod', hbehind, Bool.false_or]
              · rw [hsame, hids1, Function.update_of_ne (by omega)]
                exact hahead t (by omega)
              · rw [hsame, hids1]
                by_cases ht : t = s
                · rw [ht, Function.update_self]
                  exact fun _ => rfl
                · rw [Function.update_of_ne ht]
                  exact hrem t
            cases hcons : nand.consistent s with
            | false =>
              have hno : holdsSegment nand sectors ids id s = false := by
                simp [holdsSegment, hcons]
              have hisEnd : isEnd nand sectors ids s = false := by
                by_cases hz : ids s = 0
                · simp [isEnd, hcons, hz]
                · have hne : nand.id s ≠ TFFS_ID_END := fun heq => hcEnd ⟨hz, (hids s hz).trans heq⟩
                  simp [isEnd, hne]
              exact ⟨w1, rfl, hnext1 rfl fun _ => hisEnd.symm, by simp [hno, hw1]⟩
            | true =>
              simp only [Bool.not_true, Bool.false_eq_true, if_false]
              by_cases hidEnd : nand.id s = TFFS_ID_END
              · have hno : holdsSegment nand sectors ids id s = false := by
                  simp [holdsSegment, hidEnd]
                refine ⟨{ w1 with block_end := true }, rfl, hnext1 rfl fun _ => ?_, ?_⟩
                · simp [isEnd, hgood, hidEnd, hcons]
                · rw [if_pos hidEnd]
                  simp [hno, hw1]
              · have hisEnd : isEnd nand sectors ids s = false := by simp [isEnd, hidEnd]
                have hinv : WalkInv nand sectors ids (s + 1) w1 := hnext1 rfl fun _ => hisEnd.symm
                refine ⟨w1, rfl, hinv, ?_⟩
                rw [if_neg hidEnd]
                by_cases hlen : nand.len s > TFFS_MAXIMUM_SEGMENT_SIZE
                · have hno : holdsSegment nand sectors ids id s = false := by
                    simp [holdsSegment, Nat.not_le.mpr hlen]
                  rw [if_pos hlen]
                  simp [hno, hw1]
                · rw [if_neg hlen]
                  by_cases hid : nand.id s = id
                  · have hyes : holdsSegment nand sectors ids id s = true := by
                      have hne : id ≠ TFFS_ID_END := hid ▸ hidEnd
                      simp [holdsSegment, hgood, hbehind, hcons, hne, Nat.not_lt.mp hlen, hid]
                    rw [if_pos hid, hyes]
                    exact (if_pos rfl).symm
                  · have hno : holdsSegment nand sectors ids id s = false := by
                      simp [holdsSegment, hid]
                    rw [if_neg hid]
                    simp [hno, hw1]

lemma findSector_run (id : ℕ) (hids : Remembers nand ids) (hheaders : HeadersMarked nand sectors) (k s : ℕ)
    (w : Walk) (hk : s + k ≤ nand.num_sectors) (h : WalkInv nand sectors ids s w) :
    match (((List.range' s k).filter (holdsSegment nand sectors ids id)).map
        nand.segment).foldlM Collected.add w.collected with
    | .error f => (List.range' s k).foldlM (findSector nand sectors id) w = .error f
    | .ok c => ∃ w', (List.range' s k).foldlM (findSector nand sectors id) w = .ok w' ∧
        w'.collected = c ∧ Remembers nand w'.sector_ids := by
  induction k generalizing s w with
  | zero => exact ⟨w, rfl, rfl, h.remembers⟩
  | succ k ih =>
    obtain ⟨w', hcol, hinv, hstep⟩ := findSector_spec id hids hheaders (by omega) h
    rw [List.range'_succ, List.foldlM_cons, hstep]
    cases hseg : holdsSegment nand sectors ids id s with
    | false =>
      rw [List.filter_cons_of_neg (by simp [hseg]), ← hcol]
      exact ih (s + 1) w' (by omega) hinv
    | true =>
      rw [List.filter_cons_of_pos (by simp [hseg]), List.map_cons, List.foldlM_cons]
      cases hadd : w.collected.add (nand.segment s) with
      | error f => rfl
      | ok c =>
        exact ih (s + 1) { w' with collected := c } (by omega) ⟨hinv.1, hinv.2, hinv.3⟩

/-- A lookup fails exactly if the collection does; else it finds the value of what is collected. -/
lemma find_entry_cases (hids : Remembers nand ids) (hheaders : HeadersMarked nand sectors)
    (id : ℕ) :
    (Overrun (segmentsOf nand sectors ids id) ∧
      find_entry nand sectors ids id = .error .outside) ∨
    (¬ Overrun (segmentsOf nand sectors ids id) ∧ ∃ ids', Remembers nand ids' ∧
      find_entry nand sectors ids id = .ok (found (segmentsOf nand sectors ids id), ids')) := by
  have hinit : WalkInv nand sectors ids 0 ⟨false, ⟨0, 0, fun _ => none⟩, ids⟩ :=
    ⟨fun hmod => by simp at hmod, fun _ _ => rfl, hids⟩
  have hrun := findSector_run id hids hheaders nand.num_sectors 0 _ (by omega) hinit
  rw [← List.range_eq_range'] at hrun
  change match gather (segmentsOf nand sectors ids id) with | .error f => _ | .ok c => _ at hrun
  rw [find_entry]
  rcases gather_cases (segmentsOf nand sectors ids id) with ⟨hover, herr⟩ | ⟨hno, c, hc, hholds⟩
  · rw [herr] at hrun
    simp only at hrun
    rw [hrun]
    exact Or.inl ⟨hover, rfl⟩
  · rw [hc] at hrun
    obtain ⟨w', hw', hcol, hrem⟩ := hrun
    rw [hw']
    exact Or.inr ⟨hno, w'.sector_ids, hrem, by simp only [hcol, hholds.value]⟩

lemma lookups_remembers {ids' : ℕ → ℕ} {earlier : List ℕ} (hids : Remembers nand ids)
    (hheaders : HeadersMarked nand sectors)
    (h : lookups nand sectors earlier ids = .ok ids') : Remembers nand ids' := by
  induction earlier generalizing ids with
  | nil =>
    cases h
    exact hids
  | cons id earlier ih =>
    rw [lookups] at h
    rcases find_entry_cases hids hheaders id with ⟨-, herr⟩ | ⟨-, ids1, hrem, hok⟩
    · rw [herr] at h
      cases h
    · rw [hok] at h
      exact ih hrem h

/-! ## The scan -/

lemma sector_mark_bad_ok {sectors' : ℕ → Bool} {num : ℕ}
    (h : sector_mark_bad nand sectors num = .ok sectors') :
    sectors' = Function.update sectors num false := by
  rw [sector_mark_bad] at h
  split at h
  · exact (Except.ok.inj h).symm
  · cases h

lemma update_false_of_false {num s : ℕ} (h : sectors s = false) :
    Function.update sectors num false s = false := by
  by_cases hs : s = num
  · rw [hs, Function.update_self]
  · rw [Function.update_of_ne hs, h]

lemma markListed_ok {sector : ℕ} {is : List ℕ} {sectors' : ℕ → Bool}
    (h : markListed nand sector is sectors = .ok sectors') :
    ∀ s, sectors s = false → sectors' s = false := by
  induction is generalizing sectors with
  | nil =>
    cases h
    exact fun s hs => hs
  | cons i is ih =>
    rw [markListed] at h
    split at h
    · cases h
    · rename_i sectors1 hmark
      rw [sector_mark_bad_ok hmark] at h
      exact fun s hs => ih h s (update_false_of_false hs)

/-- What the scan has made sure of in front of a sector. -/
structure ScanInv (nand : Nand) (k : ℕ) (sc : Scan) : Prop where
  headers : ∀ s < k, s % nand.perBlock = 0 → sc.sectors s = false
  remembers : Remembers nand sc.sector_ids

lemma check_block_ok {k : ℕ} {sc sc' : Scan} (h : check_block nand k sc = .ok sc')
    (hinv : ScanInv nand k sc) : ScanInv nand k sc' := by
  obtain ⟨hheaders, hrem⟩ := hinv
  have hrem' : Remembers nand (Function.update sc.sector_ids k (nand.id k)) := by
    intro s
    by_cases hs : s = k
    · rw [hs, Function.update_self]
      exact fun _ => rfl
    · rw [Function.update_of_ne hs]
      exact hrem s
  rw [check_block] at h
  split_ifs at h
  · cases h
    exact ⟨hheaders, hrem⟩
  · cases h
    exact ⟨hheaders, hrem'⟩
  · cases h
    exact ⟨hheaders, hrem'⟩
  · simp only at h
    split at h
    · cases h
    · rename_i sectors' hlisted
      cases h
      exact ⟨fun s hs hmod => markListed_ok hlisted s (hheaders s hs hmod), hrem'⟩

lemma scanSector_ok {k : ℕ} {sc sc' : Scan} (h : scanSector nand sc k = .ok sc')
    (hinv : ScanInv nand k sc) : ScanInv nand (k + 1) sc' := by
  rw [scanSector] at h
  by_cases hmod : k % nand.perBlock = 0
  · rw [if_pos hmod] at h
    split at h
    · cases h
    · rename_i sc1 hcheck
      obtain ⟨hheaders, hrem⟩ := check_block_ok hcheck hinv
      split at h
      · cases h
      · rename_i sectors' hmark
        cases h
        rw [sector_mark_bad_ok hmark]
        refine ⟨fun s hs hmod' => ?_, hrem⟩
        by_cases hsk : s = k
        · rw [hsk]
          exact Function.update_self _ _ _
        · exact update_false_of_false (hheaders s (by omega) hmod')
  · obtain ⟨hheaders, hrem⟩ := hinv
    have hstep : ∀ s < k + 1, s % nand.perBlock = 0 → sc.sectors s = false := fun s hs hmod' =>
      hheaders s (lt_of_le_of_ne (by omega) (fun heq => hmod (heq ▸ hmod'))) hmod'
    rw [if_neg hmod] at h
    split at h
    · split at h
      · cases h
      · rename_i sectors' hmark
        cases h
        rw [sector_mark_bad_ok hmark]
        exact ⟨fun s hs hmod' => update_false_of_false (hstep s hs hmod'), hrem⟩
    · cases h
      exact ⟨hstep, hrem⟩

/-- After the scan, no header is taken for a sector of segments, and the remembered ids are right. -/
lemma scan_mtd_ok {sc : Scan} (h : scan_mtd nand = .ok sc) :
    HeadersMarked nand sc.sectors ∧ Remembers nand sc.sector_ids := by
  have hrun : ∀ k sc, (List.range k).foldlM (scanSector nand) ⟨fun _ => true, fun _ => 0, false, 0⟩ =
      .ok sc → ScanInv nand k sc := by
    intro k
    induction k with
    | zero =>
      intro sc h
      cases h
      exact ⟨fun s hs => by omega, fun s hs => absurd rfl hs⟩
    | succ k ih =>
      intro sc h
      rw [List.range_succ, List.foldlM_append] at h
      cases hk : (List.range k).foldlM (scanSector nand) ⟨fun _ => true, fun _ => 0, false, 0⟩ with
      | error f =>
        rw [hk] at h
        cases h
      | ok sc1 =>
        rw [hk] at h
        have hone : scanSector nand sc1 k = .ok sc := by
          cases hs : scanSector nand sc1 k with
          | error f =>
            change ((scanSector nand sc1 k).bind fun c => .ok c) = _ at h
            rw [hs] at h
            cases h
          | ok sc2 =>
            change ((scanSector nand sc1 k).bind fun c => .ok c) = _ at h
            rw [hs] at h
            exact h
        exact scanSector_ok hone (ih sc1 hk)
  have hinv := hrun _ _ h
  exact ⟨hinv.headers, hinv.remembers⟩

/-! ## What is found -/

/-- A flash of one block: a header, a segment of the entry 5 with these numbers, and two empty
sectors. -/
def oneSegment (seg next_seg : UInt32) : Nand where
  num_sectors := 4
  perBlock := 4
  data s :=
    match s with
    | 0 => [0x53, 0x46, 0x46, 0x54, 0x5f, 0x4d, 0x56, 0x41] ++ leWords [0, 2] ++
        List.replicate 2032 0
    | 1 => leWords [5, 3, 0, 1, seg, next_seg] ++ [7, 8, 9] ++ List.replicate 2021 0xff
    | _ => List.replicate 2048 0xff
  oob _ := List.replicate 64 0xff
  order := .little
  read_oob_sector_health := false
  perBlock_pos := Nat.succ_pos 3

end Tffs
