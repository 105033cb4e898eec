import Mt798x.Mtdsplit.BcmWfi

/-!
# What the search for a file does

The walk over a block goes from entry to entry by the lengths in flash, and from one word to the
next where there is no entry.  Nothing makes it go forward: an entry of length zero is visited for
ever.  A search ends inside its buffer exactly if the walks of the blocks do, and what it finds is
the first entry that has the name, if an entry of the firmware comes before (`find_iff`,
`FirstFile`).
-/

namespace Mtdsplit.Wfi

open Bytes Guard FlatImage

section Walk

variable (host : Endian) (buf want : List Byte)

/-- There is a valid entry. -/
def Dirent (offs : ℕ) : Prop :=
  magic host buf offs = JFFS2_MAGIC_BITMASK ∧ nodetype host buf offs = JFFS2_NODETYPE_DIRENT ∧
    ino host buf offs ≠ 0 ∧ node_crc host buf offs = jffs2_dirent_crc buf offs

instance (offs : ℕ) : Decidable (Dirent host buf offs) := inferInstanceAs (Decidable (_ ∧ _))

/-- How far the check for an entry reads. -/
def checkEnd (offs : ℕ) : ℕ :=
  if magic host buf offs ≠ JFFS2_MAGIC_BITMASK then offs + 2
  else if nodetype host buf offs ≠ JFFS2_NODETYPE_DIRENT then offs + 4
  else if ino host buf offs = 0 then offs + 24
  else offs + 36

/-- The entry stands for the firmware. -/
def Openwrt (offs : ℕ) : Prop := name buf offs OPENWRT_NAME.length = OPENWRT_NAME

/-- The name of the entry starts with what is wanted. -/
def Wanted (offs : ℕ) : Prop := name buf offs want.length = want

instance (offs : ℕ) : Decidable (Openwrt buf offs) := inferInstanceAs (Decidable (_ = _))

instance (offs : ℕ) : Decidable (Wanted buf want offs) := inferInstanceAs (Decidable (_ = _))

/-- The walk from an offset comes to these entries, and then to the wanted one or behind the
block, with all accesses inside. -/
inductive Walk : ℕ → List ℕ → Option ℕ → Prop
  | stop {offs : ℕ} (h : buf.length ≤ offs) : Walk offs [] none
  | skip {offs : ℕ} {es : List ℕ} {o : Option ℕ} (h : offs < buf.length)
      (hin : checkEnd host buf offs ≤ buf.length) (hd : ¬ Dirent host buf offs)
      (hw : Walk ((offs + 4) % 2 ^ 32) es o) : Walk offs es o
  | entry {offs : ℕ} {es : List ℕ} {o : Option ℕ} (h : offs < buf.length)
      (hin : offs + 40 + OPENWRT_NAME.length ≤ buf.length) (hd : Dirent host buf offs)
      (hn : Openwrt buf offs ∨ offs + 40 + want.length ≤ buf.length ∧ ¬ Wanted buf want offs)
      (hw : Walk (next host buf offs) es o) : Walk offs (offs :: es) o
  | wanted {offs : ℕ} (h : offs < buf.length)
      (hin : offs + 40 + OPENWRT_NAME.length ≤ buf.length) (hd : Dirent host buf offs)
      (hn : ¬ Openwrt buf offs) (hin' : offs + 40 + want.length ≤ buf.length)
      (hw : Wanted buf want offs) : Walk offs [] (some offs)

/-- What the walk makes of where it has come to. -/
def conclude (out valid : Bool) : Option ℕ → Except Fault Walked
  | none => .ok (.next valid)
  | some offs =>
    if valid = false then .ok .invalid
    else if out then do
      let dup ← dupName buf offs
      .ok (.found (some dup))
    else .ok (.found none)

/-- An entry of the firmware is among these. -/
def permits (es : List ℕ) : Bool := es.any fun offs => Openwrt buf offs

variable {host buf want} {out valid : Bool} {offs fuel : ℕ}

lemma jffs2_dirent_valid_eq (host : Endian) (buf : List Byte) (offs : ℕ) :
    jffs2_dirent_valid host buf offs = if checkEnd host buf offs ≤ buf.length then
      .ok (decide (Dirent host buf offs)) else .error .outside := by
  by_cases hm : magic host buf offs = JFFS2_MAGIC_BITMASK
  swap
  · have hend : checkEnd host buf offs = offs + 2 := if_pos hm
    have hno : ¬ Dirent host buf offs := fun h => hm h.1
    simp only [jffs2_dirent_valid, touch_bind, hend, ne_eq, hm, not_false_eq_true, if_true,
      decide_eq_false hno]
  by_cases ht : nodetype host buf offs = JFFS2_NODETYPE_DIRENT
  swap
  · have hend : checkEnd host buf offs = offs + 4 := (if_neg (not_not.mpr hm)).trans (if_pos ht)
    have hno : ¬ Dirent host buf offs := fun h => ht h.2.1
    simp only [jffs2_dirent_valid, touch_bind, hend, hm, ht, ne_eq, not_true_eq_false, if_false,
      not_false_eq_true, if_true, decide_eq_false hno]
    split_ifs <;> first | rfl | omega
  by_cases hi : ino host buf offs = 0
  · have hend : checkEnd host buf offs = offs + 24 :=
      (if_neg (not_not.mpr hm)).trans ((if_neg (not_not.mpr ht)).trans (if_pos hi))
    have hno : ¬ Dirent host buf offs := fun h => h.2.2.1 hi
    simp only [jffs2_dirent_valid, touch_bind, hend, hm, ht, hi, ne_eq, not_true_eq_false, if_false,
      if_true, decide_eq_false hno]
    split_ifs <;> first | rfl | omega
  · have hend : checkEnd host buf offs = offs + 36 :=
      (if_neg (not_not.mpr hm)).trans ((if_neg (not_not.mpr ht)).trans (if_neg hi))
    have hiff : (node_crc host buf offs = jffs2_dirent_crc buf offs) ↔ Dirent host buf offs :=
      ⟨fun h => ⟨hm, ht, hi, h⟩, fun h => h.2.2.2⟩
    simp only [jffs2_dirent_valid, touch_bind, hend, hm, ht, hi, ne_eq, not_true_eq_false, if_false,
      hiff]
    split_ifs <;> first | rfl | omega

lemma checkEnd_of_dirent (h : Dirent host buf offs) : checkEnd host buf offs = offs + 36 := by
  rw [checkEnd, if_neg (not_not.mpr h.1), if_neg (not_not.mpr h.2.1), if_neg h.2.2.1]

/-! ### The walk over a block -/

lemma walk_succ (host : Endian) (buf want : List Byte) (out : Bool) (fuel offs : ℕ)
    (valid : Bool) : walk host buf want out (fuel + 1) offs valid =
      if buf.length ≤ offs then .ok (.next valid)
      else if checkEnd host buf offs ≤ buf.length then
        if Dirent host buf offs then
          if offs + 40 + OPENWRT_NAME.length ≤ buf.length then
            if Openwrt buf offs then walk host buf want out fuel (next host buf offs) true
            else if offs + 40 + want.length ≤ buf.length then
              if Wanted buf want offs then conclude buf out valid (some offs)
              else walk host buf want out fuel (next host buf offs) valid
            else .error .outside
          else .error .outside
        else walk host buf want out fuel ((offs + 4) % 2 ^ 32) valid
      else .error .outside := by
  rw [walk, jffs2_dirent_valid_eq]
  refine ite_congr rfl (fun _ => rfl) fun _ => ?_
  by_cases hin : checkEnd host buf offs ≤ buf.length
  swap
  · rw [if_neg hin, if_neg hin, error_bind]
  rw [if_pos hin, if_pos hin, ok_bind]
  by_cases hd : Dirent host buf offs
  · rw [if_pos hd, if_neg (by simpa using hd), touch_bind]
    refine ite_congr rfl (fun _ => ite_congr rfl (fun _ => rfl) fun _ => ?_) fun _ => rfl
    rw [touch_bind]
    rfl
  · rw [if_neg hd, if_pos (by simpa using hd)]

/-- What the walk comes to is what its entries say. -/
lemma Walk.ends {es : List ℕ} {o : Option ℕ} (h : Walk host buf want offs es o) (out valid : Bool) :
    Ends (fun fuel => walk host buf want out fuel offs valid)
      (conclude buf out (valid || permits buf es) o) := by
  induction h generalizing valid with
  | stop h =>
    refine (ends_const _).step fun fuel => ?_
    rw [walk_succ, if_pos h]
    simp [conclude, permits]
  | skip h hin hd hw ih =>
    refine (ih valid).step fun fuel => ?_
    rw [walk_succ, if_neg (by omega), if_pos hin, if_neg hd]
  | @entry offs es o h hin hd hn hw ih =>
    have hcheck : checkEnd host buf offs ≤ buf.length := by
      rw [checkEnd_of_dirent hd]
      omega
    by_cases ho : Openwrt buf offs
    · have hpermits : (valid || permits buf (offs :: es)) = (true || permits buf es) := by
        simp [permits, ho]
      rw [hpermits]
      refine (ih true).step fun fuel => ?_
      rw [walk_succ, if_neg (by omega), if_pos hcheck, if_pos hd, if_pos hin, if_pos ho]
    · obtain ⟨hin', hno⟩ := hn.resolve_left ho
      have hpermits : (valid || permits buf (offs :: es)) = (valid || permits buf es) := by
        simp [permits, ho]
      rw [hpermits]
      refine (ih valid).step fun fuel => ?_
      rw [walk_succ, if_neg (by omega), if_pos hcheck, if_pos hd, if_pos hin, if_neg ho,
        if_pos hin', if_neg hno]
  | @wanted offs h hin hd hn hin' hw =>
    have hcheck : checkEnd host buf offs ≤ buf.length := by
      rw [checkEnd_of_dirent hd]
      omega
    refine (ends_const _).step fun fuel => ?_
    rw [walk_succ, if_neg (by omega), if_pos hcheck, if_pos hd, if_pos hin, if_neg hn, if_pos hin',
      if_pos hw]
    simp [permits]

/-- A walk that ends inside the block has come along entries. -/
lemma exists_walk {r : Walked} (h : walk host buf want out fuel offs valid = .ok r) :
    ∃ es o, Walk host buf want offs es o ∧
      conclude buf out (valid || permits buf es) o = .ok r := by
  induction fuel generalizing offs valid with
  | zero => cases h
  | succ fuel ih =>
    rw [walk_succ] at h
    split at h
    · rename_i hstop
      exact ⟨[], none, .stop hstop, by simpa [conclude, permits] using h⟩
    rename_i hlt
    split at h
    swap
    · cases h
    rename_i hin
    split at h
    swap
    · rename_i hd
      obtain ⟨es, o, hw, hr⟩ := ih h
      exact ⟨es, o, .skip (by omega) hin hd hw, hr⟩
    rename_i hd
    split at h
    swap
    · cases h
    rename_i hname
    split at h
    · rename_i ho
      obtain ⟨es, o, hw, hr⟩ := ih h
      refine ⟨offs :: es, o, .entry (by omega) hname hd (.inl ho) hw, ?_⟩
      simpa [permits, ho] using hr
    rename_i ho
    split at h
    swap
    · cases h
    rename_i hname'
    split at h
    · rename_i hwant
      exact ⟨[], some offs, .wanted (by omega) hname hd ho hname' hwant, by simpa [permits] using h⟩
    · rename_i hwant
      obtain ⟨es, o, hw, hr⟩ := ih h
      refine ⟨offs :: es, o, .entry (by omega) hname hd (.inr ⟨hname', hwant⟩) hw, ?_⟩
      simpa [permits, ho] using hr

end Walk

/-! ## The search over the blocks -/

section Search

variable (mtd : Mtd) (want : List Byte) (stop : ℕ)

/-- The block at an offset. -/
def blockAt (offs : ℕ) : List Byte := slice mtd.flash offs mtd.erasesize

/-- The block at an offset starts like a jffs2 node. -/
def Starts (offs : ℕ) : Prop :=
  mtd.mtd_read offs 2 = (0, 2) ∧ get16 mtd.host (slice mtd.flash offs 2) = JFFS2_MAGIC_BITMASK

/-- Where a search stops. -/
inductive Stop where
  | absent
  | failed (rc : ℤ)
  | wanted (offs entry : ℕ)

/-- An entry, by its block and its place there. -/
abbrev Entry := ℕ × ℕ

/-- The entry stands for the firmware. -/
def OpenwrtAt (e : Entry) : Prop := Openwrt (blockAt mtd e.1) e.2

/-- The name of the entry starts with what is wanted. -/
def WantedAt (e : Entry) : Prop := Wanted (blockAt mtd e.1) want e.2

instance (e : Entry) : Decidable (OpenwrtAt mtd e) := inferInstanceAs (Decidable (Openwrt _ _))

/-- The search from the block at an offset comes to these entries, and then to its end. -/
inductive Search : ℕ → List Entry → Stop → Prop
  | absent {offs : ℕ} (h : stop ≤ offs) : Search offs [] .absent
  | skip {offs : ℕ} {tr : List Entry} {r : Stop} (h : offs < stop) (hs : ¬ Starts mtd offs)
      (hw : Search (offs + mtd.erasesize) tr r) : Search offs tr r
  | failed {offs : ℕ} (h : offs < stop) (hs : Starts mtd offs)
      (hr : (mtd.mtd_read offs mtd.erasesize).1 ≠ 0) :
      Search offs [] (.failed (mtd.mtd_read offs mtd.erasesize).1)
  | short {offs : ℕ} (h : offs < stop) (hs : Starts mtd offs)
      (hr : (mtd.mtd_read offs mtd.erasesize).1 = 0)
      (hl : (mtd.mtd_read offs mtd.erasesize).2 ≠ mtd.erasesize) :
      Search offs [] (.failed (-EINVAL))
  | block {offs : ℕ} {ws : List ℕ} {tr : List Entry} {r : Stop} (h : offs < stop)
      (hs : Starts mtd offs) (hr : mtd.mtd_read offs mtd.erasesize = (0, mtd.erasesize))
      (hb : Walk mtd.host (blockAt mtd offs) want 0 ws none)
      (hw : Search (offs + mtd.erasesize) tr r) :
      Search offs (ws.map (Prod.mk offs) ++ tr) r
  | wanted {offs w : ℕ} {ws : List ℕ} (h : offs < stop) (hs : Starts mtd offs)
      (hr : mtd.mtd_read offs mtd.erasesize = (0, mtd.erasesize))
      (hb : Walk mtd.host (blockAt mtd offs) want 0 ws (some w)) :
      Search offs (ws.map (Prod.mk offs)) (.wanted offs w)

/-- An entry of the firmware is among these. -/
def permitsAt (tr : List Entry) : Bool := tr.any fun e => OpenwrtAt mtd e

/-- What the search makes of where it has stopped. -/
def outcome (out valid : Bool) : Stop → Except Fault Found
  | .absent => .ok (.error (-ENOENT))
  | .failed rc => .ok (.error rc)
  | .wanted offs w =>
    if valid = false then .ok (.error (-EINVAL))
    else if out then do
      let dup ← dupName (blockAt mtd offs) w
      .ok (.file offs (some dup))
    else .ok (.file offs none)

variable {mtd want stop} {out valid : Bool} {offs fuel : ℕ}

lemma permitsAt_map_append (ws : List ℕ) (tr : List Entry) :
    permitsAt mtd (ws.map (Prod.mk offs) ++ tr) =
      (permits (blockAt mtd offs) ws || permitsAt mtd tr) := by
  rw [permitsAt, List.any_append, List.any_map]
  rfl

/-! ### Turns of the search -/

lemma findLoop_absent (mtd : Mtd) (want : List Byte) (out : Bool) (fuel : ℕ) (valid : Bool)
    (h : stop ≤ offs) : findLoop mtd want out fuel offs stop valid = .ok (.error (-ENOENT)) := by
  rw [findLoop, if_pos h]

lemma findLoop_skip (want : List Byte) (out : Bool) (fuel : ℕ) (valid : Bool) (h : offs < stop)
    (hs : ¬ Starts mtd offs) : findLoop mtd want out fuel offs stop valid =
      findLoop mtd want out fuel (offs + mtd.erasesize) stop valid := by
  rw [findLoop, if_neg (by omega)]
  show (if (mtd.mtd_read offs 2).1 ≠ 0 ∨ (mtd.mtd_read offs 2).2 ≠ 2 then _
    else if _ then _ else _) = _
  by_cases hr : (mtd.mtd_read offs 2).1 ≠ 0 ∨ (mtd.mtd_read offs 2).2 ≠ 2
  · rw [if_pos hr]
  · rw [if_neg hr, if_pos fun hm => hs ⟨Prod.ext (by simp_all) (by simp_all), hm⟩]

lemma findLoop_starts (want : List Byte) (out : Bool) (fuel : ℕ) (valid : Bool) (h : offs < stop)
    (hs : Starts mtd offs) : findLoop mtd want out fuel offs stop valid =
      if (mtd.mtd_read offs mtd.erasesize).1 ≠ 0 then
        .ok (.error (mtd.mtd_read offs mtd.erasesize).1)
      else if (mtd.mtd_read offs mtd.erasesize).2 ≠ mtd.erasesize then .ok (.error (-EINVAL))
      else walk mtd.host (blockAt mtd offs) want out fuel 0 valid >>= fun w =>
        match w with
        | .next valid => findLoop mtd want out fuel (offs + mtd.erasesize) stop valid
        | .invalid => .ok (.error (-EINVAL))
        | .found name => .ok (.file offs name) := by
  rw [findLoop, if_neg (by omega)]
  show (if (mtd.mtd_read offs 2).1 ≠ 0 ∨ (mtd.mtd_read offs 2).2 ≠ 2 then _
    else if _ then _ else _) = _
  rw [if_neg (by simp [hs.1]), if_neg (not_not.mpr hs.2)]
  rfl

lemma conclude_bind (out valid : Bool) (offs w : ℕ) (f : Bool → Except Fault Found) :
    (conclude (blockAt mtd offs) out valid (some w) >>= fun w =>
      match w with
      | .next valid => f valid
      | .invalid => .ok (.error (-EINVAL))
      | .found name => .ok (.file offs name)) = outcome mtd out valid (.wanted offs w) := by
  rw [conclude, outcome]
  cases valid with
  | false => rfl
  | true =>
    cases out with
    | false => rfl
    | true =>
      show ((dupName (blockAt mtd offs) w >>= fun dup => Except.ok (Walked.found (some dup))) >>=
        fun w => _) = (dupName (blockAt mtd offs) w >>= fun dup =>
          Except.ok (Found.file offs (some dup)))
      cases dupName (blockAt mtd offs) w with
      | error e => rfl
      | ok dup => rfl

/-- What the search returns is what its entries say. -/
lemma Search.ends {tr : List Entry} {r : Stop} (h : Search mtd want stop offs tr r)
    (out valid : Bool) : Ends (fun fuel => findLoop mtd want out fuel offs stop valid)
      (outcome mtd out (valid || permitsAt mtd tr) r) := by
  induction h generalizing valid with
  | absent h => exact (ends_const _).congr fun fuel => findLoop_absent mtd want out fuel valid h
  | skip h hs hw ih => exact (ih valid).congr fun fuel => findLoop_skip want out fuel valid h hs
  | failed h hs hr =>
    refine (ends_const _).congr fun fuel => ?_
    rw [findLoop_starts want out fuel valid h hs, if_pos hr]
    rfl
  | short h hs hr hl =>
    refine (ends_const _).congr fun fuel => ?_
    rw [findLoop_starts want out fuel valid h hs, if_neg (not_not.mpr hr), if_pos hl]
    rfl
  | block h hs hr hb hw ih =>
    rw [permitsAt_map_append, ← Bool.or_assoc]
    obtain ⟨n, hn⟩ := hb.ends out valid
    obtain ⟨m, hm⟩ := ih (valid || permits (blockAt mtd _) _)
    refine ⟨max n m, fun fuel hfuel => ?_⟩
    have hwalk : walk mtd.host (blockAt mtd _) want out fuel 0 valid = _ := hn fuel (by omega)
    show findLoop mtd want out fuel _ stop valid = _
    rw [findLoop_starts want out fuel valid h hs, if_neg (by simp [hr]), if_neg (by simp [hr]),
      hwalk]
    exact hm fuel (by omega)
  | @wanted offs w ws h hs hr hb =>
    obtain ⟨n, hn⟩ := hb.ends out valid
    refine ⟨n, fun fuel hfuel => ?_⟩
    have hwalk : walk mtd.host (blockAt mtd offs) want out fuel 0 valid = _ := hn fuel hfuel
    show findLoop mtd want out fuel offs stop valid = _
    rw [findLoop_starts want out fuel valid h hs, if_neg (by simp [hr]), if_neg (by simp [hr]),
      hwalk, conclude_bind, ← List.append_nil (ws.map _), permitsAt_map_append, permitsAt,
      List.any_nil, Bool.or_false]

/-- A search that ends inside its buffer has come along entries. -/
lemma exists_search {r : Found} (h : findLoop mtd want out fuel offs stop valid = .ok r) :
    ∃ tr q, Search mtd want stop offs tr q ∧
      outcome mtd out (valid || permitsAt mtd tr) q = .ok r := by
  induction hn : stop - offs using Nat.strong_induction_on generalizing offs valid with
  | h n ih =>
    have hpos := mtd.erasesize_pos
    rcases Nat.lt_or_ge offs stop with hlt | hge
    swap
    · rw [findLoop_absent _ _ _ _ _ hge] at h
      exact ⟨[], .absent, .absent hge, h⟩
    by_cases hs : Starts mtd offs
    swap
    · rw [findLoop_skip want out fuel valid hlt hs] at h
      obtain ⟨tr, q, hq, hr⟩ := ih (stop - (offs + mtd.erasesize)) (by omega) h rfl
      exact ⟨tr, q, .skip hlt hs hq, hr⟩
    rw [findLoop_starts want out fuel valid hlt hs] at h
    split at h
    · rename_i hrc
      exact ⟨[], _, .failed hlt hs hrc, h⟩
    rename_i hrc
    split at h
    · rename_i hlen
      exact ⟨[], _, .short hlt hs (not_not.mp hrc) hlen, h⟩
    rename_i hlen
    have hread : mtd.mtd_read offs mtd.erasesize = (0, mtd.erasesize) :=
      Prod.ext (not_not.mp hrc) (not_not.mp hlen)
    obtain ⟨w, hw, hrest⟩ := bind_eq_ok h
    obtain ⟨ws, o, hwalk, hconclude⟩ := exists_walk hw
    cases o with
    | none =>
      cases hconclude
      obtain ⟨tr, q, hq, hr⟩ := ih (stop - (offs + mtd.erasesize)) (by omega) hrest rfl
      refine ⟨_, q, .block hlt hs hread hwalk hq, ?_⟩
      rwa [permitsAt_map_append, ← Bool.or_assoc]
    | some e =>
      refine ⟨_, _, .wanted hlt hs hread hwalk, ?_⟩
      rw [← List.append_nil (ws.map _), permitsAt_map_append, permitsAt, List.any_nil,
        Bool.or_false, ← conclude_bind out _ offs e
          fun valid => findLoop mtd want out fuel (offs + mtd.erasesize) stop valid, hconclude]
      exact hrest

/-! ### What is found -/

lemma Walk.passed {host : Endian} {buf want : List Byte} {offs : ℕ} {es : List ℕ} {o : Option ℕ}
    (h : Walk host buf want offs es o) :
    (∀ e ∈ es, Dirent host buf e ∧ (Openwrt buf e ∨ ¬ Wanted buf want e)) ∧
      ∀ w, o = some w → Dirent host buf w ∧ ¬ Openwrt buf w ∧ Wanted buf want w := by
  induction h with
  | stop h => exact ⟨fun e he => (List.not_mem_nil he).elim, nofun⟩
  | skip h hin hd hw ih => exact ih
  | entry h hin hd hn hw ih =>
    refine ⟨fun e he => ?_, ih.2⟩
    rcases List.mem_cons.mp he with rfl | he
    · exact ⟨hd, hn.imp_right And.right⟩
    · exact ih.1 e he
  | wanted h hin hd hn hin' hw =>
    refine ⟨fun e he => (List.not_mem_nil he).elim, fun w ho => ?_⟩
    cases ho
    exact ⟨hd, hn, hw⟩

lemma Search.passed {tr : List Entry} {q : Stop} (h : Search mtd want stop offs tr q) :
    (∀ e ∈ tr, OpenwrtAt mtd e ∨ ¬ WantedAt mtd want e) ∧
      ∀ b w, q = .wanted b w → offs ≤ b ∧ b < stop ∧ Starts mtd b ∧ ¬ OpenwrtAt mtd (b, w) ∧
        WantedAt mtd want (b, w) := by
  induction h with
  | absent h => exact ⟨fun e he => (List.not_mem_nil he).elim, nofun⟩
  | skip h hs hw ih =>
    refine ⟨ih.1, fun b w hq => ?_⟩
    obtain ⟨hle, hrest⟩ := ih.2 b w hq
    exact ⟨by omega, hrest⟩
  | failed h hs hr => exact ⟨fun e he => (List.not_mem_nil he).elim, nofun⟩
  | short h hs hr hl => exact ⟨fun e he => (List.not_mem_nil he).elim, nofun⟩
  | block h hs hr hb hw ih =>
    refine ⟨fun e he => ?_, fun b w hq => ?_⟩
    · rcases List.mem_append.mp he with he | he
      · obtain ⟨o, ho, rfl⟩ := List.mem_map.mp he
        exact (hb.passed.1 o ho).2
      · exact ih.1 e he
    · obtain ⟨hle, hrest⟩ := ih.2 b w hq
      exact ⟨by omega, hrest⟩
  | wanted h hs hr hb =>
    refine ⟨fun e he => ?_, fun b w hq => ?_⟩
    · obtain ⟨o, ho, rfl⟩ := List.mem_map.mp he
      exact (hb.passed.1 o ho).2
    · cases hq
      obtain ⟨-, hno, hwant⟩ := hb.passed.2 _ rfl
      exact ⟨le_rfl, h, hs, hno, hwant⟩

/-- The file in the block at `offs` is the first entry with the name, and an entry of the firmware
comes before. -/
def FirstFile (mtd : Mtd) (want : List Byte) (start stop offs : ℕ) : Prop :=
  ∃ tr w, Search mtd want stop start tr (.wanted offs w) ∧ WantedAt mtd want (offs, w) ∧
    (∀ e ∈ tr, OpenwrtAt mtd e ∨ ¬ WantedAt mtd want e) ∧ ∃ e ∈ tr, OpenwrtAt mtd e

/-- The walks over the blocks come to their ends inside the buffer, and the result is this. -/
def Finds (mtd : Mtd) (want : List Byte) (out : Bool) (start stop : ℕ) (r : Found) : Prop :=
  ∃ tr q, Search mtd want stop start tr q ∧ outcome mtd out (permitsAt mtd tr) q = .ok r

variable {start : ℕ} {r : Found}

lemma Finds.ends (h : Finds mtd want out start stop r) :
    Ends (jffs2_find_file mtd want out start stop) (.ok r) := by
  obtain ⟨tr, q, hq, hr⟩ := h
  rw [← hr]
  exact hq.ends out false

lemma finds_of_eq (h : jffs2_find_file mtd want out start stop fuel = .ok r) :
    Finds mtd want out start stop r := exists_search h

lemma permitsAt_iff {tr : List Entry} : permitsAt mtd tr = true ↔ ∃ e ∈ tr, OpenwrtAt mtd e := by
  rw [permitsAt, List.any_eq_true]
  simp only [decide_eq_true_eq]

lemma Finds.firstFile {name : Option (List Byte × ℕ)}
    (h : Finds mtd want out start stop (.file offs name)) :
    FirstFile mtd want start stop offs := by
  obtain ⟨tr, q, hq, hr⟩ := h
  cases q with
  | absent => cases hr
  | failed rc => cases hr
  | wanted b w =>
    rw [outcome] at hr
    split at hr
    · cases hr
    rename_i hvalid
    have hb : b = offs := by
      split at hr
      · obtain ⟨dup, -, hfile⟩ := bind_eq_ok hr
        cases hfile
        rfl
      · cases hr
        rfl
    subst hb
    exact ⟨tr, w, hq, (hq.passed.2 b w rfl).2.2.2.2, hq.passed.1,
      permitsAt_iff.mp (by simpa using hvalid)⟩

lemma FirstFile.finds (h : FirstFile mtd want start stop offs) :
    Finds mtd want false start stop (.file offs none) := by
  obtain ⟨tr, w, hq, -, -, he⟩ := h
  refine ⟨tr, _, hq, ?_⟩
  rw [outcome, if_neg (by simpa using permitsAt_iff.mpr he)]
  rfl

lemma FirstFile.bounds (h : FirstFile mtd want start stop offs) : start ≤ offs ∧ offs < stop := by
  obtain ⟨tr, w, hq, -⟩ := h
  obtain ⟨hle, hlt, -⟩ := hq.passed.2 offs w rfl
  exact ⟨hle, hlt⟩

lemma Finds.error_nonpos {rc : ℤ} (h : Finds mtd want out start stop (.error rc)) : rc ≤ 0 := by
  obtain ⟨tr, q, hq, hr⟩ := h
  cases q with
  | absent =>
    cases hr
    decide
  | failed e =>
    cases hr
    generalize hst : Stop.failed rc = st at hq
    induction hq with
    | absent h => cases hst
    | skip h hs hw ih => exact ih hst
    | failed h hs hr =>
      cases hst
      exact mtd.mtd_read_nonpos _ _
    | short h hs hr hl =>
      cases hst
      decide
    | block h hs hr hb hw ih => exact ih hst
    | wanted h hs hr hb => cases hst
  | wanted b w =>
    rw [outcome] at hr
    split at hr
    · cases hr
      decide
    split at hr
    · obtain ⟨dup, -, hfile⟩ := bind_eq_ok hr
      cases hfile
    · cases hr

end Search

/-- The search ends inside its buffer, and the file that it reports is the first one. -/
def FindRight (mtd : Mtd) (want : List Byte) (out : Bool) (start stop : ℕ) : Prop :=
  ∃ r, Ends (jffs2_find_file mtd want out start stop) (.ok r) ∧
    ∀ offs name, r = .file offs name → FirstFile mtd want start stop offs

lemma findRight_iff (mtd : Mtd) (want : List Byte) (out : Bool) (start stop : ℕ) :
    FindRight mtd want out start stop ↔ ∃ r, Finds mtd want out start stop r := by
  constructor
  · rintro ⟨r, hr, -⟩
    obtain ⟨fuel, hfuel⟩ := hr.exists
    exact ⟨r, finds_of_eq hfuel⟩
  · rintro ⟨r, hr⟩
    refine ⟨r, hr.ends, ?_⟩
    rintro offs name rfl
    exact hr.firstFile

end Mtdsplit.Wfi
