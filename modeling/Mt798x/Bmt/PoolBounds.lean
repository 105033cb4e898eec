import Mt798x.Bmt.Pool
import Mt798x.Lib.Runs

/-!
# The bounds of the table buffer of BMT v2

What `get_bmt_index`, `upload_bmt`, `find_valid_block_in_pool` and the calls that use them need of
`bbt_buf`.  The conditions are on the table before the call: how far its entries reach, and where
the entry of the table itself lies.
-/

namespace Bmt.V2

open Guard

variable {c : Conf} {chip : Chip} {drv : Driver} {t : Table}

/-! ## Single accesses -/

/-- The `u16` number with index `w` lies in the buffer. -/
def Conf.Fits (c : Conf) (w : ℕ) : Prop := wordEnd w ≤ c.bufsz

lemma Conf.Fits.mono {v w : ℕ} (h : c.Fits w) (hvw : v ≤ w) : c.Fits v := by
  simp only [Conf.Fits, wordEnd] at h ⊢
  omega

lemma Conf.Fits.block {n : ℕ} (h : c.Fits (c.mappedOf n)) : c.Fits (c.blockOf n) :=
  h.mono (by simp only [Conf.mappedOf, Conf.blockOf]; omega)

lemma Conf.Fits.entry {m n : ℕ} (h : c.Fits (c.mappedOf n)) (hmn : m ≤ n) :
    c.Fits (c.mappedOf m) :=
  h.mono (by simp only [Conf.mappedOf]; omega)

namespace Table

@[simp] lemma word_set_self (w v : ℕ) : (t.set w v).word w = UInt16.ofNat v := if_pos rfl

lemma word_set_ne {w k : ℕ} (v : ℕ) (h : k ≠ w) : (t.set w v).word k = t.word k := if_neg h

/-- `bmt_tbl[n].block` -/
def block (c : Conf) (t : Table) (n : ℕ) : ℕ := (t.word (c.blockOf n)).toNat

/-- `bmt_tbl[n].mapped` -/
def mapped (c : Conf) (t : Table) (n : ℕ) : ℕ := (t.word (c.mappedOf n)).toNat

lemma block_set_blockOf (n m v : ℕ) : (t.set (c.blockOf n) v).block c m =
    if m = n then (UInt16.ofNat v).toNat else t.block c m := by
  rw [block]
  split
  · next h => rw [h, word_set_self]
  · exact congrArg _ (word_set_ne v (by simp only [Conf.blockOf]; omega))

lemma mapped_set_blockOf (n m v : ℕ) : (t.set (c.blockOf n) v).mapped c m = t.mapped c m :=
  congrArg _ (word_set_ne v (by simp only [Conf.blockOf, Conf.mappedOf]; omega))

lemma mapped_set_mappedOf (n m v : ℕ) : (t.set (c.mappedOf n) v).mapped c m =
    if m = n then (UInt16.ofNat v).toNat else t.mapped c m := by
  rw [mapped]
  split
  · next h => rw [h, word_set_self]
  · exact congrArg _ (word_set_ne v (by simp only [Conf.mappedOf]; omega))

lemma block_set_mappedOf (n m v : ℕ) : (t.set (c.mappedOf n) v).block c m = t.block c m :=
  congrArg _ (word_set_ne v (by simp only [Conf.blockOf, Conf.mappedOf]; omega))

end Table

section Access

variable {α : Type} {w v : ℕ}

lemma readWord_eq (h : c.Fits w) : readWord c t w = .ok (t.word w).toNat := by
  rw [readWord, touch_eq h]
  rfl

lemma writeWord_eq (h : c.Fits w) : writeWord c t w v = .ok (t.set w v) := by
  rw [writeWord, touch_eq h]
  rfl

lemma inside_readWord (f : ℕ → Except Fault α) :
    Inside (readWord c t w >>= f) ↔ c.Fits w ∧ Inside (f (t.word w).toNat) := by
  rw [readWord, bind_assoc, inside_touch_bind, pure_bind]
  rfl

lemma inside_writeWord (f : Table → Except Fault α) :
    Inside (writeWord c t w v >>= f) ↔ c.Fits w ∧ Inside (f (t.set w v)) := by
  rw [writeWord, bind_assoc, inside_touch_bind, pure_bind]
  rfl

end Access

/-! ## The stored table -/

/-- Entry `i` does not end the search for the entry of the table. -/
def Table.Continues (c : Conf) (t : Table) (i : ℕ) : Prop := t.block c i ≠ 0 ∧ t.mapped c i ≠ 2

/-- Every entry that `get_bmt_index` looks at lies in the buffer. -/
def IndexInside (c : Conf) (t : Table) : Prop :=
  ∀ i, (∀ j < i, t.Continues c j) →
    c.Fits (c.blockOf i) ∧ (t.block c i ≠ 0 → c.Fits (c.mappedOf i))

lemma inside_getBmtIndex_succ (fuel i : ℕ) : Inside (getBmtIndex c t (fuel + 1) i) ↔
    c.Fits (c.blockOf i) ∧ (t.block c i ≠ 0 → c.Fits (c.mappedOf i)) ∧
      (t.Continues c i → Inside (getBmtIndex c t fuel (i + 1))) := by
  rw [getBmtIndex, inside_readWord, Table.Continues, Table.block, Table.mapped]
  refine and_congr_right fun _ => ?_
  split
  · next h0 => simp [h0]
  · next h0 =>
    rw [inside_readWord]
    split
    · next h2 => simp [h0, h2]
    · next h2 => simp [h0, h2]

lemma inside_getBmtIndex : (∀ fuel, Inside (getBmtIndex c t fuel 0)) ↔ IndexInside c t := by
  constructor
  · intro h i hi
    -- the loop reaches entry `i`
    have hreach : ∀ fuel, Inside (getBmtIndex c t fuel i) := by
      induction i with
      | zero => exact h
      | succ i ih =>
        have hfuel := ih fun j hj => hi j (by omega)
        exact fun fuel =>
          ((inside_getBmtIndex_succ fuel i).mp (hfuel (fuel + 1))).2.2 (hi i (Nat.lt_succ_self i))
    have hone := (inside_getBmtIndex_succ 0 i).mp (hreach 1)
    exact ⟨hone.1, hone.2.1⟩
  · intro h fuel
    have hall : ∀ fuel i, (∀ j < i, t.Continues c j) → Inside (getBmtIndex c t fuel i) := by
      intro fuel
      induction fuel with
      | zero => exact fun i _ => inside_endless
      | succ fuel ih =>
        intro i hi
        refine (inside_getBmtIndex_succ fuel i).mpr ⟨(h i hi).1, (h i hi).2, fun hc => ih _ ?_⟩
        intro j hj
        rcases Nat.lt_succ_iff_lt_or_eq.mp hj with hlt | rfl
        · exact hi j hlt
        · exact hc
    exact hall fuel 0 fun j hj => absurd hj (Nat.not_lt_zero j)

/-- The index that is returned is 0. -/
def IndexZero (c : Conf) (t : Table) : Prop :=
  ∃ i, (∀ j < i, t.Continues c j) ∧
    (t.block c i = 0 ∨ t.block c i ≠ 0 ∧ t.mapped c i = 2 ∧ u16 i = 0)

lemma getBmtIndex_cases (h : IndexInside c t) (fuel i : ℕ) (hi : ∀ j < i, t.Continues c j) :
    getBmtIndex c t fuel i = .error .endless ∨
      ∃ idx, getBmtIndex c t fuel i = .ok idx ∧ (idx = 0 → IndexZero c t) := by
  induction fuel generalizing i with
  | zero => exact .inl rfl
  | succ fuel ih =>
    rw [getBmtIndex, readWord_eq (h i hi).1, ok_bind]
    split
    · next h0 => exact .inr ⟨0, rfl, fun _ => ⟨i, hi, .inl h0⟩⟩
    · next h0 =>
      rw [readWord_eq ((h i hi).2 h0), ok_bind]
      split
      · next h2 => exact .inr ⟨u16 i, rfl, fun hu => ⟨i, hi, .inr ⟨h0, h2, hu⟩⟩⟩
      · next h2 =>
        refine ih (i + 1) fun j hj => ?_
        rcases Nat.lt_succ_iff_lt_or_eq.mp hj with hlt | rfl
        · exact hi j hlt
        · exact ⟨h0, h2⟩

lemma getBmtIndex_eq_zero (h : IndexInside c t) (hz : IndexZero c t) :
    ∃ n, ∀ fuel, getBmtIndex c t (fuel + n) 0 = .ok 0 := by
  obtain ⟨n, hn, hstop⟩ := hz
  refine ⟨n + 1, fun fuel => ?_⟩
  have hall : ∀ d i, i + d = n → getBmtIndex c t (fuel + (d + 1)) i = .ok 0 := by
    intro d
    induction d with
    | zero =>
      rintro i rfl
      rw [Nat.add_zero] at hn hstop
      rw [← Nat.add_assoc, Nat.add_zero, getBmtIndex, readWord_eq (h i hn).1, ok_bind]
      rcases hstop with h0 | ⟨h0, h2, hu⟩
      · exact if_pos h0
      · rw [if_neg (show ¬ (t.word (c.blockOf i)).toNat = 0 from h0),
          readWord_eq ((h i hn).2 h0), ok_bind]
        exact (if_pos h2).trans (congrArg _ hu)
    | succ d ih =>
      intro i hi
      have hc := hn i (by omega)
      have hpast : ∀ j < i, t.Continues c j := fun j hj => hn j (by omega)
      rw [← Nat.add_assoc, getBmtIndex, readWord_eq (h i hpast).1, ok_bind,
        if_neg (show ¬ (t.word (c.blockOf i)).toNat = 0 from hc.1),
        readWord_eq ((h i hpast).2 hc.1), ok_bind,
        if_neg (show ¬ (t.word (c.mappedOf i)).toNat = 2 from hc.2)]
      exact ih (i + 1) (by omega)
  exact hall n 0 (Nat.zero_add n)

/-! ## The upload -/

lemma shiftLeft_bmtPgs_le (c : Conf) : c.bmtPgs <<< c.pgShift ≤ c.bufsz := by
  rw [Conf.bmtPgs, Nat.shiftRight_eq_div_pow, Nat.shiftLeft_eq]
  exact Nat.div_mul_le_self _ _

lemma Conf.Fits.four_le {w : ℕ} (h : c.Fits w) : 4 ≤ c.bufsz := by
  simp only [Conf.Fits, wordEnd] at h
  omega

/-- One attempt of `upload_bmt`, in an entry that lies in the buffer. -/
lemma uploadBmt_succ {n : ℕ} (h : c.Fits (c.mappedOf n)) :
    uploadBmt c drv (n + 1) t =
      if t.mapped c n = 1 then .ok (0xffff, t)
      else if drv.eraseFails n (t.block c n) then uploadBmt c drv n (t.set (c.blockOf n) 0)
      else
        let s := { t with signature := [0x42, 0x4d, 0x54], version := 2 }
        if drv.writeFails n (t.block c n) then uploadBmt c drv n (s.set (c.blockOf n) 0)
        else .ok (n, s) := by
  rw [uploadBmt, readWord_eq h, ok_bind]
  change (if t.mapped c n = 1 then _ else _) = _
  split
  · rfl
  · rw [readWord_eq h.block, ok_bind]
    change (if drv.eraseFails n (t.block c n) then _ else _) = _
    split
    · rw [writeWord_eq h.block, ok_bind]
    · rw [touch_eq h.four_le, ok_bind, touch_eq (shiftLeft_bmtPgs_le c), ok_bind]
      change (if drv.writeFails n (t.block c n) then _ else _) = _
      split
      · rw [writeWord_eq h.block, ok_bind]
      · rfl

/-- From an entry that lies in the buffer the upload goes downwards, and ends. -/
lemma uploadBmt_ok {n : ℕ} (h : c.Fits (c.mappedOf n)) (drv : Driver) (t : Table) :
    ∃ r, uploadBmt c drv (n + 1) t = .ok r := by
  have hall : ∀ m t, m ≤ n + 1 → ∃ r, uploadBmt c drv m t = .ok r := by
    intro m
    induction m with
    | zero => exact fun t _ => ⟨_, rfl⟩
    | succ m ih =>
      intro t hm
      rw [uploadBmt_succ (h.entry (by omega))]
      dsimp only
      split_ifs
      · exact ⟨_, rfl⟩
      · exact ih _ (by omega)
      · exact ih _ (by omega)
      · exact ⟨_, rfl⟩
  exact hall (n + 1) t le_rfl

lemma inside_uploadBmt (n : ℕ) : Inside (uploadBmt c drv (n + 1) t) ↔ c.Fits (c.mappedOf n) := by
  constructor
  · intro h
    rw [uploadBmt] at h
    exact ((inside_readWord _).mp h).1
  · intro h
    obtain ⟨r, hr⟩ := uploadBmt_ok h drv t
    rw [hr]
    exact inside_ok r

/-- The attempt with entry `n` for `block` fails. -/
def Driver.Fails (drv : Driver) (n block : ℕ) : Prop :=
  drv.eraseFails n block = true ∨ drv.writeFails n block = true

/-- The upload of a table whose first `m` entries name the blocks `b` and are not mapped: it ends
in an entry where the attempt does not fail, or there is no such entry. -/
lemma uploadBmt_fresh (drv : Driver) (b : ℕ → ℕ) (m : ℕ) (t : Table)
    (hfits : ∀ j < m, c.Fits (c.mappedOf j)) (hb : ∀ j < m, t.block c j = b j)
    (hm : ∀ j < m, t.mapped c j ≠ 1) :
    ∃ r s, uploadBmt c drv m t = .ok (r, s) ∧
      (r < m ∧ ¬ drv.Fails r (b r) ∨ r = 0xffff ∧ ∀ j < m, drv.Fails j (b j)) := by
  induction m generalizing t with
  | zero => exact ⟨0xffff, t, rfl, .inr ⟨rfl, fun j hj => absurd hj (Nat.not_lt_zero j)⟩⟩
  | succ n ih =>
    -- the entries below are as they were
    have hnext : ∀ s : Table, s.word = t.word → drv.Fails n (b n) →
        ∃ r s', uploadBmt c drv n (s.set (c.blockOf n) 0) = .ok (r, s') ∧
          (r < n + 1 ∧ ¬ drv.Fails r (b r) ∨ r = 0xffff ∧ ∀ j < n + 1, drv.Fails j (b j)) := by
      intro s hs hfail
      obtain ⟨r, s', heq, hr⟩ := ih (s.set (c.blockOf n) 0) (fun j hj => hfits j (by omega))
        (fun j hj => by
          rw [Table.block_set_blockOf, if_neg (by omega), Table.block, hs]
          exact hb j (by omega))
        (fun j hj => by
          rw [Table.mapped_set_blockOf, Table.mapped, hs]
          exact hm j (by omega))
      refine ⟨r, s', heq, hr.imp (fun h => ⟨by omega, h.2⟩) fun h => ⟨h.1, fun j hj => ?_⟩⟩
      rcases Nat.lt_succ_iff_lt_or_eq.mp hj with hlt | rfl
      · exact h.2 j hlt
      · exact hfail
    have hbn := hb n (Nat.lt_succ_self n)
    rw [uploadBmt_succ (hfits n (Nat.lt_succ_self n)), if_neg (hm n (Nat.lt_succ_self n)), hbn]
    dsimp only
    split_ifs with he hw
    · exact hnext t rfl (.inl he)
    · exact hnext { t with signature := [0x42, 0x4d, 0x54], version := 2 } rfl (.inr hw)
    · exact ⟨n, _, rfl, .inl ⟨Nat.lt_succ_self n, fun h => h.elim he hw⟩⟩

/-! ## Later calls -/

/-- Entry `i` is free for a mapping. -/
def Table.Free (c : Conf) (t : Table) (i : ℕ) : Prop := t.block c i ≠ 0 ∧ t.mapped c i = 0

instance (c : Conf) (t : Table) (i : ℕ) : Decidable (t.Free c i) :=
  inferInstanceAs (Decidable (_ ∧ _))

/-- What `find_valid_block_in_pool` reads of entry `i` lies in the buffer. -/
def Table.Seen (c : Conf) (t : Table) (i : ℕ) : Prop :=
  c.Fits (c.blockOf i) ∧ (t.block c i ≠ 0 → c.Fits (c.mappedOf i))

lemma findInPoolLoop_succ_eq {k i : ℕ} (h : ¬ t.Free c i) (hseen : t.Seen c i) :
    findInPoolLoop c (k + 1) i t = findInPoolLoop c k (i + 1) t := by
  rw [findInPoolLoop, readWord_eq hseen.1, ok_bind]
  split
  · rfl
  · next h0 =>
    rw [readWord_eq (hseen.2 h0), ok_bind]
    exact if_pos fun hm => h ⟨h0, hm⟩

lemma seen_of_inside {k i : ℕ} (h : Inside (findInPoolLoop c (k + 1) i t)) : t.Seen c i := by
  rw [findInPoolLoop] at h
  obtain ⟨hb, h⟩ := (inside_readWord _).mp h
  refine ⟨hb, fun h0 => ?_⟩
  rw [if_neg (show ¬ (t.word (c.blockOf i)).toNat = 0 from h0)] at h
  exact ((inside_readWord _).mp h).1

/-- The loop of `find_valid_block_in_pool` takes the first free entry, here `n`. -/
lemma findInPoolLoop_free {n : ℕ} (k i : ℕ) (hi : i ≤ n) (hk : n < i + k) (hn : t.Free c n)
    (hfirst : ∀ j < n, ¬ t.Free c j) :
    (Inside (findInPoolLoop c k i t) → c.Fits (c.mappedOf n)) ∧
      (c.Fits (c.mappedOf n) →
        findInPoolLoop c k i t = .ok (t.block c n, t.set (c.mappedOf n) 1)) := by
  induction k generalizing i with
  | zero => omega
  | succ k ih =>
    rcases Nat.eq_or_lt_of_le hi with rfl | hlt
    · refine ⟨fun h => (seen_of_inside h).2 hn.1, fun h => ?_⟩
      rw [findInPoolLoop, readWord_eq h.block, ok_bind,
        if_neg (show ¬ (t.word (c.blockOf i)).toNat = 0 from hn.1), readWord_eq h, ok_bind,
        if_neg (not_not.mpr (show (t.word (c.mappedOf i)).toNat = 0 from hn.2)), writeWord_eq h,
        ok_bind, readWord_eq h.block, ok_bind]
      exact congrArg (fun b => Except.ok (b, t.set (c.mappedOf i) 1))
        (Table.block_set_mappedOf i i 1)
    · have hnot := hfirst i hlt
      obtain ⟨hin, heq⟩ := ih (i + 1) hlt (by omega)
      constructor
      · intro h
        rw [findInPoolLoop_succ_eq hnot (seen_of_inside h)] at h
        exact hin h
      · intro h
        have hseen : t.Seen c i := ⟨(h.entry hi).block, fun _ => h.entry hi⟩
        rw [findInPoolLoop_succ_eq hnot hseen]
        exact heq h

lemma findInPoolLoop_none (k i : ℕ) (h : ∀ n, i ≤ n → n < i + k → ¬ t.Free c n) :
    (Inside (findInPoolLoop c k i t) → ∀ n, i ≤ n → n < i + k → t.Seen c n) ∧
      ((∀ n, i ≤ n → n < i + k → t.Seen c n) → findInPoolLoop c k i t = .ok (0, t)) := by
  induction k generalizing i with
  | zero => exact ⟨fun _ n h1 h2 => absurd h1 (by omega), fun _ => rfl⟩
  | succ k ih =>
    have hnot := h i le_rfl (by omega)
    obtain ⟨hin, heq⟩ := ih (i + 1) fun n h1 h2 => h n (by omega) (by omega)
    constructor
    · intro hinside n h1 h2
      have hseen := seen_of_inside hinside
      rcases Nat.eq_or_lt_of_le h1 with rfl | hlt
      · exact hseen
      · rw [findInPoolLoop_succ_eq hnot hseen] at hinside
        exact hin hinside n hlt (by omega)
    · intro hall
      rw [findInPoolLoop_succ_eq hnot (hall i le_rfl (by omega))]
      exact heq fun n h1 h2 => hall n (by omega) (by omega)

/-- The table in memory is such that a call stays inside the buffer.  A remap with a free entry
below that of the table writes `bb_tbl[block]` and uploads the table; without one it ends after a
look at these entries.  The undoing of a mapping always writes and uploads. -/
def CallInside (c : Conf) (s : State) : Call → Prop
  | .remap _ block =>
    if ∃ i < s.bmtBlkIdx, s.bbt.Free c i then c.Fits (u16 block) ∧ c.Fits (c.mappedOf s.bmtBlkIdx)
    else ∀ i < s.bmtBlkIdx, s.bbt.Seen c i
  | .unmap _ block => c.Fits (u16 block) ∧ c.Fits (c.mappedOf s.bmtBlkIdx)

lemma writeUpload_ok {α : Type} {block idx : ℕ} (hblock : c.Fits block)
    (hidx : c.Fits (c.mappedOf idx)) (drv : Driver) (t : Table) (v : ℕ) (f : ℕ × Table → α) :
    ∃ a, (writeWord c t block v >>= fun t => uploadBmt c drv (idx + 1) t >>= fun r => pure (f r)) =
      .ok a := by
  obtain ⟨r, hr⟩ := uploadBmt_ok hidx drv (t.set block v)
  rw [writeWord_eq hblock, ok_bind, hr]
  exact ⟨f r, rfl⟩

lemma fits_of_writeUpload {α : Type} {block v idx : ℕ} {f : ℕ × Table → α}
    (h : Inside (writeWord c t block v >>= fun t => uploadBmt c drv (idx + 1) t >>= fun r =>
      pure (f r))) : c.Fits block ∧ c.Fits (c.mappedOf idx) := by
  obtain ⟨hblock, hrest⟩ := (inside_writeWord _).mp h
  exact ⟨hblock, (inside_uploadBmt idx).mp ((inside_bind _ _).mp hrest).1⟩

lemma findValidBlockInPool_eq (s : State) :
    findValidBlockInPool c s = findInPoolLoop c s.bmtBlkIdx 0 s.bbt := by
  rw [findValidBlockInPool]
  split
  · next h => rw [h, findInPoolLoop]
  · rfl

lemma findValidBlockInPool_free {s : State} (hfree : ∃ i < s.bmtBlkIdx, s.bbt.Free c i) :
    ∃ n < s.bmtBlkIdx, s.bbt.block c n ≠ 0 ∧
      (Inside (findValidBlockInPool c s) → c.Fits (c.mappedOf n)) ∧
      (c.Fits (c.mappedOf n) →
        findValidBlockInPool c s = .ok (s.bbt.block c n, s.bbt.set (c.mappedOf n) 1)) := by
  obtain ⟨hlt, hn⟩ := Nat.find_spec hfree
  rw [findValidBlockInPool_eq]
  refine ⟨Nat.find hfree, hlt, hn.1, ?_⟩
  exact findInPoolLoop_free s.bmtBlkIdx 0 (Nat.zero_le _) (by omega) hn fun j hj hf =>
    Nat.find_min hfree hj ⟨hj.trans hlt, hf⟩

lemma step_ok {s : State} {call : Call} (h : CallInside c s call) :
    ∃ s', step c s call = .ok s' := by
  cases call with
  | unmap drv block => exact writeUpload_ok h.1 h.2 drv _ _ _
  | remap drv block =>
    rw [step, remapBlockV2]
    rw [CallInside] at h
    split at h
    · next hfree =>
      obtain ⟨n, hlt, h0, -, heq⟩ := findValidBlockInPool_free hfree
      obtain ⟨a, ha⟩ := writeUpload_ok h.1 h.2 drv (s.bbt.set (c.mappedOf n) 1) (s.bbt.block c n)
        fun r => (true, State.mk r.2 r.1)
      rw [heq (h.2.entry hlt.le), ok_bind]
      dsimp only
      rw [if_neg h0, ha]
      exact ⟨a.2, rfl⟩
    · next hfree =>
      have hnone := findInPoolLoop_none (c := c) (t := s.bbt) s.bmtBlkIdx 0
        fun n _ hn hf => hfree ⟨n, by omega, hf⟩
      rw [findValidBlockInPool_eq, hnone.2 fun n _ hn => h n (by omega)]
      exact ⟨_, rfl⟩

lemma callInside_of_inside {s : State} {call : Call} (h : Inside (step c s call)) :
    CallInside c s call := by
  cases call with
  | unmap drv block => exact fits_of_writeUpload h
  | remap drv block =>
    rw [step] at h
    replace h := ((inside_bind _ _).mp h).1
    rw [remapBlockV2] at h
    have hpool := ((inside_bind _ _).mp h).1
    rw [CallInside]
    split
    · next hfree =>
      obtain ⟨n, -, h0, hin, heq⟩ := findValidBlockInPool_free hfree
      rw [heq (hin hpool), ok_bind] at h
      dsimp only at h
      rw [if_neg h0] at h
      exact fits_of_writeUpload h
    · next hfree =>
      have hnone := findInPoolLoop_none (c := c) (t := s.bbt) s.bmtBlkIdx 0
        fun n _ hn hf => hfree ⟨n, by omega, hf⟩
      rw [findValidBlockInPool_eq] at hpool
      exact fun i hi => hnone.1 hpool i (Nat.zero_le i) (by omega)

/-- The state after a call that stays inside the buffer. -/
def next (c : Conf) (s : State) (call : Call) : State :=
  match step c s call with
  | .ok s' => s'
  | .error _ => s

/-- A sequence of calls stays inside the buffer if and only if the table before each of them allows
that. -/
lemma inside_calls (s : State) (calls : List Call) : Inside (calls.foldlM (step c) s) ↔
    Runs.AllSteps (next c) (CallInside c) s calls := by
  induction calls generalizing s with
  | nil => simp [Runs.AllSteps]
  | cons call calls ih =>
    rw [List.foldlM_cons, Runs.AllSteps]
    constructor
    · intro h
      have hcall := callInside_of_inside ((inside_bind _ _).mp h).1
      obtain ⟨s', hs'⟩ := step_ok hcall
      rw [hs', ok_bind] at h
      refine ⟨hcall, ?_⟩
      rw [next, hs']
      exact (ih s').mp h
    · rintro ⟨hcall, hrest⟩
      obtain ⟨s', hs'⟩ := step_ok hcall
      rw [next, hs'] at hrest
      rw [hs', ok_bind]
      exact (ih s').mpr hrest

end Bmt.V2
