import Mt798x.Nmbm.Progress

/-!
# Where a logical block comes from

`nmbm_build_mapping_table` maps the logical blocks to the good blocks of the data area in
ascending order; `original bad m` is this list.  `unmap_block_nmbm` does not have the list any more:
it goes back to the nearest block that is not remapped and adds the distance, as if no
factory-bad block lay in between.  `InRow` is the condition under which this is the right block.
-/

namespace Nmbm

open Bytes Bmt

/-! ## The original blocks -/

/-- The physical blocks below `m` that are not factory-bad: the block at position `lb` is the one
that logical block `lb` is mapped to at first. -/
def original (bad : ℕ → Bool) (m : ℕ) : List ℕ := (List.range m).filter fun pb => !bad pb

section Original

variable {bad : ℕ → Bool}

lemma original_succ (m : ℕ) :
    original bad (m + 1) = original bad m ++ if bad m then [] else [m] := by
  rw [original, List.range_succ, List.filter_append, original]
  cases h : bad m <;> simp [h]

/-- A block stands behind the good blocks below it. -/
lemma getElem?_original {m i pb : ℕ} : (original bad m)[i]? = some pb ↔
    pb < m ∧ bad pb = false ∧ (original bad pb).length = i := by
  induction m with
  | zero => simp [original]
  | succ m ih =>
    rw [original_succ]
    cases hbad : bad m with
    | true =>
      rw [if_pos rfl, List.append_nil, ih]
      constructor
      · rintro ⟨h1, h2, h3⟩
        exact ⟨by omega, h2, h3⟩
      · rintro ⟨h1, h2, h3⟩
        have hne : pb ≠ m := fun h => by
          rw [h, hbad] at h2
          exact absurd h2 (by simp)
        exact ⟨by omega, h2, h3⟩
    | false =>
      rw [if_neg (by simp), List.getElem?_append]
      split
      · rename_i hlt
        rw [ih]
        constructor
        · rintro ⟨h1, h2, h3⟩
          exact ⟨by omega, h2, h3⟩
        · rintro ⟨h1, h2, h3⟩
          have hne : pb ≠ m := fun h => by
            rw [h] at h3
            omega
          exact ⟨by omega, h2, h3⟩
      · rename_i hge
        constructor
        · intro h
          obtain ⟨hi, rfl⟩ : i = (original bad m).length ∧ m = pb := by
            rcases hd : i - (original bad m).length with _ | d
            · rw [hd] at h
              exact ⟨by omega, by simpa using h⟩
            · rw [hd] at h
              exact absurd h (by simp)
          exact ⟨by omega, hbad, hi.symm⟩
        · rintro ⟨h1, h2, h3⟩
          have hpb : pb = m := by
            by_contra hne
            have := ih.mpr ⟨by omega, h2, h3⟩
            exact hge (List.getElem?_eq_some_iff.mp this).1
          subst hpb
          rw [h3, Nat.sub_self]
          rfl

lemma length_original_add (pb k : ℕ) :
    (original bad (pb + k)).length ≤ (original bad pb).length + k ∧
      ((original bad (pb + k)).length = (original bad pb).length + k ↔
        ∀ x, pb ≤ x → x < pb + k → bad x = false) := by
  induction k with
  | zero => exact ⟨le_rfl, fun _ x h1 h2 => by omega, fun _ => rfl⟩
  | succ k ih =>
    obtain ⟨hle, hiff⟩ := ih
    rw [← Nat.add_assoc, original_succ, List.length_append]
    cases hbad : bad (pb + k) with
    | true =>
      rw [if_pos rfl, List.length_nil]
      refine ⟨by omega, fun h => absurd h (by omega), fun h => ?_⟩
      have := h (pb + k) (by omega) (by omega)
      rw [hbad] at this
      exact absurd this (by simp)
    | false =>
      rw [if_neg (by simp), List.length_singleton]
      refine ⟨by omega, fun h x h1 h2 => ?_, fun h => ?_⟩
      · by_cases hx : x = pb + k
        · rw [hx, hbad]
        · exact hiff.mp (by omega) x h1 (by omega)
      · have := hiff.mpr fun x h1 h2 => h x h1 (by omega)
        omega

/-- The logical block `k` places behind another one has the physical block `k` places behind just
when all the blocks in between are good data blocks. -/
lemma original_row {m s pb : ℕ} (h : (original bad m)[s]? = some pb) (k : ℕ) :
    (original bad m)[s + k]? = some (pb + k) ↔
      ∀ x, pb < x → x ≤ pb + k → x < m ∧ bad x = false := by
  obtain ⟨h1, h2, h3⟩ := getElem?_original.mp h
  rw [getElem?_original, ← h3, (length_original_add pb k).2]
  constructor
  · rintro ⟨h4, h5, h6⟩ x hx hx'
    refine ⟨by omega, ?_⟩
    by_cases hxk : x = pb + k
    · rw [hxk]
      exact h5
    · exact h6 x (by omega) (by omega)
  · intro hall
    have hlast : pb + k < m ∧ bad (pb + k) = false := by
      by_cases hk : k = 0
      · subst hk
        exact ⟨h1, h2⟩
      · exact hall (pb + k) (by omega) le_rfl
    refine ⟨hlast.1, hlast.2, fun x hx hx' => ?_⟩
    by_cases hxp : x = pb
    · rw [hxp]
      exact h2
    · exact (hall x (by omega) (by omega)).2

lemma original_injective {m i j pb : ℕ} (hi : (original bad m)[i]? = some pb)
    (hj : (original bad m)[j]? = some pb) : i = j :=
  (getElem?_original.mp hi).2.2.symm.trans (getElem?_original.mp hj).2.2

end Original

/-! ## The two loops of `unmap_block_nmbm` -/

lemma unmapStart_some {ni : Inst} {block start : ℕ} (h : unmapStart ni block = some start) :
    start ≤ block ∧ (ni.mapping start).toNat < ni.mappingBlocksBa ∧
      ∀ x, start < x → x ≤ block → ni.mappingBlocksBa ≤ (ni.mapping x).toNat := by
  induction block with
  | zero =>
    rw [unmapStart] at h
    split at h
    · exact absurd h (by simp)
    · rw [Option.some.injEq] at h
      subst h
      exact ⟨le_rfl, by omega, fun x h1 h2 => by omega⟩
  | succ block ih =>
    rw [unmapStart] at h
    split at h
    · rename_i hge
      obtain ⟨h1, h2, h3⟩ := ih h
      refine ⟨by omega, h2, fun x h4 h5 => ?_⟩
      by_cases hx : x = block + 1
      · rw [hx]
        exact hge
      · exact h3 x h4 (by omega)
    · rw [Option.some.injEq] at h
      subst h
      exact ⟨le_rfl, by omega, fun x h1 h2 => by omega⟩

lemma unmapStart_none {ni : Inst} {block : ℕ} (h : unmapStart ni block = none) :
    ∀ x ≤ block, ni.mappingBlocksBa ≤ (ni.mapping x).toNat := by
  induction block with
  | zero =>
    rw [unmapStart] at h
    split at h
    · rename_i hge
      intro x hx
      obtain rfl : x = 0 := by omega
      exact hge
    · exact absurd h (by simp)
  | succ block ih =>
    rw [unmapStart] at h
    split at h
    · rename_i hge
      intro x hx
      by_cases hx' : x = block + 1
      · rw [hx']
        exact hge
      · exact ih h x (by omega)
    · exact absurd h (by simp)

/-- The new watermark lies below every block that is still remapped to, and directly below one of
them if it has moved. -/
lemma unmapTopLoop_spec {ni : Inst} {k block : ℕ} {top : ℤ}
    (hsmall : ∀ x, block ≤ x → x < block + k → (ni.mapping x).toNat < 2 ^ 31) :
    unmapTopLoop ni k block top ≤ top ∧
      (∀ x, block ≤ x → x < block + k → ni.mappingBlocksBa ≤ (ni.mapping x).toNat →
        unmapTopLoop ni k block top < (ni.mapping x).toNat) ∧
      (unmapTopLoop ni k block top = top ∨ ∃ x, block ≤ x ∧ x < block + k ∧
        ni.mappingBlocksBa ≤ (ni.mapping x).toNat ∧
        unmapTopLoop ni k block top = (ni.mapping x).toNat - 1) := by
  induction k generalizing block top with
  | zero => exact ⟨le_rfl, fun x h1 h2 => by omega, Or.inl rfl⟩
  | succ k ih =>
    have hint : ni.mappingInt block = (ni.mapping block).toNat := by
      rw [Inst.mappingInt]
      exact if_pos (hsmall block le_rfl (by omega))
    rw [unmapTopLoop, hint]
    split
    · rename_i hlt
      obtain ⟨h1, h2, h3⟩ := @ih (block + 1) top fun x h4 h5 => hsmall x (by omega) (by omega)
      refine ⟨h1, fun x h4 h5 h6 => ?_, h3.imp_right fun ⟨x, h4, h5, h6⟩ =>
        ⟨x, by omega, by omega, h6⟩⟩
      by_cases hx : x = block
      · rw [hx] at h6
        omega
      · exact h2 x (by omega) (by omega) h6
    · rename_i hge
      obtain ⟨h1, h2, h3⟩ := @ih (block + 1)
        (if ((ni.mapping block).toNat : ℤ) ≤ top then ((ni.mapping block).toNat : ℤ) - 1 else top)
        fun x h4 h5 => hsmall x (by omega) (by omega)
      refine ⟨h1.trans (by split <;> omega), fun x h4 h5 h6 => ?_, ?_⟩
      · by_cases hx : x = block
        · rw [hx]
          refine h1.trans_lt ?_
          split <;> omega
        · exact h2 x (by omega) (by omega) h6
      · rcases h3 with h3 | ⟨x, h4, h5, h6⟩
        · rw [h3]
          split
          · exact Or.inr ⟨block, le_rfl, by omega, by omega, rfl⟩
          · exact Or.inl rfl
        · exact Or.inr ⟨x, by omega, by omega, h6⟩

lemma unmapTop_congr {ni ni' : Inst} (hm : ni'.blockMapping = ni.blockMapping)
    (hmb : ni'.mappingBlocksBa = ni.mappingBlocksBa)
    (hd : ni'.dataBlockCount = ni.dataBlockCount) (hs : ni'.signatureBa = ni.signatureBa) :
    unmapTop ni' = unmapTop ni := by
  have hmap : ∀ lb, ni'.mapping lb = ni.mapping lb := fun lb => by
    rw [Inst.mapping, Inst.mapping, hm]
  have hloop : ∀ (k block : ℕ) (top : ℤ),
      unmapTopLoop ni' k block top = unmapTopLoop ni k block top := by
    intro k
    induction k with
    | zero => intro _ _; rfl
    | succ k ih =>
      intro block top
      rw [unmapTopLoop, unmapTopLoop, hmb, hmap, ih, ih, Inst.mappingInt, Inst.mappingInt, hmap]
  rw [unmapTop, unmapTop, hd, hs, hloop]

/-! ## The mapping of a state -/

/-- Every mapped logical block has its original block or a block behind the data area, and none
is marked as unmapped. -/
structure Homed (bad : ℕ → Bool) (ni : Inst) : Prop where
  home : ∀ lb < ni.dataBlockCount, (ni.mapping lb).toNat < ni.mgmtStartBa →
    (original bad ni.mgmtStartBa)[lb]? = some (ni.mapping lb).toNat
  small : ∀ lb < ni.dataBlockCount, (ni.mapping lb).toNat < 2 ^ 31

/-- A logical block that is not remapped stands in front of `block`, and from the block of the
nearest such one on there are only good data blocks for as far as `block` is behind it. -/
def InRow (bad : ℕ → Bool) (ni : Inst) (block : ℕ) : Prop :=
  ∃ start < block, (ni.mapping start).toNat < ni.mappingBlocksBa ∧
    (∀ x, start < x → x ≤ block → ni.mappingBlocksBa ≤ (ni.mapping x).toNat) ∧
    ∀ pb, (ni.mapping start).toNat < pb → pb ≤ (ni.mapping start).toNat + (block - start) →
      pb < ni.mgmtStartBa ∧ bad pb = false

/-- Logical block `block` has its original physical block, which is not factory-bad and is no
other block's, and the watermark lies below all blocks that are still remapped to. -/
structure Unmaps (bad : ℕ → Bool) (ni : Inst) (block : ℕ) : Prop where
  home : (original bad ni.mgmtStartBa)[block]? = some (ni.mapping block).toNat
  good : bad (ni.mapping block).toNat = false
  own : ∀ x < ni.dataBlockCount, x ≠ block → ni.mapping x ≠ ni.mapping block
  watermark : ∀ x < ni.dataBlockCount, ni.mappingBlocksBa ≤ (ni.mapping x).toNat →
    ni.mappingBlocksTopBa < (ni.mapping x).toNat

variable {c : Conf} {env : Env} {bad : ℕ → Bool} {ni ni' : Inst} {block : ℕ}

lemma Homed.of_lt (h : Homed bad ni) (hlay : Layout ni) (ha : Allocated c ni.dataBlockCount ni)
    {lb : ℕ} (hlb : lb < ni.dataBlockCount) (hlt : (ni.mapping lb).toNat < ni.mappingBlocksBa) :
    (ni.mapping lb).toNat < ni.mgmtStartBa ∧
      (original bad ni.mgmtStartBa)[lb]? = some (ni.mapping lb).toNat := by
  have hmg : (ni.mapping lb).toNat < ni.mgmtStartBa := by
    have := ha.target lb hlb
    have := hlay.top
    omega
  exact ⟨hmg, h.home lb hlb hmg⟩

lemma Homed.congr (h : Homed bad ni) (hm : ni'.blockMapping = ni.blockMapping)
    (hd : ni'.dataBlockCount = ni.dataBlockCount) (hg : ni'.mgmtStartBa = ni.mgmtStartBa) :
    Homed bad ni' := by
  have hmap : ∀ lb, ni'.mapping lb = ni.mapping lb := fun lb => by
    rw [Inst.mapping, Inst.mapping, hm]
  refine ⟨fun lb hlb => ?_, fun lb hlb => ?_⟩
  · rw [hmap, hg]
    exact h.home lb (hd ▸ hlb)
  · rw [hmap]
    exact h.small lb (hd ▸ hlb)

lemma Homed.set (h : Homed bad ni) {lb : ℕ} {v : UInt32}
    (hm : ni'.blockMapping = ni.blockMapping.set lb v) (hlb : lb < ni.blockMapping.length)
    (hd : ∀ x < ni'.dataBlockCount, x = lb ∨ x < ni.dataBlockCount)
    (hg : ni'.mgmtStartBa = ni.mgmtStartBa) (hv : ni.mgmtStartBa ≤ v.toNat)
    (hv' : v.toNat < 2 ^ 31) : Homed bad ni' := by
  have hmap := mapping_set hm hlb
  refine ⟨fun x hx hlt => ?_, fun x hx => ?_⟩
  · rw [hmap x] at hlt ⊢
    rw [hg] at hlt ⊢
    split at hlt
    · omega
    · rename_i hne
      rw [if_neg hne]
      exact h.home x ((hd x hx).resolve_left hne) hlt
  · rw [hmap x]
    split
    · exact hv'
    · rename_i hne
      exact h.small x ((hd x hx).resolve_left hne)

/-! ## Unmapping a block -/

/-- The state before the final update, when there is a block to go back to. -/
structure Unmapped (ni : Inst) (start block : ℕ) (ni1 : Inst) : Prop where
  frame : ni1 = { ni with
    blockState := ni1.blockState
    blockStateChanged := ni1.blockStateChanged
    unsaved := ni1.unsaved
    blockMapping := ni1.blockMapping
    blockMappingChanged := ni.blockMappingChanged + 1
    mappingBlocksTopBa := ni1.mappingBlocksTopBa }
  length : ni1.blockState.length = ni.blockState.length
  mapping : ni1.blockMapping = ni.blockMapping.set block
    (UInt32.ofNat ((ni.mapping start).toNat + (block - start)))
  top : ni1.mappingBlocksTopBa = unmapTop ni1

lemma unmapped_some {start : ℕ} (hb : block < ni.dataBlockCount)
    (hstart : unmapStart ni block = some start) (hne : start ≠ block) :
    ∃ ni1, unmapped ni block = some ni1 ∧ Unmapped ni start block ni1 := by
  refine ⟨_, by rw [unmapped, if_neg (by omega), hstart]; exact if_neg hne, ?_, ?_, ?_, ?_⟩
  · dsimp only
    rw [setBlockState_frame]
  · dsimp only
    rw [nmbmSetBlockState]
    dsimp only
    split <;> exact TwoBit.length_set _ _ _
  · dsimp only
    rw [setBlockState_frame]
  · dsimp only
    apply unmapTop_congr
    all_goals rfl

namespace Unmapped

variable {start : ℕ} {ni1 : Inst}

lemma mgmtStartBa (h : Unmapped ni start block ni1) : ni1.mgmtStartBa = ni.mgmtStartBa :=
  (congrArg Inst.mgmtStartBa h.frame :)

lemma mappingBlocksBa (h : Unmapped ni start block ni1) :
    ni1.mappingBlocksBa = ni.mappingBlocksBa := (congrArg Inst.mappingBlocksBa h.frame :)

lemma dataBlockCount (h : Unmapped ni start block ni1) :
    ni1.dataBlockCount = ni.dataBlockCount := (congrArg Inst.dataBlockCount h.frame :)

lemma signatureBa (h : Unmapped ni start block ni1) : ni1.signatureBa = ni.signatureBa :=
  (congrArg Inst.signatureBa h.frame :)

lemma mapping_eq (h : Unmapped ni start block ni1) (hb : block < ni.blockMapping.length)
    (hsmall : (ni.mapping start).toNat + (block - start) < 2 ^ 32) :
    (ni1.mapping block).toNat = (ni.mapping start).toNat + (block - start) ∧
      ∀ x, x ≠ block → ni1.mapping x = ni.mapping x := by
  have hmap := mapping_set h.mapping hb
  refine ⟨?_, fun x hx => ?_⟩
  · rw [hmap block, if_pos rfl, UInt32.toNat_ofNat', Nat.mod_eq_of_lt hsmall]
  · rw [hmap x, if_neg hx]

/-- The watermark after the block was given a data block. -/
lemma top_spec (h : Unmapped ni start block ni1) (hlay : Layout ni)
    (ha : Allocated c ni.dataBlockCount ni) (hh : Homed bad ni)
    (hother : ∀ x, x ≠ block → ni1.mapping x = ni.mapping x)
    (hself : (ni1.mapping block).toNat < ni.mgmtStartBa) :
    ni.mappingBlocksTopBa ≤ ni1.mappingBlocksTopBa ∧ ni1.mappingBlocksTopBa < ni.signatureBa ∧
      ∀ x < ni.dataBlockCount, ni.mappingBlocksBa ≤ (ni1.mapping x).toNat →
        ni1.mappingBlocksTopBa < (ni1.mapping x).toNat := by
  have hbc : c.blockCount < 2 ^ 16 := c.total_lt
  have hsig := ha.signature_lt
  have htop := ha.top_lt
  have hmg := hlay.mgmt_le
  have hmb := hlay.top
  have hsmall : ∀ x, 0 ≤ x → x < 0 + ni.dataBlockCount → (ni1.mapping x).toNat < 2 ^ 31 := by
    intro x _ hx
    by_cases hxb : x = block
    · rw [hxb]
      omega
    · rw [hother x hxb]
      exact hh.small x (by omega)
  have hremapped : ∀ x < ni.dataBlockCount, ni.mappingBlocksBa ≤ (ni1.mapping x).toNat →
      ni.mappingBlocksTopBa < (ni1.mapping x).toNat := by
    intro x hx hge
    have hxb : x ≠ block := fun hxb => by
      rw [hxb] at hge
      omega
    rw [hother x hxb] at hge ⊢
    have := ha.target x hx
    omega
  obtain ⟨h1, h2, h3⟩ := @unmapTopLoop_spec ni1 ni.dataBlockCount 0 (ni.signatureBa - 1) hsmall
  rw [h.mappingBlocksBa] at h2 h3
  have hge : (ni.mappingBlocksTopBa : ℤ) ≤
      unmapTopLoop ni1 ni.dataBlockCount 0 (ni.signatureBa - 1) := by
    rcases h3 with h3 | ⟨x, -, h4, h5, h6⟩
    · rw [h3]
      omega
    · have := hremapped x (by omega) h5
      rw [h6]
      omega
  have hval : (ni1.mappingBlocksTopBa : ℤ) =
      unmapTopLoop ni1 ni.dataBlockCount 0 (ni.signatureBa - 1) := by
    rw [h.top, unmapTop, h.dataBlockCount, h.signatureBa]
    omega
  refine ⟨by omega, by omega, fun x hx hx' => ?_⟩
  have := h2 x (Nat.zero_le _) (by omega) hx'
  omega

/-- The invariants after the block was given its original block. -/
lemma restored (h : Unmapped ni start block ni1) (hc : Consistent c ni)
    (ha : Allocated c ni.dataBlockCount ni) (hh : Homed bad ni)
    (hother : ∀ x, x ≠ block → ni1.mapping x = ni.mapping x)
    (hself : (original bad ni.mgmtStartBa)[block]? = some (ni1.mapping block).toNat) :
    Consistent c ni1 ∧ Allocated c ni1.dataBlockCount ni1 ∧ Homed bad ni1 := by
  have hlt := (getElem?_original.mp hself).1
  obtain ⟨h1, h2, h3⟩ := h.top_spec hc.layout ha hh hother hlt
  have hchanged : ni1.changed = true := by
    rw [h.frame]
    simp [Inst.changed]
  have hmg := hc.layout.mgmt_le
  have hmb := hc.layout.top
  have e1 := h.mgmtStartBa
  have e2 := h.mappingBlocksBa
  refine ⟨⟨⟨by omega, by omega, ?_, ?_⟩, ⟨h.length.trans hc.shaped.state, ?_, ?_⟩, fun _ hch => ?_,
    fun _ _ hch => ?_⟩, ?_, ?_⟩
  · rw [h.frame]
    exact hc.layout.main
  · rw [h.frame]
    exact hc.layout.backup
  · rw [h.mapping, List.length_set]
    exact hc.shaped.mapping
  · rw [h.frame]
    exact hc.shaped.offsets
  · exact absurd (hchanged.symm.trans hch) (by simp)
  · exact absurd (hchanged.symm.trans hch) (by simp)
  · rw [h.dataBlockCount]
    refine ⟨?_, h.signatureBa ▸ h2, h.signatureBa ▸ ha.signature_lt, fun x hx => ?_,
      fun x hx => ?_, fun x hx y hy hxy => ?_⟩
    · rw [h.mapping, List.length_set]
      exact ha.length
    · by_cases hge : ni.mappingBlocksBa ≤ (ni1.mapping x).toNat
      · exact Or.inr (h3 x hx hge)
      · left
        by_cases hxb : x = block
        · rw [hxb, e1]
          exact hlt
        · rw [hother x hxb] at hge ⊢
          rw [e1]
          exact (hh.of_lt hc.layout ha hx (by omega)).1
    · rw [h.signatureBa]
      by_cases hxb : x = block
      · have := ha.top_lt
        rw [hxb]
        omega
      · rw [hother x hxb]
        exact ha.signature x hx
    · -- the original block is nobody else's
      have hfresh : ∀ z < ni.dataBlockCount, z ≠ block → ni1.mapping z ≠ ni1.mapping block := by
        intro z hz hne heq
        have hz1 := hother z hne
        have hz2 : (ni.mapping z).toNat < ni.mgmtStartBa := by
          rw [← hz1, heq]
          exact hlt
        have hz3 := hh.home z hz hz2
        rw [← hz1, heq] at hz3
        exact hne (original_injective hz3 hself)
      by_cases hxb : x = block
      · by_cases hyb : y = block
        · rw [hxb, hyb]
        · rw [hxb] at hxy
          exact absurd hxy.symm (hfresh y hy hyb)
      · by_cases hyb : y = block
        · rw [hyb] at hxy
          exact absurd hxy (hfresh x hx hxb)
        · rw [hother x hxb, hother y hyb] at hxy
          exact ha.injective x hx y hy hxy
  · refine ⟨fun x hx hlt' => ?_, fun x hx => ?_⟩
    · rw [e1] at hlt' ⊢
      by_cases hxb : x = block
      · rw [hxb]
        exact hself
      · rw [hother x hxb] at hlt' ⊢
        exact hh.home x (h.dataBlockCount ▸ hx) hlt'
    · by_cases hxb : x = block
      · have hbc : c.blockCount < 2 ^ 16 := c.total_lt
        have := ha.signature_lt
        have := ha.top_lt
        rw [hxb]
        omega
      · rw [hother x hxb]
        exact hh.small x (h.dataBlockCount ▸ hx)

end Unmapped

/-! ## The whole function -/

variable (c env) in
/-- An update changes neither the mapping nor the start of the management area. -/
lemma updateInfoTable_mapping (h : Guarded ni) :
    (nmbmUpdateInfoTable c env ni).2.blockMapping = ni.blockMapping ∧
      (nmbmUpdateInfoTable c env ni).2.mgmtStartBa = ni.mgmtStartBa := by
  have hends : ∀ {ni : Inst} {out : Bool × Inst}, LoopEnds c env ni out → Above ni →
      out.2.blockMapping = ni.blockMapping ∧ out.2.mgmtStartBa = ni.mgmtStartBa := by
    intro ni out hl
    induction hl with
    | clean => exact fun _ => ⟨rfl, rfl⟩
    | failed hc honce =>
      intro ha
      have hu := (updateInfoTableOnce_retires c env ha hc honce).updates
      exact ⟨(congrArg Inst.blockMapping hu.frame :), hu.mgmtStartBa⟩
    | again hstep _ ih =>
      intro ha
      have hr := hstep.retires ha
      obtain ⟨h1, h2⟩ := ih (hr.above rfl)
      exact ⟨h1.trans (congrArg Inst.blockMapping hr.updates.frame :),
        h2.trans hr.updates.mgmtStartBa⟩
  rw [nmbmUpdateInfoTable]
  split
  · exact ⟨rfl, rfl⟩
  · rename_i hp
    have ha := h (by simpa using hp)
    exact hends (updateInfoTableLoop_ends c env ha fun _ => by rw [Inst.goodCount]; omega) ha

lemma inRow_iff {start : ℕ} (hstart : unmapStart ni block = some start) (hne : start ≠ block) :
    InRow bad ni block ↔ ∀ pb, (ni.mapping start).toNat < pb →
      pb ≤ (ni.mapping start).toNat + (block - start) → pb < ni.mgmtStartBa ∧ bad pb = false := by
  obtain ⟨h1, h2, h3⟩ := unmapStart_some hstart
  constructor
  · rintro ⟨s, hs, h4, h5, hrow⟩
    obtain rfl : s = start := by
      by_contra hne'
      rcases Nat.lt_or_gt_of_ne hne' with hlt | hgt
      · have := h5 start hlt h1
        omega
      · have := h3 s hgt hs.le
        omega
    exact hrow
  · exact fun hrow => ⟨start, by omega, h2, h3, hrow⟩

/-- The block that `unmap_block_nmbm` computes is the original one just when no factory-bad block
lies on the way. -/
lemma original_sum_iff (hlay : Layout ni) (ha : Allocated c ni.dataBlockCount ni)
    (hh : Homed bad ni) {start : ℕ} (hb : block < ni.dataBlockCount)
    (hstart : unmapStart ni block = some start) (hne : start ≠ block) :
    (original bad ni.mgmtStartBa)[block]? = some ((ni.mapping start).toNat + (block - start)) ↔
      InRow bad ni block := by
  obtain ⟨h1, h2, -⟩ := unmapStart_some hstart
  have hhome := (hh.of_lt hlay ha (by omega) h2).2
  rw [inRow_iff hstart hne, ← original_row hhome, Nat.add_sub_cancel' h1]

lemma sum_lt (hlay : Layout ni) (ha : Allocated c ni.dataBlockCount ni) (hh : Homed bad ni)
    {start : ℕ} (hb : block < ni.dataBlockCount) (hstart : unmapStart ni block = some start)
    (hlen : ni.blockMapping.length = c.blockCount) :
    block < ni.blockMapping.length ∧ (ni.mapping start).toNat + (block - start) < 2 ^ 32 := by
  obtain ⟨h1, h2, -⟩ := unmapStart_some hstart
  have := (hh.of_lt hlay ha (by omega) h2).1
  have := ha.length
  have := ha.signature_lt
  have := ha.top_lt
  have := hlay.top
  have := hlay.mgmt_le
  have hbc : c.blockCount < 2 ^ 16 := c.total_lt
  omega

lemma Homed.unmaps (hh : Homed bad ni) (hlay : Layout ni) (ha : Allocated c ni.dataBlockCount ni)
    (hb : block < ni.dataBlockCount) (hlt : (ni.mapping block).toNat < ni.mgmtStartBa) :
    Unmaps bad ni block := by
  have hhome := hh.home block hb hlt
  refine ⟨hhome, (getElem?_original.mp hhome).2.1, fun x hx hne heq => ?_, fun x hx hge => ?_⟩
  · exact hne (ha.injective x hx block hb heq)
  · have := hlay.mgmt_le
    have := ha.target x hx
    omega

variable (c env)

/-- `unmap_block_nmbm` on a remapped block that meets the condition. -/
lemma unmapBlock_spec (hc : Consistent c ni) (ha : Allocated c ni.dataBlockCount ni)
    (hh : Homed bad ni) (hb : block < ni.dataBlockCount) (hrow : InRow bad ni block) :
    Consistent c (unmapBlockNmbm c env ni block) ∧
      Allocated c (unmapBlockNmbm c env ni block).dataBlockCount (unmapBlockNmbm c env ni block) ∧
      Homed bad (unmapBlockNmbm c env ni block) ∧
      Unmaps bad (unmapBlockNmbm c env ni block) block := by
  have hlay := hc.layout
  obtain ⟨s, hs, hs1, hs2, -⟩ := id hrow
  cases hstart : unmapStart ni block with
  | none =>
    have := unmapStart_none hstart s hs.le
    omega
  | some start =>
    have hne : start ≠ block := by
      rintro rfl
      have := (unmapStart_some hstart).2.1
      have := hs2 start hs le_rfl
      omega
    obtain ⟨ni1, h1, h2⟩ := unmapped_some hb hstart hne
    obtain ⟨hlen, hsum⟩ := sum_lt hlay ha hh hb hstart hc.shaped.mapping
    obtain ⟨hself, hother⟩ := h2.mapping_eq hlen hsum
    have hhome := (original_sum_iff hlay ha hh hb hstart hne).mpr hrow
    rw [← hself] at hhome
    obtain ⟨hc1, ha1, hh1⟩ := h2.restored hc ha hh hother hhome
    rcases hu : nmbmUpdateInfoTable c env ni1 with ⟨r, ni2⟩
    have hun : unmapBlockNmbm c env ni block = ni2 := by
      rw [unmapBlockNmbm, h1]
      exact congrArg Prod.snd hu
    obtain ⟨hr, -, -⟩ := updateInfoTable_spec c env hc1.layout hu
    have hd : ni2.dataBlockCount = ni1.dataBlockCount :=
      (congrArg Inst.dataBlockCount hr.updates.frame :)
    have hm : ni2.blockMapping = ni1.blockMapping :=
      (congrArg Inst.blockMapping hr.updates.frame :)
    have ha2 : Allocated c ni2.dataBlockCount ni2 := hd ▸ ha1.updates hr.updates
    have hh2 : Homed bad ni2 := hh1.congr hm hd hr.updates.mgmtStartBa
    rw [hun]
    refine ⟨updateInfoTable_consistent c env hc1 hu, ha2, hh2, hh2.unmaps hr.layout ha2 ?_ ?_⟩
    · rw [hd, h2.dataBlockCount]
      exact hb
    · rw [Inst.mapping, hm, hr.updates.mgmtStartBa, h2.mgmtStartBa]
      exact (getElem?_original.mp hhome).1

/-- Otherwise a remapped block does not get its original block back. -/
lemma inRow_of_unmaps (hc : Consistent c ni) (ha : Allocated c ni.dataBlockCount ni)
    (hh : Homed bad ni) (hb : block < ni.dataBlockCount)
    (hge : ni.mappingBlocksBa ≤ (ni.mapping block).toNat)
    (h : Unmaps bad (unmapBlockNmbm c env ni block) block) : InRow bad ni block := by
  have hlay := hc.layout
  have hhome := h.home
  cases hstart : unmapStart ni block with
  | none =>
    have hun : unmapBlockNmbm c env ni block = ni := by
      rw [unmapBlockNmbm, unmapped, hstart]
      split <;> simp_all
    rw [hun] at hhome
    have := (getElem?_original.mp hhome).1
    have := hlay.mgmt_le
    omega
  | some start =>
    have hne : start ≠ block := by
      rintro rfl
      have := (unmapStart_some hstart).2.1
      omega
    obtain ⟨ni1, h1, h2⟩ := unmapped_some hb hstart hne
    obtain ⟨hlen, hsum⟩ := sum_lt hlay ha hh hb hstart hc.shaped.mapping
    have hg : Guarded ni1 := unmapped_guarded (fun _ => hlay.above) h1
    obtain ⟨e1, e2⟩ := updateInfoTable_mapping c env hg
    have hun : unmapBlockNmbm c env ni block = (nmbmUpdateInfoTable c env ni1).2 := by
      rw [unmapBlockNmbm, h1]
    rw [hun, e2, h2.mgmtStartBa, Inst.mapping, e1] at hhome
    have hself : (ni1.blockMapping.getD block 0xffffffff).toNat = _ := (h2.mapping_eq hlen hsum).1
    rw [hself] at hhome
    exact (original_sum_iff hlay ha hh hb hstart hne).mp hhome

lemma unmapBlock_stay (h : block < ni.dataBlockCount →
    (ni.mapping block).toNat < ni.mappingBlocksBa) : unmapBlockNmbm c env ni block = ni := by
  have hnone : unmapped ni block = none := by
    rw [unmapped]
    split
    · rfl
    · rename_i hb
      have hlt := h (by omega)
      have hstart : unmapStart ni block = some block := by
        cases block with
        | zero =>
          rw [unmapStart]
          exact if_neg (by omega)
        | succ block =>
          rw [unmapStart]
          exact if_neg (by omega)
      rw [hstart]
      exact if_pos rfl
  rw [unmapBlockNmbm, hnone]

/-! ## Mapping and remapping -/

/-- `nmbm_map_block` hands out a block behind the data area.  The first `d` logical blocks are the
mapped ones and the one that is mapped now. -/
lemma mapBlock_homed (d : ℕ) {lb : ℕ} {r : Bool} (hlay : Layout ni)
    (htop : ni.mappingBlocksTopBa < c.blockCount) (hh : Homed bad ni)
    (hlb : lb < ni.blockMapping.length) (hd : ∀ x < d, x = lb ∨ x < ni.dataBlockCount)
    (h : nmbmMapBlock c env ni lb = (r, ni')) :
    ni'.mappingBlocksTopBa < c.blockCount ∧ (r = false → Homed bad ni') ∧
      (r = true → Homed bad { ni' with dataBlockCount := d }) := by
  rcases mapBlock_cases c env h with ⟨rfl, rfl⟩ | ⟨r1, ni1, rfl, hu, rfl⟩ | ⟨pb, rfl, hne, hw, rfl⟩
  · exact ⟨htop, fun _ => hh, fun h => absurd h (by simp)⟩
  · obtain ⟨hr, -, -⟩ := updateInfoTable_spec c env hlay hu
    have h1 := hr.layout.top
    have h2 := hr.updates.mappingBlocksTopBa
    refine ⟨by dsimp only; omega, fun _ => ?_, fun h => absurd h (by simp)⟩
    exact hh.congr (congrArg Inst.blockMapping hr.updates.frame :)
      (congrArg Inst.dataBlockCount hr.updates.frame :) hr.updates.mgmtStartBa
  · have hbc : c.blockCount < 2 ^ 16 := c.total_lt
    have h1 := hlay.mgmt_le
    have h2 := hlay.top
    rw [nmbmBlockWalkDesc, if_neg (by omega)] at hw
    obtain ⟨h3, h4, -⟩ := blockWalkDescLoop_spec (by omega) hw
    have hpb : (UInt32.ofNat pb).toNat = pb := by
      rw [UInt32.toNat_ofNat', Nat.mod_eq_of_lt (by omega)]
    refine ⟨by dsimp only; omega, fun h => absurd h (by simp), fun _ => ?_⟩
    exact hh.set rfl hlb hd rfl (by omega) (by omega)

lemma remapBlock_homed {mappedBlock copyLen : ℕ} {r : Bool} (hlay : Layout ni)
    (ha : Allocated c ni.dataBlockCount ni) (hh : Homed bad ni)
    (h : remapBlockNmbm c env ni block mappedBlock copyLen = (r, ni')) : Homed bad ni' := by
  have hframe := setBlockState_frame ni mappedBlock blockStBad
  have hlay0 := setBlockState_layout hlay mappedBlock blockStBad
  have hcases := remapBlock_cases c env h
  generalize nmbmSetBlockState ni mappedBlock blockStBad = ni0 at hframe hcases hlay0
  have hm0 : ni0.blockMapping = ni.blockMapping := (congrArg Inst.blockMapping hframe :)
  have hd0 : ni0.dataBlockCount = ni.dataBlockCount := (congrArg Inst.dataBlockCount hframe :)
  have ht0 : ni0.mappingBlocksTopBa = ni.mappingBlocksTopBa :=
    (congrArg Inst.mappingBlocksTopBa hframe :)
  have hh0 : Homed bad ni0 := hh.congr hm0 hd0 (congrArg Inst.mgmtStartBa hframe :)
  have hlen := ha.length
  have hsig := ha.signature_lt
  have htop := ha.top_lt
  rcases hcases with ⟨-, -, rfl⟩ | ⟨-, hlt, hmap⟩ | ⟨ni1, r1, -, hlt, hmap, hu⟩
  · exact hh
  · exact (mapBlock_homed c env ni0.dataBlockCount hlay0 (by omega) hh0 (by rw [hm0]; omega)
      (fun x hx => Or.inr hx) hmap).2.1 rfl
  · have hh1 := (mapBlock_homed c env ni0.dataBlockCount hlay0 (by omega) hh0 (by rw [hm0]; omega)
      (fun x hx => Or.inr hx) hmap).2.2 rfl
    have hd1 := (mapBlock_frame c env hlay0 hmap).1
    have hlay1 := mapBlock_layout c env hlay0 hmap
    obtain ⟨hr, -, -⟩ := updateInfoTable_spec c env
      (⟨hlay1.mgmt_le, hlay1.top, hlay1.main, hlay1.backup⟩ :
        Layout { ni1 with chip := movedChip c env ni1 block mappedBlock copyLen }) hu
    exact hh1.congr (congrArg Inst.blockMapping hr.updates.frame :)
      ((congrArg Inst.dataBlockCount hr.updates.frame :).trans hd1) hr.updates.mgmtStartBa

/-! ## Creation -/

/-- The good blocks become the images of the logical blocks in ascending order. -/
lemma buildMappingTableLoop_original {k pb : ℕ} (hlen : pb + k ≤ ni.blockMapping.length)
    (hsmall : pb + k < 2 ^ 32)
    (hbad : ∀ x < pb + k, bad x = true ↔ nmbmGetBlockState ni x = blockStBad)
    (hlb : ∀ x < (original bad pb).length, (original bad pb)[x]? = some (ni.mapping x).toNat) :
    (nmbmBuildMappingTableLoop k pb (original bad pb).length ni).dataBlockCount =
        (original bad (pb + k)).length ∧
      ∀ x < (original bad (pb + k)).length, (original bad (pb + k))[x]? = some
        ((nmbmBuildMappingTableLoop k pb (original bad pb).length ni).mapping x).toNat := by
  induction k generalizing pb ni with
  | zero => exact ⟨rfl, hlb⟩
  | succ k ih =>
    have hle : (original bad pb).length ≤ pb := by
      have := (@length_original_add bad 0 pb).1
      simpa [original] using this
    have hsucc := @original_succ bad pb
    rw [nmbmBuildMappingTableLoop, show pb + (k + 1) = pb + 1 + k by omega]
    split
    · rename_i hst
      rw [if_pos ((hbad pb (by omega)).mpr hst), List.append_nil] at hsucc
      rw [← hsucc] at hlb ⊢
      exact ih (by omega) (by omega) (fun x hx => hbad x (by omega)) hlb
    · rename_i hst
      have hgood : bad pb = false := by
        by_contra hb
        exact hst ((hbad pb (by omega)).mp (by simpa using hb))
      rw [hgood, if_neg (by simp)] at hsucc
      have hlen1 : (original bad (pb + 1)).length = (original bad pb).length + 1 := by
        rw [hsucc, List.length_append, List.length_singleton]
      have hpb : (UInt32.ofNat pb).toNat = pb := by
        rw [UInt32.toNat_ofNat', Nat.mod_eq_of_lt (by omega)]
      rw [← hlen1]
      refine ih (by rw [List.length_set]; omega) (by omega) (fun x hx => hbad x (by omega))
        fun x hx => ?_
      rw [@mapping_set ni _ _ _ rfl (by omega) x, hsucc, List.getElem?_append]
      split
      · rename_i hx'
        rw [if_neg (by omega)]
        exact hlb x hx'
      · rw [if_pos (by omega), hpb, show x - (original bad pb).length = 0 by omega]
        rfl

/-- After `nmbm_build_mapping_table` every data block has its original block. -/
lemma buildMappingTable_homed (hlen : ni.blockMapping.length = c.blockCount)
    (hle : ni.mgmtStartBa ≤ c.blockCount)
    (hbad : ∀ x < ni.mgmtStartBa, bad x = true ↔ nmbmGetBlockState ni x = blockStBad) :
    Homed bad (nmbmBuildMappingTable c ni) := by
  have hbc : c.blockCount < 2 ^ 16 := c.total_lt
  have hmg := buildMappingTable_mgmtStartBa c ni
  obtain ⟨h1, h2⟩ := @buildMappingTableLoop_original bad ni ni.mgmtStartBa 0 (by omega) (by omega)
    (by rwa [Nat.zero_add]) (fun x hx => absurd hx (by simp [original]))
  rw [Nat.zero_add] at h1 h2
  have hnil : (original bad 0).length = 0 := rfl
  rw [hnil] at h1 h2
  set loop := nmbmBuildMappingTableLoop ni.mgmtStartBa 0 0 ni with hloop
  have hd : (nmbmBuildMappingTable c ni).dataBlockCount = loop.dataBlockCount := rfl
  have hfull : loop.blockMapping.length = ni.blockMapping.length :=
    (@buildMappingTableLoop_spec ni.mgmtStartBa 0 0 ni le_rfl (by omega) (by omega)
      ⟨fun x hx => absurd hx (Nat.not_lt_zero x), fun x hx => absurd hx (Nat.not_lt_zero x)⟩).2.1
  have hle' : (original bad ni.mgmtStartBa).length ≤ ni.mgmtStartBa := by
    have := (@length_original_add bad 0 ni.mgmtStartBa).1
    simpa [original] using this
  have hmap : ∀ x < loop.dataBlockCount,
      (nmbmBuildMappingTable c ni).mapping x = loop.mapping x := by
    intro x hx
    have htab : (nmbmBuildMappingTable c ni).blockMapping =
        loop.blockMapping.take loop.dataBlockCount ++
          List.replicate (c.blockCount - loop.dataBlockCount) 0xffffffff := rfl
    rw [Inst.mapping, Inst.mapping, htab, List.getD_eq_getElem?_getD,
      List.getD_eq_getElem?_getD, List.getElem?_append_left (by rw [List.length_take]; omega),
      List.getElem?_take_of_lt hx]
  have hhome : ∀ x < loop.dataBlockCount, (original bad ni.mgmtStartBa)[x]? =
      some ((nmbmBuildMappingTable c ni).mapping x).toNat := fun x hx => by
    rw [hmap x hx]
    exact h2 x (h1 ▸ hx)
  refine ⟨fun x hx _ => hmg ▸ hhome x hx, fun x hx => ?_⟩
  have := (getElem?_original.mp (hhome x hx)).1
  omega

lemma createMapLoop_homed {k : ℕ} (hc : Consistent c ni) (htop : ni.mappingBlocksTopBa < c.blockCount)
    (hh : Homed bad ni) (hlen : ni.dataBlockCount + k ≤ ni.blockMapping.length) :
    Homed bad (createMapLoop c env k ni.dataBlockCount ni) := by
  induction k generalizing ni with
  | zero => exact hh
  | succ k ih =>
    rw [createMapLoop]
    rcases hmap : nmbmMapBlock c env ni ni.dataBlockCount with ⟨r, ni1⟩
    have hc1 := mapBlock_consistent c env hc hmap
    obtain ⟨e1, -⟩ := mapBlock_frame c env hc.layout hmap
    obtain ⟨h1, h2, h3⟩ := mapBlock_homed c env (ni.dataBlockCount + 1) hc.layout htop hh
      (by omega) (fun x hx => by omega) hmap
    cases r with
    | false => exact h2 rfl
    | true =>
      have hlen1 : ni1.blockMapping.length = ni.blockMapping.length :=
        hc1.shaped.mapping.trans hc.shaped.mapping.symm
      have hc2 : Consistent c { ni1 with dataBlockCount := ni1.dataBlockCount + 1 } :=
        ⟨⟨hc1.layout.mgmt_le, hc1.layout.top, hc1.layout.main, hc1.layout.backup⟩,
          ⟨hc1.shaped.state, hc1.shaped.mapping, hc1.shaped.offsets⟩, hc1.accounted,
          fun hp hl hch => (hc1.current hp hl hch).congr rfl rfl rfl rfl⟩
      have h4 := h3 rfl
      rw [← e1] at h4 ⊢
      exact ih hc2 h1 h4 (by dsimp only; omega)

lemma createInfoTable_homed (hs : ni.Shaped c) (hmg : ni.mgmtStartBa < ni.signatureBa)
    (hsig : ni.signatureBa < c.blockCount) (hd : ni.dataBlockCount ≤ ni.mgmtStartBa)
    (hh : Homed bad ni) (h : nmbmCreateInfoTable c env ni = (true, ni')) : Homed bad ni' := by
  obtain ⟨ni2, ⟨hc2, hm2, hd2, hmg2, -, htop2, -, -⟩, h⟩ :=
    createInfoTable_rebuilt c env hs hmg hsig h
  have hlen : ni2.dataBlockCount + (ni2.mgmtStartBa - ni2.dataBlockCount) ≤
      ni2.blockMapping.length := by
    rw [hc2.shaped.mapping]
    omega
  have hh3 := createMapLoop_homed c env hc2 (by omega) (hh.congr hm2 hd2 hmg2) hlen
  obtain ⟨hc3, -⟩ := createMapLoop_spec c env hc2 hlen rfl
  obtain ⟨hu, -, -⟩ := updateInfoTable_spec c env hc3.layout h
  exact hh3.congr (congrArg Inst.blockMapping hu.updates.frame :)
    (congrArg Inst.dataBlockCount hu.updates.frame :) hu.updates.mgmtStartBa

lemma createInfoTable_remapped_homed {ni1 : Inst} (hmapped : Remapped c ni ni1)
    (hbad : ∀ x < ni.mgmtStartBa, bad x = true ↔ nmbmGetBlockState ni x = blockStBad)
    (h : nmbmCreateInfoTable c env ni1 = (true, ni')) : Homed bad ni' := by
  have hsig := hmapped.signature_lt
  have hlt := hmapped.mgmt_lt
  obtain ⟨hs, hm, hd, hmg, hle⟩ := hmapped.spec
  exact createInfoTable_homed c env hs (by omega) hsig hle
    ((buildMappingTable_homed c hmapped.shaped.mapping (by omega) hbad).congr hm hd
      (hmg.trans (buildMappingTable_mgmtStartBa c ni).symm)) h

/-! ## Loading -/

/-- The mapping and the data area are the same. -/
structure SameMapping (ni ni' : Inst) : Prop where
  blockMapping : ni'.blockMapping = ni.blockMapping
  dataBlockCount : ni'.dataBlockCount = ni.dataBlockCount
  mgmtStartBa : ni'.mgmtStartBa = ni.mgmtStartBa

namespace SameMapping

lemma trans {ni1 ni2 ni3 : Inst} (h : SameMapping ni1 ni2) (h' : SameMapping ni2 ni3) :
    SameMapping ni1 ni3 :=
  ⟨h'.blockMapping.trans h.blockMapping, h'.dataBlockCount.trans h.dataBlockCount,
    h'.mgmtStartBa.trans h.mgmtStartBa⟩

lemma of_touch {c : Conf} {lo hi : ℕ} {ni ni' : Inst} (h : Touch c lo hi ni ni') :
    SameMapping ni ni' :=
  ⟨(congrArg Inst.blockMapping h.frame :), (congrArg Inst.dataBlockCount h.frame :),
    h.mgmtStartBa⟩

end SameMapping

lemma sameMapping_writeInfoTable {ni ni' : Inst} {ba limit : ℕ} {r : Option (ℕ × ℕ)}
    (h : nmbmWriteInfoTable c env ni ba limit = (r, ni')) : SameMapping ni ni' := by
  have ht := touch_writeInfoTable c env ni ba limit
  rw [h] at ht
  exact SameMapping.of_touch ht

lemma sameMapping_writeDownward {k writeBa : ℕ} {ni ni' : Inst} {r : Option (ℕ × ℕ)}
    (h : writeDownward c env k writeBa ni = (r, ni')) : SameMapping ni ni' := by
  induction k generalizing writeBa ni with
  | zero =>
    rw [writeDownward, Prod.mk.injEq] at h
    obtain ⟨-, rfl⟩ := h
    exact ⟨rfl, rfl, rfl⟩
  | succ k ih =>
    rw [writeDownward] at h
    split at h
    · rename_i r1 ni1 hw
      rw [Prod.mk.injEq] at h
      obtain ⟨-, rfl⟩ := h
      exact sameMapping_writeInfoTable c env hw
    · rename_i ni1 hw
      exact (sameMapping_writeInfoTable c env hw).trans (ih h)

lemma sameMapping_rescueSingle (ni : Inst) :
    SameMapping ni (nmbmRescueSingleInfoTable c env ni).2 := by
  rw [nmbmRescueSingleInfoTable]
  split
  · rename_i tableStart tableEnd ni1 hw
    have h1 := sameMapping_writeInfoTable c env hw
    have h2 := SameMapping.of_touch (touch_eraseRange c env (nmbmMarkTablesClean
      { ni1 with backupTableBa := ni1.mainTableBa, mainTableBa := tableStart }) tableEnd
      ni1.mainTableBa)
    exact h1.trans ⟨h2.blockMapping, h2.dataBlockCount, h2.mgmtStartBa⟩
  · rename_i ni1 hw
    have h1 := sameMapping_writeInfoTable c env hw
    split
    · exact h1
    · split
      · rename_i ni2 hdown
        exact h1.trans (sameMapping_writeDownward c env hdown)
      · rename_i tableStart tableEnd ni2 hdown
        have h2 := sameMapping_writeDownward c env hdown
        have h3 := SameMapping.of_touch (touch_eraseRange c env ni2 ni2.mappingBlocksBa tableStart)
        exact (h1.trans h2).trans ⟨h3.blockMapping, h3.dataBlockCount, h3.mgmtStartBa⟩

lemma sameMapping_updateSingle (ni : Inst) (main : Bool) :
    SameMapping ni (nmbmUpdateSingleInfoTable c env ni main).2 := by
  rw [nmbmUpdateSingleInfoTable]
  split
  · split
    · rename_i hw
      have h1 := sameMapping_writeInfoTable c env hw
      exact ⟨h1.blockMapping, h1.dataBlockCount, h1.mgmtStartBa⟩
    · rename_i ni1 hw
      have h1 := sameMapping_writeInfoTable c env hw
      have h2 := sameMapping_rescueSingle c env
        { ni1 with mainTableBa := ni1.backupTableBa, backupTableBa := 0 }
      exact h1.trans ⟨h2.blockMapping, h2.dataBlockCount, h2.mgmtStartBa⟩
  · split
    · rename_i hw
      have h1 := sameMapping_writeInfoTable c env hw
      exact ⟨h1.blockMapping, h1.dataBlockCount, h1.mgmtStartBa⟩
    · rename_i hw
      have h1 := sameMapping_writeInfoTable c env hw
      exact ⟨h1.blockMapping, h1.dataBlockCount, h1.mgmtStartBa⟩

lemma sameMapping_restoreTables (ni : Inst) (mainWc backupWc : UInt32) :
    SameMapping ni (restoreTables c env ni mainWc backupWc).2 := by
  rw [restoreTables]
  split
  · exact sameMapping_rescueSingle c env ni
  · split
    · have h := sameMapping_updateSingle c env
        { ni with blockStateChanged := 1, blockMappingChanged := 1 } (decide (mainWc < backupWc))
      exact ⟨h.blockMapping, h.dataBlockCount, h.mgmtStartBa⟩
    · exact ⟨rfl, rfl, rfl⟩

/-- After a load the mapping is the one of a table that lies behind the data area. -/
lemma loadInfoTable_mapping (hlen : ni.infoTableCache.length = c.infoTableSize)
    (hm : ni.mgmtStartBa = ni.signature.mgmtStartPb.toNat)
    (hroom : c.infoTableBlocks ≤ ni.signatureBa)
    (h : nmbmLoadInfoTable c env ni ni.mgmtStartBa ni.signatureBa = (true, ni')) :
    ∃ ba img, ni.mgmtStartBa ≤ ba ∧ TableAt c ni.chip.flash ba img ∧
      ni'.blockMapping = tableMapping c img ∧ ni'.mgmtStartBa = ni.mgmtStartBa ∧
      ni'.dataBlockCount = (lastMapped ni' ni.mgmtStartBa).getD ni.mgmtStartBa := by
  obtain ⟨s, e, wc, top, niA, second, niB, backupBa, tableEnd, backupWc, backupTop, r, niR, h1, h2,
    h3, h4, rfl⟩ := loadInfoTable_cases c env h
  obtain ⟨h5, rfl, h6, -, hcases⟩ :=
    @searchInfoTable_twice c env (resetTables ni) _ _ _ _ _ _ _ _ hlen hroom h1 h2
  have hrestore := sameMapping_restoreTables c env (nmbmGenerateInfoTableCache c (settleTables niB
    wc top backupBa tableEnd backupWc backupTop)).2 wc backupWc
  rw [h4] at hrestore
  -- whichever table was taken over, the mapping is its mapping
  have hdone : ∀ ba img top, ni.mgmtStartBa ≤ ba →
      Taken c { resetTables ni with mainTableBa := s } ba img top niB →
      ∃ ba img, ni.mgmtStartBa ≤ ba ∧ TableAt c ni.chip.flash ba img ∧
        (protectIfExhausted r niR).blockMapping = tableMapping c img ∧
        (protectIfExhausted r niR).mgmtStartBa = ni.mgmtStartBa ∧
        (protectIfExhausted r niR).dataBlockCount =
          (lastMapped (protectIfExhausted r niR) ni.mgmtStartBa).getD ni.mgmtStartBa := by
    intro ba img top hba ht
    have esig : niB.signature = ni.signature := (congrArg Inst.signature ht.frame :)
    have ed : niB.dataBlockCount = ni.signature.mgmtStartPb.toNat :=
      (congrArg Inst.dataBlockCount ht.frame :)
    have emap : niR.blockMapping = niB.blockMapping := hrestore.blockMapping
    have edata : niR.dataBlockCount =
        (lastMapped niB niB.signature.mgmtStartPb.toNat).getD niB.dataBlockCount :=
      hrestore.dataBlockCount
    refine ⟨ba, img, hba, ht.table, emap.trans ht.mapping, ?_, ?_⟩
    · exact hrestore.mgmtStartBa.trans (congrArg Inst.mgmtStartBa ht.frame :)
    · have hlast : lastMapped (protectIfExhausted r niR) ni.mgmtStartBa =
          lastMapped niB ni.mgmtStartBa :=
        @lastMapped_congr niB (protectIfExhausted r niR) emap _
      rw [hlast, hm, ← ed]
      rw [esig, ← ed] at edata
      exact edata
  rcases hcases with ⟨-, img, ht⟩ | ⟨s2, wc2, top2, -, h7, -, -, ⟨-, img, ht⟩ | ⟨-, img, ht⟩⟩
  · exact hdone s img top h5 ht
  · exact hdone s img top h5 ht
  · exact hdone s2 img top2 (by omega) ht

/-! ## Attaching -/

/-- The states in which `nmbm_attach` calls `nmbm_build_mapping_table`: on a chip without a
signature, and on one without a table if creation is forced. -/
inductive Builds (chip : Chip) : Inst → Prop
  | new {ni1 : Inst}
      (hfind : nmbmFindSignature c env (nmbmInitStructure c chip) = (.missing, ni1)) :
      Builds chip (nmbmScanBadblocks c env { ni1 with mgmtStartBa := newMgmtStart c })
  | forced {sig : Signature} {sb : ℕ} {ni1 ni2 : Inst}
      (hfind : nmbmFindSignature c env (nmbmInitStructure c chip) = (.found sig sb, ni1))
      (hload : nmbmLoadInfoTable c env
        { ni1 with signature := sig, signatureBa := sb, mgmtStartBa := sig.mgmtStartPb.toNat }
        sig.mgmtStartPb.toNat sb = (false, ni2)) :
      Builds chip (nmbmScanBadblocks c env ni2)

/-- `bad` are the factory-bad blocks: those that are bad whenever the mapping table is built, and
those that the tables found on the flash leave out. -/
structure FactoryBad (chip : Chip) (bad : ℕ → Bool) : Prop where
  scanned : ∀ ni, Builds c env chip ni → ∀ pb < ni.mgmtStartBa,
    (bad pb = true ↔ nmbmGetBlockState ni pb = blockStBad)
  tables : ∀ sb sig, SignatureAt c chip.flash sb sig → ∀ ba img, sig.mgmtStartPb.toNat ≤ ba →
    TableAt c chip.flash ba img → ∀ lb < sig.mgmtStartPb.toNat,
    imageEntry c img lb < sig.mgmtStartPb.toNat →
    (original bad sig.mgmtStartPb.toNat)[lb]? = some (imageEntry c img lb)

lemma createNew_homed (hs : ni.Shaped c)
    (hbad : ∀ x < newMgmtStart c, bad x = true ↔ nmbmGetBlockState
      (nmbmScanBadblocks c env { ni with mgmtStartBa := newMgmtStart c }) x = blockStBad)
    (h : nmbmCreateNew c env ni = (true, ni')) : Homed bad ni' := by
  obtain ⟨ni1, hmapped, hcreate⟩ := createNew_cases c env hs h
  have hmg : (nmbmScanBadblocks c env { ni with mgmtStartBa := newMgmtStart c }).mgmtStartBa =
      newMgmtStart c := (congrArg Inst.mgmtStartBa (inspects_scanBadblocks c env _).frame :)
  exact createInfoTable_remapped_homed c env hmapped (by rw [hmg]; exact hbad) hcreate

lemma loadExisting_homed {sb : ℕ} {sig : Signature} {f : Flash} (hs : ni.Shaped c)
    (hlen : ni.infoTableCache.length = c.infoTableSize) (hflash : ni.chip.flash = f)
    (hsb : ni.signatureBa = sb) (hsig : ni.signature = sig) (hlt : sb < c.blockCount)
    (hat : SignatureAt c f sb sig) (hsane : SaneFlash c f)
    (htables : ∀ ba img, sig.mgmtStartPb.toNat ≤ ba → TableAt c f ba img →
      ∀ lb < sig.mgmtStartPb.toNat, imageEntry c img lb < sig.mgmtStartPb.toNat →
      (original bad sig.mgmtStartPb.toNat)[lb]? = some (imageEntry c img lb))
    (hforced : ∀ ni2, nmbmLoadInfoTable c env { ni with mgmtStartBa := sig.mgmtStartPb.toNat }
      sig.mgmtStartPb.toNat sb = (false, ni2) → ∀ x < sig.mgmtStartPb.toNat,
      (bad x = true ↔ nmbmGetBlockState (nmbmScanBadblocks c env ni2) x = blockStBad))
    (h : nmbmLoadExisting c env ni = (true, ni')) : Homed bad ni' := by
  subst hflash hsb hsig
  obtain ⟨-, hmg, hroom⟩ := hsane.room _ _ hat
  rcases loadExisting_cases c env hs (by omega) hlt h with hload | ⟨ni1, hload, hmapped, hcreate⟩
  · obtain ⟨ba, img, h1, h2, h3, h4, h5⟩ := @loadInfoTable_mapping c env
      { ni with mgmtStartBa := ni.signature.mgmtStartPb.toNat } ni' hlen rfl hroom hload
    dsimp only at h1 h2 h4 h5
    obtain ⟨h6, h7⟩ := lastMapped_sane h3 (h4.symm ▸ hsane.tables _ _ hat ba img h1 h2)
      (h5.trans (by rw [h4])) (by omega)
    have hentry : ∀ lb < ni'.dataBlockCount, (ni'.mapping lb).toNat = imageEntry c img lb :=
      fun lb hlb => mapping_eq_imageEntry h3 (by omega)
    refine ⟨fun lb hlb hlt' => ?_, fun lb hlb => ?_⟩
    · rw [hentry lb hlb] at hlt' ⊢
      rw [h4] at hlt' ⊢
      exact htables ba img h1 h2 lb (by omega) hlt'
    · rw [hentry lb hlb]
      exact h7 lb hlb
  · have hmg2 := (rescanned_shaped c env hs hload).2.1
    exact createInfoTable_remapped_homed c env hmapped (by rw [hmg2]; exact hforced ni1 hload) hcreate

lemma attach_homed {chip : Chip} (hsane : SaneFlash c chip.flash)
    (hfactory : FactoryBad c env chip bad) (h : nmbmAttach c env chip = some (0, ni)) :
    Homed bad ni := by
  rcases attach_cases c env h with
    ⟨ni1, hfind, hs1, hnew⟩ | ⟨sig, sb, ni1, hfind, hs1, hlen, hflash, hsb, hat, hload⟩
  · have hmg : (nmbmScanBadblocks c env { ni1 with mgmtStartBa := newMgmtStart c }).mgmtStartBa =
        newMgmtStart c := (congrArg Inst.mgmtStartBa (inspects_scanBadblocks c env _).frame :)
    exact createNew_homed c env hs1
      (fun x hx => hfactory.scanned _ (Builds.new hfind) x (by rw [hmg]; exact hx)) hnew
  · refine loadExisting_homed c env hs1 hlen hflash rfl rfl hsb hat hsane
      (hfactory.tables sb sig hat) (fun ni3 hl x hx => ?_) hload
    have hmg := (rescanned_shaped c env hs1 hl).2.1
    exact hfactory.scanned _ (Builds.forced hfind hl) x (by rw [hmg]; exact hx)

/-! ## Runs -/

/-- The states of a run in which every block that is unmapped meets the condition. -/
inductive Keeps (bad : ℕ → Bool) (chip : Chip) : Inst → Prop
  | attach {ni : Inst} (h : nmbmAttach c env chip = some (0, ni)) : Keeps bad chip ni
  | remap {ni : Inst} (h : Keeps bad chip ni) (block mappedBlock copyLen : ℕ) :
      Keeps bad chip (remapBlockNmbm c env ni block mappedBlock copyLen).2
  | unmap {ni : Inst} (h : Keeps bad chip ni) (hskip : ni.skipped = false) (block : ℕ)
      (hrow : block < ni.dataBlockCount → ni.mappingBlocksBa ≤ (ni.mapping block).toNat →
        InRow bad ni block) :
      Keeps bad chip (unmapBlockNmbm c env ni block)

variable {c env} {chip : Chip}

lemma Keeps.spec (hsane : SaneFlash c chip.flash) (hfactory : FactoryBad c env chip bad)
    (h : Keeps c env bad chip ni) :
    Consistent c ni ∧
      (ni.skipped = false → Allocated c ni.dataBlockCount ni ∧ Homed bad ni) := by
  induction h with
  | attach h =>
    obtain ⟨hc, ha⟩ := attach_spec c env hsane h
    exact ⟨hc, fun hskip => ⟨ha hskip, attach_homed c env hsane hfactory h⟩⟩
  | remap _ block mappedBlock copyLen ih =>
    obtain ⟨hc, hk⟩ := ih
    refine ⟨remapBlock_consistent c env hc rfl, fun hskip => ?_⟩
    obtain ⟨ha, hh⟩ := hk (remapBlock_skipped c env hc.layout rfl hskip)
    exact ⟨(remapBlock_allocated c env hc.layout ha rfl hskip).1,
      remapBlock_homed c env hc.layout ha hh rfl⟩
  | @unmap ni _ hskip block hrow ih =>
    obtain ⟨hc, hk⟩ := ih
    obtain ⟨ha, hh⟩ := hk hskip
    by_cases hmapped : block < ni.dataBlockCount ∧ ni.mappingBlocksBa ≤ (ni.mapping block).toNat
    · obtain ⟨h1, h2, h3, -⟩ :=
        unmapBlock_spec c env hc ha hh hmapped.1 (hrow hmapped.1 hmapped.2)
      exact ⟨h1, fun _ => ⟨h2, h3⟩⟩
    · rw [unmapBlock_stay c env fun hb => by
        by_contra hge
        exact hmapped ⟨hb, by omega⟩]
      exact ⟨hc, fun _ => ⟨ha, hh⟩⟩

/-- In every state of such a run, unmapping a remapped block gives it its original block, which is
not factory-bad and is no other block's, and puts the watermark below all blocks that are still
remapped to, if and only if the block meets the condition. -/
theorem unmap_restores_iff (hsane : SaneFlash c chip.flash) (hfactory : FactoryBad c env chip bad)
    (h : Keeps c env bad chip ni) (hskip : ni.skipped = false) (hb : block < ni.dataBlockCount)
    (hge : ni.mappingBlocksBa ≤ (ni.mapping block).toNat) :
    Unmaps bad (unmapBlockNmbm c env ni block) block ↔ InRow bad ni block := by
  obtain ⟨hc, hk⟩ := h.spec hsane hfactory
  obtain ⟨ha, hh⟩ := hk hskip
  exact ⟨inRow_of_unmaps c env hc ha hh hb hge,
    fun hrow => (unmapBlock_spec c env hc ha hh hb hrow).2.2.2⟩

/-- On an empty chip without bad blocks there are no factory-bad blocks. -/
lemma factoryBad_blank : FactoryBad oneBlockConf Env.ideal (blankChip fun _ => false)
    fun _ => false := by
  have hno : ∀ sb sig,
      ¬ SignatureAt oneBlockConf (blankChip fun _ => false).flash sb sig := by
    rintro sb sig ⟨j, -, bs, hpeek, -, hmagic, -⟩
    rw [rd32_peek_blank (fun _ => rfl) (by decide) hpeek] at hmagic
    exact absurd hmagic (by decide)
  refine ⟨fun ni hbuild => ?_, fun sb sig h => absurd h (hno sb sig)⟩
  cases hbuild with
  | @new ni1 hfind =>
    have hni1 : ni1 = (nmbmFindSignature oneBlockConf Env.ideal
        (nmbmInitStructure oneBlockConf (blankChip fun _ => false))).2 := by rw [hfind]
    have hgood : ∀ pb < 9, nmbmGetBlockState (nmbmScanBadblocks oneBlockConf Env.ideal
        { ni1 with mgmtStartBa := newMgmtStart oneBlockConf }) pb ≠ blockStBad := by
      rw [hni1]
      decide +kernel
    intro pb hpb
    have hmg : (nmbmScanBadblocks oneBlockConf Env.ideal
        { ni1 with mgmtStartBa := newMgmtStart oneBlockConf }).mgmtStartBa = 9 :=
      (congrArg Inst.mgmtStartBa (inspects_scanBadblocks oneBlockConf Env.ideal _).frame :)
    exact ⟨fun h => absurd h (by simp), fun h => absurd h (hgood pb (by omega))⟩
  | @forced sig sb ni1 ni2 hfind _ =>
    obtain ⟨-, hsig⟩ := findSignature_spec oneBlockConf Env.ideal hfind
    exact absurd (hsig sig sb rfl).2 (hno sb sig)

set_option maxRecDepth 100000 in
/-- Block 1 is remapped and unmapped again. -/
theorem unmap_restores_iff_blank : ∃ ni, 9 ≤ (ni.mapping 1).toNat ∧
    Unmaps (fun _ => false) (unmapBlockNmbm oneBlockConf Env.ideal ni 1) 1 := by
  have hany : ((nmbmRun oneBlockConf Env.ideal (blankChip fun _ => false) []).any fun ni =>
      let ni := (remapBlockNmbm oneBlockConf Env.ideal ni 1 1 0).2
      !ni.skipped && decide (1 < ni.dataBlockCount ∧ 9 ≤ (ni.mapping 1).toNat ∧
        ni.mappingBlocksBa ≤ (ni.mapping 1).toNat ∧ (ni.mapping 0).toNat < ni.mappingBlocksBa ∧
        (ni.mapping 0).toNat = 0 ∧ ni.mgmtStartBa = 9)) = true := by decide +kernel
  obtain ⟨ni, hrun, hni⟩ := (Option.any_eq_true _ _).mp hany
  simp only [Bool.and_eq_true, Bool.not_eq_true', decide_eq_true_eq] at hni
  obtain ⟨hskip, hb, h9, hge, hstart, h0, hmg⟩ := hni
  have hattach : nmbmAttach oneBlockConf Env.ideal (blankChip fun _ => false) = some (0, ni) := by
    rw [nmbmRun] at hrun
    split at hrun
    · rename_i ni0 h
      rw [List.foldl_nil, Option.some.injEq] at hrun
      rw [h, hrun]
    · exact absurd hrun (by simp)
  refine ⟨_, h9, (unmap_restores_iff (saneFlash_blank fun _ => rfl) factoryBad_blank
    ((Keeps.attach hattach).remap 1 1 0) hskip hb hge).mpr
    ⟨0, Nat.one_pos, hstart, fun x h1 h2 => ?_, fun pb h1 h2 => ⟨?_, rfl⟩⟩⟩
  · obtain rfl : x = 1 := by omega
    exact hge
  · omega

set_option maxRecDepth 100000 in
/-- With block 2 factory-bad, logical block 2 belongs to block 3; after a remap it is unmapped to
the bad block. -/
theorem unmap_restores_factory_bad :
    ¬ ∀ ni, Reach oneBlockConf Env.ideal (blankChip fun b => b == 2) ni →
      ∀ block < ni.dataBlockCount, ni.mappingBlocksBa ≤ (ni.mapping block).toNat →
      Unmaps (fun b => b == 2) (unmapBlockNmbm oneBlockConf Env.ideal ni block) block := by
  intro hall
  have hany : ((nmbmRun oneBlockConf Env.ideal (blankChip fun b => b == 2) [(2, 3, 0)]).any
      fun ni => decide (2 < ni.dataBlockCount ∧ ni.mappingBlocksBa ≤ (ni.mapping 2).toNat ∧
        ((unmapBlockNmbm oneBlockConf Env.ideal ni 2).mapping 2).toNat = 2)) = true := by
    decide +kernel
  obtain ⟨ni, hrun, hni⟩ := (Option.any_eq_true _ _).mp hany
  rw [decide_eq_true_eq] at hni
  have hgood := (hall ni (reach_run hrun) 2 hni.1 hni.2.1).good
  rw [hni.2.2] at hgood
  exact absurd hgood (by decide)

end Nmbm
