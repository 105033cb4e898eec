import Mt798x.Hnat.Events

/-!
# The ports of the running members

Which PSE ports and switch ports the running members of a group make up, and how these sets change
when a member comes or goes, or when a device stops.
-/

namespace Hnat

variable {dev : IfIndex → Option Dev} {members : List IfIndex} {ifindex : IfIndex} {port : Port}
  {reg : ℕ}

/-- The PSE ports that an interface adds: none unless it is running. -/
def livePorts (dev : IfIndex → Option Dev) (ifindex : IfIndex) : Bmp :=
  match dev ifindex with
  | some d => if d.running then d.kind.bmp else ∅
  | none => ∅

/-- The switch ports that an interface adds. -/
def liveTags (dev : IfIndex → Option Dev) (ifindex : IfIndex) : Stag :=
  match dev ifindex with
  | some d => if d.running then d.kind.stag else ∅
  | none => ∅

lemma getPseTxBmp_concat (dev : IfIndex → Option Dev) (members : List IfIndex) (ifindex : IfIndex) :
    getPseTxBmp dev (members ++ [ifindex]) =
      ((getPseTxBmp dev members).1 ∪ livePorts dev ifindex,
        (getPseTxBmp dev members).2 ∪ liveTags dev ifindex) := by
  unfold getPseTxBmp livePorts liveTags
  rw [List.foldl_append, List.foldl_cons, List.foldl_nil]
  cases dev ifindex with
  | none => simp
  | some d =>
    dsimp only
    split_ifs <;> simp

lemma mem_bmp : port ∈ (getPseTxBmp dev members).1 ↔ ∃ i ∈ members, port ∈ livePorts dev i := by
  induction members using List.reverseRecOn with
  | nil => simp [getPseTxBmp]
  | append_singleton members i ih =>
    rw [getPseTxBmp_concat, Finset.mem_union, ih]
    simp only [List.mem_append, List.mem_singleton]
    constructor
    · rintro (⟨j, hj, hport⟩ | hport)
      · exact ⟨j, Or.inl hj, hport⟩
      · exact ⟨i, Or.inr rfl, hport⟩
    · rintro ⟨j, hj | rfl, hport⟩
      · exact Or.inl ⟨j, hj, hport⟩
      · exact Or.inr hport

lemma DevKind.pdma_notMem (kind : DevKind) : Port.pdma ∉ kind.bmp := by
  cases kind with
  | dsa reg => cases reg <;> simp [DevKind.bmp]
  | gmac fp =>
    cases fp with
    | none => simp [DevKind.bmp]
    | some fp => cases fp <;> simp [DevKind.bmp]
  | whnat => simp [DevKind.bmp]
  | other => simp [DevKind.bmp]

lemma livePorts_subset : livePorts dev ifindex ⊆ getSingleDevPseBit dev ifindex := by
  unfold livePorts getSingleDevPseBit
  cases dev ifindex with
  | none => exact Finset.Subset.refl _
  | some d =>
    dsimp only
    split_ifs
    · exact Finset.Subset.refl _
    · exact Finset.empty_subset _

lemma pdma_notMem_bmp : Port.pdma ∉ (getPseTxBmp dev members).1 := by
  rw [mem_bmp]
  rintro ⟨i, _, hport⟩
  have hmem := livePorts_subset hport
  unfold getSingleDevPseBit at hmem
  cases hdev : dev i with
  | none => simp [hdev] at hmem
  | some d =>
    rw [hdev] at hmem
    exact d.kind.pdma_notMem hmem

@[simp] lemma livePorts_stop (dev : IfIndex → Option Dev) (ifindex i : IfIndex) :
    livePorts (stop dev ifindex) i = if i = ifindex then ∅ else livePorts dev i := by
  unfold livePorts stop
  by_cases h : i = ifindex
  · subst h
    cases dev i <;> simp
  · simp [h]

@[simp] lemma getSingleDevPseBit_stop (dev : IfIndex → Option Dev) (ifindex i : IfIndex) :
    getSingleDevPseBit (stop dev ifindex) i = getSingleDevPseBit dev i := by
  unfold getSingleDevPseBit stop
  by_cases h : i = ifindex
  · subst h
    cases dev i <;> simp
  · simp [h]

lemma bmp_stop (dev : IfIndex → Option Dev) (h : ifindex ∈ members) :
    (getPseTxBmp dev members).1 =
      (getPseTxBmp (stop dev ifindex) members).1 ∪ livePorts dev ifindex := by
  ext port
  rw [Finset.mem_union, mem_bmp, mem_bmp]
  simp only [livePorts_stop]
  constructor
  · rintro ⟨i, hi, hport⟩
    by_cases hne : i = ifindex
    · exact Or.inr (hne ▸ hport)
    · exact Or.inl ⟨i, hi, by simpa [hne] using hport⟩
  · rintro (⟨i, hi, hport⟩ | hport)
    · split_ifs at hport
      · simp at hport
      · exact ⟨i, hi, hport⟩
    · exact ⟨ifindex, h, hport⟩

lemma getPseTxBmp_congr {dev' : IfIndex → Option Dev} (h : ∀ i ∈ members, dev' i = dev i) :
    getPseTxBmp dev' members = getPseTxBmp dev members := by
  induction members using List.reverseRecOn with
  | nil => rfl
  | append_singleton members i ih =>
    rw [getPseTxBmp_concat, getPseTxBmp_concat,
      ih fun j hj => h j (List.mem_append_left _ hj)]
    simp only [livePorts, liveTags, h i (by simp)]

lemma getPseTxBmp_stop (h : ifindex ∉ members) :
    getPseTxBmp (stop dev ifindex) members = getPseTxBmp dev members := by
  refine getPseTxBmp_congr fun i hi => ?_
  have hne : i ≠ ifindex := fun heq => h (heq ▸ hi)
  simp [stop, hne]

end Hnat
