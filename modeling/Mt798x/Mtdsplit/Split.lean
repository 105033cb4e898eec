import Mt798x.Mtdsplit.Search

/-!
# What the splitters make of a flash

A splitter returns the partitions of the active image and the other half.  If the active image
cannot be split it leaves both halves as partitions, but returns the error, so nobody sees them
(`wfi_right_iff`).
-/

namespace Mtdsplit.Wfi

open Guard

/-! ## The parts of an image -/

/-- The partitions of an image of `size` bytes at `off` with files in these blocks. -/
def imageParts (off size : ℕ) (cfe : Option ℕ) (kernel rootfs : ℕ) : List Part :=
  (match cfe with
    | none => []
    | some cfe => [⟨"cferam", MTD_WRITEABLE, cfe, kernel - cfe⟩]) ++
  [⟨"firmware", 0, kernel, size - (kernel - off)⟩, ⟨"kernel", 0, kernel, rootfs - kernel⟩,
    ⟨"ubi", 0, rootfs, size - (rootfs - off)⟩]

/-- The kernel and the root file system of an image are in these blocks, the kernel not before
`start`. -/
def KernelAt (mtd : Mtd) (off size start kernel rootfs : ℕ) : Prop :=
  FirstFile mtd KERNEL_NAME start (off + size) kernel ∧
    ubifs_find mtd (kernel + mtd.erasesize) (off + size) = some rootfs

/-- The files of an image are in these blocks; `cfe_part` says whether there is a boot loader. -/
def ImageAt (mtd : Mtd) (off size : ℕ) (cfe_part : Bool) (cfe : Option ℕ) (kernel rootfs : ℕ) :
    Prop :=
  match cfe_part, cfe with
  | true, some cfe => FirstFile mtd (cferamPrefix mtd) off (off + size) cfe ∧
      KernelAt mtd off size (cfe + mtd.erasesize) kernel rootfs
  | false, none => KernelAt mtd off size off kernel rootfs
  | _, _ => False

/-- The bytes between two offsets are in partitions. -/
def Covers (parts : List Part) (lo hi : ℕ) : Prop :=
  ∀ x, lo ≤ x → x < hi → ∃ p ∈ parts, p.offset ≤ x ∧ x < p.offset + p.size

section Parse

variable {mtd : Mtd} {off size start kernel rootfs offs stop fuel : ℕ} {cfe_part : Bool}
  {cfe : Option ℕ} {r : Parsed}

lemma ubifs_find_bounds (h : ubifs_find mtd offs stop = some rootfs) :
    offs ≤ rootfs ∧ rootfs < stop := by
  fun_induction ubifs_find mtd offs stop with
  | case1 => cases h
  | case2 offs _ rc retlen hread hr ih =>
    obtain ⟨hle, hlt⟩ := ih h
    exact ⟨by omega, hlt⟩
  | case3 offs _ rc retlen hread hr hmagic =>
    cases h
    exact ⟨le_rfl, by omega⟩
  | case4 offs _ rc retlen hread hr hmagic ih =>
    obtain ⟨hle, hlt⟩ := ih h
    exact ⟨by omega, hlt⟩

lemma KernelAt.bounds (h : KernelAt mtd off size start kernel rootfs) :
    start ≤ kernel ∧ kernel < rootfs ∧ rootfs < off + size := by
  have hpos := mtd.erasesize_pos
  obtain ⟨hle, -⟩ := h.1.bounds
  obtain ⟨hle', hlt⟩ := ubifs_find_bounds h.2
  exact ⟨hle, by omega, hlt⟩

lemma parseKernel_ends (front : ℕ → List Part) (h : KernelAt mtd off size start kernel rootfs) :
    Ends (fun fuel => parseKernel mtd off size start fuel front)
      (.ok ⟨(front kernel ++ imageParts off size none kernel rootfs).length,
        front kernel ++ imageParts off size none kernel rootfs⟩) := by
  obtain ⟨n, hn⟩ := h.1.finds.ends
  refine ⟨n, fun fuel hfuel => ?_⟩
  show parseKernel mtd off size start fuel front = _
  rw [parseKernel, hn fuel hfuel, ok_bind]
  simp only [h.2]
  rfl

lemma parse_ends (h : ImageAt mtd off size cfe_part cfe kernel rootfs) :
    Ends (parse_bcm_wfi mtd off size cfe_part) (.ok ⟨(imageParts off size cfe kernel rootfs).length,
      imageParts off size cfe kernel rootfs⟩) := by
  cases cfe_part with
  | false =>
    cases cfe with
    | none => exact parseKernel_ends (fun _ => []) h
    | some cfe => exact h.elim
  | true =>
    cases cfe with
    | none => exact h.elim
    | some cfe =>
      obtain ⟨n, hn⟩ := h.1.finds.ends
      obtain ⟨m, hm⟩ := parseKernel_ends
        (fun kernel_off => [⟨"cferam", MTD_WRITEABLE, cfe, kernel_off - cfe⟩]) h.2
      refine ⟨max n m, fun fuel hfuel => ?_⟩
      rw [parse_bcm_wfi, if_pos rfl, hn fuel (by omega), ok_bind]
      exact hm fuel (by omega)

lemma exists_kernel {front : ℕ → List Part}
    (h : parseKernel mtd off size start fuel front = .ok r) (hret : 0 < r.ret) :
    ∃ kernel rootfs, KernelAt mtd off size start kernel rootfs := by
  rw [parseKernel] at h
  obtain ⟨found, hfound, hrest⟩ := bind_eq_ok h
  cases found with
  | error rc =>
    cases hrest
    have hle := (finds_of_eq hfound).error_nonpos
    exact absurd hret (not_lt.mpr hle)
  | file kernel name =>
    simp only at hrest
    split at hrest
    · cases hrest
      exact absurd hret (by decide)
    · rename_i rootfs hubi
      exact ⟨kernel, rootfs, (finds_of_eq hfound).firstFile, hubi⟩

lemma exists_image (h : parse_bcm_wfi mtd off size cfe_part fuel = .ok r) (hret : 0 < r.ret) :
    ∃ cfe kernel rootfs, ImageAt mtd off size cfe_part cfe kernel rootfs := by
  rw [parse_bcm_wfi] at h
  cases cfe_part with
  | false =>
    obtain ⟨kernel, rootfs, hk⟩ := exists_kernel h hret
    exact ⟨none, kernel, rootfs, hk⟩
  | true =>
    obtain ⟨found, hfound, hrest⟩ := bind_eq_ok h
    cases found with
    | error rc =>
      cases hrest
      have hle := (finds_of_eq hfound).error_nonpos
      exact absurd hret (not_lt.mpr hle)
    | file cfe name =>
      obtain ⟨kernel, rootfs, hk⟩ := exists_kernel hrest hret
      exact ⟨some cfe, kernel, rootfs, (finds_of_eq hfound).firstFile, hk⟩

end Parse

/-! ## What the partitions cover -/

section Cover

variable {mtd : Mtd} {off size kernel rootfs : ℕ} {cfe_part : Bool} {cfe : Option ℕ}
  {parts parts' : List Part} {lo hi : ℕ}

lemma Covers.mono (h : Covers parts lo hi) (hsub : ∀ p ∈ parts, p ∈ parts') :
    Covers parts' lo hi := by
  intro x hlo hhi
  obtain ⟨p, hp, hx⟩ := h x hlo hhi
  exact ⟨p, hsub p hp, hx⟩

lemma covers_of_mem {p : Part} (h : p ∈ parts) : Covers parts p.offset (p.offset + p.size) :=
  fun _ hlo hhi => ⟨p, h, hlo, hhi⟩

lemma imageParts_inside (h : ImageAt mtd off size cfe_part cfe kernel rootfs) :
    ∀ p ∈ imageParts off size cfe kernel rootfs, p.offset + p.size ≤ off + size := by
  cases cfe_part with
  | false =>
    cases cfe with
    | some cfe => exact h.elim
    | none =>
      obtain ⟨hle, hlt, hend⟩ := KernelAt.bounds h
      simp only [imageParts, List.nil_append, List.forall_mem_cons, List.not_mem_nil,
        false_imp_iff, implies_true, and_true]
      omega
  | true =>
    cases cfe with
    | none => exact h.elim
    | some cfe =>
      obtain ⟨hcfe, hk⟩ := h
      have hcfe' := hcfe.bounds
      obtain ⟨hle, hlt, hend⟩ := hk.bounds
      simp only [imageParts, List.cons_append, List.nil_append, List.forall_mem_cons,
        List.not_mem_nil, false_imp_iff, implies_true, and_true]
      omega

lemma imageParts_cover (h : ImageAt mtd off size cfe_part cfe kernel rootfs) {p : Part}
    (hp : (imageParts off size cfe kernel rootfs).head? = some p) :
    Covers (imageParts off size cfe kernel rootfs) p.offset (off + size) := by
  cases cfe_part with
  | false =>
    cases cfe with
    | some cfe => exact h.elim
    | none =>
      cases hp
      obtain ⟨hle, hlt, hend⟩ := KernelAt.bounds h
      refine fun x hlo hhi => ⟨_, List.mem_cons_self, hlo, ?_⟩
      show x < kernel + (size - (kernel - off))
      omega
  | true =>
    cases cfe with
    | none => exact h.elim
    | some cfe =>
      cases hp
      obtain ⟨hcfe, hk⟩ := h
      have hcfe' := hcfe.bounds
      obtain ⟨hle, hlt, hend⟩ := hk.bounds
      intro x hlo hhi
      rcases Nat.lt_or_ge x kernel with hx | hx
      · refine ⟨_, List.mem_cons_self, hlo, ?_⟩
        show x < cfe + (kernel - cfe)
        omega
      · refine ⟨_, List.mem_cons_of_mem _ List.mem_cons_self, hx, ?_⟩
        show x < kernel + (size - (kernel - off))
        omega

end Cover

/-! ## What a splitter should return -/

/-- A positive number of partitions inside the device, which cover the inactive half and either the
image that has been split or the whole active half. -/
structure Whole (mtd : Mtd) (bf1 bf2 : ℤ) (parsed r : Parsed) : Prop where
  pos : 0 < r.ret
  count : r.ret = r.parts.length
  inside : ∀ p ∈ r.parts, p.offset + p.size ≤ mtd.size
  inactive : Covers r.parts (inactive mtd bf1 bf2).off
    ((inactive mtd bf1 bf2).off + (inactive mtd bf1 bf2).size)
  image : 0 < parsed.ret → ∀ p, parsed.parts.head? = some p → Covers r.parts p.offset
    ((active mtd bf1 bf2).off + (active mtd bf1 bf2).size)
  active : parsed.ret ≤ 0 → Covers r.parts (active mtd bf1 bf2).off
    ((active mtd bf1 bf2).off + (active mtd bf1 bf2).size)

/-- The active half has an image that can be split. -/
def Splittable (mtd : Mtd) (bf1 bf2 : ℤ) (cfe_part : Bool) : Prop :=
  ∃ cfe kernel rootfs, ImageAt mtd (active mtd bf1 bf2).off (active mtd bf1 bf2).size cfe_part cfe
    kernel rootfs

section Whole

variable {mtd : Mtd} {bf1 bf2 : ℤ} {cfe_part : Bool} {parsed r : Parsed} {fuel : ℕ}

lemma active_le (mtd : Mtd) (bf1 bf2 : ℤ) :
    (active mtd bf1 bf2).off + (active mtd bf1 bf2).size ≤ mtd.size := by
  rw [active]
  split
  · show 0 + mtd.size / 2 ≤ mtd.size
    omega
  · show mtd.size / 2 + (mtd.size - mtd.size / 2) ≤ mtd.size
    omega

lemma inactive_le (mtd : Mtd) (bf1 bf2 : ℤ) :
    (inactive mtd bf1 bf2).off + (inactive mtd bf1 bf2).size ≤ mtd.size := by
  rw [inactive]
  split
  · show mtd.size / 2 + (mtd.size - mtd.size / 2) ≤ mtd.size
    omega
  · show 0 + mtd.size / 2 ≤ mtd.size
    omega

lemma whole_of_image {cfe : Option ℕ} {kernel rootfs : ℕ} {parts : List Part}
    (h : ImageAt mtd (active mtd bf1 bf2).off (active mtd bf1 bf2).size cfe_part cfe kernel rootfs)
    (hparts : parts = imageParts (active mtd bf1 bf2).off (active mtd bf1 bf2).size cfe kernel
      rootfs) :
    Whole mtd bf1 bf2 ⟨parts.length, parts⟩ (addInactive mtd bf1 bf2 ⟨parts.length, parts⟩) := by
  have hpos : (parts.length : ℤ) > 0 := by
    rw [hparts]
    cases cfe <;> simp [imageParts]
  rw [addInactive, if_pos hpos]
  refine ⟨?_, ?_, ?_, ?_, ?_, ?_⟩
  · exact Int.add_pos_of_pos_of_nonneg hpos (by decide)
  · rw [List.length_append]
    rfl
  · intro p hp
    rcases List.mem_append.mp hp with hp | hp
    · rw [hparts] at hp
      exact (imageParts_inside h p hp).trans (active_le mtd bf1 bf2)
    · rw [List.mem_singleton.mp hp]
      exact inactive_le mtd bf1 bf2
  · exact covers_of_mem (List.mem_append_right _ List.mem_cons_self)
  · intro _ p hp
    rw [hparts] at hp ⊢
    exact (imageParts_cover h hp).mono fun q hq => List.mem_append_left _ hq
  · exact fun hle => absurd hpos (not_lt.mpr hle)

lemma whole_iff (mtd : Mtd) (bf1 bf2 : ℤ) (cfe_part : Bool) :
    (∃ parsed r, Ends (parse_bcm_wfi mtd (active mtd bf1 bf2).off (active mtd bf1 bf2).size
        cfe_part) (.ok parsed) ∧ Ends (splitActive mtd bf1 bf2 cfe_part) (.ok r) ∧
          Whole mtd bf1 bf2 parsed r) ↔ Splittable mtd bf1 bf2 cfe_part := by
  constructor
  · rintro ⟨parsed, r, hparsed, hr, hwhole⟩
    obtain ⟨n, hn⟩ := hparsed
    obtain ⟨m, hm⟩ := hr
    have hsplit := hm (max n m) (by omega)
    rw [splitActive, hn (max n m) (by omega), ok_bind] at hsplit
    cases hsplit
    refine exists_image (hn n le_rfl) (not_le.mp fun hle => ?_)
    -- both halves are left, with the error
    have hpos := hwhole.pos
    rw [addInactive, if_neg (not_lt.mpr hle)] at hpos
    exact absurd hpos (not_lt.mpr hle)
  · rintro ⟨cfe, kernel, rootfs, h⟩
    obtain ⟨n, hn⟩ := parse_ends h
    refine ⟨_, _, ⟨n, hn⟩, ⟨n, fun fuel hfuel => ?_⟩, whole_of_image h rfl⟩
    rw [splitActive, hn fuel hfuel, ok_bind]

end Whole

/-! ## The splitters -/

/-- The splitter for two boot loaders returns the right partitions. -/
def SplitRight (mtd : Mtd) : Prop :=
  ∃ bf1 bf2, Ends (cferamFlags mtd) (.ok (bf1, bf2)) ∧ ∃ parsed r,
    Ends (parse_bcm_wfi mtd (active mtd bf1 bf2).off (active mtd bf1 bf2).size true) (.ok parsed) ∧
      Ends (mtdsplit_parse_bcm_wfi_split mtd) (.ok r) ∧ Whole mtd bf1 bf2 parsed r

/-- The searches for the boot loaders of both halves come to their ends inside, the flags in their
names can be read, and the half that they make the active one can be split. -/
def SplitFits (mtd : Mtd) : Prop :=
  ∃ cfe1 cfe2 bf1 bf2, Finds mtd CFERAM_NAME true 0 (mtd.size / 2) cfe1 ∧
    Finds mtd CFERAM_NAME true (mtd.size / 2) mtd.size cfe2 ∧
      cferam_bootflag_value cfe1 = .ok bf1 ∧ cferam_bootflag_value cfe2 = .ok bf2 ∧
        Splittable mtd bf1 bf2 true

/-- The splitter for two flags in partitions returns the right partitions. -/
def SerRight (mtd : Mtd) (mtd_bf1 mtd_bf2 : Option Mtd) : Prop :=
  ∃ r, Ends (mtdsplit_parse_ser_wfi mtd mtd_bf1 mtd_bf2) (.ok r) ∧ ∃ bf1 bf2 parsed,
    (∀ m1 m2, mtd_bf1 = some m1 → mtd_bf2 = some m2 → sercommFlags mtd m1 m2 = .ok (bf1, bf2) ∧
      Ends (parse_bcm_wfi mtd (active mtd bf1 bf2).off (active mtd bf1 bf2).size false)
        (.ok parsed)) ∧ Whole mtd bf1 bf2 parsed r

/-- The partitions with the flags are there and can be read, and the half that the flags make the
active one can be split. -/
def SerFits (mtd : Mtd) (mtd_bf1 mtd_bf2 : Option Mtd) : Prop :=
  ∃ m1 m2 bf1 bf2, mtd_bf1 = some m1 ∧ mtd_bf2 = some m2 ∧
    sercommFlags mtd m1 m2 = .ok (bf1, bf2) ∧ Splittable mtd bf1 bf2 false

lemma cferamFlags_ends_iff {mtd : Mtd} {bf1 bf2 : ℤ} :
    Ends (cferamFlags mtd) (.ok (bf1, bf2)) ↔ ∃ cfe1 cfe2,
      Finds mtd CFERAM_NAME true 0 (mtd.size / 2) cfe1 ∧
        Finds mtd CFERAM_NAME true (mtd.size / 2) mtd.size cfe2 ∧
          cferam_bootflag_value cfe1 = .ok bf1 ∧ cferam_bootflag_value cfe2 = .ok bf2 := by
  constructor
  · intro h
    obtain ⟨fuel, hfuel⟩ := h.exists
    rw [cferamFlags] at hfuel
    obtain ⟨cfe1, h1, hfuel⟩ := bind_eq_ok hfuel
    obtain ⟨cfe2, h2, hfuel⟩ := bind_eq_ok hfuel
    obtain ⟨b1, hb1, hfuel⟩ := bind_eq_ok hfuel
    obtain ⟨b2, hb2, hfuel⟩ := bind_eq_ok hfuel
    cases hfuel
    exact ⟨cfe1, cfe2, finds_of_eq h1, finds_of_eq h2, hb1, hb2⟩
  · rintro ⟨cfe1, cfe2, h1, h2, hb1, hb2⟩
    obtain ⟨n, hn⟩ := h1.ends
    obtain ⟨m, hm⟩ := h2.ends
    refine ⟨max n m, fun fuel hfuel => ?_⟩
    rw [cferamFlags, hn fuel (by omega), ok_bind, hm fuel (by omega), ok_bind, hb1, ok_bind, hb2,
      ok_bind]

lemma splitRight_iff (mtd : Mtd) : SplitRight mtd ↔ SplitFits mtd := by
  constructor
  · rintro ⟨bf1, bf2, hflags, parsed, r, hparsed, hr, hwhole⟩
    obtain ⟨cfe1, cfe2, h1, h2, hb1, hb2⟩ := cferamFlags_ends_iff.mp hflags
    refine ⟨cfe1, cfe2, bf1, bf2, h1, h2, hb1, hb2,
      (whole_iff mtd bf1 bf2 true).mp ⟨parsed, r, hparsed, ?_, hwhole⟩⟩
    obtain ⟨n, hn⟩ := hflags
    obtain ⟨m, hm⟩ := hr
    refine ⟨max n m, fun fuel hfuel => ?_⟩
    rw [← hm fuel (by omega), mtdsplit_parse_bcm_wfi_split, hn fuel (by omega), ok_bind]
  · rintro ⟨cfe1, cfe2, bf1, bf2, h1, h2, hb1, hb2, hsplit⟩
    have hflags := cferamFlags_ends_iff.mpr ⟨cfe1, cfe2, h1, h2, hb1, hb2⟩
    obtain ⟨parsed, r, hparsed, hr, hwhole⟩ := (whole_iff mtd bf1 bf2 true).mpr hsplit
    refine ⟨bf1, bf2, hflags, parsed, r, hparsed, ?_, hwhole⟩
    obtain ⟨n, hn⟩ := hflags
    obtain ⟨m, hm⟩ := hr
    refine ⟨max n m, fun fuel hfuel => ?_⟩
    rw [mtdsplit_parse_bcm_wfi_split, hn fuel (by omega), ok_bind]
    exact hm fuel (by omega)

lemma serRight_iff (mtd : Mtd) (mtd_bf1 mtd_bf2 : Option Mtd) :
    SerRight mtd mtd_bf1 mtd_bf2 ↔ SerFits mtd mtd_bf1 mtd_bf2 := by
  constructor
  · rintro ⟨r, hr, bf1, bf2, parsed, hknown, hwhole⟩
    obtain ⟨n, hn⟩ := hr
    cases mtd_bf1 with
    | none =>
      have hmissing := hn n le_rfl
      cases hmissing
      exact absurd hwhole.pos (by decide)
    | some m1 =>
      cases mtd_bf2 with
      | none =>
        have hmissing := hn n le_rfl
        cases hmissing
        exact absurd hwhole.pos (by decide)
      | some m2 =>
        obtain ⟨hflags, hparsed⟩ := hknown m1 m2 rfl rfl
        refine ⟨m1, m2, bf1, bf2, rfl, rfl, hflags,
          (whole_iff mtd bf1 bf2 false).mp ⟨parsed, r, hparsed, ⟨n, fun fuel hfuel => ?_⟩, hwhole⟩⟩
        rw [← hn fuel hfuel, mtdsplit_parse_ser_wfi, hflags, ok_bind]
  · rintro ⟨m1, m2, bf1, bf2, rfl, rfl, hflags, hsplit⟩
    obtain ⟨parsed, r, hparsed, ⟨n, hn⟩, hwhole⟩ := (whole_iff mtd bf1 bf2 false).mpr hsplit
    refine ⟨r, ⟨n, fun fuel hfuel => ?_⟩, bf1, bf2, parsed, ?_, hwhole⟩
    · rw [mtdsplit_parse_ser_wfi, hflags, ok_bind]
      exact hn fuel hfuel
    · intro a b ha hb
      cases ha
      cases hb
      exact ⟨hflags, hparsed⟩

/-- When the search for a file and the two splitters do what they should. -/
theorem wfi_right_iff (mtd : Mtd) :
    (∀ want out start stop, FindRight mtd want out start stop ↔
      ∃ r, Finds mtd want out start stop r) ∧
    (SplitRight mtd ↔ SplitFits mtd) ∧
    ∀ mtd_bf1 mtd_bf2, SerRight mtd mtd_bf1 mtd_bf2 ↔ SerFits mtd mtd_bf1 mtd_bf2 :=
  ⟨findRight_iff mtd, splitRight_iff mtd, serRight_iff mtd⟩

/-- An erased flash of two blocks. -/
def erased : Mtd where
  size := 128
  erasesize := 64
  flash := fun _ => 0xff
  mtd_read := fun _ len => (0, len)
  host := .big
  cferam := CFERAM_NAME
  erasesize_pos := by decide
  mtd_read_nonpos := fun _ _ => le_rfl

/-- On an erased flash the splitter returns an error, and the two halves are lost. -/
theorem split_erased : ¬ SplitRight erased := by
  intro h
  obtain ⟨cfe1, cfe2, bf1, bf2, -, -, -, -, cfe, kernel, rootfs, himage⟩ :=
    (splitRight_iff erased).mp h
  cases cfe with
  | none => exact himage
  | some cfe =>
    obtain ⟨tr, w, hsearch, -⟩ := himage.1
    have hones : Bytes.get16 erased.host (FlatImage.slice erased.flash cfe 2) = 0xffff := by
      simp [erased, FlatImage.slice, Bytes.get16, List.range_succ]
    have hmagic := (hsearch.passed.2 cfe w rfl).2.2.1.2
    rw [hones] at hmagic
    exact absurd hmagic (by decide)

end Mtdsplit.Wfi
