import Mt798x.Hnat.Events

/-!
# Requests to the multicast blacklist

A request names an address and the length of a prefix.  The driver stores the word
`0xffffffff << (32 - mask)` for it, for both families, and compares the stored word when it looks for the entry of a request.
For IPv6 it takes that word for a length again when it looks for the groups.

A request is served as its user expects, in every state, exactly if it is an IPv4 one with a mask
from 1 to 31 whose network is not zero (`blacklists_iff`).
-/

namespace Hnat

/-! ## What a request asks for -/

/-- The words of an address. -/
def Ip.words : Ip → List ℕ
  | .v4 ip => [ip]
  | .v6 w0 w1 w2 w3 => [w0, w1, w2, w3]

/-- A bit of an address, counted from the first one. -/
def Ip.bit (ip : Ip) (i : ℕ) : Bool := (ip.words.getD (i / 32) 0).testBit (31 - i % 32)

/-- The bits of an address. -/
def Ip.bits (ip : Ip) : ℕ := 32 * ip.words.length

/-- Two addresses of one family that have the same first bits. -/
def Agrees (mask : ℕ) (a b : Ip) : Prop := a.bits = b.bits ∧ ∀ i < mask, a.bit i = b.bit i

/-- The count of the shift `0xffffffff << (32 - mask)`, on 32 bits. -/
def shiftCount (mask : ℕ) : ℕ := ((32 - (mask : ℤ)) % 2 ^ 32).toNat

/-- The request is served as its user expects. -/
structure Blacklists (cfg : Cfg) (s : St) (ip : Ip) (mask : ℕ) : Prop where
  /-- the shift of a word by its whole width or more means nothing -/
  shift : shiftCount mask < 32
  /-- no other request is taken for this one -/
  distinct : ∀ ip' mask', mask' ≤ ip'.bits → (ip', mask') ≠ (ip, mask) →
    ¬blistEntryMatch ⟨ip, checkMask mask⟩ ip' mask'
  /-- an addition unbinds the groups of the prefix and no others -/
  adds : (∀ m ∈ s.blist, ¬blistEntryMatch m ip mask) →
    List.Forall₂
      (fun g g' => (Agrees mask g.ip ip → g' = g.unbind) ∧ (¬Agrees mask g.ip ip → g' = g))
      s.groups (blistHandle cfg s ip mask true).groups
  /-- their flow entries are deleted -/
  deletes : (∀ m ∈ s.blist, ¬blistEntryMatch m ip mask) →
    ∀ g ∈ s.groups, Agrees mask g.ip ip → ∀ ppe idx, g.ppeId = some ppe → g.foeIdx = some idx →
      ppe < cfg.ppeNum → idx < cfg.foeNum →
      ((blistHandle cfg s ip mask true).hw.foe ppe idx).state = .invalid
  /-- the other flow entries are left alone -/
  keeps : ∀ ppe idx, (∀ g ∈ s.groups, Agrees mask g.ip ip → g.ppeId = some ppe →
      g.foeIdx ≠ some idx ∧ g.foeIdx ≠ none) →
    (blistHandle cfg s ip mask true).hw.foe ppe idx = s.hw.foe ppe idx
  /-- a second addition leaves the one entry and changes nothing else -/
  twice : blistHandle cfg (blistHandle cfg s ip mask true) ip mask true =
      blistHandle cfg s ip mask true ∧
    (blistHandle cfg s ip mask true).blist.countP (fun m => blistEntryMatch m ip mask) = 1
  /-- a removal takes the entry of the request and no other -/
  removes : (blistHandle cfg s ip mask false).blist =
    s.blist.filter fun m => !blistEntryMatch m ip mask

/-- The requests that are served. -/
def Served (ip : Ip) (mask : ℕ) : Prop :=
  ip.bits = 32 ∧ 1 ≤ mask ∧ mask ≤ 31 ∧ ∃ i < mask, ip.bit i = true

/-! ## The stored mask -/

lemma testBit_checkMask {mask : ℕ} (h1 : 1 ≤ mask) (h32 : mask ≤ 32) (i : ℕ) :
    (checkMask mask).testBit i = decide (32 - mask ≤ i ∧ i < 32) := by
  have hcount : ((32 - (mask : ℤ)) % 32).toNat = 32 - mask := by omega
  have hones : (0xffffffff : ℕ) = 2 ^ 32 - 1 := rfl
  rw [checkMask, hcount, hones, Nat.testBit_mod_two_pow, Nat.testBit_shiftLeft,
    Nat.testBit_two_pow_sub_one]
  by_cases hlow : 32 - mask ≤ i
  · by_cases hhigh : i < 32 <;> simp [hlow, hhigh]
    omega
  · simp [hlow]

lemma checkMask_add (mask : ℕ) : checkMask (mask + 32) = checkMask mask := by
  have hcount : (32 - ((mask + 32 : ℕ) : ℤ)) % 32 = (32 - (mask : ℤ)) % 32 := by omega
  rw [checkMask, checkMask, hcount]

lemma checkMask_inj {m n : ℕ} (h1 : 1 ≤ m) (h31 : m ≤ 31) (hn : n ≤ 32)
    (h : checkMask m = checkMask n) : m = n := by
  obtain ⟨n', hn1, hn32, heq, hsame⟩ : ∃ n', 1 ≤ n' ∧ n' ≤ 32 ∧ checkMask n = checkMask n' ∧
      (n' = n ∨ n' = 32) := by
    rcases Nat.eq_zero_or_pos n with rfl | hpos
    · exact ⟨32, by decide, le_rfl, (checkMask_add 0).symm, .inr rfl⟩
    · exact ⟨n, hpos, hn, rfl, .inl rfl⟩
  rw [heq] at h
  have hbit : ∀ i, decide (32 - m ≤ i ∧ i < 32) = decide (32 - n' ≤ i ∧ i < 32) := by
    intro i
    rw [← testBit_checkMask h1 (by omega), h, testBit_checkMask hn1 hn32]
  have hm := hbit (32 - m)
  have hn' := hbit (32 - n')
  simp only [decide_eq_decide] at hm hn'
  omega

lemma and_checkMask_iff {mask : ℕ} (h1 : 1 ≤ mask) (h32 : mask ≤ 32) (a b : ℕ) :
    a &&& checkMask mask = b &&& checkMask mask ↔
      ∀ i < mask, a.testBit (31 - i) = b.testBit (31 - i) := by
  constructor
  · intro h i hi
    have hbit := congrArg (fun n => Nat.testBit n (31 - i)) h
    simp only [Nat.testBit_and, testBit_checkMask h1 h32] at hbit
    have hin : 32 - mask ≤ 31 - i ∧ 31 - i < 32 := by omega
    simpa [hin] using hbit
  · intro h
    refine Nat.eq_of_testBit_eq fun j => ?_
    rw [Nat.testBit_and, Nat.testBit_and, testBit_checkMask h1 h32]
    by_cases hin : 32 - mask ≤ j ∧ j < 32
    · have hj := h (31 - j) (by omega)
      rw [show 31 - (31 - j) = j by omega] at hj
      rw [hj]
    · have hout : decide (32 - mask ≤ j ∧ j < 32) = false := decide_eq_false hin
      rw [hout, Bool.and_false, Bool.and_false]

/-! ## What an addition does -/

section Addition

variable {cfg : Cfg} {dev : IfIndex → Option Dev} {m : Blist} {g : Group} {groups : List Group}
  {hw : Hw} {s : St} {ip : Ip} {mask ppe idx : ℕ}

lemma groupTeardownNpu_group (cfg : Cfg) (dev : IfIndex → Option Dev) (g : Group) (hw : Hw) :
    (groupTeardownNpu cfg dev g hw).1.unbind = g.unbind ∧
      (groupTeardownNpu cfg dev g hw).1.ppeId = g.ppeId ∧
      (groupTeardownNpu cfg dev g hw).1.foeIdx = g.foeIdx := by
  unfold groupTeardownNpu
  cases getHwFoe g with
  | none => exact ⟨rfl, rfl, rfl⟩
  | some ref => exact ⟨rfl, rfl, rfl⟩

lemma npuDelete_foe (hw : Hw) (dst : Ip) (port : ℕ) : (npuDelete hw dst port).1.foe = hw.foe := by
  unfold npuDelete
  split <;> rfl

lemma groupTeardownNpu_foe (cfg : Cfg) (dev : IfIndex → Option Dev) (g : Group) (hw : Hw) :
    (groupTeardownNpu cfg dev g hw).2.foe = hw.foe := by
  have hmulti : ∀ (ports : List ℕ) (acc : Hw × ℤ) (dst : Ip),
      (ports.foldl (fun acc port => npuDelete acc.1 dst port) acc).1.foe = acc.1.foe := by
    intro ports
    induction ports with
    | nil => exact fun _ _ => rfl
    | cons port ports ih => exact fun acc dst => (ih _ dst).trans (npuDelete_foe acc.1 dst port)
  unfold groupTeardownNpu
  cases getHwFoe g with
  | none => rfl
  | some ref =>
    dsimp only
    unfold npuDeleteStations
    split
    · exact hmulti _ _ _
    · rfl

lemma blistGroup_group (cfg : Cfg) (dev : IfIndex → Option Dev) (m : Blist) (g : Group) (hw : Hw) :
    (blistGroup cfg dev m g hw).1 = if ipMatchBlist g m then g.unbind else g := by
  unfold blistGroup
  split
  · exact (groupTeardownNpu_group cfg dev g hw).1
  · rfl

lemma blistGroup_foe (cfg : Cfg) (dev : IfIndex → Option Dev) (m : Blist) (g : Group) (hw : Hw) :
    (blistGroup cfg dev m g hw).2.foe =
      if ipMatchBlist g m then (entryDelete cfg hw g.ppeId g.foeIdx).foe else hw.foe := by
  obtain ⟨-, hppe, hfoe⟩ := groupTeardownNpu_group cfg dev g hw
  unfold blistGroup
  split
  · show (entryDelete cfg (groupTeardownNpu cfg dev g hw).2 _ _).foe = _
    have hsame := groupTeardownNpu_foe cfg dev g hw
    rw [hppe, hfoe]
    unfold entryDelete
    cases g.ppeId with
    | none => exact hsame
    | some ppe =>
      cases g.foeIdx with
      | none =>
        dsimp only
        split <;> simp only [hsame]
      | some idx =>
        dsimp only
        split
        · exact hsame
        · split
          · exact hsame
          · simp only [Hw.set, hsame]
  · rfl

lemma sweep_map {f : Group → Hw → Group × Hw} {F : Group → Group} (h : ∀ g hw, (f g hw).1 = F g)
    (groups : List Group) (hw : Hw) : (sweep f groups hw).1 = groups.map F := by
  induction groups generalizing hw with
  | nil => rfl
  | cons g groups ih =>
    show (f g hw).1 :: (sweep f groups (f g hw).2).1 = _
    rw [h, ih]
    rfl

lemma entryDelete_invalid (h : (hw.foe ppe idx).state = .invalid) (p i : Option ℕ) :
    ((entryDelete cfg hw p i).foe ppe idx).state = .invalid := by
  cases p with
  | none => exact h
  | some p =>
    unfold entryDelete
    dsimp only
    split
    · exact h
    · cases i with
      | none =>
        by_cases hp : ppe = p
        · subst hp
          simp only [Function.update_self]
          split
          · rfl
          · exact h
        · simpa [Function.update_of_ne hp] using h
      | some i =>
        dsimp only
        split
        · exact h
        · by_cases hp : ppe = p
          · subst hp
            by_cases hi : idx = i
            · subst hi
              simp [Hw.set, Foe.delete]
            · simpa [Hw.set, Function.update_of_ne hi] using h
          · simpa [Hw.set, Function.update_of_ne hp] using h

lemma entryDelete_self (hppe : ppe < cfg.ppeNum) (hidx : idx < cfg.foeNum) :
    ((entryDelete cfg hw (some ppe) (some idx)).foe ppe idx).state = .invalid := by
  simp [entryDelete, Nat.not_le.mpr hppe, Nat.not_le.mpr hidx, Hw.set, Foe.delete]

lemma entryDelete_other {p i : Option ℕ} (h : p = some ppe → i ≠ some idx ∧ i ≠ none) :
    (entryDelete cfg hw p i).foe ppe idx = hw.foe ppe idx := by
  cases p with
  | none => rfl
  | some p =>
    unfold entryDelete
    dsimp only
    split
    · rfl
    · cases i with
      | none =>
        by_cases hp : ppe = p
        · exact absurd rfl (h (congrArg some hp.symm)).2
        · simp [Function.update_of_ne hp]
      | some i =>
        dsimp only
        split
        · rfl
        · by_cases hp : ppe = p
          · subst hp
            have hi : idx ≠ i := fun hi => (h rfl).1 (congrArg some hi.symm)
            simp [Hw.set, Function.update_of_ne hi]
          · simp [Hw.set, Function.update_of_ne hp]

/-- The flow entries behind a walk that deletes those of some groups. -/
lemma sweep_foe (cfg : Cfg) (dev : IfIndex → Option Dev) (m : Blist) (groups : List Group) (hw : Hw)
    (ppe idx : ℕ) :
    ((hw.foe ppe idx).state = .invalid →
        ((sweep (blistGroup cfg dev m) groups hw).2.foe ppe idx).state = .invalid) ∧
      (∀ g ∈ groups, ipMatchBlist g m → g.ppeId = some ppe → g.foeIdx = some idx →
        ppe < cfg.ppeNum → idx < cfg.foeNum →
        ((sweep (blistGroup cfg dev m) groups hw).2.foe ppe idx).state = .invalid) ∧
      ((∀ g ∈ groups, ipMatchBlist g m → g.ppeId = some ppe →
          g.foeIdx ≠ some idx ∧ g.foeIdx ≠ none) →
        (sweep (blistGroup cfg dev m) groups hw).2.foe ppe idx = hw.foe ppe idx) := by
  induction groups generalizing hw with
  | nil => exact ⟨id, by simp, fun _ => rfl⟩
  | cons g groups ih =>
    obtain ⟨hstay, hdel, hkeep⟩ := ih (blistGroup cfg dev m g hw).2
    have hrest : (sweep (blistGroup cfg dev m) (g :: groups) hw).2 =
        (sweep (blistGroup cfg dev m) groups (blistGroup cfg dev m g hw).2).2 := rfl
    have hfoe := blistGroup_foe cfg dev m g hw
    rw [hrest]
    refine ⟨fun h => hstay ?_, ?_, fun h =>
      (hkeep fun x hx => h x (List.mem_cons_of_mem g hx)).trans ?_⟩
    · rw [hfoe]
      split
      · exact entryDelete_invalid h _ _
      · exact h
    · intro x hx hmatch hppe hidx hppe' hidx'
      rcases List.mem_cons.mp hx with rfl | hx
      · refine hstay ?_
        rw [hfoe, if_pos hmatch, hppe, hidx]
        exact entryDelete_self hppe' hidx'
      · exact hdel x hx hmatch hppe hidx hppe' hidx'
    · rw [hfoe]
      split
      · rename_i hmatch
        exact entryDelete_other (h g List.mem_cons_self hmatch)
      · rfl

end Addition

/-! ## The entries -/

section Entries

variable {cfg : Cfg} {s : St} {m : Blist} {ip : Ip} {mask : ℕ}

lemma blistEntryMatch_iff : blistEntryMatch m ip mask ↔ m = ⟨ip, checkMask mask⟩ := by
  obtain ⟨ip', mask'⟩ := m
  simp [blistEntryMatch]

lemma blistHandle_add (cfg : Cfg) (s : St) (ip : Ip) (mask : ℕ) :
    (⟨ip, checkMask mask⟩ ∈ s.blist ∧ blistHandle cfg s ip mask true = s) ∨
      (⟨ip, checkMask mask⟩ ∉ s.blist ∧ blistHandle cfg s ip mask true =
        { s with
          groups := (sweep (blistGroup cfg s.dev ⟨ip, checkMask mask⟩) s.groups s.hw).1
          hw := (sweep (blistGroup cfg s.dev ⟨ip, checkMask mask⟩) s.groups s.hw).2
          blist := ⟨ip, checkMask mask⟩ :: s.blist }) := by
  have hany : (s.blist.any fun m => blistEntryMatch m ip mask) = true ↔
      ⟨ip, checkMask mask⟩ ∈ s.blist := by
    simp only [List.any_eq_true, blistEntryMatch_iff]
    exact ⟨fun ⟨m, hm, heq⟩ => heq ▸ hm, fun h => ⟨_, h, rfl⟩⟩
  rw [blistHandle, if_pos rfl]
  split
  · rename_i h
    exact .inl ⟨hany.mp h, rfl⟩
  · rename_i h
    exact .inr ⟨fun hmem => h (hany.mpr hmem), rfl⟩

lemma nodup_blistHandle (h : s.blist.Nodup) (ip : Ip) (mask : ℕ) (add : Bool) :
    (blistHandle cfg s ip mask add).blist.Nodup := by
  cases add with
  | false => exact h.sublist (List.eraseP_sublist ..)
  | true =>
    rcases blistHandle_add cfg s ip mask with ⟨-, heq⟩ | ⟨hnot, heq⟩
    · rwa [heq]
    · rw [heq]
      exact List.nodup_cons.mpr ⟨hnot, h⟩

lemma countP_entry (h : s.blist.Nodup) :
    s.blist.countP (fun m => blistEntryMatch m ip mask) =
      if ⟨ip, checkMask mask⟩ ∈ s.blist then 1 else 0 := by
  have hcount : s.blist.countP (fun m => blistEntryMatch m ip mask) =
      s.blist.count ⟨ip, checkMask mask⟩ := by
    rw [List.count]
    refine List.countP_congr fun m _ => ?_
    rw [blistEntryMatch_iff, beq_iff_eq]
  rw [hcount]
  split
  · rename_i hmem
    exact List.count_eq_one_of_mem h hmem
  · rename_i hmem
    exact List.count_eq_zero_of_not_mem hmem

lemma twice_of_nodup (h : s.blist.Nodup) :
    blistHandle cfg (blistHandle cfg s ip mask true) ip mask true =
        blistHandle cfg s ip mask true ∧
      (blistHandle cfg s ip mask true).blist.countP (fun m => blistEntryMatch m ip mask) = 1 := by
  have hmem : ⟨ip, checkMask mask⟩ ∈ (blistHandle cfg s ip mask true).blist := by
    rcases blistHandle_add cfg s ip mask with ⟨hin, heq⟩ | ⟨-, heq⟩
    · rwa [heq]
    · rw [heq]
      exact List.mem_cons_self
  refine ⟨?_, ?_⟩
  · rcases blistHandle_add cfg (blistHandle cfg s ip mask true) ip mask with ⟨-, heq⟩ | ⟨hnot, -⟩
    · exact heq
    · exact absurd hmem hnot
  · rw [countP_entry (nodup_blistHandle h ip mask true), if_pos hmem]

lemma removes_of_nodup (h : s.blist.Nodup) : (blistHandle cfg s ip mask false).blist =
    s.blist.filter fun m => !blistEntryMatch m ip mask := by
  have hsame : (fun m => blistEntryMatch m ip mask) = (· == (⟨ip, checkMask mask⟩ : Blist)) := by
    funext m
    rw [Bool.eq_iff_iff, blistEntryMatch_iff, beq_iff_eq]
  have hne : (fun m => !blistEntryMatch m ip mask) = (· != (⟨ip, checkMask mask⟩ : Blist)) := by
    funext m
    rw [congrFun hsame m]
    rfl
  show (s.blist.eraseP fun m => blistEntryMatch m ip mask) = _
  rw [hsame, hne, ← h.erase_eq_filter, List.erase_eq_eraseP']

end Entries

/-! ## Which requests are served -/

section Served

variable {cfg : Cfg} {s : St} {ip : Ip} {mask : ℕ}

/-- A served request matches the groups of its prefix. -/
lemma ipMatchBlist_iff (h : Served ip mask) (g : Group) :
    ipMatchBlist g ⟨ip, checkMask mask⟩ ↔ Agrees mask g.ip ip := by
  obtain ⟨hbits, h1, h31, i, hi, hbit⟩ := h
  cases ip with
  | v6 => cases hbits
  | v4 a =>
    have hword : ∀ (b : ℕ) (j : ℕ), j < mask → (Ip.v4 b).bit j = b.testBit (31 - j) := by
      intro b j hj
      have h0 : j / 32 = 0 := by omega
      have hmod : j % 32 = j := by omega
      rw [Ip.bit, h0, hmod]
      rfl
    rw [hword a i hi] at hbit
    show (decide (g.ip.dip &&& checkMask mask = a &&& checkMask mask)) = true ↔ _
    rw [decide_eq_true_iff, and_checkMask_iff h1 (by omega)]
    cases g.ip with
    | v4 b =>
      constructor
      · exact fun h => ⟨rfl, fun j hj => by rw [hword b j hj, hword a j hj]; exact h j hj⟩
      · rintro ⟨-, h⟩ j hj
        have hj' := h j hj
        rwa [hword b j hj, hword a j hj] at hj'
    | v6 w0 w1 w2 w3 =>
      -- the field of the other family is zero
      constructor
      · intro h
        have hzero := h i hi
        rw [hbit] at hzero
        exact absurd hzero (by rw [Ip.dip, Nat.zero_testBit]; decide)
      · rintro ⟨hfam, -⟩
        cases hfam

lemma blacklists_of_served (h : Served ip mask) (hs : s.blist.Nodup) :
    Blacklists cfg s ip mask := by
  have hmatch := ipMatchBlist_iff h
  obtain ⟨hbits, h1, h31, -⟩ := h
  have hentry : (∀ m ∈ s.blist, ¬blistEntryMatch m ip mask) →
      ⟨ip, checkMask mask⟩ ∉ s.blist := fun h hmem => h _ hmem (blistEntryMatch_iff.mpr rfl)
  refine ⟨?_, ?_, fun hnot => ?_, fun hnot => ?_, ?_, twice_of_nodup hs, removes_of_nodup hs⟩
  · rw [shiftCount]
    omega
  · rintro ip' mask' hvalid hne hsame
    rw [blistEntryMatch_iff, Blist.mk.injEq] at hsame
    obtain ⟨rfl, hmask⟩ := hsame
    exact hne (Prod.ext rfl (checkMask_inj h1 h31 (hbits ▸ hvalid) hmask).symm)
  · rcases blistHandle_add cfg s ip mask with ⟨hin, -⟩ | ⟨-, heq⟩
    · exact absurd hin (hentry hnot)
    · rw [heq]
      dsimp only
      rw [sweep_map (blistGroup_group cfg s.dev _), List.forall₂_map_right_iff, List.forall₂_same]
      intro g _
      rw [← hmatch g]
      constructor
      · exact fun h => if_pos h
      · exact fun h => if_neg h
  · intro g hg hagree ppe idx hppe hidx hppe' hidx'
    rcases blistHandle_add cfg s ip mask with ⟨hin, -⟩ | ⟨-, heq⟩
    · exact absurd hin (hentry hnot)
    · rw [heq]
      exact (sweep_foe cfg s.dev _ s.groups s.hw ppe idx).2.1 g hg ((hmatch g).mpr hagree) hppe hidx
        hppe' hidx'
  · intro ppe idx hfree
    rcases blistHandle_add cfg s ip mask with ⟨-, heq⟩ | ⟨-, heq⟩
    · rw [heq]
    · rw [heq]
      exact (sweep_foe cfg s.dev _ s.groups s.hw ppe idx).2.2 fun g hg hm =>
        hfree g hg ((hmatch g).mp hm)

/-- A driver with one group. -/
def oneGroup (ip : Ip) : St where
  groups := [{ createGroup ip with ppeId := some 0, foeIdx := some 0 }]
  hw := ⟨fun _ _ => Slot.zero, fun _ _ => Foe.zero, Foe.zero, fun _ => ∅, fun _ _ => false⟩
  dev := fun _ => none
  hook := true
  blist := []

/-- The group of a driver is unbound by an addition exactly if the driver finds it. -/
lemma oneGroup_unbound (cfg : Cfg) (ip' ip : Ip) (mask : ℕ)
    (h : Blacklists cfg (oneGroup ip') ip mask) :
    ipMatchBlist (createGroup ip') ⟨ip, checkMask mask⟩ ↔ Agrees mask ip' ip := by
  have hadds := h.adds (by simp [oneGroup])
  rcases blistHandle_add cfg (oneGroup ip') ip mask with ⟨hin, -⟩ | ⟨-, heq⟩
  · exact absurd hin (List.not_mem_nil)
  rw [heq] at hadds
  dsimp only at hadds
  rw [sweep_map (blistGroup_group cfg _ _), List.forall₂_map_right_iff, List.forall₂_same] at hadds
  obtain ⟨hunbind, hkept⟩ := hadds _ List.mem_cons_self
  have hsame : ipMatchBlist { createGroup ip' with ppeId := some 0, foeIdx := some 0 }
      ⟨ip, checkMask mask⟩ = ipMatchBlist (createGroup ip') ⟨ip, checkMask mask⟩ := rfl
  rw [hsame] at hunbind hkept
  constructor
  · intro hm
    by_contra hagree
    have hgroup := congrArg Group.ppeId (hkept hagree)
    rw [if_pos hm] at hgroup
    cases hgroup
  · intro hagree
    by_contra hm
    have hgroup := congrArg Group.ppeId (hunbind hagree)
    rw [if_neg hm] at hgroup
    cases hgroup

/-- A request within the lengths of its family is served in every state if and only if it is an
IPv4 one with a mask from 1 to 31 whose network is not zero. -/
theorem blacklists_iff (cfg : Cfg) (ip : Ip) (mask : ℕ) (hmask : mask ≤ ip.bits) :
    (∀ s : St, s.blist.Nodup → Blacklists cfg s ip mask) ↔ Served ip mask := by
  refine ⟨fun h => ?_, fun h s hs => blacklists_of_served h hs⟩
  have hempty := h (oneGroup ip) List.nodup_nil
  have hshift := hempty.shift
  rw [shiftCount] at hshift
  cases ip with
  | v6 w0 w1 w2 w3 =>
    -- the mask of a word is that of the next one
    have hbits : (Ip.v6 w0 w1 w2 w3).bits = 128 := rfl
    rw [hbits] at hmask
    refine absurd (blistEntryMatch_iff.mpr ?_)
      (hempty.distinct (.v6 w0 w1 w2 w3) (mask + 32) (by rw [hbits]; omega) fun heq => ?_)
    · rw [checkMask_add]
    · have hsnd := congrArg Prod.snd heq
      dsimp only at hsnd
      omega
  | v4 a =>
    have hbits : ∀ b, (Ip.v4 b).bits = 32 := fun _ => rfl
    rw [hbits] at hmask
    have h1 : 1 ≤ mask := by omega
    have h31 : mask ≤ 31 := by
      by_contra hgt
      have h32 : mask = 32 := by omega
      subst h32
      refine absurd (blistEntryMatch_iff.mpr ?_)
        (hempty.distinct (.v4 a) 0 (Nat.zero_le _) fun heq => ?_)
      · rw [← checkMask_add 0]
      · exact absurd (congrArg Prod.snd heq) (show (0 : ℕ) ≠ 32 by decide)
    refine ⟨rfl, h1, h31, ?_⟩
    by_contra hnone
    have hzero : ∀ i < mask, (Ip.v4 a).bit i = false := fun i hi => by
      by_contra hbit
      exact hnone ⟨i, hi, by simpa using hbit⟩
    -- a group of the other family is found
    have hmatch := (oneGroup_unbound cfg (.v6 0 0 0 0) (.v4 a) mask
      (h (oneGroup (.v6 0 0 0 0)) List.nodup_nil)).mp ?_
    · exact absurd hmatch.1 (by rw [hbits]; decide)
    · show (decide ((0 : ℕ) &&& checkMask mask = a &&& checkMask mask)) = true
      rw [decide_eq_true_iff, and_checkMask_iff h1 (by omega)]
      intro i hi
      have hbit := hzero i hi
      have h0 : i / 32 = 0 := by omega
      have hmod : i % 32 = i := by omega
      rw [Ip.bit, h0, hmod] at hbit
      rw [Nat.zero_testBit]
      exact hbit.symm

/-- A request for 239.1.0.0/16 is served. -/
theorem blacklists_network : 16 ≤ (Ip.v4 0xef010000).bits ∧
    ((∀ s : St, s.blist.Nodup → Blacklists ⟨true, true, 64, 2, 16, fun _ => 0⟩ s
      (.v4 0xef010000) 16) ↔ Served (.v4 0xef010000) 16) :=
  ⟨by decide, blacklists_iff _ _ _ (by decide)⟩

/-- A request for ff05::/16 does not unbind the group ff05::1. -/
theorem blacklists_prefix : ¬∀ s : St, s.blist.Nodup →
    Blacklists ⟨true, true, 64, 2, 16, fun _ => 0⟩ s (.v6 0xff050000 0 0 0) 16 := by
  intro h
  have hfound := (oneGroup_unbound _ (.v6 0xff050000 0 0 1) _ _
    (h (oneGroup (.v6 0xff050000 0 0 1)) List.nodup_nil)).mpr ?_
  · exact absurd hfound (by decide)
  · refine ⟨rfl, fun i hi => ?_⟩
    interval_cases i <;> rfl

end Served

end Hnat
