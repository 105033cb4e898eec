import Mt798x.Map.Copies

/-!
# The objects that a MAP rule copies

The prefix search of `mapcalc` runs before the validation: without a length of the prefix it
compares a negative number of bits, that is almost 2^64 of them.  Behind the validation the byte
behind the last bit is read too, the bits of the IPv4 address may be more than 32, and a shift by
the default length of the IPv4 prefix is one by the whole width.  `mapRule_inside_iff` says when
none of this happens.
-/

namespace Map.Checked

open Bytes MsbBits Guard

/-! ## The prefix search -/

/-- A prefix or an address of an interface, if it is given as `inet_pton` reads it, with its
mask. -/
structure PrefixAttr where
  address : Option Mem
  mask : Option ℤ
  mask_le : ∀ m ∈ mask, 0 ≤ m ∧ m ≤ 128

/-- An interface of the dump. -/
structure IfaceAttr where
  interface : Option String
  prefixes : List PrefixAttr
  addresses : List PrefixAttr

/-- The mask of a prefix as it is compared: the one of an address of LW4over6 is half as long. -/
def workMask (lw4o6 : Bool) (mask : ℤ) : ℤ := if lw4o6 ∧ mask = 128 then 64 else mask

/-- One turn of the loop of `match_prefix`. -/
def matchStep (lw4o6 : Bool) ( ipv6prefix : Mem) (prefix6len : ℤ) (st : ℤ × Mem)
    (d : PrefixAttr) : Except Fault (ℤ × Mem) :=
  match d.address, d.mask with
  | some address, some mask => do
    let mask := workMask lw4o6 mask
    let first ←
      if st.1 < mask ∧ prefix6len ≤ mask then do
        let res ← bmemcmp ⟨16, address⟩ ⟨16, ipv6prefix⟩ (size_t prefix6len)
        pure (res == 0)
      else pure false
    if first then do
      let pd ← bmemcpy ⟨16, st.2⟩ ⟨16, address⟩ (size_t mask)
      pure (mask, pd)
    else do
      let second ←
        if lw4o6 ∧ st.1 < prefix6len ∧ mask < prefix6len then do
          let res ← bmemcmp ⟨16, address⟩ ⟨16, ipv6prefix⟩ (size_t mask)
          pure (res == 0)
        else pure false
      if second then do
        let pd ← bmemcpy ⟨16, st.2⟩ ⟨16, ipv6prefix⟩ (size_t prefix6len)
        pure (prefix6len, pd)
      else pure st
  | _, _ => pure st

/-- `match_prefix` -/
def match_prefix (lw4o6 : Bool) ( ipv6prefix : Mem) (prefix6len : ℤ) (st : ℤ × Mem)
    (cur : List PrefixAttr) : Except Fault (ℤ × Mem) :=
  cur.foldlM (matchStep lw4o6 ipv6prefix prefix6len) st

/-- The interface is the one of the rule. -/
def visited (iface : String) (c : IfaceAttr) : Bool :=
  match c.interface with
  | none => false
  | some name => iface == "*" || iface == name

/-- The loop over the interfaces that finds the delegated prefix. -/
def searchPd (iface : String) (lw4o6 : Bool) ( ipv6prefix : Mem) (prefix6len : ℤ) :
    List IfaceAttr → ℤ × Mem → Except Fault (ℤ × Mem)
  | [], st => pure st
  | c :: dump, st =>
    if visited iface c then do
      let st ← match_prefix lw4o6 ipv6prefix prefix6len st c.prefixes
      let st ←
        if lw4o6 then match_prefix lw4o6 ipv6prefix prefix6len st c.addresses else pure st
      if 0 ≤ st.1 then pure st else searchPd iface lw4o6 ipv6prefix prefix6len dump st
    else searchPd iface lw4o6 ipv6prefix prefix6len dump st

/-- What an entry of an interface gives as length of the delegated prefix. -/
def candidate (lw4o6 : Bool) ( ipv6prefix : Mem) (prefix6len : ℤ) (d : PrefixAttr) : Option ℤ :=
  match d.address, d.mask with
  | some address, some mask =>
    if prefix6len ≤ workMask lw4o6 mask then
      if SameBits address ipv6prefix prefix6len.toNat then some (workMask lw4o6 mask) else none
    else if lw4o6 ∧ SameBits address ipv6prefix (workMask lw4o6 mask).toNat then some prefix6len
    else none
  | _, _ => none

/-- The entries of an interface that are looked at. -/
def entries (lw4o6 : Bool) (c : IfaceAttr) : List PrefixAttr :=
  c.prefixes ++ if lw4o6 then c.addresses else []

/-- An entry that has an address and a mask. -/
def PrefixAttr.Given (d : PrefixAttr) : Prop := d.address ≠ none ∧ d.mask ≠ none

/-- The longest of some candidates. -/
def longest (lw4o6 : Bool) ( ipv6prefix : Mem) (prefix6len : ℤ) (ds : List PrefixAttr)
    (pdlen : ℤ) : ℤ :=
  (ds.filterMap (candidate lw4o6 ipv6prefix prefix6len)).foldl max pdlen

/-- The length of the delegated prefix: the longest candidate of the first interface that has one. -/
def foundPdlen (iface : String) (lw4o6 : Bool) ( ipv6prefix : Mem) (prefix6len : ℤ) :
    List IfaceAttr → ℤ → ℤ
  | [], pdlen => pdlen
  | c :: dump, pdlen =>
    if visited iface c ∧ 0 ≤ longest lw4o6 ipv6prefix prefix6len (entries lw4o6 c) pdlen then
      longest lw4o6 ipv6prefix prefix6len (entries lw4o6 c) pdlen
    else foundPdlen iface lw4o6 ipv6prefix prefix6len dump pdlen

/-- Some interface of the rule has an entry. -/
def HasEntry (iface : String) (lw4o6 : Bool) (dump : List IfaceAttr) : Prop :=
  ∃ c ∈ dump, visited iface c = true ∧ ∃ d ∈ entries lw4o6 c, d.Given

section Search

variable {iface : String} {lw4o6 : Bool} { ipv6prefix : Mem} {prefix6len : ℤ} {st : ℤ × Mem}
  {d : PrefixAttr}

lemma workMask_le (lw4o6 : Bool) {mask : ℤ} (h : 0 ≤ mask ∧ mask ≤ 128) :
    0 ≤ workMask lw4o6 mask ∧ workMask lw4o6 mask ≤ 128 := by
  rw [workMask]
  split
  · exact ⟨by decide, by decide⟩
  · exact h

variable (lw4o6 ipv6prefix) in
/-- With a length of the prefix each step stays inside and keeps the longer length. -/
lemma matchStep_spec (h6 : 0 ≤ prefix6len ∧ prefix6len ≤ 128) (st : ℤ × Mem) (d : PrefixAttr) :
    ∃ pd, matchStep lw4o6 ipv6prefix prefix6len st d =
      .ok (((candidate lw4o6 ipv6prefix prefix6len d).toList).foldl max st.1, pd) := by
  obtain ⟨address, mask, hmask⟩ := d
  cases address with
  | none => exact ⟨st.2, rfl⟩
  | some address =>
    cases mask with
    | none => exact ⟨st.2, rfl⟩
    | some mask =>
      obtain ⟨hm0, hm128⟩ := workMask_le lw4o6 (hmask mask rfl)
      obtain ⟨h0, h128⟩ := h6
      rw [matchStep, candidate]
      simp only
      generalize workMask lw4o6 mask = m at hm0 hm128 ⊢
      have hlen : size_t prefix6len = prefix6len.toNat := size_t_of_nonneg h0 (by omega)
      have hm : size_t m = m.toNat := size_t_of_nonneg hm0 (by omega)
      obtain ⟨r, hr, hsame⟩ := bmemcmp_spec (a := ⟨16, address⟩) (b := ⟨16, ipv6prefix⟩)
        (show prefix6len.toNat ≤ 8 * 16 by omega) (show prefix6len.toNat ≤ 8 * 16 by omega)
      obtain ⟨r', hr', hsame'⟩ := bmemcmp_spec (a := ⟨16, address⟩) (b := ⟨16, ipv6prefix⟩)
        (show m.toNat ≤ 8 * 16 by omega) (show m.toNat ≤ 8 * 16 by omega)
      rw [hlen, hm, hr, hr', ok_bind, ok_bind,
        bmemcpy_eq (by dsimp only; omega) (by dsimp only; omega),
        bmemcpy_eq (by dsimp only; omega) (by dsimp only; omega)]
      by_cases hle : prefix6len ≤ m
      · -- the entry is as long as the prefix of the rule
        have hnot : ¬(lw4o6 = true ∧ st.1 < prefix6len ∧ m < prefix6len) := by omega
        rw [if_neg hnot, if_pos hle]
        by_cases hlt : st.1 < m
        · rw [if_pos ⟨hlt, hle⟩]
          by_cases heq : r = 0
          · rw [if_pos (hsame.mp heq), heq]
            exact ⟨_, by simp [max_eq_right hlt.le, pure, Except.pure, bind, Except.bind]; rfl⟩
          · rw [if_neg (mt hsame.mpr heq)]
            exact ⟨st.2, by simp [heq, pure, Except.pure, bind, Except.bind]⟩
        · rw [if_neg fun h => hlt h.1]
          refine ⟨st.2, ?_⟩
          split <;> simp [max_eq_left (not_lt.mp hlt), pure, Except.pure, bind, Except.bind]
      · -- it is shorter: only LW4over6 takes the prefix of the rule for it
        rw [if_neg fun h => hle h.2, if_neg hle]
        by_cases hlw : lw4o6 = true ∧ st.1 < prefix6len
        · rw [if_pos ⟨hlw.1, hlw.2, not_le.mp hle⟩]
          by_cases heq : r' = 0
          · rw [if_pos ⟨hlw.1, hsame'.mp heq⟩, heq]
            exact ⟨_, by simp [max_eq_right hlw.2.le, pure, Except.pure, bind, Except.bind]; rfl⟩
          · rw [if_neg fun h => heq (hsame'.mpr h.2)]
            exact ⟨st.2, by simp [heq, pure, Except.pure, bind, Except.bind]⟩
        · rw [if_neg fun h => hlw ⟨h.1, h.2.1⟩]
          refine ⟨st.2, ?_⟩
          split
          · rename_i hcand
            have hge : prefix6len ≤ st.1 := not_lt.mp fun hlt => hlw ⟨hcand.1, hlt⟩
            simp [max_eq_left hge, pure, Except.pure, bind, Except.bind]
          · simp [pure, Except.pure, bind, Except.bind]

lemma longest_cons (d : PrefixAttr) (ds : List PrefixAttr) (pdlen : ℤ) :
    longest lw4o6 ipv6prefix prefix6len (d :: ds) pdlen =
      longest lw4o6 ipv6prefix prefix6len ds
        ((candidate lw4o6 ipv6prefix prefix6len d).toList.foldl max pdlen) := by
  rw [longest, longest, List.filterMap_cons]
  cases candidate lw4o6 ipv6prefix prefix6len d <;> rfl

lemma candidate_le (h6 : 0 ≤ prefix6len ∧ prefix6len ≤ 128) {m : ℤ}
    (h : candidate lw4o6 ipv6prefix prefix6len d = some m) : 0 ≤ m ∧ m ≤ 128 := by
  obtain ⟨address, mask, hmask⟩ := d
  cases address with
  | none => cases h
  | some address =>
    cases mask with
    | none => cases h
    | some mask =>
      have hm := workMask_le lw4o6 (hmask mask rfl)
      simp only [candidate] at h
      split_ifs at h <;> cases h
      · exact hm
      · exact h6

variable (lw4o6 ipv6prefix) in
lemma longest_cases (h6 : 0 ≤ prefix6len ∧ prefix6len ≤ 128) (ds : List PrefixAttr) {pdlen : ℤ}
    (hneg : pdlen < 0) : longest lw4o6 ipv6prefix prefix6len ds pdlen = pdlen ∨
      0 ≤ longest lw4o6 ipv6prefix prefix6len ds pdlen ∧
        longest lw4o6 ipv6prefix prefix6len ds pdlen ≤ 128 := by
  have hkeep : ∀ p : ℤ, p = pdlen ∨ 0 ≤ p ∧ p ≤ 128 →
      longest lw4o6 ipv6prefix prefix6len ds p = pdlen ∨
        0 ≤ longest lw4o6 ipv6prefix prefix6len ds p ∧
          longest lw4o6 ipv6prefix prefix6len ds p ≤ 128 := by
    induction ds with
    | nil => exact fun p hp => hp
    | cons d ds ih =>
      intro p hp
      rw [longest_cons]
      refine ih _ ?_
      cases hcand : candidate lw4o6 ipv6prefix prefix6len d with
      | none => exact hp
      | some m =>
        have hm := candidate_le h6 hcand
        simp only [Option.toList_some, List.foldl_cons, List.foldl_nil]
        omega
  exact hkeep pdlen (.inl rfl)

variable (lw4o6 ipv6prefix) in
lemma match_prefix_spec (h6 : 0 ≤ prefix6len ∧ prefix6len ≤ 128) (st : ℤ × Mem)
    (cur : List PrefixAttr) : ∃ pd, match_prefix lw4o6 ipv6prefix prefix6len st cur =
      .ok (longest lw4o6 ipv6prefix prefix6len cur st.1, pd) := by
  induction cur generalizing st with
  | nil => exact ⟨st.2, rfl⟩
  | cons d cur ih =>
    obtain ⟨pd, hstep⟩ := matchStep_spec lw4o6 ipv6prefix h6 st d
    obtain ⟨pd', hrest⟩ := ih (((candidate lw4o6 ipv6prefix prefix6len d).toList).foldl max st.1, pd)
    refine ⟨pd', ?_⟩
    rw [ match_prefix, List.foldlM_cons, hstep, ok_bind, longest_cons]
    exact hrest

variable (lw4o6 ipv6prefix) in
/-- Without one the first entry is compared outside its address. -/
lemma match_prefix_neg (h6 : prefix6len < 0) (hint : -2 ^ 31 ≤ prefix6len) (hst : st.1 < 0)
    (cur : List PrefixAttr) :
    ((∃ d ∈ cur, d.Given) → match_prefix lw4o6 ipv6prefix prefix6len st cur = .error .outside) ∧
      ((¬∃ d ∈ cur, d.Given) → match_prefix lw4o6 ipv6prefix prefix6len st cur = .ok st) := by
  induction cur with
  | nil => exact ⟨fun ⟨d, hd, _⟩ => absurd hd List.not_mem_nil, fun _ => rfl⟩
  | cons d cur ih =>
    by_cases hgiven : d.Given
    · have hstep : matchStep lw4o6 ipv6prefix prefix6len st d = .error .outside := by
        obtain ⟨address, mask, hmask⟩ := d
        cases address with
        | none => exact absurd rfl hgiven.1
        | some address =>
          cases mask with
          | none => exact absurd rfl hgiven.2
          | some mask =>
            obtain ⟨hm0, -⟩ := workMask_le lw4o6 (hmask mask rfl)
            have hlarge := size_t_of_neg h6 hint
            rw [matchStep]
            simp only
            rw [if_pos ⟨by omega, by omega⟩, bmemcmp_outside (by dsimp only; omega)]
            rfl
      refine ⟨fun _ => ?_, fun hno => absurd ⟨d, List.mem_cons_self, hgiven⟩ hno⟩
      rw [ match_prefix, List.foldlM_cons, hstep]
      rfl
    · have hstep : matchStep lw4o6 ipv6prefix prefix6len st d = .ok st := by
        obtain ⟨address, mask, hmask⟩ := d
        cases address with
        | none => rfl
        | some address =>
          cases mask with
          | none => rfl
          | some mask => exact absurd ⟨nofun, nofun⟩ hgiven
      have hcons : match_prefix lw4o6 ipv6prefix prefix6len st (d :: cur) =
          match_prefix lw4o6 ipv6prefix prefix6len st cur := by
        rw [ match_prefix, List.foldlM_cons, hstep, ok_bind]
        rfl
      rw [hcons]
      refine ⟨fun ⟨e, he, hgiv⟩ => ih.1 ⟨e, ?_, hgiv⟩, fun hno => ih.2 fun ⟨e, he, hgiv⟩ =>
        hno ⟨e, List.mem_cons_of_mem _ he, hgiv⟩⟩
      exact (List.mem_cons.mp he).resolve_left fun heq => hgiven (heq ▸ hgiv)

lemma match_prefix_append (ds es : List PrefixAttr) :
    match_prefix lw4o6 ipv6prefix prefix6len st (ds ++ es) =
      match_prefix lw4o6 ipv6prefix prefix6len st ds >>= fun st =>
        match_prefix lw4o6 ipv6prefix prefix6len st es :=
  List.foldlM_append

lemma searchPd_cons (c : IfaceAttr) (dump : List IfaceAttr) :
    searchPd iface lw4o6 ipv6prefix prefix6len (c :: dump) st =
      if visited iface c then
        match_prefix lw4o6 ipv6prefix prefix6len st (entries lw4o6 c) >>= fun st =>
          if 0 ≤ st.1 then pure st else searchPd iface lw4o6 ipv6prefix prefix6len dump st
      else searchPd iface lw4o6 ipv6prefix prefix6len dump st := by
  rw [searchPd, entries, match_prefix_append]
  cases lw4o6
  · simp [ match_prefix]
  · simp

variable (iface lw4o6 ipv6prefix) in
lemma searchPd_spec (h6 : 0 ≤ prefix6len ∧ prefix6len ≤ 128) (hst : st.1 < 0)
    (dump : List IfaceAttr) : ∃ pd, searchPd iface lw4o6 ipv6prefix prefix6len dump st =
      .ok (foundPdlen iface lw4o6 ipv6prefix prefix6len dump st.1, pd) := by
  induction dump generalizing st with
  | nil => exact ⟨st.2, rfl⟩
  | cons c dump ih =>
    rw [searchPd_cons, foundPdlen]
    cases hvis : visited iface c with
    | false => simpa using ih hst
    | true =>
      obtain ⟨pd, hpd⟩ := match_prefix_spec lw4o6 ipv6prefix h6 st (entries lw4o6 c)
      rw [hpd, ok_bind, if_pos rfl]
      dsimp only
      by_cases hfound : 0 ≤ longest lw4o6 ipv6prefix prefix6len (entries lw4o6 c) st.1
      · rw [if_pos hfound, if_pos ⟨rfl, hfound⟩]
        exact ⟨pd, rfl⟩
      · rw [if_neg hfound, if_neg fun h => hfound h.2]
        rcases longest_cases lw4o6 ipv6prefix h6 (entries lw4o6 c) hst with hsame | ⟨h0, -⟩
        · rw [hsame]
          exact @ih (st.1, pd) hst
        · exact absurd h0 hfound

lemma searchPd_neg (h6 : prefix6len < 0) (hint : -2 ^ 31 ≤ prefix6len) (hst : st.1 < 0)
    (dump : List IfaceAttr) :
    (HasEntry iface lw4o6 dump →
        searchPd iface lw4o6 ipv6prefix prefix6len dump st = .error .outside) ∧
      (¬HasEntry iface lw4o6 dump →
        searchPd iface lw4o6 ipv6prefix prefix6len dump st = .ok st) := by
  induction dump with
  | nil => exact ⟨fun ⟨c, hc, _⟩ => absurd hc List.not_mem_nil, fun _ => rfl⟩
  | cons c dump ih =>
    rw [searchPd_cons]
    obtain ⟨hbad, hok⟩ := match_prefix_neg lw4o6 ipv6prefix h6 hint hst
      (entries lw4o6 c)
    by_cases hhere : visited iface c = true ∧ ∃ d ∈ entries lw4o6 c, d.Given
    · rw [if_pos hhere.1, hbad hhere.2]
      exact ⟨fun _ => rfl, fun hno => absurd ⟨c, List.mem_cons_self, hhere⟩ hno⟩
    · have hcons : HasEntry iface lw4o6 (c :: dump) ↔ HasEntry iface lw4o6 dump := by
        constructor
        · rintro ⟨e, he, hent⟩
          rcases List.mem_cons.mp he with rfl | he
          · exact absurd hent hhere
          · exact ⟨e, he, hent⟩
        · exact fun ⟨e, he, hent⟩ => ⟨e, List.mem_cons_of_mem _ he, hent⟩
      rw [hcons]
      split
      · rename_i hvis
        rw [hok fun hent => hhere ⟨hvis, hent⟩, ok_bind, if_neg (not_le.mpr hst)]
        exact ih
      · exact ih

lemma foundPdlen_le (h6 : 0 ≤ prefix6len ∧ prefix6len ≤ 128) (dump : List IfaceAttr) {pdlen : ℤ}
    (hneg : pdlen < 0) : foundPdlen iface lw4o6 ipv6prefix prefix6len dump pdlen ≤ 128 := by
  induction dump with
  | nil => exact hneg.le.trans (by decide)
  | cons c dump ih =>
    rw [foundPdlen]
    split
    · rcases longest_cases lw4o6 ipv6prefix h6 (entries lw4o6 c) hneg
        with hsame | hle
      · rw [hsame]
        omega
      · exact hle.2
    · exact ih

end Search

/-! ## A rule -/

/-- The PSID of the delegated prefix, or the one of the rule. -/
def takePsid (pd : Mem) (v : RuleVars) : Except Fault (ℤ × Mem) :=
  if v.psid < 0 ∧ 0 ≤ v.psidlen ∧ 0 ≤ v.pdlen then do
    let psid16 ← bmemcpys64 ⟨2, zeros⟩ ⟨16, pd⟩ (size_t (v.prefix6len + v.ealen - v.psidlen))
      (size_t v.psidlen)
    pure ((beNat psid16 2 : ℤ), psid16)
  else pure (v.psid, zeros)

/-- `psid` and `psid16`. -/
def mapPsid (pd : Mem) (v : RuleVars) : Except Fault (ℤ × Mem) := do
  let p ← takePsid pd v
  if 0 < v.psidlen then do
    amount 32 (16 - v.psidlen)
    let psid := p.1 / 2 ^ (16 - v.psidlen).toNat
    amount 32 (16 - v.psidlen)
    pure (psid * 2 ^ (16 - v.psidlen).toNat, ofNat 2 (psid % 2 ^ 16).toNat)
  else pure p

/-- `ipv4addr` -/
def mapIpv4 (undef : ℕ) (pd ipv4prefix : Mem) (v : RuleVars) : Except Fault Mem :=
  if 0 ≤ v.pdlen ∨ v.ealen = v.psidlen then do
    let ipv4addr ← bmemcpys64 ⟨4, zeros⟩ ⟨16, pd⟩ (size_t v.prefix6len)
      (size_t (v.ealen - v.psidlen))
    amount 32 v.prefix4len
    bmemcpy ⟨4, ofNat 4 (shr undef (beNat ipv4addr 4) v.prefix4len.toNat)⟩ ⟨4, ipv4prefix⟩
      (size_t v.prefix4len)
  else pure zeros

/-- `ipv6addr` -/
def mapIpv6 (legacy : Bool) (pd ipv4addr psid16 : Mem) (v : RuleVars) : Except Fault Mem :=
  if v.pdlen < 0 then pure zeros
  else do
    touch 16 (v4offset legacy + 4)
    touch 16 (v4offset legacy + 4 + 2)
    bmemcpy ⟨16, store (store zeros (v4offset legacy) 4 ipv4addr) (v4offset legacy + 4) 2 psid16⟩
      ⟨16, pd⟩ (size_t v.pdlen)

/-- What is computed of a rule behind the validation. -/
def mapAddress (legacy : Bool) (undef : ℕ) (pd ipv4prefix : Mem) (v : RuleVars) :
    Except Fault (Option (RuleVars × MapAddress)) := do
  let psid ← mapPsid pd v
  let ipv4addr ← mapIpv4 undef pd ipv4prefix v
  if v.pdlen < 0 ∧ v.fmr = false then pure none
  else do
    let ipv6addr ← mapIpv6 legacy pd ipv4addr psid.2 v
    pure (some (v, ⟨ipv4addr, psid.1, psid.2, ipv6addr⟩))

/-- The delegated prefix, searched if the options do not give one. -/
def findPd (iface : String) (dump : List IfaceAttr) (pd ipv6prefix : Mem) (v : RuleVars) :
    Except Fault (ℤ × Mem) :=
  if v.pdlen < 0 then searchPd iface v.lw4o6 ipv6prefix v.prefix6len dump (v.pdlen, pd)
  else pure (v.pdlen, pd)

/-- A rule behind the search of its delegated prefix. -/
def finishRule (legacy : Bool) (undef : ℕ) (pd ipv4prefix : Mem) (v : RuleVars) :
    Except Fault (Option (RuleVars × MapAddress)) :=
  match validateRule (deriveLengths v) with
  | none => pure none
  | some v => mapAddress legacy undef pd ipv4prefix v

/-- The body of the loop of `main` over the rules, behind the options. -/
def mapRule (legacy : Bool) (iface : String) (dump : List IfaceAttr) (undef : ℕ)
    (pd ipv6prefix ipv4prefix : Mem) (opts : List SubOpt) :
    Except Fault (Option (RuleVars × MapAddress)) := do
  let v := lw4o6Lengths (defaultOffset ⟨legacy, -1, 0⟩ (parseOpts opts))
  let st ← findPd iface dump pd ipv6prefix v
  finishRule legacy undef st.2 ipv4prefix { v with pdlen := st.1 }

/-- The number of an option is an `int`. -/
def IsInt : SubOpt → Prop
  | .num _ intval _ => -2 ^ 31 ≤ intval ∧ intval < 2 ^ 31
  | _ => True

/-- The lengths of a rule are ones that the options accept. -/
structure Limited (v : RuleVars) : Prop where
  prefix4len : v.prefix4len ≤ 32
  prefix6len : -2 ^ 31 ≤ v.prefix6len ∧ v.prefix6len ≤ 128
  ealen : v.ealen ≤ 48
  psidlen : v.psidlen ≤ 16
  pdlen : v.pdlen ≤ 128

/-- The lengths of a rule that is validated are ones of prefixes. -/
structure Bounded (v : RuleVars) : Prop extends Lengths v where
  prefix4len_le : v.prefix4len ≤ 32
  prefix6len_le : v.prefix6len ≤ 128
  ealen_le : v.ealen ≤ 128
  pdlen_le : v.pdlen ≤ 128

/-- The lengths that keep the copies behind the validation inside their objects. -/
structure Fits (v : RuleVars) : Prop where
  psid : v.psid < 0 → 0 ≤ v.pdlen → v.prefix6len + v.ealen ≤ 127
  ipv4addr : 0 ≤ v.pdlen ∨ v.ealen = v.psidlen → v.prefix4len < 32 ∧ v.ealen - v.psidlen ≤ 32 ∧
    v.prefix6len + (v.ealen - v.psidlen) ≤ 127

section Rule

variable {v : RuleVars} {pd : Mem}

lemma limited_parseOpts {opts : List SubOpt} (hint : ∀ o ∈ opts, IsInt o) :
    Limited (parseOpts opts) := by
  have hrun : ∀ v : RuleVars, Limited v → Limited (opts.foldl parseOpt v) := by
    induction opts with
    | nil => exact fun v hv => hv
    | cons o opts ih =>
      intro v hv
      refine ih (fun o ho => hint o (List.mem_cons_of_mem _ ho)) _ ?_
      have ho := hint o List.mem_cons_self
      obtain ⟨h4, h6, hea, hq, hpd⟩ := hv
      cases o with
      | type b => exact ⟨h4, h6, hea, hq, hpd⟩
      | fmr => exact ⟨h4, h6, hea, hq, hpd⟩
      | num o intval errno =>
        rw [parseOpt]
        split
        · rename_i hok
          cases o
          case ealen => exact ⟨h4, h6, hok.1, hq, hpd⟩
          case prefix4len => exact ⟨hok.1, h6, hea, hq, hpd⟩
          case prefix6len => exact ⟨h4, ⟨ho.1, hok.1⟩, hea, hq, hpd⟩
          case offset => exact ⟨h4, h6, hea, hq, hpd⟩
          case psidlen => exact ⟨h4, h6, hea, hok.1, hpd⟩
          case pdlen => exact ⟨h4, h6, hea, hq, hok.1⟩
          case psid => exact ⟨h4, h6, hea, hq, hpd⟩
        · exact ⟨h4, h6, hea, hq, hpd⟩
  exact hrun {} ⟨by decide, by decide, by decide, by decide, by decide⟩

/-- The PSID is taken inside the objects if the bits of the rule end in the prefix, or none is
taken. -/
lemma takePsid_spec (pd : Mem) (hv : Bounded v) :
    ((v.psid < 0 → 0 ≤ v.pdlen → v.prefix6len + v.ealen ≤ 127) →
        ∃ p, takePsid pd v = .ok p ∧ (if v.psid < 0 ∧ 0 ≤ v.psidlen ∧ 0 ≤ v.pdlen then
            (Map.bmemcpys64 zeros pd (v.prefix6len + v.ealen - v.psidlen).toNat
              v.psidlen.toNat).map fun m => ((beNat m 2 : ℤ), m)
          else some (v.psid, zeros)) = some p) ∧
      (¬(v.psid < 0 → 0 ≤ v.pdlen → v.prefix6len + v.ealen ≤ 127) →
        takePsid pd v = .error .outside) := by
  obtain ⟨⟨h4, h6, ⟨hq, hq16, hqe⟩, -, -⟩, -, h6le, heale, -⟩ := hv
  rw [takePsid]
  by_cases htake : v.psid < 0 ∧ 0 ≤ v.psidlen ∧ 0 ≤ v.pdlen
  · rw [if_pos htake, if_pos htake, size_t_of_nonneg (by omega) (by omega),
      size_t_of_nonneg hq (by omega)]
    constructor
    · intro hfit
      have hend := hfit htake.1 htake.2.2
      obtain ⟨m, hm, hchecked⟩ := bmemcpys64_eq (a := ⟨2, zeros⟩) (b := ⟨16, pd⟩)
        (show v.psidlen.toNat ≤ 8 * 2 by omega)
        (show (v.prefix6len + v.ealen - v.psidlen).toNat % 8 + v.psidlen.toNat < 64 by omega)
        (show (v.prefix6len + v.ealen - v.psidlen).toNat + v.psidlen.toNat < 8 * 16 by omega)
      rw [hchecked, hm]
      exact ⟨_, rfl, rfl⟩
    · intro hnot
      have hend : ¬v.prefix6len + v.ealen ≤ 127 := fun h => hnot fun _ _ => h
      rw [bmemcpys64_outside (.inr (by dsimp only; omega))]
      rfl
  · rw [if_neg htake, if_neg htake]
    exact ⟨fun _ => ⟨_, rfl, rfl⟩, fun hnot =>
      absurd (fun hneg hpd => absurd ⟨hneg, hq, hpd⟩ htake) hnot⟩

lemma mapPsid_spec (pd : Mem) (hv : Bounded v) :
    ((v.psid < 0 → 0 ≤ v.pdlen → v.prefix6len + v.ealen ≤ 127) →
        ∃ p, mapPsid pd v = .ok p ∧ Map.mapPsid pd v = some p) ∧
      (¬(v.psid < 0 → 0 ≤ v.pdlen → v.prefix6len + v.ealen ≤ 127) →
        mapPsid pd v = .error .outside) := by
  obtain ⟨hok, hbad⟩ := takePsid_spec pd hv
  rw [mapPsid, Map.mapPsid]
  refine ⟨fun hfit => ?_, fun hnot => ?_⟩
  · obtain ⟨p, hp, hmap⟩ := hok hfit
    obtain ⟨hq, hq16, -⟩ := hv.psidlen
    rw [hp, hmap, ok_bind, Option.map_some]
    split
    · have hshift : amount 32 (16 - v.psidlen) = .ok () := amount_eq (by omega)
      rw [hshift]
      exact ⟨_, rfl, rfl⟩
    · exact ⟨_, rfl, rfl⟩
  · rw [hbad hnot]
    rfl

lemma mapIpv4_spec (undef : ℕ) (pd ipv4prefix : Mem) (hv : Bounded v) :
    ((0 ≤ v.pdlen ∨ v.ealen = v.psidlen → v.prefix4len < 32 ∧ v.ealen - v.psidlen ≤ 32 ∧
          v.prefix6len + (v.ealen - v.psidlen) ≤ 127) →
        ∃ m, mapIpv4 undef pd ipv4prefix v = .ok m ∧
          Map.mapIpv4 undef pd ipv4prefix v = some m) ∧
      (¬(0 ≤ v.pdlen ∨ v.ealen = v.psidlen → v.prefix4len < 32 ∧ v.ealen - v.psidlen ≤ 32 ∧
          v.prefix6len + (v.ealen - v.psidlen) ≤ 127) →
        mapIpv4 undef pd ipv4prefix v = .error .outside) := by
  obtain ⟨⟨h4, h6, ⟨hq, hq16, hqe⟩, -, -⟩, h4le, h6le, heale, -⟩ := hv
  rw [mapIpv4, Map.mapIpv4]
  by_cases htake : 0 ≤ v.pdlen ∨ v.ealen = v.psidlen
  · rw [if_pos htake, if_pos htake, size_t_of_nonneg h6 (by omega),
      size_t_of_nonneg (by omega) (by omega), size_t_of_nonneg h4 (by omega)]
    constructor
    · intro hfit
      obtain ⟨h32, hn, hend⟩ := hfit htake
      obtain ⟨m, hm, hchecked⟩ := bmemcpys64_eq (a := ⟨4, zeros⟩) (b := ⟨16, pd⟩)
        (show (v.ealen - v.psidlen).toNat ≤ 8 * 4 by omega)
        (show v.prefix6len.toNat % 8 + (v.ealen - v.psidlen).toNat < 64 by omega)
        (show v.prefix6len.toNat + (v.ealen - v.psidlen).toNat < 8 * 16 by omega)
      rw [hchecked, hm, ok_bind, amount_eq ⟨h4, h32⟩, ok_bind,
        bmemcpy_eq (by dsimp only; omega) (by dsimp only; omega)]
      exact ⟨_, rfl, rfl⟩
    · intro hnot
      by_cases hcopy : (v.ealen - v.psidlen).toNat ≤ 8 * 4 ∧
          v.prefix6len.toNat + (v.ealen - v.psidlen).toNat < 8 * 16
      · -- the copy is inside, so it is the shift
        obtain ⟨m, -, hchecked⟩ := bmemcpys64_eq (a := ⟨4, zeros⟩) (b := ⟨16, pd⟩) hcopy.1
          (by omega) hcopy.2
        rw [hchecked, ok_bind, amount, if_neg fun hlt => hnot fun _ => ⟨hlt.2, by omega, by omega⟩]
        rfl
      · rw [bmemcpys64_outside (by dsimp only; omega)]
        rfl
  · rw [if_neg htake, if_neg htake]
    exact ⟨fun _ => ⟨_, rfl, rfl⟩, fun hnot => absurd (fun h => absurd h htake) hnot⟩

lemma mapIpv6_eq (legacy : Bool) (pd ipv4addr psid16 : Mem) (hv : Bounded v) :
    mapIpv6 legacy pd ipv4addr psid16 v = .ok (Map.mapIpv6 legacy pd ipv4addr psid16 v) := by
  have hle := hv.pdlen_le
  rw [mapIpv6, Map.mapIpv6]
  split
  · rfl
  · have hv4 : v4offset legacy ≤ 10 := by cases legacy <;> decide
    rw [touch_eq (by omega), ok_bind, touch_eq (by omega), ok_bind,
      size_t_of_nonneg (by omega) (by omega),
      bmemcpy_eq (by dsimp only; omega) (by dsimp only; omega)]

/-- Behind the validation everything is inside the objects if and only if the lengths fit, and then
the addresses are those of the unchecked model. -/
lemma mapAddress_spec (legacy : Bool) (undef : ℕ) (pd ipv4prefix : Mem) (hv : Bounded v) :
    (Fits v → mapAddress legacy undef pd ipv4prefix v =
        .ok ((Map.mapPsid pd v).bind fun psid =>
          (Map.mapIpv4 undef pd ipv4prefix v).bind fun ipv4addr =>
            if v.pdlen < 0 ∧ v.fmr = false then none
            else some (v, ⟨ipv4addr, psid.1, psid.2, Map.mapIpv6 legacy pd ipv4addr psid.2 v⟩))) ∧
      (¬Fits v → mapAddress legacy undef pd ipv4prefix v = .error .outside) := by
  obtain ⟨hpsid, hpsid'⟩ := mapPsid_spec pd hv
  obtain ⟨hipv4, hipv4'⟩ := mapIpv4_spec undef pd ipv4prefix hv
  rw [mapAddress]
  refine ⟨fun ⟨hfit, hfit4⟩ => ?_, fun hnot => ?_⟩
  · obtain ⟨p, hp, hp'⟩ := hpsid hfit
    obtain ⟨m, hm, hm'⟩ := hipv4 hfit4
    rw [hp, hp', hm, hm', ok_bind, ok_bind, Option.bind_some, Option.bind_some]
    split
    · rfl
    · rw [mapIpv6_eq legacy pd m p.2 hv]
      rfl
  · by_cases hfit : v.psid < 0 → 0 ≤ v.pdlen → v.prefix6len + v.ealen ≤ 127
    · obtain ⟨p, hp, -⟩ := hpsid hfit
      rw [hp, ok_bind, hipv4' fun hfit4 => hnot ⟨hfit, hfit4⟩]
      rfl
    · rw [hpsid' hfit]
      rfl

lemma lw4o6Lengths_fields (env : RuleEnv) (p : RuleVars) :
    (lw4o6Lengths (defaultOffset env p)).lw4o6 = p.lw4o6 ∧
      (lw4o6Lengths (defaultOffset env p)).prefix6len = p.prefix6len ∧
      (lw4o6Lengths (defaultOffset env p)).pdlen = p.pdlen := by
  rw [lw4o6Lengths, defaultOffset]
  split_ifs <;> exact ⟨rfl, rfl, rfl⟩

lemma fillRule_eq (legacy : Bool) (n : ℤ) (k : ℕ) (p : RuleVars) :
    fillRule ⟨legacy, n, k⟩ p = deriveLengths
      { lw4o6Lengths (defaultOffset ⟨legacy, -1, 0⟩ p) with
        pdlen := if p.pdlen < 0 then n else p.pdlen } := by
  obtain ⟨-, -, hpd⟩ := lw4o6Lengths_fields ⟨legacy, -1, 0⟩ p
  have henv : defaultOffset ⟨legacy, n, k⟩ p = defaultOffset ⟨legacy, -1, 0⟩ p := rfl
  rw [fillRule, Map.findPd, henv, hpd]
  split
  · rfl
  · rw [← hpd]

lemma bounded_of_valid {legacy : Bool} {n : ℤ} {k : ℕ} {opts : List SubOpt}
    (hlim : Limited (parseOpts opts)) (hn : n ≤ 128)
    (h : validateRule (fillRule ⟨legacy, n, k⟩ (parseOpts opts)) = some v) : Bounded v := by
  have hlen := lengths_of_valid h
  obtain ⟨h4, h6, hea, hq, hpd⟩ := hlim
  rw [validateRule] at h
  split at h
  · cases h
  rename_i hval
  cases h
  refine ⟨hlen, ?_, ?_, ?_, ?_⟩ <;>
  · rw [fillRule_eq, deriveLengths, lw4o6Lengths, defaultOffset] at hval ⊢
    grind

lemma validateRule_neg {legacy : Bool} {n : ℤ} {k : ℕ} {p : RuleVars} (h6 : p.prefix6len < 0) :
    validateRule (fillRule ⟨legacy, n, k⟩ p) = none := by
  have hkeep : (fillRule ⟨legacy, n, k⟩ p).prefix6len = p.prefix6len := by
    rw [fillRule_eq, deriveLengths, lw4o6Lengths, defaultOffset]
    split_ifs <;> rfl
  rw [validateRule, if_pos (.inr (.inl (hkeep.trans_lt h6)))]

lemma finishRule_spec {legacy : Bool} {n : ℤ} (undef : ℕ) (pd ipv4prefix : Mem)
    {opts : List SubOpt} {w : RuleVars} (hlim : Limited (parseOpts opts)) (hn : n ≤ 128)
    (hw : deriveLengths w = fillRule ⟨legacy, n, 0⟩ (parseOpts opts)) :
    ((∀ v, validateRule (fillRule ⟨legacy, n, 0⟩ (parseOpts opts)) = some v → Fits v) →
        finishRule legacy undef pd ipv4prefix w =
          .ok (Map.mapRule ⟨legacy, n, 0⟩ undef pd ipv4prefix opts)) ∧
      (¬(∀ v, validateRule (fillRule ⟨legacy, n, 0⟩ (parseOpts opts)) = some v → Fits v) →
        finishRule legacy undef pd ipv4prefix w = .error .outside) := by
  rw [finishRule, hw, Map.mapRule]
  cases hval : validateRule (fillRule ⟨legacy, n, 0⟩ (parseOpts opts)) with
  | none => exact ⟨fun _ => rfl, fun hnot => absurd (fun v hv => by cases hv) hnot⟩
  | some v =>
    obtain ⟨hok, hbad⟩ := mapAddress_spec legacy undef pd ipv4prefix (bounded_of_valid hlim hn hval)
    refine ⟨fun hfit => hok (hfit v rfl), fun hnot => hbad fun hfit => hnot fun u hu => ?_⟩
    cases hu
    exact hfit

/-- The condition of `mapRule_inside_iff`: no entry is compared without a length of the prefix, and
a rule that is validated has lengths that fit. -/
structure RuleFits (legacy : Bool) (iface : String) (dump : List IfaceAttr) ( ipv6prefix : Mem)
    (p : RuleVars) : Prop where
  search : p.pdlen < 0 → p.prefix6len < 0 → ¬HasEntry iface p.lw4o6 dump
  lengths : ∀ v, validateRule (fillRule ⟨legacy,
    foundPdlen iface p.lw4o6 ipv6prefix p.prefix6len dump p.pdlen, 0⟩ p) = some v → Fits v

/-- A rule stays inside the objects if and only if its lengths fit, and then it gives what the
unchecked model gives. -/
lemma mapRule_spec (legacy : Bool) (iface : String) (dump : List IfaceAttr) (undef : ℕ)
    (pd ipv6prefix ipv4prefix : Mem) {opts : List SubOpt} (hint : ∀ o ∈ opts, IsInt o) :
    (RuleFits legacy iface dump ipv6prefix (parseOpts opts) →
        ∃ n pd', mapRule legacy iface dump undef pd ipv6prefix ipv4prefix opts =
          .ok (Map.mapRule ⟨legacy, n, 0⟩ undef pd' ipv4prefix opts)) ∧
      (¬RuleFits legacy iface dump ipv6prefix (parseOpts opts) →
        mapRule legacy iface dump undef pd ipv6prefix ipv4prefix opts = .error .outside) := by
  have hlim := limited_parseOpts hint
  obtain ⟨hlw, h6, hpd⟩ := lw4o6Lengths_fields ⟨legacy, -1, 0⟩ (parseOpts opts)
  have hfill := fun n => fillRule_eq legacy n 0 (parseOpts opts)
  rw [mapRule]
  generalize lw4o6Lengths (defaultOffset ⟨legacy, -1, 0⟩ (parseOpts opts)) = w at hlw h6 hpd hfill ⊢
  have hsearch : findPd iface dump pd ipv6prefix w =
      findPd iface dump pd ipv6prefix (parseOpts opts) := by
    rw [findPd, findPd, hlw, h6, hpd]
  rw [hsearch, findPd]
  by_cases hneg : (parseOpts opts).pdlen < 0
  · rw [if_pos hneg]
    by_cases h0 : (parseOpts opts).prefix6len < 0
    · -- no length of the prefix: the rule is not validated, if it gets there
      obtain ⟨hbad, hok⟩ := @searchPd_neg iface (parseOpts opts).lw4o6 ipv6prefix _
        ((parseOpts opts).pdlen, pd) h0 hlim.prefix6len.1 hneg dump
      refine ⟨fun hfits => ?_, fun hnot => ?_⟩
      · rw [hok (hfits.search hneg h0), ok_bind]
        refine ⟨_, pd, (finishRule_spec undef pd ipv4prefix hlim
          (n := (parseOpts opts).pdlen) hlim.pdlen ?_).1 fun v hv => ?_⟩
        · rw [hfill, ite_self]
        · rw [validateRule_neg h0] at hv
          cases hv
      · rw [hbad]
        · rfl
        · by_contra hno
          refine hnot ⟨fun _ _ => hno, fun v hv => ?_⟩
          rw [validateRule_neg h0] at hv
          cases hv
    · have h6 := And.intro (not_lt.mp h0) hlim.prefix6len.2
      obtain ⟨pd', hfound⟩ := @searchPd_spec iface (parseOpts opts).lw4o6 ipv6prefix _
        ((parseOpts opts).pdlen, pd) h6 hneg dump
      obtain ⟨hok, hbad⟩ := finishRule_spec undef pd' ipv4prefix hlim
        (foundPdlen_le h6 dump hneg) (by rw [hfill, if_pos hneg])
      rw [hfound, ok_bind]
      exact ⟨fun hfits => ⟨_, pd', hok hfits.lengths⟩, fun hnot =>
        hbad fun hlen => hnot ⟨fun _ h => absurd h h0, hlen⟩⟩
  · -- the options give the prefix
    obtain ⟨hok, hbad⟩ := finishRule_spec undef pd ipv4prefix hlim hlim.pdlen
      (by rw [hfill, ite_self])
    have hown : ∀ n, fillRule ⟨legacy, n, 0⟩ (parseOpts opts) =
        fillRule ⟨legacy, (parseOpts opts).pdlen, 0⟩ (parseOpts opts) := fun n => by
      rw [hfill, hfill, if_neg hneg, if_neg hneg]
    rw [if_neg hneg]
    refine ⟨fun hfits => ⟨_, pd, hok fun v hv => hfits.lengths v ?_⟩, fun hnot =>
      hbad fun hlen => hnot ⟨fun h => absurd h hneg, fun v hv => hlen v ?_⟩⟩
    · rw [hown]
      exact hv
    · rw [hown] at hv
      exact hv

end Rule

/-- Each copy and comparison of a rule touches its objects only, and each shift is less than the width
of its type, if and only if no entry of the dump is compared without a length of the prefix and the
lengths of a validated rule fit. -/
theorem mapRule_inside_iff (legacy : Bool) (iface : String) (dump : List IfaceAttr) (undef : ℕ)
    (pd ipv6prefix ipv4prefix : Mem) (opts : List SubOpt) (hint : ∀ o ∈ opts, IsInt o) :
    Inside (mapRule legacy iface dump undef pd ipv6prefix ipv4prefix opts) ↔
      RuleFits legacy iface dump ipv6prefix (parseOpts opts) := by
  obtain ⟨hok, hbad⟩ := mapRule_spec legacy iface dump undef pd ipv6prefix ipv4prefix hint
  constructor
  · intro hin
    by_contra hnot
    exact hin (hbad hnot)
  · intro hfits
    obtain ⟨n, pd', hrun⟩ := hok hfits
    rw [hrun]
    exact inside_ok _

/-- The shared rule with a delegated prefix of 56 bits. -/
theorem mapRule_inside_shared : Inside (mapRule false "*" [] 0 zeros zeros zeros
    (sharedRule ++ [.num .pdlen 56 false])) := by
  refine (mapRule_inside_iff false "*" [] 0 zeros zeros zeros _ ?_).mpr ⟨?_, ?_⟩
  · intro o ho
    simp only [sharedRule, List.cons_append, List.nil_append, List.mem_cons, List.not_mem_nil,
      or_false] at ho
    rcases ho with rfl | rfl | rfl | rfl <;> exact ⟨by decide, by decide⟩
  · exact fun hneg => absurd hneg (by decide)
  · intro v hv
    have hval : validateRule (fillRule ⟨false, 56, 0⟩ (parseOpts
        (sharedRule ++ [.num .pdlen 56 false]))) = some sharedVars := rfl
    cases hval.symm.trans hv
    exact ⟨by decide, by decide⟩

/-- An LW4over6 rule for a full address reads the byte behind the delegated prefix. -/
theorem mapRule_outside : ¬Inside (mapRule false "*" [] 0 zeros zeros zeros
    [.type true, .fmr, .num .prefix4len 24 false, .num .prefix6len 128 false]) :=
  fun hin => hin rfl

end Map.Checked
