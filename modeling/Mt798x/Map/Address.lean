import Mt798x.Lib.MsbBits
import Mt798x.Map.Rule

/-!
# Addresses of a MAP rule

The IPv4 address, the PSID and the MAP address that `mapcalc` computes of a rule and a delegated
prefix.  They are put together from bits of the prefixes by `bmemcpy` and `bmemcpys64`.

The prefix is a memory: `bmemcpys64` also takes the byte behind the last bit, which may lie behind
the 16 bytes of the prefix.  A shift of 32 bits by 32 has no meaning in C and gives some number.
-/

namespace Map

open Bytes MsbBits

/-! ## Copying bits -/

/-- `bmemcpy`: the first bits of a memory are copied. -/
def bmemcpy (a b : Mem) (bits : ℕ) : Mem :=
  let bytes := bits / 8
  let bits := bits % 8
  let a := store a 0 bytes b
  if 0 < bits then
    let mask : Byte := UInt8.ofNat (2 ^ (8 - bits) - 1)
    Function.update a bytes ((a bytes &&& mask) ||| (~~~mask &&& b bytes))
  else a

/-- `bmemcpys64`: bits from a place on are copied, by way of a buffer of eight bytes.  More bytes
overrun the buffer. -/
def bmemcpys64 (a b : Mem) (frombits nbits : ℕ) : Option Mem :=
  let frombyte := frombits / 8
  let tobyte := (frombits + nbits) / 8
  if 8 < tobyte - frombyte + 1 then none
  else
    let buf := store zeros 0 (tobyte - frombyte + 1) fun k => b (frombyte + k)
    some (bmemcpy a (ofNat 8 (beNat buf 8 <<< (frombits % 8))) nbits)

lemma testBit_merge (x y : Byte) {k j : ℕ} (hj : j < 8) :
    ((x &&& UInt8.ofNat (2 ^ k - 1)) ||| (~~~(UInt8.ofNat (2 ^ k - 1)) &&& y)).toNat.testBit j =
      if j < k then x.toNat.testBit j else y.toNat.testBit j := by
  have hmask : (UInt8.ofNat (2 ^ k - 1)).toNat.testBit j = decide (j < k) := by
    rw [UInt8.toNat_ofNat', Nat.testBit_mod_two_pow, Nat.testBit_two_pow_sub_one]
    simp [hj]
  have hnot : (~~~(UInt8.ofNat (2 ^ k - 1))).toNat.testBit j = !decide (j < k) := by
    rw [← hmask]
    simp only [← UInt8.toNat_toBitVec, UInt8.toBitVec_not, BitVec.testBit_toNat,
      BitVec.getLsbD_not, hj, decide_true, Bool.true_and]
  rw [UInt8.toNat_or, UInt8.toNat_and, UInt8.toNat_and, Nat.testBit_or, Nat.testBit_and,
    Nat.testBit_and, hmask, hnot]
  by_cases hk : j < k
  · simp [hk]
  · simp [hk]

lemma bit_bmemcpy (a b : Mem) (bits i : ℕ) :
    bit (bmemcpy a b bits) i = if i < bits then bit b i else bit a i := by
  have hstore : ∀ i, bit (store a 0 (bits / 8) b) i =
      if i < 8 * (bits / 8) then bit b i else bit a i := fun i => by
    rw [bit_store]
    simp
  rw [bmemcpy]
  dsimp only
  split
  · rename_i hpos
    by_cases hbyte : i / 8 = bits / 8
    · have hi := hstore i
      rw [if_neg (by omega), bit, hbyte] at hi
      rw [bit, hbyte, Function.update_self, testBit_merge _ _ (by omega), hi]
      by_cases hlt : i < bits
      · rw [if_neg (by omega), if_pos hlt, bit, hbyte]
      · rw [if_pos (by omega), if_neg hlt]
    · have hi := hstore i
      rw [bit] at hi ⊢
      rw [Function.update_of_ne hbyte, hi]
      by_cases hlt : i < bits
      · rw [if_pos (by omega), if_pos hlt]
      · rw [if_neg (by omega), if_neg hlt]
  · rename_i hzero
    rw [hstore, show 8 * (bits / 8) = bits by omega]

lemma bmemcpys64_spec (a b : Mem) (frombits nbits : ℕ) (hn : frombits % 8 + nbits < 64) :
    ∃ m, bmemcpys64 a b frombits nbits = some m ∧
      ∀ i, bit m i = if i < nbits then bit b (frombits + i) else bit a i := by
  rw [bmemcpys64]
  dsimp only
  rw [if_neg (by omega)]
  refine ⟨_, rfl, fun i => ?_⟩
  rw [bit_bmemcpy]
  by_cases hi : i < nbits
  · rw [if_pos hi, if_pos hi, bit_ofNat (by omega), Nat.testBit_shiftLeft,
      decide_eq_true (by omega), Bool.true_and,
      show 8 * 8 - 1 - i - frombits % 8 = 8 * 8 - 1 - (i + frombits % 8) by omega,
      testBit_beNat _ (by omega), bit_store, if_pos (by omega), bit, bit]
    rw [show frombits / 8 + (i + frombits % 8 - 8 * 0) / 8 = (frombits + i) / 8 by omega,
      show (i + frombits % 8 - 8 * 0) % 8 = (frombits + i) % 8 by omega]
  · rw [if_neg hi, if_neg hi]

/-! ## The addresses of a rule -/

/-- `x >> n` of 32 bits; by 32 bits or more it is some number. -/
def shr (undef x n : ℕ) : ℕ := if n < 32 then x >>> n else undef

/-- `psid` and `psid16`. -/
def mapPsid (pd : Mem) (v : RuleVars) : Option (ℤ × Mem) :=
  (if v.psid < 0 ∧ 0 ≤ v.psidlen ∧ 0 ≤ v.pdlen then
      (bmemcpys64 zeros pd (v.prefix6len + v.ealen - v.psidlen).toNat v.psidlen.toNat).map
        fun m => ((beNat m 2 : ℤ), m)
    else some (v.psid, zeros)).map fun p =>
  if 0 < v.psidlen then
    let psid := p.1 / 2 ^ (16 - v.psidlen).toNat
    (psid * 2 ^ (16 - v.psidlen).toNat, ofNat 2 (psid % 2 ^ 16).toNat)
  else p

/-- `ipv4addr` -/
def mapIpv4 (undef : ℕ) (pd ipv4prefix : Mem) (v : RuleVars) : Option Mem :=
  if 0 ≤ v.pdlen ∨ v.ealen = v.psidlen then
    (bmemcpys64 zeros pd v.prefix6len.toNat (v.ealen - v.psidlen).toNat).map fun m =>
      bmemcpy (ofNat 4 (shr undef (beNat m 4) v.prefix4len.toNat)) ipv4prefix v.prefix4len.toNat
  else some zeros

/-- The place of the IPv4 address in the MAP address. -/
def v4offset (legacy : Bool) : ℕ := if legacy then 9 else 10

/-- `ipv6addr` -/
def mapIpv6 (legacy : Bool) (pd ipv4addr psid16 : Mem) (v : RuleVars) : Mem :=
  if v.pdlen < 0 then zeros
  else
    bmemcpy (store (store zeros (v4offset legacy) 4 ipv4addr) (v4offset legacy + 4) 2 psid16) pd
      v.pdlen.toNat

/-- What is computed of a rule that is not skipped. -/
structure MapAddress where
  ipv4addr : Mem
  psid : ℤ
  psid16 : Mem
  ipv6addr : Mem

/-- A rule from its options to its addresses. -/
def mapRule (env : RuleEnv) (undef : ℕ) (pd ipv4prefix : Mem) (opts : List SubOpt) :
    Option (RuleVars × MapAddress) :=
  (validateRule (fillRule env (parseOpts opts))).bind fun v =>
    (mapPsid pd v).bind fun psid => (mapIpv4 undef pd ipv4prefix v).bind fun ipv4addr =>
      if v.pdlen < 0 ∧ v.fmr = false then none
      else some (v, ⟨ipv4addr, psid.1, psid.2, mapIpv6 env.legacy pd ipv4addr psid.2 v⟩)

/-! ## What validation leaves of the lengths -/

lemma psid_parseOpts_le (opts : List SubOpt) : (parseOpts opts).psid ≤ 65535 := by
  suffices h : ∀ v : RuleVars, v.psid ≤ 65535 → (opts.foldl parseOpt v).psid ≤ 65535 from
    h {} (by decide)
  induction opts with
  | nil =>
    intro v hv
    exact hv
  | cons o opts ih =>
    intro v hv
    refine ih _ ?_
    cases o with
    | type b => exact hv
    | fmr => exact hv
    | num o intval errno =>
      rw [parseOpt]
      split
      · rename_i hok
        cases o <;> first | exact hv | exact hok.1
      · exact hv

/-- The lengths of a rule that is not skipped; it has a PSID of its own only if it has a length for
it. -/
structure Lengths (v : RuleVars) : Prop where
  prefix4len : 0 ≤ v.prefix4len
  prefix6len : 0 ≤ v.prefix6len
  psidlen : 0 ≤ v.psidlen ∧ v.psidlen ≤ 16 ∧ v.psidlen ≤ v.ealen
  psid : v.psid ≤ 65535
  own : 0 ≤ v.psid → 0 < v.psidlen

lemma deriveLengths_psid {v : RuleVars} (h : v.psid ≤ 65535) :
    0 ≤ (deriveLengths v).psidlen ∧ (deriveLengths v).psid ≤ 65535 ∧
      (0 ≤ (deriveLengths v).psid → 0 < (deriveLengths v).psidlen) := by
  simp only [deriveLengths]
  split_ifs <;> grind

lemma lengths_of_valid {env : RuleEnv} {opts : List SubOpt} {v : RuleVars}
    (h : validateRule (fillRule env (parseOpts opts)) = some v) : Lengths v := by
  rw [validateRule] at h
  split at h
  · cases h
  rename_i hval
  cases h
  simp only [not_or, not_lt] at hval
  obtain ⟨h4, h6, hea, h16, hle⟩ := hval
  have hkeep : (findPd env (lw4o6Lengths (defaultOffset env (parseOpts opts)))).psid =
      (parseOpts opts).psid := by
    rw [findPd, lw4o6Lengths, defaultOffset]
    split_ifs <;> rfl
  obtain ⟨hpos, hpsid, hown⟩ := deriveLengths_psid (hkeep.trans_le (psid_parseOpts_le opts))
  exact ⟨h4, h6, ⟨hpos, h16, hle⟩, hpsid, hown⟩

/-! ## The bits of the addresses -/

/-- A bit of the PSID of a rule: of its own one, or of the prefix behind the bits for the IPv4
address. -/
def psidBit (pd : Mem) (v : RuleVars) (k : ℕ) : Bool :=
  if 0 ≤ v.psid then v.psid.toNat.testBit (15 - k)
  else bit pd ((v.prefix6len + v.ealen - v.psidlen).toNat + k)

/-- The IPv4 address is put together from the two prefixes, the PSID stands at the right end of its
16 bits, and the MAP address has both behind the bits of the delegated prefix. -/
structure Embeds (legacy : Bool) (pd ipv4prefix : Mem) (v : RuleVars) (out : MapAddress) :
    Prop where
  ipv4addr : ∀ i < 32, bit out.ipv4addr i =
    if i < v.prefix4len.toNat then bit ipv4prefix i
    else if i < (v.prefix4len + (v.ealen - v.psidlen)).toNat then
      bit pd (v.prefix6len.toNat + (i - v.prefix4len.toNat))
    else false
  psid16 : ∀ i < 16, bit out.psid16 i =
    if i < 16 - v.psidlen.toNat then false else psidBit pd v (i - (16 - v.psidlen.toNat))
  ipv6addr : ∀ i < 128, bit out.ipv6addr i =
    if i < v.pdlen.toNat then bit pd i
    else if 8 * v4offset legacy ≤ i ∧ i < 8 * (v4offset legacy + 4) then
      bit out.ipv4addr (i - 8 * v4offset legacy)
    else if 8 * (v4offset legacy + 4) ≤ i ∧ i < 8 * (v4offset legacy + 6) then
      bit out.psid16 (i - 8 * (v4offset legacy + 4))
    else false

variable {v : RuleVars}

lemma beNat_lt (m : Mem) (n : ℕ) : beNat m n < 2 ^ (8 * n) := by
  induction n with
  | zero => exact Nat.one_pos
  | succ n ih =>
    have hbyte := (m n).toNat_lt
    rw [beNat, Nat.mul_succ, Nat.add_comm, Nat.pow_add]
    omega

lemma bit_right {n q : ℕ} (hn : n < 2 ^ 16) {i : ℕ} (hi : i < 16) :
    bit (ofNat 2 (n / 2 ^ (16 - q))) i =
      if i < 16 - q then false else n.testBit (15 - (i - (16 - q))) := by
  rw [bit_ofNat (by omega), Nat.testBit_div_two_pow]
  split
  · refine Nat.testBit_lt_two_pow (hn.trans_le (Nat.pow_le_pow_right (by decide) ?_))
    omega
  · congr 1
    omega

lemma mapPsid_spec (pd : Mem) (h : Lengths v) (hpd : 0 ≤ v.pdlen) :
    ∃ p, mapPsid pd v = some p ∧ ∀ i < 16, bit p.2 i =
      if i < 16 - v.psidlen.toNat then false else psidBit pd v (i - (16 - v.psidlen.toNat)) := by
  obtain ⟨-, h6, ⟨hq, hq16, hqe⟩, hmax, hown⟩ := h
  have hshift : (16 - v.psidlen).toNat = 16 - v.psidlen.toNat := by omega
  -- a PSID that was found, in the first bits of 16
  have hright : ∀ n : ℕ, n < 2 ^ 16 → 0 < v.psidlen → ∀ i < 16,
      bit (ofNat 2 ((n : ℤ) / 2 ^ (16 - v.psidlen).toNat % 2 ^ 16).toNat) i =
        if i < 16 - v.psidlen.toNat then false
        else n.testBit (15 - (i - (16 - v.psidlen.toNat))) := by
    intro n hn hpos i hi
    have hlt : n / 2 ^ (16 - v.psidlen.toNat) < 2 ^ 16 := (Nat.div_le_self _ _).trans_lt hn
    have hnum : ((n : ℤ) / 2 ^ (16 - v.psidlen).toNat % 2 ^ 16).toNat =
        n / 2 ^ (16 - v.psidlen.toNat) := by
      rw [hshift]
      norm_cast
      exact Nat.mod_eq_of_lt hlt
    rw [hnum, bit_right hn hi]
  rw [mapPsid]
  by_cases hpsid : v.psid < 0
  · obtain ⟨m, hm, hbits⟩ := bmemcpys64_spec zeros pd
      (v.prefix6len + v.ealen - v.psidlen).toNat v.psidlen.toNat (by omega)
    rw [if_pos ⟨hpsid, hq, hpd⟩, hm]
    refine ⟨_, rfl, fun i hi => ?_⟩
    have hbit : ∀ k < v.psidlen.toNat, (beNat m 2).testBit (15 - k) = psidBit pd v k := by
      intro k hk
      rw [psidBit, if_neg (by omega), show 15 - k = 8 * 2 - 1 - k by omega,
        testBit_beNat m (by omega), hbits, if_pos hk]
    dsimp only
    split
    · rename_i hpos
      rw [hright _ (beNat_lt m 2) hpos i hi]
      split
      · rfl
      · exact hbit _ (by omega)
    · rw [hbits, if_neg (by omega), if_pos (by omega), bit_zeros]
  · have hpos := hown (not_lt.mp hpsid)
    rw [if_neg fun hand => hpsid hand.1]
    refine ⟨_, rfl, fun i hi => ?_⟩
    dsimp only
    rw [if_pos hpos]
    have hn := hright v.psid.toNat (by omega) hpos i hi
    rw [Int.toNat_of_nonneg (not_lt.mp hpsid)] at hn
    rw [hn]
    split
    · rfl
    · rw [psidBit, if_pos (not_lt.mp hpsid)]

lemma mapIpv4_spec (undef : ℕ) (pd ipv4prefix : Mem) (h : Lengths v) (hpd : 0 ≤ v.pdlen)
    (h32 : v.prefix4len + (v.ealen - v.psidlen) ≤ 32) :
    ∃ m, mapIpv4 undef pd ipv4prefix v = some m ∧ ∀ i < 32, bit m i =
      if i < v.prefix4len.toNat then bit ipv4prefix i
      else if i < (v.prefix4len + (v.ealen - v.psidlen)).toNat then
        bit pd (v.prefix6len.toNat + (i - v.prefix4len.toNat))
      else false := by
  obtain ⟨h4, h6, ⟨-, -, hqe⟩, -, -⟩ := h
  obtain ⟨m, hm, hbits⟩ := bmemcpys64_spec zeros pd v.prefix6len.toNat
    (v.ealen - v.psidlen).toNat (by omega)
  rw [mapIpv4, if_pos (Or.inl hpd), hm]
  refine ⟨_, rfl, fun i hi => ?_⟩
  rw [bit_bmemcpy]
  by_cases hpre : i < v.prefix4len.toNat
  · rw [if_pos hpre, if_pos hpre]
  · -- the shift makes room for the prefix
    rw [if_neg hpre, if_neg hpre, bit_ofNat (by omega), shr, if_pos (by omega),
      Nat.testBit_shiftRight,
      show v.prefix4len.toNat + (8 * 4 - 1 - i) = 8 * 4 - 1 - (i - v.prefix4len.toNat) by omega,
      testBit_beNat m (by omega), hbits]
    split
    · rw [if_pos (by omega)]
    · rw [if_neg (by omega), bit_zeros]

lemma bit_mapIpv6 (legacy : Bool) (pd ipv4addr psid16 : Mem) (hpd : 0 ≤ v.pdlen) (i : ℕ) :
    bit (mapIpv6 legacy pd ipv4addr psid16 v) i =
      if i < v.pdlen.toNat then bit pd i
      else if 8 * v4offset legacy ≤ i ∧ i < 8 * (v4offset legacy + 4) then
        bit ipv4addr (i - 8 * v4offset legacy)
      else if 8 * (v4offset legacy + 4) ≤ i ∧ i < 8 * (v4offset legacy + 6) then
        bit psid16 (i - 8 * (v4offset legacy + 4))
      else false := by
  rw [mapIpv6, if_neg (not_lt.mpr hpd), bit_bmemcpy, bit_store, bit_store, bit_zeros]
  by_cases hlt : i < v.pdlen.toNat
  · rw [if_pos hlt, if_pos hlt]
  · rw [if_neg hlt, if_neg hlt]
    by_cases hpsid : 8 * (v4offset legacy + 4) ≤ i ∧ i < 8 * (v4offset legacy + 6)
    · rw [if_pos (by omega), if_neg (by omega), if_pos hpsid]
    · rw [if_neg (by omega), if_neg hpsid]

/-- A rule that validation accepts and that has a delegated prefix long enough: its addresses are
made of the bits of the prefixes. -/
theorem mapRule_embeds (env : RuleEnv) (undef : ℕ) (pd ipv4prefix : Mem) (opts : List SubOpt)
    (hv : validateRule (fillRule env (parseOpts opts)) = some v)
    (hpd : v.prefix6len + v.ealen ≤ v.pdlen)
    (h32 : v.prefix4len + (v.ealen - v.psidlen) ≤ 32) :
    ∃ out, mapRule env undef pd ipv4prefix opts = some (v, out) ∧
      Embeds env.legacy pd ipv4prefix v out := by
  have hlen := lengths_of_valid hv
  have hpos : 0 ≤ v.pdlen := by
    have h6 := hlen.prefix6len
    obtain ⟨hq, -, hqe⟩ := hlen.psidlen
    omega
  obtain ⟨p, hp, hpsid⟩ := mapPsid_spec pd hlen hpos
  obtain ⟨m, hm, hipv4⟩ := mapIpv4_spec undef pd ipv4prefix hlen hpos h32
  refine ⟨⟨m, p.1, p.2, mapIpv6 env.legacy pd m p.2 v⟩, ?_, hipv4, hpsid, fun i _ =>
    bit_mapIpv6 env.legacy pd m p.2 hpos i⟩
  rw [mapRule, hv, Option.bind_some, hp, Option.bind_some, hm, Option.bind_some,
    if_neg fun hneg => absurd hneg.1 (not_lt.mpr hpos)]

/-- A rule with 16 bits for the address, 8 of them for the PSID. -/
def sharedRule : List SubOpt :=
  [.num .prefix4len 24 false, .num .prefix6len 40 false, .num .ealen 16 false]

/-- The variables of this rule, with a delegated prefix of 56 bits. -/
def sharedVars : RuleVars :=
  { ealen := 16, prefix4len := 24, prefix6len := 40, pdlen := 56, offset := 6, psidlen := 8 }

theorem mapRule_embeds_shared :
    ∃ out, mapRule ⟨false, 56, 0⟩ 0 (fun k => UInt8.ofNat k) zeros sharedRule =
      some (sharedVars, out) ∧ Embeds false (fun k => UInt8.ofNat k) zeros sharedVars out :=
  mapRule_embeds ⟨false, 56, 0⟩ 0 (fun k => UInt8.ofNat k) zeros sharedRule (by decide) (by decide)
    (by decide)

/-- A rule with a PSID of its own does not take the one of the delegated prefix. -/
theorem psid_not_of_pd :
    ¬ ∀ (env : RuleEnv) (undef : ℕ) (pd ipv4prefix : Mem) (opts : List SubOpt) (v : RuleVars),
      validateRule (fillRule env (parseOpts opts)) = some v →
      v.prefix6len + v.ealen ≤ v.pdlen → v.prefix4len + (v.ealen - v.psidlen) ≤ 32 →
      ∃ out, mapRule env undef pd ipv4prefix opts = some (v, out) ∧ ∀ i < 16, bit out.psid16 i =
        if i < 16 - v.psidlen.toNat then false
        else bit pd ((v.prefix6len + v.ealen - v.psidlen).toNat +
          (i - (16 - v.psidlen.toNat))) := by
  intro h
  obtain ⟨out, hout, hbits⟩ := h ⟨false, 56, 0⟩ 0 zeros zeros
    (sharedRule ++ [.num .psidlen 8 false, .num .psid 0x1200 false])
    { sharedVars with psid := 0x1200 } (by decide) (by decide) (by decide)
  have hpsid : (mapRule ⟨false, 56, 0⟩ 0 zeros zeros
      (sharedRule ++ [.num .psidlen 8 false, .num .psid 0x1200 false])).map
        (fun r => bit r.2.psid16 11) = some true := by decide +kernel
  rw [hout, Option.map_some, hbits 11 (by decide)] at hpsid
  exact absurd hpsid (by decide)

end Map
