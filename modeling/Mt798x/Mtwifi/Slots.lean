import Mt798x.Lib.Batch
import Mt798x.Lib.Tokens
import Mt798x.Mtwifi.Residue

/-!
# One slot for each access point

The settings of an access point stand in the profile under its index: a token of each list of
`VIF_CFGS`, and the keys with its number.  A place is one such slot of one key; `Reads` says what a
profile holds at all places, and the loop over the interfaces is then a list of assignments to
places.  From this follows when each slot has what the access point of that index sets
(`slots_iff`): the ones that got no name are taken for the first, and an encryption that is not in
the table leaves a network open.
-/

namespace Mtwifi

/-! ## Places -/

def tokens (s : String) : List (List Char) := s.toList.splitOn ';'

/-- What the datconf library says of `set_indexed_value`. -/
def SetsToken (siv : String → ℕ → String → String) : Prop :=
  ∀ s i v, (siv s i v).toList = [';'].intercalate (Tokens.putAt (tokens s) i v.toList)

/-- A value of one access point in the profile. -/
inductive Place where
  | token (key : VifKey) (i : ℕ)
  | ssid (i : ℕ)
  | key (i : ℕ)
  | policy (i : ℕ)
  | acl (i : ℕ)
  deriving DecidableEq

/-- The index that a place belongs to. -/
def Place.idx : Place → ℕ
  | .token _ i | .ssid i | .key i | .policy i | .acl i => i

/-- What the places hold that no access point sets. -/
def defaults : Place → String
  | .token key _ => (VIF_CFGS.lookup key).getD ""
  | .policy _ => "0"
  | _ => ""

def Iface.idx (iface : Iface) : ℕ := get_vif_idx iface.mtwifi_ifname

/-- What an access point assigns to places, in the order of the code. -/
def assigned (wmode_int : ℕ) (iface : Iface) : List (Place × String) :=
  if iface.isAp then
    (iface.config.ssid.map (Place.ssid iface.idx, ·)).toList ++
    ((iface.config.key.map (Place.key iface.idx, ·)).toList ++
    ((tokenCalls wmode_int iface.config).filterMap
      (fun call => call.2.map (Place.token call.1 iface.idx, ·)) ++
    ((Place.policy iface.idx, accessPolicy iface.config) ::
    ((accessControlList iface.config).map (Place.acl iface.idx, ·)).toList)))
  else []

/-- A profile for `n` BSSes holds, at each place, what a function says. -/
structure Reads (n : ℕ) (dat : Profile) (f : Place → String) : Prop where
  token : ∀ key, ∃ s, dat (.vif key) = some s ∧
    tokens s = (List.range n).map fun i => (f (.token key i)).toList
  ssid : ∀ i, dat (.SSID (i + 1)) = if i < MAX_MBSSID then some (f (.ssid i)) else none
  ssid_zero : dat (.SSID 0) = none
  key : ∀ i, dat (.WPAPSK (i + 1)) = if i < MAX_MBSSID then some (f (.key i)) else none
  key_zero : dat (.WPAPSK 0) = none
  policy : ∀ i, dat (.AccessPolicy i) = if i < MAX_MBSSID then some (f (.policy i)) else none
  acl : ∀ i, dat (.AccessControlList i) = if i < MAX_MBSSID then some (f (.acl i)) else none

/-- The place is one that a profile for `n` BSSes has. -/
def Place.Within (n : ℕ) : Place → Prop
  | .token _ i => i < n
  | p => p.idx < MAX_MBSSID

section

variable {siv : String → ℕ → String → String} {n i : ℕ} {dat dat' : Profile} {f g : Place → String}
  {v : String}

@[simp] lemma write_apply (f : Place → String) (w : Place × String) (p : Place) :
    Batch.write f w p = if p = w.1 then w.2 else f p :=
  Function.update_apply ..

namespace Reads

lemma congr (h : Reads n dat f) (hfg : ∀ p, p.Within n → f p = g p) : Reads n dat g where
  token key := by
    obtain ⟨s, hs, htok⟩ := h.token key
    refine ⟨s, hs, htok.trans (List.map_congr_left fun i hi => ?_)⟩
    rw [hfg (.token key i) (List.mem_range.mp hi)]
  ssid i := by
    rw [h.ssid i]
    split
    · rw [hfg (.ssid i) (by assumption)]
    · rfl
  ssid_zero := h.ssid_zero
  key i := by
    rw [h.key i]
    split
    · rw [hfg (.key i) (by assumption)]
    · rfl
  key_zero := h.key_zero
  policy i := by
    rw [h.policy i]
    split
    · rw [hfg (.policy i) (by assumption)]
    · rfl
  acl i := by
    rw [h.acl i]
    split
    · rw [hfg (.acl i) (by assumption)]
    · rfl

lemma unique (h : Reads n dat f) (h' : Reads n dat g) {p : Place} (hp : p.Within n) :
    f p = g p := by
  cases p with
  | token key i =>
    obtain ⟨s, hs, htok⟩ := h.token key
    obtain ⟨s', hs', htok'⟩ := h'.token key
    obtain rfl := Option.some_injective _ (hs.symm.trans hs')
    have hi := congrArg (·[i]?) (htok.symm.trans htok')
    have hlt : i < n := hp
    simp only [List.getElem?_map, List.getElem?_range hlt, Option.map_some, Option.some.injEq] at hi
    exact String.toList_injective hi
  | ssid i => simpa [show i < MAX_MBSSID from hp] using (h.ssid i).symm.trans (h'.ssid i)
  | key i => simpa [show i < MAX_MBSSID from hp] using (h.key i).symm.trans (h'.key i)
  | policy i => simpa [show i < MAX_MBSSID from hp] using (h.policy i).symm.trans (h'.policy i)
  | acl i => simpa [show i < MAX_MBSSID from hp] using (h.acl i).symm.trans (h'.acl i)

lemma set_ssid (h : Reads n dat f) (hi : i < MAX_MBSSID) :
    Reads n (dat.set (.SSID (i + 1)) v) (Batch.write f (.ssid i, v)) where
  token key := by simpa using h.token key
  ssid j := by
    by_cases hj : j = i
    · simp [hj, hi]
    · simp [hj, h.ssid j]
  ssid_zero := by simp [h.ssid_zero]
  key j := by simp [h.key j]
  key_zero := by simp [h.key_zero]
  policy j := by simp [h.policy j]
  acl j := by simp [h.acl j]

lemma set_key (h : Reads n dat f) (hi : i < MAX_MBSSID) :
    Reads n (dat.set (.WPAPSK (i + 1)) v) (Batch.write f (.key i, v)) where
  token key := by simpa using h.token key
  ssid j := by simp [h.ssid j]
  ssid_zero := by simp [h.ssid_zero]
  key j := by
    by_cases hj : j = i
    · simp [hj, hi]
    · simp [hj, h.key j]
  key_zero := by simp [h.key_zero]
  policy j := by simp [h.policy j]
  acl j := by simp [h.acl j]

lemma set_policy (h : Reads n dat f) (hi : i < MAX_MBSSID) :
    Reads n (dat.set (.AccessPolicy i) v) (Batch.write f (.policy i, v)) where
  token key := by simpa using h.token key
  ssid j := by simp [h.ssid j]
  ssid_zero := by simp [h.ssid_zero]
  key j := by simp [h.key j]
  key_zero := by simp [h.key_zero]
  policy j := by
    by_cases hj : j = i
    · simp [hj, hi]
    · simp [hj, h.policy j]
  acl j := by simp [h.acl j]

lemma set_acl (h : Reads n dat f) (hi : i < MAX_MBSSID) :
    Reads n (dat.set (.AccessControlList i) v) (Batch.write f (.acl i, v)) where
  token key := by simpa using h.token key
  ssid j := by simp [h.ssid j]
  ssid_zero := by simp [h.ssid_zero]
  key j := by simp [h.key j]
  key_zero := by simp [h.key_zero]
  policy j := by simp [h.policy j]
  acl j := by
    by_cases hj : j = i
    · simp [hj, hi]
    · simp [hj, h.acl j]

lemma set_token (hsiv : SetsToken siv) (h : Reads n dat f) {key : VifKey} (hi : i < n)
    (hv : ';' ∉ v.toList) :
    Reads n (set_token siv i dat (key, some v)) (Batch.write f (.token key i, v)) where
  token key' := by
    obtain ⟨s, hs, htok⟩ := h.token key'
    by_cases hkey : key' = key
    · subst hkey
      refine ⟨siv s i v, by simp [Mtwifi.set_token, hs, cstr], ?_⟩
      have hlen : i < (tokens s).length := by
        rw [htok, List.length_map, List.length_range]
        exact hi
      rw [tokens, hsiv, tokens, Tokens.splitOn_putAt hv, ← tokens, Tokens.putAt_of_lt hlen, htok]
      refine List.ext_getElem (by simp) fun j hj hj' => ?_
      rw [List.getElem_set]
      by_cases hij : i = j
      · simp [hij]
      · simp [hij, Ne.symm hij]
    · exact ⟨s, by simpa [Mtwifi.set_token, hkey] using hs, by simpa [hkey] using htok⟩
  ssid j := by simp [Mtwifi.set_token, h.ssid j]
  ssid_zero := by simp [Mtwifi.set_token, h.ssid_zero]
  key j := by simp [Mtwifi.set_token, h.key j]
  key_zero := by simp [Mtwifi.set_token, h.key_zero]
  policy j := by simp [Mtwifi.set_token, h.policy j]
  acl j := by simp [Mtwifi.set_token, h.acl j]

end Reads

/-! ## What an access point sets -/

lemma plain_strict_bool {b : Option Bool} (h : v ∈ strict_bool b) : ';' ∉ v.toList := by
  cases b with
  | none => cases h
  | some b =>
    cases h
    cases b <;> decide

lemma plain_number {m : Option Number} (h : v ∈ m.map Number.text) : ';' ∉ v.toList := by
  cases m with
  | none => cases h
  | some m =>
    cases h
    exact m.plain

lemma plain_toString (m : ℕ) : ';' ∉ (toString m).toList := by
  rw [Nat.toString_eq_ofList_toDigits, String.toList_ofList]
  intro h
  exact absurd (Nat.isDigit_of_mem_toDigits (by decide) (by decide) h) (by decide)

lemma mem_of_encInfo {c : IfaceConfig} {enc_info : String × String}
    (h : encInfo c = some enc_info) : ∃ e ∈ ENC_2_DAT, c.encryption = some e.1 ∧ enc_info = e.2 := by
  rw [encInfo] at h
  cases henc : c.encryption with
  | none =>
    rw [henc] at h
    cases h
  | some encryption =>
    rw [henc, Option.bind_some] at h
    obtain ⟨pre, post, hsplit, -⟩ := List.lookup_eq_some_iff.mp h
    exact ⟨(encryption, enc_info), by rw [hsplit]; simp, rfl, rfl⟩

lemma encDef_cases (c : IfaceConfig) :
    (encInfo c = none ∧ encDef c = ("OPEN", "NONE")) ∨
      ∃ e ∈ ENC_2_DAT, c.encryption = some e.1 ∧ encDef c = e.2 := by
  rw [encDef]
  cases hinfo : encInfo c with
  | none => exact Or.inl ⟨rfl, rfl⟩
  | some enc_info => exact Or.inr (mem_of_encInfo hinfo)

lemma plain_encDef (c : IfaceConfig) :
    ';' ∉ (encDef c).1.toList ∧ ';' ∉ (encDef c).2.toList := by
  have htable : ∀ e ∈ ENC_2_DAT, ';' ∉ e.2.1.toList ∧ ';' ∉ e.2.2.toList := by decide
  rcases encDef_cases c with ⟨-, h⟩ | ⟨e, he, -, h⟩
  · rw [h]
    decide
  · rw [h]
    exact htable e he

lemma plain_tokenCalls {wmode_int : ℕ} {c : IfaceConfig} {call : VifKey × Option String}
    (h : call ∈ tokenCalls wmode_int c) (hv : v ∈ call.2) : ';' ∉ v.toList := by
  simp only [tokenCalls, List.mem_cons, List.not_mem_nil, or_false] at h
  rcases h with rfl | rfl | rfl | rfl | rfl | rfl | rfl | rfl | rfl | rfl | rfl | rfl | rfl |
    rfl | rfl | rfl | rfl | rfl | rfl | rfl | rfl | rfl | rfl
  case inl =>
    cases hv
    exact plain_toString _
  all_goals try first | exact plain_strict_bool hv | exact plain_number hv
  case inl =>
    split at hv <;> cases hv <;> decide
  · cases hv
    exact (plain_encDef c).1
  · cases hv
    exact (plain_encDef c).2
  -- the keys of PMF and RekeyMethod, which depend on the AuthMode
  all_goals
    split at hv
    · cases hv
      decide
    · first
      | cases hv
      | split at hv
        · cases hv
          decide
        · cases hv

namespace Reads

lemma foldl_set_token (hsiv : SetsToken siv) (hi : i < n) {calls : List (VifKey × Option String)}
    (hplain : ∀ call ∈ calls, ∀ v ∈ call.2, ';' ∉ v.toList) (h : Reads n dat f) :
    Reads n (calls.foldl (Mtwifi.set_token siv i) dat)
      ((calls.filterMap fun call => call.2.map (Place.token call.1 i, ·)).foldl Batch.write f) := by
  induction calls generalizing dat f with
  | nil => exact h
  | cons call calls ih =>
    obtain ⟨key, val⟩ := call
    have hrest := fun call' hcall => hplain call' (List.mem_cons_of_mem _ hcall)
    cases val with
    | none => exact ih hrest h
    | some v => exact ih hrest (h.set_token hsiv hi (hplain _ (List.mem_cons_self ..) v rfl))

lemma set_suffix_ssid (h : Reads n dat f) (hi : i < MAX_MBSSID) (val : Option String) :
    Reads n (set_suffix .SSID (i + 1) val dat)
      ((val.map (Place.ssid i, ·)).toList.foldl Batch.write f) := by
  cases val with
  | none => exact h
  | some v => exact h.set_ssid hi

lemma set_suffix_key (h : Reads n dat f) (hi : i < MAX_MBSSID) (val : Option String) :
    Reads n (set_suffix .WPAPSK (i + 1) val dat)
      ((val.map (Place.key i, ·)).toList.foldl Batch.write f) := by
  cases val with
  | none => exact h
  | some v => exact h.set_key hi

lemma vifSettings (hsiv : SetsToken siv) {wmode_int : ℕ} {iface : Iface} (hn : n ≤ MAX_MBSSID)
    (hidx : iface.isAp = true → iface.idx < n) (h : Reads n dat f) :
    Reads n (Mtwifi.vifSettings siv wmode_int dat iface)
      ((assigned wmode_int iface).foldl Batch.write f) := by
  rw [Mtwifi.vifSettings, assigned]
  cases hap : iface.isAp with
  | false => exact h
  | true =>
    have hi := hidx hap
    have hi' : iface.idx < MAX_MBSSID := Nat.lt_of_lt_of_le hi hn
    simp only [if_true, List.foldl_append, List.foldl_cons]
    have hbase := ((h.set_suffix_ssid hi' iface.config.ssid).set_suffix_key hi'
      iface.config.key).foldl_set_token hsiv hi
        fun call (hcall : call ∈ tokenCalls wmode_int iface.config) v hv => plain_tokenCalls hcall hv
    have hpolicy := hbase.set_policy (v := accessPolicy iface.config) hi'
    cases accessControlList iface.config with
    | none => exact hpolicy
    | some acl => exact hpolicy.set_acl hi'

lemma foldl_vifSettings (hsiv : SetsToken siv) {wmode_int : ℕ} {ifaces : List Iface}
    (hn : n ≤ MAX_MBSSID) (hidx : ∀ iface ∈ ifaces, iface.isAp = true → iface.idx < n)
    (h : Reads n dat f) :
    Reads n (ifaces.foldl (Mtwifi.vifSettings siv wmode_int) dat)
      ((ifaces.flatMap (assigned wmode_int)).foldl Batch.write f) := by
  induction ifaces generalizing dat f with
  | nil => exact h
  | cons iface ifaces ih =>
    rw [List.flatMap_cons, List.foldl_append]
    exact ih (fun iface' hmem => hidx iface' (List.mem_cons_of_mem _ hmem))
      (h.vifSettings hsiv hn (hidx iface (List.mem_cons_self ..)))

end Reads

/-! ## The defaults -/

lemma foldl_set_spec {α : Type*} {step : Profile → α → Profile} {l : List α} {k : DatKey}
    (writes : α → DatKey → Prop) (val : DatKey → String)
    (hstep : ∀ dat, ∀ a ∈ l, (writes a k → step dat a k = some (val k)) ∧
      (¬ writes a k → step dat a k = dat k)) :
    ((∃ a ∈ l, writes a k) → l.foldl step dat k = some (val k)) ∧
      ((∀ a ∈ l, ¬ writes a k) → l.foldl step dat k = dat k) := by
  induction l using List.reverseRecOn with
  | nil => exact ⟨fun ⟨a, ha, _⟩ => absurd ha List.not_mem_nil, fun _ => rfl⟩
  | append_singleton l a ih =>
    have ih := ih fun dat b hb => hstep dat b (List.mem_append_left _ hb)
    have ha := hstep (l.foldl step dat) a (by simp)
    rw [List.foldl_append, List.foldl_cons, List.foldl_nil]
    constructor
    · intro hex
      by_cases hwa : writes a k
      · exact ha.1 hwa
      · rw [ha.2 hwa]
        obtain ⟨b, hb, hwb⟩ := hex
        rcases List.mem_append.mp hb with hb | hb
        · exact ih.1 ⟨b, hb, hwb⟩
        · rw [List.mem_singleton.mp hb] at hwb
          exact absurd hwb hwa
    · intro hnone
      rw [ha.2 (hnone a (by simp)), ih.2 fun b hb => hnone b (List.mem_append_left _ hb)]

lemma tokens_defaultStr (hsiv : SetsToken siv) (hv : ';' ∉ v.toList) (m : ℕ) :
    tokens (defaultStr siv (m + 1) v) = List.replicate (m + 1) v.toList := by
  induction m with
  | zero =>
    change tokens (siv "" 0 v) = _
    rw [tokens, hsiv, tokens, Tokens.splitOn_putAt hv]
    rfl
  | succ m ih =>
    have hlen : (List.replicate (m + 1) v.toList).length = m + 1 := List.length_replicate
    rw [defaultStr, List.range_succ, List.foldl_append, ← defaultStr, List.foldl_cons,
      List.foldl_nil, tokens, hsiv, tokens, Tokens.splitOn_putAt hv, ← tokens, ih]
    nth_rewrite 2 [← hlen]
    rw [Tokens.putAt_length, ← List.replicate_succ']

lemma plain_VIF_CFGS : ∀ kv ∈ VIF_CFGS, ';' ∉ kv.2.toList := by decide

lemma lookup_VIF_CFGS : ∀ kv ∈ VIF_CFGS, VIF_CFGS.lookup kv.1 = some kv.2 := by decide

/-- The default of a key with a suffix. -/
def indexedDefault : DatKey → String
  | .AccessPolicy _ => "0"
  | _ => ""

lemma aclLoop_spec (k : DatKey) (dat : Profile) :
    ((∃ i ∈ List.range MAX_MBSSID, k = .AccessPolicy i ∨ k = .AccessControlList i) →
      (List.range MAX_MBSSID).foldl
        (fun dat i => (dat.set (.AccessPolicy i) "0").set (.AccessControlList i) "") dat k =
          some (indexedDefault k)) ∧
    ((∀ i ∈ List.range MAX_MBSSID, ¬ (k = .AccessPolicy i ∨ k = .AccessControlList i)) →
      (List.range MAX_MBSSID).foldl
        (fun dat i => (dat.set (.AccessPolicy i) "0").set (.AccessControlList i) "") dat k =
          dat k) := by
  refine foldl_set_spec (fun i k => k = .AccessPolicy i ∨ k = .AccessControlList i) indexedDefault
    fun dat i _ => ⟨?_, fun h => ?_⟩
  · rintro (rfl | rfl) <;> simp [indexedDefault]
  · rw [not_or] at h
    simp [h]

lemma idxLoop_spec (k : DatKey) (dat : Profile) :
    ((∃ i ∈ List.range' 1 MAX_MBSSID, k = .WPAPSK i ∨ k = .SSID i ∨ k = .RADIUS_Key i) →
      (List.range' 1 MAX_MBSSID).foldl
        (fun dat i => ((dat.set (.WPAPSK i) "").set (.SSID i) "").set (.RADIUS_Key i) "") dat k =
          some (indexedDefault k)) ∧
    ((∀ i ∈ List.range' 1 MAX_MBSSID, ¬ (k = .WPAPSK i ∨ k = .SSID i ∨ k = .RADIUS_Key i)) →
      (List.range' 1 MAX_MBSSID).foldl
        (fun dat i => ((dat.set (.WPAPSK i) "").set (.SSID i) "").set (.RADIUS_Key i) "") dat k =
          dat k) := by
  refine foldl_set_spec (fun i k => k = .WPAPSK i ∨ k = .SSID i ∨ k = .RADIUS_Key i) indexedDefault
    fun dat i _ => ⟨?_, fun h => ?_⟩
  · rintro (rfl | rfl | rfl) <;> simp [indexedDefault]
  · simp only [not_or] at h
    simp [h]

lemma indexedDefaults_of (dat : Profile) {k : DatKey} (h : IndexedDefault k) :
    indexedDefaults dat k = some (indexedDefault k) := by
  rw [indexedDefaults]
  rcases h with ⟨i, hi, hk⟩ | ⟨i, hi, hk⟩
  · rw [(idxLoop_spec k _).2 ?_, (aclLoop_spec k dat).1 ⟨i, List.mem_range.mpr hi, hk⟩]
    rcases hk with rfl | rfl <;> simp
  · exact (idxLoop_spec k _).1 ⟨i, List.mem_range'_1.mpr ⟨hi.1, by omega⟩, hk⟩

lemma indexedDefaults_of_not (dat : Profile) {k : DatKey} (h : ¬ IndexedDefault k) :
    indexedDefaults dat k = dat k := by
  rw [indexedDefaults, (idxLoop_spec k _).2 fun i hi hk => h (Or.inr ⟨i, ?_, hk⟩),
    (aclLoop_spec k dat).2 fun i hi hk => h (Or.inl ⟨i, List.mem_range.mp hi, hk⟩)]
  have hrange := List.mem_range'_1.mp hi
  omega

lemma vifLoop_spec (count : ℕ) (k : DatKey) (dat : Profile) :
    ((∃ kv ∈ VIF_CFGS, k = .vif kv.1) →
      VIF_CFGS.foldl (fun dat kv => dat.set (.vif kv.1) (defaultStr siv count kv.2)) dat k =
        some (match k with
          | .vif key => defaultStr siv count (defaults (.token key 0))
          | _ => "")) ∧
    ((∀ kv ∈ VIF_CFGS, ¬ k = .vif kv.1) →
      VIF_CFGS.foldl (fun dat kv => dat.set (.vif kv.1) (defaultStr siv count kv.2)) dat k =
        dat k) := by
  refine foldl_set_spec (fun (kv : VifKey × String) k => k = .vif kv.1)
    (fun | .vif key => defaultStr siv count (defaults (.token key 0)) | _ => "")
    fun dat kv hkv => ⟨?_, fun hk => by rw [Profile.set_apply, if_neg hk]⟩
  rintro rfl
  have hdef : defaults (.token kv.1 0) = kv.2 := by
    rw [defaults, lookup_VIF_CFGS kv hkv]
    rfl
  simp only [Profile.set_apply, if_true, hdef]

lemma vifDefaults_vif {count : ℕ} (key : VifKey) : vifDefaults siv count dat (.vif key) =
    some (defaultStr siv count (defaults (.token key 0))) := by
  obtain ⟨kv, hkv, hkey⟩ := mem_VIF_CFGS key
  rw [vifDefaults, indexedDefaults_of_not _ (by simp [IndexedDefault]),
    (vifLoop_spec count (.vif key) dat).1 ⟨kv, hkv, by rw [hkey]⟩]

/-- Before the loop over the interfaces every place holds its default. -/
lemma Reads.vifDefaults (hsiv : SetsToken siv) {m : ℕ} (hdat : ∀ i, dat (.SSID i) = none ∧
      dat (.WPAPSK i) = none ∧ dat (.AccessPolicy i) = none ∧ dat (.AccessControlList i) = none) :
    Reads (m + 1) (Mtwifi.vifDefaults siv (m + 1) dat) defaults := by
  have hrest : ∀ k, (∀ key, k ≠ .vif key) → ¬ IndexedDefault k →
      Mtwifi.vifDefaults siv (m + 1) dat k = dat k := by
    intro k hvif hidx
    rw [Mtwifi.vifDefaults, indexedDefaults_of_not _ hidx,
      (vifLoop_spec (m + 1) k dat).2 fun kv _ => hvif kv.1]
  have hidx : ∀ {k : DatKey} {i : ℕ} {v : String}, (∀ key, k ≠ .vif key) → dat k = none →
      (IndexedDefault k ↔ i < MAX_MBSSID) → indexedDefault k = v →
      Mtwifi.vifDefaults siv (m + 1) dat k = if i < MAX_MBSSID then some v else none := by
    intro k i v hvif hnone hiff hv
    split
    · rename_i hi
      rw [Mtwifi.vifDefaults, indexedDefaults_of _ (hiff.mpr hi), hv]
    · rename_i hi
      rw [hrest k hvif (mt hiff.mp hi), hnone]
  constructor
  · intro key
    obtain ⟨kv, hkv, rfl⟩ := mem_VIF_CFGS key
    refine ⟨_, vifDefaults_vif kv.1, ?_⟩
    have hdef : ∀ i, defaults (.token kv.1 i) = kv.2 := by
      intro i
      rw [defaults, lookup_VIF_CFGS kv hkv]
      rfl
    rw [hdef, tokens_defaultStr hsiv (plain_VIF_CFGS kv hkv)]
    refine List.ext_getElem (by simp) fun i hi hi' => ?_
    simp [hdef]
  · exact fun i => hidx (by simp) (hdat _).1 (by simp [IndexedDefault]) rfl
  · rw [hrest _ (by simp) (by simp [IndexedDefault]), (hdat 0).1]
  · exact fun i => hidx (by simp) (hdat _).2.1 (by simp [IndexedDefault]) rfl
  · rw [hrest _ (by simp) (by simp [IndexedDefault]), (hdat 0).2.1]
  · exact fun i => hidx (by simp) (hdat _).2.2.1 (by simp [IndexedDefault]) rfl
  · exact fun i => hidx (by simp) (hdat _).2.2.2 (by simp [IndexedDefault]) rfl

/-! ## The whole profile -/

variable {conf : DeviceConfig} {ifaces ifaces' : List Iface}

/-- The wireless mode of a radio, by which the settings of its access points differ. -/
def wmode (conf : DeviceConfig) : ℕ := calc_wireless_mode conf.band conf.htmode

/-- The profile before the defaults of the access points. -/
def radioProfile (conf : DeviceConfig) (ifaces : List Iface) : Profile :=
  apcliSettings ifaces (chipSettings conf (countrySettings conf (radioSettings conf
    (hasApcli ifaces) (Profile.set (fun _ => none) .BssidNum (toString (bssidCount ifaces))))))

lemma convert_eq : convert siv ⟨conf, ifaces⟩ = ifaces.foldl (vifSettings siv (wmode conf))
    (vifDefaults siv (bssidCount ifaces) (radioProfile conf ifaces)) := rfl

lemma radioProfile_places (conf : DeviceConfig) (ifaces : List Iface) (i : ℕ) :
    radioProfile conf ifaces (.SSID i) = none ∧ radioProfile conf ifaces (.WPAPSK i) = none ∧
      radioProfile conf ifaces (.AccessPolicy i) = none ∧
      radioProfile conf ifaces (.AccessControlList i) = none := by
  have hnot : ∀ k, ¬ (radioProfile conf ifaces).Has k → radioProfile conf ifaces k = none :=
    fun k hk => Option.not_isSome_iff_eq_none.mp hk
  have hempty : ∀ k, ¬ Profile.Has (fun _ => none) k := fun k => by simp [Profile.Has]
  refine ⟨hnot _ ?_, hnot _ ?_, hnot _ ?_, hnot _ ?_⟩ <;>
    rw [radioProfile, has_apcliSettings, has_chipSettings, has_countrySettings,
      has_radioSettings, Profile.has_set] <;>
    simp [hempty]

lemma exists_bssidCount (ifaces : List Iface) : ∃ m, bssidCount ifaces = m + 1 := by
  rw [bssidCount]
  split
  · exact ⟨_, rfl⟩
  · exact ⟨0, rfl⟩

lemma reads_convert (hsiv : SetsToken siv)
    (hcount : bssidCount ifaces ≤ MAX_MBSSID)
    (hidx : ∀ iface ∈ ifaces, iface.isAp = true → iface.idx < bssidCount ifaces) :
    Reads (bssidCount ifaces) (convert siv ⟨conf, ifaces⟩)
      ((ifaces.flatMap (assigned (wmode conf))).foldl Batch.write defaults) := by
  rw [convert_eq]
  refine Reads.foldl_vifSettings hsiv hcount hidx ?_
  obtain ⟨m, hm⟩ := exists_bssidCount ifaces
  rw [hm]
  exact Reads.vifDefaults hsiv (radioProfile_places conf ifaces)

/-- The keys that no access point writes. -/
def Global : DatKey → Prop
  | .vif _ | .AccessPolicy _ | .AccessControlList _ | .WPAPSK _ | .SSID _ => False
  | _ => True

lemma foldl_vifSettings_global {wmode_int : ℕ} {k : DatKey} (hk : Global k) :
    ifaces.foldl (vifSettings siv wmode_int) dat k = dat k := by
  have hsuffix : ∀ {key : ℕ → DatKey} {m : ℕ} {val : Option String} {dat : Profile}, k ≠ key m →
      set_suffix key m val dat k = dat k := by
    intro key m val dat hne
    cases val with
    | none => rfl
    | some v => rw [set_suffix, Profile.set_apply, if_neg hne]
  have htokens : ∀ (calls : List (VifKey × Option String)) (i : ℕ) (dat : Profile),
      calls.foldl (set_token siv i) dat k = dat k := by
    intro calls i
    induction calls with
    | nil => exact fun dat => rfl
    | cons call calls ih =>
      intro dat
      rw [List.foldl_cons, ih, set_token]
      cases call.2 with
      | none => rfl
      | some v =>
        refine (Profile.set_apply ..).trans (if_neg ?_)
        rintro rfl
        exact hk
  have hne : (∀ m, k ≠ .SSID m) ∧ (∀ m, k ≠ .WPAPSK m) ∧ (∀ m, k ≠ .AccessPolicy m) ∧
      ∀ m, k ≠ .AccessControlList m := by
    cases k <;> simp_all [Global]
  obtain ⟨hssid, hkey, hpolicy, hacl⟩ := hne
  induction ifaces generalizing dat with
  | nil => rfl
  | cons iface ifaces ih =>
    rw [List.foldl_cons, ih, vifSettings]
    split
    · cases accessControlList iface.config with
      | none =>
        simp only [Profile.set_apply, if_neg (hpolicy _), htokens, hsuffix (hkey _),
          hsuffix (hssid _)]
      | some acl =>
        simp only [Profile.set_apply, if_neg (hpolicy _), if_neg (hacl _), htokens,
          hsuffix (hkey _), hsuffix (hssid _)]
    · rfl

end

/-! ## Names and slots -/

/-- The interface is an access point that got a name. -/
def Iface.Named (iface : Iface) : Prop := iface.isAp = true ∧ iface.mtwifi_ifname.isSome = true

/-- The interface is an access point that got no name. -/
def Iface.Ignored (iface : Iface) : Prop := iface.isAp = true ∧ iface.mtwifi_ifname = none

instance (iface : Iface) : Decidable iface.Named := inferInstanceAs (Decidable (_ ∧ _))

/-- The indices of the access points that got a name. -/
def usedIdx (ifaces : List Iface) : List ℕ := (ifaces.filter (·.Named)).map Iface.idx

/-- The highest index in use, plus one. -/
def slotCount (ifaces : List Iface) : ℕ := (usedIdx ifaces).foldr max 0 + 1

/-- The access point with an index. -/
def apAt (ifaces : List Iface) (i : ℕ) : Option Iface :=
  ifaces.find? fun iface => iface.Named ∧ iface.idx = i

/-- What a place should hold: what the access point of its index sets there, or the default. -/
def slotSpec (wmode_int : ℕ) (ifaces : List Iface) (p : Place) : String :=
  ((apAt ifaces p.idx).bind fun ap => (assigned wmode_int ap).lookup p).getD (defaults p)

/-- The access points that got names have indices of their own, below 16. -/
structure Numbered (ifaces : List Iface) : Prop where
  lt : ∀ iface ∈ ifaces, iface.Named → iface.idx < MAX_MBSSID
  distinct : ifaces.Pairwise fun iface iface' => iface.Named → iface'.Named →
    iface.idx ≠ iface'.idx

section

variable {siv : String → ℕ → String → String} {conf : DeviceConfig} {ifaces ifaces' : List Iface}
  {iface ap : Iface} {wmode_int i : ℕ} {w w' : Place × String}

lemma Iface.Ignored.idx (h : iface.Ignored) : iface.idx = 0 := by
  rw [Iface.idx, h.2]
  rfl

lemma Iface.isAp_cases (h : iface.isAp = true) : iface.Named ∨ iface.Ignored := by
  cases hname : iface.mtwifi_ifname with
  | none => exact Or.inr ⟨h, hname⟩
  | some name => exact Or.inl ⟨h, by rw [hname]; rfl⟩

namespace Numbered

lemma eq_of_idx (h : Numbered ifaces) (hmem : iface ∈ ifaces) (hmem' : ap ∈ ifaces)
    (hnamed : iface.Named) (hnamed' : ap.Named) (hidx : iface.idx = ap.idx) : iface = ap := by
  by_contra hne
  have hsymm : Std.Symm fun iface iface' : Iface => iface.Named → iface'.Named →
      iface.idx ≠ iface'.idx := ⟨fun _ _ h hb ha => (h ha hb).symm⟩
  exact h.distinct.forall hmem hmem' hne hnamed hnamed' hidx

lemma apAt_idx (h : Numbered ifaces) (hmem : ap ∈ ifaces) (hnamed : ap.Named) :
    apAt ifaces ap.idx = some ap := by
  have hsome : (apAt ifaces ap.idx).isSome = true :=
    List.find?_isSome.mpr ⟨ap, hmem, by simp [hnamed]⟩
  obtain ⟨ap', hap'⟩ := Option.isSome_iff_exists.mp hsome
  have hfound := List.find?_some hap'
  rw [decide_eq_true_iff] at hfound
  rw [hap', h.eq_of_idx (List.mem_of_find?_eq_some hap') hmem hfound.1 hnamed hfound.2]

end Numbered

lemma apAt_spec (h : apAt ifaces i = some ap) : ap ∈ ifaces ∧ ap.Named ∧ ap.idx = i := by
  have hfound := List.find?_some h
  rw [decide_eq_true_iff] at hfound
  exact ⟨List.mem_of_find?_eq_some h, hfound⟩

lemma le_foldr_max {l : List ℕ} {m : ℕ} (h : m ∈ l) : m ≤ l.foldr max 0 := by
  induction l with
  | nil => cases h
  | cons a l ih =>
    rw [List.foldr_cons]
    rcases List.mem_cons.mp h with rfl | h
    · exact le_max_left _ _
    · exact (ih h).trans (le_max_right _ _)

lemma foldr_max_lt {l : List ℕ} {m : ℕ} (hm : 0 < m) (h : ∀ a ∈ l, a < m) :
    l.foldr max 0 < m := by
  induction l with
  | nil => exact hm
  | cons a l ih =>
    exact max_lt (h a (List.mem_cons_self ..)) (ih fun b hb => h b (List.mem_cons_of_mem _ hb))

lemma usedIdx_cons : usedIdx (iface :: ifaces) =
    if iface.Named then iface.idx :: usedIdx ifaces else usedIdx ifaces := by
  rw [usedIdx, List.filter_cons]
  by_cases h : iface.Named <;> simp [h, usedIdx]

/-- `max_ap_idx` is the greatest index in use; an access point without a name counts as 0. -/
lemma maxApIdx_eq (ifaces : List Iface) : maxApIdx ifaces = (usedIdx ifaces).foldr max 0 := by
  have hfold : ∀ m, ifaces.foldl (fun m iface =>
      if iface.isAp ∧ m < get_vif_idx iface.mtwifi_ifname then get_vif_idx iface.mtwifi_ifname
      else m) m = max m ((usedIdx ifaces).foldr max 0) := by
    induction ifaces with
    | nil => exact fun m => (max_eq_left (Nat.zero_le m)).symm
    | cons iface ifaces ih =>
      intro m
      rw [List.foldl_cons, ih, usedIdx_cons]
      by_cases hnamed : iface.Named
      · rw [if_pos hnamed, List.foldr_cons, ← max_assoc, ← Iface.idx]
        congr 1
        simp only [hnamed.1, true_and]
        split <;> omega
      · rw [if_neg hnamed, if_neg]
        rintro ⟨hap, hlt⟩
        have hzero := ((Iface.isAp_cases hap).resolve_left hnamed).idx
        rw [Iface.idx] at hzero
        omega
  rw [maxApIdx, hfold 0]
  exact max_eq_right (Nat.zero_le _)

lemma bssidCount_eq (ifaces : List Iface) : bssidCount ifaces = slotCount ifaces := by
  rw [bssidCount, slotCount, maxApIdx_eq]
  split
  · rfl
  · rename_i hnone
    have hempty : usedIdx ifaces = [] := by
      rw [usedIdx, List.map_eq_nil_iff, List.filter_eq_nil_iff]
      intro iface hmem hnamed
      rw [decide_eq_true_iff] at hnamed
      exact hnone (List.any_eq_true.mpr ⟨iface, hmem, hnamed.1⟩)
    rw [hempty]
    rfl

lemma Numbered.slotCount_le (h : Numbered ifaces) : slotCount ifaces ≤ MAX_MBSSID := by
  refine foldr_max_lt (by decide) fun i hi => ?_
  obtain ⟨iface, hmem, rfl⟩ := List.mem_map.mp hi
  obtain ⟨hmem, hnamed⟩ := List.mem_filter.mp hmem
  exact h.lt iface hmem (of_decide_eq_true hnamed)

lemma idx_lt_slotCount (hmem : iface ∈ ifaces) (hap : iface.isAp = true) :
    iface.idx < slotCount ifaces := by
  rcases Iface.isAp_cases hap with h | h
  · refine Nat.lt_succ_of_le (le_foldr_max (List.mem_map.mpr ⟨iface, ?_, rfl⟩))
    exact List.mem_filter.mpr ⟨hmem, decide_eq_true h⟩
  · rw [h.idx]
    exact Nat.succ_pos _

/-! ## What the places hold -/

lemma nodup_tokenCalls (wmode_int : ℕ) (c : IfaceConfig) :
    ((tokenCalls wmode_int c).map Prod.fst).Nodup := by
  simp [tokenCalls]

lemma mem_assigned : w ∈ assigned wmode_int iface ↔ iface.isAp = true ∧ w.1.idx = iface.idx ∧
    match w.1 with
    | .token key _ => (key, some w.2) ∈ tokenCalls wmode_int iface.config
    | .ssid _ => iface.config.ssid = some w.2
    | .key _ => iface.config.key = some w.2
    | .policy _ => accessPolicy iface.config = w.2
    | .acl _ => accessControlList iface.config = some w.2 := by
  obtain ⟨p, v⟩ := w
  rw [assigned]
  cases iface.isAp with
  | false => simp
  | true =>
    cases p <;> simp [Place.idx, eq_comm]
    all_goals exact and_comm

lemma assigned_unique (hw : w ∈ assigned wmode_int iface) (hw' : w' ∈ assigned wmode_int iface)
    (h : w.1 = w'.1) : w.2 = w'.2 := by
  obtain ⟨p, v⟩ := w
  obtain ⟨p', v'⟩ := w'
  obtain rfl : p = p' := h
  have hv := (mem_assigned.mp hw).2.2
  have hv' := (mem_assigned.mp hw').2.2
  cases p with
  | token key i =>
    have hcall := List.inj_on_of_nodup_map (nodup_tokenCalls wmode_int iface.config) hv hv' rfl
    exact Option.some_injective _ (congrArg Prod.snd hcall)
  | ssid i => exact Option.some_injective _ (hv.symm.trans hv')
  | key i => exact Option.some_injective _ (hv.symm.trans hv')
  | policy i => exact Eq.trans (Eq.symm hv) hv'
  | acl i => exact Option.some_injective _ (hv.symm.trans hv')

lemma lookup_assigned {p : Place} {v : String} :
    (assigned wmode_int iface).lookup p = some v ↔ (p, v) ∈ assigned wmode_int iface := by
  constructor
  · intro h
    obtain ⟨pre, post, hsplit, -⟩ := List.lookup_eq_some_iff.mp h
    rw [hsplit]
    simp
  · intro h
    cases hlook : (assigned wmode_int iface).lookup p with
    | none => exact absurd (List.lookup_eq_none_iff.mp hlook _ h) (by simp)
    | some v' =>
      obtain ⟨pre, post, hsplit, -⟩ := List.lookup_eq_some_iff.mp hlook
      have hmem : (p, v') ∈ assigned wmode_int iface := by
        rw [hsplit]
        simp
      exact congrArg some (assigned_unique hmem h rfl)

lemma slotSpec_of_named (h : Numbered ifaces) (hmem : ap ∈ ifaces) (hnamed : ap.Named)
    (hw : w ∈ assigned wmode_int ap) : slotSpec wmode_int ifaces w.1 = w.2 := by
  rw [slotSpec, (mem_assigned.mp hw).2.1, h.apAt_idx hmem hnamed, Option.bind_some,
    lookup_assigned.mpr hw]
  rfl

lemma slotSpec_cases (p : Place) : slotSpec wmode_int ifaces p = defaults p ∨
    ∃ ap ∈ ifaces, ap.Named ∧ (p, slotSpec wmode_int ifaces p) ∈ assigned wmode_int ap := by
  rw [slotSpec]
  cases hap : apAt ifaces p.idx with
  | none => exact Or.inl rfl
  | some ap =>
    rw [Option.bind_some]
    cases hlook : (assigned wmode_int ap).lookup p with
    | none => exact Or.inl rfl
    | some v => exact Or.inr ⟨ap, (apAt_spec hap).1, (apAt_spec hap).2.1, lookup_assigned.mp hlook⟩

end

/-! ## When every slot is its access point's -/

/-- The options that `convert` takes of a client, as far as they can be told apart in a profile. -/
def SameClient (c c' : IfaceConfig) : Prop :=
  truthy c.disabled = truthy c'.disabled ∧ cstr c.ssid = cstr c'.ssid ∧
    cstr c.bssid = cstr c'.bssid ∧ cstr c.key = cstr c'.key ∧ encInfo c = encInfo c'

/-- Every access point has its own slot in the profile of a radio. -/
structure Slotted (siv : String → ℕ → String → String) (conf : DeviceConfig)
    (ifaces : List Iface) : Prop where
  /-- BssidNum is the highest index in use, plus one. -/
  count : convert siv ⟨conf, ifaces⟩ .BssidNum = some (toString (slotCount ifaces))
  /-- The lists have this many tokens, and each slot holds what the access point of its index sets
  and nothing else. -/
  slots : Reads (slotCount ifaces) (convert siv ⟨conf, ifaces⟩) (slotSpec (wmode conf) ifaces)
  /-- The order of the interfaces does not matter. -/
  order : ∀ ifaces', ifaces'.Perm ifaces →
    convert siv ⟨conf, ifaces'⟩ = convert siv ⟨conf, ifaces⟩
  /-- The AuthMode is OPEN only without encryption. -/
  open_auth : ∀ i ap s, apAt ifaces i = some ap →
    convert siv ⟨conf, ifaces⟩ (.vif .AuthMode) = some s →
    (tokens s)[i]? = some "OPEN".toList →
    ap.config.encryption = none ∨ ap.config.encryption = some "none"

/-- Nothing that is set is set twice in different ways, and no encryption is unknown. -/
structure SlotSafe (conf : DeviceConfig) (ifaces : List Iface) : Prop where
  /-- What an access point without a name sets is what the first slot holds anyway. -/
  ignored : ∀ iface ∈ ifaces, iface.Ignored → ∀ w ∈ assigned (wmode conf) iface,
    slotSpec (wmode conf) ifaces w.1 = w.2
  known : ∀ ap ∈ ifaces, ap.Named → ap.config.encryption = none ∨ (encInfo ap.config).isSome = true
  clients : ∀ iface ∈ ifaces, iface.isSta = true → ∀ iface' ∈ ifaces, iface'.isSta = true →
    SameClient iface.config iface'.config

section

variable {siv : String → ℕ → String → String} {conf : DeviceConfig} {ifaces ifaces' : List Iface}
  {iface iface' ap : Iface} {dat dat' : Profile} {n : ℕ} {f : Place → String}

lemma usedIdx_perm (hperm : ifaces'.Perm ifaces) : (usedIdx ifaces').Perm (usedIdx ifaces) :=
  (hperm.filter _).map _

lemma slotCount_perm (hperm : ifaces'.Perm ifaces) : slotCount ifaces' = slotCount ifaces := by
  rw [slotCount, slotCount, (usedIdx_perm hperm).foldr_eq]

lemma reads_perm (hsiv : SetsToken siv) (h : Numbered ifaces) (hperm : ifaces'.Perm ifaces) :
    Reads (slotCount ifaces) (convert siv ⟨conf, ifaces'⟩)
      ((ifaces'.flatMap (assigned (wmode conf))).foldl Batch.write defaults) := by
  have hcount : bssidCount ifaces' = slotCount ifaces := by
    rw [bssidCount_eq, slotCount_perm hperm]
  have hreads := @reads_convert siv conf ifaces' hsiv
  rw [hcount] at hreads
  refine hreads h.slotCount_le fun iface hmem hap => ?_
  rw [← slotCount_perm hperm]
  exact idx_lt_slotCount hmem hap

/-- If ignored access points set nothing else, each place holds what it should in any order. -/
lemma foldl_assigned_eq (h : Numbered ifaces) (hperm : ifaces'.Perm ifaces)
    (hsafe : SlotSafe conf ifaces) (p : Place) :
    (ifaces'.flatMap (assigned (wmode conf))).foldl Batch.write defaults p =
      slotSpec (wmode conf) ifaces p := by
  refine Batch.foldl_write_of_forall (fun w hw hp => ?_) ?_
  · obtain ⟨iface, hmem, hw⟩ := List.mem_flatMap.mp hw
    have hmem := hperm.mem_iff.mp hmem
    rw [← hp]
    rcases Iface.isAp_cases (mem_assigned.mp hw).1 with hnamed | hignored
    · exact (slotSpec_of_named h hmem hnamed hw).symm
    · exact (hsafe.ignored iface hmem hignored w hw).symm
  · rcases @slotSpec_cases ifaces (wmode conf) p with hdef | hex
    · exact Or.inr hdef.symm
    · obtain ⟨ap, hmem, -, hw⟩ := hex
      exact Or.inl ⟨_, List.mem_flatMap.mpr ⟨ap, hperm.mem_iff.mpr hmem, hw⟩, rfl⟩

/-- Two profiles that read the same at all places agree on the keys of the places. -/
lemma Reads.eq_of_not_global (h : Reads n dat f) (h' : Reads n dat' f) {k : DatKey}
    (hk : ¬ Global k) : dat k = dat' k := by
  cases k with
  | vif key =>
    obtain ⟨s, hs, htok⟩ := h.token key
    obtain ⟨s', hs', htok'⟩ := h'.token key
    rw [hs, hs', String.toList_injective (Tokens.splitOn_injective (htok.trans htok'.symm))]
  | AccessPolicy i => rw [h.policy, h'.policy]
  | AccessControlList i => rw [h.acl, h'.acl]
  | WPAPSK n =>
    cases n with
    | zero => rw [h.key_zero, h'.key_zero]
    | succ i => rw [h.key, h'.key]
  | SSID n =>
    cases n with
    | zero => rw [h.ssid_zero, h'.ssid_zero]
    | succ i => rw [h.ssid, h'.ssid]
  | _ => exact absurd trivial hk

lemma clientSettings_congr {c c' : IfaceConfig} (h : SameClient c c') :
    clientSettings c dat = clientSettings c' dat := by
  obtain ⟨hdisabled, hssid, hbssid, hkey, henc⟩ := h
  rw [clientSettings, clientSettings, hdisabled, hssid, hbssid, hkey, henc]

lemma apcliSettings_perm (hperm : ifaces'.Perm ifaces) (hsafe : SlotSafe conf ifaces) :
    apcliSettings ifaces' dat = apcliSettings ifaces dat := by
  have hmem : ∀ {iface}, iface ∈ ifaces' → iface ∈ ifaces := fun h => hperm.mem_iff.mp h
  rw [apcliSettings, apcliSettings]
  cases hfind' : ifaces'.find? Iface.isSta with
  | none =>
    have hnone : ifaces.find? Iface.isSta = none := by
      rw [List.find?_eq_none] at hfind' ⊢
      exact fun iface h => hfind' iface (hperm.mem_iff.mpr h)
    rw [hnone]
  | some iface' =>
    cases hfind : ifaces.find? Iface.isSta with
    | none =>
      exact absurd (List.find?_some hfind')
        (List.find?_eq_none.mp hfind iface' (hmem (List.mem_of_find?_eq_some hfind')))
    | some iface =>
      exact clientSettings_congr (hsafe.clients _ (hmem (List.mem_of_find?_eq_some hfind'))
        (List.find?_some hfind') _ (List.mem_of_find?_eq_some hfind) (List.find?_some hfind))

lemma radioProfile_perm (hperm : ifaces'.Perm ifaces) (hsafe : SlotSafe conf ifaces) :
    radioProfile conf ifaces' = radioProfile conf ifaces := by
  have hapcli : hasApcli ifaces' = hasApcli ifaces := hperm.any_eq
  rw [radioProfile, radioProfile, apcliSettings_perm hperm hsafe, hapcli, bssidCount_eq,
    bssidCount_eq, slotCount_perm hperm]

lemma convert_global {k : DatKey} (hk : Global k) : convert siv ⟨conf, ifaces⟩ k =
    vifDefaults siv (bssidCount ifaces) (radioProfile conf ifaces) k := by
  rw [convert_eq, foldl_vifSettings_global hk]

lemma convert_perm (hsiv : SetsToken siv) (h : Numbered ifaces) (hperm : ifaces'.Perm ifaces)
    (hsafe : SlotSafe conf ifaces) : convert siv ⟨conf, ifaces'⟩ = convert siv ⟨conf, ifaces⟩ := by
  ext1 k
  by_cases hk : Global k
  · rw [convert_global hk, convert_global hk, radioProfile_perm hperm hsafe, bssidCount_eq,
      bssidCount_eq, slotCount_perm hperm]
  · have hspec : ∀ {l}, l.Perm ifaces → Reads (slotCount ifaces) (convert siv ⟨conf, l⟩)
        (slotSpec (wmode conf) ifaces) := fun hl =>
      (reads_perm hsiv h hl).congr fun p _ => foldl_assigned_eq h hl hsafe p
    exact (hspec hperm).eq_of_not_global (hspec (List.Perm.refl ifaces)) hk

lemma none_of_open {c : IfaceConfig} (hknown : c.encryption = none ∨ (encInfo c).isSome = true)
    (h : (encDef c).1 = "OPEN") : c.encryption = none ∨ c.encryption = some "none" := by
  have htable : ∀ e ∈ ENC_2_DAT, e.2.1 = "OPEN" → e.1 = "none" := by decide
  refine hknown.imp_right fun hsome => ?_
  rcases encDef_cases c with ⟨hnone, -⟩ | ⟨e, he, henc, hdef⟩
  · rw [hnone] at hsome
    cases hsome
  · rw [henc, htable e he (by rw [← hdef, h])]

lemma radioProfile_bssidNum : radioProfile conf ifaces .BssidNum =
    some (toString (bssidCount ifaces)) := by
  have hclient : ∀ (c : IfaceConfig) (dat : Profile),
      clientSettings c dat .BssidNum = dat .BssidNum := by
    intro c dat
    rw [clientSettings]
    cases encInfo c with
    | none => simp
    | some enc_info =>
      simp only
      split <;> simp
  have hapcli : ∀ dat : Profile, apcliSettings ifaces dat .BssidNum = dat .BssidNum := by
    intro dat
    rw [apcliSettings]
    cases ifaces.find? Iface.isSta with
    | none => simp
    | some iface => simp [hclient]
  have hchip : ∀ dat : Profile, chipSettings conf dat .BssidNum = dat .BssidNum := by
    intro dat
    rw [chipSettings]
    split <;> simp
  have hcountry : ∀ dat : Profile, countrySettings conf dat .BssidNum = dat .BssidNum := by
    intro dat
    rw [countrySettings]
    cases countryOf conf with
    | none => rfl
    | some country =>
      simp only
      split <;> simp
  rw [radioProfile, hapcli, hchip, hcountry]
  simp [radioSettings]

lemma slotted_of_safe (hsiv : SetsToken siv) (h : Numbered ifaces) (hsafe : SlotSafe conf ifaces) :
    Slotted siv conf ifaces where
  count := by
    have hglobal : Global .BssidNum := trivial
    rw [convert_global hglobal, vifDefaults, indexedDefaults_of_not _ (by simp [IndexedDefault]),
      (vifLoop_spec _ _ _).2 (by simp), radioProfile_bssidNum, bssidCount_eq]
  slots := (reads_perm hsiv h (List.Perm.refl _)).congr fun p _ =>
    foldl_assigned_eq h (List.Perm.refl _) hsafe p
  order _ hperm := convert_perm hsiv h hperm hsafe
  open_auth i ap s hap hs htok := by
    obtain ⟨hmem, hnamed, hidx⟩ := apAt_spec hap
    have hreads : Reads (slotCount ifaces) (convert siv ⟨conf, ifaces⟩)
        (slotSpec (wmode conf) ifaces) := (reads_perm hsiv h (List.Perm.refl _)).congr
      fun p _ => foldl_assigned_eq h (List.Perm.refl _) hsafe p
    have hw : (Place.token .AuthMode ap.idx, (encDef ap.config).1) ∈ assigned (wmode conf) ap :=
      mem_assigned.mpr ⟨hnamed.1, rfl, by simp [tokenCalls]⟩
    have hspec := slotSpec_of_named h hmem hnamed hw
    have hlt := idx_lt_slotCount hmem hnamed.1
    obtain ⟨s', hs', htok'⟩ := hreads.token .AuthMode
    obtain rfl := Option.some_injective _ (hs'.symm.trans hs)
    rw [htok', ← hidx, List.getElem?_map, List.getElem?_range hlt, Option.map_some, hspec] at htok
    exact none_of_open (hsafe.known ap hmem hnamed)
      (String.toList_injective (Option.some_injective _ htok))

lemma convert_client (hfind : ifaces.find? Iface.isSta = some iface) :
    convert siv ⟨conf, ifaces⟩ .ApCliEnable =
        some (if truthy iface.config.disabled then "0" else "1") ∧
      convert siv ⟨conf, ifaces⟩ .ApCliSsid = some (cstr iface.config.ssid) ∧
      convert siv ⟨conf, ifaces⟩ .ApCliBssid = some (cstr iface.config.bssid) ∧
      convert siv ⟨conf, ifaces⟩ .ApCliWPAPSK = some (cstr iface.config.key) ∧
      convert siv ⟨conf, ifaces⟩ .ApCliAuthMode =
        some (((encInfo iface.config).map Prod.fst).getD "") ∧
      convert siv ⟨conf, ifaces⟩ .ApCliEncrypType =
        some (((encInfo iface.config).map Prod.snd).getD "") := by
  have hglobal : ∀ k, Global k → ¬ IndexedDefault k → (∀ key, k ≠ .vif key) →
      convert siv ⟨conf, ifaces⟩ k = radioProfile conf ifaces k := by
    intro k hk hidx hvif
    rw [convert_global hk, vifDefaults, indexedDefaults_of_not _ hidx,
      (vifLoop_spec _ _ _).2 fun kv _ => hvif kv.1]
  rw [hglobal .ApCliEnable trivial (by simp [IndexedDefault]) (by simp),
    hglobal .ApCliSsid trivial (by simp [IndexedDefault]) (by simp),
    hglobal .ApCliBssid trivial (by simp [IndexedDefault]) (by simp),
    hglobal .ApCliWPAPSK trivial (by simp [IndexedDefault]) (by simp),
    hglobal .ApCliAuthMode trivial (by simp [IndexedDefault]) (by simp),
    hglobal .ApCliEncrypType trivial (by simp [IndexedDefault]) (by simp)]
  simp only [radioProfile, apcliSettings, hfind, clientSettings]
  cases encInfo iface.config with
  | none => simp
  | some enc_info =>
    simp only
    split <;> simp

lemma encInfo_eq {c c' : IfaceConfig}
    (hauth : ((encInfo c).map Prod.fst).getD "" = ((encInfo c').map Prod.fst).getD "")
    (henc : ((encInfo c).map Prod.snd).getD "" = ((encInfo c').map Prod.snd).getD "") :
    encInfo c = encInfo c' := by
  have htable : ∀ e ∈ ENC_2_DAT, e.2.1 ≠ "" := by decide
  cases hinfo : encInfo c with
  | none =>
    cases hinfo' : encInfo c' with
    | none => rfl
    | some enc_info' =>
      obtain ⟨e, he, -, rfl⟩ := mem_of_encInfo hinfo'
      rw [hinfo, hinfo'] at hauth
      exact absurd hauth.symm (htable e he)
  | some enc_info =>
    obtain ⟨e, he, -, rfl⟩ := mem_of_encInfo hinfo
    rw [hinfo] at hauth henc
    cases hinfo' : encInfo c' with
    | none =>
      rw [hinfo'] at hauth
      exact absurd hauth (htable e he)
    | some enc_info' =>
      rw [hinfo'] at hauth henc
      exact congrArg some (Prod.ext hauth henc)

/-- One client in front of the others, and then another one, lead to the same settings. -/
lemma sameClient_of_slotted (h : Slotted siv conf ifaces) (hmem : iface ∈ ifaces)
    (hsta : iface.isSta = true) (hmem' : iface' ∈ ifaces) (hsta' : iface'.isSta = true) :
    SameClient iface.config iface'.config := by
  have hfront : ∀ {iface}, iface ∈ ifaces → iface.isSta = true → ∃ l : List Iface,
      l.Perm ifaces ∧ l.find? Iface.isSta = some iface := by
    intro iface hmem hsta
    obtain ⟨pre, post, rfl⟩ := List.append_of_mem hmem
    exact ⟨iface :: (pre ++ post), List.perm_middle.symm, List.find?_cons_of_pos hsta⟩
  obtain ⟨l, hl, hfind⟩ := hfront hmem hsta
  obtain ⟨l', hl', hfind'⟩ := hfront hmem' hsta'
  have hclient := @convert_client siv conf _ _ hfind
  have hclient' := @convert_client siv conf _ _ hfind'
  rw [h.order l hl] at hclient
  rw [h.order l' hl'] at hclient'
  obtain ⟨henable, hssid, hbssid, hkey, hauth, henc⟩ := hclient
  obtain ⟨henable', hssid', hbssid', hkey', hauth', henc'⟩ := hclient'
  refine ⟨?_, Option.some_injective _ (hssid.symm.trans hssid'),
    Option.some_injective _ (hbssid.symm.trans hbssid'),
    Option.some_injective _ (hkey.symm.trans hkey'),
    encInfo_eq (Option.some_injective _ (hauth.symm.trans hauth'))
      (Option.some_injective _ (henc.symm.trans henc'))⟩
  have hswitch := Option.some_injective _ (henable.symm.trans henable')
  revert hswitch
  cases truthy iface.config.disabled <;> cases truthy iface'.config.disabled <;> decide

lemma ignored_of_slotted (hsiv : SetsToken siv) (hnum : Numbered ifaces)
    (h : Slotted siv conf ifaces) (hmem : iface ∈ ifaces) (hignored : iface.Ignored)
    {w : Place × String} (hw : w ∈ assigned (wmode conf) iface) :
    slotSpec (wmode conf) ifaces w.1 = w.2 := by
  obtain ⟨pre, post, hsplit⟩ := List.append_of_mem hmem
  have hperm : ((pre ++ post) ++ [iface]).Perm ifaces := by
    rw [hsplit]
    exact (List.perm_append_singleton iface _).trans List.perm_middle.symm
  have hreads := @reads_perm siv conf _ _ hsiv hnum hperm
  rw [h.order _ hperm] at hreads
  have hidx : w.1.idx = 0 := (mem_assigned.mp hw).2.1.trans hignored.idx
  have hwithin : w.1.Within (slotCount ifaces) := by
    obtain ⟨p, v⟩ := w
    cases p with
    | token key i => exact lt_of_eq_of_lt hidx (Nat.succ_pos _)
    | _ => exact lt_of_eq_of_lt hidx (by decide)
  rw [h.slots.unique hreads hwithin, List.flatMap_append, List.foldl_append, List.flatMap_cons,
    List.flatMap_nil, List.append_nil]
  exact Batch.foldl_write_of_forall (fun w' hw' hp => assigned_unique hw' hw hp)
    (Or.inl ⟨w, hw, rfl⟩)

lemma safe_of_slotted (hsiv : SetsToken siv) (hnum : Numbered ifaces)
    (h : Slotted siv conf ifaces) : SlotSafe conf ifaces where
  ignored _ hmem hignored _ hw := ignored_of_slotted hsiv hnum h hmem hignored hw
  clients _ hmem hsta _ hmem' hsta' := sameClient_of_slotted h hmem hsta hmem' hsta'
  known ap hmem hnamed := by
    by_cases hsome : (encInfo ap.config).isSome = true
    · exact Or.inr hsome
    · -- the encryption is not in the table, and the slot says OPEN
      left
      have hnone := Option.not_isSome_iff_eq_none.mp hsome
      have hdef : (encDef ap.config).1 = "OPEN" := by
        rw [encDef, hnone]
        rfl
      have hw : (Place.token .AuthMode ap.idx, (encDef ap.config).1) ∈ assigned (wmode conf) ap :=
        mem_assigned.mpr ⟨hnamed.1, rfl, by simp [tokenCalls]⟩
      have hspec := slotSpec_of_named hnum hmem hnamed hw
      have hlt := idx_lt_slotCount hmem hnamed.1
      obtain ⟨s, hs, htok⟩ := h.slots.token .AuthMode
      have hopen : (tokens s)[ap.idx]? = some "OPEN".toList := by
        rw [htok, List.getElem?_map, List.getElem?_range hlt, Option.map_some, hspec, hdef]
      refine (h.open_auth ap.idx ap s (hnum.apAt_idx hmem hnamed) hs hopen).resolve_right ?_
      intro henc
      rw [encInfo, henc] at hnone
      cases hnone

end

/-! ## The interfaces of `handle_setup` -/

lemma numberIfaces_numbered { ap_prefix apcli_prefix : String}
    (h : ap_prefix.toList.getLast?.any Char.isDigit = false) (configs : List IfaceConfig)
    (ap_idx apcli_idx : ℕ) :
    Numbered (numberIfaces ap_prefix apcli_prefix ap_idx apcli_idx configs) ∧
      ∀ iface ∈ numberIfaces ap_prefix apcli_prefix ap_idx apcli_idx configs, iface.Named →
        ap_idx ≤ iface.idx := by
  induction configs generalizing ap_idx apcli_idx with
  | nil => exact ⟨⟨fun _ hmem => absurd hmem List.not_mem_nil, List.Pairwise.nil⟩,
      fun _ hmem => absurd hmem List.not_mem_nil⟩
  | cons config configs ih =>
    have hcons : ∀ {iface : Iface} {l : List Iface}, ¬ iface.Named → Numbered l ∧
        (∀ iface ∈ l, iface.Named → ap_idx ≤ iface.idx) → Numbered (iface :: l) ∧
        ∀ iface' ∈ iface :: l, iface'.Named → ap_idx ≤ iface'.idx := by
      rintro iface l hnot ⟨hnum, hle⟩
      refine ⟨⟨?_, List.pairwise_cons.mpr ⟨fun _ _ hnamed => absurd hnamed hnot, hnum.distinct⟩⟩,
        ?_⟩
      · exact List.forall_mem_cons.mpr ⟨fun hnamed => absurd hnamed hnot, hnum.lt⟩
      · exact List.forall_mem_cons.mpr ⟨fun hnamed => absurd hnamed hnot, hle⟩
    rw [numberIfaces]
    split
    · rename_i hap
      split
      · rename_i hlt
        obtain ⟨hnum, hle⟩ := ih (ap_idx + 1) apcli_idx
        have hidx : Iface.idx ⟨config, some ( ap_prefix ++ toString ap_idx)⟩ = ap_idx :=
          get_vif_idx_append ap_idx h
        refine ⟨⟨?_, List.pairwise_cons.mpr ⟨fun iface hmem _ hnamed => ?_, hnum.distinct⟩⟩, ?_⟩
        · refine List.forall_mem_cons.mpr ⟨fun _ => ?_, hnum.lt⟩
          rw [hidx]
          exact Nat.lt_succ_of_le hlt
        · have := hle iface hmem hnamed
          omega
        · refine List.forall_mem_cons.mpr ⟨fun _ => hidx.ge, fun iface hmem hnamed => ?_⟩
          have := hle iface hmem hnamed
          omega
      · exact hcons (fun hnamed => absurd hnamed.2 (by simp)) (ih ap_idx apcli_idx)
    · rename_i hap
      have hnot : ∀ name, ¬ Iface.Named ⟨config, name⟩ := fun name hnamed =>
        hap (of_decide_eq_true hnamed.1)
      split
      · split
        · exact hcons (hnot _) (ih ap_idx (apcli_idx + 1))
        · exact hcons (hnot _) (ih ap_idx apcli_idx)
      · exact hcons (hnot _) (ih ap_idx apcli_idx)

/-- The prefix of access points, which the L1 profile gives. -/
def apPrefix (ext_ifname : Option String) : String :=
  if truthy ext_ifname then cstr ext_ifname else "ra"

/-- Every access point has its own slot exactly if those that got no name, and the clients after the
first, set nothing else, and no encryption is unknown.  The prefix of interface names, which are
read back as numbers, does not end in a digit. -/
theorem slots_iff (siv : String → ℕ → String → String) (hsiv : SetsToken siv) (conf : DeviceConfig)
    (cur_devname : String) (ext_ifname apcli_ifname : Option String)
    (hpre : (apPrefix ext_ifname).toList.getLast?.any Char.isDigit = false)
    (netifd_ifaces : String → Option IfaceConfig) (secs : List UciSection) :
    Slotted siv conf (handle_setup cur_devname ext_ifname apcli_ifname netifd_ifaces secs) ↔
      SlotSafe conf (handle_setup cur_devname ext_ifname apcli_ifname netifd_ifaces secs) := by
  have hnum : Numbered (handle_setup cur_devname ext_ifname apcli_ifname netifd_ifaces secs) :=
    (numberIfaces_numbered hpre (completeIfaces cur_devname netifd_ifaces secs) 0 0).1
  exact ⟨safe_of_slotted hsiv hnum, slotted_of_safe hsiv hnum⟩

/-- A `set_indexed_value` that does what the library says. -/
def setIndexed (s : String) (i : ℕ) (v : String) : String :=
  String.ofList ([';'].intercalate (Tokens.putAt (tokens s) i v.toList))

lemma setsToken_setIndexed : SetsToken setIndexed := fun _ _ _ => String.toList_ofList

/-- An access point of `radio0`. -/
def accessPoint (encryption : String) : UciSection where
  name := "ap"
  device := "radio0"
  mode := some "ap"
  encryption := some encryption

/-- A radio with one access point, whose encryption is in the table. -/
theorem slots_iff_psk2 : Slotted setIndexed {} (handle_setup "radio0" (some "rax") none
      (fun _ => none) [accessPoint "psk2"]) := by
  refine (slots_iff setIndexed setsToken_setIndexed {} "radio0" (some "rax") none rfl (fun _ => none)
    _).mpr ⟨?_, ?_, ?_⟩
  · intro iface hmem hignored
    obtain rfl := List.mem_singleton.mp hmem
    exact absurd hignored.2 (by simp)
  · intro ap hmem _
    obtain rfl := List.mem_singleton.mp hmem
    exact Or.inr (by decide)
  · intro iface hmem hsta
    obtain rfl := List.mem_singleton.mp hmem
    exact absurd hsta (by decide)

/-- A network with the encryption `wpa2`, which is not in the table, is open. -/
theorem wpa2_open : ¬ ∀ siv, SetsToken siv → ∀ conf cur_devname ext_ifname apcli_ifname
    netifd_ifaces secs, (apPrefix ext_ifname).toList.getLast?.any Char.isDigit = false →
      Slotted siv conf (handle_setup cur_devname ext_ifname apcli_ifname netifd_ifaces secs) := by
  intro h
  have hslot := h setIndexed setsToken_setIndexed {} "radio0" none none (fun _ => none)
    [accessPoint "wpa2"] rfl
  have hopen := hslot.open_auth 0 _ "OPEN" rfl (by decide +kernel) (by decide)
  exact absurd hopen (by decide)

end Mtwifi
