import Mt798x.Wifi.Ap
import Mt798x.Wifi.Validate

/-!
# Do the derived keys of fast transitions depend on a secret?

Where the options `r0kh` and `r1kh` are missing, `iface_roaming` derives a key from the mobility
domain and the RADIUS secret, or the passphrase.  It looks for the RADIUS secret under the name
`auth_secret`, which the schema of an interface makes an alias: validation has renamed it to
`auth_server_shared_secret` before.
-/

namespace Wifi

open Validate (Schema Dict Kind)

/-- An option as validation leaves it. -/
def Value.script : Value → Script.Value
  | null => .null
  | bool b => .bool b
  | int n => .num (.int n)
  | str s => .str s
  | arr l => .arr (l.map .str)

/-- What the schema of an interface says of the options that the keys are made of. -/
structure RoamingSchema (schema : Schema) : Prop extends schema.Plain where
  auth_secret : schema.lookup "auth_secret" = some (.aliasOf (some "auth_server_shared_secret"))
  auth_server_shared_secret :
    schema.lookup "auth_server_shared_secret" = some (.option (.string none) .null)
  key : schema.lookup "key" = some (.option (.string none) .null)
  r0kh : schema.lookup "r0kh" = some (.option (.arrayOf (.string none)) .null)
  r1kh : schema.lookup "r1kh" = some (.option (.arrayOf (.string none)) .null)

namespace Section

variable (schema : Schema) (env : Env) (s : Section)

/-- The options that the keys are made of are what validation has left. -/
def Passed : Prop :=
  ∃ dict dict' : Dict, Validate.validate schema dict = .ok dict' ∧
    ∀ k ∈ ["auth_secret", "auth_server_shared_secret", "key", "r0kh", "r1kh"],
      (s.opt k).script = (dict'.lookup k).getD .null

/-- The keys are generated from the passphrase of the network. -/
def generatesLocally : Bool :=
  ((s.opt "ft_psk_generate_local").orElse (.bool (s.authIn ["psk"]))).truthy

/-- An interface with fast transitions, WPA2 or later, and keys that are not generated locally. -/
structure Roams : Prop where
  ieee80211r : s.has "ieee80211r" = true
  wpa : 2 ≤ (s.opt "wpa").num
  generates : s.generatesLocally = false

/-- The lines that `iface_roaming` writes. -/
def roamingLines : List Line := ({ s with lines := [] }.ifaceRoaming env).lines

def mobilityDomain : String :=
  ((s.opt "mobility_domain").orElse (.str (substr (env.md5 ((s.opt "ssid").text ++ "\n")) 4))).text

/-- The key of a mobility domain and a secret. -/
def keyOf (option : String) : String :=
  env.md5 (s.mobilityDomain env ++ "/" ++ (s.opt option).text)

/-- A line with a derived key: the option itself is not set. -/
def Derived (name : String) (v : Value) : Prop :=
  s.opt name = .null ∧ .opt name v ∈ s.roamingLines env

/-- The two options with lines of keys. -/
def keyLines : List String := ["r0kh", "r1kh"]

/-- The options with secrets. -/
def secrets : List String := ["auth_server_shared_secret", "key"]

/-- Each derived key is made of a secret of the configuration, such that another secret gives
another line; and there is none without a secret. -/
structure KeysSecret : Prop where
  derived : ∀ name ∈ keyLines, ∀ v, s.Derived env name v → ∃ option ∈ secrets,
    s.has option = true ∧ (∃ peer, v = .str (peer ++ s.keyOf env option)) ∧
    ∀ secret, secret ≠ "" → secret ≠ (s.opt option).text →
      ∀ v', (s.set option (.str secret)).Derived env name v' → v' ≠ v
  without : (∀ option ∈ secrets, s.has option = false) → ∀ name ∈ keyLines, ∀ v,
    ¬ s.Derived env name v

/-! ## The lines -/

variable {schema env s}

lemma opt_set (key k : String) (v : Value) :
    (s.set key v).opt k = if k = key then v else s.opt k :=
  Function.update_apply ..

lemma opt_default (key k : String) (v : Value) :
    (s.default key v).opt k = if k = key then (s.opt key).orElse v else s.opt k := by
  simp only [opt, default, setDefault, Value.orElse]
  split
  · rename_i hnull
    rw [Function.update_apply]
    simp [hnull]
  · rename_i hnull
    by_cases hk : k = key
    · simp [hk, hnull]
    · simp [hk]

@[simp] lemma default_lines (key : String) (v : Value) : (s.default key v).lines = s.lines := rfl

lemma mem_appendAll {name k : String} {w : Value} (f : String → String) (l : List String)
    (t : Section) :
    .opt k w ∈ (l.foldl (fun s val => s.append name (.str (f val))) t).lines ↔
      .opt k w ∈ t.lines ∨ k = name ∧ ∃ x ∈ l, w = .str (f x) := by
  induction l generalizing t with
  | nil => simp
  | cons x l ih =>
    rw [List.foldl_cons, ih, mem_append]
    simp only [List.exists_mem_cons_iff, Value.printed, ne_eq, reduceCtorEq, not_false_eq_true,
      true_and]
    tauto

lemma opt_appendAll {name : String} (f : String → String) (l : List String) (t : Section)
    (k : String) : (l.foldl (fun s val => s.append name (.str (f val))) t).opt k = t.opt k := by
  induction l generalizing t with
  | nil => rfl
  | cons x l ih => rw [List.foldl_cons, ih, opt, append_config, opt]

lemma splitParts_one (sep : Char) (l : List Char) : splitParts sep 1 l = [l] := by
  induction l with
  | nil => rfl
  | cons c l ih => rw [splitParts, if_neg (by simp), ih]

lemma splitParts_append {sep : Char} {a : List Char} (ha : sep ∉ a) (limit : ℕ) (rest : List Char) :
    splitParts sep (limit + 2) (a ++ sep :: rest) = a :: splitParts sep (limit + 1) rest := by
  induction a with
  | nil =>
    rw [List.nil_append, splitParts, if_pos ⟨rfl, by omega⟩]
    rfl
  | cons c a ih =>
    rw [List.mem_cons, not_or] at ha
    rw [List.cons_append, splitParts, if_neg fun h => ha.1 h.1.symm, ih ha.2]

lemma join_entry {a b : String} (ha : ',' ∉ a.toList) (hb : ',' ∉ b.toList) (text : String) :
    " ".intercalate (split (a ++ "," ++ b ++ "," ++ text) ',' 3) = a ++ " " ++ b ++ " " ++ text := by
  have hlist : (a ++ "," ++ b ++ "," ++ text).toList =
      a.toList ++ ',' :: (b.toList ++ ',' :: text.toList) := by simp
  rw [split, hlist, splitParts_append ha 1, splitParts_append hb 0, splitParts_one]
  simp [String.intercalate_cons_cons, String.append_assoc]

/-- The address of the peer with which a derived line starts. -/
def peerText (name : String) : String :=
  if name = "r0kh" then "ff:ff:ff:ff:ff:ff" ++ " " ++ "*" ++ " "
  else "00:00:00:00:00:00" ++ " " ++ "00:00:00:00:00:00" ++ " "

lemma join_r0kh (text : String) :
    " ".intercalate (split ("ff:ff:ff:ff:ff:ff,*," ++ text) ',' 3) = peerText "r0kh" ++ text :=
  join_entry (a := "ff:ff:ff:ff:ff:ff") (b := "*") (by decide) (by decide) text

lemma join_r1kh (text : String) :
    " ".intercalate (split ("00:00:00:00:00:00,00:00:00:00:00:00," ++ text) ',' 3) =
      peerText "r1kh" ++ text :=
  join_entry (a := "00:00:00:00:00:00") (b := "00:00:00:00:00:00") (by decide) (by decide) text

/-- The section that the keys are added to. -/
def roamingStart (env : Env) (s : Section) : Section :=
  let s := { s with lines := [] }
  let s := s.default "mobility_domain" (.str (substr (env.md5 ((s.opt "ssid").text ++ "\n")) 4))
  let s := s.default "ft_psk_generate_local" (.bool (s.authIn ["psk"]))
  s.default "ft_iface" (s.opt "network_ifname")

lemma roamingLines_eq (hroams : s.Roams) :
    s.roamingLines env = (((s.roamingStart env).roamingKeys env).appendVars [
      "mobility_domain", "ft_psk_generate_local", "ft_over_ds", "reassociation_deadline",
      "ft_iface"]).lines := by
  obtain ⟨hft, hwpa, hlocal⟩ := hroams
  have hstart : (s.roamingStart env).has "ft_psk_generate_local" = s.generatesLocally := by
    show ((s.roamingStart env).opt "ft_psk_generate_local").truthy = _
    simp only [roamingStart, opt_default, authIn]
    rfl
  have hcond : ¬ ((!s.has "ieee80211r" || decide ((s.opt "wpa").num < 2)) = true) := by
    rw [hft, decide_eq_false (not_lt.mpr hwpa)]
    decide
  rw [roamingLines, ifaceRoaming, if_neg (by exact hcond)]
  show (Section.appendVars (if (!(s.roamingStart env).has "ft_psk_generate_local") = true then
    (s.roamingStart env).roamingKeys env else s.roamingStart env) _).lines = _
  rw [hstart, hlocal]
  rfl

lemma opt_roamingStart {k : String} (hmobility : k ≠ "mobility_domain")
    (hlocal : k ≠ "ft_psk_generate_local") (hiface : k ≠ "ft_iface") :
    (s.roamingStart env).opt k = s.opt k := by
  simp only [roamingStart, opt_default, if_neg hmobility, if_neg hlocal, if_neg hiface]
  rfl

lemma text_roamingStart :
    ((s.roamingStart env).opt "mobility_domain").text = s.mobilityDomain env := by
  simp only [roamingStart, opt_default]
  rfl

lemma mem_roamingKeys {t : Section} {name : String} {v : Value}
    (hauth : t.opt "auth_secret" = .null) (hlines : t.lines = []) (hname : name ∈ keyLines)
    (hnull : t.opt name = .null) :
    .opt name v ∈ (t.roamingKeys env).lines ↔ v = .str (peerText name ++
      env.md5 ((t.opt "mobility_domain").text ++ "/" ++ (t.opt "key").text)) := by
  have hcond : (!t.has "r0kh" || !t.has "r1kh") = true := by
    rcases List.mem_pair.mp hname with rfl | rfl
    · rw [has, ← opt, hnull]
      rfl
    · rw [Bool.or_comm, has, ← opt, hnull]
      rfl
  have hvars : name ∉ ["r1_key_holder", "r0_key_lifetime", "pmk_r1_push"] := by
    rcases List.mem_pair.mp hname with rfl | rfl <;> decide
  rw [roamingKeys, if_pos hcond, mem_appendVars]
  simp only [hvars, false_and, or_false, List.foldl_cons, List.foldl_nil]
  generalize hfailed : (if (!t.has "auth_secret" && !t.has "key") = true then
    t.setupFailed "FT_KEY_CANT_BE_DERIVED" else t) = t'
  have hopt : ∀ k, t'.opt k = t.opt k := by
    rw [← hfailed]
    intro k
    split <;> rfl
  have hlines' : t'.lines = [] := by
    rw [← hfailed, ← hlines]
    split <;> rfl
  rw [mem_appendAll, mem_appendAll, opt_appendAll]
  simp only [opt_default, hopt, default_lines, hlines', hauth]
  rcases List.mem_pair.mp hname with rfl | rfl
  · simp [hnull, Value.orElse, Value.elems, join_r0kh]
  · simp [hnull, Value.orElse, Value.elems, join_r1kh]

lemma derived_iff {name : String} {v : Value} (hroams : s.Roams) (hauth : s.opt "auth_secret" = .null)
    (hname : name ∈ keyLines) :
    s.Derived env name v ↔ s.opt name = .null ∧ v = .str (peerText name ++ s.keyOf env "key") := by
  refine and_congr_right fun hnull => ?_
  have hstart : (s.roamingStart env).opt name = .null := by
    rw [← hnull]
    rcases List.mem_pair.mp hname with rfl | rfl <;>
      exact opt_roamingStart (by decide) (by decide) (by decide)
  have hvars : name ∉ ["mobility_domain", "ft_psk_generate_local", "ft_over_ds",
      "reassociation_deadline", "ft_iface"] := by
    rcases List.mem_pair.mp hname with rfl | rfl <;> decide
  have hkey : (s.roamingStart env).opt "key" = s.opt "key" :=
    opt_roamingStart (by decide) (by decide) (by decide)
  rw [roamingLines_eq hroams, mem_appendVars, mem_roamingKeys
    (by rw [opt_roamingStart (by decide) (by decide) (by decide), hauth]) rfl hname hstart,
    text_roamingStart, hkey, keyOf]
  simp only [hvars, false_and, or_false]

lemma set_secret (env : Env) {option : String} (hoption : option ∈ secrets) (v : Value) :
    (s.Roams → (s.set option v).Roams) ∧
      (s.set option v).opt "auth_secret" = s.opt "auth_secret" ∧
      (s.set option v).mobilityDomain env = s.mobilityDomain env ∧
      ∀ name ∈ keyLines, (s.set option v).opt name = s.opt name := by
  have hopt : ∀ k, k ∉ secrets → (s.set option v).opt k = s.opt k := fun k hk => by
    rw [opt_set, if_neg (ne_of_mem_of_not_mem hoption hk).symm]
  have hlocal : (s.set option v).generatesLocally = s.generatesLocally := by
    rw [generatesLocally, generatesLocally, hopt _ (by decide), authIn, hopt _ (by decide), authIn]
  refine ⟨fun h => ⟨?_, ?_, hlocal.trans h.generates⟩, hopt _ (by decide), ?_, ?_⟩
  · rw [has, ← opt, hopt _ (by decide)]
    exact h.ieee80211r
  · rw [hopt _ (by decide)]
    exact h.wpa
  · rw [mobilityDomain, hopt _ (by decide), hopt _ (by decide), mobilityDomain]
  · intro name hname
    refine hopt name ?_
    rcases List.mem_pair.mp hname with rfl | rfl <;> decide

/-! ## The options after validation -/

lemma script_eq_null {v : Value} : v.script = .null ↔ v = .null := by
  cases v <;> simp [Value.script]

lemma Passed.auth_secret (hschema : RoamingSchema schema) (h : s.Passed schema) :
    s.opt "auth_secret" = .null := by
  obtain ⟨dict, dict', hval, hopts⟩ := h
  rw [← script_eq_null, hopts _ (by simp), Validate.validate_aliasOf hschema.toPlain hval
    hschema.auth_secret]
  rfl

lemma not_keysSecret {name : String} (hname : name ∈ keyLines) (hroams : s.Roams)
    (hauth : s.opt "auth_secret" = .null) (hnull : s.opt name = .null)
    (hno : ¬ s.has "key" = true) : ¬ s.KeysSecret env := by
  intro hkeys
  obtain ⟨option, hoption, hhas, -, hother⟩ := hkeys.derived name hname _
    ((derived_iff hroams hauth hname).mpr ⟨hnull, rfl⟩)
  rcases List.mem_pair.mp hoption with rfl | rfl
  · obtain ⟨hset, hsetAuth, hdomain, hname'⟩ := set_secret env hoption
      (.str ((s.opt "auth_server_shared_secret").text ++ "'"))
    refine hother _ (by simp) (by simp) _ ((derived_iff (hset hroams) (hsetAuth.trans hauth)
      hname).mpr ⟨(hname' name hname).trans hnull, rfl⟩) ?_
    rw [keyOf, hdomain, opt_set, if_neg (by decide), keyOf]
  · exact hno hhas

end Section

open Section

/-- The derived keys depend on a secret if and only if none is derived or there is a passphrase. -/
theorem keysSecret_iff {schema : Schema} {env : Env} {s : Section} (hschema : RoamingSchema schema)
    (hmd5 : Function.Injective env.md5) (hpassed : s.Passed schema) (hroams : s.Roams) :
    s.KeysSecret env ↔
      (∀ name ∈ keyLines, s.opt name ≠ .null) ∨ s.has "key" = true := by
  have hauth := hpassed.auth_secret hschema
  constructor
  · intro hkeys
    by_contra hnot
    rw [not_or] at hnot
    obtain ⟨hderives, hno⟩ := hnot
    push Not at hderives
    obtain ⟨name, hname, hnull⟩ := hderives
    exact not_keysSecret hname hroams hauth hnull hno hkeys
  · intro hcond
    have hderived : ∀ name ∈ keyLines, ∀ v, s.Derived env name v → s.has "key" = true := by
      intro name hname v hv
      rcases hcond with hset | hhas
      · exact absurd hv.1 (hset name hname)
      · exact hhas
    constructor
    case derived =>
      intro name hname v hv
      have hline := ((derived_iff hroams hauth hname).mp hv).2
      refine ⟨"key", by simp [secrets], hderived name hname v hv, ⟨_, hline⟩, ?_⟩
      intro secret _ hne v' hv' heq
      have hkey : "key" ∈ secrets := by simp [secrets]
      obtain ⟨hset, hsetAuth, hdomain, -⟩ := set_secret env hkey (.str secret)
      have hline' := ((derived_iff (hset hroams) (hsetAuth.trans hauth) hname).mp hv').2
      rw [heq, hline, keyOf, keyOf, hdomain, opt_set, if_pos rfl] at hline'
      have hkeys := hmd5 (String.append_right_inj _ |>.mp (Value.str.inj hline'))
      exact hne (String.append_right_inj _ |>.mp hkeys).symm
    case without =>
      intro hno name hname v hv
      have hhas := hderived name hname v hv
      rw [hno "key" (by simp [secrets])] at hhas
      cases hhas

/-- The five properties, as the schema of an interface has them. -/
def roamingSchema : Schema := [
  ("auth_secret", .aliasOf (some "auth_server_shared_secret")),
  ("auth_server_shared_secret", .option (.string none) .null),
  ("key", .option (.string none) .null),
  ("r0kh", .option (.arrayOf (.string none)) .null),
  ("r1kh", .option (.arrayOf (.string none)) .null)]

lemma roamingSchema_roaming : RoamingSchema roamingSchema where
  nodup := by decide
  aliases := by
    intro k name hk
    have hmem := Objects.mem_of_lookup hk
    simp only [roamingSchema, List.mem_cons, Prod.mk.injEq, reduceCtorEq, and_false,
      List.not_mem_nil, or_false, Validate.Property.aliasOf.injEq, Option.some.injEq] at hmem
    rw [hmem.2]
    exact ⟨_, _, rfl⟩
  auth_secret := rfl
  auth_server_shared_secret := rfl
  key := rfl
  r0kh := rfl
  r1kh := rfl

/-- An interface with fast transitions, WPA2 and one more option. -/
def roamingSection (option secret : String) : Section where
  config k := ([("ieee80211r", Value.bool true), ("wpa", .int 2), ("auth_type", .str "eap2"),
    ("ssid", .str "net"), (option, .str secret)].lookup k).getD .null
  lines := []
  failed := []
  files := []

/-- The identity in the place of the digest. -/
def plainEnv : Env := ⟨id, fun _ => none, id⟩

/-- A passphrase is in the keys. -/
theorem keysSecret_iff_passphrase :
    (roamingSection "key" "passphrase").KeysSecret plainEnv ↔
      (∀ name ∈ keyLines, (roamingSection "key" "passphrase").opt name ≠ .null) ∨
        (roamingSection "key" "passphrase").has "key" = true :=
  keysSecret_iff roamingSchema_roaming (fun _ _ h => h)
    ⟨[("key", .str "passphrase")], [("key", .str "passphrase")], by decide +kernel, by decide +kernel⟩
    ⟨by decide, by decide, by decide⟩

/-- A RADIUS secret is not. -/
theorem radius_secret_unused :
    ∃ schema : Schema, ∃ env : Env, ∃ s : Section, RoamingSchema schema ∧
      Function.Injective env.md5 ∧ s.Passed schema ∧ s.Roams ∧ ¬ s.KeysSecret env := by
  refine ⟨roamingSchema, plainEnv, roamingSection "auth_server_shared_secret" "radius",
    roamingSchema_roaming, fun _ _ h => h, ⟨[("auth_secret", .str "radius")],
    [("auth_server_shared_secret", .str "radius")], by decide +kernel, by decide +kernel⟩,
    ⟨by decide, by decide, by decide⟩, ?_⟩
  have hname : "r0kh" ∈ keyLines := by simp [keyLines]
  exact not_keysSecret hname ⟨by decide, by decide, by decide⟩ (by decide) (by decide) (by decide)

end Wifi
