import Mt798x.Lib.Runs
import Mt798x.Hostapd.Supplicant

/-!
# The masks of MLD interfaces

The loops over MLD interfaces touch the row of each interface in the table of wpa_supplicant only in
its own turn (`forMld_spec`).  With what one turn does, this gives an invariant of the three masks
under a condition on the requests (`masks_agree`).
-/

namespace Wpas

open Runs Objects

/-! ## One turn of a loop -/

/-- What the table of wpa_supplicant has to say of an MLD interface. -/
def Mld.row (d : Mld) : Option Added :=
  if d.radio_mask_up = 0#64 then none else some (.mld d.radio_mask_up)

/-- An MLD interface is started or removed for its own phy, or for none. -/
def Own (e : Entry) : Prop := ∀ phy ∈ e.request, phy = e.phy

/-- One turn of a loop: only the row of its own interface changes. -/
structure Turn (n : String) (d : Mld) (t : Table) (r : Mld × Table) : Prop where
  others : ∀ m ≠ n, r.2.interfaces m = t.interfaces m
  log : ∀ e ∈ r.2.log, e ∈ t.log ∨ Own e
  agrees : t.interfaces n = d.row → r.2.interfaces n = r.1.row

variable {env : Env} {config : String → Option Phy} {request : Option String} {n : String} {d : Mld}
  {t : Table}

lemma Turn.refl {d' : Mld} (h : d'.row = d.row) : Turn n d t (d', t) :=
  ⟨fun _ _ => rfl, fun _ he => Or.inl he, fun hrow => hrow.trans h.symm⟩

lemma Turn.trans {r r' : Mld × Table} (h : Turn n d t r) (h' : Turn n r.1 r.2 r') :
    Turn n d t r' := by
  refine ⟨fun m hm => (h'.others m hm).trans (h.others m hm), fun e he => ?_,
    fun hrow => h'.agrees (h.agrees hrow)⟩
  rcases h'.log e he with he | hown
  · exact h.log e he
  · exact Or.inr hown

lemma Turn.of_row {d' : Mld} {r : Mld × Table} (h : d'.row = d.row) (h' : Turn n d' t r) :
    Turn n d t r :=
  ⟨h'.others, h'.log, fun hrow => h'.agrees (hrow.trans h.symm)⟩

lemma row_of_up (h : d.radio_mask_up = 0#64) : d.row = none := by rw [Mld.row, if_pos h]

lemma mld_remove_up : (mld_remove request n d t).1.radio_mask_up = 0#64 := by
  rw [mld_remove]
  split
  · assumption
  · rfl

lemma mld_remove_turn (hown : d.radio_mask_up ≠ 0#64 → ∀ phy ∈ request, phy = d.phy) :
    Turn n d t (mld_remove request n d t) := by
  rw [mld_remove]
  split
  · exact Turn.refl rfl
  · rename_i hup
    refine ⟨fun m hm => Function.update_of_ne hm _ _, fun e he => ?_, fun _ => ?_⟩
    · rcases List.mem_cons.mp he with rfl | he
      · exact Or.inr (hown hup)
      · exact Or.inl he
    · rw [row_of_up (by rfl)]
      exact Function.update_self ..

lemma present_ne_zero {radio : ℕ} (h : mld_first_phy d = some radio) :
    d.radio_mask_present ≠ 0#64 := by
  intro hzero
  have hbit := List.find?_some h
  rw [hzero, BitVec.getLsbD_zero] at hbit
  cases hbit

/-- An MLD interface that is not there, and whose radios have configurations of its name. -/
lemma mld_add_turn (hup : d.radio_mask_up = 0#64)
    (hname : ∀ r c, d.phy_config r = some c → c.iface = n)
    (hown : (∀ radio ∈ mld_first_phy d,
      phy_dev_open env config (d.phy ++ "." ++ toString radio) = true) → ∀ phy ∈ request, phy = d.phy) :
    Turn n d t (mld_add env config request n d t) := by
  rw [mld_add]
  cases hradio : mld_first_phy d with
  | none => exact Turn.refl rfl
  | some radio =>
    simp only
    split
    · exact Turn.refl rfl
    · rename_i hopen
      have hown' : Own ⟨n, d.phy, request⟩ := hown fun r hr => by
        rw [hradio] at hr
        cases hr
        simpa using hopen
      obtain ⟨t', ht', hlog, hothers, hself⟩ : ∃ t' : Table,
          (t.note n d request).add_iface env (.mld d.radio_mask_present) (d.phy_config radio) = t' ∧
          (∀ e ∈ t'.log, e ∈ t.log ∨ Own e) ∧ (∀ m ≠ n, t'.interfaces m = t.interfaces m) ∧
          (t'.interfaces n = t.interfaces n ∨
            t'.interfaces n = some (.mld d.radio_mask_present)) := by
        have hnote : ∀ e ∈ (t.note n d request).log, e ∈ t.log ∨ Own e := fun e he => by
          rcases List.mem_cons.mp he with rfl | he
          · exact Or.inr hown'
          · exact Or.inl he
        cases hcfg : d.phy_config radio with
        | none => exact ⟨_, rfl, hnote, fun m _ => rfl, Or.inl rfl⟩
        | some c =>
          obtain rfl := hname radio c hcfg
          rw [Table.add_iface]
          split
          · exact ⟨_, rfl, hnote, fun m hm => Function.update_of_ne hm _ _,
              Or.inr (Function.update_self ..)⟩
          · exact ⟨_, rfl, hnote, fun m _ => rfl, Or.inl rfl⟩
      rw [ht']
      split
      · rename_i hnone
        refine ⟨fun m hm => (Function.update_of_ne hm _ _).trans (hothers m hm), hlog, fun _ => ?_⟩
        rw [row_of_up hup]
        exact Function.update_self ..
      · rename_i hsome
        refine ⟨hothers, hlog, fun hrow => ?_⟩
        rw [row_of_up hup] at hrow
        rcases hself with hself | hself
        · rw [hself, hrow] at hsome
          exact absurd rfl hsome
        · rw [hself, Mld.row, if_neg (present_ne_zero hradio)]

lemma mld_update_iface_turn (hown : d.radio_mask_up ≠ 0#64 → ∀ phy ∈ request, phy = d.phy) :
    Turn n d t (mld_update_iface request n d t) := by
  rw [mld_update_iface]
  split
  · exact Turn.refl rfl
  · split
    · exact mld_remove_turn hown
    · split
      · exact Turn.refl rfl
      · exact mld_remove_turn hown

/-- `mld_start` does something to the interface. -/
def Starts (env : Env) (config : String → Option Phy) (d : Mld) : Prop :=
  d.radio_mask_present &&& ~~~d.radio_mask_up ≠ 0#64 ∧
    (d.radio_mask_up = 0#64 → ∀ radio ∈ mld_first_phy d,
      phy_dev_open env config (d.phy ++ "." ++ toString radio) = true)

/-- Only the mask of the radios that are up changes. -/
def SameBut (d d' : Mld) : Prop := d' = { d with radio_mask_up := d'.radio_mask_up }

lemma mld_remove_same : SameBut d (mld_remove request n d t).1 := by
  rw [mld_remove]
  split <;> rfl

lemma mld_add_same : SameBut d (mld_add env config request n d t).1 := by
  rw [mld_add]
  cases mld_first_phy d with
  | none => rfl
  | some radio =>
    simp only
    split
    · rfl
    · split <;> rfl

lemma mld_update_iface_same : SameBut d (mld_update_iface request n d t).1 := by
  rw [mld_update_iface]
  split
  · rfl
  · split
    · exact mld_remove_same
    · split
      · rfl
      · exact mld_remove_same

lemma SameBut.trans {d' d'' : Mld} (h : SameBut d d') (h' : SameBut d' d'') : SameBut d d'' := by
  rw [SameBut] at *
  rw [h', h]

lemma mld_start_one_same : SameBut d (mld_start_one env config request n d t).1 := by
  rw [mld_start_one]
  split
  · rfl
  · split
    · exact mld_add_same
    · exact mld_remove_same.trans mld_add_same

lemma mld_start_one_turn (hname : ∀ r c, d.phy_config r = some c → c.iface = n)
    (hown : Starts env config d → ∀ phy ∈ request, phy = d.phy) :
    Turn n d t (mld_start_one env config request n d t) := by
  rw [mld_start_one]
  split
  · exact Turn.refl rfl
  · rename_i hadd
    split
    · rename_i hup
      exact mld_add_turn hup hname fun hopen => hown ⟨hadd, fun _ => hopen⟩
    · rename_i hup
      have hown' : ∀ phy ∈ request, phy = d.phy := hown ⟨hadd, fun h => absurd h hup⟩
      have hsame : SameBut d (mld_remove request n d t).1 := mld_remove_same
      refine (mld_remove_turn fun _ => hown').trans
        (mld_add_turn mld_remove_up (fun r c hc => ?_) fun _ => ?_)
      · rw [hsame] at hc
        exact hname r c hc
      · rw [hsame]
        exact hown'

/-! ## A whole loop -/

lemma forMld_names {f : String → Mld → Table → Mld × Table} {l : List (String × Mld)} :
    ∀ t, (forMld f l t).1.map Prod.fst = l.map Prod.fst := by
  induction l with
  | nil => exact fun _ => rfl
  | cons entry l ih =>
    intro t
    rw [forMld, List.map_cons, List.map_cons, ih]

/-- Each row changes in its own turn only. -/
structure Loop (f : String → Mld → Table → Mld × Table) (l : List (String × Mld)) (t : Table)
    (r : List (String × Mld) × Table) : Prop where
  data : ∀ n d', (n, d') ∈ r.1 → ∃ d t', (n, d) ∈ l ∧ d' = (f n d t').1
  others : ∀ m, m ∉ l.map Prod.fst → r.2.interfaces m = t.interfaces m
  log : ∀ e ∈ r.2.log, e ∈ t.log ∨ Own e
  agrees : (∀ n d, (n, d) ∈ l → t.interfaces n = d.row) →
    ∀ n d', (n, d') ∈ r.1 → r.2.interfaces n = d'.row

lemma forMld_spec {f : String → Mld → Table → Mld × Table} {l : List (String × Mld)}
    (hnodup : (l.map Prod.fst).Nodup)
    (hturn : ∀ n d t, (n, d) ∈ l → Turn n d t (f n d t)) : ∀ t, Loop f l t (forMld f l t) := by
  induction l with
  | nil =>
    intro t
    exact ⟨by simp [forMld], fun m _ => rfl, fun e he => Or.inl he, by simp [forMld]⟩
  | cons entry l ih =>
    intro t
    obtain ⟨n, d⟩ := entry
    obtain ⟨hnot, hnodup⟩ := List.nodup_cons.mp hnodup
    have hone : Turn n d t (f n d t) := hturn n d t List.mem_cons_self
    have hrest := ih hnodup (fun n d t hmem => hturn n d t (List.mem_cons_of_mem _ hmem)) (f n d t).2
    rw [forMld]
    refine ⟨fun m d' hmem => ?_, fun m hm => ?_, fun e he => ?_,
      fun hrow m d' hmem => ?_⟩
    · rcases List.mem_cons.mp hmem with heq | hmem
      · cases heq
        exact ⟨d, t, List.mem_cons_self, rfl⟩
      · obtain ⟨d, t', hd, rfl⟩ := hrest.data m d' hmem
        exact ⟨d, t', List.mem_cons_of_mem _ hd, rfl⟩
    · obtain ⟨hne, hm⟩ := not_or.mp (fun h => hm (List.mem_cons.mpr h))
      exact (hrest.others m hm).trans (hone.others m hne)
    · rcases hrest.log e he with he | hown
      · exact hone.log e he
      · exact Or.inr hown
    · rcases List.mem_cons.mp hmem with heq | hmem
      · cases heq
        exact (hrest.others n hnot).trans (hone.agrees (hrow n d List.mem_cons_self))
      · refine hrest.agrees (fun m' d'' hd => ?_) m d' hmem
        have hm' : m' ∈ l.map Prod.fst := List.mem_map_of_mem (f := Prod.fst) hd
        have hne : m' ≠ n := fun heq => hnot (heq ▸ hm')
        rw [hone.others m' hne]
        exact hrow m' d'' (List.mem_cons_of_mem _ hd)

/-! ## The state -/

namespace World

/-- The names of the MLD interfaces. -/
def names (s : World) : List String := s.mld.map Prod.fst

/-- A radio for which a phy has been configured. -/
def Belongs (s : World) (phy : String) (radio : ℕ) : Prop :=
  ∃ name cfg, s.config name = some cfg ∧ cfg.name = phy ∧ cfg.radio = some radio

/-- What the masks of an MLD interface say of its configurations. -/
structure Masks (s : World) (n : String) (d : Mld) : Prop where
  configured : ∀ r c, d.phy_config r = some c → c.iface = n ∧ s.Belongs d.phy r
  present : ∀ r, d.radio_mask_present.getLsbD r = true → (d.phy_config r).isSome

end World

open World

/-- The invariant. -/
structure Inv (s : World) : Prop where
  nodup : s.names.Nodup
  config : ∀ name cfg, s.config name = some cfg → name_of cfg.name cfg.radio = name
  masks : ∀ n d, (n, d) ∈ s.mld → s.Masks n d
  row : ∀ n d, (n, d) ∈ s.mld → s.table.interfaces n = d.row
  own : ∀ e ∈ s.table.log, Own e
  gone : ∀ n m, s.table.interfaces n = some (.mld m) → n ∈ s.names

variable {s : World} {phy name : String} {radio : Option ℕ} {cfg : Phy}

lemma mem_names (h : (n, d) ∈ s.mld) : n ∈ s.names := List.mem_map_of_mem (f := Prod.fst) h

lemma name_of_injective {radio' : Option ℕ} (h : name_of phy radio = name_of phy radio') :
    radio = radio' := by
  have hne : ∀ r : ℕ, phy ≠ phy ++ "." ++ toString r := fun r heq => by
    have hlen := congrArg String.length heq
    rw [String.length_append, String.length_append] at hlen
    have hdot : ".".length = 1 := rfl
    omega
  cases radio with
  | none =>
    cases radio' with
    | none => rfl
    | some r => exact absurd h (hne r)
  | some r =>
    cases radio' with
    | none => exact absurd h.symm (hne r)
    | some r' =>
      rw [name_of, name_of] at h
      rw [Nat.repr_injective (String.append_right_inj _ |>.mp h)]

lemma World.Masks.mono {s' : World} (h : s.Masks n d)
    (hbelongs : ∀ r, s.Belongs d.phy r → s'.Belongs d.phy r) : s'.Masks n d :=
  ⟨fun r c hc => ⟨(h.configured r c hc).1, hbelongs r (h.configured r c hc).2⟩, h.present⟩

lemma World.Masks.same {d' : Mld} (h : s.Masks n d) (hsame : SameBut d d') : s.Masks n d' := by
  rw [SameBut] at hsame
  rw [hsame]
  exact ⟨h.configured, h.present⟩

lemma belongs_update (h : Inv s) (hname : name_of cfg.name cfg.radio = name)
    (hold : ∀ old ∈ s.config name, old.name = cfg.name) {r : ℕ} (hr : s.Belongs phy r) :
    World.Belongs { s with config := Function.update s.config name (some cfg) } phy r := by
  obtain ⟨name', old, hcfg, hphy, hradio⟩ := hr
  by_cases heq : name' = name
  · subst heq
    have hsame := hold old hcfg
    refine ⟨name', cfg, Function.update_self .., hsame.symm.trans hphy, ?_⟩
    have hnames : name_of cfg.name old.radio = name_of cfg.name cfg.radio := by
      rw [hname, ← hsame, h.config name' old hcfg]
    rw [← name_of_injective hnames]
    exact hradio
  · exact ⟨name', old, (Function.update_of_ne heq _ _).trans hcfg, hphy, hradio⟩

namespace Inv

lemma setConfig (h : Inv s) (hname : name_of cfg.name cfg.radio = name)
    (hold : ∀ old ∈ s.config name, old.name = cfg.name) :
    Inv { s with config := Function.update s.config name (some cfg) } where
  nodup := h.nodup
  config name' cfg' hcfg := by
    by_cases heq : name' = name
    · subst heq
      have hself := Function.update_self name' (some cfg) s.config
      obtain rfl := Option.some_injective _ (hself.symm.trans hcfg)
      exact hname
    · exact h.config name' cfg' ((Function.update_of_ne heq _ _).symm.trans hcfg)
  masks n d hmem := (h.masks n d hmem).mono fun r hr => belongs_update h hname hold hr
  row := h.row
  own := h.own
  gone := h.gone

lemma loop {f : String → Mld → Table → Mld × Table} (h : Inv s)
    (hturn : ∀ n d t, (n, d) ∈ s.mld → Turn n d t (f n d t))
    (hmasks : ∀ n d t, (n, d) ∈ s.mld → s.Masks n (f n d t).1) :
    Inv { s with mld := (forMld f s.mld s.table).1, table := (forMld f s.mld s.table).2 } := by
  have hloop := forMld_spec h.nodup hturn s.table
  refine ⟨?_, h.config, fun n d' hmem => ?_, fun n d' hmem => hloop.agrees h.row n d' hmem,
    fun e he => ?_, fun n m hm => ?_⟩
  · rw [names, forMld_names]
    exact h.nodup
  · obtain ⟨d, t, hd, rfl⟩ := hloop.data n d' hmem
    have hm := hmasks n d t hd
    exact ⟨hm.configured, hm.present⟩
  · rcases hloop.log e he with he | hown
    · exact h.own e he
    · exact hown
  · rw [names, forMld_names]
    by_contra hn
    rw [hloop.others n hn] at hm
    exact hn (h.gone n m hm)

lemma setTable (h : Inv s) (hlog : t.log = s.table.log)
    (hrow : ∀ n ∈ s.names, t.interfaces n = s.table.interfaces n)
    (hmld : ∀ n m, t.interfaces n = some (.mld m) → s.table.interfaces n = some (.mld m)) :
    Inv { s with table := t } where
  nodup := h.nodup
  config := h.config
  masks n d hmem := (h.masks n d hmem).mono fun _ hr => hr
  row n d hmem := (hrow n (mem_names hmem)).trans (h.row n d hmem)
  own e he := h.own e (hlog ▸ he)
  gone n m hm := h.gone n m (hmld n m hm)

end Inv

/-! ## Interfaces that are not MLD interfaces -/

lemma removed_spec (l : List String) (t : Table) : (l.foldl Table.remove_iface t).log = t.log ∧
    ∀ n, (l.foldl Table.remove_iface t).interfaces n = if n ∈ l then none else t.interfaces n := by
  induction l generalizing t with
  | nil => simp
  | cons m l ih =>
    refine ⟨(ih _).1, fun n => ?_⟩
    rw [List.foldl_cons, (ih _).2 n, Table.remove_iface]
    by_cases hmem : n ∈ l
    · simp [hmem]
    · by_cases hm : n = m <;> simp [hmem, hm]

lemma inserted_spec (env : Env) (l : List Config) (t : Table) :
    (l.foldl (fun t c => t.add_iface env .plain (some c)) t).log = t.log ∧
    ∀ n, (l.foldl (fun t c => t.add_iface env .plain (some c)) t).interfaces n = t.interfaces n ∨
      ((l.foldl (fun t c => t.add_iface env .plain (some c)) t).interfaces n = some .plain ∧
        ∃ c ∈ l, env.added c.iface = true ∧ c.iface = n) := by
  induction l generalizing t with
  | nil => simp
  | cons c l ih =>
    rw [List.foldl_cons]
    obtain ⟨hlog, hrest⟩ := ih (t.add_iface env .plain (some c))
    have hone : (t.add_iface env .plain (some c)).log = t.log ∧
        ∀ n, (t.add_iface env .plain (some c)).interfaces n = t.interfaces n ∨
          ((t.add_iface env .plain (some c)).interfaces n = some .plain ∧
            env.added c.iface = true ∧ c.iface = n) := by
      rw [Table.add_iface]
      split
      · rename_i hadded
        refine ⟨rfl, fun n => ?_⟩
        by_cases heq : n = c.iface
        · subst heq
          exact Or.inr ⟨Function.update_self .., hadded, rfl⟩
        · exact Or.inl (Function.update_of_ne heq _ _)
      · exact ⟨rfl, fun n => Or.inl rfl⟩
    refine ⟨hlog.trans hone.1, fun n => ?_⟩
    rcases hrest n with hsame | ⟨hplain, c', hc', hadded⟩
    · rcases hone.2 n with hsame' | ⟨hplain, hadded⟩
      · exact Or.inl (hsame.trans hsame')
      · exact Or.inr ⟨hsame.trans hplain, c, List.mem_cons_self, hadded⟩
    · exact Or.inr ⟨hplain, c', List.mem_cons_of_mem _ hc', hadded⟩

namespace Inv

lemma stopped (h : Inv s) {l : List String} (hl : ∀ n ∈ l, n ∉ s.names) :
    Inv { s with table := l.foldl Table.remove_iface s.table } := by
  obtain ⟨hlog, hrow⟩ := removed_spec l s.table
  refine h.setTable hlog (fun n hn => ?_) fun n m hm => ?_
  · rw [hrow, if_neg fun hmem => hl n hmem hn]
  · rw [hrow] at hm
    split at hm
    · cases hm
    · exact hm

lemma started (h : Inv s) (env : Env) (l : List Config)
    (hl : ∀ c ∈ l, env.added c.iface = true → c.iface ∉ s.names) :
    Inv { s with table := l.foldl (fun t c => t.add_iface env .plain (some c)) s.table } := by
  obtain ⟨hlog, hrow⟩ := inserted_spec env l s.table
  refine h.setTable hlog (fun n hn => ?_) fun n m hm => ?_
  · rcases hrow n with hsame | ⟨-, c, hc, hadded, rfl⟩
    · exact hsame
    · exact absurd hn (hl c hc hadded)
  · rcases hrow n with hsame | ⟨hplain, -⟩
    · exact hsame.symm.trans hm
    · rw [hplain] at hm
      cases hm

/-- The interfaces of a phy that start do not have the name of an MLD interface. -/
lemma start_pending (h : Inv s) (hl : ∀ cfg ∈ s.config name, env.opened name = true →
      ∀ n i, (n, i) ∈ cfg.data → i.running = false → env.added i.config.iface = true →
        i.config.iface ∉ s.names) : Inv (s.start_pending env name) := by
  rw [World.start_pending]
  cases hcfg : s.config name with
  | none => exact h
  | some cfg =>
    simp only
    split
    · exact h
    · rename_i hopened
      have hset : Inv { s with
          config := Function.update s.config name (some { cfg with
            data := cfg.data.map fun e => (e.1, { e.2 with running := true }) }) } :=
        h.setConfig (h.config name cfg hcfg) fun old hold => by
          rw [hcfg] at hold
          cases hold
          rfl
      have hstart := hset.started env
        ((cfg.data.filter fun e => !e.2.running).map fun e => e.2.config) fun c hc hadded => by
          obtain ⟨⟨n, i⟩, hi, rfl⟩ := List.mem_map.mp hc
          obtain ⟨hmem, hrunning⟩ := List.mem_filter.mp hi
          exact hl cfg hcfg (by simpa using hopened) n i hmem (by simpa using hrunning) hadded
      rw [List.foldl_map] at hstart
      exact hstart

lemma iface_stop_all (h : Inv s) (hcfg : s.config name = some cfg)
    (hl : ∀ n i, (n, i) ∈ cfg.data → i.running = true → n ∉ s.names) :
    Inv (s.iface_stop_all name cfg) := by
  have hset : Inv { s with
      config := Function.update s.config name (some { cfg with
        data := cfg.data.map fun e => (e.1, { e.2 with running := false }) }) } :=
    h.setConfig (h.config name cfg hcfg) fun old hold => by
      rw [hcfg] at hold
      cases hold
      rfl
  have hstop := hset.stopped (l := (cfg.data.filter fun e => e.2.running).map Prod.fst)
    fun n hn => by
      obtain ⟨⟨n, i⟩, hi, rfl⟩ := List.mem_map.mp hn
      obtain ⟨hmem, hrunning⟩ := List.mem_filter.mp hi
      exact hl n i hmem hrunning
  rw [List.foldl_map] at hstop
  exact hstop

end Inv

/-! ## Requests -/

/-- The interfaces of a phy that would be started do not have the name of an MLD interface. -/
def PlainStarts (s : World) (env : Env) (name : String) : Prop :=
  ∀ cfg ∈ s.config name, env.opened name = true →
    ∀ n i, (n, i) ∈ cfg.data → i.running = false → env.added i.config.iface = true →
      i.config.iface ∉ s.names

/-- The condition on a new configuration of a phy. -/
structure SetsOwn (s : World) (phy : String) (radio : Option ℕ) (list : List Config) : Prop where
  /-- The configuration was made for the same phy. -/
  name : ∀ old ∈ s.config (name_of phy radio), old.name = phy
  /-- Without a radio, only an MLD interface that is configured on radio 0 gets a configuration. -/
  noRadio : radio = none → ∀ n d, (n, d) ∈ s.mld → d.phy = phy → (mlo_ifaces list n).isSome →
    (d.phy_config 0).isSome
  /-- No interface that is stopped has the name of an MLD interface. -/
  stops : ∀ n ∈ (vlist_update ((list.filter fun c => !c.mlo).map fun c => (c.iface, ⟨c, false⟩))
    ((s.config (name_of phy radio)).elim [] Phy.data)).2, n ∉ s.names

/-- The condition on stopping a phy. -/
structure StopsOwn (s : World) (phy : String) (cfg : Phy) : Prop where
  plain : ∀ n i, (n, i) ∈ cfg.data → i.running = true → n ∉ s.names
  /-- MLD interfaces of other phys are not up on a radio of the same number. -/
  mld : ∀ n d, (n, d) ∈ s.mld → d.phy ≠ phy → d.radio_mask_up &&& radio_mask_of cfg = 0#64

/-- The condition on starting a phy. -/
structure StartsOwn (s : World) (phy : String) (cfg : Phy) (env : Env) (name : String) : Prop where
  plain : PlainStarts s env name
  /-- MLD interfaces that may use the radio are configured on it. -/
  configured : ∀ n d, (n, d) ∈ s.mld → d.radio_mask &&& radio_mask_of cfg ≠ 0#64 →
    ∀ r ∈ cfg.radio, (d.phy_config r).isSome
  /-- No MLD interface of another phy waits to be started. -/
  mld : s.mld_pending = false →
    (∃ n d, (n, d) ∈ s.mld ∧ d.radio_mask &&& radio_mask_of cfg ≠ 0#64) →
    ∀ n d, (n, d) ∈ s.mld → d.phy ≠ phy →
      ¬ Starts env (s.start_pending env name).config (phy_start_mask (radio_mask_of cfg) d)

/-- The condition on a request. -/
def Cond (s : World) : Event → Prop
  | .mld_set config => ∀ n ∈ config.1.map Prod.fst, n ∉ s.names → s.table.interfaces n = none
  | .config_set phy radio config => ∀ list ∈ config, phy ≠ "" → SetsOwn s phy (radio_of radio) list
  | .timer name env => PlainStarts s env name
  | .phy_set_state phy radio stop env => phy ≠ "" → ∀ cfg ∈ s.config (name_of phy (radio_of radio)),
    match stop with
    | none => True
    | some true => StopsOwn s phy cfg
    | some false => StartsOwn s phy cfg env (name_of phy (radio_of radio))
  | .mld_start _ => True

lemma getLsbD_bit {r i : ℕ} : (bit (some r)).getLsbD i = (decide (i = r) && decide (i < 64)) := by
  rw [bit, BitVec.getLsbD_shiftLeft, BitVec.getLsbD_one]
  by_cases h : i = r
  · subst h
    simp
  · by_cases hlt : i < r
    · simp [hlt, h]
    · have hsub : i - r ≠ 0 := by omega
      simp [h, hsub]

lemma getLsbD_bit_none {i : ℕ} : (bit none).getLsbD i = decide (i = 0) := by
  rw [bit, BitVec.getLsbD_one]
  simp

lemma radio_mask_of_getLsbD {i : ℕ} (h : (radio_mask_of cfg).getLsbD i = true) :
    cfg.radio = some i := by
  rw [radio_mask_of] at h
  cases hradio : cfg.radio with
  | none => simp [hradio] at h
  | some r =>
    rw [hradio] at h
    simp only [getLsbD_bit, Bool.and_eq_true, decide_eq_true_eq] at h
    rw [h.1]

/-- A new configuration of an MLD interface for a radio of its phy. -/
lemma masks_set_iface_config (h : s.Masks n d) {c : Option Config}
    (hname : ∀ cfg ∈ c, cfg.iface = n) (hbelongs : ∀ r ∈ radio, s.Belongs d.phy r)
    (hnone : radio = none → c.isSome → (d.phy_config 0).isSome) :
    s.Masks n (mld_set_iface_config d radio c) := by
  cases radio with
  | none =>
    refine ⟨h.configured, fun r hr => ?_⟩
    rw [mld_set_iface_config] at hr ⊢
    simp only at hr ⊢
    split at hr
    · rename_i hsome
      rw [BitVec.getLsbD_or, getLsbD_bit_none, Bool.or_eq_true, decide_eq_true_eq] at hr
      rcases hr with hr | rfl
      · exact h.present r hr
      · exact hnone rfl hsome
    · rw [BitVec.getLsbD_and, Bool.and_eq_true] at hr
      exact h.present r hr.1
  | some r' =>
    refine ⟨fun r cfg hcfg => ?_, fun r hr => ?_⟩
    · rw [mld_set_iface_config] at hcfg
      simp only at hcfg
      by_cases heq : r = r'
      · subst heq
        rw [Function.update_self] at hcfg
        exact ⟨hname cfg hcfg, hbelongs r rfl⟩
      · rw [Function.update_of_ne heq] at hcfg
        exact h.configured r cfg hcfg
    · rw [mld_set_iface_config] at hr ⊢
      simp only at hr ⊢
      by_cases heq : r = r'
      · subst heq
        rw [Function.update_self]
        by_contra hne
        rw [if_neg hne, BitVec.getLsbD_and, BitVec.getLsbD_not, getLsbD_bit] at hr
        simp at hr
      · rw [Function.update_of_ne heq]
        refine h.present r ?_
        split at hr
        · simpa [getLsbD_bit, heq] using hr
        · rw [BitVec.getLsbD_and, Bool.and_eq_true] at hr
          exact hr.1

lemma mlo_ifaces_iface {list : List Config} {c : Config} (h : mlo_ifaces list n = some c) :
    c.iface = n := by
  have hfound := List.find?_some h
  simp only [Bool.and_eq_true, decide_eq_true_eq] at hfound
  exact hfound.2

lemma phy_object_eq {old : Option Phy} (h : ∀ cfg ∈ old, cfg.name = phy) :
    phy_object old phy radio = ⟨phy, radio, old.elim [] Phy.data⟩ := by
  cases old with
  | none => rfl
  | some cfg => rw [← h cfg rfl, phy_object, Option.elim_some]

namespace Inv

lemma set_config (h : Inv s) {list : List Config} (hc : SetsOwn s phy radio list) :
    Inv (set_config (name_of phy radio) phy radio list s) := by
  have hstops := hc.stops
  rw [Wpas.set_config, phy_object_eq hc.name]
  simp only
  generalize hu : vlist_update ((list.filter fun c => !c.mlo).map fun c => (c.iface, ⟨c, false⟩))
    ((s.config (name_of phy radio)).elim [] Phy.data) = u at hstops ⊢
  have hset : Inv { s with
      config := Function.update s.config (name_of phy radio) (some ⟨phy, radio, u.1⟩) } :=
    h.setConfig rfl hc.name
  have hbelongs : ∀ r ∈ radio, World.Belongs { s with
      config := Function.update s.config (name_of phy radio) (some ⟨phy, radio, u.1⟩) } phy r :=
    fun r hr => ⟨name_of phy radio, ⟨phy, radio, u.1⟩, Function.update_self .., rfl, hr⟩
  have hloop := hset.loop (f := mld_update_phy_one (some phy) phy radio (mlo_ifaces list))
    (fun n d t hmem => ?_) (fun n d t hmem => ?_)
  · exact hloop.stopped fun n hn => by
      rw [names, forMld_names]
      exact hstops n hn
  · rw [mld_update_phy_one]
    split
    · exact Turn.refl rfl
    · rename_i hphy
      have hrow : (mld_set_iface_config d radio (mlo_ifaces list n)).row = d.row := rfl
      refine Turn.of_row hrow (mld_update_iface_turn fun _ phy' hphy' => ?_)
      cases hphy'
      exact (not_not.mp hphy).symm
  · rw [mld_update_phy_one]
    split
    · exact hset.masks n d hmem
    · rename_i hphy
      have hphy := not_not.mp hphy
      refine World.Masks.same ?_ mld_update_iface_same
      refine masks_set_iface_config (hset.masks n d hmem) (fun c hc' => mlo_ifaces_iface hc')
        (fun r hr => ?_) fun hr hsome => ?_
      · rw [hphy]
        exact hbelongs r hr
      · exact hc.noRadio hr n d hmem hphy hsome

/-- MLD interfaces that are not kept are removed. -/
lemma mld_set (h : Inv s) {config : MldObject}
    (hc : ∀ n ∈ config.1.map Prod.fst, n ∉ s.names → s.table.interfaces n = none) :
    Inv (mld_set_config config s) := by
  rw [mld_set_config]
  set prev_mld := s.mld.filter fun e => !(config.1.lookup e.1).any fun data => e.2.config = data
    with hprev
  have hsub : ∀ n d, (n, d) ∈ prev_mld → (n, d) ∈ s.mld := fun n d hmem => (List.mem_filter.mp hmem).1
  have hnodup : (prev_mld.map Prod.fst).Nodup := h.nodup.sublist (List.filter_sublist.map _)
  have hloop := forMld_spec hnodup (f := mld_remove none)
    (fun n d t _ => mld_remove_turn fun _ phy hphy => by cases hphy) s.table
  have hrows := hloop.agrees fun n d hmem => h.row n d (hsub n d hmem)
  -- an interface that is not kept is not there any more
  have hremoved : ∀ n ∈ prev_mld.map Prod.fst,
      (forMld (mld_remove none) prev_mld s.table).2.interfaces n = none := fun n hn => by
    rw [← forMld_names (f := mld_remove none) s.table] at hn
    obtain ⟨⟨n', d'⟩, hmem, rfl⟩ := List.mem_map.mp hn
    obtain ⟨d, t', -, hd'⟩ := hloop.data n' d' hmem
    rw [hrows n' d' hmem, row_of_up (by rw [hd']; exact mld_remove_up)]
  have hkept : ∀ n data d, (n, data) ∈ config.1 → kept s.mld n data = some d →
      (n, d) ∈ s.mld ∧ n ∉ prev_mld.map Prod.fst := fun n data d hdata hk => by
    obtain ⟨hlookup, hconfig⟩ := Option.filter_eq_some_iff.mp hk
    refine ⟨mem_of_lookup hlookup, fun hn => ?_⟩
    obtain ⟨⟨n', d'⟩, hmem, rfl⟩ := List.mem_map.mp hn
    obtain ⟨hmem, hnot⟩ := List.mem_filter.mp hmem
    obtain rfl := Option.some_injective _ (hlookup.symm.trans (lookup_of_mem h.nodup hmem))
    rw [lookup_of_mem config.2 hdata] at hnot
    simp_all
  have hnew : ∀ n data, (n, data) ∈ config.1 → kept s.mld n data = none →
      (forMld (mld_remove none) prev_mld s.table).2.interfaces n = none := fun n data hdata hk => by
    by_cases hn : n ∈ prev_mld.map Prod.fst
    · exact hremoved n hn
    · rw [hloop.others n hn]
      refine hc n (List.mem_map_of_mem (f := Prod.fst) hdata) fun hold => ?_
      obtain ⟨⟨n', d⟩, hmem, rfl⟩ := List.mem_map.mp hold
      refine hn (List.mem_map_of_mem (f := Prod.fst) (List.mem_filter.mpr ⟨hmem, ?_⟩))
      rw [lookup_of_mem config.2 hdata]
      rw [kept, lookup_of_mem h.nodup hmem] at hk
      simpa using hk
  refine ⟨?_, h.config, fun n d hmem => ?_, fun n d hmem => ?_, fun e he => ?_, fun n m hm => ?_⟩
  · rw [names, List.map_map]
    exact config.2
  · obtain ⟨⟨n, data⟩, hdata, ⟨⟩⟩ := List.mem_map.mp hmem
    cases hk : kept s.mld n data with
    | none =>
      refine ⟨fun r c hc => ?_, fun r hr => ?_⟩
      · cases hc
      · simp [new_mld] at hr
    | some d =>
      have hm := h.masks n d (hkept n data d hdata hk).1
      exact ⟨hm.configured, hm.present⟩
  · obtain ⟨⟨n, data⟩, hdata, ⟨⟩⟩ := List.mem_map.mp hmem
    cases hk : kept s.mld n data with
    | none => exact hnew n data hdata hk
    | some d =>
      obtain ⟨hold, hn⟩ := hkept n data d hdata hk
      exact (hloop.others n hn).trans (h.row n d hold)
  · rcases hloop.log e he with he | hown
    · exact h.own e he
    · exact hown
  · have hn : n ∉ prev_mld.map Prod.fst := fun hn => by
      rw [hremoved n hn] at hm
      cases hm
    rw [hloop.others n hn] at hm
    obtain ⟨⟨n', d⟩, hmem, rfl⟩ := List.mem_map.mp (h.gone n m hm)
    cases hdata : config.1.lookup n' with
    | none =>
      refine absurd (List.mem_map_of_mem (f := Prod.fst) (List.mem_filter.mpr ⟨hmem, ?_⟩)) hn
      simp [hdata]
    | some data =>
      rw [names, List.map_map]
      exact List.mem_map_of_mem (f := Prod.fst) (mem_of_lookup hdata)

lemma mld_start (h : Inv s) (hown : s.mld_pending = false → ∀ n d, (n, d) ∈ s.mld →
    Starts env s.config d → ∀ phy ∈ request, phy = d.phy) : Inv (s.mld_start env request) := by
  rw [World.mld_start]
  split
  · exact h
  · rename_i hpending
    refine h.loop (fun n d t hmem => ?_) fun n d t hmem => ?_
    · exact mld_start_one_turn (fun r c hc => ((h.masks n d hmem).configured r c hc).1)
        (hown (by simpa using hpending) n d hmem)
    · exact (h.masks n d hmem).same mld_start_one_same

lemma phy_stop (h : Inv s) (hcfg : s.config name = some cfg) (hc : StopsOwn s phy cfg) :
    Inv (phy_stop phy name cfg s) := by
  have hstop := h.iface_stop_all hcfg hc.plain
  refine hstop.loop (fun n d t hmem => ?_) fun n d t hmem => ?_
  · rw [phy_stop_one]
    simp only
    split
    · exact Turn.refl rfl
    · rename_i hup
      have hrow : Mld.row { d with
          radio_mask_present := d.radio_mask_present &&& ~~~radio_mask_of cfg } = d.row := rfl
      refine Turn.of_row hrow (mld_update_iface_turn fun _ phy' hphy => ?_)
      cases hphy
      by_contra hne
      exact hup (hc.mld n d hmem (Ne.symm hne))
  · have hm := hstop.masks n d hmem
    have hcleared : World.Masks (s.iface_stop_all name cfg) n { d with
        radio_mask_present := d.radio_mask_present &&& ~~~radio_mask_of cfg } :=
      ⟨hm.configured, fun r hr => by
        rw [BitVec.getLsbD_and, Bool.and_eq_true] at hr
        exact hm.present r hr.1⟩
    rw [phy_stop_one]
    simp only
    split
    · exact hcleared
    · exact hcleared.same mld_update_iface_same

lemma phy_start_masks (h : Inv s) (cfg : Phy)
    (hc : ∀ n d, (n, d) ∈ s.mld → d.radio_mask &&& radio_mask_of cfg ≠ 0#64 →
      ∀ r ∈ cfg.radio, (d.phy_config r).isSome) :
    Inv { s with mld := s.mld.map fun e => (e.1, phy_start_mask (radio_mask_of cfg) e.2) } := by
  have hmap : ∀ l t, forMld (fun _ d t => (phy_start_mask (radio_mask_of cfg) d, t)) l t =
      (l.map fun e => (e.1, phy_start_mask (radio_mask_of cfg) e.2), t) := fun l => by
    induction l with
    | nil => exact fun t => rfl
    | cons e l ih =>
      intro t
      rw [forMld, ih]
      rfl
  have hloop := h.loop (f := fun _ d t => (phy_start_mask (radio_mask_of cfg) d, t))
    (fun n d t _ => Turn.refl (by rw [phy_start_mask]; split <;> rfl)) fun n d t hmem => ?_
  · rw [hmap] at hloop
    exact hloop
  · have hm := h.masks n d hmem
    rw [phy_start_mask]
    split
    · exact hm
    · rename_i huses
      refine ⟨hm.configured, fun r hr => ?_⟩
      rw [BitVec.getLsbD_or, Bool.or_eq_true] at hr
      rcases hr with hr | hr
      · exact hm.present r hr
      · exact hc n d hmem huses r (radio_mask_of_getLsbD hr)

lemma start_pending_rest (s : World) (env : Env) (name : String) :
    (s.start_pending env name).mld = s.mld ∧
      (s.start_pending env name).mld_pending = s.mld_pending := by
  rw [World.start_pending]
  cases s.config name with
  | none => exact ⟨rfl, rfl⟩
  | some cfg =>
    simp only
    split <;> exact ⟨rfl, rfl⟩

lemma phy_start (h : Inv s) (hc : StartsOwn s phy cfg env name) :
    Inv (phy_start phy name cfg env s) := by
  obtain ⟨hmld, hpending⟩ := start_pending_rest s env name
  have hmasks := (h.start_pending hc.plain).phy_start_masks cfg
    (by rw [hmld]; exact hc.configured)
  rw [Wpas.phy_start]
  split
  · rename_i hfound
    refine hmasks.mld_start fun hnot n d hmem hstarts phy' hphy' => ?_
    cases hphy'
    rw [hpending] at hnot
    rw [hmld] at hmem hfound
    obtain ⟨⟨n, d⟩, hold, ⟨⟩⟩ := List.mem_map.mp hmem
    obtain ⟨⟨n', d'⟩, hd', huses⟩ := List.any_eq_true.mp hfound
    have hphy : (phy_start_mask (radio_mask_of cfg) d).phy = d.phy := by
      rw [phy_start_mask]
      split <;> rfl
    rw [hphy]
    by_contra hne
    exact hc.mld hnot ⟨n', d', hd', by simpa using huses⟩ n d hold (Ne.symm hne) hstarts
  · exact hmasks

/-- One request under the condition. -/
lemma step (h : Inv s) {e : Event} (hc : Cond s e) : Inv (step s e) := by
  cases e with
  | mld_set config =>
    have hpending : Inv { s with mld_pending := true } :=
      ⟨h.nodup, h.config, fun n d hmem => (h.masks n d hmem).mono fun _ hr => hr, h.row, h.own,
        h.gone⟩
    exact hpending.mld_set hc
  | config_set phy radio config =>
    rw [Wpas.step.eq_def]
    cases config with
    | none => exact h
    | some list =>
      simp only
      split
      · exact h
      · rename_i hphy
        exact h.set_config (hc list rfl hphy)
  | timer name env => exact h.start_pending hc
  | phy_set_state phy radio stop env =>
    rw [Wpas.step.eq_def]
    simp only
    split
    · exact h
    · rename_i hphy
      rw [phy_set_state]
      cases hcfg : s.config (name_of phy (radio_of radio)) with
      | none => exact h
      | some cfg =>
        have hc := hc hphy cfg hcfg
        cases stop with
        | none => exact h
        | some stop =>
          cases stop with
          | true => exact h.phy_stop hcfg hc
          | false => exact h.phy_start hc
  | mld_start env =>
    have hpending : Inv { s with mld_pending := false } :=
      ⟨h.nodup, h.config, fun n d hmem => (h.masks n d hmem).mono fun _ hr => hr, h.row, h.own,
        h.gone⟩
    exact hpending.mld_start fun _ n d _ _ phy hphy => by cases hphy

lemma init : Inv World.init where
  nodup := List.nodup_nil
  config name cfg h := by cases h
  masks n d h := absurd h List.not_mem_nil
  row n d h := absurd h List.not_mem_nil
  own e h := absurd h List.not_mem_nil
  gone n m h := by cases h

end Inv

/-- What the masks promise. -/
structure Agrees (s : World) : Prop where
  /-- A radio that is present has a configuration, and is one of the own phy. -/
  present : ∀ n d, (n, d) ∈ s.mld → ∀ r, d.radio_mask_present.getLsbD r = true →
    (d.phy_config r).isSome ∧ s.Belongs d.phy r
  /-- The interface exists if it is up on some radio. -/
  up_iff : ∀ n d, (n, d) ∈ s.mld →
    (d.radio_mask_up ≠ 0#64 ↔ (s.table.interfaces n).isSome)
  /-- It is up on the radios that were present when it was added. -/
  up_eq : ∀ n d, (n, d) ∈ s.mld → d.radio_mask_up ≠ 0#64 →
    s.table.interfaces n = some (.mld d.radio_mask_up)
  /-- Nothing was started or removed for another phy. -/
  own : ∀ e ∈ s.table.log, ∀ phy ∈ e.request, phy = e.phy
  /-- An interface that was added as an MLD interface is one of the configuration. -/
  gone : ∀ n m, s.table.interfaces n = some (.mld m) → ∃ d, (n, d) ∈ s.mld

lemma Inv.agrees (h : Inv s) : Agrees s where
  present n d hmem r hr := by
    have hsome := (h.masks n d hmem).present r hr
    obtain ⟨c, hc⟩ := Option.isSome_iff_exists.mp hsome
    exact ⟨hsome, ((h.masks n d hmem).configured r c hc).2⟩
  up_iff n d hmem := by
    rw [h.row n d hmem, Mld.row]
    split <;> simp_all
  up_eq n d hmem hup := by rw [h.row n d hmem, Mld.row, if_neg hup]
  own := h.own
  gone n m hm := by
    obtain ⟨⟨n', d⟩, hmem, rfl⟩ := List.mem_map.mp (h.gone n m hm)
    exact ⟨d, hmem⟩

/-- Requests under the condition keep the masks and the table of wpa_supplicant together. -/
theorem masks_agree (es : List Event) (hes : AllSteps step Cond World.init es) :
    Agrees (run step World.init es) :=
  (hes.invariant Inv.init fun _ _ h hc => h.step hc).agrees

/-- Phys can be opened, and interfaces are accepted. -/
def working : Env := ⟨fun _ => true, fun _ => true⟩

/-- An MLD interface of phy0 on radio 0. -/
def oneMld : MldObject := ⟨[("ml0", ⟨"phy0", [some 0], 0⟩)], by simp⟩

def started : List Event :=
  [.mld_set oneMld, .config_set "phy0" (some 0) (some [⟨"ml0", true, 0⟩]), .mld_start working]

theorem masks_agree_started : Agrees (run step World.init
    (started ++ [.phy_set_state "phy0" (some 0) (some true) working])) := by
  refine masks_agree _ ⟨fun _ _ _ => rfl, ?_, trivial, ?_, trivial⟩
  · rintro list ⟨⟩ -
    refine ⟨fun old hold => ?_, fun hr => ?_, fun n hn => ?_⟩
    · cases hold
    · cases hr
    · exact absurd hn List.not_mem_nil
  · rintro - cfg hcfg
    have hdata : ∀ cfg ∈ (run step World.init started).config (name_of "phy0" (some 0)),
        cfg.data = [] := by
      rintro cfg ⟨⟩
      rfl
    have hphy : ∀ e ∈ (run step World.init started).mld, e.2.phy = "phy0" := by decide +kernel
    refine ⟨fun n i hi => ?_, fun n d hmem hne => absurd (hphy (n, d) hmem) hne⟩
    rw [hdata cfg hcfg] at hi
    exact absurd hi List.not_mem_nil

/-- Stopping radio 0 of phy1 takes the MLD interface of phy0 down. -/
theorem stopped_for_another_phy : ¬ Agrees (run step World.init
    (started ++ [.config_set "phy1" (some 0) (some []),
      .phy_set_state "phy1" (some 0) (some true) working])) := by
  intro h
  have hlog : (run step World.init (started ++ [.config_set "phy1" (some 0) (some []),
      .phy_set_state "phy1" (some 0) (some true) working])).table.log =
      [⟨"ml0", "phy0", some "phy1"⟩, ⟨"ml0", "phy0", none⟩] := by decide +kernel
  have hown := h.own ⟨"ml0", "phy0", some "phy1"⟩ (by rw [hlog]; exact List.mem_cons_self) "phy1" rfl
  exact absurd hown (by decide)

end Wpas
