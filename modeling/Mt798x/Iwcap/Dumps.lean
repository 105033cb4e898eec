import Mt798x.Iwcap.Ring

/-!
# The dumps of `iwcap`

The ring holds the frames that were kept last, and a dump walks over it from the oldest one.
-/

namespace Iwcap

open Bytes FlatImage Runs

variable {m : Machine} {o : Options} {r : Ring} {kept : List Record} {f : Record}

/-! ## Frames -/

lemma keeps_range {p : Receipt} (h : keeps m o p = true) :
    8 < p.pktlen.toNat ∧ p.pktlen.toNat ≤ 0xffff := by
  simp only [keeps, Bool.and_eq_true, Bool.not_eq_true', Bool.or_eq_false_iff,
    decide_eq_false_iff_not] at h
  obtain ⟨⟨hlen, hit⟩, -⟩ := h
  have hsize : 0xffff < m.size_t := by
    rw [Machine.size_t]
    split <;> omega
  rcases p.range with herr | ⟨hpos, hmax⟩
  · omega
  · rw [Int.emod_eq_of_lt (by omega) (by omega), sizeof_radiotap_hdr] at hlen
    omega

lemma record_sane (ho : o.Sane) {sec usec : UInt32} {p : Receipt} (h : keeps m o p = true) :
    (record o sec usec p).Sane o := by
  have hrange := keeps_range h
  have habove := ho.above
  refine ⟨?_, min_le_right _ _, ?_, ?_⟩
  · show 0 < min p.pktlen.toNat o.pktcap
    omega
  · show p.pktlen.toNat < 2 ^ 16
    omega
  · show (p.pktbuf.take (min p.pktlen.toNat o.pktcap)).length = min p.pktlen.toNat o.pktcap
    rw [List.length_take, p.room]
    omega

/-- A frame more in the ring. -/
lemma Holds.keep (ho : o.Sane) (h : Holds m o r kept) {sec usec : UInt32} {p : Receipt}
    (hkeeps : keeps m o p = true) (hpos : 0 < o.slots)
    (hword : kept.length % o.slots * o.slen < 2 ^ 32) :
    ∃ r', keep m o r sec usec p = .ok r' ∧ Holds m o r' (kept ++ [record o sec usec p]) := by
  have hsane : (record o sec usec p).Sane o := record_sane ho hkeeps
  have hlt : kept.length % o.slots < o.slots := Nat.mod_lt _ hpos
  have hend : kept.length % o.slots * o.slen + o.slen ≤ o.slots * o.slen := slot_end_le hlt _
  have hdata : (record o sec usec p).data.length ≤ o.pktcap := hsane.length ▸ hsane.limit
  have hkeep := keep_eq (m := m) (r := r) (o := o) sec usec (p := p)
    (h.len ▸ hpos) (by rw [h.fill]; have := ho.slots_mul.2; omega)
    (by rw [h.fill, h.slen]; exact hword) (by rw [h.fill, h.slen, h.size]; exact hend) h.slen hdata
  rw [h.fill, h.slen, h.len] at hkeep
  refine ⟨_, hkeep, ?_⟩
  have hslen : 16 + (record o sec usec p).data.length ≤ o.slen := by
    rw [Options.slen, sizeof_ringbuf_entry]
    omega
  -- the other slots are left alone
  have hother : ∀ i n, i ≠ kept.length % o.slots → n ≤ o.slen →
      slice (stored m r.buf (kept.length % o.slots * o.slen) o.slen (record o sec usec p))
        (i * o.slen) n = slice r.buf (i * o.slen) n := by
    intro i n hne hn
    refine slice_stored_of_apart hslen ?_
    rcases slots_apart hne o.slen with hle | hle
    · exact .inl (by omega)
    · exact .inr hle
  exact
    { len := rfl
      slen := rfl
      size := h.size
      fill := by simp only [List.length_append, List.length_singleton, Nat.mod_add_mod]
      word := by
        intro i hi hslots
        rw [List.length_append, List.length_singleton] at hi
        rcases Nat.lt_succ_iff_lt_or_eq.mp hi with hlt | rfl
        · exact h.word i hlt hslots
        · rwa [Nat.mod_eq_of_lt hslots] at hword
      sane := by
        intro f hf
        rcases List.mem_append.mp hf with hf | hf
        · exact h.sane f hf
        · rw [List.mem_singleton.mp hf]
          exact hsane
      slot := by
        intro j f hj hle
        rw [List.length_append, List.length_singleton] at hle
        rcases Nat.lt_or_ge j kept.length with hjlt | hge
        · rw [List.getElem?_append_left hjlt] at hj
          -- another frame than the one whose slot is taken
          have hne : j % o.slots ≠ kept.length % o.slots := by
            intro heq
            have hmod := (Nat.modEq_iff_dvd' hjlt.le).mp heq
            have hle' := Nat.le_of_dvd (by omega) hmod
            omega
          have hf := h.sane f (List.mem_of_getElem? hj)
          rw [hother _ _ hne (by
            rw [length_entry, hf.length, Options.slen, sizeof_ringbuf_entry]
            have := hf.limit
            omega)]
          exact h.slot j f hj (by omega)
        · obtain rfl : j = kept.length := by
            have := (List.getElem?_eq_some_iff.mp hj).1
            rw [List.length_append, List.length_singleton] at this
            omega
          rw [List.getElem?_append_right le_rfl, Nat.sub_self] at hj
          cases hj
          exact slice_stored_self
      blank := by
        intro i hi hle hcover
        rw [List.length_append, List.length_singleton] at hle
        have hne : i ≠ kept.length % o.slots := by
          rw [Nat.mod_eq_of_lt (by omega)]
          omega
        rw [hother i 4 hne (by rw [Options.slen, sizeof_ringbuf_entry]; omega)]
        exact h.blank i hi (by omega) hcover }

/-! ## Dumps -/

/-- The record that stands `i` slots behind the oldest one. -/
def older (n : ℕ) (kept : List Record) (i : ℕ) : Option Record :=
  if n ≤ kept.length + i then kept[kept.length + i - n]? else none

lemma filterMap_getElem? {α : Type} (l : List α) :
    (List.range l.length).filterMap (fun i => l[i]?) = l := by
  induction l using List.reverseRecOn with
  | nil => rfl
  | append_singleton l a ih =>
    have hinit : (List.range l.length).filterMap (fun i => (l ++ [a])[i]?) = l := by
      refine Eq.trans (List.filterMap_congr fun i hi => ?_) ih
      exact List.getElem?_append_left (List.mem_range.mp hi)
    rw [List.length_append, List.length_singleton, List.range_succ, List.filterMap_append, hinit]
    simp

lemma filterMap_older (n : ℕ) (kept : List Record) :
    (List.range n).filterMap (older n kept) = kept.drop (kept.length - n) := by
  rcases Nat.le_total n kept.length with hle | hle
  · have hdrop := filterMap_getElem? (kept.drop (kept.length - n))
    have hlen : (kept.drop (kept.length - n)).length = n := by
      rw [List.length_drop]
      omega
    rw [hlen] at hdrop
    refine Eq.trans (List.filterMap_congr fun i hi => ?_) hdrop
    rw [older, if_pos (by omega), List.getElem?_drop]
    congr 1
    omega
  · have hsplit : List.range n = List.range (n - kept.length) ++
        (List.range kept.length).map (n - kept.length + ·) := by
      rw [← List.range_add]
      congr 1
      omega
    have hfront : (List.range (n - kept.length)).filterMap (older n kept) = [] := by
      refine List.filterMap_eq_nil_iff.mpr fun i hi => ?_
      have hlt := List.mem_range.mp hi
      rw [older, if_neg (by omega)]
    have hback : (List.range kept.length).filterMap
        (older n kept ∘ (n - kept.length + ·)) = kept := by
      refine Eq.trans (List.filterMap_congr fun i hi => ?_) (filterMap_getElem? kept)
      rw [Function.comp_apply, older, if_pos (by omega)]
      congr 1
      omega
    rw [hsplit, List.filterMap_append, hfront, List.filterMap_map, hback,
      Nat.sub_eq_zero_of_le hle, List.drop_zero, List.nil_append]

lemma get32_put32 (w : UInt32) : get32 m.host (put32 m.host w) = w := by
  have h := get32_put32_append m.host w []
  rwa [List.append_nil] at h

lemma toNat_word {n : ℕ} (h : n < 2 ^ 16) : (UInt32.ofNat n).toNat = n :=
  Nat.mod_eq_of_lt (h.trans (by decide))

lemma ringbuf_get_eq {i e : ℕ} {bs : List Byte} (hpos : 0 < r.len)
    (he : (r.fill + i) % 2 ^ 32 % r.len * r.slen % 2 ^ 32 = e) (hin : e + 4 ≤ r.size)
    (hslot : slice r.buf e 4 = written bs) :
    ringbuf_get m r i = .ok (if 0 < get32 m.host bs then some e else none, true) := by
  rw [ringbuf_get, if_neg hpos.ne', he]
  dsimp only
  rw [load_eq hin hslot, ok_bind]

lemma dumpSlot_full {i e : ℕ} (hpos : 0 < r.len)
    (he : (r.fill + i) % 2 ^ 32 % r.len * r.slen % 2 ^ 32 = e) (hf : f.Sane o)
    (hcap : o.pktcap < 2 ^ 16) (hin : e + o.slen ≤ r.size)
    (hslot : slice r.buf e (entry m f).length = written (entry m f)) :
    dumpSlot m r i = .ok (some f, true) := by
  obtain ⟨hlen, horig, hsec, husec, hdata⟩ := entry_parts.mp hslot
  have hlimit := hf.limit
  have hdatalen := hf.length
  have hin' : e + 16 + o.pktcap ≤ r.size := by
    rw [Options.slen, sizeof_ringbuf_entry] at hin
    omega
  have hincl : (UInt32.ofNat f.incl_len).toNat = f.incl_len := toNat_word (by omega)
  have hincl_pos : 0 < UInt32.ofNat f.incl_len := by
    rw [UInt32.lt_iff_toNat_lt, hincl]
    exact hf.some_data
  have hget : ringbuf_get m r i = .ok (some e, true) := by
    rw [ringbuf_get_eq hpos he (by omega) hlen, get32_put32, if_pos hincl_pos]
  rw [dumpSlot, hget, ok_bind]
  dsimp only
  rw [load_eq (by omega) hsec, ok_bind, load_eq (by omega) husec, ok_bind,
    load_eq (by omega) hlen, ok_bind, load_eq (by omega) horig, ok_bind, get32_put32, hincl,
    ← hdatalen, load_eq (by omega) hdata, ok_bind]
  simp only [get32_put32, hdatalen, toNat_word hf.orig, Bool.and_self,
    Nat.mod_eq_of_lt (hlimit.trans_lt hcap), Nat.mod_eq_of_lt hf.orig]

lemma dumpSlot_blank {i e : ℕ} (hpos : 0 < r.len)
    (he : (r.fill + i) % 2 ^ 32 % r.len * r.slen % 2 ^ 32 = e) (hin : e + 4 ≤ r.size)
    (hslot : slice r.buf e 4 = written [0, 0, 0, 0]) : dumpSlot m r i = .ok (none, true) := by
  have hzero : get32 m.host [0, 0, 0, 0] = 0 := by
    cases m.host <;> rfl
  rw [dumpSlot, ringbuf_get_eq hpos he hin hslot, ok_bind, hzero, if_neg (UInt32.lt_irrefl 0)]

/-- A turn of a dump that comes when all slots are filled or if all their lengths were cleared. -/
lemma Holds.dumpSlot (ho : o.Sane) (h : Holds m o r kept)
    (hfits : o.slots ≤ kept.length ∨ 16 * o.slots ≤ o.pktcap + 12) {i : ℕ} (hi : i < o.slots) :
    dumpSlot m r i = .ok (older o.slots kept i, true) := by
  have hpos : 0 < o.slots := by omega
  have hslots := ho.slots_mul.2
  have hlt : kept.length % o.slots < o.slots := Nat.mod_lt _ hpos
  have hplace : (r.fill + i) % 2 ^ 32 % r.len = (kept.length + i) % o.slots := by
    rw [h.fill, h.len, Nat.mod_eq_of_lt (by omega : kept.length % o.slots + i < 2 ^ 32),
      Nat.mod_add_mod]
  rw [older]
  split
  · rename_i hle
    -- the frame whose slot this is
    have hj : kept.length + i - o.slots < kept.length := by omega
    have hmod : (kept.length + i - o.slots) % o.slots = (kept.length + i) % o.slots := by
      conv_rhs => rw [← Nat.sub_add_cancel hle, Nat.add_mod_right]
    have hsome := List.getElem?_eq_getElem hj
    have hmodlt := Nat.mod_lt (kept.length + i - o.slots) hpos
    have hmodle := Nat.mod_le (kept.length + i - o.slots) o.slots
    rw [hsome]
    refine dumpSlot_full (h.len ▸ hpos) (e := (kept.length + i - o.slots) % o.slots * o.slen) ?_
      (h.sane _ (List.getElem_mem hj)) ho.below ?_ (h.slot _ _ hsome (by omega))
    · rw [hplace, h.slen, hmod, Nat.mod_eq_of_lt]
      rw [← hmod]
      exact h.word _ (by omega) hmodlt
    · rw [h.size]
      exact slot_end_le hmodlt _
  · rename_i hgt
    have hcover : 16 * o.slots ≤ o.pktcap + 12 := by omega
    have hbelow := ho.below
    have hend := slot_end_le (by omega : kept.length + i < o.slots) o.slen
    have hmul : (kept.length + i) * o.slen + 4 ≤ o.slots * o.pktcap := by
      obtain ⟨n, hn⟩ : ∃ n, o.slots = n + 1 := ⟨o.slots - 1, by omega⟩
      have hle : (kept.length + i) * o.slen ≤ n * o.slen := Nat.mul_le_mul_right _ (by omega)
      have hexpand : n * o.slen = n * o.pktcap + 16 * n := by
        rw [Options.slen, sizeof_ringbuf_entry, Nat.mul_add, Nat.mul_comm 16]
      rw [hn, Nat.succ_mul]
      omega
    have hword : o.slots * o.pktcap < 2 ^ 32 := ho.slots_mul.1
    refine dumpSlot_blank (h.len ▸ hpos) (e := (kept.length + i) * o.slen) ?_ ?_
      (h.blank _ (by omega) (by omega) hmul)
    · rw [hplace, h.slen, Nat.mod_eq_of_lt (by omega : kept.length + i < o.slots),
        Nat.mod_eq_of_lt (by omega)]
    · rw [h.size]
      have hslen : 16 ≤ o.slen := Nat.le_add_left _ _
      omega

lemma Holds.dump (ho : o.Sane) (h : Holds m o r kept)
    (hfits : o.slots ≤ kept.length ∨ 16 * o.slots ≤ o.pktcap + 12) :
    ∃ slots, dump m r = .ok slots ∧ slots.filterMap Prod.fst = kept.drop (kept.length - o.slots) ∧
      slots.all Prod.snd = true := by
  have hmap : ∀ l : List ℕ, (∀ i ∈ l, i < o.slots) →
      l.mapM (Iwcap.dumpSlot m r) = .ok (l.map fun i => (older o.slots kept i, true)) := by
    intro l
    induction l with
    | nil => exact fun _ => rfl
    | cons i l ih =>
      intro hl
      have hslot := h.dumpSlot ho hfits (hl i List.mem_cons_self)
      have hrest := ih fun j hj => hl j (List.mem_cons_of_mem i hj)
      rw [List.mapM_cons, hslot, hrest]
      rfl
  refine ⟨_, h.len ▸ hmap (List.range o.slots) fun i hi => List.mem_range.mp hi, ?_, ?_⟩
  · rw [List.filterMap_map, ← filterMap_older, h.len]
    rfl
  · simp

/-! ## Runs -/

lemma ringbuf_init_holds (ho : o.Sane) (init : ℕ → Byte) (hsize : o.slots * o.slen < m.size_t) :
    ∃ r, ringbuf_init m init o.slots o.pktcap = .ok (some r) ∧ Holds m o r [] := by
  have habove := ho.above
  have hmul := ho.slots_mul.1
  have hle : o.slots * o.pktcap ≤ o.slots * o.slen :=
    Nat.mul_le_mul_left _ (Nat.le_add_right _ _)
  rw [ringbuf_init, if_neg (by omega)]
  dsimp only
  rw [Nat.mod_eq_of_lt hmul, ← Options.slen, Nat.mod_eq_of_lt hsize,
    store_bind (by simpa using hle)]
  refine ⟨_, rfl, ?_⟩
  exact
    { len := rfl
      slen := rfl
      size := rfl
      fill := (Nat.zero_mod _).symm
      word := fun i hi => absurd hi (by simp)
      sane := fun f hf => absurd hf List.not_mem_nil
      slot := fun j f hj => absurd hj (by simp)
      blank := by
        intro i hi _ hcover
        refine List.ext_getElem (by simp) fun k hk _ => ?_
        rw [length_slice] at hk
        have hlt : i * o.slen + k < o.slots * o.pktcap := by omega
        simp only [slice, overwrite, written, Nat.zero_le, if_true, Nat.sub_zero, List.getElem_map,
          List.getElem_range, List.map_replicate, List.getElem?_replicate, hlt, Option.getD_some]
        obtain rfl | rfl | rfl | rfl : k = 0 ∨ k = 1 ∨ k = 2 ∨ k = 3 := by omega
        all_goals rfl }

/-- A run that fits, from a ring that holds some frames. -/
lemma run_dumps (ho : o.Sane) (s : Session) (es : List Event) (h : Holds m o s.ring kept)
    (hfits : AllSteps (count m o) (Fits m o) kept.length es) (hclean : s.clean = true) :
    ∃ s', es.foldlM (turn m o) s = .ok s' ∧ s'.dumps = s.dumps ++ lasts m o kept es ∧
      s'.clean = true := by
  induction es generalizing s kept with
  | nil => exact ⟨s, rfl, (List.append_nil _).symm, hclean⟩
  | cons e es ih =>
    rw [List.foldlM_cons]
    obtain ⟨hfit, hrest⟩ := hfits
    cases e with
    | frame sec usec p =>
      cases hkeeps : keeps m o p with
      | false =>
        have haccepted : accepted m o (.frame sec usec p) = [] := by
          rw [accepted, hkeeps, if_neg Bool.false_ne_true]
        rw [count, haccepted, List.length_nil, Nat.add_zero] at hrest
        obtain ⟨s', hs', hdumps, hclean'⟩ := ih s h hrest hclean
        refine ⟨s', ?_, ?_, hclean'⟩
        · rw [turn, hkeeps, if_neg Bool.false_ne_true]
          exact hs'
        · rw [hdumps, lasts, haccepted, List.append_nil]
      | true =>
        have haccepted : accepted m o (.frame sec usec p) = [record o sec usec p] := by
          rw [accepted, hkeeps, if_pos rfl]
        obtain ⟨hpos, hword⟩ := hfit hkeeps
        obtain ⟨r', hr', hholds⟩ : ∃ r', keep m o s.ring sec usec p = .ok r' ∧
            Holds m o r' (_ ++ [record o sec usec p]) := h.keep ho hkeeps hpos hword
        rw [count, haccepted, List.length_singleton] at hrest
        obtain ⟨s', hs', hdumps, hclean'⟩ := ih { s with ring := r' } hholds
          (by rwa [List.length_append, List.length_singleton]) hclean
        refine ⟨s', ?_, ?_, hclean'⟩
        · rw [turn, hkeeps, if_pos rfl, hr']
          exact hs'
        · rw [hdumps, lasts, haccepted]
    | dump =>
      obtain ⟨slots, hslots, hlast, hall⟩ := h.dump ho hfit
      rw [count, accepted, List.length_nil, Nat.add_zero] at hrest
      obtain ⟨s', hs', hdumps, hclean'⟩ := ih
        { s with
          dumps := s.dumps ++ [slots.filterMap Prod.fst]
          clean := s.clean && slots.all Prod.snd } h hrest (by rw [hclean, hall]; rfl)
      refine ⟨s', ?_, ?_, hclean'⟩
      · rw [turn, hslots]
        exact hs'
      · rw [hdumps, lasts, hlast, List.append_assoc]
        rfl

/-- The dumps of a run that fits hold the last frames. -/
theorem dumps_last (m : Machine) (init : ℕ → Byte) (opts : List Opt) (es : List Event)
    (h : RunFits m opts es) : DumpsLast m init opts es := by
  intro o ho
  have hsane := getopt_sane ho
  obtain ⟨hsize, hsteps⟩ := h o ho
  obtain ⟨r, hr, hholds⟩ := ringbuf_init_holds hsane init hsize
  obtain ⟨s, hs, hdumps, hclean⟩ :=
    run_dumps hsane { ring := r, dumps := [], clean := true } es hholds hsteps rfl
  refine ⟨s, ?_, by rw [hdumps]; rfl, hclean⟩
  rw [main, ho, ok_bind, ← Options.slots, hr, ok_bind]
  exact hs

/-- A frame of twelve bytes behind an empty radiotap header. -/
def sampleFrame : Receipt where
  pktlen := 12
  pktbuf := [0, 0, 8, 0] ++ List.replicate 0xfffb 0
  room := by rw [List.length_append, List.length_replicate]; rfl
  range := .inr (by decide)

/-- A ring of three slots. -/
theorem dumps_last_three : DumpsLast ⟨.little, true⟩ (fun _ => 0xff) [.c 41, .r 123]
    [.dump, .frame 5 6 sampleFrame, .dump] := by
  refine dumps_last _ _ _ _ fun o ho => ?_
  cases ho
  decide +kernel

/-- In a ring of four slots the length of the last one has not been cleared: a dump without a frame
has a record. -/
theorem dumps_last_stale : ¬DumpsLast ⟨.little, true⟩ (fun a => if a = 171 then 1 else 0)
    [.c 41, .r 164] [.dump] := by
  intro h
  obtain ⟨s, hs, hdumps, -⟩ := h _ rfl
  have hmain : (main ⟨.little, true⟩ (fun a => if a = 171 then 1 else 0) [.c 41, .r 164]
      [.dump]).map Session.dumps = .ok [[⟨0, 0, 1, 0, [0]⟩]] := by decide +kernel
  rw [hs, Except.map, hdumps] at hmain
  cases hmain

/-- A limit above the size of the ring leaves no slot: the first frame divides by 0. -/
example : (main ⟨.little, true⟩ (fun _ => 0) [.r 768, .c 769] [.frame 5 6 sampleFrame]).map
    Session.dumps = .error .division := by
  decide +kernel

end Iwcap
