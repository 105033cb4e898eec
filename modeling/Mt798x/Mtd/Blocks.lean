import Mt798x.Mtd.Write
import Mt798x.Lib.Picks

/-!
# The blocks a write uses

The write loop puts the blocks of the image, in order, into the first blocks that are not reported
as bad, and erases each of them before.  Here is what one turn of it does, and from that what a
whole run does.
-/

namespace Mtd

open Picks

variable {W : World} {dev : Dev} {g : Globals}

/-! ## Blocks of an image -/

/-- Fills a block with 0xff. -/
def padBlock (es : ℕ) (b : List Byte) : List Byte := b ++ List.replicate (es - b.length) 0xff

/-- The image padded to a whole number of erase blocks. -/
def padded (es : ℕ) (image : List Byte) : List Byte :=
  image ++ List.replicate ((es - image.length % es) % es) 0xff

lemma length_padBlock {es : ℕ} {b : List Byte} (h : b.length ≤ es) : (padBlock es b).length = es := by
  rw [padBlock, List.length_append, List.length_replicate]
  omega

@[simp] lemma padded_nil (es : ℕ) : padded es [] = [] := by
  simp [padded]

lemma padded_of_ne {es : ℕ} {image : List Byte} (h : image ≠ []) :
    padded es image = padBlock es (image.take es) ++ padded es (image.drop es) := by
  have hpos : 0 < image.length := List.length_pos_iff.mpr h
  by_cases hlen : es ≤ image.length
  · have hmod : image.length % es = (image.length - es) % es := by
      conv_lhs => rw [← Nat.sub_add_cancel hlen]
      rw [Nat.add_mod_right]
    have htake : (image.take es).length = es := by
      rw [List.length_take]
      omega
    rw [padded, padded, padBlock, List.length_drop, htake, Nat.sub_self, List.replicate_zero,
      List.append_nil, hmod, ← List.append_assoc, List.take_append_drop]
  · have hmod : image.length % es = image.length := Nat.mod_eq_of_lt (by omega)
    rw [List.drop_eq_nil_of_le (by omega), padded_nil, List.append_nil,
      List.take_of_length_le (by omega), padded, padBlock, hmod, Nat.mod_eq_of_lt (by omega)]

/-! ## Filling the buffer -/

lemma Input.read_spec (inp : Input) {n : ℕ} (hn : 0 < n) :
    (inp.read n).1 ++ (inp.read n).2.rest = inp.rest ∧ (inp.read n).1.length ≤ n ∧
      ((inp.read n).1 = [] → inp.rest = []) := by
  obtain ⟨rest, sizes⟩ := inp
  cases sizes with
  | nil =>
    have hr : 0 < n := hn
    refine ⟨List.take_append_drop _ _, List.length_take_le _ _, fun h => ?_⟩
    exact (List.take_eq_nil_iff.mp h).resolve_left (Nat.pos_iff_ne_zero.mp hr)
  | cons size sizes =>
    have hr : 0 < min n (size + 1) := by omega
    refine ⟨List.take_append_drop _ _, ?_, fun h => ?_⟩
    · exact (List.length_take_le _ _).trans (Nat.min_le_left _ _)
    · exact (List.take_eq_nil_iff.mp h).resolve_left (Nat.pos_iff_ne_zero.mp hr)

lemma fillBuf_spec {es : ℕ} (fuel : ℕ) (inp : Input) (buf : List Byte) (hbuf : buf.length ≤ es)
    (hfuel : es ≤ fuel + buf.length) :
    (fillBuf es fuel inp buf).2 = (buf ++ inp.rest).take es ∧
      (fillBuf es fuel inp buf).1.rest = (buf ++ inp.rest).drop es := by
  induction fuel generalizing inp buf with
  | zero =>
    have hlen : buf.length = es := by omega
    exact ⟨(List.take_left' hlen).symm, (List.drop_left' hlen).symm⟩
  | succ fuel ih =>
    rw [fillBuf]
    by_cases hlt : buf.length < es
    · obtain ⟨happ, hle, hnil⟩ := inp.read_spec (show 0 < es - buf.length by omega)
      rw [if_pos hlt]
      set r := inp.read (es - buf.length) with hr
      by_cases hempty : r.1 = []
      · have hrest := hnil hempty
        have hrest' : r.2.rest = [] := by
          rw [hempty, List.nil_append] at happ
          rw [happ, hrest]
        simp only [hempty, if_true]
        rw [hrest, hrest', List.append_nil, List.take_of_length_le hlt.le,
          List.drop_eq_nil_of_le hlt.le]
        exact ⟨rfl, rfl⟩
      · have hpos : 0 < r.1.length := List.length_pos_iff.mpr hempty
        have hlen : (buf ++ r.1).length = buf.length + r.1.length := List.length_append
        simp only [hempty, if_false]
        obtain ⟨h1, h2⟩ := ih r.2 (buf ++ r.1) (by omega) (by omega)
        rw [h1, h2, List.append_assoc, happ]
        exact ⟨rfl, rfl⟩
    · have hlen : buf.length = es := by omega
      rw [if_neg hlt]
      exact ⟨(List.take_left' hlen).symm, (List.drop_left' hlen).symm⟩

/-! ## Erasing -/

/-- The loop takes this block for a bad one. -/
def reported (g : Globals) (dev : Dev) (i : ℕ) : Bool :=
  g.mtdtype = .MTD_NANDFLASH && dev.isBad i

lemma mtd_block_is_bad_ok {offset : ℕ} {r : Bool} (h : mtd_block_is_bad g dev offset = .ok r) :
    r = reported g dev (offset / dev.erasesize) := by
  rw [mtd_block_is_bad] at h
  rw [reported]
  by_cases hnand : g.mtdtype = .MTD_NANDFLASH
  · rw [if_pos hnand] at h
    split at h
    · cases h
      simp [hnand]
    · cases h
  · rw [if_neg hnand] at h
    cases h
    simp [hnand]

lemma Fd.erase_eq_some {fd fd' : Fd} {start length : ℕ}
    (h : fd.erase W dev start length = some fd') : Erasable W dev start length ∧
      fd' = { fd with flash := eraseAt fd.flash start length,
                      log := fd.log ++ [.erase start length] } := by
  rw [Fd.erase] at h
  split at h
  · rename_i herase
    exact ⟨herase, (Option.some.inj h).symm⟩
  · cases h

variable {po buflen : ℕ}

/-- If the loop has something to erase and comes to its end, the driver has erased a range of the
size that the program takes for the one of a block, at its offset or behind it. -/
lemma eraseLoop_erasable {fuel : ℕ} {s s' : Wr}
    (h : eraseLoop W g dev po buflen fuel s = .ok s')
    (hneed : s.w + buflen > s.e - s.skip_bad_blocks) :
    ∃ start, s.e + po ≤ start ∧ Erasable W dev start g.erasesize := by
  induction fuel generalizing s with
  | zero => cases h
  | succ fuel ih =>
    rw [eraseLoop, if_pos hneed] at h
    split at h
    · cases h
    · obtain ⟨start, hle, herase⟩ := ih h (by simp only; omega)
      exact ⟨start, by simp only at hle; omega, herase⟩
    · split at h
      · cases h
      · rename_i herase
        exact ⟨_, le_rfl, (Fd.erase_eq_some herase).1⟩

/-- The loop erases the first block that is not reported as bad, and moves the descriptor there. -/
lemma eraseLoop_spec (hes : g.erasesize = dev.erasesize) {fuel i P : ℕ} {s s' : Wr}
    (h : eraseLoop W g dev (P * dev.erasesize) dev.erasesize fuel s = .ok s')
    (he : s.e = i * dev.erasesize) (hw : s.e = s.w + s.skip_bad_blocks)
    (hpos : s.fd.pos = P * dev.erasesize + s.e) :
    ∃ j, i ≤ j ∧ reported g dev j = false ∧ (∀ k, i ≤ k → k < j → reported g dev k = true) ∧
      Erasable W dev ((P + j) * dev.erasesize) dev.erasesize ∧
      s' = { s with
        e := (j + 1) * dev.erasesize
        skip_bad_blocks := s.skip_bad_blocks + (j - i) * dev.erasesize
        fd := ⟨eraseAt s.fd.flash ((P + j) * dev.erasesize) dev.erasesize,
          (P + j) * dev.erasesize,
          s.fd.log ++ [.erase ((P + j) * dev.erasesize) dev.erasesize]⟩ } := by
  have hes0 := dev.erasesize_pos
  induction fuel generalizing s i with
  | zero => cases h
  | succ fuel ih =>
    have hneed : s.w + dev.erasesize > s.e - s.skip_bad_blocks := by omega
    rw [eraseLoop, if_pos hneed] at h
    have hdiv : s.e / dev.erasesize = i := by rw [he, Nat.mul_div_cancel _ hes0]
    have hmul : (i + 1) * dev.erasesize = i * dev.erasesize + dev.erasesize := Nat.succ_mul i _
    split at h
    · cases h
    · rename_i hbad
      have hrep := mtd_block_is_bad_ok hbad
      rw [hdiv] at hrep
      obtain ⟨start, hle, -, -, hfits, -⟩ := eraseLoop_erasable h (by simp only; omega)
      have hseek : s.fd.lseek dev (s.fd.pos + g.erasesize) =
          { s.fd with pos := s.fd.pos + g.erasesize } := by
        rw [Fd.lseek, if_pos]
        simp only at hle
        omega
      obtain ⟨j, hij, hj, hgap, herase, hs'⟩ := @ih (i + 1) _ h (by simp only; omega)
        (by simp only; omega) (by simp only [hseek]; omega)
      refine ⟨j, by omega, hj, fun k hk hkj => ?_, herase, ?_⟩
      · rcases Nat.eq_or_lt_of_le hk with rfl | hk
        · exact hrep.symm
        · exact hgap k hk hkj
      · rw [hs', hseek]
        have hsub : (j - i) * dev.erasesize = (j - (i + 1)) * dev.erasesize + dev.erasesize := by
          rw [← Nat.succ_mul]
          congr 1
          omega
        rw [hsub, hes, Nat.add_assoc, Nat.add_comm dev.erasesize]
    · rename_i hgood
      have hrep := mtd_block_is_bad_ok hgood
      rw [hdiv] at hrep
      have hstart : s.e + P * dev.erasesize = (P + i) * dev.erasesize := by
        rw [Nat.add_mul]
        omega
      split at h
      · cases h
      · rename_i fd herase
        rw [mtd_erase_block, hstart, hes] at herase
        obtain ⟨herasable, rfl⟩ := Fd.erase_eq_some herase
        -- nothing more is needed for this block
        cases fuel with
        | zero => cases h
        | succ fuel =>
          rw [eraseLoop, if_neg (by simp only; omega)] at h
          refine ⟨i, le_rfl, hrep.symm, by omega, herasable, ?_⟩
          cases h
          have hp : s.fd.pos = (P + i) * dev.erasesize := by omega
          rw [Nat.sub_self, Nat.zero_mul, hp, he, hes, hmul]
          rfl

/-! ## Writing -/

/-- The flash after a block has been erased and written. -/
def put (es : ℕ) (flash : ℕ → Byte) (b : ℕ) (chunk : List Byte) : ℕ → Byte :=
  writeAt (eraseAt flash (b * es) es) (b * es) chunk

/-- The flash after the blocks of `data` have been put into these blocks. -/
def putAll (es : ℕ) : (ℕ → Byte) → List ℕ → List Byte → ℕ → Byte
  | flash, [], _ => flash
  | flash, b :: bs, data => putAll es (put es flash b (data.take es)) bs (data.drop es)

/-- The requests that put something into a block. -/
def putOps (es b : ℕ) : List Op := [.erase (b * es) es, .write (b * es) es]

lemma Fd.write_eq_some {fd fd' : Fd} {data : List Byte} {n : ℕ}
    (h : fd.write W dev data = some (fd', n)) (hn : ¬ n < data.length) :
    fd' = ⟨writeAt fd.flash fd.pos data, fd.pos + data.length,
      fd.log ++ [.write fd.pos data.length]⟩ := by
  rw [Fd.write, Fd.pwrite] at h
  by_cases hok : fd.pos < dev.size ∧ W.writeFails fd.pos = false
  · rw [if_pos hok] at h
    obtain ⟨rfl, rfl⟩ := Prod.mk.inj (Option.some.inj h)
    have hall : data.take (dev.size - fd.pos) = data := by
      refine List.take_of_length_le ?_
      rw [List.length_take] at hn
      omega
    simp only [hall]
  · rw [if_neg hok] at h
    cases h

/-- The loop puts the blocks of the image into the first blocks that are not reported as bad. -/
lemma writeLoop_spec (hes : g.erasesize = dev.erasesize) {fuel i P : ℕ} {s s' : Wr}
    {buf : List Byte}
    (h : writeLoop W g dev (P * dev.erasesize) fuel s buf = .ok s')
    (hbuf : buf.length ≤ dev.erasesize) (he : s.e = i * dev.erasesize)
    (hw : s.e = s.w + s.skip_bad_blocks) (hpos : s.fd.pos = P * dev.erasesize + s.e) :
    ∃ js, First (fun j => reported g dev j = false) i js ∧
      js.length * dev.erasesize = (padded dev.erasesize (buf ++ s.inp.rest)).length ∧
      (∀ j ∈ js, Erasable W dev ((P + j) * dev.erasesize) dev.erasesize) ∧
      s'.fd.flash = putAll dev.erasesize s.fd.flash (js.map (P + ·))
        (padded dev.erasesize (buf ++ s.inp.rest)) ∧
      s'.fd.log = s.fd.log ++ (js.map (P + ·)).flatMap (putOps dev.erasesize) := by
  have hes0 := dev.erasesize_pos
  induction fuel generalizing s i buf with
  | zero => cases h
  | succ fuel ih =>
    obtain ⟨hbuf', hrest'⟩ := fillBuf_spec dev.erasesize s.inp buf hbuf (by omega)
    rw [writeLoop, hes] at h
    set r := fillBuf dev.erasesize dev.erasesize s.inp buf with hr
    set image := buf ++ s.inp.rest with himage
    by_cases hempty : r.2 = []
    · simp only [hempty, if_true] at h
      have himage' : image = [] := by
        rw [hempty] at hbuf'
        exact (List.take_eq_nil_iff.mp hbuf'.symm).resolve_left (by omega)
      cases h
      refine ⟨[], trivial, ?_, by simp, ?_, ?_⟩
      · rw [himage', padded_nil]
        simp
      · rfl
      · simp
    · have himage' : image ≠ [] := by
        intro hnil
        rw [hnil, List.take_nil] at hbuf'
        exact hempty hbuf'
      have hle : r.2.length ≤ dev.erasesize := by
        rw [hbuf']
        exact List.length_take_le _ _
      simp only [hempty, if_false] at h
      have hpad : r.2 ++ List.replicate (dev.erasesize - r.2.length) 0xff =
          padBlock dev.erasesize r.2 := rfl
      have hlen := length_padBlock hle
      simp only [hpad, hlen] at h
      split at h
      · cases h
      · rename_i s1 herase
        obtain ⟨j, hij, hj, hgap, herasable, hs1⟩ := eraseLoop_spec hes herase he hw hpos
        have hfits : (P + j) * dev.erasesize + dev.erasesize ≤ dev.size := herasable.2.2.1
        split at h
        · cases h
        · rename_i fd n hwrite
          split at h
          · cases h
          · rename_i hn
            have hfd := Fd.write_eq_some hwrite (by rw [hlen]; exact hn)
            have hmul : (j + 1) * dev.erasesize = j * dev.erasesize + dev.erasesize :=
              Nat.succ_mul j _
            have hPj : (P + j) * dev.erasesize = P * dev.erasesize + j * dev.erasesize :=
              Nat.add_mul P j _
            have hsub : (j - i) * dev.erasesize = j * dev.erasesize - i * dev.erasesize :=
              Nat.sub_mul j i _
            have hmono := Nat.mul_le_mul_right dev.erasesize hij
            subst hs1
            obtain ⟨js, hfirst, hcount, hall, hflash, hlog⟩ := @ih (j + 1) _ [] h (by simp) rfl
              (by simp only; omega) (by simp only [hfd, hlen]; omega)
            have himg : padded dev.erasesize image =
                padBlock dev.erasesize r.2 ++ padded dev.erasesize r.1.rest := by
              rw [padded_of_ne himage', ← hbuf', ← hrest']
            refine ⟨j :: js, ⟨hij, hj, fun k hk hkj => by simp [hgap k hk hkj], hfirst⟩, ?_, ?_, ?_,
              ?_⟩
            · rw [himg, List.length_append, hlen, ← List.nil_append r.1.rest, ← hcount,
                List.length_cons, Nat.succ_mul, Nat.add_comm]
            · intro k hk
              rcases List.mem_cons.mp hk with rfl | hk
              · exact herasable
              · exact hall k hk
            · rw [hflash, himg, List.map_cons, putAll, List.take_left' hlen, List.drop_left' hlen,
                hfd, put]
              rfl
            · rw [hlog, hfd, List.map_cons, List.flatMap_cons, putOps]
              simp only [List.append_assoc, List.cons_append, List.nil_append, hlen]

/-! ## Whole runs -/

lemma fillBuf_prefix (es fuel : ℕ) (inp : Input) (buf : List Byte) :
    buf <+: (fillBuf es fuel inp buf).2 := by
  induction fuel generalizing inp buf with
  | zero => exact List.prefix_rfl
  | succ fuel ih =>
    rw [fillBuf]
    split
    · simp only
      split
      · exact List.prefix_rfl
      · exact (List.prefix_append _ _).trans (ih _ _)
    · exact List.prefix_rfl

lemma fillBuf_ne_nil {es : ℕ} (hes : 0 < es) {inp : Input} {buf : List Byte}
    (h : buf ++ inp.rest ≠ []) : (fillBuf es es inp buf).2 ≠ [] := by
  intro hnil
  have hbuf : buf = [] := by
    have hpre := fillBuf_prefix es es inp buf
    rw [hnil] at hpre
    exact List.prefix_nil.mp hpre
  have hspec := (@fillBuf_spec es es inp buf (by simp [hbuf]) (by omega)).1
  rw [hnil] at hspec
  exact h ((List.take_eq_nil_iff.mp hspec.symm).resolve_left (by omega))

lemma writeLoop_erasable (hes : 0 < g.erasesize) {fuel : ℕ} {s s' : Wr} {buf : List Byte}
    (h : writeLoop W g dev po fuel s buf = .ok s') (hw : s.e = s.w + s.skip_bad_blocks)
    (hne : buf ++ s.inp.rest ≠ []) :
    ∃ start, po ≤ start ∧ Erasable W dev start g.erasesize := by
  cases fuel with
  | zero => cases h
  | succ fuel =>
    have hbuf := fillBuf_ne_nil hes hne
    rw [writeLoop] at h
    simp only [hbuf, if_false] at h
    split at h
    · cases h
    · rename_i s1 herase
      have hpos := List.length_pos_iff.mpr hbuf
      have hlen : (fillBuf g.erasesize g.erasesize s.inp buf).2.length ≤
          ((fillBuf g.erasesize g.erasesize s.inp buf).2 ++ List.replicate (g.erasesize -
            (fillBuf g.erasesize g.erasesize s.inp buf).2.length) 0xff).length := by
        rw [List.length_append]
        omega
      obtain ⟨start, hle, herasable⟩ := eraseLoop_erasable herase (by simp only; omega)
      exact ⟨start, by omega, herasable⟩

/-- The type that the program goes by while it writes. -/
def typeInUse (dev : Dev) : Option Flag → MtdType
  | none => dev.type
  | some flag => flag.dev.type

/-- What the program then takes for a bad block. -/
def seenBad (dev : Dev) (flag : Option Flag) (i : ℕ) : Bool :=
  typeInUse dev flag = .MTD_NANDFLASH && dev.isBad i

lemma mtd_tpl_recoverflag_write_ok {f f' : Flag} {active : Bool}
    (h : mtd_tpl_recoverflag_write g f active = .ok (some f')) :
    f'.dev = f.dev ∧ f.dev.erasesize ≤ g.erasesize := by
  have hes : (mtd_check_open f.dev).erasesize = f.dev.erasesize := rfl
  rw [mtd_tpl_recoverflag_write] at h
  simp only at h
  by_cases hfits : g.erasesize < max (mtd_check_open f.dev).erasesize 4
  · rw [if_pos hfits] at h
    cases h
  · rw [if_neg hfits] at h
    refine ⟨?_, by omega⟩
    set magic := if active = true then TPL_RECOVER_MAGIC else TPL_NO_RECOVER_MAGIC with hmagic
    by_cases hset : (bytesAt f.flash 0 (mtd_check_open f.dev).erasesize).take 4 = magic
    · rw [if_pos hset] at h
      cases h
      rfl
    · rw [if_neg hset] at h
      split at h
      · cases h
      · split at h
        · cases h
        · cases h
          rfl

lemma recoverflag_ok {flag flag' : Option Flag} {g' : Globals} {active : Bool}
    (h : recoverflag g active flag = .ok (g', flag')) (hg : 0 < g.erasesize) :
    0 < g'.erasesize ∧ g'.erasesize ≤ g.erasesize ∧
      g'.mtdtype = (flag.map fun f => f.dev.type).getD g.mtdtype := by
  cases flag with
  | none =>
    cases h
    exact ⟨hg, le_rfl, rfl⟩
  | some f =>
    simp only [recoverflag] at h
    split at h
    · cases h
    · cases h
    · rename_i f' hwrite
      cases h
      obtain ⟨hdev, hle⟩ := mtd_tpl_recoverflag_write_ok hwrite
      rw [mtd_check_open, hdev]
      exact ⟨f.dev.erasesize_pos, hle, rfl⟩

variable {flash : ℕ → Byte} {flag flag' : Option Flag} {P : ℕ} {buf : List Byte} {inp : Input}
  {fd : Fd}

/-- A run of `mtd_write` that returns has put the padded image into the first blocks behind its
offset that were not taken for bad ones. -/
lemma mtd_write_spec (h : mtd_write W dev flash flag (P * dev.erasesize) buf inp = .ok (fd, flag'))
    (hbuf : buf.length ≤ dev.erasesize) :
    ∃ js, First (fun j => seenBad dev flag j = false) 0 js ∧
      js.length * dev.erasesize = (padded dev.erasesize (buf ++ inp.rest)).length ∧
      (∀ j ∈ js, Erasable W dev ((P + j) * dev.erasesize) dev.erasesize) ∧
      fd.flash = putAll dev.erasesize flash (js.map (P + ·))
        (padded dev.erasesize (buf ++ inp.rest)) ∧
      fd.log = (js.map (P + ·)).flatMap (putOps dev.erasesize) := by
  have hes0 := dev.erasesize_pos
  rw [mtd_write] at h
  set fd0 : Fd := if P * dev.erasesize > 0 then (Fd.mk flash 0 []).lseek dev (P * dev.erasesize)
    else Fd.mk flash 0 [] with hfd0
  have hfd0flash : fd0.flash = flash ∧ fd0.log = [] := by
    rw [hfd0]
    split
    · rw [Fd.lseek]
      split <;> exact ⟨rfl, rfl⟩
    · exact ⟨rfl, rfl⟩
  split at h
  · cases h
  · rename_i g flag1 hflag
    obtain ⟨hg0, hgle, htype⟩ := recoverflag_ok hflag hes0
    split at h
    · cases h
    · rename_i s hloop
      have hfd : fd = s.fd := by
        split at h <;> cases h
        rfl
      have hseen : ∀ j, reported g dev j = seenBad dev flag j := by
        intro j
        rw [reported, seenBad, htype]
        cases flag <;> rfl
      by_cases hne : buf ++ inp.rest = []
      · obtain ⟨hb, hr⟩ := List.append_eq_nil_iff.mp hne
        have hfill := (@fillBuf_spec g.erasesize g.erasesize inp buf (by simp [hb]) (by omega)).1
        rw [hne, List.take_nil] at hfill
        rw [writeLoop] at hloop
        simp only [hfill, if_true] at hloop
        cases hloop
        refine ⟨[], trivial, by simp [hne], by simp, ?_, ?_⟩
        · rw [hfd]
          exact hfd0flash.1
        · rw [hfd]
          exact hfd0flash.2
      · obtain ⟨start, hle, -, hmod, hfits, -⟩ := writeLoop_erasable hg0 hloop rfl hne
        have hes : g.erasesize = dev.erasesize := by
          obtain ⟨c, hc⟩ := Nat.dvd_of_mod_eq_zero hmod
          have hc1 : c ≠ 0 := by
            rintro rfl
            omega
          have := Nat.le_mul_of_pos_right dev.erasesize (Nat.pos_of_ne_zero hc1)
          have hgle' : g.erasesize ≤ dev.erasesize := hgle
          omega
        have hpos : fd0.pos = P * dev.erasesize := by
          rw [hfd0]
          split
          · rw [Fd.lseek, if_pos (by omega)]
          · simp only
            omega
        obtain ⟨js, hfirst, hcount, hall, hflash, hlog⟩ := writeLoop_spec (i := 0) hes hloop hbuf
          (by simp) rfl hpos
        refine ⟨js, hfirst.congr fun j _ k _ _ => by rw [hseen], hcount, hall, ?_, ?_⟩
        · rw [hfd, hflash, hfd0flash.1]
        · rw [hfd, hlog, hfd0flash.2, List.nil_append]

end Mtd
