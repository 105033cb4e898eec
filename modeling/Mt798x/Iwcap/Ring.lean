import Mt798x.Lib.Halfwords
import Mt798x.Lib.Runs
import Mt798x.Lib.Slots

/-!
# The ring of `iwcap`

`iwcap` keeps the last frames it has captured in a ring of slots and writes them to a file when it is
told to.  The size of the ring and the limit of a frame are two options, each checked against the
value the other one has at that time; the number of slots is their quotient.  A slot has room for the
frame and a header, but only the room of the frames is cleared, and a slot is taken for an empty one
by the length in its header.

A dump holds the last frames if all slots have been filled, or if there are so few of them that all
their lengths have been cleared, and if the ring has a slot at all and its slots are inside 32 bits
(`dumps_last`).
-/

namespace Iwcap

open Bytes FlatImage Runs

/-! ## The source -/

/-- What stops the program. -/
inductive Fault
  | outside
  | division
  -- with this status
  | exit (status : ℕ)
deriving DecidableEq, Repr

/-- The processor: its byte order and the width of its `size_t`. -/
structure Machine where
  host : Endian
  wide : Bool

/-- The number of values of a `size_t`. -/
def Machine.size_t (m : Machine) : ℕ := if m.wide then 2 ^ 64 else 2 ^ 32

/-- `LEN_IEEE802_11_HDR` -/
def LEN_IEEE802_11_HDR : ℕ := 32

/-- The size of a `radiotap_hdr_t`. -/
def sizeof_radiotap_hdr : ℕ := 8

/-- The size of a `struct ringbuf_entry`. -/
def sizeof_ringbuf_entry : ℕ := 16

/-- An option of the command line, with the number `atoi` reads. -/
inductive Opt
  | r (arg : ℤ)
  | c (arg : ℤ)
  | B
  | D

/-- The variables the options set. -/
structure Options where
  ringsz : ℕ := 1024 * 1024
  pktcap : ℕ := 256
  filter_beacon : Bool := false
  filter_data : Bool := false
deriving DecidableEq, Repr

/-- One turn of the `getopt` loop. -/
def Options.parse (o : Options) : Opt → Except Fault Options
  | .r arg =>
    let ringsz := (arg % 2 ^ 32).toNat
    if ringsz < 3 * o.pktcap then .error (.exit 3) else .ok { o with ringsz := ringsz }
  | .c arg =>
    let pktcap := (arg % 2 ^ 16).toNat
    if pktcap ≤ sizeof_radiotap_hdr + LEN_IEEE802_11_HDR then .error (.exit 4)
    else .ok { o with pktcap := pktcap }
  | .B => .ok { o with filter_beacon := true }
  | .D => .ok { o with filter_data := true }

/-- The options of a command line. -/
def getopt (opts : List Opt) : Except Fault Options := opts.foldlM Options.parse {}

/-- A byte of allocated memory, and whether it has been written. -/
abbrev Cell := Byte × Bool

/-- `struct ringbuf`, with the memory `buf` of `size` bytes. -/
structure Ring where
  len : ℕ
  fill : ℕ
  slen : ℕ
  size : ℕ
  buf : ℕ → Cell

/-- Bytes that have been written. -/
def written (bs : List Byte) : List Cell := bs.map fun b => (b, true)

/-- A write to the ring. -/
def Ring.store (r : Ring) (o : ℕ) (bs : List Byte) : Except Fault Ring :=
  if o + bs.length ≤ r.size then .ok { r with buf := overwrite r.buf o (written bs) }
  else .error .outside

/-- A read of the ring, and whether all the bytes have been written. -/
def Ring.load (r : Ring) (o n : ℕ) : Except Fault (List Byte × Bool) :=
  if o + n ≤ r.size then
    .ok ((slice r.buf o n).map Prod.fst, (slice r.buf o n).all Prod.snd)
  else .error .outside

/-- `ringbuf_init`, in memory that holds `init`. -/
def ringbuf_init (m : Machine) (init : ℕ → Byte) (num_item len_item : ℕ) :
    Except Fault (Option Ring) :=
  if len_item = 0 then .ok none
  else do
    let r : Ring :=
      { len := num_item
        fill := 0
        slen := len_item + sizeof_ringbuf_entry
        size := num_item * (len_item + sizeof_ringbuf_entry) % m.size_t
        buf := fun a => (init a, false) }
    let r ← r.store 0 (List.replicate (num_item * len_item % 2 ^ 32) 0)
    .ok (some r)

/-- `ringbuf_add` at a time: the ring and the offset of the entry. -/
def ringbuf_add (m : Machine) (r : Ring) (sec usec : UInt32) : Except Fault (Ring × ℕ) := do
  let e := r.fill * r.slen % 2 ^ 32
  let fill := (r.fill + 1) % 2 ^ 32
  if r.len = 0 then .error .division
  else do
    let r ← { r with fill := fill % r.len }.store e (List.replicate r.slen 0)
    let r ← r.store (e + 8) (put32 m.host sec)
    let r ← r.store (e + 12) (put32 m.host usec)
    .ok (r, e)

/-- `ringbuf_get`: the offset of an entry that is not empty, and whether its length was written. -/
def ringbuf_get (m : Machine) (r : Ring) (i : ℕ) : Except Fault (Option ℕ × Bool) :=
  if r.len = 0 then .error .division
  else do
    let e := (r.fill + i) % 2 ^ 32 % r.len * r.slen % 2 ^ 32
    let len ← r.load e 4
    .ok (if 0 < get32 m.host len.1 then some e else none, len.2)

/-- A packet in `pktbuf`, or a receive error that leaves the buffer as it was. -/
structure Receipt where
  pktlen : ℤ
  pktbuf : List Byte
  room : pktbuf.length = 0xffff
  range : pktlen = -1 ∨ 1 ≤ pktlen ∧ pktlen ≤ 0xffff

/-- `le16(rhdr->it_len)` -/
def Receipt.it_len (p : Receipt) : ℕ := get16 .little (p.pktbuf.drop 2)

/-- `frametype & FRAMETYPE_MASK` -/
def Receipt.frametype (p : Receipt) : Byte := p.pktbuf.getD p.it_len 0 &&& 0xfc

/-- The frame is not filtered.  The first comparison is one of unsigned numbers. -/
def keeps (m : Machine) (o : Options) (p : Receipt) : Bool :=
  !(decide (p.pktlen % m.size_t ≤ sizeof_radiotap_hdr) || decide ((p.it_len : ℤ) ≥ p.pktlen)) &&
    !(o.filter_data && p.frametype == 0x08 || o.filter_beacon && p.frametype == 0x80)

/-- A record of the file that is written: the header of `write_pcap_frame` and the bytes. -/
structure Record where
  ts_sec : UInt32
  ts_usec : UInt32
  incl_len : ℕ
  orig_len : ℕ
  data : List Byte
deriving DecidableEq, Repr

/-- One turn of the dump: a record or none, and whether everything that was read was written. -/
def dumpSlot (m : Machine) (r : Ring) (i : ℕ) : Except Fault (Option Record × Bool) := do
  let got ← ringbuf_get m r i
  match got.1 with
  | none => .ok (none, got.2)
  | some e => do
    let sec ← r.load (e + 8) 4
    let usec ← r.load (e + 12) 4
    let len ← r.load e 4
    let olen ← r.load (e + 4) 4
    let data ← r.load (e + 16) (get32 m.host len.1).toNat
    .ok (some
      { ts_sec := get32 m.host sec.1
        ts_usec := get32 m.host usec.1
        incl_len := (get32 m.host len.1).toNat % 2 ^ 16
        orig_len := (get32 m.host olen.1).toNat % 2 ^ 16
        data := data.1 }, got.2 && sec.2 && usec.2 && len.2 && olen.2 && data.2)

/-- The dump of the ring. -/
def dump (m : Machine) (r : Ring) : Except Fault (List (Option Record × Bool)) :=
  (List.range r.len).mapM (dumpSlot m r)

/-- What the capture loop meets: a frame at a time, or a signal to dump. -/
inductive Event
  | frame (sec usec : UInt32) (p : Receipt)
  | dump

/-- The ring, the dumps so far, and whether they read only what was written. -/
structure Session where
  ring : Ring
  dumps : List (List Record)
  clean : Bool

/-- A frame is put into the ring. -/
def keep (m : Machine) (o : Options) (r : Ring) (sec usec : UInt32) (p : Receipt) :
    Except Fault Ring := do
  let added ← ringbuf_add m r sec usec
  let e := added.2
  let len := if p.pktlen.toNat > o.pktcap then o.pktcap else p.pktlen.toNat
  let r ← added.1.store (e + 4) (put32 m.host (UInt32.ofNat p.pktlen.toNat))
  let r ← r.store e (put32 m.host (UInt32.ofNat len))
  r.store (e + 16) (p.pktbuf.take len)

/-- One turn of the capture loop. -/
def turn (m : Machine) (o : Options) (s : Session) : Event → Except Fault Session
  | .frame sec usec p =>
    if keeps m o p then do
      let r ← keep m o s.ring sec usec p
      .ok { s with ring := r }
    else .ok s
  | .dump => do
    let slots ← Iwcap.dump m s.ring
    .ok { s with
      dumps := s.dumps ++ [slots.filterMap Prod.fst]
      clean := s.clean && slots.all Prod.snd }

/-- `main` with a command line and what comes after it. -/
def main (m : Machine) (init : ℕ → Byte) (opts : List Opt) (es : List Event) :
    Except Fault Session := do
  let o ← getopt opts
  let ring ← ringbuf_init m init (o.ringsz / o.pktcap) o.pktcap
  match ring with
  | none => .error (.exit 5)
  | some r => es.foldlM (turn m o) { ring := r, dumps := [], clean := true }

/-! ## What is asked for -/

/-- The number of slots. -/
def Options.slots (o : Options) : ℕ := o.ringsz / o.pktcap

/-- The size of a slot. -/
def Options.slen (o : Options) : ℕ := o.pktcap + sizeof_ringbuf_entry

/-- The record of a frame: its first bytes up to the limit, with this length and the one it had. -/
def record (o : Options) (sec usec : UInt32) (p : Receipt) : Record :=
  { ts_sec := sec
    ts_usec := usec
    incl_len := min p.pktlen.toNat o.pktcap
    orig_len := p.pktlen.toNat
    data := p.pktbuf.take (min p.pktlen.toNat o.pktcap) }

/-- The record an event adds. -/
def accepted (m : Machine) (o : Options) : Event → List Record
  | .frame sec usec p => if keeps m o p then [record o sec usec p] else []
  | .dump => []

/-- The dumps of a run after some frames: each holds the last frames, at most one for each slot. -/
def lasts (m : Machine) (o : Options) : List Record → List Event → List (List Record)
  | _, [] => []
  | kept, .dump :: es => kept.drop (kept.length - o.slots) :: lasts m o kept es
  | kept, .frame sec usec p :: es => lasts m o (kept ++ accepted m o (.frame sec usec p)) es

/-- With a command line that is accepted the run is not stopped, its dumps hold the last frames, and
nothing is read before it was written. -/
def DumpsLast (m : Machine) (init : ℕ → Byte) (opts : List Opt) (es : List Event) : Prop :=
  ∀ o, getopt opts = .ok o →
    ∃ s, main m init opts es = .ok s ∧ s.dumps = lasts m o [] es ∧ s.clean = true

/-! ## When it is so -/

/-- The number of frames kept. -/
def count (m : Machine) (o : Options) (k : ℕ) (e : Event) : ℕ := k + (accepted m o e).length

/-- After `k` frames: a frame that is kept has a slot whose offset is a word, and a dump comes when
all slots are filled or if all their lengths have been cleared. -/
def Fits (m : Machine) (o : Options) (k : ℕ) : Event → Prop
  | .frame _ _ p => keeps m o p = true → 0 < o.slots ∧ k % o.slots * o.slen < 2 ^ 32
  | .dump => o.slots ≤ k ∨ 16 * o.slots ≤ o.pktcap + 12

instance (m : Machine) (o : Options) (k : ℕ) : ∀ e, Decidable (Fits m o k e)
  | .frame _ _ p => inferInstanceAs
      (Decidable (keeps m o p = true → 0 < o.slots ∧ k % o.slots * o.slen < 2 ^ 32))
  | .dump => inferInstanceAs (Decidable (o.slots ≤ k ∨ 16 * o.slots ≤ o.pktcap + 12))

/-- The memory of the ring has all the slots, and all steps fit. -/
def RunFits (m : Machine) (opts : List Opt) (es : List Event) : Prop :=
  ∀ o, getopt opts = .ok o →
    (o.slots * o.slen < m.size_t) ∧ AllSteps (count m o) (Fits m o) 0 es

/-! ## Options -/

section Options

variable {o : Options}

/-- The limits of the options. -/
structure Options.Sane (o : Options) : Prop where
  ring : o.ringsz < 2 ^ 32
  above : 40 < o.pktcap
  below : o.pktcap < 2 ^ 16

lemma parse_sane {o' : Options} {opt : Opt} (h : o.Sane) (hopt : o.parse opt = .ok o') :
    o'.Sane := by
  obtain ⟨hring, habove, hbelow⟩ := h
  cases opt with
  | r arg =>
    simp only [Options.parse] at hopt
    split at hopt
    · cases hopt
    · cases hopt
      exact ⟨by simp only; omega, habove, hbelow⟩
  | c arg =>
    rw [Options.parse] at hopt
    by_cases hle : (arg % 2 ^ 16).toNat ≤ sizeof_radiotap_hdr + LEN_IEEE802_11_HDR
    · rw [if_pos hle] at hopt
      cases hopt
    · rw [if_neg hle] at hopt
      cases hopt
      rw [sizeof_radiotap_hdr, LEN_IEEE802_11_HDR] at hle
      exact ⟨hring, by simp only; omega, by simp only; omega⟩
  | B =>
    cases hopt
    exact ⟨hring, habove, hbelow⟩
  | D =>
    cases hopt
    exact ⟨hring, habove, hbelow⟩

lemma getopt_sane {opts : List Opt} (h : getopt opts = .ok o) : o.Sane := by
  have hfold : ∀ (opts : List Opt) (o o' : Options), o.Sane →
      opts.foldlM Options.parse o = .ok o' → o'.Sane := by
    intro opts
    induction opts with
    | nil =>
      rintro o o' ho ⟨⟩
      exact ho
    | cons opt opts ih =>
      intro o o' ho hfold
      rw [List.foldlM_cons] at hfold
      cases hopt : o.parse opt with
      | error e =>
        rw [hopt] at hfold
        cases hfold
      | ok o1 =>
        rw [hopt] at hfold
        exact ih o1 o' (parse_sane ho hopt) hfold
  exact hfold opts {} o ⟨by decide, by decide, by decide⟩ h

/-- The room of the frames is what the option says, and there are less than 2 ^ 27 slots. -/
lemma Options.Sane.slots_mul (h : o.Sane) : o.slots * o.pktcap < 2 ^ 32 ∧ o.slots < 2 ^ 27 := by
  have hmul : o.slots * o.pktcap ≤ o.ringsz := Nat.div_mul_le_self _ _
  have hring := h.ring
  have habove := h.above
  have hslots : o.slots * 41 ≤ o.slots * o.pktcap := Nat.mul_le_mul_left _ habove
  omega

end Options

/-! ## Slots -/

section Slots

variable {m : Machine} {o : Options} {r : Ring} {kept : List Record} {f : Record}

@[simp] lemma length_written (bs : List Byte) : (written bs).length = bs.length :=
  List.length_map _

lemma written_append (bs bs' : List Byte) : written (bs ++ bs') = written bs ++ written bs' :=
  List.map_append

lemma store_eq {a : ℕ} {bs : List Byte} (h : a + bs.length ≤ r.size) :
    r.store a bs = .ok { r with buf := overwrite r.buf a (written bs) } := if_pos h

lemma ok_bind {α β : Type} (x : α) (f : α → Except Fault β) : (.ok x >>= f) = f x := rfl

lemma store_bind {α : Type} {a : ℕ} {bs : List Byte} (h : a + bs.length ≤ r.size)
    (f : Ring → Except Fault α) :
    (r.store a bs >>= f) = f { r with buf := overwrite r.buf a (written bs) } := by
  rw [store_eq h, ok_bind]

lemma load_eq {a n : ℕ} {bs : List Byte} (h : a + n ≤ r.size)
    (hs : slice r.buf a n = written bs) : r.load a n = .ok (bs, true) := by
  rw [Ring.load, if_pos h, hs, written, List.map_map, List.all_map]
  simp [Function.comp_def]

/-- The bytes of a frame in its slot. -/
def entry (m : Machine) (f : Record) : List Byte :=
  put32 m.host (UInt32.ofNat f.incl_len) ++ put32 m.host (UInt32.ofNat f.orig_len) ++
    put32 m.host f.ts_sec ++ put32 m.host f.ts_usec ++ f.data

/-- A record that a slot can hold. -/
structure Record.Sane (o : Options) (f : Record) : Prop where
  some_data : 0 < f.incl_len
  limit : f.incl_len ≤ o.pktcap
  orig : f.orig_len < 2 ^ 16
  length : f.data.length = f.incl_len

/-- The ring after the frames `kept`. -/
structure Holds (m : Machine) (o : Options) (r : Ring) (kept : List Record) : Prop where
  len : r.len = o.slots
  slen : r.slen = o.slen
  size : r.size = o.slots * o.slen
  fill : r.fill = kept.length % o.slots
  -- the offsets of the slots that have been used are words
  word : ∀ i < kept.length, i < o.slots → i * o.slen < 2 ^ 32
  sane : ∀ f ∈ kept, f.Sane o
  slot : ∀ j f, kept[j]? = some f → kept.length ≤ j + o.slots →
    slice r.buf (j % o.slots * o.slen) (entry m f).length = written (entry m f)
  blank : ∀ i < o.slots, kept.length ≤ i → i * o.slen + 4 ≤ o.slots * o.pktcap →
    slice r.buf (i * o.slen) 4 = written [0, 0, 0, 0]

lemma length_entry (f : Record) : (entry m f).length = 16 + f.data.length := by
  simp only [entry, List.length_append, length_put32]

lemma entry_parts {mem : ℕ → Cell} {a : ℕ} :
    slice mem a (entry m f).length = written (entry m f) ↔
      slice mem a 4 = written (put32 m.host (UInt32.ofNat f.incl_len)) ∧
      slice mem (a + 4) 4 = written (put32 m.host (UInt32.ofNat f.orig_len)) ∧
      slice mem (a + 8) 4 = written (put32 m.host f.ts_sec) ∧
      slice mem (a + 12) 4 = written (put32 m.host f.ts_usec) ∧
      slice mem (a + 16) f.data.length = written f.data := by
  constructor
  · intro h
    rw [entry, written_append, written_append, written_append, written_append] at h
    have hdata := slice_append_right h
    have h4 := slice_append_left h
    have husec := slice_append_right h4
    have h3 := slice_append_left h4
    have hsec := slice_append_right h3
    have h2 := slice_append_left h3
    have hlen := slice_append_left h2
    have horig := slice_append_right h2
    simp only [List.length_append, length_written, length_put32] at hdata husec hsec hlen horig
    exact ⟨hlen, horig, hsec, husec, hdata⟩
  · rintro ⟨hlen, horig, hsec, husec, hdata⟩
    rw [length_entry, show 16 + f.data.length = 4 + 4 + 4 + 4 + f.data.length by omega, slice_add,
      slice_add, slice_add, slice_add, hlen, horig, hsec, husec, hdata, entry, written_append,
      written_append, written_append, written_append]

/-- The memory after the writes of a frame: the slot is cleared, and then the times, the lengths and
the data are put into it. -/
def stored (m : Machine) (mem : ℕ → Cell) (e slen : ℕ) (f : Record) : ℕ → Cell :=
  let cleared := overwrite mem e (written (List.replicate slen 0))
  let timed := overwrite (overwrite cleared (e + 8) (written (put32 m.host f.ts_sec))) (e + 12)
    (written (put32 m.host f.ts_usec))
  let sized := overwrite (overwrite timed (e + 4)
    (written (put32 m.host (UInt32.ofNat f.orig_len)))) e
    (written (put32 m.host (UInt32.ofNat f.incl_len)))
  overwrite sized (e + 16) (written f.data)

variable {mem : ℕ → Cell} {e slen a n : ℕ}

lemma slice_stored_self :
    slice (stored m mem e slen f) e (entry m f).length = written (entry m f) := by
  have hself : ∀ (mem : ℕ → Cell) (a : ℕ) (bs : List Byte) (n : ℕ), bs.length = n →
      slice (overwrite mem a (written bs)) a n = written bs := by
    rintro mem a bs n rfl
    have h := slice_overwrite_self mem a (written bs)
    rwa [length_written] at h
  have hapart : ∀ (mem : ℕ → Cell) (a b n : ℕ) (bs : List Byte),
      a + n ≤ b ∨ b + bs.length ≤ a →
      slice (overwrite mem b (written bs)) a n = slice mem a n := by
    intro mem a b n bs h
    exact slice_overwrite_of_apart (by rwa [length_written])
  have hword := fun w => length_put32 m.host w
  rw [entry_parts, stored]
  refine ⟨?_, ?_, ?_, ?_, ?_⟩
  · rw [hapart _ _ _ _ _ (by omega), hself _ _ _ _ (hword _)]
  · rw [hapart _ _ _ _ _ (by omega), hapart _ _ _ _ _ (by rw [hword]; omega),
      hself _ _ _ _ (hword _)]
  · rw [hapart _ _ _ _ _ (by omega), hapart _ _ _ _ _ (by rw [hword]; omega),
      hapart _ _ _ _ _ (by rw [hword]; omega), hapart _ _ _ _ _ (by omega),
      hself _ _ _ _ (hword _)]
  · rw [hapart _ _ _ _ _ (by omega), hapart _ _ _ _ _ (by rw [hword]; omega),
      hapart _ _ _ _ _ (by rw [hword]; omega), hself _ _ _ _ (hword _)]
  · rw [hself _ _ _ _ rfl]

lemma slice_stored_of_apart (hdata : 16 + f.data.length ≤ slen)
    (h : a + n ≤ e ∨ e + slen ≤ a) : slice (stored m mem e slen f) a n = slice mem a n := by
  have hapart : ∀ (mem : ℕ → Cell) (b : ℕ) (bs : List Byte), e ≤ b →
      b + bs.length ≤ e + slen → slice (overwrite mem b (written bs)) a n = slice mem a n := by
    intro mem b bs hle hend
    refine slice_overwrite_of_apart ?_
    rw [length_written]
    omega
  have hword := fun w => length_put32 m.host w
  rw [stored, hapart _ _ _ (by omega) (by omega), hapart _ _ _ le_rfl (by rw [hword]; omega),
    hapart _ _ _ (by omega) (by rw [hword]; omega), hapart _ _ _ (by omega) (by rw [hword]; omega),
    hapart _ _ _ (by omega) (by rw [hword]; omega),
    hapart _ _ _ le_rfl (by rw [List.length_replicate])]

lemma keep_eq (sec usec : UInt32) {p : Receipt} (hpos : 0 < r.len) (hfill : r.fill < 2 ^ 27)
    (hword : r.fill * r.slen < 2 ^ 32) (hsize : r.fill * r.slen + r.slen ≤ r.size)
    (hslen : r.slen = o.slen) (hdata : (record o sec usec p).data.length ≤ o.pktcap) :
    keep m o r sec usec p = .ok { r with
      fill := (r.fill + 1) % r.len
      buf := stored m r.buf (r.fill * r.slen) r.slen (record o sec usec p) } := by
  have hlen : (if p.pktlen.toNat > o.pktcap then o.pktcap else p.pktlen.toNat) =
      min p.pktlen.toNat o.pktcap := by
    split <;> omega
  have hslen' : r.slen = o.pktcap + 16 := hslen
  have hdata' : (p.pktbuf.take (min p.pktlen.toNat o.pktcap)).length ≤ o.pktcap := hdata
  have hwords := fun w => length_put32 m.host w
  rw [keep, ringbuf_add, if_neg hpos.ne', Nat.mod_eq_of_lt hword,
    Nat.mod_eq_of_lt (by omega : r.fill + 1 < 2 ^ 32), hlen,
    store_bind (by simp only [List.length_replicate]; exact hsize),
    store_bind (by simp only [hwords]; omega), store_bind (by simp only [hwords]; omega), ok_bind,
    store_bind (by simp only [hwords]; omega), store_bind (by simp only [hwords]; omega),
    store_eq (by simp only; omega)]
  rfl

end Slots

end Iwcap
