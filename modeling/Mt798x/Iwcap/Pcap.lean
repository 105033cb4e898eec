import Mt798x.Iwcap.Dumps

/-!
# The files of `iwcap`

A file is a header and records, in the byte order of the processor.  A reader tells the order from
the magic number, and finds the frames: the last ones in a dump, all that are kept in a stream.
-/

namespace Iwcap

open Bytes Runs

/-! ## Writing -/

/-- `write_pcap_header` -/
def write_pcap_header (m : Machine) : List Byte :=
  put32 m.host 0xa1b2c3d4 ++ (match m.host with | .little => [2, 0, 4, 0] | .big => [0, 2, 0, 4]) ++
    put32 m.host 0 ++ put32 m.host 0 ++ put32 m.host 0xFFFF ++ put32 m.host 127

/-- `write_pcap_frame`, and the bytes that are written behind it -/
def write_pcap_frame (m : Machine) (f : Record) : List Byte :=
  put32 m.host f.ts_sec ++ (put32 m.host f.ts_usec ++ (put32 m.host (UInt32.ofNat f.incl_len) ++
    (put32 m.host (UInt32.ofNat f.orig_len) ++ f.data)))

/-- The file of a dump. -/
def pcapFile (m : Machine) (fs : List Record) : List Byte :=
  write_pcap_header m ++ fs.flatMap (write_pcap_frame m)

/-- A frame, with the time at which it came, as the stream has it. -/
def streamed (p : UInt32 × UInt32 × Receipt) : Record where
  ts_sec := p.1
  ts_usec := p.2.1
  incl_len := p.2.2.pktlen.toNat % 2 ^ 16
  orig_len := p.2.2.pktlen.toNat % 2 ^ 16
  data := p.2.2.pktbuf.take p.2.2.pktlen.toNat

/-- The capture loop with `-s`: what goes to the standard output. -/
def stream (m : Machine) (o : Options) (header_written : Bool) :
    List (UInt32 × UInt32 × Receipt) → List Byte
  | [] => []
  | p :: ps =>
    if keeps m o p.2.2 then
      (if header_written then [] else write_pcap_header m) ++
        (write_pcap_frame m (streamed p) ++ stream m o true ps)
    else stream m o header_written ps

/-! ## Reading -/

/-- The records up to the end of a file, with the number of turns that are left. -/
def readRecords (e : Endian) : ℕ → List Byte → Option (List Record)
  | 0, bs => if bs = [] then some [] else none
  | left + 1, bs =>
    let incl_len := (get32 e (bs.drop 8)).toNat
    if bs = [] then some []
    else if bs.length < 16 + incl_len then none
    else (readRecords e left (bs.drop (16 + incl_len))).map
      ({ ts_sec := get32 e bs
         ts_usec := get32 e (bs.drop 4)
         incl_len
         orig_len := (get32 e (bs.drop 12)).toNat
         data := (bs.drop 16).take incl_len } :: ·)

/-- A capture file of version 2.4 with radiotap frames. -/
def readPcap (bs : List Byte) : Option (List Record) :=
  ([Endian.little, .big].find? fun e => bs.take 4 = put32 e 0xa1b2c3d4).bind fun e =>
    if get16 e (bs.drop 4) = 2 ∧ get16 e (bs.drop 6) = 4 ∧ get32 e (bs.drop 20) = 127 then
      readRecords e bs.length (bs.drop 24)
    else none

/-- A record whose lengths are those of a frame. -/
structure Record.Whole (f : Record) : Prop where
  data : f.data.length = f.incl_len
  incl : f.incl_len < 2 ^ 16
  orig : f.orig_len < 2 ^ 16

variable {m : Machine} {o : Options}

lemma drop_put32 (e : Endian) (w : UInt32) (t : List Byte) (n : ℕ) :
    (put32 e w ++ t).drop (4 + n) = t.drop n := by
  rw [← List.drop_drop, List.drop_left' (length_put32 e w)]

lemma readRecords_written {fs : List Record} (h : ∀ f ∈ fs, f.Whole) {left : ℕ}
    (hleft : (fs.flatMap (write_pcap_frame m)).length ≤ left) :
    readRecords m.host left (fs.flatMap (write_pcap_frame m)) = some fs := by
  induction fs generalizing left with
  | nil => cases left <;> rfl
  | cons f fs ih =>
    obtain ⟨hdata, hincl, horig⟩ := h f List.mem_cons_self
    have hword : ∀ n < 2 ^ 16, (UInt32.ofNat n).toNat = n := fun n hn =>
      UInt32.toNat_ofNat_of_lt' (lt_trans hn (by decide))
    rw [List.flatMap_cons] at hleft ⊢
    have hrest := @ih fun g hg => h g (List.mem_cons_of_mem f hg)
    generalize fs.flatMap (write_pcap_frame m) = rest at hleft hrest ⊢
    simp only [write_pcap_frame, List.append_assoc, List.length_append, length_put32] at hleft ⊢
    obtain ⟨left, rfl⟩ : ∃ k, left = k + 1 := ⟨left - 1, by omega⟩
    generalize hbs : put32 m.host f.ts_sec ++ _ = bs
    have hlen : bs.length = 16 + f.data.length + rest.length := by
      rw [← hbs]
      simp only [List.length_append, length_put32]
      omega
    have hd4 : bs.drop 4 = _ := hbs ▸ drop_put32 _ _ _ 0
    have hd8 : bs.drop 8 = _ := hbs ▸ (drop_put32 _ _ _ 4).trans (drop_put32 _ _ _ 0)
    have hd12 : bs.drop 12 = _ := hbs ▸ (drop_put32 _ _ _ 8).trans
      ((drop_put32 _ _ _ 4).trans (drop_put32 _ _ _ 0))
    have hd16 : bs.drop 16 = f.data ++ rest := hbs ▸ (drop_put32 _ _ _ 12).trans
      ((drop_put32 _ _ _ 8).trans ((drop_put32 _ _ _ 4).trans (drop_put32 _ _ _ 0)))
    rw [List.drop_zero] at hd4 hd8 hd12
    have hne : bs ≠ [] := List.ne_nil_of_length_pos (by omega)
    have h0 : get32 m.host bs = f.ts_sec := by rw [← hbs, get32_put32_append]
    rw [readRecords]
    simp only [hd8, hd12, hd4, h0, get32_put32_append, hword _ hincl, hword _ horig]
    rw [if_neg hne, if_neg (by omega), ← List.drop_drop, hd16, ← hdata, List.drop_left,
      List.take_left, hrest (show rest.length ≤ left by omega), Option.map_some, hdata]

lemma readPcap_pcapFile {fs : List Record} (h : ∀ f ∈ fs, f.Whole) :
    readPcap (pcapFile m fs) = some fs := by
  have hheader : ∀ t : List Byte, readPcap (write_pcap_header m ++ t) =
      readRecords m.host (write_pcap_header m ++ t).length t := by
    intro t
    rw [write_pcap_header]
    cases m.host <;> rfl
  rw [pcapFile, hheader]
  exact readRecords_written h (by simp)

/-! ## Dumps -/

lemma Record.Sane.whole {f : Record} (ho : o.Sane) (h : f.Sane o) : f.Whole :=
  ⟨h.length, lt_of_le_of_lt h.limit ho.below, h.orig⟩

lemma lasts_whole (ho : o.Sane) {kept : List Record} (es : List Event)
    (h : ∀ f ∈ kept, f.Whole) : ∀ fs ∈ lasts m o kept es, ∀ f ∈ fs, f.Whole := by
  induction es generalizing kept with
  | nil => simp [lasts]
  | cons e es ih =>
    cases e with
    | dump =>
      rw [lasts, List.forall_mem_cons]
      exact ⟨fun f hf => h f (List.mem_of_mem_drop hf), ih h⟩
    | frame sec usec p =>
      refine ih fun f hf => (List.mem_append.mp hf).elim (h f) fun hf => ?_
      rw [accepted] at hf
      split_ifs at hf with hkeeps
      · obtain rfl := List.mem_singleton.mp hf
        exact (record_sane ho hkeeps).whole ho
      · cases hf

variable {ps : List (UInt32 × UInt32 × Receipt)}

variable (m o ps) in
/-- The frames of a stream that are kept. -/
def streamedFrames : List Record := (ps.filter (keeps m o ·.2.2)).map streamed

lemma streamedFrames_whole : ∀ f ∈ streamedFrames m o ps, f.Whole := by
  intro f hf
  obtain ⟨p, hp, rfl⟩ := List.mem_map.mp hf
  have hrange := keeps_range (List.mem_filter.mp hp).2
  refine ⟨?_, Nat.mod_lt _ (by decide), Nat.mod_lt _ (by decide)⟩
  rw [streamed, List.length_take, p.2.2.room]
  dsimp only
  omega

lemma stream_of_written :
    stream m o true ps = (streamedFrames m o ps).flatMap (write_pcap_frame m) := by
  induction ps with
  | nil => rfl
  | cons p ps ih => by_cases hkeeps : keeps m o p.2.2 = true <;> simp_all [stream, streamedFrames]

/-- The stream has one header, before the first frame that is kept, and is read as these frames. -/
theorem stream_read (m : Machine) (o : Options) (ps : List (UInt32 × UInt32 × Receipt)) :
    if streamedFrames m o ps = [] then stream m o false ps = []
    else readPcap (stream m o false ps) = some (streamedFrames m o ps) := by
  induction ps with
  | nil => rfl
  | cons p ps ih =>
    by_cases hkeeps : keeps m o p.2.2 = true
    · have hkept : streamedFrames m o (p :: ps) = streamed p :: streamedFrames m o ps := by
        rw [streamedFrames, List.filter_cons, if_pos hkeeps, List.map_cons, streamedFrames]
      have hfile : stream m o false (p :: ps) = pcapFile m (streamedFrames m o (p :: ps)) := by
        rw [stream, if_pos hkeeps, if_neg Bool.false_ne_true, stream_of_written, hkept, pcapFile,
          List.flatMap_cons]
      rw [hfile, if_neg (by simp [hkept])]
      exact readPcap_pcapFile streamedFrames_whole
    · rw [stream, streamedFrames, List.filter_cons, if_neg hkeeps, if_neg hkeeps]
      exact ih

end Iwcap
