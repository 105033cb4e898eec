import Mt798x.Lib.Bytes

/-!
# Extracting calibration data

`fritz_cal_extract` looks for an entry in the table of an EVA loader, decompresses what stands
behind it and writes a slice of the data, which `-r` reverses first.  The decompression itself is
zlib's: `Delivers` says what its documentation promises of `inflate`.

The search does not stop at the end marker of the table, the reversal leaves the two bytes in the
middle of data of even length as they are, and a limit of 0 is taken for none.  `Sound` is the
condition under which none of this shows.
-/

namespace Fritz

open Bytes

/-! ## The table -/

def be16 (high low : Byte) : ℕ := 256 * high.toNat + low.toNat

/-- The loop over the entries: what stands behind the one that is selected.  `skip` bytes are
seeked over first. -/
def findEntry (entry : UInt16) : ℕ → List Byte → Option (List Byte)
  | 0, id :: id' :: len :: len' :: rest =>
    if be16 id id' = entry.toNat ∧ be16 id id' ≠ 0xffff then some rest
    else findEntry entry (be16 len len') rest
  | 0, _ => none
  | skip + 1, _ :: rest => findEntry entry skip rest
  | _ + 1, [] => none

/-- The entries from a place on: their numbers and what stands behind them. -/
def entries : ℕ → List Byte → List (ℕ × List Byte)
  | 0, id :: id' :: len :: len' :: rest => (be16 id id', rest) :: entries (be16 len len') rest
  | 0, _ => []
  | skip + 1, _ :: rest => entries skip rest
  | _ + 1, [] => []

/-- The entries in front of the end marker. -/
def tableEntries (file : List Byte) : List (ℕ × List Byte) :=
  (entries 0 file).takeWhile fun e => e.1 ≠ 0xffff

/-- The first entry with a number in the table. -/
def tableEntry (entry : UInt16) (file : List Byte) : Option (List Byte) :=
  ((tableEntries file).find? fun e => e.1 = entry.toNat).map Prod.snd

/-! ## Decompression -/

/-- What zlib returns. -/
inductive Ret where
  | Z_OK
  | Z_STREAM_END
  | Z_NEED_DICT
  | Z_ERRNO
  | Z_STREAM_ERROR
  | Z_DATA_ERROR
  | Z_MEM_ERROR
  | Z_BUF_ERROR
  | Z_VERSION_ERROR
  deriving DecidableEq, Repr

/-- The two functions of zlib.  `inflate` gets a chunk of the input and the room that is left; it
returns the bytes that it writes. -/
structure Zlib (σ : Type) where
  inflateInit : Ret × σ
  inflate : σ → List Byte → ℕ → Ret × σ × List Byte

/-- The end of `inflate_to_buffer`. -/
def inflateEnd (ret : Ret) (avail_out : ℕ) (buf : List Byte) : Ret × List Byte :=
  (if ret = .Z_STREAM_END then .Z_STREAM_END else if avail_out = 0 then .Z_OK else .Z_DATA_ERROR,
    buf)

/-- The codes that end `inflate_to_buffer` at once. -/
def Ret.failed : Ret → Option Ret
  | .Z_NEED_DICT => some .Z_DATA_ERROR
  | .Z_DATA_ERROR => some .Z_DATA_ERROR
  | .Z_MEM_ERROR => some .Z_MEM_ERROR
  | .Z_STREAM_ERROR => some .Z_STREAM_ERROR
  | _ => none

variable {σ : Type}

/-- The loop of `inflate_to_buffer` over the chunks of a file. -/
def inflateLoop (z : Zlib σ) (s : σ) (ret : Ret) (avail_out : ℕ) (buf file : List Byte) :
    Ret × List Byte :=
  if _hfile : file = [] then inflateEnd ret avail_out buf
  else
    let r := z.inflate s (file.take 1024) avail_out
    match r.1.failed with
    | some ret => (ret, [])
    | none =>
      if r.1 ≠ .Z_STREAM_END ∧ 0 < avail_out - r.2.2.length then
        inflateLoop z r.2.1 r.1 (avail_out - r.2.2.length) (buf ++ r.2.2) (file.drop 1024)
      else inflateEnd r.1 (avail_out - r.2.2.length) (buf ++ r.2.2)
termination_by file.length
decreasing_by
  have := List.length_pos_iff.mpr _hfile
  rw [List.length_drop]
  omega

/-- `inflate_to_buffer`: the code and the bytes in the buffer.  `avail_out` has 32 bits. -/
def inflate_to_buffer (z : Zlib σ) (source : List Byte) (limit : ℕ) : Ret × List Byte :=
  if z.inflateInit.1 = .Z_OK then
    inflateLoop z z.inflateInit.2 .Z_OK (limit % 2 ^ 32) [] source
  else (z.inflateInit.1, [])

/-! ## The slice -/

/-- The arguments; `get_num` returns an `unsigned int`. -/
structure Args where
  entry : UInt16
  skip : UInt32
  limit : Option UInt32
  reversed : Bool

namespace Args

variable (args : Args)

/-- A limit of 0 counts as none. -/
def limitWasSet : Prop := args.limit.getD 0 ≠ 0

instance : Decidable args.limitWasSet := inferInstanceAs (Decidable (_ ≠ _))

/-- The limit in front of the decompression, a `size_t`. -/
def bound : ℕ :=
  if args.limitWasSet then (args.limit.getD 0).toNat
  else (132096 + 2 ^ 64 - args.skip.toNat) % 2 ^ 64

/-- The size of the buffer. -/
def datasize : ℕ :=
  let sum := (args.bound + args.skip.toNat) % 2 ^ 64
  if args.reversed ∧ sum ≤ 132096 then 132096 else sum

end Args

/-- The loop of `buffer_reverse` in a buffer of a size; `none` when it leaves the buffer. -/
def reverseLoop (size : ℕ) : ℕ → ℕ → ℕ → (ℕ → Byte) → Option (ℕ → Byte)
  | 0, _, _, data => some data
  | k + 1, bottom, top, data =>
    if bottom < size ∧ top < size then
      reverseLoop size k (bottom + 1) (top - 1)
        (Function.update (Function.update data bottom (data top)) top (data bottom))
    else none

def buffer_reverse (size : ℕ) (data : ℕ → Byte) (top : ℕ) : Option (ℕ → Byte) :=
  reverseLoop size (top / 2) 0 top data

/-- How a run ends: with an access outside of the buffer, with `EXIT_FAILURE`, or with the bytes
that have been written. -/
inductive Outcome where
  | fault
  | failure
  | success (written : List Byte)
  deriving DecidableEq

/-- The output of a slice of the first `datasize` bytes of the buffer. -/
def output (args : Args) (datasize : ℕ) (buf : ℕ → Byte) : Outcome :=
  if datasize ≤ args.skip.toNat then .failure
  else
    let limit := min args.bound (datasize - args.skip.toNat)
    if args.datasize < args.skip.toNat + limit then .fault
    else .success ((List.range limit).map fun i => buf (args.skip.toNat + i))

/-- From the data in the buffer to the output; bytes behind the data are not initialised. -/
def store (args : Args) (data : List Byte) : Outcome :=
  if args.reversed then
    match buffer_reverse args.datasize (fun i => data.getD i 0)
        ((data.length + 2 ^ 64 - 1) % 2 ^ 64 % 2 ^ 32) with
    | none => .fault
    | some buf => output args data.length buf
  else output args data.length fun i => data.getD i 0

/-- What is done behind the entry that has been found. -/
def extract (z : Zlib σ) (args : Args) (source : List Byte) : Outcome :=
  let r := inflate_to_buffer z source args.datasize
  if (args.reversed ∨ ¬args.limitWasSet) ∧ r.1 ≠ .Z_STREAM_END then .failure
  else if r.1 ≠ .Z_STREAM_END ∧ r.1 ≠ .Z_OK then .failure
  else store args r.2

/-- `main`, from the place of the table in the file. -/
def main (z : Zlib σ) (args : Args) (file : List Byte) : Outcome :=
  match findEntry args.entry 0 file with
  | none => .failure
  | some source => extract z args source

/-! ## What is asked of it -/

/-- The data that an input decompresses to, growing with the input until the end of the stream. -/
structure Stream where
  out : List Byte → List Byte
  ended : List Byte → Prop
  out_nil : out [] = []
  out_mono : ∀ a b, out a <+: out (a ++ b)
  ended_out : ∀ a b, ended a → out (a ++ b) = out a

/-- The promises of zlib: `Fed s a` says that the input `a` has been read and that all its data has
been written. -/
structure Delivers (z : Zlib σ) (S : Stream) (Fed : σ → List Byte → Prop) : Prop where
  init : z.inflateInit.1 = .Z_OK → Fed z.inflateInit.2 []
  init_code : z.inflateInit.1 ≠ .Z_STREAM_END
  room : ∀ {s a} chunk n, Fed s a → (z.inflate s chunk n).2.2.length ≤ n
  ends : ∀ {s a} chunk n, Fed s a → (z.inflate s chunk n).1 = .Z_STREAM_END →
    S.ended (a ++ chunk) ∧ S.out a ++ (z.inflate s chunk n).2.2 = S.out (a ++ chunk)
  full : ∀ {s a} chunk n, Fed s a → (z.inflate s chunk n).1.failed = none →
    S.out a ++ (z.inflate s chunk n).2.2 <+: S.out (a ++ chunk)
  more : ∀ {s a} chunk n, Fed s a → (z.inflate s chunk n).1.failed = none →
    (z.inflate s chunk n).1 ≠ .Z_STREAM_END → (z.inflate s chunk n).2.2.length < n →
      Fed (z.inflate s chunk n).2.1 (a ++ chunk) ∧
        S.out a ++ (z.inflate s chunk n).2.2 = S.out (a ++ chunk)

/-- The slice of the data that is asked for. -/
def slice (args : Args) (data : List Byte) : List Byte :=
  let bytes := (if args.reversed then data.reverse else data).drop args.skip.toNat
  match args.limit with
  | none => bytes
  | some limit => bytes.take limit.toNat

/-- The entry that is selected is the one of the table, no access leaves the buffer, and what is
written is the slice of the data. -/
structure Extracts (z : Zlib σ) (S : Stream) (args : Args) (file : List Byte) : Prop where
  selected : findEntry args.entry 0 file = tableEntry args.entry file
  safe : main z args file ≠ .fault
  written : ∀ out, main z args file = .success out →
    ∃ source, tableEntry args.entry file = some source ∧ out = slice args (S.out source)

/-- The two bytes in the middle of the data are equal or not in the slice, or there is only one. -/
def MiddleFree (args : Args) (data : List Byte) : Prop :=
  data.length % 2 = 1 ∨ data[data.length / 2 - 1]? = data[data.length / 2]? ∨
    data.length / 2 < args.skip.toNat ∨ args.skip.toNat + args.bound < data.length / 2

/-- The entry stands in front of the end marker, or nowhere behind it either.  And if the stream
ends within the buffer: data that is reversed is not empty (or the buffer has 4 GiB), and where
data remains behind the skipped bytes, the limit is not given as 0, and the middle of reversed data
does not matter. -/
structure Sound (z : Zlib σ) (S : Stream) (args : Args) (file : List Byte) : Prop where
  entry : (∃ e ∈ tableEntries file, e.1 = args.entry.toNat) ∨
    ∀ e ∈ entries 0 file, e.1 ≠ args.entry.toNat
  empty : ∀ source, tableEntry args.entry file = some source →
    (inflate_to_buffer z source args.datasize).1 = .Z_STREAM_END → args.reversed →
      S.out source = [] → 2 ^ 32 ≤ args.datasize
  slice : ∀ source, tableEntry args.entry file = some source →
    (inflate_to_buffer z source args.datasize).1 = .Z_STREAM_END →
      args.skip.toNat < (S.out source).length →
        args.limit ≠ some 0 ∧ (args.reversed → MiddleFree args (S.out source))

/-! ## The search -/

section Search

variable {entry : UInt16} {file : List Byte}

lemma findEntry_eq (entry : UInt16) (skip : ℕ) (file : List Byte) : findEntry entry skip file =
    ((entries skip file).find? fun e => e.1 = entry.toNat ∧ e.1 ≠ 0xffff).map Prod.snd := by
  induction skip, file using entries.induct with
  | case1 id id' len len' rest ih =>
    rw [findEntry, entries, List.find?_cons]
    by_cases h : be16 id id' = entry.toNat ∧ be16 id id' ≠ 0xffff
    · rw [if_pos h, decide_eq_true h]
      rfl
    · rw [if_neg h, ih, decide_eq_false h]
  | case2 l h =>
    rw [findEntry, entries]
    · rfl
    · exact h
    · exact h
  | case3 skip b rest ih => rw [findEntry, entries, ih]
  | case4 skip => rfl

/-- The search selects the entry of the table if that has one, and otherwise it has to find none
behind the end marker. -/
lemma selected_iff (hentry : entry ≠ 0xffff) :
    findEntry entry 0 file = tableEntry entry file ↔
      (∃ e ∈ tableEntries file, e.1 = entry.toNat) ∨ ∀ e ∈ entries 0 file, e.1 ≠ entry.toNat := by
  have hne : entry.toNat ≠ 0xffff := fun h => hentry (UInt16.toNat_inj.mp h)
  have hpred : (fun e : ℕ × List Byte => decide (e.1 = entry.toNat ∧ e.1 ≠ 0xffff)) =
      fun e => decide (e.1 = entry.toNat) := by
    funext e
    exact decide_eq_decide.mpr (and_iff_left_of_imp fun h => h ▸ hne)
  have hsplit := List.takeWhile_append_dropWhile (p := fun e => decide (e.1 ≠ 0xffff))
    (l := entries 0 file)
  rw [findEntry_eq, hpred, tableEntry]
  by_cases hin : ∃ e ∈ tableEntries file, e.1 = entry.toNat
  · have hsome : ((tableEntries file).find? fun e => e.1 = entry.toNat).isSome := by
      rw [List.find?_isSome]
      simpa using hin
    refine iff_of_true ?_ (.inl hin)
    obtain ⟨e, he⟩ := Option.isSome_iff_exists.mp hsome
    rw [← hsplit, List.find?_append, ← tableEntries, he]
    rfl
  · have hnone : (tableEntries file).find? (fun e => e.1 = entry.toNat) = none :=
      List.find?_eq_none.mpr fun e he h => hin ⟨e, he, by simpa using h⟩
    rw [or_iff_right hin, hnone, Option.map_none, Option.map_eq_none_iff, List.find?_eq_none]
    simp

end Search

/-! ## Decompression -/

section Inflate

variable {z : Zlib σ} {S : Stream} {Fed : σ → List Byte → Prop}

/-- Up to the end of the stream the data is complete, and up to a full buffer it is a part. -/
lemma inflateLoop_spec (hz : Delivers z S Fed) {s : σ} {a buf : List Byte} {ret : Ret}
    (file : List Byte) (avail : ℕ) (hfed : Fed s a) (hbuf : buf = S.out a) (hret : ret ≠ .Z_STREAM_END) :
    ((inflateLoop z s ret avail buf file).1 = .Z_STREAM_END →
      (inflateLoop z s ret avail buf file).2 = S.out (a ++ file) ∧
        (S.out (a ++ file)).length ≤ buf.length + avail) ∧
    ((inflateLoop z s ret avail buf file).1 = .Z_OK →
      (inflateLoop z s ret avail buf file).2 <+: S.out (a ++ file) ∧
        (inflateLoop z s ret avail buf file).2.length = buf.length + avail) := by
  induction hn : file.length using Nat.strong_induction_on generalizing s a file buf ret avail with
  | _ n ih =>
    rw [inflateLoop]
    split
    · rename_i hfile
      subst hfile
      rw [List.append_nil, inflateEnd, if_neg hret]
      refine ⟨fun h => ?_, fun h => ?_⟩
      · split at h <;> cases h
      · split at h
        · rename_i havail
          exact ⟨hbuf ▸ List.prefix_refl _, by rw [havail]; rfl⟩
        · cases h
    · rename_i hfile
      have happ : a ++ file = a ++ file.take 1024 ++ file.drop 1024 := by
        rw [List.append_assoc, List.take_append_drop]
      have hroom := hz.room (file.take 1024) avail hfed
      have hends := hz.ends (file.take 1024) avail hfed
      have hfull := hz.full (file.take 1024) avail hfed
      have hmore := hz.more (file.take 1024) avail hfed
      generalize z.inflate s (file.take 1024) avail = r at hroom hends hfull hmore ⊢
      dsimp only
      split
      · rename_i ret' hfailed
        have hcode : ret' ≠ .Z_STREAM_END ∧ ret' ≠ .Z_OK := by
          revert hfailed
          cases r.1 <;> simp [Ret.failed] <;> rintro rfl <;> decide
        exact ⟨fun h => absurd h hcode.1, fun h => absurd h hcode.2⟩
      · rename_i hgoes
        split
        · rename_i hnext
          obtain ⟨hfed', hout⟩ := hmore hgoes hnext.1 (by omega)
          have hdrop : (file.drop 1024).length < n := by
            have := List.length_pos_iff.mpr hfile
            rw [List.length_drop]
            omega
          rw [hbuf, hout, happ]
          obtain ⟨h1, h2⟩ := ih _ hdrop _ (avail - r.2.2.length) hfed' rfl hnext.1 rfl
          have hlen := congrArg List.length hout
          rw [List.length_append] at hlen
          refine ⟨fun h => ⟨(h1 h).1, ?_⟩, fun h => ⟨(h2 h).1, ?_⟩⟩
          · have := (h1 h).2
            omega
          · have := (h2 h).2
            omega
        · rename_i hlast
          rw [inflateEnd, hbuf]
          refine ⟨fun h => ?_, fun h => ?_⟩
          · have hend : r.1 = .Z_STREAM_END := by
              by_contra hne
              rw [if_neg hne] at h
              split at h <;> cases h
            obtain ⟨hended, hout⟩ := hends hend
            rw [happ, S.ended_out _ _ hended, ← hout, List.length_append]
            exact ⟨rfl, by omega⟩
          · have hne : r.1 ≠ .Z_STREAM_END := fun hend => by
              rw [if_pos hend] at h
              cases h
            rw [if_neg hne] at h
            split at h
            · rename_i havail
              refine ⟨(hfull hgoes).trans (happ ▸ S.out_mono _ _), ?_⟩
              rw [List.length_append]
              omega
            · cases h

lemma inflate_to_buffer_spec (hz : Delivers z S Fed) (source : List Byte) (limit : ℕ) :
    ((inflate_to_buffer z source limit).1 = .Z_STREAM_END →
      (inflate_to_buffer z source limit).2 = S.out source ∧
        (S.out source).length ≤ limit % 2 ^ 32) ∧
    ((inflate_to_buffer z source limit).1 = .Z_OK →
      (inflate_to_buffer z source limit).2 <+: S.out source ∧
        (inflate_to_buffer z source limit).2.length = limit % 2 ^ 32) := by
  rw [inflate_to_buffer]
  split
  · rename_i hinit
    have hloop := inflateLoop_spec hz source (limit % 2 ^ 32) (hz.init hinit) S.out_nil.symm
      (show Ret.Z_OK ≠ .Z_STREAM_END by decide)
    rw [List.nil_append, List.length_nil, Nat.zero_add] at hloop
    exact hloop
  · rename_i hinit
    exact ⟨fun h => absurd h hz.init_code, fun h => absurd h hinit⟩

end Inflate

/-! ## The reversal -/

section Reversal

lemma reverseLoop_spec {size top : ℕ} (k bottom : ℕ) (data : ℕ → Byte) (htop : top < size)
    (hk : bottom + 2 * k ≤ top + 1) :
    ∃ data', reverseLoop size k bottom top data = some data' ∧ ∀ i,
      data' i = if bottom ≤ i ∧ i < bottom + k ∨ top < i + k ∧ i ≤ top then data (bottom + top - i)
        else data i := by
  induction k generalizing bottom top data with
  | zero => exact ⟨data, rfl, fun i => by rw [if_neg (by omega)]⟩
  | succ k ih =>
    rw [reverseLoop, if_pos (by omega)]
    obtain ⟨data', hloop, hdata⟩ := ih (bottom + 1)
      (Function.update (Function.update data bottom (data top)) top (data bottom))
      (show top - 1 < size by omega) (show bottom + 1 + 2 * k ≤ top - 1 + 1 by omega)
    refine ⟨data', hloop, fun i => ?_⟩
    rw [hdata i, show bottom + 1 + (top - 1) - i = bottom + top - i by omega]
    simp only [Function.update_apply]
    rcases lt_trichotomy i bottom with hi | rfl | hi
    · rw [if_neg (by omega), if_neg (by omega), if_neg (by omega), if_neg (by omega)]
    · rw [if_neg (by omega), if_neg (by omega), if_pos rfl, if_pos (by omega),
        show i + top - i = top by omega]
    · rcases lt_trichotomy i top with hi' | rfl | hi'
      · by_cases hmid : bottom + 1 ≤ i ∧ i < bottom + 1 + k ∨ top - 1 < i + k ∧ i ≤ top - 1
        · rw [if_pos hmid, if_neg (by omega), if_neg (by omega), if_pos (by omega)]
        · rw [if_neg hmid, if_neg (by omega), if_neg (by omega), if_neg (by omega)]
      · rw [if_neg (by omega), if_pos rfl, if_pos (by omega),
          show bottom + i - i = bottom by omega]
      · rw [if_neg (by omega), if_neg (by omega), if_neg (by omega), if_neg (by omega)]

lemma buffer_reverse_spec {size n : ℕ} (data : ℕ → Byte) (hn : 0 < n) (hsize : n ≤ size) :
    ∃ data', buffer_reverse size data (n - 1) = some data' ∧ ∀ i < n,
      data' i = if n % 2 = 0 ∧ (i = n / 2 - 1 ∨ i = n / 2) then data i else data (n - 1 - i) := by
  obtain ⟨data', hloop, hdata⟩ := reverseLoop_spec ((n - 1) / 2) 0 data
    (show n - 1 < size by omega) (by omega)
  refine ⟨data', hloop, fun i hi => ?_⟩
  rw [hdata i]
  simp only [Nat.zero_add]
  by_cases hmid : n % 2 = 0 ∧ (i = n / 2 - 1 ∨ i = n / 2)
  · rw [if_pos hmid, if_neg (by omega)]
  · rw [if_neg hmid]
    by_cases hodd : i = n - 1 - i
    · rw [← hodd, ite_self]
    · rw [if_pos (by omega)]

lemma buffer_reverse_empty (data : ℕ → Byte) (size : ℕ) :
    (buffer_reverse size data (2 ^ 32 - 1)).isSome ↔ 2 ^ 32 ≤ size := by
  constructor
  · intro h
    by_contra hsize
    have hlt : ¬(0 < size ∧ 2 ^ 32 - 1 < size) := by omega
    rw [buffer_reverse, show (2 ^ 32 - 1) / 2 = 2147483646 + 1 from rfl, reverseLoop,
      if_neg hlt] at h
    cases h
  · intro h
    obtain ⟨data', hloop, -⟩ := reverseLoop_spec ((2 ^ 32 - 1) / 2) 0 data
      (show 2 ^ 32 - 1 < size by omega) (by omega)
    rw [buffer_reverse, hloop]
    rfl

end Reversal

/-! ## The output -/

section Output

variable {args : Args} {data : List Byte} {buf : ℕ → Byte} {n : ℕ}

lemma map_range_getD (l : List Byte) (k b : ℕ) :
    (List.range (min b (l.length - k))).map (fun i => l.getD (k + i) 0) = (l.drop k).take b := by
  refine List.ext_getElem (by simp) fun i h1 h2 => ?_
  rw [List.length_map, List.length_range] at h1
  rw [List.getElem_map, List.getElem_range, List.getElem_take, List.getElem_drop,
    List.getD_eq_getElem _ _ (by omega)]

lemma datasize_of_not_set (h : ¬args.limitWasSet) : args.datasize = 132096 := by
  have hskip := args.skip.toNat_lt
  have hsum : (args.bound + args.skip.toNat) % 2 ^ 64 = 132096 := by
    rw [Args.bound, if_neg h]
    omega
  rw [Args.datasize, hsum]
  exact ite_self _

lemma bound_of_set (h : args.limitWasSet) : 0 < args.bound ∧ args.bound < 2 ^ 32 ∧
    args.limit = some (UInt32.ofNat args.bound) := by
  have hbound : args.bound = (args.limit.getD 0).toNat := if_pos h
  have hlimit : args.limit.getD 0 ≠ 0 := h
  rw [hbound]
  cases hl : args.limit with
  | none => exact absurd (by rw [hl]; rfl) hlimit
  | some l =>
    rw [hl] at hlimit
    have hpos : l.toNat ≠ 0 := fun h0 => hlimit (UInt32.toNat_inj.mp h0)
    exact ⟨by rw [Option.getD_some]; omega, l.toNat_lt, by rw [Option.getD_some, UInt32.ofNat_toNat]⟩

lemma limit_ne_zero (h : args.limitWasSet) : args.limit ≠ some 0 := fun hlimit => by
  rw [Args.limitWasSet, hlimit] at h
  exact h rfl

lemma slice_eq (hlimit : args.limit ≠ some 0)
    (hlen : ¬args.limitWasSet → data.length ≤ args.skip.toNat + args.bound) :
    slice args data = ((if args.reversed then data.reverse else data).drop args.skip.toNat).take
      args.bound := by
  rw [slice]
  by_cases hset : args.limitWasSet
  · obtain ⟨-, hlt, hsome⟩ := bound_of_set hset
    rw [hsome]
    dsimp only
    rw [UInt32.toNat_ofNat', Nat.mod_eq_of_lt hlt]
  · have hnone : args.limit = none := by
      cases hl : args.limit with
      | none => rfl
      | some l =>
        have hl0 : ¬l ≠ 0 := by
          rw [Args.limitWasSet, hl] at hset
          exact hset
        exact absurd (by rw [hl, not_not.mp hl0]) hlimit
    rw [hnone]
    dsimp only
    have hlen' := hlen hset
    rw [List.take_of_length_le]
    split
    · rw [List.length_drop, List.length_reverse]
      omega
    · rw [List.length_drop]
      omega

lemma output_eq (hn : n ≤ args.datasize) : output args n buf =
    if n ≤ args.skip.toNat then .failure
    else .success ((List.range (min args.bound (n - args.skip.toNat))).map
      fun i => buf (args.skip.toNat + i)) := by
  rw [output]
  split
  · rfl
  · rw [if_neg (by omega)]

lemma le_bound_of_not_set (hn : n ≤ args.datasize) (h : ¬args.limitWasSet)
    (hskip : args.skip.toNat < n) : n ≤ args.skip.toNat + args.bound ∧ 0 < args.bound := by
  rw [datasize_of_not_set h] at hn
  rw [Args.bound, if_neg h]
  omega

lemma bound_pos (hn : n ≤ args.datasize) (hskip : args.skip.toNat < n) : 0 < args.bound := by
  by_cases hset : args.limitWasSet
  · exact (bound_of_set hset).1
  · exact (le_bound_of_not_set hn hset hskip).2

/-- What is written is the slice just when the limit is not given as 0 and the buffer holds the
bytes that are asked for. -/
lemma written_iff (hn : data.length ≤ args.datasize) (hskip : args.skip.toNat < data.length) :
    (List.range (min args.bound (data.length - args.skip.toNat))).map
        (fun i => buf (args.skip.toNat + i)) = slice args data ↔
      args.limit ≠ some 0 ∧ ∀ i < data.length, args.skip.toNat ≤ i →
        i < args.skip.toNat + args.bound →
          buf i = (if args.reversed then data.reverse else data).getD i 0 := by
  by_cases hlimit : args.limit = some 0
  · have hset : ¬args.limitWasSet := by simp [Args.limitWasSet, hlimit]
    have hpos := (le_bound_of_not_set hn hset hskip).2
    refine iff_of_false (fun h => ?_) fun h => h.1 hlimit
    have hlen := congrArg List.length h
    simp only [slice, hlimit, List.length_map, List.length_range, UInt32.toNat_zero,
      List.take_zero, List.length_nil] at hlen
    omega
  · have hlen : (if args.reversed then data.reverse else data).length = data.length := by
      split
      · exact List.length_reverse
      · rfl
    rw [slice_eq hlimit fun hset => (le_bound_of_not_set hn hset hskip).1,
      ← map_range_getD, hlen, List.map_inj_left, and_iff_right hlimit]
    constructor
    · intro h i hi hskip' hbound
      have := h (i - args.skip.toNat) (List.mem_range.mpr (by omega))
      rwa [show args.skip.toNat + (i - args.skip.toNat) = i by omega] at this
    · intro h i hi
      rw [List.mem_range] at hi
      exact h _ (by omega) (by omega) (by omega)

/-- A run that does not fault and writes nothing but the slice. -/
def Writes (args : Args) (data : List Byte) (outcome : Outcome) : Prop :=
  outcome ≠ .fault ∧ ∀ out, outcome = .success out → out = slice args data

/-- The middle of reversed data is in place when its two bytes are equal or not asked for. -/
lemma middleFree_iff (hdata : ∀ i < data.length, buf i =
      if data.length % 2 = 0 ∧ (i = data.length / 2 - 1 ∨ i = data.length / 2) then data.getD i 0
      else data.getD (data.length - 1 - i) 0) (hdpos : 0 < data.length) (hpos : 0 < args.bound) :
    (∀ i < data.length, args.skip.toNat ≤ i → i < args.skip.toNat + args.bound →
      buf i = data.reverse.getD i 0) ↔ MiddleFree args data := by
  have hget : ∀ i < data.length, data.reverse.getD i 0 = data.getD (data.length - 1 - i) 0 :=
    fun i hi => by
      rw [List.getD_eq_getElem?_getD, List.getD_eq_getElem?_getD, List.getElem?_reverse hi]
  have hcell : ∀ i (hi : i < data.length), data.getD i 0 = data[i] :=
    fun i hi => List.getD_eq_getElem _ _ hi
  constructor
  · intro h
    by_contra hfree
    rw [MiddleFree, not_or, not_or, not_or] at hfree
    obtain ⟨hodd, hne, hlow, hhigh⟩ := hfree
    have hhalf : data.length / 2 - 1 < data.length := by omega
    have hhalf' : data.length / 2 < data.length := by omega
    rw [List.getElem?_eq_getElem hhalf, List.getElem?_eq_getElem hhalf', Option.some.injEq,
      ← hcell, ← hcell] at hne
    have hmirror : data.length - 1 - data.length / 2 = data.length / 2 - 1 := by omega
    have hmirror' : data.length - 1 - (data.length / 2 - 1) = data.length / 2 := by omega
    by_cases hin : args.skip.toNat + args.bound = data.length / 2
    · have hlast := h (data.length / 2 - 1) hhalf
      rw [hdata _ hhalf, if_pos (by omega), hget _ hhalf, hmirror'] at hlast
      exact hne (hlast (by omega) (by omega))
    · have hlast := h (data.length / 2) hhalf'
      rw [hdata _ hhalf', if_pos (by omega), hget _ hhalf', hmirror] at hlast
      exact hne (hlast (by omega) (by omega)).symm
  · intro hfree i hi hlow hhigh
    rw [hdata i hi, hget i hi]
    split
    · rename_i hmid
      have hhalf : data.length / 2 - 1 < data.length := by omega
      have hhalf' : data.length / 2 < data.length := by omega
      rcases hfree with hodd | heq | h | h
      · omega
      · rw [List.getElem?_eq_getElem hhalf, List.getElem?_eq_getElem hhalf', Option.some.injEq,
          ← hcell, ← hcell] at heq
        rcases hmid.2 with rfl | rfl
        · rw [heq, show data.length - 1 - (data.length / 2 - 1) = data.length / 2 by omega]
        · rw [← heq, show data.length - 1 - data.length / 2 = data.length / 2 - 1 by omega]
      · omega
      · omega
    · rfl

/-- From the whole data in the buffer to the output. -/
lemma store_iff (hn : data.length ≤ args.datasize % 2 ^ 32) : Writes args data (store args data) ↔
    (args.reversed → data = [] → 2 ^ 32 ≤ args.datasize) ∧
      (args.skip.toNat < data.length →
        args.limit ≠ some 0 ∧ (args.reversed → MiddleFree args data)) := by
  have hle : data.length ≤ args.datasize := hn.trans (Nat.mod_le _ _)
  have hlt : data.length < 2 ^ 32 := hn.trans_lt (Nat.mod_lt _ (by decide))
  have hwrites : ∀ buf, Writes args data (output args data.length buf) ↔
      (args.skip.toNat < data.length → args.limit ≠ some 0 ∧ ∀ i < data.length,
        args.skip.toNat ≤ i → i < args.skip.toNat + args.bound →
          buf i = (if args.reversed then data.reverse else data).getD i 0) := by
    intro buf
    rw [Writes, output_eq hle]
    by_cases hskip : args.skip.toNat < data.length
    · rw [if_neg (by omega), ← written_iff hle hskip]
      simp [hskip]
    · rw [if_pos (by omega)]
      simp [hskip]
  rw [store]
  cases hrev : args.reversed with
  | false =>
    simp only [Bool.false_eq_true, if_false, false_imp_iff, true_and, and_true, hwrites, hrev]
    exact ⟨fun h hskip => (h hskip).1, fun h hskip => ⟨h hskip, fun _ _ _ _ => trivial⟩⟩
  | true =>
    simp only [if_true, true_imp_iff]
    by_cases hempty : data = []
    · subst hempty
      have htop : (([] : List Byte).length + 2 ^ 64 - 1) % 2 ^ 64 % 2 ^ 32 = 2 ^ 32 - 1 := rfl
      have hsome := buffer_reverse_empty (fun i => ([] : List Byte).getD i 0) args.datasize
      rw [htop]
      generalize buffer_reverse args.datasize (fun i => ([] : List Byte).getD i 0) (2 ^ 32 - 1) =
        res at hsome ⊢
      cases res with
      | none => exact iff_of_false (fun h => h.1 rfl) fun h => by simpa using hsome.mpr (h.1 rfl)
      | some buf =>
        dsimp only
        rw [hwrites]
        exact iff_of_true (fun h => absurd h (Nat.not_lt_zero _))
          ⟨fun _ => hsome.mp rfl, fun h => absurd h (Nat.not_lt_zero _)⟩
    · have hpos : 0 < data.length := List.length_pos_iff.mpr hempty
      obtain ⟨buf, hbuf, hdata⟩ := buffer_reverse_spec (fun i => data.getD i 0) hpos hle
      rw [show (data.length + 2 ^ 64 - 1) % 2 ^ 64 % 2 ^ 32 = data.length - 1 by omega, hbuf]
      dsimp only
      rw [hwrites, hrev, if_pos rfl]
      refine ⟨fun h => ⟨fun h0 => absurd h0 hempty, fun hskip => ⟨(h hskip).1, ?_⟩⟩,
        fun h hskip => ⟨(h.2 hskip).1, ?_⟩⟩
      · exact (middleFree_iff hdata hpos (bound_pos hle hskip)).mp (h hskip).2
      · exact (middleFree_iff hdata hpos (bound_pos hle hskip)).mpr (h.2 hskip).2

end Output

/-! ## The program -/

section Program

variable {z : Zlib σ} {S : Stream} {Fed : σ → List Byte → Prop} {args : Args} {source : List Byte}

/-- A stream that does not end within the buffer is cut off at a limit. -/
lemma extract_cut (hz : Delivers z S Fed)
    (hend : (inflate_to_buffer z source args.datasize).1 ≠ .Z_STREAM_END) :
    Writes args (S.out source) (extract z args source) := by
  have hfull := (inflate_to_buffer_spec hz source args.datasize).2
  rw [extract]
  generalize inflate_to_buffer z source args.datasize = r at hend hfull
  split
  · exact ⟨by simp, by simp⟩
  · rename_i hset
    split
    · exact ⟨by simp, by simp⟩
    · rename_i hok
      rw [not_and_or, not_or, not_not, not_not] at hset
      obtain ⟨hrev, hset⟩ := hset.resolve_right hend
      have hret : r.1 = .Z_OK := by
        by_contra hne
        exact hok ⟨hend, hne⟩
      obtain ⟨⟨rest, hdata⟩, hlen⟩ := hfull hret
      obtain ⟨hpos, hlt, hlimit⟩ := bound_of_set hset
      have hskip := args.skip.toNat_lt
      have hsum : args.datasize = args.bound + args.skip.toNat := by
        simp only [Args.datasize]
        rw [if_neg fun h => hrev h.1]
        omega
      rw [store, if_neg hrev, output_eq (by omega)]
      split
      · exact ⟨by simp, by simp⟩
      · rename_i hbehind
        have hfits : r.2.length = args.bound + args.skip.toNat := by omega
        refine ⟨by simp, fun out hout => ?_⟩
        rw [← Outcome.success.inj hout, map_range_getD, slice_eq (limit_ne_zero hset)
          fun h => absurd hset h, if_neg hrev, ← hdata, List.drop_append_of_le_length (by omega),
          List.take_append_of_le_length]
        rw [List.length_drop]
        omega

lemma extract_iff (hz : Delivers z S Fed) : Writes args (S.out source) (extract z args source) ↔
    ((inflate_to_buffer z source args.datasize).1 = .Z_STREAM_END → args.reversed →
      S.out source = [] → 2 ^ 32 ≤ args.datasize) ∧
    ((inflate_to_buffer z source args.datasize).1 = .Z_STREAM_END →
      args.skip.toNat < (S.out source).length →
        args.limit ≠ some 0 ∧ (args.reversed → MiddleFree args (S.out source))) := by
  by_cases hend : (inflate_to_buffer z source args.datasize).1 = .Z_STREAM_END
  · obtain ⟨hdata, hlen⟩ := (inflate_to_buffer_spec hz source args.datasize).1 hend
    rw [extract]
    simp only [hend, ne_eq, not_true_eq_false, and_false, false_and, if_false, true_imp_iff]
    rw [hdata, store_iff hlen]
  · simp only [hend, false_imp_iff, and_true, iff_true]
    exact extract_cut hz hend

/-- `fritz_cal_extract` selects the entry of the table, stays inside its buffer and writes just the
slice that is asked for exactly under the condition `Sound`. -/
theorem extracts_iff (hz : Delivers z S Fed) (args : Args) (file : List Byte)
    (hentry : args.entry ≠ 0xffff) : Extracts z S args file ↔ Sound z S args file := by
  constructor
  · rintro ⟨hsel, hsafe, hwritten⟩
    have hall : ∀ source, tableEntry args.entry file = some source →
        Writes args (S.out source) (extract z args source) := fun source hsource => by
      rw [main, hsel, hsource] at hsafe hwritten
      refine ⟨hsafe, fun out hout => ?_⟩
      obtain ⟨source', heq, hslice⟩ := hwritten out hout
      cases heq
      exact hslice
    exact ⟨(selected_iff hentry).mp hsel, fun source hs => ((extract_iff hz).mp (hall source hs)).1,
      fun source hs => ((extract_iff hz).mp (hall source hs)).2⟩
  · rintro ⟨hent, hempty, hslice⟩
    have hsel := (selected_iff hentry).mpr hent
    have hall : ∀ source, tableEntry args.entry file = some source →
        Writes args (S.out source) (extract z args source) := fun source hs =>
      (extract_iff hz).mpr ⟨hempty source hs, hslice source hs⟩
    refine ⟨hsel, ?_, fun out hout => ?_⟩
    · rw [main, hsel]
      cases hsource : tableEntry args.entry file with
      | none => simp
      | some source => exact (hall source hsource).1
    · rw [main, hsel] at hout
      cases hsource : tableEntry args.entry file with
      | none =>
        rw [hsource] at hout
        cases hout
      | some source =>
        rw [hsource] at hout
        exact ⟨source, rfl, (hall source hsource).2 out hout⟩

end Program

/-! ## An example -/

/-- The zlib stream of the two bytes "AB", stored. -/
def storedAB : List Byte :=
  [0x78, 0x01, 0x01, 0x02, 0x00, 0xfd, 0xff, 0x41, 0x42, 0x00, 0xc6, 0x00, 0x84]

def streamAB : Stream where
  out l := if storedAB <+: l then [0x41, 0x42] else []
  ended l := storedAB <+: l
  out_nil := by decide
  out_mono a b := by
    split
    · rename_i h
      rw [if_pos (h.trans (List.prefix_append a b))]
    · exact List.nil_prefix
  ended_out a b h := by rw [if_pos h, if_pos (h.trans (List.prefix_append a b))]

/-- The two functions of zlib for this stream. -/
def zlibAB : Zlib (List Byte) where
  inflateInit := (.Z_OK, [])
  inflate s chunk n :=
    if storedAB <+: s ++ chunk ∧ ¬storedAB <+: s ∧ 2 ≤ n then
      (.Z_STREAM_END, s ++ chunk, [0x41, 0x42])
    else (.Z_DATA_ERROR, s, [])

lemma deliversAB : Delivers zlibAB streamAB Eq where
  init _ := rfl
  init_code := by decide
  room chunk n _ := by
    rw [zlibAB]
    dsimp only
    split_ifs with h
    · exact h.2.2
    · exact Nat.zero_le n
  ends {s a} chunk n hfed hend := by
    subst hfed
    rw [zlibAB] at hend ⊢
    dsimp only [streamAB] at hend ⊢
    split_ifs at hend ⊢ with h h' h' <;> simp_all
  full {s a} chunk n hfed hfailed := by
    subst hfed
    rw [zlibAB] at hfailed ⊢
    dsimp only [streamAB] at hfailed ⊢
    split_ifs at hfailed ⊢ with h h' h' <;> simp_all [Ret.failed]
  more {s a} chunk n hfed hfailed hne := by
    rw [zlibAB] at hfailed hne
    dsimp only at hfailed hne
    split_ifs at hfailed hne
    · exact absurd rfl hne
    · cases hfailed

/-- A table with the stream as its entry 1. -/
def tableAB : List Byte := [0x00, 0x01, 0x00, 0x0d] ++ storedAB

/-- The bytes are extracted as they are. -/
theorem extracts_AB : Extracts zlibAB streamAB ⟨1, 0, none, false⟩ tableAB :=
  (extracts_iff deliversAB ⟨1, 0, none, false⟩ tableAB (by decide)).mpr
    ⟨.inl ⟨(1, storedAB), by decide, rfl⟩, fun _ _ _ h => absurd h (by decide),
      fun _ _ _ _ => ⟨by decide, fun h => absurd h (by decide)⟩⟩

/-- Two bytes are not reversed, and an entry behind the end marker is taken. -/
theorem not_extracts_AB : ¬Extracts zlibAB streamAB ⟨1, 0, none, true⟩ tableAB ∧
    ¬Extracts zlibAB streamAB ⟨1, 0, none, false⟩ ([0xff, 0xff, 0x00, 0x00] ++ tableAB) := by
  constructor
  · intro h
    have hrun : main zlibAB ⟨1, 0, none, true⟩ tableAB = .success [0x41, 0x42] := by
      have hloop : inflate_to_buffer zlibAB storedAB 132096 = (.Z_STREAM_END, [0x41, 0x42]) := by
        rw [inflate_to_buffer, if_pos (show zlibAB.inflateInit.1 = .Z_OK by decide), inflateLoop]
        decide +kernel
      rw [main, show findEntry 1 0 tableAB = some storedAB by decide]
      dsimp only
      rw [extract, show Args.datasize ⟨1, 0, none, true⟩ = 132096 by decide, hloop]
      decide +kernel
    obtain ⟨source, hsource, hslice⟩ := h.written _ hrun
    have hentry : tableEntry 1 tableAB = some storedAB := by decide
    obtain rfl := Option.some.inj (hentry.symm.trans hsource)
    revert hslice
    decide
  · intro h
    have hselected := h.selected
    revert hselected
    decide

end Fritz
