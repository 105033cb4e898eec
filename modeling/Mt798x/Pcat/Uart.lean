import Mt798x.Lib.Bytes
import Mt798x.Lib.Scanner

/-!
# The UART protocol of the Photonicat power manager

A frame is the byte `0xA5`, source and destination, a frame number, a length, a command, the
payload, an acknowledge flag, a checksum over all of this but the first byte, and the byte `0x5A`.
`pcat_pm_uart_write_data` sends one; `pcat_pm_uart_receive_parse` looks for frames in a buffer,
resynchronises behind bytes that are none, and moves what may still become a frame to the front.
-/

namespace Pcat

open Bytes Scanner

/-- `PCAT_PM_BUFFER_SIZE` -/
def PCAT_PM_BUFFER_SIZE : ℕ := 4096

/-! ## Words and checksums -/

/-- The two bytes of a word, `sv & 0xFF` and `(sv >> 8) & 0xFF`. -/
def le16 (sv : UInt16) : List Byte := [UInt8.ofNat sv.toNat, UInt8.ofNat (sv.toNat / 256)]

/-- The word `lo + ((u16)hi << 8)`. -/
def word (lo hi : Byte) : UInt16 := UInt16.ofNat (lo.toNat + 256 * hi.toNat)

@[simp] lemma length_le16 (sv : UInt16) : (le16 sv).length = 2 := rfl

@[simp] lemma word_le16 (sv : UInt16) :
    word (UInt8.ofNat sv.toNat) (UInt8.ofNat (sv.toNat / 256)) = sv := by
  have h := sv.toNat_lt
  apply UInt16.toNat_inj.mp
  simp only [word, UInt16.toNat_ofNat', UInt8.toNat_ofNat']
  omega

/-- One bit of the checksum. -/
def crcBit (crc : UInt16) : UInt16 :=
  if crc &&& 1 ≠ 0 then (crc >>> 1) ^^^ 0xA001 else crc >>> 1

/-- `pcat_pm_compute_crc16` -/
def pcat_pm_compute_crc16 (data : List Byte) : UInt16 :=
  data.foldl (fun crc b => crcBit^[8] (crc ^^^ b.toUInt16)) 0xFFFF

/-! ## Sending -/

/-- `pcat_pm_uart_write_data`: the bytes that go to the serial port and the next
`write_framenum`.  A missing payload is the empty one; one of more than 512 bytes is dropped. -/
def pcat_pm_uart_write_data (write_framenum command : UInt16) (extra_data : List Byte)
    (need_ack : Bool) : List Byte × UInt16 :=
  let extra := if 0 < extra_data.length ∧ extra_data.length ≤ 512 then extra_data else []
  let dp_size := extra.length + 3
  let data := [0xA5, 0x01, 0x81] ++ le16 write_framenum ++ le16 (UInt16.ofNat dp_size)
    ++ le16 command ++ extra ++ [if need_ack then 1 else 0]
  let sv := pcat_pm_compute_crc16 ((data.drop 1).take (dp_size + 6))
  (data ++ le16 sv ++ [0x5A], write_framenum + 1)

/-! ## Receiving -/

/-- What `cmd_exec_func` is called with.  A payload of length 0 is the null pointer. -/
structure Call where
  rawdata : List Byte
  src : Byte
  dst : Byte
  frame_num : UInt16
  command : UInt16
  extra_data : List Byte
  need_ack : Bool
  deriving DecidableEq, Repr

/-- What the parser does besides moving on: the call of `cmd_exec_func`, and its messages
"Invalid command data length!", "Serial port data missing valid tail!" and "Serial port got
incorrect checksum .., should be ..!". -/
inductive Event where
  | exec (call : Call)
  | badLength
  | badTail
  | badChecksum (checksum rchecksum : UInt16)
  deriving DecidableEq, Repr

/-- The bytes `p[from .. from + len)`. -/
def slice (p : List Byte) (start len : ℕ) : List Byte := (p.drop start).take len

/-- `expect_len`, the word at `p[5]`. -/
def expectLen (p : List Byte) : ℕ := (word (p.getD 5 0) (p.getD 6 0)).toNat

/-- The call of a frame at `p`. -/
def callAt (p : List Byte) : Call where
  rawdata := p.take (10 + expectLen p)
  src := p.getD 1 0
  dst := p.getD 2 0
  frame_num := word (p.getD 3 0) (p.getD 4 0)
  command := word (p.getD 7 0) (p.getD 8 0)
  extra_data := slice p 9 (expectLen p - 3)
  need_ack := p.getD (6 + expectLen p) 0 ≠ 0

/-- The body of the loop of `pcat_pm_uart_receive_parse` at `p = buffer + i`: it breaks out, or
advances `i` and with it `used_size`. -/
def parseAt (p : List Byte) : Verdict Event :=
  match p with
  | [] => .wait
  | b :: _ =>
    if b ≠ 0xA5 then .pass 1 []
    else if p.length < 13 then .wait
    else
      let expect_len := expectLen p
      if expect_len < 3 ∨ expect_len > 515 then .pass 1 [.badLength]
      else if expect_len + 10 > p.length then .wait
      else if p.getD (9 + expect_len) 0 ≠ 0x5A then .pass 1 [.badTail]
      else
        let checksum := word (p.getD (7 + expect_len) 0) (p.getD (8 + expect_len) 0)
        let rchecksum := pcat_pm_compute_crc16 (slice p 1 (6 + expect_len))
        if checksum ≠ rchecksum then .pass (10 + expect_len) [.badChecksum checksum rchecksum]
        else .pass (10 + expect_len) [.exec (callAt p)]

/-- The loop of `pcat_pm_uart_receive_parse`, in at most `fuel` turns: `used_size` when it ends,
and what it did. -/
def parseLoop (buffer : List Byte) : ℕ → ℕ → ℕ → ℕ × List Event
  | 0, _, used_size => (used_size, [])
  | fuel + 1, i, used_size =>
    if i < buffer.length then
      match parseAt (buffer.drop i) with
      | .wait => (used_size, [])
      | .pass n events =>
        let r := parseLoop buffer fuel (i + n) (i + n)
        (r.1, events ++ r.2)
    else (used_size, [])

/-- The outcome of `pcat_pm_uart_receive_parse`: the returned `used_size`, the used part of the
buffer afterwards, and what was done on the way. -/
structure Parsed where
  used_size : ℕ
  buffer : List Byte
  events : List Event
  deriving DecidableEq, Repr

/-- `pcat_pm_uart_receive_parse` on the used part of a buffer.  Every turn of its loop advances
`i`, so that one turn for each byte is enough. -/
def pcat_pm_uart_receive_parse (buffer : List Byte) : Parsed :=
  if buffer.length < 13 then ⟨0, buffer, []⟩
  else
    let r := parseLoop buffer buffer.length 0 0
    ⟨r.1, buffer.drop r.1, r.2⟩

/-! ## The scan behind the loop -/

lemma slice_append {p : List Byte} {start len : ℕ} (h : start + len ≤ p.length) (q : List Byte) :
    slice (p ++ q) start len = slice p start len := by
  rw [slice, slice, List.drop_append_of_le_length (by omega),
    List.take_append_of_le_length (by rw [List.length_drop]; omega)]

lemma getD_append {p : List Byte} {k : ℕ} (h : k < p.length) (q : List Byte) :
    (p ++ q).getD k 0 = p.getD k 0 := by
  rw [List.getD_eq_getElem?_getD, List.getD_eq_getElem?_getD, List.getElem?_append_left h]

lemma expectLen_append {p : List Byte} (h : 13 ≤ p.length) (q : List Byte) :
    expectLen (p ++ q) = expectLen p := by
  rw [expectLen, expectLen, getD_append (by omega), getD_append (by omega)]

lemma callAt_append {p : List Byte} (h : 13 ≤ p.length) (hlen : expectLen p + 10 ≤ p.length)
    (q : List Byte) : callAt (p ++ q) = callAt p := by
  simp only [callAt, expectLen_append h]
  rw [List.take_append_of_le_length (by omega), getD_append (by omega), getD_append (by omega),
    getD_append (by omega), getD_append (by omega), getD_append (by omega),
    getD_append (by omega), getD_append (by omega), slice_append (by omega)]

lemma parseAt_of_ne {b : Byte} (hb : b ≠ 0xA5) (p : List Byte) :
    parseAt (b :: p) = .pass 1 [] := if_pos hb

lemma length_of_wait {p : List Byte} (h : parseAt p = .wait) : p.length < 525 := by
  cases p with
  | nil => decide
  | cons b p =>
    simp only [parseAt] at h
    split_ifs at h <;> omega

lemma wait_iff_of_short {p : List Byte} (h : p.length < 13) :
    parseAt p = .wait ↔ ∀ b, p.head? = some b → b = 0xA5 := by
  cases p with
  | nil => simp [parseAt]
  | cons b p =>
    by_cases hb : b = 0xA5
    · simp [parseAt, hb, show p.length + 1 < 13 from h]
    · simp [parseAt, hb]

lemma parseAt_lawful : Lawful parseAt where
  pos := by
    intro p n out h
    cases p with
    | nil => cases h
    | cons b p =>
      simp only [parseAt] at h
      split_ifs at h <;> cases h <;> omega
  le := by
    intro p n out h
    cases p with
    | nil => cases h
    | cons b p =>
      simp only [parseAt] at h
      split_ifs at h <;> cases h <;> simp only [List.length_cons] at * <;> omega
  stable := by
    intro p n out h q
    cases p with
    | nil => cases h
    | cons b p =>
      have hcons : (b :: p) ++ q = b :: (p ++ q) := rfl
      by_cases hb : b ≠ 0xA5
      · rw [parseAt_of_ne hb] at h
        rw [hcons, parseAt_of_ne hb, h]
      · by_cases hshort : (b :: p).length < 13
        · simp only [parseAt, if_neg hb, if_pos hshort] at h
          cases h
        · have hge : 13 ≤ (b :: p).length := by omega
          have hlong : ¬ ((b :: p) ++ q).length < 13 := by
            rw [List.length_append]
            omega
          simp only [parseAt, if_neg hb, if_neg hshort] at h
          rw [hcons]
          simp only [parseAt, if_neg hb]
          rw [← hcons, if_neg hlong, expectLen_append hge]
          by_cases hbad : expectLen (b :: p) < 3 ∨ expectLen (b :: p) > 515
          · rwa [if_pos hbad] at h ⊢
          · rw [if_neg hbad] at h ⊢
            by_cases hwait : expectLen (b :: p) + 10 > (b :: p).length
            · rw [if_pos hwait] at h
              cases h
            · have hlen : expectLen (b :: p) + 10 ≤ (b :: p).length := by omega
              rw [if_neg hwait] at h
              rw [if_neg (by rw [List.length_append]; omega), getD_append (by omega),
                getD_append (by omega), getD_append (by omega), slice_append (by omega),
                callAt_append hge hlen]
              exact h

/-- The loop is a scan, and `used_size` counts what it passed. -/
lemma parseLoop_scans (buffer : List Byte) : ∀ fuel i, i ≤ buffer.length →
    buffer.length - i ≤ fuel → i ≤ (parseLoop buffer fuel i i).1 ∧
      (parseLoop buffer fuel i i).1 ≤ buffer.length ∧
      Scans parseAt (buffer.drop i) (parseLoop buffer fuel i i).2
        (buffer.drop (parseLoop buffer fuel i i).1) := by
  intro fuel
  induction fuel with
  | zero =>
    intro i hi hfuel
    have hdone : i = buffer.length := by omega
    have hnil : buffer.drop i = [] := by rw [hdone, List.drop_length]
    refine ⟨le_refl i, hi, ?_, ?_⟩
    · exact .refl _
    · rw [parseLoop, hnil]
      rfl
  | succ fuel ih =>
    intro i hi hfuel
    rw [parseLoop]
    split
    · cases hlook : parseAt (buffer.drop i) with
      | wait => exact ⟨le_refl i, hi, .refl _, hlook⟩
      | pass n events =>
        have hpos := parseAt_lawful.pos hlook
        have hle := parseAt_lawful.le hlook
        rw [List.length_drop] at hle
        obtain ⟨h1, h2, hsteps, hwait⟩ := ih (i + n) (by omega) (by omega)
        refine ⟨(Nat.le_add_right i n).trans h1, h2, .pass hlook ?_, hwait⟩
        rwa [List.drop_drop]
    · have hnil : buffer.drop i = [] := List.drop_eq_nil_of_le (by omega)
      refine ⟨le_refl i, hi, .refl _, ?_⟩
      rw [hnil]
      rfl

lemma receive_parse_of_short {buffer : List Byte} (h : buffer.length < 13) :
    pcat_pm_uart_receive_parse buffer = ⟨0, buffer, []⟩ := if_pos h

lemma receive_parse_scans {buffer : List Byte} (h : 13 ≤ buffer.length) :
    Scans parseAt buffer (pcat_pm_uart_receive_parse buffer).events
      (pcat_pm_uart_receive_parse buffer).buffer := by
  rw [pcat_pm_uart_receive_parse, if_neg (by omega)]
  exact (parseLoop_scans buffer buffer.length 0 (Nat.zero_le _) (by omega)).2.2

lemma receive_parse_buffer (buffer : List Byte) :
    (pcat_pm_uart_receive_parse buffer).used_size ≤ buffer.length ∧
      (pcat_pm_uart_receive_parse buffer).buffer =
        buffer.drop (pcat_pm_uart_receive_parse buffer).used_size := by
  rw [pcat_pm_uart_receive_parse]
  split
  · exact ⟨Nat.zero_le _, rfl⟩
  · exact ⟨(parseLoop_scans buffer buffer.length 0 (Nat.zero_le _) (by omega)).2.1, rfl⟩

lemma receive_parse_steps (buffer : List Byte) :
    Steps parseAt buffer (pcat_pm_uart_receive_parse buffer).events
      (pcat_pm_uart_receive_parse buffer).buffer := by
  by_cases h : buffer.length < 13
  · rw [receive_parse_of_short h]
    exact .refl _
  · exact (receive_parse_scans (by omega)).1

end Pcat
