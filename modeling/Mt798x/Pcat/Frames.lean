import Mt798x.Pcat.Receive

/-!
# Frames on the line

Well-formed frames, one behind the other, are read as they are, in whatever portions they arrive;
`pcat_pm_uart_write_data` writes a well-formed frame for every message, so that the receiver gets
the messages back.
-/

namespace Pcat

open Bytes Scanner

/-! ## Well-formed frames -/

/-- The bytes are laid out like a frame. -/
structure Shaped (raw : List Byte) : Prop where
  start : raw.getD 0 0 = 0xA5
  ge : 3 ≤ expectLen raw
  le : expectLen raw ≤ 515
  length : raw.length = 10 + expectLen raw
  tail : raw.getD (9 + expectLen raw) 0 = 0x5A

/-- The bytes are a frame, with the right checksum. -/
structure IsFrame (raw : List Byte) : Prop extends Shaped raw where
  checksum : word (raw.getD (7 + expectLen raw) 0) (raw.getD (8 + expectLen raw) 0) =
    pcat_pm_compute_crc16 (slice raw 1 (6 + expectLen raw))

variable {raw p : List Byte}

lemma IsFrame.parseAt_eq (h : IsFrame raw) :
    parseAt raw = .pass raw.length [.exec (callAt raw)] := by
  have hlen := h.length
  have hge := h.ge
  have hle := h.le
  cases raw with
  | nil =>
    rw [List.length_nil] at hlen
    omega
  | cons b raw =>
    have hb : b = 0xA5 := h.start
    simp only [parseAt]
    rw [if_neg (not_not.mpr hb), if_neg (by omega), if_neg (by omega), if_neg (by omega),
      if_neg (not_not.mpr h.tail), if_neg (not_not.mpr h.checksum), ← hlen]

lemma IsFrame.rawdata_eq (h : IsFrame raw) : (callAt raw).rawdata = raw := by
  simp only [callAt]
  exact List.take_of_length_le h.length.le

lemma IsFrame.length_pos (h : IsFrame raw) : 13 ≤ raw.length := by
  have hlen := h.length
  have hge := h.ge
  omega

/-- What the parser executes is a frame at the front of its input. -/
lemma isFrame_of_parseAt {n : ℕ} {out : List Event} {call : Call}
    (h : parseAt p = .pass n out) (hcall : .exec call ∈ out) :
    IsFrame call.rawdata ∧ callAt call.rawdata = call := by
  cases p with
  | nil => cases h
  | cons b p =>
    simp only [parseAt] at h
    split_ifs at h with hb hshort hbad hwait htail hsum
    · cases h
      simp at hcall
    · cases h
      simp at hcall
    · cases h
      simp at hcall
    · cases h
      simp at hcall
    · cases h
      obtain rfl : call = callAt (b :: p) := by simpa using hcall
      set q := b :: p with hq
      have hraw : (callAt q).rawdata = q.take (10 + expectLen q) := rfl
      have hlen : (q.take (10 + expectLen q)).length = 10 + expectLen q := by
        rw [List.length_take]
        omega
      have hsplit : q = q.take (10 + expectLen q) ++ q.drop (10 + expectLen q) :=
        (List.take_append_drop _ _).symm
      have hlong : 13 ≤ (q.take (10 + expectLen q)).length := by omega
      have hexpect : expectLen (q.take (10 + expectLen q)) = expectLen q := by
        conv_rhs => rw [hsplit]
        exact (expectLen_append hlong _).symm
      have hget : ∀ k < 10 + expectLen q, (q.take (10 + expectLen q)).getD k 0 = q.getD k 0 := by
        intro k hk
        have hk' : k < (q.take (10 + expectLen q)).length := by omega
        conv_rhs => rw [hsplit]
        exact (getD_append hk' _).symm
      have hslice : slice (q.take (10 + expectLen q)) 1 (6 + expectLen q) =
          slice q 1 (6 + expectLen q) := by
        rw [slice, slice, List.drop_take, List.take_take, Nat.min_eq_left (by omega)]
      rw [hraw]
      refine ⟨⟨⟨?_, ?_, ?_, ?_, ?_⟩, ?_⟩, ?_⟩
      · rw [hget 0 (by omega)]
        exact not_not.mp hb
      · rw [hexpect]
        omega
      · rw [hexpect]
        omega
      · rw [hexpect, hlen]
      · rw [hexpect, hget _ (by omega)]
        exact not_not.mp htail
      · rw [hexpect, hget _ (by omega), hget _ (by omega), hslice]
        exact not_not.mp hsum
      · have hin : expectLen (q.take (10 + expectLen q)) + 10 ≤
            (q.take (10 + expectLen q)).length := by omega
        conv_rhs => rw [hsplit]
        exact (callAt_append hlong hin _).symm

lemma isFrame_of_steps {xs rest : List Byte} {os : List Event} (h : Steps parseAt xs os rest)
    {call : Call} (hcall : call ∈ executed os) :
    IsFrame call.rawdata ∧ callAt call.rawdata = call := by
  have hmem : .exec call ∈ os := by
    obtain ⟨e, he, hec⟩ := List.mem_filterMap.mp hcall
    cases e with
    | exec c =>
      obtain rfl : c = call := by simpa using hec
      exact he
    | badLength => simp at hec
    | badTail => simp at hec
    | badChecksum _ _ => simp at hec
  clear hcall
  induction h with
  | refl xs => simp at hmem
  | pass hlook _ ih =>
    rcases List.mem_append.mp hmem with hout | hos
    · exact isFrame_of_parseAt hlook hout
    · exact ih hos

/-! ## Frames one behind the other -/

variable {frames portions : List (List Byte)}

/-- The reports of a reader of these frames. -/
def execs (frames : List (List Byte)) : List Event := frames.map fun raw => .exec (callAt raw)

@[simp] lemma executed_execs (frames : List (List Byte)) :
    executed (execs frames) = frames.map callAt := by
  induction frames with
  | nil => rfl
  | cons raw frames ih =>
    rw [List.map_cons, ← ih]
    rfl

lemma IsFrame.parseAt_append (h : IsFrame raw) (q : List Byte) :
    parseAt (raw ++ q) = .pass raw.length [.exec (callAt raw)] :=
  parseAt_lawful.stable h.parseAt_eq q

lemma scans_frames (h : ∀ raw ∈ frames, IsFrame raw) :
    Scans parseAt frames.flatten (execs frames) [] := by
  induction frames with
  | nil => exact ⟨.refl [], rfl⟩
  | cons raw frames ih =>
    obtain ⟨hsteps, hwait⟩ := ih fun q hq => h q (List.mem_cons_of_mem _ hq)
    have hlook := (h raw (List.mem_cons_self ..)).parseAt_append frames.flatten
    refine ⟨?_, hwait⟩
    rw [List.flatten_cons]
    refine .pass hlook ?_
    rwa [List.drop_left]

lemma steps_frames (h : ∀ raw ∈ frames, IsFrame raw) {os : List Event} {rest : List Byte}
    (hsteps : Steps parseAt frames.flatten os rest) : ∃ k, rest = (frames.drop k).flatten := by
  induction frames generalizing os with
  | nil =>
    obtain ⟨-, rfl⟩ := hsteps.of_wait rfl
    exact ⟨0, rfl⟩
  | cons raw frames ih =>
    have hlook := (h raw (List.mem_cons_self ..)).parseAt_append frames.flatten
    rw [List.flatten_cons] at hsteps
    cases hsteps with
    | refl => exact ⟨0, rfl⟩
    | pass hlook' hrest =>
      rw [hlook] at hlook'
      cases hlook'
      rw [List.drop_left] at hrest
      obtain ⟨k, hk⟩ := ih (fun q hq => h q (List.mem_cons_of_mem _ hq)) hrest
      exact ⟨k + 1, hk⟩

/-- Frames that arrive in any portions are executed one by one, and nothing is left. -/
lemma arrive_frames (h : ∀ raw ∈ frames, IsFrame raw) (hsame : portions.flatten = frames.flatten) :
    Runs.run Receiver.arrive .probe portions = ⟨[], execs frames⟩ := by
  have hholds := Receiver.holds_probe.run portions
  rw [List.nil_append, hsame] at hholds
  have hscan := scans_frames h
  have hevents := hholds.events_eq hscan
  have hbuffer : (Runs.run Receiver.arrive .probe portions).read_buffer = [] := by
    rcases hholds.settled with hwait | hshort
    · exact hholds.buffer_eq hscan hwait
    · obtain ⟨k, hk⟩ := steps_frames h hholds.steps
      cases hrest : frames.drop k with
      | nil => rw [hk, hrest]; rfl
      | cons raw rest =>
        have hframe := h raw (List.mem_of_mem_drop (by rw [hrest]; exact List.mem_cons_self ..))
        have hlong := hframe.length_pos
        rw [hk, hrest, List.flatten_cons, List.length_append] at hshort
        omega
  rw [← hevents, ← hbuffer]

lemma receive_parse_frames (h : ∀ raw ∈ frames, IsFrame raw) :
    pcat_pm_uart_receive_parse frames.flatten = ⟨frames.flatten.length, [], execs frames⟩ := by
  cases frames with
  | nil => rfl
  | cons raw rest =>
    have hlong : 13 ≤ (raw :: rest).flatten.length := by
      have := (h raw (List.mem_cons_self ..)).length_pos
      rw [List.flatten_cons, List.length_append]
      omega
    obtain ⟨hevents, hbuffer⟩ := (receive_parse_scans hlong).unique (scans_frames h)
    obtain ⟨hle, hdrop⟩ := receive_parse_buffer (raw :: rest).flatten
    rw [hbuffer] at hdrop
    have hused := List.drop_eq_nil_iff.mp hdrop.symm
    rw [← hevents, ← hbuffer, ← le_antisymm hle hused]

/-! ## Messages -/

/-- A message as it is handed to `pcat_pm_uart_write_data`. -/
structure Message where
  command : UInt16
  payload : List Byte
  need_ack : Bool
  deriving DecidableEq, Repr

/-- The frame of a message and a frame number. -/
def Message.frame (m : Message) (frame_num : UInt16) : List Byte :=
  (pcat_pm_uart_write_data frame_num m.command m.payload m.need_ack).1

/-- The frames of messages that are sent one after the other. -/
def sendFrames : UInt16 → List Message → List (List Byte)
  | _, [] => []
  | write_framenum, m :: ms =>
    let r := pcat_pm_uart_write_data write_framenum m.command m.payload m.need_ack
    r.1 :: sendFrames r.2 ms

/-- What the receiver is to execute for messages that are sent one after the other: the numbers
are consecutive, and wrap. -/
def delivered : UInt16 → List Message → List Call
  | _, [] => []
  | frame_num, m :: ms =>
    { rawdata := m.frame frame_num, src := 0x01, dst := 0x81, frame_num, command := m.command,
      extra_data := m.payload, need_ack := m.need_ack } :: delivered (frame_num + 1) ms

lemma getD_append_add (a b : List Byte) (k : ℕ) : (a ++ b).getD (a.length + k) 0 = b.getD k 0 := by
  rw [List.getD_eq_getElem?_getD, List.getD_eq_getElem?_getD, List.getElem?_append_right (by omega),
    Nat.add_sub_cancel_left]

lemma Message.frame_eq (m : Message) (frame_num : UInt16) (h : m.payload.length ≤ 512) :
    ∃ sv : UInt16, m.frame frame_num = 0xA5 :: 0x01 :: 0x81 ::
        UInt8.ofNat frame_num.toNat :: UInt8.ofNat (frame_num.toNat / 256) ::
        UInt8.ofNat (m.payload.length + 3) :: UInt8.ofNat ((m.payload.length + 3) / 256) ::
        UInt8.ofNat m.command.toNat :: UInt8.ofNat (m.command.toNat / 256) ::
        (m.payload ++ [if m.need_ack then 1 else 0, UInt8.ofNat sv.toNat,
          UInt8.ofNat (sv.toNat / 256), 0x5A]) ∧
      sv = pcat_pm_compute_crc16 (slice (m.frame frame_num) 1 (m.payload.length + 9)) := by
  have hextra : (if 0 < m.payload.length ∧ m.payload.length ≤ 512 then m.payload else []) =
      m.payload := by
    split
    · rfl
    · exact (List.length_eq_zero_iff.mp (by omega)).symm
  have hlen : (UInt16.ofNat (m.payload.length + 3)).toNat = m.payload.length + 3 := by
    rw [UInt16.toNat_ofNat']
    omega
  rw [Message.frame, pcat_pm_uart_write_data]
  simp only [hextra]
  set data := [0xA5, 0x01, 0x81] ++ le16 frame_num ++ le16 (UInt16.ofNat (m.payload.length + 3))
    ++ le16 m.command ++ m.payload ++ [if m.need_ack then 1 else 0] with hdata
  have hdlen : data.length = m.payload.length + 10 := by
    simp only [hdata, List.length_append, length_le16, List.length_cons, List.length_nil]
    omega
  refine ⟨pcat_pm_compute_crc16 ((data.drop 1).take (m.payload.length + 3 + 6)), ?_, ?_⟩
  · simp only [hdata, le16, hlen, List.cons_append, List.nil_append, List.append_assoc]
  · rw [List.append_assoc, slice_append (by omega)]
    rfl

/-- A message is sent as a frame, which says what the message says. -/
lemma Message.isFrame_frame (m : Message) (frame_num : UInt16) (h : m.payload.length ≤ 512) :
    IsFrame (m.frame frame_num) ∧ callAt (m.frame frame_num) =
      { rawdata := m.frame frame_num, src := 0x01, dst := 0x81, frame_num, command := m.command,
        extra_data := m.payload, need_ack := m.need_ack } := by
  obtain ⟨sv, hframe, hsv⟩ := m.frame_eq frame_num h
  set back := [if m.need_ack then 1 else 0, UInt8.ofNat sv.toNat, UInt8.ofNat (sv.toNat / 256),
    0x5A] with hback
  have hexpect : expectLen (m.frame frame_num) = m.payload.length + 3 := by
    rw [hframe]
    show (word (UInt8.ofNat (m.payload.length + 3))
      (UInt8.ofNat ((m.payload.length + 3) / 256))).toNat = _
    simp only [word, UInt8.toNat_ofNat', UInt16.toNat_ofNat']
    omega
  have hget : ∀ k, (m.frame frame_num).getD (9 + m.payload.length + k) 0 = back.getD k 0 := by
    intro k
    rw [hframe, show 9 + m.payload.length + k = m.payload.length + k + 9 by omega]
    exact getD_append_add m.payload back k
  have hlength : (m.frame frame_num).length = m.payload.length + 13 := by
    rw [hframe]
    simp only [hback, List.length_cons, List.length_append, List.length_nil]
  have hack : (m.frame frame_num).getD (6 + (m.payload.length + 3)) 0 =
      if m.need_ack then 1 else 0 := by
    rw [show 6 + (m.payload.length + 3) = 9 + m.payload.length + 0 by omega, hget]
    rfl
  constructor
  · refine ⟨⟨?_, ?_, ?_, ?_, ?_⟩, ?_⟩
    · rw [hframe]
      rfl
    · omega
    · omega
    · omega
    · rw [hexpect, show 9 + (m.payload.length + 3) = 9 + m.payload.length + 3 by omega, hget]
      rfl
    · rw [hexpect, show 7 + (m.payload.length + 3) = 9 + m.payload.length + 1 by omega,
        show 8 + (m.payload.length + 3) = 9 + m.payload.length + 2 by omega, hget, hget,
        show 6 + (m.payload.length + 3) = m.payload.length + 9 by omega, ← hsv]
      exact word_le16 sv
  · have hraw : (m.frame frame_num).take (10 + (m.payload.length + 3)) = m.frame frame_num :=
      List.take_of_length_le (by omega)
    have hextra : slice (m.frame frame_num) 9 m.payload.length = m.payload := by
      rw [slice, hframe]
      exact List.take_left
    have hneed : (decide ((if m.need_ack then (1 : Byte) else 0) ≠ 0)) = m.need_ack := by
      cases m.need_ack <;> rfl
    simp only [callAt, hexpect, hraw, hack, Nat.add_sub_cancel, hextra, hneed]
    rw [hframe]
    simp only [Call.mk.injEq, true_and, and_true]
    exact ⟨rfl, rfl, word_le16 frame_num, word_le16 m.command⟩

variable {ms : List Message}

lemma isFrame_sendFrames (write_framenum : UInt16) (h : ∀ m ∈ ms, m.payload.length ≤ 512) :
    (∀ raw ∈ sendFrames write_framenum ms, IsFrame raw) ∧
      (sendFrames write_framenum ms).map callAt = delivered write_framenum ms := by
  induction ms generalizing write_framenum with
  | nil => simp [sendFrames, delivered]
  | cons m ms ih =>
    obtain ⟨hframe, hcall⟩ := m.isFrame_frame write_framenum (h m (List.mem_cons_self ..))
    obtain ⟨hframes, hcalls⟩ :=
      ih (write_framenum + 1) fun m hm => h m (List.mem_cons_of_mem _ hm)
    constructor
    · intro raw hraw
      rcases List.mem_cons.mp hraw with rfl | hraw
      · exact hframe
      · exact hframes raw hraw
    · rw [delivered, ← hcall, ← hcalls]
      rfl

end Pcat
