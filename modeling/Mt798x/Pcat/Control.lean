import Mt798x.Pcat.Frames

/-!
# The control device

User space writes frames to the control device.  The driver puts its own frame number and a
matching checksum into the frame at the start of a write and forwards the frames of the write
whose commands it does not keep for itself.
-/

namespace Pcat

open Bytes Scanner

/-! ## The commands the driver keeps for itself -/

def PCAT_PM_COMMAND_HEARTBEAT : UInt16 := 0x1
def PCAT_PM_COMMAND_HEARTBEAT_ACK : UInt16 := 0x2
def PCAT_PM_COMMAND_STATUS_REPORT : UInt16 := 0x7
def PCAT_PM_COMMAND_STATUS_REPORT_ACK : UInt16 := 0x8
def PCAT_PM_COMMAND_DATE_TIME_SYNC : UInt16 := 0x9
def PCAT_PM_COMMAND_DATE_TIME_SYNC_ACK : UInt16 := 0xA
def PCAT_PM_COMMAND_PMU_REQUEST_SHUTDOWN : UInt16 := 0xD
def PCAT_PM_COMMAND_PMU_REQUEST_SHUTDOWN_ACK : UInt16 := 0xE
def PCAT_PM_COMMAND_HOST_REQUEST_SHUTDOWN : UInt16 := 0xF
def PCAT_PM_COMMAND_HOST_REQUEST_SHUTDOWN_ACK : UInt16 := 0x10
def PCAT_PM_COMMAND_WATCHDOG_TIMEOUT_SET : UInt16 := 0x13
def PCAT_PM_COMMAND_WATCHDOG_TIMEOUT_SET_ACK : UInt16 := 0x14
def PCAT_PM_COMMAND_FAN_SET : UInt16 := 0x93
def PCAT_PM_COMMAND_FAN_SET_ACK : UInt16 := 0x94

/-- The cases of the switch of `pcat_pm_ctl_cmd_exec` that do not forward. -/
def ctlBlocked : List UInt16 :=
  [PCAT_PM_COMMAND_HEARTBEAT, PCAT_PM_COMMAND_HEARTBEAT_ACK,
    PCAT_PM_COMMAND_STATUS_REPORT, PCAT_PM_COMMAND_STATUS_REPORT_ACK,
    PCAT_PM_COMMAND_DATE_TIME_SYNC, PCAT_PM_COMMAND_DATE_TIME_SYNC_ACK,
    PCAT_PM_COMMAND_HOST_REQUEST_SHUTDOWN, PCAT_PM_COMMAND_HOST_REQUEST_SHUTDOWN_ACK,
    PCAT_PM_COMMAND_PMU_REQUEST_SHUTDOWN, PCAT_PM_COMMAND_PMU_REQUEST_SHUTDOWN_ACK,
    PCAT_PM_COMMAND_WATCHDOG_TIMEOUT_SET, PCAT_PM_COMMAND_WATCHDOG_TIMEOUT_SET_ACK,
    PCAT_PM_COMMAND_FAN_SET, PCAT_PM_COMMAND_FAN_SET_ACK]

/-- `pcat_pm_ctl_cmd_exec`: the bytes it writes to the serial port. -/
def pcat_pm_ctl_cmd_exec (call : Call) : Option (List Byte) :=
  let forward_cmd := call.command ∉ ctlBlocked
  if ¬ forward_cmd then none else some call.rawdata

/-! ## A write -/

/-- The frame number and the checksum that `pcat_pm_ctl_dev_write` puts into its buffer. -/
def patched (write_framenum : UInt16) (ctl_read_buffer : List Byte) : List Byte :=
  let expect_len := expectLen ctl_read_buffer
  let numbered := splice ctl_read_buffer 3 (le16 write_framenum)
  let crc := pcat_pm_compute_crc16 (slice numbered 1 (6 + expect_len))
  splice numbered (7 + expect_len) (le16 crc)

/-- The outcome of a write: what it returns, the next `write_framenum`, and the frames that went
to the serial port. -/
structure CtlWrite where
  ret : ℕ
  write_framenum : UInt16
  forwarded : List (List Byte)
  deriving DecidableEq, Repr

/-- `pcat_pm_ctl_dev_write` -/
def pcat_pm_ctl_dev_write (write_framenum : UInt16) (buffer : List Byte) : CtlWrite :=
  let ctl_read_buffer := buffer.take PCAT_PM_BUFFER_SIZE
  let count := ctl_read_buffer.length
  if count < 13 then ⟨count, write_framenum, []⟩
  else if expectLen ctl_read_buffer + 10 > count then ⟨count, write_framenum, []⟩
  else
    let r := pcat_pm_uart_receive_parse (patched write_framenum ctl_read_buffer)
    ⟨count, write_framenum + 1, (executed r.events).filterMap pcat_pm_ctl_cmd_exec⟩

/-! ## What is forwarded -/

/-- The command of a frame is not one that the driver keeps for itself. -/
def Allowed (raw : List Byte) : Prop := (callAt raw).command ∉ ctlBlocked

instance : DecidablePred Allowed := fun _ => inferInstanceAs (Decidable (_ ∉ _))

/-- The start of the write is taken for a frame: it is long enough, and what stands in the place
of a length says that it ends within the write. -/
def Opens (ctl_read_buffer : List Byte) : Prop :=
  13 ≤ ctl_read_buffer.length ∧ expectLen ctl_read_buffer + 10 ≤ ctl_read_buffer.length

variable {raw p buf chunk : List Byte}

lemma getD_splice {off : ℕ} (h : off + chunk.length ≤ buf.length) (k : ℕ) :
    (splice buf off chunk).getD k 0 =
      if off ≤ k ∧ k < off + chunk.length then chunk.getD (k - off) 0 else buf.getD k 0 := by
  have hoff : (buf.take off).length = off := by
    rw [List.length_take]
    omega
  simp only [splice, List.getD_eq_getElem?_getD]
  rcases lt_or_ge k off with hlt | hge
  · rw [if_neg (by omega), List.append_assoc, List.getElem?_append_left (by omega),
      List.getElem?_take_of_lt hlt]
  · rcases lt_or_ge k (off + chunk.length) with hin | hout
    · rw [if_pos ⟨hge, hin⟩, List.append_assoc, List.getElem?_append_right (by omega), hoff,
        List.getElem?_append_left (by omega)]
    · rw [if_neg (by omega), List.getElem?_append_right (by rw [List.length_append]; omega),
        List.getElem?_drop, List.length_append, hoff]
      congr 2
      omega

lemma expectLen_splice {off : ℕ} (h : off + chunk.length ≤ buf.length)
    (hout : off + chunk.length ≤ 5 ∨ 7 ≤ off) :
    expectLen (splice buf off chunk) = expectLen buf := by
  rw [expectLen, expectLen, getD_splice h, getD_splice h, if_neg (by omega), if_neg (by omega)]

/-- A frame with the driver's number and a matching checksum is well formed; nothing else about
it has changed. -/
lemma isFrame_patched (write_framenum : UInt16) (h : Shaped raw) :
    IsFrame (patched write_framenum raw) ∧
      (patched write_framenum raw).length = raw.length ∧
      (callAt (patched write_framenum raw)).command = (callAt raw).command := by
  have hlen := h.length
  have hge := h.ge
  rw [patched]
  set numbered := splice raw 3 (le16 write_framenum) with hnumbered
  have hfit : 3 + (le16 write_framenum).length ≤ raw.length := by
    rw [length_le16]
    omega
  have hnlen : numbered.length = raw.length := length_splice hfit
  have hnexpect : expectLen numbered = expectLen raw := expectLen_splice hfit (Or.inl le_rfl)
  set crc := pcat_pm_compute_crc16 (slice numbered 1 (6 + expectLen raw)) with hcrc
  have hcfit : 7 + expectLen raw + (le16 crc).length ≤ numbered.length := by
    rw [length_le16]
    omega
  have hexpect : expectLen (splice numbered (7 + expectLen raw) (le16 crc)) = expectLen raw := by
    rw [expectLen_splice hcfit (Or.inr (by omega)), hnexpect]
  have hplen : (splice numbered (7 + expectLen raw) (le16 crc)).length = raw.length := by
    rw [length_splice hcfit, hnlen]
  -- the bytes that neither copy touches
  have hget : ∀ k, k ≠ 3 → k ≠ 4 → k ≠ 7 + expectLen raw → k ≠ 8 + expectLen raw →
      (splice numbered (7 + expectLen raw) (le16 crc)).getD k 0 = raw.getD k 0 := by
    intro k h3 h4 h7 h8
    have hc := length_le16 crc
    have hw := length_le16 write_framenum
    rw [getD_splice hcfit, if_neg (by omega), getD_splice hfit, if_neg (by omega)]
  have hslice : slice (splice numbered (7 + expectLen raw) (le16 crc)) 1 (6 + expectLen raw) =
      slice numbered 1 (6 + expectLen raw) := by
    have htake : (splice numbered (7 + expectLen raw) (le16 crc)).take (7 + expectLen raw) =
        numbered.take (7 + expectLen raw) := take_splice_of_le le_rfl (by omega)
    have hdrop : ∀ q : List Byte, slice q 1 (6 + expectLen raw) =
        (q.take (7 + expectLen raw)).drop 1 := by
      intro q
      rw [slice, List.drop_take, show 7 + expectLen raw - 1 = 6 + expectLen raw by omega]
    rw [hdrop, hdrop, htake]
  refine ⟨⟨⟨?_, ?_, ?_, ?_, ?_⟩, ?_⟩, hplen, ?_⟩
  · rw [hget 0 (by omega) (by omega) (by omega) (by omega)]
    exact h.start
  · rw [hexpect]
    exact hge
  · rw [hexpect]
    exact h.le
  · rw [hexpect, hplen, hlen]
  · rw [hexpect, hget _ (by omega) (by omega) (by omega) (by omega)]
    exact h.tail
  · have hc := length_le16 crc
    rw [hexpect, hslice, ← hcrc, getD_splice hcfit, if_pos (by omega), getD_splice hcfit,
      if_pos (by omega), Nat.sub_self, show 8 + expectLen raw - (7 + expectLen raw) = 1 by omega]
    exact word_le16 crc
  · simp only [callAt]
    rw [hget 7 (by omega) (by omega) (by omega) (by omega),
      hget 8 (by omega) (by omega) (by omega) (by omega)]

lemma patched_append (write_framenum : UInt16) (h : Shaped raw) (q : List Byte) :
    patched write_framenum (raw ++ q) = patched write_framenum raw ++ q := by
  have hlen := h.length
  have hge := h.ge
  have happend : ∀ {b chunk : List Byte} {off : ℕ}, off + chunk.length ≤ b.length →
      splice (b ++ q) off chunk = splice b off chunk ++ q := by
    intro b chunk off hin
    simp only [splice]
    rw [List.take_append_of_le_length (by omega), List.drop_append_of_le_length hin,
      List.append_assoc, List.append_assoc, List.append_assoc]
  have hfit : 3 + (le16 write_framenum).length ≤ raw.length := by
    rw [length_le16]
    omega
  have hnlen : (splice raw 3 (le16 write_framenum)).length = raw.length := length_splice hfit
  simp only [patched]
  rw [expectLen_append (by omega), happend hfit, slice_append (by omega), happend]
  rw [length_le16]
  omega

lemma filterMap_ctl_cmd_exec {calls : List Call}
    (h : ∀ call ∈ calls, callAt call.rawdata = call) :
    calls.filterMap pcat_pm_ctl_cmd_exec = (calls.map Call.rawdata).filter (Allowed ·) := by
  induction calls with
  | nil => rfl
  | cons call calls ih =>
    have hcall := h call (List.mem_cons_self ..)
    have hrest := ih fun c hc => h c (List.mem_cons_of_mem _ hc)
    have hallowed : Allowed call.rawdata ↔ call.command ∉ ctlBlocked := by rw [Allowed, hcall]
    rw [List.map_cons, List.filterMap_cons, List.filter_cons, hrest]
    by_cases hcmd : call.command ∈ ctlBlocked
    · simp [pcat_pm_ctl_cmd_exec, hallowed, hcmd]
    · simp [pcat_pm_ctl_cmd_exec, hallowed, hcmd]

/-- The frames that a reader finds in some bytes, passing over what is none. -/
def FramesOf (bs : List Byte) (frames : List (List Byte)) : Prop :=
  ∃ os rest, Scans parseAt bs os rest ∧ frames = (executed os).map Call.rawdata

/-- The forwarded frames of a write are the allowed ones among the frames that its first 4096
bytes hold once the first frame has been patched, if these bytes open with a frame. -/
lemma forwarded_eq (write_framenum : UInt16) (buffer : List Byte) :
    (¬ Opens (buffer.take PCAT_PM_BUFFER_SIZE) →
      (pcat_pm_ctl_dev_write write_framenum buffer).forwarded = []) ∧
    (Opens (buffer.take PCAT_PM_BUFFER_SIZE) → ∃ frames,
      FramesOf (patched write_framenum (buffer.take PCAT_PM_BUFFER_SIZE)) frames ∧
      (∀ raw ∈ frames, IsFrame raw) ∧
      (pcat_pm_ctl_dev_write write_framenum buffer).forwarded = frames.filter (Allowed ·)) := by
  simp only [pcat_pm_ctl_dev_write, Opens]
  set ctl_read_buffer := buffer.take PCAT_PM_BUFFER_SIZE with hbuffer
  constructor
  · intro hnot
    split_ifs with hshort hlong
    · rfl
    · rfl
    · omega
  · rintro ⟨hlong, hfit⟩
    rw [if_neg (by omega), if_neg (by omega)]
    have hplen : (patched write_framenum ctl_read_buffer).length = ctl_read_buffer.length := by
      have hn : 3 + (le16 write_framenum).length ≤ ctl_read_buffer.length := by
        rw [length_le16]
        omega
      rw [patched, length_splice, length_splice hn]
      rw [length_splice hn, length_le16]
      omega
    have hscan := receive_parse_scans (hlong.trans hplen.ge)
    set r := pcat_pm_uart_receive_parse (patched write_framenum ctl_read_buffer) with hr
    refine ⟨_, ⟨r.events, r.buffer, hscan, rfl⟩, ?_, ?_⟩
    · intro raw hraw
      obtain ⟨call, hcall, rfl⟩ := List.mem_map.mp hraw
      exact (isFrame_of_steps hscan.1 hcall).1
    · exact filterMap_ctl_cmd_exec fun call hcall => (isFrame_of_steps hscan.1 hcall).2

/-- A write of a frame, its checksum aside, and further frames forwards those that are allowed,
the first one with the number of the driver. -/
lemma forwarded_frames (write_framenum : UInt16) {frames : List (List Byte)} (h : Shaped raw)
    (hframes : ∀ q ∈ frames, IsFrame q)
    (hsize : (raw ++ frames.flatten).length ≤ PCAT_PM_BUFFER_SIZE) :
    (pcat_pm_ctl_dev_write write_framenum (raw ++ frames.flatten)).forwarded =
      (patched write_framenum raw :: frames).filter (Allowed ·) := by
  have hlen := h.length
  have hge := h.ge
  have htake : (raw ++ frames.flatten).take PCAT_PM_BUFFER_SIZE = raw ++ frames.flatten :=
    List.take_of_length_le hsize
  have hopens : Opens ((raw ++ frames.flatten).take PCAT_PM_BUFFER_SIZE) := by
    rw [htake, Opens, List.length_append, expectLen_append (by omega)]
    omega
  obtain ⟨found, ⟨os, rest, hscan, rfl⟩, -, hforward⟩ :=
    (forwarded_eq write_framenum (raw ++ frames.flatten)).2 hopens
  have hall : ∀ q ∈ patched write_framenum raw :: frames, IsFrame q := by
    intro q hq
    rcases List.mem_cons.mp hq with rfl | hq
    · exact (isFrame_patched write_framenum h).1
    · exact hframes q hq
  rw [htake, patched_append write_framenum h, ← List.flatten_cons] at hscan
  obtain ⟨rfl, -⟩ := hscan.unique (scans_frames hall)
  have hraw : (executed (execs (patched write_framenum raw :: frames))).map Call.rawdata =
      patched write_framenum raw :: frames := by
    rw [executed_execs, List.map_map]
    conv_rhs => rw [← List.map_id (patched write_framenum raw :: frames)]
    exact List.map_congr_left fun q hq => (hall q hq).rawdata_eq
  rw [hforward, hraw]

/-- The frames sent for messages, in one buffer or in any portions, are received as exactly these
messages with consecutive frame numbers, nothing is left and nothing is reported.  A write to the
control device forwards the allowed frames of the patched bytes, if it opens with a frame; a write
of whole frames forwards just the allowed ones of them; and whoever reads what is forwarded finds
these frames, and no command that is not allowed. -/
theorem frames_round_trip (write_framenum : UInt16) (ms : List Message)
    (hms : ∀ m ∈ ms, m.payload.length ≤ 512) (ctl_framenum : UInt16) (buffer : List Byte) :
    (pcat_pm_uart_receive_parse (sendFrames write_framenum ms).flatten =
        ⟨(sendFrames write_framenum ms).flatten.length, [],
          (delivered write_framenum ms).map .exec⟩ ∧
      ∀ portions, portions.flatten = (sendFrames write_framenum ms).flatten →
        Runs.run Receiver.arrive .probe portions =
          ⟨[], (delivered write_framenum ms).map .exec⟩) ∧
    let bytes := buffer.take PCAT_PM_BUFFER_SIZE
    let forwarded := (pcat_pm_ctl_dev_write ctl_framenum buffer).forwarded
    (¬ Opens bytes → forwarded = []) ∧
      (Opens bytes → ∃ frames, FramesOf (patched ctl_framenum bytes) frames ∧
        forwarded = frames.filter (Allowed ·)) ∧
      (∀ raw frames, buffer = raw ++ frames.flatten → buffer.length ≤ PCAT_PM_BUFFER_SIZE →
        Shaped raw → (∀ q ∈ frames, IsFrame q) →
        forwarded = (patched ctl_framenum raw :: frames).filter (Allowed ·)) ∧
      (∀ raw ∈ forwarded, IsFrame raw ∧ Allowed raw) ∧
      ∀ portions, portions.flatten = forwarded.flatten →
        Runs.run Receiver.arrive .probe portions = ⟨[], execs forwarded⟩ := by
  obtain ⟨hsent, hcalls⟩ := isFrame_sendFrames write_framenum hms
  have hexecs : execs (sendFrames write_framenum ms) =
      (delivered write_framenum ms).map .exec := by
    rw [← hcalls, execs, List.map_map]
    rfl
  obtain ⟨hclosed, hopen⟩ := forwarded_eq ctl_framenum buffer
  have hallowed : ∀ raw ∈ (pcat_pm_ctl_dev_write ctl_framenum buffer).forwarded,
      IsFrame raw ∧ Allowed raw := by
    intro raw hraw
    by_cases h : Opens (buffer.take PCAT_PM_BUFFER_SIZE)
    · obtain ⟨frames, -, hframes, heq⟩ := hopen h
      rw [heq] at hraw
      obtain ⟨hmem, hok⟩ := List.mem_filter.mp hraw
      exact ⟨hframes raw hmem, of_decide_eq_true hok⟩
    · rw [hclosed h] at hraw
      simp at hraw
  refine ⟨⟨?_, fun portions hsame => ?_⟩, hclosed, fun h => ?_, ?_, hallowed,
    fun portions hsame => ?_⟩
  · rw [receive_parse_frames hsent, hexecs]
  · rw [arrive_frames hsent hsame, hexecs]
  · obtain ⟨frames, hof, -, heq⟩ := hopen h
    exact ⟨frames, hof, heq⟩
  · rintro raw frames rfl hsize hraw hframes
    exact forwarded_frames ctl_framenum hraw hframes hsize
  · exact arrive_frames (fun raw hraw => (hallowed raw hraw).1) hsame

/-- Two messages whose frame numbers wrap, and a write to the control device. -/
theorem frames_round_trip_wrap :
    pcat_pm_uart_receive_parse
        (sendFrames 0xFFFF [⟨0x3, [], true⟩, ⟨0x17, [0xA5, 0x5A], false⟩]).flatten =
      ⟨28, [], (delivered 0xFFFF [⟨0x3, [], true⟩, ⟨0x17, [0xA5, 0x5A], false⟩]).map .exec⟩ ∧
    (pcat_pm_ctl_dev_write 5 (sendFrames 0 [⟨0x3, [], true⟩, ⟨0xF, [], false⟩]).flatten).forwarded =
      sendFrames 5 [⟨0x3, [], true⟩] := by
  have h := frames_round_trip 0xFFFF [⟨0x3, [], true⟩, ⟨0x17, [0xA5, 0x5A], false⟩]
    (by decide) 5 (sendFrames 0 [⟨0x3, [], true⟩, ⟨0xF, [], false⟩]).flatten
  refine ⟨h.1.1, by decide +kernel⟩

/-- A frame with a wrong checksum is no valid frame, and is forwarded with the right one; a valid
frame behind a byte that starts none is not forwarded. -/
theorem ctl_write_not_exact :
    (∃ frames, FramesOf [0xA5, 0x01, 0x81, 0, 0, 3, 0, 3, 0, 0, 0, 0, 0x5A] frames ∧
      (pcat_pm_ctl_dev_write 0 [0xA5, 0x01, 0x81, 0, 0, 3, 0, 3, 0, 0, 0, 0, 0x5A]).forwarded ≠
        frames.filter (Allowed ·)) ∧
    ∃ frames, FramesOf (0 :: (sendFrames 0 [⟨0x3, [], false⟩]).flatten) frames ∧
      (pcat_pm_ctl_dev_write 0 (0 :: (sendFrames 0 [⟨0x3, [], false⟩]).flatten)).forwarded ≠
        frames.filter (Allowed ·) := by
  refine ⟨⟨_, ⟨_, _, receive_parse_scans (by decide +kernel), rfl⟩, by decide +kernel⟩,
    ⟨_, ⟨_, _, receive_parse_scans (by decide +kernel), rfl⟩, by decide +kernel⟩⟩

end Pcat
