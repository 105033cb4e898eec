import Mt798x.Lib.Guard
import Mt798x.Pcat.Control

/-!
# The queue of the control device

Frames that the driver does not handle itself are forwarded to the readers of the control device
through a buffer of 4096 bytes, the newest bytes staying.  A step of the model is a section under
`ctl_mutex`; a reader passes the test of `ctl_write_buffer_ready` in a step before its section, so
any number of them may be between the two.

The buffer always holds the newest 4096 bytes of the forwarded stream that are behind the last byte
that was read, and is ready exactly if there are any (`queue_holds`).
-/

namespace Pcat

open Bytes Guard Scanner

/-! ## Checked copies -/

/-- `memmove(buf, buf + off, n)`: the move lies inside the buffer. -/
def moveDown (buf : List Byte) (off n : ℤ) : Except Fault (List Byte) :=
  if 0 ≤ off ∧ 0 ≤ n ∧ off + n ≤ buf.length then
    .ok (splice buf 0 ((buf.drop off.toNat).take n.toNat))
  else .error .outside

/-- `memcpy(buf + off, data, len)`: the copy lies inside the buffer. -/
def copyTo (buf : List Byte) (off : ℤ) (data : List Byte) : Except Fault (List Byte) :=
  if 0 ≤ off ∧ off + data.length ≤ buf.length then .ok (splice buf off.toNat data)
  else .error .outside

/-! ## The queue -/

/-- The fields of the queue, and what the model records: the bytes that were forwarded, the place
behind the last of them that was read, and what the readers got. -/
structure Ctl where
  ctl_write_buffer : List Byte
  ctl_write_buffer_used : ℕ
  ctl_write_buffer_ready : Bool
  /-- the sizes of the reads that have found the buffer ready -/
  readers : List ℕ
  stream : List Byte
  seen : ℕ
  given : List (List Byte)
  deriving DecidableEq

/-- The queue after the probe. -/
def Ctl.probe : Ctl := ⟨List.replicate PCAT_PM_BUFFER_SIZE 0, 0, false, [], [], 0, []⟩

def PCAT_PM_COMMAND_DEVICE_MOVEMENT : UInt16 := 0x95

/-- The commands that the driver handles itself. -/
def uartHandled : List UInt16 :=
  [PCAT_PM_COMMAND_HOST_REQUEST_SHUTDOWN_ACK, PCAT_PM_COMMAND_PMU_REQUEST_SHUTDOWN,
    PCAT_PM_COMMAND_STATUS_REPORT, PCAT_PM_COMMAND_DATE_TIME_SYNC_ACK,
    PCAT_PM_COMMAND_DEVICE_MOVEMENT]

/-- The section of the default branch of `pcat_pm_uart_cmd_exec`. -/
def enqueue (pm : Ctl) (rawdata : List Byte) : Except Fault Ctl := do
  let used : ℤ := pm.ctl_write_buffer_used
  let size : ℤ := PCAT_PM_BUFFER_SIZE
  let pm ←
    if size < used + rawdata.length then do
      let overflow_size := used + rawdata.length - size
      let buffer ← moveDown pm.ctl_write_buffer overflow_size (size - overflow_size)
      let buffer ← copyTo buffer (size - rawdata.length) rawdata
      .ok { pm with ctl_write_buffer := buffer, ctl_write_buffer_used := PCAT_PM_BUFFER_SIZE }
    else do
      let buffer ← copyTo pm.ctl_write_buffer used rawdata
      .ok { pm with
        ctl_write_buffer := buffer
        ctl_write_buffer_used := pm.ctl_write_buffer_used + rawdata.length }
  .ok { pm with ctl_write_buffer_ready := true, stream := pm.stream ++ rawdata }

/-- `pcat_pm_uart_cmd_exec`, for what it does to the queue. -/
def pcat_pm_uart_cmd_exec (pm : Ctl) (call : Call) : Except Fault Ctl :=
  if call.dst ≠ 0x1 ∧ call.dst ≠ 0x80 ∧ call.dst ≠ 0xFF then .ok pm
  else if call.command ∈ uartHandled then .ok pm
  else enqueue pm call.rawdata

/-- The rest of the content moves to the front of the buffer. -/
def closeGap (buf : List Byte) (copy_size used : ℕ) : Except Fault (List Byte) :=
  if copy_size < used then moveDown buf copy_size (used - copy_size : ℤ) else .ok buf

/-- The section of `pcat_pm_ctl_dev_read`; `fault` is a failure of `copy_to_user`. -/
def dequeue (pm : Ctl) (count : ℕ) (fault : Bool) : Except Fault Ctl :=
  let used := pm.ctl_write_buffer_used
  if 0 < used then
    let copy_size := min count used
    let data := pm.ctl_write_buffer.take copy_size
    if fault then .ok pm
    else do
      let buffer ← closeGap pm.ctl_write_buffer copy_size used
      let left := used - copy_size
      .ok { pm with
        ctl_write_buffer := buffer
        ctl_write_buffer_used := left
        ctl_write_buffer_ready := if left = 0 then false else pm.ctl_write_buffer_ready
        seen := if copy_size = 0 then pm.seen else pm.stream.length - left
        given := pm.given ++ [data] }
  else .ok { pm with ctl_write_buffer_ready := false, given := pm.given ++ [[]] }

/-- What happens to the queue.  Every call of `pcat_pm_uart_cmd_exec` is one for a frame. -/
inductive CtlEvent where
  | uart (raw : { raw : List Byte // IsFrame raw })
  /-- a read that tests if the buffer is ready, when it starts or is woken up -/
  | enter (count : ℕ)
  /-- the section of one of the reads that found it ready -/
  | read (i : ℕ) (fault : Bool)

/-- One step. -/
def ctlStep (pm : Ctl) : CtlEvent → Except Fault Ctl
  | .uart raw => pcat_pm_uart_cmd_exec pm (callAt raw)
  | .enter count =>
    .ok (if pm.ctl_write_buffer_ready then { pm with readers := pm.readers ++ [count] } else pm)
  | .read i fault =>
    match pm.readers[i]? with
    | some count => dequeue { pm with readers := pm.readers.eraseIdx i } count fault
    | none => .ok pm

/-- A sequence of steps. -/
def runCtl (pm : Ctl) (es : List CtlEvent) : Except Fault Ctl := es.foldlM ctlStep pm

/-! ## What the queue holds -/

/-- The content of the queue. -/
def Ctl.content (pm : Ctl) : List Byte := pm.ctl_write_buffer.take pm.ctl_write_buffer_used

/-- The forwarded bytes behind the last one that was read. -/
def Ctl.unread (pm : Ctl) : List Byte := pm.stream.drop pm.seen

/-- The queue holds the longest suffix of at most 4096 bytes of what was not read, and is ready if it
is not empty. -/
structure Ctl.Holds (pm : Ctl) : Prop where
  used : pm.ctl_write_buffer_used ≤ PCAT_PM_BUFFER_SIZE
  content : pm.content = pm.unread.rtake PCAT_PM_BUFFER_SIZE
  ready : pm.ctl_write_buffer_ready = true ↔ pm.content ≠ []

/-- The invariant. -/
structure Ctl.Inv (pm : Ctl) : Prop where
  size : pm.ctl_write_buffer.length = PCAT_PM_BUFFER_SIZE
  seen : pm.seen ≤ pm.stream.length
  used : pm.ctl_write_buffer_used = min (pm.stream.length - pm.seen) PCAT_PM_BUFFER_SIZE
  content : pm.content = pm.unread.rtake PCAT_PM_BUFFER_SIZE
  ready : pm.ctl_write_buffer_ready = true ↔ 0 < pm.ctl_write_buffer_used

section Queue

variable {pm : Ctl} {raw : List Byte}

lemma length_content (h : pm.ctl_write_buffer.length = PCAT_PM_BUFFER_SIZE)
    (hused : pm.ctl_write_buffer_used ≤ PCAT_PM_BUFFER_SIZE) :
    pm.content.length = pm.ctl_write_buffer_used := by
  rw [Ctl.content, List.length_take, h, Nat.min_eq_left hused]

lemma Ctl.Inv.holds (h : pm.Inv) : pm.Holds := by
  have hused : pm.ctl_write_buffer_used ≤ PCAT_PM_BUFFER_SIZE := by
    rw [h.used]
    exact Nat.min_le_right _ _
  refine ⟨hused, h.content, h.ready.trans ?_⟩
  rw [← length_content h.size hused, List.length_pos_iff]

lemma moveDown_eq {buf : List Byte} {off n : ℕ} (h : off + n ≤ buf.length) :
    moveDown buf off n = .ok (splice buf 0 ((buf.drop off).take n)) := by
  rw [moveDown, if_pos (by omega)]
  rfl

lemma copyTo_eq {buf data : List Byte} {off : ℕ} (h : off + data.length ≤ buf.length) :
    copyTo buf off data = .ok (splice buf off data) := by
  rw [copyTo, if_pos (by omega)]
  rfl

lemma rtake_append (l raw : List Byte) (n : ℕ) (h : raw.length ≤ n) :
    (l ++ raw).rtake n = l.rtake (n - raw.length) ++ raw := by
  rw [List.rtake, List.rtake, List.length_append]
  rcases Nat.le_total (l.length + raw.length) n with hle | hle
  · have h0 : l.length + raw.length - n = 0 := by omega
    have h0' : l.length - (n - raw.length) = 0 := by omega
    rw [h0, h0', List.drop_zero, List.drop_zero]
  · rw [List.drop_append_of_le_length (by omega)]
    congr 2
    omega

lemma rtake_rtake (l : List Byte) {m n : ℕ} (h : m ≤ n) : (l.rtake n).rtake m = l.rtake m := by
  rw [List.rtake, List.rtake, List.rtake, List.drop_drop, List.length_drop]
  congr 1
  omega

lemma rtake_of_le {l : List Byte} {n : ℕ} (h : l.length ≤ n) : l.rtake n = l := by
  rw [List.rtake, Nat.sub_eq_zero_of_le h, List.drop_zero]

/-! ## Steps -/

lemma splice_end {buf data : List Byte} {off : ℕ} (h : off + data.length = buf.length) :
    splice buf off data = buf.take off ++ data := by
  rw [splice, List.drop_eq_nil_of_le h.ge, List.append_nil]

/-- The buffer when the frame does not fit behind the content: the content moves down. -/
lemma overflow_eq (hsize : pm.ctl_write_buffer.length = PCAT_PM_BUFFER_SIZE)
    (hused : pm.ctl_write_buffer_used ≤ PCAT_PM_BUFFER_SIZE) (hraw : raw.length ≤ PCAT_PM_BUFFER_SIZE)
    (hover : PCAT_PM_BUFFER_SIZE < pm.ctl_write_buffer_used + raw.length) :
    ∃ buffer, moveDown pm.ctl_write_buffer
          ((pm.ctl_write_buffer_used : ℤ) + raw.length - PCAT_PM_BUFFER_SIZE)
          (PCAT_PM_BUFFER_SIZE - ((pm.ctl_write_buffer_used : ℤ) + raw.length - PCAT_PM_BUFFER_SIZE)) =
        .ok buffer ∧
      copyTo buffer ((PCAT_PM_BUFFER_SIZE : ℤ) - raw.length) raw =
        .ok (pm.content.rtake (PCAT_PM_BUFFER_SIZE - raw.length) ++ raw) := by
  obtain ⟨off, hoff⟩ : ∃ off, off = pm.ctl_write_buffer_used + raw.length - PCAT_PM_BUFFER_SIZE :=
    ⟨_, rfl⟩
  have hoff' : (pm.ctl_write_buffer_used : ℤ) + raw.length - PCAT_PM_BUFFER_SIZE = off := by omega
  have hlen : (PCAT_PM_BUFFER_SIZE : ℤ) - off = (PCAT_PM_BUFFER_SIZE - off : ℕ) := by omega
  have hat : (PCAT_PM_BUFFER_SIZE : ℤ) - raw.length = (PCAT_PM_BUFFER_SIZE - raw.length : ℕ) := by
    omega
  rw [hoff', hlen, hat, moveDown_eq (by omega)]
  have hchunk : ((pm.ctl_write_buffer.drop off).take (PCAT_PM_BUFFER_SIZE - off)).length =
      PCAT_PM_BUFFER_SIZE - off := by
    rw [List.length_take, List.length_drop, hsize, Nat.min_self]
  have hmoved : (splice pm.ctl_write_buffer 0
      ((pm.ctl_write_buffer.drop off).take (PCAT_PM_BUFFER_SIZE - off))).length =
      PCAT_PM_BUFFER_SIZE := by
    rw [length_splice (by omega), hsize]
  refine ⟨_, rfl, ?_⟩
  rw [copyTo_eq (by rw [hmoved]; omega), splice_end (by rw [hmoved]; omega)]
  -- what stays are the last bytes of the content
  rw [splice, List.take_zero, List.nil_append, List.take_append_of_le_length (by omega),
    List.take_take, Nat.min_eq_left (by omega), List.rtake, length_content hsize hused, Ctl.content,
    List.drop_take]
  have hdrop : pm.ctl_write_buffer_used - (PCAT_PM_BUFFER_SIZE - raw.length) = off := by omega
  have htake : pm.ctl_write_buffer_used - off = PCAT_PM_BUFFER_SIZE - raw.length := by omega
  rw [hdrop, htake]

/-- A frame is put behind the content; the newest bytes stay. -/
lemma enqueue_inv (h : pm.Inv) (hraw : raw.length ≤ PCAT_PM_BUFFER_SIZE) (hne : 0 < raw.length) :
    ∃ pm', enqueue pm raw = .ok pm' ∧ pm'.Inv := by
  have hused := h.holds.used
  have hcontent := length_content h.size hused
  have hunread : (pm.stream ++ raw).drop pm.seen = pm.unread ++ raw :=
    List.drop_append_of_le_length h.seen
  have hlen : pm.unread.length = pm.stream.length - pm.seen := List.length_drop
  have hnewest : (pm.unread ++ raw).rtake PCAT_PM_BUFFER_SIZE =
      pm.content.rtake (PCAT_PM_BUFFER_SIZE - raw.length) ++ raw := by
    rw [rtake_append _ _ _ hraw, h.content, rtake_rtake _ (Nat.sub_le _ _)]
  have hmin := h.used
  have hseen := h.seen
  rw [enqueue]
  dsimp only
  by_cases hover : PCAT_PM_BUFFER_SIZE < pm.ctl_write_buffer_used + raw.length
  · obtain ⟨buffer, hmove, hcopy⟩ := overflow_eq h.size hused hraw hover
    rw [if_pos (by omega), hmove, ok_bind, hcopy, ok_bind, ok_bind]
    have hfull : (pm.content.rtake (PCAT_PM_BUFFER_SIZE - raw.length) ++ raw).length =
        PCAT_PM_BUFFER_SIZE := by
      rw [List.length_append, List.rtake, List.length_drop, hcontent]
      omega
    refine ⟨_, rfl, hfull, ?_, ?_, ?_, ?_⟩
    · show pm.seen ≤ (pm.stream ++ raw).length
      rw [List.length_append]
      omega
    · show PCAT_PM_BUFFER_SIZE = min ((pm.stream ++ raw).length - pm.seen) PCAT_PM_BUFFER_SIZE
      rw [List.length_append]
      omega
    · show (pm.content.rtake (PCAT_PM_BUFFER_SIZE - raw.length) ++ raw).take PCAT_PM_BUFFER_SIZE =
        ((pm.stream ++ raw).drop pm.seen).rtake PCAT_PM_BUFFER_SIZE
      rw [hunread, hnewest, List.take_of_length_le hfull.le]
    · exact iff_of_true rfl (show 0 < PCAT_PM_BUFFER_SIZE by decide)
  · rw [if_neg (by omega), copyTo_eq (by rw [h.size]; omega), ok_bind, ok_bind]
    refine ⟨_, rfl, ?_, ?_, ?_, ?_, ?_⟩
    · exact (length_splice (by rw [h.size]; omega)).trans h.size
    · show pm.seen ≤ (pm.stream ++ raw).length
      rw [List.length_append]
      omega
    · show pm.ctl_write_buffer_used + raw.length =
        min ((pm.stream ++ raw).length - pm.seen) PCAT_PM_BUFFER_SIZE
      rw [List.length_append]
      omega
    · show (splice pm.ctl_write_buffer pm.ctl_write_buffer_used raw).take
          (pm.ctl_write_buffer_used + raw.length) =
        ((pm.stream ++ raw).drop pm.seen).rtake PCAT_PM_BUFFER_SIZE
      rw [hunread, hnewest, rtake_of_le (by omega), splice]
      have hfront : (pm.ctl_write_buffer.take pm.ctl_write_buffer_used ++ raw).length =
          pm.ctl_write_buffer_used + raw.length := by
        rw [List.length_append, List.length_take, h.size, Nat.min_eq_left hused]
      rw [← hfront, List.take_left']
      · rfl
      · rfl
    · exact iff_of_true rfl (show 0 < pm.ctl_write_buffer_used + raw.length by omega)

lemma uart_cmd_exec_inv (h : pm.Inv) (hraw : IsFrame raw) :
    ∃ pm', pcat_pm_uart_cmd_exec pm (callAt raw) = .ok pm' ∧ pm'.Inv := by
  rw [pcat_pm_uart_cmd_exec]
  split
  · exact ⟨pm, rfl, h⟩
  · split
    · exact ⟨pm, rfl, h⟩
    · rw [hraw.rawdata_eq]
      have hlen := hraw.length
      have hle := hraw.le
      have hpos := hraw.length_pos
      exact enqueue_inv h (by rw [PCAT_PM_BUFFER_SIZE]; omega) (by omega)

/-- A read takes bytes from the front of the content. -/
lemma dequeue_inv (h : pm.Inv) (count : ℕ) (fault : Bool) :
    ∃ pm', dequeue pm count fault = .ok pm' ∧ pm'.Inv := by
  have hused := h.holds.used
  have hcontent := length_content h.size hused
  have hlen : pm.unread.length = pm.stream.length - pm.seen := List.length_drop
  have hmin := h.used
  have hseen := h.seen
  rw [dequeue]
  dsimp only
  by_cases hpos : 0 < pm.ctl_write_buffer_used
  · rw [if_pos hpos]
    cases fault with
    | true => exact ⟨pm, rfl, h⟩
    | false =>
      rw [if_neg Bool.false_ne_true]
      obtain ⟨k, hk⟩ : ∃ k, k = min count pm.ctl_write_buffer_used := ⟨_, rfl⟩
      rw [← hk]
      have hkle : k ≤ pm.ctl_write_buffer_used := by omega
      -- the rest of the content at the front of the buffer
      obtain ⟨buffer, hbuffer, hsize, hrest⟩ : ∃ buffer,
          closeGap pm.ctl_write_buffer k pm.ctl_write_buffer_used = .ok buffer ∧
          buffer.length = PCAT_PM_BUFFER_SIZE ∧
          buffer.take (pm.ctl_write_buffer_used - k) = pm.content.drop k := by
        rw [closeGap]
        have hdrop : pm.content.drop k =
            (pm.ctl_write_buffer.drop k).take (pm.ctl_write_buffer_used - k) := by
          rw [Ctl.content, List.drop_take]
        have hchunk : (pm.content.drop k).length = pm.ctl_write_buffer_used - k := by
          rw [List.length_drop, hcontent]
        by_cases hlt : k < pm.ctl_write_buffer_used
        · have hsub : (pm.ctl_write_buffer_used : ℤ) - k = (pm.ctl_write_buffer_used - k : ℕ) := by
            omega
          rw [if_pos hlt, hsub, moveDown_eq (by rw [h.size]; omega), ← hdrop]
          refine ⟨_, rfl, ?_, ?_⟩
          · rw [length_splice (by rw [hchunk, h.size]; omega), h.size]
          · rw [splice, List.take_zero, List.nil_append, ← hchunk, List.take_left']
            rfl
        · rw [if_neg hlt]
          refine ⟨_, rfl, h.size, ?_⟩
          have h0 : pm.ctl_write_buffer_used - k = 0 := by omega
          rw [h0, List.take_zero, List.drop_eq_nil_of_le (by omega)]
      rw [hbuffer, ok_bind]
      refine ⟨_, rfl, hsize, ?_, ?_, ?_, ?_⟩
      · show (if k = 0 then pm.seen else pm.stream.length - (pm.ctl_write_buffer_used - k)) ≤
          pm.stream.length
        split <;> omega
      · show pm.ctl_write_buffer_used - k = min (pm.stream.length -
          (if k = 0 then pm.seen else pm.stream.length - (pm.ctl_write_buffer_used - k))) _
        split <;> omega
      · show buffer.take (pm.ctl_write_buffer_used - k) = (pm.stream.drop
          (if k = 0 then pm.seen else pm.stream.length - (pm.ctl_write_buffer_used - k))).rtake _
        rw [hrest]
        split
        · rename_i h0
          rw [h0, List.drop_zero]
          exact h.content
        · have hin : (pm.stream.drop
              (pm.stream.length - (pm.ctl_write_buffer_used - k))).length ≤ PCAT_PM_BUFFER_SIZE := by
            rw [List.length_drop]
            omega
          rw [rtake_of_le hin, h.content, List.rtake, Ctl.unread, List.drop_drop, List.drop_drop,
            List.length_drop]
          congr 1
          omega
      · show (if pm.ctl_write_buffer_used - k = 0 then false else pm.ctl_write_buffer_ready) = true ↔
          0 < pm.ctl_write_buffer_used - k
        split
        · rename_i h0
          rw [h0]
          exact iff_of_false Bool.false_ne_true (lt_irrefl 0)
        · exact iff_of_true (h.ready.mpr hpos) (by omega)
  · rw [if_neg hpos]
    exact ⟨_, rfl, h.size, h.seen, h.used, h.content, iff_of_false Bool.false_ne_true hpos⟩

lemma ctlStep_inv (h : pm.Inv) (e : CtlEvent) : ∃ pm', ctlStep pm e = .ok pm' ∧ pm'.Inv := by
  cases e with
  | uart raw => exact uart_cmd_exec_inv h raw.2
  | enter count =>
    refine ⟨_, rfl, ?_⟩
    split
    · exact ⟨h.size, h.seen, h.used, h.content, h.ready⟩
    · exact h
  | read i fault =>
    simp only [ctlStep]
    split
    · rename_i count _
      have hinv : Ctl.Inv { pm with readers := pm.readers.eraseIdx i } :=
        ⟨h.size, h.seen, h.used, h.content, h.ready⟩
      exact dequeue_inv hinv count fault
    · exact ⟨pm, rfl, h⟩

end Queue

end Pcat
