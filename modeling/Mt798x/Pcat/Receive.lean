import Mt798x.Lib.Runs
import Mt798x.Pcat.Uart

/-!
# Bytes from the serial port

`pcat_pm_uart_serdev_receive_buf` appends what arrives to the read buffer and parses the buffer.
What it executes is a scan of all bytes so far, however they were cut into calls, as long as every
call brings no more than the buffer has room for.  A call that brings more sets `read_buffer_used`
to the size of the buffer before it takes the difference by which it advances: it advances by
nothing, copies the same bytes again in the next turn, and never ends when it brings more than
4096 bytes.
-/

namespace Pcat

open Bytes Scanner

/-! ## The call -/

/-- The part of `struct pcat_pm_data` the receiver works on: the used part of `read_buffer`, and
what the parser has done so far. -/
structure Receiver where
  read_buffer : List Byte
  events : List Event
  deriving DecidableEq, Repr

/-- The receiver after `pcat_pm_probe`. -/
def Receiver.probe : Receiver := ⟨[], []⟩

/-- The commands a receiver has executed. -/
def executed (events : List Event) : List Call :=
  events.filterMap fun e => match e with
    | .exec call => some call
    | _ => none

/-- The copies of a call, with the offsets in `read_buffer` and in the bytes of the call. -/
inductive Access where
  | memcpy (dst src len : ℕ)
  | memmove (dst src len : ℕ)
  deriving DecidableEq, Repr

/-- The copy stays in `read_buffer`. -/
def Access.InBuffer : Access → Prop
  | .memcpy dst _ len => dst + len ≤ PCAT_PM_BUFFER_SIZE
  | .memmove dst src len => dst + len ≤ PCAT_PM_BUFFER_SIZE ∧ src + len ≤ PCAT_PM_BUFFER_SIZE

/-- The positions of the bytes of a call that entered the buffer, one after the other. -/
def entered (accesses : List Access) : List ℕ :=
  accesses.flatMap fun a => match a with
    | .memcpy _ src len => List.range' src len
    | .memmove _ _ _ => []

/-- One turn of the loop: the copy of `len` bytes from `buf + used_size` behind what the buffer
holds, and the parser. -/
def Receiver.turn (pm : Receiver) (buf : List Byte) (used_size len : ℕ) :
    Receiver × List Access :=
  let filled := pm.read_buffer ++ slice buf used_size len
  let r := pcat_pm_uart_receive_parse filled
  (⟨r.buffer, pm.events ++ r.events⟩,
    .memcpy pm.read_buffer.length used_size len ::
      if r.used_size > 0 then [.memmove 0 r.used_size (filled.length - r.used_size)] else [])

/-- The loop of `pcat_pm_uart_serdev_receive_buf`; `none` when it has not ended after `fuel`
turns. -/
def receiveLoop (buf : List Byte) :
    ℕ → Receiver → ℕ → List Access → Option (Receiver × List Access)
  | 0, _, _, _ => none
  | fuel + 1, pm, used_size, accesses =>
    if used_size < buf.length then
      if pm.read_buffer.length + buf.length - used_size > PCAT_PM_BUFFER_SIZE then
        let r := pm.turn buf used_size (PCAT_PM_BUFFER_SIZE - pm.read_buffer.length)
        -- the new value is stored before the difference is taken
        let read_buffer_used := PCAT_PM_BUFFER_SIZE
        receiveLoop buf fuel r.1 (used_size + (PCAT_PM_BUFFER_SIZE - read_buffer_used))
          (accesses ++ r.2)
      else
        let r := pm.turn buf used_size (buf.length - used_size)
        receiveLoop buf fuel r.1 (used_size + (buf.length - used_size)) (accesses ++ r.2)
    else some (pm, accesses)

/-- `pcat_pm_uart_serdev_receive_buf`, and the copies it made. -/
def pcat_pm_uart_serdev_receive_buf (fuel : ℕ) (pm : Receiver) (buf : List Byte) :
    Option (Receiver × List Access) :=
  receiveLoop buf fuel pm 0 []

/-! ## Deliveries -/

/-- A stream is delivered in calls: every call ends, each of its bytes enters the buffer exactly
once, and no copy leaves the buffer. -/
inductive Delivers : Receiver → List (List Byte) → Receiver → Prop where
  | nil (pm : Receiver) : Delivers pm [] pm
  | cons {pm pm' pm'' : Receiver} {buf : List Byte} {bufs : List (List Byte)} {fuel : ℕ}
      {accesses : List Access} :
      pcat_pm_uart_serdev_receive_buf fuel pm buf = some (pm', accesses) →
      entered accesses = List.range buf.length → (∀ a ∈ accesses, a.InBuffer) →
      Delivers pm' bufs pm'' → Delivers pm (buf :: bufs) pm''

/-- Two ways to cut a stream into calls make no difference. -/
def CutsAgree (bufs bufs' : List (List Byte)) : Prop :=
  ∃ pm pm', Delivers .probe bufs pm ∧ Delivers .probe bufs' pm' ∧
    executed pm.events = executed pm'.events ∧ pm.read_buffer = pm'.read_buffer

/-! ## Calls that fit -/

/-- A call whose bytes fit behind what the buffer holds: one turn, or none without bytes. -/
def Receiver.arrive (pm : Receiver) (buf : List Byte) : Receiver :=
  if buf = [] then pm
  else
    let r := pcat_pm_uart_receive_parse (pm.read_buffer ++ buf)
    ⟨r.buffer, pm.events ++ r.events⟩

/-- The bytes of the call fit into the free room of the buffer. -/
def Receiver.HasRoom (pm : Receiver) (buf : List Byte) : Prop :=
  pm.read_buffer.length + buf.length ≤ PCAT_PM_BUFFER_SIZE

instance (pm : Receiver) (buf : List Byte) : Decidable (pm.HasRoom buf) :=
  inferInstanceAs (Decidable (_ ≤ _))

/-- Every call fits into the room it meets. -/
def Fits (bufs : List (List Byte)) : Prop :=
  Runs.AllSteps Receiver.arrive Receiver.HasRoom .probe bufs

instance (bufs : List (List Byte)) : Decidable (Fits bufs) :=
  inferInstanceAs (Decidable (Runs.AllSteps _ _ _ _))

/-- The bytes in the buffer when the last call has put its own there. -/
def lastFilled (bufs : List (List Byte)) : List Byte :=
  (Runs.run Receiver.arrive .probe bufs.dropLast).read_buffer ++ bufs.getLast?.getD []

/-- Bytes that start no frame, too few for the parser to look at them. -/
def Stuck (filled : List Byte) : Prop :=
  filled.length < 13 ∧ ∃ b, filled.head? = some b ∧ b ≠ 0xA5

instance (filled : List Byte) : Decidable (Stuck filled) :=
  decidable_of_iff (filled.length < 13 ∧ ∃ b ∈ filled.head?, b ≠ 0xA5) Iff.rfl

/-- The buffer holds what the scan of the stream has left, or too little to look at. -/
structure Receiver.Holds (pm : Receiver) (stream : List Byte) : Prop where
  steps : Steps parseAt stream pm.events pm.read_buffer
  settled : parseAt pm.read_buffer = .wait ∨ pm.read_buffer.length < 13

namespace Receiver

variable {pm pm' : Receiver} {stream buf : List Byte}

lemma holds_probe : Holds .probe [] := ⟨.refl [], Or.inl rfl⟩

lemma Holds.length_lt (h : pm.Holds stream) : pm.read_buffer.length < 525 := by
  rcases h.settled with hwait | hshort
  · exact length_of_wait hwait
  · omega

lemma arrive_of_ne (h : buf ≠ []) : pm.arrive buf =
    ⟨(pcat_pm_uart_receive_parse (pm.read_buffer ++ buf)).buffer,
      pm.events ++ (pcat_pm_uart_receive_parse (pm.read_buffer ++ buf)).events⟩ := if_neg h

lemma settled_receive_parse (filled : List Byte) :
    parseAt (pcat_pm_uart_receive_parse filled).buffer = .wait ∨
      (pcat_pm_uart_receive_parse filled).buffer.length < 13 := by
  by_cases h : filled.length < 13
  · rw [receive_parse_of_short h]
    exact Or.inr h
  · exact Or.inl (receive_parse_scans (by omega)).2

lemma Holds.arrive (h : pm.Holds stream) (buf : List Byte) :
    (pm.arrive buf).Holds (stream ++ buf) := by
  by_cases hbuf : buf = []
  · rw [Receiver.arrive, if_pos hbuf, hbuf, List.append_nil]
    exact h
  · rw [arrive_of_ne hbuf]
    exact ⟨(h.steps.append parseAt_lawful buf).trans (receive_parse_steps _),
      settled_receive_parse _⟩

lemma Holds.run (h : pm.Holds stream) (bufs : List (List Byte)) :
    (Runs.run Receiver.arrive pm bufs).Holds (stream ++ bufs.flatten) := by
  induction bufs generalizing pm stream with
  | nil => simpa using h
  | cons buf bufs ih =>
    rw [Runs.run_cons, List.flatten_cons, ← List.append_assoc]
    exact ih (h.arrive buf)

end Receiver

section

variable {pm pm' : Receiver} {stream buf : List Byte} {used_size fuel : ℕ}
  {accesses accesses' : List Access}

lemma entered_append (a b : List Access) : entered (a ++ b) = entered a ++ entered b :=
  List.flatMap_append

lemma entered_turn (pm : Receiver) (buf : List Byte) (used_size len : ℕ) :
    entered (pm.turn buf used_size len).2 = List.range' used_size len := by
  simp only [Receiver.turn]
  split <;> simp [entered]

lemma inBuffer_turn {len : ℕ} (h : pm.read_buffer.length + len ≤ PCAT_PM_BUFFER_SIZE) :
    ∀ a ∈ (pm.turn buf used_size len).2, a.InBuffer := by
  have hslice : (slice buf used_size len).length ≤ len := by
    rw [slice, List.length_take]
    exact Nat.min_le_left _ _
  intro a ha
  simp only [Receiver.turn, List.mem_cons] at ha
  rcases ha with rfl | ha
  · exact h
  · split at ha
    · have hle := (receive_parse_buffer (pm.read_buffer ++ slice buf used_size len)).1
      obtain rfl := List.mem_singleton.mp ha
      simp only [Access.InBuffer, List.length_append] at hle ⊢
      omega
    · simp at ha

lemma receive_buf_of_hasRoom (h : pm.HasRoom buf) : ∃ accesses,
    pcat_pm_uart_serdev_receive_buf 2 pm buf = some (pm.arrive buf, accesses) ∧
      entered accesses = List.range buf.length ∧ ∀ a ∈ accesses, a.InBuffer := by
  by_cases hbuf : buf = []
  · refine ⟨[], ?_, ?_, by simp⟩
    · rw [hbuf]
      rfl
    · rw [hbuf]
      rfl
  · have hpos : 0 < buf.length := List.length_pos_iff.mpr hbuf
    have hroom : ¬ pm.read_buffer.length + buf.length - 0 > PCAT_PM_BUFFER_SIZE := by
      simp only [Receiver.HasRoom] at h
      omega
    have hall : slice buf 0 (buf.length - 0) = buf := by
      rw [slice, List.drop_zero, Nat.sub_zero, List.take_length]
    refine ⟨(pm.turn buf 0 (buf.length - 0)).2, ?_, ?_, inBuffer_turn h⟩
    · rw [pcat_pm_uart_serdev_receive_buf, receiveLoop, if_pos hpos, if_neg hroom]
      simp only [receiveLoop]
      rw [if_neg (by omega), Receiver.arrive_of_ne hbuf, List.nil_append]
      simp only [Receiver.turn, hall]
    · rw [entered_turn, Nat.sub_zero, List.range_eq_range']

lemma receiveLoop_mono {r : Receiver × List Access}
    (h : receiveLoop buf fuel pm used_size accesses = some r) (k : ℕ) :
    receiveLoop buf (fuel + k) pm used_size accesses = some r := by
  induction fuel generalizing pm used_size accesses with
  | zero => cases h
  | succ fuel ih =>
    rw [show fuel + 1 + k = fuel + k + 1 by omega]
    simp only [receiveLoop] at h ⊢
    split_ifs at h ⊢ with hlt hroom
    · exact ih h
    · exact ih h
    · exact h

lemma receive_buf_unique {fuel' : ℕ} {r r' : Receiver × List Access}
    (h : pcat_pm_uart_serdev_receive_buf fuel pm buf = some r)
    (h' : pcat_pm_uart_serdev_receive_buf fuel' pm buf = some r') : r = r' := by
  have h1 := receiveLoop_mono h fuel'
  have h2 := receiveLoop_mono h' fuel
  rw [Nat.add_comm, h1] at h2
  exact Option.some.inj h2

lemma length_entered_of_receiveLoop (hbuf : 0 < buf.length)
    (h : receiveLoop buf fuel pm 0 accesses = some (pm', accesses')) :
    (entered accesses).length + buf.length ≤ (entered accesses').length := by
  induction fuel generalizing pm accesses with
  | zero => cases h
  | succ fuel ih =>
    simp only [receiveLoop, if_pos hbuf] at h
    split_ifs at h with hroom
    · have := ih h
      rw [entered_append, List.length_append] at this
      omega
    · cases fuel with
      | zero => cases h
      | succ fuel =>
        rw [receiveLoop, if_neg (by omega)] at h
        cases h
        rw [entered_append, entered_turn, List.length_append, List.length_range']
        omega

/-- A call that does not fit ends never, or after copying some bytes more than once. -/
lemma not_entered_of_full (hheld : pm.read_buffer.length < PCAT_PM_BUFFER_SIZE)
    (hfull : ¬ pm.HasRoom buf)
    (h : pcat_pm_uart_serdev_receive_buf fuel pm buf = some (pm', accesses)) :
    entered accesses ≠ List.range buf.length := by
  have hover : pm.read_buffer.length + buf.length > PCAT_PM_BUFFER_SIZE := by
    simpa [Receiver.HasRoom] using hfull
  have hpos : 0 < buf.length := by omega
  cases fuel with
  | zero => cases h
  | succ fuel =>
    rw [pcat_pm_uart_serdev_receive_buf, receiveLoop, if_pos hpos, if_pos (by omega)] at h
    have hlen := length_entered_of_receiveLoop hpos h
    rw [List.nil_append, entered_turn, List.length_range'] at hlen
    intro heq
    rw [heq, List.length_range] at hlen
    omega

end

/-! ## Deliveries that fit -/

variable {pm pm' : Receiver} {stream : List Byte} {bufs bufs' : List (List Byte)}

lemma delivers_of_fits
    (h : Runs.AllSteps Receiver.arrive Receiver.HasRoom pm bufs) :
    Delivers pm bufs (Runs.run Receiver.arrive pm bufs) := by
  induction bufs generalizing pm with
  | nil => exact .nil pm
  | cons buf bufs ih =>
    obtain ⟨accesses, hret, hentered, hin⟩ := receive_buf_of_hasRoom h.1
    exact .cons hret hentered hin (ih h.2)

lemma fits_of_delivers (hpm : pm.Holds stream) (h : Delivers pm bufs pm') :
    Runs.AllSteps Receiver.arrive Receiver.HasRoom pm bufs ∧
      pm' = Runs.run Receiver.arrive pm bufs := by
  induction h generalizing stream with
  | nil pm => exact ⟨trivial, rfl⟩
  | @cons pm mid pm'' buf bufs fuel accesses hret hentered _ _ ih =>
    have hroom : pm.HasRoom buf := by
      by_contra hfull
      have hheld : pm.read_buffer.length < PCAT_PM_BUFFER_SIZE :=
        lt_trans hpm.length_lt (by decide)
      exact not_entered_of_full hheld hfull hret hentered
    obtain ⟨accesses', hret', -, -⟩ := receive_buf_of_hasRoom hroom
    have hmid : mid = pm.arrive buf := congrArg Prod.fst (receive_buf_unique hret hret')
    subst hmid
    obtain ⟨hfits, hrun⟩ := ih (hpm.arrive buf)
    exact ⟨⟨hroom, hfits⟩, hrun⟩

lemma silent_of_short {xs rest : List Byte} {os : List Event} (hshort : xs.length < 13)
    (h : Steps parseAt xs os rest) : os = [] := by
  induction h with
  | refl xs => rfl
  | @pass xs n out os rest hlook _ ih =>
    have hout : out = [] := by
      cases xs with
      | nil => cases hlook
      | cons b xs =>
        simp only [parseAt, if_pos hshort] at hlook
        split_ifs at hlook
        cases hlook
        rfl
    have hrest : os = [] := ih (by rw [List.length_drop]; omega)
    rw [hout, hrest, List.append_nil]

lemma Receiver.Holds.events_eq {os : List Event} {rest : List Byte} (h : pm.Holds stream)
    (hscan : Scans parseAt stream os rest) : pm.events = os := by
  obtain ⟨os', rfl, hrest⟩ := h.steps.resume hscan
  rcases h.settled with hwait | hshort
  · rw [(hrest.of_wait hwait).1, List.append_nil]
  · rw [silent_of_short hshort hrest.1, List.append_nil]

lemma Receiver.Holds.buffer_eq {os : List Event} {rest : List Byte} (h : pm.Holds stream)
    (hscan : Scans parseAt stream os rest) (hwait : parseAt pm.read_buffer = .wait) :
    pm.read_buffer = rest := by
  obtain ⟨os', rfl, hrest⟩ := h.steps.resume hscan
  exact (hrest.of_wait hwait).2.symm

/-- In the end the buffer is stuck as the last call has filled it, or it waits. -/
lemma final_buffer (bufs : List (List Byte)) :
    let pm := Runs.run Receiver.arrive .probe bufs
    (Stuck (lastFilled bufs) → pm.read_buffer = lastFilled bufs) ∧
      (¬ Stuck (lastFilled bufs) → parseAt pm.read_buffer = .wait) := by
  have hwaits : ∀ {x : List Byte}, x.length < 13 → ¬ Stuck x → parseAt x = .wait := by
    intro x hshort hnot
    refine (wait_iff_of_short hshort).mpr fun b hb => ?_
    by_contra hne
    exact hnot ⟨hshort, b, hb, hne⟩
  rcases List.eq_nil_or_concat bufs with rfl | ⟨pre, buf, rfl⟩
  · exact ⟨fun _ => rfl, fun _ => rfl⟩
  · have hfilled : lastFilled (pre ++ [buf]) =
        (Runs.run Receiver.arrive .probe pre).read_buffer ++ buf := by simp [lastFilled]
    have hheld := Receiver.holds_probe.run pre
    simp only [List.concat_eq_append, Runs.run_concat, hfilled]
    set pm := Runs.run Receiver.arrive .probe pre with hpm
    by_cases hbuf : buf = []
    · rw [Receiver.arrive, if_pos hbuf, hbuf, List.append_nil]
      refine ⟨fun _ => rfl, fun hnot => ?_⟩
      exact hheld.settled.elim id fun hshort => hwaits hshort hnot
    · rw [Receiver.arrive_of_ne hbuf]
      by_cases hshort : (pm.read_buffer ++ buf).length < 13
      · rw [receive_parse_of_short hshort]
        exact ⟨fun _ => rfl, hwaits hshort⟩
      · exact ⟨fun hstuck => absurd hstuck.1 hshort,
          fun _ => (receive_parse_scans (by omega)).2⟩

lemma Stuck.not_wait {x : List Byte} (h : Stuck x) : parseAt x ≠ .wait := by
  obtain ⟨hshort, b, hb, hne⟩ := h
  exact fun hwait => hne ((wait_iff_of_short hshort).mp hwait b hb)

/-- Reception does not depend on how the stream is cut into calls exactly when every call fits
into the free room of the buffer it meets, and the bytes of the last calls, with what stood in
front of them, are not too few to be looked at, or in both cuts equally many. -/
theorem cutsAgree_iff (hstream : bufs.flatten = bufs'.flatten) :
    CutsAgree bufs bufs' ↔ Fits bufs ∧ Fits bufs' ∧
      (Stuck (lastFilled bufs) ↔ Stuck (lastFilled bufs')) ∧
      (Stuck (lastFilled bufs) → (lastFilled bufs).length = (lastFilled bufs').length) := by
  obtain ⟨hstuck, hnot⟩ := final_buffer bufs
  obtain ⟨hstuck', hnot'⟩ := final_buffer bufs'
  constructor
  · rintro ⟨pm, pm', hdel, hdel', -, hbuffer⟩
    obtain ⟨hfits, rfl⟩ := fits_of_delivers Receiver.holds_probe hdel
    obtain ⟨hfits', rfl⟩ := fits_of_delivers Receiver.holds_probe hdel'
    refine ⟨hfits, hfits', ⟨fun hs => ?_, fun hs => ?_⟩, fun hs => ?_⟩
    · by_contra hs'
      have hwait := hnot' hs'
      rw [← hbuffer, hstuck hs] at hwait
      exact hs.not_wait hwait
    · by_contra hs'
      have hwait := hnot hs'
      rw [hbuffer, hstuck' hs] at hwait
      exact hs.not_wait hwait
    · by_cases hs' : Stuck (lastFilled bufs')
      · rw [← hstuck hs, ← hstuck' hs', hbuffer]
      · have hwait := hnot' hs'
        rw [← hbuffer, hstuck hs] at hwait
        exact absurd hwait hs.not_wait
  · rintro ⟨hfits, hfits', hiff, hlen⟩
    have hholds := Receiver.holds_probe.run bufs
    have hholds' := Receiver.holds_probe.run bufs'
    rw [← hstream] at hholds'
    obtain ⟨os, rest, hscan⟩ := exists_scans parseAt_lawful ([] ++ bufs.flatten)
    refine ⟨_, _, delivers_of_fits hfits, delivers_of_fits hfits', ?_, ?_⟩
    · rw [hholds.events_eq hscan, hholds'.events_eq hscan]
    · by_cases hs : Stuck (lastFilled bufs)
      · -- both buffers are suffixes of the stream, and equally long
        have hsuf := hholds.steps.suffix
        have hsuf' := hholds'.steps.suffix
        have heq : (Runs.run Receiver.arrive .probe bufs).read_buffer.length =
            (Runs.run Receiver.arrive .probe bufs').read_buffer.length := by
          rw [hstuck hs, hstuck' (hiff.mp hs), hlen hs]
        exact (List.suffix_of_suffix_length_le hsuf hsuf' heq.le).eq_of_length heq
      · have hs' : ¬ Stuck (lastFilled bufs') := fun h => hs (hiff.mpr h)
        rw [hholds.buffer_eq hscan (hnot hs), hholds'.buffer_eq hscan (hnot' hs')]

/-- A frame that arrives in one call, or cut behind its fifth byte. -/
theorem cutsAgree_frame :
    CutsAgree [[0xA5, 0x01, 0x81, 0, 0], [3, 0, 1, 0, 0, 0xDB, 0x0C, 0x5A]]
      [(pcat_pm_uart_write_data 0 1 [] false).1] := by
  have hsame : [[0xA5, 0x01, 0x81, 0, 0], [3, 0, 1, 0, 0, 0xDB, 0x0C, 0x5A]].flatten =
      [(pcat_pm_uart_write_data 0 1 [] false).1].flatten := by decide +kernel
  exact (cutsAgree_iff hsame).mpr (by decide +kernel)

lemma receiveLoop_never {buf : List Byte} (hlong : PCAT_PM_BUFFER_SIZE < buf.length) (fuel : ℕ)
    (pm : Receiver) (accesses : List Access) : receiveLoop buf fuel pm 0 accesses = none := by
  induction fuel generalizing pm accesses with
  | zero => rfl
  | succ fuel ih =>
    rw [receiveLoop, if_pos (by omega), if_pos (by omega)]
    exact ih _ _

/-- One call of 4097 bytes does not end; two calls of 4096 bytes and one byte do. -/
theorem cut_full_call :
    [List.replicate 4097 (0 : Byte)].flatten = [List.replicate 4096 0, [0]].flatten ∧
      (∀ fuel, pcat_pm_uart_serdev_receive_buf fuel .probe (List.replicate 4097 0) = none) ∧
      ¬ CutsAgree [List.replicate 4097 0] [List.replicate 4096 0, [0]] := by
  have hnever : ∀ fuel,
      pcat_pm_uart_serdev_receive_buf fuel .probe (List.replicate 4097 0) = none := by
    intro fuel
    exact receiveLoop_never (by rw [List.length_replicate]; decide) fuel _ _
  refine ⟨?_, hnever, ?_⟩
  · simp only [List.flatten_cons, List.flatten_nil, List.append_nil]
    exact List.replicate_succ'
  · rintro ⟨pm, pm', hdel, -⟩
    cases hdel with
    | cons hret =>
      rw [hnever] at hret
      cases hret

end Pcat
