import MtkHw.Lib.Loop
import MtkHw.Mux.Buffer

/-!
# Advanced mode: `gsm0710_advanced_buffer_get_frame`

The assembler looks for a start flag, skips further flags, and then takes the
stored octets one by one, undoing the escapes, until the closing flag.  What it
has got of a frame stays in the buffer (`adv_data`, `adv_found_esc`), so the
function goes on where it stopped when it is called again.

`advStep` is one step between two tests of the loops; `goto l_begin` is the step
back to `find`.
-/

namespace MtkHw.Mux

open Lib

/-- Where the assembler is in `gsm0710_advanced_buffer_get_frame`. -/
inductive AdvPc where
  | /-- At `l_begin`, at the test of the loop that finds the start flag. -/ find
  | /-- At the test of the loop that skips flags. -/ skip
  | /-- At the test of the loop that takes the octets of a frame. -/ scan
deriving DecidableEq, Repr

namespace GSM0710Buffer

/-- `buf->flag_found = 0`, and back to `l_begin`. -/
def giveUp (buf : GSM0710Buffer) : GSM0710Buffer := { buf with flagFound := false }

/-- `buf->flag_found = 0; buf->dropped_count++`, and back to `l_begin`. -/
def giveUpDropped (buf : GSM0710Buffer) : GSM0710Buffer :=
  { buf with flagFound := false, droppedCount := buf.droppedCount + 1 }

/-- A start flag has been found. -/
def startAdv (buf : GSM0710Buffer) : GSM0710Buffer :=
  { buf with flagFound := true, advData := [], advFoundEsc := false }

/-- Put the octet at the read pointer into `adv_data`, undoing an escape. -/
def takeAdv (buf : GSM0710Buffer) : GSM0710Buffer :=
  if buf.advFoundEsc then
    { buf with
      advData := buf.advData ++ [buf.head ^^^ gsm0710FrameAdvEscCopml], advFoundEsc := false }
  else if buf.head = gsm0710FrameAdvEsc then { buf with advFoundEsc := true }
  else { buf with advData := buf.advData ++ [buf.head] }

end GSM0710Buffer

/-- The frame in `adv_data`, if it is long enough and its checksum is good:
`none` for a short one, `some none` for a bad checksum. -/
def advFrame (advData : List UInt8) : Option (Option GSM0710Frame) :=
  if advData.length < 3 then none
  else
    let address := advData.getD 0 0
    let control := advData.getD 1 0
    let length := advData.length - 3
    let payload := (advData.drop 2).take length
    let fcs := crcLoop 0xFF [address, control]
    let fcs := if gsm0710FrameIs gsm0710TypeUi control then crcLoop fcs payload else fcs
    if crcStep fcs (advData.getD (advData.length - 1) 0) ≠ 0xCF then some none
    else some (some ⟨gsm0710DecodeAddress address, control, payload⟩)

/-- One step of `gsm0710_advanced_buffer_get_frame`. -/
def advStep (s : AdvPc × GSM0710Buffer) :
    AdvPc × GSM0710Buffer ⊕ Option GSM0710Frame × GSM0710Buffer :=
  let buf := s.2
  match s.1 with
  | .find =>
      if !buf.flagFound && decide (buf.length > 0) then
        let found := if buf.head = gsm0710FrameAdvFlag then buf.startAdv else buf
        .inl (.find, found.inc)
      else if !buf.flagFound then .inr (none, buf)
      else .inl (.skip, buf)
  | .skip =>
      if buf.advLength = 0 ∧ buf.length > 0 ∧ buf.head = gsm0710FrameAdvFlag then
        .inl (.skip, buf.inc)
      else .inl (.scan, buf)
  | .scan =>
      if buf.length = 0 then .inr (none, buf)
      else if buf.advFoundEsc = false ∧ buf.head = gsm0710FrameAdvFlag then
        let buf := buf.inc
        match advFrame buf.advData with
        | none => .inl (.find, buf.giveUp)
        | some none => .inl (.find, buf.giveUpDropped)
        | some (some frame) =>
            .inr (some frame, { buf with receivedCount := buf.receivedCount + 1, flagFound := false })
      else if buf.advLength ≥ gsm0710BufferSize then .inl (.find, buf.giveUpDropped)
      else .inl (.scan, buf.takeAdv.inc)

/-- How far the function is from its end. -/
def advMeasure (s : AdvPc × GSM0710Buffer) : Nat :=
  8 * s.2.datacount +
    match s.1, s.2.flagFound with
    | .find, false => 0
    | .scan, _ => 1
    | .skip, _ => 2
    | .find, true => 3

/-- `gsm0710_advanced_buffer_get_frame`.  The fuel is never short
(`advGetFrame_total`). -/
def advGetFrame (buf : GSM0710Buffer) : Option (Option GSM0710Frame × GSM0710Buffer) :=
  loop advStep (8 * buf.datacount + 4) (.find, buf)

/-- Consuming an octet comes closer to the end, wherever it leads. -/
theorem advMeasure_lt {buf buf' : GSM0710Buffer} (pc pc' : AdvPc)
    (hlt : buf'.datacount < buf.datacount) : advMeasure (pc', buf') < advMeasure (pc, buf) := by
  have hrank : ∀ (pc : AdvPc) (found : Bool),
      (match pc, found with
        | .find, false => 0
        | .scan, _ => 1
        | .skip, _ => 2
        | .find, true => 3 : Nat) ≤ 3 := by
    intro pc found
    cases pc <;> cases found <;> decide
  have := hrank pc' buf'.flagFound
  simp only [advMeasure] at this ⊢
  omega

theorem datacount_inc_lt {buf : GSM0710Buffer} (hpos : 0 < buf.datacount) :
    buf.inc.datacount < buf.datacount := by
  simp only [GSM0710Buffer.inc]
  omega

/-- Taking an octet leaves everything but `adv_data` and `adv_found_esc` alone. -/
theorem takeAdv_eq (buf : GSM0710Buffer) :
    buf.takeAdv = { buf with
      advData := buf.takeAdv.advData, advFoundEsc := buf.takeAdv.advFoundEsc } := by
  unfold GSM0710Buffer.takeAdv
  split
  · rfl
  · split <;> rfl

theorem datacount_takeAdv (buf : GSM0710Buffer) : buf.takeAdv.datacount = buf.datacount := by
  rw [takeAdv_eq]

theorem flagFound_takeAdv (buf : GSM0710Buffer) : buf.takeAdv.flagFound = buf.flagFound := by
  rw [takeAdv_eq]

theorem droppedCount_takeAdv (buf : GSM0710Buffer) :
    buf.takeAdv.droppedCount = buf.droppedCount := by
  rw [takeAdv_eq]

/-- Every step returns or comes closer to the end. -/
theorem advStep_decreases (s : AdvPc × GSM0710Buffer) : Decreases advMeasure s (advStep s) := by
  obtain ⟨pc, buf⟩ := s
  cases pc with
  | find =>
    cases hfound : buf.flagFound with
    | true => simp [advStep, Decreases, advMeasure, hfound]
    | false =>
      by_cases hpos : 0 < buf.datacount
      · simp only [advStep, GSM0710Buffer.length, hfound, hpos, Bool.not_false, Bool.true_and,
          decide_true, if_true]
        refine advMeasure_lt _ _ ?_
        split <;> exact datacount_inc_lt hpos
      · simp [advStep, Decreases, GSM0710Buffer.length, hfound, hpos]
  | skip =>
    by_cases hflag : buf.advLength = 0 ∧ buf.length > 0 ∧ buf.head = gsm0710FrameAdvFlag
    · simp only [advStep, if_pos hflag]
      exact advMeasure_lt _ _ (datacount_inc_lt hflag.2.1)
    · simp [advStep, if_neg hflag, Decreases, advMeasure]
  | scan =>
    by_cases hlen : buf.length = 0
    · simp only [advStep, if_pos hlen]
      trivial
    · have hpos : 0 < buf.datacount := Nat.pos_of_ne_zero hlen
      simp only [advStep, if_neg hlen]
      split
      · split
        · exact advMeasure_lt _ _ (datacount_inc_lt hpos)
        · exact advMeasure_lt _ _ (datacount_inc_lt hpos)
        · trivial
      · split
        · simp [Decreases, advMeasure, GSM0710Buffer.giveUpDropped]
        · refine advMeasure_lt _ _ ?_
          rw [← datacount_takeAdv buf] at hpos ⊢
          exact datacount_inc_lt hpos

theorem advMeasure_find_lt (buf : GSM0710Buffer) :
    advMeasure (.find, buf) < 8 * buf.datacount + 4 := by
  unfold advMeasure
  cases buf.flagFound <;> simp

theorem GSM0710Buffer.Wf.takeAdv {buf : GSM0710Buffer} {u : Nat} (h : buf.Wf u) :
    buf.takeAdv.Wf u := by
  rw [takeAdv_eq]
  exact ⟨h.readp_lt, h.stored_le, h.writep_eq⟩

/-- A frame is the octets but three. -/
theorem length_advFrame {advData : List UInt8} {frame : GSM0710Frame}
    (h : advFrame advData = some (some frame)) : frame.length + 3 = advData.length := by
  rw [advFrame] at h
  dsimp only at h
  split_ifs at h with hshort
  all_goals cases h
  all_goals
    change ((advData.drop 2).take (advData.length - 3)).length + 3 = _
    rw [List.length_take, List.length_drop]
    omega

/-- Every step keeps the buffer well-formed. -/
theorem advStep_keeps_wf {u : Nat} (s : AdvPc × GSM0710Buffer) (h : s.2.Wf u) :
    Keeps (fun s => s.2.Wf u) (fun r => r.2.Wf u) (advStep s) := by
  obtain ⟨pc, buf⟩ := s
  change buf.Wf u at h
  have hinc : 0 < buf.datacount → buf.inc.Wf u := h.inc
  cases pc with
  | find =>
    cases hfound : buf.flagFound with
    | true => simpa [advStep, Keeps, hfound] using h
    | false =>
      by_cases hpos : 0 < buf.datacount
      · have hwf := hinc hpos
        simp only [advStep, GSM0710Buffer.length, hfound, hpos, Bool.not_false, Bool.true_and,
          decide_true, if_true]
        split <;> exact ⟨hwf.readp_lt, hwf.stored_le, hwf.writep_eq⟩
      · simpa [advStep, Keeps, GSM0710Buffer.length, hfound, hpos] using h
  | skip =>
    by_cases hflag : buf.advLength = 0 ∧ buf.length > 0 ∧ buf.head = gsm0710FrameAdvFlag
    · simp only [advStep, if_pos hflag]
      exact hinc hflag.2.1
    · simp only [advStep, if_neg hflag]
      exact h
  | scan =>
    by_cases hlen : buf.length = 0
    · simp only [advStep, if_pos hlen]
      exact h
    · have hpos : 0 < buf.datacount := Nat.pos_of_ne_zero hlen
      have hwf := hinc hpos
      simp only [advStep, if_neg hlen]
      split
      · split <;> exact ⟨hwf.readp_lt, hwf.stored_le, hwf.writep_eq⟩
      · split
        · exact ⟨h.readp_lt, h.stored_le, h.writep_eq⟩
        · exact h.takeAdv.inc (by rwa [datacount_takeAdv])

/-- No step puts an octet behind `adv_data`; without a frame, nothing is left to read. -/
theorem advStep_keeps_adv (s : AdvPc × GSM0710Buffer) (h : s.2.advLength ≤ gsm0710BufferSize) :
    Keeps (fun s => s.2.advLength ≤ gsm0710BufferSize)
      (fun r => r.2.advLength ≤ gsm0710BufferSize ∧ (r.1 = none → r.2.datacount = 0) ∧
        ∀ frame ∈ r.1, frame.length + 3 ≤ gsm0710BufferSize) (advStep s) := by
  obtain ⟨pc, buf⟩ := s
  change buf.advLength ≤ gsm0710BufferSize at h
  cases pc with
  | find =>
    simp only [advStep]
    split_ifs with hfind hflag hfound
    · exact Nat.zero_le _
    · exact h
    · refine ⟨h, fun _ => ?_, by rintro _ ⟨⟩⟩
      rw [hfound, Bool.true_and, decide_eq_true_iff] at hfind
      exact Nat.eq_zero_of_not_pos hfind
    · exact h
  | skip =>
    simp only [advStep]
    split_ifs <;> exact h
  | scan =>
    simp only [advStep]
    split_ifs with hempty hflag hfull
    · exact ⟨h, fun _ => hempty, by rintro _ ⟨⟩⟩
    · match hframe : advFrame buf.inc.advData with
      | none => exact h
      | some none => exact h
      | some (some frame) =>
        refine ⟨h, by rintro ⟨⟩, ?_⟩
        rintro _ ⟨⟩
        exact (length_advFrame hframe).le.trans h
    · exact h
    · have hlt := Nat.lt_of_not_le hfull
      change buf.takeAdv.advData.length ≤ _
      rw [GSM0710Buffer.takeAdv]
      split_ifs
      · exact List.length_append.trans_le hlt
      · exact h
      · exact List.length_append.trans_le hlt

/-- The function always returns, with a well-formed buffer.  What it keeps of a frame fits in
`adv_data`, and it returns without a frame only when it has read all that was stored. -/
theorem advGetFrame_total {buf : GSM0710Buffer} {u : Nat} (h : buf.Wf u)
    (hadv : buf.advLength ≤ gsm0710BufferSize) :
    ∃ r, advGetFrame buf = some r ∧ r.2.Wf u ∧ r.2.advLength ≤ gsm0710BufferSize ∧
      (r.1 = none → r.2.datacount = 0) ∧ ∀ frame ∈ r.1, frame.length + 3 ≤ gsm0710BufferSize := by
  obtain ⟨r, hr, hwf⟩ := loop_spec advStep_keeps_wf (fun s _ => advStep_decreases s) h
    (advMeasure_find_lt buf)
  exact ⟨r, hr, hwf, loop_sound advStep_keeps_adv hadv hr⟩

/-- Of an octet that starts no frame. -/
theorem advGetFrame_noise : ∃ r, advGetFrame (GSM0710Buffer.init.write [0x41]).1 = some r ∧
    (r.1 = none → r.2.datacount = 0) := by
  have hwf : (GSM0710Buffer.init.write [0x41]).1.Wf 0 := GSM0710Buffer.wf_init.write (by decide)
  obtain ⟨r, hr, -, -, hdrained, -⟩ := advGetFrame_total hwf (Nat.zero_le _)
  exact ⟨r, hr, hdrained⟩

end MtkHw.Mux
