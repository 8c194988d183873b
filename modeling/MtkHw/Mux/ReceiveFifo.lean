import MtkHw.Lib.Machine
import MtkHw.Mux.AdvFrame
import MtkHw.Mux.BaseFrame

/-!
# The receive buffer as a queue

Any thread that calls `gsm0710_buffer_write` puts octets into the receive buffer, and the two
functions that extract frames take them out.  The model interleaves the halves of the write, the
copy and the counter, with the turns of the loops of either extraction, of which the parse on local
copies and the store back are turns of their own.

What a turn of an extraction does to the buffer is `Taken`: the read pointer goes over some of the
stored octets, and the counter is lowered by as many.  That is all the queue depends on, whatever
the octets are and whether a frame comes out, so `receiveBuffer_fifo` holds of both modes at once.
-/

namespace MtkHw.Mux

open Lib

/-! ## Taking octets -/

/-- Some stored octets have been taken. -/
structure Taken (buf buf' : GSM0710Buffer) : Prop where
  data_eq : buf'.data = buf.data
  writep_eq : buf'.writep = buf.writep
  taken : ∃ k, buf'.readp = Ring.advance gsm0710BufferSize buf.readp k ∧
    buf'.datacount + k = buf.datacount

namespace Taken

variable {buf buf' : GSM0710Buffer}

/-- Nothing has been taken. -/
theorem of_same {u : Nat} (h : buf.Wf u) (hdata : buf'.data = buf.data)
    (hwritep : buf'.writep = buf.writep) (hreadp : buf'.readp = buf.readp)
    (hcount : buf'.datacount = buf.datacount) : Taken buf buf' :=
  ⟨hdata, hwritep, 0, by rw [hreadp, Ring.advance_zero h.readp_lt], hcount⟩

/-- `gsm0710_buffer_inc(buf->readp, buf->datacount)` -/
theorem inc {u : Nat} (h : buf.Wf u) (hpos : 0 < buf.datacount) (hdata : buf'.data = buf.data)
    (hwritep : buf'.writep = buf.writep) (hreadp : buf'.readp = buf.inc.readp)
    (hcount : buf'.datacount = buf.inc.datacount) : Taken buf buf' := by
  refine ⟨hdata, hwritep, 1, ?_, ?_⟩
  · rw [hreadp, ← Ring.next_eq_advance h.readp_lt]
    rfl
  · rw [hcount]
    exact Nat.sub_add_cancel hpos

/-- The local copies are stored back. -/
theorem store {backup k : Nat} (hk : k ≤ backup) (hbackup : backup ≤ buf.datacount)
    (hdata : buf'.data = buf.data) (hwritep : buf'.writep = buf.writep)
    (hreadp : buf'.readp = (buf.store backup (buf.cursorFrom backup k)).readp)
    (hcount : buf'.datacount = (buf.store backup (buf.cursorFrom backup k)).datacount) :
    Taken buf buf' := by
  refine ⟨hdata, hwritep, k, hreadp, ?_⟩
  rw [hcount, GSM0710Buffer.datacount_store hk]
  omega

/-- The same octets are taken once some more are counted. -/
theorem count (h : Taken buf buf') (n : Nat) : Taken (buf.count n) (buf'.count n) := by
  obtain ⟨k, hreadp, hcount⟩ := h.taken
  refine ⟨h.data_eq, h.writep_eq, k, hreadp, ?_⟩
  simp only [GSM0710Buffer.count]
  omega

theorem wf (h : Taken buf buf') {u : Nat} (hwf : buf.Wf u) : buf'.Wf u := by
  obtain ⟨k, hreadp, hcount⟩ := h.taken
  have hle := hwf.stored_le
  refine ⟨?_, by omega, ?_⟩
  · rw [hreadp]
    exact Ring.advance_lt hwf.readp_lt (by omega)
  · rw [h.writep_eq, hwf.writep_eq, hreadp, Ring.advance_advance hwf.readp_lt (by omega)]
    congr 1
    omega

/-- What is left is the end of what was stored. -/
theorem contents_suffix (h : Taken buf buf') {u : Nat} (hwf : buf.Wf u) :
    ∃ taken, buf.contents = taken ++ buf'.contents := by
  obtain ⟨k, hreadp, hcount⟩ := h.taken
  have hle := hwf.stored_le
  refine ⟨Ring.walk gsm0710BufferSize buf.data buf.readp k, ?_⟩
  rw [GSM0710Buffer.contents, GSM0710Buffer.contents, h.data_eq, hreadp,
    ← Ring.walk_add _ hwf.readp_lt (by omega)]
  congr 1
  omega

/-- What stands behind the stored octets stays there. -/
theorem contents_count (h : Taken buf buf') {copied : List UInt8} (hwf : buf.Wf copied.length)
    (hcopied : (buf.count copied.length).contents = buf.contents ++ copied) :
    (buf'.count copied.length).contents = buf'.contents ++ copied := by
  obtain ⟨now, hnow⟩ := h.contents_suffix hwf
  obtain ⟨now', hnow'⟩ := (h.count copied.length).contents_suffix hwf.count
  have hlen := congrArg List.length hnow
  have hlen' := congrArg List.length hnow'
  simp only [List.length_append, GSM0710Buffer.length_contents, GSM0710Buffer.count] at hlen hlen'
  rw [hnow', hnow, List.append_assoc] at hcopied
  exact List.append_inj_right hcopied (by omega)

end Taken

/-- Every turn of the basic extraction takes some stored octets, or none. -/
theorem baseTurn_taken (cfg : MuxConfig) {u : Nat} (s : BaseLocal × GSM0710Buffer)
    (h : BaseWf u s) :
    Keeps (fun s' => Taken s.2 s'.2) (fun r => Taken s.2 r.2) (baseTurn cfg s) := by
  obtain ⟨⟨pc, d⟩, buf⟩ := s
  have hwf : buf.Wf u := h.1
  have hsame : Taken buf buf := .of_same hwf rfl rfl rfl rfl
  obtain ⟨r, buf', hmove, hturn⟩ := baseTurn_eq cfg pc d buf
  have htaken : Taken buf buf' := by
    cases hmove with
    | findTake _ hpos | skipTake hpos _ => exact .inc hwf hpos rfl rfl rfl rfl
    | findNone | findDone | skipDone | noFlag | starved | storeStarved | parsed => exact hsame
    | dropped backup cur =>
      obtain ⟨hbackup, k, -, hk, rfl⟩ := h.dropped
      exact .store hk hbackup rfl rfl rfl rfl
    | complete backup frame cur =>
      obtain ⟨hbackup, k, -, hk, rfl⟩ := h.complete
      exact .store hk hbackup rfl rfl rfl rfl
  rw [hturn]
  cases r with
  | inl loc => exact htaken
  | inr exit => exact htaken

/-- What is left is the end of `contents`, and the outcome to be stored back is that of what is
left. -/
def BaseAt (cfg : MuxConfig) (contents : List UInt8) (s : BaseLocal × GSM0710Buffer) : Prop :=
  s.2.contents <:+ contents ∧
    match s.1.pc with
    | .noFlag => s.2.contents = []
    | .store backup outcome => backup = s.2.datacount ∧ outcome = parse cfg s.2
    | _ => True

/-- A frame that is returned stands in `contents` before what is left, and fits in the size
negotiated for its channel; without one, what is left is no whole frame. -/
def Genuine (cfg : MuxConfig) (contents : List UInt8) (r : BaseExit × GSM0710Buffer) : Prop :=
  match r.1 with
  | .ret (some frame) => ∃ octets k, octets <:+ contents ∧
      parseOctets cfg octets = .complete frame k ∧ r.2.contents = octets.drop k ∧
      frame.length ≤ cfg.negotiatedN1 frame.channel.toNat
  | .ret none => r.2.contents <:+ contents ∧ parseOctets cfg r.2.contents = .starved
  | .assert13 => r.2.contents <:+ contents

theorem baseTurn_genuine {cfg : MuxConfig} {contents : List UInt8} {u : Nat}
    (s : BaseLocal × GSM0710Buffer) (h : BaseWf u s ∧ BaseAt cfg contents s) :
    Keeps (fun s => BaseWf u s ∧ BaseAt cfg contents s) (Genuine cfg contents)
      (baseTurn cfg s) := by
  obtain ⟨hwf, hsuffix, hat⟩ := h
  have hkeeps := baseTurn_keeps_wf cfg s hwf
  have htaken := baseTurn_taken cfg s hwf
  obtain ⟨⟨pc, d⟩, buf⟩ := s
  obtain ⟨r, buf', hmove, hturn⟩ := baseTurn_eq cfg pc d buf
  rw [hturn] at hkeeps htaken ⊢
  have hleft : buf'.contents <:+ contents := by
    have htaken : Taken buf buf' := by cases r <;> exact htaken
    obtain ⟨taken, htaken⟩ := htaken.contents_suffix hwf.1
    exact .trans ⟨taken, htaken.symm⟩ hsuffix
  have hstarved (hparse : parse cfg buf = .starved) : parseOctets cfg buf.contents = .starved := by
    rw [parse_eq cfg hwf.1] at hparse
    cases hoctets : parseOctets cfg buf.contents with
    | starved => rfl
    | _ => cases hoctets ▸ hparse
  cases hmove with
  | findTake | findDone | skipTake | skipDone => exact ⟨hkeeps, hleft, trivial⟩
  | findNone _ hzero => exact ⟨hkeeps, hleft, GSM0710Buffer.contents_eq_nil.mpr hzero⟩
  | parsed => exact ⟨hkeeps, hleft, rfl, rfl⟩
  | noFlag => exact ⟨hleft, congrArg (parseOctets cfg) hat⟩
  | starved hparse => exact ⟨hleft, hstarved hparse⟩
  | storeStarved => exact ⟨hleft, hstarved hat.2.symm⟩
  | dropped =>
    cases henter : baseEnter (d + 1) with
    | inl loc =>
      rw [henter] at hkeeps
      exact ⟨hkeeps, hleft, by rw [baseEnter_find henter]; trivial⟩
    | inr exit =>
      unfold baseEnter at henter
      split at henter <;> cases henter
      exact hleft
  | complete backup frame cur =>
    obtain ⟨hbackup, houtcome⟩ := hat
    rw [parse_eq cfg hwf.1] at houtcome
    obtain ⟨k, hparse, hcur⟩ := ParseOutcome.map_eq_complete _ houtcome.symm
    have hconsumes := parseOctets_consumes cfg buf.contents
    rw [hparse, GSM0710Buffer.length_contents] at hconsumes
    refine ⟨buf.contents, k, hsuffix, hparse, ?_, parseOctets_length_le hparse⟩
    rw [hbackup, ← hcur]
    exact GSM0710Buffer.contents_store hwf.1 hconsumes.2 (Nat.le_refl _)

/-- **No frame is made up.**  Whatever octets are stored, the loops of the basic extraction come to
an end, and a frame that is returned stands in the octets. -/
theorem baseGetFrame_total (cfg : MuxConfig) {buf : GSM0710Buffer} {u : Nat} (h : buf.Wf u) :
    ∃ r, loop (baseTurn cfg) (4 * buf.datacount + 5) (⟨.find, 0⟩, buf) = some r ∧ r.2.Wf u ∧
      Genuine cfg buf.contents r := by
  have hwf : BaseWf u (⟨.find, 0⟩, buf) := ⟨h, trivial⟩
  obtain ⟨r, hr, hr'⟩ := loop_spec (baseTurn_keeps_wf cfg) (baseTurn_decreases cfg) hwf
    (baseMeasure_find_lt buf)
  exact ⟨r, hr, hr', loop_sound baseTurn_genuine ⟨hwf, List.suffix_rfl, trivial⟩ hr⟩

theorem baseGetFrame_noise :
    let cfg : MuxConfig := ⟨32, fun _ => 64, by decide⟩
    let buf := (GSM0710Buffer.init.write [0x41]).1
    ∃ r, loop (baseTurn cfg) 9 (⟨.find, 0⟩, buf) = some r ∧ Genuine cfg [0x41] r := by
  intro cfg buf
  have hwf : buf.Wf 0 := GSM0710Buffer.wf_init.write (by decide)
  obtain ⟨r, hr, -, hgenuine⟩ := baseGetFrame_total cfg hwf
  exact ⟨r, hr, hgenuine⟩

/-- Undoing an escape leaves the ring alone. -/
theorem taken_takeAdv_inc {buf : GSM0710Buffer} {u : Nat} (h : buf.Wf u)
    (hpos : 0 < buf.datacount) : Taken buf buf.takeAdv.inc := by
  rw [takeAdv_eq]
  exact .inc h hpos rfl rfl rfl rfl

/-- Every turn of the advanced extraction takes a stored octet, or none. -/
theorem advStep_taken {u : Nat} (s : AdvPc × GSM0710Buffer) (h : s.2.Wf u) :
    Keeps (fun s' => Taken s.2 s'.2) (fun r => Taken s.2 r.2) (advStep s) := by
  obtain ⟨pc, buf⟩ := s
  change buf.Wf u at h
  have hsame : Taken buf buf := .of_same h rfl rfl rfl rfl
  cases pc with
  | find =>
    cases hfound : buf.flagFound with
    | true => simpa [advStep, Keeps, hfound] using hsame
    | false =>
      by_cases hpos : 0 < buf.datacount
      · simp only [advStep, GSM0710Buffer.length, hfound, hpos, Bool.not_false, Bool.true_and,
          decide_true, if_true]
        split <;> exact .inc h hpos rfl rfl rfl rfl
      · simpa [advStep, Keeps, GSM0710Buffer.length, hfound, hpos] using hsame
  | skip =>
    by_cases hflag : buf.advLength = 0 ∧ buf.length > 0 ∧ buf.head = gsm0710FrameAdvFlag
    · simp only [advStep, if_pos hflag]
      exact .inc h hflag.2.1 rfl rfl rfl rfl
    · simp only [advStep, if_neg hflag]
      exact hsame
  | scan =>
    by_cases hlen : buf.length = 0
    · simp only [advStep, if_pos hlen]
      exact hsame
    · have hpos : 0 < buf.datacount := Nat.pos_of_ne_zero hlen
      simp only [advStep, if_neg hlen]
      split
      · split <;> exact .inc h hpos rfl rfl rfl rfl
      · split
        · exact .of_same h rfl rfl rfl rfl
        · exact taken_takeAdv_inc h hpos

/-! ## Copying in -/

/-- The octets stored, and behind them those that are copied in and not counted. -/
theorem contents_count {buf : GSM0710Buffer} {u : Nat} (h : buf.Wf u) :
    ∃ rest, (buf.count u).contents = buf.contents ++ rest :=
  ⟨_, Ring.walk_add _ h.readp_lt h.stored_le⟩

/-- Copying in leaves what is stored alone. -/
theorem contents_copyIn {buf : GSM0710Buffer} (h : buf.Wf 0) {input : List UInt8}
    (hfit : buf.datacount + input.length ≤ gsm0710BufferSize) :
    (buf.copyIn input).contents = buf.contents := by
  have hwf : (buf.copyIn input).Wf (0 + input.length) := h.copyIn (by omega)
  rw [Nat.zero_add] at hwf
  obtain ⟨rest, hrest⟩ := contents_count hwf
  rw [GSM0710Buffer.contents_count_copyIn h hfit] at hrest
  refine (List.append_inj_left hrest ?_).symm
  rw [GSM0710Buffer.length_contents, GSM0710Buffer.length_contents]
  rfl

/-! ## The machine -/

/-- A call of `gsm0710_buffer_write`. -/
structure BufferWrite where
  /-- The octets to be written. -/
  input : List UInt8
  /-- The free space that the call found. -/
  free : Nat
  /-- What the call returns. -/
  returned : Nat
deriving DecidableEq, Repr

/-- The octets that a call accepts. -/
def BufferWrite.accepted (call : BufferWrite) : List UInt8 := call.input.take call.returned

/-- Where the extraction of frames is. -/
inductive Extraction where
  | /-- No frame is being extracted. -/ idle
  | /-- In `gsm0710_base_buffer_get_frame`. -/ base (loc : BaseLocal)
  | /-- In `gsm0710_advanced_buffer_get_frame`. -/ advanced (pc : AdvPc)
  | /-- `Gsm0710Muxd_Assert(13)` -/ asserted
deriving DecidableEq, Repr

/-- Where a call of `gsm0710_base_buffer_get_frame` stands after a turn. -/
def Extraction.ofBase : BaseLocal ⊕ BaseExit → Extraction
  | .inl loc => .base loc
  | .inr (.ret _) => .idle
  | .inr .assert13 => .asserted

/-- The buffer, the two places, and the writes that have returned. -/
structure FifoState where
  buf : GSM0710Buffer
  /-- A write whose octets are copied and not counted. -/
  writing : Option BufferWrite
  extraction : Extraction
  /-- The writes that have returned, the latest last. -/
  writes : List BufferWrite

/-- What happens next. -/
inductive FifoAct where
  | /-- `gsm0710_buffer_write` is called: the copy. -/ write (input : List UInt8)
  | /-- The write raises `datacount` and returns. -/ count
  | /-- `gsm0710_base_buffer_get_frame` is called. -/ getBase
  | /-- `gsm0710_advanced_buffer_get_frame` is called. -/ getAdvanced
  | /-- The extraction takes a turn, with the frame sizes negotiated by then. -/
    extract (cfg : MuxConfig)

namespace FifoState

/-- The octets copied in and not counted. -/
def copied (s : FifoState) : List UInt8 := (s.writing.map BufferWrite.accepted).getD []

/-- The octets accepted by the writes that have returned, in order. -/
def accepted (s : FifoState) : List UInt8 := (s.writes.map BufferWrite.accepted).flatten

/-- An empty buffer. -/
def init : FifoState := ⟨GSM0710Buffer.init, none, .idle, []⟩

/-- A turn of the extraction. -/
def extractStep (cfg : MuxConfig) (s : FifoState) : Option FifoState :=
  match s.extraction with
  | .base loc =>
      match baseTurn cfg (loc, s.buf) with
      | .inl (loc, buf) => some { s with buf := buf, extraction := .ofBase (.inl loc) }
      | .inr (exit, buf) => some { s with buf := buf, extraction := .ofBase (.inr exit) }
  | .advanced pc =>
      match advStep (pc, s.buf) with
      | .inl (pc, buf) => some { s with buf := buf, extraction := .advanced pc }
      | .inr (_, buf) => some { s with buf := buf, extraction := .idle }
  | .idle | .asserted => none

/-- One step. -/
def step (s : FifoState) : FifoAct → Option FifoState
  | .write input =>
      match s.writing with
      | none =>
          let length := min input.length s.buf.free
          some { s with
            buf := s.buf.copyIn (input.take length)
            writing := some ⟨input, s.buf.free, length⟩ }
      | some _ => none
  | .count =>
      match s.writing with
      | some call =>
          some { s with
            buf := { s.buf.count call.returned with newdataready := true }
            writing := none
            writes := s.writes ++ [call] }
      | none => none
  | .getBase =>
      if s.extraction = .idle then some { s with extraction := .ofBase (baseEnter 0) } else none
  | .getAdvanced =>
      if s.extraction = .idle then some { s with extraction := .advanced .find } else none
  | .extract cfg => s.extractStep cfg

end FifoState

/-- The receive buffer, its writer and its reader. -/
def fifoMachine : Machine FifoState FifoAct where
  init := FifoState.init
  step := FifoState.step

/-! ## The queue -/

/-- The buffer is a bounded queue. -/
structure IsFifo (s : FifoState) : Prop where
  /-- The counter is in bounds. -/
  datacount_le : s.buf.datacount ≤ gsm0710BufferSize
  /-- The read pointer is in `data`. -/
  readp_lt : s.buf.readp < gsm0710BufferSize
  /-- The write pointer is in `data`. -/
  writep_lt : s.buf.writep < gsm0710BufferSize
  /-- The write pointer is ahead by the octets stored, and by those that a write in progress has
  copied in already. -/
  writep_eq : s.buf.writep =
    (s.buf.readp + s.buf.datacount + s.copied.length) % gsm0710BufferSize
  /-- The octets stored are the last `datacount` of those accepted. -/
  contents_eq : s.buf.datacount ≤ s.accepted.length ∧
    s.buf.contents = s.accepted.drop (s.accepted.length - s.buf.datacount)
  /-- What is copied in stands behind them, where the write is about to count it. -/
  copied_eq : (s.buf.count s.copied.length).contents = s.buf.contents ++ s.copied
  /-- A write accepts as many octets as fit. -/
  returned_eq : ∀ call ∈ s.writes, call.returned = min call.input.length call.free ∧
    call.accepted.length = call.returned

/-- What every step keeps. -/
structure FifoInv (s : FifoState) : Prop where
  wf : s.buf.Wf s.copied.length
  contents_suffix : ∃ taken, s.accepted = taken ++ s.buf.contents
  copied_eq : (s.buf.count s.copied.length).contents = s.buf.contents ++ s.copied
  base : ∀ loc, s.extraction = .base loc → BaseWf s.copied.length (loc, s.buf)
  returned_eq : ∀ call ∈ s.writes ++ s.writing.toList,
    call.returned = min call.input.length call.free

/-- A call that found its free space accepts what it returns. -/
theorem BufferWrite.length_accepted {call : BufferWrite}
    (h : call.returned = min call.input.length call.free) :
    call.accepted.length = call.returned := by
  rw [accepted, List.length_take, h]
  omega

theorem FifoInv.isFifo {s : FifoState} (h : FifoInv s) : IsFifo s where
  datacount_le := h.wf.datacount_le
  readp_lt := h.wf.readp_lt
  writep_lt := h.wf.writep_lt
  writep_eq := by
    rw [h.wf.writep_eq, Ring.advance_eq_mod h.wf.readp_lt h.wf.stored_le, Nat.add_assoc]
  contents_eq := by
    obtain ⟨taken, htaken⟩ := h.contents_suffix
    have hlen := congrArg List.length htaken
    rw [List.length_append, GSM0710Buffer.length_contents] at hlen
    refine ⟨by omega, ?_⟩
    rw [htaken, List.drop_left']
    rw [List.length_append, GSM0710Buffer.length_contents, Nat.add_sub_cancel]
  copied_eq := h.copied_eq
  returned_eq := by
    intro call hcall
    have hreturned := h.returned_eq call (List.mem_append_left _ hcall)
    exact ⟨hreturned, BufferWrite.length_accepted hreturned⟩

/-- Local copies stay good when only the counter of the buffer has gone up. -/
theorem BaseWf.of_more {u u' : Nat} {loc : BaseLocal} {buf buf' : GSM0710Buffer}
    (h : BaseWf u (loc, buf)) (hwf : buf'.Wf u') (hreadp : buf'.readp = buf.readp)
    (hcount : buf.datacount ≤ buf'.datacount) : BaseWf u' (loc, buf') := by
  obtain ⟨pc, d⟩ := loc
  refine ⟨hwf, ?_⟩
  cases pc with
  | store backup outcome =>
    obtain ⟨-, hbackup, o, hconsumes, houtcome⟩ := h
    refine ⟨hbackup.trans hcount, o, hconsumes, ?_⟩
    have hcursor : buf'.cursorFrom backup = buf.cursorFrom backup := by
      funext k
      rw [GSM0710Buffer.cursorFrom, GSM0710Buffer.cursorFrom, hreadp]
    rw [hcursor]
    exact houtcome
  | find | noFlag | skip | parse => trivial

namespace FifoInv

theorem init : FifoInv FifoState.init where
  wf := GSM0710Buffer.wf_init
  contents_suffix := ⟨[], rfl⟩
  copied_eq := rfl
  base := by
    intro loc h
    cases h
  returned_eq := by
    intro call hcall
    cases hcall

/-- The copy of a write. -/
theorem write {s s' : FifoState} {input : List UInt8} (h : FifoInv s)
    (hstep : s.step (.write input) = some s') : FifoInv s' := by
  cases hwriting : s.writing with
  | some call =>
    rw [FifoState.step, hwriting] at hstep
    cases hstep
  | none =>
    rw [FifoState.step, hwriting] at hstep
    cases hstep
    have hcopied : s.copied = [] := by
      rw [FifoState.copied, hwriting]
      rfl
    have hwf : s.buf.Wf 0 := by simpa [hcopied] using h.wf
    have hcount := hwf.datacount_le
    have hfit : s.buf.datacount + (input.take (min input.length s.buf.free)).length ≤
        gsm0710BufferSize := by
      rw [List.length_take, GSM0710Buffer.free]
      omega
    have hwf' : (s.buf.copyIn (input.take (min input.length s.buf.free))).Wf _ :=
      hwf.copyIn (by omega)
    rw [Nat.zero_add] at hwf'
    have hcontents := contents_copyIn hwf hfit
    constructor
    · exact hwf'
    · obtain ⟨taken, htaken⟩ := h.contents_suffix
      refine ⟨taken, ?_⟩
      rw [hcontents]
      exact htaken
    · rw [hcontents]
      exact GSM0710Buffer.contents_count_copyIn hwf hfit
    · intro loc hloc
      exact (h.base loc hloc).of_more hwf' rfl le_rfl
    · intro call hcall
      have hold := h.returned_eq call
      rw [hwriting] at hold
      rcases List.mem_append.mp hcall with hcall | hcall
      · exact hold (List.mem_append_left _ hcall)
      · obtain rfl := List.mem_singleton.mp hcall
        rfl

/-- The end of a write. -/
theorem count {s s' : FifoState} (h : FifoInv s) (hstep : s.step .count = some s') :
    FifoInv s' := by
  cases hwriting : s.writing with
  | none =>
    rw [FifoState.step, hwriting] at hstep
    cases hstep
  | some call =>
    rw [FifoState.step, hwriting] at hstep
    cases hstep
    have hreturned : call.returned = min call.input.length call.free :=
      h.returned_eq call (by rw [hwriting]; exact List.mem_append_right _ List.mem_cons_self)
    have hcopied : s.copied = call.accepted := by
      rw [FifoState.copied, hwriting]
      rfl
    have hlen : s.copied.length = call.returned := by
      rw [hcopied, BufferWrite.length_accepted hreturned]
    have hwf : (s.buf.count call.returned).Wf 0 := by
      rw [← hlen]
      exact h.wf.count
    have hwf' : ({ s.buf.count call.returned with newdataready := true } : GSM0710Buffer).Wf 0 :=
      ⟨hwf.readp_lt, hwf.stored_le, hwf.writep_eq⟩
    constructor
    · exact hwf'
    · obtain ⟨taken, htaken⟩ := h.contents_suffix
      refine ⟨taken, ?_⟩
      have hcontents := h.copied_eq
      rw [hlen, hcopied] at hcontents
      change ((s.writes ++ [call]).map BufferWrite.accepted).flatten =
        taken ++ (s.buf.count call.returned).contents
      rw [hcontents, List.map_append, List.flatten_append, ← List.append_assoc, ← htaken]
      simp [FifoState.accepted]
    · exact (List.append_nil _).symm
    · intro loc hloc
      exact (h.base loc hloc).of_more hwf' rfl (Nat.le_add_right _ _)
    · intro other hother
      refine h.returned_eq other ?_
      rw [hwriting]
      simpa using hother

/-- A call of either extraction. -/
theorem enter {s : FifoState} (h : FifoInv s) {e : Extraction}
    (he : ∀ loc, e = .base loc → loc.pc = .find) :
    FifoInv { s with extraction := e } where
  wf := h.wf
  contents_suffix := h.contents_suffix
  copied_eq := h.copied_eq
  base := by
    intro loc hloc
    refine ⟨h.wf, ?_⟩
    rw [he loc hloc]
    trivial
  returned_eq := h.returned_eq

/-- A turn of either extraction. -/
theorem turn {s : FifoState} (h : FifoInv s) {buf : GSM0710Buffer} {e : Extraction}
    (htaken : Taken s.buf buf) (he : ∀ loc, e = .base loc → BaseWf s.copied.length (loc, buf)) :
    FifoInv { s with buf := buf, extraction := e } where
  wf := htaken.wf h.wf
  contents_suffix := by
    obtain ⟨before, hbefore⟩ := h.contents_suffix
    obtain ⟨now, hnow⟩ := htaken.contents_suffix h.wf
    exact ⟨before ++ now, by rw [List.append_assoc, ← hnow]; exact hbefore⟩
  copied_eq := htaken.contents_count h.wf h.copied_eq
  base := he
  returned_eq := h.returned_eq

/-- Every step keeps the invariant. -/
theorem step {s s' : FifoState} {a : FifoAct} (h : FifoInv s)
    (hstep : fifoMachine.step s a = some s') : FifoInv s' := by
  cases a with
  | write input => exact h.write hstep
  | count => exact h.count hstep
  | getBase =>
    change (if s.extraction = .idle then some _ else none) = some s' at hstep
    split at hstep
    · cases hstep
      refine h.enter fun loc hloc => ?_
      cases hloc
      rfl
    · cases hstep
  | getAdvanced =>
    change (if s.extraction = .idle then some _ else none) = some s' at hstep
    split at hstep
    · cases hstep
      refine h.enter fun loc hloc => ?_
      cases hloc
    · cases hstep
  | extract cfg =>
    change s.extractStep cfg = some s' at hstep
    unfold FifoState.extractStep at hstep
    cases hextraction : s.extraction with
    | idle | asserted =>
      rw [hextraction] at hstep
      cases hstep
    | base loc =>
      have hbase := h.base loc hextraction
      have hkeeps := baseTurn_keeps_wf cfg (loc, s.buf) hbase
      have htaken := baseTurn_taken cfg (loc, s.buf) hbase
      rw [hextraction] at hstep
      cases hturn : baseTurn cfg (loc, s.buf) with
      | inl next =>
        simp only [hturn] at hstep hkeeps htaken
        cases hstep
        refine h.turn htaken fun loc' hloc' => ?_
        cases hloc'
        exact hkeeps
      | inr last =>
        obtain ⟨exit, buf⟩ := last
        simp only [hturn] at hstep htaken
        cases hstep
        refine h.turn htaken fun loc' hloc' => ?_
        cases exit with
        | ret frame => cases hloc'
        | assert13 => cases hloc'
    | advanced pc =>
      have htaken := advStep_taken (pc, s.buf) h.wf
      rw [hextraction] at hstep
      cases hturn : advStep (pc, s.buf) with
      | inl next =>
        simp only [hturn] at hstep htaken
        cases hstep
        exact h.turn htaken fun loc' hloc' => by cases hloc'
      | inr last =>
        simp only [hturn] at hstep htaken
        cases hstep
        exact h.turn htaken fun loc' hloc' => by cases hloc'

end FifoInv

/-- **The receive buffer is a bounded queue.**  However the writes and the extraction of frames are
interleaved, in either mode and whatever the octets, the pointers and the counter stay in bounds and
agree, and the octets stored are the last that the writes have accepted, each of which accepts as
many as fit. -/
theorem receiveBuffer_fifo (acts : List FifoAct) :
    fifoMachine.Along IsFifo fifoMachine.init acts :=
  fifoMachine.along_of_invariant (fun _ _ _ hinv hstep => FifoInv.step hinv hstep)
    (fun _ hinv => hinv.isFifo) FifoInv.init acts

end MtkHw.Mux
