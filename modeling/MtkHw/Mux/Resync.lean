import MtkHw.Mux.BaseFrame

/-!
# Resynchronisation after line noise

A frame that is corrupt makes `gsm0710_base_buffer_get_frame` start over, on what is left of the
stored octets; the calls are counted, and the one at depth `MAX_RESYNC_GET_FRAME_COUNT` ends in
`Gsm0710Muxd_Assert(13)`.

Which frames a call will find is decided by the stored octets: `frameStart` is where the next frame
is looked for, and `CorruptAhead` says that several corrupt frames lie there one after the other.
`resyncs_iff` is the result: a call comes to an end, every frame it drops consumes an octet, and it
ends in the assertion exactly when that many corrupt frames lie ahead.
-/

namespace MtkHw.Mux

open Lib GSM0710Buffer

/-! ## Corrupt frames ahead -/

/-- The octets from the next frame on: behind its start flag, unless that has been found already,
and behind the flags that follow it. -/
def frameStart (flagFound : Bool) (octets : List UInt8) : List UInt8 :=
  (if flagFound then octets else (octets.dropWhile (· ≠ gsm0710FrameFlag)).tail).dropWhile
    (· = gsm0710FrameFlag)

/-- `n` corrupt frames lie ahead, one after the other. -/
def CorruptAhead (cfg : MuxConfig) : Nat → Bool → List UInt8 → Prop
  | 0, _, _ => True
  | n + 1, flagFound, octets =>
      match parseOctets cfg (frameStart flagFound octets) with
      | .dropped k => CorruptAhead cfg n false ((frameStart flagFound octets).drop k)
      | _ => False

instance decidableCorruptAhead (cfg : MuxConfig) : ∀ n flagFound octets,
    Decidable (CorruptAhead cfg n flagFound octets)
  | 0, _, _ => isTrue trivial
  | n + 1, flagFound, octets =>
      match h : parseOctets cfg (frameStart flagFound octets) with
      | .dropped k =>
          @decidable_of_iff _ (CorruptAhead cfg n false ((frameStart flagFound octets).drop k))
            (by rw [CorruptAhead, h]) (decidableCorruptAhead cfg n false _)
      | .starved => isFalse (by rw [CorruptAhead, h]; exact id)
      | .complete _ _ => isFalse (by rw [CorruptAhead, h]; exact id)

section FrameStart

variable {b : UInt8} {octets : List UInt8}

@[simp] theorem frameStart_nil (flagFound : Bool) : frameStart flagFound [] = [] := by
  cases flagFound <;> rfl

/-- An octet looked at in search of the start flag is not part of the frame. -/
theorem frameStart_search : frameStart false (b :: octets) =
    frameStart (decide (b = gsm0710FrameFlag)) octets := by
  by_cases hb : b = gsm0710FrameFlag
  · simp [frameStart, hb]
  · simp [frameStart, hb]

/-- Neither is a further flag. -/
theorem frameStart_flag (hb : b = gsm0710FrameFlag) :
    frameStart true (b :: octets) = frameStart true octets := by
  simp [frameStart, hb]

/-- Any other octet begins it. -/
theorem frameStart_found (hb : b ≠ gsm0710FrameFlag) :
    frameStart true (b :: octets) = b :: octets := by
  simp [frameStart, hb]

/-- What lies ahead depends on where the next frame begins only. -/
theorem corruptAhead_congr {cfg : MuxConfig} {n : Nat} {found found' : Bool}
    {octets octets' : List UInt8} (h : frameStart found octets = frameStart found' octets') :
    CorruptAhead cfg n found octets ↔ CorruptAhead cfg n found' octets' := by
  cases n with
  | zero => exact Iff.rfl
  | succ n => rw [CorruptAhead, CorruptAhead, h]

end FrameStart

/-! ## The function follows the octets -/

/-- As many corrupt frames lie ahead of a place in the function as may still be dropped at its
depth. -/
def resyncAhead (cfg : MuxConfig) (s : BaseLocal × GSM0710Buffer) : Prop :=
  let left := maxResyncGetFrameCount - s.1.depthLevel
  match s.1.pc with
  | .find | .skip | .parse => CorruptAhead cfg left s.2.flagFound s.2.contents
  | .store backup (.dropped cur) => CorruptAhead cfg (left - 1) false (s.2.store backup cur).contents
  | .noFlag | .store _ _ => False

/-- What a call that began on `buf` keeps: nothing changes in what lies ahead, and every frame that
was dropped has consumed an octet. -/
structure ResyncInv (cfg : MuxConfig) (buf : GSM0710Buffer) (u : Nat)
    (s : BaseLocal × GSM0710Buffer) : Prop where
  wf : BaseWf u s
  depth_lt : s.1.depthLevel < maxResyncGetFrameCount
  /-- Where the flag has been found, and where the octet after it is not a flag. -/
  found : match s.1.pc with
    | .skip => s.2.flagFound = true
    | .parse => s.2.flagFound = true ∧ frameStart true s.2.contents = s.2.contents
    | _ => True
  consumed : s.2.datacount + s.2.droppedCount ≤ buf.datacount + buf.droppedCount
  ahead : CorruptAhead cfg maxResyncGetFrameCount buf.flagFound buf.contents ↔ resyncAhead cfg s

/-- What a call leaves with. -/
def ResyncPost (cfg : MuxConfig) (buf : GSM0710Buffer) (r : BaseExit × GSM0710Buffer) : Prop :=
  r.2.datacount + r.2.droppedCount ≤ buf.datacount + buf.droppedCount ∧
    (CorruptAhead cfg maxResyncGetFrameCount buf.flagFound buf.contents ↔ r.1 = .assert13)

/-- At the place where the frame is parsed, its octets decide whether it is dropped. -/
theorem corruptAhead_at_parse {cfg : MuxConfig} {b : GSM0710Buffer} {u left : Nat} (hwf : b.Wf u)
    (hfound : b.flagFound = true) (hstart : frameStart true b.contents = b.contents) :
    CorruptAhead cfg (left + 1) b.flagFound b.contents ↔
      match parse cfg b with
      | .dropped cur => CorruptAhead cfg left false (b.store b.datacount cur).contents
      | _ => False := by
  rw [parse_eq cfg hwf, hfound, CorruptAhead, hstart]
  have hconsumes := parseOctets_consumes cfg b.contents
  rw [length_contents] at hconsumes
  cases hparse : parseOctets cfg b.contents with
  | starved => exact Iff.rfl
  | complete frame k => exact Iff.rfl
  | dropped k =>
    rw [hparse] at hconsumes
    have hcontents := contents_store hwf hconsumes.2 (Nat.le_refl _)
    simp only [ParseOutcome.map_dropped]
    rw [← hcontents]
    rfl

/-- A turn changes nothing in what lies ahead. -/
theorem baseTurn_keeps_ahead (cfg : MuxConfig) {buf : GSM0710Buffer} {u : Nat}
    (s : BaseLocal × GSM0710Buffer) (h : ResyncInv cfg buf u s) :
    Keeps (ResyncInv cfg buf u) (ResyncPost cfg buf) (baseTurn cfg s) := by
  have hwf := baseTurn_keeps_wf cfg s h.wf
  obtain ⟨⟨pc, d⟩, b⟩ := s
  obtain ⟨r, b', hmove, hturn⟩ := baseTurn_eq cfg pc d b
  rw [hturn] at hwf ⊢
  have hcount : b.datacount + b.droppedCount ≤ buf.datacount + buf.droppedCount := h.consumed
  have hahead := h.ahead
  obtain ⟨left, hleft⟩ : ∃ left, maxResyncGetFrameCount - d = left + 1 :=
    Nat.exists_eq_add_one_of_ne_zero (Nat.sub_ne_zero_of_lt h.depth_lt)
  cases hmove with
  | findTake hfound hpos =>
    refine ⟨hwf, h.depth_lt, trivial, ?_, ?_⟩
    · change b.datacount - 1 + b.droppedCount ≤ _
      omega
    · change _ ↔ CorruptAhead cfg (maxResyncGetFrameCount - d)
        (decide (b.head = gsm0710FrameFlag)) b.inc.contents
      rw [hahead, ← corruptAhead_congr frameStart_search, ← contents_eq_cons hpos, ← hfound]
      rfl
  | findNone hfound hzero =>
    refine ⟨hwf, h.depth_lt, trivial, hcount, ?_⟩
    rw [hahead]
    refine iff_of_false (fun hcorrupt => ?_) id
    change CorruptAhead cfg (maxResyncGetFrameCount - d) b.flagFound b.contents at hcorrupt
    rwa [hleft, contents_eq_nil.mpr hzero, CorruptAhead, frameStart_nil] at hcorrupt
  | findDone hfound => exact ⟨hwf, h.depth_lt, hfound, hcount, hahead⟩
  | noFlag => exact ⟨hcount, hahead.trans (iff_of_false id (by rintro ⟨⟩))⟩
  | skipTake hpos hhead =>
    have hfound : b.flagFound = true := h.found
    refine ⟨hwf, h.depth_lt, hfound, ?_, ?_⟩
    · change b.datacount - 1 + b.droppedCount ≤ _
      omega
    · change _ ↔ CorruptAhead cfg (maxResyncGetFrameCount - d) b.flagFound b.inc.contents
      rw [hahead, hfound, ← corruptAhead_congr (frameStart_flag hhead), ← contents_eq_cons hpos,
        ← hfound]
      rfl
  | skipDone =>
    have hfound : b.flagFound = true := h.found
    have hskip : ¬ (b.length > 0 ∧ b.head = gsm0710FrameFlag) := fun hskip => by
      simp only [baseTurn, baseStep, if_pos hskip] at hturn
      cases hturn
    refine ⟨hwf, h.depth_lt, ⟨hfound, ?_⟩, hcount, hahead⟩
    by_cases hpos : 0 < b.datacount
    · change frameStart true b.contents = b.contents
      rw [contents_eq_cons hpos]
      exact frameStart_found fun hhead => hskip ⟨hpos, hhead⟩
    · change frameStart true b.contents = b.contents
      rw [contents_eq_nil.mpr (Nat.eq_zero_of_not_pos hpos)]
      exact frameStart_nil true
  | starved hparse =>
    obtain ⟨hfound, hstart⟩ := h.found
    refine ⟨hcount, hahead.trans (iff_of_false ?_ (by rintro ⟨⟩))⟩
    change ¬ CorruptAhead cfg (maxResyncGetFrameCount - d) b.flagFound b.contents
    rw [hleft, corruptAhead_at_parse h.wf.1 hfound hstart, hparse]
    exact id
  | parsed hparse =>
    obtain ⟨hfound, hstart⟩ := h.found
    refine ⟨hwf, h.depth_lt, trivial, hcount, hahead.trans ?_⟩
    change CorruptAhead cfg (maxResyncGetFrameCount - d) b.flagFound b.contents ↔
      resyncAhead cfg (⟨.store b.datacount (parse cfg b), d⟩, b)
    rw [hleft, corruptAhead_at_parse h.wf.1 hfound hstart]
    cases houtcome : parse cfg b with
    | starved => exact Iff.rfl
    | complete frame cur => exact Iff.rfl
    | dropped cur =>
      simp only [resyncAhead, hleft, Nat.add_sub_cancel]
  | storeStarved backup => exact ⟨hcount, hahead.trans (iff_of_false id (by rintro ⟨⟩))⟩
  | dropped backup cur =>
    obtain ⟨hbackup, k, htwo, hk, rfl⟩ := h.wf.dropped
    have hstored := @datacount_store b _ _ hk
    have hconsumed : (b.store backup (b.cursorFrom backup k)).datacount + (b.droppedCount + 1) ≤
        buf.datacount + buf.droppedCount := by omega
    have hnext : CorruptAhead cfg maxResyncGetFrameCount buf.flagFound buf.contents ↔
        CorruptAhead cfg left false (b.store backup (b.cursorFrom backup k)).contents := by
      rw [hahead]
      simp only [resyncAhead, hleft, Nat.add_sub_cancel]
    by_cases hdepth : d + 1 < maxResyncGetFrameCount
    · have henter : baseEnter (d + 1) = .inl ⟨.find, d + 1⟩ := if_pos hdepth
      rw [henter] at hwf ⊢
      refine ⟨hwf, hdepth, trivial, hconsumed, hnext.trans ?_⟩
      have hleft' : maxResyncGetFrameCount - (d + 1) = left := by omega
      change _ ↔ CorruptAhead cfg (maxResyncGetFrameCount - (d + 1)) false
        (b.store backup (b.cursorFrom backup k)).contents
      rw [hleft']
    · have henter : baseEnter (d + 1) = .inr .assert13 := if_neg hdepth
      have hzero : left = 0 := by omega
      rw [henter]
      refine ⟨hconsumed, hnext.trans ?_⟩
      rw [hzero]
      exact iff_of_true trivial rfl
  | complete backup frame cur =>
    obtain ⟨hbackup, k, htwo, hk, rfl⟩ := h.wf.complete
    have hstored := @datacount_store b _ _ hk
    refine ⟨?_, hahead.trans (iff_of_false id (by rintro ⟨⟩))⟩
    change (b.store backup (b.cursorFrom backup k)).datacount + b.droppedCount ≤ _
    omega

/-- A call, on a buffer that holds any octets: it leaves, in a return or in the assertion. -/
theorem resync_total (cfg : MuxConfig) {buf : GSM0710Buffer} {u : Nat} (h : buf.Wf u) :
    ∃ r, loop (baseTurn cfg) (4 * buf.datacount + 5) (⟨.find, 0⟩, buf) = some r ∧
      ResyncPost cfg buf r := by
  have hstart : ResyncInv cfg buf u (⟨.find, 0⟩, buf) :=
    ⟨⟨h, trivial⟩, Nat.succ_pos 2, trivial, Nat.le_refl _, Iff.rfl⟩
  exact loop_spec (baseTurn_keeps_ahead cfg) (fun s hs => baseTurn_decreases cfg s hs.wf) hstart
    (baseMeasure_find_lt buf)

/-- A call ends with a frame, or with none, and every frame it has dropped has consumed an octet. -/
def Resyncs (cfg : MuxConfig) (buf : GSM0710Buffer) : Prop :=
  ∃ frame buf', baseGetFrame cfg buf = some (frame, buf') ∧
    buf'.datacount + buf'.droppedCount ≤ buf.datacount + buf.droppedCount

/-- **When line noise does no harm.**  Whatever octets the buffer holds, a call ends with a frame or
with none, not in the assertion, if and only if fewer corrupt frames than
`MAX_RESYNC_GET_FRAME_COUNT` lie ahead, one after the other. -/
theorem resyncs_iff (cfg : MuxConfig) {buf : GSM0710Buffer} {u : Nat} (h : buf.Wf u) :
    Resyncs cfg buf ↔ ¬ CorruptAhead cfg maxResyncGetFrameCount buf.flagFound buf.contents := by
  obtain ⟨⟨exit, buf'⟩, hloop, hconsumed, hahead⟩ := resync_total cfg h
  rw [hahead]
  cases exit with
  | ret frame =>
    refine iff_of_true ⟨frame, buf', ?_, hconsumed⟩ nofun
    simp only [baseGetFrame, hloop]
  | assert13 =>
    refine iff_of_false ?_ fun hne => hne rfl
    rintro ⟨frame, b, hframe, -⟩
    simp only [baseGetFrame, hloop] at hframe
    cases hframe

/-- A buffer with one corrupt frame and a good one: the good one is delivered. -/
theorem resyncs_after_one :
    let cfg : MuxConfig := ⟨32, fun _ => 512, by decide⟩
    Resyncs cfg (GSM0710Buffer.init.write
      [0xF9, 0x03, 0xEF, 0x01, 0x00, 0xF9, 0xF9, 0x03, 0xEF, 0x01, 0xF5, 0xF9]).1 := by
  refine (resyncs_iff _ (wf_init.write (by decide))).mpr ?_
  decide +kernel

/-- Three headers with a wrong checksum, one after the other. -/
def threeCorrupt : GSM0710Buffer :=
  (GSM0710Buffer.init.write [0xF9, 0x03, 0xEF, 0x01, 0x00, 0xF9, 0xF9, 0x03, 0xEF, 0x01, 0x00, 0xF9,
    0xF9, 0x03, 0xEF, 0x01, 0x00, 0xF9]).1

/-- Three corrupt frames in a row end the mux. -/
theorem not_resyncs_threeCorrupt : ¬ Resyncs ⟨32, fun _ => 512, by decide⟩ threeCorrupt := by
  have hnone : (baseGetFrame ⟨32, fun _ => 512, by decide⟩ threeCorrupt).isNone = true := by
    decide +kernel
  rintro ⟨frame, buf', hsome, -⟩
  rw [hsome] at hnone
  cases hnone

end MtkHw.Mux
