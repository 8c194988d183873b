import MtkHw.Lib.Framing
import MtkHw.Lib.Receiver
import MtkHw.Mux.BaseFrame
import MtkHw.Mux.Transmit

/-!
# The basic mode codec

What `write_frame` puts on the wire in basic mode, `gsm0710_base_buffer_get_frame`
takes off it.  The wire format is stated once, as `encodeBase`: the sender's side
shows that `handle_channel_data` emits encodings of frames, and the receiver's
side that the parser delivers `f` from any buffer whose contents, followed by
what is still to come, begin with the encoding of `f`.

The relation between the two ends is `BasePending`.  A flag octet may be
consumed before the rest of its frame has arrived, so the relation has two
cases, told apart by `flag_found`.  Further flags may stand between the frames:
the parser skips them.
-/

namespace MtkHw.Mux

open Lib

/-! ## Frames that can be sent -/

/-- The frames that the mux sends and accepts: the channel fits in its six bits,
the payload in the frame size negotiated for the channel, the length in its two
octets, and the checksum does not cover the payload. -/
structure Sendable (cfg : MuxConfig) (f : GSM0710Frame) : Prop where
  channel_lt : f.channel.toNat < 64
  length_le_n1 : f.length ≤ cfg.negotiatedN1 f.channel.toNat
  length_lt : f.length < 32768
  not_ui : gsm0710FrameIs gsm0710TypeUi f.control = false

/-! ## Reading a length field back -/

theorem lengthByte1_long {m : Nat} (hm : m < 128) :
    lengthByte1 (UInt8.ofNat (m <<< 1)) = m ∧ UInt8.ofNat (m <<< 1) &&& 1 = 0 := by
  have hall : ∀ m < 128,
      lengthByte1 (UInt8.ofNat (m <<< 1)) = m ∧ UInt8.ofNat (m <<< 1) &&& 1 = 0 := by
    decide +kernel
  exact hall m hm

theorem lengthByte1_short {m : Nat} (hm : m < 128) :
    lengthByte1 ((1 : UInt8) ||| UInt8.ofNat (m <<< 1)) = m ∧
      ((1 : UInt8) ||| UInt8.ofNat (m <<< 1)) &&& 1 ≠ 0 := by
  have hall : ∀ m < 128, lengthByte1 ((1 : UInt8) ||| UInt8.ofNat (m <<< 1)) = m ∧
      ((1 : UInt8) ||| UInt8.ofNat (m <<< 1)) &&& 1 ≠ 0 := by
    decide +kernel
  exact hall m hm

theorem and_7F (n : Nat) : 0x007F &&& n = n % 128 := by
  rw [Nat.and_comm]
  exact Nat.and_two_pow_sub_one_eq_mod n 7

theorem and_7F80_shiftRight (n : Nat) : (0x7F80 &&& n) >>> 7 = n / 128 % 256 := by
  rw [Nat.shiftRight_and_distrib, Nat.and_comm, Nat.shiftRight_eq_div_pow n 7]
  exact Nat.and_two_pow_sub_one_eq_mod (n / 2 ^ 7) 8

/-! ## Parsing an encoding -/

/-- The checksum of a header is good. -/
theorem crcStep_frameCalcCrc (header : List UInt8) :
    crcStep (crcLoop 0xFF header) (frameCalcCrc header) = 0xCF :=
  crcStep_complement _

/-- The parser on the information field, the checksum and the end flag of a frame. -/
theorem parseBodyOctets_body {cfg : MuxConfig} {f : GSM0710Frame} (hf : Sendable cfg f)
    {header octets w rest : List UInt8} {k : Nat}
    (h : octets ++ w = f.data ++ [frameCalcCrc header, gsm0710FrameFlag] ++ rest)
    (hlen : octets.length ≥ 2 + f.length) :
    parseBodyOctets f.channel f.control (crcLoop 0xFF header) f.length k octets =
      .complete f (k + f.length + 2) := by
  have hprefix : f.data ++ [frameCalcCrc header, gsm0710FrameFlag] <+: octets := by
    have hwhole : f.data ++ [frameCalcCrc header, gsm0710FrameFlag] <+: octets ++ w := by
      rw [h]
      exact List.prefix_append ..
    refine List.prefix_of_prefix_length_le hwhole (List.prefix_append ..) ?_
    simp only [List.length_append, List.length_cons, List.length_nil]
    unfold GSM0710Frame.length at hlen
    omega
  obtain ⟨tail, rfl⟩ := hprefix
  rw [List.append_assoc]
  have htake : (f.data ++ ([frameCalcCrc header, gsm0710FrameFlag] ++ tail)).take f.length =
      f.data := List.take_left' rfl
  have hdrop : (f.data ++ ([frameCalcCrc header, gsm0710FrameFlag] ++ tail)).drop f.length =
      frameCalcCrc header :: gsm0710FrameFlag :: tail := List.drop_left' rfl
  simp only [parseBodyOctets, htake, hdrop, hf.not_ui, Bool.false_eq_true, if_false,
    crcStep_frameCalcCrc, ne_eq, not_true_eq_false]

/-- The parser from the end of the length field on: nothing yet, or the frame. -/
theorem parseChecked_body {cfg : MuxConfig} {f : GSM0710Frame} (hf : Sendable cfg f)
    {header octets w rest : List UInt8} {fcs : UInt8} {d k : Nat}
    (h : octets ++ w = f.data ++ [frameCalcCrc header, gsm0710FrameFlag] ++ rest)
    (hfcs : fcs = crcLoop 0xFF header) :
    (if f.length > cfg.negotiatedN1 f.channel.toNat then .dropped d
      else if octets.length ≥ 2 + f.length then
        parseBodyOctets f.channel f.control fcs f.length k octets
      else .starved) =
    if k + octets.length < k + f.length + 2 then .starved
    else .complete f (k + f.length + 2) := by
  rw [if_neg (Nat.not_lt.mpr hf.length_le_n1), hfcs]
  by_cases hlen : octets.length ≥ 2 + f.length
  · rw [if_pos hlen, if_neg (by omega), parseBodyOctets_body hf h hlen]
  · rw [if_neg hlen, if_pos (by omega)]

/-- The parser on the start of a frame: nothing yet, or the frame. -/
theorem parseOctets_bodyBase {cfg : MuxConfig} {f : GSM0710Frame} (hf : Sendable cfg f)
    {octets w rest : List UInt8} (h : octets ++ w = bodyBase f ++ rest) :
    parseOctets cfg octets =
      if octets.length < (bodyBase f).length then .starved
      else .complete f (bodyBase f).length := by
  have hge := length_bodyBase_ge f
  have hlt := hf.length_lt
  have hchannel : gsm0710DecodeAddress (frameAddress f.channel.toNat) = f.channel := by
    rw [decode_frameAddress, and_63_of_lt hf.channel_lt, UInt8.ofNat_toNat]
  match octets with
  | address :: control :: byte1 :: byte2 :: last :: tail =>
    by_cases hlong : f.length > 127
    · -- two octets of length
      obtain ⟨hbyte1, hext⟩ := lengthByte1_long (show f.length % 128 < 128 by omega)
      have hlength : f.length % 128 + (UInt8.ofNat (f.length / 128 % 256)).toNat * 128 =
          f.length := by
        rw [UInt8.toNat_ofNat']
        omega
      have hheader : baseHeader f.channel.toNat f.control f.length =
          [frameAddress f.channel.toNat, f.control, UInt8.ofNat ((f.length % 128) <<< 1),
            UInt8.ofNat (f.length / 128 % 256)] := by
        simp [baseHeader, lengthField, hlong, and_7F, and_7F80_shiftRight]
      have hsize : (bodyBase f).length = 4 + f.length + 2 := by
        rw [length_bodyBase, hheader]
        rfl
      rw [bodyBase, hheader] at h
      simp only [List.cons_append, List.nil_append, List.cons.injEq] at h
      obtain ⟨rfl, rfl, rfl, rfl, htail⟩ := h
      have hcount : (frameAddress f.channel.toNat :: f.control ::
          UInt8.ofNat ((f.length % 128) <<< 1) :: UInt8.ofNat (f.length / 128 % 256) ::
            last :: tail).length = 4 + (last :: tail).length := by
        simp only [List.length_cons]
        omega
      simp only [parseOctets, hext, if_true, hbyte1, hlength, hchannel, hsize, hcount]
      exact parseChecked_body hf htail (by simp only [crcLoop_cons, crcLoop_nil])
    · -- one octet of length
      obtain ⟨hbyte1, hext⟩ := lengthByte1_short (show f.length < 128 by omega)
      have hheader : baseHeader f.channel.toNat f.control f.length =
          [frameAddress f.channel.toNat, f.control,
            (1 : UInt8) ||| UInt8.ofNat (f.length <<< 1)] := by
        simp [baseHeader, lengthField, hlong]
      have hsize : (bodyBase f).length = 3 + f.length + 2 := by
        rw [length_bodyBase, hheader]
        rfl
      rw [bodyBase, hheader] at h
      simp only [List.cons_append, List.nil_append, List.cons.injEq] at h
      obtain ⟨rfl, rfl, rfl, htail⟩ := h
      have hcount : (frameAddress f.channel.toNat :: f.control ::
          ((1 : UInt8) ||| UInt8.ofNat (f.length <<< 1)) :: byte2 :: last :: tail).length =
            3 + (byte2 :: last :: tail).length := by
        simp only [List.length_cons]
        omega
      simp only [parseOctets, hext, if_false, hbyte1, hchannel, hsize, hcount]
      exact parseChecked_body hf htail (by simp only [crcLoop_cons, crcLoop_nil])
  | [] | [_] | [_, _] | [_, _, _] | [_, _, _, _] =>
    rw [if_pos (by simp only [List.length_cons, List.length_nil]; omega)]
    rfl

/-! ## The receiver -/

open GSM0710Buffer

/-- The receive buffer, fed by the reader and asked by the assembler. -/
def baseReceiver (cfg : MuxConfig) : Receiver GSM0710Buffer UInt8 GSM0710Frame where
  free := GSM0710Buffer.free
  feed buf c := (buf.write c).1
  next := baseGetFrame cfg

/-- The octets of the frames of `fs` on the wire, with further flags between them. -/
abbrev FilledBase : List GSM0710Frame → List UInt8 → Prop := Filled gsm0710FrameFlag bodyBase

/-- Frames one behind the other are a stream without fill. -/
theorem filledBase_flatMap (fs : List GSM0710Frame) : FilledBase fs (fs.flatMap encodeBase) := by
  induction fs with
  | nil => exact .nil
  | cons f fs ih => exact .frame f ih

/-- What follows a start flag is not a flag. -/
theorem bodyBase_head (f : GSM0710Frame) : ∃ b t, bodyBase f = b :: t ∧ b ≠ gsm0710FrameFlag :=
  ⟨_, _, rfl, frameAddress_ne_flag _⟩

/-- The stream `w` still to come completes exactly the frames `fs`, with fill between them. -/
structure BasePending (cfg : MuxConfig) (buf : GSM0710Buffer) (fs : List GSM0710Frame)
    (w : List UInt8) : Prop where
  wf : buf.Wf 0
  dropped : buf.droppedCount = 0
  sendable : ∀ f ∈ fs, Sendable cfg f
  stream : FilledBase fs
    (if buf.flagFound then gsm0710FrameFlag :: (buf.contents ++ w) else buf.contents ++ w)

/-- The first frame lies at the read pointer. -/
def FrameAhead (buf : GSM0710Buffer) (f : GSM0710Frame) (fs : List GSM0710Frame) (w : List UInt8) :
    Prop :=
  ∃ w', buf.contents ++ w = bodyBase f ++ w' ∧ FilledBase fs w'

/-- What holds at each place in the function, when the stream has nothing but fill between its
frames. -/
def BaseInv (cfg : MuxConfig) (fs : List GSM0710Frame) (w : List UInt8)
    (s : BaseLocal × GSM0710Buffer) : Prop :=
  BasePending cfg s.2 fs w ∧
    match s.1.pc with
    | .find => True
    | .noFlag => s.2.flagFound = false ∧ s.2.contents = []
    | .skip => s.2.flagFound = true
    | .parse => s.2.flagFound = true ∧ (0 < s.2.datacount → s.2.head ≠ gsm0710FrameFlag)
    | .store backup outcome =>
        backup = s.2.datacount ∧ ∃ f fs', fs = f :: fs' ∧ FrameAhead s.2 f fs' w ∧
          (bodyBase f).length ≤ s.2.datacount ∧
          outcome = .complete f (s.2.cursorAt (bodyBase f).length)

/-- What the function returns, when the stream has nothing but fill between its frames. -/
def BasePost (cfg : MuxConfig) (fs : List GSM0710Frame) (w : List UInt8)
    (r : BaseExit × GSM0710Buffer) : Prop :=
  match r.1 with
  | .ret none => BasePending cfg r.2 fs w ∧ (w = [] → fs = [])
  | .ret (some f) => ∃ fs', fs = f :: fs' ∧ BasePending cfg r.2 fs' w
  | .assert13 => False

namespace BasePending

variable {cfg : MuxConfig} {buf : GSM0710Buffer} {fs : List GSM0710Frame} {w : List UInt8}

theorem stream_of_found (h : BasePending cfg buf fs w) (hfound : buf.flagFound = true) :
    FilledBase fs (gsm0710FrameFlag :: (buf.contents ++ w)) := by
  have hstream := h.stream
  rwa [if_pos hfound] at hstream

theorem stream_of_not_found (h : BasePending cfg buf fs w) (hfound : buf.flagFound = false) :
    FilledBase fs (buf.contents ++ w) := by
  have hstream := h.stream
  rwa [if_neg (Bool.eq_false_iff.mp hfound)] at hstream

/-- In search of a start flag, the first octet is one. -/
theorem inc_of_not_found (h : BasePending cfg buf fs w) (hfound : buf.flagFound = false)
    (hpos : 0 < buf.datacount) :
    buf.head = gsm0710FrameFlag ∧
      BasePending cfg (GSM0710Buffer.inc { buf with flagFound := true }) fs w := by
  have hstream := h.stream_of_not_found hfound
  rw [contents_eq_cons hpos] at hstream
  have hwf := h.wf.inc hpos
  have hhead : buf.head = gsm0710FrameFlag := hstream.head_eq
  refine ⟨hhead, ⟨hwf.readp_lt, hwf.stored_le, hwf.writep_eq⟩, h.dropped, h.sendable, ?_⟩
  rw [hhead] at hstream
  exact hstream

/-- Once a flag has been found, a further one is skipped. -/
theorem inc_of_flag (h : BasePending cfg buf fs w) (hfound : buf.flagFound = true)
    (hpos : 0 < buf.datacount) (hhead : buf.head = gsm0710FrameFlag) :
    BasePending cfg buf.inc fs w := by
  have hstream := h.stream_of_found hfound
  rw [contents_eq_cons hpos, hhead] at hstream
  refine ⟨h.wf.inc hpos, h.dropped, h.sendable, ?_⟩
  have hfound' : buf.inc.flagFound = true := hfound
  rw [if_pos hfound']
  exact hstream.of_flag bodyBase_head

/-- Parsing when the flags have been skipped: not all of the frame is there, or it is delivered. -/
theorem parse_of_found (h : BasePending cfg buf fs w) (hfound : buf.flagFound = true)
    (hhead : 0 < buf.datacount → buf.head ≠ gsm0710FrameFlag) :
    (parse cfg buf = .starved ∧ (w = [] → fs = [])) ∨
      ∃ f fs', fs = f :: fs' ∧ FrameAhead buf f fs' w ∧ (bodyBase f).length ≤ buf.datacount ∧
        parse cfg buf = .complete f (buf.cursorAt (bodyBase f).length) := by
  have hstream := h.stream_of_found hfound
  by_cases hpos : 0 < buf.datacount
  · have hcons := contents_eq_cons hpos
    rw [hcons] at hstream
    obtain ⟨f, fs', w', rfl, hw', hrest⟩ := hstream.of_body (hhead hpos)
    have hw' : buf.contents ++ w = bodyBase f ++ w' := by
      rw [hcons]
      exact hw'
    have hparse := parseOctets_bodyBase (h.sendable f List.mem_cons_self) hw'
    rw [length_contents] at hparse
    by_cases hlt : buf.datacount < (bodyBase f).length
    · left
      refine ⟨by rw [parse_eq cfg h.wf, hparse, if_pos hlt, ParseOutcome.map_starved], ?_⟩
      rintro rfl
      have hlen := congrArg List.length hw'
      simp only [List.append_nil, List.length_append, length_contents] at hlen
      omega
    · right
      refine ⟨f, fs', rfl, ⟨w', hw', hrest⟩, Nat.le_of_not_lt hlt, ?_⟩
      rw [parse_eq cfg h.wf, hparse, if_neg hlt, ParseOutcome.map_complete]
  · left
    have hempty : buf.contents = [] := contents_eq_nil.mpr (Nat.eq_zero_of_not_pos hpos)
    refine ⟨?_, ?_⟩
    · rw [parse_eq cfg h.wf, hempty]
      rfl
    · rintro rfl
      rw [hempty] at hstream
      exact hstream.eq_nil_of_flag bodyBase_head

end BasePending

theorem BaseInv.wf {cfg : MuxConfig} {fs : List GSM0710Frame} {w : List UInt8}
    {s : BaseLocal × GSM0710Buffer} (h : BaseInv cfg fs w s) : BaseWf 0 s := by
  obtain ⟨⟨pc, depth⟩, buf⟩ := s
  refine ⟨h.1.wf, ?_⟩
  cases pc with
  | store backup outcome =>
    obtain ⟨-, hbackup, f, fs', -, -, hle, houtcome⟩ := h
    dsimp only at hbackup houtcome hle
    subst hbackup
    have hge := length_bodyBase_ge f
    exact ⟨Nat.le_refl _, .complete f (bodyBase f).length, ⟨by omega, hle⟩, houtcome⟩
  | _ => trivial

/-- Every turn keeps the invariant, or returns what it should. -/
theorem baseTurn_keeps {cfg : MuxConfig} {fs : List GSM0710Frame} {w : List UInt8}
    (s : BaseLocal × GSM0710Buffer) (h : BaseInv cfg fs w s) :
    Keeps (BaseInv cfg fs w) (BasePost cfg fs w) (baseTurn cfg s) := by
  obtain ⟨⟨pc, depth⟩, buf⟩ := s
  obtain ⟨hp, hpc⟩ := h
  change BasePending cfg buf fs w at hp
  cases pc with
  | find =>
    cases hfound : buf.flagFound with
    | true =>
      simp only [baseTurn, baseStep, hfound, Bool.not_true, Bool.false_and]
      exact ⟨hp, hfound⟩
    | false =>
      by_cases hpos : 0 < buf.datacount
      · obtain ⟨hhead, hp'⟩ := hp.inc_of_not_found hfound hpos
        simp only [baseTurn, baseStep, hfound, length, hpos, hhead, Bool.not_false, Bool.true_and,
          decide_true, if_true]
        exact ⟨hp', trivial⟩
      · simp only [baseTurn, baseStep, hfound, length, hpos, Bool.not_false, Bool.true_and,
          decide_false]
        exact ⟨hp, hfound, contents_eq_nil.mpr (Nat.eq_zero_of_not_pos hpos)⟩
  | noFlag =>
    refine ⟨hp, ?_⟩
    rintro rfl
    have hstream := hp.stream_of_not_found hpc.1
    rw [hpc.2] at hstream
    exact hstream.eq_nil
  | skip =>
    by_cases hskip : buf.length > 0 ∧ buf.head = gsm0710FrameFlag
    · simp only [baseTurn, baseStep, if_pos hskip]
      exact ⟨hp.inc_of_flag hpc hskip.1 hskip.2, hpc⟩
    · simp only [baseTurn, baseStep, if_neg hskip]
      exact ⟨hp, hpc, fun hpos hhead => hskip ⟨hpos, hhead⟩⟩
  | parse =>
    rcases hp.parse_of_found hpc.1 hpc.2 with ⟨hstarved, hw⟩ | ⟨f, fs', rfl, hahead, hle, hcomplete⟩
    · simp only [baseTurn, baseStep, hstarved]
      exact ⟨hp, hw⟩
    · simp only [baseTurn, baseStep, hcomplete]
      exact ⟨hp, rfl, f, fs', rfl, hahead, hle, rfl⟩
  | store backup outcome =>
    dsimp only at hpc
    obtain ⟨hbackup, f, fs', rfl, ⟨w', hw', hrest⟩, hle, houtcome⟩ := hpc
    subst hbackup houtcome
    simp only [baseTurn, baseStep]
    have hwf := hp.wf.store hle (Nat.le_refl _)
    refine ⟨fs', rfl, ⟨hwf.readp_lt, hwf.stored_le, hwf.writep_eq⟩, hp.dropped,
      fun g hg => hp.sendable g (List.mem_cons_of_mem _ hg), ?_⟩
    have hcontents : (buf.store buf.datacount (buf.cursorFrom buf.datacount
        (bodyBase f).length)).contents ++ w = w' := by
      rw [contents_store hp.wf hle (Nat.le_refl _),
        ← List.drop_append_of_le_length (by rw [length_contents]; exact hle), hw',
        List.drop_left' rfl]
    exact hcontents ▸ hrest

/-- The receiver decodes the wire format, filled or not. -/
theorem baseReceiver_decodes (cfg : MuxConfig) :
    (baseReceiver cfg).Decodes (BasePending cfg) where
  feed := by
    intro buf fs c w hp hfit
    have hstream := hp.stream
    refine ⟨hp.wf.write hfit, hp.dropped, hp.sendable, ?_⟩
    simp only [baseReceiver, contents_write hp.wf hfit, List.append_assoc]
    exact hstream
  next := by
    intro buf fs w hp
    obtain ⟨⟨exit, buf'⟩, hloop, hpost⟩ :=
      loop_spec baseTurn_keeps (fun s hs => baseTurn_decreases cfg s hs.wf)
        (s := (⟨.find, 0⟩, buf)) ⟨hp, trivial⟩ (baseMeasure_find_lt buf)
    simp only [baseReceiver, baseGetFrame, hloop]
    match exit, hpost with
    | .ret none, ⟨hp', hw⟩ => exact .inl ⟨buf', rfl, hp', hw⟩
    | .ret (some f), ⟨fs', hfs, hp'⟩ => exact .inr ⟨f, fs', buf', hfs, rfl, hp'⟩

/-! ## The codec -/

/-- What `handle_channel_data` makes of the bytes of a channel can be sent. -/
theorem Segment.sendable {cfg : MuxConfig} (hn1 : ∀ c < cfg.maxChannels, cfg.negotiatedN1 c ≤ 1509)
    {c : Nat} (hc : c < cfg.maxChannels) {f : GSM0710Frame} (h : Segment cfg c f) :
    Sendable cfg f := by
  have hle := cfg.maxChannels_le
  have hchannel : f.channel.toNat = c := by
    rw [h.channel_eq, UInt8.toNat_ofNat']
    omega
  have hlen := h.length_le
  have hmax := hn1 c hc
  refine ⟨by omega, by rwa [hchannel], by omega, ?_⟩
  rcases h.control_eq with hcontrol | hcontrol <;> rw [hcontrol] <;> decide

/-- **Basic mode round trip.**  Whatever is sent, in however many pieces the
stream arrives and whenever the assembler asks: the frames it gets are the first
ones that were written, none is dropped, and once the whole stream has been fed
and the assembler has asked often enough they are exactly those that were
written.  The payloads of a channel are the bytes written to it. -/
theorem base_codec_round_trip (cfg : MuxConfig)
    (hn1 : ∀ c < cfg.maxChannels, 1 ≤ cfg.negotiatedN1 c ∧ cfg.negotiatedN1 c ≤ 1509)
    (tx : TxState) (hfresh : tx.Fresh) (sends : List (Send cfg)) (ops : List (Receiver.Op UInt8))
    (hfed : Receiver.fed ops = (sendAll cfg false tx sends).wire)
    (hfit : (baseReceiver cfg).Fits GSM0710Buffer.init ops) :
    (∀ ops₁, ops₁ <+: ops → ∃ out buf,
      (baseReceiver cfg).run GSM0710Buffer.init ops₁ = some (out, buf) ∧
        out <+: (sendAll cfg false tx sends).framesWritten ∧ buf.droppedCount = 0) ∧
    (∀ k, (sendAll cfg false tx sends).framesWritten.length ≤ k → ∃ buf,
      (baseReceiver cfg).run GSM0710Buffer.init (ops ++ List.replicate k .ask) =
          some ((sendAll cfg false tx sends).framesWritten, buf) ∧ buf.droppedCount = 0) ∧
    ∀ c < cfg.maxChannels,
      ((sendAll cfg false tx sends).framesWritten.filter (·.channel = UInt8.ofNat c)).flatMap
          GSM0710Frame.data =
        (sends.filter (·.channel = c)).flatMap Send.data := by
  obtain ⟨frames, hemits, hseg, hdata⟩ := sendAll_emits cfg false (fun c hc => (hn1 c hc).1) sends
    hfresh.fullWrites hfresh.running
  have hwire : (sendAll cfg false tx sends).wire = frames.flatMap encodeBase := by
    rw [hemits.wire, hfresh.wire]
    rfl
  have hframes : (sendAll cfg false tx sends).framesWritten = frames := by
    rw [hemits.framesWritten, hfresh.framesWritten]
    rfl
  have hsendable : ∀ f ∈ frames, Sendable cfg f := by
    intro f hf
    obtain ⟨c, hc, hf⟩ := hseg f hf
    exact hf.sendable (fun c hc => (hn1 c hc).2) hc
  have hpending : BasePending cfg GSM0710Buffer.init frames (Receiver.fed ops) := by
    refine ⟨wf_init, rfl, hsendable, ?_⟩
    rw [hfed, hwire]
    exact filledBase_flatMap frames
  rw [hframes]
  refine ⟨?_, ?_, hdata⟩
  · intro ops₁ hpre
    obtain ⟨out, buf, rest, hrun, hout, hrel⟩ :=
      (baseReceiver_decodes cfg).run_of_append hpending hfit hpre
    exact ⟨out, buf, hrun, hout, hrel.dropped⟩
  · intro k hk
    obtain ⟨buf, hrun, hrel⟩ := (baseReceiver_decodes cfg).run_all hpending hfit hk
    exact ⟨buf, hrun, hrel.dropped⟩

/-- The round trip of three bytes on channel 1, in frames of at most two bytes,
the first of them a flag octet; the stream arrives cut inside a payload. -/
theorem base_codec_round_trip_three :
    let cfg : MuxConfig := ⟨32, fun _ => 2, by decide⟩
    let t := sendAll cfg false {} [⟨1, [0xF9, 0x41, 0x42], by decide⟩]
    t.framesWritten = [⟨1, 0xEF, [0xF9, 0x41]⟩, ⟨1, 0xEF, [0x42]⟩] ∧
      ∃ buf, (baseReceiver cfg).run GSM0710Buffer.init
        ([.feed (t.wire.take 5), .feed (t.wire.drop 5)] ++ List.replicate 2 .ask) =
          some (t.framesWritten, buf) ∧ buf.droppedCount = 0 := by
  refine ⟨by decide, ?_⟩
  exact (base_codec_round_trip ⟨32, fun _ => 2, by decide⟩ (fun _ _ => by simp) {}
    ⟨rfl, rfl, fun _ ho => by simp at ho, rfl⟩ [⟨1, [0xF9, 0x41, 0x42], by decide⟩]
    [.feed _, .feed _] (by simp [Receiver.fed]) ⟨by decide, by decide, trivial⟩).2.1 2
    (by decide)

end MtkHw.Mux
