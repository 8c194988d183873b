import MtkHw.Lib.Receiver
import MtkHw.Mux.AdvFrame
import MtkHw.Mux.Transmit

/-!
# The advanced mode codec

What `write_frame` puts on the wire in advanced mode,
`gsm0710_advanced_buffer_get_frame` takes off it.

The decoder keeps what it has got of a frame in the buffer, so the relation
between the two ends, `AdvPending`, says what is still to come of that frame:
its octets `todo`, escaped, with the first escape octet perhaps already gone.
-/

namespace MtkHw.Mux

open Lib GSM0710Buffer

/-! ## Escaping -/

/-- The octets of a frame that are escaped. -/
def advBody (f : GSM0710Frame) : List UInt8 :=
  frameAddress f.channel.toNat :: f.control ::
    (f.data ++ [frameCalcCrc [frameAddress f.channel.toNat, f.control]])

theorem encodeAdv_eq (f : GSM0710Frame) : encodeAdv f =
    gsm0710FrameAdvFlag :: (fillAdvFrameBuf (advBody f) ++ [gsm0710FrameAdvFlag]) := by
  simp [encodeAdv, advFrameBuf, advBody, fillAdvFrameBuf]

theorem fillAdvFrameBuf_cons_of_mem {b : UInt8} (hb : b ∈ gsm0710FrameAdvEscapedSyms)
    (bs : List UInt8) : fillAdvFrameBuf (b :: bs) =
      gsm0710FrameAdvEsc :: (b ^^^ gsm0710FrameAdvEscCopml) :: fillAdvFrameBuf bs := by
  simp [fillAdvFrameBuf, hb]

theorem fillAdvFrameBuf_cons_of_notMem {b : UInt8} (hb : b ∉ gsm0710FrameAdvEscapedSyms)
    (bs : List UInt8) : fillAdvFrameBuf (b :: bs) = b :: fillAdvFrameBuf bs := by
  simp [fillAdvFrameBuf, hb]

theorem ne_of_notMem_escaped {b : UInt8} (hb : b ∉ gsm0710FrameAdvEscapedSyms) :
    b ≠ gsm0710FrameAdvFlag ∧ b ≠ gsm0710FrameAdvEsc := by
  constructor
  · rintro rfl
    exact hb (by decide)
  · rintro rfl
    exact hb (by decide)

/-- An escaped octet is never taken for a flag, and complementing it gives the
octet back. -/
theorem escaped_xor {b : UInt8} (hb : b ∈ gsm0710FrameAdvEscapedSyms) :
    b ^^^ gsm0710FrameAdvEscCopml ≠ gsm0710FrameAdvFlag ∧
      b ^^^ gsm0710FrameAdvEscCopml ^^^ gsm0710FrameAdvEscCopml = b := by
  simp only [gsm0710FrameAdvEscapedSyms, List.mem_cons, List.not_mem_nil, or_false] at hb
  rcases hb with rfl | rfl | rfl | rfl | rfl | rfl
  all_goals decide

/-! ## Frames -/

/-- The frames that the advanced mode carries: the channel fits in its six bits,
the payload in the largest frame size there is, and the checksum does not cover
the payload. -/
structure AdvSendable (f : GSM0710Frame) : Prop where
  channel_lt : f.channel.toNat < 64
  length_le : f.length ≤ 1509
  not_ui : gsm0710FrameIs gsm0710TypeUi f.control = false

theorem length_advBody (f : GSM0710Frame) : (advBody f).length = f.length + 3 := by
  simp [advBody, GSM0710Frame.length]

/-- The octets of a frame give the frame back. -/
theorem advFrame_advBody {f : GSM0710Frame} (hf : AdvSendable f) :
    advFrame (advBody f) = some (some f) := by
  have hchannel : gsm0710DecodeAddress (frameAddress f.channel.toNat) = f.channel := by
    rw [decode_frameAddress, and_63_of_lt hf.channel_lt, UInt8.ofNat_toNat]
  have hlen := length_advBody f
  have hpayload : ((advBody f).drop 2).take ((advBody f).length - 3) = f.data := by
    rw [hlen]
    exact List.take_left' rfl
  have hfcs : (advBody f).getD ((advBody f).length - 1) 0 =
      frameCalcCrc [frameAddress f.channel.toNat, f.control] := by
    rw [hlen]
    simp [advBody, GSM0710Frame.length]
  have hgood : crcStep (crcLoop 0xFF [frameAddress f.channel.toNat, f.control])
      (frameCalcCrc [frameAddress f.channel.toNat, f.control]) = 0xCF := crcStep_complement _
  have haddress : (advBody f).getD 0 0 = frameAddress f.channel.toNat := rfl
  have hcontrol : (advBody f).getD 1 0 = f.control := rfl
  rw [advFrame, if_neg (by omega)]
  simp only [haddress, hcontrol, hpayload, hfcs, hf.not_ui, hchannel, hgood, ne_eq,
    not_true_eq_false, Bool.false_eq_true, if_false]

/-! ## The receiver -/

/-- The receive buffer in advanced mode. -/
def advReceiver : Receiver GSM0710Buffer UInt8 GSM0710Frame where
  free := GSM0710Buffer.free
  feed buf c := (buf.write c).1
  next := advGetFrame

/-- The escaped form of `todo`, without its escape octet when that is gone. -/
def advTodo : Bool → List UInt8 → List UInt8
  | false, todo => fillAdvFrameBuf todo
  | true, todo => (fillAdvFrameBuf todo).tail

/-- What has been taken of the frame `f`, and what is still to come of it. -/
structure AdvPartial (buf : GSM0710Buffer) (f : GSM0710Frame) (todo stream rest : List UInt8) :
    Prop where
  body : advBody f = buf.advData ++ todo
  escaped : buf.advFoundEsc = true → ∃ b bs, todo = b :: bs ∧ b ∈ gsm0710FrameAdvEscapedSyms
  stream_eq : stream = advTodo buf.advFoundEsc todo ++ gsm0710FrameAdvFlag :: rest

/-- The stream `w` still to come completes exactly the frames `fs`. -/
structure AdvPending (buf : GSM0710Buffer) (fs : List GSM0710Frame) (w : List UInt8) : Prop where
  wf : buf.Wf 0
  dropped : buf.droppedCount = 0
  sendable : ∀ f ∈ fs, AdvSendable f
  stream : if buf.flagFound then
      ∃ f fs' todo, fs = f :: fs' ∧
        AdvPartial buf f todo (buf.contents ++ w) (fs'.flatMap encodeAdv)
    else buf.contents ++ w = fs.flatMap encodeAdv

namespace AdvPending

variable {buf : GSM0710Buffer} {fs : List GSM0710Frame} {w : List UInt8}

theorem stream_of_found (h : AdvPending buf fs w) (hfound : buf.flagFound = true) :
    ∃ f fs' todo, fs = f :: fs' ∧
      AdvPartial buf f todo (buf.contents ++ w) (fs'.flatMap encodeAdv) := by
  have hstream := h.stream
  rwa [if_pos hfound] at hstream

theorem stream_of_not_found (h : AdvPending buf fs w) (hfound : buf.flagFound = false) :
    buf.contents ++ w = fs.flatMap encodeAdv := by
  have hstream := h.stream
  rwa [if_neg (by simp [hfound])] at hstream

/-- The octet before a frame is its flag. -/
theorem start (h : AdvPending buf fs w) (hfound : buf.flagFound = false)
    (hpos : 0 < buf.datacount) :
    buf.head = gsm0710FrameAdvFlag ∧ AdvPending buf.startAdv.inc fs w := by
  have hstream := h.stream_of_not_found hfound
  rw [contents_eq_cons hpos] at hstream
  cases fs with
  | nil => simp at hstream
  | cons f fs' =>
    simp only [List.flatMap_cons, encodeAdv_eq, List.cons_append, List.cons.injEq,
      List.append_assoc, List.nil_append] at hstream
    obtain ⟨hhead, htail⟩ := hstream
    have hwf := h.wf.inc hpos
    refine ⟨hhead, ⟨hwf.readp_lt, hwf.stored_le, hwf.writep_eq⟩, h.dropped, h.sendable, ?_⟩
    have hnone : buf.startAdv.inc.advFoundEsc = true →
        ∃ b bs, advBody f = b :: bs ∧ b ∈ gsm0710FrameAdvEscapedSyms := by
      intro hc
      cases hc
    exact ⟨f, fs', advBody f, rfl, ⟨rfl, hnone, htail⟩⟩

end AdvPending

/-- Taking an octet consumes it, whatever becomes of it. -/
theorem contents_takeAdv_inc (buf : GSM0710Buffer) : buf.takeAdv.inc.contents = buf.inc.contents := by
  rw [takeAdv_eq]
  rfl

namespace AdvPartial

variable {buf : GSM0710Buffer} {f : GSM0710Frame} {todo stream rest : List UInt8}

/-- While something of the frame is still to come, `adv_data` has room. -/
theorem advLength_lt (h : AdvPartial buf f todo stream rest) (hf : AdvSendable f) :
    buf.advLength < gsm0710BufferSize := by
  have hlen := congrArg List.length h.body
  rw [length_advBody, List.length_append] at hlen
  have hmax := hf.length_le
  have hsize : gsm0710BufferSize = 4096 := rfl
  unfold advLength
  omega

/-- When nothing is to come but the closing flag, the frame is in `adv_data`. -/
theorem closing (h : AdvPartial buf f [] stream rest) :
    buf.advFoundEsc = false ∧ buf.advData = advBody f ∧ stream = gsm0710FrameAdvFlag :: rest := by
  have hesc : buf.advFoundEsc = false := by
    by_contra hc
    obtain ⟨b, bs, hnil, -⟩ := h.escaped (by simpa using hc)
    cases hnil
  refine ⟨hesc, by simpa using h.body.symm, ?_⟩
  rw [h.stream_eq, hesc]
  rfl

/-- The next octet of a frame is not its closing flag, and taking it leaves the
rest to come. -/
theorem take {b : UInt8} {bs : List UInt8} {stream : List UInt8}
    (h : AdvPartial buf f (b :: bs) (buf.head :: stream) rest) :
    ¬ (buf.advFoundEsc = false ∧ buf.head = gsm0710FrameAdvFlag) ∧
      buf.head ≠ gsm0710FrameAdvFlag ∧
      ∃ todo, AdvPartial buf.takeAdv f todo stream rest := by
  cases hesc : buf.advFoundEsc with
  | true =>
    -- the octet is the complement of an escaped one
    obtain ⟨b', bs', hcons, hb⟩ := h.escaped hesc
    cases hcons
    have hstream := h.stream_eq
    rw [hesc, advTodo, fillAdvFrameBuf_cons_of_mem hb] at hstream
    simp only [List.tail_cons, List.cons_append, List.cons.injEq] at hstream
    obtain ⟨hhead, htail⟩ := hstream
    obtain ⟨hflag, hback⟩ := escaped_xor hb
    refine ⟨by simp, by rwa [hhead], bs, ?_, ?_, ?_⟩
    · simp only [takeAdv, hesc, if_true, hhead, hback]
      rw [h.body, List.append_assoc]
      rfl
    · simp [takeAdv, hesc]
    · simp only [takeAdv, hesc, if_true]
      exact htail
  | false =>
    by_cases hb : b ∈ gsm0710FrameAdvEscapedSyms
    · -- the octet is the escape of the one to come
      have hstream := h.stream_eq
      rw [hesc, advTodo, fillAdvFrameBuf_cons_of_mem hb] at hstream
      simp only [List.cons_append, List.cons.injEq] at hstream
      obtain ⟨hhead, htail⟩ := hstream
      have hflag : buf.head ≠ gsm0710FrameAdvFlag := by
        rw [hhead]
        decide
      refine ⟨fun hc => hflag hc.2, hflag, b :: bs, ?_, ?_, ?_⟩
      · simpa [takeAdv, hesc, hhead] using h.body
      · exact fun _ => ⟨b, bs, rfl, hb⟩
      · simp only [takeAdv, hesc, Bool.false_eq_true, if_false, hhead, if_true, advTodo,
          fillAdvFrameBuf_cons_of_mem hb, List.tail_cons, List.cons_append]
        exact htail
    · -- the octet stands for itself
      have hstream := h.stream_eq
      rw [hesc, advTodo, fillAdvFrameBuf_cons_of_notMem hb] at hstream
      simp only [List.cons_append, List.cons.injEq] at hstream
      obtain ⟨hhead, htail⟩ := hstream
      obtain ⟨hflag, hescape⟩ := ne_of_notMem_escaped hb
      rw [← hhead] at hflag hescape
      refine ⟨fun hc => hflag hc.2, hflag, bs, ?_, ?_, ?_⟩
      · simp only [takeAdv, hesc, Bool.false_eq_true, if_false, if_neg hescape]
        rw [h.body, List.append_assoc, hhead]
        rfl
      · simp [takeAdv, hesc, if_neg hescape]
      · simp only [takeAdv, hesc, Bool.false_eq_true, if_false, if_neg hescape]
        exact htail

end AdvPartial

/-- What holds at each place in the function, when nothing is wrong with the
stream. -/
def AdvInv (fs : List GSM0710Frame) (w : List UInt8) (s : AdvPc × GSM0710Buffer) : Prop :=
  AdvPending s.2 fs w ∧ (s.1 = .find ∨ s.2.flagFound = true)

/-- What the function returns, when nothing is wrong with the stream. -/
def AdvPost (fs : List GSM0710Frame) (w : List UInt8) (r : Option GSM0710Frame × GSM0710Buffer) :
    Prop :=
  match r.1 with
  | none => AdvPending r.2 fs w ∧ (w = [] → fs = [])
  | some f => ∃ fs', fs = f :: fs' ∧ AdvPending r.2 fs' w

namespace AdvPending

variable {buf : GSM0710Buffer} {fs : List GSM0710Frame} {w : List UInt8}

/-- The octet at the read pointer either closes the first frame or is one of it. -/
theorem scan (h : AdvPending buf fs w) (hfound : buf.flagFound = true) (hpos : 0 < buf.datacount) :
    (∃ f fs', fs = f :: fs' ∧ buf.advFoundEsc = false ∧ buf.head = gsm0710FrameAdvFlag ∧
        buf.advData = advBody f ∧ buf.inc.contents ++ w = fs'.flatMap encodeAdv) ∨
      (¬ (buf.advFoundEsc = false ∧ buf.head = gsm0710FrameAdvFlag) ∧
        buf.head ≠ gsm0710FrameAdvFlag ∧ buf.advLength < gsm0710BufferSize ∧
        AdvPending buf.takeAdv.inc fs w) := by
  obtain ⟨f, fs', todo, rfl, hpart⟩ := h.stream_of_found hfound
  rw [contents_eq_cons hpos, List.cons_append] at hpart
  cases todo with
  | nil =>
    left
    obtain ⟨hesc, hdata, hstream⟩ := hpart.closing
    simp only [List.cons.injEq] at hstream
    exact ⟨f, fs', rfl, hesc, hstream.1, hdata, hstream.2⟩
  | cons b bs =>
    right
    obtain ⟨hclose, hflag, todo, htake⟩ := hpart.take
    have hwf := h.wf.takeAdv.inc (by rwa [datacount_takeAdv])
    have hdropped : buf.takeAdv.inc.droppedCount = 0 :=
      (droppedCount_takeAdv buf).trans h.dropped
    have hfound' : buf.takeAdv.inc.flagFound = true := (flagFound_takeAdv buf).trans hfound
    refine ⟨hclose, hflag, hpart.advLength_lt (h.sendable f List.mem_cons_self), hwf, hdropped,
      h.sendable, ?_⟩
    rw [if_pos hfound', contents_takeAdv_inc]
    exact ⟨f, fs', todo, rfl, htake.body, htake.escaped, htake.stream_eq⟩

end AdvPending

/-- Every step keeps the invariant, or returns what it should. -/
theorem advStep_keeps {fs : List GSM0710Frame} {w : List UInt8} (s : AdvPc × GSM0710Buffer)
    (h : AdvInv fs w s) : Keeps (AdvInv fs w) (AdvPost fs w) (advStep s) := by
  obtain ⟨pc, buf⟩ := s
  obtain ⟨hp, hpc⟩ := h
  change AdvPending buf fs w at hp
  cases pc with
  | find =>
    cases hfound : buf.flagFound with
    | true =>
      simp only [advStep, hfound, Bool.not_true, Bool.false_and]
      exact ⟨hp, .inr hfound⟩
    | false =>
      by_cases hpos : 0 < buf.datacount
      · obtain ⟨hhead, hp'⟩ := hp.start hfound hpos
        simp only [advStep, GSM0710Buffer.length, hfound, hpos, hhead, Bool.not_false,
          Bool.true_and, decide_true, if_true]
        exact ⟨hp', .inl rfl⟩
      · simp only [advStep, GSM0710Buffer.length, hfound, hpos, Bool.not_false, Bool.true_and,
          decide_false]
        refine ⟨hp, ?_⟩
        rintro rfl
        have hstream := hp.stream_of_not_found hfound
        rw [contents_eq_nil.mpr (by omega)] at hstream
        cases fs with
        | nil => rfl
        | cons f fs' => simp [encodeAdv_eq] at hstream
  | skip =>
    have hfound : buf.flagFound = true := by simpa using hpc
    have hskip : ¬ (buf.advLength = 0 ∧ buf.length > 0 ∧ buf.head = gsm0710FrameAdvFlag) := by
      rintro ⟨hzero, hpos, hhead⟩
      rcases hp.scan hfound hpos with ⟨f, fs', -, -, -, hdata, -⟩ | ⟨-, hflag, -⟩
      · have hlen := length_advBody f
        rw [← hdata] at hlen
        unfold advLength at hzero
        omega
      · exact hflag hhead
    simp only [advStep, if_neg hskip]
    exact ⟨hp, .inr hfound⟩
  | scan =>
    have hfound : buf.flagFound = true := by simpa using hpc
    by_cases hlen : buf.length = 0
    · simp only [advStep, if_pos hlen]
      refine ⟨hp, ?_⟩
      rintro rfl
      obtain ⟨f, fs', todo, rfl, hpart⟩ := hp.stream_of_found hfound
      have hstream := hpart.stream_eq
      rw [contents_eq_nil.mpr hlen] at hstream
      simp at hstream
    · have hpos : 0 < buf.datacount := Nat.pos_of_ne_zero hlen
      rcases hp.scan hfound hpos with
        ⟨f, fs', rfl, hesc, hhead, hdata, hrest⟩ | ⟨hclose, -, hlt, hp'⟩
      · have hframe : advFrame buf.inc.advData = some (some f) := by
          rw [← advFrame_advBody (hp.sendable f List.mem_cons_self), ← hdata]
          rfl
        simp only [advStep, if_neg hlen, if_pos (And.intro hesc hhead), hframe]
        have hwf := hp.wf.inc hpos
        exact ⟨fs', rfl, ⟨hwf.readp_lt, hwf.stored_le, hwf.writep_eq⟩, hp.dropped,
          fun g hg => hp.sendable g (List.mem_cons_of_mem _ hg), hrest⟩
      · simp only [advStep, if_neg hlen, if_neg hclose, if_neg (Nat.not_le.mpr hlt)]
        exact ⟨hp', .inr ((flagFound_takeAdv buf).trans hfound)⟩

/-- The receiver decodes the wire format. -/
theorem advReceiver_decodes : advReceiver.Decodes AdvPending where
  feed := by
    intro buf fs c w hp hfit
    refine ⟨hp.wf.write hfit, hp.dropped, hp.sendable, ?_⟩
    have hstream := hp.stream
    rw [← List.append_assoc, ← contents_write hp.wf hfit] at hstream
    by_cases hfound : buf.flagFound = true
    · rw [if_pos hfound] at hstream
      rw [if_pos (show (advReceiver.feed buf c).flagFound = true from hfound)]
      obtain ⟨f, fs', todo, hfs, hpart⟩ := hstream
      exact ⟨f, fs', todo, hfs, hpart.body, hpart.escaped, hpart.stream_eq⟩
    · rw [if_neg hfound] at hstream
      rw [if_neg (show ¬ (advReceiver.feed buf c).flagFound = true from hfound)]
      exact hstream
  next := by
    intro buf fs w hp
    obtain ⟨⟨frame, buf'⟩, hloop, hpost⟩ :=
      loop_spec advStep_keeps (fun s _ => advStep_decreases s) (s := (.find, buf))
        ⟨hp, .inl rfl⟩ (advMeasure_find_lt buf)
    cases frame with
    | none => exact .inl ⟨buf', hloop, hpost⟩
    | some f =>
      obtain ⟨fs', hfs, hp'⟩ := hpost
      exact .inr ⟨f, fs', buf', hfs, hloop, hp'⟩

/-! ## The codec -/

/-- A call of `write_frame`: `length` octets of the memory at `input`, as a frame
whose checksum does not cover them. -/
structure WriteCall where
  channel : Nat
  input : List UInt8
  length : Nat
  type : UInt8
  channel_lt : channel < 64
  length_le : length ≤ input.length
  not_ui : gsm0710FrameIs gsm0710TypeUi type = false

/-- The calls of `write_frame` in turn. -/
def writeAll (cfg : MuxConfig) (cmuxMode : Bool) (tx : TxState) (calls : List WriteCall) : TxState :=
  calls.foldl
    (fun tx call => (writeFrame cfg cmuxMode tx call.channel call.input call.length call.type).2) tx

/-- The frame that a call writes: the final bit may be set in its control octet. -/
structure WrittenBy (cfg : MuxConfig) (call : WriteCall) (f : GSM0710Frame) : Prop where
  channel_eq : f.channel = UInt8.ofNat call.channel
  control_eq : f.control = call.type ∨ f.control = call.type ||| gsm0710Pf
  data_eq : f.data = call.input.take (min (cfg.negotiatedN1 call.channel) call.length)

theorem writeAll_emits (cfg : MuxConfig) (cmuxMode : Bool) (calls : List WriteCall) :
    ∀ {tx : TxState}, tx.FullWrites → tx.stopMuxd = false →
      ∃ frames, Emits cmuxMode tx (writeAll cfg cmuxMode tx calls) frames ∧
        List.Forall₂ (WrittenBy cfg) calls frames := by
  induction calls with
  | nil =>
    intro tx hfull hrun
    exact ⟨[], .refl hfull hrun, .nil⟩
  | cons call calls ih =>
    intro tx hfull hrun
    obtain ⟨-, hemits⟩ := writeFrame_emits cfg cmuxMode hfull hrun call.channel call.input
      call.length_le call.type
    obtain ⟨frames, hemits', hwritten⟩ := ih hemits.fullWrites hemits.running
    exact ⟨_ :: frames, hemits.trans hemits', .cons ⟨rfl, frameControl_fst .., rfl⟩ hwritten⟩

/-- The final bit does not make an information frame of another type. -/
theorem gsm0710FrameIs_or_pf (type control : UInt8) :
    gsm0710FrameIs type (control ||| gsm0710Pf) = gsm0710FrameIs type control := by
  have hmask : (control ||| gsm0710Pf) &&& ~~~gsm0710Pf = control &&& ~~~gsm0710Pf :=
    forall_octet (P := fun c => (c ||| gsm0710Pf) &&& ~~~gsm0710Pf = c &&& ~~~gsm0710Pf)
      (by decide +kernel) control
  rw [gsm0710FrameIs, gsm0710FrameIs, hmask]

theorem WrittenBy.sendable {cfg : MuxConfig} (hn1 : ∀ c < 64, cfg.negotiatedN1 c ≤ 1509)
    {call : WriteCall} {f : GSM0710Frame} (h : WrittenBy cfg call f) : AdvSendable f := by
  have hlt := call.channel_lt
  have hmax := hn1 call.channel hlt
  refine ⟨?_, ?_, ?_⟩
  · rw [h.channel_eq, UInt8.toNat_ofNat']
    omega
  · rw [GSM0710Frame.length, h.data_eq, List.length_take]
    omega
  · rcases h.control_eq with hcontrol | hcontrol
    · rw [hcontrol, call.not_ui]
    · rw [hcontrol, gsm0710FrameIs_or_pf, call.not_ui]

/-- **Advanced mode round trip.**  Whatever frames are written, in however many
pieces the stream arrives and whenever the assembler asks: the frames it gets
are the first ones that were written, none is dropped, and once the whole stream
has been fed and the assembler has asked often enough they are exactly those
that were written, one for each call, with its channel, control and payload. -/
theorem adv_codec_round_trip (cfg : MuxConfig) (hn1 : ∀ c < 64, cfg.negotiatedN1 c ≤ 1509)
    (tx : TxState) (hfresh : tx.Fresh) (calls : List WriteCall) (ops : List (Receiver.Op UInt8))
    (hfed : Receiver.fed ops = (writeAll cfg true tx calls).wire)
    (hfit : advReceiver.Fits GSM0710Buffer.init ops) :
    (∀ ops₁, ops₁ <+: ops → ∃ out buf, advReceiver.run GSM0710Buffer.init ops₁ = some (out, buf) ∧
      out <+: (writeAll cfg true tx calls).framesWritten ∧ buf.droppedCount = 0) ∧
    (∀ k, (writeAll cfg true tx calls).framesWritten.length ≤ k → ∃ buf,
      advReceiver.run GSM0710Buffer.init (ops ++ List.replicate k .ask) =
          some ((writeAll cfg true tx calls).framesWritten, buf) ∧ buf.droppedCount = 0) ∧
    List.Forall₂ (WrittenBy cfg) calls (writeAll cfg true tx calls).framesWritten := by
  obtain ⟨frames, hemits, hwritten⟩ :=
    writeAll_emits cfg true calls hfresh.fullWrites hfresh.running
  have hwire : (writeAll cfg true tx calls).wire = frames.flatMap encodeAdv := by
    rw [hemits.wire, hfresh.wire]
    rfl
  have hframes : (writeAll cfg true tx calls).framesWritten = frames := by
    rw [hemits.framesWritten, hfresh.framesWritten]
    rfl
  have hsendable : ∀ f ∈ frames, AdvSendable f := by
    intro f hf
    obtain ⟨i, hi, rfl⟩ := List.getElem_of_mem hf
    have hi' : i < calls.length := by rwa [hwritten.length_eq]
    exact (hwritten.get hi' hi).sendable hn1
  have hpending : AdvPending GSM0710Buffer.init frames (Receiver.fed ops) :=
    ⟨wf_init, rfl, hsendable, by rw [hfed, hwire, contents_init]; rfl⟩
  rw [hframes]
  refine ⟨?_, ?_, hwritten⟩
  · intro ops₁ hpre
    obtain ⟨out, buf, rest, hrun, hout, hrel⟩ := advReceiver_decodes.run_of_append hpending hfit hpre
    exact ⟨out, buf, hrun, hout, hrel.dropped⟩
  · intro k hk
    obtain ⟨buf, hrun, hrel⟩ := advReceiver_decodes.run_all hpending hfit hk
    exact ⟨buf, hrun, hrel.dropped⟩

/-- The round trip of a frame whose payload is an escape and a flag; the stream
arrives cut between an escape octet and the octet it escapes. -/
theorem adv_codec_round_trip_escaped :
    let cfg : MuxConfig := ⟨32, fun _ => 2, by decide⟩
    let t := writeAll cfg true {} [⟨4, [0x7D, 0x7E], 2, 0xEF, by decide, by decide, by decide⟩]
    t.framesWritten = [⟨4, 0xEF, [0x7D, 0x7E]⟩] ∧
      ∃ buf, advReceiver.run GSM0710Buffer.init
        ([.feed (t.wire.take 5), .feed (t.wire.drop 5)] ++ List.replicate 1 .ask) =
          some (t.framesWritten, buf) ∧ buf.droppedCount = 0 := by
  refine ⟨by decide, ?_⟩
  exact (adv_codec_round_trip ⟨32, fun _ => 2, by decide⟩ (fun _ _ => by simp) {}
    ⟨rfl, rfl, fun _ ho => by simp at ho, rfl⟩
    [⟨4, [0x7D, 0x7E], 2, 0xEF, by decide, by decide, by decide⟩]
    [.feed _, .feed _] (by simp [Receiver.fed]) ⟨by decide, by decide, trivial⟩).2.1 1
    (by decide)

end MtkHw.Mux
