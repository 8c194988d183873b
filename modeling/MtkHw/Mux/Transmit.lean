import MtkHw.Mux.WireFormat

/-!
# Sending: `write_frame` and `handle_channel_data`

`write_frame` puts one frame on the serial device, in basic mode with three
`write()` calls and in advanced mode with one; `handle_channel_data` cuts
application bytes into frames of at most the negotiated size.

The serial device is part of the sender's state: `script` holds what the coming
`write()` calls will do, and every call is complete once it is exhausted.
`wire` is everything the device has accepted.  `framesWritten` is a history
variable: the frames, as asked for, that `write_frame` has written completely.
-/

namespace MtkHw.Mux

/-! ## The serial device -/

/-- What one `write()` on the serial device does. -/
inductive WriteOutcome where
  | /-- All bytes are accepted. -/ full
  | /-- At most `n` bytes are accepted. -/ short (n : Nat)
  | /-- The call fails. -/ failed (e : Errno)
deriving DecidableEq, Repr

/-- The state the senders share. -/
structure TxState where
  script : List WriteOutcome := []
  errno : Errno := .other
  wire : List UInt8 := []
  uihPfBitReceived : Bool := false
  stopMuxd : Bool := false
  /-- `PROPERTY_MODEM_EE` has been set. -/
  modemEe : Bool := false
  framesWritten : List GSM0710Frame := []
deriving DecidableEq, Repr

namespace TxState

/-- `write()` on the serial device: the number of bytes accepted, or a failure
that sets `errno`. -/
def write (tx : TxState) (buf : List UInt8) : Option Nat × TxState :=
  match tx.script with
  | [] => (some buf.length, { tx with wire := tx.wire ++ buf })
  | .full :: script => (some buf.length, { tx with script, wire := tx.wire ++ buf })
  | .short n :: script =>
      (some (min n buf.length), { tx with script, wire := tx.wire ++ buf.take n })
  | .failed e :: script => (none, { tx with script, errno := e })

/-- `do { c = write(...) } while (c < 0 && errno == EINTR)`, by recursion on the
outcomes to come. -/
def writeRetry (buf : List UInt8) : List WriteOutcome → TxState → Option Nat × TxState
  | .failed .EINTR :: script, tx => writeRetry buf script { tx with script, errno := .EINTR }
  | _, tx => tx.write buf

/-- Every `write()` to come completes in full. -/
def FullWrites (tx : TxState) : Prop := ∀ o ∈ tx.script, o = .full

/-- The device takes all of `buf`. -/
def accept (tx : TxState) (buf : List UInt8) : TxState :=
  { tx with script := tx.script.tail, wire := tx.wire ++ buf }

theorem write_of_fullWrites {tx : TxState} (h : tx.FullWrites) (buf : List UInt8) :
    tx.write buf = (some buf.length, tx.accept buf) := by
  unfold write accept
  split
  · rename_i hs
    cases tx
    simp_all
  · rename_i hs
    simp [hs]
  · rename_i hs
    exact absurd (h _ (by rw [hs]; exact List.mem_cons_self)) (by simp)
  · rename_i hs
    exact absurd (h _ (by rw [hs]; exact List.mem_cons_self)) (by simp)

theorem writeRetry_of_fullWrites {tx : TxState} (h : tx.FullWrites) (buf : List UInt8) :
    writeRetry buf tx.script tx = (some buf.length, tx.accept buf) := by
  rw [← write_of_fullWrites h buf]
  unfold writeRetry
  split
  · rename_i hs
    exact absurd (h _ (by rw [hs]; exact List.mem_cons_self)) (by simp)
  · rfl

theorem FullWrites.accept {tx : TxState} (h : tx.FullWrites) (buf : List UInt8) :
    (tx.accept buf).FullWrites :=
  fun o ho => h o (List.mem_of_mem_tail ho)

end TxState

/-! ## Writing a frame -/

/-- `prefix[2]`, and whether the poll/final bit of the last command is still to
be answered afterwards.  `input` is the memory at the pointer passed in. -/
def frameControl (tx : TxState) (input : List UInt8) (type : UInt8) : UInt8 × Bool :=
  if (type == gsm0710TypeUih || type == gsm0710TypeUi) && tx.uihPfBitReceived &&
      gsm0710CommandIs (input.headD 0) gsm0710ControlMsc then
    (type ||| gsm0710Pf, false)
  else (type, tx.uihPfBitReceived)

/-- One of the three writes of a basic mode frame.  A part that is not accepted
whole ends `write_frame` with the value returned here; the last part looks at
`errno` even after a short write. -/
def writePart (anyErrno : Bool) (length : Nat) (buf : List UInt8) (tx : TxState) :
    Except (Nat × TxState) TxState :=
  let (c, tx) := TxState.writeRetry buf tx.script tx
  if c = some buf.length then .ok tx
  else if (anyErrno || c.isNone) && (tx.errno == .ETXTBSY || tx.errno == .ENODEV) then
    .error (length, { tx with modemEe := true })
  else .error (0, tx)

/-- The basic mode branch of `write_frame`. -/
def writeFrameBase (tx : TxState) (channel : Nat) (control : UInt8) (data : List UInt8) :
    Nat × TxState :=
  let header := baseHeader channel control data.length
  let written : Except (Nat × TxState) TxState := do
    let tx ← writePart false data.length (gsm0710FrameFlag :: header) tx
    let tx ← if data.length > 0 then writePart false data.length data tx else pure tx
    writePart true data.length [frameCalcCrc header, gsm0710FrameFlag] tx
  match written with
  | .error r => r
  | .ok tx => (data.length,
      { tx with framesWritten := tx.framesWritten ++ [⟨UInt8.ofNat channel, control, data⟩] })

/-- The advanced mode branch of `write_frame`. -/
def writeFrameAdv (tx : TxState) (channel : Nat) (control : UInt8) (data : List UInt8) :
    Nat × TxState :=
  let buf := advFrameBuf channel control data
  let (c, tx) := tx.write buf
  if c = some buf.length then (data.length,
    { tx with framesWritten := tx.framesWritten ++ [⟨UInt8.ofNat channel, control, data⟩] })
  else (0, tx)

/-- `write_frame`: the number of bytes it reports as written. -/
def writeFrame (cfg : MuxConfig) (cmuxMode : Bool) (tx : TxState) (channel : Nat)
    (input : List UInt8) (length : Nat) (type : UInt8) : Nat × TxState :=
  if tx.stopMuxd then (1, tx)
  else
    let (control, uihPfBitReceived) := frameControl tx input type
    let tx := { tx with uihPfBitReceived }
    let data := input.take (min (cfg.negotiatedN1 channel) length)
    if cmuxMode then writeFrameAdv tx channel control data
    else writeFrameBase tx channel control data

/-! ## Cutting application bytes into frames -/

/-- The loop of `handle_channel_data`: the number of bytes written. -/
def handleChannelDataLoop (cfg : MuxConfig) (cmuxMode : Bool) (buf : List UInt8) (channel : Nat) :
    Nat → Nat → Nat → TxState → Nat × TxState
  | 0, written, _, tx => (written, tx)
  | fuel + 1, written, i, tx =>
      if written ≠ buf.length ∧ i < gsm0710WriteRetries then
        let (last, tx) := writeFrame cfg cmuxMode tx channel (buf.drop written)
          (buf.length - written) gsm0710TypeUih
        handleChannelDataLoop cfg cmuxMode buf channel fuel (written + last)
          (if last = 0 then i + 1 else i) tx
      else (written, tx)

/-- `handle_channel_data`: the number of bytes that remain.  Every turn of the
loop writes a byte or uses up one of the retries, so the fuel is never short. -/
def handleChannelData (cfg : MuxConfig) (cmuxMode : Bool) (tx : TxState) (buf : List UInt8)
    (channel : Nat) : Nat × TxState :=
  let (written, tx) := handleChannelDataLoop cfg cmuxMode buf channel
    (buf.length + gsm0710WriteRetries) 0 0 tx
  (buf.length - written, tx)

/-! ## What reaches the wire -/

/-- From `tx` to `tx'` exactly `frames` have been written, completely, and the
device still works. -/
structure Emits (cmuxMode : Bool) (tx tx' : TxState) (frames : List GSM0710Frame) : Prop where
  wire : tx'.wire = tx.wire ++ frames.flatMap (encode cmuxMode)
  framesWritten : tx'.framesWritten = tx.framesWritten ++ frames
  fullWrites : tx'.FullWrites
  running : tx'.stopMuxd = false

namespace Emits

variable {cmuxMode : Bool} {tx tx' tx'' : TxState} {frames frames' : List GSM0710Frame}

theorem refl (hfull : tx.FullWrites) (hrun : tx.stopMuxd = false) : Emits cmuxMode tx tx [] :=
  ⟨by simp, by simp, hfull, hrun⟩

theorem trans (h : Emits cmuxMode tx tx' frames) (h' : Emits cmuxMode tx' tx'' frames') :
    Emits cmuxMode tx tx'' (frames ++ frames') := by
  refine ⟨?_, ?_, h'.fullWrites, h'.running⟩
  · rw [h'.wire, h.wire, List.flatMap_append, List.append_assoc]
  · rw [h'.framesWritten, h.framesWritten, List.append_assoc]

end Emits

/-- A part that the device takes whole. -/
theorem writePart_of_fullWrites {tx : TxState} (h : tx.FullWrites) (anyErrno : Bool) (length : Nat)
    (buf : List UInt8) : writePart anyErrno length buf tx = .ok (tx.accept buf) := by
  simp [writePart, TxState.writeRetry_of_fullWrites h]

theorem writeFrameBase_emits (tx : TxState) (hfull : tx.FullWrites) (hrun : tx.stopMuxd = false)
    (channel : Nat) (control : UInt8) (data : List UInt8) :
    (writeFrameBase tx channel control data).1 = data.length ∧
      Emits false tx (writeFrameBase tx channel control data).2
        [⟨UInt8.ofNat channel, control, data⟩] := by
  have hfull₁ := hfull.accept (gsm0710FrameFlag :: baseHeader channel control data.length)
  by_cases hlen : data.length > 0
  · simp only [writeFrameBase, writePart_of_fullWrites hfull, writePart_of_fullWrites hfull₁,
      writePart_of_fullWrites (hfull₁.accept data), if_pos hlen, bind, Except.bind]
    refine ⟨trivial, ?_, rfl, (hfull₁.accept data).accept
      [frameCalcCrc (baseHeader channel control data.length), gsm0710FrameFlag], hrun⟩
    simp [TxState.accept, encode, encodeBase_ofNat]
  · have hnil : data = [] := List.eq_nil_of_length_eq_zero (by omega)
    subst hnil
    simp only [writeFrameBase, writePart_of_fullWrites hfull, writePart_of_fullWrites hfull₁,
      if_neg hlen, bind, Except.bind, pure, Except.pure]
    refine ⟨trivial, ?_, rfl,
      hfull₁.accept [frameCalcCrc (baseHeader channel control 0), gsm0710FrameFlag], hrun⟩
    simp [TxState.accept, encode, encodeBase_ofNat]

theorem writeFrameAdv_emits (tx : TxState) (hfull : tx.FullWrites) (hrun : tx.stopMuxd = false)
    (channel : Nat) (control : UInt8) (data : List UInt8) :
    (writeFrameAdv tx channel control data).1 = data.length ∧
      Emits true tx (writeFrameAdv tx channel control data).2
        [⟨UInt8.ofNat channel, control, data⟩] := by
  simp only [writeFrameAdv, TxState.write_of_fullWrites hfull, if_true]
  refine ⟨trivial, ?_, rfl, hfull.accept (advFrameBuf channel control data), hrun⟩
  simp [TxState.accept, encode, encodeAdv_ofNat]

/-- The control octet that goes out is the type, perhaps with the final bit. -/
theorem frameControl_fst (tx : TxState) (input : List UInt8) (type : UInt8) :
    (frameControl tx input type).1 = type ∨ (frameControl tx input type).1 = type ||| gsm0710Pf := by
  unfold frameControl
  split
  · exact .inr rfl
  · exact .inl rfl

/-- `write_frame` emits one frame, cut to the negotiated size. -/
theorem writeFrame_emits (cfg : MuxConfig) (cmuxMode : Bool) {tx : TxState}
    (hfull : tx.FullWrites) (hrun : tx.stopMuxd = false) (channel : Nat) (input : List UInt8)
    {length : Nat} (hlen : length ≤ input.length) (type : UInt8) :
    (writeFrame cfg cmuxMode tx channel input length type).1 =
        min (cfg.negotiatedN1 channel) length ∧
      Emits cmuxMode tx (writeFrame cfg cmuxMode tx channel input length type).2
        [⟨UInt8.ofNat channel, (frameControl tx input type).1,
          input.take (min (cfg.negotiatedN1 channel) length)⟩] := by
  have hcount : (input.take (min (cfg.negotiatedN1 channel) length)).length =
      min (cfg.negotiatedN1 channel) length := by
    rw [List.length_take]
    omega
  rw [writeFrame, if_neg (by simp [hrun])]
  cases cmuxMode with
  | true =>
    obtain ⟨hfst, hsnd⟩ := writeFrameAdv_emits
      { tx with uihPfBitReceived := (frameControl tx input type).2 } hfull hrun channel
      (frameControl tx input type).1 (input.take (min (cfg.negotiatedN1 channel) length))
    exact ⟨hfst.trans hcount, hsnd.wire, hsnd.framesWritten, hsnd.fullWrites, hsnd.running⟩
  | false =>
    obtain ⟨hfst, hsnd⟩ := writeFrameBase_emits
      { tx with uihPfBitReceived := (frameControl tx input type).2 } hfull hrun channel
      (frameControl tx input type).1 (input.take (min (cfg.negotiatedN1 channel) length))
    exact ⟨hfst.trans hcount, hsnd.wire, hsnd.framesWritten, hsnd.fullWrites, hsnd.running⟩

/-- A frame that `handle_channel_data` makes of the bytes of a channel. -/
structure Segment (cfg : MuxConfig) (channel : Nat) (f : GSM0710Frame) : Prop where
  channel_eq : f.channel = UInt8.ofNat channel
  control_eq : f.control = gsm0710TypeUih ∨ f.control = gsm0710TypeUih ||| gsm0710Pf
  length_le : f.length ≤ cfg.negotiatedN1 channel

theorem handleChannelDataLoop_emits (cfg : MuxConfig) (cmuxMode : Bool) {channel : Nat}
    (hn1 : 1 ≤ cfg.negotiatedN1 channel) (buf : List UInt8) :
    ∀ (fuel written : Nat) (tx : TxState), tx.FullWrites → tx.stopMuxd = false →
      written ≤ buf.length → buf.length - written ≤ fuel →
      ∃ frames tx', handleChannelDataLoop cfg cmuxMode buf channel fuel written 0 tx =
          (buf.length, tx') ∧
        Emits cmuxMode tx tx' frames ∧ (∀ f ∈ frames, Segment cfg channel f) ∧
        frames.flatMap GSM0710Frame.data = buf.drop written := by
  intro fuel
  induction fuel with
  | zero =>
    intro written tx hfull hrun hle hfuel
    obtain rfl : written = buf.length := by omega
    exact ⟨[], tx, rfl, .refl hfull hrun, by simp, by simp⟩
  | succ fuel ih =>
    intro written tx hfull hrun hle hfuel
    rw [handleChannelDataLoop]
    by_cases hdone : written = buf.length
    · rw [if_neg (by simp [hdone]), hdone]
      exact ⟨[], tx, rfl, .refl hfull hrun, by simp, by simp⟩
    · rw [if_pos ⟨hdone, by decide⟩]
      have hinput : (buf.drop written).length = buf.length - written := List.length_drop
      obtain ⟨hlast, hemits⟩ := writeFrame_emits cfg cmuxMode hfull hrun channel
        (buf.drop written) (Nat.le_of_eq hinput.symm) gsm0710TypeUih
      generalize hout : writeFrame cfg cmuxMode tx channel (buf.drop written)
        (buf.length - written) gsm0710TypeUih = out at hlast hemits
      obtain ⟨last, tx₁⟩ := out
      dsimp only at hlast hemits ⊢
      have hpos : last ≠ 0 := by omega
      rw [if_neg hpos]
      obtain ⟨frames, tx', hloop, hrest, hseg, hdata⟩ :=
        ih (written + last) tx₁ hemits.fullWrites hemits.running (by omega) (by omega)
      refine ⟨_ :: frames, tx', hloop, hemits.trans hrest, ?_, ?_⟩
      · intro f hf
        rcases List.mem_cons.mp hf with rfl | hf
        · refine ⟨rfl, frameControl_fst .., ?_⟩
          simp only [GSM0710Frame.length, List.length_take]
          omega
        · exact hseg f hf
      · rw [List.flatMap_cons, hdata, hlast, ← List.drop_drop]
        exact List.take_append_drop _ _

/-- **Segmentation.**  `handle_channel_data` writes all the bytes it is given, in
frames of the channel whose payloads concatenate to them. -/
theorem handleChannelData_emits (cfg : MuxConfig) (cmuxMode : Bool) {tx : TxState}
    (hfull : tx.FullWrites) (hrun : tx.stopMuxd = false) {channel : Nat}
    (hn1 : 1 ≤ cfg.negotiatedN1 channel) (buf : List UInt8) :
    ∃ frames tx', handleChannelData cfg cmuxMode tx buf channel = (0, tx') ∧
      Emits cmuxMode tx tx' frames ∧ (∀ f ∈ frames, Segment cfg channel f) ∧
      frames.flatMap GSM0710Frame.data = buf := by
  obtain ⟨frames, tx', hloop, hemits, hseg, hdata⟩ := handleChannelDataLoop_emits cfg cmuxMode hn1
    buf (buf.length + gsm0710WriteRetries) 0 tx hfull hrun (Nat.zero_le _) (by omega)
  refine ⟨frames, tx', ?_, hemits, hseg, hdata⟩
  simp only [handleChannelData, hloop, Nat.sub_self]

/-! ## Sequences of sends -/

/-- Bytes that an application writes to a channel of the mux. -/
structure Send (cfg : MuxConfig) where
  channel : Nat
  data : List UInt8
  channel_lt : channel < cfg.maxChannels

/-- The sender has written nothing yet, and its device works. -/
structure TxState.Fresh (tx : TxState) : Prop where
  wire : tx.wire = []
  framesWritten : tx.framesWritten = []
  fullWrites : tx.FullWrites
  running : tx.stopMuxd = false

/-- Every send, handed to `handle_channel_data` in turn. -/
def sendAll (cfg : MuxConfig) (cmuxMode : Bool) (tx : TxState) (sends : List (Send cfg)) : TxState :=
  sends.foldl (fun tx send => (handleChannelData cfg cmuxMode tx send.data send.channel).2) tx

/-- The frames of a sequence of sends: each is a segment of its channel, and the
payloads of a channel concatenate to its bytes. -/
theorem sendAll_emits (cfg : MuxConfig) (cmuxMode : Bool)
    (hn1 : ∀ c < cfg.maxChannels, 1 ≤ cfg.negotiatedN1 c) (sends : List (Send cfg)) :
    ∀ {tx : TxState}, tx.FullWrites → tx.stopMuxd = false →
      ∃ frames, Emits cmuxMode tx (sendAll cfg cmuxMode tx sends) frames ∧
        (∀ f ∈ frames, ∃ c < cfg.maxChannels, Segment cfg c f) ∧
        ∀ c < cfg.maxChannels,
          (frames.filter (·.channel = UInt8.ofNat c)).flatMap GSM0710Frame.data =
            (sends.filter (·.channel = c)).flatMap Send.data := by
  induction sends with
  | nil =>
    intro tx hfull hrun
    exact ⟨[], .refl hfull hrun, by simp, by simp⟩
  | cons send sends ih =>
    intro tx hfull hrun
    obtain ⟨frames, tx₁, hsend, hemits, hseg, hdata⟩ := handleChannelData_emits cfg cmuxMode hfull
      hrun (hn1 send.channel send.channel_lt) send.data
    obtain ⟨frames', hemits', hseg', hdata'⟩ := ih hemits.fullWrites hemits.running
    refine ⟨frames ++ frames', ?_, ?_, ?_⟩
    · rw [sendAll, List.foldl_cons, hsend]
      exact hemits.trans hemits'
    · intro f hf
      rcases List.mem_append.mp hf with hf | hf
      · exact ⟨send.channel, send.channel_lt, hseg f hf⟩
      · exact hseg' f hf
    · intro c hc
      have hc64 := cfg.maxChannels_le
      have hs64 := send.channel_lt
      rw [List.filter_append, List.flatMap_append, hdata' c hc]
      by_cases hsame : send.channel = c
      · have hall : frames.filter (·.channel = UInt8.ofNat c) = frames :=
          List.filter_eq_self.mpr fun f hf => by simp [(hseg f hf).channel_eq, hsame]
        rw [hall, hdata, List.filter_cons_of_pos (by simpa using hsame), List.flatMap_cons]
      · have hne : UInt8.ofNat send.channel ≠ UInt8.ofNat c := by
          intro heq
          have := congrArg UInt8.toNat heq
          rw [UInt8.toNat_ofNat', UInt8.toNat_ofNat'] at this
          omega
        have hnone : frames.filter (·.channel = UInt8.ofNat c) = [] :=
          List.filter_eq_nil_iff.mpr fun f hf => by simp [(hseg f hf).channel_eq, hne]
        rw [hnone, List.filter_cons_of_neg (by simpa using hsame)]
        rfl

end MtkHw.Mux
