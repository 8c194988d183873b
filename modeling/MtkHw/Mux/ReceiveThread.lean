import Mathlib.Data.Nat.Find
import MtkHw.Lib.Loop
import MtkHw.Mux.AdvBuffer
import MtkHw.Mux.Command
import MtkHw.Mux.FlowControl

/-!
# The receive thread: `extract_frames`

`extract_frames` takes the frames out of the receive buffer one after the other.  An information frame
is written to the pseudo terminal of its channel, in a loop that some error numbers leave and others
do not; the frames of the other kinds open and close channels.

Other threads work on the same table of channels: they are part of the input, as what they do between
two frames and between two attempts to write.  So are the answers of the terminals.  An attempt to
write to a descriptor that is closed fails with `EBADF`, and `EBADF` is one of the numbers that lead
back into the loop: `neverWedged_iff` says for which inputs the thread gets through all its frames.

The list of cached frames is the subject of `FlowControl`; here only `rx_fc_off` is looked at.
-/

namespace MtkHw.Mux

open Lib

/-! ## The table of channels -/

/-- Set asynchronous balanced mode. -/
def gsm0710TypeSabm : UInt8 := 0x2F
/-- Unnumbered acknowledgement. -/
def gsm0710TypeUa : UInt8 := 0x63
/-- Disconnected mode. -/
def gsm0710TypeDm : UInt8 := 0x0F
/-- Disconnect. -/
def gsm0710TypeDisc : UInt8 := 0x43

/-- `MUXD_VT_CH_NUM` -/
def muxdVtChNum : UInt8 := 24

/-- What the receive thread uses of a `Channel`. -/
structure RxChannel where
  /-- `fd >= 0` -/
  fdOpen : Bool
  opened : Bool
  sabmUaPending : Bool
  discUaPending : Bool
  txFcOff : Bool
  rxFcOff : Bool
  reopen : Bool
deriving DecidableEq, Repr

/-- A channel as `logical_channel_init` leaves it. -/
def RxChannel.fresh : RxChannel := ⟨false, false, false, false, false, false, false⟩

/-- `logical_channel_close`; `reopen` is not cleared. -/
def RxChannel.logicalChannelClose (c : RxChannel) : RxChannel :=
  { c with
    fdOpen := false, opened := false, sabmUaPending := false, discUaPending := false
    txFcOff := false, rxFcOff := false }

/-- `serial.state`, once the channels are set up. -/
inductive SerialState where
  | muxing | closing | peerClosing
deriving DecidableEq, Repr

/-- What `extract_frames` works on. -/
structure RxState where
  /-- `channellist` -/
  channels : Nat → RxChannel
  serialState : SerialState
  /-- `uih_pf_bit_received` -/
  uihPfBitReceived : Bool
  /-- `close_down_send_disc_for_all_chnl` -/
  closeDownSendDisc : Bool
  /-- How often `ua_rsp_for_disc_signal` has been signalled. -/
  uaRspForDiscSignals : Nat
  /-- `sabm_ua_received` -/
  sabmUaReceived : Nat
  /-- `mux_setup_chnl_complete` -/
  setupChnlComplete : Bool
  /-- `LackofAtciChannel` -/
  lackofAtciChannel : Bool
  /-- `tx_msc_response_cache` -/
  txMscResponseCache : Option (List UInt8)
  /-- History: what `rx_thread_write_frame` has been called with. -/
  sent : List GSM0710Frame

/-- What another thread does to a channel. -/
inductive PtyMove where
  | /-- `pseudo_device_read` finds the application gone. -/ dropped
  | /-- `logical_channel_establish` -/ established
  | /-- `watchdog` sets a dropped terminal up again. -/ restarted
  | /-- `logical_channel_close`, in `close_devices` or `shutdown_devices`. -/ closed
  | /-- `close_devices` sends `DISC`. -/ discSent
  | /-- `retry_write_pty_thread` finds the list empty. -/ drained
deriving DecidableEq, Repr

def PtyMove.apply (c : RxChannel) : PtyMove → RxChannel
  | .dropped => { c with fdOpen := false, reopen := true }
  | .established => { c with fdOpen := true, sabmUaPending := true }
  | .restarted => { c with fdOpen := true, reopen := false }
  | .closed => c.logicalChannelClose
  | .discSent => { c with discUaPending := true }
  | .drained => { c with rxFcOff := false }

/-- The table after the moves of other threads. -/
def applyMoves (channels : Nat → RxChannel) (moves : List (Nat × PtyMove)) : Nat → RxChannel :=
  moves.foldl (fun channels move =>
    Function.update channels move.1 (move.2.apply (channels move.1))) channels

namespace RxState

/-- A channel of the table is changed. -/
def update (s : RxState) (id : Nat) (f : RxChannel → RxChannel) : RxState :=
  { s with channels := Function.update s.channels id (f (s.channels id)) }

/-- Other threads have been at work. -/
def moved (s : RxState) (moves : List (Nat × PtyMove)) : RxState :=
  { s with channels := applyMoves s.channels moves }

/-- `rx_thread_write_frame(channel, NULL, 0, type | GSM0710_PF)` -/
def rxThreadWriteFrame (s : RxState) (channel type : UInt8) : RxState :=
  { s with sent := s.sent ++ [⟨channel, type ||| gsm0710Pf, []⟩] }

end RxState

/-! ## The frames that are not information frames -/

/-- How the work on a frame ends. -/
inductive RxOutcome where
  | /-- The thread goes on to the next frame. -/ next (s : RxState)
  | /-- `Gsm0710Muxd_Assert` -/ asserted

section Unnumbered

variable (b : MuxBuild) (s : RxState) (channel : UInt8)

/-- `mux_setup_chnl_complete` is set when the last channel is opened. -/
def RxState.countSabmUa : RxState :=
  let received := s.sabmUaReceived + 1
  { s with
    sabmUaReceived := received
    setupChnlComplete := s.setupChnlComplete ||
      received == muxdChNumAll b - if b.androidVtSupport then 1 else 0 }

/-- `close_devices` is told when no acknowledgement is missing. -/
def RxState.checkUaRsp : RxState :=
  if s.closeDownSendDisc ∧
      ∀ i < gsm0710MaxChannels b, 1 ≤ i → (s.channels i).discUaPending = false then
    { s with uaRspForDiscSignals := s.uaRspForDiscSignals + 1 }
  else s

/-- `case GSM0710_TYPE_UA` -/
def handleUa : RxOutcome :=
  let c := s.channels channel.toNat
  if c.opened then
    if c.discUaPending then
      if channel = 0 then .asserted
      else .next ((s.update channel.toNat RxChannel.logicalChannelClose).checkUaRsp b)
    else .next (s.checkUaRsp b)
  else if c.sabmUaPending then
    .next ((s.update channel.toNat fun c => { c with
      opened := true, sabmUaPending := false }).countSabmUa b)
  else if c.discUaPending then
    .next (s.update channel.toNat fun c => { c with discUaPending := false })
  else .next s

/-- `case GSM0710_TYPE_DM` -/
def handleDm : RxState :=
  if (s.channels channel.toNat).opened then s.update channel.toNat RxChannel.logicalChannelClose
  else if channel = 0 then { s with serialState := .closing }
  else if channel = 26 then { s with setupChnlComplete := true, lackofAtciChannel := true }
  else s

/-- `case GSM0710_TYPE_DISC` -/
def handleDisc : RxState :=
  if (s.channels channel.toNat).opened then
    let s := s.update channel.toNat fun c => { c with opened := false }
    let s := s.rxThreadWriteFrame channel gsm0710TypeUa
    if channel = 0 then { s with serialState := .peerClosing }
    else s.update channel.toNat RxChannel.logicalChannelClose
  else s.rxThreadWriteFrame channel gsm0710TypeDm

/-- `case GSM0710_TYPE_SABM` -/
def handleSabm : RxState :=
  (s.update channel.toNat fun c => { c with opened := true }).rxThreadWriteFrame channel
    gsm0710TypeUa

end Unnumbered

/-- An information frame on the control channel.  A type field that does not end is read past the
frame, and refused. -/
def RxState.handleCommandFrame (s : RxState) (data : List UInt8) : RxState :=
  match handleCommand
      ⟨s.serialState == .peerClosing, fun i => (s.channels i).opened,
        fun i => (s.channels i).txFcOff⟩ data with
  | none => s
  | some r =>
      let s := { s with
        serialState := if r.st.peerClosing then .peerClosing else s.serialState
        channels := fun i => { s.channels i with txFcOff := r.st.txFcOff i } }
      match r.reply with
      | .ack data => { s with txMscResponseCache := some data }
      | .nsc response => { s with sent := s.sent ++ [⟨0, gsm0710TypeUih, response⟩] }
      | .nothing => s

/-! ## The loop that writes to the terminal -/

/-- What an attempt to write meets with. -/
structure Attempt where
  /-- What other threads do before it. -/
  before : List (Nat × PtyMove)
  /-- What the terminal answers, if its descriptor is open. -/
  answer : PtyOutcome
  /-- What other threads do before the thread looks at `channel->reopen`, and what `watchdog` does
  when it is called. -/
  after : List (Nat × PtyMove)

/-- `write(channel->fd, …)`: a descriptor that is closed is a bad one. -/
def RxChannel.write (c : RxChannel) (answer : PtyOutcome) : PtyOutcome :=
  if c.fdOpen then answer else .failed .EBADF

/-- `_fc_cacheRemainingFrameData` and `start_retry_write_thread` -/
def RxState.startRetryWrite (s : RxState) (id : Nat) : RxState :=
  s.update id fun c => { c with rxFcOff := true }

/-- What comes of an attempt: `again` is what the other threads will have made of `s` when the loop
goes round once more. -/
def afterWrite (frame : GSM0710Frame) (s again : RxState) : PtyOutcome → RxState ⊕ RxOutcome
  | .wrote result =>
      if frame.length - result > 0 then .inr (.next (s.startRetryWrite frame.channel.toNat))
      else .inr (.next s)
  | .failed .EAGAIN =>
      if frame.channel = muxdVtChNum then .inr (.next s)
      else .inr (.next (s.startRetryWrite frame.channel.toNat))
  | .failed .EINTR | .failed .EBADF | .failed Errno.EIO => .inl again
  | .failed _ => if (again.channels frame.channel.toNat).reopen then .inl again else .inr .asserted

/-- A turn of `while (1)`, with the number of attempts already made. -/
def writeTurn (frame : GSM0710Frame) (attempts : Nat → Attempt) :
    RxState × Nat → (RxState × Nat) ⊕ RxOutcome
  | (s, n) =>
    let s := s.moved (attempts n).before
    (afterWrite frame s (s.moved (attempts n).after)
      ((s.channels frame.channel.toNat).write (attempts n).answer)).map (·, n + 1) id

/-- An information frame: `UI` or `UIH`. -/
def GSM0710Frame.isInfo (frame : GSM0710Frame) : Bool :=
  gsm0710FrameIs gsm0710TypeUi frame.control || gsm0710FrameIs gsm0710TypeUih frame.control

/-- What `extract_frames` does with a frame, when the loop goes round at most `turns` times. -/
def extractFrame (b : MuxBuild) (turns : Nat) (s : RxState) (frame : GSM0710Frame)
    (attempts : Nat → Attempt) : Option RxOutcome :=
  if frame.isInfo then
    let s := { s with
      uihPfBitReceived := s.uihPfBitReceived || frame.control &&& gsm0710Pf = gsm0710Pf }
    if frame.channel > 0 then
      if (s.channels frame.channel.toNat).rxFcOff then some (.next s)
      else loop (writeTurn frame attempts) turns (s, 0)
    else some (.next (s.handleCommandFrame frame.data))
  else
    let type := frame.control &&& ~~~gsm0710Pf
    some <|
      if type = gsm0710TypeUa then handleUa b s frame.channel
      else if type = gsm0710TypeDm then .next (handleDm s frame.channel)
      else if type = gsm0710TypeDisc then .next (handleDisc s frame.channel)
      else if type = gsm0710TypeSabm then .next (handleSabm s frame.channel)
      else .next s

/-! ## The frames the thread gets through -/

/-- A frame arrives. -/
structure Arrival where
  /-- What other threads have done since the last frame. -/
  moves : List (Nat × PtyMove)
  frame : GSM0710Frame
  /-- What the attempts to write the frame would meet with. -/
  attempts : Nat → Attempt

/-- The thread gets through the frame after finitely many attempts, and goes on from `s'`. -/
def Processed (b : MuxBuild) (s : RxState) (a : Arrival) (s' : RxState) : Prop :=
  ∃ turns, extractFrame b turns (s.moved a.moves) a.frame a.attempts = some (.next s')

/-- `P` holds of every frame of a sequence that the thread gets to, and of the state then. -/
def AtEveryFrame (b : MuxBuild) (P : RxState → Arrival → Prop) : RxState → List Arrival → Prop
  | _, [] => True
  | s, a :: as => P s a ∧ ∀ s', Processed b s a s' → AtEveryFrame b P s' as

/-- No information frame of the sequence keeps the thread from the next one. -/
def NeverWedged (b : MuxBuild) (s : RxState) (arrivals : List Arrival) : Prop :=
  AtEveryFrame b (fun s a => a.frame.isInfo → ∃ s', Processed b s a s') s arrivals

/-! ### What lets it through -/

/-- The terminal takes bytes of the frame, or lets the thread cache it. -/
def PtyOutcome.takes : PtyOutcome → Bool
  | .wrote _ | .failed .EAGAIN => true
  | .failed _ => false

/-- An error number that the loop does not list. -/
def PtyOutcome.unlisted : PtyOutcome → Bool
  | .wrote _ | .failed .EAGAIN | .failed .EINTR | .failed .EBADF | .failed Errno.EIO => false
  | .failed _ => true

section Attempts

variable (frame : GSM0710Frame) (attempts : Nat → Attempt) (channels : Nat → RxChannel)

/-- The table at an attempt, when all the attempts before have failed. -/
def tableAt : Nat → Nat → RxChannel
  | 0 => channels
  | n + 1 => applyMoves (applyMoves (tableAt n) (attempts n).before) (attempts n).after

/-- The descriptor of the channel is open at an attempt. -/
def openAt (n : Nat) : Bool :=
  (applyMoves (tableAt attempts channels n) (attempts n).before frame.channel.toNat).fdOpen

/-- The states of the loop. -/
def loopState (s : RxState) (n : Nat) : RxState × Nat :=
  ({ s with channels := tableAt attempts s.channels n }, n)

variable {frame attempts}

/-! ### One attempt -/

variable (frame) in
theorem afterWrite_takes (s again : RxState) {o : PtyOutcome} (h : o.takes = true) :
    ∃ s', afterWrite frame s again o = .inr (.next s') := by
  unfold afterWrite
  cases o with
  | wrote result => dsimp only; split <;> exact ⟨_, rfl⟩
  | failed e =>
    cases e with
    | EAGAIN => dsimp only; split <;> exact ⟨_, rfl⟩
    | EINTR | EBADF | EIO | ETXTBSY | ENODEV | other => cases h

theorem afterWrite_stops (s : RxState) {again : RxState} {o : PtyOutcome} (h : o.unlisted = true)
    (hreopen : (again.channels frame.channel.toNat).reopen = false) :
    afterWrite frame s again o = .inr .asserted := by
  unfold afterWrite
  cases o with
  | wrote result => cases h
  | failed e =>
    cases e with
    | ETXTBSY | ENODEV | other => exact if_neg (by rw [hreopen]; exact Bool.false_ne_true)
    | EINTR | EAGAIN | EBADF | EIO => cases h

theorem afterWrite_again (s : RxState) {again : RxState} {o : PtyOutcome} (h : o.takes = false)
    (hreopen : o.unlisted = true → (again.channels frame.channel.toNat).reopen = true) :
    afterWrite frame s again o = .inl again := by
  unfold afterWrite
  cases o with
  | wrote result => cases h
  | failed e =>
    cases e with
    | EAGAIN => cases h
    | EINTR | EBADF | EIO => rfl
    | ETXTBSY | ENODEV | other => exact if_pos (hreopen rfl)

/-- A turn is an attempt on the table that the other threads have left. -/
theorem writeTurn_loopState (s : RxState) (n : Nat) :
    writeTurn frame attempts (loopState attempts s n) =
      (afterWrite frame ((loopState attempts s n).1.moved (attempts n).before)
        (loopState attempts s (n + 1)).1
        (if openAt frame attempts s.channels n = true then (attempts n).answer
          else .failed .EBADF)).map (·, n + 1) id := rfl

/-- The terminal is open and takes the frame. -/
def TakesAt (frame : GSM0710Frame) (attempts : Nat → Attempt) (channels : Nat → RxChannel)
    (n : Nat) : Prop :=
  openAt frame attempts channels n = true ∧ (attempts n).answer.takes = true

/-- The terminal is open and fails with a number that stops the program. -/
def StopsAt (frame : GSM0710Frame) (attempts : Nat → Attempt) (channels : Nat → RxChannel)
    (n : Nat) : Prop :=
  openAt frame attempts channels n = true ∧ (attempts n).answer.unlisted = true ∧
    (tableAt attempts channels (n + 1) frame.channel.toNat).reopen = false

theorem writeTurn_takes (s : RxState) {n : Nat} (h : TakesAt frame attempts s.channels n) :
    ∃ s', writeTurn frame attempts (loopState attempts s n) = .inr (.next s') := by
  obtain ⟨hopen, htakes⟩ := h
  rw [writeTurn_loopState, if_pos hopen]
  obtain ⟨s', hs'⟩ := afterWrite_takes frame _ _ htakes
  exact ⟨s', by rw [hs']; rfl⟩

theorem writeTurn_stops (s : RxState) {n : Nat} (h : StopsAt frame attempts s.channels n) :
    writeTurn frame attempts (loopState attempts s n) = .inr .asserted := by
  obtain ⟨hopen, hunlisted, hreopen⟩ := h
  rw [writeTurn_loopState, if_pos hopen, afterWrite_stops _ hunlisted hreopen]
  rfl

/-- Otherwise the loop goes round: the descriptor is closed, or the error is no reason to stop. -/
theorem writeTurn_again (s : RxState) {n : Nat} (htakes : ¬ TakesAt frame attempts s.channels n)
    (hstops : ¬ StopsAt frame attempts s.channels n) :
    writeTurn frame attempts (loopState attempts s n) = .inl (loopState attempts s (n + 1)) := by
  rw [writeTurn_loopState]
  cases hopen : openAt frame attempts s.channels n with
  | false => rfl
  | true =>
    rw [if_pos rfl, afterWrite_again]
    · rfl
    · exact (Bool.not_eq_true _).mp fun h => htakes ⟨hopen, h⟩
    · intro hunlisted
      by_contra hreopen
      exact hstops ⟨hopen, hunlisted, (Bool.not_eq_true _).mp hreopen⟩

/-- A turn that leaves for the next frame is one at which the terminal takes this one. -/
theorem takesAt_of_next {s s' : RxState} {n : Nat}
    (h : writeTurn frame attempts (loopState attempts s n) = .inr (.next s')) :
    TakesAt frame attempts s.channels n := by
  by_contra htakes
  by_cases hstops : StopsAt frame attempts s.channels n
  · rw [writeTurn_stops s hstops] at h
    cases h
  · rw [writeTurn_again s htakes hstops] at h
    cases h

/-- The states of the loop follow each other. -/
theorem writeTurn_inl {s : RxState} {n : Nat} {t : RxState × Nat}
    (h : writeTurn frame attempts (loopState attempts s n) = .inl t) :
    t = loopState attempts s (n + 1) ∧ ¬ StopsAt frame attempts s.channels n := by
  have htakes : ¬ TakesAt frame attempts s.channels n := by
    intro htakes
    obtain ⟨s', hs'⟩ := writeTurn_takes s htakes
    rw [hs'] at h
    cases h
  have hstops : ¬ StopsAt frame attempts s.channels n := by
    intro hstops
    rw [writeTurn_stops s hstops] at h
    cases h
  rw [writeTurn_again s htakes hstops] at h
  exact ⟨(Sum.inl.inj h).symm, hstops⟩

/-! ### The loop -/

variable (frame attempts) in
/-- At some attempt the terminal is open and takes the frame, and the program has not been stopped
at an attempt before. -/
def Writable (channels : Nat → RxChannel) : Prop :=
  ∃ n, TakesAt frame attempts channels n ∧ ∀ m < n, ¬ StopsAt frame attempts channels m

/-- The thread leaves the loop for the next frame if and only if the frame can be written. -/
theorem writeLoop_iff (s : RxState) :
    (∃ s' turns, loop (writeTurn frame attempts) turns (s, 0) = some (.next s')) ↔
      Writable frame attempts s.channels := by
  have hleaves := loop_leaves_iff (writeTurn frame attempts)
    (fun r => ∃ s', r = RxOutcome.next s') (loopState attempts s)
    fun m t hstep => (writeTurn_inl hstep).1
  constructor
  · rintro ⟨s', turns, hloop⟩
    obtain ⟨n, ⟨_, hstep, s'', rfl⟩, hgoes⟩ := hleaves.mp ⟨turns, _, hloop, s', rfl⟩
    refine ⟨n, takesAt_of_next hstep, fun m hm => ?_⟩
    obtain ⟨t, ht⟩ := hgoes m hm
    exact (writeTurn_inl ht).2
  · rintro ⟨k, htakes, hgoes⟩
    -- The first attempt at which the terminal takes the frame is the last one.
    classical
    have hex : ∃ n, TakesAt frame attempts s.channels n := ⟨k, htakes⟩
    obtain ⟨s', hs'⟩ := writeTurn_takes s (Nat.find_spec hex)
    obtain ⟨turns, _, hloop, s'', rfl⟩ := hleaves.mpr ⟨Nat.find hex, ⟨_, hs', s', rfl⟩,
      fun m hm => ⟨_, writeTurn_again s (Nat.find_min hex hm)
        (hgoes m (Nat.lt_of_lt_of_le hm (Nat.find_min' hex htakes)))⟩⟩
    exact ⟨s'', turns, hloop⟩

end Attempts

/-- An information frame is no reason to wait for: it is for the control channel, or its channel is
in flow-off, or it can be written. -/
def Deliverable (s : RxState) (a : Arrival) : Prop :=
  a.frame.channel = 0 ∨ ((s.moved a.moves).channels a.frame.channel.toNat).rxFcOff = true ∨
    Writable a.frame a.attempts (s.moved a.moves).channels

/-- The thread gets through an information frame if and only if the frame can be delivered. -/
theorem processed_iff (b : MuxBuild) (s : RxState) {a : Arrival} (h : a.frame.isInfo = true) :
    (∃ s', Processed b s a s') ↔ Deliverable s a := by
  unfold Processed Deliverable extractFrame
  simp only [h, if_true]
  by_cases hchannel : a.frame.channel = 0
  · have hzero : ¬ a.frame.channel > 0 := by rw [hchannel]; decide
    simp only [hzero, if_false]
    exact iff_of_true ⟨_, 0, rfl⟩ (.inl hchannel)
  · have hpos : a.frame.channel > 0 := UInt8.pos_iff_ne_zero.mpr hchannel
    simp only [hpos, if_true]
    cases hoff : ((s.moved a.moves).channels a.frame.channel.toNat).rxFcOff with
    | true => exact iff_of_true ⟨_, 0, rfl⟩ (.inr (.inl rfl))
    | false =>
      simp only [hchannel, Bool.false_eq_true, if_false, false_or]
      exact writeLoop_iff _

/-- **When the receive thread gets through its frames.**  Whatever frames arrive and in whatever state
the channels are, every information frame is dealt with after finitely many attempts to write it if
and only if each of them, when the thread gets to it, can be delivered. -/
theorem neverWedged_iff (b : MuxBuild) (s : RxState) (arrivals : List Arrival) :
    NeverWedged b s arrivals ↔
      AtEveryFrame b (fun s a => a.frame.isInfo → Deliverable s a) s arrivals := by
  unfold NeverWedged
  induction arrivals generalizing s with
  | nil => exact Iff.rfl
  | cons a as ih =>
    simp only [AtEveryFrame]
    refine and_congr (forall_congr' fun hinfo => processed_iff b s hinfo) ?_
    exact forall_congr' fun s' => imp_congr_right fun _ => ih s'

/-! ## Closed channels -/

/-- No other thread is at work while the frame is dealt with. -/
def Arrival.Quiet (a : Arrival) : Prop :=
  a.moves = [] ∧ ∀ n, (a.attempts n).before = [] ∧ (a.attempts n).after = []

theorem tableAt_quiet {a : Arrival} (h : a.Quiet) (channels : Nat → RxChannel) (n : Nat) :
    tableAt a.attempts channels n = channels := by
  induction n with
  | zero => rfl
  | succ n ih =>
    obtain ⟨hbefore, hafter⟩ := h.2 n
    rw [tableAt, ih, hbefore, hafter]
    rfl

/-- The frame of a channel that is closed keeps the thread for ever, unless another thread comes to
its help. -/
theorem not_processed_of_closed (b : MuxBuild) {s : RxState} {a : Arrival}
    (hinfo : a.frame.isInfo = true) (hchannel : a.frame.channel ≠ 0) (hquiet : a.Quiet)
    (hclosed : (s.channels a.frame.channel.toNat).fdOpen = false)
    (hoff : (s.channels a.frame.channel.toNat).rxFcOff = false) :
    ¬ ∃ s', Processed b s a s' := by
  have hmoved : s.moved a.moves = s := by
    rw [hquiet.1]
    rfl
  rw [processed_iff b s hinfo, Deliverable, hmoved, hoff]
  rintro (hzero | hcached | ⟨n, ⟨hopen, -⟩, -⟩)
  · exact hchannel hzero
  · cases hcached
  · rw [openAt, tableAt_quiet hquiet, (hquiet.2 n).1] at hopen
    exact absurd (hclosed.symm.trans hopen) nofun

/-- A peer that disconnects an open channel and then sends it information wedges the thread. -/
theorem not_neverWedged_disc (b : MuxBuild) {s : RxState} {disc info : Arrival}
    (hdisc : disc.frame.control = gsm0710TypeDisc ||| gsm0710Pf) (hquietDisc : disc.Quiet)
    (hopened : (s.channels disc.frame.channel.toNat).opened = true)
    (hinfo : info.frame.isInfo = true) (hchannel : info.frame.channel = disc.frame.channel)
    (hne : disc.frame.channel ≠ 0) (hquietInfo : info.Quiet) :
    ¬ NeverWedged b s [disc, info] := by
  rintro ⟨-, hnext⟩
  have hmoved : s.moved disc.moves = s := by
    rw [hquietDisc.1]
    rfl
  have hprocessed : Processed b s disc (handleDisc s disc.frame.channel) := by
    refine ⟨0, ?_⟩
    rw [hmoved, extractFrame, GSM0710Frame.isInfo, hdisc]
    rfl
  refine not_processed_of_closed b hinfo (hchannel ▸ hne) hquietInfo ?_ ?_
    ((hnext _ hprocessed).1 hinfo)
  · simp [handleDisc, hopened, hne, hchannel, RxState.update, RxChannel.logicalChannelClose]
  · simp [handleDisc, hopened, hne, hchannel, RxState.update, RxChannel.logicalChannelClose]

/-- Frames on channel 1, with terminals that take everything. -/
def onChannelOne (control : UInt8) (data : List UInt8) : Arrival :=
  ⟨[], ⟨1, control, data⟩, fun _ => ⟨[], .wrote data.length, []⟩⟩

/-- All channels open; the control channel has no terminal. -/
def allOpen : RxState where
  channels i := { RxChannel.fresh with fdOpen := i != 0, opened := true }
  serialState := .muxing
  uihPfBitReceived := false
  closeDownSendDisc := false
  uaRspForDiscSignals := 0
  sabmUaReceived := 0
  setupChnlComplete := true
  lackofAtciChannel := false
  txMscResponseCache := none
  sent := []

/-- `DISC`, and then one octet of information. -/
theorem discThenInfo_wedges : ¬ NeverWedged ⟨false, 1, false, false, false, false, false⟩ allOpen
    [onChannelOne 0x53 [], onChannelOne 0xEF [0x41]] :=
  not_neverWedged_disc _ (by decide) ⟨rfl, fun _ => ⟨rfl, rfl⟩⟩ rfl (by decide) rfl (by decide)
    ⟨rfl, fun _ => ⟨rfl, rfl⟩⟩

end MtkHw.Mux
