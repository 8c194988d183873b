import MtkHw.Lib.Machine
import MtkHw.Mux.FrameList

/-!
# Receive flow control of a channel

`extract_frames` writes the payload of a UIH frame to the pseudo terminal of its
channel.  What the terminal does not take at once is cached in the frame list, the
peer is told to stop, and a thread (`retry_write_pty_thread`) writes the list out;
meanwhile `rx_fc_off` sends the frames that arrive into the list as well.  When the
thread finds the list empty it clears `rx_fc_off`, and it is on its way out when
the next short write may start another one.

The model interleaves the assembler and all the retry threads ever created.  A
critical section of `rx_fc_lock` is one step, and what the assembler does to the
list without the lock is split up into its accesses.  A condition wait may end
without a signal, and the creation of a thread may fail.  The channel is not the VT
channel, whose frames are discarded instead, and it is not closed or reopened while
it is watched.

`flowControl_inOrder`: the terminal gets the kept payloads in order and once.
-/

namespace MtkHw.Mux

open Lib

/-- Where the assembler is, in `extract_frames` and the functions it calls. -/
inductive FcPc where
  | /-- Waiting for a frame of the channel. -/ idle
  | /-- Has got a frame, about to look at `rx_fc_off`. -/ got (frame : GSM0710Frame)
  | /-- About to write to the terminal. -/ direct (frame : GSM0710Frame)
  | /-- In `_fc_cacheRemainingFrameData`, about to see that the list is empty. -/
    checking (frame : GSM0710Frame) (written : Nat)
  | /-- About to make the list. -/ initialising (frame : GSM0710Frame) (written : Nat)
  | /-- About to push. -/ pushing (frame : GSM0710Frame) (written : Nat)
  | /-- About to set `rx_fl_written`. -/ marking (frame : GSM0710Frame) (written : Nat)
  | /-- In `start_retry_write_thread`, sending the `MSC` command. -/ sending
  | /-- About to take `rx_fc_lock`. -/ locking
  | /-- In `pthread_cond_wait`. -/ waiting
  | /-- Signalled: about to set `rx_fc_off`. -/ woken
  | /-- About to create the thread. -/ creating
  | /-- `Gsm0710Muxd_Assert(9)`: the write has failed. -/ ptyError (frame : GSM0710Frame)
  | /-- `GSM0710MUXD_FRAMELIST_INIT_ERR`, or a bad pointer. -/ asserted
deriving DecidableEq, Repr

/-- `pthread_cond_signal(&channel->rx_fc_on_signal)` -/
def FcPc.signalled : FcPc → FcPc
  | .waiting => .woken
  | pc => pc

/-- Where a retry thread is. -/
inductive RetryPc where
  | /-- Not created yet. -/ absent
  | /-- About to take its first frame. -/ start
  | /-- Writing a frame. -/ writing (frame : GSM0710Frame) (written : Nat)
  | /-- About to take the next frame. -/ popping
  | /-- Has found the list empty, sending the `MSC` command. -/ sending
  | /-- About to clear `rx_thread`. -/ clearing
  | /-- About to signal. -/ signalling
  | /-- Has returned. -/ done
  | /-- `GSM0710MUXD_PTY_WRITE_ERR` -/ ptyError (frame : GSM0710Frame) (written : Nat)
  | /-- `GSM0710MUXD_RXTHREAD_ERR`, or a bad pointer. -/ asserted
deriving DecidableEq, Repr

/-- What a `write()` on the pseudo terminal does. -/
inductive PtyOutcome where
  | /-- It takes at most `n` bytes. -/ wrote (n : Nat)
  | /-- It fails. -/ failed (e : Errno)
deriving DecidableEq, Repr

/-- The channel, the threads and the terminal. -/
structure FcState where
  heap : FrameHeap
  rxFl : Option Nat
  rxFcOff : Bool
  rxThread : Bool
  rxFlTotal : Nat
  rxFlWritten : Nat
  droppedCount : Nat
  asm : FcPc
  threads : Nat → RetryPc
  /-- How many threads have been created. -/
  created : Nat
  /-- What the terminal has taken. -/
  pty : List UInt8
  /-- History: the frames received. -/
  received : List GSM0710Frame
  /-- History: the frames that were written or cached. -/
  accepted : List GSM0710Frame

/-- A label: who moves, and what the terminal and the scheduler do. -/
inductive FcAct where
  | /-- A UIH frame of the channel arrives. -/ arrive (frame : GSM0710Frame)
  | /-- The assembler moves on. -/ asm
  | /-- The assembler writes to the terminal. -/ asmWrite (o : PtyOutcome)
  | /-- `pthread_create` succeeds, or does not. -/ create (ok : Bool)
  | /-- The wait ends without a signal. -/ spurious
  | /-- A retry thread moves on. -/ retry (i : Nat)
  | /-- A retry thread writes to the terminal. -/ retryWrite (i : Nat) (o : PtyOutcome)
deriving DecidableEq, Repr

namespace FcState

/-- A thread is at another place. -/
def setThread (s : FcState) (i : Nat) (pc : RetryPc) : FcState :=
  { s with threads := Function.update s.threads i pc }

/-- A new retry thread. -/
def spawn (s : FcState) : FcState :=
  { s with threads := Function.update s.threads s.created .start, created := s.created + 1 }

/-- `_fc_cacheFrameData` -/
def fcCacheFrameData (s : FcState) (frame : GSM0710Frame) : FcState :=
  if s.rxFlTotal + frame.length > rxFlowCtrlHighWatermark then
    { s with droppedCount := s.droppedCount + 1, asm := .idle }
  else
    match flPushFrame s.heap s.rxFl frame with
    | none => { s with asm := .asserted }
    | some (list, heap) =>
        { s with
          rxFlTotal := s.rxFlTotal + frame.length, rxFl := some list, heap, asm := .idle
          accepted := s.accepted ++ [frame] }

/-- A step of the assembler that does not write to the terminal. -/
def asmStep (s : FcState) : Option FcState :=
  match s.asm with
  | .got frame =>
      if s.rxFcOff then some (s.fcCacheFrameData frame)
      else some { s with asm := .direct frame, accepted := s.accepted ++ [frame] }
  | .checking frame written =>
      if flIsEmpty s.heap s.rxFl = some true then
        some { s with asm := .initialising frame written }
      else some { s with asm := .asserted }
  | .initialising frame written =>
      match flInit s.heap s.rxFl with
      | none => some { s with asm := .asserted }
      | some (list, heap) =>
          some { s with
            rxFl := some list, heap, rxFlTotal := frame.length - written
            asm := .pushing frame written }
  | .pushing frame written =>
      match flPushFrame s.heap s.rxFl frame with
      | none => some { s with asm := .asserted }
      | some (list, heap) => some { s with rxFl := some list, heap, asm := .marking frame written }
  | .marking _ written => some { s with rxFlWritten := written, asm := .sending }
  | .sending => some { s with asm := .locking }
  | .locking =>
      if s.rxThread then some { s with asm := .waiting }
      else some { s with rxFcOff := true, asm := .creating }
  | .woken => some { s with rxFcOff := true, asm := .creating }
  | .idle | .direct _ | .waiting | .creating | .ptyError _ | .asserted => none

/-- The `write()` in `extract_frames`. -/
def asmWrite (s : FcState) (frame : GSM0710Frame) : PtyOutcome → FcState
  | .wrote n =>
      let written := min n frame.length
      let s := { s with pty := s.pty ++ frame.data.take written }
      if frame.length - written > 0 then { s with asm := .checking frame written }
      else { s with asm := .idle }
  | .failed .EAGAIN => { s with asm := .checking frame 0 }
  | .failed .EINTR | .failed .EBADF | .failed Errno.EIO => s
  | .failed _ => { s with asm := .ptyError frame }

/-- A step of a retry thread that does not write to the terminal. -/
def retryStep (s : FcState) (i : Nat) : Option FcState :=
  match s.threads i with
  | .start =>
      let written := s.rxFlWritten
      let s := { s with rxThread := true, rxFlWritten := 0 }
      match flPopFrame s.heap s.rxFl with
      | some (some frame, heap) => some ({ s with heap }.setThread i (.writing frame written))
      | _ => some (s.setThread i .asserted)
  | .popping =>
      match flPopFrame s.heap s.rxFl with
      | some (some frame, heap) => some ({ s with heap }.setThread i (.writing frame 0))
      | some (none, heap) => some ({ s with heap, rxFcOff := false }.setThread i .sending)
      | none => some (s.setThread i .asserted)
  | .sending => some (s.setThread i .clearing)
  | .clearing => some ({ s with rxThread := false }.setThread i .signalling)
  | .signalling => some ({ s with asm := s.asm.signalled }.setThread i .done)
  | .absent | .writing _ _ | .done | .ptyError _ _ | .asserted => none

/-- The `write()` in `retry_write_pty_thread`. -/
def retryWrite (s : FcState) (i : Nat) (frame : GSM0710Frame) (written : Nat) :
    PtyOutcome → FcState
  | .wrote n =>
      let result := min n (frame.length - written)
      let s := { s with pty := s.pty ++ (frame.data.drop written).take result }
      if written + result < frame.length then s.setThread i (.writing frame (written + result))
      else s.setThread i .popping
  | .failed .EINTR | .failed .EAGAIN => s
  | .failed _ => s.setThread i (.ptyError frame written)

/-- A step of one of the threads. -/
def step (s : FcState) : FcAct → Option FcState
  | .arrive frame =>
      if s.asm = .idle then
        some { s with asm := .got frame, received := s.received ++ [frame] }
      else none
  | .asm => s.asmStep
  | .asmWrite o =>
      match s.asm with
      | .direct frame => some (s.asmWrite frame o)
      | _ => none
  | .create ok =>
      if s.asm = .creating then
        let s := { s with asm := .idle }
        some (if ok then s.spawn else s)
      else none
  | .spurious => if s.asm = .waiting then some { s with asm := .woken } else none
  | .retry i => s.retryStep i
  | .retryWrite i o =>
      match s.threads i with
      | .writing frame written => some (s.retryWrite i frame written o)
      | _ => none

/-- `_fc_initContext`, before the first frame. -/
def init : FcState where
  heap := .empty
  rxFl := none
  rxFcOff := false
  rxThread := false
  rxFlTotal := 0
  rxFlWritten := 0
  droppedCount := 0
  asm := .idle
  threads := fun _ => .absent
  created := 0
  pty := []
  received := []
  accepted := []

end FcState

/-- The assembler and the retry threads of a channel. -/
def fcMachine : Machine FcState FcAct := ⟨FcState.init, FcState.step⟩

/-! ## Delivery in order -/

/-- The bytes of some frames. -/
def payload (frames : List GSM0710Frame) : List UInt8 := frames.flatMap GSM0710Frame.data

/-- What the assembler has in its hands and has not written. -/
def FcPc.held : FcPc → List UInt8
  | .got frame | .direct frame | .ptyError frame => frame.data
  | .checking frame written | .initialising frame written | .pushing frame written =>
      frame.data.drop written
  | _ => []

/-- A thread that takes frames from the list. -/
def RetryPc.active : RetryPc → Bool
  | .start | .writing _ _ | .popping | .ptyError _ _ => true
  | _ => false

/-- The frames received and not dropped: those written or cached, and the one that
the assembler has just got. -/
def FcState.kept (s : FcState) : List GSM0710Frame :=
  s.accepted ++ match s.asm with
    | .got frame => [frame]
    | _ => []

/-- No list assertion has failed; the terminal has a prefix of what was kept, and
all of it but what the assembler holds once the list is drained; and what was not
kept is counted. -/
structure InOrder (s : FcState) : Prop where
  sound : s.asm ≠ .asserted ∧ ∀ i, s.threads i ≠ .asserted
  pty_prefix : s.pty <+: payload s.kept
  drained : flIsEmpty s.heap s.rxFl = some true → (∀ i, (s.threads i).active = false) →
    s.pty ++ s.asm.held = payload s.kept
  kept_sublist : s.kept.Sublist s.received
  counted : s.received.length = s.kept.length + s.droppedCount

/-! ## Who has the list

The list is in the assembler's hands, or handed over to the thread created last. -/

/-- The assembler may touch the list, or look at `rx_fc_off`. -/
def FcPc.owns : FcPc → Bool
  | .idle | .got _ | .direct _ | .checking _ _ | .initialising _ _ | .pushing _ _ | .ptyError _ =>
      true
  | _ => false

/-- The assembler is in `start_retry_write_thread`, and `rx_fc_off` is as given. -/
def FcPc.starts : FcPc → Option Bool
  | .sending | .locking | .waiting | .woken => some false
  | .creating => some true
  | _ => none

/-- The assembler is between two frames, or has just got one. -/
def FcPc.between : FcPc → Bool
  | .idle | .got _ => true
  | _ => false

/-- What the assembler at `a` and the thread created last, at `r`, have made of
`rx_fc_off`, `rx_fl`, `rx_fl_written` and the queue that the list holds; the last
argument is what is still to be written. -/
inductive Handover (a : FcPc) (r : RetryPc) :
    Bool → Option Nat → Nat → List GSM0710Frame → List UInt8 → Prop where
  | /-- The list is empty, and the assembler's. -/
    own {fl : Option Nat} (ha : a.owns = true) (hr : r.active = false)
      (hfl : ∀ frame written, a = .pushing frame written → fl ≠ none) :
      Handover a r false fl 0 [] a.held
  | /-- The assembler has pushed the rest of a frame. -/
    marking {list written : Nat} {frame : GSM0710Frame} (ha : a = .marking frame written)
      (hr : r.active = false) :
      Handover a r false (some list) 0 [frame] (frame.data.drop written)
  | /-- The assembler starts a thread. -/
    starting {off : Bool} {list written : Nat} {frame : GSM0710Frame} (ha : a.starts = some off)
      (hr : r.active = false) :
      Handover a r off (some list) written [frame] (frame.data.drop written)
  | /-- The thread has not started; or it could not be created. -/
    handed {list written : Nat} {frame : GSM0710Frame} {queue : List GSM0710Frame}
      (ha : a.between = true) (hr : r = .start ∨ r.active = false) :
      Handover a r true (some list) written (frame :: queue)
        (frame.data.drop written ++ payload queue ++ a.held)
  | /-- The thread writes a frame. -/
    writing {list written : Nat} {frame : GSM0710Frame} {queue : List GSM0710Frame}
      (ha : a.between = true) (hr : r = .writing frame written ∨ r = .ptyError frame written) :
      Handover a r true (some list) 0 queue
        (frame.data.drop written ++ payload queue ++ a.held)
  | /-- The thread has written a frame. -/
    popping {list : Nat} {queue : List GSM0710Frame} (ha : a.between = true) (hr : r = .popping) :
      Handover a r true (some list) 0 queue (payload queue ++ a.held)

/-- The thread created last. -/
def FcState.owner (s : FcState) : RetryPc := s.threads (s.created - 1)

/-- What every run keeps. -/
structure FcInv (s : FcState) : Prop where
  sound : s.asm ≠ .asserted ∧ ∀ i, s.threads i ≠ .asserted
  /-- Only the thread created last takes frames. -/
  single : ∀ i, (s.threads i).active = true → i + 1 = s.created
  handover : ∃ queue rest, FlRepr s.heap s.rxFl queue ∧
    Handover s.asm s.owner s.rxFcOff s.rxFl s.rxFlWritten queue rest ∧
    s.pty ++ rest = payload s.kept
  kept_sublist : s.kept.Sublist s.received
  counted : s.received.length = s.kept.length + s.droppedCount

theorem payload_append (frames frames' : List GSM0710Frame) :
    payload (frames ++ frames') = payload frames ++ payload frames' := List.flatMap_append

theorem payload_singleton (frame : GSM0710Frame) : payload [frame] = frame.data := by
  simp [payload]

theorem setThread_sound {threads : Nat → RetryPc} {i : Nat} {pc : RetryPc}
    (h : ∀ j, threads j ≠ .asserted) (hpc : pc ≠ .asserted) :
    ∀ j, Function.update threads i pc j ≠ .asserted := by
  intro j
  by_cases hj : j = i
  · rw [hj, Function.update_self]
    exact hpc
  · rw [Function.update_of_ne hj]
    exact h j

theorem setThread_single {threads : Nat → RetryPc} {i created : Nat} {pc : RetryPc}
    (h : ∀ j, (threads j).active = true → j + 1 = created)
    (hpc : pc.active = true → i + 1 = created) :
    ∀ j, (Function.update threads i pc j).active = true → j + 1 = created := by
  intro j hactive
  by_cases hj : j = i
  · subst hj
    rw [Function.update_self] at hactive
    exact hpc hactive
  · rw [Function.update_of_ne hj] at hactive
    exact h j hactive

/-- A thread that takes no frames may move on. -/
theorem Handover.of_inactive {a : FcPc} {r r' : RetryPc} {off : Bool} {fl : Option Nat}
    {written : Nat} {queue : List GSM0710Frame} {rest : List UInt8}
    (h : Handover a r off fl written queue rest) (hr : r.active = false)
    (hr' : r'.active = false) : Handover a r' off fl written queue rest := by
  cases h with
  | own ha _ hfl => exact .own ha hr' hfl
  | marking ha _ => exact .marking ha hr'
  | starting ha _ => exact .starting ha hr'
  | handed ha _ => exact .handed ha (.inr hr')
  | writing _ hwriting => rcases hwriting with rfl | rfl <;> cases hr
  | popping _ hpopping => cases hpopping; cases hr

/-- Once the list is drained, what is left is in the assembler's hands. -/
theorem Handover.rest_of_drained {a : FcPc} {r : RetryPc} {off : Bool} {fl : Option Nat}
    {written : Nat} {queue : List GSM0710Frame} {rest : List UInt8}
    (h : Handover a r off fl written queue rest) (hqueue : queue = []) (hr : r.active = false) :
    rest = a.held := by
  cases h with
  | own => rfl
  | marking | starting | handed => cases hqueue
  | writing _ hwriting => rcases hwriting with rfl | rfl <;> cases hr
  | popping _ hpopping => cases hpopping; cases hr

theorem FcInv.inOrder {s : FcState} (h : FcInv s) : InOrder s := by
  obtain ⟨queue, rest, hrepr, hhandover, haccount⟩ := h.handover
  refine ⟨h.sound, ⟨rest, haccount⟩, ?_, h.kept_sublist, h.counted⟩
  intro hempty hthreads
  rw [flIsEmpty_repr hrepr, Option.some.injEq, beq_iff_eq] at hempty
  rw [← haccount, hhandover.rest_of_drained hempty (hthreads _)]

theorem fcInv_init : FcInv FcState.init where
  sound := ⟨by simp [FcState.init], fun _ => by simp [FcState.init]⟩
  single := fun _ hactive => by cases hactive
  handover := ⟨[], [], rfl, .own rfl rfl (fun _ _ hpushing => by cases hpushing), rfl⟩
  kept_sublist := List.Sublist.refl _
  counted := rfl

/-! ## The assembler's steps -/

theorem FcPc.starts_of_owns {a : FcPc} (ha : a.owns = true) : a.starts = none := by
  cases a <;> simp_all [FcPc.owns, FcPc.starts]

theorem FcPc.starts_of_between {a : FcPc} (ha : a.between = true) : a.starts = none := by
  cases a <;> simp_all [FcPc.between, FcPc.starts]

theorem FcPc.owns_of_between {a : FcPc} (ha : a.between = true) : a.owns = true := by
  cases a <;> simp_all [FcPc.between, FcPc.owns]

/-- The assembler has the list: nothing is cached and no thread is active. -/
theorem Handover.of_owns {a : FcPc} {r : RetryPc} {off : Bool} {fl : Option Nat}
    {written : Nat} {queue : List GSM0710Frame} {rest : List UInt8}
    (h : Handover a r off fl written queue rest) (ha : a.owns = true)
    (hbetween : a.between = false) :
    off = false ∧ written = 0 ∧ queue = [] ∧ rest = a.held ∧ r.active = false ∧
      ∀ frame w, a = .pushing frame w → fl ≠ none := by
  cases h with
  | own _ hr hfl => exact ⟨rfl, rfl, rfl, rfl, hr, hfl⟩
  | marking hmarking _ =>
    subst hmarking
    cases ha
  | starting hstarts _ =>
    rw [FcPc.starts_of_owns ha] at hstarts
    cases hstarts
  | handed hb | writing hb | popping hb =>
    rw [hbetween] at hb
    cases hb

/-- A frame that is got while `rx_fc_off` is clear is the assembler's. -/
theorem Handover.of_got {frame : GSM0710Frame} {r : RetryPc} {fl : Option Nat}
    {written : Nat} {queue : List GSM0710Frame} {rest : List UInt8}
    (h : Handover (.got frame) r false fl written queue rest) :
    written = 0 ∧ queue = [] ∧ rest = frame.data ∧ r.active = false := by
  cases h with
  | own _ hr _ => exact ⟨rfl, rfl, rfl, hr⟩
  | marking hmarking _ => cases hmarking
  | starting hstarts _ => cases hstarts

/-- A frame that is got while `rx_fc_off` is set goes behind the queue. -/
theorem Handover.cache {frame : GSM0710Frame} {r : RetryPc} {fl : Option Nat}
    {written : Nat} {queue : List GSM0710Frame} {rest : List UInt8}
    (h : Handover (.got frame) r true fl written queue rest) :
    ∃ list before, fl = some list ∧ rest = before ++ frame.data ∧
      Handover .idle r true fl written queue before ∧
      ∀ list', Handover .idle r true (some list') written (queue ++ [frame]) rest := by
  have hheld : (FcPc.got frame).held = payload [frame] ++ FcPc.idle.held := by
    rw [payload_singleton]
    exact (List.append_nil _).symm
  cases h with
  | starting hstarts _ => cases hstarts
  | @handed list _ first queue _ hr =>
    refine ⟨list, _, rfl, rfl, ?_, fun list' => ?_⟩
    · rw [← List.append_nil (first.data.drop written ++ payload queue)]
      exact .handed rfl hr
    · rw [hheld, ← List.append_assoc, List.append_assoc (first.data.drop written),
        ← payload_append]
      exact .handed rfl hr
  | @writing list w first queue _ hr =>
    refine ⟨list, _, rfl, rfl, ?_, fun list' => ?_⟩
    · rw [← List.append_nil (first.data.drop w ++ payload queue)]
      exact .writing rfl hr
    · rw [hheld, ← List.append_assoc, List.append_assoc (first.data.drop w), ← payload_append]
      exact .writing rfl hr
  | @popping list queue _ hr =>
    refine ⟨list, _, rfl, rfl, ?_, fun list' => ?_⟩
    · rw [← List.append_nil (payload queue)]
      exact .popping rfl hr
    · rw [hheld, ← List.append_assoc, ← payload_append]
      exact .popping rfl hr

/-- The assembler's step keeps the invariant if it hands over what is left, and
keeps account of the frames. -/
theorem FcInv.of_handover {s s' : FcState} (h : FcInv s) (hthreads : s'.threads = s.threads)
    (hcreated : s'.created = s.created) (hreceived : s'.received = s.received)
    (hdropped : s'.droppedCount = s.droppedCount) (hkept : s'.kept = s.kept)
    (hasm : s'.asm ≠ .asserted)
    (hhandover : ∃ queue rest, FlRepr s'.heap s'.rxFl queue ∧
      Handover s'.asm s.owner s'.rxFcOff s'.rxFl s'.rxFlWritten queue rest ∧
      s'.pty ++ rest = payload s.kept) : FcInv s' := by
  refine ⟨⟨hasm, hthreads ▸ h.sound.2⟩, ?_, ?_, ?_, ?_⟩
  · rw [hthreads, hcreated]
    exact h.single
  · rw [FcState.owner, hthreads, hcreated, hkept]
    exact hhandover
  · rw [hkept, hreceived]
    exact h.kept_sublist
  · rw [hkept, hreceived, hdropped]
    exact h.counted

theorem kept_of_got {s : FcState} {frame : GSM0710Frame} (hasm : s.asm = .got frame) :
    s.kept = s.accepted ++ [frame] := by
  rw [FcState.kept, hasm]

theorem kept_of_not_got {s : FcState} (hasm : ∀ frame, s.asm ≠ .got frame) :
    s.kept = s.accepted := by
  unfold FcState.kept
  split
  · rename_i frame hgot
    exact absurd hgot (hasm frame)
  · exact List.append_nil _

/-- A frame is cached, or dropped and counted. -/
theorem cache_inv {s : FcState} {frame : GSM0710Frame} (h : FcInv s) (hasm : s.asm = .got frame)
    (hoff : s.rxFcOff = true) : FcInv (s.fcCacheFrameData frame) := by
  obtain ⟨queue, rest, hrepr, hhandover, haccount⟩ := h.handover
  rw [hasm, hoff] at hhandover
  obtain ⟨list, before, hfl, hrest, hdropping, hpushing⟩ := hhandover.cache
  have hkept := kept_of_got hasm
  unfold FcState.fcCacheFrameData
  split
  · have hkept' : FcState.kept { s with droppedCount := s.droppedCount + 1, asm := .idle } =
        s.accepted := kept_of_not_got (fun _ hgot => by cases hgot)
    refine ⟨⟨by simp, h.sound.2⟩, h.single, ⟨queue, before, hrepr, ?_, ?_⟩, ?_, ?_⟩
    · rw [hoff]
      exact hdropping
    · rw [hkept, hrest, payload_append, payload_singleton, ← List.append_assoc] at haccount
      rw [hkept']
      exact List.append_cancel_right haccount
    · rw [hkept']
      exact (List.sublist_append_left _ _).trans (hkept ▸ h.kept_sublist)
    · have hcounted := h.counted
      rw [hkept, List.length_append, List.length_singleton] at hcounted
      rw [hkept']
      dsimp only
      omega
  · obtain ⟨list', heap', hpush, hrepr'⟩ := flPushFrame_repr (hfl ▸ hrepr) frame
    rw [hfl, hpush]
    refine h.of_handover rfl rfl rfl rfl ?_ (by simp) ⟨_, rest, hrepr', ?_, haccount⟩
    · rw [hkept]
      exact kept_of_not_got (fun _ hgot => by cases hgot)
    · dsimp only
      rw [hoff]
      exact hpushing list'

/-- The list is the assembler's when it is about to set `rx_fl_written`. -/
theorem Handover.of_marking {frame : GSM0710Frame} {w : Nat} {r : RetryPc} {off : Bool}
    {fl : Option Nat} {written : Nat} {queue : List GSM0710Frame} {rest : List UInt8}
    (h : Handover (.marking frame w) r off fl written queue rest) :
    ∃ list, off = false ∧ fl = some list ∧ queue = [frame] ∧ rest = frame.data.drop w ∧
      r.active = false := by
  cases h with
  | own ha _ _ => cases ha
  | @marking list _ _ hmarking hr =>
    cases hmarking
    exact ⟨list, rfl, rfl, rfl, rfl, hr⟩
  | starting hstarts _ => cases hstarts
  | handed hb | writing hb | popping hb => cases hb

/-- While a thread is being started, the list holds the rest of a frame. -/
theorem Handover.of_starts {a : FcPc} {o : Bool} {r : RetryPc} {off : Bool}
    {fl : Option Nat} {written : Nat} {queue : List GSM0710Frame} {rest : List UInt8}
    (h : Handover a r off fl written queue rest) (ha : a.starts = some o) :
    ∃ list frame, off = o ∧ fl = some list ∧ queue = [frame] ∧
      rest = frame.data.drop written ∧ r.active = false := by
  cases h with
  | own howns _ _ =>
    rw [FcPc.starts_of_owns howns] at ha
    cases ha
  | marking hmarking _ =>
    subst hmarking
    cases ha
  | @starting off list _ frame hstarts hr =>
    rw [hstarts] at ha
    cases ha
    exact ⟨list, frame, rfl, rfl, rfl, rfl, hr⟩
  | handed hb | writing hb | popping hb =>
    rw [FcPc.starts_of_between hb] at ha
    cases ha

theorem FcInv.rxFcOff_of_starts {s : FcState} {off : Bool} (h : FcInv s)
    (ha : s.asm.starts = some off) : s.rxFcOff = off := by
  obtain ⟨queue, rest, -, hhandover, -⟩ := h.handover
  obtain ⟨-, -, hoff, -⟩ := hhandover.of_starts ha
  exact hoff

/-- The assembler moves on in `start_retry_write_thread`. -/
theorem starts_inv {s : FcState} {a : FcPc} {off off' : Bool} (h : FcInv s)
    (ha : s.asm.starts = some off) (ha' : a.starts = some off') :
    FcInv { s with asm := a, rxFcOff := off' } := by
  obtain ⟨queue, rest, hrepr, hhandover, haccount⟩ := h.handover
  obtain ⟨list, frame, -, hfl, rfl, rfl, hr⟩ := hhandover.of_starts ha
  refine h.of_handover rfl rfl rfl rfl ?_ ?_ ⟨_, _, hrepr, ?_, haccount⟩
  · rw [kept_of_not_got (fun _ hgot => by dsimp only at hgot; subst hgot; cases ha'),
      kept_of_not_got (fun _ hgot => by rw [hgot] at ha; cases ha)]
  · rintro rfl
    cases ha'
  · dsimp only
    rw [hfl]
    exact .starting ha' hr

/-- `_fc_cacheRemainingFrameData` and `start_retry_write_thread`, step by step. -/
theorem fcAsmStep_inv {s s' : FcState} (h : FcInv s) (hstep : s.asmStep = some s') : FcInv s' := by
  obtain ⟨queue, rest, hrepr, hhandover, haccount⟩ := h.handover
  cases hasm : s.asm with
  | got frame =>
    simp only [FcState.asmStep, hasm] at hstep
    cases hoff : s.rxFcOff with
    | true =>
      rw [hoff] at hstep
      cases hstep
      exact cache_inv h hasm hoff
    | false =>
      rw [hoff] at hstep
      cases hstep
      rw [hasm, hoff] at hhandover
      obtain ⟨hwritten, rfl, rfl, hr⟩ := hhandover.of_got
      refine h.of_handover rfl rfl rfl rfl ?_ (by simp) ⟨[], frame.data, hrepr, ?_, haccount⟩
      · rw [kept_of_got hasm]
        exact kept_of_not_got (fun _ hgot => by cases hgot)
      · dsimp only
        rw [hwritten]
        exact .own rfl hr (fun _ _ hpushing => by cases hpushing)
  | checking frame written =>
    have hkept := kept_of_not_got (s := s) (fun _ hgot => by rw [hasm] at hgot; cases hgot)
    rw [hasm] at hhandover
    obtain ⟨hoff, hwritten, rfl, rfl, hr, -⟩ := hhandover.of_owns rfl rfl
    simp only [FcState.asmStep, hasm, flIsEmpty_repr hrepr] at hstep
    cases hstep
    refine h.of_handover rfl rfl rfl rfl ?_ (by simp) ⟨[], _, hrepr, ?_, haccount⟩
    · exact (kept_of_not_got (fun _ hgot => by cases hgot)).trans hkept.symm
    · dsimp only
      rw [hoff, hwritten]
      exact .own (a := .initialising frame written) rfl hr (fun _ _ hpushing => by cases hpushing)
  | initialising frame written =>
    have hkept := kept_of_not_got (s := s) (fun _ hgot => by rw [hasm] at hgot; cases hgot)
    rw [hasm] at hhandover
    obtain ⟨hoff, hwritten, rfl, rfl, hr, -⟩ := hhandover.of_owns rfl rfl
    obtain ⟨list, heap, hinit, hrepr'⟩ := flInit_repr hrepr
    simp only [FcState.asmStep, hasm, hinit] at hstep
    cases hstep
    refine h.of_handover rfl rfl rfl rfl ?_ (by simp) ⟨[], _, hrepr', ?_, haccount⟩
    · exact (kept_of_not_got (fun _ hgot => by cases hgot)).trans hkept.symm
    · dsimp only
      rw [hoff, hwritten]
      exact .own (a := .pushing frame written) rfl hr (fun _ _ _ => Option.some_ne_none _)
  | pushing frame written =>
    have hkept := kept_of_not_got (s := s) (fun _ hgot => by rw [hasm] at hgot; cases hgot)
    rw [hasm] at hhandover
    obtain ⟨hoff, hwritten, rfl, rfl, hr, hfl⟩ := hhandover.of_owns rfl rfl
    obtain ⟨list, hlist⟩ := Option.ne_none_iff_exists'.mp (hfl frame written rfl)
    obtain ⟨list', heap', hpush, hrepr'⟩ := flPushFrame_repr (hlist ▸ hrepr) frame
    simp only [FcState.asmStep, hasm, hlist, hpush] at hstep
    cases hstep
    refine h.of_handover rfl rfl rfl rfl ?_ (by simp) ⟨_, _, hrepr', ?_, haccount⟩
    · exact (kept_of_not_got (fun _ hgot => by cases hgot)).trans hkept.symm
    · dsimp only
      rw [hoff, hwritten]
      exact .marking rfl hr
  | marking frame written =>
    have hkept := kept_of_not_got (s := s) (fun _ hgot => by rw [hasm] at hgot; cases hgot)
    rw [hasm] at hhandover
    obtain ⟨list, hoff, hfl, rfl, rfl, hr⟩ := hhandover.of_marking
    simp only [FcState.asmStep, hasm] at hstep
    cases hstep
    refine h.of_handover rfl rfl rfl rfl ?_ (by simp) ⟨_, _, hrepr, ?_, haccount⟩
    · exact (kept_of_not_got (fun _ hgot => by cases hgot)).trans hkept.symm
    · dsimp only
      rw [hoff, hfl]
      exact .starting rfl hr
  | sending =>
    have hstarts : s.asm.starts = some false := by rw [hasm]; rfl
    simp only [FcState.asmStep, hasm] at hstep
    cases hstep
    exact starts_inv h hstarts (by rw [h.rxFcOff_of_starts hstarts]; rfl)
  | locking =>
    have hstarts : s.asm.starts = some false := by rw [hasm]; rfl
    simp only [FcState.asmStep, hasm] at hstep
    split at hstep
    · cases hstep
      exact starts_inv h hstarts (by rw [h.rxFcOff_of_starts hstarts]; rfl)
    · cases hstep
      exact starts_inv h hstarts rfl
  | woken =>
    simp only [FcState.asmStep, hasm] at hstep
    cases hstep
    exact starts_inv h (by rw [hasm]; rfl) rfl
  | idle | direct _ | waiting | creating | ptyError _ | asserted =>
    simp only [FcState.asmStep, hasm] at hstep
    cases hstep

/-- A write of the assembler: what is not written is its to cache. -/
theorem fcAsmWrite_inv {s : FcState} {frame : GSM0710Frame} (h : FcInv s)
    (hasm : s.asm = .direct frame) (o : PtyOutcome) : FcInv (s.asmWrite frame o) := by
  obtain ⟨queue, rest, hrepr, hhandover, haccount⟩ := h.handover
  have hkept := kept_of_not_got (s := s) (fun _ hgot => by rw [hasm] at hgot; cases hgot)
  rw [hasm] at hhandover
  obtain ⟨hoff, hwritten, rfl, rfl, hr, -⟩ := hhandover.of_owns rfl rfl
  have hown : ∀ {a : FcPc}, a.owns = true → (∀ frame written, a ≠ .pushing frame written) →
      Handover a s.owner s.rxFcOff s.rxFl s.rxFlWritten [] a.held := by
    intro a ha hpushing
    rw [hoff, hwritten]
    exact .own ha hr (fun frame written heq => absurd heq (hpushing frame written))
  have hcut : ∀ n, (s.pty ++ frame.data.take n) ++ frame.data.drop n = payload s.kept := by
    intro n
    rw [List.append_assoc, List.take_append_drop]
    exact haccount
  cases o with
  | wrote n =>
    simp only [FcState.asmWrite]
    split
    · refine h.of_handover rfl rfl rfl rfl ?_ (by simp)
        ⟨[], _, hrepr, hown (a := .checking frame _) rfl (by simp), hcut _⟩
      exact (kept_of_not_got (fun _ hgot => by cases hgot)).trans hkept.symm
    · rename_i hall
      refine h.of_handover rfl rfl rfl rfl ?_ (by simp)
        ⟨[], _, hrepr, hown (a := .idle) rfl (by simp), ?_⟩
      · exact (kept_of_not_got (fun _ hgot => by cases hgot)).trans hkept.symm
      · have hrest : frame.data.drop (min n frame.length) = [] :=
          List.drop_eq_nil_of_le (Nat.le_of_sub_eq_zero (Nat.eq_zero_of_not_pos hall))
        have := hcut (min n frame.length)
        rwa [hrest] at this
  | failed e =>
    cases e with
    | EAGAIN =>
      refine h.of_handover rfl rfl rfl rfl ?_ (by simp [FcState.asmWrite])
        ⟨[], _, hrepr, hown (a := .checking frame 0) rfl (by simp), haccount⟩
      exact (kept_of_not_got (fun _ hgot => by cases hgot)).trans hkept.symm
    | EINTR | EBADF | EIO => exact h
    | ETXTBSY | ENODEV | other =>
      refine h.of_handover rfl rfl rfl rfl ?_ (by simp [FcState.asmWrite])
        ⟨[], _, hrepr, hown (a := .ptyError frame) rfl (by simp), haccount⟩
      exact (kept_of_not_got (fun _ hgot => by cases hgot)).trans hkept.symm

/-- A frame that is got is still to be written. -/
theorem Handover.arrive {r : RetryPc} {off : Bool} {fl : Option Nat} {written : Nat}
    {queue : List GSM0710Frame} {rest : List UInt8}
    (h : Handover .idle r off fl written queue rest) (frame : GSM0710Frame) :
    Handover (.got frame) r off fl written queue (rest ++ frame.data) := by
  have hidle : ∀ before, before ++ FcPc.idle.held = before := List.append_nil
  cases h with
  | own _ hr _ => exact .own rfl hr (fun _ _ hpushing => by cases hpushing)
  | marking hmarking _ => cases hmarking
  | starting hstarts _ => cases hstarts
  | handed _ hr =>
    rw [hidle]
    exact .handed rfl hr
  | writing _ hr =>
    rw [hidle]
    exact .writing rfl hr
  | popping _ hr =>
    rw [hidle]
    exact .popping rfl hr

theorem arrive_inv {s : FcState} (h : FcInv s) (hasm : s.asm = .idle) (frame : GSM0710Frame) :
    FcInv { s with asm := .got frame, received := s.received ++ [frame] } := by
  obtain ⟨queue, rest, hrepr, hhandover, haccount⟩ := h.handover
  rw [hasm] at hhandover
  have hkept : FcState.kept { s with asm := .got frame, received := s.received ++ [frame] } =
      s.kept ++ [frame] := by
    rw [kept_of_not_got (s := s) (fun _ hgot => by rw [hasm] at hgot; cases hgot)]
    exact kept_of_got rfl
  refine ⟨⟨by simp, h.sound.2⟩, h.single, ⟨queue, _, hrepr, hhandover.arrive frame, ?_⟩, ?_, ?_⟩
  · rw [hkept, payload_append, payload_singleton, ← List.append_assoc, haccount]
  · rw [hkept]
    exact h.kept_sublist.append (List.Sublist.refl _)
  · have hcounted := h.counted
    rw [hkept, List.length_append, List.length_append, hcounted]
    dsimp only
    omega

/-- The list is handed over to a new thread, or to none. -/
theorem create_inv {s : FcState} (h : FcInv s) (hasm : s.asm = .creating) (ok : Bool) :
    FcInv (if ok then FcState.spawn { s with asm := .idle } else { s with asm := .idle }) := by
  obtain ⟨queue, rest, hrepr, hhandover, haccount⟩ := h.handover
  have hkept := kept_of_not_got (s := s) (fun _ hgot => by rw [hasm] at hgot; cases hgot)
  have hstarts : s.asm.starts = some true := by rw [hasm]; rfl
  obtain ⟨list, frame, hoff, hfl, rfl, rfl, hr⟩ := hhandover.of_starts hstarts
  have hhanded : ∀ {r : RetryPc}, (r = .start ∨ r.active = false) →
      Handover .idle r s.rxFcOff s.rxFl s.rxFlWritten [frame]
        (frame.data.drop s.rxFlWritten) := by
    intro r hr'
    have := @Handover.handed .idle _ list s.rxFlWritten frame [] rfl hr'
    rw [hoff, hfl]
    simpa [payload, FcPc.held] using this
  cases ok with
  | false =>
    refine h.of_handover rfl rfl rfl rfl ?_ (by simp) ⟨_, _, hrepr, hhanded (.inr hr), haccount⟩
    exact (kept_of_not_got (fun _ hgot => by cases hgot)).trans hkept.symm
  | true =>
    have hkept' : (FcState.spawn { s with asm := .idle }).kept = s.kept :=
      (kept_of_not_got (fun _ hgot => by cases hgot)).trans hkept.symm
    rw [if_pos rfl]
    refine ⟨⟨by simp [FcState.spawn], ?_⟩, ?_, ⟨[frame], frame.data.drop s.rxFlWritten, hrepr, ?_, ?_⟩,
      ?_, ?_⟩
    · exact setThread_sound h.sound.2 (by simp)
    · intro i hactive
      by_cases hi : i = s.created
      · subst hi
        rfl
      · simp only [FcState.spawn, Function.update_of_ne hi] at hactive
        have hlast : s.created - 1 = i := by
          have := h.single i hactive
          omega
        rw [FcState.owner, hlast, hactive] at hr
        cases hr
    · simp only [FcState.owner, FcState.spawn, Nat.add_sub_cancel, Function.update_self]
      exact hhanded (.inl rfl)
    · rw [hkept']
      exact haccount
    · rw [hkept']
      exact h.kept_sublist
    · rw [hkept']
      exact h.counted

/-! ## The steps of the retry threads -/

/-- The active thread is the one that has the list. -/
theorem FcInv.owner_eq {s : FcState} (h : FcInv s) {i : Nat}
    (hactive : (s.threads i).active = true) : s.owner = s.threads i := by
  rw [FcState.owner, ← h.single i hactive, Nat.add_sub_cancel]

theorem Handover.of_start {a : FcPc} {off : Bool} {fl : Option Nat} {written : Nat}
    {queue : List GSM0710Frame} {rest : List UInt8}
    (h : Handover a .start off fl written queue rest) :
    ∃ list frame queue', off = true ∧ fl = some list ∧ queue = frame :: queue' ∧
      a.between = true ∧ rest = frame.data.drop written ++ payload queue' ++ a.held := by
  cases h with
  | own _ hr _ | marking _ hr | starting _ hr => cases hr
  | @handed list _ frame queue ha _ => exact ⟨list, frame, queue, rfl, rfl, rfl, ha, rfl⟩
  | writing _ hr => rcases hr with hr | hr <;> cases hr
  | popping _ hr => cases hr

theorem Handover.of_writing {a : FcPc} {frame : GSM0710Frame} {w : Nat} {off : Bool}
    {fl : Option Nat} {written : Nat} {queue : List GSM0710Frame} {rest : List UInt8}
    (h : Handover a (.writing frame w) off fl written queue rest) :
    ∃ list, off = true ∧ fl = some list ∧ written = 0 ∧ a.between = true ∧
      rest = frame.data.drop w ++ payload queue ++ a.held := by
  cases h with
  | own _ hr _ | marking _ hr | starting _ hr => cases hr
  | handed _ hr => rcases hr with hr | hr <;> cases hr
  | @writing list _ _ _ ha hr =>
    rcases hr with hr | hr <;> cases hr
    exact ⟨list, rfl, rfl, rfl, ha, rfl⟩
  | popping _ hr => cases hr

theorem Handover.of_popping {a : FcPc} {off : Bool} {fl : Option Nat} {written : Nat}
    {queue : List GSM0710Frame} {rest : List UInt8}
    (h : Handover a .popping off fl written queue rest) :
    ∃ list, off = true ∧ fl = some list ∧ written = 0 ∧ a.between = true ∧
      rest = payload queue ++ a.held := by
  cases h with
  | own _ hr _ | marking _ hr | starting _ hr => cases hr
  | handed _ hr | writing _ hr => rcases hr with hr | hr <;> cases hr
  | @popping list _ ha _ => exact ⟨list, rfl, rfl, rfl, ha, rfl⟩

/-- The step of an active thread keeps the invariant if it hands over what is left. -/
theorem FcInv.of_active {s s' : FcState} {i : Nat} {pc : RetryPc} (h : FcInv s)
    (hactive : (s.threads i).active = true) (hpc : pc ≠ .asserted)
    (hthreads : s'.threads = Function.update s.threads i pc) (hcreated : s'.created = s.created)
    (hreceived : s'.received = s.received) (hdropped : s'.droppedCount = s.droppedCount)
    (haccepted : s'.accepted = s.accepted) (hasm : s'.asm = s.asm)
    (hhandover : ∃ queue rest, FlRepr s'.heap s'.rxFl queue ∧
      Handover s.asm pc s'.rxFcOff s'.rxFl s'.rxFlWritten queue rest ∧
      s'.pty ++ rest = payload s.kept) : FcInv s' := by
  have hi := h.single i hactive
  have hkept : s'.kept = s.kept := by rw [FcState.kept, FcState.kept, haccepted, hasm]
  refine ⟨⟨hasm ▸ h.sound.1, ?_⟩, ?_, ?_, ?_, ?_⟩
  · rw [hthreads]
    exact setThread_sound h.sound.2 hpc
  · rw [hthreads, hcreated]
    exact setThread_single h.single (fun _ => hi)
  · rw [FcState.owner, hthreads, hcreated, ← hi, Nat.add_sub_cancel, Function.update_self, hasm,
      hkept]
    exact hhandover
  · rw [hkept, hreceived]
    exact h.kept_sublist
  · rw [hkept, hreceived, hdropped]
    exact h.counted

/-- A thread that has left the list to others moves on. -/
theorem FcInv.of_inactive {s s' : FcState} {i : Nat} {pc : RetryPc} (h : FcInv s)
    (hinactive : (s.threads i).active = false) (hpc : pc.active = false) (hpc' : pc ≠ .asserted)
    (hs' : s' = { s with threads := Function.update s.threads i pc, rxThread := s'.rxThread }) :
    FcInv s' := by
  obtain ⟨queue, rest, hrepr, hhandover, haccount⟩ := h.handover
  rw [hs']
  refine ⟨⟨h.sound.1, setThread_sound h.sound.2 hpc'⟩,
    setThread_single h.single (fun hactive => ?_), ⟨queue, rest, hrepr, ?_, haccount⟩,
    h.kept_sublist, h.counted⟩
  · rw [hpc] at hactive
    cases hactive
  · by_cases hi : s.created - 1 = i
    · simp only [FcState.owner, hi, Function.update_self] at hhandover ⊢
      exact hhandover.of_inactive hinactive hpc
    · simp only [FcState.owner, Function.update_of_ne hi]
      exact hhandover

/-- The signal of a thread may wake the assembler. -/
theorem signalled_inv {s : FcState} (h : FcInv s) : FcInv { s with asm := s.asm.signalled } := by
  by_cases hwait : s.asm = .waiting
  · have hstarts : s.asm.starts = some false := by rw [hwait]; rfl
    rw [hwait]
    exact starts_inv h hstarts (by rw [h.rxFcOff_of_starts hstarts]; rfl)
  · have hsame : s.asm.signalled = s.asm := by
      unfold FcPc.signalled
      split
      · rename_i heq
        exact absurd heq hwait
      · rfl
    rw [hsame]
    exact h

/-- A thread takes a frame, leaves the list, or ends. -/
theorem retryStep_inv {s s' : FcState} {i : Nat} (h : FcInv s) (hstep : s.retryStep i = some s') :
    FcInv s' := by
  obtain ⟨queue, rest, hrepr, hhandover, haccount⟩ := h.handover
  cases hpc : s.threads i with
  | start =>
    have hactive : (s.threads i).active = true := by rw [hpc]; rfl
    rw [h.owner_eq hactive, hpc] at hhandover
    obtain ⟨list, frame, queue, hoff, hfl, rfl, ha, rfl⟩ := hhandover.of_start
    obtain ⟨heap, hpop, hrepr'⟩ := flPopFrame_cons hrepr
    simp only [FcState.retryStep, hpc, hpop] at hstep
    cases hstep
    refine h.of_active hactive (by simp) rfl rfl rfl rfl rfl rfl ⟨queue, _, hrepr', ?_, haccount⟩
    dsimp only [FcState.setThread]
    rw [hoff, hfl]
    exact .writing ha (.inl rfl)
  | popping =>
    have hactive : (s.threads i).active = true := by rw [hpc]; rfl
    rw [h.owner_eq hactive, hpc] at hhandover
    obtain ⟨list, hoff, hfl, hwritten, ha, rfl⟩ := hhandover.of_popping
    cases queue with
    | nil =>
      simp only [FcState.retryStep, hpc, flPopFrame_nil hrepr] at hstep
      cases hstep
      refine h.of_active hactive (by simp) rfl rfl rfl rfl rfl rfl ⟨[], _, hrepr, ?_, haccount⟩
      dsimp only [FcState.setThread]
      rw [hwritten]
      refine .own (FcPc.owns_of_between ha) rfl ?_
      intro frame written hpushing
      rw [hpushing] at ha
      cases ha
    | cons frame queue =>
      obtain ⟨heap, hpop, hrepr'⟩ := flPopFrame_cons hrepr
      simp only [FcState.retryStep, hpc, hpop] at hstep
      cases hstep
      refine h.of_active hactive (by simp) rfl rfl rfl rfl rfl rfl
        ⟨queue, _, hrepr', ?_, haccount⟩
      dsimp only [FcState.setThread]
      rw [hoff, hfl, hwritten]
      exact .writing ha (.inl rfl)
  | sending | clearing =>
    simp only [FcState.retryStep, hpc] at hstep
    cases hstep
    exact h.of_inactive (by rw [hpc]; rfl) (by rfl) (by simp) rfl
  | signalling =>
    simp only [FcState.retryStep, hpc] at hstep
    cases hstep
    refine FcInv.of_inactive (s := { s with asm := s.asm.signalled }) ?_ (by rw [hpc]; rfl)
      (by rfl) (by simp) rfl
    exact signalled_inv h
  | absent | writing _ _ | done | ptyError _ _ | asserted =>
    simp only [FcState.retryStep, hpc] at hstep
    cases hstep

/-- A write of a thread: what is not written stays in its hands. -/
theorem retryWrite_inv {s : FcState} {i : Nat} {frame : GSM0710Frame} {written : Nat}
    (h : FcInv s) (hpc : s.threads i = .writing frame written) (o : PtyOutcome) :
    FcInv (s.retryWrite i frame written o) := by
  have hactive : (s.threads i).active = true := by rw [hpc]; rfl
  obtain ⟨queue, rest, hrepr, hhandover, haccount⟩ := h.handover
  rw [h.owner_eq hactive, hpc] at hhandover
  obtain ⟨list, hoff, hfl, hwritten, ha, rfl⟩ := hhandover.of_writing
  cases o with
  | wrote n =>
    have hcut : (s.pty ++ (frame.data.drop written).take (min n (frame.length - written))) ++
        (frame.data.drop (written + min n (frame.length - written)) ++ payload queue ++
          s.asm.held) = payload s.kept := by
      rw [← haccount, ← List.drop_drop, List.append_assoc, List.append_assoc,
        ← List.append_assoc (List.take _ _), List.take_append_drop, List.append_assoc]
    simp only [FcState.retryWrite]
    split
    · refine h.of_active hactive (by simp) rfl rfl rfl rfl rfl rfl ⟨queue, _, hrepr, ?_, hcut⟩
      dsimp only [FcState.setThread]
      rw [hoff, hfl, hwritten]
      exact .writing ha (.inl rfl)
    · rename_i hall
      rw [List.drop_eq_nil_of_le (Nat.le_of_not_lt hall), List.nil_append] at hcut
      refine h.of_active hactive (by simp) rfl rfl rfl rfl rfl rfl ⟨queue, _, hrepr, ?_, hcut⟩
      dsimp only [FcState.setThread]
      rw [hoff, hfl, hwritten]
      exact .popping ha rfl
  | failed e =>
    have herror : FcInv (s.setThread i (.ptyError frame written)) := by
      refine h.of_active hactive (by simp) rfl rfl rfl rfl rfl rfl ⟨queue, _, hrepr, ?_, haccount⟩
      dsimp only [FcState.setThread]
      rw [hoff, hfl, hwritten]
      exact .writing ha (.inr rfl)
    cases e with
    | EINTR | EAGAIN => exact h
    | EBADF | EIO | ETXTBSY | ENODEV | other => exact herror

/-- Every step keeps the invariant. -/
theorem fc_step_inv {s s' : FcState} {a : FcAct} (h : FcInv s) (hstep : s.step a = some s') :
    FcInv s' := by
  cases a with
  | arrive frame =>
    simp only [FcState.step] at hstep
    split at hstep
    · rename_i hasm
      cases hstep
      exact arrive_inv h hasm frame
    · cases hstep
  | asm => exact fcAsmStep_inv h hstep
  | asmWrite o =>
    simp only [FcState.step] at hstep
    split at hstep
    · rename_i frame hasm
      cases hstep
      exact fcAsmWrite_inv h hasm o
    · cases hstep
  | create ok =>
    simp only [FcState.step] at hstep
    split at hstep
    · rename_i hasm
      cases hstep
      exact create_inv h hasm ok
    · cases hstep
  | spurious =>
    simp only [FcState.step] at hstep
    split at hstep
    · rename_i hasm
      cases hstep
      have hstarts : s.asm.starts = some false := by rw [hasm]; rfl
      exact starts_inv h hstarts (by rw [h.rxFcOff_of_starts hstarts]; rfl)
    · cases hstep
  | retry i => exact retryStep_inv h hstep
  | retryWrite i o =>
    simp only [FcState.step] at hstep
    split at hstep
    · rename_i frame written hpc
      cases hstep
      exact retryWrite_inv h hpc o
    · cases hstep

/-- **Receive flow control loses and reorders nothing.**  In every state of every
run the terminal has a prefix of the payloads that were kept, in the order of
arrival; and when the list is drained and no thread has a frame, it has all of them
but what the assembler holds. -/
theorem flowControl_inOrder (acts : List FcAct) : fcMachine.Along InOrder fcMachine.init acts :=
  fcMachine.along_of_invariant (fun _ _ _ => fc_step_inv) (fun _ => FcInv.inOrder) fcInv_init acts

end MtkHw.Mux
