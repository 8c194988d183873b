import Mathlib.Algebra.BigOperators.Group.List.Basic
import MtkHw.Mux.FlowControl
import Mathlib.Algebra.GroupWithZero.Nat

/-!
# The bytes that wait for the terminal

`rx_fl_total` is meant to be the number of payload bytes that a channel in flow-off has cached and
not written: `_fc_cacheFrameData` drops a frame that would take it past
`RX_FLOW_CTRL_HIGH_WATERMARK`.  The two functions that cache add to it; the thread that writes the
frames out takes nothing off.

`pendingBytes` counts the bytes that really wait, and `pendingCounted_iff` says in which runs the
counter is right throughout: those in which no retry thread gets a byte written.
-/

namespace MtkHw.Mux

open Lib

/-! ## What really waits -/

/-- The number of payload bytes of some frames. -/
def byteCount (frames : List GSM0710Frame) : Nat := (frames.map GSM0710Frame.length).sum

/-- What a thread has taken from the list and not written. -/
def RetryPc.unwritten : RetryPc → Nat
  | .writing frame written | .ptyError frame written => frame.length - written
  | _ => 0

namespace FcState

/-- The frames in `rx_fl`. -/
def queued (s : FcState) : List GSM0710Frame :=
  match s.rxFl with
  | none => []
  | some list => circleValues s.heap list

/-- The payload bytes in `rx_fl`, of whose first frame `rx_fl_written` are written, and those of the
frame that is being retried. -/
def pendingBytes (s : FcState) : Nat :=
  (byteCount s.queued - s.rxFlWritten) +
    ((List.range s.created).map fun i => (s.threads i).unwritten).sum

end FcState

/-- In flow-off the counter is the number of bytes that wait, and a frame is dropped only when it
would take that number past the high-water mark. -/
structure PendingCounted (s : FcState) : Prop where
  total : s.rxFcOff = true → s.rxFlTotal = s.pendingBytes
  drops : ∀ frame, s.asm = .got frame → s.rxFcOff = true →
    s.rxFlTotal + frame.length > rxFlowCtrlHighWatermark →
    s.pendingBytes + frame.length > rxFlowCtrlHighWatermark

/-- A retry thread gets no byte written. -/
def WritesNothing (s : FcState) (a : FcAct) : Prop :=
  ∀ i n frame written, a = .retryWrite i (.wrote n) → s.threads i = .writing frame written →
    min n (frame.length - written) = 0

/-! ## The list and the threads -/

theorem FlRepr.queued_eq {s : FcState} {queue : List GSM0710Frame}
    (h : FlRepr s.heap s.rxFl queue) : s.queued = queue := by
  unfold FcState.queued
  cases hfl : s.rxFl with
  | none =>
    rw [hfl] at h
    exact h.symm
  | some list =>
    rw [hfl] at h
    exact Circle.values_eq h

/-- Only the thread created last can hold a frame. -/
theorem FcInv.unwritten_eq {s : FcState} (h : FcInv s) :
    ((List.range s.created).map fun i => (s.threads i).unwritten).sum = s.owner.unwritten := by
  have hidle : ∀ i, i + 1 ≠ s.created → (s.threads i).unwritten = 0 := by
    intro i hi
    have hinactive := fun hactive => hi (h.single i hactive)
    cases hpc : s.threads i with
    | writing frame written | ptyError frame written =>
      rw [hpc] at hinactive
      exact absurd rfl hinactive
    | _ => rfl
  cases hcreated : s.created with
  | zero =>
    have := hidle 0 (by omega)
    rw [FcState.owner, hcreated]
    exact this.symm
  | succ n =>
    have hzero : ((List.range n).map fun i => (s.threads i).unwritten).sum = 0 := by
      refine List.sum_eq_zero fun x hx => ?_
      obtain ⟨i, hi, rfl⟩ := List.mem_map.mp hx
      exact hidle i (by have := List.mem_range.mp hi; omega)
    rw [List.range_succ, List.map_append, List.sum_append, hzero, FcState.owner, hcreated]
    simp

theorem FcInv.pendingBytes_eq {s : FcState} (h : FcInv s) :
    s.pendingBytes = (byteCount s.queued - s.rxFlWritten) + s.owner.unwritten := by
  rw [FcState.pendingBytes, h.unwritten_eq]

@[simp] theorem byteCount_nil : byteCount [] = 0 := rfl

@[simp] theorem byteCount_cons (frame : GSM0710Frame) (frames : List GSM0710Frame) :
    byteCount (frame :: frames) = frame.length + byteCount frames := rfl

@[simp] theorem byteCount_append (frames frames' : List GSM0710Frame) :
    byteCount (frames ++ frames') = byteCount frames + byteCount frames' := by
  simp [byteCount]

theorem RetryPc.unwritten_of_inactive {r : RetryPc} (h : r.active = false) : r.unwritten = 0 := by
  cases r <;> first | rfl | cases h

/-! ## What every run keeps -/

/-- What has been written of the frame that the assembler caches, and what it has counted. -/
def FcState.CutOk (s : FcState) : Prop :=
  match s.asm with
  | .checking frame written | .initialising frame written => written ≤ frame.length
  | .pushing frame written | .marking frame written =>
      written ≤ frame.length ∧ s.rxFlTotal = frame.length - written
  | _ => True

/-- The list is about to be handed over, or handed over already. -/
def FcState.InUse (s : FcState) : Prop := s.asm.starts.isSome = true ∨ s.rxFcOff = true

/-- The rest of the frame that began the flow-off is counted, and counted right. -/
structure TallyInv (s : FcState) : Prop where
  fc : FcInv s
  cut : s.CutOk
  head_le : s.InUse → ∀ frame ∈ s.queued.head?, s.rxFlWritten ≤ frame.length
  started : s.asm.starts.isSome = true → s.rxFlTotal + s.rxFlWritten = byteCount s.queued

/-- An empty list is read from its start. -/
theorem Handover.written_of_nil {a : FcPc} {r : RetryPc} {off : Bool} {fl : Option Nat}
    {written : Nat} {rest : List UInt8} (h : Handover a r off fl written [] rest) : written = 0 := by
  cases h <;> rfl

/-- What is written of the first frame is not more than is cached. -/
theorem TallyInv.written_le {s : FcState} (h : TallyInv s) (huse : s.InUse) :
    s.rxFlWritten ≤ byteCount s.queued := by
  obtain ⟨queue, rest, hrepr, hhandover, -⟩ := h.fc.handover
  have hqueued := hrepr.queued_eq
  have hhead := h.head_le huse
  rw [hqueued] at hhead ⊢
  cases queue with
  | cons frame queue =>
    have := hhead frame rfl
    rw [byteCount_cons]
    omega
  | nil =>
    rw [hhandover.written_of_nil]
    exact Nat.zero_le _

/-- A state in which nothing about the list has changed. -/
theorem TallyInv.of_same {s s' : FcState} (h : TallyInv s) (hfc : FcInv s')
    (hlist : s'.heap = s.heap ∧ s'.rxFl = s.rxFl) (hwritten : s'.rxFlWritten = s.rxFlWritten)
    (huse : s'.InUse → s.InUse) (hcut : s'.CutOk)
    (hstarted : s'.asm.starts.isSome = true → s'.rxFlTotal = s.rxFlTotal ∧
      s.asm.starts.isSome = true) : TallyInv s' := by
  have hqueued : s'.queued = s.queued := by
    rw [FcState.queued, FcState.queued, hlist.1, hlist.2]
  refine ⟨hfc, hcut, fun hu => ?_, fun hs => ?_⟩
  · rw [hqueued, hwritten]
    exact h.head_le (huse hu)
  · obtain ⟨htotal, hstarts⟩ := hstarted hs
    rw [hqueued, hwritten, htotal]
    exact h.started hstarts

/-- The counter is right afterwards if it was before. -/
def CountKept (s s' : FcState) : Prop :=
  (s.rxFcOff = true → s.rxFlTotal = s.pendingBytes) →
    s'.rxFcOff = true → s'.rxFlTotal = s'.pendingBytes

theorem countKept_of_off {s s' : FcState} (h : s'.rxFcOff = false) : CountKept s s' := by
  intro _ hoff
  rw [h] at hoff
  cases hoff

/-- Nothing about the list or the threads has changed. -/
theorem countKept_of_same {s s' : FcState} (hheap : s'.heap = s.heap) (hfl : s'.rxFl = s.rxFl)
    (hwritten : s'.rxFlWritten = s.rxFlWritten) (hthreads : s'.threads = s.threads)
    (hcreated : s'.created = s.created) (htotal : s'.rxFlTotal = s.rxFlTotal)
    (hoff : s'.rxFcOff = s.rxFcOff) : CountKept s s' := by
  have hpending : s'.pendingBytes = s.pendingBytes := by
    simp only [FcState.pendingBytes, FcState.queued, hheap, hfl, hwritten, hthreads, hcreated]
  intro h
  rw [hpending, htotal, hoff]
  exact h

/-- A frame is cached, and counted, or dropped. -/
theorem cache_tally {s : FcState} {frame : GSM0710Frame} (h : TallyInv s)
    (hasm : s.asm = .got frame) (hoff : s.rxFcOff = true) :
    TallyInv (s.fcCacheFrameData frame) ∧ CountKept s (s.fcCacheFrameData frame) := by
  have hfc := cache_inv h.fc hasm hoff
  have hwritten := h.written_le (.inr hoff)
  obtain ⟨queue, rest, hrepr, hhandover, -⟩ := h.fc.handover
  rw [hasm, hoff] at hhandover
  obtain ⟨list, before, hfl, -, -, -⟩ := hhandover.cache
  obtain ⟨list', heap', hpush, hrepr'⟩ := flPushFrame_repr (hfl ▸ hrepr) frame
  have hqueued := hrepr.queued_eq
  unfold FcState.fcCacheFrameData at hfc ⊢
  split at hfc
  · rename_i hdrop
    rw [if_pos hdrop]
    exact ⟨h.of_same hfc ⟨rfl, rfl⟩ rfl (fun _ => .inr hoff) trivial nofun,
      countKept_of_same rfl rfl rfl rfl rfl rfl rfl⟩
  · rename_i hdrop
    rw [if_neg hdrop]
    rw [hfl, hpush] at hfc ⊢
    have hqueued' := hrepr'.queued_eq (s := { s with
      rxFlTotal := s.rxFlTotal + frame.length, rxFl := some list', heap := heap', asm := .idle
      accepted := s.accepted ++ [frame] })
    refine ⟨⟨hfc, trivial, fun _ first hfirst => ?_, nofun⟩, fun htotal _ => ?_⟩
    · rw [hqueued'] at hfirst
      cases queue with
      | nil =>
        rw [show s.rxFlWritten = 0 from hhandover.written_of_nil]
        exact Nat.zero_le _
      | cons head queue => exact h.head_le (.inr hoff) first (hqueued ▸ hfirst)
    · have hcount := htotal hoff
      rw [FcState.pendingBytes, hqueued] at hcount
      rw [hqueued] at hwritten
      rw [FcState.pendingBytes, hqueued', byteCount_append, byteCount_cons, byteCount_nil]
      change s.rxFlTotal + frame.length = _
      dsimp only
      omega

/-! ## The steps of the assembler -/

/-- The assembler moves on in `start_retry_write_thread`. -/
theorem starts_tally {s s' : FcState} (off : Bool) (h : TallyInv s) (hfc : FcInv s')
    (hstarts : s.asm.starts.isSome = true) (hstarts' : s'.asm.starts = some off)
    (hs' : s' = { s with asm := s'.asm, rxFcOff := s'.rxFcOff }) :
    TallyInv s' ∧ CountKept s s' := by
  have huse : s.InUse := .inl hstarts
  have hwritten := h.written_le huse
  have htotal := h.started hstarts
  have hcut : s'.CutOk := by
    unfold FcState.CutOk
    cases hasm : s'.asm <;> first | trivial | (rw [hasm] at hstarts'; cases hstarts')
  have howner : s.owner.active = false := by
    obtain ⟨off, hoff⟩ := Option.isSome_iff_exists.mp hstarts
    obtain ⟨queue, rest, -, hhandover, -⟩ := h.fc.handover
    obtain ⟨-, -, -, -, -, -, hr⟩ := hhandover.of_starts hoff
    exact hr
  have hunwritten := RetryPc.unwritten_of_inactive howner
  refine ⟨?_, ?_⟩
  · refine h.of_same hfc ?_ ?_ (fun _ => huse) hcut (fun _ => ⟨?_, hstarts⟩) <;> rw [hs']
    exact ⟨rfl, rfl⟩
  · intro _ _
    have hpending := hfc.pendingBytes_eq
    rw [hs'] at hpending ⊢
    rw [hpending]
    change s.rxFlTotal = (byteCount s.queued - s.rxFlWritten) + s.owner.unwritten
    omega

/-- `_fc_cacheRemainingFrameData` counts what is not written, and `start_retry_write_thread` hands
it over. -/
theorem asmStep_tally {s s' : FcState} (h : TallyInv s) (hstep : s.asmStep = some s') :
    TallyInv s' ∧ CountKept s s' := by
  have hfc := fcAsmStep_inv h.fc hstep
  have hcut := h.cut
  obtain ⟨queue, rest, hrepr, hhandover, -⟩ := h.fc.handover
  have hqueued := hrepr.queued_eq
  unfold FcState.CutOk at hcut
  cases hasm : s.asm with
  | got frame =>
    simp only [FcState.asmStep, hasm] at hstep
    cases hoff : s.rxFcOff with
    | true =>
      rw [hoff] at hstep
      cases hstep
      exact cache_tally h hasm hoff
    | false =>
      rw [hoff] at hstep
      cases hstep
      refine ⟨h.of_same hfc ⟨rfl, rfl⟩ rfl (fun hu => ?_) trivial (by rintro ⟨⟩), countKept_of_off rfl⟩
      rcases hu with hu | hu <;> cases hu
  | checking frame written =>
    rw [hasm] at hhandover hcut
    obtain ⟨hoff, -, rfl, -, -, -⟩ := hhandover.of_owns rfl rfl
    simp only [FcState.asmStep, hasm, flIsEmpty_repr hrepr] at hstep
    cases hstep
    refine ⟨h.of_same hfc ⟨rfl, rfl⟩ rfl (fun hu => ?_) hcut (by rintro ⟨⟩), countKept_of_off hoff⟩
    rcases hu with hu | hu
    · cases hu
    · exact .inr hu
  | initialising frame written =>
    rw [hasm] at hhandover hcut
    obtain ⟨hoff, -, rfl, -, -, -⟩ := hhandover.of_owns rfl rfl
    obtain ⟨list, heap, hinit, -⟩ := flInit_repr hrepr
    simp only [FcState.asmStep, hasm, hinit] at hstep
    cases hstep
    refine ⟨⟨hfc, ⟨hcut, rfl⟩, fun hu => ?_, by rintro ⟨⟩⟩, countKept_of_off hoff⟩
    rcases hu with hu | hu
    · cases hu
    · exact absurd (hoff.symm.trans hu) (by rintro ⟨⟩)
  | pushing frame written =>
    rw [hasm] at hhandover hcut
    obtain ⟨hoff, -, rfl, -, -, hfl⟩ := hhandover.of_owns rfl rfl
    obtain ⟨list, hlist⟩ := Option.ne_none_iff_exists'.mp (hfl frame written rfl)
    obtain ⟨list', heap', hpush, -⟩ := flPushFrame_repr (hlist ▸ hrepr) frame
    simp only [FcState.asmStep, hasm, hlist, hpush] at hstep
    cases hstep
    refine ⟨⟨hfc, hcut, fun hu => ?_, by rintro ⟨⟩⟩, countKept_of_off hoff⟩
    rcases hu with hu | hu
    · cases hu
    · exact absurd (hoff.symm.trans hu) (by rintro ⟨⟩)
  | marking frame written =>
    rw [hasm] at hhandover hcut
    obtain ⟨list, hoff, -, rfl, -, -⟩ := hhandover.of_marking
    obtain ⟨hle, htotal⟩ := hcut
    simp only [FcState.asmStep, hasm] at hstep
    cases hstep
    refine ⟨⟨hfc, trivial, fun _ first hfirst => ?_, fun _ => ?_⟩, countKept_of_off hoff⟩
    · change first ∈ s.queued.head? at hfirst
      rw [hqueued] at hfirst
      cases hfirst
      exact hle
    · change s.rxFlTotal + written = byteCount s.queued
      rw [hqueued, byteCount_cons, byteCount_nil]
      omega
  | sending =>
    have hstarts : s.asm.starts = some false := by rw [hasm]; rfl
    simp only [FcState.asmStep, hasm] at hstep
    cases hstep
    exact starts_tally false h hfc (by rw [hstarts]; rfl) rfl rfl
  | locking =>
    have hstarts : s.asm.starts = some false := by rw [hasm]; rfl
    simp only [FcState.asmStep, hasm] at hstep
    split at hstep
    · cases hstep
      exact starts_tally false h hfc (by rw [hstarts]; rfl) rfl rfl
    · cases hstep
      exact starts_tally true h hfc (by rw [hstarts]; rfl) rfl rfl
  | woken =>
    have hstarts : s.asm.starts = some false := by rw [hasm]; rfl
    simp only [FcState.asmStep, hasm] at hstep
    cases hstep
    exact starts_tally true h hfc (by rw [hstarts]; rfl) rfl rfl
  | idle | direct _ | waiting | creating | ptyError _ | asserted =>
    simp only [FcState.asmStep, hasm] at hstep
    cases hstep

/-- What is not written of a frame is the assembler's to cache. -/
theorem asmWrite_tally {s : FcState} {frame : GSM0710Frame} (h : TallyInv s)
    (hasm : s.asm = .direct frame) (o : PtyOutcome) :
    TallyInv (s.asmWrite frame o) ∧ CountKept s (s.asmWrite frame o) := by
  have hfc := fcAsmWrite_inv h.fc hasm o
  obtain ⟨queue, rest, hrepr, hhandover, -⟩ := h.fc.handover
  rw [hasm] at hhandover
  obtain ⟨hoff, -, -, -, -, -⟩ := hhandover.of_owns rfl rfl
  have hmove : ∀ a pty, FcInv { s with asm := a, pty := pty } → a.starts = none →
      FcState.CutOk { s with asm := a, pty := pty } →
      TallyInv { s with asm := a, pty := pty } ∧ CountKept s { s with asm := a, pty := pty } := by
    intro a pty hfc' hstarts hcut
    refine ⟨h.of_same hfc' ⟨rfl, rfl⟩ rfl (fun hu => ?_) hcut (fun hs => ?_), countKept_of_off hoff⟩
    · rcases hu with hu | hu
      · rw [hstarts] at hu
        cases hu
      · exact .inr hu
    · rw [hstarts] at hs
      cases hs
  cases o with
  | wrote n =>
    simp only [FcState.asmWrite] at hfc ⊢
    split at hfc
    · rename_i hrest
      rw [if_pos hrest]
      exact hmove _ _ hfc rfl (Nat.min_le_right _ _)
    · rename_i hrest
      rw [if_neg hrest]
      exact hmove _ _ hfc rfl trivial
  | failed e =>
    cases e with
    | EAGAIN => exact hmove _ s.pty hfc rfl (Nat.zero_le _)
    | EINTR | EBADF | EIO => exact ⟨h, fun hc => hc⟩
    | ETXTBSY | ENODEV | other => exact hmove _ s.pty hfc rfl trivial

/-- A frame arrives. -/
theorem arrive_tally {s : FcState} (h : TallyInv s) (hasm : s.asm = .idle) (frame : GSM0710Frame) :
    TallyInv { s with asm := .got frame, received := s.received ++ [frame] } ∧
      CountKept s { s with asm := .got frame, received := s.received ++ [frame] } := by
  refine ⟨h.of_same (arrive_inv h.fc hasm frame) ⟨rfl, rfl⟩ rfl (fun hu => ?_) trivial nofun,
    countKept_of_same rfl rfl rfl rfl rfl rfl rfl⟩
  rcases hu with hu | hu
  · cases hu
  · exact .inr hu

/-- The list is handed over to a new thread, or to none. -/
theorem create_tally {s : FcState} (h : TallyInv s) (hasm : s.asm = .creating) (ok : Bool) :
    TallyInv (if ok then FcState.spawn { s with asm := .idle } else { s with asm := .idle }) ∧
      CountKept s (if ok then FcState.spawn { s with asm := .idle } else { s with asm := .idle }) := by
  have hfc := create_inv h.fc hasm ok
  have hstarts : s.asm.starts = some true := by rw [hasm]; rfl
  have huse : s.InUse := .inl (by rw [hstarts]; rfl)
  cases ok with
  | false =>
    exact ⟨h.of_same hfc ⟨rfl, rfl⟩ rfl (fun _ => huse) trivial nofun,
      countKept_of_same rfl rfl rfl rfl rfl rfl rfl⟩
  | true =>
    refine ⟨h.of_same hfc ⟨rfl, rfl⟩ rfl (fun _ => huse) trivial nofun, fun htotal hoff => ?_⟩
    have hcount := htotal hoff
    obtain ⟨queue, rest, -, hhandover, -⟩ := h.fc.handover
    obtain ⟨-, -, -, -, -, -, hr⟩ := hhandover.of_starts hstarts
    have hpending := hfc.pendingBytes_eq
    rw [h.fc.pendingBytes_eq, RetryPc.unwritten_of_inactive hr] at hcount
    rw [if_pos rfl] at hpending ⊢
    rw [hpending]
    have howner : (FcState.spawn { s with asm := .idle }).owner = .start := by
      simp only [FcState.owner, FcState.spawn, Nat.add_sub_cancel, Function.update_self]
    rw [howner]
    exact hcount

/-! ## The steps of the retry threads -/

/-- The thread that has the list moves on: what waits is what it leaves in the list and what it has
in its hands. -/
theorem TallyInv.of_active {s s' : FcState} {i : Nat} {pc : RetryPc} (h : TallyInv s)
    (hactive : (s.threads i).active = true) (hfc : FcInv s')
    (hthreads : s'.threads = Function.update s.threads i pc) (hcreated : s'.created = s.created)
    (hasm : s'.asm = s.asm) (hbetween : s.asm.between = true) (hwritten : s'.rxFlWritten = 0)
    (htotal : s'.rxFlTotal = s.rxFlTotal) :
    TallyInv s' ∧ s'.pendingBytes = byteCount s'.queued + pc.unwritten := by
  have hstarts : s'.asm.starts = none := hasm ▸ FcPc.starts_of_between hbetween
  have hcut := h.cut
  refine ⟨⟨hfc, ?_, fun _ first _ => ?_, fun hs => ?_⟩, ?_⟩
  · unfold FcState.CutOk at hcut ⊢
    rw [hasm, htotal]
    exact hcut
  · rw [hwritten]
    exact Nat.zero_le _
  · rw [hstarts] at hs
    cases hs
  · have howner : s'.owner = pc := by
      rw [FcState.owner, hthreads, hcreated, ← h.fc.single i hactive, Nat.add_sub_cancel,
        Function.update_self]
    rw [hfc.pendingBytes_eq, howner, hwritten, Nat.sub_zero]

/-- A thread that has left the list moves on. -/
theorem TallyInv.of_inactive {s s' : FcState} {i : Nat} {pc : RetryPc} (h : TallyInv s)
    (hfc : FcInv s') (hinactive : (s.threads i).active = false) (hpc : pc.active = false)
    (hs' : s' = { s with
      threads := Function.update s.threads i pc, rxThread := s'.rxThread, asm := s'.asm })
    (hstarts : s'.asm.starts.isSome = s.asm.starts.isSome) (hcut : s'.CutOk) :
    TallyInv s' ∧ CountKept s s' := by
  have hsame : ∀ j, (s'.threads j).unwritten = (s.threads j).unwritten := by
    intro j
    rw [hs']
    by_cases hj : j = i
    · subst hj
      dsimp only
      rw [Function.update_self, RetryPc.unwritten_of_inactive hpc,
        RetryPc.unwritten_of_inactive hinactive]
    · dsimp only
      rw [Function.update_of_ne hj]
  have hpending : s'.pendingBytes = s.pendingBytes := by
    unfold FcState.pendingBytes
    simp only [hsame]
    rw [hs']
    rfl
  refine ⟨h.of_same hfc ?_ ?_ (fun hu => ?_) hcut (fun hs => ⟨?_, hstarts ▸ hs⟩), ?_⟩
  · rw [hs']
    exact ⟨rfl, rfl⟩
  · rw [hs']
  · refine hu.imp (fun hs => hstarts ▸ hs) fun hoff => ?_
    rw [hs'] at hoff
    exact hoff
  · rw [hs']
  · intro htotal hoff
    rw [hpending]
    rw [hs'] at hoff ⊢
    exact htotal hoff

theorem FcPc.signalled_starts (a : FcPc) : a.signalled.starts.isSome = a.starts.isSome := by
  cases a <;> rfl

/-- A thread takes a frame, leaves the list, or ends. -/
theorem retryStep_tally {s s' : FcState} {i : Nat} (h : TallyInv s)
    (hstep : s.retryStep i = some s') : TallyInv s' ∧ CountKept s s' := by
  have hfc := retryStep_inv h.fc hstep
  have hcut := h.cut
  obtain ⟨queue, rest, hrepr, hhandover, -⟩ := h.fc.handover
  have hqueued := hrepr.queued_eq
  cases hpc : s.threads i with
  | start =>
    have hactive : (s.threads i).active = true := by rw [hpc]; rfl
    have howner := h.fc.owner_eq hactive
    rw [howner, hpc] at hhandover
    obtain ⟨list, frame, queue, hoff, hfl, rfl, ha, -⟩ := hhandover.of_start
    obtain ⟨heap, hpop, hrepr'⟩ := flPopFrame_cons hrepr
    have hhead := h.head_le (.inr hoff) frame (by rw [hqueued]; rfl)
    simp only [FcState.retryStep, hpc, hpop] at hstep
    cases hstep
    obtain ⟨htally, hpending⟩ := h.of_active hactive hfc rfl rfl rfl ha rfl rfl
    refine ⟨htally, fun htotal _ => ?_⟩
    have hcount := htotal hoff
    rw [h.fc.pendingBytes_eq, howner, hpc, hqueued, byteCount_cons] at hcount
    rw [hpending, hrepr'.queued_eq]
    simp only [RetryPc.unwritten] at hcount ⊢
    change s.rxFlTotal = _
    omega
  | popping =>
    have hactive : (s.threads i).active = true := by rw [hpc]; rfl
    have howner := h.fc.owner_eq hactive
    rw [howner, hpc] at hhandover
    obtain ⟨list, hoff, hfl, hwritten, ha, -⟩ := hhandover.of_popping
    cases queue with
    | nil =>
      simp only [FcState.retryStep, hpc, flPopFrame_nil hrepr] at hstep
      cases hstep
      exact ⟨(h.of_active hactive hfc rfl rfl rfl ha hwritten rfl).1, countKept_of_off rfl⟩
    | cons frame queue =>
      obtain ⟨heap, hpop, hrepr'⟩ := flPopFrame_cons hrepr
      simp only [FcState.retryStep, hpc, hpop] at hstep
      cases hstep
      obtain ⟨htally, hpending⟩ := h.of_active hactive hfc rfl rfl rfl ha hwritten rfl
      refine ⟨htally, fun htotal _ => ?_⟩
      have hcount := htotal hoff
      rw [h.fc.pendingBytes_eq, howner, hpc, hqueued, hwritten, byteCount_cons] at hcount
      rw [hpending, hrepr'.queued_eq]
      simp only [RetryPc.unwritten] at hcount ⊢
      change s.rxFlTotal = _
      omega
  | sending | clearing =>
    simp only [FcState.retryStep, hpc] at hstep
    cases hstep
    exact h.of_inactive hfc (by rw [hpc]; rfl) (by rfl) rfl rfl hcut
  | signalling =>
    simp only [FcState.retryStep, hpc] at hstep
    cases hstep
    refine h.of_inactive hfc (by rw [hpc]; rfl) (by rfl) rfl (FcPc.signalled_starts _) ?_
    unfold FcState.CutOk at hcut ⊢
    dsimp only [FcState.setThread]
    cases hasm : s.asm with
    | waiting => trivial
    | _ =>
      rw [hasm] at hcut
      exact hcut
  | absent | writing _ _ | done | ptyError _ _ | asserted =>
    simp only [FcState.retryStep, hpc] at hstep
    cases hstep

/-- A write of a thread: the bytes that it gets written are not taken off the counter. -/
theorem retryWrite_tally {s : FcState} {i : Nat} {frame : GSM0710Frame} {written : Nat}
    (h : TallyInv s) (hpc : s.threads i = .writing frame written) (o : PtyOutcome) :
    TallyInv (s.retryWrite i frame written o) ∧
      ((s.rxFcOff = true → s.rxFlTotal = s.pendingBytes) →
        (((s.retryWrite i frame written o).rxFcOff = true →
            (s.retryWrite i frame written o).rxFlTotal =
              (s.retryWrite i frame written o).pendingBytes) ↔
          ∀ n, o = .wrote n → min n (frame.length - written) = 0)) := by
  have hfc := retryWrite_inv h.fc hpc o
  have hactive : (s.threads i).active = true := by rw [hpc]; rfl
  have howner := h.fc.owner_eq hactive
  obtain ⟨queue, rest, hrepr, hhandover, -⟩ := h.fc.handover
  have hqueued := hrepr.queued_eq
  rw [howner, hpc] at hhandover
  obtain ⟨list, hoff, hfl, hwritten, ha, -⟩ := hhandover.of_writing
  have hpending : s.pendingBytes = byteCount queue + (frame.length - written) := by
    rw [h.fc.pendingBytes_eq, howner, hpc, hqueued, hwritten]
    rfl
  rw [hpending]
  cases o with
  | wrote n =>
    obtain ⟨pc, hs', hrest⟩ : ∃ pc, s.retryWrite i frame written (.wrote n) =
        FcState.setThread { s with pty := s.pty ++
          (frame.data.drop written).take (min n (frame.length - written)) } i pc ∧
        pc.unwritten = frame.length - written - min n (frame.length - written) := by
      simp only [FcState.retryWrite]
      split
      · exact ⟨_, rfl, Nat.sub_add_eq _ _ _⟩
      · refine ⟨_, rfl, ?_⟩
        simp only [RetryPc.unwritten]
        omega
    rw [hs'] at hfc ⊢
    obtain ⟨htally, hpending'⟩ := h.of_active hactive hfc rfl rfl rfl ha hwritten rfl
    refine ⟨htally, fun htotal => ?_⟩
    have hcount := htotal hoff
    have hn : (∀ n', PtyOutcome.wrote n = .wrote n' → min n' (frame.length - written) = 0) ↔
        min n (frame.length - written) = 0 := by
      refine ⟨fun hall => hall n rfl, fun hzero n' heq => ?_⟩
      cases heq
      exact hzero
    rw [hn, hpending', hrest]
    change (s.rxFcOff = true → s.rxFlTotal = byteCount s.queued + _) ↔ _
    rw [hqueued, hcount]
    constructor
    · intro hafter
      have := hafter hoff
      omega
    · intro hzero _
      omega
  | failed e =>
    have hnever : ∀ n, PtyOutcome.failed e = .wrote n → min n (frame.length - written) = 0 := by
      rintro _ ⟨⟩
    cases e with
    | EINTR | EAGAIN =>
      refine ⟨h, fun htotal => iff_of_true (fun hoff' => ?_) hnever⟩
      exact (htotal hoff').trans hpending.symm
    | EBADF | EIO | ETXTBSY | ENODEV | other =>
      obtain ⟨htally, hpending'⟩ := h.of_active hactive hfc rfl rfl rfl ha hwritten rfl
      refine ⟨htally, fun htotal => iff_of_true (fun _ => ?_) hnever⟩
      rw [hpending']
      change s.rxFlTotal = byteCount s.queued + (frame.length - written)
      rw [hqueued]
      exact htotal hoff

/-! ## Every run -/

theorem tallyInv_init : TallyInv FcState.init where
  fc := fcInv_init
  cut := trivial
  head_le := by
    intro huse
    rcases huse with huse | huse <;> cases huse
  started := nofun

/-- Every step keeps the invariant, and keeps the counter right exactly if it is not a retry thread
that gets bytes written. -/
theorem fc_step_tally {s s' : FcState} {a : FcAct} (h : TallyInv s) (hstep : s.step a = some s') :
    TallyInv s' ∧ ((s.rxFcOff = true → s.rxFlTotal = s.pendingBytes) →
      ((s'.rxFcOff = true → s'.rxFlTotal = s'.pendingBytes) ↔ WritesNothing s a)) := by
  -- Only a write of a retry thread takes anything off what waits.
  have hother : ∀ {t : FcState}, TallyInv t ∧ CountKept s t → (∀ i o, a ≠ .retryWrite i o) →
      TallyInv t ∧ ((s.rxFcOff = true → s.rxFlTotal = s.pendingBytes) →
        ((t.rxFcOff = true → t.rxFlTotal = t.pendingBytes) ↔ WritesNothing s a)) :=
    fun ht ha => ⟨ht.1, fun htotal => iff_of_true (ht.2 htotal) fun i n _ _ heq =>
      absurd heq (ha i (.wrote n))⟩
  cases a with
  | arrive frame =>
    simp only [FcState.step] at hstep
    split at hstep
    · rename_i hasm
      cases hstep
      exact hother (arrive_tally h hasm frame) (by rintro _ _ ⟨⟩)
    · cases hstep
  | asm => exact hother (asmStep_tally h hstep) (by rintro _ _ ⟨⟩)
  | asmWrite o =>
    simp only [FcState.step] at hstep
    split at hstep
    · rename_i frame hasm
      cases hstep
      exact hother (asmWrite_tally h hasm o) (by rintro _ _ ⟨⟩)
    · cases hstep
  | create ok =>
    simp only [FcState.step] at hstep
    split at hstep
    · rename_i hasm
      cases hstep
      exact hother (create_tally h hasm ok) (by rintro _ _ ⟨⟩)
    · cases hstep
  | spurious =>
    simp only [FcState.step] at hstep
    split at hstep
    · rename_i hasm
      cases hstep
      have hstarts : s.asm.starts = some false := by rw [hasm]; rfl
      have hfc : FcInv { s with asm := .woken } :=
        starts_inv h.fc hstarts (by rw [h.fc.rxFcOff_of_starts hstarts]; rfl)
      exact hother (starts_tally false h hfc (by rw [hstarts]; rfl) rfl rfl) (by rintro _ _ ⟨⟩)
    · cases hstep
  | retry i => exact hother (retryStep_tally h hstep) (by rintro _ _ ⟨⟩)
  | retryWrite i o =>
    simp only [FcState.step] at hstep
    split at hstep
    · rename_i frame written hpc
      cases hstep
      obtain ⟨htally, hiff⟩ := retryWrite_tally h hpc o
      refine ⟨htally, fun htotal => (hiff htotal).trans ?_⟩
      constructor
      · rintro hall j n frame' written' heq hpc'
        cases heq
        rw [hpc] at hpc'
        cases hpc'
        exact hall n rfl
      · rintro hall n rfl
        exact hall i n frame written rfl hpc
    · cases hstep

/-- A right counter drops the right frames. -/
theorem pendingCounted_iff_total (s : FcState) :
    PendingCounted s ↔ (s.rxFcOff = true → s.rxFlTotal = s.pendingBytes) := by
  refine ⟨PendingCounted.total, fun htotal => ⟨htotal, fun frame _ hoff hdrop => ?_⟩⟩
  rwa [← htotal hoff]

/-- **When the flow-off counter is right.**  In every state of a run in flow-off the counter is the
number of payload bytes that wait, and frames are dropped for that number only, if and only if no
retry thread gets a byte written in that run. -/
theorem pendingCounted_iff (acts : List FcAct) :
    fcMachine.Along PendingCounted fcMachine.init acts ↔
      fcMachine.Meets WritesNothing fcMachine.init acts := by
  have hstuck : ∀ s a, fcMachine.step s a = none → WritesNothing s a := by
    rintro s _ hnone i n frame written rfl hpc
    simp only [fcMachine, FcState.step, hpc] at hnone
    cases hnone
  refine fcMachine.along_iff_meets_of_stuck (I := TallyInv) hstuck
    (fun s a s' hs hstep => (fc_step_tally hs hstep).1) (fun s a s' hs hcount hstep => ?_)
    tallyInv_init ((pendingCounted_iff_total _).mpr (by rintro ⟨⟩)) acts
  rw [pendingCounted_iff_total] at hcount ⊢
  exact (fc_step_tally hs hstep).2 hcount

/-- Two octets arrive and the terminal takes none of them; then the retry thread gets one of them
written. -/
def oneOfTwoWritten : List FcAct :=
  [.arrive ⟨1, 0xEF, [0x41, 0x42]⟩, .asm, .asmWrite (.wrote 0), .asm, .asm, .asm, .asm,
    .asm, .asm, .create true, .retry 0, .retryWrite 0 (.wrote 1)]

/-- Two bytes are still counted when one of them is written. -/
theorem oneOfTwoWritten_miscounted :
    ¬ fcMachine.Along PendingCounted fcMachine.init oneOfTwoWritten := by
  have hrun : (fcMachine.run fcMachine.init oneOfTwoWritten).map
      (fun s => (s.rxFcOff, s.rxFlTotal, s.pendingBytes)) = some (true, 2, 1) := by decide +kernel
  obtain ⟨s, hs, hcounts⟩ := Option.map_eq_some_iff.mp hrun
  obtain ⟨hoff, htotal, hpending⟩ := by simpa only [Prod.mk.injEq] using hcounts
  intro halong
  have := (Machine.Along.last fcMachine halong hs).total hoff
  omega

end MtkHw.Mux
