import MtkHw.Speech.System
import Mathlib.Tactic.Common

/-!
# What sending does to the queue

The queue as the list of its elements, and what is read off the trace of the messenger: the
messages written, acknowledged, consumed and given up.  Sending a message moves neither the queue
nor what was acknowledged (`SameQueue`); it writes the message once when it returns `NO_ERROR`, and
never otherwise.  From this come the two rules for what the reading thread does under the mutex:
`MDReset_CheckMessageInQueue` leaves the queue empty, and `ConsumeMessageInQueue` writes some of
the messages behind the head, in their order, and stops behind the last it wrote.
-/

namespace MtkHw.Speech

open Lib

/-! ## The queue as a list -/

namespace MessageQueue

/-- The elements from the read position to the write position. -/
def contents (q : MessageQueue) : List CcciQueueElement :=
  Ring.walk ccciMaxQueueNum q.pQueue q.iQRead q.getQueueCount

/-- Both positions lie in the array. -/
structure Wf (q : MessageQueue) : Prop where
  read : q.iQRead < ccciMaxQueueNum
  write : q.iQWrite < ccciMaxQueueNum

variable {q : MessageQueue}

@[simp] theorem length_contents (q : MessageQueue) : q.contents.length = q.getQueueCount :=
  Ring.length_walk ..

/-- The write position is the count ahead of the read position. -/
theorem advance_getQueueCount (hw : q.Wf) :
    Ring.advance ccciMaxQueueNum q.iQRead q.getQueueCount = q.iQWrite := by
  have hread := hw.read
  have hwrite := hw.write
  unfold Ring.advance getQueueCount
  split <;> split <;> omega

theorem getQueueCount_lt (hw : q.Wf) : q.getQueueCount < ccciMaxQueueNum := by
  have hread := hw.read
  have hwrite := hw.write
  unfold getQueueCount
  split <;> omega

/-- The positions meet exactly when the queue is empty. -/
theorem iQRead_eq_iQWrite (hw : q.Wf) : q.iQRead = q.iQWrite ↔ q.contents = [] := by
  have hread := hw.read
  have hwrite := hw.write
  rw [← List.length_eq_zero_iff, length_contents]
  unfold getQueueCount
  split <;> omega

theorem getQueueCount_eq_zero : q.getQueueCount = 0 ↔ q.contents = [] := by
  rw [← List.length_eq_zero_iff, length_contents]

/-- The element at the read position is the head. -/
theorem front_of_cons {e : CcciQueueElement} {rest : List CcciQueueElement}
    (h : q.contents = e :: rest) : q.front = e := by
  unfold contents at h
  cases hn : q.getQueueCount with
  | zero => rw [hn] at h; exact absurd h nofun
  | succ n =>
    rw [hn, Ring.walk_succ] at h
    exact (List.cons.inj h).1

theorem Wf.dequeue (hw : q.Wf) : q.dequeue.Wf := ⟨Ring.next_lt hw.read, hw.write⟩

theorem Wf.enqueue (hw : q.Wf) (b : CcciBuff) : (q.enqueue b).Wf :=
  ⟨hw.read, Ring.next_lt hw.write⟩

theorem wf_restart (q : MessageQueue) : q.restart.Wf :=
  ⟨Nat.zero_lt_succ _, Nat.zero_lt_succ _⟩

@[simp] theorem contents_restart (q : MessageQueue) : q.restart.contents = [] := rfl

/-- An element is taken off the head. -/
theorem contents_dequeue {e : CcciQueueElement} {rest : List CcciQueueElement} (hw : q.Wf)
    (h : q.contents = e :: rest) : q.dequeue.contents = rest := by
  have hread := hw.read
  have hwrite := hw.write
  have hcount : q.getQueueCount = q.dequeue.getQueueCount + 1 := by
    have hpos : q.getQueueCount ≠ 0 := fun h0 => by
      rw [getQueueCount_eq_zero.mp h0] at h
      exact absurd h nofun
    simp only [getQueueCount, dequeue, Ring.next] at hpos ⊢
    split_ifs at hpos ⊢ <;> omega
  rw [contents, hcount, Ring.walk_succ] at h
  exact (List.cons.inj h).2

/-- An element is put behind the others, when there is room for it. -/
theorem contents_enqueue (hw : q.Wf) (b : CcciBuff) (hroom : q.getQueueCount < ccciMaxQueueNum - 1) :
    (q.enqueue b).contents = q.contents ++ [⟨b, judgeAckOfMsg b.getMessageID⟩] := by
  have hread := hw.read
  have hwrite := hw.write
  have hcount : (q.enqueue b).getQueueCount = q.getQueueCount + 1 := by
    unfold getQueueCount enqueue Ring.next at *
    dsimp only at *
    unfold ccciMaxQueueNum at *
    split <;> split at hroom <;> split <;> omega
  have hlast : Ring.advance ccciMaxQueueNum q.iQRead q.getQueueCount = q.iQWrite :=
    advance_getQueueCount hw
  have hsame : Ring.walk ccciMaxQueueNum (q.enqueue b).pQueue q.iQRead q.getQueueCount
      = q.contents := by
    refine Ring.walk_congr hread (by omega) fun i hi => ?_
    refine if_neg fun hmeet => ?_
    exact Ring.advance_ne hi (by omega) (hmeet.trans hlast.symm)
  show Ring.walk _ (q.enqueue b).pQueue q.iQRead (q.enqueue b).getQueueCount = _
  rw [hcount, Ring.walk_add _ hread (by omega), hsame, hlast]
  exact congrArg (q.contents ++ [·]) (if_pos rfl)

end MessageQueue

/-! ## What is read off the trace -/

/-- The call a message that is written in full came with. -/
def SpeechEvent.written : SpeechEvent → Option Nat
  | .write b _ => b.call
  | _ => none

/-- The same, for a message that waits for its acknowledgement. -/
def SpeechEvent.awaited : SpeechEvent → Option Nat
  | .write b _ => if b.needsAck then b.call else none
  | _ => none

/-- The call of a message whose acknowledgement is matched. -/
def SpeechEvent.acked : SpeechEvent → Option Nat
  | .ack b => b.call
  | _ => none

/-- The call of a message that is discarded as acknowledged. -/
def SpeechEvent.consumed : SpeechEvent → Option Nat
  | .consume b => b.call
  | _ => none

/-- The call of a message whose acknowledgement is simulated. -/
def SpeechEvent.failed : SpeechEvent → Option Nat
  | .fail b => b.call
  | _ => none

namespace SpeechMessenger

variable {cfg : Build}

/-- The messages of callers that were written, by their calls. -/
def written (s : SpeechMessenger) : List Nat := s.trace.filterMap SpeechEvent.written

/-- Those of them that wait for their acknowledgement. -/
def awaited (s : SpeechMessenger) : List Nat := s.trace.filterMap SpeechEvent.awaited

def acked (s : SpeechMessenger) : List Nat := s.trace.filterMap SpeechEvent.acked

def consumed (s : SpeechMessenger) : List Nat := s.trace.filterMap SpeechEvent.consumed

def failed (s : SpeechMessenger) : List Nat := s.trace.filterMap SpeechEvent.failed

/-! ## What sending leaves alone -/

/-- The two states have the same queue, and the same was acknowledged; more may have failed. -/
structure SameQueue (s t : SpeechMessenger) : Prop where
  queue : t.queue = s.queue
  calls : t.calls = s.calls
  acked : t.acked = s.acked
  consumed : t.consumed = s.consumed
  failed : s.failed ⊆ t.failed

/-- Besides, the same was written, and the same is waited for. -/
structure Unsent (s t : SpeechMessenger) : Prop extends SameQueue s t where
  written : t.written = s.written
  awaited : t.awaited = s.awaited

@[refl] theorem SameQueue.refl (s : SpeechMessenger) : SameQueue s s :=
  ⟨rfl, rfl, rfl, rfl, fun _ h => h⟩

theorem SameQueue.trans {s t u : SpeechMessenger} (h : SameQueue s t) (h' : SameQueue t u) :
    SameQueue s u :=
  ⟨h'.queue.trans h.queue, h'.calls.trans h.calls, h'.acked.trans h.acked,
    h'.consumed.trans h.consumed, fun _ hn => h'.failed (h.failed hn)⟩

@[refl] theorem Unsent.refl (s : SpeechMessenger) : Unsent s s := ⟨.refl s, rfl, rfl⟩

theorem Unsent.trans {s t u : SpeechMessenger} (h : Unsent s t) (h' : Unsent t u) : Unsent s u :=
  ⟨h.toSameQueue.trans h'.toSameQueue, h'.written.trans h.written, h'.awaited.trans h.awaited⟩

/-- What is said of a step holds with another queue before and after it. -/
theorem Unsent.setQueue {s t : SpeechMessenger} {q : MessageQueue}
    (h : Unsent { s with queue := q } t) (q' : MessageQueue) :
    Unsent { s with queue := q' } { t with queue := q' } :=
  ⟨⟨rfl, h.calls, h.acked, h.consumed, h.failed⟩, h.written, h.awaited⟩

/-- A step that changes neither the queue nor the trace, nor the number of calls. -/
theorem Unsent.of_eq {s t : SpeechMessenger} (hq : t.queue = s.queue) (hc : t.calls = s.calls)
    (ht : t.trace = s.trace) : Unsent s t := by
  refine ⟨⟨hq, hc, ?_, ?_, ?_⟩, ?_, ?_⟩
  · rw [acked, acked, ht]
  · rw [consumed, consumed, ht]
  · rw [failed, failed, ht]
    exact fun _ h => h
  · rw [SpeechMessenger.written, ht]
    rfl
  · rw [SpeechMessenger.awaited, ht]
    rfl

/-- What is written down besides writes, acknowledgements and discarded heads. -/
theorem unsent_log (s : SpeechMessenger) {e : SpeechEvent} (hw : e.written = none)
    (hn : e.awaited = none) (ha : e.acked = none) (hc : e.consumed = none) :
    Unsent s (s.log e) := by
  refine ⟨⟨rfl, rfl, ?_, ?_, ?_⟩, ?_, ?_⟩
  · simp [acked, log, ha]
  · simp [consumed, log, hc]
  · exact fun n hn => by simp only [failed, log, List.filterMap_append]; exact List.mem_append_left _ hn
  · simp [written, log, hw]
  · simp [awaited, log, hn]

theorem unsent_a2mBufUnLock (s : SpeechMessenger) (b : CcciBuff) : Unsent s (s.a2mBufUnLock b) :=
  (unsent_log s (e := .bufUnLock b) rfl rfl rfl rfl).trans (.of_eq rfl rfl rfl)

theorem unsent_unLockShareBuf (s : SpeechMessenger) (b : CcciBuff) :
    Unsent s (s.unLockShareBuf cfg b) := by
  unfold unLockShareBuf
  split
  · exact unsent_a2mBufUnLock s b
  · rfl

@[simp] theorem wait_unLockShareBuf (s : SpeechMessenger) (b : CcciBuff) :
    (s.unLockShareBuf cfg b).mWaitAckMessageID = s.mWaitAckMessageID := by
  unfold unLockShareBuf
  split <;> rfl

theorem unsent_answer (s : SpeechMessenger) (id : UInt16) (b : CcciBuff) (switch : Switch) :
    Unsent s (s.answer id b switch) := by
  unfold answer
  split
  · refine Unsent.trans ?_ (unsent_log _ (e := .signal b) rfl rfl rfl rfl)
    exact .of_eq rfl rfl rfl
  · exact .of_eq rfl rfl rfl

@[simp] theorem wait_answer (s : SpeechMessenger) (id : UInt16) (b : CcciBuff) (switch : Switch) :
    (s.answer id b switch).mWaitAckMessageID = s.mWaitAckMessageID := by
  unfold answer
  split <;> rfl

/-- A simulated acknowledgement is written down, and leaves the queue alone. -/
theorem unsent_sendMsgFailErrorHandling' (s : SpeechMessenger) (b : CcciBuff) :
    Unsent (s.log (.fail b)) (s.sendMsgFailErrorHandling cfg b) := by
  unfold sendMsgFailErrorHandling
  split
  · exact unsent_answer ..
  · exact unsent_unLockShareBuf ..

theorem unsent_sendMsgFailErrorHandling (s : SpeechMessenger) (b : CcciBuff) :
    Unsent s (s.sendMsgFailErrorHandling cfg b) :=
  (unsent_log s (e := .fail b) rfl rfl rfl rfl).trans (unsent_sendMsgFailErrorHandling' s b)

@[simp] theorem wait_sendMsgFailErrorHandling (s : SpeechMessenger) (b : CcciBuff) :
    (s.sendMsgFailErrorHandling cfg b).mWaitAckMessageID = s.mWaitAckMessageID := by
  unfold sendMsgFailErrorHandling
  split
  · exact wait_answer ..
  · exact wait_unLockShareBuf ..

/-- The failure of a message is written down. -/
theorem mem_failed_sendMsgFailErrorHandling (s : SpeechMessenger) {b : CcciBuff} {n : Nat}
    (h : b.call = some n) : n ∈ (s.sendMsgFailErrorHandling cfg b).failed := by
  refine (unsent_sendMsgFailErrorHandling' s b).failed ?_
  simp [failed, log, SpeechEvent.failed, h]

/-! ## What sending a message does -/

/-- The message was written once. -/
structure Wrote (b : CcciBuff) (s t : SpeechMessenger) : Prop extends SameQueue s t where
  written : t.written = s.written ++ b.call.toList
  awaited : t.awaited = s.awaited ++ (if b.needsAck then b.call else none).toList

theorem Wrote.trans_unsent {b : CcciBuff} {s t u : SpeechMessenger} (h : Wrote b s t)
    (h' : Unsent t u) : Wrote b s u :=
  ⟨h.toSameQueue.trans h'.toSameQueue, h'.written.trans h.written, h'.awaited.trans h.awaited⟩

theorem Unsent.trans_wrote {b : CcciBuff} {s t u : SpeechMessenger} (h : Unsent s t)
    (h' : Wrote b t u) : Wrote b s u :=
  ⟨h.toSameQueue.trans h'.toSameQueue, by rw [h'.written, h.written],
    by rw [h'.awaited, h.awaited]⟩

/-- A write that is written down. -/
theorem wrote_log (s : SpeechMessenger) (b : CcciBuff) (data : List UInt8) :
    Wrote b s (s.log (.write b data)) := by
  refine ⟨⟨rfl, rfl, ?_, ?_, ?_⟩, ?_, ?_⟩
  · simp [acked, log, SpeechEvent.acked]
  · simp [consumed, log, SpeechEvent.consumed]
  · simp [failed, log, SpeechEvent.failed]
  · simp only [SpeechMessenger.written, log, List.filterMap_append]
    cases hc : b.call <;> simp [SpeechEvent.written, hc]
  · simp only [SpeechMessenger.awaited, log, List.filterMap_append]
    by_cases hn : b.needsAck
    · cases hc : b.call <;> simp [SpeechEvent.awaited, hn, hc]
    · simp [SpeechEvent.awaited, hn]

/-- What a modem that is found to be reset changes. -/
theorem unsent_noteReset (s : SpeechMessenger) : Unsent s s.noteReset := .of_eq rfl rfl rfl

/-- A message that is dropped before its first `write`. -/
theorem sendPrepare_none {s t : SpeechMessenger} {b : CcciBuff} {ioctl : Option ModemStatus}
    (h : s.sendPrepare cfg b ioctl = (none, t)) :
    Unsent s t ∧ t.mWaitAckMessageID = s.mWaitAckMessageID ∧
      ∀ n, b.call = some n → n ∈ t.failed := by
  unfold sendPrepare at h
  extract_lets s₁ s₂ at h
  have h₁ : Unsent s s₁ ∧ s₁.mWaitAckMessageID = s.mWaitAckMessageID := by
    unfold s₁
    split
    · exact ⟨unsent_noteReset s, rfl⟩
    · exact ⟨.refl s, rfl⟩
  split at h
  · obtain ⟨-, rfl⟩ := Prod.mk.inj h
    have h₂ : Unsent s s₂ := h₁.1.trans (unsent_sendMsgFailErrorHandling s₁ b)
    have hw : s₂.mWaitAckMessageID = s.mWaitAckMessageID :=
      (wait_sendMsgFailErrorHandling s₁ b).trans h₁.2
    have hf : ∀ n, b.call = some n → n ∈ s₂.failed := fun n hn =>
      mem_failed_sendMsgFailErrorHandling s₁ hn
    split
    · exact ⟨h₂.trans (.of_eq rfl rfl rfl), hw, hf⟩
    · exact ⟨h₂, hw, hf⟩
  · exact absurd (Prod.mk.inj h).1 nofun

/-- A message before its first `write`: it is waited for from here on. -/
theorem sendPrepare_some {s t : SpeechMessenger} {b : CcciBuff} {ioctl : Option ModemStatus}
    {data : List UInt8} (h : s.sendPrepare cfg b ioctl = (some data, t)) :
    Unsent s t ∧
      t.mWaitAckMessageID = if b.needsAck then b.getMessageID else s.mWaitAckMessageID := by
  unfold sendPrepare at h
  extract_lets s₁ s₂ at h
  have h₁ : Unsent s s₁ ∧ s₁.mWaitAckMessageID = s.mWaitAckMessageID := by
    unfold s₁
    split
    · exact ⟨unsent_noteReset s, rfl⟩
    · exact ⟨.refl s, rfl⟩
  split at h
  · exact absurd (Prod.mk.inj h).1 nofun
  · obtain ⟨-, rfl⟩ := Prod.mk.inj h
    split
    · exact ⟨h₁.1.trans (.of_eq rfl rfl rfl), rfl⟩
    · exact h₁

/-- The tries of a message: it is written once if one of them succeeds, and never otherwise. -/
theorem sendLoop_spec (cfg : Build) (b : CcciBuff) (data : List UInt8) (tries : List WriteResult)
    (s : SpeechMessenger) :
    (sendLoop cfg b data tries s).2.mWaitAckMessageID = s.mWaitAckMessageID ∧
      match (sendLoop cfg b data tries s).1 with
      | .noError => Wrote b s (sendLoop cfg b data tries s).2
      | .unknownError => Unsent s (sendLoop cfg b data tries s).2 := by
  induction tries generalizing s with
  | nil => exact ⟨rfl, .refl s⟩
  | cons result rest ih =>
    cases result with
    | full =>
      exact ⟨wait_unLockShareBuf _ b, (wrote_log s b data).trans_unsent (unsent_unLockShareBuf _ b)⟩
    | short errno ioctl =>
      have hu : Unsent s (s.unLockShareBuf cfg b) := unsent_unLockShareBuf s b
      unfold sendLoop
      extract_lets s'
      split
      · exact ⟨wait_unLockShareBuf s b, hu.trans (.of_eq rfl rfl rfl)⟩
      · obtain ⟨hwait, hout⟩ := ih s'
        refine ⟨hwait.trans (wait_unLockShareBuf s b), ?_⟩
        cases hr : (sendLoop cfg b data rest s').1 with
        | noError =>
          rw [hr] at hout
          exact hu.trans_wrote hout
        | unknownError =>
          rw [hr] at hout
          exact hu.trans hout

/-- A message that is written. -/
theorem sendWrite_noError {s t : SpeechMessenger} {b : CcciBuff} {data : List UInt8}
    {tries : Nat → WriteResult} (h : s.sendWrite cfg b data tries = (.noError, t)) :
    Wrote b s t ∧ t.mWaitAckMessageID = s.mWaitAckMessageID := by
  have hloop := sendLoop_spec cfg b data ((List.range sendTries).map tries) s
  unfold sendWrite at h
  split at h
  · rename_i t' heq
    obtain ⟨-, rfl⟩ := Prod.mk.inj h
    rw [heq] at hloop
    exact ⟨hloop.2, hloop.1⟩
  · exact absurd (Prod.mk.inj h).1 nofun

/-- A message that is not written: nothing is waited for any more, when it needed an
acknowledgement. -/
theorem sendWrite_unknownError {s t : SpeechMessenger} {b : CcciBuff} {data : List UInt8}
    {tries : Nat → WriteResult} (h : s.sendWrite cfg b data tries = (.unknownError, t)) :
    Unsent s t ∧ t.mWaitAckMessageID = (if b.needsAck then 0 else s.mWaitAckMessageID) ∧
      (b.needsAck → ∀ n, b.call = some n → n ∈ t.failed) := by
  have hloop := sendLoop_spec cfg b data ((List.range sendTries).map tries) s
  unfold sendWrite at h
  split at h
  · exact absurd (Prod.mk.inj h).1 nofun
  · rename_i t' heq
    obtain ⟨-, rfl⟩ := Prod.mk.inj h
    rw [heq] at hloop
    have hu : Unsent s t' := hloop.2
    split
    · refine ⟨hu.trans (Unsent.trans ?_ (unsent_sendMsgFailErrorHandling _ b)), ?_, ?_⟩
      · exact .of_eq rfl rfl rfl
      · exact wait_sendMsgFailErrorHandling _ b
      · exact fun _ n hn => mem_failed_sendMsgFailErrorHandling _ hn
    · rename_i hneed
      exact ⟨hu, hloop.1, fun hn => absurd hn hneed⟩

/-- `SendMessage` that returns `NO_ERROR`. -/
theorem sendMessage_noError {s t : SpeechMessenger} {b : CcciBuff} {env : SendEnv}
    (h : s.sendMessage cfg b env = (.noError, t)) :
    Wrote b s t ∧
      t.mWaitAckMessageID = if b.needsAck then b.getMessageID else s.mWaitAckMessageID := by
  unfold sendMessage at h
  split at h
  · exact absurd (Prod.mk.inj h).1 nofun
  · rename_i data s' hprep
    obtain ⟨hu, hwait⟩ := sendPrepare_some hprep
    obtain ⟨hw, hsame⟩ := sendWrite_noError h
    exact ⟨hu.trans_wrote hw, hsame.trans hwait⟩

/-- `SendMessage` that fails: what is waited for is unchanged, or nothing. -/
theorem sendMessage_unknownError {s t : SpeechMessenger} {b : CcciBuff} {env : SendEnv}
    (h : s.sendMessage cfg b env = (.unknownError, t)) :
    Unsent s t ∧
      (t.mWaitAckMessageID = s.mWaitAckMessageID ∨ b.needsAck ∧ t.mWaitAckMessageID = 0) := by
  unfold sendMessage at h
  split at h
  · rename_i s' hprep
    obtain ⟨-, rfl⟩ := Prod.mk.inj h
    obtain ⟨hu, hwait, -⟩ := sendPrepare_none hprep
    exact ⟨hu, .inl hwait⟩
  · rename_i data s' hprep
    obtain ⟨hu, hwait⟩ := sendPrepare_some hprep
    obtain ⟨hu', hwait', -⟩ := sendWrite_unknownError h
    refine ⟨hu.trans hu', ?_⟩
    by_cases hn : b.needsAck
    · exact .inr ⟨hn, by rw [hwait', if_pos hn]⟩
    · exact .inl (by rw [hwait', if_neg hn, hwait, if_neg hn])

/-- A message that waits for nothing leaves what is waited for alone. -/
theorem sendMessage_bypass (cfg : Build) (s : SpeechMessenger) (env : SendEnv) {b : CcciBuff}
    (hb : ¬ b.needsAck) :
    (s.sendMessage cfg b env).2.mWaitAckMessageID = s.mWaitAckMessageID ∧
      (Unsent s (s.sendMessage cfg b env).2 ∨ Wrote b s (s.sendMessage cfg b env).2) := by
  cases h : s.sendMessage cfg b env with
  | mk r t =>
    cases r with
    | noError =>
      obtain ⟨hw, hwait⟩ := sendMessage_noError h
      exact ⟨hwait.trans (if_neg hb), .inr hw⟩
    | unknownError =>
      obtain ⟨hu, hwait⟩ := sendMessage_unknownError h
      exact ⟨hwait.resolve_right fun hn => hb hn.1, .inl hu⟩

/-! ## What the reading thread does under the mutex -/

/-- The calls that elements of the queue came with. -/
def callsOf (l : List CcciQueueElement) : List Nat := l.filterMap fun e => e.ccci_buff.call

/-- The elements say themselves whether they wait. -/
def Typed (l : List CcciQueueElement) : Prop :=
  ∀ e ∈ l, e.ack_type = judgeAckOfMsg e.ccci_buff.getMessageID

/-- What becomes of the queue: it is empty and nothing is waited for, or its head waits for its
acknowledgement and is the last message that was written. -/
inductive Settled (s t : SpeechMessenger) : Prop where
  | empty (contents : t.queue.contents = []) (wait : t.mWaitAckMessageID = 0)
      (awaited : t.awaited = s.awaited)
  | waits (e : CcciQueueElement) (rest : List CcciQueueElement)
      (contents : t.queue.contents = e :: rest) (needs : e.ccci_buff.needsAck)
      (wait : t.mWaitAckMessageID = e.ccci_buff.getMessageID)
      (written : ∀ n, e.ccci_buff.call = some n → n ∈ t.written)
      (awaited : t.awaited = s.awaited ++ e.ccci_buff.call.toList)

/-- What `ConsumeMessageInQueue` does to a queue with the elements `rest` behind its head. -/
structure Consumed (s t : SpeechMessenger) (rest : List CcciQueueElement) : Prop where
  calls : t.calls = s.calls
  acked : t.acked = s.acked
  consumed : t.consumed = s.consumed
  failed : s.failed ⊆ t.failed
  wf : t.queue.Wf
  suffix : t.queue.contents <:+ rest
  order : ∃ w, t.written = s.written ++ w ∧ (w ++ callsOf t.queue.contents.tail).Sublist (callsOf rest)
  settled : Settled s t

/-- A message behind the head is passed over: it was written, or it failed. -/
theorem Consumed.of_next {s s' t : SpeechMessenger} {e : CcciQueueElement}
    {rest : List CcciQueueElement} (hsame : SameQueue s s')
    (hwritten : s'.written = s.written ∨ s'.written = s.written ++ e.ccci_buff.call.toList)
    (hawaited : s'.awaited = s.awaited) (h : Consumed s' t rest) : Consumed s t (e :: rest) := by
  refine ⟨h.calls.trans hsame.calls, h.acked.trans hsame.acked, h.consumed.trans hsame.consumed,
    fun n hn => h.failed (hsame.failed hn), h.wf, h.suffix.trans (List.suffix_cons e rest), ?_, ?_⟩
  · obtain ⟨w, hw, hsub⟩ := h.order
    have hcalls : callsOf (e :: rest) = e.ccci_buff.call.toList ++ callsOf rest := by
      cases hc : e.ccci_buff.call <;> simp [callsOf, hc]
    rcases hwritten with hs | hs
    · refine ⟨w, by rw [hw, hs], ?_⟩
      rw [hcalls]
      exact hsub.trans (List.sublist_append_right _ _)
    · refine ⟨e.ccci_buff.call.toList ++ w, by rw [hw, hs, List.append_assoc], ?_⟩
      rw [hcalls, List.append_assoc]
      exact hsub.append_left _
  · cases h.settled with
    | empty hc hwait ha => exact .empty hc hwait (ha.trans hawaited)
    | waits e' rest' hc hn hwait hw ha => exact .waits e' rest' hc hn hwait hw (by rw [ha, hawaited])

/-- The queue before does not matter. -/
theorem Consumed.of_queue {s t : SpeechMessenger} {q : MessageQueue} {rest : List CcciQueueElement}
    (h : Consumed { s with queue := q } t rest) : Consumed s t rest := by
  refine ⟨h.calls, h.acked, h.consumed, h.failed, h.wf, h.suffix, h.order, ?_⟩
  cases h.settled with
  | empty hc hwait ha => exact .empty hc hwait ha
  | waits e rest' hc hn hwait hw ha => exact .waits e rest' hc hn hwait hw ha

/-- The loop of `ConsumeMessageInQueue` once the head is gone. -/
theorem consumeLoop_spec (env : Nat → SendEnv) (n : Nat) :
    ∀ (s : SpeechMessenger) (h : CcciQueueElement) (rest : List CcciQueueElement),
      s.queue.Wf → s.queue.contents = h :: rest → Typed rest → s.mWaitAckMessageID = 0 →
      rest.length < n → Consumed s (consumeLoop cfg env n s) rest := by
  induction n with
  | zero => exact fun _ _ _ _ _ _ _ hlt => absurd hlt (Nat.not_lt_zero _)
  | succ n ih =>
    intro s h rest hwf hcontents htyped hwait hlt
    have hpop : s.queue.dequeue.contents = rest := MessageQueue.contents_dequeue hwf hcontents
    have hwf' : s.queue.dequeue.Wf := hwf.dequeue
    have hempty := MessageQueue.iQRead_eq_iQWrite hwf'
    refine .of_queue (q := s.queue.dequeue) ?_
    unfold consumeLoop
    extract_lets s'
    cases rest with
    | nil =>
      rw [if_pos (hempty.mpr hpop)]
      refine ⟨rfl, rfl, rfl, fun _ h => h, hwf', hpop ▸ List.suffix_rfl, ⟨[], ?_, ?_⟩, ?_⟩
      · exact (List.append_nil _).symm
      · show (callsOf s.queue.dequeue.contents.tail).Sublist _
        rw [hpop]
        exact List.Sublist.refl _
      · exact .empty hpop hwait rfl
    | cons e rest =>
      have hne : ¬ s'.queue.iQRead = s'.queue.iQWrite := fun heq => by
        have := hpop.symm.trans (hempty.mp heq)
        exact absurd this nofun
      have hfront : s'.queue.front = e := MessageQueue.front_of_cons hpop
      have htype : e.ack_type = judgeAckOfMsg e.ccci_buff.getMessageID :=
        htyped e List.mem_cons_self
      have htyped' : Typed rest := fun x hx => htyped x (List.mem_cons_of_mem _ hx)
      have hlt' : rest.length < n := Nat.lt_of_succ_lt_succ hlt
      -- the loop goes on from a state in which `e` is the head
      have hnext : ∀ u, SameQueue s' u → u.mWaitAckMessageID = 0 →
          Consumed u (consumeLoop cfg env n u) rest := fun u hu hw =>
        ih u e rest (hu.queue ▸ hwf') (by rw [hu.queue]; exact hpop) htyped' hw hlt'
      rw [if_neg hne, hfront]
      cases hack : e.ack_type with
      | bypassAck =>
        have hnot : ¬ e.ccci_buff.needsAck := fun hn => by
          rw [htype] at hack
          exact absurd (hack.symm.trans hn) nofun
        obtain ⟨hkeep, hsent⟩ := sendMessage_bypass cfg s' (env n) hnot
        rcases hsent with hsent | hsent
        · exact .of_next hsent.toSameQueue (.inl hsent.written) hsent.awaited
            (hnext _ hsent.toSameQueue (hkeep.trans hwait))
        · have hawaited := hsent.awaited
          rw [if_neg hnot] at hawaited
          exact .of_next hsent.toSameQueue (.inr hsent.written)
            (hawaited.trans (List.append_nil _)) (hnext _ hsent.toSameQueue (hkeep.trans hwait))
      | needAck =>
        have hneeds : e.ccci_buff.needsAck := htype.symm.trans hack
        cases hsend : s'.sendMessage cfg e.ccci_buff (env n) with
        | mk r u =>
          cases r with
          | noError =>
            obtain ⟨hsent, hkeep⟩ := sendMessage_noError hsend
            have hcu : u.queue.contents = e :: rest := by rw [hsent.queue]; exact hpop
            have hcalls : callsOf (e :: rest) = e.ccci_buff.call.toList ++ callsOf rest := by
              cases hc : e.ccci_buff.call <;> simp [callsOf, hc]
            refine ⟨hsent.calls, hsent.acked, hsent.consumed, hsent.failed, hsent.queue ▸ hwf',
              hcu ▸ List.suffix_rfl, ⟨e.ccci_buff.call.toList, hsent.written, ?_⟩, ?_⟩
            · show (_ ++ callsOf u.queue.contents.tail).Sublist _
              rw [hcu, hcalls]
              exact List.Sublist.refl _
            · refine .waits e rest hcu hneeds (hkeep.trans (if_pos hneeds)) (fun k hk => ?_) ?_
              · show k ∈ u.written
                rw [hsent.written, hk]
                exact List.mem_append_right _ List.mem_cons_self
              · show u.awaited = _
                rw [hsent.awaited, if_pos hneeds]
          | unknownError =>
            obtain ⟨hsent, hkeep⟩ := sendMessage_unknownError hsend
            have hzero : u.mWaitAckMessageID = 0 :=
              hkeep.elim (fun h => h.trans hwait) fun h => h.2
            exact .of_next hsent.toSameQueue (.inl hsent.written) hsent.awaited
              (hnext u hsent.toSameQueue hzero)
      | canceled => exact absurd (htype.symm.trans hack) (judgeAckOfMsg_ne_canceled _)

/-- `ConsumeMessageInQueue` after the acknowledgement of the head was matched. -/
theorem consumeMessageInQueue_spec (cfg : Build) (env : Nat → SendEnv) {s : SpeechMessenger}
    {h : CcciQueueElement} {rest : List CcciQueueElement} (hwf : s.queue.Wf)
    (hcontents : s.queue.contents = h :: rest) (htyped : Typed rest)
    (hwait : s.mWaitAckMessageID = 0) :
    Consumed (s.log (.consume h.ccci_buff)) (s.consumeMessageInQueue cfg env) rest := by
  have hcount : s.queue.getQueueCount ≠ 0 := fun h0 => by
    rw [MessageQueue.getQueueCount_eq_zero.mp h0] at hcontents
    exact absurd hcontents nofun
  have hlen : rest.length < ccciMaxQueueNum := by
    have hlt := MessageQueue.getQueueCount_lt hwf
    rw [← MessageQueue.length_contents, hcontents, List.length_cons] at hlt
    omega
  unfold consumeMessageInQueue
  rw [if_neg hcount, MessageQueue.front_of_cons hcontents]
  exact consumeLoop_spec env _ _ h rest hwf hcontents htyped hwait hlen

/-- `ConsumeMessageInQueue` on an empty queue. -/
theorem consumeMessageInQueue_nil (env : Nat → SendEnv) {s : SpeechMessenger}
    (hcontents : s.queue.contents = []) : s.consumeMessageInQueue cfg env = s :=
  if_pos (MessageQueue.getQueueCount_eq_zero.mpr hcontents)

/-- The loop of `MDReset_CheckMessageInQueue`: what needed an acknowledgement has failed. -/
theorem mdResetLoop_spec (cfg : Build) (n : Nat) :
    ∀ s : SpeechMessenger, s.queue.Wf → s.queue.contents.length < n →
      Unsent { s with queue := (mdResetLoop cfg n s).queue } (mdResetLoop cfg n s) ∧
        (mdResetLoop cfg n s).mWaitAckMessageID = s.mWaitAckMessageID ∧
        (mdResetLoop cfg n s).queue.Wf ∧ (mdResetLoop cfg n s).queue.contents = [] ∧
        ∀ e ∈ s.queue.contents, e.ccci_buff.needsAck → ∀ k, e.ccci_buff.call = some k →
          k ∈ (mdResetLoop cfg n s).failed := by
  induction n with
  | zero => exact fun _ _ hlt => absurd hlt (Nat.not_lt_zero _)
  | succ n ih =>
    intro s hwf hlt
    unfold mdResetLoop
    cases hcontents : s.queue.contents with
    | nil =>
      rw [if_pos ((MessageQueue.iQRead_eq_iQWrite hwf).mpr hcontents)]
      exact ⟨.refl s, rfl, hwf, hcontents, fun _ he => absurd he List.not_mem_nil⟩
    | cons e rest =>
      have hne : ¬ s.queue.iQRead = s.queue.iQWrite := fun heq => by
        rw [(MessageQueue.iQRead_eq_iQWrite hwf).mp heq] at hcontents
        exact absurd hcontents nofun
      rw [if_neg hne, MessageQueue.front_of_cons hcontents]
      extract_lets b s'
      have hs' : Unsent s s' ∧ s'.mWaitAckMessageID = s.mWaitAckMessageID ∧
          (b.needsAck → ∀ k, b.call = some k → k ∈ s'.failed) := by
        unfold s'
        split
        · exact ⟨unsent_sendMsgFailErrorHandling s b, wait_sendMsgFailErrorHandling s b,
            fun _ k hk => mem_failed_sendMsgFailErrorHandling s hk⟩
        · rename_i hn
          exact ⟨.refl s, rfl, fun h => absurd h hn⟩
      have hq : s'.queue.contents = e :: rest := by rw [hs'.1.queue]; exact hcontents
      have hwf' : s'.queue.Wf := hs'.1.queue ▸ hwf
      have hpop : s'.queue.dequeue.contents = rest := MessageQueue.contents_dequeue hwf' hq
      obtain ⟨hu, hwait, hwfe, hnil, hfail⟩ := ih { s' with queue := s'.queue.dequeue }
        hwf'.dequeue (by
          rw [hcontents, List.length_cons] at hlt
          show s'.queue.dequeue.contents.length < n
          rw [hpop]
          exact Nat.lt_of_succ_lt_succ hlt)
      refine ⟨⟨⟨rfl, hu.calls.trans hs'.1.calls, hu.acked.trans hs'.1.acked,
        hu.consumed.trans hs'.1.consumed, fun k hk => hu.failed (hs'.1.failed hk)⟩,
        hu.written.trans hs'.1.written, hu.awaited.trans hs'.1.awaited⟩, hwait.trans hs'.2.1, hwfe,
        hnil, ?_⟩
      intro x hx hneeds k hk
      rcases List.mem_cons.mp hx with rfl | hx
      · exact hu.failed (hs'.2.2 hneeds k hk)
      · exact hfail x (hpop.symm ▸ hx) hneeds k hk

/-- `MDReset_CheckMessageInQueue` leaves the queue empty; it does not look at what is waited for. -/
theorem mdResetCheckMessageInQueue_spec (cfg : Build) {s : SpeechMessenger} (hwf : s.queue.Wf) :
    Unsent { s with queue := (s.mdResetCheckMessageInQueue cfg).queue }
        (s.mdResetCheckMessageInQueue cfg) ∧
      (s.mdResetCheckMessageInQueue cfg).mWaitAckMessageID = s.mWaitAckMessageID ∧
      (s.mdResetCheckMessageInQueue cfg).queue.Wf ∧
      (s.mdResetCheckMessageInQueue cfg).queue.contents = [] ∧
      ∀ e ∈ s.queue.contents, e.ccci_buff.needsAck → ∀ k, e.ccci_buff.call = some k →
        k ∈ (s.mdResetCheckMessageInQueue cfg).failed := by
  obtain ⟨hu, hwait, hwfe, hnil, hfail⟩ := mdResetLoop_spec cfg ccciMaxQueueNum s hwf
    (by rw [MessageQueue.length_contents]; exact MessageQueue.getQueueCount_lt hwf)
  unfold mdResetCheckMessageInQueue
  extract_lets count s₁ s₂
  have h₂ : Unsent s₁ s₂ ∧ s₂.mWaitAckMessageID = s₁.mWaitAckMessageID := by
    unfold s₂
    split
    · exact ⟨.of_eq rfl rfl rfl, rfl⟩
    · exact ⟨.refl s₁, rfl⟩
  have hq : s₂.queue = s₁.queue := h₂.1.queue
  split
  · exact ⟨⟨⟨rfl, h₂.1.calls.trans hu.calls, h₂.1.acked.trans hu.acked,
      h₂.1.consumed.trans hu.consumed, fun k hk => h₂.1.failed (hu.failed hk)⟩,
      h₂.1.written.trans hu.written, h₂.1.awaited.trans hu.awaited⟩, h₂.2.trans hwait,
      MessageQueue.wf_restart _, MessageQueue.contents_restart _,
      fun e he hn k hk => h₂.1.failed (hfail e he hn k hk)⟩
  · refine ⟨⟨⟨rfl, h₂.1.calls.trans hu.calls, h₂.1.acked.trans hu.acked,
      h₂.1.consumed.trans hu.consumed, fun k hk => h₂.1.failed (hu.failed hk)⟩,
      h₂.1.written.trans hu.written, h₂.1.awaited.trans hu.awaited⟩, h₂.2.trans hwait,
      ?_, ?_, fun e he hn k hk => h₂.1.failed (hfail e he hn k hk)⟩
    · rw [hq]
      exact hwfe
    · rw [hq]
      exact hnil

end SpeechMessenger

end MtkHw.Speech
