import MtkHw.Speech.Queue
import Mathlib.Tactic.Common

/-!
# The discipline of the message queue

The queue is meant to be empty exactly when no acknowledgement is waited for; otherwise its head is
the one message that is waited for, and it was written.  `QueueInv` says so for every state of the
threads.  It has two exceptions, in which the reading thread has cleared `mWaitAckMessageID` and is
on its way to the mutex.

Two things break the discipline.  The reading thread may enter the mutex while a message is waited
for: at a power off, which forgets to clear `mWaitAckMessageID`, or when a caller got a message out
after the thread had cleared it.  And a message may be put into a full queue, which makes it look
empty.
-/

namespace MtkHw.Speech

open Lib

namespace SpeechSystem

/-- The mutex is free, and the reading thread is between two messages. -/
def Quiet (s : SpeechSystem) : Prop := s.sender = .free ∧ s.reader = .idle

/-- A message that waits was written, and neither was it acknowledged nor was its acknowledgement
simulated. -/
def Outstanding (s : SpeechSystem) (call : Nat) : Prop :=
  call ∈ s.messenger.awaited ∧ call ∉ s.messenger.acked ∧ call ∉ s.messenger.failed

/-- The discipline of the queue.  Between two messages the queue holds something exactly when an
acknowledgement is waited for, and then its head is that message, and was written.  At most one
message is outstanding, no head is discarded that was not acknowledged, and the messages of the
callers are written at most once and in the order of the calls. -/
structure Disciplined (s : SpeechSystem) : Prop where
  waits : s.Quiet → (s.messenger.queue.contents ≠ [] ↔ s.messenger.mWaitAckMessageID ≠ 0)
  head : s.Quiet → ∀ e ∈ s.messenger.queue.contents.head?, e.ack_type = .needAck ∧
    e.ccci_buff.getMessageID = s.messenger.mWaitAckMessageID ∧
      ∃ n, e.ccci_buff.call = some n ∧ n ∈ s.messenger.written
  single : ∀ m n, s.Outstanding m → s.Outstanding n → m = n
  consumed : ∀ n ∈ s.messenger.consumed, n ∈ s.messenger.acked
  order : s.messenger.written.Pairwise (· < ·)

/-- What keeps the discipline: a message that is not dropped finds room in the queue, and the
reading thread enters the mutex while nothing is waited for. -/
def Kept (s : SpeechSystem) : SpeechInput → Prop
  | .enter _ => s.messenger.mIsModemEPOF = false →
    s.messenger.queue.getQueueCount < ccciMaxQueueNum - 1
  | .locked _ => s.messenger.mWaitAckMessageID = 0
  | _ => True

/-! ## The invariant -/

/-- The messages that were taken and not written so far: those behind the head, and the one of the
caller that holds the mutex. -/
def pending (s : SpeechSystem) : List Nat :=
  match s.sender with
  | .free => SpeechMessenger.callsOf s.messenger.queue.contents.tail
  | .looked b => SpeechMessenger.callsOf s.messenger.queue.contents.tail ++ b.call.toList
  | .writing b _ => b.call.toList

/-- The queue is empty and nothing is waited for, or its head is waited for. -/
def WaitsForHead (m : SpeechMessenger) : Prop :=
  (m.queue.contents = [] ∧ m.mWaitAckMessageID = 0) ∨
    ∃ e ∈ m.queue.contents.head?, m.mWaitAckMessageID = e.ccci_buff.getMessageID

/-- The reading thread has cleared what is waited for, and is on its way to the mutex. -/
def Cleared (s : SpeechSystem) : Prop :=
  s.messenger.mWaitAckMessageID = 0 ∧
    (s.reader = .flush false ∨ s.reader = .consume ∧
      ∀ e ∈ s.messenger.queue.contents.head?, ∀ n, e.ccci_buff.call = some n →
        n ∈ s.messenger.acked)

/-- The invariant of the queue. -/
structure QueueInv (s : SpeechSystem) : Prop where
  wf : s.messenger.queue.Wf
  typed : SpeechMessenger.Typed s.messenger.queue.contents
  stamped : ∀ e ∈ s.messenger.queue.contents, ∃ n, e.ccci_buff.call = some n
  ordered : (s.messenger.written ++ s.pending).Pairwise (· < ·)
  below : ∀ n ∈ s.messenger.written ++ s.pending, n < s.messenger.calls
  consumed : ∀ n ∈ s.messenger.consumed, n ∈ s.messenger.acked
  accounted : ∀ n ∈ s.messenger.awaited, n ∈ s.messenger.acked ∨ n ∈ s.messenger.failed ∨
    ∃ e ∈ s.messenger.queue.contents.head?, e.ccci_buff.call = some n
  head : (∀ b data, s.sender ≠ .writing b data) → ∀ e ∈ s.messenger.queue.contents.head?,
    e.ccci_buff.needsAck ∧ ∀ n, e.ccci_buff.call = some n → n ∈ s.messenger.written
  writing : ∀ b data, s.sender = .writing b data → (∃ n, b.call = some n) ∧
    s.messenger.queue.contents = if b.needsAck then [⟨b, .needAck⟩] else []
  looked : ∀ b, s.sender = .looked b → ∃ n, b.call = some n
  waits : WaitsForHead s.messenger ∨ s.Cleared

namespace QueueInv

variable {cfg : Build} {s : SpeechSystem}

/-- With an empty queue nothing is waited for. -/
theorem wait_of_nil (h : s.QueueInv) (hnil : s.messenger.queue.contents = []) :
    s.messenger.mWaitAckMessageID = 0 := by
  rcases h.waits with (⟨-, hw⟩ | ⟨e, he, -⟩) | hcl
  · exact hw
  · rw [hnil] at he
    exact absurd he nofun
  · exact hcl.1

/-- While the reading thread is not on its way to the mutex, the head is waited for. -/
theorem waitsForHead (h : s.QueueInv) (hflush : s.reader ≠ .flush false)
    (hconsume : s.reader ≠ .consume) : WaitsForHead s.messenger := by
  refine h.waits.resolve_right fun hcl => ?_
  rcases hcl.2 with hr | ⟨hr, -⟩
  · exact hflush hr
  · exact hconsume hr

/-- The invariant gives the discipline. -/
theorem disciplined (h : s.QueueInv) : s.Disciplined := by
  have hquiet : s.Quiet → WaitsForHead s.messenger := fun hq =>
    h.waitsForHead (by rw [hq.2]; exact nofun) (by rw [hq.2]; exact nofun)
  have hhead : s.Quiet → ∀ e ∈ s.messenger.queue.contents.head?, e.ccci_buff.needsAck ∧
      ∀ n, e.ccci_buff.call = some n → n ∈ s.messenger.written := fun hq =>
    h.head (by rw [hq.1]; exact fun _ _ => nofun)
  refine ⟨fun hq => ?_, fun hq e he => ?_, fun m n hm hn => ?_, h.consumed, ?_⟩
  · rcases hquiet hq with ⟨hnil, hw⟩ | ⟨e, he, hw⟩
    · exact iff_of_false (not_not_intro hnil) (not_not_intro hw)
    · refine iff_of_true (fun hnil => ?_) ?_
      · rw [hnil] at he
        exact absurd he nofun
      · rw [hw]
        exact ne_zero_of_needAck (hhead hq e he).1
  · obtain ⟨hneeds, hwritten⟩ := hhead hq e he
    have hmem : e ∈ s.messenger.queue.contents := List.mem_of_mem_head? he
    obtain ⟨n, hn⟩ := h.stamped e hmem
    refine ⟨(h.typed e hmem).trans hneeds, ?_, n, hn, hwritten n hn⟩
    rcases hquiet hq with ⟨hnil, -⟩ | ⟨e', he', hw⟩
    · rw [hnil] at hmem
      exact absurd hmem List.not_mem_nil
    · cases Option.mem_unique he he'
      exact hw.symm
  · have hon : ∀ k, s.Outstanding k →
        ∃ e ∈ s.messenger.queue.contents.head?, e.ccci_buff.call = some k := fun k hk =>
      ((h.accounted k hk.1).resolve_left hk.2.1).resolve_left hk.2.2
    obtain ⟨e, he, hem⟩ := hon m hm
    obtain ⟨e', he', hen⟩ := hon n hn
    cases Option.mem_unique he he'
    exact Option.some.inj (hem.symm.trans hen)
  · exact (List.pairwise_append.mp h.ordered).1

/-- The invariant at the start. -/
theorem init (status : UInt32) (buf : Nat → UInt8) (para : ParaShareBuf) :
    (speechInit status buf para).QueueInv where
  wf := ⟨Nat.zero_lt_succ _, Nat.zero_lt_succ _⟩
  typed := fun _ he => absurd he List.not_mem_nil
  stamped := fun _ he => absurd he List.not_mem_nil
  ordered := .nil
  below := fun _ hn => absurd hn List.not_mem_nil
  consumed := fun _ hn => absurd hn List.not_mem_nil
  accounted := fun _ hn => absurd hn List.not_mem_nil
  head := fun _ _ he => absurd he nofun
  writing := fun _ _ h => absurd h nofun
  looked := fun _ h => absurd h nofun
  waits := .inl (.inl ⟨rfl, rfl⟩)

/-- A step that neither moves the queue nor writes, and leaves what is waited for alone. -/
theorem of_unsent (h : s.QueueInv) {m : SpeechMessenger} (hu : s.messenger.Unsent m)
    (hw : m.mWaitAckMessageID = s.messenger.mWaitAckMessageID) {r : Reader}
    (hr : r = s.reader ∨ WaitsForHead s.messenger) :
    QueueInv { s with messenger := m, reader := r } := by
  have hpending : pending { s with messenger := m, reader := r } = s.pending := by
    unfold pending
    rw [hu.queue]
  refine ⟨?_, ?_, ?_, ?_, ?_, ?_, ?_, ?_, ?_, h.looked, ?_⟩
  · exact hu.queue ▸ h.wf
  · exact hu.queue ▸ h.typed
  · exact hu.queue ▸ h.stamped
  · rw [hpending]
    exact hu.written ▸ h.ordered
  · rw [hpending]
    show ∀ n ∈ m.written ++ _, n < m.calls
    rw [hu.written, hu.calls]
    exact h.below
  · show ∀ n ∈ m.consumed, n ∈ m.acked
    rw [hu.consumed, hu.acked]
    exact h.consumed
  · intro n hn
    rcases h.accounted n (hu.awaited ▸ hn) with ha | hf | he
    · exact .inl (hu.acked ▸ ha)
    · exact .inr (.inl (hu.failed hf))
    · exact .inr (.inr (hu.queue ▸ he))
  · show _ → ∀ e ∈ m.queue.contents.head?, _ ∧ ∀ n, _ → n ∈ m.written
    rw [hu.queue, hu.written]
    exact h.head
  · show ∀ b data, _ → _ ∧ m.queue.contents = _
    rw [hu.queue]
    exact h.writing
  · have hwaits : WaitsForHead s.messenger → WaitsForHead m := by
      unfold WaitsForHead
      rw [hu.queue, hw]
      exact id
    rcases hr with rfl | hr
    · refine h.waits.imp hwaits fun hcl => ⟨hw.trans hcl.1, hcl.2.imp id fun hc => ⟨hc.1, ?_⟩⟩
      show ∀ e ∈ m.queue.contents.head?, ∀ n, _ → n ∈ m.acked
      rw [hu.queue, hu.acked]
      exact hc.2
    · exact .inl (hwaits hr)

/-- A step that leaves the queue empty with nothing waited for, and the mutex free. -/
theorem emptied (h : s.QueueInv) {m : SpeechMessenger}
    (hu : SpeechMessenger.Unsent { s.messenger with queue := m.queue } m) (hwf : m.queue.Wf)
    (hnil : m.queue.contents = []) (hwait : m.mWaitAckMessageID = 0)
    (hhead : ∀ e ∈ s.messenger.queue.contents.head?, ∀ n, e.ccci_buff.call = some n → n ∈ m.failed)
    (r : Reader) : QueueInv ⟨m, .free, r⟩ := by
  have hpending : pending ⟨m, .free, r⟩ = [] := by
    show SpeechMessenger.callsOf m.queue.contents.tail = []
    rw [hnil]
    rfl
  have hwritten : m.written = s.messenger.written := hu.written
  refine ⟨hwf, ?_, ?_, ?_, ?_, ?_, ?_, ?_, fun _ _ h => absurd h nofun, fun _ h => absurd h nofun,
    .inl (.inl ⟨hnil, hwait⟩)⟩
  · exact fun e he => absurd (hnil ▸ he) List.not_mem_nil
  · exact fun e he => absurd (hnil ▸ he) List.not_mem_nil
  · rw [hpending, List.append_nil]
    show m.written.Pairwise _
    rw [hwritten]
    exact (List.pairwise_append.mp h.ordered).1
  · intro n hn
    rw [hpending, List.append_nil] at hn
    show n < m.calls
    rw [hu.calls]
    exact h.below n (List.mem_append_left _ (hwritten ▸ hn))
  · show ∀ n ∈ m.consumed, n ∈ m.acked
    rw [hu.consumed, hu.acked]
    exact h.consumed
  · intro n hn
    rcases h.accounted n (hu.awaited ▸ hn) with ha | hf | ⟨e, he, hc⟩
    · exact .inl (hu.acked ▸ ha)
    · exact .inr (.inl (hu.failed hf))
    · exact .inr (.inl (hhead e he n hc))
  · intro _ e he
    have he' : e ∈ m.queue.contents.head? := he
    rw [hnil] at he'
    exact absurd he' nofun

/-! ## The callers -/

/-- A caller takes the mutex. -/
theorem look (h : s.QueueInv) (hfree : s.sender = .free) (b : CcciBuff)
    (ioctl : Option ModemStatus) :
    QueueInv { s with
      messenger := (s.messenger.queueLook cfg b ioctl).1
      sender := (s.messenger.queueLook cfg b ioctl).2 } := by
  have hstart : s.pending = SpeechMessenger.callsOf s.messenger.queue.contents.tail := by
    unfold pending
    rw [hfree]
  have hcount : QueueInv { s with messenger := { s.messenger with calls := s.messenger.calls + 1 } } :=
    ⟨h.wf, h.typed, h.stamped, h.ordered, fun n hn => Nat.lt_succ_of_lt (h.below n hn), h.consumed,
      h.accounted, h.head, h.writing, h.looked, h.waits⟩
  unfold SpeechMessenger.queueLook
  extract_lets b' m
  split
  · have hu : m.Unsent ((m.noteReset.unLockShareBuf cfg b').log (.ret b' true)) :=
      (SpeechMessenger.unsent_noteReset m).trans <|
        (SpeechMessenger.unsent_unLockShareBuf _ b').trans
          (SpeechMessenger.unsent_log _ rfl rfl rfl rfl)
    have hkeep := hcount.of_unsent hu (SpeechMessenger.wait_unLockShareBuf m.noteReset b') (.inl rfl)
    exact hfree ▸ hkeep
  · have hpending : pending ⟨m, .looked b', s.reader⟩ = s.pending ++ [s.messenger.calls] := by
      rw [hstart]
      rfl
    refine ⟨h.wf, h.typed, h.stamped, ?_, ?_, h.consumed, h.accounted, fun _ => ?_,
      fun _ _ h => absurd h nofun, ?_, h.waits⟩
    · rw [hpending, ← List.append_assoc]
      refine List.pairwise_append.mpr ⟨h.ordered, List.pairwise_singleton _ _, ?_⟩
      intro n hn k hk
      rw [List.mem_singleton.mp hk]
      exact h.below n hn
    · intro n hn
      rw [hpending, ← List.append_assoc] at hn
      rcases List.mem_append.mp hn with hn | hn
      · exact Nat.lt_succ_of_lt (h.below n hn)
      · rw [List.mem_singleton.mp hn]
        exact Nat.lt_succ_self _
    · exact h.head (by rw [hfree]; exact fun _ _ => nofun)
    · intro x hx
      cases hx
      exact ⟨_, rfl⟩

/-- A caller that found the modem ready goes away without a message of its own in the queue. -/
theorem release (h : s.QueueInv) {b : CcciBuff} (hb : s.sender = .looked b) {m : SpeechMessenger}
    (hu : s.messenger.Unsent m) (hw : m.mWaitAckMessageID = s.messenger.mWaitAckMessageID) :
    QueueInv { s with messenger := m, sender := .free } := by
  have hkeep : QueueInv { s with messenger := m } := h.of_unsent hu hw (.inl rfl)
  have hpending : pending { s with messenger := m } =
      pending ⟨m, .free, s.reader⟩ ++ b.call.toList := by
    unfold pending
    rw [hb]
  have hsub : (m.written ++ pending ⟨m, .free, s.reader⟩).Sublist
      (m.written ++ pending { s with messenger := m }) := by
    rw [hpending]
    exact (List.sublist_append_left _ _).append_left _
  exact ⟨hkeep.wf, hkeep.typed, hkeep.stamped, hkeep.ordered.sublist hsub,
    fun n hn => hkeep.below n (hsub.subset hn), hkeep.consumed, hkeep.accounted,
    fun _ => hkeep.head (fun _ _ hx => absurd (hb.symm.trans hx) nofun),
    fun _ _ h => absurd h nofun, fun _ h => absurd h nofun, hkeep.waits⟩

/-- A message is put behind the others. -/
theorem enqueued (h : s.QueueInv) {b : CcciBuff} (hb : s.sender = .looked b)
    (hroom : s.messenger.queue.getQueueCount < ccciMaxQueueNum - 1)
    (hne : s.messenger.queue.contents ≠ []) :
    QueueInv { s with
      messenger := { s.messenger with queue := s.messenger.queue.enqueue b }
      sender := .free } := by
  obtain ⟨e, rest, hcontents⟩ := List.exists_cons_of_ne_nil hne
  have hnew : (s.messenger.queue.enqueue b).contents =
      e :: (rest ++ [⟨b, judgeAckOfMsg b.getMessageID⟩]) := by
    rw [MessageQueue.contents_enqueue h.wf b hroom, hcontents]
    rfl
  have hhead : (s.messenger.queue.enqueue b).contents.head? =
      s.messenger.queue.contents.head? := by
    rw [hnew, hcontents]
    rfl
  have hpending : pending ⟨{ s.messenger with queue := s.messenger.queue.enqueue b }, .free, s.reader⟩
      = s.pending := by
    have hleft : pending ⟨{ s.messenger with queue := s.messenger.queue.enqueue b }, .free, s.reader⟩ =
        SpeechMessenger.callsOf (s.messenger.queue.enqueue b).contents.tail := rfl
    have hright : s.pending =
        SpeechMessenger.callsOf s.messenger.queue.contents.tail ++ b.call.toList := by
      unfold pending
      rw [hb]
    rw [hleft, hright, hnew, hcontents]
    cases hc : b.call <;> simp [SpeechMessenger.callsOf, hc]
  have hmem : ∀ x ∈ (s.messenger.queue.enqueue b).contents,
      x ∈ s.messenger.queue.contents ∨ x = ⟨b, judgeAckOfMsg b.getMessageID⟩ := fun x hx => by
    rw [MessageQueue.contents_enqueue h.wf b hroom] at hx
    exact (List.mem_append.mp hx).imp id List.mem_singleton.mp
  refine ⟨h.wf.enqueue b, ?_, ?_, ?_, ?_, h.consumed, ?_, ?_, fun _ _ h => absurd h (by rintro ⟨⟩),
    fun _ h => absurd h (by rintro ⟨⟩), ?_⟩
  · intro x hx
    rcases hmem x hx with hx | rfl
    · exact h.typed x hx
    · rfl
  · intro x hx
    rcases hmem x hx with hx | rfl
    · exact h.stamped x hx
    · exact h.looked b hb
  · rw [hpending]
    exact h.ordered
  · rw [hpending]
    exact h.below
  · intro n hn
    refine (h.accounted n hn).imp id (Or.imp id fun hx => ?_)
    show ∃ e ∈ (s.messenger.queue.enqueue b).contents.head?, _
    rw [hhead]
    exact hx
  · intro _
    show ∀ e ∈ (s.messenger.queue.enqueue b).contents.head?, _
    rw [hhead]
    exact h.head (fun _ _ hx => absurd (hb.symm.trans hx) (by rintro ⟨⟩))
  · refine h.waits.imp (fun hw => .inr ?_) fun hcl => ⟨hcl.1, hcl.2.imp id fun hc => ⟨hc.1, ?_⟩⟩
    · show ∃ e ∈ (s.messenger.queue.enqueue b).contents.head?, _
      rw [hhead]
      exact hw.resolve_left fun hnil => hne hnil.1
    · show ∀ e ∈ (s.messenger.queue.enqueue b).contents.head?, _
      rw [hhead]
      exact hc.2

/-- A message meets an empty queue. -/
theorem direct (h : s.QueueInv) {b : CcciBuff} (hb : s.sender = .looked b)
    (hnil : s.messenger.queue.contents = []) (ioctl : Option ModemStatus) :
    QueueInv { s with
      messenger := (s.messenger.queueDirect cfg b ioctl).1
      sender := (s.messenger.queueDirect cfg b ioctl).2 } := by
  have hwait := h.wait_of_nil hnil
  have hroom : s.messenger.queue.getQueueCount < ccciMaxQueueNum - 1 := by
    rw [MessageQueue.getQueueCount_eq_zero.mpr hnil]
    exact Nat.zero_lt_succ _
  unfold SpeechMessenger.queueDirect
  extract_lets m₁
  have h₁ : SpeechMessenger.Unsent { s.messenger with queue := m₁.queue } m₁ ∧
      m₁.mWaitAckMessageID = s.messenger.mWaitAckMessageID ∧ m₁.queue.Wf ∧
      m₁.queue.contents = if b.needsAck then [⟨b, .needAck⟩] else [] := by
    unfold m₁
    split
    · rename_i hneeds
      refine ⟨.refl _, rfl, h.wf.enqueue b, ?_⟩
      rw [MessageQueue.contents_enqueue h.wf b hroom, hnil, hneeds]
      rfl
    · exact ⟨.refl _, rfl, h.wf, hnil⟩
  obtain ⟨hu₁, hw₁, hwf₁, hc₁⟩ := h₁
  split
  · rename_i data t hprep
    obtain ⟨hu, hw⟩ := SpeechMessenger.sendPrepare_some hprep
    have hq : t.queue = m₁.queue := hu.queue
    have hall : SpeechMessenger.Unsent { s.messenger with queue := m₁.queue } t := hu₁.trans hu
    have hstart : s.pending = b.call.toList := by
      unfold pending
      rw [hb, hnil]
      rfl
    have hwritten : t.written = s.messenger.written := hall.written
    refine ⟨hq ▸ hwf₁, ?_, ?_, ?_, ?_, ?_, ?_, fun hx => absurd rfl (hx b data), ?_,
      fun _ h => absurd h nofun, ?_⟩
    · show SpeechMessenger.Typed t.queue.contents
      rw [hq, hc₁]
      split
      · rename_i hneeds
        intro x hx
        rw [List.mem_singleton.mp hx]
        exact hneeds.symm
      · exact fun _ hx => absurd hx List.not_mem_nil
    · show ∀ e ∈ t.queue.contents, _
      rw [hq, hc₁]
      split
      · intro x hx
        rw [List.mem_singleton.mp hx]
        exact h.looked b hb
      · exact fun _ hx => absurd hx List.not_mem_nil
    · show (t.written ++ b.call.toList).Pairwise _
      rw [hwritten, ← hstart]
      exact h.ordered
    · show ∀ n ∈ t.written ++ b.call.toList, n < t.calls
      rw [hwritten, ← hstart, hall.calls]
      exact h.below
    · show ∀ n ∈ t.consumed, n ∈ t.acked
      rw [hall.consumed, hall.acked]
      exact h.consumed
    · intro n hn
      rcases h.accounted n (hall.awaited ▸ hn) with ha | hf | ⟨e, he, -⟩
      · exact .inl (hall.acked ▸ ha)
      · exact .inr (.inl (hall.failed hf))
      · rw [hnil] at he
        exact absurd he nofun
    · intro x d hx
      cases hx
      exact ⟨h.looked b hb, hq ▸ hc₁⟩
    · refine .inl ?_
      show (t.queue.contents = [] ∧ _) ∨ ∃ e ∈ t.queue.contents.head?, _
      rw [hq, hc₁]
      by_cases hneeds : b.needsAck
      · rw [if_pos hneeds] at hw ⊢
        exact .inr ⟨_, rfl, hw⟩
      · rw [if_neg hneeds] at hw ⊢
        exact .inl ⟨rfl, hw.trans (hw₁.trans hwait)⟩
  · rename_i t hprep
    obtain ⟨hu, hw, -⟩ := SpeechMessenger.sendPrepare_none hprep
    have hq : t.queue = m₁.queue := hu.queue
    have hall : SpeechMessenger.Unsent { s.messenger with queue := m₁.queue } t := hu₁.trans hu
    have hskip : SpeechMessenger.Unsent { s.messenger with queue := (t.skipFailed b).queue }
        (t.skipFailed b) ∧ (t.skipFailed b).mWaitAckMessageID = t.mWaitAckMessageID ∧
        (t.skipFailed b).queue.Wf ∧ (t.skipFailed b).queue.contents = [] := by
      unfold SpeechMessenger.skipFailed
      split
      · rename_i hneeds
        rw [if_pos hneeds] at hc₁
        refine ⟨hall.setQueue _, rfl, (hq ▸ hwf₁ : t.queue.Wf).dequeue, ?_⟩
        exact MessageQueue.contents_dequeue (hq ▸ hwf₁) (by rw [hq]; exact hc₁)
      · rename_i hneeds
        rw [if_neg hneeds] at hc₁
        refine ⟨?_, rfl, hq ▸ hwf₁, by rw [hq]; exact hc₁⟩
        rw [hq]
        exact hall
    obtain ⟨hu', hw', hwf', hnil'⟩ := hskip
    refine h.emptied (m := (t.skipFailed b).log (.ret b false)) ?_ hwf' hnil' ?_ ?_ s.reader
    · exact hu'.trans (SpeechMessenger.unsent_log _ rfl rfl rfl rfl)
    · exact hw'.trans (hw.trans (hw₁.trans hwait))
    · intro e he
      rw [hnil] at he
      exact absurd he nofun

/-- A caller goes on, when there is room for its message. -/
theorem enter (h : s.QueueInv) {b : CcciBuff} (hb : s.sender = .looked b)
    (hroom : s.messenger.mIsModemEPOF = false →
      s.messenger.queue.getQueueCount < ccciMaxQueueNum - 1) (ioctl : Option ModemStatus) :
    QueueInv { s with
      messenger := (s.messenger.queueEnter cfg b ioctl).1
      sender := (s.messenger.queueEnter cfg b ioctl).2 } := by
  have htake : s.messenger.Unsent (s.messenger.log (.take b)) :=
    SpeechMessenger.unsent_log _ rfl rfl rfl rfl
  have htaken : QueueInv { s with messenger := s.messenger.log (.take b) } :=
    h.of_unsent htake rfl (.inl rfl)
  unfold SpeechMessenger.queueEnter
  split
  · refine h.release hb ?_ rfl
    exact (SpeechMessenger.unsent_a2mBufUnLock _ b).trans
      (SpeechMessenger.unsent_log _ rfl rfl rfl rfl)
  · rename_i hepof
    split
    · rename_i hcount
      exact htaken.direct hb (MessageQueue.getQueueCount_eq_zero.mp hcount) ioctl
    · rename_i hcount
      have hput := htaken.enqueued hb (hroom ((Bool.not_eq_true _).mp hepof)) fun hnil =>
        hcount (MessageQueue.getQueueCount_eq_zero.mpr hnil)
      exact hput.of_unsent (SpeechMessenger.unsent_log _ (e := .ret b true) rfl rfl rfl rfl) rfl
        (.inl rfl)

/-- The message of a caller was written. -/
theorem wrote (h : s.QueueInv) {b : CcciBuff} {data : List UInt8} (hb : s.sender = .writing b data)
    {m : SpeechMessenger} (hw : s.messenger.Wrote b m)
    (hwait : m.mWaitAckMessageID = s.messenger.mWaitAckMessageID) :
    QueueInv { s with messenger := m, sender := .free } := by
  obtain ⟨⟨k, hk⟩, hcontents⟩ := h.writing b data hb
  have hstart : s.pending = b.call.toList := by
    unfold pending
    rw [hb]
  have hend : pending ⟨m, .free, s.reader⟩ = [] := by
    show SpeechMessenger.callsOf m.queue.contents.tail = []
    rw [hw.queue, hcontents]
    split <;> rfl
  have hlist : m.written ++ pending ⟨m, .free, s.reader⟩ = s.messenger.written ++ s.pending := by
    rw [hend, hw.written, hstart, List.append_nil]
  refine ⟨hw.queue ▸ h.wf, hw.queue ▸ h.typed, hw.queue ▸ h.stamped, ?_, ?_, ?_, ?_, ?_,
    fun _ _ h => absurd h nofun, fun _ h => absurd h nofun, ?_⟩
  · exact hlist ▸ h.ordered
  · show ∀ n ∈ m.written ++ pending ⟨m, .free, s.reader⟩, n < m.calls
    rw [hlist, hw.calls]
    exact h.below
  · show ∀ n ∈ m.consumed, n ∈ m.acked
    rw [hw.consumed, hw.acked]
    exact h.consumed
  · intro n hn
    have hn' : n ∈ m.awaited := hn
    rw [hw.awaited] at hn'
    rcases List.mem_append.mp hn' with hn' | hn'
    · rcases h.accounted n hn' with ha | hf | he
      · exact .inl (hw.acked ▸ ha)
      · exact .inr (.inl (hw.failed hf))
      · exact .inr (.inr (hw.queue ▸ he))
    · split at hn'
      · rename_i hneeds
        rw [if_pos hneeds] at hcontents
        refine .inr (.inr ⟨⟨b, .needAck⟩, ?_, ?_⟩)
        · show _ ∈ m.queue.contents.head?
          rw [hw.queue, hcontents]
          rfl
        · rw [hk] at hn'
          rw [List.mem_singleton.mp hn']
          exact hk
      · exact absurd hn' List.not_mem_nil
  · intro _ e he
    have he' : e ∈ m.queue.contents.head? := he
    rw [hw.queue, hcontents] at he'
    split at he'
    · rename_i hneeds
      obtain rfl : _ = e := Option.some.inj he'
      refine ⟨hneeds, fun n hn => ?_⟩
      show n ∈ m.written
      rw [hw.written, show b.call = some n from hn]
      exact List.mem_append_right _ List.mem_cons_self
    · exact absurd he' nofun
  · have hsame : WaitsForHead s.messenger → WaitsForHead m := by
      unfold WaitsForHead
      rw [hw.queue, hwait]
      exact id
    refine h.waits.imp hsame fun hcl => ⟨hwait.trans hcl.1, hcl.2.imp id fun hc => ⟨hc.1, ?_⟩⟩
    show ∀ e ∈ m.queue.contents.head?, ∀ n, _ → n ∈ m.acked
    rw [hw.queue, hw.acked]
    exact hc.2

/-- A caller writes its message, and returns. -/
theorem leave (h : s.QueueInv) {b : CcciBuff} {data : List UInt8}
    (hb : s.sender = .writing b data) (tries : Nat → WriteResult) :
    QueueInv { s with
      messenger := s.messenger.queueLeave cfg b data tries
      sender := .free } := by
  obtain ⟨-, hcontents⟩ := h.writing b data hb
  unfold SpeechMessenger.queueLeave
  split
  · rename_i t hsend
    obtain ⟨hw, hwait⟩ := SpeechMessenger.sendWrite_noError hsend
    refine h.wrote hb (hw.trans_unsent ?_) hwait
    exact SpeechMessenger.unsent_log _ rfl rfl rfl rfl
  · rename_i t hsend
    obtain ⟨hu, hwait, hfailed⟩ := SpeechMessenger.sendWrite_unknownError hsend
    have hq : t.queue = s.messenger.queue := hu.queue
    have hlog : SpeechMessenger.Unsent (t.skipFailed b) ((t.skipFailed b).log (.ret b false)) :=
      SpeechMessenger.unsent_log _ rfl rfl rfl rfl
    by_cases hneeds : b.needsAck
    · rw [if_pos hneeds] at hcontents hwait
      have hskip : t.skipFailed b = { t with queue := t.queue.dequeue } := if_pos hneeds
      have hwf : t.queue.Wf := hq ▸ h.wf
      rw [hskip] at hlog ⊢
      refine h.emptied (m := { t with queue := t.queue.dequeue }.log (.ret b false)) ?_ hwf.dequeue
        ?_ hwait ?_ s.reader
      · exact (hu.setQueue _).trans hlog
      · exact MessageQueue.contents_dequeue hwf (by rw [hq]; exact hcontents)
      · intro e he n hn
        rw [hcontents] at he
        obtain rfl : _ = e := Option.some.inj he
        exact hlog.failed (hfailed hneeds n hn)
    · rw [if_neg hneeds] at hcontents hwait
      have hskip : t.skipFailed b = t := if_neg hneeds
      rw [hskip] at hlog ⊢
      refine h.emptied ?_ (hq ▸ h.wf) ?_ ?_ ?_ s.reader
      · show SpeechMessenger.Unsent { s.messenger with queue := t.queue } _
        rw [hq]
        exact hu.trans hlog
      · show t.queue.contents = []
        rw [hq]
        exact hcontents
      · exact hwait.trans (h.wait_of_nil hcontents)
      · intro e he
        rw [hcontents] at he
        exact absurd he nofun

/-! ## The reading thread -/

/-- What the handler of the acknowledgements changes. -/
theorem unsent_ackHandler (cfg : Build) (m : SpeechMessenger) (b : CcciBuff) :
    m.Unsent (m.ackHandler cfg b) ∧
      (m.ackHandler cfg b).mWaitAckMessageID = m.mWaitAckMessageID := by
  unfold SpeechMessenger.ackHandler
  split
  · exact ⟨.refl m, rfl⟩
  · split
    · exact ⟨SpeechMessenger.unsent_answer .., SpeechMessenger.wait_answer ..⟩
    · split
      · exact ⟨.of_eq rfl rfl rfl, rfl⟩
      · exact ⟨.refl m, rfl⟩

/-- The messenger's own messages have no call. -/
theorem call_initCcciMailbox (id p : UInt16) (q : UInt32) :
    (initCcciMailbox cfg id p q).call = none := by
  unfold initCcciMailbox
  split <;> rfl

/-- The messages the reading thread sends past the queue wait for nothing. -/
theorem not_needsAck_of_notice {id : UInt16} (p : UInt16) (q : UInt32)
    (hid : id ∈ noticeAnswers ∨ id = msgA2mEpofAck) :
    ¬ (initCcciMailbox cfg id p q).needsAck := by
  have hbypass : judgeAckOfMsg id ≠ .needAck := by
    rcases hid with hid | rfl
    · have hall : (noticeAnswers.all fun i => judgeAckOfMsg i ≠ .needAck) = true := by
        decide +kernel
      exact of_decide_eq_true (List.all_eq_true.mp hall id hid)
    · decide
  unfold CcciBuff.needsAck
  by_cases hq : q ≠ ccciMailboxMagicNumber ∨ id ∉ payloadMessages cfg
  · rw [getMessageID_initCcciMailbox cfg p hq]
    exact hbypass
  · -- an offset that is the magic number makes the identifier unreadable
    obtain ⟨hmagic, hpayload⟩ := not_or.mp hq
    have hmagic : q = ccciMailboxMagicNumber := not_not.mp hmagic
    have hpayload : id ∈ payloadMessages cfg := not_not.mp hpayload
    have hzero : (initCcciMailbox cfg id p q).getMessageID = 0 := by
      unfold initCcciMailbox
      rw [if_pos hpayload, CcciBuff.getMessageID, if_neg (not_not_intro hmagic)]
      apply UInt16.eq_of_toBitVec_eq
      ext i hi
      simp
    rw [hzero]
    decide

/-- A message the reading thread sends itself. -/
theorem unsent_ownMessage (cfg : Build) (m : SpeechMessenger) {id : UInt16} (p : UInt16)
    (q : UInt32) (env : SendEnv) (hid : id ∈ noticeAnswers ∨ id = msgA2mEpofAck) :
    m.Unsent (m.sendMessage cfg (initCcciMailbox cfg id p q) env).2 ∧
      (m.sendMessage cfg (initCcciMailbox cfg id p q) env).2.mWaitAckMessageID =
        m.mWaitAckMessageID := by
  obtain ⟨hwait, hsent⟩ := SpeechMessenger.sendMessage_bypass cfg m env
    (not_needsAck_of_notice p q hid)
  refine ⟨hsent.elim (fun hu => hu) fun hw => ⟨hw.toSameQueue, ?_, ?_⟩, hwait⟩
  · rw [hw.written, call_initCcciMailbox]
    exact List.append_nil _
  · rw [hw.awaited, call_initCcciMailbox]
    split <;> exact List.append_nil _

/-- What the answer to a notice changes. -/
theorem unsent_answerNotice (cfg : Build) (m : SpeechMessenger) (b : CcciBuff)
    (reply : Option Reply) :
    m.Unsent (m.answerNotice cfg b reply) ∧
      (m.answerNotice cfg b reply).mWaitAckMessageID = m.mWaitAckMessageID := by
  unfold SpeechMessenger.answerNotice
  split
  · rename_i r
    split
    · rename_i hid
      exact unsent_ownMessage cfg m r.param_16bit r.param_32bit r.env (.inl hid.2)
    · exact ⟨.refl m, rfl⟩
  · exact ⟨.refl m, rfl⟩

/-- An acknowledgement that is waited for is that of the head. -/
theorem matchAck (h : s.QueueInv) (hidle : s.reader = .idle) (id : UInt16) :
    QueueInv { s with
      messenger := (s.messenger.matchAck id).1
      reader := (s.messenger.matchAck id).2 } := by
  unfold SpeechMessenger.matchAck
  split
  · rename_i hid
    obtain ⟨hneeds, hwait⟩ := hid
    have hne : s.messenger.mWaitAckMessageID ≠ 0 := hwait ▸ ne_zero_of_needAck hneeds
    have hwaits : WaitsForHead s.messenger :=
      h.waitsForHead (by rw [hidle]; exact nofun) (by rw [hidle]; exact nofun)
    obtain ⟨e, he, -⟩ := hwaits.resolve_left fun hnil => hne hnil.2
    obtain ⟨e', rest, hcontents⟩ : ∃ e' rest, s.messenger.queue.contents = e' :: rest :=
      List.exists_cons_of_ne_nil fun hnil => by
        rw [hnil] at he
        exact absurd he nofun
    have hcount : s.messenger.queue.getQueueCount ≠ 0 := fun h0 => by
      rw [MessageQueue.getQueueCount_eq_zero.mp h0] at hcontents
      exact absurd hcontents nofun
    obtain ⟨n, hn⟩ := h.stamped e' (hcontents ▸ List.mem_cons_self)
    unfold SpeechMessenger.logAck
    rw [if_neg hcount, MessageQueue.front_of_cons hcontents]
    generalize hm : ({ s.messenger with mWaitAckMessageID := 0 } : SpeechMessenger).log
      (.ack e'.ccci_buff) = m
    have hq : m.queue = s.messenger.queue := by subst hm; rfl
    have hcalls : m.calls = s.messenger.calls := by subst hm; rfl
    have hwritten : m.written = s.messenger.written := by
      subst hm
      simp [SpeechMessenger.written, SpeechMessenger.log, SpeechEvent.written]
    have hawaited : m.awaited = s.messenger.awaited := by
      subst hm
      simp [SpeechMessenger.awaited, SpeechMessenger.log, SpeechEvent.awaited]
    have hconsumed : m.consumed = s.messenger.consumed := by
      subst hm
      simp [SpeechMessenger.consumed, SpeechMessenger.log, SpeechEvent.consumed]
    have hfailed : m.failed = s.messenger.failed := by
      subst hm
      simp [SpeechMessenger.failed, SpeechMessenger.log, SpeechEvent.failed]
    have hacked : m.acked = s.messenger.acked ++ [n] := by
      subst hm
      simp [SpeechMessenger.acked, SpeechMessenger.log, SpeechEvent.acked, hn]
    have hpending : pending { s with messenger := m, reader := .consume } = s.pending := by
      unfold pending
      rw [hq]
    refine ⟨hq ▸ h.wf, hq ▸ h.typed, hq ▸ h.stamped, ?_, ?_, ?_, ?_, ?_, ?_, h.looked, ?_⟩
    · rw [hpending]
      exact hwritten ▸ h.ordered
    · rw [hpending]
      show ∀ n ∈ m.written ++ s.pending, n < m.calls
      rw [hwritten, hcalls]
      exact h.below
    · show ∀ k ∈ m.consumed, k ∈ m.acked
      rw [hconsumed, hacked]
      exact fun k hk => List.mem_append_left _ (h.consumed k hk)
    · intro k hk
      refine (h.accounted k (hawaited ▸ hk)).imp (fun ha => ?_) (Or.imp (fun hf => ?_) fun hx => ?_)
      · show k ∈ m.acked
        rw [hacked]
        exact List.mem_append_left _ ha
      · exact hfailed ▸ hf
      · exact hq ▸ hx
    · show _ → ∀ e ∈ m.queue.contents.head?, _ ∧ ∀ n, _ → n ∈ m.written
      rw [hq, hwritten]
      exact h.head
    · show ∀ b data, _ → _ ∧ m.queue.contents = _
      rw [hq]
      exact h.writing
    · refine .inr ⟨by subst hm; rfl, .inr ⟨rfl, ?_⟩⟩
      show ∀ e ∈ m.queue.contents.head?, ∀ k, _ → k ∈ m.acked
      rw [hq, hcontents, hacked]
      intro x hx k hk
      obtain rfl : e' = x := Option.some.inj hx
      rw [Option.some.inj (hk.symm.trans hn)]
      exact List.mem_append_right _ List.mem_cons_self
  · exact h.of_unsent (.refl _) rfl (.inl hidle.symm)

/-- The reading thread reads a message. -/
theorem read (h : s.QueueInv) (hidle : s.reader = .idle) (b : CcciBuff) (ioctl : Option ModemStatus)
    (reply : Option Reply) :
    QueueInv { s with
      messenger := (s.messenger.readMessage cfg b ioctl reply).1
      reader := (s.messenger.readMessage cfg b ioctl reply).2 } := by
  have hwaits : WaitsForHead s.messenger :=
    h.waitsForHead (by rw [hidle]; exact nofun) (by rw [hidle]; exact nofun)
  unfold SpeechMessenger.readMessage
  extract_lets b' m
  have hm : s.messenger.Unsent m ∧ m.mWaitAckMessageID = s.messenger.mWaitAckMessageID := by
    unfold m
    split
    · exact ⟨.of_eq rfl rfl rfl, rfl⟩
    · exact ⟨.refl _, rfl⟩
  split
  · exact h.of_unsent hm.1 hm.2 (.inl hidle.symm)
  · unfold SpeechMessenger.handleMessage
    split
    · have hkeep := h.of_unsent hm.1 hm.2 (r := .idle) (.inr hwaits)
      exact ⟨hkeep.wf, hkeep.typed, hkeep.stamped, hkeep.ordered, hkeep.below, hkeep.consumed,
        hkeep.accounted, hkeep.head, hkeep.writing, hkeep.looked, .inr ⟨rfl, .inl rfl⟩⟩
    · split
      · exact h.of_unsent hm.1 hm.2 (.inr hwaits)
      · obtain ⟨hu, hw⟩ := unsent_ackHandler cfg m b'
        obtain ⟨hu', hw'⟩ := unsent_answerNotice cfg (m.ackHandler cfg b') b' reply
        have hkeep := h.of_unsent ((hm.1.trans hu).trans hu') ((hw'.trans hw).trans hm.2)
          (r := s.reader) (.inl rfl)
        exact hkeep.matchAck hidle _

/-- The reading thread gives up the queue while nothing is waited for. -/
theorem flush (h : s.QueueInv) (hfree : s.sender = .free)
    (hwait : s.messenger.mWaitAckMessageID = 0) (r : Reader) :
    QueueInv { s with
      messenger := s.messenger.mdResetCheckMessageInQueue cfg
      reader := r } := by
  obtain ⟨hu, hw, hwf, hnil, hfailed⟩ :=
    SpeechMessenger.mdResetCheckMessageInQueue_spec cfg h.wf
  have hend := h.emptied hu hwf hnil (hw.trans hwait) (fun e he n hn => by
    have hneeds := (h.head (by rw [hfree]; exact fun _ _ => nofun) e he).1
    exact hfailed e (List.mem_of_mem_head? he) hneeds n hn) r
  exact hfree ▸ hend

/-- The reading thread discards the head that was acknowledged, while nothing is waited for. -/
theorem consume (h : s.QueueInv) (hfree : s.sender = .free) (hreader : s.reader = .consume)
    (hwait : s.messenger.mWaitAckMessageID = 0) (env : Nat → SendEnv) :
    QueueInv { s with
      messenger := s.messenger.consumeMessageInQueue cfg env
      reader := .idle } := by
  cases hcontents : s.messenger.queue.contents with
  | nil =>
    rw [SpeechMessenger.consumeMessageInQueue_nil env hcontents]
    exact h.of_unsent (.refl _) rfl (.inr (.inl ⟨hcontents, hwait⟩))
  | cons e rest =>
    have hhead : e ∈ s.messenger.queue.contents.head? := by rw [hcontents]; rfl
    have hneeds := (h.head (by rw [hfree]; exact fun _ _ => (by rintro ⟨⟩)) e hhead).1
    -- the head was acknowledged: otherwise it would be waited for
    have hacked : ∀ n, e.ccci_buff.call = some n → n ∈ s.messenger.acked := by
      rcases h.waits with (⟨hnil, -⟩ | ⟨e', he', hw⟩) | ⟨-, hr | ⟨-, hacked⟩⟩
      · exact absurd (hnil.symm.trans hcontents) (by rintro ⟨⟩)
      · cases Option.mem_unique hhead he'
        exact absurd (hw.symm.trans hwait) (ne_zero_of_needAck hneeds)
      · exact absurd (hreader.symm.trans hr) (by rintro ⟨⟩)
      · exact hacked e hhead
    have htyped : SpeechMessenger.Typed rest := fun x hx =>
      h.typed x (hcontents ▸ List.mem_cons_of_mem _ hx)
    have hspec := SpeechMessenger.consumeMessageInQueue_spec cfg env h.wf hcontents htyped
      hwait
    generalize s.messenger.consumeMessageInQueue cfg env = t at hspec
    obtain ⟨k, hk⟩ := h.stamped e (hcontents ▸ List.mem_cons_self)
    have hstart : s.pending = SpeechMessenger.callsOf rest := by
      unfold pending
      rw [hfree, hcontents]
      rfl
    have hend : pending { s with messenger := t, reader := .idle } =
        SpeechMessenger.callsOf t.queue.contents.tail := by
      unfold pending
      rw [hfree]
    have hwritten₀ : (s.messenger.log (.consume e.ccci_buff)).written = s.messenger.written := by
      simp [SpeechMessenger.written, SpeechMessenger.log, SpeechEvent.written]
    have hawaited₀ : (s.messenger.log (.consume e.ccci_buff)).awaited = s.messenger.awaited := by
      simp [SpeechMessenger.awaited, SpeechMessenger.log, SpeechEvent.awaited]
    have hacked₀ : t.acked = s.messenger.acked := by
      rw [hspec.acked]
      simp [SpeechMessenger.acked, SpeechMessenger.log, SpeechEvent.acked]
    have hconsumed₀ : t.consumed = s.messenger.consumed ++ [k] := by
      rw [hspec.consumed]
      simp [SpeechMessenger.consumed, SpeechMessenger.log, SpeechEvent.consumed, hk]
    have hfailed₀ : s.messenger.failed ⊆ t.failed := fun n hn => hspec.failed (by
      simpa [SpeechMessenger.failed, SpeechMessenger.log, SpeechEvent.failed] using hn)
    have hsub : (t.written ++ pending { s with messenger := t, reader := .idle }).Sublist
        (s.messenger.written ++ s.pending) := by
      obtain ⟨w, hw, hsub⟩ := hspec.order
      rw [hend, hstart, hw, hwritten₀, List.append_assoc]
      exact hsub.append_left _
    have hmem : ∀ x ∈ t.queue.contents, x ∈ s.messenger.queue.contents := fun x hx => by
      rw [hcontents]
      exact List.mem_cons_of_mem _ (hspec.suffix.subset hx)
    refine ⟨hspec.wf, fun x hx => h.typed x (hmem x hx), fun x hx => h.stamped x (hmem x hx),
      h.ordered.sublist hsub, ?_, ?_, ?_, ?_, ?_, ?_, ?_⟩
    · intro n hn
      show n < t.calls
      rw [hspec.calls]
      exact h.below n (hsub.subset hn)
    · show ∀ n ∈ t.consumed, n ∈ t.acked
      rw [hconsumed₀, hacked₀]
      intro n hn
      rcases List.mem_append.mp hn with hn | hn
      · exact h.consumed n hn
      · rw [List.mem_singleton.mp hn]
        exact hacked k hk
    · have hold : ∀ n ∈ s.messenger.awaited, n ∈ t.acked ∨ n ∈ t.failed := by
        intro n hn
        rw [hacked₀]
        rcases h.accounted n hn with ha | hf | ⟨x, hx, hc⟩
        · exact .inl ha
        · exact .inr (hfailed₀ hf)
        · cases Option.mem_unique hhead hx
          exact .inl (hacked n hc)
      intro n hn
      have hn' : n ∈ t.awaited := hn
      cases hspec.settled with
      | empty _ _ ha =>
        rw [ha, hawaited₀] at hn'
        exact (hold n hn').imp id .inl
      | waits x rest' hc _ _ _ ha =>
        rw [ha, hawaited₀] at hn'
        rcases List.mem_append.mp hn' with hn' | hn'
        · exact (hold n hn').imp id .inl
        · refine .inr (.inr ⟨x, ?_, Option.mem_toList.mp hn'⟩)
          show x ∈ t.queue.contents.head?
          rw [hc]
          rfl
    · intro _ x hx
      have hx' : x ∈ t.queue.contents.head? := hx
      cases hspec.settled with
      | empty hc => rw [hc] at hx'; exact absurd hx' (by rintro ⟨⟩)
      | waits y rest' hc hn _ hw _ =>
        rw [hc] at hx'
        obtain rfl : y = x := Option.some.inj hx'
        exact ⟨hn, hw⟩
    · intro b data hb
      exact absurd (hfree.symm.trans hb) (by rintro ⟨⟩)
    · intro b hb
      exact absurd (hfree.symm.trans hb) (by rintro ⟨⟩)
    · refine .inl ?_
      cases hspec.settled with
      | empty hc hw _ => exact .inl ⟨hc, hw⟩
      | waits x rest' hc _ hw _ _ => exact .inr ⟨x, by rw [hc]; rfl, hw⟩

/-- The power off is confirmed. -/
theorem confirmEpof (h : s.QueueInv) (hreader : s.reader = .epofAck) (env : SendEnv) :
    QueueInv (s.confirmEpof cfg env) := by
  obtain ⟨hu, hw⟩ := unsent_ownMessage cfg s.messenger 0 0 env (.inr rfl)
  unfold SpeechSystem.confirmEpof
  generalize (s.messenger.sendMessage cfg (initCcciMailbox cfg msgA2mEpofAck 0 0) env).2 = m at hu hw
  have hset : s.messenger.Unsent { m with mIsModemEPOF := true } := hu.trans (.of_eq rfl rfl rfl)
  refine h.of_unsent hset hw (.inr ?_)
  exact h.waitsForHead (by rw [hreader]; exact nofun) (by rw [hreader]; exact nofun)

/-- Every step that keeps the discipline preserves the invariant. -/
theorem step {input : SpeechInput} {t : SpeechSystem} (h : s.QueueInv) (hkept : s.Kept input)
    (hstep : s.step cfg input = some t) : t.QueueInv := by
  unfold SpeechSystem.step at hstep
  split at hstep
  · rename_i hfree
    cases hstep
    exact h.look hfree _ _
  · rename_i hb
    cases hstep
    exact h.enter hb hkept _
  · rename_i hb
    cases hstep
    exact h.leave hb _
  · rename_i hidle
    cases hstep
    exact h.read hidle _ _ _
  · rename_i hfree
    unfold SpeechSystem.underMutex at hstep
    split at hstep
    · cases hstep
      exact h.flush hfree hkept _
    · rename_i hreader
      cases hstep
      exact h.consume hfree hreader hkept _
    · exact absurd hstep nofun
    · exact absurd hstep nofun
  · rename_i hreader
    cases hstep
    exact h.confirmEpof hreader _
  · exact absurd hstep nofun

end QueueInv

end SpeechSystem

/-- In every run in which a message that is not dropped finds room in the queue, and the reading
thread enters the mutex while nothing is waited for, the queue keeps its discipline. -/
theorem speechQueue_disciplined (cfg : Build) (status : UInt32) (buf : Nat → UInt8)
    (para : ParaShareBuf) (inputs : List SpeechInput)
    (h : (speechMachine cfg status buf para).Meets SpeechSystem.Kept
      (speechInit status buf para) inputs) :
    (speechMachine cfg status buf para).Along SpeechSystem.Disciplined
      (speechInit status buf para) inputs :=
  (speechMachine cfg status buf para).along_of_meets
    (fun _ _ _ (hs : SpeechSystem.QueueInv _) hkept hstep => hs.step hkept hstep)
    (fun _ hs => hs.disciplined) (.init status buf para) h

/-- A power off while `SPH_ON` waits for its acknowledgement. -/
def epofWhileWaiting (cfg : Build) : List SpeechInput :=
  [.look (initCcciMailbox cfg msgA2mSphOn 0 0) (some .ready), .enter (some .ready),
    .leave fun _ => .full,
    .read (initCcciMailbox cfg (m2aOf msgA2mEpofAck) 0 0) (some .ready) none,
    .locked fun _ => ⟨some .ready, fun _ => .full⟩,
    .epofAck ⟨some .ready, fun _ => .full⟩]

/-- Shared memory of no use but for the guard areas. -/
def noPara : ParaShareBuf := ⟨2 * ccciSharebufGuardLength, fun _ => 0, 0, 0, true⟩

/-- After a power off the queue is empty, and the acknowledgement of `SPH_ON` is still waited
for. -/
theorem speechQueue_not_disciplined :
    ¬ ∀ cfg status buf para inputs, (speechMachine cfg status buf para).Along
      SpeechSystem.Disciplined (speechInit status buf para) inputs := by
  intro hall
  have hlast := hall ⟨false⟩ 0 (fun _ => 0) noPara (epofWhileWaiting ⟨false⟩)
  have hrun : ((speechMachine ⟨false⟩ 0 (fun _ => 0) noPara).run
      (speechInit 0 (fun _ => 0) noPara) (epofWhileWaiting ⟨false⟩)).map
      (fun t => (t.sender, t.reader, t.messenger.queue.getQueueCount, t.messenger.mWaitAckMessageID))
        = some (.free, .idle, 0, msgA2mSphOn) := by decide +kernel
  obtain ⟨t, ht, hval⟩ := Option.map_eq_some_iff.mp hrun
  simp only [Prod.mk.injEq] at hval
  obtain ⟨hsender, hreader, hcount, hwait⟩ := hval
  have hdisc : t.Disciplined := hlast.last _ ht
  have hne : t.messenger.mWaitAckMessageID ≠ 0 := by
    rw [hwait]
    decide
  exact (hdisc.waits ⟨hsender, hreader⟩).mpr hne (MessageQueue.getQueueCount_eq_zero.mp hcount)

/-- A `SPH_ON` that is acknowledged, and a reset after it. -/
def sphOnAcknowledged (cfg : Build) : List SpeechInput :=
  [.look (initCcciMailbox cfg msgA2mSphOn 0 0) (some .ready), .enter (some .ready),
    .leave fun _ => .full,
    .read (initCcciMailbox cfg (m2aOf msgA2mSphOn) 0 0) (some .ready) none,
    .locked fun _ => ⟨some .ready, fun _ => .full⟩,
    .read (initCcciMailbox cfg (m2aOf msgA2mEmDataRequestAck) 0 0) (some .ready) none,
    .locked fun _ => ⟨some .ready, fun _ => .full⟩]

/-- The discipline along an acknowledged `SPH_ON` and a reset. -/
theorem speechQueue_disciplined_acknowledged :
    (speechMachine ⟨false⟩ 0 (fun _ => 0) noPara).Along SpeechSystem.Disciplined
      (speechInit 0 (fun _ => 0) noPara) (sphOnAcknowledged ⟨false⟩) := by
  refine speechQueue_disciplined ⟨false⟩ 0 (fun _ => 0) noPara _ ?_
  refine .cons _ rfl trivial (.cons _ rfl (fun _ => by decide +kernel) (.cons _ rfl trivial
    (.cons _ rfl trivial (.cons _ rfl ?_ (.cons _ rfl trivial (.cons _ rfl ?_ trivial))))))
  · show SpeechMessenger.mWaitAckMessageID _ = 0
    decide +kernel
  · show SpeechMessenger.mWaitAckMessageID _ = 0
    decide +kernel

end MtkHw.Speech
