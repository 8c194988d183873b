import MtkHw.Hwc.FrameOrder
import MtkHw.Lib.Custody

/-!
# The fences of the display buffer queue

A slot holds two fences: the acquire fence of the frame that is queued in it, and the release fence
that the consumer has left when it gave the slot back.  The fences that are given to the calls, and
those that the calls hand out or close, are noted down in two ledgers, and the fences that the
slots hold are what the ledgers have to be balanced with.

In asynchronous mode a queued buffer is replaced by the next one, and its slot becomes free with
the acquire fence in it.  Nothing reads that fence again; so the fences are conserved in exactly
those runs in which no buffer is replaced that has one (`fencesConserved_iff`).
-/

namespace MtkHw.Hwc

open Lib

/-- A fence, if it is one. -/
def openFence (fence : Int) : List Int := if fence = -1 then [] else [fence]

theorem openFence_ne_nil {fence : Int} : openFence fence ≠ [] ↔ fence ≠ -1 := by
  rw [openFence]
  split
  · rename_i h
    exact iff_of_false (not_not_intro rfl) (not_not_intro h)
  · rename_i h
    exact iff_of_true (List.cons_ne_nil _ _) h

/-- What a call does with the fences of a slot. -/
structure FenceMoves where
  slot : Nat := 0
  acquire : Handover Int := {}
  release : Handover Int := {}

namespace DisplayBufferQueue

variable (q : DisplayBufferQueue)

/-- The acquire fence in a slot. -/
def acquireFence (i : Nat) : List Int := openFence (q.m_slots i).acquire_fence

/-- The release fence in a slot. -/
def releaseFence (i : Nat) : List Int := openFence (q.m_slots i).release_fence

/-- The fences that have been closed on the way to a later state. -/
def closedBefore (later : DisplayBufferQueue) : List Int := later.closed.drop q.closed.length

/-- What a call does with the fences: only those of calls that succeed are given to the queue, and
what the caller gets back is handed out. -/
def fenceMoves : BufferCall → FenceMoves
  | .dequeue buffer async dequeue_block =>
      match q.dequeueBuffer buffer async dequeue_block with
      | some (later, buffer, .noError) =>
          { slot := buffer.index.toNat
            release :=
              { handedOut := openFence buffer.release_fence, closed := q.closedBefore later } }
      | _ => {}
  | .queue buffer =>
      match q.queueBuffer buffer with
      | (_, .noError) =>
          { slot := buffer.index.toNat, acquire := { given := openFence buffer.acquire_fence } }
      | _ => {}
  | .acquire buffer async =>
      match q.acquireBuffer buffer async with
      | (later, buffer, .noError) =>
          { slot := buffer.index.toNat
            acquire :=
              { handedOut := openFence buffer.acquire_fence, closed := q.closedBefore later } }
      | _ => {}
  | .release index fence =>
      match q.releaseBuffer index fence with
      | (later, .noError) =>
          { slot := index.toNat
            release := { given := openFence fence, closed := q.closedBefore later } }
      | _ => {}
  | .cancel _ | .setSynchronousMode _ | .wake => {}

end DisplayBufferQueue

/-- The queue, and what became of the fences. -/
structure Fenced where
  queue : DisplayBufferQueue
  acquires : Ledger Nat Int
  releases : Ledger Nat Int

/-- The display buffer queue with its ledgers. -/
def fencedQueue (m_buffer_count : Nat) : Machine Fenced BufferCall where
  init := ⟨.new m_buffer_count, {}, {}⟩
  step t c := (t.queue.call c).map fun r =>
    let moves := t.queue.fenceMoves c
    ⟨r.1, t.acquires.record moves.slot moves.acquire, t.releases.record moves.slot moves.release⟩

/-- A fence that is still there waits in a slot where it is handed out later: an acquire fence in
one of the queue, a release fence in one that is free. -/
structure Waiting (q : DisplayBufferQueue) : Prop where
  acquirable : ∀ i, q.acquireFence i ≠ [] → i ∈ q.m_queue
  dequeuable : ∀ i, q.releaseFence i ≠ [] →
    i < q.m_buffer_count ∧ (q.m_slots i).state = .free

/-- A fence of a slot outlives the call, or the call hands it out or closes it. -/
def Outlives (q later : DisplayBufferQueue) (moves : FenceMoves) : Prop :=
  ∀ i f,
    (f ∈ q.acquireFence i → f ∈ later.acquireFence i ∨
      (i = moves.slot ∧ (f ∈ moves.acquire.handedOut ∨ f ∈ moves.acquire.closed))) ∧
    (f ∈ q.releaseFence i → f ∈ later.releaseFence i ∨
      (i = moves.slot ∧ (f ∈ moves.release.handedOut ∨ f ∈ moves.release.closed)))

/-- The fences are conserved: each of them was handed out once, or closed once, or waits in its
slot, and no call overwrites one. -/
structure FencesConserved (t : Fenced) : Prop where
  acquires : t.acquires.Balanced t.queue.acquireFence
  releases : t.releases.Balanced t.queue.releaseFence
  waiting : Waiting t.queue
  outlives : ∀ c r, t.queue.call c = some r → Outlives t.queue r.1 (t.queue.fenceMoves c)

/-- No buffer with an acquire fence is replaced in asynchronous mode. -/
def ReplacesNoFence (t : Fenced) : BufferCall → Prop
  | .queue buffer => t.queue.owned buffer.index .dequeued = true →
      t.queue.m_is_synchronous = false →
        ∀ front ∈ t.queue.m_queue.head?, (t.queue.m_slots front).acquire_fence = -1
  | _ => True

instance (t : Fenced) : ∀ c, Decidable (ReplacesNoFence t c)
  | .queue buffer =>
      inferInstanceAs (Decidable (t.queue.owned buffer.index .dequeued = true →
        t.queue.m_is_synchronous = false →
          ∀ front ∈ t.queue.m_queue.head?, (t.queue.m_slots front).acquire_fence = -1))
  | .dequeue _ _ _ | .cancel _ | .acquire _ _ | .release _ _ | .setSynchronousMode _ | .wake =>
      inferInstanceAs (Decidable True)

/-! ## What a call does -/

variable {q later : DisplayBufferQueue} {history : List BufferEvent} {idx : Nat}

namespace DisplayBufferQueue

theorem close_slots (q : DisplayBufferQueue) (fence : Int) :
    (q.close fence).m_slots = q.m_slots := by
  rw [close]
  split
  · rfl
  · rfl

/-- A fence is closed. -/
theorem closedBefore_close (q later : DisplayBufferQueue) (fence : Int)
    (h : later.closed = q.closed) : q.closedBefore (later.close fence) = openFence fence := by
  rw [closedBefore, close, openFence]
  split
  · rw [h, List.drop_length]
  · rw [h, List.drop_left]

/-- Nothing is closed. -/
theorem closedBefore_eq_nil (h : later.closed = q.closed) : q.closedBefore later = [] := by
  rw [closedBefore, h, List.drop_length]

/-- The slot that is replaced keeps its fences. -/
theorem freeFront_slot (q : DisplayBufferQueue) (i : Nat) :
    (q.freeFront.m_slots i).acquire_fence = (q.m_slots i).acquire_fence ∧
      (q.freeFront.m_slots i).release_fence = (q.m_slots i).release_fence := by
  rw [freeFront]
  split
  · exact ⟨rfl, rfl⟩
  · rename_i front rest hqueue
    by_cases hi : i = front
    · subst hi
      rw [setSlot_self]
      exact ⟨rfl, rfl⟩
    · rw [setSlot_other q _ hi]
      exact ⟨rfl, rfl⟩

end DisplayBufferQueue

open DisplayBufferQueue

/-- What leaves a slot and what stays is what was there and what was given. -/
structure Conserves (q later : DisplayBufferQueue) (moves : FenceMoves) : Prop where
  acquireSelf : (moves.acquire.given ++ q.acquireFence moves.slot).Perm
    (moves.acquire.handedOut ++ moves.acquire.closed ++ later.acquireFence moves.slot)
  acquireOther : ∀ i, i ≠ moves.slot → later.acquireFence i = q.acquireFence i
  releaseSelf : (moves.release.given ++ q.releaseFence moves.slot).Perm
    (moves.release.handedOut ++ moves.release.closed ++ later.releaseFence moves.slot)
  releaseOther : ∀ i, i ≠ moves.slot → later.releaseFence i = q.releaseFence i

/-- The fences that were there are handed out. -/
theorem perm_handedOut {fences closed : List Int} (hclosed : closed = []) :
    ([] ++ fences).Perm (fences ++ closed ++ []) := by
  rw [hclosed, List.append_nil, List.append_nil, List.nil_append]

/-- The fences that were there are closed. -/
theorem perm_closed {fences closed : List Int} (hclosed : closed = fences) :
    ([] ++ fences).Perm ([] ++ closed ++ []) := by
  rw [hclosed, List.append_nil]

/-- The fences that were there are closed, and others take their place. -/
theorem perm_replaced {fences closed given : List Int} (hclosed : closed = fences) :
    (given ++ fences).Perm ([] ++ closed ++ given) := by
  rw [hclosed, List.nil_append]
  exact List.perm_append_comm

namespace Conserves

/-- Nothing happens to the fences. -/
theorem unchanged (hacquire : ∀ i, later.acquireFence i = q.acquireFence i)
    (hrelease : ∀ i, later.releaseFence i = q.releaseFence i) : Conserves q later {} where
  acquireSelf := .of_eq (hacquire 0).symm
  acquireOther i _ := hacquire i
  releaseSelf := .of_eq (hrelease 0).symm
  releaseOther i _ := hrelease i

/-- One slot is written. -/
theorem of_setSlot {slot : BufferSlot} {acquire release : Handover Int}
    (hslots : later.m_slots = (q.setSlot idx slot).m_slots)
    (hacquire : (acquire.given ++ q.acquireFence idx).Perm
      (acquire.handedOut ++ acquire.closed ++ openFence slot.acquire_fence))
    (hrelease : (release.given ++ q.releaseFence idx).Perm
      (release.handedOut ++ release.closed ++ openFence slot.release_fence)) :
    Conserves q later ⟨idx, acquire, release⟩ where
  acquireSelf := by
    have hself : later.acquireFence idx = openFence slot.acquire_fence := by
      rw [acquireFence, hslots, setSlot_self]
    change List.Perm _ (_ ++ later.acquireFence idx)
    rw [hself]
    exact hacquire
  acquireOther i hi := by
    rw [acquireFence, hslots, setSlot_other q slot hi]
    rfl
  releaseSelf := by
    have hself : later.releaseFence idx = openFence slot.release_fence := by
      rw [releaseFence, hslots, setSlot_self]
    change List.Perm _ (_ ++ later.releaseFence idx)
    rw [hself]
    exact hrelease
  releaseOther i hi := by
    rw [releaseFence, hslots, setSlot_other q slot hi]
    rfl

/-- The same from a state with the same fences. -/
theorem congr {start : DisplayBufferQueue} {moves : FenceMoves} (h : Conserves start later moves)
    (hacquire : ∀ i, start.acquireFence i = q.acquireFence i)
    (hrelease : ∀ i, start.releaseFence i = q.releaseFence i) : Conserves q later moves where
  acquireSelf := hacquire _ ▸ h.acquireSelf
  acquireOther i hi := (h.acquireOther i hi).trans (hacquire i)
  releaseSelf := hrelease _ ▸ h.releaseSelf
  releaseOther i hi := (h.releaseOther i hi).trans (hrelease i)

/-- No fence is overwritten. -/
theorem outlives {moves : FenceMoves} (h : Conserves q later moves) :
    Outlives q later moves := by
  intro i f
  by_cases hi : i = moves.slot
  · subst hi
    refine ⟨fun hf => ?_, fun hf => ?_⟩
    · have hmem := h.acquireSelf.subset (List.mem_append_right _ hf)
      rw [List.mem_append, List.mem_append] at hmem
      exact hmem.symm.imp_right fun hleft => ⟨rfl, hleft⟩
    · have hmem := h.releaseSelf.subset (List.mem_append_right _ hf)
      rw [List.mem_append, List.mem_append] at hmem
      exact hmem.symm.imp_right fun hleft => ⟨rfl, hleft⟩
  · rw [h.acquireOther i hi, h.releaseOther i hi]
    exact ⟨.inl, .inl⟩

end Conserves

namespace Waiting

/-- Only fences are closed. -/
theorem close (h : Waiting q) (fence : Int) : Waiting (q.close fence) := by
  rw [DisplayBufferQueue.close]
  split
  · exact h
  · exact ⟨h.acquirable, h.dequeuable⟩

/-- A slot that is not queued has no acquire fence. -/
theorem noAcquire (h : Waiting q) (hinv : Inv q history)
    (hstate : (q.m_slots idx).state ≠ .queued) : q.acquireFence idx = [] := by
  by_contra hfence
  exact hstate ((hinv.queued idx).mp (h.acquirable idx hfence)).2

/-- A slot that is not free has no release fence. -/
theorem noRelease (h : Waiting q) (hstate : (q.m_slots idx).state ≠ .free) :
    q.releaseFence idx = [] := by
  by_contra hfence
  exact hstate (h.dequeuable idx hfence).2

/-- One slot is written, and the queue loses at most that one. -/
theorem of_setSlot {slot : BufferSlot} (h : Waiting q)
    (hslots : later.m_slots = (q.setSlot idx slot).m_slots)
    (hcount : later.m_buffer_count = q.m_buffer_count)
    (hqueue : ∀ i, i ≠ idx → i ∈ q.m_queue → i ∈ later.m_queue)
    (hacquire : slot.acquire_fence ≠ -1 → idx ∈ later.m_queue)
    (hrelease : slot.release_fence ≠ -1 → idx < q.m_buffer_count ∧ slot.state = .free) :
    Waiting later := by
  constructor
  · intro i hfence
    rw [acquireFence, hslots] at hfence
    by_cases hi : i = idx
    · subst hi
      rw [setSlot_self] at hfence
      exact hacquire (openFence_ne_nil.mp hfence)
    · rw [setSlot_other q slot hi] at hfence
      exact hqueue i hi (h.acquirable i hfence)
  · intro i hfence
    rw [releaseFence, hslots] at hfence
    rw [hslots, hcount]
    by_cases hi : i = idx
    · subst hi
      rw [setSlot_self] at hfence ⊢
      exact hrelease (openFence_ne_nil.mp hfence)
    · rw [setSlot_other q slot hi] at hfence ⊢
      exact h.dequeuable i hfence

end Waiting

/-! ## The calls -/

/-- `dequeueBuffer` hands out the release fence of the slot, or closes it. -/
theorem dequeue_conserves (h : Waiting q) {buffer : DisplayBuffer} {async dequeue_block : Bool}
    {r : DisplayBufferQueue × DisplayBuffer × Status}
    (hcall : q.dequeueBuffer buffer async dequeue_block = some r) :
    Conserves q r.1 (q.fenceMoves (.dequeue buffer async dequeue_block)) ∧ Waiting r.1 := by
  rw [fenceMoves, hcall]
  rw [dequeueBuffer] at hcall
  cases hfree : q.findFree with
  | none =>
    rw [hfree] at hcall
    cases dequeue_block with
    | true => cases hcall
    | false =>
      cases hcall
      exact ⟨.unchanged (fun _ => rfl) fun _ => rfl, h⟩
  | some idx =>
    rw [hfree] at hcall
    have hwaiting : Waiting
        (q.setSlot idx { q.m_slots idx with state := .dequeued, release_fence := -1 }) := by
      refine h.of_setSlot rfl rfl (fun _ _ hi => hi) (fun hfence => ?_) fun hfence => ?_
      · exact h.acquirable idx (openFence_ne_nil.mpr hfence)
      · exact absurd rfl hfence
    cases async with
    | true =>
      cases hcall
      exact ⟨.of_setSlot rfl (.of_eq rfl) (perm_handedOut (closedBefore_eq_nil rfl)), hwaiting⟩
    | false =>
      cases hcall
      refine ⟨.of_setSlot (close_slots _ _) (.of_eq rfl) (perm_closed ?_), hwaiting.close _⟩
      exact closedBefore_close _ _ _ rfl

/-- `acquireBuffer` hands out the acquire fence of the slot, or closes it. -/
theorem acquire_conserves (h : Waiting q) (hinv : Inv q history) (buffer : DisplayBuffer)
    (async : Bool) :
    Conserves q (q.acquireBuffer buffer async).1 (q.fenceMoves (.acquire buffer async)) ∧
      Waiting (q.acquireBuffer buffer async).1 := by
  rw [fenceMoves, acquireBuffer]
  cases hqueue : q.m_queue with
  | nil => exact ⟨.unchanged (fun _ => rfl) fun _ => rfl, h⟩
  | cons idx rest =>
    have hstate : (q.m_slots idx).state = .queued :=
      ((hinv.queued idx).mp (by rw [hqueue]; exact List.mem_cons_self)).2
    have hnone : q.releaseFence idx = [] := h.noRelease (by rw [hstate]; rintro ⟨⟩)
    have hwaiting : Waiting { q.setSlot idx { q.m_slots idx with
        state := .acquired, acquire_fence := -1 } with
        m_queue := rest, m_last_acquire_idx := idx } := by
      refine h.of_setSlot rfl rfl (fun i hi hmem => ?_) (fun hfence => ?_) fun hfence => ?_
      · rw [hqueue] at hmem
        exact (List.mem_cons.mp hmem).resolve_left hi
      · exact absurd rfl hfence
      · exact absurd hnone (openFence_ne_nil.mpr hfence)
    cases async with
    | true =>
      exact ⟨.of_setSlot rfl (perm_handedOut (closedBefore_eq_nil rfl)) (.of_eq rfl), hwaiting⟩
    | false =>
      refine ⟨.of_setSlot (close_slots _ _) (perm_closed ?_) (.of_eq rfl), hwaiting.close _⟩
      exact closedBefore_close _ _ _ rfl

/-- `cancelBuffer` drops the fences of a slot that has none. -/
theorem cancel_conserves (h : Waiting q) (hinv : Inv q history) (index : Int) :
    Conserves q (q.cancelBuffer index).1 {} ∧ Waiting (q.cancelBuffer index).1 := by
  rw [cancelBuffer]
  split
  · rename_i howned
    have hstate := (owned_eq_true howned).2
    have hacquire : q.acquireFence index.toNat = [] := h.noAcquire hinv (by rw [hstate]; rintro ⟨⟩)
    have hrelease : q.releaseFence index.toNat = [] := h.noRelease (by rw [hstate]; rintro ⟨⟩)
    refine ⟨.unchanged (fun i => ?_) fun i => ?_, ?_⟩
    · by_cases hi : i = index.toNat
      · rw [hi, hacquire, acquireFence, setSlot_self]
        rfl
      · rw [acquireFence, setSlot_other q _ hi]
        rfl
    · by_cases hi : i = index.toNat
      · rw [hi, hrelease, releaseFence, setSlot_self]
        rfl
      · rw [releaseFence, setSlot_other q _ hi]
        rfl
    · refine h.of_setSlot rfl rfl (fun _ _ hi => hi) (fun hfence => ?_) fun hfence => ?_
      · exact absurd rfl hfence
      · exact absurd rfl hfence
  · exact ⟨.unchanged (fun _ => rfl) fun _ => rfl, h⟩

/-- `releaseBuffer` leaves a fence in the slot, and closes the one that was there. -/
theorem release_conserves (h : Waiting q) (hinv : Inv q history) (index fence : Int) :
    Conserves q (q.releaseBuffer index fence).1 (q.fenceMoves (.release index fence)) ∧
      Waiting (q.releaseBuffer index fence).1 := by
  rw [fenceMoves, releaseBuffer]
  split
  · rename_i howned
    obtain ⟨hidx, hstate⟩ := owned_eq_true howned
    have hnone : q.acquireFence index.toNat = [] := h.noAcquire hinv (by rw [hstate]; rintro ⟨⟩)
    refine ⟨.of_setSlot (close_slots _ _) (.of_eq rfl)
      (perm_replaced (closedBefore_close _ _ _ rfl)), Waiting.close ?_ _⟩
    refine h.of_setSlot rfl rfl (fun _ _ hi => hi) (fun hfence => ?_) fun _ => ⟨hidx, rfl⟩
    exact absurd hnone (openFence_ne_nil.mpr hfence)
  · exact ⟨.unchanged (fun _ => rfl) fun _ => rfl, h⟩

/-- The buffer that is queued in asynchronous mode is dropped, with its fences. -/
theorem Waiting.drop (h : Waiting q) (hinv : Inv q history) (hasync : q.m_is_synchronous = false)
    (hfence : ∀ front ∈ q.m_queue.head?, (q.m_slots front).acquire_fence = -1) :
    Waiting { q.freeFront with m_queue := [] } := by
  rw [freeFront]
  have hlen := hinv.oneDeep hasync
  cases hqueue : q.m_queue with
  | nil =>
    refine ⟨fun i hi => ?_, h.dequeuable⟩
    have hmem := h.acquirable i hi
    rw [hqueue] at hmem
    exact hmem
  | cons front rest =>
    rw [hqueue, List.length_cons] at hlen
    have hnil : rest = [] := List.length_eq_zero_iff.mp (by omega)
    have hqueued := (hinv.queued front).mp (by rw [hqueue]; exact List.mem_cons_self)
    refine h.of_setSlot rfl rfl (fun i hi hmem => ?_) (fun hopen => ?_) fun _ => ⟨hqueued.1, rfl⟩
    · rw [hqueue, hnil, List.mem_singleton] at hmem
      exact absurd hmem hi
    · exact absurd (hfence front (by rw [hqueue]; rfl)) hopen

/-- `queueBuffer` puts the acquire fence into a slot that has none. -/
theorem queue_conserves (h : Waiting q) (hinv : Inv q history) (buffer : DisplayBuffer) :
    Conserves q (q.queueBuffer buffer).1 (q.fenceMoves (.queue buffer)) := by
  rw [fenceMoves, queueBuffer]
  split
  · rename_i howned
    have hstate := (owned_eq_true howned).2
    have hnone : q.acquireFence buffer.index.toNat = [] := h.noAcquire hinv (by
      rw [hstate]
      rintro ⟨⟩)
    have hgiven : ∀ start : DisplayBufferQueue, start.acquireFence buffer.index.toNat = [] →
        (openFence buffer.acquire_fence ++ start.acquireFence buffer.index.toNat).Perm
          ([] ++ [] ++ openFence buffer.acquire_fence) := by
      intro start hstart
      rw [hstart, List.append_nil]
      exact .of_eq rfl
    cases hmode : q.m_is_synchronous with
    | true => exact .of_setSlot rfl (hgiven q hnone) (.of_eq rfl)
    | false =>
      have hacquire : ∀ i, q.freeFront.acquireFence i = q.acquireFence i := fun i =>
        congrArg openFence (freeFront_slot q i).1
      have hrelease : ∀ i, q.freeFront.releaseFence i = q.releaseFence i := fun i =>
        congrArg openFence (freeFront_slot q i).2
      have hwrite := hgiven q.freeFront ((hacquire _).trans hnone)
      exact .congr (.of_setSlot rfl hwrite (.of_eq rfl)) hacquire hrelease
  · exact .unchanged (fun _ => rfl) fun _ => rfl

/-- After `queueBuffer` the fences wait, unless it has replaced a buffer that had one. -/
theorem queue_waiting (h : Waiting q) (hinv : Inv q history) (buffer : DisplayBuffer)
    (hkeeps : q.owned buffer.index .dequeued = true → q.m_is_synchronous = false →
      ∀ front ∈ q.m_queue.head?, (q.m_slots front).acquire_fence = -1) :
    Waiting (q.queueBuffer buffer).1 := by
  rw [queueBuffer]
  split
  · rename_i howned
    obtain ⟨hidx, hstate⟩ := owned_eq_true howned
    have hnone : q.releaseFence buffer.index.toNat = [] := h.noRelease (by rw [hstate]; rintro ⟨⟩)
    have hrelease : (q.m_slots buffer.index.toNat).release_fence = -1 := by
      by_contra hfence
      exact openFence_ne_nil.mpr hfence hnone
    dsimp only
    cases hmode : q.m_is_synchronous with
    | true =>
      have hqueue : q.enqueue buffer.index.toNat = q.m_queue ++ [buffer.index.toNat] := by
        rw [enqueue, hmode]
        rfl
      refine h.of_setSlot rfl rfl (fun i _ hi => ?_) (fun _ => ?_) fun hfence => ?_
      · exact hqueue ▸ List.mem_append_left _ hi
      · exact hqueue ▸ List.mem_append_right _ (List.mem_singleton_self _)
      · exact absurd hrelease hfence
    | false =>
      have hdrop := h.drop hinv hmode (hkeeps howned hmode)
      refine hdrop.of_setSlot rfl rfl (fun i _ hi => ?_) (fun _ => ?_) fun hfence => ?_
      · exact absurd hi List.not_mem_nil
      · change _ ∈ q.enqueue buffer.index.toNat
        rw [enqueue, hmode]
        cases q.m_queue with
        | nil => exact List.mem_cons_self
        | cons front rest => exact List.mem_cons_self
      · exact absurd ((freeFront_slot q _).2.trans hrelease) hfence
  · exact h

/-- The fence of a buffer that is replaced is in a slot that is not queued any more. -/
theorem queue_not_waiting (hinv : Inv q history) (buffer : DisplayBuffer) {front : Nat}
    (howned : q.owned buffer.index .dequeued = true) (hasync : q.m_is_synchronous = false)
    (hfront : front ∈ q.m_queue.head?) (hfence : (q.m_slots front).acquire_fence ≠ -1) :
    ¬Waiting (q.queueBuffer buffer).1 := by
  intro hwaiting
  have hlen := hinv.oneDeep hasync
  cases hqueue : q.m_queue with
  | nil =>
    rw [hqueue] at hfront
    cases hfront
  | cons first rest =>
    rw [hqueue] at hfront hlen
    cases hfront
    rw [List.length_cons] at hlen
    have hnil : rest = [] := List.length_eq_zero_iff.mp (by omega)
    have hqueued := ((hinv.queued front).mp (by rw [hqueue]; exact List.mem_cons_self)).2
    have hne : front ≠ buffer.index.toNat := by
      rintro heq
      rw [heq, (owned_eq_true howned).2] at hqueued
      cases hqueued
    have henqueue : (q.queueBuffer buffer).1.m_queue = [buffer.index.toNat] := by
      rw [queueBuffer, if_pos howned]
      change q.enqueue _ = _
      rw [enqueue, hasync, hqueue, hnil]
      rfl
    have hkept : (q.queueBuffer buffer).1.acquireFence front = q.acquireFence front := by
      rw [queueBuffer, if_pos howned, hasync]
      change openFence ((q.freeFront.setSlot _ _).m_slots front).acquire_fence = _
      rw [setSlot_other _ _ hne, (freeFront_slot q front).1]
      rfl
    have hmem := hwaiting.acquirable front (hkept ▸ openFence_ne_nil.mpr hfence)
    rw [henqueue, List.mem_singleton] at hmem
    exact hne hmem

/-- Setting the mode touches no slot. -/
theorem Waiting.setSynchronousMode (h : Waiting q) (enabled : Bool) :
    Conserves q (q.setSynchronousMode enabled) {} ∧ Waiting (q.setSynchronousMode enabled) := by
  rw [DisplayBufferQueue.setSynchronousMode]
  split
  · exact ⟨.unchanged (fun _ => rfl) fun _ => rfl, h⟩
  · split
    · exact ⟨.unchanged (fun _ => rfl) fun _ => rfl, h.acquirable, h.dequeuable⟩
    · exact ⟨.unchanged (fun _ => rfl) fun _ => rfl, h.acquirable, h.dequeuable⟩

/-- Waking up touches no slot. -/
theorem Waiting.wake (h : Waiting q) (hwake : q.wake = some later) :
    Conserves q later {} ∧ Waiting later := by
  rw [DisplayBufferQueue.wake] at hwake
  split at hwake
  · cases hwake
  · split at hwake
    · cases hwake
      exact ⟨.unchanged (fun _ => rfl) fun _ => rfl, h⟩
    · cases hwake
      exact ⟨.unchanged (fun _ => rfl) fun _ => rfl, h.acquirable, h.dequeuable⟩

section

variable {c : BufferCall} {r : DisplayBufferQueue × Status × Option BufferEvent}

/-- What leaves the slots in a call, and what stays, is what was there and what was given. -/
theorem call_conserves (h : Waiting q) (hinv : Inv q history) (hcall : q.call c = some r) :
    Conserves q r.1 (q.fenceMoves c) := by
  cases c with
  | dequeue buffer async dequeue_block =>
    obtain ⟨r', hr', rfl⟩ := Option.map_eq_some_iff.mp hcall
    exact (dequeue_conserves h hr').1
  | queue buffer =>
    cases hcall
    exact queue_conserves h hinv buffer
  | cancel index =>
    cases hcall
    exact (cancel_conserves h hinv index).1
  | acquire buffer async =>
    cases hcall
    exact (acquire_conserves h hinv buffer async).1
  | release index fence =>
    cases hcall
    exact (release_conserves h hinv index fence).1
  | setSynchronousMode enabled =>
    cases hcall
    exact (h.setSynchronousMode enabled).1
  | wake =>
    obtain ⟨later, hlater, rfl⟩ := Option.map_eq_some_iff.mp hcall
    exact (h.wake hlater).1

/-- The fences wait after a call exactly if it has not replaced a buffer that has one. -/
theorem call_waiting_iff {t : Fenced} (h : Waiting t.queue) (hinv : Inv t.queue history)
    (hcall : t.queue.call c = some r) : Waiting r.1 ↔ ReplacesNoFence t c := by
  cases c with
  | dequeue buffer async dequeue_block =>
    obtain ⟨r', hr', rfl⟩ := Option.map_eq_some_iff.mp hcall
    exact iff_of_true (dequeue_conserves h hr').2 trivial
  | queue buffer =>
    cases hcall
    constructor
    · intro hwaiting howned hasync front hfront
      by_contra hfence
      exact queue_not_waiting hinv buffer howned hasync hfront hfence hwaiting
    · exact queue_waiting h hinv buffer
  | cancel index =>
    cases hcall
    exact iff_of_true (cancel_conserves h hinv index).2 trivial
  | acquire buffer async =>
    cases hcall
    exact iff_of_true (acquire_conserves h hinv buffer async).2 trivial
  | release index fence =>
    cases hcall
    exact iff_of_true (release_conserves h hinv index fence).2 trivial
  | setSynchronousMode enabled =>
    cases hcall
    exact iff_of_true (h.setSynchronousMode enabled).2 trivial
  | wake =>
    obtain ⟨later, hlater, rfl⟩ := Option.map_eq_some_iff.mp hcall
    exact iff_of_true (h.wake hlater).2 trivial

end

/-! ## Runs -/

/-- A new queue has no fences. -/
theorem fencesConserved_new (m_buffer_count : Nat) :
    FencesConserved (fencedQueue m_buffer_count).init := by
  have hwaiting : Waiting (.new m_buffer_count) :=
    ⟨fun _ hfence => absurd rfl hfence, fun _ hfence => absurd rfl hfence⟩
  exact ⟨Ledger.balanced_empty, Ledger.balanced_empty, hwaiting, fun c r hcall =>
    (call_conserves hwaiting (inv_new m_buffer_count) hcall).outlives⟩

/-- A call keeps the fences conserved exactly if it does not replace a buffer that has one. -/
theorem FencesConserved.call_iff {m_buffer_count : Nat} {t t' : Fenced} {c : BufferCall}
    (h : FencesConserved t) (hinv : ∃ history, Inv t.queue history)
    (hstep : (fencedQueue m_buffer_count).step t c = some t') :
    FencesConserved t' ↔ ReplacesNoFence t c := by
  obtain ⟨history, hinv⟩ := hinv
  obtain ⟨r, hcall, rfl⟩ := Option.map_eq_some_iff.mp hstep
  rw [← call_waiting_iff h.waiting hinv hcall]
  refine ⟨fun h' => h'.waiting, fun hwaiting => ?_⟩
  have hconserves := call_conserves h.waiting hinv hcall
  refine ⟨?_, ?_, hwaiting, fun c' r' hcall' => ?_⟩
  · exact h.acquires.record hconserves.acquireSelf hconserves.acquireOther
  · exact h.releases.record hconserves.releaseSelf hconserves.releaseOther
  · exact (call_conserves hwaiting (hinv.call hcall).1 hcall').outlives

/-- The fences are conserved in every state of a run exactly if no call of the run replaces, in
asynchronous mode, a buffer that has an acquire fence. -/
theorem fencesConserved_iff (m_buffer_count : Nat) (calls : List BufferCall) :
    (fencedQueue m_buffer_count).Along FencesConserved (fencedQueue m_buffer_count).init calls ↔
      (fencedQueue m_buffer_count).Meets ReplacesNoFence (fencedQueue m_buffer_count).init
        calls := by
  refine (fencedQueue m_buffer_count).along_iff_meets_of_stuck
    (I := fun t => ∃ history, Inv t.queue history) ?_ ?_ (fun t c t' hinv h hstep => ?_)
    ⟨[], inv_new m_buffer_count⟩ (fencesConserved_new m_buffer_count) calls
  · intro t c hstep
    cases c with
    | queue buffer => cases hstep
    | dequeue _ _ _ | cancel _ | acquire _ _ | release _ _ | setSynchronousMode _ | wake => trivial
  · rintro t c t' ⟨history, hinv⟩ hstep
    obtain ⟨r, hcall, rfl⟩ := Option.map_eq_some_iff.mp hstep
    exact ⟨_, (hinv.call hcall).1⟩
  · exact h.call_iff hinv hstep

/-- A frame is queued with a fence, in whichever slot. -/
def produce (idx : Nat) (fence : Int) : List BufferCall :=
  [.dequeue ⟨noInfo, 0, -1, -1, -1⟩ true false, .queue ⟨noInfo, 0, fence, -1, idx⟩]

/-- Four frames that are queued before the consumer comes: the fence of the first one was neither
handed out nor closed when that of the last one takes its place. -/
theorem replaced_fence_lost :
    ¬(fencedQueue 3).Along FencesConserved (fencedQueue 3).init
      (.setSynchronousMode false :: produce 0 10 ++ produce 1 11 ++ produce 2 12 ++
        produce 0 13) := by
  intro h
  have hlost : ∃ t, (fencedQueue 3).run (fencedQueue 3).init
      (.setSynchronousMode false :: produce 0 10 ++ produce 1 11 ++ produce 2 12 ++
        produce 0 13) = some t ∧ t.acquires.given.count (0, 10) = 1 ∧
        t.acquires.handedOut.count (0, 10) = 0 ∧ t.acquires.closed.count (0, 10) = 0 ∧
        t.queue.acquireFence 0 = [13] := ⟨_, rfl, rfl, rfl, rfl, rfl⟩
  obtain ⟨t, hrun, hgiven, hhanded, hclosed, hheld⟩ := hlost
  have hbalanced := (h.last _ hrun).acquires 0 10
  rw [hgiven, hhanded, hclosed, hheld] at hbalanced
  cases hbalanced

end MtkHw.Hwc
