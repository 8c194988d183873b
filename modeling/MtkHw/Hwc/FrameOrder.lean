import MtkHw.Hwc.BufferQueue

/-!
# The order of the frames

Runs of the display buffer queue, with a history of the calls that succeeded.  The history says
which frames were queued and acquired, and who holds a slot; the invariant relates it to the slots
and to the queue (`Inv`).  What is promised about a state and the next call is `Sound`.
-/

namespace MtkHw.Hwc

open Lib

/-! ## Histories -/

/-- The calls, and a caller that waits waking up. -/
inductive BufferCall where
  | dequeue (buffer : DisplayBuffer) (async dequeue_block : Bool)
  | queue (buffer : DisplayBuffer)
  | cancel (index : Int)
  | acquire (buffer : DisplayBuffer) (async : Bool)
  | release (index fence : Int)
  | setSynchronousMode (enabled : Bool)
  | wake

/-- A call that succeeded, with the slot and the number of the frame. -/
inductive BufferEvent where
  | dequeued (idx : Nat)
  | queued (idx frame_num : Nat) (synchronous : Bool)
  | cancelled (idx : Nat)
  | acquired (idx frame_num : Nat)
  | released (idx : Nat)

/-- The two parties that a slot is handed to. -/
inductive Party where
  | producer
  | consumer
  deriving DecidableEq, Repr

namespace BufferEvent

/-- The slot is handed to a party. -/
def handsOut : BufferEvent → Nat → Option Party
  | dequeued idx, i => if i = idx then some .producer else none
  | acquired idx _, i => if i = idx then some .consumer else none
  | _, _ => none

/-- The slot is given back. -/
def givesBack : BufferEvent → Nat → Bool
  | queued idx _ _, i => i = idx
  | cancelled idx, i => i = idx
  | released idx, i => i = idx
  | _, _ => false

/-- Who holds a slot after the event. -/
def holder (e : BufferEvent) (i : Nat) (before : Option Party) : Option Party :=
  match e.handsOut i with
  | some party => some party
  | none => if e.givesBack i then none else before

/-- The frame that is queued. -/
def queuedFrame : BufferEvent → Option Nat
  | queued _ frame_num _ => some frame_num
  | _ => none

/-- The frame that is queued in synchronous mode. -/
def syncFrame : BufferEvent → Option Nat
  | queued _ frame_num true => some frame_num
  | _ => none

/-- The frame that is acquired. -/
def acquiredFrame : BufferEvent → Option Nat
  | acquired _ frame_num => some frame_num
  | _ => none

end BufferEvent

/-- Who holds a slot. -/
def holder (history : List BufferEvent) (i : Nat) : Option Party :=
  history.foldl (fun before e => e.holder i before) none

/-- The frames that were queued. -/
def queuedFrames (history : List BufferEvent) : List Nat := history.filterMap (·.queuedFrame)

/-- The frames that were queued in synchronous mode. -/
def syncFrames (history : List BufferEvent) : List Nat := history.filterMap (·.syncFrame)

/-- The frames that were acquired. -/
def acquiredFrames (history : List BufferEvent) : List Nat := history.filterMap (·.acquiredFrame)

/-- A slot is handed out only while nobody holds it. -/
def Exclusive (history : List BufferEvent) : Prop :=
  ∀ before e after, history = before ++ e :: after →
    ∀ i, e.handsOut i ≠ none → holder before i = none

theorem holder_snoc (history : List BufferEvent) (e : BufferEvent) (i : Nat) :
    holder (history ++ [e]) i = e.holder i (holder history i) :=
  List.foldl_append

theorem Exclusive.snoc {history : List BufferEvent} {e : BufferEvent} (h : Exclusive history)
    (he : ∀ i, e.handsOut i ≠ none → holder history i = none) : Exclusive (history ++ [e]) := by
  intro before e' after heq i hi
  rcases after.eq_nil_or_concat with rfl | ⟨after', a, rfl⟩
  · obtain ⟨rfl, hlast⟩ := List.append_inj' heq rfl
    cases hlast
    exact he i hi
  · rw [List.concat_eq_append, ← List.cons_append, ← List.append_assoc] at heq
    obtain ⟨rfl, -⟩ := List.append_inj' heq rfl
    exact h before e' after' rfl i hi

/-! ## Runs -/

namespace DisplayBufferQueue

/-- A call, with its status and the event if it succeeds. -/
def call (q : DisplayBufferQueue) :
    BufferCall → Option (DisplayBufferQueue × Status × Option BufferEvent)
  | .dequeue buffer async dequeue_block =>
      (q.dequeueBuffer buffer async dequeue_block).map fun r => (r.1, r.2.2,
        if r.2.2 = .noError then some (.dequeued r.2.1.index.toNat) else none)
  | .queue buffer =>
      let r := q.queueBuffer buffer
      some (r.1, r.2, if r.2 = .noError then
        some (.queued buffer.index.toNat r.1.m_frame_counter q.m_is_synchronous) else none)
  | .cancel index =>
      let r := q.cancelBuffer index
      some (r.1, r.2, if r.2 = .noError then some (.cancelled index.toNat) else none)
  | .acquire buffer async =>
      let r := q.acquireBuffer buffer async
      some (r.1, r.2.2, if r.2.2 = .noError then
        some (.acquired r.2.1.index.toNat r.2.1.frame_num) else none)
  | .release index fence =>
      let r := q.releaseBuffer index fence
      some (r.1, r.2, if r.2 = .noError then some (.released index.toNat) else none)
  | .setSynchronousMode enabled => some (q.setSynchronousMode enabled, .noError, none)
  | .wake => q.wake.map fun q => (q, .noError, none)

/-- The frames that wait in the queue. -/
def waiting (q : DisplayBufferQueue) : List Nat := q.m_queue.map fun i => (q.m_slots i).frame_num

end DisplayBufferQueue

/-- The queue and its history. -/
structure Traced where
  queue : DisplayBufferQueue
  history : List BufferEvent

/-- The display buffer queue as a machine whose steps are the calls. -/
def bufferQueue (m_buffer_count : Nat) : Machine Traced BufferCall where
  init := ⟨.new m_buffer_count, []⟩
  step t c := (t.queue.call c).map fun r => ⟨r.1, t.history ++ r.2.2.toList⟩

/-- What is promised. -/
structure Sound (t : Traced) : Prop where
  /-- The queue has the slots that are queued, in the order of their frames. -/
  queued : ∀ i, i ∈ t.queue.m_queue ↔
    i < t.queue.m_buffer_count ∧ (t.queue.m_slots i).state = .queued
  nodup : t.queue.m_queue.Nodup
  increasing : t.queue.m_queue.Pairwise fun i j =>
    (t.queue.m_slots i).frame_num < (t.queue.m_slots j).frame_num
  oneDeep : t.queue.m_is_synchronous = false → t.queue.m_queue.length ≤ 1
  /-- Frames are acquired in the order in which they are queued, and those of synchronous mode
  are all acquired once, or wait. -/
  numbered : (queuedFrames t.history).Pairwise (· < ·)
  inOrder : (acquiredFrames t.history ++ t.queue.waiting).Sublist (queuedFrames t.history)
  complete : (acquiredFrames t.history ++ t.queue.waiting).filter (· ∈ syncFrames t.history) =
    syncFrames t.history
  /-- In asynchronous mode the most recent frame is acquired. -/
  latest : t.queue.m_is_synchronous = false → ∀ buffer async,
    (t.queue.acquireBuffer buffer async).2.2 = .noError →
      (queuedFrames t.history).getLast? =
        some (t.queue.acquireBuffer buffer async).2.1.frame_num
  /-- In asynchronous mode the slot that is replaced is free. -/
  replaced : t.queue.m_is_synchronous = false → ∀ buffer,
    (t.queue.queueBuffer buffer).2 = .noError → ∀ i ∈ t.queue.m_queue,
      ((t.queue.queueBuffer buffer).1.m_slots i).state = .free
  exclusive : Exclusive t.history
  /-- A call that fails changes nothing. -/
  errors : ∀ c r, t.queue.call c = some r → r.2.1 ≠ .noError →
    r.1.m_slots = t.queue.m_slots ∧ r.1.m_queue = t.queue.m_queue

/-! ## The invariant -/

/-- The party that holds a slot in a state. -/
def BufferState.party : BufferState → Option Party
  | dequeued => some .producer
  | acquired => some .consumer
  | _ => none

/-- The invariant; the frames have the numbers from 1 to the counter, and what waits in
asynchronous mode is the last frame, which was queued in that mode. -/
structure Inv (q : DisplayBufferQueue) (history : List BufferEvent) : Prop where
  queued : ∀ i, i ∈ q.m_queue ↔ i < q.m_buffer_count ∧ (q.m_slots i).state = .queued
  increasing : q.m_queue.Pairwise fun i j => (q.m_slots i).frame_num < (q.m_slots j).frame_num
  bounded : ∀ i, (q.m_slots i).frame_num ≤ q.m_frame_counter
  oneDeep : q.m_is_synchronous = false → q.m_queue.length ≤ 1
  latest : q.m_is_synchronous = false → ∀ i ∈ q.m_queue,
    (q.m_slots i).frame_num = q.m_frame_counter ∧ q.m_frame_counter ∉ syncFrames history
  frames : queuedFrames history = List.range' 1 q.m_frame_counter
  inOrder : (acquiredFrames history ++ q.waiting).Sublist (queuedFrames history)
  complete : (acquiredFrames history ++ q.waiting).filter (· ∈ syncFrames history) =
    syncFrames history
  held : ∀ i, holder history i = (q.m_slots i).state.party
  exclusive : Exclusive history

variable {q q' : DisplayBufferQueue} {history : List BufferEvent} {idx : Nat}

theorem syncFrame_eq_some {e : BufferEvent} {f : Nat} (h : e.syncFrame = some f) :
    e.queuedFrame = some f := by
  cases e with
  | queued idx frame_num synchronous =>
    cases synchronous with
    | false => cases h
    | true => exact h
  | dequeued idx => cases h
  | cancelled idx => cases h
  | acquired idx frame_num => cases h
  | released idx => cases h

/-- The frames of synchronous mode are frames. -/
theorem syncFrames_subset : syncFrames history ⊆ queuedFrames history := by
  intro f hf
  obtain ⟨e, he, hframe⟩ := List.mem_filterMap.mp hf
  exact List.mem_filterMap.mpr ⟨e, he, syncFrame_eq_some hframe⟩

namespace Inv

/-- A frame is not numbered above the counter. -/
theorem frame_le (h : Inv q history) {f : Nat} (hf : f ∈ queuedFrames history) :
    f ≤ q.m_frame_counter := by
  rw [h.frames, List.mem_range'_1] at hf
  omega

theorem nodup (h : Inv q history) : q.m_queue.Nodup :=
  h.increasing.imp fun hlt heq => by
    rw [heq] at hlt
    exact Nat.lt_irrefl _ hlt

/-- Only fences are closed. -/
theorem close (h : Inv q history) (fence : Int) : Inv (q.close fence) history := by
  rw [DisplayBufferQueue.close]
  split
  · exact h
  · exact ⟨h.queued, h.increasing, h.bounded, h.oneDeep, h.latest, h.frames, h.inOrder,
      h.complete, h.held, h.exclusive⟩

end Inv

theorem setSlot_self (q : DisplayBufferQueue) (idx : Nat) (slot : BufferSlot) :
    (q.setSlot idx slot).m_slots idx = slot := if_pos rfl

theorem setSlot_other (q : DisplayBufferQueue) {i : Nat} (slot : BufferSlot) (hi : i ≠ idx) :
    (q.setSlot idx slot).m_slots i = q.m_slots i := if_neg hi

/-- The frames that wait depend only on the slots of the queue. -/
theorem waiting_congr (hqueue : q'.m_queue = q.m_queue)
    (hslots : ∀ i ∈ q.m_queue, (q'.m_slots i).frame_num = (q.m_slots i).frame_num) :
    q'.waiting = q.waiting := by
  rw [DisplayBufferQueue.waiting, DisplayBufferQueue.waiting, hqueue]
  exact List.map_congr_left hslots

/-- A call that neither queues nor acquires a frame moves a slot that is not in the queue. -/
theorem Inv.turn (h : Inv q history) {slot : BufferSlot} {e : BufferEvent}
    (hidx : (q.m_slots idx).state ≠ .queued) (hslot : slot.state ≠ .queued)
    (hframe : slot.frame_num ≤ q.m_frame_counter) (hqueued : e.queuedFrame = none)
    (hacquired : e.acquiredFrame = none)
    (hholder : ∀ i before, e.holder i before = if i = idx then slot.state.party else before)
    (hhands : ∀ i, e.handsOut i ≠ none → holder history i = none) :
    Inv (q.setSlot idx slot) (history ++ [e]) := by
  have hsync : e.syncFrame = none := by
    cases hframe' : e.syncFrame with
    | none => rfl
    | some f =>
      rw [syncFrame_eq_some hframe'] at hqueued
      cases hqueued
  have hqueuedFrames : queuedFrames (history ++ [e]) = queuedFrames history := by
    rw [queuedFrames, List.filterMap_append, List.filterMap_cons_none hqueued, List.filterMap_nil,
      List.append_nil]
    rfl
  have hsyncFrames : syncFrames (history ++ [e]) = syncFrames history := by
    rw [syncFrames, List.filterMap_append, List.filterMap_cons_none hsync, List.filterMap_nil,
      List.append_nil]
    rfl
  have hacquiredFrames : acquiredFrames (history ++ [e]) = acquiredFrames history := by
    rw [acquiredFrames, List.filterMap_append, List.filterMap_cons_none hacquired,
      List.filterMap_nil, List.append_nil]
    rfl
  have hnotMem : idx ∉ q.m_queue := fun hmem => hidx ((h.queued idx).mp hmem).2
  have hkept : ∀ i ∈ q.m_queue, (q.setSlot idx slot).m_slots i = q.m_slots i := by
    intro i hi
    apply setSlot_other
    rintro rfl
    exact hnotMem hi
  have hwaiting : (q.setSlot idx slot).waiting = q.waiting :=
    waiting_congr rfl fun i hi => congrArg BufferSlot.frame_num (hkept i hi)
  constructor
  · intro i
    by_cases hi : i = idx
    · subst hi
      rw [setSlot_self]
      exact iff_of_false hnotMem fun hboth => hslot hboth.2
    · rw [setSlot_other q slot hi]
      exact h.queued i
  · refine h.increasing.imp_of_mem fun hi hj hlt => ?_
    rwa [hkept _ hi, hkept _ hj]
  · intro i
    by_cases hi : i = idx
    · subst hi
      rw [setSlot_self]
      exact hframe
    · rw [setSlot_other q slot hi]
      exact h.bounded i
  · exact h.oneDeep
  · intro hasync i hi
    rw [hkept i hi, hsyncFrames]
    exact h.latest hasync i hi
  · rw [hqueuedFrames]
    exact h.frames
  · rw [hacquiredFrames, hqueuedFrames, hwaiting]
    exact h.inOrder
  · rw [hacquiredFrames, hsyncFrames, hwaiting]
    exact h.complete
  · intro i
    rw [holder_snoc, hholder]
    split
    · rename_i hi
      rw [hi, setSlot_self]
    · rename_i hi
      rw [setSlot_other q slot hi]
      exact h.held i
  · exact h.exclusive.snoc hhands

/-! ## The calls -/

namespace DisplayBufferQueue

theorem owned_eq_true {index : Int} {state : BufferState} (h : q.owned index state = true) :
    index.toNat < q.m_buffer_count ∧ (q.m_slots index.toNat).state = state := by
  obtain ⟨hnonneg, hlt, hstate⟩ := of_decide_eq_true h
  exact ⟨by omega, hstate⟩

/-- The buffer that is found is free. -/
theorem findFree_eq_some (h : q.findFree = some idx) : (q.m_slots idx).state = .free := by
  have hloop : ∀ i, q.findFree = some i → (q.m_slots i).state = .free := by
    rw [findFree]
    refine List.foldlRecOn (motive := fun found => ∀ i, found = some i →
      (q.m_slots i).state = .free) _ _ (by rintro i ⟨⟩) fun found hfound i _ j hj => ?_
    split at hj
    · rename_i hfree
      split at hj
      · cases hj
        exact hfree
      · split at hj
        · cases hj
          exact hfree
        · cases hj
          exact hfound _ rfl
    · exact hfound j hj
  exact hloop idx h

end DisplayBufferQueue

open DisplayBufferQueue

/-- A slot that nobody holds. -/
theorem Inv.holder_eq_none (h : Inv q history) (hstate : (q.m_slots idx).state.party = none) :
    ∀ i, (if i = idx then some Party.producer else none) ≠ none → holder history i = none := by
  intro i hi
  split at hi
  · rename_i heq
    rw [h.held, heq, hstate]
  · exact absurd rfl hi

theorem Inv.dequeue (h : Inv q history) {buffer : DisplayBuffer} {async dequeue_block : Bool}
    {r : DisplayBufferQueue × DisplayBuffer × Status}
    (hcall : q.dequeueBuffer buffer async dequeue_block = some r) :
    (r.1 = q ∧ r.2.2 ≠ .noError) ∨
      (r.2.2 = .noError ∧ Inv r.1 (history ++ [.dequeued r.2.1.index.toNat])) := by
  rw [dequeueBuffer] at hcall
  cases hfree : q.findFree with
  | none =>
    rw [hfree] at hcall
    cases dequeue_block with
    | true => cases hcall
    | false =>
      cases hcall
      exact .inl ⟨rfl, by rintro ⟨⟩⟩
  | some idx =>
    rw [hfree] at hcall
    have hstate := findFree_eq_some hfree
    have hturn : Inv (q.setSlot idx { q.m_slots idx with state := .dequeued, release_fence := -1 })
        (history ++ [.dequeued idx]) := by
      apply h.turn
      · rw [hstate]
        rintro ⟨⟩
      · rintro ⟨⟩
      · exact h.bounded idx
      · rfl
      · rfl
      · intro i before
        rw [BufferEvent.holder, BufferEvent.handsOut]
        split
        · rename_i party hparty
          split at hparty
          · rename_i hi
            cases hparty
            rw [if_pos hi]
            rfl
          · cases hparty
        · rename_i hparty
          split at hparty
          · cases hparty
          · rename_i hi
            rw [if_neg hi]
            rfl
      · exact h.holder_eq_none (by rw [hstate]; rfl)
    cases async with
    | true =>
      cases hcall
      exact .inr ⟨rfl, hturn⟩
    | false =>
      cases hcall
      exact .inr ⟨rfl, hturn.close _⟩

/-- An event that gives a slot back. -/
theorem holder_givesBack {e : BufferEvent} (hhands : ∀ i, e.handsOut i = none)
    (hback : ∀ i, e.givesBack i = decide (i = idx)) (i : Nat) (before : Option Party) :
    e.holder i before = if i = idx then none else before := by
  rw [BufferEvent.holder, hhands, hback]
  by_cases hi : i = idx
  · rw [if_pos hi, decide_eq_true hi]
    rfl
  · rw [if_neg hi, decide_eq_false hi]
    rfl

theorem Inv.cancel (h : Inv q history) (index : Int) :
    (q.cancelBuffer index = (q, .invalid)) ∨
      ((q.cancelBuffer index).2 = .noError ∧
        Inv (q.cancelBuffer index).1 (history ++ [.cancelled index.toNat])) := by
  rw [cancelBuffer]
  split
  · rename_i howned
    have hstate := (owned_eq_true howned).2
    refine .inr ⟨rfl, ?_⟩
    apply h.turn
    · rw [hstate]
      rintro ⟨⟩
    · rintro ⟨⟩
    · exact Nat.zero_le _
    · rfl
    · rfl
    · exact holder_givesBack (fun _ => rfl) fun _ => rfl
    · exact fun i hi => absurd rfl hi
  · exact .inl rfl

theorem Inv.release (h : Inv q history) (index fence : Int) :
    (q.releaseBuffer index fence = (q, .invalid)) ∨
      ((q.releaseBuffer index fence).2 = .noError ∧
        Inv (q.releaseBuffer index fence).1 (history ++ [.released index.toNat])) := by
  rw [releaseBuffer]
  split
  · rename_i howned
    have hstate := (owned_eq_true howned).2
    refine .inr ⟨rfl, ?_⟩
    apply Inv.close
    apply h.turn
    · rw [hstate]
      rintro ⟨⟩
    · rintro ⟨⟩
    · exact h.bounded _
    · rfl
    · rfl
    · exact holder_givesBack (fun _ => rfl) fun _ => rfl
    · exact fun i hi => absurd rfl hi
  · exact .inl rfl

/-- The first buffer of the queue is acquired. -/
theorem Inv.take (h : Inv q history) {rest : List Nat} {slot : BufferSlot}
    (hqueue : q.m_queue = idx :: rest) (hstate : slot.state = .acquired)
    (hframe : slot.frame_num = (q.m_slots idx).frame_num) (last : Int) :
    Inv { q.setSlot idx slot with m_queue := rest, m_last_acquire_idx := last }
      (history ++ [.acquired idx (q.m_slots idx).frame_num]) := by
  have hnodup := h.nodup
  rw [hqueue, List.nodup_cons] at hnodup
  have hrest : ∀ i ∈ rest, (q.setSlot idx slot).m_slots i = q.m_slots i := by
    intro i hi
    apply setSlot_other
    rintro rfl
    exact hnodup.1 hi
  have hqueued : (q.m_slots idx).state = .queued :=
    ((h.queued idx).mp (by rw [hqueue]; exact List.mem_cons_self)).2
  have hqueuedFrames : ∀ e : BufferEvent, e.queuedFrame = none →
      queuedFrames (history ++ [e]) = queuedFrames history := by
    intro e he
    rw [queuedFrames, List.filterMap_append, List.filterMap_cons_none he, List.filterMap_nil,
      List.append_nil]
    rfl
  have hsyncFrames : syncFrames (history ++ [.acquired idx (q.m_slots idx).frame_num]) =
      syncFrames history := by
    rw [syncFrames, List.filterMap_append, List.filterMap_cons_none rfl, List.filterMap_nil,
      List.append_nil]
    rfl
  -- The frame moves from the queue to the frames that are acquired.
  have hmoved : acquiredFrames (history ++ [.acquired idx (q.m_slots idx).frame_num]) ++
      rest.map (fun i => ((q.setSlot idx slot).m_slots i).frame_num) =
        acquiredFrames history ++ q.waiting := by
    rw [acquiredFrames, List.filterMap_append, waiting, hqueue, List.map_cons, List.append_assoc]
    have hmap : rest.map (fun i => ((q.setSlot idx slot).m_slots i).frame_num) =
        rest.map fun i => (q.m_slots i).frame_num :=
      List.map_congr_left fun i hi => congrArg BufferSlot.frame_num (hrest i hi)
    rw [hmap]
    rfl
  constructor
  · intro i
    by_cases hi : i = idx
    · subst hi
      change i ∈ rest ↔ _ ∧ ((q.setSlot i slot).m_slots i).state = .queued
      rw [setSlot_self, hstate]
      exact iff_of_false hnodup.1 fun hboth => nomatch hboth.2
    · change i ∈ rest ↔ i < q.m_buffer_count ∧ ((q.setSlot idx slot).m_slots i).state = .queued
      rw [setSlot_other q slot hi, ← h.queued i, hqueue, List.mem_cons, or_iff_right hi]
  · have hincreasing := h.increasing
    rw [hqueue, List.pairwise_cons] at hincreasing
    refine hincreasing.2.imp_of_mem fun hi hj hlt => ?_
    change ((q.setSlot idx slot).m_slots _).frame_num < ((q.setSlot idx slot).m_slots _).frame_num
    rwa [hrest _ hi, hrest _ hj]
  · intro i
    change ((q.setSlot idx slot).m_slots i).frame_num ≤ q.m_frame_counter
    by_cases hi : i = idx
    · subst hi
      rw [setSlot_self, hframe]
      exact h.bounded i
    · rw [setSlot_other q slot hi]
      exact h.bounded i
  · intro hasync
    have hlen := h.oneDeep hasync
    rw [hqueue, List.length_cons] at hlen
    exact Nat.le_of_succ_le hlen
  · intro hasync i hi
    have hlen := h.oneDeep hasync
    rw [hqueue, List.length_cons] at hlen
    have hnil : rest = [] := List.length_eq_zero_iff.mp (by omega)
    change i ∈ rest at hi
    rw [hnil] at hi
    exact absurd hi List.not_mem_nil
  · rw [hqueuedFrames _ rfl]
    exact h.frames
  · rw [hqueuedFrames _ rfl]
    exact hmoved ▸ h.inOrder
  · rw [hsyncFrames]
    exact hmoved ▸ h.complete
  · intro i
    rw [holder_snoc]
    change _ = ((q.setSlot idx slot).m_slots i).state.party
    by_cases hi : i = idx
    · subst hi
      rw [setSlot_self, hstate, BufferEvent.holder, BufferEvent.handsOut, if_pos rfl]
      rfl
    · rw [setSlot_other q slot hi, BufferEvent.holder, BufferEvent.handsOut, if_neg hi]
      exact h.held i
  · refine h.exclusive.snoc fun i hi => ?_
    rw [BufferEvent.handsOut] at hi
    split at hi
    · rename_i heq
      rw [h.held, heq, hqueued]
      rfl
    · exact absurd rfl hi

theorem Inv.acquire (h : Inv q history) (buffer : DisplayBuffer) (async : Bool) :
    ((q.acquireBuffer buffer async).1 = q ∧
        (q.acquireBuffer buffer async).2.2 = .noBufferAvailable) ∨
      ((q.acquireBuffer buffer async).2.2 = .noError ∧
        Inv (q.acquireBuffer buffer async).1
          (history ++ [.acquired (q.acquireBuffer buffer async).2.1.index.toNat
            (q.acquireBuffer buffer async).2.1.frame_num])) := by
  rw [acquireBuffer]
  split
  · exact .inl ⟨rfl, rfl⟩
  · rename_i idx rest hqueue
    have htake : Inv { q.setSlot idx { q.m_slots idx with
        state := .acquired, acquire_fence := -1 } with
        m_queue := rest, m_last_acquire_idx := idx }
        (history ++ [.acquired idx (q.m_slots idx).frame_num]) := by
      apply h.take hqueue
      · rfl
      · rfl
    cases async with
    | true => exact .inr ⟨rfl, htake⟩
    | false => exact .inr ⟨rfl, htake.close _⟩

/-- The buffer that is queued in asynchronous mode is dropped. -/
theorem Inv.drop (h : Inv q history) (slot : BufferSlot) (hasync : q.m_is_synchronous = false)
    (hqueue : q.m_queue = [idx]) (hstate : slot.state = .free)
    (hframe : slot.frame_num = (q.m_slots idx).frame_num) :
    Inv { q.setSlot idx slot with m_queue := [] } history := by
  have hlatest := h.latest hasync idx (by rw [hqueue]; exact List.mem_cons_self)
  have hwaiting : q.waiting = [q.m_frame_counter] := by
    rw [waiting, hqueue, List.map_singleton, hlatest.1]
  have hqueued := (h.queued idx).mp (by rw [hqueue]; exact List.mem_cons_self)
  constructor
  · intro i
    refine iff_of_false List.not_mem_nil fun hboth => ?_
    change _ ∧ ((q.setSlot idx slot).m_slots i).state = .queued at hboth
    by_cases hi : i = idx
    · subst hi
      rw [setSlot_self, hstate] at hboth
      cases hboth.2
    · rw [setSlot_other q slot hi] at hboth
      have hmem := (h.queued i).mpr hboth
      rw [hqueue, List.mem_singleton] at hmem
      exact hi hmem
  · exact .nil
  · intro i
    change ((q.setSlot idx slot).m_slots i).frame_num ≤ q.m_frame_counter
    by_cases hi : i = idx
    · subst hi
      rw [setSlot_self, hframe]
      exact h.bounded i
    · rw [setSlot_other q slot hi]
      exact h.bounded i
  · exact fun _ => Nat.zero_le 1
  · exact fun _ i hi => absurd hi List.not_mem_nil
  · exact h.frames
  · have hinOrder := h.inOrder
    change (acquiredFrames history ++ []).Sublist _
    rw [List.append_nil]
    exact (List.sublist_append_left _ _).trans hinOrder
  · have hcomplete := h.complete
    change (acquiredFrames history ++ []).filter _ = _
    rw [hwaiting, List.filter_append, List.filter_cons_of_neg (by simpa using hlatest.2),
      List.filter_nil, List.append_nil] at hcomplete
    rw [List.append_nil]
    exact hcomplete
  · intro i
    change _ = ((q.setSlot idx slot).m_slots i).state.party
    by_cases hi : i = idx
    · subst hi
      rw [h.held, setSlot_self, hstate, hqueued.2]
      rfl
    · rw [setSlot_other q slot hi]
      exact h.held i
  · exact h.exclusive

/-- A buffer is queued behind what is in the queue; in asynchronous mode nothing is. -/
theorem Inv.push (h : Inv q history) (slot : BufferSlot) (hidx : idx < q.m_buffer_count)
    (hnot : (q.m_slots idx).state ≠ .queued) (hempty : q.m_is_synchronous = false → q.m_queue = [])
    (hstate : slot.state = .queued) (hframe : slot.frame_num = q.m_frame_counter + 1) :
    Inv { q.setSlot idx slot with
      m_queue := q.m_queue ++ [idx], m_frame_counter := q.m_frame_counter + 1 }
      (history ++ [.queued idx (q.m_frame_counter + 1) q.m_is_synchronous]) := by
  have hnotMem : idx ∉ q.m_queue := fun hmem => hnot ((h.queued idx).mp hmem).2
  have hkept : ∀ i ∈ q.m_queue, (q.setSlot idx slot).m_slots i = q.m_slots i := by
    intro i hi
    apply setSlot_other
    rintro rfl
    exact hnotMem hi
  have hqueuedFrames : queuedFrames
      (history ++ [.queued idx (q.m_frame_counter + 1) q.m_is_synchronous]) =
        queuedFrames history ++ [q.m_frame_counter + 1] := by
    rw [queuedFrames, List.filterMap_append]
    rfl
  have hacquiredFrames : acquiredFrames
      (history ++ [.queued idx (q.m_frame_counter + 1) q.m_is_synchronous]) =
        acquiredFrames history := by
    rw [acquiredFrames, List.filterMap_append, List.filterMap_cons_none rfl, List.filterMap_nil,
      List.append_nil]
    rfl
  have hwaiting : (q.m_queue ++ [idx]).map (fun i => ((q.setSlot idx slot).m_slots i).frame_num) =
      q.waiting ++ [q.m_frame_counter + 1] := by
    rw [List.map_append, List.map_singleton, setSlot_self, hframe]
    exact congrArg (· ++ _)
      (List.map_congr_left fun i hi => congrArg BufferSlot.frame_num (hkept i hi))
  have hle : ∀ f ∈ acquiredFrames history ++ q.waiting, f ≤ q.m_frame_counter :=
    fun f hf => h.frame_le (h.inOrder.subset hf)
  have hnew : q.m_frame_counter + 1 ∉ syncFrames history := by
    intro hmem
    have hbound := h.frame_le (syncFrames_subset hmem)
    omega
  constructor
  · intro i
    change i ∈ q.m_queue ++ [idx] ↔
      i < q.m_buffer_count ∧ ((q.setSlot idx slot).m_slots i).state = .queued
    rw [List.mem_append, List.mem_singleton]
    by_cases hi : i = idx
    · subst hi
      rw [setSlot_self]
      exact iff_of_true (.inr rfl) ⟨hidx, hstate⟩
    · rw [setSlot_other q slot hi, or_iff_left hi]
      exact h.queued i
  · change (q.m_queue ++ [idx]).Pairwise fun i j =>
      ((q.setSlot idx slot).m_slots i).frame_num < ((q.setSlot idx slot).m_slots j).frame_num
    refine List.pairwise_append.mpr ⟨?_, List.pairwise_singleton _ _, fun i hi j hj => ?_⟩
    · refine h.increasing.imp_of_mem fun hi hj hlt => ?_
      rwa [hkept _ hi, hkept _ hj]
    · cases List.mem_singleton.mp hj
      rw [hkept i hi, setSlot_self, hframe]
      exact Nat.lt_succ_of_le (h.bounded i)
  · intro i
    change ((q.setSlot idx slot).m_slots i).frame_num ≤ q.m_frame_counter + 1
    by_cases hi : i = idx
    · subst hi
      refine Nat.le_of_eq ?_
      rw [setSlot_self, hframe]
    · rw [setSlot_other q slot hi]
      exact Nat.le_succ_of_le (h.bounded i)
  · intro hasync
    change (q.m_queue ++ [idx]).length ≤ 1
    refine Nat.le_of_eq ?_
    rw [hempty hasync]
    rfl
  · intro hasync i hi
    change i ∈ q.m_queue ++ [idx] at hi
    rw [hempty hasync, List.nil_append, List.mem_singleton] at hi
    subst hi
    change ((q.setSlot i slot).m_slots i).frame_num = _ ∧ _
    rw [setSlot_self]
    refine ⟨hframe, ?_⟩
    have hmode : q.m_is_synchronous = false := hasync
    rw [syncFrames, List.filterMap_append, hmode, List.filterMap_cons_none rfl,
      List.filterMap_nil, List.append_nil]
    exact hnew
  · change _ = List.range' 1 (q.m_frame_counter + 1)
    rw [hqueuedFrames, h.frames, List.range'_1_concat, Nat.add_comm 1]
  · rw [hqueuedFrames, hacquiredFrames]
    change (acquiredFrames history ++ (q.m_queue ++ [idx]).map _).Sublist _
    rw [hwaiting, ← List.append_assoc]
    exact h.inOrder.append_right _
  · rw [hacquiredFrames]
    change (acquiredFrames history ++ (q.m_queue ++ [idx]).map _).filter _ = _
    rw [hwaiting, ← List.append_assoc, List.filter_append]
    cases hmode : q.m_is_synchronous with
    | false =>
      have hsync : syncFrames (history ++ [.queued idx (q.m_frame_counter + 1) false]) =
          syncFrames history := by
        rw [syncFrames, List.filterMap_append, List.filterMap_cons_none rfl, List.filterMap_nil,
          List.append_nil]
        rfl
      rw [hsync, h.complete, List.filter_cons_of_neg (by simpa using hnew), List.filter_nil,
        List.append_nil]
    | true =>
      have hsync : syncFrames (history ++ [.queued idx (q.m_frame_counter + 1) true]) =
          syncFrames history ++ [q.m_frame_counter + 1] := by
        rw [syncFrames, List.filterMap_append]
        rfl
      have hold : (acquiredFrames history ++ q.waiting).filter
          (· ∈ syncFrames history ++ [q.m_frame_counter + 1]) =
            (acquiredFrames history ++ q.waiting).filter (· ∈ syncFrames history) := by
        refine List.filter_congr fun f hf => decide_eq_decide.mpr ?_
        rw [List.mem_append, List.mem_singleton]
        refine or_iff_left fun heq => ?_
        have hbound := hle f hf
        omega
      rw [hsync, hold, h.complete, List.filter_cons_of_pos (by simp), List.filter_nil]
  · intro i
    rw [holder_snoc]
    change _ = ((q.setSlot idx slot).m_slots i).state.party
    rw [holder_givesBack (fun _ => rfl) (fun _ => rfl)]
    by_cases hi : i = idx
    · rw [if_pos hi, hi, setSlot_self, hstate]
      rfl
    · rw [if_neg hi, setSlot_other q slot hi]
      exact h.held i
  · exact h.exclusive.snoc fun i hi => absurd rfl hi

theorem Inv.queue (h : Inv q history) (buffer : DisplayBuffer) :
    (q.queueBuffer buffer = (q, .invalid)) ∨
      ((q.queueBuffer buffer).2 = .noError ∧
        Inv (q.queueBuffer buffer).1 (history ++ [.queued buffer.index.toNat
          (q.queueBuffer buffer).1.m_frame_counter q.m_is_synchronous])) := by
  rw [queueBuffer]
  split
  · rename_i howned
    obtain ⟨hidx, hstate⟩ := owned_eq_true howned
    refine .inr ⟨rfl, ?_⟩
    have hnot : (q.m_slots buffer.index.toNat).state ≠ .queued := by
      rw [hstate]
      rintro ⟨⟩
    dsimp only
    rw [enqueue]
    cases hmode : q.m_is_synchronous with
    | true =>
      have hpush := h.push { q.m_slots buffer.index.toNat with
        state := .queued, info := buffer.info, frame_num := q.m_frame_counter + 1,
        acquire_fence := buffer.acquire_fence } hidx hnot (by rw [hmode]; rintro ⟨⟩) rfl rfl
      rw [hmode] at hpush
      exact hpush
    | false =>
      rw [freeFront]
      cases hqueue : q.m_queue with
      | nil =>
        have hpush := h.push { q.m_slots buffer.index.toNat with
          state := .queued, info := buffer.info, frame_num := q.m_frame_counter + 1,
          acquire_fence := buffer.acquire_fence } hidx hnot (fun _ => hqueue) rfl rfl
        rw [hmode, hqueue] at hpush
        exact hpush
      | cons front rest =>
        have hlen := h.oneDeep hmode
        rw [hqueue, List.length_cons] at hlen
        have hnil : rest = [] := List.length_eq_zero_iff.mp (by omega)
        subst hnil
        have hdrop := h.drop { q.m_slots front with state := .free } hmode hqueue rfl rfl
        have hfront : buffer.index.toNat ≠ front := by
          intro heq
          apply hnot
          rw [heq]
          exact ((h.queued front).mp (by rw [hqueue]; exact List.mem_cons_self)).2
        have hslot := setSlot_other q { q.m_slots front with state := .free } hfront
        have hpush := hdrop.push { (q.setSlot front { q.m_slots front with
            state := .free }).m_slots buffer.index.toNat with
          state := .queued, info := buffer.info, frame_num := q.m_frame_counter + 1,
          acquire_fence := buffer.acquire_fence } hidx (hslot ▸ hnot) (fun _ => rfl) rfl rfl
        have hsame : ({ q.setSlot front { q.m_slots front with state := .free } with
            m_queue := [] } : DisplayBufferQueue).m_is_synchronous = false := hmode
        rw [hsame] at hpush
        exact hpush
  · exact .inl rfl

/-- The mode is switched, or a caller begins to wait. -/
theorem Inv.setSynchronousMode (h : Inv q history) (enabled : Bool) :
    Inv (q.setSynchronousMode enabled) history := by
  rw [DisplayBufferQueue.setSynchronousMode]
  split
  · exact h
  · rename_i hmode
    split
    · exact ⟨h.queued, h.increasing, h.bounded, h.oneDeep, h.latest, h.frames, h.inOrder,
        h.complete, h.held, h.exclusive⟩
    · rename_i hdrained
      have hempty : enabled = false → q.m_queue = [] := by
        rintro rfl
        by_contra hqueue
        refine hdrained ⟨Bool.false_ne_true, decide_eq_true ⟨?_, hqueue⟩⟩
        exact Bool.not_eq_false _ ▸ hmode
      refine ⟨h.queued, h.increasing, h.bounded, fun hasync => ?_, fun hasync i hi => ?_, h.frames,
        h.inOrder, h.complete, h.held, h.exclusive⟩
      · change q.m_queue.length ≤ 1
        rw [hempty hasync]
        exact Nat.zero_le 1
      · change i ∈ q.m_queue at hi
        rw [hempty hasync] at hi
        exact absurd hi List.not_mem_nil

theorem Inv.wake (h : Inv q history) (hwake : q.wake = some q') : Inv q' history := by
  rw [DisplayBufferQueue.wake] at hwake
  split at hwake
  · cases hwake
  · split at hwake
    · cases hwake
      exact h
    · rename_i hdrained
      cases hwake
      have hempty : q.m_is_synchronous = false ∨ q.m_queue = [] := by
        by_contra hboth
        rw [not_or, Bool.not_eq_false] at hboth
        exact hdrained (decide_eq_true hboth)
      refine ⟨h.queued, h.increasing, h.bounded, fun _ => ?_, fun _ i hi => ?_, h.frames, h.inOrder,
        h.complete, h.held, h.exclusive⟩
      · rcases hempty with hasync | hnil
        · exact h.oneDeep hasync
        · change q.m_queue.length ≤ 1
          rw [hnil]
          exact Nat.zero_le 1
      · rcases hempty with hasync | hnil
        · exact h.latest hasync i hi
        · change i ∈ q.m_queue at hi
          rw [hnil] at hi
          exact absurd hi List.not_mem_nil

/-- A call keeps the invariant, and changes nothing if it fails. -/
theorem Inv.call (h : Inv q history) {c : BufferCall}
    {r : DisplayBufferQueue × Status × Option BufferEvent} (hcall : q.call c = some r) :
    Inv r.1 (history ++ r.2.2.toList) ∧ (r.2.1 ≠ .noError → r.1 = q) := by
  cases c with
  | dequeue buffer async dequeue_block =>
    obtain ⟨r', hr', rfl⟩ := Option.map_eq_some_iff.mp hcall
    rcases h.dequeue hr' with ⟨hsame, hstatus⟩ | ⟨hstatus, hinv⟩
    · dsimp only
      rw [if_neg hstatus, hsame, Option.toList_none, List.append_nil]
      exact ⟨h, fun _ => rfl⟩
    · dsimp only
      rw [if_pos hstatus]
      exact ⟨hinv, fun hne => absurd hstatus hne⟩
  | queue buffer =>
    cases hcall
    rcases h.queue buffer with hsame | ⟨hstatus, hinv⟩
    · dsimp only
      rw [hsame]
      exact ⟨(List.append_nil history).symm ▸ h, fun _ => rfl⟩
    · dsimp only
      rw [if_pos hstatus]
      exact ⟨hinv, fun hne => absurd hstatus hne⟩
  | cancel index =>
    cases hcall
    rcases h.cancel index with hsame | ⟨hstatus, hinv⟩
    · dsimp only
      rw [hsame]
      exact ⟨(List.append_nil history).symm ▸ h, fun _ => rfl⟩
    · dsimp only
      rw [if_pos hstatus]
      exact ⟨hinv, fun hne => absurd hstatus hne⟩
  | acquire buffer async =>
    cases hcall
    rcases h.acquire buffer async with ⟨hsame, hstatus⟩ | ⟨hstatus, hinv⟩
    · dsimp only
      rw [hsame, hstatus, if_neg (by rintro ⟨⟩), Option.toList_none, List.append_nil]
      exact ⟨h, fun _ => rfl⟩
    · dsimp only
      rw [if_pos hstatus]
      exact ⟨hinv, fun hne => absurd hstatus hne⟩
  | release index fence =>
    cases hcall
    rcases h.release index fence with hsame | ⟨hstatus, hinv⟩
    · dsimp only
      rw [hsame]
      exact ⟨(List.append_nil history).symm ▸ h, fun _ => rfl⟩
    · dsimp only
      rw [if_pos hstatus]
      exact ⟨hinv, fun hne => absurd hstatus hne⟩
  | setSynchronousMode enabled =>
    cases hcall
    exact ⟨(List.append_nil history).symm ▸ h.setSynchronousMode enabled,
      fun hne => absurd rfl hne⟩
  | wake =>
    obtain ⟨q', hq', rfl⟩ := Option.map_eq_some_iff.mp hcall
    exact ⟨(List.append_nil history).symm ▸ h.wake hq', fun hne => absurd rfl hne⟩

theorem inv_new (m_buffer_count : Nat) : Inv (.new m_buffer_count) [] where
  queued i := iff_of_false List.not_mem_nil fun hboth => nomatch hboth.2
  increasing := .nil
  bounded _ := Nat.le_refl 0
  oneDeep _ := Nat.zero_le 1
  latest _ i hi := absurd hi List.not_mem_nil
  frames := rfl
  inOrder := .slnil
  complete := rfl
  held _ := rfl
  exclusive := fun before e after heq => by
    rw [List.nil_eq, List.append_eq_nil_iff] at heq
    cases heq.2

/-- In asynchronous mode what is acquired is the last frame. -/
theorem Inv.latest_acquired (h : Inv q history) (hasync : q.m_is_synchronous = false)
    (buffer : DisplayBuffer) (async : Bool)
    (hstatus : (q.acquireBuffer buffer async).2.2 = .noError) :
    (queuedFrames history).getLast? = some (q.acquireBuffer buffer async).2.1.frame_num := by
  cases hqueue : q.m_queue with
  | nil =>
    rw [acquireBuffer, hqueue] at hstatus
    cases hstatus
  | cons idx rest =>
    have hmem : idx ∈ q.m_queue := by
      rw [hqueue]
      exact List.mem_cons_self
    have hframe : (q.acquireBuffer buffer async).2.1.frame_num = (q.m_slots idx).frame_num := by
      rw [acquireBuffer, hqueue]
      cases async with
      | true => rfl
      | false => rfl
    have hwaits : (q.m_slots idx).frame_num ∈ queuedFrames history :=
      h.inOrder.subset (List.mem_append_right _ (List.mem_map_of_mem hmem))
    rw [hframe, (h.latest hasync idx hmem).1]
    rw [(h.latest hasync idx hmem).1, h.frames, List.mem_range'_1] at hwaits
    rw [h.frames, List.getLast?_range', if_neg (by omega), Nat.add_sub_cancel_left]

/-- In asynchronous mode the buffer that was queued before is free. -/
theorem Inv.replaced_free (h : Inv q history) (hasync : q.m_is_synchronous = false)
    (buffer : DisplayBuffer) (hstatus : (q.queueBuffer buffer).2 = .noError) {i : Nat}
    (hi : i ∈ q.m_queue) : ((q.queueBuffer buffer).1.m_slots i).state = .free := by
  rw [queueBuffer] at hstatus ⊢
  split at hstatus
  · rename_i howned
    have hne : i ≠ buffer.index.toNat := by
      rintro rfl
      have hqueued := ((h.queued _).mp hi).2
      rw [(owned_eq_true howned).2] at hqueued
      cases hqueued
    rw [if_pos howned, hasync]
    have hlen := h.oneDeep hasync
    cases hqueue : q.m_queue with
    | nil =>
      rw [hqueue] at hi
      exact absurd hi List.not_mem_nil
    | cons front rest =>
      rw [hqueue, List.length_cons] at hlen
      have hnil : rest = [] := List.length_eq_zero_iff.mp (by omega)
      rw [hqueue, hnil, List.mem_singleton] at hi
      subst hi
      have hfreed : q.freeFront = q.setSlot i { q.m_slots i with state := .free } := by
        rw [freeFront, hqueue]
      change ((q.freeFront.setSlot _ _).m_slots i).state = .free
      rw [setSlot_other _ _ hne, hfreed, setSlot_self]
  · cases hstatus

theorem Inv.sound (h : Inv q history) : Sound ⟨q, history⟩ where
  queued := h.queued
  nodup := h.nodup
  increasing := h.increasing
  oneDeep := h.oneDeep
  numbered := by
    rw [h.frames]
    exact List.pairwise_lt_range'
  inOrder := h.inOrder
  complete := h.complete
  latest := h.latest_acquired
  replaced hasync buffer hstatus _ hi := h.replaced_free hasync buffer hstatus hi
  exclusive := h.exclusive
  errors c r hcall hstatus := by
    rw [(h.call hcall).2 hstatus]
    exact ⟨rfl, rfl⟩

/-- No frame is lost, duplicated or reordered, in every state of every run. -/
theorem bufferQueue_sound (m_buffer_count : Nat) (calls : List BufferCall) :
    (bufferQueue m_buffer_count).Along Sound (bufferQueue m_buffer_count).init calls := by
  have hstep : ∀ t c t', Inv t.queue t.history → (bufferQueue m_buffer_count).step t c = some t' →
      Inv t'.queue t'.history := by
    intro t c t' h hcall
    obtain ⟨r, hr, rfl⟩ := Option.map_eq_some_iff.mp hcall
    exact (h.call hr).1
  have himp : ∀ t : Traced, Inv t.queue t.history → Sound t := fun t h => h.sound
  exact (bufferQueue m_buffer_count).along_of_invariant hstep himp (inv_new m_buffer_count) calls

end MtkHw.Hwc
