import MtkHw.Lib.Machine

/-!
# The display buffer queue

`DisplayBufferQueue` as the calls of its producer and of its consumer, one at a time: each holds
the mutex.  Two of them wait: `dequeueBuffer` for a slot that is free, and `setSynchronousMode` for
the queue to be drained, while other calls go on.  The callers that wait for the queue are counted
in the state, and each of them wakes up in a step of its own.

The memory of the buffers is left out: no call depends on it.
-/

namespace MtkHw.Hwc

open Lib

/-! ## Buffers -/

def INVALID_BUFFER_SLOT : Int := -1

/-- The states of a slot. -/
inductive BufferState where
  | free
  | dequeued
  | queued
  | acquired
  deriving DecidableEq, Repr

structure Rect where
  left : Int
  top : Int
  right : Int
  bottom : Int
  deriving DecidableEq, Repr

/-- `Rect::makeInvalid`. -/
def Rect.invalid : Rect := ⟨0, 0, -1, -1⟩

/-- What the producer says about a frame. -/
structure QueuedInfo where
  src_crop : Rect
  dst_crop : Rect
  is_sharpen : Bool
  data_color_range : Nat
  timestamp : Int
  alpha_enable : Nat
  alpha : UInt8
  blending : Int
  sequence : Nat
  is_s3d : Bool
  s3d_type : Int
  ext_sel_layer : Int

/-- `DisplayBuffer`, as the producer and the consumer see a slot. -/
structure DisplayBuffer where
  info : QueuedInfo
  frame_num : Nat
  acquire_fence : Int
  release_fence : Int
  index : Int

structure BufferSlot where
  state : BufferState
  info : QueuedInfo
  frame_num : Nat
  acquire_fence : Int
  release_fence : Int

/-- What a call returns. -/
inductive Status where
  | noError
  | /-- `-EBUSY`. -/ busy
  | /-- `-EINVAL`. -/ invalid
  | noBufferAvailable
  deriving DecidableEq, Repr

/-- `DisplayBufferQueue`; `draining` are the callers that wait in `drainQueueLocked`, and `closed`
are the fences that have been closed. -/
structure DisplayBufferQueue where
  m_slots : Nat → BufferSlot
  m_buffer_count : Nat
  m_is_synchronous : Bool
  m_queue : List Nat
  m_frame_counter : Nat
  m_last_acquire_idx : Int
  draining : Nat
  closed : List Int

namespace DisplayBufferQueue

/-- The info of a buffer that nobody has filled. -/
def noInfo : QueuedInfo := ⟨.invalid, .invalid, false, 0, 0, 0, 0xFF, 0, 0, false, 0, -1⟩

/-- The constructor. -/
def new (m_buffer_count : Nat) : DisplayBufferQueue where
  m_slots := fun _ => ⟨.free, noInfo, 0, -1, -1⟩
  m_buffer_count := m_buffer_count
  m_is_synchronous := true
  m_queue := []
  m_frame_counter := 0
  m_last_acquire_idx := INVALID_BUFFER_SLOT
  draining := 0
  closed := []

variable (q : DisplayBufferQueue)

/-- Write a slot. -/
def setSlot (idx : Nat) (slot : BufferSlot) : DisplayBufferQueue :=
  { q with m_slots := fun i => if i = idx then slot else q.m_slots i }

/-- A fence is closed, if there is one. -/
def close (fence : Int) : DisplayBufferQueue :=
  if fence = -1 then q else { q with closed := q.closed ++ [fence] }

/-- The index is one of a slot that is in the state. -/
def owned (index : Int) (state : BufferState) : Bool :=
  0 ≤ index ∧ index < q.m_buffer_count ∧ (q.m_slots index.toNat).state = state

/-! ## The producer -/

/-- The loop of `dequeueBuffer`: the oldest of the free buffers. -/
def findFree : Option Nat :=
  (List.range q.m_buffer_count).foldl
    (fun found i =>
      if (q.m_slots i).state = .free then
        match found with
        | none => some i
        | some j => if (q.m_slots i).frame_num < (q.m_slots j).frame_num then some i else some j
      else found) none

/-- `dequeueBuffer`; no result while it waits for a buffer.  A fence that is waited for is
closed. -/
def dequeueBuffer (buffer : DisplayBuffer) (async dequeue_block : Bool) :
    Option (DisplayBufferQueue × DisplayBuffer × Status) :=
  match q.findFree with
  | none => if dequeue_block then none else some (q, buffer, .busy)
  | some idx =>
      let slot := q.m_slots idx
      let q := q.setSlot idx { slot with state := .dequeued, release_fence := -1 }
      let buffer :=
        { buffer with
          info := { buffer.info with
            src_crop := .invalid
            dst_crop := .invalid
            is_sharpen := false
            timestamp := slot.info.timestamp
            ext_sel_layer := -1 }
          frame_num := slot.frame_num
          release_fence := slot.release_fence
          index := idx }
      if async then some (q, buffer, .noError)
      else some (q.close buffer.release_fence, { buffer with release_fence := -1 }, .noError)

/-- The buffer that is queued in asynchronous mode is freed. -/
def freeFront : DisplayBufferQueue :=
  match q.m_queue with
  | [] => q
  | front :: _ => q.setSlot front { q.m_slots front with state := .free }

/-- The queue with one more buffer; in asynchronous mode the first one is overwritten. -/
def enqueue (idx : Nat) : List Nat :=
  if q.m_is_synchronous then q.m_queue ++ [idx]
  else
    match q.m_queue with
    | [] => [idx]
    | _ :: rest => idx :: rest

/-- `queueBuffer`. -/
def queueBuffer (buffer : DisplayBuffer) : DisplayBufferQueue × Status :=
  if q.owned buffer.index .dequeued then
    let idx := buffer.index.toNat
    let freed := if q.m_is_synchronous then q else q.freeFront
    ({ freed.setSlot idx { freed.m_slots idx with
        state := .queued
        info := buffer.info
        frame_num := q.m_frame_counter + 1
        acquire_fence := buffer.acquire_fence } with
      m_queue := q.enqueue idx
      m_frame_counter := q.m_frame_counter + 1 }, .noError)
  else (q, .invalid)

/-- `cancelBuffer`. -/
def cancelBuffer (index : Int) : DisplayBufferQueue × Status :=
  if q.owned index .dequeued then
    let idx := index.toNat
    (q.setSlot idx { q.m_slots idx with
      state := .free
      frame_num := 0
      acquire_fence := -1
      release_fence := -1 }, .noError)
  else (q, .invalid)

/-- `drainQueueLocked` still waits. -/
def drains : Bool := q.m_is_synchronous ∧ q.m_queue ≠ []

/-- `setSynchronousMode`, up to the point where it waits. -/
def setSynchronousMode (enabled : Bool) : DisplayBufferQueue :=
  if q.m_is_synchronous = enabled then q
  else if ¬ enabled ∧ q.drains then { q with draining := q.draining + 1 }
  else { q with m_is_synchronous := enabled }

/-- A caller that waits in `drainQueueLocked` wakes up. -/
def wake : Option DisplayBufferQueue :=
  if q.draining = 0 then none
  else if q.drains then some q
  else some { q with m_is_synchronous := false, draining := q.draining - 1 }

/-! ## The consumer -/

/-- `acquireBuffer`. -/
def acquireBuffer (buffer : DisplayBuffer) (async : Bool) :
    DisplayBufferQueue × DisplayBuffer × Status :=
  match q.m_queue with
  | [] => (q, { buffer with index := INVALID_BUFFER_SLOT }, .noBufferAvailable)
  | idx :: rest =>
      let slot := q.m_slots idx
      let q :=
        { q.setSlot idx { slot with state := .acquired, acquire_fence := -1 } with
          m_queue := rest
          m_last_acquire_idx := idx }
      let buffer :=
        { buffer with
          info := slot.info
          frame_num := slot.frame_num
          acquire_fence := slot.acquire_fence
          index := idx }
      if async then (q, buffer, .noError)
      else (q.close buffer.acquire_fence, { buffer with acquire_fence := -1 }, .noError)

/-- `releaseBuffer`. -/
def releaseBuffer (index fence : Int) : DisplayBufferQueue × Status :=
  if q.owned index .acquired then
    let idx := index.toNat
    let slot := q.m_slots idx
    ((q.setSlot idx { slot with state := .free, release_fence := fence }).close slot.release_fence,
      .noError)
  else (q, .invalid)

end DisplayBufferQueue

end MtkHw.Hwc
