import MtkHw.Lib.LinkedList
import MtkHw.Mux.Defs

/-!
# The frame list: `_fl_pushFrame` and `_fl_popFrame`

Frames that cannot be written to a pseudo terminal wait in a circular linked list
(`GSM0710_FrameList`).  The channel points to a cell without a frame, whose
successor holds the oldest one; a push fills that cell and returns a new one.

The functions work on a heap of cells, and fail (`none`) when they go through a
null or a dangling pointer.  On a list that represents a queue of frames they
never do, and they are the operations of the queue.
-/

namespace MtkHw.Mux

open Lib

/-- The cells of `GSM0710_FrameList`. -/
abbrev FrameHeap := Heap GSM0710Frame

/-- `_fl_isEmpty`: a null list is empty. -/
def flIsEmpty (heap : FrameHeap) : Option Nat → Option Bool
  | none => some true
  | some list => (heap.cell list).map fun sentinel => sentinel.next == list

/-- `_fl_popFrame` -/
def flPopFrame (heap : FrameHeap) (list : Option Nat) : Option (Option GSM0710Frame × FrameHeap) := do
  if ← flIsEmpty heap list then
    return (none, heap)
  else
    let list ← list
    let sentinel ← heap.cell list
    let node ← heap.cell sentinel.next
    return (node.value, (heap.store list { sentinel with next := node.next }).free sentinel.next)

/-- `_fl_pushFrame` -/
def flPushFrame (heap : FrameHeap) (list : Option Nat) (frame : GSM0710Frame) :
    Option (Nat × FrameHeap) := do
  let list ← list
  let sentinel ← heap.cell list
  let head := heap.top
  return (head, (heap.alloc sentinel).store list ⟨some frame, head⟩)

/-- `_fl_cleanNodes`, for a list of fewer than `fuel` frames. -/
def flCleanNodes (list : Nat) : Nat → FrameHeap → Option FrameHeap
  | 0, _ => none
  | fuel + 1, heap => do
      if ← flIsEmpty heap (some list) then
        return heap
      else
        let (_, heap) ← flPopFrame heap (some list)
        flCleanNodes list fuel heap

/-- `_fl_init` -/
def flInit (heap : FrameHeap) : Option Nat → Option (Nat × FrameHeap)
  | none => some (heap.top, heap.alloc ⟨none, heap.top⟩)
  | some list => do
      if ← flIsEmpty heap (some list) then
        return (list, heap)
      else
        let heap ← flCleanNodes list (heap.top + 1) heap
        return (list, heap)

/-- The list holds the frames of `queue`, the oldest first. -/
def FlRepr (heap : FrameHeap) (list : Option Nat) (queue : List GSM0710Frame) : Prop :=
  match list with
  | none => queue = []
  | some list => Circle heap list queue

theorem flIsEmpty_repr {heap : FrameHeap} {list : Option Nat} {queue : List GSM0710Frame}
    (hrepr : FlRepr heap list queue) : flIsEmpty heap list = some (queue == []) := by
  cases list with
  | none =>
    cases hrepr
    rfl
  | some list =>
    obtain ⟨n, hcell, hiff⟩ := Circle.next_eq_iff hrepr
    rw [flIsEmpty, hcell, Option.map_some]
    congr 1
    rw [Bool.eq_iff_iff, beq_iff_eq, beq_iff_eq]
    exact hiff

theorem flPopFrame_nil {heap : FrameHeap} {list : Option Nat} (hrepr : FlRepr heap list []) :
    flPopFrame heap list = some (none, heap) := by
  rw [flPopFrame, flIsEmpty_repr hrepr]
  rfl

/-- A pop takes the oldest frame. -/
theorem flPopFrame_cons {heap : FrameHeap} {list : Option Nat} {frame : GSM0710Frame}
    {queue : List GSM0710Frame} (hrepr : FlRepr heap list (frame :: queue)) :
    ∃ heap', flPopFrame heap list = some (some frame, heap') ∧ FlRepr heap' list queue := by
  cases list with
  | none => cases hrepr
  | some list =>
    obtain ⟨n, m, hlist, -, hnode, hpop⟩ := Circle.pop hrepr
    refine ⟨_, ?_, hpop⟩
    rw [flPopFrame, flIsEmpty_repr hrepr]
    simp [hlist, hnode]

/-- A push puts the frame behind the youngest one. -/
theorem flPushFrame_repr {heap : FrameHeap} {list : Nat} {queue : List GSM0710Frame}
    (hrepr : FlRepr heap (some list) queue) (frame : GSM0710Frame) :
    ∃ list' heap', flPushFrame heap (some list) frame = some (list', heap') ∧
      FlRepr heap' (some list') (queue ++ [frame]) := by
  obtain ⟨n, hcell, -⟩ := Circle.next_eq_iff hrepr
  refine ⟨_, _, ?_, Circle.push hrepr hcell frame⟩
  simp [flPushFrame, hcell]

/-- An empty list is made, or found as it is. -/
theorem flInit_repr {heap : FrameHeap} {list : Option Nat} (hrepr : FlRepr heap list []) :
    ∃ list' heap', flInit heap list = some (list', heap') ∧ FlRepr heap' (some list') [] := by
  cases list with
  | none => exact ⟨_, _, rfl, Circle.alloc heap⟩
  | some list =>
    refine ⟨list, heap, ?_, hrepr⟩
    rw [flInit, flIsEmpty_repr hrepr]
    rfl

end MtkHw.Mux
