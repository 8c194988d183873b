import MtkHw.Lib.SortedVector
import MtkHw.Lib.Sweep

/-!
# The bandwidth of the overlapping layers

A display reads all layers that cover a point at the same time, so the bandwidth it
needs is the largest sum of `bpp * fps` over the layers that cover a point.
`checkXYOverlap` looks for it with two sweeps.  The first one goes down the rows where
a layer begins or ends and keeps the layers that cover such a row as a group; a sorted
vector keeps the groups by their summed weight.  The second one goes along a group's
row.  The groups are taken from the heaviest one on, until what the last one gave
bounds the weight of the next.
-/

namespace MtkHw.Hwc.Hrt

open MtkHw.Lib

/-! ## Layers -/

/-- How a layer is composed, `HWC_LAYER_TYPE_…`. -/
inductive LayerType where
  | invalid | fbt | ui | mm | dim | cursor | mmHigh | mmFbt
deriving DecidableEq, Repr

structure Rect where
  left : Int
  top : Int
  right : Int
  bottom : Int
deriving DecidableEq, Repr

structure Layer where
  type : LayerType
  bpp : Nat
  displayFrame : Rect
deriving DecidableEq, Repr

/-- A display: the time of a frame in nanoseconds, and the size of the screen. -/
structure Display where
  refresh : Int
  width : Nat
  height : Nat

/-- The layers that the GPU composes. -/
structure GlesRange where
  head : Nat
  tail : Nat
  head_le_tail : head ≤ tail

/-- What the check of a display reads: whether the overlay engine dims on its own
(`OVL_CAP_DIM_HW`), the display, its layers, and the range of the GPU, if any. -/
structure Job where
  dimHw : Bool
  display : Display
  layers : Nat → Layer
  layersNum : Nat
  gles : Option GlesRange

/-- A layer that covers a row; the weight is negative where the layer ends. -/
structure MemberLayer where
  layerIdx : Nat
  weight : Int
deriving DecidableEq, Repr

/-- The layers that cover a row, and their summed weight. -/
structure OverlapInterval where
  layers : List MemberLayer
  value : Int
deriving DecidableEq, Repr

/-- Members are sorted by their layer. -/
def MemberLayer.Lt (a b : MemberLayer) : Prop := a.layerIdx < b.layerIdx

instance : DecidableRel MemberLayer.Lt := fun a b =>
  inferInstanceAs (Decidable (a.layerIdx < b.layerIdx))

instance : Std.Asymm MemberLayer.Lt := ⟨fun _ _ => Nat.lt_asymm⟩

instance : IsOrderConnected MemberLayer MemberLayer.Lt where
  conn _ b _ h := (Nat.lt_or_ge _ b.layerIdx).imp_right fun hba => Nat.lt_of_le_of_lt hba h

/-- Groups are sorted by their weight, so two groups of one weight count as equal. -/
def OverlapInterval.Lt (a b : OverlapInterval) : Prop := a.value < b.value

instance : DecidableRel OverlapInterval.Lt := fun a b =>
  inferInstanceAs (Decidable (a.value < b.value))

instance : Std.Asymm OverlapInterval.Lt := ⟨fun _ _ => Int.lt_asymm⟩

instance : IsOrderConnected OverlapInterval OverlapInterval.Lt where
  conn _ b _ h := (Int.lt_or_le _ b.value).imp_right fun hba => Int.lt_of_le_of_lt hba h

/-! ## The range and the weight of a layer -/

def Display.fps (d : Display) : Nat := if 0 < d.refresh then 10 ^ 9 / d.refresh.toNat else 60

/-- Where a layer begins and ends, in the rows or in the columns. -/
def Job.layerRange (job : Job) (layer : Layer) (maxRange : Nat) (sortByY : Bool) : Int × Int :=
  let frame := layer.displayFrame
  match layer.type with
  | .dim =>
    if job.dimHw then (-1, -1)
    else if sortByY then (frame.top, frame.bottom) else (frame.left, frame.right)
  | .ui | .mm | .cursor =>
    if sortByY then (frame.top, frame.bottom) else (frame.left, frame.right)
  | .invalid => (0, maxRange)
  | _ => (-1, -1)

/-- The bytes that a layer needs in a second, for each of its points. -/
def Job.weight (job : Job) (i : Nat) : Int :=
  let layer := job.layers i
  (if layer.type = .invalid then 4 else layer.bpp : Nat) * job.display.fps

/-! ## Along a row -/

/-- The weight that begins at a column, for the columns where a layer begins or ends. -/
abbrev XVector := List (Int × Int)

def addXKeyValue (overlaps : XVector) (key value : Int) : XVector :=
  if 0 ≤ key then Sweep.addAt key value overlaps else overlaps

def Job.addXRangeVector (job : Job) (overlaps : XVector) (i : Nat) : XVector :=
  let range := job.layerRange (job.layers i) job.display.width false
  addXKeyValue (addXKeyValue overlaps range.1 (job.weight i)) range.2 (-job.weight i)

def scanXRangeOverlap (overlaps : XVector) : Int := (Sweep.scan overlaps (0, 0)).2

def Job.checkXOverlap (job : Job) (members : List MemberLayer) : Int :=
  scanXRangeOverlap (members.foldl (fun os m => job.addXRangeVector os m.layerIdx) [])

/-! ## From row to row -/

/-- The layers that begin or end at a row, for the rows where one does. -/
abbrev YVector := List (Int × List MemberLayer)

/-- Add a layer at a row; the layer that is there already is taken out instead. -/
def toggleMember (member : MemberLayer) (members : List MemberLayer) : List MemberLayer :=
  if members.any (·.layerIdx = member.layerIdx) then
    (members.reverse.eraseP (·.layerIdx = member.layerIdx)).reverse
  else members ++ [member]

def addYKeyValue (overlaps : YVector) (key value : Int) (i : Nat) : YVector :=
  if 0 ≤ key then
    Sweep.upsert (fun members => toggleMember ⟨i, value⟩ (members.getD [])) key overlaps
  else overlaps

def Job.addYRangeVector (job : Job) (overlaps : YVector) (i : Nat) : YVector :=
  let range := job.layerRange (job.layers i) job.display.height true
  addYKeyValue (addYKeyValue overlaps range.1 (job.weight i) i) range.2 (-job.weight i) i

/-- A layer that begins joins the group, one that ends leaves it. -/
def scanMember (group : List MemberLayer × Int) (member : MemberLayer) : List MemberLayer × Int :=
  match SortedVector.lookup MemberLayer.Lt member group.1 with
  | none =>
    if 0 < member.weight then
      (SortedVector.add MemberLayer.Lt member group.1, group.2 + member.weight)
    else group
  | some found =>
    if 0 < member.weight then group else (group.1.erase found, group.2 + member.weight)

/-- Keep the group of each row, a later one in the place of one of the same weight. -/
def scanYRangeOverlap : YVector → List MemberLayer × Int → List OverlapInterval →
    List OverlapInterval
  | [], _, intervals => intervals
  | row :: rows, group, intervals =>
    let group' := row.2.foldl scanMember group
    scanYRangeOverlap rows group'
      (SortedVector.add OverlapInterval.Lt ⟨group'.1, group'.2⟩ intervals)

/-! ## The check -/

/-- The layer to go on with behind `i`: the GPU's range counts once. -/
def Job.next (job : Job) (i : Nat) : Nat :=
  match job.gles with
  | some range => (if i = range.head then range.tail else i) + 1
  | none => i + 1

/-- The layers that the check goes through. -/
def Job.visitedFrom (job : Job) : Nat → Nat → List Nat
  | 0, _ => []
  | fuel + 1, i =>
    if i < job.layersNum then i :: job.visitedFrom fuel (job.next i) else []

def Job.visited (job : Job) : List Nat := job.visitedFrom job.layersNum 0

def Job.checkXYOverlap (job : Job) : Int :=
  let overlaps := job.visited.foldl job.addYRangeVector []
  let intervals := scanYRangeOverlap overlaps ([], 0) []
  Sweep.searchDown OverlapInterval.value (fun g => job.checkXOverlap g.layers) 0
    intervals.reverse

end MtkHw.Hwc.Hrt
