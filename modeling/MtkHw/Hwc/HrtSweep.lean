import Mathlib.Algebra.BigOperators.Group.Finset.Basic
import Mathlib.Algebra.Order.BigOperators.Group.Finset
import MtkHw.Hwc.Hrt

/-!
# What the sweep finds

The layers that the check counts, what they weigh at a point of the screen, and the
largest weight.  The sweep down the rows gives each row where a layer begins or ends
the layers that cover it, and the sweep along a row gives the largest weight on it.
What is left is the order of the search: one row stays for each sum of weights, and
the search stops at the first row whose largest weight bounds the sums below it.
-/

namespace MtkHw.Hwc.Hrt

open MtkHw.Lib

/-! ## Weights on the screen -/

/-- The points of a rectangle: left and top belong to it, right and bottom do not. -/
def Rect.Contains (r : Rect) (p : Int × Int) : Prop :=
  (r.left ≤ p.1 ∧ p.1 < r.right) ∧ r.top ≤ p.2 ∧ p.2 < r.bottom

instance (r : Rect) (p : Int × Int) : Decidable (r.Contains p) := by
  unfold Rect.Contains; infer_instance

def Job.screen (job : Job) : Rect := ⟨0, 0, job.display.width, job.display.height⟩

/-- The layers up to the GPU's range, its head, and the layers behind it. -/
def Job.shown (job : Job) : Finset Nat :=
  (Finset.range job.layersNum).filter fun i =>
    ∀ g ∈ job.gles, ¬(g.head < i ∧ i ≤ g.tail)

/-- The layer stands for the GPU's whole range. -/
def Job.IsGles (job : Job) (i : Nat) : Prop :=
  (∃ g ∈ job.gles, i = g.head) ∧ (job.layers i).type = .invalid

instance (job : Job) : DecidablePred job.IsGles := fun _ => by
  unfold Job.IsGles; infer_instance

/-- What a layer weighs at a point: the GPU's range is a layer of four bytes on the
whole screen, and what the engine dims on its own weighs nothing. -/
def Job.weightAt (job : Job) (i : Nat) (p : Int × Int) : Int :=
  let layer := job.layers i
  if job.IsGles i then if job.screen.Contains p then 4 * job.display.fps else 0
  else if layer.type = .dim ∧ job.dimHw then 0
  else if layer.displayFrame.Contains p then layer.bpp * job.display.fps else 0

/-- The weight of all layers at a point. -/
def Job.overlapAt (job : Job) (p : Int × Int) : Int := ∑ i ∈ job.shown, job.weightAt i p

/-- The largest weight over all points. -/
def Job.IsMaxOverlap (job : Job) (m : Int) : Prop :=
  (∃ p, job.overlapAt p = m) ∧ ∀ p, job.overlapAt p ≤ m

/-- Display frames of non-negative coordinates and positive size. -/
def Job.FramesValid (job : Job) : Prop :=
  ∀ i < job.layersNum, let frame := (job.layers i).displayFrame
    (0 ≤ frame.left ∧ frame.left < frame.right) ∧ 0 ≤ frame.top ∧ frame.top < frame.bottom

/-! ## What the check scans -/

/-- The types that the sweep has a range for. -/
def Job.Scans (job : Job) (i : Nat) : Prop :=
  match (job.layers i).type with
  | .dim => job.dimHw = false
  | .ui | .mm | .cursor | .invalid => True
  | .fbt | .mmHigh | .mmFbt => False

instance (job : Job) : DecidablePred job.Scans := fun i => by
  unfold Job.Scans; cases (job.layers i).type <;> infer_instance

/-- The area that the sweep takes for a layer. -/
def Job.area (job : Job) (i : Nat) : Rect :=
  if (job.layers i).type = .invalid then job.screen else (job.layers i).displayFrame

/-- The layer covers the row. -/
def Job.OnRow (job : Job) (i : Nat) (y : Int) : Prop :=
  job.Scans i ∧ (job.area i).top ≤ y ∧ y < (job.area i).bottom

instance (job : Job) (i : Nat) (y : Int) : Decidable (job.OnRow i y) := by
  unfold Job.OnRow; infer_instance

/-- The weight of the scanned layers at a point. -/
def Job.scannedAt (job : Job) (p : Int × Int) : Int :=
  ∑ i ∈ job.shown, if job.OnRow i p.2 ∧ (job.area i).left ≤ p.1 ∧ p.1 < (job.area i).right
    then job.weight i else 0

/-- The summed weight of the scanned layers that cover a row. -/
def Job.rowWeight (job : Job) (y : Int) : Int :=
  ∑ i ∈ job.shown, if job.OnRow i y then job.weight i else 0

/-- A scanned layer begins or ends at the row. -/
def Job.IsEdge (job : Job) (y : Int) : Prop :=
  ∃ i ∈ job.shown, job.Scans i ∧ (y = (job.area i).top ∨ y = (job.area i).bottom)

theorem Job.weight_nonneg (job : Job) (i : Nat) : 0 ≤ job.weight i :=
  Int.mul_nonneg (Int.natCast_nonneg _) (Int.natCast_nonneg _)

/-- The range of a layer is that of its area. -/
theorem Job.layerRange_of_scans {job : Job} {i : Nat} (h : job.Scans i) :
    job.layerRange (job.layers i) job.display.height true
        = ((job.area i).top, (job.area i).bottom) ∧
      job.layerRange (job.layers i) job.display.width false
        = ((job.area i).left, (job.area i).right) := by
  unfold Job.Scans at h
  unfold Job.layerRange Job.area Job.screen
  cases htype : (job.layers i).type <;> simp_all

theorem Job.layerRange_of_not_scans {job : Job} {i : Nat} (h : ¬job.Scans i) (maxRange : Nat)
    (sortByY : Bool) : job.layerRange (job.layers i) maxRange sortByY = (-1, -1) := by
  unfold Job.Scans at h
  unfold Job.layerRange
  cases htype : (job.layers i).type <;> simp_all

/-- The area lies on no negative rows and columns and does not end before it begins. -/
theorem Job.area_valid {job : Job} (hvalid : job.FramesValid) {i : Nat}
    (hi : i < job.layersNum) :
    (0 ≤ (job.area i).left ∧ (job.area i).left ≤ (job.area i).right) ∧
      0 ≤ (job.area i).top ∧ (job.area i).top ≤ (job.area i).bottom := by
  obtain ⟨⟨hleft, hright⟩, htop, hbottom⟩ := hvalid i hi
  unfold Job.area
  split_ifs
  · exact ⟨⟨le_rfl, Int.natCast_nonneg _⟩, le_rfl, Int.natCast_nonneg _⟩
  · exact ⟨⟨hleft, hright.le⟩, htop, hbottom.le⟩

/-! ## The layers that are visited -/

theorem Job.mem_shown {job : Job} {i : Nat} :
    i ∈ job.shown ↔ i < job.layersNum ∧ ∀ g ∈ job.gles, ¬(g.head < i ∧ i ≤ g.tail) := by
  unfold Job.shown
  rw [Finset.mem_filter, Finset.mem_range]

/-- The next layer is behind this one; what lies between them is behind the range's head. -/
theorem Job.next_spec {job : Job} {i : Nat} (hi : i ∈ job.shown) :
    i < job.next i ∧ (∀ g ∈ job.gles, ¬(g.head < job.next i ∧ job.next i ≤ g.tail)) ∧
      ∀ j ∈ job.shown, i < j → job.next i ≤ j := by
  have hout := (Job.mem_shown.mp hi).2
  unfold Job.next
  cases hgles : job.gles with
  | none => exact ⟨Nat.lt_succ_self i, by simp, fun j _ hj => hj⟩
  | some g =>
    have hg : ¬(g.head < i ∧ i ≤ g.tail) := hout g hgles
    have hle := g.head_le_tail
    dsimp only
    refine ⟨?_, ?_, fun j hj hlt => ?_⟩
    · split_ifs <;> omega
    · rintro _ ⟨⟩
      split_ifs <;> omega
    · have hj : ¬(g.head < j ∧ j ≤ g.tail) := (Job.mem_shown.mp hj).2 g hgles
      split_ifs <;> omega

theorem Job.visitedFrom_spec {job : Job} {fuel i : Nat} (hfuel : job.layersNum ≤ i + fuel)
    (hout : ∀ g ∈ job.gles, ¬(g.head < i ∧ i ≤ g.tail)) :
    (job.visitedFrom fuel i).Pairwise (· < ·) ∧
      ∀ j, j ∈ job.visitedFrom fuel i ↔ i ≤ j ∧ j ∈ job.shown := by
  induction fuel generalizing i with
  | zero =>
    refine ⟨List.Pairwise.nil, fun j => ⟨nofun, fun ⟨hle, hj⟩ => ?_⟩⟩
    have := (Job.mem_shown.mp hj).1
    omega
  | succ fuel ih =>
    rw [Job.visitedFrom]
    split_ifs with hi
    · have hmem : i ∈ job.shown := Job.mem_shown.mpr ⟨hi, hout⟩
      obtain ⟨hlt, hnext, hleast⟩ := Job.next_spec hmem
      obtain ⟨hsorted, hrest⟩ := ih (by omega) hnext
      refine ⟨List.pairwise_cons.mpr ⟨fun j hj => ?_, hsorted⟩, fun j => ?_⟩
      · exact hlt.trans_le ((hrest j).mp hj).1
      · rw [List.mem_cons, hrest j]
        constructor
        · rintro (rfl | ⟨hle, hj⟩)
          · exact ⟨le_rfl, hmem⟩
          · exact ⟨hlt.le.trans hle, hj⟩
        · rintro ⟨hle, hj⟩
          rcases hle.eq_or_lt with rfl | hle
          · exact .inl rfl
          · exact .inr ⟨hleast j hj hle, hj⟩
    · refine ⟨List.Pairwise.nil, fun j => ⟨nofun, fun ⟨hle, hj⟩ => ?_⟩⟩
      exact absurd (hle.trans_lt (Job.mem_shown.mp hj).1) hi

/-- The check goes through the shown layers, once each. -/
theorem Job.visited_spec (job : Job) :
    job.visited.Nodup ∧ ∀ i, i ∈ job.visited ↔ i ∈ job.shown := by
  have hfuel : job.layersNum ≤ 0 + job.layersNum := Nat.le_add_left _ 0
  obtain ⟨hsorted, hmem⟩ := Job.visitedFrom_spec hfuel (by simp)
  exact ⟨hsorted.imp fun h => h.ne, fun i => (hmem i).trans (by simp)⟩

/-! ## The largest weight on a row -/

/-- A layer as an interval of columns. -/
def Job.columns (job : Job) (i : Nat) : (Int × Int) × Int :=
  (((job.area i).left, (job.area i).right), job.weight i)

theorem Job.addXRangeVector_eq {job : Job} (hvalid : job.FramesValid) {i : Nat}
    (hi : i < job.layersNum) (hscans : job.Scans i) (overlaps : XVector) :
    job.addXRangeVector overlaps i = Sweep.addInterval overlaps (job.columns i) := by
  obtain ⟨⟨hleft, hle⟩, -⟩ := Job.area_valid hvalid hi
  unfold Job.addXRangeVector addXKeyValue
  rw [(Job.layerRange_of_scans hscans).2]
  dsimp only
  rw [if_pos hleft, if_pos (hleft.trans hle)]
  rfl

/-- The sweep along a row finds the largest weight of the members. -/
theorem Job.checkXOverlap_spec {job : Job} (hvalid : job.FramesValid)
    {members : List MemberLayer}
    (hmembers : ∀ m ∈ members, m.layerIdx < job.layersNum ∧ job.Scans m.layerIdx) :
    let is := members.map fun m => job.columns m.layerIdx
    (∀ x, Sweep.coverage is x ≤ job.checkXOverlap members) ∧
      ∃ x, Sweep.coverage is x = job.checkXOverlap members := by
  intro is
  have hfold : job.checkXOverlap members =
      (Sweep.scan (is.foldl Sweep.addInterval []) (0, 0)).2 := by
    unfold Job.checkXOverlap scanXRangeOverlap
    rw [List.foldl_map]
    congr 2
    refine List.foldl_ext _ _ _ fun overlaps m hm => ?_
    exact Job.addXRangeVector_eq hvalid (hmembers m hm).1 (hmembers m hm).2 overlaps
  have hle : ∀ i ∈ is, i.1.1 ≤ i.1.2 := by
    intro i hi
    obtain ⟨m, hm, rfl⟩ := List.mem_map.mp hi
    exact (Job.area_valid hvalid (hmembers m hm).1).1.2
  obtain ⟨-, hbound, hreached⟩ := Sweep.scan_intervals hle
  rw [hfold]
  refine ⟨hbound, ?_⟩
  rcases hreached with hzero | hreached
  · -- no layer covers a negative column
    rw [hzero]
    refine ⟨-1, List.sum_eq_zero fun v hv => ?_⟩
    obtain ⟨i, hi, rfl⟩ := List.mem_map.mp hv
    obtain ⟨m, hm, rfl⟩ := List.mem_map.mp hi
    have hleft := (Job.area_valid hvalid (hmembers m hm).1).1.1
    exact if_neg fun h => absurd (hleft.trans h.1) (by decide)
  · exact hreached

/-! ## The layers of a row -/

theorem toggleMember_of_fresh {m : MemberLayer} {members : List MemberLayer}
    (h : ∀ n ∈ members, n.layerIdx ≠ m.layerIdx) : toggleMember m members = members ++ [m] := by
  refine if_neg fun hany => ?_
  obtain ⟨n, hn, heq⟩ := List.any_eq_true.mp hany
  exact h n hn (of_decide_eq_true heq)

/-- A layer that begins and ends at one row is not there. -/
theorem toggleMember_toggleMember {m n : MemberLayer} {members : List MemberLayer}
    (h : ∀ n ∈ members, n.layerIdx ≠ m.layerIdx) (hmn : m.layerIdx = n.layerIdx) :
    toggleMember n (toggleMember m members) = members := by
  rw [toggleMember_of_fresh h, toggleMember, if_pos (by simp [hmn]), List.reverse_concat,
    List.eraseP_cons_of_pos (by simp [hmn]), List.reverse_reverse]

/-- What happens to the layer `i` in the rows up to `y`. -/
def history (i : Nat) (y : Int) (overlaps : YVector) : List MemberLayer :=
  (Sweep.upTo y overlaps).flatten.filter (·.layerIdx = i)

theorem history_append (i : Nat) (y : Int) (before after : YVector) :
    history i y (before ++ after) = history i y before ++ history i y after := by
  unfold history
  rw [Sweep.upTo_append, List.flatten_append, List.filter_append]

theorem history_cons (i : Nat) (y key : Int) (members : List MemberLayer) (after : YVector) :
    history i y ((key, members) :: after) =
      (if key ≤ y then members.filter (·.layerIdx = i) else []) ++ history i y after := by
  unfold history
  rw [Sweep.upTo_cons]
  split_ifs
  · rw [List.flatten_cons, List.filter_append]
  · rfl

/-- What happens to a layer that is not there. -/
theorem history_eq_nil {i : Nat} {y : Int} {overlaps : YVector}
    (h : ∀ e ∈ overlaps, ∀ m ∈ e.2, m.layerIdx ≠ i) : history i y overlaps = [] := by
  unfold history
  rw [List.filter_eq_nil_iff]
  intro m hm
  obtain ⟨members, hmembers, hm⟩ := List.mem_flatten.mp hm
  obtain ⟨e, he, rfl⟩ := List.mem_map.mp hmembers
  have hin : e ∈ overlaps := List.mem_of_mem_filter he
  simpa using h e hin m hm

/-- A row at which nothing changes adds to no history. -/
theorem history_upsert_self {overlaps : YVector} (h : Sweep.Sorted overlaps) (key : Int)
    (i : Nat) (y : Int) :
    history i y (Sweep.upsert (fun o => o.getD []) key overlaps) = history i y overlaps := by
  obtain ⟨before, after, o, hsplit, hupsert, -, -⟩ :=
    Sweep.upsert_split (fun o : Option (List MemberLayer) => o.getD []) key h
  rw [hupsert, hsplit, history_append, history_cons, history_append, history_append]
  cases o with
  | none => simp [history, Sweep.upTo]
  | some members => simp [history_cons, show history i y [] = [] from rfl]

/-- A member that is new at a row and behind it is added to its layer's history. -/
theorem history_upsert {overlaps : YVector} (h : Sweep.Sorted overlaps) {key : Int}
    {m : MemberLayer}
    (hfresh : ∀ e ∈ overlaps, key ≤ e.1 → ∀ n ∈ e.2, n.layerIdx ≠ m.layerIdx) (i : Nat) (y : Int) :
    history i y (Sweep.upsert (fun o => toggleMember m (o.getD [])) key overlaps) =
      history i y overlaps ++ if m.layerIdx = i ∧ key ≤ y then [m] else [] := by
  obtain ⟨before, after, o, hsplit, hupsert, -, hafter⟩ :=
    Sweep.upsert_split (fun o : Option (List MemberLayer) => toggleMember m (o.getD [])) key h
  have hbehind : m.layerIdx = i → history i y after = [] := by
    rintro rfl
    refine history_eq_nil fun e he => hfresh e ?_ (hafter e he).le
    rw [hsplit]
    exact List.mem_append_right _ he
  have hat : ∀ n ∈ o.getD [], n.layerIdx ≠ m.layerIdx := by
    cases o with
    | none => exact nofun
    | some members => exact hfresh (key, members) (by simp [hsplit]) le_rfl
  have hnil : history i y [] = [] := rfl
  rw [hupsert, hsplit, toggleMember_of_fresh hat, history_append, history_cons, history_append,
    history_append, List.filter_append]
  by_cases hi : m.layerIdx = i
  · rw [hbehind hi]
    cases o <;> by_cases hkey : key ≤ y <;> simp [history_cons, hnil, hi, hkey]
  · cases o <;> by_cases hkey : key ≤ y <;> simp [history_cons, hnil, hi, hkey]

/-! ## All layers in their rows -/

/-- What happens to a scanned layer up to a row: it begins, and then it ends. -/
def Job.expected (job : Job) (i : Nat) (y : Int) : List MemberLayer :=
  if job.Scans i ∧ (job.area i).top < (job.area i).bottom then
    (if (job.area i).top ≤ y then [⟨i, job.weight i⟩] else []) ++
      if (job.area i).bottom ≤ y then [⟨i, -job.weight i⟩] else []
  else []

theorem Job.expected_of_lt {job : Job} {i : Nat} (hscans : job.Scans i)
    (hlt : (job.area i).top < (job.area i).bottom) (y : Int) :
    job.expected i y = (if (job.area i).top ≤ y then [⟨i, job.weight i⟩] else []) ++
      if (job.area i).bottom ≤ y then [⟨i, -job.weight i⟩] else [] :=
  if_pos ⟨hscans, hlt⟩

theorem Job.expected_of_eq {job : Job} {i : Nat} (heq : (job.area i).top = (job.area i).bottom)
    (y : Int) : job.expected i y = [] :=
  if_neg fun h => h.2.ne heq

/-- The rows hold what happens to the layers `is`, and no other rows are there. -/
structure Job.Holds (job : Job) (overlaps : YVector) (is : List Nat) : Prop where
  sorted : Sweep.Sorted overlaps
  histories : ∀ i y, history i y overlaps = if i ∈ is then job.expected i y else []
  edges : ∀ y, y ∈ overlaps.map Prod.fst ↔
    ∃ i ∈ is, job.Scans i ∧ (y = (job.area i).top ∨ y = (job.area i).bottom)

/-- A layer that is not there has no member in any row. -/
theorem Job.Holds.fresh {job : Job} {overlaps : YVector} {is : List Nat}
    (h : job.Holds overlaps is) {i : Nat} (hi : i ∉ is) :
    ∀ e ∈ overlaps, ∀ m ∈ e.2, m.layerIdx ≠ i := by
  rintro e he m hm rfl
  have hmem : m ∈ history m.layerIdx e.1 overlaps := by
    refine List.mem_filter.mpr ⟨List.mem_flatten.mpr ⟨e.2, ?_, hm⟩, decide_eq_true rfl⟩
    exact List.mem_map.mpr ⟨e, List.mem_filter.mpr ⟨he, decide_eq_true le_rfl⟩, rfl⟩
  rw [h.histories, if_neg hi] at hmem
  cases hmem

/-- What happens to the layers when one more is added. -/
theorem Job.history_addYRangeVector {job : Job} (hvalid : job.FramesValid) {i : Nat}
    (hi : i < job.layersNum) (hscans : job.Scans i) {overlaps : YVector}
    (hsorted : Sweep.Sorted overlaps) (hfresh : ∀ e ∈ overlaps, ∀ m ∈ e.2, m.layerIdx ≠ i) :
    let overlaps' := job.addYRangeVector overlaps i
    Sweep.Sorted overlaps' ∧
      (∀ j y, history j y overlaps' =
        history j y overlaps ++ if j = i then job.expected i y else []) ∧
      ∀ y, y ∈ overlaps'.map Prod.fst ↔
        (y = (job.area i).top ∨ y = (job.area i).bottom) ∨ y ∈ overlaps.map Prod.fst := by
  obtain ⟨-, htop, hle⟩ := Job.area_valid hvalid hi
  have hadd : job.addYRangeVector overlaps i =
      Sweep.upsert (fun o => toggleMember ⟨i, -job.weight i⟩ (o.getD [])) (job.area i).bottom
        (Sweep.upsert (fun o => toggleMember ⟨i, job.weight i⟩ (o.getD [])) (job.area i).top
          overlaps) := by
    unfold Job.addYRangeVector addYKeyValue
    rw [(Job.layerRange_of_scans hscans).1]
    dsimp only
    rw [if_pos htop, if_pos (htop.trans hle)]
  have hfirst := Sweep.sorted_upsert (f := fun o => toggleMember ⟨i, job.weight i⟩ (o.getD []))
    (k := (job.area i).top) hsorted
  intro overlaps'
  change Sweep.Sorted (job.addYRangeVector overlaps i) ∧ (∀ j y, history j y
    (job.addYRangeVector overlaps i) = _) ∧ ∀ y, y ∈ (job.addYRangeVector overlaps i).map _ ↔ _
  rw [hadd]
  refine ⟨Sweep.sorted_upsert hfirst, fun j y => ?_, fun y => ?_⟩
  · rcases hle.lt_or_eq with hlt | heq
    · have hfresh' : ∀ e ∈ Sweep.upsert (fun o => toggleMember ⟨i, job.weight i⟩ (o.getD []))
          (job.area i).top overlaps, (job.area i).bottom ≤ e.1 → ∀ n ∈ e.2, n.layerIdx ≠ i := by
        intro e he hbottom
        rcases Sweep.mem_of_mem_upsert hsorted he with hkey | he
        · exact absurd (hkey ▸ hbottom) (not_le.mpr hlt)
        · exact hfresh e he
      rw [history_upsert hfirst hfresh', history_upsert hsorted fun e he _ => hfresh e he,
        Job.expected_of_lt hscans hlt, List.append_assoc]
      by_cases hij : j = i
      · simp [hij]
      · simp [hij, Ne.symm hij]
    · -- the layer is toggled twice in one row
      rw [← heq, Sweep.upsert_upsert, Sweep.upsert_congr (g := fun o => o.getD []),
        history_upsert_self hsorted, Job.expected_of_eq heq, ite_self, List.append_nil]
      · exact toggleMember_toggleMember nofun rfl
      · exact fun v hv => toggleMember_toggleMember (hfresh _ hv) rfl
  · rw [Sweep.mem_keys_upsert hfirst, Sweep.mem_keys_upsert hsorted, ← or_assoc,
      or_comm (a := y = (job.area i).bottom)]

theorem Job.Holds.add {job : Job} (hvalid : job.FramesValid) {overlaps : YVector}
    {is : List Nat} (h : job.Holds overlaps is) {i : Nat} (hi : i < job.layersNum)
    (hnew : i ∉ is) : job.Holds (job.addYRangeVector overlaps i) (is ++ [i]) := by
  have hmem : ∀ j, j ∈ is ++ [i] ↔ j ∈ is ∨ j = i := fun j => by simp
  by_cases hscans : job.Scans i
  · obtain ⟨hsorted, hhistory, hedges⟩ :=
      Job.history_addYRangeVector hvalid hi hscans h.sorted (h.fresh hnew)
    refine ⟨hsorted, fun j y => ?_, fun y => ?_⟩
    · rw [hhistory, h.histories]
      by_cases hj : j = i
      · subst hj
        simp [hnew]
      · simp [hj]
    · rw [hedges, h.edges]
      constructor
      · rintro (hy | ⟨j, hj, hscans', hy⟩)
        · exact ⟨i, (hmem i).mpr (.inr rfl), hscans, hy⟩
        · exact ⟨j, (hmem j).mpr (.inl hj), hscans', hy⟩
      · rintro ⟨j, hj, hscans', hy⟩
        rcases (hmem j).mp hj with hj | rfl
        · exact .inr ⟨j, hj, hscans', hy⟩
        · exact .inl hy
  · -- a layer without a range leaves the rows as they are
    have hsame : job.addYRangeVector overlaps i = overlaps := by
      unfold Job.addYRangeVector addYKeyValue
      rw [Job.layerRange_of_not_scans hscans]
      rfl
    rw [hsame]
    refine ⟨h.sorted, fun j y => ?_, fun y => ?_⟩
    · rw [h.histories]
      by_cases hj : j = i
      · subst hj
        rw [if_neg hnew, if_pos ((hmem j).mpr (.inr rfl)), Job.expected,
          if_neg fun h => hscans h.1]
      · simp [hj]
    · rw [h.edges]
      constructor
      · rintro ⟨j, hj, hrest⟩
        exact ⟨j, (hmem j).mpr (.inl hj), hrest⟩
      · rintro ⟨j, hj, hscans', hy⟩
        rcases (hmem j).mp hj with hj | rfl
        · exact ⟨j, hj, hscans', hy⟩
        · exact absurd hscans' hscans

/-- The rows hold what happens to all layers that the check goes through. -/
theorem Job.Holds.foldl {job : Job} (hvalid : job.FramesValid) {vs : List Nat} :
    ∀ {overlaps : YVector} {is : List Nat}, job.Holds overlaps is → (is ++ vs).Nodup →
      (∀ i ∈ vs, i < job.layersNum) →
      job.Holds (vs.foldl job.addYRangeVector overlaps) (is ++ vs) := by
  induction vs with
  | nil =>
    intro overlaps is h _ _
    rwa [List.append_nil]
  | cons v vs ih =>
    intro overlaps is h hnodup hvs
    have hsplit : is ++ v :: vs = is ++ [v] ++ vs := by simp
    have hnew : v ∉ is := fun hv =>
      (List.disjoint_of_nodup_append hnodup) hv List.mem_cons_self
    rw [hsplit] at hnodup ⊢
    exact ih (h.add hvalid (hvs v List.mem_cons_self) hnew) hnodup
      fun i hi => hvs i (List.mem_cons_of_mem _ hi)

/-! ## The group of a row -/

/-- Each layer begins before it ends. -/
def Paired (events : List MemberLayer) : Prop :=
  ∀ i, ∃ w : Int, 0 ≤ w ∧ events.filter (·.layerIdx = i) <+: [⟨i, w⟩, ⟨i, -w⟩]

/-- The group holds the layers of positive weight that have begun and not ended, and
the weight is theirs. -/
structure Group (events : List MemberLayer) (group : List MemberLayer × Int) : Prop where
  sorted : group.1.Pairwise MemberLayer.Lt
  members : ∀ m, m ∈ group.1 ↔ 0 < m.weight ∧ events.filter (·.layerIdx = m.layerIdx) = [m]
  weight : group.2 = (group.1.map MemberLayer.weight).sum

/-- Two different layers of a group are told apart by their place. -/
theorem MemberLayer.lt_or_lt {m n : MemberLayer} (h : m.layerIdx ≠ n.layerIdx) :
    MemberLayer.Lt m n ∨ MemberLayer.Lt n m := Nat.lt_or_gt_of_ne h

theorem lookup_member_eq_none {m : MemberLayer} {group : List MemberLayer}
    (h : ∀ n ∈ group, n.layerIdx ≠ m.layerIdx) :
    SortedVector.lookup MemberLayer.Lt m group = none := by
  refine List.find?_eq_none.mpr fun n hn => ?_
  have hne := MemberLayer.lt_or_lt (h n hn).symm
  simpa [or_iff_not_imp_left] using hne

theorem filter_concat (events : List MemberLayer) (m : MemberLayer) (i : Nat) :
    (events ++ [m]).filter (·.layerIdx = i) =
      events.filter (·.layerIdx = i) ++ if m.layerIdx = i then [m] else [] := by
  rw [List.filter_append]
  by_cases h : m.layerIdx = i <;> simp [h]

theorem Paired.of_concat {events : List MemberLayer} {m : MemberLayer}
    (h : Paired (events ++ [m])) : Paired events := by
  intro i
  obtain ⟨w, hw, hpre⟩ := h i
  rw [filter_concat] at hpre
  exact ⟨w, hw, (List.prefix_append _ _).trans hpre⟩

/-- The last event is the first or the second one of its layer. -/
theorem Paired.last {events : List MemberLayer} {m : MemberLayer} (h : Paired (events ++ [m])) :
    events.filter (·.layerIdx = m.layerIdx) = [] ∧ 0 ≤ m.weight ∨
      events.filter (·.layerIdx = m.layerIdx) = [⟨m.layerIdx, -m.weight⟩] ∧ m.weight ≤ 0 := by
  obtain ⟨w, hw, rest, hrest⟩ := h m.layerIdx
  rw [filter_concat, if_pos rfl, List.append_assoc] at hrest
  generalize events.filter (·.layerIdx = m.layerIdx) = past at hrest ⊢
  match past, hrest with
  | [], hrest =>
    obtain ⟨hm, -⟩ := List.cons.inj hrest
    exact .inl ⟨rfl, hm ▸ hw⟩
  | [n], hrest =>
    obtain ⟨hn, hrest⟩ := List.cons.inj hrest
    obtain ⟨hm, -⟩ := List.cons.inj hrest
    have hweight : m.weight = -w := congrArg MemberLayer.weight hm
    refine .inr ⟨?_, by omega⟩
    rw [hn, hweight, Int.neg_neg]
  | [_, _], hrest => simp at hrest
  | _ :: _ :: _ :: _, hrest => simp at hrest

/-- One event keeps the group. -/
theorem Group.step {events : List MemberLayer} {m : MemberLayer} (h : Paired (events ++ [m]))
    {group : List MemberLayer × Int} (hgroup : Group events group) :
    Group (events ++ [m]) (scanMember group m) := by
  have hother : ∀ n : MemberLayer, n.layerIdx ≠ m.layerIdx →
      (events ++ [m]).filter (·.layerIdx = n.layerIdx) =
        events.filter (·.layerIdx = n.layerIdx) := by
    intro n hn
    rw [filter_concat, if_neg hn.symm, List.append_nil]
  have hsame : ∀ n : MemberLayer, n.layerIdx = m.layerIdx →
      (events ++ [m]).filter (·.layerIdx = n.layerIdx) =
        events.filter (·.layerIdx = m.layerIdx) ++ [m] := by
    intro n hn
    rw [hn, filter_concat, if_pos rfl]
  rcases h.last with ⟨hpast, hweight⟩ | ⟨hpast, hweight⟩
  · -- the layer begins
    have habsent : ∀ n ∈ group.1, n.layerIdx ≠ m.layerIdx := by
      intro n hn heq
      have hone := ((hgroup.members n).mp hn).2
      rw [heq, hpast] at hone
      cases hone
    unfold scanMember
    rw [lookup_member_eq_none habsent]
    dsimp only
    split_ifs with hpos
    · refine ⟨SortedVector.add_pairwise hgroup.sorted, fun n => ?_, ?_⟩
      · rw [SortedVector.mem_add_iff hgroup.sorted]
        by_cases hn : n.layerIdx = m.layerIdx
        · rw [hsame n hn, hpast]
          constructor
          · rintro (rfl | ⟨hmem, -⟩)
            · exact ⟨hpos, rfl⟩
            · exact absurd hn (habsent n hmem)
          · rintro ⟨-, heq⟩
            exact .inl (List.singleton_inj.mp heq).symm
        · rw [hother n hn, ← hgroup.members]
          constructor
          · rintro (rfl | ⟨hmem, -⟩)
            · exact absurd rfl hn
            · exact hmem
          · exact fun hmem => .inr ⟨hmem, MemberLayer.lt_or_lt fun heq => hn heq.symm⟩
      · have hperm := SortedVector.add_perm (x := m) fun n hn =>
          MemberLayer.lt_or_lt (habsent n hn).symm
        rw [(hperm.map MemberLayer.weight).sum_eq, List.map_cons, List.sum_cons, hgroup.weight,
          add_comm]
    · refine ⟨hgroup.sorted, fun n => ?_, hgroup.weight⟩
      by_cases hn : n.layerIdx = m.layerIdx
      · rw [hsame n hn, hpast]
        refine iff_of_false (fun hmem => habsent n hmem hn) ?_
        rintro ⟨hpos', heq⟩
        exact hpos ((List.singleton_inj.mp heq) ▸ hpos')
      · rw [hother n hn, ← hgroup.members]
  · -- the layer ends
    have hgone : ∀ n : MemberLayer, n.layerIdx = m.layerIdx →
        ¬(0 < n.weight ∧ (events ++ [m]).filter (·.layerIdx = n.layerIdx) = [n]) := by
      rintro n hn ⟨-, heq⟩
      rw [hsame n hn, hpast] at heq
      cases heq
    set begun : MemberLayer := ⟨m.layerIdx, -m.weight⟩ with hbegun
    by_cases hzero : m.weight = 0
    · have habsent : ∀ n ∈ group.1, n.layerIdx ≠ m.layerIdx := by
        intro n hn heq
        obtain ⟨hpos, hone⟩ := (hgroup.members n).mp hn
        rw [heq, hpast] at hone
        have hweight : n.weight = -m.weight :=
          congrArg MemberLayer.weight (List.singleton_inj.mp hone).symm
        omega
      unfold scanMember
      rw [lookup_member_eq_none habsent]
      dsimp only
      rw [if_neg (by omega)]
      refine ⟨hgroup.sorted, fun n => ?_, hgroup.weight⟩
      by_cases hn : n.layerIdx = m.layerIdx
      · exact iff_of_false (fun hmem => habsent n hmem hn) (hgone n hn)
      · rw [hother n hn, ← hgroup.members]
    · have hpresent : begun ∈ group.1 := by
        refine (hgroup.members begun).mpr ⟨?_, hpast⟩
        change 0 < -m.weight
        omega
      have hlookup : SortedVector.lookup MemberLayer.Lt m group.1 = some begun :=
        (SortedVector.lookup_eq_some_iff hgroup.sorted).mpr
          ⟨hpresent, Nat.lt_irrefl _, Nat.lt_irrefl _⟩
      have hnodup : group.1.Nodup := hgroup.sorted.imp fun h => by
        rintro rfl
        exact Nat.lt_irrefl _ h
      unfold scanMember
      rw [hlookup]
      dsimp only
      rw [if_neg (by omega)]
      refine ⟨hgroup.sorted.sublist List.erase_sublist, fun n => ?_, ?_⟩
      · rw [hnodup.mem_erase_iff]
        by_cases hn : n.layerIdx = m.layerIdx
        · refine iff_of_false ?_ (hgone n hn)
          rintro ⟨hne, hmem⟩
          have hone := ((hgroup.members n).mp hmem).2
          rw [hn, hpast] at hone
          exact hne (List.singleton_inj.mp hone).symm
        · rw [hother n hn, ← hgroup.members]
          refine and_iff_right fun heq => hn ?_
          rw [heq]
      · have hsum := List.sum_map_erase MemberLayer.weight hpresent
        change group.2 + m.weight = _
        rw [hgroup.weight, ← hsum, hbegun]
        dsimp only
        omega

/-- After all events the group holds what they leave. -/
theorem Group.foldl {events : List MemberLayer} (h : Paired events) :
    Group events (events.foldl scanMember ([], 0)) := by
  induction events using List.reverseRecOn with
  | nil => exact ⟨List.Pairwise.nil, fun m => by simp, rfl⟩
  | append_singleton events m ih =>
    rw [List.foldl_append]
    exact (ih h.of_concat).step h

/-! ## Groups and weights -/

/-- The group of a row, with its weight. -/
def rowGroup (overlaps : YVector) (y : Int) : List MemberLayer × Int :=
  (Sweep.upTo y overlaps).flatten.foldl scanMember ([], 0)

/-- What happens to a layer up to a row is that it begins exactly if it covers the row. -/
theorem Job.expected_eq_singleton_iff {job : Job} {i : Nat} {y : Int} {m : MemberLayer} :
    job.expected i y = [m] ↔ job.OnRow i y ∧ m = ⟨i, job.weight i⟩ := by
  unfold Job.expected Job.OnRow
  by_cases hscans : job.Scans i
  · by_cases hlt : (job.area i).top < (job.area i).bottom
    · rw [if_pos ⟨hscans, hlt⟩]
      by_cases htop : (job.area i).top ≤ y
      · by_cases hbottom : (job.area i).bottom ≤ y
        · simp [htop, hbottom]
        · simp [hscans, htop, hbottom, not_le.mp hbottom, eq_comm]
      · have hbottom : ¬(job.area i).bottom ≤ y := fun h => htop (hlt.le.trans h)
        simp [htop, hbottom]
    · rw [if_neg fun h => hlt h.2]
      refine iff_of_false nofun ?_
      rintro ⟨⟨-, htop, hbottom⟩, -⟩
      exact hlt (htop.trans_lt hbottom)
  · rw [if_neg fun h => hscans h.1]
    exact iff_of_false nofun fun h => hscans h.1.1

theorem Job.expected_prefix (job : Job) (i : Nat) (y : Int) :
    job.expected i y <+: [⟨i, job.weight i⟩, ⟨i, -job.weight i⟩] := by
  unfold Job.expected
  split_ifs with h htop hbottom hbottom
  · exact List.prefix_rfl
  · exact ⟨_, rfl⟩
  · exact absurd (h.2.le.trans hbottom) htop
  · exact List.nil_prefix
  · exact List.nil_prefix

section Rows

variable {job : Job} {overlaps : YVector} {vs : List Nat}

/-- The group of a row is that of its layers of positive weight. -/
theorem Job.Holds.rowGroup_spec (h : job.Holds overlaps vs) (y : Int) :
    (rowGroup overlaps y).1.Pairwise MemberLayer.Lt ∧
      (∀ m, m ∈ (rowGroup overlaps y).1 ↔
        m.layerIdx ∈ vs ∧ job.OnRow m.layerIdx y ∧ 0 < job.weight m.layerIdx ∧
          m.weight = job.weight m.layerIdx) ∧
      (rowGroup overlaps y).2 = ((rowGroup overlaps y).1.map MemberLayer.weight).sum := by
  have hpaired : Paired (Sweep.upTo y overlaps).flatten := by
    intro i
    refine ⟨job.weight i, job.weight_nonneg i, ?_⟩
    change history i y overlaps <+: _
    rw [h.histories]
    split_ifs
    · exact job.expected_prefix i y
    · exact List.nil_prefix
  obtain ⟨hsorted, hmembers, hweight⟩ := Group.foldl hpaired
  refine ⟨hsorted, fun m => ?_, hweight⟩
  rw [rowGroup, hmembers]
  change _ ∧ history m.layerIdx y overlaps = [m] ↔ _
  rw [h.histories]
  split_ifs with hm
  · rw [Job.expected_eq_singleton_iff]
    constructor
    · rintro ⟨hpos, hrow, heq⟩
      have hweight : m.weight = job.weight m.layerIdx := congrArg MemberLayer.weight heq
      exact ⟨hm, hrow, hweight ▸ hpos, hweight⟩
    · rintro ⟨-, hrow, hpos, hweight⟩
      exact ⟨hweight ▸ hpos, hrow, by rw [← hweight]⟩
  · exact iff_of_false (fun h => nomatch h.2) fun h => hm h.1

/-- A sum over the group is a sum over the layers that cover the row. -/
theorem Job.Holds.sum_rowGroup (h : job.Holds overlaps vs) (hvs : ∀ i, i ∈ vs ↔ i ∈ job.shown)
    (y : Int) {f : Nat → Int} (hf : ∀ i, job.weight i = 0 → f i = 0) :
    ((rowGroup overlaps y).1.map fun m => f m.layerIdx).sum =
      ∑ i ∈ job.shown, if job.OnRow i y then f i else 0 := by
  obtain ⟨hsorted, hmembers, -⟩ := h.rowGroup_spec y
  have hnodup : ((rowGroup overlaps y).1.map MemberLayer.layerIdx).Nodup :=
    List.pairwise_map.mpr (hsorted.imp fun hlt => Nat.ne_of_lt hlt)
  have hset : ((rowGroup overlaps y).1.map MemberLayer.layerIdx).toFinset =
      job.shown.filter fun i => job.OnRow i y ∧ 0 < job.weight i := by
    ext i
    rw [List.mem_toFinset, List.mem_map, Finset.mem_filter, ← hvs]
    constructor
    · rintro ⟨m, hm, rfl⟩
      obtain ⟨hmem, hrow, hpos, -⟩ := (hmembers m).mp hm
      exact ⟨hmem, hrow, hpos⟩
    · rintro ⟨hmem, hrow, hpos⟩
      exact ⟨⟨i, job.weight i⟩, (hmembers _).mpr ⟨hmem, hrow, hpos, rfl⟩, rfl⟩
  calc ((rowGroup overlaps y).1.map fun m => f m.layerIdx).sum
    _ = (((rowGroup overlaps y).1.map MemberLayer.layerIdx).map f).sum := by
      rw [List.map_map]
      rfl
    _ = ∑ i ∈ job.shown.filter fun i => job.OnRow i y ∧ 0 < job.weight i, f i := by
      rw [← hset, List.sum_toFinset f hnodup]
    _ = ∑ i ∈ job.shown, if job.OnRow i y then f i else 0 := by
      rw [Finset.sum_filter]
      refine Finset.sum_congr rfl fun i _ => ?_
      by_cases hrow : job.OnRow i y
      · rcases (job.weight_nonneg i).lt_or_eq with hpos | hzero
        · rw [if_pos ⟨hrow, hpos⟩, if_pos hrow]
        · rw [if_pos hrow, hf i hzero.symm, ite_self]
      · rw [if_neg fun h => hrow h.1, if_neg hrow]

/-- The weight of the group is that of the row. -/
theorem Job.Holds.rowGroup_weight (h : job.Holds overlaps vs)
    (hvs : ∀ i, i ∈ vs ↔ i ∈ job.shown) (y : Int) :
    (rowGroup overlaps y).2 = job.rowWeight y := by
  obtain ⟨-, hmembers, hweight⟩ := h.rowGroup_spec y
  rw [hweight, Job.rowWeight, ← h.sum_rowGroup hvs y fun _ h => h]
  exact congrArg _ (List.map_congr_left fun m hm => ((hmembers m).mp hm).2.2.2)

/-- The sweep along the row gives the largest weight of scanned layers on it. -/
theorem Job.Holds.checkXOverlap_rowGroup (h : job.Holds overlaps vs)
    (hvs : ∀ i, i ∈ vs ↔ i ∈ job.shown) (hvalid : job.FramesValid) (y : Int) :
    (∀ x, job.scannedAt (x, y) ≤ job.checkXOverlap (rowGroup overlaps y).1) ∧
      ∃ x, job.scannedAt (x, y) = job.checkXOverlap (rowGroup overlaps y).1 := by
  obtain ⟨-, hmembers, -⟩ := h.rowGroup_spec y
  have hscanned : ∀ m ∈ (rowGroup overlaps y).1,
      m.layerIdx < job.layersNum ∧ job.Scans m.layerIdx := fun m hm =>
    ⟨(Job.mem_shown.mp ((hvs _).mp ((hmembers m).mp hm).1)).1, ((hmembers m).mp hm).2.1.1⟩
  have hcover : ∀ x, Sweep.coverage
      ((rowGroup overlaps y).1.map fun m => job.columns m.layerIdx) x = job.scannedAt (x, y) := by
    intro x
    unfold Sweep.coverage
    rw [List.map_map]
    have hsum := h.sum_rowGroup hvs y (f := fun i =>
      if (job.area i).left ≤ x ∧ x < (job.area i).right then job.weight i else 0)
      fun i hzero => by rw [hzero, ite_self]
    refine hsum.trans (Finset.sum_congr rfl fun i _ => ?_)
    rw [← ite_and]
  obtain ⟨hbound, x, hx⟩ := Job.checkXOverlap_spec hvalid hscanned
  exact ⟨fun x => hcover x ▸ hbound x, x, hcover x ▸ hx⟩

end Rows

/-! ## The groups that are kept -/

def rowInterval (overlaps : YVector) (y : Int) : OverlapInterval :=
  ⟨(rowGroup overlaps y).1, (rowGroup overlaps y).2⟩

/-- The groups are those of the rows, added from the first row to the last one. -/
theorem scanYRangeOverlap_eq {before rows : YVector} (h : Sweep.Sorted (before ++ rows))
    (intervals : List OverlapInterval) :
    scanYRangeOverlap rows ((before.map Prod.snd).flatten.foldl scanMember ([], 0)) intervals =
      SortedVector.addAll OverlapInterval.Lt
        (rows.map fun row => rowInterval (before ++ rows) row.1) intervals := by
  induction rows generalizing before intervals with
  | nil => rfl
  | cons row rows ih =>
    have hsplit : before ++ row :: rows = before ++ [row] ++ rows := by simp
    have hgroup : row.2.foldl scanMember
        ((before.map Prod.snd).flatten.foldl scanMember ([], 0)) =
          ((before ++ [row]).map Prod.snd).flatten.foldl scanMember ([], 0) := by
      rw [List.map_append, List.flatten_append, List.foldl_append, List.map_singleton,
        List.flatten_singleton]
    have hrow : rowGroup (before ++ row :: rows) row.1 =
        ((before ++ [row]).map Prod.snd).flatten.foldl scanMember ([], 0) := by
      rw [rowGroup, Sweep.upTo_split h, List.map_append, List.map_singleton]
    rw [scanYRangeOverlap, List.map_cons, SortedVector.addAll, List.foldl_cons, rowInterval,
      hrow, hgroup]
    rw [hsplit] at h ⊢
    exact ih h _

/-! ## The result -/

/-- A layer begins or ends at the row, and at no later row of the same summed weight. -/
def Job.IsKept (job : Job) (y : Int) : Prop :=
  job.IsEdge y ∧ ∀ y', job.IsEdge y' → y < y' → job.rowWeight y' ≠ job.rowWeight y

/-- What the layers weigh at the point bounds the rows of a smaller summed weight. -/
def Job.StopsAt (job : Job) (x y : Int) : Prop :=
  ∀ y', job.IsEdge y' → job.rowWeight y' < job.rowWeight y →
    job.rowWeight y' ≤ job.scannedAt (x, y)

/-- No row of a larger summed weight bounds the rows below it. -/
def Job.Reaches (job : Job) (y : Int) : Prop :=
  ∀ y', job.IsKept y' → job.rowWeight y < job.rowWeight y' →
    ∃ l, job.IsEdge l ∧ job.rowWeight l < job.rowWeight y' ∧
      ∀ x, job.scannedAt (x, y') < job.rowWeight l

/-- The largest weight on the row is that at the column `x`. -/
def Job.IsRowMax (job : Job) (x y : Int) : Prop :=
  ∀ x', job.scannedAt (x', y) ≤ job.scannedAt (x, y)

/-- The row at which the search ends holds the largest overlap. -/
def Job.EndsAtMax (job : Job) : Prop :=
  (∀ y, job.IsEdge y → job.rowWeight y ≤ 0) ∧ job.IsMaxOverlap 0 ∨
    ∃ x y, (job.IsKept y ∧ job.IsRowMax x y ∧ job.StopsAt x y ∧ job.Reaches y) ∧
      job.IsMaxOverlap (job.scannedAt (x, y))

theorem Job.scannedAt_nonneg (job : Job) (p : Int × Int) : 0 ≤ job.scannedAt p :=
  Finset.sum_nonneg fun i _ => by split_ifs <;> [exact job.weight_nonneg i; exact le_rfl]

/-- At a point there is at most what covers its row. -/
theorem Job.scannedAt_le_rowWeight (job : Job) (x y : Int) :
    job.scannedAt (x, y) ≤ job.rowWeight y := by
  refine Finset.sum_le_sum fun i _ => ?_
  by_cases hrow : job.OnRow i y
  · rw [if_pos hrow]
    split_ifs
    · exact le_rfl
    · exact job.weight_nonneg i
  · rw [if_neg fun h => hrow h.1, if_neg hrow]

/-- The groups that the check searches: those of the kept rows, each with the weight of
its row and with what the sweep along the row finds. -/
structure Job.Searches (job : Job) (intervals : List OverlapInterval)
    (row : Int → OverlapInterval) : Prop where
  sorted : intervals.Pairwise OverlapInterval.Lt
  mem_iff : ∀ g, g ∈ intervals ↔ ∃ y, job.IsKept y ∧ row y = g
  value : ∀ y, (row y).value = job.rowWeight y
  bound : ∀ x y, job.scannedAt (x, y) ≤ job.checkXOverlap (row y).layers
  attained : ∀ y, ∃ x, job.scannedAt (x, y) = job.checkXOverlap (row y).layers
  exists_kept : ∀ y, job.IsEdge y → ∃ y', job.IsKept y' ∧ job.rowWeight y' = job.rowWeight y

theorem Job.searches {job : Job} (hvalid : job.FramesValid) :
    ∃ row, job.Searches
      (scanYRangeOverlap (job.visited.foldl job.addYRangeVector []) ([], 0) []) row := by
  obtain ⟨hnodup, hvs⟩ := job.visited_spec
  obtain ⟨overlaps, hov⟩ : ∃ o, job.visited.foldl job.addYRangeVector [] = o := ⟨_, rfl⟩
  have hempty : job.Holds [] [] := ⟨List.Pairwise.nil, fun _ _ => rfl, fun y => by simp⟩
  have hholds : job.Holds overlaps job.visited := by
    have hfold := Job.Holds.foldl hvalid hempty (by simpa using hnodup)
      fun i hi => (Job.mem_shown.mp ((hvs i).mp hi)).1
    rwa [hov] at hfold
  have hedge : ∀ y, y ∈ overlaps.map Prod.fst ↔ job.IsEdge y := by
    intro y
    rw [hholds.edges]
    simp only [Job.IsEdge, hvs]
  have hvalue : ∀ y, (rowInterval overlaps y).value = job.rowWeight y :=
    hholds.rowGroup_weight hvs
  have hexact := hholds.checkXOverlap_rowGroup hvs hvalid
  have hall : scanYRangeOverlap overlaps ([], 0) [] = SortedVector.addAll OverlapInterval.Lt
      ((overlaps.map Prod.fst).map (rowInterval overlaps)) [] := by
    rw [List.map_map]
    have hnil : Sweep.Sorted ([] ++ overlaps) := hholds.sorted
    exact scanYRangeOverlap_eq hnil []
  have hkeys : (overlaps.map Prod.fst).Pairwise (· < ·) := List.pairwise_map.mpr hholds.sorted
  have hmem : ∀ g, g ∈ scanYRangeOverlap overlaps ([], 0) [] ↔
      ∃ y, job.IsKept y ∧ rowInterval overlaps y = g := by
    intro g
    rw [hall, SortedVector.mem_addAll_map_iff hkeys]
    constructor
    · rintro ⟨y, hy, rfl, hlater⟩
      refine ⟨y, ⟨(hedge y).mp hy, fun y' hy' hlt heq => ?_⟩, rfl⟩
      have hne := hlater y' ((hedge y').mpr hy') hlt
      simp only [OverlapInterval.Lt, hvalue, heq, lt_irrefl, or_self] at hne
    · rintro ⟨y, ⟨hy, hlater⟩, rfl⟩
      refine ⟨y, (hedge y).mpr hy, rfl, fun y' hy' hlt => ?_⟩
      have hne := hlater y' ((hedge y').mp hy') hlt
      simp only [OverlapInterval.Lt, hvalue]
      exact lt_or_gt_of_ne hne.symm
  rw [hov]
  refine ⟨rowInterval overlaps, ?_, hmem, hvalue, fun x y => (hexact y).1 x,
    fun y => (hexact y).2, fun y hy => ?_⟩
  · rw [hall]
    exact SortedVector.addAll_pairwise List.Pairwise.nil
  · have hin : rowInterval overlaps y ∈ (overlaps.map Prod.fst).map (rowInterval overlaps) :=
      List.mem_map_of_mem ((hedge y).mpr hy)
    have hequal : ∃ g ∈ SortedVector.addAll OverlapInterval.Lt _ [],
        ¬OverlapInterval.Lt _ g ∧ ¬OverlapInterval.Lt g _ :=
      SortedVector.exists_equal_mem_addAll hin
    obtain ⟨g, hg, hlt, hgt⟩ := hequal
    rw [← hall] at hg
    obtain ⟨y', hy', rfl⟩ := (hmem g).mp hg
    simp only [OverlapInterval.Lt, hvalue, not_lt] at hlt hgt
    exact ⟨y', hy', le_antisymm hlt hgt⟩

section Searches

variable {job : Job} {intervals : List OverlapInterval} {row : Int → OverlapInterval}

/-- What the sweep along a row finds is what the largest column of the row weighs. -/
theorem Job.Searches.eq_iff (h : job.Searches intervals row) {y m : Int} :
    job.checkXOverlap (row y).layers = m ↔
      ∃ x, job.IsRowMax x y ∧ job.scannedAt (x, y) = m := by
  obtain ⟨x, hx⟩ := h.attained y
  constructor
  · rintro rfl
    exact ⟨x, fun x' => hx ▸ h.bound x' y, hx⟩
  · rintro ⟨x', hmax, rfl⟩
    exact le_antisymm (hx ▸ hmax x) (h.bound x' y)

/-- The search stops at a group as the rows say. -/
theorem Job.Searches.stopsAt_iff (h : job.Searches intervals row) {x y : Int}
    (hx : job.IsRowMax x y) :
    Sweep.StopsAt OverlapInterval.value (fun g => job.checkXOverlap g.layers)
      intervals.reverse (row y) ↔ job.StopsAt x y := by
  have hexact := h.eq_iff.mpr ⟨x, hx, rfl⟩
  unfold Sweep.StopsAt Job.StopsAt
  dsimp only
  rw [hexact]
  constructor
  · intro hstops y' hy' hlt
    obtain ⟨k, hk, heq⟩ := h.exists_kept y' hy'
    have hbelow := hstops (row k) (List.mem_reverse.mpr ((h.mem_iff _).mpr ⟨k, hk, rfl⟩))
    rw [h.value, h.value, heq] at hbelow
    exact hbelow hlt
  · intro hstops g hg hlt
    obtain ⟨k, hk, rfl⟩ := (h.mem_iff g).mp (List.mem_reverse.mp hg)
    rw [h.value, h.value] at hlt
    rw [h.value]
    exact hstops k hk.1 hlt

/-- The search reaches a group as the rows say. -/
theorem Job.Searches.reaches_iff (h : job.Searches intervals row) {y : Int} :
    Sweep.Reaches OverlapInterval.value (fun g => job.checkXOverlap g.layers)
      intervals.reverse (row y) ↔ job.Reaches y := by
  have hin : ∀ k, job.IsKept k → row k ∈ intervals.reverse := fun k hk =>
    List.mem_reverse.mpr ((h.mem_iff _).mpr ⟨k, hk, rfl⟩)
  constructor
  · intro hreaches y' hy' hlt
    obtain ⟨g, hg, hvalue, hbelow⟩ := hreaches (row y') (hin y' hy') (by rwa [h.value, h.value])
    obtain ⟨l, hl, rfl⟩ := (h.mem_iff g).mp (List.mem_reverse.mp hg)
    rw [h.value, h.value] at hvalue
    refine ⟨l, hl.1, hvalue, fun x => (h.bound x y').trans_lt ?_⟩
    rwa [h.value] at hbelow
  · intro hreaches g hg hlt
    obtain ⟨y', hy', rfl⟩ := (h.mem_iff g).mp (List.mem_reverse.mp hg)
    rw [h.value, h.value] at hlt
    obtain ⟨l, hl, hvalue, hbelow⟩ := hreaches y' hy' hlt
    obtain ⟨k, hk, heq⟩ := h.exists_kept l hl
    obtain ⟨x, hx⟩ := h.attained y'
    refine ⟨row k, hin k hk, ?_, ?_⟩
    · rwa [h.value, h.value, heq]
    · dsimp only
      rw [← hx, h.value, heq]
      exact hbelow x

/-- What holds of the weights of all groups holds of the weights of all rows. -/
theorem Job.Searches.forall_iff (h : job.Searches intervals row) {p : Int → Prop} :
    (∀ g ∈ intervals.reverse, p g.value) ↔ ∀ y, job.IsEdge y → p (job.rowWeight y) := by
  constructor
  · intro hall y hy
    obtain ⟨k, hk, heq⟩ := h.exists_kept y hy
    rw [← heq, ← h.value k]
    exact hall _ (List.mem_reverse.mpr ((h.mem_iff _).mpr ⟨k, hk, rfl⟩))
  · intro hall g hg
    obtain ⟨y, hy, rfl⟩ := (h.mem_iff g).mp (List.mem_reverse.mp hg)
    rw [h.value]
    exact hall y hy.1

end Searches

/-- The check gives the largest weight of the row at which its search ends. -/
theorem Job.checkXYOverlap_eq_iff {job : Job} (hvalid : job.FramesValid) {m : Int} :
    job.checkXYOverlap = m ↔
      m = 0 ∧ (∀ y, job.IsEdge y → job.rowWeight y ≤ 0) ∨
        (∃ y, job.IsEdge y ∧ 0 < job.rowWeight y) ∧
          ∃ x y, (job.IsKept y ∧ job.IsRowMax x y ∧ job.StopsAt x y ∧ job.Reaches y) ∧
            job.scannedAt (x, y) = m := by
  obtain ⟨row, h⟩ := job.searches hvalid
  unfold Job.checkXYOverlap
  rw [Sweep.searchDown_eq_iff (List.pairwise_reverse.mpr h.sorted)]
  have hnone := h.forall_iff (p := fun v => v ≤ 0)
  refine or_congr (and_congr eq_comm hnone) (and_congr ?_ ?_)
  · have hnot := (h.forall_iff (p := fun v => ¬0 < v)).not
    simpa using hnot
  · constructor
    · rintro ⟨g, hg, hexact, hstops, hreaches⟩
      obtain ⟨y, hy, rfl⟩ := (h.mem_iff g).mp (List.mem_reverse.mp hg)
      obtain ⟨x, hx, hm⟩ := h.eq_iff.mp hexact
      exact ⟨x, y, ⟨hy, hx, (h.stopsAt_iff hx).mp hstops, h.reaches_iff.mp hreaches⟩, hm⟩
    · rintro ⟨x, y, ⟨hy, hx, hstops, hreaches⟩, hm⟩
      exact ⟨row y, List.mem_reverse.mpr ((h.mem_iff _).mpr ⟨y, hy, rfl⟩),
        h.eq_iff.mpr ⟨x, hx, hm⟩, (h.stopsAt_iff hx).mpr hstops, h.reaches_iff.mpr hreaches⟩

/-- Layers of four bytes on a display of 60 frames in a second. -/
def uiJob (frames : List Rect) : Job where
  dimHw := false
  display := ⟨16666666, 1080, 1920⟩
  layers i := ⟨.ui, 4, frames.getD i ⟨0, 0, 1, 1⟩⟩
  layersNum := frames.length
  gles := none

end MtkHw.Hwc.Hrt
