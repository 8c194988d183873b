import Mathlib.Algebra.BigOperators.Group.Finset.Basic
import Mathlib.Algebra.BigOperators.Ring.Finset
import Mathlib.Algebra.Order.BigOperators.Group.Finset
import Mathlib.Algebra.Order.Ring.Int
import Mathlib.Logic.Function.Basic
import MtkHw.Hwc.Hrt

/-!
# The limit of the overlapping bandwidth

The overlay engine may read `ovl_overlap_limit` layers of the primary display at a
point.  When the displays need more, `arrangeDisplaysOverlap` goes from the last
display to the first one and gives layers to the GPU until what is left of a display
fits; for each display before it one input of the primary display is reserved.  A
range that loses layers or leaves the list aborts the process.

The quotients are taken exactly; the code computes them in single precision, which is
exact for the weights of real displays.
-/

namespace MtkHw.Hwc.Hrt

/-! ## Displays -/

/-- What the dispatcher keeps for a display: the layers of its list, the range of the
GPU (both ends `-1` if there is none), and the overlap, as inputs of the primary
display and as a weight. -/
structure DispatcherJob where
  layersNum : Nat
  glesHead : Int
  glesTail : Int
  maxOverlapLayerNum : Int
  maxOverlapLayerNumW : Nat
deriving DecidableEq, Repr

structure Connection where
  display : Display
  mirror : Bool
  job : Option DispatcherJob

abbrev Connections := Nat → Connection

/-- `HWC_DISPLAY_VIRTUAL`. -/
abbrev virtualDpy : Nat := 2

/-- `DisplayManager::MAX_DISPLAYS`. -/
abbrev maxDisplays : Nat := 3

def getExistJob (cs : Connections) (i : Nat) : Option DispatcherJob :=
  if maxDisplays ≤ i then none else (cs i).job

/-- The job of a display that takes part: a virtual display does not, and one that
mirrors another does not. -/
def overlapJob (cs : Connections) (i : Nat) : Option DispatcherJob :=
  if i = virtualDpy then none else (getExistJob cs i).filter fun _ => !(cs i).mirror

/-- What one input of a display needs: four bytes for each point. -/
def Display.weight (d : Display) : Nat := d.fps * 4

/-- The overlap of the displays before `n`. -/
def totalOverlap (cs : Connections) (n : Nat) : Nat :=
  ∑ i ∈ Finset.range n, ((overlapJob cs i).map DispatcherJob.maxOverlapLayerNumW).getD 0

def setJob (cs : Connections) (i : Nat) (job : DispatcherJob) : Connections :=
  Function.update cs i { cs i with job := some job }

/-! ## Arranging the displays -/

/-- Write the overlap of all displays, in inputs of the primary one, to its job. -/
def fillDisplaysOverlapResult (limit : Int) (n : Nat) (cs : Connections) : Connections :=
  if limit ≤ 0 then cs
  else
    let weight := Int.tdiv (10 ^ 9) (cs 0).display.refresh * 4
    let total : Int := totalOverlap cs n
    match getExistJob cs 0 with
    | some job =>
      if 0 < weight ∧ 0 < total then
        setJob cs 0 { job with maxOverlapLayerNum := (total + weight - 1) / weight }
      else cs
    | none => cs

/-- The range with which a list of layers uses `pushNum` inputs. -/
def DispatcherJob.pushRange (job : DispatcherJob) (pushNum : Int) : Int × Int :=
  if pushNum ≤ job.glesHead ∨ job.glesHead = -1 then (pushNum - 1, job.layersNum - 1)
  else (job.glesHead, job.glesHead + (job.layersNum - pushNum))

/-- One display: the bandwidth that remains, and the displays; `none` aborts. -/
def arrangeDisplay (mainWeight : Int) (i : Nat) (s : Int × Connections) :
    Option (Int × Connections) :=
  match overlapJob s.2 i with
  | none => some s
  | some job =>
    let valid := s.1 - i * mainWeight
    if valid - job.maxOverlapLayerNumW < 0 then
      let range := job.pushRange (valid / (s.2 i).display.weight)
      if 0 ≤ job.glesHead ∧ (job.glesHead < range.1 ∨ range.2 < job.glesTail) then none
      else if range.1 < 0 ∨ range.2 < 0 ∨ job.layersNum ≤ range.1 ∨ job.layersNum ≤ range.2 then
        none
      else some (i * mainWeight, setJob s.2 i { job with glesHead := range.1, glesTail := range.2 })
    else some (s.1 - job.maxOverlapLayerNumW, s.2)

/-- The displays before `i`, from the last one to the first one. -/
def arrangeFrom (mainWeight : Int) : Nat → Int × Connections → Option (Int × Connections)
  | 0, s => some s
  | i + 1, s => (arrangeDisplay mainWeight i s).bind (arrangeFrom mainWeight i)

/-- Whether layers may have been given to the GPU, and the displays; `none` aborts. -/
def arrangeDisplaysOverlap (limit : Int) (n : Nat) (cs : Connections) :
    Option (Bool × Connections) :=
  if limit ≤ 0 then some (false, cs)
  else
    let mainWeight : Int := (cs 0).display.weight
    let cs := fillDisplaysOverlapResult limit n cs
    match getExistJob cs 0 with
    | none => some (false, cs)
    | some job =>
      if job.maxOverlapLayerNum ≤ limit then some (false, cs)
      else (arrangeFrom mainWeight n (limit * mainWeight, cs)).map fun s => (true, s.2)

/-! ## What the limit asks for -/

/-- The overlay inputs that a list of layers uses: one for each layer outside the
GPU's range, and one for the range. -/
def DispatcherJob.inputs (job : DispatcherJob) : Int :=
  if job.glesHead = -1 then job.layersNum else job.layersNum - (job.glesTail - job.glesHead)

/-- The range is that of a list, and the overlap is at most what the inputs need. -/
structure DispatcherJob.Valid (job : DispatcherJob) (weight : Nat) : Prop where
  range : job.glesHead = -1 ∧ job.glesTail = -1 ∨
    0 ≤ job.glesHead ∧ job.glesHead ≤ job.glesTail ∧ job.glesTail < job.layersNum
  bound : (job.maxOverlapLayerNumW : Int) ≤ job.inputs * weight

/-- The displays that take part are valid, and the primary one has a refresh time. -/
structure Connections.Valid (cs : Connections) : Prop where
  refresh : 0 < (cs 0).display.refresh
  jobs : ∀ i, ∀ job ∈ overlapJob cs i, job.Valid (cs i).display.weight

def DispatcherJob.SameRange (a b : DispatcherJob) : Prop :=
  a.glesHead = b.glesHead ∧ a.glesTail = b.glesTail

instance (a b : DispatcherJob) : Decidable (a.SameRange b) := by
  unfold DispatcherJob.SameRange; infer_instance

/-- A range that is changed lies in the list and contains the one from before. -/
def DispatcherJob.Extends (after before : DispatcherJob) : Prop :=
  after.SameRange before ∨
    (0 ≤ after.glesHead ∧ after.glesHead ≤ after.glesTail ∧ after.glesTail < before.layersNum) ∧
      (0 ≤ before.glesHead →
        after.glesHead ≤ before.glesHead ∧ before.glesTail ≤ after.glesTail)

/-- What the inputs of a display need: its overlap if its range is as before, and else
all its inputs. -/
def bandwidth (cs cs' : Connections) (i : Nat) : Int :=
  match overlapJob cs i, overlapJob cs' i with
  | some before, some after =>
    if after.SameRange before then before.maxOverlapLayerNumW
    else after.inputs * (cs i).display.weight
  | _, _ => 0

/-- The process does not abort, ranges only grow inside their lists, and the inputs
need at most what the limit allows. -/
def MeetsLimit (limit : Int) (n : Nat) (cs : Connections) : Prop :=
  ∃ changed cs', arrangeDisplaysOverlap limit n cs = some (changed, cs') ∧
    (∀ i, ∀ before ∈ (cs i).job, ∃ after ∈ (cs' i).job, after.Extends before) ∧
    ∑ i ∈ Finset.range n, bandwidth cs cs' i ≤ limit * (cs 0).display.weight

/-- The displays fit as they are. -/
def Fits (limit : Int) (n : Nat) (cs : Connections) : Prop :=
  (totalOverlap cs n : Int) ≤ limit * (cs 0).display.weight

/-- The external display leaves one input to the primary one: it takes no part, or its
overlap leaves one, or one of its own inputs does. -/
def ExternalLeavesInput (limit : Int) (n : Nat) (cs : Connections) : Prop :=
  1 < n → ∀ job ∈ overlapJob cs 1,
    (job.maxOverlapLayerNumW : Int) ≤ (limit - 1) * (cs 0).display.weight ∨
      ((cs 1).display.weight : Int) ≤ (limit - 1) * (cs 0).display.weight

/-! ## Pushing the layers of one display -/

section Push

variable {job : DispatcherJob} {weight : Nat} {v : Int}

/-- The inputs that are left are less than those from before, and they fit. -/
theorem DispatcherJob.Valid.push_lt (h : job.Valid weight) (hv : v < job.maxOverlapLayerNumW)
    (hpush : 1 ≤ v / weight) : v / weight < job.inputs ∧ v / weight * weight ≤ v := by
  have hweight : (weight : Int) ≠ 0 := by
    intro hzero
    rw [hzero, Int.ediv_zero] at hpush
    exact absurd hpush (by decide)
  have hle : v / weight * weight ≤ v := Int.ediv_mul_le v hweight
  have hlt : v / weight * weight < job.inputs * weight := hle.trans_lt (hv.trans_le h.bound)
  exact ⟨lt_of_mul_lt_mul_right hlt (Int.natCast_nonneg _), hle⟩

/-- With at least one input, and with fewer than before, the range grows in its list. -/
theorem DispatcherJob.Valid.pushRange_spec (h : job.Valid weight) {p : Int} (hp : 1 ≤ p)
    (hlt : p < job.inputs) :
    let range := job.pushRange p
    (0 ≤ range.1 ∧ range.1 ≤ range.2 ∧ range.2 < job.layersNum) ∧
      (0 ≤ job.glesHead → range.1 ≤ job.glesHead ∧ job.glesTail ≤ range.2) ∧
        job.layersNum - (range.2 - range.1) = p := by
  have hrange := h.range
  unfold DispatcherJob.inputs at hlt
  unfold DispatcherJob.pushRange
  split_ifs at hlt ⊢ <;> refine ⟨⟨?_, ?_, ?_⟩, fun _ => ⟨?_, ?_⟩, ?_⟩ <;> dsimp only <;> omega

/-- Without an input the range would begin before the list. -/
theorem DispatcherJob.Valid.pushRange_neg (h : job.Valid weight) {p : Int} (hp : p < 1) :
    (job.pushRange p).1 < 0 := by
  have hrange := h.range
  unfold DispatcherJob.pushRange
  split_ifs <;> dsimp only <;> omega

end Push

/-! ## One display -/

theorem overlapJob_congr {cs cs' : Connections} {i : Nat} (h : cs i = cs' i) :
    overlapJob cs i = overlapJob cs' i := by
  unfold overlapJob getExistJob
  rw [h]

/-- A display that takes part does so with its new job. -/
theorem overlapJob_setJob {cs : Connections} {i : Nat} {job : DispatcherJob}
    (h : job ∈ overlapJob cs i) (after : DispatcherJob) :
    overlapJob (setJob cs i after) i = some after ∧ (cs i).job = some job := by
  unfold overlapJob getExistJob at h ⊢
  unfold setJob
  rw [Function.update_self]
  split_ifs at h ⊢ with hvirtual hmax
  · cases h
  · cases h
  · obtain ⟨hjob, hmirror⟩ := Option.filter_eq_some_iff.mp h
    exact ⟨Option.filter_eq_some_iff.mpr ⟨rfl, hmirror⟩, hjob⟩

/-- What happens to a display: it takes no part, or it fits, or nothing of it fits and
the process aborts, or its range grows until its inputs fit. -/
theorem arrangeDisplay_spec {mainWeight : Int} {i : Nat} {s : Int × Connections}
    (hvalid : ∀ job ∈ overlapJob s.2 i, job.Valid (s.2 i).display.weight) :
    overlapJob s.2 i = none ∧ arrangeDisplay mainWeight i s = some s ∨
      ∃ job ∈ overlapJob s.2 i, let v := s.1 - i * mainWeight
        (job.maxOverlapLayerNumW : Int) ≤ v ∧
            arrangeDisplay mainWeight i s = some (s.1 - job.maxOverlapLayerNumW, s.2) ∨
          v < job.maxOverlapLayerNumW ∧
            (v / (s.2 i).display.weight < 1 ∧ arrangeDisplay mainWeight i s = none ∨
              ∃ after : DispatcherJob,
                arrangeDisplay mainWeight i s = some (i * mainWeight, setJob s.2 i after) ∧
                  after.Extends job ∧ ¬after.SameRange job ∧
                    after.inputs = v / (s.2 i).display.weight ∧
                      v / (s.2 i).display.weight * (s.2 i).display.weight ≤ v ∧
                        1 ≤ v / (s.2 i).display.weight) := by
  unfold arrangeDisplay
  cases hjob : overlapJob s.2 i with
  | none => exact .inl ⟨rfl, rfl⟩
  | some job =>
    have hin := hvalid job hjob
    refine .inr ⟨job, rfl, ?_⟩
    dsimp only
    split_ifs with hover hlost hout
    · -- the range never loses layers
      refine .inr ⟨by omega, .inl ⟨?_, rfl⟩⟩
      by_contra hpush
      obtain ⟨hlt, -⟩ := hin.push_lt (by omega) (not_lt.mp hpush)
      obtain ⟨-, hkeep, -⟩ := hin.pushRange_spec (not_lt.mp hpush) hlt
      have hkept := hkeep hlost.1
      omega
    · refine .inr ⟨by omega, .inl ⟨?_, rfl⟩⟩
      by_contra hpush
      obtain ⟨hlt, -⟩ := hin.push_lt (by omega) (not_lt.mp hpush)
      obtain ⟨hrange, -, -⟩ := hin.pushRange_spec (not_lt.mp hpush) hlt
      omega
    · have hpush : 1 ≤ (s.1 - i * mainWeight) / ((s.2 i).display.weight : Int) := by
        by_contra hpush
        exact hout (.inl (hin.pushRange_neg (not_le.mp hpush)))
      obtain ⟨hlt, hle⟩ := hin.push_lt (by omega) hpush
      obtain ⟨hrange, hkeep, hinputs⟩ := hin.pushRange_spec hpush hlt
      have hafter : DispatcherJob.inputs { job with
          glesHead := (job.pushRange ((s.1 - i * mainWeight) / (s.2 i).display.weight)).1
          glesTail := (job.pushRange ((s.1 - i * mainWeight) / (s.2 i).display.weight)).2 } =
            (s.1 - i * mainWeight) / (s.2 i).display.weight := by
        unfold DispatcherJob.inputs
        dsimp only
        rw [if_neg (by omega), hinputs]
      refine .inr ⟨by omega, .inr ⟨_, rfl, .inr ⟨hrange, hkeep⟩, ?_, hafter, hle, hpush⟩⟩
      rintro ⟨hhead, htail⟩
      dsimp only at hhead htail
      unfold DispatcherJob.inputs at hlt
      rw [← hhead, ← htail, if_neg (by omega), hinputs] at hlt
      exact lt_irrefl _ hlt
    · exact .inl ⟨by omega, rfl⟩

/-- The other displays stay as they are. -/
theorem arrangeDisplay_of_ne {mainWeight : Int} {i j : Nat} {s s' : Int × Connections}
    (h : arrangeDisplay mainWeight i s = some s') (hj : j ≠ i) : s'.2 j = s.2 j := by
  unfold arrangeDisplay at h
  split at h
  · cases h
    rfl
  · dsimp only at h
    split_ifs at h <;> cases h
    · exact Function.update_of_ne hj _ _
    · rfl

/-! ## All displays -/

theorem bandwidth_congr {cs cs' ds ds' : Connections} {i : Nat} (h : cs i = ds i)
    (h' : cs' i = ds' i) : bandwidth cs cs' i = bandwidth ds ds' i := by
  unfold bandwidth
  rw [overlapJob_congr h, overlapJob_congr h', h]

theorem bandwidth_self (cs : Connections) (i : Nat) :
    bandwidth cs cs i = ((overlapJob cs i).map DispatcherJob.maxOverlapLayerNumW).getD 0 := by
  unfold bandwidth
  cases overlapJob cs i with
  | none => rfl
  | some job => exact if_pos ⟨rfl, rfl⟩

/-- Without a change the inputs need the overlap. -/
theorem sum_bandwidth_self (cs : Connections) (n : Nat) :
    ∑ i ∈ Finset.range n, bandwidth cs cs i = totalOverlap cs n := by
  unfold totalOverlap
  rw [Nat.cast_sum]
  exact Finset.sum_congr rfl fun i _ => bandwidth_self cs i

theorem DispatcherJob.Extends.refl (job : DispatcherJob) : job.Extends job := .inl ⟨rfl, rfl⟩

/-- What one display needs, when the process does not abort, is taken from what remains,
and the reserved inputs stay. -/
theorem arrangeDisplay_bandwidth {mainWeight : Int} (hmain : 0 ≤ mainWeight) {i : Nat}
    {s s' : Int × Connections}
    (hvalid : ∀ job ∈ overlapJob s.2 i, job.Valid (s.2 i).display.weight) (hremain : 0 ≤ s.1)
    (h : arrangeDisplay mainWeight i s = some s') :
    (0 ≤ s'.1 ∧ (i * mainWeight ≤ s.1 → i * mainWeight ≤ s'.1)) ∧
      bandwidth s.2 s'.2 i + s'.1 ≤ s.1 ∧
      ∀ before ∈ (s.2 i).job, ∃ after ∈ (s'.2 i).job, after.Extends before := by
  have hreserve : 0 ≤ i * mainWeight := Int.mul_nonneg (Int.natCast_nonneg _) hmain
  rcases @arrangeDisplay_spec mainWeight i s hvalid with ⟨hnone, heq⟩ | ⟨job, hjob, hcase⟩
  · rw [heq] at h
    cases h
    refine ⟨⟨hremain, id⟩, ?_, fun before hbefore => ⟨before, hbefore, .refl before⟩⟩
    rw [bandwidth_self, hnone]
    exact (zero_add _).le
  · rcases hcase with ⟨hfits, heq⟩ | ⟨-, ⟨-, heq⟩ | ⟨after, heq, hextends, hchanged, hinputs, hle,
      -⟩⟩
    · rw [heq] at h
      cases h
      have hleft : i * mainWeight ≤ s.1 - job.maxOverlapLayerNumW := by omega
      refine ⟨⟨hreserve.trans hleft, fun _ => hleft⟩, ?_,
        fun before hbefore => ⟨before, hbefore, .refl before⟩⟩
      rw [bandwidth_self, hjob]
      change (job.maxOverlapLayerNumW : Int) + (s.1 - job.maxOverlapLayerNumW) ≤ s.1
      omega
    · rw [heq] at h
      cases h
    · rw [heq] at h
      cases h
      obtain ⟨hafter, hbefore⟩ := overlapJob_setJob hjob after
      refine ⟨⟨hreserve, fun _ => le_rfl⟩, ?_, ?_⟩
      · unfold bandwidth
        rw [hafter, hjob]
        dsimp only
        rw [if_neg hchanged, hinputs]
        omega
      · rw [hbefore]
        rintro _ ⟨⟩
        exact ⟨after, by simp [setJob], hextends⟩

/-- When the process does not abort, the ranges only grow and the inputs need at most
what remained at the start. -/
theorem arrangeFrom_spec {mainWeight : Int} (hmain : 0 ≤ mainWeight) {i : Nat}
    {s s' : Int × Connections}
    (hvalid : ∀ j < i, ∀ job ∈ overlapJob s.2 j, job.Valid (s.2 j).display.weight)
    (hremain : 0 ≤ s.1) (h : arrangeFrom mainWeight i s = some s') :
    (∀ j, i ≤ j → s'.2 j = s.2 j) ∧
      (∀ j, ∀ before ∈ (s.2 j).job, ∃ after ∈ (s'.2 j).job, after.Extends before) ∧
        ∑ j ∈ Finset.range i, bandwidth s.2 s'.2 j ≤ s.1 := by
  induction i generalizing s with
  | zero =>
    cases h
    exact ⟨fun _ _ => rfl, fun j before hbefore => ⟨before, hbefore, .refl before⟩, hremain⟩
  | succ i ih =>
    obtain ⟨t, hstep, hrest⟩ := Option.bind_eq_some_iff.mp h
    have hother : ∀ j, j ≠ i → t.2 j = s.2 j := fun j => arrangeDisplay_of_ne hstep
    obtain ⟨⟨ht, -⟩, hused, hgrows⟩ :=
      arrangeDisplay_bandwidth hmain (hvalid i (Nat.lt_succ_self i)) hremain hstep
    have hvalid' : ∀ j < i, ∀ job ∈ overlapJob t.2 j, job.Valid (t.2 j).display.weight := by
      intro j hj
      rw [overlapJob_congr (hother j hj.ne), hother j hj.ne]
      exact hvalid j (hj.trans (Nat.lt_succ_self i))
    obtain ⟨hframe, hextends, hsum⟩ := ih hvalid' ht hrest
    refine ⟨fun j hj => ?_, fun j before hbefore => ?_, ?_⟩
    · exact (hframe j (Nat.le_of_succ_le hj)).trans (hother j (Nat.ne_of_gt hj))
    · by_cases hj : j = i
      · subst hj
        rw [hframe j le_rfl]
        exact hgrows before hbefore
      · exact hextends j before (by rwa [hother j hj])
    · rw [Finset.sum_range_succ, bandwidth_congr rfl (hframe i le_rfl)]
      have hbefore : ∑ j ∈ Finset.range i, bandwidth s.2 s'.2 j =
          ∑ j ∈ Finset.range i, bandwidth t.2 s'.2 j :=
        Finset.sum_congr rfl fun j hj =>
          bandwidth_congr (hother j (Finset.mem_range.mp hj).ne).symm rfl
      omega

/-! ## When the process aborts -/

/-- One display aborts the process exactly if it does not fit and none of its inputs does. -/
theorem arrangeDisplay_isSome_iff {mainWeight : Int} {i : Nat} {s : Int × Connections}
    (hvalid : ∀ job ∈ overlapJob s.2 i, job.Valid (s.2 i).display.weight)
    (hv : i * mainWeight ≤ s.1) :
    (arrangeDisplay mainWeight i s).isSome ↔ ∀ job ∈ overlapJob s.2 i,
      (job.maxOverlapLayerNumW : Int) ≤ s.1 - i * mainWeight ∨
        ((s.2 i).display.weight : Int) ≤ s.1 - i * mainWeight := by
  rcases @arrangeDisplay_spec mainWeight i s hvalid with ⟨hnone, heq⟩ | ⟨job, hjob, hcase⟩
  · rw [heq, hnone]
    exact iff_of_true rfl nofun
  · have hone : (∀ j ∈ overlapJob s.2 i, (j.maxOverlapLayerNumW : Int) ≤ s.1 - i * mainWeight ∨
        ((s.2 i).display.weight : Int) ≤ s.1 - i * mainWeight) ↔
          (job.maxOverlapLayerNumW : Int) ≤ s.1 - i * mainWeight ∨
            ((s.2 i).display.weight : Int) ≤ s.1 - i * mainWeight := by
      rw [Option.mem_def.mp hjob]
      exact ⟨fun h => h job rfl, fun h => by rintro _ ⟨⟩; exact h⟩
    rw [hone]
    rcases hcase with ⟨hfits, heq⟩ | ⟨hover, hcase⟩
    · rw [heq]
      exact iff_of_true rfl (.inl hfits)
    · -- an overlap that does not fit has inputs of positive weight
      have hweight : (0 : Int) < (s.2 i).display.weight := by
        refine lt_of_le_of_ne (Int.natCast_nonneg _) fun hzero => ?_
        have hbound := (hvalid job hjob).bound
        rw [← hzero, mul_zero] at hbound
        omega
      have hpush : (s.1 - i * mainWeight) / (s.2 i).display.weight < 1 ↔
          s.1 - i * mainWeight < (s.2 i).display.weight := by
        rw [Int.ediv_lt_iff_lt_mul hweight, one_mul]
      rcases hcase with ⟨hlost, heq⟩ | ⟨after, heq, -, -, -, -, hone⟩
      · rw [heq]
        refine iff_of_false nofun ?_
        rintro (hle | hle)
        · exact absurd hle (not_le.mpr hover)
        · exact absurd (hpush.mp hlost) (not_lt.mpr hle)
      · rw [heq]
        refine iff_of_true rfl (.inr ?_)
        exact not_lt.mp fun hlt => absurd (hpush.mpr hlt) (not_lt.mpr hone)

/-- There are no displays from the third one on. -/
theorem overlapJob_of_two_le {cs : Connections} {i : Nat} (h : 2 ≤ i) : overlapJob cs i = none := by
  unfold overlapJob getExistJob virtualDpy maxDisplays
  split_ifs with hvirtual hmax
  · rfl
  · rfl
  · omega

theorem arrangeFrom_add_two (mainWeight : Int) (k : Nat) (s : Int × Connections) :
    arrangeFrom mainWeight (k + 2) s = arrangeFrom mainWeight 2 s := by
  induction k with
  | zero => rfl
  | succ k ih =>
    have hskip : arrangeDisplay mainWeight (k + 2) s = some s := by
      unfold arrangeDisplay
      rw [overlapJob_of_two_le (Nat.le_add_left 2 k)]
    rw [← ih]
    change (arrangeDisplay mainWeight (k + 2) s).bind _ = _
    rw [hskip]
    rfl

/-- The first display finds one of its inputs and does not abort. -/
theorem arrangeFrom_one {mainWeight : Int} {s : Int × Connections}
    (hvalid : ∀ job ∈ overlapJob s.2 0, job.Valid (s.2 0).display.weight)
    (hmain : mainWeight = (s.2 0).display.weight) (hremain : mainWeight ≤ s.1) :
    (arrangeFrom mainWeight 1 s).isSome := by
  have hzero : ((0 : Nat) : Int) * mainWeight = 0 := Int.zero_mul _
  have hnonneg : 0 ≤ s.1 := (hmain ▸ Int.natCast_nonneg _ : 0 ≤ mainWeight).trans hremain
  change ((arrangeDisplay mainWeight 0 s).bind some).isSome
  rw [Option.bind_fun_some, arrangeDisplay_isSome_iff hvalid (hzero ▸ hnonneg), hzero, sub_zero]
  exact fun job _ => .inr (hmain ▸ hremain)

/-- The process aborts exactly if the external display does. -/
theorem arrangeFrom_isSome_iff {mainWeight : Int} {n : Nat} {s : Int × Connections}
    (hvalid : ∀ i, ∀ job ∈ overlapJob s.2 i, job.Valid (s.2 i).display.weight)
    (hmain : mainWeight = (s.2 0).display.weight) (hremain : mainWeight ≤ s.1) :
    (arrangeFrom mainWeight n s).isSome ↔ (1 < n → ∀ job ∈ overlapJob s.2 1,
      (job.maxOverlapLayerNumW : Int) ≤ s.1 - mainWeight ∨
        ((s.2 1).display.weight : Int) ≤ s.1 - mainWeight) := by
  match n with
  | 0 => exact iff_of_true rfl fun h => absurd h (by decide)
  | 1 =>
    exact iff_of_true (arrangeFrom_one (hvalid 0) hmain hremain) fun h => absurd h (by decide)
  | k + 2 =>
    have hone : ((1 : Nat) : Int) * mainWeight = mainWeight := Int.one_mul _
    have hfirst := @arrangeDisplay_isSome_iff mainWeight 1 s (hvalid 1) (hone.symm ▸ hremain)
    rw [hone] at hfirst
    rw [arrangeFrom_add_two]
    change ((arrangeDisplay mainWeight 1 s).bind (arrangeFrom mainWeight 1)).isSome ↔ _
    refine Iff.trans ?_ (hfirst.trans ⟨fun h _ => h, fun h => h (by omega)⟩)
    cases hstep : arrangeDisplay mainWeight 1 s with
    | none => exact iff_of_false nofun nofun
    | some t =>
      have hnonneg : 0 ≤ mainWeight := hmain ▸ Int.natCast_nonneg _
      obtain ⟨⟨-, hreserve⟩, -, -⟩ :=
        arrangeDisplay_bandwidth hnonneg (hvalid 1) (hnonneg.trans hremain) hstep
      rw [hone] at hreserve
      have hsame : t.2 0 = s.2 0 := arrangeDisplay_of_ne hstep (by decide)
      refine iff_of_true (arrangeFrom_one ?_ ?_ (hreserve hremain)) rfl
      · rw [overlapJob_congr hsame, hsame]
        exact hvalid 0
      · rw [hsame]
        exact hmain

/-! ## The result -/

/-- Write other overlaps, in inputs, to the jobs. -/
def refill (g : Nat → Int → Int) (cs : Connections) : Connections := fun i =>
  { cs i with
    job := (cs i).job.map fun job =>
      { job with maxOverlapLayerNum := g i job.maxOverlapLayerNum } }

theorem overlapJob_refill (g : Nat → Int → Int) (cs : Connections) (i : Nat) :
    overlapJob (refill g cs) i = (overlapJob cs i).map fun job =>
      { job with maxOverlapLayerNum := g i job.maxOverlapLayerNum } := by
  unfold overlapJob getExistJob refill
  split_ifs
  · rfl
  · rfl
  · cases (cs i).job with
    | none => rfl
    | some job => cases (cs i).mirror <;> simp [Option.filter]

theorem refill_valid {g : Nat → Int → Int} {cs : Connections} (h : cs.Valid) (i : Nat) :
    ∀ job ∈ overlapJob (refill g cs) i, job.Valid (refill g cs i).display.weight := by
  intro job hjob
  rw [overlapJob_refill] at hjob
  obtain ⟨before, hbefore, rfl⟩ := Option.map_eq_some_iff.mp hjob
  obtain ⟨hrange, hbound⟩ := h.jobs i before hbefore
  exact ⟨hrange, hbound⟩

theorem bandwidth_refill (g : Nat → Int → Int) (cs cs' : Connections) (i : Nat) :
    bandwidth (refill g cs) cs' i = bandwidth cs cs' i := by
  unfold bandwidth
  rw [overlapJob_refill]
  cases overlapJob cs i <;> cases overlapJob cs' i <;> rfl

theorem bandwidth_of_refill (g : Nat → Int → Int) (cs : Connections) (i : Nat) :
    bandwidth cs (refill g cs) i =
      ((overlapJob cs i).map DispatcherJob.maxOverlapLayerNumW).getD 0 := by
  unfold bandwidth
  rw [overlapJob_refill]
  cases overlapJob cs i with
  | none => rfl
  | some job => exact if_pos ⟨rfl, rfl⟩

/-- Writing one job's overlap leaves the other jobs as they are. -/
theorem setJob_eq_refill {cs : Connections} {i : Nat} {job : DispatcherJob}
    (h : (cs i).job = some job) (m : Int) :
    setJob cs i { job with maxOverlapLayerNum := m } =
      refill (fun j old => if j = i then m else old) cs := by
  funext j
  unfold refill
  by_cases hj : j = i
  · subst hj
    simp [setJob, h]
  · rw [setJob, Function.update_of_ne hj]
    cases hjob : (cs j).job <;> simp [hj, ← hjob]

theorem refill_self (cs : Connections) : refill (fun _ old => old) cs = cs := by
  funext i
  exact congrArg (fun job => { cs i with job := job }) Option.map_id'

/-- The overlap of all displays is rounded up to inputs, if both are positive. -/
theorem fillDisplaysOverlapResult_spec {limit : Int} (hlimit : 1 ≤ limit) (n : Nat)
    {cs : Connections} (h : cs.Valid) {job : DispatcherJob} (hjob : getExistJob cs 0 = some job) :
    ∃ g, fillDisplaysOverlapResult limit n cs = refill g cs ∧
      (0 < totalOverlap cs n → 0 < (cs 0).display.weight →
        (g 0 job.maxOverlapLayerNum ≤ limit ↔ Fits limit n cs)) := by
  have hweight : Int.tdiv (10 ^ 9) (cs 0).display.refresh * 4 = (cs 0).display.weight := by
    have hrefresh : ((cs 0).display.refresh.toNat : Int) = (cs 0).display.refresh :=
      Int.toNat_of_nonneg h.refresh.le
    unfold Display.weight Display.fps
    rw [if_pos h.refresh, Int.tdiv_eq_ediv_of_nonneg (by decide), Nat.cast_mul, Int.natCast_ediv,
      hrefresh]
    rfl
  unfold fillDisplaysOverlapResult
  rw [if_neg (by omega), hweight, hjob]
  dsimp only
  split_ifs with hpos
  · refine ⟨_, setJob_eq_refill hjob _, fun _ _ => ?_⟩
    rw [if_pos rfl, ← Int.lt_add_one_iff, Int.ediv_lt_iff_lt_mul hpos.1, Int.add_mul, Fits]
    omega
  · refine ⟨_, (refill_self cs).symm, fun htotal hweight' => absurd ⟨?_, ?_⟩ hpos⟩
    · exact Int.natCast_pos.mpr hweight'
    · exact Int.natCast_pos.mpr htotal

/-- When no range changes, the limit is met exactly if the displays fit. -/
theorem meetsLimit_iff_of_refill {limit : Int} {n : Nat} {cs : Connections} {changed : Bool}
    {g : Nat → Int → Int}
    (h : arrangeDisplaysOverlap limit n cs = some (changed, refill g cs)) :
    MeetsLimit limit n cs ↔ Fits limit n cs := by
  have hsum : ∑ i ∈ Finset.range n, bandwidth cs (refill g cs) i = totalOverlap cs n := by
    rw [← sum_bandwidth_self]
    exact Finset.sum_congr rfl fun i _ => (bandwidth_of_refill g cs i).trans
      (bandwidth_self cs i).symm
  constructor
  · rintro ⟨changed', cs', heq, -, hle⟩
    rw [h] at heq
    cases heq
    rwa [hsum] at hle
  · intro hle
    refine ⟨changed, _, h, fun i before hbefore => ?_, hsum ▸ hle⟩
    exact ⟨{ before with maxOverlapLayerNum := g i before.maxOverlapLayerNum },
      Option.map_eq_some_iff.mpr ⟨before, hbefore, rfl⟩, .inl ⟨rfl, rfl⟩⟩

/-- When the displays are gone through, the limit is met exactly if the process does
not abort. -/
theorem meetsLimit_iff_of_arrangeFrom {limit : Int} (hlimit : 1 ≤ limit) {n : Nat}
    {cs : Connections} (hvalid : cs.Valid) {g : Nat → Int → Int}
    (h : arrangeDisplaysOverlap limit n cs =
      (arrangeFrom (cs 0).display.weight n
        (limit * (cs 0).display.weight, refill g cs)).map fun s => (true, s.2)) :
    MeetsLimit limit n cs ↔ (arrangeFrom (cs 0).display.weight n
      (limit * (cs 0).display.weight, refill g cs)).isSome := by
  constructor
  · rintro ⟨changed, cs', heq, -⟩
    rw [h] at heq
    obtain ⟨s, hs, -⟩ := Option.map_eq_some_iff.mp heq
    rw [hs]
    rfl
  · intro hsome
    obtain ⟨s, hs⟩ := Option.isSome_iff_exists.mp hsome
    have hremain : 0 ≤ limit * ((cs 0).display.weight : Int) :=
      Int.mul_nonneg (by omega) (Int.natCast_nonneg _)
    obtain ⟨-, hextends, hsum⟩ :=
      arrangeFrom_spec (Int.natCast_nonneg _) (fun i _ => refill_valid hvalid i) hremain hs
    refine ⟨true, s.2, by rw [h, hs]; rfl, fun i before hbefore => ?_, ?_⟩
    · exact hextends i { before with maxOverlapLayerNum := g i before.maxOverlapLayerNum }
        (Option.map_eq_some_iff.mpr ⟨before, hbefore, rfl⟩)
    · exact (Finset.sum_congr rfl fun i _ => (bandwidth_refill g cs s.2 i).symm).trans_le hsum

/-- The overlap of the external display is part of the overlap of all. -/
theorem maxOverlap_le_total {n : Nat} {cs : Connections} (hn : 1 < n) {job : DispatcherJob}
    (hjob : job ∈ overlapJob cs 1) : job.maxOverlapLayerNumW ≤ totalOverlap cs n := by
  have hterm : ((overlapJob cs 1).map DispatcherJob.maxOverlapLayerNumW).getD 0 =
      job.maxOverlapLayerNumW := by
    rw [Option.mem_def.mp hjob]
    rfl
  rw [← hterm]
  exact Finset.single_le_sum
    (f := fun i => ((overlapJob cs i).map DispatcherJob.maxOverlapLayerNumW).getD 0)
    (fun _ _ => Nat.zero_le _) (Finset.mem_range.mpr hn)

theorem externalLeavesInput_refill (limit : Int) (n : Nat) (g : Nat → Int → Int)
    (cs : Connections) :
    ExternalLeavesInput limit n (refill g cs) ↔ ExternalLeavesInput limit n cs := by
  unfold ExternalLeavesInput
  rw [overlapJob_refill]
  cases overlapJob cs 1 with
  | none => exact ⟨fun _ _ => nofun, fun _ _ => nofun⟩
  | some ext =>
    constructor
    · rintro h hn _ ⟨⟩
      exact h hn { ext with maxOverlapLayerNum := g 1 ext.maxOverlapLayerNum } rfl
    · rintro h hn _ ⟨⟩
      exact h hn ext rfl

/-- If an input of the primary display weighs nothing and the external one leaves one,
there is no overlap. -/
theorem totalOverlap_eq_zero {limit : Int} {n : Nat} {cs : Connections} (hvalid : cs.Valid)
    (hweight : (cs 0).display.weight = 0) (h : ExternalLeavesInput limit n cs) :
    totalOverlap cs n = 0 := by
  have hzero : ∀ i, ∀ job ∈ overlapJob cs i, (cs i).display.weight = 0 →
      job.maxOverlapLayerNumW = 0 := by
    intro i job hjob hi
    have hbound := (hvalid.jobs i job hjob).bound
    rw [hi] at hbound
    omega
  refine Finset.sum_eq_zero fun i hi => ?_
  cases hjob : overlapJob cs i with
  | none => rfl
  | some job =>
    change job.maxOverlapLayerNumW = 0
    match i with
    | 0 => exact hzero 0 job hjob hweight
    | 1 =>
      have hleaves := h (Finset.mem_range.mp hi) job hjob
      rw [hweight, Nat.cast_zero, mul_zero] at hleaves
      rcases hleaves with hle | hle
      · omega
      · exact hzero 1 job hjob (by omega)
    | k + 2 =>
      rw [overlapJob_of_two_le (Nat.le_add_left 2 k)] at hjob
      cases hjob

/-- The limit is met exactly if the displays fit as they are, or the primary display has
a job and the external one leaves an input to it. -/
theorem arrangeDisplaysOverlap_meetsLimit_iff {limit : Int} (hlimit : 1 ≤ limit) {n : Nat}
    {cs : Connections} (hvalid : cs.Valid) :
    MeetsLimit limit n cs ↔
      Fits limit n cs ∨ (getExistJob cs 0).isSome ∧ ExternalLeavesInput limit n cs := by
  cases hjob : getExistJob cs 0 with
  | none =>
    have heq : arrangeDisplaysOverlap limit n cs = some (false, refill (fun _ old => old) cs) := by
      unfold arrangeDisplaysOverlap fillDisplaysOverlapResult
      rw [if_neg (by omega), if_neg (by omega), refill_self]
      dsimp only
      rw [hjob]
      dsimp only
      rw [hjob]
    rw [meetsLimit_iff_of_refill heq]
    exact ⟨.inl, fun h => h.elim id fun h => nomatch h.1⟩
  | some job =>
    obtain ⟨g, hfill, hceil⟩ := fillDisplaysOverlapResult_spec hlimit n hvalid hjob
    have hjob' : getExistJob (refill g cs) 0 =
        some { job with maxOverlapLayerNum := g 0 job.maxOverlapLayerNum } := by
      have hin : (cs 0).job = some job := hjob
      exact congrArg (Option.map _) hin
    have heq : arrangeDisplaysOverlap limit n cs =
        if g 0 job.maxOverlapLayerNum ≤ limit then some (false, refill g cs)
        else (arrangeFrom (cs 0).display.weight n
          (limit * (cs 0).display.weight, refill g cs)).map fun s => (true, s.2) := by
      unfold arrangeDisplaysOverlap
      rw [if_neg (by omega), hfill]
      dsimp only
      rw [hjob']
    have hweight : 0 ≤ ((cs 0).display.weight : Int) := Int.natCast_nonneg _
    have hreserve : 0 ≤ (limit - 1) * ((cs 0).display.weight : Int) :=
      Int.mul_nonneg (by omega) hweight
    by_cases hfits : g 0 job.maxOverlapLayerNum ≤ limit
    · -- the displays are left as they are
      rw [if_pos hfits] at heq
      rw [meetsLimit_iff_of_refill heq]
      refine ⟨.inl, fun h => h.elim id fun hleaves => ?_⟩
      rcases Nat.eq_zero_or_pos (totalOverlap cs n) with hzero | htotal
      · rw [Fits, hzero]
        exact Int.mul_nonneg (by omega) hweight
      · rcases Nat.eq_zero_or_pos (cs 0).display.weight with hzero | hpos
        · exact absurd (totalOverlap_eq_zero hvalid hzero hleaves.2) htotal.ne'
        · exact (hceil htotal hpos).mp hfits
    · rw [if_neg hfits] at heq
      have hsub : limit * ((cs 0).display.weight : Int) - (cs 0).display.weight =
          (limit - 1) * (cs 0).display.weight := by
        rw [Int.sub_mul, Int.one_mul]
      have hle : ((cs 0).display.weight : Int) ≤ limit * (cs 0).display.weight := by omega
      have hiff := @arrangeFrom_isSome_iff (cs 0).display.weight n
        (limit * (cs 0).display.weight, refill g cs) (refill_valid hvalid) rfl hle
      dsimp only at hiff
      rw [hsub] at hiff
      rw [meetsLimit_iff_of_arrangeFrom hlimit hvalid heq,
        hiff.trans (externalLeavesInput_refill limit n g cs)]
      refine ⟨fun h => .inr ⟨rfl, h⟩, fun h => h.elim (fun hfit => ?_) fun h => h.2⟩
      -- displays that fit are gone through only without any overlap
      have hzero : totalOverlap cs n = 0 := by
        by_contra htotal
        rcases Nat.eq_zero_or_pos (cs 0).display.weight with hzero | hpos
        · rw [Fits, hzero, Nat.cast_zero, mul_zero] at hfit
          omega
        · exact hfits ((hceil (Nat.pos_of_ne_zero htotal) hpos).mpr hfit)
      intro hn ext hext
      have hpart := maxOverlap_le_total hn hext
      exact .inl (by omega)

/-- A display of 60 frames in a second. -/
def uiDisplay : Display := ⟨16666666, 1080, 1920⟩

/-- Such displays, each with a list of `num` layers that overlap. -/
def uiConnections (num : Nat) : Connections := fun _ =>
  { display := uiDisplay
    mirror := false
    job := some ⟨num, -1, -1, -1, num * 240⟩ }

theorem uiConnections_valid (num : Nat) : (uiConnections num).Valid := by
  have hweight : ∀ i, (uiConnections num i).display.weight = 240 := fun _ =>
    show uiDisplay.weight = 240 by decide
  have hrefresh : 0 < uiDisplay.refresh := by decide
  refine ⟨hrefresh, fun i job hjob => ?_⟩
  have hin : job = ⟨num, -1, -1, -1, num * 240⟩ := by
    unfold overlapJob getExistJob uiConnections at hjob
    split_ifs at hjob
    · cases hjob
    · cases hjob
    · cases hjob
      rfl
  subst hin
  rw [hweight]
  exact ⟨.inl ⟨rfl, rfl⟩, (Nat.cast_mul num 240).le⟩

/-- Three layers on each of two displays, of which three fit: the external display keeps
two inputs and the primary one keeps one. -/
theorem meetsLimit_three : MeetsLimit 3 2 (uiConnections 3) :=
  (arrangeDisplaysOverlap_meetsLimit_iff (by decide) (uiConnections_valid 3)).mpr
    (.inr ⟨rfl, by rintro - _ ⟨⟩; exact .inr (by decide)⟩)

/-- With a limit of one input nothing is left to the external display: its range would
begin before its list, and the process aborts. -/
theorem external_display_aborts :
    (uiConnections 2).Valid ∧ (arrangeDisplaysOverlap 1 2 (uiConnections 2)).isNone ∧
      ¬MeetsLimit 1 2 (uiConnections 2) := by
  have hnone : (arrangeDisplaysOverlap 1 2 (uiConnections 2)).isNone := by decide +kernel
  refine ⟨uiConnections_valid 2, hnone, ?_⟩
  rintro ⟨changed, cs', heq, -⟩
  rw [heq] at hnone
  cases hnone

end MtkHw.Hwc.Hrt
