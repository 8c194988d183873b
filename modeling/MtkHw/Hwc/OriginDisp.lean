import MtkHw.Hwc.Hrt

/-!
# The initial range of the GPU

The overlay engine has `num_layers` inputs for the layers of a display.
`handleOriginDisp` looks for the layers that the GPU has to compose: a first scan goes
up from the first layer to one that the engine cannot show, and a second one goes down
from the last layer, with one counter of used inputs for both.  One input stays for
what the GPU composes.  `setupHwcLayers` then gives the inputs to the layers outside
the range.
-/

namespace MtkHw.Hwc.OriginDisp

open Hrt (LayerType)

/-- What the scans read: the inputs of the engine, whether a layer is stereoscopic,
whether the display is an electronic paper, and the types of the layers. -/
structure Job where
  numLayers : Nat
  hasS3dLayer : Bool
  isEpaper : Bool
  layersNum : Nat
  types : Nat → LayerType

/-- All layers shall be composed by the GPU. -/
def Job.forceGpuCompose (job : Job) : Bool := job.hasS3dLayer || job.isEpaper

/-- Only one input is left. -/
def Job.LastInput (job : Job) (currOvlNum : Nat) : Prop := (currOvlNum : Int) = job.numLayers - 1

instance (job : Job) : DecidablePred job.LastInput := fun _ => by
  unfold Job.LastInput; infer_instance

/-- The type that the first scan takes for a layer: more than one layer is left for the
last input, or the GPU is forced, or the layer's own type. -/
def Job.firstType (job : Job) (i currOvlNum : Nat) : LayerType :=
  if ¬(job.LastInput currOvlNum ∧ (i : Int) < job.layersNum - 1) ∧ ¬job.forceGpuCompose then
    job.types i
  else .invalid

/-- The first scan, with the layers that are left: the head, if any, and the used inputs. -/
def Job.firstRound (job : Job) : Nat → Nat → Nat → Option Nat × Nat
  | 0, _, currOvlNum => (none, currOvlNum)
  | left + 1, i, currOvlNum =>
    if job.firstType i currOvlNum = .invalid then (some i, currOvlNum)
    else job.firstRound left (i + 1) (currOvlNum + 1)

/-- The type that the second scan takes for a layer. -/
def Job.secondType (job : Job) (i : Nat) : LayerType :=
  if job.hasS3dLayer then .invalid else job.types i

/-- The second scan, over the `left` layers behind the head. -/
def Job.secondRound (job : Job) (head : Nat) : Nat → Nat → Nat
  | 0, _ => head
  | left + 1, currOvlNum =>
    let i := head + (left + 1)
    if job.LastInput currOvlNum then i
    else if job.secondType i = .invalid ∨ job.secondType i = .mm then i
    else job.secondRound head left (currOvlNum + 1)

/-- The range of the GPU; both ends are `-1` if there is none. -/
def Job.handleOriginDisp (job : Job) : Int × Int :=
  match job.firstRound job.layersNum 0 0 with
  | (none, _) => (-1, -1)
  | (some head, currOvlNum) =>
    (head, job.secondRound head (job.layersNum - 1 - head) currOvlNum)

/-! ## What the range shall be -/

/-- The inputs that a range leaves in use: one for each layer outside it, and one for
the range if there is one. -/
def Job.inputs (job : Job) (range : Int × Int) : Int :=
  if range.1 = -1 then job.layersNum else job.layersNum - (range.2 - range.1 + 1) + 1

/-- The range covers what the engine cannot show, and nothing without need. -/
structure Job.Covers (job : Job) (range : Int × Int) : Prop where
  shape : range = (-1, -1) ∨ 0 ≤ range.1 ∧ range.1 ≤ range.2 ∧ range.2 < job.layersNum
  invalid : ∀ i < job.layersNum, job.types i = .invalid → range.1 ≤ i ∧ (i : Int) ≤ range.2
  inputs : job.inputs range ≤ job.numLayers
  empty : job.forceGpuCompose = false → (∀ i < job.layersNum, job.types i ≠ .invalid) →
    job.layersNum ≤ job.numLayers → range = (-1, -1)
  whole : job.forceGpuCompose = true → ∀ i < job.layersNum, range.1 ≤ i ∧ (i : Int) ≤ range.2

/-! ## The scans -/

/-- The first scan has passed the layer. -/
def Job.Passed (job : Job) (i : Nat) : Prop :=
  job.types i ≠ .invalid ∧ job.forceGpuCompose = false ∧
    (job.LastInput i → (job.layersNum : Int) ≤ i + 1)

theorem Job.firstType_ne_invalid_iff {job : Job} {i : Nat} :
    job.firstType i i ≠ .invalid ↔ job.Passed i := by
  unfold Job.firstType Job.Passed
  split_ifs with h
  · obtain ⟨hinput, hforce⟩ := h
    refine ⟨fun hne => ⟨hne, by simpa using hforce, fun hlast => ?_⟩, fun h => h.1⟩
    by_contra hlt
    exact hinput ⟨hlast, by omega⟩
  · refine iff_of_false (fun hne => hne rfl) fun ⟨_, hforce, hinput⟩ => h ⟨?_, by simp [hforce]⟩
    rintro ⟨hlast, hlt⟩
    have hle := hinput hlast
    omega

/-- The first scan uses one input for each layer that it passes, and stops at the head. -/
theorem Job.firstRound_spec {job : Job} {left i : Nat} (hleft : i + left = job.layersNum) :
    job.firstRound left i i = (none, job.layersNum) ∧
        (∀ j, i ≤ j → j < job.layersNum → job.Passed j) ∨
      ∃ head, job.firstRound left i i = (some head, head) ∧ i ≤ head ∧ head < job.layersNum ∧
        (∀ j, i ≤ j → j < head → job.Passed j) ∧ ¬job.Passed head := by
  induction left generalizing i with
  | zero =>
    obtain rfl : i = job.layersNum := hleft
    exact .inl ⟨rfl, fun j hle hlt => absurd hle (not_le.mpr hlt)⟩
  | succ left ih =>
    rw [Job.firstRound]
    split_ifs with hstop
    · refine .inr ⟨i, rfl, le_rfl, by omega, fun j hle hlt => absurd hle (not_le.mpr hlt), ?_⟩
      exact fun hpassed => Job.firstType_ne_invalid_iff.mpr hpassed hstop
    · have hpassed : job.Passed i := Job.firstType_ne_invalid_iff.mp hstop
      have hfrom : ∀ {j}, i ≤ j → (i + 1 ≤ j → job.Passed j) → job.Passed j := by
        intro j hle hnext
        rcases hle.eq_or_lt with rfl | hlt
        · exact hpassed
        · exact hnext hlt
      rcases ih (i := i + 1) (by omega) with ⟨heq, hall⟩ | ⟨head, heq, hle, hlt, hbelow, hhead⟩
      · exact .inl ⟨heq, fun j hle hlt => hfrom hle fun hnext => hall j hnext hlt⟩
      · exact .inr ⟨head, heq, Nat.le_of_succ_le hle, hlt,
          fun j hle hlt => hfrom hle fun hnext => hbelow j hnext hlt, hhead⟩

/-- The second scan uses one input for each layer that it passes, and none of these has
to be composed by the GPU. -/
theorem Job.secondRound_spec {job : Job} {head left currOvlNum : Nat}
    (hinput : currOvlNum < job.numLayers) :
    (head ≤ job.secondRound head left currOvlNum ∧
        job.secondRound head left currOvlNum ≤ head + left) ∧
      currOvlNum + (head + left - job.secondRound head left currOvlNum) < job.numLayers ∧
      ∀ j, job.secondRound head left currOvlNum < j → j ≤ head + left →
        job.secondType j ≠ .invalid := by
  induction left generalizing currOvlNum with
  | zero =>
    rw [Job.secondRound]
    exact ⟨⟨le_rfl, le_rfl⟩, by omega, fun j hlt hle => absurd hlt (not_lt.mpr hle)⟩
  | succ left ih =>
    rw [Job.secondRound]
    split_ifs with hlast htype
    · exact ⟨⟨by omega, le_rfl⟩, by omega, fun j hlt hle => absurd hlt (not_lt.mpr hle)⟩
    · exact ⟨⟨by omega, le_rfl⟩, by omega, fun j hlt hle => absurd hlt (not_lt.mpr hle)⟩
    · have hnext : currOvlNum + 1 < job.numLayers := by
        unfold Job.LastInput at hlast
        omega
      obtain ⟨⟨hge, hle⟩, hused, hpassed⟩ := ih hnext
      refine ⟨⟨hge, by omega⟩, by omega, fun j hlt hj => ?_⟩
      rcases hj.eq_or_lt with rfl | hj
      · exact fun hinvalid => htype (.inl hinvalid)
      · exact hpassed j hlt (by omega)

/-- The second scan stops at the last layer if no input is left for it, or the layer is
of a type that the GPU composes. -/
theorem Job.secondRound_eq_last_iff {job : Job} {head left currOvlNum : Nat}
    (hinput : currOvlNum < job.numLayers) :
    job.secondRound head left currOvlNum = head + left ↔ left = 0 ∨ job.LastInput currOvlNum ∨
      job.secondType (head + left) = .invalid ∨ job.secondType (head + left) = .mm := by
  cases left with
  | zero => exact iff_of_true rfl (.inl rfl)
  | succ left =>
    rw [Job.secondRound]
    split_ifs with hlast htype
    · exact iff_of_true rfl (.inr (.inl hlast))
    · exact iff_of_true rfl (.inr (.inr htype))
    · have hnext : currOvlNum + 1 < job.numLayers := by
        unfold Job.LastInput at hlast
        omega
      obtain ⟨⟨-, hle⟩, -⟩ := @Job.secondRound_spec job head left _ hnext
      refine iff_of_false (by omega) ?_
      rintro (hzero | hcase | hcase)
      · cases hzero
      · exact hlast hcase
      · exact htype hcase

/-! ## The range -/

/-- There is no range exactly if the first scan passes all layers; else the head is the
first layer that it does not pass. -/
theorem Job.handleOriginDisp_spec (job : Job) :
    job.handleOriginDisp = (-1, -1) ∧ (∀ i < job.layersNum, job.Passed i) ∨
      ∃ head : Nat, job.handleOriginDisp =
          ((head : Int), (job.secondRound head (job.layersNum - 1 - head) head : Int)) ∧
        head < job.layersNum ∧ (∀ i < head, job.Passed i) ∧ ¬job.Passed head := by
  unfold Job.handleOriginDisp
  rcases @Job.firstRound_spec job job.layersNum 0 (Nat.zero_add _) with
    ⟨heq, hall⟩ | ⟨head, heq, -, hlt, hbelow, hhead⟩
  · rw [heq]
    exact .inl ⟨rfl, fun i hi => hall i (Nat.zero_le i) hi⟩
  · rw [heq]
    exact .inr ⟨head, rfl, hlt, fun i hi => hbelow i (Nat.zero_le i) hi, hhead⟩

/-- The layers below the head leave an input. -/
theorem Job.head_lt_numLayers {job : Job} (hnum : 1 ≤ job.numLayers) {head : Nat}
    (hlt : head < job.layersNum) (hbelow : ∀ i < head, job.Passed i) : head < job.numLayers := by
  by_contra hge
  obtain ⟨-, -, hinput⟩ := hbelow (job.numLayers - 1) (by omega)
  have hle := hinput (show ((job.numLayers - 1 : Nat) : Int) = job.numLayers - 1 by omega)
  omega

/-- The display is forced to the GPU in the first scan only. -/
def Job.EpaperOnly (job : Job) : Prop := job.isEpaper = true ∧ job.hasS3dLayer = false

/-- The last layer ends the second scan. -/
def Job.EndsAtLast (job : Job) : Prop :=
  job.layersNum ≤ 1 ∨ job.numLayers = 1 ∨ job.types (job.layersNum - 1) = .invalid ∨
    job.types (job.layersNum - 1) = .mm

/-- With an S3D layer the last layer ends the second scan; with an electronic paper alone
the scan takes the layer's own type. -/
theorem Job.whole_iff {job : Job} (hnum : 1 ≤ job.numLayers) (hlayers : 0 < job.layersNum)
    (hforce : job.forceGpuCompose = true) :
    job.secondRound 0 (job.layersNum - 1) 0 = job.layersNum - 1 ↔
      (job.EpaperOnly → job.EndsAtLast) := by
  have hlast := @Job.secondRound_eq_last_iff job 0 (job.layersNum - 1) 0 hnum
  rw [Nat.zero_add] at hlast
  rw [hlast]
  have hinput : job.LastInput 0 ↔ job.numLayers = 1 := by
    unfold Job.LastInput
    omega
  unfold Job.EndsAtLast Job.EpaperOnly Job.secondType
  rw [hinput]
  cases hs3d : job.hasS3dLayer with
  | true => exact iff_of_true (.inr (.inr (.inl rfl))) fun h => nomatch h.2
  | false =>
    have hepaper : job.isEpaper = true := by
      simpa [Job.forceGpuCompose, hs3d] using hforce
    simp only [hepaper, Bool.false_eq_true, if_false, and_self, forall_const]
    exact or_congr (by omega) Iff.rfl

/-- The range covers what it shall exactly if the display is not forced to the GPU as an
electronic paper alone, or the last layer ends the second scan. -/
theorem Job.handleOriginDisp_covers_iff {job : Job} (hnum : 1 ≤ job.numLayers) :
    job.Covers job.handleOriginDisp ↔ (job.EpaperOnly → job.EndsAtLast) := by
  have hforced : job.EpaperOnly → job.forceGpuCompose = true := by
    rintro ⟨hepaper, hs3d⟩
    simp [Job.forceGpuCompose, hepaper, hs3d]
  rcases job.handleOriginDisp_spec with ⟨heq, hall⟩ | ⟨head, heq, hlt, hbelow, hhead⟩
  · rw [heq]
    have hnone : job.forceGpuCompose = true → ∀ i, ¬i < job.layersNum := by
      intro hforce i hi
      have hpassed := (hall i hi).2.1
      rw [hforce] at hpassed
      cases hpassed
    refine iff_of_true ⟨.inl rfl, fun i hi htype => absurd htype (hall i hi).1, ?_,
      fun _ _ _ => rfl, fun hforce i hi => absurd hi (hnone hforce i)⟩ fun hepaper => ?_
    · -- the layer of the last input is the last layer
      change (job.layersNum : Int) ≤ job.numLayers
      by_contra hgt
      have hinput := (hall (job.numLayers - 1) (by omega)).2.2
      have hle := hinput (show ((job.numLayers - 1 : Nat) : Int) = job.numLayers - 1 by omega)
      omega
    · have hempty := hnone (hforced hepaper) 0
      exact .inl (by omega)
  · obtain ⟨tail, htail⟩ : ∃ t, job.secondRound head (job.layersNum - 1 - head) head = t := ⟨_, rfl⟩
    obtain ⟨⟨hge, hle⟩, hused, hpassed⟩ := @Job.secondRound_spec job head
      (job.layersNum - 1 - head) head (Job.head_lt_numLayers hnum hlt hbelow)
    rw [htail] at heq hge hle hused hpassed
    rw [heq]
    have hfirst : job.forceGpuCompose = true → head = 0 := by
      intro hforce
      by_contra hne
      have hfalse := (hbelow 0 (Nat.pos_of_ne_zero hne)).2.1
      rw [hforce] at hfalse
      cases hfalse
    have hwhole : job.forceGpuCompose = true →
        (tail = job.layersNum - 1 ↔ (job.EpaperOnly → job.EndsAtLast)) := by
      intro hforce
      obtain rfl := hfirst hforce
      rw [← htail, Nat.sub_zero]
      exact Job.whole_iff hnum hlt hforce
    constructor
    · intro hcovers hepaper
      have hforce := hforced hepaper
      have hlast := (hcovers.whole hforce (job.layersNum - 1) (by omega)).2
      exact (hwhole hforce).mp (by dsimp only at hlast; omega) hepaper
    · intro hends
      refine ⟨.inr ⟨by omega, by dsimp only; omega, by dsimp only; omega⟩, fun i hi htype => ?_, ?_,
        fun hforce hvalid hnum' => ?_, fun hforce i hi => ?_⟩
      · have hhead' : head ≤ i := by
          by_contra hbefore
          exact (hbelow i (not_le.mp hbefore)).1 htype
        have htail' : i ≤ tail := by
          by_contra hbehind
          refine hpassed i (not_le.mp hbehind) (by omega) ?_
          unfold Job.secondType
          rw [htype, ite_self]
        exact ⟨Int.ofNat_le.mpr hhead', Int.ofNat_le.mpr htail'⟩
      · unfold Job.inputs
        dsimp only
        rw [if_neg (by omega)]
        omega
      · refine absurd ⟨hvalid head hlt, hforce, fun hlast => ?_⟩ hhead
        unfold Job.LastInput at hlast
        omega
      · have hall := (hwhole hforce).mpr hends
        have hzero := hfirst hforce
        dsimp only
        omega

/-- Two layers of user interface on a phone's display and one that the engine cannot show:
the GPU composes that one alone. -/
theorem phone_covers :
    let job : Job := ⟨4, false, false, 3, fun i => if i = 1 then .invalid else .ui⟩
    job.handleOriginDisp = (1, 1) ∧ job.Covers job.handleOriginDisp :=
  ⟨by decide, (Job.handleOriginDisp_covers_iff (by decide)).mpr fun h => nomatch h.1⟩

/-- Two layers on an electronic paper: the GPU shall compose both, and composes the first. -/
theorem epaper_not_covered :
    let job : Job := ⟨4, false, true, 2, fun _ => .ui⟩
    job.forceGpuCompose = true ∧ job.handleOriginDisp = (0, 0) ∧
      ¬job.Covers job.handleOriginDisp := by
  refine ⟨rfl, by decide, fun hcovers => ?_⟩
  have hwhole := (hcovers.whole rfl 1 (by decide)).2
  revert hwhole
  decide

end MtkHw.Hwc.OriginDisp
