import MtkHw.Power.Service

/-!
# What is granted

`Aggregate` says that every resource is granted as the enabled scenarios ask for it.  The floors
do not depend on the limits, so that their invariant `FloorInv` is one of its own.  `Inv` adds the
limits, and what the shortcuts of `perfScnEnable` and `perfScnDisable` rely on: a limit that no
command has set is none, and a frequency limit above the highest frequency is the one that stands
for no limit.

The steps are `FloorInv.enable`, `FloorInv.disable`, `Inv.enable` and `Inv.disable`.
-/

namespace MtkHw.Power

open Lib

theorem raised_eq (now value : Int) : raised now value = max now value := by
  rw [raised]
  split
  · omega
  · omega

theorem lowered_eq (now value : Int) : lowered now value = min now value := by
  rw [lowered]
  split
  · omega
  · omega

namespace PerfService

/-- The scenario is in the table, and is `STATE_ON`. -/
def On (p : Platform) (s : PerfService) (i : Nat) : Prop := i < p.nScn ∧ s.isOn i = true

/-- A default, and what the enabled scenarios ask for. -/
def asked (p : Platform) (s : PerfService) (value : ScnNode → Int) (default : Int) : Set Int :=
  requests (s.On p) (fun i => value (s.ptScnList i)) default

/-- The CPUs that are in the CPU sets of all enabled scenarios. -/
def Intersection (p : Platform) (s : PerfService) (x : Int) : Prop :=
  ∀ b, x.testBit b = true ↔
    p.nCpuSet.testBit b = true ∧ ∀ i, s.On p i → (s.ptScnList i).scn_cpuset.testBit b = true

/-- The entry of the control table has the best of the values of the enabled scenarios. -/
def BestEntry (p : Platform) (s : PerfService) (idx : Nat) : Prop :=
  let e := s.tConTable idx
  if e.comp = LESS then IsLeast (s.asked p (fun scn => scn.scn_param idx) e.resetVal) e.curVal
  else IsGreatest (s.asked p (fun scn => scn.scn_param idx) e.resetVal) e.curVal

/-- The floors are what the enabled scenarios ask for, and so is the control table. -/
structure Floors (p : Platform) (s : PerfService) : Prop where
  cores : IsGreatest (s.asked p ScnNode.scn_core_total 0) s.scn_cores_now
  gpuFreq : IsGreatest (s.asked p ScnNode.scn_gpu_freq 0) s.scn_gpu_freq_now
  perfIdx : IsGreatest (s.asked p ScnNode.scn_perf_idx 0) s.scn_perf_idx_now
  vcore : IsGreatest (s.asked p ScnNode.scn_vcore 0) s.scn_vcore_now
  cpuMin : ∀ i < p.nClusterNum,
    IsGreatest (s.asked p (fun scn => scn.scn_core_min i) 0) (s.ptClusterTbl i).cpuMinNow
  cpuHardMin : ∀ i < p.nClusterNum,
    IsGreatest (s.asked p (fun scn => scn.scn_core_hard_min i) 0) (s.ptClusterTbl i).cpuHardMinNow
  freqMin : ∀ i < p.nClusterNum,
    IsGreatest (s.asked p (fun scn => scn.scn_freq_min i) 0) (s.ptClusterTbl i).freqMinNow
  conTable : ∀ idx, s.conValid idx = true → s.BestEntry p idx

/-- What is granted is what the enabled scenarios ask for. -/
structure Aggregate (p : Platform) (s : PerfService) : Prop extends Floors p s where
  gpuFreqMax :
    IsLeast (s.asked p ScnNode.scn_gpu_freq_max p.nGpuHighestFreqLevel) s.scn_gpu_freq_max_now
  freqMax : ∀ i < p.nClusterNum,
    ∃ m, IsLeast (s.asked p (fun scn => scn.scn_freq_max i) (p.freqMax i)) m ∧
      min (s.ptClusterTbl i).freqMaxNow (p.freqMax i) = max (s.ptClusterTbl i).freqMinNow m
  cpuset : ∃ x, s.Intersection p x ∧ s.scn_cpuset_now = nonemptyCpuset x

/-- The invariant of the floors. -/
structure FloorInv (p : Platform) (s : PerfService) : Prop extends Floors p s where
  invalid : ∀ idx, s.conValid idx = false → (s.tConTable idx).curVal = (s.tConTable idx).resetVal
  checked : ∀ i, s.On p i → s.checkSuccess i = true

/-- What can be in a record; a limit that no command has set is none. -/
structure NodeOk (p : Platform) (nSetFreqMax nSetGpuFreqMax : Bool) (scn : ScnNode) : Prop where
  freqMin : ∀ i < p.nClusterNum, scn.scn_freq_min i ≤ p.freqMax i
  freqMax : nSetFreqMax = false → ∀ i < p.nClusterNum, p.freqMax i ≤ scn.scn_freq_max i
  gpuFreqMax : nSetGpuFreqMax = false → p.nGpuHighestFreqLevel ≤ scn.scn_gpu_freq_max
  cpuset : scn.scn_cpuset ≤ p.nCpuSet

/-- The record of a scenario is one that can be. -/
def RecordOk (p : Platform) (s : PerfService) (k : Nat) : Prop :=
  NodeOk p s.nSetFreqMax s.nSetGpuFreqMax (s.ptScnList k)

/-- The invariant of the limits. -/
structure LimitInv (p : Platform) (s : PerfService) : Prop where
  gpuFreqMax :
    IsLeast (s.asked p ScnNode.scn_gpu_freq_max p.nGpuHighestFreqLevel) s.scn_gpu_freq_max_now
  freqMax : ∀ i < p.nClusterNum,
    ∃ m, IsLeast (s.asked p (fun scn => scn.scn_freq_max i) (p.freqMax i)) m ∧
      min (s.ptClusterTbl i).freqMaxNow (p.freqMax i) = max (s.ptClusterTbl i).freqMinNow m ∧
      (p.freqMax i < (s.ptClusterTbl i).freqMaxNow → m = p.freqMax i)
  cpuset : ∃ x, s.Intersection p x ∧ s.scn_cpuset_now = nonemptyCpuset x

/-- The invariant. -/
structure Inv (p : Platform) (s : PerfService) : Prop extends FloorInv p s, LimitInv p s where
  records : ∀ k < p.nScn, s.RecordOk p k

variable {p : Platform} {s s' : PerfService} {k : Nat} {value : ScnNode → Int} {default x : Int}

/-! ## The state of one scenario -/

/-- The records after the state of a scenario is written. -/
theorem ptScnList_setState (s : PerfService) (k : Nat) (state : ScnState) (i : Nat) :
    (s.setState k state).ptScnList i = { s.ptScnList i with
      scn_state := if i = k then state else (s.ptScnList i).scn_state } := by
  by_cases hik : i = k
  · subst hik
    rw [if_pos rfl]
    exact if_pos rfl
  · rw [if_neg hik]
    exact if_neg hik

theorem on_setState_on (hk : k < p.nScn) (i : Nat) :
    (s.setState k .on).On p i ↔ i = k ∨ s.On p i := by
  rw [On, On, isOn, isOn, ptScnList_setState]
  by_cases hik : i = k
  · subst hik
    rw [if_pos rfl]
    exact iff_of_true ⟨hk, rfl⟩ (.inl rfl)
  · rw [if_neg hik]
    exact (or_iff_right hik).symm

theorem on_setState (state : ScnState) (hstate : state ≠ .on) (i : Nat) :
    (s.setState k state).On p i ↔ i ≠ k ∧ s.On p i := by
  rw [On, On, isOn, isOn, ptScnList_setState]
  by_cases hik : i = k
  · subst hik
    rw [if_pos rfl]
    exact iff_of_false (fun h => hstate (of_decide_eq_true h.2)) fun h => h.1 rfl
  · rw [if_neg hik]
    exact (and_iff_right hik).symm

/-- `value` does not look at the state of a scenario. -/
def Stateless (value : ScnNode → Int) : Prop :=
  ∀ scn state, value { scn with scn_state := state } = value scn

theorem asked_setState (hvalue : Stateless value) (state : ScnState) :
    (s.setState k state).asked p value default =
      requests ((s.setState k state).On p) (fun i => value (s.ptScnList i)) default := by
  refine requests_congr (fun _ => Iff.rfl) fun i _ => ?_
  rw [ptScnList_setState]
  exact hvalue _ _

theorem isGreatest_enable (hk : k < p.nScn) (hvalue : Stateless value)
    (h : IsGreatest (s.asked p value default) x) :
    IsGreatest ((s.setState k .on).asked p value default) (raised x (value (s.ptScnList k))) := by
  rw [asked_setState hvalue, raised_eq]
  exact isGreatest_turn_on h (on_setState_on hk)

theorem isLeast_enable (hk : k < p.nScn) (hvalue : Stateless value)
    (h : IsLeast (s.asked p value default) x) :
    IsLeast ((s.setState k .on).asked p value default) (lowered x (value (s.ptScnList k))) := by
  rw [asked_setState hvalue, lowered_eq]
  exact isLeast_turn_on h (on_setState_on hk)

/-- `perfScnEnable` writes no record but the state of the scenario. -/
theorem asked_enable : (s.enable p k).asked p value default =
    (s.setState k .on).asked p value default := rfl

theorem isGreatest_disable (hvalue : Stateless value) (h : IsGreatest (s.asked p value default) x)
    (hk : value (s.ptScnList k) ≤ default ∨ value (s.ptScnList k) < x) :
    IsGreatest ((s.setState k .off).asked p value default) x := by
  rw [asked_setState hvalue]
  exact isGreatest_turn_off h (on_setState .off (by rintro ⟨⟩)) hk

theorem isLeast_disable (hvalue : Stateless value) (h : IsLeast (s.asked p value default) x)
    (hk : default ≤ value (s.ptScnList k) ∨ x < value (s.ptScnList k)) :
    IsLeast ((s.setState k .off).asked p value default) x := by
  rw [asked_setState hvalue]
  exact isLeast_turn_off h (on_setState .off (by rintro ⟨⟩)) hk

/-! ## Loops over the scenarios -/

theorem asked_eq (p : Platform) (s : PerfService) (value : ScnNode → Int) (default : Int) :
    s.asked p value default = requests (fun i => i ∈ List.range p.nScn ∧ s.isOn i = true)
      (fun i => value (s.ptScnList i)) default :=
  requests_congr (fun _ => and_congr_left fun _ => List.mem_range.symm) fun _ _ => rfl

theorem isGreatest_scanOn (p : Platform) (s : PerfService) (value : ScnNode → Int) (default : Int) :
    IsGreatest (s.asked p value default) (s.scanOn max value default p.nScn) := by
  rw [asked_eq]
  exact isGreatest_scan _ _ _ _

theorem isLeast_scanOn (p : Platform) (s : PerfService) (value : ScnNode → Int) (default : Int) :
    IsLeast (s.asked p value default) (s.scanOn min value default p.nScn) := by
  rw [asked_eq]
  exact isLeast_scan _ _ _ _

/-- A resource whose scenarios are looked at again. -/
theorem isGreatest_recomputed (hvalue : Stateless value) (h : IsGreatest (s.asked p value 0) x) :
    IsGreatest ((s.setState k .off).asked p value 0)
      ((s.setState k .off).recomputed p x (s.ptScnList k) value) := by
  rw [recomputed]
  split
  · exact isGreatest_scanOn p _ value 0
  · exact isGreatest_disable hvalue h (.inr (by omega))

theorem isGreatest_recomputedPos (hvalue : Stateless value) (h : IsGreatest (s.asked p value 0) x) :
    IsGreatest ((s.setState k .off).asked p value 0)
      ((s.setState k .off).recomputedPos p x (s.ptScnList k) value) := by
  rw [recomputedPos]
  split
  · exact isGreatest_scanOn p _ value 0
  · exact isGreatest_disable hvalue h (by omega)

/-! ## CPU sets -/

theorem land_zero_left (c : Int) : Int.land 0 c = 0 := by
  cases c with
  | ofNat n => exact congrArg Int.ofNat (Nat.zero_and n)
  | negSucc n =>
    refine congrArg Int.ofNat (Nat.eq_of_testBit_eq fun i => ?_)
    rw [Nat.testBit_ldiff, Nat.zero_testBit, Bool.false_and]

/-- The set with the first CPU only. -/
theorem land_one_left (c : Int) : Int.land 1 c = 0 ∨ Int.land 1 c = 1 := by
  have h := Int.land_bit true 0 c.bodd c.div2
  rw [Int.bit_decomp, land_zero_left] at h
  change Int.land 1 c = _ at h
  rw [h]
  cases c.bodd with
  | false => exact .inl rfl
  | true => exact .inr rfl

theorem nonemptyCpuset_ne_zero (x : Int) : nonemptyCpuset x ≠ 0 := by
  rw [nonemptyCpuset]
  split
  · exact one_ne_zero
  · assumption

theorem nonemptyCpuset_of_ne (h : x ≠ 0) : nonemptyCpuset x = x := if_neg h

/-- What is written for one more CPU set: an intersection that is empty stays so. -/
theorem nonemptyCpuset_land (x c : Int) :
    (if (nonemptyCpuset x).land c ≠ nonemptyCpuset x then
      nonemptyCpuset ((nonemptyCpuset x).land c) else nonemptyCpuset x) =
        nonemptyCpuset (x.land c) := by
  by_cases hx : x = 0
  · subst hx
    rw [land_zero_left]
    rcases land_one_left c with hland | hland
    · change (if Int.land 1 c ≠ 1 then nonemptyCpuset (Int.land 1 c) else 1) = 1
      rw [hland]
      rfl
    · exact if_neg (not_not.mpr hland)
  · rw [nonemptyCpuset_of_ne hx]
    by_cases hland : x.land c = x
    · rw [if_neg (not_not.mpr hland), hland, nonemptyCpuset_of_ne hx]
    · exact if_pos hland

/-- The bits of a loop over CPU sets. -/
theorem testBit_scanRequests {ι : Type} (on : ι → Bool) (mask : ι → Int) (default : Int)
    (is : List ι) (b : Nat) :
    (scanRequests Int.land on mask default is).testBit b = true ↔
      default.testBit b = true ∧ ∀ i ∈ is, on i = true → (mask i).testBit b = true := by
  induction is generalizing default with
  | nil => exact (and_iff_left fun _ h => absurd h List.not_mem_nil).symm
  | cons i is ih =>
    rw [List.forall_mem_cons]
    change (scanRequests Int.land on mask (if on i then default.land (mask i) else default)
      is).testBit b = true ↔ _
    rw [ih]
    cases hon : on i with
    | true =>
      rw [if_pos rfl, Int.testBit_land, Bool.and_eq_true, and_assoc]
      exact and_congr_right fun _ => and_congr_left fun _ => (imp_iff_right rfl).symm
    | false =>
      rw [if_neg Bool.false_ne_true]
      exact and_congr_right fun _ => (and_iff_right fun h => absurd h Bool.false_ne_true).symm

theorem intersection_cpusetOn (p : Platform) (s : PerfService) :
    s.Intersection p (s.cpusetOn p) := by
  intro b
  rw [cpusetOn, scanOn, testBit_scanRequests]
  refine and_congr_right fun _ => ?_
  constructor
  · intro h i hi
    exact h i (List.mem_range.mpr hi.1) hi.2
  · intro h i hi hon
    exact h i ⟨List.mem_range.mp hi, hon⟩

/-- The intersection after a scenario is enabled. -/
theorem Intersection.enable (h : s.Intersection p x) (hk : k < p.nScn) :
    (s.setState k .on).Intersection p (x.land (s.ptScnList k).scn_cpuset) := by
  intro b
  rw [Int.testBit_land, Bool.and_eq_true, h b, and_assoc]
  refine and_congr_right fun _ => ?_
  constructor
  · rintro ⟨hon, hbit⟩ i hi
    rw [ptScnList_setState]
    rcases (on_setState_on hk i).mp hi with rfl | hi
    · exact hbit
    · exact hon i hi
  · intro hon
    constructor
    · intro i hi
      have hbit := hon i ((on_setState_on hk i).mpr (.inr hi))
      rwa [ptScnList_setState] at hbit
    · have hbit := hon k ((on_setState_on hk k).mpr (.inl rfl))
      rwa [ptScnList_setState] at hbit

/-- A scenario with all CPUs does not count. -/
theorem Intersection.congr (h : s.Intersection p x)
    (hon : ∀ i, (s.ptScnList i).scn_cpuset ≠ p.nCpuSet → (s'.On p i ↔ s.On p i))
    (hcpuset : ∀ i, (s'.ptScnList i).scn_cpuset = (s.ptScnList i).scn_cpuset) :
    s'.Intersection p x := by
  intro b
  rw [h b]
  refine and_congr_right fun hbit => ?_
  constructor
  · intro hall i hi
    rw [hcpuset]
    by_cases hfull : (s.ptScnList i).scn_cpuset = p.nCpuSet
    · rw [hfull]
      exact hbit
    · exact hall i ((hon i hfull).mp hi)
  · intro hall i hi
    by_cases hfull : (s.ptScnList i).scn_cpuset = p.nCpuSet
    · rw [hfull]
      exact hbit
    · rw [← hcpuset]
      exact hall i ((hon i hfull).mpr hi)

theorem scn_cpuset_setState (s : PerfService) (k : Nat) (state : ScnState) (i : Nat) :
    ((s.setState k state).ptScnList i).scn_cpuset = (s.ptScnList i).scn_cpuset := by
  rw [ptScnList_setState]

/-- The CPU set of `perfScnEnable`. -/
theorem cpuset_enable (hk : k < p.nScn) (hle : (s.ptScnList k).scn_cpuset ≤ p.nCpuSet)
    (h : ∃ x, s.Intersection p x ∧ s.scn_cpuset_now = nonemptyCpuset x) :
    ∃ x, (s.setState k .on).Intersection p x ∧
      s.enableCpuset p (s.ptScnList k) = nonemptyCpuset x := by
  obtain ⟨x, hx, hnow⟩ := h
  rcases hle.lt_or_eq with hlt | hfull
  · refine ⟨_, hx.enable hk, ?_⟩
    rw [← nonemptyCpuset_land, ← hnow, enableCpuset, narrowsCpuset]
    simp only [hlt, true_and, decide_eq_true_eq]
  · refine ⟨x, hx.congr (fun i hi => ?_) (scn_cpuset_setState s k .on), ?_⟩
    · rw [on_setState_on hk]
      refine or_iff_right fun hik => hi ?_
      rw [hik, hfull]
    · rw [enableCpuset, narrowsCpuset, if_neg, hnow]
      exact fun hnarrows => absurd (of_decide_eq_true hnarrows).1 (by rw [hfull]; exact lt_irrefl _)

/-- The CPU set of `perfScnDisable`. -/
theorem cpuset_disable (hle : (s.ptScnList k).scn_cpuset ≤ p.nCpuSet)
    (h : ∃ x, s.Intersection p x ∧ s.scn_cpuset_now = nonemptyCpuset x) :
    ∃ x, (s.setState k .off).Intersection p x ∧
      (s.setState k .off).disableCpuset p (s.ptScnList k) = nonemptyCpuset x := by
  obtain ⟨x, hx, hnow⟩ := h
  rw [disableCpuset, widensCpuset]
  rcases hle.lt_or_eq with hlt | hfull
  · refine ⟨_, intersection_cpusetOn p _, ?_⟩
    by_cases hsame : (s.setState k .off).cpusetOn p = s.scn_cpuset_now
    · rw [if_neg fun hwidens => (of_decide_eq_true hwidens).2 hsame, hsame, hnow,
        nonemptyCpuset_of_ne (nonemptyCpuset_ne_zero x)]
      exact hnow
    · rw [if_pos (decide_eq_true ⟨hlt, hsame⟩)]
  · refine ⟨x, hx.congr (fun i hi => ?_) (scn_cpuset_setState s k .off), ?_⟩
    · rw [on_setState .off (by rintro ⟨⟩)]
      refine and_iff_right fun hik => hi ?_
      rw [hik, hfull]
    · rw [if_neg, ← hnow]
      · rfl
      · exact fun hwidens => absurd (of_decide_eq_true hwidens).1 (by rw [hfull]; exact lt_irrefl _)

/-! ## Clusters -/

/-- The maxima are tuned, and nothing else. -/
theorem fixLittle_cluster (tbl : Nat → ClusterInfo) (actual_core_min : Nat → Int) (i : Nat) :
    ∃ m, fixLittle p (forClusters p tbl (fineTune actual_core_min)) i =
      { tbl i with cpuMaxNow := m } := by
  have htuned : ∃ m,
      forClusters p tbl (fineTune actual_core_min) i = { tbl i with cpuMaxNow := m } := by
    rw [forClusters]
    split
    · exact ⟨_, rfl⟩
    · exact ⟨_, rfl⟩
  rw [fixLittle]
  split
  · dsimp only
    split
    · rename_i hi
      subst hi
      obtain ⟨m, hm⟩ := htuned
      exact ⟨PPM_IGNORE, by rw [hm]⟩
    · exact htuned
  · exact htuned

theorem enable_cluster (p : Platform) (s : PerfService) (k : Nat) {i : Nat}
    (hi : i < p.nClusterNum) :
    ∃ m, (s.enable p k).ptClusterTbl i =
      { s.enableCluster (s.ptScnList k) i (s.ptClusterTbl i) with cpuMaxNow := m } := by
  have h := fixLittle_cluster (p := p) (s.enableClusters p (s.ptScnList k))
    (actualCoreMin p (s.enableClusters p (s.ptScnList k)) p.nClusterNum
      (raised s.scn_cores_now (s.ptScnList k).scn_core_total)) i
  have hcluster : s.enableClusters p (s.ptScnList k) i =
      s.enableCluster (s.ptScnList k) i (s.ptClusterTbl i) := if_pos hi
  rw [hcluster] at h
  exact h

theorem withdraw_cluster (p : Platform) (s : PerfService) (scn : ScnNode) {i : Nat}
    (hi : i < p.nClusterNum) :
    ∃ m, (s.withdraw p scn).ptClusterTbl i =
      { s.disableCluster p scn i (s.ptClusterTbl i) with cpuMaxNow := m } := by
  have hcluster : forClusters p s.ptClusterTbl (s.disableCluster p scn) i =
      s.disableCluster p scn i (s.ptClusterTbl i) := if_pos hi
  rw [← hcluster]
  exact ⟨_, if_pos hi⟩

/-- What is granted as the lowest frequency is one that there is. -/
theorem Inv.freqMinNow_le (h : s.Inv p) {i : Nat} (hi : i < p.nClusterNum) :
    (s.ptClusterTbl i).freqMinNow ≤ p.freqMax i := by
  rcases (h.freqMin i hi).1 with hdefault | ⟨k, hk, hvalue⟩
  · rw [hdefault]
    exact p.freqMax_nonneg i
  · rw [← hvalue]
    exact (h.records k hk.1).freqMin i hi

/-- The frequency limit of `perfScnEnable`. -/
theorem Inv.freqMax_enable (h : s.Inv p) (hk : k < p.nScn) {i : Nat} (hi : i < p.nClusterNum) :
    let c := s.enableCluster (s.ptScnList k) i (s.ptClusterTbl i)
    ∃ m, IsLeast ((s.setState k .on).asked p (fun scn => scn.scn_freq_max i) (p.freqMax i)) m ∧
      min c.freqMaxNow (p.freqMax i) = max c.freqMinNow m ∧
      (p.freqMax i < c.freqMaxNow → m = p.freqMax i) := by
  obtain ⟨m, hm, hgranted, hnoLimit⟩ := h.freqMax i hi
  have hmin := h.freqMinNow_le hi
  have hvalue := (h.records k hk).freqMin i hi
  have hunset := fun hset => (h.records k hk).freqMax hset i hi
  have hdefault : m ≤ p.freqMax i := hm.2 (.inl rfl)
  have hmin' : (s.enableCluster (s.ptScnList k) i (s.ptClusterTbl i)).freqMinNow =
      max (s.ptClusterTbl i).freqMinNow ((s.ptScnList k).scn_freq_min i) := raised_eq _ _
  have hmax' : (s.enableCluster (s.ptScnList k) i (s.ptClusterTbl i)).freqMaxNow =
      max (s.limitedFreq (s.ptScnList k) i (s.ptClusterTbl i))
        (s.enableCluster (s.ptScnList k) i (s.ptClusterTbl i)).freqMinNow := raised_eq _ _
  refine ⟨_, isLeast_enable hk (fun _ _ => rfl) hm, ?_⟩
  rw [hmax', hmin', lowered_eq]
  cases hset : s.nSetFreqMax with
  | false =>
    have hlimit := hunset hset
    have hlimited : s.limitedFreq (s.ptScnList k) i (s.ptClusterTbl i) =
        (s.ptClusterTbl i).freqMaxNow := if_neg fun hboth => by rw [hset] at hboth; cases hboth.1
    rw [hlimited]
    constructor
    · omega
    · omega
  | true =>
    have hlimited : s.limitedFreq (s.ptScnList k) i (s.ptClusterTbl i) =
        min (s.ptClusterTbl i).freqMaxNow ((s.ptScnList k).scn_freq_max i) := by
      rw [← lowered_eq, limitedFreq, lowered]
      simp only [hset, true_and, gt_iff_lt]
    rw [hlimited]
    constructor
    · omega
    · omega

/-- What the enabled scenarios ask for is less when one of them is disabled. -/
theorem asked_off_subset (hvalue : Stateless value) :
    (s.setState k .off).asked p value default ⊆ s.asked p value default := by
  rw [asked_setState hvalue]
  rintro y (hdefault | ⟨i, hi, hy⟩)
  · exact .inl hdefault
  · exact .inr ⟨i, ((on_setState .off (by rintro ⟨⟩) i).mp hi).2, hy⟩

/-- The frequency limit of `perfScnDisable`. -/
theorem Inv.freqMax_disable (h : s.Inv p) (hk : k < p.nScn) {i : Nat} (hi : i < p.nClusterNum) :
    let c := (s.setState k .off).disableCluster p (s.ptScnList k) i (s.ptClusterTbl i)
    ∃ m, IsLeast ((s.setState k .off).asked p (fun scn => scn.scn_freq_max i) (p.freqMax i)) m ∧
      min c.freqMaxNow (p.freqMax i) = max c.freqMinNow m ∧
      (p.freqMax i < c.freqMaxNow → m = p.freqMax i) := by
  obtain ⟨m, hm, hgranted, hnoLimit⟩ := h.freqMax i hi
  have hmin := h.freqMinNow_le hi
  have hunset := fun hset => (h.records k hk).freqMax hset i hi
  have hdefault : m ≤ p.freqMax i := hm.2 (.inl rfl)
  have hfreqMin := h.freqMin i hi
  have hgreatest := isGreatest_recomputed (k := k) (fun _ _ => rfl) hfreqMin
  have hle := hfreqMin.2 (asked_off_subset (fun _ _ => rfl) hgreatest.1)
  dsimp only
  rw [disableCluster]
  dsimp only
  generalize (s.setState k .off).recomputed p (s.ptClusterTbl i).freqMinNow (s.ptScnList k)
    (fun scn => scn.scn_freq_min i) = freqToSet at hle ⊢
  rw [disableFreqMax]
  split
  · have hscan := isLeast_default (isLeast_scanOn p (s.setState k .off)
      (fun scn => scn.scn_freq_max i) FREQ_MAX) (p.freqMax_le i)
    refine ⟨_, hscan, ?_⟩
    generalize (s.setState k .off).scanOn min (fun scn => scn.scn_freq_max i) FREQ_MAX p.nScn = m'
    dsimp only
    constructor
    · split
      · omega
      · omega
    · split
      · omega
      · omega
  · rename_i hkeep
    have hlimit : p.freqMax i ≤ (s.ptScnList k).scn_freq_max i ∨
        m < (s.ptScnList k).scn_freq_max i := by
      cases hset : s.nSetFreqMax with
      | false => exact .inl (hunset hset)
      | true =>
        have hnot : ¬ ((s.ptClusterTbl i).freqMaxNow ≥ (s.ptScnList k).scn_freq_max i ∨
            (s.ptClusterTbl i).freqMaxNow = (s.ptClusterTbl i).freqMinNow) :=
          fun hor => hkeep ⟨hset, hor⟩
        omega
    refine ⟨m, isLeast_disable (fun _ _ => rfl) hm hlimit, ?_, hnoLimit⟩
    cases hset : s.nSetFreqMax with
    | false =>
      have hfull : p.freqMax i ≤ m := by
        rcases hm.1 with rfl | ⟨j, hj, rfl⟩
        · exact le_rfl
        · exact (h.records j hj.1).freqMax hset i hi
      omega
    | true =>
      have hnot : ¬ ((s.ptClusterTbl i).freqMaxNow ≥ (s.ptScnList k).scn_freq_max i ∨
          (s.ptClusterTbl i).freqMaxNow = (s.ptClusterTbl i).freqMinNow) :=
        fun hor => hkeep ⟨hset, hor⟩
      omega

/-! ## The control table -/

/-- Which entries are valid depends only on the entries' paths and on whether they can be
written. -/
theorem conValid_congr (hentry : ∀ idx, (s'.tConTable idx).entry = (s.tConTable idx).entry)
    (hvalid : ∀ idx, (s'.tConTable idx).isValid = (s.tConTable idx).isValid) (idx : Nat) :
    s'.conValid idx = s.conValid idx := by
  have hlen : s'.conTableLen = s.conTableLen := by
    simp only [conTableLen, hentry]
  rw [conValid, conValid, hlen, hvalid]

theorem enableTable_eq (s : PerfService) (scn : ScnNode) (idx : Nat) :
    s.enableTable scn idx = { s.tConTable idx with
      curVal := if s.betterEntry scn idx then scn.scn_param idx else (s.tConTable idx).curVal } := by
  rw [enableTable]
  split
  · rfl
  · rfl

theorem disableTable_eq (p : Platform) (s : PerfService) (scn : ScnNode) (idx : Nat) :
    s.disableTable p scn idx = { s.tConTable idx with
      curVal := if s.decidesEntry scn idx then s.bestParam p idx else (s.tConTable idx).curVal } := by
  rw [disableTable]
  split
  · rfl
  · rfl

theorem conValid_enable (p : Platform) (s : PerfService) (k idx : Nat) :
    (s.enable p k).conValid idx = s.conValid idx := by
  apply conValid_congr
  · intro idx
    change (s.enableTable (s.ptScnList k) idx).entry = _
    rw [enableTable_eq]
  · intro idx
    change (s.enableTable (s.ptScnList k) idx).isValid = _
    rw [enableTable_eq]

theorem conValid_withdraw (p : Platform) (s : PerfService) (scn : ScnNode) (idx : Nat) :
    (s.withdraw p scn).conValid idx = s.conValid idx := by
  apply conValid_congr
  · intro idx
    change (s.disableTable p scn idx).entry = _
    rw [disableTable_eq]
  · intro idx
    change (s.disableTable p scn idx).isValid = _
    rw [disableTable_eq]

/-- The entries of the control table after `perfScnEnable`. -/
theorem bestEntry_enable {idx : Nat} (hk : k < p.nScn) (hvalid : s.conValid idx = true)
    (h : s.BestEntry p idx) : (s.enable p k).BestEntry p idx := by
  have htable : (s.enable p k).tConTable idx = _ := enableTable_eq s (s.ptScnList k) idx
  rw [BestEntry, htable]
  rw [BestEntry] at h
  rw [betterEntry, hvalid]
  dsimp only at h ⊢
  split
  · rename_i hcomp
    rw [if_pos hcomp] at h
    have hlowered := isLeast_enable hk (fun _ _ => rfl) h
    rw [lowered] at hlowered
    rw [asked_enable]
    simpa only [true_and, decide_eq_true_eq] using hlowered
  · rename_i hcomp
    rw [if_neg hcomp] at h
    have hraised := isGreatest_enable hk (fun _ _ => rfl) h
    rw [raised] at hraised
    rw [asked_enable]
    simpa only [true_and, decide_eq_true_eq, gt_iff_lt] using hraised

/-- The entries of the control table after `perfScnDisable`. -/
theorem bestEntry_disable {idx : Nat} (hvalid : s.conValid idx = true) (h : s.BestEntry p idx) :
    ((s.setState k .off).withdraw p (s.ptScnList k)).BestEntry p idx := by
  have htable : ((s.setState k .off).withdraw p (s.ptScnList k)).tConTable idx = _ :=
    disableTable_eq p (s.setState k .off) (s.ptScnList k) idx
  have hvalid' : (s.setState k .off).conValid idx = true := hvalid
  rw [BestEntry, htable]
  rw [BestEntry] at h
  rw [decidesEntry, bestParam, hvalid']
  dsimp only at h ⊢
  split
  · rename_i hcomp
    have hcomp' : (s.tConTable idx).comp = LESS := hcomp
    rw [if_pos hcomp'] at h
    simp only [true_and, decide_eq_true_eq]
    split
    · exact isLeast_scanOn p (s.setState k .off) (fun scn => scn.scn_param idx) _
    · rename_i hkeep
      refine isLeast_disable (fun _ _ => rfl) h ?_
      rwa [not_and_or, not_lt, not_le] at hkeep
  · rename_i hcomp
    have hcomp' : ¬ (s.tConTable idx).comp = LESS := hcomp
    rw [if_neg hcomp'] at h
    simp only [true_and, decide_eq_true_eq]
    split
    · exact isGreatest_scanOn p (s.setState k .off) (fun scn => scn.scn_param idx) _
    · rename_i hkeep
      refine isGreatest_disable (fun _ _ => rfl) h ?_
      rwa [gt_iff_lt, ge_iff_le, not_and_or, not_lt, not_le] at hkeep

/-! ## Enabling and disabling -/

theorem RecordOk.setState {i : Nat} (h : s.RecordOk p i) (k : Nat) (state : ScnState) :
    (s.setState k state).RecordOk p i := by
  rw [RecordOk, ptScnList_setState]
  exact ⟨h.freqMin, h.freqMax, h.gpuFreqMax, h.cpuset⟩

/-- The check does not look at the state. -/
theorem checkSuccess_setState (s : PerfService) (k : Nat) (state : ScnState) (i : Nat) :
    (s.setState k state).checkSuccess i = s.checkSuccess i := by
  rw [checkSuccess, checkSuccess, ptScnList_setState]

/-- A scenario is enabled. -/
theorem FloorInv.enable (h : s.FloorInv p) (hk : k < p.nScn) (hcheck : s.checkSuccess k = true) :
    (s.enable p k).FloorInv p where
  cores := isGreatest_enable hk (fun _ _ => rfl) h.cores
  gpuFreq := isGreatest_enable hk (fun _ _ => rfl) h.gpuFreq
  perfIdx := isGreatest_enable hk (fun _ _ => rfl) h.perfIdx
  vcore := isGreatest_enable hk (fun _ _ => rfl) h.vcore
  cpuMin := by
    intro i hi
    obtain ⟨m, hm⟩ := enable_cluster p s k hi
    rw [hm]
    exact isGreatest_enable hk (fun _ _ => rfl) (h.cpuMin i hi)
  cpuHardMin := by
    intro i hi
    obtain ⟨m, hm⟩ := enable_cluster p s k hi
    rw [hm]
    exact isGreatest_enable hk (fun _ _ => rfl) (h.cpuHardMin i hi)
  freqMin := by
    intro i hi
    obtain ⟨m, hm⟩ := enable_cluster p s k hi
    rw [hm]
    exact isGreatest_enable hk (fun _ _ => rfl) (h.freqMin i hi)
  conTable := by
    intro idx hvalid
    rw [conValid_enable] at hvalid
    exact bestEntry_enable hk hvalid (h.conTable idx hvalid)
  invalid := by
    intro idx hvalid
    rw [conValid_enable] at hvalid
    have htable : (s.enable p k).tConTable idx = _ := enableTable_eq s (s.ptScnList k) idx
    rw [htable, betterEntry, hvalid]
    exact h.invalid idx hvalid
  checked := by
    intro i hi
    apply (checkSuccess_setState s k .on i).trans
    rcases (on_setState_on hk i).mp hi with rfl | hi
    · exact hcheck
    · exact h.checked i hi

/-- A scenario is disabled. -/
theorem FloorInv.disable (h : s.FloorInv p) (k : Nat) :
    ((s.setState k .off).withdraw p (s.ptScnList k)).FloorInv p where
  cores := isGreatest_recomputed (fun _ _ => rfl) h.cores
  gpuFreq := isGreatest_recomputed (fun _ _ => rfl) h.gpuFreq
  perfIdx := isGreatest_recomputedPos (fun _ _ => rfl) h.perfIdx
  vcore := isGreatest_recomputedPos (fun _ _ => rfl) h.vcore
  cpuMin := by
    intro i hi
    obtain ⟨m, hm⟩ := withdraw_cluster p (s.setState k .off) (s.ptScnList k) hi
    rw [hm]
    exact isGreatest_recomputed (fun _ _ => rfl) (h.cpuMin i hi)
  cpuHardMin := by
    intro i hi
    obtain ⟨m, hm⟩ := withdraw_cluster p (s.setState k .off) (s.ptScnList k) hi
    rw [hm]
    exact isGreatest_recomputed (fun _ _ => rfl) (h.cpuHardMin i hi)
  freqMin := by
    intro i hi
    obtain ⟨m, hm⟩ := withdraw_cluster p (s.setState k .off) (s.ptScnList k) hi
    rw [hm]
    exact isGreatest_recomputed (fun _ _ => rfl) (h.freqMin i hi)
  conTable := by
    intro idx hvalid
    rw [conValid_withdraw] at hvalid
    exact bestEntry_disable hvalid (h.conTable idx hvalid)
  invalid := by
    intro idx hvalid
    rw [conValid_withdraw] at hvalid
    have htable : ((s.setState k .off).withdraw p (s.ptScnList k)).tConTable idx = _ :=
      disableTable_eq p (s.setState k .off) (s.ptScnList k) idx
    rw [htable, decidesEntry, hvalid]
    exact h.invalid idx hvalid
  checked := by
    intro i hi
    have hon : s.On p i := ((on_setState .off (by rintro ⟨⟩) i).mp hi).2
    exact (checkSuccess_setState s k .off i).trans (h.checked i hon)

/-- The limit of the GPU after `perfScnEnable`. -/
theorem Inv.gpuFreqMax_enable (h : s.Inv p) (hk : k < p.nScn) :
    IsLeast ((s.enable p k).asked p ScnNode.scn_gpu_freq_max p.nGpuHighestFreqLevel)
      (s.enable p k).scn_gpu_freq_max_now := by
  have hleast := isLeast_enable hk (fun _ _ => rfl) h.gpuFreqMax
  cases hset : s.nSetGpuFreqMax with
  | true =>
    have hnow : (s.enable p k).scn_gpu_freq_max_now = _ := if_pos hset
    rw [hnow]
    exact hleast
  | false =>
    have hnow : (s.enable p k).scn_gpu_freq_max_now = s.scn_gpu_freq_max_now :=
      if_neg (by rw [hset]; exact Bool.false_ne_true)
    have hle := (h.gpuFreqMax.2 (.inl rfl)).trans ((h.records k hk).gpuFreqMax hset)
    rw [lowered_eq, min_eq_left hle] at hleast
    rw [hnow]
    exact hleast

/-- The limit of the GPU after `perfScnDisable`. -/
theorem Inv.gpuFreqMax_disable (h : s.Inv p) (hk : k < p.nScn) :
    IsLeast ((s.setState k .off).asked p ScnNode.scn_gpu_freq_max p.nGpuHighestFreqLevel)
      ((s.setState k .off).withdraw p (s.ptScnList k)).scn_gpu_freq_max_now := by
  by_cases hscan : s.nSetGpuFreqMax ∧ s.scn_gpu_freq_max_now ≥ (s.ptScnList k).scn_gpu_freq_max
  · have hnow : ((s.setState k .off).withdraw p (s.ptScnList k)).scn_gpu_freq_max_now = _ :=
      if_pos hscan
    rw [hnow]
    exact isLeast_scanOn p (s.setState k .off) ScnNode.scn_gpu_freq_max _
  · have hnow : ((s.setState k .off).withdraw p (s.ptScnList k)).scn_gpu_freq_max_now = _ :=
      if_neg hscan
    rw [hnow]
    apply isLeast_disable (fun _ _ => rfl) h.gpuFreqMax
    cases hset : s.nSetGpuFreqMax with
    | true => exact .inr (not_le.mp fun hle => hscan ⟨hset, hle⟩)
    | false => exact .inl ((h.records k hk).gpuFreqMax hset)

theorem Inv.enable (h : s.Inv p) (hk : k < p.nScn) (hcheck : s.checkSuccess k = true) :
    (s.enable p k).Inv p where
  toFloorInv := h.toFloorInv.enable hk hcheck
  gpuFreqMax := h.gpuFreqMax_enable hk
  freqMax := by
    intro i hi
    obtain ⟨m, hm⟩ := enable_cluster p s k hi
    rw [hm]
    exact h.freqMax_enable hk hi
  cpuset := cpuset_enable hk (h.records k hk).cpuset h.cpuset
  records i hi := (h.records i hi).setState k .on

theorem Inv.disable (h : s.Inv p) (hk : k < p.nScn) :
    ((s.setState k .off).withdraw p (s.ptScnList k)).Inv p where
  toFloorInv := h.toFloorInv.disable k
  gpuFreqMax := h.gpuFreqMax_disable hk
  freqMax := by
    intro i hi
    obtain ⟨m, hm⟩ := withdraw_cluster p (s.setState k .off) (s.ptScnList k) hi
    rw [hm]
    exact h.freqMax_disable hk hi
  cpuset := cpuset_disable (h.records k hk).cpuset h.cpuset
  records i hi := (h.records i hi).setState k .off

/-- What the invariant is for. -/
theorem Inv.aggregate (h : s.Inv p) : s.Aggregate p where
  toFloors := h.toFloors
  gpuFreqMax := h.gpuFreqMax
  freqMax i hi := by
    obtain ⟨m, hm, hgranted, -⟩ := h.freqMax i hi
    exact ⟨m, hm, hgranted⟩
  cpuset := h.cpuset

end PerfService

end MtkHw.Power
