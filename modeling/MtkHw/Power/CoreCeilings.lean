import MtkHw.Power.ScenarioRuns

/-!
# Ceilings of cores

What `setClusterCores` is told in a run of scenarios.  The ceiling of a cluster is never below its
minimum, or there is none.  `perfScnEnable` ends with a rule that leaves one of the first two
clusters on; `perfScnDisable` has no such rule, and `GoesOff` says when it leaves a cluster with
the ceiling 0.  `ceilings_iff` says that this is all that can go wrong.
-/

namespace MtkHw.Power

open Lib

namespace PerfService

variable {p : Platform} {s s' : PerfService} {k i : Nat} {tbl : Nat → ClusterInfo}

/-! ## The distribution of cores -/

/-- The minimum of a cluster, where it counts. -/
def validMin (p : Platform) (mins : Nat → Int) (j : Nat) : Int :=
  if 0 < mins j ∧ mins j ≤ p.cpuNum j then mins j else 0

/-- The cores that the clusters above `i` ask for, of `n` clusters. -/
def above (p : Platform) (mins : Nat → Int) (i : Nat) : Nat → Int
  | 0 => 0
  | n + 1 => if i < n then above p mins i n + validMin p mins n else 0

/-- No core is given to a cluster: it asks for none, or for too many, or the clusters above it take
them all. -/
def NoCores (p : Platform) (mins : Nat → Int) (total : Int) (i : Nat) : Prop :=
  mins i ≤ 0 ∨ p.cpuNum i < mins i ∨ total ≤ above p mins i p.nClusterNum

theorem validMin_nonneg (p : Platform) (mins : Nat → Int) (j : Nat) : 0 ≤ validMin p mins j := by
  rw [validMin]
  split
  · omega
  · exact Int.le_refl 0

theorem above_nonneg (p : Platform) (mins : Nat → Int) (i n : Nat) : 0 ≤ above p mins i n := by
  induction n with
  | zero => exact Int.le_refl 0
  | succ n ih =>
    rw [above]
    split
    · have hvalid := validMin_nonneg p mins n
      omega
    · exact Int.le_refl 0

theorem above_self (p : Platform) (mins : Nat → Int) (i : Nat) : above p mins i (i + 1) = 0 :=
  if_neg (Nat.lt_irrefl i)

/-- The minimum of a cluster is not positive, by what the distribution leaves for it. -/
theorem actualCoreMin_nonpos (p : Platform) (tbl : Nat → ClusterInfo) {n : Nat} (hi : i < n)
    (total : Int) :
    actualCoreMin p tbl n total i ≤ 0 ↔ (tbl i).cpuHardMinNow ≤ 0 ∧
      ((tbl i).cpuMinNow ≤ 0 ∨ p.cpuNum i < (tbl i).cpuMinNow ∨
        total ≤ above p (fun j => (tbl j).cpuMinNow) i n) := by
  induction n generalizing total with
  | zero => exact absurd hi (Nat.not_lt_zero i)
  | succ n ih =>
    rw [actualCoreMin]
    rcases Nat.eq_or_lt_of_le (Nat.le_of_lt_succ hi) with rfl | hlt
    · rw [above_self, write, if_pos rfl, PPM_IGNORE]
      split
      · omega
      · split
        · omega
        · omega
    · have hne : i ≠ n := Nat.ne_of_lt hlt
      have hpos := above_nonneg p (fun j => (tbl j).cpuMinNow) i n
      rw [write, if_neg hne, ih hlt, above, if_pos hlt]
      refine and_congr_right fun _ => or_congr_right (or_congr_right ?_)
      -- What is left below a cluster: nothing, if the cluster takes it all.
      rw [validMin, PPM_IGNORE]
      split <;> split <;> split <;> omega

/-- The minimum of a cluster is not below its hard minimum. -/
theorem hardMin_le_actualCoreMin (p : Platform) (tbl : Nat → ClusterInfo) {n : Nat} (hi : i < n)
    (total : Int) : (tbl i).cpuHardMinNow ≤ actualCoreMin p tbl n total i := by
  induction n generalizing total with
  | zero => exact absurd hi (Nat.not_lt_zero i)
  | succ n ih =>
    rw [actualCoreMin, write]
    rcases Nat.eq_or_lt_of_le (Nat.le_of_lt_succ hi) with rfl | hlt
    · rw [if_pos rfl]
      exact le_max_right _ _
    · rw [if_neg (Nat.ne_of_lt hlt)]
      exact ih hlt _

/-! ## Calls of setClusterCores -/

/-- The ceilings of one call. -/
def CeilingsOk (p : Platform) (coreTbl maxCoreTbl : Nat → Int) : Prop :=
  ¬ (maxCoreTbl 0 = 0 ∧ maxCoreTbl 1 = 0) ∧
    ∀ i < p.nClusterNum, maxCoreTbl i = PPM_IGNORE ∨ coreTbl i ≤ maxCoreTbl i

/-- The ceilings of all calls so far. -/
def CallsOk (p : Platform) (s : PerfService) : Prop :=
  ∀ totalCore coreTbl maxCoreTbl,
    .clusterCores totalCore coreTbl maxCoreTbl ∈ s.settings → CeilingsOk p coreTbl maxCoreTbl

theorem mem_passOn {cond : Bool} {x y : Setting} : x ∈ passOn cond y ↔ cond = true ∧ x = y := by
  cases cond with
  | false => exact iff_of_false List.not_mem_nil fun h => Bool.false_ne_true h.1
  | true => exact List.mem_singleton.trans (and_iff_right rfl).symm

/-- The call of `perfScnEnable`. -/
theorem clusterCores_enable {scn : ScnNode} {cores totalCore : Int}
    {actual coreTbl maxCoreTbl : Nat → Int} {tuned : Nat → ClusterInfo}
    (h : .clusterCores totalCore coreTbl maxCoreTbl ∈ s.enableSettings p scn cores actual tuned) :
    coreTbl = actual ∧ maxCoreTbl = fun i => (fixLittle p tuned i).cpuMaxNow := by
  simp only [enableSettings, List.mem_append, mem_passOn, List.mem_flatMap, reduceCtorEq, and_false,
    or_false, false_or, exists_false, Setting.clusterCores.injEq] at h
  exact ⟨h.2.2.1, h.2.2.2⟩

/-- The call of `perfScnDisable`. -/
theorem clusterCores_disable {scn : ScnNode} {cores totalCore : Int}
    {actual coreTbl maxCoreTbl : Nat → Int} {tuned : Nat → ClusterInfo}
    (h : .clusterCores totalCore coreTbl maxCoreTbl ∈
      s.disableSettings p scn cores actual tbl tuned) :
    coreTbl = actual ∧ maxCoreTbl = fun i => (tuned i).cpuMaxNow := by
  simp only [disableSettings, List.mem_append, mem_passOn, List.mem_flatMap, reduceCtorEq,
    and_false, or_false, exists_false, Setting.clusterCores.injEq] at h
  rcases h with h | ⟨-, h⟩
  · exact ⟨h.2.2.1, h.2.2.2⟩
  · split at h
    · cases h
    · cases h

/-- `perfScnDisable` makes a call when a ceiling changes or is tuned. -/
theorem clusterCores_of_changed {scn : ScnNode} {cores : Int} {actual : Nat → Int}
    {tuned : Nat → ClusterInfo} (hi : i < p.nClusterNum)
    (h : (tbl i).cpuMaxNow ≠ (s.ptClusterTbl i).cpuMaxNow ∨ (tbl i).cpuMaxNow < actual i) :
    .clusterCores cores actual (fun i => (tuned i).cpuMaxNow) ∈
      s.disableSettings p scn cores actual tbl tuned := by
  have hchanged : anyCluster p (fun i => (tbl i).cpuMaxNow ≠ (s.ptClusterTbl i).cpuMaxNow ∨
      (tbl i).cpuMaxNow < actual i) = true :=
    List.any_eq_true.mpr ⟨i, List.mem_range.mpr hi, decide_eq_true h⟩
  simp only [disableSettings, List.append_assoc]
  refine List.mem_append_left _ (mem_passOn.mpr ⟨decide_eq_true (.inl hchanged), rfl⟩)

/-! ## Tuned ceilings -/

/-- A ceiling that is tuned is not below the minimum. -/
theorem le_fineTune (actual : Nat → Int) (i : Nat) (c : ClusterInfo) :
    actual i ≤ (fineTune actual i c).cpuMaxNow := by
  rw [fineTune]
  dsimp only
  split
  · exact Int.le_refl _
  · omega

/-- The rule of `perfScnEnable` leaves one of the first two clusters on. -/
theorem bothOff_fixLittle (p : Platform) (tbl : Nat → ClusterInfo) :
    bothOff p (fixLittle p tbl) = false := by
  rw [fixLittle]
  split
  · apply decide_eq_false
    rintro ⟨-, -, hzero⟩
    change PPM_IGNORE = 0 at hzero
    exact absurd hzero (by decide)
  · rename_i hoff
    exact Bool.not_eq_true _ ▸ hoff

/-- The rule changes no other ceiling. -/
theorem fixLittle_cpuMaxNow (p : Platform) (tbl : Nat → ClusterInfo) (i : Nat) :
    (fixLittle p tbl i).cpuMaxNow = PPM_IGNORE ∨
      (fixLittle p tbl i).cpuMaxNow = (tbl i).cpuMaxNow := by
  rw [fixLittle]
  split
  · dsimp only
    split
    · exact .inl rfl
    · exact .inr rfl
  · exact .inr rfl

theorem bothOff_iff (h2 : 2 ≤ p.nClusterNum) :
    bothOff p tbl = true ↔ (tbl 0).cpuMaxNow = 0 ∧ (tbl 1).cpuMaxNow = 0 := by
  rw [bothOff, decide_eq_true_iff]
  exact ⟨fun h => ⟨h.2.2, h.2.1⟩, fun h => ⟨h2, h.2, h.1⟩⟩

/-! ## What is left when a scenario is disabled -/

/-- The minimum of a cluster for the scenarios that stay enabled. -/
def minAfter (p : Platform) (s : PerfService) (k i : Nat) : Int :=
  (s.setState k .off).scanOn max (fun scn => scn.scn_core_min i) 0 p.nScn

/-- The cores that the scenarios that stay enabled ask for. -/
def totalAfter (p : Platform) (s : PerfService) (k : Nat) : Int :=
  (s.setState k .off).scanOn max ScnNode.scn_core_total 0 p.nScn

/-- The cluster has no ceiling above 0: one of the scenarios that stay enabled asks for 0, or the
ceiling is not looked at and is not positive. -/
def LimitOff (p : Platform) (s : PerfService) (k i : Nat) : Prop :=
  let c := s.ptClusterTbl i
  if s.nSetCoreMax ∧
      (c.cpuMaxNow ≥ (s.ptScnList k).scn_core_max i ∨ c.cpuMaxNow = c.cpuMinNow) then
    ∃ j, j ≠ k ∧ s.On p j ∧ (s.ptScnList j).scn_core_max i ≤ 0
  else c.cpuMaxNow ≤ 0

/-- The ceiling of a cluster becomes 0 when a scenario is disabled: no hard minimum is left, no
core is given to the cluster, and its ceiling is not above 0. -/
def GoesOff (p : Platform) (s : PerfService) (k i : Nat) : Prop :=
  (∀ j, j ≠ k → s.On p j → (s.ptScnList j).scn_core_hard_min i ≤ 0) ∧
    NoCores p (minAfter p s k) (totalAfter p s k) i ∧ LimitOff p s k i

/-- The clusters of `perfScnDisable`, before the ceilings are tuned. -/
def disabledTbl (p : Platform) (s : PerfService) (k : Nat) : Nat → ClusterInfo :=
  forClusters p s.ptClusterTbl ((s.setState k .off).disableCluster p (s.ptScnList k))

theorem on_off {j : Nat} : (s.setState k .off).On p j ↔ j ≠ k ∧ s.On p j :=
  on_setState .off (by rintro ⟨⟩) j

theorem recomputed_eq {value : ScnNode → Int} {x : Int} (hvalue : Stateless value)
    (h : IsGreatest (s.asked p value 0) x) :
    (s.setState k .off).recomputed p x (s.ptScnList k) value =
      (s.setState k .off).scanOn max value 0 p.nScn :=
  (isGreatest_recomputed hvalue h).unique (isGreatest_scanOn p _ value 0)

theorem above_congr {mins mins' : Nat → Int} {n : Nat} (h : ∀ j < n, mins j = mins' j) :
    above p mins i n = above p mins' i n := by
  induction n with
  | zero => rfl
  | succ n ih =>
    rw [above, above, validMin, validMin, h n (Nat.lt_succ_self n),
      ih fun j hj => h j (Nat.lt_succ_of_lt hj)]

theorem disabledTbl_of_lt (hi : i < p.nClusterNum) :
    disabledTbl p s k i =
      (s.setState k .off).disableCluster p (s.ptScnList k) i (s.ptClusterTbl i) := if_pos hi

/-- The ceiling of a cluster is not positive before it is tuned. -/
theorem limitOff_iff (hi : i < p.nClusterNum) :
    (disabledTbl p s k i).cpuMaxNow ≤ 0 ↔ LimitOff p s k i := by
  have hmax : (disabledTbl p s k i).cpuMaxNow =
      if s.nSetCoreMax = true ∧
          ((s.ptClusterTbl i).cpuMaxNow ≥ (s.ptScnList k).scn_core_max i ∨
            (s.ptClusterTbl i).cpuMaxNow = (s.ptClusterTbl i).cpuMinNow) then
        (s.setState k .off).scanOn min (fun scn => scn.scn_core_max i) CORE_MAX p.nScn
      else (s.ptClusterTbl i).cpuMaxNow := by
    rw [disabledTbl_of_lt hi]
    rfl
  rw [hmax, LimitOff]
  by_cases hscan : s.nSetCoreMax = true ∧
      ((s.ptClusterTbl i).cpuMaxNow ≥ (s.ptScnList k).scn_core_max i ∨
        (s.ptClusterTbl i).cpuMaxNow = (s.ptClusterTbl i).cpuMinNow)
  · rw [if_pos hscan, if_pos hscan]
    have hleast := isLeast_scanOn p (s.setState k .off) (fun scn => scn.scn_core_max i) CORE_MAX
    rw [asked_setState fun _ _ => rfl] at hleast
    constructor
    · intro hle
      rcases hleast.1 with hdefault | ⟨j, hj, hvalue⟩
      · rw [hdefault] at hle
        exact absurd hle (by decide)
      · exact ⟨j, (on_off.mp hj).1, (on_off.mp hj).2, hvalue.trans_le hle⟩
    · rintro ⟨j, hjk, hj, hle⟩
      exact (hleast.2 (.inr ⟨j, on_off.mpr ⟨hjk, hj⟩, rfl⟩)).trans hle
  · rw [if_neg hscan, if_neg hscan]

/-- When `perfScnDisable` leaves a cluster with the ceiling 0. -/
theorem tuned_eq_zero (h : s.FloorInv p) (hi : i < p.nClusterNum) {cores : Int}
    (hcores : cores = totalAfter p s k) :
    (fineTune (actualCoreMin p (disabledTbl p s k) p.nClusterNum cores) i
      (disabledTbl p s k i)).cpuMaxNow = 0 ↔ GoesOff p s k i := by
  have hmin : ∀ j < p.nClusterNum, (disabledTbl p s k j).cpuMinNow = minAfter p s k j := by
    intro j hj
    rw [disabledTbl_of_lt hj]
    exact recomputed_eq (fun _ _ => rfl) (h.cpuMin j hj)
  have hhard : IsGreatest ((s.setState k .off).asked p (fun scn => scn.scn_core_hard_min i) 0)
      (disabledTbl p s k i).cpuHardMinNow := by
    rw [disabledTbl_of_lt hi]
    exact isGreatest_recomputed (fun _ _ => rfl) (h.cpuHardMin i hi)
  have hfree : (disabledTbl p s k i).cpuHardMinNow ≤ 0 ↔
      ∀ j, j ≠ k → s.On p j → (s.ptScnList j).scn_core_hard_min i ≤ 0 := by
    rw [asked_setState fun _ _ => rfl] at hhard
    constructor
    · exact fun hle j hjk hj => (hhard.2 (.inr ⟨j, on_off.mpr ⟨hjk, hj⟩, rfl⟩)).trans hle
    · intro hall
      rcases hhard.1 with hzero | ⟨j, hj, hvalue⟩
      · exact hzero.le
      · exact hvalue.symm.trans_le (hall j (on_off.mp hj).1 (on_off.mp hj).2)
  have hactual := actualCoreMin_nonpos p (disabledTbl p s k) hi cores
  rw [hfree, hmin i hi, above_congr hmin, hcores] at hactual
  rw [GoesOff, NoCores, ← and_assoc, ← hactual, ← limitOff_iff hi, hcores]
  -- The minimum is not negative, since the hard minimum is not.
  have hnonneg : 0 ≤ actualCoreMin p (disabledTbl p s k) p.nClusterNum (totalAfter p s k) i := by
    refine le_trans ?_ (hardMin_le_actualCoreMin p (disabledTbl p s k) hi _)
    exact hhard.2 (.inl rfl)
  rw [fineTune]
  dsimp only
  split
  · omega
  · omega

/-! ## Runs -/

/-- One of the first two clusters stays on when a scenario is disabled. -/
def LittleKept (p : Platform) (s : PerfService) : Move → Prop
  | .disable k => k < p.nScn → s.checkSuccess k = true → (s.ptScnList k).scn_state ≠ .off →
      ¬ (s.GoesOff p k 0 ∧ s.GoesOff p k 1)
  | _ => True

/-- The clusters after calls that are right. -/
def LittleOn (p : Platform) (s : PerfService) : Prop :=
  s.CallsOk p → bothOff p s.ptClusterTbl = false

theorem CallsOk.mono {settings : List Setting} (h : s'.CallsOk p)
    (hsettings : s'.settings = s.settings ++ settings) : s.CallsOk p := by
  intro totalCore coreTbl maxCoreTbl hmem
  refine h totalCore coreTbl maxCoreTbl ?_
  rw [hsettings]
  exact List.mem_append_left _ hmem

/-- The calls of `perfScnEnable`. -/
theorem CallsOk.enable (h2 : 2 ≤ p.nClusterNum) (h : s.CallsOk p) (k : Nat) :
    (s.enable p k).CallsOk p := by
  intro totalCore coreTbl maxCoreTbl hmem
  rcases List.mem_append.mp hmem with hmem | hmem
  · exact h totalCore coreTbl maxCoreTbl hmem
  · obtain ⟨rfl, rfl⟩ := clusterCores_enable hmem
    constructor
    · rw [← bothOff_iff h2, bothOff_fixLittle]
      exact Bool.false_ne_true
    · intro i hi
      refine (fixLittle_cpuMaxNow p _ i).imp_right fun hsame => ?_
      dsimp only
      rw [hsame, forClusters, if_pos hi]
      exact le_fineTune _ i _

/-- The calls of `perfScnDisable` are right if and only if one of the clusters stays on. -/
theorem callsOk_withdraw (h2 : 2 ≤ p.nClusterNum) (hfloor : s.FloorInv p) (h : s.CallsOk p)
    (hon : bothOff p s.ptClusterTbl = false) (k : Nat) :
    ((s.setState k .off).withdraw p (s.ptScnList k)).CallsOk p ↔
      ¬ (s.GoesOff p k 0 ∧ s.GoesOff p k 1) := by
  have hcores : (s.setState k .off).recomputed p s.scn_cores_now (s.ptScnList k)
      ScnNode.scn_core_total = totalAfter p s k := recomputed_eq (fun _ _ => rfl) hfloor.cores
  let cores := (s.setState k .off).recomputed p s.scn_cores_now (s.ptScnList k)
    ScnNode.scn_core_total
  let actual := actualCoreMin p (disabledTbl p s k) p.nClusterNum cores
  let tuned := forClusters p (disabledTbl p s k) (fineTune actual)
  have htuned : ∀ i < p.nClusterNum, tuned i = fineTune actual i (disabledTbl p s k i) :=
    fun i hi => if_pos hi
  have hzero : ∀ i < p.nClusterNum, (tuned i).cpuMaxNow = 0 ↔ s.GoesOff p k i := by
    intro i hi
    rw [htuned i hi]
    exact tuned_eq_zero hfloor hi hcores
  have h0 : 0 < p.nClusterNum := Nat.lt_of_lt_of_le Nat.two_pos h2
  have h1 : 1 < p.nClusterNum := h2
  constructor
  · rintro hcalls ⟨hoff0, hoff1⟩
    -- The ceilings were not both 0, so that a call is made.
    have hchanged : ∃ i < p.nClusterNum,
        (disabledTbl p s k i).cpuMaxNow ≠ (s.ptClusterTbl i).cpuMaxNow ∨
          (disabledTbl p s k i).cpuMaxNow < actual i := by
      by_contra hsame
      have hkept : ∀ i < p.nClusterNum, (tuned i).cpuMaxNow = (s.ptClusterTbl i).cpuMaxNow := by
        intro i hi
        obtain ⟨heq, hle⟩ := not_or.mp fun hc => hsame ⟨i, hi, hc⟩
        rw [htuned i hi, ← not_not.mp heq]
        exact if_neg hle
      rw [← Bool.not_eq_true, bothOff_iff h2] at hon
      exact hon ⟨(hkept 0 h0).symm.trans ((hzero 0 h0).mpr hoff0),
        (hkept 1 h1).symm.trans ((hzero 1 h1).mpr hoff1)⟩
    obtain ⟨i, hi, hc⟩ := hchanged
    refine (hcalls cores actual (fun i => (tuned i).cpuMaxNow) ?_).1
      ⟨(hzero 0 h0).mpr hoff0, (hzero 1 h1).mpr hoff1⟩
    exact List.mem_append_right _ (clusterCores_of_changed (s := s.setState k .off) hi hc)
  · intro hgoes totalCore coreTbl maxCoreTbl hmem
    rcases List.mem_append.mp hmem with hmem | hmem
    · exact h totalCore coreTbl maxCoreTbl hmem
    · obtain ⟨rfl, rfl⟩ := clusterCores_disable hmem
      constructor
      · rintro ⟨hoff0, hoff1⟩
        exact hgoes ⟨(hzero 0 h0).mp hoff0, (hzero 1 h1).mp hoff1⟩
      · intro i hi
        refine .inr ?_
        change actual i ≤ (tuned i).cpuMaxNow
        rw [htuned i hi]
        exact le_fineTune actual i _

/-- The calls of a move are right if and only if one of the clusters stays on. -/
theorem callsOk_move (h2 : 2 ≤ p.nClusterNum) (hinv : s.FloorInv p ∧ s.LittleOn p)
    (h : s.CallsOk p) {m : Move} (hm : s.move p m = some s') :
    s'.CallsOk p ↔ s.LittleKept p m := by
  rcases move_cases hm with
    ⟨k, rfl, hk, rfl⟩ | ⟨k, rfl, hk, rfl⟩ | ⟨k, scn, coreMax, rfl, hoff, hscn, rfl⟩
  · refine iff_of_true ?_ trivial
    rw [perfScnEnable]
    split
    · split
      · exact h
      · exact h.enable h2 k
    · exact h
  · rw [perfScnDisable]
    by_cases hcheck : s.checkSuccess k = true
    · rw [if_pos hcheck]
      by_cases hstate : (s.ptScnList k).scn_state = .off
      · rw [if_pos hstate]
        exact iff_of_true h fun _ _ hne => absurd hstate hne
      · rw [if_neg hstate, callsOk_withdraw h2 hinv.1 h (hinv.2 h)]
        exact ⟨fun hkept _ _ _ => hkept, fun hkept => hkept hk hcheck hstate⟩
    · rw [if_neg hcheck]
      exact iff_of_true h fun _ hc => absurd hc hcheck
  · exact iff_of_true h trivial

/-- After calls that are right, one of the first two clusters is on. -/
theorem LittleOn.move (h2 : 2 ≤ p.nClusterNum) (hinv : s.FloorInv p ∧ s.LittleOn p) {m : Move}
    (hm : s.move p m = some s') : s'.LittleOn p := by
  rcases move_cases hm with
    ⟨k, rfl, hk, rfl⟩ | ⟨k, rfl, hk, rfl⟩ | ⟨k, scn, coreMax, rfl, hoff, hscn, rfl⟩
  · rw [perfScnEnable]
    split
    · split
      · exact hinv.2
      · exact fun _ => bothOff_fixLittle p _
    · exact hinv.2
  · rw [perfScnDisable]
    split
    · split
      · exact hinv.2
      · intro hcalls
        have hbefore : s.CallsOk p := hcalls.mono (s := s.setState k .off) rfl
        have hgoes := (callsOk_withdraw h2 hinv.1 hbefore (hinv.2 hbefore) k).mp hcalls
        rw [← Bool.not_eq_true, bothOff_iff h2]
        have hcores : (s.setState k .off).recomputed p s.scn_cores_now (s.ptScnList k)
            ScnNode.scn_core_total = totalAfter p s k :=
          recomputed_eq (fun _ _ => rfl) hinv.1.cores
        have hzero : ∀ i < p.nClusterNum,
            (((s.setState k .off).withdraw p (s.ptScnList k)).ptClusterTbl i).cpuMaxNow = 0 →
              s.GoesOff p k i := by
          intro i hi hmax
          refine (tuned_eq_zero hinv.1 hi hcores).mp ?_
          rw [← hmax]
          exact (congrArg ClusterInfo.cpuMaxNow (if_pos hi)).symm
        exact fun hoff => hgoes ⟨hzero 0 (Nat.lt_of_lt_of_le Nat.two_pos h2) hoff.1,
          hzero 1 h2 hoff.2⟩
    · exact hinv.2
  · exact hinv.2

/-- All calls of `setClusterCores` in a run have ceilings that are right, if and only if each
disabling of a scenario leaves one of the first two clusters on. -/
theorem callsOk_iff (p : Platform) (h2 : 2 ≤ p.nClusterNum)
    (hcpu : ∀ i < p.nClusterNum, 1 ≤ p.cpuNum i) (moves : List Move) :
    (scenarios p).Along (CallsOk p) (init p) moves ↔
      (scenarios p).Meets (LittleKept p) (init p) moves := by
  refine (scenarios p).along_iff_meets_of_stuck (I := fun s => s.FloorInv p ∧ s.LittleOn p)
    ?_ ?_ (fun s m s' hinv h hm => callsOk_move h2 hinv h hm) ⟨(init_inv p).toFloorInv, ?_⟩ ?_ moves
  · intro s m hnone
    cases m with
    | enable k => trivial
    | configure k scn coreMax => trivial
    | disable k => exact fun hk => absurd hk (Nat.not_lt.mpr (le_of_move_eq_none hnone))
  · exact fun s m s' hinv hm => ⟨hinv.1.move hm, LittleOn.move h2 hinv hm⟩
  · intro _
    have htbl := congrArg ptClusterTbl (bare_init p)
    change (init p).ptClusterTbl = (zero p).ptClusterTbl at htbl
    rw [htbl, ← Bool.not_eq_true, bothOff_iff h2]
    intro hoff
    have hcpu0 := hcpu 0 (Nat.lt_of_lt_of_le Nat.two_pos h2)
    have hzero : p.cpuNum 0 = 0 := hoff.1
    omega
  · have hsettings : (init p).settings = [] := congrArg settings (bare_init p)
    intro totalCore coreTbl maxCoreTbl hmem
    rw [hsettings] at hmem
    cases hmem

/-- A cluster whose ceiling was never set stays on. -/
theorem not_goesOff (hset : s.nSetCoreMax = false) (hmax : 0 < (s.ptClusterTbl i).cpuMaxNow) :
    ¬ s.GoesOff p k i := by
  rintro ⟨-, -, hlimit⟩
  rw [LimitOff, if_neg fun hc => Bool.false_ne_true (hset.symm.trans hc.1)] at hlimit
  omega

/-- Two clusters of four cores. -/
def twoClusters : Platform where
  nClusterNum := 2
  cpuNum := fun _ => 4
  freqMax := fun _ => 1000
  nCpuNum := 8
  nGpuFreqCount := 3
  conTable := []
  ptXmlActList := []
  cusScnTable := []
  freqMax_nonneg := oneCluster.freqMax_nonneg
  freqMax_le := oneCluster.freqMax_le
  nCpuNum_pos := by decide

/-- The hint 10 is enabled and disabled, with no ceiling set. -/
theorem callsOk_hint :
    (scenarios twoClusters).Along (CallsOk twoClusters) (init twoClusters)
      [.enable 10, .disable 10] := by
  have hcpu : (1 : Int) ≤ 4 := by decide
  have hhint : 10 < twoClusters.nScn := hint_lt_nScn (by decide)
  refine (callsOk_iff twoClusters (by decide) (fun _ _ => hcpu) _).mpr ?_
  refine .cons _ (step_enable _ hhint) trivial ?_
  refine .cons _ (step_disable _ hhint) (fun _ _ _ hoff => ?_) trivial
  have hset : ((init twoClusters).perfScnEnable twoClusters 10).nSetCoreMax = false := by
    decide +kernel
  have hmax : (((init twoClusters).perfScnEnable twoClusters 10).ptClusterTbl 0).cpuMaxNow = 4 := by
    decide +kernel
  exact not_goesOff hset (by rw [hmax]; decide) hoff.1

/-- A scenario with the ceiling 0 for all clusters. -/
def noCores : ScnNode := { zeroNode with scn_core_max := fun _ => 0, scn_valid := 1 }

/-- A call that switches the first two clusters off. -/
def switchesOff : Setting → Bool
  | .clusterCores _ _ maxCoreTbl => maxCoreTbl 0 = 0 ∧ maxCoreTbl 1 = 0
  | _ => false

theorem CallsOk.not_switchesOff (h : s.CallsOk p) : s.settings.any switchesOff = false := by
  rw [List.any_eq_false]
  intro x hmem hx
  cases x with
  | clusterCores totalCore coreTbl maxCoreTbl =>
    exact (h totalCore coreTbl maxCoreTbl hmem).1 (of_decide_eq_true hx)
  | _ => cases hx

/-- A scenario with the ceiling 0 for all clusters stays enabled while another one is disabled:
both clusters are switched off. -/
theorem callsOk_false : ¬ ∀ (p : Platform) (moves : List Move), 2 ≤ p.nClusterNum →
    (∀ i < p.nClusterNum, 1 ≤ p.cpuNum i) → (scenarios p).Along (CallsOk p) (init p) moves := by
  intro h
  have hcpu : (1 : Int) ≤ 4 := by decide
  have hten : 10 < twoClusters.nScn := hint_lt_nScn (by decide)
  have heleven : 11 < twoClusters.nScn := hint_lt_nScn (by decide)
  have hstart := h twoClusters [.configure 10 noCores true, .enable 10, .enable 11, .disable 11]
    (by decide) fun _ _ => hcpu
  have hconfigured := hstart.2 _ (step_configure _ true hten (by decide +kernel) (by decide))
  have hlast := ((hconfigured.2 _ (step_enable _ hten)).2 _ (step_enable _ heleven)).2 _
    (step_disable _ heleven)
  exact absurd hlast.not_switchesOff (by decide +kernel)

end PerfService

end MtkHw.Power
