import MtkHw.Power.Defs

/-!
# Enabling and disabling scenarios

`perfScnEnable` compares what a scenario asks for with what is granted, one resource at a time.
`perfScnDisable` looks at all enabled scenarios again, but only for the resources for which the
scenario may have been the one that decided.

Each resource has its own variable, and its new value depends only on this variable and on the
scenarios, so that the functions are written as one update of the state.  The loops over the
clusters and over the control table are updates at each index.
-/

namespace MtkHw.Power

open Lib

/-- A value that is granted becomes the greater one. -/
def raised (now value : Int) : Int := if now < value then value else now

/-- A value that is granted becomes the smaller one. -/
def lowered (now value : Int) : Int := if value < now then value else now

/-- A setting that is passed on under a condition. -/
def passOn (cond : Bool) (setting : Setting) : List Setting := if cond then [setting] else []

namespace PerfService

variable (p : Platform) (s : PerfService)

/-- `checkSuccess`. -/
def checkSuccess (scenario : Nat) : Bool :=
  ((scenario < MTK_POWER_HINT_NUM ∨ scenario ≥ MTK_POWER_HINT_NUM + REG_SCN_MAX) ∧
      scenario > 0 ∧ (s.ptScnList scenario).scn_valid ≠ 0) ∨
    (scenario ≥ nUserScnBase ∧ scenario < nUserScnBase + REG_SCN_MAX)

/-- The scenario is `STATE_ON`. -/
def isOn (i : Nat) : Bool := (s.ptScnList i).scn_state = .on

/-- A loop over the first `num` scenarios: the values of those that are `STATE_ON`. -/
def scanOn (op : Int → Int → Int) (value : ScnNode → Int) (init : Int) (num : Nat) : Int :=
  scanRequests op s.isOn (fun i => value (s.ptScnList i)) init (List.range num)

/-- The number of entries that the loops over the control table reach. -/
def conTableLen : Nat := (List.range FIELD_SIZE).findIdx fun idx => (s.tConTable idx).entry = ""

/-- The entry is reached and can be written. -/
def conValid (idx : Nat) : Bool := idx < s.conTableLen ∧ (s.tConTable idx).isValid ≠ -1

/-! ## Cores -/

/-- `actual_core_min`, for the first `n` clusters: the loop goes down, and distributes the cores
that are left. -/
def actualCoreMin (tbl : Nat → ClusterInfo) : Nat → Int → Nat → Int
  | 0, _ => fun _ => 0
  | n + 1, totalCore =>
      let coreToSet :=
        if (tbl n).cpuMinNow ≤ 0 ∨ (tbl n).cpuMinNow > p.cpuNum n ∨ totalCore ≤ 0 then PPM_IGNORE
        else if (tbl n).cpuMinNow > totalCore then totalCore else (tbl n).cpuMinNow
      let rest := actualCoreMin tbl n (if coreToSet ≥ 0 then totalCore - coreToSet else totalCore)
      write rest n (max coreToSet (tbl n).cpuHardMinNow)

/-- The clusters of a table, each changed on its own. -/
def forClusters (tbl : Nat → ClusterInfo) (f : Nat → ClusterInfo → ClusterInfo) :
    Nat → ClusterInfo :=
  fun i => if i < p.nClusterNum then f i (tbl i) else tbl i

/-- A condition on one of the clusters. -/
def anyCluster (cond : Nat → Bool) : Bool := (List.range p.nClusterNum).any cond

/-- The end of "fine tune max": the maximum is not below the minimum. -/
def fineTune (actual_core_min : Nat → Int) (i : Nat) (c : ClusterInfo) : ClusterInfo :=
  { c with cpuMaxNow := if c.cpuMaxNow < actual_core_min i then actual_core_min i else c.cpuMaxNow }

/-- Only one of the first two clusters can have the maximum 0. -/
def bothOff (tbl : Nat → ClusterInfo) : Bool :=
  p.nClusterNum > 1 ∧ (tbl 1).cpuMaxNow = 0 ∧ (tbl 0).cpuMaxNow = 0

/-- The first cluster is not limited, where both would be off. -/
def fixLittle (tbl : Nat → ClusterInfo) : Nat → ClusterInfo :=
  if bothOff p tbl then
    fun i => if i = 0 then { tbl 0 with cpuMaxNow := PPM_IGNORE } else tbl i
  else tbl

/-! ## Enabling -/

/-- The scenario limits the cores of a cluster. -/
def limitsCores (scn : ScnNode) (i : Nat) (c : ClusterInfo) : Bool :=
  s.nSetCoreMax ∧ (c.cpuMaxNow > scn.scn_core_max i ∨ c.cpuMaxNow = PPM_IGNORE)

/-- The frequency limit of a cluster, before it is aligned with the minimum. -/
def limitedFreq (scn : ScnNode) (i : Nat) (c : ClusterInfo) : Int :=
  if s.nSetFreqMax ∧ c.freqMaxNow > scn.scn_freq_max i then scn.scn_freq_max i else c.freqMaxNow

/-- The loop over the clusters of `perfScnEnable`. -/
def enableCluster (scn : ScnNode) (i : Nat) (c : ClusterInfo) : ClusterInfo :=
  let freqMinNow := raised c.freqMinNow (scn.scn_freq_min i)
  { cpuMinNow := raised c.cpuMinNow (scn.scn_core_min i)
    cpuMaxNow := if s.limitsCores scn i c then scn.scn_core_max i else c.cpuMaxNow
    cpuHardMinNow := raised c.cpuHardMinNow (scn.scn_core_hard_min i)
    freqMinNow := freqMinNow
    freqMaxNow :=
      if s.limitedFreq scn i c < freqMinNow then freqMinNow else s.limitedFreq scn i c }

/-- A CPU set is written: at least one CPU is left in it. -/
def nonemptyCpuset (cpusetToSet : Int) : Int := if cpusetToSet = 0 then 1 else cpusetToSet

/-- `perfScnEnable` writes the CPU set. -/
def narrowsCpuset (scn : ScnNode) : Bool :=
  scn.scn_cpuset < p.nCpuSet ∧ s.scn_cpuset_now.land scn.scn_cpuset ≠ s.scn_cpuset_now

/-- The CPU set of `perfScnEnable`. -/
def enableCpuset (scn : ScnNode) : Int :=
  if s.narrowsCpuset p scn then nonemptyCpuset (s.scn_cpuset_now.land scn.scn_cpuset)
  else s.scn_cpuset_now

/-- The scenario's value is better than the one of the entry. -/
def betterEntry (scn : ScnNode) (idx : Nat) : Bool :=
  s.conValid idx ∧
    if (s.tConTable idx).comp = LESS then scn.scn_param idx < (s.tConTable idx).curVal
    else scn.scn_param idx > (s.tConTable idx).curVal

/-- The loop over the control table of `perfScnEnable`. -/
def enableTable (scn : ScnNode) (idx : Nat) : ScnConTable :=
  if s.betterEntry scn idx then { s.tConTable idx with curVal := scn.scn_param idx }
  else s.tConTable idx

/-- The clusters, before the maxima are tuned. -/
def enableClusters (scn : ScnNode) : Nat → ClusterInfo :=
  forClusters p s.ptClusterTbl (s.enableCluster scn)

/-- What `perfScnEnable` passes on; `tuned` are the clusters after the maxima are tuned. -/
def enableSettings (scn : ScnNode) (scn_cores_now : Int) (actual_core_min : Nat → Int)
    (tuned : Nat → ClusterInfo) : List Setting :=
  let tbl := s.ptClusterTbl
  let raisedTbl := s.enableClusters p scn
  let final := fixLittle p tuned
  let needUpdateCores := s.scn_cores_now < scn.scn_core_total ∨
    anyCluster p (fun i => (tbl i).cpuMinNow < scn.scn_core_min i ∨
      (tbl i).cpuHardMinNow < scn.scn_core_hard_min i) = true
  let needUpdateCoresMax := anyCluster p (fun i => s.limitsCores scn i (tbl i) ∨
      (raisedTbl i).cpuMaxNow < actual_core_min i) = true ∨ bothOff p tuned = true
  let needUpdateFreq := anyCluster p fun i => (tbl i).freqMinNow < scn.scn_freq_min i ∨
    (s.nSetFreqMax ∧ (tbl i).freqMaxNow > scn.scn_freq_max i) ∨
    s.limitedFreq scn i (tbl i) < (raisedTbl i).freqMinNow
  passOn (scn.scn_perf_idx > s.scn_perf_idx_now) (.perfIdx scn.scn_perf_idx) ++
  passOn (s.scn_vcore_now < scn.scn_vcore) (.vcore scn.scn_vcore) ++
  passOn (s.scn_gpu_freq_now < scn.scn_gpu_freq) (.gpuFreq scn.scn_gpu_freq) ++
  passOn (s.nSetGpuFreqMax ∧ s.scn_gpu_freq_max_now > scn.scn_gpu_freq_max)
    (.gpuFreqMax scn.scn_gpu_freq_max) ++
  passOn needUpdateFreq
    (.clusterFreq (fun i => (raisedTbl i).freqMinNow) (fun i => (raisedTbl i).freqMaxNow)) ++
  passOn (needUpdateCoresMax ∨ needUpdateCores)
    (.clusterCores scn_cores_now actual_core_min fun i => (final i).cpuMaxNow) ++
  passOn (s.scn_wiphy_cam_now < scn.scn_wiphy_cam) (.wiphyCAM scn.scn_wiphy_cam) ++
  passOn (s.narrowsCpuset p scn) (.cpuset (s.enableCpuset p scn)) ++
  passOn (scn.dfps_mode ≠ 0 ∧ scn.dfps ≠ -1) (.fps scn.dfps scn.dfps_mode) ++
  passOn (scn.disp_mode ≠ 0) (.disp scn.disp_mode) ++
  passOn (scn.scn_fstb_fps_high ≠ -1 ∧ scn.scn_fstb_fps_low ≠ -1)
    (.fstbFps scn.scn_fstb_fps_high scn.scn_fstb_fps_low) ++
  passOn (scn.video_mode ≠ 0) (.video true) ++
  (List.range FIELD_SIZE).flatMap fun idx =>
    passOn (s.betterEntry scn idx) (.conEntry idx (scn.scn_param idx))

/-- `perfScnEnable`, where the scenario is not `STATE_ON`. -/
def enable (scenario : Nat) : PerfService :=
  let scn := s.ptScnList scenario
  let scn_cores_now := raised s.scn_cores_now scn.scn_core_total
  let tbl := s.enableClusters p scn
  let actual_core_min := actualCoreMin p tbl p.nClusterNum scn_cores_now
  let tuned := forClusters p tbl (fineTune actual_core_min)
  { s.setState scenario .on with
    scn_cores_now := scn_cores_now
    ptClusterTbl := fixLittle p tuned
    scn_perf_idx_now := raised s.scn_perf_idx_now scn.scn_perf_idx
    scn_vcore_now := raised s.scn_vcore_now scn.scn_vcore
    scn_wiphy_cam_now := raised s.scn_wiphy_cam_now scn.scn_wiphy_cam
    scn_gpu_freq_now := raised s.scn_gpu_freq_now scn.scn_gpu_freq
    scn_gpu_freq_max_now :=
      if s.nSetGpuFreqMax then lowered s.scn_gpu_freq_max_now scn.scn_gpu_freq_max
      else s.scn_gpu_freq_max_now
    scn_cpuset_now := s.enableCpuset p scn
    tConTable := s.enableTable scn
    settings := s.settings ++ s.enableSettings p scn scn_cores_now actual_core_min tuned }

/-- `perfScnEnable`. -/
def perfScnEnable (scenario : Nat) : PerfService :=
  if s.checkSuccess scenario then
    if s.isOn scenario then s else s.enable p scenario
  else s

/-! ## Disabling

In the functions of this section the scenario is no longer `STATE_ON` in `s`. -/

/-- The maximum over the enabled scenarios, where the scenario's value is what is granted. -/
def recomputed (now : Int) (scn : ScnNode) (value : ScnNode → Int) : Int :=
  if now ≤ value scn then s.scanOn max value 0 p.nScn else now

/-- The same for a value that is looked at only if it is positive. -/
def recomputedPos (now : Int) (scn : ScnNode) (value : ScnNode → Int) : Int :=
  if value scn > 0 ∧ value scn ≥ now then s.scanOn max value 0 p.nScn else now

/-- The frequency limit of a cluster after the scenario; `freqToSet` is the minimum. -/
def disableFreqMax (scn : ScnNode) (i : Nat) (c : ClusterInfo) (freqToSet : Int) : Int :=
  if s.nSetFreqMax ∧ (c.freqMaxNow ≥ scn.scn_freq_max i ∨ c.freqMaxNow = c.freqMinNow) then
    let maxFreqToSet := s.scanOn min (fun scn => scn.scn_freq_max i) FREQ_MAX p.nScn
    if maxFreqToSet < freqToSet then freqToSet else maxFreqToSet
  else c.freqMaxNow

/-- The loops over the clusters of `perfScnDisable`. -/
def disableCluster (scn : ScnNode) (i : Nat) (c : ClusterInfo) : ClusterInfo :=
  let freqMinNow := s.recomputed p c.freqMinNow scn fun scn => scn.scn_freq_min i
  { cpuMinNow := s.recomputed p c.cpuMinNow scn fun scn => scn.scn_core_min i
    cpuMaxNow :=
      if s.nSetCoreMax ∧ (c.cpuMaxNow ≥ scn.scn_core_max i ∨ c.cpuMaxNow = c.cpuMinNow) then
        s.scanOn min (fun scn => scn.scn_core_max i) CORE_MAX p.nScn
      else c.cpuMaxNow
    cpuHardMinNow := s.recomputed p c.cpuHardMinNow scn fun scn => scn.scn_core_hard_min i
    freqMinNow := freqMinNow
    freqMaxNow := s.disableFreqMax p scn i c freqMinNow }

/-- The loop over the enabled scenarios for the CPU set. -/
def cpusetOn : Int := s.scanOn Int.land (fun scn => scn.scn_cpuset) p.nCpuSet p.nScn

/-- `perfScnDisable` writes the CPU set. -/
def widensCpuset (scn : ScnNode) : Bool :=
  scn.scn_cpuset < p.nCpuSet ∧ s.cpusetOn p ≠ s.scn_cpuset_now

/-- The CPU set of `perfScnDisable`. -/
def disableCpuset (scn : ScnNode) : Int :=
  if s.widensCpuset p scn then nonemptyCpuset (s.cpusetOn p) else s.scn_cpuset_now

/-- The scenario's value may be the one of the entry. -/
def decidesEntry (scn : ScnNode) (idx : Nat) : Bool :=
  let e := s.tConTable idx
  s.conValid idx ∧
    if e.comp = LESS then scn.scn_param idx < e.resetVal ∧ scn.scn_param idx ≤ e.curVal
    else scn.scn_param idx > e.resetVal ∧ scn.scn_param idx ≥ e.curVal

/-- The best value of the enabled scenarios for an entry. -/
def bestParam (idx : Nat) : Int :=
  s.scanOn (if (s.tConTable idx).comp = LESS then min else max) (fun scn => scn.scn_param idx)
    (s.tConTable idx).resetVal p.nScn

/-- The loop over the control table of `perfScnDisable`. -/
def disableTable (scn : ScnNode) (idx : Nat) : ScnConTable :=
  if s.decidesEntry scn idx then { s.tConTable idx with curVal := s.bestParam p idx }
  else s.tConTable idx

/-- What `perfScnDisable` passes on; `tbl` are the clusters before the maxima are tuned, and
`tuned` are those after. -/
def disableSettings (scn : ScnNode) (scn_cores_now : Int) (actual_core_min : Nat → Int)
    (tbl tuned : Nat → ClusterInfo) : List Setting :=
  let old := s.ptClusterTbl
  let needUpdateCores := scn_cores_now ≠ s.scn_cores_now ∨
    anyCluster p (fun i => (tbl i).cpuMinNow ≠ (old i).cpuMinNow ∨
      (tbl i).cpuHardMinNow ≠ (old i).cpuHardMinNow) = true
  let needUpdateCoresMax := anyCluster p fun i => (tbl i).cpuMaxNow ≠ (old i).cpuMaxNow ∨
    (tbl i).cpuMaxNow < actual_core_min i
  let needUpdate := anyCluster p fun i => (tbl i).freqMinNow ≠ (old i).freqMinNow ∨
    (tbl i).freqMaxNow ≠ (old i).freqMaxNow
  let perfIdxToSet := s.recomputedPos p s.scn_perf_idx_now scn ScnNode.scn_perf_idx
  let VcoreToSet := s.recomputedPos p s.scn_vcore_now scn ScnNode.scn_vcore
  let cpusetToSet := s.disableCpuset p scn
  let wiphyCAMToSet := s.scanOn max ScnNode.scn_wiphy_cam 0 (nUserScnBase + REG_SCN_MAX)
  let gpuFreqMaxToSet := s.scanOn min ScnNode.scn_gpu_freq_max p.nGpuHighestFreqLevel p.nScn
  passOn (needUpdateCoresMax ∨ needUpdateCores)
    (.clusterCores scn_cores_now actual_core_min fun i => (tuned i).cpuMaxNow) ++
  passOn needUpdate
    (.clusterFreq (fun i => (tbl i).freqMinNow) (fun i => (tbl i).freqMaxNow)) ++
  passOn (perfIdxToSet ≠ s.scn_perf_idx_now) (.perfIdx perfIdxToSet) ++
  passOn (VcoreToSet ≠ s.scn_vcore_now) (.vcore VcoreToSet) ++
  passOn (s.scn_wiphy_cam_now ≥ scn.scn_wiphy_cam ∧ s.scn_wiphy_cam_now ≠ wiphyCAMToSet)
    (.wiphyCAM wiphyCAMToSet) ++
  passOn (scn.dfps_mode ≠ 0 ∧ scn.dfps ≠ -1) (.fps (-1) 0) ++
  passOn (scn.disp_mode ≠ 0) (.disp 0) ++
  passOn (scn.video_mode ≠ 0) (.video false) ++
  passOn (s.widensCpuset p scn)
    (if cpusetToSet = p.nCpuSet then .cpusetOff else .cpuset cpusetToSet) ++
  passOn (s.scn_gpu_freq_now ≤ scn.scn_gpu_freq)
    (.gpuFreq (s.scanOn max ScnNode.scn_gpu_freq 0 p.nScn)) ++
  passOn (s.nSetGpuFreqMax ∧ s.scn_gpu_freq_max_now ≥ scn.scn_gpu_freq_max)
    (.gpuFreqMax gpuFreqMaxToSet) ++
  passOn (scn.scn_fstb_fps_high ≠ -1 ∧ scn.scn_fstb_fps_low ≠ -1) (.fstbFps (-1) (-1)) ++
  (List.range FIELD_SIZE).flatMap fun idx =>
    passOn (s.decidesEntry scn idx) (.conEntry idx
      (if s.bestParam p idx = (s.tConTable idx).resetVal then (s.tConTable idx).defaultVal
        else s.bestParam p idx))

/-- `perfScnDisable` after the scenario is `STATE_OFF`. -/
def withdraw (scn : ScnNode) : PerfService :=
  let scn_cores_now := s.recomputed p s.scn_cores_now scn ScnNode.scn_core_total
  let tbl := forClusters p s.ptClusterTbl (s.disableCluster p scn)
  let actual_core_min := actualCoreMin p tbl p.nClusterNum scn_cores_now
  let tuned := forClusters p tbl (fineTune actual_core_min)
  { s with
    scn_cores_now := scn_cores_now
    ptClusterTbl := tuned
    scn_perf_idx_now := s.recomputedPos p s.scn_perf_idx_now scn ScnNode.scn_perf_idx
    scn_vcore_now := s.recomputedPos p s.scn_vcore_now scn ScnNode.scn_vcore
    -- The packages of the white list are not looked at.
    scn_wiphy_cam_now :=
      if s.scn_wiphy_cam_now ≥ scn.scn_wiphy_cam then
        s.scanOn max ScnNode.scn_wiphy_cam 0 (nUserScnBase + REG_SCN_MAX)
      else s.scn_wiphy_cam_now
    scn_cpuset_now := s.disableCpuset p scn
    scn_gpu_freq_now := s.recomputed p s.scn_gpu_freq_now scn ScnNode.scn_gpu_freq
    scn_gpu_freq_max_now :=
      if s.nSetGpuFreqMax ∧ s.scn_gpu_freq_max_now ≥ scn.scn_gpu_freq_max then
        s.scanOn min ScnNode.scn_gpu_freq_max p.nGpuHighestFreqLevel p.nScn
      else s.scn_gpu_freq_max_now
    tConTable := s.disableTable p scn
    settings := s.settings ++ s.disableSettings p scn scn_cores_now actual_core_min tbl tuned }

/-- `perfScnDisable`. -/
def perfScnDisable (scenario : Nat) : PerfService :=
  if s.checkSuccess scenario then
    if (s.ptScnList scenario).scn_state = .off then s
    else (s.setState scenario .off).withdraw p (s.ptScnList scenario)
  else s

end PerfService

end MtkHw.Power
