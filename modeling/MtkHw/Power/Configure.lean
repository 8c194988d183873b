import MtkHw.Power.Aggregate

/-!
# Changes of records

Most of what the service does between enabling and disabling scenarios writes the records of
scenarios that are not enabled: `Quiet` changes keep both invariants.  A command may also write
the record of an enabled scenario, so that `Configured` says which commands write what a scenario
asks for: the floors, the limits, or none of them.
-/

namespace MtkHw.Power

open Lib

namespace PerfService

/-! ## What stays the same -/

/-- What a scenario is, apart from what it asks for. -/
structure SameIdentity (scn' scn : ScnNode) : Prop where
  scn_type : scn'.scn_type = scn.scn_type
  scn_state : scn'.scn_state = scn.scn_state
  scn_valid : scn'.scn_valid = scn.scn_valid
  pack_name : scn'.pack_name = scn.pack_name
  act_name : scn'.act_name = scn.act_name

/-- The floors that a scenario asks for. -/
structure SameFloors (scn' scn : ScnNode) : Prop where
  cores : scn'.scn_core_total = scn.scn_core_total
  gpuFreq : scn'.scn_gpu_freq = scn.scn_gpu_freq
  perfIdx : scn'.scn_perf_idx = scn.scn_perf_idx
  vcore : scn'.scn_vcore = scn.scn_vcore
  cpuMin : scn'.scn_core_min = scn.scn_core_min
  cpuHardMin : scn'.scn_core_hard_min = scn.scn_core_hard_min
  freqMin : scn'.scn_freq_min = scn.scn_freq_min
  param : scn'.scn_param = scn.scn_param

/-- The limits that a scenario asks for. -/
structure SameLimits (scn' scn : ScnNode) : Prop where
  freqMax : scn'.scn_freq_max = scn.scn_freq_max
  gpuFreqMax : scn'.scn_gpu_freq_max = scn.scn_gpu_freq_max
  cpuset : scn'.scn_cpuset = scn.scn_cpuset

/-- The same is granted, and the same scenarios are enabled. -/
structure SameGrants (p : Platform) (s s' : PerfService) : Prop where
  on : ∀ i, s'.On p i ↔ s.On p i
  identity : ∀ i, s.On p i → SameIdentity (s'.ptScnList i) (s.ptScnList i)
  cores : s'.scn_cores_now = s.scn_cores_now
  gpuFreq : s'.scn_gpu_freq_now = s.scn_gpu_freq_now
  perfIdx : s'.scn_perf_idx_now = s.scn_perf_idx_now
  vcore : s'.scn_vcore_now = s.scn_vcore_now
  gpuFreqMax : s'.scn_gpu_freq_max_now = s.scn_gpu_freq_max_now
  cpuset : s'.scn_cpuset_now = s.scn_cpuset_now
  cluster : s'.ptClusterTbl = s.ptClusterTbl
  table : ∀ idx, ∃ v, s'.tConTable idx = { s.tConTable idx with defaultVal := v }

/-- A change that the enabled scenarios do not take part in. -/
structure Quiet (p : Platform) (s s' : PerfService) : Prop extends SameGrants p s s' where
  floors : ∀ i, s.On p i → SameFloors (s'.ptScnList i) (s.ptScnList i)
  limits : ∀ i, s.On p i → SameLimits (s'.ptScnList i) (s.ptScnList i)
  records : ∀ k, s.RecordOk p k → s'.RecordOk p k

variable {p : Platform} {s s' : PerfService} {k : Nat} {value : ScnNode → Int} {default : Int}

theorem SameIdentity.refl (scn : ScnNode) : SameIdentity scn scn := ⟨rfl, rfl, rfl, rfl, rfl⟩

theorem SameFloors.refl (scn : ScnNode) : SameFloors scn scn :=
  ⟨rfl, rfl, rfl, rfl, rfl, rfl, rfl, rfl⟩

theorem SameLimits.refl (scn : ScnNode) : SameLimits scn scn := ⟨rfl, rfl, rfl⟩

/-- The same is asked for. -/
theorem SameGrants.asked (h : SameGrants p s s')
    (hvalue : ∀ i, s.On p i → value (s'.ptScnList i) = value (s.ptScnList i)) :
    s'.asked p value default = s.asked p value default :=
  (requests_congr (fun i => (h.on i).symm) fun i hi => (hvalue i hi).symm).symm

/-- The floors are still right when the enabled scenarios ask for the same ones. -/
theorem FloorInv.congr (h : s.FloorInv p) (hsame : SameGrants p s s')
    (hfloors : ∀ i, s.On p i → SameFloors (s'.ptScnList i) (s.ptScnList i)) : s'.FloorInv p := by
  have hconValid : ∀ idx, s'.conValid idx = s.conValid idx := by
    apply conValid_congr
    · intro idx
      obtain ⟨v, hv⟩ := hsame.table idx
      rw [hv]
    · intro idx
      obtain ⟨v, hv⟩ := hsame.table idx
      rw [hv]
  constructor
  · constructor
    · rw [hsame.asked fun i hi => (hfloors i hi).cores, hsame.cores]
      exact h.cores
    · rw [hsame.asked fun i hi => (hfloors i hi).gpuFreq, hsame.gpuFreq]
      exact h.gpuFreq
    · rw [hsame.asked fun i hi => (hfloors i hi).perfIdx, hsame.perfIdx]
      exact h.perfIdx
    · rw [hsame.asked fun i hi => (hfloors i hi).vcore, hsame.vcore]
      exact h.vcore
    · intro i hi
      rw [hsame.asked fun j hj => congrFun (hfloors j hj).cpuMin i, hsame.cluster]
      exact h.cpuMin i hi
    · intro i hi
      rw [hsame.asked fun j hj => congrFun (hfloors j hj).cpuHardMin i, hsame.cluster]
      exact h.cpuHardMin i hi
    · intro i hi
      rw [hsame.asked fun j hj => congrFun (hfloors j hj).freqMin i, hsame.cluster]
      exact h.freqMin i hi
    · intro idx hvalid
      rw [hconValid] at hvalid
      obtain ⟨v, hv⟩ := hsame.table idx
      rw [BestEntry, hv, hsame.asked fun j hj => congrFun (hfloors j hj).param idx]
      exact h.conTable idx hvalid
  · intro idx hvalid
    rw [hconValid] at hvalid
    obtain ⟨v, hv⟩ := hsame.table idx
    rw [hv]
    exact h.invalid idx hvalid
  · intro i hi
    have hon := (hsame.on i).mp hi
    rw [checkSuccess, (hsame.identity i hon).scn_valid]
    exact h.checked i hon

theorem LimitInv.congr (h : s.LimitInv p) (hsame : SameGrants p s s')
    (hlimits : ∀ i, s.On p i → SameLimits (s'.ptScnList i) (s.ptScnList i)) : s'.LimitInv p := by
  constructor
  · rw [hsame.asked fun i hi => (hlimits i hi).gpuFreqMax, hsame.gpuFreqMax]
    exact h.gpuFreqMax
  · intro i hi
    rw [hsame.asked fun j hj => congrFun (hlimits j hj).freqMax i, hsame.cluster]
    exact h.freqMax i hi
  · obtain ⟨x, hx, hnow⟩ := h.cpuset
    refine ⟨x, fun b => ?_, hsame.cpuset.trans hnow⟩
    rw [hx b]
    refine and_congr_right fun _ => forall_congr' fun i => ?_
    rw [hsame.on i]
    refine forall_congr' fun hi => ?_
    rw [(hlimits i hi).cpuset]

theorem FloorInv.quiet (h : s.FloorInv p) (hquiet : Quiet p s s') : s'.FloorInv p :=
  h.congr hquiet.toSameGrants hquiet.floors

theorem Inv.quiet (h : s.Inv p) (hquiet : Quiet p s s') : s'.Inv p where
  toFloorInv := h.toFloorInv.quiet hquiet
  toLimitInv := h.toLimitInv.congr hquiet.toSameGrants hquiet.limits
  records k hk := hquiet.records k (h.records k hk)

/-- Variables are written that say nothing about what is granted. -/
theorem Quiet.variables (p : Platform) (s : PerfService) {table : Nat → ScnConTable}
    (htable : ∀ idx, ∃ v, table idx = { s.tConTable idx with defaultVal := v })
    (displayType : DisplayType) (powerMode : PowerMode) (benchmark userNotify : Bool)
    (settings : List Setting) :
    Quiet p s { s with
      tConTable := table
      nDisplayType := displayType
      nCurrPowerMode := powerMode
      nCurrBenchmarkMode := benchmark
      nUserNotifyBenchmark := userNotify
      settings := settings } where
  on _ := Iff.rfl
  identity _ _ := .refl _
  cores := rfl
  gpuFreq := rfl
  perfIdx := rfl
  vcore := rfl
  gpuFreqMax := rfl
  cpuset := rfl
  cluster := rfl
  table := htable
  floors _ _ := .refl _
  limits _ _ := .refl _
  records _ h := h

theorem setScn_self (s : PerfService) (k : Nat) (scn : ScnNode) :
    (s.setScn k scn).ptScnList k = scn := if_pos rfl

theorem setScn_other (s : PerfService) {k i : Nat} (scn : ScnNode) (hik : i ≠ k) :
    (s.setScn k scn).ptScnList i = s.ptScnList i := if_neg hik

/-- The record of a scenario that is not enabled is written. -/
theorem setScn_enabled {scn : ScnNode} {i : Nat} (hk : ¬ s.On p k) (hi : s.On p i) :
    (s.setScn k scn).ptScnList i = s.ptScnList i := by
  apply setScn_other
  rintro rfl
  exact hk hi

theorem SameGrants.setScn {scn : ScnNode} (hk : ¬ s.On p k) (hscn : scn.scn_state ≠ .on) :
    SameGrants p s (s.setScn k scn) := by
  constructor
  · intro i
    by_cases hik : i = k
    · subst hik
      refine iff_of_false (fun h => hscn ?_) hk
      rw [← setScn_self s i scn]
      exact of_decide_eq_true h.2
    · rw [On, On, isOn, isOn, setScn_other s scn hik]
  · intro i hi
    rw [setScn_enabled hk hi]
    exact .refl _
  · rfl
  · rfl
  · rfl
  · rfl
  · rfl
  · rfl
  · rfl
  · exact fun _ => ⟨_, rfl⟩

theorem Quiet.setScn {scn : ScnNode} (hk : ¬ s.On p k) (hscn : scn.scn_state ≠ .on)
    (hnode : s.RecordOk p k → NodeOk p s.nSetFreqMax s.nSetGpuFreqMax scn) :
    Quiet p s (s.setScn k scn) := by
  constructor
  · exact .setScn hk hscn
  · intro i hi
    rw [setScn_enabled hk hi]
    exact .refl _
  · intro i hi
    rw [setScn_enabled hk hi]
    exact .refl _
  · intro i hi
    by_cases hik : i = k
    · subst hik
      rw [RecordOk, setScn_self]
      exact hnode hi
    · rw [RecordOk, setScn_other s scn hik]
      exact hi

/-- The record of a scenario is reset. -/
theorem nodeOk_resetNode (p : Platform) (s : PerfService) (scn : ScnNode)
    (nSetFreqMax nSetGpuFreqMax : Bool) :
    NodeOk p nSetFreqMax nSetGpuFreqMax (s.resetNode p scn) where
  freqMin i hi := by
    have hmin : (s.resetNode p scn).scn_freq_min i = -1 := if_pos hi
    have hmax := p.freqMax_nonneg i
    omega
  freqMax _ i hi := by
    have hmax : (s.resetNode p scn).scn_freq_max i = FREQ_MAX := if_pos hi
    rw [hmax]
    exact p.freqMax_le i
  gpuFreqMax _ := le_rfl
  cpuset := le_rfl

theorem Quiet.resetScenario (hk : ¬ s.On p k) : Quiet p s (s.resetScenario p k) :=
  .setScn hk (by rintro ⟨⟩) fun _ => nodeOk_resetNode p s _ _ _

/-! ## Commands -/

/-- The command writes a floor of a scenario. -/
def writesFloor (p : Platform) (s : PerfService) (icmd : Int) (scmd : Option String)
    (param_1 : Int) : Bool :=
  isCmd icmd scmd "CMD_SET_GPU_FREQ_MIN" 6 ∨
    ((isCmd icmd scmd "CMD_SET_CLUSTER_CPU_CORE_MIN" 1 ∨
        isCmd icmd scmd "CMD_SET_CLUSTER_CPU_FREQ_MIN" 3) ∧
      0 ≤ param_1 ∧ param_1 < p.nClusterNum) ∨
    (isCmd icmd scmd "CMD_SET_CPU_PERF_MODE" 5 ∧ param_1 = 1) ∨
    (List.range FIELD_SIZE).any (fun idx =>
      isCmd icmd scmd (s.tConTable idx).cmdName (s.tConTable idx).cmdID ∧
        (s.tConTable idx).minVal ≤ param_1 ∧ param_1 ≤ (s.tConTable idx).maxVal) = true

/-- The command writes a limit of a scenario. -/
def writesLimit (p : Platform) (icmd : Int) (scmd : Option String) (param_1 : Int) : Bool :=
  isCmd icmd scmd "CMD_SET_GPU_FREQ_MAX" 7 ∨
    (isCmd icmd scmd "CMD_SET_CLUSTER_CPU_FREQ_MAX" 4 ∧ 0 ≤ param_1 ∧ param_1 < p.nClusterNum) ∨
    isCmd icmd scmd "CMD_SET_GLOBAL_CPUSET" 33

/-- What `cmdSetting` can do: only the record of the scenario is written, it stays what it was
and in its state, and the floors and limits change only where the command writes them. -/
structure Configured (p : Platform) (s : PerfService) (k : Nat) (floor limit : Bool)
    (s' : PerfService) : Prop where
  frame : s' = { s with
    ptScnList := s'.ptScnList
    nSetCoreMax := s'.nSetCoreMax
    nSetFreqMax := s'.nSetFreqMax
    nSetGpuFreqMax := s'.nSetGpuFreqMax }
  others : ∀ i, i ≠ k → s'.ptScnList i = s.ptScnList i
  identity : SameIdentity (s'.ptScnList k) (s.ptScnList k)
  floors : floor = false → SameFloors (s'.ptScnList k) (s.ptScnList k)
  limits : limit = false → SameLimits (s'.ptScnList k) (s.ptScnList k)
  setFreqMax : s.nSetFreqMax = true → s'.nSetFreqMax = true
  setGpuFreqMax : s.nSetGpuFreqMax = true → s'.nSetGpuFreqMax = true
  record : s.RecordOk p k → s'.RecordOk p k

/-- A record is written, and a limit may be noted as set. -/
theorem Configured.write {floor limit : Bool} {scn : ScnNode} (coreMax freqMax gpuFreqMax : Bool)
    (hidentity : SameIdentity scn (s.ptScnList k))
    (hfloors : floor = false → SameFloors scn (s.ptScnList k))
    (hlimits : limit = false → SameLimits scn (s.ptScnList k))
    (hfreqMax : s.nSetFreqMax = true → freqMax = true)
    (hgpuFreqMax : s.nSetGpuFreqMax = true → gpuFreqMax = true)
    (hrecord : s.RecordOk p k → NodeOk p freqMax gpuFreqMax scn) :
    Configured p s k floor limit { s.setScn k scn with
      nSetCoreMax := coreMax
      nSetFreqMax := freqMax
      nSetGpuFreqMax := gpuFreqMax } := by
  have hself := setScn_self s k scn
  constructor
  · rfl
  · exact fun i hi => setScn_other s scn hi
  · change SameIdentity ((s.setScn k scn).ptScnList k) _
    rwa [hself]
  · change floor = false → SameFloors ((s.setScn k scn).ptScnList k) _
    rwa [hself]
  · change limit = false → SameLimits ((s.setScn k scn).ptScnList k) _
    rwa [hself]
  · exact hfreqMax
  · exact hgpuFreqMax
  · change s.RecordOk p k → NodeOk p freqMax gpuFreqMax ((s.setScn k scn).ptScnList k)
    rwa [hself]

/-- The same where no limit is noted. -/
theorem Configured.setScn {floor limit : Bool} {scn : ScnNode}
    (hidentity : SameIdentity scn (s.ptScnList k))
    (hfloors : floor = false → SameFloors scn (s.ptScnList k))
    (hlimits : limit = false → SameLimits scn (s.ptScnList k))
    (hrecord : s.RecordOk p k → NodeOk p s.nSetFreqMax s.nSetGpuFreqMax scn) :
    Configured p s k floor limit (s.setScn k scn) :=
  .write s.nSetCoreMax s.nSetFreqMax s.nSetGpuFreqMax hidentity hfloors hlimits id id hrecord

/-- The command does nothing. -/
theorem Configured.refl (floor limit : Bool) : Configured p s k floor limit s :=
  ⟨rfl, fun _ _ => rfl, .refl _, fun _ => .refl _, fun _ => .refl _, id, id, id⟩

/-- One branch of `cmdSetting`. -/
theorem Configured.ite {floor limit : Bool} {c : Prop} [Decidable c] {a b : PerfService × Int}
    (ha : c → Configured p s k floor limit a.1) (hb : ¬ c → Configured p s k floor limit b.1) :
    Configured p s k floor limit (if c then a else b).1 :=
  iteInduction (motive := fun r : PerfService × Int => Configured p s k floor limit r.1) ha hb

/-- A record where only fields are written that are neither floors nor limits. -/
theorem Configured.other {floor limit : Bool} {scn : ScnNode}
    (hidentity : SameIdentity scn (s.ptScnList k)) (hfloors : SameFloors scn (s.ptScnList k))
    (hlimits : SameLimits scn (s.ptScnList k)) :
    Configured p s k floor limit (s.setScn k scn) := by
  apply Configured.setScn hidentity (fun _ => hfloors) (fun _ => hlimits)
  intro h
  constructor
  · rw [hfloors.freqMin]
    exact h.freqMin
  · rw [hlimits.freqMax]
    exact h.freqMax
  · rw [hlimits.gpuFreqMax]
    exact h.gpuFreqMax
  · rw [hlimits.cpuset]
    exact h.cpuset

/-- The commands of the control table. -/
theorem conSetting_configured (p : Platform) (s : PerfService) (icmd : Int)
    (scmd : Option String) (k : Nat) (param_1 : Int) :
    Configured p s k (s.writesFloor p icmd scmd param_1) (writesLimit p icmd scmd param_1)
      (s.conSetting icmd scmd k param_1).1 := by
  refine .setScn ⟨rfl, rfl, rfl, rfl, rfl⟩ (fun hfloor => ?_) (fun _ => ⟨rfl, rfl, rfl⟩)
    fun h => ⟨h.freqMin, h.freqMax, h.gpuFreqMax, h.cpuset⟩
  refine ⟨rfl, rfl, rfl, rfl, rfl, rfl, rfl, ?_⟩
  funext idx
  apply if_neg
  rintro ⟨hidx, hfound, hmin, hmax⟩
  have hany : (List.range FIELD_SIZE).any (fun idx =>
      isCmd icmd scmd (s.tConTable idx).cmdName (s.tConTable idx).cmdID ∧
        (s.tConTable idx).minVal ≤ param_1 ∧ param_1 ≤ (s.tConTable idx).maxVal) = true :=
    List.any_eq_true.mpr
      ⟨idx, List.mem_range.mpr hidx, decide_eq_true ⟨hfound, hmin, hmax⟩⟩
  exact of_decide_eq_false hfloor (.inr (.inr (.inr hany)))

theorem cmdSetting_configured (p : Platform) (s : PerfService) (icmd : Int)
    (scmd : Option String) (k : Nat) (param_1 param_2 : Int) :
    Configured p s k (s.writesFloor p icmd scmd param_1) (writesLimit p icmd scmd param_1)
      (s.cmdSetting p icmd scmd k param_1 param_2).1 := by
  unfold cmdSetting
  dsimp only
  refine .ite (fun _ => .refl _ _) fun _ => ?_
  refine .ite (fun hcmd => ?_) fun _ => ?_
  · -- CMD_SET_GPU_FREQ_MIN
    have hwrites : s.writesFloor p icmd scmd param_1 = true := decide_eq_true (.inl hcmd)
    rw [hwrites]
    exact .setScn ⟨rfl, rfl, rfl, rfl, rfl⟩ (by rintro ⟨⟩) (fun _ => ⟨rfl, rfl, rfl⟩)
      fun h => ⟨h.freqMin, h.freqMax, h.gpuFreqMax, h.cpuset⟩
  refine .ite (fun hcmd => ?_) fun _ => ?_
  · -- CMD_SET_GPU_FREQ_MAX
    have hwrites : writesLimit p icmd scmd param_1 = true := decide_eq_true (.inl hcmd)
    rw [hwrites]
    exact .write _ _ _ ⟨rfl, rfl, rfl, rfl, rfl⟩ (fun _ => ⟨rfl, rfl, rfl, rfl, rfl, rfl, rfl, rfl⟩)
      (by rintro ⟨⟩) id (fun _ => rfl) fun h => ⟨h.freqMin, h.freqMax, by rintro ⟨⟩, h.cpuset⟩
  refine .ite (fun hcmd => .ite (fun _ => .refl _ _) fun hrange => ?_) fun _ => ?_
  · -- CMD_SET_CLUSTER_CPU_CORE_MIN
    have hwrites : s.writesFloor p icmd scmd param_1 = true :=
      decide_eq_true (.inr (.inl ⟨.inl hcmd, by omega, by omega⟩))
    rw [hwrites]
    exact .setScn ⟨rfl, rfl, rfl, rfl, rfl⟩ (by rintro ⟨⟩) (fun _ => ⟨rfl, rfl, rfl⟩)
      fun h => ⟨h.freqMin, h.freqMax, h.gpuFreqMax, h.cpuset⟩
  refine .ite (fun _ => .ite (fun _ => .refl _ _) fun _ => ?_) fun _ => ?_
  · -- CMD_SET_CLUSTER_CPU_CORE_MAX
    exact .write _ _ _ ⟨rfl, rfl, rfl, rfl, rfl⟩ (fun _ => ⟨rfl, rfl, rfl, rfl, rfl, rfl, rfl, rfl⟩)
      (fun _ => ⟨rfl, rfl, rfl⟩) id id fun h => ⟨h.freqMin, h.freqMax, h.gpuFreqMax, h.cpuset⟩
  refine .ite (fun hcmd => .ite (fun _ => .refl _ _) fun hrange => ?_) fun _ => ?_
  · -- CMD_SET_CLUSTER_CPU_FREQ_MIN
    have hwrites : s.writesFloor p icmd scmd param_1 = true :=
      decide_eq_true (.inr (.inl ⟨.inr hcmd, by omega, by omega⟩))
    rw [hwrites]
    refine .setScn ⟨rfl, rfl, rfl, rfl, rfl⟩ (by rintro ⟨⟩) (fun _ => ⟨rfl, rfl, rfl⟩)
      fun h => ⟨fun i hi => ?_, h.freqMax, h.gpuFreqMax, h.cpuset⟩
    have hmin := h.freqMin i hi
    simp only [PerfService.write]
    split
    · subst i
      split
      · exact le_rfl
      · omega
    · exact hmin
  refine .ite (fun hcmd => .ite (fun _ => .refl _ _) fun hrange => ?_) fun _ => ?_
  · -- CMD_SET_CLUSTER_CPU_FREQ_MAX
    have hwrites : writesLimit p icmd scmd param_1 = true :=
      decide_eq_true (.inr (.inl ⟨hcmd, by omega, by omega⟩))
    rw [hwrites]
    exact .write _ _ _ ⟨rfl, rfl, rfl, rfl, rfl⟩ (fun _ => ⟨rfl, rfl, rfl, rfl, rfl, rfl, rfl, rfl⟩)
      (by rintro ⟨⟩) (fun _ => rfl) id fun h => ⟨h.freqMin, by rintro ⟨⟩, h.gpuFreqMax, h.cpuset⟩
  refine .ite (fun hcmd => .ite (fun _ => .refl _ _) fun hone => ?_) fun _ => ?_
  · -- CMD_SET_CPU_PERF_MODE
    have hwrites : s.writesFloor p icmd scmd param_1 = true :=
      decide_eq_true (.inr (.inr (.inl ⟨hcmd, not_not.mp hone⟩)))
    rw [hwrites]
    refine .setScn ⟨rfl, rfl, rfl, rfl, rfl⟩ (by rintro ⟨⟩) (fun _ => ⟨rfl, rfl, rfl⟩)
      fun h => ⟨fun i hi => ?_, h.freqMax, h.gpuFreqMax, h.cpuset⟩
    exact (if_pos hi).le
  refine .ite (fun _ => .other ⟨rfl, rfl, rfl, rfl, rfl⟩ ⟨rfl, rfl, rfl, rfl, rfl, rfl, rfl, rfl⟩
    ⟨rfl, rfl, rfl⟩) fun _ => ?_
  refine .ite (fun hcmd => ?_) fun _ => ?_
  · -- CMD_SET_GLOBAL_CPUSET
    have hwrites : writesLimit p icmd scmd param_1 = true := decide_eq_true (.inr (.inr hcmd))
    rw [hwrites]
    refine .setScn ⟨rfl, rfl, rfl, rfl, rfl⟩ (fun _ => ⟨rfl, rfl, rfl, rfl, rfl, rfl, rfl, rfl⟩)
      (by rintro ⟨⟩) fun h => ⟨h.freqMin, h.freqMax, h.gpuFreqMax, ?_⟩
    dsimp only
    split
    · assumption
    · exact le_rfl
  refine .ite (fun _ => .refl _ _) fun _ => ?_
  -- The commands of the display and of the frame rate, and those that are only noted.
  refine .ite (fun _ => .other ⟨rfl, rfl, rfl, rfl, rfl⟩ ⟨rfl, rfl, rfl, rfl, rfl, rfl, rfl, rfl⟩
    ⟨rfl, rfl, rfl⟩) fun _ => ?_
  refine .ite (fun _ => .other ⟨rfl, rfl, rfl, rfl, rfl⟩ ⟨rfl, rfl, rfl, rfl, rfl, rfl, rfl, rfl⟩
    ⟨rfl, rfl, rfl⟩) fun _ => ?_
  refine .ite (fun _ => .other ⟨rfl, rfl, rfl, rfl, rfl⟩ ⟨rfl, rfl, rfl, rfl, rfl, rfl, rfl, rfl⟩
    ⟨rfl, rfl, rfl⟩) fun _ => ?_
  refine .ite (fun _ => .other ⟨rfl, rfl, rfl, rfl, rfl⟩ ⟨rfl, rfl, rfl, rfl, rfl, rfl, rfl, rfl⟩
    ⟨rfl, rfl, rfl⟩) fun _ => ?_
  refine .ite (fun _ => .other ⟨rfl, rfl, rfl, rfl, rfl⟩ ⟨rfl, rfl, rfl, rfl, rfl, rfl, rfl, rfl⟩
    ⟨rfl, rfl, rfl⟩) fun _ => ?_
  refine .ite (fun _ => .refl _ _) fun _ => ?_
  refine .ite (fun _ => .other ⟨rfl, rfl, rfl, rfl, rfl⟩ ⟨rfl, rfl, rfl, rfl, rfl, rfl, rfl, rfl⟩
    ⟨rfl, rfl, rfl⟩) fun _ => ?_
  exact conSetting_configured p s icmd scmd k param_1

/-- A command grants nothing, and enables nothing. -/
theorem Configured.sameGrants {floor limit : Bool} (h : Configured p s k floor limit s') :
    SameGrants p s s' := by
  have hidentity : ∀ i, SameIdentity (s'.ptScnList i) (s.ptScnList i) := by
    intro i
    by_cases hik : i = k
    · subst hik
      exact h.identity
    · rw [h.others i hik]
      exact .refl _
  constructor
  · intro i
    rw [On, On, isOn, isOn, (hidentity i).scn_state]
  · exact fun i _ => hidentity i
  · rw [h.frame]
  · rw [h.frame]
  · rw [h.frame]
  · rw [h.frame]
  · rw [h.frame]
  · rw [h.frame]
  · rw [h.frame]
  · intro idx
    rw [h.frame]
    exact ⟨_, rfl⟩

/-- The records after a command. -/
theorem Configured.records {floor limit : Bool} (h : Configured p s k floor limit s') {i : Nat}
    (hi : s.RecordOk p i) : s'.RecordOk p i := by
  by_cases hik : i = k
  · subst hik
    exact h.record hi
  · rw [RecordOk, h.others i hik]
    constructor
    · exact hi.freqMin
    · intro hset
      apply hi.freqMax
      rw [← Bool.not_eq_true] at hset ⊢
      exact fun hs => hset (h.setFreqMax hs)
    · intro hset
      apply hi.gpuFreqMax
      rw [← Bool.not_eq_true] at hset ⊢
      exact fun hs => hset (h.setGpuFreqMax hs)
    · exact hi.cpuset

/-- A command that writes a floor only where the scenario is not enabled. -/
theorem FloorInv.configured {floor limit : Bool} (h : s.FloorInv p)
    (hcmd : Configured p s k floor limit s') (hfloor : floor = true → ¬ s.On p k) :
    s'.FloorInv p := by
  apply h.congr hcmd.sameGrants
  intro i hi
  by_cases hik : i = k
  · subst hik
    exact hcmd.floors (Bool.not_eq_true _ ▸ fun hf => hfloor hf hi)
  · rw [hcmd.others i hik]
    exact .refl _

/-- A command that writes floors and limits only where the scenario is not enabled. -/
theorem Inv.configured {floor limit : Bool} (h : s.Inv p)
    (hcmd : Configured p s k floor limit s')
    (hwrites : floor = true ∨ limit = true → ¬ s.On p k) : s'.Inv p where
  toFloorInv := h.toFloorInv.configured hcmd fun hfloor => hwrites (.inl hfloor)
  toLimitInv := by
    apply h.toLimitInv.congr hcmd.sameGrants
    intro i hi
    by_cases hik : i = k
    · subst hik
      exact hcmd.limits (Bool.not_eq_true _ ▸ fun hl => hwrites (.inr hl) hi)
    · rw [hcmd.others i hik]
      exact .refl _
  records i hi := hcmd.records (h.records i hi)

end PerfService

end MtkHw.Power
