import MtkHw.Lib.Machine
import MtkHw.Power.Scenario

/-!
# The calls of the power service

The functions that are exported, `init`, and the service as a machine whose steps are the calls.

Handles are those of the caller, which may be any numbers.  What the environment decides is an
argument of a call: which processes exist, and whether a package is in the list of benchmarks.
-/

namespace MtkHw.Power

open Lib

/-- Why the sports mode is switched. -/
inductive SportsReason where
  | /-- `SPORTS_BENCHMARK`. -/ benchmark
  | /-- `SPORTS_USER_NOTIFY`. -/ userNotify

/-- The handle is one of a user. -/
def isUserHandle (handle : Int) : Bool :=
  handle ≥ nUserScnBase ∧ handle < nUserScnBase + REG_SCN_MAX

/-- The handles of users. -/
def userHandles : List Nat := List.range' nUserScnBase REG_SCN_MAX

namespace PerfService

variable (p : Platform) (s : PerfService)

/-! ## Power modes -/

/-- The default of an entry of the control table depends on the mode. -/
def switchesEntry (idx : Nat) : Bool :=
  idx < FIELD_SIZE ∧ (s.tConTable idx).cmdName ≠ "" ∧ (s.tConTable idx).isValid ≠ -1 ∧
    (s.tConTable idx).sportVal ≠ -1

/-- `switchNormalAndSportMode`. -/
def switchNormalAndSportMode (mode : PowerMode) : PerfService :=
  let defaultVal idx :=
    match mode with
    | .sports => (s.tConTable idx).sportVal
    | .normal => (s.tConTable idx).normalVal
  { s with
    tConTable := fun idx =>
      if s.switchesEntry idx then { s.tConTable idx with defaultVal := defaultVal idx }
      else s.tConTable idx
    settings := s.settings ++ (List.range FIELD_SIZE).flatMap fun idx =>
      passOn (s.switchesEntry idx ∧ (s.tConTable idx).curVal = (s.tConTable idx).resetVal)
        (.conEntry idx (defaultVal idx)) }

/-- Why the sports mode is on is noted. -/
def noteSports (reason : SportsReason) (bEnable : Bool) : PerfService :=
  match reason with
  | .benchmark => { s with nCurrBenchmarkMode := bEnable }
  | .userNotify => { s with nUserNotifyBenchmark := bEnable }

/-- `switchSportsMode`. -/
def switchSportsMode (reason : SportsReason) (bEnable : Bool) : PerfService :=
  let s := s.noteSports reason bEnable
  let newPowerMode : PowerMode :=
    if s.nCurrBenchmarkMode ∨ s.nUserNotifyBenchmark then .sports else .normal
  if s.nCurrPowerMode = newPowerMode then s
  else
    let s := { s with nCurrPowerMode := newPowerMode }
    match newPowerMode with
    | .sports => (s.switchNormalAndSportMode .sports).perfScnEnable p MTK_POWER_HINT_SPORTS
    | .normal => (s.switchNormalAndSportMode .normal).perfScnDisable p MTK_POWER_HINT_SPORTS

/-- `gameNotifyDisplayType`. -/
def gameNotifyDisplayType (type : DisplayType) : PerfService :=
  match type with
  | .game =>
      (s.perfScnDisable p MTK_POWER_HINT_APP_TOUCH).perfScnEnable p MTK_POWER_HINT_GAMING
  | .noTouchBoost =>
      (s.perfScnDisable p MTK_POWER_HINT_APP_TOUCH).perfScnDisable p MTK_POWER_HINT_GAMING
  | .others => s.perfScnDisable p MTK_POWER_HINT_GAMING

/-! ## Power hints -/

/-- `perfBoostEnable`.  A negative hint is not one (`checkSuccess`). -/
def perfBoostEnable (scenario : Int) : PerfService :=
  if scenario = MTK_POWER_HINT_APP_TOUCH ∧ s.nDisplayType = .game then s
  else
    let s := if scenario < MTK_POWER_HINT_NUM then s.perfScnEnable p scenario.toNat else s
    if scenario = MTK_POWER_HINT_GAMING then
      gameNotifyDisplayType p
        { s.perfScnDisable p MTK_POWER_HINT_APP_TOUCH with nDisplayType := .game } .game
    else if scenario = MTK_POWER_HINT_SPORTS then s.switchSportsMode p .userNotify true
    else s

/-- `perfBoostDisable`. -/
def perfBoostDisable (scenario : Int) : PerfService :=
  let s := if scenario < MTK_POWER_HINT_NUM then s.perfScnDisable p scenario.toNat else s
  if scenario = MTK_POWER_HINT_GAMING then
    gameNotifyDisplayType p { s with nDisplayType := .others } .others
  else if scenario = MTK_POWER_HINT_SPORTS then s.switchSportsMode p .userNotify false
  else s

/-! ## Handles of users -/

/-- The handle that is registered next. -/
def freeHandle : Option Nat := userHandles.find? fun i => (s.ptScnList i).scn_type = -1

/-- `perfCusUserRegScn`. -/
def perfCusUserRegScn : PerfService × Int :=
  match s.freeHandle with
  | none => (s, -1)
  | some i =>
      let s := s.resetScenario p i
      (s.setScn i { s.ptScnList i with scn_type := SCN_CUS_POWER_HINT, scn_state := .off }, i)

/-- `perfUserRegScn`. -/
def perfUserRegScn (pid : Int) : PerfService × Int :=
  match s.freeHandle with
  | none => (s, -1)
  | some i =>
      let s := s.resetScenario p i
      (s.setScn i
        { s.ptScnList i with scn_type := SCN_USER_HINT, pid := pid, scn_state := .off }, i)

/-- `perfUserRegScnConfig`; the scenario is not updated (`perfScnUpdate` does nothing).  No result
where the handle is outside of the table. -/
def perfUserRegScnConfig (handle cmd param_1 param_2 param_4 : Int) : Option (PerfService × Int) :=
  if isUserHandle handle = false ∧ param_4 ≠ 1 then some (s, -1)
  else if 0 ≤ handle ∧ handle < p.nScn then
    some ((s.cmdSetting p cmd none handle.toNat param_1 param_2).1, 0)
  else none

/-- `perfUserScnEnable`. -/
def perfUserScnEnable (handle : Int) : PerfService × Int :=
  if isUserHandle handle then (s.perfScnEnable p handle.toNat, 0) else (s, -1)

/-- `perfUserScnDisable`. -/
def perfUserScnDisable (handle : Int) : PerfService × Int :=
  if isUserHandle handle then (s.perfScnDisable p handle.toNat, 0) else (s, -1)

/-- `perfUserUnregScn`. -/
def perfUserUnregScn (handle : Int) : PerfService × Int :=
  if isUserHandle handle then
    if s.isOn handle.toNat then (s, -1) else (s.resetScenario p handle.toNat, 0)
  else (s, -1)

/-- The body of the loop of `perfUserScnResetAll`. -/
def resetStep (s : PerfService) (i : Nat) : PerfService :=
  let s := if (s.ptScnList i).scn_type ≠ -1 ∧ s.isOn i then s.perfScnDisable p i else s
  s.resetScenario p i

/-- `perfUserScnResetAll`. -/
def perfUserScnResetAll : PerfService := userHandles.foldl (resetStep p) s

/-- A scenario is disabled while the screen is off. -/
def screenOff (i : Nat) : PerfService :=
  if s.isOn i ∧ (s.ptScnList i).screen_off_action ≠ SCREEN_OFF_ENABLE then
    let s := s.perfScnDisable p i
    if (s.ptScnList i).screen_off_action = SCREEN_OFF_WAIT_RESTORE then s.setState i .waitRestore
    else s
  else s

/-- The body of the loop of `perfUserScnDisableAll`; `exist` says which processes exist. -/
def disableStep (exist : Int → Bool) (s : PerfService) (i : Nat) : PerfService :=
  if (s.ptScnList i).scn_type ≠ -1 then
    let s := s.screenOff p i
    if i ≥ nUserScnBase ∧ i < SCN_APP_RUN_BASE ∧ (s.ptScnList i).scn_type = SCN_USER_HINT ∧
        ¬ exist (s.ptScnList i).pid then
      (s.perfScnDisable p i).resetScenario p i
    else s
  else s

/-- `perfUserScnDisableAll`. -/
def perfUserScnDisableAll (exist : Int → Bool) : PerfService :=
  (List.range p.nScn).foldl (disableStep p exist) s

/-- The body of the loop of `perfUserScnRestoreAll`. -/
def restoreStep (s : PerfService) (i : Nat) : PerfService :=
  if (s.ptScnList i).scn_type ≠ -1 ∧ (s.ptScnList i).scn_state = .waitRestore then
    s.perfScnEnable p i
  else s

/-- `perfUserScnRestoreAll`. -/
def perfUserScnRestoreAll : PerfService := (List.range p.nScn).foldl (restoreStep p) s

/-! ## Init -/

/-- A record of the table before it is reset. -/
def zeroNode : ScnNode where
  scn_type := 0
  scn_state := .off
  pack_name := []
  act_name := []
  scn_core_total := 0
  scn_core_min := fun _ => 0
  scn_core_max := fun _ => 0
  scn_core_hard_min := fun _ => 0
  scn_vcore := 0
  scn_freq_min := fun _ => 0
  scn_freq_max := fun _ => 0
  scn_gpu_freq := 0
  scn_gpu_freq_max := 0
  scn_perf_idx := 0
  scn_wiphy_cam := 0
  scn_cpuset := 0
  screen_off_action := 0
  boost_timeout := 0
  dfps_mode := 0
  dfps := 0
  disp_mode := 0
  video_mode := 0
  scn_valid := 0
  pid := 0
  scn_fstb_fps_low := 0
  scn_fstb_fps_high := 0
  scn_param := fun _ => 0

/-- The variables before the scenarios are set up. -/
def zero : PerfService where
  ptScnList := fun _ => zeroNode
  ptClusterTbl := fun i => {
    cpuMinNow := 0
    cpuMaxNow := p.cpuNum i
    cpuHardMinNow := 0
    freqMinNow := 0
    freqMaxNow := p.freqMax i }
  tConTable := loadConTable p.conTable
  scn_cores_now := 0
  scn_vcore_now := 0
  scn_wiphy_cam_now := 0
  scn_perf_idx_now := 0
  scn_cpuset_now := p.nCpuSet
  scn_gpu_freq_now := 0
  scn_gpu_freq_max_now := p.nGpuHighestFreqLevel
  nSetCoreMax := false
  nSetFreqMax := false
  nSetGpuFreqMax := false
  nDisplayType := .others
  nCurrPowerMode := .normal
  nCurrBenchmarkMode := false
  nUserNotifyBenchmark := false
  foreground_pack := []
  foreground_act := []
  last_boost_tid := -1
  settings := []

/-- Scenarios are reset, and get a type. -/
def resetRange (base num : Nat) (scn_type : Int) : PerfService :=
  (List.range' base num).foldl
    (fun s i =>
      let s := s.resetScenario p i
      s.setScn i { s.ptScnList i with scn_type := scn_type }) s

/-- A new package of the white list. -/
def newPack (i : Nat) (row : XmlActivity) : PerfService :=
  s.setScn i { s.ptScnList i with
    scn_type := SCN_APP_RUN_BASE
    scn_state := .off
    screen_off_action := SCREEN_OFF_WAIT_RESTORE
    scn_valid := 1
    pack_name := set_str_cpy row.packName PACK_NAME_MAX
    act_name := set_str_cpy row.actName CLASS_NAME_MAX }

/-- The body of the loop of `updateScnListfromXML`, with the names of the activities so far. -/
def updateRow (r : PerfService × List (List UInt8)) (row : XmlActivity) :
    PerfService × List (List UInt8) :=
  if row.cmd.startsWith "CMD_SET" then
    let i := r.2.findIdx fun name => name = row.actName
    let s :=
      if i = r.2.length then r.1.newPack (SCN_APP_RUN_BASE + i) row else r.1
    ((s.cmdSetting p (-1) (some row.cmd) (SCN_APP_RUN_BASE + i) row.param1 row.param2).1,
      addName r.2 row.actName)
  else r

/-- `updateScnListfromXML`. -/
def updateScnListfromXML (ptXmlActList : List XmlActivity) : PerfService :=
  (ptXmlActList.foldl (updateRow p) (s, [])).1

/-- `updateCusScnTable`. -/
def updateCusScnTable (lines : List CusScn) : PerfService :=
  lines.foldl (fun s line =>
    (s.cmdSetting p (-1) (some line.cmd) line.scn line.param_1 line.param_2).1) s

/-- `init`. -/
def init : PerfService :=
  let s := (zero p).resetRange p 0 MTK_POWER_HINT_NUM SCN_POWER_HINT
  let s := s.resetRange p SCN_APP_RUN_BASE (get_activity_totalnum p.ptXmlActList) SCN_PACK_HINT
  let s := s.updateScnListfromXML p p.ptXmlActList
  let s := s.resetRange p nUserScnBase REG_SCN_MAX (-1)
  s.updateCusScnTable p p.cusScnTable

end PerfService

/-! ## The service -/

/-- A call. -/
inductive Call where
  | boostEnable (scenario : Int)
  | boostDisable (scenario : Int)
  | cusUserRegScn
  | userRegScn (pid : Int)
  | userRegScnConfig (handle cmd param_1 param_2 param_4 : Int)
  | userScnEnable (handle : Int)
  | userScnDisable (handle : Int)
  | userUnregScn (handle : Int)
  | userScnResetAll
  | userScnDisableAll (exist : Int → Bool)
  | userScnRestoreAll

/-- The state after a call. -/
def PerfService.call (p : Platform) (s : PerfService) : Call → Option PerfService
  | .boostEnable scenario => some (s.perfBoostEnable p scenario)
  | .boostDisable scenario => some (s.perfBoostDisable p scenario)
  | .cusUserRegScn => some (s.perfCusUserRegScn p).1
  | .userRegScn pid => some (s.perfUserRegScn p pid).1
  | .userRegScnConfig handle cmd param_1 param_2 param_4 =>
      (s.perfUserRegScnConfig p handle cmd param_1 param_2 param_4).map Prod.fst
  | .userScnEnable handle => some (s.perfUserScnEnable p handle).1
  | .userScnDisable handle => some (s.perfUserScnDisable p handle).1
  | .userUnregScn handle => some (s.perfUserUnregScn p handle).1
  | .userScnResetAll => some (s.perfUserScnResetAll p)
  | .userScnDisableAll exist => some (s.perfUserScnDisableAll p exist)
  | .userScnRestoreAll => some (s.perfUserScnRestoreAll p)

/-- The service as a machine whose steps are the calls. -/
def machine (p : Platform) : Machine PerfService Call where
  init := .init p
  step := PerfService.call p

end MtkHw.Power
