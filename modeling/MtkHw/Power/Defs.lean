import MtkHw.Lib.Arbiter
import Mathlib.Data.Int.Bitwise

/-!
# Scenarios

The scenario table of the power service: the records, the tables that `init` loads, and the
commands that configure a scenario.

The table has the power hints first, then the handles of users, then the packages of the white
list.  What a scenario asks for is written into its record by `cmdSetting`, whatever the state of
the scenario.  Arrays are functions; only their elements below the length in the source are used.
-/

namespace MtkHw.Power

open Lib

/-! ## Constants -/

def REG_SCN_MAX : Nat := 256
def FIELD_SIZE : Nat := 64
def PACK_NAME_MAX : Nat := 128
def CLASS_NAME_MAX : Nat := 128
def CORE_MAX : Int := 0xff
def FREQ_MAX : Int := 0xffffff
def PPM_IGNORE : Int := -1

def MTK_POWER_HINT_APP_TOUCH : Nat := 15
def MTK_POWER_HINT_GAMING : Nat := 17
def MTK_POWER_HINT_SPORTS : Nat := 20
def MTK_POWER_HINT_NUM : Nat := 36

/-- The first handle of users. -/
def nUserScnBase : Nat := MTK_POWER_HINT_NUM

/-- The first package of the white list. -/
def SCN_APP_RUN_BASE : Nat := MTK_POWER_HINT_NUM + REG_SCN_MAX

def SCN_POWER_HINT : Int := 0
def SCN_CUS_POWER_HINT : Int := 1
def SCN_USER_HINT : Int := 2
def SCN_PACK_HINT : Int := 3

def SCREEN_OFF_DISABLE : Int := 0
def SCREEN_OFF_ENABLE : Int := 1
def SCREEN_OFF_WAIT_RESTORE : Int := 2

/-- The comparison of the control table where a smaller value is better. -/
def LESS : String := "less"

/-! ## Records -/

/-- `STATE_OFF`, `STATE_ON` and `STATE_WAIT_RESTORE`. -/
inductive ScnState where
  | off
  | on
  | waitRestore
  deriving DecidableEq, Repr

/-- A scenario. -/
structure ScnNode where
  scn_type : Int
  scn_state : ScnState
  pack_name : List UInt8
  act_name : List UInt8
  scn_core_total : Int
  scn_core_min : Nat → Int
  scn_core_max : Nat → Int
  scn_core_hard_min : Nat → Int
  scn_vcore : Int
  scn_freq_min : Nat → Int
  scn_freq_max : Nat → Int
  scn_gpu_freq : Int
  scn_gpu_freq_max : Int
  scn_perf_idx : Int
  scn_wiphy_cam : Int
  scn_cpuset : Int
  screen_off_action : Int
  boost_timeout : Int
  dfps_mode : Int
  dfps : Int
  disp_mode : Int
  video_mode : Int
  scn_valid : Int
  pid : Int
  scn_fstb_fps_low : Int
  scn_fstb_fps_high : Int
  scn_param : Nat → Int

/-- What is granted for a cluster of cores. -/
structure ClusterInfo where
  cpuMinNow : Int
  cpuMaxNow : Int
  cpuHardMinNow : Int
  freqMinNow : Int
  freqMaxNow : Int

/-- An entry of the control table. -/
structure ScnConTable where
  cmdName : String
  cmdID : Int
  entry : String
  defaultVal : Int
  curVal : Int
  comp : String
  maxVal : Int
  minVal : Int
  resetVal : Int
  isValid : Int
  normalVal : Int
  sportVal : Int

/-! ## What init loads -/

/-- The fields of a line of the control table; `isValid` is `-1` where the entry cannot be
written, and `entryVal` is what it holds. -/
structure ConLine where
  cmdName : String
  cmdID : Int
  entry : String
  comp : String
  maxVal : Int
  minVal : Int
  normalVal : Int
  sportVal : Int
  isValid : Int
  entryVal : Int

/-- An entry that no line has been loaded into. -/
def ScnConTable.empty : ScnConTable := ⟨"", 0, "", 0, 0, "", 0, 0, 0, 0, 0, 0⟩

/-- The body of the loop of `loadConTable`. -/
def ConLine.load (line : ConLine) : ScnConTable :=
  let resetVal := if line.comp = LESS then line.maxVal + 1 else line.minVal - 1
  { cmdName := line.cmdName
    cmdID := line.cmdID
    entry := line.entry
    defaultVal := if line.normalVal ≠ -1 then line.normalVal else line.entryVal
    curVal := resetVal
    comp := line.comp
    maxVal := line.maxVal
    minVal := line.minVal
    resetVal := resetVal
    isValid := line.isValid
    normalVal := line.normalVal
    sportVal := line.sportVal }

/-- `loadConTable`. -/
def loadConTable (lines : List ConLine) (idx : Nat) : ScnConTable :=
  (lines[idx]?).elim .empty ConLine.load

/-- A row of the white list, with the names that the parser gives. -/
structure XmlActivity where
  cmd : String
  packName : List UInt8
  actName : List UInt8
  param1 : Int
  param2 : Int

/-- `set_str_cpy`. -/
def set_str_cpy (src : List UInt8) (desc_max_size : Nat) : List UInt8 :=
  src.take (desc_max_size - 1)

local instance lawfulName : LawfulBEq (List UInt8) := inferInstance

/-- The name is new in the list. -/
def addName (names : List (List UInt8)) (name : List UInt8) : List (List UInt8) :=
  if name ∈ names then names else names ++ [set_str_cpy name CLASS_NAME_MAX]

/-- `get_activity_totalnum`. -/
def get_activity_totalnum (ptXmlActList : List XmlActivity) : Nat :=
  (ptXmlActList.foldl
    (fun names row =>
      if row.cmd.startsWith "CMD_SET" ∨ ¬ row.cmd.startsWith "[SPORTS]" then
        addName names row.actName
      else names) []).length

/-- A line of the customer's scenario table. -/
structure CusScn where
  scn : Fin MTK_POWER_HINT_NUM
  cmd : String
  param_1 : Int
  param_2 : Int

/-- What `init` finds: the cores and their frequencies, the number of GPU frequencies, the
control table, the white list and the customer's scenario table.  The drivers' frequencies are
below the value that stands for no limit. -/
structure Platform where
  nClusterNum : Nat
  cpuNum : Nat → Int
  freqMax : Nat → Int
  nCpuNum : Nat
  nGpuFreqCount : Int
  conTable : List ConLine
  ptXmlActList : List XmlActivity
  cusScnTable : List CusScn
  freqMax_nonneg : ∀ i, 0 ≤ freqMax i
  freqMax_le : ∀ i, freqMax i ≤ FREQ_MAX
  nCpuNum_pos : 0 < nCpuNum

namespace Platform

variable (p : Platform)

/-- The highest GPU frequency. -/
def nGpuHighestFreqLevel : Int := p.nGpuFreqCount - 1

/-- The mask of all CPUs. -/
def nCpuSet : Int := 2 ^ p.nCpuNum - 1

/-- The length of the scenario table. -/
def nScn : Nat := SCN_APP_RUN_BASE + get_activity_totalnum p.ptXmlActList

end Platform

/-! ## State -/

/-- The displays that are told apart. -/
inductive DisplayType where
  | game
  | others
  | noTouchBoost
  deriving DecidableEq, Repr

/-- `PERF_MODE_NORMAL` and `PERF_MODE_SPORTS`. -/
inductive PowerMode where
  | normal
  | sports
  deriving DecidableEq, Repr

/-- What is passed on to the drivers and to the display. -/
inductive Setting where
  | clusterCores (totalCore : Int) (coreTbl maxCoreTbl : Nat → Int)
  | clusterFreq (freqTbl maxFreqTbl : Nat → Int)
  | vcore (level : Int)
  | wiphyCAM (level : Int)
  | gpuFreq (level : Int)
  | gpuFreqMax (level : Int)
  | perfIdx (index : Int)
  | cpuset (mask : Int)
  | cpusetOff
  | conEntry (idx : Nat) (value : Int)
  | fps (fps mode : Int)
  | disp (mode : Int)
  | video (on : Bool)
  | fstbFps (high low : Int)

/-- The variables of the power service, and what it has passed on. -/
structure PerfService where
  ptScnList : Nat → ScnNode
  ptClusterTbl : Nat → ClusterInfo
  tConTable : Nat → ScnConTable
  scn_cores_now : Int
  scn_vcore_now : Int
  scn_wiphy_cam_now : Int
  scn_perf_idx_now : Int
  scn_cpuset_now : Int
  scn_gpu_freq_now : Int
  scn_gpu_freq_max_now : Int
  nSetCoreMax : Bool
  nSetFreqMax : Bool
  nSetGpuFreqMax : Bool
  nDisplayType : DisplayType
  nCurrPowerMode : PowerMode
  nCurrBenchmarkMode : Bool
  nUserNotifyBenchmark : Bool
  foreground_pack : List UInt8
  foreground_act : List UInt8
  last_boost_tid : Int
  settings : List Setting

namespace PerfService

variable (p : Platform) (s : PerfService)

/-- Write the record of a scenario. -/
def setScn (k : Nat) (scn : ScnNode) : PerfService :=
  { s with ptScnList := fun i => if i = k then scn else s.ptScnList i }

/-- Write the state of a scenario. -/
def setState (k : Nat) (state : ScnState) : PerfService :=
  s.setScn k { s.ptScnList k with scn_state := state }

/-- `resetScenario`: the record. -/
def resetNode (scn : ScnNode) : ScnNode :=
  { scn with
    pack_name := []
    scn_type := -1
    scn_core_total := 0
    scn_state := .off
    scn_gpu_freq := -1
    scn_gpu_freq_max := p.nGpuHighestFreqLevel
    scn_perf_idx := 0
    scn_valid := 1
    pid := -1
    scn_vcore := 0
    scn_wiphy_cam := 0
    dfps_mode := 0
    dfps := -1
    disp_mode := 0
    video_mode := 0
    screen_off_action := SCREEN_OFF_DISABLE
    boost_timeout := -1
    scn_cpuset := p.nCpuSet
    scn_fstb_fps_high := -1
    scn_fstb_fps_low := -1
    scn_core_min := fun i => if i < p.nClusterNum then -1 else scn.scn_core_min i
    scn_core_max := fun i => if i < p.nClusterNum then CORE_MAX else scn.scn_core_max i
    scn_core_hard_min := fun i => if i < p.nClusterNum then -1 else scn.scn_core_hard_min i
    scn_freq_min := fun i => if i < p.nClusterNum then -1 else scn.scn_freq_min i
    scn_freq_max := fun i => if i < p.nClusterNum then FREQ_MAX else scn.scn_freq_max i
    scn_param := fun i => if i < FIELD_SIZE then (s.tConTable i).resetVal else scn.scn_param i }

/-- `resetScenario`. -/
def resetScenario (handle : Nat) : PerfService :=
  s.setScn handle (s.resetNode p (s.ptScnList handle))

/-! ## Commands -/

/-- A command is given by its name or by its number. -/
def isCmd (icmd : Int) (scmd : Option String) (name : String) (id : Int) : Bool :=
  (icmd = -1 ∧ scmd = some name) ∨ icmd = id

/-- The cores of the clusters whose minimum is in range: the loop of
`CMD_SET_CLUSTER_CPU_CORE_MIN`. -/
def coreTotal (core_min : Nat → Int) : Int :=
  (List.range p.nClusterNum).foldl
    (fun total i =>
      if core_min i ≥ 0 ∧ core_min i ≤ p.cpuNum i then total + core_min i else total) 0

/-- An element of an array is written. -/
def write (a : Nat → Int) (k : Nat) (v : Int) : Nat → Int := fun i => if i = k then v else a i

/-- The last loop of `cmdSetting`, over the control table. -/
def conSetting (icmd : Int) (scmd : Option String) (k : Nat) (param_1 : Int) :
    PerfService × Int :=
  let found idx := isCmd icmd scmd (s.tConTable idx).cmdName (s.tConTable idx).cmdID
  let scn := s.ptScnList k
  let param idx :=
    if idx < FIELD_SIZE ∧ found idx ∧ param_1 ≥ (s.tConTable idx).minVal ∧
        param_1 ≤ (s.tConTable idx).maxVal then param_1 else scn.scn_param idx
  (s.setScn k { scn with scn_param := param },
    if (List.range FIELD_SIZE).any found then 0 else -1)

/-- `cmdSetting` on the scenario `k`. -/
def cmdSetting (icmd : Int) (scmd : Option String) (k : Nat) (param_1 param_2 : Int) :
    PerfService × Int :=
  let scn := s.ptScnList k
  if icmd < 0 ∧ scmd = none then (s, -1)
  else if isCmd icmd scmd "CMD_SET_GPU_FREQ_MIN" 6 then
    (s.setScn k { scn with
      scn_gpu_freq :=
        if p.nGpuHighestFreqLevel < param_1 then p.nGpuHighestFreqLevel else param_1 }, 0)
  else if isCmd icmd scmd "CMD_SET_GPU_FREQ_MAX" 7 then
    ({ s.setScn k { scn with
        scn_gpu_freq_max :=
          if param_1 ≥ 0 ∧ param_1 ≤ p.nGpuHighestFreqLevel then param_1
          else p.nGpuHighestFreqLevel } with
      nSetGpuFreqMax := true }, 0)
  else if isCmd icmd scmd "CMD_SET_CLUSTER_CPU_CORE_MIN" 1 then
    if param_1 ≥ p.nClusterNum ∨ param_1 < 0 then (s, -1)
    else
      let i := param_1.toNat
      let core_min := write scn.scn_core_min i
        (if param_2 ≤ p.cpuNum i then if param_2 < 0 then 0 else param_2 else p.cpuNum i)
      (s.setScn k { scn with scn_core_min := core_min, scn_core_total := coreTotal p core_min }, 0)
  else if isCmd icmd scmd "CMD_SET_CLUSTER_CPU_CORE_MAX" 2 then
    if param_1 ≥ p.nClusterNum ∨ param_1 < 0 then (s, -1)
    else
      let i := param_1.toNat
      ({ s.setScn k { scn with
          scn_core_max :=
            write scn.scn_core_max i (if param_2 ≥ 0 then param_2 else p.cpuNum i) } with
        nSetCoreMax := true }, 0)
  else if isCmd icmd scmd "CMD_SET_CLUSTER_CPU_FREQ_MIN" 3 then
    if param_1 ≥ p.nClusterNum ∨ param_1 < 0 then (s, -1)
    else
      let i := param_1.toNat
      (s.setScn k { scn with
        scn_freq_min :=
          write scn.scn_freq_min i (if param_2 ≥ p.freqMax i then p.freqMax i else param_2) }, 0)
  else if isCmd icmd scmd "CMD_SET_CLUSTER_CPU_FREQ_MAX" 4 then
    if param_1 ≥ p.nClusterNum ∨ param_1 < 0 then (s, -1)
    else
      let i := param_1.toNat
      ({ s.setScn k { scn with
          scn_freq_max :=
            write scn.scn_freq_max i (if param_2 ≥ p.freqMax i then p.freqMax i else param_2) } with
        nSetFreqMax := true }, 0)
  else if isCmd icmd scmd "CMD_SET_CPU_PERF_MODE" 5 then
    if param_1 ≠ 1 then (s, 0)
    else
      (s.setScn k { scn with
        scn_core_min := fun i => if i < p.nClusterNum then p.cpuNum i else scn.scn_core_min i
        scn_core_total := (List.range p.nClusterNum).foldl (fun total i => total + p.cpuNum i)
          scn.scn_core_total
        scn_freq_min := fun i => if i < p.nClusterNum then p.freqMax i else scn.scn_freq_min i }, 0)
  else if isCmd icmd scmd "CMD_SET_SCREEN_OFF_STATE" 11 then
    (s.setScn k { scn with screen_off_action := param_1 }, 0)
  else if isCmd icmd scmd "CMD_SET_GLOBAL_CPUSET" 33 then
    (s.setScn k { scn with
      scn_cpuset := if param_1 ≤ p.nCpuSet then param_1 else p.nCpuSet }, 0)
  -- The list of benchmarks is not a part of the state.
  else if isCmd icmd scmd "CMD_SET_SPORTS_MODE" 41 then (s, 0)
  else if isCmd icmd scmd "CMD_SET_FSTB_FPS" 54 then
    (s.setScn k { scn with scn_fstb_fps_high := param_1, scn_fstb_fps_low := param_2 }, 0)
  else if isCmd icmd scmd "CMD_SET_DFPS" 40 then
    (s.setScn k { scn with
      dfps_mode := if param_1 ≥ 0 ∧ param_1 < 4 then param_1 else 0
      dfps := if param_2 > 0 then param_2 else -1 }, 0)
  else if isCmd icmd scmd "CMD_SET_DISP_DECOUPLE" 68 then
    (s.setScn k { scn with disp_mode := if param_1 ≥ 0 ∧ param_1 < 2 then param_1 else 0 }, 0)
  else if isCmd icmd scmd "CMD_SET_VIDEO_MODE" 61 then
    (s.setScn k { scn with video_mode := if param_1 ≠ 0 then 1 else 0 }, 0)
  else if isCmd icmd scmd "CMD_SET_PACK_BOOST_TIMEOUT" 39 then
    (s.setScn k { scn with boost_timeout := if param_1 ≥ 0 then param_1 else -1 }, 0)
  -- The variables of this command are only reported.
  else if isCmd icmd scmd "CMD_SET_WALT_FOLLOW" 64 then (s, 0)
  else if (icmd < 0 ∧ scmd = some "CMD_SET_WIPHY_CAM") ∨ icmd = 70 then
    (s.setScn k { scn with scn_wiphy_cam := if param_1 > 0 then param_1 else 0 }, 0)
  else s.conSetting icmd scmd k param_1

end PerfService

end MtkHw.Power
