import MtkHw.Power.Service
import MtkHw.Power.Start

/-!
# Arbitration

The calls of the service, and what holds in every state that they lead to.

A `Kept` property survives enabling, disabling and quiet changes of records.  All calls but the
commands are made of these (`Kept.call`), so that the floors and the limits need one look at the
calls.
-/

namespace MtkHw.Power

open Lib

namespace PerfService

variable {p : Platform} {s s' : PerfService} {k : Nat}

/-! ## Properties that the calls keep -/

/-- A user handle is registered. -/
def Registered (s : PerfService) (k : Nat) : Prop :=
  isUserHandle k = true → (s.ptScnList k).scn_type ≠ -1

/-- Handles that are not registered are not enabled. -/
def UnregisteredOff (p : Platform) (s : PerfService) : Prop :=
  ∀ i : Nat, isUserHandle i = true → (s.ptScnList i).scn_type = -1 → ¬ s.On p i

/-- The property survives the steps of the service; where `registered`, scenarios are enabled
only if they are registered. -/
structure Kept (p : Platform) (registered : Prop) (I : PerfService → Prop) : Prop where
  enable : ∀ {s k}, I s → k < p.nScn → s.checkSuccess k = true →
    (registered → s.Registered k) → I (s.enable p k)
  disable : ∀ {s k}, I s → k < p.nScn → I ((s.setState k .off).withdraw p (s.ptScnList k))
  quiet : ∀ {s s'}, I s → Quiet p s s' → I s'
  checked : ∀ {s i}, I s → s.On p i → s.checkSuccess i = true

theorem isUserHandle_cast {i : Nat} :
    isUserHandle i = true ↔ nUserScnBase ≤ i ∧ i < nUserScnBase + REG_SCN_MAX := by
  rw [isUserHandle, decide_eq_true_iff]
  omega

theorem mem_userHandles {i : Nat} : i ∈ userHandles ↔ isUserHandle i = true := by
  rw [isUserHandle_cast, userHandles, List.mem_range'_1]

/-- The handles of users are in the table. -/
theorem user_lt_nScn {i : Nat} (hi : isUserHandle i = true) : i < p.nScn :=
  Nat.lt_of_lt_of_le (isUserHandle_cast.mp hi).2 (Nat.le_add_right _ _)

theorem hint_lt_nScn (hk : k < MTK_POWER_HINT_NUM) : k < p.nScn :=
  hk.trans_le ((Nat.le_add_right _ REG_SCN_MAX).trans (Nat.le_add_right _ _))

/-- A hint is not a handle of a user. -/
theorem registered_hint (s : PerfService) (hk : k < MTK_POWER_HINT_NUM) : s.Registered k :=
  fun huser => absurd hk (Nat.not_lt.mpr (isUserHandle_cast.mp huser).1)

/-- The handles of users pass the check. -/
theorem checkSuccess_user (s : PerfService) (hk : isUserHandle k = true) :
    s.checkSuccess k = true :=
  decide_eq_true (.inr (isUserHandle_cast.mp hk))

/-- A scenario that passes the check is disabled. -/
theorem not_on_perfScnDisable (hcheck : s.checkSuccess k = true) :
    ¬ (s.perfScnDisable p k).On p k := by
  rw [PerfService.perfScnDisable, if_pos hcheck]
  split
  · rename_i hoff
    intro hon
    have hstate := of_decide_eq_true hon.2
    rw [hoff] at hstate
    cases hstate
  · exact fun hon => ((on_setState .off (by rintro ⟨⟩) k).mp hon).1 rfl

/-- A handle that is registered. -/
theorem freeHandle_eq_some {i : Nat} (h : s.freeHandle = some i) :
    isUserHandle i = true ∧ (s.ptScnList i).scn_type = -1 :=
  ⟨mem_userHandles.mp (List.mem_of_find?_eq_some h), of_decide_eq_true
    (List.find?_some (p := fun i => decide ((s.ptScnList i).scn_type = -1)) h)⟩

/-! ## Handles that are not registered -/

theorem UnregisteredOff.congr (h : s.UnregisteredOff p) (hsame : SameGrants p s s') :
    s'.UnregisteredOff p := by
  intro i huser htype hon
  have hon' := (hsame.on i).mp hon
  rw [(hsame.identity i hon').scn_type] at htype
  exact h i huser htype hon'

theorem UnregisteredOff.enable (h : s.UnregisteredOff p) (hk : k < p.nScn)
    (hreg : s.Registered k) : (s.enable p k).UnregisteredOff p := by
  intro i huser htype hon
  change ((s.setState k .on).ptScnList i).scn_type = -1 at htype
  rw [ptScnList_setState] at htype
  rcases (on_setState_on hk i).mp hon with rfl | hon
  · exact hreg huser htype
  · exact h i huser htype hon

theorem UnregisteredOff.disable (h : s.UnregisteredOff p) (k : Nat) :
    ((s.setState k .off).withdraw p (s.ptScnList k)).UnregisteredOff p := by
  intro i huser htype hon
  change ((s.setState k .off).ptScnList i).scn_type = -1 at htype
  rw [ptScnList_setState] at htype
  exact h i huser htype ((on_setState .off (by rintro ⟨⟩) i).mp hon).2

/-! ## The calls, one after the other -/

namespace Kept

variable {registered : Prop} {I : PerfService → Prop}

theorem perfScnEnable (hI : Kept p registered I) (h : I s) (hk : k < p.nScn)
    (hreg : registered → s.Registered k) : I (s.perfScnEnable p k) := by
  rw [PerfService.perfScnEnable]
  split
  · rename_i hcheck
    split
    · exact h
    · exact hI.enable h hk hcheck hreg
  · exact h

theorem perfScnDisable (hI : Kept p registered I) (h : I s) (hk : k < p.nScn) :
    I (s.perfScnDisable p k) := by
  rw [PerfService.perfScnDisable]
  split
  · split
    · exact h
    · exact hI.disable h hk
  · exact h

/-- A hint is enabled. -/
theorem enableHint (hI : Kept p registered I) (h : I s) (hk : k < MTK_POWER_HINT_NUM) :
    I (s.perfScnEnable p k) :=
  hI.perfScnEnable h (hint_lt_nScn hk) fun _ => registered_hint s hk

theorem disableHint (hI : Kept p registered I) (h : I s) (hk : k < MTK_POWER_HINT_NUM) :
    I (s.perfScnDisable p k) :=
  hI.perfScnDisable h (hint_lt_nScn hk)

theorem switchNormalAndSportMode (hI : Kept p registered I) (h : I s) (mode : PowerMode) :
    I (s.switchNormalAndSportMode mode) := by
  refine hI.quiet h (.variables p s (fun idx => ?_) _ _ _ _ _)
  split
  · exact ⟨_, rfl⟩
  · exact ⟨_, rfl⟩

theorem switchSportsMode (hI : Kept p registered I) (h : I s) (reason : SportsReason)
    (bEnable : Bool) : I (s.switchSportsMode p reason bEnable) := by
  have hnote : I (s.noteSports reason bEnable) := by
    cases reason with
    | benchmark => exact hI.quiet h (.variables p s (fun _ => ⟨_, rfl⟩) _ _ _ _ _)
    | userNotify => exact hI.quiet h (.variables p s (fun _ => ⟨_, rfl⟩) _ _ _ _ _)
  have hmode : ∀ mode, I { s.noteSports reason bEnable with nCurrPowerMode := mode } :=
    fun mode => hI.quiet hnote (.variables p _ (fun _ => ⟨_, rfl⟩) _ _ _ _ _)
  rw [PerfService.switchSportsMode]
  dsimp only
  generalize (if (s.noteSports reason bEnable).nCurrBenchmarkMode = true ∨
    (s.noteSports reason bEnable).nUserNotifyBenchmark = true then PowerMode.sports
    else PowerMode.normal) = newPowerMode
  split
  · exact hnote
  · cases newPowerMode with
    | sports => exact hI.enableHint (hI.switchNormalAndSportMode (hmode _) _) (by decide)
    | normal => exact hI.disableHint (hI.switchNormalAndSportMode (hmode _) _) (by decide)

theorem gameNotifyDisplayType (hI : Kept p registered I) (h : I s) (type : DisplayType) :
    I (s.gameNotifyDisplayType p type) := by
  cases type with
  | game => exact hI.enableHint (hI.disableHint h (by decide)) (by decide)
  | noTouchBoost => exact hI.disableHint (hI.disableHint h (by decide)) (by decide)
  | others => exact hI.disableHint h (by decide)

/-- The display type is noted. -/
theorem noteDisplayType (hI : Kept p registered I) (h : I s) (type : DisplayType) :
    I { s with nDisplayType := type } :=
  hI.quiet h (.variables p s (fun _ => ⟨_, rfl⟩) _ _ _ _ _)

theorem perfBoostEnable (hI : Kept p registered I) (h : I s) (scenario : Int) :
    I (s.perfBoostEnable p scenario) := by
  rw [PerfService.perfBoostEnable]
  split
  · exact h
  · have hboost : I (if scenario < MTK_POWER_HINT_NUM then s.perfScnEnable p scenario.toNat
        else s) := by
      split
      · exact hI.enableHint h (by rename_i hlt; unfold MTK_POWER_HINT_NUM at *; omega)
      · exact h
    dsimp only
    split
    · exact hI.gameNotifyDisplayType
        (hI.noteDisplayType (hI.disableHint hboost (by decide)) .game) .game
    · split
      · exact hI.switchSportsMode hboost _ _
      · exact hboost

theorem perfBoostDisable (hI : Kept p registered I) (h : I s) (scenario : Int) :
    I (s.perfBoostDisable p scenario) := by
  have hboost : I (if scenario < MTK_POWER_HINT_NUM then s.perfScnDisable p scenario.toNat
      else s) := by
    split
    · exact hI.disableHint h (by rename_i hlt; unfold MTK_POWER_HINT_NUM at *; omega)
    · exact h
  rw [PerfService.perfBoostDisable]
  split
  · exact hI.gameNotifyDisplayType (hI.noteDisplayType hboost .others) .others
  · split
    · exact hI.switchSportsMode hboost _ _
    · exact hboost

theorem resetScenario (hI : Kept p registered I) (h : I s) (hk : ¬ s.On p k) :
    I (s.resetScenario p k) :=
  hI.quiet h (.resetScenario hk)

/-- A record that was reset is that of a registered handle. -/
theorem register (hI : Kept p registered I) (h : I s) (hk : ¬ s.On p k) (scn_type pid : Int) :
    let s' := s.resetScenario p k
    I (s'.setScn k
      { s'.ptScnList k with scn_type := scn_type, pid := pid, scn_state := .off }) := by
  refine hI.quiet (hI.resetScenario h hk) (.setScn ?_ (by rintro ⟨⟩) fun hok => ?_)
  · intro hon
    have hstate := of_decide_eq_true hon.2
    rw [PerfService.resetScenario, setScn_self] at hstate
    cases hstate
  · exact ⟨hok.freqMin, hok.freqMax, hok.gpuFreqMax, hok.cpuset⟩

theorem perfCusUserRegScn (hI : Kept p registered I) (h : I s)
    (hfree : ∀ i, s.freeHandle = some i → ¬ s.On p i) : I (s.perfCusUserRegScn p).1 := by
  rw [PerfService.perfCusUserRegScn]
  split
  · exact h
  · rename_i i hi
    exact hI.register h (hfree i hi) SCN_CUS_POWER_HINT _

theorem perfUserRegScn (hI : Kept p registered I) (h : I s)
    (hfree : ∀ i, s.freeHandle = some i → ¬ s.On p i) (pid : Int) :
    I (s.perfUserRegScn p pid).1 := by
  rw [PerfService.perfUserRegScn]
  split
  · exact h
  · rename_i i hi
    exact hI.register h (hfree i hi) SCN_USER_HINT pid

theorem perfUserUnregScn (hI : Kept p registered I) (h : I s) (handle : Int) :
    I (s.perfUserUnregScn p handle).1 := by
  rw [PerfService.perfUserUnregScn]
  split
  · split
    · exact h
    · rename_i hoff
      exact hI.resetScenario h fun hon => hoff hon.2
  · exact h

/-- A handle of a user is disabled, and is reset. -/
theorem disableReset (hI : Kept p registered I) (h : I s) (hk : isUserHandle k = true) :
    I ((s.perfScnDisable p k).resetScenario p k) :=
  hI.resetScenario (hI.perfScnDisable h (user_lt_nScn hk))
    (not_on_perfScnDisable (checkSuccess_user s hk))

theorem screenOff (hI : Kept p registered I) (h : I s) (hk : k < p.nScn) :
    I (s.screenOff p k) := by
  rw [PerfService.screenOff]
  split
  · rename_i hon
    have hdisabled := hI.perfScnDisable h hk
    have hoff : ¬ (s.perfScnDisable p k).On p k :=
      not_on_perfScnDisable (hI.checked h ⟨hk, hon.1⟩)
    dsimp only
    split
    · refine hI.quiet hdisabled (.setScn hoff (by rintro ⟨⟩) fun hok => ?_)
      exact ⟨hok.freqMin, hok.freqMax, hok.gpuFreqMax, hok.cpuset⟩
    · exact hdisabled
  · exact h

theorem disableStep (hI : Kept p registered I) (h : I s) (exist : Int → Bool) (hk : k < p.nScn) :
    I (s.disableStep p exist k) := by
  rw [PerfService.disableStep]
  split
  · have hscreen := hI.screenOff h hk
    dsimp only
    split
    · rename_i huser
      exact hI.disableReset hscreen (isUserHandle_cast.mpr ⟨huser.1, huser.2.1⟩)
    · exact hscreen
  · exact h

theorem perfUserScnDisableAll (hI : Kept p registered I) (h : I s) (exist : Int → Bool) :
    I (s.perfUserScnDisableAll p exist) :=
  List.foldlRecOn _ _ h fun _ hs _ hk => hI.disableStep hs exist (List.mem_range.mp hk)

theorem perfUserScnRestoreAll (hI : Kept p registered I) (h : I s) :
    I (s.perfUserScnRestoreAll p) := by
  refine List.foldlRecOn _ _ h fun s hs k hk => ?_
  rw [restoreStep]
  split
  · rename_i hwait
    exact hI.perfScnEnable hs (List.mem_range.mp hk) fun _ _ => hwait.1
  · exact hs

/-- Handles that are enabled are disabled before they are reset, if they are registered. -/
theorem resetStep (hI : Kept p registered I) (h : I s) (hoff : s.UnregisteredOff p)
    (hk : isUserHandle k = true) :
    I (s.resetStep p k) ∧ (s.resetStep p k).UnregisteredOff p := by
  rw [PerfService.resetStep]
  split
  · refine ⟨hI.disableReset h hk, ?_⟩
    have hdisabled : (s.perfScnDisable p k).UnregisteredOff p := by
      rw [PerfService.perfScnDisable, if_pos (checkSuccess_user s hk)]
      split
      · exact hoff
      · exact hoff.disable k
    exact hdisabled.congr
      (.setScn (not_on_perfScnDisable (checkSuccess_user s hk)) (by rintro ⟨⟩))
  · rename_i hkeep
    have hnot : ¬ s.On p k := by
      intro hon
      by_cases htype : (s.ptScnList k).scn_type = -1
      · exact hoff k hk htype hon
      · exact hkeep ⟨htype, hon.2⟩
    exact ⟨hI.resetScenario h hnot, hoff.congr (.setScn hnot (by rintro ⟨⟩))⟩

theorem perfUserScnResetAll (hI : Kept p registered I) (h : I s) (hoff : s.UnregisteredOff p) :
    I (s.perfUserScnResetAll p) := by
  have hall : I (s.perfUserScnResetAll p) ∧ (s.perfUserScnResetAll p).UnregisteredOff p :=
    List.foldlRecOn (motive := fun s => I s ∧ s.UnregisteredOff p) userHandles
      (PerfService.resetStep p) ⟨h, hoff⟩ fun _ hs _ hk =>
        hI.resetStep hs.1 hs.2 (mem_userHandles.mp hk)
  exact hall.1

end Kept

/-- What a call asks of its caller, so that a kept property survives it: a handle that is
registered or reset is not enabled, and commands are looked at on their own. -/
def Fits (p : Platform) (registered : Prop) (I : PerfService → Prop) (s : PerfService) :
    Call → Prop
  | .cusUserRegScn => ∀ i, s.freeHandle = some i → ¬ s.On p i
  | .userRegScn _ => ∀ i, s.freeHandle = some i → ¬ s.On p i
  | .userScnResetAll => s.UnregisteredOff p
  | .userScnEnable handle =>
      isUserHandle handle = true → registered → s.Registered handle.toNat
  | .userRegScnConfig handle cmd param_1 param_2 param_4 => ∀ r,
      s.perfUserRegScnConfig p handle cmd param_1 param_2 param_4 = some r → I r.1
  | _ => True

/-- The handle of a user as a number of a scenario. -/
theorem isUserHandle_toNat {handle : Int} (h : isUserHandle handle = true) :
    isUserHandle handle.toNat = true := by
  have hle : 0 ≤ handle := (Int.natCast_nonneg _).trans (of_decide_eq_true h).1
  rwa [Int.toNat_of_nonneg hle]

/-- The calls keep the property. -/
theorem Kept.call {registered : Prop} {I : PerfService → Prop} (hI : Kept p registered I)
    {c : Call} (h : I s) (hfits : Fits p registered I s c) (hcall : s.call p c = some s') :
    I s' := by
  cases c with
  | boostEnable scenario =>
    cases hcall
    exact hI.perfBoostEnable h scenario
  | boostDisable scenario =>
    cases hcall
    exact hI.perfBoostDisable h scenario
  | cusUserRegScn =>
    cases hcall
    exact hI.perfCusUserRegScn h hfits
  | userRegScn pid =>
    cases hcall
    exact hI.perfUserRegScn h hfits pid
  | userRegScnConfig handle cmd param_1 param_2 param_4 =>
    obtain ⟨r, hr, rfl⟩ := Option.map_eq_some_iff.mp hcall
    exact hfits r hr
  | userScnEnable handle =>
    cases hcall
    rw [perfUserScnEnable]
    split
    · rename_i huser
      exact hI.perfScnEnable h (user_lt_nScn (isUserHandle_toNat huser)) (hfits huser)
    · exact h
  | userScnDisable handle =>
    cases hcall
    rw [perfUserScnDisable]
    split
    · rename_i huser
      exact hI.perfScnDisable h (user_lt_nScn (isUserHandle_toNat huser))
    · exact h
  | userUnregScn handle =>
    cases hcall
    exact hI.perfUserUnregScn h handle
  | userScnResetAll =>
    cases hcall
    exact hI.perfUserScnResetAll h hfits
  | userScnDisableAll exist =>
    cases hcall
    exact hI.perfUserScnDisableAll h exist
  | userScnRestoreAll =>
    cases hcall
    exact hI.perfUserScnRestoreAll h

/-! ## The floors -/

theorem floorInv_kept (p : Platform) : Kept p False (FloorInv p) where
  enable h hk hcheck _ := h.enable hk hcheck
  disable h _ := h.disable _
  quiet h hquiet := h.quiet hquiet
  checked h hon := h.checked _ hon

/-- When no scenario is enabled, the floors are back at their defaults. -/
def NoLeak (p : Platform) (s : PerfService) : Prop :=
  (∀ i < p.nScn, s.isOn i = false) →
    s.scn_cores_now = 0 ∧
    (∀ i < p.nClusterNum, (s.ptClusterTbl i).cpuMinNow = 0 ∧ (s.ptClusterTbl i).freqMinNow = 0) ∧
    s.scn_gpu_freq_now = 0 ∧ s.scn_perf_idx_now = 0 ∧
    ∀ idx, (s.tConTable idx).curVal = (s.tConTable idx).resetVal

theorem FloorInv.noLeak (h : s.FloorInv p) : NoLeak p s := by
  intro hoff
  have hnone : ∀ value default, s.asked p value default = {default} := by
    intro value default
    refine requests_none fun i hi => ?_
    have hon := hi.2
    rw [hoff i hi.1] at hon
    cases hon
  refine ⟨?_, fun i hi => ⟨?_, ?_⟩, ?_, ?_, fun idx => ?_⟩
  · have hcores := h.cores.1
    rwa [hnone] at hcores
  · have hmin := (h.cpuMin i hi).1
    rwa [hnone] at hmin
  · have hmin := (h.freqMin i hi).1
    rwa [hnone] at hmin
  · have hgpu := h.gpuFreq.1
    rwa [hnone] at hgpu
  · have hperf := h.perfIdx.1
    rwa [hnone] at hperf
  · cases hvalid : s.conValid idx with
    | false => exact h.invalid idx hvalid
    | true =>
      have hentry := h.conTable idx hvalid
      rw [BestEntry, hnone] at hentry
      split at hentry
      · exact hentry.1
      · exact hentry.1

/-- No call writes a floor of an enabled scenario: a command writes one only where the scenario
is not enabled, and a handle that is registered or reset, but was never registered, is not
enabled. -/
def Clean (p : Platform) (s : PerfService) : Call → Prop
  | .userRegScnConfig handle cmd param_1 _ param_4 =>
      (isUserHandle handle = true ∨ param_4 = 1) → s.writesFloor p cmd none param_1 = true →
        s.isOn handle.toNat = false
  | .cusUserRegScn => ∀ i, s.freeHandle = some i → s.isOn i = false
  | .userRegScn _ => ∀ i, s.freeHandle = some i → s.isOn i = false
  | .userScnResetAll =>
      ∀ i ∈ userHandles, (s.ptScnList i).scn_type = -1 → s.isOn i = false
  | _ => True

theorem not_on_of_isOn (h : s.isOn k = false) : ¬ s.On p k := by
  intro hon
  have htrue := hon.2
  rw [h] at htrue
  cases htrue

/-- What a command leads to. -/
theorem config_cases {handle cmd param_1 param_2 param_4 : Int} {r : PerfService × Int}
    (h : s.perfUserRegScnConfig p handle cmd param_1 param_2 param_4 = some r) :
    r.1 = s ∨ ((isUserHandle handle = true ∨ param_4 = 1) ∧
      Configured p s handle.toNat (s.writesFloor p cmd none param_1)
        (writesLimit p cmd none param_1) r.1) := by
  rw [perfUserRegScnConfig] at h
  split at h
  · cases h
    exact .inl rfl
  · rename_i haccept
    split at h
    · cases h
      refine .inr ⟨?_, cmdSetting_configured p s _ _ _ _ _⟩
      rw [not_and_or, Bool.not_eq_false, not_not] at haccept
      exact haccept
    · cases h

theorem Clean.fits {c : Call} (hclean : Clean p s c) (h : s.FloorInv p) :
    Fits p False (FloorInv p) s c := by
  cases c with
  | cusUserRegScn => exact fun i hi => not_on_of_isOn (hclean i hi)
  | userRegScn pid => exact fun i hi => not_on_of_isOn (hclean i hi)
  | userScnResetAll =>
    exact fun i huser htype => not_on_of_isOn (hclean i (mem_userHandles.mpr huser) htype)
  | userScnEnable handle => exact fun _ => False.elim
  | userRegScnConfig handle cmd param_1 param_2 param_4 =>
    intro r hr
    rcases config_cases hr with hsame | ⟨haccept, hcmd⟩
    · rw [hsame]
      exact h
    · exact h.configured hcmd fun hfloor => not_on_of_isOn (hclean haccept hfloor)
  | boostEnable scenario => trivial
  | boostDisable scenario => trivial
  | userScnDisable handle => trivial
  | userUnregScn handle => trivial
  | userScnDisableAll exist => trivial
  | userScnRestoreAll => trivial

/-- No boost leaks in a run whose calls do not write the floors of enabled scenarios. -/
theorem noLeak_of_clean (p : Platform) (calls : List Call)
    (h : (machine p).Meets (Clean p) (init p) calls) :
    (machine p).Along (NoLeak p) (init p) calls := by
  have hstep : ∀ s c s', FloorInv p s → Clean p s c → (machine p).step s c = some s' →
      FloorInv p s' :=
    fun s c s' hs hclean hcall => (floorInv_kept p).call hs (hclean.fits hs) hcall
  exact (machine p).along_of_meets hstep (fun _ hs => hs.noLeak) (init_inv p).toFloorInv h

/-- One cluster of four cores, with no control table and no white list. -/
def oneCluster : Platform where
  nClusterNum := 1
  cpuNum := fun _ => 4
  freqMax := fun _ => 1000
  nCpuNum := 4
  nGpuFreqCount := 3
  conTable := []
  ptXmlActList := []
  cusScnTable := []
  freqMax_nonneg := fun _ => by decide
  freqMax_le := fun _ => by decide
  nCpuNum_pos := by decide

/-- A handle is registered, asks for 500, is enabled, asks for 100, and is disabled. -/
theorem noLeak_false : ¬ ∀ (p : Platform) (calls : List Call) (s : PerfService),
    (machine p).run (init p) calls = some s → NoLeak p s := by
  intro h
  have hleak := h oneCluster [.userRegScn 1, .userRegScnConfig 36 3 0 500 0, .userScnEnable 36,
    .userRegScnConfig 36 3 0 100 0, .userScnDisable 36] _ rfl (by decide +kernel)
  have hfreq := (hleak.2.1 0 (by decide)).2
  revert hfreq
  decide +kernel

/-- The handle is configured again only after it is disabled. -/
theorem noLeak_of_clean_handle :
    (machine oneCluster).Along (NoLeak oneCluster) (init oneCluster)
      [.userRegScn 1, .userRegScnConfig 36 3 0 500 0, .userScnEnable 36, .userScnDisable 36,
        .userRegScnConfig 36 3 0 100 0] := by
  apply noLeak_of_clean
  refine .cons _ rfl (fun i hi => ?_) ?_
  · have hfree : (init oneCluster).freeHandle = some 36 := by decide +kernel
    rw [hfree] at hi
    cases hi
    decide +kernel
  refine .cons _ rfl (fun _ _ => by decide +kernel) ?_
  refine .cons _ rfl trivial ?_
  refine .cons _ rfl trivial ?_
  exact .cons _ rfl (fun _ _ => by decide +kernel) trivial

/-! ## Floors and limits -/

theorem inv_kept (p : Platform) :
    Kept p True fun s => s.Inv p ∧ s.UnregisteredOff p where
  enable h hk hcheck hreg := ⟨h.1.enable hk hcheck, h.2.enable hk (hreg trivial)⟩
  disable h hk := ⟨h.1.disable hk, h.2.disable _⟩
  quiet h hquiet := ⟨h.1.quiet hquiet, h.2.congr hquiet.toSameGrants⟩
  checked h hon := h.1.checked _ hon

/-- A user handle is used only while it is registered, and is configured only while it is not
enabled. -/
def Disciplined (s : PerfService) : Call → Prop
  | .userRegScnConfig handle _ _ _ _ =>
      isUserHandle handle = true →
        (s.ptScnList handle.toNat).scn_type ≠ -1 ∧ s.isOn handle.toNat = false
  | .userScnEnable handle =>
      isUserHandle handle = true → (s.ptScnList handle.toNat).scn_type ≠ -1
  | .userScnDisable handle =>
      isUserHandle handle = true → (s.ptScnList handle.toNat).scn_type ≠ -1
  | .userUnregScn handle =>
      isUserHandle handle = true → (s.ptScnList handle.toNat).scn_type ≠ -1
  | _ => True

/-- A command that writes a floor or a limit of a predefined scenario comes only while the
scenario is not enabled. -/
def PredefinedOff (p : Platform) (s : PerfService) : Call → Prop
  | .userRegScnConfig handle cmd param_1 _ param_4 =>
      isUserHandle handle = false → param_4 = 1 →
        s.writesFloor p cmd none param_1 = true ∨ writesLimit p cmd none param_1 = true →
          s.isOn handle.toNat = false
  | _ => True

theorem Disciplined.fits {c : Call} (hdisciplined : Disciplined s c)
    (hpredefined : PredefinedOff p s c) (h : s.Inv p ∧ s.UnregisteredOff p) :
    Fits p True (fun s => s.Inv p ∧ s.UnregisteredOff p) s c := by
  have hfree : ∀ i, s.freeHandle = some i → ¬ s.On p i := by
    intro i hi
    exact h.2 i (freeHandle_eq_some hi).1 (freeHandle_eq_some hi).2
  cases c with
  | cusUserRegScn => exact hfree
  | userRegScn pid => exact hfree
  | userScnResetAll => exact h.2
  | userScnEnable handle => exact fun huser _ _ => hdisciplined huser
  | userRegScnConfig handle cmd param_1 param_2 param_4 =>
    intro r hr
    rcases config_cases hr with hsame | ⟨haccept, hcmd⟩
    · rw [hsame]
      exact h
    · refine ⟨h.1.configured hcmd fun hwrites => not_on_of_isOn ?_, h.2.congr hcmd.sameGrants⟩
      cases huser : isUserHandle handle with
      | true => exact (hdisciplined huser).2
      | false =>
        rw [huser] at haccept
        exact hpredefined huser (haccept.resolve_left Bool.false_ne_true) hwrites
  | boostEnable scenario => trivial
  | boostDisable scenario => trivial
  | userScnDisable handle => trivial
  | userUnregScn handle => trivial
  | userScnDisableAll exist => trivial
  | userScnRestoreAll => trivial

/-- What is granted is what the enabled scenarios ask for, in every state of a run with
disciplined callers that configure enabled scenarios neither. -/
theorem aggregate_of_disciplined (p : Platform) (calls : List Call)
    (h : (machine p).Meets (fun s c => Disciplined s c ∧ PredefinedOff p s c) (init p) calls) :
    (machine p).Along (Aggregate p) (init p) calls := by
  have hstep : ∀ s c s', s.Inv p ∧ s.UnregisteredOff p → Disciplined s c ∧ PredefinedOff p s c →
      (machine p).step s c = some s' → s'.Inv p ∧ s'.UnregisteredOff p :=
    fun s c s' hs hc hcall => (inv_kept p).call hs (hc.1.fits hc.2 hs) hcall
  exact (machine p).along_of_meets hstep (fun _ hs => hs.1.aggregate)
    ⟨init_inv p, fun i _ _ => (init_idle p).off i⟩ h

/-- A predefined scenario is enabled, and is then configured to ask for 500. -/
theorem aggregate_false : ¬ ∀ (p : Platform) (calls : List Call),
    (machine p).Meets Disciplined (init p) calls →
      (machine p).Along (Aggregate p) (init p) calls := by
  intro h
  have halong := h oneCluster [.boostEnable 10, .userRegScnConfig 10 3 0 500 1] (by
    refine .cons _ rfl trivial ?_
    exact .cons _ rfl (fun huser => absurd huser (by decide)) trivial)
  have hlast := halong.last _ rfl
  have hle := (hlast.freqMin 0 (by decide)).2
    (.inr ⟨10, ⟨by decide, by decide +kernel⟩, rfl⟩)
  revert hle
  decide +kernel

/-- The same with a handle that is registered and configured before it is enabled. -/
theorem aggregate_of_disciplined_handle :
    (machine oneCluster).Along (Aggregate oneCluster) (init oneCluster)
      [.userRegScn 1, .userRegScnConfig 36 3 0 500 0, .userScnEnable 36, .boostEnable 10] := by
  apply aggregate_of_disciplined
  refine .cons _ rfl ⟨trivial, trivial⟩ ?_
  refine .cons _ rfl ⟨fun _ => ?_, fun huser => absurd huser (by decide)⟩ ?_
  · decide +kernel
  refine .cons _ rfl ⟨fun _ => ?_, trivial⟩ ?_
  · decide +kernel
  exact .cons _ rfl ⟨trivial, trivial⟩ trivial

end PerfService

end MtkHw.Power
