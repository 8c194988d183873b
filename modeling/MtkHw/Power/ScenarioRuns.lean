import MtkHw.Power.Arbitration

/-!
# Runs of scenarios

Scenarios of all kinds, power hints, handles of users and packages of the white list, are enabled
and disabled in any order by `perfScnEnable` and `perfScnDisable`.  What a scenario asks for is
written while it is not enabled; here the new record may be any, so that a run covers every way of
configuring the scenarios.
-/

namespace MtkHw.Power

open Lib

/-- What is done with a scenario. -/
inductive Move where
  | enable (k : Nat)
  | disable (k : Nat)
  | /-- The record is written, and the maximum of cores may be noted as set. -/
    configure (k : Nat) (scn : ScnNode) (coreMax : Bool)

namespace PerfService

/-- The state after a move; a scenario is configured only while it is not enabled. -/
def move (p : Platform) (s : PerfService) : Move → Option PerfService
  | .enable k => if k < p.nScn then some (s.perfScnEnable p k) else none
  | .disable k => if k < p.nScn then some (s.perfScnDisable p k) else none
  | .configure k scn coreMax =>
      if k < p.nScn ∧ s.isOn k = false ∧ scn.scn_state ≠ .on then
        some { s.setScn k scn with nSetCoreMax := s.nSetCoreMax || coreMax }
      else none

end PerfService

/-- The scenarios as a machine. -/
def scenarios (p : Platform) : Machine PerfService Move where
  init := .init p
  step := PerfService.move p

namespace PerfService

variable {p : Platform} {s s' : PerfService} {k : Nat} {scn : ScnNode} {coreMax : Bool}

/-- What a move does. -/
theorem move_cases {m : Move} (hm : s.move p m = some s') :
    (∃ k, m = .enable k ∧ k < p.nScn ∧ s' = s.perfScnEnable p k) ∨
      (∃ k, m = .disable k ∧ k < p.nScn ∧ s' = s.perfScnDisable p k) ∨
      ∃ k scn coreMax, m = .configure k scn coreMax ∧ s.isOn k = false ∧ scn.scn_state ≠ .on ∧
        s' = { s.setScn k scn with nSetCoreMax := s.nSetCoreMax || coreMax } := by
  cases m with
  | enable k =>
    obtain ⟨hk, hs'⟩ := Option.ite_none_right_eq_some.mp hm
    exact .inl ⟨k, rfl, hk, (Option.some.inj hs').symm⟩
  | disable k =>
    obtain ⟨hk, hs'⟩ := Option.ite_none_right_eq_some.mp hm
    exact .inr (.inl ⟨k, rfl, hk, (Option.some.inj hs').symm⟩)
  | configure k scn coreMax =>
    obtain ⟨⟨-, hoff, hscn⟩, hs'⟩ := Option.ite_none_right_eq_some.mp hm
    exact .inr (.inr ⟨k, scn, coreMax, rfl, hoff, hscn, (Option.some.inj hs').symm⟩)

theorem step_enable (s : PerfService) (hk : k < p.nScn) :
    (scenarios p).step s (.enable k) = some (s.perfScnEnable p k) := if_pos hk

theorem step_disable (s : PerfService) (hk : k < p.nScn) :
    (scenarios p).step s (.disable k) = some (s.perfScnDisable p k) := if_pos hk

theorem step_configure (s : PerfService) (coreMax : Bool) (hk : k < p.nScn)
    (hoff : s.isOn k = false) (hscn : scn.scn_state ≠ .on) :
    (scenarios p).step s (.configure k scn coreMax) =
      some { s.setScn k scn with nSetCoreMax := s.nSetCoreMax || coreMax } :=
  if_pos ⟨hk, hoff, hscn⟩

/-- A move that cannot be made is not a disabling of a scenario of the table. -/
theorem le_of_move_eq_none (hm : s.move p (.disable k) = none) : p.nScn ≤ k := by
  by_contra hk
  cases hm.symm.trans (step_disable s (Nat.not_le.mp hk))

/-! ## What init leaves alone -/

/-- The variables that are not records, and do not say which limits are set. -/
def bare (s : PerfService) : PerfService :=
  { s with
    ptScnList := fun _ => zeroNode
    nSetCoreMax := false
    nSetFreqMax := false
    nSetGpuFreqMax := false }

theorem bare_foldl {α : Type} {f : PerfService → α → PerfService}
    (h : ∀ s a, (f s a).bare = s.bare) (as : List α) (s : PerfService) :
    (as.foldl f s).bare = s.bare := by
  induction as generalizing s with
  | nil => rfl
  | cons a as ih => exact (ih (f s a)).trans (h s a)

theorem bare_cmdSetting (p : Platform) (s : PerfService) (icmd : Int) (scmd : Option String)
    (k : Nat) (param_1 param_2 : Int) :
    (s.cmdSetting p icmd scmd k param_1 param_2).1.bare = s.bare := by
  rw [(cmdSetting_configured p s icmd scmd k param_1 param_2).frame]
  rfl

theorem bare_updateRow (p : Platform) (r : PerfService × List (List UInt8)) (row : XmlActivity) :
    (updateRow p r row).1.bare = r.1.bare := by
  rw [updateRow]
  split
  · refine (bare_cmdSetting p _ _ _ _ _ _).trans ?_
    split
    · rfl
    · rfl
  · rfl

/-- `init` writes records only. -/
theorem bare_init (p : Platform) : (init p).bare = (zero p).bare := by
  have hreset : ∀ s base num scn_type, (resetRange p s base num scn_type).bare = s.bare := by
    intro s base num scn_type
    refine bare_foldl ?_ _ s
    exact fun _ _ => rfl
  have hrows : ∀ (rows : List XmlActivity) (r : PerfService × List (List UInt8)),
      (rows.foldl (updateRow p) r).1.bare = r.1.bare := by
    intro rows
    induction rows with
    | nil => exact fun _ => rfl
    | cons row rows ih => exact fun r => (ih (updateRow p r row)).trans (bare_updateRow p r row)
  refine (bare_foldl (fun s _ => bare_cmdSetting p s _ _ _ _ _) _ _).trans ?_
  exact (hreset _ _ _ _).trans ((hrows _ _).trans ((hreset _ _ _ _).trans (hreset _ _ _ _)))

/-! ## The floors -/

/-- A scenario is configured while it is not enabled: the enabled scenarios stay as they are. -/
theorem sameGrants_configure (hoff : s.isOn k = false) (hscn : scn.scn_state ≠ .on) :
    SameGrants p s { s.setScn k scn with nSetCoreMax := s.nSetCoreMax || coreMax } := by
  have hk : ¬ s.On p k := fun hon => Bool.false_ne_true (hoff.symm.trans hon.2)
  obtain ⟨on, identity, cores, gpuFreq, perfIdx, vcore, gpuFreqMax, cpuset, cluster, table⟩ :=
    SameGrants.setScn (p := p) hk hscn
  exact ⟨on, identity, cores, gpuFreq, perfIdx, vcore, gpuFreqMax, cpuset, cluster, table⟩

/-- The records of the enabled scenarios are not written. -/
theorem configure_enabled (hoff : s.isOn k = false) {i : Nat} (hi : s.On p i) :
    (s.setScn k scn).ptScnList i = s.ptScnList i :=
  setScn_enabled (p := p) (fun hon => Bool.false_ne_true (hoff.symm.trans hon.2)) hi

/-- The floors are right in every state of a run. -/
theorem FloorInv.move (h : s.FloorInv p) {m : Move} (hm : s.move p m = some s') :
    s'.FloorInv p := by
  rcases move_cases hm with
    ⟨k, -, hk, rfl⟩ | ⟨k, -, hk, rfl⟩ | ⟨k, scn, coreMax, -, hoff, hscn, rfl⟩
  · exact (floorInv_kept p).perfScnEnable h hk False.elim
  · exact (floorInv_kept p).perfScnDisable h hk
  · refine h.congr (sameGrants_configure hoff hscn) fun i hi => ?_
    change SameFloors ((s.setScn k scn).ptScnList i) _
    rw [configure_enabled hoff hi]
    exact .refl _

/-! ## Wi-Fi CAM -/

/-- The level is what the enabled scenarios ask for. -/
def CamFollows (p : Platform) (s : PerfService) : Prop :=
  IsGreatest (s.asked p ScnNode.scn_wiphy_cam 0) s.scn_wiphy_cam_now

/-- `perfScnDisable` looks at the enabled scenarios again. -/
def RescansCam (p : Platform) (s : PerfService) (k : Nat) : Prop :=
  k < p.nScn ∧ s.checkSuccess k = true ∧ (s.ptScnList k).scn_state ≠ .off ∧
    (s.ptScnList k).scn_wiphy_cam ≤ s.scn_wiphy_cam_now

/-- The packages of the white list that stay enabled ask for no more than the hints and handles
that stay enabled. -/
def PacksCovered (p : Platform) (s : PerfService) (k : Nat) : Prop :=
  ∀ i, SCN_APP_RUN_BASE ≤ i → i ≠ k → s.On p i →
    (s.ptScnList i).scn_wiphy_cam ≤ 0 ∨
      ∃ j < SCN_APP_RUN_BASE, j ≠ k ∧ s.On p j ∧
        (s.ptScnList i).scn_wiphy_cam ≤ (s.ptScnList j).scn_wiphy_cam

/-- A move that keeps the level. -/
def CamKept (p : Platform) (s : PerfService) : Move → Prop
  | .disable k => s.RescansCam p k → s.PacksCovered p k
  | _ => True

/-- What the scan over hints and handles finds is right if and only if the packages are covered. -/
theorem isGreatest_scanCam (hk : s.isOn k = false) :
    IsGreatest (s.asked p ScnNode.scn_wiphy_cam 0)
        (s.scanOn max ScnNode.scn_wiphy_cam 0 SCN_APP_RUN_BASE) ↔ s.PacksCovered p k := by
  have hscan : IsGreatest (requests (fun i => i ∈ List.range SCN_APP_RUN_BASE ∧ s.isOn i = true)
      (fun i => (s.ptScnList i).scn_wiphy_cam) 0)
      (s.scanOn max ScnNode.scn_wiphy_cam 0 SCN_APP_RUN_BASE) := isGreatest_scan _ _ _ _
  have hne : ∀ {i}, s.isOn i = true → i ≠ k := by
    rintro i hi rfl
    exact Bool.false_ne_true (hk.symm.trans hi)
  constructor
  · intro h i hpack _ hi
    have hle := h.2 (.inr ⟨i, hi, rfl⟩)
    rcases hscan.1 with hzero | ⟨j, ⟨hj, hon⟩, hvalue⟩
    · exact .inl (hle.trans_eq hzero)
    · have hlt := List.mem_range.mp hj
      exact .inr ⟨j, hlt, hne hon, ⟨Nat.lt_of_lt_of_le hlt (Nat.le_add_right _ _), hon⟩,
        hle.trans_eq hvalue.symm⟩
  · intro h
    constructor
    · rcases hscan.1 with hzero | ⟨j, ⟨hj, hon⟩, hvalue⟩
      · exact .inl hzero
      · exact .inr ⟨j, ⟨Nat.lt_of_lt_of_le (List.mem_range.mp hj) (Nat.le_add_right _ _), hon⟩,
          hvalue⟩
    · rintro y (rfl | ⟨i, hi, rfl⟩)
      · exact hscan.2 (.inl rfl)
      · by_cases hlow : i < SCN_APP_RUN_BASE
        · exact hscan.2 (.inr ⟨i, ⟨List.mem_range.mpr hlow, hi.2⟩, rfl⟩)
        · rcases h i (Nat.not_lt.mp hlow) (hne hi.2) hi with hzero | ⟨j, hj, -, hon, hle⟩
          · exact hzero.trans (hscan.2 (.inl rfl))
          · exact hle.trans (hscan.2 (.inr ⟨j, ⟨List.mem_range.mpr hj, hon.2⟩, rfl⟩))

/-- Whether the packages are covered does not depend on the scenario that is disabled. -/
theorem packsCovered_off : (s.setState k .off).PacksCovered p k ↔ s.PacksCovered p k := by
  have hon : ∀ i, i ≠ k → ((s.setState k .off).On p i ↔ s.On p i) := fun i hik =>
    (on_setState .off (by rintro ⟨⟩) i).trans (and_iff_right hik)
  have hcam : ∀ i, ((s.setState k .off).ptScnList i).scn_wiphy_cam =
      (s.ptScnList i).scn_wiphy_cam := fun i => by rw [ptScnList_setState]
  unfold PacksCovered
  simp only [hcam]
  refine forall₃_congr fun i _ hik => imp_congr (hon i hik) (or_congr_right ?_)
  refine exists_congr fun j => and_congr_right fun _ => and_congr_right fun hjk => ?_
  exact and_congr_left fun _ => hon j hjk

/-- The level after a scenario is disabled. -/
theorem camFollows_disable (h : s.CamFollows p) (hk : k < p.nScn) :
    (s.perfScnDisable p k).CamFollows p ↔ s.CamKept p (.disable k) := by
  rw [perfScnDisable]
  by_cases hcheck : s.checkSuccess k = true
  · rw [if_pos hcheck]
    by_cases hstate : (s.ptScnList k).scn_state = .off
    · rw [if_pos hstate]
      exact iff_of_true h fun hrescans => absurd hstate hrescans.2.2.1
    rw [if_neg hstate, CamFollows]
    change IsGreatest ((s.setState k .off).asked p ScnNode.scn_wiphy_cam 0)
      (if s.scn_wiphy_cam_now ≥ (s.ptScnList k).scn_wiphy_cam then
        (s.setState k .off).scanOn max ScnNode.scn_wiphy_cam 0 SCN_APP_RUN_BASE
        else s.scn_wiphy_cam_now) ↔ _
    have hoff : (s.setState k .off).isOn k = false := by
      rw [isOn, ptScnList_setState, if_pos rfl]
      rfl
    by_cases hle : (s.ptScnList k).scn_wiphy_cam ≤ s.scn_wiphy_cam_now
    · rw [if_pos hle, isGreatest_scanCam hoff, packsCovered_off]
      exact (imp_iff_right ⟨hk, hcheck, hstate, hle⟩).symm
    · -- A scenario that asks for more than the level is not enabled.
      rw [if_neg hle]
      refine iff_of_true ?_ fun hrescans => absurd hrescans.2.2.2 hle
      have hon : ∀ i, s.On p i ↔ (s.setState k .off).On p i := fun i => by
        refine ((on_setState .off (by rintro ⟨⟩) i).trans (and_iff_right_of_imp ?_)).symm
        rintro hi rfl
        exact hle (h.2 (.inr ⟨i, hi, rfl⟩))
      rw [asked_setState (fun _ _ => rfl), ← requests_congr hon fun _ _ => rfl]
      exact h
  · rw [if_neg hcheck]
    exact iff_of_true h fun hrescans => absurd hrescans.2.1 hcheck

theorem CamFollows.enable (h : s.CamFollows p) (hk : k < p.nScn) :
    (s.perfScnEnable p k).CamFollows p := by
  rw [perfScnEnable]
  split
  · split
    · exact h
    · exact isGreatest_enable hk (fun _ _ => rfl) h
  · exact h

theorem CamFollows.configure (h : s.CamFollows p) (hoff : s.isOn k = false)
    (hscn : scn.scn_state ≠ .on) :
    CamFollows p { s.setScn k scn with nSetCoreMax := s.nSetCoreMax || coreMax } := by
  let s' : PerfService := { s.setScn k scn with nSetCoreMax := s.nSetCoreMax || coreMax }
  have hgrants : SameGrants p s s' := sameGrants_configure hoff hscn
  have hasked : s'.asked p ScnNode.scn_wiphy_cam 0 = s.asked p ScnNode.scn_wiphy_cam 0 :=
    hgrants.asked fun i hi => congrArg ScnNode.scn_wiphy_cam (configure_enabled hoff hi)
  change IsGreatest (s'.asked p ScnNode.scn_wiphy_cam 0) _
  rw [hasked]
  exact h

/-- The Wi-Fi CAM level follows the enabled scenarios in all states of a run if and only if at
each disabling that looks at them again, the packages are covered. -/
theorem camFollows_iff (p : Platform) (moves : List Move) :
    (scenarios p).Along (CamFollows p) (init p) moves ↔
      (scenarios p).Meets (CamKept p) (init p) moves := by
  refine (scenarios p).along_iff_meets_of_stuck (I := fun _ => True) ?_ (fun _ _ _ _ _ => trivial)
    ?_ trivial ?_ moves
  · intro s m hnone
    cases m with
    | enable k => trivial
    | configure k scn coreMax => trivial
    | disable k =>
      exact fun hrescans => absurd hrescans.1 (Nat.not_lt.mpr (le_of_move_eq_none hnone))
  · intro s m s' _ h hm
    rcases move_cases hm with
      ⟨k, rfl, hk, rfl⟩ | ⟨k, rfl, hk, rfl⟩ | ⟨k, scn, coreMax, rfl, hoff, hscn, rfl⟩
    · exact iff_of_true (h.enable hk) trivial
    · exact camFollows_disable h hk
    · exact iff_of_true (h.configure hoff hscn) trivial
  · have hnow : (init p).scn_wiphy_cam_now = 0 := congrArg scn_wiphy_cam_now (bare_init p)
    rw [CamFollows, asked, requests_none (init_idle p).off, hnow]
    exact isGreatest_singleton

/-- A white list whose activity asks for the level 1. -/
def camPack : Platform where
  nClusterNum := 1
  cpuNum := fun _ => 4
  freqMax := fun _ => 1000
  nCpuNum := 4
  nGpuFreqCount := 3
  conTable := []
  ptXmlActList := [⟨"CMD_SET_WIPHY_CAM", "game".toUTF8.toList, "Main".toUTF8.toList, 1, 0⟩]
  cusScnTable := []
  freqMax_nonneg := oneCluster.freqMax_nonneg
  freqMax_le := oneCluster.freqMax_le
  nCpuNum_pos := oneCluster.nCpuNum_pos

/-- The activity is enabled, and then a power hint is enabled and disabled: the level is 0. -/
theorem camFollows_false : ¬ ∀ (p : Platform) (moves : List Move),
    (scenarios p).Along (CamFollows p) (init p) moves := by
  intro h
  have hlisted : SCN_APP_RUN_BASE < camPack.nScn := by decide +kernel
  have hhint : 10 < camPack.nScn := hint_lt_nScn (by decide)
  have hlast := (((h camPack [.enable SCN_APP_RUN_BASE, .enable 10, .disable 10]).2 _
    (step_enable _ hlisted)).2 _ (step_enable _ hhint)).2 _ (step_disable _ hhint)
  have hle := hlast.2 (.inr ⟨SCN_APP_RUN_BASE, ⟨hlisted, by decide +kernel⟩, rfl⟩)
  revert hle
  decide +kernel

end PerfService

end MtkHw.Power
