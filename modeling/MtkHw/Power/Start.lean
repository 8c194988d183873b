import MtkHw.Power.Configure

/-!
# The start of the service

`init` sets up the scenarios while none of them is enabled, so that nothing is granted: `Idle`
states keep being idle when records are written.  When `init` is done each record has been reset,
and the invariants hold.
-/

namespace MtkHw.Power

open Lib

namespace PerfService

/-- Nothing is enabled, and nothing is granted. -/
structure Idle (p : Platform) (s : PerfService) : Prop extends FloorInv p s, LimitInv p s where
  off : ∀ i, ¬ s.On p i

/-- A step of `init`. -/
structure Setup (p : Platform) (s s' : PerfService) : Prop where
  idle : s.Idle p → s'.Idle p
  records : ∀ k, s.RecordOk p k → s'.RecordOk p k
  valid : ∀ k, (s.ptScnList k).scn_valid ≠ 0 → (s'.ptScnList k).scn_valid ≠ 0

variable {p : Platform} {s s' t : PerfService} {k : Nat}

theorem Setup.refl : Setup p s s := ⟨id, fun _ => id, fun _ => id⟩

theorem Setup.trans (h : Setup p s s') (h' : Setup p s' t) : Setup p s t :=
  ⟨h'.idle ∘ h.idle, fun k => h'.records k ∘ h.records k, fun k => h'.valid k ∘ h.valid k⟩

/-- A loop of `init`. -/
theorem Setup.foldl {α : Type} {f : PerfService → α → PerfService} (h : ∀ s a, Setup p s (f s a))
    (as : List α) (s : PerfService) : Setup p s (as.foldl f s) := by
  induction as generalizing s with
  | nil => exact .refl
  | cons a as ih => exact (h s a).trans (ih (f s a))

theorem Idle.congr (h : s.Idle p) (hsame : SameGrants p s s') : s'.Idle p where
  toFloorInv := h.toFloorInv.congr hsame fun i hi => absurd hi (h.off i)
  toLimitInv := h.toLimitInv.congr hsame fun i hi => absurd hi (h.off i)
  off i hi := h.off i ((hsame.on i).mp hi)

/-- A record is written. -/
theorem Setup.setScn {scn : ScnNode} (hscn : scn.scn_state ≠ .on)
    (hnode : s.RecordOk p k → NodeOk p s.nSetFreqMax s.nSetGpuFreqMax scn)
    (hvalid : (s.ptScnList k).scn_valid ≠ 0 → scn.scn_valid ≠ 0) :
    Setup p s (s.setScn k scn) where
  idle h := h.congr (.setScn (h.off k) hscn)
  records i hi := by
    by_cases hik : i = k
    · subst hik
      rw [RecordOk, setScn_self]
      exact hnode hi
    · rw [RecordOk, setScn_other s scn hik]
      exact hi
  valid i hi := by
    by_cases hik : i = k
    · subst hik
      rw [setScn_self]
      exact hvalid hi
    · rw [setScn_other s scn hik]
      exact hi

theorem Setup.configured {floor limit : Bool} (h : Configured p s k floor limit s') :
    Setup p s s' where
  idle hidle := hidle.congr h.sameGrants
  records _ hok := h.records hok
  valid i hi := by
    by_cases hik : i = k
    · subst hik
      rwa [h.identity.scn_valid]
    · rwa [h.others i hik]

/-! ## The loops of init -/

/-- The body of the loop of `resetRange`. -/
theorem setup_resetType (p : Platform) (s : PerfService) (scn_type : Int) (i : Nat) :
    let s' := s.resetScenario p i
    Setup p s (s'.setScn i { s'.ptScnList i with scn_type := scn_type }) := by
  have hreset : Setup p s (s.resetScenario p i) :=
    .setScn (by rintro ⟨⟩) (fun _ => nodeOk_resetNode p s _ _ _) fun _ => one_ne_zero
  refine hreset.trans (.setScn ?_ (fun hok => ?_) id)
  · rw [resetScenario, setScn_self]
    rintro ⟨⟩
  · exact ⟨hok.freqMin, hok.freqMax, hok.gpuFreqMax, hok.cpuset⟩

theorem resetType_record (p : Platform) (s : PerfService) (scn_type : Int) (i : Nat) :
    let s' := s.resetScenario p i
    (s'.setScn i { s'.ptScnList i with scn_type := scn_type }).RecordOk p i := by
  have hreset : (s.resetScenario p i).RecordOk p i := by
    rw [RecordOk, resetScenario, setScn_self]
    exact nodeOk_resetNode p s _ _ _
  dsimp only
  rw [RecordOk, setScn_self]
  exact ⟨hreset.freqMin, hreset.freqMax, hreset.gpuFreqMax, hreset.cpuset⟩

theorem setup_resetRange (p : Platform) (s : PerfService) (base num : Nat) (scn_type : Int) :
    Setup p s (s.resetRange p base num scn_type) :=
  .foldl (fun s i => setup_resetType p s scn_type i) _ s

/-- The records that were reset. -/
theorem resetRange_record {base num : Nat} {scn_type : Int} (hk : base ≤ k ∧ k < base + num) :
    (s.resetRange p base num scn_type).RecordOk p k := by
  obtain ⟨before, after, hrange⟩ := List.append_of_mem (List.mem_range'_1.mpr hk)
  rw [resetRange, hrange, List.foldl_append, List.foldl_cons]
  refine (Setup.foldl (fun s i => setup_resetType p s scn_type i) after _).records k ?_
  exact resetType_record p _ scn_type k

/-- The scenarios that were reset are valid. -/
theorem resetRange_valid {base num : Nat} {scn_type : Int} (hk : base ≤ k ∧ k < base + num) :
    ((s.resetRange p base num scn_type).ptScnList k).scn_valid ≠ 0 := by
  obtain ⟨before, after, hrange⟩ := List.append_of_mem (List.mem_range'_1.mpr hk)
  rw [resetRange, hrange, List.foldl_append, List.foldl_cons]
  refine (Setup.foldl (fun s i => setup_resetType p s scn_type i) after _).valid k ?_
  rw [setScn_self, resetScenario, setScn_self]
  exact one_ne_zero

theorem setup_updateRow (p : Platform) (r : PerfService × List (List UInt8)) (row : XmlActivity) :
    Setup p r.1 (updateRow p r row).1 := by
  rw [updateRow]
  split
  · refine .trans ?_ (.configured (cmdSetting_configured p _ _ _ _ _ _))
    split
    · refine .setScn (by rintro ⟨⟩) (fun hok => ?_) fun _ => one_ne_zero
      exact ⟨hok.freqMin, hok.freqMax, hok.gpuFreqMax, hok.cpuset⟩
    · exact .refl
  · exact .refl

theorem setup_updateScnListfromXML (p : Platform) (s : PerfService) (rows : List XmlActivity) :
    Setup p s (s.updateScnListfromXML p rows) := by
  have hrows : ∀ r, Setup p r.1 (rows.foldl (updateRow p) r).1 := by
    induction rows with
    | nil => exact fun _ => .refl
    | cons row rows ih => exact fun r => (setup_updateRow p r row).trans (ih (updateRow p r row))
  exact hrows (s, [])

theorem setup_updateCusScnTable (p : Platform) (s : PerfService) (lines : List CusScn) :
    Setup p s (s.updateCusScnTable p lines) :=
  .foldl (fun s _ => .configured (cmdSetting_configured p s _ _ _ _ _)) lines s

/-! ## The start state -/

theorem loadConTable_curVal (lines : List ConLine) (idx : Nat) :
    (loadConTable lines idx).curVal = (loadConTable lines idx).resetVal := by
  rw [loadConTable]
  cases lines[idx]? with
  | none => rfl
  | some line => rfl

theorem nCpuSet_ne_zero (p : Platform) : p.nCpuSet ≠ 0 := by
  have hpos : (1 : Int) < 2 ^ p.nCpuNum :=
    mod_cast Nat.one_lt_two_pow p.nCpuNum_pos.ne'
  rw [Platform.nCpuSet]
  omega

theorem zero_idle (p : Platform) : (zero p).Idle p := by
  have hoff : ∀ i, ¬ (zero p).On p i := fun i hi => Bool.false_ne_true hi.2
  have hasked : ∀ value default, (zero p).asked p value default = {default} :=
    fun value default => requests_none hoff
  have hgreatest : ∀ value, IsGreatest ((zero p).asked p value 0) 0 := by
    intro value
    rw [hasked]
    exact isGreatest_singleton
  constructor
  · constructor
    · refine ⟨hgreatest _, hgreatest _, hgreatest _, hgreatest _, fun _ _ => hgreatest _,
        fun _ _ => hgreatest _, fun _ _ => hgreatest _, fun idx _ => ?_⟩
      rw [BestEntry, hasked]
      have hcur : ((zero p).tConTable idx).curVal = ((zero p).tConTable idx).resetVal :=
        loadConTable_curVal p.conTable idx
      rw [hcur]
      split
      · exact isLeast_singleton
      · exact isGreatest_singleton
    · exact fun idx _ => loadConTable_curVal p.conTable idx
    · exact fun i hi => absurd hi (hoff i)
  · constructor
    · rw [hasked]
      exact isLeast_singleton
    · intro i _
      rw [hasked]
      refine ⟨p.freqMax i, isLeast_singleton, ?_, fun _ => rfl⟩
      exact (min_self _).trans (max_eq_right (p.freqMax_nonneg i)).symm
    · refine ⟨p.nCpuSet, fun b => ?_, (nonemptyCpuset_of_ne (nCpuSet_ne_zero p)).symm⟩
      exact (and_iff_left fun i hi => absurd hi (hoff i)).symm
  · exact hoff

/-- Nothing is enabled when `init` is done. -/
theorem init_idle (p : Platform) : (init p).Idle p := by
  apply (setup_updateCusScnTable p _ _).idle
  apply (setup_resetRange p _ _ _ _).idle
  apply (setup_updateScnListfromXML p _ _).idle
  apply (setup_resetRange p _ _ _ _).idle
  apply (setup_resetRange p _ _ _ _).idle
  exact zero_idle p

/-- Each record has been reset: those of the hints, those of the users and those of the packages
of the white list. -/
theorem init_record (p : Platform) (hk : k < p.nScn) : (init p).RecordOk p k := by
  apply (setup_updateCusScnTable p _ _).records
  by_cases huser : nUserScnBase ≤ k ∧ k < nUserScnBase + REG_SCN_MAX
  · exact resetRange_record huser
  · apply (setup_resetRange p _ _ _ _).records
    apply (setup_updateScnListfromXML p _ _).records
    by_cases hpack : SCN_APP_RUN_BASE ≤ k
    · exact resetRange_record ⟨hpack, hk⟩
    · apply (setup_resetRange p _ _ _ _).records
      apply resetRange_record
      unfold nUserScnBase SCN_APP_RUN_BASE at *
      omega

/-- The packages of the white list are valid. -/
theorem init_valid (p : Platform) (hpack : SCN_APP_RUN_BASE ≤ k) (hk : k < p.nScn) :
    ((init p).ptScnList k).scn_valid ≠ 0 := by
  apply (setup_updateCusScnTable p _ _).valid
  apply (setup_resetRange p _ _ _ _).valid
  apply (setup_updateScnListfromXML p _ _).valid
  exact resetRange_valid ⟨hpack, hk⟩

theorem init_inv (p : Platform) : (init p).Inv p where
  toFloorInv := (init_idle p).toFloorInv
  toLimitInv := (init_idle p).toLimitInv
  records _ hk := init_record p hk

end PerfService

end MtkHw.Power
