import MtkHw.Power.Arbitration

/-!
# The white list

`perfNotifyAppState` and the scenarios of the packages.  The list has an entry for each name of an
activity, with the package of the first row that has the name.  The entries whose name begins with
"Common" are for all other activities of a package.

A machine runs the calls with `STATE_RESUMED`, and remembers which activity was resumed last, so
that it can be said which entries are to be enabled (`Followed`).
-/

namespace MtkHw.Power

open Lib

/-- The states of an application. -/
inductive AppState where
  | paused
  | resumed
  | destroyed
  | dead
  | stopped
  deriving DecidableEq, Repr

/-- The name is that of the entry for the other activities of a package. -/
def isCommon (actName : List UInt8) : Bool := actName.take 6 = "Common".toUTF8.toList

/-- The variables of the loop over the white list. -/
structure PackScan where
  service : PerfService
  Act_Match : Bool
  Common_index : Option Nat
  ret : Nat

namespace PerfService

variable (p : Platform) (s : PerfService)

/-- `pPackList[i]`. -/
def pPackList (i : Nat) : ScnNode := s.ptScnList (SCN_APP_RUN_BASE + i)

/-- The number of entries of the white list. -/
def nPackNum : Nat := get_activity_totalnum p.ptXmlActList

/-- A match whose boost ends after a time is returned. -/
def matchRet (i ret : Nat) : Nat :=
  if (s.pPackList i).boost_timeout ≥ 0 then SCN_APP_RUN_BASE + i else ret

/-- The body of the loop over the white list. -/
def packStep (packName actName : List UInt8) (r : PackScan) (i : Nat) : PackScan :=
  let scn := r.service.pPackList i
  if isCommon scn.act_name then
    if scn.pack_name = packName then { r with Common_index := some i }
    else { r with service := r.service.perfScnDisable p (SCN_APP_RUN_BASE + i) }
  else if scn.pack_name = packName ∧ scn.act_name = actName then
    { r with
      Act_Match := true
      ret := r.service.matchRet i r.ret
      service := r.service.perfScnEnable p (SCN_APP_RUN_BASE + i) }
  else { r with service := r.service.perfScnDisable p (SCN_APP_RUN_BASE + i) }

/-- The loop over the white list. -/
def scanPacks (packName actName : List UInt8) : PackScan :=
  (List.range (nPackNum p)).foldl (packStep p packName actName) ⟨s, false, none, 0⟩

/-- The white list is checked. -/
def checkWhiteList (packName actName : List UInt8) : PerfService × Nat :=
  let r := s.scanPacks p packName actName
  match r.Common_index with
  | none => (r.service, r.ret)
  | some i =>
      if r.Act_Match then (r.service.perfScnDisable p (SCN_APP_RUN_BASE + i), r.ret)
      else (r.service.perfScnEnable p (SCN_APP_RUN_BASE + i), r.service.matchRet i r.ret)

/-- The package in the foreground changes; `benchmark` says whether it is in the list of
benchmarks. -/
def changePack (packName : List UInt8) (pid : Int) (benchmark : Bool) : PerfService :=
  if s.foreground_pack = packName then s
  else
    { s with
      foreground_pack := set_str_cpy packName PACK_NAME_MAX
      last_boost_tid := pid }.switchSportsMode p .benchmark benchmark

/-- The activity in the foreground changes. -/
def changeAct (packName actName : List UInt8) : PerfService × Nat :=
  if s.foreground_act = actName then (s, 0)
  else
    { s with foreground_act := set_str_cpy actName CLASS_NAME_MAX }.checkWhiteList p
      packName actName

/-- `perfNotifyAppState`. -/
def perfNotifyAppState (packName : Option (List UInt8)) (actName : List UInt8) (state : AppState)
    (pid : Int) (benchmark : Bool) : PerfService × Nat :=
  match packName with
  | none => (s, 0)
  | some packName =>
      if state = .resumed then
        let r := s.changeAct p packName actName
        (r.1.changePack p packName pid benchmark, r.2)
      else (s, 0)

end PerfService

/-! ## Resumed activities -/

/-- A call of `perfNotifyAppState` with `STATE_RESUMED`. -/
structure Resume where
  packName : Option (List UInt8)
  actName : List UInt8
  pid : Int
  benchmark : Bool

/-- The service, and the package and the activity that were resumed last. -/
structure Foreground where
  service : PerfService
  resumed : Option (List UInt8 × List UInt8)

namespace Foreground

/-- The service is told of an activity that is resumed. -/
def notify (p : Platform) (s : Foreground) (c : Resume) : Foreground where
  service := (s.service.perfNotifyAppState p c.packName c.actName .resumed c.pid c.benchmark).1
  resumed :=
    match c.packName with
    | none => s.resumed
    | some packName => some (packName, c.actName)

end Foreground

/-- The white list as a machine whose steps are the activities that are resumed. -/
def whiteList (p : Platform) : Machine Foreground Resume where
  init := ⟨.init p, none⟩
  step s c := some (s.notify p c)

namespace PerfService

/-- The names of an entry of the white list. -/
def entry (s : PerfService) (i : Nat) : List UInt8 × List UInt8 :=
  ((s.pPackList i).pack_name, (s.pPackList i).act_name)

/-- The activity has an entry of its own. -/
def Listed (p : Platform) (s : PerfService) (act : List UInt8 × List UInt8) : Prop :=
  ∃ i < nPackNum p, s.entry i = act

/-- The entry for the other activities of a package: the last one. -/
def commonOf (p : Platform) (s : PerfService) (packName : List UInt8) : Option Nat :=
  ((List.range (nPackNum p)).filter fun i =>
    isCommon (s.entry i).2 ∧ (s.entry i).1 = packName).getLast?

/-- The entry is to be enabled for an activity: it is the activity's own, or, if the activity has
none, the common one of its package. -/
def Prescribed (p : Platform) (s : PerfService) (act : List UInt8 × List UInt8) (i : Nat) : Prop :=
  s.entry i = act ∨ ¬ s.Listed p act ∧ s.commonOf p act.1 = some i

end PerfService

/-- The entries that are enabled are those of the activity that was resumed last. -/
def Foreground.Followed (p : Platform) (s : Foreground) : Prop :=
  ∀ act, s.resumed = some act → ∀ i < PerfService.nPackNum p,
    s.service.isOn (SCN_APP_RUN_BASE + i) = true ↔ s.service.Prescribed p act i

/-- The call makes a difference where one is needed: the name of the activity is a new one, or the
same entries are to be enabled as before; and an entry with a common name, but of its own, is the
common one of its package. -/
def Foreground.Noticed (p : Platform) (s : Foreground) (c : Resume) : Prop :=
  ∀ packName, c.packName = some packName →
    if s.service.foreground_act = c.actName then
      ∀ i < PerfService.nPackNum p, s.service.Prescribed p (packName, c.actName) i ↔
        ∃ act, s.resumed = some act ∧ s.service.Prescribed p act i
    else
      isCommon c.actName = true → ∀ i < PerfService.nPackNum p,
        s.service.entry i = (packName, c.actName) → s.service.commonOf p packName = some i

namespace PerfService

variable {p : Platform} {s s' t : PerfService} {k : Nat} {packName actName : List UInt8}

/-! ## One scenario -/

/-- The names of the entries stay, and whether they are valid. -/
structure SameList (s s' : PerfService) : Prop where
  entry : ∀ i, s'.entry i = s.entry i
  valid : ∀ i, (s'.pPackList i).scn_valid = (s.pPackList i).scn_valid

theorem SameList.refl (s : PerfService) : SameList s s := ⟨fun _ => rfl, fun _ => rfl⟩

theorem SameList.trans (h : SameList s s') (h' : SameList s' t) : SameList s t :=
  ⟨fun i => (h'.entry i).trans (h.entry i), fun i => (h'.valid i).trans (h.valid i)⟩

theorem SameList.setState (s : PerfService) (k : Nat) (state : ScnState) :
    SameList s (s.setState k state) := by
  constructor
  · intro i
    simp only [PerfService.entry, pPackList, ptScnList_setState]
  · intro i
    simp only [pPackList, ptScnList_setState]

theorem SameList.perfScnEnable (p : Platform) (s : PerfService) (k : Nat) :
    SameList s (s.perfScnEnable p k) := by
  rw [PerfService.perfScnEnable]
  split
  · split
    · exact .refl s
    · have hstate := SameList.setState s k .on
      exact ⟨hstate.entry, hstate.valid⟩
  · exact .refl s

theorem SameList.perfScnDisable (p : Platform) (s : PerfService) (k : Nat) :
    SameList s (s.perfScnDisable p k) := by
  rw [PerfService.perfScnDisable]
  split
  · split
    · exact .refl s
    · have hstate := SameList.setState s k .off
      exact ⟨hstate.entry, hstate.valid⟩
  · exact .refl s

theorem isOn_setState (s : PerfService) (k : Nat) (state : ScnState) (i : Nat) :
    (s.setState k state).isOn i = if i = k then decide (state = .on) else s.isOn i := by
  rw [isOn, isOn, ptScnList_setState]
  split
  · rfl
  · rfl

/-- A scenario that passes the check is enabled, and no other. -/
theorem isOn_perfScnEnable (hcheck : s.checkSuccess k = true) (i : Nat) :
    (s.perfScnEnable p k).isOn i = if i = k then true else s.isOn i := by
  rw [PerfService.perfScnEnable, if_pos hcheck]
  split
  · rename_i hon
    split
    · rename_i hik
      rw [hik]
      exact hon
    · rfl
  · exact isOn_setState s k .on i

theorem isOn_perfScnDisable (hcheck : s.checkSuccess k = true) (i : Nat) :
    (s.perfScnDisable p k).isOn i = if i = k then false else s.isOn i := by
  rw [PerfService.perfScnDisable, if_pos hcheck]
  split
  · rename_i hoff
    split
    · rename_i hik
      rw [hik, isOn, hoff]
      rfl
    · rfl
  · exact isOn_setState s k .off i

/-- A hint is enabled or disabled: the white list stays. -/
theorem isOn_enableHint (hk : k < SCN_APP_RUN_BASE) (i : Nat) :
    (s.perfScnEnable p k).isOn (SCN_APP_RUN_BASE + i) = s.isOn (SCN_APP_RUN_BASE + i) := by
  cases hcheck : s.checkSuccess k with
  | false => rw [PerfService.perfScnEnable, hcheck, if_neg Bool.false_ne_true]
  | true => rw [isOn_perfScnEnable hcheck, if_neg (by omega)]

theorem isOn_disableHint (hk : k < SCN_APP_RUN_BASE) (i : Nat) :
    (s.perfScnDisable p k).isOn (SCN_APP_RUN_BASE + i) = s.isOn (SCN_APP_RUN_BASE + i) := by
  cases hcheck : s.checkSuccess k with
  | false => rw [PerfService.perfScnDisable, hcheck, if_neg Bool.false_ne_true]
  | true => rw [isOn_perfScnDisable hcheck, if_neg (by omega)]

/-- A package that is valid passes the check. -/
theorem checkSuccess_pack {i : Nat} (h : (s.pPackList i).scn_valid ≠ 0) :
    s.checkSuccess (SCN_APP_RUN_BASE + i) = true :=
  decide_eq_true (.inl ⟨.inr (Nat.le_add_right _ _),
    (by decide : 0 < SCN_APP_RUN_BASE).trans_le (Nat.le_add_right _ _), h⟩)

/-! ## The loop -/

/-- The entry is the activity's own, and not a common one. -/
def Own (s : PerfService) (act : List UInt8 × List UInt8) (i : Nat) : Prop :=
  isCommon (s.entry i).2 = false ∧ s.entry i = act

/-- The common entries of a package. -/
def isCommonOf (s : PerfService) (packName : List UInt8) (i : Nat) : Bool :=
  isCommon (s.entry i).2 ∧ (s.entry i).1 = packName

/-- The loop has reached the entry `m`. -/
structure Scanned (s : PerfService) (packName actName : List UInt8) (m : Nat) (r : PackScan) :
    Prop where
  list : SameList s r.service
  Act_Match : r.Act_Match = true ↔ ∃ i < m, s.Own (packName, actName) i
  Common_index : r.Common_index = ((List.range m).filter (s.isCommonOf packName)).getLast?
  reached : ∀ i < m, r.service.isOn (SCN_APP_RUN_BASE + i) = true ↔
    s.Own (packName, actName) i ∨
      s.isCommonOf packName i = true ∧ s.isOn (SCN_APP_RUN_BASE + i) = true
  others : ∀ i, m ≤ i → r.service.isOn (SCN_APP_RUN_BASE + i) = s.isOn (SCN_APP_RUN_BASE + i)

theorem exists_lt_succ {m : Nat} {P : Nat → Prop} : (∃ i < m + 1, P i) ↔ P m ∨ ∃ i < m, P i := by
  constructor
  · rintro ⟨i, hi, hP⟩
    rcases Nat.lt_succ_iff_lt_or_eq.mp hi with hlt | rfl
    · exact .inr ⟨i, hlt, hP⟩
    · exact .inl hP
  · rintro (hP | ⟨i, hi, hP⟩)
    · exact ⟨m, Nat.lt_succ_self m, hP⟩
    · exact ⟨i, Nat.lt_succ_of_lt hi, hP⟩

/-- The last common entry so far. -/
theorem getLast?_range_succ (q : Nat → Bool) (m : Nat) :
    ((List.range (m + 1)).filter q).getLast? =
      if q m then some m else ((List.range m).filter q).getLast? := by
  rw [List.range_succ, List.filter_append]
  cases hq : q m with
  | true =>
    rw [List.filter_cons_of_pos hq, List.getLast?_append]
    rfl
  | false =>
    rw [List.filter_cons_of_neg (by rw [hq]; exact Bool.false_ne_true), List.filter_nil,
      List.append_nil]
    rfl

/-- An entry that is turned off, or on if it is the activity's own. -/
theorem Scanned.turn {m : Nat} {r : PackScan} {ret : Nat} {service : PerfService}
    (h : Scanned s packName actName m r) (own : Bool) (hcommon : s.isCommonOf packName m = false)
    (hown : own = true ↔ s.Own (packName, actName) m) (hlist : SameList r.service service)
    (hon : ∀ i, service.isOn (SCN_APP_RUN_BASE + i) =
      if i = m then own else r.service.isOn (SCN_APP_RUN_BASE + i)) :
    Scanned s packName actName (m + 1)
      { service := service
        Act_Match := own || r.Act_Match
        Common_index := r.Common_index
        ret := ret } := by
  constructor
  · exact h.list.trans hlist
  · rw [exists_lt_succ, Bool.or_eq_true]
    exact or_congr hown h.Act_Match
  · rw [getLast?_range_succ, hcommon]
    exact h.Common_index
  · intro i hi
    rw [hon]
    rcases Nat.lt_succ_iff_lt_or_eq.mp hi with hlt | rfl
    · rw [if_neg hlt.ne]
      exact h.reached i hlt
    · rw [if_pos rfl, hcommon, hown]
      exact (or_iff_left fun hfalse => Bool.false_ne_true hfalse.1).symm
  · intro i hi
    rw [hon, if_neg (by omega)]
    exact h.others i (by omega)

theorem scanned_packStep {m : Nat} {r : PackScan} (h : Scanned s packName actName m r)
    (hvalid : (s.pPackList m).scn_valid ≠ 0) :
    Scanned s packName actName (m + 1) (packStep p packName actName r m) := by
  have hentry := h.list.entry m
  have hcheck : r.service.checkSuccess (SCN_APP_RUN_BASE + m) = true :=
    checkSuccess_pack (by rwa [h.list.valid])
  have hpack : (r.service.pPackList m).pack_name = (s.entry m).1 := congrArg Prod.fst hentry
  have hact : (r.service.pPackList m).act_name = (s.entry m).2 := congrArg Prod.snd hentry
  have hindex : ∀ i, (SCN_APP_RUN_BASE + i = SCN_APP_RUN_BASE + m) = (i = m) := fun i =>
    propext ⟨Nat.add_left_cancel, congrArg _⟩
  have hdisabled : ∀ i, (r.service.perfScnDisable p (SCN_APP_RUN_BASE + m)).isOn
      (SCN_APP_RUN_BASE + i) = if i = m then false else r.service.isOn (SCN_APP_RUN_BASE + i) := by
    intro i
    rw [isOn_perfScnDisable hcheck]
    simp only [hindex]
  rw [packStep, hpack, hact]
  split
  · rename_i hcommon
    have hnot : ¬ s.Own (packName, actName) m := by
      rintro ⟨hown, -⟩
      rw [hcommon] at hown
      cases hown
    split
    · rename_i hsame
      have hof : s.isCommonOf packName m = true := decide_eq_true ⟨hcommon, hsame⟩
      constructor
      · exact h.list
      · rw [exists_lt_succ, or_iff_right hnot]
        exact h.Act_Match
      · rw [getLast?_range_succ, hof]
        rfl
      · intro i hi
        rcases Nat.lt_succ_iff_lt_or_eq.mp hi with hlt | rfl
        · exact h.reached i hlt
        · rw [h.others i le_rfl, hof, or_iff_right hnot]
          exact (and_iff_right rfl).symm
      · exact fun i hi => h.others i (by omega)
    · rename_i hother
      have hof : s.isCommonOf packName m = false := decide_eq_false fun hboth => hother hboth.2
      exact h.turn false hof (iff_of_false Bool.false_ne_true hnot)
        (.perfScnDisable p _ _) hdisabled
  · rename_i hcommon
    have hfalse : isCommon (s.entry m).2 = false := Bool.not_eq_true _ ▸ hcommon
    have hof : s.isCommonOf packName m = false := decide_eq_false fun hboth => hcommon hboth.1
    split
    · rename_i hboth
      have hown : s.Own (packName, actName) m := ⟨hfalse, Prod.ext hboth.1 hboth.2⟩
      refine h.turn true hof (iff_of_true rfl hown) (.perfScnEnable p _ _) fun i => ?_
      rw [isOn_perfScnEnable hcheck]
      simp only [hindex]
    · rename_i hneither
      have hnot : ¬ s.Own (packName, actName) m := fun hown =>
        hneither ⟨congrArg Prod.fst hown.2, congrArg Prod.snd hown.2⟩
      exact h.turn false hof (iff_of_false Bool.false_ne_true hnot)
        (.perfScnDisable p _ _) hdisabled

/-- What holds of the white list in every state: the entries are valid, and a common entry that is
not the last of its package is never enabled. -/
structure ListInv (p : Platform) (s : PerfService) : Prop where
  valid : ∀ i < nPackNum p, (s.pPackList i).scn_valid ≠ 0
  common : ∀ i < nPackNum p, isCommon (s.entry i).2 = true → s.commonOf p (s.entry i).1 ≠ some i →
    s.isOn (SCN_APP_RUN_BASE + i) = false

/-- The loop over the white list. -/
theorem scanned_scanPacks (hvalid : ∀ i < nPackNum p, (s.pPackList i).scn_valid ≠ 0)
    (packName actName : List UInt8) :
    Scanned s packName actName (nPackNum p) (s.scanPacks p packName actName) := by
  have hloop : ∀ m ≤ nPackNum p, Scanned s packName actName m
      ((List.range m).foldl (packStep p packName actName) ⟨s, false, none, 0⟩) := by
    intro m
    induction m with
    | zero =>
      intro _
      constructor
      · exact .refl s
      · exact iff_of_false Bool.false_ne_true fun ⟨i, hi, _⟩ => absurd hi (Nat.not_lt_zero i)
      · rfl
      · exact fun i hi => absurd hi (Nat.not_lt_zero i)
      · exact fun _ _ => rfl
    | succ m ih =>
      intro hm
      rw [List.range_succ, List.foldl_append]
      exact scanned_packStep (ih (by omega)) (hvalid m hm)
  exact hloop _ le_rfl

/-- The common entry of a package. -/
theorem of_commonOf {i : Nat} (h : s.commonOf p packName = some i) :
    i < nPackNum p ∧ isCommon (s.entry i).2 = true ∧ (s.entry i).1 = packName := by
  have hmem := List.mem_filter.mp (List.mem_of_getLast? h)
  exact ⟨List.mem_range.mp hmem.1, of_decide_eq_true hmem.2⟩

theorem isOn_checkWhiteList (h : s.ListInv p) (packName actName : List UInt8) {i : Nat}
    (hi : i < nPackNum p) :
    (s.checkWhiteList p packName actName).1.isOn (SCN_APP_RUN_BASE + i) = true ↔
      s.Own (packName, actName) i ∨
        s.commonOf p packName = some i ∧ ¬ ∃ j < nPackNum p, s.Own (packName, actName) j := by
  have hscan := scanned_scanPacks h.valid packName actName
  have hreached := hscan.reached i hi
  have hcommon : (s.scanPacks p packName actName).Common_index = s.commonOf p packName :=
    hscan.Common_index
  rw [checkWhiteList]
  -- A common entry of the package is on before the end only if it is the last one.
  have hearly : s.isCommonOf packName i = true ∧ s.isOn (SCN_APP_RUN_BASE + i) = true →
      s.commonOf p packName = some i := by
    rintro ⟨hof, hon⟩
    by_contra hne
    obtain ⟨hname, hpack⟩ := of_decide_eq_true hof
    have hoff := h.common i hi hname (by rwa [hpack])
    rw [hon] at hoff
    cases hoff
  have hnotOwn : s.commonOf p packName = some i → ¬ s.Own (packName, actName) i := by
    intro hlast hown
    have hname := (of_commonOf hlast).2.1
    rw [hown.1] at hname
    cases hname
  rw [hcommon]
  cases hindex : s.commonOf p packName with
  | none =>
    rw [hindex] at hearly
    dsimp only
    rw [hreached]
    refine or_congr_right (iff_of_false (fun hboth => ?_) fun hboth => ?_)
    · cases hearly hboth
    · cases hboth.1
  | some j =>
    rw [hindex] at hearly hnotOwn
    have hj := (of_commonOf hindex).1
    have hcheck : (s.scanPacks p packName actName).service.checkSuccess (SCN_APP_RUN_BASE + j) =
        true := checkSuccess_pack (by rw [hscan.list.valid]; exact h.valid j hj)
    have hsame : (SCN_APP_RUN_BASE + i = SCN_APP_RUN_BASE + j) ↔ j = i :=
      ⟨fun heq => (Nat.add_left_cancel heq).symm, fun heq => by rw [heq]⟩
    have hrest : j ≠ i → ((s.scanPacks p packName actName).service.isOn (SCN_APP_RUN_BASE + i) =
        true ↔ s.Own (packName, actName) i) := by
      intro hne
      rw [hreached]
      exact or_iff_left fun hboth => hne (Option.some.inj (hearly hboth))
    dsimp only
    split
    · rename_i hmatch
      rw [isOn_perfScnDisable hcheck]
      by_cases hji : j = i
      · rw [if_pos (hsame.mpr hji)]
        refine iff_of_false Bool.false_ne_true ?_
        rintro (hown | ⟨-, hnone⟩)
        · exact hnotOwn (congrArg some hji) hown
        · exact hnone (hscan.Act_Match.mp hmatch)
      · rw [if_neg (mt hsame.mp hji), hrest hji]
        exact (or_iff_left fun hboth => hji (Option.some.inj hboth.1)).symm
    · rename_i hmatch
      rw [isOn_perfScnEnable hcheck]
      by_cases hji : j = i
      · rw [if_pos (hsame.mpr hji)]
        exact iff_of_true rfl (.inr ⟨congrArg some hji, mt hscan.Act_Match.mpr hmatch⟩)
      · rw [if_neg (mt hsame.mp hji), hrest hji]
        exact (or_iff_left fun hboth => hji (Option.some.inj hboth.1)).symm

theorem SameList.checkWhiteList (hvalid : ∀ i < nPackNum p, (s.pPackList i).scn_valid ≠ 0)
    (packName actName : List UInt8) : SameList s (s.checkWhiteList p packName actName).1 := by
  have hscan := scanned_scanPacks hvalid packName actName
  rw [PerfService.checkWhiteList]
  split
  · exact hscan.list
  · split
    · exact hscan.list.trans (.perfScnDisable p _ _)
    · exact hscan.list.trans (.perfScnEnable p _ _)

/-! ## One call -/

/-- The list stays, and which of its entries are enabled. -/
structure SamePacks (s s' : PerfService) : Prop where
  list : SameList s s'
  on : ∀ i, s'.isOn (SCN_APP_RUN_BASE + i) = s.isOn (SCN_APP_RUN_BASE + i)

theorem SamePacks.refl (s : PerfService) : SamePacks s s := ⟨.refl s, fun _ => rfl⟩

theorem samePacks_switchSportsMode (p : Platform) (s : PerfService) (reason : SportsReason)
    (bEnable : Bool) : SamePacks s (s.switchSportsMode p reason bEnable) := by
  have hnote : (s.noteSports reason bEnable).ptScnList = s.ptScnList := by
    cases reason with
    | benchmark => rfl
    | userNotify => rfl
  have hsame : ∀ t : PerfService, t.ptScnList = s.ptScnList → SamePacks s t := by
    intro t ht
    constructor
    · constructor
      · intro i
        rw [entry, entry, pPackList, pPackList, ht]
      · intro i
        rw [pPackList, pPackList, ht]
    · intro i
      rw [isOn, isOn, ht]
  rw [switchSportsMode]
  generalize (if (s.noteSports reason bEnable).nCurrBenchmarkMode = true ∨
    (s.noteSports reason bEnable).nUserNotifyBenchmark = true then PowerMode.sports
    else PowerMode.normal) = newPowerMode
  split
  · exact hsame _ hnote
  · cases newPowerMode with
    | sports =>
      have hmode := hsame (({ s.noteSports reason bEnable with
        nCurrPowerMode := .sports } : PerfService).switchNormalAndSportMode .sports) hnote
      exact ⟨hmode.list.trans (.perfScnEnable p _ _),
        fun i => (isOn_enableHint (by decide) i).trans (hmode.on i)⟩
    | normal =>
      have hmode := hsame (({ s.noteSports reason bEnable with
        nCurrPowerMode := .normal } : PerfService).switchNormalAndSportMode .normal) hnote
      exact ⟨hmode.list.trans (.perfScnDisable p _ _),
        fun i => (isOn_disableHint (by decide) i).trans (hmode.on i)⟩

theorem samePacks_changePack (p : Platform) (s : PerfService) (packName : List UInt8) (pid : Int)
    (benchmark : Bool) : SamePacks s (s.changePack p packName pid benchmark) := by
  rw [changePack]
  split
  · exact .refl s
  · have hswitch := samePacks_switchSportsMode p
      { s with foreground_pack := set_str_cpy packName PACK_NAME_MAX, last_boost_tid := pid }
      .benchmark benchmark
    exact ⟨⟨hswitch.list.entry, hswitch.list.valid⟩, hswitch.on⟩

/-- What the list prescribes depends only on the names. -/
theorem SameList.commonOf (h : SameList s s') (packName : List UInt8) :
    s'.commonOf p packName = s.commonOf p packName := by
  simp only [PerfService.commonOf, h.entry]

theorem SameList.prescribed (h : SameList s s') (act : List UInt8 × List UInt8) (i : Nat) :
    s'.Prescribed p act i ↔ s.Prescribed p act i := by
  simp only [Prescribed, Listed, h.entry, h.commonOf]

theorem ListInv.congr (h : s.ListInv p) (hsame : SamePacks s s') : s'.ListInv p where
  valid i hi := by
    rw [hsame.list.valid]
    exact h.valid i hi
  common i hi hname hlast := by
    rw [hsame.list.entry] at hname hlast
    rw [hsame.list.commonOf] at hlast
    rw [hsame.on]
    exact h.common i hi hname hlast

/-- The list is checked for an activity. -/
theorem ListInv.checkWhiteList (h : s.ListInv p) (packName actName : List UInt8) :
    (s.checkWhiteList p packName actName).1.ListInv p where
  valid i hi := by
    rw [(SameList.checkWhiteList h.valid packName actName).valid]
    exact h.valid i hi
  common i hi hname hlast := by
    have hlist := SameList.checkWhiteList h.valid packName actName
    rw [hlist.entry] at hname hlast
    rw [hlist.commonOf] at hlast
    rw [← Bool.not_eq_true, isOn_checkWhiteList h packName actName hi]
    rintro (hown | ⟨hcommon, -⟩)
    · rw [hown.1] at hname
      cases hname
    · rw [(of_commonOf hcommon).2.2] at hlast
      exact hlast hcommon

/-- What is enabled is what the list prescribes, if an entry of the activity with a common name
is the common one of its package. -/
theorem prescribed_iff (s : PerfService) (packName actName : List UInt8) :
    (∀ i < nPackNum p, (s.Own (packName, actName) i ∨
        s.commonOf p packName = some i ∧ ¬ ∃ j < nPackNum p, s.Own (packName, actName) j) ↔
      s.Prescribed p (packName, actName) i) ↔
      (isCommon actName = true → ∀ i < nPackNum p, s.entry i = (packName, actName) →
        s.commonOf p packName = some i) := by
  cases hname : isCommon actName with
  | false =>
    have hown : ∀ i, s.Own (packName, actName) i ↔ s.entry i = (packName, actName) := by
      refine fun i => and_iff_right_of_imp fun hentry => ?_
      rw [hentry]
      exact hname
    refine iff_of_true (fun i _ => ?_) fun hfalse => absurd hfalse Bool.false_ne_true
    rw [Prescribed, Listed, hown, and_comm]
    simp only [hown]
  | true =>
    have hown : ∀ i, ¬ s.Own (packName, actName) i := by
      rintro i ⟨hcommon, hentry⟩
      rw [hentry, hname] at hcommon
      cases hcommon
    constructor
    · intro h _ i hi hentry
      exact (((h i hi).mpr (.inl hentry)).resolve_left (hown i)).1
    · intro h i hi
      have hlast := h rfl
      constructor
      · rintro (hi' | ⟨hcommon, -⟩)
        · exact absurd hi' (hown i)
        · by_cases hlisted : s.Listed p (packName, actName)
          · obtain ⟨j, hj, hentry⟩ := hlisted
            have hij : j = i := Option.some.inj ((hlast j hj hentry).symm.trans hcommon)
            exact .inl (hij ▸ hentry)
          · exact .inr ⟨hlisted, hcommon⟩
      · rintro (hentry | ⟨-, hcommon⟩)
        · exact .inr ⟨hlast i hi hentry, fun ⟨j, _, hj⟩ => hown j hj⟩
        · exact .inr ⟨hcommon, fun ⟨j, _, hj⟩ => hown j hj⟩

theorem listInv_init (p : Platform) : (init p).ListInv p where
  valid _ hi := init_valid p (Nat.le_add_right _ _) (Nat.add_lt_add_left hi _)
  common i hi _ _ := by
    rw [← Bool.not_eq_true]
    exact fun hon => (init_idle p).off _ ⟨Nat.add_lt_add_left hi _, hon⟩

/-- A call that changes the activity. -/
theorem changeAct_new (h : s.foreground_act ≠ actName) :
    s.changeAct p packName actName =
      { s with foreground_act := set_str_cpy actName CLASS_NAME_MAX }.checkWhiteList p
        packName actName := if_neg h

theorem changeAct_same (h : s.foreground_act = actName) :
    s.changeAct p packName actName = (s, 0) := if_pos h

theorem ListInv.noteAct (h : s.ListInv p) (actName : List UInt8) :
    ListInv p { s with foreground_act := actName } := ⟨h.valid, h.common⟩

theorem ListInv.changeAct (h : s.ListInv p) (packName actName : List UInt8) :
    (s.changeAct p packName actName).1.ListInv p := by
  by_cases hact : s.foreground_act = actName
  · rw [changeAct_same hact]
    exact h
  · rw [changeAct_new hact]
    exact (h.noteAct _).checkWhiteList packName actName

end PerfService

namespace Foreground

open PerfService

/-- The list is as it was built, and nothing is enabled before the first activity. -/
structure Inv (p : Platform) (s : Foreground) : Prop where
  list : s.service.ListInv p
  none : s.resumed = none → ∀ i < nPackNum p, s.service.isOn (SCN_APP_RUN_BASE + i) = false

variable {p : Platform} {s : Foreground} {c : Resume} {packName : List UInt8}

theorem notify_none (hpack : c.packName = none) : s.notify p c = s := by
  rw [notify, hpack]
  rfl

theorem notify_some (hpack : c.packName = some packName) :
    s.notify p c =
      ⟨(s.service.changeAct p packName c.actName).1.changePack p packName c.pid c.benchmark,
        some (packName, c.actName)⟩ := by
  rw [notify, hpack]
  rfl

theorem Inv.notify (h : s.Inv p) (c : Resume) : (s.notify p c).Inv p := by
  cases hpack : c.packName with
  | none =>
    rw [notify_none hpack]
    exact h
  | some packName =>
    rw [notify_some hpack]
    refine ⟨?_, by rintro ⟨⟩⟩
    exact (h.list.changeAct packName c.actName).congr (samePacks_changePack p _ _ _ _)

/-- The call keeps the list following the foreground exactly if it is noticed. -/
theorem followed_notify (h : s.Inv p) (hfollowed : s.Followed p) (c : Resume) :
    (s.notify p c).Followed p ↔ s.Noticed p c := by
  cases hpack : c.packName with
  | none =>
    rw [notify_none hpack]
    refine iff_of_true hfollowed fun packName hsome => ?_
    rw [hpack] at hsome
    cases hsome
  | some packName =>
    have hnoticed : s.Noticed p c ↔ if s.service.foreground_act = c.actName then
        ∀ i < nPackNum p, s.service.Prescribed p (packName, c.actName) i ↔
          ∃ act, s.resumed = some act ∧ s.service.Prescribed p act i
        else isCommon c.actName = true → ∀ i < nPackNum p,
          s.service.entry i = (packName, c.actName) →
            s.service.commonOf p packName = some i := by
      rw [Noticed, hpack]
      exact ⟨fun hall => hall packName rfl, fun hone _ hsome => Option.some.inj hsome ▸ hone⟩
    have hpacks := samePacks_changePack p (s.service.changeAct p packName c.actName).1 packName
      c.pid c.benchmark
    have hfollows : (s.notify p c).Followed p ↔ ∀ i < nPackNum p,
        (s.service.changeAct p packName c.actName).1.isOn (SCN_APP_RUN_BASE + i) = true ↔
          (s.service.changeAct p packName c.actName).1.Prescribed p (packName, c.actName) i := by
      rw [notify_some hpack]
      constructor
      · intro hall i hi
        have hone := hall _ rfl i hi
        rwa [hpacks.on, hpacks.list.prescribed] at hone
      · rintro hall act ⟨rfl⟩ i hi
        rw [hpacks.on, hpacks.list.prescribed]
        exact hall i hi
    rw [hnoticed, hfollows]
    by_cases hact : s.service.foreground_act = c.actName
    · rw [if_pos hact, changeAct_same hact]
      refine forall₂_congr fun i hi => ?_
      have hon : s.service.isOn (SCN_APP_RUN_BASE + i) = true ↔
          ∃ act, s.resumed = some act ∧ s.service.Prescribed p act i := by
        cases hresumed : s.resumed with
        | none =>
          rw [h.none hresumed i hi]
          exact iff_of_false Bool.false_ne_true fun ⟨_, hsome, _⟩ => nomatch hsome
        | some act =>
          rw [hfollowed act hresumed i hi]
          exact ⟨fun hp => ⟨act, rfl, hp⟩, fun ⟨_, hsome, hp⟩ => Option.some.inj hsome ▸ hp⟩
      rw [hon]
      exact Iff.comm
    · rw [if_neg hact, changeAct_new hact, ← prescribed_iff]
      have hlist := h.list.noteAct (set_str_cpy c.actName CLASS_NAME_MAX)
      refine forall₂_congr fun i hi => ?_
      rw [isOn_checkWhiteList hlist packName c.actName hi,
        (SameList.checkWhiteList hlist.valid packName c.actName).prescribed]
      rfl

/-- The white list follows the foreground after each call, exactly if every call is noticed. -/
theorem followed_iff (p : Platform) (calls : List Resume) :
    (whiteList p).Along (Followed p) (whiteList p).init calls ↔
      (whiteList p).Meets (Noticed p) (whiteList p).init calls := by
  have htotal : ∀ s c, ∃ s', (whiteList p).step s c = some s' := fun s c => ⟨_, rfl⟩
  have hinv : ∀ s c s', Inv p s → (whiteList p).step s c = some s' → Inv p s' := by
    rintro s c s' h ⟨⟩
    exact h.notify c
  have hkeeps : ∀ s c s', Inv p s → Followed p s → (whiteList p).step s c = some s' →
      (Followed p s' ↔ Noticed p s c) := by
    rintro s c s' h hfollowed ⟨⟩
    exact followed_notify h hfollowed c
  refine (whiteList p).along_iff_meets htotal hinv hkeeps ⟨listInv_init p, fun _ i hi => ?_⟩
    (by rintro act ⟨⟩) calls
  rw [← Bool.not_eq_true]
  exact fun hon => (init_idle p).off _ ⟨Nat.add_lt_add_left hi _, hon⟩

/-- A white list with one activity. -/
def onePack : Platform :=
  { oneCluster with
    ptXmlActList := [⟨"CMD_SET_CLUSTER_CPU_FREQ_MIN", "game".toUTF8.toList, "Main".toUTF8.toList,
      0, 500⟩] }

/-- An activity of the same name is resumed in another package. -/
theorem followed_false : ¬ ∀ (p : Platform) (calls : List Resume),
    (whiteList p).Along (Followed p) (whiteList p).init calls := by
  intro h
  have hlast := (h onePack [⟨some "game".toUTF8.toList, "Main".toUTF8.toList, 1, false⟩,
    ⟨some "mail".toUTF8.toList, "Main".toUTF8.toList, 2, false⟩]).last _ rfl
  have hon := (hlast ("mail".toUTF8.toList, "Main".toUTF8.toList) rfl 0 (by decide +kernel)).mp
    (by decide +kernel)
  rcases hon with hentry | ⟨-, hcommon⟩
  · revert hentry
    decide +kernel
  · revert hcommon
    decide +kernel

end Foreground

end MtkHw.Power
