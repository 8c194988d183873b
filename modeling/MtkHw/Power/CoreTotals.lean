import Mathlib.Algebra.Order.BigOperators.Group.Finset
import MtkHw.Power.Arbitration

/-!
# Totals of cores

The commands of one scenario after it has been reset.  `CMD_SET_CLUSTER_CPU_CORE_MIN` computes the
total of the scenario anew, and `CMD_SET_CPU_PERF_MODE` adds to it, so that the total is the sum of
the minima if and only if the mode is set while the scenario asks for no cores (`totalIsSum_iff`).
-/

namespace MtkHw.Power

open Lib

/-- A call of `cmdSetting`. -/
structure Command where
  icmd : Int
  scmd : Option String
  param_1 : Int
  param_2 : Int

namespace PerfService

/-- The commands of the scenario `k` as a machine, from the reset of the scenario on. -/
def commands (p : Platform) (k : Nat) : Machine PerfService Command where
  init := (init p).resetScenario p k
  step s c := some (s.cmdSetting p c.icmd c.scmd k c.param_1 c.param_2).1

/-- The sum of the minima of the clusters. -/
def coreSum (p : Platform) (core_min : Nat → Int) : Int :=
  ∑ i ∈ Finset.range p.nClusterNum, max 0 (core_min i)

/-- The minima of a record are in range. -/
structure InRange (p : Platform) (scn : ScnNode) : Prop where
  coreMin : ∀ i < p.nClusterNum, scn.scn_core_min i ≤ p.cpuNum i
  freqMin : ∀ i < p.nClusterNum, scn.scn_freq_min i ≤ p.freqMax i

/-- The total of a record is the sum of its parts. -/
structure NodeSums (p : Platform) (scn : ScnNode) : Prop extends InRange p scn where
  total : scn.scn_core_total = coreSum p scn.scn_core_min

/-- The total of the scenario `k` is the sum of its parts. -/
def TotalIsSum (p : Platform) (k : Nat) (s : PerfService) : Prop := NodeSums p (s.ptScnList k)

/-- The command sets the performance mode. -/
def SetsMode (c : Command) : Prop :=
  isCmd c.icmd c.scmd "CMD_SET_CPU_PERF_MODE" 5 = true ∧ c.param_1 = 1

/-- The performance mode is set only while the scenario asks for no cores. -/
def ModeFresh (p : Platform) (k : Nat) (s : PerfService) (c : Command) : Prop :=
  SetsMode c → ∀ i < p.nClusterNum, (s.ptScnList k).scn_core_min i ≤ 0

variable {p : Platform} {s : PerfService} {k : Nat} {c : Command} {scn scn' : ScnNode}

/-! ## Sums -/

theorem foldl_range (f : Nat → Int) (total : Int) (n : Nat) :
    (List.range n).foldl (fun total i => total + f i) total =
      total + ∑ i ∈ Finset.range n, f i := by
  induction n with
  | zero => exact (add_zero total).symm
  | succ n ih =>
    rw [List.range_succ, List.foldl_append, ih, Finset.sum_range_succ, ← add_assoc]
    rfl

/-- The loop of `CMD_SET_CLUSTER_CPU_CORE_MIN` adds up the minima, where they are in range. -/
theorem coreTotal_eq {core_min : Nat → Int}
    (h : ∀ i < p.nClusterNum, core_min i ≤ p.cpuNum i) :
    coreTotal p core_min = coreSum p core_min := by
  have hstep : ∀ total i, i < p.nClusterNum →
      (if core_min i ≥ 0 ∧ core_min i ≤ p.cpuNum i then total + core_min i else total) =
        total + max 0 (core_min i) := by
    intro total i hi
    have hle := h i hi
    split
    · omega
    · omega
  calc coreTotal p core_min
      = (List.range p.nClusterNum).foldl (fun total i => total + max 0 (core_min i)) 0 :=
        List.foldl_ext _ _ _ fun total i hi => hstep total i (List.mem_range.mp hi)
    _ = coreSum p core_min := (foldl_range _ 0 _).trans (zero_add _)

/-- A sum of minima is 0 when no cluster has a positive one. -/
theorem coreSum_eq_zero {core_min : Nat → Int} :
    coreSum p core_min = 0 ↔ ∀ i < p.nClusterNum, core_min i ≤ 0 := by
  rw [coreSum, Finset.sum_eq_zero_iff_of_nonneg fun i _ => le_max_left 0 _]
  simp only [Finset.mem_range, max_eq_left_iff]

/-! ## Commands -/

/-- A command is not another one. -/
theorem isCmd_ne {icmd : Int} {scmd : Option String} {name name' : String} {id id' : Int}
    (h : isCmd icmd scmd name id = true) (hname : name ≠ name') (hid : id ≠ id') (hpos : 0 ≤ id)
    (hpos' : 0 ≤ id') : isCmd icmd scmd name' id' = false := by
  apply decide_eq_false
  rcases of_decide_eq_true h with ⟨hneg, hscmd⟩ | hicmd
  · rintro (⟨-, hscmd'⟩ | hicmd')
    · exact hname (Option.some.inj (hscmd.symm.trans hscmd'))
    · omega
  · rintro (⟨hneg, -⟩ | hicmd')
    · omega
    · exact hid (hicmd.symm.trans hicmd')

/-- The record after the performance mode is set. -/
theorem cmdSetting_mode (p : Platform) (s : PerfService) (k : Nat) (hc : SetsMode c) :
    (s.cmdSetting p c.icmd c.scmd k c.param_1 c.param_2).1.ptScnList k =
      { s.ptScnList k with
        scn_core_min := fun i =>
          if i < p.nClusterNum then p.cpuNum i else (s.ptScnList k).scn_core_min i
        scn_core_total :=
          (s.ptScnList k).scn_core_total + ∑ i ∈ Finset.range p.nClusterNum, p.cpuNum i
        scn_freq_min := fun i =>
          if i < p.nClusterNum then p.freqMax i else (s.ptScnList k).scn_freq_min i } := by
  obtain ⟨hcmd, hone⟩ := hc
  have hnone : ¬ (c.icmd < 0 ∧ c.scmd = none) := by
    rcases of_decide_eq_true hcmd with ⟨-, hscmd⟩ | hicmd
    · rintro ⟨-, hnone⟩
      cases hscmd.symm.trans hnone
    · omega
  have hother : ∀ {name : String} {id : Int}, "CMD_SET_CPU_PERF_MODE" ≠ name → 5 ≠ id → 0 ≤ id →
      ¬ isCmd c.icmd c.scmd name id = true := by
    intro name id hname hid hpos
    rw [isCmd_ne hcmd hname hid (by decide) hpos]
    exact Bool.false_ne_true
  rw [cmdSetting, if_neg hnone, if_neg (hother (by decide) (by decide) (by decide)),
    if_neg (hother (by decide) (by decide) (by decide)),
    if_neg (hother (by decide) (by decide) (by decide)),
    if_neg (hother (by decide) (by decide) (by decide)),
    if_neg (hother (by decide) (by decide) (by decide)),
    if_neg (hother (by decide) (by decide) (by decide)), if_pos hcmd, if_neg (not_not.mpr hone)]
  exact (setScn_self s k _).trans (by rw [foldl_range])

/-- The cores and frequencies of a record stay, or one minimum is written. -/
inductive WritesMin (p : Platform) (scn : ScnNode) : ScnNode → Prop
  | same {scn' : ScnNode} (hmin : scn'.scn_core_min = scn.scn_core_min)
      (htotal : scn'.scn_core_total = scn.scn_core_total)
      (hfreq : scn'.scn_freq_min = scn.scn_freq_min) : WritesMin p scn scn'
  | coreMin {scn' : ScnNode} (i : Nat) (v : Int) (hv : v ≤ p.cpuNum i)
      (hmin : scn'.scn_core_min = write scn.scn_core_min i v)
      (htotal : scn'.scn_core_total = coreTotal p (write scn.scn_core_min i v))
      (hfreq : scn'.scn_freq_min = scn.scn_freq_min) : WritesMin p scn scn'
  | freqMin {scn' : ScnNode} (i : Nat) (v : Int) (hv : v ≤ p.freqMax i)
      (hmin : scn'.scn_core_min = scn.scn_core_min)
      (htotal : scn'.scn_core_total = scn.scn_core_total)
      (hfreq : scn'.scn_freq_min = write scn.scn_freq_min i v) : WritesMin p scn scn'

/-- One branch of `cmdSetting`. -/
theorem WritesMin.ite {P : Prop} [Decidable P] {a b : PerfService × Int}
    (ha : P → WritesMin p scn (a.1.ptScnList k)) (hb : ¬ P → WritesMin p scn (b.1.ptScnList k)) :
    WritesMin p scn ((if P then a else b).1.ptScnList k) :=
  iteInduction (motive := fun r : PerfService × Int => WritesMin p scn (r.1.ptScnList k)) ha hb

/-- A record is written, and no minimum in it. -/
theorem WritesMin.setScn (hmin : scn.scn_core_min = (s.ptScnList k).scn_core_min)
    (htotal : scn.scn_core_total = (s.ptScnList k).scn_core_total)
    (hfreq : scn.scn_freq_min = (s.ptScnList k).scn_freq_min) :
    WritesMin p (s.ptScnList k) ((s.setScn k scn).ptScnList k) := by
  rw [setScn_self]
  exact .same hmin htotal hfreq

/-- The other commands write one minimum at most. -/
theorem cmdSetting_writesMin (s : PerfService) (k : Nat)
    (hcpu : ∀ i < p.nClusterNum, 0 ≤ p.cpuNum i) (hc : ¬ SetsMode c) :
    WritesMin p (s.ptScnList k)
      ((s.cmdSetting p c.icmd c.scmd k c.param_1 c.param_2).1.ptScnList k) := by
  unfold cmdSetting
  dsimp only
  refine .ite (fun _ => .same rfl rfl rfl) fun _ => ?_
  refine .ite (fun _ => .setScn rfl rfl rfl) fun _ => ?_
  refine .ite (fun _ => .setScn rfl rfl rfl) fun _ => ?_
  refine .ite (fun _ => .ite (fun _ => .same rfl rfl rfl) fun hrange => ?_) fun _ => ?_
  · -- CMD_SET_CLUSTER_CPU_CORE_MIN
    have hpos := hcpu c.param_1.toNat (by omega)
    rw [setScn_self]
    refine .coreMin c.param_1.toNat _ ?_ rfl rfl rfl
    split
    · split
      · exact hpos
      · assumption
    · exact le_rfl
  refine .ite (fun _ => .ite (fun _ => .same rfl rfl rfl) fun _ => .setScn rfl rfl rfl) fun _ => ?_
  refine .ite (fun _ => .ite (fun _ => .same rfl rfl rfl) fun _ => ?_) fun _ => ?_
  · -- CMD_SET_CLUSTER_CPU_FREQ_MIN
    rw [setScn_self]
    refine .freqMin c.param_1.toNat _ ?_ rfl rfl rfl
    split
    · exact le_rfl
    · omega
  refine .ite (fun _ => .ite (fun _ => .same rfl rfl rfl) fun _ => .setScn rfl rfl rfl) fun _ => ?_
  refine .ite (fun hcmd => .ite (fun _ => .same rfl rfl rfl) fun hone => ?_) fun _ => ?_
  · exact absurd ⟨hcmd, not_not.mp hone⟩ hc
  refine .ite (fun _ => .setScn rfl rfl rfl) fun _ => ?_
  refine .ite (fun _ => .setScn rfl rfl rfl) fun _ => ?_
  refine .ite (fun _ => .same rfl rfl rfl) fun _ => ?_
  refine .ite (fun _ => .setScn rfl rfl rfl) fun _ => ?_
  refine .ite (fun _ => .setScn rfl rfl rfl) fun _ => ?_
  refine .ite (fun _ => .setScn rfl rfl rfl) fun _ => ?_
  refine .ite (fun _ => .setScn rfl rfl rfl) fun _ => ?_
  refine .ite (fun _ => .setScn rfl rfl rfl) fun _ => ?_
  refine .ite (fun _ => .same rfl rfl rfl) fun _ => ?_
  refine .ite (fun _ => .setScn rfl rfl rfl) fun _ => ?_
  exact .setScn rfl rfl rfl

/-- A value that is written keeps a bound. -/
theorem write_le {a bound : Nat → Int} {n i j : Nat} {v : Int} (h : ∀ j < n, a j ≤ bound j)
    (hv : v ≤ bound i) (hj : j < n) : write a i v j ≤ bound j := by
  rw [write]
  split
  · rename_i hji
    rw [hji]
    exact hv
  · exact h j hj

/-- The total stays the sum of its parts. -/
theorem NodeSums.writesMin (h : NodeSums p scn) (hw : WritesMin p scn scn') : NodeSums p scn' := by
  cases hw with
  | same hmin htotal hfreq =>
    refine ⟨⟨?_, ?_⟩, ?_⟩
    · rw [hmin]
      exact h.coreMin
    · rw [hfreq]
      exact h.freqMin
    · rw [htotal, hmin]
      exact h.total
  | coreMin i v hv hmin htotal hfreq =>
    have hle : ∀ j < p.nClusterNum, write scn.scn_core_min i v j ≤ p.cpuNum j :=
      fun j hj => write_le h.coreMin hv hj
    refine ⟨⟨?_, ?_⟩, ?_⟩
    · rw [hmin]
      exact hle
    · rw [hfreq]
      exact h.freqMin
    · rw [htotal, hmin]
      exact coreTotal_eq hle
  | freqMin i v hv hmin htotal hfreq =>
    refine ⟨⟨?_, ?_⟩, ?_⟩
    · rw [hmin]
      exact h.coreMin
    · rw [hfreq]
      exact fun j hj => write_le h.freqMin hv hj
    · rw [htotal, hmin]
      exact h.total

/-- The performance mode keeps the total the sum of its parts if and only if the scenario asked for
no cores. -/
theorem nodeSums_mode (h : NodeSums p (s.ptScnList k)) (hcpu : ∀ i < p.nClusterNum, 0 ≤ p.cpuNum i)
    (hc : SetsMode c) :
    NodeSums p ((s.cmdSetting p c.icmd c.scmd k c.param_1 c.param_2).1.ptScnList k) ↔
      ∀ i < p.nClusterNum, (s.ptScnList k).scn_core_min i ≤ 0 := by
  have hsum : ∑ i ∈ Finset.range p.nClusterNum, p.cpuNum i =
      coreSum p fun i =>
        if i < p.nClusterNum then p.cpuNum i else (s.ptScnList k).scn_core_min i := by
    refine Finset.sum_congr rfl fun i hi => ?_
    dsimp only
    rw [if_pos (Finset.mem_range.mp hi), max_eq_right (hcpu i (Finset.mem_range.mp hi))]
  rw [cmdSetting_mode p s k hc, ← coreSum_eq_zero, ← h.total]
  constructor
  · rintro ⟨-, htotal⟩
    dsimp only at htotal
    omega
  · intro hzero
    refine ⟨⟨fun i hi => (if_pos hi).le, fun i hi => (if_pos hi).le⟩, ?_⟩
    dsimp only
    omega

/-- In all states of a run of commands after a reset the total is the sum of its parts and the
minima are in range, if and only if the performance mode is set only while the scenario asks for no
cores. -/
theorem totalIsSum_iff (p : Platform) (hcpu : ∀ i < p.nClusterNum, 0 ≤ p.cpuNum i)
    (s : PerfService) (k : Nat) (cmds : List Command) :
    (commands p k).Along (TotalIsSum p k) (s.resetScenario p k) cmds ↔
      (commands p k).Meets (ModeFresh p k) (s.resetScenario p k) cmds := by
  refine (commands p k).along_iff_meets (I := fun _ => True) (fun s c => ⟨_, rfl⟩)
    (fun _ _ _ _ _ => trivial) ?_ trivial ?_ cmds
  · rintro s c s' - h ⟨⟩
    by_cases hc : SetsMode c
    · rw [ModeFresh, imp_iff_right hc]
      exact nodeSums_mode h hcpu hc
    · have hkept := h.writesMin (cmdSetting_writesMin s k hcpu hc)
      exact iff_of_true hkept fun hmode => absurd hmode hc
  · rw [TotalIsSum, resetScenario, setScn_self]
    have hmin : ∀ i < p.nClusterNum, (s.resetNode p (s.ptScnList k)).scn_core_min i = -1 :=
      fun i hi => if_pos hi
    refine ⟨⟨fun i hi => ?_, fun i hi => ?_⟩, ?_⟩
    · have hpos := hcpu i hi
      rw [hmin i hi]
      omega
    · have hpos := p.freqMax_nonneg i
      rw [show (s.resetNode p (s.ptScnList k)).scn_freq_min i = -1 from if_pos hi]
      omega
    · refine (coreSum_eq_zero.mpr fun i hi => ?_).symm
      rw [hmin i hi]
      decide

/-- The performance mode. -/
def perfMode : Command := ⟨5, none, 1, 0⟩

/-- The mode is set once, on one cluster of four cores. -/
theorem totalIsSum_perfMode :
    (commands oneCluster 10).Along (TotalIsSum oneCluster 10)
      ((init oneCluster).resetScenario oneCluster 10) [perfMode] := by
  have hcpu : (0 : Int) ≤ 4 := by decide
  refine (totalIsSum_iff oneCluster (fun _ _ => hcpu) _ _ _).mpr (.cons _ rfl (fun _ i hi => ?_)
    trivial)
  obtain rfl := Nat.lt_one_iff.mp hi
  decide +kernel

/-- The mode is set twice: the total is 8. -/
theorem totalIsSum_false : ¬ ∀ (p : Platform), (∀ i < p.nClusterNum, 0 ≤ p.cpuNum i) →
    ∀ (s : PerfService) (k : Nat) (cmds : List Command),
      (commands p k).Along (TotalIsSum p k) (s.resetScenario p k) cmds := by
  intro h
  have hcpu : (0 : Int) ≤ 4 := by decide
  have halong := h oneCluster (fun _ _ => hcpu) (init oneCluster) 10 [perfMode, perfMode]
  have hlast := halong.last _ rfl
  have htotal := hlast.total
  revert htotal
  decide +kernel

end PerfService

end MtkHw.Power
