import Mathlib.Data.List.Basic
import Mathlib.Tactic.Common

/-!
# Machines, runs and invariants

A `Machine` is a state type with a start state and a partial step function.  A
label resolves every choice of the environment and of the scheduler, so a run is
the list of its labels and can be evaluated.

Two notions of "along a run" are used by the developments below:

* `Along P s acts`: `P` holds of every state of the run of `acts` from `s`;
* `Meets C s acts`: every step of the run satisfies the condition `C`, a
  relation between the state before the step and the label.

`invariant` is the usual induction rule.  `along_of_meets` is the same rule for
the runs whose steps meet a condition, and `meets_of_along` is its converse for
a condition whose failure shows in the next state.
-/

namespace MtkHw.Lib

universe u v

/-- A machine with states `σ` and labels `α`. -/
structure Machine (σ : Type u) (α : Type v) where
  /-- The start state. -/
  init : σ
  /-- The step with a label, when the machine can take it. -/
  step : σ → α → Option σ

namespace Machine

variable {σ : Type u} {α : Type v} (M : Machine σ α)

/-- The state a run ends in, when the machine can take all its steps. -/
def run : σ → List α → Option σ
  | s, [] => some s
  | s, a :: as => (M.step s a).bind fun s' => run s' as

@[simp] theorem run_nil (s : σ) : M.run s [] = some s := rfl

theorem run_cons (s : σ) (a : α) (as : List α) :
    M.run s (a :: as) = (M.step s a).bind fun s' => M.run s' as := rfl

/-- A run may be cut in two. -/
theorem run_append (s : σ) (as bs : List α) :
    M.run s (as ++ bs) = (M.run s as).bind fun s' => M.run s' bs := by
  induction as generalizing s with
  | nil => rfl
  | cons a as ih =>
    rw [List.cons_append, run_cons, run_cons]
    cases M.step s a with
    | none => rfl
    | some s' => simpa using ih s'

/-- A nonempty run exposes its first step. -/
theorem run_cons_eq_some {s t : σ} {a : α} {as : List α} :
    M.run s (a :: as) = some t ↔ ∃ s', M.step s a = some s' ∧ M.run s' as = some t := by
  rw [run_cons, Option.bind_eq_some_iff]

/-- A run that is not empty exposes its last step. -/
theorem run_snoc_eq_some {s t : σ} {a : α} {as : List α} :
    M.run s (as ++ [a]) = some t ↔ ∃ s', M.run s as = some s' ∧ M.step s' a = some t := by
  rw [run_append, Option.bind_eq_some_iff]
  simp only [run_cons, run_nil, Option.bind_fun_some]

/-- The induction rule: what holds at the start and is preserved by every step
is preserved by every run. -/
theorem invariant {Inv : σ → Prop}
    (hstep : ∀ s a s', Inv s → M.step s a = some s' → Inv s') :
    ∀ {s t : σ} {acts : List α}, Inv s → M.run s acts = some t → Inv t := by
  intro s t acts hs h
  induction acts generalizing s with
  | nil =>
    cases h
    exact hs
  | cons a as ih =>
    obtain ⟨s', ha, has⟩ := M.run_cons_eq_some.mp h
    exact ih (hstep s a s' hs ha) has

/-! ## Runs under a condition -/

/-- `P` holds of every state that the run of `acts` from `s` visits. -/
def Along (P : σ → Prop) : σ → List α → Prop
  | s, [] => P s
  | s, a :: as => P s ∧ ∀ s', M.step s a = some s' → Along P s' as

/-- Every step of the run of `acts` from `s` meets the condition `C` on the
state before the step and the label. -/
def Meets (C : σ → α → Prop) : σ → List α → Prop
  | _, [] => True
  | s, a :: as => C s a ∧ ∀ s', M.step s a = some s' → Meets C s' as

instance decidableMeets (C : σ → α → Prop) [∀ s a, Decidable (C s a)] :
    ∀ s acts, Decidable (M.Meets C s acts)
  | _, [] => isTrue trivial
  | s, a :: as =>
      match hstep : M.step s a with
      | none => decidable_of_iff (C s a) ⟨fun hc => ⟨hc, fun s' h => by
          rw [hstep] at h
          cases h⟩, And.left⟩
      | some s' =>
          @decidable_of_iff _ (C s a ∧ M.Meets C s' as) ⟨fun ⟨hc, h⟩ => ⟨hc, fun t ht => by
            rw [hstep] at ht
            cases ht
            exact h⟩, fun h => ⟨h.1, h.2 s' hstep⟩⟩
            (@instDecidableAnd _ _ _ (decidableMeets C s' as))

/-- A run that meets a condition, one step at a time. -/
theorem Meets.cons {C : σ → α → Prop} {s s' : σ} {a : α} {as : List α}
    (hstep : M.step s a = some s') (hc : C s a) (h : M.Meets C s' as) :
    M.Meets C s (a :: as) := by
  refine ⟨hc, fun t ht => ?_⟩
  rw [hstep] at ht
  cases ht
  exact h

/-- A run whose steps all meet `C` meets what `C` implies on the states of an invariant. -/
theorem Meets.mono {Inv : σ → Prop} {C D : σ → α → Prop}
    (hstep : ∀ s a s', Inv s → C s a → M.step s a = some s' → Inv s')
    (himp : ∀ s a, Inv s → C s a → D s a) {s : σ} {acts : List α} (hs : Inv s)
    (h : M.Meets C s acts) : M.Meets D s acts := by
  induction acts generalizing s with
  | nil => trivial
  | cons a as ih =>
    exact ⟨himp s a hs h.1, fun s' ha => ih (hstep s a s' hs h.1 ha) (h.2 s' ha)⟩

/-- Conditions that agree on the states of an invariant are met by the same runs. -/
theorem meets_congr {I : σ → Prop} {C D : σ → α → Prop}
    (hinv : ∀ s a s', I s → M.step s a = some s' → I s')
    (hiff : ∀ s a, I s → (C s a ↔ D s a)) {s : σ} (hs : I s) (acts : List α) :
    M.Meets C s acts ↔ M.Meets D s acts := by
  induction acts generalizing s with
  | nil => exact Iff.rfl
  | cons a as ih =>
    exact and_congr (hiff s a hs) (forall_congr' fun s' => imp_congr_right fun ha =>
      ih (hinv s a s' hs ha))

/-- Along a run whose steps all meet `C`, an invariant that the steps meeting `C`
preserve holds of every state visited. -/
theorem along_of_meets {Inv P : σ → Prop} {C : σ → α → Prop}
    (hstep : ∀ s a s', Inv s → C s a → M.step s a = some s' → Inv s')
    (himp : ∀ s, Inv s → P s) :
    ∀ {s : σ} {acts : List α}, Inv s → M.Meets C s acts → M.Along P s acts := by
  intro s acts hs h
  induction acts generalizing s with
  | nil => exact himp s hs
  | cons a as ih =>
    refine ⟨himp s hs, fun s' ha => ih (hstep s a s' hs h.1 ha) (h.2 s' ha)⟩

/-- Along every run, an invariant that all steps preserve holds of every state visited. -/
theorem along_of_invariant {Inv P : σ → Prop}
    (hstep : ∀ s a s', Inv s → M.step s a = some s' → Inv s')
    (himp : ∀ s, Inv s → P s) {s : σ} (hs : Inv s) (acts : List α) : M.Along P s acts := by
  induction acts generalizing s with
  | nil => exact himp s hs
  | cons a as ih => exact ⟨himp s hs, fun s' ha => ih (hstep s a s' hs ha)⟩

/-- When every possible step that fails `C` leads to a state that fails `P`, a
run along which `P` holds meets `C`. -/
theorem meets_of_along {P : σ → Prop} {C : σ → α → Prop}
    (hfail : ∀ s a, ¬ C s a → ∃ s', M.step s a = some s' ∧ ¬ P s') :
    ∀ {s : σ} {acts : List α}, M.Along P s acts → M.Meets C s acts := by
  intro s acts h
  induction acts generalizing s with
  | nil => trivial
  | cons a as ih =>
    refine ⟨?_, fun s' ha => ih (h.2 s' ha)⟩
    by_contra hc
    obtain ⟨s', ha, hP⟩ := hfail s a hc
    have hvisit : P s' := by
      have := h.2 s' ha
      cases as with
      | nil => exact this
      | cons b bs => exact this.1
    exact hP hvisit

/-- `P` holds of every state of a run exactly if every step meets `C`, where `C` says which steps
keep `P`, and is met by the steps that the machine cannot take. -/
theorem along_iff_meets_of_stuck {I P : σ → Prop} {C : σ → α → Prop}
    (hstuck : ∀ s a, M.step s a = none → C s a)
    (hinv : ∀ s a s', I s → M.step s a = some s' → I s')
    (hkeeps : ∀ s a s', I s → P s → M.step s a = some s' → (P s' ↔ C s a))
    {s : σ} (hI : I s) (hP : P s) (acts : List α) : M.Along P s acts ↔ M.Meets C s acts := by
  induction acts generalizing s with
  | nil => exact iff_of_true hP trivial
  | cons a as ih =>
    cases ha : M.step s a with
    | none =>
      have hnone : ∀ {Q : σ → Prop} (s' : σ), M.step s a = some s' → Q s' := fun s' hs' => by
        rw [ha] at hs'
        cases hs'
      exact iff_of_true ⟨hP, hnone⟩ ⟨hstuck s a ha, hnone⟩
    | some s' =>
      have hkeep := hkeeps s a s' hI hP ha
      constructor
      · intro h
        have hrest := h.2 s' ha
        have hP' : P s' := by
          cases as with
          | nil => exact hrest
          | cons b bs => exact hrest.1
        exact .cons M ha (hkeep.mp hP') ((ih (hinv s a s' hI ha) hP').mp hrest)
      · intro h
        have hP' : P s' := hkeep.mpr h.1
        refine ⟨hP, fun t ht => ?_⟩
        rw [ha] at ht
        cases ht
        exact (ih (hinv s a s' hI ha) hP').mpr (h.2 s' ha)

/-- `P` holds of every state of a run exactly if every step meets `C`, where an invariant that gives
`P` is kept by the steps that meet `C`, and `P` is lost by the others. -/
theorem along_iff_meets_of_keeps {Inv P : σ → Prop} {C : σ → α → Prop}
    (hstuck : ∀ s a, Inv s → M.step s a = none → C s a) (himp : ∀ s, Inv s → P s)
    (hkeep : ∀ s a s', Inv s → C s a → M.step s a = some s' → Inv s')
    (hlost : ∀ s a s', Inv s → M.step s a = some s' → P s' → C s a)
    {s : σ} (hs : Inv s) (acts : List α) : M.Along P s acts ↔ M.Meets C s acts := by
  refine ⟨fun h => ?_, fun h => M.along_of_meets hkeep himp hs h⟩
  induction acts generalizing s with
  | nil => trivial
  | cons a as ih =>
    cases ha : M.step s a with
    | none =>
      refine ⟨hstuck s a hs ha, fun s' hs' => ?_⟩
      rw [ha] at hs'
      cases hs'
    | some s' =>
      have hrest := h.2 s' ha
      have hP : P s' := by
        cases as with
        | nil => exact hrest
        | cons b bs => exact hrest.1
      have hc := hlost s a s' hs ha hP
      exact .cons M ha hc (ih (hkeep s a s' hs hc ha) hrest)

/-- The same for a machine that can take every step. -/
theorem along_iff_meets {I P : σ → Prop} {C : σ → α → Prop}
    (htotal : ∀ s a, ∃ s', M.step s a = some s')
    (hinv : ∀ s a s', I s → M.step s a = some s' → I s')
    (hkeeps : ∀ s a s', I s → P s → M.step s a = some s' → (P s' ↔ C s a))
    {s : σ} (hI : I s) (hP : P s) (acts : List α) : M.Along P s acts ↔ M.Meets C s acts := by
  refine M.along_iff_meets_of_stuck (fun s a hnone => ?_) hinv hkeeps hI hP acts
  obtain ⟨s', hs'⟩ := htotal s a
  rw [hnone] at hs'
  cases hs'

/-- A step that lowers a measure whenever it meets a condition is repeated finitely often: the
states with `Done` are reached, unless the condition fails on the way. -/
theorem done_of_decreases {β : Type*} {lt : β → β → Prop} (hlt : WellFounded lt)
    {measure : σ → β} {Inv Done : σ → Prop} {C : σ → α → Prop} {a : α}
    (hstep : ∀ s, Inv s → ¬Done s → C s a →
      ∃ s', M.step s a = some s' ∧ Inv s' ∧ lt (measure s') (measure s)) {s : σ} (hs : Inv s) :
    ∃ n, M.Meets C s (List.replicate n a) →
      ∃ m ≤ n, ∃ s', M.run s (List.replicate m a) = some s' ∧ Done s' := by
  induction hm : measure s using hlt.induction generalizing s with
  | _ b ih =>
  subst hm
  by_cases hdone : Done s
  · exact ⟨0, fun _ => ⟨0, Nat.le_refl 0, s, rfl, hdone⟩⟩
  · by_cases hc : C s a
    · obtain ⟨s', ha, hs', hlower⟩ := hstep s hs hdone hc
      obtain ⟨n, hn⟩ := ih _ hlower hs' rfl
      refine ⟨n + 1, fun hmeets => ?_⟩
      obtain ⟨m, hm, t, hrun, ht⟩ := hn (hmeets.2 s' ha)
      refine ⟨m + 1, Nat.succ_le_succ hm, t, ?_, ht⟩
      rw [List.replicate_succ, run_cons, ha, Option.bind_some, hrun]
    · exact ⟨1, fun hmeets => absurd hmeets.1 hc⟩

/-- The end of a run along which `P` holds. -/
theorem Along.last {P : σ → Prop} {s t : σ} {acts : List α} (h : M.Along P s acts)
    (hrun : M.run s acts = some t) : P t := by
  induction acts generalizing s with
  | nil =>
    cases hrun
    exact h
  | cons a as ih =>
    obtain ⟨s', ha, has⟩ := M.run_cons_eq_some.mp hrun
    exact ih (h.2 s' ha) has

/-- The end of a run whose steps all meet `C`. -/
theorem invariant_of_meets {Inv : σ → Prop} {C : σ → α → Prop}
    (hstep : ∀ s a s', Inv s → C s a → M.step s a = some s' → Inv s')
    {s t : σ} {acts : List α} (hs : Inv s) (h : M.Meets C s acts)
    (hrun : M.run s acts = some t) : Inv t :=
  Along.last M (M.along_of_meets hstep (fun _ hi => hi) hs h) hrun

end Machine

end MtkHw.Lib
