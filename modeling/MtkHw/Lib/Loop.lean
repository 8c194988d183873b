import Mathlib.Tactic.Common

/-!
# Loops

A loop of an imperative program is a step that either goes round once more with
a new state or leaves with a result.  `loop step n s` goes round at most `n`
times; a program's loop is closed by giving it more turns than a measure of its
state.  `loop_spec` is the rule of total correctness: an invariant, and a measure
that every turn decreases; `loop_total` has both in one premise.  `loop_leaves_iff` is for a loop with
no such measure, whose states are known.
-/

namespace MtkHw.Lib

universe u v

variable {σ : Type u} {ρ : Type v}

/-- Go round a loop at most `n` times. -/
def loop (step : σ → σ ⊕ ρ) : Nat → σ → Option ρ
  | 0, _ => none
  | n + 1, s =>
      match step s with
      | .inl s' => loop step n s'
      | .inr r => some r

theorem loop_of_inl {step : σ → σ ⊕ ρ} {n : Nat} {s s' : σ} (h : step s = .inl s') :
    loop step (n + 1) s = loop step n s' := by
  simp [loop, h]

theorem loop_of_inr {step : σ → σ ⊕ ρ} {n : Nat} {s : σ} {r : ρ} (h : step s = .inr r) :
    loop step (n + 1) s = some r := by
  simp [loop, h]

/-- More turns than a loop needs change nothing. -/
theorem loop_add {step : σ → σ ⊕ ρ} {n : Nat} {s : σ} {r : ρ} (h : loop step n s = some r)
    (m : Nat) : loop step (n + m) s = some r := by
  induction n generalizing s with
  | zero => cases h
  | succ n ih =>
    rw [Nat.succ_add]
    cases hstep : step s with
    | inl s' =>
      rw [loop_of_inl hstep] at h ⊢
      exact ih h
    | inr r' =>
      rw [loop_of_inr hstep] at h ⊢
      exact h

/-- What a loop leaves with does not depend on the turns it is given. -/
theorem loop_unique {step : σ → σ ⊕ ρ} {n m : Nat} {s : σ} {r r' : ρ}
    (h : loop step n s = some r) (h' : loop step m s = some r') : r = r' := by
  have hr := loop_add h m
  have hr' := loop_add h' n
  rw [Nat.add_comm, hr] at hr'
  exact Option.some.inj hr'

/-- What a turn does to an invariant: it leaves with a result that meets `Post`,
or goes on with a state that meets `Inv`. -/
def Keeps (Inv : σ → Prop) (Post : ρ → Prop) : σ ⊕ ρ → Prop
  | .inl s' => Inv s'
  | .inr r => Post r

/-- A turn from `s` leaves, or decreases the measure. -/
def Decreases (measure : σ → Nat) (s : σ) : σ ⊕ ρ → Prop
  | .inl s' => measure s' < measure s
  | .inr _ => True

/-- The rule of consequence, for one turn. -/
theorem Keeps.mono {Inv Inv' : σ → Prop} {Post Post' : ρ → Prop} {x : σ ⊕ ρ} (h : Keeps Inv Post x)
    (hinv : ∀ s, Inv s → Inv' s) (hpost : ∀ r, Post r → Post' r) : Keeps Inv' Post' x := by
  cases x with
  | inl s => exact hinv s h
  | inr r => exact hpost r h

/-- A turn that goes on with a smaller state decreases the measure. -/
theorem Keeps.decreases {measure : σ → Nat} {Post : ρ → Prop} {s : σ} {x : σ ⊕ ρ}
    (h : Keeps (fun s' => measure s' < measure s) Post x) : Decreases measure s x := by
  cases x with
  | inl s' => exact h
  | inr r => trivial

/-- Partial correctness: when a loop whose turns keep the invariant leaves, its result
meets `Post`. -/
theorem loop_sound {step : σ → σ ⊕ ρ} {Inv : σ → Prop} {Post : ρ → Prop}
    (hkeeps : ∀ s, Inv s → Keeps Inv Post (step s)) {n : Nat} {s : σ} {r : ρ} (hs : Inv s)
    (h : loop step n s = some r) : Post r := by
  induction n generalizing s with
  | zero => cases h
  | succ n ih =>
    have hinv := hkeeps s hs
    cases hstep : step s with
    | inl s' =>
      rw [hstep] at hinv
      rw [loop_of_inl hstep] at h
      exact ih hinv h
    | inr r' =>
      rw [hstep] at hinv
      rw [loop_of_inr hstep] at h
      cases h
      exact hinv

/-- Total correctness: a loop whose turns keep the invariant and decrease the
measure leaves, with a result that meets `Post`. -/
theorem loop_spec {step : σ → σ ⊕ ρ} {Inv : σ → Prop} {Post : ρ → Prop} {measure : σ → Nat}
    (hkeeps : ∀ s, Inv s → Keeps Inv Post (step s))
    (hdecreases : ∀ s, Inv s → Decreases measure s (step s)) :
    ∀ {n : Nat} {s : σ}, Inv s → measure s < n → ∃ r, loop step n s = some r ∧ Post r := by
  intro n
  induction n with
  | zero =>
    intro s _ hn
    exact absurd hn (Nat.not_lt_zero _)
  | succ n ih =>
    intro s hs hn
    have hinv := hkeeps s hs
    have hlt := hdecreases s hs
    cases hstep : step s with
    | inl s' =>
      rw [hstep] at hinv hlt
      rw [loop_of_inl hstep]
      exact ih hinv (Nat.lt_of_lt_of_le hlt (Nat.le_of_lt_succ hn))
    | inr r =>
      rw [hstep] at hinv
      exact ⟨r, loop_of_inr hstep, hinv⟩

/-- Total correctness, for turns that keep the invariant with a smaller measure. -/
theorem loop_total {step : σ → σ ⊕ ρ} {Inv : σ → Prop} {Post : ρ → Prop} {measure : σ → Nat}
    (hturn : ∀ s, Inv s → Keeps (fun s' => Inv s' ∧ measure s' < measure s) Post (step s))
    {n : Nat} {s : σ} (hs : Inv s) (hn : measure s < n) : ∃ r, loop step n s = some r ∧ Post r := by
  refine loop_spec (fun s hs => ?_) (fun s hs => ?_) hs hn
  · exact (hturn s hs).mono (fun _ hs' => hs'.1) fun _ hr => hr
  · have hboth := (hturn s hs).mono (fun _ hs' => hs'.2) fun _ hr => hr
    exact hboth.decreases

/-- A loop whose states are known in advance leaves with a result that meets `Post` if and only if
it does so from one of them, and goes on from those before. -/
theorem loop_leaves_iff (step : σ → σ ⊕ ρ) (Post : ρ → Prop) (states : Nat → σ)
    (hstates : ∀ m s', step (states m) = .inl s' → s' = states (m + 1)) :
    (∃ n r, loop step n (states 0) = some r ∧ Post r) ↔
      ∃ n, (∃ r, step (states n) = .inr r ∧ Post r) ∧ ∀ m < n, ∃ s', step (states m) = .inl s' := by
  constructor
  · rintro ⟨n, r, hloop, hpost⟩
    -- The induction is on the turns; the first state moves on with them.
    suffices hfrom : ∀ n k, loop step n (states k) = some r →
        ∃ j, k ≤ j ∧ step (states j) = .inr r ∧ ∀ m, k ≤ m → m < j →
          ∃ s', step (states m) = .inl s' by
      obtain ⟨j, -, hleaves, hgoes⟩ := hfrom n 0 hloop
      exact ⟨j, ⟨r, hleaves, hpost⟩, fun m hm => hgoes m (Nat.zero_le m) hm⟩
    intro n
    induction n with
    | zero =>
      intro k hk
      cases hk
    | succ n ih =>
      intro k hk
      cases hstep : step (states k) with
      | inl s' =>
        rw [loop_of_inl hstep, hstates k s' hstep] at hk
        obtain ⟨j, hj, hleaves, hgoes⟩ := ih (k + 1) hk
        refine ⟨j, Nat.le_of_succ_le hj, hleaves, fun m hkm hmj => ?_⟩
        rcases Nat.eq_or_lt_of_le hkm with rfl | hlt
        · exact ⟨s', hstep⟩
        · exact hgoes m hlt hmj
      | inr r' =>
        rw [loop_of_inr hstep] at hk
        cases hk
        exact ⟨k, Nat.le_refl k, hstep, fun m hkm hmk => absurd hmk (Nat.not_lt_of_le hkm)⟩
  · rintro ⟨n, ⟨r, hleaves, hpost⟩, hgoes⟩
    refine ⟨n + 1, r, ?_, hpost⟩
    suffices hfrom : ∀ k j, k + j = n → loop step (j + 1) (states k) = some r from
      hfrom 0 n (Nat.zero_add n)
    intro k j
    induction j generalizing k with
    | zero =>
      rintro rfl
      exact loop_of_inr hleaves
    | succ j ih =>
      intro hkj
      obtain ⟨s', hs'⟩ := hgoes k (by omega)
      rw [loop_of_inl hs', hstates k s' hs']
      exact ih (k + 1) (by omega)

end MtkHw.Lib
