import Mathlib.Data.List.Count
import Mathlib.Data.List.Perm.Basic
import Mathlib.Data.Prod.Basic

/-!
# Things in custody

Places hold things that are given to them, and that leave them again in one of two ways: they are
handed out, or they are closed.  A `Ledger` says what was given to which place and what left it.
It is balanced with what the places hold now if nothing was lost, duplicated or made up
(`Ledger.Balanced`), and a handover at one place keeps it balanced if it is balanced itself
(`Balanced.record`).
-/

namespace MtkHw.Lib

universe u v

/-- What is given to a place and what leaves it, in one step. -/
structure Handover (α : Type v) where
  given : List α := []
  handedOut : List α := []
  closed : List α := []

/-- All that was given to the places, and all that left them. -/
structure Ledger (κ : Type u) (α : Type v) where
  given : List (κ × α) := []
  handedOut : List (κ × α) := []
  closed : List (κ × α) := []

namespace Ledger

variable {κ : Type u} {α : Type v}

/-- Note down a handover at a place. -/
def record (l : Ledger κ α) (k : κ) (t : Handover α) : Ledger κ α where
  given := l.given ++ t.given.map (Prod.mk k)
  handedOut := l.handedOut ++ t.handedOut.map (Prod.mk k)
  closed := l.closed ++ t.closed.map (Prod.mk k)

/-- Note down the handovers at several places. -/
def recordAll (l : Ledger κ α) (es : List (κ × Handover α)) : Ledger κ α :=
  es.foldl (fun l e => l.record e.1 e.2) l

variable [DecidableEq κ] [DecidableEq α]

/-- Whatever was given to a place was handed out once, or closed once, or is still there. -/
def Balanced (l : Ledger κ α) (held : κ → List α) : Prop :=
  ∀ k a, l.given.count (k, a) =
    l.handedOut.count (k, a) + l.closed.count (k, a) + (held k).count a

variable {l : Ledger κ α} {held held' : κ → List α} {k : κ} {t : Handover α}

/-- Nothing was given, and nothing is there. -/
theorem balanced_empty : ({} : Ledger κ α).Balanced fun _ => [] := fun _ _ => rfl

theorem count_map_self (as : List α) (a : α) : (as.map (Prod.mk k)).count (k, a) = as.count a :=
  List.count_map_of_injective as (Prod.mk k) (Prod.mk_right_injective k) a

theorem count_map_other (as : List α) (a : α) {j : κ} (hj : j ≠ k) :
    (as.map (Prod.mk k)).count (j, a) = 0 := by
  refine List.count_eq_zero.mpr fun hmem => ?_
  obtain ⟨b, -, heq⟩ := List.mem_map.mp hmem
  exact hj (congrArg Prod.fst heq).symm

namespace Balanced

/-- A handover at a place is balanced with what the place held and what it holds then. -/
theorem record (h : l.Balanced held)
    (hself : (t.given ++ held k).Perm (t.handedOut ++ t.closed ++ held' k))
    (hother : ∀ j, j ≠ k → held' j = held j) : (l.record k t).Balanced held' := by
  intro j a
  change (l.given ++ _).count _ = (l.handedOut ++ _).count _ + (l.closed ++ _).count _ + _
  rw [List.count_append, List.count_append, List.count_append, h j a]
  by_cases hj : j = k
  · subst hj
    have hcount := hself.count_eq a
    simp only [List.count_append] at hcount
    rw [count_map_self, count_map_self, count_map_self]
    omega
  · rw [count_map_other _ _ hj, count_map_other _ _ hj, count_map_other _ _ hj, hother j hj]
    omega

/-- The places hold the same. -/
theorem congr (h : l.Balanced held) (heq : ∀ k, held' k = held k) : l.Balanced held' := by
  intro k a
  rw [heq]
  exact h k a

/-- Handovers at different places are balanced if each of them is. -/
theorem recordAll {es : List (κ × Handover α)} (h : l.Balanced held)
    (hnodup : (es.map Prod.fst).Nodup)
    (hself : ∀ e ∈ es, (e.2.given ++ held e.1).Perm (e.2.handedOut ++ e.2.closed ++ held' e.1))
    (hother : ∀ k, k ∉ es.map Prod.fst → held' k = held k) : (l.recordAll es).Balanced held' := by
  induction es generalizing l held with
  | nil => exact h.congr fun k => hother k List.not_mem_nil
  | cons e es ih =>
    rw [List.map_cons, List.nodup_cons] at hnodup
    -- The first place already holds what it holds in the end.
    have hfirst : (l.record e.1 e.2).Balanced (Function.update held e.1 (held' e.1)) := by
      refine h.record ?_ fun j hj => Function.update_of_ne hj _ _
      rw [Function.update_self]
      exact hself e List.mem_cons_self
    refine ih hfirst hnodup.2 (fun e' he' => ?_) fun k hk => ?_
    · have hne : e'.1 ≠ e.1 := fun heq => hnodup.1 (heq ▸ List.mem_map_of_mem he')
      rw [Function.update_of_ne hne]
      exact hself e' (List.mem_cons_of_mem _ he')
    · by_cases heq : k = e.1
      · rw [heq, Function.update_self]
      · rw [Function.update_of_ne heq]
        refine hother k fun hmem => ?_
        rw [List.map_cons, List.mem_cons] at hmem
        exact hmem.elim heq hk

end Balanced

end Ledger

end MtkHw.Lib
