import Mathlib.Data.List.Basic
import Mathlib.Tactic.Common

/-!
# Positions in a filtered list

A list and what a filter leaves of it are indexed by two counters.  `rank` takes a position of the
list to the number of elements before it that pass, which is the position in the filtered list of
an element that passes itself.
-/

namespace MtkHw.Lib

universe u

variable {α : Type u} (p : α → Bool) (l m : List α)

/-- How many elements before a position pass the filter. -/
def rank (v : Nat) : Nat := ((l.take v).filter p).length

/-- The position in the filtered list of an element that passes. -/
theorem filter_rank {v : Nat} {a : α} (h : l[v]? = some a) (hp : p a = true) :
    (l.filter p)[rank p l v]? = some a := by
  obtain ⟨hv, rfl⟩ := List.getElem?_eq_some_iff.mp h
  have hcut : l.filter p = (l.take v).filter p ++ l[v] :: (l.drop (v + 1)).filter p := by
    conv => lhs; rw [← List.take_append_drop v l, List.drop_eq_getElem_cons hv]
    rw [List.filter_append, List.filter_cons_of_pos hp]
  rw [hcut, rank, List.getElem?_append_right (Nat.le_refl _), Nat.sub_self]
  rfl

/-- Every position of the filtered list is one of an element that passes. -/
theorem exists_rank {i : Nat} {a : α} (h : (l.filter p)[i]? = some a) :
    ∃ v, l[v]? = some a ∧ p a = true ∧ rank p l v = i := by
  induction l generalizing i with
  | nil => exact absurd h (by simp)
  | cons b l ih =>
    by_cases hb : p b = true
    · rw [List.filter_cons_of_pos hb] at h
      cases i with
      | zero =>
        cases h
        exact ⟨0, rfl, hb, rfl⟩
      | succ i =>
        obtain ⟨v, hv, hpass, hrank⟩ := ih h
        refine ⟨v + 1, hv, hpass, ?_⟩
        rw [rank, List.take_succ_cons, List.filter_cons_of_pos hb, List.length_cons]
        exact congrArg (· + 1) hrank
    · rw [List.filter_cons_of_neg hb] at h
      obtain ⟨v, hv, hpass, hrank⟩ := ih h
      refine ⟨v + 1, hv, hpass, ?_⟩
      rw [rank, List.take_succ_cons, List.filter_cons_of_neg hb]
      exact hrank

theorem rank_le (v : Nat) : rank p l v ≤ v :=
  Nat.le_trans (List.length_filter_le _ _) (List.length_take_le _ _)

/-- The positions keep their order. -/
theorem rank_lt_rank {v w : Nat} {a : α} (hlt : v < w) (h : l[v]? = some a) (hp : p a = true) :
    rank p l v < rank p l w := by
  obtain ⟨hv, rfl⟩ := List.getElem?_eq_some_iff.mp h
  have hstart : l.take (v + 1) <+: l.take w := List.take_prefix_take_left hlt
  have hle := (hstart.filter p).length_le
  rw [List.take_succ_eq_append_getElem hv, List.filter_append, List.length_append,
    List.filter_cons_of_pos hp] at hle
  exact hle

/-- Where everything passes, the two counters agree. -/
theorem rank_eq_self {v : Nat} (hv : v ≤ l.length) (hall : ∀ a ∈ l.take v, p a = true) :
    rank p l v = v := by
  rw [rank, List.filter_eq_self.mpr hall, List.length_take, Nat.min_eq_left hv]

/-- A position in the first part of a list. -/
theorem rank_append_left {v : Nat} (hv : v ≤ l.length) : rank p (l ++ m) v = rank p l v := by
  rw [rank, List.take_append_of_le_length hv, rank]

/-- A position after the first part of a list. -/
theorem rank_append_right (v : Nat) :
    rank p (l ++ m) (l.length + v) = (l.filter p).length + rank p m v := by
  rw [rank, List.take_length_add_append, List.filter_append, List.length_append, rank]

end MtkHw.Lib
