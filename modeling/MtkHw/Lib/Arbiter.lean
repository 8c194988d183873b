import Mathlib.Data.List.Induction
import Mathlib.Order.Bounds.Basic
import Mathlib.Tactic.Common

/-!
# Arbiters

Clients request values, and an arbiter grants the best one of the requests that are on: the
greatest or the least of their values and of a default.

An arbiter need not look at all requests at each change.  A request that is turned on is compared
with what is granted (`isGreatest_turn_on`).  When one is turned off, what is granted is still
right as long as the value turned off was worse (`isGreatest_turn_off`), and else a scan of the
requests that are left finds it (`isGreatest_scan`).  Each fact is stated for the greatest value
and for the least.
-/

namespace MtkHw.Lib

universe u v

variable {ι : Type u} {α : Type v}

/-- The default, and the values of the requests that are on. -/
def requests (on : ι → Prop) (value : ι → α) (default : α) : Set α :=
  insert default {x | ∃ i, on i ∧ value i = x}

variable {on on' : ι → Prop} {value value' : ι → α} {default x : α} {k : ι}

theorem mem_requests : x ∈ requests on value default ↔ x = default ∨ ∃ i, on i ∧ value i = x :=
  Iff.rfl

/-- Only the values of the requests that are on matter. -/
theorem requests_congr (hon : ∀ i, on i ↔ on' i) (hvalue : ∀ i, on i → value i = value' i) :
    requests on value default = requests on' value' default := by
  ext x
  rw [mem_requests, mem_requests]
  refine or_congr_right (exists_congr fun i => ?_)
  constructor
  · rintro ⟨hi, rfl⟩
    exact ⟨(hon i).mp hi, (hvalue i hi).symm⟩
  · rintro ⟨hi, rfl⟩
    exact ⟨(hon i).mpr hi, hvalue i ((hon i).mpr hi)⟩

/-- The requests after one is turned on. -/
theorem requests_turn_on (hon : ∀ i, on' i ↔ i = k ∨ on i) :
    requests on' value default = insert (value k) (requests on value default) := by
  ext x
  rw [Set.mem_insert_iff, mem_requests, mem_requests]
  constructor
  · rintro (rfl | ⟨i, hi, rfl⟩)
    · exact .inr (.inl rfl)
    · rcases (hon i).mp hi with rfl | hi
      · exact .inl rfl
      · exact .inr (.inr ⟨i, hi, rfl⟩)
  · rintro (rfl | rfl | ⟨i, hi, rfl⟩)
    · exact .inr ⟨k, (hon k).mpr (.inl rfl), rfl⟩
    · exact .inl rfl
    · exact .inr ⟨i, (hon i).mpr (.inr hi), rfl⟩

/-- With no request on, the default is granted. -/
theorem requests_none (hon : ∀ i, ¬ on i) : requests on value default = {default} := by
  ext x
  rw [mem_requests, Set.mem_singleton_iff]
  exact or_iff_left fun ⟨i, hi, _⟩ => hon i hi

variable [LinearOrder α]

/-- A request is turned on: the better value is granted. -/
theorem isGreatest_turn_on (h : IsGreatest (requests on value default) x)
    (hon : ∀ i, on' i ↔ i = k ∨ on i) :
    IsGreatest (requests on' value default) (max x (value k)) := by
  rw [requests_turn_on hon, max_comm]
  exact h.insert (value k)

theorem isLeast_turn_on (h : IsLeast (requests on value default) x)
    (hon : ∀ i, on' i ↔ i = k ∨ on i) :
    IsLeast (requests on' value default) (min x (value k)) := by
  rw [requests_turn_on hon, min_comm]
  exact h.insert (value k)

/-- A request that is not better than the default, or worse than what is granted, is turned
off: what is granted stays. -/
theorem isGreatest_turn_off (h : IsGreatest (requests on value default) x)
    (hon : ∀ i, on' i ↔ i ≠ k ∧ on i) (hk : value k ≤ default ∨ value k < x) :
    IsGreatest (requests on' value default) x := by
  refine ⟨?_, fun y hy => h.2 ?_⟩
  · rcases h.1 with rfl | ⟨i, hi, rfl⟩
    · exact .inl rfl
    · by_cases hik : i = k
      · subst hik
        rcases hk with hdefault | hlt
        · exact .inl (le_antisymm hdefault (h.2 (.inl rfl)))
        · exact absurd hlt (lt_irrefl _)
      · exact .inr ⟨i, (hon i).mpr ⟨hik, hi⟩, rfl⟩
  · rcases hy with rfl | ⟨i, hi, rfl⟩
    · exact .inl rfl
    · exact .inr ⟨i, ((hon i).mp hi).2, rfl⟩

theorem isLeast_turn_off (h : IsLeast (requests on value default) x)
    (hon : ∀ i, on' i ↔ i ≠ k ∧ on i) (hk : default ≤ value k ∨ x < value k) :
    IsLeast (requests on' value default) x :=
  isGreatest_turn_off (α := αᵒᵈ) h hon hk

/-- A greater default. -/
theorem isGreatest_default {default' : α} (h : IsGreatest (requests on value default) x)
    (hle : default ≤ default') : IsGreatest (requests on value default') (max default' x) := by
  refine ⟨?_, fun y hy => ?_⟩
  · rcases le_total x default' with hx | hx
    · rw [max_eq_left hx]
      exact .inl rfl
    · rw [max_eq_right hx]
      rcases h.1 with rfl | hon
      · exact .inl (le_antisymm hle hx)
      · exact .inr hon
  · rcases hy with rfl | hon
    · exact le_max_left _ _
    · exact (h.2 (.inr hon)).trans (le_max_right _ _)

theorem isLeast_default {default' : α} (h : IsLeast (requests on value default) x)
    (hle : default' ≤ default) : IsLeast (requests on value default') (min default' x) :=
  isGreatest_default (α := αᵒᵈ) h hle

/-! ## Scans -/

/-- Look at the requests of a list. -/
def scanRequests (op : α → α → α) (on : ι → Bool) (value : ι → α) (default : α) (is : List ι) : α :=
  is.foldl (fun x i => if on i then op x (value i) else x) default

theorem isGreatest_scan (on : ι → Bool) (value : ι → α) (default : α) (is : List ι) :
    IsGreatest (requests (fun i => i ∈ is ∧ on i = true) value default)
      (scanRequests max on value default is) := by
  induction is using List.reverseRecOn with
  | nil =>
    rw [requests_none fun i h => List.not_mem_nil h.1]
    exact isGreatest_singleton
  | append_singleton is k ih =>
    have hscan : scanRequests max on value default (is ++ [k]) =
        if on k then max (scanRequests max on value default is) (value k)
        else scanRequests max on value default is := by
      rw [scanRequests, List.foldl_append]
      rfl
    rw [hscan]
    cases hk : on k with
    | true =>
      refine isGreatest_turn_on ih fun i => ?_
      rw [List.mem_append, List.mem_singleton]
      constructor
      · rintro ⟨hi | rfl, hon⟩
        · exact .inr ⟨hi, hon⟩
        · exact .inl rfl
      · rintro (rfl | ⟨hi, hon⟩)
        · exact ⟨.inr rfl, hk⟩
        · exact ⟨.inl hi, hon⟩
    | false =>
      refine requests_congr (fun i => ?_) (fun _ _ => rfl) ▸ ih
      rw [List.mem_append, List.mem_singleton]
      constructor
      · rintro ⟨hi, hon⟩
        exact ⟨.inl hi, hon⟩
      · rintro ⟨hi | rfl, hon⟩
        · exact ⟨hi, hon⟩
        · rw [hk] at hon
          cases hon

theorem isLeast_scan (on : ι → Bool) (value : ι → α) (default : α) (is : List ι) :
    IsLeast (requests (fun i => i ∈ is ∧ on i = true) value default)
      (scanRequests min on value default is) :=
  isGreatest_scan (α := αᵒᵈ) on value default is

end MtkHw.Lib
