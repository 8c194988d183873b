import Mathlib.Data.List.Basic
import Mathlib.Tactic.Common

/-!
# Traces of bounded length

`Within ok n steps` says that a trace has at most `n` steps and that all of them are allowed.  The
rules put a trace together from those of its parts.
-/

namespace MtkHw.Lib.Trace

universe u v

variable {σ : Type u} {ι : Type v} {ok : σ → Prop} {n m : Nat} {steps steps' : List σ}

/-- A trace of at most `n` steps, all of them allowed. -/
structure Within (ok : σ → Prop) (n : Nat) (steps : List σ) : Prop where
  allowed : ∀ s ∈ steps, ok s
  length_le : steps.length ≤ n

namespace Within

theorem nil : Within ok n [] := ⟨fun _ h => absurd h List.not_mem_nil, Nat.zero_le n⟩

theorem mono (h : Within ok n steps) (hle : n ≤ m) : Within ok m steps :=
  ⟨h.allowed, Nat.le_trans h.length_le hle⟩

theorem cons {s : σ} (hs : ok s) (h : Within ok n steps) : Within ok (n + 1) (s :: steps) := by
  refine ⟨fun t ht => ?_, Nat.succ_le_succ h.length_le⟩
  rcases List.mem_cons.mp ht with rfl | ht
  · exact hs
  · exact h.allowed t ht

theorem single {s : σ} (hs : ok s) : Within ok (n + 1) [s] := cons hs nil

theorem append (h : Within ok n steps) (h' : Within ok m steps') :
    Within ok (n + m) (steps ++ steps') := by
  constructor
  · intro s hs
    rcases List.mem_append.mp hs with hs | hs
    · exact h.allowed s hs
    · exact h'.allowed s hs
  · rw [List.length_append]
    exact Nat.add_le_add h.length_le h'.length_le

/-- Traces that come one after the other. -/
theorem flatMap {items : List ι} {f : ι → List σ} (h : ∀ i ∈ items, Within ok n (f i)) :
    Within ok (items.length * n) (items.flatMap f) := by
  induction items with
  | nil => exact nil
  | cons i items ih =>
    have hi := h i List.mem_cons_self
    have hrest := ih fun j hj => h j (List.mem_cons_of_mem i hj)
    rw [List.flatMap_cons, List.length_cons]
    exact (hi.append hrest).mono (Nat.le_of_eq (by rw [Nat.succ_mul, Nat.add_comm]))

/-- A trace with one step for each item. -/
theorem map {items : List ι} {f : ι → σ} (h : ∀ i ∈ items, ok (f i)) :
    Within ok items.length (items.map f) := by
  constructor
  · intro s hs
    obtain ⟨i, hi, rfl⟩ := List.mem_map.mp hs
    exact h i hi
  · exact Nat.le_of_eq (List.length_map f)

/-- The rounds of a counting loop. -/
theorem flatMap_range {k : Nat} {f : Nat → List σ} (h : ∀ i < k, Within ok n (f i)) :
    Within ok (k * n) ((List.range k).flatMap f) := by
  have hrounds : Within ok ((List.range k).length * n) ((List.range k).flatMap f) :=
    flatMap fun i hi => h i (List.mem_range.mp hi)
  rwa [List.length_range] at hrounds

/-- A counting loop with one step a round. -/
theorem map_range {k : Nat} {f : Nat → σ} (h : ∀ i < k, ok (f i)) :
    Within ok k ((List.range k).map f) := by
  have hrounds : Within ok (List.range k).length ((List.range k).map f) :=
    map fun i hi => h i (List.mem_range.mp hi)
  rwa [List.length_range] at hrounds

/-- A trace that is only there under a condition. -/
theorem ite {P : Prop} [Decidable P] (h : P → Within ok n steps) (h' : ¬ P → Within ok n steps') :
    Within ok n (if P then steps else steps') := by
  split
  · rename_i hP
    exact h hP
  · rename_i hP
    exact h' hP

end Within

end MtkHw.Lib.Trace
