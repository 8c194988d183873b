import Mathlib.Data.List.Basic

/-!
# Greedy admission

Requests are served in order.  Some of them must be admitted; the others are admitted as long as
fewer than `cap` requests have been.  So the first `cap` requests are all admitted, and after them
only those that must be (`admitted_eq`), which says when the whole keeps to the cap.
-/

namespace MtkHw.Lib

universe u

variable {α : Type u} (must : α → Bool) (cap : Nat)

/-- The requests that are admitted, when `n` have been before. -/
def admitted : Nat → List α → List α
  | _, [] => []
  | n, a :: as =>
      if must a then a :: admitted (n + 1) as
      else if n < cap then a :: admitted (n + 1) as
      else admitted n as

/-- The first requests up to the cap are admitted, then those that must be. -/
theorem admitted_eq (n : Nat) (as : List α) :
    admitted must cap n as = as.take (cap - n) ++ (as.drop (cap - n)).filter must := by
  induction as generalizing n with
  | nil => rw [List.take_nil, List.drop_nil, admitted, List.filter_nil, List.append_nil]
  | cons a as ih =>
    rw [admitted]
    by_cases hn : n < cap
    · have hsub : cap - n = cap - (n + 1) + 1 := by omega
      rw [if_pos hn, ite_self, ih, hsub, List.take_succ_cons, List.drop_succ_cons,
        List.cons_append]
    · have hzero : cap - n = 0 := by omega
      have hzero' : cap - (n + 1) = 0 := by omega
      rw [if_neg hn, ih, ih, hzero, hzero']
      change _ = (a :: as).filter must
      rw [List.filter_cons]
      rfl

/-- The cap is kept by all requests together, or the requests that must be admitted are too many
for it and no other is admitted. -/
def KeepsCap (as : List α) : Prop :=
  (admitted must cap 0 as).length ≤ cap ∨
    (cap < as.countP must ∧ ∀ a ∈ admitted must cap 0 as, must a)

variable {must cap}

/-- That is so exactly if no request that must be admitted comes after the first `cap`, or all of
these must be. -/
theorem keepsCap_iff {as : List α} : KeepsCap must cap as ↔
    (∀ a ∈ as.drop cap, ¬must a) ∨ ∀ a ∈ as.take cap, must a := by
  have hadmitted : admitted must cap 0 as = as.take cap ++ (as.drop cap).filter must :=
    admitted_eq must cap 0 as
  rw [KeepsCap, hadmitted, List.length_append]
  constructor
  · rintro (hlen | ⟨-, hall⟩)
    · by_cases hdrop : ∀ a ∈ as.drop cap, ¬must a
      · exact .inl hdrop
      · push Not at hdrop
        obtain ⟨a, ha, hmust⟩ := hdrop
        have htake : cap < as.length := by
          have hpos := List.length_pos_of_mem ha
          rw [List.length_drop] at hpos
          omega
        have hfilter := List.length_pos_of_mem (List.mem_filter.mpr ⟨ha, hmust⟩)
        rw [List.length_take] at hlen
        omega
    · exact .inr fun a ha => hall a (List.mem_append_left _ ha)
  · rintro (hdrop | htake)
    · left
      rw [List.filter_eq_nil_iff.mpr hdrop, List.length_take, List.length_nil]
      omega
    · by_cases hle : (as.take cap).length + ((as.drop cap).filter must).length ≤ cap
      · exact .inl hle
      · refine .inr ⟨?_, fun a ha => ?_⟩
        · have hcount : as.countP must = (as.take cap).countP must + (as.drop cap).countP must := by
            rw [← List.countP_append, List.take_append_drop]
          rw [hcount, List.countP_eq_length.mpr htake, List.countP_eq_length_filter]
          omega
        · rw [List.mem_append] at ha
          exact ha.elim (htake a) fun hmem => (List.mem_filter.mp hmem).2

end MtkHw.Lib
