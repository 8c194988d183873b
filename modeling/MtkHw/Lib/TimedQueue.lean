import Mathlib.Data.List.DropRight
import Mathlib.Data.List.TakeWhile
import Mathlib.Tactic.Common

/-!
# Queues ordered by due time

A queue whose entries have a due time, first in first out among equal times: what
is sent goes behind everything that is due no later.
-/

namespace MtkHw.Lib

universe u

variable {α : Type u}

/-- Something with the time it is due. -/
structure Timed (α : Type u) where
  due : Nat
  item : α
deriving DecidableEq, Repr

/-- It is due by the time `due`. -/
def Timed.isDue (due : Nat) (t : Timed α) : Bool := t.due ≤ due

/-- `x` goes behind what is due by the time `due`. -/
def sendAtTime (due : Nat) (queue : List (Timed α)) (x : α) : List (Timed α) :=
  queue.takeWhile (Timed.isDue due) ++ ⟨due, x⟩ :: queue.dropWhile (Timed.isDue due)

/-- What is due last goes to the end. -/
theorem sendAtTime_of_le {due : Nat} {queue : List (Timed α)} (h : ∀ t ∈ queue, t.due ≤ due)
    (x : α) : sendAtTime due queue x = queue ++ [⟨due, x⟩] := by
  have hall : ∀ t ∈ queue, Timed.isDue due t = true := fun t ht => decide_eq_true (h t ht)
  rw [sendAtTime, List.takeWhile_eq_self_iff.mpr hall, List.dropWhile_eq_nil_iff.mpr hall]

theorem isDue_mk (due : Nat) (x : α) : Timed.isDue due ⟨due, x⟩ = true :=
  decide_eq_true (Nat.le_refl due)

theorem takeWhile_sendAtTime (due : Nat) (queue : List (Timed α)) (x : α) :
    (sendAtTime due queue x).takeWhile (Timed.isDue due) =
      queue.takeWhile (Timed.isDue due) ++ [⟨due, x⟩] := by
  rw [sendAtTime, List.takeWhile_append_of_pos fun t => List.mem_takeWhile_imp,
    List.takeWhile_cons_of_pos (isDue_mk due x)]
  congr 2
  induction queue with
  | nil => rfl
  | cons t queue ih =>
    rw [List.dropWhile_cons]
    split
    · exact ih
    · rename_i hlate
      exact List.takeWhile_cons_of_neg hlate

theorem dropWhile_sendAtTime (due : Nat) (queue : List (Timed α)) (x : α) :
    (sendAtTime due queue x).dropWhile (Timed.isDue due) =
      queue.dropWhile (Timed.isDue due) := by
  rw [sendAtTime, List.dropWhile_append_of_pos fun t => List.mem_takeWhile_imp,
    List.dropWhile_cons_of_pos (isDue_mk due x), List.dropWhile_idempotent]

/-- What is sent at one time stays together, in order. -/
theorem foldl_sendAtTime (due : Nat) (queue : List (Timed α)) (xs : List α) :
    xs.foldl (sendAtTime due) queue = queue.takeWhile (Timed.isDue due) ++
      xs.map (Timed.mk due) ++ queue.dropWhile (Timed.isDue due) := by
  induction xs generalizing queue with
  | nil => simp
  | cons x xs ih =>
    rw [List.foldl_cons, ih, takeWhile_sendAtTime, dropWhile_sendAtTime]
    simp

end MtkHw.Lib
