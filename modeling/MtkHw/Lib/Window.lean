import Mathlib.Data.List.Basic
import Mathlib.Data.List.GetD
import Mathlib.Tactic.Common

/-!
# Windows of a list

A window is the part of a list from a position on, up to a length.  Windows that stand
side by side make one window, a window of a window is a window of the list, and a window
of words of the same length that lies in one word is a window of that word.
-/

namespace MtkHw.Lib

universe u

variable {α : Type u}

/-- The `n` elements from position `p` on. -/
def window (xs : List α) (p n : Nat) : List α := (xs.drop p).take n

@[simp] theorem window_zero (xs : List α) (p : Nat) : window xs p 0 = [] := List.take_zero

theorem length_window {xs : List α} {p n : Nat} (h : p + n ≤ xs.length) :
    (window xs p n).length = n := by
  rw [window, List.length_take, List.length_drop]
  omega

/-- The whole list. -/
theorem window_self (xs : List α) : window xs 0 xs.length = xs := by
  rw [window, List.drop_zero, List.take_length]

/-- Windows side by side. -/
theorem window_append_window (xs : List α) (p m n : Nat) :
    window xs p m ++ window xs (p + m) n = window xs p (m + n) := by
  rw [window, window, window, List.take_add, List.drop_drop]

/-- A window of a window. -/
theorem window_window (xs : List α) {p n a m : Nat} (h : a + m ≤ n) :
    window (window xs p n) a m = window xs (p + a) m := by
  rw [window, window, window, List.drop_take, List.drop_drop, List.take_take,
    Nat.min_eq_left (Nat.le_sub_of_add_le' h)]

/-- An element of a window. -/
theorem getD_window (xs : List α) {p n i : Nat} (h : i < n) (x : α) :
    (window xs p n).getD i x = xs.getD (p + i) x := by
  rw [List.getD_eq_getElem?_getD, List.getD_eq_getElem?_getD, window, List.getElem?_take_of_lt h,
    List.getElem?_drop]

/-- A window that starts behind the first part of a list. -/
theorem window_append_of_le {xs : List α} {p : Nat} (h : xs.length ≤ p) (ys : List α) (n : Nat) :
    window (xs ++ ys) p n = window ys (p - xs.length) n := by
  rw [window, List.drop_append, List.drop_eq_nil_of_le h, List.nil_append, window]

/-- A window in the first part of a list. -/
theorem window_append_left {xs : List α} {p n : Nat} (h : p + n ≤ xs.length) (ys : List α) :
    window (xs ++ ys) p n = window xs p n := by
  rw [window, List.drop_append_of_le_length (Nat.le_of_add_right_le h),
    List.take_append_of_le_length (by rw [List.length_drop]; omega), window]

/-- A window in one of some words of the same length. -/
theorem window_flatten {words : List (List α)} {size : Nat}
    (hsize : ∀ word ∈ words, word.length = size) {k a m : Nat} (h : a + m ≤ size)
    {word : List α} (hk : words[k]? = some word) :
    window words.flatten (size * k + a) m = window word a m := by
  induction words generalizing k with
  | nil => simp at hk
  | cons w words ih =>
    have hw := hsize w List.mem_cons_self
    rw [List.flatten_cons]
    cases k with
    | zero =>
      obtain rfl : w = word := by simpa using hk
      rw [Nat.mul_zero, Nat.zero_add, window_append_left (Nat.le_trans h (Nat.le_of_eq hw.symm))]
    | succ k =>
      have hle : w.length ≤ size * (k + 1) + a := by
        rw [hw, Nat.mul_succ]
        omega
      rw [window_append_of_le hle, hw, Nat.mul_succ,
        show size * k + size + a - size = size * k + a by omega]
      exact ih (fun v hv => hsize v (List.mem_cons_of_mem w hv)) hk

theorem length_flatten_of_size {words : List (List α)} {size : Nat}
    (hsize : ∀ word ∈ words, word.length = size) : words.flatten.length = size * words.length := by
  induction words with
  | nil => rfl
  | cons w words ih =>
    rw [List.flatten_cons, List.length_append, hsize w List.mem_cons_self,
      ih fun v hv => hsize v (List.mem_cons_of_mem w hv), List.length_cons, Nat.mul_succ,
      Nat.add_comm]

end MtkHw.Lib
