import Mathlib.Data.List.Basic
import Mathlib.Data.List.Range
import Mathlib.Tactic.Common

/-!
# Ring buffers over a flat memory

A ring buffer is a flat memory of `n` cells together with a read position, a
write position and a count.  This file develops the part of it that mentions no
particular program: positions that wrap around (`next`, `advance`), the cells
met when walking from a position (`walk`), block copies into and out of the
memory (`blit`, `slice`) and the two-part copies that a wrapping program makes
(`put`, `get`).

The memory is a total function `Nat → α`; only the cells below `n` are ever met.
The two main results say that the two-part copies are what they are meant to be:
`walk_put` (a copy in appends to what is stored) and `get_eq_walk` (a copy out
reads what is stored).
-/

namespace MtkHw.Lib.Ring

universe u

variable {α : Type u} {n : Nat}

/-! ## Positions -/

/-- The position after `p` in a ring of `n` cells. -/
def next (n p : Nat) : Nat := if p + 1 = n then 0 else p + 1

/-- The position `k` places after `p`, for `k` at most one revolution. -/
def advance (n p k : Nat) : Nat := if p + k < n then p + k else p + k - n

@[simp] theorem advance_zero {p : Nat} (hp : p < n) : advance n p 0 = p := by
  simp [advance, hp]

/-- Advancing stays inside the ring. -/
theorem advance_lt {p k : Nat} (hp : p < n) (hk : k ≤ n) : advance n p k < n := by
  unfold advance
  split <;> omega

/-- The next position stays inside the ring. -/
theorem next_lt {p : Nat} (hp : p < n) : next n p < n := by
  unfold next
  split <;> omega

/-- Advancing by `k + 1` is advancing by `k` from the next position. -/
theorem advance_succ {p k : Nat} (hk : k + 1 ≤ n) :
    advance n p (k + 1) = advance n (next n p) k := by
  unfold advance next
  split <;> split <;> split <;> omega

/-- The next position is one place on. -/
theorem next_eq_advance {p : Nat} (hp : p < n) : next n p = advance n p 1 := by
  unfold next advance
  split <;> split <;> omega

/-- Advancing in two goes. -/
theorem advance_advance {p j k : Nat} (hp : p < n) (hjk : j + k ≤ n) :
    advance n (advance n p j) k = advance n p (j + k) := by
  unfold advance
  split <;> split <;> split <;> omega

/-- Advancing is addition modulo the size of the ring. -/
theorem advance_eq_mod {p k : Nat} (hp : p < n) (hk : k ≤ n) :
    advance n p k = (p + k) % n := by
  unfold advance
  split
  · rename_i h
    exact (Nat.mod_eq_of_lt h).symm
  · rename_i h
    rw [Nat.mod_eq_sub_mod (by omega), Nat.mod_eq_of_lt (by omega)]

/-- Two advances of less than one revolution meet different cells. -/
theorem advance_ne {p j k : Nat} (hjk : j < k) (hk : k < n) :
    advance n p j ≠ advance n p k := by
  unfold advance
  split <;> split <;> omega

/-! ## Walking -/

/-- The `k` cells met when walking from position `p`. -/
def walk (n : Nat) (data : Nat → α) : Nat → Nat → List α
  | _, 0 => []
  | p, k + 1 => data p :: walk n data (next n p) k

@[simp] theorem walk_zero (data : Nat → α) (p : Nat) : walk n data p 0 = [] := rfl

theorem walk_succ (data : Nat → α) (p k : Nat) :
    walk n data p (k + 1) = data p :: walk n data (next n p) k := rfl

@[simp] theorem length_walk (data : Nat → α) (p k : Nat) :
    (walk n data p k).length = k := by
  induction k generalizing p with
  | zero => rfl
  | succ k ih => simp [walk, ih]

/-- A memory of equal cells. -/
theorem walk_const (x : α) (p k : Nat) : walk n (fun _ => x) p k = List.replicate k x := by
  induction k generalizing p with
  | zero => rfl
  | succ k ih => rw [walk_succ, ih, List.replicate_succ]

/-- A walk splits at any intermediate position. -/
theorem walk_add (data : Nat → α) {p j k : Nat} (hp : p < n) (hjk : j + k ≤ n) :
    walk n data p (j + k) = walk n data p j ++ walk n data (advance n p j) k := by
  induction j generalizing p with
  | zero => simp [advance_zero hp]
  | succ j ih =>
    have hrest : walk n data (next n p) (j + k) =
        walk n data (next n p) j ++ walk n data (advance n (next n p) j) k :=
      ih (next_lt hp) (by omega)
    rw [advance_succ (by omega), show j + 1 + k = (j + k) + 1 by omega,
      walk_succ, walk_succ, hrest]
    rfl

/-- Walks only look at the cells they meet. -/
theorem walk_congr {data data' : Nat → α} {p k : Nat} (hp : p < n) (hk : k ≤ n)
    (h : ∀ i < k, data (advance n p i) = data' (advance n p i)) :
    walk n data p k = walk n data' p k := by
  induction k generalizing p with
  | zero => rfl
  | succ k ih =>
    have h0 : data p = data' p := by simpa [advance_zero hp] using h 0 (by omega)
    have hrest : walk n data (next n p) k = walk n data' (next n p) k := by
      refine ih (next_lt hp) (by omega) fun i hi => ?_
      have := h (i + 1) (by omega)
      rwa [advance_succ (by omega)] at this
    rw [walk_succ, walk_succ, h0, hrest]

/-- The cell a walk meets after `i` places. -/
theorem getElem?_walk (data : Nat → α) {p k i : Nat} (hp : p < n) (hk : k ≤ n) (hi : i < k) :
    (walk n data p k)[i]? = some (data (advance n p i)) := by
  induction i generalizing p k with
  | zero =>
    cases k with
    | zero => omega
    | succ k => simp [walk, advance_zero hp]
  | succ i ih =>
    cases k with
    | zero => omega
    | succ k =>
      rw [walk_succ, List.getElem?_cons_succ, ih (next_lt hp) (by omega) (by omega),
        advance_succ (by omega)]

/-! ## Block copies -/

/-- The `k` cells of a flat memory from `p` on: the source of a block copy. -/
def slice (data : Nat → α) (p k : Nat) : List α := (List.range k).map fun i => data (p + i)

/-- A block copy into a flat memory. -/
def blit (data : Nat → α) (p : Nat) (src : List α) : Nat → α := fun i =>
  if p ≤ i then (src[i - p]?).getD (data i) else data i

@[simp] theorem length_slice (data : Nat → α) (p k : Nat) : (slice data p k).length = k := by
  simp [slice]

/-- A block copy writes its source. -/
theorem blit_of_mem (data : Nat → α) {p i : Nat} {src : List α} (hi : i < src.length) :
    blit data p src (p + i) = src[i] := by
  simp [blit, hi]

/-- A block copy leaves the cells before and behind it alone. -/
theorem blit_of_notMem (data : Nat → α) {p i : Nat} {src : List α}
    (hi : i < p ∨ p + src.length ≤ i) : blit data p src i = data i := by
  unfold blit
  split
  · rw [List.getElem?_eq_none (by omega)]
    rfl
  · rfl

@[simp] theorem blit_nil (data : Nat → α) (p : Nat) : blit data p [] = data := by
  funext i
  simp [blit]

/-- A slice in two parts. -/
theorem slice_add (data : Nat → α) (p j k : Nat) :
    slice data p (j + k) = slice data p j ++ slice data (p + j) k := by
  simp [slice, List.range_add, Nat.add_assoc]

theorem slice_add_zero (data : Nat → α) (j k : Nat) :
    slice data 0 (j + k) = slice data 0 j ++ slice data j k := by
  rw [slice_add, Nat.zero_add]

/-- A block copy to the end of a slice appends to it. -/
theorem slice_blit (data : Nat → α) (p k : Nat) (src : List α) :
    slice (blit data (p + k) src) p (k + src.length) = slice data p k ++ src := by
  rw [slice_add]
  congr 1
  · refine List.map_congr_left fun i hi => ?_
    exact blit_of_notMem data (.inl (Nat.add_lt_add_left (List.mem_range.mp hi) p))
  · refine List.ext_getElem (length_slice ..) fun i hi hi' => ?_
    simp only [slice, List.getElem_map, List.getElem_range]
    exact blit_of_mem data hi'

/-- Walking without meeting the end of the memory is a block copy. -/
theorem walk_eq_slice (data : Nat → α) {p k : Nat} (hk : p + k ≤ n) :
    walk n data p k = slice data p k := by
  refine List.ext_getElem? fun i => ?_
  by_cases hi : i < k
  · rw [getElem?_walk data (by omega) (by omega) hi]
    simp [slice, hi, advance, show p + i < n by omega]
  · rw [List.getElem?_eq_none (by simp; omega), List.getElem?_eq_none (by simp; omega)]

/-! ## Two-part copies -/

/-- A copy out of the ring, in one or two parts. -/
def get (n : Nat) (data : Nat → α) (p k : Nat) : List α :=
  if k > n - p then slice data p (n - p) ++ slice data 0 (k - (n - p)) else slice data p k

/-- A copy into the ring, in one or two parts. -/
def put (n : Nat) (data : Nat → α) (p : Nat) (src : List α) : Nat → α :=
  if src.length > n - p then
    blit (blit data p (src.take (n - p))) 0 (src.drop (n - p))
  else blit data p src

/-- Where a pointer at `p` stands after a copy of `k` cells in one or two parts. -/
def moved (n p k : Nat) : Nat :=
  if k > n - p then k - (n - p) else if p + k = n then 0 else p + k

theorem moved_eq_advance {p k : Nat} (hp : p < n) : moved n p k = advance n p k := by
  unfold moved advance
  split <;> split <;> try split
  all_goals omega

/-- A copy out reads the cells a walk meets. -/
theorem get_eq_walk (data : Nat → α) {p k : Nat} (hp : p < n) (hk : k ≤ n) :
    get n data p k = walk n data p k := by
  unfold get
  split
  · rename_i h
    have hadv : advance n p (n - p) = 0 := by
      unfold advance
      split <;> omega
    conv_rhs => rw [show k = (n - p) + (k - (n - p)) by omega]
    rw [walk_add data hp (by omega), hadv, walk_eq_slice data (p := p) (by omega),
      walk_eq_slice data (p := 0) (by omega)]
  · exact (walk_eq_slice data (by omega)).symm

/-- The cells a copy in has written. -/
theorem put_advance (data : Nat → α) {p i : Nat} {src : List α} (hp : p < n)
    (hlen : src.length ≤ n) (hi : i < src.length) :
    put n data p src (advance n p i) = src[i] := by
  unfold put
  split
  · by_cases hlt : p + i < n
    · have h0 : blit (blit data p (src.take (n - p))) 0 (src.drop (n - p)) (p + i) =
          blit data p (src.take (n - p)) (p + i) :=
        blit_of_notMem _ (.inr (by simp; omega))
      rw [advance, if_pos hlt, h0, blit_of_mem _ (by simp; omega), List.getElem_take]
    · have hidx : p + i - n = 0 + (i - (n - p)) := by omega
      rw [advance, if_neg hlt, hidx, blit_of_mem _ (by simp; omega), List.getElem_drop]
      congr 1
      omega
  · have hlt : p + i < n := by omega
    rw [advance, if_pos hlt, blit_of_mem _ hi]

/-- The cells a copy in leaves alone: those that it does not meet. -/
theorem put_of_ne (data : Nat → α) {p j : Nat} {src : List α} (hp : p < n) (hj : j < n)
    (h : ∀ i < src.length, advance n p i ≠ j) :
    put n data p src j = data j := by
  have hne : ∀ i < src.length, (p + i < n → p + i ≠ j) ∧ (¬ p + i < n → p + i - n ≠ j) := by
    intro i hi
    have := h i hi
    unfold advance at this
    split at this <;> exact ⟨fun _ => by omega, fun _ => by omega⟩
  unfold put
  split
  · rename_i hbig
    rw [blit_of_notMem, blit_of_notMem]
    · by_contra hc
      simp only [List.length_take, not_or, not_lt, not_le] at hc
      exact (hne (j - p) (by omega)).1 (by omega) (by omega)
    · by_contra hc
      simp only [List.length_drop, not_or, not_lt, not_le] at hc
      exact (hne (j + (n - p)) (by omega)).2 (by omega) (by omega)
  · rw [blit_of_notMem]
    by_contra hc
    simp only [not_or, not_lt, not_le] at hc
    exact (hne (j - p) (by omega)).1 (by omega) (by omega)

/-- **A copy in appends.**  Copying `src` to the position behind the `k` stored
cells makes the ring hold those cells followed by `src`. -/
theorem walk_put (data : Nat → α) {p k : Nat} {src : List α} (hp : p < n)
    (hlen : k + src.length ≤ n) (hw : advance n p k < n) :
    walk n (put n data (advance n p k) src) p (k + src.length) = walk n data p k ++ src := by
  rw [walk_add _ hp hlen]
  congr 1
  · refine walk_congr hp (by omega) fun i hi => ?_
    refine put_of_ne data hw (advance_lt hp (by omega)) fun j hj => ?_
    rw [advance_advance hp (by omega)]
    exact (advance_ne (by omega) (by omega)).symm
  · refine List.ext_getElem? fun i => ?_
    by_cases hi : i < src.length
    · rw [getElem?_walk _ hw (by omega) hi, put_advance data hw (by omega) hi,
        List.getElem?_eq_getElem hi]
    · rw [List.getElem?_eq_none (by simp; omega), List.getElem?_eq_none (by omega)]

/-- A copy in that reaches the end of the memory takes two parts. -/
theorem put_of_le (data : Nat → α) {p : Nat} {src : List α} (h : n - p ≤ src.length) :
    put n data p src = blit (blit data p (src.take (n - p))) 0 (src.drop (n - p)) := by
  unfold put
  split
  · rfl
  · obtain hlen : src.length = n - p := by omega
    rw [← hlen, List.take_length, List.drop_length, blit_nil]

/-! ## What a ring stores -/

/-- The cells from position `p` on hold `xs`. -/
structure Stores (n : Nat) (data : Nat → α) (p : Nat) (xs : List α) : Prop where
  lt : p < n
  length_le : xs.length ≤ n
  walk_eq : walk n data p xs.length = xs

namespace Stores

variable {data : Nat → α} {p : Nat} {xs : List α}

theorem nil (data : Nat → α) (hp : p < n) : Stores n data p [] := ⟨hp, Nat.zero_le n, rfl⟩

theorem write_lt (h : Stores n data p xs) : advance n p xs.length < n :=
  advance_lt h.lt h.length_le

/-- A part of what is stored is read from its place. -/
theorem walk_part (h : Stores n data p xs) {j k : Nat} (hjk : j + k ≤ xs.length) :
    walk n data (advance n p j) k = (xs.drop j).take k := by
  have hle := h.length_le
  have hwalk := h.walk_eq
  rw [show xs.length = j + (k + (xs.length - (j + k))) by omega,
    walk_add data h.lt (by omega),
    walk_add data (advance_lt h.lt (by omega)) (by omega)] at hwalk
  rw [← hwalk, List.drop_left' (length_walk ..), List.take_left' (length_walk ..)]

/-- Giving up the first cells. -/
theorem advance (h : Stores n data p xs) {j : Nat} (hj : j ≤ xs.length) :
    Stores n data (Ring.advance n p j) (xs.drop j) := by
  have hle := h.length_le
  refine ⟨advance_lt h.lt (hj.trans hle), ?_, ?_⟩
  · rw [List.length_drop]
    omega
  · rw [h.walk_part (by rw [List.length_drop]; omega)]
    exact List.take_length

/-- A copy behind what is stored appends to it. -/
theorem put (h : Stores n data p xs) {src : List α} (hlen : xs.length + src.length ≤ n) :
    Stores n (Ring.put n data (Ring.advance n p xs.length) src) p (xs ++ src) := by
  refine ⟨h.lt, by rwa [List.length_append], ?_⟩
  rw [List.length_append, walk_put data h.lt hlen h.write_lt, h.walk_eq]

/-- Only the cells of the ring count. -/
theorem congr (h : Stores n data p xs) {data' : Nat → α} (heq : ∀ i < n, data i = data' i) :
    Stores n data' p xs := by
  refine ⟨h.lt, h.length_le, ?_⟩
  rw [← walk_congr h.lt h.length_le fun i hi => heq _ (advance_lt h.lt (hi.le.trans h.length_le))]
  exact h.walk_eq

end Stores

end MtkHw.Lib.Ring
