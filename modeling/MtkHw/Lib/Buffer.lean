import MtkHw.Lib.CString

/-!
# Filling a buffer from the front

Several bytes are written to a memory at once (`storeAll`, `sprintfAt`), with one check of the
bounds.  `Front mem txt` says that the bytes `txt` stand at the front; writing behind them appends
to them, and with a zero behind them they are a string.
-/

namespace MtkHw.Lib

open Lib.Ring

/-- Writes several bytes to a memory of `size` bytes. -/
def storeAll (mem : Nat → UInt8) (size p : Nat) (bs : List UInt8) : Option (Nat → UInt8) :=
  if p + bs.length ≤ size then some (blit mem p bs) else none

/-- `sprintf(mem + p, ...)` of a text. -/
def sprintfAt (mem : Nat → UInt8) (size p : Nat) (txt : List UInt8) : Option (Nat → UInt8) :=
  storeAll mem size p (txt ++ [0])

/-- The bytes stand at the front of the memory. -/
def Front (mem : Nat → UInt8) (txt : List UInt8) : Prop := slice mem 0 txt.length = txt

section Front

variable {mem : Nat → UInt8} {size p : Nat} {a b txt : List UInt8}

theorem storeAll_of_le (h : p + txt.length ≤ size) :
    storeAll mem size p txt = some (blit mem p txt) := if_pos h

theorem sprintfAt_of_lt (h : p + txt.length < size) :
    sprintfAt mem size p txt = some (blit mem p (txt ++ [0])) :=
  storeAll_of_le (by rwa [List.length_append])

theorem blit_singleton (mem : Nat → UInt8) (p : Nat) (b : UInt8) :
    blit mem p [b] = Function.update mem p b := by
  funext i
  by_cases hi : i = p
  · rw [hi, Function.update_self]
    have hpos : 0 < [b].length := Nat.one_pos
    exact blit_of_mem mem hpos
  · rw [Function.update_of_ne hi, blit_of_notMem]
    rw [List.length_singleton]
    omega

theorem front_nil (mem : Nat → UInt8) : Front mem [] := rfl

/-- The first bytes stand at the front, too. -/
theorem Front.left (h : Front mem (a ++ b)) : Front mem a := by
  rw [Front, List.length_append, slice_add_zero] at h
  exact (List.append_inj h (length_slice mem 0 _)).1

/-- What is written behind the bytes is appended to them. -/
theorem Front.append (h : Front mem a) (b : List UInt8) : Front (blit mem a.length b) (a ++ b) := by
  have hblit := slice_blit mem 0 a.length b
  rw [Nat.zero_add] at hblit
  rw [Front, List.length_append, hblit, h]

/-- Another byte. -/
theorem Front.concat (h : Front mem a) (b : UInt8) :
    Front (Function.update mem a.length b) (a ++ [b]) := by
  rw [← blit_singleton]
  exact h.append [b]

/-- A byte of those at the front. -/
theorem Front.getElem (h : Front mem a) {i : Nat} (hi : i < a.length) : mem i = a[i] := by
  have hat := congrArg (·[i]?) h
  simp only [slice, List.getElem?_map, List.getElem?_range hi, List.getElem?_eq_getElem hi,
    Option.map_some, Nat.zero_add] at hat
  exact Option.some.inj hat

/-- With a zero behind them the bytes are a string. -/
theorem Front.str (h : Front mem a) (hz : 0 ∉ a) (hlt : a.length < size) (hend : mem a.length = 0) :
    Str mem size 0 a := by
  refine str_of_slice (by rwa [Nat.zero_add]) hz (fun i hi => ?_) (by rwa [Nat.zero_add])
  rw [Nat.zero_add, h.getElem hi]

/-- A zero that is written behind the bytes makes them a string. -/
theorem Front.close (h : Front mem a) (hz : 0 ∉ a) (hlt : a.length < size) :
    Str (Function.update mem a.length 0) size 0 a :=
  (h.concat 0).left.str hz hlt (Function.update_self ..)

theorem Front.getElem_length {b : UInt8} (h : Front mem (a ++ b :: txt)) : mem a.length = b := by
  rw [h.getElem (by rw [List.length_append, List.length_cons]; omega),
    List.getElem_append_right (Nat.le_refl _)]
  simp

/-- The string up to the first zero. -/
theorem Front.str_takeWhile (h : Front mem a) (hlt : a.length < size) (hend : mem a.length = 0) :
    Str mem size 0 (a.takeWhile (· ≠ 0)) := by
  have hsplit := List.takeWhile_append_dropWhile (p := fun b : UInt8 => b ≠ 0) (l := a)
  have hz : 0 ∉ a.takeWhile (· ≠ 0) := fun hz => by simpa using List.mem_takeWhile_imp hz
  generalize a.takeWhile (· ≠ 0) = front at hsplit hz ⊢
  cases hdrop : a.dropWhile (· ≠ 0) with
  | nil =>
    rw [hdrop, List.append_nil] at hsplit
    rw [← hsplit] at h hlt hend
    exact h.str hz hlt hend
  | cons b rest =>
    have hb : b = 0 := by
      have hhead := List.head_dropWhile_not (fun b : UInt8 => decide (b ≠ 0)) (l := a)
        (by rw [hdrop]; exact List.cons_ne_nil _ _)
      simp only [hdrop, List.head_cons] at hhead
      simpa using hhead
    rw [hdrop] at hsplit
    rw [← hsplit] at h hlt
    rw [List.length_append] at hlt
    exact h.left.str hz (by omega) (h.getElem_length.trans hb)

end Front

end MtkHw.Lib
