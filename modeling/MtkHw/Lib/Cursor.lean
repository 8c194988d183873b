import Mathlib.Data.List.TakeWhile
import Mathlib.Tactic.Common

/-!
# Reading back what was written

A `Cursor` is a buffer with a place in it, and a `Reader` takes octets at the place; outside the
buffer there is nothing to take.  `Reads r out x` says that `r` gets `x` back from the octets `out`
wherever they stand, and leaves the place behind them.  Readers that do so can be put one after the
other as their outputs are (`Reads.bind`), so that what a writer writes field by field is read back
by reading the fields in the same order.
-/

namespace MtkHw.Lib

abbrev Octet := BitVec 8

/-- A buffer and a place in it. -/
structure Cursor where
  buff : List Octet
  offset : Int
  deriving DecidableEq, Repr

abbrev Reader (α : Type) := StateT Cursor Option α

namespace Reader

/-- The octet at the place, which moves on. -/
def next : Reader Octet := fun c =>
  if 0 ≤ c.offset then
    c.buff[c.offset.toNat]?.map fun b => (b, { c with offset := c.offset + 1 })
  else none

/-- The place moves by `n`. -/
def skip (n : Int) : Reader Unit := fun c => some ((), { c with offset := c.offset + n })

/-- The string that stands at the place, up to its final zero. -/
def text : Reader (List Octet) := fun c =>
  if 0 ≤ c.offset ∧ 0 ∈ c.buff.drop c.offset.toNat then
    some ((c.buff.drop c.offset.toNat).takeWhile (· ≠ 0), c)
  else none

/-- The `n` octets at the place, copied to a memory of `size` octets. -/
def copy (n size : Nat) : Reader (List Octet) := fun c =>
  if n ≤ size ∧ 0 ≤ c.offset ∧ c.offset.toNat + n ≤ c.buff.length then
    some ((c.buff.drop c.offset.toNat).take n, c)
  else none

end Reader

/-- The place between two parts of a buffer. -/
def Cursor.between (before after : List Octet) : Cursor := ⟨before ++ after, before.length⟩

/-- `r` gets `x` from the octets `out`, wherever they stand. -/
def Reads {α : Type} (r : Reader α) (out : List Octet) (x : α) : Prop :=
  ∀ before after, r (.between before (out ++ after)) = some (x, .between (before ++ out) after)

/-- `r` leaves the memory when it reads the octets `out`, wherever they stand. -/
def Overruns {α : Type} (r : Reader α) (out : List Octet) : Prop :=
  ∀ before after, r (.between before (out ++ after)) = none

/-- What would be read afterwards does not help. -/
theorem Overruns.bind {α β : Type} {r : Reader α} {out : List Octet} (h : Overruns r out)
    (f : α → Reader β) : Overruns (r >>= f) out := fun before after => by
  change (r (.between before (out ++ after))).bind (fun p => f p.1 p.2) = none
  rw [h before after, Option.bind_none]

namespace Reads

variable {α β : Type} {r : Reader α} {f : α → Reader β} {out out' : List Octet} {x : α} {y : β}

/-- Nothing is read. -/
theorem pure (x : α) : Reads (Pure.pure x) [] x := fun before after => by
  rw [List.append_nil]
  rfl

/-- After what a reader gets back, the rest of the program goes on. -/
theorem bind_apply (h : Reads r out x) (before after : List Octet) :
    (r >>= f) (.between before (out ++ after)) = f x (.between (before ++ out) after) := by
  change (r (.between before (out ++ after))).bind (fun p => f p.1 p.2) = _
  rw [h before after, Option.bind_some]

/-- One reader after the other. -/
theorem bind (h : Reads r out x) (h' : Reads (f x) out' y) : Reads (r >>= f) (out ++ out') y :=
  fun before after => by
    rw [List.append_assoc, h.bind_apply, h' (before ++ out) after, List.append_assoc]

/-- What is read before does not help. -/
theorem bind_overruns (h : Reads r out x) (h' : Overruns (f x) out') :
    Overruns (r >>= f) (out ++ out') := fun before after => by
  rw [List.append_assoc, h.bind_apply, h' (before ++ out) after]

/-- The last reader of a program. -/
theorem map (h : Reads r out x) (g : α → β) : Reads (r >>= fun a => Pure.pure (g a)) out (g x) := by
  have hbind := h.bind (f := fun a => Pure.pure (g a)) (pure (g x))
  rwa [List.append_nil] at hbind

theorem next (b : Octet) : Reads Reader.next [b] b := by
  intro before after
  rw [Reader.next, Cursor.between, if_pos (Int.natCast_nonneg _), Int.toNat_natCast,
    List.getElem?_append_right (Nat.le_refl _), Nat.sub_self, List.singleton_append,
    List.getElem?_cons_zero, Option.map_some, Cursor.between, List.append_assoc,
    List.singleton_append, List.length_append, List.length_singleton, Int.natCast_add]
  rfl

/-- What is looked at in place, and the place moved behind it. -/
theorem peek (h : ∀ before after, r (.between before (out ++ after)) =
      some (x, .between before (out ++ after))) {n : Int} (hn : n = out.length) (g : α → β) :
    Reads (do let p ← r; Reader.skip n; Pure.pure (g p)) out (g x) := by
  intro before after
  change (r (.between before (out ++ after))).bind _ = _
  rw [h before after, Option.bind_some]
  change some (g x, Cursor.mk _ _) = some (g x, Cursor.between _ _)
  rw [Cursor.between, Cursor.between, List.append_assoc, List.length_append, hn]
  push_cast
  rfl

/-- A string with its final zero. -/
theorem text {txt : List Octet} (h : 0 ∉ txt) {n : Int} (hn : n = txt.length + 1)
    (g : List Octet → β) :
    Reads (do let p ← Reader.text; Reader.skip n; Pure.pure (g p)) (txt ++ [0]) (g txt) := by
  refine peek (fun before after => ?_) (by simpa using hn) g
  have htake : (txt ++ [0] ++ after).takeWhile (· ≠ 0) = txt := by
    rw [List.append_assoc, List.takeWhile_append_of_pos]
    · simp
    · intro b hb
      exact decide_eq_true fun h0 => h (h0 ▸ hb)
  rw [Reader.text, Cursor.between]
  dsimp only
  rw [Int.toNat_natCast, List.drop_left, htake, if_pos ⟨Int.natCast_nonneg _, by simp⟩]

/-- A block that fits the memory. -/
theorem copy {size : Nat} {n : Int} (hn : n = out.length) (hsize : out.length ≤ size)
    (g : List Octet → β) :
    Reads (do let p ← Reader.copy n.toNat size; Reader.skip n; Pure.pure (g p)) out (g out) := by
  refine peek (fun before after => ?_) hn g
  rw [hn, Int.toNat_natCast, Reader.copy, Cursor.between]
  dsimp only
  rw [Int.toNat_natCast, List.drop_left, List.take_left,
    if_pos ⟨hsize, Int.natCast_nonneg _, by simp⟩]

end Reads

/-! ## Halves of a word -/

/-- A word is put together from its lower and its upper half. -/
theorem join_halves {w v : Nat} (hv : v = w + w) (x : BitVec v) :
    (x.setWidth w).setWidth v ||| ((x.sshiftRight w).setWidth w).setWidth v <<< w = x := by
  subst hv
  ext i hi
  simp only [BitVec.getElem_or, BitVec.getElem_setWidth, BitVec.getElem_shiftLeft,
    BitVec.getLsbD_setWidth, BitVec.getLsbD_sshiftRight]
  by_cases hlow : i < w
  · simp [hlow, BitVec.getLsbD_eq_getElem hi]
  · have hup : i - w < w := by omega
    have hsum : w + (i - w) = i := by omega
    have hwide : i - w < w + w := by omega
    simp [hlow, hup, hsum, hi, hwide]

end MtkHw.Lib
