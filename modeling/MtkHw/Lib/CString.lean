import Mathlib.Data.List.TakeWhile
import MtkHw.Lib.Ring

/-!
# Strings in memory

A memory of `size` bytes, read and written with a check of the bounds, and the
zero-terminated strings in it: `Str mem size p txt` says that the bytes `txt` stand
at `p`, followed by a zero.  Scanning a string stops within it (`scan_str`); it can
be extended at its end, cut in two at one of its bytes and moved to the front.
-/

namespace MtkHw.Lib

open Lib.Ring

/-- Reads a byte of a memory of `size` bytes. -/
def load (mem : Nat → UInt8) (size i : Nat) : Option UInt8 :=
  if i < size then some (mem i) else none

/-- Writes a byte of a memory of `size` bytes. -/
def store (mem : Nat → UInt8) (size i : Nat) (b : UInt8) : Option (Nat → UInt8) :=
  if i < size then some (Function.update mem i b) else none

theorem load_of_lt {mem : Nat → UInt8} {size i : Nat} (h : i < size) :
    load mem size i = some (mem i) := if_pos h

theorem store_of_lt {mem : Nat → UInt8} {size i : Nat} (h : i < size) (b : UInt8) :
    store mem size i b = some (Function.update mem i b) := if_pos h

/-- Moves on while the bytes are as given, for at most `n` bytes. -/
def scanFrom (mem : Nat → UInt8) (go : UInt8 → Bool) : Nat → Nat → Option Nat
  | 0, _ => none
  | n + 1, p => if go (mem p) then scanFrom mem go n (p + 1) else some p

/-- `while (go(*p)) p++;` fails when it leaves the memory. -/
def scan (mem : Nat → UInt8) (size : Nat) (go : UInt8 → Bool) (p : Nat) : Option Nat :=
  scanFrom mem go (size - p) p

/-- `strchr` for a byte that is not the final zero: where it stands, or that there is none. -/
def strchrAt (mem : Nat → UInt8) (size : Nat) (c : UInt8) (p : Nat) : Option (Option Nat) :=
  (scan mem size (fun b => b ≠ c && b ≠ 0) p).map fun q => if mem q = c then some q else none

/-- The bytes of the string at `p`. -/
def strAt (mem : Nat → UInt8) (size p : Nat) : Option (List UInt8) :=
  (scan mem size (· ≠ 0) p).map fun q => slice mem p (q - p)

/-- The string `txt` stands at `p`. -/
def Str (mem : Nat → UInt8) (size : Nat) : Nat → List UInt8 → Prop
  | p, [] => p < size ∧ mem p = 0
  | p, b :: txt => p < size ∧ mem p = b ∧ b ≠ 0 ∧ Str mem size (p + 1) txt

theorem load_eq_some {mem : Nat → UInt8} {size i : Nat} {b : UInt8} (h : load mem size i = some b) :
    i < size ∧ mem i = b := by
  unfold load at h
  split at h
  · rename_i hlt
    exact ⟨hlt, Option.some.inj h⟩
  · cases h

/-- Scanning moves on. -/
theorem le_of_scan {mem : Nat → UInt8} {size p q : Nat} {go : UInt8 → Bool}
    (h : scan mem size go p = some q) : p ≤ q := by
  unfold scan at h
  generalize size - p = n at h
  induction n generalizing p with
  | zero => cases h
  | succ n ih =>
    rw [scanFrom] at h
    split at h
    · exact Nat.le_of_succ_le (ih h)
    · exact Nat.le_of_eq (Option.some.inj h)

section Str

variable {mem : Nat → UInt8} {size p : Nat} {txt : List UInt8}

theorem Str.lt (h : Str mem size p txt) : p < size := by
  cases txt with
  | nil => exact h.1
  | cons b txt => exact h.1

theorem Str.add_length_lt (h : Str mem size p txt) : p + txt.length < size := by
  induction txt generalizing p with
  | nil => exact h.1
  | cons b txt ih =>
    have := ih h.2.2.2
    rw [List.length_cons]
    omega

/-- The first byte of a string is zero when the string is empty. -/
theorem Str.eq_zero_iff (h : Str mem size p txt) : mem p = 0 ↔ txt = [] := by
  cases txt with
  | nil => exact ⟨fun _ => rfl, fun _ => h.2⟩
  | cons b txt =>
    constructor
    · intro hzero
      exact absurd (h.2.1.symm.trans hzero) h.2.2.1
    · intro hnil
      cases hnil

/-- A string depends on its own bytes only. -/
theorem Str.congr {mem' : Nat → UInt8} (h : Str mem size p txt)
    (hsame : ∀ i, p ≤ i → i ≤ p + txt.length → mem' i = mem i) : Str mem' size p txt := by
  induction txt generalizing p with
  | nil => exact ⟨h.1, (hsame p (Nat.le_refl _) (Nat.le_refl _)).trans h.2⟩
  | cons b txt ih =>
    refine ⟨h.1, (hsame p (Nat.le_refl _) (Nat.le_add_right _ _)).trans h.2.1, h.2.2.1, ?_⟩
    refine ih h.2.2.2 fun i hi hi' => hsame i (Nat.le_of_succ_le hi) ?_
    rw [List.length_cons]
    omega

/-- The rest of a string is a string. -/
theorem Str.drop {a b : List UInt8} (h : Str mem size p (a ++ b)) :
    Str mem size (p + a.length) b := by
  induction a generalizing p with
  | nil => exact h
  | cons x a ih =>
    have := ih h.2.2.2
    rwa [Nat.add_assoc, Nat.add_comm 1] at this

/-- Where a scan stops the rest of the string stands. -/
theorem Str.dropWhile (h : Str mem size p txt) (go : UInt8 → Bool) :
    Str mem size (p + (txt.takeWhile go).length) (txt.dropWhile go) := by
  rw [← List.takeWhile_append_dropWhile (p := go) (l := txt)] at h
  exact h.drop

/-- Scanning stops within a string. -/
theorem scan_str {go : UInt8 → Bool} (hgo : go 0 = false) (h : Str mem size p txt) :
    scan mem size go p = some (p + (txt.takeWhile go).length) := by
  unfold scan
  induction txt generalizing p with
  | nil =>
    obtain ⟨n, hn⟩ := Nat.exists_eq_add_one_of_ne_zero (Nat.sub_ne_zero_of_lt h.1)
    rw [hn, scanFrom, h.2, hgo]
    rfl
  | cons b txt ih =>
    obtain ⟨n, hn⟩ := Nat.exists_eq_add_one_of_ne_zero (Nat.sub_ne_zero_of_lt h.1)
    rw [hn, scanFrom, h.2.1]
    by_cases hb : go b = true
    · have hn' : n = size - (p + 1) := by omega
      rw [if_pos hb, List.takeWhile_cons_of_pos hb, hn', ih h.2.2.2, List.length_cons]
      congr 1
      omega
    · rw [if_neg hb, List.takeWhile_cons_of_neg hb]
      rfl

theorem Str.slice_eq (h : Str mem size p txt) : slice mem p txt.length = txt := by
  induction txt generalizing p with
  | nil => rfl
  | cons b txt ih =>
    have := ih h.2.2.2
    rw [List.length_cons, slice, List.range_succ_eq_map, List.map_cons, List.map_map, Nat.add_zero,
      h.2.1]
    congr 1
    rw [slice] at this
    convert this using 2
    funext i
    simp only [Function.comp_apply]
    congr 1
    omega

theorem Str.zero_notMem (h : Str mem size p txt) : 0 ∉ txt := by
  induction txt generalizing p with
  | nil => exact List.not_mem_nil
  | cons b txt ih =>
    rw [List.mem_cons]
    rintro (hb | hb)
    · exact h.2.2.1 hb.symm
    · exact ih h.2.2.2 hb

/-- Without a zero in the text the test for it makes no difference. -/
theorem takeWhile_of_ne_zero {go : UInt8 → Bool} (h : 0 ∉ txt) :
    txt.takeWhile (fun b => go b && b ≠ 0) = txt.takeWhile go := by
  induction txt with
  | nil => rfl
  | cons b txt ih =>
    obtain ⟨hb, htxt⟩ := not_or.mp (mt List.mem_cons.mpr h)
    have hne : decide (b ≠ 0) = true := decide_eq_true (Ne.symm hb)
    rw [List.takeWhile_cons, List.takeWhile_cons, hne, Bool.and_true, ih htxt]

/-- The length of a string. -/
theorem scan_str_end (h : Str mem size p txt) :
    scan mem size (· ≠ 0) p = some (p + txt.length) := by
  have hall : txt.takeWhile (· ≠ 0) = txt := by
    rw [List.takeWhile_eq_self_iff]
    intro b hb
    rw [decide_eq_true_eq]
    rintro rfl
    exact h.zero_notMem hb
  rw [scan_str rfl h, hall]

theorem strAt_str (h : Str mem size p txt) : strAt mem size p = some txt := by
  rw [strAt, scan_str_end h, Option.map_some, Nat.add_sub_cancel_left, h.slice_eq]

/-- Bytes without a zero, and a zero behind them, make a string. -/
theorem str_of_slice (hlt : p + txt.length < size) (htxt : 0 ∉ txt)
    (hsame : ∀ i (hi : i < txt.length), mem (p + i) = txt[i]) (hend : mem (p + txt.length) = 0) :
    Str mem size p txt := by
  induction txt generalizing p with
  | nil => exact ⟨hlt, hend⟩
  | cons b txt ih =>
    rw [List.length_cons] at hlt hend
    refine ⟨by omega, hsame 0 (Nat.succ_pos _), fun hb => htxt (hb ▸ List.mem_cons_self), ?_⟩
    refine ih (by omega) (fun hz => htxt (List.mem_cons_of_mem _ hz)) ?_ ?_
    · intro i hi
      have := hsame (i + 1) (Nat.succ_lt_succ hi)
      rwa [← Nat.add_assoc, Nat.add_right_comm, List.getElem_cons_succ] at this
    · rwa [Nat.add_right_comm, Nat.add_assoc]

/-- The bytes of a string. -/
theorem Str.getElem (h : Str mem size p txt) {i : Nat} (hi : i < txt.length) :
    mem (p + i) = txt[i] := by
  have := congrArg (·[i]?) h.slice_eq
  simp only [slice, List.getElem?_map, List.getElem?_range hi, List.getElem?_eq_getElem hi,
    Option.map_some] at this
  exact Option.some.inj this

theorem Str.end_eq (h : Str mem size p txt) : mem (p + txt.length) = 0 := by
  induction txt generalizing p with
  | nil => exact h.2
  | cons b txt ih =>
    have := ih h.2.2.2
    rwa [Nat.add_right_comm, Nat.add_assoc] at this

/-- A string is extended by writing over its zero. -/
theorem Str.append {bs : List UInt8} (h : Str mem size p txt) (hbs : 0 ∉ bs)
    (hlt : p + txt.length + bs.length < size) :
    Str (Function.update (blit mem (p + txt.length) bs) (p + txt.length + bs.length) 0) size p
      (txt ++ bs) := by
  refine str_of_slice ?_ ?_ ?_ ?_
  · rw [List.length_append]
    omega
  · rw [List.mem_append]
    exact fun hz => hz.elim h.zero_notMem hbs
  · intro i hi
    rw [List.length_append] at hi
    rw [Function.update_of_ne (by omega)]
    by_cases hold : i < txt.length
    · rw [blit_of_notMem mem (.inl (by omega)), List.getElem_append_left hold, h.getElem hold]
    · have hnew : i - txt.length < bs.length := by omega
      have hat : p + i = p + txt.length + (i - txt.length) := by omega
      rw [hat, blit_of_mem mem hnew, List.getElem_append_right (Nat.le_of_not_lt hold)]
  · rw [List.length_append, ← Nat.add_assoc, Function.update_self]

/-- A string ends where a zero is written into it. -/
theorem Str.truncate {a b : List UInt8} (h : Str mem size p (a ++ b)) :
    Str (Function.update mem (p + a.length) 0) size p a := by
  have hlt := h.add_length_lt
  rw [List.length_append] at hlt
  refine str_of_slice (by omega) (fun hz => h.zero_notMem (List.mem_append_left _ hz)) ?_ ?_
  · intro i hi
    rw [Function.update_of_ne (by omega), h.getElem (by rw [List.length_append]; omega),
      List.getElem_append_left hi]
  · rw [Function.update_self]

/-- A string is cut in two by a zero on one of its bytes. -/
theorem Str.cut {a c : List UInt8} {b : UInt8} (h : Str mem size p (a ++ b :: c)) :
    Str (Function.update mem (p + a.length) 0) size p a ∧
      Str (Function.update mem (p + a.length) 0) size (p + a.length + 1) c := by
  refine ⟨h.truncate, ?_⟩
  have hrest : Str mem size (p + a.length + 1) c := h.drop.2.2.2
  exact hrest.congr fun i hi _ => Function.update_of_ne (by omega) _ _

/-- A string is moved to the front. -/
theorem Str.move (h : Str mem size p txt) :
    Str (blit mem 0 (slice mem p (txt.length + 1))) size 0 txt := by
  have hlt := h.add_length_lt
  have hget : ∀ i, i < txt.length + 1 →
      blit mem 0 (slice mem p (txt.length + 1)) (0 + i) = mem (p + i) := by
    intro i hi
    rw [blit_of_mem mem (by rwa [length_slice])]
    simp [slice]
  refine str_of_slice (by omega) h.zero_notMem ?_ ?_
  · intro i hi
    rw [hget i (by omega), h.getElem hi]
  · rw [hget txt.length (Nat.lt_succ_self _), h.end_eq]

/-- What stands in front of the first `c` in the string is passed over. -/
theorem strchrAt_cons {a b : List UInt8} {c : UInt8} (hc : c ∉ a)
    (h : Str mem size p (a ++ c :: b)) : strchrAt mem size c p = some (some (p + a.length)) := by
  have htake : (a ++ c :: b).takeWhile (fun x => x ≠ c && x ≠ 0) = a := by
    rw [takeWhile_of_ne_zero h.zero_notMem, List.takeWhile_append_of_pos,
      List.takeWhile_cons_of_neg, List.append_nil]
    · simp
    · intro x hx
      rw [decide_eq_true_eq]
      rintro rfl
      exact hc hx
  rw [strchrAt, scan_str (by simp) h, Option.map_some, htake, if_pos]
  exact h.drop.2.1

/-- A byte that is not in the string is not found. -/
theorem strchrAt_none {c : UInt8} (hc : c ∉ txt) (hzero : c ≠ 0) (h : Str mem size p txt) :
    strchrAt mem size c p = some none := by
  have htake : txt.takeWhile (fun x => x ≠ c && x ≠ 0) = txt := by
    rw [takeWhile_of_ne_zero h.zero_notMem, List.takeWhile_eq_self_iff]
    intro x hx
    rw [decide_eq_true_eq]
    rintro rfl
    exact hc hx
  rw [strchrAt, scan_str (by simp) h, Option.map_some, htake, h.end_eq, if_neg (Ne.symm hzero)]

/-- A string is moved to the front without its zero, and gets a new one. -/
theorem Str.shift (h : Str mem size p txt) :
    Str (Function.update (blit mem 0 (slice mem p txt.length)) txt.length 0) size 0 txt := by
  have hlt := h.add_length_lt
  refine str_of_slice (by omega) h.zero_notMem (fun i hi => ?_) ?_
  · rw [Function.update_of_ne (by omega), blit_of_mem mem (by rwa [length_slice])]
    simp only [h.slice_eq]
  · rw [Nat.zero_add, Function.update_self]

end Str

/-- A memory without a string at `p` has no zero from there on. -/
theorem exists_str_or (mem : Nat → UInt8) (size p : Nat) :
    (∃ txt, Str mem size p txt) ∨ ∀ i, p ≤ i → i < size → mem i ≠ 0 := by
  by_cases hnone : ∀ i, p ≤ i → i < size → mem i ≠ 0
  · exact .inr hnone
  · left
    simp only [not_forall, not_not] at hnone
    obtain ⟨i, hi, hlt, hzero⟩ := hnone
    obtain ⟨k, rfl⟩ := Nat.exists_eq_add_of_le hi
    clear hi
    induction k generalizing p with
    | zero => exact ⟨[], hlt, hzero⟩
    | succ k ih =>
      by_cases hp : mem p = 0
      · exact ⟨[], by omega, hp⟩
      · obtain ⟨txt, htxt⟩ := ih (p + 1) (by omega) (by rwa [Nat.add_right_comm, Nat.add_assoc])
        exact ⟨mem p :: txt, by omega, rfl, hp, htxt⟩

end MtkHw.Lib
