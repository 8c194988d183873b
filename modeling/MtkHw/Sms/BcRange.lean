import Mathlib.Data.Int.Range
import Mathlib.Data.List.Pairwise
import Mathlib.Tactic.Common
import MtkHw.Lib.SortedVector

/-!
# Ranges of broadcast ids

The modem is told about broadcast channels and languages in ranges `start-end`.
`getRange` cuts a sorted vector of distinct ids into ranges: a range is closed at
every gap.  The one fact the callers need is `getRange_ids`: written out one after
the other, the ids of the ranges are the vector itself.
-/

namespace MtkHw.Sms

open MtkHw.Lib

/-! ## Sorted vectors -/

/-- Fill a `SortedVector<int>` with the items of a list, one after the other. -/
def sortedAddAll (xs : List Int) : List Int :=
  xs.foldl (fun v x => SortedVector.add (· < ·) x v) []

theorem mem_add {x z : Int} {v : List Int} :
    z ∈ SortedVector.add (· < ·) x v ↔ z ∈ v ∨ z = x := by
  constructor
  · intro hz
    exact (SortedVector.mem_of_mem_add hz).symm
  · rintro (hz | rfl)
    · have hkept : z ∈ SortedVector.add (· < ·) x v ∨ ¬x < z ∧ ¬z < x :=
        SortedVector.mem_add_of_mem hz
      rcases hkept with hz | ⟨hxz, hzx⟩
      · exact hz
      · obtain rfl := le_antisymm (not_lt.mp hzx) (not_lt.mp hxz)
        exact SortedVector.self_mem_add _ _
    · exact SortedVector.self_mem_add _ _

theorem foldl_add {xs v : List Int} (h : v.Pairwise (· < ·)) :
    (xs.foldl (fun v x => SortedVector.add (· < ·) x v) v).Pairwise (· < ·) ∧
      ∀ z, z ∈ xs.foldl (fun v x => SortedVector.add (· < ·) x v) v ↔ z ∈ v ∨ z ∈ xs := by
  induction xs generalizing v with
  | nil => exact ⟨h, by simp⟩
  | cons x xs ih =>
    obtain ⟨hsorted, hmem⟩ := ih (SortedVector.add_pairwise (x := x) h)
    refine ⟨hsorted, fun z => ?_⟩
    rw [List.foldl_cons, hmem, mem_add, List.mem_cons, or_assoc]

/-- A filled vector is strictly increasing. -/
theorem sortedAddAll_pairwise (xs : List Int) : (sortedAddAll xs).Pairwise (· < ·) :=
  (foldl_add List.Pairwise.nil).1

/-- A filled vector holds the items it was filled with, and no others. -/
@[simp] theorem mem_sortedAddAll {xs : List Int} {z : Int} : z ∈ sortedAddAll xs ↔ z ∈ xs := by
  have hmem : z ∈ sortedAddAll xs ↔ z ∈ [] ∨ z ∈ xs := (foldl_add List.Pairwise.nil).2 z
  simpa using hmem

/-- Each item is there once. -/
theorem sortedAddAll_nodup (xs : List Int) : (sortedAddAll xs).Nodup :=
  (sortedAddAll_pairwise xs).imp fun h => ne_of_lt h

theorem sortedAddAll_eq_nil {xs : List Int} : sortedAddAll xs = [] ↔ xs = [] := by
  simp [List.eq_nil_iff_forall_not_mem]

/-! ## Ranges -/

/-- `Range`: the ids from `start` to `stop`, both included. -/
structure Range where
  /-- The first id. -/
  start : Int
  /-- The last id. -/
  stop : Int
deriving DecidableEq, Repr

/-- The ids of a range. -/
def Range.ids (r : Range) : List Int := Int.range r.start (r.stop + 1)

@[simp] theorem Range.mem_ids {r : Range} {z : Int} : z ∈ r.ids ↔ r.start ≤ z ∧ z ≤ r.stop := by
  rw [Range.ids, Int.mem_range_iff, Int.lt_add_one_iff]

/-- The ids from `m` on, with one more id at the end. -/
theorem range_succ {m n : Int} (h : m ≤ n) : Int.range m (n + 1) = Int.range m n ++ [n] := by
  have hnat : (n + 1 - m).toNat = (n - m).toNat + 1 := by omega
  have hlast : m + ((n - m).toNat : Int) = n := by omega
  simp only [Int.range, hnat, List.range_succ, List.map_append, List.map_cons, List.map_nil, hlast]

theorem range_self_succ (m : Int) : Int.range m (m + 1) = [m] := by
  rw [range_succ le_rfl]
  simp [Int.range]

/-- The loop of `getRange`: `start` is the first id of the open range, `prev` the id before
the ids that are left. -/
def rangesFrom (start prev : Int) : List Int → List Range
  | [] => [⟨start, prev⟩]
  | x :: xs => if x > prev + 1 then ⟨start, prev⟩ :: rangesFrom x x xs else rangesFrom start x xs

/-- `RmcCdmaBcRangeParser::getRange`, which reads the first id of its input without a check. -/
def getRange : List Int → Option (List Range)
  | [] => none
  | x :: xs => some (rangesFrom x x xs)

theorem rangesFrom_ids {start prev : Int} {xs : List Int} (hstart : start ≤ prev)
    (hsorted : (prev :: xs).Pairwise (· < ·)) :
    (rangesFrom start prev xs).flatMap Range.ids = Int.range start (prev + 1) ++ xs := by
  induction xs generalizing start prev with
  | nil => simp [rangesFrom, Range.ids]
  | cons x xs ih =>
    obtain ⟨hprev, hrest⟩ := List.pairwise_cons.mp hsorted
    have hlt : prev < x := hprev x List.mem_cons_self
    rw [rangesFrom]
    split_ifs with hgap
    · rw [List.flatMap_cons, ih le_rfl hrest, range_self_succ]
      rfl
    · obtain rfl : x = prev + 1 := by omega
      rw [ih (by omega) hrest, range_succ (m := start) (by omega), List.append_assoc]
      rfl

/-- Written out one after the other, the ids of the ranges are the input. -/
theorem getRange_ids {input : List Int} {rs : List Range} (hsorted : input.Pairwise (· < ·))
    (h : getRange input = some rs) : rs.flatMap Range.ids = input := by
  cases input with
  | nil => cases h
  | cons x xs =>
    cases h
    rw [rangesFrom_ids le_rfl hsorted, range_self_succ]
    rfl

theorem getRange_isSome {input : List Int} (h : input ≠ []) : ∃ rs, getRange input = some rs := by
  cases input with
  | nil => exact absurd rfl h
  | cons x xs => exact ⟨_, rfl⟩

/-! ## How many ranges -/

theorem rangesFrom_length_pos (start prev : Int) (xs : List Int) :
    0 < (rangesFrom start prev xs).length := by
  induction xs generalizing start prev with
  | nil => exact Nat.one_pos
  | cons x xs ih =>
    rw [rangesFrom]
    split_ifs with hgap
    · exact Nat.succ_pos _
    · exact ih start x

theorem rangesFrom_length_le (start prev : Int) (xs : List Int) :
    (rangesFrom start prev xs).length ≤ xs.length + 1 := by
  induction xs generalizing start prev with
  | nil => exact le_rfl
  | cons x xs ih =>
    rw [rangesFrom]
    split_ifs with hgap
    · exact Nat.succ_le_succ (ih x x)
    · exact (ih start x).trans (Nat.le_succ _)

/-- Every id has a range of its own when no two ids of the input are adjacent. -/
theorem rangesFrom_length_eq {start prev : Int} {xs : List Int}
    (hsorted : (prev :: xs).Pairwise (· < ·)) :
    (rangesFrom start prev xs).length = xs.length + 1 ↔
      ∀ z ∈ prev :: xs, z + 1 ∉ prev :: xs := by
  induction xs generalizing start prev with
  | nil => simp [rangesFrom]
  | cons x xs ih =>
    obtain ⟨hprev, hrest⟩ := List.pairwise_cons.mp hsorted
    have hlt : prev < x := hprev x List.mem_cons_self
    rw [rangesFrom]
    split_ifs with hgap
    · rw [List.length_cons, List.length_cons, Nat.add_right_cancel_iff, ih hrest]
      have hbelow : ∀ z ∈ x :: xs, prev + 1 < z := by
        intro z hz
        rcases List.mem_cons.mp hz with rfl | hz
        · exact hgap
        · exact lt_trans hgap ((List.pairwise_cons.mp hrest).1 z hz)
      constructor
      · intro hfree z hz hsucc
        rcases List.mem_cons.mp hz with rfl | hz
        · rcases List.mem_cons.mp hsucc with heq | hsucc
          · omega
          · exact absurd (hbelow _ hsucc) (lt_irrefl _)
        · rcases List.mem_cons.mp hsucc with heq | hsucc
          · have := hbelow z hz
            omega
          · exact hfree z hz hsucc
      · intro hfree z hz hsucc
        exact hfree z (List.mem_cons_of_mem _ hz) (List.mem_cons_of_mem _ hsucc)
    · obtain rfl : x = prev + 1 := by omega
      have hshort := rangesFrom_length_le start (prev + 1) xs
      constructor
      · intro hlen
        rw [List.length_cons] at hlen
        omega
      · intro hfree
        exact absurd (List.mem_cons_of_mem _ List.mem_cons_self) (hfree prev List.mem_cons_self)

/-- There are at most as many ranges as ids. -/
theorem getRange_length_le {input : List Int} {rs : List Range} (h : getRange input = some rs) :
    rs.length ≤ input.length := by
  cases input with
  | nil => cases h
  | cons x xs =>
    cases h
    exact rangesFrom_length_le x x xs

theorem getRange_length_pos {input : List Int} {rs : List Range} (h : getRange input = some rs) :
    0 < rs.length := by
  cases input with
  | nil => cases h
  | cons x xs =>
    cases h
    exact rangesFrom_length_pos x x xs

/-- There are as many ranges as ids when no two ids are adjacent. -/
theorem getRange_length_eq {input : List Int} {rs : List Range}
    (hsorted : input.Pairwise (· < ·)) (h : getRange input = some rs) :
    rs.length = input.length ↔ ∀ z ∈ input, z + 1 ∉ input := by
  cases input with
  | nil => cases h
  | cons x xs =>
    cases h
    exact rangesFrom_length_eq hsorted

/-! ## The ranges are maximal -/

/-- The ranges of the ids from `start` on: in order, each in order, and a gap between any two. -/
theorem rangesFrom_maximal {start prev : Int} {xs : List Int} (hstart : start ≤ prev)
    (hsorted : (prev :: xs).Pairwise (· < ·)) :
    (∀ r ∈ rangesFrom start prev xs, start ≤ r.start ∧ r.start ≤ r.stop) ∧
      (rangesFrom start prev xs).Pairwise fun r s => r.stop + 1 < s.start := by
  induction xs generalizing start prev with
  | nil =>
    refine ⟨fun r hr => ?_, List.pairwise_singleton ..⟩
    obtain rfl := List.mem_singleton.mp hr
    exact ⟨le_rfl, hstart⟩
  | cons x xs ih =>
    obtain ⟨hprev, hrest⟩ := List.pairwise_cons.mp hsorted
    have hlt : prev < x := hprev x List.mem_cons_self
    rw [rangesFrom]
    split_ifs with hgap
    · -- the open run is closed, and everything behind it starts from `x` on
      obtain ⟨hranges, hapart⟩ := ih le_rfl hrest
      constructor
      · intro r hr
        rcases List.mem_cons.mp hr with rfl | hr
        · exact ⟨le_rfl, hstart⟩
        · obtain ⟨hfrom, horder⟩ := hranges r hr
          exact ⟨by omega, horder⟩
      · refine List.pairwise_cons.mpr ⟨fun r hr => ?_, hapart⟩
        exact lt_of_lt_of_le hgap (hranges r hr).1
    · -- `x` belongs to the open run
      exact ih (by omega) hrest

/-- **The ranges are the maximal runs of the input**: each in order, a gap between any two, and
together the ids of the input. -/
theorem getRange_maximal {input : List Int} (hne : input ≠ [])
    (hsorted : input.Pairwise (· < ·)) :
    ∃ rs, getRange input = some rs ∧ (∀ r ∈ rs, r.start ≤ r.stop) ∧
      (rs.Pairwise fun r s => r.stop + 1 < s.start) ∧
      ∀ z, (∃ r ∈ rs, r.start ≤ z ∧ z ≤ r.stop) ↔ z ∈ input := by
  obtain ⟨rs, hrs⟩ := getRange_isSome hne
  have hids := getRange_ids hsorted hrs
  cases input with
  | nil => exact absurd rfl hne
  | cons x xs =>
    obtain rfl : rangesFrom x x xs = rs := Option.some.inj hrs
    obtain ⟨hranges, hapart⟩ := rangesFrom_maximal le_rfl hsorted
    refine ⟨_, rfl, fun r hr => (hranges r hr).2, hapart, fun z => ?_⟩
    rw [← hids, List.mem_flatMap]
    simp only [Range.mem_ids]

theorem getRange_maximal_gap :
    ∃ rs, getRange [-1, 0, 2] = some rs ∧ (∀ r ∈ rs, r.start ≤ r.stop) ∧
      (rs.Pairwise fun r s => r.stop + 1 < s.start) ∧
      ∀ z, (∃ r ∈ rs, r.start ≤ z ∧ z ≤ r.stop) ↔ z ∈ [-1, 0, 2] :=
  getRange_maximal (by decide) (by decide)

end MtkHw.Sms
