import Mathlib.Data.List.Nodup
import Mathlib.Tactic.Common

/-!
# Doubly linked lists

Cells with links to the next and to the previous one, and the lists that are threaded
through them.  `Segment l before xs after` says that the cells `xs` are linked one behind
the other, that the first one comes after `before` and the last one before `after`;
`Thread l first last xs` adds a list's pointers to its ends.

A cell is taken out of a list when its neighbours are linked to each other
(`Thread.remove`), and put at its end when it is linked with the last one
(`Thread.concat`).  Both are stated over any links that differ in the right places.
-/

namespace MtkHw.Lib

universe u

variable {ι : Type u}

/-- The links of the cells. -/
structure Links (ι : Type u) where
  next : ι → Option ι
  prev : ι → Option ι

namespace Links

/-- The cells `xs`, behind `before` and in front of `after`. -/
def Segment (l : Links ι) : Option ι → List ι → Option ι → Prop
  | _, [], _ => True
  | before, x :: xs, after =>
      l.prev x = before ∧ l.next x = xs.head?.or after ∧ l.Segment (some x) xs after

variable {l l' : Links ι}

/-- A segment depends on the links of its cells. -/
theorem Segment.congr {xs : List ι} {before after : Option ι} (h : l.Segment before xs after)
    (hnext : ∀ x ∈ xs, l'.next x = l.next x) (hprev : ∀ x ∈ xs, l'.prev x = l.prev x) :
    l'.Segment before xs after := by
  induction xs generalizing before with
  | nil => trivial
  | cons x xs ih =>
    obtain ⟨hx, hx', hrest⟩ := h
    refine ⟨(hprev x List.mem_cons_self).trans hx, (hnext x List.mem_cons_self).trans hx', ?_⟩
    exact ih hrest (fun z hz => hnext z (List.mem_cons_of_mem _ hz))
      fun z hz => hprev z (List.mem_cons_of_mem _ hz)

/-- A segment may be cut at a cell. -/
theorem segment_append_cons {us vs : List ι} {x : ι} {before after : Option ι} :
    l.Segment before (us ++ x :: vs) after ↔
      l.Segment before us (some x) ∧ l.prev x = us.getLast?.or before ∧
        l.next x = vs.head?.or after ∧ l.Segment (some x) vs after := by
  induction us generalizing before with
  | nil => exact (and_iff_right trivial).symm
  | cons u us ih =>
    have hlast : (u :: us).getLast?.or before = us.getLast?.or (some u) := by
      rw [List.getLast?_cons]
      cases us.getLast? <;> rfl
    have hhead : (us ++ x :: vs).head?.or after = us.head?.or (some x) := by
      cases us <;> rfl
    rw [List.cons_append, Segment, Segment, ih, hlast, hhead]
    constructor
    · rintro ⟨hprev, hnext, hus, hrest⟩
      exact ⟨⟨hprev, hnext, hus⟩, hrest⟩
    · rintro ⟨⟨hprev, hnext, hus⟩, hrest⟩
      exact ⟨hprev, hnext, hus, hrest⟩

/-- Link the last cell to another one. -/
theorem Segment.link_last {xs : List ι} {before after after' : Option ι} (hnodup : xs.Nodup)
    (h : l.Segment before xs after) (hlast : ∀ x, xs.getLast? = some x → l'.next x = after')
    (hnext : ∀ x ∈ xs, xs.getLast? ≠ some x → l'.next x = l.next x)
    (hprev : ∀ x ∈ xs, l'.prev x = l.prev x) : l'.Segment before xs after' := by
  induction xs generalizing before with
  | nil => trivial
  | cons x xs ih =>
    obtain ⟨hx, hx', hrest⟩ := h
    obtain ⟨hmem, hnodup⟩ := List.nodup_cons.mp hnodup
    refine ⟨(hprev x List.mem_cons_self).trans hx, ?_, ?_⟩
    · cases xs with
      | nil => exact hlast x rfl
      | cons y ys =>
        refine (hnext x List.mem_cons_self fun heq => hmem ?_).trans hx'
        rw [List.getLast?_cons_cons] at heq
        exact List.mem_of_getLast? heq
    · cases xs with
      | nil => trivial
      | cons y ys =>
        rw [List.getLast?_cons_cons] at hlast hnext
        exact ih hnodup hrest hlast (fun z hz => hnext z (List.mem_cons_of_mem _ hz))
          fun z hz => hprev z (List.mem_cons_of_mem _ hz)

/-- Link the first cell to another one. -/
theorem Segment.link_first {xs : List ι} {before before' after : Option ι} (hnodup : xs.Nodup)
    (h : l.Segment before xs after) (hfirst : ∀ x, xs.head? = some x → l'.prev x = before')
    (hprev : ∀ x ∈ xs, xs.head? ≠ some x → l'.prev x = l.prev x)
    (hnext : ∀ x ∈ xs, l'.next x = l.next x) : l'.Segment before' xs after := by
  cases xs with
  | nil => trivial
  | cons x xs =>
    obtain ⟨-, hx', hrest⟩ := h
    obtain ⟨hmem, -⟩ := List.nodup_cons.mp hnodup
    refine ⟨hfirst x rfl, (hnext x List.mem_cons_self).trans hx', hrest.congr (fun z hz =>
      hnext z (List.mem_cons_of_mem _ hz)) fun z hz => hprev z (List.mem_cons_of_mem _ hz) ?_⟩
    rintro heq
    cases heq
    exact hmem hz

/-- A list with pointers to its ends. -/
structure Thread (l : Links ι) (first last : Option ι) (xs : List ι) : Prop where
  first_eq : first = xs.head?
  last_eq : last = xs.getLast?
  segment : l.Segment none xs none

variable {first last : Option ι}

theorem Thread.congr {xs : List ι} (h : l.Thread first last xs)
    (hnext : ∀ x ∈ xs, l'.next x = l.next x) (hprev : ∀ x ∈ xs, l'.prev x = l.prev x) :
    l'.Thread first last xs :=
  ⟨h.first_eq, h.last_eq, h.segment.congr hnext hprev⟩

/-- The neighbours of a cell. -/
theorem Thread.neighbours {us vs : List ι} {x : ι} (h : l.Thread first last (us ++ x :: vs)) :
    l.prev x = us.getLast? ∧ l.next x = vs.head? := by
  obtain ⟨-, hprev, hnext, -⟩ := segment_append_cons.mp h.segment
  rw [Option.or_none] at hprev hnext
  exact ⟨hprev, hnext⟩

/-- The cell behind a cell is one of the list and has that one before it. -/
theorem Thread.prev_of_next {xs : List ι} {x y : ι} (h : l.Thread first last xs) (hx : x ∈ xs)
    (hnext : l.next x = some y) : y ∈ xs ∧ l.prev y = some x := by
  obtain ⟨us, vs, rfl⟩ := List.append_of_mem hx
  rw [h.neighbours.2] at hnext
  obtain ⟨ws, rfl⟩ := List.head?_eq_some_iff.mp hnext
  refine ⟨List.mem_append_right _ (List.mem_cons_of_mem _ List.mem_cons_self), ?_⟩
  rw [List.append_cons] at h
  rw [h.neighbours.1, List.getLast?_concat]

/-- The cell before a cell is one of the list and has that one behind it. -/
theorem Thread.next_of_prev {xs : List ι} {x y : ι} (h : l.Thread first last xs) (hx : x ∈ xs)
    (hprev : l.prev x = some y) : y ∈ xs ∧ l.next y = some x := by
  obtain ⟨us, vs, rfl⟩ := List.append_of_mem hx
  rw [h.neighbours.1] at hprev
  obtain ⟨ws, rfl⟩ := List.getLast?_eq_some_iff.mp hprev
  rw [← List.append_cons] at h ⊢
  exact ⟨List.mem_append_right _ List.mem_cons_self, h.neighbours.2⟩

variable [DecidableEq ι]

/-- Take a cell out: its neighbours are linked to each other, and the pointers to the ends move
past it. -/
theorem Thread.remove {us vs : List ι} {x : ι} {first' last' : Option ι}
    (h : l.Thread first last (us ++ x :: vs)) (hnodup : (us ++ x :: vs).Nodup)
    (hnext : ∀ z, z ≠ x → l'.next z = if l.prev x = some z then l.next x else l.next z)
    (hprev : ∀ z, z ≠ x → l'.prev z = if l.next x = some z then l.prev x else l.prev z)
    (hfirst : first' = if l.prev x = none then l.next x else first)
    (hlast : last' = if l.next x = none then l.prev x else last) :
    l'.Thread first' last' (us ++ vs) := by
  obtain ⟨hus, hx, hx', hvs⟩ := segment_append_cons.mp h.segment
  rw [Option.or_none] at hx hx'
  obtain ⟨hnodupUs, hnodupVs, hdisjoint⟩ := List.nodup_append.mp hnodup
  obtain ⟨hxvs, hnodupVs⟩ := List.nodup_cons.mp hnodupVs
  have hne : ∀ z ∈ us, z ≠ x := fun z hz => hdisjoint z hz x List.mem_cons_self
  have hne' : ∀ z ∈ vs, z ≠ x := fun z hz heq => hxvs (heq ▸ hz)
  have hsep : ∀ z ∈ us, z ∉ vs := fun z hz hz' =>
    hdisjoint z hz z (List.mem_cons_of_mem _ hz') rfl
  rw [hx, hx'] at hnext hprev
  have hus' : l'.Segment none us vs.head? := by
    refine hus.link_last hnodupUs (fun z hz => ?_) (fun z hz hlast => ?_) fun z hz => ?_
    · rw [hnext z (hne z (List.mem_of_getLast? hz)), if_pos hz]
    · rw [hnext z (hne z hz), if_neg hlast]
    · rw [hprev z (hne z hz), if_neg fun hhead => hsep z hz (List.mem_of_head? hhead)]
  have hvs' : l'.Segment us.getLast? vs none := by
    refine hvs.link_first hnodupVs (fun z hz => ?_) (fun z hz hfirst => ?_) fun z hz => ?_
    · rw [hprev z (hne' z (List.mem_of_head? hz)), if_pos hz]
    · rw [hprev z (hne' z hz), if_neg hfirst]
    · rw [hnext z (hne' z hz), if_neg fun hlast => hsep z (List.mem_of_getLast? hlast) hz]
  refine ⟨?_, ?_, ?_⟩
  · rw [hfirst, hx, hx', h.first_eq]
    cases us with
    | nil => rfl
    | cons u us => rw [if_neg (by simp)]; rfl
  · rw [hlast, hx, hx', h.last_eq, List.getLast?_append, List.getLast?_append]
    cases vs with
    | nil => simp
    | cons v vs => simp
  · cases vs with
    | nil => rwa [List.append_nil]
    | cons v vs =>
      refine segment_append_cons.mpr ⟨hus', ?_⟩
      obtain ⟨hv, hrest⟩ := hvs'
      exact ⟨by rw [hv, Option.or_none], hrest⟩

/-- Put a cell behind the last one. -/
theorem Thread.concat {xs : List ι} {x : ι} (h : l.Thread first last xs) (hnodup : xs.Nodup)
    (hnext : ∀ z ∈ xs, l'.next z = if last = some z then some x else l.next z)
    (hprev : ∀ z ∈ xs, l'.prev z = l.prev z) (hx : l'.prev x = last) (hx' : l'.next x = none) :
    l'.Thread (first.or (some x)) (some x) (xs ++ [x]) := by
  rw [h.last_eq] at hnext hx
  refine ⟨?_, List.getLast?_concat.symm, segment_append_cons.mpr ⟨?_, ?_, ?_, trivial⟩⟩
  · rw [h.first_eq, List.head?_append]
    rfl
  · refine h.segment.link_last hnodup (fun z hz => ?_) (fun z hz hlast => ?_) hprev
    · rw [hnext z (List.mem_of_getLast? hz), if_pos hz]
    · rw [hnext z hz, if_neg hlast]
  · rw [hx, Option.or_none]
  · exact hx'

end Links

end MtkHw.Lib
