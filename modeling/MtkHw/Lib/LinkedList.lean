import Mathlib.Data.List.Nodup
import Mathlib.Data.List.Perm.Subperm
import Mathlib.Tactic.Common

/-!
# Circular linked lists with a sentinel

A heap of cells, each with a value or none and the address of the next one, and
the lists that are threaded through it.  `Linked h p cs q` follows the cells `cs`
from the address `p` to the address `q`; `Circle h s vs` says that the cell `s`
has no value and that the values of the circle behind it are `vs`.

A circle gets a value at its end when the sentinel is filled and a new sentinel is
put behind it (`Circle.push`), and loses its first value when the cell behind the
sentinel is cut out (`Circle.pop`).
-/

namespace MtkHw.Lib

universe u

variable {α : Type u}

/-- A cell of a linked list. -/
structure Cell (α : Type u) where
  value : Option α
  next : Nat
deriving DecidableEq, Repr

/-- A heap of cells: nothing is allocated from `top` on. -/
structure Heap (α : Type u) where
  cell : Nat → Option (Cell α)
  top : Nat
  fresh : ∀ p, top ≤ p → cell p = none

namespace Heap

/-- The heap without a cell. -/
def empty : Heap α := ⟨fun _ => none, 0, fun _ _ => rfl⟩

/-- The address of a new cell is `h.top`. -/
def alloc (h : Heap α) (c : Cell α) : Heap α where
  cell := Function.update h.cell h.top (some c)
  top := h.top + 1
  fresh p hp := by
    rw [Function.update_of_ne (by omega)]
    exact h.fresh p (by omega)

/-- Writes an allocated cell. -/
def store (h : Heap α) (p : Nat) (c : Cell α) : Heap α where
  cell := Function.update h.cell p ((h.cell p).map fun _ => c)
  top := h.top
  fresh q hq := by
    by_cases heq : q = p
    · subst heq
      rw [Function.update_self, h.fresh q hq, Option.map_none]
    · rw [Function.update_of_ne heq, h.fresh q hq]

def free (h : Heap α) (p : Nat) : Heap α where
  cell := Function.update h.cell p none
  top := h.top
  fresh q hq := by
    by_cases heq : q = p
    · rw [heq, Function.update_self]
    · rw [Function.update_of_ne heq, h.fresh q hq]

theorem cell_alloc_top (h : Heap α) (c : Cell α) : (h.alloc c).cell h.top = some c :=
  Function.update_self _ _ _

theorem cell_alloc_of_ne (h : Heap α) (c : Cell α) {p : Nat} (hp : p ≠ h.top) :
    (h.alloc c).cell p = h.cell p :=
  Function.update_of_ne hp _ _

theorem cell_store_self {h : Heap α} {p : Nat} {c : Cell α} (hp : h.cell p = some c)
    (c' : Cell α) : (h.store p c').cell p = some c' := by
  simp only [store, Function.update_self, hp, Option.map_some]

theorem cell_store_of_ne (h : Heap α) (c : Cell α) {p q : Nat} (hq : q ≠ p) :
    (h.store p c).cell q = h.cell q :=
  Function.update_of_ne hq _ _

theorem cell_free_of_ne (h : Heap α) {p q : Nat} (hq : q ≠ p) :
    (h.free p).cell q = h.cell q :=
  Function.update_of_ne hq _ _

/-- An allocated cell lies below `top`. -/
theorem ne_top {h : Heap α} {p : Nat} {c : Cell α} (hp : h.cell p = some c) : p ≠ h.top := by
  rintro rfl
  rw [h.fresh _ (Nat.le_refl _)] at hp
  cases hp

end Heap

/-! ## Paths -/

/-- The cells `cs`, with their addresses and values, lead from `p` to `q`. -/
def Linked (h : Heap α) : Nat → List (Nat × α) → Nat → Prop
  | p, [], q => p = q
  | p, (r, v) :: cs, q => p = r ∧ ∃ n, h.cell r = some ⟨some v, n⟩ ∧ Linked h n cs q

/-- A path only depends on its own cells. -/
theorem Linked.congr {h h' : Heap α} {cs : List (Nat × α)} {p q : Nat} (hpath : Linked h p cs q)
    (hcells : ∀ r ∈ cs.map Prod.fst, h'.cell r = h.cell r) : Linked h' p cs q := by
  induction cs generalizing p with
  | nil => exact hpath
  | cons c cs ih =>
    obtain ⟨r, v⟩ := c
    obtain ⟨rfl, n, hcell, hrest⟩ := hpath
    refine ⟨rfl, n, ?_, ih hrest fun r hr => hcells r (List.mem_cons_of_mem _ hr)⟩
    rw [hcells p List.mem_cons_self, hcell]

/-- A path may be made longer at its end. -/
theorem Linked.snoc {h : Heap α} {cs : List (Nat × α)} {p q r : Nat} {v : α}
    (hpath : Linked h p cs r) (hcell : h.cell r = some ⟨some v, q⟩) :
    Linked h p (cs ++ [(r, v)]) q := by
  induction cs generalizing p with
  | nil =>
    cases hpath
    exact ⟨rfl, q, hcell, rfl⟩
  | cons c cs ih =>
    obtain ⟨r', v'⟩ := c
    obtain ⟨rfl, n, hfirst, hrest⟩ := hpath
    exact ⟨rfl, n, hfirst, ih hrest⟩

/-- The cells of a path are allocated. -/
theorem Linked.cell_isSome {h : Heap α} {cs : List (Nat × α)} {p q r : Nat}
    (hpath : Linked h p cs q) (hr : r ∈ cs.map Prod.fst) : ∃ c, h.cell r = some c := by
  induction cs generalizing p with
  | nil => cases hr
  | cons c cs ih =>
    obtain ⟨r', v⟩ := c
    obtain ⟨rfl, n, hfirst, hrest⟩ := hpath
    rcases List.mem_cons.mp hr with rfl | hr
    · exact ⟨_, hfirst⟩
    · exact ih hrest hr

/-! ## Circles -/

/-- The sentinel `s` and, behind it, cells with the values `vs`. -/
def Circle (h : Heap α) (s : Nat) (vs : List α) : Prop :=
  ∃ cs n, cs.map Prod.snd = vs ∧ (s :: cs.map Prod.fst).Nodup ∧ h.cell s = some ⟨none, n⟩ ∧
    Linked h n cs s

/-- A sentinel on its own. -/
theorem Circle.alloc (h : Heap α) : Circle (h.alloc ⟨none, h.top⟩) h.top [] :=
  ⟨[], h.top, rfl, List.nodup_singleton _, h.cell_alloc_top _, rfl⟩

/-- A circle is empty when the sentinel is its own successor. -/
theorem Circle.next_eq_iff {h : Heap α} {s : Nat} {vs : List α} (hcircle : Circle h s vs) :
    ∃ n, h.cell s = some ⟨none, n⟩ ∧ (n = s ↔ vs = []) := by
  obtain ⟨cs, n, rfl, hnodup, hs, hpath⟩ := hcircle
  refine ⟨n, hs, ?_⟩
  cases cs with
  | nil => exact ⟨fun _ => rfl, fun _ => hpath⟩
  | cons c cs =>
    obtain ⟨rfl, -⟩ := hpath
    have hne : c.1 ≠ s := by
      rintro heq
      exact (List.nodup_cons.mp hnodup).1 (heq ▸ List.mem_cons_self)
    exact ⟨fun heq => absurd heq hne, fun hnil => by cases hnil⟩

/-- The sentinel takes the value, and a new sentinel follows it. -/
theorem Circle.push {h : Heap α} {s n : Nat} {vs : List α} (hcircle : Circle h s vs)
    (hs : h.cell s = some ⟨none, n⟩) (v : α) :
    Circle ((h.alloc ⟨none, n⟩).store s ⟨some v, h.top⟩) h.top (vs ++ [v]) := by
  obtain ⟨cs, n', rfl, hnodup, hs', hpath⟩ := hcircle
  obtain rfl : n' = n := by
    rw [hs'] at hs
    cases hs
    rfl
  have htop : s ≠ h.top := Heap.ne_top hs
  have hold : ∀ r ∈ cs.map Prod.fst, r ≠ h.top := by
    intro r hr
    obtain ⟨c, hc⟩ := hpath.cell_isSome hr
    exact Heap.ne_top hc
  have hsentinel : (h.alloc ⟨none, n'⟩).cell s = some ⟨none, n'⟩ := by
    rw [h.cell_alloc_of_ne _ htop, hs]
  have hcells : ∀ r ∈ cs.map Prod.fst,
      ((h.alloc ⟨none, n'⟩).store s ⟨some v, h.top⟩).cell r = h.cell r := by
    intro r hr
    have hne : r ≠ s := fun heq => (List.nodup_cons.mp hnodup).1 (heq ▸ hr)
    rw [Heap.cell_store_of_ne _ _ hne, h.cell_alloc_of_ne _ (hold r hr)]
  refine ⟨cs ++ [(s, v)], n', by simp, ?_, ?_, ?_⟩
  · rw [List.map_append, List.map_cons, List.map_nil]
    refine List.nodup_cons.mpr ⟨?_, ?_⟩
    · intro hmem
      rcases List.mem_append.mp hmem with hmem | hmem
      · exact hold _ hmem rfl
      · exact htop (List.mem_singleton.mp hmem).symm
    · exact (List.perm_append_singleton s _).nodup_iff.mpr hnodup
  · rw [Heap.cell_store_of_ne _ _ htop.symm, h.cell_alloc_top]
  · exact (hpath.congr hcells).snoc (Heap.cell_store_self hsentinel _)

/-- The cell behind the sentinel holds the first value, and can be cut out. -/
theorem Circle.pop {h : Heap α} {s : Nat} {v : α} {vs : List α} (hcircle : Circle h s (v :: vs)) :
    ∃ n m, h.cell s = some ⟨none, n⟩ ∧ n ≠ s ∧ h.cell n = some ⟨some v, m⟩ ∧
      Circle ((h.store s ⟨none, m⟩).free n) s vs := by
  obtain ⟨cs, n, hvalues, hnodup, hs, hpath⟩ := hcircle
  cases cs with
  | nil => cases hvalues
  | cons c cs =>
    obtain ⟨r, v'⟩ := c
    simp only [List.map_cons, List.cons.injEq] at hvalues
    obtain ⟨rfl, rfl⟩ := hvalues
    obtain ⟨rfl, m, hfirst, hrest⟩ := hpath
    rw [List.map_cons, List.nodup_cons, List.nodup_cons] at hnodup
    obtain ⟨hsout, hnout, hnodup⟩ := hnodup
    have hne : n ≠ s := fun heq => hsout (heq ▸ List.mem_cons_self)
    refine ⟨n, m, hs, hne, hfirst, cs, m, rfl, ?_, ?_, ?_⟩
    · exact List.nodup_cons.mpr ⟨fun hmem => hsout (List.mem_cons_of_mem _ hmem), hnodup⟩
    · rw [Heap.cell_free_of_ne _ hne.symm, Heap.cell_store_self hs]
    · refine hrest.congr fun r hr => ?_
      rw [Heap.cell_free_of_ne _ fun heq : r = n => hnout (heq ▸ hr),
        Heap.cell_store_of_ne _ _ fun heq : r = s => hsout (List.mem_cons_of_mem _ (heq ▸ hr))]

/-! ## Reading a circle -/

/-- The values of the cells from `p` on, up to the cell `s`. -/
def walkCells (h : Heap α) (s : Nat) : Nat → Nat → List α
  | 0, _ => []
  | n + 1, p =>
      if p = s then []
      else
        match h.cell p with
        | some ⟨some v, q⟩ => v :: walkCells h s n q
        | _ => []

/-- The values of the circle behind `s`. -/
def circleValues (h : Heap α) (s : Nat) : List α :=
  match h.cell s with
  | some c => walkCells h s h.top c.next
  | none => []

theorem walkCells_linked {h : Heap α} {s : Nat} {cs : List (Nat × α)} :
    ∀ {n p : Nat}, Linked h p cs s → s ∉ cs.map Prod.fst → cs.length < n →
      walkCells h s n p = cs.map Prod.snd := by
  induction cs with
  | nil =>
    intro n p hpath _ hn
    obtain ⟨n, rfl⟩ := Nat.exists_eq_add_one_of_ne_zero (Nat.ne_of_gt hn)
    obtain rfl : p = s := hpath
    rw [walkCells, if_pos rfl]
    rfl
  | cons c cs ih =>
    intro n p hpath hs hn
    obtain ⟨r, v⟩ := c
    obtain ⟨n, rfl⟩ := Nat.exists_eq_add_one_of_ne_zero (Nat.ne_of_gt (Nat.zero_lt_of_lt hn))
    obtain ⟨rfl, q, hcell, hrest⟩ := hpath
    rw [List.map_cons, List.mem_cons, not_or] at hs
    rw [walkCells, if_neg (Ne.symm hs.1), hcell, List.map_cons,
      ← ih hrest hs.2 (Nat.lt_of_succ_lt_succ hn)]

/-- The cells of a circle are all different, so reading as many as there are in the heap comes round
to the sentinel. -/
theorem Circle.values_eq {h : Heap α} {s : Nat} {vs : List α} (hcircle : Circle h s vs) :
    circleValues h s = vs := by
  obtain ⟨cs, n, rfl, hnodup, hs, hpath⟩ := hcircle
  have hbelow : ∀ r ∈ s :: cs.map Prod.fst, r ∈ List.range h.top := by
    intro r hr
    refine List.mem_range.mpr (Nat.lt_of_not_le fun hle => ?_)
    have hfresh := h.fresh r hle
    rcases List.mem_cons.mp hr with rfl | hr
    · rw [hs] at hfresh
      cases hfresh
    · obtain ⟨c, hc⟩ := hpath.cell_isSome hr
      rw [hc] at hfresh
      cases hfresh
  have hlen : (s :: cs.map Prod.fst).length ≤ h.top := by
    have hle := (List.subperm_of_subset hnodup hbelow).length_le
    rwa [List.length_range] at hle
  rw [List.length_cons, List.length_map] at hlen
  simp only [circleValues, hs]
  exact walkCells_linked hpath (List.nodup_cons.mp hnodup).1 hlen

end MtkHw.Lib
