import Mathlib.Data.List.Nodup
import Mathlib.Data.Set.Insert
import Mathlib.Logic.Relation
import Mathlib.Tactic.Common

/-!
# Ordered forests

A forest gives every node the list of its children, in order.  No node has two parents,
and a rank that falls from a node to its children rules cycles out (`IsForest`).

Three operations are defined: `detach` takes a node from its parent, `attach` puts it
behind the children of another one, and `prune` takes a set of nodes away.  Pruning is
what closing a node and all below it amounts to, one node after the other
(`prune_prune`, `proper_eq`).
-/

namespace MtkHw.Lib.OrderedForest

universe u

/-- The children of each node. -/
abbrev Kids (ι : Type u) := ι → List ι

variable {ι : Type u}

/-- `y` is `x` or below it. -/
def Below (kids : Kids ι) : ι → ι → Prop := Relation.ReflTransGen fun p x => x ∈ kids p

/-- A node and all below it. -/
def subtree (kids : Kids ι) (x : ι) : Set ι := {y | Below kids x y}

/-- All below a node. -/
def proper (kids : Kids ι) (x : ι) : Set ι := {y | ∃ c ∈ kids x, Below kids c y}

/-- The rank of a node is above that of its children. -/
def Ranked (rank : ι → Nat) (kids : Kids ι) : Prop := ∀ p, ∀ x ∈ kids p, rank x < rank p

/-- Every node is in one list at most, once, and there is no cycle. -/
structure IsForest (kids : Kids ι) : Prop where
  nodup : ∀ p, (kids p).Nodup
  unique : ∀ {p q x}, x ∈ kids p → x ∈ kids q → p = q
  ranked : ∃ rank, Ranked rank kids

/-! ## Below -/

theorem Below.rank_le {rank : ι → Nat} {kids : Kids ι} (hrank : Ranked rank kids) {x y : ι}
    (h : Below kids x y) : rank y ≤ rank x := by
  induction h with
  | refl => exact Nat.le_refl _
  | tail _ hmem ih => exact (Nat.le_of_lt (hrank _ _ hmem)).trans ih

theorem subtree_eq (kids : Kids ι) (x : ι) : subtree kids x = insert x (proper kids x) := by
  ext y
  exact Relation.ReflTransGen.cases_head_iff.trans (or_congr_left eq_comm)

theorem self_notMem_proper {rank : ι → Nat} {kids : Kids ι} (hrank : Ranked rank kids) (x : ι) :
    x ∉ proper kids x := by
  rintro ⟨c, hc, hbelow⟩
  exact absurd (hrank x c hc) (Nat.not_lt.mpr (hbelow.rank_le hrank))

theorem mem_proper_of_mem {kids : Kids ι} {x c : ι} (hc : c ∈ kids x) : c ∈ proper kids x :=
  ⟨c, hc, .refl⟩

/-- What is below a node of the subtree is in the subtree. -/
theorem mem_subtree_of_mem {kids : Kids ι} {x p c : ι} (hp : p ∈ subtree kids x)
    (hc : c ∈ kids p) : c ∈ subtree kids x :=
  Relation.ReflTransGen.tail hp hc

theorem Below.mono {kids kids' : Kids ι} (hsub : ∀ p, ∀ x ∈ kids' p, x ∈ kids p) {x y : ι}
    (h : Below kids' x y) : Below kids x y :=
  Relation.ReflTransGen.mono (fun p x => hsub p x) _ _ h

/-! ## Smaller forests -/

theorem Ranked.mono {rank : ι → Nat} {kids kids' : Kids ι}
    (hsub : ∀ p, ∀ x ∈ kids' p, x ∈ kids p) (h : Ranked rank kids) : Ranked rank kids' :=
  fun p x hx => h p x (hsub p x hx)

theorem IsForest.of_sublist {kids kids' : Kids ι} (h : IsForest kids)
    (hsub : ∀ p, (kids' p).Sublist (kids p)) : IsForest kids' := by
  obtain ⟨rank, hrank⟩ := h.ranked
  refine ⟨fun p => (h.nodup p).sublist (hsub p), fun hp hq => ?_, rank, ?_⟩
  · exact h.unique ((hsub _).subset hp) ((hsub _).subset hq)
  · exact hrank.mono fun p x hx => (hsub p).subset hx

/-- No node has a parent. -/
theorem IsForest.nil : IsForest fun _ : ι => [] :=
  ⟨fun _ => List.nodup_nil, fun hp => absurd hp List.not_mem_nil, fun _ => 0,
    fun _ _ hx => absurd hx List.not_mem_nil⟩

/-! ## Detaching and attaching -/

section Attach

variable [DecidableEq ι]

/-- Take a node from its parent. -/
def detach (kids : Kids ι) (x : ι) : Kids ι := fun p => (kids p).filter (· ≠ x)

/-- Put a node behind the children of another one, unless it is one of them. -/
def attach (kids : Kids ι) (x p : ι) : Kids ι :=
  if x ∈ kids p then kids
  else Function.update (detach kids x) p (detach kids x p ++ [x])

theorem mem_detach {kids : Kids ι} {x p y : ι} : y ∈ detach kids x p ↔ y ∈ kids p ∧ y ≠ x := by
  simp [detach]

theorem IsForest.detach {kids : Kids ι} (h : IsForest kids) (x : ι) : IsForest (detach kids x) :=
  h.of_sublist fun _ => List.filter_sublist

/-- The list of another parent stays as it is. -/
theorem detach_of_notMem {kids : Kids ι} {x p : ι} (h : x ∉ kids p) :
    detach kids x p = kids p :=
  List.filter_eq_self.mpr fun _ hy => decide_eq_true fun heq => h (heq ▸ hy)

/-- The list of the parent loses the node. -/
theorem detach_of_split {kids : Kids ι} {x p : ι} {us vs : List ι} (h : IsForest kids)
    (hsplit : kids p = us ++ x :: vs) : detach kids x p = us ++ vs := by
  have hnodup := h.nodup p
  rw [hsplit] at hnodup
  obtain ⟨-, hvs, hdisjoint⟩ := List.nodup_append.mp hnodup
  rw [detach, hsplit, List.filter_append, List.filter_cons_of_neg (by simp)]
  congr 1
  · exact List.filter_eq_self.mpr fun z hz => decide_eq_true (hdisjoint z hz x List.mem_cons_self)
  · exact List.filter_eq_self.mpr fun z hz => decide_eq_true fun heq =>
      (List.nodup_cons.mp hvs).1 (heq ▸ hz)

/-- A node without a parent is detached already. -/
theorem detach_eq_self {kids : Kids ι} {x : ι} (h : ∀ p, x ∉ kids p) : detach kids x = kids :=
  funext fun p => detach_of_notMem (h p)

/-- The other lists, and that of the old parent, keep their order. -/
theorem attach_of_notMem {kids : Kids ι} {x p : ι} (h : x ∉ kids p) :
    attach kids x p = Function.update (detach kids x) p (detach kids x p ++ [x]) := if_neg h

/-- A node may be put below any node that is not below it. -/
theorem IsForest.update_concat {kids : Kids ι} (h : IsForest kids) {x p : ι}
    (hx : ∀ q, x ∉ kids q) (hbelow : ¬Below kids x p) :
    IsForest (Function.update kids p (kids p ++ [x])) := by
  classical
  obtain ⟨rank, hrank⟩ := h.ranked
  have hmem : ∀ q y, y ∈ Function.update kids p (kids p ++ [x]) q ↔
      y ∈ kids q ∨ q = p ∧ y = x := by
    intro q y
    by_cases hq : q = p
    · subst hq
      rw [Function.update_self, List.mem_append, List.mem_singleton, and_iff_right rfl]
    · rw [Function.update_of_ne hq]
      exact (or_iff_left fun h => hq h.1).symm
  refine ⟨fun q => ?_, fun {q r y} hq hr => ?_,
    fun y => if Below kids y p then rank y + rank x + 1 else rank y, fun q y hy => ?_⟩
  · by_cases hq : q = p
    · subst hq
      rw [Function.update_self]
      refine List.nodup_append.mpr ⟨h.nodup q, List.nodup_singleton x, fun y hy z hz => ?_⟩
      rw [List.mem_singleton.mp hz]
      exact fun heq => hx q (heq ▸ hy)
    · rw [Function.update_of_ne hq]
      exact h.nodup q
  · rcases (hmem q y).mp hq with hq' | ⟨rfl, rfl⟩
    · rcases (hmem r y).mp hr with hr' | ⟨rfl, rfl⟩
      · exact h.unique hq' hr'
      · exact absurd hq' (hx q)
    · rcases (hmem r y).mp hr with hr' | ⟨rfl, -⟩
      · exact absurd hr' (hx r)
      · rfl
  · dsimp only
    rcases (hmem q y).mp hy with hy | ⟨rfl, rfl⟩
    · have hlt := hrank q y hy
      by_cases hyp : Below kids y p
      · have hqp : Below kids q p := Relation.ReflTransGen.head hy hyp
        rw [if_pos hyp, if_pos hqp]
        omega
      · rw [if_neg hyp]
        split_ifs <;> omega
    · have hqq : Below kids q q := Relation.ReflTransGen.refl
      rw [if_neg hbelow, if_pos hqq]
      omega

end Attach

/-! ## Pruning -/

open Classical in
/-- Take a set of nodes away. -/
noncomputable def prune (kids : Kids ι) (S : Set ι) : Kids ι := fun p =>
  if p ∈ S then [] else (kids p).filter (· ∉ S)

section Prune

variable {kids : Kids ι} {S T : Set ι}

theorem prune_sublist (p : ι) : (prune kids S p).Sublist (kids p) := by
  unfold prune
  split_ifs
  · exact List.nil_sublist _
  · exact List.filter_sublist

theorem mem_prune {p x : ι} : x ∈ prune kids S p ↔ x ∈ kids p ∧ p ∉ S ∧ x ∉ S := by
  unfold prune
  split_ifs with hp
  · exact iff_of_false List.not_mem_nil fun h => h.2.1 hp
  · simp [hp]

theorem prune_empty : prune kids ∅ = kids := by
  funext p
  rw [prune, if_neg (Set.notMem_empty p)]
  exact List.filter_eq_self.mpr fun x _ => by simp

/-- Taking nodes away one set after the other. -/
theorem prune_prune : prune (prune kids S) T = prune kids (S ∪ T) := by
  funext p
  unfold prune
  by_cases hT : p ∈ T
  · rw [if_pos hT, if_pos (Set.mem_union_right S hT)]
  · by_cases hS : p ∈ S
    · rw [if_neg hT, if_pos hS, if_pos (Set.mem_union_left T hS), List.filter_nil]
    · rw [if_neg hT, if_neg hS, if_neg (fun h => h.elim hS hT), List.filter_filter]
      refine List.filter_congr fun x _ => ?_
      by_cases hxS : x ∈ S <;> by_cases hxT : x ∈ T <;> simp [hxS, hxT]

/-- A path that ends outside of a set that contains all below its nodes avoids the set. -/
theorem below_prune (hS : ∀ p ∈ S, ∀ x ∈ kids p, x ∈ S) {x y : ι} (h : Below kids x y)
    (hy : y ∉ S) : Below (prune kids S) x y := by
  induction h with
  | refl => exact .refl
  | tail _ hmem ih =>
    have hp := fun hp => hy (hS _ hp _ hmem)
    exact (ih hp).tail (mem_prune.mpr ⟨hmem, hp, hy⟩)

/-- All below a node: a child with all below it, and what is then left. -/
theorem proper_eq {x c : ι} (hc : c ∈ kids x) (hx : x ∉ subtree kids c) :
    proper kids x = subtree kids c ∪ proper (prune kids (subtree kids c)) x := by
  ext y
  constructor
  · rintro ⟨c', hc', hbelow⟩
    by_cases hy : y ∈ subtree kids c
    · exact .inl hy
    · have hclosed : ∀ p ∈ subtree kids c, ∀ z ∈ kids p, z ∈ subtree kids c :=
        fun p hp z hz => mem_subtree_of_mem hp hz
      refine .inr ⟨c', mem_prune.mpr ⟨hc', hx, fun hmem => hy ?_⟩, below_prune hclosed hbelow hy⟩
      exact Relation.ReflTransGen.trans hmem hbelow
  · rintro (hy | ⟨c', hc', hbelow⟩)
    · exact ⟨c, hc, hy⟩
    · exact ⟨c', (mem_prune.mp hc').1, hbelow.mono fun p z hz => (mem_prune.mp hz).1⟩

/-- What is left below a node is outside of the set. -/
theorem notMem_of_mem_proper_prune {x y : ι} (h : y ∈ proper (prune kids S) x) : y ∉ S := by
  obtain ⟨c, hc, hbelow⟩ := h
  induction hbelow with
  | refl => exact (mem_prune.mp hc).2.2
  | tail _ hmem _ => exact (mem_prune.mp hmem).2.2

/-- Taking a node from its parent once all below it is gone. -/
theorem detach_prune [DecidableEq ι] (x : ι) :
    detach (prune kids (proper kids x)) x = prune kids (subtree kids x) := by
  rw [subtree_eq]
  funext p
  unfold detach prune
  by_cases hp : p ∈ proper kids x
  · rw [if_pos hp, if_pos (Set.mem_insert_of_mem x hp), List.filter_nil]
  · by_cases hpx : p = x
    · subst hpx
      rw [if_neg hp, if_pos (Set.mem_insert p _), List.filter_filter]
      refine List.filter_eq_nil_iff.mpr fun y hy => ?_
      simp [mem_proper_of_mem hy]
    · rw [if_neg hp, if_neg (fun h => h.elim hpx hp), List.filter_filter]
      refine List.filter_congr fun y _ => ?_
      by_cases hyx : y = x <;> by_cases hy : y ∈ proper kids x <;> simp [hyx, hy]

end Prune

end MtkHw.Lib.OrderedForest
