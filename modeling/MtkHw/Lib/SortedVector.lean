import Mathlib.Data.List.Induction
import Mathlib.Order.RelClasses
import Mathlib.Tactic.Common
import Mathlib.Order.Lattice

/-!
# Sorted vectors

A sorted vector keeps its items strictly increasing for an order `lt`.  Two items
neither of which is below the other count as equal: adding an item replaces an equal
one, and looking an item up finds an equal one.  The order is any asymmetric and
connected one; `lex` builds such an order from a list of keys.
-/

namespace MtkHw.Lib.SortedVector

universe u v

variable {α : Type u} (lt : α → α → Prop) [DecidableRel lt]

/-- Add an item: an equal item is replaced, another one is put in its place. -/
def add (x : α) : List α → List α
  | [] => [x]
  | y :: ys => if lt x y then x :: y :: ys else if lt y x then y :: add x ys else x :: ys

/-- The item that is equal to `x`. -/
def lookup (x : α) (ys : List α) : Option α := ys.find? fun y => ¬lt x y ∧ ¬lt y x

variable {lt}

/-- The added item is there. -/
theorem self_mem_add (x : α) (ys : List α) : x ∈ add lt x ys := by
  induction ys with
  | nil => exact List.mem_singleton_self x
  | cons y ys ih =>
    rw [add]
    split_ifs
    · exact List.mem_cons_self
    · exact List.mem_cons_of_mem _ ih
    · exact List.mem_cons_self

/-- Nothing else is added. -/
theorem mem_of_mem_add {x z : α} {ys : List α} (h : z ∈ add lt x ys) : z = x ∨ z ∈ ys := by
  induction ys with
  | nil => exact .inl (List.mem_singleton.mp h)
  | cons y ys ih =>
    rw [add] at h
    split_ifs at h
    · exact List.mem_cons.mp h
    · rcases List.mem_cons.mp h with rfl | h
      · exact .inr List.mem_cons_self
      · exact (ih h).imp_right (List.mem_cons_of_mem _)
    · exact (List.mem_cons.mp h).imp_right (List.mem_cons_of_mem _)

/-- Only an equal item is lost. -/
theorem mem_add_of_mem {x z : α} {ys : List α} (hz : z ∈ ys) :
    z ∈ add lt x ys ∨ ¬lt x z ∧ ¬lt z x := by
  induction ys with
  | nil => cases hz
  | cons y ys ih =>
    rw [add]
    split_ifs with hxy hyx
    · exact .inl (List.mem_cons_of_mem _ hz)
    · rcases List.mem_cons.mp hz with rfl | hz
      · exact .inl List.mem_cons_self
      · exact (ih hz).imp_left (List.mem_cons_of_mem _)
    · rcases List.mem_cons.mp hz with rfl | hz
      · exact .inr ⟨hxy, hyx⟩
      · exact .inl (List.mem_cons_of_mem _ hz)

section Order

variable [Std.Asymm lt] [IsOrderConnected α lt]

omit [DecidableRel lt] in
theorem lt_trans_of_connected {x y z : α} (hxy : lt x y) (hyz : lt y z) : lt x z :=
  (IsOrderConnected.conn x z y hxy).resolve_right (asymm hyz)

omit [DecidableRel lt] [Std.Asymm lt] in
/-- An item that is equal to `y` is below what `y` is below. -/
theorem lt_of_equal_of_lt {x y z : α} (hyx : ¬lt y x) (hyz : lt y z) : lt x z :=
  (IsOrderConnected.conn y x z hyz).resolve_left hyx

/-- Adding an item keeps the vector sorted. -/
theorem add_pairwise {x : α} {ys : List α} (h : ys.Pairwise lt) : (add lt x ys).Pairwise lt := by
  induction ys with
  | nil => exact List.pairwise_singleton _ _
  | cons y ys ih =>
    obtain ⟨hy, hys⟩ := List.pairwise_cons.mp h
    rw [add]
    split_ifs with hxy hyx
    · refine List.pairwise_cons.mpr ⟨fun z hz => ?_, h⟩
      rcases List.mem_cons.mp hz with rfl | hz
      · exact hxy
      · exact lt_trans_of_connected hxy (hy z hz)
    · refine List.pairwise_cons.mpr ⟨fun z hz => ?_, ih hys⟩
      rcases mem_of_mem_add hz with rfl | hz
      · exact hyx
      · exact hy z hz
    · exact List.pairwise_cons.mpr ⟨fun z hz => lt_of_equal_of_lt hyx (hy z hz), hys⟩

omit [DecidableRel lt] [Std.Asymm lt] [IsOrderConnected α lt] in
/-- Equal items of a sorted vector are one item. -/
theorem eq_of_equal {a b : α} {ys : List α} (h : ys.Pairwise lt) (ha : a ∈ ys) (hb : b ∈ ys)
    (hab : ¬lt a b) (hba : ¬lt b a) : a = b := by
  induction ys with
  | nil => cases ha
  | cons y ys ih =>
    obtain ⟨hy, hys⟩ := List.pairwise_cons.mp h
    rcases List.mem_cons.mp ha with rfl | ha'
    · rcases List.mem_cons.mp hb with rfl | hb'
      · rfl
      · exact absurd (hy b hb') hab
    · rcases List.mem_cons.mp hb with rfl | hb'
      · exact absurd (hy a ha') hba
      · exact ih hys ha' hb'

/-- What is in a sorted vector after an item is added. -/
theorem mem_add_iff {x z : α} {ys : List α} (h : ys.Pairwise lt) :
    z ∈ add lt x ys ↔ z = x ∨ z ∈ ys ∧ (lt x z ∨ lt z x) := by
  constructor
  · intro hz
    by_cases hequal : lt x z ∨ lt z x
    · exact (mem_of_mem_add hz).imp_right fun hz => ⟨hz, hequal⟩
    · obtain ⟨hxz, hzx⟩ := not_or.mp hequal
      exact .inl (eq_of_equal (add_pairwise h) hz (self_mem_add x ys) hzx hxz)
  · rintro (rfl | ⟨hz, hne⟩)
    · exact self_mem_add z ys
    · exact (mem_add_of_mem hz).resolve_right fun hequal => hne.elim hequal.1 hequal.2

omit [Std.Asymm lt] in
/-- Looking an item up in a sorted vector finds the one that is equal to it. -/
theorem lookup_eq_some_iff {x y : α} {ys : List α} (h : ys.Pairwise lt) :
    lookup lt x ys = some y ↔ y ∈ ys ∧ ¬lt x y ∧ ¬lt y x := by
  constructor
  · intro hfind
    exact ⟨List.mem_of_find?_eq_some hfind, by simpa using List.find?_some hfind⟩
  · rintro ⟨hy, hxy, hyx⟩
    cases hfind : lookup lt x ys with
    | none =>
      have hnone := List.find?_eq_none.mp hfind y hy
      exact absurd (decide_eq_true ⟨hxy, hyx⟩) hnone
    | some z =>
      have hz : ¬lt x z ∧ ¬lt z x := by simpa using List.find?_some hfind
      have hmem : z ∈ ys := List.mem_of_find?_eq_some hfind
      refine congrArg some (eq_of_equal h hmem hy (fun hlt => ?_) fun hlt => ?_)
      · exact hxy (lt_of_equal_of_lt hz.2 hlt)
      · exact hz.1 (lt_of_equal_of_lt hyx hlt)

/-- An item takes the place of the one that is equal to it. -/
theorem add_eq_map {x y : α} {ys : List α} (h : ys.Pairwise lt) (hy : y ∈ ys) (hxy : ¬lt x y)
    (hyx : ¬lt y x) : add lt x ys = ys.map fun z => if lt x z ∨ lt z x then z else x := by
  induction ys with
  | nil => cases hy
  | cons z ys ih =>
    obtain ⟨hz, hys⟩ := List.pairwise_cons.mp h
    have hrest : ¬lt z x → ∀ w ∈ ys, lt x w ∨ lt w x := fun hzx w hw =>
      .inl (lt_of_equal_of_lt hzx (hz w hw))
    rw [add, List.map_cons]
    by_cases hxz : lt x z
    · rcases List.mem_cons.mp hy with rfl | hy
      · exact absurd hxz hxy
      · exact absurd (lt_trans_of_connected hxz (hz y hy)) hxy
    · by_cases hzx : lt z x
      · rcases List.mem_cons.mp hy with rfl | hy
        · exact absurd hzx hyx
        · rw [if_neg hxz, if_pos hzx, if_pos (.inr hzx), ih hys hy]
      · rw [if_neg hxz, if_neg hzx, if_neg (not_or.mpr ⟨hxz, hzx⟩),
          List.map_congr_left fun w hw => if_pos (hrest hzx w hw), List.map_id']

/-- The vector grows unless an equal item is there. -/
theorem length_add_eq_iff {x : α} {ys : List α} (h : ys.Pairwise lt) :
    (add lt x ys).length = ys.length ↔ ∃ y ∈ ys, ¬lt x y ∧ ¬lt y x := by
  constructor
  · intro hlength
    induction ys with
    | nil => cases hlength
    | cons y ys ih =>
      rw [add] at hlength
      split_ifs at hlength with hxy hyx
      · exact absurd hlength (Nat.succ_ne_self _)
      · obtain ⟨z, hz, hequal⟩ := ih (List.pairwise_cons.mp h).2 (Nat.succ.inj hlength)
        exact ⟨z, List.mem_cons_of_mem _ hz, hequal⟩
      · exact ⟨y, List.mem_cons_self, hxy, hyx⟩
  · rintro ⟨y, hy, hxy, hyx⟩
    rw [add_eq_map h hy hxy hyx, List.length_map]

/-- Adding an item that is there changes nothing. -/
theorem add_of_mem {x : α} {ys : List α} (h : ys.Pairwise lt) (hx : x ∈ ys) :
    add lt x ys = ys := by
  rw [add_eq_map h hx (irrefl x) (irrefl x)]
  refine (List.map_congr_left fun z hz => ?_).trans (List.map_id' ys)
  split_ifs with hne
  · rfl
  · exact eq_of_equal h hx hz (not_or.mp hne).1 (not_or.mp hne).2

omit [Std.Asymm lt] [IsOrderConnected α lt] in
/-- An item that no other one is equal to is one more item. -/
theorem add_perm {x : α} {ys : List α} (h : ∀ y ∈ ys, lt x y ∨ lt y x) :
    (add lt x ys).Perm (x :: ys) := by
  induction ys with
  | nil => exact List.Perm.refl _
  | cons y ys ih =>
    rw [add]
    split_ifs with hxy hyx
    · exact List.Perm.refl _
    · exact ((ih fun z hz => h z (List.mem_cons_of_mem _ hz)).cons y).trans (List.Perm.swap ..)
    · exact absurd (h y List.mem_cons_self) (not_or.mpr ⟨hxy, hyx⟩)

/-! ## Adding one item after the other -/

/-- The vector with all items added. -/
def addAll (lt : α → α → Prop) [DecidableRel lt] (xs ys : List α) : List α :=
  xs.foldl (fun ys x => add lt x ys) ys

theorem addAll_pairwise {xs ys : List α} (h : ys.Pairwise lt) : (addAll lt xs ys).Pairwise lt := by
  induction xs generalizing ys with
  | nil => exact h
  | cons x xs ih => exact ih (add_pairwise h)

omit [Std.Asymm lt] [IsOrderConnected α lt] in
theorem addAll_concat (xs : List α) (x : α) (ys : List α) :
    addAll lt (xs ++ [x]) ys = add lt x (addAll lt xs ys) := by
  unfold addAll
  rw [List.foldl_append]
  rfl

section Keyed

variable {K : Type v} [LinearOrder K] {f : K → α}

/-- Of the items that are added in the order of their keys, those stay that no later
one is equal to. -/
theorem mem_addAll_map_iff {ks : List K} (h : ks.Pairwise (· < ·)) {x : α} :
    x ∈ addAll lt (ks.map f) [] ↔
      ∃ k ∈ ks, f k = x ∧ ∀ j ∈ ks, k < j → lt x (f j) ∨ lt (f j) x := by
  induction ks using List.reverseRecOn with
  | nil => simp [addAll]
  | append_singleton ks k ih =>
    obtain ⟨hks, -, hlast⟩ := List.pairwise_append.mp h
    have hbelow : ∀ j ∈ ks, j < k := fun j hj => hlast j hj k (List.mem_singleton_self k)
    rw [List.map_append, List.map_singleton, addAll_concat,
      mem_add_iff (addAll_pairwise List.Pairwise.nil), ih hks]
    constructor
    · rintro (rfl | ⟨⟨j, hj, rfl, hlater⟩, hne⟩)
      · refine ⟨k, by simp, rfl, fun j hj hlt => ?_⟩
        rcases List.mem_append.mp hj with hj | hj
        · exact absurd (hlt.trans (hbelow j hj)) (lt_irrefl _)
        · rw [List.mem_singleton.mp hj] at hlt
          exact absurd hlt (lt_irrefl _)
      · refine ⟨j, List.mem_append_left _ hj, rfl, fun i hi hlt => ?_⟩
        rcases List.mem_append.mp hi with hi | hi
        · exact hlater i hi hlt
        · rw [List.mem_singleton.mp hi]
          exact hne.symm
    · rintro ⟨j, hj, rfl, hlater⟩
      rcases List.mem_append.mp hj with hj | hj
      · refine .inr ⟨⟨j, hj, rfl, fun i hi => hlater i (List.mem_append_left _ hi)⟩, ?_⟩
        exact (hlater k (by simp) (hbelow j hj)).symm
      · rw [List.mem_singleton.mp hj]
        exact .inl rfl

end Keyed

/-- Each added item is there, or one that is equal to it. -/
theorem exists_equal_mem_addAll {xs : List α} {x : α} (hx : x ∈ xs) :
    ∃ y ∈ addAll lt xs [], ¬lt x y ∧ ¬lt y x := by
  induction xs using List.reverseRecOn with
  | nil => cases hx
  | append_singleton xs z ih =>
    rw [addAll_concat]
    rcases List.mem_append.mp hx with hx | hx
    · obtain ⟨y, hy, hxy, hyx⟩ := ih hx
      have hkept : y ∈ add lt z (addAll lt xs []) ∨ ¬lt z y ∧ ¬lt y z := mem_add_of_mem hy
      rcases hkept with hy | ⟨hzy, hyz⟩
      · exact ⟨y, hy, hxy, hyx⟩
      · refine ⟨z, self_mem_add z _, fun hxz => ?_, fun hzx => ?_⟩
        · exact (IsOrderConnected.conn x y z hxz).elim hxy hyz
        · exact (IsOrderConnected.conn z y x hzx).elim hzy hyx
    · rw [List.mem_singleton.mp hx]
      exact ⟨z, self_mem_add z _, irrefl z, irrefl z⟩

end Order

/-! ## Comparing key after key -/

section Lex

variable {K : Type v}

/-- Compare a key, and then with `s` the items whose keys are equal. -/
def lex (r : K → K → Prop) (key : α → K) (s : α → α → Prop) (a b : α) : Prop :=
  r (key a) (key b) ∨ key a = key b ∧ s a b

variable {r : K → K → Prop} {key : α → K} {s : α → α → Prop}

instance lex_asymm [Std.Asymm r] [Std.Asymm s] : Std.Asymm (lex r key s) := by
  constructor
  rintro a b (hr | ⟨heq, hs⟩) (hr' | ⟨heq', hs'⟩)
  · exact asymm hr hr'
  · rw [heq'] at hr
    exact asymm hr hr
  · rw [heq] at hr'
    exact asymm hr' hr'
  · exact asymm hs hs'

instance lex_connected [Std.Trichotomous r] [IsOrderConnected K r] [IsOrderConnected α s] :
    IsOrderConnected α (lex r key s) := by
  constructor
  rintro a b c (hr | ⟨heq, hs⟩)
  · exact (IsOrderConnected.conn _ (key b) _ hr).imp .inl .inl
  · rcases trichotomous_of r (key a) (key b) with hab | hab | hba
    · exact .inl (.inl hab)
    · exact (IsOrderConnected.conn _ b _ hs).imp (fun h => .inr ⟨hab, h⟩)
        fun h => .inr ⟨hab.symm.trans heq, h⟩
    · exact .inr (.inl (heq ▸ hba))

omit [DecidableRel lt] in
/-- Items are equal when their keys are. -/
theorem lex_equal_iff [Std.Asymm r] [Std.Trichotomous r] {a b : α} :
    (¬lex r key s a b ∧ ¬lex r key s b a) ↔ key a = key b ∧ ¬s a b ∧ ¬s b a := by
  unfold lex
  constructor
  · rintro ⟨hab, hba⟩
    have hkey : key a = key b := by
      rcases trichotomous_of r (key a) (key b) with hr | heq | hr
      · exact absurd (.inl hr) hab
      · exact heq
      · exact absurd (.inl hr) hba
    exact ⟨hkey, fun hs => hab (.inr ⟨hkey, hs⟩), fun hs => hba (.inr ⟨hkey.symm, hs⟩)⟩
  · rintro ⟨hkey, hab, hba⟩
    rw [hkey]
    exact ⟨not_or.mpr ⟨irrefl _, fun h => hab h.2⟩, not_or.mpr ⟨irrefl _, fun h => hba h.2⟩⟩

/-- Without a further key. -/
def never (_ _ : α) : Prop := False

instance never_asymm : Std.Asymm (never (α := α)) := ⟨fun _ _ h => h.elim⟩

instance never_connected : IsOrderConnected α never := ⟨fun _ _ _ h => h.elim⟩

end Lex

end MtkHw.Lib.SortedVector
