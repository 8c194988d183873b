import Mathlib.Algebra.BigOperators.Group.List.Basic
import Mathlib.Order.Lattice
import Mathlib.Algebra.Order.Group.Int
import Mathlib.Tactic.Common
import Mathlib.Tactic.Abel

/-!
# Sweeping a line

A keyed vector holds one value for each key, in the order of the keys.  A sweep adds
the weight of each interval at its begin and takes it away at its end; the running
sum over the vector is then the weight that covers a position, and its largest
value is the largest weight over all positions.  A search that goes down a list of
groups by a bound on each of them stops when what it found bounds the next group.
-/

namespace MtkHw.Lib.Sweep

universe u v

/-! ## Keyed vectors -/

section Keyed

variable {K : Type u} [LinearOrder K] {V : Type v}

/-- The keys are strictly increasing. -/
def Sorted (es : List (K × V)) : Prop := es.Pairwise fun d e => d.1 < e.1

/-- Put `f` of what is at the key in its place. -/
def upsert (f : Option V → V) (k : K) : List (K × V) → List (K × V)
  | [] => [(k, f none)]
  | e :: es =>
    if k < e.1 then (k, f none) :: e :: es
    else if e.1 < k then e :: upsert f k es
    else (k, f (some e.2)) :: es

/-- A vector is what is before a key, what is at the key, and what is behind it, and
only what is at the key changes. -/
theorem upsert_split (f : Option V → V) (k : K) {es : List (K × V)} (h : Sorted es) :
    ∃ before after o, es = before ++ (Option.map (Prod.mk k) o).toList ++ after ∧
      upsert f k es = before ++ (k, f o) :: after ∧
      (∀ e ∈ before, e.1 < k) ∧ ∀ e ∈ after, k < e.1 := by
  induction es with
  | nil => exact ⟨[], [], none, rfl, rfl, by simp, by simp⟩
  | cons e es ih =>
    obtain ⟨he, hes⟩ := List.pairwise_cons.mp h
    rw [upsert]
    split_ifs with hlt hgt
    · refine ⟨[], e :: es, none, rfl, rfl, by simp, ?_⟩
      intro d hd
      rcases List.mem_cons.mp hd with rfl | hd
      · exact hlt
      · exact hlt.trans (he d hd)
    · obtain ⟨before, after, o, hsplit, hupsert, hbefore, hafter⟩ := ih hes
      refine ⟨e :: before, after, o, by rw [hsplit]; rfl, by rw [hupsert]; rfl, ?_, hafter⟩
      intro d hd
      rcases List.mem_cons.mp hd with rfl | hd
      · exact hgt
      · exact hbefore d hd
    · obtain rfl : e.1 = k := le_antisymm (not_lt.mp hlt) (not_lt.mp hgt)
      exact ⟨[], es, some e.2, rfl, rfl, by simp, he⟩

/-- The keys of the vector, and the new one. -/
theorem mem_keys_upsert {f : Option V → V} {k x : K} {es : List (K × V)} (h : Sorted es) :
    x ∈ (upsert f k es).map Prod.fst ↔ x = k ∨ x ∈ es.map Prod.fst := by
  obtain ⟨before, after, o, hsplit, hupsert, -, -⟩ := upsert_split f k h
  rw [hupsert, hsplit]
  cases o with
  | none => simp [or_left_comm]
  | some v =>
    simp only [List.map_append, List.map_cons, List.mem_append, List.mem_cons, Option.map_some,
      Option.toList_some, List.map_nil, List.not_mem_nil]
    tauto

/-- What is not at the key was there before. -/
theorem mem_of_mem_upsert {f : Option V → V} {k : K} {es : List (K × V)} (h : Sorted es)
    {e : K × V} (he : e ∈ upsert f k es) : e.1 = k ∨ e ∈ es := by
  obtain ⟨before, after, o, hsplit, hupsert, -, -⟩ := upsert_split f k h
  rw [hupsert] at he
  rw [hsplit]
  rcases List.mem_append.mp he with he | he
  · exact .inr (List.mem_append_left _ (List.mem_append_left _ he))
  · rcases List.mem_cons.mp he with rfl | he
    · exact .inl rfl
    · exact .inr (List.mem_append_right _ he)

theorem sorted_upsert {f : Option V → V} {k : K} {es : List (K × V)} (h : Sorted es) :
    Sorted (upsert f k es) := by
  obtain ⟨before, after, o, hsplit, hupsert, hbefore, hafter⟩ := upsert_split f k h
  rw [hsplit] at h
  rw [hupsert]
  obtain ⟨hfirst, hlast, -⟩ := List.pairwise_append.mp h
  refine List.pairwise_append.mpr ⟨(List.pairwise_append.mp hfirst).1,
    List.pairwise_cons.mpr ⟨hafter, hlast⟩, ?_⟩
  intro d hd e he
  rcases List.mem_cons.mp he with rfl | he
  · exact hbefore d hd
  · exact (hbefore d hd).trans (hafter e he)

/-- Two changes at one key are one. -/
theorem upsert_upsert (f g : Option V → V) (k : K) (es : List (K × V)) :
    upsert f k (upsert g k es) = upsert (fun o => f (some (g o))) k es := by
  induction es with
  | nil => simp [upsert]
  | cons e es ih =>
    rw [upsert]
    conv_rhs => rw [upsert]
    split_ifs with hlt hgt
    · simp [upsert]
    · rw [upsert, if_neg hlt, if_pos hgt, ih]
    · simp [upsert]

/-- A change depends on what it does at the key. -/
theorem upsert_congr {f g : Option V → V} {k : K} {es : List (K × V)} (hnone : f none = g none)
    (hsome : ∀ v, (k, v) ∈ es → f (some v) = g (some v)) : upsert f k es = upsert g k es := by
  induction es with
  | nil => rw [upsert, upsert, hnone]
  | cons e es ih =>
    rw [upsert, upsert, ih fun v hv => hsome v (List.mem_cons_of_mem _ hv), hnone]
    split_ifs with hlt hgt
    · rfl
    · rfl
    · obtain rfl : e.1 = k := le_antisymm (not_lt.mp hlt) (not_lt.mp hgt)
      rw [hsome e.2 List.mem_cons_self]

/-- What stands at the keys up to `x`. -/
def upTo (x : K) (es : List (K × V)) : List V := (es.filter (·.1 ≤ x)).map Prod.snd

theorem upTo_cons (x : K) (e : K × V) (es : List (K × V)) :
    upTo x (e :: es) = if e.1 ≤ x then e.2 :: upTo x es else upTo x es := by
  unfold upTo
  by_cases h : e.1 ≤ x
  · rw [List.filter_cons_of_pos (by simpa using h), if_pos h, List.map_cons]
  · rw [List.filter_cons_of_neg (by simpa using h), if_neg h]

theorem upTo_append (x : K) (ds es : List (K × V)) :
    upTo x (ds ++ es) = upTo x ds ++ upTo x es := by
  unfold upTo
  rw [List.filter_append, List.map_append]

/-- Nothing stands before the first key. -/
theorem upTo_of_lt {x : K} {es : List (K × V)} (h : ∀ e ∈ es, x < e.1) : upTo x es = [] := by
  unfold upTo
  rw [List.filter_eq_nil_iff.mpr fun e he => by simpa using h e he, List.map_nil]

/-- What stands up to a key is what stands before it, and at it. -/
theorem upTo_split {x : K} {ds es : List (K × V)} {v : V} (h : Sorted (ds ++ (x, v) :: es)) :
    upTo x (ds ++ (x, v) :: es) = ds.map Prod.snd ++ [v] := by
  obtain ⟨-, hlast, hcross⟩ := List.pairwise_append.mp h
  have hds : upTo x ds = ds.map Prod.snd := by
    unfold upTo
    rw [List.filter_eq_self.mpr]
    intro d hd
    exact decide_eq_true (hcross d hd _ List.mem_cons_self).le
  rw [upTo_append, hds, upTo_cons, if_pos le_rfl, upTo_of_lt (List.pairwise_cons.mp hlast).1]

end Keyed

/-! ## Running sums -/

section Sums

variable {K : Type u} [LinearOrder K] {A : Type v}

/-- The sum of what stands at the keys up to `x`. -/
def sumTo [Add A] [Zero A] (es : List (K × A)) (x : K) : A := (upTo x es).sum

theorem sumTo_append [AddMonoid A] (ds es : List (K × A)) (x : K) :
    sumTo (ds ++ es) x = sumTo ds x + sumTo es x := by
  unfold sumTo
  rw [upTo_append, List.sum_append]

theorem sumTo_cons [AddMonoid A] (e : K × A) (es : List (K × A)) (x : K) :
    sumTo (e :: es) x = (if e.1 ≤ x then e.2 else 0) + sumTo es x := by
  unfold sumTo
  rw [upTo_cons]
  split_ifs
  · exact List.sum_cons
  · exact (zero_add _).symm

theorem sumTo_of_lt [AddMonoid A] {x : K} {es : List (K × A)} (h : ∀ e ∈ es, x < e.1) :
    sumTo es x = 0 := by
  unfold sumTo
  rw [upTo_of_lt h]
  rfl

/-- Add `v` to what stands at a key. -/
def addAt [Add A] [Zero A] (k : K) (v : A) (es : List (K × A)) : List (K × A) :=
  upsert (fun o => o.elim v (· + v)) k es

theorem sumTo_addAt [AddCommMonoid A] {k : K} {v : A} {es : List (K × A)} (h : Sorted es)
    (x : K) : sumTo (addAt k v es) x = sumTo es x + if k ≤ x then v else 0 := by
  obtain ⟨before, after, o, hsplit, hupsert, -, -⟩ :=
    upsert_split (fun o : Option A => o.elim v (· + v)) k h
  rw [addAt, hupsert, hsplit, sumTo_append, sumTo_append, sumTo_append, sumTo_cons]
  have hnil : sumTo ([] : List (K × A)) x = 0 := rfl
  cases o with
  | none =>
    rw [Option.map_none, Option.toList_none, hnil, Option.elim_none]
    abel
  | some w =>
    rw [Option.map_some, Option.toList_some, sumTo_cons, hnil, Option.elim_some]
    dsimp only
    split_ifs <;> abel

variable [AddCommMonoid A] [LinearOrder A]

/-- The sum and the largest sum so far. -/
def scan : List (K × A) → A × A → A × A
  | [], s => s
  | e :: es, s => scan es (s.1 + e.2, max (s.1 + e.2) s.2)

/-- The largest running sum bounds all of them and is the start value or one of them. -/
theorem scan_spec {es : List (K × A)} (h : Sorted es) {s : A × A} (hs : s.1 ≤ s.2) :
    s.2 ≤ (scan es s).2 ∧ (∀ x, s.1 + sumTo es x ≤ (scan es s).2) ∧
      ((scan es s).2 = s.2 ∨ ∃ x, s.1 + sumTo es x = (scan es s).2) := by
  induction es generalizing s with
  | nil =>
    refine ⟨le_rfl, fun x => ?_, .inl rfl⟩
    change s.1 + 0 ≤ s.2
    rwa [add_zero]
  | cons e es ih =>
    obtain ⟨he, hes⟩ := List.pairwise_cons.mp h
    obtain ⟨hle, hbound, hreached⟩ :=
      ih hes (s := (s.1 + e.2, max (s.1 + e.2) s.2)) (le_max_left _ _)
    have hbelow : ∀ x, ¬e.1 ≤ x → sumTo es x = 0 := fun x hx =>
      sumTo_of_lt fun d hd => (not_le.mp hx).trans (he d hd)
    have hat : sumTo es e.1 = 0 := sumTo_of_lt he
    have hsum : ∀ x, e.1 ≤ x → s.1 + sumTo (e :: es) x = s.1 + e.2 + sumTo es x := by
      intro x hx
      rw [sumTo_cons, if_pos hx, add_assoc]
    refine ⟨(le_max_right _ _).trans hle, fun x => ?_, ?_⟩
    · by_cases hx : e.1 ≤ x
      · rw [hsum x hx]
        exact hbound x
      · rw [sumTo_cons, if_neg hx, hbelow x hx, add_zero, add_zero]
        exact hs.trans ((le_max_right _ _).trans hle)
    · rcases hreached with heq | ⟨x, hx⟩
      · rcases max_choice (s.1 + e.2) s.2 with hmax | hmax
        · refine .inr ⟨e.1, ?_⟩
          rw [hsum e.1 le_rfl, hat, add_zero]
          exact (heq.trans hmax).symm
        · exact .inl (heq.trans hmax)
      · by_cases hex : e.1 ≤ x
        · exact .inr ⟨x, (hsum x hex).trans hx⟩
        · refine .inr ⟨e.1, ?_⟩
          rw [hsum e.1 le_rfl, hat, ← hbelow x hex]
          exact hx

end Sums

/-! ## Intervals -/

section Intervals

variable {K : Type u} [LinearOrder K] {A : Type v} [AddCommGroup A]

/-- Add an interval's weight at its begin and take it away at its end. -/
def addInterval (es : List (K × A)) (i : (K × K) × A) : List (K × A) :=
  addAt i.1.2 (-i.2) (addAt i.1.1 i.2 es)

/-- The weight of the intervals that cover a position. -/
def coverage (is : List ((K × K) × A)) (x : K) : A :=
  (is.map fun i => if i.1.1 ≤ x ∧ x < i.1.2 then i.2 else 0).sum

theorem sorted_addInterval {es : List (K × A)} (h : Sorted es) (i : (K × K) × A) :
    Sorted (addInterval es i) := sorted_upsert (sorted_upsert h)

theorem sumTo_addInterval {es : List (K × A)} (h : Sorted es) {i : (K × K) × A}
    (hi : i.1.1 ≤ i.1.2) (x : K) :
    sumTo (addInterval es i) x = sumTo es x + if i.1.1 ≤ x ∧ x < i.1.2 then i.2 else 0 := by
  have hfirst : Sorted (addAt i.1.1 i.2 es) := sorted_upsert h
  rw [addInterval, sumTo_addAt hfirst, sumTo_addAt h, add_assoc]
  congr 1
  by_cases hend : i.1.2 ≤ x
  · rw [if_pos (hi.trans hend), if_pos hend, if_neg fun hc => absurd hend (not_le.mpr hc.2),
      add_neg_cancel]
  · by_cases hbegin : i.1.1 ≤ x
    · rw [if_pos hbegin, if_neg hend, if_pos ⟨hbegin, not_le.mp hend⟩, add_zero]
    · rw [if_neg hbegin, if_neg hend, if_neg fun hc => hbegin hc.1, add_zero]

/-- After all intervals are added the running sum is what covers the position. -/
theorem sumTo_foldl {is : List ((K × K) × A)} (hle : ∀ i ∈ is, i.1.1 ≤ i.1.2)
    {es : List (K × A)} (h : Sorted es) :
    Sorted (is.foldl addInterval es) ∧
      ∀ x, sumTo (is.foldl addInterval es) x = sumTo es x + coverage is x := by
  induction is generalizing es with
  | nil => exact ⟨h, fun x => (add_zero _).symm⟩
  | cons i is ih =>
    obtain ⟨hsorted, hsum⟩ :=
      ih (fun j hj => hle j (List.mem_cons_of_mem _ hj)) (sorted_addInterval h i)
    refine ⟨hsorted, fun x => ?_⟩
    rw [List.foldl_cons, hsum, sumTo_addInterval h (hle i List.mem_cons_self), add_assoc]
    exact congrArg _ (List.sum_cons).symm

variable [LinearOrder A]

/-- The sweep finds the largest weight over all positions, if that is not below nothing. -/
theorem scan_intervals {is : List ((K × K) × A)} (hle : ∀ i ∈ is, i.1.1 ≤ i.1.2) :
    0 ≤ (scan (is.foldl addInterval []) (0, 0)).2 ∧
      (∀ x, coverage is x ≤ (scan (is.foldl addInterval []) (0, 0)).2) ∧
      ((scan (is.foldl addInterval []) (0, 0)).2 = 0 ∨
        ∃ x, coverage is x = (scan (is.foldl addInterval []) (0, 0)).2) := by
  have hempty : Sorted ([] : List (K × A)) := List.Pairwise.nil
  obtain ⟨hsorted, hsum⟩ := sumTo_foldl hle hempty
  have hcover : ∀ x, (0 : A) + sumTo (is.foldl addInterval []) x = coverage is x := fun x => by
    rw [hsum, zero_add]
    exact zero_add _
  obtain ⟨hzero, hbound, hreached⟩ := scan_spec hsorted (s := ((0 : A), (0 : A))) le_rfl
  refine ⟨hzero, fun x => (hcover x).symm.trans_le (hbound x), hreached.imp_right ?_⟩
  rintro ⟨x, hx⟩
  exact ⟨x, (hcover x).symm.trans hx⟩

end Intervals

/-! ## Searching down -/

section Search

variable {G : Type u} {A : Type v} [LinearOrder A] {bound value : G → A}

/-- Go on to the next group while its bound is above what the last one gave. -/
def searchDown (bound value : G → A) (cur : A) : List G → A
  | [] => cur
  | g :: gs => if bound g ≤ cur then cur else searchDown bound value (value g) gs

/-- The search stops at a group: its value bounds the groups below it. -/
def StopsAt (bound value : G → A) (gs : List G) (g : G) : Prop :=
  ∀ h ∈ gs, bound h < bound g → bound h ≤ value g

/-- The search goes on behind the groups above `g`: the value of each of them is below
the bound of a lower one. -/
def Reaches (bound value : G → A) (gs : List G) (g : G) : Prop :=
  ∀ h ∈ gs, bound g < bound h → ∃ l ∈ gs, bound l < bound h ∧ value h < bound l

/-- The search gives the start value if that bounds all groups, and else the value of
the group that it reaches and stops at. -/
theorem searchDown_eq_iff {gs : List G} (hsorted : gs.Pairwise fun g h => bound h < bound g)
    {cur m : A} :
    searchDown bound value cur gs = m ↔
      (cur = m ∧ ∀ h ∈ gs, bound h ≤ cur) ∨
        (∃ h ∈ gs, cur < bound h) ∧
          ∃ g ∈ gs, value g = m ∧ StopsAt bound value gs g ∧ Reaches bound value gs g := by
  induction gs generalizing cur with
  | nil => simp [searchDown]
  | cons g gs ih =>
    obtain ⟨hg, hgs⟩ := List.pairwise_cons.mp hsorted
    have hhead : ∀ h ∈ g :: gs, h = g ∨ h ∈ gs ∧ bound h < bound g := fun h hh =>
      (List.mem_cons.mp hh).imp_right fun hh => ⟨hh, hg h hh⟩
    have hbelow : ∀ h ∈ g :: gs, bound h ≤ bound g := by
      intro h hh
      rcases hhead h hh with rfl | ⟨-, hlt⟩
      · exact le_rfl
      · exact hlt.le
    rw [searchDown]
    split_ifs with hstop
    · -- the bound of all that is left is reached
      have hall : ∀ h ∈ g :: gs, bound h ≤ cur := fun h hh => (hbelow h hh).trans hstop
      constructor
      · exact fun heq => .inl ⟨heq, hall⟩
      · rintro (⟨heq, -⟩ | ⟨⟨h, hh, hlt⟩, -⟩)
        · exact heq
        · exact absurd (hall h hh) (not_le.mpr hlt)
    · rw [ih hgs]
      constructor
      · rintro (⟨heq, hle⟩ | ⟨⟨d, hd, hbound⟩, h, hh, heq, hstops, hreaches⟩)
        · refine .inr ⟨⟨g, List.mem_cons_self, not_le.mp hstop⟩, g, List.mem_cons_self, heq,
            fun h hh hlt => ?_, fun h hh hlt => absurd (hbelow h hh) (not_le.mpr hlt)⟩
          rcases hhead h hh with rfl | ⟨hh, -⟩
          · exact absurd hlt (lt_irrefl _)
          · exact hle h hh
        · refine .inr ⟨⟨g, List.mem_cons_self, not_le.mp hstop⟩, h, List.mem_cons_of_mem _ hh,
            heq, fun e he hlt => ?_, fun e he hlt => ?_⟩
          · rcases hhead e he with rfl | ⟨he, -⟩
            · exact absurd (hlt.trans (hg h hh)) (lt_irrefl _)
            · exact hstops e he hlt
          · rcases hhead e he with rfl | ⟨he, -⟩
            · exact ⟨d, List.mem_cons_of_mem _ hd, hg d hd, hbound⟩
            · obtain ⟨l, hl, hlow⟩ := hreaches e he hlt
              exact ⟨l, List.mem_cons_of_mem _ hl, hlow⟩
      · rintro (⟨-, hle⟩ | ⟨-, h, hh, heq, hstops, hreaches⟩)
        · exact absurd (hle g List.mem_cons_self) hstop
        · rcases hhead h hh with rfl | ⟨hmem, hlow⟩
          · exact .inl ⟨heq, fun e he => hstops e (List.mem_cons_of_mem _ he) (hg e he)⟩
          · have hinside : ∀ e ∈ g :: gs, bound e ≤ bound g → ∀ l ∈ g :: gs,
                bound l < bound e → l ∈ gs := by
              intro e _ hle l hl hlt
              rcases hhead l hl with rfl | ⟨hl, -⟩
              · exact absurd hlt (not_lt.mpr hle)
              · exact hl
            refine .inr ⟨?_, h, hmem, heq, fun e he => hstops e (List.mem_cons_of_mem _ he),
              fun e he hlt => ?_⟩
            · obtain ⟨l, hl, hlt, hbound⟩ := hreaches g List.mem_cons_self hlow
              exact ⟨l, hinside g List.mem_cons_self le_rfl l hl hlt, hbound⟩
            · have he' := List.mem_cons_of_mem g he
              obtain ⟨l, hl, hlt, hbound⟩ := hreaches e he' hlt
              exact ⟨l, hinside e he' (hbelow e he') l hl hlt, hlt, hbound⟩

end Search

end MtkHw.Lib.Sweep
