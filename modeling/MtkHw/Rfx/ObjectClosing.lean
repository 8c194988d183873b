import MtkHw.Rfx.ObjectForest

/-!
# Closing objects

Closing an object closes its last child until it has none, and then takes the object out of
the list of its parent.  The child that is closed takes itself out of the list, so that the
list gets shorter; a rank that falls from parents to children bounds the depth of the calls.
`close_spec` says that closing comes to an end and takes away an object and all below it, and
`forest_stays_wellFormed` that all operations keep the forest and do to it what they should.
-/

namespace MtkHw.Rfx.RfxObject

open MtkHw.Lib MtkHw.Lib.OrderedForest

universe u v

variable {ι : Type u}

/-! ## Taking objects away -/

/-- The objects of a set may be closed. -/
def Ready (f : Objects ι) (S : Set ι) : Prop :=
  ∀ y ∈ S, f.created y ∧ f.deiniting y = false ∧ f.initing y = false

/-- The objects of a set have been taken away, and nothing has been done to the others. -/
structure Closed (f f' : Objects ι) (kids : Kids ι) (S : Set ι) : Prop where
  represents : Represents f'.toPointers (prune kids S)
  gone : ∀ y ∈ S, f'.created y = false
  kept : ∀ y, y ∉ S →
    f'.created y = f.created y ∧ f'.deiniting y = f.deiniting y ∧ f'.initing y = f.initing y

theorem Closed.trans {f₁ f₂ f₃ : Objects ι} {kids : Kids ι} {S T : Set ι}
    (h : Closed f₁ f₂ kids S) (h' : Closed f₂ f₃ (prune kids S) T) : Closed f₁ f₃ kids (S ∪ T) := by
  refine ⟨?_, fun y hy => ?_, fun y hy => ?_⟩
  · rw [← prune_prune]
    exact h'.represents
  · by_cases hT : y ∈ T
    · exact h'.gone y hT
    · rw [(h'.kept y hT).1]
      exact h.gone y (hy.resolve_right hT)
  · obtain ⟨hS, hT⟩ := not_or.mp hy
    obtain ⟨hcreated, hdeiniting, hiniting⟩ := h'.kept y hT
    obtain ⟨hcreated', hdeiniting', hiniting'⟩ := h.kept y hS
    exact ⟨hcreated.trans hcreated', hdeiniting.trans hdeiniting', hiniting.trans hiniting'⟩

/-! ## Fuel -/

variable [DecidableEq ι]

/-- With enough fuel the outcome is `r`. -/
def Settles {α : Type v} (g : Nat → Option α) (r : α) : Prop := ∃ n, ∀ m, n ≤ m → g m = some r

/-- More fuel does not change an outcome. -/
theorem fuel_mono (n : Nat) :
    (∀ (f : Objects ι) x r, close n f x = some r → close (n + 1) f x = some r) ∧
      ∀ (f : Objects ι) x r,
        releaseAllChild n f x = some r → releaseAllChild (n + 1) f x = some r := by
  induction n with
  | zero =>
    constructor
    · intro f x r h
      cases h
    · intro f x r h
      cases h
  | succ n ih =>
    constructor
    · intro f x r h
      rw [close] at h ⊢
      split_ifs at h ⊢
      obtain ⟨f', hreleased, hrest⟩ := Option.bind_eq_some_iff.mp h
      rw [ih.2 _ _ _ hreleased]
      exact hrest
    · intro f x r h
      rw [releaseAllChild] at h ⊢
      cases hlast : f.lastChildObj x with
      | none =>
        rw [hlast] at h
        exact h
      | some obj =>
        rw [hlast] at h
        obtain ⟨f', hclosed, hrest⟩ := Option.bind_eq_some_iff.mp h
        dsimp only
        rw [ih.1 _ _ _ hclosed]
        exact ih.2 _ _ _ hrest

theorem close_mono {n m : Nat} (hnm : n ≤ m) {f : Objects ι} {x : ι} {r : Objects ι}
    (h : close n f x = some r) : close m f x = some r := by
  induction hnm with
  | refl => exact h
  | step _ ih => exact (fuel_mono _).1 f x r ih

/-- Whatever the fuel, the outcome is the one with enough of it. -/
theorem Settles.eq_of_close {f : Objects ι} {x : ι} {r r' : Objects ι}
    (h : Settles (fun n => close n f x) r) {n : Nat} (hn : close n f x = some r') : r' = r := by
  obtain ⟨k, hk⟩ := h
  have hmax : close (max n k) f x = some r := hk _ (Nat.le_max_right n k)
  exact Option.some.inj ((close_mono (Nat.le_max_left n k) hn).symm.trans hmax)

/-! ## Closing -/

/-- Closing an object comes to an end and takes the object and all below it away. -/
def Closes (f : Objects ι) (kids : Kids ι) (x : ι) : Prop :=
  ∃ f', Settles (fun n => close n f x) f' ∧ Closed f f' kids (subtree kids x)

/-- Emptying the list of children, when closing a child does what it should. -/
theorem releaseAllChild_spec {rank : ι → Nat} {x : ι}
    (hclose : ∀ c, rank c < rank x → ∀ (f : Objects ι) kids, Ranked rank kids →
      Represents f.toPointers kids → Ready f (subtree kids c) → Closes f kids c)
    {f : Objects ι} {kids : Kids ι} (hrank : Ranked rank kids) (h : Represents f.toPointers kids)
    (hready : Ready f (proper kids x)) :
    ∃ f', Settles (fun n => releaseAllChild n f x) f' ∧ Closed f f' kids (proper kids x) := by
  induction hlen : (kids x).length using Nat.strong_induction_on generalizing f kids with
  | _ len ih =>
  cases hlast : f.lastChildObj x with
  | none =>
    have hnil : kids x = [] := by
      rwa [(h.thread x).last_eq, List.getLast?_eq_none_iff] at hlast
    have hempty : proper kids x = ∅ := Set.eq_empty_of_forall_notMem fun y hy => by
      obtain ⟨c, hc, -⟩ := hy
      rw [hnil] at hc
      exact List.not_mem_nil hc
    refine ⟨f, ⟨1, fun m hm => ?_⟩, ?_⟩
    · obtain ⟨k, rfl⟩ : ∃ k, m = k + 1 := ⟨m - 1, by omega⟩
      dsimp only
      rw [releaseAllChild, hlast]
    · rw [hempty]
      refine ⟨?_, fun y hy => absurd hy (Set.notMem_empty y), fun y _ => ⟨rfl, rfl, rfl⟩⟩
      rwa [prune_empty]
  | some c =>
    have hc : c ∈ kids x := by
      rw [(h.thread x).last_eq] at hlast
      exact List.mem_of_getLast? hlast
    have hx : x ∉ subtree kids c := fun hmem =>
      absurd (hrank x c hc) (Nat.not_lt.mpr (Below.rank_le hrank hmem))
    obtain ⟨f₁, ⟨n₁, hn₁⟩, hclosed₁⟩ := hclose c (hrank x c hc) f kids hrank h fun y hy =>
      hready y ⟨c, hc, hy⟩
    have hshorter : (prune kids (subtree kids c) x).length < len := by
      subst hlen
      refine Nat.lt_of_le_of_ne (prune_sublist x).length_le fun heq => ?_
      rw [← (prune_sublist x).eq_of_length heq] at hc
      exact (mem_prune.mp hc).2.2 Relation.ReflTransGen.refl
    have hproper := proper_eq hc hx
    have hready₁ : Ready f₁ (proper (prune kids (subtree kids c)) x) := fun y hy => by
      obtain ⟨hcreated, hdeiniting, hiniting⟩ := hclosed₁.kept y (notMem_of_mem_proper_prune hy)
      rw [hcreated, hdeiniting, hiniting]
      exact hready y (by rw [hproper]; exact .inr hy)
    obtain ⟨f₂, ⟨n₂, hn₂⟩, hclosed₂⟩ := ih _ hshorter
      (hrank.mono fun p y hy => (mem_prune.mp hy).1) hclosed₁.represents hready₁ rfl
    refine ⟨f₂, ⟨max n₁ n₂ + 1, fun m hm => ?_⟩, ?_⟩
    · obtain ⟨k, rfl⟩ : ∃ k, m = k + 1 := ⟨m - 1, by omega⟩
      have hchild : close k f c = some f₁ := hn₁ k (by omega)
      dsimp only
      rw [releaseAllChild, hlast]
      dsimp only
      rw [hchild, Option.bind_some]
      exact hn₂ k (by omega)
    · rw [hproper]
      exact hclosed₁.trans hclosed₂

/-- Closing an object, when all objects of its subtree may be closed. -/
theorem close_spec {rank : ι → Nat} (x : ι) {f : Objects ι} {kids : Kids ι}
    (hrank : Ranked rank kids) (h : Represents f.toPointers kids)
    (hready : Ready f (subtree kids x)) : Closes f kids x := by
  induction hk : rank x using Nat.strong_induction_on generalizing f kids x with
  | _ k ih =>
  obtain ⟨hcreated, hdeiniting, hiniting⟩ := hready x Relation.ReflTransGen.refl
  have hself := self_notMem_proper hrank x
  have hsub : ∀ {y}, y ∈ proper kids x → y ∈ subtree kids x := fun hy => by
    rw [subtree_eq]
    exact .inr hy
  obtain ⟨f₁, ⟨n, hn⟩, hclosed⟩ := releaseAllChild_spec (x := x)
    (f := { f with deiniting := Function.update f.deiniting x true })
    (fun c hc f kids hrank h hready => ih _ (hk ▸ hc) c hrank h hready rfl) hrank h
    fun y hy => by
      obtain ⟨hcreated, hdeiniting, hiniting⟩ := hready y (hsub hy)
      refine ⟨hcreated, ?_, hiniting⟩
      have hne : y ≠ x := fun heq => hself (heq ▸ hy)
      rw [← hdeiniting]
      exact Function.update_of_ne hne _ _
  obtain ⟨t, ht, hrep⟩ := hclosed.represents.removeFromParent x
  have hparent : t.parentObj x = none := by
    cases hq : t.parentObj x with
    | none => rfl
    | some q => exact absurd rfl (mem_detach.mp ((hrep.mem_iff q x).mpr hq)).2
  rw [detach_prune] at hrep
  have hcreated₁ : f₁.created x = true := (hclosed.kept x hself).1.trans hcreated
  refine ⟨{ f₁ with toPointers := t, created := Function.update f₁.created x false },
    ⟨n + 1, fun m hm => ?_⟩, hrep, fun y hy => ?_, fun y hy => ?_⟩
  · obtain ⟨j, rfl⟩ : ∃ j, m = j + 1 := ⟨m - 1, by omega⟩
    have hreleased : releaseAllChild j
        { f with deiniting := Function.update f.deiniting x true } x = some f₁ := hn j (by omega)
    dsimp only
    rw [close, if_neg (by simp [hcreated, hdeiniting, hiniting]), hreleased, Option.bind_some, ht,
      Option.bind_some, destroy, if_neg (by simp [hcreated₁, hparent])]
  · dsimp only
    by_cases hyx : y = x
    · subst hyx
      exact Function.update_self ..
    · rw [Function.update_of_ne hyx]
      rw [subtree_eq] at hy
      exact hclosed.gone y (hy.resolve_left hyx)
  · have hyx : y ≠ x := fun heq => hy (heq ▸ Relation.ReflTransGen.refl)
    obtain ⟨hcreated, hdeiniting, hiniting⟩ := hclosed.kept y fun hmem => hy (hsub hmem)
    dsimp only
    rw [Function.update_of_ne hyx]
    refine ⟨hcreated, hdeiniting.trans ?_, hiniting⟩
    exact Function.update_of_ne hyx _ _

/-! ## All operations -/

/-- Where an object goes that is given a parent, or none. -/
def moveTo (kids : Kids ι) (x : ι) : Option ι → Kids ι
  | none => detach kids x
  | some p => attach kids x p

/-- What an operation should do to the forest. -/
def Op.Does (f : Objects ι) (kids : Kids ι) : Op ι → Prop
  | create x parent =>
      ∃ f', RfxObject.create f x parent = some f' ∧
        Represents f'.toPointers (moveTo kids x parent) ∧
        f'.created = Function.update f.created x true
  | setParent x parent =>
      if parent = some x then
        RfxObject.setParent f x parent = none
      else
        ∃ f', RfxObject.setParent f x parent = some f' ∧
          Represents f'.toPointers (moveTo kids x parent) ∧ f'.created = f.created
  | removeFromParent x =>
      ∃ t, RfxObject.removeFromParent f.toPointers x = some t ∧ Represents t (detach kids x)
  | close _ x =>
      ∃ f', Settles (fun n => RfxObject.close n f x) f' ∧
        Represents f'.toPointers (prune kids (subtree kids x)) ∧
        ∀ y, f'.created y ↔ f.created y ∧ y ∉ subtree kids x

/-- An object is not made the child of one below it. -/
def Op.NoCycle (f : Objects ι) : Op ι → Prop
  | setParent x (some p) => ¬Relation.TransGen (fun y z => f.parentObj y = some z) p x
  | _ => True

/-- The pointers are those of a forest, and next and previous objects are inverse. -/
def WellFormed (f : Objects ι) : Prop :=
  (∃ kids, Represents f.toPointers kids) ∧
    ∀ x y, f.nextObj x = some y ↔ f.prevObj y = some x

/-- Every operation that applies does what it should. -/
def DoesRight (f : Objects ι) (op : Op ι) : Prop :=
  op.Applies f → ∀ kids, Represents f.toPointers kids → op.Does f kids

/-- The invariant of runs: an object that is not there is not linked, and the flags of the others
are clear. -/
structure ForestInv (f : Objects ι) : Prop where
  wellFormed : ∃ kids, Represents f.toPointers kids
  dead : ∀ x, f.created x = false → f.parentObj x = none ∧ f.firstChildObj x = none
  clear : ∀ x, f.created x → f.deiniting x = false ∧ f.initing x = false

omit [DecidableEq ι] in
theorem ForestInv.start (created : ι → Bool) : ForestInv (.start created) where
  wellFormed := ⟨_, .unlinked⟩
  dead _ _ := ⟨rfl, rfl⟩
  clear _ _ := ⟨rfl, rfl⟩

section Steps

variable {f : Objects ι} {kids : Kids ι}

omit [DecidableEq ι] in
/-- What is not there has no children and no parent. -/
theorem ForestInv.unlinked (hf : ForestInv f) (h : Represents f.toPointers kids) {x : ι}
    (hx : f.created x = false) : kids x = [] ∧ ∀ p, x ∉ kids p := by
  obtain ⟨hparent, hfirst⟩ := hf.dead x hx
  constructor
  · rwa [(h.thread x).first_eq, List.head?_eq_none_iff] at hfirst
  · intro p hmem
    cases hparent.symm.trans ((h.mem_iff p x).mp hmem)

omit [DecidableEq ι] in
/-- All below an object that is there may be closed. -/
theorem ForestInv.ready (hf : ForestInv f) (h : Represents f.toPointers kids) {x : ι}
    (hx : f.created x) : Ready f (subtree kids x) := by
  have hcreated : ∀ y ∈ subtree kids x, f.created y := by
    intro y hy
    rcases Relation.ReflTransGen.cases_tail hy with rfl | ⟨p, -, hmem⟩
    · exact hx
    · by_contra hdead
      exact (hf.unlinked h (Bool.not_eq_true _ ▸ hdead)).2 p hmem
  exact fun y hy => ⟨hcreated y hy, hf.clear y (hcreated y hy)⟩

omit [DecidableEq ι] in
/-- Being below an object by the pointers to the parents. -/
theorem Represents.below_iff (h : Represents f.toPointers kids) {x p : ι} :
    Below kids x p ↔ Relation.ReflTransGen (fun y z => f.parentObj y = some z) p x := by
  rw [Below, ← Relation.reflTransGen_swap]
  have hswap : Function.swap (fun p x => x ∈ kids p) = fun y z => f.parentObj y = some z := by
    funext y z
    exact propext (h.mem_iff z y)
  rw [hswap]

omit [DecidableEq ι] in
/-- A parent that does not make a cycle is not below the object. -/
theorem Represents.not_below (h : Represents f.toPointers kids) {x : ι} {parent : Option ι}
    (hcycle : (Op.setParent x parent).NoCycle f) (hself : parent ≠ some x) :
    ∀ p ∈ parent, ¬Below kids x p := by
  rintro p rfl hbelow
  rcases Relation.reflTransGen_iff_eq_or_transGen.mp (h.below_iff.mp hbelow) with heq | htrans
  · exact hself (congrArg some heq.symm)
  · exact hcycle htrans

/-- `setParent`, when the parent is not below the object. -/
theorem setParent_spec (h : Represents f.toPointers kids) {x : ι} {parent : Option ι}
    (hx : f.created x) (hbelow : ∀ p ∈ parent, ¬Below kids x p) :
    ∃ t, setParent f x parent = some { f with toPointers := t } ∧
      Represents t (moveTo kids x parent) := by
  cases parent with
  | none =>
    obtain ⟨t, ht, hrep⟩ := h.removeFromParent x
    refine ⟨t, ?_, hrep⟩
    rw [setParent, ht, Option.map_some]
  | some p => exact addChild_spec h hx (hbelow p rfl)

/-- A new object. -/
theorem create_spec (hf : ForestInv f) (h : Represents f.toPointers kids) {x : ι}
    {parent : Option ι} (hx : f.created x = false) (hparent : ∀ p ∈ parent, f.created p) :
    ∃ t, create f x parent = some
        { toPointers := t
          created := Function.update f.created x true
          deiniting := Function.update f.deiniting x false
          initing := Function.update f.initing x false } ∧
      Represents t (moveTo kids x parent) := by
  obtain ⟨hnil, hnot⟩ := hf.unlinked h hx
  obtain ⟨hp, hfirst⟩ := hf.dead x hx
  obtain ⟨hnext, hprev⟩ := h.detached x hp
  have hlast : f.lastChildObj x = none := by
    rw [(h.thread x).last_eq, hnil]
    rfl
  have hreset : ∀ {g : ι → Option ι}, g x = none → Function.update g x none = g := fun hg => by
    rw [← hg, Function.update_eq_self]
  unfold create
  rw [hreset hp, hreset hfirst, hreset hlast, hreset hnext, hreset hprev]
  have hbelow : ∀ p ∈ parent, ¬Below kids x p := by
    intro p hmem hbelow
    rcases Relation.ReflTransGen.cases_head hbelow with rfl | ⟨c, hc, -⟩
    · cases hx.symm.trans (hparent _ hmem)
    · rw [hnil] at hc
      exact List.not_mem_nil hc
  obtain ⟨t, ht, hrep⟩ := setParent_spec (f :=
    { toPointers := f.toPointers
      created := Function.update f.created x true
      deiniting := Function.update f.deiniting x false
      initing := Function.update f.initing x true }) h (Function.update_self ..) hbelow
  refine ⟨t, ?_, hrep⟩
  dsimp only
  rw [ht, Option.map_some]
  dsimp only
  rw [Function.update_idem]

/-- The operations that do not make a cycle do what they should. -/
theorem ForestInv.doesRight (hf : ForestInv f) {op : Op ι} (hcycle : op.NoCycle f) :
    DoesRight f op := by
  intro happlies kids h
  cases op with
  | create x parent =>
    obtain ⟨t, ht, hrep⟩ := create_spec hf h happlies.1 happlies.2
    exact ⟨_, ht, hrep, rfl⟩
  | setParent x parent =>
    rw [Op.Does]
    split_ifs with hself
    · subst hself
      exact (if_neg (by simp [happlies.1])).trans (if_pos rfl)
    · obtain ⟨t, ht, hrep⟩ := setParent_spec h happlies.1 (h.not_below hcycle hself)
      exact ⟨_, ht, hrep, rfl⟩
  | removeFromParent x => exact h.removeFromParent x
  | close fuel x =>
    obtain ⟨rank, hrank⟩ := h.isForest.ranked
    obtain ⟨f', hsettles, hclosed⟩ := close_spec x hrank h (hf.ready h happlies)
    refine ⟨f', hsettles, hclosed.represents, fun y => ?_⟩
    by_cases hy : y ∈ subtree kids x
    · rw [hclosed.gone y hy]
      exact iff_of_false Bool.false_ne_true fun hand => hand.2 hy
    · rw [(hclosed.kept y hy).1]
      exact (and_iff_left hy).symm

omit [DecidableEq ι] in
/-- The invariant, by the lists of children. -/
theorem ForestInv.of_represents (h : Represents f.toPointers kids)
    (hdead : ∀ y, f.created y = false → ∀ q, y ∉ kids q ∧ q ∉ kids y)
    (hclear : ∀ y, f.created y → f.deiniting y = false ∧ f.initing y = false) : ForestInv f := by
  refine ⟨⟨kids, h⟩, fun y hy => ⟨?_, ?_⟩, hclear⟩
  · cases hq : f.parentObj y with
    | none => rfl
    | some q => exact absurd ((h.mem_iff q y).mpr hq) (hdead y hy q).1
  · rw [(h.thread y).first_eq, List.eq_nil_iff_forall_not_mem.mpr fun q => (hdead y hy q).2]
    rfl

omit [DecidableEq ι] in
theorem ForestInv.dead_notMem (hf : ForestInv f) (h : Represents f.toPointers kids) {y : ι}
    (hy : f.created y = false) (q : ι) : y ∉ kids q ∧ q ∉ kids y := by
  obtain ⟨hnil, hnot⟩ := hf.unlinked h hy
  refine ⟨hnot q, fun hmem => ?_⟩
  rw [hnil] at hmem
  exact List.not_mem_nil hmem

theorem mem_moveTo {x y q : ι} {parent : Option ι} (h : y ∈ moveTo kids x parent q) :
    y ∈ kids q ∨ y = x ∧ parent = some q := by
  cases parent with
  | none => exact .inl (mem_detach.mp h).1
  | some p =>
    rw [moveTo, attach] at h
    split_ifs at h
    · exact .inl h
    · by_cases hq : q = p
      · subst hq
        rw [Function.update_self, List.mem_append, List.mem_singleton] at h
        exact h.imp (fun h => (mem_detach.mp h).1) fun h => ⟨h, rfl⟩
      · rw [Function.update_of_ne hq] at h
        exact .inl (mem_detach.mp h).1

/-- Moving an object that is there below one that is there. -/
theorem ForestInv.moveTo_notMem (hf : ForestInv f) (h : Represents f.toPointers kids) {x y : ι}
    {parent : Option ι} (hparent : ∀ p ∈ parent, f.created p) (hy : f.created y = false)
    (hyx : y ≠ x) (q : ι) : y ∉ moveTo kids x parent q ∧ q ∉ moveTo kids x parent y := by
  obtain ⟨hyq, hqy⟩ := hf.dead_notMem h hy q
  refine ⟨fun hmem => ?_, fun hmem => ?_⟩
  · exact (mem_moveTo hmem).elim hyq fun hand => hyx hand.1
  · refine (mem_moveTo hmem).elim hqy fun hand => ?_
    cases hy.symm.trans (hparent y hand.2)

/-- The operations that do not make a cycle keep the invariant. -/
theorem ForestInv.step {created : ι → Bool} {f' : Objects ι} (hf : ForestInv f) {op : Op ι}
    (hcycle : op.NoCycle f) (hstep : (forest created).step f op = some f') : ForestInv f' := by
  obtain ⟨happlies, hperform⟩ := Option.ite_none_right_eq_some.mp hstep
  obtain ⟨kids, h⟩ := hf.wellFormed
  have hright := hf.doesRight hcycle happlies kids h
  cases op with
  | create x parent =>
    obtain ⟨t, ht, hrep⟩ := create_spec hf h happlies.1 happlies.2
    cases ht.symm.trans hperform
    refine .of_represents hrep (fun y hy => ?_) fun y hy => ?_
    · have hyx : y ≠ x := by
        rintro rfl
        cases (Function.update_self ..).symm.trans hy
      dsimp only at hy
      rw [Function.update_of_ne hyx] at hy
      exact hf.moveTo_notMem h happlies.2 hy hyx
    · dsimp only at hy ⊢
      by_cases hyx : y = x
      · subst hyx
        exact ⟨Function.update_self .., Function.update_self ..⟩
      · rw [Function.update_of_ne hyx] at hy ⊢
        rw [Function.update_of_ne hyx]
        exact hf.clear y hy
  | setParent x parent =>
    by_cases hself : parent = some x
    · rw [Op.Does, if_pos hself] at hright
      cases hright.symm.trans hperform
    · obtain ⟨t, ht, hrep⟩ := setParent_spec h happlies.1 (h.not_below hcycle hself)
      cases ht.symm.trans hperform
      refine .of_represents hrep (fun y hy => ?_) hf.clear
      have hyx : y ≠ x := by
        rintro rfl
        cases hy.symm.trans happlies.1
      exact hf.moveTo_notMem h happlies.2 hy hyx
  | removeFromParent x =>
    obtain ⟨t, ht, hrep⟩ := hright
    obtain ⟨t', ht', rfl⟩ := Option.map_eq_some_iff.mp hperform
    cases ht.symm.trans ht'
    refine .of_represents hrep (fun y hy q => ?_) hf.clear
    obtain ⟨hyq, hqy⟩ := hf.dead_notMem h hy q
    exact ⟨fun hmem => hyq (mem_detach.mp hmem).1, fun hmem => hqy (mem_detach.mp hmem).1⟩
  | close fuel x =>
    obtain ⟨rank, hrank⟩ := h.isForest.ranked
    obtain ⟨r, hsettles, hclosed⟩ := close_spec x hrank h (hf.ready h happlies)
    cases hsettles.eq_of_close hperform
    refine .of_represents hclosed.represents (fun y hy q => ?_) fun y hy => ?_
    · by_cases hyS : y ∈ subtree kids x
      · exact ⟨fun hmem => (mem_prune.mp hmem).2.2 hyS, fun hmem => (mem_prune.mp hmem).2.1 hyS⟩
      · rw [(hclosed.kept y hyS).1] at hy
        obtain ⟨hyq, hqy⟩ := hf.dead_notMem h hy q
        exact ⟨fun hmem => hyq (mem_prune.mp hmem).1, fun hmem => hqy (mem_prune.mp hmem).1⟩
    · have hyS : y ∉ subtree kids x := fun hyS => by cases (hclosed.gone y hyS).symm.trans hy
      obtain ⟨hcreated, hdeiniting, hiniting⟩ := hclosed.kept y hyS
      rw [hcreated] at hy
      rw [hdeiniting, hiniting]
      exact hf.clear y hy

end Steps

/-- From any set of objects, along any sequence of operations in which no object is made the
child of one below it, the pointers are those of a forest, and every operation does to the forest
what it should. -/
theorem forest_stays_wellFormed {created : ι → Bool} {ops : List (Op ι)}
    (h : (forest created).Meets Op.NoCycle (.start created) ops) :
    (forest created).Along WellFormed (.start created) ops ∧
      (forest created).Meets DoesRight (.start created) ops := by
  have hstep : ∀ (f : Objects ι) op f', ForestInv f → op.NoCycle f →
      (forest created).step f op = some f' → ForestInv f' := fun f op f' hf hcycle hf' =>
    hf.step hcycle hf'
  have hwellFormed : ∀ f : Objects ι, ForestInv f → WellFormed f := by
    intro f hf
    obtain ⟨kids, hrep⟩ := hf.wellFormed
    exact ⟨⟨kids, hrep⟩, hrep.next_iff_prev⟩
  exact ⟨(forest created).along_of_meets hstep hwellFormed (.start created) h,
    h.mono (forest created) hstep (fun f op hf hcycle => hf.doesRight hcycle) (.start created)⟩

/-- Two objects below a third one: one moves behind the other, and all are closed. -/
theorem forest_stays_wellFormed_two :
    (forest fun n : Nat => n < 3).Meets Op.NoCycle (.start fun n => n < 3)
        [.setParent 1 (some 0), .setParent 2 (some 0), .setParent 1 (some 2), .close 9 0] ∧
      (forest fun n : Nat => n < 3).Along WellFormed (.start fun n => n < 3)
        [.setParent 1 (some 0), .setParent 2 (some 0), .setParent 1 (some 2), .close 9 0] := by
  have hmeets : (forest fun n : Nat => n < 3).Meets Op.NoCycle (.start fun n => n < 3)
      [.setParent 1 (some 0), .setParent 2 (some 0), .setParent 1 (some 2), .close 9 0] := by
    refine .cons _ rfl ?_ (.cons _ rfl ?_ (.cons _ rfl ?_ (.cons _ rfl trivial trivial)))
    · intro h
      obtain ⟨b, hb, -⟩ := Relation.TransGen.head'_iff.mp h
      cases hb
    · intro h
      obtain ⟨b, hb, -⟩ := Relation.TransGen.head'_iff.mp h
      cases hb
    · intro h
      obtain ⟨b, hb, hrest⟩ := Relation.TransGen.head'_iff.mp h
      cases hb
      obtain heq | ⟨c, hc, -⟩ := Relation.ReflTransGen.cases_head hrest
      · cases heq
      · cases hc
  exact ⟨hmeets, (forest_stays_wellFormed hmeets).1⟩

end MtkHw.Rfx.RfxObject
