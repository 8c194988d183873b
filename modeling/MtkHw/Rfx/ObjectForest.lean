import Mathlib.Logic.Function.Basic
import MtkHw.Lib.DoubleList
import MtkHw.Lib.Machine
import MtkHw.Lib.OrderedForest

/-!
# The forest of objects

Every `RfxObject` has a pointer to its parent, to its first and last child, and to the next
and previous child of its parent.  `addChild` puts an object behind the last child of a
parent, `removeFromParent` takes it out of its list, and closing an object closes its last
child until none is left: each child takes itself out of the list that is being emptied.

The memory is one map for each field.  The callbacks (`onInit`, `onDeinit`,
`onObjectNotify`) are those of the base class, which do nothing.  An object that has been
closed is deleted, so that nothing can be done with it until its address is that of a new
one.
-/

namespace MtkHw.Rfx.RfxObject

open MtkHw.Lib MtkHw.Lib.OrderedForest

universe u

variable {ι : Type u}

/-! ## Objects -/

/-- The pointers of all objects. -/
structure Pointers (ι : Type u) where
  parentObj : ι → Option ι
  firstChildObj : ι → Option ι
  lastChildObj : ι → Option ι
  nextObj : ι → Option ι
  prevObj : ι → Option ι

/-- The objects: whether the guard of each has its pattern, its flags and its pointers. -/
structure Objects (ι : Type u) extends Pointers ι where
  created : ι → Bool
  deiniting : ι → Bool
  initing : ι → Bool

/-- No object is linked with another one. -/
def Pointers.unlinked : Pointers ι :=
  ⟨fun _ => none, fun _ => none, fun _ => none, fun _ => none, fun _ => none⟩

/-- A set of objects that are not linked. -/
def Objects.start (created : ι → Bool) : Objects ι :=
  ⟨.unlinked, created, fun _ => false, fun _ => false⟩

section Operations

variable [DecidableEq ι]

/-- `removeFromParent`: link the previous object, or the parent, with the next one; none when the
assertion fails. -/
def unlinkPrev (t : Pointers ι) (p x : ι) : Option (Pointers ι) :=
  match t.prevObj x with
  | some w => some { t with nextObj := Function.update t.nextObj w (t.nextObj x) }
  | none =>
      if t.firstChildObj p = some x then
        some { t with firstChildObj := Function.update t.firstChildObj p (t.nextObj x) }
      else
        none

/-- `removeFromParent`: link the next object, or the parent, with the previous one. -/
def unlinkNext (t : Pointers ι) (p x : ι) : Option (Pointers ι) :=
  match t.nextObj x with
  | some y => some { t with prevObj := Function.update t.prevObj y (t.prevObj x) }
  | none =>
      if t.lastChildObj p = some x then
        some { t with lastChildObj := Function.update t.lastChildObj p (t.prevObj x) }
      else
        none

/-- `removeFromParent`; none when an assertion fails. -/
def removeFromParent (t : Pointers ι) (x : ι) : Option (Pointers ι) :=
  match t.parentObj x with
  | none => some t
  | some p =>
      (unlinkPrev t p x).bind fun t => (unlinkNext t p x).map fun t =>
        { t with
          parentObj := Function.update t.parentObj x none
          prevObj := Function.update t.prevObj x none
          nextObj := Function.update t.nextObj x none }

/-- `addChild`, for a child without a parent. -/
def appendChild (t : Pointers ι) (p x : ι) : Pointers ι :=
  let t := { t with
    parentObj := Function.update t.parentObj x (some p)
    prevObj := Function.update t.prevObj x (t.lastChildObj p)
    nextObj := Function.update t.nextObj x none }
  let t := if t.firstChildObj p = none then
      { t with firstChildObj := Function.update t.firstChildObj p (some x) }
    else t
  let t := match t.lastChildObj p with
    | some w => { t with nextObj := Function.update t.nextObj w (some x) }
    | none => t
  { t with lastChildObj := Function.update t.lastChildObj p (some x) }

/-- `addChild` -/
def addChild (f : Objects ι) (p x : ι) : Option (Objects ι) :=
  if f.created x = false then none
  else if x = p then none
  else if f.parentObj x = some p then some f
  else
    (removeFromParent f.toPointers x).bind fun t =>
      if t.parentObj x ≠ none ∨ t.prevObj x ≠ none ∨ t.nextObj x ≠ none then none
      else some { f with toPointers := appendChild t p x }

/-- `setParent` -/
def setParent (f : Objects ι) (x : ι) (parent : Option ι) : Option (Objects ι) :=
  match parent with
  | none => (removeFromParent f.toPointers x).map fun t => { f with toPointers := t }
  | some p => addChild f p x

/-- `rfxObjCreate`: the constructor, and `_init`. -/
def create (f : Objects ι) (x : ι) (parent : Option ι) : Option (Objects ι) :=
  let f : Objects ι :=
    { parentObj := Function.update f.parentObj x none
      firstChildObj := Function.update f.firstChildObj x none
      lastChildObj := Function.update f.lastChildObj x none
      nextObj := Function.update f.nextObj x none
      prevObj := Function.update f.prevObj x none
      created := Function.update f.created x true
      deiniting := Function.update f.deiniting x false
      initing := Function.update f.initing x true }
  (setParent f x parent).map fun f => { f with initing := Function.update f.initing x false }

/-- The destructor. -/
def destroy (f : Objects ι) (x : ι) : Option (Objects ι) :=
  if f.created x = false ∨ f.parentObj x ≠ none then none
  else some { f with created := Function.update f.created x false }

mutual

/-- `_close`, with so much fuel: `_deinit`, and then the object is deleted. -/
def close : Nat → Objects ι → ι → Option (Objects ι)
  | 0, _, _ => none
  | n + 1, f, x =>
      if f.created x = false ∨ f.deiniting x ∨ f.initing x then none
      else
        (releaseAllChild n { f with deiniting := Function.update f.deiniting x true } x).bind
          fun f => (removeFromParent f.toPointers x).bind fun t =>
            destroy { f with toPointers := t } x

/-- `releaseAllChild` -/
def releaseAllChild : Nat → Objects ι → ι → Option (Objects ι)
  | 0, _, _ => none
  | n + 1, f, x =>
      match f.lastChildObj x with
      | none => some f
      | some obj => (close n f obj).bind fun f => releaseAllChild n f x

end

/-- What is done with an object; closing has fuel for the calls it makes. -/
inductive Op (ι : Type u)
  | create (x : ι) (parent : Option ι)
  | setParent (x : ι) (parent : Option ι)
  | removeFromParent (x : ι)
  | close (fuel : Nat) (x : ι)

/-- The objects that an operation is done with are there, and a new one is not. -/
def Op.Applies (f : Objects ι) : Op ι → Prop
  | create x parent => f.created x = false ∧ ∀ p ∈ parent, f.created p
  | setParent x parent => f.created x ∧ ∀ p ∈ parent, f.created p
  | removeFromParent x => f.created x
  | close _ x => f.created x

instance (f : Objects ι) : (op : Op ι) → Decidable (op.Applies f)
  | .create x parent =>
      inferInstanceAs (Decidable (f.created x = false ∧ ∀ p ∈ parent, f.created p))
  | .setParent x parent => inferInstanceAs (Decidable (f.created x ∧ ∀ p ∈ parent, f.created p))
  | .removeFromParent x => inferInstanceAs (Decidable (f.created x))
  | .close _ x => inferInstanceAs (Decidable (f.created x))

/-- Do an operation. -/
def Op.perform (f : Objects ι) : Op ι → Option (Objects ι)
  | create x parent => RfxObject.create f x parent
  | setParent x parent => RfxObject.setParent f x parent
  | removeFromParent x =>
      (RfxObject.removeFromParent f.toPointers x).map fun t => { f with toPointers := t }
  | close fuel x => RfxObject.close fuel f x

/-- The machine of all operations on a set of objects. -/
def forest (created : ι → Bool) : Machine (Objects ι) (Op ι) where
  init := .start created
  step f op := if op.Applies f then op.perform f else none

end Operations

/-! ## The lists that the pointers thread -/

/-- The links between the children of a parent. -/
def Pointers.links (t : Pointers ι) : Links ι := ⟨t.nextObj, t.prevObj⟩

/-- The pointers are those of an ordered forest. -/
structure Represents (t : Pointers ι) (kids : Kids ι) : Prop where
  isForest : IsForest kids
  thread : ∀ p, t.links.Thread (t.firstChildObj p) (t.lastChildObj p) (kids p)
  mem_iff : ∀ p x, x ∈ kids p ↔ t.parentObj x = some p
  detached : ∀ x, t.parentObj x = none → t.nextObj x = none ∧ t.prevObj x = none

theorem Represents.unlinked : Represents (Pointers.unlinked : Pointers ι) fun _ => [] where
  isForest := .nil
  thread _ := ⟨rfl, rfl, trivial⟩
  mem_iff _ _ := iff_of_false List.not_mem_nil (Option.some_ne_none _).symm
  detached _ _ := ⟨rfl, rfl⟩

namespace Represents

variable {t : Pointers ι} {kids : Kids ι}

/-- The next and the previous object are inverse to each other. -/
theorem next_iff_prev (h : Represents t kids) (x y : ι) :
    t.nextObj x = some y ↔ t.prevObj y = some x := by
  constructor
  · intro hnext
    cases hp : t.parentObj x with
    | none => cases (h.detached x hp).1.symm.trans hnext
    | some p => exact ((h.thread p).prev_of_next ((h.mem_iff p x).mpr hp) hnext).2
  · intro hprev
    cases hp : t.parentObj y with
    | none => cases (h.detached y hp).2.symm.trans hprev
    | some p => exact ((h.thread p).next_of_prev ((h.mem_iff p y).mpr hp) hprev).2

/-- An object's neighbours have its parent. -/
theorem parent_of_next (h : Represents t kids) {p x y : ι} (hx : x ∈ kids p)
    (hnext : t.nextObj x = some y) : y ∈ kids p :=
  ((h.thread p).prev_of_next hx hnext).1

theorem parent_of_prev (h : Represents t kids) {p x y : ι} (hx : x ∈ kids p)
    (hprev : t.prevObj x = some y) : y ∈ kids p :=
  ((h.thread p).next_of_prev hx hprev).1

end Represents

section Operations

variable [DecidableEq ι]

/-- The previous object, or the parent, is linked with the next one. -/
theorem unlinkPrev_eq {t : Pointers ι} {p x : ι}
    (hfirst : t.prevObj x = none → t.firstChildObj p = some x) :
    unlinkPrev t p x = some { t with
      nextObj := fun z => if t.prevObj x = some z then t.nextObj x else t.nextObj z
      firstChildObj := fun q =>
        if q = p ∧ t.prevObj x = none then t.nextObj x else t.firstChildObj q } := by
  unfold unlinkPrev
  cases hw : t.prevObj x with
  | some w =>
    simp only [Option.some.injEq, reduceCtorEq, and_false, if_false]
    congr 1
    funext z
    rw [Function.update_apply]
    simp only [eq_comm]
  | none =>
    simp only [hfirst hw, if_true, reduceCtorEq, and_true, if_false]
    congr 2
    funext q
    rw [Function.update_apply]

/-- The next object, or the parent, is linked with the previous one. -/
theorem unlinkNext_eq {t : Pointers ι} {p x : ι}
    (hlast : t.nextObj x = none → t.lastChildObj p = some x) :
    unlinkNext t p x = some { t with
      prevObj := fun z => if t.nextObj x = some z then t.prevObj x else t.prevObj z
      lastChildObj := fun q =>
        if q = p ∧ t.nextObj x = none then t.prevObj x else t.lastChildObj q } := by
  unfold unlinkNext
  cases hy : t.nextObj x with
  | some y =>
    simp only [Option.some.injEq, reduceCtorEq, and_false, if_false]
    congr 1
    funext z
    rw [Function.update_apply]
    simp only [eq_comm]
  | none =>
    simp only [hlast hy, if_true, reduceCtorEq, and_true, if_false]
    congr 2
    funext q
    rw [Function.update_apply]

/-- What `removeFromParent` does to an object whose parent is `p`. -/
structure Removed (t t' : Pointers ι) (p x : ι) : Prop where
  parentObj : t'.parentObj = Function.update t.parentObj x none
  self : t'.nextObj x = none ∧ t'.prevObj x = none
  nextObj : ∀ z, z ≠ x → t'.nextObj z = if t.prevObj x = some z then t.nextObj x else t.nextObj z
  prevObj : ∀ z, z ≠ x → t'.prevObj z = if t.nextObj x = some z then t.prevObj x else t.prevObj z
  firstChildObj : ∀ q, t'.firstChildObj q =
    if q = p ∧ t.prevObj x = none then t.nextObj x else t.firstChildObj q
  lastChildObj : ∀ q, t'.lastChildObj q =
    if q = p ∧ t.nextObj x = none then t.prevObj x else t.lastChildObj q

/-- No assertion fails. -/
theorem removeFromParent_eq {t : Pointers ι} {p x : ι} (hp : t.parentObj x = some p)
    (hfirst : t.prevObj x = none → t.firstChildObj p = some x)
    (hlast : t.nextObj x = none → t.lastChildObj p = some x) :
    ∃ t', removeFromParent t x = some t' ∧ Removed t t' p x := by
  unfold removeFromParent
  rw [hp]
  dsimp only
  rw [unlinkPrev_eq hfirst, Option.bind_some, unlinkNext_eq, Option.map_some]
  · refine ⟨_, rfl, rfl, ⟨Function.update_self .., Function.update_self ..⟩, fun z hz => ?_,
      fun z hz => ?_, fun q => rfl, fun q => ?_⟩
    · exact Function.update_of_ne hz _ _
    · dsimp only
      rw [Function.update_of_ne hz]
      simp only [ite_self]
    · simp only [ite_self]
  · simpa only [ite_self] using hlast

/-- The list of the parent loses the object. -/
theorem Represents.of_removed {t t' : Pointers ι} {kids : Kids ι} {p x : ι}
    (h : Represents t kids) (hx : x ∈ kids p) (hremoved : Removed t t' p x) :
    Represents t' (detach kids x) := by
  have hother : ∀ {q}, q ≠ p → x ∉ kids q := fun hq hxq => hq (h.isForest.unique hxq hx)
  refine ⟨h.isForest.detach x, fun q => ?_, fun q y => ?_, fun y hy => ?_⟩
  · by_cases hq : q = p
    · subst hq
      obtain ⟨us, vs, hsplit⟩ := List.append_of_mem hx
      have hthread := h.thread q
      have hnodup := h.isForest.nodup q
      rw [hsplit] at hthread hnodup
      rw [detach_of_split h.isForest hsplit]
      refine hthread.remove hnodup hremoved.nextObj hremoved.prevObj ?_ ?_
      · rw [hremoved.firstChildObj]
        simp only [true_and]
        rfl
      · rw [hremoved.lastChildObj]
        simp only [true_and]
        rfl
    · rw [detach_of_notMem (hother hq), hremoved.firstChildObj, hremoved.lastChildObj,
        if_neg fun hand => hq hand.1, if_neg fun hand => hq hand.1]
      refine (h.thread q).congr (fun z hz => ?_) fun z hz => ?_
      · have hne : z ≠ x := fun heq => hother hq (heq ▸ hz)
        refine (hremoved.nextObj z hne).trans (if_neg fun hprev => hq ?_)
        exact h.isForest.unique hz (h.parent_of_prev hx hprev)
      · have hne : z ≠ x := fun heq => hother hq (heq ▸ hz)
        refine (hremoved.prevObj z hne).trans (if_neg fun hnext => hq ?_)
        exact h.isForest.unique hz (h.parent_of_next hx hnext)
  · rw [mem_detach, h.mem_iff, hremoved.parentObj]
    by_cases hy : y = x
    · subst hy
      rw [Function.update_self]
      exact iff_of_false (fun hand => hand.2 rfl) (Option.some_ne_none q).symm
    · rw [Function.update_of_ne hy]
      exact and_iff_left hy
  · by_cases hyx : y = x
    · subst hyx
      exact hremoved.self
    · rw [hremoved.parentObj, Function.update_of_ne hyx] at hy
      have hnotMem : y ∉ kids p := fun hmem => by cases hy.symm.trans ((h.mem_iff p y).mp hmem)
      rw [hremoved.nextObj y hyx, hremoved.prevObj y hyx,
        if_neg fun hprev => hnotMem (h.parent_of_prev hx hprev),
        if_neg fun hnext => hnotMem (h.parent_of_next hx hnext)]
      exact h.detached y hy

/-- An object is taken from its parent. -/
theorem Represents.removeFromParent {t : Pointers ι} {kids : Kids ι} (h : Represents t kids)
    (x : ι) : ∃ t', removeFromParent t x = some t' ∧ Represents t' (detach kids x) := by
  cases hp : t.parentObj x with
  | none =>
    refine ⟨t, ?_, ?_⟩
    · rw [RfxObject.removeFromParent, hp]
    · rwa [detach_eq_self fun p hx => ?_]
      cases hp.symm.trans ((h.mem_iff p x).mp hx)
  | some p =>
    have hx : x ∈ kids p := (h.mem_iff p x).mpr hp
    obtain ⟨us, vs, hsplit⟩ := List.append_of_mem hx
    have hthread := h.thread p
    rw [hsplit] at hthread
    obtain ⟨hprev, hnext⟩ : t.prevObj x = us.getLast? ∧ t.nextObj x = vs.head? :=
      hthread.neighbours
    have hfirst : t.prevObj x = none → t.firstChildObj p = some x := fun hnone => by
      rw [hprev] at hnone
      rw [hthread.first_eq, List.getLast?_eq_none_iff.mp hnone]
      rfl
    have hlast : t.nextObj x = none → t.lastChildObj p = some x := fun hnone => by
      rw [hnext] at hnone
      rw [hthread.last_eq, List.head?_eq_none_iff.mp hnone, List.getLast?_concat]
    obtain ⟨t', ht', hremoved⟩ := removeFromParent_eq hp hfirst hlast
    exact ⟨t', ht', h.of_removed hx hremoved⟩

/-- The object is linked with the last child. -/
theorem appendChild_eq (t : Pointers ι) (p x : ι) : appendChild t p x =
    { parentObj := Function.update t.parentObj x (some p)
      firstChildObj := Function.update t.firstChildObj p ((t.firstChildObj p).or (some x))
      lastChildObj := Function.update t.lastChildObj p (some x)
      nextObj := fun z => if t.lastChildObj p = some z then some x
        else Function.update t.nextObj x none z
      prevObj := Function.update t.prevObj x (t.lastChildObj p) } := by
  have hcons : ∀ w, Function.update (Function.update t.nextObj x none) w (some x) =
      fun z => if w = z then some x else Function.update t.nextObj x none z := fun w => by
    funext z
    rw [Function.update_apply (Function.update t.nextObj x none) w]
    simp only [eq_comm]
  have hlast : t.lastChildObj p = none ∨ ∃ w, t.lastChildObj p = some w :=
    (Option.eq_none_or_eq_some _)
  unfold appendChild
  rcases Option.eq_none_or_eq_some (t.firstChildObj p) with hfirst | ⟨c, hfirst⟩
  · rcases hlast with hlast | ⟨w, hlast⟩
    · simp [hfirst, hlast]
    · simp [hfirst, hlast, hcons]
  · have hsame : Function.update t.firstChildObj p (some c) = t.firstChildObj := by
      rw [← hfirst, Function.update_eq_self]
    rcases hlast with hlast | ⟨w, hlast⟩
    · simp [hfirst, hlast, hsame]
    · simp [hfirst, hlast, hsame, hcons]

/-- An object without a parent is put behind the last child of one that is not below it. -/
theorem Represents.appendChild {t : Pointers ι} {kids : Kids ι} (h : Represents t kids) {p x : ι}
    (hx : t.parentObj x = none) (hbelow : ¬Below kids x p) :
    Represents (appendChild t p x) (Function.update kids p (kids p ++ [x])) := by
  have hnot : ∀ q, x ∉ kids q := fun q hmem => by cases hx.symm.trans ((h.mem_iff q x).mp hmem)
  have hne : ∀ {q z}, z ∈ kids q → z ≠ x := fun {q z} hz heq => hnot q (heq ▸ hz)
  have hlastMem : ∀ {w}, t.lastChildObj p = some w → w ∈ kids p := fun hw => by
    rw [(h.thread p).last_eq] at hw
    exact List.mem_of_getLast? hw
  rw [appendChild_eq]
  refine ⟨h.isForest.update_concat hnot hbelow, fun q => ?_, fun q y => ?_, fun y hy => ?_⟩
  · by_cases hq : q = p
    · subst hq
      dsimp only
      rw [Function.update_self, Function.update_self, Function.update_self]
      refine (h.thread q).concat (h.isForest.nodup q) (fun z hz => ?_) (fun z hz => ?_) ?_ ?_
      · exact congrArg (ite _ _) (Function.update_of_ne (hne hz) _ _)
      · exact Function.update_of_ne (hne hz) _ _
      · exact Function.update_self ..
      · exact (if_neg fun hlast => hnot q (hlastMem hlast)).trans (Function.update_self ..)
    · dsimp only
      rw [Function.update_of_ne hq, Function.update_of_ne hq, Function.update_of_ne hq]
      refine (h.thread q).congr (fun z hz => ?_) fun z hz => ?_
      · exact (if_neg fun hlast => hq (h.isForest.unique hz (hlastMem hlast))).trans
          (Function.update_of_ne (hne hz) _ _)
      · exact Function.update_of_ne (hne hz) _ _
  · dsimp only
    by_cases hy : y = x
    · subst hy
      rw [Function.update_self]
      by_cases hq : q = p
      · subst hq
        rw [Function.update_self]
        exact iff_of_true (List.mem_append_right _ (List.mem_singleton_self y)) rfl
      · rw [Function.update_of_ne hq]
        exact iff_of_false (hnot q) fun heq => hq (Option.some.inj heq).symm
    · rw [Function.update_of_ne hy, ← h.mem_iff]
      by_cases hq : q = p
      · subst hq
        rw [Function.update_self, List.mem_append, List.mem_singleton]
        exact or_iff_left hy
      · rw [Function.update_of_ne hq]
  · dsimp only at hy ⊢
    by_cases hyx : y = x
    · subst hyx
      rw [Function.update_self] at hy
      cases hy
    · rw [Function.update_of_ne hyx] at hy ⊢
      rw [Function.update_of_ne hyx, if_neg fun hlast => ?_]
      · exact h.detached y hy
      · cases hy.symm.trans ((h.mem_iff p y).mp (hlastMem hlast))

/-! ## What the operations do to the forest -/

/-- `addChild`: no assertion fails for an object that is not the parent itself. -/
theorem addChild_spec {f : Objects ι} {kids : Kids ι} (h : Represents f.toPointers kids) {p x : ι}
    (hx : f.created x) (hbelow : ¬Below kids x p) :
    ∃ t, addChild f p x = some { f with toPointers := t } ∧ Represents t (attach kids x p) := by
  have hne : x ≠ p := fun heq => hbelow (heq ▸ Relation.ReflTransGen.refl)
  unfold addChild
  rw [if_neg (by rw [hx]; exact Bool.true_eq_false_eq_False), if_neg hne]
  by_cases hp : f.parentObj x = some p
  · have hmem : x ∈ kids p := (h.mem_iff p x).mpr hp
    rw [if_pos hp, attach, if_pos hmem]
    exact ⟨f.toPointers, rfl, h⟩
  · have hmem : x ∉ kids p := fun hmem => hp ((h.mem_iff p x).mp hmem)
    obtain ⟨t, ht, hrep⟩ := h.removeFromParent x
    have hparent : t.parentObj x = none := by
      cases hq : t.parentObj x with
      | none => rfl
      | some q => exact absurd rfl (mem_detach.mp ((hrep.mem_iff q x).mpr hq)).2
    obtain ⟨hnext, hprev⟩ := hrep.detached x hparent
    rw [if_neg hp, ht, Option.bind_some, if_neg (by simp [hparent, hnext, hprev]),
      attach_of_notMem hmem]
    refine ⟨appendChild t p x, rfl, hrep.appendChild hparent fun hdetached => hbelow ?_⟩
    exact hdetached.mono fun q y hy => (mem_detach.mp hy).1

end Operations

end MtkHw.Rfx.RfxObject
