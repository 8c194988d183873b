import Mathlib.Data.List.Nodup
import MtkHw.Hwc.Fences

/-!
# The query for the release fences

The release fences of a frame are asked for with two calls of `getReleaseFenceFds`: the first one
says how many there are, the second one fills the arrays.  Each layer has two slots for fences, as
the fences of a frame are given out in the next one.

Which of the two calls is served is told by a toggle that all displays share.  So the calls of a
display are served as they are meant in exactly those runs in which no display asks for the first
time while another one is between its two calls (`releaseFencesReturned_iff`).

A descriptor stands for the fence it refers to, so that a duplicate is the same.  The displays are
connected, and layers neither come nor go.  The fence of the client target takes another way.
-/

namespace MtkHw.Hwc

open Lib

/-! ## The call -/

/-- The slots for the release fences of a layer. -/
structure ReleaseSlots where
  release_fence_fd : Int := -1
  prev_release_fence_fd : Int := -1

/-- The layers of a display. -/
structure LayerMap where
  ids : List Nat
  nodup : ids.Nodup
  isClientTarget : Nat → Bool

/-- What a call writes: the number, and the entries of the arrays. -/
structure ReleaseAnswer where
  out_num_elem : Option Nat
  entries : List (Nat × Int)

namespace LayerMap

variable (m_layers : LayerMap)

/-- The layers that the loops do not skip. -/
def counted : List Nat := m_layers.ids.filter fun id => ¬m_layers.isClientTarget id

/-- The number of fences that are due. -/
def numDue (slots : Nat → ReleaseSlots) : Nat :=
  m_layers.counted.countP fun id => (slots id).prev_release_fence_fd ≠ -1

/-- The fences that are due, with their layers. -/
def due (slots : Nat → ReleaseSlots) : List (Nat × Int) :=
  m_layers.counted.flatMap fun id => (openFence (slots id).prev_release_fence_fd).map (Prod.mk id)

/-- `getReleaseFenceFds`. -/
def getReleaseFenceFds (flip : Bool) (slots : Nat → ReleaseSlots) :
    ReleaseAnswer × (Nat → ReleaseSlots) :=
  if ¬flip then (⟨some (m_layers.numDue slots), []⟩, slots)
  else (⟨none, m_layers.due slots⟩, fun id =>
    if id ∈ m_layers.counted then
      { release_fence_fd := -1, prev_release_fence_fd := (slots id).release_fence_fd }
    else slots id)

end LayerMap

/-! ## Runs -/

/-- What happens: a layer gets the release fence of a frame, or a display asks. -/
inductive ReleaseStep where
  | setReleaseFenceFd (disp layer fence : Nat)
  | getReleaseFenceFds (disp : Nat)

/-- The displays, and what their callers know.  `asked` is what the first call has announced,
between the two calls of a display; `answers` has the number announced and the number filled of
each pair.  `frame` counts the pairs of a display, and the ledger has the fences of the layers,
each with the pair in which it is due. -/
structure ReleaseQuery where
  flip : Bool
  slots : Nat → Nat → ReleaseSlots
  asked : Nat → Option (Option Nat)
  answers : List (Option Nat × Nat)
  frame : Nat → Nat
  ledger : Ledger (Nat × Nat) (Int × Nat)

/-- The entries that a second call hands out. -/
def handedOutBy (disp frame : Nat) (entries : List (Nat × Int)) :
    List ((Nat × Nat) × Handover (Int × Nat)) :=
  entries.map fun e => ((disp, e.1), { handedOut := [(e.2, frame)] })

variable (displays : Nat → LayerMap)

/-- A caller makes the next one of its two calls. -/
def ReleaseQuery.call (s : ReleaseQuery) (disp : Nat) : ReleaseQuery :=
  let r := (displays disp).getReleaseFenceFds s.flip (s.slots disp)
  let s' := { s with flip := !s.flip, slots := Function.update s.slots disp r.2 }
  match s.asked disp with
  | none => { s' with asked := Function.update s.asked disp (some r.1.out_num_elem) }
  | some announced =>
      { s' with
        asked := Function.update s.asked disp none
        answers := s.answers ++ [(announced, r.1.entries.length)]
        frame := Function.update s.frame disp (s.frame disp + 1)
        ledger := s.ledger.recordAll (handedOutBy disp (s.frame disp) r.1.entries) }

/-- The displays as a machine.  A fence for a layer that still has one is an `abort()`. -/
def releaseQuery : Machine ReleaseQuery ReleaseStep where
  init :=
    { flip := false
      slots := fun _ _ => {}
      asked := fun _ => none
      answers := []
      frame := fun _ => 0
      ledger := {} }
  step s
    | .setReleaseFenceFd disp layer fence =>
        if layer ∈ (displays disp).counted ∧ (s.slots disp layer).release_fence_fd = -1 then
          some { s with
            slots := Function.update s.slots disp (Function.update (s.slots disp) layer
              { s.slots disp layer with release_fence_fd := fence })
            ledger := s.ledger.record (disp, layer)
              { given := [((fence : Int), s.frame disp + 1)] } }
        else none
    | .getReleaseFenceFds disp => some (s.call displays disp)

/-- A fence with the pair of calls in which it is due. -/
def dueIn (fence : Int) (frame : Nat) : List (Int × Nat) :=
  (openFence fence).map fun f => (f, frame)

/-- The fences that a layer holds: those of this frame are due in the next pair of calls. -/
def ReleaseQuery.held (s : ReleaseQuery) (k : Nat × Nat) : List (Int × Nat) :=
  if k.2 ∈ (displays k.1).counted then
    dueIn (s.slots k.1 k.2).release_fence_fd (s.frame k.1 + 1) ++
      dueIn (s.slots k.1 k.2).prev_release_fence_fd (s.frame k.1)
  else []

/-- A first call announces the fences that are due, a second call fills as many entries, and every
fence is handed out once, by the second call of its own display in which it is due, or is not due
yet. -/
structure ReleaseFencesReturned (s : ReleaseQuery) : Prop where
  announced : ∀ disp announced, s.asked disp = some announced →
    announced = some ((displays disp).numDue (s.slots disp))
  filled : ∀ answer ∈ s.answers, answer.1 = some answer.2
  returned : s.ledger.Balanced (s.held displays)

/-- No display asks for the first time while another one is between its two calls. -/
def AsksAlone (s : ReleaseQuery) : ReleaseStep → Prop
  | .getReleaseFenceFds disp => s.asked disp = none → ∀ other, s.asked other = none
  | .setReleaseFenceFd _ _ _ => True

/-! ## The call and its answer -/

variable {displays} {m_layers : LayerMap} {slots : Nat → ReleaseSlots} {s s' : ReleaseQuery}

namespace LayerMap

/-- There are as many entries as fences that are due. -/
theorem due_length : (m_layers.due slots).length = m_layers.numDue slots := by
  rw [due, numDue]
  induction m_layers.counted with
  | nil => rfl
  | cons id ids ih =>
    rw [List.flatMap_cons, List.length_append, ih, List.countP_cons, Nat.add_comm, openFence]
    congr 1
    split
    · rename_i hfence
      rw [hfence]
      rfl
    · rename_i hfence
      rw [decide_eq_true hfence]
      rfl

theorem mem_due {e : Nat × Int} : e ∈ m_layers.due slots ↔
    e.1 ∈ m_layers.counted ∧ (slots e.1).prev_release_fence_fd = e.2 ∧ e.2 ≠ -1 := by
  rw [due, List.mem_flatMap]
  constructor
  · rintro ⟨id, hid, hmem⟩
    obtain ⟨fence, hfence, rfl⟩ := List.mem_map.mp hmem
    rw [openFence] at hfence
    split at hfence
    · exact absurd hfence List.not_mem_nil
    · rename_i hopen
      rw [List.mem_singleton] at hfence
      subst hfence
      exact ⟨hid, rfl, hopen⟩
  · rintro ⟨hid, hfence, hopen⟩
    refine ⟨e.1, hid, List.mem_map.mpr ⟨e.2, ?_, rfl⟩⟩
    rw [hfence, openFence, if_neg hopen]
    exact List.mem_singleton_self _

/-- A layer has at most one entry. -/
theorem due_nodup : ((m_layers.due slots).map Prod.fst).Nodup := by
  have hkeys : (m_layers.due slots).map Prod.fst =
      m_layers.counted.filter fun id => (slots id).prev_release_fence_fd ≠ -1 := by
    rw [due]
    induction m_layers.counted with
    | nil => rfl
    | cons id ids ih =>
      rw [List.flatMap_cons, List.map_append, ih, openFence]
      split
      · rename_i hfence
        rw [List.filter_cons_of_neg (by simpa using hfence)]
        rfl
      · rename_i hfence
        rw [List.filter_cons_of_pos (by simpa using hfence)]
        rfl
  rw [hkeys]
  exact (m_layers.nodup.filter _).filter _

end LayerMap

/-! ## The toggle -/

/-- The toggle says whether a display is between its two calls, and at most one is. -/
def OneAsks (s : ReleaseQuery) : Prop :=
  (s.flip = false ∧ ∀ disp, s.asked disp = none) ∨
    (s.flip = true ∧ ∃ disp, s.asked disp ≠ none ∧ ∀ other, other ≠ disp → s.asked other = none)

/-- Every first call has announced a number. -/
def Announces (s : ReleaseQuery) : Prop :=
  (∀ disp, s.asked disp ≠ some none) ∧ ∀ answer ∈ s.answers, answer.1 ≠ none

theorem ReleaseFencesReturned.announces (h : ReleaseFencesReturned displays s) : Announces s := by
  refine ⟨fun disp hnone => ?_, fun answer hmem => ?_⟩
  · cases h.announced disp none hnone
  · rw [h.filled answer hmem]
    exact Option.some_ne_none _

section

variable {disp : Nat}

/-- The first call of a display. -/
theorem call_first (displays : Nat → LayerMap) (hasked : s.asked disp = none) :
    (s.call displays disp).flip = !s.flip ∧
      (s.call displays disp).asked = Function.update s.asked disp
        (some ((displays disp).getReleaseFenceFds s.flip (s.slots disp)).1.out_num_elem) ∧
      (s.call displays disp).answers = s.answers := by
  rw [ReleaseQuery.call, hasked]
  exact ⟨rfl, rfl, rfl⟩

/-- The second call of a display. -/
theorem call_second (displays : Nat → LayerMap) {announced : Option Nat}
    (hasked : s.asked disp = some announced) :
    (s.call displays disp).flip = !s.flip ∧
      (s.call displays disp).asked = Function.update s.asked disp none ∧
      ∃ filled, (s.call displays disp).answers = s.answers ++ [(announced, filled)] := by
  rw [ReleaseQuery.call, hasked]
  exact ⟨rfl, rfl, _, rfl⟩

/-- What has not been announced after a call was not announced before. -/
theorem announces_of_call (h : Announces (s.call displays disp)) : Announces s := by
  cases hasked : s.asked disp with
  | none =>
    obtain ⟨-, hasked', hanswers⟩ := call_first displays hasked
    refine ⟨fun other hother => ?_, hanswers ▸ h.2⟩
    have hne : other ≠ disp := by
      rintro rfl
      rw [hasked] at hother
      cases hother
    exact h.1 other (by rw [hasked', Function.update_of_ne hne, hother])
  | some announced =>
    obtain ⟨-, hasked', filled, hanswers⟩ := call_second displays hasked
    refine ⟨fun other hother => ?_, fun answer hmem => ?_⟩
    · by_cases hne : other = disp
      · subst hne
        rw [hasked] at hother
        cases hother
        exact h.2 (none, filled) (hanswers ▸ List.mem_append_right _ List.mem_cons_self) rfl
      · exact h.1 other (by rw [hasked', Function.update_of_ne hne, hother])
    · exact h.2 answer (hanswers ▸ List.mem_append_left _ hmem)

/-- As long as every first call has announced a number, the toggle is right. -/
theorem oneAsks_of_call (hs : Announces s → OneAsks s) (h : Announces (s.call displays disp)) :
    OneAsks (s.call displays disp) := by
  have hone := hs (announces_of_call h)
  cases hasked : s.asked disp with
  | none =>
    obtain ⟨hflip', hasked', -⟩ := call_first displays hasked
    rcases hone with ⟨hflip, hnone⟩ | ⟨hflip, -⟩
    · right
      rw [hflip', hasked', hflip]
      refine ⟨rfl, disp, ?_, fun other hother => ?_⟩
      · rw [Function.update_self]
        exact Option.some_ne_none _
      · rw [Function.update_of_ne hother]
        exact hnone other
    · -- The call was served as a second one, and has announced nothing.
      refine absurd ?_ (h.1 disp)
      rw [hasked', hflip, Function.update_self]
      rfl
  | some announced =>
    obtain ⟨hflip', hasked', -⟩ := call_second displays hasked
    rcases hone with ⟨-, hnone⟩ | ⟨hflip, asking, -, hothers⟩
    · rw [hnone disp] at hasked
      cases hasked
    · left
      rw [hflip', hasked', hflip]
      refine ⟨rfl, fun other => ?_⟩
      by_cases hother : other = disp
      · rw [hother, Function.update_self]
      · rw [Function.update_of_ne hother]
        refine hothers other ?_
        rintro rfl
        have hdisp : disp = other := by
          by_contra hne
          rw [hothers disp hne] at hasked
          cases hasked
        exact hother hdisp.symm

/-! ## What a step keeps -/

/-- A first call that is served as one. -/
theorem returned_of_first (h : ReleaseFencesReturned displays s) (hasked : s.asked disp = none)
    (hflip : s.flip = false) : ReleaseFencesReturned displays (s.call displays disp) := by
  have hcall : s.call displays disp = { s with
      flip := true
      asked := Function.update s.asked disp
        (some (some ((displays disp).numDue (s.slots disp)))) } := by
    rw [ReleaseQuery.call, hasked, hflip]
    change ReleaseQuery.mk _ (Function.update s.slots disp (s.slots disp)) _ _ _ _ = _
    rw [Function.update_eq_self]
    rfl
  rw [hcall]
  refine ⟨fun other announced hother => ?_, h.filled, h.returned⟩
  change Function.update s.asked disp _ other = some announced at hother
  by_cases hne : other = disp
  · subst hne
    rw [Function.update_self] at hother
    exact (Option.some.inj hother).symm
  · rw [Function.update_of_ne hne] at hother
    exact h.announced other announced hother

/-- What a layer holds after a second call of its display. -/
theorem held_second (hslots : s'.slots disp =
      ((displays disp).getReleaseFenceFds true (s.slots disp)).2)
    (hframe : s'.frame disp = s.frame disp + 1) (id : Nat) :
    s'.held displays (disp, id) = if id ∈ (displays disp).counted then
      dueIn (s.slots disp id).release_fence_fd (s.frame disp + 1) else [] := by
  rw [ReleaseQuery.held, hslots, hframe]
  change (if id ∈ _ then dueIn (if id ∈ _ then _ else _ : ReleaseSlots).release_fence_fd _ ++
    dueIn (if id ∈ _ then _ else _ : ReleaseSlots).prev_release_fence_fd _ else _) = _
  split
  · rfl
  · rfl

/-- What a layer holds is in its slots. -/
theorem held_congr {k : Nat × Nat} (hslots : s'.slots k.1 k.2 = s.slots k.1 k.2)
    (hframe : s'.frame k.1 = s.frame k.1) : s'.held displays k = s.held displays k := by
  rw [ReleaseQuery.held, hslots, hframe]
  rfl

/-- The entries of a second call are what the layers lose. -/
theorem balanced_second (h : s.ledger.Balanced (s.held displays))
    (hslots : s'.slots = Function.update s.slots disp
      ((displays disp).getReleaseFenceFds true (s.slots disp)).2)
    (hframe : s'.frame = Function.update s.frame disp (s.frame disp + 1))
    (hledger : s'.ledger = s.ledger.recordAll
      (handedOutBy disp (s.frame disp) ((displays disp).due (s.slots disp)))) :
    s'.ledger.Balanced (s'.held displays) := by
  have hsecond : ∀ id, s'.held displays (disp, id) = if id ∈ (displays disp).counted then
      dueIn (s.slots disp id).release_fence_fd (s.frame disp + 1) else [] :=
    held_second (by rw [hslots, Function.update_self]) (by rw [hframe, Function.update_self])
  have hkeys : (handedOutBy disp (s.frame disp) ((displays disp).due (s.slots disp))).map
      Prod.fst = (((displays disp).due (s.slots disp)).map Prod.fst).map (Prod.mk disp) := by
    rw [handedOutBy, List.map_map, List.map_map]
    rfl
  rw [hledger]
  refine h.recordAll ?_ (fun e he => ?_) fun k hk => ?_
  · rw [hkeys]
    exact List.Nodup.map (Prod.mk_right_injective disp) LayerMap.due_nodup
  · obtain ⟨e, hmem, rfl⟩ := List.mem_map.mp he
    obtain ⟨hid, hfence, hopen⟩ := LayerMap.mem_due.mp hmem
    have hbefore : s.held displays (disp, e.1) =
        dueIn (s.slots disp e.1).release_fence_fd (s.frame disp + 1) ++
          [(e.2, s.frame disp)] := by
      rw [ReleaseQuery.held, if_pos hid, hfence]
      congr 1
      rw [dueIn, openFence, if_neg hopen]
      rfl
    change List.Perm (s.held displays (disp, e.1))
      ([(e.2, s.frame disp)] ++ s'.held displays (disp, e.1))
    rw [hsecond, if_pos hid, hbefore]
    exact List.perm_append_comm
  · by_cases hdisp : k.1 = disp
    · obtain ⟨disp', id⟩ := k
      cases hdisp
      rw [hsecond, ReleaseQuery.held]
      split
      · rename_i hid
        have hnone : (s.slots disp' id).prev_release_fence_fd = -1 := by
          by_contra hopen
          refine hk ?_
          rw [hkeys]
          exact List.mem_map_of_mem (List.mem_map.mpr ⟨(id, _),
            LayerMap.mem_due.mpr ⟨hid, rfl, hopen⟩, rfl⟩)
        rw [hnone]
        exact (List.append_nil _).symm
      · rfl
    · refine held_congr ?_ ?_
      · rw [hslots, Function.update_of_ne hdisp]
      · rw [hframe, Function.update_of_ne hdisp]

/-- A second call that is served as one. -/
theorem returned_of_second (h : ReleaseFencesReturned displays s) {announced : Option Nat}
    (hasked : s.asked disp = some announced) (hflip : s.flip = true) :
    ReleaseFencesReturned displays (s.call displays disp) := by
  have hcall : s.call displays disp = { s with
      flip := false
      slots := Function.update s.slots disp
        ((displays disp).getReleaseFenceFds true (s.slots disp)).2
      asked := Function.update s.asked disp none
      answers := s.answers ++ [(announced, ((displays disp).due (s.slots disp)).length)]
      frame := Function.update s.frame disp (s.frame disp + 1)
      ledger := s.ledger.recordAll
        (handedOutBy disp (s.frame disp) ((displays disp).due (s.slots disp))) } := by
    rw [ReleaseQuery.call, hasked, hflip]
    rfl
  rw [hcall]
  refine ⟨fun other a hother => ?_, fun answer hmem => ?_, ?_⟩
  · change Function.update s.asked disp none other = some a at hother
    by_cases hne : other = disp
    · subst hne
      rw [Function.update_self] at hother
      cases hother
    · rw [Function.update_of_ne hne] at hother
      change a = some ((displays other).numDue (Function.update s.slots disp _ other))
      rw [Function.update_of_ne hne]
      exact h.announced other a hother
  · rcases List.mem_append.mp hmem with hmem | hmem
    · exact h.filled answer hmem
    · rw [List.mem_singleton] at hmem
      rw [hmem, LayerMap.due_length]
      exact h.announced disp announced hasked
  · exact balanced_second h.returned rfl rfl rfl

/-- A layer gets a fence. -/
theorem returned_of_set {layer fence : Nat} (h : ReleaseFencesReturned displays s)
    (hstep : (releaseQuery displays).step s (.setReleaseFenceFd disp layer fence) = some s') :
    ReleaseFencesReturned displays s' := by
  obtain ⟨⟨hid, hnone⟩, heq⟩ := Option.ite_none_right_eq_some.mp hstep
  cases heq
  have hother : ∀ d id, (d, id) ≠ (disp, layer) → Function.update s.slots disp
      (Function.update (s.slots disp) layer
        { s.slots disp layer with release_fence_fd := fence }) d id = s.slots d id := by
    intro d id hne
    by_cases hd : d = disp
    · subst hd
      rw [Function.update_self]
      refine Function.update_of_ne ?_ _ _
      rintro rfl
      exact hne rfl
    · rw [Function.update_of_ne hd]
  have hprev : ∀ d id, (Function.update s.slots disp (Function.update (s.slots disp) layer
      { s.slots disp layer with release_fence_fd := fence }) d id).prev_release_fence_fd =
        (s.slots d id).prev_release_fence_fd := by
    intro d id
    by_cases hd : (d, id) = (disp, layer)
    · cases hd
      rw [Function.update_self, Function.update_self]
    · rw [hother d id hd]
  refine ⟨fun d announced hasked => ?_, h.filled, h.returned.record ?_ fun k hk => ?_⟩
  · rw [h.announced d announced hasked]
    refine congrArg some (List.countP_congr fun id _ => ?_)
    rw [decide_eq_true_eq, decide_eq_true_eq, ← hprev d id]
  · have hbefore : s.held displays (disp, layer) =
        dueIn (s.slots disp layer).prev_release_fence_fd (s.frame disp) := by
      rw [ReleaseQuery.held, if_pos hid, hnone]
      rfl
    have hopen : dueIn (fence : Int) (s.frame disp + 1) = [((fence : Int), s.frame disp + 1)] := by
      rw [dueIn, openFence, if_neg (by omega)]
      rfl
    refine .of_eq ?_
    rw [hbefore, ReleaseQuery.held, if_pos hid]
    dsimp only
    rw [Function.update_self, Function.update_self, hopen]
    rfl
  · exact held_congr (hother k.1 k.2 hk) rfl

end

/-! ## Runs -/

/-- Every step keeps the toggle right, as long as every first call has announced a number. -/
theorem oneAsks_of_step {a : ReleaseStep} (h : Announces s → OneAsks s)
    (hstep : (releaseQuery displays).step s a = some s') : Announces s' → OneAsks s' := by
  cases a with
  | setReleaseFenceFd disp layer fence =>
    obtain ⟨-, heq⟩ := Option.ite_none_right_eq_some.mp hstep
    cases heq
    exact h
  | getReleaseFenceFds disp =>
    cases hstep
    exact oneAsks_of_call h

/-- A step keeps the promise exactly if no display asks while another one is between its calls. -/
theorem ReleaseFencesReturned.step_iff {a : ReleaseStep} (hone : OneAsks s)
    (h : ReleaseFencesReturned displays s)
    (hstep : (releaseQuery displays).step s a = some s') :
    ReleaseFencesReturned displays s' ↔ AsksAlone s a := by
  cases a with
  | setReleaseFenceFd disp layer fence => exact iff_of_true (returned_of_set h hstep) trivial
  | getReleaseFenceFds disp =>
    cases hstep
    cases hasked : s.asked disp with
    | none =>
      rcases hone with ⟨hflip, hnone⟩ | ⟨hflip, other, hother, -⟩
      · exact iff_of_true (returned_of_first h hasked hflip) fun _ => hnone
      · refine iff_of_false (fun hreturned => ?_) fun halone => hother (halone hasked other)
        -- The call was served as a second one, and has announced nothing.
        refine hreturned.announces.1 disp ?_
        rw [(call_first displays hasked).2.1, hflip, Function.update_self]
        rfl
    | some announced =>
      rcases hone with ⟨-, hnone⟩ | ⟨hflip, -⟩
      · rw [hnone disp] at hasked
        cases hasked
      · refine iff_of_true (returned_of_second h hasked hflip) fun hnone => ?_
        rw [hasked] at hnone
        cases hnone

/-- At the start no display has asked, and no layer has a fence. -/
theorem releaseFencesReturned_init :
    ReleaseFencesReturned displays (releaseQuery displays).init := by
  refine ⟨fun _ _ h => ?_, fun _ h => ?_, Ledger.balanced_empty.congr fun k => ?_⟩
  · cases h
  · cases h
  · rw [ReleaseQuery.held]
    exact ite_self _

/-- In every state of a run the calls of the displays were served as they were meant, and every
fence was returned once, one frame later, or is still to be returned: exactly in the runs in which
no display asks for the first time while another one is between its two calls. -/
theorem releaseFencesReturned_iff (displays : Nat → LayerMap) (steps : List ReleaseStep) :
    (releaseQuery displays).Along (ReleaseFencesReturned displays) (releaseQuery displays).init
        steps ↔
      (releaseQuery displays).Meets AsksAlone (releaseQuery displays).init steps := by
  refine (releaseQuery displays).along_iff_meets_of_stuck (I := fun s => Announces s → OneAsks s)
    (fun s a hstep => ?_) (fun s a s' h hstep => oneAsks_of_step h hstep)
    (fun s a s' hone h hstep => h.step_iff (hone h.announces) hstep)
    (fun _ => .inl ⟨rfl, fun _ => rfl⟩) releaseFencesReturned_init steps
  cases a with
  | setReleaseFenceFd disp layer fence => trivial
  | getReleaseFenceFds disp => cases hstep

/-- Two displays with one layer each. -/
def oneLayerEach (disp : Nat) : LayerMap := ⟨[disp], List.nodup_singleton disp, fun _ => false⟩

/-- Display 1 asks for the first time while display 0 is between its two calls: it is not told how
many fences it has, and the one that is due is written to arrays that it has not given. -/
theorem interleaved_calls_lost :
    ¬(releaseQuery oneLayerEach).Along (ReleaseFencesReturned oneLayerEach)
      (releaseQuery oneLayerEach).init
      [.setReleaseFenceFd 1 1 7, .getReleaseFenceFds 1, .getReleaseFenceFds 1,
        .getReleaseFenceFds 0, .getReleaseFenceFds 1] := by
  intro h
  have hlost : ∃ s, (releaseQuery oneLayerEach).run (releaseQuery oneLayerEach).init
      [.setReleaseFenceFd 1 1 7, .getReleaseFenceFds 1, .getReleaseFenceFds 1,
        .getReleaseFenceFds 0, .getReleaseFenceFds 1] = some s ∧
      ¬s.ledger.Balanced (s.held oneLayerEach) := by
    refine ⟨_, rfl, fun hbalanced => ?_⟩
    have hcount := hbalanced (1, 1) (7, 1)
    revert hcount
    decide
  obtain ⟨s, hrun, hunbalanced⟩ := hlost
  exact hunbalanced (h.last _ hrun).returned

end MtkHw.Hwc
