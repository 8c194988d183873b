import MtkHw.Lib.Machine
import MtkHw.Lib.TimedQueue

/-!
# Suspended messages: the main looper and `RfxRootController`

The main looper dispatches one message after the other.  A controller may refuse a
message for now (`onPreviewMessage`); it is then suspended, and after every message
handled the suspended ones are asked again
(`onCheckIfResumeMessage`) and put back at the front of the looper, behind what is
already there at time 0.

The model is over any controllers, whose answers depend on a state that the
handling of messages and the posted events change, and any interleaving of arrivals
with the steps of `RfxMainHandler::handleMessage`.  Messages that are rejected, or
are ignored because of their time stamp, never reach a controller and are left out,
and controllers are not destroyed.

`handled_inOrder` says when the messages of a controller are handled in the order
in which they arrived, and `handled_outOfOrder` is a run in which they are not.
-/

namespace MtkHw.Rfx

open Lib

universe u v w

/-- A message, with its place in the order of arrival. -/
structure Entry (M : Type w) where
  index : Nat
  msg : M
deriving DecidableEq, Repr

/-- The controllers: who handles a message, and the callbacks. -/
structure Controllers (κ : Type u) (σ : Type v) (M : Type w) where
  controller : M → κ
  onPreviewMessage : κ → σ → Bool
  onCheckIfResumeMessage : κ → σ → Bool
  onCheckIfRemoveSuspendedMessage : M → σ → Bool
  /-- `onHandleRequest`, `onHandleUrc` and `onHandleResponse` -/
  onHandle : M → σ → σ

/-- Where the main thread is. -/
inductive MainPc where
  | /-- In the looper. -/ looping
  | /-- In `handleMessage`, about to process the posted events. -/ emitting
  | /-- About to look at the suspended messages. -/ resuming
  | /-- About to see whether more events were posted. -/ testing
deriving DecidableEq, Repr

/-- The main thread, its looper and the suspended messages. -/
structure MainState (σ : Type v) (M : Type w) where
  queue : List (Timed (Entry M))
  /-- `m_suspended_msg_list` -/
  suspended : List (Entry M)
  shared : σ
  pc : MainPc
  now : Nat
  /-- How many messages have arrived. -/
  arrived : Nat
  /-- History: the messages that reached their controller. -/
  handled : List (Entry M)

/-- A step of the main thread, or an arrival. -/
inductive MainAct (σ : Type v) (M : Type w) where
  | /-- `enqueueMessage`, some time later. -/ arrive (msg : M) (elapsed : Nat)
  | /-- The looper dispatches a message. -/ dispatch
  | /-- `processEmit`: the posted events change the state. -/ emit (post : σ → σ)
  | /-- `processSuspendedMessage` -/ resume
  | /-- More events were posted. -/ again
  | /-- `handleMessage` returns. -/ finish

variable {κ : Type u} {σ : Type v} {M : Type w}

namespace Controllers

variable (C : Controllers κ σ M)

/-- `RfxController::processMessage` -/
def processMessage (s : MainState σ M) (e : Entry M) : MainState σ M :=
  if C.onPreviewMessage (C.controller e.msg) s.shared then
    { s with shared := C.onHandle e.msg s.shared, handled := s.handled ++ [e] }
  else { s with suspended := s.suspended ++ [e] }

/-- `processSuspendedMessage`: what stays suspended, and the looper's queue. -/
def processSuspendedMessage (shared : σ) :
    List (Entry M) → List (Timed (Entry M)) → List (Entry M) × List (Timed (Entry M))
  | [], queue => ([], queue)
  | e :: es, queue =>
      if C.onCheckIfRemoveSuspendedMessage e.msg shared then
        processSuspendedMessage shared es queue
      else if C.onCheckIfResumeMessage (C.controller e.msg) shared then
        processSuspendedMessage shared es (sendAtTime 0 queue e)
      else
        let (kept, queue) := processSuspendedMessage shared es queue
        (e :: kept, queue)

def step (s : MainState σ M) : MainAct σ M → Option (MainState σ M)
  | .arrive msg elapsed =>
      let now := s.now + elapsed
      some { s with
        now, queue := sendAtTime now s.queue ⟨s.arrived, msg⟩, arrived := s.arrived + 1 }
  | .dispatch =>
      match s.pc, s.queue with
      | .looping, t :: queue => some (C.processMessage { s with queue, pc := .emitting } t.item)
      | _, _ => none
  | .emit post =>
      if s.pc = .emitting then some { s with shared := post s.shared, pc := .resuming } else none
  | .resume =>
      if s.pc = .resuming then
        let (suspended, queue) := C.processSuspendedMessage s.shared s.suspended s.queue
        some { s with suspended, queue, pc := .testing }
      else none
  | .again => if s.pc = .testing then some { s with pc := .emitting } else none
  | .finish => if s.pc = .testing then some { s with pc := .looping } else none

end Controllers

/-- Nothing has arrived; the clock is running. -/
def MainState.init (shared : σ) : MainState σ M := ⟨[], [], shared, .looping, 1, 0, []⟩

/-- The main thread. -/
def mainMachine (C : Controllers κ σ M) (shared : σ) : Machine (MainState σ M) (MainAct σ M) :=
  ⟨.init shared, C.step⟩

/-- The suspended messages that resume. -/
def Controllers.resumes (C : Controllers κ σ M) (shared : σ) (e : Entry M) : Bool :=
  !C.onCheckIfRemoveSuspendedMessage e.msg shared &&
    C.onCheckIfResumeMessage (C.controller e.msg) shared

/-- The suspended messages that stay. -/
def Controllers.stays (C : Controllers κ σ M) (shared : σ) (e : Entry M) : Bool :=
  !C.onCheckIfRemoveSuspendedMessage e.msg shared &&
    !C.onCheckIfResumeMessage (C.controller e.msg) shared

/-- What resumes is removed from the list and sent to the front, in order. -/
theorem processSuspendedMessage_eq (C : Controllers κ σ M) (shared : σ) (es : List (Entry M))
    (queue : List (Timed (Entry M))) : C.processSuspendedMessage shared es queue =
      (es.filter (C.stays shared), (es.filter (C.resumes shared)).foldl (sendAtTime 0) queue) := by
  induction es generalizing queue with
  | nil => rfl
  | cons e es ih =>
    rw [Controllers.processSuspendedMessage]
    split
    · rename_i hremove
      rw [ih]
      simp [Controllers.stays, Controllers.resumes, hremove]
    · rename_i hremove
      split
      · rename_i hresume
        rw [ih]
        simp [Controllers.stays, Controllers.resumes, hremove, hresume]
      · rename_i hresume
        rw [ih]
        simp [Controllers.stays, Controllers.resumes, hremove, hresume]

/-! ## Order of the messages of a controller -/

section Order

variable [DecidableEq κ] (C : Controllers κ σ M)

/-- The places, in the order of arrival, of those messages that are for `c`. -/
def Controllers.places (c : κ) (es : List (Entry M)) : List Nat :=
  (es.filter fun e => C.controller e.msg = c).map Entry.index

/-- Every controller has handled its messages in the order of their arrival. -/
def HandledInOrder (s : MainState σ M) : Prop :=
  ∀ c, (C.places c s.handled).Pairwise (· < ·)

/-- The conditions on a step: no message is let through to a controller while
another one for it is suspended; and none is resumed for a controller that has
another one, resumed before, at the front of the looper. -/
def SuspendCond (s : MainState σ M) : MainAct σ M → Prop
  | .dispatch => ∀ t queue, s.queue = t :: queue →
      C.onPreviewMessage (C.controller t.item.msg) s.shared = true →
      ∀ e ∈ s.suspended, C.controller e.msg ≠ C.controller t.item.msg
  | .resume => ∀ e ∈ s.suspended, C.onCheckIfRemoveSuspendedMessage e.msg s.shared = false →
      C.onCheckIfResumeMessage (C.controller e.msg) s.shared = true →
      ∀ t ∈ s.queue, t.due = 0 → C.controller t.item.msg ≠ C.controller e.msg
  | _ => True

/-- The messages in the order in which they are to be handled: those handled, those
suspended and those in the looper. -/
def MainState.line (s : MainState σ M) : List (Entry M) :=
  s.handled ++ s.suspended ++ s.queue.map Timed.item

/-- What the runs that meet the conditions keep. -/
structure MainInv (s : MainState σ M) : Prop where
  inOrder : ∀ c, (C.places c s.line).Pairwise (· < ·)
  arrived : ∀ e ∈ s.line, e.index < s.arrived
  due : ∀ t ∈ s.queue, t.due ≤ s.now

variable {C}

theorem places_append (c : κ) (es es' : List (Entry M)) :
    C.places c (es ++ es') = C.places c es ++ C.places c es' := by
  simp [Controllers.places]

theorem places_sublist (c : κ) {es es' : List (Entry M)} (h : es.Sublist es') :
    (C.places c es).Sublist (C.places c es') :=
  (h.filter _).map _

theorem places_eq_nil {c : κ} {es : List (Entry M)} (h : ∀ e ∈ es, C.controller e.msg ≠ c) :
    C.places c es = [] := by
  rw [Controllers.places, List.filter_eq_nil_iff.mpr]
  · rfl
  · intro e he
    simpa using h e he

theorem MainInv.handledInOrder {s : MainState σ M} (h : MainInv C s) : HandledInOrder C s := by
  intro c
  refine (h.inOrder c).sublist (places_sublist c ?_)
  rw [MainState.line, List.append_assoc]
  exact List.sublist_append_left _ _

theorem mainInv_init (shared : σ) : MainInv C (MainState.init shared) :=
  ⟨fun _ => List.Pairwise.nil, fun e he => by simp [MainState.line, MainState.init] at he,
    fun t ht => by simp [MainState.init] at ht⟩

/-- An arrival goes to the end of the line. -/
theorem arrive_line {s : MainState σ M} (h : MainInv C s) (msg : M) (elapsed : Nat) :
    sendAtTime (s.now + elapsed) s.queue ⟨s.arrived, msg⟩ =
      s.queue ++ [⟨s.now + elapsed, ⟨s.arrived, msg⟩⟩] :=
  sendAtTime_of_le (fun t ht => (h.due t ht).trans (Nat.le_add_right _ _)) _

theorem main_arrive_inv {s s' : MainState σ M} {msg : M} {elapsed : Nat} (h : MainInv C s)
    (hstep : C.step s (.arrive msg elapsed) = some s') : MainInv C s' := by
  simp only [Controllers.step, arrive_line h] at hstep
  cases hstep
  have hline : MainState.line { s with
      now := s.now + elapsed
      queue := s.queue ++ [⟨s.now + elapsed, ⟨s.arrived, msg⟩⟩]
      arrived := s.arrived + 1 } = s.line ++ [⟨s.arrived, msg⟩] := by
    simp [MainState.line]
  refine ⟨?_, ?_, ?_⟩
  · intro c
    rw [hline, places_append, List.pairwise_append]
    refine ⟨h.inOrder c, ?_, ?_⟩
    · exact (List.pairwise_singleton (· < ·) s.arrived).sublist (List.filter_sublist.map _)
    · intro i hi j hj
      obtain ⟨e, he, rfl⟩ := List.mem_map.mp hi
      obtain ⟨e', he', rfl⟩ := List.mem_map.mp hj
      obtain rfl := List.mem_singleton.mp (List.mem_of_mem_filter he')
      exact h.arrived e (List.mem_of_mem_filter he)
  · intro e he
    rw [hline] at he
    rcases List.mem_append.mp he with he | he
    · exact Nat.lt_succ_of_lt (h.arrived e he)
    · obtain rfl := List.mem_singleton.mp he
      exact Nat.lt_succ_self _
  · intro t ht
    rcases List.mem_append.mp ht with ht | ht
    · exact (h.due t ht).trans (Nat.le_add_right _ _)
    · obtain rfl := List.mem_singleton.mp ht
      exact Nat.le_refl _

/-- A message that is let through has no older one behind it, and one that is
suspended keeps its place. -/
theorem main_dispatch_inv {s s' : MainState σ M} (h : MainInv C s)
    (hcond : SuspendCond C s .dispatch) (hstep : C.step s .dispatch = some s') :
    MainInv C s' := by
  simp only [Controllers.step] at hstep
  split at hstep
  · rename_i t queue hpc hqueue
    have hmem : ∀ e, e ∈ s.line ↔
        e ∈ s.handled ∨ e ∈ s.suspended ∨ e = t.item ∨ e ∈ queue.map Timed.item := by
      intro e
      simp [MainState.line, hqueue]
    have hdue : ∀ t ∈ queue, t.due ≤ s.now := fun t ht =>
      h.due t (hqueue ▸ List.mem_cons_of_mem _ ht)
    have hinOrder := h.inOrder
    simp only [MainState.line, hqueue, List.map_cons] at hinOrder
    simp only [Controllers.processMessage] at hstep
    split at hstep
    · rename_i hpreview
      cases hstep
      refine ⟨?_, ?_, hdue⟩
      · intro c
        have hc := hinOrder c
        simp only [MainState.line]
        by_cases htc : C.controller t.item.msg = c
        · have hnone : C.places c s.suspended = [] := places_eq_nil fun e he =>
            htc ▸ hcond t queue hqueue hpreview e he
          rw [places_append, places_append, hnone] at hc ⊢
          rw [places_append, List.append_nil, List.append_assoc, ← places_append]
          rwa [List.append_nil] at hc
        · refine hc.sublist ?_
          have hnone : C.places c [t.item] = [] := places_eq_nil fun e he =>
            List.mem_singleton.mp he ▸ htc
          rw [places_append, places_append, places_append, hnone, List.append_nil,
            ← places_append, ← places_append]
          exact places_sublist c ((List.Sublist.refl _).append (List.sublist_cons_self _ _))
      · intro e he
        refine h.arrived e ((hmem e).mpr ?_)
        simp only [MainState.line, List.mem_append, List.mem_singleton] at he
        tauto
    · cases hstep
      refine ⟨?_, ?_, hdue⟩
      · intro c
        have hc := hinOrder c
        simp only [MainState.line]
        rwa [List.append_assoc s.handled, List.append_assoc s.suspended, List.singleton_append,
          ← List.append_assoc]
      · intro e he
        refine h.arrived e ((hmem e).mpr ?_)
        simp only [MainState.line, List.mem_append, List.mem_singleton] at he
        tauto
  · cases hstep

/-- What resumes for a controller finds none of its messages at the front. -/
theorem main_resume_inv {s s' : MainState σ M} (h : MainInv C s)
    (hcond : SuspendCond C s .resume) (hstep : C.step s .resume = some s') : MainInv C s' := by
  simp only [Controllers.step, processSuspendedMessage_eq, foldl_sendAtTime] at hstep
  split at hstep
  · cases hstep
    have hqueue : s.queue.takeWhile (Timed.isDue 0) ++ s.queue.dropWhile (Timed.isDue 0) =
        s.queue := List.takeWhile_append_dropWhile
    have hfront : ∀ t ∈ s.queue.takeWhile (Timed.isDue 0), t ∈ s.queue ∧ t.due = 0 := by
      intro t ht
      have hdue : Timed.isDue 0 t = true := List.mem_takeWhile_imp ht
      exact ⟨(List.takeWhile_sublist _).mem ht, Nat.le_zero.mp (of_decide_eq_true hdue)⟩
    have hitems : ∀ es : List (Entry M), (es.map (Timed.mk 0)).map Timed.item = es := by
      intro es
      simp [Function.comp_def]
    refine ⟨?_, ?_, ?_⟩
    · intro c
      refine (h.inOrder c).sublist ?_
      have hplaces : C.places c (s.queue.map Timed.item) =
          C.places c ((s.queue.takeWhile (Timed.isDue 0)).map Timed.item) ++
            C.places c ((s.queue.dropWhile (Timed.isDue 0)).map Timed.item) := by
        rw [← places_append, ← List.map_append, hqueue]
      simp only [MainState.line, List.map_append, hitems, places_append, hplaces]
      by_cases hsome : ∃ e ∈ s.suspended, C.resumes s.shared e = true ∧ C.controller e.msg = c
      · obtain ⟨e, he, hresumes, rfl⟩ := hsome
        rw [Controllers.resumes, Bool.and_eq_true, Bool.not_eq_true'] at hresumes
        have hkept : C.places (C.controller e.msg) (s.suspended.filter (C.stays s.shared)) = [] := by
          apply places_eq_nil
          intro e' he' hsame
          have hstays := List.of_mem_filter he'
          rw [Controllers.stays, hsame, hresumes.2] at hstays
          simp at hstays
        have hnone : C.places (C.controller e.msg)
            ((s.queue.takeWhile (Timed.isDue 0)).map Timed.item) = [] := by
          apply places_eq_nil
          intro e' he'
          obtain ⟨t, ht, rfl⟩ := List.mem_map.mp he'
          exact hcond e he hresumes.1 hresumes.2 t (hfront t ht).1 (hfront t ht).2
        rw [hkept, hnone, List.append_nil, List.nil_append, List.nil_append,
          ← List.append_assoc (C.places (C.controller e.msg) s.handled)]
        exact ((List.Sublist.refl _).append
          (places_sublist _ List.filter_sublist)).append (List.Sublist.refl _)
      · have hnone : C.places c (s.suspended.filter (C.resumes s.shared)) = [] := by
          apply places_eq_nil
          intro e he hsame
          exact hsome ⟨e, List.mem_of_mem_filter he, List.of_mem_filter he, hsame⟩
        rw [hnone, List.append_nil]
        exact ((List.Sublist.refl _).append
          (places_sublist _ List.filter_sublist)).append (List.Sublist.refl _)
    · intro e he
      apply h.arrived
      rw [MainState.line, ← hqueue]
      simp only [MainState.line, List.map_append, hitems, List.mem_append] at he ⊢
      have hfilter := @List.mem_of_mem_filter _ (C.resumes s.shared) e s.suspended
      have hfilter' := @List.mem_of_mem_filter _ (C.stays s.shared) e s.suspended
      tauto
    · intro t ht
      simp only [List.mem_append] at ht
      rcases ht with (ht | ht) | ht
      · exact h.due t (hfront t ht).1
      · obtain ⟨e, -, rfl⟩ := List.mem_map.mp ht
        exact Nat.zero_le _
      · exact h.due t ((List.dropWhile_sublist _).mem ht)
  · cases hstep

/-- A step that meets the conditions keeps the invariant. -/
theorem main_step_inv {s s' : MainState σ M} {a : MainAct σ M} (h : MainInv C s)
    (hcond : SuspendCond C s a) (hstep : C.step s a = some s') : MainInv C s' := by
  cases a with
  | arrive msg elapsed => exact main_arrive_inv h hstep
  | dispatch => exact main_dispatch_inv h hcond hstep
  | resume => exact main_resume_inv h hcond hstep
  | emit post | again | finish =>
    simp only [Controllers.step] at hstep
    split at hstep
    · cases hstep
      exact ⟨h.inOrder, h.arrived, h.due⟩
    · cases hstep

variable (C)

/-- **When suspension keeps the order.**  In every run whose steps meet the
conditions, the messages of each controller reach it in the order in which they
entered the main looper. -/
theorem handled_inOrder (shared : σ) (acts : List (MainAct σ M))
    (hmeets : (mainMachine C shared).Meets (SuspendCond C) (mainMachine C shared).init acts) :
    (mainMachine C shared).Along (HandledInOrder C) (mainMachine C shared).init acts :=
  Machine.along_of_meets _ (fun _ _ _ => main_step_inv) (fun _ => MainInv.handledInOrder)
    (mainInv_init shared) hmeets

end Order

/-! ## Controllers behind gates -/

/-- A message that closes and opens gates when it is handled. -/
structure GateMsg where
  controller : Nat
  gates : List (Nat × Bool)
deriving DecidableEq, Repr

/-- Controllers that refuse, and do not resume, messages while their gate is closed. -/
def gateControllers : Controllers Nat (Nat → Bool) GateMsg where
  controller := GateMsg.controller
  onPreviewMessage c closed := !closed c
  onCheckIfResumeMessage c closed := !closed c
  onCheckIfRemoveSuspendedMessage _ _ := false
  onHandle m closed := m.gates.foldl (fun closed (c, b) => Function.update closed c b) closed

/-- `handleMessage`, with no events posted. -/
def handleSteps : List (MainAct (Nat → Bool) GateMsg) :=
  [.dispatch, .emit id, .resume, .finish]

/-- A message is suspended, the next one opens the gate, and it is handled. -/
theorem handled_inOrder_resumed :
    let M := mainMachine gateControllers (fun c => c == 1)
    let acts := [.arrive ⟨1, []⟩ 0, .arrive ⟨0, [(1, false)]⟩ 0] ++ handleSteps ++ handleSteps ++
      handleSteps
    M.Along (HandledInOrder gateControllers) M.init acts ∧
      (M.run M.init acts).map (fun s => s.handled.map Entry.index) = some [1, 0] := by
  refine ⟨handled_inOrder gateControllers _ _ ?_, by decide⟩
  refine .cons _ rfl trivial (.cons _ rfl trivial ?_)
  refine .cons _ rfl ?_ (.cons _ rfl trivial (.cons _ rfl ?_ (.cons _ rfl trivial ?_)))
  · intro t queue hqueue hpreview
    cases hqueue
    cases hpreview
  · intro e he _ hresume
    cases List.mem_singleton.mp he
    cases hresume
  · refine .cons _ rfl ?_ (.cons _ rfl trivial (.cons _ rfl ?_ (.cons _ rfl trivial ?_)))
    · intro t queue hqueue _ e he
      cases hqueue
      cases List.mem_singleton.mp he
      decide
    · intro e he _ _ t ht
      cases ht
    · refine .cons _ rfl ?_ (.cons _ rfl trivial (.cons _ rfl ?_ (.cons _ rfl trivial trivial)))
      · intro t queue hqueue _ e he
        cases he
      · intro e he
        cases he

/-- Messages for two controllers are suspended and resumed together.  The first one
handled closes the gate of the other controller, so that its older message is
suspended again; the next one opens the gate, and the older message is resumed behind
the younger one, which is still at the front. -/
theorem handled_outOfOrder :
    let M := mainMachine gateControllers (fun c => c == 1 || c == 2)
    let arrivals := [⟨2, [(1, true)]⟩, ⟨1, []⟩, ⟨2, [(1, false)]⟩, ⟨1, []⟩,
      ⟨0, [(1, false), (2, false)]⟩].map fun m => MainAct.arrive m 0
    let acts := arrivals ++ (List.replicate 10 handleSteps).flatten
    ∃ s, M.run M.init acts = some s ∧ s.handled.map Entry.index = [4, 0, 2, 3, 1] ∧
      ¬ HandledInOrder gateControllers s := by
  refine ⟨_, rfl, by decide, ?_⟩
  intro hinOrder
  exact absurd (hinOrder 1) (by decide)

end MtkHw.Rfx
